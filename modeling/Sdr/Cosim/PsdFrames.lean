import Sdr.Backend.PsdLossy
import Sdr.Cosim.Sessions

/-!
# PsdFrames — the spectrum frames of the co-simulation

`send_psd_frame` writes each segment field by field.  Read by the receiver, its datagrams are the
segments of one numbering over the whole run: `set_psd` changes what a frame shows but, unlike the fake
device, never the frame number, so that the segments of two configurations cannot end up in one frame.
`psd_frames_reassembled` is the reassembler's result over every run of the server and every delivery.
-/

namespace Sdr
namespace Backend

open Lib Lib.Struct Protocol

universe u

/-! ## Receiving the segments of an epoch -/

section Receive

variable {F : Type u} [PyFloat F] {E : Epoch (List Byte)} {k : Nat} {gram : Nat × Nat → List Byte}

theorem receive_arrive {a : Nat × Nat}
    (hgram : handlePsd (gram a) = .ok (some (E.header a.1 a.2, E.payload a.1 a.2)))
    (r : PsdReassembler (List Byte)) :
    (receive (F := F) r (gram a)).1 = (E.arrive r a).1 ∧
      (receive (F := F) r (gram a)).2 =
        match (E.arrive r a).2 with
        | none => .ok none
        | some segments =>
            (buildFrame (E.header a.1 a.2) (E.arrive r a).1.stats segments).map some := by
  simp only [receive, hgram, PsdReassembler.ingest, Epoch.arrive]
  rcases r.collect (E.header a.1 a.2) (E.payload a.1 a.2) with ⟨r', segments⟩
  cases segments with
  | none =>
      exact ⟨rfl, rfl⟩
  | some segments =>
      simp only
      cases buildFrame (F := F) (E.header a.1 a.2) r'.stats segments with
      | error e => exact ⟨rfl, rfl⟩
      | ok frame => exact ⟨rfl, rfl⟩

/-- Whatever is delivered of an epoch, the reassembler keeps account of it. -/
theorem holds_receiveAll (hgram : ∀ a : Nat × Nat, a.1 < k → a.2 < 8 →
      handlePsd (gram a) = .ok (some (E.header a.1 a.2, E.payload a.1 a.2)))
    {as : List (Nat × Nat)} (has : Delivers k as) : Holds E k as (receiveAll F (as.map gram)) := by
  induction as using List.reverseRecOn with
  | nil =>
      exact holds_init _ _
  | append_singleton as a ih =>
      have hsegment := has.sent a (by simp)
      have hstep := (holds_arrive (ih has.of_append) has).1
      rw [← (receive_arrive (F := F) (hgram a hsegment.1 hsegment.2) _).1] at hstep
      rw [receiveAll, List.map_append, List.map_singleton, runFrom_snoc]
      exact hstep

/-- The result of one arrival, after those before it. -/
theorem receive_delivered (hgram : ∀ a : Nat × Nat, a.1 < k → a.2 < 8 →
      handlePsd (gram a) = .ok (some (E.header a.1 a.2, E.payload a.1 a.2)))
    {as : List (Nat × Nat)} {a : Nat × Nat} (has : Delivers k (as ++ [a])) :
    (¬Full (as ++ [a]) a.1 → (receive (F := F) (receiveAll F (as.map gram)) (gram a)).2 = .ok none) ∧
      (Full (as ++ [a]) a.1 →
        ∃ stats,
          (receive (F := F) (receiveAll F (as.map gram)) (gram a)).2 =
            (buildFrame (E.header a.1 a.2) stats ((List.range 8).map (E.payload a.1))).map some) := by
  have hsegment := has.sent a (by simp)
  have hout := (holds_arrive (holds_receiveAll (F := F) hgram has.of_append) has).2
  have hreceive := (receive_arrive (F := F) (hgram a hsegment.1 hsegment.2)
    (receiveAll F (as.map gram))).2
  refine ⟨?_, ?_⟩
  · intro hunfinished
    rw [hreceive, hout, if_neg hunfinished]
  · intro hfull
    rw [hreceive, hout, if_pos hfull]
    exact ⟨_, rfl⟩

end Receive

end Backend

namespace Cosim

open Lib Lib.Struct Protocol Fpga
open Backend (Delivers Full PsdFrame PyFloat handlePsd receive receiveAll)
open CosimServer (psdPacket psdFlags)

universe u

/-! ## One datagram -/

section Datagram

variable (host : Host) (psd : PsdConfig)

def span : BitVec 64 :=
  (psd.stopFrequencyHz - psd.startFrequencyHz).setWidth 64

/-- The header of a segment. -/
def psdHeader (flags : BitVec 16) (deviceTimeMs : BitVec 64) (seg : Nat) : SdrPsdHeader where
  frameSeq := psd.frameSeq.toNat
  adcTimestamp := (deviceTimeMs * 250000).toNat
  startFrequencyHz := psd.startFrequencyHz.toNat
  binSpacingMillihz := (span psd * 1000 / 4096).toNat
  fftSize := psd.fftSize.toNat
  totalBins := 4096
  segmentIndex := seg
  segmentCount := 8
  binStart := (seg * 512 : Nat)
  binCount := 512
  flags := flags.toNat
  averagingCount := 4
  payloadBytes := 1024
  stopFrequencyHz := psd.stopFrequencyHz.toNat

/-- The bin's level. -/
def binQ8 (bin : Nat) : BitVec 16 :=
  host.level psd.startFrequencyHz (span psd) bin

/-- The levels of a segment, two bytes each. -/
def psdPayload (seg : Nat) : List Byte :=
  (List.range 512).flatMap fun i => toBytes 2 (binQ8 host psd (seg * 512 + i)).toNat

/-- All levels of a frame. -/
def frameBins : List Int :=
  (List.range 4096).map fun bin => (binQ8 host psd bin).toInt

variable {host psd}

theorem foldl_appendU16 (f : Nat → BitVec 16) (is : List Nat) (packet : List Byte) :
    is.foldl (fun packet i => appendU16 packet (f i)) packet =
      packet ++ is.flatMap fun i => toBytes 2 (f i).toNat := by
  induction is generalizing packet with
  | nil =>
      simp
  | cons i is ih =>
      rw [List.foldl_cons, ih, appendU16, List.flatMap_cons, List.append_assoc]

theorem length_psdPayload (seg : Nat) : (psdPayload host psd seg).length = 1024 := by
  have hblocks := length_flatMap_blocks (B := 2) (l := List.range 512)
    (f := fun i => toBytes 2 (binQ8 host psd (seg * 512 + i)).toNat)
    (fun i _ => length_toBytes 2 _)
  rw [psdPayload, hblocks, List.length_range]

theorem fits_psdHeader (flags : BitVec 16) (deviceTimeMs : BitVec 64) {seg : Nat} (hseg : seg < 8) :
    List.Forall₂ Code.Fits psdStruct (psdHeader psd flags deviceTimeMs seg).values := by
  have hH : ∀ v : BitVec 16, Code.H.Fits v.toNat := fun v => Code.fits_toNat v rfl rfl
  have hI : ∀ v : BitVec 32, Code.I.Fits v.toNat := fun v => Code.fits_toNat v rfl rfl
  have hQ : ∀ v : BitVec 64, Code.Q.Fits v.toNat := fun v => Code.fits_toNat v rfl rfl
  have hsmall : ∀ n : Nat, n < 65536 → Code.H.Fits n := fun n hn => Code.fits_natCast rfl hn
  have hfft : Code.I.Fits psd.fftSize.toNat :=
    Code.fits_natCast rfl (lt_of_lt_of_le psd.fftSize.isLt (by decide))
  have hwide : ∀ v : BitVec 32, Code.Q.Fits v.toNat :=
    fun v => Code.fits_natCast rfl (lt_of_lt_of_le v.isLt (by decide))
  simp only [psdStruct, SdrPsdHeader.values, psdHeader, List.forall₂_cons, List.Forall₂.nil, and_true]
  exact ⟨by decide, by decide, by decide, by decide, by decide, hI _, hQ _, hwide _, hQ _, hfft,
    by decide, hsmall _ (by omega), by decide, hsmall _ (by omega), by decide, by decide, hH _,
    by decide, by decide, hwide _⟩

theorem pack_psdHeader (psd : PsdConfig) (flags : BitVec 16) (deviceTimeMs : BitVec 64) {seg : Nat}
    (hseg : seg < 8) :
    (psdHeader psd flags deviceTimeMs seg).pack =
      .ok (List.zipWith Code.encode psdStruct
        (psdHeader psd flags deviceTimeMs seg).values).flatten := by
  refine SdrPsdHeader.pack_eq_ok.2 ⟨?_, pack_of_fits (fits_psdHeader flags deviceTimeMs hseg)⟩
  exact validateFields_eq_ok.2 ⟨rfl, rfl, rfl, rfl, rfl, rfl⟩

/-- A datagram is its header's fields, in the order of the format, and the levels. -/
theorem psdPacket_eq (flags : BitVec 16) (deviceTimeMs : BitVec 64) {seg : Nat} (hseg : seg < 8) :
    psdPacket host psd flags deviceTimeMs seg =
      (List.zipWith Code.encode psdStruct (psdHeader psd flags deviceTimeMs seg).values).flatten ++
        psdPayload host psd seg := by
  have hH : ∀ v : BitVec 16, toBytes 2 v.toNat = Code.H.encode v.toNat :=
    fun v => (Code.encode_natCast Code.H v.toNat).symm
  have hI : ∀ v : BitVec 32, toBytes 4 v.toNat = Code.I.encode v.toNat :=
    fun v => (Code.encode_natCast Code.I v.toNat).symm
  have hQ : ∀ v : BitVec 64, toBytes 8 v.toNat = Code.Q.encode v.toNat :=
    fun v => (Code.encode_natCast Code.Q v.toNat).symm
  have hindex : ((BitVec.ofNat 16 seg).toNat : Int) = seg := by
    rw [BitVec.toNat_ofNat]
    omega
  have hstart : ((BitVec.ofNat 16 (seg * 512)).toNat : Int) = (seg * 512 : Nat) := by
    rw [BitVec.toNat_ofNat]
    omega
  have hwide : ∀ v : BitVec 32, ((v.setWidth 64).toNat : Int) = v.toNat :=
    fun v => congrArg _ (BitVec.toNat_setWidth_of_le (by decide))
  have hfft : ((psd.fftSize.setWidth 32).toNat : Int) = psd.fftSize.toNat :=
    congrArg _ (BitVec.toNat_setWidth_of_le (by decide))
  -- The fields as the source writes them.
  have hvalues : (psdHeader psd flags deviceTimeMs seg).values =
      ([kPsdMagic.toNat, kProtocolVersion.toNat, (72 : BitVec 16).toNat, kFramePsd.toNat,
        (0 : BitVec 16).toNat, psd.frameSeq.toNat, (deviceTimeMs * 250000).toNat,
        (psd.startFrequencyHz.setWidth 64).toNat, (span psd * 1000 / 4096).toNat,
        (psd.fftSize.setWidth 32).toNat, (4096 : BitVec 16).toNat, seg, (8 : BitVec 16).toNat,
        (seg * 512 : Nat), (512 : BitVec 16).toNat, kPsdI16DbfsQ8.toNat, flags.toNat,
        (4 : BitVec 16).toNat, ((512 : BitVec 16).setWidth 32 * 2).toNat,
        (psd.stopFrequencyHz.setWidth 64).toNat] : List Int) := by
    rw [hwide, hwide, hfft]
    rfl
  unfold psdPacket
  simp only [foldl_appendU16]
  refine congrArg₂ (· ++ ·) ?_ rfl
  simp only [appendU16, appendU32, appendU64, hH, hI, hQ, hindex, hstart]
  rw [hvalues]
  simp only [psdStruct, List.zipWith_cons_cons, List.zipWith_nil_left, List.flatten_cons,
    List.flatten_nil, List.append_assoc, List.nil_append, List.append_nil, span]

/-- The receiver reads a datagram as its header and its levels. -/
theorem handlePsd_psdPacket (flags : BitVec 16) (deviceTimeMs : BitVec 64) {seg : Nat}
    (hseg : seg < 8) :
    handlePsd (psdPacket host psd flags deviceTimeMs seg) =
      .ok (some (psdHeader psd flags deviceTimeMs seg, psdPayload host psd seg)) := by
  have hpack := pack_psdHeader psd flags deviceTimeMs hseg
  have hlen := SdrPsdHeader.length_of_pack hpack
  have hunpack := SdrPsdHeader.unpack_pack [] hpack
  rw [List.append_nil] at hunpack
  rw [psdPacket_eq flags deviceTimeMs hseg]
  -- Of the header only its length and what it unpacks to matter from here on.
  generalize (List.zipWith Code.encode psdStruct
    (psdHeader psd flags deviceTimeMs seg).values).flatten = header at hlen hunpack ⊢
  have hlong : ¬(header ++ psdPayload host psd seg).length < PSD_HEADER_SIZE := by
    rw [List.length_append]
    omega
  have htake : (psdPayload host psd seg).take 1024 = psdPayload host psd seg :=
    List.take_of_length_le (le_of_eq (length_psdPayload seg))
  rw [handlePsd, if_neg hlong, List.take_left' hlen, List.drop_left' hlen, hunpack]
  exact congrArg (fun payload => Except.ok (some (_, payload))) htake

/-- The payloads of a frame are all its levels. -/
theorem flatten_psdPayload :
    ((List.range 8).map (psdPayload host psd)).flatten =
      (frameBins host psd).flatMap Code.h.encode := by
  have hlen : (frameBins host psd).length = 8 * 512 := by
    rw [frameBins, List.length_map, List.length_range]
  -- Segment `seg` is the block `seg` of the frame's levels.
  have hpiece : ∀ seg ∈ List.range 8,
      psdPayload host psd seg =
        (((frameBins host psd).drop (seg * 512)).take 512).flatMap Code.h.encode := by
    intro seg hseg
    have hlt := List.mem_range.1 hseg
    have hslice : ((frameBins host psd).drop (seg * 512)).take 512 =
        (List.range 512).map fun i => (binQ8 host psd (seg * 512 + i)).toInt := by
      refine List.ext_getElem (by simp [frameBins]; omega) ?_
      intro i hi _
      simp [frameBins]
    rw [hslice, List.flatMap_map, psdPayload]
    exact List.flatMap_congr (fun i _ => (Code.encode_toInt _).symm)
  rw [List.map_congr_left hpiece, ← List.flatMap_def, ← List.flatMap_assoc,
    flatMap_pieces (frameBins host psd) 512 8 hlen]

/-- What the receiver shows of frame `n`. -/
structure Shows {F : Type u} [PyFloat F] (host : Host) (psd : PsdConfig) (n : Nat) (frame : PsdFrame F) :
    Prop where
  psdId : frame.psdId = 0
  frameSeq : frame.frameSeq = (n % 2 ^ 32 : Nat)
  start : frame.startFrequencyHz = psd.startFrequencyHz.toNat
  stop : psd.startFrequencyHz < psd.stopFrequencyHz →
    frame.stopFrequencyHz = .inl psd.stopFrequencyHz.toNat
  binSpacing : psd.startFrequencyHz < psd.stopFrequencyHz →
    frame.binSpacingHz =
      PyFloat.trueDiv ((psd.stopFrequencyHz.toNat : Int) - psd.startFrequencyHz.toNat) 4096
  fftSize : frame.fftSize = psd.fftSize.toNat
  totalBins : frame.totalBins = 4096
  bins : frame.binsDbfs = (frameBins host psd).map Backend.binDbfs

theorem buildFrame_psdHeader (F : Type u) [PyFloat F] (host : Host) {n : Nat}
    (hseq : psd.frameSeq = BitVec.ofNat 32 n) (flags : BitVec 16) (deviceTimeMs : BitVec 64)
    (seg : Nat) (stats : Backend.PsdStats) :
    ∃ frame : PsdFrame F,
      Backend.buildFrame (psdHeader psd flags deviceTimeMs seg) stats
          ((List.range 8).map (psdPayload host psd)) = .ok frame ∧
        Shows host psd n frame := by
  have hfits : ∀ q ∈ frameBins host psd, Code.h.Fits q := by
    intro q hq
    rcases List.mem_map.1 hq with ⟨bin, _, rfl⟩
    exact Code.fits_toInt (binQ8 host psd bin)
  have hbins : (Backend.decodeBins ((List.range 8).map (psdPayload host psd)).flatten : List F) =
      (frameBins host psd).map Backend.binDbfs := by
    rw [Backend.decodeBins, flatten_psdPayload, Backend.decodeQ8_encode hfits]
  have htotal : (psdHeader psd flags deviceTimeMs seg).totalBins = 4096 := rfl
  have hclip : Backend.clipBins ((frameBins host psd).map (Backend.binDbfs (F := F)))
        (psdHeader psd flags deviceTimeMs seg).totalBins =
      (frameBins host psd).map Backend.binDbfs := by
    rw [htotal, Backend.clipBins, if_neg (by decide)]
    exact List.take_of_length_le (by simp [frameBins])
  have hnumber : (psd.frameSeq.toNat : Int) = (n % 2 ^ 32 : Nat) := by
    rw [hseq, BitVec.toNat_ofNat]
  have hnonzero : ¬(psdHeader psd flags deviceTimeMs seg).totalBins = 0 := by
    rw [htotal]
    decide
  simp only [Backend.buildFrame, hbins]
  -- Without a range the receiver falls back on the spacing for the upper end.
  by_cases hrange : psd.startFrequencyHz < psd.stopFrequencyHz
  · have hgt : (psdHeader psd flags deviceTimeMs seg).stopFrequencyHz >
        (psdHeader psd flags deviceTimeMs seg).startFrequencyHz := by
      show (psd.startFrequencyHz.toNat : Int) < psd.stopFrequencyHz.toNat
      exact_mod_cast hrange
    rw [Backend.frequencyBounds, if_pos hgt, if_neg hnonzero]
    refine ⟨_, rfl, ?_⟩
    refine ⟨rfl, hnumber, rfl, fun _ => rfl, fun _ => rfl, rfl, htotal, ?_⟩
    dsimp only
    exact hclip
  · have hnot : ¬(psdHeader psd flags deviceTimeMs seg).stopFrequencyHz >
        (psdHeader psd flags deviceTimeMs seg).startFrequencyHz := by
      intro h
      apply hrange
      have h : (psd.startFrequencyHz.toNat : Int) < psd.stopFrequencyHz.toNat := h
      exact_mod_cast h
    rw [Backend.frequencyBounds, if_neg hnot]
    refine ⟨_, rfl, ?_⟩
    refine ⟨rfl, hnumber, rfl, fun h => absurd h hrange, fun h => absurd h hrange, rfl, htotal, ?_⟩
    dsimp only
    exact hclip

end Datagram

/-! ## The frames of a run -/

/-- A frame that has been sent: what it shows, and its datagrams. -/
structure SentFrame where
  psd : PsdConfig
  dest : Endpoint
  datagrams : List (List Byte)

/-- The datagram of a PSD output. -/
def Output.psdDatagram : Output → Option (Endpoint × List Byte)
  | .psd dest data => some (dest, data)
  | .reply _ | .refusal _ | .iq _ _ | .status _ _ => none

namespace CosimServer

variable (host : Host)

/-- The PSD datagrams that an event sends. -/
def psdSent (s : CosimServer) (e : Event) : List (Endpoint × List Byte) :=
  (outputs host s e).filterMap Output.psdDatagram

/-- The frame that an event sends. -/
def framesSent (s : CosimServer) : Event → List SentFrame
  | .timers =>
      let now := host.nowMs s.clockReads
      let s := s.readClock.statusTimer now
      if s.psdDue now then [{ psd := s.psd, dest := s.psdDest, datagrams := s.psdFrame host }] else []
  | .connect _ | .recv _ | .hangup | .rtl _ => []

/-- The frames of a run. -/
def frames (dut : SdrPlCore.State) (sample14 : Nat → BitVec 14) (es : List Event) : List SentFrame :=
  emits (step host) (framesSent host) (init host dut sample14) es

section Frames

variable {host} {s : CosimServer}

/-- What is on the wire is the datagrams of the frames. -/
theorem psdSent_eq (s : CosimServer) (e : Event) :
    psdSent host s e = (framesSent host s e).flatMap fun f => f.datagrams.map fun d => (f.dest, d) := by
  cases e with
  | connect ip =>
      simp only [psdSent, outputs, framesSent]
      split_ifs
      · rfl
      · rfl
  | recv bytes =>
      simp only [psdSent, outputs, framesSent]
      split_ifs
      · refine List.filterMap_eq_nil_iff.2 ?_
        intro out hout
        rcases exists_of_mem_emits hout with ⟨done, line, _, hreply⟩
        rw [List.mem_singleton.1 hreply]
        rfl
      · rfl
  | hangup =>
      rfl
  | rtl sample14 =>
      rw [psdSent, outputs, List.filterMap_map]
      exact List.filterMap_eq_nil_iff.2 (fun d _ => rfl)
  | timers =>
      have hstatus : (s.readClock.statusTimerSent host (host.nowMs s.clockReads)).filterMap
          Output.psdDatagram = [] := by
        rw [statusTimerSent]
        split_ifs
        · rfl
        · rfl
      simp only [psdSent, outputs, List.filterMap_append, hstatus, List.nil_append, framesSent,
        psdTimerSent]
      split_ifs
      · have hsome : Output.psdDatagram ∘ Output.psd (s.readClock.statusTimer
            (host.nowMs s.clockReads)).psdDest = fun d => some (_, d) := rfl
        rw [List.filterMap_map, hsome, List.filterMap_eq_map', List.flatMap_singleton]
      · rfl

theorem frameSeq_lines (s : CosimServer) (lines : List CString) :
    (runFrom (handleLine host) s lines).psd.frameSeq = s.psd.frameSeq := by
  induction lines generalizing s with
  | nil =>
      rfl
  | cons line lines ih =>
      rw [runFrom_cons, ih]
      unfold handleLine handleRequest
      cases commandOf line with
      | setRx =>
          simp only [handleSetRx]
          split_ifs
          · rfl
          · rfl
      | hello | missing | ping | getStatus | setFrontend | setPsd | stopAll | unknown =>
          rfl

theorem psd_statusTimer (s : CosimServer) (now : BitVec 64) : (s.statusTimer now).psd = s.psd := by
  rw [statusTimer]
  split_ifs
  all_goals rfl

/-- Nothing but a frame moves the frame number on. -/
theorem frameSeq_step (s : CosimServer) (e : Event) :
    (step host s e).psd.frameSeq =
      s.psd.frameSeq + BitVec.ofNat 32 (framesSent host s e).length := by
  cases e with
  | connect ip =>
      simp only [step, framesSent]
      split_ifs
      · simp
      · simp
  | recv bytes =>
      simp only [step, framesSent]
      split_ifs
      · rw [frameSeq_lines]
        simp [buffered]
      · simp
  | hangup =>
      simp only [step, framesSent]
      split_ifs
      · simp [closeControl, applied]
      · simp
  | rtl sample14 =>
      simp [step, framesSent]
  | timers =>
      have hstatus : (s.readClock.statusTimer (host.nowMs s.clockReads)).psd = s.psd :=
        psd_statusTimer s.readClock _
      simp only [step, framesSent, psdTimer]
      split_ifs
      · rw [← hstatus]
        rfl
      · rw [hstatus]
        simp

/-- A frame's datagrams are its eight segments, each with the clock's reading when it was made. -/
def Segmented (host : Host) (f : SentFrame) : Prop :=
  ∃ (flags : BitVec 16) (deviceTimeMs : Nat → BitVec 64),
    f.datagrams = (List.range 8).map fun seg => psdPacket host f.psd flags (deviceTimeMs seg) seg

theorem framesSent_spec {e : Event} {f : SentFrame} (hf : f ∈ framesSent host s e) :
    f.psd.frameSeq = s.psd.frameSeq ∧ Segmented host f := by
  cases e with
  | connect ip | recv bytes | hangup | rtl sample14 =>
      cases hf
  | timers =>
      have hstatus : (s.readClock.statusTimer (host.nowMs s.clockReads)).psd = s.psd :=
        psd_statusTimer s.readClock _
      simp only [framesSent] at hf
      split_ifs at hf
      · generalize s.readClock.statusTimer (host.nowMs s.clockReads) = s₁ at hf hstatus
        rw [List.mem_singleton.1 hf]
        exact ⟨congrArg PsdConfig.frameSeq hstatus, psdFlags s₁.psd,
          fun seg => host.nowMs (s₁.clockReads + seg) - s₁.bootMs, rfl⟩
      · cases hf

variable (host) in
theorem length_framesSent_le (s : CosimServer) (e : Event) : (framesSent host s e).length ≤ 1 := by
  unfold framesSent
  cases e with
  | connect ip | recv bytes | hangup | rtl sample14 =>
      simp
  | timers =>
      simp only
      split_ifs
      · simp
      · simp

end Frames

/-- The frames are numbered from zero, over the whole run. -/
theorem frames_numbered (dut : SdrPlCore.State) (sample14 : Nat → BitVec 14) (es : List Event) :
    (run host dut sample14 es).psd.frameSeq = BitVec.ofNat 32 (frames host dut sample14 es).length ∧
      ∀ n f, (frames host dut sample14 es)[n]? = some f →
        f.psd.frameSeq = BitVec.ofNat 32 n ∧ Segmented host f := by
  induction es using List.reverseRecOn with
  | nil =>
      exact ⟨rfl, fun n f hf => by cases hf⟩
  | append_singleton es e ih =>
      rcases ih with ⟨hseq, hall⟩
      have hframes : frames host dut sample14 (es ++ [e]) =
          frames host dut sample14 es ++ framesSent host (run host dut sample14 es) e :=
        emits_snoc _ _ _ _ _
      have hrun : run host dut sample14 (es ++ [e]) = step host (run host dut sample14 es) e :=
        runFrom_snoc _ _ _ _
      rw [hframes, hrun]
      refine ⟨?_, ?_⟩
      · rw [frameSeq_step, hseq, List.length_append, BitVec.ofNat_add]
      · intro n f hf
        by_cases hn : n < (frames host dut sample14 es).length
        · rw [List.getElem?_append_left hn] at hf
          exact hall n f hf
        · -- The frame that this event sends is the next one.
          have hle := length_framesSent_le host (run host dut sample14 es) e
          rw [List.getElem?_append_right (by omega)] at hf
          have hlt := (List.getElem?_eq_some_iff.1 hf).1
          have hlast : n = (frames host dut sample14 es).length := by omega
          rcases framesSent_spec (List.mem_of_getElem? hf) with ⟨hnumber, hsegmented⟩
          exact ⟨by rw [hnumber, hseq, hlast], hsegmented⟩

section Reassembly

variable {host}

/-- The frame with this number; behind the last one it does not matter which. -/
def frameAt (fs : List SentFrame) (n : Nat) : PsdConfig :=
  { (fs.getD n { psd := {}, dest := {}, datagrams := [] }).psd with frameSeq := BitVec.ofNat 32 n }

/-- The segments of the frames, as the receiver numbers them. -/
def sentEpoch (host : Host) (fs : List SentFrame) (flags : Nat → BitVec 16)
    (clock : Nat → Nat → BitVec 64) : Backend.Epoch (List Byte) where
  psdId := 0
  start := 0
  header n seg := psdHeader (frameAt fs n) (flags n) (clock n seg) seg
  payload n seg := psdPayload host (frameAt fs n) seg
  psdId_eq _ _ := rfl
  frameSeq_eq n _ := by
    rw [Backend.seqOf, zero_add]
    rfl
  segmentIndex_eq _ _ := rfl
  segmentCount_eq _ _ := rfl

/-- Datagram `a.2` of frame `a.1`. -/
def gram (fs : List SentFrame) (a : Nat × Nat) : List Byte :=
  Backend.datagramOf (fs.map SentFrame.datagrams) a

theorem frameAt_eq {fs : List SentFrame} {n : Nat} {f : SentFrame} (hf : fs[n]? = some f)
    (hseq : f.psd.frameSeq = BitVec.ofNat 32 n) : frameAt fs n = f.psd := by
  rw [frameAt, List.getD_eq_getElem?_getD, hf, Option.getD_some, ← hseq]

theorem exists_handlePsd_gram {fs : List SentFrame}
    (hfs : ∀ n f, fs[n]? = some f → f.psd.frameSeq = BitVec.ofNat 32 n ∧ Segmented host f) :
    ∃ flags clock, ∀ a : Nat × Nat, a.1 < fs.length → a.2 < 8 →
      handlePsd (gram fs a) =
        .ok (some ((sentEpoch host fs flags clock).header a.1 a.2,
          (sentEpoch host fs flags clock).payload a.1 a.2)) := by
  have hframe : ∀ n : Nat, ∃ (flags : BitVec 16) (clock : Nat → BitVec 64),
      ∀ f : SentFrame, fs[n]? = some f → f.datagrams = (List.range 8).map fun seg => psdPacket host f.psd flags (clock seg) seg := by
    intro n
    cases hn : fs[n]? with
    | none =>
        exact ⟨0, fun _ => 0, by simp⟩
    | some f =>
        rcases (hfs n f hn).2 with ⟨flags, clock, hdatagrams⟩
        refine ⟨flags, clock, ?_⟩
        intro g hg
        cases hg
        exact hdatagrams
  -- The flags and the clock readings of each frame, as functions of the frame.
  choose flags clock hclock using hframe
  refine ⟨flags, clock, ?_⟩
  intro a hn hseg
  have hget : fs[a.1]? = some fs[a.1] := List.getElem?_eq_getElem hn
  have hgram : gram fs a =
      psdPacket host fs[a.1].psd (flags a.1) (clock a.1 a.2) a.2 := by
    have hdatagrams : (fs.map SentFrame.datagrams).getD a.1 [] = fs[a.1].datagrams := by
      rw [List.getD_eq_getElem?_getD, List.getElem?_map, hget]
      rfl
    rw [gram, Backend.datagramOf, hdatagrams, hclock a.1 _ hget, List.getD_eq_getElem?_getD,
      List.getElem?_map, List.getElem?_range hseg, Option.map_some, Option.getD_some]
  have hframeAt := frameAt_eq hget (hfs a.1 _ hget).1
  rw [hgram, handlePsd_psdPacket (flags a.1) (clock a.1 a.2) hseg]
  simp only [sentEpoch, hframeAt]

end Reassembly

/-- Whatever the network delivers of the frames of a run, with `set_psd` between any two of them, the
receiver puts together exactly the frames that arrive whole, each with the frequencies and the levels
that it was sent with, and its counters account for the others. -/
theorem psd_frames_reassembled (F : Type u) [PyFloat F] (dut : SdrPlCore.State)
    (sample14 : Nat → BitVec 14) (es : List Event) (as : List (Nat × Nat))
    (has : Delivers (frames host dut sample14 es).length as) :
    emits (step host) (psdSent host) (init host dut sample14) es =
        (frames host dut sample14 es).flatMap (fun f => f.datagrams.map fun d => (f.dest, d)) ∧
      (∀ pre a post, as = pre ++ a :: post →
        (¬Full (pre ++ [a]) a.1 →
          (receive (F := F) (receiveAll F (pre.map (gram (frames host dut sample14 es))))
            (gram (frames host dut sample14 es) a)).2 = .ok none) ∧
        (Full (pre ++ [a]) a.1 →
          ∃ sent, (frames host dut sample14 es)[a.1]? = some sent ∧
            ∃ frame : PsdFrame F,
              (receive (receiveAll F (pre.map (gram (frames host dut sample14 es))))
                (gram (frames host dut sample14 es) a)).2 = .ok (some frame) ∧
                Shows host sent.psd a.1 frame)) ∧
      (receiveAll F (as.map (gram (frames host dut sample14 es)))).stats.completeFrames =
        (Backend.fullFrames (frames host dut sample14 es).length as).card ∧
      (receiveAll F (as.map (gram (frames host dut sample14 es)))).stats.droppedFrameCount =
        (Backend.abandonedFrames (frames host dut sample14 es).length as).card ∧
      (receiveAll F (as.map (gram (frames host dut sample14 es)))).stats.missingSegmentCount =
        ∑ n ∈ Backend.abandonedFrames (frames host dut sample14 es).length as,
          Backend.missingSegments as n := by
  have hnumbered := (frames_numbered host dut sample14 es).2
  rcases exists_handlePsd_gram hnumbered with ⟨flags, clock, hgram⟩
  have hfinal := Backend.holds_receiveAll (F := F) hgram has
  refine ⟨?_, ?_, hfinal.completeFrames, hfinal.droppedFrameCount, hfinal.missingSegmentCount⟩
  · rw [frames, emits_flatMap]
    exact emits_congr (fun _ _ _ => rfl) (fun s e _ => psdSent_eq s e)
  · intro pre a post hsplit
    have hd : Delivers (frames host dut sample14 es).length (pre ++ [a]) := by
      rw [hsplit, List.append_cons] at has
      exact has.of_append
    rcases Backend.receive_delivered (F := F) hgram hd with ⟨hnone, hsome⟩
    refine ⟨hnone, ?_⟩
    intro hfull
    rcases hsome hfull with ⟨stats, hreceive⟩
    -- The frame that the last segment belongs to.
    obtain ⟨sent, hget⟩ : ∃ sent, (frames host dut sample14 es)[a.1]? = some sent :=
      ⟨_, List.getElem?_eq_getElem (hd.sent a (by simp)).1⟩
    have hseq := (hnumbered a.1 _ hget).1
    have hframeAt := frameAt_eq hget hseq
    rcases buildFrame_psdHeader F host hseq (flags a.1) (clock a.1 a.2) a.2 stats with
      ⟨frame, hframe, hshows⟩
    refine ⟨_, hget, frame, ?_, hshows⟩
    rw [hreceive]
    simp only [sentEpoch, hframeAt, hframe]
    rfl

def setPsdLine : CString :=
  text "\x7b\"request_id\":2,\"cmd\":\"set_psd\",\"enable\":true,\"fps\":10\x7d"

/-- The owner asks for spectra, and the timers send one. -/
def watched : List Event :=
  greeted ++ [.recv (setPsdLine.map (fun c => UInt8.ofNat c.toNat) ++ [10]), .timers]

/-- All of frame 0, last segment first. -/
def whole : List (Nat × Nat) :=
  (List.range 8).reverse.map (fun i => (0, i))

theorem psd_frames_reassembled_watched :
    (receiveAll Rat (whole.map (gram
      (frames loopback SdrPlCore.resetState (fun _ => 0) watched)))).stats.completeFrames = 1 := by
  have hlen : (frames loopback SdrPlCore.resetState (fun _ => 0) watched).length = 1 := by
    decide +kernel
  have hdelivers :
      Delivers (frames loopback SdrPlCore.resetState (fun _ => 0) watched).length whole := by
    rw [hlen]
    exact ⟨by decide, by decide, by decide, by decide⟩
  have hstats := (psd_frames_reassembled loopback Rat SdrPlCore.resetState (fun _ => 0) watched whole
    hdelivers).2.2.1
  rw [hstats, hlen]
  decide

end CosimServer

end Cosim
end Sdr
