import Sdr.Lib.PyValue
import Sdr.Protocol.Packets
import Mathlib.Data.BitVec

/-!
# PsdSender — the PSD frames of the fake device

Model of `_cmd_set_psd` and `_send_psd_frame` of `simulator/fake_ac920/server.py`.  A frame is cut into
segments of 512 bins, and every segment is sent with a header of its own.  `_psd_frame_seq` is only
ever set to zero or masked to 32 bits, so it is a 32-bit word here.

The levels in the bins come out of floating-point arithmetic, `int(round(db * 256))`; they are the
parameter `level`, a function of the number of bins, the two frequencies and the index of the bin.
-/

namespace Sdr
namespace Simulator

open Lib Lib.Struct Protocol

/-! ## `set_psd` -/

structure PsdConfig where
  psdId : Int := 0
  source : PyStr := py "adc0"
  startFrequencyHz : Int := 500000
  stopFrequencyHz : Int := 108000000
  fftSize : Int := 16384
  outputBins : Int := 4096
  fps : Int := 10
  sampleFormat : PyStr := py "I16_DBFS_Q8"
  deriving DecidableEq, Repr

/-- The `error` object of a refused command. -/
structure CommandError where
  code : String
  message : String
  deriving DecidableEq, Repr

/-- The checks of `set_psd` with `enable`, in the order of the code. -/
def PsdConfig.check (c : PsdConfig) : Except CommandError Unit :=
  if c.source ≠ py "adc0" then
    .error ⟨"out_of_range", "fake AC920 only supports adc0 PSD"⟩
  else if c.startFrequencyHz < 500000 ∨ c.stopFrequencyHz > 108000000 then
    .error ⟨"out_of_range", "PSD range must stay within 0.5-108 MHz"⟩
  else if c.stopFrequencyHz - c.startFrequencyHz < 100000 then
    .error ⟨"out_of_range", "PSD span must be at least 100 kHz"⟩
  else if c.outputBins ≠ 4096 then
    .error ⟨"out_of_range", "fake AC920 only supports 4096 PSD bins"⟩
  else if c.fps ≠ 10 then
    .error ⟨"out_of_range", "fake AC920 only supports 10 fps PSD"⟩
  else
    .ok ()

theorem PsdConfig.of_check {c : PsdConfig} (h : c.check = .ok ()) :
    (500000 ≤ c.startFrequencyHz ∧ c.startFrequencyHz + 100000 ≤ c.stopFrequencyHz ∧
        c.stopFrequencyHz ≤ 108000000) ∧
      c.outputBins = 4096 := by
  unfold PsdConfig.check at h
  split_ifs at h with h1 h2 h3 h4 h5
  exact ⟨by omega, by simpa using h4⟩

structure PsdSender where
  config : PsdConfig := {}
  frameSeq : BitVec 32 := 0
  firstFrame : Bool := true
  deriving DecidableEq

/-- An accepted `set_psd` restarts the numbering. -/
def PsdSender.setPsd (_ : PsdSender) (c : PsdConfig) : Except CommandError PsdSender :=
  match c.check with
  | .error e => .error e
  | .ok () => .ok { config := c, frameSeq := 0, firstFrame := true }

/-! ## `_send_psd_frame` -/

def BINS_PER_SEGMENT : Nat := 512

/-- `round(numerator / denominator)`, ties to even, for a positive denominator. -/
def roundHalfEven (numerator denominator : Int) : Int :=
  let quotient := numerator / denominator
  let remainder := numerator % denominator
  if 2 * remainder < denominator then quotient
  else if 2 * remainder > denominator then quotient + 1
  else if quotient % 2 = 0 then quotient
  else quotient + 1

theorem roundHalfEven_bounds (numerator : Int) (h : 0 ≤ numerator) :
    0 ≤ roundHalfEven numerator 4096 ∧ roundHalfEven numerator 4096 ≤ numerator + 1 := by
  unfold roundHalfEven
  simp only
  split_ifs
  all_goals omega

section Frame

variable (level : Int → Int → Int → Nat → Int)

def makePsdBinsQ8 (totalBins startHz stopHz : Int) : List Int :=
  (List.range totalBins.toNat).map
    (fun index => max (-32768) (min 32767 (level totalBins startHz stopHz index)))

namespace PsdSender

variable (s : PsdSender)

def bins : List Int :=
  makePsdBinsQ8 level s.config.outputBins s.config.startFrequencyHz s.config.stopFrequencyHz

def segmentCount : Nat :=
  (s.config.outputBins / BINS_PER_SEGMENT).toNat

/-- The bins of a segment, two bytes each. -/
def segmentPayload (segmentIndex : Nat) : List Byte :=
  (((s.bins level).drop (segmentIndex * BINS_PER_SEGMENT)).take BINS_PER_SEGMENT).flatMap Code.h.encode

/-- `deviceTimeMs` is the device's clock at the moment the segment is made. -/
def segmentHeader (deviceTimeMs : Int) (segmentIndex : Nat) : SdrPsdHeader where
  psdId := s.config.psdId
  frameSeq := s.frameSeq.toNat
  adcTimestamp := deviceTimeMs * 250000
  startFrequencyHz := s.config.startFrequencyHz
  binSpacingMillihz :=
    roundHalfEven ((s.config.stopFrequencyHz - s.config.startFrequencyHz) * 1000) s.config.outputBins
  fftSize := s.config.fftSize
  totalBins := s.config.outputBins
  segmentIndex := segmentIndex
  segmentCount := s.segmentCount
  binStart := segmentIndex * BINS_PER_SEGMENT
  binCount := BINS_PER_SEGMENT
  flags := if s.firstFrame then SDR_PSD_FLAG_CONFIG_CHANGED else 0
  averagingCount := 4
  payloadBytes := (s.segmentPayload level segmentIndex).length
  stopFrequencyHz := s.config.stopFrequencyHz

/-- `header.pack() + bytes(payload)`. -/
def segmentDatagram (deviceTimeMs : Int) (segmentIndex : Nat) : Except PackError (List Byte) :=
  match (s.segmentHeader level deviceTimeMs segmentIndex).pack with
  | .error e => .error e
  | .ok header => .ok (header ++ s.segmentPayload level segmentIndex)

/-- The datagrams of the segments, or the exception of the first one that cannot be packed. -/
def packSegments (deviceTimeMs : Nat → Int) : List Nat → Except PackError (List (List Byte))
  | [] => .ok []
  | segmentIndex :: rest =>
      match s.segmentDatagram level (deviceTimeMs segmentIndex) segmentIndex with
      | .error e => .error e
      | .ok datagram =>
          match packSegments deviceTimeMs rest with
          | .error e => .error e
          | .ok datagrams => .ok (datagram :: datagrams)

/-- The sender once a frame is out. -/
def next : PsdSender :=
  { s with frameSeq := s.frameSeq + 1, firstFrame := false }

def sendPsdFrame (deviceTimeMs : Nat → Int) : Except PackError (List (List Byte) × PsdSender) :=
  match s.packSegments level deviceTimeMs (List.range s.segmentCount) with
  | .error e => .error e
  | .ok datagrams => .ok (datagrams, s.next)

/-- The frames of one configuration, one for each turn of `_psd_loop`. -/
def sendFrames : PsdSender → List (Nat → Int) → Except PackError (List (List (List Byte)))
  | _, [] => .ok []
  | s, clock :: clocks =>
      match s.sendPsdFrame level clock with
      | .error e => .error e
      | .ok (datagrams, s') =>
          match sendFrames s' clocks with
          | .error e => .error e
          | .ok frames => .ok (datagrams :: frames)

end PsdSender

end Frame

/-! ## What is sent -/

section Sent

variable {level : Int → Int → Int → Nat → Int} {s : PsdSender}

theorem PsdSender.segmentDatagram_eq_ok {deviceTimeMs : Int} {segmentIndex : Nat}
    {datagram : List Byte} :
    s.segmentDatagram level deviceTimeMs segmentIndex = .ok datagram ↔
      ∃ header, (s.segmentHeader level deviceTimeMs segmentIndex).pack = .ok header ∧
        datagram = header ++ s.segmentPayload level segmentIndex := by
  unfold PsdSender.segmentDatagram
  cases h : (s.segmentHeader level deviceTimeMs segmentIndex).pack with
  | error e =>
      simp
  | ok header =>
      simp [eq_comm]

theorem PsdSender.packSegments_eq_ok {clock : Nat → Int} {indices : List Nat}
    {datagrams : List (List Byte)} (h : s.packSegments level clock indices = .ok datagrams) :
    List.Forall₂ (fun i d => s.segmentDatagram level (clock i) i = .ok d) indices datagrams := by
  induction indices generalizing datagrams with
  | nil =>
      cases h
      exact List.Forall₂.nil
  | cons i rest ih =>
      unfold PsdSender.packSegments at h
      cases hd : s.segmentDatagram level (clock i) i with
      | error e =>
          simp [hd] at h
      | ok datagram =>
          cases hrest : s.packSegments level clock rest with
          | error e =>
              simp [hd, hrest] at h
          | ok tail =>
              simp only [hd, hrest, Except.ok.injEq] at h
              rw [← h]
              exact List.Forall₂.cons hd (ih hrest)

/-- The sender before frame `n`. -/
def PsdSender.afterFrames (s : PsdSender) (n : Nat) : PsdSender :=
  { s with
    frameSeq := s.frameSeq + BitVec.ofNat 32 n
    firstFrame := s.firstFrame && decide (n = 0) }

theorem PsdSender.afterFrames_zero (s : PsdSender) : s.afterFrames 0 = s := by
  simp [PsdSender.afterFrames]

theorem PsdSender.afterFrames_next (s : PsdSender) (n : Nat) :
    s.next.afterFrames n = s.afterFrames (n + 1) := by
  have hseq : s.frameSeq + 1 + BitVec.ofNat 32 n = s.frameSeq + BitVec.ofNat 32 (n + 1) := by
    rw [BitVec.ofNat_add, BitVec.add_assoc, BitVec.add_comm 1]
    rfl
  simp only [PsdSender.afterFrames, PsdSender.next, hseq]
  simp

/-- Every datagram of every frame is a packed segment of its frame. -/
theorem PsdSender.sendFrames_eq_ok {clocks : List (Nat → Int)} {frames : List (List (List Byte))}
    (h : s.sendFrames level clocks = .ok frames) {n : Nat} {datagrams : List (List Byte)}
    (hn : frames[n]? = some datagrams) :
    ∃ clock : Nat → Int,
      List.Forall₂ (fun i d => (s.afterFrames n).segmentDatagram level (clock i) i = .ok d)
        (List.range s.segmentCount) datagrams := by
  induction clocks generalizing s frames n with
  | nil =>
      simp only [PsdSender.sendFrames, Except.ok.injEq] at h
      simp [← h] at hn
  | cons clock clocks ih =>
      unfold PsdSender.sendFrames PsdSender.sendPsdFrame at h
      cases hpack : s.packSegments level clock (List.range s.segmentCount) with
      | error e =>
          simp [hpack] at h
      | ok first =>
          cases hrest : s.next.sendFrames level clocks with
          | error e =>
              simp [hpack, hrest] at h
          | ok rest =>
              simp only [hpack, hrest, Except.ok.injEq] at h
              rw [← h] at hn
              -- Frame `n + 1` of this sender is frame `n` of the sender after its first frame.
              cases n with
              | zero =>
                  simp only [List.getElem?_cons_zero, Option.some.injEq] at hn
                  rw [← hn, PsdSender.afterFrames_zero]
                  exact ⟨clock, PsdSender.packSegments_eq_ok hpack⟩
              | succ n =>
                  simp only [List.getElem?_cons_succ] at hn
                  have htail := ih hrest hn
                  rw [PsdSender.afterFrames_next] at htail
                  exact htail

theorem PsdSender.length_segmentPayload (level : Int → Int → Int → Nat → Int)
    (hbins : s.config.outputBins = 4096) {segmentIndex : Nat} (hi : segmentIndex < 8) :
    (s.segmentPayload level segmentIndex).length = 1024 := by
  have hpiece : (((s.bins level).drop (segmentIndex * BINS_PER_SEGMENT)).take
      BINS_PER_SEGMENT).length = 512 := by
    simp [PsdSender.bins, makePsdBinsQ8, hbins, BINS_PER_SEGMENT]
    omega
  have hbytes : ∀ bins : List Int, (bins.flatMap Code.h.encode).length = 2 * bins.length := by
    intro bins
    induction bins with
    | nil =>
        rfl
    | cons q bins ih =>
        have hq : (Code.h.encode q).length = 2 := Code.length_encode _ _
        simp only [List.flatMap_cons, List.length_append, List.length_cons, hq, ih]
        omega
  rw [PsdSender.segmentPayload, hbytes, hpiece]

/-- An accepted configuration whose `psd_id` and `fft_size` fit their fields can be sent. -/
theorem PsdSender.exists_segmentDatagram (level : Int → Int → Int → Nat → Int)
    (hs : s.config.check = .ok ()) (hid : Code.H.Fits s.config.psdId)
    (hfft : Code.I.Fits s.config.fftSize) {deviceTimeMs : Int}
    (htime : Code.Q.Fits (deviceTimeMs * 250000)) {segmentIndex : Nat} (hi : segmentIndex < 8) :
    ∃ datagram, s.segmentDatagram level deviceTimeMs segmentIndex = .ok datagram := by
  rcases PsdConfig.of_check hs with ⟨⟨hstart, hspan, hstop⟩, hbins⟩
  have hpayload := PsdSender.length_segmentPayload level hbins hi
  have hrangeH : Code.H.range = 65536 := by decide
  have hrangeI : Code.I.range = 4294967296 := by decide
  have hrangeQ : Code.Q.range = 18446744073709551616 := by decide
  -- The unsigned widths that occur, in plain bounds.
  have hH : ∀ v : Int, 0 ≤ v → v < 65536 → Code.H.Fits v := by
    intro v h0 h1
    simp [Code.Fits, Code.H, ← hrangeH] at *
    exact ⟨h0, h1⟩
  have hQ : ∀ v : Int, 0 ≤ v → v < 18446744073709551616 → Code.Q.Fits v := by
    intro v h0 h1
    simp [Code.Fits, Code.Q, ← hrangeQ] at *
    exact ⟨h0, h1⟩
  rcases roundHalfEven_bounds
    ((s.config.stopFrequencyHz - s.config.startFrequencyHz) * 1000) (by omega) with
    ⟨hspacing, hspacing'⟩
  have hfits : List.Forall₂ Code.Fits psdStruct
      (s.segmentHeader level deviceTimeMs segmentIndex).values := by
    simp only [psdStruct, SdrPsdHeader.values, PsdSender.segmentHeader, List.forall₂_cons,
      List.Forall₂.nil, and_true, PsdSender.segmentCount, hbins, hpayload, BINS_PER_SEGMENT]
    -- One goal per field, in the order of the format; only the number and the flags take an argument.
    refine ⟨by decide, by decide, by decide, by decide, hid, ?_, htime, hQ _ (by omega) (by omega),
      hQ _ hspacing (by omega), hfft, by decide, hH _ (by omega) (by omega), by decide,
      hH _ (by omega) (by omega), by decide, by decide, ?_, by decide, by decide,
      hQ _ (by omega) (by omega)⟩
    · have hlt := s.frameSeq.isLt
      unfold Code.Fits
      rw [hrangeI]
      simp only [Code.I, Bool.false_eq_true, if_false]
      omega
    · split_ifs
      · decide
      · decide
  -- Every checked field but the payload size has its default.
  have hvalid : (s.segmentHeader level deviceTimeMs segmentIndex).validate = .ok () := by
    refine validateFields_eq_ok.2 ⟨rfl, rfl, rfl, rfl, rfl, ?_⟩
    simp only [PsdSender.segmentHeader, hpayload]
    rfl
  have hpack : (s.segmentHeader level deviceTimeMs segmentIndex).pack =
      .ok (List.zipWith Code.encode psdStruct
        (s.segmentHeader level deviceTimeMs segmentIndex).values).flatten :=
    SdrPsdHeader.pack_eq_ok.2 ⟨hvalid, pack_of_fits hfits⟩
  exact ⟨_, PsdSender.segmentDatagram_eq_ok.2 ⟨_, hpack, rfl⟩⟩

theorem PsdSender.exists_packSegments {clock : Nat → Int} {indices : List Nat}
    (h : ∀ i ∈ indices, ∃ d, s.segmentDatagram level (clock i) i = .ok d) :
    ∃ datagrams, s.packSegments level clock indices = .ok datagrams := by
  induction indices with
  | nil =>
      exact ⟨[], rfl⟩
  | cons i rest ih =>
      rcases h i (by simp) with ⟨datagram, hdatagram⟩
      rcases ih (fun j hj => h j (by simp [hj])) with ⟨datagrams, hdatagrams⟩
      exact ⟨datagram :: datagrams, by simp only [PsdSender.packSegments, hdatagram, hdatagrams]⟩

/-- Such a configuration is sent, as long as the clock fits the timestamp field. -/
theorem PsdSender.exists_sendPsdFrame (level : Int → Int → Int → Nat → Int) (clock : Nat → Int)
    (hs : s.config.check = .ok ()) (hid : Code.H.Fits s.config.psdId)
    (hfft : Code.I.Fits s.config.fftSize) (htime : ∀ i, Code.Q.Fits (clock i * 250000)) :
    ∃ datagrams, s.sendPsdFrame level clock = .ok (datagrams, s.next) := by
  have hcount : s.segmentCount = 8 := by
    simp [PsdSender.segmentCount, (PsdConfig.of_check hs).2, BINS_PER_SEGMENT]
  have hall : ∃ datagrams, s.packSegments level clock (List.range s.segmentCount) =
      .ok datagrams := by
    apply PsdSender.exists_packSegments
    intro i hi
    rw [hcount, List.mem_range] at hi
    exact PsdSender.exists_segmentDatagram level hs hid hfft (htime i) hi
  rcases hall with ⟨datagrams, hdatagrams⟩
  exact ⟨datagrams, by simp only [PsdSender.sendPsdFrame, hdatagrams]⟩

theorem PsdSender.exists_sendFrames (level : Int → Int → Int → Nat → Int)
    (clocks : List (Nat → Int)) (hs : s.config.check = .ok ()) (hid : Code.H.Fits s.config.psdId)
    (hfft : Code.I.Fits s.config.fftSize)
    (htime : ∀ clock ∈ clocks, ∀ i, Code.Q.Fits (clock i * 250000)) :
    ∃ frames, s.sendFrames level clocks = .ok frames ∧ frames.length = clocks.length := by
  induction clocks generalizing s with
  | nil =>
      exact ⟨[], rfl, rfl⟩
  | cons clock clocks ih =>
      rcases PsdSender.exists_sendPsdFrame level clock hs hid hfft (htime clock (by simp)) with
        ⟨datagrams, hdatagrams⟩
      rcases ih (s := s.next) hs hid hfft (fun c hc => htime c (by simp [hc])) with
        ⟨frames, hframes, hlen⟩
      refine ⟨datagrams :: frames, ?_, by simp [hlen]⟩
      simp only [PsdSender.sendFrames, hdatagrams, hframes]

end Sent

end Simulator
end Sdr
