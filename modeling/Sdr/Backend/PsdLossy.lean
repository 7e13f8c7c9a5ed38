import Sdr.Backend.PsdReassembler
import Sdr.Lib.Blocks
import Sdr.Lib.Machine
import Sdr.Simulator.PsdSender
import Mathlib.Algebra.BigOperators.Group.Finset.Basic
import Mathlib.Data.List.Chain

/-!
# PsdLossy — segmentation and reassembly over a lossy network

The fake device cuts frames into segments, the network loses some of them and reorders the segments
of a frame, and the reassembler puts together what arrives.  `Delivers` is what such a network may do
with the datagrams of a run of frames.  Between two arrivals the reassembler holds at most one
buffer, that of the frame of the last arrival, with exactly the segments of it that have arrived
(`Holds`); the counters follow from that.
-/

namespace Sdr
namespace Backend

open Lib Lib.Struct Protocol Simulator

universe u

/-! ## From datagram to segment -/

/-- `UdpReceivers._handle_psd`: `none` for a datagram that is too short to look at. -/
def handlePsd (data : List Byte) : Except PacketError (Option (SdrPsdHeader × List Byte)) :=
  if data.length < PSD_HEADER_SIZE then
    .ok none
  else
    match SdrPsdHeader.unpack (data.take PSD_HEADER_SIZE) with
    | .error e => .error e
    | .ok header =>
        .ok (some (header, (data.drop PSD_HEADER_SIZE).take header.payloadBytes.toNat))

/-- A datagram that the device sent is read as its header and its payload. -/
theorem handlePsd_segmentDatagram {level : Int → Int → Int → Nat → Int} {s : PsdSender}
    {deviceTimeMs : Int} {segmentIndex : Nat} {datagram : List Byte}
    (h : s.segmentDatagram level deviceTimeMs segmentIndex = .ok datagram) :
    handlePsd datagram = .ok (some (s.segmentHeader level deviceTimeMs segmentIndex,
      s.segmentPayload level segmentIndex)) := by
  rcases PsdSender.segmentDatagram_eq_ok.1 h with ⟨header, hpack, rfl⟩
  have hlen := SdrPsdHeader.length_of_pack hpack
  have hnot : ¬(header ++ s.segmentPayload level segmentIndex).length < PSD_HEADER_SIZE := by
    rw [List.length_append]
    omega
  have hunpack := SdrPsdHeader.unpack_pack [] hpack
  rw [List.append_nil] at hunpack
  rw [handlePsd, if_neg hnot, List.take_left' hlen, List.drop_left' hlen, hunpack]
  simp [PsdSender.segmentHeader]

/-- The same for the datagrams of a whole frame. -/
theorem handlePsd_getD {level : Int → Int → Int → Nat → Int} {s : PsdSender} {clock : Nat → Int}
    {datagrams : List (List Byte)}
    (h : List.Forall₂ (fun i d => s.segmentDatagram level (clock i) i = .ok d) (List.range 8)
      datagrams) {i : Nat} (hi : i < 8) :
    handlePsd (datagrams.getD i []) =
      .ok (some (s.segmentHeader level (clock i) i, s.segmentPayload level i)) := by
  have hlen : i < datagrams.length := by
    rw [← h.length_eq, List.length_range]
    exact hi
  have hpacked := h.get (i := i) (by simpa using hi) hlen
  have hget : datagrams.getD i [] = datagrams.get ⟨i, hlen⟩ := by
    simp [List.getD_eq_getElem?_getD, List.getElem?_eq_getElem hlen]
  rw [hget]
  exact handlePsd_segmentDatagram (by simpa using hpacked)

/-- What arrives goes through `unpack` into the reassembler. -/
def receive {F : Type u} [PyFloat F] (r : PsdReassembler (List Byte)) (data : List Byte) :
    PsdReassembler (List Byte) × Except IngestError (Option (PsdFrame F)) :=
  match handlePsd data with
  | .ok (some (header, payload)) => r.ingest header payload
  | _ => (r, .ok none)

/-! ## Bins -/

theorem decodeQ8_encode {bins : List Int} (h : ∀ q ∈ bins, Code.h.Fits q) :
    decodeQ8 (bins.flatMap Code.h.encode) = bins := by
  induction bins with
  | nil =>
      rfl
  | cons q bins ih =>
      have hq := Code.decode_encode (h q (by simp))
      have htail := ih (fun x hx => h x (by simp [hx]))
      have hlen : (Code.h.encode q).length = 2 := Code.length_encode _ _
      -- Two bytes a bin, so the decoder stays aligned with the encoder.
      rcases List.length_eq_two.1 hlen with ⟨low, high, hbytes⟩
      rw [hbytes] at hq
      rw [List.flatMap_cons, hbytes]
      simp only [List.cons_append, List.nil_append, decodeQ8, hq, htail]

theorem fits_bins (level : Int → Int → Int → Nat → Int) (s : PsdSender) :
    ∀ q ∈ s.bins level, Code.h.Fits q := by
  intro q hq
  rcases List.mem_map.1 hq with ⟨index, _, rfl⟩
  have hrange : Code.h.range = 65536 := by decide
  unfold Code.Fits
  rw [hrange]
  simp only [Code.h, if_true]
  omega

/-- The payloads of all segments are the bins of the frame. -/
theorem flatten_segmentPayload (level : Int → Int → Int → Nat → Int) (s : PsdSender)
    (hbins : s.config.outputBins = 4096) :
    ((List.range 8).map (s.segmentPayload level)).flatten =
      (s.bins level).flatMap Code.h.encode := by
  have hlen : (s.bins level).length = 8 * BINS_PER_SEGMENT := by
    simp [PsdSender.bins, makePsdBinsQ8, hbins, BINS_PER_SEGMENT]
  have hpieces := flatMap_pieces (s.bins level) BINS_PER_SEGMENT 8 hlen
  calc
    ((List.range 8).map (s.segmentPayload level)).flatten
        = ((List.range 8).flatMap (fun i =>
            ((s.bins level).drop (i * BINS_PER_SEGMENT)).take BINS_PER_SEGMENT)).flatMap
              Code.h.encode := by
          rw [List.flatMap_assoc]
          rfl
    _ = (s.bins level).flatMap Code.h.encode := by
          rw [hpieces]

/-! ## What has arrived -/

/-- All segments of the frame have arrived. -/
def Full (as : List (Nat × Nat)) (n : Nat) : Prop :=
  ∀ i < 8, (n, i) ∈ as

instance (as : List (Nat × Nat)) (n : Nat) : Decidable (Full as n) :=
  inferInstanceAs (Decidable (∀ i < 8, (n, i) ∈ as))

/-- Number of segments of the frame that have not arrived. -/
def missingSegments (as : List (Nat × Nat)) (n : Nat) : Nat :=
  ((Finset.range 8).filter (fun i => (n, i) ∉ as)).card

/-- The fully delivered frames among the first `k`. -/
def fullFrames (k : Nat) (as : List (Nat × Nat)) : Finset Nat :=
  (Finset.range k).filter (Full as)

/-- The partially delivered frames that a segment of a later frame has arrived after. -/
def abandonedFrames (k : Nat) (as : List (Nat × Nat)) : Finset Nat :=
  (Finset.range k).filter
    (fun n => ¬Full as n ∧ (∃ a ∈ as, a.1 = n) ∧ ∃ a ∈ as, n < a.1)

section Arrivals

variable {as : List (Nat × Nat)} {a : Nat × Nat} {n k : Nat}

theorem mem_snoc_of_ne (hn : n ≠ a.1) (i : Nat) : (n, i) ∈ as ++ [a] ↔ (n, i) ∈ as := by
  have hne : (n, i) ≠ a := fun h => hn (by rw [← h])
  simp [hne]

theorem full_snoc_of_ne (hn : n ≠ a.1) : Full (as ++ [a]) n ↔ Full as n :=
  forall₂_congr (fun i _ => mem_snoc_of_ne hn i)

theorem missingSegments_snoc_of_ne (hn : n ≠ a.1) :
    missingSegments (as ++ [a]) n = missingSegments as n := by
  unfold missingSegments
  simp only [mem_snoc_of_ne hn]

/-- A new segment is one that was missing. -/
theorem missingSegments_snoc_self (hnew : a ∉ as) (hlt : a.2 < 8) :
    missingSegments (as ++ [a]) a.1 + 1 = missingSegments as a.1 := by
  have hfilter : (Finset.range 8).filter (fun i => (a.1, i) ∉ as ++ [a]) =
      ((Finset.range 8).filter (fun i => (a.1, i) ∉ as)).erase a.2 := by
    ext i
    have hi : (a.1, i) = a ↔ i = a.2 := by
      constructor
      · intro h
        rw [← h]
      · intro h
        rw [h]
    simp only [Finset.mem_filter, Finset.mem_erase, List.mem_append, List.mem_singleton, not_or, hi]
    tauto
  have hmem : a.2 ∈ (Finset.range 8).filter (fun i => (a.1, i) ∉ as) := by
    simpa [hlt] using hnew
  unfold missingSegments
  rw [hfilter, Finset.card_erase_of_mem hmem]
  have hpos := Finset.card_pos.2 ⟨a.2, hmem⟩
  omega

/-- A frame of which nothing has arrived misses all its segments. -/
theorem missingSegments_of_absent (h : ∀ b ∈ as, b.1 ≠ n) : missingSegments as n = 8 := by
  have hall : (Finset.range 8).filter (fun i => (n, i) ∉ as) = Finset.range 8 := by
    rw [Finset.filter_eq_self]
    intro i _ hmem
    exact h _ hmem rfl
  rw [missingSegments, hall, Finset.card_range]

end Arrivals

/-! ## What the reassembler holds -/

section Reassembly

variable {π : Type u} {E : Epoch π} {as : List (Nat × Nat)} {a : Nat × Nat} {n k : Nat}
  {r : PsdReassembler π}

/-- The segments of frame `n` that have arrived are stored, and nothing else. -/
structure Buffered (E : Epoch π) (as : List (Nat × Nat)) (n : Nat) (segments : Dict Int π) : Prop where
  lookup : ∀ i : Nat, segments.lookup (i : Int) = if (n, i) ∈ as then some (E.payload n i) else none
  size : segments.size + missingSegments as n = 8

theorem buffered_empty (h : ∀ b ∈ as, b.1 ≠ n) : Buffered E as n ∅ := by
  refine ⟨?_, ?_⟩
  · intro i
    rw [if_neg (fun hmem => h _ hmem rfl)]
    rfl
  · rw [missingSegments_of_absent h]
    rfl

theorem buffered_insert {segments : Dict Int π} (h : Buffered E as a.1 segments) (hnew : a ∉ as)
    (hlt : a.2 < 8) :
    Buffered E (as ++ [a]) a.1 (segments.insert (a.2 : Int) (E.payload a.1 a.2)) := by
  -- The segment is new, so the map grows as the number of missing segments shrinks.
  have hnone : segments.lookup (a.2 : Int) = none := by
    rw [h.lookup, if_neg hnew]
  refine ⟨?_, ?_⟩
  · intro i
    rw [Dict.lookup_insert]
    by_cases hi : i = a.2
    · rw [if_pos (by rw [hi]), if_pos (by simp [hi]), hi]
    · have hne : (a.1, i) ≠ a := fun heq => hi (by rw [← heq])
      rw [if_neg (by exact_mod_cast hi), h.lookup]
      simp [hne]
  · have hmissing := missingSegments_snoc_self hnew hlt
    have hsize := h.size
    rw [Dict.size_insert_of_lookup_eq_none hnone]
    omega

theorem complete_iff_full {segments : Dict Int π} (h : Buffered E as n segments) :
    PsdReassembler.Complete segments 8 ↔ Full as n := by
  unfold PsdReassembler.Complete
  constructor
  · intro hall i hi
    rcases hall i hi with ⟨payload, hpayload⟩
    by_contra hmem
    rw [h.lookup, if_neg hmem] at hpayload
    exact absurd hpayload (by simp)
  · intro hfull i hi
    exact ⟨E.payload n i, by rw [h.lookup, if_pos (hfull i hi)]⟩

theorem filterMap_of_full {segments : Dict Int π} (h : Buffered E as n segments) (hfull : Full as n) :
    (List.range 8).filterMap (fun i : Nat => segments.lookup (i : Int)) =
      (List.range 8).map (E.payload n) := by
  rw [← List.filterMap_eq_map]
  apply List.filterMap_congr
  intro i hi
  rw [h.lookup, if_pos (hfull i (List.mem_range.1 hi))]
  rfl

/-- The only buffer, if any, is that of frame `n`, and it holds what has arrived of it. -/
def OnlyFrame (E : Epoch π) (as : List (Nat × Nat)) (n : Nat) (frames : Dict FrameKey (PsdFrameBuffer π)) :
    Prop :=
  (frames = ∅ ∧ ∀ b ∈ as, b.1 ≠ n) ∨
    ∃ frame, frames = AList.singleton (E.key n) frame ∧ frame.header.segmentCount = 8 ∧
      Buffered E as n frame.segments

section OnlyFrame

variable (h : OnlyFrame E as a.1 (r.dropOlderFrames E.psdId (seqOf E.start a.1)).frames)

include h

/-- The segment's own frame is not older than itself, so its buffer survives the dropping. -/
theorem lookup_of_onlyFrame :
    (r.dropOlderFrames E.psdId (seqOf E.start a.1)).frames.lookup (E.key a.1) =
      r.frames.lookup (E.key a.1) ∧ Buffered E as a.1 (r.stored (E.key a.1)) := by
  have hlookup : (r.dropOlderFrames E.psdId (seqOf E.start a.1)).frames.lookup (E.key a.1) =
      r.frames.lookup (E.key a.1) := by
    rw [PsdReassembler.lookup_dropOlderFrames]
    exact if_neg (PsdReassembler.not_stale_self _ _)
  refine ⟨hlookup, ?_⟩
  rw [PsdReassembler.stored, ← hlookup]
  rcases h with ⟨hempty, habsent⟩ | ⟨frame, hsingle, _, hframe⟩
  · rw [hempty]
    exact buffered_empty habsent
  · rw [hsingle]
    simpa using hframe

theorem buffered_received (hnew : a ∉ as) (hlt : a.2 < 8) :
    Buffered E (as ++ [a]) a.1 (r.received (E.header a.1 a.2) (E.payload a.1 a.2)) := by
  have hreceived : r.received (E.header a.1 a.2) (E.payload a.1 a.2) =
      (r.stored (E.key a.1)).insert (a.2 : Int) (E.payload a.1 a.2) := by
    rw [PsdReassembler.received, E.key_header, E.segmentIndex_eq]
  rw [hreceived]
  exact buffered_insert (lookup_of_onlyFrame h).2 hnew hlt

/-- The segment that was the last one missing completes its frame and empties the reassembler. -/
theorem arrive_full (hnew : a ∉ as) (hlt : a.2 < 8) (hfull : Full (as ++ [a]) a.1) :
    E.arrive r a =
      ({ frames := ∅
         stats :=
           { (r.dropOlderFrames E.psdId (seqOf E.start a.1)).stats with
             completeFrames :=
               (r.dropOlderFrames E.psdId (seqOf E.start a.1)).stats.completeFrames + 1
             lastFrameSeq := some (seqOf E.start a.1) } },
        some ((List.range 8).map (E.payload a.1))) := by
  have hbuffered := buffered_received h hnew hlt
  have herase : (r.dropOlderFrames E.psdId (seqOf E.start a.1)).frames.erase (E.key a.1) = ∅ := by
    rcases h with ⟨hempty, _⟩ | ⟨frame, hsingle, _, _⟩
    · rw [hempty]
      rfl
    · rw [hsingle, Dict.erase_singleton]
  have hdone : PsdReassembler.Complete (r.received (E.header a.1 a.2) (E.payload a.1 a.2))
      (E.header a.1 a.2).segmentCount := by
    rw [E.segmentCount_eq]
    exact (complete_iff_full hbuffered).2 hfull
  rw [Epoch.arrive, PsdReassembler.collect_complete hdone, E.key_header, E.psdId_eq, E.frameSeq_eq,
    E.segmentCount_eq, herase]
  exact congrArg (fun l => (_, some l)) (filterMap_of_full hbuffered hfull)

/-- A segment that leaves others missing is stored, in the one buffer there is. -/
theorem arrive_unfinished (hnew : a ∉ as) (hlt : a.2 < 8) (hunfinished : ¬Full (as ++ [a]) a.1) :
    ∃ frame, frame.header.segmentCount = 8 ∧ Buffered E (as ++ [a]) a.1 frame.segments ∧
      E.arrive r a =
        ({ r.dropOlderFrames E.psdId (seqOf E.start a.1) with
            frames := AList.singleton (E.key a.1) frame },
          none) := by
  have hbuffered := buffered_received h hnew hlt
  have hopen : ¬PsdReassembler.Complete (r.received (E.header a.1 a.2) (E.payload a.1 a.2))
      (E.header a.1 a.2).segmentCount := by
    rw [E.segmentCount_eq]
    exact fun hc => hunfinished ((complete_iff_full hbuffered).1 hc)
  -- The buffer keeps the header of the first segment that came; all say eight.
  have hcount : (r.storeSegment (E.header a.1 a.2) (E.payload a.1 a.2)).header.segmentCount = 8 := by
    simp only [PsdReassembler.storeSegment]
    rw [E.key_header, ← (lookup_of_onlyFrame h).1]
    rcases h with ⟨hempty, _⟩ | ⟨frame, hsingle, hframe, _⟩
    · rw [hempty]
      exact E.segmentCount_eq a.1 a.2
    · rw [hsingle]
      simpa using hframe
  have hinsert : (r.dropOlderFrames E.psdId (seqOf E.start a.1)).frames.insert (E.key a.1)
      (r.storeSegment (E.header a.1 a.2) (E.payload a.1 a.2)) =
        AList.singleton (E.key a.1) (r.storeSegment (E.header a.1 a.2) (E.payload a.1 a.2)) := by
    rcases h with ⟨hempty, _⟩ | ⟨frame, hsingle, _, _⟩
    · rw [hempty, AList.insert_empty]
    · rw [hsingle, AList.insert_singleton_eq]
  refine ⟨r.storeSegment (E.header a.1 a.2) (E.payload a.1 a.2), hcount, ?_, ?_⟩
  · rw [PsdReassembler.storeSegment_segments]
    exact hbuffered
  · rw [Epoch.arrive, PsdReassembler.collect_incomplete hopen, E.key_header, E.psdId_eq,
      E.frameSeq_eq, hinsert]

end OnlyFrame

end Reassembly

/-! ## Deliveries -/

/-- What the network may do with the datagrams of the first `k` frames: `a` is segment `a.2` of frame
`a.1`.  Each datagram arrives at most once, no segment after one of a later frame, and the next frame
that arrives is fewer than `2 ^ 31` frames on. -/
structure Delivers (k : Nat) (as : List (Nat × Nat)) : Prop where
  sent : ∀ a ∈ as, a.1 < k ∧ a.2 < 8
  once : as.Nodup
  inOrder : as.Pairwise (fun a b => a.1 ≤ b.1)
  near : as.IsChain (fun a b => b.1 < a.1 + 2 ^ 31)

section Delivers

variable {as : List (Nat × Nat)} {a b : Nat × Nat} {n k : Nat}

theorem Delivers.of_append {bs : List (Nat × Nat)} (h : Delivers k (as ++ bs)) : Delivers k as := by
  refine ⟨?_, ?_, ?_, ?_⟩
  · intro c hc
    exact h.sent c (by simp [hc])
  · exact h.once.of_append_left
  · exact (List.pairwise_append.1 h.inOrder).1
  · exact h.near.left_of_append

theorem Delivers.new (h : Delivers k (as ++ [a])) : a ∉ as := by
  intro hmem
  have hdisjoint := List.disjoint_of_nodup_append h.once
  exact hdisjoint hmem (by simp)

theorem Delivers.le_new (h : Delivers k (as ++ [a])) : ∀ c ∈ as, c.1 ≤ a.1 := by
  intro c hc
  exact (List.pairwise_append.1 h.inOrder).2.2 c hc a (by simp)

theorem Delivers.le_last (h : Delivers k as) (hb : as.getLast? = some b) : ∀ c ∈ as, c.1 ≤ b.1 := by
  intro c hc
  rcases List.getLast?_eq_some_iff.1 hb with ⟨init, rfl⟩
  rcases List.mem_append.1 hc with hc | hc
  · exact (List.pairwise_append.1 h.inOrder).2.2 c hc b (by simp)
  · rw [List.mem_singleton.1 hc]

theorem Delivers.near_new (h : Delivers k (as ++ [a])) (hb : as.getLast? = some b) :
    a.1 < b.1 + 2 ^ 31 := by
  rcases List.getLast?_eq_some_iff.1 hb with ⟨init, rfl⟩
  exact (List.isChain_append.1 h.near).2.2 b (by simp) a (by simp)

/-- A later frame leaves behind what it left behind before, and the last frame if it is not whole. -/
theorem mem_abandonedFrames_snoc (h : Delivers k (as ++ [a])) (hb : as.getLast? = some b) :
    n ∈ abandonedFrames k (as ++ [a]) ↔
      n ∈ abandonedFrames k as ∨ (n = b.1 ∧ b.1 < a.1 ∧ ¬Full as b.1) := by
  have hbmem : b ∈ as := List.mem_of_getLast? hb
  have hle := h.le_new
  have hlast := h.of_append.le_last hb
  have hbk := (h.of_append.sent b hbmem).1
  simp only [abandonedFrames, Finset.mem_filter, Finset.mem_range]
  constructor
  · rintro ⟨hk, hunfinished, hsome, c, hc, hlater⟩
    have hlt : n < a.1 := by
      rcases List.mem_append.1 hc with hc | hc
      · exact Nat.lt_of_lt_of_le hlater (hle c hc)
      · rwa [List.mem_singleton.1 hc] at hlater
    have hne : n ≠ a.1 := Nat.ne_of_lt hlt
    rw [full_snoc_of_ne hne] at hunfinished
    rcases hsome with ⟨d, hd, hdn⟩
    have hd' : d ∈ as := by
      rcases List.mem_append.1 hd with hd | hd
      · exact hd
      · rw [List.mem_singleton.1 hd] at hdn
        exact absurd hdn.symm hne
    -- The frame had been left behind already, or it is that of the last arrival.
    rcases Nat.lt_or_eq_of_le (hlast d hd') with hbelow | heq
    · exact Or.inl ⟨hk, hunfinished, ⟨d, hd', hdn⟩, b, hbmem, by omega⟩
    · refine Or.inr ⟨by omega, by omega, ?_⟩
      rwa [← heq, hdn]
  · rintro (⟨hk, hunfinished, ⟨d, hd, hdn⟩, c, hc, hlater⟩ | ⟨rfl, hlt, hunfinished⟩)
    · have hne : n ≠ a.1 := Nat.ne_of_lt (Nat.lt_of_lt_of_le hlater (hle c hc))
      rw [full_snoc_of_ne hne]
      exact ⟨hk, hunfinished, ⟨d, by simp [hd], hdn⟩, c, by simp [hc], hlater⟩
    · rw [full_snoc_of_ne (Nat.ne_of_lt hlt)]
      exact ⟨hbk, hunfinished, ⟨b, by simp [hbmem], rfl⟩, a, by simp, hlt⟩

theorem ne_of_mem_abandonedFrames (h : Delivers k (as ++ [a])) (hn : n ∈ abandonedFrames k as) :
    n ≠ a.1 := by
  simp only [abandonedFrames, Finset.mem_filter] at hn
  rcases hn with ⟨_, _, _, c, hc, hlater⟩
  exact Nat.ne_of_lt (Nat.lt_of_lt_of_le hlater (h.le_new c hc))

theorem sum_missingSegments_snoc (h : Delivers k (as ++ [a])) :
    ∑ n ∈ abandonedFrames k as, missingSegments (as ++ [a]) n =
      ∑ n ∈ abandonedFrames k as, missingSegments as n :=
  Finset.sum_congr rfl (fun _ hn => missingSegments_snoc_of_ne (ne_of_mem_abandonedFrames h hn))

end Delivers

/-! ## The run invariant -/

section Holds

variable {π : Type u} {E : Epoch π} {as : List (Nat × Nat)} {a b : Nat × Nat} {k : Nat}
  {r : PsdReassembler π}

/-- After the arrivals `as` the reassembler holds the unfinished frame of the last one, and its
counters say what has become of all the others. -/
structure Holds (E : Epoch π) (k : Nat) (as : List (Nat × Nat)) (r : PsdReassembler π) : Prop where
  first : as = [] → r.frames = ∅
  done : ∀ b, as.getLast? = some b → Full as b.1 → r.frames = ∅
  unfinished : ∀ b, as.getLast? = some b → ¬Full as b.1 →
    ∃ frame, r.frames = AList.singleton (E.key b.1) frame ∧ frame.header.segmentCount = 8 ∧
      Buffered E as b.1 frame.segments
  completeFrames : r.stats.completeFrames = (fullFrames k as).card
  droppedFrameCount : r.stats.droppedFrameCount = (abandonedFrames k as).card
  missingSegmentCount :
    r.stats.missingSegmentCount = ∑ n ∈ abandonedFrames k as, missingSegments as n

theorem holds_init (E : Epoch π) (k : Nat) : Holds E k [] {} := by
  have hfull : fullFrames k [] = ∅ := by
    rw [fullFrames, Finset.filter_eq_empty_iff]
    intro n _ h
    exact absurd (h 0 (by decide)) (by simp)
  have habandoned : abandonedFrames k [] = ∅ := by
    simp [abandonedFrames]
  refine ⟨fun _ => rfl, ?_, ?_, ?_, ?_, ?_⟩
  · simp
  · simp
  · rw [hfull]
    rfl
  · rw [habandoned]
    rfl
  · rw [habandoned]
    rfl

/-- What dropping older frames does before a segment is stored. -/
structure Dropped (E : Epoch π) (k : Nat) (as : List (Nat × Nat)) (a : Nat × Nat)
    (r r₁ : PsdReassembler π) : Prop where
  only : OnlyFrame E as a.1 r₁.frames
  completeFrames : r₁.stats.completeFrames = r.stats.completeFrames
  droppedFrameCount : r₁.stats.droppedFrameCount = (abandonedFrames k (as ++ [a])).card
  missingSegmentCount :
    r₁.stats.missingSegmentCount = ∑ n ∈ abandonedFrames k (as ++ [a]), missingSegments (as ++ [a]) n

/-- Nothing is dropped when no frame is left behind. -/
theorem dropped_of_same (h : Holds E k as r) (hd : Delivers k (as ++ [a]))
    (hsame : abandonedFrames k (as ++ [a]) = abandonedFrames k as)
    (honly : OnlyFrame E as a.1 r.frames) : Dropped E k as a r r := by
  refine ⟨honly, rfl, ?_, ?_⟩
  · rw [hsame]
    exact h.droppedFrameCount
  · rw [hsame, sum_missingSegments_snoc hd]
    exact h.missingSegmentCount

/-- An empty reassembler has nothing to drop. -/
theorem dropped_of_empty (h : Holds E k as r) (hd : Delivers k (as ++ [a])) (hempty : r.frames = ∅)
    (hsame : abandonedFrames k (as ++ [a]) = abandonedFrames k as) (habsent : ∀ c ∈ as, c.1 ≠ a.1) :
    Dropped E k as a r (r.dropOlderFrames E.psdId (seqOf E.start a.1)) := by
  have hkeep : r.dropOlderFrames E.psdId (seqOf E.start a.1) = r := by
    apply PsdReassembler.dropOlderFrames_of_staleKeys_nil
    simp [PsdReassembler.staleKeys, hempty]
  rw [hkeep]
  exact dropped_of_same h hd hsame (Or.inl ⟨hempty, habsent⟩)

/-- The unfinished frame of the last arrival is left behind by a later one. -/
theorem dropped_left_behind (h : Holds E k as r) (hd : Delivers k (as ++ [a]))
    (hb : as.getLast? = some b) (hfull : ¬Full as b.1) (hlt : b.1 < a.1) :
    Dropped E k as a r (r.dropOlderFrames E.psdId (seqOf E.start a.1)) := by
  have hnear := hd.near_new hb
  have hlast := hd.of_append.le_last hb
  rcases h.unfinished b hb hfull with ⟨frame, hsingle, hcount, hbuffered⟩
  -- Frames less than half the number space apart compare as their positions do.
  have hstale : PsdReassembler.Stale E.psdId (seqOf E.start a.1) (E.key b.1) :=
    ⟨rfl, (seqLess_seqOf_iff hnear (by omega)).2 hlt⟩
  have hset : abandonedFrames k (as ++ [a]) = insert b.1 (abandonedFrames k as) := by
    ext n
    rw [mem_abandonedFrames_snoc hd hb, Finset.mem_insert]
    simp only [hlt, hfull, not_false_eq_true, and_true, or_comm]
  -- No segment of a later frame had arrived yet, so the frame is counted for the first time.
  have hnotin : b.1 ∉ abandonedFrames k as := by
    intro hmem
    simp only [abandonedFrames, Finset.mem_filter] at hmem
    rcases hmem with ⟨_, _, _, c, hc, hlater⟩
    exact absurd (hlast c hc) (Nat.not_le_of_lt hlater)
  have hsize := hbuffered.size
  rw [PsdReassembler.dropOlderFrames_singleton hsingle hstale]
  refine ⟨Or.inl ⟨rfl, ?_⟩, rfl, ?_, ?_⟩
  · intro c hc
    have := hlast c hc
    omega
  · rw [hset, Finset.card_insert_of_notMem hnotin, ← h.droppedFrameCount]
  · rw [hset, Finset.sum_insert hnotin, sum_missingSegments_snoc hd, ← h.missingSegmentCount,
      missingSegments_snoc_of_ne (Nat.ne_of_lt hlt), hcount]
    simp only
    omega

/-- Another segment of the frame of the last arrival drops nothing. -/
theorem dropped_same_frame (h : Holds E k as r) (hd : Delivers k (as ++ [a]))
    (hb : as.getLast? = some b) (hfull : ¬Full as b.1) (heq : b.1 = a.1) :
    Dropped E k as a r (r.dropOlderFrames E.psdId (seqOf E.start a.1)) := by
  rcases h.unfinished b hb hfull with ⟨frame, hsingle, hcount, hbuffered⟩
  have hkeep : r.dropOlderFrames E.psdId (seqOf E.start a.1) = r := by
    apply PsdReassembler.dropOlderFrames_of_staleKeys_nil
    rw [PsdReassembler.staleKeys, hsingle]
    simp [Epoch.key, heq, seqLess]
  rw [hkeep]
  refine dropped_of_same h hd ?_ (Or.inr ⟨frame, by rw [← heq]; exact hsingle, hcount, ?_⟩)
  · ext n
    rw [mem_abandonedFrames_snoc hd hb]
    simp [heq]
  · rw [← heq]
    exact hbuffered

theorem dropped_dropOlderFrames (h : Holds E k as r) (hd : Delivers k (as ++ [a])) :
    Dropped E k as a r (r.dropOlderFrames E.psdId (seqOf E.start a.1)) := by
  cases hb : as.getLast? with
  | none =>
      have hnil : as = [] := List.getLast?_eq_none_iff.1 hb
      refine dropped_of_empty h hd (h.first hnil) ?_ (by simp [hnil])
      rw [hnil]
      ext n
      simp only [abandonedFrames, Finset.mem_filter, List.nil_append, List.mem_singleton,
        List.not_mem_nil, false_and, exists_false, and_false, iff_false]
      rintro ⟨_, _, ⟨c, rfl, rfl⟩, d, rfl, hlt⟩
      exact absurd hlt (Nat.lt_irrefl _)
  | some b =>
      have hle := hd.le_new b (List.mem_of_getLast? hb)
      have hlast := hd.of_append.le_last hb
      by_cases hfull : Full as b.1
      · -- A whole frame has left, and none of its segments comes again.
        have hne : b.1 ≠ a.1 := by
          intro heq
          apply hd.new
          have hmem := hfull a.2 (hd.sent a (by simp)).2
          rwa [heq] at hmem
        refine dropped_of_empty h hd (h.done b hb hfull) ?_ ?_
        · ext n
          rw [mem_abandonedFrames_snoc hd hb]
          simp [hfull]
        · intro c hc
          have := hlast c hc
          omega
      · rcases Nat.lt_or_eq_of_le hle with hlt | heq
        · exact dropped_left_behind h hd hb hfull hlt
        · exact dropped_same_frame h hd hb hfull heq

theorem fullFrames_snoc_of_not_full (hp : ¬Full (as ++ [a]) a.1) :
    fullFrames k (as ++ [a]) = fullFrames k as := by
  ext n
  simp only [fullFrames, Finset.mem_filter]
  -- Only the frame of the new segment could have become full.
  by_cases hn : n = a.1
  · have hold : ¬Full as n := by
      intro hf
      apply hp
      intro i hi
      rw [← hn]
      exact List.mem_append.2 (Or.inl (hf i hi))
    rw [hn] at hold ⊢
    simp [hp, hold]
  · rw [full_snoc_of_ne hn]

theorem card_fullFrames_snoc_of_full (hd : Delivers k (as ++ [a])) (hf : Full (as ++ [a]) a.1) :
    (fullFrames k (as ++ [a])).card = (fullFrames k as).card + 1 := by
  have hlt := hd.sent a (by simp)
  -- The new segment was missing, so its frame is counted for the first time.
  have hold : ¬Full as a.1 := fun h => hd.new (h a.2 hlt.2)
  have hset : fullFrames k (as ++ [a]) = insert a.1 (fullFrames k as) := by
    ext n
    simp only [fullFrames, Finset.mem_insert, Finset.mem_filter, Finset.mem_range]
    by_cases hn : n = a.1
    · simp [hn, hf, hlt.1]
    · simp [hn, full_snoc_of_ne hn]
  have hnotin : a.1 ∉ fullFrames k as := by
    simp [fullFrames, hold]
  rw [hset, Finset.card_insert_of_notMem hnotin]

/-- One arrival: the invariant is kept, and a frame comes out when its last missing segment comes. -/
theorem holds_arrive (h : Holds E k as r) (hd : Delivers k (as ++ [a])) :
    Holds E k (as ++ [a]) (E.arrive r a).1 ∧
      (E.arrive r a).2 =
        if Full (as ++ [a]) a.1 then some ((List.range 8).map (E.payload a.1)) else none := by
  -- What was left behind is settled first; then the segment is stored or completes its frame.
  have hdrop := dropped_dropOlderFrames h hd
  have hlt := (hd.sent a (by simp)).2
  have hlast : (as ++ [a]).getLast? = some a := by simp
  by_cases hfull : Full (as ++ [a]) a.1
  · rw [arrive_full hdrop.only hd.new hlt hfull, if_pos hfull]
    refine ⟨⟨fun _ => rfl, fun _ _ _ => rfl, ?_, ?_, hdrop.droppedFrameCount,
      hdrop.missingSegmentCount⟩, rfl⟩
    · intro c hc hnot
      rw [hlast] at hc
      cases hc
      exact absurd hfull hnot
    · rw [card_fullFrames_snoc_of_full hd hfull, ← h.completeFrames, ← hdrop.completeFrames]
  · rcases arrive_unfinished hdrop.only hd.new hlt hfull with ⟨frame, hcount, hbuffered, harrive⟩
    rw [harrive, if_neg hfull]
    refine ⟨⟨?_, ?_, ?_, ?_, hdrop.droppedFrameCount, hdrop.missingSegmentCount⟩, rfl⟩
    · simp
    · intro c hc hf
      rw [hlast] at hc
      cases hc
      exact absurd hf hfull
    · intro c hc _
      rw [hlast] at hc
      cases hc
      exact ⟨frame, rfl, hcount, hbuffered⟩
    · rw [fullFrames_snoc_of_not_full hfull, ← h.completeFrames, ← hdrop.completeFrames]

end Holds

/-! ## From the fake device to the user interface -/

section EndToEnd

variable (level : Int → Int → Int → Nat → Int) (s : PsdSender)

/-- The segments of the frames that a sender makes; `clock n i` is its clock at segment `i` of frame
`n`. -/
def sentEpoch (clock : Nat → Nat → Int) (hbins : s.config.outputBins = 4096) :
    Epoch (List Byte) where
  psdId := s.config.psdId
  start := s.frameSeq
  header n i := (s.afterFrames n).segmentHeader level (clock n i) i
  payload _ i := s.segmentPayload level i
  psdId_eq _ _ := rfl
  frameSeq_eq _ _ := rfl
  segmentIndex_eq _ _ := rfl
  segmentCount_eq n i := by
    simp [PsdSender.segmentHeader, PsdSender.segmentCount, PsdSender.afterFrames, hbins,
      BINS_PER_SEGMENT]

/-- Datagram `a.2` of frame `a.1`. -/
def datagramOf (frames : List (List (List Byte))) (a : Nat × Nat) : List Byte :=
  (frames.getD a.1 []).getD a.2 []

variable {level s}

/-- Every datagram of the frames is read as the segment it was made from. -/
theorem exists_handlePsd_datagramOf (hbins : s.config.outputBins = 4096)
    {clocks : List (Nat → Int)} {frames : List (List (List Byte))}
    (hsent : s.sendFrames level clocks = .ok frames) :
    ∃ clock : Nat → Nat → Int, ∀ a : Nat × Nat, a.1 < frames.length → a.2 < 8 →
      handlePsd (datagramOf frames a) =
        .ok (some ((sentEpoch level s clock hbins).header a.1 a.2,
          (sentEpoch level s clock hbins).payload a.1 a.2)) := by
  have hcount : s.segmentCount = 8 := by
    simp [PsdSender.segmentCount, hbins, BINS_PER_SEGMENT]
  have hframe : ∀ n, ∃ clock : Nat → Int, ∀ datagrams, frames[n]? = some datagrams →
      List.Forall₂ (fun i d => (s.afterFrames n).segmentDatagram level (clock i) i = .ok d)
        (List.range 8) datagrams := by
    intro n
    cases hn : frames[n]? with
    | none =>
        exact ⟨fun _ => 0, by simp⟩
    | some datagrams =>
        rcases PsdSender.sendFrames_eq_ok hsent hn with ⟨clock, hclock⟩
        rw [hcount] at hclock
        refine ⟨clock, ?_⟩
        intro datagrams' h
        cases h
        exact hclock
  -- The clock readings of each frame, as one function of frame and segment.
  choose clock hclock using hframe
  refine ⟨clock, ?_⟩
  intro a hn hi
  have hget : frames[a.1]? = some frames[a.1] := List.getElem?_eq_getElem hn
  have hdatagram : datagramOf frames a = frames[a.1].getD a.2 [] := by
    simp [datagramOf, List.getD_eq_getElem?_getD, hget]
  rw [hdatagram]
  exact handlePsd_getD (hclock a.1 _ hget) hi

/-- The joined payloads of a frame are shown as its bins. -/
theorem buildFrame_of_sent {F : Type u} [PyFloat F] (level : Int → Int → Int → Nat → Int)
    (hs : s.config.check = .ok ()) (stats : PsdStats) (n : Nat) (deviceTimeMs : Int) (i : Nat) :
    ∃ frame : PsdFrame F,
      buildFrame ((s.afterFrames n).segmentHeader level deviceTimeMs i) stats
          ((List.range 8).map (s.segmentPayload level)) = .ok frame ∧
        frame.psdId = s.config.psdId ∧ frame.frameSeq = seqOf s.frameSeq n ∧
        frame.binsDbfs = (s.bins level).map binDbfs := by
  rcases PsdConfig.of_check hs with ⟨⟨_, hspan, _⟩, hbins⟩
  -- An accepted span is positive, so the frame reports the header's bounds as they are.
  have hrange : s.config.startFrequencyHz < s.config.stopFrequencyHz := by omega
  have hlen : (s.bins level).length = 4096 := by
    simp [PsdSender.bins, makePsdBinsQ8, hbins]
  have hdecoded : (decodeBins ((List.range 8).map (s.segmentPayload level)).flatten : List F) =
      (s.bins level).map binDbfs := by
    rw [decodeBins, flatten_segmentPayload level s hbins, decodeQ8_encode (fits_bins level s)]
  have hclip : clipBins ((s.bins level).map (binDbfs (F := F))) 4096 = (s.bins level).map binDbfs := by
    rw [clipBins, if_neg (by decide)]
    exact List.take_of_length_le (by simp [hlen])
  have hbounds : ∃ spacing : F, frequencyBounds ((s.afterFrames n).segmentHeader level deviceTimeMs i) =
      .ok (s.config.startFrequencyHz, .inl s.config.stopFrequencyHz, spacing) := by
    refine ⟨PyFloat.trueDiv (s.config.stopFrequencyHz - s.config.startFrequencyHz)
      s.config.outputBins, ?_⟩
    unfold frequencyBounds
    rw [if_pos (by exact hrange), if_neg (by simp [PsdSender.segmentHeader, PsdSender.afterFrames, hbins])]
    rfl
  rcases hbounds with ⟨spacing, hbounds⟩
  simp only [buildFrame, hbounds, hdecoded]
  refine ⟨_, rfl, rfl, rfl, ?_⟩
  rw [show ((s.afterFrames n).segmentHeader level deviceTimeMs i).totalBins = 4096 from hbins]
  exact hclip

theorem receive_datagramOf {F : Type u} [PyFloat F] (hs : s.config.check = .ok ())
    {clock : Nat → Nat → Int} {frames : List (List (List Byte))} {a : Nat × Nat}
    (hhandle : handlePsd (datagramOf frames a) =
      .ok (some ((sentEpoch level s clock (PsdConfig.of_check hs).2).header a.1 a.2,
        (sentEpoch level s clock (PsdConfig.of_check hs).2).payload a.1 a.2)))
    (r : PsdReassembler (List Byte)) :
    (receive (F := F) r (datagramOf frames a)).1 =
        ((sentEpoch level s clock (PsdConfig.of_check hs).2).arrive r a).1 ∧
      (((sentEpoch level s clock (PsdConfig.of_check hs).2).arrive r a).2 = none →
        (receive (F := F) r (datagramOf frames a)).2 = .ok none) ∧
      (((sentEpoch level s clock (PsdConfig.of_check hs).2).arrive r a).2 =
          some ((List.range 8).map (s.segmentPayload level)) →
        ∃ frame : PsdFrame F, (receive r (datagramOf frames a)).2 = .ok (some frame) ∧
          frame.psdId = s.config.psdId ∧ frame.frameSeq = seqOf s.frameSeq a.1 ∧
          frame.binsDbfs = (s.bins level).map binDbfs) := by
  simp only [receive, hhandle, PsdReassembler.ingest, Epoch.arrive]
  cases hcollect : r.collect ((sentEpoch level s clock (PsdConfig.of_check hs).2).header a.1 a.2)
      ((sentEpoch level s clock (PsdConfig.of_check hs).2).payload a.1 a.2) with
  | mk r' segments =>
      cases segments with
      | none =>
          simp
      | some segments =>
          refine ⟨?_, ?_, ?_⟩
          · simp only
            split
            · rfl
            · rfl
          · intro h
            exact absurd h (by simp)
          · intro h
            simp only [Option.some.injEq] at h
            rcases buildFrame_of_sent (F := F) level hs r'.stats a.1 (clock a.1 a.2) a.2 with
              ⟨frame, hframe, hfields⟩
            refine ⟨frame, ?_, hfields⟩
            rw [h]
            have hheader : (sentEpoch level s clock (PsdConfig.of_check hs).2).header a.1 a.2 =
                (s.afterFrames a.1).segmentHeader level (clock a.1 a.2) a.2 := rfl
            simp only [hheader, hframe]

/-- The reassembler once the datagrams have arrived. -/
def receiveAll (F : Type u) [PyFloat F] (ds : List (List Byte)) : PsdReassembler (List Byte) :=
  runFrom (fun r d => (receive (F := F) r d).1) {} ds

/-- Segmentation followed by reassembly is the identity on every frame that is delivered whole, it
returns nothing else, and the counters are exact. -/
theorem reassembles_delivered_frames (F : Type u) [PyFloat F]
    (level : Int → Int → Int → Nat → Int) (s : PsdSender) (hs : s.config.check = .ok ())
    (clocks : List (Nat → Int)) (frames : List (List (List Byte)))
    (hsent : s.sendFrames level clocks = .ok frames) (as : List (Nat × Nat))
    (has : Delivers frames.length as) :
    (∀ pre a post, as = pre ++ a :: post →
      (¬Full (pre ++ [a]) a.1 →
        (receive (F := F) (receiveAll F (pre.map (datagramOf frames))) (datagramOf frames a)).2 =
          .ok none) ∧
      (Full (pre ++ [a]) a.1 →
        ∃ frame : PsdFrame F,
          (receive (receiveAll F (pre.map (datagramOf frames))) (datagramOf frames a)).2 =
              .ok (some frame) ∧
            frame.psdId = s.config.psdId ∧ frame.frameSeq = seqOf s.frameSeq a.1 ∧
            frame.binsDbfs = (s.bins level).map binDbfs)) ∧
      (receiveAll F (as.map (datagramOf frames))).stats.completeFrames =
        (fullFrames frames.length as).card ∧
      (receiveAll F (as.map (datagramOf frames))).stats.droppedFrameCount =
        (abandonedFrames frames.length as).card ∧
      (receiveAll F (as.map (datagramOf frames))).stats.missingSegmentCount =
        ∑ n ∈ abandonedFrames frames.length as, missingSegments as n := by
  rcases exists_handlePsd_datagramOf (PsdConfig.of_check hs).2 hsent with ⟨clock, hclock⟩
  -- Every prefix of a delivery is one, so the invariant is carried from arrival to arrival.
  have hholds : ∀ as, Delivers frames.length as →
      Holds (sentEpoch level s clock (PsdConfig.of_check hs).2) frames.length as
        (receiveAll F (as.map (datagramOf frames))) := by
    intro as
    induction as using List.reverseRecOn with
    | nil =>
        intro _
        exact holds_init _ _
    | append_singleton as a ih =>
        intro hd
        have hsegment := hd.sent a (by simp)
        have hstep := (holds_arrive (ih hd.of_append) hd).1
        rw [← (receive_datagramOf (F := F) hs (hclock a hsegment.1 hsegment.2) _).1] at hstep
        rw [receiveAll, List.map_append, List.map_singleton, runFrom_snoc]
        exact hstep
  have hfinal := hholds as has
  refine ⟨?_, hfinal.completeFrames, hfinal.droppedFrameCount, hfinal.missingSegmentCount⟩
  intro pre a post hsplit
  have hd : Delivers frames.length (pre ++ [a]) := by
    rw [hsplit, List.append_cons] at has
    exact has.of_append
  have hsegment := hd.sent a (by simp)
  have hout := (holds_arrive (hholds pre hd.of_append) hd).2
  rcases receive_datagramOf (F := F) hs (hclock a hsegment.1 hsegment.2)
    (receiveAll F (pre.map (datagramOf frames))) with ⟨_, hnone, hsome⟩
  refine ⟨?_, ?_⟩
  · intro hunfinished
    rw [if_neg hunfinished] at hout
    exact hnone hout
  · intro hfull
    rw [if_pos hfull] at hout
    exact hsome hout

end EndToEnd

/-- Exact arithmetic in place of floating point; the two agree on a bin that is a whole number of
decibels. -/
instance : PyFloat Rat where
  ofInt v := v
  trueDiv a b := a / b
  div a b := a / b
  mul a b := a * b
  add a b := a + b
  round2 x := roundHalfEven ((x * 100).num) ((x * 100).den) / 100

/-- One segment of frame 0, then all of frame 1, last segment first. -/
def partThenWhole : List (Nat × Nat) :=
  (0, 3) :: (List.range 8).reverse.map (fun i => (1, i))

theorem reassembles_delivered_frames_partThenWhole :
    ∃ frames, ({} : PsdSender).sendFrames (fun _ _ _ _ => -25600) [fun _ => 0, fun _ => 100] =
        .ok frames ∧
      (receiveAll Rat (partThenWhole.map (datagramOf frames))).stats.completeFrames = 1 ∧
      (receiveAll Rat (partThenWhole.map (datagramOf frames))).stats.droppedFrameCount = 1 ∧
      (receiveAll Rat (partThenWhole.map (datagramOf frames))).stats.missingSegmentCount = 7 := by
  rcases PsdSender.exists_sendFrames (s := {}) (fun _ _ _ _ => -25600) [fun _ => 0, fun _ => 100]
    (by decide) (by decide) (by decide) (by
      intro clock hclock i
      simp only [List.mem_cons, List.not_mem_nil, or_false] at hclock
      rcases hclock with rfl | rfl
      · exact (by decide : Code.Q.Fits (0 * 250000))
      · exact (by decide : Code.Q.Fits (100 * 250000))) with ⟨frames, hsent, hlen⟩
  have hdelivers : Delivers frames.length partThenWhole := by
    rw [hlen]
    exact ⟨by decide, by decide, by decide, by decide⟩
  have hstats := (reassembles_delivered_frames Rat (fun _ _ _ _ => -25600) {} (by decide) _ frames
    hsent partThenWhole hdelivers).2
  rw [hlen] at hstats
  exact ⟨frames, hsent, hstats.1.trans (by decide), hstats.2.1.trans (by decide),
    hstats.2.2.trans (by decide)⟩

end Backend
end Sdr
