import Sdr.Lib.Dict
import Sdr.Protocol.Packets
import Mathlib.Data.BitVec

/-!
# PsdReassembler — putting PSD frames together from segments

Model of `rpi/backend/sdr_backend/psd.py`.  `collect` is `ingest` up to the point where the payloads
of a frame are joined; it is generic in what a payload is, because the code only stores payloads and
hands them back.  `ingest` is `collect` at byte strings followed by `buildFrame`.

Bins and frequencies leave the reassembler as floating-point numbers; `PyFloat` names the operations
that make them.
-/

namespace Sdr
namespace Backend

open Lib Lib.Struct Protocol

universe u v w

/-! ## Data -/

/-- The floating-point operations of the frame's numbers. -/
class PyFloat (F : Type u) where
  ofInt : Int → F
  /-- `int / int`. -/
  trueDiv : Int → Int → F
  div : F → F → F
  mul : F → F → F
  add : F → F → F
  /-- `round(x, 2)`. -/
  round2 : F → F

structure PsdFrameBuffer (π : Type v) where
  header : SdrPsdHeader
  segments : Dict Int π := ∅

structure PsdStats where
  completeFrames : Nat := 0
  droppedFrameCount : Nat := 0
  missingSegmentCount : Nat := 0
  lastFrameSeq : Option Int := none
  deriving DecidableEq, Repr

/-- `(psd_id, frame_seq)`. -/
abbrev FrameKey := Int × Int

structure PsdReassembler (π : Type v) where
  frames : Dict FrameKey (PsdFrameBuffer π) := ∅
  stats : PsdStats := {}

/-- The dictionary that `ingest` returns. -/
structure PsdFrame (F : Type u) where
  psdId : Int
  frameSeq : Int
  startFrequencyHz : Int
  stopFrequencyHz : Int ⊕ F
  binSpacingHz : F
  fftSize : Int
  totalBins : Int
  binsDbfs : List F
  flags : Int
  droppedFrameCount : Nat
  missingSegmentCount : Nat

/-- `division by zero`, the only exception `ingest` can raise. -/
inductive IngestError
  | zeroDivision
  deriving DecidableEq, Repr

/-! ## Serial numbers -/

def seqLess (left right : Int) : Bool :=
  decide (left ≠ right) && decide ((right - left) % 2 ^ 32 < 2 ^ 31)

/-- Number of the frame `n` of an epoch whose first frame has the number `start`. -/
def seqOf (start : BitVec 32) (n : Nat) : Int :=
  (start + BitVec.ofNat 32 n).toNat

theorem seqOf_sub (start : BitVec 32) (n m : Nat) :
    (seqOf start m - seqOf start n) % 2 ^ 32 = ((m : Int) - n) % 2 ^ 32 := by
  -- The common start cancels in the difference.
  have hval : ∀ k : Nat, seqOf start k = ((start.toNat : Int) + k) % 2 ^ 32 := by
    intro k
    simp [seqOf, BitVec.toNat_add]
  rw [hval, hval]
  omega

/-- Within a window of `2 ^ 31` frames, numbers compare as the frames do. -/
theorem seqLess_seqOf_iff {start : BitVec 32} {n m : Nat} (hm : m < n + 2 ^ 31) (hn : n < m + 2 ^ 31) :
    seqLess (seqOf start n) (seqOf start m) = true ↔ n < m := by
  have hsub := seqOf_sub start n m
  have hself : seqOf start n = seqOf start m → ((m : Int) - n) % 2 ^ 32 = 0 := by
    intro heq
    rw [← hsub, heq]
    simp
  simp only [seqLess, Bool.and_eq_true, decide_eq_true_eq, hsub]
  constructor
  · -- Going back by at most half the range is going forward by at least half of it.
    rintro ⟨hne, hlt⟩
    by_contra hge
    have heq : n ≠ m := fun h => hne (by rw [h])
    omega
  · intro hlt
    refine ⟨?_, by omega⟩
    intro heq
    have hzero := hself heq
    omega

theorem seqOf_inj {start : BitVec 32} {n m : Nat} (hm : m < n + 2 ^ 31) (hn : n < m + 2 ^ 31)
    (h : seqOf start n = seqOf start m) : n = m := by
  have hsub := seqOf_sub start n m
  rw [h] at hsub
  simp only [sub_self] at hsub
  omega

namespace PsdReassembler

variable {π : Type v}

def reset (_ : PsdReassembler π) : PsdReassembler π := {}

/-! ## `_drop_older_frames` -/

def staleKeys (r : PsdReassembler π) (psdId frameSeq : Int) : List FrameKey :=
  r.frames.keys.filter (fun key => decide (key.1 = psdId) && seqLess key.2 frameSeq)

/-- One turn of the loop over the stale keys. -/
def dropFrame (r : PsdReassembler π) (key : FrameKey) : PsdReassembler π :=
  match r.frames.lookup key with
  | none => r
  | some frame =>
      { frames := r.frames.erase key
        stats :=
          { r.stats with
            droppedFrameCount := r.stats.droppedFrameCount + 1
            missingSegmentCount := r.stats.missingSegmentCount +
              (frame.header.segmentCount - (frame.segments.size : Int)).toNat } }

def dropOlderFrames (r : PsdReassembler π) (psdId frameSeq : Int) : PsdReassembler π :=
  (r.staleKeys psdId frameSeq).foldl dropFrame r

/-! ## `ingest` -/

/-- The payloads `0 .. segment_count - 1`, when all of them are there. -/
def ordered (segments : Dict Int π) (segmentCount : Int) : Option (List π) :=
  let found := (List.range segmentCount.toNat).map (fun index : Nat => segments.lookup (index : Int))
  if found.any Option.isNone then none else some (found.filterMap id)

/-- The buffer that a segment is stored in, with the segment in it. -/
def storeSegment (r : PsdReassembler π) (header : SdrPsdHeader) (payload : π) : PsdFrameBuffer π :=
  let frame := (r.frames.lookup (header.psdId, header.frameSeq)).getD { header := header }
  { frame with segments := frame.segments.insert header.segmentIndex payload }

def collect (r : PsdReassembler π) (header : SdrPsdHeader) (payload : π) :
    PsdReassembler π × Option (List π) :=
  -- Frames of this `psd_id` that the new segment is ahead of are given up first.
  let r := r.dropOlderFrames header.psdId header.frameSeq
  let key := (header.psdId, header.frameSeq)
  let frame := r.storeSegment header payload
  -- The count may be reached by indices out of range, hence the second check.
  if (frame.segments.size : Int) < header.segmentCount then
    ({ r with frames := r.frames.insert key frame }, none)
  else
    match ordered frame.segments header.segmentCount with
    | none => ({ r with frames := r.frames.insert key frame }, none)
    | some segments =>
        ({ frames := r.frames.erase key
           stats :=
             { r.stats with
               completeFrames := r.stats.completeFrames + 1
               lastFrameSeq := some header.frameSeq } },
          some segments)

end PsdReassembler

section Frame

variable {F : Type u} [PyFloat F]

/-- The bin as the user interface shows it. -/
def binDbfs (q8 : Int) : F :=
  PyFloat.round2 (PyFloat.div (PyFloat.ofInt q8) (PyFloat.ofInt 256))

/-- Pairs of bytes as signed integers; a last odd byte is ignored. -/
def decodeQ8 : List Byte → List Int
  | low :: high :: rest => Code.h.decode [low, high] :: decodeQ8 rest
  | _ => []

def decodeBins (payload : List Byte) : List F :=
  (decodeQ8 payload).map binDbfs

def frequencyBounds (header : SdrPsdHeader) : Except IngestError (Int × (Int ⊕ F) × F) :=
  if header.stopFrequencyHz > header.startFrequencyHz then
    if header.totalBins = 0 then
      .error .zeroDivision
    else
      .ok (header.startFrequencyHz, .inl header.stopFrequencyHz,
        PyFloat.trueDiv (header.stopFrequencyHz - header.startFrequencyHz) header.totalBins)
  else
    let binSpacingHz : F :=
      PyFloat.div (PyFloat.ofInt header.binSpacingMillihz) (PyFloat.ofInt 1000)
    .ok (header.startFrequencyHz,
      .inr (PyFloat.add (PyFloat.ofInt header.startFrequencyHz)
        (PyFloat.mul (PyFloat.ofInt header.totalBins) binSpacingHz)),
      binSpacingHz)

/-- `bins_q8[: total_bins]`; a negative bound counts from the end. -/
def clipBins (bins : List F) (totalBins : Int) : List F :=
  if totalBins < 0 then bins.take ((bins.length : Int) + totalBins).toNat
  else bins.take totalBins.toNat

def buildFrame (header : SdrPsdHeader) (stats : PsdStats) (segments : List (List Byte)) :
    Except IngestError (PsdFrame F) :=
  let bins : List F := decodeBins segments.flatten
  match frequencyBounds header with
  | .error e => .error e
  | .ok (startFrequencyHz, stopFrequencyHz, binSpacingHz) =>
      .ok
        { psdId := header.psdId
          frameSeq := header.frameSeq
          startFrequencyHz := startFrequencyHz
          stopFrequencyHz := stopFrequencyHz
          binSpacingHz := binSpacingHz
          fftSize := header.fftSize
          totalBins := header.totalBins
          binsDbfs := clipBins bins header.totalBins
          flags := header.flags
          droppedFrameCount := stats.droppedFrameCount
          missingSegmentCount := stats.missingSegmentCount }

/-- `ingest`: the reassembler afterwards, and the frame, `None` or the exception. -/
def PsdReassembler.ingest (r : PsdReassembler (List Byte)) (header : SdrPsdHeader)
    (payload : List Byte) : PsdReassembler (List Byte) × Except IngestError (Option (PsdFrame F)) :=
  match r.collect header payload with
  | (r', none) => (r', .ok none)
  | (r', some segments) =>
      match buildFrame header r'.stats segments with
      | .error e => (r', .error e)
      | .ok frame => (r', .ok (some frame))

end Frame

/-! ## What the operations do -/

namespace PsdReassembler

variable {π : Type v}

/-- The key is one that a segment of this frame makes stale. -/
def Stale (psdId frameSeq : Int) (key : FrameKey) : Prop :=
  key.1 = psdId ∧ seqLess key.2 frameSeq = true

instance (psdId frameSeq : Int) (key : FrameKey) : Decidable (Stale psdId frameSeq key) :=
  inferInstanceAs (Decidable (key.1 = psdId ∧ seqLess key.2 frameSeq = true))

theorem not_stale_self (psdId frameSeq : Int) : ¬Stale psdId frameSeq (psdId, frameSeq) := by
  simp [Stale, seqLess]

theorem mem_staleKeys {r : PsdReassembler π} {psdId frameSeq : Int} {key : FrameKey} :
    key ∈ r.staleKeys psdId frameSeq ↔ key ∈ r.frames.keys ∧ Stale psdId frameSeq key := by
  simp [staleKeys, Stale]

theorem lookup_dropFrame (r : PsdReassembler π) (key k : FrameKey) :
    (r.dropFrame key).frames.lookup k = if k = key then none else r.frames.lookup k := by
  unfold dropFrame
  cases h : r.frames.lookup key with
  | none =>
      by_cases hk : k = key
      · rw [if_pos hk, hk]
        exact h
      · rw [if_neg hk]
  | some frame =>
      exact Dict.lookup_erase _ _ _

theorem lookup_foldl_dropFrame (keys : List FrameKey) (r : PsdReassembler π) (k : FrameKey) :
    (keys.foldl dropFrame r).frames.lookup k = if k ∈ keys then none else r.frames.lookup k := by
  induction keys generalizing r with
  | nil =>
      simp
  | cons key keys ih =>
      rw [List.foldl_cons, ih, lookup_dropFrame]
      by_cases hmem : k ∈ keys
      · simp [hmem]
      · by_cases hk : k = key
        · simp [hk]
        · simp [hmem, hk]

/-- Stale frames are gone, the others are untouched. -/
theorem lookup_dropOlderFrames (r : PsdReassembler π) (psdId frameSeq : Int) (k : FrameKey) :
    (r.dropOlderFrames psdId frameSeq).frames.lookup k =
      if Stale psdId frameSeq k then none else r.frames.lookup k := by
  rw [dropOlderFrames, lookup_foldl_dropFrame]
  by_cases hstale : Stale psdId frameSeq k
  · rw [if_pos hstale]
    split_ifs with hmem
    · rfl
    · -- A stale key that is not in the list has no buffer to begin with.
      cases h : r.frames.lookup k with
      | none =>
          rfl
      | some frame =>
          exact absurd (mem_staleKeys.2 ⟨Dict.mem_iff_lookup.2 ⟨frame, h⟩, hstale⟩) hmem
  · rw [if_neg hstale, if_neg (fun hmem => hstale (mem_staleKeys.1 hmem).2)]

theorem dropOlderFrames_of_staleKeys_nil {r : PsdReassembler π} {psdId frameSeq : Int}
    (h : r.staleKeys psdId frameSeq = []) : r.dropOlderFrames psdId frameSeq = r := by
  rw [dropOlderFrames, h]
  rfl

/-- The only buffer is stale: it is dropped and what it misses is counted. -/
theorem dropOlderFrames_singleton {r : PsdReassembler π} {psdId frameSeq : Int} {key : FrameKey}
    {frame : PsdFrameBuffer π} (hframes : r.frames = AList.singleton key frame)
    (hstale : Stale psdId frameSeq key) :
    r.dropOlderFrames psdId frameSeq =
      { frames := ∅
        stats :=
          { r.stats with
            droppedFrameCount := r.stats.droppedFrameCount + 1
            missingSegmentCount := r.stats.missingSegmentCount +
              (frame.header.segmentCount - (frame.segments.size : Int)).toNat } } := by
  have hkeys : r.staleKeys psdId frameSeq = [key] := by
    rw [staleKeys, hframes]
    simp [hstale.1, hstale.2]
  have hlookup : r.frames.lookup key = some frame := by
    rw [hframes, Dict.lookup_singleton]
  have herase : r.frames.erase key = ∅ := by
    rw [hframes, Dict.erase_singleton]
  rw [dropOlderFrames, hkeys]
  simp only [List.foldl_cons, List.foldl_nil, dropFrame, hlookup, herase]

/-- The segments stored for a frame. -/
def stored (r : PsdReassembler π) (key : FrameKey) : Dict Int π :=
  ((r.frames.lookup key).map PsdFrameBuffer.segments).getD ∅

/-- Every segment of the frame is there. -/
def Complete (segments : Dict Int π) (segmentCount : Int) : Prop :=
  ∀ index : Nat, index < segmentCount.toNat → ∃ payload, segments.lookup (index : Int) = some payload

instance (segments : Dict Int π) (segmentCount : Int) : Decidable (Complete segments segmentCount) :=
  decidable_of_iff
    (∀ index ∈ List.range segmentCount.toNat, (segments.lookup (index : Int)).isSome = true)
    (by simp [Complete, Option.isSome_iff_exists])

theorem ordered_eq_some {segments : Dict Int π} {segmentCount : Int}
    (h : Complete segments segmentCount) :
    ordered segments segmentCount =
      some ((List.range segmentCount.toNat).filterMap (fun index : Nat => segments.lookup (index : Int))) := by
  have hall : ((List.range segmentCount.toNat).map
      (fun index : Nat => segments.lookup (index : Int))).any Option.isNone = false := by
    rw [List.any_eq_false]
    intro x hx
    rcases List.mem_map.1 hx with ⟨index, hindex, rfl⟩
    rcases h index (List.mem_range.1 hindex) with ⟨payload, hpayload⟩
    simp [hpayload]
  simp only [ordered, hall, Bool.false_eq_true, if_false, List.filterMap_map]
  rfl

theorem ordered_eq_none {segments : Dict Int π} {segmentCount : Int}
    (h : ¬Complete segments segmentCount) : ordered segments segmentCount = none := by
  unfold Complete at h
  push Not at h
  -- One index without a payload is enough for the check to fail.
  rcases h with ⟨index, hindex, hnone⟩
  have hmissing : segments.lookup (index : Int) = none := by
    cases hl : segments.lookup (index : Int) with
    | none =>
        rfl
    | some payload =>
        exact absurd hl (hnone payload)
  have hany : ((List.range segmentCount.toNat).map
      (fun index : Nat => segments.lookup (index : Int))).any Option.isNone = true := by
    rw [List.any_eq_true]
    exact ⟨none, List.mem_map.2 ⟨index, List.mem_range.2 hindex, hmissing⟩, rfl⟩
  simp only [ordered, hany, if_true]

/-- The count check never stops a frame that has all its segments. -/
theorem segmentCount_le_size {segments : Dict Int π} {segmentCount : Int}
    (h : Complete segments segmentCount) : segmentCount ≤ segments.size := by
  -- The indices are distinct keys of the map.
  have hnodup : ((List.range segmentCount.toNat).map (fun index : Nat => (index : Int))).Nodup :=
    List.nodup_range.map (fun _ _ hab => by exact_mod_cast hab)
  have hle := Dict.length_le_size (d := segments) hnodup (by
    intro k hk
    rcases List.mem_map.1 hk with ⟨index, hindex, rfl⟩
    exact h index (List.mem_range.1 hindex))
  simp only [List.length_map, List.length_range] at hle
  omega

theorem storeSegment_segments (r : PsdReassembler π) (header : SdrPsdHeader) (payload : π) :
    (r.storeSegment header payload).segments =
      (r.stored (header.psdId, header.frameSeq)).insert header.segmentIndex payload := by
  unfold storeSegment stored
  cases r.frames.lookup (header.psdId, header.frameSeq) with
  | none =>
      rfl
  | some frame =>
      rfl

section Collect

variable {r : PsdReassembler π} {header : SdrPsdHeader} {payload : π}

/-- The segments of the frame once the new one is stored. -/
def received (r : PsdReassembler π) (header : SdrPsdHeader) (payload : π) : Dict Int π :=
  (r.stored (header.psdId, header.frameSeq)).insert header.segmentIndex payload

theorem storeSegment_dropOlderFrames (r : PsdReassembler π) (header : SdrPsdHeader) (payload : π) :
    (r.dropOlderFrames header.psdId header.frameSeq).storeSegment header payload =
      r.storeSegment header payload := by
  have hself := not_stale_self header.psdId header.frameSeq
  simp only [storeSegment, lookup_dropOlderFrames, if_neg hself]

/-- A segment that leaves its frame incomplete is stored. -/
theorem collect_incomplete (h : ¬Complete (r.received header payload) header.segmentCount) :
    r.collect header payload =
      ({ r.dropOlderFrames header.psdId header.frameSeq with
          frames := (r.dropOlderFrames header.psdId header.frameSeq).frames.insert
            (header.psdId, header.frameSeq) (r.storeSegment header payload) },
        none) := by
  have hsegs : (r.storeSegment header payload).segments = r.received header payload :=
    storeSegment_segments r header payload
  unfold collect
  simp only [storeSegment_dropOlderFrames, hsegs, ordered_eq_none h, ite_self]

/-- A segment that completes its frame takes it out and hands its payloads over. -/
theorem collect_complete (h : Complete (r.received header payload) header.segmentCount) :
    r.collect header payload =
      ({ frames := (r.dropOlderFrames header.psdId header.frameSeq).frames.erase
            (header.psdId, header.frameSeq)
         stats :=
           { (r.dropOlderFrames header.psdId header.frameSeq).stats with
             completeFrames :=
               (r.dropOlderFrames header.psdId header.frameSeq).stats.completeFrames + 1
             lastFrameSeq := some header.frameSeq } },
        some ((List.range header.segmentCount.toNat).filterMap
          (fun index : Nat => (r.received header payload).lookup (index : Int)))) := by
  have hsegs : (r.storeSegment header payload).segments = r.received header payload :=
    storeSegment_segments r header payload
  have hsize := segmentCount_le_size h
  unfold collect
  simp only [storeSegment_dropOlderFrames, hsegs, ordered_eq_some h]
  rw [if_neg (by omega)]

/-- Every buffer after a segment: its own frame is taken out or stored, stale ones are gone, the others
are untouched. -/
theorem lookup_collect (r : PsdReassembler π) (header : SdrPsdHeader) (payload : π) (k : FrameKey) :
    (r.collect header payload).1.frames.lookup k =
      if k = (header.psdId, header.frameSeq) then
        (if (r.collect header payload).2.isSome then none
          else some (r.storeSegment header payload))
      else if Stale header.psdId header.frameSeq k then none
      else r.frames.lookup k := by
  by_cases h : Complete (r.received header payload) header.segmentCount
  · rw [collect_complete h]
    by_cases hk : k = (header.psdId, header.frameSeq)
    · rw [if_pos hk, hk]
      exact AList.lookup_erase _ _
    · rw [if_neg hk, ← lookup_dropOlderFrames]
      exact AList.lookup_erase_ne hk
  · rw [collect_incomplete h]
    by_cases hk : k = (header.psdId, header.frameSeq)
    · rw [if_pos hk, hk]
      exact AList.lookup_insert _
    · rw [if_neg hk, ← lookup_dropOlderFrames]
      exact AList.lookup_insert_ne hk

/-- What is stored for any frame after a segment. -/
theorem stored_collect (r : PsdReassembler π) (header : SdrPsdHeader) (payload : π) (k : FrameKey) :
    (r.collect header payload).1.stored k =
      if k = (header.psdId, header.frameSeq) then
        (if (r.collect header payload).2.isSome then ∅ else r.received header payload)
      else if Stale header.psdId header.frameSeq k then ∅
      else r.stored k := by
  have hself : (r.storeSegment header payload).segments = r.received header payload :=
    storeSegment_segments r header payload
  rw [stored, lookup_collect]
  split_ifs
  · rfl
  · exact hself
  · rfl
  · rfl

end Collect

section Ingest

variable {F : Type u} [PyFloat F] {r : PsdReassembler (List Byte)} {header : SdrPsdHeader}
  {payload : List Byte}

/-- The spacing of the bins can be computed. -/
def Spaced (header : SdrPsdHeader) : Prop :=
  header.startFrequencyHz < header.stopFrequencyHz → header.totalBins ≠ 0

instance (header : SdrPsdHeader) : Decidable (Spaced header) :=
  inferInstanceAs (Decidable (_ → _))

theorem frequencyBounds_ok (h : Spaced header) :
    ∃ bounds, frequencyBounds (F := F) header = .ok bounds := by
  unfold frequencyBounds
  split_ifs with hlt hzero
  · exact absurd hzero (h hlt)
  · exact ⟨_, rfl⟩
  · exact ⟨_, rfl⟩

theorem frequencyBounds_error (h : ¬Spaced header) :
    frequencyBounds (F := F) header = .error .zeroDivision := by
  rw [Spaced, Classical.not_imp, not_not] at h
  unfold frequencyBounds
  rw [if_pos h.1, if_pos h.2]

theorem ingest_incomplete (h : ¬Complete (r.received header payload) header.segmentCount) :
    (r.ingest (F := F) header payload).2 = .ok none := by
  rw [ingest, collect_incomplete h]

/-- The frame is out of the buffers before its bounds are computed. -/
theorem ingest_raises (h : Complete (r.received header payload) header.segmentCount)
    (hspaced : ¬Spaced header) :
    (r.ingest (F := F) header payload).2 = .error .zeroDivision := by
  rw [ingest, collect_complete h]
  simp only [buildFrame, frequencyBounds_error hspaced]

theorem ingest_frame (h : Complete (r.received header payload) header.segmentCount)
    (hspaced : Spaced header) :
    ∃ frame, (r.ingest (F := F) header payload).2 = .ok (some frame) := by
  rcases frequencyBounds_ok (F := F) hspaced with ⟨bounds, hbounds⟩
  rw [ingest, collect_complete h]
  simp only [buildFrame, hbounds]
  exact ⟨_, rfl⟩

end Ingest

/-! ## Payloads are opaque -/

section MapPayload

variable {ρ : Type w} (f : π → ρ)

def mapBuffer (frame : PsdFrameBuffer π) : PsdFrameBuffer ρ where
  header := frame.header
  segments := Dict.mapVal f frame.segments

/-- The reassembler with every stored payload replaced by its image. -/
def mapPayload (r : PsdReassembler π) : PsdReassembler ρ where
  frames := Dict.mapVal (mapBuffer f) r.frames
  stats := r.stats

theorem dropFrame_mapPayload (r : PsdReassembler π) (key : FrameKey) :
    (r.mapPayload f).dropFrame key = (r.dropFrame key).mapPayload f := by
  unfold dropFrame
  cases h : r.frames.lookup key with
  | none =>
      simp [mapPayload, h]
  | some frame =>
      simp [mapPayload, h, mapBuffer]

theorem dropOlderFrames_mapPayload (r : PsdReassembler π) (psdId frameSeq : Int) :
    (r.mapPayload f).dropOlderFrames psdId frameSeq =
      (r.dropOlderFrames psdId frameSeq).mapPayload f := by
  have hkeys : (r.mapPayload f).staleKeys psdId frameSeq = r.staleKeys psdId frameSeq := by
    simp [staleKeys, mapPayload]
  unfold dropOlderFrames
  rw [hkeys]
  -- The list of stale keys is fixed before the loop starts.
  generalize r.staleKeys psdId frameSeq = keys
  induction keys generalizing r with
  | nil =>
      rfl
  | cons key keys ih =>
      rw [List.foldl_cons, List.foldl_cons, dropFrame_mapPayload]
      exact ih (r.dropFrame key) (by simp [staleKeys, mapPayload])

theorem storeSegment_mapPayload (r : PsdReassembler π) (header : SdrPsdHeader) (payload : π) :
    (r.mapPayload f).storeSegment header (f payload) = mapBuffer f (r.storeSegment header payload) := by
  unfold storeSegment
  cases h : r.frames.lookup (header.psdId, header.frameSeq) with
  | none =>
      simp [mapPayload, h, mapBuffer]
      rfl
  | some frame =>
      simp [mapPayload, h, mapBuffer]

theorem ordered_mapVal (segments : Dict Int π) (segmentCount : Int) :
    ordered (Dict.mapVal f segments) segmentCount =
      (ordered segments segmentCount).map (List.map f) := by
  have hfound : (List.range segmentCount.toNat).map
      (fun index : Nat => (Dict.mapVal f segments).lookup (index : Int)) =
        ((List.range segmentCount.toNat).map
          (fun index : Nat => segments.lookup (index : Int))).map (Option.map f) := by
    simp [Function.comp_def]
  simp only [ordered, hfound]
  generalize (List.range segmentCount.toNat).map
    (fun index : Nat => segments.lookup (index : Int)) = found
  have hnone : (found.map (Option.map f)).any Option.isNone = found.any Option.isNone := by
    simp [List.any_map, Function.comp_def]
  have hsome : (found.map (Option.map f)).filterMap id = (found.filterMap id).map f := by
    rw [List.filterMap_map, List.map_filterMap]
    rfl
  rw [hnone, hsome]
  split_ifs
  · rfl
  · rfl

/-- The reassembler only stores payloads and hands them back. -/
theorem collect_mapPayload (r : PsdReassembler π) (header : SdrPsdHeader) (payload : π) :
    (r.mapPayload f).collect header (f payload) =
      ((r.collect header payload).1.mapPayload f, (r.collect header payload).2.map (List.map f)) := by
  unfold collect
  simp only [dropOlderFrames_mapPayload, storeSegment_mapPayload]
  -- From here on the two runs make the same decisions: sizes and gaps are equal.
  generalize r.dropOlderFrames header.psdId header.frameSeq = r₁
  have hsegs : (mapBuffer f (r₁.storeSegment header payload)).segments =
      Dict.mapVal f (r₁.storeSegment header payload).segments := rfl
  rw [hsegs, Dict.size_mapVal, ordered_mapVal]
  split_ifs
  · simp [mapPayload]
  · cases ordered (r₁.storeSegment header payload).segments header.segmentCount with
    | none =>
        simp [mapPayload]
    | some segments =>
        simp [mapPayload]

end MapPayload

end PsdReassembler

/-! ## Segments of one epoch -/

/-- The segments of the frames of one device epoch as they reach the reassembler: eight for each
frame, numbered from `start`. -/
structure Epoch (π : Type v) where
  psdId : Int
  start : BitVec 32
  header : Nat → Nat → SdrPsdHeader
  payload : Nat → Nat → π
  psdId_eq : ∀ n i, (header n i).psdId = psdId
  frameSeq_eq : ∀ n i, (header n i).frameSeq = seqOf start n
  segmentIndex_eq : ∀ n i, (header n i).segmentIndex = i
  segmentCount_eq : ∀ n i, (header n i).segmentCount = 8

namespace Epoch

variable {π : Type v} (E : Epoch π)

def key (n : Nat) : FrameKey :=
  (E.psdId, seqOf E.start n)

/-- Segment `a.2` of frame `a.1` arrives. -/
def arrive (r : PsdReassembler π) (a : Nat × Nat) : PsdReassembler π × Option (List π) :=
  r.collect (E.header a.1 a.2) (E.payload a.1 a.2)

theorem key_header (n i : Nat) : ((E.header n i).psdId, (E.header n i).frameSeq) = E.key n := by
  rw [E.psdId_eq, E.frameSeq_eq]
  rfl

variable {E}

theorem stale_key_iff {n m i : Nat} (hm : m < n + 2 ^ 31) (hn : n < m + 2 ^ 31) :
    PsdReassembler.Stale (E.header m i).psdId (E.header m i).frameSeq (E.key n) ↔ n < m := by
  rw [E.psdId_eq, E.frameSeq_eq]
  simp only [PsdReassembler.Stale, key, true_and]
  exact seqLess_seqOf_iff hm hn

theorem key_inj {n m : Nat} (hm : m < n + 2 ^ 31) (hn : n < m + 2 ^ 31) (h : E.key n = E.key m) :
    n = m :=
  seqOf_inj hm hn (Prod.ext_iff.1 h).2

end Epoch

end Backend
end Sdr
