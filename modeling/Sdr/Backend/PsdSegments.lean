import Sdr.Backend.PsdLossy
import Sdr.Protocol.HeaderCodec

/-!
# PsdSegments — the segments that a frame is made of

Payloads are followed through the reassembler together with the headers they came with.  That changes
nothing for the code, which only stores payloads and hands them back (`receiveAll_eq_mapPayload`), and
it says which segments a frame that comes out is made of (`segmentsUsed`).
-/

namespace Sdr
namespace Backend

open Lib Lib.Struct Protocol
open PsdReassembler (Complete Spaced)

universe u v w

/-! ## Segments with their headers -/

/-- A header and the payload that came with it. -/
abbrev PsdSegment := SdrPsdHeader × List Byte

/-- What `_handle_psd` hands on of a datagram. -/
def readSegment (data : List Byte) : Option PsdSegment :=
  match handlePsd data with
  | .ok segment => segment
  | .error _ => none

theorem readSegment_eq_some {data : List Byte} {segment : PsdSegment} :
    readSegment data = some segment ↔ handlePsd data = .ok (some segment) := by
  unfold readSegment
  cases handlePsd data with
  | error e =>
      simp
  | ok handed =>
      simp

theorem readSegment_iff {data : List Byte} {segment : PsdSegment} :
    readSegment data = some segment ↔
      PSD_HEADER_SIZE ≤ data.length ∧
        SdrPsdHeader.unpack (data.take PSD_HEADER_SIZE) = .ok segment.1 ∧
        segment.2 = (data.drop PSD_HEADER_SIZE).take segment.1.payloadBytes.toNat := by
  rw [readSegment_eq_some, handlePsd]
  by_cases hshort : data.length < PSD_HEADER_SIZE
  · rw [if_pos hshort]
    simp [Nat.not_le.2 hshort]
  · rw [if_neg hshort]
    have hlong := Nat.not_lt.1 hshort
    cases hunpack : SdrPsdHeader.unpack (data.take PSD_HEADER_SIZE) with
    | error e =>
        simp
    | ok header =>
        constructor
        · intro h
          cases h
          exact ⟨hlong, rfl, rfl⟩
        · rintro ⟨_, hheader, hpayload⟩
          cases hheader
          simp only [← hpayload]

section Follow

variable {π : Type v} {ρ : Type w}

/-- `ingest` up to the joining, for what is handed on of a datagram. -/
def offer (r : PsdReassembler π) : Option (SdrPsdHeader × π) → PsdReassembler π × Option (List π)
  | none => (r, none)
  | some (header, payload) => r.collect header payload

/-- A datagram arrives, with `tag` of its segment in place of the payload. -/
def follow (tag : PsdSegment → π) (r : PsdReassembler π) (data : List Byte) :
    PsdReassembler π × Option (List π) :=
  offer r ((readSegment data).map (fun s => (s.1, tag s)))

def followAll (tag : PsdSegment → π) (ds : List (List Byte)) : PsdReassembler π :=
  runFrom (fun r d => (follow tag r d).1) {} ds

/-- The segments that a datagram completes a frame with, after `ds`. -/
def segmentsUsed (ds : List (List Byte)) (d : List Byte) : Option (List PsdSegment) :=
  (follow id (followAll id ds) d).2

theorem follow_mapPayload (tag : PsdSegment → π) (f : π → ρ) (r : PsdReassembler π)
    (data : List Byte) :
    follow (fun s => f (tag s)) (r.mapPayload f) data =
      ((follow tag r data).1.mapPayload f, (follow tag r data).2.map (List.map f)) := by
  unfold follow
  cases readSegment data with
  | none =>
      rfl
  | some segment =>
      exact PsdReassembler.collect_mapPayload f r segment.1 (tag segment)

theorem followAll_mapPayload (tag : PsdSegment → π) (f : π → ρ) (ds : List (List Byte)) :
    followAll (fun s => f (tag s)) ds = (followAll tag ds).mapPayload f := by
  change runFrom _ (PsdReassembler.mapPayload f ({} : PsdReassembler π)) ds =
    PsdReassembler.mapPayload f (runFrom _ {} ds)
  refine runFrom_simulates ?_ _ ds
  intro r d
  exact congrArg Prod.fst (follow_mapPayload tag f r d)

/-- The two datagrams look alike: same header, and the tags of their segments are the same. -/
def Alike (tag tag' : PsdSegment → π) (d d' : List Byte) : Prop :=
  (readSegment d).map (fun s => (s.1, tag s)) = (readSegment d').map (fun s => (s.1, tag' s))

theorem follow_of_alike {tag tag' : PsdSegment → π} {d d' : List Byte} (h : Alike tag tag' d d')
    (r : PsdReassembler π) : follow tag r d = follow tag' r d' :=
  congrArg (offer r) h

theorem followAll_of_alike {tag tag' : PsdSegment → π} {ds ds' : List (List Byte)}
    (h : List.Forall₂ (Alike tag tag') ds ds') : followAll tag ds = followAll tag' ds' := by
  unfold followAll
  generalize ({} : PsdReassembler π) = r
  induction h generalizing r with
  | nil =>
      rfl
  | cons hd _ ih =>
      rw [runFrom_cons, runFrom_cons, follow_of_alike hd]
      exact ih _

/-- Runs over datagrams that look alike use segments that look alike. -/
theorem segmentsUsed_of_alike {tag tag' : PsdSegment → π} {ds ds' : List (List Byte)}
    {d d' : List Byte} (hds : List.Forall₂ (Alike tag tag') ds ds') (hd : Alike tag tag' d d') :
    (segmentsUsed ds d).map (List.map tag) = (segmentsUsed ds' d').map (List.map tag') := by
  have hused (tag : PsdSegment → π) (ds : List (List Byte)) (d : List Byte) :
      (segmentsUsed ds d).map (List.map tag) = (follow tag (followAll tag ds) d).2 := by
    have hfollow := congrArg Prod.snd (follow_mapPayload id tag (followAll id ds) d)
    rw [← followAll_mapPayload id tag] at hfollow
    exact hfollow.symm
  rw [hused, hused, followAll_of_alike hds, follow_of_alike hd]

end Follow

section Receive

variable {F : Type u} [PyFloat F]

theorem receive_mapPayload (r : PsdReassembler PsdSegment) (data : List Byte) :
    (receive (F := F) (r.mapPayload Prod.snd) data).1 = (follow id r data).1.mapPayload Prod.snd := by
  have hfollow : (follow Prod.snd (r.mapPayload Prod.snd) data).1 =
      (follow id r data).1.mapPayload Prod.snd :=
    congrArg Prod.fst (follow_mapPayload id Prod.snd r data)
  rw [← hfollow, receive, follow, readSegment]
  cases handlePsd data with
  | error e =>
      rfl
  | ok segment =>
      cases segment with
      | none =>
          rfl
      | some segment =>
          simp only [PsdReassembler.ingest, Option.map_some, offer]
          split
          · rename_i hcollect
            rw [hcollect]
          · rename_i hcollect
            rw [hcollect]
            split <;> rfl

/-- Without the headers, the run is that of the code. -/
theorem receiveAll_eq_mapPayload (ds : List (List Byte)) :
    receiveAll F ds = (followAll id ds).mapPayload Prod.snd := by
  change runFrom _ (PsdReassembler.mapPayload Prod.snd ({} : PsdReassembler PsdSegment)) ds =
    PsdReassembler.mapPayload Prod.snd (runFrom _ {} ds)
  refine runFrom_simulates ?_ _ ds
  intro r d
  exact receive_mapPayload r d

theorem receive_snd (r : PsdReassembler PsdSegment) {data : List Byte} {segment : PsdSegment}
    (hread : readSegment data = some segment) :
    (receive (F := F) (r.mapPayload Prod.snd) data).2 =
      match (follow id r data).2 with
      | none => .ok none
      | some segments =>
          (buildFrame segment.1 (follow id r data).1.stats (segments.map Prod.snd)).map some := by
  have hcollect := PsdReassembler.collect_mapPayload Prod.snd r segment.1 segment
  rw [receive, readSegment_eq_some.1 hread]
  simp only [PsdReassembler.ingest, hcollect, follow, hread, Option.map_some, offer, id]
  cases (r.collect segment.1 segment).2 with
  | none =>
      rfl
  | some segments =>
      simp only [Option.map_some]
      split
      · rename_i herror
        exact congrArg (Except.map some) herror.symm
      · rename_i hok
        exact congrArg (Except.map some) hok.symm

theorem buildFrame_eq_ok {header : SdrPsdHeader} {stats : PsdStats} {segments : List (List Byte)}
    {frame : PsdFrame F} (h : buildFrame header stats segments = .ok frame) :
    Spaced header ∧ frame.totalBins = header.totalBins ∧
      frame.binsDbfs = clipBins (decodeBins segments.flatten) header.totalBins := by
  have hspaced : Spaced header := by
    by_contra hnot
    rw [buildFrame, PsdReassembler.frequencyBounds_error hnot] at h
    exact absurd h (by simp)
  rcases PsdReassembler.frequencyBounds_ok (F := F) hspaced with ⟨bounds, hbounds⟩
  rw [buildFrame, hbounds] at h
  cases h
  exact ⟨hspaced, rfl, rfl⟩

/-- The frame that comes out of the segments in use. -/
theorem frame_eq_joined {r : PsdReassembler PsdSegment} {data : List Byte} {frame : PsdFrame F}
    (h : (receive (r.mapPayload Prod.snd) data).2 = .ok (some frame)) :
    ∃ segment segments, readSegment data = some segment ∧ (follow id r data).2 = some segments ∧
      Spaced segment.1 ∧ frame.totalBins = segment.1.totalBins ∧
      frame.binsDbfs = clipBins (decodeBins (segments.map Prod.snd).flatten) segment.1.totalBins := by
  cases hread : readSegment data with
  | none =>
      -- Nothing is handed on, so nothing comes out.
      unfold receive at h
      split at h
      · rename_i hhandle
        rw [readSegment_eq_some.2 hhandle] at hread
        exact absurd hread (by simp)
      · exact absurd h (by simp)
  | some segment =>
      rw [receive_snd r hread] at h
      cases hused : (follow id r data).2 with
      | none =>
          rw [hused] at h
          exact absurd h (by simp)
      | some segments =>
          simp only [hused] at h
          cases hbuild : buildFrame (F := F) segment.1 (follow id r data).1.stats
              (segments.map Prod.snd) with
          | error e =>
              rw [hbuild] at h
              exact absurd h (by simp [Except.map])
          | ok frame' =>
              rw [hbuild] at h
              cases h
              exact ⟨segment, segments, rfl, rfl, buildFrame_eq_ok hbuild⟩

/-- A frame whose bins can be spaced does come out. -/
theorem exists_frame {r : PsdReassembler PsdSegment} {data : List Byte} {segment : PsdSegment}
    {segments : List PsdSegment} (hread : readSegment data = some segment)
    (hused : (follow id r data).2 = some segments) (hspaced : Spaced segment.1) :
    ∃ frame : PsdFrame F, (receive (r.mapPayload Prod.snd) data).2 = .ok (some frame) := by
  rcases PsdReassembler.frequencyBounds_ok (F := F) hspaced with ⟨bounds, hbounds⟩
  rw [receive_snd r hread, hused]
  simp only [buildFrame, hbounds]
  exact ⟨_, rfl⟩

end Receive

/-! ## What a header announces -/

/-- What holds of every segment that is handed on: it may be shorter than announced, never longer. -/
structure Announced (s : PsdSegment) : Prop where
  totalBins : 0 ≤ s.1.totalBins
  binStart : 0 ≤ s.1.binStart
  binCount : 0 ≤ s.1.binCount
  length : s.2.length ≤ 2 * s.1.binCount.toNat

/-- The fields of a header that `unpack` accepts are unsigned. -/
theorem counts_nonneg {data : List Byte} {header : SdrPsdHeader}
    (h : SdrPsdHeader.unpack data = .ok header) :
    0 ≤ header.totalBins ∧ 0 ≤ header.segmentCount ∧ 0 ≤ header.binStart ∧ 0 ≤ header.binCount := by
  obtain ⟨_, rfl, _⟩ := SdrPsdHeader.unpack_eq_ok.1 h
  have hfield (i : Nat) (hc : psdStruct[i]? = some .H) : 0 ≤ (Struct.unpack psdStruct data).getD i 0 := by
    rw [getD_unpack_unsigned psdStruct i .H _ hc rfl]
    exact Int.natCast_nonneg _
  exact ⟨hfield 10 rfl, hfield 12 rfl, hfield 13 rfl, hfield 14 rfl⟩

theorem announced_of_readSegment {d : List Byte} {s : PsdSegment} (h : readSegment d = some s) :
    Announced s := by
  rcases readSegment_iff.1 h with ⟨_, hunpack, hpayload⟩
  obtain ⟨htotalBins, _, hbinStart, hbinCount⟩ := counts_nonneg hunpack
  -- The header announces two bytes a bin.
  have hbytes : s.1.payloadBytes = s.1.binCount * 2 :=
    (validateFields_eq_ok.1 (SdrPsdHeader.unpack_eq_ok.1 hunpack).2.2).2.2.2.2.2
  refine ⟨htotalBins, hbinStart, hbinCount, ?_⟩
  rw [hpayload, List.length_take, hbytes]
  omega

/-! ## The segments in use -/

section Used

/-- When every index has a value, the values are found at their indices. -/
theorem getElem?_filterMap_range {α : Type v} {f : Nat → Option α} {n : Nat}
    (h : ∀ i < n, ∃ x, f i = some x) :
    ((List.range n).filterMap f).length = n ∧
      ∀ k < n, ((List.range n).filterMap f)[k]? = f k := by
  induction n with
  | zero =>
      simp
  | succ n ih =>
      obtain ⟨hlength, hget⟩ := ih (fun i hi => h i (by omega))
      obtain ⟨x, hx⟩ := h n (by omega)
      rw [List.range_succ, List.filterMap_append, List.filterMap_cons, hx, List.filterMap_nil]
      refine ⟨by simp [hlength], ?_⟩
      intro k hk
      by_cases hlast : k = n
      · rw [hlast, List.getElem?_append_right (by omega), hlength, Nat.sub_self, hx]
        rfl
      · rw [List.getElem?_append_left (by omega)]
        exact hget k (by omega)

variable {π : Type v} {P : Int → π → Prop}

/-- Everything that is stored at an index is `P` there. -/
def StoredAll (P : Int → π → Prop) (r : PsdReassembler π) : Prop :=
  ∀ key index payload, (r.stored key).lookup index = some payload → P index payload

theorem storedAll_received {r : PsdReassembler π} (h : StoredAll P r) {header : SdrPsdHeader}
    {payload : π} (hnew : P header.segmentIndex payload) {index : Int} {p : π}
    (hp : (r.received header payload).lookup index = some p) : P index p := by
  rw [PsdReassembler.received, Dict.lookup_insert] at hp
  split_ifs at hp with hindex
  · cases hp
    rw [hindex]
    exact hnew
  · exact h _ _ _ hp

theorem storedAll_collect {r : PsdReassembler π} (h : StoredAll P r) {header : SdrPsdHeader}
    {payload : π} (hnew : P header.segmentIndex payload) :
    StoredAll P (r.collect header payload).1 := by
  intro key index p hp
  rw [PsdReassembler.stored_collect] at hp
  split_ifs at hp
  · exact absurd hp (by simp)
  · exact storedAll_received h hnew hp
  · exact absurd hp (by simp)
  · exact h key index p hp

/-- The payloads of a frame stand in the order of their indices. -/
theorem collect_getElem? {r : PsdReassembler π} (h : StoredAll P r) {header : SdrPsdHeader}
    {payload : π} (hnew : P header.segmentIndex payload) {used : List π}
    (hused : (r.collect header payload).2 = some used) {k : Nat} {p : π} (hk : used[k]? = some p) :
    P k p := by
  by_cases hcomplete : Complete (r.received header payload) header.segmentCount
  · rw [PsdReassembler.collect_complete hcomplete] at hused
    cases hused
    obtain ⟨hlength, hget⟩ := getElem?_filterMap_range hcomplete
    have hlt : k < header.segmentCount.toNat := by
      rw [← hlength]
      exact (List.getElem?_eq_some_iff.1 hk).1
    rw [hget k hlt] at hk
    exact storedAll_received h hnew hk
  · rw [PsdReassembler.collect_incomplete hcomplete] at hused
    exact absurd hused (by simp)

/-- What is stored with its header is stored under its own index, and is no longer than announced. -/
def Stored (index : Int) (s : PsdSegment) : Prop :=
  s.1.segmentIndex = index ∧ Announced s

theorem stored_of_readSegment {d : List Byte} {s : PsdSegment} (h : readSegment d = some s) :
    Stored s.1.segmentIndex s :=
  ⟨rfl, announced_of_readSegment h⟩

theorem storedAll_followAll (ds : List (List Byte)) : StoredAll Stored (followAll id ds) := by
  refine runFrom_inductive ?_ ?_ ds
  · intro r d h
    simp only [follow]
    cases hread : readSegment d with
    | none =>
        exact h
    | some s =>
        exact storedAll_collect h (stored_of_readSegment hread)
  · intro key index payload h
    exact absurd h (by simp [PsdReassembler.stored])

/-- Segment `k` of the segments in use says that it is segment `k`. -/
theorem stored_of_segmentsUsed {ds : List (List Byte)} {d : List Byte} {segments : List PsdSegment}
    (hused : segmentsUsed ds d = some segments) {k : Nat} {s : PsdSegment}
    (hk : segments[k]? = some s) : Stored k s := by
  simp only [segmentsUsed, follow] at hused
  cases hread : readSegment d with
  | none =>
      rw [hread] at hused
      exact absurd hused (by simp [offer])
  | some segment =>
      rw [hread] at hused
      exact collect_getElem? (storedAll_followAll ds) (stored_of_readSegment hread) hused hk

end Used

end Backend
end Sdr
