import Sdr.Backend.PsdLossy

/-!
# PsdOrder — the order in which frames are returned

With segments of one epoch arriving in any order, lost and duplicated at will, `GoesForward` says that
the frames returned are ever newer and that none of them is dropped afterwards.  The reassembler
records the last number it returned but never compares with it, so a segment that comes late, after
its own frame or a newer one was returned, starts a buffer for that frame again.  Without late
segments (`Timely`) every buffer is newer than every frame that was returned, and the waterfall goes
forward.
-/

namespace Sdr
namespace Backend

open Lib Simulator

universe u

/-! ## What happens to frames -/

inductive PsdLog
  | dropped (key : FrameKey)
  | returned (key : FrameKey)
  deriving DecidableEq, Repr

/-- What the arrival of a segment does to frames, in the order it is done. -/
def Epoch.log {π : Type u} (E : Epoch π) (r : PsdReassembler π) (a : Nat × Nat) : List PsdLog :=
  (r.staleKeys (E.header a.1 a.2).psdId (E.header a.1 a.2).frameSeq).map .dropped ++
    (if (E.arrive r a).2.isSome then [.returned (E.key a.1)] else [])

/-- An arrival returns its own frame or none. -/
theorem Epoch.returned_mem_log {π : Type u} {E : Epoch π} {r : PsdReassembler π} {a : Nat × Nat}
    {key : FrameKey} :
    .returned key ∈ E.log r a ↔ (E.arrive r a).2.isSome = true ∧ key = E.key a.1 := by
  unfold Epoch.log
  split_ifs with hout <;> simp [hout]

/-- `x` may happen before `y`. -/
def PsdLog.Before : PsdLog → PsdLog → Prop
  | .returned k, .returned k' => k.1 = k'.1 → seqLess k.2 k'.2 = true
  | .returned k, .dropped k' => k ≠ k'
  | _, _ => True

instance : DecidableRel PsdLog.Before
  | .returned k, .returned k' =>
      inferInstanceAs (Decidable (k.1 = k'.1 → seqLess k.2 k'.2 = true))
  | .returned k, .dropped k' => inferInstanceAs (Decidable (k ≠ k'))
  | .dropped _, .dropped _ => isTrue trivial
  | .dropped _, .returned _ => isTrue trivial

/-- Frames of one `psd_id` are returned in increasing serial order, and none is dropped after it was
returned. -/
def GoesForward (log : List PsdLog) : Prop :=
  log.Pairwise PsdLog.Before

/-- All segments of frame `m` have arrived without one of a newer frame between them. -/
def Completed (as : List (Nat × Nat)) (m : Nat) : Prop :=
  ∃ w, w <:+: as ∧ (∀ i < 8, (m, i) ∈ w) ∧ ∀ b ∈ w, b.1 ≤ m

/-- No segment of a frame arrives once that frame, or a newer one, is complete. -/
def Timely (as : List (Nat × Nat)) : Prop :=
  ∀ pre a post, as = pre ++ a :: post → ∀ m, Completed pre m → m < a.1

/-! ## The run invariant -/

section Ahead

variable {π : Type u} {E : Epoch π} {as : List (Nat × Nat)} {a : Nat × Nat} {r : PsdReassembler π}
  {log : List PsdLog}

/-- What is buffered arrived after the last segment of a newer frame. -/
def Recent (as : List (Nat × Nat)) (n : Nat) (segments : Dict Int π) : Prop :=
  ∃ w, w <:+ as ∧ (∀ b ∈ w, b.1 ≤ n) ∧
    ∀ i : Nat, ∀ x, segments.lookup (i : Int) = some x → (n, i) ∈ w

/-- Every buffer is ahead of every frame that was returned. -/
structure Ahead (E : Epoch π) (as : List (Nat × Nat)) (r : PsdReassembler π) (log : List PsdLog) :
    Prop where
  buffers : ∀ key frame, r.frames.lookup key = some frame →
    ∃ n, key = E.key n ∧ n < 2 ^ 31 ∧ Recent as n frame.segments ∧
      ∀ m, .returned (E.key m) ∈ log → m < 2 ^ 31 → m < n
  returned : ∀ key, .returned key ∈ log → ∃ m, key = E.key m ∧ m < 2 ^ 31 ∧ Completed as m
  forward : GoesForward log

theorem ahead_init (E : Epoch π) : Ahead E [] {} [] :=
  ⟨fun _ _ h => absurd h (by simp), fun _ h => absurd h (by simp), List.Pairwise.nil⟩

theorem Completed.snoc {m : Nat} (h : Completed as m) : Completed (as ++ [a]) m := by
  rcases h with ⟨w, hw, hall, hle⟩
  exact ⟨w, hw.trans (List.prefix_append as [a]).isInfix, hall, hle⟩

/-- A segment of a frame no newer than the buffer's leaves it recent. -/
theorem Recent.snoc {n : Nat} {segments : Dict Int π} (h : Recent as n segments) (ha : a.1 ≤ n) :
    Recent (as ++ [a]) n segments := by
  rcases h with ⟨w, hw, hle, hmem⟩
  refine ⟨w ++ [a], ?_, ?_, ?_⟩
  · rcases hw with ⟨front, rfl⟩
    exact ⟨front, by simp⟩
  · intro b hb
    rcases List.mem_append.1 hb with hb | hb
    · exact hle b hb
    · rw [List.mem_singleton.1 hb]
      exact ha
  · intro i x hx
    exact List.mem_append.2 (Or.inl (hmem i x hx))

/-- A frame returned before a timely segment is older than the segment's. -/
theorem returned_lt (h : Ahead E as r log) (htimely : ∀ m, Completed as m → m < a.1) {m : Nat}
    (hm : m < 2 ^ 31) (hlog : .returned (E.key m) ∈ log) : m < a.1 := by
  rcases h.returned _ hlog with ⟨m', hkey, hm', hcompleted⟩
  have heq : m = m' := Epoch.key_inj (by omega) (by omega) hkey
  rw [heq]
  exact htimely m' hcompleted

section Arrive

variable (h : Ahead E as r log) (ha : a.1 < 2 ^ 31)

include h ha

theorem recent_stored : Recent as a.1 (r.stored (E.key a.1)) := by
  unfold PsdReassembler.stored
  cases hlookup : r.frames.lookup (E.key a.1) with
  | none =>
      -- A fresh buffer holds nothing, so the empty window will do.
      refine ⟨[], List.nil_suffix, by simp, ?_⟩
      intro i x hx
      exact absurd hx (by simp)
  | some frame =>
      rcases h.buffers _ frame hlookup with ⟨n, hkey, hn, hrecent, _⟩
      have heq : a.1 = n := Epoch.key_inj (by omega) (by omega) hkey
      rw [heq]
      exact hrecent

theorem recent_received :
    Recent (as ++ [a]) a.1 (r.received (E.header a.1 a.2) (E.payload a.1 a.2)) := by
  rcases recent_stored h ha with ⟨w, hw, hle, hmem⟩
  refine ⟨w ++ [a], ?_, ?_, ?_⟩
  · rcases hw with ⟨front, rfl⟩
    exact ⟨front, by simp⟩
  · intro b hb
    rcases List.mem_append.1 hb with hb | hb
    · exact hle b hb
    · rw [List.mem_singleton.1 hb]
  · intro i x hx
    rw [PsdReassembler.received, E.key_header, E.segmentIndex_eq, Dict.lookup_insert] at hx
    by_cases hi : (i : Int) = a.2
    · have heq : i = a.2 := by exact_mod_cast hi
      rw [heq]
      simp
    · rw [if_neg hi] at hx
      exact List.mem_append.2 (Or.inl (hmem i x hx))

/-- A frame that is returned has just become complete. -/
theorem completed_of_returned (hout : (E.arrive r a).2.isSome = true) : Completed (as ++ [a]) a.1 := by
  have hall : PsdReassembler.Complete (r.received (E.header a.1 a.2) (E.payload a.1 a.2)) 8 := by
    by_contra hopen
    rw [← E.segmentCount_eq a.1 a.2] at hopen
    rw [Epoch.arrive, PsdReassembler.collect_incomplete hopen] at hout
    exact absurd hout (by simp)
  rcases recent_received h ha with ⟨w, hw, hle, hmem⟩
  refine ⟨w, hw.isInfix, ?_, hle⟩
  intro i hi
  rcases hall i hi with ⟨x, hx⟩
  exact hmem i x hx

theorem forward_arrive (htimely : ∀ m, Completed as m → m < a.1) :
    GoesForward (log ++ E.log r a) := by
  refine List.pairwise_append.2 ⟨h.forward, ?_, ?_⟩
  · -- Within one arrival the drops come first, and nothing is forbidden after a drop.
    unfold Epoch.log
    refine List.pairwise_append.2 ⟨?_, ?_, ?_⟩
    · rw [List.pairwise_map]
      exact List.pairwise_of_forall (fun _ _ => trivial)
    · split_ifs
      · exact List.pairwise_singleton _ _
      · exact List.Pairwise.nil
    · intro x hx y _
      rcases List.mem_map.1 hx with ⟨key, _, rfl⟩
      cases y <;> trivial
  · intro x hx y hy
    cases x with
    | dropped key =>
        cases y <;> trivial
    | returned key =>
        rcases h.returned key hx with ⟨m, rfl, hm, hcompleted⟩
        have hlt := htimely m hcompleted
        rcases List.mem_append.1 hy with hy | hy
        · -- A dropped buffer is ahead of what was returned.
          rcases List.mem_map.1 hy with ⟨key, hkey, rfl⟩
          rcases Dict.mem_iff_lookup.1 (PsdReassembler.mem_staleKeys.1 hkey).1 with ⟨frame, hframe⟩
          rcases h.buffers key frame hframe with ⟨n, rfl, hn, _, hahead⟩
          have hmn := hahead m hx hm
          intro heq
          have := Epoch.key_inj (by omega) (by omega) heq
          omega
        · split_ifs at hy
          · -- Within half the number space the serial order is the order of the frames.
            rw [List.mem_singleton.1 hy]
            intro _
            exact (seqLess_seqOf_iff (by omega) (by omega)).2 hlt
          · exact absurd hy (by simp)

/-- A timely segment keeps every buffer ahead. -/
theorem ahead_arrive (htimely : ∀ m, Completed as m → m < a.1) :
    Ahead E (as ++ [a]) (E.arrive r a).1 (log ++ E.log r a) := by
  refine ⟨?_, ?_, forward_arrive h ha htimely⟩
  · intro key frame hframe
    rw [Epoch.arrive, PsdReassembler.lookup_collect, E.key_header] at hframe
    split_ifs at hframe with hkey hout hstale
    · -- The frame of the segment itself is stored.
      refine ⟨a.1, hkey, ha, ?_, ?_⟩
      · simp only [Option.some.injEq] at hframe
        rw [← hframe, PsdReassembler.storeSegment_segments]
        exact recent_received h ha
      · intro m hm hlt
        rcases List.mem_append.1 hm with hm | hm
        · exact returned_lt h htimely hlt hm
        · exact absurd (Epoch.returned_mem_log.1 hm).1 hout
    · -- Any other buffer survived the purge, so the segment is of no newer frame.
      rcases h.buffers key frame hframe with ⟨n, rfl, hn, hrecent, hahead⟩
      have hle : a.1 ≤ n := by
        by_contra hlt
        exact hstale ((Epoch.stale_key_iff (by omega) (by omega)).2 (by omega))
      refine ⟨n, rfl, hn, hrecent.snoc hle, ?_⟩
      intro m hm hlt
      rcases List.mem_append.1 hm with hm | hm
      · exact hahead m hm hlt
      · -- The frame returned now is the segment's own, and `n` is another one, not older.
        have heq : m = a.1 := Epoch.key_inj (by omega) (by omega) (Epoch.returned_mem_log.1 hm).2
        have hne : n ≠ a.1 := fun hna => hkey (by rw [hna])
        omega
  · intro key hkey
    rcases List.mem_append.1 hkey with hkey | hkey
    · rcases h.returned key hkey with ⟨m, rfl, hm, hcompleted⟩
      exact ⟨m, rfl, hm, hcompleted.snoc⟩
    · rcases Epoch.returned_mem_log.1 hkey with ⟨hout, heq⟩
      exact ⟨a.1, heq, ha, completed_of_returned h ha hout⟩

end Arrive

end Ahead

/-! ## Runs -/

/-- In-order delivery without duplicates is timely. -/
theorem timely_of_delivers {k : Nat} {as : List (Nat × Nat)} (h : Delivers k as) : Timely as := by
  intro pre a post hsplit m hm
  rw [hsplit, List.append_cons] at h
  have hd : Delivers k (pre ++ [a]) := h.of_append
  rcases hm with ⟨w, hw, hall, _⟩
  by_contra hge
  have hlast := hd.le_new (m, a.2) (hw.subset (hall a.2 (hd.sent a (by simp)).2))
  have heq : m = a.1 := by
    simp only at hlast
    omega
  -- So the segment itself is one of the eight that had arrived before.
  apply hd.new
  have hmem := hw.subset (hall a.2 (hd.sent a (by simp)).2)
  rwa [heq] at hmem

/-- With segments of one epoch lost, reordered and duplicated at will, but none of them late, the
waterfall goes forward. -/
theorem goesForward_of_timely {π : Type u} (E : Epoch π) (as : List (Nat × Nat))
    (hspan : ∀ a ∈ as, a.1 < 2 ^ 31) (htimely : Timely as) :
    GoesForward (emits (fun r a => (E.arrive r a).1) E.log {} as) := by
  have hahead : ∀ as, (∀ a ∈ as, a.1 < 2 ^ 31) → Timely as →
      Ahead E as (runFrom (fun r a => (E.arrive r a).1) {} as)
        (emits (fun r a => (E.arrive r a).1) E.log {} as) := by
    -- The invariant speaks of everything that has arrived, so the run grows at its end.
    intro as
    induction as using List.reverseRecOn with
    | nil =>
        intro _ _
        exact ahead_init E
    | append_singleton as a ih =>
        intro hspan htimely
        have hbefore : Timely as := by
          intro pre b post hsplit
          exact htimely pre b (post ++ [a]) (by simp [hsplit])
        have hprev := ih (fun b hb => hspan b (by simp [hb])) hbefore
        rw [runFrom_snoc, emits_snoc]
        exact ahead_arrive hprev (hspan a (by simp)) (htimely as a [] rfl)
  exact (hahead as hspan htimely).forward

/-- The frames of a fake device in its default configuration. -/
def defaultEpoch : Epoch (List Lib.Struct.Byte) :=
  sentEpoch (fun _ _ _ _ => 0) {} (fun _ _ => 0) rfl

/-- All segments of a frame, last one first. -/
def wholeFrame (n : Nat) : List (Nat × Nat) :=
  (List.range 8).reverse.map (fun i => (n, i))

theorem goesForward_twoFrames :
    (emits (fun r a => (defaultEpoch.arrive r a).1) defaultEpoch.log {}
        (wholeFrame 0 ++ wholeFrame 1) = [.returned (0, 0), .returned (0, 1)]) ∧
      GoesForward (emits (fun r a => (defaultEpoch.arrive r a).1) defaultEpoch.log {}
        (wholeFrame 0 ++ wholeFrame 1)) := by
  refine ⟨by decide, goesForward_of_timely defaultEpoch _ (by decide) ?_⟩
  exact timely_of_delivers (k := 2) ⟨by decide, by decide, by decide, by decide⟩

/-- A frame whose segments all arrive twice is returned twice. -/
theorem not_goesForward_duplicates :
    ¬∀ (E : Epoch (List Lib.Struct.Byte)) (as : List (Nat × Nat)), (∀ a ∈ as, a.1 < 2 ^ 31 ∧ a.2 < 8) →
      GoesForward (emits (fun r a => (E.arrive r a).1) E.log {} as) := by
  intro hall
  have hlog : emits (fun r a => (defaultEpoch.arrive r a).1) defaultEpoch.log {}
      (wholeFrame 0 ++ wholeFrame 0) = [.returned (0, 0), .returned (0, 0)] := by decide
  have hforward := hall defaultEpoch (wholeFrame 0 ++ wholeFrame 0) (by decide)
  rw [hlog] at hforward
  exact absurd hforward (by unfold GoesForward; decide)

end Backend
end Sdr
