import Sdr.Backend.PsdLossy

/-!
# PsdEpochs — frames across changes of the PSD range

Each accepted `set_psd` restarts the device's frame numbers at zero, while the backend resets its
reassembler only when the PSD is switched off (`BackendRuntime.set_psd` and `stop_all`).  A partial
frame left over from one epoch can therefore meet a frame of a later epoch under the same number.

`Waterfall` joins the fake device, a network that loses segments, and the reassembler.  Payloads carry
the number of the transmission, one `_send_psd_frame` call, that they were sent by; the reassembler
treats payloads as opaque, so forgetting the mark gives the run of the code (`forget_run`).
-/

namespace Sdr
namespace Backend

open Lib Lib.Struct Protocol Simulator

universe u

/-! ## Device, network and reassembler -/

/-- The segments of a frame that arrive, in the order they arrive; the others are lost. -/
structure Arrived where
  order : List Nat
  nodup : order.Nodup
  lt : ∀ i ∈ order, i < 8

inductive WaterfallEvent
  /-- `set_psd` with `enable`. -/
  | setPsd (config : PsdConfig)
  /-- `set_psd` without `enable`, or `stop_all`. -/
  | stop
  /-- One turn of `_psd_loop`. -/
  | frame (clock : Nat → Int) (arrived : Arrived)

structure Waterfall (π : Type u) where
  sender : PsdSender := {}
  enabled : Bool := false
  transmissions : Nat := 0
  reassembler : PsdReassembler π := {}
  emitted : List (List π) := []

namespace Waterfall

section Step

variable {π : Type u} (level : Int → Int → Int → Nat → Int) (tag : Nat → List Byte → π)

/-- A datagram of a transmission reaches the reassembler. -/
def arrive (transmission : Nat) (r : PsdReassembler π) (data : List Byte) :
    PsdReassembler π × Option (List π) :=
  match handlePsd data with
  | .ok (some (header, payload)) => r.collect header (tag transmission payload)
  | _ => (r, none)

def step (w : Waterfall π) : WaterfallEvent → Waterfall π
  | .setPsd config =>
      match w.sender.setPsd config with
      | .error _ => w
      | .ok sender => { w with sender := sender, enabled := true }
  | .stop => { w with enabled := false, reassembler := w.reassembler.reset }
  | .frame clock arrived =>
      if w.enabled then
        match w.sender.sendPsdFrame level clock with
        | .error _ => w
        | .ok (datagrams, sender) =>
            { w with
              sender := sender
              transmissions := w.transmissions + 1
              reassembler :=
                runFrom (fun r i => (arrive tag w.transmissions r (datagrams.getD i [])).1)
                  w.reassembler arrived.order
              emitted := w.emitted ++
                emits (fun r i => (arrive tag w.transmissions r (datagrams.getD i [])).1)
                  (fun r i => (arrive tag w.transmissions r (datagrams.getD i [])).2.toList)
                  w.reassembler arrived.order }
      else
        w

end Step

/-! ## Forgetting the marks -/

section Forget

variable {π : Type u} {ρ : Type u} (f : π → ρ)

def mapPayload (w : Waterfall π) : Waterfall ρ where
  sender := w.sender
  enabled := w.enabled
  transmissions := w.transmissions
  reassembler := w.reassembler.mapPayload f
  emitted := w.emitted.map (List.map f)

variable {f} (tag : Nat → List Byte → π) (tag' : Nat → List Byte → ρ)

theorem arrive_mapPayload (hf : ∀ n data, f (tag n data) = tag' n data) (n : Nat)
    (r : PsdReassembler π) (data : List Byte) :
    arrive tag' n (r.mapPayload f) data =
      ((arrive tag n r data).1.mapPayload f, (arrive tag n r data).2.map (List.map f)) := by
  unfold arrive
  cases handlePsd data with
  | error e =>
      rfl
  | ok segment =>
      cases segment with
      | none =>
          rfl
      | some segment =>
          -- The header is read from the bytes, so the mark changes nothing but what is stored.
          rcases segment with ⟨header, payload⟩
          simp only
          rw [← hf, PsdReassembler.collect_mapPayload]

theorem step_mapPayload (level : Int → Int → Int → Nat → Int)
    (hf : ∀ n data, f (tag n data) = tag' n data) (w : Waterfall π) (e : WaterfallEvent) :
    (w.mapPayload f).step level tag' e = (w.step level tag e).mapPayload f := by
  cases e with
  | setPsd config =>
      simp only [step, mapPayload]
      cases w.sender.setPsd config with
      | error e =>
          rfl
      | ok sender =>
          rfl
  | stop =>
      rfl
  | frame clock arrived =>
      cases hen : w.enabled with
      | false =>
          simp [step, mapPayload, hen]
      | true =>
          cases hsend : w.sender.sendPsdFrame level clock with
          | error e =>
              simp [step, mapPayload, hen, hsend]
          | ok sent =>
              -- One segment commutes with forgetting, in the state and in the output; the run follows.
              have hstep : ∀ r i,
                  (arrive tag' w.transmissions (r.mapPayload f) (sent.1.getD i [])).1 =
                    (arrive tag w.transmissions r (sent.1.getD i [])).1.mapPayload f := by
                intro r i
                rw [arrive_mapPayload tag tag' hf]
              have hout : ∀ r i,
                  (arrive tag' w.transmissions (r.mapPayload f) (sent.1.getD i [])).2.toList =
                    (arrive tag w.transmissions r (sent.1.getD i [])).2.toList.map (List.map f) := by
                intro r i
                rw [arrive_mapPayload tag tag' hf]
                cases (arrive tag w.transmissions r (sent.1.getD i [])).2 with
                | none =>
                    rfl
                | some segments =>
                    rfl
              simp only [step, mapPayload, hen, hsend, if_true, List.map_append]
              rw [runFrom_simulates hstep, emits_simulates hstep hout]

/-- The run of the code on plain payloads is the marked run with the marks forgotten. -/
theorem forget_run (level : Int → Int → Int → Nat → Int) (es : List WaterfallEvent) :
    runFrom (step level (fun _ data => data)) ({} : Waterfall (List Byte)) es =
      (runFrom (step level Prod.mk) {} es).mapPayload Prod.snd := by
  have hinit : ({} : Waterfall (Nat × List Byte)).mapPayload Prod.snd = {} := rfl
  have hrun := runFrom_simulates (g := mapPayload Prod.snd)
    (step_mapPayload Prod.mk (fun _ data => data) level (fun _ _ => rfl)) {} es
  rw [hinit] at hrun
  exact hrun

end Forget

end Waterfall

/-! ## The segments of one frame -/

/-- The first prefix at which a property of prefixes appears. -/
theorem exists_first_prefix {α : Type u} {P : List α → Prop} (h0 : ¬P []) {l : List α} (hl : P l) :
    ∃ before m after, l = before ++ m :: after ∧ ¬P before ∧ P (before ++ [m]) := by
  induction l using List.reverseRecOn with
  | nil =>
      exact absurd hl h0
  | append_singleton l m ih =>
      by_cases h : P l
      · rcases ih h with ⟨before, m', after, rfl, hbefore, hafter⟩
        exact ⟨before, m', after ++ [m], by simp, hbefore, hafter⟩
      · exact ⟨l, m, [], rfl, h, hl⟩

/-- The headers of the segments of one frame. -/
structure FrameHeaders (key : FrameKey) (H : Nat → SdrPsdHeader) : Prop where
  key_eq : ∀ i, ((H i).psdId, (H i).frameSeq) = key
  segmentIndex_eq : ∀ i, (H i).segmentIndex = i
  segmentCount_eq : ∀ i, (H i).segmentCount = 8

section OneFrame

variable {π : Type u} {key : FrameKey} {H : Nat → SdrPsdHeader} {S : Nat → π}
  {r : PsdReassembler π}

/-- The reassembler after segment `i`. -/
def storeNth (H : Nat → SdrPsdHeader) (S : Nat → π) (r : PsdReassembler π) (i : Nat) :
    PsdReassembler π :=
  (r.collect (H i) (S i)).1

/-- The frame that segment `i` completes. -/
def emitNth (H : Nat → SdrPsdHeader) (S : Nat → π) (r : PsdReassembler π) (i : Nat) :
    List (List π) :=
  (r.collect (H i) (S i)).2.toList

theorem received_frameHeaders (hH : FrameHeaders key H) (r : PsdReassembler π) (i : Nat) :
    r.received (H i) (S i) = (r.stored key).insert (i : Int) (S i) := by
  rw [PsdReassembler.received, hH.key_eq, hH.segmentIndex_eq]

/-- Segments that leave one of the eight missing are stored. -/
theorem store_incomplete (hH : FrameHeaders key H) {order : List Nat} {j : Nat} (hj : j < 8)
    (hmissing : (r.stored key).lookup (j : Int) = none) (hjorder : j ∉ order) :
    emits (storeNth H S) (emitNth H S) r order = [] ∧
      ∀ i : Nat, ((runFrom (storeNth H S) r order).stored key).lookup (i : Int) =
        if i ∈ order then some (S i) else (r.stored key).lookup (i : Int) := by
  induction order generalizing r with
  | nil =>
      simp
  | cons m order ih =>
      rw [List.mem_cons, not_or] at hjorder
      have hlookup : ∀ i : Nat, ((r.received (H m) (S m)).lookup (i : Int)) =
          if i = m then some (S m) else (r.stored key).lookup (i : Int) := by
        intro i
        rw [received_frameHeaders hH, Dict.lookup_insert]
        simp only [Nat.cast_inj]
      -- Segment `j` is still missing, so storing `m` completes nothing.
      have hopen : ¬PsdReassembler.Complete (r.received (H m) (S m)) (H m).segmentCount := by
        rw [hH.segmentCount_eq]
        intro hall
        rcases hall j hj with ⟨payload, hpayload⟩
        rw [hlookup, if_neg hjorder.1, hmissing] at hpayload
        exact absurd hpayload (by simp)
      have hnone : (r.collect (H m) (S m)).2 = none := by
        rw [PsdReassembler.collect_incomplete hopen]
      -- A segment's own frame is never stale, so its buffer only grows.
      have hstored : (storeNth H S r m).stored key = r.received (H m) (S m) := by
        rw [storeNth, PsdReassembler.stored_collect, if_pos (hH.key_eq m).symm, hnone]
        rfl
      have hnext : ((storeNth H S r m).stored key).lookup (j : Int) = none := by
        rw [hstored, hlookup, if_neg hjorder.1, hmissing]
      rcases ih hnext hjorder.2 with ⟨hemits, hrest⟩
      refine ⟨?_, ?_⟩
      · rw [emits_cons, hemits, emitNth, hnone]
        rfl
      · intro i
        rw [runFrom_cons, hrest i, hstored, hlookup]
        by_cases him : i = m
        · by_cases hio : i ∈ order
          · simp [hio]
          · simp [him]
        · simp [him]

/-- The segment that brings the eighth completes the frame and takes it out. -/
theorem store_complete (hH : FrameHeaders key H) {m : Nat}
    (hall : ∀ i < 8, i = m ∨ ∃ payload, (r.stored key).lookup (i : Int) = some payload) :
    emitNth H S r m =
        [(List.range 8).filterMap (fun i : Nat =>
          ((r.stored key).insert (m : Int) (S m)).lookup (i : Int))] ∧
      (storeNth H S r m).stored key = ∅ := by
  have hdone : PsdReassembler.Complete (r.received (H m) (S m)) (H m).segmentCount := by
    rw [hH.segmentCount_eq, received_frameHeaders hH]
    intro i hi
    rw [Dict.lookup_insert]
    -- Either the new segment or one that was there before.
    rcases hall i hi with rfl | hsome
    · exact ⟨S i, if_pos rfl⟩
    · split_ifs
      · exact ⟨S m, rfl⟩
      · exact hsome
  have hout := PsdReassembler.collect_complete hdone
  refine ⟨?_, ?_⟩
  · rw [emitNth, hout, hH.segmentCount_eq, received_frameHeaders hH]
    rfl
  · rw [storeNth, PsdReassembler.stored_collect, if_pos (hH.key_eq m).symm, hout]
    rfl

end OneFrame

/-! ## Where the segments of a frame come from -/

section Marked

variable {key : FrameKey} {H : Nat → SdrPsdHeader} {B : Nat → List Byte}
  {r : PsdReassembler (Nat × List Byte)} {n : Nat}

/-- All segments were sent by one transmission. -/
def OneTransmission (segments : List (Nat × List Byte)) : Prop :=
  ∃ transmission, ∀ x ∈ segments, x.1 = transmission

/-- What is stored already and the segments `D` make up the eight of a frame. -/
def Covers (stored : Dict Int (Nat × List Byte)) (D : List Nat) : Prop :=
  ∀ i : Nat, i < 8 → (∃ x, stored.lookup (i : Int) = some x) ∨ i ∈ D

theorem exists_missing_of_not_covers {stored : Dict Int (Nat × List Byte)} {D : List Nat}
    (h : ¬Covers stored D) : ∃ j : Nat, j < 8 ∧ stored.lookup (j : Int) = none ∧ j ∉ D := by
  unfold Covers at h
  push Not at h
  rcases h with ⟨j, hj, hnone, hjD⟩
  refine ⟨j, hj, ?_, hjD⟩
  cases hl : stored.lookup (j : Int) with
  | none =>
      rfl
  | some x =>
      exact absurd hl (hnone x)

theorem Covers.mono {stored : Dict Int (Nat × List Byte)} {D D' : List Nat} (h : Covers stored D)
    (hD : D ⊆ D') : Covers stored D' := by
  intro i hi
  rcases h i hi with hsome | hmem
  · exact Or.inl hsome
  · exact Or.inr (hD hmem)

/-- The segments of a frame are not completed by what was stored before them. -/
def OwnFrame (stored : Dict Int (Nat × List Byte)) (order : List Nat) : Prop :=
  ∀ D, D <+: order → Covers stored D → ∀ i < 8, i ∈ D

/-- Segments `D` of transmission `n` over leftovers of earlier ones: the frame is taken from one
transmission exactly when every one of its segments is new. -/
theorem oneTransmission_iff {stored : Dict Int (Nat × List Byte)} {D : List Nat} {m : Nat}
    (hold : ∀ (i : Nat) x, stored.lookup (i : Int) = some x → x.1 < n) (hm : m < 8) (hmD : m ∈ D)
    (hcover : Covers stored D) :
    OneTransmission ((List.range 8).filterMap (fun i : Nat =>
        if i ∈ D then some (n, B i) else stored.lookup (i : Int))) ↔
      ∀ i < 8, i ∈ D := by
  constructor
  · rintro ⟨transmission, hone⟩ i hi
    by_contra hiD
    -- Segment `i` is a leftover with an earlier mark, segment `m` is marked `n`.
    rcases (hcover i hi).resolve_right hiD with ⟨x, hx⟩
    have hxt : x.1 = transmission :=
      hone x (List.mem_filterMap.2 ⟨i, List.mem_range.2 hi, by rw [if_neg hiD, hx]⟩)
    have hnt : n = transmission :=
      hone (n, B m) (List.mem_filterMap.2 ⟨m, List.mem_range.2 hm, by rw [if_pos hmD]⟩)
    have hlt := hold i x hx
    omega
  · intro hD
    refine ⟨n, ?_⟩
    intro x hx
    rcases List.mem_filterMap.1 hx with ⟨i, hi, hlookup⟩
    rw [if_pos (hD i (List.mem_range.1 hi))] at hlookup
    cases hlookup
    rfl

/-- Whether leftovers complete a frame first is decided at the segment that completes it. -/
theorem ownFrame_iff_first {stored : Dict Int (Nat × List Byte)} {before after : List Nat} {m : Nat}
    (hbefore : ¬Covers stored before) (hfirst : Covers stored (before ++ [m])) :
    OwnFrame stored (before ++ m :: after) ↔ ∀ i < 8, i ∈ before ++ [m] := by
  have hpre : before ++ [m] <+: before ++ m :: after := ⟨after, by simp⟩
  constructor
  · intro hown
    exact hown (before ++ [m]) hpre hfirst
  · intro hwhole D hD hDcover
    rcases List.prefix_or_prefix_of_prefix hD hpre with hle | hle
    · -- A prefix that does not reach past `m` covers the frame only if it is all of `before ++ [m]`.
      rcases List.prefix_concat_iff.1 hle with heq | hle
      · rw [heq]
        exact hwhole
      · exact absurd (hDcover.mono hle.subset) hbefore
    · intro i hi
      exact hle.subset (hwhole i hi)

/-- Up to `m` the frame misses a segment, `m` completes it, and what follows starts a new buffer, to
which `m` itself never comes back. -/
theorem emits_first_cover (hH : FrameHeaders key H) {before after : List Nat} {m : Nat}
    (hm : m < 8) (hmafter : m ∉ after) (hbefore : ¬Covers (r.stored key) before)
    (hfirst : Covers (r.stored key) (before ++ [m])) :
    emits (storeNth H (fun i => (n, B i))) (emitNth H (fun i => (n, B i))) r
        (before ++ m :: after) =
      [(List.range 8).filterMap (fun i : Nat =>
        if i ∈ before ++ [m] then some (n, B i) else (r.stored key).lookup (i : Int))] := by
  rcases exists_missing_of_not_covers hbefore with ⟨j, hj, hjnone, hjbefore⟩
  rcases store_incomplete (S := fun i => (n, B i)) hH hj hjnone hjbefore with ⟨hemits, hstored⟩
  have hall : ∀ i < 8, i = m ∨
      ∃ x, ((runFrom (storeNth H (fun i => (n, B i))) r before).stored key).lookup (i : Int) =
        some x := by
    intro i hi
    rw [hstored i]
    by_cases hibefore : i ∈ before
    · exact Or.inr ⟨(n, B i), if_pos hibefore⟩
    · rw [if_neg hibefore]
      rcases hfirst i hi with hold | hmem
      · exact Or.inr hold
      · left
        simpa [hibefore] using hmem
  rcases store_complete (S := fun i => (n, B i)) hH hall with ⟨hemit, hempty⟩
  have hafter := store_incomplete (S := fun i => (n, B i)) hH hm (by rw [hempty]; rfl) hmafter
  have hlookup : ∀ i : Nat,
      (((runFrom (storeNth H (fun i => (n, B i))) r before).stored key).insert (m : Int)
        (n, B m)).lookup (i : Int) =
          if i ∈ before ++ [m] then some (n, B i) else (r.stored key).lookup (i : Int) := by
    intro i
    rw [Dict.lookup_insert, hstored i]
    by_cases him : i = m
    · simp [him]
    · simp [him]
  rw [emits_append, emits_cons, hemits, hemit, hafter.1]
  simp only [hlookup]
  rfl

/-- The frames that the segments of transmission `n` complete are its own exactly when leftovers do
not complete them first. -/
theorem emits_oneTransmission_iff (hH : FrameHeaders key H)
    (hold : ∀ (i : Nat) x, (r.stored key).lookup (i : Int) = some x → x.1 < n)
    (hopen : ¬PsdReassembler.Complete (r.stored key) 8) (arrived : Arrived) :
    (∀ g ∈ emits (storeNth H (fun i => (n, B i))) (emitNth H (fun i => (n, B i))) r arrived.order,
        OneTransmission g) ↔
      OwnFrame (r.stored key) arrived.order := by
  rcases arrived with ⟨order, hnodup, hlt⟩
  simp only
  by_cases hcover : Covers (r.stored key) order
  · have h0 : ¬Covers (r.stored key) [] := by
      intro hc
      apply hopen
      intro i hi
      simpa using hc i hi
    rcases exists_first_prefix h0 hcover with ⟨before, m, after, rfl, hbefore, hfirst⟩
    have hm : m < 8 := hlt m (by simp)
    have hmafter : m ∉ after := by
      -- A segment arrives once, so the frame cannot be completed a second time.
      have hcons := (List.nodup_append.1 hnodup).2.1
      exact (List.nodup_cons.1 hcons).1
    rw [emits_first_cover hH hm hmafter hbefore hfirst, ownFrame_iff_first hbefore hfirst]
    simp only [List.mem_singleton, forall_eq]
    exact oneTransmission_iff hold hm (by simp) hfirst
  · -- Nothing is completed, and no prefix of the segments covers the frame.
    rcases exists_missing_of_not_covers hcover with ⟨j, hj, hjnone, hjorder⟩
    rw [(store_incomplete hH hj hjnone hjorder).1]
    constructor
    · intro _ D hD hDcover
      exact absurd (hDcover.mono hD.subset) hcover
    · intro _ g hg
      exact absurd hg (by simp)

end Marked

/-! ## Runs -/

namespace Waterfall

variable {level : Int → Int → Int → Nat → Int} {w : Waterfall (Nat × List Byte)}

/-- The key of the frame that the device sends next. -/
def nextKey {π : Type u} (w : Waterfall π) : FrameKey :=
  (w.sender.config.psdId, w.sender.frameSeq.toNat)

/-- The event sends no frame, or one that what the reassembler still holds under the same key does
not complete before the frame's own segments do. -/
def Unmixed (level : Int → Int → Int → Nat → Int) (w : Waterfall (Nat × List Byte)) :
    WaterfallEvent → Prop
  | .frame clock arrived =>
      w.enabled = true → (∃ sent, w.sender.sendPsdFrame level clock = .ok sent) →
        OwnFrame (w.reassembler.stored w.nextKey) arrived.order
  | _ => True

/-- No frame that was returned mixes transmissions. -/
def AllOneTransmission (w : Waterfall (Nat × List Byte)) : Prop :=
  ∀ g ∈ w.emitted, OneTransmission g

/-- Marks are of past transmissions, and no stored frame is complete. -/
structure Stocked (n : Nat) (r : PsdReassembler (Nat × List Byte)) : Prop where
  marked : ∀ key (i : Int) x, (r.stored key).lookup i = some x → x.1 < n
  unfinished : ∀ key, ¬PsdReassembler.Complete (r.stored key) 8

structure Consistent (w : Waterfall (Nat × List Byte)) : Prop where
  bins : w.sender.config.outputBins = 4096
  stocked : Stocked w.transmissions w.reassembler

theorem not_complete_empty : ¬PsdReassembler.Complete (∅ : Dict Int (Nat × List Byte)) 8 := by
  intro h
  rcases h 0 (by decide) with ⟨x, hx⟩
  exact absurd hx (by simp)

theorem stocked_init (n : Nat) : Stocked n {} :=
  ⟨fun _ _ _ h => absurd h (by simp [PsdReassembler.stored]),
    fun _ => not_complete_empty⟩

theorem stocked_collect {n : Nat} {r : PsdReassembler (Nat × List Byte)} {header : SdrPsdHeader}
    {data : List Byte} (h : Stocked (n + 1) r) (hcount : header.segmentCount = 8) :
    Stocked (n + 1) (r.collect header (n, data)).1 := by
  refine ⟨?_, ?_⟩
  · intro key i x hx
    rw [PsdReassembler.stored_collect] at hx
    split_ifs at hx
    · exact absurd hx (by simp)
    · rw [PsdReassembler.received, Dict.lookup_insert] at hx
      split_ifs at hx
      · cases hx
        exact Nat.lt_succ_self n
      · exact h.marked _ i x hx
    · exact absurd hx (by simp)
    · exact h.marked key i x hx
  · intro key
    rw [PsdReassembler.stored_collect]
    split_ifs with hkey hsome hstale
    · exact not_complete_empty
    · -- A frame that became complete would have been taken out.
      intro hc
      rw [← hcount] at hc
      rw [PsdReassembler.collect_complete hc] at hsome
      exact hsome rfl
    · exact not_complete_empty
    · exact h.unfinished key

/-- The datagrams of a frame reach the reassembler as its segments. -/
theorem exists_frameHeaders (hbins : w.sender.config.outputBins = 4096) {clock : Nat → Int}
    {sent : List (List Byte) × PsdSender}
    (hsend : w.sender.sendPsdFrame level clock = .ok sent) :
    ∃ H, FrameHeaders w.nextKey H ∧ sent.2 = w.sender.next ∧
      ∀ i < 8, ∀ r : PsdReassembler (Nat × List Byte),
        arrive Prod.mk w.transmissions r (sent.1.getD i []) =
          r.collect (H i) (w.transmissions, w.sender.segmentPayload level i) := by
  have hcount : w.sender.segmentCount = 8 := by
    simp [PsdSender.segmentCount, hbins, BINS_PER_SEGMENT]
  unfold PsdSender.sendPsdFrame at hsend
  cases hpack : w.sender.packSegments level clock (List.range w.sender.segmentCount) with
  | error e =>
      simp [hpack] at hsend
  | ok datagrams =>
      simp only [hpack, Except.ok.injEq] at hsend
      have hall := PsdSender.packSegments_eq_ok hpack
      rw [hcount] at hall
      rw [← hsend]
      refine ⟨fun i => w.sender.segmentHeader level (clock i) i, ⟨fun _ => rfl, fun _ => rfl, ?_⟩, rfl,
        ?_⟩
      · intro i
        simp [PsdSender.segmentHeader, hcount]
      · intro i hi r
        simp only [arrive, handlePsd_getD hall hi]

/-- A frame event, in terms of the segments of the frame. -/
theorem step_frame (arrived : Arrived) (hbins : w.sender.config.outputBins = 4096)
    {clock : Nat → Int} (hen : w.enabled = true) {sent : List (List Byte) × PsdSender}
    (hsend : w.sender.sendPsdFrame level clock = .ok sent) :
    ∃ H, FrameHeaders w.nextKey H ∧
      w.step level Prod.mk (.frame clock arrived) =
        { w with
          sender := w.sender.next
          transmissions := w.transmissions + 1
          reassembler :=
            runFrom (storeNth H (fun i => (w.transmissions, w.sender.segmentPayload level i)))
              w.reassembler arrived.order
          emitted := w.emitted ++
            emits (storeNth H (fun i => (w.transmissions, w.sender.segmentPayload level i)))
              (emitNth H (fun i => (w.transmissions, w.sender.segmentPayload level i)))
              w.reassembler arrived.order } := by
  rcases exists_frameHeaders hbins hsend with ⟨H, hH, hnext, harrive⟩
  refine ⟨H, hH, ?_⟩
  have hstore : ∀ (r : PsdReassembler (Nat × List Byte)), ∀ i ∈ arrived.order,
      (arrive Prod.mk w.transmissions r (sent.1.getD i [])).1 =
        storeNth H (fun i => (w.transmissions, w.sender.segmentPayload level i)) r i := by
    intro r i hi
    rw [harrive i (arrived.lt i hi)]
    rfl
  have hemit : ∀ (r : PsdReassembler (Nat × List Byte)), ∀ i ∈ arrived.order,
      (arrive Prod.mk w.transmissions r (sent.1.getD i [])).2.toList =
        emitNth H (fun i => (w.transmissions, w.sender.segmentPayload level i)) r i := by
    intro r i hi
    rw [harrive i (arrived.lt i hi)]
    rfl
  simp only [step, hen, if_true, hsend]
  rw [runFrom_congr hstore, emits_congr hstore hemit, hnext]

theorem step_setPsd {π : Type u} (level : Int → Int → Int → Nat → Int) (tag : Nat → List Byte → π)
    (w : Waterfall π) {config : PsdConfig} (h : config.check = .ok ()) :
    w.step level tag (.setPsd config) =
      { w with sender := { config := config, frameSeq := 0, firstFrame := true }, enabled := true } := by
  simp only [step, PsdSender.setPsd, h]

theorem consistent_step (w : Waterfall (Nat × List Byte)) (e : WaterfallEvent) (h : w.Consistent) :
    (w.step level Prod.mk e).Consistent := by
  cases e with
  | setPsd config =>
      simp only [step, PsdSender.setPsd]
      cases hcheck : config.check with
      | error e =>
          exact h
      | ok u =>
          exact ⟨(PsdConfig.of_check hcheck).2, h.stocked⟩
  | stop =>
      exact ⟨h.bins, stocked_init _⟩
  | frame clock arrived =>
      cases hen : w.enabled with
      | false =>
          simpa [step, hen] using h
      | true =>
          cases hsend : w.sender.sendPsdFrame level clock with
          | error e =>
              simpa [step, hen, hsend] using h
          | ok sent =>
              rcases step_frame arrived h.bins hen hsend with ⟨H, hH, hstep⟩
              rw [hstep]
              -- Marks of the transmission under way count as past from its first segment on.
              have hstart : Stocked (w.transmissions + 1) w.reassembler :=
                ⟨fun key i x hx => Nat.lt_succ_of_lt (h.stocked.marked key i x hx),
                  h.stocked.unfinished⟩
              refine ⟨h.bins, ?_⟩
              refine runFrom_invariant (C := fun _ _ => True) ?_ hstart (along_of_forall (by simp))
              intro r i hr _
              exact stocked_collect hr (hH.segmentCount_eq i)

theorem allOneTransmission_step_iff (w : Waterfall (Nat × List Byte)) (e : WaterfallEvent)
    (h : w.Consistent) :
    (w.step level Prod.mk e).AllOneTransmission ↔ w.AllOneTransmission ∧ Unmixed level w e := by
  cases e with
  | setPsd config =>
      simp only [step, PsdSender.setPsd, Unmixed, and_true]
      cases config.check with
      | error e =>
          exact Iff.rfl
      | ok u =>
          exact Iff.rfl
  | stop =>
      simp only [Unmixed, and_true]
      exact Iff.rfl
  | frame clock arrived =>
      cases hen : w.enabled with
      | false =>
          simp [step, hen, Unmixed]
      | true =>
          cases hsend : w.sender.sendPsdFrame level clock with
          | error e =>
              simp [step, hen, hsend, Unmixed]
          | ok sent =>
              rcases step_frame arrived h.bins hen hsend with ⟨H, hH, hstep⟩
              have hown := emits_oneTransmission_iff (B := w.sender.segmentPayload level)
                (n := w.transmissions) hH (fun i x => h.stocked.marked w.nextKey i x)
                (h.stocked.unfinished w.nextKey) arrived
              -- The frames returned before are unaffected, so only those of this transmission are left.
              have hunmixed : Unmixed level w (.frame clock arrived) ↔
                  OwnFrame (w.reassembler.stored w.nextKey) arrived.order := by
                simp [Unmixed, hen, hsend]
              rw [hstep, hunmixed, ← hown]
              simp only [AllOneTransmission, List.mem_append, or_imp, forall_and]

/-- Over any run, no returned frame mixes transmissions exactly when leftovers never complete a frame
before its own segments do. -/
theorem allOneTransmission_iff_unmixed (level : Int → Int → Int → Nat → Int)
    (es : List WaterfallEvent) :
    (runFrom (step level Prod.mk) {} es).AllOneTransmission ↔
      Along (step level Prod.mk) (Unmixed level) {} es := by
  have hinit : ({} : Waterfall (Nat × List Byte)).Consistent := ⟨rfl, stocked_init 0⟩
  rw [runFrom_iff_along consistent_step allOneTransmission_step_iff hinit es]
  refine and_iff_right ?_
  intro g hg
  exact absurd hg (by simp)

/-- The second half of a frame arrives. -/
def secondHalf : Arrived :=
  ⟨[4, 5, 6, 7], by decide, by decide⟩

/-- The first half of a frame arrives. -/
def firstHalf : Arrived :=
  ⟨[0, 1, 2, 3], by decide, by decide⟩

/-- Half a frame of the full range arrives, the user zooms in, and the other half of the first frame
of the new range arrives. -/
def zoomInMidFrame : List WaterfallEvent :=
  [.setPsd {}, .frame (fun _ => 0) secondHalf, .setPsd { startFrequencyHz := 88000000 },
    .frame (fun _ => 100) firstHalf]

/-- The frame that is returned has segments of both ranges. -/
theorem not_allOneTransmission_zoomInMidFrame :
    ¬∀ (level : Int → Int → Int → Nat → Int) (es : List WaterfallEvent),
      (runFrom (step level Prod.mk) {} es).AllOneTransmission := by
  intro hall
  let level : Int → Int → Int → Nat → Int := fun _ _ _ _ => 0
  let zoomed : PsdConfig := { startFrequencyHz := 88000000 }
  let w₁ : Waterfall (Nat × List Byte) := { enabled := true }
  -- The state after the half frame stays a variable: only what it stores is looked at.
  rcases (⟨_, rfl⟩ : ∃ w₂, w₁.step level Prod.mk (.frame (fun _ => 0) secondHalf) = w₂) with
    ⟨w₂, hw₂⟩
  let w₃ : Waterfall (Nat × List Byte) := { w₂ with sender := { config := zoomed }, enabled := true }
  have hw₁ : step level Prod.mk ({} : Waterfall (Nat × List Byte)) (.setPsd {}) = w₁ :=
    step_setPsd level Prod.mk _ (by decide)
  have hw₃ : w₂.step level Prod.mk (.setPsd zoomed) = w₃ :=
    step_setPsd level Prod.mk w₂ (by decide)
  have hc₁ : w₁.Consistent := ⟨rfl, stocked_init 0⟩
  have hc₂ : w₂.Consistent := hw₂ ▸ consistent_step w₁ _ hc₁
  have hc₃ : w₃.Consistent := ⟨rfl, hc₂.stocked⟩
  -- The half frame of the full range is stored, and zooming in leaves it there.
  have hstored : ∀ i : Nat, 4 ≤ i → i < 8 →
      ∃ x, (w₃.reassembler.stored w₃.nextKey).lookup (i : Int) = some x := by
    rcases PsdSender.exists_sendPsdFrame (s := w₁.sender) level (fun _ => 0) (by decide) (by decide)
      (by decide) (fun _ => by decide) with ⟨datagrams, hsend⟩
    rcases step_frame secondHalf hc₁.bins rfl hsend with ⟨H, hH, hstep⟩
    have hkept : w₃.reassembler.stored w₃.nextKey =
        (runFrom (storeNth H (fun i => (w₁.transmissions, w₁.sender.segmentPayload level i)))
          w₁.reassembler secondHalf.order).stored w₁.nextKey := by
      rw [hw₂] at hstep
      exact congrArg (fun w : Waterfall (Nat × List Byte) => w.reassembler.stored w₁.nextKey) hstep
    intro i hlow hhigh
    have hmem : i ∈ secondHalf.order := by
      simp only [secondHalf, List.mem_cons, List.not_mem_nil, or_false]
      omega
    rw [hkept, (store_incomplete hH (j := 0) (by decide) rfl (by decide)).2 i, if_pos hmem]
    exact ⟨_, rfl⟩
  -- Its first half completes the frame, of which segment 7 is of the old range.
  have hmixed : ¬Unmixed level w₃ (.frame (fun _ => 100) firstHalf) := by
    intro hunmixed
    have hsend := PsdSender.exists_sendPsdFrame (s := { config := zoomed }) level (fun _ => 100)
      (by decide) (by decide) (by decide) (fun _ => by decide)
    rcases hsend with ⟨datagrams, hsend⟩
    have hown := hunmixed rfl ⟨_, hsend⟩ [0, 1, 2, 3] (List.prefix_refl _) (by
      intro i hi
      by_cases hlow : i < 4
      · right
        simp only [List.mem_cons, List.not_mem_nil, or_false]
        omega
      · left
        exact hstored i (by omega) hi)
    exact absurd (hown 7 (by decide)) (by decide)
  have hrun := hall level zoomInMidFrame
  rw [zoomInMidFrame, runFrom_cons, runFrom_cons, runFrom_cons, runFrom_cons, runFrom_nil, hw₁, hw₂,
    hw₃] at hrun
  exact hmixed ((allOneTransmission_step_iff w₃ _ hc₃).1 hrun).2

end Waterfall

end Backend
end Sdr
