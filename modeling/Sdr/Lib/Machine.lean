import Mathlib.Data.List.Basic
import Mathlib.Data.List.Induction

/-!
# Machine — runs of a step function

A clocked circuit, a packet receiver and a command handler are the same kind of object: a state and
a step function that consumes one event.  This module fixes the vocabulary for their *runs*:

* `runFrom step s es` — the state after the events `es`;
* `emits step out s es` — everything emitted on the way, in order;
* `Along step C s es` — every step of the run is taken from a state and by an event that meet `C`;
* `stateAt step s es n` — the state in which event `n` of the run finds the machine.

The rules below are the inductions over runs that this development shares: `runFrom_invariant` and
`runFrom_inductive` for a property of the state alone, `history_invariant` for a property that
relates the state to the events consumed so far, `runFrom_iff_along` and `forall_prefix_iff_along`
for a property that is lost exactly by the steps that miss a condition, and `emits_conserve` for what
a holding register neither drops nor invents.  `runFrom_view` and `emits_view` are for a machine that
shows another one, which sees only some of its events.  For a step that can fail, a run is
`List.foldlM`; `foldlM_related` and `foldlM_flatten` are its rules.
-/

namespace Sdr
namespace Lib

universe u v w

variable {σ : Type u} {ε : Type v} {α : Type w}

/-! ## Runs -/

/-- The state after the events, consumed from the left. -/
def runFrom (step : σ → ε → σ) : σ → List ε → σ
  | s, [] => s
  | s, e :: es => runFrom step (step s e) es

/-- What a run emits: `out s e` is what the step from `s` by `e` emits. -/
def emits (step : σ → ε → σ) (out : σ → ε → List α) : σ → List ε → List α
  | _, [] => []
  | s, e :: es => out s e ++ emits step out (step s e) es

/-- Every step of the run meets `C`, a condition on the state before the step and on its event. -/
def Along (step : σ → ε → σ) (C : σ → ε → Prop) : σ → List ε → Prop
  | _, [] => True
  | s, e :: es => C s e ∧ Along step C (step s e) es

instance decidableAlong (step : σ → ε → σ) (C : σ → ε → Prop) [∀ s e, Decidable (C s e)] :
    ∀ (s : σ) (es : List ε), Decidable (Along step C s es)
  | _, [] => isTrue trivial
  | s, e :: es =>
      have : Decidable (Along step C (step s e) es) := decidableAlong step C (step s e) es
      inferInstanceAs (Decidable (C s e ∧ Along step C (step s e) es))

section Append

variable (step : σ → ε → σ)

@[simp] theorem runFrom_nil (s : σ) : runFrom step s [] = s := rfl

@[simp] theorem runFrom_cons (s : σ) (e : ε) (es : List ε) :
    runFrom step s (e :: es) = runFrom step (step s e) es := rfl

@[simp] theorem emits_nil (out : σ → ε → List α) (s : σ) : emits step out s [] = [] := rfl

@[simp] theorem emits_cons (out : σ → ε → List α) (s : σ) (e : ε) (es : List ε) :
    emits step out s (e :: es) = out s e ++ emits step out (step s e) es := rfl

theorem runFrom_append (s : σ) (es fs : List ε) :
    runFrom step s (es ++ fs) = runFrom step (runFrom step s es) fs := by
  induction es generalizing s with
  | nil =>
      rfl
  | cons e es ih =>
      exact ih (step s e)

theorem runFrom_snoc (s : σ) (es : List ε) (e : ε) :
    runFrom step s (es ++ [e]) = step (runFrom step s es) e := by
  simpa using runFrom_append step s es [e]

theorem emits_append (out : σ → ε → List α) (s : σ) (es fs : List ε) :
    emits step out s (es ++ fs) = emits step out s es ++ emits step out (runFrom step s es) fs := by
  induction es generalizing s with
  | nil =>
      rfl
  | cons e es ih =>
      simp [ih (step s e)]

theorem emits_snoc (out : σ → ε → List α) (s : σ) (es : List ε) (e : ε) :
    emits step out s (es ++ [e]) = emits step out s es ++ out (runFrom step s es) e := by
  simpa using emits_append step out s es [e]

variable {step}

/-- A run depends on the step function only at the events it consumes. -/
theorem runFrom_congr {step' : σ → ε → σ} {s : σ} {es : List ε}
    (h : ∀ s, ∀ e ∈ es, step s e = step' s e) : runFrom step s es = runFrom step' s es := by
  induction es generalizing s with
  | nil =>
      rfl
  | cons e es ih =>
      rw [runFrom_cons, runFrom_cons, h s e (by simp)]
      exact ih (fun s e' he' => h s e' (by simp [he']))

theorem emits_congr {step' : σ → ε → σ} {out out' : σ → ε → List α} {s : σ} {es : List ε}
    (h : ∀ s, ∀ e ∈ es, step s e = step' s e) (hout : ∀ s, ∀ e ∈ es, out s e = out' s e) :
    emits step out s es = emits step' out' s es := by
  induction es generalizing s with
  | nil =>
      rfl
  | cons e es ih =>
      rw [emits_cons, emits_cons, h s e (by simp), hout s e (by simp)]
      rw [ih (fun s e' he' => h s e' (by simp [he'])) (fun s e' he' => hout s e' (by simp [he']))]

variable {C : σ → ε → Prop}

theorem along_append {s : σ} {es fs : List ε} :
    Along step C s (es ++ fs) ↔ Along step C s es ∧ Along step C (runFrom step s es) fs := by
  induction es generalizing s with
  | nil =>
      simp [Along]
  | cons e es ih =>
      simp [Along, ih, and_assoc]

theorem along_snoc {s : σ} {es : List ε} {e : ε} :
    Along step C s (es ++ [e]) ↔ Along step C s es ∧ C (runFrom step s es) e := by
  simp [along_append, Along]

theorem Along.mono {D : σ → ε → Prop} (hCD : ∀ s e, C s e → D s e) {s : σ} {es : List ε}
    (h : Along step C s es) : Along step D s es := by
  induction es generalizing s with
  | nil =>
      trivial
  | cons e es ih =>
      exact ⟨hCD s e h.1, ih h.2⟩

theorem along_of_forall {s : σ} {es : List ε} (h : ∀ s, ∀ e ∈ es, C s e) : Along step C s es := by
  induction es generalizing s with
  | nil =>
      trivial
  | cons e es ih =>
      refine ⟨h s e (by simp), ih ?_⟩
      intro s e' he'
      exact h s e' (by simp [he'])

theorem along_iff_forall {D : ε → Prop} {s : σ} {es : List ε} :
    Along step (fun _ e => D e) s es ↔ ∀ e ∈ es, D e := by
  induction es generalizing s with
  | nil =>
      simp [Along]
  | cons e es ih =>
      simp [Along, ih]

theorem Along.and_mem {D : ε → Prop} {s : σ} {es : List ε} (h : Along step C s es)
    (hD : ∀ e ∈ es, D e) : Along step (fun s e => D e ∧ C s e) s es := by
  induction es generalizing s with
  | nil =>
      trivial
  | cons e es ih =>
      exact ⟨⟨hD e (by simp), h.1⟩, ih h.2 (fun e' he' => hD e' (by simp [he']))⟩

end Append

/-! ## The states of a run -/

section StateAt

variable {step : σ → ε → σ} {s : σ} {es : List ε}

/-- The state in which event `n` finds the machine. -/
def stateAt (step : σ → ε → σ) (s : σ) (es : List ε) (n : Nat) : σ :=
  runFrom step s (es.take n)

theorem stateAt_succ {n : Nat} {e : ε} (h : es[n]? = some e) :
    stateAt step s es (n + 1) = step (stateAt step s es n) e := by
  have htake : es.take (n + 1) = es.take n ++ [e] := by
    rw [List.take_add_one, h, Option.toList_some]
  rw [stateAt, htake, runFrom_snoc]
  rfl

theorem Along.at {C : σ → ε → Prop} (h : Along step C s es) {n : Nat} {e : ε}
    (he : es[n]? = some e) : C (stateAt step s es n) e := by
  rcases List.getElem?_eq_some_iff.1 he with ⟨hn, rfl⟩
  rw [← List.take_append_drop n es] at h
  have hdrop := (along_append.1 h).2
  rw [List.drop_eq_getElem_cons hn] at hdrop
  exact hdrop.1

/-- What a machine that emits one thing per event emits at event `n`. -/
theorem getElem?_emits_one (g : σ → ε → α) (n : Nat) :
    (emits step (fun s e => [g s e]) s es)[n]? = es[n]?.map (g (stateAt step s es n)) := by
  induction es generalizing s n with
  | nil =>
      simp
  | cons e es ih =>
      cases n with
      | zero =>
          simp [stateAt]
      | succ n =>
          simpa [stateAt] using ih n

end StateAt

/-! ## Rules -/

section Rules

variable {step : σ → ε → σ} {C : σ → ε → Prop}

/-- A property of the state that every admitted step keeps holds at the end of every run. -/
theorem runFrom_invariant {I : σ → Prop} (hstep : ∀ s e, I s → C s e → I (step s e))
    {s : σ} (hs : I s) {es : List ε} (hC : Along step C s es) : I (runFrom step s es) := by
  induction es generalizing s with
  | nil =>
      exact hs
  | cons e es ih =>
      exact ih (hstep s e hs hC.1) hC.2

/-- The same where every step keeps it. -/
theorem runFrom_inductive {I : σ → Prop} (hstep : ∀ s e, I s → I (step s e)) {s : σ} (hs : I s)
    (es : List ε) : I (runFrom step s es) :=
  runFrom_invariant (C := fun _ _ => True) (fun s e h _ => hstep s e h) hs
    (along_of_forall (fun _ _ _ => trivial))

/-- And every step of the run is taken from a state with the property. -/
theorem along_invariant {I : σ → Prop} (hstep : ∀ s e, I s → C s e → I (step s e))
    {s : σ} (hs : I s) {es : List ε} (hC : Along step C s es) :
    Along step (fun s _ => I s) s es := by
  induction es generalizing s with
  | nil =>
      trivial
  | cons e es ih =>
      exact ⟨hs, ih (hstep s e hs hC.1) hC.2⟩

/-- The same for a property that also sees the events consumed so far. -/
theorem history_invariant {s₀ : σ} {P : List ε → σ → Prop} (h0 : P [] s₀)
    (hstep : ∀ es e, P es (runFrom step s₀ es) → C (runFrom step s₀ es) e →
      P (es ++ [e]) (step (runFrom step s₀ es) e)) :
    ∀ es, Along step C s₀ es → P es (runFrom step s₀ es) := by
  intro es
  induction es using List.reverseRecOn with
  | nil =>
      intro _
      exact h0
  | append_singleton es e ih =>
      intro hC
      -- The events seen so far grow at their end, so the run is taken apart there.
      have hsplit := along_snoc.1 hC
      rw [runFrom_snoc]
      exact hstep es e (ih hsplit.1) hsplit.2

/-- A property that a step keeps exactly when the step meets `C` holds at the end of a run exactly
when it held at its start and every step met `C`. -/
theorem runFrom_iff_along {I P : σ → Prop} (hI : ∀ s e, I s → I (step s e))
    (hP : ∀ s e, I s → (P (step s e) ↔ P s ∧ C s e)) {s : σ} (hs : I s) (es : List ε) :
    P (runFrom step s es) ↔ P s ∧ Along step C s es := by
  induction es generalizing s with
  | nil =>
      simp [Along]
  | cons e es ih =>
      rw [runFrom_cons, ih (hI s e hs), hP s e hs, and_assoc]
      rfl

/-- A property that a step from it keeps exactly when the step meets `C` holds in every state of a
run exactly when every step meets `C`; the steps are those that `D` admits. -/
theorem forall_prefix_iff_along_of_admitted {P : σ → Prop} {D : σ → ε → Prop}
    (hstep : ∀ s e, P s → D s e → (P (step s e) ↔ C s e)) {s : σ} (hs : P s) {es : List ε}
    (hD : Along step D s es) :
    (∀ done, done <+: es → P (runFrom step s done)) ↔ Along step C s es := by
  induction es generalizing s with
  | nil =>
      simp [Along, hs]
  | cons e es ih =>
      constructor
      · intro h
        -- The prefix of one event gives the first step, longer ones the rest of the run.
        have hnext : P (step s e) := h [e] ⟨es, rfl⟩
        refine ⟨(hstep s e hs hD.1).1 hnext, (ih hnext hD.2).1 ?_⟩
        intro done hdone
        exact h (e :: done) (List.cons_prefix_cons.2 ⟨rfl, hdone⟩)
      · intro h done hdone
        cases done with
        | nil =>
            exact hs
        | cons e' done =>
            rcases List.cons_prefix_cons.1 hdone with ⟨rfl, hrest⟩
            exact (ih ((hstep s e' hs hD.1).2 h.1) hD.2).2 h.2 done hrest

theorem forall_prefix_iff_along {P : σ → Prop} (hstep : ∀ s e, P s → (P (step s e) ↔ C s e))
    {s : σ} (hs : P s) (es : List ε) :
    (∀ done, done <+: es → P (runFrom step s done)) ↔ Along step C s es :=
  forall_prefix_iff_along_of_admitted (fun s e h _ => hstep s e h) hs
    (along_of_forall (fun _ _ _ => trivial))

/-- A step that passes on what it holds, and holds what it takes in, neither drops nor invents. -/
theorem emits_conserve {out inp : σ → ε → List α} {held : σ → List α}
    (hstep : ∀ s e, C s e → out s e ++ held (step s e) = held s ++ inp s e)
    {s : σ} {es : List ε} (hC : Along step C s es) :
    emits step out s es ++ held (runFrom step s es) = held s ++ emits step inp s es := by
  induction es generalizing s with
  | nil =>
      simp
  | cons e es ih =>
      -- What is held after the first step moves over from the tail's equation to the head's.
      have htail := ih hC.2
      have hhead := hstep s e hC.1
      calc
        emits step out s (e :: es) ++ held (runFrom step s (e :: es))
            = out s e ++ (emits step out (step s e) es ++ held (runFrom step (step s e) es)) := by
              simp
        _ = (out s e ++ held (step s e)) ++ emits step inp (step s e) es := by
              rw [htail, List.append_assoc]
        _ = held s ++ emits step inp s (e :: es) := by
              rw [hhead]
              simp

theorem emits_congr_along {out out' : σ → ε → List α} (h : ∀ s e, C s e → out s e = out' s e)
    {s : σ} {es : List ε} (hC : Along step C s es) : emits step out s es = emits step out' s es := by
  induction es generalizing s with
  | nil =>
      rfl
  | cons e es ih =>
      rw [emits_cons, emits_cons, h s e hC.1, ih hC.2]

/-- A register shows one step later what it takes in. -/
theorem emits_registered {held : σ → List α} {inp : σ → ε → List α}
    (hstep : ∀ s e, C s e → held (step s e) = inp s e) {s : σ} {es : List ε}
    (hC : Along step C s es) (last : ε) :
    emits step (fun s _ => held s) s (es ++ [last]) = held s ++ emits step inp s es := by
  rw [emits_snoc]
  exact @emits_conserve _ _ _ step C (fun s _ => held s) inp held
    (fun s e he => by rw [hstep s e he]) s es hC

theorem emits_sublist {out out' : σ → ε → List α} (h : ∀ s e, (out s e).Sublist (out' s e))
    (s : σ) (es : List ε) : (emits step out s es).Sublist (emits step out' s es) := by
  induction es generalizing s with
  | nil =>
      exact List.Sublist.refl _
  | cons e es ih =>
      exact (h s e).append (ih (step s e))

/-- A register that is raised by what each step emits counts what a run emits. -/
theorem runFrom_count {width : Nat} {count : σ → BitVec width} {out : σ → ε → List α}
    (hstep : ∀ s e, C s e → count (step s e) = count s + BitVec.ofNat width (out s e).length)
    {s : σ} {es : List ε} (hC : Along step C s es) :
    count (runFrom step s es) = count s + BitVec.ofNat width (emits step out s es).length := by
  induction es generalizing s with
  | nil =>
      simp
  | cons e es ih =>
      rw [runFrom_cons, ih hC.2, hstep s e hC.1, emits_cons, List.length_append, BitVec.ofNat_add,
        BitVec.add_assoc]

/-- A rank that every counted event lowers, and no other raises, is zero after enough of them. -/
theorem runFrom_rank {I : σ → Prop} {counted : ε → Bool} {rank : σ → Nat}
    (hI : ∀ s e, I s → C s e → I (step s e))
    (hrank : ∀ s e, I s → C s e → rank (step s e) ≤ rank s - (counted e).toNat)
    {s : σ} (hs : I s) {es : List ε} (hC : Along step C s es)
    (henough : rank s ≤ es.countP counted) : rank (runFrom step s es) = 0 := by
  induction es generalizing s with
  | nil =>
      simpa using henough
  | cons e es ih =>
      apply ih (hI s e hs hC.1) hC.2
      have hstep := hrank s e hs hC.1
      cases hcounted : counted e with
      | false =>
          simp [hcounted] at hstep henough
          omega
      | true =>
          simp [hcounted] at hstep henough
          omega

end Rules

/-! ## Events that do not matter -/

section Filter

variable {step : σ → ε → σ} {C C' : σ → ε → Prop} {R : σ → σ → Prop} {out : σ → ε → List α}
  {keep : ε → Bool}

/-- Events that emit nothing and leave what `R` compares alone can be left out of a run. -/
theorem emits_filter
    (hskip : ∀ s s' e, R s s' → C s e → keep e = false → R (step s e) s' ∧ out s e = [])
    (hkeep : ∀ s s' e, R s s' → C s e → C' s' e → keep e = true →
      R (step s e) (step s' e) ∧ out s e = out s' e)
    {s s' : σ} (hs : R s s') {es : List ε} (hC : Along step C s es)
    (hC' : Along step C' s' (es.filter keep)) :
    emits step out s es = emits step out s' (es.filter keep) := by
  induction es generalizing s s' with
  | nil =>
      rfl
  | cons e es ih =>
      cases he : keep e with
      | false =>
          have hfilter : (e :: es).filter keep = es.filter keep := by simp [he]
          rw [hfilter] at hC' ⊢
          rcases hskip s s' e hs hC.1 he with ⟨hnext, hout⟩
          rw [emits_cons, hout, List.nil_append]
          exact ih hnext hC.2 hC'
      | true =>
          have hfilter : (e :: es).filter keep = e :: es.filter keep := by simp [he]
          rw [hfilter] at hC' ⊢
          rcases hkeep s s' e hs hC.1 hC'.1 he with ⟨hnext, hout⟩
          rw [emits_cons, emits_cons, hout, ih hnext hC.2 hC'.2]

end Filter

/-! ## Simulation by a map of states -/

section Simulation

universe u' w'

variable {τ : Type u'} {β : Type w'} {step : σ → ε → σ} {step' : τ → ε → τ} {g : σ → τ}

theorem runFrom_simulates (h : ∀ s e, step' (g s) e = g (step s e)) (s : σ) (es : List ε) :
    runFrom step' (g s) es = g (runFrom step s es) := by
  induction es generalizing s with
  | nil =>
      rfl
  | cons e es ih =>
      rw [runFrom_cons, runFrom_cons, h, ih]

theorem emits_simulates {out : σ → ε → List α} {out' : τ → ε → List β} {f : α → β}
    (h : ∀ s e, step' (g s) e = g (step s e)) (hout : ∀ s e, out' (g s) e = (out s e).map f)
    (s : σ) (es : List ε) : emits step' out' (g s) es = (emits step out s es).map f := by
  induction es generalizing s with
  | nil =>
      rfl
  | cons e es ih =>
      rw [emits_cons, emits_cons, h, hout, ih, List.map_append]

/-- A machine whose state shows `g`, and of whose events another machine sees some as its own. -/
theorem runFrom_view {ε' : Type u'} {step' : τ → ε' → τ} {view : ε → Option ε'}
    {C : σ → ε → Prop} {I : σ → Prop} (hI : ∀ s e, I s → C s e → I (step s e))
    (h : ∀ s e, I s → C s e → g (step s e) = (view e).elim (g s) (step' (g s)))
    {s : σ} (hs : I s) {es : List ε} (hC : Along step C s es) :
    g (runFrom step s es) = runFrom step' (g s) (es.filterMap view) := by
  induction es generalizing s with
  | nil =>
      rfl
  | cons e es ih =>
      rw [runFrom_cons, ih (hI s e hs hC.1) hC.2, h s e hs hC.1]
      cases hview : view e with
      | none =>
          rw [List.filterMap_cons_none hview]
          rfl
      | some e' =>
          rw [List.filterMap_cons_some hview]
          rfl

theorem emits_view {ε' : Type u'} {step' : τ → ε' → τ} {view : ε → Option ε'}
    {out : σ → ε → List α} {out' : τ → ε' → List α} {C : σ → ε → Prop} {I : σ → Prop}
    (hI : ∀ s e, I s → C s e → I (step s e))
    (h : ∀ s e, I s → C s e → g (step s e) = (view e).elim (g s) (step' (g s)))
    (hout : ∀ s e, I s → C s e → out s e = (view e).elim [] (out' (g s)))
    {s : σ} (hs : I s) {es : List ε} (hC : Along step C s es) :
    emits step out s es = emits step' out' (g s) (es.filterMap view) := by
  induction es generalizing s with
  | nil =>
      rfl
  | cons e es ih =>
      rw [emits_cons, ih (hI s e hs hC.1) hC.2, h s e hs hC.1, hout s e hs hC.1]
      cases hview : view e with
      | none =>
          rw [List.filterMap_cons_none hview]
          rfl
      | some e' =>
          rw [List.filterMap_cons_some hview]
          rfl

/-- A part of a machine that is a machine of its own, which every step of the whole feeds. -/
theorem runFrom_feeds_along {ε' : Type u'} {step' : τ → ε' → τ} {feed : σ → ε → List ε'}
    {C : σ → ε → Prop} (h : ∀ s e, C s e → g (step s e) = runFrom step' (g s) (feed s e)) {s : σ}
    {es : List ε} (hC : Along step C s es) :
    g (runFrom step s es) = runFrom step' (g s) (emits step feed s es) := by
  induction es generalizing s with
  | nil =>
      rfl
  | cons e es ih =>
      rw [runFrom_cons, ih hC.2, h s e hC.1, emits_cons, runFrom_append]

theorem emits_feeds_along {ε' : Type u'} {step' : τ → ε' → τ} {feed : σ → ε → List ε'}
    {out : σ → ε → List α} {out' : τ → ε' → List α} {C : σ → ε → Prop}
    (h : ∀ s e, C s e → g (step s e) = runFrom step' (g s) (feed s e))
    (hout : ∀ s e, C s e → out s e = emits step' out' (g s) (feed s e)) {s : σ} {es : List ε}
    (hC : Along step C s es) :
    emits step out s es = emits step' out' (g s) (emits step feed s es) := by
  induction es generalizing s with
  | nil =>
      rfl
  | cons e es ih =>
      rw [emits_cons, ih hC.2, h s e hC.1, hout s e hC.1, emits_cons, emits_append]

theorem runFrom_feeds {ε' : Type u'} {step' : τ → ε' → τ} {feed : σ → ε → List ε'}
    (h : ∀ s e, g (step s e) = runFrom step' (g s) (feed s e)) (s : σ) (es : List ε) :
    g (runFrom step s es) = runFrom step' (g s) (emits step feed s es) :=
  runFrom_feeds_along (C := fun _ _ => True) (fun s e _ => h s e)
    (along_of_forall (fun _ _ _ => trivial))

theorem emits_feeds {ε' : Type u'} {step' : τ → ε' → τ} {feed : σ → ε → List ε'}
    {out : σ → ε → List α} {out' : τ → ε' → List α}
    (h : ∀ s e, g (step s e) = runFrom step' (g s) (feed s e))
    (hout : ∀ s e, out s e = emits step' out' (g s) (feed s e)) (s : σ) (es : List ε) :
    emits step out s es = emits step' out' (g s) (emits step feed s es) :=
  emits_feeds_along (C := fun _ _ => True) (fun s e _ => h s e) (fun s e _ => hout s e)
    (along_of_forall (fun _ _ _ => trivial))

/-- Whatever a run puts out, some step of it did. -/
theorem exists_of_mem_emits {out : σ → ε → List α} {s : σ} {es : List ε} {x : α}
    (hx : x ∈ emits step out s es) :
    ∃ done e, done ++ [e] <+: es ∧ x ∈ out (runFrom step s done) e := by
  induction es generalizing s with
  | nil =>
      cases hx
  | cons e es ih =>
      rcases List.mem_append.1 hx with hx | hx
      · exact ⟨[], e, by simp, hx⟩
      · obtain ⟨done, e', hprefix, hout⟩ := ih hx
        exact ⟨e :: done, e', by simpa using hprefix, hout⟩

theorem forall_mem_emits {P : α → Prop} {D : ε → Prop} {out : σ → ε → List α}
    (hout : ∀ s e, D e → ∀ x ∈ out s e, P x) {s : σ} {es : List ε} (hD : ∀ e ∈ es, D e) :
    ∀ x ∈ emits step out s es, P x := by
  induction es generalizing s with
  | nil =>
      simp
  | cons e es ih =>
      intro x hx
      rcases List.mem_append.1 hx with hx | hx
      · exact hout s e (hD e (by simp)) x hx
      · exact ih (fun e' he' => hD e' (by simp [he'])) x hx

theorem emits_map {out : σ → ε → List α} (f : α → β) (s : σ) (es : List ε) :
    emits step (fun s e => (out s e).map f) s es = (emits step out s es).map f := by
  have hself : ∀ s e, step (id s) e = id (step s e) := fun _ _ => rfl
  exact emits_simulates hself (fun _ _ => rfl) s es

theorem emits_flatMap {out : σ → ε → List α} (f : α → List β) (s : σ) (es : List ε) :
    (emits step out s es).flatMap f = emits step (fun s e => (out s e).flatMap f) s es := by
  induction es generalizing s with
  | nil =>
      rfl
  | cons e es ih =>
      rw [emits_cons, emits_cons, List.flatMap_append, ih]

theorem filter_emits (keep : α → Bool) (out : σ → ε → List α) (s : σ) (es : List ε) :
    (emits step out s es).filter keep = emits step (fun s e => (out s e).filter keep) s es := by
  induction es generalizing s with
  | nil =>
      rfl
  | cons e es ih =>
      rw [emits_cons, emits_cons, List.filter_append, ih]

end Simulation

/-! ## Steps that can fail -/

section Failing

variable {τ : Type u}

/-- Two runs that are related stay so, and neither fails, if that holds of each step. -/
theorem foldlM_related {R : σ → τ → Prop} {step : σ → ε → Option σ} {step' : τ → ε → Option τ}
    (hstep : ∀ s t e, R s t → ∃ s' t', step s e = some s' ∧ step' t e = some t' ∧ R s' t')
    {s : σ} {t : τ} (h : R s t) (es : List ε) :
    ∃ s' t', es.foldlM step s = some s' ∧ es.foldlM step' t = some t' ∧ R s' t' := by
  induction es generalizing s t with
  | nil =>
      exact ⟨s, t, rfl, rfl, h⟩
  | cons e es ih =>
      rcases hstep s t e h with ⟨s', t', hs, ht, h'⟩
      rcases ih h' with ⟨s'', t'', hs', ht', h''⟩
      refine ⟨s'', t'', ?_, ?_, h''⟩
      · rw [List.foldlM_cons, hs]
        exact hs'
      · rw [List.foldlM_cons, ht]
        exact ht'

/-- A run over blocks of events is the run over the events. -/
theorem foldlM_flatten (step : σ → ε → Option σ) (s : σ) (blocks : List (List ε)) :
    blocks.foldlM (fun s es => es.foldlM step s) s = blocks.flatten.foldlM step s := by
  induction blocks generalizing s with
  | nil =>
      rfl
  | cons es blocks ih =>
      rw [List.foldlM_cons, List.flatten_cons, List.foldlM_append]
      exact congrArg _ (funext ih)

end Failing

end Lib
end Sdr
