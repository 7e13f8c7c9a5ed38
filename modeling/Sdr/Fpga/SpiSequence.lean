import Sdr.Fpga.SpiFrames

/-!
# SpiSequence — which words are sent

`lut_config` takes the next word of its table with each `done`, and after the table waits for requests.
Its `valid` stays up across the last `done`, so the last word of the table, the transfer command, is sent
a second time.  A request is followed by a transfer command.

What becomes of a request is decided by `spi_ctrl` in the cycle in which it is taken (`fate`).  While the
`valid` of the repeated command is still registered there and `done` is not up, the request comes too
early.  In the last cycle of the pause after the table it takes the place of the repeated command; from
`IDLE` on, also in the cycle before the command is committed to, the command is sent all the same, the
next `done` overtakes the request, and only the request's own transfer command is sent.  Any other
request is served.  `sdr_top` ties `conf_en` to zero, and the words are the table and the repeated
command.
-/

namespace Sdr
namespace Fpga
namespace SpiConfig

open Lib
open LutConfig (table transfer)

/-! ## Complete sequences -/

/-- What becomes of a request. -/
inductive Fate
  | served
  | replaces
  | overtaken
  deriving DecidableEq

/-- What becomes of a request that is taken in this cycle. -/
def fate (s : State) : Fate :=
  if !s.ctrl.valid || s.ctrl.done then .served
  else if s.ctrl.state = .wait then .replaces
  else .overtaken

/-- The requests taken in this cycle, with what becomes of them. -/
def asked (s : State) (i : Inputs) : List (BitVec 24 × Fate) :=
  (requested s i).map fun r => (r, fate s)

def Bus.asked (b : Bus) (i : Inputs) : List (BitVec 24 × Fate) :=
  SpiConfig.asked b.fpga i

/-- The words that are sent for a request. -/
def answer : BitVec 24 × Fate → List (BitVec 24)
  | (_, .overtaken) => [transfer]
  | (r, .served) | (r, .replaces) => [r, transfer]

/-- The transfer command that is sent once more after the table. -/
def repeated : List (BitVec 24 × Fate) → List (BitVec 24)
  | (_, .replaces) :: _ => []
  | _ => [transfer]

/-- All that is sent when these requests are taken. -/
def sequence (rs : List (BitVec 24 × Fate)) : List (BitVec 24) :=
  table ++ repeated rs ++ rs.flatMap answer

/-- The requests taken, and all that is sent for them; only the first can come too early. -/
structure Complete (rs : List (BitVec 24 × Fate)) (ws : List (BitVec 24)) : Prop where
  words : ws = sequence rs
  served : ∀ a ∈ rs.tail, a.2 = .served

theorem complete_nil : Complete [] (table ++ [transfer]) :=
  ⟨rfl, by simp⟩

theorem complete_replaces (r : BitVec 24) : Complete [(r, .replaces)] (table ++ [r, transfer]) :=
  ⟨rfl, by simp⟩

theorem complete_overtaken (r : BitVec 24) :
    Complete [(r, .overtaken)] (table ++ [transfer, transfer]) :=
  ⟨rfl, by simp⟩

theorem Complete.snoc {rs : List (BitVec 24 × Fate)} {ws : List (BitVec 24)} (h : Complete rs ws)
    (r : BitVec 24) : Complete (rs ++ [(r, .served)]) (ws ++ [r, transfer]) := by
  rw [h.words]
  cases rs with
  | nil =>
      exact ⟨rfl, by simp⟩
  | cons a rs =>
      have hrepeated : repeated (a :: rs ++ [(r, .served)]) = repeated (a :: rs) := by
        rcases a with ⟨r₀, f⟩
        cases f <;> rfl
      refine ⟨?_, ?_⟩
      · rw [sequence, sequence, hrepeated, List.flatMap_append, ← List.append_assoc]
        rfl
      · intro b hb
        rw [List.cons_append, List.tail_cons, List.mem_append] at hb
        rcases hb with hb | hb
        · exact h.served b hb
        · rw [List.mem_singleton.1 hb]

/-! ## Where the controller is -/

/-- The states of the controller between two words; the three after `done` are the cycles of `WAIT`. -/
inductive Spot
  | sending
  | finished
  | resting
  | ready
  | idle
  | commits
  deriving DecidableEq

def At (c : SpiCtrl.State) : Spot → Prop
  | .sending =>
      (c.state = .wrAddr ∨ c.state = .wrData ∨ c.state = .done) ∧ c.done = false ∧ c.waitCnt = 0
  | .finished => c.state = .wait ∧ c.done = true ∧ c.waitCnt = 0
  | .resting => c.state = .wait ∧ c.done = false ∧ c.waitCnt = 1
  | .ready => c.state = .wait ∧ c.done = false ∧ c.waitCnt = 2
  | .idle => c.state = .idle ∧ c.done = false ∧ c.waitCnt = 0
  | .commits => c.state = .wrRd ∧ c.done = false ∧ c.waitCnt = 0

/-- The spots that can follow; `valid` decides whether an idle controller goes on. -/
def nextSpots (valid : Bool) : Spot → List Spot
  | .sending => [.sending, .finished]
  | .finished => [.resting]
  | .resting => [.ready]
  | .ready => [.idle]
  | .idle => [if valid then .commits else .idle]
  | .commits => [.sending]

theorem At.step {c : SpiCtrl.State} {p : SpiCtrl.Ports} {spot : Spot} (h : At c spot)
    (hen : p.wrRdEn = true) :
    ∃ next ∈ nextSpots c.valid spot, At (SpiCtrl.step c p) next := by
  cases spot with
  | sending =>
      obtain ⟨hstate | hstate | hstate, hdone, hcnt⟩ := h
      · refine ⟨.sending, by simp [nextSpots], ?_⟩
        simp [At, SpiCtrl.step, SpiCtrl.sequencer, hstate, hdone, hcnt]
      · refine ⟨.sending, by simp [nextSpots], ?_⟩
        cases hack : p.ack <;>
          simp [At, SpiCtrl.step, SpiCtrl.sequencer, hstate, hdone, hcnt, hack]
      · refine ⟨.finished, by simp [nextSpots], ?_⟩
        simp [At, SpiCtrl.step, SpiCtrl.sequencer, hstate, hcnt]
  | finished =>
      obtain ⟨hstate, hdone, hcnt⟩ := h
      refine ⟨.resting, by simp [nextSpots], ?_⟩
      simp [At, SpiCtrl.step, SpiCtrl.sequencer, hstate, hcnt]
  | resting =>
      obtain ⟨hstate, hdone, hcnt⟩ := h
      refine ⟨.ready, by simp [nextSpots], ?_⟩
      simp [At, SpiCtrl.step, SpiCtrl.sequencer, hstate, hcnt]
  | ready =>
      obtain ⟨hstate, hdone, hcnt⟩ := h
      refine ⟨.idle, by simp [nextSpots], ?_⟩
      simp [At, SpiCtrl.step, SpiCtrl.sequencer, hstate, hcnt]
  | idle =>
      obtain ⟨hstate, hdone, hcnt⟩ := h
      refine ⟨if c.valid then .commits else .idle, by simp [nextSpots], ?_⟩
      cases hvalid : c.valid <;>
        simp [At, SpiCtrl.step, SpiCtrl.sequencer, hstate, hdone, hcnt, hvalid]
  | commits =>
      obtain ⟨hstate, hdone, hcnt⟩ := h
      refine ⟨.sending, by simp [nextSpots], ?_⟩
      simp [At, SpiCtrl.step, SpiCtrl.sequencer, SpiCtrl.commit, hstate, hdone, hcnt, hen]

theorem At.done_eq {c : SpiCtrl.State} {spot : Spot} (h : At c spot) :
    c.done = decide (spot = .finished) := by
  cases spot <;> simp_all [At]

/-! ## Where both are -/

/-- The word that the controller holds. -/
def held (s : State) : BitVec 24 :=
  s.ctrl.addrR ++ s.ctrl.dataR

/-- The word that the table presents. -/
def presented (s : State) : BitVec 24 :=
  s.lut.lutData.extractLsb' 8 16 ++ s.lut.lutData.extractLsb' 0 8

structure Shows (s : State) (confState : BitVec 4) (lutValid ctrlValid : Bool) (spot : Spot) :
    Prop where
  wrRdEn : s.lut.wrRdEn = true
  confState : s.lut.confState = confState
  lutValid : s.lut.valid = lutValid
  ctrlValid : s.ctrl.valid = ctrlValid
  spot : At s.ctrl spot

section Shows

variable {s : State} {i : Inputs} {conf : BitVec 4} {lutValid ctrlValid : Bool} {spot : Spot}

theorem held_step (s : State) (i : Inputs) :
    held (step s i) = if s.lut.valid then presented s else held s := by
  cases hvalid : s.lut.valid <;> simp [held, presented, step, SpiCtrl.step, ctrlPorts, hvalid]

theorem Shows.committed_eq (h : Shows s conf lutValid ctrlValid spot) (i : Inputs) :
    committed s i = if spot = .commits then [held s] else [] := by
  have hspot := h.spot
  cases spot <;> simp_all [At, committed, held]
  rcases hspot.1 with hstate | hstate | hstate <;> simp [hstate]

theorem Shows.fate_eq (h : Shows s conf lutValid ctrlValid spot) :
    fate s =
      if !ctrlValid || spot = .finished then .served
      else if spot = .resting ∨ spot = .ready then .replaces
      else .overtaken := by
  have hspot := h.spot
  rw [fate, h.ctrlValid, hspot.done_eq]
  cases spot <;> cases ctrlValid <;> simp_all [At]
  rcases hspot.1 with hstate | hstate | hstate <;> simp [hstate]

theorem Shows.step {conf' : BitVec 4} {lutValid' : Bool}
    (h : Shows s conf lutValid ctrlValid spot) (i : Inputs)
    (hconf : (step s i).lut.confState = conf') (hvalid : (step s i).lut.valid = lutValid') :
    ∃ next ∈ nextSpots ctrlValid spot,
      Shows (step s i) conf' lutValid' (lutValid || (ctrlValid && spot ≠ .finished)) next := by
  obtain ⟨next, hnext, hat⟩ := h.spot.step (p := ctrlPorts s) h.wrRdEn
  rw [h.ctrlValid] at hnext
  refine ⟨next, hnext, ?_, hconf, hvalid, ?_, hat⟩
  · rw [SpiConfig.step, lut_wrRdEn]
    exact h.wrRdEn
  · have hdone := h.spot.done_eq
    simp only [SpiConfig.step, SpiCtrl.step, ctrlPorts, h.lutValid, h.ctrlValid, hdone]
    cases lutValid <;> by_cases hfinished : spot = .finished <;> simp [hfinished]

/-! ### The table -/

theorem presented_setWidth (w : BitVec 24) :
    (w.setWidth 25).extractLsb' 8 16 ++ (w.setWidth 25).extractLsb' 0 8 = w := by
  ext k hk
  simp only [BitVec.getElem_append, BitVec.getElem_extractLsb', BitVec.getLsbD_setWidth]
  grind

theorem lut_boots (hconf : s.lut.confState = 0) :
    (step s i).lut.confState = 1 ∧ (step s i).lut.valid = s.lut.valid := by
  simp [step, LutConfig.step, LutConfig.configure, hconf]

theorem lut_state (h : Shows s conf lutValid ctrlValid spot) (i : Inputs) :
    (step s i).lut.state = if spot = .finished then s.lut.state + 1 else s.lut.state := by
  simp [step, LutConfig.step, h.spot.done_eq]

/-- An entry of the table is shown from the cycle after its turn has come. -/
theorem lut_shows {k : Nat} {w : BitVec 24} (hconf : s.lut.confState = 1)
    (hstate : s.lut.state = BitVec.ofNat 10 k) (hw : table[k]? = some w) :
    (step s i).lut.confState = 1 ∧ (step s i).lut.valid = true ∧ presented (step s i) = w := by
  have hk : k < 5 := (List.getElem?_eq_some_iff.1 hw).1
  have hindex : s.lut.state.toNat = k := by
    rw [hstate]
    exact Nat.mod_eq_of_lt (by omega)
  simp only [presented, step, LutConfig.step, LutConfig.configure, hconf, hindex, hw]
  exact ⟨rfl, rfl, presented_setWidth w⟩

theorem lut_ends (hconf : s.lut.confState = 1) (hstate : s.lut.state = 5) :
    (step s i).lut.confState = 2 ∧ (step s i).lut.valid = false := by
  simp [step, LutConfig.step, LutConfig.configure, hconf, hstate, table]

/-! ### Requests -/

theorem asked_of_ne (hconf : s.lut.confState ≠ 2) (i : Inputs) : asked s i = [] := by
  simp only [asked, requested, Bool.and_eq_true, decide_eq_true_eq, hconf, false_and, if_false,
    List.map_nil]

theorem lut_waits (hconf : s.lut.confState = 2) (hnone : s.lut.confEnReg = false) (i : Inputs) :
    (step s i).lut.confState = 2 ∧ (step s i).lut.valid = false ∧ asked s i = [] := by
  simp [step, LutConfig.step, LutConfig.configure, asked, requested, hconf, hnone]

theorem lut_asked (hconf : s.lut.confState = 2) (hen : s.lut.confEnReg = true) (i : Inputs) :
    (step s i).lut.confState = 3 ∧ (step s i).lut.valid = true ∧
      asked s i = [(presented (step s i), fate s)] := by
  have hshown : presented (step s i) = i.regConf.setWidth 24 := by
    simp only [presented, step, LutConfig.step, LutConfig.configure, hconf, hen]
    exact presented_setWidth _
  rw [hshown]
  simp [step, LutConfig.step, LutConfig.configure, asked, requested, hconf, hen]

theorem lut_holds (hconf : s.lut.confState = 3) (hmore : s.ctrl.done = false) (i : Inputs) :
    (step s i).lut.confState = 3 ∧ (step s i).lut.valid = s.lut.valid ∧
      presented (step s i) = presented s := by
  simp [presented, step, LutConfig.step, LutConfig.configure, hconf, hmore]

theorem lut_transfers (hconf : s.lut.confState = 3) (hdone : s.ctrl.done = true) (i : Inputs) :
    (step s i).lut.confState = 4 ∧ (step s i).lut.valid = true ∧
      presented (step s i) = transfer := by
  simp only [presented, step, LutConfig.step, LutConfig.configure, hconf, hdone]
  exact ⟨rfl, rfl, presented_setWidth transfer⟩

theorem lut_closes (hconf : s.lut.confState = 4) (i : Inputs) :
    (step s i).lut.confState = (if s.ctrl.done then 2 else 4) ∧
      (step s i).lut.valid = false := by
  simp [step, LutConfig.step, LutConfig.configure, hconf]

end Shows

/-! ## The whole way -/

/-- Where a word is shown but not committed to. -/
def Spot.before : Spot → Bool
  | .ready | .idle | .commits => true
  | _ => false

def Spot.after : Spot → Bool
  | .sending | .finished => true
  | _ => false

/-- The stages of the configuration, with the requests taken, the words committed to, and how many are
still to come if nothing more is asked. -/
inductive Stage (s : State) : List (BitVec 24 × Fate) → List (BitVec 24) → Nat → Prop
  | boot (conf : BitVec 4) (hconf : conf = 0 ∨ conf = 1) (h : Shows s conf false false .idle)
      (hstate : s.lut.state = 0) : Stage s [] [] 6
  | first (h : Shows s 1 true false .idle) (hstate : s.lut.state = 0)
      (hshown : table[0]? = some (presented s)) : Stage s [] [] 6
  | entry (k : Nat) (spot : Spot) (hspot : spot = .idle ∨ spot = .commits)
      (h : Shows s 1 true true spot) (hstate : s.lut.state = BitVec.ofNat 10 k)
      (hshown : table[k]? = some (presented s)) (hheld : held s = presented s) :
      Stage s [] (table.take k) (6 - k)
  | entrySent (k : Nat) (spot : Spot) (hspot : spot.after = true) (h : Shows s 1 true true spot)
      (hstate : s.lut.state = BitVec.ofNat 10 k) (hshown : table[k]? = some (presented s)) :
      Stage s [] (table.take (k + 1)) (5 - k)
  | entryNext (k : Nat) (h : Shows s 1 true true .resting)
      (hstate : s.lut.state = BitVec.ofNat 10 (k + 1)) (hshown : table[k]? = some (presented s)) :
      Stage s [] (table.take (k + 1)) (5 - k)
  | entryReady (k : Nat) (h : Shows s 1 true true .ready)
      (hstate : s.lut.state = BitVec.ofNat 10 k) (hshown : table[k]? = some (presented s)) :
      Stage s [] (table.take k) (6 - k)
  | last (spot : Spot) (hspot : spot.before = true) (h : Shows s 2 false true spot)
      (hheld : held s = transfer) : Stage s [] table 1
  | lastSent (spot : Spot) (hspot : spot.after = true) (h : Shows s 2 false true spot) :
      Stage s [] (table ++ [transfer]) 0
  | asked (spot : Spot) (hspot : spot = .resting ∨ spot = .ready ∨ spot = .idle) (valid : Bool)
      (h : Shows s 3 true valid spot) {rs : List (BitVec 24 × Fate)} {ws : List (BitVec 24)}
      (hsent : Complete rs (ws ++ [presented s, transfer])) : Stage s rs ws 2
  | askedCommits (h : Shows s 3 true true .commits) {rs : List (BitVec 24 × Fate)} {ws : List (BitVec 24)}
      (hsent : Complete rs (ws ++ [held s, transfer])) : Stage s rs ws 2
  | askedSent (spot : Spot) (hspot : spot.after = true) (h : Shows s 3 true true spot)
      {rs : List (BitVec 24 × Fate)} {ws : List (BitVec 24)} (hsent : Complete rs (ws ++ [transfer])) : Stage s rs ws 1
  | closing (h : Shows s 4 true true .resting) (hshown : presented s = transfer)
      {rs : List (BitVec 24 × Fate)} {ws : List (BitVec 24)} (hsent : Complete rs (ws ++ [transfer])) : Stage s rs ws 1
  | closingHeld (spot : Spot) (hspot : spot.before = true) (h : Shows s 4 false true spot)
      (hheld : held s = transfer) {rs : List (BitVec 24 × Fate)} {ws : List (BitVec 24)}
      (hsent : Complete rs (ws ++ [transfer])) : Stage s rs ws 1
  | closingSent (spot : Spot) (hspot : spot.after = true) (h : Shows s 4 false true spot)
      {rs : List (BitVec 24 × Fate)} {ws : List (BitVec 24)} (hsent : Complete rs ws) : Stage s rs ws 0
  | quiet (spot : Spot) (hspot : spot = .resting ∨ spot = .ready ∨ spot = .idle)
      (h : Shows s 2 false false spot) {rs : List (BitVec 24 × Fate)} {ws : List (BitVec 24)} (hsent : Complete rs ws) :
      Stage s rs ws 0

section Stages

variable {s : State} {i : Inputs} {rs : List (BitVec 24 × Fate)} {ws : List (BitVec 24)}

/-- A cycle takes the words it commits to from those still to come. -/
def Next (s : State) (i : Inputs) (rs : List (BitVec 24 × Fate)) (ws : List (BitVec 24)) (n : Nat) :
    Prop :=
  ∃ n', Stage (step s i) (rs ++ asked s i) (ws ++ committed s i) n' ∧
    (asked s i = [] → n = (committed s i).length + n')

/-- The first word, from reset. -/
theorem Stage.step_boot {conf : BitVec 4} (hconf : conf = 0 ∨ conf = 1)
    (h : Shows s conf false false .idle) (hstate : s.lut.state = 0) (i : Inputs) :
    Next s i [] [] 6 := by
  have hnot : s.lut.confState ≠ 2 := by
    rw [h.confState]
    rcases hconf with rfl | rfl <;> decide
  have hcommit : committed s i = [] := h.committed_eq i
  have hstate' : (SpiConfig.step s i).lut.state = 0 := (lut_state h i).trans hstate
  rw [Next, asked_of_ne hnot, List.nil_append, hcommit]
  rcases hconf with rfl | rfl
  · obtain ⟨hc, hv⟩ := lut_boots (i := i) h.confState
    obtain ⟨next, hnext, h'⟩ := h.step i hc (hv.trans h.lutValid)
    obtain rfl : next = .idle := by simpa [nextSpots] using hnext
    exact ⟨_, .boot 1 (.inr rfl) h' hstate', by simp⟩
  · obtain ⟨w, hw⟩ : ∃ w, table[0]? = some w := ⟨_, rfl⟩
    obtain ⟨hc, hv, hshown⟩ := lut_shows (i := i) h.confState hstate hw
    obtain ⟨next, hnext, h'⟩ := h.step i hc hv
    obtain rfl : next = .idle := by simpa [nextSpots] using hnext
    exact ⟨_, .first h' hstate' (by rw [hshown, hw]), by simp⟩

/-- While an entry of the table has its turn. -/
theorem entry_step {k : Nat} {spot : Spot} {valid : Bool} (h : Shows s 1 true valid spot)
    (hstate : s.lut.state = BitVec.ofNat 10 k) (hshown : table[k]? = some (presented s))
    (i : Inputs) :
    asked s i = [] ∧ presented (step s i) = presented s ∧ held (step s i) = presented s ∧
      ∃ next ∈ nextSpots valid spot, Shows (step s i) 1 true true next := by
  have hnot : s.lut.confState ≠ 2 := by
    rw [h.confState]
    decide
  obtain ⟨hc, hv, hshown'⟩ := lut_shows (i := i) h.confState hstate hshown
  obtain ⟨next, hnext, h'⟩ := h.step i hc hv
  refine ⟨asked_of_ne hnot i, hshown', ?_, next, hnext, h'⟩
  rw [held_step, h.lutValid, if_pos rfl]

theorem Stage.step_first (h : Shows s 1 true false .idle) (hstate : s.lut.state = 0)
    (hshown : table[0]? = some (presented s)) (i : Inputs) :
    Next s i [] [] 6 := by
  obtain ⟨hreq, hshown', hheld, next, hnext, h'⟩ := entry_step h hstate hshown i
  obtain rfl : next = .idle := by simpa [nextSpots] using hnext
  have hcommit : committed s i = [] := h.committed_eq i
  rw [Next, hreq, List.nil_append, hcommit]
  exact ⟨_, .entry 0 .idle (.inl rfl) h' ((lut_state h i).trans hstate) (by rw [hshown', hshown])
    (by rw [hshown', hheld]), by simp⟩

theorem Stage.step_entry {k : Nat} {spot : Spot} (hspot : spot = .idle ∨ spot = .commits)
    (h : Shows s 1 true true spot) (hstate : s.lut.state = BitVec.ofNat 10 k)
    (hshown : table[k]? = some (presented s)) (hheld : held s = presented s) (i : Inputs) :
    Next s i [] (table.take k) (6 - k) := by
  obtain ⟨hreq, hshown', hheld', next, hnext, h'⟩ := entry_step h hstate hshown i
  have hcommit := h.committed_eq i
  have hstate' := lut_state h i
  have hshown'' : table[k]? = some (presented (SpiConfig.step s i)) := by rw [hshown', hshown]
  rcases hspot with rfl | rfl
  · obtain rfl : next = .commits := by simpa [nextSpots] using hnext
    rw [Next, hreq, List.nil_append, hcommit]
    rw [if_neg (by decide), List.append_nil]
    exact ⟨_, .entry k .commits (.inr rfl) h' (hstate'.trans hstate) hshown''
      (by rw [hshown', hheld']), by simp⟩
  · obtain rfl : next = .sending := by simpa [nextSpots] using hnext
    have htake : table.take k ++ [held s] = table.take (k + 1) := by
      rw [List.take_add_one, hshown, hheld]
      rfl
    have hk : k < 5 := (List.getElem?_eq_some_iff.1 hshown).1
    have hcount : 6 - k = [held s].length + (5 - k) := by
      rw [List.length_singleton]
      omega
    rw [Next, hreq, List.nil_append, hcommit, if_pos rfl, htake]
    exact ⟨_, .entrySent k .sending rfl h' (hstate'.trans hstate) hshown'', fun _ => hcount⟩

theorem Stage.step_entrySent {k : Nat} {spot : Spot} (hspot : spot.after = true)
    (h : Shows s 1 true true spot) (hstate : s.lut.state = BitVec.ofNat 10 k)
    (hshown : table[k]? = some (presented s)) (i : Inputs) :
    Next s i [] (table.take (k + 1)) (5 - k) := by
  obtain ⟨hreq, hshown', hheld', next, hnext, h'⟩ := entry_step h hstate hshown i
  have hcommit := h.committed_eq i
  have hstate' := lut_state h i
  have hshown'' : table[k]? = some (presented (SpiConfig.step s i)) := by rw [hshown', hshown]
  cases spot with
  | sending =>
      rw [Next, hreq, List.nil_append, hcommit, if_neg (by decide), List.append_nil]
      have hnext' : next.after = true := by
        have hcases : next = .sending ∨ next = .finished := by simpa [nextSpots] using hnext
        rcases hcases with rfl | rfl <;> rfl
      exact ⟨_, .entrySent k next hnext' h' (hstate'.trans hstate) hshown'', by simp⟩
  | finished =>
      obtain rfl : next = .resting := by simpa [nextSpots] using hnext
      rw [Next, hreq, List.nil_append, hcommit, if_neg (by decide), List.append_nil]
      refine ⟨_, .entryNext k h' ?_ hshown'', by simp⟩
      rw [hstate', if_pos rfl, hstate, BitVec.ofNat_add]
      rfl
  | _ => simp [Spot.after] at hspot

/-- The table goes on to its next entry, or has come to its end. -/
theorem Stage.step_entryNext {k : Nat} (h : Shows s 1 true true .resting)
    (hstate : s.lut.state = BitVec.ofNat 10 (k + 1)) (hshown : table[k]? = some (presented s))
    (i : Inputs) : Next s i [] (table.take (k + 1)) (5 - k) := by
  have hnot : s.lut.confState ≠ 2 := by
    rw [h.confState]
    decide
  have hcommit : committed s i = [] := h.committed_eq i
  have hstate' : (SpiConfig.step s i).lut.state = BitVec.ofNat 10 (k + 1) :=
    (lut_state h i).trans hstate
  have hk : k < 5 := (List.getElem?_eq_some_iff.1 hshown).1
  rw [Next, asked_of_ne hnot, List.nil_append, hcommit, List.append_nil]
  by_cases hmore : k + 1 < 5
  · obtain ⟨w, hw⟩ : ∃ w, table[k + 1]? = some w := ⟨_, List.getElem?_eq_getElem hmore⟩
    obtain ⟨hc, hv, hshown'⟩ := lut_shows (i := i) h.confState hstate hw
    obtain ⟨next, hnext, h'⟩ := h.step i hc hv
    obtain rfl : next = .ready := by simpa [nextSpots] using hnext
    exact ⟨_, .entryReady (k + 1) h' hstate' (by rw [hshown', hw]), by simp⟩
  · have hk4 : k = 4 := by omega
    subst hk4
    obtain ⟨hc, hv⟩ := lut_ends (i := i) h.confState hstate
    obtain ⟨next, hnext, h'⟩ := h.step i hc hv
    obtain rfl : next = .ready := by simpa [nextSpots] using hnext
    refine ⟨_, .last .ready rfl h' ?_, by simp⟩
    rw [held_step, h.lutValid, if_pos rfl]
    exact (Option.some.inj hshown).symm

theorem Stage.step_entryReady {k : Nat} (h : Shows s 1 true true .ready)
    (hstate : s.lut.state = BitVec.ofNat 10 k) (hshown : table[k]? = some (presented s))
    (i : Inputs) : Next s i [] (table.take k) (6 - k) := by
  obtain ⟨hreq, hshown', hheld', next, hnext, h'⟩ := entry_step h hstate hshown i
  obtain rfl : next = .idle := by simpa [nextSpots] using hnext
  have hcommit : committed s i = [] := h.committed_eq i
  rw [Next, hreq, List.nil_append, hcommit, List.append_nil]
  exact ⟨_, .entry k .idle (.inl rfl) h' ((lut_state h i).trans hstate) (by rw [hshown', hshown])
    (by rw [hshown', hheld']), by simp⟩

theorem Spot.after_of_sending {next : Spot} {valid : Bool} (h : next ∈ nextSpots valid .sending) :
    next.after = true := by
  have hcases : next = .sending ∨ next = .finished := by simpa [nextSpots] using h
  rcases hcases with rfl | rfl <;> rfl

/-- The second transfer command, and a request that comes before it has been sent. -/
theorem Stage.step_last {spot : Spot} (hspot : spot.before = true) (h : Shows s 2 false true spot)
    (hheld : held s = transfer) (i : Inputs) :
    Next s i [] table 1 := by
  have hcommit := h.committed_eq i
  have hkeep : held (SpiConfig.step s i) = transfer := by
    rw [held_step, h.lutValid]
    exact hheld
  cases hen : s.lut.confEnReg with
  | false =>
      obtain ⟨hc, hv, hreq⟩ := lut_waits h.confState hen i
      obtain ⟨next, hnext, h'⟩ := h.step i hc hv
      rw [Next, hreq, List.nil_append, hcommit]
      cases spot with
      | ready =>
          obtain rfl : next = .idle := by simpa [nextSpots] using hnext
          exact ⟨_, .last .idle rfl h' hkeep, by simp⟩
      | idle =>
          obtain rfl : next = .commits := by simpa [nextSpots] using hnext
          exact ⟨_, .last .commits rfl h' hkeep, by simp⟩
      | commits =>
          obtain rfl : next = .sending := by simpa [nextSpots] using hnext
          rw [if_pos rfl, hheld]
          exact ⟨_, .lastSent .sending rfl h', by simp⟩
      | _ => simp [Spot.before] at hspot
  | true =>
      obtain ⟨hc, hv, hreq⟩ := lut_asked h.confState hen i
      obtain ⟨next, hnext, h'⟩ := h.step i hc hv
      rw [h.fate_eq] at hreq
      rw [Next, hreq, List.nil_append, hcommit]
      cases spot with
      | ready =>
          -- Shown in `IDLE`, the request's word is loaded before the controller commits.
          obtain rfl : next = .idle := by simpa [nextSpots] using hnext
          exact ⟨_, .asked .idle (.inr (.inr rfl)) true h' (complete_replaces _), by simp⟩
      | idle =>
          -- Shown a cycle later, it finds the transfer command loaded.
          obtain rfl : next = .commits := by simpa [nextSpots] using hnext
          refine ⟨_, .askedCommits h' ?_, by simp⟩
          rw [hkeep]
          exact complete_overtaken _
      | commits =>
          -- This edge commits to the transfer command.
          obtain rfl : next = .sending := by simpa [nextSpots] using hnext
          rw [if_pos rfl, hheld]
          exact ⟨_, .askedSent .sending rfl h' (complete_overtaken _), by simp⟩
      | _ => simp [Spot.before] at hspot

theorem Stage.step_lastSent {spot : Spot} (hspot : spot.after = true)
    (h : Shows s 2 false true spot) (i : Inputs) :
    Next s i [] (table ++ [transfer]) 0 := by
  have hcommit : committed s i = [] := by
    rw [h.committed_eq i]
    cases spot <;> simp_all [Spot.after]
  rw [Next, hcommit, List.append_nil]
  cases hen : s.lut.confEnReg with
  | false =>
      obtain ⟨hc, hv, hreq⟩ := lut_waits h.confState hen i
      obtain ⟨next, hnext, h'⟩ := h.step i hc hv
      rw [hreq, List.nil_append]
      cases spot with
      | sending => exact ⟨_, .lastSent next (Spot.after_of_sending hnext) h', by simp⟩
      | finished =>
          obtain rfl : next = .resting := by simpa [nextSpots] using hnext
          exact ⟨_, .quiet .resting (.inl rfl) h' complete_nil, by simp⟩
      | _ => simp [Spot.after] at hspot
  | true =>
      obtain ⟨hc, hv, hreq⟩ := lut_asked h.confState hen i
      obtain ⟨next, hnext, h'⟩ := h.step i hc hv
      rw [h.fate_eq] at hreq
      rw [hreq, List.nil_append]
      cases spot with
      | sending =>
          refine ⟨_, .askedSent next (Spot.after_of_sending hnext) h' ?_, by simp⟩
          rw [List.append_assoc]
          exact complete_overtaken _
      | finished =>
          obtain rfl : next = .resting := by simpa [nextSpots] using hnext
          exact ⟨_, .asked .resting (.inl rfl) false h' (complete_nil.snoc _), by simp⟩
      | _ => simp [Spot.after] at hspot

theorem Stage.step_asked {spot : Spot} (hspot : spot = .resting ∨ spot = .ready ∨ spot = .idle)
    {valid : Bool} (h : Shows s 3 true valid spot)
    (hsent : Complete rs (ws ++ [presented s, transfer])) (i : Inputs) :
    Next s i rs ws 2 := by
  have hnot : s.lut.confState ≠ 2 := by
    rw [h.confState]
    decide
  have hmore : s.ctrl.done = false := by
    rw [h.spot.done_eq]
    rcases hspot with rfl | rfl | rfl <;> rfl
  have hcommit : committed s i = [] := by
    rw [h.committed_eq i]
    rcases hspot with rfl | rfl | rfl <;> rfl
  obtain ⟨hc, hv, hshown⟩ := lut_holds h.confState hmore i
  obtain ⟨next, hnext, h'⟩ := h.step i hc (hv.trans h.lutValid)
  have hheld : held (SpiConfig.step s i) = presented s := by
    rw [held_step, h.lutValid, if_pos rfl]
  rw [Next, asked_of_ne hnot, hcommit, List.append_nil, List.append_nil]
  rw [← hshown] at hsent
  rcases hspot with rfl | rfl | rfl
  · obtain rfl : next = .ready := by simpa [nextSpots] using hnext
    exact ⟨_, .asked .ready (.inr (.inl rfl)) true h' hsent, by simp⟩
  · obtain rfl : next = .idle := by simpa [nextSpots] using hnext
    exact ⟨_, .asked .idle (.inr (.inr rfl)) true h' hsent, by simp⟩
  · cases valid with
    | false =>
        obtain rfl : next = .idle := by simpa [nextSpots] using hnext
        exact ⟨_, .asked .idle (.inr (.inr rfl)) true h' hsent, by simp⟩
    | true =>
        obtain rfl : next = .commits := by simpa [nextSpots] using hnext
        rw [hshown, ← hheld] at hsent
        exact ⟨_, .askedCommits h' hsent, by simp⟩

theorem Stage.step_askedCommits (h : Shows s 3 true true .commits)
    (hsent : Complete rs (ws ++ [held s, transfer])) (i : Inputs) :
    Next s i rs ws 2 := by
  have hnot : s.lut.confState ≠ 2 := by
    rw [h.confState]
    decide
  obtain ⟨hc, hv, -⟩ := lut_holds h.confState h.spot.done_eq i
  obtain ⟨next, hnext, h'⟩ := h.step i hc (hv.trans h.lutValid)
  obtain rfl : next = .sending := by simpa [nextSpots] using hnext
  rw [Next, asked_of_ne hnot, h.committed_eq, if_pos rfl, List.append_nil]
  refine ⟨_, .askedSent .sending rfl h' ?_, by simp⟩
  simpa using hsent

theorem Stage.step_askedSent {spot : Spot} (hspot : spot.after = true)
    (h : Shows s 3 true true spot) (hsent : Complete rs (ws ++ [transfer])) (i : Inputs) :
    Next s i rs ws 1 := by
  have hnot : s.lut.confState ≠ 2 := by
    rw [h.confState]
    decide
  have hdone := h.spot.done_eq
  have hcommit := h.committed_eq i
  rw [Next, asked_of_ne hnot, hcommit]
  cases spot with
  | sending =>
      obtain ⟨hc, hv, -⟩ := lut_holds h.confState hdone i
      obtain ⟨next, hnext, h'⟩ := h.step i hc (hv.trans h.lutValid)
      rw [if_neg (by decide), List.append_nil, List.append_nil]
      exact ⟨_, .askedSent next (Spot.after_of_sending hnext) h' hsent, by simp⟩
  | finished =>
      obtain ⟨hc, hv, hshown⟩ := lut_transfers h.confState hdone i
      obtain ⟨next, hnext, h'⟩ := h.step i hc hv
      obtain rfl : next = .resting := by simpa [nextSpots] using hnext
      rw [if_neg (by decide), List.append_nil, List.append_nil]
      exact ⟨_, .closing h' hshown hsent, by simp⟩
  | _ => simp [Spot.after] at hspot

theorem Stage.step_closing (h : Shows s 4 true true .resting) (hshown : presented s = transfer)
    (hsent : Complete rs (ws ++ [transfer])) (i : Inputs) :
    Next s i rs ws 1 := by
  have hnot : s.lut.confState ≠ 2 := by
    rw [h.confState]
    decide
  have hmore : s.ctrl.done = false := h.spot.done_eq
  obtain ⟨hc, hv⟩ := lut_closes h.confState i
  rw [hmore] at hc
  obtain ⟨next, hnext, h'⟩ := h.step i hc hv
  obtain rfl : next = .ready := by simpa [nextSpots] using hnext
  rw [Next, asked_of_ne hnot, h.committed_eq, if_neg (by decide), List.append_nil, List.append_nil]
  refine ⟨_, .closingHeld .ready rfl h' ?_ hsent, by simp⟩
  rw [held_step, h.lutValid, if_pos rfl, hshown]

theorem Stage.step_closingHeld {spot : Spot} (hspot : spot.before = true)
    (h : Shows s 4 false true spot) (hheld : held s = transfer)
    (hsent : Complete rs (ws ++ [transfer])) (i : Inputs) :
    Next s i rs ws 1 := by
  have hnot : s.lut.confState ≠ 2 := by
    rw [h.confState]
    decide
  have hmore : s.ctrl.done = false := by
    rw [h.spot.done_eq]
    cases spot <;> simp_all [Spot.before]
  have hcommit := h.committed_eq i
  obtain ⟨hc, hv⟩ := lut_closes h.confState i
  rw [hmore] at hc
  obtain ⟨next, hnext, h'⟩ := h.step i hc hv
  have hkeep : held (SpiConfig.step s i) = transfer := by
    rw [held_step, h.lutValid]
    exact hheld
  rw [Next, asked_of_ne hnot, hcommit, List.append_nil]
  cases spot with
  | ready =>
      obtain rfl : next = .idle := by simpa [nextSpots] using hnext
      rw [if_neg (by decide), List.append_nil]
      exact ⟨_, .closingHeld .idle rfl h' hkeep hsent, by simp⟩
  | idle =>
      obtain rfl : next = .commits := by simpa [nextSpots] using hnext
      rw [if_neg (by decide), List.append_nil]
      exact ⟨_, .closingHeld .commits rfl h' hkeep hsent, by simp⟩
  | commits =>
      obtain rfl : next = .sending := by simpa [nextSpots] using hnext
      rw [if_pos rfl, hheld]
      exact ⟨_, .closingSent .sending rfl h' hsent, by simp⟩
  | _ => simp [Spot.before] at hspot

theorem Stage.step_closingSent {spot : Spot} (hspot : spot.after = true)
    (h : Shows s 4 false true spot) (hsent : Complete rs ws) (i : Inputs) :
    Next s i rs ws 0 := by
  have hnot : s.lut.confState ≠ 2 := by
    rw [h.confState]
    decide
  have hdone := h.spot.done_eq
  have hcommit := h.committed_eq i
  obtain ⟨hc, hv⟩ := lut_closes h.confState i
  rw [Next, asked_of_ne hnot, hcommit]
  rw [hdone] at hc
  cases spot with
  | sending =>
      obtain ⟨next, hnext, h'⟩ := h.step i hc hv
      rw [if_neg (by decide), List.append_nil, List.append_nil]
      exact ⟨_, .closingSent next (Spot.after_of_sending hnext) h' hsent, by simp⟩
  | finished =>
      obtain ⟨next, hnext, h'⟩ := h.step i hc hv
      obtain rfl : next = .resting := by simpa [nextSpots] using hnext
      rw [if_neg (by decide), List.append_nil, List.append_nil]
      exact ⟨_, .quiet .resting (.inl rfl) h' hsent, by simp⟩
  | _ => simp [Spot.after] at hspot

theorem Stage.step_quiet {spot : Spot} (hspot : spot = .resting ∨ spot = .ready ∨ spot = .idle)
    (h : Shows s 2 false false spot) (hsent : Complete rs ws) (i : Inputs) :
    Next s i rs ws 0 := by
  have hcommit : committed s i = [] := by
    rw [h.committed_eq i]
    rcases hspot with rfl | rfl | rfl <;> rfl
  have hnextSpot : ∀ next ∈ nextSpots false spot, next = .ready ∨ next = .idle := by
    rcases hspot with rfl | rfl | rfl <;> simp [nextSpots]
  rw [Next, hcommit, List.append_nil]
  cases hen : s.lut.confEnReg with
  | false =>
      obtain ⟨hc, hv, hreq⟩ := lut_waits h.confState hen i
      obtain ⟨next, hnext, h'⟩ := h.step i hc hv
      rw [hreq, List.append_nil]
      exact ⟨_, .quiet next (.inr (hnextSpot next hnext)) h' hsent, by simp⟩
  | true =>
      obtain ⟨hc, hv, hreq⟩ := lut_asked h.confState hen i
      obtain ⟨next, hnext, h'⟩ := h.step i hc hv
      rw [h.fate_eq] at hreq
      rw [hreq]
      exact ⟨_, .asked next (.inr (hnextSpot next hnext)) _ h' (hsent.snoc _), by simp⟩

theorem Stage.step {n : Nat} (h : Stage s rs ws n) (i : Inputs) : Next s i rs ws n := by
  cases h with
  | boot conf hconf h hstate => exact step_boot hconf h hstate i
  | first h hstate hshown => exact step_first h hstate hshown i
  | entry k spot hspot h hstate hshown hheld => exact step_entry hspot h hstate hshown hheld i
  | entrySent k spot hspot h hstate hshown => exact step_entrySent hspot h hstate hshown i
  | entryNext k h hstate hshown => exact step_entryNext h hstate hshown i
  | entryReady k h hstate hshown => exact step_entryReady h hstate hshown i
  | last spot hspot h hheld => exact step_last hspot h hheld i
  | lastSent spot hspot h => exact step_lastSent hspot h i
  | asked spot hspot valid h hsent => exact step_asked hspot h hsent i
  | askedCommits h hsent => exact step_askedCommits h hsent i
  | askedSent spot hspot h hsent => exact step_askedSent hspot h hsent i
  | closing h hshown hsent => exact step_closing h hshown hsent i
  | closingHeld spot hspot h hheld hsent => exact step_closingHeld hspot h hheld hsent i
  | closingSent spot hspot h hsent => exact step_closingSent hspot h hsent i
  | quiet spot hspot h hsent => exact step_quiet hspot h hsent i

/-- When a request with this fate is taken: after these requests, and with these words committed to. -/
def Taken (s : State) (f : Fate) (rs : List (BitVec 24 × Fate)) (ws : List (BitVec 24)) : Prop :=
  match f with
  | .served => ws = sequence rs
  | .replaces => rs = [] ∧ ws = table ∧ s.ctrl.waitCnt = 2
  | .overtaken => rs = [] ∧ (ws = table ∨ ws = table ++ [transfer])

theorem Stage.taken {n : Nat} (h : Stage s rs ws n) (i : Inputs) :
    ∀ a ∈ SpiConfig.asked s i, Taken s a.2 rs ws := by
  intro a ha
  have hfate : a.2 = fate s := by
    obtain ⟨r, -, rfl⟩ := List.mem_map.1 ha
    rfl
  have hconf : s.lut.confState = 2 := by
    by_contra hnot
    rw [asked_of_ne hnot] at ha
    cases ha
  rw [hfate]
  cases h with
  | boot conf hconf' h =>
      rw [h.confState] at hconf
      rcases hconf' with rfl | rfl <;> cases hconf
  | first h | entry k spot _ h | entrySent k spot _ h | entryNext k h | entryReady k h
  | asked spot _ valid h | askedCommits h | askedSent spot _ h | closing h _
  | closingHeld spot _ h | closingSent spot _ h =>
      rw [h.confState] at hconf
      cases hconf
  | last spot hspot h =>
      rw [h.fate_eq]
      cases spot with
      | ready => exact ⟨rfl, rfl, h.spot.2.2⟩
      | idle | commits => exact ⟨rfl, .inl rfl⟩
      | _ => simp [Spot.before] at hspot
  | lastSent spot hspot h =>
      rw [h.fate_eq]
      cases spot with
      | sending => exact ⟨rfl, .inr rfl⟩
      | finished => exact rfl
      | _ => simp [Spot.after] at hspot
  | quiet spot _ h hsent =>
      rw [h.fate_eq]
      exact hsent.words

end Stages

end SpiConfig
end Fpga
end Sdr
