import Sdr.Backend.Runtime
import Sdr.Backend.PsdLossy
import Sdr.Simulator.Server

/-!
# PsdStop — whether a stopped waterfall stays stopped

`stop_all` and a `set_psd` with `enable` false leave `enable` and `enabled` false in the state that
the user interface shows, and drop the segments of unfinished frames.  Two things can undo that
without anyone switching the waterfall on again:

* `_handle_psd` reports `enabled` for every frame it completes, whoever asked for it: eight segments
  that were still queued when the answer came make such a frame;
* `set_psd` takes both fields over from the device, and keeps `enabled` as it was when the device
  does not mention it.

`Quiet` says of a step that it is neither.
-/

namespace Sdr
namespace Backend
namespace BackendRuntime

open Lib Lib.Struct Protocol
open Config (AppConfig)
open PsdReassembler (Complete Spaced)

universe u

/-! ## Stops -/

/-- Both fields are there and false. -/
def Stopped (s : BackendRuntime) : Prop :=
  ∀ key ∈ ["enable", "enabled"], s.psd.get? key = some (.bool false)

instance (s : BackendRuntime) : Decidable s.Stopped :=
  inferInstanceAs (Decidable (∀ key ∈ _, _))

/-- The command is a stop: `stop_all`, or `set_psd` with `enable` false. -/
def IsStop : Call → Prop
  | .stopAll => True
  | .setPsd defaults => enableOf defaults = false

/-- The event is a call of `set_psd` with `enable` true. -/
def Event.Enables (config : AppConfig) : Event → Prop
  | .setPsd fields => enableOf (psdDefaults config fields) = true
  | _ => False

/-- The segment completes its frame, and `ingest` gets to return it. -/
def Completes (s : BackendRuntime) (header : SdrPsdHeader) (payload : List Byte) : Prop :=
  Complete (s.psdReassembler.received header payload) header.segmentCount ∧ Spaced header

instance (s : BackendRuntime) (header : SdrPsdHeader) (payload : List Byte) :
    Decidable (s.Completes header payload) :=
  inferInstanceAs (Decidable (_ ∧ _))

/-- Each of the two fields is false in the answer, or is missing there and was false before. -/
def ReportsStopped (s : BackendRuntime) (defaults response : PyDict) : Prop :=
  ∀ applied, response.getD "applied" (.dict defaults) = .dict applied →
    ∀ key ∈ ["enable", "enabled"],
      (PyDict.get? applied key).or (s.psd.get? key) = some (.bool false)

instance (s : BackendRuntime) (defaults response : PyDict) :
    Decidable (s.ReportsStopped defaults response) :=
  match happlied : response.getD "applied" (.dict defaults) with
  | .dict applied =>
      decidable_of_iff
        (∀ key ∈ ["enable", "enabled"],
          (PyDict.get? applied key).or (s.psd.get? key) = some (.bool false))
        (by simp [ReportsStopped, happlied])
  | .none | .bool _ | .int _ | .float _ | .str _ | .list _ =>
      isTrue (by simp [ReportsStopped, happlied])

/-- No frame is completed, and no answer to a stop reports anything else. -/
def Quiet (s : BackendRuntime) : Event → Prop
  | .handlePsd header payload => ¬s.Completes header payload
  | .answered response => ∀ defaults rest, s.pending = .setPsd defaults :: rest →
      enableOf defaults = false → s.ReportsStopped defaults response
  | _ => True

instance (s : BackendRuntime) (e : Event) : Decidable (s.Quiet e) :=
  match e with
  | .handlePsd header payload => inferInstanceAs (Decidable (¬s.Completes header payload))
  | .answered response =>
      match hpending : s.pending with
      | .setPsd defaults :: _ =>
          decidable_of_iff (enableOf defaults = false → s.ReportsStopped defaults response)
            (by simp [Quiet, hpending])
      | [] | .stopAll :: _ => isTrue (by simp [Quiet, hpending])
  | .stopAll | .setPsd _ | .raised _ => isTrue trivial

/-- Every command that waits is a stop. -/
def OnlyStops (s : BackendRuntime) : Prop :=
  ∀ call ∈ s.pending, IsStop call

section Steps

variable {F : Type u} [PyFloat F] {config : AppConfig} {s : BackendRuntime}

/-! ## What the steps do to the commands that wait -/

theorem handlePsd_pending (header : SdrPsdHeader) (payload : List Byte) :
    (s.handlePsd F header payload).1.pending = s.pending := by
  unfold handlePsd
  split
  · rfl
  · rfl

theorem answered_pending (response : PyDict) :
    (s.answered response).1.pending = s.pending.tail := by
  unfold answered
  cases hpending : s.pending with
  | nil =>
      exact hpending
  | cons call rest =>
      cases call with
      | stopAll =>
          rfl
      | setPsd defaults =>
          simp only [resume, setPsdAnswered, List.tail_cons]
          split
          · split_ifs
            · rfl
            · rfl
          · rfl

theorem OnlyStops.step {e : Event} (h : s.OnlyStops) (he : ¬e.Enables config) :
    (s.step F config e).OnlyStops := by
  cases e with
  | handlePsd header payload =>
      intro call hcall
      exact h call (handlePsd_pending (F := F) header payload ▸ hcall)
  | stopAll =>
      intro call hcall
      rcases List.mem_append.1 hcall with hcall | hcall
      · exact h call hcall
      · rw [List.mem_singleton.1 hcall]
        trivial
  | setPsd fields =>
      intro call hcall
      simp only [BackendRuntime.step, BackendRuntime.setPsd] at hcall
      split_ifs at hcall
      · exact h call hcall
      · rcases List.mem_append.1 hcall with hcall | hcall
        · exact h call hcall
        · rw [List.mem_singleton.1 hcall]
          exact Bool.eq_false_iff.2 he
  | answered response =>
      intro call hcall
      rw [BackendRuntime.step, answered_pending] at hcall
      exact h call (List.mem_of_mem_tail hcall)
  | raised index =>
      intro call hcall
      exact h call (List.mem_of_mem_eraseIdx hcall)

/-! ## What the steps do to the two fields -/

theorem Stopped.of_psd_eq {s' : BackendRuntime} (h : s.Stopped) (hpsd : s'.psd = s.psd) :
    s'.Stopped := by
  intro key hkey
  rw [hpsd]
  exact h key hkey

theorem handlePsd_of_completes {header : SdrPsdHeader} {payload : List Byte}
    (h : s.Completes header payload) :
    (s.handlePsd F header payload).1.psd.get? "enabled" = some (.bool true) := by
  rcases PsdReassembler.ingest_frame (F := F) h.1 h.2 with ⟨frame, hframe⟩
  have hpair : s.psdReassembler.ingest (F := F) header payload =
      ((s.psdReassembler.ingest (F := F) header payload).1, .ok (some frame)) :=
    Prod.ext rfl hframe
  rw [handlePsd, hpair]
  simp [get?_fieldsOf]

theorem handlePsd_of_not_completes {header : SdrPsdHeader} {payload : List Byte}
    (h : ¬s.Completes header payload) : (s.handlePsd F header payload).1.psd = s.psd := by
  -- Without a frame, `ingest` has returned nothing or has raised.
  have hnone : ∀ frame, (s.psdReassembler.ingest (F := F) header payload).2 ≠ .ok (some frame) := by
    intro frame heq
    by_cases hcomplete : Complete (s.psdReassembler.received header payload) header.segmentCount
    · have hspaced : ¬Spaced header := fun hspaced => h ⟨hcomplete, hspaced⟩
      rw [PsdReassembler.ingest_raises hcomplete hspaced] at heq
      exact absurd heq (by simp)
    · rw [PsdReassembler.ingest_incomplete hcomplete] at heq
      exact absurd heq (by simp)
  unfold handlePsd
  split
  case h_1 r frame heq =>
      exact absurd (congrArg Prod.snd heq) (hnone frame)
  case h_2 =>
      rfl

/-- A refused `set_psd` reports a stopped waterfall, one that waits leaves the report alone. -/
theorem Stopped.setPsd (h : s.Stopped) (fields : PyDict) : (s.setPsd config fields).1.Stopped := by
  simp only [BackendRuntime.setPsd]
  split_ifs
  · intro key hkey
    simp only [List.mem_cons, List.not_mem_nil, or_false] at hkey
    rcases hkey with rfl | rfl
    · simp [psdUnsupported, get?_fieldsOf]
    · simp [psdUnsupported, get?_fieldsOf, List.lookup_cons]
  · exact h.of_psd_eq rfl

theorem stopped_stopAllAnswered (s : BackendRuntime) (response : PyDict) :
    (s.stopAllAnswered response).1.Stopped := by
  intro key hkey
  simp only [List.mem_cons, List.not_mem_nil, or_false] at hkey
  rcases hkey with rfl | rfl
  · simp [stopAllAnswered, get?_fieldsOf]
  · simp [stopAllAnswered, get?_fieldsOf, List.lookup_cons]

/-- A `set_psd` that returns has taken the fields over from the answer. -/
theorem stopped_setPsdAnswered_iff {defaults response : PyDict}
    (hreturns : (s.setPsdAnswered defaults response).2.isSome = true) :
    (s.setPsdAnswered defaults response).1.Stopped ↔ s.ReportsStopped defaults response := by
  unfold setPsdAnswered at hreturns ⊢
  unfold ReportsStopped
  cases happlied : response.getD "applied" (.dict defaults) with
  | dict applied =>
      -- Whether the buffers are dropped does not show in the two fields.
      have hpsd : ∀ s' : BackendRuntime, s'.psd = s.psd.update applied →
          (s'.Stopped ↔ ∀ key ∈ ["enable", "enabled"],
            (PyDict.get? applied key).or (s.psd.get? key) = some (.bool false)) := by
        intro s' hs'
        simp only [Stopped, hs', PyDict.get?_update]
      simp only [PyValue.dict.injEq, forall_eq']
      split_ifs
      · exact hpsd _ rfl
      · exact hpsd _ rfl
  | _ =>
      rw [happlied] at hreturns
      exact absurd hreturns (by simp)

theorem stopped_answered_iff {response : PyDict} {call : Call} {rest : List Call}
    (hpending : s.pending = call :: rest) (hstop : IsStop call)
    (hreturns : (s.answered response).2.isSome = true) :
    (s.answered response).1.Stopped ↔ s.Quiet (.answered response) := by
  rw [answered, hpending] at hreturns ⊢
  cases call with
  | stopAll =>
      refine iff_of_true (stopped_stopAllAnswered _ response) ?_
      intro defaults rest' heq
      exact absurd (hpending.symm.trans heq) (by simp)
  | setPsd defaults =>
      refine (stopped_setPsdAnswered_iff hreturns).trans ?_
      constructor
      · intro h defaults' rest' heq _
        cases hpending.symm.trans heq
        exact h
      · intro h
        exact h defaults rest hpending hstop

/-- A command that raises on its answer leaves the report alone. -/
theorem answered_psd_of_raises {response : PyDict} (h : (s.answered response).2 = none) :
    (s.answered response).1.psd = s.psd := by
  unfold answered at h ⊢
  cases hpending : s.pending with
  | nil =>
      rfl
  | cons call rest =>
      rw [hpending] at h
      cases call with
      | stopAll =>
          exact absurd h (by simp [resume, stopAllAnswered])
      | setPsd defaults =>
          simp only [resume, setPsdAnswered] at h ⊢
          cases happlied : response.getD "applied" (.dict defaults) with
          | dict applied =>
              rw [happlied] at h
              simp only at h
              split_ifs at h
          | _ =>
              rfl

/-- An answer that makes a command raise says nothing about the two fields. -/
theorem quiet_of_raises {response : PyDict} (h : (s.answered response).2 = none) :
    s.Quiet (.answered response) := by
  intro defaults rest hpending _ applied happlied
  rw [answered, hpending] at h
  simp only [resume, setPsdAnswered, happlied] at h
  split_ifs at h

/-- From a stopped waterfall, with nothing but stops under way. -/
theorem stopped_step_iff (e : Event) (h : s.Stopped) (hstops : s.OnlyStops) :
    (s.step F config e).Stopped ↔ s.Quiet e := by
  cases e with
  | handlePsd header payload =>
      constructor
      · intro hnext hcompletes
        have hfalse := hnext "enabled" (by simp)
        have htrue := handlePsd_of_completes (F := F) hcompletes
        exact absurd (htrue.symm.trans hfalse) (by simp)
      · intro hquiet
        exact h.of_psd_eq (handlePsd_of_not_completes hquiet)
  | stopAll =>
      exact iff_of_true (h.of_psd_eq rfl) trivial
  | setPsd fields =>
      exact iff_of_true (h.setPsd fields) trivial
  | answered response =>
      cases hreturns : (s.answered response).2 with
      | none =>
          exact iff_of_true (h.of_psd_eq (answered_psd_of_raises hreturns))
            (quiet_of_raises hreturns)
      | some result =>
          cases hpending : s.pending with
          | nil =>
              rw [answered, hpending] at hreturns
              exact absurd hreturns (by simp)
          | cons call rest =>
              exact stopped_answered_iff hpending (hstops call (by simp [hpending]))
                (by simp [hreturns])
  | raised index =>
      exact iff_of_true (h.of_psd_eq rfl) trivial

end Steps

/-! ## Runs -/

/-- The oldest of the waiting commands is a stop and returns, and no `set_psd` with `enable` true was
made after it: none waits behind it and none is among the events that follow.  Then both fields are
false from its return on exactly when its answer and all that follows is quiet. -/
theorem stays_stopped_iff_quiet (F : Type u) [PyFloat F] (config : AppConfig) (es : List Event)
    {call : Call} {rest : List Call} (hpending : (run F config es).pending = call :: rest)
    (hstop : IsStop call) (hrest : ∀ later ∈ rest, IsStop later) {response : PyDict}
    (hreturns : ((run F config es).answered response).2.isSome = true) {after : List Event}
    (hafter : ∀ e ∈ after, ¬e.Enables config) :
    (∀ done, done <+: after → (run F config (es ++ .answered response :: done)).Stopped) ↔
      Along (step F config) Quiet (run F config es) (.answered response :: after) := by
  have hrun : ∀ done, run F config (es ++ .answered response :: done) =
      runFrom (step F config) ((run F config es).answered response).1 done := by
    intro done
    rw [run, runFrom_append, runFrom_cons]
    rfl
  have hfirst := stopped_answered_iff hpending hstop hreturns
  have honly : ((run F config es).answered response).1.OnlyStops := by
    intro later hlater
    rw [answered_pending, hpending] at hlater
    exact hrest later hlater
  have hadmitted : Along (step F config) (fun s _ => s.OnlyStops)
      ((run F config es).answered response).1 after :=
    along_invariant (C := fun _ e => ¬e.Enables config) (fun s e h he => h.step he) honly
      (along_of_forall (fun _ e he => hafter e he))
  have hiff := fun hs => forall_prefix_iff_along_of_admitted
    (fun _ e h hstops => stopped_step_iff e h hstops) hs hadmitted
  simp only [hrun]
  constructor
  · intro h
    have hs := h [] (List.nil_prefix)
    exact ⟨hfirst.1 hs, (hiff hs).1 h⟩
  · intro h
    exact (hiff (hfirst.2 h.1)).2 h.2

/-! ## Answers of the fake device -/

theorem get?_buildRequest (requestId : Int) (cmd : String) (fields : PyDict) {key : String}
    (hid : key ≠ "request_id") (hcmd : key ≠ "cmd") :
    PyDict.get? (buildRequest requestId cmd fields) key = fields.get? key := by
  have hkey : ∀ name, key ≠ name → (py key == py name) = false := by
    intro name hne
    exact beq_eq_false_iff_ne.2 (fun heq => hne (py_inj.1 heq))
  simp [buildRequest, PyDict.get?, List.lookup_cons, hkey _ hid, hkey _ hcmd]

/-- The fake device answers a stop with both fields false, in every state of either side. -/
theorem reportsStopped_cmdSetPsd (T : PyTables) (server : Simulator.FakeAc920Server)
    (requestId : Int) {defaults : PyDict} (hstop : enableOf defaults = false) (s : BackendRuntime) :
    ∃ response, (Simulator.cmdSetPsd T server (.int requestId)
        (buildRequest requestId "set_psd" defaults)).2 = .ok response ∧
      s.ReportsStopped defaults response := by
  -- A missing `enable` would count as true, so it is there.
  have henable : ∃ value, PyDict.get? defaults "enable" = some value ∧ pyBool value = false := by
    unfold enableOf PyDict.getD at hstop
    cases hvalue : PyDict.get? defaults "enable" with
    | none =>
        rw [hvalue] at hstop
        exact absurd hstop (by decide)
    | some value =>
        rw [hvalue] at hstop
        exact ⟨value, rfl, hstop⟩
  rcases henable with ⟨value, hvalue, hfalse⟩
  have hasked : pyBool (PyDict.getD (buildRequest requestId "set_psd" defaults) "enable"
      (PyDict.getD (buildRequest requestId "set_psd" defaults) "enabled" (.bool false))) = false := by
    rw [PyDict.getD, get?_buildRequest _ _ _ (by decide) (by decide), hvalue]
    exact hfalse
  have hfields : PyDict.getD (buildResponse (some (.int requestId)) true
      [("applied", .dict (fieldsOf (Simulator.psdFields server.psd.config false)))]) "applied"
        (.dict defaults) = .dict (fieldsOf (Simulator.psdFields server.psd.config false)) := by
    rw [buildResponse_some, PyDict.getD, get?_fieldsOf]
    simp [List.lookup_cons]
  refine ⟨_, by simp only [Simulator.cmdSetPsd, hasked]; rfl, ?_⟩
  intro applied happlied key hkey
  rw [hfields, PyValue.dict.injEq] at happlied
  rw [← happlied, get?_fieldsOf]
  simp only [List.mem_cons, List.not_mem_nil, or_false] at hkey
  rcases hkey with rfl | rfl
  · simp [Simulator.psdFields, List.lookup_cons]
  · simp [Simulator.psdFields, List.lookup_cons]

/-! ## A frame that was under way -/

/-- The answer to `stop_all`. -/
def stopAnswer : PyDict :=
  buildResponse (some (.int 3)) true []

/-- What the device sends for segment `index` of frame 5. -/
def segment (index : Nat) : Event :=
  .handlePsd
    { frameSeq := 5
      startFrequencyHz := 500000
      stopFrequencyHz := 108000000
      binSpacingMillihz := 26245117
      fftSize := 16384
      totalBins := 4096
      segmentIndex := index
      segmentCount := 8
      binStart := 512 * index
      binCount := 512
      payloadBytes := 1024 }
    (List.replicate 1024 0)

theorem not_enables_of_mem_segments {config : AppConfig} {indices : List Nat} {e : Event}
    (he : e ∈ indices.map segment) : ¬e.Enables config := by
  rcases List.mem_map.1 he with ⟨index, _, rfl⟩
  exact id

/-- The waterfall is switched on, and `stop_all` is called when `n` segments of the frame are in. -/
def stoppedAfter (n : Nat) : List Event :=
  [.setPsd [], .answered (buildResponse (some (.int 2)) true
      [("applied", .dict (fieldsOf (Simulator.psdFields {} true)))])] ++
    (List.range n).map segment ++ [.stopAll]

/-- Segments of a frame whose first ones came before the stop do no harm: the stop has dropped
those. -/
theorem stays_stopped_iff_quiet_splitFrame :
    (run Rat {} (stoppedAfter 3)).pending = [.stopAll] ∧
      (run Rat {}
        (stoppedAfter 3 ++ .answered stopAnswer :: [3, 4, 5, 6, 7].map segment)).Stopped := by
  have hpending : (run Rat {} (stoppedAfter 3)).pending = [.stopAll] := by decide +kernel
  have hquiet : Along (step Rat {}) Quiet (run Rat {} (stoppedAfter 3))
      (.answered stopAnswer :: [3, 4, 5, 6, 7].map segment) := by
    decide +kernel
  refine ⟨hpending, ?_⟩
  exact (stays_stopped_iff_quiet Rat {} (stoppedAfter 3) hpending trivial (by simp)
    (by decide +kernel) (fun _ he => not_enables_of_mem_segments he)).2 hquiet _ List.prefix_rfl

/-- All eight segments are queued when the answer comes: they make a frame. -/
theorem not_stays_stopped_queuedFrame :
    ¬∀ (config : AppConfig) (es : List Event) (call : Call) (rest : List Call),
      (run Rat config es).pending = call :: rest → IsStop call → (∀ later ∈ rest, IsStop later) →
      ∀ response : PyDict, ((run Rat config es).answered response).2.isSome = true →
      ∀ after : List Event, (∀ e ∈ after, ¬e.Enables config) →
      ∀ done, done <+: after → (run Rat config (es ++ .answered response :: done)).Stopped := by
  intro hall
  have hstopped := hall {} (stoppedAfter 0) .stopAll [] (by decide +kernel) trivial (by simp)
    stopAnswer (by decide +kernel) ((List.range 8).map segment)
    (fun _ he => not_enables_of_mem_segments he) _ List.prefix_rfl "enabled" (by simp)
  have henabled : (run Rat {} (stoppedAfter 0 ++ .answered stopAnswer ::
      (List.range 8).map segment)).psd.get? "enabled" = some (.bool true) := by
    decide +kernel
  exact absurd (henabled.symm.trans hstopped) (by simp)

end BackendRuntime
end Backend
end Sdr
