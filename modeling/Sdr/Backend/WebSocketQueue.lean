import Sdr.Backend.Broadcast

/-!
# WebSocketQueue — the loop that passes a queue on to a WebSocket

Model of `SdrAsgiApp._ws_queue_loop`.  Every round waits for two tasks at once, the next item of the
queue and the next message of the client.  Both may be done when the loop goes on, and it looks at the
message first: the item has left the queue and the round ends without it.  `delivered_iff` says that
these rounds are the only ones that lose an item.
-/

namespace Sdr
namespace Backend

open Lib

universe u v

/-- What the loop reads of a message. -/
structure WsMessage where
  type : String
  deriving DecidableEq, Repr

def WsMessage.isDisconnect (message : WsMessage) : Bool :=
  message.type == "websocket.disconnect"

/-- A `websocket.send` event: `text` with what `json.dumps` makes of the item, or `bytes`. -/
inductive WsSend (α : Type u) (δ : Type v)
  | text (dumped : δ)
  | bytes (item : α)
  deriving DecidableEq, Repr

/-- Where the loop is.  While it waits, a task that is done has its result here. -/
inductive WsPhase (α : Type u)
  | waiting (queueTask : Option α) (receiveTask : Option WsMessage)
  | sending
  | returned
  | raised
  deriving DecidableEq, Repr

/-- The loop and its queue, with the items its tasks have taken out so far and what was passed to
`send`. -/
structure WsQueueLoop (α : Type u) (δ : Type v) where
  queue : AsyncQueue α
  phase : WsPhase α
  removed : List α
  sent : List (WsSend α δ)
  deriving DecidableEq, Repr

/-- What can happen next: an item is published, a task of the round is done, the loop goes on from
`asyncio.wait`, or `send` is done. -/
inductive WsEvent (α : Type u)
  | publish (item : α)
  | queueTaskDone
  | receiveTaskDone (message : WsMessage)
  | resume
  | sendDone (ok : Bool)
  deriving DecidableEq, Repr

namespace WsQueueLoop

variable {α : Type u} {δ : Type v}

/-- The first round, on a queue of the broadcaster. -/
def start (queue : AsyncQueue α) : WsQueueLoop α δ where
  queue := queue
  phase := .waiting none none
  removed := []
  sent := []

section Step

variable (jsonMessages : Bool) (dumps : α → δ)

def frame (item : α) : WsSend α δ :=
  if jsonMessages then .text (dumps item) else .bytes item

def step (s : WsQueueLoop α δ) : WsEvent α → WsQueueLoop α δ
  | .publish item =>
    match s.queue.offer item with
    | .ok (queue, _) => { s with queue := queue }
    | .error _ => s
  | .queueTaskDone =>
    match s.phase, s.queue.getNowait with
    | .waiting none message, .ok (item, queue) =>
      { s with
        queue := queue
        phase := .waiting (some item) message
        removed := s.removed ++ [item] }
    | _, _ => s
  | .receiveTaskDone message =>
    match s.phase with
    | .waiting item none => { s with phase := .waiting item (some message) }
    | _ => s
  | .resume =>
    -- A task that is still pending is cancelled, which takes nothing out of the queue.
    match s.phase with
    | .waiting _ (some message) =>
      -- `continue`: the result of `queue_task` is not looked at.
      if message.isDisconnect then { s with phase := .returned }
      else { s with phase := .waiting none none }
    | .waiting (some item) none =>
      { s with phase := .sending, sent := s.sent ++ [frame jsonMessages dumps item] }
    | _ => s
  | .sendDone ok =>
    match s.phase with
    | .sending => { s with phase := if ok then .waiting none none else .raised }
    | _ => s

/-- The item that the round's task has taken out and that is not passed on yet. -/
def taken (s : WsQueueLoop α δ) : List α :=
  match s.phase with
  | .waiting item _ => item.toList
  | _ => []

/-- A disconnect message has arrived. -/
def disconnected (s : WsQueueLoop α δ) : Bool :=
  match s.phase with
  | .waiting _ (some message) => message.isDisconnect
  | .returned => true
  | _ => false

/-- Until a disconnect arrives, the items taken out of the queue were passed to `send`, each once and
in their order, but for the one of the present round. -/
def Delivered (s : WsQueueLoop α δ) : Prop :=
  s.disconnected = false →
    s.sent ++ s.taken.map (frame jsonMessages dumps) = s.removed.map (frame jsonMessages dumps)

end Step

/-- The loop does not go on with both tasks done and a message that is no disconnect. -/
def KeepsItem (s : WsQueueLoop α δ) (e : WsEvent α) : Prop :=
  ∀ item message, e = .resume → s.phase = .waiting (some item) (some message) →
    message.isDisconnect = true

section Runs

variable {jsonMessages : Bool} {dumps : α → δ} {s : WsQueueLoop α δ}

theorem keepsItem_of_ne {e : WsEvent α} (he : e ≠ .resume) : s.KeepsItem e :=
  fun _ _ hresume => absurd hresume he

theorem delivered_publish (h : s.Delivered jsonMessages dumps) (item : α) :
    (s.step jsonMessages dumps (.publish item)).Delivered jsonMessages dumps := by
  unfold step
  dsimp only
  split
  · exact h
  · exact h

/-- The item leaves the queue and is that of the round. -/
theorem delivered_queueTaskDone (h : s.Delivered jsonMessages dumps) :
    (s.step jsonMessages dumps .queueTaskDone).Delivered jsonMessages dumps := by
  unfold step
  dsimp only
  split
  · next message item queue hphase _ =>
      intro hconnected
      have hstill : s.disconnected = false := by
        cases message with
        | none =>
            simp [disconnected, hphase]
        | some message =>
            simpa [disconnected, hphase] using hconnected
      have hbefore := h hstill
      simp only [taken, hphase, Option.toList_none, List.map_nil, List.append_nil] at hbefore
      simp [taken, hbefore]
  · exact h

theorem delivered_receiveTaskDone (h : s.Delivered jsonMessages dumps) (message : WsMessage) :
    (s.step jsonMessages dumps (.receiveTaskDone message)).Delivered jsonMessages dumps := by
  unfold step
  dsimp only
  split
  · next item hphase =>
      intro _
      have hbefore := h (by simp [disconnected, hphase])
      simpa [taken, hphase] using hbefore
  · exact h

theorem delivered_sendDone (h : s.Delivered jsonMessages dumps) (ok : Bool) :
    (s.step jsonMessages dumps (.sendDone ok)).Delivered jsonMessages dumps := by
  unfold step
  dsimp only
  split
  · next hphase =>
      intro _
      have hbefore := h (by simp [disconnected, hphase])
      cases ok <;> simpa [taken, hphase] using hbefore
  · exact h

/-- Going on from `asyncio.wait` passes on the item of the round, unless there is a message to look
at. -/
theorem delivered_resume_iff (h : s.Delivered jsonMessages dumps) :
    (s.step jsonMessages dumps .resume).Delivered jsonMessages dumps ↔ s.KeepsItem .resume := by
  rcases s with ⟨queue, phase, removed, sent⟩
  cases phase with
  | waiting item message =>
      cases message with
      | none =>
          refine iff_of_true ?_ ?_
          · cases item with
            | none =>
                exact h
            | some item =>
                intro _
                have hbefore := h rfl
                simpa [step, taken] using hbefore
          · intro _ _ _ hphase
            cases hphase
      | some message =>
          cases hleaves : message.isDisconnect with
          | true =>
              refine iff_of_true ?_ ?_
              · simp [step, hleaves, Delivered, disconnected]
              · intro _ _ _ hphase
                cases hphase
                exact hleaves
          | false =>
              have hbefore := h hleaves
              cases item with
              | none =>
                  refine iff_of_true ?_ ?_
                  · simpa [step, hleaves, Delivered, disconnected, taken] using hbefore
                  · intro _ _ _ hphase
                    cases hphase
              | some item =>
                  -- The item is among those taken out and is forgotten here.
                  refine iff_of_false ?_ ?_
                  · simp only [step, hleaves, Delivered, disconnected, taken, Bool.false_eq_true,
                      if_false, forall_const, Option.toList_none, List.map_nil, List.append_nil]
                    intro hafter
                    have hlength := congrArg List.length (hbefore.trans hafter.symm)
                    simp [taken] at hlength
                  · intro hkeeps
                    have hdisconnect := hkeeps item message rfl rfl
                    rw [hleaves] at hdisconnect
                    cases hdisconnect
  | sending | returned | raised =>
      refine iff_of_true h ?_
      intro _ _ _ hphase
      cases hphase

theorem delivered_step_iff (h : s.Delivered jsonMessages dumps) (e : WsEvent α) :
    (s.step jsonMessages dumps e).Delivered jsonMessages dumps ↔ s.KeepsItem e := by
  cases e with
  | publish item =>
      exact iff_of_true (delivered_publish h item) (keepsItem_of_ne nofun)
  | queueTaskDone =>
      exact iff_of_true (delivered_queueTaskDone h) (keepsItem_of_ne nofun)
  | receiveTaskDone message =>
      exact iff_of_true (delivered_receiveTaskDone h message) (keepsItem_of_ne nofun)
  | resume =>
      exact delivered_resume_iff h
  | sendDone ok =>
      exact iff_of_true (delivered_sendDone h ok) (keepsItem_of_ne nofun)

end Runs

/-- Through every interleaving of published items, messages and the loop's own steps, the client is
sent what the loop takes out of its queue exactly when no round ends with both tasks done and a message
that is no disconnect. -/
theorem delivered_iff (jsonMessages : Bool) (dumps : α → δ) (queue : AsyncQueue α)
    (events : List (WsEvent α)) :
    (∀ done, done <+: events →
        (runFrom (step jsonMessages dumps) (start queue) done).Delivered jsonMessages dumps) ↔
      Along (step jsonMessages dumps) KeepsItem (start queue) events :=
  forall_prefix_iff_along (P := Delivered jsonMessages dumps)
    (fun _ e h => delivered_step_iff h e) (fun _ => rfl) events

/-- The client says something while the first of two items is being taken out. -/
def spokenOver : List (WsEvent Nat) :=
  [.publish 1, .queueTaskDone, .receiveTaskDone ⟨"websocket.receive"⟩, .resume, .publish 2,
    .queueTaskDone, .resume]

/-- The second item is sent and the first is not. -/
theorem spokenOver_not_delivered :
    let s : WsQueueLoop Nat Nat :=
      runFrom (step false id) (start { maxsize := 16, items := [] }) spokenOver
    s.disconnected = false ∧ s.removed = [1, 2] ∧ s.sent = [.bytes 2] ∧ ¬ s.Delivered false id := by
  refine ⟨by decide, by decide, by decide, ?_⟩
  intro h
  exact absurd (h (by decide)) (by decide)

end WsQueueLoop

end Backend
end Sdr
