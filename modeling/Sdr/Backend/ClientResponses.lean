import Sdr.Backend.DeviceClient
import Mathlib.Data.List.Nodup

/-!
# ClientResponses — a response is credited to its own request

Answers to requests that have timed out stay in the stream, and readers are exchanged under running
requests, so `request` may well read a line that is not meant for it.  Its id tells: ids are given out
under the lock and never again, whatever becomes of the connection.
-/

namespace Sdr
namespace Backend

open Lib Protocol

namespace Pc

/-- The line that a request has written and waits to have answered. -/
def inFlight : Pc → Option Sent
  | .draining _ sent => some sent
  | .reading _ sent _ => some sent
  | _ => none

end Pc

namespace DeviceClient

variable {T : PyTables} {config : ClientConfig}

/-! ## What a task leaves of the exchange with the device -/

/-- A task goes to where it has no request in flight; lines, ids and the lock stay. -/
structure LeavesExchange (task : Nat) (s s' : DeviceClient) : Prop where
  lock : s'.lock = s.lock
  requestId : s'.requestId = s.requestId
  sent : s'.sent = s.sent
  inbox : s'.inbox = s.inbox
  returned : s'.returned = s.returned
  self : (s'.tasks task).inFlight = none
  others : ∀ t sent, (s'.tasks t).inFlight = some sent → s'.tasks t = s.tasks t

section Leaves

variable (s : DeviceClient) (task : Nat)

theorem leaves_setTask {pc : Pc} (hpc : pc.inFlight = none) :
    LeavesExchange task s (s.setTask task pc) where
  lock := rfl
  requestId := rfl
  sent := rfl
  inbox := rfl
  returned := rfl
  self := by simp [setTask, hpc]
  others := by
    intro t sent h
    by_cases ht : t = task
    · subst ht
      simp [setTask, hpc] at h
    · simp [setTask, Function.update_of_ne ht]

theorem leaves_afterClose (caller : CloseCaller) :
    LeavesExchange task s (s.afterClose task caller) := by
  cases caller with
  | connect => exact leaves_setTask s task rfl
  | user | failedConnect | heartbeat => exact leaves_setTask s task rfl

/-- Fields that the exchange does not depend on may be set before. -/
theorem LeavesExchange.of_eq {s₁ s' : DeviceClient} (h : LeavesExchange task s₁ s')
    (hlock : s₁.lock = s.lock) (hid : s₁.requestId = s.requestId) (hsent : s₁.sent = s.sent)
    (hinbox : s₁.inbox = s.inbox) (hreturned : s₁.returned = s.returned)
    (htasks : s₁.tasks = s.tasks) : LeavesExchange task s s' where
  lock := h.lock.trans hlock
  requestId := h.requestId.trans hid
  sent := h.sent.trans hsent
  inbox := h.inbox.trans hinbox
  returned := h.returned.trans hreturned
  self := h.self
  others := htasks ▸ h.others

theorem LeavesExchange.trans {s s₁ s₂ : DeviceClient} (task : Nat) {task' : Nat}
    (h₁ : LeavesExchange task s s₁) (h₂ : LeavesExchange task' s₁ s₂) :
    LeavesExchange task s s₂ where
  lock := h₂.lock.trans h₁.lock
  requestId := h₂.requestId.trans h₁.requestId
  sent := h₂.sent.trans h₁.sent
  inbox := h₂.inbox.trans h₁.inbox
  returned := h₂.returned.trans h₁.returned
  self := by
    cases hself : (s₂.tasks task).inFlight with
    | none => rfl
    | some sent =>
        rw [h₂.others task sent hself, h₁.self] at hself
        cases hself
  others := by
    intro t sent h
    have ht := h₂.others t sent h
    rw [ht] at h
    exact ht.trans (h₁.others t sent h)

theorem leaves_clearWriter (caller : CloseCaller) :
    LeavesExchange task s (s.clearWriter task caller) :=
  (leaves_afterClose _ task caller).of_eq s task rfl rfl rfl rfl rfl rfl

theorem leaves_closeWriter (caller : CloseCaller) :
    LeavesExchange task s (s.closeWriter task caller) := by
  unfold closeWriter
  split
  · exact (leaves_setTask _ task rfl).of_eq s task rfl rfl rfl rfl rfl rfl
  · exact leaves_clearWriter s task caller

theorem leaves_close (caller : CloseCaller) : LeavesExchange task s (s.close task caller) := by
  unfold close
  split
  · dsimp only
    split
    · exact (leaves_closeWriter _ task caller).of_eq s task rfl rfl rfl rfl rfl rfl
    · exact (leaves_setTask _ task rfl).of_eq s task rfl rfl rfl rfl rfl rfl
  · exact leaves_closeWriter s task caller

theorem leaves_requestRaised (caller : RequestCaller) :
    LeavesExchange task s (s.requestRaised task caller) := by
  cases caller with
  | user => exact leaves_setTask s task rfl
  | connect => exact leaves_close s task _
  | heartbeat => exact leaves_close s task _

theorem leaves_request (caller : RequestCaller) (cmd : String) (fields : PyDict) :
    LeavesExchange task s (s.request task caller cmd fields) := by
  unfold request
  split
  · exact leaves_requestRaised s task caller
  · exact leaves_setTask s task rfl

theorem leaves_requestReturned (caller : RequestCaller) :
    LeavesExchange task s (s.requestReturned task caller) := by
  cases caller with
  | user => exact leaves_setTask s task rfl
  | heartbeat => exact leaves_setTask s task rfl
  | connect =>
      have hended : LeavesExchange task s (s.setTask task .ended) := leaves_setTask s task rfl
      have hstarted : LeavesExchange s.started (s.setTask task .ended)
          ((s.setTask task .ended).setTask s.started .sleeping) := leaves_setTask _ s.started rfl
      exact ⟨rfl, rfl, rfl, rfl, rfl, (hended.trans task hstarted).self,
        (hended.trans task hstarted).others⟩

end Leaves

/-! ## The invariant -/

/-- A line in the inbox is what the device says it is. -/
def Honest (T : PyTables) (sent : List Sent) (line : Received) : Prop :=
  match line.answers with
  | some request => request ∈ sent ∧ echoes T request.requestId line.data = true
  | none => hasNoId T line.data = true

theorem Honest.mono {sent sent' : List Sent} {line : Received} (h : Honest T sent line)
    (hsub : sent ⊆ sent') : Honest T sent' line := by
  unfold Honest at h ⊢
  cases hanswers : line.answers with
  | none =>
      rw [hanswers] at h
      exact h
  | some request =>
      rw [hanswers] at h
      exact ⟨hsub h.1, h.2⟩

structure Exchange (T : PyTables) (s : DeviceClient) : Prop where
  ids : s.sent.Pairwise fun a b => a.requestId < b.requestId
  bound : ∀ sent ∈ s.sent, sent.requestId ≤ s.requestId
  inbox : ∀ conn, ∀ line ∈ s.inbox conn, Honest T s.sent line
  /-- The request in flight is the newest, and it is alone. -/
  inFlight : ∀ task sent, (s.tasks task).inFlight = some sent →
    s.lock = some task ∧ sent ∈ s.sent ∧ sent.requestId = s.requestId ∧
      ∀ r ∈ s.returned, r.1.requestId < s.requestId
  returned : ∀ r ∈ s.returned, r.1 ∈ s.sent ∧ r.2.answers = some r.1
  order : s.returned.Pairwise fun a b => a.1.requestId < b.1.requestId

theorem Exchange.sent_eq {s : DeviceClient} (h : Exchange T s) {a b : Sent} (ha : a ∈ s.sent)
    (hb : b ∈ s.sent) (hid : a.requestId = b.requestId) : a = b := by
  have hnodup : (s.sent.map Sent.requestId).Nodup :=
    List.pairwise_map.2 (h.ids.imp (fun hlt => Nat.ne_of_lt hlt))
  exact List.inj_on_of_nodup_map hnodup ha hb hid

/-- Lines may be taken from the inbox, and requests may stop being in flight. -/
theorem Exchange.frame {s s' : DeviceClient} (h : Exchange T s) (hid : s'.requestId = s.requestId)
    (hsent : s'.sent = s.sent) (hreturned : s'.returned = s.returned)
    (hinbox : ∀ conn line, line ∈ s'.inbox conn → line ∈ s.inbox conn)
    (hinFlight : ∀ task sent, (s'.tasks task).inFlight = some sent →
      (s.tasks task).inFlight = some sent ∧ s'.lock = s.lock) : Exchange T s' where
  ids := hsent ▸ h.ids
  bound := by
    rw [hsent, hid]
    exact h.bound
  inbox := by
    intro conn line hline
    rw [hsent]
    exact h.inbox conn line (hinbox conn line hline)
  inFlight := by
    intro task sent hin
    rcases hinFlight task sent hin with ⟨hin, hlock⟩
    rw [hlock, hsent, hid, hreturned]
    exact h.inFlight task sent hin
  returned := by
    rw [hsent, hreturned]
    exact h.returned
  order := hreturned ▸ h.order

theorem Exchange.leaves {s s' : DeviceClient} {task : Nat} (h : Exchange T s)
    (hleaves : LeavesExchange task s s') : Exchange T s' :=
  h.frame hleaves.requestId hleaves.sent hleaves.returned
    (fun conn line hline => by rwa [hleaves.inbox] at hline)
    (fun t sent hin => ⟨hleaves.others t sent hin ▸ hin, hleaves.lock⟩)

/-- When the request in flight ends, none is left. -/
theorem Exchange.none_inFlight {s s' : DeviceClient} {task : Nat} {sent : Sent} (h : Exchange T s)
    (hin : (s.tasks task).inFlight = some sent) (hself : (s'.tasks task).inFlight = none)
    (hothers : ∀ t x, (s'.tasks t).inFlight = some x → s'.tasks t = s.tasks t) (t : Nat)
    (x : Sent) : (s'.tasks t).inFlight ≠ some x := by
  intro hx
  have hlock := (h.inFlight task sent hin).1
  have hlock' := (h.inFlight t x (hothers t x hx ▸ hx)).1
  have ht : t = task := Option.some.inj (hlock'.symm.trans hlock)
  rw [ht, hself] at hx
  cases hx

/-- A request that raises gives the lock back. -/
theorem Exchange.raised {s s' : DeviceClient} {task : Nat} {sent : Sent} (h : Exchange T s)
    (hin : (s.tasks task).inFlight = some sent)
    (hleaves : LeavesExchange task { s with lock := none } s') : Exchange T s' :=
  h.frame hleaves.requestId hleaves.sent hleaves.returned
    (fun conn line hline => by rwa [hleaves.inbox] at hline)
    (fun t x hx => absurd hx (h.none_inFlight hin hleaves.self hleaves.others t x))

/-! ## Steps -/

/-- A line that passes the checks is the answer to the request that reads it. -/
theorem Exchange.answers_of_accepts {s : DeviceClient} (h : Exchange T s) {sent : Sent}
    (hsent : sent ∈ s.sent) {line : Received} (hline : Honest T s.sent line)
    (haccepts : accepts T sent.requestId line.data = true) : line.answers = some sent := by
  unfold accepts at haccepts
  cases hdecode : decodeJsonLine T line.data with
  | none =>
      rw [hdecode] at haccepts
      cases haccepts
  | some response =>
      rw [hdecode] at haccepts
      simp only [Bool.and_eq_true] at haccepts
      unfold Honest at hline
      cases hanswers : line.answers with
      | none =>
          -- Without an id the comparison fails.
          rw [hanswers] at hline
          simp only [hasNoId, hdecode, Option.isNone_iff_eq_none] at hline
          rw [PyDict.getD, hline] at haccepts
          cases haccepts.1
      | some request =>
          rw [hanswers] at hline
          rcases hline with ⟨hmem, hechoes⟩
          simp only [echoes, hdecode, beq_iff_eq] at hechoes
          rw [PyDict.getD, hechoes] at haccepts
          have hid : (request.requestId : Int) = sent.requestId := by
            simpa [pyEqInt] using haccepts.1
          rw [h.sent_eq hmem hsent (Int.ofNat.inj hid)]

theorem exchange_write {s : DeviceClient} (h : Exchange T s) (hlock : s.lock = none) (task : Nat)
    (caller : RequestCaller) (cmd : String) (fields : PyDict) :
    Exchange T (s.write T task caller cmd fields) := by
  have hnone : ∀ t sent, (s.tasks t).inFlight ≠ some sent := by
    intro t sent hin
    have hheld := (h.inFlight t sent hin).1
    rw [hlock] at hheld
    cases hheld
  have hbefore : ∀ sent ∈ s.sent, sent.requestId < s.requestId + 1 :=
    fun sent hsent => Nat.lt_succ_of_le (h.bound sent hsent)
  -- The id is used up in any case.
  have hnext : Exchange T { s with requestId := s.requestId + 1 } :=
    ⟨h.ids, fun sent hsent => Nat.le_of_lt (hbefore sent hsent), h.inbox,
      fun t sent hin => absurd hin (hnone t sent), h.returned, h.order⟩
  unfold write
  dsimp only
  split
  · exact hnext.leaves (leaves_requestRaised _ task caller)
  · split
    · exact hnext.leaves (leaves_requestRaised _ task caller)
    · refine ⟨?_, ?_, ?_, ?_, ?_, h.order⟩
      · refine List.pairwise_append.2 ⟨h.ids, List.pairwise_singleton _ _, ?_⟩
        intro a ha b hb
        rw [List.mem_singleton.1 hb]
        exact hbefore a ha
      · intro sent hsent
        rcases List.mem_append.1 hsent with hsent | hsent
        · exact Nat.le_of_lt (hbefore sent hsent)
        · rw [List.mem_singleton.1 hsent]
          exact Nat.le_refl _
      · intro conn line hline
        exact (h.inbox conn line hline).mono (List.subset_append_left _ _)
      · intro t sent hin
        by_cases ht : t = task
        · subst ht
          have hsent := hin
          simp only [setTask, Function.update_self, Pc.inFlight, Option.some.injEq] at hsent
          subst hsent
          refine ⟨rfl, by simp [setTask], rfl, ?_⟩
          intro r hr
          exact hbefore r.1 (h.returned r hr).1
        · simp only [setTask, Function.update_of_ne ht] at hin
          exact absurd hin (hnone t sent)
      · intro r hr
        exact ⟨List.mem_append_left _ (h.returned r hr).1, (h.returned r hr).2⟩

theorem exchange_receive {s : DeviceClient} (h : Exchange T s) {task : Nat} {caller : RequestCaller}
    {sent : Sent} {conn : Nat} (hpc : s.tasks task = .reading caller sent conn) :
    Exchange T (s.receive T task caller sent conn) := by
  have hin : (s.tasks task).inFlight = some sent := by rw [hpc]; rfl
  unfold receive
  split
  · exact h
  · next line rest hinbox =>
      have hrest : ∀ c l, l ∈ Function.update s.inbox conn rest c → l ∈ s.inbox c := by
        intro c l hl
        by_cases hc : c = conn
        · subst hc
          rw [Function.update_self] at hl
          rw [hinbox]
          exact List.mem_cons_of_mem line hl
        · rwa [Function.update_of_ne hc] at hl
      dsimp only
      split
      · next haccepts =>
          rcases h.inFlight task sent hin with ⟨_, hsent, hid, hbefore⟩
          have hline : Honest T s.sent line := h.inbox conn line (hinbox ▸ List.mem_cons_self)
          have hanswers := h.answers_of_accepts hsent hline haccepts
          have hleaves := leaves_requestReturned
            { s with
              inbox := Function.update s.inbox conn rest
              lock := none
              returned := s.returned ++ [(sent, line)] } task caller
          refine ⟨?_, ?_, ?_, ?_, ?_, ?_⟩
          · rw [hleaves.sent]
            exact h.ids
          · rw [hleaves.sent, hleaves.requestId]
            exact h.bound
          · intro c l hl
            rw [hleaves.inbox] at hl
            rw [hleaves.sent]
            exact h.inbox c l (hrest c l hl)
          · intro t x hx
            exact absurd hx (h.none_inFlight hin hleaves.self hleaves.others t x)
          · intro r hr
            rw [hleaves.returned] at hr
            rw [hleaves.sent]
            rcases List.mem_append.1 hr with hr | hr
            · exact h.returned r hr
            · rw [List.mem_singleton.1 hr]
              exact ⟨hsent, hanswers⟩
          · rw [hleaves.returned]
            refine List.pairwise_append.2 ⟨h.order, List.pairwise_singleton _ _, ?_⟩
            intro r hr r' hr'
            rw [List.mem_singleton.1 hr', hid]
            exact hbefore r hr
      · have hleaves := leaves_requestRaised
          { s with inbox := Function.update s.inbox conn rest, lock := none } task caller
        refine h.frame hleaves.requestId hleaves.sent hleaves.returned ?_ ?_
        · intro c l hl
          rw [hleaves.inbox] at hl
          exact hrest c l hl
        · intro t x hx
          exact absurd hx (h.none_inFlight hin hleaves.self hleaves.others t x)

theorem exchange_read {s : DeviceClient} (h : Exchange T s) {task : Nat} {caller : RequestCaller}
    {sent : Sent} (hpc : s.tasks task = .draining caller sent) :
    Exchange T (s.read task caller sent) := by
  have hin : (s.tasks task).inFlight = some sent := by rw [hpc]; rfl
  unfold read
  split
  · exact h.raised hin (leaves_requestRaised _ task caller)
  · refine h.frame rfl rfl rfl (fun _ _ hline => hline) ?_
    intro t x hx
    refine ⟨?_, rfl⟩
    by_cases ht : t = task
    · subst ht
      rw [hin]
      simpa [setTask, Pc.inFlight] using hx
    · simpa [setTask, Function.update_of_ne ht] using hx

theorem exchange_resume {s : DeviceClient} (h : Exchange T s) (task : Nat) (outcome : Outcome) :
    Exchange T (s.resume T config task outcome) := by
  cases hpc : s.tasks task with
  | ended =>
      cases outcome with
      | completes | raises => simpa [resume, hpc] using h
      | cancelled => simpa [resume, hpc] using h.leaves (leaves_setTask s task rfl)
  | joining caller heartbeat =>
      cases outcome with
      | completes =>
          simp only [resume, hpc]
          split
          · exact h.leaves (leaves_closeWriter s task caller)
          · exact h
      | raises => simpa [resume, hpc] using h.leaves (leaves_setTask s task rfl)
      | cancelled => simpa [resume, hpc] using h.leaves (leaves_closeWriter s task caller)
  | closing caller =>
      cases outcome with
      | completes | raises =>
          simpa [resume, hpc] using h.leaves (leaves_clearWriter s task caller)
      | cancelled => simpa [resume, hpc] using h.leaves (leaves_setTask s task rfl)
  | opening =>
      cases outcome with
      | completes =>
          simp only [resume, hpc, store]
          exact h.leaves ((leaves_request _ task _ _ _).of_eq s task rfl rfl rfl rfl rfl rfl)
      | raises => simpa [resume, hpc] using h.leaves (leaves_close s task _)
      | cancelled => simpa [resume, hpc] using h.leaves (leaves_setTask s task rfl)
  | locking caller cmd fields =>
      cases outcome with
      | completes =>
          simp only [resume, hpc]
          split
          · next hlock =>
              exact exchange_write h (Option.isNone_iff_eq_none.1 hlock) task caller cmd fields
          · exact h
      | raises => simpa [resume, hpc] using h
      | cancelled => simpa [resume, hpc] using h.leaves (leaves_setTask s task rfl)
  | draining caller sent =>
      have hin : (s.tasks task).inFlight = some sent := by rw [hpc]; rfl
      cases outcome with
      | completes => simpa [resume, hpc] using exchange_read h hpc
      | raises => simpa [resume, hpc] using h.raised hin (leaves_requestRaised _ task caller)
      | cancelled => simpa [resume, hpc] using h.raised hin (leaves_setTask _ task rfl)
  | reading caller sent conn =>
      have hin : (s.tasks task).inFlight = some sent := by rw [hpc]; rfl
      cases outcome with
      | completes => simpa [resume, hpc] using exchange_receive h hpc
      | raises => simpa [resume, hpc] using h.raised hin (leaves_requestRaised _ task caller)
      | cancelled => simpa [resume, hpc] using h.raised hin (leaves_setTask _ task rfl)
  | sleeping =>
      cases outcome with
      | completes =>
          simp only [resume, hpc, beat]
          split
          · exact h.leaves (leaves_request s task _ _ _)
          · exact h
      | raises => simpa [resume, hpc] using h
      | cancelled => simpa [resume, hpc] using h.leaves (leaves_setTask s task rfl)

theorem exchange_arrive {s : DeviceClient} (h : Exchange T s) (conn : Nat) {line : Received}
    (hline : Honest T s.sent line) : Exchange T (s.arrive conn line) := by
  refine ⟨h.ids, h.bound, ?_, h.inFlight, h.returned, h.order⟩
  intro c l hl
  by_cases hc : c = conn
  · subst hc
    simp only [arrive, Function.update_self, List.mem_append, List.mem_singleton] at hl
    rcases hl with hl | rfl
    · exact h.inbox c l hl
    · exact hline
  · simp only [arrive, Function.update_of_ne hc] at hl
    exact h.inbox c l hl

theorem exchange_step {s : DeviceClient} (h : Exchange T s) (e : Event) :
    Exchange T (s.step T config e) := by
  cases e with
  | connect | close =>
      exact h.leaves ((leaves_close _ s.started _).of_eq s s.started rfl rfl rfl rfl rfl rfl)
  | request cmd fields =>
      exact h.leaves ((leaves_request _ s.started _ _ _).of_eq s s.started rfl rfl rfl rfl rfl rfl)
  | resume task outcome => exact exchange_resume h task outcome
  | answer sent data =>
      simp only [step]
      split
      · next hanswer => exact exchange_arrive h sent.conn ⟨hanswer.1, hanswer.2⟩
      · exact h
  | push conn data =>
      simp only [step]
      split
      · next hpush => exact exchange_arrive h conn hpush.2
      · exact h
  | lose conn =>
      simp only [step]
      split
      · exact h.frame rfl rfl rfl (fun _ _ hline => hline) (fun _ _ hin => ⟨hin, rfl⟩)
      · exact h

theorem exchange_init : Exchange T {} := by
  have hnone (task : Nat) (sent : Sent) :
      (({} : DeviceClient).tasks task).inFlight ≠ some sent := nofun
  exact ⟨List.Pairwise.nil, by simp, by simp, fun task sent hin => absurd hin (hnone task sent),
    by simp, List.Pairwise.nil⟩

theorem exchange_run (es : List Event) : Exchange T (run T config es) :=
  runFrom_inductive (I := Exchange T) (fun _ e hs => exchange_step hs e) exchange_init es

/-- Every response that a request returns is the device's answer to the line that this request wrote,
and no response is returned twice. -/
theorem responses_credited (T : PyTables) (config : ClientConfig) (es : List Event) :
    (∀ r ∈ (run T config es).returned,
        r.1 ∈ (run T config es).sent ∧ r.2.answers = some r.1) ∧
      ((run T config es).returned.map fun r => r.2.answers).Nodup := by
  have h : Exchange T (run T config es) := exchange_run es
  refine ⟨h.returned, List.pairwise_map.2 (h.order.imp_of_mem ?_)⟩
  intro r r' hr hr' hlt heq
  rw [(h.returned r hr).2, (h.returned r' hr').2, Option.some.injEq] at heq
  rw [heq] at hlt
  exact Nat.lt_irrefl _ hlt

end DeviceClient

end Backend
end Sdr
