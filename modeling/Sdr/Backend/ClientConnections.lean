import Sdr.Backend.ClientResponses

/-!
# ClientConnections — which connections the client has open

`connect` closes the connection there is and stores a new one, with `await`s in between, and `close` clears
the fields only after it has waited for the transport.  Whatever another task has stored in the meantime
is lost to both.  The runs in which no task stores or clears over an open writer, and none stores while a
request is between its write and its read, are safe (`connections_kept_of_safe_steps`).
-/

namespace Sdr
namespace Backend

open Lib Protocol

namespace DeviceClient

/-! ## The property and the condition -/

/-- Every connection that was opened is the current one or has been closed. -/
def NoLeak (s : DeviceClient) : Prop :=
  ∀ conn < s.opened, s.writer = some conn ∨ s.isClosing conn = true

/-- A request that reads does so from the connection it has written to. -/
def NoCross (s : DeviceClient) : Prop :=
  ∀ task caller sent conn, s.tasks task = .reading caller sent conn → conn = sent.conn

structure ConnectionsKept (s : DeviceClient) : Prop where
  noLeak : NoLeak s
  noCross : NoCross s

/-- There is no writer, or it is closing. -/
def WriterReleased (s : DeviceClient) : Prop :=
  ∀ conn ∈ s.writer, s.isClosing conn = true

/-- No request is between its write and its read. -/
def NoneDraining (s : DeviceClient) : Prop :=
  ∀ task ∈ s.lock, ∀ caller sent, s.tasks task ≠ .draining caller sent

def isDraining : Pc → Bool
  | .draining _ _ => true
  | _ => false

theorem isDraining_eq_false {pc : Pc} :
    isDraining pc = false ↔ ∀ caller sent, pc ≠ .draining caller sent := by
  cases pc
  all_goals simp [isDraining]

instance (s : DeviceClient) : Decidable (WriterReleased s) :=
  inferInstanceAs (Decidable (∀ conn ∈ s.writer, s.isClosing conn = true))

instance (s : DeviceClient) : Decidable (NoneDraining s) :=
  decidable_of_iff (∀ task ∈ s.lock, isDraining (s.tasks task) = false)
    (by simp only [NoneDraining, isDraining_eq_false])

/-- The event makes `connect` store the connection it has opened. -/
def stores (s : DeviceClient) : Event → Bool
  | .resume task .completes => s.tasks task == .opening
  | _ => false

/-- The event makes `close` clear the fields after its wait. -/
def clears (s : DeviceClient) : Event → Bool
  | .resume task .completes | .resume task .raises =>
    match s.tasks task with
    | .closing _ => true
    | _ => false
  | _ => false

/-- Connections are stored and fields cleared over a released writer, and none is stored under a request
that drains. -/
def SafeStep (s : DeviceClient) (e : Event) : Prop :=
  (stores s e = true → WriterReleased s ∧ NoneDraining s) ∧ (clears s e = true → WriterReleased s)

instance (s : DeviceClient) (e : Event) : Decidable (SafeStep s e) :=
  inferInstanceAs (Decidable ((_ → _) ∧ (_ → _)))

variable {T : PyTables} {config : ClientConfig}

/-! ## What a task leaves of the connections -/

/-- The current connection stays, and what is closed stays closed. -/
structure LeavesConnections (s s' : DeviceClient) : Prop where
  opened : s'.opened = s.opened
  writer : s'.writer = s.writer
  paired : s.reader = s.writer → s'.reader = s'.writer
  isClosing : ∀ conn, s.isClosing conn = true → s'.isClosing conn = true

section Leaves

variable (s : DeviceClient) (task : Nat)

theorem keeps_setTask (pc : Pc) : LeavesConnections s (s.setTask task pc) :=
  ⟨rfl, rfl, id, fun _ => id⟩

theorem LeavesConnections.of_eq {s₁ s' : DeviceClient} (h : LeavesConnections s₁ s')
    (hopened : s₁.opened = s.opened) (hwriter : s₁.writer = s.writer) (hreader : s₁.reader = s.reader)
    (hclosing : s₁.isClosing = s.isClosing) : LeavesConnections s s' where
  opened := h.opened.trans hopened
  writer := h.writer.trans hwriter
  paired := by
    rw [← hreader, ← hwriter]
    exact h.paired
  isClosing := hclosing ▸ h.isClosing

theorem closed_update (conn : Nat) {c : Nat} (hc : s.isClosing c = true) :
    Function.update s.isClosing conn true c = true := by
  by_cases heq : c = conn
  · rw [heq, Function.update_self]
  · rwa [Function.update_of_ne heq]

theorem keeps_closeWriter (caller : CloseCaller) :
    LeavesConnections s (s.closeWriter task caller) := by
  unfold closeWriter
  split
  · exact ⟨rfl, rfl, id, fun _ => closed_update s _⟩
  · next hwriter =>
      unfold clearWriter
      cases caller with
      | connect | user | failedConnect | heartbeat =>
          exact ⟨rfl, hwriter.symm, fun _ => rfl, fun _ => id⟩

theorem keeps_close (caller : CloseCaller) : LeavesConnections s (s.close task caller) := by
  unfold close
  split
  · dsimp only
    split
    · exact (keeps_closeWriter _ task caller).of_eq s rfl rfl rfl rfl
    · exact (keeps_setTask _ task _).of_eq s rfl rfl rfl rfl
  · exact keeps_closeWriter s task caller

theorem keeps_requestRaised (caller : RequestCaller) :
    LeavesConnections s (s.requestRaised task caller) := by
  cases caller with
  | user => exact keeps_setTask s task _
  | connect | heartbeat => exact keeps_close s task _

theorem keeps_request (caller : RequestCaller) (cmd : String) (fields : PyDict) :
    LeavesConnections s (s.request task caller cmd fields) := by
  unfold request
  split
  · exact keeps_requestRaised s task caller
  · exact keeps_setTask s task _

theorem keeps_requestReturned (caller : RequestCaller) :
    LeavesConnections s (s.requestReturned task caller) := by
  cases caller with
  | user | connect | heartbeat => exact ⟨rfl, rfl, id, fun _ => id⟩

end Leaves

/-! ## The invariant -/

structure Kept (s : DeviceClient) : Prop extends ConnectionsKept s where
  paired : s.reader = s.writer
  /-- The reader that a request will look up after its drain. -/
  draining : ∀ task caller sent, s.tasks task = .draining caller sent →
    ∀ conn ∈ s.reader, conn = sent.conn

theorem Kept.frame {s s' : DeviceClient} (h : Kept s) (hleaves : LeavesConnections s s')
    (hothers : ∀ t sent, (s'.tasks t).inFlight = some sent → s'.tasks t = s.tasks t) : Kept s' where
  noLeak := by
    intro conn hconn
    rw [hleaves.opened] at hconn
    rw [hleaves.writer]
    exact (h.noLeak conn hconn).imp_right (hleaves.isClosing conn)
  noCross := by
    intro t caller sent conn hpc
    have ht := hothers t sent (by rw [hpc]; rfl)
    exact h.noCross t caller sent conn (ht ▸ hpc)
  paired := hleaves.paired h.paired
  draining := by
    intro t caller sent hpc
    have ht := hothers t sent (by rw [hpc]; rfl)
    rw [hleaves.paired h.paired, hleaves.writer, ← h.paired]
    exact h.draining t caller sent (ht ▸ hpc)

/-- A task that has nothing in flight afterwards and leaves the connections as they are. -/
theorem Kept.leaves {s s' : DeviceClient} {task : Nat} (h : Kept s)
    (hexchange : LeavesExchange task s s') (hconnections : LeavesConnections s s') : Kept s' :=
  h.frame hconnections hexchange.others

/-- A request that raises gives the lock back. -/
theorem Kept.raised {s s' : DeviceClient} {task : Nat} (h : Kept s)
    (hexchange : LeavesExchange task { s with lock := none } s')
    (hconnections : LeavesConnections { s with lock := none } s') : Kept s' :=
  h.frame (hconnections.of_eq s rfl rfl rfl rfl) hexchange.others

/-! ## Steps -/

theorem kept_clearWriter {s : DeviceClient} (h : Kept s) (hreleased : WriterReleased s) (task : Nat)
    (caller : CloseCaller) : Kept (s.clearWriter task caller) := by
  have hnone : Kept { s with reader := none, writer := none } := by
    refine ⟨⟨?_, h.noCross⟩, rfl, fun _ _ _ _ conn hconn => nomatch hconn⟩
    intro conn hconn
    rcases h.noLeak conn hconn with hwriter | hclosing
    · exact .inr (hreleased conn hwriter)
    · exact .inr hclosing
  have hleaves : LeavesConnections { s with reader := none, writer := none }
      (s.clearWriter task caller) := by
    cases caller with
    | connect | user | failedConnect | heartbeat => exact keeps_setTask _ task _
  exact hnone.leaves (leaves_afterClose _ task caller) hleaves

theorem kept_store {s : DeviceClient} (h : Kept s) (hexchange : Exchange T s)
    (hreleased : WriterReleased s) (hdraining : NoneDraining s) (task : Nat) :
    Kept (s.store config task) := by
  have hstored : Kept
      { s with reader := some s.opened, writer := some s.opened, opened := s.opened + 1 } := by
    refine ⟨⟨?_, h.noCross⟩, rfl, ?_⟩
    · intro conn hconn
      rcases Nat.lt_succ_iff_lt_or_eq.1 hconn with hlt | heq
      · rcases h.noLeak conn hlt with hwriter | hclosing
        · exact .inr (hreleased conn hwriter)
        · exact .inr hclosing
      · exact .inl (congrArg some heq.symm)
    · -- The task that drains would hold the lock.
      intro t caller sent hpc
      have hlock := (hexchange.inFlight t sent (by rw [show s.tasks t = _ from hpc]; rfl)).1
      exact absurd hpc (hdraining t hlock caller sent)
  exact hstored.leaves (leaves_request _ task _ _ _) (keeps_request _ task _ _ _)

theorem kept_write {s : DeviceClient} (h : Kept s) (task : Nat) (caller : RequestCaller)
    (cmd : String) (fields : PyDict) : Kept (s.write T task caller cmd fields) := by
  have hnext : Kept { s with requestId := s.requestId + 1 } :=
    ⟨⟨h.noLeak, h.noCross⟩, h.paired, h.draining⟩
  unfold write
  dsimp only
  split
  · exact hnext.leaves (leaves_requestRaised _ task caller) (keeps_requestRaised _ task caller)
  · next conn hwriter =>
      split
      · exact hnext.leaves (leaves_requestRaised _ task caller) (keeps_requestRaised _ task caller)
      · refine ⟨⟨h.noLeak, ?_⟩, h.paired, ?_⟩
        · intro t caller' sent c hpc
          by_cases ht : t = task
          · subst ht
            simp [setTask] at hpc
          · simp only [setTask, Function.update_of_ne ht] at hpc
            exact h.noCross t caller' sent c hpc
        · intro t caller' sent hpc c hc
          by_cases ht : t = task
          · subst ht
            simp only [setTask, Function.update_self, Pc.draining.injEq] at hpc
            rw [← hpc.2]
            have hreader : s.reader = some conn := h.paired.trans hwriter
            exact Option.some.inj (Eq.trans (Eq.symm hc) hreader)
          · simp only [setTask, Function.update_of_ne ht] at hpc
            exact h.draining t caller' sent hpc c hc

theorem kept_read {s : DeviceClient} (h : Kept s) {task : Nat} {caller : RequestCaller} {sent : Sent}
    (hpc : s.tasks task = .draining caller sent) : Kept (s.read task caller sent) := by
  unfold read
  split
  · exact h.raised (leaves_requestRaised _ task caller) (keeps_requestRaised _ task caller)
  · next conn hreader =>
      refine ⟨⟨h.noLeak, ?_⟩, h.paired, ?_⟩
      · intro t caller' sent' c hpc'
        by_cases ht : t = task
        · subst ht
          simp only [setTask, Function.update_self, Pc.reading.injEq] at hpc'
          rw [← hpc'.2.1, ← hpc'.2.2]
          exact h.draining t caller sent hpc conn hreader
        · simp only [setTask, Function.update_of_ne ht] at hpc'
          exact h.noCross t caller' sent' c hpc'
      · intro t caller' sent' hpc'
        by_cases ht : t = task
        · subst ht
          simp [setTask] at hpc'
        · simp only [setTask, Function.update_of_ne ht] at hpc'
          exact h.draining t caller' sent' hpc'

theorem kept_receive {s : DeviceClient} (h : Kept s) (task : Nat) (caller : RequestCaller)
    (sent : Sent) (conn : Nat) : Kept (s.receive T task caller sent conn) := by
  unfold receive
  split
  · exact h
  · dsimp only
    split
    · exact h.frame ((keeps_requestReturned _ task caller).of_eq s rfl rfl rfl rfl)
        (leaves_requestReturned _ task caller).others
    · exact h.frame ((keeps_requestRaised _ task caller).of_eq s rfl rfl rfl rfl)
        (leaves_requestRaised _ task caller).others

theorem kept_resume {s : DeviceClient} (h : Kept s) (hexchange : Exchange T s) (task : Nat)
    (outcome : Outcome) (hsafe : SafeStep s (.resume task outcome)) :
    Kept (s.resume T config task outcome) := by
  have hstop (pc : Pc) (hpc : pc.inFlight = none) : Kept (s.setTask task pc) :=
    h.leaves (leaves_setTask s task hpc) (keeps_setTask s task pc)
  have hclose (caller : CloseCaller) : Kept (s.closeWriter task caller) :=
    h.leaves (leaves_closeWriter s task caller) (keeps_closeWriter s task caller)
  cases hpc : s.tasks task with
  | ended =>
      cases outcome with
      | completes | raises => simpa [resume, hpc] using h
      | cancelled => simpa [resume, hpc] using hstop .ended rfl
  | joining caller heartbeat =>
      cases outcome with
      | completes =>
          simp only [resume, hpc]
          split
          · exact hclose caller
          · exact h
      | raises => simpa [resume, hpc] using hstop .ended rfl
      | cancelled => simpa [resume, hpc] using hclose caller
  | closing caller =>
      cases outcome with
      | completes | raises =>
          have hreleased : WriterReleased s := hsafe.2 (by simp [clears, hpc])
          simpa [resume, hpc] using kept_clearWriter h hreleased task caller
      | cancelled => simpa [resume, hpc] using hstop .ended rfl
  | opening =>
      cases outcome with
      | completes =>
          rcases hsafe.1 (by simp [stores, hpc]) with ⟨hreleased, hdraining⟩
          simpa [resume, hpc] using kept_store h hexchange hreleased hdraining task
      | raises =>
          simpa [resume, hpc] using h.leaves (leaves_close s task _) (keeps_close s task _)
      | cancelled => simpa [resume, hpc] using hstop .ended rfl
  | locking caller cmd fields =>
      cases outcome with
      | completes =>
          simp only [resume, hpc]
          split
          · exact kept_write h task caller cmd fields
          · exact h
      | raises => simpa [resume, hpc] using h
      | cancelled => simpa [resume, hpc] using hstop .ended rfl
  | draining caller sent =>
      cases outcome with
      | completes => simpa [resume, hpc] using kept_read h hpc
      | raises =>
          simpa [resume, hpc] using
            h.raised (leaves_requestRaised _ task caller) (keeps_requestRaised _ task caller)
      | cancelled =>
          simpa [resume, hpc] using
            h.raised (leaves_setTask _ task (rfl : Pc.ended.inFlight = none)) (keeps_setTask _ task _)
  | reading caller sent conn =>
      cases outcome with
      | completes => simpa [resume, hpc] using kept_receive h task caller sent conn
      | raises =>
          simpa [resume, hpc] using
            h.raised (leaves_requestRaised _ task caller) (keeps_requestRaised _ task caller)
      | cancelled =>
          simpa [resume, hpc] using
            h.raised (leaves_setTask _ task (rfl : Pc.ended.inFlight = none)) (keeps_setTask _ task _)
  | sleeping =>
      cases outcome with
      | completes =>
          simp only [resume, hpc, beat]
          split
          · exact h.leaves (leaves_request s task _ _ _) (keeps_request s task _ _ _)
          · exact h
      | raises => simpa [resume, hpc] using h
      | cancelled => simpa [resume, hpc] using hstop .ended rfl

theorem kept_step {s : DeviceClient} (h : Kept s) (hexchange : Exchange T s) (e : Event)
    (hsafe : SafeStep s e) : Kept (s.step T config e) := by
  cases e with
  | connect | close =>
      exact h.frame ((keeps_close _ s.started _).of_eq s rfl rfl rfl rfl)
        (leaves_close _ s.started _).others
  | request cmd fields =>
      exact h.frame ((keeps_request _ s.started _ _ _).of_eq s rfl rfl rfl rfl)
        (leaves_request _ s.started _ _ _).others
  | resume task outcome => exact kept_resume h hexchange task outcome hsafe
  | answer sent data =>
      simp only [step]
      split
      · exact ⟨⟨h.noLeak, h.noCross⟩, h.paired, h.draining⟩
      · exact h
  | push conn data =>
      simp only [step]
      split
      · exact ⟨⟨h.noLeak, h.noCross⟩, h.paired, h.draining⟩
      · exact h
  | lose conn =>
      simp only [step]
      split
      · exact h.frame ⟨rfl, rfl, id, fun _ => closed_update s conn⟩ (fun _ _ _ => rfl)
      · exact h

/-- As long as nothing is stored or cleared over an open writer, and nothing is stored under a request
that drains, every connection is the current one or closed, and every request reads where it has
written. -/
theorem connections_kept_of_safe_steps (T : PyTables) (config : ClientConfig) (es : List Event)
    (h : Along (step T config) SafeStep {} es) :
    ∀ done, done <+: es → ConnectionsKept (run T config done) := by
  have hinit : Kept {} :=
    ⟨⟨fun _ hconn => absurd hconn (Nat.not_lt_zero _), nofun⟩, rfl, nofun⟩
  rintro done ⟨rest, rfl⟩
  have hkept : Exchange T (run T config done) ∧ Kept (run T config done) :=
    runFrom_invariant (I := fun s => Exchange T s ∧ Kept s)
      (fun s e hs hsafe => ⟨exchange_step hs.1 e, kept_step hs.2 hs.1 e hsafe⟩)
      ⟨exchange_init, hinit⟩ (along_append.1 h).1
  exact hkept.2.toConnectionsKept

/-- The device's answer to the first `hello`. -/
def helloAnswer : List UInt8 :=
  "\x7b\"ok\":true,\"request_id\":1\x7d\n".toUTF8.toList

/-- The line of the first `hello`, as `connect` writes it. -/
def firstHello : Sent where
  number := 0
  conn := 0
  requestId := 1
  message := buildRequest 1 "hello" (helloFields {})

/-- `connect` is answered, and is called again once it has returned. -/
def reconnects : List Event :=
  [.connect, .resume 0 .completes, .resume 0 .completes, .resume 0 .completes,
    .answer firstHello helloAnswer, .resume 0 .completes,
    .connect, .resume 1 .cancelled, .resume 2 .completes, .resume 2 .completes,
    .resume 2 .completes]

theorem connections_kept_reconnects :
    ((run PyTables.ascii {} reconnects).opened = 2 ∧
        (run PyTables.ascii {} reconnects).returned.length = 1) ∧
      ∀ done, done <+: reconnects → ConnectionsKept (run PyTables.ascii {} done) :=
  ⟨by decide +kernel, connections_kept_of_safe_steps PyTables.ascii {} reconnects (by decide +kernel)⟩

/-- Two calls of `connect` that overlap: both close, both open, and the second stores over the first. -/
def overlapping : List Event :=
  [.connect, .connect, .resume 0 .completes, .resume 1 .completes]

theorem not_connections_kept_overlapping :
    ¬ ∀ done, done <+: overlapping → ConnectionsKept (run PyTables.ascii {} done) := by
  intro h
  have hleak := (h overlapping (List.prefix_refl _)).noLeak 0 (by decide +kernel)
  revert hleak
  decide +kernel

end DeviceClient

end Backend
end Sdr
