import Mathlib.Data.Finset.Basic
import Mathlib.Data.Finset.Dedup
import Mathlib.Data.List.DropRight
import Sdr.Lib.Machine

/-!
# Broadcast — one publisher, listeners with bounded queues

Model of `sdr_backend/broadcast.py`.  `publish` offers the item to every queue of the set, and makes
room in a full one by taking its oldest item out.  `slow_listener` says that this is all a listener
can lose, and that it is the listener's own affair:

* what the broadcaster does to one queue is what a `Listener` does on its own (`listener_step`);
* the queue of a listener is the end of what was published since it subscribed (`suffix_run`).
-/

namespace Sdr
namespace Backend

open Lib

universe u v

variable {ι : Type u} {α : Type v}

/-! ## `asyncio.Queue` -/

/-- `asyncio.QueueFull` and `asyncio.QueueEmpty`. -/
inductive QueueError
  | full
  | empty
  deriving DecidableEq, Repr

/-- A queue without those that wait at it. -/
structure AsyncQueue (α : Type v) where
  maxsize : Nat
  items : List α
  deriving DecidableEq, Repr

namespace AsyncQueue

/-- `full`: a `maxsize` of zero is no limit. -/
def full (queue : AsyncQueue α) : Bool :=
  if queue.maxsize ≤ 0 then false else decide (queue.maxsize ≤ queue.items.length)

def putNowait (queue : AsyncQueue α) (item : α) : Except QueueError (AsyncQueue α) :=
  if queue.full then .error .full else .ok { queue with items := queue.items ++ [item] }

def getNowait (queue : AsyncQueue α) : Except QueueError (α × AsyncQueue α) :=
  match queue.items with
  | [] => .error .empty
  | item :: rest => .ok (item, { queue with items := rest })

end AsyncQueue

/-! ## The broadcaster -/

/-- The names of the queues in `_queues`, and what is in a queue of that name. -/
@[ext]
structure Broadcaster (ι : Type u) (α : Type v) where
  maxQueue : Nat
  queues : Finset ι
  contents : ι → AsyncQueue α

/-- One turn of the loop of `publish`: the queue afterwards, and whether it is `stale`. -/
def AsyncQueue.offer (queue : AsyncQueue α) (item : α) : Except QueueError (AsyncQueue α × Bool) :=
  match queue.putNowait item with
  | .ok queue => .ok (queue, false)
  | .error .empty => .error .empty
  | .error .full =>
    match queue.getNowait with
    | .error .full => .error .full
    | .error .empty => .ok (queue, true)
    | .ok (_, queue) =>
      match queue.putNowait item with
      | .ok queue => .ok (queue, false)
      | .error .empty => .ok (queue, true)
      -- Only the inner `except` is around this call, and it does not catch `QueueFull`.
      | .error .full => .error .full

namespace Broadcaster

variable [DecidableEq ι]

def init (maxQueue : Nat) : Broadcaster ι α where
  maxQueue := maxQueue
  queues := ∅
  contents _ := { maxsize := maxQueue, items := [] }

/-- Entering `subscribe`: `i` names the new queue. -/
def subscribe (b : Broadcaster ι α) (i : ι) : Broadcaster ι α :=
  { b with
    queues := insert i b.queues
    contents := Function.update b.contents i { maxsize := b.maxQueue, items := [] } }

/-- Leaving `subscribe`. -/
def unsubscribe (b : Broadcaster ι α) (i : ι) : Broadcaster ι α :=
  { b with queues := b.queues.erase i }

/-- The loop of `publish` over a listing of the queues. -/
def publishLoop (item : α) :
    List ι → Broadcaster ι α → List ι → Except QueueError (Broadcaster ι α × List ι)
  | [], b, stale => .ok (b, stale)
  | i :: rest, b, stale =>
    match (b.contents i).offer item with
    | .error error => .error error
    | .ok (queue, isStale) =>
      publishLoop item rest { b with contents := Function.update b.contents i queue }
        (if isStale then stale ++ [i] else stale)

/-- `publish`; `order` is `list(self._queues)`. -/
def publish (b : Broadcaster ι α) (order : List ι) (item : α) :
    Except QueueError (Broadcaster ι α) :=
  match publishLoop item order b [] with
  | .error error => .error error
  | .ok (b, stale) => .ok { b with queues := stale.foldl Finset.erase b.queues }

/-- What a listener takes from its queue; an empty one makes it wait. -/
def get (b : Broadcaster ι α) (i : ι) : Option α × Broadcaster ι α :=
  match (b.contents i).getNowait with
  | .error _ => (none, b)
  | .ok (item, queue) => (some item, { b with contents := Function.update b.contents i queue })

end Broadcaster

/-- What is done with a broadcaster. -/
inductive BroadcastOp (ι : Type u) (α : Type v)
  | subscribe (i : ι)
  | unsubscribe (i : ι)
  | publish (item : α) (order : List ι)
  | get (i : ι)
  deriving DecidableEq, Repr

namespace Broadcaster

variable [DecidableEq ι]

/-- The state after an operation.  A `publish` that raises would leave through its caller; there is
none (`publish_eq`). -/
def step (b : Broadcaster ι α) : BroadcastOp ι α → Broadcaster ι α
  | .subscribe i => b.subscribe i
  | .unsubscribe i => b.unsubscribe i
  | .publish item order =>
    match b.publish order item with
    | .ok b => b
    | .error _ => b
  | .get i => (b.get i).2

/-- The listing has every queue of the set once. -/
def Lists (b : Broadcaster ι α) (order : List ι) : Prop :=
  order.Nodup ∧ order.toFinset = b.queues

instance (b : Broadcaster ι α) (order : List ι) : Decidable (b.Lists order) :=
  inferInstanceAs (Decidable (_ ∧ _))

theorem Lists.mem_iff {b : Broadcaster ι α} {order : List ι} (h : b.Lists order) (i : ι) :
    i ∈ order ↔ i ∈ b.queues := by
  rw [← h.2, List.mem_toFinset]

/-- A new queue is none of those in the set, and `list` lists the set. -/
def Admits (b : Broadcaster ι α) : BroadcastOp ι α → Prop
  | .subscribe i => i ∉ b.queues
  | .publish _ order => b.Lists order
  | _ => True

instance (b : Broadcaster ι α) : (op : BroadcastOp ι α) → Decidable (b.Admits op)
  | .subscribe i => inferInstanceAs (Decidable (i ∉ b.queues))
  | .publish _ order => inferInstanceAs (Decidable (b.Lists order))
  | .unsubscribe _ | .get _ => isTrue trivial

/-- What listener `i` receives at an operation. -/
def receives (i : ι) (b : Broadcaster ι α) : BroadcastOp ι α → List α
  | .get j => if j = i then (b.get j).1.toList else []
  | _ => []

/-- Everything that listener `i` receives from a new broadcaster. -/
def received (maxQueue : Nat) (i : ι) (ops : List (BroadcastOp ι α)) : List α :=
  emits step (receives i) (init maxQueue) ops

end Broadcaster

/-- The items published since `i` last subscribed. -/
def publishedSince [DecidableEq ι] (i : ι) (ops : List (BroadcastOp ι α)) : List α :=
  ops.foldl
    (fun since op =>
      match op with
      | .subscribe j => if j = i then [] else since
      | .publish item _ => since ++ [item]
      | _ => since)
    []

/-! ## A listener on its own -/

/-- An operation as far as it concerns one listener. -/
inductive ListenerOp (α : Type v)
  | subscribe
  | unsubscribe
  | publish (item : α)
  | get
  deriving DecidableEq, Repr

/-- What an operation is to listener `i`. -/
def viewOp [DecidableEq ι] (i : ι) : BroadcastOp ι α → Option (ListenerOp α)
  | .subscribe j => if j = i then some .subscribe else none
  | .unsubscribe j => if j = i then some .unsubscribe else none
  | .publish item _ => some (.publish item)
  | .get j => if j = i then some .get else none

/-- One bounded queue that drops its oldest item, and whether it is offered anything. -/
structure Listener (α : Type v) where
  subscribed : Bool
  items : List α
  deriving DecidableEq, Repr

/-- The items of a queue of at most `maxQueue` after one more. -/
def pushed (maxQueue : Nat) (items : List α) (item : α) : List α :=
  if items.length < maxQueue then items ++ [item] else items.tail ++ [item]

namespace Listener

def step (maxQueue : Nat) (listener : Listener α) : ListenerOp α → Listener α
  | .subscribe => { subscribed := true, items := [] }
  | .unsubscribe => { listener with subscribed := false }
  | .publish item =>
      if listener.subscribed then
        { listener with items := pushed maxQueue listener.items item }
      else listener
  | .get => { listener with items := listener.items.tail }

def receives (listener : Listener α) : ListenerOp α → List α
  | .get => listener.items.head?.toList
  | _ => []

/-- The items published since the last `subscribe`, and one more operation. -/
def sinceStep (published : List α) : ListenerOp α → List α
  | .subscribe => []
  | .publish item => published ++ [item]
  | _ => published

def since (ops : List (ListenerOp α)) : List α :=
  ops.foldl sinceStep []

end Listener

/-! ## One queue at a time -/

/-- A queue as it was made, and not over its size. -/
structure AsyncQueue.Bounded (maxQueue : Nat) (queue : AsyncQueue α) : Prop where
  maxsize : queue.maxsize = maxQueue
  length_le : queue.items.length ≤ maxQueue

theorem length_pushed_le {maxQueue : Nat} (hpos : 1 ≤ maxQueue) {items : List α}
    (h : items.length ≤ maxQueue) (item : α) : (pushed maxQueue items item).length ≤ maxQueue := by
  unfold pushed
  split_ifs with hroom
  · rw [List.length_append, List.length_singleton]
    omega
  · rw [List.length_append, List.length_tail, List.length_singleton]
    omega

/-- Dropping the oldest items leaves the end of what was published. -/
theorem pushed_suffix {maxQueue : Nat} {items published : List α} (h : items <:+ published)
    (item : α) : pushed maxQueue items item <:+ published ++ [item] := by
  have happend {l : List α} (hl : l <:+ published) : l ++ [item] <:+ published ++ [item] := by
    rcases hl with ⟨before, rfl⟩
    exact ⟨before, (List.append_assoc _ _ _).symm⟩
  unfold pushed
  split_ifs
  · exact happend h
  · exact happend ((List.tail_suffix items).trans h)

namespace Listener

theorem suffix_step (maxQueue : Nat) {listener : Listener α} {published : List α}
    (h : listener.subscribed = true → listener.items <:+ published) (op : ListenerOp α) :
    (listener.step maxQueue op).subscribed = true →
      (listener.step maxQueue op).items <:+ sinceStep published op := by
  cases op with
  | subscribe =>
      simp [step]
  | unsubscribe =>
      simp [step]
  | publish item =>
      cases hsubscribed : listener.subscribed with
      | false =>
          simp [step, hsubscribed]
      | true =>
          simp only [step, hsubscribed, if_true]
          exact fun _ => pushed_suffix (h hsubscribed) item
  | get =>
      intro hsubscribed
      exact (List.tail_suffix _).trans (h hsubscribed)

/-- The queue of a listener is the end of what was published since it subscribed. -/
theorem suffix_run (maxQueue : Nat) (ops : List (ListenerOp α)) :
    (runFrom (step maxQueue) { subscribed := false, items := [] } ops).subscribed = true →
      (runFrom (step maxQueue) { subscribed := false, items := [] } ops).items <:+ since ops := by
  induction ops using List.reverseRecOn with
  | nil =>
      exact fun _ => List.suffix_rfl
  | append_singleton ops op ih =>
      rw [runFrom_snoc, since, List.foldl_append]
      exact suffix_step maxQueue ih op

end Listener

section Queue

variable {maxQueue : Nat} {queue : AsyncQueue α}

theorem AsyncQueue.Bounded.putNowait (h : queue.Bounded maxQueue) (hpos : 1 ≤ maxQueue) (item : α) :
    queue.putNowait item =
      if queue.items.length < maxQueue then .ok { queue with items := queue.items ++ [item] }
      else .error .full := by
  have hfull : queue.full = decide (maxQueue ≤ queue.items.length) := by
    rw [AsyncQueue.full, h.maxsize, if_neg (by omega)]
  rw [AsyncQueue.putNowait, hfull]
  split_ifs with hge hlt
  · simp at hge
    omega
  · rfl
  · rfl
  · simp at hge
    omega

/-- The exceptions are met: the item is put, after the oldest one was taken out of a full queue. -/
theorem AsyncQueue.offer_eq (hpos : 1 ≤ maxQueue) (h : queue.Bounded maxQueue) (item : α) :
    queue.offer item = .ok ({ queue with items := pushed maxQueue queue.items item }, false) := by
  unfold offer Backend.pushed
  rw [h.putNowait hpos]
  by_cases hroom : queue.items.length < maxQueue
  · rw [if_pos hroom, if_pos hroom]
  · rw [if_neg hroom, if_neg hroom]
    cases hitems : queue.items with
    | nil =>
        rw [hitems] at hroom
        exact absurd hpos (by simpa using hroom)
    | cons oldest rest =>
        -- One item less leaves room for one, so that the second attempt does not fail.
        have hlen := h.length_le
        rw [hitems, List.length_cons] at hlen
        have hrest : ({ queue with items := rest } : AsyncQueue α).Bounded maxQueue :=
          ⟨h.maxsize, by dsimp only; omega⟩
        simp only [AsyncQueue.getNowait, hitems, hrest.putNowait hpos, List.tail_cons]
        rw [if_pos (by omega)]

theorem AsyncQueue.Bounded.pushed (hpos : 1 ≤ maxQueue) (h : queue.Bounded maxQueue) (item : α) :
    ({ queue with items := Backend.pushed maxQueue queue.items item } : AsyncQueue α).Bounded
      maxQueue :=
  ⟨h.maxsize, length_pushed_le hpos h.length_le item⟩

end Queue

namespace Broadcaster

/-- A broadcaster whose queues are as it made them. -/
structure Sound (maxQueue : Nat) (b : Broadcaster ι α) : Prop where
  maxQueue_eq : b.maxQueue = maxQueue
  bounded : ∀ i, (b.contents i).Bounded maxQueue

theorem sound_init (maxQueue : Nat) : (init maxQueue : Broadcaster ι α).Sound maxQueue where
  maxQueue_eq := rfl
  bounded _ := ⟨rfl, Nat.zero_le _⟩

variable [DecidableEq ι]

/-- The broadcaster after an item was offered to the listed queues. -/
def pushedTo (b : Broadcaster ι α) (order : List ι) (item : α) : Broadcaster ι α :=
  { b with
    contents := fun i =>
      if i ∈ order then
        { b.contents i with items := pushed b.maxQueue (b.contents i).items item }
      else b.contents i }

section Run

variable {maxQueue : Nat} {b : Broadcaster ι α}

theorem Sound.update (h : b.Sound maxQueue) (i : ι) {queue : AsyncQueue α}
    (hqueue : queue.Bounded maxQueue) :
    ({ b with contents := Function.update b.contents i queue } : Broadcaster ι α).Sound maxQueue where
  maxQueue_eq := h.maxQueue_eq
  bounded j := by
    by_cases hj : j = i
    · subst hj
      simpa using hqueue
    · simpa [hj] using h.bounded j

theorem publishLoop_eq (hpos : 1 ≤ maxQueue) (h : b.Sound maxQueue) (item : α) {order : List ι}
    (hnodup : order.Nodup) (stale : List ι) :
    publishLoop item order b stale = .ok (b.pushedTo order item, stale) := by
  induction order generalizing b with
  | nil =>
      simp [publishLoop, pushedTo]
  | cons i rest ih =>
      have hoffer := AsyncQueue.offer_eq hpos (h.bounded i) item
      have hnext := h.update i ((h.bounded i).pushed hpos item)
      -- The queue just served is not among those that follow.
      have hother : i ∉ rest := (List.nodup_cons.1 hnodup).1
      rw [publishLoop, hoffer]
      simp only [Bool.false_eq_true, if_false]
      rw [ih hnext (List.nodup_cons.1 hnodup).2]
      refine congrArg (fun b => Except.ok (b, stale)) (Broadcaster.ext rfl rfl ?_)
      funext j
      by_cases hj : j = i
      · subst hj
        simp [pushedTo, hother, h.maxQueue_eq]
      · simp [pushedTo, hj]

/-- `publish` serves every queue of the set, and no queue is ever stale. -/
theorem publish_eq (hpos : 1 ≤ maxQueue) (h : b.Sound maxQueue) {order : List ι}
    (hlists : b.Lists order) (item : α) : b.publish order item = .ok (b.pushedTo order item) := by
  rw [publish, publishLoop_eq hpos h item hlists.1]
  rfl

theorem step_publish (hpos : 1 ≤ maxQueue) (h : b.Sound maxQueue) {order : List ι}
    (hlists : b.Lists order) (item : α) :
    b.step (.publish item order) = b.pushedTo order item := by
  rw [step, publish_eq hpos h hlists]

theorem sound_step (hpos : 1 ≤ maxQueue) (op : BroadcastOp ι α) (h : b.Sound maxQueue)
    (hop : b.Admits op) : (b.step op).Sound maxQueue := by
  cases op with
  | subscribe i =>
      have hnew : ({ maxsize := b.maxQueue, items := [] } : AsyncQueue α).Bounded maxQueue :=
        ⟨h.maxQueue_eq, Nat.zero_le _⟩
      exact ⟨h.maxQueue_eq, (h.update i hnew).bounded⟩
  | unsubscribe i =>
      exact ⟨h.maxQueue_eq, h.bounded⟩
  | publish item order =>
      rw [step_publish hpos h hop]
      refine ⟨h.maxQueue_eq, ?_⟩
      intro i
      simp only [pushedTo]
      split_ifs
      · rw [h.maxQueue_eq]
        exact (h.bounded i).pushed hpos item
      · exact h.bounded i
  | get i =>
      simp only [step, get, AsyncQueue.getNowait]
      cases hitems : (b.contents i).items with
      | nil =>
          exact h
      | cons item rest =>
          have hlen := (h.bounded i).length_le
          rw [hitems, List.length_cons] at hlen
          exact h.update i ⟨(h.bounded i).maxsize, by dsimp only; omega⟩

/-- The listener that `i` names. -/
def listener (i : ι) (b : Broadcaster ι α) : Listener α where
  subscribed := decide (i ∈ b.queues)
  items := (b.contents i).items

theorem get_eq (b : Broadcaster ι α) (i : ι) :
    (b.get i).1 = (b.contents i).items.head? ∧
      (b.get i).2.queues = b.queues ∧
      ∀ j, ((b.get i).2.contents j).items =
        if j = i then (b.contents i).items.tail else (b.contents j).items := by
  simp only [get, AsyncQueue.getNowait]
  cases hitems : (b.contents i).items with
  | nil =>
      refine ⟨rfl, rfl, ?_⟩
      intro j
      split_ifs with hj
      · rw [hj, hitems]
        rfl
      · rfl
  | cons item rest =>
      refine ⟨rfl, rfl, ?_⟩
      intro j
      split_ifs with hj
      · simp [hj]
      · simp [hj]

/-- An operation does to listener `i` what that listener would do with it on its own. -/
theorem listener_step (hpos : 1 ≤ maxQueue) (i : ι) (op : BroadcastOp ι α) (h : b.Sound maxQueue)
    (hop : b.Admits op) :
    (b.step op).listener i =
      (viewOp i op).elim (b.listener i) ((b.listener i).step maxQueue) := by
  cases op with
  | subscribe j =>
      by_cases hj : j = i
      · subst hj
        simp [step, subscribe, listener, viewOp, Listener.step]
      · simp [step, subscribe, listener, viewOp, hj, Ne.symm hj]
  | unsubscribe j =>
      by_cases hj : j = i
      · subst hj
        simp [step, unsubscribe, listener, viewOp, Listener.step]
      · simp [step, unsubscribe, listener, viewOp, hj, Ne.symm hj]
  | publish item order =>
      rw [step_publish hpos h hop]
      by_cases hi : i ∈ b.queues
      · -- Its queue is in the listing, wherever that may be, and is served once.
        have hlisted : i ∈ order := (Lists.mem_iff hop i).2 hi
        simp [pushedTo, listener, viewOp, Listener.step, hi, hlisted, h.maxQueue_eq]
      · have hunlisted : i ∉ order := fun h => hi ((Lists.mem_iff hop i).1 h)
        simp [pushedTo, listener, viewOp, Listener.step, hi, hunlisted]
  | get j =>
      -- What another listener takes out is none of this one's items.
      have hget := b.get_eq j
      by_cases hj : j = i
      · subst hj
        simp [step, listener, viewOp, Listener.step, hget.2.1, hget.2.2 j]
      · simp [step, listener, viewOp, hj, Ne.symm hj, hget.2.1, hget.2.2 i]

theorem receives_eq (i : ι) (b : Broadcaster ι α) (op : BroadcastOp ι α) :
    b.receives i op = (viewOp i op).elim [] (b.listener i).receives := by
  cases op with
  | subscribe j | unsubscribe j =>
      by_cases hj : j = i <;> simp [receives, viewOp, Listener.receives, hj]
  | publish item order =>
      rfl
  | get j =>
      by_cases hj : j = i
      · subst hj
        simp [receives, viewOp, Listener.receives, listener, (b.get_eq j).1]
      · simp [receives, viewOp, hj]

end Run

section History

variable {maxQueue : Nat} {ops : List (BroadcastOp ι α)}

theorem sound_run (hpos : 1 ≤ maxQueue) (hops : Along step Admits (init maxQueue) ops) :
    (runFrom step (init maxQueue) ops).Sound maxQueue :=
  runFrom_invariant (fun _ op h hop => sound_step hpos op h hop) (sound_init maxQueue) hops

theorem listener_run (hpos : 1 ≤ maxQueue) (hops : Along step Admits (init maxQueue) ops) (i : ι) :
    (runFrom step (init maxQueue) ops).listener i =
      runFrom (Listener.step maxQueue) { subscribed := false, items := [] }
        (ops.filterMap (viewOp i)) :=
  runFrom_view (fun _ op h hop => sound_step hpos op h hop)
    (fun _ op h hop => listener_step hpos i op h hop) (sound_init maxQueue) hops

/-- What a listener receives is what it receives on its own. -/
theorem received_eq (hpos : 1 ≤ maxQueue) (hops : Along step Admits (init maxQueue) ops) (i : ι) :
    received maxQueue i ops =
      emits (Listener.step maxQueue) Listener.receives { subscribed := false, items := [] }
        (ops.filterMap (viewOp i)) :=
  emits_view (fun _ op h hop => sound_step hpos op h hop)
    (fun _ op h hop => listener_step hpos i op h hop) (fun b op _ _ => receives_eq i b op)
    (sound_init maxQueue) hops

theorem since_view (i : ι) (ops : List (BroadcastOp ι α)) :
    Listener.since (ops.filterMap (viewOp i)) = publishedSince i ops := by
  rw [Listener.since, List.foldl_filterMap, publishedSince]
  congr 1
  funext published op
  cases op with
  | subscribe j | unsubscribe j | get j =>
      by_cases hj : j = i <;> simp [viewOp, Listener.sinceStep, hj]
  | publish item order =>
      rfl

/-- An operation other than a listener's own `get` drops nothing from its queue, unless it publishes
and finds the queue full. -/
theorem prefix_step {b : Broadcaster ι α} (hpos : 1 ≤ maxQueue) (h : b.Sound maxQueue)
    {op : BroadcastOp ι α} (hop : b.Admits op) {i : ι} (hi : i ∈ b.queues) (hget : op ≠ .get i)
    (hroom : ∀ item order, op = .publish item order → (b.contents i).items.length ≠ maxQueue) :
    (b.contents i).items <+: ((b.step op).contents i).items := by
  have hitems : ((b.step op).contents i).items =
      ((viewOp i op).elim (b.listener i) ((b.listener i).step maxQueue)).items :=
    congrArg Listener.items (listener_step hpos i op h hop)
  rw [hitems]
  cases op with
  | subscribe j =>
      have hj : j ≠ i := by
        rintro rfl
        exact hop hi
      simp [viewOp, hj, listener]
  | unsubscribe j =>
      by_cases hj : j = i <;> simp [viewOp, hj, listener, Listener.step]
  | publish item order =>
      have hlt : (b.contents i).items.length < maxQueue :=
        lt_of_le_of_ne (h.bounded i).length_le (hroom item order rfl)
      simp [viewOp, listener, Listener.step, hi, pushed, hlt]
  | get j =>
      have hj : j ≠ i := fun hj => hget (by rw [hj])
      simp [viewOp, hj, listener]

/-- A slow listener loses only its own oldest items.  In every history of a broadcaster: `publish`
succeeds and keeps every queue; each queue holds the last items published since it subscribed; an item
is dropped only by a `publish` that finds the queue full; and what a listener receives is decided by
its own operations and the items published. -/
theorem slow_listener (hpos : 1 ≤ maxQueue) (hops : Along step Admits (init maxQueue) ops) :
    let b := runFrom step (init maxQueue) ops
    (∀ item order, b.Lists order →
        ∃ after, b.publish order item = .ok after ∧ after.queues = b.queues) ∧
      (∀ i ∈ b.queues,
        ∃ q, q ≤ maxQueue ∧ (b.contents i).items = (publishedSince i ops).rtake q) ∧
      (∀ op i, b.Admits op → i ∈ b.queues → op ≠ .get i →
        ¬ (b.contents i).items <+: ((b.step op).contents i).items →
          (∃ item order, op = .publish item order) ∧ (b.contents i).items.length = maxQueue) ∧
      ∀ i ops', Along step Admits (init maxQueue) ops' →
        ops'.filterMap (viewOp i) = ops.filterMap (viewOp i) →
          received maxQueue i ops' = received maxQueue i ops := by
  intro b
  have hsound : b.Sound maxQueue := sound_run hpos hops
  refine ⟨?_, ?_, ?_, ?_⟩
  · intro item order hlists
    exact ⟨_, publish_eq hpos hsound hlists item, rfl⟩
  · intro i hi
    have hrun := listener_run hpos hops i
    have hsuffix := Listener.suffix_run maxQueue (ops.filterMap (viewOp i))
    rw [← hrun, since_view] at hsuffix
    exact ⟨_, (hsound.bounded i).length_le,
      List.suffix_iff_eq_drop.1 (hsuffix (decide_eq_true hi))⟩
  · intro op i hop hi hget hdropped
    by_contra hnot
    refine hdropped (prefix_step hpos hsound hop hi hget ?_)
    intro item order hpublish hfull
    exact hnot ⟨⟨item, order, hpublish⟩, hfull⟩
  · intro i ops' hops' hview
    rw [received_eq hpos hops', received_eq hpos hops, hview]

/-- Two listeners with room for one item each, one of which does not read. -/
theorem slow_listener_twoListeners :
    let ops : List (BroadcastOp Nat Nat) :=
      [.subscribe 0, .subscribe 1, .publish 7 [1, 0], .get 1, .publish 8 [0, 1], .get 1]
    let b := runFrom step (init 1) ops
    b.queues = {0, 1} ∧ (b.contents 0).items = [8] ∧ received 1 1 ops = [7, 8] ∧
      ∀ i ∈ b.queues, ∃ q, q ≤ 1 ∧ (b.contents i).items = (publishedSince i ops).rtake q := by
  intro ops b
  exact ⟨by decide, by decide, by decide, (slow_listener (by decide) (by decide)).2.1⟩

end History

end Broadcaster

end Backend
end Sdr
