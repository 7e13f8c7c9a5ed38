import Sdr.Simulator.Session

/-!
# Ownership — several clients of the fake device

Model of `_handle_client` for any number of connections.  Everything between two `await`s runs
undisturbed; an event is such a piece of one handler, or something that happens to a transport or a reader
in between: a line arrives, the transport starts closing, the stream ends.

A connection that is accepted while the owner is already closing takes the device over at once, before
the owner's handler has released it.  `single_owner_of_no_takeover` is about the runs in which this does not
happen.
-/

namespace Sdr
namespace Simulator

open Lib Protocol

/-! ## State -/

/-- A connection as its handler, its reader and its writer have it. -/
structure Connection where
  /-- Its handler has been started. -/
  accepted : Bool := false
  /-- The handler has not left the loop. -/
  serving : Bool := false
  peerIp : PyStr := []
  /-- The lines of the reader that have not been read. -/
  buffer : List WireLine := []
  atEof : Bool := false
  /-- `writer.is_closing()`. -/
  isClosing : Bool := false

structure Clients where
  server : FakeAc920Server := {}
  owner : Option Nat := none
  connections : Nat → Connection := fun _ => {}

namespace Clients

inductive Event
  | accept (c : Nat) (peerIp : PyStr)
  | arrive (c : Nat) (line : WireLine)
  | startClosing (c : Nat)
  | feedEof (c : Nat)
  /-- The handler goes on from its `await`. -/
  | resume (c : Nat) (deviceTimeMs : Int)
  /-- The `await` raises. -/
  | raise (c : Nat)
  | iqTurn
  | psdTurn (clock : Nat → Int)
  | statusTurn

def setConnection (s : Clients) (c : Nat) (connection : Connection) : Clients :=
  { s with connections := Function.update s.connections c connection }

/-- `self._owner is not None and not self._owner.is_closing()`. -/
def isOwned (s : Clients) : Bool :=
  match s.owner with
  | some o => !(s.connections o).isClosing
  | none => false

/-- The `finally` block and what follows it. -/
def finish (s : Clients) (c : Nat) : Clients :=
  let s := if s.owner = some c then { s with server := s.server.release, owner := none } else s
  s.setConnection c { s.connections c with serving := false, isClosing := true }

section Step

variable (host : Host)

/-- One turn of the loop of `_handle_client`; a handler without a line waits on. -/
def serve (s : Clients) (c : Nat) (deviceTimeMs : Int) : Clients :=
  let connection := s.connections c
  match connection.buffer with
  | line :: rest =>
    let answer := Session.answer host connection.peerIp s.server deviceTimeMs line
    let s :=
      { s.setConnection c { connection with buffer := rest } with
        server := Session.afterLine host connection.peerIp s.server deviceTimeMs line }
    if answer.isSome then s else s.finish c
  | [] => if connection.atEof then s.finish c else s

def step (s : Clients) : Event → Clients
  | .accept c peerIp =>
    if (s.connections c).accepted then s
    else if s.isOwned then
      -- Told that the device is busy and closed again.
      s.setConnection c { s.connections c with accepted := true, isClosing := true }
    else
      { s.setConnection c { s.connections c with accepted := true, serving := true, peerIp := peerIp } with
        owner := some c }
  | .arrive c line =>
    let connection := s.connections c
    if connection.atEof then s
    else s.setConnection c { connection with buffer := connection.buffer ++ [line] }
  | .startClosing c => s.setConnection c { s.connections c with isClosing := true }
  | .feedEof c => s.setConnection c { s.connections c with atEof := true }
  | .resume c deviceTimeMs => if (s.connections c).serving then s.serve host c deviceTimeMs else s
  | .raise c => if (s.connections c).serving then s.finish c else s
  | .iqTurn => { s with server := s.server.step host .iqTurn }
  | .psdTurn clock => { s with server := s.server.step host (.psdTurn clock) }
  | .statusTurn => { s with server := s.server.step host .statusTurn }

def run (es : List Event) : Clients :=
  runFrom (step host) {} es

end Step

/-! ## The rule -/

/-- The connection whose command the event has `_dispatch` execute. -/
def executes (s : Clients) : Event → Option Nat
  | .resume c _ => if (s.connections c).serving ∧ (s.connections c).buffer ≠ [] then some c else none
  | _ => none

/-- All streams and the PSD are disabled and the three destinations are cleared. -/
structure Released (server : FakeAc920Server) : Prop where
  streams : ∀ i, (server.streams i).enabled = false
  psdEnabled : server.psdEnabled = false
  udpDest : server.udpDest = none
  udpPsdDest : server.udpPsdDest = none
  udpStatusDest : server.udpStatusDest = none

/-- Only the owner's commands are executed, and between two owners the device is released. -/
structure SingleOwner (host : Host) (es : List Event) : Prop where
  executes_owner : ∀ done e, done ++ [e] <+: es → ∀ c, (run host done).executes e = some c →
    (run host done).owner = some c
  released_between : ∀ done more, done ++ more <+: es → ∀ c d, (run host done).owner = some c →
    (run host (done ++ more)).owner = some d → c ≠ d →
    ∃ mid, mid <+: more ∧ Released (run host (done ++ mid)).server

/-- No connection is accepted while the owner is closing. -/
def NoTakeover (s : Clients) : Event → Prop
  | .accept _ _ => ∀ o ∈ s.owner, (s.connections o).isClosing = false
  | _ => True

instance (s : Clients) : DecidablePred (NoTakeover s)
  | .accept _ _ => inferInstanceAs (Decidable (∀ o ∈ s.owner, (s.connections o).isClosing = false))
  | .arrive _ _ | .startClosing _ | .feedEof _ | .resume _ _ | .raise _ | .iqTurn | .psdTurn _ |
    .statusTurn => isTrue trivial

/-! ## One step -/

/-- Every handler in its loop is the owner's. -/
def ServingOwner (s : Clients) : Prop :=
  ∀ c, (s.connections c).serving = true → s.owner = some c

variable {host : Host} {s : Clients}

@[simp] theorem setConnection_owner (s : Clients) (c : Nat) (connection : Connection) :
    (s.setConnection c connection).owner = s.owner := rfl

theorem setConnection_connections (s : Clients) (c d : Nat) (connection : Connection) :
    (s.setConnection c connection).connections d =
      if d = c then connection else s.connections d := by
  simp [setConnection, Function.update_apply]

/-- Whatever else changes in a connection, `serving` may only be cleared. -/
theorem servingOwner_setConnection (h : ServingOwner s) (c : Nat) {connection : Connection}
    (hserving : connection.serving = true → (s.connections c).serving = true) :
    ServingOwner (s.setConnection c connection) := by
  intro d hd
  rw [setConnection_connections] at hd
  split at hd
  next hdc =>
    rw [hdc]
    exact h c (hserving hd)
  next => exact h d hd

theorem servingOwner_finish (h : ServingOwner s) (c : Nat) : ServingOwner (s.finish c) := by
  intro d hd
  unfold finish at hd ⊢
  dsimp only at hd ⊢
  rw [setConnection_connections] at hd
  rw [setConnection_owner]
  split at hd
  next => exact absurd hd (by simp)
  next hdc =>
    split
    next howner =>
      -- Another handler in its loop would be the owner's as well.
      rw [if_pos howner] at hd
      have hsame := (h d hd).symm.trans howner
      exact absurd (Option.some.inj hsame) hdc
    next howner =>
      rw [if_neg howner] at hd
      exact h d hd

theorem servingOwner_serve (h : ServingOwner s) (c : Nat) (deviceTimeMs : Int) :
    ServingOwner (s.serve host c deviceTimeMs) := by
  unfold serve
  dsimp only
  split
  next line rest hbuffer =>
    have hread : ServingOwner
        { s.setConnection c { s.connections c with buffer := rest } with
          server := Session.afterLine host (s.connections c).peerIp s.server deviceTimeMs line } :=
      servingOwner_setConnection h c (fun hserving => hserving)
    split
    · exact hread
    · exact servingOwner_finish hread c
  next =>
    split
    · exact servingOwner_finish h c
    · exact h

/-- A connection that is not turned away finds no owner. -/
theorem owner_none_of_not_isOwned (howned : s.isOwned = false)
    (hclosing : ∀ o ∈ s.owner, (s.connections o).isClosing = false) : s.owner = none := by
  cases howner : s.owner with
  | none => rfl
  | some o =>
      unfold isOwned at howned
      rw [howner] at howned
      simp [hclosing o howner] at howned

theorem servingOwner_step (h : ServingOwner s) {e : Event} (he : NoTakeover s e) :
    ServingOwner (s.step host e) := by
  cases e with
  | accept c peerIp =>
      simp only [step]
      split
      · exact h
      · split
        · exact servingOwner_setConnection h c (fun hserving => hserving)
        · next howned =>
          have hnone := owner_none_of_not_isOwned (by simpa using howned) he
          intro d hd
          have hset := setConnection_connections s c d
            { s.connections c with accepted := true, serving := true, peerIp := peerIp }
          dsimp only at hd ⊢
          rw [hset] at hd
          split at hd
          next hdc => rw [hdc]
          next =>
            have howner := h d hd
            rw [hnone] at howner
            exact absurd howner (by simp)
  | arrive c line =>
      simp only [step]
      split
      · exact h
      · exact servingOwner_setConnection h c (fun hserving => hserving)
  | startClosing c =>
      exact servingOwner_setConnection h c (fun hserving => hserving)
  | feedEof c =>
      exact servingOwner_setConnection h c (fun hserving => hserving)
  | resume c deviceTimeMs =>
      simp only [step]
      split
      · exact servingOwner_serve h c deviceTimeMs
      · exact h
  | raise c =>
      simp only [step]
      split
      · exact servingOwner_finish h c
      · exact h
  | iqTurn => exact h
  | psdTurn clock => exact h
  | statusTurn => exact h

theorem released_release (server : FakeAc920Server) : Released server.release :=
  ⟨fun _ => rfl, rfl, rfl, rfl, rfl⟩

/-- A handler that ends keeps the owner, or releases the device. -/
theorem owner_finish {o : Nat} (howner : s.owner = some o) (c : Nat) :
    (s.finish c).owner = some o ∨ Released (s.finish c).server := by
  unfold finish
  dsimp only
  split
  · exact .inr (released_release s.server)
  · exact .inl howner

theorem owner_step {o : Nat} (howner : s.owner = some o) {e : Event} (he : NoTakeover s e) :
    (s.step host e).owner = some o ∨ Released (s.step host e).server := by
  cases e with
  | accept c peerIp =>
      simp only [step]
      split
      · exact .inl howner
      · split
        · exact .inl howner
        · next howned =>
          rw [owner_none_of_not_isOwned (by simpa using howned) he] at howner
          exact absurd howner (by simp)
  | arrive c line =>
      simp only [step]
      split
      · exact .inl howner
      · exact .inl howner
  | startClosing c => exact .inl howner
  | feedEof c => exact .inl howner
  | resume c deviceTimeMs =>
      simp only [step]
      split
      · unfold serve
        dsimp only
        split
        next line rest hbuffer =>
          split
          · exact .inl howner
          · refine owner_finish ?_ c
            exact howner
        next =>
          split
          · exact owner_finish howner c
          · exact .inl howner
      · exact .inl howner
  | raise c =>
      simp only [step]
      split
      · exact owner_finish howner c
      · exact .inl howner
  | iqTurn => exact .inl howner
  | psdTurn clock => exact .inl howner
  | statusTurn => exact .inl howner

/-! ## Whole runs -/

theorem servingOwner_run {es : List Event} (hes : Along (step host) NoTakeover {} es) :
    ServingOwner (run host es) := by
  refine runFrom_invariant (C := NoTakeover) (I := ServingOwner)
    (fun s e hs he => servingOwner_step hs he) ?_ hes
  intro c hc
  exact absurd hc (by simp)

/-- The owner stays, or there is a moment at which the device is released. -/
theorem released_or_owner {o : Nat} (howner : s.owner = some o) {more : List Event}
    (hmore : Along (step host) NoTakeover s more) :
    (runFrom (step host) s more).owner = some o ∨
      ∃ mid, mid <+: more ∧ Released (runFrom (step host) s mid).server := by
  induction more generalizing s with
  | nil =>
      exact .inl howner
  | cons e more ih =>
      rcases owner_step howner hmore.1 with hsame | hreleased
      · rcases ih hsame hmore.2 with hrest | ⟨mid, hmid, hreleased⟩
        · exact .inl hrest
        · exact .inr ⟨e :: mid, List.cons_prefix_cons.2 ⟨rfl, hmid⟩, hreleased⟩
      · exact .inr ⟨[e], ⟨more, rfl⟩, hreleased⟩

/-- In a run in which no connection is accepted while the owner is closing, only the owner's commands
are executed, and between two owners the device is released. -/
theorem single_owner_of_no_takeover (host : Host) (es : List Event)
    (hes : Along (step host) NoTakeover {} es) : SingleOwner host es := by
  constructor
  · rintro done e ⟨rest, rfl⟩ c hexecutes
    have hdone : Along (step host) NoTakeover {} done := by
      rw [List.append_assoc] at hes
      exact (along_append.1 hes).1
    cases e with
    | resume c' deviceTimeMs =>
        simp only [executes] at hexecutes
        split at hexecutes
        next hserving =>
          cases hexecutes
          exact servingOwner_run hdone c hserving.1
        next => cases hexecutes
    | accept _ _ | arrive _ _ | startClosing _ | feedEof _ | raise _ | iqTurn | psdTurn _ |
      statusTurn => cases hexecutes
  · rintro done more ⟨rest, rfl⟩ c d hc hd hne
    have hmore : Along (step host) NoTakeover (run host done) more := by
      rw [List.append_assoc] at hes
      exact (along_append.1 (along_append.1 hes).2).1
    have hrun (mid : List Event) : run host (done ++ mid) = runFrom (step host) (run host done) mid :=
      runFrom_append (step host) {} done mid
    rw [hrun] at hd
    rcases released_or_owner hc hmore with hsame | ⟨mid, hmid, hreleased⟩
    · exact absurd (Option.some.inj (hsame.symm.trans hd)) hne
    · exact ⟨mid, hmid, by rw [hrun]; exact hreleased⟩

def stopLine : WireLine where
  content := lineOf "\x7b\"request_id\":1,\"cmd\":\"stop_all\"\x7d"
  newline_notMem := by decide +kernel

/-- Two clients one after the other. -/
theorem single_owner_of_no_takeover_twoClients :
    SingleOwner asciiHost
      [.accept 1 (py "127.0.0.1"), .arrive 1 stopLine, .resume 1 0, .raise 1,
        .accept 2 (py "127.0.0.1"), .arrive 2 stopLine, .resume 2 0] := by
  exact single_owner_of_no_takeover asciiHost _ (by decide +kernel)

/-- The second client is accepted while the first one is closing, and then a command that the first one
had sent before is executed. -/
theorem not_singleOwner_takeover : ¬ ∀ (host : Host) (es : List Event), SingleOwner host es := by
  intro h
  have howner := (h asciiHost
    [.accept 1 (py "127.0.0.1"), .arrive 1 stopLine, .startClosing 1, .accept 2 (py "127.0.0.1"),
      .resume 1 0]).executes_owner
    [.accept 1 (py "127.0.0.1"), .arrive 1 stopLine, .startClosing 1, .accept 2 (py "127.0.0.1")]
    (.resume 1 0) (List.prefix_refl _) 1 (by decide +kernel)
  exact absurd howner (by decide +kernel)

end Clients

end Simulator
end Sdr
