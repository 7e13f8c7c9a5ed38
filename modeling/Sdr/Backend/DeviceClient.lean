import Sdr.Lib.Machine
import Sdr.Protocol.Control
import Mathlib.Logic.Function.Basic

/-!
# DeviceClient — the control connection of the backend

Model of `DeviceClient` in `rpi/backend/sdr_backend/device_client.py` with any number of asyncio tasks in
its methods.  A task runs undisturbed from one `await` to the next: `Pc` says at which one it is
suspended, an event resumes one task, starts a new one, or is something that the device or the network
does.  How long an `await` takes is up to the events, and each may raise or be cancelled.

Connections are numbered in the order in which `connect` opens them; reader and writer of one connection
have the same number.
-/

namespace Sdr
namespace Backend

open Lib Protocol

/-! ## State -/

/-- What `connect` sends in its `hello`. -/
structure ClientConfig where
  clientName : PyStr := py "rpi-sdr-backend"
  iqPort : Int := 9001
  psdPort : Int := 9002
  statusPort : Int := 9003
  deriving DecidableEq

/-- A line that `request` has written, the how-manieth of all it is, and to which connection. -/
structure Sent where
  number : Nat
  conn : Nat
  requestId : Nat
  message : PyDict
  deriving DecidableEq

/-- A line that the device has sent, and the request it is the answer to, if it is one. -/
structure Received where
  data : List UInt8
  answers : Option Sent
  deriving DecidableEq

/-- Where `request` was called. -/
inductive RequestCaller
  | user
  | connect
  | heartbeat
  deriving DecidableEq

/-- Where `close` was called: by itself, at the start of `connect`, in one of its handlers, or in the
handler of the heartbeat. -/
inductive CloseCaller
  | user
  | connect
  | failedConnect
  | heartbeat
  deriving DecidableEq

/-- The `await` at which a task is suspended. -/
inductive Pc
  | ended
  /-- `await task` in `close`, for the heartbeat it has cancelled. -/
  | joining (caller : CloseCaller) (heartbeat : Nat)
  /-- `await self._writer.wait_closed()`. -/
  | closing (caller : CloseCaller)
  /-- `await asyncio.wait_for(asyncio.open_connection(...))`. -/
  | opening
  /-- `async with self._lock`. -/
  | locking (caller : RequestCaller) (cmd : String) (fields : PyDict)
  /-- `await self._writer.drain()`. -/
  | draining (caller : RequestCaller) (sent : Sent)
  /-- `await asyncio.wait_for(self._reader.readline())`, of the reader of the given connection. -/
  | reading (caller : RequestCaller) (sent : Sent) (conn : Nat)
  /-- `await asyncio.sleep(2.0)` of the heartbeat. -/
  | sleeping
  deriving DecidableEq

structure DeviceClient where
  reader : Option Nat := none
  writer : Option Nat := none
  /-- The task that holds `_lock`. -/
  lock : Option Nat := none
  requestId : Nat := 0
  heartbeatTask : Option Nat := none
  tasks : Nat → Pc := fun _ => .ended
  /-- How many tasks and connections there are. -/
  started : Nat := 0
  opened : Nat := 0
  /-- `is_closing()` of the writer of a connection. -/
  isClosing : Nat → Bool := fun _ => false
  /-- The lines that have arrived on a connection and have not been read. -/
  inbox : Nat → List Received := fun _ => []
  sent : List Sent := []
  /-- The requests that have returned, with the line they returned. -/
  returned : List (Sent × Received) := []

namespace DeviceClient

/-- How an `await` ends. -/
inductive Outcome
  | completes
  | raises
  | cancelled
  deriving DecidableEq

inductive Event
  | connect
  | close
  | request (cmd : String) (fields : PyDict)
  | resume (task : Nat) (outcome : Outcome)
  /-- The device answers a request on the connection it came from. -/
  | answer (sent : Sent) (data : List UInt8)
  /-- It sends a line that is no answer. -/
  | push (conn : Nat) (data : List UInt8)
  /-- A connection breaks. -/
  | lose (conn : Nat)

/-! ## `close` -/

def connected (s : DeviceClient) : Bool :=
  match s.writer with
  | some conn => !s.isClosing conn
  | none => false

def setTask (s : DeviceClient) (task : Nat) (pc : Pc) : DeviceClient :=
  { s with tasks := Function.update s.tasks task pc }

/-- What follows `close` in its caller. -/
def afterClose (s : DeviceClient) (task : Nat) : CloseCaller → DeviceClient
  | .connect => s.setTask task .opening
  | .user | .failedConnect | .heartbeat => s.setTask task .ended

/-- The end of `close`, whatever has become of the fields in the meantime. -/
def clearWriter (s : DeviceClient) (task : Nat) (caller : CloseCaller) : DeviceClient :=
  { s with reader := none, writer := none }.afterClose task caller

def closeWriter (s : DeviceClient) (task : Nat) (caller : CloseCaller) : DeviceClient :=
  match s.writer with
  | some conn =>
    { s with isClosing := Function.update s.isClosing conn true }.setTask task (.closing caller)
  | none => s.clearWriter task caller

def close (s : DeviceClient) (task : Nat) (caller : CloseCaller) : DeviceClient :=
  match s.heartbeatTask with
  | some heartbeat =>
    let s := { s with heartbeatTask := none }
    -- The cancellation shows in how the heartbeat's own `await` ends.
    if heartbeat = task then s.closeWriter task caller
    else s.setTask task (.joining caller heartbeat)
  | none => s.closeWriter task caller

/-! ## `request` -/

/-- An exception leaves `request`. -/
def requestRaised (s : DeviceClient) (task : Nat) : RequestCaller → DeviceClient
  | .user => s.setTask task .ended
  | .connect => s.close task .failedConnect
  | .heartbeat => s.close task .heartbeat

/-- `request` returns; `connect` then creates the heartbeat. -/
def requestReturned (s : DeviceClient) (task : Nat) : RequestCaller → DeviceClient
  | .user => s.setTask task .ended
  | .connect =>
    { (s.setTask task .ended).setTask s.started .sleeping with
      heartbeatTask := some s.started
      started := s.started + 1 }
  | .heartbeat => s.setTask task .sleeping

/-- `request` up to its first `await`. -/
def request (s : DeviceClient) (task : Nat) (caller : RequestCaller) (cmd : String)
    (fields : PyDict) : DeviceClient :=
  if s.reader.isNone ∨ s.writer.isNone then s.requestRaised task caller
  else s.setTask task (.locking caller cmd fields)

section Lines

variable (T : PyTables)

/-- With the lock: the id is used up even if there is no writer left or the message has no encoding. -/
def write (s : DeviceClient) (task : Nat) (caller : RequestCaller) (cmd : String)
    (fields : PyDict) : DeviceClient :=
  let s := { s with requestId := s.requestId + 1 }
  let message := buildRequest s.requestId cmd fields
  match s.writer with
  | none => s.requestRaised task caller
  | some conn =>
    if (encodeJsonLine T message).isNone then s.requestRaised task caller
    else
      let sent : Sent :=
        { number := s.sent.length, conn := conn, requestId := s.requestId, message := message }
      { s with lock := some task, sent := s.sent ++ [sent] }.setTask task (.draining caller sent)

/-- `self._reader` is looked up only here. -/
def read (s : DeviceClient) (task : Nat) (caller : RequestCaller) (sent : Sent) : DeviceClient :=
  match s.reader with
  | none => { s with lock := none }.requestRaised task caller
  | some conn => s.setTask task (.reading caller sent conn)

/-- The checks of `request` on the line it has read. -/
def accepts (requestId : Nat) (data : List UInt8) : Bool :=
  match decodeJsonLine T data with
  | some response =>
    pyEqInt requestId (response.getD "request_id" .none) && pyBool (response.getD "ok" (.bool false))
  | none => false

/-- A line has been read, if there is one. -/
def receive (s : DeviceClient) (task : Nat) (caller : RequestCaller) (sent : Sent) (conn : Nat) :
    DeviceClient :=
  match s.inbox conn with
  | [] => s
  | line :: rest =>
    let s := { s with inbox := Function.update s.inbox conn rest, lock := none }
    if accepts T sent.requestId line.data then
      { s with returned := s.returned ++ [(sent, line)] }.requestReturned task caller
    else s.requestRaised task caller

/-! ## `connect` and the heartbeat -/

def helloFields (config : ClientConfig) : PyDict :=
  fieldsOf
    [("protocol_version", .int 1), ("client_name", .str config.clientName),
      ("udp", .dict (fieldsOf
        [("iq_port", .int config.iqPort), ("psd_port", .int config.psdPort),
          ("status_port", .int config.statusPort)]))]

/-- `connect` from `open_connection` to the lock of its `hello`. -/
def store (config : ClientConfig) (s : DeviceClient) (task : Nat) : DeviceClient :=
  { s with reader := some s.opened, writer := some s.opened, opened := s.opened + 1 }.request task
    .connect "hello" (helloFields config)

/-- One turn of `_heartbeat_loop`. -/
def beat (s : DeviceClient) (task : Nat) : DeviceClient :=
  if s.connected then s.request task .heartbeat "ping" (fieldsOf [("client_time_ms", .int 0)]) else s

/-! ## Runs -/

/-- The task goes on from its `await`. -/
def resume (config : ClientConfig) (s : DeviceClient) (task : Nat) : Outcome → DeviceClient
  | .completes =>
    match s.tasks task with
    | .ended => s
    | .joining caller heartbeat =>
      if s.tasks heartbeat = .ended then s.closeWriter task caller else s
    | .closing caller => s.clearWriter task caller
    | .opening => s.store config task
    | .locking caller cmd fields =>
      if s.lock.isNone then s.write T task caller cmd fields else s
    | .draining caller sent => s.read task caller sent
    | .reading caller sent conn => s.receive T task caller sent conn
    | .sleeping => s.beat task
  | .raises =>
    match s.tasks task with
    | .joining _ _ => s.setTask task .ended
    -- `except Exception: pass`.
    | .closing caller => s.clearWriter task caller
    | .opening => s.close task .failedConnect
    | .draining caller _ | .reading caller _ _ => { s with lock := none }.requestRaised task caller
    | .ended | .locking _ _ _ | .sleeping => s
  | .cancelled =>
    match s.tasks task with
    -- `suppress(asyncio.CancelledError)`.
    | .joining caller _ => s.closeWriter task caller
    | .draining _ _ | .reading _ _ _ => { s with lock := none }.setTask task .ended
    -- No handler of the client catches a `CancelledError`.
    | .ended | .closing _ | .opening | .locking _ _ _ | .sleeping => s.setTask task .ended

/-- The line is a response with that id. -/
def echoes (requestId : Nat) (data : List UInt8) : Bool :=
  match decodeJsonLine T data with
  | some response => response.get? "request_id" == some (.int requestId)
  | none => false

/-- The line is no response to a request: it has no id, or is no object at all. -/
def hasNoId (data : List UInt8) : Bool :=
  match decodeJsonLine T data with
  | some response => (response.get? "request_id").isNone
  | none => true

def arrive (s : DeviceClient) (conn : Nat) (line : Received) : DeviceClient :=
  { s with inbox := Function.update s.inbox conn (s.inbox conn ++ [line]) }

/-- The device answers with the id of the request, and nothing else it sends has an id. -/
def step (config : ClientConfig) (s : DeviceClient) : Event → DeviceClient
  | .connect => { s with started := s.started + 1 }.close s.started .connect
  | .close => { s with started := s.started + 1 }.close s.started .user
  | .request cmd fields => { s with started := s.started + 1 }.request s.started .user cmd fields
  | .resume task outcome => s.resume T config task outcome
  | .answer sent data =>
    if sent ∈ s.sent ∧ echoes T sent.requestId data = true then
      s.arrive sent.conn { data := data, answers := some sent }
    else s
  | .push conn data =>
    if conn < s.opened ∧ hasNoId T data = true then s.arrive conn { data := data, answers := none }
    else s
  | .lose conn =>
    if conn < s.opened then { s with isClosing := Function.update s.isClosing conn true } else s

def run (config : ClientConfig) (es : List Event) : DeviceClient :=
  runFrom (step T config) {} es

end Lines

end DeviceClient

end Backend
end Sdr
