import CasualGame.Base.ProcessId
import CasualGame.Net.ConnectionBuffer

/-!
The checker of the connections between processes: each side tells the other who it is
before a connection is used.
-/

namespace CasualGame.Base

open Net
open Relay

/-- What the side that was connected to answers. Padding follows the result. -/
structure ConnCheckRetMsg where
  pid : ProcessId
  result : Bool
  padding : Vector UInt8 3

namespace ConnCheckRetMsg

def sizeof : Nat := 12

def bytes (msg : ConnCheckRetMsg) : List UInt8 :=
  msg.pid.bytes ++ (if msg.result then 1 else 0) :: msg.padding.toList

def pidOf (buf : List UInt8) : ProcessId := ProcessId.read buf

def resultOf (buf : List UInt8) : Bool := buf.getD ProcessId.sizeof 0 ≠ 0

@[simp] theorem length_bytes (msg : ConnCheckRetMsg) : msg.bytes.length = sizeof := by
  rw [bytes, List.length_append, ProcessId.length_bytes, List.length_cons, Vector.length_toList]
  rfl

@[simp] theorem pidOf_bytes (msg : ConnCheckRetMsg) : pidOf msg.bytes = msg.pid :=
  ProcessId.read_bytes_append msg.pid _

@[simp] theorem resultOf_bytes (msg : ConnCheckRetMsg) : resultOf msg.bytes = msg.result := by
  have hbyte : msg.bytes[ProcessId.sizeof]? = some (if msg.result then 1 else 0) := by
    rw [bytes, List.getElem?_append_right (ProcessId.length_bytes _).le, ProcessId.length_bytes]
    rfl
  rw [resultOf, List.getD_eq_getElem?_getD, hbyte]
  cases msg.result with
  | true => rfl
  | false => rfl

end ConnCheckRetMsg

/-- Whether the connection came in or was made to go out. -/
inductive ConnType
  | incoming
  | outgoing
  deriving DecidableEq

inductive ConnState
  | recvId | sendRet
  | sendId | recvRet
  deriving DecidableEq

structure ConnInfo where
  state : ConnState
  remoteId : ProcessId := .setValue 0
  checkResult : Bool := false

/-- One side of a connection: its process, the connection, and what there is in `m_conns`
about it. -/
structure Endpoint where
  processId : ProcessId
  type2Name : List String
  sendBuf : ConnectionBuffer
  recvBuf : ConnectionBuffer
  info : Option ConnInfo := none
  /-- `addUncheckedConnection` has been called. -/
  added : Bool := false
  /-- What has come from the socket. -/
  received : List UInt8 := []
  /-- What the checker has taken of it. -/
  consumed : List UInt8 := []
  /-- What the checker has put into the send buffer. -/
  handshake : List UInt8 := []
  /-- What the socket has taken. -/
  sent : List UInt8 := []
  /-- The ids with which `e_connConfirmed` has been raised. -/
  confirmed : List ProcessId := []

namespace Endpoint

/-- A side of a connection that has just been set up. -/
def create (processId : ProcessId) (type2Name : List String) (sendLimit recvLimit : Nat) :
    Endpoint where
  processId := processId
  type2Name := type2Name
  sendBuf := .create sendLimit
  recvBuf := .create recvLimit

variable (e : Endpoint)

def tryRecv (answer : RecvResult) : Except NetException (Bool × Endpoint) := do
  let (nonempty, recvBuf) ← BufferedConnection.tryRecv e.recvBuf answer
  return (nonempty, { e with recvBuf := recvBuf, received := e.received ++ answer.bytes })

def trySend (answer : SendResult) : Except NetException (Bool × Endpoint) := do
  let (empty, sendBuf, emitted) ← BufferedConnection.trySend e.sendBuf answer
  return (empty, { e with sendBuf := sendBuf, sent := e.sent ++ emitted })

/-- The first bytes of what can be read, which are read. -/
def take (size : Nat) : List UInt8 × Endpoint :=
  let bytes := e.recvBuf.readable.take size
  (bytes, { e with recvBuf := (e.recvBuf.commitRead size).2, consumed := e.consumed ++ bytes })

/-- A message goes into the send buffer, if there is room for it. -/
def put (bytes : List UInt8) : Option Endpoint :=
  let (sndBuf, sendBuf) := e.sendBuf.writeable bytes.length
  if sndBuf.second < bytes.length then none
  else
    let sendBuf := ((sendBuf.write sndBuf.first bytes).commitWrite bytes.length).2
    some { e with sendBuf := sendBuf, handshake := e.handshake ++ bytes }

def erase : Endpoint := { e with info := none }

/-- The event is raised if the check was passed, and the connection is done with. -/
def finish (info : ConnInfo) : Endpoint :=
  if info.checkResult then { e.erase with confirmed := e.confirmed ++ [info.remoteId] }
  else e.erase

/-- `fails` is whether the socket could not be set to non-blocking. -/
def addUncheckedConnection (type : ConnType) (fails : Bool) : Endpoint :=
  let e := { e with added := true }
  if fails then e
  else
    match type with
    | .incoming => { e with info := some { state := .recvId } }
    | .outgoing =>
        match e.put e.processId.bytes with
        | none => e
        | some e => { e with info := some { state := .sendId } }

section States

variable (info : ConnInfo) (recv : RecvResult) (send : SendResult) (padding : Vector UInt8 3)

def sendRet : Endpoint :=
  match e.trySend send with
  | .error _ => e.erase
  | .ok (false, e) => { e with info := some info }
  | .ok (true, e) => e.finish info

/-- Goes on to send at once. -/
def recvId : Endpoint :=
  match e.tryRecv recv with
  | .error _ => e.erase
  | .ok (false, e) => e
  | .ok (true, e) =>
      if e.recvBuf.readable.length < ProcessId.sizeof then e
      else
        let (rcvBuf, e) := e.take ProcessId.sizeof
        let remoteId := ProcessId.read rcvBuf
        let result := remoteId.isValid e.type2Name
        match e.put (ConnCheckRetMsg.bytes ⟨e.processId, result, padding⟩) with
        | none => e.erase
        | some e => e.sendRet ⟨.sendRet, remoteId, result⟩ send

def recvRet : Endpoint :=
  match e.tryRecv recv with
  | .error _ => e.erase
  | .ok (false, e) => { e with info := some info }
  | .ok (true, e) =>
      if e.recvBuf.readable.length < ConnCheckRetMsg.sizeof then { e with info := some info }
      else
        let (rcvBuf, e) := e.take ConnCheckRetMsg.sizeof
        e.finish ⟨info.state, ConnCheckRetMsg.pidOf rcvBuf, ConnCheckRetMsg.resultOf rcvBuf⟩

/-- Goes on to receive at once. -/
def sendId : Endpoint :=
  match e.trySend send with
  | .error _ => e.erase
  | .ok (false, e) => e
  | .ok (true, e) => e.recvRet { info with state := .recvRet } recv

/-- The turn of a connection in a pass of `checkConn`. -/
def checkConn : Endpoint :=
  match e.info with
  | none => e
  | some info =>
      match info.state with
      | .recvId => e.recvId recv send padding
      | .sendRet => e.sendRet info send
      | .sendId => e.sendId info recv send
      | .recvRet => e.recvRet info recv

end States

end Endpoint

end CasualGame.Base
