import CasualGame.Lib.Run
import CasualGame.Net.WriteEvents

/-!
The connections of a manager and the packets they share: single sends, broadcasts, which
hand one packet to many connections, and write events.
-/

namespace CasualGame.Net

open Lib.Run
open TcpConnectionManager

abbrev ConnId := Nat

/-- Which of the manager's maps a connection is in. -/
inductive ConnType
  | privateType (processType : Nat)
  | publicType
  deriving DecidableEq

/-- A connection, with the bytes it has emitted and all that it has accepted. -/
structure Link where
  sender : Sender
  type : ConnType
  /-- A write event has its lock. -/
  writing : Bool := false
  erased : Bool := false
  /-- Its socket has thrown. -/
  failed : Bool := false
  emitted : List UInt8 := []
  accepted : List (List UInt8) := []

def Link.Live (link : Link) : Prop := link.erased = false ∧ link.failed = false

/-- A broadcast that has still to visit some of its receivers, and the bytes it was called
with. -/
structure Broadcast where
  packet : PacketPtr
  receivers : List ConnId
  original : List UInt8

structure Outgoing where
  packets : Packets
  links : ConnId → Option Link
  broadcast : Option Broadcast := none

inductive SendAct
  | connect (c : ConnId) (type : ConnType) (sizeLimit : Nat)
  | create (packet : PacketPtr) (content : Packet)
  | send (c : ConnId) (packet : PacketPtr) (answer : SendResult)
  | broadcast (type : ConnType) (packet : PacketPtr) (receivers : List ConnId)
  | visit (answer : SendResult)
  | writeEvent (c : ConnId)
  | writeTurn (c : ConnId) (answer : SendResult)
  | erase (c : ConnId)

/-- The link after a call or a round that has come to this. -/
def Link.after (link : Link) (sent : Sent) : Link :=
  { link with
    sender := sent.sender
    emitted := link.emitted ++ sent.emitted }

/-- A packet counts as accepted when `sendPacket` says so. An exception is only logged. -/
def Link.handed (link : Link) (sent : Sent) (original : List UInt8) : Link :=
  match sent.returned with
  | .ok true => { link.after sent with accepted := link.accepted ++ [original] }
  | .ok false => link.after sent
  | .error _ => { link.after sent with failed := true }

/-- The event ends with a round that does not go on. -/
def Link.turned (link : Link) (sent : Sent) : Link :=
  match sent.returned with
  | .ok goesOn => { link.after sent with writing := goesOn }
  | .error _ => { link.after sent with writing := false, failed := true }

namespace Outgoing

variable (s : Outgoing)

def setLink (c : ConnId) (link : Link) : Outgoing :=
  { s with links := Function.update s.links c (some link) }

def sendPacket (c : ConnId) (packet : PacketPtr) (original : List UInt8) (answer : SendResult) :
    Outgoing :=
  match s.links c with
  | none => s
  | some link =>
      let sent := TcpConnectionManager.sendPacket s.packets link.sender packet answer
      { s with packets := sent.packets }.setLink c (link.handed sent original)

def writeTurn (c : ConnId) (answer : SendResult) : Outgoing :=
  match s.links c with
  | none => s
  | some link =>
      let sent := TcpConnectionManager.writeTurn s.packets link.sender answer
      { s with packets := sent.packets }.setLink c (link.turned sent)

/-- The next receiver of the broadcast. -/
def visit (answer : SendResult) : Outgoing :=
  match s.broadcast with
  | some { packet, receivers := c :: receivers, original } =>
      { s.sendPacket c packet original answer with
        broadcast := if receivers = [] then none else some { packet, receivers, original } }
  | _ => s

def step : SendAct → Outgoing
  | .connect c type sizeLimit =>
      s.setLink c { sender := { sendBuf := .create sizeLimit }, type := type }
  | .create packet content => { s with packets := Function.update s.packets packet content }
  | .send c packet answer => s.sendPacket c packet (s.packets packet).buf answer
  | .broadcast _ packet receivers =>
      if receivers = [] then s
      else { s with broadcast := some { packet, receivers, original := (s.packets packet).buf } }
  | .visit answer => s.visit answer
  | .writeEvent c =>
      match s.links c with
      | none => s
      | some link => s.setLink c { link with writing := true }
  | .writeTurn c answer => s.writeTurn c answer
  | .erase c =>
      match s.links c with
      | none => s
      | some link => s.setLink c { link with erased := true }

/-- A broadcast has the lock of the manager from its first receiver to its last, and a
write event the lock of its connection. -/
def Allowed : SendAct → Prop
  | .connect c _ sizeLimit => s.broadcast = none ∧ s.links c = none ∧ 0 < sizeLimit
  | .create packet _ => (∀ b, s.broadcast = some b → b.packet ≠ packet) ∧
      ∀ c link, s.links c = some link → packet ∉ link.sender.sendQueue
  | .send c _ _ => s.broadcast = none ∧
      ∃ link, s.links c = some link ∧ link.erased = false ∧ link.writing = false
  | .broadcast type _ receivers => s.broadcast = none ∧ receivers.Nodup ∧
      ∀ c, c ∈ receivers ↔ ∃ link, s.links c = some link ∧ link.erased = false ∧ link.type = type
  | .visit _ => ∃ b c receivers link, s.broadcast = some b ∧ b.receivers = c :: receivers ∧
      s.links c = some link ∧ link.writing = false
  | .writeEvent c =>
      ∃ link, s.links c = some link ∧ link.sender.readWrite = true ∧ link.writing = false
  | .writeTurn c _ => ∃ link, s.links c = some link ∧ link.writing = true
  | .erase c => s.broadcast = none ∧ ∃ link, s.links c = some link

/-- What a call or a round trims has no other place where its bytes are still needed:
neither behind it in its own queue nor in the queue of another connection. -/
def Alone (c : ConnId) (packet : PacketPtr) (behind : List PacketPtr) : Prop :=
  packet ∉ behind ∧ ∀ c' link, c' ≠ c → s.links c' = some link → link.Live →
    packet ∉ link.sender.sendQueue

/-- No packet is trimmed in place that another queue has too or that the broadcast has
still to hand out. -/
def Spares : SendAct → Prop
  | .send c packet answer => ∀ link, s.links c = some link →
      ∀ p behind, sendTrims s.packets link.sender packet answer = some (p, behind) →
        s.Alone c p behind
  | .visit answer => ∀ packet c receivers original link,
      s.broadcast = some { packet, receivers := c :: receivers, original } →
      s.links c = some link →
        ∀ p behind, sendTrims s.packets link.sender packet answer = some (p, behind) →
          s.Alone c p behind ∧ receivers = []
  | .writeTurn c answer => ∀ link, s.links c = some link →
      ∀ p behind, turnTrims s.packets link.sender answer = some (p, behind) →
        s.Alone c p behind ∧ ∀ b, s.broadcast = some b → b.packet ≠ p
  | _ => True

end Outgoing

/-- A connection at the start: any buffer and any queue, and something to send is watched
for. -/
def Link.Initial (packets : Packets) (link : Link) : Prop :=
  0 < link.sender.sendBuf.capacity ∧ link.sender.Watched ∧ link = {
    sender := link.sender
    type := link.type
    accepted := [link.sender.sendBuf.readable ++ queued packets link.sender.sendQueue] }

def sendSystem : System Outgoing SendAct Empty where
  Init s := s.broadcast = none ∧ ∀ c link, s.links c = some link → link.Initial s.packets
  Allowed s act := s.Allowed act
  step s act := .ok (s.step act)

end CasualGame.Net
