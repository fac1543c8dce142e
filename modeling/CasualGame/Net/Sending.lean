import CasualGame.Net.ConnectionBuffer
import Mathlib.Algebra.GroupWithZero.Nat
import Mathlib.Logic.Function.Basic

/-!
`sendPacket`: into the buffer and on to the socket, or behind what is waiting already.
-/

namespace CasualGame.Net

/-- It has no more bytes than a `SizeType` counts. -/
@[ext]
structure Packet where
  buf : List UInt8
  size_lt : buf.length < 2 ^ 32

namespace Packet

variable (packet : Packet)

def size : Nat := packet.buf.length

def pop (size : Nat) : Packet :=
  if packet.buf.length ≤ size then ⟨[], Nat.two_pow_pos 32⟩
  else ⟨packet.buf.drop size, by
    have := packet.size_lt
    rw [List.length_drop]
    omega⟩

/-- The bytes that are copied. -/
def copy (maxSize : Nat) : List UInt8 := packet.buf.take maxSize

theorem buf_pop (size : Nat) : (packet.pop size).buf = packet.buf.drop size := by
  rw [pop]
  split_ifs with hall
  · rw [List.drop_of_length_le hall]
  · rfl

@[simp] theorem pop_zero : packet.pop 0 = packet := Packet.ext (packet.buf_pop 0)

theorem length_copy (maxSize : Nat) : (packet.copy maxSize).length = min maxSize packet.size :=
  List.length_take

theorem copy_append_pop (maxSize : Nat) :
    packet.copy maxSize ++ (packet.pop (packet.copy maxSize).length).buf = packet.buf := by
  rw [buf_pop, length_copy, copy, size]
  rcases Nat.le_total maxSize packet.buf.length with hle | hle
  · rw [Nat.min_eq_left hle, List.take_append_drop]
  · rw [Nat.min_eq_right hle, List.take_of_length_le hle, List.drop_length, List.append_nil]

end Packet

/-- A `Packet::Ptr`. The packets are shared: a queue has pointers to them. -/
abbrev PacketPtr := Nat

abbrev Packets := PacketPtr → Packet

/-- What a `ConnectionHolder` has for sending. -/
structure Sender where
  sendBuf : ConnectionBuffer
  sendQueue : List PacketPtr := []
  /-- The epoller also watches for the socket to be writeable. -/
  readWrite : Bool := false

/-- The epoller watches for a connection that has something to send. -/
def Sender.Watched (sender : Sender) : Prop :=
  sender.sendBuf.readable ≠ [] ∨ sender.sendQueue ≠ [] → sender.readWrite = true

/-- A call that may have sent something: what it comes back with, and what it leaves. -/
structure Sent where
  returned : Except NetException Bool
  packets : Packets
  sender : Sender
  /-- The bytes the socket took. -/
  emitted : List UInt8 := []

/-- The bytes of the packets of a queue. -/
def queued (packets : Packets) (queue : List PacketPtr) : List UInt8 :=
  queue.flatMap fun packet => (packets packet).buf

/-- What has gone out with the call, and what is still to go. -/
def Sent.stream (sent : Sent) : List UInt8 :=
  sent.emitted ++ sent.sender.sendBuf.readable ++ queued sent.packets sent.sender.sendQueue

namespace TcpConnectionManager

/-- The last lines of `sendPacket`, for a packet that is not sent to the end. -/
def queueRest (packets : Packets) (sender : Sender) (packet : PacketPtr) (rawBuf : RawBuf) :
    Sent :=
  let copied := (packets packet).copy rawBuf.second
  let sendBuf := ((sender.sendBuf.write rawBuf.first copied).commitWrite copied.length).2
  { returned := .ok true
    packets := Function.update packets packet ((packets packet).pop copied.length)
    sender := {
      sendBuf := sendBuf
      sendQueue := sender.sendQueue ++ [packet]
      readWrite := true } }

def sendPacket (packets : Packets) (sender : Sender) (packet : PacketPtr) (answer : SendResult) :
    Sent :=
  if sender.sendQueue ≠ [] then
    if 512 < sender.sendQueue.length then
      { returned := .ok false, packets := packets, sender := sender }
    else
      { returned := .ok true
        packets := packets
        sender := { sender with sendQueue := sender.sendQueue ++ [packet] } }
  else
    let size := (packets packet).size
    let (rawBuf, sendBuf) := sender.sendBuf.writeable size
    if size ≤ rawBuf.second then
      let sendBuf := ((sendBuf.write rawBuf.first
        ((packets packet).copy rawBuf.second)).commitWrite size).2
      match BufferedConnection.trySend sendBuf answer with
      | .error e =>
          { returned := .error e
            packets := packets
            sender := { sender with sendBuf := sendBuf } }
      | .ok (true, sendBuf, emitted) =>
          { returned := .ok true
            packets := packets
            sender := { sender with sendBuf := sendBuf }
            emitted := emitted }
      | .ok (false, sendBuf, emitted) =>
          { queueRest packets { sender with sendBuf := sendBuf } packet rawBuf with
            emitted := emitted }
    else queueRest packets { sender with sendBuf := sendBuf } packet rawBuf

section Appending

variable {packets : Packets} {sender : Sender} {packet : PacketPtr} {answer : SendResult}

theorem queued_concat (packets : Packets) (queue : List PacketPtr) (packet : PacketPtr) :
    queued packets (queue ++ [packet]) = queued packets queue ++ (packets packet).buf := by
  rw [queued, List.flatMap_append, List.flatMap_singleton]
  rfl

/-- The room that `sendPacket` is given for the packet. -/
def room (packets : Packets) (sender : Sender) (packet : PacketPtr) : Nat :=
  (sender.sendBuf.writeable (packets packet).size).1.second

/-- The buffer once the packet is in it as a whole. -/
def filled (packets : Packets) (sender : Sender) (packet : PacketPtr) : ConnectionBuffer :=
  let (rawBuf, sendBuf) := sender.sendBuf.writeable (packets packet).size
  ((sendBuf.write rawBuf.first ((packets packet).copy rawBuf.second)).commitWrite
    (packets packet).size).2

theorem filled_spec (hroom : (packets packet).size ≤ room packets sender packet) :
    let first := (sender.sendBuf.writeable (packets packet).size).1.first
    (filled packets sender packet).readable = sender.sendBuf.readable ++ (packets packet).buf ∧
      (filled packets sender packet).dataEnd = first + (packets packet).size ∧
        (filled packets sender packet).capacity = sender.sendBuf.capacity ∧
          first + room packets sender packet = sender.sendBuf.capacity ∧
            ((filled packets sender packet).buf.drop first).take (packets packet).size =
              (packets packet).buf := by
  have hfirst := sender.sendBuf.writeable_first (packets packet).size
  have hsecond := sender.sendBuf.writeable_second (packets packet).size
  have hreadable := sender.sendBuf.readable_writeable (packets packet).size
  have hcapacity := sender.sendBuf.capacity_writeable (packets packet).size
  have hcopy : (packets packet).copy (room packets sender packet) = (packets packet).buf :=
    List.take_of_length_le hroom
  rw [room] at hroom hcopy ⊢
  rw [filled]
  generalize sender.sendBuf.writeable (packets packet).size = written at *
  obtain ⟨rawBuf, b⟩ := written
  dsimp only at *
  have hend : b.dataEnd ≤ b.capacity := b.end_le
  have hfits : (packets packet).size ≤ b.capacity - b.dataEnd := by omega
  have hsame : (packets packet).size ≤
      (b.write b.dataEnd (packets packet).buf).capacity -
        (b.write b.dataEnd (packets packet).buf).dataEnd := by
    rw [ConnectionBuffer.capacity_write]
    exact hfits
  obtain ⟨hbuf, hdataEnd⟩ := ConnectionBuffer.commitWrite_of_le hsame
  rw [hcopy, hfirst]
  refine ⟨?_, hdataEnd, ?_, by omega, ?_⟩
  · rw [← hreadable]
    exact ConnectionBuffer.readable_commitWrite hfits
  · rw [ConnectionBuffer.capacity_commitWrite, ConnectionBuffer.capacity_write, hcapacity]
  · rw [hbuf]
    refine ConnectionBuffer.write_there ?_
    rw [ConnectionBuffer.capacity, Packet.size] at hfits
    rw [ConnectionBuffer.capacity] at hend
    omega

/-- All that a call can come to. -/
inductive SendOutcome (packets : Packets) (sender : Sender) (packet : PacketPtr)
    (answer : SendResult) : Sent → Prop
  | refused (hqueue : sender.sendQueue ≠ []) :
      SendOutcome packets sender packet answer
        { returned := .ok false, packets := packets, sender := sender }
  | queued (hqueue : sender.sendQueue ≠ []) :
      SendOutcome packets sender packet answer
        { returned := .ok true
          packets := packets
          sender := { sender with sendQueue := sender.sendQueue ++ [packet] } }
  /-- The front of the packet is in the buffer, its rest waits. -/
  | split {sendBuf : ConnectionBuffer} {front : List UInt8} (hqueue : sender.sendQueue = [])
      (hshort : room packets sender packet < (packets packet).size)
      (hlength : front.length = room packets sender packet)
      (hcapacity : sendBuf.capacity = sender.sendBuf.capacity)
      (hreadable : sendBuf.readable = sender.sendBuf.readable ++ front)
      (hfront : front ++ ((packets packet).pop front.length).buf = (packets packet).buf) :
      SendOutcome packets sender packet answer
        { returned := .ok true
          packets := Function.update packets packet ((packets packet).pop front.length)
          sender := { sendBuf := sendBuf, sendQueue := [packet], readWrite := true } }
  | failed {e : NetException} {sendBuf : ConnectionBuffer} :
      SendOutcome packets sender packet answer
        { returned := .error e
          packets := packets
          sender := { sender with sendBuf := sendBuf } }
  | drained {sendBuf : ConnectionBuffer} (hqueue : sender.sendQueue = [])
      (htaken : (packets packet).size = 0 ∨
        answer.Takes (sender.sendBuf.readable.length + (packets packet).size))
      (hcapacity : sendBuf.capacity = sender.sendBuf.capacity)
      (hreadable : sendBuf.readable = []) :
      SendOutcome packets sender packet answer
        { returned := .ok true
          packets := packets
          sender := { sender with sendBuf := sendBuf }
          emitted := sender.sendBuf.readable ++ (packets packet).buf }
  /-- What is not sent to the end is committed once more, when there is the room. -/
  | again {sendBuf : ConnectionBuffer} {emitted left extra : List UInt8}
      (hqueue : sender.sendQueue = [])
      (hroom : (packets packet).size ≤ room packets sender packet)
      (hbusy : ¬ answer.Takes (sender.sendBuf.readable.length + (packets packet).size))
      (hanswer : answer ≠ .fault) (hcapacity : sendBuf.capacity = sender.sendBuf.capacity)
      (hsent : emitted ++ left = sender.sendBuf.readable ++ (packets packet).buf)
      (hleft : left ≠ []) (hreadable : sendBuf.readable = left ++ extra)
      (hextra : extra.length = if room packets sender packet < 2 * (packets packet).size then 0
        else (packets packet).size) :
      SendOutcome packets sender packet answer
        { returned := .ok true
          packets := Function.update packets packet ((packets packet).pop (packets packet).size)
          sender := { sendBuf := sendBuf, sendQueue := [packet], readWrite := true }
          emitted := emitted }

theorem outcome_of_short (hqueue : sender.sendQueue = [])
    (hshort : room packets sender packet < (packets packet).size) :
    SendOutcome packets sender packet answer (sendPacket packets sender packet answer) := by
  have hsend : sendPacket packets sender packet answer = queueRest packets
      { sender with sendBuf := (sender.sendBuf.writeable (packets packet).size).2 } packet
      (sender.sendBuf.writeable (packets packet).size).1 := by
    rw [sendPacket, if_neg (not_not_intro hqueue)]
    exact if_neg (Nat.not_le_of_lt hshort)
  have hfirst := sender.sendBuf.writeable_first (packets packet).size
  have hsecond := sender.sendBuf.writeable_second (packets packet).size
  have hreadable := sender.sendBuf.readable_writeable (packets packet).size
  have hcapacity := sender.sendBuf.capacity_writeable (packets packet).size
  have hlength := (packets packet).length_copy (room packets sender packet)
  rw [Nat.min_eq_left (Nat.le_of_lt hshort)] at hlength
  have hfits : ((packets packet).copy (room packets sender packet)).length ≤
      (sender.sendBuf.writeable (packets packet).size).2.capacity -
        (sender.sendBuf.writeable (packets packet).size).2.dataEnd := by
    apply Nat.le_of_eq
    rw [hlength, room, hsecond, hcapacity]
  have hqueueRest : (sender.sendQueue ++ [packet]) = [packet] := by rw [hqueue, List.nil_append]
  rw [hsend, queueRest, hfirst]
  simp only [hqueueRest]
  refine .split hqueue hshort hlength ?_ ?_ ?_
  · rw [ConnectionBuffer.capacity_commitWrite, ConnectionBuffer.capacity_write, hcapacity]
  · rw [← hreadable]
    exact ConnectionBuffer.readable_commitWrite hfits
  · exact (packets packet).copy_append_pop _

theorem outcome_of_room (hqueue : sender.sendQueue = [])
    (hroom : (packets packet).size ≤ room packets sender packet) :
    SendOutcome packets sender packet answer (sendPacket packets sender packet answer) := by
  obtain ⟨hreadable, hend, hcapacity, hwhole, hthere⟩ := filled_spec hroom
  have hlength : (filled packets sender packet).readable.length =
      sender.sendBuf.readable.length + (packets packet).size := by
    rw [hreadable, List.length_append, Packet.size]
  have hunfold := hroom
  rw [room] at hunfold
  rw [sendPacket, if_neg (not_not_intro hqueue)]
  dsimp only
  rw [if_pos hunfold]
  cases hsent : BufferedConnection.trySend (filled packets sender packet) answer with
  | error e =>
      rw [filled] at hsent
      dsimp only at hsent
      rw [hsent]
      exact .failed
  | ok sent =>
      obtain ⟨done, after, emitted⟩ := sent
      obtain ⟨hbytes, hafter, hrest⟩ := BufferedConnection.trySend_ok hsent
      rw [hreadable] at hbytes
      rw [hcapacity] at hafter
      have hsent' := hsent
      rw [filled] at hsent'
      dsimp only at hsent'
      rw [hsent']
      split_ifs at hrest with hall
      · obtain ⟨rfl, hnone⟩ := hrest
        rw [hnone, List.append_nil] at hbytes
        subst hbytes
        refine .drained hqueue ?_ hafter hnone
        rcases hall with hempty | htakes
        · rw [hempty, List.length_nil] at hlength
          exact Or.inl (by omega)
        · rw [hlength] at htakes
          exact Or.inr htakes
      · obtain ⟨rfl, hleft, hbuf, hafterEnd⟩ := hrest
        rw [not_or] at hall
        have hanswer : answer ≠ .fault := by
          rintro rfl
          rw [BufferedConnection.trySend_fault hall.1] at hsent
          cases hsent
        rw [hlength] at hall
        have hcopy :
            (packets packet).copy (sender.sendBuf.writeable (packets packet).size).1.second =
              (packets packet).buf := List.take_of_length_le hunfold
        have hfits := (filled packets sender packet).end_le
        rw [hend, ← hbuf] at hfits
        rw [← hbuf] at hthere
        have hsame := ConnectionBuffer.write_self hfits hthere
        obtain ⟨extra, hcommit, hextra⟩ := after.readable_commitWrite_append (packets packet).size
        simp only [queueRest, hcopy, hsame, hqueue, List.nil_append]
        refine .again hqueue hroom hall.2 hanswer ?_ hbytes hleft hcommit ?_
        · rw [ConnectionBuffer.capacity_commitWrite, hafter]
        · rw [hextra]
          split_ifs <;> omega

theorem sendPacket_outcome (packets : Packets) (sender : Sender) (packet : PacketPtr)
    (answer : SendResult) :
    SendOutcome packets sender packet answer (sendPacket packets sender packet answer) := by
  by_cases hqueue : sender.sendQueue = []
  · rcases Nat.lt_or_ge (room packets sender packet) (packets packet).size with hshort | hroom
    · exact outcome_of_short hqueue hshort
    · exact outcome_of_room hqueue hroom
  · rw [sendPacket, if_pos hqueue]
    split_ifs
    · exact .refused hqueue
    · exact .queued hqueue

/-- A packet that there is room for twice, on a connection that has nothing waiting and a
socket that does not take it with what is in the buffer. -/
def CommitsTwice (packets : Packets) (sender : Sender) (packet : PacketPtr)
    (answer : SendResult) : Prop :=
  sender.sendQueue = [] ∧ 0 < (packets packet).size ∧
    2 * (packets packet).size ≤ room packets sender packet ∧
      ¬ answer.Takes (sender.sendBuf.readable.length + (packets packet).size)

theorem queued_one_update (packets : Packets) (packet : PacketPtr) (rest : Packet) :
    queued (Function.update packets packet rest) [packet] = rest.buf := by
  rw [queued, List.flatMap_singleton, Function.update_self]

theorem buf_pop_size (packets : Packets) (packet : PacketPtr) :
    ((packets packet).pop (packets packet).size).buf = [] := by
  rw [Packet.buf_pop, Packet.size, List.drop_length]

theorem extra_eq_nil_iff {extra : List UInt8} (hqueue : sender.sendQueue = [])
    (hbusy : ¬ answer.Takes (sender.sendBuf.readable.length + (packets packet).size))
    (hextra : extra.length = if room packets sender packet < 2 * (packets packet).size then 0
      else (packets packet).size) :
    extra = [] ↔ ¬ CommitsTwice packets sender packet answer := by
  rw [← List.length_eq_zero_iff, hextra, CommitsTwice]
  split_ifs with hshort
  · simp only [true_iff, not_and]
    omega
  · constructor
    · rintro hzero ⟨-, hsize, -⟩
      omega
    · intro honce
      by_contra hsize
      exact honce ⟨hqueue, by omega, by omega, hbusy⟩

theorem SendOutcome.stream_accepted {sent : Sent}
    (h : SendOutcome packets sender packet answer sent) (hok : sent.returned = .ok true) :
    ∃ extra, sent.stream = sender.sendBuf.readable ++ Net.queued packets sender.sendQueue ++
        (packets packet).buf ++ extra ∧
      (extra = [] ↔ ¬ CommitsTwice packets sender packet answer) := by
  cases h with
  | refused => exact absurd (Except.ok.inj hok) Bool.false_ne_true
  | queued hqueue =>
      refine ⟨[], ?_, fun _ h => hqueue h.1, fun _ => rfl⟩
      rw [Sent.stream, List.nil_append, queued_concat, List.append_nil, List.append_assoc]
  | split hqueue hshort hlength hcapacity hreadable hfront =>
      refine ⟨[], ?_, fun _ h => ?_, fun _ => rfl⟩
      · rw [Sent.stream, List.nil_append, queued_one_update, hreadable, hqueue, List.append_assoc,
          hfront, Net.queued, List.flatMap_nil, List.append_nil, List.append_nil]
      · obtain ⟨-, -, htwice, -⟩ := h
        omega
  | failed => cases hok
  | drained hqueue htaken hcapacity hreadable =>
      refine ⟨[], ?_, fun _ h => ?_, fun _ => rfl⟩
      · simp only [Sent.stream, hreadable, hqueue, List.append_nil, Net.queued, List.flatMap_nil]
      · obtain ⟨-, hsize, -, hbusy⟩ := h
        rcases htaken with hzero | htaken
        · omega
        · exact hbusy htaken
  | @again sendBuf emitted left extra hqueue hroom hbusy hanswer hcapacity hsent hleft hreadable
      hextra =>
      refine ⟨extra, ?_, extra_eq_nil_iff hqueue hbusy hextra⟩
      rw [Sent.stream]
      simp only [hreadable, queued_one_update, buf_pop_size, hqueue, List.append_nil]
      rw [Net.queued, List.flatMap_nil, List.append_nil, ← hsent, List.append_assoc]

/-- What a call leaves for the socket is what was there and the packet, unless it commits
the packet twice. -/
theorem sendPacket_appends_iff
    (h : (sendPacket packets sender packet answer).returned = .ok true) :
    (sendPacket packets sender packet answer).stream =
        sender.sendBuf.readable ++ queued packets sender.sendQueue ++ (packets packet).buf ↔
      ¬ CommitsTwice packets sender packet answer := by
  obtain ⟨extra, hstream, hextra⟩ :=
    (sendPacket_outcome packets sender packet answer).stream_accepted h
  rw [hstream, ← hextra, List.append_right_eq_self]

/-- One byte on a connection that has nothing to send. -/
def oneByte : Packets := fun _ => ⟨[7], by decide⟩

theorem sendPacket_appends_iff_oneByte :
    (sendPacket oneByte { sendBuf := .create 2048 } 0 (.sent 1)).stream =
        (ConnectionBuffer.create 2048).readable ++ queued oneByte [] ++ (oneByte 0).buf ↔
      ¬ CommitsTwice oneByte { sendBuf := .create 2048 } 0 (.sent 1) :=
  sendPacket_appends_iff (by decide +kernel)

/-- The socket takes nothing, and there are two bytes to send. -/
theorem sendPacket_repeats :
    ¬ ∀ (packets : Packets) (sender : Sender) (packet : PacketPtr) (answer : SendResult),
      (sendPacket packets sender packet answer).returned = .ok true →
      (sendPacket packets sender packet answer).stream =
        sender.sendBuf.readable ++ queued packets sender.sendQueue ++ (packets packet).buf := by
  intro h
  have hstream := h oneByte { sendBuf := .create 2048 } 0 .again (by decide +kernel)
  exact absurd hstream (by decide +kernel)

end Appending

end TcpConnectionManager

/-- The same lines again. -/
def HttpConnectionManager.sendPacket (packets : Packets) (sender : Sender) (packet : PacketPtr)
    (answer : SendResult) : Sent :=
  TcpConnectionManager.sendPacket packets sender packet answer

end CasualGame.Net
