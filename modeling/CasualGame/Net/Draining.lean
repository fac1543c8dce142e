import CasualGame.Lib.While
import CasualGame.Net.WriteEvents

/-!
A whole write event: the rounds of the outer loop, until the socket takes no more or there
is nothing more to send.
-/

namespace CasualGame.Net.TcpConnectionManager

open Lib.While

/-- A round of the event, which adds what it sends to what has been sent. -/
def writeRound (answer : SendResult) (sent : Sent) : ForInStep Sent :=
  let turn := writeTurn sent.packets sent.sender answer
  let sent := { turn with emitted := sent.emitted ++ turn.emitted }
  match turn.returned with
  | .ok true => .yield sent
  | _ => .done sent

/-- The write event, on a socket that answers one after the other to the calls of `send`. -/
def writeEvent (packets : Packets) (sender : Sender) (answers : Nat → SendResult)
    (rounds : Nat) : Option Sent :=
  whileLoop writeRound answers rounds { returned := .ok true, packets := packets, sender := sender }

variable {packets : Packets} {sender : Sender} {answer : SendResult} {sent : Sent}
  {b : ConnectionBuffer} {queue : List PacketPtr}

theorem splitAt_some {packet : PacketPtr} {rest : List PacketPtr}
    (h : splitAt packets b queue = some (packet, rest)) : packet :: rest <:+ queue := by
  induction queue generalizing b with
  | nil => cases h
  | cons p queue ih =>
      rw [splitAt] at h
      dsimp only at h
      split_ifs at h with hnone hshort
      · obtain ⟨rfl, rfl⟩ := Prod.mk.inj (Option.some.inj h)
        exact List.suffix_rfl
      · exact (ih h).trans (List.suffix_cons _ _)

/-- The packets that wait, and their bytes. -/
def waiting (packets : Packets) (queue : List PacketPtr) : Nat :=
  queue.length + (queued packets queue).length

theorem FillOutcome.suffix {after : Packets × ConnectionBuffer × List PacketPtr}
    (h : FillOutcome packets b queue after) : after.2.2 <:+ queue := by
  cases h with
  | whole => exact List.suffix_append _ _
  | split => exact List.suffix_append _ _

theorem splitAt_alone (hnodup : queue.Nodup) (packet : PacketPtr) (rest : List PacketPtr)
    (h : splitAt packets b queue = some (packet, rest)) : packet ∉ rest :=
  (List.nodup_cons.mp ((splitAt_some h).sublist.nodup hnodup)).1

theorem FillOutcome.waiting_lt {after : Packets × ConnectionBuffer × List PacketPtr}
    (h : FillOutcome packets b queue after) (hqueue : queue ≠ []) (hnodup : queue.Nodup)
    (hempty : b.readable = []) (hcapacity : 0 < b.capacity) :
    waiting after.1 after.2.2 < waiting packets queue := by
  have hstream := congrArg List.length (h.stream (splitAt_alone hnodup))
  rw [hempty, List.nil_append, List.length_append] at hstream
  have hlength := h.suffix.length_le
  have hpos := List.length_pos_of_ne_nil hqueue
  rw [waiting, waiting]
  rcases h.grows.2.2 with hnone | hfull
  · have hnil : queued after.1 [] = [] := rfl
    rw [hnone, hnil, List.length_nil, List.length_nil]
    omega
  · omega

/-- All that a round can come to. -/
inductive RoundOutcome (packets : Packets) (sender : Sender) (answer : SendResult) : Sent → Prop
  | failed {e : NetException} (hanswer : answer = .fault)
      (hpending : sender.sendBuf.readable ≠ []) :
      RoundOutcome packets sender answer
        { returned := .error e, packets := packets, sender := sender }
  | busy {sendBuf : ConnectionBuffer} {emitted : List UInt8}
      (hsent : emitted ++ sendBuf.readable = sender.sendBuf.readable)
      (htaken : emitted = answer.taken sender.sendBuf.readable)
      (hbusy : ¬ answer.Takes sender.sendBuf.readable.length)
      (hpending : sendBuf.readable ≠ []) :
      RoundOutcome packets sender answer
        { returned := .ok false
          packets := packets
          sender := { sender with sendBuf := sendBuf }
          emitted := emitted }
  | drained {sendBuf : ConnectionBuffer} (hqueue : sender.sendQueue = [])
      (htakes : sender.sendBuf.readable = [] ∨ answer.Takes sender.sendBuf.readable.length)
      (hempty : sendBuf.readable = []) :
      RoundOutcome packets sender answer
        { returned := .ok false
          packets := packets
          sender := { sender with sendBuf := sendBuf, readWrite := false }
          emitted := sender.sendBuf.readable }
  | refilled {sendBuf : ConnectionBuffer}
      {after : Packets × ConnectionBuffer × List PacketPtr} (hqueue : sender.sendQueue ≠ [])
      (htakes : sender.sendBuf.readable = [] ∨ answer.Takes sender.sendBuf.readable.length)
      (hempty : sendBuf.readable = []) (hcapacity : sendBuf.capacity = sender.sendBuf.capacity)
      (hfill : FillOutcome packets sendBuf sender.sendQueue after) :
      RoundOutcome packets sender answer
        { returned := .ok true
          packets := after.1
          sender := { sender with sendBuf := after.2.1, sendQueue := after.2.2 }
          emitted := sender.sendBuf.readable }

theorem writeTurn_outcome (packets : Packets) (sender : Sender) (answer : SendResult) :
    RoundOutcome packets sender answer (writeTurn packets sender answer) := by
  rw [writeTurn]
  cases hsent : BufferedConnection.trySend sender.sendBuf answer with
  | error e =>
      have hpending : sender.sendBuf.readable ≠ [] := by
        intro hempty
        rw [BufferedConnection.trySend_nil hempty] at hsent
        cases hsent
      refine .failed ?_ hpending
      cases answer with
      | fault => rfl
      | again =>
          rw [BufferedConnection.trySend_again hpending] at hsent
          cases hsent
      | sent most =>
          rw [BufferedConnection.trySend_sent hpending] at hsent
          cases hsent
  | ok sent =>
      obtain ⟨done, after, emitted⟩ := sent
      obtain ⟨hbytes, hcapacity, hrest⟩ := BufferedConnection.trySend_ok hsent
      have htaken := BufferedConnection.trySend_emitted hsent
      cases done with
      | false =>
          split_ifs at hrest with htakes
          · exact absurd hrest.1 not_false
          · exact .busy hbytes htaken (fun h => htakes (Or.inr h)) hrest.2.1
      | true =>
          split_ifs at hrest with htakes
          · have hempty := hrest.2
            rw [hempty, List.append_nil] at hbytes
            subst hbytes
            dsimp only
            split_ifs with hqueue
            · exact .drained hqueue htakes hempty
            · exact .refilled hqueue htakes hempty hcapacity
                (fill_outcome packets after sender.sendQueue)
          · exact hrest.1.elim

/-- Both the buffer and the queue of a connection are empty. -/
def Drained (sender : Sender) : Prop :=
  sender.sendBuf.readable = [] ∧ sender.sendQueue = []

/-- What comes of calls of `send`, of which the first offers `offered` and each later one as
many of the `waiting` bytes as there is room for: what the socket takes, and what is left. A
call that is not answered by taking all it offers is the last one. -/
inductive Pours (room : Nat) :
    (Nat → SendResult) → List UInt8 → List UInt8 → List UInt8 → List UInt8 → Prop
  | emptied {answers : Nat → SendResult} {offered : List UInt8}
      (htakes : offered = [] ∨ (answers 0).Takes offered.length) :
      Pours room answers offered [] offered []
  | busy {answers : Nat → SendResult} {offered waiting left : List UInt8}
      (hpending : offered ≠ []) (hbusy : ¬ (answers 0).Takes offered.length)
      (hleft : (answers 0).taken offered ++ left = offered) :
      Pours room answers offered waiting ((answers 0).taken offered) (left ++ waiting)
  | goesOn {answers : Nat → SendResult} {offered waiting taken left : List UInt8}
      (htakes : offered = [] ∨ (answers 0).Takes offered.length)
      (hrest : Pours room (fun n => answers (n + 1)) (waiting.take room) (waiting.drop room)
        taken left) :
      Pours room answers offered waiting (offered ++ taken) left

/-- What holds between the rounds of an event on a buffer of so much room. -/
structure Draining (room : Nat) (readWrite : Bool) (sent : Sent) : Prop where
  nodup : sent.sender.sendQueue.Nodup
  capacity : sent.sender.sendBuf.capacity = room
  readWrite : sent.sender.readWrite = readWrite

/-- What the event does from a round on. The epoller is back to reading if there is nothing left
to send, and is as before if there is. -/
structure EventDone (room : Nat) (readWrite : Bool) (answers : Nat → SendResult)
    (sent sent' : Sent) : Prop where
  pours : ∃ taken, sent'.emitted = sent.emitted ++ taken ∧
    Pours room answers sent.sender.sendBuf.readable (queued sent.packets sent.sender.sendQueue)
      taken (sent'.sender.sendBuf.readable ++ queued sent'.packets sent'.sender.sendQueue)
  drained : Drained sent'.sender → sent'.sender.readWrite = false
  pending : ¬ Drained sent'.sender → sent'.sender.readWrite = readWrite

theorem Pours.conserved {room : Nat} {answers : Nat → SendResult}
    {offered waiting taken left : List UInt8} (h : Pours room answers offered waiting taken left) :
    taken ++ left = offered ++ waiting := by
  induction h with
  | emptied => rfl
  | busy _ _ hleft => rw [← List.append_assoc, hleft]
  | goesOn _ _ ih => rw [List.append_assoc, ih, List.take_append_drop]

variable {room : Nat} {readWrite : Bool} {sent' : Sent} {answers : Nat → SendResult}

theorem FillOutcome.fills {after : Packets × ConnectionBuffer × List PacketPtr}
    (h : FillOutcome packets b queue after) (hnodup : queue.Nodup) (hempty : b.readable = []) :
    after.2.1.readable = (queued packets queue).take b.capacity ∧
      queued after.1 after.2.2 = (queued packets queue).drop b.capacity := by
  have hstream := h.stream (splitAt_alone hnodup)
  obtain ⟨hcapacity, -, hends⟩ := h.grows
  have hle := after.2.1.length_readable_le
  rw [hempty, List.nil_append] at hstream
  rw [hcapacity] at hle
  rcases hends with hnone | hfull
  · rw [hnone, queued, List.flatMap_nil, List.append_nil] at hstream
    rw [hnone, ← hstream, List.take_of_length_le hle, List.drop_of_length_le hle]
    exact ⟨rfl, rfl⟩
  · rw [← hstream, List.take_left' hfull, List.drop_left' hfull]
    exact ⟨rfl, rfl⟩

theorem Draining.of_yield (hroom : 0 < room) (h : Draining room readWrite sent)
    (hround : writeRound (answers 0) sent = .yield sent') :
    Draining room readWrite sent' ∧
      waiting sent'.packets sent'.sender.sendQueue <
        waiting sent.packets sent.sender.sendQueue ∧
      ∀ last, EventDone room readWrite (fun n => answers (n + 1)) sent' last →
        EventDone room readWrite answers sent last := by
  have houtcome := writeTurn_outcome sent.packets sent.sender (answers 0)
  rw [writeRound] at hround
  generalize writeTurn sent.packets sent.sender (answers 0) = turn at houtcome hround
  cases houtcome with
  | failed => cases hround
  | busy => cases hround
  | drained => cases hround
  | @refilled sendBuf after hqueue htakes hempty hcapacity hfill =>
      obtain rfl := ForInStep.yield.inj hround
      have hcap : sendBuf.capacity = room := hcapacity.trans h.capacity
      obtain ⟨hoffered, hwaiting⟩ := hfill.fills h.nodup hempty
      rw [hcap] at hoffered hwaiting
      refine ⟨⟨hfill.suffix.sublist.nodup h.nodup, hfill.grows.1.trans hcap, h.readWrite⟩,
        hfill.waiting_lt hqueue h.nodup hempty (hcap ▸ hroom), fun last hlast => ?_⟩
      obtain ⟨⟨taken, hemitted, hpours⟩, hdrained, hpending⟩ := hlast
      refine ⟨⟨sent.sender.sendBuf.readable ++ taken, ?_, .goesOn htakes ?_⟩, hdrained, hpending⟩
      · rw [hemitted, List.append_assoc]
      · rw [← hoffered, ← hwaiting]
        exact hpours

theorem Draining.of_done (h : Draining room readWrite sent)
    (hround : writeRound (answers 0) sent = .done sent') :
    EventDone room readWrite answers sent sent' := by
  have houtcome := writeTurn_outcome sent.packets sent.sender (answers 0)
  rw [writeRound] at hround
  generalize writeTurn sent.packets sent.sender (answers 0) = turn at houtcome hround
  cases houtcome with
  | failed hanswer hpending =>
      obtain rfl := ForInStep.done.inj hround
      have hbusy : ¬ (answers 0).Takes sent.sender.sendBuf.readable.length := by
        rw [hanswer]
        exact not_false
      have hnone : (answers 0).taken sent.sender.sendBuf.readable = [] := by
        rw [hanswer]
        rfl
      have hpours : Pours room answers sent.sender.sendBuf.readable
          (queued sent.packets sent.sender.sendQueue)
          ((answers 0).taken sent.sender.sendBuf.readable)
          (sent.sender.sendBuf.readable ++ queued sent.packets sent.sender.sendQueue) :=
        .busy hpending hbusy (by rw [hnone, List.nil_append])
      rw [hnone] at hpours
      exact ⟨⟨[], rfl, hpours⟩, fun hdrained => absurd hdrained.1 hpending, fun _ => h.readWrite⟩
  | @busy sendBuf emitted hsent htaken hbusy hpending =>
      obtain rfl := ForInStep.done.inj hround
      subst htaken
      have hoffered : sent.sender.sendBuf.readable ≠ [] := by
        rw [← hsent]
        exact List.append_ne_nil_of_right_ne_nil _ hpending
      exact ⟨⟨_, rfl, .busy hoffered hbusy hsent⟩, fun hdrained => absurd hdrained.1 hpending,
        fun _ => h.readWrite⟩
  | @drained sendBuf hqueue htakes hempty =>
      obtain rfl := ForInStep.done.inj hround
      refine ⟨⟨_, rfl, ?_⟩, fun _ => rfl, fun hpending => absurd ⟨hempty, hqueue⟩ hpending⟩
      simp only [hempty, hqueue]
      exact .emptied htakes
  | refilled => cases hround

/-- A write event ends whatever the socket answers. It pours the buffer and the queue into the
socket, in order and until the socket does not take all that it is offered. The epoller goes
back to reading when both are empty, and is left alone when not. -/
theorem writeEvent_drains (hcapacity : 0 < sender.sendBuf.capacity)
    (halone : sender.sendQueue.Nodup) (answers : Nat → SendResult) :
    ∃ sent, (∃ enough, ∀ rounds ≥ enough, writeEvent packets sender answers rounds = some sent) ∧
      Pours sender.sendBuf.capacity answers sender.sendBuf.readable
        (queued packets sender.sendQueue) sent.emitted
        (sent.sender.sendBuf.readable ++ queued sent.packets sent.sender.sendQueue) ∧
      sent.emitted ++ sent.sender.sendBuf.readable ++ queued sent.packets sent.sender.sendQueue =
        sender.sendBuf.readable ++ queued packets sender.sendQueue ∧
      (sent.sender.sendBuf.readable = [] ∧ sent.sender.sendQueue = [] →
        sent.sender.readWrite = false) ∧
      (¬ (sent.sender.sendBuf.readable = [] ∧ sent.sender.sendQueue = []) →
        sent.sender.readWrite = sender.readWrite) := by
  have hstart : Draining sender.sendBuf.capacity sender.readWrite
      { returned := .ok true, packets := packets, sender := sender } := ⟨halone, rfl, rfl⟩
  obtain ⟨sent, hends, ⟨taken, hemitted, hpours⟩, hdrained, hpending⟩ := ends_of_turns
    (Draining sender.sendBuf.capacity sender.readWrite)
    (EventDone sender.sendBuf.capacity sender.readWrite)
    (fun sent => waiting sent.packets sent.sender.sendQueue)
    (fun answers sent sent' h hround => h.of_yield hcapacity hround)
    (fun answers sent sent' h hround => h.of_done hround) answers hstart
  obtain rfl : sent.emitted = taken := hemitted
  refine ⟨sent, hends, hpours, ?_, hdrained, hpending⟩
  rw [List.append_assoc]
  exact hpours.conserved

/-- Two packets of one byte, on a socket that takes one byte at a time. -/
theorem writeEvent_drains_twoBytes :
    ∃ sent, (∃ enough, ∀ rounds ≥ enough,
        writeEvent oneByte { sendBuf := .create 2048, sendQueue := [0, 1], readWrite := true }
          (fun _ => .sent 1) rounds = some sent) ∧
      Pours (ConnectionBuffer.create 2048).capacity (fun _ => .sent 1)
        (ConnectionBuffer.create 2048).readable (queued oneByte [0, 1]) sent.emitted
        (sent.sender.sendBuf.readable ++ queued sent.packets sent.sender.sendQueue) ∧
      sent.emitted ++ sent.sender.sendBuf.readable ++ queued sent.packets sent.sender.sendQueue =
        (ConnectionBuffer.create 2048).readable ++ queued oneByte [0, 1] ∧
      (sent.sender.sendBuf.readable = [] ∧ sent.sender.sendQueue = [] →
        sent.sender.readWrite = false) ∧
      (¬ (sent.sender.sendBuf.readable = [] ∧ sent.sender.sendQueue = []) →
        sent.sender.readWrite = true) :=
  @writeEvent_drains oneByte
    { sendBuf := .create 2048, sendQueue := [0, 1], readWrite := true }
    (Nat.lt_of_lt_of_eq (by decide) (ConnectionBuffer.capacity_create 2048).symm) (by decide)
    fun _ => .sent 1

end CasualGame.Net.TcpConnectionManager
