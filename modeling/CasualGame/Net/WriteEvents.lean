import CasualGame.Net.Sending

/-!
The write event of the connection manager: the buffer is sent, and filled again from what
is waiting.
-/

namespace CasualGame.Net.TcpConnectionManager

/-- The inner loop: packets go into the buffer as long as it has room. A packet that goes
only in part keeps its rest, in place. -/
def fill (packets : Packets) (sendBuf : ConnectionBuffer) :
    List PacketPtr → Packets × ConnectionBuffer × List PacketPtr
  | [] => (packets, sendBuf, [])
  | packet :: sendQueue =>
      let (rawBuf, sendBuf) := sendBuf.writeable (packets packet).size
      if rawBuf.second = 0 then (packets, sendBuf, packet :: sendQueue)
      else
        let copied := (packets packet).copy rawBuf.second
        let sendBuf := ((sendBuf.write rawBuf.first copied).commitWrite copied.length).2
        if copied.length < (packets packet).size then
          (Function.update packets packet ((packets packet).pop copied.length), sendBuf,
            packet :: sendQueue)
        else fill packets sendBuf sendQueue

/-- A round of the outer loop, which goes on after a buffer that has been sent to the end
and filled again. -/
def writeTurn (packets : Packets) (sender : Sender) (answer : SendResult) : Sent :=
  match BufferedConnection.trySend sender.sendBuf answer with
  | .error e => { returned := .error e, packets := packets, sender := sender }
  | .ok (false, sendBuf, emitted) =>
      { returned := .ok false
        packets := packets
        sender := { sender with sendBuf := sendBuf }
        emitted := emitted }
  | .ok (true, sendBuf, emitted) =>
      if sender.sendQueue = [] then
        { returned := .ok false
          packets := packets
          sender := { sender with sendBuf := sendBuf, readWrite := false }
          emitted := emitted }
      else
        let (packets, sendBuf, sendQueue) := fill packets sendBuf sender.sendQueue
        { returned := .ok true
          packets := packets
          sender := { sender with sendBuf := sendBuf, sendQueue := sendQueue }
          emitted := emitted }

/-- The packet that the room ends in, and those behind it. -/
def splitAt (packets : Packets) (sendBuf : ConnectionBuffer) :
    List PacketPtr → Option (PacketPtr × List PacketPtr)
  | [] => none
  | packet :: sendQueue =>
      let (rawBuf, sendBuf) := sendBuf.writeable (packets packet).size
      if rawBuf.second = 0 then none
      else if rawBuf.second < (packets packet).size then some (packet, sendQueue)
      else
        splitAt packets ((sendBuf.write rawBuf.first
          ((packets packet).copy rawBuf.second)).commitWrite (packets packet).size).2 sendQueue

section Filling

variable {packets : Packets} {b : ConnectionBuffer} {packet : PacketPtr} {queue : List PacketPtr}

/-- All that the inner loop can come to. -/
inductive FillOutcome (packets : Packets) (b : ConnectionBuffer) :
    List PacketPtr → Packets × ConnectionBuffer × List PacketPtr → Prop
  | whole {after : ConnectionBuffer} {moved rest : List PacketPtr}
      (hcapacity : after.capacity = b.capacity)
      (hreadable : after.readable = b.readable ++ queued packets moved)
      (hends : rest = [] ∨ after.readable.length = b.capacity) :
      FillOutcome packets b (moved ++ rest) (packets, after, rest)
  | split {after : ConnectionBuffer} {front : List UInt8} {moved rest : List PacketPtr}
      {packet : PacketPtr} (hcapacity : after.capacity = b.capacity)
      (hreadable : after.readable = b.readable ++ queued packets moved ++ front)
      (hfront : front ++ ((packets packet).pop front.length).buf = (packets packet).buf)
      (hfull : after.readable.length = b.capacity)
      (hsplit : splitAt packets b (moved ++ packet :: rest) = some (packet, rest)) :
      FillOutcome packets b (moved ++ packet :: rest)
        (Function.update packets packet ((packets packet).pop front.length), after,
          packet :: rest)

theorem queued_cons (packets : Packets) (packet : PacketPtr) (queue : List PacketPtr) :
    queued packets (packet :: queue) = (packets packet).buf ++ queued packets queue := by
  rw [queued, List.flatMap_cons]
  rfl

theorem readable_copied {size : Nat} {data : List UInt8}
    (h : data.length ≤ (b.writeable size).1.second) :
    (((b.writeable size).2.write (b.writeable size).1.first data).commitWrite
        data.length).2.readable = b.readable ++ data := by
  rw [b.writeable_second, ← b.capacity_writeable size] at h
  rw [b.writeable_first, ConnectionBuffer.readable_commitWrite h,
    ConnectionBuffer.readable_writeable]

theorem FillOutcome.cons {after : Packets × ConnectionBuffer × List PacketPtr}
    {b' : ConnectionBuffer} (h : FillOutcome packets b' queue after)
    (hcapacity : b'.capacity = b.capacity)
    (hreadable : b'.readable = b.readable ++ (packets packet).buf)
    (hsplit : splitAt packets b (packet :: queue) = splitAt packets b' queue) :
    FillOutcome packets b (packet :: queue) after := by
  have hmoved : ∀ moved, b'.readable ++ queued packets moved =
      b.readable ++ queued packets (packet :: moved) := by
    intro moved
    rw [hreadable, queued_cons, List.append_assoc]
  cases h with
  | @whole after moved rest hafter hbytes hends =>
      rw [hmoved] at hbytes
      rw [hcapacity] at hafter hends
      exact .whole hafter hbytes hends
  | @split after front moved rest packet' hafter hbytes hfront hfull hsplit' =>
      rw [hmoved] at hbytes
      rw [hcapacity] at hafter hfull
      rw [hsplit', ← List.cons_append] at hsplit
      exact .split hafter hbytes hfront hfull hsplit

theorem fill_outcome (packets : Packets) (b : ConnectionBuffer) (queue : List PacketPtr) :
    FillOutcome packets b queue (fill packets b queue) := by
  induction queue generalizing b with
  | nil =>
      change FillOutcome packets b ([] ++ []) (packets, b, [])
      exact .whole rfl (List.append_nil _).symm (Or.inl rfl)
  | cons packet queue ih =>
      have hlength := (packets packet).length_copy
        (b.writeable (packets packet).size).1.second
      have hcopied : ((packets packet).copy (b.writeable (packets packet).size).1.second).length ≤
          (b.writeable (packets packet).size).1.second := by
        rw [hlength]
        exact Nat.min_le_left _ _
      have hreadable := readable_copied hcopied
      have hsecond := b.writeable_second (packets packet).size
      have hcapacity := b.capacity_writeable (packets packet).size
      rw [fill]
      dsimp only
      split_ifs with hnone hpart
      · have hfull : b.readable.length = b.capacity := by
          have hle := b.length_readable_le
          have hpos : 0 < (b.writeable (packets packet).size).1.second ↔ _ :=
            ConnectionBuffer.writeable_pos
          omega
        change FillOutcome packets b ([] ++ packet :: queue) _
        refine .whole hcapacity ?_ (Or.inr ?_)
        · rw [ConnectionBuffer.readable_writeable, queued, List.flatMap_nil, List.append_nil]
        · rw [ConnectionBuffer.readable_writeable, hfull]
      · have hshort : (b.writeable (packets packet).size).1.second < (packets packet).size := by
          omega
        have hbefore := ConnectionBuffer.length_readable_of_short hshort
        have hend : (b.writeable (packets packet).size).2.dataEnd ≤
            (b.writeable (packets packet).size).2.capacity :=
          (b.writeable (packets packet).size).2.end_le
        change FillOutcome packets b ([] ++ packet :: queue) _
        refine .split ?_ ?_ ((packets packet).copy_append_pop _) ?_ ?_
        · rw [ConnectionBuffer.capacity_commitWrite, ConnectionBuffer.capacity_write, hcapacity]
        · rw [queued, List.flatMap_nil, List.append_nil]
          exact hreadable
        · rw [hreadable, List.length_append]
          omega
        · rw [List.nil_append, splitAt]
          dsimp only
          rw [if_neg hnone, if_pos hshort]
      · have hfits : (packets packet).size ≤ (b.writeable (packets packet).size).1.second := by
          omega
        have hwhole : (packets packet).copy (b.writeable (packets packet).size).1.second =
            (packets packet).buf := List.take_of_length_le hfits
        refine (ih _).cons ?_ ?_ ?_
        · rw [ConnectionBuffer.capacity_commitWrite, ConnectionBuffer.capacity_write, hcapacity]
        · rw [hreadable, hwhole]
        · rw [splitAt]
          dsimp only
          rw [if_neg hnone, if_neg (Nat.not_lt_of_ge hfits), hwhole]
          rfl

end Filling

/-- The packet that a call cuts something off, in place. -/
def sendTrims (packets : Packets) (sender : Sender) (packet : PacketPtr) (answer : SendResult) :
    Option (PacketPtr × List PacketPtr) :=
  if sender.sendQueue = [] ∧ 0 < (packets packet).size ∧ 0 < room packets sender packet ∧
      (room packets sender packet < (packets packet).size ∨ (answer ≠ .fault ∧
        ¬ answer.Takes (sender.sendBuf.readable.length + (packets packet).size))) then
    some (packet, [])
  else none

/-- The one that a round of a write event cuts something off, and those behind it. -/
def turnTrims (packets : Packets) (sender : Sender) (answer : SendResult) :
    Option (PacketPtr × List PacketPtr) :=
  match BufferedConnection.trySend sender.sendBuf answer with
  | .ok (true, sendBuf, _) => splitAt packets sendBuf sender.sendQueue
  | _ => none

/-- A call or a round on one connection: nothing of its stream is lost or repeated. -/
structure Serves (packets : Packets) (sender : Sender) (gain : List UInt8) (sent : Sent) :
    Prop where
  capacity : sent.sender.sendBuf.capacity = sender.sendBuf.capacity
  stream : sent.stream = sender.sendBuf.readable ++ queued packets sender.sendQueue ++ gain
  watched : sender.Watched → sent.sender.Watched
  keeps : sent.emitted = [] → sender.sendBuf.readable ≠ [] → sent.sender.sendBuf.readable ≠ []

section Serving

variable {packets : Packets} {sender : Sender} {packet : PacketPtr} {answer : SendResult}

theorem SendOutcome.watched {sent : Sent} (h : SendOutcome packets sender packet answer sent)
    (hok : ∃ accepted, sent.returned = .ok accepted) (hwatched : sender.Watched) :
    sent.sender.Watched := by
  obtain ⟨accepted, hok⟩ := hok
  cases h with
  | refused => exact hwatched
  | queued hqueue => exact fun _ => hwatched (Or.inr hqueue)
  | split => exact fun _ => rfl
  | failed => cases hok
  | drained hqueue htaken hcapacity hreadable =>
      rintro (hpending | hpending)
      · exact absurd hreadable hpending
      · exact absurd hqueue hpending
  | again => exact fun _ => rfl

theorem SendOutcome.packets_eq {sent : Sent} (h : SendOutcome packets sender packet answer sent)
    (p : PacketPtr) (hp : ∀ rest, sendTrims packets sender packet answer ≠ some (p, rest)) :
    sent.packets p = packets p := by
  have hupdate : ∀ n, (sendTrims packets sender packet answer = some (packet, []) ∨ n = 0) →
      Function.update packets packet ((packets packet).pop n) p = packets p := by
    intro n hn
    by_cases heq : p = packet
    · subst heq
      obtain rfl := hn.resolve_left (hp [])
      rw [Packet.pop_zero, Function.update_eq_self]
    · rw [Function.update_of_ne heq]
  cases h with
  | refused => rfl
  | queued => rfl
  | failed => rfl
  | drained => rfl
  | split hqueue hshort hlength =>
      apply hupdate
      rcases Nat.eq_zero_or_pos (room packets sender packet) with hnone | hroom
      · exact Or.inr (hlength.trans hnone)
      · exact Or.inl (if_pos ⟨hqueue, by omega, hroom, Or.inl hshort⟩)
  | again hqueue hroom hbusy hanswer =>
      apply hupdate
      rcases Nat.eq_zero_or_pos (packets packet).size with hnone | hsize
      · exact Or.inr hnone
      · exact Or.inl (if_pos ⟨hqueue, hsize, by omega, Or.inr ⟨hanswer, hbusy⟩⟩)

theorem SendOutcome.keeps {sent : Sent} (h : SendOutcome packets sender packet answer sent)
    (hok : ∃ accepted, sent.returned = .ok accepted) (hnone : sent.emitted = [])
    (hpending : sender.sendBuf.readable ≠ []) : sent.sender.sendBuf.readable ≠ [] := by
  obtain ⟨accepted, hok⟩ := hok
  cases h with
  | refused => exact hpending
  | queued => exact hpending
  | split hqueue hshort hlength hcapacity hreadable =>
      rw [hreadable]
      exact List.append_ne_nil_of_left_ne_nil hpending _
  | failed => cases hok
  | drained => exact absurd (List.append_eq_nil_iff.mp hnone).1 hpending
  | again hqueue hroom hbusy hanswer hcapacity hsent hleft hreadable =>
      rw [hreadable]
      exact List.append_ne_nil_of_left_ne_nil hleft _

theorem SendOutcome.capacity {sent : Sent} (h : SendOutcome packets sender packet answer sent)
    (hok : ∃ accepted, sent.returned = .ok accepted) :
    sent.sender.sendBuf.capacity = sender.sendBuf.capacity := by
  obtain ⟨accepted, hok⟩ := hok
  cases h with
  | refused => rfl
  | queued => rfl
  | split hqueue hshort hlength hcapacity => exact hcapacity
  | failed => cases hok
  | drained hqueue htaken hcapacity => exact hcapacity
  | again hqueue hroom hbusy hanswer hcapacity => exact hcapacity

theorem SendOutcome.of_refused {sent : Sent} (h : SendOutcome packets sender packet answer sent)
    (hrefused : sent.returned = .ok false) :
    sent.packets = packets ∧ sent.sender = sender ∧ sent.emitted = [] := by
  cases h with
  | refused => exact ⟨rfl, rfl, rfl⟩
  | failed => cases hrefused
  | _ => exact absurd (Except.ok.inj hrefused) Bool.true_eq_false.mp

/-- What a call brings into the stream: the packet as a whole when it is accepted. -/
theorem sendPacket_serves {accepted : Bool}
    (hok : (sendPacket packets sender packet answer).returned = .ok accepted) :
    ∃ gain, Serves packets sender gain (sendPacket packets sender packet answer) ∧
      (accepted = true → (packets packet).buf <+: gain) := by
  have h := sendPacket_outcome packets sender packet answer
  have hserves : ∀ gain, (sendPacket packets sender packet answer).stream =
      sender.sendBuf.readable ++ queued packets sender.sendQueue ++ gain →
        Serves packets sender gain (sendPacket packets sender packet answer) := fun gain hstream =>
    ⟨h.capacity ⟨accepted, hok⟩, hstream, h.watched ⟨accepted, hok⟩, h.keeps ⟨accepted, hok⟩⟩
  cases accepted with
  | true =>
      obtain ⟨extra, hstream, -⟩ := h.stream_accepted hok
      rw [List.append_assoc] at hstream
      exact ⟨_, hserves _ hstream, fun _ => List.prefix_append _ _⟩
  | false =>
      obtain ⟨hpackets, hsender, hemitted⟩ := h.of_refused hok
      refine ⟨[], hserves _ ?_, fun hnot => absurd hnot Bool.false_ne_true⟩
      rw [Sent.stream, hpackets, hsender, hemitted, List.nil_append, List.append_nil]

theorem queued_append (packets : Packets) (queue queue' : List PacketPtr) :
    queued packets (queue ++ queue') = queued packets queue ++ queued packets queue' :=
  List.flatMap_append

theorem queued_congr {packets packets' : Packets} {queue : List PacketPtr}
    (h : ∀ packet ∈ queue, packets' packet = packets packet) :
    queued packets' queue = queued packets queue :=
  List.flatMap_congr fun packet hpacket => congrArg Packet.buf (h packet hpacket)

theorem FillOutcome.stream {b : ConnectionBuffer} {queue : List PacketPtr}
    {after : Packets × ConnectionBuffer × List PacketPtr} (h : FillOutcome packets b queue after)
    (halone : ∀ packet rest, splitAt packets b queue = some (packet, rest) → packet ∉ rest) :
    after.2.1.readable ++ queued after.1 after.2.2 = b.readable ++ queued packets queue := by
  cases h with
  | whole hcapacity hreadable =>
      rw [hreadable, queued_append, List.append_assoc]
  | @split after front moved rest packet hcapacity hreadable hfront hfull hsplit =>
      have hothers : queued (Function.update packets packet
          ((packets packet).pop front.length)) rest = queued packets rest :=
        queued_congr fun p hp =>
          Function.update_of_ne (ne_of_mem_of_not_mem hp (halone _ _ hsplit)) _ _
      calc after.readable ++ queued (Function.update packets packet
            ((packets packet).pop front.length)) (packet :: rest)
          = b.readable ++ queued packets moved ++
              (front ++ ((packets packet).pop front.length).buf) ++ queued packets rest := by
            rw [hreadable, queued_cons, hothers, Function.update_self]
            simp only [List.append_assoc]
        _ = b.readable ++ queued packets (moved ++ packet :: rest) := by
            rw [hfront, queued_append, queued_cons]
            simp only [List.append_assoc]

theorem FillOutcome.packets_eq {b : ConnectionBuffer} {queue : List PacketPtr}
    {after : Packets × ConnectionBuffer × List PacketPtr} (h : FillOutcome packets b queue after)
    (p : PacketPtr) (hp : ∀ rest, splitAt packets b queue ≠ some (p, rest)) :
    after.1 p = packets p := by
  cases h with
  | whole => rfl
  | split hcapacity hreadable hfront hfull hsplit =>
      apply Function.update_of_ne
      rintro rfl
      exact hp _ hsplit

theorem FillOutcome.grows {b : ConnectionBuffer} {queue : List PacketPtr}
    {after : Packets × ConnectionBuffer × List PacketPtr} (h : FillOutcome packets b queue after) :
    after.2.1.capacity = b.capacity ∧ b.readable <+: after.2.1.readable ∧
      (after.2.2 = [] ∨ after.2.1.readable.length = b.capacity) := by
  cases h with
  | whole hcapacity hreadable hends =>
      rw [hreadable] at hends ⊢
      exact ⟨hcapacity, List.prefix_append _ _, hends⟩
  | split hcapacity hreadable hfront hfull =>
      refine ⟨hcapacity, ?_, Or.inr hfull⟩
      rw [hreadable, List.append_assoc]
      exact List.prefix_append _ _

theorem writeTurn_packets_eq (p : PacketPtr)
    (hp : ∀ rest, turnTrims packets sender answer ≠ some (p, rest)) :
    (writeTurn packets sender answer).packets p = packets p := by
  rw [writeTurn]
  rw [turnTrims] at hp
  cases hsent : BufferedConnection.trySend sender.sendBuf answer with
  | error e => rfl
  | ok sent =>
      obtain ⟨done, after, emitted⟩ := sent
      rw [hsent] at hp
      cases done with
      | false => rfl
      | true =>
          dsimp only at hp ⊢
          split_ifs
          · rfl
          · exact (fill_outcome packets after sender.sendQueue).packets_eq p hp

theorem writeTurn_serves
    (halone : ∀ packet rest, turnTrims packets sender answer = some (packet, rest) → packet ∉ rest)
    (hok : ∃ goesOn, (writeTurn packets sender answer).returned = .ok goesOn) :
    Serves packets sender [] (writeTurn packets sender answer) := by
  obtain ⟨goesOn, hok⟩ := hok
  rw [writeTurn] at hok ⊢
  rw [turnTrims] at halone
  cases hsent : BufferedConnection.trySend sender.sendBuf answer with
  | error e =>
      rw [hsent] at hok
      cases hok
  | ok sent =>
      obtain ⟨done, after, emitted⟩ := sent
      obtain ⟨hbytes, hcapacity, hrest⟩ := BufferedConnection.trySend_ok hsent
      rw [hsent] at halone
      have hkeeps : emitted = [] → sender.sendBuf.readable ≠ [] → after.readable ≠ [] := by
        rintro rfl hpending
        rwa [← hbytes] at hpending
      cases done with
      | false =>
          have hleft : sender.sendBuf.readable ≠ [] := by
            split_ifs at hrest
            · exact absurd hrest.1 not_false
            · rw [← hbytes]
              exact List.append_ne_nil_of_right_ne_nil _ hrest.2.1
          refine ⟨hcapacity, ?_, fun hwatched _ => hwatched (Or.inl hleft), hkeeps⟩
          rw [Sent.stream, hbytes, List.append_nil]
      | true =>
          have hdrained : after.readable = [] := by
            split_ifs at hrest
            · exact hrest.2
            · exact absurd hrest.1 not_false
          dsimp only at halone ⊢
          split_ifs with hqueue
          · refine ⟨hcapacity, ?_, ?_, hkeeps⟩
            · rw [Sent.stream, hbytes, List.append_nil]
            · rintro - (hpending | hpending)
              · exact absurd hdrained hpending
              · exact absurd hqueue hpending
          · have hfill := fill_outcome packets after sender.sendQueue
            obtain ⟨hafter, hgrows, -⟩ := hfill.grows
            refine ⟨hafter.trans hcapacity, ?_, fun hwatched _ => hwatched (Or.inr hqueue),
              fun hnone hpending hempty => ?_⟩
            · rw [Sent.stream, List.append_nil, ← hbytes, List.append_assoc, List.append_assoc,
                hfill.stream halone]
            · rw [hempty] at hgrows
              exact hkeeps hnone hpending (List.prefix_nil.mp hgrows)

/-- A round on a socket that takes something sends some of what is in the buffer, and
otherwise fills it from what is waiting. -/
theorem writeTurn_productive {most : Nat} (hmost : 0 < most)
    (hcapacity : 0 < sender.sendBuf.capacity)
    (hpending : sender.sendBuf.readable ++ queued packets sender.sendQueue ≠ [])
    (halone : ∀ packet rest, turnTrims packets sender (.sent most) = some (packet, rest) →
      packet ∉ rest) :
    (∃ goesOn, (writeTurn packets sender (.sent most)).returned = .ok goesOn) ∧
      ((writeTurn packets sender (.sent most)).emitted ≠ [] ∨
        sender.sendBuf.readable = [] ∧
          (writeTurn packets sender (.sent most)).sender.sendBuf.readable ≠ []) := by
  by_cases hempty : sender.sendBuf.readable = []
  · have hsent : BufferedConnection.trySend sender.sendBuf (.sent most) =
        .ok (true, sender.sendBuf, []) := BufferedConnection.trySend_nil hempty
    rw [hempty, List.nil_append] at hpending
    have hqueue : sender.sendQueue ≠ [] := by
      intro hnone
      rw [hnone] at hpending
      exact hpending rfl
    rw [turnTrims, hsent] at halone
    have hfill := fill_outcome packets sender.sendBuf sender.sendQueue
    obtain ⟨-, -, hends⟩ := hfill.grows
    have hstream := hfill.stream halone
    rw [writeTurn, hsent]
    dsimp only
    rw [if_neg hqueue]
    refine ⟨⟨true, rfl⟩, Or.inr ⟨hempty, ?_⟩⟩
    rcases hends with hnone | hfull
    · rw [hnone, hempty, List.nil_append, queued, List.flatMap_nil, List.append_nil] at hstream
      rwa [hstream]
    · exact List.ne_nil_of_length_pos (hfull ▸ hcapacity)
  · have htaken : sender.sendBuf.readable.take most ≠ [] := by
      apply List.ne_nil_of_length_pos
      rw [List.length_take]
      exact Nat.lt_min.mpr ⟨hmost, List.length_pos_of_ne_nil hempty⟩
    rw [writeTurn, BufferedConnection.trySend_sent hempty]
    cases (sender.sendBuf.commitRead (min most sender.sendBuf.readable.length)).2.empty with
    | false => exact ⟨⟨false, rfl⟩, Or.inl htaken⟩
    | true =>
        dsimp only
        split_ifs
        · exact ⟨⟨false, rfl⟩, Or.inl htaken⟩
        · exact ⟨⟨true, rfl⟩, Or.inl htaken⟩

end Serving

end CasualGame.Net.TcpConnectionManager
