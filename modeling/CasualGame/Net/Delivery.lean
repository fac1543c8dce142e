import CasualGame.Lib.Blocks
import CasualGame.Net.Broadcast

/-!
What a broadcast delivers: the whole packet to every connection that accepts it, as long
as nothing trims a packet that others still need.
-/

namespace CasualGame.Net

open Lib.Blocks
open Lib.Run
open TcpConnectionManager

/-- What has gone out on a connection, and what is still to go. -/
def Link.stream (packets : Packets) (link : Link) : List UInt8 :=
  link.emitted ++ (link.sender.sendBuf.readable ++ queued packets link.sender.sendQueue)

/-- Everything a connection has accepted has gone out or is still to go. -/
structure Link.Sound (packets : Packets) (link : Link) : Prop where
  stream : Carries link.accepted (link.stream packets)
  capacity : 0 < link.sender.sendBuf.capacity
  watched : link.sender.Watched

structure Outgoing.Sound (s : Outgoing) : Prop where
  links : ∀ c link, s.links c = some link → link.Live → link.Sound s.packets
  /-- The packet of a broadcast is what it was. -/
  intact : ∀ b, s.broadcast = some b → (s.packets b.packet).buf = b.original

section Keeping

variable {s : Outgoing} {c : ConnId} {link : Link} {packets : Packets} {sent : Sent}
  {gain : List UInt8} {packet : PacketPtr} {answer : SendResult}

theorem Link.stream_congr {packets' : Packets}
    (hsame : ∀ p ∈ link.sender.sendQueue, packets' p = packets p) :
    link.stream packets' = link.stream packets := by
  rw [Link.stream, queued_congr hsame, Link.stream]

theorem Link.Sound.congr (h : link.Sound packets) {packets' : Packets}
    (hsame : ∀ p ∈ link.sender.sendQueue, packets' p = packets p) : link.Sound packets' := by
  refine ⟨?_, h.capacity, h.watched⟩
  rw [Link.stream_congr hsame]
  exact h.stream

theorem stream_after (hserves : Serves packets link.sender gain sent) :
    (link.after sent).stream sent.packets = link.stream packets ++ gain := by
  have hstream := hserves.stream
  rw [Sent.stream] at hstream
  change (link.emitted ++ sent.emitted) ++ (sent.sender.sendBuf.readable ++
    queued sent.packets sent.sender.sendQueue) = _
  rw [Link.stream, List.append_assoc, ← List.append_assoc sent.emitted, hstream]
  simp only [List.append_assoc]

theorem Link.Sound.after (h : link.Sound packets)
    (hserves : Serves packets link.sender gain sent) : (link.after sent).Sound sent.packets := by
  refine ⟨?_, ?_, hserves.watched h.watched⟩
  · rw [stream_after hserves]
    exact h.stream.append gain
  · change 0 < sent.sender.sendBuf.capacity
    rw [hserves.capacity]
    exact h.capacity

theorem Outgoing.Sound.setLink (h : s.Sound) {packets' : Packets} {broadcast' : Option Broadcast}
    (hothers : ∀ c' link', c' ≠ c → s.links c' = some link' → link'.Live →
      ∀ p ∈ link'.sender.sendQueue, packets' p = s.packets p)
    (hlink : link.Live → link.Sound packets')
    (hintact : ∀ b, broadcast' = some b → (packets' b.packet).buf = b.original) :
    ({ packets := packets', links := Function.update s.links c (some link),
       broadcast := broadcast' } : Outgoing).Sound := by
  refine ⟨fun c' link' hlink' hlive => ?_, hintact⟩
  change Function.update s.links c (some link) c' = some link' at hlink'
  by_cases hc : c' = c
  · subst hc
    rw [Function.update_self] at hlink'
    obtain rfl := Option.some.inj hlink'
    exact hlink hlive
  · rw [Function.update_of_ne hc] at hlink'
    exact (h.links c' link' hlink' hlive).congr (hothers c' link' hc hlink' hlive)

theorem Outgoing.Alone.others {trims : Option (PacketPtr × List PacketPtr)}
    (hsame : ∀ p, (∀ rest, trims ≠ some (p, rest)) → packets p = s.packets p)
    (halone : ∀ p rest, trims = some (p, rest) → s.Alone c p rest) :
    ∀ c' link', c' ≠ c → s.links c' = some link' → link'.Live →
      ∀ p ∈ link'.sender.sendQueue, packets p = s.packets p := by
  intro c' link' hc hlink' hlive p hp
  refine hsame p fun rest htrims => ?_
  exact (halone p rest htrims).2 c' link' hc hlink' hlive hp

theorem Link.Sound.handed (h : link.Live → link.Sound packets)
    (hlive : (link.handed (sendPacket packets link.sender packet answer)
      (packets packet).buf).Live) :
    (link.handed (sendPacket packets link.sender packet answer) (packets packet).buf).Sound
      (sendPacket packets link.sender packet answer).packets := by
  rw [Link.handed] at hlive ⊢
  cases hreturned : (sendPacket packets link.sender packet answer).returned with
  | error e =>
      rw [hreturned] at hlive
      exact absurd hlive.2 Bool.true_eq_false.mp
  | ok accepted =>
      rw [hreturned] at hlive
      obtain ⟨gain, hserves, hgain⟩ := sendPacket_serves hreturned
      cases accepted with
      | true =>
          have hafter := (h hlive).after hserves
          refine ⟨?_, hafter.capacity, hafter.watched⟩
          change Carries _ ((link.after _).stream _)
          rw [stream_after hserves]
          exact (h hlive).stream.concat (hgain rfl)
      | false => exact (h hlive).after hserves

theorem Link.Sound.turned (h : link.Live → link.Sound packets)
    (halone : ∀ packet rest, turnTrims packets link.sender answer = some (packet, rest) →
      packet ∉ rest)
    (hlive : (link.turned (writeTurn packets link.sender answer)).Live) :
    (link.turned (writeTurn packets link.sender answer)).Sound
      (writeTurn packets link.sender answer).packets := by
  rw [Link.turned] at hlive ⊢
  cases hreturned : (writeTurn packets link.sender answer).returned with
  | error e =>
      rw [hreturned] at hlive
      exact absurd hlive.2 Bool.true_eq_false.mp
  | ok goesOn =>
      rw [hreturned] at hlive
      have hafter := (h hlive).after (writeTurn_serves halone ⟨goesOn, hreturned⟩)
      exact ⟨hafter.stream, hafter.capacity, hafter.watched⟩

theorem Outgoing.Sound.sendPacket (h : s.Sound) (hlink : s.links c = some link)
    (halone : ∀ p rest, sendTrims s.packets link.sender packet answer = some (p, rest) →
      s.Alone c p rest) {broadcast' : Option Broadcast}
    (hintact : ∀ b, broadcast' = some b →
      ((s.sendPacket c packet (s.packets packet).buf answer).packets b.packet).buf = b.original) :
    ({ s.sendPacket c packet (s.packets packet).buf answer with broadcast := broadcast' } :
      Outgoing).Sound := by
  have hsame := (sendPacket_outcome s.packets link.sender packet answer).packets_eq
  rw [Outgoing.sendPacket, hlink] at hintact ⊢
  exact h.setLink (Outgoing.Alone.others hsame halone)
    (Link.Sound.handed (h.links c link hlink)) hintact

theorem Outgoing.Sound.writeTurn (h : s.Sound) (hlink : s.links c = some link)
    (hspares : s.Spares (.writeTurn c answer)) : (s.writeTurn c answer).Sound := by
  have hsame : ∀ p, (∀ rest, turnTrims s.packets link.sender answer ≠ some (p, rest)) →
      (TcpConnectionManager.writeTurn s.packets link.sender answer).packets p = s.packets p :=
    fun p => writeTurn_packets_eq p
  rw [Outgoing.writeTurn, hlink]
  refine h.setLink
    (Outgoing.Alone.others hsame fun p rest htrims => (hspares link hlink p rest htrims).1)
    (Link.Sound.turned (h.links c link hlink)
      fun p rest htrims => (hspares link hlink p rest htrims).1.1) fun b hb => ?_
  have hunchanged := hsame b.packet fun rest htrims =>
    (hspares link hlink b.packet rest htrims).2 b hb rfl
  exact (congrArg Packet.buf hunchanged).trans (h.intact b hb)

theorem Outgoing.Sound.visit (h : s.Sound) (hallowed : s.Allowed (.visit answer))
    (hspares : s.Spares (.visit answer)) : (s.visit answer).Sound := by
  obtain ⟨⟨packet, _, original⟩, c, receivers, link, hb, rfl, hlink, -⟩ := hallowed
  have htrims := hspares packet c receivers original link hb hlink
  obtain rfl : (s.packets packet).buf = original := h.intact _ hb
  rw [Outgoing.visit, hb]
  refine h.sendPacket hlink (fun p rest hp => (htrims p rest hp).1) fun b hb => ?_
  split_ifs at hb with hlast
  obtain rfl := Option.some.inj hb
  have hunchanged := (sendPacket_outcome s.packets link.sender packet answer).packets_eq packet
    fun rest hp => hlast (htrims packet rest hp).2
  rw [Outgoing.sendPacket, hlink]
  exact congrArg Packet.buf hunchanged

theorem Outgoing.Sound.setLink_same (h : s.Sound) (hlink : link.Live → link.Sound s.packets) :
    (s.setLink c link).Sound :=
  h.setLink (fun _ _ _ _ _ _ _ => rfl) hlink h.intact

theorem Outgoing.Sound.step {act : SendAct} (h : s.Sound) (hallowed : s.Allowed act)
    (hspares : s.Spares act) : (s.step act).Sound := by
  cases act with
  | connect c type sizeLimit =>
      refine h.setLink_same fun _ => ⟨trivial, ?_, ?_⟩
      · change 0 < (ConnectionBuffer.create sizeLimit).capacity
        rw [ConnectionBuffer.capacity_create]
        exact hallowed.2.2
      · rintro (hpending | hpending)
        · exact absurd rfl hpending
        · exact absurd rfl hpending
  | create packet content =>
      obtain ⟨hbroadcast, hqueues⟩ := hallowed
      refine ⟨fun c link hlink hlive => ?_, fun b hb => ?_⟩
      · exact (h.links c link hlink hlive).congr fun p hp =>
          Function.update_of_ne (ne_of_mem_of_not_mem hp (hqueues c link hlink)) _ _
      · change (Function.update s.packets packet content b.packet).buf = _
        rw [Function.update_of_ne (hbroadcast b hb)]
        exact h.intact b hb
  | send c packet answer =>
      obtain ⟨hnone, link, hlink, -⟩ := hallowed
      have hstill : (s.sendPacket c packet (s.packets packet).buf answer).broadcast = none := by
        rw [Outgoing.sendPacket, hlink]
        exact hnone
      have hsound : ({ s.sendPacket c packet (s.packets packet).buf answer with
          broadcast := none } : Outgoing).Sound :=
        h.sendPacket hlink (hspares link hlink) fun b hb => absurd hb (Option.some_ne_none b).symm
      rw [← hstill] at hsound
      exact hsound
  | broadcast type packet receivers =>
      rw [Outgoing.step]
      split_ifs
      · exact h
      · exact ⟨h.links, fun b hb => by rw [← Option.some.inj hb]⟩
  | visit answer => exact h.visit hallowed hspares
  | writeEvent c =>
      obtain ⟨link, hlink, -⟩ := hallowed
      rw [Outgoing.step, hlink]
      exact h.setLink_same fun hlive =>
        ⟨(h.links c link hlink hlive).stream, (h.links c link hlink hlive).capacity,
          (h.links c link hlink hlive).watched⟩
  | writeTurn c answer =>
      obtain ⟨link, hlink, -⟩ := hallowed
      exact h.writeTurn hlink hspares
  | erase c =>
      obtain ⟨-, link, hlink⟩ := hallowed
      rw [Outgoing.step, hlink]
      exact h.setLink_same fun hlive => absurd hlive.1 Bool.true_eq_false.mp

theorem Outgoing.Sound.reaches (h : sendSystem.Reaches Outgoing.Spares s) : s.Sound := by
  refine h.invariant ?_ ?_
  · rintro s ⟨hnone, hlinks⟩
    refine ⟨fun c link hlink hlive => ?_, fun b hb => ?_⟩
    · obtain ⟨hcapacity, hwatched, hinitial⟩ := hlinks c link hlink
      refine ⟨?_, hcapacity, hwatched⟩
      rw [hinitial]
      exact ⟨[], [], (List.append_nil _).symm, trivial⟩
    · rw [hnone] at hb
      exact absurd hb (Option.some_ne_none b).symm
  · intro s act s' hs hallowed hspares hstep
    obtain rfl := Except.ok.inj hstep
    exact hs.step hallowed hspares

end Keeping

section Emitting

variable {s : Outgoing} {c : ConnId} {link link' : Link} {sent : Sent} {gain : List UInt8}
  {packets : Packets} {packet : PacketPtr} {answer : SendResult}

/-- A byte counts once when it is in the buffer, and once more when it is out. -/
def Link.progress (link : Link) : Nat :=
  2 * link.emitted.length + if link.sender.sendBuf.readable = [] then 0 else 1

/-- Nothing that has gone out or is still to go is taken back. -/
structure Link.Advances (packets : Packets) (link : Link) (packets' : Packets) (link' : Link) :
    Prop where
  emitted : link.emitted <+: link'.emitted
  stream : link.stream packets <+: link'.stream packets'
  progress : link.progress ≤ link'.progress

theorem Link.Advances.refl {packets' : Packets}
    (hsame : ∀ p ∈ link.sender.sendQueue, packets' p = packets p) :
    link.Advances packets packets' link := by
  refine ⟨List.prefix_rfl, ⟨[], ?_⟩, Nat.le_refl _⟩
  rw [Link.stream_congr hsame, List.append_nil]

theorem Link.Advances.trans {packets' packets'' : Packets} {link'' : Link}
    (h : link.Advances packets packets' link') (h' : link'.Advances packets' packets'' link'') :
    link.Advances packets packets'' link'' :=
  ⟨h.emitted.trans h'.emitted, h.stream.trans h'.stream, Nat.le_trans h.progress h'.progress⟩

theorem Link.Advances.after (hserves : Serves packets link.sender gain sent) :
    link.Advances packets sent.packets (link.after sent) := by
  refine ⟨List.prefix_append _ _, ?_, ?_⟩
  · rw [stream_after hserves]
    exact List.prefix_append _ _
  rw [Link.progress, Link.progress]
  change _ ≤ 2 * (link.emitted ++ sent.emitted).length +
    if sent.sender.sendBuf.readable = [] then 0 else 1
  rw [List.length_append]
  by_cases hnone : sent.emitted = []
  · have hready := hserves.keeps hnone
    split_ifs with hbefore hafter hafter
    · omega
    · omega
    · exact absurd hafter (hready hbefore)
    · omega
  · have hsome := List.length_pos_of_ne_nil hnone
    split_ifs <;> omega

theorem Link.Advances.handed {original : List UInt8}
    (hlive : (link.handed (sendPacket packets link.sender packet answer) original).Live) :
    link.Live ∧ link.Advances packets (sendPacket packets link.sender packet answer).packets
      (link.handed (sendPacket packets link.sender packet answer) original) := by
  rw [Link.handed] at hlive ⊢
  cases hreturned : (sendPacket packets link.sender packet answer).returned with
  | error e =>
      rw [hreturned] at hlive
      exact absurd hlive.2 Bool.true_eq_false.mp
  | ok accepted =>
      rw [hreturned] at hlive
      obtain ⟨gain, hserves, -⟩ := sendPacket_serves hreturned
      have hadvances := Link.Advances.after hserves
      cases accepted with
      | true => exact ⟨hlive, hadvances.emitted, hadvances.stream, hadvances.progress⟩
      | false => exact ⟨hlive, hadvances⟩

theorem Link.Advances.turned
    (halone : ∀ packet rest, turnTrims packets link.sender answer = some (packet, rest) →
      packet ∉ rest)
    (hlive : (link.turned (writeTurn packets link.sender answer)).Live) :
    link.Live ∧ link.Advances packets (writeTurn packets link.sender answer).packets
      (link.turned (writeTurn packets link.sender answer)) := by
  rw [Link.turned] at hlive ⊢
  cases hreturned : (writeTurn packets link.sender answer).returned with
  | error e =>
      rw [hreturned] at hlive
      exact absurd hlive.2 Bool.true_eq_false.mp
  | ok goesOn =>
      rw [hreturned] at hlive
      have hadvances := Link.Advances.after (writeTurn_serves halone ⟨goesOn, hreturned⟩)
      exact ⟨hlive, hadvances.emitted, hadvances.stream, hadvances.progress⟩

theorem Link.progress_turned {most : Nat} (hsound : link.Sound packets) (hmost : 0 < most)
    (hpending : link.emitted ≠ link.stream packets)
    (halone : ∀ packet rest, turnTrims packets link.sender (.sent most) = some (packet, rest) →
      packet ∉ rest) :
    link.progress < (link.turned (writeTurn packets link.sender (.sent most))).progress := by
  have hbytes : link.sender.sendBuf.readable ++ queued packets link.sender.sendQueue ≠ [] := by
    intro hnone
    rw [Link.stream, hnone, List.append_nil] at hpending
    exact hpending rfl
  obtain ⟨⟨goesOn, hreturned⟩, hgains⟩ :=
    writeTurn_productive hmost hsound.capacity hbytes halone
  rw [Link.turned, hreturned, Link.progress, Link.progress]
  change _ < 2 * (link.emitted ++ (writeTurn packets link.sender (.sent most)).emitted).length +
    if (writeTurn packets link.sender (.sent most)).sender.sendBuf.readable = [] then 0 else 1
  rw [List.length_append]
  rcases hgains with hout | ⟨hbefore, hafter⟩
  · have hsome := List.length_pos_of_ne_nil hout
    split_ifs <;> omega
  · rw [if_pos hbefore, if_neg hafter]
    omega

/-- A round that the socket takes something in. -/
def Productive (c : ConnId) : SendAct → Bool
  | .writeTurn c' (.sent most) => c' = c ∧ 0 < most
  | _ => false

/-- What a step does to a link that is still live after it. -/
def Link.Follows (act : SendAct) (c : ConnId) (packets : Packets) (link : Link)
    (packets' : Packets) (link' : Link) : Prop :=
  link'.Live → link.Live ∧ link.Advances packets packets' link' ∧
    (Productive c act = true → link.emitted ≠ link.stream packets →
      link.progress < link'.progress)

theorem Link.Follows.same {act : SendAct} {packets' : Packets} (hquiet : Productive c act = false)
    (hsame : link.Live → ∀ p ∈ link.sender.sendQueue, packets' p = packets p) :
    link.Follows act c packets packets' link := by
  refine fun hlive => ⟨hlive, .refl (hsame hlive), fun hproductive => ?_⟩
  rw [hquiet] at hproductive
  exact absurd hproductive Bool.false_ne_true

theorem follows_update {act : SendAct} {c₀ : ConnId} {link₀ : Link} {packets' : Packets}
    (hlink : s.links c = some link)
    (hlink' : Function.update s.links c₀ (some link₀) c = some link')
    (hquiet : c ≠ c₀ → Productive c act = false)
    (hothers : c ≠ c₀ → link.Live → ∀ p ∈ link.sender.sendQueue, packets' p = s.packets p)
    (hfollows : c = c₀ → link.Follows act c s.packets packets' link₀) :
    link.Follows act c s.packets packets' link' := by
  by_cases hc : c = c₀
  · have hfollows := hfollows hc
    rw [hc, Function.update_self] at hlink'
    obtain rfl := Option.some.inj hlink'
    exact hfollows
  · rw [Function.update_of_ne hc, hlink] at hlink'
    obtain rfl := Option.some.inj hlink'
    exact .same (hquiet hc) (hothers hc)

theorem sendPacket_follows {act : SendAct} {c₀ : ConnId} {link₀ : Link} {original : List UInt8}
    (hquiet : Productive c act = false) (hlink₀ : s.links c₀ = some link₀)
    (halone : ∀ p rest, sendTrims s.packets link₀.sender packet answer = some (p, rest) →
      s.Alone c₀ p rest)
    (hlink : s.links c = some link)
    (hlink' : (s.sendPacket c₀ packet original answer).links c = some link') :
    link.Follows act c s.packets (s.sendPacket c₀ packet original answer).packets link' := by
  have hsame := (sendPacket_outcome s.packets link₀.sender packet answer).packets_eq
  rw [Outgoing.sendPacket, hlink₀] at hlink' ⊢
  refine follows_update hlink hlink' (fun _ => hquiet)
    (fun hc => Outgoing.Alone.others hsame halone c link hc hlink) ?_
  rintro rfl hlive
  obtain rfl := Option.some.inj (hlink₀.symm.trans hlink)
  obtain ⟨hbefore, hadvances⟩ := Link.Advances.handed hlive
  refine ⟨hbefore, hadvances, fun hproductive => ?_⟩
  rw [hquiet] at hproductive
  exact absurd hproductive Bool.false_ne_true

theorem follows_step {act : SendAct} (hsound : s.Sound) (hallowed : s.Allowed act)
    (hspares : s.Spares act) (hlink : s.links c = some link)
    (hlink' : (s.step act).links c = some link') :
    link.Follows act c s.packets (s.step act).packets link' := by
  have hkept : s.links c = some link' → link' = link := fun h =>
    Option.some.inj (h.symm.trans hlink)
  cases act with
  | connect c₀ type sizeLimit =>
      refine follows_update hlink hlink' (fun _ => rfl) (fun _ _ _ _ => rfl) ?_
      rintro rfl
      rw [hallowed.2.1] at hlink
      exact absurd hlink (Option.some_ne_none link).symm
  | create packet content =>
      rw [hkept hlink']
      exact .same rfl fun _ p hp =>
        Function.update_of_ne (ne_of_mem_of_not_mem hp (hallowed.2 c link hlink)) _ _
  | send c₀ packet answer =>
      obtain ⟨-, link₀, hlink₀, -⟩ := hallowed
      exact sendPacket_follows rfl hlink₀ (hspares link₀ hlink₀) hlink hlink'
  | broadcast type packet receivers =>
      rw [Outgoing.step] at hlink' ⊢
      split_ifs at hlink' ⊢
      · rw [hkept hlink']
        exact .same rfl fun _ _ _ => rfl
      · rw [hkept hlink']
        exact .same rfl fun _ _ _ => rfl
  | visit answer =>
      obtain ⟨⟨packet, _, original⟩, c₀, receivers, link₀, hb, rfl, hlink₀, -⟩ := hallowed
      have htrims := hspares packet c₀ receivers original link₀ hb hlink₀
      rw [Outgoing.step, Outgoing.visit, hb] at hlink' ⊢
      exact sendPacket_follows rfl hlink₀ (fun p rest hp => (htrims p rest hp).1) hlink hlink'
  | writeEvent c₀ =>
      obtain ⟨link₀, hfound, -⟩ := hallowed
      rw [Outgoing.step, hfound] at hlink' ⊢
      refine follows_update hlink hlink' (fun _ => rfl) (fun _ _ _ _ => rfl) ?_
      rintro rfl hlive
      obtain rfl := Option.some.inj (hfound.symm.trans hlink)
      exact ⟨hlive, ⟨List.prefix_rfl, List.prefix_rfl, Nat.le_refl _⟩,
        fun hproductive => absurd hproductive Bool.false_ne_true⟩
  | writeTurn c₀ answer =>
      obtain ⟨link₀, hlink₀, -⟩ := hallowed
      have hsame : ∀ p, (∀ rest, turnTrims s.packets link₀.sender answer ≠ some (p, rest)) →
          (writeTurn s.packets link₀.sender answer).packets p = s.packets p :=
        fun p => writeTurn_packets_eq p
      have halone : ∀ p rest, turnTrims s.packets link₀.sender answer = some (p, rest) →
          s.Alone c₀ p rest := fun p rest htrims => (hspares link₀ hlink₀ p rest htrims).1
      rw [Outgoing.step, Outgoing.writeTurn, hlink₀] at hlink' ⊢
      refine follows_update hlink hlink' ?_
        (fun hc => Outgoing.Alone.others hsame halone c link hc hlink) ?_
      · intro hc
        cases answer with
        | again => rfl
        | fault => rfl
        | sent most => exact decide_eq_false fun h => hc h.1.symm
      · rintro rfl hlive
        obtain rfl := Option.some.inj (hlink₀.symm.trans hlink)
        obtain ⟨hbefore, hadvances⟩ :=
          Link.Advances.turned (fun p rest htrims => (halone p rest htrims).1) hlive
        refine ⟨hbefore, hadvances, fun hproductive hpending => ?_⟩
        cases answer with
        | again => exact absurd hproductive Bool.false_ne_true
        | fault => exact absurd hproductive Bool.false_ne_true
        | sent most =>
            exact Link.progress_turned (hsound.links _ _ hlink hbefore)
              (of_decide_eq_true hproductive).2 hpending
              fun p rest htrims => (halone p rest htrims).1
  | erase c₀ =>
      obtain ⟨-, link₀, hfound⟩ := hallowed
      rw [Outgoing.step, hfound] at hlink' ⊢
      refine follows_update hlink hlink' (fun _ => rfl) (fun _ _ _ _ => rfl) ?_
      rintro rfl hlive
      exact absurd hlive.1 Bool.true_eq_false.mp

theorem exists_link_step (act : SendAct) (hlink : s.links c = some link) :
    ∃ link', (s.step act).links c = some link' := by
  have hupdate : ∀ (c₀ : ConnId) (link₀ : Link),
      ∃ link', Function.update s.links c₀ (some link₀) c = some link' := by
    intro c₀ link₀
    rw [Function.update_apply]
    split_ifs
    · exact ⟨link₀, rfl⟩
    · exact ⟨link, hlink⟩
  have hsend : ∀ c₀ packet original answer,
      ∃ link', (s.sendPacket c₀ packet original answer).links c = some link' := by
    intro c₀ packet original answer
    rw [Outgoing.sendPacket]
    cases s.links c₀ with
    | none => exact ⟨link, hlink⟩
    | some link₀ => exact hupdate c₀ _
  cases act with
  | connect c₀ type sizeLimit => exact hupdate c₀ _
  | create packet content => exact ⟨link, hlink⟩
  | send c₀ packet answer => exact hsend c₀ packet _ answer
  | broadcast type packet receivers =>
      rw [Outgoing.step]
      split_ifs <;> exact ⟨link, hlink⟩
  | visit answer =>
      rw [Outgoing.step, Outgoing.visit]
      split
      · exact hsend _ _ _ answer
      · exact ⟨link, hlink⟩
  | writeEvent c₀ =>
      rw [Outgoing.step]
      cases s.links c₀ with
      | none => exact ⟨link, hlink⟩
      | some link₀ => exact hupdate c₀ _
  | writeTurn c₀ answer =>
      rw [Outgoing.step, Outgoing.writeTurn]
      cases s.links c₀ with
      | none => exact ⟨link, hlink⟩
      | some link₀ => exact hupdate c₀ _
  | erase c₀ =>
      rw [Outgoing.step]
      cases s.links c₀ with
      | none => exact ⟨link, hlink⟩
      | some link₀ => exact hupdate c₀ _

/-- Every productive round gets further, until all that was to go has gone. -/
theorem progress_run {acts : List SendAct} (hsound : s.Sound)
    (hfits : sendSystem.Fits Outgoing.Spares s acts) (hlink : s.links c = some link)
    (hlink' : (sendSystem.after s acts).links c = some link') (hlive : link'.Live) :
    (sendSystem.after s acts).Sound ∧ link.Live ∧
      link.Advances s.packets (sendSystem.after s acts).packets link' ∧
        ∀ goal ≤ (link.stream s.packets).length, goal ≤ link'.emitted.length ∨
          link.progress + acts.countP (Productive c) ≤ link'.progress := by
  induction acts generalizing s link with
  | nil =>
      obtain rfl := Option.some.inj (hlink.symm.trans hlink')
      exact ⟨hsound, hlive, .refl fun _ _ => rfl, fun _ _ => Or.inr (Nat.le_refl _)⟩
  | cons act acts ih =>
      obtain ⟨hallowed, hspares, hrest⟩ := hfits
      obtain ⟨link₁, hlink₁⟩ := exists_link_step act hlink
      have hfollows := follows_step hsound hallowed hspares hlink hlink₁
      change sendSystem.Fits _ (s.step act) acts at hrest
      change (sendSystem.after (s.step act) acts).links c = some link' at hlink'
      obtain ⟨hend, hlive₁, hadvances₁, hprogress₁⟩ :=
        ih (hsound.step hallowed hspares) hrest hlink₁ hlink'
      obtain ⟨hbefore, hadvances, hproductive⟩ := hfollows hlive₁
      refine ⟨hend, hbefore, hadvances.trans hadvances₁, fun goal hgoal => ?_⟩
      have hstill := hprogress₁ goal (Nat.le_trans hgoal hadvances.stream.length_le)
      rw [List.countP_cons]
      by_cases hout : goal ≤ link.emitted.length
      · exact Or.inl (Nat.le_trans hout (hadvances.trans hadvances₁).emitted.length_le)
      · have hpending : link.emitted ≠ link.stream s.packets := by
          intro hall
          rw [hall] at hout
          exact hout hgoal
        have hstep := hadvances.progress
        refine hstill.imp_right fun hrun => ?_
        split_ifs with hturn
        · have := hproductive hturn hpending
          omega
        · omega

/-- What a connection owes to those who use it. -/
structure Link.Delivers (s : Outgoing) (c : ConnId) (link : Link) : Prop where
  /-- Each packet that it has accepted is, as a whole, in what has gone out and what is
  still to go. -/
  stream : Carries link.accepted (link.stream s.packets)
  /-- As long as something is to go there is a write event or the next round of one. -/
  offered : link.emitted ≠ link.stream s.packets →
    s.Allowed (.writeEvent c) ∨ ∀ answer, s.Allowed (.writeTurn c answer)
  /-- Whatever else happens, it has all gone out after so many rounds that the socket takes
  something in. -/
  emits : ∀ acts link', sendSystem.Fits Outgoing.Spares s acts →
    (sendSystem.after s acts).links c = some link' → link'.Live →
      2 * (link.stream s.packets).length ≤ acts.countP (Productive c) →
        Carries link.accepted link'.emitted

theorem Outgoing.Sound.delivers (hsound : s.Sound) (hlink : s.links c = some link)
    (hlive : link.Live) : link.Delivers s c := by
  have hlinkSound := hsound.links c link hlink hlive
  refine ⟨hlinkSound.stream, fun hpending => ?_, ?_⟩
  · have hwatched : link.sender.readWrite = true := by
      apply hlinkSound.watched
      by_contra hnothing
      rw [not_or, not_not, not_not] at hnothing
      rw [Link.stream, hnothing.1, hnothing.2, queued, List.flatMap_nil, List.append_nil,
        List.append_nil] at hpending
      exact hpending rfl
    cases hwriting : link.writing with
    | false => exact Or.inl ⟨link, hlink, hwatched, hwriting⟩
    | true => exact Or.inr fun _ => ⟨link, hlink, hwriting⟩
  · intro acts link' hfits hlink' hlive' hturns
    obtain ⟨-, -, hadvances, hprogress⟩ := progress_run hsound hfits hlink hlink' hlive'
    have hall : (link.stream s.packets).length ≤ link'.emitted.length := by
      rcases hprogress _ (Nat.le_refl _) with hout | hrun
      · exact hout
      · have hbound : link'.progress ≤ 2 * link'.emitted.length + 1 := by
          rw [Link.progress]
          split_ifs <;> omega
        omega
    have hstart : link'.emitted <+: link'.stream (sendSystem.after s acts).packets :=
      List.prefix_append _ _
    exact hlinkSound.stream.of_prefix
      (List.prefix_of_prefix_length_le hadvances.stream hstart hall)

/-- In every run in which no packet is trimmed while others need it, a connection delivers
every packet it has accepted as a whole: those of broadcasts too, whatever happens to
their other receivers. -/
theorem broadcast_delivers (h : sendSystem.Reaches Outgoing.Spares s)
    (hlink : s.links c = some link) (hlive : link.Live) : link.Delivers s c :=
  (Outgoing.Sound.reaches h).delivers hlink hlive

end Emitting

/-- Two clients, and nothing to send. -/
def twoIdle (packets : Packets) : Outgoing where
  packets := packets
  links c :=
    if c < 2 then
      some { sender := { sendBuf := .create 2048 }, type := .publicType, accepted := [[]] }
    else none

/-- A broadcast to the two, with the answers of the sockets so far. -/
def visited (packets : Packets) (answers : List SendResult) : Outgoing :=
  answers.foldl Outgoing.visit ((twoIdle packets).step (.broadcast .publicType 0 [0, 1]))

theorem Outgoing.allowed_visit {s : Outgoing} {answer : SendResult} (c : ConnId)
    (receivers : List ConnId)
    (hb : s.broadcast.map Broadcast.receivers = some (c :: receivers))
    (hlink : (s.links c).map Link.writing = some false) :
    sendSystem.Allowed s (.visit answer) := by
  obtain ⟨b, hb, hreceivers⟩ := Option.map_eq_some_iff.mp hb
  obtain ⟨link, hlink, hwriting⟩ := Option.map_eq_some_iff.mp hlink
  exact ⟨b, c, receivers, link, hb, hreceivers, hlink, hwriting⟩

theorem twoIdle_init (packets : Packets) : sendSystem.Init (twoIdle packets) := by
  refine ⟨rfl, fun c link hlink => ?_⟩
  rw [twoIdle] at hlink
  dsimp only at hlink
  split_ifs at hlink
  obtain rfl := Option.some.inj hlink
  refine ⟨?_, ?_, rfl⟩
  · dsimp only
    rw [ConnectionBuffer.capacity_create]
    omega
  · rintro (hpending | hpending)
    · exact absurd rfl hpending
    · exact absurd rfl hpending

theorem reaches_broadcast {C : Outgoing → SendAct → Prop} {packets : Packets}
    (hC : C (twoIdle packets) (.broadcast .publicType 0 [0, 1])) :
    sendSystem.Reaches C (visited packets []) := by
  refine .step (.init (twoIdle_init packets)) ?_ hC rfl
  refine ⟨rfl, by decide, fun c => ?_⟩
  have hmem : ∀ n : Nat, n ∈ [0, 1] ↔ n < 2 := by
    intro n
    rw [List.mem_pair]
    omega
  rw [hmem c]
  constructor
  · intro hc
    exact ⟨_, if_pos hc, rfl, rfl⟩
  · rintro ⟨link, hlink, -⟩
    by_contra hc
    exact absurd ((if_neg hc).symm.trans hlink) (Option.some_ne_none link).symm

theorem reaches_visit {C : Outgoing → SendAct → Prop} {packets : Packets}
    {answers : List SendResult} {answer : SendResult}
    (h : sendSystem.Reaches C (visited packets answers))
    (hallowed : sendSystem.Allowed (visited packets answers) (.visit answer))
    (hC : C (visited packets answers) (.visit answer)) :
    sendSystem.Reaches C (visited packets (answers ++ [answer])) := by
  rw [visited, List.foldl_append]
  exact h.step hallowed hC rfl

theorem broadcast_delivers_oneByte :
    ∃ link, (visited oneByte [.sent 1]).links 0 = some link ∧ link.accepted = [[], [7]] ∧
      link.Delivers (visited oneByte [.sent 1]) 0 := by
  have hreaches : sendSystem.Reaches Outgoing.Spares (visited oneByte ([] ++ [.sent 1])) := by
    have hfirst : sendSystem.Allowed (visited oneByte []) (.visit (.sent 1)) :=
      Outgoing.allowed_visit 0 [1] (by decide +kernel) (by decide +kernel)
    refine reaches_visit (reaches_broadcast trivial) hfirst ?_
    intro packet c receivers original link hb hlink p behind htrims
    have hnone : ((visited oneByte []).links 0).map (fun link =>
        sendTrims (visited oneByte []).packets link.sender 0 (.sent 1)) = some none := by
      decide +kernel
    obtain ⟨rfl, hreceivers, -⟩ := Broadcast.mk.inj (Option.some.inj hb)
    obtain ⟨rfl, -⟩ := List.cons.inj hreceivers
    rw [hlink, Option.map_some, htrims] at hnone
    exact absurd (Option.some.inj hnone) (Option.some_ne_none _)
  have hlink : ((visited oneByte [.sent 1]).links 0).map
      (fun link => (link.accepted, link.erased, link.failed)) = some ([[], [7]], false, false) := by
    decide +kernel
  obtain ⟨link, hfound, hlink⟩ := Option.map_eq_some_iff.mp hlink
  rw [Prod.mk.injEq, Prod.mk.injEq] at hlink
  exact ⟨link, hfound, hlink.1, broadcast_delivers hreaches hfound hlink.2⟩

/-- More than a buffer takes. -/
def longPacket : Packets :=
  fun _ => ⟨List.replicate 2049 0, by rw [List.length_replicate]; omega⟩

/-- The first socket takes nothing, and all but the last byte is cut off the packet. The
second takes all it is given, and has nothing left to emit. -/
theorem broadcast_tears :
    ¬ ∀ (s : Outgoing) (c : ConnId) (link : Link),
      sendSystem.Reaches (fun _ _ => True) s → s.links c = some link → link.Live →
      link.emitted = link.stream s.packets → Carries link.accepted link.emitted := by
  intro h
  have hfirst : sendSystem.Allowed (visited longPacket []) (.visit .again) :=
    Outgoing.allowed_visit 0 [1] (by decide +kernel) (by decide +kernel)
  have hsecond : sendSystem.Allowed (visited longPacket [.again]) (.visit (.sent 2049)) :=
    Outgoing.allowed_visit 1 [] (by decide +kernel) (by decide +kernel)
  have hreaches : sendSystem.Reaches (fun _ _ => True)
      (visited longPacket (([] ++ [.again]) ++ [.sent 2049])) :=
    reaches_visit (reaches_visit (reaches_broadcast trivial) hfirst trivial) hsecond trivial
  have hlink : ((visited longPacket [.again, .sent 2049]).links 1).map
      (fun link => (link.emitted.length, link.accepted.flatten.length,
        link.sender.sendBuf.readable, link.sender.sendQueue.length, link.erased, link.failed)) =
          some (1, 2049, [], 0, false, false) := by
    decide +kernel
  obtain ⟨link, hfound, hlink⟩ := Option.map_eq_some_iff.mp hlink
  simp only [Prod.mk.injEq] at hlink
  obtain ⟨hemitted, haccepted, hbuf, hqueue, hlive⟩ := hlink
  have hout : link.emitted = link.stream (visited longPacket [.again, .sent 2049]).packets := by
    rw [Link.stream, hbuf, List.length_eq_zero_iff.mp hqueue, queued, List.flatMap_nil,
      List.append_nil, List.append_nil]
  have hshort := (h _ 1 link hreaches hfound hlive hout).length_le
  rw [hemitted, haccepted] at hshort
  omega
end CasualGame.Net
