import CasualGame.Net.Delivery
import CasualGame.Net.Draining
import CasualGame.Net.Segmentation
import CasualGame.Net.ReadEvents

/-!
Managers that send to each other: what is accepted for a connection at its one end and
what comes out of the queue at the other.
-/

namespace CasualGame.Net

open Lib.Framing
open Lib.Run
open TcpConnectionManager
open TcpPacket

abbrev ManagerId := Nat

/-- One direction of a connection: the manager that sends, and the connection there. -/
abbrev Flow := ManagerId × ConnId

/-- The end of a flow that receives. -/
structure Inflow where
  reader : Reader
  phase : Phase := .waiting
  /-- How many bytes it has got from the socket; the source has no such record. -/
  received : Nat := 0

/-- The `recvQueue` of a manager has the packets of all its connections. -/
structure Network where
  outgoing : ManagerId → Outgoing
  inflows : Flow → Inflow
  recvQueues : ManagerId → CircularQueue (Flow × TcpPacket)
  /-- What `getPacket` has handed out. -/
  taken : ManagerId → List (Flow × TcpPacket) := fun _ => []

inductive NetAct
  | sending (manager : ManagerId) (act : SendAct)
  | readEvent (flow : Flow)
  | recv (flow : Flow) (answer : RecvResult)
  | getPacket (manager : ManagerId)

namespace Outgoing

variable (s : Outgoing) (c : ConnId)

def emitted : List UInt8 := (s.links c).elim [] Link.emitted

def accepted : List (List UInt8) := (s.links c).elim [] Link.accepted

/-- The bytes that the socket has still to be given. -/
def unsent : List UInt8 := (s.links c).elim [] fun link =>
  link.sender.sendBuf.readable ++ queued s.packets link.sender.sendQueue

/-- The connection has neither been erased nor failed. -/
def Open : Prop := ∀ link, s.links c = some link → link.Live

/-- All that is handed to the connection is a packet as a whole, and none is committed
twice. -/
def Undivided : SendAct → Prop
  | .send c' packet answer => c' = c → (∃ content, (s.packets packet).buf = encode content) ∧
      ∀ link, s.links c = some link → ¬ CommitsTwice s.packets link.sender packet answer
  | .broadcast _ packet _ => ∃ content, (s.packets packet).buf = encode content
  | .visit answer => ∀ packet receivers original link,
      s.broadcast = some { packet, receivers := c :: receivers, original } →
      s.links c = some link → ¬ CommitsTwice s.packets link.sender packet answer
  | _ => True

end Outgoing

namespace Network

variable (owner : Flow → ManagerId) (s : Network)

/-- What has been sent and not received. -/
def wire (flow : Flow) : List UInt8 :=
  ((s.outgoing flow.1).emitted flow.2).drop (s.inflows flow).received

def readEvent (flow : Flow) : Network :=
  if (s.recvQueues (owner flow)).full then s
  else { s with
    inflows := Function.update s.inflows flow { s.inflows flow with phase := .reading } }

def recv (flow : Flow) (answer : RecvResult) : Network :=
  match (s.inflows flow).reader.pass answer with
  | .error _ =>
      { s with
        inflows := Function.update s.inflows flow { s.inflows flow with phase := .erased } }
  | .ok (none, reader) =>
      { s with
        inflows := Function.update s.inflows flow
          { reader := reader
            phase := .waiting
            received := (s.inflows flow).received + answer.bytes.length } }
  | .ok (some packet, reader) =>
      { s with
        inflows := Function.update s.inflows flow
          { reader := reader
            phase := (s.inflows flow).phase
            received := (s.inflows flow).received + answer.bytes.length }
        recvQueues := Function.update s.recvQueues (owner flow)
          ((s.recvQueues (owner flow)).push (flow, packet)).2 }

def getPacket (manager : ManagerId) : Network :=
  match (s.recvQueues manager).pop with
  | (none, _) => s
  | (some item, recvQueue) =>
      { s with
        recvQueues := Function.update s.recvQueues manager recvQueue
        taken := Function.update s.taken manager (s.taken manager ++ [item]) }

def step : NetAct → Network
  | .sending manager act =>
      { s with
        outgoing := Function.update s.outgoing manager ((s.outgoing manager).step act) }
  | .readEvent flow => s.readEvent owner flow
  | .recv flow answer => s.recv owner flow answer
  | .getPacket manager => s.getPacket manager

/-- A socket hands out what is on the wire, in order. -/
def Allowed : NetAct → Prop
  | .sending manager act => (s.outgoing manager).Allowed act
  | .readEvent flow => (s.inflows flow).phase = .waiting
  | .recv flow answer => (s.inflows flow).phase = .reading ∧
      (s.inflows flow).reader.Offers answer ∧ answer.bytes <+: s.wire flow
  | .getPacket _ => True

/-- There is room in the queue for a packet that the turn completes. -/
def Roomy (flow : Flow) (answer : RecvResult) : Prop :=
  ∀ packet reader, (s.inflows flow).reader.pass answer = .ok (some packet, reader) →
    (s.recvQueues (owner flow)).full = false

/-- What a flow needs of the two managers at its ends. The other flows may do as they
like. -/
def Careful (flow : Flow) : NetAct → Prop
  | .sending manager act => manager = flow.1 →
      (s.outgoing manager).Spares act ∧ (s.outgoing manager).Undivided flow.2 act
  | .recv flow' answer => flow' = flow → s.Roomy owner flow answer
  | _ => True

end Network

/-- No connection is there at the start. `owner` is the manager at the other end. -/
def network (owner : Flow → ManagerId) : System Network NetAct Empty where
  Init s := (∀ manager, (s.outgoing manager).broadcast = none ∧
      ∀ c, (s.outgoing manager).links c = none) ∧
    (∀ flow, ∃ sizeLimit, s.inflows flow = { reader := .create sizeLimit }) ∧
    ∀ manager, (∃ powArg, s.recvQueues manager = .create powArg) ∧ s.taken manager = []
  Allowed s act := s.Allowed act
  step s act := .ok (s.step owner act)

/-- What has gone out on a link and is still to go is what it has accepted, and this is
whole packets. -/
structure Link.Exact (packets : Packets) (link : Link) : Prop where
  stream : link.stream packets = link.accepted.flatten
  whole : ∀ block ∈ link.accepted, ∃ content, block = encode content ∧ content.length + 4 < 2 ^ 32

structure Outgoing.Exact (c : ConnId) (s : Outgoing) : Prop where
  link : ∀ link, s.links c = some link → link.Live → link.Exact s.packets
  original : ∀ b, s.broadcast = some b → ∃ content, b.original = encode content

section Sending

variable {s : Outgoing} {c c₀ : ConnId} {link : Link} {packets packets' : Packets}
  {packet : PacketPtr} {answer : SendResult} {broadcast : Option Broadcast}

theorem Link.Exact.congr (h : link.Exact packets)
    (hsame : ∀ p ∈ link.sender.sendQueue, packets' p = packets p) : link.Exact packets' := by
  refine ⟨?_, h.whole⟩
  rw [Link.stream_congr hsame]
  exact h.stream

theorem sendPacket_serves_once {sender : Sender}
    (hok : (sendPacket packets sender packet answer).returned = .ok true)
    (honce : ¬ CommitsTwice packets sender packet answer) :
    Serves packets sender (packets packet).buf (sendPacket packets sender packet answer) := by
  have h := sendPacket_outcome packets sender packet answer
  obtain ⟨extra, hstream, hextra⟩ := h.stream_accepted hok
  rw [hextra.mpr honce, List.append_nil] at hstream
  exact ⟨h.capacity ⟨true, hok⟩, hstream, h.watched ⟨true, hok⟩, h.keeps ⟨true, hok⟩⟩

theorem sendPacket_serves_none {sender : Sender}
    (hrefused : (sendPacket packets sender packet answer).returned = .ok false) :
    Serves packets sender [] (sendPacket packets sender packet answer) := by
  have h := sendPacket_outcome packets sender packet answer
  obtain ⟨hpackets, hsender, hemitted⟩ := h.of_refused hrefused
  refine ⟨h.capacity ⟨false, hrefused⟩, ?_, h.watched ⟨false, hrefused⟩,
    h.keeps ⟨false, hrefused⟩⟩
  rw [Sent.stream, hpackets, hsender, hemitted, List.nil_append, List.append_nil]

theorem Link.Exact.handed (h : link.Live → link.Exact packets)
    (hwhole : ∃ content, (packets packet).buf = encode content)
    (honce : ¬ CommitsTwice packets link.sender packet answer)
    (hlive : (link.handed (sendPacket packets link.sender packet answer)
      (packets packet).buf).Live) :
    (link.handed (sendPacket packets link.sender packet answer) (packets packet).buf).Exact
      (sendPacket packets link.sender packet answer).packets := by
  rw [Link.handed] at hlive ⊢
  cases hreturned : (sendPacket packets link.sender packet answer).returned with
  | error e =>
      rw [hreturned] at hlive
      exact absurd hlive.2 Bool.true_eq_false.mp
  | ok accepted =>
      rw [hreturned] at hlive
      cases accepted with
      | true =>
          refine ⟨?_, fun block hblock => ?_⟩
          · change (link.after _).stream _ = (link.accepted ++ [_]).flatten
            rw [stream_after (sendPacket_serves_once hreturned honce), (h hlive).stream,
              List.flatten_append, List.flatten_singleton]
          · rcases List.mem_append.mp hblock with hbefore | hnew
            · exact (h hlive).whole block hbefore
            · obtain rfl := List.mem_singleton.mp hnew
              obtain ⟨content, hcontent⟩ := hwhole
              have hsize := (packets packet).size_lt
              rw [hcontent, length_encode] at hsize
              exact ⟨content, hcontent, hsize⟩
      | false =>
          refine ⟨?_, (h hlive).whole⟩
          change (link.after _).stream _ = link.accepted.flatten
          rw [stream_after (sendPacket_serves_none hreturned), List.append_nil]
          exact (h hlive).stream

theorem Link.Exact.turned (h : link.Live → link.Exact packets)
    (halone : ∀ packet rest, turnTrims packets link.sender answer = some (packet, rest) →
      packet ∉ rest)
    (hlive : (link.turned (writeTurn packets link.sender answer)).Live) :
    (link.turned (writeTurn packets link.sender answer)).Exact
      (writeTurn packets link.sender answer).packets := by
  rw [Link.turned] at hlive ⊢
  cases hreturned : (writeTurn packets link.sender answer).returned with
  | error e =>
      rw [hreturned] at hlive
      exact absurd hlive.2 Bool.true_eq_false.mp
  | ok goesOn =>
      rw [hreturned] at hlive
      refine ⟨?_, (h hlive).whole⟩
      change (link.after _).stream _ = link.accepted.flatten
      rw [stream_after (writeTurn_serves halone ⟨goesOn, hreturned⟩), List.append_nil]
      exact (h hlive).stream

theorem Outgoing.Exact.setLink (h : s.Exact c)
    (hothers : ∀ c' link', c' ≠ c₀ → s.links c' = some link' → link'.Live →
      ∀ p ∈ link'.sender.sendQueue, packets' p = s.packets p)
    (hlink : c = c₀ → link.Live → link.Exact packets')
    (horiginal : ∀ b, broadcast = some b → ∃ content, b.original = encode content) :
    Outgoing.Exact c
      { packets := packets'
        links := Function.update s.links c₀ (some link)
        broadcast := broadcast } := by
  refine ⟨fun link' hlink' hlive => ?_, horiginal⟩
  change Function.update s.links c₀ (some link) c = some link' at hlink'
  rcases eq_or_ne c c₀ with rfl | hc
  · rw [Function.update_self] at hlink'
    obtain rfl := Option.some.inj hlink'
    exact hlink rfl hlive
  · rw [Function.update_of_ne hc] at hlink'
    exact (h.link link' hlink' hlive).congr (hothers c link' hc hlink' hlive)

theorem Outgoing.Exact.sendPacket (h : s.Exact c) {link₀ : Link} (hlink₀ : s.links c₀ = some link₀)
    (halone : ∀ p rest, sendTrims s.packets link₀.sender packet answer = some (p, rest) →
      s.Alone c₀ p rest)
    (hwhole : c = c₀ → ∃ content, (s.packets packet).buf = encode content)
    (honce : c = c₀ → ¬ CommitsTwice s.packets link₀.sender packet answer)
    (horiginal : ∀ b, broadcast = some b → ∃ content, b.original = encode content) :
    Outgoing.Exact c
      { s.sendPacket c₀ packet (s.packets packet).buf answer with broadcast := broadcast } := by
  have hsame := (sendPacket_outcome s.packets link₀.sender packet answer).packets_eq
  rw [Outgoing.sendPacket, hlink₀]
  refine h.setLink (Outgoing.Alone.others hsame halone) ?_ horiginal
  rintro rfl hlive
  exact Link.Exact.handed (h.link link₀ hlink₀) (hwhole rfl) (honce rfl) hlive

theorem Outgoing.Exact.setLink_same (h : s.Exact c)
    (hlink : c = c₀ → link.Live → link.Exact s.packets) : (s.setLink c₀ link).Exact c :=
  h.setLink (fun _ _ _ _ _ _ _ => rfl) hlink h.original

theorem Outgoing.Exact.step {act : SendAct} (h : s.Exact c) (hsound : s.Sound)
    (hallowed : s.Allowed act) (hspares : s.Spares act) (hundivided : s.Undivided c act) :
    (s.step act).Exact c := by
  cases act with
  | connect c₀ type sizeLimit => exact h.setLink_same fun _ _ => ⟨rfl, by simp⟩
  | create packet content =>
      refine ⟨fun link hlink hlive => ?_, h.original⟩
      exact (h.link link hlink hlive).congr fun p hp =>
        Function.update_of_ne (ne_of_mem_of_not_mem hp (hallowed.2 c link hlink)) _ _
  | send c₀ packet answer =>
      obtain ⟨hnone, link₀, hlink₀, -⟩ := hallowed
      have hstill : (s.sendPacket c₀ packet (s.packets packet).buf answer).broadcast = none := by
        rw [Outgoing.sendPacket, hlink₀]
        exact hnone
      have hexact : Outgoing.Exact c
          { s.sendPacket c₀ packet (s.packets packet).buf answer with broadcast := none } :=
        h.sendPacket hlink₀ (hspares link₀ hlink₀) (fun hc => (hundivided hc.symm).1)
          (fun hc => (hundivided hc.symm).2 link₀ (hc ▸ hlink₀))
          fun b hb => absurd hb (Option.some_ne_none b).symm
      rw [← hstill] at hexact
      exact hexact
  | broadcast type packet receivers =>
      rw [Outgoing.step]
      split_ifs
      · exact h
      · exact ⟨h.link, fun b hb => by
          obtain rfl := Option.some.inj hb
          exact hundivided⟩
  | visit answer =>
      obtain ⟨⟨packet, _, original⟩, c₀, receivers, link₀, hb, rfl, hlink₀, -⟩ := hallowed
      have htrims := hspares packet c₀ receivers original link₀ hb hlink₀
      have horiginal := h.original _ hb
      obtain rfl : (s.packets packet).buf = original := hsound.intact _ hb
      rw [Outgoing.step, Outgoing.visit, hb]
      refine h.sendPacket hlink₀ (fun p rest hp => (htrims p rest hp).1) (fun _ => horiginal) ?_ ?_
      · rintro rfl
        exact hundivided packet receivers _ link₀ hb hlink₀
      · intro b hb'
        split_ifs at hb'
        obtain rfl := Option.some.inj hb'
        exact horiginal
  | writeEvent c₀ =>
      obtain ⟨link₀, hlink₀, -⟩ := hallowed
      rw [Outgoing.step, hlink₀]
      refine h.setLink_same ?_
      rintro rfl hlive
      exact ⟨(h.link link₀ hlink₀ hlive).stream, (h.link link₀ hlink₀ hlive).whole⟩
  | writeTurn c₀ answer =>
      obtain ⟨link₀, hlink₀, -⟩ := hallowed
      have hsame : ∀ p, (∀ rest, turnTrims s.packets link₀.sender answer ≠ some (p, rest)) →
          (TcpConnectionManager.writeTurn s.packets link₀.sender answer).packets p =
            s.packets p :=
        fun p => writeTurn_packets_eq p
      have halone : ∀ p rest, turnTrims s.packets link₀.sender answer = some (p, rest) →
          s.Alone c₀ p rest := fun p rest htrims => (hspares link₀ hlink₀ p rest htrims).1
      rw [Outgoing.step, Outgoing.writeTurn, hlink₀]
      refine h.setLink (Outgoing.Alone.others hsame halone) ?_ h.original
      rintro rfl hlive
      exact Link.Exact.turned (h.link link₀ hlink₀)
        (fun p rest htrims => (halone p rest htrims).1) hlive
  | erase c₀ =>
      obtain ⟨-, link₀, hlink₀⟩ := hallowed
      rw [Outgoing.step, hlink₀]
      exact h.setLink_same fun _ hlive => absurd hlive.1 Bool.true_eq_false.mp

theorem Outgoing.emitted_step {act : SendAct} (hsound : s.Sound) (hallowed : s.Allowed act)
    (hspares : s.Spares act) (hopen : (s.step act).Open c) :
    s.Open c ∧ s.emitted c <+: (s.step act).emitted c := by
  cases hlink : s.links c with
  | none =>
      refine ⟨fun link hlink' => ?_, ?_⟩
      · rw [hlink] at hlink'
        exact absurd hlink' (Option.some_ne_none link).symm
      · rw [Outgoing.emitted, hlink]
        exact List.nil_prefix
  | some link =>
      obtain ⟨link', hlink'⟩ := exists_link_step act hlink
      obtain ⟨hlive, hadvances, -⟩ :=
        follows_step hsound hallowed hspares hlink hlink' (hopen link' hlink')
      refine ⟨fun link'' hlink'' => ?_, ?_⟩
      · obtain rfl := Option.some.inj (hlink.symm.trans hlink'')
        exact hlive
      · rw [Outgoing.emitted, Outgoing.emitted, hlink, hlink']
        exact hadvances.emitted

theorem Outgoing.Exact.stream_eq (h : s.Exact c) (hopen : s.Open c) :
    (∃ contents : List (List UInt8), s.accepted c = contents.map encode ∧
      (∀ content ∈ contents, content.length + 4 < 2 ^ 32) ∧
        s.emitted c ++ s.unsent c = contents.flatMap encode) := by
  have hlists : ∀ blocks : List (List UInt8),
      (∀ block ∈ blocks, ∃ content, block = encode content ∧ content.length + 4 < 2 ^ 32) →
        ∃ contents : List (List UInt8), blocks = contents.map encode ∧
          ∀ content ∈ contents, content.length + 4 < 2 ^ 32 := by
    intro blocks hblocks
    induction blocks with
    | nil => exact ⟨[], rfl, by simp⟩
    | cons block blocks ih =>
        obtain ⟨content, rfl, hsize⟩ := hblocks block (by simp)
        obtain ⟨contents, rfl, hsizes⟩ := ih fun b hb => hblocks b (by simp [hb])
        refine ⟨content :: contents, rfl, fun c hc => ?_⟩
        rcases List.mem_cons.mp hc with rfl | hc
        · exact hsize
        · exact hsizes c hc
  rw [Outgoing.accepted, Outgoing.emitted, Outgoing.unsent]
  cases hlink : s.links c with
  | none => exact ⟨[], rfl, by simp, rfl⟩
  | some link =>
      have hexact := h.link link hlink (hopen link hlink)
      obtain ⟨contents, hcontents, hsizes⟩ := hlists link.accepted hexact.whole
      refine ⟨contents, hcontents, hsizes, ?_⟩
      have hstream := hexact.stream
      rw [hcontents, ← List.flatMap_def] at hstream
      exact hstream

end Sending

namespace Network

variable {owner : Flow → ManagerId} {flow flow' : Flow} {s s' : Network}
  {received contents : List (List UInt8)} {packets : List TcpPacket} {packet : TcpPacket}
  {answer : RecvResult}

/-- The packets of a flow that have been handed out, and those that will be. -/
def Kept (owner : Flow → ManagerId) (flow : Flow) (s : Network) (packets : List TcpPacket) :
    Prop :=
  ∃ items, (s.recvQueues (owner flow)).Holds items ∧
    ((s.taken (owner flow) ++ items).filter (·.1 = flow)).map Prod.snd = packets

/-- What the receiving end has got off a flow: the packets there, and the front of the
next one. -/
structure Follows (owner : Flow → ManagerId) (flow : Flow) (s : Network)
    (received : List (List UInt8)) : Prop where
  kept : s.Kept owner flow (received.map fun content => { buf := encode content })
  sizes : ∀ content ∈ received, content.length + 4 < 2 ^ 32
  count : (s.inflows flow).received ≤ ((s.outgoing flow.1).emitted flow.2).length
  bytes : ((s.outgoing flow.1).emitted flow.2).take (s.inflows flow).received =
    received.flatMap encode ++ (s.inflows flow).reader.pending
  head : (s.inflows flow).reader.recvPacket.Partial
  /-- The loop is only left when no packet is complete. -/
  idle : (s.inflows flow).phase = .waiting → cutPacket (s.inflows flow).reader.pending = none

theorem Kept.congr (h : s.Kept owner flow packets)
    (hqueue : s'.recvQueues (owner flow) = s.recvQueues (owner flow))
    (htaken : s'.taken (owner flow) = s.taken (owner flow)) : s'.Kept owner flow packets := by
  rw [Kept, hqueue, htaken]
  exact h

theorem Kept.push (h : s.Kept owner flow packets)
    (hroom : (s.recvQueues (owner flow)).full = false)
    (hqueue : s'.recvQueues (owner flow) = ((s.recvQueues (owner flow)).push (flow, packet)).2)
    (htaken : s'.taken (owner flow) = s.taken (owner flow)) :
    s'.Kept owner flow (packets ++ [packet]) := by
  obtain ⟨items, hholds, hpackets⟩ := h
  have hlength : items.length < (s.recvQueues (owner flow)).maxSize := by
    refine Nat.lt_of_le_of_ne hholds.fits fun hall => ?_
    rw [hholds.full_iff.mpr hall] at hroom
    exact Bool.true_eq_false.mp hroom
  refine ⟨items ++ [(flow, packet)], ?_, ?_⟩
  · rw [hqueue]
    exact (hholds.push_of_lt hlength _).2
  · rw [htaken, ← List.append_assoc, List.filter_append, List.map_append, hpackets]
    simp

theorem Kept.push_other (h : s.Kept owner flow packets) (hflow : flow' ≠ flow)
    (hqueue : s'.recvQueues = Function.update s.recvQueues (owner flow')
      ((s.recvQueues (owner flow')).push (flow', packet)).2)
    (htaken : s'.taken (owner flow) = s.taken (owner flow)) : s'.Kept owner flow packets := by
  obtain ⟨items, hholds, hpackets⟩ := h
  rcases ne_or_eq (owner flow) (owner flow') with howner | howner
  · refine ⟨items, ?_, by rw [htaken, hpackets]⟩
    rw [hqueue, Function.update_of_ne howner]
    exact hholds
  · rw [← howner] at hqueue
    rcases Nat.lt_or_ge items.length (s.recvQueues (owner flow)).maxSize with hroom | hall
    · refine ⟨items ++ [(flow', packet)], ?_, ?_⟩
      · rw [hqueue, Function.update_self]
        exact (hholds.push_of_lt hroom _).2
      · rw [htaken, ← List.append_assoc, List.filter_append, List.map_append, hpackets]
        simp [hflow]
    · refine ⟨items, ?_, by rw [htaken, hpackets]⟩
      rw [hqueue, Function.update_self,
        hholds.push_of_full (Nat.le_antisymm hholds.fits hall)]
      exact hholds

theorem Kept.getPacket (h : s.Kept owner flow packets) (manager : ManagerId) :
    (s.getPacket manager).Kept owner flow packets := by
  obtain ⟨items, hholds, hpackets⟩ := h
  rw [Network.getPacket]
  split
  · exact ⟨items, hholds, hpackets⟩
  · rename_i item recvQueue hpop
    rcases ne_or_eq (owner flow) manager with howner | rfl
    · exact Kept.congr ⟨items, hholds, hpackets⟩ (Function.update_of_ne howner _ _)
        (Function.update_of_ne howner _ _)
    · cases items with
      | nil =>
          rw [hholds.pop_nil] at hpop
          exact absurd (congrArg Prod.fst hpop) (Option.some_ne_none item).symm
      | cons first items =>
          obtain ⟨hfirst, hrest⟩ := hholds.pop_cons
          rw [hpop] at hfirst hrest
          obtain rfl := Option.some.inj hfirst
          refine ⟨items, ?_, ?_⟩
          · dsimp only
            rw [Function.update_self]
            exact hrest
          · dsimp only
            rw [Function.update_self, List.append_assoc, List.singleton_append, hpackets]

theorem Follows.of_inflow {inflow : Inflow}
    (hkept : s'.Kept owner flow (received.map fun content => { buf := encode content }))
    (hsizes : ∀ content ∈ received, content.length + 4 < 2 ^ 32)
    (hin : s'.inflows flow = inflow)
    (hcount : inflow.received ≤ ((s'.outgoing flow.1).emitted flow.2).length)
    (hbytes : ((s'.outgoing flow.1).emitted flow.2).take inflow.received =
      received.flatMap encode ++ inflow.reader.pending)
    (hhead : inflow.reader.recvPacket.Partial)
    (hidle : inflow.phase = .waiting → cutPacket inflow.reader.pending = none) :
    s'.Follows owner flow received := by
  subst hin
  exact ⟨hkept, hsizes, hcount, hbytes, hhead, hidle⟩

theorem Follows.of_phase (h : s.Follows owner flow received) {phase : Phase}
    (hphase : phase ≠ .waiting) (hout : s'.outgoing = s.outgoing)
    (hin : s'.inflows flow = { s.inflows flow with phase := phase })
    (hkept : s'.Kept owner flow (received.map fun content => { buf := encode content })) :
    s'.Follows owner flow received := by
  refine .of_inflow hkept h.sizes hin ?_ ?_ h.head fun hwaiting => absurd hwaiting hphase
  · rw [hout]
    exact h.count
  · rw [hout]
    exact h.bytes

theorem Follows.emit (h : s.Follows owner flow received)
    (hemitted : (s.outgoing flow.1).emitted flow.2 <+: (s'.outgoing flow.1).emitted flow.2)
    (hin : s'.inflows flow = s.inflows flow)
    (hkept : s'.Kept owner flow (received.map fun content => { buf := encode content })) :
    s'.Follows owner flow received := by
  obtain ⟨more, hmore⟩ := hemitted
  refine .of_inflow hkept h.sizes hin ?_ ?_ h.head h.idle
  · rw [← hmore, List.length_append]
    exact Nat.le_add_right_of_le h.count
  · rw [← hmore, List.take_append_of_le_length h.count]
    exact h.bytes

theorem Follows.congr (h : s.Follows owner flow received)
    (hout : s'.outgoing flow.1 = s.outgoing flow.1) (hin : s'.inflows flow = s.inflows flow)
    (hkept : s'.Kept owner flow (received.map fun content => { buf := encode content })) :
    s'.Follows owner flow received :=
  h.emit (hout ▸ List.prefix_rfl) hin hkept

theorem bytes_segment (d : List UInt8) : (RecvResult.segment d).bytes = d := by
  rw [RecvResult.segment]
  split_ifs with hnone
  · exact hnone.symm
  · rfl

theorem pass_of_offers {r : Reader} (hoffers : r.Offers answer) :
    (∃ d, answer = .segment d ∧ d.length ≤ r.space) ∨ ∃ e, r.pass answer = .error e := by
  cases answer with
  | again => exact Or.inl ⟨[], (if_pos rfl).symm, Nat.zero_le _⟩
  | data bytes =>
      rcases eq_or_ne bytes [] with rfl | hsome
      · have hroom : ¬ (r.recvBuf.writeable 0).1.second = 0 := Nat.ne_of_gt hoffers.1
        refine Or.inr ⟨.readClosedConnection, ?_⟩
        simp only [Reader.pass, BufferedConnection.tryRecv, if_neg hroom, List.take_nil]
        rfl
      · exact Or.inl ⟨bytes, (if_neg hsome).symm, hoffers.2⟩
  | fault =>
      have hroom : ¬ (r.recvBuf.writeable 0).1.second = 0 := Nat.ne_of_gt hoffers
      refine Or.inr ⟨.sysError, ?_⟩
      simp only [Reader.pass, BufferedConnection.tryRecv, if_neg hroom]
      rfl

theorem Follows.take_add {d : List UInt8} (h : s.Follows owner flow received)
    (hwire : d <+: s.wire flow) :
    (s.inflows flow).received + d.length ≤ ((s.outgoing flow.1).emitted flow.2).length ∧
      ((s.outgoing flow.1).emitted flow.2).take ((s.inflows flow).received + d.length) =
        received.flatMap encode ++ ((s.inflows flow).reader.pending ++ d) := by
  obtain ⟨later, hlater⟩ := hwire
  rw [wire] at hlater
  have hlength := congrArg List.length hlater
  rw [List.length_append, List.length_drop] at hlength
  have hcount := h.count
  refine ⟨by omega, ?_⟩
  rw [List.take_add, h.bytes, ← hlater, List.take_left' rfl, List.append_assoc]

theorem Follows.recv_segment {d : List UInt8} (h : s.Follows owner flow received)
    (hsizes : ∀ content ∈ contents, content.length + 4 < 2 ^ 32)
    (hstream : (s.outgoing flow.1).emitted flow.2 ++ (s.outgoing flow.1).unsent flow.2 =
      contents.flatMap encode)
    (hphase : (s.inflows flow).phase = .reading) (hfits : d.length ≤ (s.inflows flow).reader.space)
    (hwire : d <+: s.wire flow) (hroom : s.Roomy owner flow (.segment d)) :
    ∃ received, (s.recv owner flow (.segment d)).Follows owner flow received := by
  obtain ⟨hcount, hbytes⟩ := h.take_add hwire
  rw [← bytes_segment d] at hcount hbytes
  rw [bytes_segment] at hbytes
  cases hcut : cutPacket ((s.inflows flow).reader.pending ++ d) with
  | some cut =>
      obtain ⟨content, rest⟩ := cut
      obtain ⟨recvBuf, -, hreadable, -, hpass⟩ := Reader.pass_of_cut h.head hfits hcut
      obtain ⟨hcontent, hsize⟩ := cutPacket_eq_some.mp hcut
      rw [Network.recv, hpass]
      refine ⟨received ++ [content], .of_inflow ?_ ?_ (Function.update_self ..) hcount ?_
        partial_empty fun hwaiting => ?_⟩
      · rw [List.map_append, List.map_singleton]
        exact h.kept.push (hroom _ _ hpass) (Function.update_self ..) rfl
      · intro c hc
        rcases List.mem_append.mp hc with hbefore | hnew
        · exact h.sizes c hbefore
        · rwa [List.mem_singleton.mp hnew]
      · change _ = _ ++ ([] ++ recvBuf.readable)
        rw [bytes_segment, hbytes, hcontent, hreadable, List.flatMap_append, List.flatMap_singleton,
          List.nil_append, List.append_assoc]
      · rw [hphase] at hwaiting
        exact Phase.noConfusion hwaiting
  | none =>
      have hover : ¬ Oversized ((s.inflows flow).reader.pending ++ d) := by
        rw [bytes_segment] at hcount
        rw [← List.take_append_drop ((s.inflows flow).received + d.length)
          ((s.outgoing flow.1).emitted flow.2), hbytes, List.append_assoc] at hstream
        have hrest := Inlet.not_oversized_rest hsizes hstream
        rwa [Cutter.rest_encoded fun c hc t => cut_encode_append (h.sizes c hc) t,
          Cutter.rest_of_none hcut] at hrest
      obtain ⟨reader, hpass, hpiece, hpending, -⟩ := Reader.pass_of_uncut h.head hfits hcut hover
      rw [Network.recv, hpass]
      refine ⟨received, .of_inflow h.kept h.sizes (Function.update_self ..) hcount ?_ hpiece ?_⟩
      · rw [bytes_segment, hpending]
        exact hbytes
      · rw [hpending]
        exact fun _ => hcut

theorem Follows.recv_other (h : s.Follows owner flow received) (hflow : flow' ≠ flow)
    (answer : RecvResult) : (s.recv owner flow' answer).Follows owner flow received := by
  rw [Network.recv]
  split
  · exact h.congr rfl (Function.update_of_ne hflow.symm _ _) h.kept
  · exact h.congr rfl (Function.update_of_ne hflow.symm _ _) h.kept
  · exact h.congr rfl (Function.update_of_ne hflow.symm _ _) (h.kept.push_other hflow rfl rfl)

theorem Follows.erased (h : s.Follows owner flow received) {e : NetException}
    (hpass : (s.inflows flow).reader.pass answer = .error e) :
    (s.recv owner flow answer).Follows owner flow received := by
  rw [Network.recv, hpass]
  exact h.of_phase Phase.noConfusion rfl (Function.update_self ..) h.kept

theorem Follows.readEvent (h : s.Follows owner flow received) (flow' : Flow) :
    (s.readEvent owner flow').Follows owner flow received := by
  rw [Network.readEvent]
  split_ifs
  · exact h
  · rcases ne_or_eq flow flow' with hflow | rfl
    · exact h.congr rfl (Function.update_of_ne hflow _ _) h.kept
    · exact h.of_phase Phase.noConfusion rfl (Function.update_self ..) h.kept

theorem getPacket_same (s : Network) (manager : ManagerId) :
    (s.getPacket manager).outgoing = s.outgoing ∧ (s.getPacket manager).inflows = s.inflows := by
  rw [Network.getPacket]
  split <;> exact ⟨rfl, rfl⟩

/-- What is kept for one flow, whatever the others do. -/
structure Sound (owner : Flow → ManagerId) (flow : Flow) (s : Network) : Prop where
  outgoing : (s.outgoing flow.1).Sound
  exact : (s.outgoing flow.1).Exact flow.2
  follows : (s.outgoing flow.1).Open flow.2 → ∃ received, s.Follows owner flow received

theorem Sound.of_follows (h : s.Sound owner flow) (hout : s'.outgoing = s.outgoing)
    (hfollows : ∀ received, (s.outgoing flow.1).Open flow.2 → s.Follows owner flow received →
      ∃ received, s'.Follows owner flow received) : s'.Sound owner flow := by
  refine ⟨?_, ?_, fun hopen => ?_⟩
  · rw [hout]
    exact h.outgoing
  · rw [hout]
    exact h.exact
  · rw [hout] at hopen
    obtain ⟨received, hreceived⟩ := h.follows hopen
    exact hfollows received hopen hreceived

theorem Sound.step {act : NetAct} (h : s.Sound owner flow) (hallowed : s.Allowed act)
    (hcareful : s.Careful owner flow act) : (s.step owner act).Sound owner flow := by
  cases act with
  | sending manager act =>
      rw [Network.step]
      rcases ne_or_eq flow.1 manager with hmanager | rfl
      · have hout : Function.update s.outgoing manager ((s.outgoing manager).step act) flow.1 =
            s.outgoing flow.1 := Function.update_of_ne hmanager _ _
        refine ⟨?_, ?_, fun hopen => ?_⟩
        · dsimp only
          rw [hout]
          exact h.outgoing
        · dsimp only
          rw [hout]
          exact h.exact
        · dsimp only at hopen
          rw [hout] at hopen
          obtain ⟨received, hreceived⟩ := h.follows hopen
          exact ⟨received, hreceived.congr hout rfl hreceived.kept⟩
      · obtain ⟨hspares, hundivided⟩ := hcareful rfl
        have hout : Function.update s.outgoing flow.1 ((s.outgoing flow.1).step act) flow.1 =
            (s.outgoing flow.1).step act := Function.update_self ..
        refine ⟨?_, ?_, fun hopen => ?_⟩
        · dsimp only
          rw [hout]
          exact h.outgoing.step hallowed hspares
        · dsimp only
          rw [hout]
          exact h.exact.step h.outgoing hallowed hspares hundivided
        · dsimp only at hopen
          rw [hout] at hopen
          obtain ⟨hbefore, hemitted⟩ :=
            Outgoing.emitted_step h.outgoing hallowed hspares hopen
          obtain ⟨received, hreceived⟩ := h.follows hbefore
          exact ⟨received, hreceived.emit (by dsimp only; rwa [hout]) rfl hreceived.kept⟩
  | readEvent flow' =>
      refine h.of_follows ?_ fun received _ hreceived => ⟨received, hreceived.readEvent flow'⟩
      rw [Network.step, Network.readEvent]
      split_ifs <;> rfl
  | recv flow' answer =>
      refine h.of_follows ?_ fun received hopen hreceived => ?_
      · rw [Network.step, Network.recv]
        split <;> rfl
      · rcases ne_or_eq flow' flow with hflow | rfl
        · exact ⟨received, hreceived.recv_other hflow answer⟩
        · obtain ⟨hphase, hoffers, hwire⟩ := hallowed
          obtain ⟨contents, -, hsizes, hstream⟩ := h.exact.stream_eq hopen
          rcases pass_of_offers hoffers with ⟨d, rfl, hfits⟩ | ⟨e, hthrows⟩
          · rw [bytes_segment] at hwire
            exact hreceived.recv_segment hsizes hstream hphase hfits hwire (hcareful rfl)
          · exact ⟨received, hreceived.erased hthrows⟩
  | getPacket manager =>
      obtain ⟨hout, hin⟩ := getPacket_same s manager
      exact h.of_follows hout fun received _ hreceived =>
        ⟨received, hreceived.congr (congrFun hout _) (congrFun hin flow)
          (hreceived.kept.getPacket manager)⟩

theorem sound_reaches {C : Network → NetAct → Prop}
    (hcareful : ∀ s act, C s act → s.Careful owner flow act) (h : (network owner).Reaches C s) :
    s.Sound owner flow := by
  refine h.invariant ?_ ?_
  · rintro s ⟨hout, hin, hqueues⟩
    obtain ⟨hbroadcast, hlinks⟩ := hout flow.1
    have hnone : ∀ c link, (s.outgoing flow.1).links c ≠ some link := by
      intro c link hlink
      rw [hlinks] at hlink
      exact Option.some_ne_none link hlink.symm
    have hquiet : ∀ b, (s.outgoing flow.1).broadcast ≠ some b := by
      intro b hb
      rw [hbroadcast] at hb
      exact Option.some_ne_none b hb.symm
    refine ⟨⟨fun c link hlink => absurd hlink (hnone c link), fun b hb => absurd hb (hquiet b)⟩,
      ⟨fun link hlink => absurd hlink (hnone _ link), fun b hb => absurd hb (hquiet b)⟩,
      fun _ => ⟨[], ?_⟩⟩
    obtain ⟨sizeLimit, hinflow⟩ := hin flow
    obtain ⟨⟨powArg, hqueue⟩, htaken⟩ := hqueues (owner flow)
    refine .of_inflow ⟨[], ?_, ?_⟩ (by simp) hinflow (Nat.zero_le _) rfl partial_empty
      fun _ => rfl
    · rw [hqueue]
      exact CircularQueue.holds_create powArg
    · rw [htaken]
      rfl
  · intro s act s' hs hallowed hC hstep
    obtain rfl := Except.ok.inj hstep
    exact hs.step hallowed (hcareful s act hC)

/-- What is accepted at the one end of a flow has come out of the queue at the other, waits
there, or is under way. -/
structure Carried (owner : Flow → ManagerId) (flow : Flow) (s : Network)
    (items : List (Flow × TcpPacket)) (underWay : List (List UInt8)) : Prop where
  queue : (s.recvQueues (owner flow)).Holds items
  accepted : (s.outgoing flow.1).accepted flow.2 =
    ((s.taken (owner flow) ++ items).filter (·.1 = flow)).map (·.2.buf) ++ underWay
  bytes : underWay.flatten =
    (s.inflows flow).reader.pending ++ s.wire flow ++ (s.outgoing flow.1).unsent flow.2
  /-- All of it arrives. -/
  arrived : (s.inflows flow).phase = .waiting → s.wire flow = [] →
    (s.outgoing flow.1).unsent flow.2 = [] → underWay = []

theorem Sound.carried (h : s.Sound owner flow) (hopen : (s.outgoing flow.1).Open flow.2) :
    ∃ items underWay, s.Carried owner flow items underWay := by
  obtain ⟨-, hexact, hfollows⟩ := h
  obtain ⟨received, hreceived⟩ := hfollows hopen
  obtain ⟨contents, haccepted, hsizes, hstream⟩ := hexact.stream_eq hopen
  obtain ⟨items, hholds, hkept⟩ := hreceived.kept
  have hencode : ∀ c ∈ received, ∀ t, framing.cut (encode c ++ t) = some (c, t) :=
    fun c hc => cut_encode_append (hreceived.sizes c hc)
  rw [← List.take_append_drop (s.inflows flow).received ((s.outgoing flow.1).emitted flow.2),
    hreceived.bytes] at hstream
  change _ ++ s.wire flow ++ _ = _ at hstream
  rw [List.append_assoc, List.append_assoc] at hstream
  have hcontents := (Inlet.cut_encode hsizes).1
  rw [← hstream, Cutter.frames_encoded hencode] at hcontents
  rw [← hcontents, List.flatMap_append] at hstream
  have hunderWay := List.append_cancel_left hstream
  refine ⟨items, (framing.frames ((s.inflows flow).reader.pending ++
    (s.wire flow ++ (s.outgoing flow.1).unsent flow.2))).map encode, hholds, ?_, ?_, ?_⟩
  · have hbufs := congrArg (List.map TcpPacket.buf) hkept
    rw [List.map_map, List.map_map] at hbufs
    rw [haccepted, ← hcontents, List.map_append]
    exact congrArg (· ++ _) hbufs.symm
  · rw [← List.flatMap_def, ← hunderWay, List.append_assoc]
  · intro hwaiting hwire hunsent
    have hcut := hreceived.idle hwaiting
    rw [hwire, hunsent, List.append_nil, List.append_nil, framing.frames_of_none hcut]
    rfl

/-- As long as a connection is neither erased nor failed, a flow is a queue of packets: what
is accepted comes out in its order, once and as a whole, and nothing else comes out. It
takes a sender that spares what it shares and commits no packet of the flow twice, and a
receiver that has room for each of its packets. -/
theorem carried_of_reaches (h : (network owner).Reaches (fun s => s.Careful owner flow) s)
    (hopen : (s.outgoing flow.1).Open flow.2) :
    ∃ items underWay, s.Carried owner flow items underWay :=
  (sound_reaches (fun _ _ => id) h).carried hopen

/-- A manager that sends to another, and nothing sent yet. -/
def twoManagers : Network where
  outgoing _ := { packets := fun _ => ⟨encode [7], by decide⟩, links := fun _ => none }
  inflows _ := { reader := .create 16 }
  recvQueues _ := .create 2

/-- Two packets go out, and the receiver gets one of them and the front of the other. -/
def oneAndAHalf : List NetAct :=
  [.sending 0 (.connect 0 .publicType 2048), .sending 0 (.send 0 0 (.sent 5)),
    .sending 0 (.send 0 1 (.sent 5)), .readEvent (0, 0),
    .recv (0, 0) (.data [1, 0, 0, 0, 7, 1, 0]), .getPacket 1]

theorem careful_of_send {manager : ManagerId} {c : ConnId} {packet : PacketPtr}
    {answer : SendResult} (flow : Flow)
    (hlink : ((s.outgoing manager).links c).map (fun link =>
      (sendTrims (s.outgoing manager).packets link.sender packet answer,
        decide (answer.Takes (link.sender.sendBuf.readable.length +
          ((s.outgoing manager).packets packet).size)))) = some (none, true))
    (hwhole : ∃ content, ((s.outgoing manager).packets packet).buf = encode content) :
    s.Careful owner flow (.sending manager (.send c packet answer)) := by
  obtain ⟨link, hlink, hfacts⟩ := Option.map_eq_some_iff.mp hlink
  obtain ⟨hnone, htakes⟩ := Prod.mk.inj hfacts
  refine fun _ => ⟨fun link' hlink' p behind htrims => ?_, ?_⟩
  · obtain rfl := Option.some.inj (hlink.symm.trans hlink')
    rw [hnone] at htrims
    exact absurd htrims (Option.some_ne_none _).symm
  · rintro rfl
    refine ⟨hwhole, ?_⟩
    rintro link' hlink' ⟨-, -, -, hbusy⟩
    obtain rfl := Option.some.inj (hlink.symm.trans hlink')
    exact hbusy (of_decide_eq_true htakes)

theorem allowed_of_send {manager : ManagerId} {c : ConnId} (packet : PacketPtr)
    (answer : SendResult) (hnone : (s.outgoing manager).broadcast.isNone = true)
    (hlink : ((s.outgoing manager).links c).map (fun link => (link.erased, link.writing)) =
      some (false, false)) :
    s.Allowed (.sending manager (.send c packet answer)) := by
  obtain ⟨link, hlink, hfacts⟩ := Option.map_eq_some_iff.mp hlink
  obtain ⟨herased, hwriting⟩ := Prod.mk.inj hfacts
  exact ⟨Option.isNone_iff_eq_none.mp hnone, link, hlink, herased, hwriting⟩

theorem open_of_map {o : Outgoing} {c : ConnId}
    (hlink : (o.links c).map (fun link => (link.erased, link.failed)) = some (false, false)) :
    o.Open c := by
  intro link hfound
  rw [hfound] at hlink
  exact Prod.mk.inj (Option.some.inj hlink)

theorem carried_of_oneAndAHalf :
    ∃ items underWay,
      ((network fun _ => 1).after twoManagers oneAndAHalf).Carried (fun _ => 1) (0, 0) items
        underWay := by
  have hinit : (network fun _ => 1).Init twoManagers :=
    ⟨fun _ => ⟨rfl, fun _ => rfl⟩, fun _ => ⟨16, rfl⟩, fun _ => ⟨⟨2, rfl⟩, rfl⟩⟩
  have hfits : (network fun _ => 1).Fits (fun s => s.Careful (fun _ => 1) (0, 0)) twoManagers
      oneAndAHalf := by
    refine ⟨⟨rfl, rfl, by decide⟩, fun _ => ⟨trivial, trivial⟩, ?_⟩
    refine ⟨allowed_of_send 0 (.sent 5) rfl (by decide +kernel),
      careful_of_send (0, 0) (by decide +kernel) ⟨[7], rfl⟩, ?_⟩
    refine ⟨allowed_of_send 1 (.sent 5) (by decide +kernel) (by decide +kernel),
      careful_of_send (0, 0) (by decide +kernel) ⟨[7], by decide +kernel⟩, ?_⟩
    refine ⟨rfl, trivial, ?_⟩
    refine ⟨⟨by decide +kernel, by decide +kernel, by decide +kernel⟩,
      fun _ _ _ _ => by decide +kernel, ?_⟩
    exact ⟨trivial, trivial, trivial⟩
  exact carried_of_reaches (.after (.init hinit) hfits) (open_of_map (by decide +kernel))

end Network

end CasualGame.Net
