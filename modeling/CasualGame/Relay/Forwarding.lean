import CasualGame.Net.Network
import CasualGame.Relay.Routing

/-!
The router among the managers: what it takes from its queue it passes on, one packet after
the other.
-/

namespace CasualGame.Relay

open Lib.Run
open Net

/-- What `dealTcpPackets` of the router is at. -/
inductive Handling
  | idle
  | taken (item : Flow × TcpPacket)
  /-- `broadcastPacketToPrivate` goes through the connections. -/
  | broadcasting (item : Flow × TcpPacket)
  deriving DecidableEq

structure Forwarding where
  network : Network
  handling : Handling := .idle

/-- All that is not done by the main thread of the router, and what is. A packet that is
passed on has the pointer `packet`. -/
inductive ForwardAct
  | others (act : NetAct)
  | getPacket
  | dropped
  | sendPacketToPrivate (c : ConnId) (packet : PacketPtr) (content : Packet) (answer : SendResult)
  | broadcastPacketToPrivate (packet : PacketPtr) (content : Packet) (receivers : List ConnId)
  | visit (answer : SendResult)
  | done

/-- What other threads of a process do to its connections. -/
def Quiet : SendAct → Prop
  | .connect _ _ _ | .create _ _ | .writeEvent _ | .writeTurn _ _ | .erase _ => True
  | .send _ _ _ | .broadcast _ _ _ | .visit _ => False

section Code

variable (owner : Flow → ManagerId) (router : ManagerId)

/-- It is not the main thread of the router that does it. -/
def ByOthers : NetAct → Prop
  | .sending manager act => manager = router → Quiet act
  | .getPacket manager => manager ≠ router
  | .readEvent _ | .recv _ _ => True

namespace Forwarding

variable (s : Forwarding)

/-- The type that the packet at hand is broadcast to. -/
def processType : Nat :=
  match s.handling with
  | .taken item =>
      match Router.tcpPacketHandle item.2 with
      | some (.broadcastPacketToPrivate processType) => processType.toNat
      | _ => 0
  | _ => 0

def netActs : ForwardAct → List NetAct
  | .others act => [act]
  | .getPacket => [.getPacket router]
  | .dropped => []
  | .sendPacketToPrivate c packet content answer =>
      [.sending router (.create packet content), .sending router (.send c packet answer)]
  | .broadcastPacketToPrivate packet content receivers =>
      [.sending router (.create packet content),
        .sending router (.broadcast (.privateType s.processType) packet receivers)]
  | .visit answer => [.sending router (.visit answer)]
  | .done => []

/-- What comes next, after the packet has been passed on or given up. -/
def next : ForwardAct → Handling
  | .others _ => s.handling
  | .getPacket =>
      match (s.network.recvQueues router).pop with
      | (some item, _) => .taken item
      | (none, _) => .idle
  | .dropped => .idle
  | .sendPacketToPrivate _ _ _ _ => .idle
  | .broadcastPacketToPrivate _ _ _ =>
      match s.handling with
      | .taken item => .broadcasting item
      | handling => handling
  | .visit _ => s.handling
  | .done => .idle

def step (act : ForwardAct) : Forwarding where
  network := (Net.network owner).after s.network (s.netActs router act)
  handling := s.next router act

variable (peer : ConnId → ProcessId)

/-- `peer` is the process that a connection of the router is registered for. -/
def InTurn : ForwardAct → Prop
  | .others act => ByOthers router act
  | .getPacket => s.handling = .idle
  | .dropped => ∃ item, s.handling = .taken item
  | .sendPacketToPrivate c _ content _ => ∃ item, s.handling = .taken item ∧
      content.buf = item.2.buf ∧
        Router.tcpPacketHandle item.2 = some (.sendPacketToPrivate (peer c))
  | .broadcastPacketToPrivate _ content receivers => ∃ item processType,
      s.handling = .taken item ∧ content.buf = item.2.buf ∧
        Router.tcpPacketHandle item.2 = some (.broadcastPacketToPrivate processType) ∧
          ∀ c ∈ receivers, (peer c).type = processType
  | .visit _ => ∃ item, s.handling = .broadcasting item
  | .done => (∃ item, s.handling = .broadcasting item) ∧
      (s.network.outgoing router).broadcast = none

def Allowed (act : ForwardAct) : Prop :=
  s.InTurn router peer act ∧
    (Net.network owner).Fits (fun _ _ => True) s.network (s.netActs router act)

/-- What the two flows need that go through the router. -/
def Careful (flow : Flow) (c : ConnId) (act : ForwardAct) : Prop :=
  (Net.network owner).Fits
    (fun network act => network.Careful owner flow act ∧ network.Careful owner (router, c) act)
    s.network (s.netActs router act)

end Forwarding

def forwarding (peer : ConnId → ProcessId) : System Forwarding ForwardAct Empty where
  Init s := (Net.network owner).Init s.network ∧ s.handling = .idle
  Allowed s act := s.Allowed owner router peer act
  step s act := .ok (s.step owner router act)

end Code

/-- A packet is for a process, or for all of its type. -/
def AddressedTo (packet : TcpPacket) (pid : ProcessId) : Prop :=
  Router.tcpPacketHandle packet = some (.sendPacketToPrivate pid) ∨
    Router.tcpPacketHandle packet = some (.broadcastPacketToPrivate pid.type)

section Accepting

variable {s : Outgoing} {c c₀ : ConnId} {link : Link}

theorem accepted_setLink (s : Outgoing) (c₀ : ConnId) (link : Link) (c : ConnId) :
    (s.setLink c₀ link).accepted c = if c = c₀ then link.accepted else s.accepted c := by
  change (Function.update s.links c₀ (some link) c).elim [] Link.accepted = _
  rw [Function.update_apply]
  split_ifs <;> rfl

theorem accepted_of_link (hlink : s.links c = some link) : s.accepted c = link.accepted := by
  rw [Outgoing.accepted, hlink]
  rfl

theorem accepted_setLink_same (hlink : s.links c₀ = some link) {link' : Link}
    (hsame : link'.accepted = link.accepted) (c : ConnId) :
    (s.setLink c₀ link').accepted c = s.accepted c := by
  rw [accepted_setLink]
  split_ifs with hc
  · rw [hc, accepted_of_link hlink, hsame]
  · rfl

theorem accepted_of_quiet {act : SendAct} (hquiet : Quiet act) (hallowed : s.Allowed act) :
    (s.step act).accepted c = s.accepted c ∧ (s.step act).broadcast = s.broadcast := by
  cases act with
  | connect c₀ type sizeLimit =>
      refine ⟨?_, rfl⟩
      rw [Outgoing.step, accepted_setLink]
      split_ifs with hc
      · rw [hc, Outgoing.accepted, hallowed.2.1]
        rfl
      · rfl
  | create packet content => exact ⟨rfl, rfl⟩
  | writeEvent c₀ =>
      obtain ⟨link, hlink, -⟩ := hallowed
      rw [Outgoing.step, hlink]
      refine ⟨?_, rfl⟩
      apply accepted_setLink_same hlink
      rfl
  | writeTurn c₀ answer =>
      obtain ⟨link, hlink, -⟩ := hallowed
      rw [Outgoing.step, Outgoing.writeTurn, hlink]
      refine ⟨accepted_setLink_same hlink ?_ c, rfl⟩
      rw [Link.turned]
      split <;> rfl
  | erase c₀ =>
      obtain ⟨-, link, hlink⟩ := hallowed
      rw [Outgoing.step, hlink]
      refine ⟨?_, rfl⟩
      apply accepted_setLink_same hlink
      rfl
  | _ => exact hquiet.elim

theorem accepted_sendPacket (s : Outgoing) (c₀ : ConnId) (packet : PacketPtr)
    (original : List UInt8) (answer : SendResult) (c : ConnId) :
    (s.sendPacket c₀ packet original answer).accepted c = s.accepted c ∨
      c = c₀ ∧
        (s.sendPacket c₀ packet original answer).accepted c = s.accepted c ++ [original] := by
  rw [Outgoing.sendPacket]
  cases hlink : s.links c₀ with
  | none => exact Or.inl rfl
  | some link =>
      dsimp only
      rw [accepted_setLink]
      split_ifs with hc
      · rw [hc, accepted_of_link hlink, Link.handed]
        split
        · exact Or.inr ⟨rfl, rfl⟩
        · exact Or.inl rfl
        · exact Or.inl rfl
      · exact Or.inl rfl

end Accepting

/-- Some of the packets of a list, in their order, are what a connection has accepted. -/
def Passed (pid : ProcessId) (items : List (Flow × TcpPacket)) (accepted : List (List UInt8)) :
    Prop :=
  ∃ relayed : List (Flow × TcpPacket), relayed.Sublist items ∧
    (∀ item ∈ relayed, AddressedTo item.2 pid) ∧ relayed.map (·.2.buf) = accepted

/-- What a connection of the router has accepted is some of what the router has taken from
its queue, up to the packet at hand. -/
def InOrder (pid : ProcessId) (c : ConnId) (taken : List (Flow × TcpPacket))
    (outgoing : Outgoing) : Handling → Prop
  | .idle => Passed pid taken (outgoing.accepted c)
  | .taken item => ∃ items, taken = items ++ [item] ∧ Passed pid items (outgoing.accepted c)
  | .broadcasting item => ∃ items, taken = items ++ [item] ∧
      ((∃ b, outgoing.broadcast = some b ∧ c ∈ b.receivers ∧ b.receivers.Nodup ∧
          b.original = item.2.buf ∧ AddressedTo item.2 pid ∧
            Passed pid items (outgoing.accepted c)) ∨
        ((∀ b, outgoing.broadcast = some b → c ∉ b.receivers) ∧
          Passed pid (items ++ [item]) (outgoing.accepted c)))

section Passing

variable {pid : ProcessId} {c c₀ : ConnId} {items taken : List (Flow × TcpPacket)}
  {accepted : List (List UInt8)} {item : Flow × TcpPacket} {o o' : Outgoing} {handling : Handling}
  {packet : PacketPtr} {answer : SendResult}

theorem Passed.skip (h : Passed pid items accepted) (item : Flow × TcpPacket) :
    Passed pid (items ++ [item]) accepted := by
  obtain ⟨relayed, hsublist, haddressed, hbufs⟩ := h
  exact ⟨relayed, hsublist.trans (List.sublist_append_left _ _), haddressed, hbufs⟩

theorem Passed.concat (h : Passed pid items accepted) (hitem : AddressedTo item.2 pid) :
    Passed pid (items ++ [item]) (accepted ++ [item.2.buf]) := by
  obtain ⟨relayed, hsublist, haddressed, hbufs⟩ := h
  refine ⟨relayed ++ [item], hsublist.append (List.Sublist.refl _), fun item' hitem' => ?_, ?_⟩
  · rcases List.mem_append.mp hitem' with hbefore | hlast
    · exact haddressed item' hbefore
    · rwa [List.mem_singleton.mp hlast]
  · rw [List.map_append, hbufs, List.map_singleton]

theorem Passed.sendPacket (h : Passed pid items (o.accepted c))
    (hitem : c = c₀ → AddressedTo item.2 pid) :
    Passed pid (items ++ [item]) ((o.sendPacket c₀ packet item.2.buf answer).accepted c) := by
  rcases accepted_sendPacket o c₀ packet item.2.buf answer c with hsame | ⟨hc, hmore⟩
  · rw [hsame]
    exact h.skip item
  · rw [hmore]
    exact h.concat (hitem hc)

theorem InOrder.congr (h : InOrder pid c taken o handling)
    (haccepted : o'.accepted c = o.accepted c) (hbroadcast : o'.broadcast = o.broadcast) :
    InOrder pid c taken o' handling := by
  cases handling with
  | idle =>
      rw [InOrder, haccepted]
      exact h
  | taken item =>
      rw [InOrder, haccepted]
      exact h
  | broadcasting item =>
      rw [InOrder, haccepted, hbroadcast]
      exact h

theorem InOrder.getPacket (h : InOrder pid c taken o .idle) (item : Flow × TcpPacket) :
    InOrder pid c (taken ++ [item]) o (.taken item) :=
  ⟨taken, rfl, h⟩

theorem InOrder.dropped (h : InOrder pid c taken o (.taken item)) :
    InOrder pid c taken o .idle := by
  obtain ⟨items, rfl, hpassed⟩ := h
  exact hpassed.skip item

theorem InOrder.send (h : InOrder pid c taken o (.taken item))
    (hitem : c = c₀ → AddressedTo item.2 pid) :
    InOrder pid c taken (o.sendPacket c₀ packet item.2.buf answer) .idle := by
  obtain ⟨items, rfl, hpassed⟩ := h
  exact hpassed.sendPacket hitem

theorem InOrder.broadcast (h : InOrder pid c taken o (.taken item)) (type : Net.ConnType)
    {receivers : List ConnId} (hnone : o.broadcast = none) (hnodup : receivers.Nodup)
    (horiginal : (o.packets packet).buf = item.2.buf)
    (hitem : c ∈ receivers → AddressedTo item.2 pid) :
    InOrder pid c taken (o.step (.broadcast type packet receivers)) (.broadcasting item) := by
  obtain ⟨items, rfl, hpassed⟩ := h
  refine ⟨items, rfl, ?_⟩
  rw [Outgoing.step]
  split_ifs with hempty
  · refine Or.inr ⟨fun b hb => ?_, hpassed.skip item⟩
    rw [hnone] at hb
    exact absurd hb (Option.some_ne_none b).symm
  · rcases Classical.em (c ∈ receivers) with hmem | hnot
    · exact Or.inl ⟨_, rfl, hmem, hnodup, horiginal, hitem hmem, hpassed⟩
    · refine Or.inr ⟨fun b hb => ?_, hpassed.skip item⟩
      rw [← Option.some.inj hb]
      exact hnot

theorem InOrder.visit (h : InOrder pid c taken o (.broadcasting item))
    (hallowed : o.Allowed (.visit answer)) :
    InOrder pid c taken (o.step (.visit answer)) (.broadcasting item) := by
  obtain ⟨items, rfl, hitems⟩ := h
  obtain ⟨⟨packet, _, original⟩, c₀, receivers, link, hb, rfl, hlink, -⟩ := hallowed
  have haccepted : (o.step (.visit answer)).accepted c =
      (o.sendPacket c₀ packet original answer).accepted c := by
    rw [Outgoing.step, Outgoing.visit, hb]
    rfl
  have hrest : ∀ b, (o.step (.visit answer)).broadcast = some b →
      receivers ≠ [] ∧ b = ⟨packet, receivers, original⟩ := by
    intro b hb'
    rw [Outgoing.step, Outgoing.visit, hb] at hb'
    dsimp only at hb'
    split_ifs at hb' with hlast
    exact ⟨hlast, (Option.some.inj hb').symm⟩
  refine ⟨items, rfl, ?_⟩
  rw [haccepted]
  rcases hitems with ⟨b, hb', hmem, hnodup, horiginal, hitem, hpassed⟩ | ⟨hout, hpassed⟩
  · obtain rfl := Option.some.inj (hb.symm.trans hb')
    obtain ⟨hfirst, hnodup⟩ := List.nodup_cons.mp hnodup
    dsimp only at horiginal
    rw [horiginal]
    rcases eq_or_ne c c₀ with rfl | hc
    · refine Or.inr ⟨fun b hb' => ?_, hpassed.sendPacket fun _ => hitem⟩
      rw [(hrest b hb').2]
      exact hfirst
    · have hlater : c ∈ receivers := (List.mem_cons.mp hmem).resolve_left hc
      refine Or.inl ⟨⟨packet, receivers, original⟩, ?_, hlater, hnodup, horiginal, hitem, ?_⟩
      · rw [Outgoing.step, Outgoing.visit, hb]
        exact if_neg (List.ne_nil_of_mem hlater)
      · rcases accepted_sendPacket o c₀ packet item.2.buf answer c with hsame | ⟨hsame, -⟩
        · rwa [hsame]
        · exact absurd hsame hc
  · have hnot := hout _ hb
    rw [List.mem_cons, not_or] at hnot
    refine Or.inr ⟨fun b hb' => ?_, ?_⟩
    · rw [(hrest b hb').2]
      exact hnot.2
    · rcases accepted_sendPacket o c₀ packet original answer c with hsame | ⟨hsame, -⟩
      · rwa [hsame]
      · exact absurd hsame hnot.1

theorem InOrder.done (h : InOrder pid c taken o (.broadcasting item)) (hnone : o.broadcast = none) :
    InOrder pid c taken o .idle := by
  obtain ⟨items, rfl, hitems⟩ := h
  rcases hitems with ⟨b, hb, -⟩ | ⟨-, hpassed⟩
  · rw [hnone] at hb
    exact absurd hb (Option.some_ne_none b).symm
  · exact hpassed

end Passing

namespace Forwarding

variable {owner : Flow → ManagerId} {router : ManagerId} {peer : ConnId → ProcessId}
  {c : ConnId} {s s' : Forwarding} {n : Network}

theorem outgoing_sending (owner : Flow → ManagerId) (router : ManagerId) (n : Network)
    (act : SendAct) :
    (n.step owner (.sending router act)).outgoing router = (n.outgoing router).step act :=
  Function.update_self ..

theorem after_sending (owner : Flow → ManagerId) (router : ManagerId) (n : Network)
    (acts : List SendAct) :
    ((Net.network owner).after n (acts.map (.sending router))).outgoing router =
        acts.foldl Outgoing.step (n.outgoing router) ∧
      ((Net.network owner).after n (acts.map (.sending router))).taken = n.taken := by
  induction acts generalizing n with
  | nil => exact ⟨rfl, rfl⟩
  | cons act acts ih =>
      obtain ⟨hout, htaken⟩ := ih (n.step owner (.sending router act))
      rw [outgoing_sending] at hout
      exact ⟨hout, htaken⟩

theorem step_of_others {act : NetAct} (hothers : ByOthers router act) (hallowed : n.Allowed act) :
    (n.step owner act).taken router = n.taken router ∧
      ((n.step owner act).outgoing router).accepted c = (n.outgoing router).accepted c ∧
        ((n.step owner act).outgoing router).broadcast = (n.outgoing router).broadcast := by
  cases act with
  | sending manager act =>
      rcases ne_or_eq router manager with hmanager | rfl
      · have hout : (n.step owner (.sending manager act)).outgoing router = n.outgoing router :=
          Function.update_of_ne hmanager _ _
        rw [hout]
        exact ⟨rfl, rfl, rfl⟩
      · rw [outgoing_sending]
        exact ⟨rfl, accepted_of_quiet (hothers rfl) hallowed⟩
  | readEvent flow =>
      rw [Network.step, Network.readEvent]
      split_ifs <;> exact ⟨rfl, rfl, rfl⟩
  | recv flow answer =>
      rw [Network.step, Network.recv]
      split <;> exact ⟨rfl, rfl, rfl⟩
  | getPacket manager =>
      rw [Network.step, Network.getPacket]
      split
      · exact ⟨rfl, rfl, rfl⟩
      · exact ⟨Function.update_of_ne (Ne.symm hothers) _ _, rfl, rfl⟩

/-- Between any two steps, whatever the packet at hand. -/
def Sound (router : ManagerId) (peer : ConnId → ProcessId) (c : ConnId) (s : Forwarding) : Prop :=
  InOrder (peer c) c (s.network.taken router) (s.network.outgoing router) s.handling

theorem sound_of_sending (owner : Flow → ManagerId) (acts : List SendAct) {handling : Handling}
    (h : InOrder (peer c) c (s.network.taken router)
      (acts.foldl Outgoing.step (s.network.outgoing router)) handling) :
    Sound router peer c
      ⟨(Net.network owner).after s.network (acts.map (.sending router)), handling⟩ := by
  obtain ⟨hout, htaken⟩ := after_sending owner router s.network acts
  rw [Sound, hout, htaken]
  exact h

theorem Sound.step {act : ForwardAct} (h : s.Sound router peer c)
    (hallowed : s.Allowed owner router peer act) :
    (s.step owner router act).Sound router peer c := by
  obtain ⟨hturn, hfits⟩ := hallowed
  cases act with
  | others act =>
      obtain ⟨htaken, haccepted, hbroadcast⟩ := step_of_others (c := c) hturn hfits.1
      have hsame := h.congr haccepted hbroadcast
      rw [← htaken] at hsame
      exact hsame
  | getPacket =>
      rw [Sound, hturn] at h
      change InOrder _ c ((s.network.getPacket router).taken router)
        ((s.network.getPacket router).outgoing router) (s.next router .getPacket)
      rw [next, Network.getPacket]
      cases (s.network.recvQueues router).pop with
      | mk popped recvQueue =>
          cases popped with
          | none => exact h
          | some item =>
              dsimp only
              rw [Function.update_self]
              exact h.getPacket item
  | dropped =>
      obtain ⟨item, hitem⟩ := hturn
      rw [Sound, hitem] at h
      exact h.dropped
  | sendPacketToPrivate c₀ packet content answer =>
      obtain ⟨item, hitem, hcontent, hrouted⟩ := hturn
      rw [Sound, hitem] at h
      have hcreated : InOrder (peer c) c (s.network.taken router)
          ((s.network.outgoing router).step (.create packet content)) (.taken item) :=
        h.congr rfl rfl
      refine sound_of_sending owner [.create packet content, .send c₀ packet answer] ?_
      change InOrder _ c _ (Outgoing.sendPacket _ c₀ packet
        (Function.update (s.network.outgoing router).packets packet content packet).buf answer) _
      rw [Function.update_self, hcontent]
      exact hcreated.send fun hc => Or.inl (hc ▸ hrouted)
  | broadcastPacketToPrivate packet content receivers =>
      obtain ⟨item, processType, hitem, hcontent, hrouted, hreceivers⟩ := hturn
      obtain ⟨-, -, ⟨hnone, hnodup, -⟩, -⟩ := hfits
      rw [Sound, hitem] at h
      have hnext : s.next router (.broadcastPacketToPrivate packet content receivers) =
          .broadcasting item := by
        rw [next, hitem]
      have hcreated : InOrder (peer c) c (s.network.taken router)
          ((s.network.outgoing router).step (.create packet content)) (.taken item) :=
        h.congr rfl rfl
      rw [Forwarding.step, hnext]
      refine sound_of_sending owner
        [.create packet content, .broadcast (.privateType s.processType) packet receivers] ?_
      refine hcreated.broadcast (.privateType s.processType) ?_ hnodup ?_ fun hc => Or.inr ?_
      · rw [outgoing_sending] at hnone
        exact hnone
      · rw [← hcontent]
        exact congrArg Packet.buf (Function.update_self ..)
      · rw [hreceivers c hc]
        exact hrouted
  | visit answer =>
      obtain ⟨item, hitem⟩ := hturn
      rw [Sound, hitem] at h
      rw [Forwarding.step, next, hitem]
      exact sound_of_sending owner [.visit answer] (h.visit hfits.1)
  | done =>
      obtain ⟨⟨item, hitem⟩, hnone⟩ := hturn
      rw [Sound, hitem] at h
      exact h.done hnone

theorem sound_of_reaches {C : Forwarding → ForwardAct → Prop}
    (h : (forwarding owner router peer).Reaches C s) : s.Sound router peer c := by
  refine h.invariant ?_ ?_
  · rintro s ⟨⟨hout, -, hqueues⟩, hidle⟩
    rw [Sound, hidle, (hqueues router).2]
    refine ⟨[], List.Sublist.refl [], by simp, ?_⟩
    rw [Outgoing.accepted, (hout router).2]
    rfl
  · intro s act s' hs hallowed _ hstep
    obtain rfl := Except.ok.inj hstep
    exact hs.step hallowed

theorem Sound.exists_relayed (h : s.Sound router peer c) :
    Passed (peer c) (s.network.taken router) ((s.network.outgoing router).accepted c) := by
  rw [Sound] at h
  cases hhandling : s.handling with
  | idle =>
      rw [hhandling] at h
      exact h
  | taken item =>
      rw [hhandling] at h
      exact h.dropped
  | broadcasting item =>
      rw [hhandling] at h
      obtain ⟨items, htaken, ⟨-, -, -, -, -, -, hpassed⟩ | ⟨-, hpassed⟩⟩ := h
      · rw [htaken]
        exact hpassed.skip item
      · rw [htaken]
        exact hpassed

/-- The run of the network in which all this happens. -/
theorem network_of_reaches {flow : Flow}
    (h : (forwarding owner router peer).Reaches (fun s => s.Careful owner router flow c) s) :
    (Net.network owner).Reaches (fun n act => n.Careful owner flow act ∧
      n.Careful owner (router, c) act) s.network := by
  induction h with
  | init hs => exact .init hs.1
  | step _ hallowed hcareful hstep ih =>
      obtain rfl := Except.ok.inj hstep
      exact ih.after hcareful

/-- What a process gets by way of the router: it is for this process, and comes in the order in
which the router has taken it. What comes from one sender comes in the order of the sender, each
packet once at the most and as it was. -/
structure Forwards (owner : Flow → ManagerId) (router : ManagerId) (peer : ConnId → ProcessId)
    (flow : Flow) (c : ConnId) (s : Forwarding) (items relayed : List (Flow × TcpPacket))
    (underWay : List (List UInt8)) : Prop where
  carried : s.network.Carried owner (router, c) items underWay
  arrived : (((s.network.taken (owner (router, c)) ++ items).filter (·.1 = (router, c))).map
    (·.2.buf)) ++ underWay = relayed.map (·.2.buf)
  addressed : ∀ item ∈ relayed, AddressedTo item.2 (peer c)
  inOrder : relayed.Sublist (s.network.taken router)
  fromSender : ((relayed.filter (·.1 = flow)).map (·.2.buf)).Sublist
    ((s.network.outgoing flow.1).accepted flow.2)

/-- The router keeps the order of what it passes on. -/
theorem forwards_of_reaches {flow : Flow} (hflow : owner flow = router)
    (h : (forwarding owner router peer).Reaches (fun s => s.Careful owner router flow c) s)
    (hin : (s.network.outgoing flow.1).Open flow.2)
    (hout : (s.network.outgoing router).Open c) :
    ∃ items relayed underWay, Forwards owner router peer flow c s items relayed underWay := by
  have hnetwork := network_of_reaches h
  obtain ⟨relayed, hinOrder, haddressed, hrelayed⟩ :=
    (sound_of_reaches h).exists_relayed
  obtain ⟨items, underWay, hcarried⟩ :=
    (Network.sound_reaches (fun _ _ hboth => hboth.2) hnetwork).carried hout
  obtain ⟨items', underWay', hsender⟩ :=
    (Network.sound_reaches (fun _ _ hboth => hboth.1) hnetwork).carried hin
  refine ⟨items, relayed, underWay, hcarried, ?_, haddressed, hinOrder, ?_⟩
  · rw [hrelayed]
    exact hcarried.accepted.symm
  · rw [hsender.accepted, hflow, List.filter_append, List.map_append, List.append_assoc]
    exact ((hinOrder.filter _).map _).trans (List.sublist_append_left _ _)

/-- A message for the second process, by way of the first. -/
def message : TcpPacket :=
  envelopePacket { targetPid := ProcessId.value ⟨2, 1⟩, sourceId := 7, msg := ⟨16, [8, 3]⟩ }

def messageContent : Packet := ⟨message.buf, by decide⟩

/-- Each manager has its connections to the next. -/
def threeManagers : Network where
  outgoing _ := { packets := fun _ => messageContent, links := fun _ => none }
  inflows _ := { reader := .create 64 }
  recvQueues _ := .create 2

def passedOn : List ForwardAct :=
  [.others (.sending 0 (.connect 0 (.privateType 1) 2048)),
    .others (.sending 1 (.connect 0 (.privateType 2) 2048)),
    .others (.sending 0 (.send 0 0 (.sent 26))), .others (.readEvent (0, 0)),
    .others (.recv (0, 0) (.data message.buf)), .getPacket,
    .sendPacketToPrivate 0 1 messageContent (.sent 26)]

theorem forwards_of_passedOn :
    ∃ items relayed underWay,
      Forwards (·.1 + 1) 1 (fun _ => ⟨2, 1⟩) (0, 0) 0
        ((forwarding (·.1 + 1) 1 fun _ => ⟨2, 1⟩).after { network := threeManagers } passedOn)
        items relayed underWay := by
  have hinit : (forwarding (·.1 + 1) 1 fun _ => ⟨2, 1⟩).Init { network := threeManagers } :=
    ⟨⟨fun _ => ⟨rfl, fun _ => rfl⟩, fun _ => ⟨64, rfl⟩, fun _ => ⟨⟨2, rfl⟩, rfl⟩⟩, rfl⟩
  have hwhole : ∃ content, message.buf = TcpPacket.encode content := ⟨_, rfl⟩
  have hconnect : ∀ n : Network, ∀ flow manager type,
      n.Careful (·.1 + 1) flow (.sending manager (.connect 0 type 2048)) :=
    fun _ _ _ _ _ => ⟨trivial, trivial⟩
  have hfits : (forwarding (·.1 + 1) 1 fun _ => ⟨2, 1⟩).Fits
      (fun s => s.Careful (·.1 + 1) 1 (0, 0) 0) { network := threeManagers } passedOn := by
    refine ⟨⟨fun _ => trivial, ⟨rfl, rfl, by decide⟩, trivial, trivial⟩,
      ⟨⟨rfl, rfl, by decide⟩, ⟨hconnect _ _ _ _, hconnect _ _ _ _⟩, trivial⟩, ?_⟩
    refine ⟨⟨fun _ => trivial, ⟨rfl, rfl, by decide⟩, trivial, trivial⟩,
      ⟨⟨rfl, rfl, by decide⟩, ⟨hconnect _ _ _ _, hconnect _ _ _ _⟩, trivial⟩, ?_⟩
    have hsent : ∀ {n : Network} {manager}, (n.outgoing manager).broadcast.isNone = true →
        ((n.outgoing manager).links 0).map (fun link => (link.erased, link.writing)) =
          some (false, false) → n.Allowed (.sending manager (.send 0 manager (.sent 26))) :=
      Network.allowed_of_send _ _
    refine ⟨⟨fun hrouter => absurd hrouter (by decide),
        hsent rfl (by decide +kernel), trivial, trivial⟩,
      ⟨hsent rfl (by decide +kernel), ⟨Network.careful_of_send _ (by decide +kernel) hwhole,
        Network.careful_of_send _ (by decide +kernel) hwhole⟩, trivial⟩, ?_⟩
    refine ⟨⟨trivial, rfl, trivial, trivial⟩, ⟨rfl, ⟨trivial, trivial⟩, trivial⟩, ?_⟩
    have hreceived : ∀ {n : Network},
        ((n.inflows (0, 0)).phase = .reading ∧
          (n.inflows (0, 0)).reader.Offers (.data message.buf) ∧
            message.buf.isPrefixOf (n.wire (0, 0)) = true) →
          n.Allowed (.recv (0, 0) (.data message.buf)) :=
      fun h => ⟨h.1, h.2.1, List.isPrefixOf_iff_prefix.mp h.2.2⟩
    refine ⟨⟨trivial, hreceived (by decide +kernel), trivial, trivial⟩,
      ⟨hreceived (by decide +kernel), ⟨fun _ _ _ _ => by decide +kernel,
        fun _ _ _ _ => by decide +kernel⟩, trivial⟩, ?_⟩
    refine ⟨⟨rfl, trivial, trivial, trivial⟩, ⟨trivial, ⟨trivial, trivial⟩, trivial⟩, ?_⟩
    have hcreated : ∀ {o : Outgoing} {link₀ : Link},
        o.links = Function.update (fun _ => none) 0 (some link₀) →
          link₀.sender.sendQueue = [] → o.broadcast = none →
            o.Allowed (.create 1 messageContent) := by
      intro o link₀ hlinks hqueue hnone
      refine ⟨fun b hb => ?_, fun c link hlink => ?_⟩
      · rw [hnone] at hb
        exact absurd hb (Option.some_ne_none b).symm
      · rw [hlinks, Function.update_apply] at hlink
        split_ifs at hlink
        rw [← Option.some.inj hlink, hqueue]
        exact List.not_mem_nil
    refine ⟨⟨⟨((0, 0), message), by decide +kernel, rfl, by decide +kernel⟩,
        hcreated rfl rfl rfl, trivial, hsent (by decide +kernel) (by decide +kernel), trivial,
        trivial⟩,
      ⟨hcreated rfl rfl rfl, ⟨fun _ => ⟨trivial, trivial⟩, fun _ => ⟨trivial, trivial⟩⟩,
        hsent (by decide +kernel) (by decide +kernel),
        ⟨Network.careful_of_send _ (by decide +kernel) hwhole,
          Network.careful_of_send _ (by decide +kernel) hwhole⟩, trivial⟩, trivial⟩
  exact forwards_of_reaches rfl (.after (.init hinit) hfits)
    (Network.open_of_map (by decide +kernel)) (Network.open_of_map (by decide +kernel))

end Forwarding

end CasualGame.Relay
