import CasualGame.Base.TcpConnectionManager
import CasualGame.Sessions.LoginProtocol

/-!
The clients of a gateway and its connections: a new one comes in, one breaks, and the lobby
has one kicked out, in any order. The ids are taken to be distinct. What comes into
`m_dyingClients` is only dropped again by `timerExec`, and both are left out.
-/

namespace CasualGame.Sessions

open Base
open Lobby (Ccid PrivateMsg)
open Lib.Run

/-- How far the thread that accepts connections has got: the client is there and the connection
is to be added, or it could not be and the client is to go. -/
inductive Accepting
  | idle
  | adding (fd : Int32) (ccid : UInt64)
  | kicking (ccid : UInt64)

def Accepting.ccid : Accepting → Option UInt64
  | .idle => none
  | .adding _ ccid | .kicking ccid => some ccid

structure GatewayConns where
  conns : TcpConnectionManager := {}
  clients : Clients := fun _ => none
  accepting : Accepting := .idle
  /-- All ids of connections that have been given out. -/
  seen : List UInt64 := []
  /-- Those whose `setNonBlocking` has thrown in `addPublicConnection`. -/
  stranded : List UInt64 := []
  /-- Those that the lobby has told to kick out. -/
  told : List UInt64 := []

namespace GatewayConns

section Code

variable (s : GatewayConns)

/-- The first half of `newClientConnection`. -/
def clientOnline (fd : Int32) (ccid : UInt64) : GatewayConns :=
  { s with
    clients := s.clients.clientOnline ccid.toNat
    accepting := .adding fd ccid
    seen := ccid :: s.seen }

inductive Adding
  | throws
  | adds (fails : Bool)

def addPublicConnection (adding : Adding) : GatewayConns :=
  match s.accepting with
  | .adding fd ccid =>
      match adding with
      | .throws => { s with accepting := .idle, stranded := ccid :: s.stranded }
      | .adds fails =>
          let (added, conns) := s.conns.addPublicConnection fd ccid fails
          { s with conns, accepting := if added then .idle else .kicking ccid }
  | _ => s

def kickOutClient : GatewayConns :=
  match s.accepting with
  | .kicking ccid =>
      { s with clients := s.clients.kickOutClient ccid.toNat, accepting := .idle }
  | _ => s

/-- The handler of `e_afterErasePublicConn`. -/
def clientOffline (clients : Clients) : ConnectionEvent → Clients
  | .afterErasePublicConn ccid => clients.erase ccid.toNat
  | _ => clients

/-- What the manager does, and what is made of the events that it raises. -/
def manage (act : TcpConnectionManager.Act) : GatewayConns :=
  let conns := s.conns.next act
  { s with
    conns
    clients := (conns.events.drop s.conns.events.length).foldl clientOffline s.clients }

/-- Whether the client of the message has to go. -/
def kicks : PrivateMsg → Bool
  | .retLoginQuest .succes .. => false
  | .retLoginQuest .regFailed .. | .clientBeReplaced .. => true

def hear (msg : PrivateMsg) (ccid : UInt64) : GatewayConns :=
  { s with
    clients := handle msg s.clients
    told := if kicks msg then ccid :: s.told else s.told }

inductive Act
  | clientOnline (fd : Int32) (ccid : UInt64)
  | addPublicConnection (adding : Adding)
  | kickOutClient
  | manage (act : TcpConnectionManager.Act)
  | hear (msg : PrivateMsg) (ccid : UInt64)

/-- One connection is accepted at a time, and ids differ. Only accepting adds a public one. -/
def Allowed : Act → Prop
  | .clientOnline _ ccid => s.accepting.ccid = none ∧ ccid ∉ s.seen
  | .manage (.addPublicConnection ..) => False
  | .hear msg ccid => about msg = ccid.toNat
  | .addPublicConnection _ | .kickOutClient | .manage _ => True

instance (act : Act) : Decidable (s.Allowed act) :=
  match act with
  | .clientOnline _ ccid =>
      inferInstanceAs (Decidable (s.accepting.ccid = none ∧ ccid ∉ s.seen))
  | .manage (.addPublicConnection ..) => .isFalse not_false
  | .hear msg ccid => inferInstanceAs (Decidable (about msg = ccid.toNat))
  | .addPublicConnection _ | .kickOutClient => .isTrue trivial
  | .manage (.addPrivateConnection ..) | .manage (.erasePublicConnection _)
  | .manage (.socketError _) | .manage (.eraseConnection _) => .isTrue trivial

def step : Act → GatewayConns
  | .clientOnline fd ccid => s.clientOnline fd ccid
  | .addPublicConnection adding => s.addPublicConnection adding
  | .kickOutClient => s.kickOutClient
  | .manage act => s.manage act
  | .hear msg ccid => s.hear msg ccid

def system : System GatewayConns Act Empty where
  Init s := s = {}
  Allowed s act := s.Allowed act
  step s act := .ok (s.step act)

instance (act : Act) : Decidable (system.Allowed s act) :=
  inferInstanceAs (Decidable (s.Allowed act))

end Code

section Agreement

variable {s : GatewayConns} {m : TcpConnectionManager}

/-- Who is a client has a connection, or is being accepted; who has a connection is a client, or
was to go. -/
structure Agree (s : GatewayConns) : Prop where
  connected : ∀ ccid, s.clients ccid.toNat ≠ none →
    s.conns.publicConns ccid ≠ none ∨ s.accepting.ccid = some ccid ∨ ccid ∈ s.stranded
  known : ∀ ccid, s.conns.publicConns ccid ≠ none → s.clients ccid.toNat ≠ none ∨ ccid ∈ s.told

/-- The same, and what is there of a connection that is being accepted. -/
structure Sound (s : GatewayConns) : Prop extends Agree s where
  seen_of_public : ∀ ccid, s.conns.publicConns ccid ≠ none → ccid ∈ s.seen
  seen_of_accepting : ∀ ccid, s.accepting.ccid = some ccid → ccid ∈ s.seen
  public_eq : ∀ ccid, s.accepting.ccid = some ccid → s.conns.publicConns ccid = none
  client_of_adding : ∀ fd ccid, s.accepting = .adding fd ccid →
    s.clients ccid.toNat ≠ none ∨ ccid ∈ s.told

/-- What the manager does to the connections of clients, and what it says of that. -/
inductive Erases (m m' : TcpConnectionManager) : Prop
  | nothing (hpublic : m'.publicConns = m.publicConns)
      (hevents : ∀ clients, (m'.events.drop m.events.length).foldl clientOffline clients = clients)
  | one (ccid : UInt64) (hccid : m.publicConns ccid ≠ none)
      (hpublic : m'.publicConns = Function.update m.publicConns ccid none)
      (hevents : ∀ clients, (m'.events.drop m.events.length).foldl clientOffline clients =
        clients.erase ccid.toNat)

theorem erases_raise {m' : TcpConnectionManager} (event : ConnectionEvent)
    (hevent : ∀ clients, clientOffline clients event = clients)
    (hpublic : m'.publicConns = m.publicConns) (hevents : m'.events = m.events ++ [event]) :
    Erases m m' := by
  refine .nothing hpublic fun clients => ?_
  rw [hevents, List.drop_left]
  exact hevent clients

theorem erases_same {m' : TcpConnectionManager} (hpublic : m'.publicConns = m.publicConns)
    (hevents : m'.events = m.events) : Erases m m' := by
  refine .nothing hpublic fun clients => ?_
  rw [hevents, List.drop_length]
  rfl

theorem addPrivateConnection_erases (m : TcpConnectionManager) (fd : Int32) (pid : Relay.ProcessId)
    (fails : Bool) : Erases m (m.addPrivateConnection fd pid fails) := by
  unfold TcpConnectionManager.addPrivateConnection
  cases hall : (m.makeHolder fd (.privateType pid)).2.allConns fd with
  | some _ =>
      dsimp only
      rw [hall]
      exact erases_same rfl rfl
  | none =>
      dsimp only
      rw [hall]
      dsimp only
      cases hprivate : ((m.makeHolder fd (.privateType pid)).2.setAll fd
        (some (m.makeHolder fd (.privateType pid)).1)).privateConns pid with
      | some _ => exact erases_same rfl rfl
      | none =>
          cases fails <;> exact erases_raise (.afterAddPrivateConn pid _) (fun _ => rfl) rfl rfl

theorem eraseConnection_erases (m : TcpConnectionManager) (fd : Int32) :
    Erases m (m.eraseConnection fd) := by
  rw [TcpConnectionManager.eraseConnection]
  cases m.allConns fd with
  | none => exact erases_same rfl rfl
  | some connHolder =>
      dsimp only
      cases hpublic : m.publicConns connHolder.id with
      | some _ =>
          refine .one connHolder.id (by rw [hpublic]; exact Option.some_ne_none _) rfl
            fun clients => ?_
          simp only [TcpConnectionManager.setAll, TcpConnectionManager.raise,
            TcpConnectionManager.setPublic, List.drop_left]
          rfl
      | none =>
          dsimp only
          split
          · exact erases_raise (.afterErasePrivateConn _) (fun _ => rfl) rfl rfl
          · exact erases_same rfl rfl

theorem manage_erases (m : TcpConnectionManager) {act : TcpConnectionManager.Act}
    (hact : ∀ fd ccid fails, act ≠ .addPublicConnection fd ccid fails) : Erases m (m.next act) := by
  cases act with
  | addPrivateConnection fd pid fails => exact addPrivateConnection_erases m fd pid fails
  | addPublicConnection fd ccid fails => exact absurd rfl (hact fd ccid fails)
  | erasePublicConnection ccid =>
      rw [TcpConnectionManager.next, TcpConnectionManager.erasePublicConnection]
      cases m.publicConns ccid with
      | none => exact erases_same rfl rfl
      | some connHolder => exact eraseConnection_erases m _
  | socketError fd =>
      rw [TcpConnectionManager.next, TcpConnectionManager.socketError]
      cases m.allConns fd with
      | none => exact erases_same rfl rfl
      | some connHolder => exact eraseConnection_erases m _
  | eraseConnection fd => exact eraseConnection_erases m fd

/-- What comes of adding the connection of a client that has none. -/
inductive Adds (m : TcpConnectionManager) (ccid : UInt64) : Bool × TcpConnectionManager → Prop
  | added {m' : TcpConnectionManager} (connHolder : ConnectionHolder)
      (hpublic : m'.publicConns = Function.update m.publicConns ccid (some connHolder))
      (hevents : m'.events = m.events) : Adds m ccid (true, m')
  | refused {m' : TcpConnectionManager} (hpublic : m'.publicConns = m.publicConns)
      (hevents : m'.events = m.events) : Adds m ccid (false, m')

theorem addPublicConnection_adds {ccid : UInt64} (fd : Int32) (fails : Bool)
    (h : m.publicConns ccid = none) : Adds m ccid (m.addPublicConnection fd ccid fails) := by
  unfold TcpConnectionManager.addPublicConnection
  dsimp only
  split
  · exact .refused rfl rfl
  · split
    · exact .refused rfl rfl
    · cases fails with
      | false => exact .added _ rfl rfl
      | true =>
          refine .refused ?_ rfl
          change Function.update (Function.update m.publicConns ccid _) ccid none = m.publicConns
          rw [Function.update_idem, ← h, Function.update_eq_self]

theorem kickOutClient_apply (clients : Clients) (ccid c : Lobby.Ccid) :
    clients.kickOutClient ccid c = if c = ccid then none else clients c := by
  rw [Clients.kickOutClient]
  cases hclient : clients ccid with
  | some _ => exact Function.update_apply ..
  | none =>
      dsimp only
      split_ifs with hc
      · rw [hc, hclient]
      · rfl

theorem hear_ne_none {msg : PrivateMsg} {client : Option Client} (hkicks : kicks msg = false)
    (h : client ≠ none) : Sessions.hear msg client ≠ none := by
  obtain ⟨x, rfl⟩ := Option.ne_none_iff_exists'.mp h
  rcases msg with ⟨retCode, _, _, _⟩ | _
  · cases retCode with
    | succes => exact Option.some_ne_none _
    | regFailed => cases hkicks
  · cases hkicks

section Step

variable {ccid c : UInt64} {fd : Int32}

theorem update_toNat_of_ne (clients : Clients) (client : Option Client) (h : c ≠ ccid) :
    Function.update clients ccid.toNat client c.toNat = clients c.toNat :=
  Function.update_of_ne (fun heq => h (UInt64.toNat_inj.mp heq)) _ _

theorem Sound.clientOnline (h : Sound s) (hidle : s.accepting.ccid = none) (hnew : ccid ∉ s.seen) :
    Sound (s.clientOnline fd ccid) where
  connected c hc := by
    rcases eq_or_ne c ccid with rfl | hne
    · exact .inr (.inl rfl)
    · change Function.update s.clients ccid.toNat _ c.toNat ≠ none at hc
      rw [update_toNat_of_ne s.clients _ hne] at hc
      rcases h.connected c hc with hpublic | haccepting | hstranded
      · exact .inl hpublic
      · cases hidle.symm.trans haccepting
      · exact .inr (.inr hstranded)
  known c hc := by
    have hne : c ≠ ccid := fun heq => hnew (heq ▸ h.seen_of_public c hc)
    change Function.update s.clients ccid.toNat _ c.toNat ≠ none ∨ _
    rw [update_toNat_of_ne s.clients _ hne]
    exact h.known c hc
  seen_of_public c hc := List.mem_cons_of_mem _ (h.seen_of_public c hc)
  seen_of_accepting c hc := by
    obtain rfl : ccid = c := Option.some.inj hc
    exact List.mem_cons_self
  public_eq c hc := by
    obtain rfl : ccid = c := Option.some.inj hc
    by_contra hpublic
    exact hnew (h.seen_of_public ccid hpublic)
  client_of_adding _ c hc := by
    cases hc
    left
    change Function.update s.clients ccid.toNat _ ccid.toNat ≠ none
    rw [Function.update_self]
    exact Option.some_ne_none _

theorem Sound.addPublicConnection (h : Sound s) (adding : Adding) :
    Sound (s.addPublicConnection adding) := by
  rw [GatewayConns.addPublicConnection]
  cases haccepting : s.accepting with
  | idle => exact h
  | kicking ccid => exact h
  | adding fd ccid =>
      have hccid : s.accepting.ccid = some ccid := by rw [haccepting]; rfl
      have hold : ∀ c, s.accepting.ccid = some c → c = ccid := fun c hc =>
        Option.some.inj (hc.symm.trans hccid)
      cases adding with
      | throws =>
          refine ⟨⟨fun c hc => ?_, h.known⟩, h.seen_of_public, ?_, ?_, ?_⟩
          · rcases h.connected c hc with hpublic | hc | hstranded
            · exact .inl hpublic
            · exact .inr (.inr (hold c hc ▸ List.mem_cons_self))
            · exact .inr (.inr (List.mem_cons_of_mem _ hstranded))
          · rintro _ ⟨⟩
          · rintro _ ⟨⟩
          · rintro _ _ ⟨⟩
      | adds fails =>
          have hadds := addPublicConnection_adds fd fails (h.public_eq ccid hccid)
          dsimp only
          generalize s.conns.addPublicConnection fd ccid fails = added at hadds ⊢
          cases hadds with
          | @added m' connHolder hpublic hevents =>
              have hself : m'.publicConns ccid ≠ none := by
                rw [hpublic, Function.update_self]
                exact Option.some_ne_none _
              have hother : ∀ c, c ≠ ccid → m'.publicConns c = s.conns.publicConns c := by
                intro c hne
                rw [hpublic, Function.update_of_ne hne]
              refine ⟨⟨fun c hc => ?_, fun c hc => ?_⟩, fun c hc => ?_, ?_, ?_, ?_⟩
              · rcases eq_or_ne c ccid with rfl | hne
                · exact .inl hself
                · rcases h.connected c hc with hpublic | hc | hstranded
                  · exact .inl ((hother c hne).trans_ne hpublic)
                  · exact absurd (hold c hc) hne
                  · exact .inr (.inr hstranded)
              · rcases eq_or_ne c ccid with rfl | hne
                · exact h.client_of_adding fd c haccepting
                · exact h.known c ((hother c hne).symm.trans_ne hc)
              · rcases eq_or_ne c ccid with rfl | hne
                · exact h.seen_of_accepting c hccid
                · exact h.seen_of_public c ((hother c hne).symm.trans_ne hc)
              · rintro _ ⟨⟩
              · rintro _ ⟨⟩
              · rintro _ _ ⟨⟩
          | @refused m' hpublic hevents =>
              refine ⟨⟨fun c hc => ?_, fun c hc => ?_⟩, fun c hc => ?_, ?_, ?_, ?_⟩
              · change m'.publicConns c ≠ none ∨ some ccid = some c ∨ _
                rw [hpublic, ← hccid]
                exact h.connected c hc
              · exact h.known c (hpublic ▸ hc)
              · exact h.seen_of_public c (hpublic ▸ hc)
              · rintro _ ⟨⟩
                exact h.seen_of_accepting ccid hccid
              · rintro _ ⟨⟩
                exact (congrFun hpublic ccid).trans (h.public_eq ccid hccid)
              · rintro _ _ ⟨⟩

theorem Sound.kickOutClient (h : Sound s) : Sound s.kickOutClient := by
  rw [GatewayConns.kickOutClient]
  cases haccepting : s.accepting with
  | idle => exact h
  | adding fd ccid => exact h
  | kicking ccid =>
      have hccid : s.accepting.ccid = some ccid := by rw [haccepting]; rfl
      have hkick : ∀ c : UInt64, s.clients.kickOutClient ccid.toNat c.toNat =
          if c = ccid then none else s.clients c.toNat := by
        intro c
        rw [kickOutClient_apply]
        exact if_congr UInt64.toNat_inj rfl rfl
      refine ⟨⟨fun c hc => ?_, fun c hc => ?_⟩, h.seen_of_public, ?_, ?_, ?_⟩
      · change s.clients.kickOutClient ccid.toNat c.toNat ≠ none at hc
        rw [hkick, ite_ne_left_iff] at hc
        rcases h.connected c hc.2.symm with hpublic | haccepted | hstranded
        · exact .inl hpublic
        · exact absurd (Option.some.inj (haccepted.symm.trans hccid)) hc.1
        · exact .inr (.inr hstranded)
      · have hne : c ≠ ccid := fun heq => hc (heq ▸ h.public_eq ccid hccid)
        change s.clients.kickOutClient ccid.toNat c.toNat ≠ none ∨ _
        rw [hkick, if_neg hne]
        exact h.known c hc
      · rintro _ ⟨⟩
      · rintro _ ⟨⟩
      · rintro _ _ ⟨⟩

theorem Sound.manage {act : TcpConnectionManager.Act} (h : Sound s)
    (hact : ∀ fd ccid fails, act ≠ .addPublicConnection fd ccid fails) :
    Sound (s.manage act) := by
  have herases := manage_erases s.conns hact
  rw [GatewayConns.manage]
  generalize s.conns.next act = m' at herases ⊢
  cases herases with
  | nothing hpublic hevents =>
      rw [hevents]
      refine ⟨⟨fun c hc => ?_, fun c hc => h.known c (hpublic ▸ hc)⟩,
        fun c hc => h.seen_of_public c (hpublic ▸ hc), h.seen_of_accepting,
        fun c hc => (congrFun hpublic c).trans (h.public_eq c hc), h.client_of_adding⟩
      change m'.publicConns c ≠ none ∨ _
      rw [hpublic]
      exact h.connected c hc
  | one ccid hccid hpublic hevents =>
      have hself : m'.publicConns ccid = none := by rw [hpublic, Function.update_self]
      have hother : ∀ c, c ≠ ccid → m'.publicConns c = s.conns.publicConns c := by
        intro c hne
        rw [hpublic, Function.update_of_ne hne]
      have hstill : ∀ c, m'.publicConns c ≠ none → c ≠ ccid ∧ s.conns.publicConns c ≠ none := by
        intro c hc
        have hne : c ≠ ccid := fun heq => hc (heq ▸ hself)
        exact ⟨hne, hother c hne ▸ hc⟩
      rw [hevents]
      refine ⟨⟨fun c hc => ?_, fun c hc => ?_⟩, fun c hc => h.seen_of_public c (hstill c hc).2,
        h.seen_of_accepting, fun c hc => ?_, fun fd c hc => ?_⟩
      · change Function.update s.clients ccid.toNat none c.toNat ≠ none at hc
        change m'.publicConns c ≠ none ∨ _
        rcases eq_or_ne c ccid with rfl | hne
        · exact absurd (Function.update_self ..) hc
        · rw [hother c hne]
          exact h.connected c (update_toNat_of_ne s.clients none hne ▸ hc)
      · obtain ⟨hne, hold⟩ := hstill c hc
        change Function.update s.clients ccid.toNat none c.toNat ≠ none ∨ _
        rw [update_toNat_of_ne s.clients none hne]
        exact h.known c hold
      · by_contra hc'
        exact (hstill c hc').2 (h.public_eq c hc)
      · have hne : c ≠ ccid := by
          rintro rfl
          change s.accepting = .adding fd c at hc
          exact hccid (h.public_eq c (by rw [hc]; rfl))
        change Function.update s.clients ccid.toNat none c.toNat ≠ none ∨ _
        rw [update_toNat_of_ne s.clients none hne]
        exact h.client_of_adding fd c hc

theorem Sound.hear {msg : PrivateMsg} (h : Sound s) (habout : about msg = ccid.toNat) :
    Sound (s.hear msg ccid) := by
  have hkeeps : ∀ c, s.clients c.toNat ≠ none ∨ c ∈ s.told →
      (s.hear msg ccid).clients c.toNat ≠ none ∨ c ∈ (s.hear msg ccid).told := by
    intro c hc
    change handle msg s.clients c.toNat ≠ none ∨
      c ∈ if kicks msg = true then ccid :: s.told else s.told
    rw [handle_apply, habout, if_congr UInt64.toNat_inj rfl rfl]
    cases hkicks : kicks msg with
    | true =>
        rw [if_pos rfl]
        rcases eq_or_ne c ccid with rfl | hne
        · exact .inr List.mem_cons_self
        · rw [if_neg hne]
          exact hc.imp_right (List.mem_cons_of_mem _)
    | false =>
        rw [if_neg Bool.false_ne_true]
        refine hc.imp_left fun hclient => ?_
        split_ifs with heq
        · exact hear_ne_none hkicks hclient
        · exact hclient
  refine ⟨⟨fun c hc => h.connected c ?_, fun c hc => hkeeps c (h.known c hc)⟩,
    h.seen_of_public, h.seen_of_accepting, h.public_eq,
    fun fd c hc => hkeeps c (h.client_of_adding fd c hc)⟩
  rintro hclient
  apply hc
  change handle msg s.clients c.toNat = none
  rw [handle_apply, hclient, hear_none, ite_self]

theorem Sound.step {act : Act} (h : Sound s) (hact : s.Allowed act) : Sound (s.step act) := by
  cases act with
  | clientOnline fd ccid => exact h.clientOnline hact.1 hact.2
  | addPublicConnection adding => exact h.addPublicConnection adding
  | kickOutClient => exact h.kickOutClient
  | manage act =>
      refine h.manage ?_
      rintro fd ccid fails rfl
      exact hact
  | hear msg ccid => exact h.hear hact

theorem sound_init : Sound {} where
  connected _ h := absurd rfl h
  known _ h := absurd rfl h
  seen_of_public _ h := absurd rfl h
  seen_of_accepting _ h := by cases h
  public_eq _ _ := rfl
  client_of_adding _ _ h := by cases h

end Step

/-- Besides a client that is being accepted, and one whose connection could not be put in
non-blocking mode, the clients and the open connections differ only in those that the lobby
has kicked out: they lose the client, and the connection stays open. -/
theorem agree_of_reaches {C : GatewayConns → Act → Prop} (h : system.Reaches C s) : Agree s := by
  have hsound : Sound s := by
    refine h.invariant (fun s hs => ?_) fun s act s' hs hact _ hstep => ?_
    · obtain rfl : s = {} := hs
      exact sound_init
    · cases hstep
      exact hs.step hact
  exact hsound.toAgree

theorem agree_of_two_clients :
    let s := system.after {} [.clientOnline 5 1, .addPublicConnection (.adds false),
      .clientOnline 6 2, .addPublicConnection (.adds false), .manage (.socketError 6),
      .hear (.clientBeReplaced 1 0 "") 1]
    (s.clients 1 = none ∧ s.conns.publicConns 1 ≠ none ∧ s.conns.publicConns 2 = none) ∧
      Agree s :=
  ⟨by decide +kernel, agree_of_reaches (C := fun _ _ => True) <|
    .after (.init rfl) (by decide +kernel)⟩

end Agreement

end GatewayConns

end CasualGame.Sessions
