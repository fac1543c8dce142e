import CasualGame.Lib.InFlight
import CasualGame.Lobby.Logins

/-!
Logging in: the client manager of the gateway, that of the lobby, and the streams between
the two processes.
-/

namespace CasualGame.Sessions

open Lobby
open Lobby.Logins
open Lobby.LobbyActs
open Lobby.WorldFrames
open Lib.Run
open Lib.InFlight

inductive ClientState
  | logining | playing
  deriving DecidableEq

/-- A client of the gateway. -/
structure Client where
  cuid : Cuid := 0
  state : ClientState := .logining
  deriving DecidableEq

/-- `ClientManager::m_clients` of the gateway. -/
abbrev Clients := Ccid → Option Client

/-- `S_LoginRet`, with the code as the lobby has it. -/
structure LoginRet where
  retCode : RetCode
  cuid : Option Cuid := none
  tempToken : Option String := none

structure LoginQuest where
  ccid : Ccid
  openid : String
  name : String
  deriving DecidableEq

namespace Clients

variable (clients : Clients)

/-- A client whose erasure is put off leaves the map at once, too. -/
def erase (ccid : Ccid) : Clients := Function.update clients ccid none

def clientOnline (ccid : Ccid) : Clients := Function.update clients ccid (some {})

/-- The token of a client is not looked at. -/
def cLogin (ccid : Ccid) (openid nickName : String) : Option LoginQuest :=
  match clients ccid with
  | none => none
  | some _ => some { ccid := ccid, openid := openid, name := nickName }

def retLoginQuest (retCode : RetCode) (ccid : Ccid) (cuid : Cuid) :
    Clients × Option (Ccid × LoginRet) :=
  match clients ccid with
  | none => (clients, none)
  | some _ =>
      let clients := Function.update clients ccid (some { cuid := cuid, state := .playing })
      if retCode = .succes then
        (clients, some (ccid, { retCode, cuid := some cuid, tempToken := some "xxxx" }))
      else (erase clients ccid, some (ccid, { retCode }))

def kickOutClient (ccid : Ccid) : Clients :=
  match clients ccid with
  | none => clients
  | some _ => clients.erase ccid

def clientBeReplaced (ccid : Ccid) : Clients :=
  match clients ccid with
  | none => clients
  | some _ => clients.kickOutClient ccid

end Clients

/-- The handlers of the gateway for messages of the lobby. -/
def handle : PrivateMsg → Clients → Clients
  | .retLoginQuest retCode ccid cuid _, clients => (clients.retLoginQuest retCode ccid cuid).1
  | .clientBeReplaced ccid _ _, clients => clients.clientBeReplaced ccid

/-- The two processes, and what is under way from one to the other, the oldest first. -/
structure Session where
  clients : Clients := fun _ => none
  /-- All ids of connections that have been given out. -/
  seen : List Ccid := []
  quests : List LoginQuest := []
  lobby : LobbyState
  answers : List PrivateMsg := []

inductive SessionAct
  | clientOnline (ccid : Ccid)
  | clientOffline (ccid : Ccid)
  | cLogin (ccid : Ccid) (openid nickName : String)
  /-- The lobby works off a `LoginQuest`. -/
  | quest
  /-- The gateway works off a message of the lobby. -/
  | answer

namespace Session

variable (s : Session)

/-- What the lobby makes of the oldest quest. -/
def quest : Session :=
  match s.quests with
  | [] => s
  | { ccid, openid, name } :: quests =>
      let lobby := s.lobby.loginQuest ccid openid name
      { s with
        quests := quests
        lobby := lobby
        answers := s.answers ++
          privateMsgs (lobby.world.sent.drop s.lobby.world.sent.length) }

def answer : Session :=
  match s.answers with
  | [] => s
  | msg :: answers => { s with clients := handle msg s.clients, answers := answers }

def step : SessionAct → Session
  | .clientOnline ccid =>
      { s with clients := s.clients.clientOnline ccid, seen := ccid :: s.seen }
  | .clientOffline ccid => { s with clients := s.clients.erase ccid }
  | .cLogin ccid openid nickName =>
      { s with quests := s.quests ++ (s.clients.cLogin ccid openid nickName).toList }
  | .quest => s.quest
  | .answer => s.answer

/-- Ids of connections differ, and a message of a client needs its connection. -/
def Allowed : SessionAct → Prop
  | .clientOnline ccid => ccid ∉ s.seen
  | .clientOffline ccid => ccid ∈ s.seen
  | .cLogin ccid _ _ => ccid ∈ s.seen
  | .quest => s.quests ≠ []
  | .answer => s.answers ≠ []

instance (act : SessionAct) : Decidable (s.Allowed act) :=
  match act with
  | .clientOnline ccid => inferInstanceAs (Decidable (ccid ∉ s.seen))
  | .clientOffline ccid | .cLogin ccid _ _ => inferInstanceAs (Decidable (ccid ∈ s.seen))
  | .quest => inferInstanceAs (Decidable (s.quests ≠ []))
  | .answer => inferInstanceAs (Decidable (s.answers ≠ []))

/-- The clients of the gateway once it has heard all that the lobby has said so far. -/
def settled : Clients := settle handle s.answers s.clients

end Session

def loginSystem : System Session SessionAct Empty where
  Init s := ∃ rg, s = { lobby := LobbyState.start rg }
  Allowed s act := s.Allowed act
  step s act := .ok (s.step act)

section Handling

variable {msg : PrivateMsg} {clients : Clients} {c : Ccid}

/-- The connection that a message of the lobby is about. -/
def about : PrivateMsg → Ccid
  | .retLoginQuest _ ccid _ _ => ccid
  | .clientBeReplaced ccid _ _ => ccid

/-- What it does to the client of that connection. -/
def hear : PrivateMsg → Option Client → Option Client
  | .retLoginQuest .succes _ cuid _, client =>
      client.map fun _ => { cuid := cuid, state := .playing }
  | .retLoginQuest .regFailed .., _ => none
  | .clientBeReplaced .., _ => none

theorem handle_apply (msg : PrivateMsg) (clients : Clients) (c : Ccid) :
    handle msg clients c = if c = about msg then hear msg (clients c) else clients c := by
  have hrest : ∀ ccid, clients ccid = none → ∀ client, (∀ h : clients c = none, client = none) →
      clients c = if c = ccid then client else clients c := by
    rintro ccid hnone client hclient
    split_ifs with hc
    · rw [hc] at hclient ⊢
      rw [hclient hnone, hnone]
    · rfl
  rcases msg with ⟨retCode, ccid, cuid, openid⟩ | ⟨ccid, cuid, openid⟩
  · rw [handle, Clients.retLoginQuest, about]
    cases hclient : clients ccid with
    | none =>
        cases retCode with
        | regFailed => exact hrest ccid hclient _ fun _ => rfl
        | succes => exact hrest ccid hclient _ fun h => by rw [h]; rfl
    | some client =>
        cases retCode with
        | regFailed =>
            change Function.update (Function.update clients ccid _) ccid none c = _
            rw [Function.update_idem, Function.update_apply]
            rfl
        | succes =>
            change Function.update clients ccid _ c = _
            rw [Function.update_apply]
            split_ifs with hc
            · rw [hc, hclient]
              rfl
            · rfl
  · rw [handle, Clients.clientBeReplaced, Clients.kickOutClient, about]
    cases hclient : clients ccid with
    | none => exact hrest ccid hclient _ fun _ => rfl
    | some client => exact Function.update_apply ..

theorem handle_of_ne (h : c ≠ about msg) : handle msg clients c = clients c := by
  rw [handle_apply, if_neg h]

theorem handle_about : handle msg clients (about msg) = hear msg (clients (about msg)) := by
  rw [handle_apply, if_pos rfl]

theorem hear_none (msg : PrivateMsg) : hear msg none = none := by
  rcases msg with ⟨_ | _, _, _, _⟩ | _ <;> rfl

end Handling

section Logging

variable {lobby : LobbyState} {ccid : Ccid} {openid name : String} {m : ClientManager}

/-- What a login comes to: the clients of the lobby, and what the gateway is told. -/
inductive Logged (m : ClientManager) (ccid : Ccid) (openid name : String) :
    ClientManager → List PrivateMsg → Prop
  | registered (hopenid : m.getByOpenid openid = none)
      (hinserted : (insertNew m ccid openid name).1 = true) :
      Logged m ccid openid name (insertNew m ccid openid name).2
        [.retLoginQuest .succes ccid m.getClientUniqueId.1 (some openid)]
  | refused (hopenid : m.getByOpenid openid = none)
      (hinserted : (insertNew m ccid openid name).1 = false) :
      Logged m ccid openid name ((insertNew m ccid openid name).2.erase m.clients.length)
        [.retLoginQuest .regFailed ccid m.getClientUniqueId.1 none]
  | replaced {client : ClientPtr} (hopenid : m.getByOpenid openid = some client)
      (hinserted : ((moved m client ccid).insert client).1 = true) :
      Logged m ccid openid name ((moved m client ccid).insert client).2
        [.clientBeReplaced (m.client client).ccid (m.client client).cuid (m.client client).openid,
          .retLoginQuest .succes ccid (m.client client).cuid (some (m.client client).openid)]
  | rejected {client : ClientPtr} (hopenid : m.getByOpenid openid = some client)
      (hinserted : ((moved m client ccid).insert client).1 = false) :
      Logged m ccid openid name ((moved m client ccid).insert client).2
        [.clientBeReplaced (m.client client).ccid (m.client client).cuid (m.client client).openid,
          .retLoginQuest .regFailed ccid (m.client client).cuid none,
          .retLoginQuest .succes ccid (m.client client).cuid (some (m.client client).openid)]

theorem client_insert_moved (m : ClientManager) (p q : ClientPtr) (ccid : Ccid) :
    ((moved m p ccid).insert p).2.client q =
      if q = p ∧ p < m.clients.length then { m.client q with ccid := ccid } else m.client q := by
  rw [client_insert, client_moved]

theorem cuid_insert_moved (m : ClientManager) (p q : ClientPtr) (ccid : Ccid) :
    (((moved m p ccid).insert p).2.client q).cuid = (m.client q).cuid := by
  rw [client_insert_moved]
  split_ifs <;> rfl

theorem openid_insert_moved (m : ClientManager) (p q : ClientPtr) (ccid : Ccid) :
    (((moved m p ccid).insert p).2.client q).openid = (m.client q).openid := by
  rw [client_insert_moved]
  split_ifs <;> rfl

theorem loginSucces_told (lobby : LobbyState) {w : World} {client : ClientPtr}
    {c : Lobby.Client} (hself : w.clients.client client = c) (ccid : Ccid) :
    SameKeys w.clients ((lobby.setWorld w).loginSucces client ccid).world.clients ∧
      Tells [.retLoginQuest .succes ccid c.cuid (some c.openid)] w
        ((lobby.setWorld w).loginSucces client ccid).world := by
  subst hself
  exact ⟨sameKeys_loginSucces (lobby.setWorld w) client ccid,
    tells_loginSucces (lobby.setWorld w) client ccid⟩

theorem loginQuest_logged (lobby : LobbyState) (ccid : Ccid) (openid name : String) :
    ∃ m msgs, Logged lobby.world.clients ccid openid name m msgs ∧
      SameKeys m (lobby.loginQuest ccid openid name).world.clients ∧
        Tells msgs lobby.world (lobby.loginQuest ccid openid name).world := by
  cases hopenid : lobby.world.clients.getByOpenid openid with
  | none =>
      have hself : (insertNew lobby.world.clients ccid openid name).2.client
          lobby.world.clients.clients.length = newClient lobby.world.clients ccid openid name := by
        rw [client_insertNew, if_pos rfl]
      rw [loginQuest_new ccid name hopenid]
      cases hinserted : (insertNew lobby.world.clients ccid openid name).1 with
      | true =>
          obtain ⟨hkeys, htold⟩ := loginSucces_told lobby (w := { lobby.world with
            clients := (insertNew lobby.world.clients ccid openid name).2 }) hself ccid
          exact ⟨_, _, .registered hopenid hinserted, hkeys, htold⟩
      | false =>
          refine ⟨_, _, .refused hopenid hinserted, SameKeys.refl _, [_], rfl, ?_⟩
          change [PrivateMsg.retLoginQuest .regFailed ccid ((insertNew lobby.world.clients ccid
            openid name).2.client _).cuid none] = _
          rw [hself]
          rfl
  | some client =>
      have hcuid := cuid_insert_moved lobby.world.clients client client ccid
      have hname := openid_insert_moved lobby.world.clients client client ccid
      have hreplaced : Tells [.clientBeReplaced (lobby.world.clients.client client).ccid
          (lobby.world.clients.client client).cuid (lobby.world.clients.client client).openid]
            lobby.world (replaced lobby.world client ccid) := ⟨[_], rfl, rfl⟩
      rw [loginQuest_replaces ccid name hopenid]
      cases hinserted : ((moved lobby.world.clients client ccid).insert client).1 with
      | true =>
          obtain ⟨hkeys, htold⟩ :=
            loginSucces_told lobby (w := replaced lobby.world client ccid) rfl ccid
          change Tells [.retLoginQuest .succes ccid
            (((moved lobby.world.clients client ccid).insert client).2.client client).cuid
            (some (((moved lobby.world.clients client ccid).insert client).2.client client).openid)]
              _ _ at htold
          rw [hcuid, hname] at htold
          exact ⟨_, _, .replaced hopenid hinserted, hkeys, hreplaced.trans htold⟩
      | false =>
          obtain ⟨hkeys, htold⟩ := loginSucces_told lobby
            (w := LobbyState.regFailed (replaced lobby.world client ccid) client ccid) rfl ccid
          have hfailed : Tells [.retLoginQuest .regFailed ccid
              (((moved lobby.world.clients client ccid).insert client).2.client client).cuid none]
                (replaced lobby.world client ccid)
                (LobbyState.regFailed (replaced lobby.world client ccid) client ccid) :=
            ⟨[_], rfl, rfl⟩
          change Tells [.retLoginQuest .succes ccid
            (((moved lobby.world.clients client ccid).insert client).2.client client).cuid
            (some (((moved lobby.world.clients client ccid).insert client).2.client client).openid)]
              _ _ at htold
          rw [hcuid] at hfailed
          rw [hcuid, hname] at htold
          exact ⟨_, _, .rejected hopenid hinserted, hkeys,
            hreplaced.trans (hfailed.trans htold)⟩

end Logging

end CasualGame.Sessions
