import Mathlib.Logic.Relation
import CasualGame.Lobby.Admission

/-!
The acts of the lobby: every message comes down to one act, on a room, on the clients
or on the outbox, and a tick to a sequence of them. Unlike the account of `LobbySteps`
this one is exact, so that invariants about seats, votes and indexes can be read off it.
-/

namespace CasualGame.Lobby.LobbyActs

open Deck
open Dealing
open Game13
open LobbyState
open Lib.Run
open WorldFrames

section Acts

/-- The sender of a message is a client that says it is in the room. -/
structure Sender (w : World) (ccid : Ccid) (roomId : RoomId) (client : ClientPtr) : Prop where
  found : w.getByCcid ccid = some client
  room : (w.client client).roomId = roomId

/-- A client says it is in a room that is not there, or that has no seat of its. -/
def Stray (lobby : LobbyState) (client : ClientPtr) : Prop :=
  ∀ game, lobby.rooms[(lobby.world.client client).roomId]? = some game →
    game.getPlayerInfoByCuid (lobby.world.client client).cuid = none

def voteRoom (w : World) (game : Game13) (seat : Nat) (vote : Vote) : World × Game13 :=
  let game := game.updateSeat seat fun info => { info with vote := vote }
  if vote = .none then (w, game) else checkAllVotes w game

/-- What a message does to the room it is for, after the checks it has passed. -/
inductive RoomCall (w : World) (roomId : RoomId) (game : Game13) :
    Event → World → Game13 → Prop
  | jions {ccid : Ccid} {id : Int} {client : ClientPtr} : w.getByCcid ccid = some client →
      CalcRound.toUInt32 id = roomId →
      RoomCall w roomId game (.jionGame ccid id) (enterRoom w game client).2.1
        (enterRoom w game client).2.2
  | givesUp {ccid : Ccid} {client : ClientPtr} {seat : Nat} : Sender w ccid roomId client →
      roomId ≠ 0 → game.getPlayerInfoByCuid (w.client client).cuid = some seat →
      RoomCall w roomId game (.giveUp ccid) (giveUpRoom w game client seat).1
        (giveUpRoom w game client seat).2
  | votes {ccid : Ccid} {vote : Vote} {client : ClientPtr} {seat : Nat} :
      Sender w ccid roomId client → game.status = .vote →
      game.getPlayerInfoByCuid (w.client client).cuid = some seat →
      RoomCall w roomId game (.voteFoAbortGame ccid vote) (voteRoom w game seat vote).1
        (voteRoom w game seat vote).2
  | readies {ccid : Ccid} {ready : Bool} {client : ClientPtr} {seat : Nat} {w' : World}
      {game' : Game13} : Sender w ccid roomId client → roomId ≠ 0 → game.status = .prepare →
      game.getPlayerInfoByCuid (w.client client).cuid = some seat →
      readyFlagRoom w game seat (readyStatus ready) = .ok (w', game') →
      RoomCall w roomId game (.readyFlag ccid ready) w' game'
  | brings {ccid : Ccid} {cards : List Int} {client : ClientPtr} {seat : Nat} {hand : Hand}
      {w' : World} {game' : Game13} : Sender w ccid roomId client → roomId ≠ 0 →
      game.status = .play → game.getPlayerInfoByCuid (w.client client).cuid = some seat →
      (game.players[seat]?).map (·.status) = some .sort → hand.1 = cards.map toCard →
      bringOutRoom w game seat hand = .ok (w', game') →
      RoomCall w roomId game (.bringOut ccid cards) w' game'

/-- One turn of the loop over the rooms. -/
inductive Turn (lobby : LobbyState) : LobbyState → Prop
  | execs {roomId : RoomId} {game : Game13} {w : World} {game' : Game13} :
      lobby.rooms[roomId]? = some game → game.id ≠ 0 →
      timerExec lobby.world game = .ok (w, game') → Turn lobby (lobby.setRoom roomId w game')
  | erases {roomId : RoomId} {game : Game13} : lobby.rooms[roomId]? = some game → game.id = 0 →
      Turn lobby { lobby with rooms := lobby.rooms.erase roomId }

/-- The new client, which the maps have taken or given back. -/
def registered (w : World) (ccid : Ccid) (openid name : String) : World :=
  let (client, w) := createClient w ccid openid name
  let (inserted, clients) := w.clients.insert client
  { w with clients := if inserted then clients else clients.erase client }

/-- The client under its new connection, which the maps have taken or not. -/
def relogged (w : World) (client : ClientPtr) (ccid : Ccid) : World :=
  { w with clients :=
      (((w.clients.erase client).modifyClient client fun c => { c with ccid := ccid }).insert
        client).2 }

inductive Act (lobby : LobbyState) : Event → LobbyState → Prop
  | speaks (a : Event) {w : World} : Says lobby.world w → Act lobby a (lobby.setWorld w)
  | leaves (a : Event) {ccid : Ccid} {client : ClientPtr} :
      lobby.world.getByCcid ccid = some client → Stray lobby client →
      Act lobby a (lobby.setWorld (lobby.world.afterLeaveRoom client))
  | draws {ccid : Ccid} {rcv : CreateGame} : lobby.getRoomId.1 ∈ lobby.rooms →
      Act lobby (.createGame ccid rcv) { lobby with lastRoomId := lobby.getRoomId.1 }
  | opens {ccid : Ccid} {rcv : CreateGame} {client : ClientPtr} :
      lobby.world.getByCcid ccid = some client → (lobby.world.client client).roomId = 0 →
      lobby.getRoomId.1 ∉ lobby.rooms →
      Act lobby (.createGame ccid rcv) ({ lobby with lastRoomId := lobby.getRoomId.1 }.setRoom
        lobby.getRoomId.1 (enterRoom lobby.world (Admission.opened lobby rcv client) client).2.1
        (enterRoom lobby.world (Admission.opened lobby rcv client) client).2.2)
  | calls {a : Event} {roomId : RoomId} {game : Game13} {w : World} {game' : Game13} :
      lobby.rooms[roomId]? = some game → RoomCall lobby.world roomId game a w game' →
      Act lobby a (lobby.setRoom roomId w game')
  | registers {ccid : Ccid} {openid name : String} {w : World} :
      lobby.world.clients.getByOpenid openid = none →
      Says (registered lobby.world ccid openid name) w →
      Act lobby (.loginQuest ccid openid name) (lobby.setWorld w)
  | relogins {ccid : Ccid} {openid name : String} {client : ClientPtr} {w : World} :
      lobby.world.clients.getByOpenid openid = some client →
      Says (relogged lobby.world client ccid) w →
      Act lobby (.loginQuest ccid openid name) (lobby.setWorld w)
  | forgets {ccid : Ccid} {openid name : String} {client : ClientPtr} {w : World} :
      lobby.world.clients.getByOpenid openid = some client →
      Says (relogged lobby.world client ccid) w → Stray (lobby.setWorld w) client →
      Act lobby (.loginQuest ccid openid name) (lobby.setWorld (w.setRoomId client 0))
  | ticks {now : Int} {order : List RoomId} {lobby' : LobbyState} :
      Relation.ReflTransGen Turn (lobby.setWorld { lobby.world with timerTime := now }) lobby' →
      Act lobby (.timer now order) lobby'

end Acts

section Steps

variable {lobby lobby' : LobbyState} {a : Event}

theorem Act.refl (lobby : LobbyState) (a : Event) : Act lobby a lobby :=
  .speaks a (Says.refl lobby.world)

theorem Act.notice (lobby : LobbyState) (a : Event) (client : ClientPtr) (text : String) :
    Act lobby a (lobby.notice client text) :=
  .speaks a (says_notice lobby.world client text)

theorem stray_of_none {client : ClientPtr}
    (h : lobby.rooms[(lobby.world.client client).roomId]? = none) : Stray lobby client := by
  intro game hgame
  rw [h] at hgame
  cases hgame

theorem stray_of_seatless {client : ClientPtr} {game : Game13}
    (hgame : lobby.rooms[(lobby.world.client client).roomId]? = some game)
    (h : game.getPlayerInfoByCuid (lobby.world.client client).cuid = none) :
    Stray lobby client := by
  intro game' hgame'
  rw [hgame, Option.some.injEq] at hgame'
  exact hgame' ▸ h

theorem createGame_act (ccid : Ccid) (rcv : CreateGame) :
    Act lobby (.createGame ccid rcv) (lobby.createGame ccid rcv) := by
  by_cases hin : ∃ client, lobby.world.getByCcid ccid = some client ∧
      (lobby.world.client client).roomId = 0
  · obtain ⟨client, hclient, hout⟩ := hin
    by_cases hnew : lobby.getRoomId.1 ∈ lobby.rooms
    · have hdraws : lobby.createGame ccid rcv =
          { lobby with lastRoomId := lobby.getRoomId.1 } := by
        simp only [LobbyState.createGame, hclient, hout, ne_eq, not_true_eq_false, if_false]
        exact if_pos hnew
      rw [hdraws]
      exact .draws hnew
    · rw [Admission.createGame_opens hclient hout hnew]
      exact .opens hclient hout hnew
  · unfold LobbyState.createGame
    cases hclient : lobby.world.getByCcid ccid with
    | none => exact Act.refl lobby _
    | some client =>
        have hroom : (lobby.world.client client).roomId ≠ 0 := fun hout =>
          hin ⟨client, hclient, hout⟩
        dsimp only
        rw [if_pos hroom]
        exact Act.notice lobby _ client _

theorem jionGame_act (ccid : Ccid) (id : Int) :
    Act lobby (.jionGame ccid id) (lobby.jionGame ccid id) := by
  unfold LobbyState.jionGame
  cases hclient : lobby.world.getByCcid ccid with
  | none => exact Act.refl lobby _
  | some client =>
      dsimp only
      cases hroom : lobby.rooms[CalcRound.toUInt32 id]? with
      | none => exact Act.notice lobby _ client _
      | some game => exact .calls hroom (.jions hclient rfl)

theorem giveUp_act (ccid : Ccid) : Act lobby (.giveUp ccid) (lobby.giveUp ccid) := by
  unfold LobbyState.giveUp
  cases hclient : lobby.world.getByCcid ccid with
  | none => exact Act.refl lobby _
  | some client =>
      dsimp only
      split_ifs with hzero
      · exact Act.notice lobby _ client _
      · cases hroom : lobby.rooms[(lobby.world.client client).roomId]? with
        | none => exact .leaves _ hclient (stray_of_none hroom)
        | some game =>
            dsimp only
            cases hseat : game.getPlayerInfoByCuid (lobby.world.client client).cuid with
            | none => exact Act.refl lobby _
            | some seat => exact .calls hroom (.givesUp ⟨hclient, rfl⟩ hzero hseat)

theorem voteFoAbortGame_act (ccid : Ccid) (vote : Vote) :
    Act lobby (.voteFoAbortGame ccid vote) (lobby.voteFoAbortGame ccid vote) := by
  unfold LobbyState.voteFoAbortGame
  cases hclient : lobby.world.getByCcid ccid with
  | none => exact Act.refl lobby _
  | some client =>
      dsimp only
      cases hroom : lobby.rooms[(lobby.world.client client).roomId]? with
      | none => exact .leaves _ hclient (stray_of_none hroom)
      | some game =>
          dsimp only
          by_cases hvote : game.status ≠ .vote
          · rw [if_pos hvote]
            exact Act.refl lobby _
          rw [if_neg hvote]
          rw [not_not] at hvote
          cases hseat : game.getPlayerInfoByCuid (lobby.world.client client).cuid with
          | none => exact .leaves _ hclient (stray_of_seatless hroom hseat)
          | some seat =>
              have hcall : Act lobby (.voteFoAbortGame ccid vote) _ :=
                .calls hroom (.votes ⟨hclient, rfl⟩ hvote hseat)
              unfold voteRoom at hcall
              dsimp only at hcall ⊢
              split_ifs at hcall ⊢
              · exact hcall
              · exact hcall

theorem readyFlag_act {ccid : Ccid} {ready : Bool} (h : lobby.readyFlag ccid ready = .ok lobby') :
    Act lobby (.readyFlag ccid ready) lobby' := by
  unfold LobbyState.readyFlag at h
  cases hclient : lobby.world.getByCcid ccid with
  | none =>
      simp only [hclient] at h
      cases h
      exact Act.refl lobby _
  | some client =>
      simp only [hclient] at h
      split_ifs at h with hzero
      · cases h
        exact Act.notice lobby _ client _
      · cases hroom : lobby.rooms[(lobby.world.client client).roomId]? with
        | none =>
            simp only [hroom] at h
            cases h
            exact .leaves _ hclient (stray_of_none hroom)
        | some game =>
            simp only [hroom] at h
            split_ifs at h with hprepare
            · cases h
              exact Act.notice lobby _ client _
            · rw [not_not] at hprepare
              cases hseat : game.getPlayerInfoByCuid (lobby.world.client client).cuid with
              | none =>
                  simp only [hseat] at h
                  cases h
                  exact .leaves _ hclient (stray_of_seatless hroom hseat)
              | some seat =>
                  simp only [hseat] at h
                  split_ifs at h
                  · cases h
                    exact Act.refl lobby _
                  · obtain ⟨⟨w, game'⟩, hready, h⟩ := bind_eq_ok.mp h
                    cases h
                    exact .calls hroom (.readies ⟨hclient, rfl⟩ hzero hprepare hseat hready)

theorem bringOut_act {ccid : Ccid} {cards : List Int} (h : lobby.bringOut ccid cards = .ok lobby') :
    Act lobby (.bringOut ccid cards) lobby' := by
  unfold LobbyState.bringOut at h
  cases hclient : lobby.world.getByCcid ccid with
  | none =>
      simp only [hclient] at h
      cases h
      exact Act.refl lobby _
  | some client =>
      simp only [hclient] at h
      by_cases hzero : (lobby.world.client client).roomId = 0
      · rw [if_pos hzero] at h
        cases h
        exact Act.notice lobby _ client _
      rw [if_neg hzero] at h
      cases hroom : lobby.rooms[(lobby.world.client client).roomId]? with
      | none =>
          simp only [hroom] at h
          cases h
          exact .leaves _ hclient (stray_of_none hroom)
      | some game =>
          simp only [hroom] at h
          by_cases hplay : game.status ≠ .play
          · rw [if_pos hplay] at h
            cases h
            exact Act.notice lobby _ client _
          rw [if_neg hplay] at h
          cases hseat : game.getPlayerInfoByCuid (lobby.world.client client).cuid with
          | none =>
              simp only [hseat] at h
              cases h
              exact .leaves _ hclient (stray_of_seatless hroom hseat)
          | some seat =>
              simp only [hseat] at h
              split_ifs at h with hsort
              · cases h
                exact Act.notice lobby _ client _
              · obtain ⟨⟨w, game'⟩, hbring, h⟩ := bind_eq_ok.mp h
                cases h
                exact .calls hroom (.brings ⟨hclient, rfl⟩ hzero (not_not.mp hplay) hseat
                  (not_not.mp hsort) rfl hbring)
              · cases h
                exact Act.notice lobby _ client _

theorem sendChat_act (ccid : Ccid) (type : ChatType) (dataInt : Int) (dataText : String)
    (a : Event) : Act lobby a (lobby.sendChat ccid type dataInt dataText) := by
  unfold LobbyState.sendChat
  cases lobby.world.getByCcid ccid with
  | none => exact Act.refl lobby a
  | some client =>
      dsimp only
      cases lobby.rooms[(lobby.world.client client).roomId]? with
      | none => exact Act.refl lobby a
      | some game => exact .speaks a (says_sendToSeats _ _ _)

theorem timerExecRooms_turns {order : List RoomId}
    (h : timerExecRooms order lobby = .ok lobby') : Relation.ReflTransGen Turn lobby lobby' := by
  induction order generalizing lobby with
  | nil =>
      cases h
      exact .refl
  | cons roomId order ih =>
      rw [timerExecRooms] at h
      cases hroom : lobby.rooms[roomId]? with
      | none =>
          simp only [hroom] at h
          exact ih h
      | some game =>
          simp only [hroom] at h
          split_ifs at h with hid
          · cases h
            exact .single (.erases hroom hid)
          · obtain ⟨⟨w, game'⟩, hexec, h⟩ := bind_eq_ok.mp h
            exact .head (.execs hroom hid hexec) (ih h)

theorem insert_clients (m : ClientManager) (p : ClientPtr) :
    (m.insert p).2.clients = m.clients := by
  unfold ClientManager.insert
  dsimp only
  split_ifs
  · rfl
  · rfl
  · rfl
  · rfl

/-- The client of a login for an unknown openid, as it is created. -/
def newClient (m : ClientManager) (ccid : Ccid) (openid name : String) : Client :=
  { ccid := ccid, cuid := m.getClientUniqueId.1, openid := openid, name := name }

/-- The clients with the new one, which no map has yet. -/
def withNew (m : ClientManager) (ccid : Ccid) (openid name : String) : ClientManager :=
  { m.getClientUniqueId.2 with clients := m.clients ++ [newClient m ccid openid name] }

theorem client_withNew (m : ClientManager) (ccid : Ccid) (openid name : String) (q : ClientPtr) :
    (withNew m ccid openid name).client q =
      if q = m.clients.length then newClient m ccid openid name else m.client q := by
  rw [getElem?_clients, getElem?_clients]
  change (m.clients ++ [newClient m ccid openid name])[q]?.getD {} = _
  rcases Nat.lt_trichotomy q m.clients.length with hlt | heq | hgt
  · rw [List.getElem?_append_left hlt, if_neg hlt.ne]
  · rw [heq, List.getElem?_concat_length, if_pos rfl]
    rfl
  · rw [List.getElem?_eq_none (by simp; omega), if_neg hgt.ne', List.getElem?_eq_none hgt.le]

/-- The maps after a login for an unknown openid, and whether they have taken it. -/
def insertNew (m : ClientManager) (ccid : Ccid) (openid name : String) : Bool × ClientManager :=
  (withNew m ccid openid name).insert m.clients.length

theorem loginQuest_new (ccid : Ccid) {openid : String} (name : String)
    (h : lobby.world.clients.getByOpenid openid = none) :
    lobby.loginQuest ccid openid name =
      if (insertNew lobby.world.clients ccid openid name).1 then
        (lobby.setWorld { lobby.world with
          clients := (insertNew lobby.world.clients ccid openid name).2 }).loginSucces
            lobby.world.clients.clients.length ccid
      else lobby.setWorld (regFailed { lobby.world with
        clients := (insertNew lobby.world.clients ccid openid name).2.erase
          lobby.world.clients.clients.length } lobby.world.clients.clients.length ccid) := by
  simp only [LobbyState.loginQuest, h]
  rfl

theorem registered_eq (w : World) (ccid : Ccid) (openid name : String) :
    registered w ccid openid name = { w with clients :=
      if (insertNew w.clients ccid openid name).1 then (insertNew w.clients ccid openid name).2
      else (insertNew w.clients ccid openid name).2.erase w.clients.clients.length } :=
  rfl

theorem client_insertNew (m : ClientManager) (ccid : Ccid) (openid name : String) (q : ClientPtr) :
    (insertNew m ccid openid name).2.client q =
      if q = m.clients.length then newClient m ccid openid name else m.client q := by
  rw [ClientManager.client, insertNew, insert_clients]
  exact client_withNew m ccid openid name q

theorem loginQuest_known (ccid : Ccid) {openid : String} {client : ClientPtr} (name : String)
    (h : lobby.world.clients.getByOpenid openid = some client) :
    ∃ w, Says (relogged lobby.world client ccid) w ∧
      lobby.loginQuest ccid openid name = (lobby.setWorld w).loginSucces client ccid := by
  simp only [LobbyState.loginQuest, h]
  refine ⟨_, ?_, rfl⟩
  split_ifs
  · exact ⟨_, rfl⟩
  · exact ⟨_, rfl⟩

theorem clientOnline_roomless {client : ClientPtr}
    (h : (lobby.world.client client).roomId = 0) : lobby.clientOnline client = lobby :=
  if_pos h

theorem clientOnline_act {ccid : Ccid} {openid name : String} {client : ClientPtr} {w : World}
    (hopenid : lobby.world.clients.getByOpenid openid = some client)
    (hsaid : Says (relogged lobby.world client ccid) w) :
    Act lobby (.loginQuest ccid openid name) ((lobby.setWorld w).clientOnline client) := by
  rw [clientOnline]
  split_ifs with hzero
  · exact .relogins hopenid hsaid
  · cases hroom : (lobby.setWorld w).rooms[((lobby.setWorld w).world.client client).roomId]? with
    | none => exact .forgets hopenid hsaid (stray_of_none hroom)
    | some game =>
        dsimp only [clientOnlineExec]
        split_ifs with hstray
        · exact .forgets hopenid hsaid (stray_of_seatless hroom hstray.2)
        · exact .relogins hopenid (hsaid.trans (says_afterEnterRoom _ _ _))

theorem loginQuest_act (ccid : Ccid) (openid name : String) :
    Act lobby (.loginQuest ccid openid name) (lobby.loginQuest ccid openid name) := by
  cases hopenid : lobby.world.clients.getByOpenid openid with
  | none =>
      have hact : ∀ {w}, Says (registered lobby.world ccid openid name) w →
          Act lobby (.loginQuest ccid openid name) (lobby.setWorld w) :=
        fun hsaid => .registers hopenid hsaid
      have hclient := client_insertNew lobby.world.clients ccid openid name
        lobby.world.clients.clients.length
      rw [registered_eq] at hact
      rw [loginQuest_new ccid name hopenid]
      generalize insertNew lobby.world.clients ccid openid name = r at hact hclient ⊢
      cases hinserted : r.1 with
      | true =>
          -- a client is created outside any room, so there is none to go back to
          have hroom : (r.2.client lobby.world.clients.clients.length).roomId = 0 := by
            rw [hclient, if_pos rfl]
            rfl
          simp only [hinserted, if_true] at hact ⊢
          rw [loginSucces, clientOnline_roomless]
          · exact hact (says_sendToPrivate _ _)
          · exact hroom
      | false =>
          simp only [hinserted, Bool.false_eq_true, if_false] at hact ⊢
          exact hact (says_sendToPrivate _ _)
  | some client =>
      obtain ⟨w, hsaid, heq⟩ := loginQuest_known ccid name hopenid
      rw [heq, loginSucces]
      exact clientOnline_act hopenid (hsaid.trans (says_sendToPrivate _ _))

theorem step_act (h : lobby.step a = .ok lobby') : Act lobby a lobby' := by
  cases a with
  | createGame ccid rcv =>
      cases h
      exact createGame_act ccid rcv
  | jionGame ccid roomId =>
      cases h
      exact jionGame_act ccid roomId
  | giveUp ccid =>
      cases h
      exact giveUp_act ccid
  | voteFoAbortGame ccid vote =>
      cases h
      exact voteFoAbortGame_act ccid vote
  | readyFlag ccid ready => exact readyFlag_act h
  | bringOut ccid cards => exact bringOut_act h
  | sendChat ccid type dataInt dataText =>
      cases h
      exact sendChat_act ccid type dataInt dataText _
  | loginQuest ccid openid name =>
      cases h
      exact loginQuest_act ccid openid name
  | timer now order => exact .ticks (timerExecRooms_turns h)

theorem Act.rooms {P : RoomId → Game13 → Prop} (h : Act lobby a lobby')
    (hopens : ∀ rcv client, P lobby.getRoomId.1
      (enterRoom lobby.world (Admission.opened lobby rcv client) client).2.2)
    (hcalls : ∀ {roomId game w' game'}, lobby.rooms[roomId]? = some game → P roomId game →
      RoomCall lobby.world roomId game a w' game' → P roomId game')
    (hexecs : ∀ {w roomId game w' game'}, P roomId game → game.id ≠ 0 →
      timerExec w game = .ok (w', game') → P roomId game')
    (hrooms : ∀ (k : RoomId) (game : Game13), lobby.rooms[k]? = some game → P k game) :
    ∀ (k : RoomId) (game : Game13), lobby'.rooms[k]? = some game → P k game := by
  cases h with
  | speaks _ _ => exact hrooms
  | leaves _ _ _ => exact hrooms
  | draws _ => exact hrooms
  | opens _ _ _ =>
      intro k game hk
      rw [LobbySteps.getElem?_setRoom] at hk
      split_ifs at hk with hkey
      · cases hk
        exact hkey ▸ hopens _ _
      · exact hrooms k game hk
  | calls hgame hcall =>
      intro k game hk
      rw [LobbySteps.getElem?_setRoom] at hk
      split_ifs at hk with hkey
      · cases hk
        exact hkey ▸ hcalls hgame (hrooms _ _ hgame) hcall
      · exact hrooms k game hk
  | registers _ _ => exact hrooms
  | relogins _ _ => exact hrooms
  | forgets _ _ _ => exact hrooms
  | ticks hturns =>
      induction hturns with
      | refl => exact hrooms
      | tail _ hturn ih =>
          intro k game hk
          cases hturn with
          | execs hgame hid hexec =>
              rw [LobbySteps.getElem?_setRoom] at hk
              split_ifs at hk with hkey
              · cases hk
                exact hkey ▸ hexecs (ih _ _ hgame) hid hexec
              · exact ih k game hk
          | erases _ _ =>
              rw [Std.TreeMap.getElem?_erase] at hk
              split_ifs at hk
              exact ih k game hk

end Steps

section Keys

variable {lobby lobby' : LobbyState} {a : Event} {w w' : World} {game game' : Game13}

theorem keeps_enterRoom (w : World) (game : Game13) (client : ClientPtr) :
    Keeps w (enterRoom w game client).2.1 := by
  have hout := Admission.entering w game client
  generalize enterRoom w game client = out at hout
  cases hout with
  | stays _ _ => exact Keeps.refl w
  | refused text _ => exact (says_notice w client text).keeps
  | unpaid _ _ _ _ hsaid => exact hsaid.keeps
  | enters _ _ _ _ =>
      exact (relocates_setRoomId w client _).keeps.trans (says_afterEnterRoom _ _ _).keeps

theorem relocates_giveUpRoom (w : World) (game : Game13) (client : ClientPtr) (seat : Nat) :
    Relocates w (giveUpRoom w game client seat).1 := by
  unfold giveUpRoom
  cases game.status with
  | prepare =>
      dsimp only
      split_ifs
      · exact relocates_kickAll w _
      · exact relocates_removePlayer w game client
  | play | vote => exact relocates_checkAllVotes w _
  | settle => exact Relocates.refl w
  | settleAll | closed => exact relocates_removePlayer w game client

theorem relocates_voteRoom (w : World) (game : Game13) (seat : Nat) (vote : Vote) :
    Relocates w (voteRoom w game seat vote).1 := by
  unfold voteRoom
  dsimp only
  split_ifs
  · exact Relocates.refl w
  · exact relocates_checkAllVotes w _

theorem keeps_readyFlagRoom {seat : Nat} {newStatus : PlayerStatus}
    (h : readyFlagRoom w game seat newStatus = .ok (w', game')) : Keeps w w' := by
  simp only [readyFlagRoom] at h
  split_ifs at h
  · exact (says_sync w _).keeps.trans (keeps_tryStartRound h)
  · cases h
    exact (says_sync w _).keeps

theorem keeps_bringOutRoom {seat : Nat} {hand : Hand}
    (h : bringOutRoom w game seat hand = .ok (w', game')) : Keeps w w' := by
  obtain ⟨⟨w₁, game₁⟩, hsettle, h⟩ := bind_eq_ok.mp h
  have hsaid := (says_sync w (storeHand game seat hand)).trans (says_trySettleGame hsettle)
  dsimp only at h
  split_ifs at h
  · exact hsaid.keeps.trans (keeps_tryStartRound h)
  · cases h
    exact hsaid.keeps

theorem RoomCall.keeps {roomId : RoomId} (h : RoomCall w roomId game a w' game') : Keeps w w' := by
  cases h with
  | jions _ _ => exact keeps_enterRoom w game _
  | givesUp _ _ _ => exact (relocates_giveUpRoom w game _ _).keeps
  | votes _ _ _ => exact (relocates_voteRoom w game _ _).keeps
  | readies _ _ _ _ hready => exact keeps_readyFlagRoom hready
  | brings _ _ _ _ _ _ hbring => exact keeps_bringOutRoom hbring

theorem Turn.keeps (h : Turn lobby lobby') : Keeps lobby.world lobby'.world := by
  cases h with
  | execs _ _ hexec => exact keeps_timerExec hexec
  | erases _ _ => exact Keeps.refl _

theorem sameKeys_turns (h : Relation.ReflTransGen Turn lobby lobby') :
    Keeps lobby.world lobby'.world := by
  induction h with
  | refl => exact Keeps.refl _
  | tail _ hturn ih => exact ih.trans hturn.keeps

theorem Act.clients {P : ClientManager → Prop} (h : Act lobby a lobby')
    (hkeys : ∀ {m m'}, SameKeys m m' → P m → P m')
    (hregisters : ∀ {ccid openid name}, a = .loginQuest ccid openid name →
      lobby.world.clients.getByOpenid openid = none →
        P (registered lobby.world ccid openid name).clients)
    (hrelogins : ∀ {ccid openid name client}, a = .loginQuest ccid openid name →
      lobby.world.clients.getByOpenid openid = some client →
        P (relogged lobby.world client ccid).clients)
    (hP : P lobby.world.clients) : P lobby'.world.clients := by
  cases h with
  | speaks _ hsaid => exact hkeys hsaid.keeps.keys hP
  | leaves _ _ _ => exact hkeys (relocates_afterLeaveRoom _ _).keeps.keys hP
  | draws _ => exact hP
  | opens _ _ _ => exact hkeys (keeps_enterRoom _ _ _).keys hP
  | calls _ hcall => exact hkeys hcall.keeps.keys hP
  | registers hopenid hsaid => exact hkeys hsaid.keeps.keys (hregisters rfl hopenid)
  | relogins hopenid hsaid => exact hkeys hsaid.keeps.keys (hrelogins rfl hopenid)
  | forgets hopenid hsaid _ =>
      exact hkeys (hsaid.keeps.trans (relocates_setRoomId _ _ 0).keeps).keys (hrelogins rfl hopenid)
  | ticks hturns => exact hkeys (sameKeys_turns hturns).keys hP

end Keys

end CasualGame.Lobby.LobbyActs
