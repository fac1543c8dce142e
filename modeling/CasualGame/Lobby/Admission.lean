import CasualGame.Lobby.AllRounds
import CasualGame.Lobby.WorldFrames

/-!
Admission to a room: how `enterRoom` comes out, and when a client that is turned away
leaves no trace, neither in the seats of the room nor in the registry. There is memory for all
the seats that a game asks for, also for the 4294967295 of a `player_size` of -1.
-/

namespace CasualGame.Lobby.Admission

open Deck
open Dealing
open Game13
open Lib.Run
open WorldFrames

section Entering

def takenBy (client : Client) (info : PlayerInfo) : PlayerInfo :=
  { info with cuid := client.cuid, name := client.name, status := .prep, money := client.money }

/-- The room after the client has written itself into a seat. -/
def withSeat (w : World) (game : Game13) (client : ClientPtr) (index : Nat) : Game13 :=
  game.updateSeat index (takenBy (w.client client))

/-- How `enterRoom` comes out. A client that cannot pay is refused with its name
already in the seat. -/
inductive Entering (w : World) (game : Game13) (client : ClientPtr) :
    Bool × World × Game13 → Prop
  | stays : (w.client client).roomId ≠ 0 → (w.client client).roomId = game.id →
      Entering w game client (true, w, game)
  | refused (text : String) : (w.client client).roomId ≠ 0 ∧ (w.client client).roomId ≠ game.id ∨
      game.status ≠ .prepare ∨ game.getEmptySeatIndex = none →
      Entering w game client (false, w.noticeMessageBox client text, game)
  | unpaid {index : Nat} {w' : World} : (w.client client).roomId = 0 → game.status = .prepare →
      game.getEmptySeatIndex = some index → checkMoney w game client ≠ some true → Says w w' →
      Entering w game client (false, w', withSeat w game client index)
  | enters {index : Nat} : (w.client client).roomId = 0 → game.status = .prepare →
      game.getEmptySeatIndex = some index → checkMoney w game client = some true →
      Entering w game client (true, afterEnterRoom (w.setRoomId client game.id)
        (withSeat w game client index) client, withSeat w game client index)

theorem entering (w : World) (game : Game13) (client : ClientPtr) :
    Entering w game client (enterRoom w game client) := by
  unfold enterRoom
  dsimp only
  by_cases hin : (w.client client).roomId ≠ 0
  · rw [if_pos hin]
    split_ifs with hhere
    · exact .stays hin hhere
    · exact .refused _ (Or.inl ⟨hin, hhere⟩)
  rw [if_neg hin]
  rw [not_not] at hin
  by_cases hstatus : game.status ≠ .prepare
  · rw [if_pos hstatus]
    exact .refused _ (Or.inr (Or.inl hstatus))
  rw [if_neg hstatus]
  rw [not_not] at hstatus
  cases hseat : game.getEmptySeatIndex with
  | none => exact .refused _ (Or.inr (Or.inr hseat))
  | some index =>
      -- the check reads the way to pay and the owner, which a seat does not change
      dsimp only
      split
      · rename_i hcheck
        have hmoney : checkMoney w game client = none := hcheck
        exact .unpaid hin hstatus hseat (by simp [hmoney]) (Says.refl w)
      · rename_i hcheck
        have hmoney : checkMoney w game client = some false := hcheck
        exact .unpaid hin hstatus hseat (by simp [hmoney]) (says_notice w client _)
      · rename_i hcheck
        exact .enters hin hstatus hseat hcheck

theorem enterRoom_game {P : Game13 → Prop} {game : Game13} (w : World) (client : ClientPtr)
    (hgame : P game)
    (hseat : ∀ index, game.status = .prepare → game.getEmptySeatIndex = some index →
      P (withSeat w game client index)) : P (enterRoom w game client).2.2 := by
  have hout := entering w game client
  generalize Game13.enterRoom w game client = out at hout
  cases hout with
  | stays _ _ => exact hgame
  | refused _ _ => exact hgame
  | unpaid _ hprepare hindex _ _ => exact hseat _ hprepare hindex
  | enters _ hprepare hindex _ => exact hseat _ hprepare hindex

theorem getEmptySeatIndex_lt {game : Game13} {index : Nat}
    (h : game.getEmptySeatIndex = some index) : index < game.players.length :=
  (List.findIdx?_eq_some_iff_getElem.mp h).1

theorem getEmptySeatIndex_cuid {game : Game13} {index : Nat} {info : PlayerInfo}
    (h : game.getEmptySeatIndex = some index) (hinfo : game.players[index]? = some info) :
    info.cuid = 0 := by
  obtain ⟨hlen, hempty, -⟩ := List.findIdx?_eq_some_iff_getElem.mp h
  rw [List.getElem?_eq_getElem hlen, Option.some.injEq] at hinfo
  simpa [hinfo] using hempty

theorem getElem?_withSeat (w : World) (game : Game13) (client : ClientPtr) (index k : Nat) :
    (withSeat w game client index).players[k]? =
      if index = k then (game.players[k]?).map (takenBy (w.client client))
      else game.players[k]? := by
  simp only [withSeat, updateSeat, List.getElem?_modify]
  split_ifs
  · rfl
  · simp

theorem withSeat_players_eq {w : World} {game : Game13} {client : ClientPtr} {index : Nat}
    (hlen : index < game.players.length) :
    (withSeat w game client index).players = game.players ↔
      takenBy (w.client client) game.players[index] = game.players[index] := by
  constructor
  · intro h
    have hget := getElem?_withSeat w game client index index
    rw [h, if_pos rfl, List.getElem?_eq_getElem hlen, Option.map_some, Option.some.injEq] at hget
    exact hget.symm
  · intro h
    apply List.ext_getElem?
    intro k
    rw [getElem?_withSeat]
    split_ifs with hk
    · subst hk
      rw [List.getElem?_eq_getElem hlen, Option.map_some, h]
    · rfl

end Entering

section Outcomes

/-- A client that is turned away leaves the seats as they were, and keeps its room
number and its money. -/
def EntersOrKeeps (w : World) (game : Game13) (client : ClientPtr) : Prop :=
  (enterRoom w game client).1 = false →
    (enterRoom w game client).2.2.players = game.players ∧
      ((enterRoom w game client).2.1.client client).roomId = (w.client client).roomId ∧
        ((enterRoom w game client).2.1.client client).money = (w.client client).money

/-- The client is refused before it gets to a seat, or can pay for the one it gets, or
finds a seat with its own data in it. -/
def RefusedInTime (w : World) (game : Game13) (client : ClientPtr) : Prop :=
  (w.client client).roomId ≠ 0 ∨ game.status ≠ .prepare ∨ checkMoney w game client = some true ∨
    ∀ index info, game.getEmptySeatIndex = some index → game.players[index]? = some info →
      takenBy (w.client client) info = info

/-- The sender of a message has a seat in a room that the step has opened. -/
def SeatedInNewRoom (lobby : LobbyState) (ccid : Ccid) (lobby' : LobbyState) : Prop :=
  ∃ (client : ClientPtr) (roomId : RoomId) (game' : Game13),
    lobby.world.getByCcid ccid = some client ∧ roomId ∉ lobby.rooms ∧
      lobby'.rooms[roomId]? = some game' ∧ roomId ≠ 0 ∧
        (lobby'.world.client client).roomId = roomId ∧
          (game'.getPlayerInfoByCuid (lobby'.world.client client).cuid).isSome

/-- Where no seat in a new room comes of it, creating a game leaves no new room. -/
def OpensOrKeeps (lobby : LobbyState) (ccid : Ccid) (rcv : CreateGame) : Prop :=
  ¬ SeatedInNewRoom lobby ccid (lobby.createGame ccid rcv) →
    ∀ roomId ∈ (lobby.createGame ccid rcv).rooms, roomId ∈ lobby.rooms

/-- No room comes to be registered, or its owner gets in: there is a seat, it can pay,
and the number drawn is one of a room. -/
def OpensForOwner (lobby : LobbyState) (ccid : Ccid) (rcv : CreateGame) : Prop :=
  ∀ client, lobby.world.getByCcid ccid = some client → (lobby.world.client client).roomId = 0 →
    lobby.getRoomId.1 ∉ lobby.rooms →
      lobby.getRoomId.1 ≠ 0 ∧ CalcRound.toUInt32 rcv.playerSize ≠ 0 ∧
        checkMoney lobby.world (LobbyState.newGame lobby.getRoomId.1
          (lobby.world.client client).cuid rcv) client = some true

theorem entersOrKeeps_iff (w : World) (game : Game13) (client : ClientPtr) :
    EntersOrKeeps w game client ↔ RefusedInTime w game client := by
  unfold EntersOrKeeps RefusedInTime
  have hout := entering w game client
  generalize enterRoom w game client = out at hout
  cases hout with
  | stays hin _ => simp [hin]
  | refused text hwhy =>
      refine iff_of_true (fun _ => ⟨rfl, rfl, rfl⟩) ?_
      rcases hwhy with ⟨hin, -⟩ | hstatus | hfull
      · exact Or.inl hin
      · exact Or.inr (Or.inl hstatus)
      · exact Or.inr (Or.inr (Or.inr (by simp [hfull])))
  | enters hout hstatus hseat hmoney => simp [hmoney]
  | unpaid hout hstatus hseat hmoney hsaid =>
      have hlen := getEmptySeatIndex_lt hseat
      simp only [hout, hstatus, hmoney, hseat, hsaid.client, ne_eq, not_true_eq_false, false_or,
        true_implies, and_true, withSeat_players_eq hlen, Option.some.injEq]
      constructor
      · rintro h index info rfl hinfo
        rw [List.getElem?_eq_getElem hlen, Option.some.injEq] at hinfo
        exact hinfo ▸ h
      · intro h
        exact h _ _ rfl (List.getElem?_eq_getElem hlen)

end Outcomes

section CreateGame

variable {lobby : LobbyState} {ccid : Ccid} {rcv : CreateGame} {client : ClientPtr}

/-- The game as its owner finds it. -/
def opened (lobby : LobbyState) (rcv : CreateGame) (client : ClientPtr) : Game13 :=
  LobbyState.newGame lobby.getRoomId.1 (lobby.world.client client).cuid rcv

theorem createGame_opens (hclient : lobby.world.getByCcid ccid = some client)
    (hout : (lobby.world.client client).roomId = 0) (hnew : lobby.getRoomId.1 ∉ lobby.rooms) :
    lobby.createGame ccid rcv = { lobby with lastRoomId := lobby.getRoomId.1 }.setRoom
      lobby.getRoomId.1 (enterRoom lobby.world (opened lobby rcv client) client).2.1
      (enterRoom lobby.world (opened lobby rcv client) client).2.2 := by
  simp only [LobbyState.createGame, hclient, hout, ne_eq, not_true_eq_false, if_false]
  exact if_neg hnew

theorem createGame_rooms_of_not (h : ∀ client, lobby.world.getByCcid ccid = some client →
    (lobby.world.client client).roomId = 0 → lobby.getRoomId.1 ∈ lobby.rooms) :
    (lobby.createGame ccid rcv).rooms = lobby.rooms := by
  simp only [LobbyState.createGame]
  cases hclient : lobby.world.getByCcid ccid with
  | none => rfl
  | some client =>
      dsimp only
      split_ifs with hin hold
      · rfl
      · rfl
      · rw [not_not] at hin
        exact absurd (h client hclient hin) hold

theorem getEmptySeatIndex_opened :
    (opened lobby rcv client).getEmptySeatIndex = none ↔
      CalcRound.toUInt32 rcv.playerSize = 0 := by
  simp [opened, LobbyState.newGame, getEmptySeatIndex, List.findIdx?_replicate]

theorem seat_of_withSeat (w : World) (client : ClientPtr) {game : Game13} {index : Nat}
    (hlen : index < game.players.length) :
    ((withSeat w game client index).getPlayerInfoByCuid (w.client client).cuid).isSome := by
  simp only [getPlayerInfoByCuid, List.findIdx?_isSome, List.any_eq_true, decide_eq_true_eq]
  have hseat := getElem?_withSeat w game client index index
  rw [if_pos rfl, List.getElem?_eq_getElem hlen, Option.map_some] at hseat
  exact ⟨_, List.mem_of_getElem? hseat, rfl⟩

theorem seatedInNewRoom_iff (rcv : CreateGame)
    (hclient : lobby.world.getByCcid ccid = some client)
    (hptr : client < lobby.world.clients.clients.length)
    (hout : (lobby.world.client client).roomId = 0) (hnew : lobby.getRoomId.1 ∉ lobby.rooms) :
    SeatedInNewRoom lobby ccid (lobby.createGame ccid rcv) ↔
      lobby.getRoomId.1 ≠ 0 ∧ CalcRound.toUInt32 rcv.playerSize ≠ 0 ∧
        checkMoney lobby.world (opened lobby rcv client) client = some true := by
  rw [createGame_opens hclient hout hnew]
  have hentering := entering lobby.world (opened lobby rcv client) client
  generalize enterRoom lobby.world (opened lobby rcv client) client = out at hentering
  have hseated : ∀ w game, SeatedInNewRoom lobby ccid
      ({ lobby with lastRoomId := lobby.getRoomId.1 }.setRoom lobby.getRoomId.1 w game) ↔
        lobby.getRoomId.1 ≠ 0 ∧ (w.client client).roomId = lobby.getRoomId.1 ∧
          (game.getPlayerInfoByCuid (w.client client).cuid).isSome := by
    intro w game
    constructor
    · rintro ⟨client', roomId, game', hclient', hroomId, hgame', hzero, hin, hseat⟩
      rw [hclient, Option.some.injEq] at hclient'
      subst hclient'
      rw [LobbySteps.getElem?_setRoom] at hgame'
      split_ifs at hgame' with hk
      · cases hgame'
        exact ⟨hk ▸ hzero, hk ▸ hin, hseat⟩
      · exact absurd (Std.TreeMap.mem_iff_isSome_getElem?.mpr (by rw [hgame']; rfl)) hroomId
    · rintro ⟨hzero, hin, hseat⟩
      refine ⟨client, _, game, hclient, hnew, ?_, hzero, hin, hseat⟩
      rw [LobbySteps.getElem?_setRoom, if_pos rfl]
  have hopen : (opened lobby rcv client).status = .prepare := rfl
  cases hentering with
  | stays hin _ => exact absurd hout hin
  | refused text hwhy =>
      have hfull : (opened lobby rcv client).getEmptySeatIndex = none := by
        simpa [hout, hopen] using hwhy
      rw [hseated]
      constructor
      · rintro ⟨hzero, hin, -⟩
        exact absurd (hin.symm.trans hout) hzero
      · rintro ⟨-, hsize, -⟩
        exact absurd (getEmptySeatIndex_opened.mp hfull) hsize
  | unpaid _ _ hseat hmoney hsaid =>
      rw [hseated, hsaid.client, hout]
      constructor
      · rintro ⟨hzero, hin, -⟩
        exact absurd hin.symm hzero
      · rintro ⟨-, -, hpays⟩
        exact absurd hpays hmoney
  | @enters index _ _ hseat hmoney =>
      have hsize : CalcRound.toUInt32 rcv.playerSize ≠ 0 := fun hzero => by
        simp [getEmptySeatIndex_opened.mpr hzero] at hseat
      have hin := client_setRoomId lobby.world client client (opened lobby rcv client).id
      rw [if_pos ⟨rfl, hptr⟩] at hin
      rw [hseated, (says_afterEnterRoom _ _ _).client, hin]
      have hfound := seat_of_withSeat lobby.world client (getEmptySeatIndex_lt hseat)
      exact ⟨fun h => ⟨h.1, hsize, hmoney⟩, fun h => ⟨h.1, rfl, hfound⟩⟩

theorem opensOrKeeps_iff (rcv : CreateGame) (hptr : ∀ client,
    lobby.world.getByCcid ccid = some client → client < lobby.world.clients.clients.length) :
    OpensOrKeeps lobby ccid rcv ↔ OpensForOwner lobby ccid rcv := by
  by_cases hopens : ∃ client, lobby.world.getByCcid ccid = some client ∧
      (lobby.world.client client).roomId = 0 ∧ lobby.getRoomId.1 ∉ lobby.rooms
  · obtain ⟨client, hclient, hout, hnew⟩ := hopens
    have hseated := seatedInNewRoom_iff rcv hclient (hptr client hclient) hout hnew
    have hregistered : lobby.getRoomId.1 ∈ (lobby.createGame ccid rcv).rooms := by
      rw [createGame_opens hclient hout hnew]
      exact Std.TreeMap.mem_insert_self
    constructor
    · intro hkeeps client' hclient' _ _
      rw [hclient, Option.some.injEq] at hclient'
      subst hclient'
      apply hseated.mp
      by_contra hnot
      exact hnew (hkeeps hnot _ hregistered)
    · intro howner hnot
      exact absurd (hseated.mpr (howner client hclient hout hnew)) hnot
  · have hold : ∀ client, lobby.world.getByCcid ccid = some client →
        (lobby.world.client client).roomId = 0 → lobby.getRoomId.1 ∈ lobby.rooms := by
      intro client hclient hout
      by_contra hnew
      exact hopens ⟨client, hclient, hout, hnew⟩
    apply iff_of_true
    · intro _ roomId hroom
      rwa [createGame_rooms_of_not hold] at hroom
    · intro client hclient hout hnew
      exact absurd (hold client hclient hout) hnew

end CreateGame

section Admission

/-- Nobody turned away leaves a trace exactly when nobody gets as far as a seat it
cannot pay for. -/
theorem admission_iff (w : World) (game : Game13) (client : ClientPtr) (lobby : LobbyState)
    (ccid : Ccid) (rcv : CreateGame) (hptr : ∀ client,
      lobby.world.getByCcid ccid = some client → client < lobby.world.clients.clients.length) :
    (EntersOrKeeps w game client ↔ RefusedInTime w game client) ∧
      (OpensOrKeeps lobby ccid rcv ↔ OpensForOwner lobby ccid rcv) :=
  ⟨entersOrKeeps_iff w game client, opensOrKeeps_iff rcv hptr⟩

/-- One client has logged in. -/
def oneClient : LobbyState :=
  lobbySystem.after (LobbyState.start fun _ => Shuffle.id) [.loginQuest 11 "11" ""]

theorem oneClient_reaches : lobbySystem.Reaches (fun _ _ => True) oneClient :=
  .after (.init ⟨_, rfl⟩) (by decide +kernel)

def payedBy (payor : Int) : CreateGame := ⟨4, 52, 1, payor, 3, false, 1⟩

def gamePayedBy (payor : Int) : Game13 := LobbyState.newGame 100001 1 (payedBy payor)

theorem admission_iff_oneClient :
    (EntersOrKeeps oneClient.world (gamePayedBy 10) 0 ↔
        RefusedInTime oneClient.world (gamePayedBy 10) 0) ∧
      (OpensOrKeeps oneClient 11 (payedBy 10) ↔ OpensForOwner oneClient 11 (payedBy 10)) := by
  refine admission_iff oneClient.world (gamePayedBy 10) 0 oneClient 11 (payedBy 10) ?_
  decide +kernel

/-- With an unknown way to pay the owner is turned away, its name stays in the first
seat, and the room stays registered. -/
theorem unknown_payor_leaves_room :
    (¬ ∀ (w : World) (game : Game13) (client : ClientPtr), EntersOrKeeps w game client) ∧
      ¬ ∀ (lobby : LobbyState) (ccid : Ccid) (rcv : CreateGame),
        lobbySystem.Reaches (fun _ _ => True) lobby → OpensOrKeeps lobby ccid rcv := by
  constructor
  · intro hall
    have hkept := (hall oneClient.world (gamePayedBy 13) 0 (by decide +kernel)).1
    have hseats : (enterRoom oneClient.world (gamePayedBy 13) 0).2.2.cuids = [1, 0, 0, 0] := by
      decide +kernel
    rw [cuids, hkept] at hseats
    exact absurd hseats (by decide +kernel)
  · intro hall
    have hptr : ∀ client, oneClient.world.getByCcid 11 = some client →
        client < oneClient.world.clients.clients.length := by
      decide +kernel
    have howner := (opensOrKeeps_iff (payedBy 13) hptr).mp (hall _ 11 _ oneClient_reaches)
    obtain ⟨-, -, hpays⟩ := howner 0 (by decide +kernel) (by decide +kernel) (by decide +kernel)
    exact absurd hpays (by decide +kernel)

end Admission

end CasualGame.Lobby.Admission
