import CasualGame.Lib.Run
import CasualGame.Lobby.Room

/-!
The lobby process: its room registry, its message handlers and its timer, as a
system whose steps are the messages and ticks it works off one at a time.
-/

namespace CasualGame.Lobby

open Deck
open Dealing
open CalcRound
open Game13

structure LobbyState where
  world : World
  /-- `s_rooms`. A destroyed room has the id `0` and stays under its old one. -/
  rooms : Std.TreeMap RoomId Game13 := ∅
  lastRoomId : RoomId := 100000

/-- What the lobby works off: a message of a client or the gateway, or a tick of the
timer with the order in which the hash table of the rooms is traversed. -/
inductive Event
  | createGame (ccid : Ccid) (rcv : CreateGame)
  | jionGame (ccid : Ccid) (roomId : Int)
  | giveUp (ccid : Ccid)
  | voteFoAbortGame (ccid : Ccid) (vote : Vote)
  | readyFlag (ccid : Ccid) (ready : Bool)
  | bringOut (ccid : Ccid) (cards : List Int)
  | sendChat (ccid : Ccid) (type : ChatType) (dataInt : Int) (dataText : String)
  | loginQuest (ccid : Ccid) (openid name : String)
  | timer (now : Int) (order : List RoomId)

def toCard (x : Int) : Card := (x % 2 ^ 16).toNat

namespace LobbyState

variable (lobby : LobbyState)

def setWorld (w : World) : LobbyState := { lobby with world := w }

def setRoom (roomId : RoomId) (w : World) (game : Game13) : LobbyState :=
  { lobby with world := w, rooms := lobby.rooms.insert roomId game }

def notice (client : ClientPtr) (text : String) : LobbyState :=
  lobby.setWorld (lobby.world.noticeMessageBox client text)

def getRoomId : RoomId × LobbyState :=
  let roomId := (lobby.lastRoomId + 1) % 2 ^ 32
  (roomId, { lobby with lastRoomId := roomId })

def newGame (roomId : RoomId) (ownerCuid : Cuid) (rcv : CreateGame) : Game13 where
  id := roomId
  ownerCuid := ownerCuid
  attr := {
    roomId := roomId
    playType := if 52 < rcv.playType then .gp65 else .gp52
    rounds := rcv.rounds
    payor := toUInt32 rcv.payor
    daQiang := toUInt32 rcv.daQiang
    quanLeiDa := rcv.quanLeiDa
    yiTiaoLong := toUInt32 rcv.yiTiaoLong
    playerSize := toUInt32 rcv.playerSize }
  players := List.replicate (toUInt32 rcv.playerSize) {}

/-- The room is registered before its owner is let in, and stays when it is not. -/
def createGame (ccid : Ccid) (rcv : CreateGame) : LobbyState :=
  match lobby.world.getByCcid ccid with
  | none => lobby
  | some client =>
      if (lobby.world.client client).roomId ≠ 0 then
        lobby.notice client "已经在房间中, 无法创建新房间!"
      else
        let (roomId, lobby) := lobby.getRoomId
        if roomId ∈ lobby.rooms then lobby
        else
          let game := newGame roomId (lobby.world.client client).cuid rcv
          let (_, w, game) := enterRoom lobby.world game client
          lobby.setRoom roomId w game

def jionGame (ccid : Ccid) (roomId : Int) : LobbyState :=
  match lobby.world.getByCcid ccid with
  | none => lobby
  | some client =>
      match lobby.rooms[toUInt32 roomId]? with
      | none => lobby.notice client "要加入的房间已解散"
      | some game =>
          let (_, w, game) := enterRoom lobby.world game client
          lobby.setRoom (toUInt32 roomId) w game

def giveUpRoom (w : World) (game : Game13) (client : ClientPtr) (seat : Nat) :
    World × Game13 :=
  match game.status with
  | .prepare =>
      if (w.client client).cuid = game.ownerCuid then abortGame w game
      else removePlayer w game client
  | .play =>
      let game := { game with
        startVoteTime := w.timerTime
        voteSponsorCuid := (w.client client).cuid
        status := .vote }
      checkAllVotes w (game.updateSeat seat fun info => { info with vote := .aye })
  | .vote => checkAllVotes w (game.updateSeat seat fun info => { info with vote := .aye })
  | .settle => (w, game)
  | .settleAll | .closed => removePlayer w game client

def giveUp (ccid : Ccid) : LobbyState :=
  match lobby.world.getByCcid ccid with
  | none => lobby
  | some client =>
      let roomId := (lobby.world.client client).roomId
      if roomId = 0 then lobby.notice client "已经不在房间内了"
      else
        match lobby.rooms[roomId]? with
        | none => lobby.setWorld (lobby.world.afterLeaveRoom client)
        | some game =>
            match game.getPlayerInfoByCuid (lobby.world.client client).cuid with
            | none => lobby
            | some seat =>
                let (w, game) := giveUpRoom lobby.world game client seat
                lobby.setRoom roomId w game

def voteFoAbortGame (ccid : Ccid) (vote : Vote) : LobbyState :=
  match lobby.world.getByCcid ccid with
  | none => lobby
  | some client =>
      let roomId := (lobby.world.client client).roomId
      match lobby.rooms[roomId]? with
      | none => lobby.setWorld (lobby.world.afterLeaveRoom client)
      | some game =>
          if game.status ≠ .vote then lobby
          else
            match game.getPlayerInfoByCuid (lobby.world.client client).cuid with
            | none => lobby.setWorld (lobby.world.afterLeaveRoom client)
            | some seat =>
                let game := game.updateSeat seat fun info => { info with vote := vote }
                if vote = .none then lobby.setRoom roomId lobby.world game
                else
                  let (w, game) := checkAllVotes lobby.world game
                  lobby.setRoom roomId w game

def readyStatus (ready : Bool) : PlayerStatus := if ready then .ready else .prep

def readyFlagRoom (w : World) (game : Game13) (seat : Nat) (newStatus : PlayerStatus) :
    Except Fault (World × Game13) :=
  let game := game.updateSeat seat fun info => { info with status := newStatus }
  let w := syncAllPlayersInfoToAllClients w game
  if newStatus = .ready then tryStartRound w game else return (w, game)

def readyFlag (ccid : Ccid) (ready : Bool) : Except Fault LobbyState :=
  match lobby.world.getByCcid ccid with
  | none => return lobby
  | some client =>
      let roomId := (lobby.world.client client).roomId
      if roomId = 0 then return lobby.notice client "已经不在房间内了"
      else
        match lobby.rooms[roomId]? with
        | none => return lobby.setWorld (lobby.world.afterLeaveRoom client)
        | some game =>
            if game.status ≠ .prepare then return lobby.notice client "游戏已开始"
            else
              match game.getPlayerInfoByCuid (lobby.world.client client).cuid with
              | none => return lobby.setWorld (lobby.world.afterLeaveRoom client)
              | some seat =>
                  if (game.players[seat]?).map (·.status) = some (readyStatus ready) then
                    return lobby
                  else do
                    let (w, game) ← readyFlagRoom lobby.world game seat (readyStatus ready)
                    return lobby.setRoom roomId w game

/-- The seat takes the cards as they come; nothing compares them with the hand dealt. -/
def storeHand (game : Game13) (seat : Nat) (cards : Hand) : Game13 :=
  game.updateSeat seat fun info => { info with status := .compare, cards := cards }

def bringOutRoom (w : World) (game : Game13) (seat : Nat) (cards : Hand) :
    Except Fault (World × Game13) := do
  let game := storeHand game seat cards
  let w := syncAllPlayersInfoToAllClients w game
  let (w, game) ← trySettleGame w game
  if game.status = .settle then tryStartRound w game else return (w, game)

def bringOut (ccid : Ccid) (cards : List Int) : Except Fault LobbyState :=
  match lobby.world.getByCcid ccid with
  | none => return lobby
  | some client =>
      let roomId := (lobby.world.client client).roomId
      if roomId = 0 then return lobby.notice client "已经不在房间内了"
      else
        match lobby.rooms[roomId]? with
        | none => return lobby.setWorld (lobby.world.afterLeaveRoom client)
        | some game =>
            if game.status ≠ .play then return lobby.notice client "当前不能出牌(0x01)"
            else
              match game.getPlayerInfoByCuid (lobby.world.client client).cuid with
              | none => return lobby.setWorld (lobby.world.afterLeaveRoom client)
              | some seat =>
                  if (game.players[seat]?).map (·.status) ≠ some .sort then
                    return lobby.notice client "当前不能出牌0x02"
                  else if h : (cards.map toCard).length = 13 then do
                    let (w, game) ← bringOutRoom lobby.world game seat ⟨cards.map toCard, h⟩
                    return lobby.setRoom roomId w game
                  else return lobby.notice client "出牌数量不对"

def chatContent (type : ChatType) (dataInt : Int) (dataText : String) : ChatContent :=
  match type with
  | .text => .text dataText
  | .face => .face dataInt
  | .voice => .voice dataInt

def sendChat (ccid : Ccid) (type : ChatType) (dataInt : Int) (dataText : String) : LobbyState :=
  match lobby.world.getByCcid ccid with
  | none => lobby
  | some client =>
      match lobby.rooms[(lobby.world.client client).roomId]? with
      | none => lobby
      | some game =>
          let cuid := (lobby.world.client client).cuid
          lobby.setWorld (sendToOthers lobby.world game cuid
            (.chat cuid (chatContent type dataInt dataText)))

def clientOnline (client : ClientPtr) : LobbyState :=
  let roomId := (lobby.world.client client).roomId
  if roomId = 0 then lobby
  else
    match lobby.rooms[roomId]? with
    | none => lobby.setWorld (lobby.world.setRoomId client 0)
    | some game => lobby.setWorld (clientOnlineExec lobby.world game client)

/-- A login the maps refuse. A user already known is told so and then goes on. -/
def regFailed (w : World) (client : ClientPtr) (ccid : Ccid) : World :=
  w.sendToPrivate (.retLoginQuest .regFailed ccid (w.client client).cuid none)

def loginSucces (client : ClientPtr) (ccid : Ccid) : LobbyState :=
  let c := lobby.world.client client
  (lobby.setWorld (lobby.world.sendToPrivate
    (.retLoginQuest .succes ccid c.cuid (some c.openid)))).clientOnline client

def createClient (w : World) (ccid : Ccid) (openid name : String) : ClientPtr × World :=
  let (cuid, clients) := w.clients.getClientUniqueId
  let client : Client := { ccid := ccid, cuid := cuid, openid := openid, name := name }
  (clients.clients.length,
    { w with clients := { clients with clients := clients.clients ++ [client] } })

def loginQuest (ccid : Ccid) (openid name : String) : LobbyState :=
  match lobby.world.clients.getByOpenid openid with
  | none =>
      let (client, w) := createClient lobby.world ccid openid name
      let (inserted, clients) := w.clients.insert client
      let w := { w with clients := clients }
      if inserted then (lobby.setWorld w).loginSucces client ccid
      else
        let w := { w with clients := w.clients.erase client }
        lobby.setWorld (regFailed w client ccid)
  | some client =>
      let w := lobby.world
      let w := w.sendToPrivate
        (.clientBeReplaced (w.client client).ccid (w.client client).cuid (w.client client).openid)
      let w := { w with clients := w.clients.erase client }
      let w := { w with
        clients := w.clients.modifyClient client fun c => { c with ccid := ccid } }
      let (inserted, clients) := w.clients.insert client
      let w := { w with clients := clients }
      let w := if inserted then w else regFailed w client ccid
      (lobby.setWorld w).loginSucces client ccid

/-- The loop over the rooms ends at the first destroyed one, which it erases. -/
def timerExecRooms : List RoomId → LobbyState → Except Fault LobbyState
  | [], lobby => .ok lobby
  | roomId :: order, lobby =>
      match lobby.rooms[roomId]? with
      | none => timerExecRooms order lobby
      | some game =>
          if game.id = 0 then .ok { lobby with rooms := lobby.rooms.erase roomId }
          else do
            let (w, game) ← timerExec lobby.world game
            timerExecRooms order (lobby.setRoom roomId w game)

def timerExecAll (now : Int) (order : List RoomId) : Except Fault LobbyState :=
  timerExecRooms order (lobby.setWorld { lobby.world with timerTime := now })

def step : Event → Except Fault LobbyState
  | .createGame ccid rcv => return lobby.createGame ccid rcv
  | .jionGame ccid roomId => return lobby.jionGame ccid roomId
  | .giveUp ccid => return lobby.giveUp ccid
  | .voteFoAbortGame ccid vote => return lobby.voteFoAbortGame ccid vote
  | .readyFlag ccid ready => lobby.readyFlag ccid ready
  | .bringOut ccid cards => lobby.bringOut ccid cards
  | .sendChat ccid type dataInt dataText => return lobby.sendChat ccid type dataInt dataText
  | .loginQuest ccid openid name => return lobby.loginQuest ccid openid name
  | .timer now order => lobby.timerExecAll now order

def Allowed : Event → Prop
  | .timer _ order => order.Perm lobby.rooms.keys
  | _ => True

instance (a : Event) : Decidable (lobby.Allowed a) :=
  match a with
  | .timer _ order => inferInstanceAs (Decidable (order.Perm lobby.rooms.keys))
  | .createGame .. | .jionGame .. | .giveUp .. | .voteFoAbortGame .. | .readyFlag ..
  | .bringOut .. | .sendChat .. | .loginQuest .. => .isTrue trivial

def start (rg : Nat → Shuffle) : LobbyState := { world := { rg := rg } }

end LobbyState

/-- All runs of the lobby, for every random generator. -/
def lobbySystem : Lib.Run.System LobbyState Event Fault where
  Init lobby := ∃ rg, lobby = LobbyState.start rg
  Allowed lobby a := lobby.Allowed a
  step lobby a := lobby.step a

instance (lobby : LobbyState) (a : Event) : Decidable (lobbySystem.Allowed lobby a) :=
  inferInstanceAs (Decidable (lobby.Allowed a))

end CasualGame.Lobby
