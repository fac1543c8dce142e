import CasualGame.Lobby.CalcRound
import CasualGame.Lobby.ClientManager

/-! The functions of `Game13`: what they do to the room and to everything around it. -/

namespace CasualGame.Lobby

open Deck
open Dealing
open CalcRound

def MAX_VOTE_DURATION : Int := 300

/-- `PlayerInfo::clear`, which keeps the cards and the vote. -/
def PlayerInfo.clear (info : PlayerInfo) : PlayerInfo :=
  { info with cuid := 0, name := "", status := .none, money := 0 }

namespace Game13

def cuids (game : Game13) : List Cuid := game.players.map (·.cuid)

def getEmptySeatIndex (game : Game13) : Option Nat :=
  game.players.findIdx? fun info => info.cuid = 0

/-- The seat the pointer points into, `none` for `nullptr`. -/
def getPlayerInfoByCuid (game : Game13) (cuid : Cuid) : Option Nat :=
  game.players.findIdx? fun info => info.cuid = cuid

def updateSeat (game : Game13) (index : Nat) (f : PlayerInfo → PlayerInfo) : Game13 :=
  { game with players := game.players.modify index f }

def resetVotes (game : Game13) : Game13 :=
  { game with players := game.players.map fun info => { info with vote := .none } }

def destroyLater (game : Game13) : Game13 := { game with id := 0 }

def playersInRoom (game : Game13) : Msg :=
  .playersInRoom (game.players.map fun info => ⟨info.cuid, info.status, info.name, info.money⟩)
    game.rounds

def sendToAll (w : World) (game : Game13) (msg : Msg) : World :=
  w.sendToSeats (game.cuids.filter (· ≠ 0)) msg

def sendToOthers (w : World) (game : Game13) (cuid : Cuid) (msg : Msg) : World :=
  w.sendToSeats (game.cuids.filter fun c => c ≠ 0 ∧ c ≠ cuid) msg

def syncAllPlayersInfoToAllClients (w : World) (game : Game13) : World :=
  sendToAll w game game.playersInRoom

def remainSeconds (w : World) (game : Game13) : Int :=
  let elapse := w.timerTime - game.startVoteTime
  if elapse < MAX_VOTE_DURATION then MAX_VOTE_DURATION - elapse else 0

/-- During a round the client is sent the hands of all seats. -/
def afterEnterRoom (w : World) (game : Game13) (client : ClientPtr) : World :=
  let w := w.sendToMe client (.roomAttr game.attr.roomId game.ownerCuid game.attr)
  let w := syncAllPlayersInfoToAllClients w game
  let inRound := game.status = .play ∨ game.status = .vote
  let w := if inRound then
      game.players.foldl (fun w info => w.sendToMe client (.handOfMine info.cards)) w
    else w
  if game.status = .vote then
    w.sendToMe client (.abortGameOrNot (remainSeconds w game) game.voteSponsorCuid
      (game.players.map fun info => (info.cuid, info.vote)))
  else w

/-- Whether the client can pay its share; `none` for an unknown way to pay. -/
def checkMoney (w : World) (game : Game13) (client : ClientPtr) : Option Bool :=
  if game.attr.payor = PAY_BANKER then
    some (game.ownerCuid ≠ (w.client client).cuid || w.enoughMoney client 10)
  else if game.attr.payor = PAY_SHARE_EQU then some (w.enoughMoney client 5)
  else if game.attr.payor = PAY_WINNER then some (w.enoughMoney client 10)
  else none

/-- The seat is taken before the money is checked, and stays taken when it is short. -/
def enterRoom (w : World) (game : Game13) (client : ClientPtr) : Bool × World × Game13 :=
  let roomId := (w.client client).roomId
  if roomId ≠ 0 then
    if roomId = game.id then (true, w, game)
    else (false, w.noticeMessageBox client ("已经在" ++ toString roomId ++ "号房间中了!"), game)
  else if game.status ≠ .prepare then
    (false, w.noticeMessageBox client "进入失败, 此房间的游戏已经开始", game)
  else
    match game.getEmptySeatIndex with
    | none => (false, w.noticeMessageBox client "进入失败, 房间人数已满", game)
    | some index =>
        let game := game.updateSeat index fun info => { info with
          cuid := (w.client client).cuid
          name := (w.client client).name
          status := .prep
          money := (w.client client).money }
        match checkMoney w game client with
        | none => (false, w, game)
        | some false =>
            let text := if game.ownerCuid ≠ (w.client client).cuid then "创建失败, 钻石不足"
              else "进入失败, 钻石不足"
            (false, w.noticeMessageBox client text, game)
        | some true =>
            let w := w.setRoomId client game.id
            (true, afterEnterRoom w game client, game)

def clientOnlineExec (w : World) (game : Game13) (client : ClientPtr) : World :=
  if (w.client client).roomId = game.id ∧
      game.getPlayerInfoByCuid (w.client client).cuid = none then
    w.setRoomId client 0
  else afterEnterRoom w game client

def removePlayer (w : World) (game : Game13) (client : ClientPtr) : World × Game13 :=
  match game.getPlayerInfoByCuid (w.client client).cuid with
  | some index =>
      let w := w.afterLeaveRoom client
      let game := game.updateSeat index PlayerInfo.clear
      (syncAllPlayersInfoToAllClients w game, game)
  | none => (syncAllPlayersInfoToAllClients w game, game)

def kickAll (w : World) (cuids : List Cuid) : World :=
  cuids.foldl (fun w cuid =>
    match w.getByCuid cuid with
    | some client => w.afterLeaveRoom client
    | none => w) w

def abortGame (w : World) (game : Game13) : World × Game13 :=
  (kickAll w game.cuids, { game with players := [], status := .closed }.destroyLater)

section Start

def everyoneReady (w : World) (game : Game13) : Bool :=
  match game.status with
  | .prepare => game.players.all fun info =>
      info.cuid ≠ 0 && info.status = .ready && (w.getByCuid info.cuid).isSome
  | .settle => true
  | _ => game.players.all fun info => info.cuid ≠ 0 && info.status = .compare

def chargeFee (w : World) (game : Game13) (client : ClientPtr) (info : PlayerInfo) :
    World × PlayerInfo :=
  if game.rounds = 1 then
    if game.attr.payor = PAY_BANKER ∧ (w.client client).cuid = game.ownerCuid then
      (w.addMoney client (-10), { info with money := info.money - 10 })
    else if game.attr.payor = PAY_SHARE_EQU then
      (w.addMoney client (-5), { info with money := info.money - 5 })
    else (w, info)
  else (w, info)

def dealSeat (w : World) (game : Game13) (index : Nat) (info : PlayerInfo) :
    Except Fault (World × PlayerInfo) := do
  let cards ← dealHand w.deck index
  let info := { info with cards := sortHand cards }
  match w.getByCuid info.cuid with
  | some client =>
      let (w, info) := chargeFee w game client info
      return (w.sendToMe client (.handOfMine info.cards), { info with status := .sort })
  | none => return (w, { info with status := .sort })

def dealSeats (game : Game13) :
    World → Nat → List PlayerInfo → Except Fault (World × List PlayerInfo)
  | w, _, [] => .ok (w, [])
  | w, index, info :: infos => do
      let (w, info) ← dealSeat w game index info
      let (w, infos) ← dealSeats game w (index + 13) infos
      return (w, info :: infos)

def shuffleDeck (w : World) (playType : PlayType) : Except Fault World := do
  let deck ← initDeck playType w.deck
  return { w with deck := (w.rg w.shuffles).run deck, shuffles := w.shuffles + 1 }

def tryStartRound (w : World) (game : Game13) : Except Fault (World × Game13) :=
  if everyoneReady w game then do
    let game := { game with rounds := game.rounds + 1 }
    let w ← shuffleDeck w game.attr.playType
    let (w, players) ← dealSeats game w 0 game.players
    let game := { game with players := players }
    return (sendToAll w game game.playersInRoom, { game with status := .play })
  else return (w, game)

end Start

section Settle

def int32 (x : Int) : Except Fault Int :=
  if -2 ^ 31 ≤ x ∧ x < 2 ^ 31 then .ok x else .error .overflow

/-- The `bool daqiang` one round adds up for a seat. -/
def anyDaqiang (losers : LoserMap) : Bool :=
  losers.toList.foldl (fun daqiang item => daqiang.toInt + item.2.2 ≠ 0) false

def countSeat (count : FinalCount) (pd : PlayerData) : Except Fault FinalCount := do
  let win ← int32 (count.win + pd.losers.size)
  let daqiang ← int32 (count.daqiang + (anyDaqiang pd.losers).toInt)
  let quanleida ← int32 (if pd.quanLeiDa then count.quanleida + 1 else count.quanleida)
  let rank ← int32 (count.rank + pd.prize)
  return ⟨pd.cuid, win, daqiang, quanleida, rank⟩

def countRound : List FinalCount → List PlayerData → Except Fault (List FinalCount)
  | counts, [] => .ok counts
  | [], _ :: _ => .error .outOfBounds
  | count :: counts, pd :: pds => do
      let count ← countSeat count pd
      let counts ← countRound counts pds
      return count :: counts

def allFinalCount (size : Nat) (settleData : List RoundSettleData) :
    Except Fault (List FinalCount) :=
  settleData.foldlM (fun counts round => countRound counts round.players)
    (List.replicate size {})

/-- The hands as the players laid them out replace the sorted ones. -/
def withCards (rsd : RoundSettleData) (players : List PlayerInfo) : RoundSettleData :=
  ⟨List.zipWith (fun pd info => { pd with cards := info.cards }) rsd.players players⟩

def allHands (rsd : RoundSettleData) : Msg :=
  .allHands (rsd.players.map fun pd =>
    ⟨pd.cuid, pd.cards, pd.prize, pd.dun 0, pd.dun 1, pd.dun 2, pd.spec⟩)

def everyoneCompare (game : Game13) : Bool :=
  game.players.all fun info => info.cuid ≠ 0 && info.status = .compare

def trySettleGame (w : World) (game : Game13) : Except Fault (World × Game13) :=
  if game.status ≠ .play then return (w, game)
  else if !everyoneCompare game then return (w, game)
  else do
    let (curRound, game) ← calcRound game
    let curRound := withCards curRound game.players
    let game := { game with settleData := game.settleData ++ [curRound] }
    let w := sendToAll w game (allHands curRound)
    if game.attr.rounds ≤ game.rounds then
      let counts ← allFinalCount game.players.length game.settleData
      let w := sendToAll w game (.allRounds counts)
      return (w, { game with status := .settleAll, settleAllTime := w.timerTime })
    else return (w, { game with status := .settle })

end Settle

section Vote

/-- The loop over the votes: the number of ayes, the first opponent, and the votes
before it. -/
def scanVotes : List PlayerInfo → Nat × Cuid × List (Cuid × Vote)
  | [] => (0, 0, [])
  | info :: infos =>
      let (ayeSize, oppositionCuid, votes) := scanVotes infos
      match info.vote with
      | .nay => (0, info.cuid, [])
      | .aye => (ayeSize + 1, oppositionCuid, (info.cuid, .aye) :: votes)
      | .none => (ayeSize, oppositionCuid, (info.cuid, .none) :: votes)

def checkAllVotes (w : World) (game : Game13) : World × Game13 :=
  if game.status ≠ .vote then (w, game)
  else
    let (ayeSize, oppositionCuid, votes) := scanVotes game.players
    if oppositionCuid ≠ 0 then
      (w.sendToSeats game.cuids (.voteFailed oppositionCuid),
        { game.resetVotes with startVoteTime := 0, voteSponsorCuid := 0, status := .play })
    else if ayeSize = game.players.length then
      abortGame (w.sendToSeats game.cuids (.notice "全体通过, 游戏解散!"))
        { game.resetVotes with startVoteTime := 0, voteSponsorCuid := 0 }
    else
      (w.sendToSeats game.cuids
        (.abortGameOrNot (remainSeconds w game) game.voteSponsorCuid votes), game)

end Vote

def timerExec (w : World) (game : Game13) : Except Fault (World × Game13) :=
  match game.status with
  | .prepare => tryStartRound w game
  | .play => return (w, game)
  | .vote =>
      if MAX_VOTE_DURATION ≤ w.timerTime - game.startVoteTime then
        return abortGame (w.sendToSeats game.cuids (.notice "投票结束, 游戏解散!"))
          { game.resetVotes with startVoteTime := 0 }
      else return (w, game)
  | .settle => return (w, game)
  | .settleAll =>
      if 120 ≤ w.timerTime - game.settleAllTime then
        return abortGame w { game with settleAllTime := 0 }
      else return (w, game)
  | .closed => return (w, game.destroyLater)

end Game13

end CasualGame.Lobby
