import CasualGame.Lobby.Types

namespace CasualGame.Lobby

open Deck

/-- `C_SendChat` as it is passed on, with the data of its type. -/
inductive ChatContent
  | text (data : String)
  | face (data : Int)
  | voice (data : Int)
  deriving DecidableEq

structure PlayerEntry where
  cuid : Cuid
  status : PlayerStatus
  name : String
  money : Int
  deriving DecidableEq

/-- `S_G13_AllHands::Player`. The point of `spec` is always `0`. -/
structure HandResult where
  cuid : Cuid
  cards : Hand
  rank : Int
  dun0 : BrandInfo
  dun1 : BrandInfo
  dun2 : BrandInfo
  spec : G13SpecialBrand
  deriving DecidableEq

/-- `FinalCount`, sent as `S_G13_AllRounds::Player`. -/
structure FinalCount where
  cuid : Cuid := 0
  win : Int := 0
  daqiang : Int := 0
  quanleida : Int := 0
  rank : Int := 0
  deriving DecidableEq

/-- The `S_` messages of the lobby. A notice is always a `MSG_BOX`. -/
inductive Msg
  | notice (text : String)
  | chat (cuid : Cuid) (content : ChatContent)
  | roomAttr (roomId : RoomId) (bankerCuid : Cuid) (attr : Attr)
  | playersInRoom (players : List PlayerEntry) (rounds : Int)
  | abortGameOrNot (remainSeconds : Int) (sponsor : Cuid) (votes : List (Cuid × Vote))
  | voteFailed (opponent : Cuid)
  | playerQuited
  | handOfMine (cards : Hand)
  | allHands (players : List HandResult)
  | allRounds (players : List FinalCount)
  deriving DecidableEq

/-- `RetLoginQuest_RetCode`, of which the lobby uses two. -/
inductive RetCode
  | regFailed | succes
  deriving DecidableEq

inductive PrivateMsg
  | retLoginQuest (retCode : RetCode) (ccid : Ccid) (cuid : Cuid) (openid : Option String)
  | clientBeReplaced (ccid : Ccid) (cuid : Cuid) (openid : String)
  deriving DecidableEq

/-- What leaves the lobby: a message relayed to a connection, or one for the gateway. -/
inductive Outgoing
  | relay (ccid : Ccid) (msg : Msg)
  | gateway (msg : PrivateMsg)
  deriving DecidableEq

structure CreateGame where
  playerSize : Int
  playType : Int
  rounds : Int
  payor : Int
  daQiang : Int
  quanLeiDa : Bool
  yiTiaoLong : Int

/-- `C_SendChat`; a field that is not set reads as its default. -/
inductive ChatType
  | text | face | voice
  deriving DecidableEq

end CasualGame.Lobby
