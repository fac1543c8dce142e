import Std.Data.TreeMap
import Mathlib.Algebra.Group.Int.Defs
import Mathlib.Algebra.GroupWithZero.Nat
import CasualGame.Lobby.Deck

namespace CasualGame.Lobby

open Deck

abbrev RoomId := Nat

/-- `ClientUniqueId`; `0` is `INVALID_CUID` and marks an empty seat. -/
abbrev Cuid := Nat

abbrev Ccid := Nat

/-- How the process can leave defined behaviour: a failed `assert`, an access outside
a vector, or an `int32_t` counter that runs over. -/
inductive Fault
  | assertFailed
  | outOfBounds
  | overflow
  deriving DecidableEq, Repr

inductive PlayType
  | gp52 | gp65
  deriving DecidableEq, Repr

/-- `S_G13_PlayersInRoom::Status`. -/
inductive PlayerStatus
  | none | prep | ready | sort | compare | done
  deriving DecidableEq, Repr

inductive Vote
  | none | aye | nay
  deriving DecidableEq, Repr

inductive GameStatus
  | prepare | play | vote | settle | settleAll | closed
  deriving DecidableEq, Repr

def PAY_BANKER : Nat := 10
def PAY_SHARE_EQU : Nat := 11
def PAY_WINNER : Nat := 12

abbrev Hand := { cards : List Card // cards.length = 13 }

/-- The cards of a seat nobody has dealt to. The source leaves them uninitialised
and reads no hand before a deal. -/
def Hand.undealt : Hand := ⟨List.replicate 13 0, rfl⟩

def Hand.sortAt (off size : Nat) (hand : Hand) : Hand :=
  ⟨Deck.sortAt off size hand.1, by simp [hand.2]⟩

/-- `Game13::m_attr`, fixed when the room is created. -/
structure Attr where
  roomId : RoomId := 0
  playType : PlayType := .gp52
  rounds : Int := 0
  payor : Nat := PAY_BANKER
  daQiang : Nat := 3
  quanLeiDa : Bool := false
  yiTiaoLong : Nat := 1
  playerSize : Nat := 0
  deriving DecidableEq

structure PlayerInfo where
  cuid : Cuid := 0
  name : String := ""
  status : PlayerStatus := .none
  money : Int := 0
  cards : Hand := Hand.undealt
  vote : Vote := .none
  deriving DecidableEq

/-- A hand has the rows `0`, `1` and `2`. -/
instance neZeroRows : NeZero 3 := ⟨by decide⟩

/-- `<loserIndex, <price, 打枪>>`. -/
abbrev LoserMap := Std.TreeMap Nat (Int × Int)

/-- `RoundSettleData::PlayerData`. -/
structure PlayerData where
  cuid : Cuid
  name : String
  cards : Hand
  dun : Fin 3 → BrandInfo
  spec : G13SpecialBrand
  prize : Int := 0
  losers : LoserMap := ∅
  quanLeiDa : Bool := false

structure RoundSettleData where
  players : List PlayerData

structure Game13 where
  /-- `Room::m_id`, `0` once the room is to be destroyed. -/
  id : RoomId
  ownerCuid : Cuid
  attr : Attr := {}
  players : List PlayerInfo := []
  status : GameStatus := .prepare
  rounds : Int := 0
  startVoteTime : Int := 0
  voteSponsorCuid : Cuid := 0
  settleAllTime : Int := 0
  settleData : List RoundSettleData := []

end CasualGame.Lobby
