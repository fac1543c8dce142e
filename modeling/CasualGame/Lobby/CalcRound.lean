import Mathlib.Logic.Function.Basic
import CasualGame.Lib.Loop
import CasualGame.Lobby.Types

namespace CasualGame.Lobby.CalcRound

open Deck
open Lib.Loop

def toUInt32 (x : Int) : Nat := (x % 2 ^ 32).toNat

def toInt32 (x : Nat) : Int := if x < 2 ^ 31 then x else x - 2 ^ 32

/-- One pass of the first loop: the hand is copied, its rows are ranked, and the
copy ends up sorted. -/
def playerData (info : PlayerInfo) : PlayerData :=
  let cards := info.cards
  let dun0 := brandInfo (cards.1.take 3) 3
  let cards := cards.sortAt 0 3
  let dun1 := brandInfo ((cards.1.drop 3).take 5) 5
  let cards := cards.sortAt 3 5
  let dun2 := brandInfo (cards.1.drop 8) 5
  let cards := cards.sortAt 8 5
  { cuid := info.cuid
    name := info.name
    cards := cards.sortAt 0 13
    dun := ![dun0, dun1, dun2]
    spec := g13SpecialBrand cards.1 dun1.b dun2.b }

/-- `suit` and `rank` assert every card of the hand. -/
def fillPlayerData (info : PlayerInfo) : Except Fault PlayerData :=
  if ∀ card ∈ info.cards.1, InRange card then .ok (playerData info)
  else .error .assertFailed

def setLoser (winner loser : Nat) (entry : Int × Int) (datas : List PlayerData) :
    List PlayerData :=
  datas.modify winner fun data => { data with losers := data.losers.insert loser entry }

def specCmpValue (spec : G13SpecialBrand) : Nat := spec.value % 10

def specPrize : G13SpecialBrand → Int
  | .flushStriaght => 104
  | .straight => 52
  | .royal | .tripleStraightFlush | .tripleBombs => 26
  | .allBig | .allLittle | .redOrBlack | .quradThreeOfKind | .pentaPairsAndThreeOfKind
  | .sixPairs | .tripleStraight | .tripleFlush => 6
  | .none => 0

/-- The pass for two seats of which one has a special brand the other lacks.
`specWinner` refers to `datas[specWinner]`. -/
def specialPass (i j : Nat) (dataI dataJ : PlayerData) (datas : List PlayerData) :
    ForInStep (List PlayerData) :=
  let specCmpValueI := specCmpValue dataI.spec
  let specCmpValueJ := specCmpValue dataJ.spec
  if specCmpValueI = specCmpValueJ then .yield datas
  else
    let specWinner := if specCmpValueJ < specCmpValueI then i else j
    let prize := specPrize (if specCmpValueJ < specCmpValueI then dataI.spec else dataJ.spec)
    if specCmpValueJ < specCmpValueI then .yield (setLoser specWinner i (prize, 0) datas)
    else .yield (setLoser specWinner j (prize, 0) datas)

/-- The second and the third entry both set the middle row of `I` against the
tail row of `J`. -/
def dunCmps (dataI dataJ : PlayerData) : Fin 3 → Nat :=
  ![cmpBrandInfo (dataI.dun 0) (dataJ.dun 0),
    cmpBrandInfo (dataI.dun 1) (dataJ.dun 2),
    cmpBrandInfo (dataI.dun 1) (dataJ.dun 2)]

/-- One of the rules 4 to 8: what the winner of a row gets extra for a brand. -/
structure ExtraRule where
  d : Fin 3
  brand : Brand
  extra : Int

def extraRules : List ExtraRule :=
  [⟨0, .threeOfKind, 2⟩,
   ⟨1, .fullHouse, 1⟩,
   ⟨1, .fiveOfKind, 19⟩, ⟨2, .fiveOfKind, 9⟩,
   ⟨1, .straightFlush, 9⟩, ⟨2, .straightFlush, 4⟩,
   ⟨1, .fourOfKind, 7⟩, ⟨2, .fourOfKind, 3⟩]

/-- `extra` is unsigned in the source; the sums stay small, so that adding it to
and taking it from an `int32_t` modulo `2 ^ 32` is exact. -/
def applyExtra (cmps : Fin 3 → Nat) (dataI dataJ : PlayerData) (prize : Fin 3 → Int)
    (rule : ExtraRule) : Fin 3 → Int :=
  if cmps rule.d ≠ 0 then
    if cmps rule.d = 1 ∧ (dataI.dun rule.d).b = rule.brand then
      Function.update prize rule.d (prize rule.d + rule.extra)
    else if cmps rule.d = 2 ∧ (dataJ.dun rule.d).b = rule.brand then
      Function.update prize rule.d (prize rule.d - rule.extra)
    else prize
  else prize

def dunPrize (dataI dataJ : PlayerData) : Fin 3 → Int :=
  let cmps := dunCmps dataI dataJ
  let prize : Fin 3 → Int := fun d =>
    match cmps d with
    | 1 => 1
    | 2 => -1
    | _ => 0
  extraRules.foldl (applyExtra cmps dataI dataJ) prize

/-- The pass for two seats with the same special brand. `prize` is unsigned, so
it is positive whenever it is not zero; the second test for `打枪` repeats the first. -/
def ordinaryPass (attr : Attr) (i j : Nat) (dataI dataJ : PlayerData)
    (datas : List PlayerData) : ForInStep (List PlayerData) :=
  let dunPrize := dunPrize dataI dataJ
  if attr.daQiang ≠ 0 then
    let prize := toUInt32 (dunPrize 0 + dunPrize 1 + dunPrize 2)
    if 0 < dunPrize 0 ∧ 0 < dunPrize 1 ∧ 0 < dunPrize 2 then
      .yield (setLoser i j (toInt32 prize, 1) datas)
    else if 0 < dunPrize 0 ∧ 0 < dunPrize 1 ∧ 0 < dunPrize 2 then
      .yield (setLoser j i (toInt32 prize, 1) datas)
    else if prize = 0 then .done datas
    else if 0 < prize then .yield (setLoser i j (toInt32 prize, 0) datas)
    else .yield (setLoser j i (toInt32 prize, 0) datas)
  else .yield datas

def pairPass (attr : Attr) (i j : Nat) (datas : List PlayerData) :
    ForInStep (List PlayerData) :=
  match datas[i]?, datas[j]? with
  | some dataI, some dataJ =>
      if dataI.spec ≠ dataJ.spec then specialPass i j dataI dataJ datas
      else ordinaryPass attr i j dataI dataJ datas
  | _, _ => .yield datas

def pairRow (attr : Attr) (datas : List PlayerData) (i : Nat) : List PlayerData :=
  forBreak (pairPass attr i) (List.range' (i + 1) (datas.length - (i + 1))) datas

def pairLoop (attr : Attr) (datas : List PlayerData) : List PlayerData :=
  (List.range datas.length).foldl (pairRow attr) datas

/-- `winner.quanLeiDa`, which starts as `false` and is only ever set to `false`. -/
def quanLeiDa (attr : Attr) (losers : LoserMap) (size : Nat) : Bool :=
  let quanLeiDa := false
  if attr.quanLeiDa ∧ 2 < attr.playerSize ∧ losers.size + 1 = size then
    forBreak (fun entry quanLeiDa =>
      if entry.2.2 = 0 then .done false else .yield quanLeiDa) losers.toList quanLeiDa
  else quanLeiDa

def settleAmount (quanLeiDa : Bool) (entry : Int × Int) : Int :=
  let prize := entry.1
  let prize := if 0 < entry.2 then prize * 2 else prize
  if quanLeiDa then prize * 2 else prize

def addPrize (k : Nat) (amount : Int) (datas : List PlayerData) : List PlayerData :=
  datas.modify k fun data => { data with prize := data.prize + amount }

/-- One pass of the settlement loop; `winner` and `loser` may be one seat. -/
def settleSeat (attr : Attr) (datas : List PlayerData) (i : Nat) : List PlayerData :=
  match datas[i]? with
  | none => datas
  | some winner =>
      let flag := quanLeiDa attr winner.losers datas.length
      let datas := datas.modify i fun data => { data with quanLeiDa := flag }
      winner.losers.toList.foldl (fun datas entry =>
        let prize := settleAmount flag entry.2
        addPrize entry.1 (-prize) (addPrize i prize datas)) datas

def settleLoop (attr : Attr) (datas : List PlayerData) : List PlayerData :=
  (List.range datas.length).foldl (settleSeat attr) datas

def calcRound (game : Game13) : Except Fault (RoundSettleData × Game13) := do
  let datas ← game.players.mapM fillPlayerData
  return (⟨settleLoop game.attr (pairLoop game.attr datas)⟩, game)

end CasualGame.Lobby.CalcRound
