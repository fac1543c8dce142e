import Mathlib.Data.List.Sort
import Mathlib.Data.Fin.VecNotation

namespace CasualGame.Lobby.Deck

/-- `Deck::Card`, a `uint16_t`. The playing cards are `1` to `52`. -/
abbrev Card := Nat

inductive Suit
  | diamond | club | heart | spade
  deriving DecidableEq, Repr

def Suit.value : Suit → Nat
  | .diamond => 0
  | .club => 1
  | .heart => 2
  | .spade => 3

/-- `Deck::Rank`, whose enumerators `r2` to `rA` are the values `0` to `12`. -/
abbrev Rank := Fin 13

namespace Rank

abbrev r2 : Rank := 0
abbrev r3 : Rank := 1
abbrev r4 : Rank := 2
abbrev r5 : Rank := 3
abbrev r8 : Rank := 6
abbrev rJ : Rank := 9
abbrev rA : Rank := 12

end Rank

inductive Brand
  | hightCard | onePair | twoPairs | threeOfKind | straight
  | flush | fullHouse | fourOfKind | straightFlush | fiveOfKind
  deriving DecidableEq, Repr

def Brand.value : Brand → Nat
  | .hightCard => 0
  | .onePair => 1
  | .twoPairs => 2
  | .threeOfKind => 3
  | .straight => 4
  | .flush => 5
  | .fullHouse => 6
  | .fourOfKind => 7
  | .straightFlush => 8
  | .fiveOfKind => 9

inductive G13SpecialBrand
  | none | tripleFlush | tripleStraight | sixPairs | pentaPairsAndThreeOfKind
  | quradThreeOfKind | redOrBlack | allLittle | allBig | tripleBombs
  | tripleStraightFlush | royal | straight | flushStriaght
  deriving DecidableEq, Repr

def G13SpecialBrand.value : G13SpecialBrand → Nat
  | .flushStriaght => 135
  | .straight => 124
  | .royal => 113
  | .tripleStraightFlush => 103
  | .tripleBombs => 93
  | .allBig => 82
  | .allLittle => 72
  | .redOrBlack => 62
  | .quradThreeOfKind => 52
  | .pentaPairsAndThreeOfKind => 42
  | .sixPairs => 32
  | .tripleStraight => 22
  | .tripleFlush => 12
  | .none => 0

structure BrandInfo where
  b : Brand
  point : Nat := 0
  deriving DecidableEq, Repr

/-- `0` when they are equal, `1` when `bi1` is larger, `2` when `bi2` is. -/
def cmpBrandInfo (bi1 bi2 : BrandInfo) : Nat :=
  if bi1.b ≠ bi2.b then
    if bi2.b.value < bi1.b.value then 1 else 2
  else if bi1.point ≠ bi2.point then
    if bi2.point < bi1.point then 1 else 2
  else 0

/-- What `suit` and `rank` assert of their argument. -/
def InRange (card : Card) : Prop := 1 ≤ card ∧ card ≤ 52

instance (card : Card) : Decidable (InRange card) :=
  inferInstanceAs (Decidable (1 ≤ card ∧ card ≤ 52))

def suit (card : Card) : Suit :=
  match (card - 1) / 13 with
  | 0 => .diamond
  | 1 => .club
  | 2 => .heart
  | _ => .spade

def rank (card : Card) : Rank := ⟨(card - 1) % 13, Nat.mod_lt _ (by decide)⟩

def lessSuit (c1 c2 : Card) : Prop := (suit c1).value < (suit c2).value

def lessRank (c1 c2 : Card) : Prop := rank c1 < rank c2

def lessCard (c1 c2 : Card) : Prop :=
  if rank c1 ≠ rank c2 then lessRank c1 c2 else lessSuit c1 c2

instance : DecidableRel lessCard := fun c1 c2 =>
  inferInstanceAs (Decidable (if rank c1 ≠ rank c2 then rank c1 < rank c2
    else (suit c1).value < (suit c2).value))

/-- `std::sort` by `lessCard`. Playing cards of which neither precedes the other
have the same rank and suit and so are one card: the sorted order is unique. -/
def sort (c : List Card) : List Card :=
  c.insertionSort fun c1 c2 => ¬ lessCard c2 c1

/-- `std::sort` of the `size` cards from `off` on, in place. -/
def sortAt (off size : Nat) (c : List Card) : List Card :=
  c.take off ++ sort ((c.drop off).take size) ++ c.drop (off + size)

def pow (i : Nat) : Nat := [1, 14, 196, 2744, 38416, 537824, 7529536].getD i 0

section Five

def rankAt (c : List Card) (i : Nat) : Rank := rank (c.getD i 0)

def suitAt (c : List Card) (i : Nat) : Suit := suit (c.getD i 0)

def rtoi (c : List Card) (i : Nat) : Nat := (rankAt c i).val + 1

def isStright5 (c : List Card) : Bool :=
  ((List.range' 1 4).all fun i => rtoi c (i - 1) + 1 = rtoi c i) ||
    -- a2345
    (rankAt c 0 = .r2 && rankAt c 1 = .r3 && rankAt c 2 = .r4 && rankAt c 3 = .r5 &&
      rankAt c 4 = .rA)

def isFlush (size : Nat) (c : List Card) : Bool :=
  (List.range' 1 (size - 1)).all fun i => suitAt c (i - 1) = suitAt c i

/-- The point of a straight: its top card, with `a2345` second to `10jqka` only. -/
def straightPoint (c : List Card) : Nat :=
  if rankAt c 4 = .rA then (if rankAt c 0 = .r2 then 14 else 15) else rtoi c 4

def fourPoint (c : List Card) : Nat :=
  if rankAt c 0 = rankAt c 3 then rtoi c 3
  else if rankAt c 1 = rankAt c 4 then rtoi c 4
  else 0

def fullHousePoint (c : List Card) : Nat :=
  if rankAt c 0 = rankAt c 2 ∧ rankAt c 3 = rankAt c 4 then rtoi c 2
  else if rankAt c 2 = rankAt c 4 ∧ rankAt c 0 = rankAt c 1 then rtoi c 4
  else 0

def threePoint (c : List Card) : Nat :=
  if rankAt c 0 = rankAt c 2 then rtoi c 2
  else if rankAt c 1 = rankAt c 3 then rtoi c 3
  else if rankAt c 2 = rankAt c 4 then rtoi c 4
  else 0

def twoPairsPoint (c : List Card) : Nat :=
  if rankAt c 0 = rankAt c 1 ∧ rankAt c 2 = rankAt c 3 then
    rtoi c 3 * pow 6 + rtoi c 1 * pow 5 + rtoi c 4
  else if rankAt c 0 = rankAt c 1 ∧ rankAt c 3 = rankAt c 4 then
    rtoi c 4 * pow 6 + rtoi c 1 * pow 5 + rtoi c 2
  else if rankAt c 1 = rankAt c 2 ∧ rankAt c 3 = rankAt c 4 then
    rtoi c 4 * pow 6 + rtoi c 2 * pow 5 + rtoi c 0
  else 0

def pairIndex (c : List Card) : Option Nat :=
  (List.range' 1 4).find? fun i => rankAt c (i - 1) = rankAt c i

/-- The pair at `p`, then the three other cards by a running `hightCounter`. -/
def onePairPoint (c : List Card) (p : Nat) : Nat :=
  (((List.range 5).filter fun i => i ≠ p ∧ i ≠ p - 1).zipIdx).foldl
    (fun point i => point + rtoi c i.1 * pow i.2) (rtoi c p * pow 5)

def hightCardPoint (c : List Card) : Nat :=
  (List.range 5).foldl (fun point i => point + rtoi c i * pow i) 0

def brandInfo5 (c : List Card) : BrandInfo :=
  let c := sort c
  if rankAt c 0 = rankAt c 4 then ⟨.fiveOfKind, rtoi c 0⟩
  else if isStright5 c && isFlush 5 c then ⟨.straightFlush, straightPoint c⟩
  else if 0 < fourPoint c then ⟨.fourOfKind, fourPoint c⟩
  else if 0 < fullHousePoint c then ⟨.fullHouse, fullHousePoint c⟩
  else if isFlush 5 c then
    if 0 < twoPairsPoint c then ⟨.flush, twoPairsPoint c⟩
    else
      match pairIndex c with
      | some p => ⟨.flush, onePairPoint c p⟩
      | none => ⟨.flush, hightCardPoint c⟩
  else if isStright5 c then ⟨.straight, straightPoint c⟩
  else if 0 < threePoint c then ⟨.threeOfKind, threePoint c⟩
  else if 0 < twoPairsPoint c then ⟨.twoPairs, twoPairsPoint c⟩
  else
    match pairIndex c with
    | some p => ⟨.onePair, onePairPoint c p⟩
    | none => ⟨.hightCard, hightCardPoint c⟩

end Five

section Three

/-- `static_cast<IntOfRank>(r[i]) + 2`, the offset `brandInfo3` uses. -/
def rtoi3 (c : List Card) (i : Nat) : Nat := (rankAt c i).val + 2

def pairPoint3 (c : List Card) : Nat :=
  if rankAt c 0 = rankAt c 1 then rtoi3 c 1 * pow 3 + rtoi3 c 2
  else if rankAt c 1 = rankAt c 2 then rtoi3 c 2 * pow 4 + rtoi3 c 0
  else 0

def brandInfo3 (c : List Card) : BrandInfo :=
  let c := sort c
  if rankAt c 0 = rankAt c 2 then ⟨.threeOfKind, rtoi3 c 2⟩
  else if 0 < pairPoint3 c then ⟨.onePair, pairPoint3 c⟩
  else ⟨.hightCard, (List.range 3).foldl (fun point i => point + rtoi3 c i * pow i) 0⟩

end Three

def brandInfo (c : List Card) (size : Nat) : BrandInfo :=
  if size = 5 then brandInfo5 c
  else if size = 3 then brandInfo3 c
  else ⟨.hightCard, 0⟩

section Classify

/-- The straight of `brand5`, by the ranks as they are. -/
def isStrightBrand5 (c : List Card) : Bool :=
  ((List.range' 1 4).all fun i => (rankAt c (i - 1)).val + 1 = (rankAt c i).val) ||
    -- a2345
    (rankAt c 0 = .r2 && rankAt c 1 = .r3 && rankAt c 2 = .r4 && rankAt c 3 = .r5 &&
      rankAt c 4 = .rA)

def brand5 (c : List Card) : Brand :=
  let c := sort c
  let r := rankAt c
  if r 0 = r 4 then .fiveOfKind
  else if isStrightBrand5 c && isFlush 5 c then .straightFlush
  else if r 0 = r 3 ∨ r 1 = r 4 then .fourOfKind
  else if (r 0 = r 2 ∧ r 3 = r 4) ∨ (r 2 = r 4 ∧ r 0 = r 1) then .fullHouse
  else if isFlush 5 c then .flush
  else if isStrightBrand5 c then .straight
  else if r 0 = r 2 ∨ r 2 = r 4 ∨ r 1 = r 3 then .threeOfKind
  else if (r 0 = r 1 ∧ r 2 = r 3) ∨ (r 0 = r 1 ∧ r 3 = r 4) ∨ (r 1 = r 2 ∧ r 3 = r 4) then
    .twoPairs
  else if (List.range' 1 4).any fun i => r (i - 1) = r i then .onePair
  else .hightCard

def brand3 (c : List Card) : Brand :=
  let c := sort c
  let r := rankAt c
  if r 0 = r 2 then .threeOfKind
  else if r 0 = r 1 ∨ r 1 = r 2 then .onePair
  else .hightCard

def brand (c : List Card) (size : Nat) : Brand :=
  if size = 5 then brand5 c
  else if size = 3 then brand3 c
  else .hightCard

end Classify

section Special

/-- `c` holds all thirteen cards; only the first three are read, after sorting. -/
def g13SpecialBrandByDun (c : List Card) (b2 b3 : Brand) : G13SpecialBrand :=
  let c := sortAt 0 3 c
  let isStright := rankAt c 0 = rankAt c 1 ∧ rankAt c 1 = rankAt c 2
  let isFlush := suitAt c 0 = suitAt c 1 ∧ suitAt c 1 = suitAt c 2
  if isStright ∧ isFlush ∧ b2 = .straightFlush ∧ b3 = .straightFlush then
    .tripleStraightFlush
  else if isStright ∧ b2 = .straight ∧ b3 = .straight then .tripleStraight
  else if isFlush ∧ b2 = .flush ∧ b3 = .flush then .tripleFlush
  else .none

/-- The scan for pairs over positions `i` to `11`, with the flag for a three of a
kind and the number of pairs found so far. Every pass moves on by at least one
position, so eleven passes are enough. -/
def pairScan (c : List Card) : (passes i : Nat) → Bool × Nat → Bool × Nat
  | 0, _, acc => acc
  | passes + 1, i, (have3Kind, pairSize) =>
      if i < 12 then
        if rankAt c (i - 1) = rankAt c i then
          if rankAt c (i + 1) = rankAt c i then pairScan c passes (i + 3) (true, pairSize)
          else pairScan c passes (i + 2) (have3Kind, pairSize + 1)
        else pairScan c passes (i + 1) (have3Kind, pairSize)
      else (have3Kind, pairSize)

def isTripleBombs (c : List Card) : Bool :=
  let r := rankAt c
  (r 1 = r 4 && r 5 = r 8 && r 9 = r 12) ||
  (r 0 = r 3 && r 5 = r 8 && r 9 = r 12) ||
  (r 0 = r 3 && r 4 = r 7 && r 9 = r 12) ||
  (r 0 = r 3 && r 4 = r 7 && r 8 = r 11)

def isQuradThreeOfKind (c : List Card) : Bool :=
  let r := rankAt c
  (r 1 = r 3 && r 4 = r 6 && r 7 = r 9 && r 10 = r 12) ||
  (r 0 = r 2 && r 4 = r 6 && r 7 = r 9 && r 10 = r 12) ||
  (r 0 = r 2 && r 3 = r 5 && r 7 = r 9 && r 10 = r 12) ||
  (r 0 = r 2 && r 3 = r 5 && r 6 = r 8 && r 10 = r 12) ||
  (r 0 = r 2 && r 3 = r 5 && r 6 = r 8 && r 9 = r 11)

def isRedOrBlack (c : List Card) : Bool :=
  ((List.range 13).all fun i => suitAt c i = .heart || suitAt c i = .diamond) ||
  ((List.range 13).all fun i => suitAt c i = .spade || suitAt c i = .club)

def g13SpecialBrandByAll (c : List Card) (dun : G13SpecialBrand) : G13SpecialBrand :=
  let c := sort c
  let isStright := (List.range' 1 12).all fun i => (rankAt c (i - 1)).val + 1 = (rankAt c i).val
  if isStright && isFlush 13 c then .flushStriaght
  else if isStright then .straight
  else if Rank.rJ ≤ rankAt c 0 then .royal
  else if dun = .tripleStraightFlush then dun
  else if isTripleBombs c then .tripleBombs
  else if Rank.r8 ≤ rankAt c 0 then .allBig
  else if rankAt c 12 ≤ Rank.r8 then .allLittle
  else if isRedOrBlack c then .redOrBlack
  else if isQuradThreeOfKind c then .quradThreeOfKind
  else
    let lastPair := if rankAt c 11 = rankAt c 12 ∧ rankAt c 10 ≠ rankAt c 12 then 1 else 0
    let scan := pairScan c 12 1 (false, lastPair)
    if scan.1 && scan.2 = 5 then .pentaPairsAndThreeOfKind
    else if scan.2 = 6 then .sixPairs
    else dun

def g13SpecialBrand (c : List Card) (b2 b3 : Brand) : G13SpecialBrand :=
  g13SpecialBrandByAll (sortAt 0 3 c) (g13SpecialBrandByDun c b2 b3)

end Special

theorem sort_perm (c : List Card) : (sort c).Perm c := List.perm_insertionSort _ c

theorem sortAt_perm (off size : Nat) (c : List Card) : (sortAt off size c).Perm c := by
  have hsplit : c = c.take off ++ ((c.drop off).take size ++ c.drop (off + size)) := by
    rw [← List.drop_drop, List.take_append_drop, List.take_append_drop]
  conv_rhs => rw [hsplit]
  rw [sortAt, List.append_assoc]
  exact ((sort_perm _).append_right _).append_left _

@[simp] theorem length_sortAt (off size : Nat) (c : List Card) :
    (sortAt off size c).length = c.length :=
  (sortAt_perm off size c).length_eq

end CasualGame.Lobby.Deck
