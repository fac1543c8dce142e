import Mathlib.Algebra.BigOperators.Fin
import Mathlib.Algebra.Order.Group.Int
import Mathlib.Algebra.Order.Group.Abs
import Mathlib.Tactic.FinCases
import Mathlib.Tactic.Ring
import CasualGame.Lobby.Types

/-!
The scoring rules as the game states them, for two seats and their rows. Nothing
here is translated from `calcRound`; its passes are compared with these rules.
-/

namespace CasualGame.Lobby.Rules

open Deck

structure Seat where
  dun : Fin 3 → BrandInfo
  spec : G13SpecialBrand

instance : Inhabited Seat := ⟨⟨fun _ => ⟨.hightCard, 0⟩, .none⟩⟩

/-- Who wins a row: `1` the first side, `-1` the second, `0` neither. -/
def rowSign (bi1 bi2 : BrandInfo) : Int :=
  match cmpBrandInfo bi1 bi2 with
  | 1 => 1
  | 2 => -1
  | _ => 0

/-- What a row pays beyond one point when it is won with a brand (rules 4 to 8). -/
def bonus : Fin 3 → Brand → Int
  | 0, .threeOfKind => 2
  | 1, .fullHouse => 1
  | 1, .fiveOfKind => 19
  | 1, .straightFlush => 9
  | 1, .fourOfKind => 7
  | 2, .fiveOfKind => 9
  | 2, .straightFlush => 4
  | 2, .fourOfKind => 3
  | _, _ => 0

/-- The points of row `d`, from the first side's view, when `s` says who won it. -/
def score (d : Fin 3) (s : Int) (b1 b2 : Brand) : Int :=
  if s = 1 then 1 + bonus d b1 else if s = -1 then -(1 + bonus d b2) else 0

def rowScore (P Q : Seat) (d : Fin 3) : Int :=
  score d (rowSign (P.dun d) (Q.dun d)) (P.dun d).b (Q.dun d).b

def net (P Q : Seat) : Int := ∑ d, rowScore P Q d

/-- `打枪`: `P` wins all three rows. -/
def Sweeps (P Q : Seat) : Prop := ∀ d, rowSign (P.dun d) (Q.dun d) = 1

instance (P Q : Seat) : Decidable (Sweeps P Q) :=
  inferInstanceAs (Decidable (∀ d, rowSign (P.dun d) (Q.dun d) = 1))

/-- What `P` gets from `Q` (a negative amount when `P` pays). -/
def owed (attr : Attr) (P Q : Seat) : Int :=
  if attr.daQiang ≠ 0 ∧ (Sweeps P Q ∨ Sweeps Q P) then 2 * net P Q else net P Q

def strength (P : Seat) : Nat := P.spec.value % 10

def specialPrize (spec : G13SpecialBrand) : Int :=
  match spec.value % 10 with
  | 5 => 104
  | 4 => 52
  | 3 => 26
  | 2 => 6
  | _ => 0

theorem rowSign_cases (bi1 bi2 : BrandInfo) :
    rowSign bi1 bi2 = 1 ∨ rowSign bi1 bi2 = 0 ∨ rowSign bi1 bi2 = -1 := by
  unfold rowSign
  split <;> simp

theorem cmpBrandInfo_cases (bi1 bi2 : BrandInfo) :
    cmpBrandInfo bi1 bi2 = 0 ∨ cmpBrandInfo bi1 bi2 = 1 ∨ cmpBrandInfo bi1 bi2 = 2 := by
  unfold cmpBrandInfo
  split_ifs <;> simp

theorem Brand.value_injective : Function.Injective Brand.value := by
  intro b1 b2 h
  cases b1 <;> cases b2 <;> first | rfl | cases h

theorem cmpBrandInfo_swap (bi1 bi2 : BrandInfo) :
    (cmpBrandInfo bi2 bi1 = 1 ↔ cmpBrandInfo bi1 bi2 = 2) ∧
      (cmpBrandInfo bi2 bi1 = 2 ↔ cmpBrandInfo bi1 bi2 = 1) := by
  have hval : bi1.b ≠ bi2.b → bi1.b.value ≠ bi2.b.value := fun h h' =>
    h (Brand.value_injective h')
  unfold cmpBrandInfo
  by_cases hb : bi1.b = bi2.b
  · by_cases hp : bi1.point = bi2.point
    · simp [hb, hp]
    · have hp' : bi2.point ≠ bi1.point := Ne.symm hp
      simp only [hb, ne_eq, not_true_eq_false, if_false, hp, not_false_eq_true, if_true, hp']
      split_ifs <;> omega
  · have hb' : ¬ bi2.b = bi1.b := fun h => hb h.symm
    have := hval hb
    simp only [ne_eq, hb, not_false_eq_true, if_true, hb']
    split_ifs <;> omega

theorem rowSign_swap (bi1 bi2 : BrandInfo) : rowSign bi2 bi1 = -rowSign bi1 bi2 := by
  obtain ⟨h1, h2⟩ := cmpBrandInfo_swap bi1 bi2
  unfold rowSign
  rcases cmpBrandInfo_cases bi1 bi2 with h | h | h <;>
    rcases cmpBrandInfo_cases bi2 bi1 with h' | h' | h' <;> simp_all

theorem score_swap (d : Fin 3) (s : Int) (b1 b2 : Brand) :
    score d (-s) b2 b1 = -score d s b1 b2 := by
  unfold score
  split_ifs <;> omega

theorem rowScore_swap (P Q : Seat) (d : Fin 3) : rowScore Q P d = -rowScore P Q d := by
  rw [rowScore, rowSign_swap, score_swap, rowScore]

theorem net_swap (P Q : Seat) : net Q P = -net P Q := by
  simp [net, rowScore_swap P Q]

theorem owed_swap (attr : Attr) (P Q : Seat) : owed attr Q P = -owed attr P Q := by
  by_cases h : attr.daQiang ≠ 0 ∧ (Sweeps P Q ∨ Sweeps Q P)
  · rw [owed, owed, if_pos h, if_pos (h.imp_right Or.symm), net_swap P Q]
    ring
  · have h' : ¬ (attr.daQiang ≠ 0 ∧ (Sweeps Q P ∨ Sweeps P Q)) := fun h' =>
      h (h'.imp_right Or.symm)
    rw [owed, owed, if_neg h, if_neg h', net_swap P Q]

theorem bonus_nonneg (d : Fin 3) (b : Brand) : 0 ≤ bonus d b := by
  fin_cases d <;> cases b <;> decide

theorem bonus_le (d : Fin 3) (b : Brand) : bonus d b ≤ ![2, 19, 9] d := by
  fin_cases d <;> cases b <;> decide

theorem score_pos_iff (d : Fin 3) (s : Int) (b1 b2 : Brand) :
    0 < score d s b1 b2 ↔ s = 1 := by
  have h1 := bonus_nonneg d b1
  have h2 := bonus_nonneg d b2
  unfold score
  split_ifs <;> omega

theorem abs_score_le (d : Fin 3) (s : Int) (b1 b2 : Brand) :
    |score d s b1 b2| ≤ 1 + ![2, 19, 9] d := by
  have h1 := bonus_nonneg d b1
  have h2 := bonus_nonneg d b2
  have h1' := bonus_le d b1
  have h2' := bonus_le d b2
  rw [abs_le]
  unfold score
  split_ifs <;> omega

end CasualGame.Lobby.Rules
