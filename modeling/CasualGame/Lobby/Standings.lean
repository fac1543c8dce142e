import Mathlib.Data.List.Dedup
import Mathlib.Data.List.Lex
import CasualGame.Lobby.SortedCards

/-!
How the hands of poker are ranked, said without points: by the brand, and then by the
ranks that decide, one after the other.
-/

namespace CasualGame.Lobby.Standings

open Deck
open SortedCards

structure Standing where
  brand : Brand
  ranks : List Nat
  deriving DecidableEq

def Standing.Beats (s t : Standing) : Prop :=
  t.brand.value < s.brand.value ∨ (t.brand = s.brand ∧ t.ranks < s.ranks)

instance : DecidableRel Standing.Beats := fun _ _ =>
  inferInstanceAs (Decidable (_ ∨ (_ ∧ _)))

/-- `1` when the first beats the second, `2` when it loses, `0` when they tie. -/
def outcome (s t : Standing) : Nat :=
  if s.Beats t then 1 else if t.Beats s then 2 else 0

/-- The ranks of the cards, from high to low. -/
def ranksDown (c : List Card) : List Nat :=
  (c.map fun card => (rank card).val).insertionSort (· ≥ ·)

/-- The ranks that at least `k` of the cards have, from high to low. -/
def groups (k : Nat) (ranks : List Nat) : List Nat :=
  ranks.dedup.filter fun r => k ≤ ranks.count r

/-- The pairs, and then the cards that are left without them. -/
def pairsFirst (ranks : List Nat) : List Nat :=
  groups 2 ranks ++ ranks.diff ((groups 2 ranks).flatMap fun r => [r, r])

def standing3 (c : List Card) : Standing :=
  let ranks := ranksDown c
  if groups 3 ranks ≠ [] then ⟨.threeOfKind, groups 3 ranks⟩
  else if groups 2 ranks ≠ [] then ⟨.onePair, pairsFirst ranks⟩
  else ⟨.hightCard, ranks⟩

def SameSuit (c : List Card) : Prop := ∀ card ∈ c, ∀ card' ∈ c, suit card = suit card'

instance (c : List Card) : Decidable (SameSuit c) :=
  inferInstanceAs (Decidable (∀ card ∈ c, ∀ card' ∈ c, suit card = suit card'))

/-- `A2345` -/
def wheel : List Nat := [12, 3, 2, 1, 0]

def Straight (ranks : List Nat) : Prop :=
  ranks.IsChain (fun r r' => r = r' + 1) ∨ ranks = wheel

instance (ranks : List Nat) : Decidable (Straight ranks) :=
  inferInstanceAs (Decidable (_ ∨ _))

/-- A straight ranks by its top card, and `A2345` below `10JQKA` only. -/
def straightRanks (ranks : List Nat) : List Nat :=
  [ranks.headD 0, if ranks = wheel then 0 else 1]

def standing5 (c : List Card) : Standing :=
  let ranks := ranksDown c
  if groups 5 ranks ≠ [] then ⟨.fiveOfKind, groups 5 ranks⟩
  else if Straight ranks ∧ SameSuit c then ⟨.straightFlush, straightRanks ranks⟩
  else if groups 4 ranks ≠ [] then ⟨.fourOfKind, groups 4 ranks⟩
  else if groups 3 ranks ≠ [] ∧ (groups 2 ranks).length = 2 then ⟨.fullHouse, groups 3 ranks⟩
  else if SameSuit c then ⟨.flush, (groups 2 ranks).length :: pairsFirst ranks⟩
  else if Straight ranks then ⟨.straight, straightRanks ranks⟩
  else if groups 3 ranks ≠ [] then ⟨.threeOfKind, groups 3 ranks⟩
  else if (groups 2 ranks).length = 2 then ⟨.twoPairs, pairsFirst ranks⟩
  else if groups 2 ranks ≠ [] then ⟨.onePair, pairsFirst ranks⟩
  else ⟨.hightCard, ranks⟩

theorem Brand.value_injective : Function.Injective Brand.value := by
  intro b b' h
  cases b <;> cases b' <;> first | rfl | cases h

theorem cmpBrandInfo_eq_outcome {i j : BrandInfo} {s t : Standing} (hi : i.b = s.brand)
    (hj : j.b = t.brand) :
    cmpBrandInfo i j = outcome s t ↔ (s.brand = t.brand →
      ((j.point < i.point ↔ t.ranks < s.ranks) ∧ (i.point < j.point ↔ s.ranks < t.ranks))) := by
  rw [cmpBrandInfo, outcome, hi, hj]
  by_cases hbrand : s.brand = t.brand
  · have hst : s.Beats t ↔ t.ranks < s.ranks := by simp [Standing.Beats, hbrand]
    have hts : t.Beats s ↔ s.ranks < t.ranks := by simp [Standing.Beats, hbrand]
    have hasymm : ¬ (t.ranks < s.ranks ∧ s.ranks < t.ranks) := fun h => lt_asymm h.1 h.2
    rw [if_neg (not_not.mpr hbrand)]
    simp only [hst, hts, hbrand, true_implies]
    grind
  · have hvalue : s.brand.value ≠ t.brand.value := fun h => hbrand (Brand.value_injective h)
    have hst : s.Beats t ↔ t.brand.value < s.brand.value := by
      simp [Standing.Beats, Ne.symm hbrand]
    have hts : t.Beats s ↔ s.brand.value < t.brand.value := by simp [Standing.Beats, hbrand]
    rw [if_pos hbrand]
    simp only [hst, hts, hbrand, false_implies, iff_true]
    split_ifs with hlt hgt
    · rfl
    · rfl
    · omega

theorem ranksDown_eq (c : List Card) :
    ranksDown c = ((sort c).map fun card => (rank card).val).reverse := by
  have hperm : (ranksDown c).Perm (((sort c).map fun card => (rank card).val).reverse) := by
    refine (List.perm_insertionSort _ _).trans ?_
    exact ((sort_perm c).map _).symm.trans (List.reverse_perm _).symm
  have hsorted : (((sort c).map fun card => (rank card).val).reverse).Pairwise (· ≥ ·) := by
    rw [List.pairwise_reverse, List.pairwise_map]
    exact (List.pairwise_map.mp (sort_ranks c)).imp Fin.le_def.mp
  exact hperm.eq_of_pairwise (fun a b _ _ hge hle => Nat.le_antisymm hle hge)
    (List.pairwise_insertionSort _ _) hsorted

end CasualGame.Lobby.Standings
