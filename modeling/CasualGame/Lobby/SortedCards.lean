import CasualGame.Lobby.Deck

/-!
The order of the cards, and what sorting by it comes to.
-/

namespace CasualGame.Lobby.SortedCards

open Deck

/-- The place of a card, by its rank and then by its suit. -/
def cardKey (c : Card) : Nat := (rank c).val * 4 + (suit c).value

theorem suit_value_lt (c : Card) : (suit c).value < 4 := by
  cases suit c <;> decide

theorem suit_value_of_inRange {c : Nat} (h : InRange c) : (suit c).value = (c - 1) / 13 := by
  have hle : c ≤ 52 := h.2
  have hlt : (c - 1) / 13 < 4 := by omega
  rw [suit]
  generalize (c - 1) / 13 = n at hlt ⊢
  obtain rfl | rfl | rfl | rfl : n = 0 ∨ n = 1 ∨ n = 2 ∨ n = 3 := by omega
  all_goals rfl

theorem lessCard_iff (c1 c2 : Card) : lessCard c1 c2 ↔ cardKey c1 < cardKey c2 := by
  have h1 := suit_value_lt c1
  have h2 := suit_value_lt c2
  rw [lessCard, cardKey, cardKey]
  split_ifs with hne
  · have hval : (rank c1).val ≠ (rank c2).val := fun h => hne (Fin.val_injective h)
    change (rank c1).val < (rank c2).val ↔ _
    omega
  · rw [Decidable.not_not.mp hne]
    change (suit c1).value < (suit c2).value ↔ _
    omega

theorem cardKey_injOn {c1 c2 : Nat} (h1 : InRange c1) (h2 : InRange c2)
    (h : cardKey c1 = cardKey c2) : c1 = c2 := by
  have hsplit1 : 13 * ((c1 - 1) / 13) + (rank c1).val = c1 - 1 := Nat.div_add_mod ..
  have hsplit2 : 13 * ((c2 - 1) / 13) + (rank c2).val = c2 - 1 := Nat.div_add_mod ..
  have hlt1 := suit_value_lt c1
  have hlt2 := suit_value_lt c2
  rw [suit_value_of_inRange h1] at hlt1
  rw [suit_value_of_inRange h2] at hlt2
  rw [cardKey, cardKey, suit_value_of_inRange h1, suit_value_of_inRange h2] at h
  have hlow1 : 1 ≤ c1 := h1.1
  have hlow2 : 1 ≤ c2 := h2.1
  have hsuit : (c1 - 1) / 13 = (c2 - 1) / 13 := by
    generalize (c1 - 1) / 13 = q1 at h hlt1
    generalize (c2 - 1) / 13 = q2 at h hlt2
    omega
  rw [hsuit] at h hsplit1
  omega

theorem sort_eq (c : List Card) :
    sort c = c.insertionSort fun c1 c2 => cardKey c1 ≤ cardKey c2 := by
  have hle : (fun c1 c2 => ¬ lessCard c2 c1) = fun c1 c2 => cardKey c1 ≤ cardKey c2 := by
    funext c1 c2
    rw [lessCard_iff, Nat.not_lt]
  rw [sort]
  congr 1

theorem sort_sorted (c : List Card) :
    (sort c).Pairwise fun c1 c2 => cardKey c1 ≤ cardKey c2 := by
  rw [sort_eq]
  have : Std.Total fun c1 c2 : Card => cardKey c1 ≤ cardKey c2 := ⟨fun _ _ => Nat.le_total ..⟩
  have : IsTrans Card fun c1 c2 => cardKey c1 ≤ cardKey c2 := ⟨fun _ _ _ => Nat.le_trans⟩
  exact List.pairwise_insertionSort _ c

theorem rank_le_of_cardKey {c1 c2 : Card} (h : cardKey c1 ≤ cardKey c2) : rank c1 ≤ rank c2 := by
  have h1 := suit_value_lt c1
  have h2 := suit_value_lt c2
  rw [cardKey, cardKey] at h
  exact Fin.le_def.mpr (by omega)

theorem sort_ranks (c : List Card) : ((sort c).map rank).Pairwise (· ≤ ·) :=
  List.pairwise_map.mpr ((sort_sorted c).imp rank_le_of_cardKey)

theorem sort_eq_of_perm {c c' : List Card} (hperm : c'.Perm c) (hrange : ∀ card ∈ c, InRange card) :
    sort c' = sort c := by
  have hsorted : (sort c').Perm (sort c) :=
    (sort_perm c').trans (hperm.trans (sort_perm c).symm)
  refine hsorted.eq_of_pairwise (fun c1 c2 h1 h2 hle hge => ?_) (sort_sorted c') (sort_sorted c)
  exact cardKey_injOn (hrange c1 (hperm.subset ((sort_perm c').subset h1)))
    (hrange c2 ((sort_perm c).subset h2)) (Nat.le_antisymm hle hge)

end CasualGame.Lobby.SortedCards
