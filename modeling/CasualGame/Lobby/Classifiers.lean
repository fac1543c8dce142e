import CasualGame.Lobby.SortedCards

/-! The two classifiers of a hand. -/

namespace CasualGame.Lobby.Classifiers

open Deck
open SortedCards

variable (c : List Card)

theorem isStrightBrand5_eq : isStrightBrand5 c = isStright5 c := by
  rw [isStrightBrand5, isStright5]
  simp only [rtoi, Nat.add_right_cancel_iff]

theorem rtoi_pos (i : Nat) : 0 < rtoi c i := Nat.succ_pos _

theorem fourPoint_pos : 0 < fourPoint c ↔ rankAt c 0 = rankAt c 3 ∨ rankAt c 1 = rankAt c 4 := by
  rw [fourPoint]
  split_ifs with h03 h14
  · exact iff_of_true (rtoi_pos c 3) (Or.inl h03)
  · exact iff_of_true (rtoi_pos c 4) (Or.inr h14)
  · exact iff_of_false (Nat.lt_irrefl 0) (not_or.mpr ⟨h03, h14⟩)

theorem fullHousePoint_pos : 0 < fullHousePoint c ↔
    (rankAt c 0 = rankAt c 2 ∧ rankAt c 3 = rankAt c 4) ∨
      (rankAt c 2 = rankAt c 4 ∧ rankAt c 0 = rankAt c 1) := by
  rw [fullHousePoint]
  split_ifs with hlow hhigh
  · exact iff_of_true (rtoi_pos c 2) (Or.inl hlow)
  · exact iff_of_true (rtoi_pos c 4) (Or.inr hhigh)
  · exact iff_of_false (Nat.lt_irrefl 0) (not_or.mpr ⟨hlow, hhigh⟩)

theorem threePoint_pos : 0 < threePoint c ↔
    rankAt c 0 = rankAt c 2 ∨ rankAt c 2 = rankAt c 4 ∨ rankAt c 1 = rankAt c 3 := by
  rw [threePoint]
  split_ifs with h02 h13 h24
  · exact iff_of_true (rtoi_pos c 2) (Or.inl h02)
  · exact iff_of_true (rtoi_pos c 3) (Or.inr (Or.inr h13))
  · exact iff_of_true (rtoi_pos c 4) (Or.inr (Or.inl h24))
  · exact iff_of_false (Nat.lt_irrefl 0) (by simp [h02, h13, h24])

theorem twoPairsPoint_pos : 0 < twoPairsPoint c ↔
    (rankAt c 0 = rankAt c 1 ∧ rankAt c 2 = rankAt c 3) ∨
      (rankAt c 0 = rankAt c 1 ∧ rankAt c 3 = rankAt c 4) ∨
        (rankAt c 1 = rankAt c 2 ∧ rankAt c 3 = rankAt c 4) := by
  have hpos : ∀ i j k, 0 < rtoi c i * pow 6 + rtoi c j * pow 5 + rtoi c k :=
    fun i j k => Nat.add_pos_right _ (rtoi_pos c k)
  rw [twoPairsPoint]
  split_ifs with h0123 h0134 h1234
  · exact iff_of_true (hpos 3 1 4) (Or.inl h0123)
  · exact iff_of_true (hpos 4 1 2) (Or.inr (Or.inl h0134))
  · exact iff_of_true (hpos 4 2 0) (Or.inr (Or.inr h1234))
  · exact iff_of_false (Nat.lt_irrefl 0) (not_or.mpr ⟨h0123, not_or.mpr ⟨h0134, h1234⟩⟩)

theorem pairIndex_isSome : (pairIndex c).isSome =
    (List.range' 1 4).any fun i => rankAt c (i - 1) = rankAt c i := by
  rw [pairIndex, List.isSome_find?]

theorem brand5_eq : brand5 c = (brandInfo5 c).b := by
  rw [brand5, brandInfo5]
  simp only [isStrightBrand5_eq, fourPoint_pos, fullHousePoint_pos, threePoint_pos,
    twoPairsPoint_pos, ← pairIndex_isSome]
  cases pairIndex (sort c) with
  | none =>
      simp only [apply_ite BrandInfo.b, ite_self, Option.isSome_none, Bool.false_eq_true, if_false]
  | some p => simp only [apply_ite BrandInfo.b, ite_self, Option.isSome_some, if_true]

theorem pairPoint3_pos :
    0 < pairPoint3 c ↔ rankAt c 0 = rankAt c 1 ∨ rankAt c 1 = rankAt c 2 := by
  have hpos : ∀ i j k, 0 < rtoi3 c i * pow j + rtoi3 c k :=
    fun i j k => Nat.add_pos_right _ (Nat.succ_pos _)
  rw [pairPoint3]
  split_ifs with h01 h12
  · exact iff_of_true (hpos 1 3 2) (Or.inl h01)
  · exact iff_of_true (hpos 2 4 0) (Or.inr h12)
  · exact iff_of_false (Nat.lt_irrefl 0) (not_or.mpr ⟨h01, h12⟩)

theorem brand3_eq : brand3 c = (brandInfo3 c).b := by
  rw [brand3, brandInfo3]
  simp only [pairPoint3_pos]
  split_ifs <;> rfl

theorem brand_eq (size : Nat) : brand c size = (brandInfo c size).b := by
  rw [brand, brandInfo]
  split_ifs
  · exact brand5_eq c
  · exact brand3_eq c
  · rfl

variable {c}

theorem brandInfo_eq_of_perm {c' : List Card} (hperm : c'.Perm c)
    (hrange : ∀ card ∈ c, InRange card) (size : Nat) : brandInfo c' size = brandInfo c size := by
  rw [brandInfo, brandInfo, brandInfo5, brandInfo5, brandInfo3, brandInfo3,
    sort_eq_of_perm hperm hrange]

/-- The two classifiers agree on every hand, whatever the order of its cards. -/
theorem classifiers_agree (hrange : ∀ card ∈ c, InRange card) (size : Nat) :
    brand c size = (brandInfo c size).b ∧ ∀ c' : List Card, c'.Perm c →
      brand c' size = brand c size ∧ (brandInfo c' size).b = (brandInfo c size).b := by
  refine ⟨brand_eq c size, fun c' hperm => ?_⟩
  rw [brand_eq, brand_eq, brandInfo_eq_of_perm hperm hrange]
  exact ⟨rfl, rfl⟩

theorem classifiers_agree_fullHouse :
    brand [14, 1, 27, 15, 28] 5 = (brandInfo [14, 1, 27, 15, 28] 5).b ∧
      ∀ c' : List Card, c'.Perm [14, 1, 27, 15, 28] →
        brand c' 5 = brand [14, 1, 27, 15, 28] 5 ∧
          (brandInfo c' 5).b = (brandInfo [14, 1, 27, 15, 28] 5).b :=
  classifiers_agree (by decide) 5

end CasualGame.Lobby.Classifiers
