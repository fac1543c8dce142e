import CasualGame.Lobby.ThreeCards

/-! Special brands by the three rows: the straight of the head row. -/

namespace CasualGame.Lobby.HeadRow

open Deck
open SortedCards
open Standings
open ThreeCards

/-- The first three of the thirteen cards. -/
def head (c : List Card) : List Card := c.take 3

/-- Three consecutive ranks, of which `A23` is one kind. -/
def Consecutive (c : List Card) : Prop :=
  (ranksDown c).IsChain (fun r r' => r = r' + 1) ∨ ranksDown c = [12, 1, 0]

instance (c : List Card) : Decidable (Consecutive c) := inferInstanceAs (Decidable (_ ∨ _))

def SameRank (c : List Card) : Prop := ∀ card ∈ c, ∀ card' ∈ c, rank card = rank card'

instance (c : List Card) : Decidable (SameRank c) :=
  inferInstanceAs (Decidable (∀ card ∈ c, ∀ card' ∈ c, rank card = rank card'))

/-- Three straights, and three straight flushes, are told from all other hands. -/
structure RowsTold (c : List Card) (b2 b3 : Brand) : Prop where
  straight : g13SpecialBrandByDun c b2 b3 = .tripleStraight →
    Consecutive (head c) ∧ b2 = .straight ∧ b3 = .straight
  straightFlush : g13SpecialBrandByDun c b2 b3 = .tripleStraightFlush →
    Consecutive (head c) ∧ SameSuit (head c) ∧ b2 = .straightFlush ∧ b3 = .straightFlush
  of_straight : Consecutive (head c) → b2 = .straight → b3 = .straight →
    G13SpecialBrand.tripleStraight.value ≤ (g13SpecialBrandByDun c b2 b3).value
  of_straightFlush : Consecutive (head c) → SameSuit (head c) → b2 = .straightFlush →
    b3 = .straightFlush →
      G13SpecialBrand.tripleStraightFlush.value ≤ (g13SpecialBrandByDun c b2 b3).value

/-- The other two rows are such that the head row decides. -/
def HeadDecides (c : List Card) (b2 b3 : Brand) : Prop :=
  (b2 = .straight ∧ b3 = .straight) ∨
    (SameSuit (head c) ∧ b2 = .straightFlush ∧ b3 = .straightFlush)

instance (c : List Card) (b2 b3 : Brand) : Decidable (HeadDecides c b2 b3) :=
  inferInstanceAs (Decidable ((_ ∧ _) ∨ (_ ∧ _ ∧ _)))

section Telling

variable {c : List Card} {b2 b3 : Brand}

theorem rankAt_sortAt_head {x y z : Card} (hsort : sort (head c) = [x, y, z]) :
    rankAt (sortAt 0 3 c) 0 = rank x ∧ rankAt (sortAt 0 3 c) 1 = rank y ∧
      rankAt (sortAt 0 3 c) 2 = rank z ∧ suitAt (sortAt 0 3 c) 0 = suit x ∧
        suitAt (sortAt 0 3 c) 1 = suit y ∧ suitAt (sortAt 0 3 c) 2 = suit z := by
  have hsorted : sortAt 0 3 c = [x, y, z] ++ c.drop 3 := by
    rw [sortAt, List.drop_zero, List.take_zero, List.nil_append, ← hsort, head]
  rw [hsorted]
  exact ⟨rfl, rfl, rfl, rfl, rfl, rfl⟩

theorem all_equal_iff {α : Type} {f : Card → α} {x y z : Card}
    (hsort : sort (head c) = [x, y, z]) :
    (f x = f y ∧ f y = f z) ↔ ∀ card ∈ head c, ∀ card' ∈ head c, f card = f card' := by
  have hmem : ∀ card, card ∈ head c ↔ card = x ∨ card = y ∨ card = z := by
    intro card
    rw [← (sort_perm (head c)).mem_iff, hsort]
    simp
  constructor
  · rintro ⟨hxy, hyz⟩ card hcard card' hcard'
    rcases (hmem card).mp hcard with rfl | rfl | rfl <;>
      rcases (hmem card').mp hcard' with rfl | rfl | rfl <;> simp [hxy, hyz]
  · intro h
    exact ⟨h x ((hmem x).mpr (by simp)) y ((hmem y).mpr (by simp)),
      h y ((hmem y).mpr (by simp)) z ((hmem z).mpr (by simp))⟩

theorem length_head (hlength : c.length = 13) : (head c).length = 3 := by
  rw [head, List.length_take, hlength]
  rfl

theorem byDun_eq (hlength : c.length = 13) :
    g13SpecialBrandByDun c b2 b3 =
      if SameRank (head c) ∧ SameSuit (head c) ∧ b2 = .straightFlush ∧ b3 = .straightFlush then
        .tripleStraightFlush
      else if SameRank (head c) ∧ b2 = .straight ∧ b3 = .straight then .tripleStraight
      else if SameSuit (head c) ∧ b2 = .flush ∧ b3 = .flush then .tripleFlush
      else .none := by
  obtain ⟨x, y, z, hsort, -⟩ := three_sorted (length_head hlength)
  obtain ⟨hr0, hr1, hr2, hs0, hs1, hs2⟩ := rankAt_sortAt_head hsort
  have hrank := all_equal_iff (f := rank) hsort
  have hsuit := all_equal_iff (f := suit) hsort
  rw [g13SpecialBrandByDun]
  simp only [hr0, hr1, hr2, hs0, hs1, hs2, hrank, hsuit]
  rfl

theorem byDun_straights (hlength : c.length = 13) :
    g13SpecialBrandByDun c .straight .straight =
      if SameRank (head c) then .tripleStraight else .none := by
  rw [byDun_eq hlength]
  simp

theorem byDun_straightFlushes (hlength : c.length = 13) (hsuit : SameSuit (head c)) :
    g13SpecialBrandByDun c .straightFlush .straightFlush =
      if SameRank (head c) then .tripleStraightFlush else .none := by
  rw [byDun_eq hlength]
  simp [hsuit]

theorem byDun_of_not_decides (hlength : c.length = 13) (h : ¬ HeadDecides c b2 b3) :
    g13SpecialBrandByDun c b2 b3 ≠ .tripleStraight ∧
      g13SpecialBrandByDun c b2 b3 ≠ .tripleStraightFlush := by
  rw [HeadDecides, not_or] at h
  rw [byDun_eq hlength, if_neg fun hflush => h.2 hflush.2, if_neg fun hrows => h.1 hrows.2]
  split_ifs <;> decide

theorem not_consecutive_of_sameRank (hlength : c.length = 13) (h : SameRank (head c)) :
    ¬ Consecutive (head c) := by
  obtain ⟨x, y, z, hsort, -, -, hdown⟩ := three_sorted (length_head hlength)
  obtain ⟨hxy, hyz⟩ := (all_equal_iff (f := rank) hsort).mpr h
  rw [Consecutive, hdown, hxy, hyz]
  simp
  omega

theorem rowsTold_same_iff (hlength : c.length = 13) {b : Brand} {answer : G13SpecialBrand}
    (hanswer : ¬ answer.value ≤ G13SpecialBrand.none.value)
    (hdun : g13SpecialBrandByDun c b b = if SameRank (head c) then answer else .none)
    (hright : RowsTold c b b →
      (g13SpecialBrandByDun c b b = answer → Consecutive (head c)) ∧
        (Consecutive (head c) → answer.value ≤ (g13SpecialBrandByDun c b b).value)) :
    RowsTold c b b ↔ ¬ SameRank (head c) ∧ ¬ Consecutive (head c) := by
  constructor
  · intro htold
    have hsame : ¬ SameRank (head c) := by
      intro hsame
      rw [if_pos hsame] at hdun
      exact not_consecutive_of_sameRank hlength hsame ((hright htold).1 hdun)
    refine ⟨hsame, fun hconsecutive => ?_⟩
    have hvalue := (hright htold).2 hconsecutive
    rw [hdun, if_neg hsame] at hvalue
    exact hanswer hvalue
  · rintro ⟨hsame, hconsecutive⟩
    rw [if_neg hsame] at hdun
    refine ⟨fun h => ?_, fun h => ?_, fun h => absurd h hconsecutive,
      fun h => absurd h hconsecutive⟩
    · rw [hdun] at h
      cases h
    · rw [hdun] at h
      cases h

theorem rowsTold_straights_iff (hlength : c.length = 13) :
    RowsTold c .straight .straight ↔ ¬ SameRank (head c) ∧ ¬ Consecutive (head c) := by
  apply rowsTold_same_iff hlength (by decide) (byDun_straights hlength)
  intro htold
  exact ⟨fun h => (htold.straight h).1, fun h => htold.of_straight h rfl rfl⟩

theorem rowsTold_straightFlushes_iff (hlength : c.length = 13) (hsuit : SameSuit (head c)) :
    RowsTold c .straightFlush .straightFlush ↔
      ¬ SameRank (head c) ∧ ¬ Consecutive (head c) := by
  apply rowsTold_same_iff hlength (by decide) (byDun_straightFlushes hlength hsuit)
  intro htold
  exact ⟨fun h => (htold.straightFlush h).1, fun h => htold.of_straightFlush h hsuit rfl rfl⟩

theorem rowsTold_of_not_decides (hlength : c.length = 13) (h : ¬ HeadDecides c b2 b3) :
    RowsTold c b2 b3 := by
  obtain ⟨hstraight, hflush⟩ := byDun_of_not_decides hlength h
  exact ⟨fun heq => absurd heq hstraight, fun heq => absurd heq hflush,
    fun _ h2 h3 => absurd (Or.inl ⟨h2, h3⟩) h,
    fun _ hsuit h2 h3 => absurd (Or.inr ⟨hsuit, h2, h3⟩) h⟩

/-- Three straights and three straight flushes are told from all other hands exactly where
the other two rows make the head row decide, and its ranks are neither equal nor
consecutive. -/
theorem rowsTold_iff (hlength : c.length = 13) :
    RowsTold c b2 b3 ↔
      (HeadDecides c b2 b3 → ¬ SameRank (head c) ∧ ¬ Consecutive (head c)) := by
  by_cases h : HeadDecides c b2 b3
  · rw [forall_prop_of_true h]
    rcases h with ⟨rfl, rfl⟩ | ⟨hsuit, rfl, rfl⟩
    · exact rowsTold_straights_iff hlength
    · exact rowsTold_straightFlushes_iff hlength hsuit
  · exact iff_of_true (rowsTold_of_not_decides hlength h) fun hdecides => absurd hdecides h

end Telling

/-- `2`, `4` and `8` of diamonds, and then two straights. -/
def scattered : List Card := [1, 3, 7, 15, 16, 17, 18, 32, 33, 34, 35, 36, 50]

theorem rowsTold_iff_scattered :
    RowsTold scattered .straight .straight ↔
      (HeadDecides scattered .straight .straight →
        ¬ SameRank (head scattered) ∧ ¬ Consecutive (head scattered)) :=
  rowsTold_iff rfl

/-- `2`, `3` and `4` of diamonds, and then two straights. -/
def threeStraights : List Card := [1, 2, 3, 17, 18, 19, 20, 34, 22, 36, 37, 38, 52]

/-- Three straights are not recognised. -/
theorem straights_missed :
    ¬ ∀ (c : List Card) (b2 b3 : Brand), c.length = 13 → (∀ card ∈ c, InRange card) →
      RowsTold c b2 b3 := by
  intro hall
  have htold := hall threeStraights .straight .straight rfl (by decide)
  have hvalue := htold.of_straight (by decide +kernel) rfl rfl
  revert hvalue
  decide +kernel

end CasualGame.Lobby.HeadRow
