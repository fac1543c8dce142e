import CasualGame.Lobby.Standings

/-! Hands of three cards: when their points order them as poker does. -/

namespace CasualGame.Lobby.ThreeCards

open Deck
open SortedCards
open Standings

/-- The single card is above its pair. -/
def SingleAbove (c : List Card) : Prop :=
  let ranks := ranksDown c
  ranks.getD 1 0 = ranks.getD 2 0 ∧ ranks.getD 1 0 < ranks.getD 0 0

/-- The single card is below its pair. -/
def SingleBelow (c : List Card) : Prop :=
  let ranks := ranksDown c
  ranks.getD 0 0 = ranks.getD 1 0 ∧ ranks.getD 2 0 < ranks.getD 1 0

instance (c : List Card) : Decidable (SingleAbove c) := inferInstanceAs (Decidable (_ ∧ _))

instance (c : List Card) : Decidable (SingleBelow c) := inferInstanceAs (Decidable (_ ∧ _))

/-- Two pairs of which the one with the lower single is not the higher one. -/
def Misjudged (a b : List Card) : Prop :=
  SingleAbove a ∧ SingleBelow b ∧ (ranksDown b).getD 1 0 ≤ (ranksDown a).getD 1 0

instance (a b : List Card) : Decidable (Misjudged a b) :=
  inferInstanceAs (Decidable (_ ∧ _ ∧ _))

section Points

variable {c : List Card}

theorem three_sorted (hlength : c.length = 3) :
    ∃ x y z : Card, sort c = [x, y, z] ∧ rank x ≤ rank y ∧ rank y ≤ rank z ∧
      ranksDown c = [(rank z).val, (rank y).val, (rank x).val] := by
  have hsort : (sort c).length = 3 := (sort_perm c).length_eq.trans hlength
  obtain ⟨x, y, z, heq⟩ := List.length_eq_three.mp hsort
  have hsorted := sort_ranks c
  have hdown := ranksDown_eq c
  rw [heq] at hsorted hdown
  refine ⟨x, y, z, heq, ?_, ?_, hdown⟩
  · exact List.rel_of_pairwise_cons hsorted List.mem_cons_self
  · exact List.rel_of_pairwise_cons hsorted.of_cons List.mem_cons_self

/-- The four kinds of hands of three cards, with their points and their standing. -/
inductive Kind (c : List Card) : Prop
  | three {r : Nat} (hle : r ≤ 12) (hdown : ranksDown c = [r, r, r])
      (hinfo : brandInfo3 c = ⟨.threeOfKind, r + 2⟩)
      (hstanding : standing3 c = ⟨.threeOfKind, [r]⟩)
  | above {p s : Nat} (hlt : p < s) (hle : s ≤ 12) (hdown : ranksDown c = [s, p, p])
      (hinfo : brandInfo3 c = ⟨.onePair, (p + 2) * 2744 + (s + 2)⟩)
      (hstanding : standing3 c = ⟨.onePair, [p, s]⟩)
  | below {p s : Nat} (hlt : s < p) (hle : p ≤ 12) (hdown : ranksDown c = [p, p, s])
      (hinfo : brandInfo3 c = ⟨.onePair, (p + 2) * 38416 + (s + 2)⟩)
      (hstanding : standing3 c = ⟨.onePair, [p, s]⟩)
  | high {x y z : Nat} (hxy : x < y) (hyz : y < z) (hle : z ≤ 12) (hdown : ranksDown c = [z, y, x])
      (hinfo : brandInfo3 c = ⟨.hightCard, (x + 2) + (y + 2) * 14 + (z + 2) * 196⟩)
      (hstanding : standing3 c = ⟨.hightCard, [z, y, x]⟩)

theorem pow_four : pow 4 = 38416 := rfl

theorem kind (hlength : c.length = 3) : Kind c := by
  obtain ⟨x, y, z, hsort, hxy, hyz, hdown⟩ := three_sorted hlength
  have hx : rankAt [x, y, z] 0 = rank x := rfl
  have hy : rankAt [x, y, z] 1 = rank y := rfl
  have hz : rankAt [x, y, z] 2 = rank z := rfl
  have hle : (rank z).val ≤ 12 := Nat.le_of_lt_succ (rank z).isLt
  rcases hxy.eq_or_lt with hxy | hxy
  · rcases hyz.eq_or_lt with hyz | hyz
    · rw [hxy, hyz] at hdown
      refine .three hle hdown ?_ ?_
      · rw [brandInfo3, hsort]
        simp only [hx, hz, hxy, hyz, rtoi3, if_true]
      · rw [standing3, hdown]
        simp [groups]
    · rw [hxy] at hdown
      have hlt : (rank y).val < (rank z).val := hyz
      refine .above hlt hle hdown ?_ ?_
      · rw [brandInfo3, hsort]
        simp [pairPoint3, rtoi3, hx, hy, hz, hxy, hyz.ne, pow]
      · rw [standing3, hdown]
        simp [groups, pairsFirst, List.count_cons, List.diff_cons, hlt.ne, hlt.ne']
  · rcases hyz.eq_or_lt with hyz | hyz
    · rw [← hyz] at hdown hle
      have hlt : (rank x).val < (rank y).val := hxy
      refine .below hlt hle hdown ?_ ?_
      · rw [brandInfo3, hsort]
        have hpoint : pairPoint3 [x, y, z] =
            ((rank y).val + 2) * pow 4 + ((rank x).val + 2) := by
          rw [pairPoint3, hx, hy, hz, if_neg hxy.ne, if_pos hyz, rtoi3, rtoi3, hx, hz, hyz]
        have hpos : 0 < ((rank y).val + 2) * pow 4 + ((rank x).val + 2) :=
          Nat.add_pos_right _ (Nat.succ_pos _)
        rw [hx, hz, hpoint, if_neg (hxy.trans_eq hyz).ne, if_pos hpos, pow_four]
      · rw [standing3, hdown]
        simp [groups, pairsFirst, List.count_cons, List.diff_cons, hlt.ne, hlt.ne']
    · have hlow : (rank x).val < (rank y).val := hxy
      have hhigh : (rank y).val < (rank z).val := hyz
      refine .high hlow hhigh hle hdown ?_ ?_
      · rw [brandInfo3, hsort]
        simp [pairPoint3, rtoi3, hx, hy, hz, hxy.ne, hyz.ne, (hxy.trans hyz).ne, pow,
          List.range_succ]
      · rw [standing3, hdown]
        simp [groups, List.count_cons, hlow.ne, hlow.ne', hhigh.ne, hhigh.ne',
          (hlow.trans hhigh).ne, (hlow.trans hhigh).ne']

/-- The hands are ordered as they should be. -/
def Judged (a b : List Card) : Prop :=
  cmpBrandInfo (brandInfo3 a) (brandInfo3 b) = outcome (standing3 a) (standing3 b)

theorem single_lt_single {r r' : Nat} : [r] < [r'] ↔ r < r' := by
  simp [List.cons_lt_cons_iff]

theorem pair_lt_pair {p s p' s' : Nat} : [p, s] < [p', s'] ↔ p < p' ∨ (p = p' ∧ s < s') := by
  simp [List.cons_lt_cons_iff]

theorem triple_lt_triple {x y z x' y' z' : Nat} :
    [x, y, z] < [x', y', z'] ↔ x < x' ∨ (x = x' ∧ (y < y' ∨ (y = y' ∧ z < z'))) := by
  simp [List.cons_lt_cons_iff]

theorem judged_iff_of_kinds {a b : List Card} {brand : Brand} {m n : Nat} {rs rs' : List Nat}
    (ha : brandInfo3 a = ⟨brand, m⟩) (hb : brandInfo3 b = ⟨brand, n⟩)
    (hsa : standing3 a = ⟨brand, rs⟩) (hsb : standing3 b = ⟨brand, rs'⟩) :
    Judged a b ↔ (n < m ↔ rs' < rs) ∧ (m < n ↔ rs < rs') := by
  rw [Judged, ha, hb, hsa, hsb, cmpBrandInfo_eq_outcome rfl rfl]
  exact ⟨fun h => h rfl, fun h _ => h⟩

theorem brandInfo3_brand {c : List Card} (hlength : c.length = 3) :
    (brandInfo3 c).b = (standing3 c).brand := by
  cases kind hlength with
  | three _ _ hinfo hstanding | above _ _ _ hinfo hstanding | below _ _ _ hinfo hstanding
  | high _ _ _ _ hinfo hstanding => rw [hinfo, hstanding]

theorem onePair_of_single {c : List Card} (hlength : c.length = 3)
    (h : SingleAbove c ∨ SingleBelow c) : (standing3 c).brand = .onePair := by
  cases kind hlength with
  | three hle hdown => simp [SingleAbove, SingleBelow, hdown] at h
  | above hlt hle hdown hinfo hstanding => rw [hstanding]
  | below hlt hle hdown hinfo hstanding => rw [hstanding]
  | high hxy hyz hle hdown =>
      simp [SingleAbove, SingleBelow, hdown] at h
      omega

theorem judged_of_brand_ne {a b : List Card} (ha : a.length = 3) (hb : b.length = 3)
    (hne : (standing3 a).brand ≠ (standing3 b).brand) : Judged a b := by
  rw [Judged, cmpBrandInfo_eq_outcome (brandInfo3_brand ha) (brandInfo3_brand hb)]
  exact fun heq => absurd heq hne

/-- Two hands of three cards are ordered as in poker exactly when they are not two pairs
of which the lower one has its single card below it and the higher one above. -/
theorem judged_iff {a b : List Card} (ha : a.length = 3) (hb : b.length = 3) :
    Judged a b ↔ ¬ Misjudged a b ∧ ¬ Misjudged b a := by
  by_cases hbrand : (standing3 a).brand = (standing3 b).brand
  · cases kind ha with
    | three hle hdown hinfo hstanding =>
        rw [hstanding] at hbrand
        cases kind hb with
        | three hle' hdown' hinfo' hstanding' =>
            rw [judged_iff_of_kinds hinfo hinfo' hstanding hstanding']
            simp [Misjudged, SingleAbove, SingleBelow, hdown, hdown', single_lt_single]
        | above _ _ _ _ hstanding' | below _ _ _ _ hstanding' | high _ _ _ _ _ hstanding' =>
            rw [hstanding'] at hbrand
            cases hbrand
    | above hlt hle hdown hinfo hstanding | below hlt hle hdown hinfo hstanding =>
        rw [hstanding] at hbrand
        cases kind hb with
        | above hlt' hle' hdown' hinfo' hstanding' | below hlt' hle' hdown' hinfo' hstanding' =>
            rw [judged_iff_of_kinds hinfo hinfo' hstanding hstanding']
            simp [Misjudged, SingleAbove, SingleBelow, hdown, hdown', pair_lt_pair]
            omega
        | three _ _ _ hstanding' | high _ _ _ _ _ hstanding' =>
            rw [hstanding'] at hbrand
            cases hbrand
    | high hxy hyz hle hdown hinfo hstanding =>
        rw [hstanding] at hbrand
        cases kind hb with
        | high hxy' hyz' hle' hdown' hinfo' hstanding' =>
            rw [judged_iff_of_kinds hinfo hinfo' hstanding hstanding']
            simp [Misjudged, SingleAbove, SingleBelow, hdown, hdown', triple_lt_triple]
            omega
        | three _ _ _ hstanding' | above _ _ _ _ hstanding' | below _ _ _ _ hstanding' =>
            rw [hstanding'] at hbrand
            cases hbrand
  · have hnot : ∀ {c c' : List Card}, c.length = 3 → c'.length = 3 →
        (standing3 c).brand ≠ (standing3 c').brand → ¬ Misjudged c c' := by
      rintro c c' hc hc' hne ⟨habove, hbelow, -⟩
      apply hne
      rw [onePair_of_single hc (Or.inl habove), onePair_of_single hc' (Or.inr hbelow)]
    exact iff_of_true (judged_of_brand_ne ha hb hbrand)
      ⟨hnot ha hb hbrand, hnot hb ha (Ne.symm hbrand)⟩

theorem judged_iff_pair :
    Judged [1, 14, 5] [3, 16, 2] ↔ ¬ Misjudged [1, 14, 5] [3, 16, 2] ∧
      ¬ Misjudged [3, 16, 2] [1, 14, 5] :=
  judged_iff rfl rfl

/-- A pair of kings with an ace loses to a pair of threes with a two. -/
theorem kings_lose :
    ¬ ∀ a b : List Card, a.length = 3 → b.length = 3 → (∀ card ∈ a, InRange card) →
      (∀ card ∈ b, InRange card) → Judged a b := by
  intro hall
  have hjudged := hall [12, 25, 13] [2, 15, 1] rfl rfl (by decide) (by decide)
  revert hjudged
  rw [Judged]
  decide +kernel

end Points

end CasualGame.Lobby.ThreeCards
