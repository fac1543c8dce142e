import CasualGame.Lobby.FiveCards

/-! The points of five cards order them as poker does. -/

namespace CasualGame.Lobby.PokerOrder

open Deck
open FiveCards
open Lib.Radix
open RankGroups
open SortedCards
open Standings

/-- Brands whose hands are ranked by the same rules. -/
inductive Family
  | group | straight | twoPairs | onePair | flush | hightCard

def family : Brand → Family
  | .fiveOfKind | .fourOfKind | .fullHouse | .threeOfKind => .group
  | .straightFlush | .straight => .straight
  | .flush => .flush
  | .twoPairs => .twoPairs
  | .onePair => .onePair
  | .hightCard => .hightCard

/-- The ranks that decide, and the digits to base 14 of the points they are given. -/
inductive Coded : Family → List Nat → List Nat → Prop
  | group {r : Nat} (hr : r ≤ 12) : Coded .group [r] [0, 0, 0, 0, 0, 0, r + 1]
  | straight {r : Nat} (hr : r < 12) : Coded .straight [r, 1] [0, 0, 0, 0, 0, 0, r + 1]
  | wheel : Coded .straight [12, 0] [0, 0, 0, 0, 0, 1, 0]
  | aceHigh : Coded .straight [12, 1] [0, 0, 0, 0, 0, 1, 1]
  | twoPairs {r r' x : Nat} (hr : r ≤ 12) (hr' : r' ≤ 12) (hx : x ≤ 12) :
      Coded .twoPairs [r, r', x] [r + 1, r' + 1, 0, 0, 0, 0, x + 1]
  | onePair {r x y z : Nat} (hr : r ≤ 12) (hx : x ≤ 12) (hy : y ≤ 12) (hz : z ≤ 12) :
      Coded .onePair [r, x, y, z] [0, r + 1, 0, 0, x + 1, y + 1, z + 1]
  | hightCard {r0 r1 r2 r3 r4 : Nat} (h0 : r0 ≤ 12) (h1 : r1 ≤ 12) (h2 : r2 ≤ 12) (h3 : r3 ≤ 12)
      (h4 : r4 ≤ 12) :
      Coded .hightCard [r4, r3, r2, r1, r0] [0, 0, r4 + 1, r3 + 1, r2 + 1, r1 + 1, r0 + 1]
  | flushTwoPairs {r r' x : Nat} (hr : r ≤ 12) (hr' : r' ≤ 12) (hx : x ≤ 12) :
      Coded .flush [2, r, r', x] [r + 1, r' + 1, 0, 0, 0, 0, x + 1]
  | flushOnePair {r x y z : Nat} (hr : r ≤ 12) (hx : x ≤ 12) (hy : y ≤ 12) (hz : z ≤ 12) :
      Coded .flush [1, r, x, y, z] [0, r + 1, 0, 0, x + 1, y + 1, z + 1]
  | flushHightCard {r0 r1 r2 r3 r4 : Nat} (h0 : r0 ≤ 12) (h1 : r1 ≤ 12) (h2 : r2 ≤ 12)
      (h3 : r3 ≤ 12) (h4 : r4 ≤ 12) :
      Coded .flush [0, r4, r3, r2, r1, r0] [0, 0, r4 + 1, r3 + 1, r2 + 1, r1 + 1, r0 + 1]

section Codes

variable {f : Family} {rs rs' ds ds' : List Nat}

theorem Coded.length (h : Coded f rs ds) : ds.length = 7 := by
  cases h <;> rfl

theorem Coded.lt (h : Coded f rs ds) : ∀ d ∈ ds, d < 14 := by
  cases h <;> simp <;> omega

theorem Coded.lt_iff (h : Coded f rs ds) (h' : Coded f rs' ds') : ds < ds' ↔ rs < rs' := by
  cases h <;> cases h' <;> simp [List.cons_lt_cons_iff] <;> omega

theorem Coded.value_lt_iff (h : Coded f rs ds) (h' : Coded f rs' ds') :
    value 14 ds < value 14 ds' ↔ rs < rs' := by
  rw [value_lt_value_iff (by decide) (h.length.trans h'.length.symm) h.lt h'.lt, h.lt_iff h']

end Codes

/-- The points of a hand are a code of its standing. -/
inductive Scored (c : List Card) : Prop
  | mk {s : Standing} {ds : List Nat} (hcoded : Coded (family s.brand) s.ranks ds)
      (hinfo : brandInfo5 c = ⟨s.brand, value 14 ds⟩) (hstanding : standing5 c = s)

section Scores

variable {c : List Card} {r0 r1 r2 r3 r4 : Nat}

theorem value_last (r : Nat) : value 14 [0, 0, 0, 0, 0, 0, r] = r := by simp

theorem zero_of_threePoint (h : Ranked c r0 r1 r2 r3 r4) (hthree : threePoint (sort c) = 0) :
    rankAt (sort c) 0 ≠ rankAt (sort c) 4 ∧ fourPoint (sort c) = 0 ∧
      fullHousePoint (sort c) = 0 := by
  have hle01 := h.le01
  have hle12 := h.le12
  have hle23 := h.le23
  have hle34 := h.le34
  rw [h.threePoint_eq] at hthree
  split_ifs at hthree with h02 h13 h24
  refine ⟨?_, ?_, ?_⟩
  · rw [Ne, h.first_eq_last]
    omega
  · rw [h.fourPoint_eq, if_neg (by omega), if_neg (by omega)]
  · rw [h.fullHousePoint_eq, if_neg (by omega), if_neg (by omega)]

theorem not_straight_of_groups {k : Nat} (hk : 2 ≤ k) (hgroups : groups k (ranksDown c) ≠ []) :
    ¬ Straight (ranksDown c) :=
  fun h => hgroups (groups_nil_of_le hk (groups_of_straight h))

theorem coded_straight (h : Ranked c r0 r1 r2 r3 r4) (hstraight : Straight (ranksDown c)) :
    ∃ ds, Coded .straight (straightRanks (ranksDown c)) ds ∧
      straightPoint (sort c) = value 14 ds := by
  have hpoint := h.straightPoint_eq hstraight
  have htop : straightRanks (ranksDown c) = [r4, if ranksDown c = wheel then 0 else 1] := by
    rw [straightRanks, h.down]
    rfl
  rw [htop] at hpoint ⊢
  by_cases hace : r4 = 12
  · rw [if_pos hace] at hpoint
    subst hace
    split_ifs at hpoint ⊢ with hwheel
    · exact ⟨_, .wheel, hpoint⟩
    · exact ⟨_, .aceHigh, hpoint⟩
  · have hwheel : ranksDown c ≠ wheel := by
      rw [h.down]
      intro heq
      exact hace (List.cons.inj heq).1
    rw [if_neg hace] at hpoint
    rw [if_neg hwheel]
    exact ⟨_, .straight (Nat.lt_of_le_of_ne h.le hace), hpoint.trans (value_last _).symm⟩

theorem scored (hlength : c.length = 5) : Scored c := by
  obtain ⟨r0, r1, r2, r3, r4, hranked⟩ := exists_ranked hlength
  have hflush := isFlush_iff hlength
  have hstraight := hranked.isStright5_iff
  cases hranked.kind with
  | @five r hr hfive hpoint hgroups =>
      refine .mk (s := ⟨.fiveOfKind, [r]⟩) (.group hr) ?_ ?_
      · rw [brandInfo5, if_pos hfive, hpoint, value_last]
      · simp [standing5, hgroups]
  | @four r hr hne hfour hgroups5 hgroups4 =>
      have hnot := not_straight_of_groups (c := c) (k := 4) (by decide) (by simp [hgroups4])
      refine .mk (s := ⟨.fourOfKind, [r]⟩) (.group hr) ?_ ?_
      · simp [brandInfo5, hne, hfour, hstraight, hnot]
      · simp [standing5, hgroups5, hgroups4, hnot]
  | @fullHouse r hr hne hfour hfull hgroups4 hgroups3 hgroups2 =>
      have hnot := not_straight_of_groups (c := c) (k := 3) (by decide) (by simp [hgroups3])
      have hgroups5 : groups 5 (ranksDown c) = [] := groups_nil_of_le (by decide) hgroups4
      refine .mk (s := ⟨.fullHouse, [r]⟩) (.group hr) ?_ ?_
      · simp [brandInfo5, hne, hfour, hfull, hstraight, hnot]
      · simp [standing5, hgroups5, hgroups4, hgroups3, hgroups2, hnot]
  | @three r x y z p hr hx hy hz hne hfour hfull hthree htwo hindex hpair hgroups4 hgroups3
      hgroups2 hpairs =>
      have hnot := not_straight_of_groups (c := c) (k := 3) (by decide) (by simp [hgroups3])
      have hgroups5 : groups 5 (ranksDown c) = [] := groups_nil_of_le (by decide) hgroups4
      by_cases hsuit : SameSuit c
      · refine .mk (s := ⟨.flush, [1, r, x, y, z]⟩) (.flushOnePair hr hx hy hz) ?_ ?_
        · rw [← hpair]
          simp [brandInfo5, hne, hfour, hfull, htwo, hindex, hstraight, hnot, hflush, hsuit]
        · simp [standing5, hgroups5, hgroups4, hgroups3, hgroups2, hpairs, hnot, hsuit]
      · refine .mk (s := ⟨.threeOfKind, [r]⟩) (.group hr) ?_ ?_
        · simp [brandInfo5, hne, hfour, hfull, hthree, hstraight, hnot, hflush, hsuit]
        · simp [standing5, hgroups5, hgroups4, hgroups3, hgroups2, hnot, hsuit]
  | @twoPairs r r' x hr hr' hx hthree htwo hgroups3 hgroups2 hpairs =>
      have hnot := not_straight_of_groups (c := c) (k := 2) (by decide) (by simp [hgroups2])
      have hgroups5 : groups 5 (ranksDown c) = [] := groups_nil_of_le (by decide) hgroups3
      have hgroups4 : groups 4 (ranksDown c) = [] := groups_nil_of_le (by decide) hgroups3
      obtain ⟨hne, hfour, hfull⟩ := zero_of_threePoint hranked hthree
      have hpos : 0 < value 14 [r + 1, r' + 1, 0, 0, 0, 0, x + 1] := by simp
      by_cases hsuit : SameSuit c
      · refine .mk (s := ⟨.flush, [2, r, r', x]⟩) (.flushTwoPairs hr hr' hx) ?_ ?_
        · rw [← htwo] at hpos ⊢
          simp [brandInfo5, hne, hfour, hfull, hpos, hstraight, hnot, hflush, hsuit]
        · simp [standing5, hgroups5, hgroups4, hgroups3, hgroups2, hpairs, hnot, hsuit]
      · refine .mk (s := ⟨.twoPairs, [r, r', x]⟩) (.twoPairs hr hr' hx) ?_ ?_
        · rw [← htwo] at hpos ⊢
          simp [brandInfo5, hne, hfour, hfull, hthree, hpos, hstraight, hnot, hflush, hsuit]
        · simp [standing5, hgroups5, hgroups4, hgroups3, hgroups2, hpairs, hnot, hsuit]
  | @onePair r x y z p hr hx hy hz hthree htwo hindex hpair hgroups3 hgroups2 hpairs =>
      have hnot := not_straight_of_groups (c := c) (k := 2) (by decide) (by simp [hgroups2])
      have hgroups5 : groups 5 (ranksDown c) = [] := groups_nil_of_le (by decide) hgroups3
      have hgroups4 : groups 4 (ranksDown c) = [] := groups_nil_of_le (by decide) hgroups3
      obtain ⟨hne, hfour, hfull⟩ := zero_of_threePoint hranked hthree
      by_cases hsuit : SameSuit c
      · refine .mk (s := ⟨.flush, [1, r, x, y, z]⟩) (.flushOnePair hr hx hy hz) ?_ ?_
        · rw [← hpair]
          simp [brandInfo5, hne, hfour, hfull, htwo, hindex, hstraight, hnot, hflush, hsuit]
        · simp [standing5, hgroups5, hgroups4, hgroups3, hgroups2, hpairs, hnot, hsuit]
      · refine .mk (s := ⟨.onePair, [r, x, y, z]⟩) (.onePair hr hx hy hz) ?_ ?_
        · rw [← hpair]
          simp [brandInfo5, hne, hfour, hfull, hthree, htwo, hindex, hstraight, hnot, hflush, hsuit]
        · simp [standing5, hgroups5, hgroups4, hgroups3, hgroups2, hpairs, hnot, hsuit]
  | high hthree htwo hindex hgroups2 =>
      have hgroups5 : groups 5 (ranksDown c) = [] := groups_nil_of_le (by decide) hgroups2
      have hgroups4 : groups 4 (ranksDown c) = [] := groups_nil_of_le (by decide) hgroups2
      have hgroups3 : groups 3 (ranksDown c) = [] := groups_nil_of_le (by decide) hgroups2
      have hpairs := pairsFirst_of_groups hgroups2
      obtain ⟨hne, hfour, hfull⟩ := zero_of_threePoint hranked hthree
      have hpoint := hranked.hightCardPoint_eq
      by_cases hfive : Straight (ranksDown c)
      · obtain ⟨ds, hcoded, hvalue⟩ := coded_straight hranked hfive
        by_cases hsuit : SameSuit c
        · refine .mk (s := ⟨.straightFlush, straightRanks (ranksDown c)⟩) hcoded ?_ ?_
          · rw [← hvalue]
            simp [brandInfo5, hne, hstraight, hfive, hflush, hsuit]
          · simp [standing5, hgroups5, hfive, hsuit]
        · refine .mk (s := ⟨.straight, straightRanks (ranksDown c)⟩) hcoded ?_ ?_
          · rw [← hvalue]
            simp [brandInfo5, hne, hfour, hfull, hstraight, hfive, hflush, hsuit]
          · simp [standing5, hgroups5, hgroups4, hgroups3, hfive, hsuit]
      · have hle0 := hranked.le01
        have hle1 := hranked.le12
        have hle2 := hranked.le23
        have hle3 := hranked.le34
        have hle4 := hranked.le
        by_cases hsuit : SameSuit c
        · refine .mk (s := ⟨.flush, 0 :: [r4, r3, r2, r1, r0]⟩) (.flushHightCard (by omega)
            (by omega) (by omega) (by omega) hle4) ?_ ?_
          · rw [← hpoint]
            simp [brandInfo5, hne, hfour, hfull, htwo, hindex, hstraight, hfive, hflush, hsuit]
          · rw [← hranked.down]
            simp [standing5, hgroups5, hgroups4, hgroups3, hgroups2, hpairs, hfive, hsuit]
        · refine .mk (s := ⟨.hightCard, [r4, r3, r2, r1, r0]⟩) (.hightCard (by omega)
            (by omega) (by omega) (by omega) hle4) ?_ ?_
          · rw [← hpoint]
            simp [brandInfo5, hne, hfour, hfull, hthree, htwo, hindex, hstraight, hfive, hflush,
              hsuit]
          · rw [← hranked.down]
            simp [standing5, hgroups5, hgroups4, hgroups3, hgroups2, hfive, hsuit]

end Scores

section Bounds

/-- Every number that `brandInfo5` computes on the way to its points fits an `int32_t`:
the products, and the sums after any number of summands. -/
structure FitsInt32 (c : List Card) : Prop where
  product : ∀ i j, rtoi (sort c) i * pow j < 2 ^ 31
  pairs : ∀ i j, rtoi (sort c) i * pow 6 + rtoi (sort c) j * pow 5 < 2 ^ 31
  twoPairs : ∀ i j k,
    rtoi (sort c) i * pow 6 + rtoi (sort c) j * pow 5 + rtoi (sort c) k < 2 ^ 31
  onePair : ∀ p n, ((((List.range 5).filter fun i => i ≠ p ∧ i ≠ p - 1).zipIdx).take n).foldl
    (fun point i => point + rtoi (sort c) i.1 * pow i.2) (rtoi (sort c) p * pow 5) < 2 ^ 31
  hightCard : ∀ n,
    ((List.range 5).take n).foldl (fun point i => point + rtoi (sort c) i * pow i) 0 < 2 ^ 31
  point : (brandInfo5 c).point < 2 ^ 31

theorem rtoi_le (c : List Card) (i : Nat) : rtoi c i ≤ 13 := (rankAt c i).isLt

theorem pow_le (i : Nat) : pow i ≤ 7529536 := by
  rw [pow]
  by_cases hi : i < 7
  · obtain rfl | rfl | rfl | rfl | rfl | rfl | rfl : i = 0 ∨ i = 1 ∨ i = 2 ∨ i = 3 ∨ i = 4 ∨
        i = 5 ∨ i = 6 := by omega
    all_goals decide
  · rw [List.getD_eq_getElem?_getD, List.getElem?_eq_none (Nat.le_of_not_lt hi)]
    exact Nat.zero_le _

theorem product_le (c : List Card) (i j : Nat) : rtoi c i * pow j ≤ 97883968 :=
  Nat.mul_le_mul (rtoi_le c i) (pow_le j)

theorem foldl_add_le {ι : Type} {f : ι → Nat} {bound : Nat} (hf : ∀ i, f i ≤ bound) (l : List ι)
    (start : Nat) : l.foldl (fun point i => point + f i) start ≤ start + l.length * bound := by
  induction l generalizing start with
  | nil => simp
  | cons i l ih =>
      calc
        (i :: l).foldl (fun point i => point + f i) start ≤
            (start + f i) + l.length * bound := ih _
        _ ≤ (start + bound) + l.length * bound :=
          Nat.add_le_add_right (Nat.add_le_add_left (hf i) _) _
        _ = start + (i :: l).length * bound := by
          rw [List.length_cons, Nat.succ_mul, Nat.add_assoc, Nat.add_comm bound]

theorem foldl_products_lt {ι : Type} {f : ι → Nat} (hf : ∀ i, f i ≤ 97883968) {l : List ι}
    (hl : l.length ≤ 5) (n : Nat) {start : Nat} (hstart : start ≤ 97883968) :
    (l.take n).foldl (fun point i => point + f i) start < 2 ^ 31 := by
  have hle := foldl_add_le hf (l.take n) start
  have hlength : (l.take n).length ≤ 5 := (List.length_take_le' n l).trans hl
  have hmul := Nat.mul_le_mul_right 97883968 hlength
  omega

theorem fitsInt32 {c : List Card} (hlength : c.length = 5) : FitsInt32 c := by
  have hproduct := product_le (sort c)
  refine ⟨fun i j => ?_, fun i j => ?_, fun i j k => ?_, fun p n => ?_, fun n => ?_, ?_⟩
  · have hi := hproduct i j
    omega
  · have hi := hproduct i 6
    have hj := hproduct j 5
    omega
  · have hi := hproduct i 6
    have hj := hproduct j 5
    have hk := rtoi_le (sort c) k
    omega
  · have hterm : ∀ i : Nat × Nat, rtoi (sort c) i.1 * pow i.2 ≤ 97883968 :=
      fun i => hproduct i.1 i.2
    refine foldl_products_lt hterm ?_ n (hproduct p 5)
    have hle := List.length_filter_le (fun i => i ≠ p ∧ i ≠ p - 1) (List.range 5)
    rwa [List.length_range, ← List.length_zipIdx] at hle
  · exact foldl_products_lt (fun i => hproduct i i) List.length_range.le n (Nat.zero_le _)
  · obtain ⟨hcoded, hinfo, -⟩ := scored hlength
    rw [hinfo]
    have hlt := value_lt (by decide) hcoded.lt
    rw [hcoded.length] at hlt
    calc
      value 14 _ < 14 ^ 7 := hlt
      _ < 2 ^ 31 := by norm_num

end Bounds

/-- Two hands of five cards are ordered as in poker. -/
theorem cmpBrandInfo_brandInfo5 {a b : List Card} (ha : a.length = 5) (hb : b.length = 5) :
    cmpBrandInfo (brandInfo5 a) (brandInfo5 b) = outcome (standing5 a) (standing5 b) ∧
      FitsInt32 a ∧ FitsInt32 b := by
  refine ⟨?_, fitsInt32 ha, fitsInt32 hb⟩
  obtain ⟨hcoded, hinfo, hstanding⟩ := scored ha
  obtain ⟨hcoded', hinfo', hstanding'⟩ := scored hb
  rw [hinfo, hinfo', hstanding, hstanding', cmpBrandInfo_eq_outcome rfl rfl]
  intro hbrand
  rw [hbrand] at hcoded
  exact ⟨hcoded'.value_lt_iff hcoded, hcoded.value_lt_iff hcoded'⟩

/-- Two pairs of one suit against one pair of that suit with higher cards. -/
theorem cmpBrandInfo_brandInfo5_flushes :
    cmpBrandInfo (brandInfo5 [1, 1, 2, 2, 3]) (brandInfo5 [13, 13, 12, 11, 10]) =
        outcome (standing5 [1, 1, 2, 2, 3]) (standing5 [13, 13, 12, 11, 10]) ∧
      FitsInt32 [1, 1, 2, 2, 3] ∧ FitsInt32 [13, 13, 12, 11, 10] :=
  cmpBrandInfo_brandInfo5 rfl rfl

end CasualGame.Lobby.PokerOrder
