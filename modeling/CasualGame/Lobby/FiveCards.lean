import CasualGame.Lib.Radix
import CasualGame.Lobby.RankGroups

/-! What `brandInfo5` and the rules of poker see in five cards. -/

namespace CasualGame.Lobby.FiveCards

open Deck
open Lib.Radix
open RankGroups
open SortedCards
open Standings

theorem value_seven (d0 d1 d2 d3 d4 d5 d6 : Nat) :
    value 14 [d6, d5, d4, d3, d2, d1, d0] = d6 * 7529536 + d5 * 537824 + d4 * 38416 + d3 * 2744 +
      d2 * 196 + d1 * 14 + d0 := by
  norm_num [value_cons]
  ring

theorem pow_table : pow 0 = 1 ∧ pow 1 = 14 ∧ pow 2 = 196 ∧ pow 3 = 2744 ∧ pow 4 = 38416 ∧
    pow 5 = 537824 ∧ pow 6 = 7529536 :=
  ⟨rfl, rfl, rfl, rfl, rfl, rfl, rfl⟩

theorem foldl_range_five (f : Nat → Nat) :
    (List.range 5).foldl (fun point i => point + f i) 0 = 0 + f 0 + f 1 + f 2 + f 3 + f 4 :=
  rfl

/-- The ranks of five cards, from low to high. -/
structure Ranked (c : List Card) (r0 r1 r2 r3 r4 : Nat) : Prop where
  rank0 : (rankAt (sort c) 0).val = r0
  rank1 : (rankAt (sort c) 1).val = r1
  rank2 : (rankAt (sort c) 2).val = r2
  rank3 : (rankAt (sort c) 3).val = r3
  rank4 : (rankAt (sort c) 4).val = r4
  le01 : r0 ≤ r1
  le12 : r1 ≤ r2
  le23 : r2 ≤ r3
  le34 : r3 ≤ r4
  le : r4 ≤ 12
  down : ranksDown c = [r4, r3, r2, r1, r0]

section Ranks

variable {c : List Card} {r0 r1 r2 r3 r4 : Nat}

theorem five_sorted (hlength : c.length = 5) :
    ∃ x0 x1 x2 x3 x4 : Card, sort c = [x0, x1, x2, x3, x4] := by
  have hsort : (sort c).length = 5 := (sort_perm c).length_eq.trans hlength
  obtain ⟨x0, l, hl⟩ := List.exists_of_length_succ _ hsort
  rw [hl] at hsort
  obtain ⟨x1, l', rfl⟩ := List.exists_of_length_succ _ (Nat.succ.inj hsort)
  obtain ⟨x2, x3, x4, rfl⟩ := List.length_eq_three.mp (Nat.succ.inj (Nat.succ.inj hsort))
  exact ⟨x0, x1, x2, x3, x4, hl⟩

theorem exists_ranked (hlength : c.length = 5) : ∃ r0 r1 r2 r3 r4, Ranked c r0 r1 r2 r3 r4 := by
  obtain ⟨x0, x1, x2, x3, x4, hsort⟩ := five_sorted hlength
  have hsorted := sort_ranks c
  have hdown := ranksDown_eq c
  rw [hsort] at hsorted hdown
  have h01 : rank x0 ≤ rank x1 := List.rel_of_pairwise_cons hsorted List.mem_cons_self
  have h12 : rank x1 ≤ rank x2 := List.rel_of_pairwise_cons hsorted.of_cons List.mem_cons_self
  have h23 : rank x2 ≤ rank x3 :=
    List.rel_of_pairwise_cons hsorted.of_cons.of_cons List.mem_cons_self
  have h34 : rank x3 ≤ rank x4 :=
    List.rel_of_pairwise_cons hsorted.of_cons.of_cons.of_cons List.mem_cons_self
  refine ⟨_, _, _, _, _, ⟨rfl, rfl, rfl, rfl, rfl, ?_, ?_, ?_, ?_, ?_, ?_⟩⟩
  all_goals rw [hsort]
  · exact h01
  · exact h12
  · exact h23
  · exact h34
  · exact Nat.le_of_lt_succ (rank x4).isLt
  · exact hdown

variable (h : Ranked c r0 r1 r2 r3 r4)

include h

theorem Ranked.fourPoint_eq : fourPoint (sort c) =
    if r0 = r3 then r3 + 1 else if r1 = r4 then r4 + 1 else 0 := by
  simp only [fourPoint, rtoi, Fin.ext_iff, h.rank0, h.rank1, h.rank3, h.rank4]

theorem Ranked.fullHousePoint_eq : fullHousePoint (sort c) =
    if r0 = r2 ∧ r3 = r4 then r2 + 1 else if r2 = r4 ∧ r0 = r1 then r4 + 1 else 0 := by
  simp only [fullHousePoint, rtoi, Fin.ext_iff, h.rank0, h.rank1, h.rank2, h.rank3, h.rank4]

theorem Ranked.threePoint_eq : threePoint (sort c) =
    if r0 = r2 then r2 + 1 else if r1 = r3 then r3 + 1 else if r2 = r4 then r4 + 1 else 0 := by
  simp only [threePoint, rtoi, Fin.ext_iff, h.rank0, h.rank1, h.rank2, h.rank3, h.rank4]

theorem Ranked.twoPairsPoint_eq : twoPairsPoint (sort c) =
    if r0 = r1 ∧ r2 = r3 then value 14 [r3 + 1, r1 + 1, 0, 0, 0, 0, r4 + 1]
    else if r0 = r1 ∧ r3 = r4 then value 14 [r4 + 1, r1 + 1, 0, 0, 0, 0, r2 + 1]
    else if r1 = r2 ∧ r3 = r4 then value 14 [r4 + 1, r2 + 1, 0, 0, 0, 0, r0 + 1]
    else 0 := by
  rw [value_seven, value_seven, value_seven]
  simp [twoPairsPoint, rtoi, Fin.ext_iff, h.rank0, h.rank1, h.rank2, h.rank3, h.rank4,
    pow_table]

theorem Ranked.pairIndex_eq : pairIndex (sort c) =
    if r0 = r1 then some 1 else if r1 = r2 then some 2 else if r2 = r3 then some 3
    else if r3 = r4 then some 4 else none := by
  simp only [pairIndex, List.range', List.find?_cons, List.find?_nil, Fin.ext_iff, h.rank0,
    h.rank1, h.rank2, h.rank3, h.rank4, Nat.add_sub_cancel, Nat.sub_self]
  grind

theorem Ranked.hightCardPoint_eq : hightCardPoint (sort c) =
    value 14 [0, 0, r4 + 1, r3 + 1, r2 + 1, r1 + 1, r0 + 1] := by
  rw [hightCardPoint, foldl_range_five fun i => rtoi (sort c) i * pow i, value_seven]
  simp only [rtoi, h.rank0, h.rank1, h.rank2, h.rank3, h.rank4, pow_table]
  omega

theorem Ranked.onePairPoint_one : onePairPoint (sort c) 1 =
    value 14 [0, r1 + 1, 0, 0, r4 + 1, r3 + 1, r2 + 1] := by
  rw [value_seven]
  simp [onePairPoint, rtoi, List.range_succ, h.rank1, h.rank2, h.rank3, h.rank4, pow_table]
  omega

theorem Ranked.onePairPoint_two : onePairPoint (sort c) 2 =
    value 14 [0, r2 + 1, 0, 0, r4 + 1, r3 + 1, r0 + 1] := by
  rw [value_seven]
  simp [onePairPoint, rtoi, List.range_succ, h.rank0, h.rank2, h.rank3, h.rank4, pow_table]
  omega

theorem Ranked.onePairPoint_three : onePairPoint (sort c) 3 =
    value 14 [0, r3 + 1, 0, 0, r4 + 1, r1 + 1, r0 + 1] := by
  rw [value_seven]
  simp [onePairPoint, rtoi, List.range_succ, h.rank0, h.rank1, h.rank3, h.rank4, pow_table]
  omega

theorem Ranked.onePairPoint_four : onePairPoint (sort c) 4 =
    value 14 [0, r4 + 1, 0, 0, r2 + 1, r1 + 1, r0 + 1] := by
  rw [value_seven]
  simp [onePairPoint, rtoi, List.range_succ, h.rank0, h.rank1, h.rank2, h.rank4, pow_table]
  omega

theorem Ranked.isStright5_iff : isStright5 (sort c) = true ↔ Straight (ranksDown c) := by
  simp [isStright5, Straight, wheel, List.range', rtoi, Fin.ext_iff, h.rank0, h.rank1, h.rank2,
    h.rank3, h.rank4, h.down]
  omega

theorem Ranked.straightPoint_eq (hstraight : Straight (ranksDown c)) :
    straightPoint (sort c) = if r4 = 12 then 14 + (straightRanks (ranksDown c)).getD 1 0
      else r4 + 1 := by
  rw [h.down] at hstraight ⊢
  simp [straightPoint, straightRanks, Fin.ext_iff, rtoi, h.rank0, h.rank4]
  simp [Straight, wheel] at hstraight ⊢
  grind

omit h in
theorem isFlush_iff (hlength : c.length = 5) : isFlush 5 (sort c) = true ↔ SameSuit c := by
  obtain ⟨x0, x1, x2, x3, x4, hsort⟩ := five_sorted hlength
  have hmem : ∀ card, card ∈ c ↔ card ∈ [x0, x1, x2, x3, x4] := by
    intro card
    rw [← hsort, (sort_perm c).mem_iff]
  have hflush : isFlush 5 (sort c) = true ↔
      suit x0 = suit x1 ∧ suit x1 = suit x2 ∧ suit x2 = suit x3 ∧ suit x3 = suit x4 := by
    simp [isFlush, List.range', suitAt, hsort]
  rw [hflush, SameSuit]
  simp only [hmem]
  constructor
  · rintro ⟨h01, h12, h23, h34⟩
    have hall : ∀ card ∈ [x0, x1, x2, x3, x4], suit card = suit x4 := by
      simp [h01, h12, h23, h34]
    exact fun card hcard card' hcard' => (hall card hcard).trans (hall card' hcard').symm
  · intro hall
    exact ⟨hall x0 (by simp) x1 (by simp), hall x1 (by simp) x2 (by simp),
      hall x2 (by simp) x3 (by simp), hall x3 (by simp) x4 (by simp)⟩

end Ranks

/-- The ranks of a hand and how often each of them comes. -/
structure Grouped (c : List Card) (bs : List (Nat × Nat)) : Prop where
  down : ranksDown c = spread bs
  pos : ∀ b ∈ bs, 0 < b.2
  nodup : (bs.map Prod.fst).Nodup

theorem Grouped.groups_eq {c : List Card} {bs : List (Nat × Nat)} (h : Grouped c bs) (k : Nat) :
    groups k (ranksDown c) = (bs.filter fun b => k ≤ b.2).map Prod.fst := by
  rw [h.down, groups_spread h.pos h.nodup]

theorem Grouped.pairsFirst_eq {c : List Card} {bs : List (Nat × Nat)} (h : Grouped c bs) :
    pairsFirst (ranksDown c) =
      (bs.filter fun b => 2 ≤ b.2).map Prod.fst ++ spread (bs.map unpaired) := by
  rw [h.down, pairsFirst_spread h.pos h.nodup]

theorem groups_nil_of_le {ranks : List Nat} {k k' : Nat} (hk : k ≤ k') (h : groups k ranks = []) :
    groups k' ranks = [] := by
  rw [groups, List.filter_eq_nil_iff] at h ⊢
  intro r hr hcount
  exact h r hr (by simpa using hk.trans (by simpa using hcount))

theorem groups_of_straight {ranks : List Nat} (h : Straight ranks) : groups 2 ranks = [] := by
  have hnodup : ranks.Nodup := by
    rcases h with hchain | rfl
    · have hsorted : ranks.IsChain (· > ·) := hchain.imp fun r r' hr => by omega
      exact hsorted.pairwise.imp fun hgt => hgt.ne'
    · decide
  rw [groups, List.filter_eq_nil_iff]
  intro r hr
  rw [List.count_eq_one_of_mem hnodup (List.mem_dedup.mp hr)]
  decide

theorem pairsFirst_of_groups {ranks : List Nat} (h : groups 2 ranks = []) :
    pairsFirst ranks = ranks := by
  rw [pairsFirst, h]
  rfl

/-- The seven kinds of hands by the groups of their ranks, with what the code finds in them. -/
inductive Kind (c : List Card) : Prop
  | five {r : Nat} (hr : r ≤ 12) (hfive : rankAt (sort c) 0 = rankAt (sort c) 4)
      (hpoint : rtoi (sort c) 0 = r + 1) (hgroups : groups 5 (ranksDown c) = [r])
  | four {r : Nat} (hr : r ≤ 12) (hne : rankAt (sort c) 0 ≠ rankAt (sort c) 4)
      (hfour : fourPoint (sort c) = r + 1) (hgroups5 : groups 5 (ranksDown c) = [])
      (hgroups4 : groups 4 (ranksDown c) = [r])
  | fullHouse {r : Nat} (hr : r ≤ 12) (hne : rankAt (sort c) 0 ≠ rankAt (sort c) 4)
      (hfour : fourPoint (sort c) = 0) (hfull : fullHousePoint (sort c) = r + 1)
      (hgroups4 : groups 4 (ranksDown c) = []) (hgroups3 : groups 3 (ranksDown c) = [r])
      (hgroups2 : (groups 2 (ranksDown c)).length = 2)
  | three {r x y z p : Nat} (hr : r ≤ 12) (hx : x ≤ 12) (hy : y ≤ 12) (hz : z ≤ 12)
      (hne : rankAt (sort c) 0 ≠ rankAt (sort c) 4) (hfour : fourPoint (sort c) = 0)
      (hfull : fullHousePoint (sort c) = 0) (hthree : threePoint (sort c) = r + 1)
      (htwo : twoPairsPoint (sort c) = 0) (hindex : pairIndex (sort c) = some p)
      (hpair : onePairPoint (sort c) p = value 14 [0, r + 1, 0, 0, x + 1, y + 1, z + 1])
      (hgroups4 : groups 4 (ranksDown c) = []) (hgroups3 : groups 3 (ranksDown c) = [r])
      (hgroups2 : groups 2 (ranksDown c) = [r]) (hpairs : pairsFirst (ranksDown c) = [r, x, y, z])
  | twoPairs {r r' x : Nat} (hr : r ≤ 12) (hr' : r' ≤ 12) (hx : x ≤ 12)
      (hthree : threePoint (sort c) = 0)
      (htwo : twoPairsPoint (sort c) = value 14 [r + 1, r' + 1, 0, 0, 0, 0, x + 1])
      (hgroups3 : groups 3 (ranksDown c) = []) (hgroups2 : groups 2 (ranksDown c) = [r, r'])
      (hpairs : pairsFirst (ranksDown c) = [r, r', x])
  | onePair {r x y z p : Nat} (hr : r ≤ 12) (hx : x ≤ 12) (hy : y ≤ 12) (hz : z ≤ 12)
      (hthree : threePoint (sort c) = 0) (htwo : twoPairsPoint (sort c) = 0)
      (hindex : pairIndex (sort c) = some p)
      (hpair : onePairPoint (sort c) p = value 14 [0, r + 1, 0, 0, x + 1, y + 1, z + 1])
      (hgroups3 : groups 3 (ranksDown c) = []) (hgroups2 : groups 2 (ranksDown c) = [r])
      (hpairs : pairsFirst (ranksDown c) = [r, x, y, z])
  | high (hthree : threePoint (sort c) = 0) (htwo : twoPairsPoint (sort c) = 0)
      (hindex : pairIndex (sort c) = none) (hgroups2 : groups 2 (ranksDown c) = [])

section Kinds

variable {c : List Card} {r0 r1 r2 r3 r4 : Nat}

theorem Ranked.first_eq_last (h : Ranked c r0 r1 r2 r3 r4) :
    rankAt (sort c) 0 = rankAt (sort c) 4 ↔ r0 = r4 := by
  rw [Fin.ext_iff, h.rank0, h.rank4]

theorem Ranked.kind (h : Ranked c r0 r1 r2 r3 r4) : Kind c := by
  have hle := h.le
  have hfirst := h.first_eq_last
  have hrank0 := h.rank0
  have hfour := h.fourPoint_eq
  have hfull := h.fullHousePoint_eq
  have hthree := h.threePoint_eq
  have htwo := h.twoPairsPoint_eq
  have hindex := h.pairIndex_eq
  have hone := h.onePairPoint_one
  have htwo' := h.onePairPoint_two
  have hthree' := h.onePairPoint_three
  have hfour' := h.onePairPoint_four
  have hdown := h.down
  rcases h.le01.eq_or_lt with rfl | h01 <;> rcases h.le12.eq_or_lt with rfl | h12 <;>
    rcases h.le23.eq_or_lt with rfl | h23 <;> rcases h.le34.eq_or_lt with rfl | h34
  · have hgrouped : Grouped c [(r0, 5)] := ⟨hdown, by simp, by simp⟩
    exact .five hle (hfirst.mpr rfl) (congrArg (· + 1) hrank0) (hgrouped.groups_eq 5)
  · have hgrouped : Grouped c [(r4, 1), (r0, 4)] := ⟨hdown, by simp, by simp; omega⟩
    exact .four (by omega) (by rw [Ne, hfirst]; omega) (by rw [hfour]; simp)
      (hgrouped.groups_eq 5) (hgrouped.groups_eq 4)
  · have hgrouped : Grouped c [(r3, 2), (r0, 3)] := ⟨hdown, by simp, by simp; omega⟩
    exact .fullHouse (by omega) (by rw [Ne, hfirst]; omega)
      (by rw [hfour]; split_ifs <;> omega) (by rw [hfull]; split_ifs <;> omega)
      (hgrouped.groups_eq 4) (hgrouped.groups_eq 3) (by rw [hgrouped.groups_eq 2]; rfl)
  · have hgrouped : Grouped c [(r4, 1), (r3, 1), (r0, 3)] := ⟨hdown, by simp, by simp; omega⟩
    exact .three (by omega) (by omega) (by omega) (by omega) (by rw [Ne, hfirst]; omega)
      (by rw [hfour]; split_ifs <;> omega) (by rw [hfull]; split_ifs <;> omega)
      (by rw [hthree]; split_ifs <;> omega) (by rw [htwo]; split_ifs <;> omega)
      (by rw [hindex]; split_ifs <;> first | rfl | omega) hone
      (hgrouped.groups_eq 4) (hgrouped.groups_eq 3) (hgrouped.groups_eq 2) hgrouped.pairsFirst_eq
  · have hgrouped : Grouped c [(r2, 3), (r0, 2)] := ⟨hdown, by simp, by simp; omega⟩
    exact .fullHouse (by omega) (by rw [Ne, hfirst]; omega)
      (by rw [hfour]; split_ifs <;> omega) (by rw [hfull]; split_ifs <;> omega)
      (hgrouped.groups_eq 4) (hgrouped.groups_eq 3) (by rw [hgrouped.groups_eq 2]; rfl)
  · have hgrouped : Grouped c [(r4, 1), (r2, 2), (r0, 2)] := ⟨hdown, by simp, by simp; omega⟩
    have hpairs : pairsFirst (ranksDown c) = [r2, r0, r4] := hgrouped.pairsFirst_eq
    exact .twoPairs (by omega) (by omega) (by omega)
      (by rw [hthree]; split_ifs <;> omega) (by rw [htwo, if_pos ⟨rfl, rfl⟩])
      (hgrouped.groups_eq 3) (hgrouped.groups_eq 2) hpairs
  · have hgrouped : Grouped c [(r3, 2), (r2, 1), (r0, 2)] := ⟨hdown, by simp, by simp; omega⟩
    have hpairs : pairsFirst (ranksDown c) = [r3, r0, r2] := hgrouped.pairsFirst_eq
    exact .twoPairs (by omega) (by omega) (by omega)
      (by rw [hthree]; split_ifs <;> omega) (by rw [htwo, if_neg (by omega), if_pos ⟨rfl, rfl⟩])
      (hgrouped.groups_eq 3) (hgrouped.groups_eq 2) hpairs
  · have hgrouped : Grouped c [(r4, 1), (r3, 1), (r2, 1), (r0, 2)] :=
      ⟨hdown, by simp, by simp; omega⟩
    exact .onePair (by omega) (by omega) (by omega) (by omega)
      (by rw [hthree]; split_ifs <;> omega) (by rw [htwo]; split_ifs <;> omega)
      (by rw [hindex]; split_ifs <;> first | rfl | omega) hone
      (hgrouped.groups_eq 3) (hgrouped.groups_eq 2) hgrouped.pairsFirst_eq
  · have hgrouped : Grouped c [(r1, 4), (r0, 1)] := ⟨hdown, by simp, by simp; omega⟩
    exact .four (by omega) (by rw [Ne, hfirst]; omega) (by rw [hfour]; split_ifs <;> omega)
      (hgrouped.groups_eq 5) (hgrouped.groups_eq 4)
  · have hgrouped : Grouped c [(r4, 1), (r1, 3), (r0, 1)] := ⟨hdown, by simp, by simp; omega⟩
    exact .three (by omega) (by omega) (by omega) (by omega) (by rw [Ne, hfirst]; omega)
      (by rw [hfour]; split_ifs <;> omega) (by rw [hfull]; split_ifs <;> omega)
      (by rw [hthree]; split_ifs <;> omega) (by rw [htwo]; split_ifs <;> omega)
      (by rw [hindex]; split_ifs <;> first | rfl | omega) htwo'
      (hgrouped.groups_eq 4) (hgrouped.groups_eq 3) (hgrouped.groups_eq 2) hgrouped.pairsFirst_eq
  · have hgrouped : Grouped c [(r3, 2), (r1, 2), (r0, 1)] := ⟨hdown, by simp, by simp; omega⟩
    have hpairs : pairsFirst (ranksDown c) = [r3, r1, r0] := hgrouped.pairsFirst_eq
    exact .twoPairs (by omega) (by omega) (by omega)
      (by rw [hthree]; split_ifs <;> omega)
      (by rw [htwo, if_neg (by omega), if_neg (by omega), if_pos ⟨rfl, rfl⟩])
      (hgrouped.groups_eq 3) (hgrouped.groups_eq 2) hpairs
  · have hgrouped : Grouped c [(r4, 1), (r3, 1), (r1, 2), (r0, 1)] :=
      ⟨hdown, by simp, by simp; omega⟩
    exact .onePair (by omega) (by omega) (by omega) (by omega)
      (by rw [hthree]; split_ifs <;> omega) (by rw [htwo]; split_ifs <;> omega)
      (by rw [hindex]; split_ifs <;> first | rfl | omega) htwo'
      (hgrouped.groups_eq 3) (hgrouped.groups_eq 2) hgrouped.pairsFirst_eq
  · have hgrouped : Grouped c [(r2, 3), (r1, 1), (r0, 1)] := ⟨hdown, by simp, by simp; omega⟩
    exact .three (by omega) (by omega) (by omega) (by omega) (by rw [Ne, hfirst]; omega)
      (by rw [hfour]; split_ifs <;> omega) (by rw [hfull]; split_ifs <;> omega)
      (by rw [hthree]; split_ifs <;> omega) (by rw [htwo]; split_ifs <;> omega)
      (by rw [hindex]; split_ifs <;> first | rfl | omega) hthree'
      (hgrouped.groups_eq 4) (hgrouped.groups_eq 3) (hgrouped.groups_eq 2) hgrouped.pairsFirst_eq
  · have hgrouped : Grouped c [(r4, 1), (r2, 2), (r1, 1), (r0, 1)] :=
      ⟨hdown, by simp, by simp; omega⟩
    exact .onePair (by omega) (by omega) (by omega) (by omega)
      (by rw [hthree]; split_ifs <;> omega) (by rw [htwo]; split_ifs <;> omega)
      (by rw [hindex]; split_ifs <;> first | rfl | omega) hthree'
      (hgrouped.groups_eq 3) (hgrouped.groups_eq 2) hgrouped.pairsFirst_eq
  · have hgrouped : Grouped c [(r3, 2), (r2, 1), (r1, 1), (r0, 1)] :=
      ⟨hdown, by simp, by simp; omega⟩
    exact .onePair (by omega) (by omega) (by omega) (by omega)
      (by rw [hthree]; split_ifs <;> omega) (by rw [htwo]; split_ifs <;> omega)
      (by rw [hindex]; split_ifs <;> first | rfl | omega) hfour'
      (hgrouped.groups_eq 3) (hgrouped.groups_eq 2) hgrouped.pairsFirst_eq
  · have hgrouped : Grouped c [(r4, 1), (r3, 1), (r2, 1), (r1, 1), (r0, 1)] :=
      ⟨hdown, by simp, by simp; omega⟩
    exact .high (by rw [hthree]; split_ifs <;> omega) (by rw [htwo]; split_ifs <;> omega)
      (by rw [hindex]; split_ifs <;> first | rfl | omega) (hgrouped.groups_eq 2)

end Kinds

end CasualGame.Lobby.FiveCards
