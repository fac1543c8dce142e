import Mathlib.Algebra.Group.Action.Defs
import Mathlib.Algebra.BigOperators.Group.Multiset.Basic
import Mathlib.Algebra.Order.BigOperators.Group.Multiset
import Mathlib.Tactic.IntervalCases
import CasualGame.Lobby.Multiplicities

/-!
What the pair checks count. The scan jumps over a three of a kind and goes on behind it, so
the other two of five equal cards are a pair; the last two cards it leaves to a test made
before, which does not see that pair when the five are the highest cards.
-/

namespace CasualGame.Lobby.PairScan

open Deck
open RankGroups
open Multiplicities

/-- The scan over the ranks that are left. -/
def scan : List Nat → Bool × Nat → Bool × Nat
  | r0 :: r1 :: r2 :: l, acc =>
      if r0 = r1 then
        if r2 = r1 then scan l (true, acc.2)
        else scan (r2 :: l) (acc.1, acc.2 + 1)
      else scan (r1 :: r2 :: l) acc
  | [], acc => acc
  | [_], acc => acc
  | [_, _], acc => acc
termination_by l => l.length

variable {c c' : List Card} {dun dun' : G13SpecialBrand} {l : List Nat} {bs : List (Nat × Nat)}
  {a r k n : Nat}

section Scan

theorem scan_of_length_le (h : l.length ≤ 2) (acc : Bool × Nat) : scan l acc = acc := by
  rcases l with _ | ⟨r0, _ | ⟨r1, _ | ⟨r2, l⟩⟩⟩
  · rw [scan]
  · rw [scan]
  · rw [scan]
  · rw [List.length_cons, List.length_cons, List.length_cons] at h
    omega

theorem drop_sortedRanks {d : Nat} (hlength : c.length = 13) (hd : d < 11) :
    (sortedRanks c).drop d = (sortedRanks c).getD d 0 :: (sortedRanks c).getD (d + 1) 0 ::
      (sortedRanks c).getD (d + 2) 0 :: (sortedRanks c).drop (d + 3) := by
  have hlength' : (sortedRanks c).length = 13 := by rw [length_sortedRanks, hlength]
  rw [List.drop_eq_getElem_cons (by omega), List.drop_eq_getElem_cons (by omega),
    List.drop_eq_getElem_cons (by omega), List.getD_eq_getElem _ 0 (by omega),
    List.getD_eq_getElem _ 0 (by omega), List.getD_eq_getElem _ 0 (by omega)]

theorem pairScan_eq_scan (hlength : c.length = 13) (passes d : Nat) (acc : Bool × Nat)
    (hpasses : 11 ≤ passes + d) :
    pairScan (sort c) passes (d + 1) acc = scan ((sortedRanks c).drop d) acc := by
  have hlength' : (sortedRanks c).length = 13 := by rw [length_sortedRanks, hlength]
  have hstop : ∀ d acc, 11 ≤ d → scan ((sortedRanks c).drop d) acc = acc := fun d acc hd =>
    scan_of_length_le (by rw [List.length_drop, hlength']; omega) acc
  induction passes generalizing d acc with
  | zero =>
      rw [hstop d acc (by omega)]
      rfl
  | succ passes ih =>
      rcases Nat.lt_or_ge d 11 with hd | hd
      · rw [pairScan, if_pos (by omega), Nat.add_sub_cancel, drop_sortedRanks hlength hd, scan]
        simp only [rankAt_sort_eq_iff]
        split_ifs with hpair hthree
        · exact ih (d + 3) _ (by omega)
        · rw [ih (d + 2) _ (by omega), List.drop_eq_getElem_cons (by omega),
            List.getD_eq_getElem _ 0 (by omega)]
        · rw [ih (d + 1) _ (by omega), List.drop_eq_getElem_cons (by omega),
            List.drop_eq_getElem_cons (by omega), List.getD_eq_getElem _ 0 (by omega),
            List.getD_eq_getElem _ 0 (by omega)]
      · rw [pairScan, if_neg (by omega), hstop d acc hd]

end Scan

section Runs

/-- The pairs the scan finds in `k` equal cards that others follow. -/
def pairsIn (k : Nat) : Nat := if k = 2 ∨ k = 5 then 1 else 0

theorem scan_single (h : l.head? ≠ some a) (acc : Bool × Nat) : scan (a :: l) acc = scan l acc := by
  rcases l with _ | ⟨x, _ | ⟨y, l⟩⟩
  · rw [scan, scan]
  · rw [scan, scan]
  · rw [scan, if_neg]
    rintro rfl
    exact h rfl

theorem scan_pair (hl : l ≠ []) (h : l.head? ≠ some a) (acc : Bool × Nat) :
    scan (a :: a :: l) acc = scan l (acc.1, acc.2 + 1) := by
  rcases l with _ | ⟨x, l⟩
  · exact absurd rfl hl
  · rw [scan, if_pos rfl, if_neg]
    rintro rfl
    exact h rfl

theorem scan_three (a : Nat) (l : List Nat) (acc : Bool × Nat) :
    scan (a :: a :: a :: l) acc = scan l (true, acc.2) := by
  rw [scan, if_pos rfl, if_pos rfl]

theorem scan_run (hk : k ≤ 5) (hl : l ≠ []) (h : l.head? ≠ some a) (acc : Bool × Nat) :
    scan (List.replicate k a ++ l) acc = scan l (acc.1 || 3 ≤ k, acc.2 + pairsIn k) := by
  interval_cases k
  · simp [pairsIn]
  · simpa [pairsIn] using scan_single h acc
  · simpa [pairsIn] using scan_pair hl h acc
  · simpa [pairsIn] using scan_three a l acc
  · calc
      scan (List.replicate 4 a ++ l) acc = scan (a :: l) (true, acc.2) := scan_three a (a :: l) acc
      _ = scan l (true, acc.2) := scan_single h _
      _ = _ := by simp [pairsIn]
  · calc
      scan (List.replicate 5 a ++ l) acc = scan (a :: a :: l) (true, acc.2) :=
        scan_three a (a :: a :: l) acc
      _ = scan l (true, acc.2 + 1) := scan_pair hl h _
      _ = _ := by simp [pairsIn]

theorem scan_last_run (hk : k ≤ 5) (a : Nat) (acc : Bool × Nat) :
    scan (List.replicate k a) acc = (acc.1 || 3 ≤ k, acc.2) := by
  rcases Nat.lt_or_ge k 3 with hlt | hge
  · rw [scan_of_length_le (by rw [List.length_replicate]; omega), decide_eq_false (by omega),
      Bool.or_false]
  · obtain ⟨n, rfl⟩ := Nat.exists_eq_add_of_le' hge
    rw [List.replicate_succ, List.replicate_succ, List.replicate_succ, scan_three,
      scan_of_length_le (by rw [List.length_replicate]; omega), decide_eq_true hge, Bool.or_true]

theorem exists_spread (hl : l.Pairwise (· ≤ ·)) : ∃ bs : List (Nat × Nat),
    l = spread bs ∧ (bs.map Prod.fst).Pairwise (· < ·) ∧ ∀ b ∈ bs, 0 < b.2 := by
  induction l with
  | nil => exact ⟨[], rfl, List.Pairwise.nil, fun b hb => by cases hb⟩
  | cons r l ih =>
      obtain ⟨hr, hl⟩ := List.pairwise_cons.mp hl
      obtain ⟨bs, rfl, hbs, hpos⟩ := ih hl
      cases bs with
      | nil => exact ⟨[(r, 1)], rfl, List.pairwise_singleton _ _, by simp⟩
      | cons b bs =>
          have hb : 0 < b.2 := hpos b List.mem_cons_self
          have hmem : b.1 ∈ spread (b :: bs) := by
            rw [spread_cons]
            exact List.mem_append_left _ (List.mem_replicate.mpr ⟨hb.ne', rfl⟩)
          rcases (hr b.1 hmem).eq_or_lt with rfl | hlt
          · refine ⟨(b.1, b.2 + 1) :: bs, ?_, hbs, ?_⟩
            · rw [spread_cons, spread_cons, List.replicate_succ, List.cons_append]
            · rintro b' (_ | ⟨_, hb'⟩)
              · exact Nat.succ_pos _
              · exact hpos b' (List.mem_cons_of_mem _ hb')
          · refine ⟨(r, 1) :: b :: bs, by rw [spread_cons]; rfl, ?_, ?_⟩
            · rw [List.map_cons, List.pairwise_cons]
              refine ⟨fun r' hr' => ?_, hbs⟩
              rcases List.mem_cons.mp hr' with rfl | hr'
              · exact hlt
              · exact hlt.trans ((List.pairwise_cons.mp hbs).1 r' hr')
            · rintro b' (_ | ⟨_, hb'⟩)
              · exact Nat.one_pos
              · exact hpos b' hb'

theorem head?_spread_ne (ha : a ∉ bs.map Prod.fst) (hra : r ≠ a) :
    (spread bs ++ List.replicate k r).head? ≠ some a := by
  intro hhead
  rcases List.mem_append.mp (List.mem_of_mem_head? hhead) with hmem | hmem
  · exact notMem_spread ha hmem
  · exact hra (List.eq_of_mem_replicate hmem).symm

/-- The runs of a sorted hand, that of the highest rank apart. -/
structure Runs (bs : List (Nat × Nat)) (r k : Nat) : Prop where
  pos : 0 < k
  atMostFive : k ≤ 5
  restPos : ∀ b ∈ bs, 0 < b.2
  restAtMostFive : ∀ b ∈ bs, b.2 ≤ 5
  lower : ∀ b ∈ bs, b.1 < r
  nodup : (bs.map Prod.fst).Nodup

theorem Runs.notMem (h : Runs bs r k) : r ∉ bs.map Prod.fst := by
  intro hr
  obtain ⟨b, hb, rfl⟩ := List.mem_map.mp hr
  exact lt_irrefl _ (h.lower b hb)

theorem Runs.tail {b : Nat × Nat} (h : Runs (b :: bs) r k) : Runs bs r k where
  pos := h.pos
  atMostFive := h.atMostFive
  restPos b' hb' := h.restPos b' (List.mem_cons_of_mem _ hb')
  restAtMostFive b' hb' := h.restAtMostFive b' (List.mem_cons_of_mem _ hb')
  lower b' hb' := h.lower b' (List.mem_cons_of_mem _ hb')
  nodup := (List.nodup_cons.mp h.nodup).2

theorem Runs.scan_eq (h : Runs bs r k) (acc : Bool × Nat) :
    scan (spread bs ++ List.replicate k r) acc =
      (acc.1 || bs.any (fun b => 3 ≤ b.2) || 3 ≤ k, acc.2 + (bs.map fun b => pairsIn b.2).sum) := by
  induction bs generalizing acc with
  | nil => simpa [spread] using scan_last_run h.atMostFive r acc
  | cons b bs ih =>
      have hnil : spread bs ++ List.replicate k r ≠ [] := by
        intro hnil
        have hlength := congrArg List.length (List.append_eq_nil_iff.mp hnil).2
        rw [List.length_replicate, List.length_nil] at hlength
        exact h.pos.ne' hlength
      have hhead : (spread bs ++ List.replicate k r).head? ≠ some b.1 :=
        head?_spread_ne (List.nodup_cons.mp h.nodup).1 (h.lower b List.mem_cons_self).ne'
      rw [spread_cons, List.append_assoc,
        scan_run (h.restAtMostFive b List.mem_cons_self) hnil hhead, ih h.tail]
      simp only [List.any_cons, List.map_cons, List.sum_cons, Bool.or_assoc, Nat.add_assoc]

theorem exists_runs (h : Hand65 c) : ∃ bs r k, Runs bs r k ∧
    sortedRanks c = spread bs ++ List.replicate k r := by
  obtain ⟨bs, hbs, hlt, hpos⟩ := exists_spread (sortedRanks_sorted c)
  have hne : bs ≠ [] := by
    rintro rfl
    have hlength := length_sortedRanks c
    rw [hbs, h.length] at hlength
    cases hlength
  have hcount : ∀ b ∈ bs, b.2 ≤ 5 := by
    intro b hb
    rw [← count_spread (hlt.imp Nat.ne_of_lt) hb, ← hbs, (sortedRanks_perm c).count_eq]
    exact h.atMostFive b.1
  obtain ⟨bs, ⟨r, k⟩, rfl⟩ := (List.eq_nil_or_concat' bs).resolve_left hne
  have hrest : ∀ b ∈ bs, b ∈ bs ++ [(r, k)] := fun b hb => List.mem_append_left _ hb
  have hlast : (r, k) ∈ bs ++ [(r, k)] := List.mem_append_right _ List.mem_cons_self
  rw [List.map_append, List.pairwise_append] at hlt
  refine ⟨bs, r, k, ?_, ?_⟩
  · exact {
      pos := hpos _ hlast
      atMostFive := hcount _ hlast
      restPos := fun b hb => hpos b (hrest b hb)
      restAtMostFive := fun b hb => hcount b (hrest b hb)
      lower := fun b hb => hlt.2.2 b.1 (List.mem_map_of_mem hb) r (List.mem_singleton_self r)
      nodup := hlt.1.imp Nat.ne_of_lt }
  · rw [hbs, spread, List.flatMap_append, List.flatMap_singleton, spread]

/-- The highest rank comes five times. -/
def FiveOnTop (c : List Card) : Prop :=
  ∃ r ∈ ranks c, (∀ r' ∈ ranks c, r' ≤ r) ∧ (ranks c).count r = 5

variable (hruns : Runs bs r k) (hsorted : sortedRanks c = spread bs ++ List.replicate k r)

include hruns hsorted

theorem count_top : (ranks c).count r = k := by
  rw [← (sortedRanks_perm c).count_eq, hsorted, List.count_append, List.count_replicate_self,
    List.count_eq_zero_of_not_mem (notMem_spread hruns.notMem), Nat.zero_add]

theorem fiveOnTop_iff : FiveOnTop c ↔ k = 5 := by
  have hmem : ∀ r', r' ∈ ranks c ↔ r' ∈ spread bs ∨ r' = r := by
    intro r'
    rw [← (sortedRanks_perm c).mem_iff, hsorted, List.mem_append, List.mem_replicate]
    exact or_congr_right (and_iff_right hruns.pos.ne')
  have htop : ∀ r' ∈ ranks c, r' ≤ r := by
    intro r' hr'
    rcases (hmem r').mp hr' with hlow | rfl
    · obtain ⟨b, hb, hr'⟩ := List.mem_flatMap.mp hlow
      rw [List.eq_of_mem_replicate hr']
      exact (hruns.lower b hb).le
    · exact le_rfl
  constructor
  · rintro ⟨r', hr', hmax, hcount⟩
    obtain rfl : r' = r := Nat.le_antisymm (htop r' hr') (hmax r ((hmem r).mpr (Or.inr rfl)))
    exact (count_top hruns hsorted).symm.trans hcount
  · intro hk
    exact ⟨r, (hmem r).mpr (Or.inr rfl), htop, (count_top hruns hsorted).trans hk⟩

theorem multiplicities_eq : multiplicities c = k ::ₘ (bs.map Prod.snd : List Nat) := by
  have hperm : (ranks c).Perm (spread (bs ++ [(r, k)])) := by
    rw [spread, List.flatMap_append, List.flatMap_singleton, ← spread, ← hsorted]
    exact (sortedRanks_perm c).symm
  have hpos : ∀ b ∈ bs ++ [(r, k)], 0 < b.2 := by
    intro b hb
    rcases List.mem_append.mp hb with hb | hb
    · exact hruns.restPos b hb
    · obtain rfl := List.mem_singleton.mp hb
      exact hruns.pos
  have hnodup : ((bs ++ [(r, k)]).map Prod.fst).Nodup := by
    rw [List.map_append, List.map_singleton, ← List.concat_eq_append]
    exact hruns.nodup.concat hruns.notMem
  have hcounts : ((spread (bs ++ [(r, k)])).dedup.map fun r' => (ranks c).count r') =
      (bs ++ [(r, k)]).map Prod.snd := by
    rw [dedup_spread hpos hnodup, List.map_map]
    apply List.map_congr_left
    intro b hb
    rw [Function.comp_apply, hperm.count_eq, count_spread hnodup hb]
  rw [multiplicities, ← Multiset.coe_eq_coe.mpr (hperm.dedup.symm.map _), hcounts,
    List.map_append, Multiset.cons_coe, Multiset.coe_eq_coe]
  exact List.perm_append_singleton ..

theorem lastPair_iff (hlength : c.length = 13) :
    (rankAt (sort c) 11 = rankAt (sort c) 12 ∧ rankAt (sort c) 10 ≠ rankAt (sort c) 12) ↔
      k = 2 := by
  have hsum : (spread bs).length + k = 13 := by
    rw [← List.length_replicate (n := k) (a := r), ← List.length_append, ← hsorted,
      length_sortedRanks, hlength]
  have htop : ∀ i < 13, (sortedRanks c).getD i 0 = r ↔ (spread bs).length ≤ i := by
    intro i hi
    rw [hsorted]
    rcases Nat.lt_or_ge i (spread bs).length with hlt | hge
    · rw [List.getD_append _ _ _ _ hlt, List.getD_eq_getElem _ 0 hlt]
      refine iff_of_false ?_ (Nat.not_le.mpr hlt)
      intro heq
      exact notMem_spread hruns.notMem (heq ▸ List.getElem_mem hlt)
    · rw [List.getD_append_right _ _ _ _ hge, List.getD_replicate _ (by omega)]
      exact iff_of_true rfl hge
  have hpos := hruns.pos
  have hlast : (sortedRanks c).getD 12 0 = r := (htop 12 (by decide)).mpr (by omega)
  rw [Ne, rankAt_sort_eq_iff, rankAt_sort_eq_iff, hlast, htop 11 (by decide), htop 10 (by decide)]
  omega

theorem pairCount_eq (hlength : c.length = 13) : pairCount c =
    (bs.any (fun b => 3 ≤ b.2) || 3 ≤ k,
      (if k = 2 then 1 else 0) + (bs.map fun b => pairsIn b.2).sum) := by
  rw [pairCount, pairScan_eq_scan hlength 12 0 _ (by decide), List.drop_zero, hsorted,
    hruns.scan_eq, Bool.false_or]
  simp only [lastPair_iff hruns hsorted hlength]

end Runs

section Counts

theorem length_spread (bs : List (Nat × Nat)) : (spread bs).length = (bs.map Prod.snd).sum := by
  rw [spread, List.length_flatMap]
  simp only [List.length_replicate]

theorem sum_pairsIn (bs : List (Nat × Nat)) : (bs.map fun b => pairsIn b.2).sum =
    (bs.map Prod.snd).count 2 + (bs.map Prod.snd).count 5 := by
  induction bs with
  | nil => rfl
  | cons b bs ih =>
      rw [List.map_cons, List.sum_cons, ih, List.map_cons, List.count_cons, List.count_cons,
        pairsIn]
      simp only [beq_iff_eq]
      grind

theorem sum_multiplicities (hc : Hand65 c) : (multiplicities c).sum = 13 := by
  obtain ⟨bs, r, k, hruns, hsorted⟩ := exists_runs hc
  rw [multiplicities_eq hruns hsorted, Multiset.sum_cons, Multiset.sum_coe, ← length_spread,
    ← hc.length, ← length_sortedRanks c, hsorted, List.length_append, List.length_replicate,
    Nat.add_comm]

theorem pos_of_mem_multiplicities (hc : Hand65 c) {m : Nat} (hm : m ∈ multiplicities c) :
    0 < m := by
  obtain ⟨bs, r, k, hruns, hsorted⟩ := exists_runs hc
  rw [multiplicities_eq hruns hsorted, Multiset.mem_cons, Multiset.mem_coe] at hm
  rcases hm with rfl | hm
  · exact hruns.pos
  · obtain ⟨b, hb, rfl⟩ := List.mem_map.mp hm
    exact hruns.restPos b hb

theorem FiveOnTop.five_mem (hc : Hand65 c) (h : FiveOnTop c) : 5 ∈ multiplicities c := by
  obtain ⟨bs, r, k, hruns, hsorted⟩ := exists_runs hc
  rw [multiplicities_eq hruns hsorted, (fiveOnTop_iff hruns hsorted).mp h]
  exact Multiset.mem_cons_self ..

theorem pairCount_fst (hc : Hand65 c) :
    (pairCount c).1 = true ↔ ∃ m ∈ multiplicities c, 3 ≤ m := by
  obtain ⟨bs, r, k, hruns, hsorted⟩ := exists_runs hc
  rw [pairCount_eq hruns hsorted hc.length, multiplicities_eq hruns hsorted]
  simp only [Bool.or_eq_true, List.any_eq_true, decide_eq_true_eq, Multiset.mem_cons,
    Multiset.mem_coe, List.mem_map]
  constructor
  · rintro (⟨b, hb, hthree⟩ | hthree)
    · exact ⟨b.2, Or.inr ⟨b, hb, rfl⟩, hthree⟩
    · exact ⟨k, Or.inl rfl, hthree⟩
  · rintro ⟨m, rfl | ⟨b, hb, rfl⟩, hthree⟩
    · exact Or.inr hthree
    · exact Or.inl ⟨b, hb, hthree⟩

theorem pairCount_snd (hc : Hand65 c) :
    (FiveOnTop c → (pairCount c).2 + 1 = (multiplicities c).count 2 + (multiplicities c).count 5) ∧
      (¬ FiveOnTop c →
        (pairCount c).2 = (multiplicities c).count 2 + (multiplicities c).count 5) := by
  obtain ⟨bs, r, k, hruns, hsorted⟩ := exists_runs hc
  rw [pairCount_eq hruns hsorted hc.length, multiplicities_eq hruns hsorted,
    fiveOnTop_iff hruns hsorted, Multiset.count_cons, Multiset.count_cons, Multiset.coe_count,
    Multiset.coe_count]
  dsimp only
  rw [sum_pairsIn]
  constructor
  · rintro rfl
    rw [if_neg (by decide), if_neg (by decide), if_pos rfl]
    omega
  · intro hk
    rw [if_neg (Ne.symm hk)]
    simp only [eq_comm (a := k)]
    omega

/-- Thirteen cards in a five and four pairs. -/
def fiveAndPairs : Multiset Nat := {5, 2, 2, 2, 2}

theorem exists_rest (M : Multiset Nat) : ∃ K,
    M = Multiset.replicate (M.count 5) 5 + Multiset.replicate (M.count 2) 2 + K := by
  apply Multiset.le_iff_exists_add.mp
  apply Multiset.le_iff_count.mpr
  intro m
  rw [Multiset.count_add, Multiset.count_replicate, Multiset.count_replicate]
  split_ifs with hfive htwo htwo
  · omega
  · rw [← hfive, Nat.add_zero]
  · rw [← htwo, Nat.zero_add]
  · exact Nat.zero_le _

theorem counts_le (hc : Hand65 c) :
    5 * (multiplicities c).count 5 + 2 * (multiplicities c).count 2 ≤ 13 := by
  have hsum := sum_multiplicities hc
  obtain ⟨K, hK⟩ := exists_rest (multiplicities c)
  rw [hK, Multiset.sum_add, Multiset.sum_add, Multiset.sum_replicate, Multiset.sum_replicate,
    smul_eq_mul, smul_eq_mul] at hsum
  omega

theorem eq_fiveAndPairs (hc : Hand65 c) (hfive : (multiplicities c).count 5 = 1)
    (htwo : (multiplicities c).count 2 = 4) : multiplicities c = fiveAndPairs := by
  have hsum := sum_multiplicities hc
  obtain ⟨K, hK⟩ := exists_rest (multiplicities c)
  rw [hfive, htwo] at hK
  have hpos : ∀ m ∈ K, 0 < m := by
    intro m hm
    apply pos_of_mem_multiplicities hc
    rw [hK]
    exact Multiset.mem_add.mpr (Or.inr hm)
  rw [hK, Multiset.sum_add, Multiset.sum_add, Multiset.sum_replicate, Multiset.sum_replicate,
    smul_eq_mul, smul_eq_mul] at hsum
  have hnone : K = 0 := by
    apply Multiset.eq_zero_of_forall_notMem
    intro m hm
    have hle : m ≤ K.sum := Multiset.le_sum_of_mem hm
    have := hpos m hm
    omega
  rw [hK, hnone]
  rfl

end Counts

/-- The whole-hand brands go by how often the ranks come: the bombs and the four threes are
found where such groups are, and hands that agree in their multiplicities agree in the pair
checks. -/
structure ByMultiplicities (c c' : List Card) (dun dun' : G13SpecialBrand) : Prop where
  tripleBombs : Recognised c dun .tripleBombs ↔ NoneBefore .tripleBombs c dun ∧ HasGroups 3 4 c
  quradThreeOfKind : Recognised c dun .quradThreeOfKind ↔
    NoneBefore .quradThreeOfKind c dun ∧ HasGroups 4 3 c
  pairs : FallsThrough c dun → FallsThrough c' dun' → multiplicities c = multiplicities c' →
    (Recognised c dun .pentaPairsAndThreeOfKind ↔
      Recognised c' dun' .pentaPairsAndThreeOfKind) ∧
    (Recognised c dun .sixPairs ↔ Recognised c' dun' .sixPairs)

/-- Both hands are a five and four pairs, and the five is the highest rank of one of them only. -/
structure FiveMoved (c c' : List Card) (dun dun' : G13SpecialBrand) : Prop where
  fallsThrough : FallsThrough c dun ∧ FallsThrough c' dun'
  multiplicities : multiplicities c = fiveAndPairs ∧ multiplicities c' = fiveAndPairs
  top : ¬ (FiveOnTop c ↔ FiveOnTop c')

section Pairs

theorem pairCount_of_fiveAndPairs (hc : Hand65 c) (h : multiplicities c = fiveAndPairs) :
    (pairCount c).1 = true ∧ ((pairCount c).2 = 5 ↔ ¬ FiveOnTop c) := by
  obtain ⟨htop, hlow⟩ := pairCount_snd hc
  have hfive : (multiplicities c).count 5 = 1 := by rw [h]; decide
  have htwo : (multiplicities c).count 2 = 4 := by rw [h]; decide
  rw [hfive, htwo] at htop hlow
  refine ⟨(pairCount_fst hc).mpr ⟨5, by rw [h]; decide, by decide⟩, ?_⟩
  constructor
  · intro hcount hfive
    have := htop hfive
    omega
  · exact hlow

theorem pairs_of_fiveOnTop (hc : Hand65 c) (hc' : Hand65 c')
    (hmult : multiplicities c = multiplicities c') (htop : FiveOnTop c) (hlow : ¬ FiveOnTop c')
    (hne : multiplicities c ≠ fiveAndPairs) : (pairCount c).2 < 5 ∧ (pairCount c').2 < 5 := by
  have hcount := (pairCount_snd hc).1 htop
  have hcount' := (pairCount_snd hc').2 hlow
  have hle := counts_le hc
  have hfive : 0 < (multiplicities c).count 5 := Multiset.count_pos.mpr (htop.five_mem hc)
  rw [← hmult] at hcount'
  rcases Nat.lt_or_ge (pairCount c').2 5 with hlt | hge
  · exact ⟨by omega, hlt⟩
  · exact absurd (eq_fiveAndPairs hc (by omega) (by omega)) hne

theorem pairCount_snd_eq (hc : Hand65 c) (hc' : Hand65 c')
    (hmult : multiplicities c = multiplicities c') (htop : FiveOnTop c ↔ FiveOnTop c') :
    (pairCount c).2 = (pairCount c').2 := by
  obtain ⟨hfive, hlow⟩ := pairCount_snd hc
  obtain ⟨hfive', hlow'⟩ := pairCount_snd hc'
  rw [← hmult] at hfive' hlow'
  rcases Classical.em (FiveOnTop c) with h | h
  · exact Nat.add_right_cancel ((hfive h).trans (hfive' (htop.mp h)).symm)
  · exact (hlow h).trans (hlow' (htop.not.mp h)).symm

theorem pairs_agree (hc : Hand65 c) (hc' : Hand65 c') (hfall : FallsThrough c dun)
    (hfall' : FallsThrough c' dun') (hmult : multiplicities c = multiplicities c')
    (hmoved : ¬ FiveMoved c c' dun dun') :
    (Recognised c dun .pentaPairsAndThreeOfKind ↔
      Recognised c' dun' .pentaPairsAndThreeOfKind) ∧
    (Recognised c dun .sixPairs ↔ Recognised c' dun' .sixPairs) := by
  have hthree : (pairCount c).1 = true ↔ (pairCount c').1 = true := by
    rw [pairCount_fst hc, pairCount_fst hc', hmult]
  rw [hfall.recognised_pentaPairs hc.length, hfall'.recognised_pentaPairs hc'.length,
    hfall.recognised_sixPairs hc.length, hfall'.recognised_sixPairs hc'.length, hthree]
  rcases Classical.em (FiveOnTop c ↔ FiveOnTop c') with htop | htop
  · rw [pairCount_snd_eq hc hc' hmult htop]
    exact ⟨Iff.rfl, Iff.rfl⟩
  · have hne : multiplicities c ≠ fiveAndPairs := fun h =>
      hmoved ⟨⟨hfall, hfall'⟩, ⟨h, hmult.symm.trans h⟩, htop⟩
    have hfew : (pairCount c).2 < 5 ∧ (pairCount c').2 < 5 := by
      rcases Classical.em (FiveOnTop c) with h | h
      · exact pairs_of_fiveOnTop hc hc' hmult h (fun h' => htop (iff_of_true h h')) hne
      · have h' : FiveOnTop c' := Classical.not_not.mp fun h' => htop (iff_of_false h h')
        exact (pairs_of_fiveOnTop hc' hc hmult.symm h' h (hmult ▸ hne)).symm
    constructor
    · exact iff_of_false (fun h => by omega) (fun h => by omega)
    · exact iff_of_false (fun h => by omega) (fun h => by omega)

end Pairs

theorem byMultiplicities_iff (hc : Hand65 c) (hc' : Hand65 c') :
    ByMultiplicities c c' dun dun' ↔ ¬ FiveMoved c c' dun dun' := by
  constructor
  · intro h hmoved
    obtain ⟨hfall, hfall'⟩ := hmoved.fallsThrough
    obtain ⟨hmult, hmult'⟩ := hmoved.multiplicities
    have hpenta := (h.pairs hfall hfall' (hmult.trans hmult'.symm)).1
    obtain ⟨hthree, hfive⟩ := pairCount_of_fiveAndPairs hc hmult
    obtain ⟨hthree', hfive'⟩ := pairCount_of_fiveAndPairs hc' hmult'
    rw [hfall.recognised_pentaPairs hc.length, hfall'.recognised_pentaPairs hc'.length,
      and_iff_right hthree, and_iff_right hthree', hfive, hfive'] at hpenta
    exact hmoved.top (not_iff_not.mp hpenta)
  · intro hmoved
    constructor
    · rw [recognised_iff hc.length (by decide) (by decide), applies_tripleBombs_iff]
    · rw [recognised_iff hc.length (by decide) (by decide), applies_quradThreeOfKind_iff]
    · exact fun hfall hfall' hmult => pairs_agree hc hc' hfall hfall' hmult hmoved

/-- Five aces and four pairs. -/
def fiveAces : List Card := [13, 26, 39, 52, 52, 1, 14, 2, 15, 3, 16, 4, 17]

/-- Five twos and four pairs, of which one is of aces. -/
def fiveTwos : List Card := [1, 14, 27, 40, 40, 13, 26, 2, 15, 3, 16, 4, 17]

theorem hand65_fiveAces : Hand65 fiveAces := hand65_of_counts rfl (by decide) (by decide)

theorem hand65_fiveTwos : Hand65 fiveTwos := hand65_of_counts rfl (by decide) (by decide)

theorem fiveAces_not_byMultiplicities : ¬ ∀ (c c' : List Card) (dun dun' : G13SpecialBrand),
    Hand65 c → Hand65 c' → ByMultiplicities c c' dun dun' := by
  intro hall
  have hpairs := (hall fiveAces fiveTwos .none .none hand65_fiveAces hand65_fiveTwos).pairs
    (fallsThrough_of_value_le rfl (by decide +kernel))
    (fallsThrough_of_value_le rfl (by decide +kernel)) (by decide +kernel)
  have htwos : Recognised fiveTwos .none .pentaPairsAndThreeOfKind :=
    ⟨by decide +kernel, fun h => by cases h⟩
  have haces : g13SpecialBrandByAll fiveAces .none ≠ .pentaPairsAndThreeOfKind := by
    decide +kernel
  exact haces (hpairs.1.mpr htwos).1

theorem byMultiplicities_iff_fiveTwos :
    ByMultiplicities fiveAces fiveTwos .none .tripleFlush ↔
      ¬ FiveMoved fiveAces fiveTwos .none .tripleFlush :=
  byMultiplicities_iff hand65_fiveAces hand65_fiveTwos

end CasualGame.Lobby.PairScan
