import Mathlib.Data.List.GetD
import Mathlib.Data.Multiset.Basic
import Mathlib.Data.List.Perm.Subperm
import CasualGame.Lobby.RankGroups

/-!
The special brands of a whole hand, said of the ranks and suits it holds and not of the
places these have in the sorted hand.
-/

namespace CasualGame.Lobby.Multiplicities

open Deck
open SortedCards
open Standings

def ranks (c : List Card) : List Nat := c.map fun card => (rank card).val

/-- How often the ranks of the hand come, whichever these are. -/
def multiplicities (c : List Card) : Multiset Nat :=
  (ranks c).dedup.map fun r => (ranks c).count r

/-- `k` cards of each of the ranks, one rank after the other. -/
def blocks (k : Nat) (rs : List Nat) : List Nat := rs.flatMap fun r => List.replicate k r

/-- The hand contains `n` disjoint groups of `k` cards of equal rank. -/
def HasGroups (n k : Nat) (c : List Card) : Prop :=
  ∃ rs : List Nat, rs.length = n ∧ (blocks k rs).Subperm (ranks c)

/-- A hand of the game with 65 cards, in which a rank comes up to five times. -/
structure Hand65 (c : List Card) : Prop where
  length : c.length = 13
  inRange : ∀ card ∈ c, InRange card
  atMostFive : ∀ r, (ranks c).count r ≤ 5

/-- What each class is that is looked for before the pairs. -/
inductive Applies (c : List Card) (dun : G13SpecialBrand) : G13SpecialBrand → Prop
  | flushStriaght (hranks : (ranks c).Nodup) (hsuit : SameSuit c) : Applies c dun .flushStriaght
  | straight (hranks : (ranks c).Nodup) : Applies c dun .straight
  | royal (hcards : ∀ card ∈ c, Rank.rJ ≤ rank card) : Applies c dun .royal
  | tripleStraightFlush (hdun : dun = .tripleStraightFlush) : Applies c dun .tripleStraightFlush
  | tripleBombs (hgroups : HasGroups 3 4 c) : Applies c dun .tripleBombs
  | allBig (hcards : ∀ card ∈ c, Rank.r8 ≤ rank card) : Applies c dun .allBig
  | allLittle (hcards : ∀ card ∈ c, rank card ≤ Rank.r8) : Applies c dun .allLittle
  | red (hcards : ∀ card ∈ c, suit card = .heart ∨ suit card = .diamond) :
      Applies c dun .redOrBlack
  | black (hcards : ∀ card ∈ c, suit card = .spade ∨ suit card = .club) :
      Applies c dun .redOrBlack
  | quradThreeOfKind (hgroups : HasGroups 4 3 c) : Applies c dun .quradThreeOfKind

/-- No class that is looked for before `b` applies; the order is that of the prizes. -/
def NoneBefore (b : G13SpecialBrand) (c : List Card) (dun : G13SpecialBrand) : Prop :=
  ∀ b' : G13SpecialBrand, b.value < b'.value → ¬ Applies c dun b'

/-- The hand goes on to the pair checks. -/
def FallsThrough (c : List Card) (dun : G13SpecialBrand) : Prop := ∀ b, ¬ Applies c dun b

/-- The answer is `b`, and not only because the rows came with it. -/
def Recognised (c : List Card) (dun b : G13SpecialBrand) : Prop :=
  g13SpecialBrandByAll c dun = b ∧ (dun = b → g13SpecialBrandByAll c .none = b)

variable {c : List Card} {dun b : G13SpecialBrand} {l rs : List Nat} {k n x : Nat}

section Sorted

/-- The ranks of the hand as the checks find them. -/
def sortedRanks (c : List Card) : List Nat := ranks (sort c)

theorem sortedRanks_perm (c : List Card) : (sortedRanks c).Perm (ranks c) :=
  (sort_perm c).map _

theorem length_sortedRanks (c : List Card) : (sortedRanks c).length = c.length := by
  rw [(sortedRanks_perm c).length_eq, ranks, List.length_map]

theorem sortedRanks_sorted (c : List Card) : (sortedRanks c).Pairwise (· ≤ ·) := by
  apply List.pairwise_map.mpr
  exact (List.pairwise_map.mp (sort_ranks c)).imp Fin.le_def.mp

theorem rankAt_sort (c : List Card) (i : Nat) :
    (rankAt (sort c) i).val = (sortedRanks c).getD i 0 := by
  rw [rankAt, sortedRanks, ranks]
  exact (List.getD_map _ 0 fun card => (rank card).val).symm

theorem rankAt_sort_eq_iff (c : List Card) (i j : Nat) :
    rankAt (sort c) i = rankAt (sort c) j ↔
      (sortedRanks c).getD i 0 = (sortedRanks c).getD j 0 := by
  rw [← rankAt_sort, ← rankAt_sort, Fin.val_inj]

theorem rank_lt_of_mem {r : Nat} (h : r ∈ ranks c) : r < 13 := by
  obtain ⟨card, -, rfl⟩ := List.mem_map.mp h
  exact (rank card).isLt

end Sorted

section Groups

theorem blocks_cons (k r : Nat) (rs : List Nat) :
    blocks k (r :: rs) = List.replicate k r ++ blocks k rs :=
  List.flatMap_cons

theorem length_blocks (k : Nat) (rs : List Nat) : (blocks k rs).length = rs.length * k := by
  induction rs with
  | nil => simp [blocks]
  | cons r rs ih =>
      rw [blocks_cons, List.length_append, ih, List.length_replicate, List.length_cons,
        Nat.succ_mul, Nat.add_comm]

theorem mem_blocks {r : Nat} (h : r ∈ blocks k rs) : r ∈ rs := by
  obtain ⟨r', hr', hr⟩ := List.mem_flatMap.mp h
  rwa [List.eq_of_mem_replicate hr]

theorem blocks_perm {rs' : List Nat} (h : rs'.Perm rs) : (blocks k rs').Perm (blocks k rs) :=
  h.flatMap_right _

theorem blocks_sorted (h : rs.Pairwise (· ≤ ·)) : (blocks k rs).Pairwise (· ≤ ·) := by
  induction rs with
  | nil => exact List.Pairwise.nil
  | cons r rs ih =>
      obtain ⟨hr, hrs⟩ := List.pairwise_cons.mp h
      rw [blocks_cons, List.pairwise_append]
      refine ⟨List.pairwise_replicate.mpr (Or.inr le_rfl), ih hrs, fun a ha b hb => ?_⟩
      rw [List.eq_of_mem_replicate ha]
      exact hr b (mem_blocks hb)

theorem blocks_append (k : Nat) (ps qs : List Nat) :
    blocks k (ps ++ qs) = blocks k ps ++ blocks k qs :=
  List.flatMap_append

theorem eq_blocks_of_perm (hl : l.Pairwise (· ≤ ·)) (hperm : l.Perm (x :: blocks k rs)) :
    ∃ ps qs : List Nat, ps.length + qs.length = rs.length ∧
      l = blocks k ps ++ x :: blocks k qs := by
  have hrs : (rs.insertionSort (· ≤ ·)).Perm rs := List.perm_insertionSort _ rs
  have hsorted : (rs.insertionSort (· ≤ ·)).Pairwise (· ≤ ·) := List.pairwise_insertionSort _ rs
  generalize rs.insertionSort (· ≤ ·) = ss at hrs hsorted
  have hlow : ∀ r ∈ ss.filter (· < x), r < x := fun r hr => by
    simpa using (List.mem_filter.mp hr).2
  have hhigh : ∀ r ∈ ss.filter fun r => !decide (r < x), x ≤ r := fun r hr => by
    simpa using (List.mem_filter.mp hr).2
  have hsplit : (ss.filter (· < x) ++ ss.filter fun r => !decide (r < x)).Perm rs :=
    (List.filter_append_perm _ _).trans hrs
  refine ⟨ss.filter (· < x), ss.filter fun r => !decide (r < x), ?_, ?_⟩
  · rw [← List.length_append, hsplit.length_eq]
  · have hps := blocks_sorted (k := k) (hsorted.filter (· < x))
    have hqs := blocks_sorted (k := k) (hsorted.filter fun r => !decide (r < x))
    have hblocks : (blocks k (ss.filter (· < x)) ++
        x :: blocks k (ss.filter fun r => !decide (r < x))).Perm (x :: blocks k rs) := by
      rw [List.perm_middle.congr_left, List.perm_cons, ← blocks_append]
      exact blocks_perm hsplit
    apply (hperm.trans hblocks.symm).eq_of_pairwise (fun a b _ _ => Nat.le_antisymm) hl
    rw [List.pairwise_append, List.pairwise_cons]
    refine ⟨hps, ⟨fun r hr => hhigh r (mem_blocks hr), hqs⟩, fun r hr r' hr' => ?_⟩
    have hrx := hlow r (mem_blocks hr)
    rcases List.mem_cons.mp hr' with rfl | hr'
    · exact hrx.le
    · exact hrx.le.trans (hhigh r' (mem_blocks hr'))

theorem hasGroups_iff (hlength : c.length = n * k + 1) : HasGroups n k c ↔
    ∃ (ps qs : List Nat) (x : Nat), ps.length + qs.length = n ∧
      sortedRanks c = blocks k ps ++ x :: blocks k qs := by
  constructor
  · rintro ⟨rs, hrs, hsub⟩
    have hone : (sortedRanks c).length = (blocks k rs).length + 1 := by
      rw [length_sortedRanks, hlength, length_blocks, hrs]
    have hsub' : (blocks k rs).Subperm (sortedRanks c) :=
      hsub.trans (sortedRanks_perm c).symm.subperm
    obtain ⟨x, hx⟩ := hsub'.exists_of_length_lt (by rw [hone]; exact Nat.lt_succ_self _)
    have hperm : (x :: blocks k rs).Perm (sortedRanks c) := hx.perm_of_length_le hone.le
    obtain ⟨ps, qs, hn, hsplit⟩ := eq_blocks_of_perm (sortedRanks_sorted c) hperm.symm
    exact ⟨ps, qs, x, hn.trans hrs, hsplit⟩
  · rintro ⟨ps, qs, x, hn, hsorted⟩
    refine ⟨ps ++ qs, by rw [List.length_append, hn], ?_⟩
    apply List.Subperm.trans _ (sortedRanks_perm c).subperm
    rw [hsorted, blocks_append]
    exact (List.Sublist.append (List.Sublist.refl _) (List.sublist_cons_self x _)).subperm

theorem eq_replicate_of_sorted (hl : l.Pairwise (· ≤ ·)) (hlength : l.length = k + 1)
    (hends : l.getD 0 0 = l.getD k 0) : l = List.replicate (k + 1) (l.getD 0 0) := by
  apply List.eq_replicate_iff.mpr
  refine ⟨hlength, fun r hr => ?_⟩
  obtain ⟨i, hi, rfl⟩ := List.mem_iff_getElem.mp hr
  have hle : ∀ i j, (hi : i < l.length) → (hj : j < l.length) → i ≤ j → l[i] ≤ l[j] := by
    intro i j hi hj hij
    rcases hij.eq_or_lt with rfl | hlt
    · exact le_rfl
    · exact List.pairwise_iff_getElem.mp hl i j hi hj hlt
  rw [List.getD_eq_getElem l 0 (by omega), List.getD_eq_getElem l 0 (by omega)] at hends
  rw [List.getD_eq_getElem l 0 (by omega)]
  apply Nat.le_antisymm
  · rw [hends]
    exact hle i k hi (by omega) (by omega)
  · exact hle 0 i (by omega) hi (Nat.zero_le i)

theorem exists_blocks_iff (hl : l.Pairwise (· ≤ ·)) (hlength : l.length = n * (k + 1)) :
    (∃ rs, rs.length = n ∧ l = blocks (k + 1) rs) ↔
      ∀ m < n, l.getD (m * (k + 1)) 0 = l.getD (m * (k + 1) + k) 0 := by
  induction n generalizing l with
  | zero =>
      have hnil : l = [] := List.eq_nil_of_length_eq_zero (by rw [hlength, Nat.zero_mul])
      exact iff_of_true ⟨[], rfl, hnil⟩ fun m hm => absurd hm (Nat.not_lt_zero m)
  | succ n ih =>
      rw [Nat.succ_mul] at hlength
      obtain ⟨P, Q, rfl, hP⟩ : ∃ P Q, P ++ Q = l ∧ P.length = k + 1 :=
        ⟨l.take (k + 1), l.drop (k + 1), List.take_append_drop .., by
          rw [List.length_take, hlength]; omega⟩
      obtain ⟨hsortedP, hsortedQ, -⟩ := List.pairwise_append.mp hl
      rw [List.length_append, hP] at hlength
      have hfirst : (∃ r, P = List.replicate (k + 1) r) ↔ P.getD 0 0 = P.getD k 0 := by
        constructor
        · rintro ⟨r, rfl⟩
          simp
        · intro hends
          exact ⟨_, eq_replicate_of_sorted hsortedP hP hends⟩
      have hlow : ∀ i ≤ k, (P ++ Q).getD i 0 = P.getD i 0 := fun i hi =>
        List.getD_append _ _ _ _ (by omega)
      have hhigh : ∀ m i, (P ++ Q).getD ((m + 1) * (k + 1) + i) 0 = Q.getD (m * (k + 1) + i) 0 := by
        intro m i
        rw [List.getD_append_right _ _ _ _ (by rw [hP, Nat.succ_mul]; omega), hP]
        congr 1
        rw [Nat.succ_mul]
        omega
      have hhigh0 : ∀ m, (P ++ Q).getD ((m + 1) * (k + 1)) 0 = Q.getD (m * (k + 1)) 0 :=
        fun m => hhigh m 0
      rw [Nat.forall_lt_succ_left, Nat.zero_mul, Nat.zero_add, hlow 0 (Nat.zero_le k),
        hlow k le_rfl, ← hfirst]
      simp only [hhigh, hhigh0]
      rw [← ih hsortedQ (by omega)]
      constructor
      · rintro ⟨_ | ⟨r, rs⟩, hn, heq⟩
        · cases hn
        · rw [blocks_cons] at heq
          obtain ⟨hPr, hQ⟩ := List.append_inj heq (by rw [hP, List.length_replicate])
          exact ⟨⟨r, hPr⟩, rs, Nat.succ_injective hn, hQ⟩
      · rintro ⟨⟨r, rfl⟩, rs, hn, rfl⟩
        exact ⟨r :: rs, congrArg (· + 1) hn, (blocks_cons _ _ _).symm⟩

theorem exists_blocks_around_iff {A B : List Nat} {j : Nat} (hl : (A ++ x :: B).Pairwise (· ≤ ·))
    (hA : A.length = j * (k + 1)) (hB : B.length = n * (k + 1)) :
    ((∃ ps, ps.length = j ∧ A = blocks (k + 1) ps) ∧ ∃ qs, qs.length = n ∧ B = blocks (k + 1) qs) ↔
      (∀ m < j, (A ++ x :: B).getD (m * (k + 1)) 0 = (A ++ x :: B).getD (m * (k + 1) + k) 0) ∧
        ∀ m < n, (A ++ x :: B).getD (j * (k + 1) + 1 + m * (k + 1)) 0 =
          (A ++ x :: B).getD (j * (k + 1) + 1 + m * (k + 1) + k) 0 := by
  obtain ⟨hsortedA, htail, -⟩ := List.pairwise_append.mp hl
  rw [exists_blocks_iff hsortedA hA, exists_blocks_iff (List.pairwise_cons.mp htail).2 hB]
  have hlow : ∀ m < j, ∀ i ≤ k, (A ++ x :: B).getD (m * (k + 1) + i) 0 =
      A.getD (m * (k + 1) + i) 0 := by
    intro m hm i hi
    have hle : (m + 1) * (k + 1) ≤ j * (k + 1) := Nat.mul_le_mul_right _ hm
    rw [Nat.succ_mul] at hle
    exact List.getD_append _ _ _ _ (by omega)
  have hhigh : ∀ i, (A ++ x :: B).getD (j * (k + 1) + 1 + i) 0 = B.getD i 0 := by
    intro i
    rw [List.getD_append_right _ _ _ _ (by omega), hA,
      show j * (k + 1) + 1 + i - j * (k + 1) = i + 1 by omega, List.getD_cons_succ]
  apply and_congr
  · apply forall₂_congr
    intro m hm
    rw [hlow m hm k le_rfl]
    exact Eq.congr_left (hlow m hm 0 (Nat.zero_le k)).symm
  · simp only [hhigh, Nat.add_assoc _ (_ * _) k]

theorem hasGroups_iff_places (hlength : c.length = n * (k + 1) + 1) : HasGroups n (k + 1) c ↔
    ∃ j ≤ n,
      (∀ m < j, rankAt (sort c) (m * (k + 1)) = rankAt (sort c) (m * (k + 1) + k)) ∧
        ∀ m < n - j, rankAt (sort c) (j * (k + 1) + 1 + m * (k + 1)) =
          rankAt (sort c) (j * (k + 1) + 1 + m * (k + 1) + k) := by
  simp only [hasGroups_iff hlength, rankAt_sort_eq_iff]
  have hl := sortedRanks_sorted c
  have hlength' : (sortedRanks c).length = n * (k + 1) + 1 := by
    rw [length_sortedRanks, hlength]
  generalize sortedRanks c = l at hl hlength'
  constructor
  · rintro ⟨ps, qs, x, hn, rfl⟩
    refine ⟨ps.length, by omega, (exists_blocks_around_iff hl (length_blocks ..) ?_).mp
      ⟨⟨ps, rfl, rfl⟩, qs, by omega, rfl⟩⟩
    rw [length_blocks, show qs.length = n - ps.length by omega]
  · rintro ⟨j, hj, hplaces⟩
    have hle : j * (k + 1) ≤ n * (k + 1) := Nat.mul_le_mul_right _ hj
    obtain ⟨A, x, B, rfl, hA⟩ : ∃ A x B, A ++ x :: B = l ∧ A.length = j * (k + 1) := by
      refine ⟨l.take (j * (k + 1)), l[j * (k + 1)], l.drop (j * (k + 1) + 1), ?_, ?_⟩
      · rw [← List.drop_eq_getElem_cons, List.take_append_drop]
      · rw [List.length_take]
        omega
    rw [List.length_append, List.length_cons] at hlength'
    have hB : B.length = (n - j) * (k + 1) := by
      rw [Nat.sub_mul]
      omega
    obtain ⟨⟨ps, hps, rfl⟩, qs, hqs, rfl⟩ := (exists_blocks_around_iff hl hA hB).mpr hplaces
    exact ⟨ps, qs, x, by omega, rfl⟩

theorem exists_le_iff {p : Nat → Prop} : (∃ j ≤ n, p j) ↔ ∃ j < n + 1, p j := by
  simp only [Nat.lt_succ_iff]

theorem isTripleBombs_iff (hlength : c.length = 13) :
    isTripleBombs (sort c) = true ↔ HasGroups 3 4 c := by
  rw [hasGroups_iff_places hlength, isTripleBombs, exists_le_iff]
  simp only [Bool.or_eq_true, Bool.and_eq_true, decide_eq_true_eq, and_assoc, or_assoc,
    Nat.reduceAdd, Nat.exists_lt_succ_left, Nat.not_lt_zero, IsEmpty.forall_iff, implies_true,
    Nat.sub_zero, Nat.zero_mul, Nat.zero_add, Nat.forall_lt_succ_left, Nat.add_zero, Nat.one_mul,
    Nat.lt_one_iff, forall_eq, Nat.reduceMul, true_and, Nat.reduceSubDiff, Nat.le_add_left,
    Nat.sub_eq_zero_of_le, and_true, exists_eq_left]

theorem isQuradThreeOfKind_iff (hlength : c.length = 13) :
    isQuradThreeOfKind (sort c) = true ↔ HasGroups 4 3 c := by
  rw [hasGroups_iff_places hlength, isQuradThreeOfKind, exists_le_iff]
  simp only [Bool.or_eq_true, Bool.and_eq_true, decide_eq_true_eq, and_assoc, or_assoc,
    Nat.reduceAdd, Nat.exists_lt_succ_left, Nat.not_lt_zero, IsEmpty.forall_iff, implies_true,
    Nat.sub_zero, Nat.zero_mul, Nat.zero_add, Nat.forall_lt_succ_left, Nat.add_zero, Nat.one_mul,
    Nat.lt_one_iff, forall_eq, Nat.reduceMul, true_and, Nat.reduceSubDiff, Nat.le_add_left,
    Nat.sub_eq_zero_of_le, and_true, exists_eq_left]

end Groups

section Classes

theorem forall_getD_iff {p : Card → Prop} (hlength : c.length = n) :
    (∀ i < n, p (c.getD i 0)) ↔ ∀ card ∈ c, p card := by
  rw [List.forall_mem_iff_getElem]
  subst hlength
  apply forall₂_congr
  intro i hi
  rw [List.getD_eq_getElem c 0 hi]

theorem forall_sort_iff {p : Card → Prop} :
    (∀ card ∈ sort c, p card) ↔ ∀ card ∈ c, p card :=
  forall_congr' fun _ => imp_congr_left (sort_perm c).mem_iff

theorem length_sort (c : List Card) : (sort c).length = c.length := (sort_perm c).length_eq

theorem isStright_iff (hlength : c.length = 13) :
    ((List.range' 1 12).all fun i =>
      (rankAt (sort c) (i - 1)).val + 1 = (rankAt (sort c) i).val) = true ↔ (ranks c).Nodup := by
  have hl := sortedRanks_sorted c
  have hlength' : (sortedRanks c).length = 13 := by rw [length_sortedRanks, hlength]
  rw [← (sortedRanks_perm c).nodup_iff]
  simp only [rankAt_sort]
  constructor
  · intro hall
    have hstep : ∀ i < 13, (sortedRanks c).getD i 0 = (sortedRanks c).getD 0 0 + i := by
      intro i hi
      induction i with
      | zero => rfl
      | succ i ih =>
          have hnext := List.all_eq_true.mp hall (i + 1) (by rw [List.mem_range'_1]; omega)
          have hprev := ih (by omega)
          simp only [decide_eq_true_eq, Nat.add_sub_cancel] at hnext
          omega
    have heq : sortedRanks c = List.range' ((sortedRanks c).getD 0 0) 13 := by
      apply List.ext_getElem (by rw [hlength', List.length_range'])
      intro i hi _
      rw [List.getElem_range', ← List.getD_eq_getElem _ 0 hi, hstep i (by omega), Nat.one_mul]
    rw [heq]
    exact List.nodup_range'
  · intro hnodup
    have hrange : (sortedRanks c).Perm (List.range 13) := by
      apply List.Subperm.perm_of_length_le
      · apply List.subperm_of_subset hnodup
        intro r hr
        exact List.mem_range.mpr (rank_lt_of_mem ((sortedRanks_perm c).subset hr))
      · rw [hlength', List.length_range]
    rw [hrange.eq_of_pairwise (fun a b _ _ => Nat.le_antisymm) hl (by decide)]
    decide

theorem isFlush_iff (hlength : c.length = 13) : isFlush 13 (sort c) = true ↔ SameSuit c := by
  have hsort : (sort c).length = 13 := by rw [length_sort, hlength]
  constructor
  · intro hall
    have hfirst : ∀ i < 13, suit ((sort c).getD i 0) = suit ((sort c).getD 0 0) := by
      intro i hi
      induction i with
      | zero => rfl
      | succ i ih =>
          have hnext := List.all_eq_true.mp hall (i + 1) (by rw [List.mem_range'_1]; omega)
          rw [← ih (by omega)]
          exact (of_decide_eq_true hnext).symm
    have hsuit : ∀ card ∈ c, suit card = suit ((sort c).getD 0 0) :=
      forall_sort_iff.mp ((forall_getD_iff hsort).mp hfirst)
    exact fun card hcard card' hcard' => (hsuit card hcard).trans (hsuit card' hcard').symm
  · intro hsame
    have hmem : ∀ i < 13, (sort c).getD i 0 ∈ c :=
      (forall_getD_iff hsort).mpr fun card => (sort_perm c).mem_iff.mp
    apply List.all_eq_true.mpr
    intro i hi
    rw [List.mem_range'_1] at hi
    exact decide_eq_true (hsame _ (hmem (i - 1) (by omega)) _ (hmem i (by omega)))

theorem rankAt_sort_le {i j : Nat} (hij : i ≤ j) (hj : j < c.length) :
    rankAt (sort c) i ≤ rankAt (sort c) j := by
  rw [Fin.le_def, rankAt_sort, rankAt_sort,
    List.getD_eq_getElem _ 0 (by rw [length_sortedRanks]; omega),
    List.getD_eq_getElem _ 0 (by rw [length_sortedRanks]; omega)]
  rcases hij.eq_or_lt with rfl | hlt
  · exact le_rfl
  · exact List.pairwise_iff_getElem.mp (sortedRanks_sorted c) i j _ _ hlt

theorem forall_rank_iff {p : Rank → Prop} (hlength : c.length = 13) :
    (∀ card ∈ c, p (rank card)) ↔ ∀ i < 13, p (rankAt (sort c) i) := by
  rw [← forall_sort_iff (p := fun card => p (rank card))]
  exact (forall_getD_iff (by rw [length_sort, hlength])).symm

theorem le_rankAt_zero_iff (hlength : c.length = 13) (r : Rank) :
    r ≤ rankAt (sort c) 0 ↔ ∀ card ∈ c, r ≤ rank card := by
  rw [forall_rank_iff hlength]
  constructor
  · intro hle i hi
    exact hle.trans (rankAt_sort_le (Nat.zero_le i) (by omega))
  · intro hall
    exact hall 0 (by decide)

theorem rankAt_last_le_iff (hlength : c.length = 13) (r : Rank) :
    rankAt (sort c) 12 ≤ r ↔ ∀ card ∈ c, rank card ≤ r := by
  rw [forall_rank_iff (p := (· ≤ r)) hlength]
  constructor
  · intro hle i hi
    exact (rankAt_sort_le (Nat.le_of_lt_succ hi) (by omega)).trans hle
  · intro hall
    exact hall 12 (by decide)

theorem isRedOrBlack_iff (hlength : c.length = 13) : isRedOrBlack (sort c) = true ↔
    (∀ card ∈ c, suit card = .heart ∨ suit card = .diamond) ∨
      ∀ card ∈ c, suit card = .spade ∨ suit card = .club := by
  have hsort : (sort c).length = 13 := by rw [length_sort, hlength]
  rw [isRedOrBlack, ← forall_sort_iff, ← forall_sort_iff (c := c), ← forall_getD_iff hsort,
    ← forall_getD_iff hsort]
  simp only [Bool.or_eq_true, List.all_eq_true, List.mem_range, decide_eq_true_eq]
  rfl

end Classes

section Answer

/-- What the pair checks count: whether there is a three of a kind, and the pairs. -/
def pairCount (c : List Card) : Bool × Nat :=
  pairScan (sort c) 12 1 (false,
    if rankAt (sort c) 11 = rankAt (sort c) 12 ∧ rankAt (sort c) 10 ≠ rankAt (sort c) 12 then 1
    else 0)

def pairBrand (c : List Card) (dun : G13SpecialBrand) : G13SpecialBrand :=
  if (pairCount c).1 && (pairCount c).2 = 5 then .pentaPairsAndThreeOfKind
  else if (pairCount c).2 = 6 then .sixPairs
  else dun

/-- The answer is the first class that applies, or the pairs are counted. -/
def Answered (c : List Card) (dun answer : G13SpecialBrand) : Prop :=
  (∃ b, Applies c dun b ∧ NoneBefore b c dun ∧ answer = b) ∨
    (FallsThrough c dun ∧ answer = pairBrand c dun)

theorem answered_class (happ : Applies c dun b) (hbefore : NoneBefore b c dun) :
    Answered c dun b :=
  Or.inl ⟨b, happ, hbefore, rfl⟩

theorem g13SpecialBrandByAll_cases (hlength : c.length = 13) (dun : G13SpecialBrand) :
    Answered c dun (g13SpecialBrandByAll c dun) := by
  refine iteInduction (motive := Answered c dun) (fun h1 => ?_) fun h1 =>
    iteInduction (motive := Answered c dun) (fun h2 => ?_) fun h2 =>
    iteInduction (motive := Answered c dun) (fun h3 => ?_) fun h3 =>
    iteInduction (motive := Answered c dun) (fun h4 => ?_) fun h4 =>
    iteInduction (motive := Answered c dun) (fun h5 => ?_) fun h5 =>
    iteInduction (motive := Answered c dun) (fun h6 => ?_) fun h6 =>
    iteInduction (motive := Answered c dun) (fun h7 => ?_) fun h7 =>
    iteInduction (motive := Answered c dun) (fun h8 => ?_) fun h8 =>
    iteInduction (motive := Answered c dun) (fun h9 => ?_) fun h9 =>
    (show Answered c dun (pairBrand c dun) from ?_)
  all_goals simp only [Bool.and_eq_true, isStright_iff hlength, isFlush_iff hlength,
    le_rankAt_zero_iff hlength, rankAt_last_le_iff hlength, isTripleBombs_iff hlength,
    isRedOrBlack_iff hlength, isQuradThreeOfKind_iff hlength] at *
  · exact answered_class (.flushStriaght h1.1 h1.2) fun b' hlt happ => by cases happ <;> tauto
  · exact answered_class (.straight h2) fun b' hlt happ => by cases happ <;> tauto
  · exact answered_class (.royal h3) fun b' hlt happ => by cases happ <;> tauto
  · rw [h4] at *
    exact answered_class (.tripleStraightFlush rfl) fun b' hlt happ => by cases happ <;> tauto
  · exact answered_class (.tripleBombs h5) fun b' hlt happ => by cases happ <;> tauto
  · exact answered_class (.allBig h6) fun b' hlt happ => by cases happ <;> tauto
  · exact answered_class (.allLittle h7) fun b' hlt happ => by cases happ <;> tauto
  · exact answered_class (h8.elim .red .black) fun b' hlt happ => by cases happ <;> tauto
  · exact answered_class (.quradThreeOfKind h9) fun b' hlt happ => by cases happ <;> tauto
  · exact Or.inr ⟨fun b happ => by cases happ <;> tauto, rfl⟩

theorem value_injective : Function.Injective G13SpecialBrand.value := by
  intro b b' h
  cases b <;> cases b' <;> first | rfl | cases h

theorem Applies.of_dun {dun' : G13SpecialBrand} (happ : Applies c dun b)
    (hdun : dun = .tripleStraightFlush → dun' = .tripleStraightFlush) : Applies c dun' b := by
  cases happ with
  | flushStriaght hranks hsuit => exact .flushStriaght hranks hsuit
  | straight hranks => exact .straight hranks
  | royal hcards => exact .royal hcards
  | tripleStraightFlush h => exact .tripleStraightFlush (hdun h)
  | tripleBombs hgroups => exact .tripleBombs hgroups
  | allBig hcards => exact .allBig hcards
  | allLittle hcards => exact .allLittle hcards
  | red hcards => exact .red hcards
  | black hcards => exact .black hcards
  | quradThreeOfKind hgroups => exact .quradThreeOfKind hgroups

theorem applies_none_iff (hdun : dun ≠ .tripleStraightFlush) :
    Applies c .none b ↔ Applies c dun b := by
  constructor
  · exact fun happ => happ.of_dun fun h => by cases h
  · exact fun happ => happ.of_dun fun h => absurd h hdun

theorem eq_of_applies (hlength : c.length = 13) (happ : Applies c dun b)
    (hbefore : NoneBefore b c dun) : g13SpecialBrandByAll c dun = b := by
  rcases g13SpecialBrandByAll_cases hlength dun with ⟨b', happ', hbefore', heq⟩ | ⟨hfall, -⟩
  · rcases Nat.lt_trichotomy b.value b'.value with hlt | hvalue | hgt
    · exact absurd happ' (hbefore b' hlt)
    · rw [heq, value_injective hvalue]
    · exact absurd happ (hbefore' b hgt)
  · exact absurd happ (hfall b)

theorem eq_pairBrand (hlength : c.length = 13) (hfall : FallsThrough c dun) :
    g13SpecialBrandByAll c dun = pairBrand c dun := by
  rcases g13SpecialBrandByAll_cases hlength dun with ⟨b, happ, -⟩ | ⟨-, heq⟩
  · exact absurd happ (hfall b)
  · exact heq

theorem eq_of_pairBrand_eq (hb : 42 < b.value) (h : pairBrand c dun = b) : dun = b := by
  rw [pairBrand] at h
  split_ifs at h
  · subst h
    exact absurd hb (by decide)
  · subst h
    exact absurd hb (by decide)
  · exact h

theorem recognised_iff (hlength : c.length = 13) (hb : 42 < b.value)
    (hne : b ≠ .tripleStraightFlush) :
    Recognised c dun b ↔ NoneBefore b c dun ∧ Applies c dun b := by
  constructor
  · rintro ⟨hanswer, hnone⟩
    rcases g13SpecialBrandByAll_cases hlength dun with ⟨b', happ, hbefore, heq⟩ | ⟨hfall, heq⟩
    · obtain rfl : b' = b := heq.symm.trans hanswer
      exact ⟨hbefore, happ⟩
    · obtain rfl : dun = b := eq_of_pairBrand_eq hb (heq.symm.trans hanswer)
      rcases g13SpecialBrandByAll_cases hlength .none with ⟨b', happ, -⟩ | ⟨-, heq'⟩
      · exact absurd ((applies_none_iff hne).mp happ) (hfall b')
      · have hnone' : G13SpecialBrand.none = dun :=
          eq_of_pairBrand_eq hb (heq'.symm.trans (hnone rfl))
        rw [← hnone'] at hb
        exact absurd hb (by decide)
  · rintro ⟨hbefore, happ⟩
    refine ⟨eq_of_applies hlength happ hbefore, ?_⟩
    rintro rfl
    apply eq_of_applies hlength ((applies_none_iff hne).mpr happ)
    exact fun b' hlt happ' => hbefore b' hlt ((applies_none_iff hne).mp happ')

theorem FallsThrough.none (h : FallsThrough c dun) : FallsThrough c .none := by
  have hdun : dun ≠ .tripleStraightFlush := fun heq => h _ (.tripleStraightFlush heq)
  exact fun b happ => h b ((applies_none_iff hdun).mp happ)

theorem FallsThrough.recognised_iff (h : FallsThrough c dun) (hlength : c.length = 13)
    (b : G13SpecialBrand) :
    Recognised c dun b ↔ pairBrand c dun = b ∧ (dun = b → pairBrand c .none = b) := by
  rw [Recognised, eq_pairBrand hlength h, eq_pairBrand hlength h.none]

theorem FallsThrough.recognised_pentaPairs (h : FallsThrough c dun) (hlength : c.length = 13) :
    Recognised c dun .pentaPairsAndThreeOfKind ↔
      (pairCount c).1 = true ∧ (pairCount c).2 = 5 := by
  rw [h.recognised_iff hlength, pairBrand, pairBrand]
  simp only [Bool.and_eq_true, decide_eq_true_eq]
  split_ifs with hpenta hsix
  · exact iff_of_true ⟨rfl, fun _ => rfl⟩ hpenta
  · exact iff_of_false (fun hand => by cases hand.1) hpenta
  · refine iff_of_false ?_ hpenta
    rintro ⟨hdun, hnone⟩
    cases hnone hdun

theorem FallsThrough.recognised_sixPairs (h : FallsThrough c dun) (hlength : c.length = 13) :
    Recognised c dun .sixPairs ↔ (pairCount c).2 = 6 := by
  rw [h.recognised_iff hlength, pairBrand, pairBrand]
  simp only [Bool.and_eq_true, decide_eq_true_eq]
  split_ifs with hpenta hsix
  · refine iff_of_false (fun hand => by cases hand.1) ?_
    rw [hpenta.2]
    decide
  · exact iff_of_true ⟨rfl, fun _ => rfl⟩ hsix
  · refine iff_of_false ?_ hsix
    rintro ⟨hdun, hnone⟩
    cases hnone hdun

theorem applies_tripleBombs_iff : Applies c dun .tripleBombs ↔ HasGroups 3 4 c := by
  constructor
  · rintro (_ | _ | _ | _ | ⟨hgroups⟩)
    exact hgroups
  · exact .tripleBombs

theorem applies_quradThreeOfKind_iff : Applies c dun .quradThreeOfKind ↔ HasGroups 4 3 c := by
  constructor
  · rintro (_ | _ | _ | _ | _ | _ | _ | _ | _ | ⟨hgroups⟩)
    exact hgroups
  · exact .quradThreeOfKind

theorem fallsThrough_of_value_le (hlength : c.length = 13)
    (h : (g13SpecialBrandByAll c dun).value ≤ 42) : FallsThrough c dun := by
  rcases g13SpecialBrandByAll_cases hlength dun with ⟨b, happ, -, heq⟩ | ⟨hfall, -⟩
  · rw [heq] at h
    cases happ <;> exact absurd h (by decide)
  · exact hfall

theorem hand65_of_counts (hlength : c.length = 13) (hrange : ∀ card ∈ c, InRange card)
    (hcount : ∀ r ∈ ranks c, (ranks c).count r ≤ 5) : Hand65 c where
  length := hlength
  inRange := hrange
  atMostFive r := by
    rcases Classical.em (r ∈ ranks c) with hr | hr
    · exact hcount r hr
    · rw [List.count_eq_zero_of_not_mem hr]
      exact Nat.zero_le 5

end Answer

end CasualGame.Lobby.Multiplicities
