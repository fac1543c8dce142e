import CasualGame.Lobby.Standings

/-! The groups of ranks of which it is known how often each comes. -/

namespace CasualGame.Lobby.RankGroups

open Standings

/-- Ranks and how often they come, one after the other. -/
def spread (bs : List (Nat × Nat)) : List Nat := bs.flatMap fun b => List.replicate b.2 b.1

/-- What is left of a rank without its pair. -/
def unpaired (b : Nat × Nat) : Nat × Nat := if 2 ≤ b.2 then (b.1, b.2 - 2) else b

variable {bs : List (Nat × Nat)} {b : Nat × Nat} {r k : Nat} {l l' ps : List Nat}

theorem spread_cons (b : Nat × Nat) (bs : List (Nat × Nat)) :
    spread (b :: bs) = List.replicate b.2 b.1 ++ spread bs :=
  List.flatMap_cons

theorem notMem_spread (h : r ∉ bs.map Prod.fst) : r ∉ spread bs := by
  intro hmem
  obtain ⟨b, hb, hr⟩ := List.mem_flatMap.mp hmem
  rw [List.eq_of_mem_replicate hr] at h
  exact h (List.mem_map_of_mem hb)

theorem count_spread (hnodup : (bs.map Prod.fst).Nodup) (hb : b ∈ bs) :
    (spread bs).count b.1 = b.2 := by
  induction bs with
  | nil => cases hb
  | cons b' bs ih =>
      rw [List.map_cons, List.nodup_cons] at hnodup
      rw [spread_cons, List.count_append]
      rcases List.mem_cons.mp hb with rfl | hb
      · rw [List.count_replicate_self, List.count_eq_zero_of_not_mem (notMem_spread hnodup.1),
          Nat.add_zero]
      · have hne : b'.1 ≠ b.1 := by
          intro heq
          rw [heq] at hnodup
          exact hnodup.1 (List.mem_map_of_mem hb)
        rw [ih hnodup.2 hb, List.count_replicate, if_neg (by simpa using hne), Nat.zero_add]

theorem dedup_spread (hpos : ∀ b ∈ bs, 0 < b.2) (hnodup : (bs.map Prod.fst).Nodup) :
    (spread bs).dedup = bs.map Prod.fst := by
  induction bs with
  | nil => rfl
  | cons b bs ih =>
      rw [List.map_cons, List.nodup_cons] at hnodup
      have hb : b.2 ≠ 0 := (hpos b List.mem_cons_self).ne'
      have hdisjoint : List.Disjoint (List.replicate b.2 b.1) (spread bs) := by
        intro r hr hmem
        rw [List.eq_of_mem_replicate hr] at hmem
        exact notMem_spread hnodup.1 hmem
      rw [spread_cons, hdisjoint.dedup_append, List.replicate_dedup hb,
        ih (fun b' hb' => hpos b' (List.mem_cons_of_mem _ hb')) hnodup.2, List.map_cons]
      rfl

theorem groups_spread (hpos : ∀ b ∈ bs, 0 < b.2) (hnodup : (bs.map Prod.fst).Nodup) (k : Nat) :
    groups k (spread bs) = (bs.filter fun b => k ≤ b.2).map Prod.fst := by
  rw [groups, dedup_spread hpos hnodup, List.filter_map]
  congr 1
  apply List.filter_congr
  intro b hb
  rw [Function.comp_apply, count_spread hnodup hb]

theorem append_diff (h : ∀ r ∈ ps, r ∉ l) : (l ++ l').diff ps = l ++ l'.diff ps := by
  induction ps generalizing l' with
  | nil => rfl
  | cons r ps ih =>
      rw [List.diff_cons, List.diff_cons, List.erase_append_right _ (h r List.mem_cons_self),
        ih fun r hr => h r (List.mem_cons_of_mem _ hr)]

theorem diff_spread (hnodup : (bs.map Prod.fst).Nodup) :
    (spread bs).diff (((bs.filter fun b => 2 ≤ b.2).map Prod.fst).flatMap fun r => [r, r]) =
      spread (bs.map unpaired) := by
  induction bs with
  | nil => rfl
  | cons b bs ih =>
      rw [List.map_cons, List.nodup_cons] at hnodup
      have hnot : ∀ n, ∀ r ∈ ((bs.filter fun b => 2 ≤ b.2).map Prod.fst).flatMap fun r => [r, r],
          r ∉ List.replicate n b.1 := by
        intro n r hr hmem
        obtain ⟨r', hr', hrr'⟩ := List.mem_flatMap.mp hr
        obtain rfl : r = r' := by simpa using hrr'
        rw [List.eq_of_mem_replicate hmem] at hr'
        exact hnodup.1 ((List.filter_sublist.map Prod.fst).subset hr')
      rw [List.map_cons, spread_cons, spread_cons, ← ih hnodup.2]
      by_cases hb : 2 ≤ b.2
      · obtain ⟨n, hn⟩ := Nat.exists_eq_add_of_le' hb
        rw [List.filter_cons_of_pos (by simpa using hb), List.map_cons, List.flatMap_cons,
          List.diff_append, unpaired, if_pos hb, hn, Nat.add_sub_cancel]
        simp only [List.replicate_succ, List.cons_append, List.diff_cons, List.erase_cons_head,
          List.diff_nil]
        exact append_diff (hnot n)
      · rw [List.filter_cons_of_neg (by simpa using hb), unpaired, if_neg hb]
        exact append_diff (hnot b.2)

theorem pairsFirst_spread (hpos : ∀ b ∈ bs, 0 < b.2) (hnodup : (bs.map Prod.fst).Nodup) :
    pairsFirst (spread bs) =
      (bs.filter fun b => 2 ≤ b.2).map Prod.fst ++ spread (bs.map unpaired) := by
  rw [pairsFirst, groups_spread hpos hnodup, diff_spread hnodup]

end CasualGame.Lobby.RankGroups
