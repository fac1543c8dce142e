import Mathlib.Algebra.Order.BigOperators.Group.List
import Mathlib.Algebra.Order.Group.Nat
import Mathlib.Data.List.Find
import Mathlib.Data.List.Induction
import Mathlib.Data.List.Nodup
import Mathlib.Data.List.Perm.Subperm
import Mathlib.Logic.Function.Basic

/-!
Tables that are filled by a loop which writes one entry at a time: what stands in them is
what was written last.
-/

namespace CasualGame.Lib.Table

universe u v w

variable {ι : Type u} {κ : Type v} {ν : Type w} [DecidableEq κ]

/-- The table after an entry for each of the items. -/
def fill (key : ι → κ) (value : ι → ν) (items : List ι) (table : κ → Option ν) : κ → Option ν :=
  items.foldl (fun table item => Function.update table (key item) (some (value item))) table

/-- The last of the items that has the key. -/
def lastWith (key : ι → κ) (k : κ) (items : List ι) : Option ι :=
  items.reverse.find? fun item => key item = k

variable {key key' : ι → κ} {value : ι → ν} {items : List ι} {table : κ → Option ν} {k : κ}
  {item : ι}

theorem lastWith_concat (items : List ι) (item : ι) :
    lastWith key k (items ++ [item]) =
      if key item = k then some item else lastWith key k items := by
  rw [lastWith, List.reverse_append, List.reverse_singleton, List.singleton_append]
  split_ifs with hkey
  · exact List.find?_cons_of_pos (decide_eq_true hkey)
  · exact List.find?_cons_of_neg (by simpa using hkey)

theorem mem_of_lastWith (h : lastWith key k items = some item) : item ∈ items ∧ key item = k := by
  rw [lastWith] at h
  refine ⟨List.mem_reverse.mp (List.mem_of_find?_eq_some h), ?_⟩
  have hkey := List.find?_some h
  exact of_decide_eq_true hkey

theorem exists_lastWith (h : item ∈ items) : ∃ last, lastWith key (key item) items = some last := by
  rw [← Option.isSome_iff_exists, lastWith, List.find?_isSome]
  exact ⟨item, List.mem_reverse.mpr h, decide_eq_true rfl⟩

theorem lastWith_congr (h : ∀ item ∈ items, key item = key' item) (k : κ) :
    lastWith key k items = lastWith key' k items := by
  apply List.find?_congr
  intro item hitem
  rw [h item (List.mem_reverse.mp hitem)]

theorem lastWith_of_nodup (hnodup : (items.map key).Nodup) (h : item ∈ items) :
    lastWith key (key item) items = some item := by
  obtain ⟨last, hlast⟩ : ∃ last, lastWith key (key item) items = some last := exists_lastWith h
  obtain ⟨hmem, hkey⟩ := mem_of_lastWith hlast
  rw [hlast, List.inj_on_of_nodup_map hnodup hmem h hkey]

theorem fill_apply (items : List ι) (table : κ → Option ν) (k : κ) :
    fill key value items table k = ((lastWith key k items).map value).or (table k) := by
  induction items using List.reverseRecOn with
  | nil => rfl
  | append_singleton items item ih =>
      rw [lastWith_concat, fill, List.foldl_append, List.foldl_cons, List.foldl_nil]
      split_ifs with hkey
      · rw [← hkey, Function.update_self]
        rfl
      · rw [Function.update_of_ne (Ne.symm hkey)]
        exact ih

theorem fill_append (items items' : List ι) (table : κ → Option ν) :
    fill key value (items ++ items') table = fill key value items' (fill key value items table) :=
  List.foldl_append

omit [DecidableEq κ] in
/-- Keys that are all different are not made smaller where each of them is still there. -/
theorem size_eq_of_covered (size : κ → Nat) (hnodup : (items.map key).Nodup)
    (hsize : ∀ item ∈ items, size (key' item) ≤ size (key item))
    (hcovered : items.map key ⊆ items.map key') :
    ∀ item ∈ items, size (key' item) = size (key item) := by
  have hperm : (items.map key).Perm (items.map key') := by
    apply (hnodup.subperm hcovered).perm_of_length_le
    rw [List.length_map, List.length_map]
  have hsum := (hperm.map size).sum_nat
  rw [List.map_map, List.map_map] at hsum
  intro item hitem
  apply Nat.le_antisymm (hsize item hitem)
  apply Nat.le_of_not_lt
  intro hlt
  exact Nat.ne_of_gt (List.sum_lt_sum _ _ hsize ⟨item, hitem, hlt⟩) hsum

end CasualGame.Lib.Table
