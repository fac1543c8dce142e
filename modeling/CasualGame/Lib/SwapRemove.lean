import Mathlib.Data.List.Induction
import Mathlib.Data.List.Perm.Basic

namespace CasualGame.Lib.SwapRemove

universe u v

variable {α : Type u} {β : Type v} {l r : List α} {x : α} {i j : Nat}

/-- The list without its `i`-th element, whose place the last one takes. -/
def swapRemove (l : List α) (i : Nat) : List α :=
  match l.getLast? with
  | none => l
  | some last => (l.set i last).dropLast

theorem swapRemove_concat (l : List α) (last : α) (i : Nat) :
    swapRemove (l ++ [last]) i = ((l ++ [last]).set i last).dropLast := by
  rw [swapRemove, List.getLast?_concat]

theorem swapRemove_of_getLast? {last : α} (h : l.getLast? = some last) (i : Nat) :
    swapRemove l i = (l.set i last).dropLast := by
  rw [swapRemove, h]

theorem swapRemove_last (h : i + 1 = l.length) : swapRemove l i = l.dropLast := by
  cases l using List.reverseRecOn with
  | nil => cases h
  | append_singleton l last =>
      rw [List.length_append, List.length_singleton, Nat.add_right_cancel_iff] at h
      rw [swapRemove_concat, h, List.set_append_right _ _ (Nat.le_refl _), Nat.sub_self]
      rfl

theorem map_swapRemove (f : α → β) (l : List α) (i : Nat) :
    (swapRemove l i).map f = swapRemove (l.map f) i := by
  cases l using List.reverseRecOn with
  | nil => rfl
  | append_singleton l last =>
      rw [swapRemove_concat, List.map_append, List.map_singleton, swapRemove_concat,
        List.map_dropLast, List.map_set, List.map_append, List.map_singleton]

theorem getElem?_swapRemove (hi : i < l.length) (j : Nat) :
    (swapRemove l i)[j]? =
      if j + 1 < l.length then (if j = i then l[l.length - 1]? else l[j]?) else none := by
  cases l using List.reverseRecOn with
  | nil => cases Nat.not_lt_zero i hi
  | append_singleton l last =>
      rw [swapRemove_concat, List.getElem?_dropLast, List.length_set, List.getElem?_set,
        List.length_append, List.length_singleton, Nat.add_sub_cancel]
      have hlast : (l ++ [last])[l.length]? = some last := List.getElem?_concat_length
      rw [hlast]
      grind

/-- What comes before the hole stays, and what comes after it is the same up to order. -/
theorem swapRemove_append (l : List α) (x : α) (r : List α) :
    ∃ r', swapRemove (l ++ x :: r) l.length = l ++ r' ∧ r'.Perm r := by
  cases r using List.reverseRecOn with
  | nil =>
      refine ⟨[], ?_, List.Perm.refl _⟩
      rw [swapRemove_concat, List.set_append_right _ _ (Nat.le_refl _), Nat.sub_self,
        List.set_cons_zero, List.dropLast_concat, List.append_nil]
  | append_singleton r last =>
      refine ⟨last :: r, ?_, List.perm_append_singleton last r |>.symm⟩
      have hsplit : l ++ x :: (r ++ [last]) = (l ++ x :: r) ++ [last] := by simp
      rw [hsplit, swapRemove_concat, ← hsplit, List.set_append_right _ _ (Nat.le_refl _),
        Nat.sub_self, List.set_cons_zero, ← List.cons_append, ← List.append_assoc,
        List.dropLast_concat]

theorem exists_append_of_getElem? (h : l[i]? = some x) :
    ∃ l₁ l₂, l = l₁ ++ x :: l₂ ∧ l₁.length = i := by
  obtain ⟨hlt, rfl⟩ := List.getElem?_eq_some_iff.mp h
  refine ⟨l.take i, l.drop (i + 1), ?_, List.length_take_of_le (Nat.le_of_lt hlt)⟩
  rw [← List.drop_eq_getElem_cons hlt, List.take_append_drop]

theorem swapRemove_perm (h : l[i]? = some x) : l.Perm (x :: swapRemove l i) := by
  obtain ⟨l₁, l₂, rfl, rfl⟩ := exists_append_of_getElem? h
  obtain ⟨r', hr', hperm⟩ := swapRemove_append l₁ x l₂
  rw [hr']
  exact List.perm_middle.trans ((hperm.symm.append_left l₁).cons x)

end CasualGame.Lib.SwapRemove
