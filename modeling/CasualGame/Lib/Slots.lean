import Mathlib.Data.List.Nodup
import Mathlib.Order.Nat

/-!
Slots that are used again once they are free.
-/

namespace CasualGame.Lib.Slots

universe u

variable {α : Type u} {slots : List (Option α)} {free : List Nat} {i j : Nat} {a b : α}

/-- The free slots, each of them once. -/
structure FreeList (slots : List (Option α)) (free : List Nat) : Prop where
  nodup : free.Nodup
  mem_iff : ∀ i, i ∈ free ↔ slots[i]? = some none

theorem getElem?_set_eq_some {x y : Option α} (hi : i < slots.length) :
    (slots.set i x)[j]? = some y ↔ j = i ∧ y = x ∨ j ≠ i ∧ slots[j]? = some y := by
  rcases eq_or_ne j i with rfl | hne
  · rw [List.getElem?_set_self hi, Option.some.injEq]
    exact ⟨fun h => .inl ⟨rfl, h.symm⟩, fun h => h.elim (fun h => h.2.symm) fun h => absurd rfl h.1⟩
  · rw [List.getElem?_set_ne hne.symm]
    exact ⟨fun h => .inr ⟨hne, h⟩, fun h => h.elim (fun h => absurd h.1 hne) fun h => h.2⟩

theorem getElem?_append_eq_some {x y : Option α} :
    (slots ++ [x])[j]? = some y ↔
      j = slots.length ∧ y = x ∨ j ≠ slots.length ∧ slots[j]? = some y := by
  rcases lt_trichotomy j slots.length with hlt | rfl | hgt
  · rw [List.getElem?_append_left hlt]
    exact ⟨fun h => .inr ⟨hlt.ne, h⟩, fun h => h.elim (fun h => absurd h.1 hlt.ne) fun h => h.2⟩
  · rw [List.getElem?_concat_length, Option.some.injEq]
    exact ⟨fun h => .inl ⟨rfl, h.symm⟩, fun h => h.elim (fun h => h.2.symm) fun h => absurd rfl h.1⟩
  · have hnone' : (slots ++ [x])[j]? = none := by
      apply List.getElem?_eq_none
      rw [List.length_append]
      exact hgt
    rw [hnone', List.getElem?_eq_none hgt.le]
    refine iff_of_false (fun h => by cases h) ?_
    rintro (⟨heq, -⟩ | ⟨-, h⟩)
    · exact hgt.ne' heq
    · cases h

theorem lt_length_of_getElem? {x : Option α} (h : slots[i]? = some x) : i < slots.length :=
  (List.getElem?_eq_some_iff.mp h).1

namespace FreeList

theorem empty : FreeList ([] : List (Option α)) [] where
  nodup := List.nodup_nil
  mem_iff := by
    refine fun i => iff_of_false List.not_mem_nil fun h => ?_
    rw [List.getElem?_nil] at h
    cases h

/-- A slot more, when none is free. -/
theorem push (h : FreeList slots []) (a : α) : FreeList (slots ++ [some a]) [] where
  nodup := List.nodup_nil
  mem_iff := by
    intro i
    rw [getElem?_append_eq_some, ← h.mem_iff]
    constructor
    · intro hmem
      exact absurd hmem List.not_mem_nil
    · rintro (⟨-, hnone⟩ | ⟨-, hmem⟩)
      · cases hnone
      · exact hmem

theorem reuse (h : FreeList slots (i :: free)) (a : α) : FreeList (slots.set i (some a)) free where
  nodup := h.nodup.of_cons
  mem_iff := by
    intro j
    have hi := lt_length_of_getElem? ((h.mem_iff i).mp List.mem_cons_self)
    rw [getElem?_set_eq_some hi, ← h.mem_iff, List.mem_cons]
    constructor
    · intro hmem
      refine .inr ⟨?_, .inr hmem⟩
      rintro rfl
      exact (List.nodup_cons.mp h.nodup).1 hmem
    · rintro (⟨-, hnone⟩ | ⟨hne, rfl | hmem⟩)
      · cases hnone
      · exact absurd rfl hne
      · exact hmem

theorem release (h : FreeList slots free) (hi : slots[i]? = some (some a)) :
    FreeList (slots.set i none) (free ++ [i]) where
  nodup := by
    refine List.nodup_append.mpr ⟨h.nodup, List.nodup_singleton i, fun j hj k hk => ?_⟩
    obtain rfl := List.mem_singleton.mp hk
    rintro rfl
    rw [h.mem_iff, hi] at hj
    cases hj
  mem_iff := by
    intro j
    rw [getElem?_set_eq_some (lt_length_of_getElem? hi), List.mem_append, List.mem_singleton,
      h.mem_iff]
    rcases eq_or_ne j i with rfl | hne
    · exact ⟨fun _ => .inl ⟨rfl, rfl⟩, fun _ => .inr rfl⟩
    · exact ⟨fun hor => .inr ⟨hne, hor.resolve_right hne⟩, fun hor =>
        .inl (hor.elim (fun h => absurd h.1 hne) fun h => h.2)⟩

/-- What is in a slot is replaced. -/
theorem replace (h : FreeList slots free) (hi : slots[i]? = some (some a)) (b : α) :
    FreeList (slots.set i (some b)) free where
  nodup := h.nodup
  mem_iff := by
    intro j
    rw [getElem?_set_eq_some (lt_length_of_getElem? hi), h.mem_iff]
    constructor
    · intro hj
      refine .inr ⟨?_, hj⟩
      rintro rfl
      rw [hi] at hj
      cases hj
    · rintro (⟨-, hnone⟩ | ⟨-, hj⟩)
      · cases hnone
      · exact hj

end FreeList

end CasualGame.Lib.Slots
