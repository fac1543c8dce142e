import Mathlib.Data.List.DropRight

/-! Texts as lists of characters, what is stripped off their ends, and texts in a row that
are numbered as they come. -/

namespace CasualGame.Lib.Text

universe u v

variable {α : Type u} {β : Type v} {p : α → Bool} {x : α} {l pre : List α}

/-- What is left between the first and the last element that does not meet the condition. -/
def strip (p : α → Bool) (l : List α) : List α := (l.dropWhile p).rdropWhile p

theorem strip_cons_of_pos (h : p x = true) (l : List α) : strip p (x :: l) = strip p l := by
  rw [strip, List.dropWhile_cons_of_pos h, strip]

theorem strip_concat_of_pos (h : p x = true) (hl : ∃ y ∈ l, p y = false) :
    strip p (l ++ [x]) = strip p l := by
  obtain ⟨y, hy, hpy⟩ := hl
  have hne : (l.dropWhile p).isEmpty = false := by
    rw [List.isEmpty_eq_false_iff, Ne, List.dropWhile_eq_nil_iff]
    intro hall
    rw [hall y hy] at hpy
    cases hpy
  rw [strip, List.dropWhile_append, hne]
  exact List.rdropWhile_concat_pos p _ x h

/-- A text whose ends stay is left as it is. -/
theorem strip_eq_self (hhead : ∀ y ∈ l.head?, p y = false) (hlast : ∀ y ∈ l.getLast?, p y = false) :
    strip p l = l := by
  have hdrop : l.dropWhile p = l := by
    cases l with
    | nil => rfl
    | cons y l => exact List.dropWhile_cons_of_neg (by simp [hhead y rfl])
  rw [strip, hdrop, List.rdropWhile_eq_self_iff]
  intro hl hp
  have hlast' := hlast _ (List.getLast?_eq_some_getLast hl)
  rw [hp] at hlast'
  cases hlast'

/-- A first element that does not meet the condition stays the first. -/
theorem strip_cons_of_neg (h : p x = false) (l : List α) : ∃ t, strip p (x :: l) = x :: t := by
  rw [strip, List.dropWhile_cons_of_neg (by simp [h])]
  have hprefix := List.rdropWhile_prefix p (l := x :: l)
  cases hrest : (x :: l).rdropWhile p with
  | nil =>
      rw [List.rdropWhile_eq_nil_iff] at hrest
      have hx := hrest x List.mem_cons_self
      rw [h] at hx
      cases hx
  | cons y t =>
      rw [hrest] at hprefix
      exact ⟨t, by rw [(List.cons_prefix_cons.mp hprefix).1]⟩

/-- The text without a prefix, where it has that prefix. -/
def removePrefix [DecidableEq α] (pre l : List α) : List α :=
  if l.take pre.length = pre then l.drop pre.length else l

theorem removePrefix_append [DecidableEq α] (pre l : List α) : removePrefix pre (pre ++ l) = l := by
  rw [removePrefix, List.take_left, if_pos rfl, List.drop_left]

/-- The elements that meet a condition are numbered on from `start`, and noted down. -/
def number (p : α → Bool) (note : α → Nat → β) (start : Nat) (l : List α) : Nat × List β :=
  l.foldl (fun acc x => if p x then (acc.1 + 1, acc.2 ++ [note x (acc.1 + 1)]) else acc) (start, [])

theorem foldl_number (p : α → Bool) (note : α → Nat → β) (start : Nat) (notes : List β)
    (l : List α) :
    l.foldl (fun acc x => if p x then (acc.1 + 1, acc.2 ++ [note x (acc.1 + 1)]) else acc)
        (start, notes) =
      (start + (l.filter p).length,
        notes ++ ((l.filter p).zipIdx (start + 1)).map fun x => note x.1 x.2) := by
  induction l generalizing start notes with
  | nil => simp
  | cons x l ih =>
      rw [List.foldl_cons]
      by_cases hx : p x
      · rw [if_pos hx, ih, List.filter_cons_of_pos hx, List.length_cons, List.zipIdx_cons,
          List.map_cons, List.append_assoc, Nat.add_right_comm, Nat.add_assoc]
        rfl
      · rw [if_neg hx, ih, List.filter_cons_of_neg hx]

/-- Every element is noted with the number of those up to it. -/
theorem number_eq (p : α → Bool) (note : α → Nat → β) (start : Nat) (l : List α) :
    (number p note start l).2 = ((l.filter p).zipIdx (start + 1)).map fun x => note x.1 x.2 := by
  rw [number, foldl_number, List.nil_append]

theorem mem_zipIdx_iff {n k : Nat} : (x, k) ∈ l.zipIdx n ↔ ∃ i, l[i]? = some x ∧ k = n + i := by
  rw [List.mk_mem_zipIdx_iff_le_and_getElem?_sub]
  constructor
  · rintro ⟨hle, hget⟩
    exact ⟨k - n, hget, (Nat.add_sub_cancel' hle).symm⟩
  · rintro ⟨i, hget, rfl⟩
    exact ⟨Nat.le_add_right n i, by rwa [Nat.add_sub_cancel_left]⟩

/-- Texts in a row are known by their numbers. -/
theorem zipIdx_ext {l' : List α} {n : Nat} :
    (∀ x k, (x, k) ∈ l.zipIdx n ↔ (x, k) ∈ l'.zipIdx n) ↔ l = l' := by
  refine ⟨fun h => List.ext_getElem? fun i => ?_, fun h _ _ => by rw [h]⟩
  apply Option.ext
  intro x
  have hget : ∀ l : List α, l[i]? = some x ↔ (x, n + i) ∈ l.zipIdx n := by
    intro l
    rw [mem_zipIdx_iff]
    constructor
    · exact fun hx => ⟨i, hx, rfl⟩
    · rintro ⟨j, hx, heq⟩
      rwa [Nat.add_left_cancel heq]
  rw [hget, hget, h]

end CasualGame.Lib.Text
