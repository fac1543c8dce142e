import Mathlib.Data.List.Basic
import Mathlib.Data.Nat.ModEq

/-!
The ring `LockFreeCircularQueueSPSC` and the list it stands for.
-/

namespace CasualGame.Net

universe u

/-- A cell whose status is `full` has an item. The positions only grow; the ring has a
power of two of cells. -/
structure CircularQueue (α : Type u) where
  cells : List (Option α)
  beginPos : Nat := 0
  endPos : Nat := 0
  deriving DecidableEq

namespace CircularQueue

variable {α : Type u}

def create (powArg : Nat) : CircularQueue α where
  cells := List.replicate (2 ^ (if powArg < 24 then powArg else 24)) none

variable (q : CircularQueue α)

def maxSize : Nat := q.cells.length

def realPos (pos : Nat) : Nat := pos &&& (q.maxSize - 1)

/-- The status of the cell, for one that works alone on the ring: the tries of `push` and
of `pop` all see the same. -/
def cell (pos : Nat) : Option α := (q.cells[q.realPos pos]?).join

def full : Bool := (q.cell q.endPos).isSome

def empty : Bool := (q.cell q.beginPos).isNone

def push (item : α) : Bool × CircularQueue α :=
  match q.cell q.endPos with
  | some _ => (false, q)
  | none =>
      (true, { q with
        cells := q.cells.set (q.realPos q.endPos) (some item)
        endPos := q.endPos + 1 })

def pop : Option α × CircularQueue α :=
  match q.cell q.beginPos with
  | none => (none, q)
  | some item =>
      (some item, { q with
        cells := q.cells.set (q.realPos q.beginPos) none
        beginPos := q.beginPos + 1 })

/-- The ring has the items of the list, from `beginPos` on. -/
structure Holds (q : CircularQueue α) (items : List α) : Prop where
  pow : ∃ k, q.maxSize = 2 ^ k
  endPos_eq : q.endPos = q.beginPos + items.length
  fits : items.length ≤ q.maxSize
  cells_eq : ∀ i < q.maxSize, q.cell (q.beginPos + i) = items[i]?

variable {q} {items : List α} {item : α}

theorem Holds.maxSize_pos (h : q.Holds items) : 0 < q.maxSize := by
  obtain ⟨k, hk⟩ := h.pow
  rw [hk]
  exact Nat.two_pow_pos k

theorem Holds.realPos_eq (h : q.Holds items) (pos : Nat) : q.realPos pos = pos % q.maxSize := by
  obtain ⟨k, hk⟩ := h.pow
  rw [realPos, hk, Nat.and_two_pow_sub_one_eq_mod]

theorem holds_create (powArg : Nat) : (create powArg : CircularQueue α).Holds [] := by
  constructor
  · exact ⟨_, List.length_replicate⟩
  · rfl
  · exact Nat.zero_le _
  · intro i _
    rw [cell, create, List.getElem?_replicate]
    split_ifs <;> rfl

theorem maxSize_create (powArg : Nat) :
    (create powArg : CircularQueue α).maxSize = 2 ^ (if powArg < 24 then powArg else 24) :=
  List.length_replicate

theorem Holds.full_iff (h : q.Holds items) : q.full = true ↔ items.length = q.maxSize := by
  have hfits := h.fits
  rw [full, h.endPos_eq]
  rcases Nat.lt_or_ge items.length q.maxSize with hroom | hall
  · rw [h.cells_eq _ hroom, List.getElem?_eq_none (Nat.le_refl _)]
    simp only [Option.isSome_none, Bool.false_eq_true, false_iff]
    omega
  · have hpos := h.maxSize_pos
    have hcell : q.cell (q.beginPos + items.length) = q.cell (q.beginPos + 0) := by
      rw [cell, cell, h.realPos_eq, h.realPos_eq, show items.length = q.maxSize by omega,
        Nat.add_mod_right, Nat.add_zero]
    rw [hcell, h.cells_eq 0 hpos, List.getElem?_eq_getElem (by omega)]
    simp only [Option.isSome_some, true_iff]
    omega

theorem Holds.realPos_inj (h : q.Holds items) {i j : Nat} (hi : i < q.maxSize)
    (hj : j < q.maxSize) (heq : q.realPos (q.beginPos + i) = q.realPos (q.beginPos + j)) :
    i = j := by
  rw [h.realPos_eq, h.realPos_eq] at heq
  have hmod : i % q.maxSize = j % q.maxSize := Nat.ModEq.add_left_cancel' q.beginPos heq
  rwa [Nat.mod_eq_of_lt hi, Nat.mod_eq_of_lt hj] at hmod

theorem Holds.realPos_lt (h : q.Holds items) (pos : Nat) : q.realPos pos < q.cells.length := by
  rw [h.realPos_eq]
  exact Nat.mod_lt _ h.maxSize_pos

@[simp] theorem maxSize_push (q : CircularQueue α) (item : α) :
    (q.push item).2.maxSize = q.maxSize := by
  rw [push]
  cases q.cell q.endPos with
  | some _ => rfl
  | none => exact List.length_set

theorem maxSize_pop (q : CircularQueue α) : q.pop.2.maxSize = q.maxSize := by
  rw [pop]
  cases q.cell q.beginPos with
  | none => rfl
  | some _ => exact List.length_set

theorem Holds.push_of_lt (h : q.Holds items) (hroom : items.length < q.maxSize) (item : α) :
    (q.push item).1 = true ∧ (q.push item).2.Holds (items ++ [item]) := by
  have hnone : q.cell q.endPos = none := by
    rw [h.endPos_eq, h.cells_eq _ hroom, List.getElem?_eq_none (Nat.le_refl _)]
  have hpush : q.push item = (true, { q with
      cells := q.cells.set (q.realPos q.endPos) (some item), endPos := q.endPos + 1 }) := by
    simp only [push, hnone]
  have hsize := maxSize_push q item
  refine ⟨by rw [hpush], ?_, ?_, ?_, ?_⟩
  · rw [hsize]
    exact h.pow
  · rw [hpush]
    simp only [h.endPos_eq, List.length_append, List.length_singleton]
    omega
  · rw [hsize, List.length_append, List.length_singleton]
    exact hroom
  · intro i hi
    rw [hsize] at hi
    rw [cell, realPos, hsize, hpush]
    change ((q.cells.set (q.realPos q.endPos) (some item))[q.realPos (q.beginPos + i)]?).join = _
    rw [List.getElem?_set, h.endPos_eq]
    by_cases hlast : i = items.length
    · subst hlast
      rw [if_pos rfl, if_pos (h.realPos_lt _), List.getElem?_concat_length]
      rfl
    · rw [if_neg fun heq => hlast (h.realPos_inj hroom hi heq).symm]
      have hcell := h.cells_eq i hi
      rw [cell] at hcell
      rw [hcell, List.getElem?_append]
      split_ifs with hlt
      · rfl
      · rw [List.getElem?_eq_none (by omega), List.getElem?_eq_none (by simp; omega)]

theorem Holds.push_of_full (h : q.Holds items) (hfull : items.length = q.maxSize) (item : α) :
    q.push item = (false, q) := by
  have hsome := h.full_iff.mpr hfull
  rw [full] at hsome
  rw [push]
  cases hcell : q.cell q.endPos with
  | none => simp [hcell] at hsome
  | some _ => rfl

theorem Holds.push (h : q.Holds items) (item : α) :
    (q.push item).2.Holds ((items ++ [item]).take q.maxSize) := by
  rcases Nat.lt_or_ge items.length q.maxSize with hroom | hall
  · rw [List.take_of_length_le (by rw [List.length_append, List.length_singleton]; exact hroom)]
    exact (h.push_of_lt hroom item).2
  · have hfull := Nat.le_antisymm h.fits hall
    rw [h.push_of_full hfull item, ← hfull, List.take_left' rfl]
    exact h

theorem take_take_append (n : Nat) (items more : List α) :
    (items.take n ++ more).take n = (items ++ more).take n := by
  rcases Nat.le_total n items.length with hle | hle
  · have hlength : (items.take n).length = n := List.length_take_of_le hle
    rw [List.take_append_of_le_length hlength.ge, List.take_append_of_le_length hle,
      List.take_take, Nat.min_self]
  · rw [List.take_of_length_le hle]

/-- The ring after a burst of items. -/
def pushAll (q : CircularQueue α) (items : List α) : CircularQueue α :=
  items.foldl (fun q item => (q.push item).2) q

theorem maxSize_pushAll (q : CircularQueue α) (items : List α) :
    (q.pushAll items).maxSize = q.maxSize := by
  induction items generalizing q with
  | nil => rfl
  | cons item items ih => exact (ih _).trans (maxSize_push q item)

theorem Holds.pushAll (h : q.Holds items) (more : List α) :
    (q.pushAll more).Holds ((items ++ more).take q.maxSize) := by
  induction more generalizing q items with
  | nil =>
      rw [List.append_nil, List.take_of_length_le h.fits]
      exact h
  | cons item more ih =>
      have hrest := ih (h.push item)
      rw [maxSize_push, take_take_append, List.append_assoc, List.singleton_append] at hrest
      exact hrest

theorem Holds.unique {items' : List α} (h : q.Holds items) (h' : q.Holds items') :
    items = items' := by
  have hlength : items.length = items'.length := by
    have := h.endPos_eq
    have := h'.endPos_eq
    omega
  apply List.ext_getElem? fun i => ?_
  rcases Nat.lt_or_ge i q.maxSize with hi | hi
  · rw [← h.cells_eq i hi, ← h'.cells_eq i hi]
  · have := h.fits
    rw [List.getElem?_eq_none (by omega), List.getElem?_eq_none (by omega)]

theorem Holds.pop_nil (h : q.Holds []) : q.pop = (none, q) := by
  have hcell := h.cells_eq 0 h.maxSize_pos
  rw [Nat.add_zero] at hcell
  rw [pop, hcell]
  rfl

theorem Holds.pop_cons (h : q.Holds (item :: items)) :
    q.pop.1 = some item ∧ q.pop.2.Holds items := by
  have hpos := h.maxSize_pos
  have hfits := h.fits
  rw [List.length_cons] at hfits
  have hcell := h.cells_eq 0 hpos
  rw [Nat.add_zero] at hcell
  have hpop : q.pop = (some item, { q with
      cells := q.cells.set (q.realPos q.beginPos) none, beginPos := q.beginPos + 1 }) := by
    simp only [pop, hcell, List.getElem?_cons_zero]
  have hsize := maxSize_pop q
  refine ⟨by rw [hpop], ?_, ?_, ?_, ?_⟩
  · rw [hsize]
    exact h.pow
  · rw [hpop]
    simp only [h.endPos_eq, List.length_cons]
    omega
  · rw [hsize]
    omega
  · intro i hi
    rw [hsize] at hi
    rw [cell, realPos, hsize, hpop]
    change ((q.cells.set (q.realPos q.beginPos) none)[q.realPos (q.beginPos + 1 + i)]?).join = _
    rw [List.getElem?_set]
    by_cases hlast : i + 1 = q.maxSize
    · have hsame : q.realPos q.beginPos = q.realPos (q.beginPos + 1 + i) := by
        rw [h.realPos_eq, h.realPos_eq, Nat.add_assoc, Nat.add_comm 1, hlast, Nat.add_mod_right]
      rw [if_pos hsame, if_pos (h.realPos_lt _), List.getElem?_eq_none (by omega)]
      rfl
    · have hother : q.realPos q.beginPos ≠ q.realPos (q.beginPos + 1 + i) := by
        intro heq
        rw [Nat.add_assoc, Nat.add_comm 1] at heq
        have := h.realPos_inj hpos (show i + 1 < q.maxSize by omega) heq
        omega
      have hnext := h.cells_eq (i + 1) (by omega)
      rw [cell, List.getElem?_cons_succ] at hnext
      rw [if_neg hother, Nat.add_assoc, Nat.add_comm 1, hnext]

end CircularQueue

end CasualGame.Net
