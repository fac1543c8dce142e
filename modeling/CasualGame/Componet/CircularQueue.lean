import Mathlib.Data.List.Basic
import CasualGame.Lib.Ring

/-!
The queue in a vector of fixed size, and the bounded list it stands for.
-/

namespace CasualGame.Componet

open Lib.Ring

universe u v

/-- What a call came to, as the caller sees it. -/
inductive QueueResult (α : Type u) (κ : Type v)
  | pushed (ok : Bool)
  | popped
  /-- What `pop` returns and what `*t` is afterwards. -/
  | poppedTo (ok : Bool) (t : α)
  | top (item : α)
  | written
  | traversed (seen : κ)
  | getFromEmptyCircularQueue
  deriving DecidableEq

/-- The calls. A callback of `traverse` has a state of its own, may change the item, and
says whether to go on. -/
inductive QueueCall (α : Type u) (κ : Type v)
  | push (item : α)
  | pop
  | popTo (t : α)
  | top
  | setTop (item : α)
  | traverse (callback : κ → α → Bool × α × κ) (seen : κ)

/-- What `size`, `empty` and `full` return. -/
structure QueueSizes where
  size : Nat
  empty : Bool
  full : Bool
  deriving DecidableEq

structure CircularQueue (α : Type u) where
  beginPos : UInt32 := 0
  endPos : UInt32 := 0
  size : UInt32 := 0
  data : List α

namespace CircularQueue

variable {α : Type u} {κ : Type v}

section Code

variable [Inhabited α]

def create (maxSize : UInt32) : CircularQueue α where
  data := List.replicate maxSize.toNat default

variable (q : CircularQueue α)

def maxSize : UInt32 := UInt32.ofNat q.data.length

def empty : Bool := q.size == 0

def full : Bool := q.size == q.maxSize

def nextPos (pos : UInt32) : UInt32 := (pos + 1) % q.maxSize

def at' (pos : UInt32) : α := q.data.getD pos.toNat default

def top : QueueResult α κ :=
  if q.empty then .getFromEmptyCircularQueue else .top (q.at' q.beginPos)

/-- `top() = item` -/
def setTop (item : α) : QueueResult α κ × CircularQueue α :=
  if q.empty then (.getFromEmptyCircularQueue, q)
  else (.written, { q with data := q.data.set q.beginPos.toNat item })

def push (item : α) : Bool × CircularQueue α :=
  if q.size == q.maxSize then (false, q)
  else
    (true, { q with
      data := q.data.set q.endPos.toNat item
      endPos := q.nextPos q.endPos
      size := q.size + 1 })

def pop : CircularQueue α :=
  if q.empty then q
  else
    { q with
      data := q.data.set q.beginPos.toNat default
      beginPos := (q.beginPos + 1) % q.maxSize
      size := q.size - 1 }

/-- `pop(T* t)`. The statement `t = m_data[m_begin]` assigns to the parameter, not to what
it points to. -/
def popTo (t : α) : Bool × α × CircularQueue α :=
  if q.empty then (false, t, q) else (true, t, q.pop)

/-- The loop of `traverse` at the position `i`, with so many items to go. -/
def traverseFrom (callback : κ → α → Bool × α × κ) :
    Nat → UInt32 → CircularQueue α → κ → CircularQueue α × κ
  | 0, _, q, seen => (q, seen)
  | left + 1, i, q, seen =>
      let (goOn, item, seen) := callback seen (q.at' i)
      let q := { q with data := q.data.set i.toNat item }
      if goOn then traverseFrom callback left (q.nextPos i) q seen else (q, seen)

def traverse (callback : κ → α → Bool × α × κ) (seen : κ) : CircularQueue α × κ :=
  traverseFrom callback q.size.toNat q.beginPos q seen

def call : QueueCall α κ → QueueResult α κ × CircularQueue α
  | .push item => (.pushed (q.push item).1, (q.push item).2)
  | .pop => (.popped, q.pop)
  | .popTo t => (.poppedTo (q.popTo t).1 (q.popTo t).2.1, (q.popTo t).2.2)
  | .top => (q.top, q)
  | .setTop item => q.setTop item
  | .traverse callback seen =>
      (.traversed (q.traverse callback seen).2, (q.traverse callback seen).1)

def sizes : QueueSizes := ⟨q.size.toNat, q.empty, q.full⟩

/-- What the calls come to, and the sizes after each of them. -/
def run (q : CircularQueue α) : List (QueueCall α κ) → List (QueueResult α κ × QueueSizes)
  | [] => []
  | c :: calls => ((q.call c).1, (q.call c).2.sizes) :: (q.call c).2.run calls

end Code

end CircularQueue

/-! A list of at most `bound` items, the oldest one first. -/

namespace BoundedList

variable {α : Type u} {κ : Type v}

/-- The callback is called with one item after the other, until it returns `false`. -/
def visit (callback : κ → α → Bool × α × κ) : List α → κ → List α × κ
  | [], seen => ([], seen)
  | item :: items, seen =>
      let (goOn, item, seen) := callback seen item
      if goOn then (item :: (visit callback items seen).1, (visit callback items seen).2)
      else (item :: items, seen)

def call (bound : Nat) (items : List α) : QueueCall α κ → QueueResult α κ × List α
  | .push item =>
      if items.length < bound then (.pushed true, items ++ [item]) else (.pushed false, items)
  | .pop => (.popped, items.tail)
  | .popTo t =>
      match items with
      | [] => (.poppedTo false t, [])
      | oldest :: items => (.poppedTo true oldest, items)
  | .top =>
      match items with
      | [] => (.getFromEmptyCircularQueue, [])
      | oldest :: items => (.top oldest, oldest :: items)
  | .setTop item =>
      match items with
      | [] => (.getFromEmptyCircularQueue, [])
      | _ :: items => (.written, item :: items)
  | .traverse callback seen =>
      (.traversed (visit callback items seen).2, (visit callback items seen).1)

def sizes (bound : Nat) (items : List α) : QueueSizes :=
  ⟨items.length, items.isEmpty, items.length == bound⟩

def run (bound : Nat) (items : List α) :
    List (QueueCall α κ) → List (QueueResult α κ × QueueSizes)
  | [] => []
  | c :: calls =>
      ((call bound items c).1, sizes bound (call bound items c).2) ::
        run bound (call bound items c).2 calls

/-- The oldest item, which the call is to deliver, is in its place already. -/
def Delivered (items : List α) : QueueCall α κ → Prop
  | .popTo t => ∀ oldest ∈ items.head?, oldest = t
  | _ => True

def AllDelivered (bound : Nat) (items : List α) : List (QueueCall α κ) → Prop
  | [] => True
  | c :: calls => Delivered items c ∧ AllDelivered bound (call bound items c).2 calls

end BoundedList

namespace CircularQueue

variable {α : Type u} {κ : Type v}

/-- The vector has `bound` cells and in them the items of the list, from `beginPos` on and
round to the front. -/
structure Holds (q : CircularQueue α) (bound : Nat) (items : List α) : Prop where
  length_eq : q.data.length = bound
  small : bound < 2 ^ 32
  beginPos_eq : q.beginPos.toNat % bound = q.beginPos.toNat
  endPos_eq : q.endPos.toNat = (q.beginPos.toNat + items.length) % bound
  size_eq : q.size.toNat = items.length
  fits : items.length ≤ bound
  items_eq : ∀ i < items.length, q.data[(q.beginPos.toNat + i) % bound]? = items[i]?

namespace Holds

variable {q : CircularQueue α} {bound : Nat} {items : List α} {item : α}

theorem create [Inhabited α] (maxSize : UInt32) :
    (CircularQueue.create maxSize : CircularQueue α).Holds maxSize.toNat [] := by
  constructor
  · exact List.length_replicate
  · exact maxSize.toNat_lt
  · exact Nat.zero_mod _
  · exact (Nat.zero_mod _).symm
  · rfl
  · exact Nat.zero_le _
  · rintro i ⟨⟩

theorem maxSize_eq (h : q.Holds bound items) : q.maxSize.toNat = bound := by
  rw [maxSize, h.length_eq]
  exact UInt32.toNat_ofNat_of_lt h.small

theorem empty_eq (h : q.Holds bound items) : q.empty = items.isEmpty := by
  rw [Bool.eq_iff_iff, CircularQueue.empty, beq_iff_eq, List.isEmpty_iff_length_eq_zero,
    ← h.size_eq, ← UInt32.toNat_inj]
  rfl

theorem full_eq (h : q.Holds bound items) :
    (q.size == q.maxSize) = (items.length == bound) := by
  rw [Bool.eq_iff_iff, beq_iff_eq, beq_iff_eq, ← UInt32.toNat_inj, h.size_eq, h.maxSize_eq]

theorem nextPos_eq (h : q.Holds bound items) {pos : UInt32} (hpos : pos.toNat < bound) :
    (q.nextPos pos).toNat = (pos.toNat + 1) % bound := by
  have hsmall := h.small
  rw [nextPos, UInt32.toNat_mod, h.maxSize_eq, UInt32.toNat_add, UInt32.toNat_one,
    Nat.mod_eq_of_lt (a := pos.toNat + 1) (by omega)]

theorem sizes_eq (h : q.Holds bound items) : q.sizes = BoundedList.sizes bound items := by
  rw [sizes, BoundedList.sizes, h.size_eq, h.empty_eq, full, h.full_eq]

theorem endPos_lt (h : q.Holds bound items) (hpos : 0 < bound) : q.endPos.toNat < bound := by
  rw [h.endPos_eq]
  exact Nat.mod_lt _ hpos

theorem beginPos_place (h : q.Holds bound items) :
    (q.beginPos.toNat + 0) % bound = q.beginPos.toNat :=
  h.beginPos_eq

theorem getElem?_set_place (h : q.Holds bound items) {i k : Nat} (hi : i < bound)
    (hk : k < bound) (item : α) :
    (q.data.set ((q.beginPos.toNat + k) % bound) item)[(q.beginPos.toNat + i) % bound]? =
      if i = k then some item else q.data[(q.beginPos.toNat + i) % bound]? := by
  rcases eq_or_ne i k with rfl | hne
  · rw [if_pos rfl, List.getElem?_set_self]
    rw [h.length_eq]
    exact Nat.mod_lt _ (by omega)
  · rw [if_neg hne, List.getElem?_set_ne]
    exact mod_ne (Nat.le_add_right q.beginPos.toNat k) (by omega) (by omega) (by omega) (by omega)

theorem push_of_lt (h : q.Holds bound items) (hroom : items.length < bound) (item : α) :
    (q.push item).1 = true ∧ (q.push item).2.Holds bound (items ++ [item]) := by
  have hsmall := h.small
  have hne : (q.size == q.maxSize) = false := by
    rw [h.full_eq]
    exact beq_false_of_ne hroom.ne
  have hpush : q.push item = (true, { q with
      data := q.data.set q.endPos.toNat item
      endPos := q.nextPos q.endPos
      size := q.size + 1 }) := by
    rw [push, hne]
    rfl
  rw [hpush]
  refine ⟨rfl, ?_, hsmall, h.beginPos_eq, ?_, ?_, ?_, ?_⟩ <;> try dsimp only
  · rw [List.length_set]
    exact h.length_eq
  · rw [h.nextPos_eq (h.endPos_lt (by omega)), h.endPos_eq, Nat.mod_add_mod, List.length_append]
    rfl
  · rw [UInt32.toNat_add, h.size_eq, UInt32.toNat_one, List.length_append, List.length_singleton,
      Nat.mod_eq_of_lt (by omega)]
  · rw [List.length_append]
    exact hroom
  · intro i hi
    rw [List.length_append, List.length_singleton] at hi
    rw [h.endPos_eq, h.getElem?_set_place (by omega) hroom]
    split_ifs with hlast
    · rw [hlast, List.getElem?_concat_length]
    · rw [h.items_eq i (by omega), List.getElem?_append_left (by omega)]

theorem push_of_full (h : q.Holds bound items) (hfull : bound ≤ items.length) (item : α) :
    q.push item = (false, q) := by
  have heq : (q.size == q.maxSize) = true := by
    rw [h.full_eq]
    exact beq_iff_eq.mpr (Nat.le_antisymm h.fits hfull)
  rw [push, heq]
  rfl

theorem set_place {front rest : List α} (h : q.Holds bound (front ++ item :: rest)) (item' : α) :
    { q with data := q.data.set ((q.beginPos.toNat + front.length) % bound) item' }.Holds bound
      (front ++ item' :: rest) := by
  have hfits := h.fits
  have hsame : (front ++ item' :: rest).length = (front ++ item :: rest).length := by
    rw [List.length_append, List.length_append, List.length_cons, List.length_cons]
  have hlength : (front ++ item :: rest).length = front.length + (rest.length + 1) := by
    rw [List.length_append, List.length_cons]
  refine ⟨?_, h.small, h.beginPos_eq, ?_, ?_, ?_, ?_⟩ <;> try dsimp only
  · rw [List.length_set]
    exact h.length_eq
  · rw [hsame]
    exact h.endPos_eq
  · rw [hsame]
    exact h.size_eq
  · rw [hsame]
    exact hfits
  · intro i hi
    rw [hsame] at hi
    rw [h.getElem?_set_place (by omega) (by omega)]
    split_ifs with hplace
    · rw [hplace, List.getElem?_append_right (Nat.le_refl _), Nat.sub_self]
      rfl
    · rw [h.items_eq i hi]
      rcases Nat.lt_or_ge i front.length with hlt | hge
      · rw [List.getElem?_append_left hlt, List.getElem?_append_left hlt]
      · obtain ⟨j, hj⟩ : ∃ j, i - front.length = j + 1 :=
          Nat.exists_eq_add_of_le' (by omega)
        rw [List.getElem?_append_right hge, List.getElem?_append_right hge, hj]
        rfl

variable [Inhabited α]

theorem at'_eq {front rest : List α} (h : q.Holds bound (front ++ item :: rest)) {pos : UInt32}
    (hpos : pos.toNat = (q.beginPos.toNat + front.length) % bound) : q.at' pos = item := by
  have hget := h.items_eq front.length (by rw [List.length_append, List.length_cons]; omega)
  rw [List.getElem?_append_right (Nat.le_refl _), Nat.sub_self] at hget
  rw [at', hpos, List.getD_eq_getElem?_getD, hget]
  rfl

theorem pop_cons (h : q.Holds bound (item :: items)) : q.pop.Holds bound items := by
  have hsmall := h.small
  have hfits := h.fits
  have hsize := h.size_eq
  rw [List.length_cons] at hfits hsize
  have hbegin : q.beginPos.toNat < bound := by
    rw [← h.beginPos_eq]
    exact Nat.mod_lt _ (by omega)
  have hnext : ((q.beginPos + 1) % q.maxSize).toNat = (q.beginPos.toNat + 1) % bound :=
    h.nextPos_eq hbegin
  have hpop : q.pop = { q with
      data := q.data.set q.beginPos.toNat default
      beginPos := (q.beginPos + 1) % q.maxSize
      size := q.size - 1 } := by
    rw [pop, h.empty_eq]
    rfl
  rw [hpop]
  refine ⟨?_, hsmall, ?_, ?_, ?_, ?_, ?_⟩ <;> try dsimp only
  · rw [List.length_set]
    exact h.length_eq
  · rw [hnext, Nat.mod_mod]
  · rw [hnext, Nat.mod_add_mod, h.endPos_eq, List.length_cons, Nat.add_assoc, Nat.add_comm 1]
  · rw [UInt32.toNat_sub_of_le _ _ (UInt32.le_iff_toNat_le.mpr (by rw [hsize]; simp)), hsize]
    rfl
  · omega
  · intro i hi
    have hset := h.getElem?_set_place (i := i + 1) (k := 0) (by omega) (by omega) default
    rw [h.beginPos_place, if_neg i.succ_ne_zero] at hset
    rw [hnext, Nat.mod_add_mod, Nat.add_assoc, Nat.add_comm 1, hset,
      h.items_eq (i + 1) (by rw [List.length_cons]; omega), List.getElem?_cons_succ]

theorem pop (h : q.Holds bound items) : q.pop.Holds bound items.tail := by
  cases items with
  | nil =>
      rw [CircularQueue.pop, h.empty_eq]
      exact h
  | cons oldest items => exact h.pop_cons

theorem traverseFrom (callback : κ → α → Bool × α × κ) {front rest : List α} {pos : UInt32}
    (h : q.Holds bound (front ++ rest))
    (hpos : pos.toNat = (q.beginPos.toNat + front.length) % bound) (seen : κ) :
    (CircularQueue.traverseFrom callback rest.length pos q seen).1.Holds bound
        (front ++ (BoundedList.visit callback rest seen).1) ∧
      (CircularQueue.traverseFrom callback rest.length pos q seen).2 =
        (BoundedList.visit callback rest seen).2 := by
  induction rest generalizing q front pos seen with
  | nil => exact ⟨h, rfl⟩
  | cons item rest ih =>
      have hset := h.set_place (callback seen item).2.1
      have hlt : pos.toNat < bound := by
        rw [hpos]
        have := h.fits
        rw [List.length_append, List.length_cons] at this
        exact Nat.mod_lt _ (by omega)
      rw [List.length_cons, CircularQueue.traverseFrom, BoundedList.visit, h.at'_eq hpos]
      rw [← hpos] at hset
      dsimp only
      split_ifs
      · have hnext := hset.nextPos_eq hlt
        rw [hpos, Nat.mod_add_mod, ← hpos] at hnext
        rw [List.append_cons] at hset
        have hrest := ih hset (hnext.trans (by rw [List.length_append]; rfl))
          (callback seen item).2.2
        rw [List.append_assoc] at hrest
        exact hrest
      · exact ⟨hset, rfl⟩

theorem traverse (h : q.Holds bound items) (callback : κ → α → Bool × α × κ) (seen : κ) :
    (q.traverse callback seen).1.Holds bound (BoundedList.visit callback items seen).1 ∧
      (q.traverse callback seen).2 = (BoundedList.visit callback items seen).2 := by
  rw [CircularQueue.traverse, h.size_eq]
  have h : q.Holds bound ([] ++ items) := h
  exact h.traverseFrom callback h.beginPos_place.symm seen

theorem call (h : q.Holds bound items) (c : QueueCall α κ) :
    (q.call c).2.Holds bound (BoundedList.call bound items c).2 := by
  cases c with
  | push item =>
      rw [BoundedList.call]
      split_ifs with hroom
      · exact (h.push_of_lt hroom item).2
      · rw [CircularQueue.call, h.push_of_full (Nat.le_of_not_lt hroom)]
        exact h
  | pop => exact h.pop
  | popTo t =>
      rw [CircularQueue.call, popTo, h.empty_eq]
      cases items with
      | nil => exact h
      | cons oldest items => exact h.pop
  | top =>
      cases items <;> exact h
  | setTop item =>
      rw [CircularQueue.call, setTop, h.empty_eq]
      cases items with
      | nil => exact h
      | cons oldest items =>
          have h : q.Holds bound ([] ++ oldest :: items) := h
          have hset := h.set_place item
          rw [List.length_nil, h.beginPos_place] at hset
          exact hset
  | traverse callback seen => exact (h.traverse callback seen).1

/-- The call comes to what it comes to on the list, but for `pop(T* t)` when `*t` is to become
something else. -/
theorem call_eq_iff (h : q.Holds bound items) (c : QueueCall α κ) :
    (q.call c).1 = (BoundedList.call bound items c).1 ↔ BoundedList.Delivered items c := by
  cases c with
  | push item =>
      refine iff_of_true ?_ trivial
      rw [BoundedList.call]
      split_ifs with hroom
      · rw [CircularQueue.call, (h.push_of_lt hroom item).1]
      · rw [CircularQueue.call, h.push_of_full (Nat.le_of_not_lt hroom)]
  | pop => exact iff_of_true rfl trivial
  | popTo t =>
      rw [CircularQueue.call, popTo, h.empty_eq]
      cases items with
      | nil => simp [BoundedList.call, BoundedList.Delivered]
      | cons oldest items => simp [BoundedList.call, BoundedList.Delivered, eq_comm]
  | top =>
      refine iff_of_true ?_ trivial
      rw [CircularQueue.call, CircularQueue.top, h.empty_eq]
      cases items with
      | nil => rfl
      | cons oldest items =>
          have h : q.Holds bound ([] ++ oldest :: items) := h
          have hitem := h.at'_eq h.beginPos_place.symm
          exact congrArg QueueResult.top hitem
  | setTop item =>
      refine iff_of_true ?_ trivial
      rw [CircularQueue.call, setTop, h.empty_eq]
      cases items <;> rfl
  | traverse callback seen =>
      exact iff_of_true (congrArg QueueResult.traversed (h.traverse callback seen).2) trivial

theorem run_eq_iff (h : q.Holds bound items) (calls : List (QueueCall α κ)) :
    q.run calls = BoundedList.run bound items calls ↔
      BoundedList.AllDelivered bound items calls := by
  induction calls generalizing q items with
  | nil => exact iff_of_true rfl trivial
  | cons c calls ih =>
      have hnext := h.call c
      rw [CircularQueue.run, BoundedList.run, BoundedList.AllDelivered, List.cons.injEq,
        Prod.mk.injEq, h.call_eq_iff, ih hnext]
      exact and_congr_left fun _ => and_iff_left hnext.sizes_eq

end Holds

/-- Every call, whatever has been called before, comes to what it comes to on a list of at
most `maxSize` items. -/
def ActsAsBoundedList [Inhabited α] (maxSize : UInt32) (calls : List (QueueCall α κ)) : Prop :=
  (create maxSize).run calls = BoundedList.run maxSize.toNat [] calls

theorem actsAsBoundedList_iff [Inhabited α] (maxSize : UInt32) (calls : List (QueueCall α κ)) :
    ActsAsBoundedList maxSize calls ↔ BoundedList.AllDelivered maxSize.toNat [] calls :=
  (Holds.create maxSize).run_eq_iff calls

/-- The item that is popped does not come out. -/
theorem popTo_not_actsAsBoundedList :
    ¬ ActsAsBoundedList 1 ([.push 7, .popTo 0] : List (QueueCall Nat Unit)) := by
  rw [ActsAsBoundedList]
  decide +kernel

end CircularQueue

end CasualGame.Componet
