import Mathlib.Data.List.Nodup
import Mathlib.Data.List.Pairwise
import Mathlib.Data.List.Perm.Basic

/-!
Lists of entries that have the one that was used last in front, and room for so many.
-/

namespace CasualGame.Lib

universe u v

/-- The entries, with the one used last in front. -/
structure Recency (κ : Type u) (ν : Type v) (capacity : Nat) where
  entries : List (κ × ν)
  nodup : (entries.map Prod.fst).Nodup
  le : entries.length ≤ capacity

namespace Recency

section Places

variable {α : Type u} {κ : Type v} {key : α → κ} {l r : List α} {x : α}

theorem ne_of_nodup (h : ((l ++ x :: r).map key).Nodup) : ∀ y ∈ l ++ r, key y ≠ key x := by
  have hperm : (l ++ x :: r).Perm (x :: (l ++ r)) := List.perm_middle
  have hnodup := (hperm.map key).nodup_iff.mp h
  rw [List.map_cons, List.nodup_cons] at hnodup
  exact fun y hy heq => hnodup.1 (heq ▸ List.mem_map_of_mem hy)

variable [DecidableEq κ]

/-- What is found under a key is the one that has it. -/
theorem find?_place (key : α → κ) (h : ((l ++ x :: r).map key).Nodup) :
    (l ++ x :: r).find? (key · = key x) = some x := by
  have hnone : l.find? (key · = key x) = none := by
    rw [List.find?_eq_none]
    exact fun y hy => by simpa using ne_of_nodup h y (List.mem_append_left r hy)
  rw [List.find?_append, hnone, Option.none_or]
  exact List.find?_cons_of_pos (decide_eq_true rfl)

/-- All others, in the order they are in. -/
theorem filter_place (key : α → κ) (h : ((l ++ x :: r).map key).Nodup) :
    (l ++ x :: r).filter (fun y => !decide (key y = key x)) = l ++ r := by
  rw [List.filter_append, List.filter_cons_of_neg (by simp), ← List.filter_append,
    List.filter_eq_self]
  exact fun y hy => by simpa using ne_of_nodup h y hy

theorem filter_place_eq (key : α → κ) (h : ((l ++ x :: r).map key).Nodup) :
    (l ++ x :: r).filter (fun y => decide (key y = key x)) = [x] := by
  have hnil : (l ++ r).filter (fun y => decide (key y = key x)) = [] := by
    rw [List.filter_eq_nil_iff]
    exact fun y hy => by simpa using ne_of_nodup h y hy
  rw [List.filter_append, List.append_eq_nil_iff] at hnil
  rw [List.filter_append, List.filter_cons_of_pos (by simp), hnil.1, hnil.2]
  rfl

end Places

variable {κ : Type u} {ν : Type v} {capacity : Nat}

def keys (r : Recency κ ν capacity) : List κ := r.entries.map Prod.fst

section Operations

def empty : Recency κ ν capacity := ⟨[], List.nodup_nil, Nat.zero_le _⟩

variable [DecidableEq κ] (r : Recency κ ν capacity)

def get? (k : κ) : Option (κ × ν) := r.entries.find? (Prod.fst · = k)

def erase (k : κ) : Recency κ ν capacity where
  entries := r.entries.filter fun e => !decide (e.1 = k)
  nodup := r.nodup.sublist (List.filter_sublist.map Prod.fst)
  le := Nat.le_trans (List.length_filter_le _ _) r.le

/-- The entry with the key comes in front of the others. -/
def use (k : κ) : Recency κ ν capacity where
  entries := r.entries.filter (fun e => decide (e.1 = k)) ++
    r.entries.filter fun e => !decide (e.1 = k)
  nodup := ((List.filter_append_perm _ r.entries).map Prod.fst).nodup_iff.mpr r.nodup
  le := Nat.le_trans (Nat.le_of_eq (List.filter_append_perm _ r.entries).length_eq) r.le

/-- A new entry comes in front, and the one that has no room is lost. -/
def add (item : κ × ν) (h : item.1 ∉ r.keys) : Recency κ ν capacity where
  entries := (item :: r.entries).take capacity
  nodup := List.Nodup.sublist ((List.take_sublist capacity (item :: r.entries)).map Prod.fst)
    (List.nodup_cons.mpr ⟨h, r.nodup⟩)
  le := List.length_take_le _ _

def insert (item : κ × ν) : Recency κ ν capacity :=
  if h : item.1 ∈ r.keys then r else r.add item h

end Operations

section Entries

variable {r : Recency κ ν capacity} {l l' : List (κ × ν)} {item : κ × ν} {k : κ}

theorem mem_keys : k ∈ r.keys ↔ ∃ l v l', r.entries = l ++ (k, v) :: l' := by
  rw [keys, List.mem_map]
  constructor
  · rintro ⟨⟨k', v⟩, hmem, rfl⟩
    obtain ⟨l, l', heq⟩ := List.append_of_mem hmem
    exact ⟨l, v, l', heq⟩
  · rintro ⟨l, v, l', heq⟩
    refine ⟨(k, v), ?_, rfl⟩
    rw [heq]
    exact List.mem_append_right _ List.mem_cons_self

theorem ne_of_not_mem (h : k ∉ r.keys) : ∀ e ∈ r.entries, e.1 ≠ k :=
  fun _ he heq => h (heq ▸ List.mem_map_of_mem he)

variable [DecidableEq κ]

section

variable (h : r.entries = l ++ item :: l')

include h

theorem get?_eq_some : r.get? item.1 = some item := by
  rw [get?, h]
  exact find?_place Prod.fst (h ▸ r.nodup)

theorem entries_erase : (r.erase item.1).entries = l ++ l' := by
  have hfilter := filter_place Prod.fst (h ▸ r.nodup)
  rwa [← h] at hfilter

theorem entries_use : (r.use item.1).entries = item :: (l ++ l') := by
  have hfilter := filter_place_eq Prod.fst (h ▸ r.nodup)
  rw [← h] at hfilter
  change r.entries.filter _ ++ (r.erase item.1).entries = _
  rw [hfilter, entries_erase h]
  rfl

end

theorem get?_eq_none (h : k ∉ r.keys) : r.get? k = none := by
  rw [get?, List.find?_eq_none]
  exact fun e he => by simpa using ne_of_not_mem h e he

/-- What is not there is neither erased nor used. -/
theorem entries_erase_of_not_mem (h : k ∉ r.keys) : (r.erase k).entries = r.entries := by
  change r.entries.filter _ = r.entries
  rw [List.filter_eq_self]
  exact fun e he => by simpa using ne_of_not_mem h e he

theorem entries_use_of_not_mem (h : k ∉ r.keys) : (r.use k).entries = r.entries := by
  have hnil : r.entries.filter (fun e => decide (e.1 = k)) = [] := by
    rw [List.filter_eq_nil_iff]
    exact fun e he => by simpa using ne_of_not_mem h e he
  change r.entries.filter _ ++ (r.erase k).entries = _
  rw [hnil, entries_erase_of_not_mem h]
  rfl

theorem entries_insert (h : item.1 ∉ r.keys) :
    (r.insert item).entries = (item :: r.entries).take capacity := by
  rw [insert, dif_neg h]
  rfl

theorem insert_of_mem (h : item.1 ∈ r.keys) : r.insert item = r := dif_pos h

end Entries

/-- The keys stand in the order of their last uses, of which the latest is noted first. -/
def ByUse [DecidableEq κ] (uses keys : List κ) : Prop :=
  keys.Pairwise fun k k' => uses.idxOf k < uses.idxOf k'

section Order

variable [DecidableEq κ] {uses keys keys' : List κ} {k : κ}

theorem ByUse.sublist (h : ByUse uses keys) (hsub : keys'.Sublist keys) : ByUse uses keys' :=
  List.Pairwise.sublist hsub h

/-- The key that is used comes in front. -/
theorem ByUse.cons (h : ByUse uses keys) (hk : k ∉ keys) : ByUse (k :: uses) (k :: keys) := by
  have hnext : ∀ k' ∈ keys, (k :: uses).idxOf k' = uses.idxOf k' + 1 := by
    intro k' hk'
    exact List.idxOf_cons_ne uses fun heq => hk (heq ▸ hk')
  refine List.pairwise_cons.mpr ⟨fun k' hk' => ?_, ?_⟩
  · rw [List.idxOf_cons_self, hnext k' hk']
    exact Nat.succ_pos _
  · apply h.imp_of_mem
    intro a b ha hb hlt
    rw [hnext a ha, hnext b hb]
    exact Nat.succ_lt_succ hlt

variable {r : Recency κ ν capacity}

theorem ByUse.erase (h : ByUse uses r.keys) (k : κ) : ByUse uses (r.erase k).keys :=
  h.sublist (List.filter_sublist.map Prod.fst)

theorem ByUse.use (h : ByUse uses r.keys) (hk : k ∈ r.keys) :
    ByUse (k :: uses) (r.use k).keys := by
  obtain ⟨l, v, l', heq⟩ := mem_keys.mp hk
  have hkeys : (r.use k).keys = k :: (r.erase k).keys := by
    rw [keys, keys, entries_use heq, entries_erase heq]
    rfl
  have hnot : k ∉ (r.erase k).keys := by
    have hnodup := (r.use k).nodup
    change (r.use k).keys.Nodup at hnodup
    rw [hkeys, List.nodup_cons] at hnodup
    exact hnodup.1
  rw [hkeys]
  exact (h.erase k).cons hnot

theorem ByUse.insert {item : κ × ν} (h : ByUse uses r.keys) (hk : item.1 ∉ r.keys) :
    ByUse (item.1 :: uses) (r.insert item).keys := by
  apply (h.cons hk).sublist
  rw [keys, entries_insert hk]
  exact (List.take_sublist _ _).map Prod.fst

end Order

end Recency

end CasualGame.Lib
