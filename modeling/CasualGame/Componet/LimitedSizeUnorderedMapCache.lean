import Mathlib.Data.List.AList
import CasualGame.Lib.Recency
import CasualGame.Lib.Run

/-!
A cache for so many entries: a `list` that has the entry used last in front, and an
`unordered_map` from the keys to the nodes of the list.
-/

namespace CasualGame.Componet

open Lib
open Lib.Run

universe u v

/-- A node of the list and where it lies. -/
structure Node (Key : Type u) (Value : Type v) where
  addr : Nat
  item : Key × Value
  deriving DecidableEq

/-- An iterator is the address of a node. -/
structure LimitedSizeUnorderedMapCache (Key : Type u) (Value : Type v) where
  list : List (Node Key Value) := []
  map : AList fun _ : Key => Nat := ∅

namespace LimitedSizeUnorderedMapCache

/-- Undefined: an iterator without a node, or the last of no nodes. -/
inductive Fault
  | undefined
  deriving DecidableEq

variable {Key : Type u} {Value : Type v}

section Code

variable (m : LimitedSizeUnorderedMapCache Key Value)

def size : UInt32 := UInt32.ofNat m.map.entries.length

def getValues : List Value := m.list.map (·.item.2)

variable [DecidableEq Key]

/-- The new node is put at `addr`, and taken away again if the key is there already. -/
def insert (maxSize : UInt32) (addr : Nat) (item : Key × Value) :
    Except Fault (Bool × LimitedSizeUnorderedMapCache Key Value) :=
  let list := ⟨addr, item⟩ :: m.list
  match m.map.lookup item.1 with
  | some _ => .ok (false, ⟨list.tail, m.map⟩)
  | none =>
      let map := m.map.insert item.1 addr
      if maxSize.toNat < map.entries.length then
        match list.getLast? with
        | none => .error .undefined
        | some back => .ok (true, ⟨list.dropLast, map.erase back.item.1⟩)
      else .ok (true, ⟨list, map⟩)

/-- The node goes to the front of the list. An iterator at the end is `none`. -/
def find (key : Key) : Except Fault (Option Nat × LimitedSizeUnorderedMapCache Key Value) :=
  match m.map.lookup key with
  | none => .ok (none, m)
  | some addr =>
      match m.list.find? (·.addr = addr) with
      | none => .error .undefined
      | some node =>
          .ok (some node.addr, ⟨node :: m.list.filter fun n => !decide (n.addr = addr),
            m.map.insert key node.addr⟩)

/-- The iterator behind another one. -/
def next (iter : Nat) : Option Nat :=
  (m.list.dropWhile fun n => !decide (n.addr = iter)).tail.head?.map (·.addr)

/-- `erase(iterator)` -/
def eraseAt (iter : Nat) : Except Fault (Option Nat × LimitedSizeUnorderedMapCache Key Value) :=
  match m.list.find? (·.addr = iter) with
  | none => .error .undefined
  | some node =>
      .ok (m.next iter, ⟨m.list.filter fun n => !decide (n.addr = iter),
        m.map.erase node.item.1⟩)

/-- `erase(Key)` -/
def erase (key : Key) : Except Fault (LimitedSizeUnorderedMapCache Key Value) :=
  match m.map.lookup key with
  | none => .ok m
  | some addr => (m.eraseAt addr).map Prod.snd

end Code

/-- What the `unordered_map` has of a node. -/
def entry (node : Node Key Value) : (_ : Key) × Nat := ⟨node.item.1, node.addr⟩

/-- The `unordered_map` has the nodes of the list, which lie apart. -/
structure Coherent (m : LimitedSizeUnorderedMapCache Key Value) : Prop where
  index : m.map.entries.Perm (m.list.map entry)
  apart : (m.list.map Node.addr).Nodup

/-- The list has the entries of a reference list, in their order. -/
def Matches {capacity : Nat} (m : LimitedSizeUnorderedMapCache Key Value)
    (r : Recency Key Value capacity) : Prop :=
  m.list.map Node.item = r.entries

variable {m m' : LimitedSizeUnorderedMapCache Key Value} {maxSize : UInt32}
  {r : Recency Key Value maxSize.toNat} {l l' : List (Node Key Value)} {node : Node Key Value}
  {item : Key × Value} {key : Key} {addr iter : Nat}

section Coherence

theorem coherent_empty : Coherent ({} : LimitedSizeUnorderedMapCache Key Value) :=
  ⟨List.Perm.refl _, List.nodup_nil⟩

theorem Coherent.keys_perm (h : Coherent m) :
    m.map.keys.Perm ((m.list.map Node.item).map Prod.fst) := by
  have hperm := h.index.map Sigma.fst
  rw [List.map_map] at hperm ⊢
  exact hperm

theorem Coherent.length_eq (h : Coherent m) : m.map.entries.length = m.list.length := by
  rw [h.index.length_eq, List.length_map]

section

variable (h : Coherent m) (hlist : m.list = l ++ node :: l')

include h hlist

theorem Coherent.perm_cons : m.map.entries.Perm (entry node :: (l ++ l').map entry) := by
  have hperm := h.index
  rw [hlist] at hperm
  exact hperm.trans (List.perm_middle.map entry)

theorem Coherent.apart_cons : (node.addr :: (l ++ l').map Node.addr).Nodup := by
  have happart := h.apart
  rw [hlist] at happart
  exact ((List.perm_middle.map Node.addr).nodup_iff).mp happart

theorem Coherent.find?_place : m.list.find? (·.addr = node.addr) = some node := by
  have happart := h.apart
  rw [hlist] at happart ⊢
  exact Recency.find?_place _ happart

theorem Coherent.filter_place :
    m.list.filter (fun n => !decide (n.addr = node.addr)) = l ++ l' := by
  have happart := h.apart
  rw [hlist] at happart ⊢
  exact Recency.filter_place _ happart

theorem Coherent.next_place : m.next node.addr = l'.head?.map Node.addr := by
  have happart := h.apart
  rw [hlist] at happart
  have hbefore : ∀ n ∈ l, (!decide (n.addr = node.addr)) = true := by
    intro n hn
    have hne := Recency.ne_of_nodup happart n (List.mem_append_left l' hn)
    rw [decide_eq_false hne, Bool.not_false]
  rw [next, hlist, List.dropWhile_append_of_pos hbefore, List.dropWhile_cons_of_neg (by simp)]
  rfl

end

variable [DecidableEq Key]

theorem Coherent.lookup_iff (h : Coherent m) :
    m.map.lookup key = some addr ↔ ∃ v, ⟨addr, (key, v)⟩ ∈ m.list := by
  rw [← Option.mem_def, AList.mem_lookup_iff, h.index.mem_iff, List.mem_map]
  constructor
  · rintro ⟨⟨addr', key', v⟩, hmem, heq⟩
    cases heq
    exact ⟨v, hmem⟩
  · exact fun ⟨v, hmem⟩ => ⟨_, hmem, rfl⟩

theorem Coherent.lookup_eq_none (h : Coherent m) (hmatches : Matches m r) :
    m.map.lookup key = none ↔ key ∉ r.keys := by
  rw [AList.lookup_eq_none, AList.mem_keys, h.keys_perm.mem_iff, hmatches]
  rfl

theorem perm_erase {map : AList fun _ : Key => Nat} {rest : List (Node Key Value)}
    (h : map.entries.Perm (entry node :: rest.map entry)) :
    (map.erase node.item.1).entries.Perm (rest.map entry) := by
  have herase : (map.erase node.item.1).entries.Perm
      (List.kerase node.item.1 (entry node :: rest.map entry)) :=
    List.Perm.kerase map.nodupKeys h
  have hcons : List.kerase node.item.1 (entry node :: rest.map entry) = rest.map entry :=
    List.kerase_cons_eq rfl
  exact herase.trans (List.Perm.of_eq hcons)

section

variable (h : Coherent m) (hlist : m.list = l ++ node :: l')

include h hlist

theorem Coherent.lookup_place : m.map.lookup node.item.1 = some node.addr := by
  apply h.lookup_iff.mpr
  refine ⟨node.item.2, ?_⟩
  rw [hlist]
  exact List.mem_append_right _ List.mem_cons_self

theorem Coherent.find_place : m.find node.item.1 =
    .ok (some node.addr, ⟨node :: (l ++ l'), m.map.insert node.item.1 node.addr⟩) := by
  simp only [find, h.lookup_place hlist, h.find?_place hlist, h.filter_place hlist]

theorem Coherent.eraseAt_place : m.eraseAt node.addr =
    .ok (m.next node.addr, ⟨l ++ l', m.map.erase node.item.1⟩) := by
  simp only [eraseAt, h.find?_place hlist, h.filter_place hlist]

theorem Coherent.erase_place : m.erase node.item.1 =
    .ok ⟨l ++ l', m.map.erase node.item.1⟩ := by
  simp only [erase, h.lookup_place hlist, h.eraseAt_place hlist]
  rfl

theorem Coherent.erased : Coherent ⟨l ++ l', m.map.erase node.item.1⟩ :=
  ⟨perm_erase (h.perm_cons hlist), (List.nodup_cons.mp (h.apart_cons hlist)).2⟩

theorem Coherent.found : Coherent ⟨node :: (l ++ l'), m.map.insert node.item.1 node.addr⟩ := by
  refine ⟨?_, h.apart_cons hlist⟩
  rw [AList.entries_insert]
  exact (perm_erase (h.perm_cons hlist)).cons _

end

theorem Coherent.added (h : Coherent m) (hkey : m.map.lookup item.1 = none)
    (haddr : addr ∉ m.list.map Node.addr) :
    Coherent ⟨⟨addr, item⟩ :: m.list, m.map.insert item.1 addr⟩ := by
  refine ⟨?_, List.nodup_cons.mpr ⟨haddr, h.apart⟩⟩
  rw [AList.entries_insert_of_notMem (AList.lookup_eq_none.mp hkey)]
  exact h.index.cons _

end Coherence

section Run

/-- What can be done with the cache. A new node lies at `addr`. -/
inductive Act (Key : Type u) (Value : Type v)
  | insert (item : Key × Value) (addr : Nat)
  | find (key : Key)
  | erase (key : Key)
  | eraseAt (iter : Nat)

/-- The cache at work. There is nothing else where a new node lies, and an iterator that is
erased is one of a node. -/
def system (Key : Type u) (Value : Type v) [DecidableEq Key] (maxSize : UInt32) :
    System (LimitedSizeUnorderedMapCache Key Value) (Act Key Value) Fault where
  Init m := m = {}
  Allowed m
    | .insert _ addr => addr ∉ m.list.map Node.addr
    | .eraseAt iter => iter ∈ m.list.map Node.addr
    | _ => True
  step m
    | .insert item addr => (m.insert maxSize addr item).map Prod.snd
    | .find key => (m.find key).map Prod.snd
    | .erase key => m.erase key
    | .eraseAt iter => (m.eraseAt iter).map Prod.snd

/-- A list of entries that goes on as the cache should, and the keys that have been used,
the latest first. -/
structure Reference (Key : Type u) (Value : Type v) (capacity : Nat) where
  recency : Recency Key Value capacity
  uses : List Key

variable [DecidableEq Key]

def spec {capacity : Nat} (m : LimitedSizeUnorderedMapCache Key Value) :
    Act Key Value → Reference Key Value capacity → Reference Key Value capacity
  | .insert item _, ⟨r, uses⟩ => ⟨r.insert item, if item.1 ∈ r.keys then uses else item.1 :: uses⟩
  | .find key, ⟨r, uses⟩ => ⟨r.use key, if key ∈ r.keys then key :: uses else uses⟩
  | .erase key, ⟨r, uses⟩ => ⟨r.erase key, uses⟩
  | .eraseAt iter, ⟨r, uses⟩ =>
      match m.list.find? (·.addr = iter) with
      | none => ⟨r, uses⟩
      | some node => ⟨r.erase node.item.1, uses⟩

/-- The cache and a reference to which the same is done. -/
def besideReference (Key : Type u) (Value : Type v) [DecidableEq Key] (maxSize : UInt32) :
    System (LimitedSizeUnorderedMapCache Key Value × Reference Key Value maxSize.toNat)
      (Act Key Value) Fault :=
  (system Key Value maxSize).chronicle ⟨Recency.empty, []⟩ fun m act _ => spec m act

/-- What holds of the cache and its reference. -/
structure Agrees (m : LimitedSizeUnorderedMapCache Key Value)
    (ref : Reference Key Value maxSize.toNat) : Prop where
  coherent : Coherent m
  contents : Matches m ref.recency
  byUse : Recency.ByUse ref.uses ref.recency.keys

variable {ref : Reference Key Value maxSize.toNat}

theorem Agrees.length_le (h : Agrees m ref) : m.list.length ≤ maxSize.toNat := by
  calc m.list.length = (m.list.map Node.item).length := (List.length_map _).symm
    _ = ref.recency.entries.length := congrArg List.length h.contents
    _ ≤ maxSize.toNat := ref.recency.le

theorem Agrees.exists_place (h : Agrees m ref) (hk : key ∈ ref.recency.keys) :
    ∃ l node l', m.list = l ++ node :: l' ∧ node.item.1 = key := by
  rw [Recency.keys, ← h.contents, List.mem_map] at hk
  obtain ⟨item, hitem, rfl⟩ := hk
  obtain ⟨node, hnode, rfl⟩ := List.mem_map.mp hitem
  obtain ⟨l, l', hlist⟩ := List.append_of_mem hnode
  exact ⟨l, node, l', hlist, rfl⟩

theorem Agrees.place (h : Agrees m ref) (hlist : m.list = l ++ node :: l') :
    ref.recency.entries = l.map Node.item ++ node.item :: l'.map Node.item := by
  rw [← h.contents, hlist, List.map_append, List.map_cons]

theorem Agrees.insert_old (h : Agrees m ref) (hk : item.1 ∈ ref.recency.keys) (addr : Nat) :
    m.insert maxSize addr item = .ok (false, m) := by
  obtain ⟨l, node, l', hlist, hkey⟩ := h.exists_place hk
  have hlookup := h.coherent.lookup_place hlist
  rw [hkey] at hlookup
  simp only [insert, hlookup, List.tail_cons]

theorem Agrees.insert_new (h : Agrees m ref) (hk : item.1 ∉ ref.recency.keys)
    (haddr : addr ∉ m.list.map Node.addr) :
    ∃ m', m.insert maxSize addr item = .ok (true, m') ∧ Coherent m' ∧
      m'.list = (⟨addr, item⟩ :: m.list).take maxSize.toNat := by
  have hkey := (h.coherent.lookup_eq_none h.contents).mpr hk
  have hadded := h.coherent.added hkey haddr
  have hlength := hadded.length_eq
  have hle := h.length_le
  simp only [insert, hkey]
  split_ifs with hfull
  · have hnonempty : (⟨addr, item⟩ :: m.list : List (Node Key Value)) ≠ [] := List.cons_ne_nil _ _
    have hlast := List.getLast?_eq_some_getLast hnonempty
    have hlist := (List.dropLast_concat_getLast hnonempty).symm
    have herased := hadded.erased hlist
    rw [List.append_nil] at herased
    simp only [hlast]
    refine ⟨_, rfl, herased, ?_⟩
    rw [hlength, List.length_cons] at hfull
    rw [List.dropLast_eq_take, List.length_cons, Nat.add_sub_cancel,
      Nat.le_antisymm hle (Nat.le_of_lt_succ hfull)]
  · refine ⟨_, rfl, hadded, ?_⟩
    rw [hlength] at hfull
    exact (List.take_of_length_le (Nat.le_of_not_lt hfull)).symm

theorem Agrees.insert (h : Agrees m ref) (item : Key × Value)
    (haddr : addr ∉ m.list.map Node.addr) :
    ∃ m', m.insert maxSize addr item = .ok (decide (item.1 ∉ ref.recency.keys), m') ∧
      Agrees m' (spec m (.insert item addr) ref) := by
  rcases Classical.em (item.1 ∈ ref.recency.keys) with hk | hk
  · refine ⟨m, ?_, ?_⟩
    · rw [h.insert_old hk, decide_eq_false (not_not.mpr hk)]
    · rw [spec, Recency.insert_of_mem hk, if_pos hk]
      exact h
  · obtain ⟨m', hinsert, hcoherent, hlist⟩ := h.insert_new hk haddr
    refine ⟨m', ?_, hcoherent, ?_, ?_⟩
    · rw [hinsert, decide_eq_true hk]
    · rw [spec, Matches, hlist, Recency.entries_insert hk, List.map_take, List.map_cons, h.contents]
    · rw [spec, if_neg hk]
      exact h.byUse.insert hk

theorem Agrees.find (h : Agrees m ref) (key : Key) :
    ∃ found m', m.find key = .ok (found, m') ∧ Agrees m' (spec m (.find key) ref) ∧
      (found.bind fun addr => m'.list.find? (·.addr = addr)).map Node.item =
        ref.recency.get? key := by
  rcases Classical.em (key ∈ ref.recency.keys) with hk | hk
  · obtain ⟨l, node, l', hlist, rfl⟩ := h.exists_place hk
    have hentries := h.place hlist
    have hfound := h.coherent.found hlist
    refine ⟨_, _, h.coherent.find_place hlist, ⟨hfound, ?_, ?_⟩, ?_⟩
    · rw [spec, Matches, Recency.entries_use hentries, List.map_cons, List.map_append]
    · rw [spec, if_pos hk]
      exact h.byUse.use hk
    · rw [Recency.get?_eq_some hentries, Option.bind_some,
        hfound.find?_place (List.nil_append _).symm]
      rfl
  · have hkey := (h.coherent.lookup_eq_none h.contents).mpr hk
    refine ⟨none, m, ?_, ⟨h.coherent, ?_, ?_⟩, ?_⟩
    · simp only [LimitedSizeUnorderedMapCache.find, hkey]
    · rw [spec, Matches, Recency.entries_use_of_not_mem hk]
      exact h.contents
    · rw [spec, if_neg hk, Recency.keys, Recency.entries_use_of_not_mem hk]
      exact h.byUse
    · rw [Recency.get?_eq_none hk]
      rfl

theorem Agrees.erase (h : Agrees m ref) (key : Key) :
    ∃ m', m.erase key = .ok m' ∧ Agrees m' (spec m (.erase key) ref) := by
  rcases Classical.em (key ∈ ref.recency.keys) with hk | hk
  · obtain ⟨l, node, l', hlist, rfl⟩ := h.exists_place hk
    refine ⟨_, h.coherent.erase_place hlist, h.coherent.erased hlist, ?_, h.byUse.erase _⟩
    rw [spec, Matches, Recency.entries_erase (h.place hlist), List.map_append]
  · have hkey := (h.coherent.lookup_eq_none h.contents).mpr hk
    refine ⟨m, ?_, h.coherent, ?_, h.byUse.erase _⟩
    · simp only [LimitedSizeUnorderedMapCache.erase, hkey]
    · rw [spec, Matches, Recency.entries_erase_of_not_mem hk]
      exact h.contents

theorem Agrees.eraseAt (h : Agrees m ref) (hiter : iter ∈ m.list.map Node.addr) :
    ∃ m', m.eraseAt iter = .ok (m.next iter, m') ∧ Agrees m' (spec m (.eraseAt iter) ref) := by
  obtain ⟨node, hnode, rfl⟩ := List.mem_map.mp hiter
  obtain ⟨l, l', hlist⟩ := List.append_of_mem hnode
  have hspec : spec m (.eraseAt node.addr) ref =
      ⟨ref.recency.erase node.item.1, ref.uses⟩ := by
    simp only [spec, h.coherent.find?_place hlist]
  rw [hspec]
  refine ⟨_, h.coherent.eraseAt_place hlist, h.coherent.erased hlist, ?_, h.byUse.erase _⟩
  rw [Matches, Recency.entries_erase (h.place hlist), List.map_append]

/-- Nothing fails, and the cache goes on as the reference does. -/
theorem step_spec {act : Act Key Value} (h : Agrees m ref)
    (hallowed : (system Key Value maxSize).Allowed m act) :
    ∃ m', (system Key Value maxSize).step m act = .ok m' ∧ Agrees m' (spec m act ref) := by
  cases act with
  | insert item addr =>
      obtain ⟨m', hinsert, hagrees⟩ := h.insert item hallowed
      exact ⟨m', by simp only [system, hinsert, Except.map], hagrees⟩
  | find key =>
      obtain ⟨found, m', hfind, hagrees, -⟩ := h.find key
      exact ⟨m', by simp only [system, hfind, Except.map], hagrees⟩
  | erase key => exact h.erase key
  | eraseAt iter =>
      obtain ⟨m', herase, hagrees⟩ := h.eraseAt hallowed
      exact ⟨m', by simp only [system, herase, Except.map], hagrees⟩

theorem agrees (h : (besideReference Key Value maxSize).Reaches (fun _ _ => True) (m, ref)) :
    Agrees m ref := by
  refine h.invariant (P := fun s => Agrees s.1 s.2) ?_ ?_
  · rintro ⟨m, ref⟩ ⟨rfl, rfl⟩
    exact ⟨coherent_empty, rfl, List.Pairwise.nil⟩
  · rintro ⟨m, ref⟩ act ⟨m', ref'⟩ hagrees hallowed - hstep
    obtain ⟨hm', rfl⟩ := System.chronicle_step.mp hstep
    obtain ⟨m'', hm'', hagrees'⟩ := step_spec hagrees hallowed
    obtain rfl := Except.ok.inj (hm'.symm.trans hm'')
    exact hagrees'

/-- What the cache does is what its reference does, and the reference has its keys in the
order of their last uses. -/
structure IsLeastRecentlyUsed (maxSize : UInt32) (m : LimitedSizeUnorderedMapCache Key Value)
    (ref : Reference Key Value maxSize.toNat) : Prop where
  sizeLe : m.size ≤ maxSize
  size : m.size.toNat = m.list.length
  contents : m.list.map Node.item = ref.recency.entries
  values : m.getValues = ref.recency.entries.map Prod.snd
  byUse : Recency.ByUse ref.uses ref.recency.keys
  index : ∀ key addr, m.map.lookup key = some addr ↔ ∃ v, ⟨addr, (key, v)⟩ ∈ m.list
  apart : (m.list.map Node.addr).Nodup
  inserts : ∀ item addr, item.1 ∉ ref.recency.keys → addr ∉ m.list.map Node.addr →
    ∃ m', m.insert maxSize addr item = .ok (true, m') ∧
      m'.list = (⟨addr, item⟩ :: m.list).take maxSize.toNat
  insertsNothing : ∀ item addr, item.1 ∈ ref.recency.keys →
    m.insert maxSize addr item = .ok (false, m)
  finds : ∀ key, ∃ found m', m.find key = .ok (found, m') ∧
    (found.bind fun addr => m'.list.find? (·.addr = addr)).map Node.item = ref.recency.get? key
  erases : ∀ l node l', m.list = l ++ node :: l' →
    ∃ m', m.eraseAt node.addr = .ok (l'.head?.map Node.addr, m') ∧
      m.erase node.item.1 = .ok m' ∧ m'.list = l ++ l'
  works : ∀ act, (system Key Value maxSize).Allowed m act →
    ∃ m', (system Key Value maxSize).step m act = .ok m'

/-- Whatever is done with the cache, it is the list to which the same has been done. -/
theorem isLeastRecentlyUsed
    (h : (besideReference Key Value maxSize).Reaches (fun _ _ => True) (m, ref)) :
    IsLeastRecentlyUsed maxSize m ref := by
  have hagrees := agrees h
  have hsize : m.size.toNat = m.list.length := by
    rw [size, UInt32.toNat_ofNat', hagrees.coherent.length_eq]
    exact Nat.mod_eq_of_lt (Nat.lt_of_le_of_lt hagrees.length_le maxSize.toNat_lt)
  refine ⟨?_, hsize, hagrees.contents, ?_, hagrees.byUse, fun _ _ => hagrees.coherent.lookup_iff,
    hagrees.coherent.apart, ?_, ?_, ?_, ?_, ?_⟩
  · rw [UInt32.le_iff_toNat_le, hsize]
    exact hagrees.length_le
  · rw [← hagrees.contents, List.map_map]
    rfl
  · intro item addr hk haddr
    obtain ⟨m', hinsert, -, hlist⟩ := hagrees.insert_new hk haddr
    exact ⟨m', hinsert, hlist⟩
  · exact fun item addr hk => hagrees.insert_old hk addr
  · intro key
    obtain ⟨found, m', hfind, -, hget⟩ := hagrees.find key
    exact ⟨found, m', hfind, hget⟩
  · intro l node l' hlist
    have herase := hagrees.coherent.eraseAt_place hlist
    rw [hagrees.coherent.next_place hlist] at herase
    exact ⟨_, herase, hagrees.coherent.erase_place hlist, rfl⟩
  · intro act hallowed
    obtain ⟨m', hm', -⟩ := step_spec hagrees hallowed
    exact ⟨m', hm'⟩

/-- The third entry does not fit, and the one that goes has not been found since. -/
theorem isLeastRecentlyUsed_two :
    let s := (besideReference Nat String 2).after ({}, ⟨Recency.empty, []⟩)
      [.insert (1, "a") 10, .insert (2, "b") 11, .find 1, .insert (3, "c") 12]
    s.1.getValues = ["c", "a"] ∧ IsLeastRecentlyUsed 2 s.1 s.2 := by
  refine ⟨by decide +kernel, isLeastRecentlyUsed (System.Reaches.after (.init ⟨rfl, rfl⟩) ?_)⟩
  have hsecond : 11 ∉ [10] := by decide
  have hthird : 12 ∉ [10, 11] := by decide
  exact ⟨List.not_mem_nil, trivial, hsecond, trivial, trivial, trivial, hthird, trivial, trivial⟩

end Run

end LimitedSizeUnorderedMapCache

end CasualGame.Componet
