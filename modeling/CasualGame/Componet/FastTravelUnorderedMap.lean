import Mathlib.Data.Finmap
import CasualGame.Lib.Run
import CasualGame.Lib.SwapRemove

/-!
A map that keeps its entries in a vector, so that they are quick to go through, and an
`unordered_map` from the keys to their places in the vector.
-/

namespace CasualGame.Componet

open Lib.Run
open Lib.SwapRemove

universe u v

/-- An iterator is a place in `m_vec`, and the end is the place behind the last entry. -/
structure FastTravelUnorderedMap (Key : Type u) (Value : Type v) where
  vec : List (Key × Value) := []
  map : Key → Option Nat := fun _ => none

namespace FastTravelUnorderedMap

inductive Fault
  /-- The exception of `erase(iterator)`. -/
  | invalidIter
  /-- `m_vec.at` throws. -/
  | outOfRange
  /-- Undefined: an iterator at the end is read, or the last of no entries. -/
  | undefined
  deriving DecidableEq, Repr

variable {Key : Type u} {Value : Type v}

section Code

variable [DecidableEq Key] (m : FastTravelUnorderedMap Key Value)

def insert (item : Key × Value) : Bool × FastTravelUnorderedMap Key Value :=
  match m.map item.1 with
  | some _ => (false, m)
  | none =>
      let map := Function.update m.map item.1 (some m.vec.length)
      let vec := m.vec ++ [item]
      (true, ⟨vec, Function.update map item.1 (some (vec.length - 1))⟩)

def find (key : Key) : Nat :=
  match m.map key with
  | none => m.vec.length
  | some index => index

/-- The last entry overwrites the one at `index`, unless that is the last itself. -/
def overwrite (index : Nat) : Except Fault (FastTravelUnorderedMap Key Value) :=
  if index + 1 ≠ m.vec.length then
    if m.vec.length ≤ index then .error .outOfRange
    else
      match m.vec.getLast? with
      | none => .error .undefined
      | some back => .ok ⟨m.vec.set index back, Function.update m.map back.1 (some index)⟩
  else .ok m

/-- `erase(Key)` -/
def erase (key : Key) : Except Fault (FastTravelUnorderedMap Key Value) :=
  match m.map key with
  | none => .ok m
  | some index =>
      if m.vec.length = 1 then .ok {}
      else do
        let m ← m.overwrite index
        .ok ⟨m.vec.dropLast, Function.update m.map key none⟩

/-- `erase(iterator)`, with the iterator it returns. -/
def eraseAt (iter : Nat) : Except Fault (Nat × FastTravelUnorderedMap Key Value) :=
  match m.vec[iter]? with
  | none => .error .undefined
  | some entry =>
      match m.map entry.1 with
      | none => .error .invalidIter
      | some index => do
          let m ← m.erase entry.1
          .ok (index, m)

/-- A loop that goes through the map and erases what meets a condition, after at most so
many rounds: where it is, and the entries of which the condition has been asked. -/
def sweepFrom (cond : Key × Value → Bool) :
    Nat → Nat × FastTravelUnorderedMap Key Value → List (Key × Value) →
      Except Fault ((Nat × FastTravelUnorderedMap Key Value) × List (Key × Value))
  | 0, (iter, m), asked => .ok ((iter, m), asked)
  | rounds + 1, (iter, m), asked =>
      match m.vec[iter]? with
      | none => .ok ((iter, m), asked)
      | some entry =>
          if cond entry then do
            let next ← m.eraseAt iter
            sweepFrom cond rounds next (asked ++ [entry])
          else sweepFrom cond rounds (iter + 1, m) (asked ++ [entry])

end Code

/-- The places the `unordered_map` knows are those of the keys in the vector. -/
def Coherent (m : FastTravelUnorderedMap Key Value) : Prop :=
  ∀ k i, m.map k = some i ↔ (m.vec.map Prod.fst)[i]? = some k

variable {m m' : FastTravelUnorderedMap Key Value} {k k' : Key} {i j : Nat}
  {item entry : Key × Value}

section Coherence

theorem coherent_empty : Coherent ({} : FastTravelUnorderedMap Key Value) := by
  intro k i
  simp

theorem Coherent.lt (h : Coherent m) (hk : m.map k = some i) : i < m.vec.length := by
  have hlt := (List.getElem?_eq_some_iff.mp ((h k i).mp hk)).1
  rwa [List.length_map] at hlt

theorem Coherent.inj (h : Coherent m) (hi : (m.vec.map Prod.fst)[i]? = some k)
    (hj : (m.vec.map Prod.fst)[j]? = some k) : i = j := by
  have hsame := (h k i).mpr hi
  rw [(h k j).mpr hj, Option.some.injEq] at hsame
  exact hsame.symm

theorem Coherent.nodup (h : Coherent m) : (m.vec.map Prod.fst).Nodup := by
  rw [List.nodup_iff_getElem?_ne_getElem?]
  intro i j hij hj heq
  have hget := List.getElem?_eq_getElem hj
  exact hij.ne (h.inj (heq.trans hget) hget)

theorem Coherent.map_eq_none_iff (h : Coherent m) :
    m.map k = none ↔ ∀ v, (k, v) ∉ m.vec := by
  constructor
  · intro hnone v hmem
    obtain ⟨i, hi⟩ := List.mem_iff_getElem?.mp (List.mem_map_of_mem (f := Prod.fst) hmem)
    rw [(h k i).mpr hi] at hnone
    cases hnone
  · intro hmem
    cases hk : m.map k with
    | none => rfl
    | some i =>
        obtain ⟨⟨k', v⟩, hin, rfl⟩ :=
          List.mem_map.mp (List.mem_of_getElem? ((h k i).mp hk))
        exact absurd hin (hmem v)

theorem Coherent.map_getElem? (h : Coherent m) (hi : m.vec[i]? = some entry) :
    m.map entry.1 = some i := by
  rw [h, List.getElem?_map, hi]
  rfl

theorem Coherent.getElem?_map (h : Coherent m) (hk : m.map k = some i) :
    ∃ v, m.vec[i]? = some (k, v) := by
  have hget := (h k i).mp hk
  rw [List.getElem?_map, Option.map_eq_some_iff] at hget
  obtain ⟨⟨k', v⟩, hi, rfl⟩ := hget
  exact ⟨v, hi⟩

end Coherence

section Operations

variable [DecidableEq Key]

theorem insert_old (h : m.map item.1 ≠ none) : m.insert item = (false, m) := by
  obtain ⟨i, hi⟩ := Option.ne_none_iff_exists'.mp h
  rw [insert, hi]

theorem insert_new (h : m.map item.1 = none) :
    m.insert item =
      (true, ⟨m.vec ++ [item], Function.update m.map item.1 (some m.vec.length)⟩) := by
  rw [insert, h]
  simp

theorem Coherent.insert (h : Coherent m) (item : Key × Value) : Coherent (m.insert item).2 := by
  by_cases hnone : m.map item.1 = none
  · rw [insert_new hnone]
    intro k i
    simp only [Function.update_apply, List.map_append, List.map_singleton, List.getElem?_append,
      List.length_map]
    have hlt := fun j => @Coherent.lt _ _ m k j h
    have hold := h k i
    split_ifs with hk hi hi
    · subst hk
      rw [← hold, hnone]
      grind
    · grind
    · exact hold
    · grind
  · rw [insert_old hnone]
    exact h

theorem Coherent.of_swapRemove (h : Coherent m) (hk : m.map k = some i)
    (hvec : m'.vec = swapRemove m.vec i)
    (hmap : ∀ k', m'.map k' = if k' = k then none
      else if (m.vec.map Prod.fst)[m.vec.length - 1]? = some k' then some i else m.map k') :
    Coherent m' := by
  intro k' j
  have hlt := h.lt hk
  have hi := (h k i).mp hk
  rw [hmap, hvec, map_swapRemove, getElem?_swapRemove (by rwa [List.length_map])]
  simp only [List.length_map]
  -- the key is gone, the last one has moved, and every other is where it was
  split_ifs with hkey hj hplace hlast hj hplace hj hplace
  · subst hkey hplace
    refine iff_of_false (by simp) fun hget => ?_
    have hsame := h.inj hget hi
    omega
  · subst hkey
    exact iff_of_false (by simp) fun hget => hplace (h.inj hget hi)
  · simp
  · subst hplace
    exact iff_of_true rfl hlast
  · refine iff_of_false (fun heq => hplace (Option.some.inj heq).symm) fun hget => ?_
    have hsame := h.inj hget hlast
    omega
  · refine iff_of_false (fun heq => hkey ?_) (by simp)
    obtain rfl : i = m.vec.length - 1 := by
      have hsame := Option.some.inj heq
      omega
    rw [hi, Option.some.injEq] at hlast
    exact hlast.symm
  · subst hplace
    refine iff_of_false (fun hmap => hkey ?_) hlast
    rw [h, hi, Option.some.injEq] at hmap
    exact hmap.symm
  · exact h k' j
  · refine iff_of_false (fun hmap => hlast ?_) (by simp)
    have hbound := h.lt hmap
    obtain rfl : j = m.vec.length - 1 := by omega
    exact (h k' _).mp hmap

theorem overwrite_last (hi : i + 1 = m.vec.length) : m.overwrite i = .ok m := by
  rw [overwrite, if_neg (not_not.mpr hi)]

theorem overwrite_inner (hi : i + 1 < m.vec.length) (hlast : m.vec.getLast? = some entry) :
    m.overwrite i = .ok ⟨m.vec.set i entry, Function.update m.map entry.1 (some i)⟩ := by
  rw [overwrite, if_pos hi.ne, if_neg (by omega), hlast]

theorem Coherent.erase (h : Coherent m) (hk : m.map k = some i) :
    ∃ m', m.erase k = .ok m' ∧ m'.vec = swapRemove m.vec i ∧ Coherent m' := by
  have hlt := h.lt hk
  have hi := (h k i).mp hk
  rw [FastTravelUnorderedMap.erase, hk]
  by_cases hone : m.vec.length = 1
  · obtain rfl : i = 0 := by omega
    refine ⟨{}, if_pos hone, ?_, coherent_empty⟩
    obtain ⟨x, hx⟩ := List.length_eq_one_iff.mp hone
    rw [hx]
    rfl
  · obtain ⟨last, hlast⟩ : ∃ last, m.vec.getLast? = some last :=
      ⟨_, List.getLast?_eq_some_getLast (List.ne_nil_of_length_pos (Nat.zero_lt_of_lt hlt))⟩
    have hkeys : (m.vec.map Prod.fst)[m.vec.length - 1]? = some last.1 := by
      rw [List.getElem?_map, ← List.getLast?_eq_getElem?, hlast]
      rfl
    simp only [if_neg hone]
    by_cases hend : i + 1 = m.vec.length
    · rw [overwrite_last hend]
      obtain rfl : i = m.vec.length - 1 := by omega
      refine ⟨_, rfl, (swapRemove_last hend).symm, h.of_swapRemove hk
        (swapRemove_last hend).symm fun k' => ?_⟩
      simp only [hi, Option.some.injEq, Function.update_apply]
      grind
    · rw [overwrite_inner (by omega) hlast]
      refine ⟨_, rfl, (swapRemove_of_getLast? hlast i).symm, h.of_swapRemove hk
        (swapRemove_of_getLast? hlast i).symm fun k' => ?_⟩
      simp only [hkeys, Option.some.injEq, Function.update_apply]
      grind

theorem Coherent.eraseAt (h : Coherent m) (hi : m.vec[i]? = some entry) :
    ∃ m', m.erase entry.1 = .ok m' ∧ m.eraseAt i = .ok (i, m') ∧
      m'.vec = swapRemove m.vec i ∧ Coherent m' := by
  have hk := h.map_getElem? hi
  obtain ⟨m', herase, hvec, hcoherent⟩ := h.erase hk
  refine ⟨m', herase, ?_, hvec, hcoherent⟩
  simp only [FastTravelUnorderedMap.eraseAt, hi, hk, herase]
  rfl

end Operations

/-- The finite map whose entries are those in the vector. -/
def Holds (m : FastTravelUnorderedMap Key Value) [DecidableEq Key]
    (F : Finmap fun _ : Key => Value) : Prop :=
  ∀ k v, (k, v) ∈ m.vec ↔ F.lookup k = some v

section Map

variable [DecidableEq Key] {F : Finmap fun _ : Key => Value}

theorem Holds.map_eq_none_iff (h : Holds m F) (hcoherent : Coherent m) :
    m.map k = none ↔ F.lookup k = none := by
  rw [hcoherent.map_eq_none_iff, Option.eq_none_iff_forall_ne_some]
  exact forall_congr' fun v => not_congr (h k v)

theorem Holds.insert (h : Holds m F) (hcoherent : Coherent m) (item : Key × Value) :
    Holds (m.insert item).2 (if item.1 ∈ F then F else F.insert item.1 item.2) := by
  by_cases hnone : m.map item.1 = none
  · have hlookup := (h.map_eq_none_iff hcoherent).mp hnone
    rw [insert_new hnone, if_neg (Finmap.lookup_eq_none.mp hlookup)]
    intro k v
    simp only [List.mem_append, List.mem_singleton]
    by_cases hk : k = item.1
    · subst hk
      rw [Finmap.lookup_insert, h, hlookup, Option.some.injEq]
      simp [Prod.ext_iff, eq_comm]
    · rw [Finmap.lookup_insert_of_ne _ hk, h]
      simp [Prod.ext_iff, hk]
  · have hmem : item.1 ∈ F := by
      rw [h.map_eq_none_iff hcoherent, Finmap.lookup_eq_none] at hnone
      exact not_not.mp hnone
    rw [insert_old hnone, if_pos hmem]
    exact h

theorem Holds.erase (h : Holds m F) (hcoherent : Coherent m) {m' : FastTravelUnorderedMap Key Value}
    {entry : Key × Value} (hi : m.vec[i]? = some entry) (hvec : m'.vec = swapRemove m.vec i) :
    Holds m' (F.erase entry.1) := by
  have hperm := swapRemove_perm hi
  have hnodup := (hperm.map Prod.fst).nodup_iff.mp hcoherent.nodup
  rw [List.map_cons, List.nodup_cons] at hnodup
  intro k v
  rw [hvec]
  by_cases hk : k = entry.1
  · subst hk
    rw [Finmap.lookup_erase]
    exact iff_of_false (fun hmem => hnodup.1 (List.mem_map.mpr ⟨_, hmem, rfl⟩)) (by simp)
  · rw [Finmap.lookup_erase_ne hk, ← h, hperm.mem_iff, List.mem_cons]
    simp [Prod.ext_iff, hk]

end Map

section Run

/-- What can be done with the map. -/
inductive Act (Key : Type u) (Value : Type v)
  | insert (item : Key × Value)
  | erase (key : Key)
  | eraseAt (iter : Nat)
  | find (key : Key)

/-- The map at work. An iterator that is erased is one that can be read. -/
def system (Key : Type u) (Value : Type v) [DecidableEq Key] :
    System (FastTravelUnorderedMap Key Value) (Act Key Value) Fault where
  Init m := m = {}
  Allowed m
    | .eraseAt iter => iter < m.vec.length
    | _ => True
  step m
    | .insert item => .ok (m.insert item).2
    | .erase key => m.erase key
    | .eraseAt iter => (m.eraseAt iter).map Prod.snd
    | .find _ => .ok m

variable [DecidableEq Key]

/-- What the same does to a finite map. -/
def spec (m : FastTravelUnorderedMap Key Value) :
    Act Key Value → Finmap (fun _ : Key => Value) → Finmap fun _ : Key => Value
  | .insert item, F => if item.1 ∈ F then F else F.insert item.1 item.2
  | .erase key, F => F.erase key
  | .eraseAt iter, F =>
      match m.vec[iter]? with
      | none => F
      | some entry => F.erase entry.1
  | .find _, F => F

/-- The map and a finite map to which the same is done. -/
def besideFinmap (Key : Type u) (Value : Type v) [DecidableEq Key] :
    System (FastTravelUnorderedMap Key Value × Finmap fun _ : Key => Value) (Act Key Value)
      Fault :=
  (system Key Value).chronicle ∅ fun m act _ => spec m act

theorem finmap_erase_of_notMem {F : Finmap fun _ : Key => Value} (h : F.lookup k = none) :
    F.erase k = F := by
  apply Finmap.ext_lookup
  intro k'
  by_cases hk : k' = k
  · rw [hk, Finmap.lookup_erase, h]
  · rw [Finmap.lookup_erase_ne hk]

/-- Nothing fails, and the map goes on as the finite map does. -/
theorem step_spec {F : Finmap fun _ : Key => Value} {act : Act Key Value} (h : Coherent m)
    (hholds : Holds m F) (hallowed : (system Key Value).Allowed m act) :
    ∃ m', (system Key Value).step m act = .ok m' ∧ Coherent m' ∧ Holds m' (spec m act F) := by
  cases act with
  | insert item => exact ⟨_, rfl, h.insert item, hholds.insert h item⟩
  | erase key =>
      cases hk : m.map key with
      | none =>
          refine ⟨m, ?_, h, ?_⟩
          · simp only [system, FastTravelUnorderedMap.erase, hk]
          · have hlookup := (hholds.map_eq_none_iff h).mp hk
            rwa [spec, finmap_erase_of_notMem hlookup]
      | some i =>
          obtain ⟨v, hi⟩ := h.getElem?_map hk
          obtain ⟨m', herase, hvec, hcoherent⟩ := h.erase hk
          exact ⟨m', herase, hcoherent, hholds.erase h hi hvec⟩
  | eraseAt iter =>
      have hi := List.getElem?_eq_getElem hallowed
      obtain ⟨m', -, herase, hvec, hcoherent⟩ := h.eraseAt hi
      refine ⟨m', ?_, hcoherent, ?_⟩
      · simp only [system, herase]
        rfl
      · simp only [spec, hi]
        exact hholds.erase h hi hvec
  | find key => exact ⟨m, rfl, h, hholds⟩

variable {F : Finmap fun _ : Key => Value}

/-- The vector, the `unordered_map` and the finite map agree. -/
def Agrees (s : FastTravelUnorderedMap Key Value × Finmap fun _ : Key => Value) : Prop :=
  Coherent s.1 ∧ Holds s.1 s.2

theorem agrees {s : FastTravelUnorderedMap Key Value × Finmap fun _ : Key => Value}
    (h : (besideFinmap Key Value).Reaches (fun _ _ => True) s) : Agrees s := by
  refine h.invariant ?_ ?_
  · rintro ⟨m, F⟩ ⟨rfl, rfl⟩
    exact ⟨coherent_empty, fun k v => by simp⟩
  · rintro ⟨m, F⟩ act ⟨m', F'⟩ ⟨hcoherent, hholds⟩ hallowed - hstep
    obtain ⟨hm', rfl⟩ := System.chronicle_step.mp hstep
    obtain ⟨m'', hm'', hcoherent', hholds'⟩ := step_spec hcoherent hholds hallowed
    obtain rfl := Except.ok.inj (hm'.symm.trans hm'')
    exact ⟨hcoherent', hholds'⟩

/-- The sweep asks of every entry from its place on once, and the entries it erases are
the ones it should. What it leaves is a map that can come about. -/
theorem sweepFrom_spec {cond : Key × Value → Bool} {rounds : Nat} {l r : List (Key × Value)}
    (asked : List (Key × Value)) (hm : (system Key Value).Reaches (fun _ _ => True) m)
    (h : Coherent m) (hvec : m.vec = l ++ r) (hrounds : r.length ≤ rounds) :
    ∃ m' asked', sweepFrom cond rounds (l.length, m) asked =
        .ok ((m'.vec.length, m'), asked ++ asked') ∧
      asked'.Perm r ∧ m'.vec.Perm (l ++ r.filter fun entry => !cond entry) ∧
      (system Key Value).Reaches (fun _ _ => True) m' := by
  induction rounds generalizing l r m asked with
  | zero =>
      obtain rfl := List.length_eq_zero_iff.mp (Nat.le_zero.mp hrounds)
      rw [List.append_nil] at hvec
      refine ⟨m, [], ?_, List.Perm.refl _, ?_, hm⟩
      · rw [sweepFrom, hvec, List.append_nil]
      · rw [hvec, List.filter_nil, List.append_nil]
  | succ rounds ih =>
      cases r with
      | nil =>
          rw [List.append_nil] at hvec
          refine ⟨m, [], ?_, List.Perm.refl _, ?_, hm⟩
          · rw [sweepFrom, hvec, List.getElem?_eq_none (Nat.le_refl _), List.append_nil]
          · rw [hvec, List.filter_nil, List.append_nil]
      | cons entry r =>
          have hi : m.vec[l.length]? = some entry := by
            rw [hvec]
            rw [List.getElem?_append_right (Nat.le_refl _), Nat.sub_self]
            rfl
          have hrounds' := Nat.le_of_succ_le_succ hrounds
          by_cases hcond : cond entry
          · -- the loop stays where it is, and there is another entry now
            obtain ⟨m₁, -, herase, hvec₁, hcoherent⟩ := h.eraseAt hi
            obtain ⟨r', hr', hperm⟩ := swapRemove_append l entry r
            rw [← hvec, ← hvec₁] at hr'
            have hm₁ : (system Key Value).Reaches (fun _ _ => True) m₁ := by
              refine hm.step (a := .eraseAt l.length) ?_ trivial ?_
              · exact (List.getElem?_eq_some_iff.mp hi).1
              · simp only [system, herase]
                rfl
            obtain ⟨m', asked', hsweep, hasked, hleft, hm'⟩ :=
              ih (asked ++ [entry]) hm₁ hcoherent hr' (hperm.length_eq.trans_le hrounds')
            refine ⟨m', entry :: asked', ?_, (hasked.trans hperm).cons entry, ?_, hm'⟩
            · simp only [sweepFrom, hi, if_pos hcond, herase]
              exact hsweep.trans (by rw [List.append_assoc, List.singleton_append])
            · rw [List.filter_cons_of_neg (by simp [hcond])]
              exact hleft.trans ((hperm.filter _).append_left l)
          · rw [← List.singleton_append, ← List.append_assoc] at hvec
            obtain ⟨m', asked', hsweep, hasked, hleft, hm'⟩ :=
              ih (asked ++ [entry]) hm h hvec hrounds'
            refine ⟨m', entry :: asked', ?_, hasked.cons entry, ?_, hm'⟩
            · rw [List.length_append, List.length_singleton] at hsweep
              simp only [sweepFrom, hi, if_neg hcond]
              exact hsweep.trans (by rw [List.append_assoc, List.singleton_append])
            · rw [List.filter_cons_of_pos (by simp [hcond])]
              rwa [List.append_assoc, List.singleton_append] at hleft

/-- What the map does is what the finite map does. -/
structure IsFiniteMap (m : FastTravelUnorderedMap Key Value) (F : Finmap fun _ : Key => Value) :
    Prop where
  entries : ∀ k v, (k, v) ∈ m.vec ↔ F.lookup k = some v
  visitedOnce : (m.vec.map Prod.fst).Nodup
  index : ∀ k i, m.map k = some i ↔ ∃ v, m.vec[i]? = some (k, v)
  inserts : ∀ item, (m.insert item).1 = true ↔ item.1 ∉ F
  finds : ∀ k, m.vec[m.find k]? = (F.lookup k).map fun v => (k, v)
  findsEnd : ∀ k, k ∉ F → m.find k = m.vec.length
  staysInPlace : ∀ iter < m.vec.length, ∃ m', m.eraseAt iter = .ok (iter, m')
  works : ∀ act, (system Key Value).Allowed m act → ∃ m', (system Key Value).step m act = .ok m'
  sweeps : ∀ cond, ∃ m' asked, sweepFrom cond m.vec.length (0, m) [] =
      .ok ((m'.vec.length, m'), asked) ∧ asked.Perm m.vec ∧
    m'.vec.Perm (m.vec.filter fun entry => !cond entry) ∧
    (system Key Value).Reaches (fun _ _ => True) m'

/-- Whatever is done with it, the map is the finite map to which the same has been
done. -/
theorem isFiniteMap (h : (besideFinmap Key Value).Reaches (fun _ _ => True) (m, F)) :
    IsFiniteMap m F := by
  obtain ⟨hcoherent, hholds⟩ := agrees h
  have hm : (system Key Value).Reaches (fun _ _ => True) m :=
    System.Reaches.of_chronicle (C := fun _ _ => True) h
  have hnone := fun k => hholds.map_eq_none_iff (k := k) hcoherent
  refine ⟨hholds, hcoherent.nodup, ?_, ?_, ?_, ?_, ?_, ?_, ?_⟩
  · intro k i
    refine ⟨hcoherent.getElem?_map, ?_⟩
    rintro ⟨v, hi⟩
    exact hcoherent.map_getElem? hi
  · intro item
    rw [← Finmap.lookup_eq_none, ← hnone]
    by_cases hk : m.map item.1 = none
    · simp [insert_new hk, hk]
    · simp [insert_old hk, hk]
  · intro k
    cases hk : m.map k with
    | none =>
        rw [(hnone k).mp hk, find, hk]
        exact List.getElem?_eq_none (Nat.le_refl _)
    | some i =>
        obtain ⟨v, hi⟩ := hcoherent.getElem?_map hk
        rw [find, hk, hi, (hholds k v).mp (List.mem_of_getElem? hi)]
        rfl
  · intro k hk
    rw [find, (hnone k).mpr (Finmap.lookup_eq_none.mpr hk)]
  · intro iter hlt
    obtain ⟨m', -, herase, -⟩ := hcoherent.eraseAt (List.getElem?_eq_getElem hlt)
    exact ⟨m', herase⟩
  · intro act hallowed
    obtain ⟨m', hm', -⟩ := step_spec hcoherent hholds hallowed
    exact ⟨m', hm'⟩
  · intro cond
    exact sweepFrom_spec (l := []) [] hm hcoherent (List.nil_append _).symm (Nat.le_refl _)

theorem isFiniteMap_three :
    let s := (besideFinmap Nat String).after ({}, ∅)
      [.insert (1, "a"), .insert (2, "b"), .insert (3, "c"), .insert (2, "d"), .eraseAt 0]
    s.1.vec = [(3, "c"), (2, "b")] ∧ IsFiniteMap s.1 s.2 := by
  refine ⟨rfl, isFiniteMap (System.Reaches.after (.init ⟨rfl, rfl⟩) ?_)⟩
  have hlt : 0 < 3 := Nat.succ_pos 2
  exact ⟨trivial, trivial, trivial, trivial, trivial, trivial, trivial, trivial, hlt, trivial,
    trivial⟩

end Run

end FastTravelUnorderedMap

end CasualGame.Componet
