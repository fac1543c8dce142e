import Std.Data.TreeMap
import Mathlib.Data.Set.Insert

namespace CasualGame.Lib.Index

universe u v

variable {κ : Type u} {π : Type v} [Ord κ]

/-- The map holds exactly the members of `S`, each under its key. -/
def Indexes (t : Std.TreeMap κ π) (key : π → κ) (S : Set π) : Prop :=
  ∀ k p, t[k]? = some p ↔ p ∈ S ∧ key p = k

variable {t : Std.TreeMap κ π} {key key' : π → κ} {S : Set π}

theorem Indexes.getElem? (h : Indexes t key S) {p : π} (hp : p ∈ S) : t[key p]? = some p :=
  (h _ _).mpr ⟨hp, rfl⟩

theorem Indexes.mem (h : Indexes t key S) {k : κ} {p : π} (hp : t[k]? = some p) : p ∈ S :=
  ((h k p).mp hp).1

theorem Indexes.key_eq (h : Indexes t key S) {k : κ} {p : π} (hp : t[k]? = some p) : key p = k :=
  ((h k p).mp hp).2

theorem Indexes.injOn (h : Indexes t key S) {p q : π} (hp : p ∈ S) (hq : q ∈ S)
    (heq : key p = key q) : p = q := by
  have hsame := h.getElem? hp
  rw [heq, h.getElem? hq, Option.some.injEq] at hsame
  exact hsame.symm

/-- Keys of others may change. -/
theorem Indexes.congr (h : Indexes t key S) (hkey : ∀ p ∈ S, key' p = key p) :
    Indexes t key' S := by
  intro k p
  rw [h k p]
  constructor
  · rintro ⟨hp, rfl⟩
    exact ⟨hp, hkey p hp⟩
  · rintro ⟨hp, rfl⟩
    exact ⟨hp, (hkey p hp).symm⟩

variable [Std.TransOrd κ]

theorem indexes_empty (key : π → κ) : Indexes (∅ : Std.TreeMap κ π) key ∅ := by
  intro k p
  simp

theorem Indexes.mem_iff (h : Indexes t key S) {k : κ} : k ∈ t ↔ ∃ p ∈ S, key p = k := by
  rw [Std.TreeMap.mem_iff_isSome_getElem?, Option.isSome_iff_exists]
  constructor
  · rintro ⟨p, hp⟩
    exact ⟨p, h.mem hp, h.key_eq hp⟩
  · rintro ⟨p, hp, hk⟩
    exact ⟨p, (h k p).mpr ⟨hp, hk⟩⟩

variable [Std.LawfulEqOrd κ]

theorem getElem?_insert [DecidableEq κ] (t : Std.TreeMap κ π) (k k' : κ) (p : π) :
    (t.insert k p)[k']? = if k' = k then some p else t[k']? := by
  rw [Std.TreeMap.getElem?_insert]
  by_cases hk : k' = k
  · rw [if_pos (Std.compare_eq_iff_eq.mpr hk.symm), if_pos hk]
  · rw [if_neg fun heq => hk (Std.compare_eq_iff_eq.mp heq).symm, if_neg hk]

theorem getElem?_erase [DecidableEq κ] (t : Std.TreeMap κ π) (k k' : κ) :
    (t.erase k)[k']? = if k' = k then none else t[k']? := by
  rw [Std.TreeMap.getElem?_erase]
  by_cases hk : k' = k
  · rw [if_pos (Std.compare_eq_iff_eq.mpr hk.symm), if_pos hk]
  · rw [if_neg fun heq => hk (Std.compare_eq_iff_eq.mp heq).symm, if_neg hk]

theorem Indexes.insert (h : Indexes t key S) {p : π} (hp : key p ∉ t) :
    Indexes (t.insert (key p) p) key (insert p S) := by
  classical
  intro k q
  rw [getElem?_insert, Set.mem_insert_iff]
  split_ifs with hk
  · subst hk
    constructor
    · intro heq
      exact ⟨Or.inl (Option.some.inj heq).symm, by rw [Option.some.inj heq]⟩
    · rintro ⟨rfl | hq, hkey⟩
      · rfl
      · exact absurd (h.mem_iff.mpr ⟨q, hq, hkey⟩) hp
  · rw [h k q]
    constructor
    · rintro ⟨hq, hkey⟩
      exact ⟨Or.inr hq, hkey⟩
    · rintro ⟨rfl | hq, hkey⟩
      · exact absurd hkey.symm hk
      · exact ⟨hq, hkey⟩

/-- What is erased under a key is whoever has the key. -/
theorem Indexes.erase (h : Indexes t key S) (k : κ) :
    Indexes (t.erase k) key {p ∈ S | key p ≠ k} := by
  classical
  intro k' q
  rw [getElem?_erase]
  split_ifs with hk
  · subst hk
    simp
  · rw [h k' q]
    constructor
    · rintro ⟨hq, rfl⟩
      exact ⟨⟨hq, hk⟩, rfl⟩
    · rintro ⟨⟨hq, -⟩, hkey⟩
      exact ⟨hq, hkey⟩

theorem Indexes.erase_member (h : Indexes t key S) {p : π} (hp : p ∈ S) :
    Indexes (t.erase (key p)) key (S \ {p}) := by
  have hset : S \ {p} = {q ∈ S | key q ≠ key p} := by
    ext q
    constructor
    · rintro ⟨hq, hne⟩
      exact ⟨hq, fun heq => hne (h.injOn hq hp heq)⟩
    · rintro ⟨hq, hne⟩
      exact ⟨hq, fun heq => hne (by rw [Set.mem_singleton_iff.mp heq])⟩
  rw [hset]
  exact h.erase (key p)

end CasualGame.Lib.Index
