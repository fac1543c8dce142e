import Mathlib.Data.Nat.ModEq

/-!
A ring of `n` cells. Its places are counted on from lap to lap; the place `j` is the cell `j % n`.
-/

namespace CasualGame.Lib.Ring

variable {n lo hi i j : Nat}

/-- The places of one lap are different cells. -/
theorem eq_of_mod_eq (hi₁ : lo ≤ i) (hi₂ : i < lo + n) (hj₁ : lo ≤ j) (hj₂ : j < lo + n)
    (h : i % n = j % n) : i = j := by
  obtain ⟨a, rfl⟩ := Nat.exists_eq_add_of_le hi₁
  obtain ⟨b, rfl⟩ := Nat.exists_eq_add_of_le hj₁
  have hab : a % n = b % n := Nat.ModEq.add_left_cancel' lo h
  rw [Nat.mod_eq_of_lt (by omega), Nat.mod_eq_of_lt (by omega)] at hab
  rw [hab]

theorem mod_ne (hi₁ : lo ≤ i) (hi₂ : i < lo + n) (hj₁ : lo ≤ j) (hj₂ : j < lo + n)
    (hne : i ≠ j) : i % n ≠ j % n :=
  fun h => hne (eq_of_mod_eq hi₁ hi₂ hj₁ hj₂ h)

/-- With a power of two of cells the cell of a place is what a mask leaves, also of a counter
that has wrapped around. -/
theorem wrapped_and_mask {k w : Nat} (h : k ≤ w) (j : Nat) :
    j % 2 ^ w &&& (2 ^ k - 1) = j % 2 ^ k := by
  rw [Nat.and_two_pow_sub_one_eq_mod, Nat.mod_mod_of_dvd _ (Nat.pow_dvd_pow 2 h)]

theorem toNat_one_shiftLeft {s : UInt32} (h : s.toNat < 32) :
    ((1 : UInt32) <<< s).toUInt64.toNat = 2 ^ s.toNat := by
  have hpow : 2 ^ s.toNat < 2 ^ 32 := Nat.pow_lt_pow_right (by decide) h
  rw [UInt32.toNat_toUInt64, UInt32.toNat_shiftLeft, UInt32.toNat_one, Nat.shiftLeft_eq,
    Nat.one_mul, Nat.mod_eq_of_lt h, Nat.mod_eq_of_lt hpow]

/-- Of the lap from `lo` on, the places before `hi` are marked and the others are not. -/
structure Marked (n : Nat) (mark : Nat → Prop) (lo hi : Nat) : Prop where
  le : lo ≤ hi
  room : hi ≤ lo + n
  iff : ∀ j, lo ≤ j → j < lo + n → (mark (j % n) ↔ j < hi)

namespace Marked

variable {mark mark' : Nat → Prop}

theorem congr (h : Marked n mark lo hi) (hsame : ∀ c, mark' c ↔ mark c) :
    Marked n mark' lo hi :=
  ⟨h.le, h.room, fun j hj hj' => (hsame _).trans (h.iff j hj hj')⟩

/-- There is room for one more when the next cell is not marked. -/
theorem lt_room (h : Marked n mark lo hi) (hpos : 0 < n) (hnot : ¬ mark (hi % n)) :
    hi < lo + n := by
  refine h.room.lt_of_ne fun hfull => hnot ?_
  rw [hfull, Nat.add_mod_right]
  exact (h.iff lo (Nat.le_refl _) (by omega)).mpr (by omega)

/-- Something is there when the first cell is marked. -/
theorem lt (h : Marked n mark lo hi) (hpos : 0 < n) (hmark : mark (lo % n)) : lo < hi :=
  (h.iff lo (Nat.le_refl _) (by omega)).mp hmark

/-- The next place gets its mark. -/
theorem extend (h : Marked n mark lo hi) (hpos : 0 < n) (hnot : ¬ mark (hi % n))
    (hnew : mark' (hi % n)) (hsame : ∀ c ≠ hi % n, (mark' c ↔ mark c)) :
    Marked n mark' lo (hi + 1) := by
  have hroom := h.lt_room hpos hnot
  refine ⟨h.le.trans hi.le_succ, hroom, fun j hj hj' => ?_⟩
  rcases eq_or_ne j hi with rfl | hne
  · exact iff_of_true hnew j.lt_succ_self
  · rw [hsame _ (mod_ne hj hj' h.le hroom hne), h.iff j hj hj']
    omega

/-- The first place loses its mark. -/
theorem retract (h : Marked n mark lo hi) (hpos : 0 < n) (hmark : mark (lo % n))
    (hnew : ¬ mark' (lo % n)) (hsame : ∀ c ≠ lo % n, (mark' c ↔ mark c)) :
    Marked n mark' (lo + 1) hi := by
  have hlt := h.lt hpos hmark
  have hroom := h.room
  refine ⟨hlt, by omega, fun j hj hj' => ?_⟩
  rcases eq_or_ne j (lo + n) with rfl | hne
  · rw [Nat.add_mod_right]
    exact iff_of_false hnew (by omega)
  · rw [hsame _ (mod_ne (by omega) (by omega) (Nat.le_refl lo) (by omega) (by omega)),
      h.iff j (by omega) (by omega)]

end Marked

end CasualGame.Lib.Ring
