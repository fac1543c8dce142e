import Mathlib.Data.Nat.Digits.Lemmas

/-!
Numbers in decimal, as bytes.
-/

namespace CasualGame.Lib.Decimal

variable {n m k : Nat} {c : UInt8}

def digit (d : Nat) : UInt8 := UInt8.ofNat (48 + d)

def decimal (n : Nat) : List UInt8 :=
  if n = 0 then [48] else (Nat.digits 10 n).reverse.map digit

/-- With the sign `-` before a number that is negative. -/
def decimalInt (n : Int) : List UInt8 :=
  if n < 0 then 45 :: decimal n.natAbs else decimal n.natAbs

def isDigit (c : UInt8) : Bool := 48 ≤ c && c ≤ 57

/-- The number that the digits are read as, one after the other. -/
def valueOf (ds : List UInt8) : Nat := ds.foldl (fun v c => v * 10 + (c.toNat - 48)) 0

theorem toNat_digit (h : n < 10) : (digit n).toNat = 48 + n := by
  rw [digit, UInt8.toNat_ofNat', Nat.mod_eq_of_lt (by omega)]

theorem isDigit_digit (h : n < 10) : isDigit (digit n) = true := by
  rw [isDigit, Bool.and_eq_true, decide_eq_true_eq, decide_eq_true_eq, UInt8.le_iff_toNat_le,
    UInt8.le_iff_toNat_le, toNat_digit h]
  exact ⟨Nat.le_add_right 48 n, Nat.add_le_add_left (Nat.le_of_lt_succ h) 48⟩

theorem decimal_ne_nil (n : Nat) : decimal n ≠ [] := by
  rw [decimal]
  split_ifs with hn
  · exact List.cons_ne_nil _ _
  · rw [Ne, List.map_eq_nil_iff, List.reverse_eq_nil_iff, Nat.digits_eq_nil_iff_eq_zero]
    exact hn

theorem isDigit_of_mem (h : c ∈ decimal n) : isDigit c = true := by
  rw [decimal] at h
  split_ifs at h
  · rw [List.mem_singleton.mp h]
    rfl
  · obtain ⟨d, hd, rfl⟩ := List.mem_map.mp h
    exact isDigit_digit (Nat.digits_lt_base (by decide) (List.mem_reverse.mp hd))

theorem valueOf_digits {ds : List Nat} (hds : ∀ d ∈ ds, d < 10) :
    valueOf (ds.reverse.map digit) = Nat.ofDigits 10 ds := by
  rw [valueOf, List.foldl_map, List.foldl_reverse, Nat.ofDigits_eq_foldr]
  apply List.foldr_ext
  intro d hd v
  rw [toNat_digit (hds d hd), Nat.add_sub_cancel_left, Nat.add_comm, Nat.mul_comm]
  rfl

theorem valueOf_decimal (n : Nat) : valueOf (decimal n) = n := by
  rw [decimal]
  split_ifs with hn
  · exact hn.symm
  · rw [valueOf_digits fun d hd => Nat.digits_lt_base (by decide) hd, Nat.ofDigits_digits]

theorem length_decimal_le (hk : 0 < k) (hn : n < 10 ^ k) : (decimal n).length ≤ k := by
  rw [decimal]
  split_ifs with hzero
  · exact hk
  · rw [List.length_map, List.length_reverse]
    exact (Nat.digits_length_le_iff (by decide) n).mpr hn

end CasualGame.Lib.Decimal
