import CasualGame.Componet.StringKit

/-!
Integers as texts, and back again.
-/

namespace CasualGame.Componet

open Lib.Decimal

variable {T : IntType} {n : T.Value} {arg : Arg}

theorem toString_eq (arg : Arg) : toString arg = appendToString [] arg :=
  List.append_nil _

theorem isSpace_of_isDigit {c : UInt8} (h : isDigit c = true) :
    isSpace c = false ∧ c ≠ 45 ∧ c ≠ 43 := by
  rw [isDigit, Bool.and_eq_true, decide_eq_true_eq, decide_eq_true_eq] at h
  have hlow : 48 ≤ c.toNat := UInt8.le_iff_toNat_le.mp h.1
  refine ⟨?_, ?_, ?_⟩
  · rw [isSpace, Bool.or_eq_false_iff, Bool.and_eq_false_iff]
    refine ⟨beq_false_of_ne ?_, .inr (decide_eq_false ?_)⟩
    · rintro rfl
      exact absurd hlow (by decide)
    · rw [UInt8.le_iff_toNat_le]
      exact fun hle => absurd (hlow.trans hle) (by decide)
  · rintro rfl
    exact absurd hlow (by decide)
  · rintro rfl
    exact absurd hlow (by decide)

theorem extract_decimal (T : IntType) (m : Nat) : extract T (decimal m) = T.store false m := by
  obtain ⟨c, ds, hds⟩ := List.exists_cons_of_ne_nil (decimal_ne_nil m)
  have hdigits : ∀ c ∈ decimal m, isDigit c = true := fun c hc => isDigit_of_mem hc
  obtain ⟨hspace, hminus, hplus⟩ := isSpace_of_isDigit (hdigits c (hds ▸ List.mem_cons_self))
  have htake : (decimal m).takeWhile isDigit = decimal m := List.takeWhile_eq_self_iff.mpr hdigits
  have hdrop : (decimal m).dropWhile isSpace = decimal m := by
    rw [hds, List.dropWhile_cons_of_neg (by rw [hspace]; decide)]
  have hhead : (decimal m).head? = some c := by rw [hds]; rfl
  have hsign : (some c == some (45 : UInt8)) = false ∧ (some c == some (43 : UInt8)) = false :=
    ⟨beq_false_of_ne fun h => hminus (Option.some.inj h),
      beq_false_of_ne fun h => hplus (Option.some.inj h)⟩
  rw [extract, hdrop, hhead, hsign.1, hsign.2, Bool.or_self, if_neg Bool.false_ne_true,
    htake, if_neg (decimal_ne_nil m), valueOf_decimal]

theorem store_of_le {m : Nat} (h : (m : Int) ≤ T.max) : T.store false m = m := by
  cases T with
  | bool =>
      have h : (m : Int) ≤ 1 := h
      rw [IntType.store]
      split_ifs <;> omega
  | int16 | int32 | int64 => exact min_eq_right h
  | uint16 | uint32 | uint64 =>
      rw [IntType.store, if_neg (by omega), if_neg (by decide)]

/-- The text of the value is the number in decimal, and the value is read from its text. -/
def IntType.Value.Survives (n : T.Value) : Prop :=
  format [123, 125] [.int T n] = decimalInt n.val ∧ fromString T (toString (.int T n)) = n.val

/-- With as many arguments as there are placeholders, the text of each takes the place of its
own in the literal text. -/
def Fills (f : List UInt8) (args : List Arg) : Prop :=
  ∀ literals, Literals (cString f) literals → literals.length = args.length + 1 →
    format f args = weave literals (args.map Arg.plainText)

theorem IntType.Value.survives_iff : n.Survives ↔ 0 ≤ n.val := by
  constructor
  · rintro ⟨htext, -⟩
    refine Int.not_lt.mp fun hneg => ?_
    have heq : appendToString [] (.int T n) ++ [] = (Arg.int T n).plainText ++ [] := by
      rw [List.append_nil (Arg.plainText _)]
      exact htext
    have hneg : (Arg.int T n).Negative := hneg
    exact append_ne_of_negative hneg [] [] heq
  · intro hn
    have htext : toString (.int T n) = decimal n.val.toNat := by
      have hnot : ¬ (Arg.int T n).Negative := hn.not_gt
      rw [toString_eq, appendToString_of_not_negative hnot, plainText_int hn]
    refine ⟨?_, ?_⟩
    · exact htext.trans (plainText_int hn).symm
    · have hle : (n.val.toNat : Int) ≤ T.max := by
        rw [Int.toNat_of_nonneg hn]
        exact n.le_max
      rw [htext, fromString, extract_decimal, store_of_le hle, Int.toNat_of_nonneg hn]

theorem fills_iff (f : List UInt8) (args : List Arg) :
    Fills f args ↔
      ((∃ literals, Literals (cString f) literals ∧ literals.length = args.length + 1) →
        ∀ arg ∈ args, ¬ arg.Negative) := by
  have hweave : ∀ literals, Literals (cString f) literals → literals.length = args.length + 1 →
      (format f args = weave literals (args.map Arg.plainText) ↔ ∀ arg ∈ args, ¬ arg.Negative) := by
    intro literals h hlength
    rw [← weave_eq_iff hlength, format, ← formatAndAppend_cString,
      formatAndAppend_eq_weave h (not_mem_cString f) hlength]
    exact Iff.rfl
  constructor
  · rintro hfills ⟨literals, h, hlength⟩
    exact (hweave literals h hlength).mp (hfills literals h hlength)
  · intro hnot literals h hlength
    exact (hweave literals h hlength).mpr (hnot ⟨literals, h, hlength⟩)

/-- Integers survive formatting when they are not negative, and a format string is filled in
when no argument is a negative integer. -/
theorem integersSurvive_iff (T : IntType) (n : T.Value) (f : List UInt8) (args : List Arg) :
    (n.Survives ↔ 0 ≤ n.val) ∧
      (Fills f args ↔
        ((∃ literals, Literals (cString f) literals ∧ literals.length = args.length + 1) →
          ∀ arg ∈ args, ¬ arg.Negative)) :=
  ⟨IntType.Value.survives_iff, fills_iff f args⟩

/-- `-1` becomes `18446744073709551615`, which is read as the largest value there is. -/
theorem minusOne_not_survives :
    let n : IntType.int32.Value := ⟨-1, by decide, by decide⟩
    toString (.int .int32 n) = decimal 18446744073709551615 ∧
      fromString .int32 (toString (.int .int32 n)) = 2147483647 ∧ ¬ n.Survives := by
  refine ⟨by decide +kernel, by decide +kernel, ?_⟩
  rintro ⟨-, hback⟩
  exact absurd hback (by decide +kernel)

end CasualGame.Componet
