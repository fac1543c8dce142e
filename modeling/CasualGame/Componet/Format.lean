import Mathlib.Data.List.TakeWhile
import CasualGame.Lib.Decimal

namespace CasualGame.Componet

open Lib.Decimal

section Code

/-- The integer types that are not types of characters. -/
inductive IntType
  | bool
  | int16
  | uint16
  | int32
  | uint32
  | int64
  | uint64
  deriving DecidableEq

namespace IntType

def isUnsigned : IntType → Bool
  | .bool | .uint16 | .uint32 | .uint64 => true
  | .int16 | .int32 | .int64 => false

def min : IntType → Int
  | .int16 => -2 ^ 15
  | .int32 => -2 ^ 31
  | .int64 => -2 ^ 63
  | _ => 0

def max : IntType → Int
  | .bool => 1
  | .int16 => 2 ^ 15 - 1
  | .uint16 => 2 ^ 16 - 1
  | .int32 => 2 ^ 31 - 1
  | .uint32 => 2 ^ 32 - 1
  | .int64 => 2 ^ 63 - 1
  | .uint64 => 2 ^ 64 - 1

/-- The values of the type. -/
structure Value (T : IntType) where
  val : Int
  min_le : T.min ≤ val
  le_max : val ≤ T.max
  deriving DecidableEq

end IntType

/-- What can be formatted. The texts are strings, and what objects and exceptions tell. -/
inductive Arg
  | int (T : IntType) (n : T.Value)
  | char (ch : UInt8)
  | text (s : List UInt8)

/-- What is in the buffer after `std::snprintf(buf, size, "%" PRIu64, arg)`. -/
def snprintfU64 (size : Nat) (arg : UInt64) : List UInt8 := (decimal arg.toNat).take (size - 1)

def appendUnsigned (str : List UInt8) (arg : UInt64) : List UInt8 := str ++ snprintfU64 (24 - 1) arg

/-- The format is the one for `uint64_t` here as well, so that the argument is taken for one. -/
def appendSigned (str : List UInt8) (arg : Int64) : List UInt8 :=
  str ++ snprintfU64 (24 - 1) arg.toUInt64

def appendToString (str : List UInt8) : Arg → List UInt8
  | .int T n =>
      if T.isUnsigned then appendUnsigned str (UInt64.ofNat n.val.toNat)
      else appendSigned str (Int64.ofInt n.val)
  | .char ch => str ++ [ch]
  | .text s => str ++ s

/-- The bytes of a C string. -/
def cString (f : List UInt8) : List UInt8 := f.takeWhile (· ≠ 0)

/-- The inner loop of `formatAndAppend`: what comes after the next `}`. -/
def closing : List UInt8 → Option (List UInt8)
  | [] => none
  | c :: f => if c = 0 then none else if c ≠ 125 then closing f else some f

/-- The outer loop of `formatAndAppend`, with the first argument and the call for the others. -/
def scan (arg : Arg) (others : List UInt8 → List UInt8 → List UInt8) (str : List UInt8) :
    List UInt8 → List UInt8
  | [] => str
  | c :: f =>
      if c = 0 then str
      else if c ≠ 123 then scan arg others (str ++ [c]) f
      else
        match closing f with
        | some f => others (appendToString str arg) f
        | none => scan arg others str f

def formatAndAppend : List Arg → List UInt8 → List UInt8 → List UInt8
  | [], str, f => str ++ cString f
  | arg :: args, str, f => scan arg (formatAndAppend args) str f

def format (f : List UInt8) (args : List Arg) : List UInt8 := formatAndAppend args [] f

end Code

namespace Arg

/-- The text of an argument, which is the number in decimal for an integer. -/
def plainText : Arg → List UInt8
  | .int _ n => decimalInt n.val
  | .char ch => [ch]
  | .text s => s

def Negative : Arg → Prop
  | .int _ n => n.val < 0
  | _ => False

end Arg

/-- The literal texts before, between and behind the placeholders of a format string. -/
inductive Literals : List UInt8 → List (List UInt8) → Prop
  | last {f : List UInt8}
      (hnone : ∀ before inside after, f ≠ before ++ 123 :: (inside ++ 125 :: after)) :
      Literals f [f]
  | cons {before inside f : List UInt8} {literals : List (List UInt8)} (hbefore : 123 ∉ before)
      (hinside : 125 ∉ inside) (h : Literals f literals) :
      Literals (before ++ 123 :: (inside ++ 125 :: f)) (before :: literals)

/-- The texts that stand between the literal ones. -/
def weave : List (List UInt8) → List (List UInt8) → List UInt8
  | [], _ => []
  | literal :: _, [] => literal
  | literal :: literals, text :: texts => literal ++ (text ++ weave literals texts)

section Literals

variable {c x : UInt8} {a a' r r' f str : List UInt8} {literals literals' : List (List UInt8)}

theorem mem_behind_first (ha : c ∉ a) (heq : a ++ c :: r = a' ++ c :: r') (hx : x ∈ r') :
    x ∈ r := by
  induction a generalizing a' with
  | nil =>
      cases a' with
      | nil => exact (List.cons.inj heq).2 ▸ hx
      | cons y a' =>
          rw [(List.cons.inj heq).2]
          exact List.mem_append_right _ (List.mem_cons_of_mem c hx)
  | cons y a ih =>
      cases a' with
      | nil => exact absurd ((List.cons.inj heq).1 ▸ List.mem_cons_self) ha
      | cons y' a' => exact ih (fun h => ha (List.mem_cons_of_mem y h)) (List.cons.inj heq).2

theorem first_unique (ha : c ∉ a) (ha' : c ∉ a') (heq : a ++ c :: r = a' ++ c :: r') :
    a = a' ∧ r = r' := by
  induction a generalizing a' with
  | nil =>
      cases a' with
      | nil => exact ⟨rfl, (List.cons.inj heq).2⟩
      | cons y a' => exact absurd ((List.cons.inj heq).1 ▸ List.mem_cons_self) ha'
  | cons y a ih =>
      cases a' with
      | nil => exact absurd ((List.cons.inj heq).1 ▸ List.mem_cons_self) ha
      | cons y' a' =>
          obtain ⟨rfl, hrest⟩ := List.cons.inj heq
          obtain ⟨rfl, rfl⟩ := ih (fun h => ha (List.mem_cons_of_mem y h))
            (fun h => ha' (List.mem_cons_of_mem y h)) hrest
          exact ⟨rfl, rfl⟩

theorem exists_literals (f : List UInt8) : ∃ literals, Literals f literals := by
  generalize hm : f.length = m
  induction m using Nat.strong_induction_on generalizing f with
  | _ m ih =>
      rcases Classical.em (123 ∈ f) with hopen | hnone
      · obtain ⟨before, r, rfl, hbefore⟩ := List.eq_append_cons_of_mem hopen
        rcases Classical.em (125 ∈ r) with hclose | hnone
        · obtain ⟨inside, f, rfl, hinside⟩ := List.eq_append_cons_of_mem hclose
          have hlt : f.length < m := by
            simp only [List.length_append, List.length_cons] at hm
            omega
          obtain ⟨literals, h⟩ := ih f.length hlt f rfl
          exact ⟨_, .cons hbefore hinside h⟩
        · exact ⟨_, .last fun _ _ _ heq => hnone (mem_behind_first hbefore heq
            (List.mem_append_right _ List.mem_cons_self))⟩
      · exact ⟨[f], .last fun _ _ _ heq => hnone (heq ▸ List.mem_append_right _
          List.mem_cons_self)⟩

theorem Literals.unique (h : Literals f literals) (h' : Literals f literals') :
    literals = literals' := by
  induction h generalizing literals' with
  | last hnone =>
      cases h' with
      | last => rfl
      | cons => exact absurd rfl (hnone _ _ _)
  | @cons before inside f literals hbefore hinside _ ih =>
      generalize hg : before ++ 123 :: (inside ++ 125 :: f) = g at h'
      cases h' with
      | last hnone => exact absurd hg.symm (hnone _ _ _)
      | cons hbefore' hinside' h' =>
          obtain ⟨rfl, hrest⟩ := first_unique hbefore hbefore' hg
          obtain ⟨-, rfl⟩ := first_unique hinside hinside' hrest
          rw [ih h']

/-- A format string is taken apart in one way. -/
theorem existsUnique_literals (f : List UInt8) : ∃! literals, Literals f literals := by
  obtain ⟨literals, h⟩ := exists_literals f
  exact ⟨literals, h, fun literals' h' => h'.unique h⟩

theorem Literals.ne_nil (h : Literals f literals) : literals ≠ [] := by
  cases h <;> exact List.cons_ne_nil _ _

end Literals

section Scan

variable {arg : Arg} {args : List Arg} {others : List UInt8 → List UInt8 → List UInt8}
  {str f inside before : List UInt8}

theorem appendToString_eq (str : List UInt8) (arg : Arg) :
    appendToString str arg = str ++ appendToString [] arg := by
  cases arg with
  | int T n =>
      rw [appendToString, appendToString]
      split_ifs <;> rfl
  | char ch => rfl
  | text s => rfl

theorem cString_of_not_mem (hf : 0 ∉ f) : cString f = f := by
  rw [cString, List.takeWhile_eq_self_iff]
  exact fun c hc => decide_eq_true fun heq => hf (heq ▸ hc)

theorem not_mem_cString (f : List UInt8) : 0 ∉ cString f := by
  intro hmem
  have := List.mem_takeWhile_imp hmem
  exact absurd rfl (of_decide_eq_true this)

theorem cString_cons (c : UInt8) (f : List UInt8) :
    cString (c :: f) = if c = 0 then [] else c :: cString f := by
  rw [cString, List.takeWhile_cons]
  split_ifs with htake hnul hnul
  · exact absurd hnul (of_decide_eq_true htake)
  · rfl
  · rfl
  · exact absurd (decide_eq_true hnul) htake

theorem closing_cString (f : List UInt8) : closing (cString f) = (closing f).map cString := by
  induction f with
  | nil => rfl
  | cons c f ih =>
      rw [cString_cons, closing]
      split_ifs with hnul hclose
      · rfl
      · rw [closing, if_neg hnul, if_pos hclose]
        exact ih
      · rw [closing, if_neg hnul, if_neg hclose]
        rfl

theorem scan_cString (hothers : ∀ str f, others str (cString f) = others str f)
    (str f : List UInt8) : scan arg others str (cString f) = scan arg others str f := by
  induction f generalizing str with
  | nil => rfl
  | cons c f ih =>
      rw [cString_cons, scan]
      split_ifs with hnul hopen
      · rfl
      · rw [scan, if_neg hnul, if_pos hopen]
        exact ih _
      · rw [scan, if_neg hnul, if_neg hopen, closing_cString]
        cases closing f with
        | none => exact ih _
        | some f' => exact hothers _ f'

theorem formatAndAppend_cString (args : List Arg) (str f : List UInt8) :
    formatAndAppend args str (cString f) = formatAndAppend args str f := by
  induction args generalizing str f with
  | nil => rw [formatAndAppend, cString_of_not_mem (not_mem_cString f), formatAndAppend]
  | cons arg args ih => exact scan_cString (fun str f => ih str f) str f

theorem closing_append (hinside : 125 ∉ inside) (hnul : 0 ∉ inside) (f : List UInt8) :
    closing (inside ++ 125 :: f) = some f := by
  induction inside with
  | nil => rfl
  | cons c inside ih =>
      rw [List.mem_cons, not_or] at hinside hnul
      rw [List.cons_append, closing, if_neg (Ne.symm hnul.1), if_pos (Ne.symm hinside.1)]
      exact ih hinside.2 hnul.2

theorem scan_append (hbefore : 123 ∉ before) (hinside : 125 ∉ inside)
    (hnul : 0 ∉ before ++ 123 :: (inside ++ 125 :: f)) (str : List UInt8) :
    scan arg others str (before ++ 123 :: (inside ++ 125 :: f)) =
      others (str ++ (before ++ appendToString [] arg)) f := by
  induction before generalizing str with
  | nil =>
      have hnul' : 0 ∉ inside := fun hmem =>
        hnul (List.mem_cons_of_mem 123 (List.mem_append_left _ hmem))
      rw [List.nil_append, scan, closing_append hinside hnul', if_neg (by decide),
        if_neg (by decide), List.nil_append, appendToString_eq]
  | cons c before ih =>
      rw [List.cons_append, List.mem_cons, not_or] at hnul
      rw [List.mem_cons, not_or] at hbefore
      rw [List.cons_append, scan, if_neg (Ne.symm hnul.1), if_pos (Ne.symm hbefore.1),
        ih hbefore.2 hnul.2, List.append_assoc, List.singleton_append]
      rfl

/-- With as many arguments as placeholders, each is put in the place of its own. -/
theorem formatAndAppend_eq_weave {literals : List (List UInt8)} (h : Literals f literals)
    (hnul : 0 ∉ f) (hlength : literals.length = args.length + 1) (str : List UInt8) :
    formatAndAppend args str f = str ++ weave literals (args.map (appendToString [])) := by
  induction h generalizing args str with
  | @last f hnone =>
      obtain rfl : args = [] := List.eq_nil_of_length_eq_zero (Nat.succ.inj hlength).symm
      rw [formatAndAppend, cString_of_not_mem hnul]
      rfl
  | @cons before inside f literals hbefore hinside h ih =>
      cases args with
      | nil => exact absurd (List.eq_nil_of_length_eq_zero (Nat.succ.inj hlength)) h.ne_nil
      | cons arg args =>
          have hnul' : 0 ∉ f := fun hmem => hnul (List.mem_append_right _ (List.mem_cons_of_mem _
            (List.mem_append_right _ (List.mem_cons_of_mem _ hmem))))
          rw [formatAndAppend, scan_append hbefore hinside hnul,
            ih hnul' (Nat.succ.inj hlength), List.map_cons, weave, List.append_assoc,
            List.append_assoc]

end Scan

section Texts

variable {T : IntType} {n : T.Value} {arg : Arg}

theorem IntType.Value.lt_two_pow (n : T.Value) : n.val < 2 ^ 64 := by
  refine n.le_max.trans_lt ?_
  cases T <;> decide

theorem snprintfU64_eq (arg : UInt64) : snprintfU64 (24 - 1) arg = decimal arg.toNat := by
  refine List.take_of_length_le (length_decimal_le (by decide) ?_)
  exact arg.toNat_lt.trans (by decide)

theorem appendToString_int (n : T.Value) :
    ∃ m, appendToString [] (.int T n) = decimal m ∧ (0 ≤ n.val → m = n.val.toNat) := by
  have hlt := n.lt_two_pow
  rw [appendToString]
  split_ifs with hunsigned
  · refine ⟨_, snprintfU64_eq _, fun hn => ?_⟩
    rw [UInt64.toNat_ofNat', Nat.mod_eq_of_lt (by omega)]
  · refine ⟨_, snprintfU64_eq _, fun hn => ?_⟩
    obtain ⟨m, hm⟩ := Int.eq_ofNat_of_zero_le hn
    rw [hm] at hlt ⊢
    rw [Int64.ofInt_eq_ofNat, Int64.toUInt64_ofNat', UInt64.toNat_ofNat',
      Nat.mod_eq_of_lt (by omega), Int.toNat_natCast]

theorem plainText_int (hn : 0 ≤ n.val) : (Arg.int T n).plainText = decimal n.val.toNat := by
  rw [Arg.plainText, decimalInt, if_neg (by omega)]
  congr 1
  omega

theorem appendToString_of_not_negative (h : ¬ arg.Negative) :
    appendToString [] arg = arg.plainText := by
  cases arg with
  | int T n =>
      have hn : 0 ≤ n.val := Int.not_lt.mp h
      obtain ⟨m, htext, hm⟩ := appendToString_int n
      rw [htext, hm hn, plainText_int hn]
  | char ch => rfl
  | text s => rfl

theorem append_ne_of_negative (h : arg.Negative) (s s' : List UInt8) :
    appendToString [] arg ++ s ≠ arg.plainText ++ s' := by
  cases arg with
  | int T n =>
      have hn : n.val < 0 := h
      obtain ⟨m, htext, -⟩ := appendToString_int n
      obtain ⟨c, ds, hds⟩ := List.exists_cons_of_ne_nil (decimal_ne_nil m)
      have hc : isDigit c = true := isDigit_of_mem (hds ▸ List.mem_cons_self)
      rw [htext, hds, Arg.plainText, decimalInt, if_pos hn]
      intro heq
      obtain rfl := (List.cons.inj heq).1
      cases hc
  | char ch => exact h.elim
  | text s => exact h.elim

theorem weave_eq_iff {literals : List (List UInt8)} {args : List Arg}
    (hlength : literals.length = args.length + 1) :
    weave literals (args.map (appendToString [])) = weave literals (args.map Arg.plainText) ↔
      ∀ arg ∈ args, ¬ arg.Negative := by
  induction args generalizing literals with
  | nil => exact iff_of_true rfl fun arg harg => absurd harg List.not_mem_nil
  | cons arg args ih =>
      obtain ⟨literal, literals, rfl⟩ := List.exists_cons_of_length_eq_add_one hlength
      rw [List.map_cons, List.map_cons, weave, weave, List.append_cancel_left_eq,
        List.forall_mem_cons]
      rcases Classical.em arg.Negative with hneg | hnot
      · exact iff_of_false (append_ne_of_negative hneg _ _) fun h => h.1 hneg
      · rw [appendToString_of_not_negative hnot, List.append_cancel_left_eq,
          ih (Nat.succ.inj hlength)]
        exact (and_iff_right hnot).symm

end Texts

end CasualGame.Componet
