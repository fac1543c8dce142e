import CasualGame.Componet.Format
import CasualGame.Lib.Splitting
import CasualGame.Lib.While

namespace CasualGame.Componet

open Lib.Decimal Lib.Splitting Lib.While

/-! Strings are lists of bytes. -/

section Code

/-- `str.find(delimiter, pos)` -/
def findFrom (str delimiter : List UInt8) (pos : Nat) : Option Nat :=
  (List.range' pos (str.length + 1 - pos)).find? fun i => delimiter.isPrefixOf (str.drop i)

/-- `str.substr(pos, count)` -/
def substr (str : List UInt8) (pos count : Nat) : List UInt8 := (str.drop pos).take count

/-- One turn of the loop in `splitString`, with `subBegin` and the strings found so far. -/
def splitTurn (str delimiter : List UInt8) (_ : Unit) (s : Nat × List (List UInt8)) :
    ForInStep (Nat × List (List UInt8)) :=
  let (subBegin, result) := s
  match findFrom str delimiter subBegin with
  | none =>
      .done (subBegin,
        if subBegin ≠ str.length then result ++ [substr str subBegin (str.length - subBegin)]
        else result)
  | some subEnd =>
      .yield (subEnd + delimiter.length,
        if subBegin ≠ subEnd then result ++ [substr str subBegin (subEnd - subBegin)]
        else result)

/-- The loop in so many turns at the most. -/
def splitLoop (str delimiter : List UInt8) (turns : Nat) : Option (List (List UInt8)) :=
  (whileLoop (splitTurn str delimiter) (fun _ => ()) turns (0, [])).map Prod.snd

/-- `splitString`, which has as many turns as it can need. -/
def splitString (str delimiter : List UInt8) : List (List UInt8) :=
  (splitLoop str delimiter (str.length + 1)).getD []

def toString (arg : Arg) : List UInt8 := format [123, 125] [arg]

/-- White space in the locale of C. -/
def isSpace (c : UInt8) : Bool := c == 32 || (9 ≤ c && c ≤ 13)

/-- The number that is taken over when the digits have this value, behind a `-` or not. -/
def IntType.store (T : IntType) (negative : Bool) (v : Nat) : Int :=
  match T with
  | .bool => if v = 0 then 0 else 1
  | .int16 | .int32 | .int64 =>
      if negative then Max.max T.min (-v) else Min.min T.max v
  | .uint16 | .uint32 | .uint64 =>
      if T.max < v then T.max else if negative then (-v) % (T.max + 1) else v

/-- `std::stringstream(str) >> ret` with `T ret = T()` -/
def extract (T : IntType) (str : List UInt8) : Int :=
  let str := str.dropWhile isSpace
  let negative := str.head? == some 45
  let str := if str.head? == some 45 || str.head? == some 43 then str.tail else str
  let digits := str.takeWhile isDigit
  if digits = [] then 0 else T.store negative (valueOf digits)

/-- `fromString<T>(str)` for a type that is not a class. -/
def fromString (T : IntType) (str : List UInt8) : Int := extract T str

end Code

section Find

variable {str delimiter : List UInt8} {pos i : Nat}

theorem findFrom_eq_none (h : findFrom str delimiter pos = none) (hd : delimiter ≠ []) :
    ¬ delimiter <:+: str.drop pos := by
  rintro ⟨before, after, heq⟩
  have hdrop : str.drop (pos + before.length) = delimiter ++ after := by
    rw [← List.drop_drop, ← heq, List.append_assoc, List.drop_left]
  have hlength := congrArg List.length heq
  simp only [List.length_append, List.length_drop] at hlength
  have hpos := List.length_pos_of_ne_nil hd
  have hnot := List.find?_eq_none.mp h (pos + before.length)
    (List.mem_range'_1.mpr (by omega))
  rw [hdrop] at hnot
  exact hnot (List.isPrefixOf_iff_prefix.mpr (List.prefix_append ..))

theorem findFrom_eq_some (h : findFrom str delimiter pos = some i) :
    pos ≤ i ∧ delimiter <+: str.drop i ∧ ∀ j, pos ≤ j → j < i → ¬ delimiter <+: str.drop j := by
  obtain ⟨hfound, hmem, hfirst⟩ := List.find?_range'_eq_some.mp h
  refine ⟨(List.mem_range'_1.mp hmem).1, List.isPrefixOf_iff_prefix.mp hfound, fun j hj hji => ?_⟩
  have hnot := hfirst j hj hji
  rw [Bool.not_eq_true', Bool.eq_false_iff] at hnot
  exact fun hprefix => hnot (List.isPrefixOf_iff_prefix.mpr hprefix)

end Find

section Loop

variable {str delimiter : List UInt8} {pos : Nat}

theorem append_unless_empty {n : Nat} {piece : List UInt8} (h : pos = n ↔ piece = [])
    (result : List (List UInt8)) :
    (if pos ≠ n then result ++ [piece] else result) =
      result ++ [piece].filter fun piece => !piece.isEmpty := by
  rcases Classical.em (pos = n) with heq | hne
  · rw [if_neg (not_not.mpr heq), h.mp heq]
    exact (List.append_nil result).symm
  · rw [if_pos hne, List.filter_cons_of_pos]
    · rfl
    · rw [Bool.not_eq_true', List.isEmpty_eq_false_iff]
      exact fun heq => hne (h.mpr heq)

theorem whileLoop_splitTurn (hd : delimiter ≠ []) (hpos : pos ≤ str.length)
    (result : List (List UInt8)) :
    ∃ last pieces, Cut delimiter (str.drop pos) pieces ∧ ∀ turns > str.length - pos,
      whileLoop (splitTurn str delimiter) (fun _ => ()) turns (pos, result) =
        some (last, result ++ pieces.filter fun piece => !piece.isEmpty) := by
  generalize hm : str.length - pos = m
  induction m using Nat.strong_induction_on generalizing pos result with
  | _ m ih =>
      cases hfind : findFrom str delimiter pos with
      | none =>
          refine ⟨pos, [str.drop pos], .last (findFrom_eq_none hfind hd), fun turns hturns => ?_⟩
          have hempty : pos = str.length ↔ str.drop pos = [] := by
            rw [List.drop_eq_nil_iff]
            omega
          obtain ⟨turns, rfl⟩ := Nat.exists_eq_add_of_lt hturns
          rw [whileLoop, splitTurn, hfind]
          dsimp only
          rw [substr, List.take_of_length_le (List.length_drop ..).le,
            append_unless_empty hempty]
      | some subEnd =>
          obtain ⟨hle, ⟨rest, hrest⟩, hfirst⟩ := findFrom_eq_some hfind
          have hlength := congrArg List.length hrest
          rw [List.length_append, List.length_drop] at hlength
          have hdpos := List.length_pos_of_ne_nil hd
          have hpiece : (substr str pos (subEnd - pos)).length = subEnd - pos := by
            rw [substr, List.length_take, List.length_drop]
            omega
          have hrest' : str.drop (subEnd + delimiter.length) = rest := by
            rw [← List.drop_drop, ← hrest, List.drop_left]
          have hcut : str.drop pos = substr str pos (subEnd - pos) ++ delimiter ++ rest := by
            rw [List.append_assoc, hrest, substr]
            conv_lhs => rw [← List.take_append_drop (subEnd - pos) (str.drop pos)]
            rw [List.drop_drop, Nat.add_sub_cancel' hle]
          have hnext : subEnd + delimiter.length ≤ str.length := by omega
          obtain ⟨last, pieces, hpieces, hloop⟩ := ih (str.length - (subEnd + delimiter.length))
            (by omega) hnext
            (result ++ [substr str pos (subEnd - pos)].filter fun piece => !piece.isEmpty) rfl
          refine ⟨last, substr str pos (subEnd - pos) :: pieces, ?_, fun turns hturns => ?_⟩
          · rw [hcut]
            refine .cons (fun i hi => ?_) (hrest' ▸ hpieces)
            rw [← hcut, List.drop_drop]
            exact hfirst (pos + i) (by omega) (by omega)
          · have hempty : pos = subEnd ↔ substr str pos (subEnd - pos) = [] := by
              rw [← List.length_eq_zero_iff, hpiece]
              omega
            obtain ⟨turns, rfl⟩ := Nat.exists_eq_add_of_lt hturns
            rw [whileLoop, splitTurn, hfind]
            dsimp only
            rw [append_unless_empty hempty, hloop _ (by omega), List.append_assoc,
              ← List.filter_append]
            rfl

end Loop

section Split

variable {str delimiter : List UInt8} {pieces : List (List UInt8)}

theorem splitString_eq (hd : delimiter ≠ []) (h : Cut delimiter str pieces) :
    splitString str delimiter = pieces.filter fun piece => !piece.isEmpty := by
  obtain ⟨last, pieces', hcut, hloop⟩ := whileLoop_splitTurn hd (Nat.zero_le str.length) []
  rw [splitString, splitLoop, hloop _ (by omega), hcut.unique h]
  rfl

/-- There is one way to cut the string, and the loop ends with the pieces of it that are not
empty. No piece contains the delimiter, and with it between them they are the string. -/
def SplitsExactly (str delimiter : List UInt8) : Prop :=
  ∃ pieces, Cut delimiter str pieces ∧ (∀ pieces', Cut delimiter str pieces' → pieces' = pieces) ∧
    (∃ last, Ends (splitTurn str delimiter) (fun _ => ()) (0, [])
      (last, pieces.filter fun piece => !piece.isEmpty)) ∧
    splitString str delimiter = pieces.filter (fun piece => !piece.isEmpty) ∧
    (∀ piece ∈ pieces, ¬ delimiter <:+: piece) ∧ delimiter.intercalate pieces = str

theorem splitsExactly (str delimiter : List UInt8) (hd : delimiter ≠ []) :
    SplitsExactly str delimiter := by
  obtain ⟨last, pieces, hcut, hloop⟩ := whileLoop_splitTurn hd (Nat.zero_le str.length) []
  exact ⟨pieces, hcut, fun pieces' hcut' => hcut'.unique hcut,
    ⟨last, str.length + 1, fun turns hturns => hloop turns (by omega)⟩,
    splitString_eq hd hcut, hcut.not_infix hd, hcut.intercalate_eq⟩

/-- The delimiter `"aa"` overlaps itself. -/
theorem splitsExactly_overlapping :
    splitString [97, 97, 97, 98, 97] [97, 97] = [[97, 98, 97]] ∧
      SplitsExactly [97, 97, 97, 98, 97] [97, 97] :=
  ⟨by decide +kernel, splitsExactly _ _ (by decide)⟩

end Split

end CasualGame.Componet
