import Mathlib.Algebra.Order.Group.Unbundled.Int
import Mathlib.Data.List.Basic

/-!
The encoding of texts in URLs, in which a blank is a plus sign and most other signs are
written as two hexadecimal digits.
-/

namespace CasualGame.Http

/-- A length as an `int`. -/
def asInt (size : Nat) : Int := (size : Int).bmod 4294967296

namespace UrlCode

section Code

/-- `"0123456789ABCDEF"` -/
def hex : List UInt8 := [48, 49, 50, 51, 52, 53, 54, 55, 56, 57, 65, 66, 67, 68, 69, 70]

def isupper (c : UInt8) : Bool := 65 ≤ c && c ≤ 90

def isxdigit (c : UInt8) : Bool :=
  48 ≤ c && c ≤ 57 || 65 ≤ c && c ≤ 70 || 97 ≤ c && c ≤ 102

/-- What one digit is worth. -/
def digit (c : UInt8) : UInt8 :=
  let c := if isupper c then c + 32 else c
  if 48 ≤ c && c ≤ 57 then c - 48 else c - 97 + 10

/-- Of the `int` that is returned, only the lowest byte is made use of. -/
def phpHtoi (c c' : UInt8) : UInt8 := digit c * 16 + digit c'

def urlEncodeByte (c : UInt8) : List UInt8 :=
  if c = 32 then [43]
  else if c < 48 && c ≠ 45 && c ≠ 46 || c < 65 && 57 < c || 90 < c && c < 97 && c ≠ 95 ||
      122 < c then
    [37, hex.getD (c >>> 4).toNat 0, hex.getD (c &&& 15).toNat 0]
  else [c]

def urlEncode (src : List UInt8) : List UInt8 := src.flatMap urlEncodeByte

/-- `len--`, which goes round from the least `int` to the greatest. -/
def countDown (len : Int) : Int := if len = -2147483648 then 2147483647 else len - 1

/-- The loop of `urlDecode`, with `len` before it is counted down. -/
def decodeFrom : List UInt8 → Int → Option (List UInt8)
  | [], len => if len = 0 then some [] else none
  | c :: data, len =>
      if len = 0 then some []
      else if c = 43 then (decodeFrom data (countDown len)).map (32 :: ·)
      else
        match data with
        | c' :: c'' :: rest =>
            if c = 37 && 2 ≤ countDown len && isxdigit c' && isxdigit c'' then
              (decodeFrom rest (countDown len - 2)).map (phpHtoi c' c'' :: ·)
            else (decodeFrom (c' :: c'' :: rest) (countDown len)).map (c :: ·)
        -- The text ends with a zero, which is no digit.
        | data => (decodeFrom data (countDown len)).map (c :: ·)

def urlDecode (src : List UInt8) : Option (List UInt8) := decodeFrom src (asInt src.length)

end Code

section Statement

/-- What is written as it is: letters, digits and three other signs. -/
def isSafe (c : UInt8) : Bool :=
  48 ≤ c && c ≤ 57 || 65 ≤ c && c ≤ 90 || 97 ≤ c && c ≤ 122 || c = 45 || c = 46 || c = 95

/-- A text of such signs, of plus signs, and of escapes. -/
inductive UrlText : List UInt8 → Prop
  | nil : UrlText []
  | safe {c : UInt8} {text : List UInt8} (hsafe : isSafe c = true) (h : UrlText text) :
      UrlText (c :: text)
  | plus {text : List UInt8} (h : UrlText text) : UrlText (43 :: text)
  | escape {c c' : UInt8} {text : List UInt8} (hc : isxdigit c = true)
      (hc' : isxdigit c' = true) (h : UrlText text) : UrlText (37 :: c :: c' :: text)

def RoundTrips (src : List UInt8) : Prop :=
  urlDecode (urlEncode src) = some src ∧ UrlText (urlEncode src)

/-- What is written as an escape. -/
def isEscaped (c : UInt8) : Bool := !isSafe c && c ≠ 32

/-- How long a text is once it is encoded: an escape has two bytes more. -/
def encodedSize (src : List UInt8) : Nat := src.length + 2 * src.countP isEscaped

/-- From every byte that is written as an escape there are at most `2 ^ 31` bytes to the end,
and fewer than `2 ^ 32` in all. -/
def Countable (src : List UInt8) : Prop :=
  encodedSize src < 4294967296 ∧ ∀ c rest, c :: rest <:+ src → isEscaped c = true →
    encodedSize (c :: rest) ≤ 2147483648

end Statement

section Bytes

/-- How a byte is written. -/
inductive Written : UInt8 → List UInt8 → Prop
  | blank : Written 32 [43]
  | escape (c c' : UInt8) (hc : isxdigit c = true) (hc' : isxdigit c' = true)
      (hescaped : isEscaped (phpHtoi c c') = true) : Written (phpHtoi c c') [37, c, c']
  | safe (c : UInt8) (hsafe : isSafe c = true) : Written c [c]

theorem hex_digit {n : Nat} (h : n < 16) :
    isxdigit (hex.getD n 0) = true ∧ digit (hex.getD n 0) = UInt8.ofNat n := by
  have hall : ∀ i : Fin 16,
      isxdigit (hex.getD i 0) = true ∧ digit (hex.getD i 0) = UInt8.ofNat i := by decide
  exact hall ⟨n, h⟩

theorem toNat_low (c : UInt8) : (c &&& 15).toNat = c.toNat % 16 :=
  Nat.and_two_pow_sub_one_eq_mod c.toNat 4

theorem toNat_high (c : UInt8) : (c >>> 4).toNat = c.toNat / 16 :=
  Nat.shiftRight_eq_div_pow c.toNat 4

theorem phpHtoi_hex (c : UInt8) :
    phpHtoi (hex.getD (c >>> 4).toNat 0) (hex.getD (c &&& 15).toNat 0) = c := by
  have hc : c.toNat < 256 := c.toNat_lt
  rw [phpHtoi, toNat_low, toNat_high, (hex_digit (by omega)).2, (hex_digit (by omega)).2]
  apply UInt8.toNat_inj.mp
  rw [UInt8.toNat_add, UInt8.toNat_mul, UInt8.toNat_ofNat', UInt8.toNat_ofNat']
  change (c.toNat / 16 % 256 * 16 % 256 + c.toNat % 16 % 256) % 256 = c.toNat
  omega

theorem isSafe_iff_not {c : UInt8} : isSafe c = true ↔
    ¬ (c < 48 && c ≠ 45 && c ≠ 46 || c < 65 && 57 < c || 90 < c && c < 97 && c ≠ 95 ||
      122 < c) = true := by
  simp only [isSafe, Bool.or_eq_true, Bool.and_eq_true, decide_eq_true_eq, ne_eq,
    UInt8.lt_iff_toNat_lt, UInt8.le_iff_toNat_le, ← UInt8.toNat_inj, UInt8.reduceToNat]
  omega

theorem written (c : UInt8) : Written c (urlEncodeByte c) := by
  rw [urlEncodeByte]
  split_ifs with hblank hescape
  · rw [hblank]
    exact .blank
  · have hc : c.toNat < 256 := c.toNat_lt
    have hhigh := (hex_digit (n := (c >>> 4).toNat) (by rw [toNat_high]; omega)).1
    have hlow := (hex_digit (n := (c &&& 15).toNat) (by rw [toNat_low]; omega)).1
    have hescaped : isEscaped c = true := by
      have hsafe : isSafe c = false := by
        rw [Bool.eq_false_iff, ne_eq, isSafe_iff_not, not_not]
        exact hescape
      rw [isEscaped, hsafe, decide_eq_true hblank]
      rfl
    have hwritten := Written.escape _ _ hhigh hlow (by rwa [phpHtoi_hex])
    rwa [phpHtoi_hex] at hwritten
  · exact .safe c (isSafe_iff_not.mpr hescape)

variable {c c' : UInt8} {bytes data src text : List UInt8} {n : Nat}

theorem isEscaped_of_isSafe (h : isSafe c = true) : isEscaped c = false := by
  rw [isEscaped, h]
  rfl

theorem Written.length_eq (h : Written c bytes) :
    bytes.length = if isEscaped c then 3 else 1 := by
  cases h with
  | blank => rfl
  | escape c c' hc hc' hescaped => rw [if_pos hescaped, List.length_cons, List.length_cons,
      List.length_singleton]
  | safe c hsafe =>
      rw [isEscaped_of_isSafe hsafe]
      rfl

theorem UrlText.append (h : UrlText text) (h' : UrlText data) : UrlText (text ++ data) := by
  induction h with
  | nil => exact h'
  | safe hsafe _ ih => exact .safe hsafe ih
  | plus _ ih => exact .plus ih
  | escape hc hc' _ ih => exact .escape hc hc' ih

theorem Written.urlText (h : Written c bytes) : UrlText bytes := by
  cases h with
  | blank => exact .plus .nil
  | escape c c' hc hc' => exact .escape hc hc' .nil
  | safe c hsafe => exact .safe hsafe .nil

end Bytes

section Counting

variable {n : Nat}

theorem asInt_of_lt {size : Nat} (h : size < 2147483648) : asInt size = size :=
  Int.bmod_eq_of_le (by omega) (by omega)

theorem asInt_eq (n : Nat) : asInt n =
    if (n : Int) % 4294967296 < 2147483648 then (n : Int) % 4294967296
    else (n : Int) % 4294967296 - 4294967296 := Int.bmod_def (n : Int) 4294967296

theorem asInt_of_ge {size : Nat} (h : 2147483648 ≤ size) :
    asInt size < 0 ∨ 0 ≤ asInt size ∧ asInt size < 2147483648 ∧
      asInt size + 4294967296 ≤ size := by
  have hdef := asInt_eq size
  split_ifs at hdef
  · exact .inr ⟨by omega, by omega, by omega⟩
  · exact .inl (by omega)

theorem asInt_mod (n : Nat) : asInt (n % 4294967296) = asInt n := by
  rw [asInt_eq, asInt_eq, Int.natCast_mod]
  exact congrArg (fun m => if m < 2147483648 then m else m - 4294967296)
    (Int.emod_emod_of_dvd _ (Int.dvd_refl _))

theorem countDown_asInt (n : Nat) : countDown (asInt (n + 1)) = asInt n := by
  have hbefore := asInt_eq (n + 1)
  have hafter := asInt_eq n
  rw [countDown]
  split_ifs at * <;> omega

theorem asInt_ne_zero (h : n + 1 < 4294967296) : asInt (n + 1) ≠ 0 := by
  have hdef := asInt_eq (n + 1)
  split_ifs at hdef <;> omega

theorem two_le_asInt (h : n < 4294967296) : 2 ≤ asInt n ↔ 2 ≤ n ∧ n < 2147483648 := by
  have hdef := asInt_eq n
  split_ifs at hdef <;> omega

end Counting

section Reading

variable {c c' : UInt8} {bytes data : List UInt8} {n : Nat}

theorem decodeFrom_zero (data : List UInt8) : decodeFrom data 0 = some [] := by
  rcases data with _ | ⟨c, _ | ⟨c', _ | ⟨c'', data⟩⟩⟩
  all_goals rw [decodeFrom, if_pos rfl]
  all_goals simp

theorem decodeFrom_plus (data : List UInt8) (h : n + 1 < 4294967296) :
    decodeFrom (43 :: data) (asInt (n + 1)) = (decodeFrom data (asInt n)).map (32 :: ·) := by
  have hne := asInt_ne_zero h
  have hnext := countDown_asInt n
  rcases data with _ | ⟨c', _ | ⟨c'', data⟩⟩
  all_goals simp only [decodeFrom, hne, hnext, if_false, if_true]

theorem decodeFrom_literal (hplus : c ≠ 43) (h : n + 1 < 4294967296)
    (hplain : c ≠ 37 ∨ ¬ (2 ≤ n ∧ n < 2147483648)) :
    decodeFrom (c :: data) (asInt (n + 1)) = (decodeFrom data (asInt n)).map (c :: ·) := by
  have hne := asInt_ne_zero h
  have hnext := countDown_asInt n
  have hshort : (decide (c = 37) && decide (2 ≤ asInt n)) = false := by
    rw [Bool.and_eq_false_iff, decide_eq_false_iff_not, decide_eq_false_iff_not,
      two_le_asInt (by omega)]
    exact hplain
  rcases data with _ | ⟨c', _ | ⟨c'', data⟩⟩
  all_goals simp only [decodeFrom, hne, hnext, hplus, hshort, if_false, Bool.false_and,
    Bool.false_eq_true]

theorem decodeFrom_escape (hc : isxdigit c = true) (hc' : isxdigit c' = true)
    (h : n + 3 ≤ 2147483648) :
    decodeFrom (37 :: c :: c' :: data) (asInt (n + 3)) =
      (decodeFrom data (asInt n)).map (phpHtoi c c' :: ·) := by
  have hne : asInt (n + 3) ≠ 0 := asInt_ne_zero (by omega)
  have hnext : countDown (asInt (n + 3)) = asInt (n + 2) := countDown_asInt (n + 2)
  have htwo : 2 ≤ asInt (n + 2) := (two_le_asInt (by omega)).mpr (by omega)
  have hrest : asInt (n + 2) - 2 = asInt n := by
    rw [asInt_of_lt (by omega), asInt_of_lt (by omega)]
    omega
  rw [decodeFrom, if_neg hne, if_neg (by decide), hnext, if_pos]
  · rw [hrest]
  · simp only [htwo, hc, hc', decide_true, Bool.and_self]

theorem Written.decodeFrom (h : Written c bytes) (hlt : n + bytes.length < 4294967296)
    (hescaped : isEscaped c = true → n + bytes.length ≤ 2147483648) :
    decodeFrom (bytes ++ data) (asInt (n + bytes.length)) =
      (UrlCode.decodeFrom data (asInt n)).map (c :: ·) := by
  cases h with
  | blank => exact decodeFrom_plus data hlt
  | escape c c' hc hc' hescape => exact decodeFrom_escape hc hc' (hescaped hescape)
  | safe c hsafe =>
      have hplus : c ≠ 43 := by
        rintro rfl
        exact absurd hsafe (by decide)
      have hpercent : c ≠ 37 := by
        rintro rfl
        exact absurd hsafe (by decide)
      exact decodeFrom_literal hplus hlt (.inl hpercent)

end Reading

section Texts

variable {src text out : List UInt8} {n r : Nat}

theorem urlEncode_cons (c : UInt8) (src : List UInt8) :
    urlEncode (c :: src) = urlEncodeByte c ++ urlEncode src := rfl

theorem encodedSize_cons (c : UInt8) (src : List UInt8) :
    encodedSize (c :: src) = (urlEncodeByte c).length + encodedSize src := by
  rw [encodedSize, encodedSize, List.length_cons, List.countP_cons, (written c).length_eq]
  split_ifs <;> omega

theorem length_urlEncode (src : List UInt8) : (urlEncode src).length = encodedSize src := by
  induction src with
  | nil => rfl
  | cons c src ih => rw [urlEncode_cons, List.length_append, ih, encodedSize_cons]

theorem length_le_encodedSize (src : List UInt8) : src.length ≤ encodedSize src := by
  induction src with
  | nil => exact Nat.le_refl _
  | cons c src ih =>
      have hbyte := (written c).length_eq
      rw [encodedSize_cons, List.length_cons]
      split_ifs at hbyte <;> omega

theorem encodedSize_le_of_suffix (h : text <:+ src) : encodedSize text ≤ encodedSize src := by
  obtain ⟨before, rfl⟩ := h
  rw [encodedSize, encodedSize, List.length_append, List.countP_append]
  omega

theorem urlText_urlEncode (src : List UInt8) : UrlText (urlEncode src) := by
  induction src with
  | nil => exact .nil
  | cons c src ih => exact (written c).urlText.append ih

/-- What is encoded is read as it was, whatever follows it. -/
theorem decodeFrom_urlEncode (src data : List UInt8) (hlt : n + encodedSize src < 4294967296)
    (hescaped : ∀ c rest, c :: rest <:+ src → isEscaped c = true →
      n + encodedSize (c :: rest) ≤ 2147483648) :
    decodeFrom (urlEncode src ++ data) (asInt (n + encodedSize src)) =
      (decodeFrom data (asInt n)).map (src ++ ·) := by
  induction src with
  | nil => exact (congrFun Option.map_id _).symm
  | cons c src ih =>
      have hsize := encodedSize_cons c src
      have hsum : n + encodedSize (c :: src) =
          n + encodedSize src + (urlEncodeByte c).length := by omega
      have hfirst := hescaped c src List.suffix_rfl
      rw [hsum] at hlt hfirst
      have hrest := ih (by omega) fun c' rest hsuffix =>
        hescaped c' rest (hsuffix.trans (List.suffix_cons _ _))
      rw [urlEncode_cons, List.append_assoc, hsum, (written c).decodeFrom hlt hfirst, hrest,
        Option.map_map]
      rfl

theorem urlDecode_urlEncode (h : Countable src) : urlDecode (urlEncode src) = some src := by
  have hlt : 0 + encodedSize src < 4294967296 := by
    rw [Nat.zero_add]
    exact h.1
  have hread := decodeFrom_urlEncode src [] hlt fun c rest hsuffix hc => by
    rw [Nat.zero_add]
    exact h.2 c rest hsuffix hc
  rw [List.append_nil, Nat.zero_add] at hread
  have hend : decodeFrom [] (asInt 0) = some [] := decodeFrom_zero []
  rw [urlDecode, length_urlEncode, hread, hend, Option.map_some, List.append_nil]

theorem decodeFrom_digits (hr : r + 2 < 4294967296) (src : List UInt8) :
    decodeFrom (urlEncode (50 :: 53 :: src)) (asInt (r + 2)) =
      (decodeFrom (urlEncode src) (asInt r)).map (50 :: 53 :: ·) := by
  have hfirst : decodeFrom (50 :: 53 :: urlEncode src) (asInt (r + 2)) =
      (decodeFrom (53 :: urlEncode src) (asInt (r + 1))).map (50 :: ·) :=
    decodeFrom_literal (by decide) hr (.inl (by decide))
  have hsecond : decodeFrom (53 :: urlEncode src) (asInt (r + 1)) =
      (decodeFrom (urlEncode src) (asInt r)).map (53 :: ·) :=
    decodeFrom_literal (by decide) (by omega) (.inl (by decide))
  rw [hsecond, Option.map_map] at hfirst
  exact hfirst

theorem encodedSize_of_repeats (hr : r < 4294967296) (hle : r ≤ encodedSize (50 :: 53 :: text))
    (h : decodeFrom (urlEncode (50 :: 53 :: text)) (asInt r) = some text) :
    encodedSize (50 :: 53 :: text) = r + 2 := by
  have hsize : ∀ text, encodedSize (50 :: 53 :: text) = encodedSize text + 2 := fun text => by
    rw [encodedSize_cons, encodedSize_cons, ← Nat.add_assoc, Nat.add_comm]
    rfl
  induction hn : text.length using Nat.strong_induction_on generalizing text r with
  | _ n ih =>
      rcases r with _ | _ | r
      · obtain rfl : [] = text := Option.some.inj ((decodeFrom_zero _).symm.trans h)
        rfl
      · have hread : decodeFrom (50 :: urlEncode (53 :: text)) (asInt (0 + 1)) =
            (decodeFrom (urlEncode (53 :: text)) (asInt 0)).map (50 :: ·) :=
          decodeFrom_literal (by decide) (by omega) (.inl (by decide))
        have hnone : decodeFrom (urlEncode (53 :: text)) (asInt 0) = some [] := decodeFrom_zero _
        rw [hnone] at hread
        obtain rfl : [50] = text := Option.some.inj (hread.symm.trans h)
        rfl
      · rw [decodeFrom_digits hr] at h
        obtain ⟨text', hread, rfl⟩ := Option.map_eq_some_iff.mp h
        rw [hsize] at hle ⊢
        have hshort : text'.length < n := by
          rw [← hn, List.length_cons, List.length_cons]
          omega
        rw [ih _ hshort (by omega) (by omega) hread rfl]

theorem Countable.cons {c : UInt8} (h : Countable src) (hlt : encodedSize (c :: src) < 4294967296)
    (hescaped : isEscaped c = true → encodedSize (c :: src) ≤ 2147483648) :
    Countable (c :: src) := by
  refine ⟨hlt, fun c' rest hsuffix hc' => ?_⟩
  rcases List.suffix_cons_iff.mp hsuffix with heq | hsuffix
  · obtain ⟨rfl, rfl⟩ := List.cons.inj heq
    exact hescaped hc'
  · exact h.2 c' rest hsuffix hc'

theorem eq_percent_of_literal {c : UInt8} (hc : isEscaped c = true) (hr : r + 1 < 4294967296)
    (hlate : ¬ (2 ≤ r ∧ r < 2147483648))
    (h : decodeFrom (urlEncode (c :: src)) (asInt (r + 1)) = some (c :: src)) :
    c = 37 ∧ decodeFrom (urlEncode (50 :: 53 :: src)) (asInt r) = some src := by
  have hwritten := written c
  rw [urlEncode_cons] at h
  generalize hbytes : urlEncodeByte c = bytes at hwritten h
  cases hwritten with
  | blank => exact absurd hc (by decide)
  | safe c hsafe =>
      rw [isEscaped_of_isSafe hsafe] at hc
      cases hc
  | escape d d' hd hd' =>
      have hread : decodeFrom (37 :: d :: d' :: urlEncode src) (asInt (r + 1)) =
          (decodeFrom (d :: d' :: urlEncode src) (asInt r)).map (37 :: ·) :=
        decodeFrom_literal (by decide) hr (.inr hlate)
      obtain ⟨out, hout, heq⟩ := Option.map_eq_some_iff.mp (hread.symm.trans h)
      obtain ⟨hpercent, rfl⟩ := List.cons.inj heq
      rw [← hpercent] at hbytes
      obtain ⟨rfl, rfl⟩ : 50 = d ∧ 53 = d' := by
        have hcode : urlEncodeByte 37 = [37, 50, 53] := rfl
        simpa [hcode] using hbytes
      exact ⟨hpercent.symm, hout⟩

/-- A text that is read as it was is counted all the way, or it is read two bytes short. -/
theorem countable_of_decodeFrom (hr : r < 4294967296) (hle : r ≤ encodedSize src)
    (h : decodeFrom (urlEncode src) (asInt r) = some src) :
    encodedSize src = r + 2 ∨ encodedSize src = r ∧ Countable src := by
  induction src generalizing r with
  | nil =>
      obtain rfl : r = 0 := Nat.le_zero.mp hle
      exact .inr ⟨rfl, by decide, fun c rest hsuffix => absurd hsuffix (by simp)⟩
  | cons c src ih =>
      have hsize := encodedSize_cons c src
      have hbytes := (written c).length_eq
      rcases r with _ | r
      · cases (decodeFrom_zero _).symm.trans h
      by_cases hlate : isEscaped c = true ∧ ¬ (2 ≤ r ∧ r < 2147483648)
      · obtain ⟨rfl, hread⟩ := eq_percent_of_literal hlate.1 hr hlate.2 h
        have hdigits : encodedSize (37 :: src) = encodedSize (50 :: 53 :: src) + 1 := by
          rw [encodedSize_cons, encodedSize_cons, encodedSize_cons, ← Nat.add_assoc,
            Nat.add_right_comm]
          rfl
        rw [hdigits] at hle ⊢
        rw [encodedSize_of_repeats (by omega) (by omega) hread]
        exact .inl rfl
      · have hescaped : isEscaped c = true → 2 ≤ r ∧ r < 2147483648 := by
          intro hc
          by_contra hnot
          exact hlate ⟨hc, hnot⟩
        obtain ⟨n, hn, hlength⟩ : ∃ n, r + 1 = n + (urlEncodeByte c).length ∧
            (isEscaped c = true → n + (urlEncodeByte c).length ≤ 2147483648) := by
          refine ⟨r + 1 - (urlEncodeByte c).length, ?_⟩
          split_ifs at hbytes with hc
          · have := hescaped hc
            omega
          · exact ⟨by omega, fun hc' => absurd hc' hc⟩
        rw [urlEncode_cons, hn, (written c).decodeFrom (by omega) hlength] at h
        obtain ⟨out, hread, heq⟩ := Option.map_eq_some_iff.mp h
        obtain ⟨-, rfl⟩ := List.cons.inj heq
        rcases ih (by omega) (by omega) hread with hshort | ⟨hwhole, hcount⟩
        · exact .inl (by omega)
        · refine .inr ⟨by omega, hcount.cons (by omega) fun hc => ?_⟩
          have := hlength hc
          omega

theorem countable_of_roundTrips (h : RoundTrips src) : Countable src := by
  have hdecode := h.1
  rw [urlDecode, length_urlEncode, ← asInt_mod] at hdecode
  have hmod : encodedSize src % 4294967296 < 4294967296 := Nat.mod_lt _ (by decide)
  rcases countable_of_decodeFrom hmod (Nat.mod_le _ _) hdecode with hshort | ⟨-, hcount⟩
  · omega
  · exact hcount

/-- A text comes back exactly when the bytes of its code can be counted by an `int`, from every
escape on and over all. -/
theorem roundTrips_iff (src : List UInt8) : RoundTrips src ↔ Countable src :=
  ⟨countable_of_roundTrips, fun h => ⟨urlDecode_urlEncode h, urlText_urlEncode src⟩⟩

/-- An escape before `2 ^ 31` letters. -/
theorem mark_not_roundTrips : ¬ RoundTrips (33 :: List.replicate 2147483648 97) := by
  intro h
  have hle := (countable_of_roundTrips h).2 33 _ List.suffix_rfl (by decide)
  have hletters := length_le_encodedSize (List.replicate 2147483648 97)
  have hmark : (urlEncodeByte 33).length = 3 := rfl
  rw [List.length_replicate] at hletters
  rw [encodedSize_cons, hmark] at hle
  omega

end Texts

end UrlCode

end CasualGame.Http
