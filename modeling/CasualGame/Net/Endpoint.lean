import CasualGame.Componet.IntegerTexts
import CasualGame.Lib.LittleEndian

/-!
Addresses with ports, and their texts.
-/

namespace CasualGame.Net

open Componet Lib.Decimal Lib.Splitting

section Code

/-- The address as the bytes of the union. -/
structure IpV4 where
  byte0 : UInt8
  byte1 : UInt8
  byte2 : UInt8
  byte3 : UInt8
  deriving DecidableEq

structure Endpoint where
  ip : IpV4
  port : UInt16
  deriving DecidableEq

inductive EndpointError
  | invalidEndpointStringFormat (what : List UInt8)
  deriving DecidableEq

/-- `(int)byte` -/
def intOf (byte : UInt8) : IntType.int32.Value where
  val := byte.toNat
  min_le := (by decide : IntType.int32.min ≤ 0).trans (Int.natCast_nonneg _)
  le_max := (Int.ofNat_le.mpr byte.toNat_lt.le).trans (by decide)

def portOf (port : UInt16) : IntType.uint16.Value where
  val := port.toNat
  min_le := Int.natCast_nonneg _
  le_max := Int.ofNat_le.mpr (Nat.le_of_lt_succ port.toNat_lt)

/-- An `int` that is assigned to a byte. -/
def toByte (n : Int) : UInt8 := UInt8.ofNat (n % 256).toNat

namespace IpV4

def value (ip : IpV4) : Nat :=
  Lib.LittleEndian.ofBytes [ip.byte0, ip.byte1, ip.byte2, ip.byte3]

/-- The numbers and the dots, one after the other into a stream. -/
def toString (ip : IpV4) : List UInt8 :=
  decimalInt (intOf ip.byte0).val ++ [46] ++ decimalInt (intOf ip.byte1).val ++ [46] ++
    decimalInt (intOf ip.byte2).val ++ [46] ++ decimalInt (intOf ip.byte3).val

/-- The format is `{}.{}.{}.{}`. -/
def appendToString (str : List UInt8) (ip : IpV4) : List UInt8 :=
  formatAndAppend [.int _ (intOf ip.byte0), .int _ (intOf ip.byte1), .int _ (intOf ip.byte2),
    .int _ (intOf ip.byte3)] str [123, 125, 46, 123, 125, 46, 123, 125, 46, 123, 125]

/-- All four bytes are set, whatever they have been. -/
def fromString (str : List UInt8) : IpV4 :=
  -- `items.resize(4)`
  let items := (splitString str [46] ++ List.replicate 4 []).take 4
  let byte := fun i => toByte (Componet.fromString .int32 (items.getD i []))
  ⟨byte 0, byte 1, byte 2, byte 3⟩

end IpV4

namespace Endpoint

def toString (e : Endpoint) : List UInt8 :=
  e.ip.toString ++ [58] ++ Componet.toString (.int _ (portOf e.port))

/-- The message of the exception is from `std:"{}"]`. -/
def fromString (str : List UInt8) : Except EndpointError Endpoint :=
  let strs := splitString str [58]
  if strs.length < 2 then
    .error (.invalidEndpointStringFormat
      (format [115, 116, 100, 58, 34, 123, 125, 34, 93] [.text str]))
  else
    .ok ⟨IpV4.fromString (strs.getD 0 []),
      UInt16.ofNat (Componet.fromString .uint16 (strs.getD 1 [])).toNat⟩

/-- The format is `{}:{}`; the address is an object with a `toString`. -/
def appendToString (str : List UInt8) (e : Endpoint) : List UInt8 :=
  formatAndAppend [.text e.ip.toString, .int _ (portOf e.port)] str [123, 125, 58, 123, 125]

/-- `operator==` -/
def equals (e e' : Endpoint) : Bool := e.ip.value == e'.ip.value && e.port == e'.port

end Endpoint

end Code

theorem not_mem_decimal {c : UInt8} (hc : isDigit c = false) (n : Nat) : c ∉ decimal n := by
  intro hmem
  rw [isDigit_of_mem hmem] at hc
  cases hc

theorem appendToString_int_of_nonneg {T : IntType} {n : T.Value} (str : List UInt8)
    (hn : 0 ≤ n.val) : Componet.appendToString str (.int T n) = str ++ decimalInt n.val := by
  have hnot : ¬ (Arg.int T n).Negative := Int.not_lt.mpr hn
  rw [Componet.appendToString_eq, appendToString_of_not_negative hnot]
  rfl

theorem decimalInt_natCast (n : Nat) : decimalInt (n : Int) = decimal n := by
  rw [decimalInt, if_neg (Int.not_lt.mpr (Int.natCast_nonneg n)), Int.natAbs_natCast]

namespace IpV4

variable (ip : IpV4)

theorem toString_eq : ip.toString =
    decimal ip.byte0.toNat ++ 46 :: (decimal ip.byte1.toNat ++ 46 ::
      (decimal ip.byte2.toNat ++ 46 :: decimal ip.byte3.toNat)) := by
  simp only [toString, intOf, decimalInt_natCast, List.append_assoc, List.cons_append,
    List.nil_append]

theorem not_mem_toString {c : UInt8} (hdigit : isDigit c = false) (hdot : c ≠ 46) :
    c ∉ ip.toString := by
  have hnot := fun n => not_mem_decimal hdigit n
  simp only [toString_eq, List.mem_append, List.mem_cons, hnot, hdot, or_self, not_false_iff]

theorem splitString_toString : splitString ip.toString [46] =
    [decimal ip.byte0.toNat, decimal ip.byte1.toNat, decimal ip.byte2.toNat,
      decimal ip.byte3.toNat] := by
  have hdot := fun n => not_mem_decimal (c := 46) rfl n
  have hcut := Cut.cons_of_not_mem (hdot ip.byte0.toNat) (.cons_of_not_mem (hdot ip.byte1.toNat)
    (.cons_of_not_mem (hdot ip.byte2.toNat) (.last_of_not_mem (hdot ip.byte3.toNat))))
  rw [toString_eq, splitString_eq (List.cons_ne_nil _ _) hcut, List.filter_eq_self]
  have hne : ∀ n, (!(decimal n).isEmpty) = true := by
    intro n
    rw [Bool.not_eq_true', List.isEmpty_eq_false_iff]
    exact decimal_ne_nil n
  simp only [List.mem_cons, forall_eq_or_imp, hne, List.not_mem_nil, false_imp_iff,
    implies_true, and_self]

theorem toByte_fromString (byte : UInt8) :
    toByte (Componet.fromString .int32 (decimal byte.toNat)) = byte := by
  have hlt := byte.toNat_lt
  rw [Componet.fromString, extract_decimal, store_of_le (intOf byte).le_max, toByte]
  apply UInt8.toNat_inj.mp
  rw [UInt8.toNat_ofNat']
  omega

theorem fromString_toString : fromString ip.toString = ip := by
  rw [fromString, splitString_toString]
  change IpV4.mk (toByte (Componet.fromString .int32 (decimal ip.byte0.toNat)))
    (toByte (Componet.fromString .int32 (decimal ip.byte1.toNat)))
    (toByte (Componet.fromString .int32 (decimal ip.byte2.toNat)))
    (toByte (Componet.fromString .int32 (decimal ip.byte3.toNat))) = ip
  rw [toByte_fromString, toByte_fromString, toByte_fromString, toByte_fromString]

theorem appendToString_eq (str : List UInt8) : appendToString str ip = str ++ ip.toString := by
  -- What is put for each placeholder comes behind what there is.
  have hformat : appendToString str ip =
      Componet.appendToString (Componet.appendToString (Componet.appendToString
        (Componet.appendToString str (.int _ (intOf ip.byte0)) ++ [46])
        (.int _ (intOf ip.byte1)) ++ [46]) (.int _ (intOf ip.byte2)) ++ [46])
        (.int _ (intOf ip.byte3)) ++ [] := rfl
  have hint : ∀ str byte, Componet.appendToString str (.int _ (intOf byte)) =
      str ++ decimalInt (intOf byte).val :=
    fun str byte => appendToString_int_of_nonneg str (Int.natCast_nonneg _)
  rw [hformat, hint, hint, hint, hint, toString, List.append_nil]
  simp only [List.append_assoc]

theorem value_inj {ip ip' : IpV4} (h : ip.value = ip'.value) : ip = ip' := by
  have hbytes := congrArg (Lib.LittleEndian.toBytes 4) h
  have hback := fun ip : IpV4 =>
    Lib.LittleEndian.toBytes_ofBytes [ip.byte0, ip.byte1, ip.byte2, ip.byte3]
  replace hbytes := (hback ip).symm.trans (hbytes.trans (hback ip'))
  cases ip
  cases ip'
  injection hbytes with h0 hbytes
  injection hbytes with h1 hbytes
  injection hbytes with h2 hbytes
  injection hbytes with h3
  subst h0 h1 h2 h3
  rfl

end IpV4

namespace Endpoint

variable (e : Endpoint)

theorem portText_eq : Componet.toString (.int _ (portOf e.port)) = decimal e.port.toNat := by
  rw [toString_eq, appendToString_int_of_nonneg _ (Int.natCast_nonneg _), portOf,
    decimalInt_natCast, List.nil_append]

theorem toString_eq' : e.toString = e.ip.toString ++ 58 :: decimal e.port.toNat := by
  rw [toString, portText_eq, List.append_assoc]
  rfl

theorem splitString_toString :
    splitString e.toString [58] = [e.ip.toString, decimal e.port.toNat] := by
  have hcut := Cut.cons_of_not_mem (e.ip.not_mem_toString (c := 58) rfl (by decide))
    (.last_of_not_mem (not_mem_decimal rfl e.port.toNat))
  rw [toString_eq', splitString_eq (List.cons_ne_nil _ _) hcut, List.filter_eq_self]
  simp only [List.forall_mem_cons, Bool.not_eq_true', List.isEmpty_eq_false_iff]
  refine ⟨?_, decimal_ne_nil _, List.forall_mem_nil _⟩
  rw [IpV4.toString_eq]
  exact List.append_ne_nil_of_left_ne_nil (decimal_ne_nil _) _

theorem fromString_toString : fromString e.toString = .ok e := by
  have hport : UInt16.ofNat (Componet.fromString .uint16 (decimal e.port.toNat)).toNat =
      e.port := by
    rw [Componet.fromString, extract_decimal, store_of_le (portOf e.port).le_max,
      Int.toNat_natCast, UInt16.ofNat_toNat]
  have hlength : ¬ [e.ip.toString, decimal e.port.toNat].length < 2 := Nat.lt_irrefl 2
  rw [fromString, splitString_toString, if_neg hlength]
  change Except.ok (Endpoint.mk (IpV4.fromString e.ip.toString) (UInt16.ofNat
    (Componet.fromString .uint16 (decimal e.port.toNat)).toNat)) = Except.ok e
  rw [IpV4.fromString_toString, hport]

theorem appendToString_eq (str : List UInt8) : appendToString str e = str ++ e.toString := by
  have hformat : appendToString str e =
      Componet.appendToString (str ++ e.ip.toString ++ [58]) (.int _ (portOf e.port)) ++ [] := rfl
  rw [hformat, Componet.appendToString_eq, ← Componet.toString_eq, toString, List.append_nil]
  simp only [List.append_assoc]

theorem equals_iff {e e' : Endpoint} : equals e e' = true ↔ e = e' := by
  rw [equals, Bool.and_eq_true, beq_iff_eq, beq_iff_eq]
  constructor
  · rintro ⟨hip, hport⟩
    cases e
    cases e'
    obtain rfl := IpV4.value_inj hip
    obtain rfl := hport
    rfl
  · rintro rfl
    exact ⟨rfl, rfl⟩

/-- An endpoint is read from its text, which is also what is appended for it, and another one
has another text. -/
theorem textRoundTrip :
    (∀ e : Endpoint, fromString e.toString = .ok e ∧
      (∀ str, appendToString str e = str ++ e.toString) ∧
      IpV4.fromString e.ip.toString = e.ip ∧
      ∀ str, IpV4.appendToString str e.ip = str ++ e.ip.toString) ∧
    ∀ e e' : Endpoint, equals e e' = false → e.toString ≠ e'.toString := by
  refine ⟨fun e => ⟨e.fromString_toString, e.appendToString_eq, e.ip.fromString_toString,
    e.ip.appendToString_eq⟩, fun e e' hdistinct htext => ?_⟩
  have hback := e.fromString_toString
  rw [htext, e'.fromString_toString] at hback
  rw [equals_iff.mpr (Except.ok.inj hback).symm] at hdistinct
  cases hdistinct

end Endpoint

end CasualGame.Net
