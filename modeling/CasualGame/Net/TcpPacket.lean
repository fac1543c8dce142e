import CasualGame.Lib.Framing
import CasualGame.Lib.LittleEndian

/-!
A `TcpPacket`, four bytes of length and the content, and how it is read off a stream.
-/

namespace CasualGame.Net

open Lib.LittleEndian
open Lib.Framing

/-- `sizeof(SizeType)` is `4` throughout. -/
structure TcpPacket where
  buf : List UInt8 := []
  deriving DecidableEq

namespace TcpPacket

/-- The bytes of a packet with this content. -/
def encode (content : List UInt8) : List UInt8 := toBytes 4 content.length ++ content

/-- A size that a `SizeType` cannot count makes the buffer too short for what is
written to it. -/
def setContent (content : List UInt8) : Option TcpPacket :=
  let packetSize := (4 + content.length) % 2 ^ 32
  if packetSize < 4 + content.length then none else some { buf := encode content }

variable (packet : TcpPacket)

def size : Nat := packet.buf.length % 2 ^ 32

def contentSize : Nat := if packet.size < 4 then 0 else ofBytes (packet.buf.take 4)

def content : List UInt8 := packet.buf.drop 4

def complete : Bool := 4 ≤ packet.size ∧ packet.contentSize + 4 ≤ packet.size

/-- What `parse` does to a packet that has its head. -/
def fillBody (buf : List UInt8) : Nat × TcpPacket :=
  let completeSize := (ofBytes (packet.buf.take 4) + 4) % 2 ^ 32
  let deficiencySize := (completeSize + 2 ^ 32 - packet.size) % 2 ^ 32
  let appendLen := min deficiencySize buf.length
  (appendLen, { buf := packet.buf ++ buf.take appendLen })

/-- The bytes it takes off the front of `buf`, and the packet with them. The head is
taken as a whole or not at all, so the third branch should never be needed. -/
def parse (buf : List UInt8) : Nat × TcpPacket :=
  if packet.complete then (0, packet)
  else if packet.size = 0 then
    if buf.length < 4 then (0, packet)
    else
      let readLen := min ((ofBytes (buf.take 4) + 4) % 2 ^ 32) buf.length
      (readLen, { buf := buf.take readLen })
  else if packet.size < 4 then
    if buf.length < 4 - packet.size then (0, packet)
    else
      let headerAppendLen := 4 - packet.size
      let withHead : TcpPacket := { buf := packet.buf ++ buf.take headerAppendLen }
      let (appendLen, filled) := withHead.fillBody (buf.drop headerAppendLen)
      (headerAppendLen + appendLen, filled)
  else packet.fillBody buf

def tryParse (data : List UInt8) : Option TcpPacket :=
  let packet := (TcpPacket.parse {} data).2
  if packet.complete then some packet else none

end TcpPacket

section Cutting

variable {s t r content : List UInt8}

/-- The length at the head of a stream is one that no packet can have. -/
def Oversized (s : List UInt8) : Prop := 4 ≤ s.length ∧ 2 ^ 32 ≤ ofBytes (s.take 4) + 4

instance (s : List UInt8) : Decidable (Oversized s) :=
  inferInstanceAs (Decidable (_ ∧ _))

theorem Oversized.append (h : Oversized s) (t : List UInt8) : Oversized (s ++ t) := by
  obtain ⟨hhead, hsize⟩ := h
  refine ⟨?_, by rwa [List.take_append_of_le_length hhead]⟩
  rw [List.length_append]
  omega

def cutPacket (s : List UInt8) : Option (List UInt8 × List UInt8) :=
  let n := ofBytes (s.take 4)
  if 4 ≤ s.length ∧ n + 4 < 2 ^ 32 ∧ n + 4 ≤ s.length then
    some ((s.drop 4).take n, s.drop (n + 4))
  else none

theorem take_head_encode (content t : List UInt8) :
    (TcpPacket.encode content ++ t).take 4 = toBytes 4 content.length := by
  rw [TcpPacket.encode, List.append_assoc]
  exact List.take_left' (length_toBytes 4 _)

theorem drop_head_encode (content t : List UInt8) :
    (TcpPacket.encode content ++ t).drop 4 = content ++ t := by
  rw [TcpPacket.encode, List.append_assoc]
  exact List.drop_left' (length_toBytes 4 _)

@[simp] theorem length_encode (content : List UInt8) :
    (TcpPacket.encode content).length = content.length + 4 := by
  rw [TcpPacket.encode, List.length_append, length_toBytes, Nat.add_comm]

theorem ofBytes_head_encode (content t : List UInt8) (h : content.length + 4 < 2 ^ 32) :
    ofBytes ((TcpPacket.encode content ++ t).take 4) = content.length := by
  rw [take_head_encode]
  exact ofBytes_toBytes_of_lt (by omega)

theorem cutPacket_eq_some :
    cutPacket s = some (content, r) ↔
      s = TcpPacket.encode content ++ r ∧ content.length + 4 < 2 ^ 32 := by
  constructor
  · intro h
    simp only [cutPacket] at h
    split_ifs at h with hfits
    obtain ⟨hhead, hsize, hlength⟩ := hfits
    obtain ⟨rfl, rfl⟩ := Prod.mk.inj (Option.some.inj h)
    have hcontent : ((s.drop 4).take (ofBytes (s.take 4))).length = ofBytes (s.take 4) := by
      rw [List.length_take, List.length_drop]
      omega
    have hbytes : toBytes 4 (ofBytes (s.take 4)) = s.take 4 := by
      have hfour : (s.take 4).length = 4 := by
        rw [List.length_take]
        omega
      simpa [hfour] using toBytes_ofBytes (s.take 4)
    refine ⟨?_, by rwa [hcontent]⟩
    rw [TcpPacket.encode, hcontent, hbytes, Nat.add_comm, ← List.drop_drop, List.append_assoc,
      List.take_append_drop, List.take_append_drop]
  · rintro ⟨rfl, hsize⟩
    have hn := ofBytes_head_encode content r hsize
    have hlength : (TcpPacket.encode content ++ r).length = content.length + 4 + r.length := by
      simp
    simp only [cutPacket, hn]
    rw [if_pos ⟨by omega, hsize, by omega⟩, Nat.add_comm, ← List.drop_drop, drop_head_encode]
    simp

/-- The packets of a byte stream. A length that no packet can have ends them. -/
def framing : Cutter UInt8 (List UInt8) where
  cut := cutPacket
  cut_shorter h := by
    obtain ⟨rfl, -⟩ := cutPacket_eq_some.mp h
    simp
  cut_append t h := by
    obtain ⟨rfl, hsize⟩ := cutPacket_eq_some.mp h
    exact cutPacket_eq_some.mpr ⟨by rw [List.append_assoc], hsize⟩

theorem cut_encode_append (h : content.length + 4 < 2 ^ 32) (t : List UInt8) :
    framing.cut (TcpPacket.encode content ++ t) = some (content, t) := by
  rw [framing, cutPacket_eq_some]
  exact ⟨rfl, h⟩

theorem cutPacket_eq_none :
    cutPacket s = none ↔
      s.length < 4 ∨ Oversized s ∨ (4 ≤ s.length ∧ s.length < ofBytes (s.take 4) + 4) := by
  simp only [cutPacket, ite_eq_right_iff, reduceCtorEq, imp_false, not_and, Oversized]
  constructor
  · intro h
    rcases Nat.lt_or_ge s.length 4 with hshort | hhead
    · exact Or.inl hshort
    rcases Nat.lt_or_ge (ofBytes (s.take 4) + 4) (2 ^ 32) with hsize | hover
    · exact Or.inr (Or.inr ⟨hhead, by have := h hhead hsize; omega⟩)
    · exact Or.inr (Or.inl ⟨hhead, hover⟩)
  · rintro (hshort | ⟨hhead, hover⟩ | ⟨hhead, hlength⟩) <;> omega

theorem Oversized.cut (h : Oversized s) : framing.cut s = none :=
  cutPacket_eq_none.mpr (Or.inr (Or.inl h))

theorem setContent_eq (h : content.length + 4 < 2 ^ 32) :
    TcpPacket.setContent content = some { buf := TcpPacket.encode content } := by
  rw [TcpPacket.setContent, Nat.mod_eq_of_lt (by omega), if_neg (by omega)]

end Cutting

end CasualGame.Net
