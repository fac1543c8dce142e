import Mathlib.Data.List.Induction
import CasualGame.Net.Parsing

/-!
How much of a stream the calls of `parse` on one packet consume, whatever its length field
says and however the stream comes in.
-/

namespace CasualGame.Net.ExactParsing

open Lib.LittleEndian
open TcpPacket

/-- A packet that is being received, the bytes it has left in the buffer, and how many it
has consumed so far. -/
@[ext]
structure Received where
  packet : TcpPacket := {}
  rest : List UInt8 := []
  consumed : Nat := 0

/-- What arrives is parsed together with what was left over. -/
def receive (r : Received) (chunk : List UInt8) : Received where
  packet := (r.packet.parse (r.rest ++ chunk)).2
  rest := (r.rest ++ chunk).drop (r.packet.parse (r.rest ++ chunk)).1
  consumed := r.consumed + (r.packet.parse (r.rest ++ chunk)).1

def run (chunks : List (List UInt8)) : Received := chunks.foldl receive {}

/-- The size of the packet at the front of a stream, head included, as a number. -/
def wholeSize (s : List UInt8) : Nat := ofBytes (s.take 4) + 4

/-- The head is consumed as a whole or not at all, and after it all there is up to the
end of the packet, which is complete then and no earlier. -/
structure Exact (s : List UInt8) (r : Received) : Prop where
  consumed : r.consumed = if s.length < 4 then 0 else min s.length (wholeSize s)
  complete : r.packet.complete = true ↔ 4 ≤ s.length ∧ r.consumed = wholeSize s

/-- What should have been consumed after each call is consumed then, and a call on four bytes
or more takes some of them as long as the packet is not complete. -/
structure ParsesExactly (chunks : List (List UInt8)) : Prop where
  exact : ∀ before after, before ++ after = chunks → Exact before.flatten (run before)
  progress : ∀ before chunk after, before ++ chunk :: after = chunks →
    (run before).packet.complete = false → 4 ≤ ((run before).rest ++ chunk).length →
      0 < ((run before).packet.parse ((run before).rest ++ chunk)).1

variable {s chunk : List UInt8} {chunks before after : List (List UInt8)}

/-- What should have been received of a stream. -/
def expected (s : List UInt8) : Received :=
  if s.length < 4 then { rest := s }
  else ⟨{ buf := s.take (wholeSize s) }, s.drop (wholeSize s), min s.length (wholeSize s)⟩

theorem wholeSize_append (h : 4 ≤ s.length) (chunk : List UInt8) :
    wholeSize (s ++ chunk) = wholeSize s := by
  rw [wholeSize, wholeSize, List.take_append_of_le_length h]

theorem not_oversized_iff : ¬ Oversized s ↔ (4 ≤ s.length → wholeSize s < 2 ^ 32) := by
  rw [Oversized, not_and, wholeSize]
  exact imp_congr_right fun _ => Nat.not_le

theorem complete_take_iff (hsize : wholeSize s < 2 ^ 32) :
    complete { buf := s.take (wholeSize s) } = true ↔ wholeSize s ≤ s.length := by
  have hhead : (s.take (wholeSize s)).take 4 = s.take 4 := by
    rw [List.take_take, wholeSize, Nat.min_eq_left (Nat.le_add_left ..)]
  have hfour : 4 ≤ wholeSize s := Nat.le_add_left ..
  have hlen : (s.take (wholeSize s)).length = min (wholeSize s) s.length := List.length_take
  rw [complete_iff, size_of_lt (by rw [hlen]; omega), hlen, hhead]
  change _ ∧ wholeSize s ≤ _ ↔ _
  omega

theorem expected_of_short (h : s.length < 4) : expected s = { rest := s } := if_pos h

theorem expected_of_head (h : 4 ≤ s.length) :
    expected s =
      ⟨{ buf := s.take (wholeSize s) }, s.drop (wholeSize s), min s.length (wholeSize s)⟩ :=
  if_neg (Nat.not_lt_of_ge h)

theorem expected_exact (h : ¬ Oversized s) : Exact s (expected s) := by
  rw [not_oversized_iff] at h
  rcases Nat.lt_or_ge s.length 4 with hshort | hhead
  · rw [expected_of_short hshort]
    refine ⟨(if_pos hshort).symm, iff_of_false Bool.false_ne_true ?_⟩
    rintro ⟨hhead, -⟩
    omega
  · rw [expected_of_head hhead]
    refine ⟨(if_neg (Nat.not_lt_of_ge hhead)).symm, ?_⟩
    rw [complete_take_iff (h hhead)]
    dsimp only
    omega

theorem receive_short (h : s.length < 4) :
    receive (expected s) chunk =
      if (s ++ chunk).length < 4 then { rest := s ++ chunk }
      else ⟨{ buf := (s ++ chunk).take (wholeSize (s ++ chunk) % 2 ^ 32) },
        (s ++ chunk).drop (min (wholeSize (s ++ chunk) % 2 ^ 32) (s ++ chunk).length),
        min (wholeSize (s ++ chunk) % 2 ^ 32) (s ++ chunk).length⟩ := by
  rw [expected_of_short h, receive]
  dsimp only
  rw [parse_empty]
  split_ifs
  · rfl
  · rw [Nat.zero_add, wholeSize]

theorem drop_min_length (n : Nat) (l : List UInt8) : l.drop (min n l.length) = l.drop n := by
  rcases Nat.le_total n l.length with hle | hle
  · rw [Nat.min_eq_left hle]
  · rw [Nat.min_eq_right hle, List.drop_length, List.drop_of_length_le hle]

theorem receive_body (hhead : 4 ≤ s.length) (hbody : s.length < wholeSize s)
    (hsize : wholeSize s < 2 ^ 32) :
    receive (expected s) chunk = expected (s ++ chunk) := by
  have hpiece : Partial { buf := s } := Or.inr ⟨hhead, hbody, hsize⟩
  have hnil : s ≠ [] := by
    rintro rfl
    exact absurd hhead (by decide)
  have hexpected : expected s = ⟨{ buf := s }, [], s.length⟩ := by
    rw [expected_of_head hhead, List.take_of_length_le hbody.le, List.drop_of_length_le hbody.le,
      Nat.min_eq_left hbody.le]
  have hlength : (s ++ chunk).length = s.length + chunk.length := List.length_append
  rw [hexpected, expected_of_head (by omega), wholeSize_append hhead, receive]
  dsimp only
  rw [List.nil_append, parse_of_head hpiece hnil, fillBody_eq (by dsimp only; omega) hbody.le hsize]
  change Received.mk ⟨s ++ chunk.take (wholeSize s - s.length)⟩
    (chunk.drop (min (wholeSize s - s.length) chunk.length))
    (s.length + min (wholeSize s - s.length) chunk.length) = _
  rw [drop_min_length, List.take_append, List.take_of_length_le hbody.le, List.drop_append,
    List.drop_of_length_le hbody.le, List.nil_append, hlength]
  congr 1
  omega

theorem receive_whole (hhead : 4 ≤ s.length) (hwhole : wholeSize s ≤ s.length)
    (hsize : wholeSize s < 2 ^ 32) :
    receive (expected s) chunk = expected (s ++ chunk) := by
  have hcomplete := (complete_take_iff hsize).mpr hwhole
  have hlength : (s ++ chunk).length = s.length + chunk.length := List.length_append
  rw [expected_of_head hhead, expected_of_head (by omega), wholeSize_append hhead, receive]
  dsimp only
  rw [parse, if_pos hcomplete, List.take_append_of_le_length hwhole,
    List.drop_append_of_le_length hwhole, List.drop_zero]
  congr 1
  omega

theorem receive_expected (h : ¬ Oversized (s ++ chunk)) :
    receive (expected s) chunk = expected (s ++ chunk) := by
  rw [not_oversized_iff] at h
  rcases Nat.lt_or_ge s.length 4 with hshort | hhead
  · rw [receive_short hshort]
    split_ifs with hstill
    · rw [expected_of_short hstill]
    · rw [expected_of_head (by omega), Nat.mod_eq_of_lt (h (by omega)), drop_min_length,
        Nat.min_comm]
  · have hlength : (s ++ chunk).length = s.length + chunk.length := List.length_append
    have hsize := h (by omega)
    rw [wholeSize_append hhead] at hsize
    rcases Nat.lt_or_ge s.length (wholeSize s) with hbody | hwhole
    · exact receive_body hhead hbody hsize
    · exact receive_whole hhead hwhole hsize

theorem run_append (before after : List (List UInt8)) :
    run (before ++ after) = after.foldl receive (run before) :=
  List.foldl_append

theorem run_eq_expected (h : ¬ Oversized chunks.flatten) :
    run chunks = expected chunks.flatten := by
  induction chunks using List.reverseRecOn with
  | nil => rfl
  | append_singleton chunks chunk ih =>
      rw [List.flatten_append, List.flatten_singleton] at h ⊢
      have hbefore : ¬ Oversized chunks.flatten := fun hover => h (hover.append chunk)
      rw [run_append, ih hbefore]
      exact receive_expected h

theorem progress_of_expected (h : ¬ Oversized s)
    (hincomplete : (expected s).packet.complete = false)
    (hlong : 4 ≤ ((expected s).rest ++ chunk).length) (hnext : ¬ Oversized (s ++ chunk)) :
    0 < ((expected s).packet.parse ((expected s).rest ++ chunk)).1 := by
  have hconsumed := congrArg Received.consumed (receive_expected hnext)
  change (expected s).consumed + _ = _ at hconsumed
  have hlength : (s ++ chunk).length = s.length + chunk.length := List.length_append
  have hbefore := (expected_exact h).consumed
  have hafter := (expected_exact hnext).consumed
  have hfour : ∀ t, 4 ≤ wholeSize t := fun t => Nat.le_add_left ..
  rcases Nat.lt_or_ge s.length 4 with hshort | hhead
  · rw [expected_of_short hshort] at hlong
    rw [if_pos hshort] at hbefore
    rw [if_neg (Nat.not_lt_of_ge hlong)] at hafter
    have := hfour (s ++ chunk)
    dsimp only at hlong
    omega
  · have hsize := not_oversized_iff.mp h hhead
    rw [expected_of_head hhead] at hincomplete hlong
    have hbody : s.length < wholeSize s := by
      by_contra hwhole
      rw [(complete_take_iff hsize).mpr (Nat.le_of_not_lt hwhole)] at hincomplete
      cases hincomplete
    dsimp only at hlong
    rw [List.drop_of_length_le hbody.le, List.nil_append] at hlong
    rw [if_neg (by omega), wholeSize_append hhead] at hafter
    rw [if_neg (by omega)] at hbefore
    omega

theorem parsesExactly_of_not_oversized (h : ¬ Oversized chunks.flatten) : ParsesExactly chunks := by
  have hsmall : ∀ before after, before ++ after = chunks → ¬ Oversized before.flatten := by
    rintro before after rfl hover
    rw [List.flatten_append] at h
    exact h (hover.append _)
  constructor
  · intro before after hsplit
    rw [run_eq_expected (hsmall before after hsplit)]
    exact expected_exact (hsmall before after hsplit)
  · intro before chunk after hsplit hincomplete hlong
    have hbefore := hsmall before (chunk :: after) hsplit
    have hnext := hsmall (before ++ [chunk]) after (by rw [List.append_assoc]; exact hsplit)
    rw [List.flatten_append, List.flatten_singleton] at hnext
    rw [run_eq_expected hbefore] at hincomplete hlong ⊢
    exact progress_of_expected hbefore hincomplete hlong hnext

theorem exists_head_call (h : 4 ≤ chunks.flatten.length) : ∃ before chunk after,
    before ++ chunk :: after = chunks ∧ before.flatten.length < 4 ∧
      4 ≤ (before.flatten ++ chunk).length := by
  induction chunks using List.reverseRecOn with
  | nil => exact absurd h (by decide)
  | append_singleton chunks chunk ih =>
      rcases Nat.lt_or_ge chunks.flatten.length 4 with hshort | hhead
      · rw [List.flatten_append, List.flatten_singleton] at h
        exact ⟨chunks, chunk, [], rfl, hshort, h⟩
      · obtain ⟨before, chunk', after, rfl, hbefore, hafter⟩ := ih hhead
        exact ⟨before, chunk', after ++ [chunk], by simp, hbefore, hafter⟩

theorem not_parsesExactly_of_oversized (h : Oversized chunks.flatten) : ¬ ParsesExactly chunks := by
  intro hexact
  obtain ⟨before, chunk, after, hsplit, hshort, hhead⟩ := exists_head_call h.1
  have hbefore : ¬ Oversized before.flatten := fun hover => by
    have := hover.1
    omega
  have hflatten : before.flatten ++ chunk ++ after.flatten = chunks.flatten := by
    rw [← hsplit, List.flatten_append, List.flatten_cons, List.append_assoc]
  have hsize : 2 ^ 32 ≤ wholeSize (before.flatten ++ chunk) := by
    rw [← wholeSize_append hhead after.flatten, hflatten]
    exact h.2
  have hbound := ofBytes_lt ((before.flatten ++ chunk).take 4)
  rw [List.length_take, Nat.min_eq_left hhead] at hbound
  have hcall := (hexact.exact (before ++ [chunk]) after (by
    rw [List.append_assoc]; exact hsplit)).consumed
  rw [run_append, run_eq_expected hbefore, List.foldl_cons, List.foldl_nil, receive_short hshort,
    if_neg (Nat.not_lt_of_ge hhead), List.flatten_append, List.flatten_singleton,
    if_neg (Nat.not_lt_of_ge hhead)] at hcall
  rw [wholeSize] at hcall hsize
  dsimp only at hcall
  omega

/-- The calls of `parse` are exact unless the length at the head of the stream and the four
bytes of the head come to more than 32 bits count. -/
theorem parsesExactly_iff (chunks : List (List UInt8)) :
    ParsesExactly chunks ↔ ¬ Oversized chunks.flatten := by
  constructor
  · intro hexact hover
    exact not_parsesExactly_of_oversized hover hexact
  · exact parsesExactly_of_not_oversized

/-- The length `2^32 - 1`, and four more bytes. -/
def longest : List (List UInt8) := [[255, 255, 255, 255, 1, 2, 3, 4]]

theorem longest_not_parsesExactly : ¬ ∀ chunks, ParsesExactly chunks := by
  intro hall
  have hconsumed := ((hall longest).exact longest [] rfl).consumed
  exact absurd hconsumed (by decide)

end CasualGame.Net.ExactParsing
