import CasualGame.Net.TcpPacket

/-!
What `parse` takes of a stream: the packet at its front once that is there, and
otherwise what belongs to it.
-/

namespace CasualGame.Net

open Lib.LittleEndian
open Lib.Framing

namespace TcpPacket

variable {packet : TcpPacket} {s t r content : List UInt8}

/-- A packet that is being received: it has nothing, or its head and a part of its body. -/
def Partial (packet : TcpPacket) : Prop :=
  packet.buf = [] ∨ (4 ≤ packet.buf.length ∧
    packet.buf.length < ofBytes (packet.buf.take 4) + 4 ∧
      ofBytes (packet.buf.take 4) + 4 < 2 ^ 32)

theorem partial_empty : Partial {} := Or.inl rfl

theorem complete_iff :
    packet.complete = true ↔
      4 ≤ packet.size ∧ ofBytes (packet.buf.take 4) + 4 ≤ packet.size := by
  rw [complete, decide_eq_true_eq, and_congr_right_iff]
  intro hsize
  rw [contentSize, if_neg (by omega)]

theorem size_of_lt (h : packet.buf.length < 2 ^ 32) : packet.size = packet.buf.length :=
  Nat.mod_eq_of_lt h

theorem complete_encode (h : content.length + 4 < 2 ^ 32) :
    complete { buf := encode content } = true := by
  have hhead := ofBytes_head_encode content [] h
  rw [List.append_nil] at hhead
  rw [complete_iff, size_of_lt (by simpa using h), hhead]
  simp

theorem Partial.not_complete (h : packet.Partial) : packet.complete = false := by
  rw [← Bool.not_eq_true, complete_iff]
  rcases h with hempty | ⟨hhead, hbody, hsize⟩
  · simp [size, hempty]
  · rw [size_of_lt (by omega)]
    omega

theorem fillBody_eq (hsize : packet.buf.length < 2 ^ 32)
    (hbody : packet.buf.length ≤ ofBytes (packet.buf.take 4) + 4)
    (hfits : ofBytes (packet.buf.take 4) + 4 < 2 ^ 32) (s : List UInt8) :
    packet.fillBody s =
      (min (ofBytes (packet.buf.take 4) + 4 - packet.buf.length) s.length,
        { buf := packet.buf ++ s.take (ofBytes (packet.buf.take 4) + 4 - packet.buf.length) }) := by
  have hmissing : ((ofBytes (packet.buf.take 4) + 4) % 2 ^ 32 + 2 ^ 32 - packet.size) % 2 ^ 32 =
      ofBytes (packet.buf.take 4) + 4 - packet.buf.length := by
    rw [size_of_lt hsize, Nat.mod_eq_of_lt hfits]
    omega
  simp only [fillBody, hmissing, List.take_eq_take_min (l := s), Nat.min_self, Nat.min_assoc]

theorem parse_of_head (hpiece : packet.Partial) (hhead : packet.buf ≠ []) (s : List UInt8) :
    packet.parse s = packet.fillBody s := by
  have hnot := hpiece.not_complete
  obtain ⟨hlength, hbody, hsize⟩ := hpiece.resolve_left hhead
  have heq : packet.size = packet.buf.length := size_of_lt (by omega)
  rw [parse, if_neg (by simp [hnot]), if_neg (by omega), if_neg (by omega)]

theorem parse_empty (s : List UInt8) :
    TcpPacket.parse {} s =
      if s.length < 4 then (0, {})
      else
        (min ((ofBytes (s.take 4) + 4) % 2 ^ 32) s.length,
          { buf := s.take ((ofBytes (s.take 4) + 4) % 2 ^ 32) }) := by
  have hempty : (TcpPacket.mk []).size = 0 := rfl
  rw [parse, if_neg (by decide), if_pos hempty]
  split_ifs with hshort
  · rfl
  · simp only [← List.take_eq_take_min]

theorem parse_le (packet : TcpPacket) (s : List UInt8) : (packet.parse s).1 ≤ s.length := by
  rw [parse]
  split_ifs
  · exact Nat.zero_le _
  · exact Nat.zero_le _
  · exact Nat.min_le_right _ _
  · exact Nat.zero_le _
  · have hbody : ((TcpPacket.mk (packet.buf ++ s.take (4 - packet.size))).fillBody
        (s.drop (4 - packet.size))).1 ≤ (s.drop (4 - packet.size)).length := Nat.min_le_right _ _
    rw [List.length_drop] at hbody
    dsimp only
    omega
  · exact Nat.min_le_right _ _

theorem parse_of_cut (hpiece : packet.Partial)
    (hcut : cutPacket (packet.buf ++ s) = some (content, r)) :
    (packet.parse s).2 = { buf := encode content } ∧ s.drop (packet.parse s).1 = r := by
  obtain ⟨hstream, hsize⟩ := cutPacket_eq_some.mp hcut
  have hencode : (encode content).length = content.length + 4 := length_encode content
  rcases Classical.em (packet.buf = []) with hempty | hhead
  · obtain ⟨buf⟩ := packet
    subst hempty
    have hs : s = encode content ++ r := hstream
    have hlength : s.length = content.length + 4 + r.length := by rw [hs]; simp
    have hn : (ofBytes (s.take 4) + 4) % 2 ^ 32 = content.length + 4 := by
      rw [hs, ofBytes_head_encode content r hsize, Nat.mod_eq_of_lt hsize]
    rw [parse_empty, if_neg (by omega), hn, Nat.min_eq_left (by omega), hs]
    exact ⟨by rw [List.take_left' hencode], List.drop_left' hencode⟩
  · have ⟨hlength, hbody, hfits⟩ := hpiece.resolve_left hhead
    have hn : ofBytes (packet.buf.take 4) = content.length := by
      rw [← ofBytes_head_encode content r hsize, ← hstream, List.take_append_of_le_length hlength]
    have htotal := congrArg List.length hstream
    rw [List.length_append, List.length_append, hencode] at htotal
    rw [parse_of_head hpiece hhead, fillBody_eq (by omega) (by omega) (by omega), hn,
      Nat.min_eq_left (by omega)]
    have htake := congrArg (List.take (content.length + 4)) hstream
    have hdrop := congrArg (List.drop (content.length + 4)) hstream
    rw [List.take_left' hencode, List.take_append, List.take_of_length_le (by omega)] at htake
    rw [List.drop_left' hencode, List.drop_append, List.drop_of_length_le (by omega),
      List.nil_append] at hdrop
    exact ⟨by rw [htake], hdrop⟩

theorem Partial.rest_lt (hpiece : packet.Partial)
    (hcut : cutPacket (packet.buf ++ s) = some (content, r)) : r.length < s.length := by
  obtain ⟨hstream, hsize⟩ := cutPacket_eq_some.mp hcut
  have htotal := congrArg List.length hstream
  rw [List.length_append, List.length_append, length_encode] at htotal
  rcases hpiece with hempty | ⟨hlength, hbody, -⟩
  · rw [hempty, List.length_nil] at htotal
    omega
  · have hsame : (packet.buf ++ s).take 4 = packet.buf.take 4 :=
      List.take_append_of_le_length hlength
    rw [← hsame, hstream, ofBytes_head_encode content r hsize] at hbody
    omega

/-- Otherwise what belongs to the packet is taken, and no byte is lost. A head that is
not there as a whole stays where it is. -/
theorem parse_of_uncut (hpiece : packet.Partial) (hcut : cutPacket (packet.buf ++ s) = none)
    (hsize : ¬ Oversized (packet.buf ++ s)) :
    (packet.parse s).2.Partial ∧
      (packet.parse s).2.buf ++ s.drop (packet.parse s).1 = packet.buf ++ s ∧
        (s.drop (packet.parse s).1).length < 4 := by
  have hshort := (cutPacket_eq_none.mp hcut).imp_right fun h => h.resolve_left hsize
  rcases Classical.em (packet.buf = []) with hempty | hhead
  · obtain ⟨buf⟩ := packet
    subst hempty
    rw [List.nil_append] at hshort hsize
    rw [parse_empty]
    rcases hshort with hshort | ⟨hlength, hbody⟩
    · rw [if_pos hshort]
      exact ⟨partial_empty, rfl, hshort⟩
    · have hfits : ofBytes (s.take 4) + 4 < 2 ^ 32 := by
        by_contra hover
        exact hsize ⟨hlength, by omega⟩
      rw [if_neg (by omega), Nat.mod_eq_of_lt hfits, Nat.min_eq_right (by omega),
        List.take_of_length_le (by omega)]
      exact ⟨Or.inr ⟨hlength, hbody, hfits⟩, by simp, by simp⟩
  · have ⟨hlength, hbody, hfits⟩ := hpiece.resolve_left hhead
    have hsame : (packet.buf ++ s).take 4 = packet.buf.take 4 :=
      List.take_append_of_le_length hlength
    rw [hsame, List.length_append] at hshort
    have hfew : packet.buf.length + s.length < ofBytes (packet.buf.take 4) + 4 := by
      rcases hshort with hshort | ⟨-, hshort⟩ <;> omega
    rw [parse_of_head hpiece hhead, fillBody_eq (by omega) (by omega) hfits,
      Nat.min_eq_right (by omega), List.take_of_length_le (by omega)]
    refine ⟨Or.inr ⟨?_, ?_, ?_⟩, by simp, by simp⟩
    · rw [List.length_append]
      omega
    · rwa [hsame, List.length_append]
    · rwa [hsame]

theorem complete_parse_empty (s : List UInt8) :
    (TcpPacket.parse {} s).2.complete = (cutPacket s).isSome := by
  cases hcut : cutPacket s with
  | some cut =>
      obtain ⟨content, r⟩ := cut
      obtain ⟨hpacket, -⟩ := parse_of_cut partial_empty hcut
      rw [hpacket, complete_encode (cutPacket_eq_some.mp hcut).2]
      rfl
  | none =>
      by_cases hsize : Oversized s
      · obtain ⟨hlength, hover⟩ := hsize
        have hhead := ofBytes_lt (s.take 4)
        rw [List.length_take, Nat.min_eq_left hlength] at hhead
        rw [parse_empty, if_neg (by omega), Option.isSome_none, ← Bool.not_eq_true, complete_iff,
          size, List.length_take]
        omega
      · exact (parse_of_uncut partial_empty hcut hsize).1.not_complete

theorem fillBody_append (hlength : 4 ≤ packet.buf.length)
    (hbody : packet.size ≤ ofBytes (packet.buf.take 4) + 4)
    (hcomplete : (packet.fillBody s).2.complete = true) (t : List UInt8) :
    packet.fillBody (s ++ t) = packet.fillBody s := by
  simp only [fillBody] at hcomplete ⊢
  generalize hmissing :
    ((ofBytes (packet.buf.take 4) + 4) % 2 ^ 32 + 2 ^ 32 - packet.size) % 2 ^ 32 = missing at *
  rcases Nat.lt_or_ge s.length missing with hfew | hall
  · exfalso
    rw [Nat.min_eq_right hfew.le, List.take_length, complete_iff, size, List.length_append,
      List.take_append_of_le_length hlength] at hcomplete
    rw [size] at hbody hmissing
    omega
  · rw [List.length_append, Nat.min_eq_left hall, Nat.min_eq_left (by omega),
      List.take_append_of_le_length hall]

theorem parse_append_of_empty (hincomplete : packet.complete = false) (hempty : packet.size = 0)
    (hcomplete : (packet.parse s).2.complete = true) (t : List UInt8) :
    packet.parse (s ++ t) = packet.parse s := by
  have hbefore : ¬ packet.complete = true := by simp [hincomplete]
  rw [parse, if_neg hbefore, if_pos hempty] at hcomplete ⊢
  rw [parse, if_neg hbefore, if_pos hempty]
  by_cases hshort : s.length < 4
  · rw [if_pos hshort] at hcomplete
    exact absurd hcomplete hbefore
  · have hhead : (s ++ t).take 4 = s.take 4 := List.take_append_of_le_length (by omega)
    rw [if_neg hshort] at hcomplete
    rw [if_neg hshort, if_neg (by rw [List.length_append]; omega), hhead]
    generalize hread : (ofBytes (s.take 4) + 4) % 2 ^ 32 = readLen at hcomplete ⊢
    have hall : readLen ≤ s.length := by
      rw [complete_iff, size, List.length_take, List.take_take] at hcomplete
      have hfour : min 4 (min readLen s.length) = 4 := by omega
      rw [hfour] at hcomplete
      omega
    have htake : (s ++ t).take readLen = s.take readLen := List.take_append_of_le_length hall
    rw [List.length_append, Nat.min_eq_left hall, Nat.min_eq_left (by omega)]
    simp only [htake]

/-- The packet once a part of its head is followed by the rest of it. -/
def joinHead (packet : TcpPacket) (s : List UInt8) : TcpPacket where
  buf := packet.buf ++ s.take (4 - packet.size)

theorem parse_of_part (hincomplete : packet.complete = false) (hempty : packet.size ≠ 0)
    (hhead : packet.size < 4) (hlong : ¬ s.length < 4 - packet.size) :
    packet.parse s =
      (4 - packet.size + ((packet.joinHead s).fillBody (s.drop (4 - packet.size))).1,
        ((packet.joinHead s).fillBody (s.drop (4 - packet.size))).2) := by
  rw [parse, if_neg (by simp [hincomplete]), if_neg hempty, if_pos hhead, if_neg hlong]
  rfl

theorem length_joinHead (hhead : packet.size < 4)
    (hlong : ¬ s.length < 4 - packet.size) :
    4 ≤ (packet.joinHead s).buf.length ∧ (packet.joinHead s).size ≤ 4 := by
  have hlength : (packet.joinHead s).buf.length = packet.buf.length + (4 - packet.size) := by
    rw [joinHead, List.length_append, List.length_take]
    omega
  have hsize : packet.size = packet.buf.length % 2 ^ 32 := rfl
  rw [size, hlength]
  omega

theorem parse_append_of_head (hincomplete : packet.complete = false) (hempty : packet.size ≠ 0)
    (hhead : packet.size < 4) (hcomplete : (packet.parse s).2.complete = true) (t : List UInt8) :
    packet.parse (s ++ t) = packet.parse s := by
  by_cases hlong : s.length < 4 - packet.size
  · rw [parse, if_neg (by simp [hincomplete]), if_neg hempty, if_pos hhead, if_pos hlong,
      hincomplete] at hcomplete
    exact absurd hcomplete Bool.false_ne_true
  · have hlong' : ¬ (s ++ t).length < 4 - packet.size := by
      rw [List.length_append]
      omega
    have htake : (s ++ t).take (4 - packet.size) = s.take (4 - packet.size) :=
      List.take_append_of_le_length (by omega)
    have hdrop : (s ++ t).drop (4 - packet.size) = s.drop (4 - packet.size) ++ t :=
      List.drop_append_of_le_length (by omega)
    have hjoin : packet.joinHead (s ++ t) = packet.joinHead s := by rw [joinHead, htake, joinHead]
    obtain ⟨hlength, hsize⟩ := length_joinHead hhead hlong
    rw [parse_of_part hincomplete hempty hhead hlong] at hcomplete
    rw [parse_of_part hincomplete hempty hhead hlong,
      parse_of_part hincomplete hempty hhead hlong', hjoin, hdrop,
      fillBody_append hlength (by omega) hcomplete t]

theorem parse_append (hincomplete : packet.complete = false)
    (hcomplete : (packet.parse s).2.complete = true) (t : List UInt8) :
    packet.parse (s ++ t) = packet.parse s := by
  by_cases hempty : packet.size = 0
  · exact parse_append_of_empty hincomplete hempty hcomplete t
  by_cases hhead : packet.size < 4
  · exact parse_append_of_head hincomplete hempty hhead hcomplete t
  have hbefore : ¬ packet.complete = true := by simp [hincomplete]
  rw [parse, if_neg hbefore, if_neg hempty, if_neg hhead] at hcomplete ⊢
  rw [parse, if_neg hbefore, if_neg hempty, if_neg hhead]
  refine fillBody_append ?_ ?_ hcomplete t
  · rw [size] at hhead
    omega
  · rw [complete_iff] at hbefore
    omega

end TcpPacket

end CasualGame.Net
