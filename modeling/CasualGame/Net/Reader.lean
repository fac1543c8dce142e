import CasualGame.Lib.Run
import CasualGame.Net.ConnectionBuffer
import CasualGame.Net.Parsing

/-!
One turn of the loop that reads a connection: what it receives, and the packet it
completes.
-/

namespace CasualGame.Net

open Lib.LittleEndian
open Lib.Framing
open Lib.Run
open TcpPacket

/-- What a `ConnectionHolder` has for reading. -/
structure Reader where
  recvBuf : ConnectionBuffer
  recvPacket : TcpPacket := {}

/-- A `recv` on an open connection. No bytes stand for a socket that has none for now. -/
def RecvResult.segment (bytes : List UInt8) : RecvResult :=
  if bytes = [] then .again else .data bytes

namespace Reader

def create (sizeLimit : Nat) : Reader := { recvBuf := .create sizeLimit }

variable (r : Reader)

/-- The room `recv` is offered. -/
def space : Nat := (r.recvBuf.writeable 0).1.second

/-- The loop goes on after a turn that completes a packet. -/
def pass (answer : RecvResult) : Except NetException (Option TcpPacket × Reader) := do
  let (nonempty, recvBuf) ← BufferedConnection.tryRecv r.recvBuf answer
  if nonempty then
    let (readSize, packet) := r.recvPacket.parse recvBuf.readable
    let recvBuf := (recvBuf.commitRead readSize).2
    if packet.complete then return (some packet, { recvBuf := recvBuf })
    else return (none, { recvBuf := recvBuf, recvPacket := packet })
  else return (none, { r with recvBuf := recvBuf })

/-- The bytes received of the packets that are not complete. -/
def pending : List UInt8 := r.recvPacket.buf ++ r.recvBuf.readable

variable {r} {d content rest : List UInt8}

@[simp] theorem space_create (sizeLimit : Nat) : (create sizeLimit).space = sizeLimit := by
  have hcapacity := ConnectionBuffer.capacity_create sizeLimit
  rw [space, ConnectionBuffer.writeable_second, create, hcapacity, ConnectionBuffer.writeable]
  split_ifs <;> rfl

theorem space_pos : 0 < r.space ↔ r.recvBuf.readable.length < r.recvBuf.capacity :=
  ConnectionBuffer.writeable_pos

theorem readable_add_space_le : r.recvBuf.readable.length + r.space ≤ r.recvBuf.capacity := by
  have hend := (r.recvBuf.writeable 0).2.end_le
  have hlength := (r.recvBuf.writeable 0).2.length_readable
  have hcapacity := r.recvBuf.capacity_writeable 0
  rw [ConnectionBuffer.readable_writeable] at hlength
  rw [ConnectionBuffer.capacity] at hcapacity
  rw [space, ConnectionBuffer.writeable_second]
  omega

theorem parse_nil {packet : TcpPacket} (h : packet.complete = false) :
    packet.parse [] = (0, packet) := by
  rw [parse, if_neg (by simp [h])]
  by_cases hempty : packet.size = 0
  · rw [if_pos hempty, if_pos (by simp)]
  · rw [if_neg hempty]
    by_cases hshort : packet.size < 4
    · rw [if_pos hshort, if_pos (by simp only [List.length_nil]; omega)]
    · simp [if_neg hshort, fillBody]

theorem tryRecv_segment (hfits : d.length ≤ r.space) :
    ∃ nonempty recvBuf, BufferedConnection.tryRecv r.recvBuf (.segment d) =
        .ok (nonempty, recvBuf) ∧ recvBuf.readable = r.recvBuf.readable ++ d ∧
      recvBuf.capacity = r.recvBuf.capacity ∧ (nonempty = false → recvBuf.readable = []) := by
  have hidle : ∀ b : ConnectionBuffer, (!b.empty) = false → b.readable = [] := by
    intro b hempty
    rw [Bool.not_eq_false', ConnectionBuffer.empty, decide_eq_true_eq] at hempty
    apply List.eq_nil_of_length_eq_zero
    rw [ConnectionBuffer.length_readable]
    omega
  simp only [BufferedConnection.tryRecv]
  by_cases hroom : (r.recvBuf.writeable 0).1.second = 0
  · have hnone : d = [] := List.eq_nil_of_length_eq_zero (by rw [space] at hfits; omega)
    rw [if_pos hroom]
    exact ⟨_, _, rfl, by simp [hnone], by simp, hidle _⟩
  · rw [if_neg hroom, RecvResult.segment]
    by_cases hnone : d = []
    · rw [if_pos hnone]
      exact ⟨_, _, rfl, by simp [hnone], by simp, hidle _⟩
    · rw [if_neg hnone]
      have htake : d.take (r.recvBuf.writeable 0).1.second = d := List.take_of_length_le hfits
      simp only [htake, if_neg hnone]
      refine ⟨_, _, rfl, ?_, by simp, fun hnot => Bool.noConfusion hnot⟩
      rw [ConnectionBuffer.writeable_first, ConnectionBuffer.readable_commitWrite,
        ConnectionBuffer.readable_writeable]
      rwa [ConnectionBuffer.capacity_writeable, ← ConnectionBuffer.writeable_second]

theorem pass_incomplete {answer : RecvResult} {completed : Option TcpPacket} {r' : Reader}
    (hincomplete : r.recvPacket.complete = false) (h : r.pass answer = .ok (completed, r')) :
    r'.recvPacket.complete = false := by
  obtain ⟨⟨nonempty, recvBuf⟩, -, hturn⟩ := bind_eq_ok.mp h
  cases nonempty with
  | false =>
      obtain ⟨-, rfl⟩ := Prod.mk.inj (Except.ok.inj hturn)
      exact hincomplete
  | true =>
      simp only [if_true] at hturn
      split_ifs at hturn with hcomplete
      · obtain ⟨-, rfl⟩ := Prod.mk.inj (Except.ok.inj hturn)
        rfl
      · obtain ⟨-, rfl⟩ := Prod.mk.inj (Except.ok.inj hturn)
        exact Bool.eq_false_iff.mpr hcomplete

theorem pass_segment (hincomplete : r.recvPacket.complete = false) (hfits : d.length ≤ r.space) :
    ∃ recvBuf, recvBuf.capacity = r.recvBuf.capacity ∧
      recvBuf.readable = (r.recvBuf.readable ++ d).drop
        (r.recvPacket.parse (r.recvBuf.readable ++ d)).1 ∧
      r.pass (.segment d) = .ok
        (if (r.recvPacket.parse (r.recvBuf.readable ++ d)).2.complete = true then
          (some (r.recvPacket.parse (r.recvBuf.readable ++ d)).2, { recvBuf := recvBuf })
        else (none, ⟨recvBuf, (r.recvPacket.parse (r.recvBuf.readable ++ d)).2⟩)) := by
  obtain ⟨nonempty, recvBuf, hrecv, hreadable, hcapacity, hempty⟩ := tryRecv_segment hfits
  rw [← hreadable]
  cases nonempty with
  | false =>
      rw [hempty rfl, parse_nil hincomplete]
      refine ⟨recvBuf, hcapacity, hempty rfl, ?_⟩
      simp only [pass, hrecv, hincomplete]
      rfl
  | true =>
      refine ⟨(recvBuf.commitRead (r.recvPacket.parse recvBuf.readable).1).2, ?_, ?_, ?_⟩
      · rw [ConnectionBuffer.capacity_commitRead, hcapacity]
      · exact ConnectionBuffer.readable_commitRead (parse_le _ _)
      · simp only [pass, hrecv]
        change (if _ then _ else _) = _
        split_ifs <;> rfl

theorem pass_of_cut (hpiece : r.recvPacket.Partial) (hfits : d.length ≤ r.space)
    (hcut : cutPacket (r.pending ++ d) = some (content, rest)) :
    ∃ recvBuf, recvBuf.capacity = r.recvBuf.capacity ∧ recvBuf.readable = rest ∧
      rest.length < r.recvBuf.readable.length + d.length ∧
        r.pass (.segment d) = .ok (some { buf := encode content }, { recvBuf := recvBuf }) := by
  have hsize := (cutPacket_eq_some.mp hcut).2
  rw [pending, List.append_assoc] at hcut
  obtain ⟨hpacket, hrest⟩ := parse_of_cut hpiece hcut
  obtain ⟨recvBuf, hcapacity, hreadable, hpass⟩ := pass_segment hpiece.not_complete hfits
  have hless := hpiece.rest_lt hcut
  rw [List.length_append] at hless
  rw [hpacket, if_pos (complete_encode hsize)] at hpass
  exact ⟨recvBuf, hcapacity, hreadable.trans hrest, hless, hpass⟩

theorem pass_of_uncut (hpiece : r.recvPacket.Partial) (hfits : d.length ≤ r.space)
    (hcut : cutPacket (r.pending ++ d) = none) (hsize : ¬ Oversized (r.pending ++ d)) :
    ∃ r' : Reader, r.pass (.segment d) = .ok (none, r') ∧ r'.recvPacket.Partial ∧
      r'.pending = r.pending ++ d ∧ r'.recvBuf.capacity = r.recvBuf.capacity ∧
        r'.recvBuf.readable.length < 4 ∧
          r'.recvBuf.readable.length ≤ r.recvBuf.readable.length + d.length := by
  rw [pending, List.append_assoc] at hcut hsize ⊢
  obtain ⟨hpiece', hbytes, hshort⟩ := parse_of_uncut hpiece hcut hsize
  obtain ⟨recvBuf, hcapacity, hreadable, hpass⟩ := pass_segment hpiece.not_complete hfits
  rw [if_neg (by rw [hpiece'.not_complete]; exact Bool.false_ne_true)] at hpass
  refine ⟨_, hpass, hpiece', ?_, hcapacity, ?_, ?_⟩
  · rw [pending, hreadable, hbytes]
  · rw [hreadable]
    exact hshort
  · rw [hreadable, List.length_drop, List.length_append]
    exact Nat.sub_le _ _

end Reader

end CasualGame.Net
