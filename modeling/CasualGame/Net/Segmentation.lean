import Mathlib.Data.List.Induction
import CasualGame.Net.Reader

/-!
A connection that is fed a stream in chunks: it completes the packets of the stream,
wherever the chunks are cut.
-/

namespace CasualGame.Net

open Lib.LittleEndian
open Lib.Framing
open TcpPacket

/-- A connection with the bytes that lie in its socket, and the packets completed so far. -/
structure Inlet where
  reader : Reader
  socket : List UInt8 := []
  packets : List TcpPacket := []

namespace Inlet

def create (sizeLimit : Nat) : Inlet := { reader := .create sizeLimit }

/-- After a turn that took `size` bytes off the socket. -/
def turned (i : Inlet) (size : Nat) (completed : Option TcpPacket) (reader : Reader) : Inlet where
  reader := reader
  socket := i.socket.drop size
  packets := i.packets ++ completed.toList

/-- Turns of the read loop. A loop left on an incomplete packet is entered again as long
as the socket has bytes, for which the epoller reports it. -/
def drain : Nat → Inlet → Inlet
  | 0, i => i
  | turns + 1, i =>
      let received := i.socket.take i.reader.space
      match i.reader.pass (.segment received) with
      | .error _ => i
      | .ok (completed, reader) =>
          let i := i.turned received.length completed reader
          if completed = none ∧ i.socket = [] then i else drain turns i

/-- Enough turns for all the bytes there are. -/
def turns (i : Inlet) : Nat := 2 * i.socket.length + i.reader.recvBuf.readable.length + 1

/-- A chunk arrives in the socket and is read. -/
def feed (i : Inlet) (chunk : List UInt8) : Inlet :=
  let i := { i with socket := i.socket ++ chunk }
  drain i.turns i

/-- A packet is being received, and there is room for more of it. -/
structure Ready (i : Inlet) : Prop where
  packet : i.reader.recvPacket.Partial
  four_le : 4 ≤ i.reader.recvBuf.capacity
  room : i.reader.recvBuf.readable.length < i.reader.recvBuf.capacity

/-- What lies in the reader and in the socket. -/
def stream (i : Inlet) : List UInt8 := i.reader.pending ++ i.socket

variable {i : Inlet} {s t : List UInt8}

theorem not_oversized_of_rest (h : ¬ Oversized (framing.rest (s ++ t))) : ¬ Oversized s := by
  intro hover
  rw [Cutter.rest_of_none (hover.append t).cut] at h
  exact h (hover.append t)

theorem stream_eq (i : Inlet) :
    i.stream = i.reader.pending ++ i.socket.take i.reader.space ++
      i.socket.drop (i.socket.take i.reader.space).length := by
  rw [stream, List.append_assoc]
  congr 1
  rw [List.length_take]
  rcases Nat.le_total i.reader.space i.socket.length with hle | hle
  · rw [Nat.min_eq_left hle, List.take_append_drop]
  · rw [Nat.min_eq_right hle, List.drop_length, List.append_nil, List.take_of_length_le hle]

/-- With enough turns, all the packets there are get completed, and nothing stays in the
socket. The turns go down by the bytes taken off the socket and those taken off the
buffer. -/
theorem Ready.drain {turns : Nat} (h : i.Ready) (hsize : ¬ Oversized (framing.rest i.stream))
    (hturns : 2 * i.socket.length + i.reader.recvBuf.readable.length < turns) :
    (drain turns i).Ready ∧ (drain turns i).socket = [] ∧
      (drain turns i).reader.pending = framing.rest i.stream ∧
        (drain turns i).packets =
          i.packets ++ (framing.frames i.stream).map fun c => { buf := encode c } := by
  induction turns generalizing i with
  | zero => omega
  | succ turns ih =>
      have hspace := Reader.space_pos.mpr h.room
      have hroom := Reader.readable_add_space_le (r := i.reader)
      have hstream := stream_eq i
      have hfits : (i.socket.take i.reader.space).length ≤ i.reader.space :=
        List.length_take_le _ _
      have htaken : (i.socket.take i.reader.space).length =
          min i.reader.space i.socket.length := List.length_take
      rw [Inlet.drain]
      generalize i.socket.take i.reader.space = received at *
      have hlength : (i.socket.drop received.length).length =
          i.socket.length - received.length := List.length_drop
      cases hcut : cutPacket (i.reader.pending ++ received) with
      | some cut =>
          obtain ⟨content, rest⟩ := cut
          obtain ⟨recvBuf, hcapacity, hreadable, hless, hpass⟩ :=
            Reader.pass_of_cut h.packet hfits hcut
          simp only [hpass, reduceCtorEq, false_and, if_false]
          have hwhole := framing.cut_append (i.socket.drop received.length) hcut
          rw [← hstream] at hwhole
          rw [Cutter.rest_of_some hwhole] at hsize ⊢
          rw [Cutter.frames_of_some hwhole]
          have hready : (i.turned received.length (some { buf := encode content })
              { recvBuf := recvBuf }).Ready := by
            refine ⟨partial_empty, hcapacity ▸ h.four_le, ?_⟩
            rw [turned, hreadable, hcapacity]
            omega
          have hnext : (i.turned received.length (some { buf := encode content })
              { recvBuf := recvBuf }).stream = rest ++ i.socket.drop received.length := by
            rw [stream, turned, Reader.pending, hreadable, List.nil_append]
          obtain ⟨hready', hsocket, hpending, hpackets⟩ := ih hready (by rwa [hnext])
            (by rw [turned, hreadable, hlength]; omega)
          rw [hnext] at hpending hpackets
          refine ⟨hready', hsocket, hpending, ?_⟩
          rw [hpackets, List.map_cons, turned, Option.toList_some, List.append_assoc,
            List.singleton_append]
      | none =>
          rw [hstream] at hsize
          have hover := not_oversized_of_rest hsize
          obtain ⟨r', hpass, hpiece, hpending, hcapacity, hfew, hless⟩ :=
            Reader.pass_of_uncut h.packet hfits hcut hover
          simp only [hpass, true_and]
          have hnext : (i.turned received.length none r').stream = i.stream := by
            rw [hstream, stream, turned, hpending]
          have hready : (i.turned received.length none r').Ready := by
            refine ⟨hpiece, hcapacity ▸ h.four_le, ?_⟩
            have hfour := h.four_le
            rw [← hcapacity] at hfour
            exact hfew.trans_le hfour
          have hsame : (i.turned received.length none r').packets = i.packets := List.append_nil _
          split_ifs with hdone
          · have hall : i.stream = i.reader.pending ++ received := by
              have hdrop : i.socket.drop received.length = [] := hdone
              rw [hstream, hdrop, List.append_nil]
            rw [hall, Cutter.rest_of_none hcut, Cutter.frames_of_none hcut, List.map_nil,
              List.append_nil]
            exact ⟨hready, hdone, hpending, hsame⟩
          · rw [← hnext, ← hsame]
            refine ih hready (by rwa [hnext, hstream]) ?_
            have hsome : 0 < (i.socket.drop received.length).length :=
              List.length_pos_iff.mpr hdone
            rw [turned, hlength]
            dsimp only
            omega

theorem Ready.feed (h : i.Ready) (hsocket : i.socket = []) (chunk : List UInt8)
    (hsize : ¬ Oversized (framing.rest (i.reader.pending ++ chunk))) :
    (i.feed chunk).Ready ∧ (i.feed chunk).socket = [] ∧
      (i.feed chunk).reader.pending = framing.rest (i.reader.pending ++ chunk) ∧
        (i.feed chunk).packets = i.packets ++
          (framing.frames (i.reader.pending ++ chunk)).map fun c => { buf := encode c } := by
  have hready : Ready { i with socket := i.socket ++ chunk } := ⟨h.packet, h.four_le, h.room⟩
  have hstream : stream { i with socket := i.socket ++ chunk } = i.reader.pending ++ chunk := by
    rw [stream, hsocket, List.nil_append]
  rw [← hstream] at hsize ⊢
  exact hready.drain hsize (Nat.lt_succ_self _)

theorem not_oversized_rest {contents : List (List UInt8)}
    (hsize : ∀ c ∈ contents, c.length + 4 < 2 ^ 32) (h : s ++ t = contents.flatMap encode) :
    ¬ Oversized (framing.rest s) := by
  induction contents generalizing s with
  | nil =>
      obtain ⟨rfl, rfl⟩ := List.append_eq_nil_iff.mp h
      rw [Cutter.rest_of_none (by rfl)]
      exact fun hover => absurd hover.1 (by decide)
  | cons content contents ih =>
      have hcontent := hsize content (by simp)
      rw [List.flatMap_cons] at h
      have hwhole : cutPacket (s ++ t) = some (content, contents.flatMap encode) :=
        cutPacket_eq_some.mpr ⟨h, hcontent⟩
      cases hcut : cutPacket s with
      | none =>
          rw [Cutter.rest_of_none hcut]
          rintro ⟨hlength, hover⟩
          have hsame : (s ++ t).take 4 = s.take 4 := List.take_append_of_le_length hlength
          rw [← hsame, h, ofBytes_head_encode content _ hcontent] at hover
          omega
      | some cut =>
          obtain ⟨first, rest⟩ := cut
          have hmore := framing.cut_append t hcut
          obtain ⟨rfl, hrest⟩ := Prod.mk.inj (Option.some.inj (hmore.symm.trans hwhole))
          rw [Cutter.rest_of_some hcut]
          exact ih (fun c hc => hsize c (by simp [hc])) hrest

theorem cut_encode {contents : List (List UInt8)}
    (hsize : ∀ c ∈ contents, c.length + 4 < 2 ^ 32) :
    framing.frames (contents.flatMap encode) = contents ∧
      framing.rest (contents.flatMap encode) = [] := by
  have hcut : ∀ c ∈ contents, ∀ t, framing.cut (encode c ++ t) = some (c, t) :=
    fun c hc => cut_encode_append (hsize c hc)
  have hframes := Cutter.frames_encoded hcut []
  have hrest := Cutter.rest_encoded hcut []
  rw [List.append_nil] at hframes hrest
  rw [hframes, hrest, Cutter.frames_of_none (by rfl), Cutter.rest_of_none (by rfl), List.append_nil]
  exact ⟨rfl, rfl⟩

theorem ready_create {sizeLimit : Nat} (hlimit : 4 ≤ sizeLimit) : (create sizeLimit).Ready := by
  have hcapacity : (create sizeLimit).reader.recvBuf.capacity = sizeLimit :=
    ConnectionBuffer.capacity_create sizeLimit
  refine ⟨partial_empty, by rwa [hcapacity], ?_⟩
  rw [hcapacity]
  exact (show 0 < 4 by decide).trans_le hlimit

theorem feed_chunks {contents : List (List UInt8)}
    (hsize : ∀ c ∈ contents, c.length + 4 < 2 ^ 32) {sizeLimit : Nat} (hlimit : 4 ≤ sizeLimit)
    (chunks : List (List UInt8)) (h : chunks.flatten ++ t = contents.flatMap encode) :
    (chunks.foldl feed (create sizeLimit)).Ready ∧
      (chunks.foldl feed (create sizeLimit)).socket = [] ∧
        (chunks.foldl feed (create sizeLimit)).reader.pending = framing.rest chunks.flatten ∧
          (chunks.foldl feed (create sizeLimit)).packets =
            (framing.frames chunks.flatten).map fun c => { buf := encode c } := by
  induction chunks using List.reverseRecOn generalizing t with
  | nil =>
      rw [List.flatten_nil, Cutter.rest_of_none (by rfl), Cutter.frames_of_none (by rfl)]
      exact ⟨ready_create hlimit, rfl, rfl, rfl⟩
  | append_singleton chunks chunk ih =>
      have hflat : (chunks ++ [chunk]).flatten = chunks.flatten ++ chunk := by simp
      rw [hflat] at h ⊢
      obtain ⟨hready, hsocket, hpending, hpackets⟩ :=
        ih (t := chunk ++ t) (by rw [← List.append_assoc, h])
      have hover := not_oversized_rest hsize h
      rw [Cutter.rest_append, ← hpending] at hover
      rw [List.foldl_concat, Cutter.rest_append, Cutter.frames_append, ← hpending, List.map_append,
        ← hpackets]
      exact hready.feed hsocket chunk hover

theorem mapM_setContent {contents : List (List UInt8)}
    (hsize : ∀ c ∈ contents, c.length + 4 < 2 ^ 32) :
    contents.mapM setContent = some (contents.map fun c => { buf := encode c }) := by
  induction contents with
  | nil => rfl
  | cons content contents ih =>
      rw [List.mapM_cons, setContent_eq (hsize content (by simp)),
        ih fun c hc => hsize c (by simp [hc])]
      rfl

/-- However the stream of some packets is cut, a connection that is fed it has completed
those packets, in their order, and has nothing left. -/
theorem feed_encoded {contents chunks : List (List UInt8)} {sizeLimit : Nat}
    (hsize : ∀ c ∈ contents, c.length < 2 ^ 32 - 4) (hlimit : 4 ≤ sizeLimit)
    (hchunks : chunks.flatten = contents.flatMap encode) :
    contents.mapM setContent = some (chunks.foldl feed (create sizeLimit)).packets ∧
      (chunks.foldl feed (create sizeLimit)).packets.map (·.content) = contents ∧
        (chunks.foldl feed (create sizeLimit)).socket = [] ∧
          (chunks.foldl feed (create sizeLimit)).reader.recvBuf.readable = [] ∧
            (chunks.foldl feed (create sizeLimit)).reader.recvPacket = {} := by
  have hsize' : ∀ c ∈ contents, c.length + 4 < 2 ^ 32 := by
    intro c hc
    have := hsize c hc
    omega
  obtain ⟨hframes, hrest⟩ := cut_encode hsize'
  obtain ⟨-, hsocket, hpending, hpackets⟩ :=
    feed_chunks (t := []) hsize' hlimit chunks (by rw [List.append_nil, hchunks])
  rw [hchunks, hframes] at hpackets
  rw [hchunks, hrest, Reader.pending, List.append_eq_nil_iff] at hpending
  refine ⟨?_, ?_, hsocket, hpending.2, ?_⟩
  · rw [hpackets, mapM_setContent hsize']
  · rw [hpackets, List.map_map]
    have hcontent : ((·.content) ∘ fun c => TcpPacket.mk (encode c)) = id := by
      funext c
      have hdrop := drop_head_encode c []
      rwa [List.append_nil, List.append_nil] at hdrop
    rw [hcontent, List.map_id]
  · exact congrArg TcpPacket.mk hpending.1

/-- Two packets in three chunks, through a buffer that has no room for either of them. -/
theorem feed_encoded_two :
    [[7, 8], []].mapM setContent = some
        ([[2, 0], [0, 0, 7, 8, 0, 0], [0, 0]].foldl feed (create 4)).packets ∧
      ([[2, 0], [0, 0, 7, 8, 0, 0], [0, 0]].foldl feed (create 4)).packets.map (·.content) =
          [[7, 8], []] ∧
        ([[2, 0], [0, 0, 7, 8, 0, 0], [0, 0]].foldl feed (create 4)).socket = [] ∧
          ([[2, 0], [0, 0, 7, 8, 0, 0], [0, 0]].foldl feed
              (create 4)).reader.recvBuf.readable = [] ∧
            ([[2, 0], [0, 0, 7, 8, 0, 0], [0, 0]].foldl feed (create 4)).reader.recvPacket = {} :=
  feed_encoded (by decide) (by decide) (by decide)

end Inlet

end CasualGame.Net
