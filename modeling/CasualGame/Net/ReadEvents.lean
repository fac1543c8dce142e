import CasualGame.Lib.Run
import CasualGame.Net.CircularQueue
import CasualGame.Net.Reader

/-!
The read event of the connection manager: its loop, and the queue it puts the packets
into for the main thread.
-/

namespace CasualGame.Net

open Lib.LittleEndian
open Lib.Framing
open Lib.Run
open TcpPacket

inductive Phase
  | waiting | reading | erased
  deriving DecidableEq

/-- A connection and the queue of its manager. -/
structure Receiving where
  reader : Reader
  recvQueue : CircularQueue TcpPacket
  phase : Phase := .waiting
  /-- What `getPacket` has handed out. -/
  taken : List TcpPacket := []
  /-- What the loop has completed; the source has no such record. -/
  completed : List TcpPacket := []

/-- The epoller reports the socket, the loop asks it for bytes, or the main thread asks
for a packet. -/
inductive ReadAct
  | readEvent
  | recv (answer : RecvResult)
  | getPacket

/-- What the socket can answer. It is not asked when the buffer has no room, which is the
turn of an `again`. -/
def Reader.Offers (r : Reader) : RecvResult → Prop
  | .again => True
  | .data bytes => 0 < r.space ∧ bytes.length ≤ r.space
  | .fault => 0 < r.space

namespace Receiving

variable (s : Receiving)

def start (sizeLimit powArg : Nat) : Receiving where
  reader := .create sizeLimit
  recvQueue := .create powArg

/-- A full queue is only looked for before the loop. -/
def readEvent : Receiving := if s.recvQueue.full then s else { s with phase := .reading }

/-- What `push` comes back with is not looked at. -/
def recv (answer : RecvResult) : Receiving :=
  match s.reader.pass answer with
  | .error _ => { s with phase := .erased }
  | .ok (none, reader) => { s with reader := reader, phase := .waiting }
  | .ok (some packet, reader) =>
      { s with
        reader := reader
        recvQueue := (s.recvQueue.push packet).2
        completed := s.completed ++ [packet] }

def getPacket : Receiving :=
  match s.recvQueue.pop with
  | (none, _) => s
  | (some packet, recvQueue) =>
      { s with recvQueue := recvQueue, taken := s.taken ++ [packet] }

def step : ReadAct → Receiving
  | .readEvent => s.readEvent
  | .recv answer => s.recv answer
  | .getPacket => s.getPacket

def Allowed : ReadAct → Prop
  | .readEvent => s.phase = .waiting
  | .recv answer => s.phase = .reading ∧ s.reader.Offers answer
  | .getPacket => True

instance (r : Reader) (answer : RecvResult) : Decidable (r.Offers answer) :=
  match answer with
  | .again => .isTrue trivial
  | .data bytes => inferInstanceAs (Decidable (0 < r.space ∧ bytes.length ≤ r.space))
  | .fault => inferInstanceAs (Decidable (0 < r.space))

instance (act : ReadAct) : Decidable (s.Allowed act) :=
  match act with
  | .readEvent => inferInstanceAs (Decidable (s.phase = .waiting))
  | .recv answer => inferInstanceAs (Decidable (s.phase = .reading ∧ s.reader.Offers answer))
  | .getPacket => .isTrue trivial

end Receiving

/-- The runs of a connection, for every size of its buffer and of the queue. -/
def readSystem : System Receiving ReadAct Empty where
  Init s := ∃ sizeLimit powArg, s = .start sizeLimit powArg
  Allowed s act := s.Allowed act
  step s act := .ok (s.step act)

instance (s : Receiving) (act : ReadAct) : Decidable (readSystem.Allowed s act) :=
  inferInstanceAs (Decidable (s.Allowed act))

namespace Receiving

variable {s s' : Receiving} {d : List UInt8} {items : List TcpPacket}

theorem offers_segment (h : s.reader.Offers (.segment d)) : d.length ≤ s.reader.space := by
  rw [RecvResult.segment] at h
  split_ifs at h with hnone
  · simp [hnone]
  · exact h.2

/-- Between the turns the packet that is being received is not complete. -/
def Incomplete (s : Receiving) : Prop := s.reader.recvPacket.complete = false

theorem incomplete_recv {answer : RecvResult} (h : s.Incomplete) : (s.recv answer).Incomplete := by
  rw [recv]
  split
  · exact h
  · exact Reader.pass_incomplete h ‹_›
  · exact Reader.pass_incomplete h ‹_›

theorem incomplete_reaches (h : readSystem.Reaches (fun _ _ => True) s) : s.Incomplete := by
  refine h.invariant ?_ ?_
  · rintro s ⟨sizeLimit, powArg, rfl⟩
    rfl
  · intro s act s' hs _ _ hstep
    obtain rfl := Except.ok.inj hstep
    cases act with
    | readEvent =>
        change (readEvent s).Incomplete
        rw [readEvent]
        split_ifs <;> exact hs
    | recv answer => exact incomplete_recv hs
    | getPacket =>
        change (getPacket s).Incomplete
        rw [getPacket]
        split <;> exact hs

end Receiving

section Completing

variable {r : Reader} {d : List UInt8}

theorem frames_eq_parse (t : List UInt8) :
    (framing.frames t).length =
      if (TcpPacket.parse {} t).2.complete then
        (framing.frames (t.drop (TcpPacket.parse {} t).1)).length + 1
      else 0 := by
  rw [complete_parse_empty]
  cases hcut : cutPacket t with
  | some cut =>
      obtain ⟨content, r⟩ := cut
      have hframes := framing.frames_of_some hcut
      obtain ⟨-, hrest⟩ := parse_of_cut partial_empty hcut
      rw [hrest, hframes, List.length_cons]
      rfl
  | none =>
      have hframes := framing.frames_of_none hcut
      rw [hframes]
      rfl

theorem frames_twoEmpty : framing.frames [0, 0, 0, 0, 0, 0, 0, 0] = [[], []] := by
  have hfirst : framing.cut [0, 0, 0, 0, 0, 0, 0, 0] = some ([], [0, 0, 0, 0]) := by decide
  have hsecond : framing.cut [0, 0, 0, 0] = some ([], []) := by decide
  have hlast : framing.cut [] = none := by decide
  rw [framing.frames_of_some hfirst, framing.frames_of_some hsecond, framing.frames_of_none hlast]

/-- How many packets the bytes complete when a connection receives them. -/
def Reader.packetsIn (r : Reader) (bytes : List UInt8) : Nat :=
  if (r.recvPacket.parse (r.recvBuf.readable ++ bytes)).2.complete then
    (framing.frames ((r.recvBuf.readable ++ bytes).drop
      (r.recvPacket.parse (r.recvBuf.readable ++ bytes)).1)).length + 1
  else 0

theorem packetsIn_fresh (recvBuf : ConnectionBuffer) (bytes : List UInt8) :
    Reader.packetsIn { recvBuf := recvBuf } bytes =
      (framing.frames (recvBuf.readable ++ bytes)).length :=
  (frames_eq_parse _).symm

theorem packetsIn_of_complete (hincomplete : r.recvPacket.complete = false)
    (hcomplete : (r.recvPacket.parse (r.recvBuf.readable ++ d)).2.complete = true)
    (t : List UInt8) :
    r.packetsIn (d ++ t) = (framing.frames ((r.recvBuf.readable ++ d).drop
      (r.recvPacket.parse (r.recvBuf.readable ++ d)).1 ++ t)).length + 1 := by
  rw [Reader.packetsIn, ← List.append_assoc, parse_append hincomplete hcomplete t,
    if_pos hcomplete, List.drop_append_of_le_length (parse_le _ _)]

end Completing

namespace Receiving

variable {s : Receiving} {d : List UInt8} {items : List TcpPacket}

theorem recv_of_complete (hincomplete : s.Incomplete) (hfits : d.length ≤ s.reader.space)
    (hcomplete : (s.reader.recvPacket.parse (s.reader.recvBuf.readable ++ d)).2.complete = true) :
    ∃ recvBuf, recvBuf.readable = (s.reader.recvBuf.readable ++ d).drop
        (s.reader.recvPacket.parse (s.reader.recvBuf.readable ++ d)).1 ∧
      s.recv (.segment d) = { s with
        reader := { recvBuf := recvBuf }
        recvQueue :=
          (s.recvQueue.push (s.reader.recvPacket.parse (s.reader.recvBuf.readable ++ d)).2).2
        completed :=
          s.completed ++ [(s.reader.recvPacket.parse (s.reader.recvBuf.readable ++ d)).2] } := by
  obtain ⟨recvBuf, -, hreadable, hpass⟩ := Reader.pass_segment hincomplete hfits
  rw [if_pos hcomplete] at hpass
  refine ⟨recvBuf, hreadable, ?_⟩
  rw [recv, hpass]

theorem recv_of_incomplete (hincomplete : s.Incomplete) (hfits : d.length ≤ s.reader.space)
    (hcomplete : (s.reader.recvPacket.parse (s.reader.recvBuf.readable ++ d)).2.complete = false) :
    ∃ reader, s.recv (.segment d) = { s with reader := reader, phase := .waiting } := by
  obtain ⟨recvBuf, -, -, hpass⟩ := Reader.pass_segment hincomplete hfits
  rw [if_neg (by rw [hcomplete]; exact Bool.false_ne_true)] at hpass
  exact ⟨_, by rw [recv, hpass]⟩

theorem completed_segments (segs : List (List UInt8)) (hincomplete : s.Incomplete)
    (hq : s.recvQueue.Holds items)
    (hfits : readSystem.Fits (fun _ _ => True) s (segs.map fun d => .recv (.segment d))) :
    let s' := readSystem.after s (segs.map fun d => .recv (.segment d))
    ∃ packets, s'.completed = s.completed ++ packets ∧
      packets.length = min segs.length (s.reader.packetsIn segs.flatten) ∧
        s'.recvQueue.Holds ((items ++ packets).take s.recvQueue.maxSize) := by
  induction segs generalizing s items with
  | nil =>
      refine ⟨[], (List.append_nil _).symm, by simp, ?_⟩
      rw [List.append_nil, List.take_of_length_le hq.fits]
      exact hq
  | cons d segs ih =>
      obtain ⟨⟨hphase, hoffers⟩, -, hrest⟩ := hfits
      have hspace := offers_segment hoffers
      change readSystem.Fits _ (s.recv (.segment d)) _ at hrest
      change ∃ packets, (readSystem.after (s.recv (.segment d)) _).completed = _ ∧ _ ∧
        (readSystem.after (s.recv (.segment d)) _).recvQueue.Holds _
      have hnext : (s.recv (.segment d)).Incomplete := incomplete_recv hincomplete
      cases hcomplete :
        (s.reader.recvPacket.parse (s.reader.recvBuf.readable ++ d)).2.complete with
      | true =>
          obtain ⟨recvBuf, hreadable, hturn⟩ := recv_of_complete hincomplete hspace hcomplete
          rw [hturn] at hrest hnext ⊢
          obtain ⟨packets, hcompleted, hlength, hholds⟩ := ih hnext (hq.push _) hrest
          refine ⟨(s.reader.recvPacket.parse (s.reader.recvBuf.readable ++ d)).2 :: packets,
            ?_, ?_, ?_⟩
          · rw [hcompleted, List.append_assoc, List.singleton_append]
          · rw [packetsIn_fresh] at hlength
            rw [List.flatten_cons, packetsIn_of_complete hincomplete hcomplete, ← hreadable,
              List.length_cons, List.length_cons, hlength]
            exact (Nat.add_min_add_right _ _ 1).symm
          · rw [CircularQueue.maxSize_push, CircularQueue.take_take_append, List.append_assoc,
              List.singleton_append] at hholds
            exact hholds
      | false =>
          obtain ⟨reader, hturn⟩ := recv_of_incomplete hincomplete hspace hcomplete
          cases segs with
          | nil =>
              refine ⟨[], ?_, ?_, ?_⟩
              · rw [hturn, List.append_nil]
                rfl
              · rw [Reader.packetsIn, List.flatten_cons, List.flatten_nil, List.append_nil,
                  hcomplete]
                rfl
              · rw [hturn, List.append_nil, List.take_of_length_le hq.fits]
                exact hq
          | cons d' segs =>
              obtain ⟨⟨hreading, -⟩, -⟩ := hrest
              rw [hturn] at hreading
              exact absurd hreading Phase.noConfusion

theorem completed_readEvent {q : CircularQueue TcpPacket} (segs : List (List UInt8))
    (hincomplete : s.Incomplete) (hq : q.Holds items)
    (hfits : readSystem.Fits (fun _ _ => True) { s with recvQueue := q }
      (.readEvent :: segs.map fun d => .recv (.segment d))) :
    let s' := readSystem.after { s with recvQueue := q }
      (.readEvent :: segs.map fun d => .recv (.segment d))
    ∃ packets, s'.completed = s.completed ++ packets ∧
      packets.length = min segs.length (s.reader.packetsIn segs.flatten) ∧
        s'.recvQueue.Holds ((items ++ packets).take q.maxSize) := by
  obtain ⟨-, -, hrest⟩ := hfits
  have hstarted : ∃ phase, readEvent { s with recvQueue := q } =
      { s with recvQueue := q, phase := phase } := by
    rw [readEvent]
    split_ifs
    · exact ⟨s.phase, rfl⟩
    · exact ⟨.reading, rfl⟩
  obtain ⟨phase, hstarted⟩ := hstarted
  change readSystem.Fits _ (readEvent { s with recvQueue := q }) _ at hrest
  change ∃ packets, (readSystem.after (readEvent { s with recvQueue := q }) _).completed = _ ∧ _ ∧
    (readSystem.after (readEvent { s with recvQueue := q }) _).recvQueue.Holds _
  rw [hstarted] at hrest ⊢
  exact completed_segments segs hincomplete hq hrest

/-- What a read event completes is in the queue after it exactly when there was room for
all of it at the start. -/
theorem readEvent_keeps_iff {q : CircularQueue TcpPacket} (segs : List (List UInt8))
    (h : readSystem.Reaches (fun _ _ => True) s) (hq : q.Holds items)
    (hfits : readSystem.Fits (fun _ _ => True) { s with recvQueue := q }
      (.readEvent :: segs.map fun d => .recv (.segment d))) :
    let s' := readSystem.after { s with recvQueue := q }
      (.readEvent :: segs.map fun d => .recv (.segment d))
    (∃ packets, s'.completed = s.completed ++ packets ∧ s'.recvQueue.Holds (items ++ packets)) ↔
      items.length + min segs.length (s.reader.packetsIn segs.flatten) ≤ q.maxSize := by
  obtain ⟨packets, hpackets, hlength, hholds⟩ :=
    completed_readEvent segs (incomplete_reaches h) hq hfits
  rw [← hlength, ← List.length_append]
  constructor
  · rintro ⟨packets', hpackets', hholds'⟩
    obtain rfl := List.append_cancel_left (hpackets'.symm.trans hpackets)
    have hsame := congrArg List.length (hholds'.unique hholds)
    rw [List.length_take] at hsame
    omega
  · intro hroom
    rw [List.take_of_length_le hroom] at hholds
    exact ⟨packets, hpackets, hholds⟩

theorem readEvent_keeps_iff_start :
    (∃ packets, (readSystem.after { start 16 2 with recvQueue := .create 0 }
        [.readEvent, .recv (.segment [0, 0, 0, 0, 0, 0, 0, 0]), .recv .again]).completed =
          [] ++ packets ∧
      (readSystem.after { start 16 2 with recvQueue := .create 0 }
        [.readEvent, .recv (.segment [0, 0, 0, 0, 0, 0, 0, 0]), .recv .again]).recvQueue.Holds
          ([] ++ packets)) ↔
      0 + min 2 ((start 16 2).reader.packetsIn [0, 0, 0, 0, 0, 0, 0, 0]) ≤ 1 :=
  readEvent_keeps_iff (s := start 16 2) [[0, 0, 0, 0, 0, 0, 0, 0], []] (.init ⟨16, 2, rfl⟩)
    (CircularQueue.holds_create 0) (by decide)

theorem fits_burst {q : CircularQueue TcpPacket} (hwaiting : s.phase = .waiting)
    (hincomplete : s.Incomplete) (hroom : q.full = false) (hspace : d.length ≤ s.reader.space)
    (hbytes : d ≠ [])
    (hcomplete : (s.reader.recvPacket.parse (s.reader.recvBuf.readable ++ d)).2.complete = true) :
    readSystem.Fits (fun _ _ => True) { s with recvQueue := q }
      (.readEvent :: [d, []].map fun d => .recv (.segment d)) := by
  have hevent : readEvent { s with recvQueue := q } =
      { s with recvQueue := q, phase := .reading } :=
    if_neg (by rw [hroom]; exact Bool.false_ne_true)
  obtain ⟨recvBuf, -, hturn⟩ :=
    recv_of_complete (s := { s with recvQueue := q, phase := .reading }) hincomplete hspace
      hcomplete
  have hoffers : s.reader.Offers (.segment d) := by
    rw [RecvResult.segment, if_neg hbytes]
    exact ⟨Nat.lt_of_lt_of_le (List.length_pos_of_ne_nil hbytes) hspace, hspace⟩
  refine ⟨hwaiting, trivial, ?_⟩
  change readSystem.Fits _ (readEvent { s with recvQueue := q }) _
  rw [hevent]
  refine ⟨⟨rfl, hoffers⟩, trivial, ?_⟩
  change readSystem.Fits _ (recv _ (.segment d)) [.recv .again]
  rw [hturn]
  exact ⟨⟨rfl, trivial⟩, trivial, trivial⟩

/-- A queue with room for one more packet, and two packets that arrive together. -/
theorem readEvent_drops :
    ¬ ∀ (s : Receiving) (items : List TcpPacket) (q : CircularQueue TcpPacket)
        (segs : List (List UInt8)),
      readSystem.Reaches (fun _ _ => True) s → q.Holds items →
      readSystem.Fits (fun _ _ => True) { s with recvQueue := q }
        (.readEvent :: segs.map fun d => .recv (.segment d)) →
      ∃ packets, (readSystem.after { s with recvQueue := q }
          (.readEvent :: segs.map fun d => .recv (.segment d))).completed =
            s.completed ++ packets ∧
        (readSystem.after { s with recvQueue := q }
          (.readEvent :: segs.map fun d => .recv (.segment d))).recvQueue.Holds
            (items ++ packets) := by
  intro h
  let bytes : List UInt8 := [0, 0, 0, 0, 0, 0, 0, 0]
  let waiting : List TcpPacket := List.replicate 1023 { buf := encode [] }
  have hwaiting : waiting.length = 1023 := List.length_replicate
  have hqueue : ∃ q : CircularQueue TcpPacket, q.maxSize = 1024 ∧ q.Holds waiting := by
    refine ⟨(CircularQueue.create 10).pushAll waiting, ?_, ?_⟩
    · rw [CircularQueue.maxSize_pushAll, CircularQueue.maxSize_create]
      rfl
    · have hholds := (CircularQueue.holds_create 10).pushAll waiting
      rw [List.nil_append, CircularQueue.maxSize_create,
        List.take_of_length_le (by rw [hwaiting]; decide)] at hholds
      exact hholds
  obtain ⟨q, hsize, hq⟩ := hqueue
  have hroom : q.full = false := by
    rw [← Bool.not_eq_true, hq.full_iff, hsize, hwaiting]
    decide
  have hspace : bytes.length ≤ (start 2048 10).reader.space := by
    rw [start, Reader.space_create]
    decide
  have hfits := fits_burst (s := start 2048 10) rfl rfl hroom hspace (by decide) (by decide)
  have hpackets : (start 2048 10).reader.packetsIn bytes = 2 := by
    rw [start, Reader.create, packetsIn_fresh, ConnectionBuffer.readable_create, List.nil_append,
      frames_twoEmpty]
    rfl
  obtain ⟨packets, hcompleted, hholds⟩ := h _ _ q [bytes, []] (.init ⟨2048, 10, rfl⟩) hq hfits
  obtain ⟨packets', hcompleted', hlength, hholds'⟩ :=
    completed_readEvent (s := start 2048 10) [bytes, []] rfl hq hfits
  obtain rfl := List.append_cancel_left (hcompleted.symm.trans hcompleted')
  change packets.length = min 2 ((start 2048 10).reader.packetsIn bytes) at hlength
  have hsame := congrArg List.length (hholds.unique hholds')
  rw [hpackets] at hlength
  rw [List.length_take, List.length_append, hwaiting, hsize, hlength] at hsame
  omega

end Receiving

end CasualGame.Net
