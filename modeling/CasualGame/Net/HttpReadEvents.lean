import CasualGame.Lib.While
import CasualGame.Net.HttpPacket
import CasualGame.Net.Reader

/-!
The read event of an HTTP connection: its loop, and the packets that it puts into the queue
of its manager.
-/

namespace CasualGame.Net

open Lib.While

/-- What `recv` finds at a socket that does not block: so many bytes at the most of what has
been sent, that the other side has closed, or an error. -/
inductive Arrival
  | bytes (most : Nat)
  | closed
  | fault

/-- A connection as its read events see it. -/
structure HttpReader (π : Type) where
  /-- What the other side sends and is not received yet. -/
  socket : List UInt8
  recvBuf : ConnectionBuffer := .create 2048
  recvPacket : HttpPacket π
  /-- What `push` of `m_recvQueue` has been called with, which may find no room for it. -/
  pushed : List (HttpPacket π) := []
  erased : Bool := false

/-- Whether `m_recvQueue` is full when the event comes, and what the calls of `recv` find
one after the other. -/
structure HttpReadEvent where
  full : Bool
  arrivals : Nat → Arrival

namespace HttpReader

variable {π : Type} (P : HttpParser π)

def start (type : HttpMsgType) (bytes : List UInt8) : HttpReader π where
  socket := bytes
  recvPacket := .create P type

section Code

variable (s : HttpReader π)

def answer : Arrival → RecvResult
  | .bytes most => .segment (s.socket.take (min most (s.recvBuf.writeable 0).1.second))
  | .closed => .data []
  | .fault => .fault

/-- A round of the loop. Both exceptions erase the connection. -/
def readRound (arrival : Arrival) : ForInStep (HttpReader π) :=
  match BufferedConnection.tryRecv s.recvBuf (s.answer arrival) with
  | .error _ => .done { s with erased := true }
  | .ok (nonempty, recvBuf) =>
      let socket := s.socket.drop (s.answer arrival).bytes.length
      if nonempty then
        let (parsedSize, packet) := s.recvPacket.parse P recvBuf.readable
        let recvBuf := (recvBuf.commitRead parsedSize).2
        if packet.complete then
          .yield { s with
            socket := socket
            recvBuf := recvBuf
            recvPacket := .create P packet.msgType
            pushed := s.pushed ++ [packet] }
        else .done { s with socket := socket, recvBuf := recvBuf, recvPacket := packet }
      else .done { s with socket := socket, recvBuf := recvBuf }

/-- The read event over so many rounds of its loop at the most. -/
def readEvent (event : HttpReadEvent) (rounds : Nat) : Option (HttpReader π) :=
  if s.erased || event.full then some s
  else whileLoop (fun arrival s => s.readRound P arrival) event.arrivals rounds s

end Code

/-- The read event ends with `s'`, after any number of rounds that is large enough. -/
def EventEnds (event : HttpReadEvent) (s s' : HttpReader π) : Prop :=
  ∃ enough, ∀ rounds ≥ enough, s.readEvent P event rounds = some s'

/-- Every packet that has been pushed is one on which `onPacketComplete` has run. -/
def PushedParsed (s : HttpReader π) : Prop :=
  ∀ packet ∈ s.pushed, .messageComplete ∈ packet.ran

/-- Every event ends, and has only pushed parsed packets when it does. -/
def DeliversParsed : HttpReader π → List HttpReadEvent → Prop
  | _, [] => True
  | s, event :: events =>
      ∃ s', EventEnds P event s s' ∧ PushedParsed s' ∧ DeliversParsed s' events

end HttpReader

/-- The event finds that nothing has come, or that nothing will. -/
def Arrival.Idle : Arrival → Prop
  | .bytes most => most = 0
  | .closed => True
  | .fault => True

/-- What the event finds takes the connection away. -/
def Arrival.Ending : Arrival → Prop
  | .bytes _ => False
  | .closed => True
  | .fault => True

/-- No event that looks at the socket finds a byte there, as long as the connection is open. -/
def NothingComes : List HttpReadEvent → Prop
  | [] => True
  | event :: events =>
      if event.full then NothingComes events
      else (event.arrivals 0).Idle ∧ ((event.arrivals 0).Ending ∨ NothingComes events)

namespace HttpReader

variable {π : Type} {P : HttpParser π} {s s' : HttpReader π} {event : HttpReadEvent}
  {arrival : Arrival}

theorem eventEnds_of_skipped (h : (s.erased || event.full) = true) :
    EventEnds P event s s' ↔ s = s' := by
  have hskip : ∀ rounds, s.readEvent P event rounds = some s := fun rounds => if_pos h
  constructor
  · rintro ⟨enough, hends⟩
    exact Option.some.inj ((hskip enough).symm.trans (hends enough (Nat.le_refl _)))
  · rintro rfl
    exact ⟨0, fun rounds _ => hskip rounds⟩

theorem eventEnds_of_read (h : (s.erased || event.full) = false) :
    EventEnds P event s s' ↔
      Ends (fun arrival s => readRound P s arrival) event.arrivals s s' := by
  have hread : ∀ rounds, s.readEvent P event rounds =
      whileLoop (fun arrival s => readRound P s arrival) event.arrivals rounds s :=
    fun rounds => if_neg (by rw [h]; exact Bool.false_ne_true)
  rw [EventEnds, Ends]
  simp only [hread]

theorem pushed_of_round : s.pushed <+: (readRound P s arrival).value.pushed := by
  rw [readRound]
  split
  · exact List.prefix_rfl
  · dsimp only
    split_ifs
    · exact List.prefix_append _ _
    · exact List.prefix_rfl
    · exact List.prefix_rfl

theorem pushed_of_ends {arrivals : Nat → Arrival}
    (h : Ends (fun arrival s => readRound P s arrival) arrivals s s') : s.pushed <+: s'.pushed := by
  have hround : ∀ arrival (t : HttpReader π), s.pushed <+: t.pushed →
      s.pushed <+: (readRound P t arrival).value.pushed :=
    fun arrival t ht => ht.trans pushed_of_round
  refine @Ends.invariant _ _ _ _ _ _ (fun t => s.pushed <+: t.pushed)
    (fun t => s.pushed <+: t.pushed) h ?_ ?_ List.prefix_rfl
  · intro arrival t t' ht hyield
    have := hround arrival t ht
    rwa [hyield] at this
  · intro arrival t t' ht hdone
    have := hround arrival t ht
    rwa [hdone] at this

/-- A complete packet is being received, and there are bytes for it. -/
structure Spinning (s : HttpReader π) : Prop where
  complete : s.recvPacket.complete = true
  readable : s.recvBuf.readable ≠ []

theorem round_of_complete (hcomplete : s.recvPacket.complete = true) {most : Nat}
    (hbytes :
      s.recvBuf.readable ++ s.socket.take (min most (s.recvBuf.writeable 0).1.second) ≠ []) :
    ∃ t, readRound P s (.bytes most) = .yield t ∧ t.pushed = s.pushed ++ [s.recvPacket] ∧
      Spinning t := by
  have hfits : (s.socket.take (min most (s.recvBuf.writeable 0).1.second)).length ≤
      (Reader.space { recvBuf := s.recvBuf }) := by
    rw [List.length_take]
    exact (Nat.min_le_left _ _).trans (Nat.min_le_right _ _)
  obtain ⟨nonempty, recvBuf, hrecv, hreadable, -, hempty⟩ := Reader.tryRecv_segment hfits
  rw [← hreadable] at hbytes
  have hnonempty : nonempty = true := by
    rw [← Bool.not_eq_false]
    exact fun hnot => hbytes (hempty hnot)
  rw [hnonempty] at hrecv
  have hrecv' : BufferedConnection.tryRecv s.recvBuf (s.answer (.bytes most)) =
      .ok (true, recvBuf) := hrecv
  have hparse := HttpPacket.parse_of_complete (P := P) hcomplete recvBuf.readable
  refine ⟨{ s with
    socket := s.socket.drop (s.answer (.bytes most)).bytes.length
    recvBuf := (recvBuf.commitRead 0).2
    recvPacket := .create P s.recvPacket.msgType
    pushed := s.pushed ++ [s.recvPacket] }, ?_, rfl, rfl, ?_⟩
  · rw [readRound, hrecv']
    dsimp only
    rw [if_pos rfl, hparse]
    exact if_pos hcomplete
  · rw [ConnectionBuffer.readable_commitRead (Nat.zero_le _), List.drop_zero]
    exact hbytes

section Start

variable {type : HttpMsgType} {bytes : List UInt8} {most : Nat}

theorem writeable_create {sizeLimit : Nat} (h : 0 < sizeLimit) :
    (ConnectionBuffer.create sizeLimit).writeable 0 = (⟨0, sizeLimit⟩, .create sizeLimit) := by
  have hcapacity := ConnectionBuffer.capacity_create sizeLimit
  rw [ConnectionBuffer.writeable, hcapacity, if_neg]
  · rfl
  · change ¬ (_ < 0 ∨ sizeLimit = 0)
    omega

theorem writeable_start :
    (start P type bytes).recvBuf.writeable 0 = (⟨0, 2048⟩, (start P type bytes).recvBuf) :=
  writeable_create (Nat.succ_pos 2047)

theorem round_of_nothing (P : HttpParser π) (type : HttpMsgType) (h : bytes = [] ∨ most = 0) :
    readRound P (start P type bytes) (.bytes most) = .done (start P type bytes) := by
  have hanswer : answer (start P type bytes) (.bytes most) = .again := by
    apply if_pos
    change bytes.take _ = []
    rcases h with rfl | rfl
    · exact List.take_nil
    · rw [Nat.zero_min, List.take_zero]
  have hrecv : BufferedConnection.tryRecv (start P type bytes).recvBuf .again =
      .ok (false, (start P type bytes).recvBuf) := by
    rw [BufferedConnection.tryRecv, writeable_start]
    rfl
  rw [readRound, hanswer, hrecv]
  rfl

theorem round_of_ending (h : arrival.Ending) :
    readRound P (start P type bytes) arrival =
      .done { start P type bytes with erased := true } := by
  have hrecv : ∃ e, BufferedConnection.tryRecv (start P type bytes).recvBuf
      ((start P type bytes).answer arrival) = .error e := by
    cases arrival with
    | bytes => exact h.elim
    | closed =>
        refine ⟨.readClosedConnection, ?_⟩
        rw [BufferedConnection.tryRecv, writeable_start]
        rfl
    | fault =>
        refine ⟨.sysError, ?_⟩
        rw [BufferedConnection.tryRecv, writeable_start]
        rfl
  obtain ⟨e, hrecv⟩ := hrecv
  rw [readRound, hrecv]

theorem round_of_bytes (P : HttpParser π) (type : HttpMsgType) (hbytes : bytes ≠ [])
    (hmost : most ≠ 0) :
    ∃ t, readRound P (start P type bytes) (.bytes most) = .yield t ∧
      t.pushed = [.create P type] ∧ Spinning t := by
  have hpiece : bytes.take (min most 2048) ≠ [] := by
    intro h
    rcases List.take_eq_nil_iff.mp h with hnone | hnil
    · omega
    · exact hbytes hnil
  refine round_of_complete rfl ?_
  rw [writeable_start]
  exact hpiece

end Start

/-- Once bytes have been received, the event does not end while the socket stays open. -/
theorem readEvent_endless {type : HttpMsgType} {bytes : List UInt8} {most : Nat → Nat}
    (hbytes : bytes ≠ []) (hmost : most 0 ≠ 0) (rounds : Nat) :
    (start P type bytes).readEvent P ⟨false, fun n => .bytes (most n)⟩ rounds = none := by
  have hyield : ∀ n (t : HttpReader π), Spinning t →
      ∃ t', readRound P t (.bytes (most n)) = .yield t' ∧ Spinning t' := by
    intro n t ht
    obtain ⟨t', hround, -, ht'⟩ :=
      round_of_complete (P := P) ht.complete (List.append_ne_nil_of_left_ne_nil ht.readable _)
    exact ⟨t', hround, ht'⟩
  obtain ⟨t, hround, -, ht⟩ := round_of_bytes P type hbytes hmost
  have hread : (start P type bytes).readEvent P ⟨false, fun n => .bytes (most n)⟩ rounds =
      whileLoop (fun arrival s => readRound P s arrival) (fun n => .bytes (most n)) rounds
        (start P type bytes) := if_neg Bool.false_ne_true
  rw [hread]
  cases rounds with
  | zero => rfl
  | succ rounds =>
      rw [whileLoop, hround]
      exact whileLoop_eq_none (fun n => hyield (n + 1)) ht rounds

section Delivers

variable {type : HttpMsgType} {bytes : List UInt8} {events : List HttpReadEvent}

theorem pushedParsed_of_nil (h : s.pushed = []) : PushedParsed s := by
  intro packet hpacket
  rw [h] at hpacket
  exact absurd hpacket List.not_mem_nil

theorem deliversParsed_of_erased (herased : s.erased = true) (hpushed : PushedParsed s) :
    DeliversParsed P s events := by
  induction events with
  | nil => trivial
  | cons event events ih =>
      have hskip : (s.erased || event.full) = true := by rw [herased, Bool.true_or]
      exact ⟨s, (eventEnds_of_skipped hskip).mpr rfl, hpushed, ih⟩

theorem deliversParsed_cons (hends : EventEnds P event s s')
    (hunique : ∀ t, EventEnds P event s t → t = s') (hpushed : PushedParsed s') :
    DeliversParsed P s (event :: events) ↔ DeliversParsed P s' events := by
  constructor
  · rintro ⟨t, ht, -, hrest⟩
    rwa [hunique t ht] at hrest
  · exact fun h => ⟨s', hends, hpushed, h⟩

theorem deliversParsed_of_done (hfull : (s.erased || event.full) = false)
    (hround : readRound P s (event.arrivals 0) = .done s') (hpushed : PushedParsed s') :
    DeliversParsed P s (event :: events) ↔ DeliversParsed P s' events := by
  have hends : Ends (fun arrival s => readRound P s arrival) event.arrivals s s' := .done hround
  refine deliversParsed_cons ((eventEnds_of_read hfull).mpr hends) ?_ hpushed
  exact fun t ht => ((eventEnds_of_read hfull).mp ht).unique hends

theorem deliversParsed_of_ending (hfull : event.full = false)
    (hending : (event.arrivals 0).Ending) :
    DeliversParsed P (start P type bytes) (event :: events) := by
  have hread : ((start P type bytes).erased || event.full) = false := hfull
  rw [deliversParsed_of_done hread (round_of_ending hending) (pushedParsed_of_nil rfl)]
  exact deliversParsed_of_erased rfl (pushedParsed_of_nil rfl)

/-- A packet that has been pushed as it was created is not one that has been parsed. -/
theorem not_deliversParsed (hfull : (s.erased || event.full) = false) {t : HttpReader π}
    (hround : readRound P s (event.arrivals 0) = .yield t)
    (hpushed : t.pushed = [.create P type]) : ¬ DeliversParsed P s (event :: events) := by
  rintro ⟨s', hends, hparsed, -⟩
  have hgrows : t.pushed <+: s'.pushed :=
    pushed_of_ends (((eventEnds_of_read hfull).mp hends).of_yield hround)
  rw [hpushed] at hgrows
  exact absurd (hparsed _ (hgrows.subset (List.mem_singleton.mpr rfl))) List.not_mem_nil

/-- A connection of which every read event ends, with only parsed packets in the queue, is
one on which no event finds anything to receive. -/
theorem deliversParsed_iff :
    DeliversParsed P (start P type bytes) events ↔ bytes = [] ∨ NothingComes events := by
  induction events with
  | nil => exact iff_of_true trivial (.inr trivial)
  | cons event events ih =>
      rw [NothingComes]
      cases hfull : event.full with
      | true =>
          have hskip : ((start P type bytes).erased || event.full) = true := hfull
          rw [deliversParsed_cons ((eventEnds_of_skipped hskip).mpr rfl)
            (fun t ht => ((eventEnds_of_skipped hskip).mp ht).symm) (pushedParsed_of_nil rfl),
            if_pos rfl]
          exact ih
      | false =>
          have hread : ((start P type bytes).erased || event.full) = false := hfull
          rw [if_neg Bool.false_ne_true]
          cases harrival : event.arrivals 0 with
          | closed =>
              exact iff_of_true (deliversParsed_of_ending hfull (by rw [harrival]; trivial))
                (.inr ⟨trivial, .inl trivial⟩)
          | fault =>
              exact iff_of_true (deliversParsed_of_ending hfull (by rw [harrival]; trivial))
                (.inr ⟨trivial, .inl trivial⟩)
          | bytes most =>
              simp only [Arrival.Idle, Arrival.Ending, false_or]
              by_cases hnothing : bytes = [] ∨ most = 0
              · have hround := round_of_nothing P type hnothing
                rw [← harrival] at hround
                rw [deliversParsed_of_done hread hround (pushedParsed_of_nil rfl), ih, or_and_left,
                  and_iff_right hnothing]
              · obtain ⟨hbytes, hmost⟩ := not_or.mp hnothing
                obtain ⟨t, hround, hpushed, -⟩ := round_of_bytes P type hbytes hmost
                rw [← harrival] at hround
                exact iff_of_false (not_deliversParsed hread hround hpushed)
                  fun h => hnothing (h.imp_right And.left)

end Delivers

/-- `GET / HTTP/1.1`, all of it at once. -/
theorem bareRequest_not_deliversParsed :
    ¬ DeliversParsed bareRequests
      (start bareRequests .request
        [71, 69, 84, 32, 47, 32, 72, 84, 84, 80, 47, 49, 46, 49, 13, 10, 13, 10])
      [⟨false, fun _ => .bytes 2048⟩] := by
  obtain ⟨t, hround, hpushed, -⟩ :=
    round_of_bytes bareRequests .request (List.cons_ne_nil _ _) (Nat.succ_ne_zero 2047)
  exact not_deliversParsed rfl hround hpushed

end HttpReader

end CasualGame.Net
