import CasualGame.Lib.Backlog
import CasualGame.Net.ReadEvents

/-!
The close of a connection: the packets of its stream that are in the queue by then.
-/

namespace CasualGame.Net

open Lib.Backlog
open Lib.Framing
open Lib.Run
open TcpPacket

/-- The bytes of every `recv` on the open connection; none for one that had none. -/
def noteRecv (_ : Receiving) (act : ReadAct) (_ : Receiving) (segs : List (List UInt8)) :
    List (List UInt8) :=
  match act with
  | .recv .again => segs ++ [[]]
  | .recv (.data bytes) => if bytes = [] then segs else segs ++ [bytes]
  | _ => segs

def recordedReads : System (Receiving × List (List UInt8)) ReadAct Empty :=
  readSystem.chronicle [] noteRecv

/-- How many packets lie completely in the first results. -/
def arrived (segs : List (List UInt8)) (turns : Nat) : Nat :=
  (framing.frames (segs.take turns).flatten).length

/-- The main thread has had, or will get, everything that was completed. -/
def Receiving.Kept (s : Receiving) : Prop :=
  ∃ items, s.recvQueue.Holds items ∧ s.taken ++ items = s.completed

/-- Every byte is part of a packet that is completed or of what is still pending. -/
structure InStep (s : Receiving) (segs : List (List UInt8)) (contents : List (List UInt8)) :
    Prop where
  completed : s.completed = contents.map fun c => { buf := encode c }
  sizes : ∀ c ∈ contents, c.length + 4 < 2 ^ 32
  stream : segs.flatten = contents.flatMap encode ++ s.reader.pending
  head : s.reader.recvPacket.Partial
  served : contents.length = served (arrived segs) segs.length

/-- The stream has come to a length that no packet can have, and nothing before it is
missing. -/
structure Overrun (s : Receiving) (segs : List (List UInt8)) : Prop where
  completed : framing.frames segs.flatten <+: s.completed.map TcpPacket.content
  oversized : Oversized (framing.rest segs.flatten)
  served : served (arrived segs) segs.length = arrived segs segs.length

section Arrivals

variable {segs : List (List UInt8)} {d : List UInt8}

theorem arrived_length (segs : List (List UInt8)) :
    arrived segs segs.length = (framing.frames segs.flatten).length := by
  rw [arrived, List.take_length]

theorem arrived_concat {turns : Nat} (h : turns ≤ segs.length) :
    arrived (segs ++ [d]) turns = arrived segs turns := by
  rw [arrived, arrived, List.take_append_of_le_length h]

theorem served_concat (segs : List (List UInt8)) (d : List UInt8) :
    served (arrived (segs ++ [d])) (segs ++ [d]).length =
      min (served (arrived segs) segs.length + 1)
        (framing.frames (segs ++ [d]).flatten).length := by
  have hbefore : served (arrived (segs ++ [d])) segs.length =
      served (arrived segs) segs.length :=
    served_congr fun _ hk => arrived_concat hk
  rw [← arrived_length, List.length_append, List.length_singleton, served, hbefore]

theorem InStep.frames {s : Receiving} {contents : List (List UInt8)}
    (h : InStep s segs contents) (t : List UInt8) :
    framing.frames (segs.flatten ++ t) = contents ++ framing.frames (s.reader.pending ++ t) := by
  rw [h.stream, List.append_assoc]
  exact framing.frames_encoded (fun c hc => cut_encode_append (h.sizes c hc)) _

theorem InStep.rest {s : Receiving} {contents : List (List UInt8)}
    (h : InStep s segs contents) (t : List UInt8) :
    framing.rest (segs.flatten ++ t) = framing.rest (s.reader.pending ++ t) := by
  rw [h.stream, List.append_assoc]
  exact framing.rest_encoded (fun c hc => cut_encode_append (h.sizes c hc)) _

end Arrivals

section Turns

variable {s : Receiving} {segs contents : List (List UInt8)} {d : List UInt8}

theorem flatten_concat (segs : List (List UInt8)) (d : List UInt8) :
    (segs ++ [d]).flatten = segs.flatten ++ d := by
  rw [List.flatten_append, List.flatten_singleton]

theorem InStep.recv_of_cut {c rest : List UInt8} (h : InStep s segs contents)
    (hfits : d.length ≤ s.reader.space)
    (hcut : cutPacket (s.reader.pending ++ d) = some (c, rest)) :
    InStep (s.recv (.segment d)) (segs ++ [d]) (contents ++ [c]) := by
  obtain ⟨hbytes, hsize⟩ := cutPacket_eq_some.mp hcut
  obtain ⟨recvBuf, -, hreadable, -, hpass⟩ := Reader.pass_of_cut h.head hfits hcut
  have hturn : s.recv (.segment d) = { s with
      reader := { recvBuf := recvBuf }
      recvQueue := (s.recvQueue.push { buf := encode c }).2
      completed := s.completed ++ [{ buf := encode c }] } := by
    rw [Receiving.recv, hpass]
  rw [hturn]
  constructor
  · rw [List.map_append, ← h.completed]
    rfl
  · intro c' hc'
    rcases List.mem_append.mp hc' with hc' | hc'
    · exact h.sizes c' hc'
    · obtain rfl := List.mem_singleton.mp hc'
      exact hsize
  · rw [flatten_concat, h.stream, List.append_assoc, hbytes, List.flatMap_append,
      List.append_assoc, List.flatMap_singleton, Reader.pending, hreadable, List.nil_append]
  · exact partial_empty
  · rw [served_concat, ← h.served, flatten_concat, h.frames, framing.frames_of_some hcut,
      List.length_append, List.length_append, List.length_singleton, List.length_cons]
    omega

theorem InStep.recv_of_uncut (h : InStep s segs contents) (hfits : d.length ≤ s.reader.space)
    (hcut : cutPacket (s.reader.pending ++ d) = none)
    (hsize : ¬ Oversized (s.reader.pending ++ d)) :
    InStep (s.recv (.segment d)) (segs ++ [d]) contents := by
  obtain ⟨reader, hpass, hpiece, hpending, -⟩ := Reader.pass_of_uncut h.head hfits hcut hsize
  have hturn : s.recv (.segment d) = { s with reader := reader, phase := .waiting } := by
    rw [Receiving.recv, hpass]
  rw [hturn]
  constructor
  · exact h.completed
  · exact h.sizes
  · rw [flatten_concat, h.stream, List.append_assoc, hpending]
  · exact hpiece
  · rw [served_concat, ← h.served, flatten_concat, h.frames, framing.frames_of_none hcut,
      List.append_nil]
    omega

theorem completed_recv (s : Receiving) (answer : RecvResult) :
    s.completed <+: (s.recv answer).completed := by
  rw [Receiving.recv]
  split
  · exact List.prefix_rfl
  · exact List.prefix_rfl
  · exact List.prefix_append _ _

theorem InStep.contents_eq (h : InStep s segs contents) :
    s.completed.map TcpPacket.content = contents := by
  rw [h.completed, List.map_map]
  exact List.map_id'' (fun c => by
    have := drop_head_encode c []
    rwa [List.append_nil, List.append_nil] at this) contents

theorem InStep.recv_of_oversized (h : InStep s segs contents)
    (hsize : Oversized (s.reader.pending ++ d)) :
    Overrun (s.recv (.segment d)) (segs ++ [d]) := by
  have hframes : framing.frames (segs ++ [d]).flatten = contents := by
    rw [flatten_concat, h.frames, framing.frames_of_none hsize.cut, List.append_nil]
  constructor
  · rw [hframes, ← h.contents_eq]
    exact (completed_recv s _).map _
  · rwa [flatten_concat, h.rest, framing.rest_of_none hsize.cut]
  · rw [served_concat, arrived_length, ← h.served, hframes]
    omega

theorem Overrun.recv (h : Overrun s segs) (answer : RecvResult) :
    Overrun (s.recv answer) (segs ++ [d]) := by
  have hover := h.oversized.append d
  have hframes : framing.frames (segs ++ [d]).flatten = framing.frames segs.flatten := by
    rw [flatten_concat, framing.frames_append, framing.frames_of_none hover.cut, List.append_nil]
  constructor
  · rw [hframes]
    exact h.completed.trans ((completed_recv s answer).map _)
  · rwa [flatten_concat, framing.rest_append, framing.rest_of_none hover.cut]
  · rw [served_concat, h.served, arrived_length, arrived_length, hframes]
    omega

end Turns

section Following

variable {s s' : Receiving} {segs contents : List (List UInt8)}

theorem InStep.congr (h : InStep s segs contents) (hreader : s'.reader = s.reader)
    (hcompleted : s'.completed = s.completed) : InStep s' segs contents := by
  constructor
  · rw [hcompleted]
    exact h.completed
  · exact h.sizes
  · rw [hreader]
    exact h.stream
  · rw [hreader]
    exact h.head
  · exact h.served

theorem Overrun.congr (h : Overrun s segs) (hcompleted : s'.completed = s.completed) :
    Overrun s' segs := by
  refine ⟨?_, h.oversized, h.served⟩
  rw [hcompleted]
  exact h.completed

/-- Where the loop is in the stream. -/
def Follows (s : Receiving) (segs : List (List UInt8)) : Prop :=
  (∃ contents, InStep s segs contents) ∨ Overrun s segs

theorem Follows.congr (h : Follows s segs) (hreader : s'.reader = s.reader)
    (hcompleted : s'.completed = s.completed) : Follows s' segs := by
  rcases h with ⟨contents, h⟩ | h
  · exact Or.inl ⟨contents, h.congr hreader hcompleted⟩
  · exact Or.inr (h.congr hcompleted)

theorem Follows.recv {d : List UInt8} (h : Follows s segs) (hfits : d.length ≤ s.reader.space) :
    Follows (s.recv (.segment d)) (segs ++ [d]) := by
  rcases h with ⟨contents, h⟩ | h
  · cases hcut : cutPacket (s.reader.pending ++ d) with
    | some cut => exact Or.inl ⟨_, h.recv_of_cut hfits hcut⟩
    | none =>
        by_cases hsize : Oversized (s.reader.pending ++ d)
        · exact Or.inr (h.recv_of_oversized hsize)
        · exact Or.inl ⟨_, h.recv_of_uncut hfits hcut hsize⟩
  · exact Or.inr (h.recv _)

theorem Receiving.Kept.recv (h : s.Kept) (hroom : s.recvQueue.full = false)
    (answer : RecvResult) : (s.recv answer).Kept := by
  obtain ⟨items, hholds, htaken⟩ := h
  rw [Receiving.recv]
  split
  · exact ⟨items, hholds, htaken⟩
  · exact ⟨items, hholds, htaken⟩
  · have hlt : items.length < s.recvQueue.maxSize := by
      apply Nat.lt_of_le_of_ne hholds.fits
      intro hfull
      rw [hholds.full_iff.mpr hfull] at hroom
      exact Bool.noConfusion hroom
    refine ⟨_, (hholds.push_of_lt hlt _).2, ?_⟩
    rw [← htaken, List.append_assoc]

theorem Receiving.Kept.getPacket (h : s.Kept) : s.getPacket.Kept := by
  obtain ⟨items, hholds, htaken⟩ := h
  cases items with
  | nil =>
      have hpop := hholds.pop_nil
      rw [Receiving.getPacket, hpop]
      exact ⟨[], hholds, htaken⟩
  | cons item items =>
      obtain ⟨hfirst, hrest⟩ := hholds.pop_cons
      have hpop : s.recvQueue.pop = (some item, s.recvQueue.pop.2) := by rw [← hfirst]
      rw [Receiving.getPacket, hpop]
      exact ⟨items, hrest, by rw [← htaken, List.append_assoc, List.singleton_append]⟩

theorem getPacket_reader (s : Receiving) :
    s.getPacket.reader = s.reader ∧ s.getPacket.completed = s.completed ∧
      s.getPacket.phase = s.phase := by
  rw [Receiving.getPacket]
  split <;> exact ⟨rfl, rfl, rfl⟩

theorem recv_of_closed {answer : RecvResult} (hspace : 0 < s.reader.space)
    (hclosed : answer = .data [] ∨ answer = .fault) :
    s.recv answer = { s with phase := .erased } := by
  have hroom : ¬ (s.reader.recvBuf.writeable 0).1.second = 0 := Nat.ne_of_gt hspace
  have hthrows : ∃ e, s.reader.pass answer = .error e := by
    rcases hclosed with rfl | rfl
    · refine ⟨.readClosedConnection, ?_⟩
      simp only [Reader.pass, BufferedConnection.tryRecv, if_neg hroom, List.take_nil]
      rfl
    · refine ⟨.sysError, ?_⟩
      simp only [Reader.pass, BufferedConnection.tryRecv, if_neg hroom]
      rfl
  obtain ⟨e, hthrows⟩ := hthrows
  rw [Receiving.recv, hthrows]

theorem Receiving.Kept.closed {items : List TcpPacket} (h : s.Kept) (hspace : 0 < s.reader.space)
    (hholds : (s.step (.recv (.data []))).recvQueue.Holds items) :
    (s.step (.recv (.data []))).taken ++ items = s.completed := by
  obtain ⟨items', hholds', htaken⟩ := h
  have hstep : s.step (.recv (.data [])) = { s with phase := .erased } :=
    recv_of_closed hspace (Or.inl rfl)
  rw [hstep] at hholds ⊢
  rw [hholds.unique hholds', htaken]

/-- As long as the connection is open. -/
def Followed (x : Receiving × List (List UInt8)) : Prop :=
  x.1.phase ≠ .erased → x.1.Kept ∧ Follows x.1 x.2

theorem followed_recv {answer : RecvResult} (h : Followed (s, segs)) (hphase : s.phase = .reading)
    (hoffers : s.reader.Offers answer) (hroom : s.recvQueue.full = false) :
    Followed (s.recv answer, noteRecv s (.recv answer) (s.recv answer) segs) := by
  have hopen : s.phase ≠ .erased := by
    rw [hphase]
    exact Phase.noConfusion
  obtain ⟨hkept, hfollows⟩ := h hopen
  intro herased
  refine ⟨hkept.recv hroom answer, ?_⟩
  cases answer with
  | again => exact hfollows.recv (d := []) (Nat.zero_le _)
  | data bytes =>
      by_cases hnone : bytes = []
      · subst hnone
        rw [recv_of_closed hoffers.1 (Or.inl rfl)] at herased
        exact absurd rfl herased
      · have hturn := hfollows.recv (d := bytes) hoffers.2
        rw [RecvResult.segment, if_neg hnone] at hturn
        simp only [noteRecv, if_neg hnone]
        exact hturn
  | fault =>
      rw [recv_of_closed hoffers (Or.inr rfl)] at herased
      exact absurd rfl herased

theorem followed_reaches (h : recordedReads.Reaches (fun x _ => x.1.recvQueue.full = false)
    (s, segs)) (hopen : s.phase ≠ .erased) : s.Kept ∧ Follows s segs := by
  have hfollowed : Followed (s, segs) := by
    refine h.invariant ?_ ?_
    · rintro ⟨s, segs⟩ ⟨⟨sizeLimit, powArg, rfl⟩, rfl⟩ -
      refine ⟨⟨[], CircularQueue.holds_create powArg, rfl⟩, Or.inl ⟨[], ?_⟩⟩
      exact ⟨rfl, by simp, by simp [Reader.pending, Receiving.start, Reader.create], partial_empty,
        by simp [served, arrived, framing.frames_of_none (s := []) (by decide)]⟩
    · rintro ⟨s, segs⟩ act ⟨s', segs'⟩ hinv hallowed hroom hstep
      obtain ⟨hread, hnotes⟩ := System.chronicle_step.mp hstep
      obtain rfl : s.step act = s' := Except.ok.inj hread
      obtain rfl : segs' = noteRecv s act (s.step act) segs := hnotes
      cases act with
      | readEvent =>
          have hsame : ∃ phase, s.readEvent = { s with phase := phase } := by
            rw [Receiving.readEvent]
            split_ifs
            · exact ⟨s.phase, rfl⟩
            · exact ⟨.reading, rfl⟩
          obtain ⟨phase, hsame⟩ := hsame
          have hopen : s.phase ≠ .erased := by
            rw [show s.phase = .waiting from hallowed]
            exact Phase.noConfusion
          obtain ⟨hkept, hfollows⟩ := hinv hopen
          change Followed (s.readEvent, segs)
          rw [hsame]
          exact fun _ => ⟨hkept, hfollows.congr rfl rfl⟩
      | recv answer => exact followed_recv hinv hallowed.1 hallowed.2 hroom
      | getPacket =>
          obtain ⟨hreader, hcompleted, hphase⟩ := getPacket_reader s
          intro hopen
          obtain ⟨hkept, hfollows⟩ := hinv (hphase ▸ hopen)
          exact ⟨hkept.getPacket, hfollows.congr hreader hcompleted⟩
  exact hfollowed hopen

/-- The packets of the stream are all in the queue when its end is read, exactly when no
last stretch of results brought more of them than it has results: a turn of the loop takes
one packet, and there is no turn after the end. -/
theorem closed_delivers_iff
    (h : recordedReads.Reaches (fun x _ => x.1.recvQueue.full = false) (s, segs))
    (hclose : recordedReads.Allowed (s, segs) (.recv (.data []))) :
    let s' := s.step (.recv (.data []))
    s'.phase = .erased ∧
      ((∃ items, s'.recvQueue.Holds items ∧
          framing.frames segs.flatten <+: (s'.taken ++ items).map TcpPacket.content) ↔
        ∀ turns ≤ segs.length,
          arrived segs segs.length ≤ arrived segs turns + (segs.length - turns)) := by
  obtain ⟨hreading, hspace, -⟩ := (hclose : s.phase = .reading ∧ s.reader.Offers (.data []))
  have hopen : s.phase ≠ .erased := by
    rw [hreading]
    exact Phase.noConfusion
  obtain ⟨hkept, hfollows⟩ : s.Kept ∧ Follows s segs := followed_reaches h hopen
  have hstep : s.step (.recv (.data [])) = { s with phase := .erased } :=
    recv_of_closed hspace (Or.inl rfl)
  have hdelivered : (∃ items, (s.step (.recv (.data []))).recvQueue.Holds items ∧
      framing.frames segs.flatten <+:
        ((s.step (.recv (.data []))).taken ++ items).map TcpPacket.content) ↔
      framing.frames segs.flatten <+: s.completed.map TcpPacket.content := by
    constructor
    · rintro ⟨items, hholds, hprefix⟩
      rwa [hkept.closed hspace hholds] at hprefix
    · intro hprefix
      obtain ⟨items, hholds, htaken⟩ := hkept
      rw [hstep]
      exact ⟨items, hholds, by rwa [htaken]⟩
  refine ⟨by rw [hstep], ?_⟩
  rw [hdelivered, ← served_eq_iff]
  rcases hfollows with ⟨contents, hstep⟩ | hover
  · have hframes := hstep.frames []
    rw [List.append_nil, List.append_nil] at hframes
    rw [hstep.contents_eq, ← hstep.served, arrived_length, hframes, List.length_append]
    constructor
    · intro hprefix
      have := hprefix.length_le
      rw [List.length_append] at this
      omega
    · intro hall
      have hnone : framing.frames s.reader.pending = [] :=
        List.eq_nil_of_length_eq_zero (by omega)
      exact ⟨[], by rw [hnone, List.append_nil, List.append_nil]⟩
  · exact ⟨fun _ => hover.served, fun _ => hover.completed⟩

end Following

section TwoAtOnce

instance (x : Receiving × List (List UInt8)) (act : ReadAct) :
    Decidable (recordedReads.Allowed x act) :=
  inferInstanceAs (Decidable (x.1.Allowed act))

/-- Two packets have come in one segment. -/
def twoAtOnce : Receiving × List (List UInt8) :=
  recordedReads.after (Receiving.start 2048 10, [])
    [.readEvent, .recv (.data [0, 0, 0, 0, 0, 0, 0, 0])]

theorem twoAtOnce_eq :
    twoAtOnce.2 = [[0, 0, 0, 0, 0, 0, 0, 0]] ∧
      twoAtOnce.1.completed = [{ buf := encode [] }] := by
  decide +kernel

theorem reaches_twoAtOnce :
    recordedReads.Reaches (fun x _ => x.1.recvQueue.full = false)
      (twoAtOnce.1, twoAtOnce.2) := by
  rw [Prod.mk.eta]
  exact .after (.init ⟨⟨2048, 10, rfl⟩, rfl⟩) (by decide +kernel)

theorem closed_delivers_iff_twoAtOnce :
    (twoAtOnce.1.step (.recv (.data []))).phase = .erased ∧
      ((∃ items, (twoAtOnce.1.step (.recv (.data []))).recvQueue.Holds items ∧
          framing.frames twoAtOnce.2.flatten <+:
            ((twoAtOnce.1.step (.recv (.data []))).taken ++ items).map TcpPacket.content) ↔
        ∀ turns ≤ twoAtOnce.2.length, arrived twoAtOnce.2 twoAtOnce.2.length ≤
          arrived twoAtOnce.2 turns + (twoAtOnce.2.length - turns)) :=
  closed_delivers_iff reaches_twoAtOnce (by decide +kernel)

/-- The close comes before the turn that would have taken the second one. -/
theorem closed_loses :
    ¬ ∀ (s : Receiving) (segs : List (List UInt8)),
      recordedReads.Reaches (fun x _ => x.1.recvQueue.full = false) (s, segs) →
      recordedReads.Allowed (s, segs) (.recv (.data [])) →
      ∃ items, (s.step (.recv (.data []))).recvQueue.Holds items ∧
        framing.frames segs.flatten <+:
          ((s.step (.recv (.data []))).taken ++ items).map TcpPacket.content := by
  intro h
  have hallowed : recordedReads.Allowed (twoAtOnce.1, twoAtOnce.2) (.recv (.data [])) := by
    decide +kernel
  have hspace : 0 < twoAtOnce.1.reader.space := by decide +kernel
  obtain ⟨hsegs, hcompleted⟩ := twoAtOnce_eq
  have hkept : twoAtOnce.1.Kept := (followed_reaches reaches_twoAtOnce (by decide +kernel)).1
  obtain ⟨items, hholds, hprefix⟩ := h twoAtOnce.1 twoAtOnce.2 reaches_twoAtOnce hallowed
  rw [hkept.closed hspace hholds, hcompleted, hsegs, List.flatten_singleton,
    frames_twoEmpty] at hprefix
  have htwo := hprefix.length_le
  simp at htwo

end TwoAtOnce

end CasualGame.Net
