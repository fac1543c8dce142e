import Mathlib.Data.List.Basic

/-!
The buffer of a connection, and what `trySend` and `tryRecv` do with it and a socket.
-/

namespace CasualGame.Net

structure ConnectionBuffer where
  buf : List UInt8
  dataBegin : Nat
  dataEnd : Nat
  begin_le : dataBegin ≤ dataEnd
  end_le : dataEnd ≤ buf.length

/-- A pointer into the buffer, and how many bytes may be written there. -/
structure RawBuf where
  first : Nat
  second : Nat

namespace ConnectionBuffer

def create (sizeLimit : Nat) : ConnectionBuffer where
  buf := List.replicate sizeLimit 0
  dataBegin := 0
  dataEnd := 0
  begin_le := Nat.le_refl _
  end_le := Nat.zero_le _

variable (b : ConnectionBuffer)

def capacity : Nat := b.buf.length

def readable : List UInt8 := (b.buf.take b.dataEnd).drop b.dataBegin

def full : Bool := b.capacity = b.dataEnd ∧ b.dataBegin = 0

def empty : Bool := b.dataEnd = 0

theorem length_readable : b.readable.length = b.dataEnd - b.dataBegin := by
  rw [readable, List.length_drop, List.length_take, Nat.min_eq_left b.end_le]

theorem length_readable_le : b.readable.length ≤ b.capacity := by
  have := b.end_le
  rw [length_readable, capacity]
  omega

def commitRead (size : Nat) : Bool × ConnectionBuffer :=
  if hsize : b.dataEnd - b.dataBegin < size then (false, b)
  else if b.dataBegin + size = b.dataEnd then
    (true, { b with
      dataBegin := 0
      dataEnd := 0
      begin_le := Nat.le_refl _
      end_le := Nat.zero_le _ })
  else
    (true, { b with
      dataBegin := b.dataBegin + size
      begin_le := by
        have := b.begin_le
        omega })

/-- The data moved to the front. What was in the buffer behind it stays there. -/
def compact : ConnectionBuffer where
  buf := b.readable ++ b.buf.drop b.readable.length
  dataBegin := 0
  dataEnd := b.readable.length
  begin_le := Nat.zero_le _
  end_le := by simp

def writeable (size : Nat) : RawBuf × ConnectionBuffer :=
  if b.capacity - b.dataEnd < size ∨ b.capacity = b.dataEnd then
    if b.full then (⟨b.dataEnd, 0⟩, b)
    else (⟨b.compact.dataEnd, b.compact.capacity - b.compact.dataEnd⟩, b.compact)
  else (⟨b.dataEnd, b.capacity - b.dataEnd⟩, b)

/-- `memcpy` to a pointer into the buffer. -/
def write (first : Nat) (data : List UInt8) : ConnectionBuffer :=
  { b with
    buf := (b.buf.take first ++ data ++ b.buf.drop (first + data.length)).take b.buf.length
    end_le := by
      have := b.end_le
      simp only [List.length_take, List.length_append, List.length_drop]
      omega }

def commitWrite (size : Nat) : Bool × ConnectionBuffer :=
  if hsize : b.capacity - b.dataEnd < size then (false, b)
  else
    (true, { b with
      dataEnd := b.dataEnd + size
      begin_le := by
        have := b.begin_le
        omega
      end_le := by
        have := b.end_le
        rw [capacity] at hsize
        omega })

section Readable

variable {b}

@[simp] theorem readable_create (sizeLimit : Nat) : (create sizeLimit).readable = [] := rfl

@[simp] theorem capacity_create (sizeLimit : Nat) : (create sizeLimit).capacity = sizeLimit :=
  List.length_replicate

theorem readable_commitRead {size : Nat} (h : size ≤ b.readable.length) :
    (b.commitRead size).2.readable = b.readable.drop size := by
  have hbegin := b.begin_le
  rw [length_readable] at h
  rw [commitRead, dif_neg (by omega)]
  split_ifs with hall
  · have hnone : b.readable.drop size = [] := by
      apply List.drop_of_length_le
      rw [length_readable]
      omega
    rw [hnone]
    rfl
  · rw [readable, readable, List.drop_drop]

@[simp] theorem capacity_commitRead (size : Nat) : (b.commitRead size).2.capacity = b.capacity := by
  rw [commitRead]
  split_ifs <;> rfl

theorem readable_compact : b.compact.readable = b.readable := by
  rw [readable, compact, List.take_left' rfl, List.drop_zero]

theorem capacity_compact : b.compact.capacity = b.capacity := by
  have := b.length_readable_le
  rw [capacity] at this
  rw [capacity, compact, List.length_append, List.length_drop, capacity]
  omega

@[simp] theorem readable_writeable (size : Nat) :
    (b.writeable size).2.readable = b.readable := by
  rw [writeable]
  split_ifs
  · rfl
  · exact readable_compact
  · rfl

@[simp] theorem capacity_writeable (size : Nat) :
    (b.writeable size).2.capacity = b.capacity := by
  rw [writeable]
  split_ifs
  · rfl
  · exact capacity_compact
  · rfl

theorem writeable_first (size : Nat) :
    (b.writeable size).1.first = (b.writeable size).2.dataEnd := by
  rw [writeable]
  split_ifs <;> rfl

theorem writeable_second (size : Nat) :
    (b.writeable size).1.second = b.capacity - (b.writeable size).2.dataEnd := by
  rw [writeable]
  split_ifs with htail hfull
  · rw [full, decide_eq_true_eq] at hfull
    simp only
    omega
  · simp only [capacity_compact]
  · rfl

theorem writeable_pos {size : Nat} :
    0 < (b.writeable size).1.second ↔ b.readable.length < b.capacity := by
  have hbegin := b.begin_le
  have hend : b.dataEnd ≤ b.capacity := b.end_le
  rw [writeable]
  split_ifs with htail hfull
  · rw [full, decide_eq_true_eq] at hfull
    rw [length_readable]
    simp only
    omega
  · rw [capacity_compact]
    change 0 < b.capacity - b.readable.length ↔ _
    omega
  · rw [length_readable]
    simp only
    omega

theorem length_readable_of_short {size : Nat} (h : (b.writeable size).1.second < size) :
    b.readable.length = (b.writeable size).2.dataEnd := by
  rw [writeable] at h ⊢
  split_ifs at h ⊢ with htail hfull
  · rw [full, decide_eq_true_eq] at hfull
    rw [length_readable, hfull.2, Nat.sub_zero]
  · rfl
  · dsimp only at h
    omega

theorem readable_commitWrite {data : List UInt8} (h : data.length ≤ b.capacity - b.dataEnd) :
    ((b.write b.dataEnd data).commitWrite data.length).2.readable = b.readable ++ data := by
  have hbegin := b.begin_le
  have hend := b.end_le
  rw [capacity] at h
  have hlength : (b.buf.take b.dataEnd ++ data).length = b.dataEnd + data.length := by
    rw [List.length_append, List.length_take, Nat.min_eq_left hend]
  have hbuf : (b.write b.dataEnd data).buf =
      b.buf.take b.dataEnd ++ data ++ b.buf.drop (b.dataEnd + data.length) := by
    apply List.take_of_length_le
    rw [List.length_append, hlength, List.length_drop]
    omega
  have hroom : ¬ (b.write b.dataEnd data).capacity - (b.write b.dataEnd data).dataEnd <
      data.length := by
    rw [capacity, hbuf, List.length_append, hlength]
    change ¬ _ - b.dataEnd < _
    omega
  rw [commitWrite, dif_neg hroom]
  change ((b.write b.dataEnd data).buf.take (b.dataEnd + data.length)).drop b.dataBegin = _
  rw [hbuf, List.take_left' hlength, List.drop_append_of_le_length
    (by rw [List.length_take, Nat.min_eq_left hend]; exact hbegin)]
  rfl

@[simp] theorem capacity_write (first : Nat) (data : List UInt8) :
    (b.write first data).capacity = b.capacity := by
  rw [capacity, capacity, write, List.length_take, List.length_append, List.length_append,
    List.length_take, List.length_drop]
  omega

@[simp] theorem capacity_commitWrite (size : Nat) :
    (b.commitWrite size).2.capacity = b.capacity := by
  rw [commitWrite]
  split_ifs <;> rfl

theorem write_self {first : Nat} {data : List UInt8} (hfits : first + data.length ≤ b.buf.length)
    (hdata : (b.buf.drop first).take data.length = data) : b.write first data = b := by
  have hbuf : b.buf.take first ++ data ++ b.buf.drop (first + data.length) = b.buf := by
    have hrest : b.buf.drop (first + data.length) = (b.buf.drop first).drop data.length := by
      rw [List.drop_drop]
    have htail : data ++ (b.buf.drop first).drop data.length = b.buf.drop first := by
      have := List.take_append_drop data.length (b.buf.drop first)
      rwa [hdata] at this
    rw [hrest, List.append_assoc, htail, List.take_append_drop]
  have hsame : (b.buf.take first ++ data ++ b.buf.drop (first + data.length)).take b.buf.length =
      b.buf := by
    rw [hbuf, List.take_length]
  obtain ⟨buf, dataBegin, dataEnd, hbegin, hend⟩ := b
  rw [write]
  congr

theorem readable_commitWrite_append (size : Nat) :
    ∃ extra, (b.commitWrite size).2.readable = b.readable ++ extra ∧
      extra.length = if b.capacity - b.dataEnd < size then 0 else size := by
  have hend := b.end_le
  rw [commitWrite]
  split_ifs with hshort
  · exact ⟨[], (List.append_nil _).symm, rfl⟩
  · rw [capacity] at hshort
    refine ⟨(b.buf.drop b.dataEnd).take size, ?_, ?_⟩
    · change (b.buf.take (b.dataEnd + size)).drop b.dataBegin = _
      rw [List.take_add, List.drop_append_of_le_length
        (by rw [List.length_take, Nat.min_eq_left hend]; exact b.begin_le)]
      rfl
    · rw [List.length_take, List.length_drop]
      omega

theorem write_there {first : Nat} {data : List UInt8} (hfits : first + data.length ≤ b.buf.length) :
    ((b.write first data).buf.drop first).take data.length = data := by
  have hfirst : (b.buf.take first).length = first := by
    rw [List.length_take]
    omega
  have hall : (b.buf.take first ++ data ++ b.buf.drop (first + data.length)).length ≤
      b.buf.length := by
    rw [List.length_append, List.length_append, hfirst, List.length_drop]
    omega
  rw [write]
  dsimp only
  rw [List.take_of_length_le hall, List.append_assoc, List.drop_left' hfirst, List.take_left' rfl]

theorem commitWrite_of_le {size : Nat} (h : size ≤ b.capacity - b.dataEnd) :
    (b.commitWrite size).2.buf = b.buf ∧ (b.commitWrite size).2.dataEnd = b.dataEnd + size := by
  rw [commitWrite, dif_neg (by omega)]
  exact ⟨rfl, rfl⟩

theorem commitRead_of_lt {size : Nat} (h : size < b.readable.length) :
    (b.commitRead size).2.buf = b.buf ∧ (b.commitRead size).2.dataEnd = b.dataEnd := by
  rw [length_readable] at h
  rw [commitRead, dif_neg (by omega), if_neg (by omega)]
  exact ⟨rfl, rfl⟩

end Readable

end ConnectionBuffer

/-- What `recv` comes back with on a socket that does not block: nothing for now, bytes
(none of them when the other side has closed), or an error. -/
inductive RecvResult
  | again
  | data (bytes : List UInt8)
  | fault
  deriving DecidableEq

/-- The bytes there are. -/
def RecvResult.bytes : RecvResult → List UInt8
  | .again => []
  | .data bytes => bytes
  | .fault => []

/-- What `send` comes back with: nothing for now, how many bytes the socket takes at the
most, or an error. -/
inductive SendResult
  | again
  | sent (most : Nat)
  | fault
  deriving DecidableEq

/-- The socket takes so many bytes at once. -/
def SendResult.Takes : SendResult → Nat → Prop
  | .sent most, size => size ≤ most
  | _, _ => False

/-- What it takes of the bytes it is offered. -/
def SendResult.taken : SendResult → List UInt8 → List UInt8
  | .sent most, bytes => bytes.take most
  | _, _ => []

instance (answer : SendResult) (size : Nat) : Decidable (answer.Takes size) :=
  match answer with
  | .sent most => inferInstanceAs (Decidable (size ≤ most))
  | .again => .isFalse id
  | .fault => .isFalse id

inductive NetException
  | readClosedConnection
  | sysError
  deriving DecidableEq

namespace BufferedConnection

variable (b : ConnectionBuffer)

/-- Whether the buffer has been sent to the end, the buffer after it, and the bytes the
socket took. -/
def trySend (answer : SendResult) : Except NetException (Bool × ConnectionBuffer × List UInt8) :=
  if b.readable = [] then return (true, b, [])
  else
    match answer with
    | .again => return (false, b, [])
    | .fault => throw .sysError
    | .sent most =>
        let sendSize := min most b.readable.length
        let after := (b.commitRead sendSize).2
        return (after.empty, after, b.readable.take sendSize)

/-- Whether there is something to read in the buffer. A buffer without room asks nothing
of the socket. -/
def tryRecv (answer : RecvResult) : Except NetException (Bool × ConnectionBuffer) :=
  let (rawBuf, b) := b.writeable 0
  if rawBuf.second = 0 then return (!b.empty, b)
  else
    match answer with
    | .again => return (!b.empty, b)
    | .fault => throw .sysError
    | .data bytes =>
        let received := bytes.take rawBuf.second
        if received = [] then throw .readClosedConnection
        else return (true, ((b.write rawBuf.first received).commitWrite received.length).2)

section Sending

variable {b} {answer : SendResult} {done : Bool} {after : ConnectionBuffer}
  {emitted : List UInt8}

theorem trySend_nil (hnone : b.readable = []) : trySend b answer = .ok (true, b, []) := by
  simp only [trySend, if_pos hnone]
  rfl

theorem trySend_again (hpending : b.readable ≠ []) : trySend b .again = .ok (false, b, []) := by
  simp only [trySend, if_neg hpending]
  rfl

theorem trySend_fault (hpending : b.readable ≠ []) : trySend b .fault = .error .sysError := by
  simp only [trySend, if_neg hpending]
  rfl

theorem trySend_sent {most : Nat} (hpending : b.readable ≠ []) :
    trySend b (.sent most) =
      .ok ((b.commitRead (min most b.readable.length)).2.empty,
        (b.commitRead (min most b.readable.length)).2, b.readable.take most) := by
  simp only [trySend, if_neg hpending, ← List.take_eq_take_min]
  rfl

theorem trySend_ok (h : trySend b answer = .ok (done, after, emitted)) :
    emitted ++ after.readable = b.readable ∧ after.capacity = b.capacity ∧
      if b.readable = [] ∨ answer.Takes b.readable.length then
        done = true ∧ after.readable = []
      else done = false ∧ after.readable ≠ [] ∧ after.buf = b.buf ∧
        after.dataEnd = b.dataEnd := by
  by_cases hnone : b.readable = []
  · rw [trySend_nil hnone] at h
    obtain ⟨rfl, rfl, rfl⟩ : true = done ∧ b = after ∧ [] = emitted := by simpa using h
    rw [if_pos (Or.inl hnone)]
    exact ⟨rfl, rfl, rfl, hnone⟩
  cases answer with
  | again =>
      rw [trySend_again hnone] at h
      obtain ⟨rfl, rfl, rfl⟩ : false = done ∧ b = after ∧ [] = emitted := by simpa using h
      rw [if_neg (by simp [hnone, SendResult.Takes])]
      exact ⟨rfl, rfl, rfl, hnone, rfl, rfl⟩
  | fault =>
      rw [trySend_fault hnone] at h
      cases h
  | sent most =>
      rw [trySend_sent hnone] at h
      have hsize : min most b.readable.length ≤ b.readable.length := Nat.min_le_right _ _
      have hreadable := ConnectionBuffer.readable_commitRead hsize
      have hcapacity := b.capacity_commitRead (min most b.readable.length)
      obtain ⟨hdone, rfl, rfl⟩ : (b.commitRead (min most b.readable.length)).2.empty = done ∧
          (b.commitRead (min most b.readable.length)).2 = after ∧
            b.readable.take most = emitted := by simpa using h
      refine ⟨?_, hcapacity, ?_⟩
      · rw [hreadable, List.take_eq_take_min, List.take_append_drop]
      · rcases Nat.lt_or_ge most b.readable.length with hpart | hall
        · have hless : min most b.readable.length < b.readable.length := by omega
          obtain ⟨hbuf, hend⟩ := ConnectionBuffer.commitRead_of_lt hless
          have hpos := ConnectionBuffer.length_readable b
          rw [if_neg (by simp only [hnone, SendResult.Takes, false_or]; omega), ← hdone,
            ConnectionBuffer.empty, hend]
          refine ⟨decide_eq_false (by omega), ?_, hbuf, rfl⟩
          rw [hreadable]
          apply List.ne_nil_of_length_pos
          rw [List.length_drop]
          omega
        · have htakes : (SendResult.sent most).Takes b.readable.length := hall
          rw [if_pos (Or.inr htakes)]
          rw [Nat.min_eq_right hall] at hdone hreadable ⊢
          have hgone : (b.commitRead b.readable.length).2.dataEnd = 0 := by
            have hbegin := b.begin_le
            rw [ConnectionBuffer.length_readable, ConnectionBuffer.commitRead, dif_neg (by omega),
              if_pos (by omega)]
          exact ⟨by rw [← hdone, ConnectionBuffer.empty, hgone]; rfl,
            by rw [hreadable, List.drop_length]⟩

theorem trySend_emitted (h : trySend b answer = .ok (done, after, emitted)) :
    emitted = answer.taken b.readable := by
  by_cases hnone : b.readable = []
  · rw [trySend_nil hnone] at h
    cases h
    rw [hnone]
    cases answer with
    | sent most => exact List.take_nil.symm
    | _ => rfl
  cases answer with
  | again =>
      rw [trySend_again hnone] at h
      cases h
      rfl
  | fault =>
      rw [trySend_fault hnone] at h
      cases h
  | sent most =>
      rw [trySend_sent hnone] at h
      cases h
      rfl

end Sending

section Receiving

variable {b after : ConnectionBuffer} {answer : RecvResult} {nonempty : Bool}

theorem tryRecv_ok (hfits : answer.bytes.length ≤ (b.writeable 0).1.second)
    (h : tryRecv b answer = .ok (nonempty, after)) :
    after.readable = b.readable ++ answer.bytes := by
  simp only [tryRecv] at h
  split_ifs at h with hroom
  · obtain ⟨-, rfl⟩ := Prod.mk.inj (Except.ok.inj h)
    rw [hroom, Nat.le_zero, List.length_eq_zero_iff] at hfits
    rw [hfits, List.append_nil, ConnectionBuffer.readable_writeable]
  · cases answer with
    | again =>
        cases h
        rw [ConnectionBuffer.readable_writeable, RecvResult.bytes, List.append_nil]
    | fault => cases h
    | data bytes =>
        have htake : bytes.take (b.writeable 0).1.second = bytes := List.take_of_length_le hfits
        simp only [htake] at h
        split_ifs at h
        obtain ⟨-, rfl⟩ := Prod.mk.inj (Except.ok.inj h)
        rw [ConnectionBuffer.writeable_first, ConnectionBuffer.readable_commitWrite,
          ConnectionBuffer.readable_writeable, RecvResult.bytes]
        rwa [ConnectionBuffer.capacity_writeable, ← ConnectionBuffer.writeable_second]

end Receiving

end BufferedConnection

end CasualGame.Net
