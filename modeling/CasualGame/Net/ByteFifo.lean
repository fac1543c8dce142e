import CasualGame.Lib.Fifo
import CasualGame.Lib.Run
import CasualGame.Net.ConnectionBuffer

/-!
The buffer of a connection over all that can be done with it: it is a channel for bytes.
-/

namespace CasualGame.Net

open Lib.Fifo
open Lib.Run

/-- A buffer and who works with it. -/
structure BufferUser where
  buffer : ConnectionBuffer
  /-- The region that `writeable` has returned, without what has been committed of it. -/
  region : Option RawBuf := none
  /-- What has been written there. -/
  filled : List UInt8 := []
  /-- All that has been committed, and all that has been read and committed as read; the
  source has no such records. -/
  committed : List UInt8 := []
  obtained : List UInt8 := []

/-- `commitRead` comes after a look at `readable`. -/
inductive BufferAct
  | writeable (size : Nat)
  | fill (data : List UInt8)
  | commitWrite (size : Nat)
  | commitRead (size : Nat)

namespace BufferUser

variable (s : BufferUser)

def start (sizeLimit : Nat) : BufferUser := { buffer := .create sizeLimit }

def writeable (size : Nat) : BufferUser :=
  let (rawBuf, buffer) := s.buffer.writeable size
  { s with buffer := buffer, region := some rawBuf, filled := [] }

def fill (data : List UInt8) : BufferUser :=
  match s.region with
  | none => s
  | some rawBuf => { s with buffer := s.buffer.write rawBuf.first data, filled := data }

def commitWrite (size : Nat) : BufferUser :=
  match s.buffer.commitWrite size with
  | (false, buffer) => { s with buffer := buffer }
  | (true, buffer) =>
      { s with
        buffer := buffer
        region := s.region.map fun rawBuf => ⟨rawBuf.first + size, rawBuf.second - size⟩
        filled := s.filled.drop size
        committed := s.committed ++ s.filled.take size }

/-- The region is not used any more once the data may have moved. -/
def commitRead (size : Nat) : BufferUser :=
  match s.buffer.commitRead size with
  | (false, buffer) => { s with buffer := buffer }
  | (true, buffer) =>
      { s with
        buffer := buffer
        region := none
        filled := []
        obtained := s.obtained ++ s.buffer.readable.take size }

def step : BufferAct → BufferUser
  | .writeable size => s.writeable size
  | .fill data => s.fill data
  | .commitWrite size => s.commitWrite size
  | .commitRead size => s.commitRead size

/-- A prefix of the region is filled, and what is committed is filled, or more than there is
room for. -/
def Allowed : BufferAct → Prop
  | .writeable _ => True
  | .fill data => ∃ rawBuf ∈ s.region, data.length ≤ rawBuf.second
  | .commitWrite size =>
      size ≤ s.filled.length ∨ s.buffer.capacity - s.buffer.dataEnd < size
  | .commitRead _ => True

instance (act : BufferAct) : Decidable (s.Allowed act) :=
  match act with
  | .writeable _ => .isTrue trivial
  | .fill data =>
      match h : s.region with
      | none => .isFalse (by simp [Allowed, h])
      | some rawBuf =>
          decidable_of_iff (data.length ≤ rawBuf.second) (by simp [Allowed, h])
  | .commitWrite _ => inferInstanceAs (Decidable (_ ∨ _))
  | .commitRead _ => .isTrue trivial

/-- What has gone through the buffer. -/
def channel : Channel UInt8 where
  sent := s.committed
  received := s.obtained
  held := s.buffer.readable

end BufferUser

def bufferSystem (sizeLimit : Nat) : System BufferUser BufferAct Empty where
  Init s := s = .start sizeLimit
  Allowed s act := s.Allowed act
  step s act := .ok (s.step act)

instance (sizeLimit : Nat) (s : BufferUser) (act : BufferAct) :
    Decidable ((bufferSystem sizeLimit).Allowed s act) :=
  inferInstanceAs (Decidable (s.Allowed act))

/-- The offsets stay in order, `empty` and `full` tell the truth, what is read is what has been
committed, there is room behind the data unless the buffer is full of it, what is filled can be
committed and what is readable can be read, and what is refused changes nothing. -/
structure IsFifo (capacity : Nat) (s : BufferUser) : Prop where
  bounds : s.buffer.dataBegin ≤ s.buffer.dataEnd ∧ s.buffer.dataEnd ≤ capacity
  reset : s.buffer.dataBegin = s.buffer.dataEnd → s.buffer.dataBegin = 0 ∧ s.buffer.dataEnd = 0
  empty : s.buffer.empty = true ↔ s.buffer.readable = []
  full : s.buffer.full = true ↔ s.buffer.readable.length = capacity
  in_order : s.obtained ++ s.buffer.readable = s.committed
  room : ∀ size, s.buffer.readable.length < capacity → 0 < (s.buffer.writeable size).1.second
  /-- The region returned is all there is behind the data. -/
  returned : ∀ size, (s.buffer.writeable size).2.readable = s.buffer.readable ∧
    (s.buffer.writeable size).1.first = (s.buffer.writeable size).2.dataEnd ∧
      (s.buffer.writeable size).1.first + (s.buffer.writeable size).1.second = capacity
  accepted_write : ∀ size ≤ s.filled.length, (s.buffer.commitWrite size).1 = true ∧
    (s.buffer.commitWrite size).2.readable = s.buffer.readable ++ s.filled.take size
  accepted_read : ∀ size ≤ s.buffer.readable.length, (s.buffer.commitRead size).1 = true ∧
    (s.buffer.commitRead size).2.readable = s.buffer.readable.drop size
  refused_write : ∀ size, (s.buffer.commitWrite size).1 = false →
    s.commitWrite size = s
  refused_read : ∀ size, (s.buffer.commitRead size).1 = false → s.commitRead size = s

namespace ConnectionBuffer

variable {b : ConnectionBuffer}

/-- The offsets are equal only at the front. -/
def Reset (b : ConnectionBuffer) : Prop := b.dataBegin = b.dataEnd → b.dataEnd = 0

theorem reset_writeable (h : b.Reset) (size : Nat) : (b.writeable size).2.Reset := by
  rw [writeable]
  split_ifs
  · exact h
  · exact fun heq => heq.symm
  · exact h

theorem reset_commitWrite (h : b.Reset) (size : Nat) : (b.commitWrite size).2.Reset := by
  have hbegin := b.begin_le
  rw [commitWrite]
  split_ifs
  · exact h
  · intro heq
    rw [Reset] at h
    dsimp only at heq ⊢
    omega

theorem reset_commitRead (h : b.Reset) (size : Nat) : (b.commitRead size).2.Reset := by
  rw [commitRead]
  split_ifs with hshort hall
  · exact h
  · exact fun _ => rfl
  · exact fun heq => absurd heq hall

theorem readable_eq_nil_iff (h : b.Reset) : b.readable = [] ↔ b.dataEnd = 0 := by
  have hbegin := b.begin_le
  rw [Reset] at h
  rw [← List.length_eq_zero_iff, length_readable]
  omega

theorem empty_iff (h : b.Reset) : b.empty = true ↔ b.readable = [] := by
  rw [readable_eq_nil_iff h, empty, decide_eq_true_eq]

theorem full_iff : b.full = true ↔ b.readable.length = b.capacity := by
  have hbegin := b.begin_le
  have hend : b.dataEnd ≤ b.capacity := b.end_le
  rw [full, decide_eq_true_eq, length_readable]
  omega

theorem commitWrite_refused {size : Nat} (h : (b.commitWrite size).1 = false) :
    (b.commitWrite size).2 = b := by
  rw [commitWrite] at h ⊢
  split_ifs at h ⊢
  rfl

theorem commitWrite_ok {size : Nat} (h : size ≤ b.capacity - b.dataEnd) :
    (b.commitWrite size).1 = true := by
  rw [commitWrite, dif_neg (by omega)]

theorem commitWrite_short {size : Nat} (h : b.capacity - b.dataEnd < size) :
    (b.commitWrite size).1 = false := by
  rw [commitWrite, dif_pos h]

theorem readable_commitWrite_there {data : List UInt8}
    (hroom : data.length ≤ b.capacity - b.dataEnd)
    (hthere : (b.buf.drop b.dataEnd).take data.length = data) :
    (b.commitWrite data.length).2.readable = b.readable ++ data := by
  have hend := b.end_le
  have hwrite := readable_commitWrite hroom
  rw [capacity] at hroom
  rwa [write_self (by omega) hthere] at hwrite

theorem commitRead_ok {size : Nat} :
    (b.commitRead size).1 = true ↔ size ≤ b.readable.length := by
  rw [length_readable, commitRead]
  split_ifs with hshort hall
  · simp only [false_iff]
    omega
  · simp only [true_iff]
    omega
  · simp only [true_iff]
    omega

theorem commitRead_refused {size : Nat} (h : (b.commitRead size).1 = false) :
    (b.commitRead size).2 = b := by
  rw [commitRead] at h ⊢
  split_ifs at h ⊢
  rfl

theorem readable_write (data : List UInt8) : (b.write b.dataEnd data).readable = b.readable := by
  have hend := b.end_le
  have hlength : (b.buf.take b.dataEnd).length = b.dataEnd := by
    rw [List.length_take, Nat.min_eq_left hend]
  change ((b.write b.dataEnd data).buf.take b.dataEnd).drop b.dataBegin = _
  rw [write]
  dsimp only
  rw [List.take_take, Nat.min_eq_left hend, List.append_assoc, List.take_left' hlength]
  rfl

end ConnectionBuffer

namespace BufferUser

/-- What holds between the acts. -/
structure Sound (capacity : Nat) (s : BufferUser) : Prop where
  capacity : s.buffer.capacity = capacity
  reset : s.buffer.Reset
  placed : ∀ rawBuf ∈ s.region, rawBuf.first = s.buffer.dataEnd ∧
    rawBuf.second = s.buffer.capacity - s.buffer.dataEnd
  filled_le : s.filled.length ≤ s.buffer.capacity - s.buffer.dataEnd
  filled_there : (s.buffer.buf.drop s.buffer.dataEnd).take s.filled.length = s.filled
  in_order : s.channel.InOrder

variable {s : BufferUser} {capacity : Nat}

theorem commitWrite_of_ok {size : Nat} (h : (s.buffer.commitWrite size).1 = true) :
    s.commitWrite size = { s with
      buffer := (s.buffer.commitWrite size).2
      region := s.region.map fun rawBuf => ⟨rawBuf.first + size, rawBuf.second - size⟩
      filled := s.filled.drop size
      committed := s.committed ++ s.filled.take size } := by
  cases hres : s.buffer.commitWrite size with
  | mk ok buffer =>
      rw [hres] at h
      obtain rfl : ok = true := h
      rw [commitWrite, hres]

theorem commitWrite_of_refused {size : Nat} (h : (s.buffer.commitWrite size).1 = false) :
    s.commitWrite size = s := by
  have hsame := ConnectionBuffer.commitWrite_refused h
  cases hres : s.buffer.commitWrite size with
  | mk ok buffer =>
      rw [hres] at h hsame
      obtain rfl : ok = false := h
      obtain rfl : buffer = s.buffer := hsame
      rw [commitWrite, hres]

theorem commitRead_of_ok {size : Nat} (h : (s.buffer.commitRead size).1 = true) :
    s.commitRead size = { s with
      buffer := (s.buffer.commitRead size).2
      region := none
      filled := []
      obtained := s.obtained ++ s.buffer.readable.take size } := by
  cases hres : s.buffer.commitRead size with
  | mk ok buffer =>
      rw [hres] at h
      obtain rfl : ok = true := h
      rw [commitRead, hres]

theorem commitRead_of_refused {size : Nat} (h : (s.buffer.commitRead size).1 = false) :
    s.commitRead size = s := by
  have hsame := ConnectionBuffer.commitRead_refused h
  cases hres : s.buffer.commitRead size with
  | mk ok buffer =>
      rw [hres] at h hsame
      obtain rfl : ok = false := h
      obtain rfl : buffer = s.buffer := hsame
      rw [commitRead, hres]

theorem sound_start (sizeLimit : Nat) : Sound sizeLimit (start sizeLimit) where
  capacity := ConnectionBuffer.capacity_create sizeLimit
  reset := id
  placed _ h := absurd h (Option.not_mem_none _)
  filled_le := Nat.zero_le _
  filled_there := rfl
  in_order := rfl

theorem Sound.writeable (h : s.Sound capacity) (size : Nat) :
    (s.writeable size).Sound capacity where
  capacity := (ConnectionBuffer.capacity_writeable size).trans h.capacity
  reset := ConnectionBuffer.reset_writeable h.reset size
  placed rawBuf hregion := by
    have hreturned : rawBuf = (s.buffer.writeable size).1 := (Option.some.inj hregion).symm
    change rawBuf.first = (s.buffer.writeable size).2.dataEnd ∧
      rawBuf.second = (s.buffer.writeable size).2.capacity - (s.buffer.writeable size).2.dataEnd
    rw [hreturned, ConnectionBuffer.writeable_second, ConnectionBuffer.capacity_writeable]
    exact ⟨ConnectionBuffer.writeable_first size, rfl⟩
  filled_le := Nat.zero_le _
  filled_there := rfl
  in_order := by
    have hsame : (s.writeable size).channel = s.channel := by
      rw [channel, channel, BufferUser.writeable]
      simp only [ConnectionBuffer.readable_writeable]
    exact h.in_order.step (hsame ▸ .idle _)

theorem Sound.fill (h : s.Sound capacity) {data : List UInt8}
    (hallowed : s.Allowed (.fill data)) : (s.fill data).Sound capacity := by
  obtain ⟨rawBuf, hregion, hdata⟩ := hallowed
  obtain ⟨hfirst, hsecond⟩ := h.placed rawBuf hregion
  have hend := s.buffer.end_le
  rw [hsecond] at hdata
  have hfits : s.buffer.dataEnd + data.length ≤ s.buffer.buf.length := by
    rw [ConnectionBuffer.capacity] at hdata
    omega
  have hfill : s.fill data =
      { s with buffer := s.buffer.write s.buffer.dataEnd data, filled := data } := by
    rw [BufferUser.fill, hregion, ← hfirst]
  rw [hfill]
  exact {
    capacity := (ConnectionBuffer.capacity_write _ _).trans h.capacity
    reset := h.reset
    placed := by
      rw [ConnectionBuffer.capacity_write]
      exact h.placed
    filled_le := by
      rw [ConnectionBuffer.capacity_write]
      exact hdata
    filled_there := ConnectionBuffer.write_there hfits
    in_order := by
      have hsame : channel { s with
          buffer := s.buffer.write s.buffer.dataEnd data, filled := data } = s.channel := by
        rw [channel, channel]
        simp only [ConnectionBuffer.readable_write]
      exact h.in_order.step (hsame ▸ .idle _) }

theorem Sound.accepts (h : s.Sound capacity) {size : Nat} (hfilled : size ≤ s.filled.length) :
    (s.buffer.commitWrite size).1 = true ∧
      (s.buffer.commitWrite size).2.readable = s.buffer.readable ++ s.filled.take size := by
  have hroom : size ≤ s.buffer.capacity - s.buffer.dataEnd := Nat.le_trans hfilled h.filled_le
  have hlength : (s.filled.take size).length = size := by
    rw [List.length_take, Nat.min_eq_left hfilled]
  have hthere : (s.buffer.buf.drop s.buffer.dataEnd).take (s.filled.take size).length =
      s.filled.take size := by
    rw [hlength, ← h.filled_there, List.take_take, Nat.min_eq_left hfilled]
  have hreadable := ConnectionBuffer.readable_commitWrite_there (by rwa [hlength]) hthere
  rw [hlength] at hreadable
  exact ⟨ConnectionBuffer.commitWrite_ok hroom, hreadable⟩

theorem Sound.commitWrite (h : s.Sound capacity) {size : Nat}
    (hallowed : s.Allowed (.commitWrite size)) : (s.commitWrite size).Sound capacity := by
  rcases Nat.lt_or_ge (s.buffer.capacity - s.buffer.dataEnd) size with hshort | hroom
  · rw [commitWrite_of_refused (ConnectionBuffer.commitWrite_short hshort)]
    exact h
  · have hfilled : size ≤ s.filled.length := hallowed.resolve_right (by omega)
    obtain ⟨hbuf, hend⟩ := ConnectionBuffer.commitWrite_of_le hroom
    have hreadable := (h.accepts hfilled).2
    rw [commitWrite_of_ok (ConnectionBuffer.commitWrite_ok hroom)]
    exact {
      capacity := (ConnectionBuffer.capacity_commitWrite size).trans h.capacity
      reset := ConnectionBuffer.reset_commitWrite h.reset size
      placed := by
        intro rawBuf hregion
        obtain ⟨old, hold, rfl⟩ := Option.map_eq_some_iff.mp hregion
        obtain ⟨hfirst, hsecond⟩ := h.placed old hold
        rw [ConnectionBuffer.capacity_commitWrite, hend, hfirst, hsecond]
        exact ⟨rfl, Nat.sub_sub ..⟩
      filled_le := by
        have hle := h.filled_le
        rw [ConnectionBuffer.capacity_commitWrite, hend, List.length_drop]
        omega
      filled_there := by
        rw [hbuf, hend, ← List.drop_drop, List.length_drop, ← List.drop_take, h.filled_there]
      in_order := by
        have hnext := h.in_order.step (.send s.channel (s.filled.take size))
        change s.obtained ++ (s.buffer.commitWrite size).2.readable = _
        rw [hreadable]
        exact hnext }

theorem Sound.commitRead (h : s.Sound capacity) (size : Nat) :
    (s.commitRead size).Sound capacity := by
  cases hok : (s.buffer.commitRead size).1 with
  | false =>
      rw [commitRead_of_refused hok]
      exact h
  | true =>
      have hreadable := ConnectionBuffer.readable_commitRead (ConnectionBuffer.commitRead_ok.mp hok)
      rw [commitRead_of_ok hok]
      exact {
        capacity := (ConnectionBuffer.capacity_commitRead size).trans h.capacity
        reset := ConnectionBuffer.reset_commitRead h.reset size
        placed := fun _ hregion => absurd hregion (Option.not_mem_none _)
        filled_le := Nat.zero_le _
        filled_there := rfl
        in_order := by
          have hnext := h.in_order.step (.receive s.channel size)
          change _ ++ (s.buffer.commitRead size).2.readable = s.committed
          rw [hreadable]
          exact hnext }

theorem Sound.step (h : s.Sound capacity) {act : BufferAct} (hallowed : s.Allowed act) :
    (s.step act).Sound capacity := by
  cases act with
  | writeable size => exact h.writeable size
  | fill data => exact h.fill hallowed
  | commitWrite size => exact h.commitWrite hallowed
  | commitRead size => exact h.commitRead size

theorem sound_reaches {sizeLimit : Nat}
    (h : (bufferSystem sizeLimit).Reaches (fun _ _ => True) s) : s.Sound sizeLimit := by
  refine h.invariant ?_ ?_
  · rintro s rfl
    exact sound_start sizeLimit
  · intro s act s' hs hallowed _ hstep
    obtain rfl := Except.ok.inj hstep
    exact hs.step hallowed

/-- Whatever is done with a buffer of any size, it is a queue of bytes. -/
theorem isFifo {sizeLimit : Nat} (h : (bufferSystem sizeLimit).Reaches (fun _ _ => True) s) :
    IsFifo sizeLimit s := by
  have hsound := sound_reaches h
  have hcapacity := hsound.capacity
  have hend : s.buffer.dataEnd ≤ sizeLimit := hcapacity ▸ s.buffer.end_le
  refine ⟨⟨s.buffer.begin_le, hend⟩, ?_, ?_, ?_, hsound.in_order, ?_, ?_, ?_, ?_, ?_, ?_⟩
  · intro heq
    have hend := hsound.reset heq
    exact ⟨heq.trans hend, hend⟩
  · exact ConnectionBuffer.empty_iff hsound.reset
  · rw [← hcapacity]
    exact ConnectionBuffer.full_iff
  · intro size hroom
    rw [← hcapacity] at hroom
    exact ConnectionBuffer.writeable_pos.mpr hroom
  · intro size
    have hafter : (s.buffer.writeable size).2.dataEnd ≤ (s.buffer.writeable size).2.capacity :=
      (s.buffer.writeable size).2.end_le
    rw [ConnectionBuffer.capacity_writeable] at hafter
    rw [ConnectionBuffer.writeable_second, ConnectionBuffer.writeable_first, ← hcapacity]
    exact ⟨ConnectionBuffer.readable_writeable size, rfl, Nat.add_sub_cancel' hafter⟩
  · exact fun size hfilled => hsound.accepts hfilled
  · exact fun size hsize =>
      ⟨ConnectionBuffer.commitRead_ok.mpr hsize, ConnectionBuffer.readable_commitRead hsize⟩
  · exact fun size => commitWrite_of_refused
  · exact fun size => commitRead_of_refused

/-- Twenty letters into a buffer of twenty bytes, of which six are read, and two more. -/
theorem isFifo_letters :
    IsFifo 20 ((bufferSystem 20).after (start 20)
      [.writeable 0, .fill [97, 98, 99, 100, 101, 102, 103, 104, 105, 106, 107, 108, 109, 110, 111,
        112, 113, 114, 115, 116], .commitWrite 20, .commitRead 6, .writeable 0, .fill [117, 118],
        .commitWrite 7, .commitWrite 2]) :=
  isFifo ((System.Reaches.init rfl).after (by decide))

end BufferUser

end CasualGame.Net
