import Mathlib.Data.List.Basic
import CasualGame.Lib.Run

/-!
A wrapper around a piece of memory, which is to be used as a string is by what is
serialized.
-/

namespace CasualGame.Componet

open Lib.Run

universe u

/-- The pointer is the name of the memory it points to. -/
structure RawBuffer (ι : Type u) where
  size : UInt32 := 0
  rawBuffer : ι
  bufSize : UInt32

namespace RawBuffer

variable {ι : Type u}

inductive Fault
  /-- Undefined: what is read or written is not in the memory. -/
  | outOfBounds
  deriving DecidableEq

/-- What a call comes back with. -/
inductive Result
  | done
  | thrown
  | count (ret : UInt32)
  | bytes (data : List UInt8)
  | byte (c : UInt8)
  deriving DecidableEq

section Code

/-- `memcpy` from a piece of memory. -/
def readAt (mem : List UInt8) (first count : Nat) : Except Fault (List UInt8) :=
  if first + count ≤ mem.length then .ok ((mem.drop first).take count) else .error .outOfBounds

/-- A piece of memory with `data` copied to it. -/
def overwrite (mem : List UInt8) (first : Nat) (data : List UInt8) : List UInt8 :=
  mem.take first ++ data ++ mem.drop (first + data.length)

/-- `memcpy` to a piece of memory. -/
def writeAt (mem : List UInt8) (first : Nat) (data : List UInt8) :
    Except Fault (List UInt8) :=
  if first + data.length ≤ mem.length then .ok (overwrite mem first data)
  else .error .outOfBounds

variable (b : RawBuffer ι) (mem : List UInt8)

def clear : RawBuffer ι := { b with size := 0 }

/-- `at` -/
def atPos (pos : UInt32) : Except Fault Result :=
  if b.bufSize ≤ pos then .ok .thrown
  else (readAt mem pos.toNat 1).map fun data => .byte (data.headD 0)

/-- Both buffers after `swap`. -/
def swap (other : RawBuffer ι) : RawBuffer ι × RawBuffer ι :=
  ({ b with bufSize := other.bufSize, rawBuffer := other.rawBuffer },
    { other with bufSize := b.bufSize, rawBuffer := b.rawBuffer })

/-- What `operator=` assigns from a buffer that it moves, before that is cleared. -/
def moveFrom (other : RawBuffer ι) : RawBuffer ι :=
  { b with bufSize := other.bufSize, rawBuffer := other.rawBuffer }

def copy (len pos : UInt32) : Except Fault Result :=
  if b.size < pos then .ok (.bytes [])
  else if b.size - pos < len then .ok .thrown
  else
    (readAt mem pos.toNat (if b.size - pos < len then b.size - pos else len).toNat).map .bytes

/-- The buffer and the memory after `append`. -/
def append (data : List UInt8) : Except Fault (Result × RawBuffer ι × List UInt8) :=
  let len := UInt32.ofNat data.length
  if b.bufSize - b.size < len then .ok (.thrown, b, mem)
  else
    let ret := if b.bufSize - b.size < len then b.size - b.bufSize else len
    (writeAt mem b.size.toNat (data.take ret.toNat)).map fun mem =>
      (.count ret, { b with size := b.size + ret }, mem)

end Code

/-- Buffers, and the memory around which they have been made. -/
structure World (ι : Type u) where
  bufs : ι → RawBuffer ι
  mem : ι → List UInt8

inductive Act (ι : Type u)
  | append (i : ι) (data : List UInt8)
  | clear (i : ι)
  | copy (i : ι) (len pos : UInt32)
  | atPos (i : ι) (pos : UInt32)
  | swap (i j : ι)
  | move (i j : ι)

namespace World

variable [DecidableEq ι] (w : World ι)

/-- The memory that a buffer points to. -/
def memOf (i : ι) : List UInt8 := w.mem (w.bufs i).rawBuffer

def step : Act ι → Except Fault (Result × World ι)
  | .append i data => ((w.bufs i).append (w.memOf i) data).map fun x =>
      (x.1, ⟨Function.update w.bufs i x.2.1, Function.update w.mem (w.bufs i).rawBuffer x.2.2⟩)
  | .clear i => .ok (.done, { w with bufs := Function.update w.bufs i (w.bufs i).clear })
  | .copy i len pos => ((w.bufs i).copy (w.memOf i) len pos).map (·, w)
  | .atPos i pos => ((w.bufs i).atPos (w.memOf i) pos).map (·, w)
  | .swap i j =>
      let (b, b') := (w.bufs i).swap (w.bufs j)
      .ok (.done, { w with bufs := Function.update (Function.update w.bufs i b) j b' })
  | .move i j =>
      let bufs := Function.update w.bufs i ((w.bufs i).moveFrom (w.bufs j))
      .ok (.done, { w with bufs := Function.update bufs j (bufs j).clear })

end World

/-- A string of bytes with room for so many. -/
structure BoundedString where
  bytes : List UInt8
  capacity : Nat
  le : bytes.length ≤ capacity

namespace BoundedString

def clear (t : BoundedString) : BoundedString := ⟨[], t.capacity, Nat.zero_le _⟩

def atPos (t : BoundedString) (pos : Nat) : Result :=
  match t.bytes[pos]? with
  | some c => .byte c
  | none => .thrown

variable [DecidableEq ι] (r : ι → BoundedString)

/-- What strings do. The one that is moved is empty afterwards. -/
def step : Act ι → Result × (ι → BoundedString)
  | .append i data =>
      if h : (r i).bytes.length + data.length ≤ (r i).capacity then
        (.count (UInt32.ofNat data.length), Function.update r i
          ⟨(r i).bytes ++ data, (r i).capacity, by rwa [List.length_append]⟩)
      else (.thrown, r)
  | .clear i => (.done, Function.update r i (r i).clear)
  | .copy i len pos => (.bytes (((r i).bytes.drop pos.toNat).take len.toNat), r)
  | .atPos i pos => ((r i).atPos pos.toNat, r)
  | .swap i j => (.done, Function.update (Function.update r i (r j)) j (r i))
  | .move i j => (.done, Function.update (Function.update r i (r j)) j (r j).clear)

end BoundedString

section Statement

variable [DecidableEq ι]

/-- Buffers and strings to which the same is done. What is appended has a length that is a
`size_type`. -/
def system (ι : Type u) [DecidableEq ι] :
    System (World ι × (ι → BoundedString)) (Act ι) Fault where
  Init s := ∀ i, (s.1.bufs i).size = 0 ∧ (s.2 i).bytes = []
  Allowed _
    | .append _ data => data.length < 4294967296
    | _ => True
  step s act := (s.1.step act).map fun x => (x.2, (BoundedString.step s.2 act).2)

/-- The sizes of the buffers and their first bytes are those of the strings. -/
def Same (w : World ι) (r : ι → BoundedString) : Prop :=
  ∀ i, (w.bufs i).size.toNat = (r i).bytes.length ∧
    (w.memOf i).take (w.bufs i).size.toNat = (r i).bytes

/-- A call comes back with what it does for strings, and leaves what it leaves of them. -/
def ActsAsString (s : World ι × (ι → BoundedString)) (act : Act ι) : Prop :=
  ∃ w, s.1.step act = .ok ((BoundedString.step s.2 act).1, w) ∧
    Same w (BoundedString.step s.2 act).2

/-- What is written over the bytes of another buffer is what is there. -/
def SameBytes (w : World ι) (i : ι) (data : List UInt8) : Prop :=
  ∀ j, j ≠ i → (w.bufs j).rawBuffer = (w.bufs i).rawBuffer → ∀ k < data.length,
    (w.bufs i).size.toNat + k < (w.bufs j).size.toNat →
      data[k]? = (w.memOf i)[(w.bufs i).size.toNat + k]?

/-- What is copied is there, what is asked for is not behind the size and before the end of
the memory, what is swapped or moved has the size of what it is swapped with or moved to, and
what is appended does not write over other bytes of another buffer. -/
def Harmless (s : World ι × (ι → BoundedString)) : Act ι → Prop
  | .append i data =>
      (s.1.bufs i).size.toNat + data.length ≤ (s.1.bufs i).bufSize.toNat →
        SameBytes s.1 i data
  | .clear _ => True
  | .copy i len pos =>
      (s.1.bufs i).size < pos ∨ len ≤ (s.1.bufs i).size - pos
  | .atPos i pos => pos < (s.1.bufs i).size ∨ (s.1.bufs i).bufSize ≤ pos
  | .swap i j => (s.1.bufs i).size = (s.1.bufs j).size
  | .move i j => (s.1.bufs i).size = (s.1.bufs j).size

/-- Buffers that are made around a piece of memory each. -/
def start (areas : ι → {mem : List UInt8 // mem.length < 4294967296}) :
    World ι × (ι → BoundedString) :=
  (⟨fun i => ⟨0, i, UInt32.ofNat (areas i).1.length⟩, fun i => (areas i).1⟩,
    fun i => ⟨[], (areas i).1.length, Nat.zero_le _⟩)

end Statement

section Memory

variable {mem data : List UInt8} {first n size : Nat}

theorem length_overwrite (h : first + data.length ≤ mem.length) :
    (overwrite mem first data).length = mem.length := by
  simp only [overwrite, List.length_append, List.length_take, List.length_drop]
  omega

theorem take_overwrite (h : first + data.length ≤ mem.length) :
    (overwrite mem first data).take (first + data.length) = mem.take first ++ data := by
  have hfirst : (mem.take first).length = first := by
    rw [List.length_take]
    omega
  apply List.take_left'
  rw [List.length_append, hfirst]

theorem getElem?_overwrite (h : first + data.length ≤ mem.length) :
    (overwrite mem first data)[n]? =
      if first ≤ n ∧ n < first + data.length then data[n - first]? else mem[n]? := by
  have hfirst : (mem.take first).length = first := by
    rw [List.length_take]
    omega
  rw [overwrite, List.append_assoc]
  split_ifs with hn
  · rw [List.getElem?_append_right (by omega), List.getElem?_append_left (by omega), hfirst]
  · rcases Nat.lt_or_ge n first with hlt | hge
    · rw [List.getElem?_append_left (by omega), List.getElem?_take, if_pos hlt]
    · rw [List.getElem?_append_right (by omega), List.getElem?_append_right (by omega), hfirst,
        List.getElem?_drop]
      congr 1
      omega

theorem take_overwrite_eq_iff (h : first + data.length ≤ mem.length) :
    (overwrite mem first data).take size = mem.take size ↔
      ∀ k < data.length, first + k < size → data[k]? = mem[first + k]? := by
  constructor
  · intro heq k hk hlt
    have hget := congrArg (fun l => l[first + k]?) heq
    simp only [List.getElem?_take, if_pos hlt, getElem?_overwrite h] at hget
    rwa [if_pos (by omega), Nat.add_sub_cancel_left] at hget
  · intro hall
    apply List.ext_getElem?
    intro n
    rw [List.getElem?_take, List.getElem?_take]
    split_ifs with hn
    · rw [getElem?_overwrite h]
      split_ifs with hwritten
      · obtain ⟨k, rfl⟩ := Nat.exists_eq_add_of_le hwritten.1
        rw [Nat.add_sub_cancel_left]
        exact hall k (by omega) hn
      · rfl
    · rfl

end Memory

/-- A buffer is a string: the size, the first bytes, and the room there is. -/
structure Stands (b : RawBuffer ι) (mem : List UInt8) (t : BoundedString) : Prop where
  size : b.size.toNat = t.bytes.length
  bytes : mem.take b.size.toNat = t.bytes
  length : mem.length = b.bufSize.toNat
  capacity : t.capacity = b.bufSize.toNat

section Calls

variable {b : RawBuffer ι} {mem data : List UInt8} {t : BoundedString} {len pos : UInt32}

theorem Stands.size_le (h : Stands b mem t) : b.size.toNat ≤ b.bufSize.toNat := by
  rw [h.size, ← h.capacity]
  exact t.le

theorem Stands.room (h : Stands b mem t) (hdata : data.length < 4294967296) :
    b.bufSize - b.size < UInt32.ofNat data.length ↔
      ¬ t.bytes.length + data.length ≤ t.capacity := by
  have hle := h.size_le
  rw [UInt32.lt_iff_toNat_lt, UInt32.toNat_sub_of_le _ _ hle, UInt32.toNat_ofNat',
    Nat.mod_eq_of_lt hdata, ← h.size, h.capacity]
  omega

theorem Stands.append_full (h : Stands b mem t) (hdata : data.length < 4294967296)
    (hfull : ¬ t.bytes.length + data.length ≤ t.capacity) :
    b.append mem data = .ok (.thrown, b, mem) := by
  rw [append, if_pos ((h.room hdata).mpr hfull)]

theorem Stands.append_fits (h : Stands b mem t) (hdata : data.length < 4294967296)
    (hfits : t.bytes.length + data.length ≤ t.capacity) :
    b.append mem data = .ok (.count (UInt32.ofNat data.length),
      { b with size := b.size + UInt32.ofNat data.length },
      overwrite mem b.size.toNat data) := by
  have hroom := mt (h.room hdata).mp (not_not.mpr hfits)
  have hlen : (UInt32.ofNat data.length).toNat = data.length := by
    rw [UInt32.toNat_ofNat', Nat.mod_eq_of_lt hdata]
  have hwrite : b.size.toNat + data.length ≤ mem.length := by
    rw [h.length, ← h.capacity, h.size]
    exact hfits
  simp only [append, if_neg hroom, hlen, List.take_length, writeAt, if_pos hwrite, Except.map]

theorem Stands.appended (h : Stands b mem t) (hdata : data.length < 4294967296)
    (hfits : t.bytes.length + data.length ≤ t.capacity) :
    Stands { b with size := b.size + UInt32.ofNat data.length } (overwrite mem b.size.toNat data)
      ⟨t.bytes ++ data, t.capacity, by rwa [List.length_append]⟩ := by
  have hcapacity := h.capacity
  have hsize := h.size
  have hlt := b.bufSize.toNat_lt
  have hwrite : b.size.toNat + data.length ≤ mem.length := by
    rw [h.length, ← hcapacity, hsize]
    exact hfits
  have hsum : (b.size + UInt32.ofNat data.length).toNat = b.size.toNat + data.length := by
    rw [UInt32.toNat_add, UInt32.toNat_ofNat', Nat.mod_eq_of_lt hdata]
    apply Nat.mod_eq_of_lt
    omega
  refine ⟨?_, ?_, ?_, hcapacity⟩
  · rw [hsum, List.length_append, hsize]
  · rw [hsum, take_overwrite hwrite, h.bytes]
  · rw [length_overwrite hwrite, h.length]

theorem Stands.readAt (h : Stands b mem t) {first count : Nat}
    (hle : first + count ≤ t.bytes.length) :
    RawBuffer.readAt mem first count = .ok ((t.bytes.drop first).take count) := by
  have hsize := h.size_le
  have hlength := h.length
  rw [← h.size] at hle
  rw [RawBuffer.readAt, if_pos (by omega), ← h.bytes, List.drop_take, List.take_take,
    Nat.min_eq_left (by omega)]

theorem Stands.copy_iff (h : Stands b mem t) :
    b.copy mem len pos = .ok (.bytes ((t.bytes.drop pos.toNat).take len.toNat)) ↔
      b.size < pos ∨ len ≤ b.size - pos := by
  have hsize := h.size
  rw [copy]
  split_ifs with hbehind hlong
  · rw [UInt32.lt_iff_toNat_lt, hsize] at hbehind
    rw [List.drop_of_length_le (Nat.le_of_lt hbehind), List.take_nil]
    exact iff_of_true rfl (.inl (by rwa [UInt32.lt_iff_toNat_lt, hsize]))
  · refine iff_of_false (fun heq => ?_) ?_
    · cases Except.ok.inj heq
    · rintro (hlt | hle)
      · exact hbehind hlt
      · exact UInt32.not_le.mpr hlong hle
  · have hle := UInt32.not_lt.mp hbehind
    have hlen := UInt32.not_lt.mp hlong
    have hcount : pos.toNat + len.toNat ≤ t.bytes.length := by
      rw [UInt32.le_iff_toNat_le, UInt32.toNat_sub_of_le _ _ hle] at hlen
      rw [UInt32.le_iff_toNat_le] at hle
      omega
    rw [h.readAt hcount]
    exact iff_of_true rfl (.inr hlen)

theorem Stands.atPos_iff (h : Stands b mem t) :
    b.atPos mem pos = .ok (t.atPos pos.toNat) ↔ pos < b.size ∨ b.bufSize ≤ pos := by
  have hsize := h.size
  have hle := h.size_le
  rw [atPos]
  rcases Nat.lt_or_ge pos.toNat t.bytes.length with hlt | hge
  · have hget : t.bytes[pos.toNat]? = some t.bytes[pos.toNat] := List.getElem?_eq_getElem hlt
    have hdrop := List.drop_eq_getElem_cons hlt
    rw [if_neg (by rw [UInt32.le_iff_toNat_le]; omega), h.readAt hlt, hdrop]
    refine iff_of_true ?_ (.inl ?_)
    · rw [BoundedString.atPos, hget]
      rfl
    · rw [UInt32.lt_iff_toNat_lt]
      omega
  · have hthrown : t.atPos pos.toNat = .thrown := by
      rw [BoundedString.atPos, List.getElem?_eq_none hge]
    have hnot : ¬ pos < b.size := by
      rw [UInt32.lt_iff_toNat_lt]
      omega
    rw [hthrown]
    split_ifs with hend
    · exact iff_of_true rfl (.inr hend)
    · refine iff_of_false (fun heq => ?_) fun hor => hor.elim hnot hend
      cases hread : RawBuffer.readAt mem pos.toNat 1 with
      | error e =>
          rw [hread] at heq
          cases heq
      | ok data =>
          rw [hread] at heq
          cases heq

theorem Stands.given {b' : RawBuffer ι} (h : Stands b mem t) (hsize : b'.size = b.size) :
    Stands { b' with bufSize := b.bufSize, rawBuffer := b.rawBuffer } mem t :=
  ⟨(congrArg UInt32.toNat hsize).trans h.size, by rw [hsize, h.bytes], h.length, h.capacity⟩

theorem Stands.cleared (h : Stands b mem t) : Stands b.clear mem t.clear :=
  ⟨rfl, List.take_zero, h.length, h.capacity⟩

end Calls

section Steps

theorem map_eq_ok {α : Type} {β : Type u} {m : Except Fault α} {f : α → β} {b : β}
    (h : m.map f = .ok b) : ∃ a, m = .ok a ∧ f a = b := by
  cases m with
  | error e => cases h
  | ok a => exact ⟨a, rfl, Except.ok.inj h⟩

variable {w : World ι} {r : ι → BoundedString} {act : Act ι} {i j : ι} {data : List UInt8}
  {len pos : UInt32}

/-- Every buffer is a string. -/
def Holds (w : World ι) (r : ι → BoundedString) : Prop :=
  ∀ i, Stands (w.bufs i) (w.memOf i) (r i)

theorem Holds.same (h : Holds w r) : Same w r := fun i => ⟨(h i).size, (h i).bytes⟩

theorem write_le (h : Holds w r)
    (hfits : (r i).bytes.length + data.length ≤ (r i).capacity) :
    (w.bufs i).size.toNat + data.length ≤ (w.memOf i).length := by
  rw [(h i).length, (h i).size, ← (h i).capacity]
  exact hfits

theorem holds_start (areas : ι → {mem : List UInt8 // mem.length < 4294967296}) :
    Holds (start areas).1 (start areas).2 := by
  intro i
  have hcount : (UInt32.ofNat (areas i).1.length).toNat = (areas i).1.length := by
    rw [UInt32.toNat_ofNat', Nat.mod_eq_of_lt (areas i).2]
  exact ⟨rfl, List.take_zero, hcount.symm, hcount.symm⟩

variable [DecidableEq ι]

theorem append_full (h : Holds w r) (hdata : data.length < 4294967296)
    (hfull : ¬ (r i).bytes.length + data.length ≤ (r i).capacity) :
    w.step (.append i data) = .ok ((BoundedString.step r (.append i data)).1, w) ∧
      (BoundedString.step r (.append i data)).2 = r := by
  have happend := (h i).append_full hdata hfull
  rw [BoundedString.step, dif_neg hfull]
  refine ⟨?_, rfl⟩
  simp only [World.step, happend, Except.map, Function.update_eq_self]
  rw [World.memOf, Function.update_eq_self]

/-- The buffers and the memory after what fits has been appended. -/
def appended (w : World ι) (i : ι) (data : List UInt8) : World ι :=
  ⟨Function.update w.bufs i
      { w.bufs i with size := (w.bufs i).size + UInt32.ofNat data.length },
    Function.update w.mem (w.bufs i).rawBuffer
      (overwrite (w.memOf i) (w.bufs i).size.toNat data)⟩

theorem append_fits (h : Holds w r) (hdata : data.length < 4294967296)
    (hfits : (r i).bytes.length + data.length ≤ (r i).capacity) :
    w.step (.append i data) =
      .ok ((BoundedString.step r (.append i data)).1, appended w i data) := by
  have happend := (h i).append_fits hdata hfits
  rw [BoundedString.step, dif_pos hfits]
  simp only [World.step, happend, Except.map, appended]

theorem bufs_appended_self : (appended w i data).bufs i =
    { w.bufs i with size := (w.bufs i).size + UInt32.ofNat data.length } :=
  Function.update_self _ _ _

theorem memOf_appended_self : (appended w i data).memOf i =
    overwrite (w.memOf i) (w.bufs i).size.toNat data := by
  simp only [World.memOf, appended, Function.update_self]

theorem memOf_appended (hj : j ≠ i) : (appended w i data).memOf j =
    if (w.bufs j).rawBuffer = (w.bufs i).rawBuffer
      then overwrite (w.memOf i) (w.bufs i).size.toNat data else w.memOf j := by
  simp only [World.memOf, appended, Function.update_of_ne hj, Function.update_apply]

theorem bufs_appended (hj : j ≠ i) : (appended w i data).bufs j = w.bufs j :=
  Function.update_of_ne hj _ _

theorem step_append (hfits : (r i).bytes.length + data.length ≤ (r i).capacity) :
    (BoundedString.step r (.append i data)).2 = Function.update r i
      ⟨(r i).bytes ++ data, (r i).capacity, by rwa [List.length_append]⟩ := by
  rw [BoundedString.step, dif_pos hfits]

theorem holds_appended (h : Holds w r) (hdata : data.length < 4294967296)
    (hfits : (r i).bytes.length + data.length ≤ (r i).capacity) (hsame : SameBytes w i data) :
    Holds (appended w i data) (BoundedString.step r (.append i data)).2 := by
  have hwrite := write_le h hfits
  rw [step_append hfits]
  intro j
  rcases Classical.em (j = i) with rfl | hj
  · rw [memOf_appended_self, bufs_appended_self, Function.update_self]
    exact (h j).appended hdata hfits
  · rw [memOf_appended hj, bufs_appended hj, Function.update_of_ne hj]
    split_ifs with harea
    · have hmem : w.memOf j = w.memOf i := by rw [World.memOf, harea, World.memOf]
      have htake := (take_overwrite_eq_iff hwrite).mpr (hsame j hj harea)
      refine ⟨(h j).size, ?_, ?_, (h j).capacity⟩
      · rw [htake, ← hmem, (h j).bytes]
      · rw [length_overwrite hwrite, ← hmem, (h j).length]
    · exact h j

theorem sameBytes_of_same (h : Holds w r)
    (hfits : (r i).bytes.length + data.length ≤ (r i).capacity)
    (hsame : Same (appended w i data) (BoundedString.step r (.append i data)).2) :
    SameBytes w i data := by
  have hwrite := write_le h hfits
  rw [step_append hfits] at hsame
  intro j hj harea
  have hbytes := (hsame j).2
  rw [memOf_appended hj, bufs_appended hj, if_pos harea, Function.update_of_ne hj,
    ← (h j).bytes, World.memOf, World.memOf, harea] at hbytes
  exact (take_overwrite_eq_iff hwrite).mp hbytes

theorem holds_swapped (h : Holds w r) (hsize : (w.bufs i).size = (w.bufs j).size) :
    ∃ w', w.step (.swap i j) = .ok ((BoundedString.step r (.swap i j)).1, w') ∧
      Holds w' (BoundedString.step r (.swap i j)).2 := by
  refine ⟨_, rfl, fun k => ?_⟩
  simp only [BoundedString.step, World.memOf, Function.update_apply]
  split_ifs
  · exact (h i).given hsize.symm
  · exact (h j).given hsize
  · exact h k

theorem holds_moved (h : Holds w r) (hsize : (w.bufs i).size = (w.bufs j).size) :
    ∃ w', w.step (.move i j) = .ok ((BoundedString.step r (.move i j)).1, w') ∧
      Holds w' (BoundedString.step r (.move i j)).2 := by
  refine ⟨_, rfl, fun k => ?_⟩
  simp only [BoundedString.step, World.memOf, moveFrom, Function.update_apply]
  split_ifs
  · exact (h j).cleared
  · exact (h j).cleared
  · exact (h j).given hsize
  · exact h k

theorem step_of_harmless {s : World ι × (ι → BoundedString)} (h : Holds s.1 s.2)
    (hallowed : (system ι).Allowed s act) (hc : Harmless s act) :
    ∃ w, s.1.step act = .ok ((BoundedString.step s.2 act).1, w) ∧
      Holds w (BoundedString.step s.2 act).2 := by
  cases act with
  | append i data =>
      rcases Classical.em ((s.2 i).bytes.length + data.length ≤ (s.2 i).capacity) with hfits | hfull
      · refine ⟨_, append_fits h hallowed hfits, holds_appended h hallowed hfits (hc ?_)⟩
        rw [(h i).size, ← (h i).capacity]
        exact hfits
      · obtain ⟨hstep, hsame⟩ := append_full h hallowed hfull
        exact ⟨s.1, hstep, hsame.symm ▸ h⟩
  | clear i =>
      refine ⟨_, rfl, fun j => ?_⟩
      simp only [BoundedString.step, World.memOf, Function.update_apply]
      split_ifs
      · exact (h i).cleared
      · exact h j
  | copy i len pos =>
      refine ⟨s.1, ?_, h⟩
      rw [World.step, (h i).copy_iff.mpr hc]
      rfl
  | atPos i pos =>
      refine ⟨s.1, ?_, h⟩
      rw [World.step, (h i).atPos_iff.mpr hc]
      rfl
  | swap i j => exact holds_swapped h hc
  | move i j => exact holds_moved h hc

theorem harmless_of_acts {s : World ι × (ι → BoundedString)} (h : Holds s.1 s.2)
    (hallowed : (system ι).Allowed s act) (hacts : ActsAsString s act) : Harmless s act := by
  obtain ⟨w, hstep, hsame⟩ := hacts
  cases act with
  | append i data =>
      intro hroom
      rw [(h i).size, ← (h i).capacity] at hroom
      rw [append_fits h hallowed hroom] at hstep
      obtain ⟨-, rfl⟩ := Prod.mk.inj (Except.ok.inj hstep)
      exact sameBytes_of_same h hroom hsame
  | clear i => trivial
  | copy i len pos =>
      rw [World.step] at hstep
      obtain ⟨result, hcopy, hresult⟩ := map_eq_ok hstep
      rw [(Prod.mk.inj hresult).1] at hcopy
      exact (h i).copy_iff.mp hcopy
  | atPos i pos =>
      rw [World.step] at hstep
      obtain ⟨result, hat, hresult⟩ := map_eq_ok hstep
      rw [(Prod.mk.inj hresult).1] at hat
      exact (h i).atPos_iff.mp hat
  | swap i j =>
      obtain ⟨-, rfl⟩ := Prod.mk.inj (Except.ok.inj hstep)
      have hsize := (hsame j).1
      simp only [BoundedString.step, Function.update_self] at hsize
      apply UInt32.toNat_inj.mp
      rw [(h i).size]
      exact hsize.symm
  | move i j =>
      obtain ⟨-, rfl⟩ := Prod.mk.inj (Except.ok.inj hstep)
      rcases Classical.em (i = j) with rfl | hij
      · rfl
      · have hsize := (hsame i).1
        simp only [BoundedString.step, Function.update_self, Function.update_of_ne hij] at hsize
        apply UInt32.toNat_inj.mp
        rw [(h j).size]
        exact hsize

/-- The buffers go on as strings do exactly as long as nothing is done that they do not do as
strings. -/
theorem actsAsString_iff (areas : ι → {mem : List UInt8 // mem.length < 4294967296})
    (acts : List (Act ι)) :
    (system ι).Fits ActsAsString (start areas) acts ↔
      (system ι).Fits Harmless (start areas) acts := by
  refine System.fits_congr (fun s => Holds s.1 s.2) ?_ ?_ (holds_start areas)
  · intro s act h hallowed
    refine ⟨harmless_of_acts h hallowed, fun hc => ?_⟩
    obtain ⟨w, hstep, hholds⟩ := step_of_harmless h hallowed hc
    exact ⟨w, hstep, hholds.same⟩
  · intro s act s' h hallowed hc hstep
    obtain ⟨w, hw, hholds⟩ := step_of_harmless h hallowed hc
    simp only [system, hw, Except.map, Except.ok.injEq] at hstep
    rw [← hstep]
    exact hholds

/-- Two buffers that are swapped leave their sizes behind. -/
theorem swap_not_actsAsString :
    ¬ (system Bool).Fits ActsAsString (start fun _ => ⟨[0, 0, 0, 0], by decide⟩)
      [.append false [7, 7], .swap false true] := by
  rintro ⟨-, -, -, ⟨w, hstep, hsame⟩, -⟩
  obtain ⟨-, rfl⟩ := Prod.mk.inj (Except.ok.inj hstep)
  have hsize : (0 : Nat) = 2 := (hsame true).1
  cases hsize

end Steps

end RawBuffer

end CasualGame.Componet
