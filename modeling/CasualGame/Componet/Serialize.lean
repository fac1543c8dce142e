import CasualGame.Componet.Values
import CasualGame.Lib.Decoding
import CasualGame.Lib.LittleEndian

/-!
How `Serialize` puts values into a buffer, and how `Deserialize` gets them out of it.
-/

namespace CasualGame.Componet.Serialization

open Lib.Decoding
open Lib.LittleEndian

section Writing

/-- The writer: its buffer, and `m_opos`. -/
structure Serialize where
  buffer : List UInt8 := []
  opos : Nat := 0

def Serialize.append (s : Serialize) (bytes : List UInt8) : Serialize :=
  ⟨s.buffer ++ bytes, s.opos + bytes.length⟩

variable {α β : Type}

/-- A `size_type` is a number of 8 bytes. -/
def putSize (size : Nat) (s : Serialize) : Serialize :=
  s.append (toBytes 8 size)

def putPair (put : α → Serialize → Serialize) (put' : β → Serialize → Serialize)
    (pair : α × β) (s : Serialize) : Serialize :=
  put' pair.2 (put pair.1 s)

def serializeContainer (put : α → Serialize → Serialize) (container : List α)
    (s : Serialize) : Serialize :=
  container.foldl (fun s item => put item s) (putSize container.length s)

def Key.put : Key → List UInt8 → Serialize → Serialize
  | scalar _, t, s => s.append t
  | string, str, s => (putSize str.length s).append str

/-- `operator <<` -/
def Ty.put : (t : Ty) → t.carrier → Serialize → Serialize
  | key k, x => k.put x
  | pair first second, x => putPair first.put second.put x
  | sequence _ item, xs => serializeContainer item.put xs
  | set _ item, xs => serializeContainer item.put xs
  | map _ k value, xs => serializeContainer (putPair (Key.scalar k).put value.put) xs
  | unorderedSet _ item, xs => serializeContainer item.put xs
  | unorderedMap _ k value, xs => serializeContainer (putPair (Key.scalar k).put value.put) xs

end Writing

/-- What the language leaves open: the bytes that a scalar has before it is read, and the
order in which an unordered container goes through what has been put into it. -/
structure Platform where
  unset : Nat → List UInt8
  length_unset : ∀ size, (unset size).length = size
  iterated : Keys → (t : Ty) → List t.carrier → List t.carrier
  iterated_perm : ∀ keys t xs, (iterated keys t xs).Perm xs

/-- Scalars are zero before they are read, and containers are gone through in the order they
have been filled. -/
def Platform.plain : Platform where
  unset size := List.replicate size 0
  length_unset _ := List.length_replicate
  iterated _ _ xs := xs
  iterated_perm _ _ _ := List.Perm.refl _

section Fresh

variable (p : Platform)

def Key.fresh : Key → List UInt8
  | scalar s => p.unset s.size
  | string => []

/-- An object that has just been made. -/
def Ty.fresh : (t : Ty) → t.carrier
  | key k => k.fresh p
  | pair first second => (first.fresh, second.fresh)
  | sequence _ _ => []
  | set _ _ => []
  | map _ _ _ => []
  | unorderedSet _ _ => []
  | unorderedMap _ _ _ => []

end Fresh

section Containers

variable {α β : Type}

/-- `insert` with the end for a hint: behind all that it may stand behind. -/
def insertOrdered (keys : Keys) (less : β → β → Bool) (key : α → β) (xs : List α) (x : α) :
    List α :=
  match keys with
  | .unique =>
      if xs.any fun y => !less (key y) (key x) && !less (key x) (key y) then xs
      else xs.takeWhile (fun y => less (key y) (key x)) ++
        x :: xs.dropWhile fun y => less (key y) (key x)
  | .multi =>
      xs.takeWhile (fun y => !less (key x) (key y)) ++
        x :: xs.dropWhile fun y => !less (key x) (key y)

/-- What has been put into an unordered container, one after another. -/
def insertUnordered (keys : Keys) (equal : β → β → Bool) (key : α → β) (xs : List α) (x : α) :
    List α :=
  match keys with
  | .unique => if xs.any fun y => equal (key y) (key x) then xs else xs ++ [x]
  | .multi => xs ++ [x]

def resize (size : Nat) (fresh : α) (xs : List α) : List α :=
  xs.take size ++ List.replicate (size - xs.length) fresh

end Containers

section Reading

/-- What the operators `>>` are made of, whatever it is that a read does. -/
class Reading (m : Type → Type) where
  scalar (t : List UInt8) : m (List UInt8)
  /-- `str.assign` -/
  assign (size : Nat) : m (List UInt8)
  /-- There has to be memory for so many items. -/
  request {α : Type} (size : Nat) (next : m α) : m α

open Reading

variable {m : Type → Type} [Monad m] [Reading m] {α β : Type}

def getSize : m Nat := do
  let size ← scalar (toBytes 8 0)
  return ofBytes size

def getString : m (List UInt8) := do
  let size ← getSize
  request size (assign size)

def getPair (get : α → m α) (get' : β → m β) (pair : α × β) : m (α × β) := do
  let first ← get pair.1
  let second ← get' pair.2
  return (first, second)

/-- `(*this) >> container[i]`, for a place that is there -/
def getAt (get : α → m α) (fresh : α) (i : Nat) (container : List α) : m (List α) := do
  let item ← get (container.getD i fresh)
  return container.set i item

def deserializeRandomAccessContainer (get : α → m α) (fresh : α) (container : List α) :
    m (List α) := do
  let size ← getSize
  request size (forLoop (getAt get fresh) 0 size (resize size fresh container))

def getInserted (get : m α) (insert : List α → α → List α) (container : List α) :
    m (List α) := do
  let t ← get
  request 1 (pure (insert container t))

/-- The container is cleared first, and `get` reads into an item just made. -/
def deserializeNonRandomAccessContainer (get : m α) (insert : List α → α → List α) :
    m (List α) := do
  let size ← getSize
  forLoop (fun _ container => getInserted get insert container) 0 size []

/-- The iterator has come to the place `i` by now. -/
def insertAfter (get : α → m α) (fresh : α) (i : Nat) (fl : List α) : m (List α) := do
  let t ← get fresh
  request 1 (pure (fl.insertIdx (i + 1) t))

/-- The items go behind one that is put in front and taken away again. -/
def getForwardList (get : α → m α) (fresh : α) (fl : List α) : m (List α) := do
  let size ← getSize
  let fl ← request 1 (forLoop (insertAfter get fresh) 0 size (fresh :: fl))
  return fl.tail

def getSequence (c : Sequence) (get : α → m α) (fresh : α) (xs : List α) : m (List α) :=
  match c with
  | .vector => deserializeRandomAccessContainer get fresh xs
  | .basicString => deserializeRandomAccessContainer get fresh xs
  | .list => deserializeNonRandomAccessContainer (get fresh) fun xs x => xs ++ [x]
  | .deque => deserializeNonRandomAccessContainer (get fresh) fun xs x => xs ++ [x]
  | .forwardList => getForwardList get fresh xs

def Key.get : Key → List UInt8 → m (List UInt8)
  | scalar _, t => Reading.scalar t
  | string, _ => getString

variable (p : Platform)

/-- `operator >>`, into an object that is there. -/
def Ty.get : (t : Ty) → t.carrier → m t.carrier
  | key k, x => k.get x
  | pair first second, x => getPair first.get second.get x
  | sequence c item, xs => getSequence c item.get (item.fresh p) xs
  | set keys item, _ =>
      deserializeNonRandomAccessContainer (item.get (item.fresh p))
        (insertOrdered keys item.less id)
  | map keys k value, _ =>
      deserializeNonRandomAccessContainer
        (getPair (Key.scalar k).get value.get ((Key.scalar k).fresh p, value.fresh p))
        (insertOrdered keys k.less Prod.fst)
  | unorderedSet keys item, _ => do
      let xs ← deserializeNonRandomAccessContainer (item.get (item.fresh p))
        (insertUnordered keys item.equal id)
      return p.iterated keys (key item) xs
  | unorderedMap keys k value, _ => do
      let xs ← deserializeNonRandomAccessContainer
        (getPair (Key.scalar k).get value.get ((Key.scalar k).fresh p, value.fresh p))
        (insertUnordered keys k.equal Prod.fst)
      return p.iterated keys (pair (key (.scalar k)) value) xs

/-- One object after another is read. -/
def getInto : List (Σ t : Ty, t.carrier) → m (List (Σ t : Ty, t.carrier))
  | [] => pure []
  | ⟨t, old⟩ :: olds => do
      let x ← t.get p old
      let xs ← getInto olds
      return ⟨t, x⟩ :: xs

end Reading

section Deserializing

abbrev Deserialize := Decoder UInt8

/-- Byte by byte, as far as the buffer goes. -/
def getScalar (t : List UInt8) : Deserialize (List UInt8) :=
  fun buffer ipos => some (overlay buffer t ipos)

/-- What stands behind the end of the buffer is not defined. -/
def assign (size : Nat) : Deserialize (List UInt8) := fun buffer ipos =>
  if ipos + size ≤ buffer.length then some ((buffer.drop ipos).take size, ipos + size)
  else none

/-- There is memory for everything. -/
instance : Reading Deserialize where
  scalar := getScalar
  assign := assign
  request _ next := next

end Deserializing

end CasualGame.Componet.Serialization
