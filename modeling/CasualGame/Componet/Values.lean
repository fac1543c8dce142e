import Mathlib.Data.List.Forall2

/-!
The types that the containers of the standard library make of one another, their values,
and when two values are equal.
-/

namespace CasualGame.Componet.Serialization

/-- A type of scalars: how many bytes its values take, and what `<` and `==` say of values
with such bytes. -/
structure Scalar where
  size : Nat
  less : List UInt8 → List UInt8 → Bool
  equal : List UInt8 → List UInt8 → Bool

/-- The types without parts, those of which the standard library has a hash. -/
inductive Key
  | scalar (s : Scalar)
  | string

/-- The containers that keep their items in the order they are put in. -/
inductive Sequence
  | vector
  | basicString
  | list
  | deque
  | forwardList

/-- `set` and `map`, or `multiset` and `multimap`. -/
inductive Keys
  | unique
  | multi
  deriving DecidableEq

inductive Ty
  | key (k : Key)
  | pair (first second : Ty)
  | sequence (c : Sequence) (item : Ty)
  | set (keys : Keys) (item : Ty)
  | map (keys : Keys) (k : Scalar) (value : Ty)
  | unorderedSet (keys : Keys) (item : Key)
  | unorderedMap (keys : Keys) (k : Scalar) (value : Ty)

namespace Ty

/-- What a value is. Scalars and strings are their bytes, and a container is the list of
what it holds, in the order in which it is gone through. -/
@[reducible] def carrier : Ty → Type
  | key _ => List UInt8
  | pair first second => first.carrier × second.carrier
  | sequence _ item => List item.carrier
  | set _ item => List item.carrier
  | map _ _ value => List (List UInt8 × value.carrier)
  | unorderedSet _ _ => List (List UInt8)
  | unorderedMap _ _ value => List (List UInt8 × value.carrier)

end Ty

section Order

variable {α β : Type}

/-- `std::lexicographical_compare` -/
def lexLess (less : α → α → Bool) : List α → List α → Bool
  | _, [] => false
  | [], _ :: _ => true
  | x :: xs, y :: ys => less x y || !less y x && lexLess less xs ys

/-- `<` of pairs -/
def pairLess (less : α → α → Bool) (less' : β → β → Bool) (x y : α × β) : Bool :=
  less x.1 y.1 || !less y.1 x.1 && less' x.2 y.2

def Key.less : Key → List UInt8 → List UInt8 → Bool
  | scalar s => s.less
  | string => lexLess fun b c => decide (b < c)

def Key.equal : Key → List UInt8 → List UInt8 → Bool
  | scalar s => s.equal
  | string => fun x y => decide (x = y)

namespace Ty

/-- The types that have a `<`. -/
def Ordered : Ty → Prop
  | key _ => True
  | pair first second => first.Ordered ∧ second.Ordered
  | sequence _ item => item.Ordered
  | set _ item => item.Ordered
  | map _ _ value => value.Ordered
  | unorderedSet _ _ => False
  | unorderedMap _ _ _ => False

def less : (t : Ty) → t.carrier → t.carrier → Bool
  | key k => k.less
  | pair first second => pairLess first.less second.less
  | sequence _ item => lexLess item.less
  | set _ item => lexLess item.less
  | map _ k value => lexLess (pairLess k.less value.less)
  | unorderedSet _ _ => fun _ _ => false
  | unorderedMap _ _ _ => fun _ _ => false

end Ty

/-- How the items of an ordered container stand, by their keys. -/
def InOrder (keys : Keys) (less : β → β → Bool) (key : α → β) (xs : List α) : Prop :=
  match keys with
  | .unique => xs.Pairwise fun x y => less (key x) (key y) = true
  | .multi => xs.Pairwise fun x y => less (key y) (key x) = false

/-- What there is in an unordered container, by the keys. -/
def Apart (keys : Keys) (equal : β → β → Bool) (key : α → β) (xs : List α) : Prop :=
  match keys with
  | .unique => xs.Pairwise fun x y => equal (key x) (key y) = false
  | .multi => True

end Order

/-- What every container says of its size. -/
def maxSize : Nat := 0x10000000000000000

section Values

def Key.Valid : Key → List UInt8 → Prop
  | scalar s, x => x.length = s.size
  | string, x => x.length < maxSize

namespace Ty

/-- The values of a type. A set of what has no `<` is no type, and has none. -/
def Valid : (t : Ty) → t.carrier → Prop
  | key k, x => k.Valid x
  | pair first second, x => first.Valid x.1 ∧ second.Valid x.2
  | sequence _ item, xs => xs.length < maxSize ∧ ∀ x ∈ xs, item.Valid x
  | set keys item, xs => xs.length < maxSize ∧ (∀ x ∈ xs, item.Valid x) ∧ item.Ordered ∧
      InOrder keys item.less id xs
  | map keys k value, xs => xs.length < maxSize ∧
      (∀ x ∈ xs, x.1.length = k.size ∧ value.Valid x.2) ∧ InOrder keys k.less Prod.fst xs
  | unorderedSet keys item, xs => xs.length < maxSize ∧ (∀ x ∈ xs, item.Valid x) ∧
      Apart keys item.equal id xs
  | unorderedMap keys k value, xs => xs.length < maxSize ∧
      (∀ x ∈ xs, x.1.length = k.size ∧ value.Valid x.2) ∧ Apart keys k.equal Prod.fst xs

/-- Two values are equal: unordered containers as multisets, at every depth. -/
def Same : (t : Ty) → t.carrier → t.carrier → Prop
  | key _, y, x => y = x
  | pair first second, y, x => first.Same y.1 x.1 ∧ second.Same y.2 x.2
  | sequence _ item, ys, xs => List.Forall₂ item.Same ys xs
  | set _ item, ys, xs => List.Forall₂ item.Same ys xs
  | map _ _ value, ys, xs => List.Forall₂ (fun y x => y.1 = x.1 ∧ value.Same y.2 x.2) ys xs
  | unorderedSet _ _, ys, xs => ys.Perm xs
  | unorderedMap _ _ value, ys, xs =>
      ∃ zs, ys.Perm zs ∧ List.Forall₂ (fun y x => y.1 = x.1 ∧ value.Same y.2 x.2) zs xs

end Ty

/-- A value of a type. -/
structure Value (t : Ty) where
  data : t.carrier
  valid : t.Valid data

end Values

end CasualGame.Componet.Serialization
