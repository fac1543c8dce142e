import Mathlib.Data.List.Basic

/-!
Programs that read memory behind a pointer, and which places they read.
-/

namespace CasualGame.Lib

universe u

/-- A program that reads `size` bytes at `offset`, and goes on with them. -/
inductive Reads (α : Type u) : Type u
  | ret (a : α)
  | read (offset size : Nat) (next : List UInt8 → Reads α)

namespace Reads

variable {α β : Type u}

def bind (m : Reads α) (f : α → Reads β) : Reads β :=
  match m with
  | .ret a => f a
  | .read offset size next => .read offset size fun bytes => (next bytes).bind f

instance : Monad Reads where
  pure := .ret
  bind := bind

def bytes (offset size : Nat) : Reads (List UInt8) := .read offset size .ret

variable {memory memory' : Nat → UInt8} {m : Reads α} {f : α → Reads β} {a : α}
  {n offset size : Nat}

/-- The bytes that are there. -/
def load (memory : Nat → UInt8) (offset size : Nat) : List UInt8 :=
  (List.range size).map fun i => memory (offset + i)

def run (memory : Nat → UInt8) : Reads α → α
  | .ret a => a
  | .read offset size next => run memory (next (load memory offset size))

/-- The places a run reads. -/
def spans (memory : Nat → UInt8) : Reads α → List (Nat × Nat)
  | .ret _ => []
  | .read offset size next =>
      (offset, size) :: spans memory (next (load memory offset size))

/-- Nothing is read but of the first `n` bytes. -/
def Within (memory : Nat → UInt8) (n : Nat) (m : Reads α) : Prop :=
  ∀ span ∈ m.spans memory, span.1 + span.2 ≤ n

@[simp] theorem run_pure : run memory (pure a : Reads α) = a := rfl

@[simp] theorem run_bytes : run memory (bytes offset size) = load memory offset size := rfl

@[simp] theorem run_bind : run memory (m >>= f) = run memory (f (run memory m)) := by
  change run memory (m.bind f) = _
  induction m with
  | ret a => rfl
  | read offset size next ih => exact ih _

theorem spans_bind :
    spans memory (m >>= f) = spans memory m ++ spans memory (f (run memory m)) := by
  change spans memory (m.bind f) = _
  induction m with
  | ret a => rfl
  | read offset size next ih => exact congrArg ((offset, size) :: ·) (ih _)

@[simp] theorem within_pure : Within memory n (pure a : Reads α) := by
  rintro span (_ | _)

@[simp] theorem within_bytes : Within memory n (bytes offset size) ↔ offset + size ≤ n := by
  constructor
  · intro h
    exact h (offset, size) List.mem_cons_self
  · rintro h span (_ | ⟨_, hspan⟩)
    · exact h
    · cases hspan

@[simp] theorem within_bind :
    Within memory n (m >>= f) ↔ Within memory n m ∧ Within memory n (f (run memory m)) := by
  rw [Within, spans_bind]
  exact List.forall_mem_append

/-- A memory that starts with these bytes. -/
def StartsWith (memory : Nat → UInt8) (content : List UInt8) : Prop :=
  ∀ i, (h : i < content.length) → memory i = content[i]

theorem StartsWith.load_eq {content : List UInt8} (h : StartsWith memory content)
    (hfits : offset + size ≤ content.length) :
    load memory offset size = (content.drop offset).take size := by
  apply List.ext_getElem
  · rw [load, List.length_map, List.length_range, List.length_take, List.length_drop]
    omega
  · intro i hi hi'
    rw [load, List.length_map, List.length_range] at hi
    rw [List.getElem_take, List.getElem_drop, ← h (offset + i) (by omega)]
    simp [load]

/-- What a program comes to depends on nothing but what it reads. -/
theorem run_congr (hwithin : Within memory n m) (h : ∀ i < n, memory' i = memory i) :
    run memory' m = run memory m := by
  induction m with
  | ret a => rfl
  | read offset size next ih =>
      have hfits : offset + size ≤ n := hwithin (offset, size) List.mem_cons_self
      have hload : load memory' offset size = load memory offset size := by
        apply List.map_congr_left
        intro i hi
        rw [List.mem_range] at hi
        exact h (offset + i) (by omega)
      change run memory' (next (load memory' offset size)) = _
      rw [hload]
      exact ih _ fun span hspan => hwithin span (List.mem_cons_of_mem _ hspan)

end Reads

end CasualGame.Lib
