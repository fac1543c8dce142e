import Mathlib.Data.List.Basic

/-!
Programs that read a buffer from a position on, and a rule for each way to build one: what
is read where given bytes stand, whatever stands before and behind them.
-/

namespace CasualGame.Lib.Decoding

universe u v w

variable {β α γ : Type}

/-- What is read, and the position behind it. `none` is a read that is not defined. -/
abbrev Decoder (β : Type) := ReaderT (List β) (StateT Nat Option)

/-- Where `bytes` stand, the decoder reads all of them and no more, and what it makes of
them is as `P` says. -/
def Reads (d : Decoder β α) (bytes : List β) (P : α → Prop) : Prop :=
  ∀ before after, ∃ x,
    d (before ++ bytes ++ after) before.length = some (x, before.length + bytes.length) ∧ P x

section Rules

variable {d : Decoder β α} {f : α → Decoder β γ} {bytes more : List β} {P Q : α → Prop}
  {R : γ → Prop} {x : α}

theorem Reads.mono (h : Reads d bytes P) (himp : ∀ x, P x → Q x) : Reads d bytes Q := by
  intro before after
  obtain ⟨x, hd, hx⟩ := h before after
  exact ⟨x, hd, himp x hx⟩

theorem reads_pure (hx : P x) : Reads (pure x : Decoder β α) [] P :=
  fun _ _ => ⟨x, rfl, hx⟩

theorem Reads.bind (h : Reads d bytes P) (hf : ∀ x, P x → Reads (f x) more R) :
    Reads (d >>= f) (bytes ++ more) R := by
  intro before after
  obtain ⟨x, hd, hx⟩ := h before (more ++ after)
  obtain ⟨y, hy, hR⟩ := hf x hx (before ++ bytes) after
  refine ⟨y, ?_, hR⟩
  simp only [List.append_assoc, List.length_append] at hd hy ⊢
  calc (d >>= f) (before ++ (bytes ++ (more ++ after))) before.length
      = (d (before ++ (bytes ++ (more ++ after))) before.length).bind fun r =>
          f r.1 (before ++ (bytes ++ (more ++ after))) r.2 := rfl
    _ = f x (before ++ (bytes ++ (more ++ after))) (before.length + bytes.length) := by
        rw [hd, Option.bind_some]
    _ = some (y, before.length + (bytes.length + more.length)) := by rw [hy, Nat.add_assoc]

/-- A step behind a read that takes nothing more from the buffer. -/
theorem Reads.bind_pure {g : α → γ} (h : Reads d bytes P) (hg : ∀ x, P x → R (g x)) :
    Reads (d >>= fun x => pure (g x)) bytes R := by
  have hbind := h.bind (f := fun x => pure (g x)) fun x hx => reads_pure (hg x hx)
  rwa [List.append_nil] at hbind

end Rules

section Loop

/-- `for(i = start; i < start + count; ++i)` over what is being built. -/
def forLoop {m : Type → Type} [Monad m] (body : Nat → γ → m γ) : Nat → Nat → γ → m γ
  | _, 0, c => pure c
  | i, count + 1, c => do forLoop body (i + 1) count (← body i c)

variable {body : Nat → γ → Decoder β γ} {write : α → List β} {Inv : List α → γ → Prop}

theorem reads_forLoop_from {xs todo done : List α} {c : γ}
    (hbody : ∀ done x rest, xs = done ++ x :: rest → ∀ c, Inv done c →
      Reads (body done.length c) (write x) (Inv (done ++ [x])))
    (hxs : xs = done ++ todo) (hc : Inv done c) :
    Reads (forLoop body done.length todo.length c) (todo.flatMap write) (Inv xs) := by
  induction todo generalizing done c with
  | nil =>
      rw [List.append_nil] at hxs
      rw [hxs]
      exact reads_pure hc
  | cons x todo ih =>
      refine (hbody done x todo hxs c hc).bind fun c' hc' => ?_
      have hrest := @ih (done ++ [x]) c' (by rw [hxs]; simp) hc'
      rwa [List.length_append, List.length_singleton] at hrest

/-- A loop over bytes that were written item after item. The invariant says what has been
built of the items done. -/
theorem reads_forLoop (body : Nat → γ → Decoder β γ) (write : α → List β)
    (Inv : List α → γ → Prop) {xs : List α} {c : γ}
    (hbody : ∀ done x rest, xs = done ++ x :: rest → ∀ c, Inv done c →
      Reads (body done.length c) (write x) (Inv (done ++ [x])))
    (hc : Inv [] c) : Reads (forLoop body 0 xs.length c) (xs.flatMap write) (Inv xs) :=
  reads_forLoop_from hbody (List.nil_append _).symm hc

end Loop

section Bytes

/-- Bytes that are laid over others one by one, as far as the buffer has any: what is there
then, and where the reading stopped. -/
def overlay (buffer : List β) : List β → Nat → List β × Nat
  | [], ipos => ([], ipos)
  | b :: old, ipos =>
      match buffer[ipos]? with
      | none => (b :: old, ipos)
      | some byte =>
          let (rest, ipos) := overlay buffer old (ipos + 1)
          (byte :: rest, ipos)

theorem overlay_eq {before bytes after old : List β} (hlength : old.length = bytes.length) :
    overlay (before ++ bytes ++ after) old before.length =
      (bytes, before.length + bytes.length) := by
  induction old generalizing before bytes with
  | nil =>
      obtain rfl := List.length_eq_zero_iff.mp hlength.symm
      rfl
  | cons b old ih =>
      cases bytes with
      | nil => cases hlength
      | cons byte bytes =>
          have hrest := @ih (before ++ [byte]) bytes (Nat.succ.inj hlength)
          rw [List.append_assoc before, List.singleton_append, List.length_append,
            List.length_singleton] at hrest
          have hget : (before ++ byte :: bytes ++ after)[before.length]? = some byte := by simp
          simp only [overlay, hget, hrest, List.length_cons, Nat.add_assoc, Nat.add_comm 1]

end Bytes

end CasualGame.Lib.Decoding
