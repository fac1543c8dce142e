import Mathlib.Logic.Function.Basic
import Mathlib.Tactic.SplitIfs

/-!
Locks of which every thread holds at most one, in some mode.
-/

namespace CasualGame.Lib.Locks

universe u v w

variable {τ : Type u} {ι : Type v} {κ : Type w}

/-- What the threads hold is what the locks say. -/
def Agree (held : τ → Option (ι × κ)) (owner : ι → Option (τ × κ)) : Prop :=
  ∀ t i m, held t = some (i, m) ↔ owner i = some (t, m)

variable {held : τ → Option (ι × κ)} {owner : ι → Option (τ × κ)} {t t' : τ} {i : ι} {m m' : κ}

/-- No two threads hold the same lock. -/
theorem Agree.eq_of_held (h : Agree held owner) (ht : held t = some (i, m))
    (ht' : held t' = some (i, m')) : t = t' := by
  have howner := (h t i m).mp ht
  rw [(h t' i m').mp ht', Option.some.injEq, Prod.mk.injEq] at howner
  exact howner.1.symm

variable [DecidableEq τ] [DecidableEq ι]

/-- A thread takes a lock that nobody else holds, holds it in another mode, or gives it back. -/
theorem Agree.update (h : Agree held owner) (mode : Option κ)
    (hfree : ∀ t' m, owner i = some (t', m) → t' = t)
    (hother : ∀ i' m, held t = some (i', m) → i' = i) :
    Agree (Function.update held t (mode.map (i, ·)))
      (Function.update owner i (mode.map (t, ·))) := by
  intro t' i' m
  rw [Function.update_apply, Function.update_apply]
  split_ifs with ht hi hi
  · subst ht hi
    cases mode with
    | none => exact iff_of_false (Option.some_ne_none _).symm (Option.some_ne_none _).symm
    | some mode => simp
  · subst ht
    have hnot : owner i' ≠ some (t', m) := fun howner => hi (hother i' m ((h t' i' m).mpr howner))
    refine iff_of_false ?_ hnot
    cases mode with
    | none => exact (Option.some_ne_none _).symm
    | some mode =>
        intro heq
        rw [Option.map_some, Option.some.injEq, Prod.mk.injEq] at heq
        exact hi heq.1.symm
  · subst hi
    have hnot : held t' ≠ some (i', m) := fun hheld => ht (hfree t' m ((h t' i' m).mp hheld))
    refine iff_of_false hnot ?_
    cases mode with
    | none => exact (Option.some_ne_none _).symm
    | some mode =>
        intro heq
        rw [Option.map_some, Option.some.injEq, Prod.mk.injEq] at heq
        exact ht heq.1.symm
  · exact h t' i' m

end CasualGame.Lib.Locks
