import Mathlib.Logic.Function.Basic

/-!
A place that one thread at a time can be in, kept by a flag.
-/

namespace CasualGame.Lib.Exclusion

universe u v

variable {τ : Type u} {π : Type v}

/-- No two threads are inside, and none is while the flag is not up. -/
structure Exclusive (up : Prop) (inside : π → Prop) (pc : τ → π) : Prop where
  eq_of_inside : ∀ {t t'}, inside (pc t) → inside (pc t') → t = t'
  up_of_inside : ∀ {t}, inside (pc t) → up

variable {up up' : Prop} {inside : π → Prop} {pc : τ → π} {t : τ} {p : π}

theorem Exclusive.not_inside (h : Exclusive up inside pc) (hup : ¬ up) (t : τ) : ¬ inside (pc t) :=
  fun ht => hup (h.up_of_inside ht)

variable [DecidableEq τ]

/-- Who finds the flag down goes in and puts it up. -/
theorem Exclusive.enter (h : Exclusive up inside pc) (hup : ¬ up) (hup' : up') (t : τ) (p : π) :
    Exclusive up' inside (Function.update pc t p) := by
  have heq : ∀ {t'}, inside (Function.update pc t p t') → t' = t := by
    intro t' ht'
    rcases eq_or_ne t' t with rfl | hne
    · rfl
    · rw [Function.update_of_ne hne] at ht'
      exact absurd ht' (h.not_inside hup t')
  exact ⟨fun ht ht' => (heq ht).trans (heq ht').symm, fun _ => hup'⟩

/-- Who goes on does not get inside by that. -/
theorem Exclusive.move (h : Exclusive up inside pc) (hp : inside p → inside (pc t)) :
    Exclusive up inside (Function.update pc t p) := by
  have hinside : ∀ {t'}, inside (Function.update pc t p t') → inside (pc t') := by
    intro t' ht'
    rcases eq_or_ne t' t with rfl | hne
    · rw [Function.update_self] at ht'
      exact hp ht'
    · rwa [Function.update_of_ne hne] at ht'
  exact ⟨fun ht ht' => h.eq_of_inside (hinside ht) (hinside ht'),
    fun ht => h.up_of_inside (hinside ht)⟩

/-- Who is inside goes out, and leaves nobody behind. -/
theorem Exclusive.not_inside_of_leave (h : Exclusive up inside pc) (ht : inside (pc t))
    (hp : ¬ inside p) (t' : τ) : ¬ inside (Function.update pc t p t') := by
  rcases eq_or_ne t' t with rfl | hne
  · rwa [Function.update_self]
  · rw [Function.update_of_ne hne]
    exact fun ht' => hne (h.eq_of_inside ht' ht)

theorem Exclusive.leave (h : Exclusive up inside pc) (ht : inside (pc t)) (hp : ¬ inside p) :
    Exclusive up' inside (Function.update pc t p) :=
  ⟨fun hleft => absurd hleft (h.not_inside_of_leave ht hp _),
    fun hleft => absurd hleft (h.not_inside_of_leave ht hp _)⟩

end CasualGame.Lib.Exclusion
