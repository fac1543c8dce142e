import Mathlib.Logic.Function.Basic
import Mathlib.Tactic.SplitIfs

/-!
Two maps in which the same things are found, each of them under a key of its own.
-/

namespace CasualGame.Lib.TwoMaps

universe u v w

variable {η : Type u} {κ₁ : Type v} {κ₂ : Type w}

/-- Both maps hold the same things, each under its keys. -/
structure Twin (key₁ : η → κ₁) (key₂ : η → κ₂) (m₁ : κ₁ → Option η) (m₂ : κ₂ → Option η) :
    Prop where
  placed₁ : ∀ k x, m₁ k = some x → key₁ x = k
  placed₂ : ∀ k x, m₂ k = some x → key₂ x = k
  both : ∀ x, m₁ (key₁ x) = some x ↔ m₂ (key₂ x) = some x

variable {key₁ : η → κ₁} {key₂ : η → κ₂} {m₁ : κ₁ → Option η} {m₂ : κ₂ → Option η}

theorem twin_empty : Twin key₁ key₂ (fun _ => none) (fun _ => none) where
  placed₁ _ _ hget := absurd hget (Option.some_ne_none _).symm
  placed₂ _ _ hget := absurd hget (Option.some_ne_none _).symm
  both _ := iff_of_false (Option.some_ne_none _).symm (Option.some_ne_none _).symm

variable [DecidableEq κ₁] [DecidableEq κ₂]

/-- Something that is put in and taken out again. -/
theorem update_none {κ : Type v} [DecidableEq κ] {m : κ → Option η} {k : κ} (h : m k = none)
    (x : η) : Function.update (Function.update m k (some x)) k none = m := by
  rw [Function.update_idem, ← h, Function.update_eq_self]

theorem placed_add {κ : Type v} [DecidableEq κ] {key : η → κ} {m : κ → Option η}
    (h : ∀ k x, m k = some x → key x = k) (new : η) (k : κ) (x : η)
    (hget : Function.update m (key new) (some new) k = some x) : key x = k := by
  rw [Function.update_apply] at hget
  split_ifs at hget with hk
  · obtain rfl := Option.some.inj hget
    exact hk.symm
  · exact h k x hget

theorem placed_erase {κ : Type v} [DecidableEq κ] {key : η → κ} {m : κ → Option η}
    (h : ∀ k x, m k = some x → key x = k) (k' k : κ) (x : η)
    (hget : Function.update m k' none k = some x) : key x = k := by
  rw [Function.update_apply] at hget
  split_ifs at hget
  exact h k x hget

/-- Something under keys that are free goes into both maps. -/
theorem Twin.add (h : Twin key₁ key₂ m₁ m₂) {new : η} (h₁ : m₁ (key₁ new) = none)
    (h₂ : m₂ (key₂ new) = none) :
    Twin key₁ key₂ (Function.update m₁ (key₁ new) (some new))
      (Function.update m₂ (key₂ new) (some new)) := by
  refine ⟨placed_add h.placed₁ new, placed_add h.placed₂ new, fun x => ?_⟩
  rw [Function.update_apply, Function.update_apply]
  split_ifs with hk₁ hk₂ hk₂
  · exact Iff.rfl
  · refine iff_of_false (fun heq => hk₂ ?_) fun hget => ?_
    · rw [Option.some.inj heq]
    · rw [← h.both, hk₁, h₁] at hget
      cases hget
  · refine iff_of_false (fun hget => ?_) fun heq => hk₁ ?_
    · rw [h.both, hk₂, h₂] at hget
      cases hget
    · rw [Option.some.inj heq]
  · exact h.both x

/-- What is found in the one map is erased from both. -/
theorem Twin.erase (h : Twin key₁ key₂ m₁ m₂) {old : η} (h₁ : m₁ (key₁ old) = some old) :
    Twin key₁ key₂ (Function.update m₁ (key₁ old) none)
      (Function.update m₂ (key₂ old) none) := by
  have h₂ := (h.both old).mp h₁
  refine ⟨placed_erase h.placed₁ _, placed_erase h.placed₂ _, fun x => ?_⟩
  rw [Function.update_apply, Function.update_apply]
  split_ifs with hk₁ hk₂ hk₂
  · exact Iff.rfl
  · refine iff_of_false not_false fun hget => hk₂ ?_
    rw [← h.both, hk₁, h₁] at hget
    rw [Option.some.inj hget]
  · refine iff_of_false (fun hget => hk₁ ?_) not_false
    rw [h.both, hk₂, h₂] at hget
    rw [Option.some.inj hget]
  · exact h.both x

end CasualGame.Lib.TwoMaps
