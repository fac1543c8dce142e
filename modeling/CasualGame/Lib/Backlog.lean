import Mathlib.Order.Nat

/-!
A worker that finishes one job a turn, at the most: when it has caught up.
-/

namespace CasualGame.Lib.Backlog

/-- The jobs finished after so many turns, when `arrived` counts the jobs that have
arrived by then. -/
def served (arrived : Nat → Nat) : Nat → Nat
  | 0 => arrived 0
  | turn + 1 => min (served arrived turn + 1) (arrived (turn + 1))

variable {arrived arrived' : Nat → Nat}

theorem served_congr {n : Nat} (h : ∀ k ≤ n, arrived k = arrived' k) :
    served arrived n = served arrived' n := by
  induction n with
  | zero => exact h 0 (Nat.le_refl 0)
  | succ n ih => rw [served, served, ih fun k hk => h k (hk.trans n.le_succ), h _ (Nat.le_refl _)]

theorem served_le (arrived : Nat → Nat) (n : Nat) : served arrived n ≤ arrived n := by
  cases n with
  | zero => exact Nat.le_refl _
  | succ n => exact Nat.min_le_right _ _

/-- As many are finished as every turn allows, counting the ones after it. -/
theorem le_served_iff {n m : Nat} :
    m ≤ served arrived n ↔ ∀ k ≤ n, m ≤ arrived k + (n - k) := by
  induction n generalizing m with
  | zero =>
      constructor
      · intro h k hk
        obtain rfl := Nat.le_zero.mp hk
        exact h
      · intro h
        exact h 0 (Nat.le_refl 0)
  | succ n ih =>
      rw [served, Nat.le_min]
      constructor
      · rintro ⟨hbefore, hnow⟩ k hk
        rcases Nat.eq_or_lt_of_le hk with rfl | hk
        · rwa [Nat.sub_self]
        · have := (ih (m := m - 1)).mp (by omega) k (by omega)
          omega
      · intro h
        constructor
        · have hle : m - 1 ≤ served arrived n := ih.mpr fun k hk => by
            have := h k (by omega)
            omega
          omega
        · have := h (n + 1) (Nat.le_refl _)
          omega

/-- Nothing is left over when no stretch of turns up to the last one brought more jobs
than it has turns. -/
theorem served_eq_iff {n : Nat} :
    served arrived n = arrived n ↔ ∀ k ≤ n, arrived n ≤ arrived k + (n - k) := by
  rw [← le_served_iff]
  exact ⟨fun h => h.ge, fun h => Nat.le_antisymm (served_le _ _) h⟩

end CasualGame.Lib.Backlog
