import Mathlib.Data.List.Basic

/-!
Blocks of a stream: whole, one after the other, and with anything between them.
-/

namespace CasualGame.Lib.Blocks

universe u

variable {β : Type u} {blocks : List (List β)} {block s t : List β}

/-- The blocks are in the stream in this order, and none overlaps another. -/
def Carries : List (List β) → List β → Prop
  | [], _ => True
  | block :: blocks, s => ∃ gap rest, s = gap ++ block ++ rest ∧ Carries blocks rest

theorem Carries.append (h : Carries blocks s) (t : List β) : Carries blocks (s ++ t) := by
  induction blocks generalizing s with
  | nil => trivial
  | cons block blocks ih =>
      obtain ⟨gap, rest, rfl, hrest⟩ := h
      exact ⟨gap, rest ++ t, by rw [List.append_assoc], ih hrest⟩

theorem Carries.of_prefix (h : Carries blocks s) (hstart : s <+: t) : Carries blocks t := by
  obtain ⟨r, rfl⟩ := hstart
  exact h.append r

/-- A block at the end. -/
theorem Carries.concat (h : Carries blocks s) (hstart : block <+: t) :
    Carries (blocks ++ [block]) (s ++ t) := by
  induction blocks generalizing s with
  | nil =>
      obtain ⟨rest, rfl⟩ := hstart
      exact ⟨s, rest, by rw [List.append_assoc], trivial⟩
  | cons block' blocks ih =>
      obtain ⟨gap, rest, rfl, hrest⟩ := h
      exact ⟨gap, rest ++ t, by rw [List.append_assoc], ih hrest⟩

/-- No byte counts for two blocks. -/
theorem Carries.length_le (h : Carries blocks s) : blocks.flatten.length ≤ s.length := by
  induction blocks generalizing s with
  | nil => exact Nat.zero_le _
  | cons block blocks ih =>
      obtain ⟨gap, rest, rfl, hrest⟩ := h
      have := ih hrest
      simp only [List.flatten_cons, List.length_append]
      omega

end CasualGame.Lib.Blocks
