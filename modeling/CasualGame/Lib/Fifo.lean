import Mathlib.Data.List.Basic

/-!
What goes through a channel: everything comes out that has gone in, in its order, but for
what is still inside.
-/

namespace CasualGame.Lib.Fifo

universe u

/-- A channel with all that has been sent and received through it. -/
structure Channel (α : Type u) where
  sent : List α := []
  received : List α := []
  held : List α := []

namespace Channel

variable {α : Type u}

inductive Step : Channel α → Channel α → Prop
  | idle (c : Channel α) : Step c c
  | send (c : Channel α) (items : List α) :
      Step c { c with sent := c.sent ++ items, held := c.held ++ items }
  | receive (c : Channel α) (n : Nat) :
      Step c { c with received := c.received ++ c.held.take n, held := c.held.drop n }

def InOrder (c : Channel α) : Prop := c.received ++ c.held = c.sent

variable {c c' : Channel α}

theorem InOrder.step (h : c.InOrder) (hstep : Step c c') : c'.InOrder := by
  cases hstep with
  | idle => exact h
  | send items =>
      rw [InOrder] at h ⊢
      rw [← h, List.append_assoc]
  | receive n =>
      rw [InOrder] at h ⊢
      rw [List.append_assoc, List.take_append_drop, h]

end Channel

end CasualGame.Lib.Fifo
