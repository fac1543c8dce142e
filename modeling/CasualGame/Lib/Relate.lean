import CasualGame.Lib.Run

/-!
Two computations side by side: both fail in the same way or both succeed, with results in
a given relation.
-/

namespace CasualGame.Lib.Relate

open Run

universe u v w x

variable {ε : Type u} {α β : Type v} {γ δ : Type w}
variable {R : α → β → Prop} {T : γ → δ → Prop}

inductive Related (R : α → β → Prop) : Except ε α → Except ε β → Prop
  | ok {a : α} {b : β} : R a b → Related R (.ok a) (.ok b)
  | error (e : ε) : Related R (.error e) (.error e)

theorem Related.of_eq (m : Except ε α) : Related Eq m m := by
  cases m with
  | error e => exact .error e
  | ok a => exact .ok rfl

theorem Related.mono {R' : α → β → Prop} {m : Except ε α} {n : Except ε β} (h : Related R m n)
    (hR : ∀ a b, R a b → R' a b) : Related R' m n := by
  cases h with
  | ok hab => exact .ok (hR _ _ hab)
  | error e => exact .error e

theorem Related.bind {m : Except ε α} {n : Except ε β} {f : α → Except ε γ} {g : β → Except ε δ}
    (h : Related R m n) (hfg : ∀ a b, R a b → Related T (f a) (g b)) :
    Related T (m.bind f) (n.bind g) := by
  cases h with
  | ok hab => exact hfg _ _ hab
  | error e => exact .error e

theorem Related.of_ok {m : Except ε α} {n : Except ε β} {a : α} {b : β} (h : Related R m n)
    (hm : m = .ok a) (hn : n = .ok b) : R a b := by
  cases h with
  | ok hab =>
      cases hm
      cases hn
      exact hab
  | error e => cases hm

end CasualGame.Lib.Relate
