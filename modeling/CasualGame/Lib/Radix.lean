import Mathlib.Data.List.Lex
import Mathlib.Data.Nat.Digits.Defs

/-! Numbers by their digits, the first digit weighing most, and their order. -/

namespace CasualGame.Lib.Radix

variable {b d e : Nat} {ds es : List Nat}

def value (b : Nat) (ds : List Nat) : Nat := Nat.ofDigits b ds.reverse

@[simp] theorem value_nil (b : Nat) : value b [] = 0 := rfl

@[simp] theorem value_cons (b d : Nat) (ds : List Nat) :
    value b (d :: ds) = d * b ^ ds.length + value b ds := by
  rw [value, List.reverse_cons, Nat.ofDigits_append, Nat.ofDigits_singleton, List.length_reverse,
    Nat.add_comm, Nat.mul_comm]
  rfl

theorem value_lt (hb : 1 < b) (hds : ∀ d ∈ ds, d < b) : value b ds < b ^ ds.length := by
  rw [← List.length_reverse]
  exact Nat.ofDigits_lt_base_pow_length hb fun d hd => hds d (List.mem_reverse.mp hd)

theorem lead_lt {p v w : Nat} (hv : v < p) (h : d < e) : d * p + v < e * p + w := by
  calc
    d * p + v < d * p + p := Nat.add_lt_add_left hv _
    _ = (d + 1) * p := (Nat.succ_mul d p).symm
    _ ≤ e * p := Nat.mul_le_mul_right p h
    _ ≤ e * p + w := Nat.le_add_right _ _

/-- Words of one length come in the order of their numbers. -/
theorem value_lt_value_iff (hb : 1 < b) (hlength : ds.length = es.length)
    (hds : ∀ d ∈ ds, d < b) (hes : ∀ e ∈ es, e < b) : value b ds < value b es ↔ ds < es := by
  induction ds generalizing es with
  | nil =>
      obtain rfl := List.eq_nil_of_length_eq_zero hlength.symm
      simp
  | cons d ds ih =>
      cases es with
      | nil => cases hlength
      | cons e es =>
          have hlength' : ds.length = es.length := Nat.succ.inj hlength
          have hds' : ∀ d ∈ ds, d < b := fun d hd => hds d (List.mem_cons_of_mem _ hd)
          have hes' : ∀ e ∈ es, e < b := fun e he => hes e (List.mem_cons_of_mem _ he)
          have hv := value_lt hb hds'
          have hw := value_lt hb hes'
          rw [value_cons, value_cons, List.cons_lt_cons_iff, ← ih hlength' hds' hes', ← hlength']
          rw [← hlength'] at hw
          rcases Nat.lt_trichotomy d e with hlt | rfl | hgt
          · exact iff_of_true (lead_lt hv hlt) (Or.inl hlt)
          · rw [Nat.add_lt_add_iff_left]
            simp
          · have hnot := lead_lt (w := value b ds) hw hgt
            refine iff_of_false hnot.asymm ?_
            rintro (hlt | ⟨rfl, -⟩)
            · exact hgt.asymm hlt
            · exact hgt.false

end CasualGame.Lib.Radix
