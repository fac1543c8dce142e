import Mathlib.Order.Nat

/-!
A `while` loop whose turns each depend on something from outside.
-/

namespace CasualGame.Lib.While

universe u v

variable {ι : Type u} {σ : Type v}

/-- The loop over so many turns at the most: `.done` leaves it, and `none` says that it
has not been left yet. -/
def whileLoop (body : ι → σ → ForInStep σ) (inputs : Nat → ι) : Nat → σ → Option σ
  | 0, _ => none
  | turns + 1, s =>
      match body (inputs 0) s with
      | .done s' => some s'
      | .yield s' => whileLoop body (fun n => inputs (n + 1)) turns s'

/-- The loop is left with `s'`, after any number of turns that is large enough. -/
def Ends (body : ι → σ → ForInStep σ) (inputs : Nat → ι) (s s' : σ) : Prop :=
  ∃ enough, ∀ turns ≥ enough, whileLoop body inputs turns s = some s'

variable {body : ι → σ → ForInStep σ} {inputs : Nat → ι} {s s' t : σ}

theorem Ends.done (h : body (inputs 0) s = .done s') : Ends body inputs s s' := by
  refine ⟨1, fun turns hturns => ?_⟩
  obtain ⟨turns, rfl⟩ := Nat.exists_eq_add_of_le' hturns
  rw [whileLoop, h]

theorem Ends.yield (h : body (inputs 0) s = .yield t)
    (hends : Ends body (fun n => inputs (n + 1)) t s') : Ends body inputs s s' := by
  obtain ⟨enough, hends⟩ := hends
  refine ⟨enough + 1, fun turns hturns => ?_⟩
  obtain ⟨turns, rfl⟩ := Nat.exists_eq_add_of_le' (Nat.one_le_of_lt hturns)
  rw [whileLoop, h]
  exact hends turns (Nat.le_of_succ_le_succ hturns)

theorem Ends.of_yield (hends : Ends body inputs s s') (h : body (inputs 0) s = .yield t) :
    Ends body (fun n => inputs (n + 1)) t s' := by
  obtain ⟨enough, hends⟩ := hends
  refine ⟨enough, fun turns hturns => ?_⟩
  have hloop := hends (turns + 1) (Nat.le_succ_of_le hturns)
  rwa [whileLoop, h] at hloop

theorem ends_of_whileLoop {turns : Nat} (h : whileLoop body inputs turns s = some s') :
    Ends body inputs s s' := by
  induction turns generalizing s inputs with
  | zero => cases h
  | succ turns ih =>
      rw [whileLoop] at h
      split at h
      · next hbody => exact .done (Option.some.inj h ▸ hbody)
      · next hbody => exact .yield hbody (ih h)

theorem Ends.unique {s'' : σ} (h : Ends body inputs s s') (h' : Ends body inputs s s'') :
    s' = s'' := by
  obtain ⟨enough, h⟩ := h
  obtain ⟨enough', h'⟩ := h'
  have hs := h (max enough enough') (Nat.le_max_left ..)
  rw [h' _ (Nat.le_max_right ..)] at hs
  exact (Option.some.inj hs).symm

/-- The loop begun with `s` comes to a turn with the input `i` in the state `t`. -/
inductive Comes (body : ι → σ → ForInStep σ) : (Nat → ι) → σ → ι → σ → Prop
  | here {inputs : Nat → ι} {s : σ} : Comes body inputs s (inputs 0) s
  | yield {inputs : Nat → ι} {s t u : σ} {i : ι} (h : body (inputs 0) s = .yield t)
      (hcomes : Comes body (fun n => inputs (n + 1)) t i u) : Comes body inputs s i u

theorem Comes.invariant {Inv : σ → Prop} {i : ι} (h : Comes body inputs s i t)
    (hyield : ∀ i t t', Inv t → body i t = .yield t' → Inv t') (hs : Inv s) : Inv t := by
  induction h with
  | here => exact hs
  | yield hbody _ ih => exact ih (hyield _ _ _ hs hbody)

/-- From a turn it comes to, the loop goes on to the same end. -/
theorem Comes.ends {i : ι} (h : Comes body inputs s i t) (hends : Ends body inputs s s') :
    ∃ inputs', inputs' 0 = i ∧ Ends body inputs' t s' := by
  induction h with
  | here => exact ⟨_, rfl, hends⟩
  | yield hbody _ ih => exact ih (hends.of_yield hbody)

/-- What every turn that the loop comes to keeps up to the last one. -/
theorem Ends.invariant_of_comes (h : Ends body inputs s s') (Inv Post : σ → Prop)
    (hyield : ∀ i t t', Comes body inputs s i t → Inv t → body i t = .yield t' → Inv t')
    (hdone : ∀ i t t', Comes body inputs s i t → Inv t → body i t = .done t' → Post t')
    (hs : Inv s) : Post s' := by
  obtain ⟨turns, h⟩ := h
  have hloop := h turns (Nat.le_refl _)
  clear h
  induction turns generalizing s inputs with
  | zero => cases hloop
  | succ turns ih =>
      rw [whileLoop] at hloop
      cases hbody : body (inputs 0) s with
      | done t =>
          rw [hbody] at hloop
          obtain rfl := Option.some.inj hloop
          exact hdone _ _ _ .here hs hbody
      | yield t =>
          rw [hbody] at hloop
          exact ih (fun i u u' hcomes => hyield i u u' (.yield hbody hcomes))
            (fun i u u' hcomes => hdone i u u' (.yield hbody hcomes))
            (hyield _ _ _ .here hs hbody) hloop

/-- What every turn keeps up to the last one. -/
theorem Ends.invariant {Inv Post : σ → Prop} (h : Ends body inputs s s')
    (hyield : ∀ i t t', Inv t → body i t = .yield t' → Inv t')
    (hdone : ∀ i t t', Inv t → body i t = .done t' → Post t') (hs : Inv s) : Post s' :=
  h.invariant_of_comes Inv Post (fun i t t' _ => hyield i t t') (fun i t t' _ => hdone i t t') hs

/-- A loop of which no turn is the last one. -/
theorem whileLoop_eq_none {Inv : σ → Prop}
    (hyield : ∀ n t, Inv t → ∃ t', body (inputs n) t = .yield t' ∧ Inv t') (hs : Inv s)
    (turns : Nat) : whileLoop body inputs turns s = none := by
  induction turns generalizing s inputs with
  | zero => rfl
  | succ turns ih =>
      obtain ⟨t, hbody, ht⟩ := hyield 0 s hs
      rw [whileLoop, hbody]
      exact ih (fun n => hyield (n + 1)) ht

/-- The rule for a loop: an invariant, a number that every turn which goes on makes smaller,
and what the loop does on some inputs, which is put together from a turn and what comes after
it. -/
theorem ends_of_turns (Inv : σ → Prop) (Does : (Nat → ι) → σ → σ → Prop) (measure : σ → Nat)
    (hyield : ∀ inputs s t, Inv s → body (inputs 0) s = .yield t →
      Inv t ∧ measure t < measure s ∧
        ∀ s', Does (fun n => inputs (n + 1)) t s' → Does inputs s s')
    (hdone : ∀ inputs s s', Inv s → body (inputs 0) s = .done s' → Does inputs s s')
    (inputs : Nat → ι) (hs : Inv s) : ∃ s', Ends body inputs s s' ∧ Does inputs s s' := by
  generalize hm : measure s = m
  induction m using Nat.strong_induction_on generalizing s inputs with
  | _ m ih =>
      cases hbody : body (inputs 0) s with
      | done s' => exact ⟨s', .done hbody, hdone _ _ _ hs hbody⟩
      | yield t =>
          obtain ⟨ht, hlt, hdoes⟩ := hyield _ _ _ hs hbody
          obtain ⟨s', hends, hrest⟩ := ih (measure t) (hm ▸ hlt) (fun n => inputs (n + 1)) ht rfl
          exact ⟨s', .yield hbody hends, hdoes s' hrest⟩

/-- What holds when the loop is left, whatever the inputs. -/
theorem ends_of_measure (Inv Post : σ → Prop) (measure : σ → Nat)
    (hyield : ∀ i s s', Inv s → body i s = .yield s' → Inv s' ∧ measure s' < measure s)
    (hdone : ∀ i s s', Inv s → body i s = .done s' → Post s') (inputs : Nat → ι) (hs : Inv s) :
    ∃ s', Ends body inputs s s' ∧ Post s' := by
  refine ends_of_turns Inv (fun _ _ s' => Post s') measure (fun inputs s t hs hbody => ?_)
    (fun inputs s s' hs hbody => hdone _ _ _ hs hbody) inputs hs
  obtain ⟨ht, hlt⟩ := hyield _ _ _ hs hbody
  exact ⟨ht, hlt, fun _ hpost => hpost⟩

end CasualGame.Lib.While
