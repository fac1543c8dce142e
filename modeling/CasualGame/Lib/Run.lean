import Mathlib.Data.List.Basic

namespace CasualGame.Lib.Run

universe u v w x

variable {σ : Type u} {α : Type v} {ε : Type w} {ω : Type x}

theorem bind_eq_ok {α : Type v} {β : Type x} {m : Except ε α} {f : α → Except ε β} {b : β} :
    m.bind f = .ok b ↔ ∃ a, m = .ok a ∧ f a = .ok b := by
  cases m with
  | error e => simp [Except.bind]
  | ok a => simp [Except.bind]

theorem bind_ne_error {α : Type v} {β : Type x} {m : Except ε α} {f : α → Except ε β} {e : ε}
    (hm : m ≠ .error e) (hf : ∀ a, m = .ok a → f a ≠ .error e) : m.bind f ≠ .error e := by
  cases hres : m with
  | error e' =>
      intro h
      exact hm (hres.trans (by simpa [Except.bind] using h))
  | ok a => exact hf a hres

theorem pure_ne_error {α : Type v} (a : α) (e : ε) : (pure a : Except ε α) ≠ .error e := by
  rintro ⟨⟩

theorem foldlM_ne_error {α : Type v} {β : Type v} {f : α → β → Except ε α} {e : ε}
    (hf : ∀ a b, f a b ≠ .error e) (bs : List β) (a : α) : bs.foldlM f a ≠ .error e := by
  induction bs generalizing a with
  | nil => exact pure_ne_error a e
  | cons b bs ih =>
      rw [List.foldlM_cons]
      exact bind_ne_error (hf a b) fun a' _ => ih a'

/-- What a loop that may fail keeps holds when it is through. -/
theorem foldlM_ok {α : Type v} {β : Type x} {f : α → β → Except ε α} {P : List β → α → Prop}
    (hstep : ∀ done b a a', P done a → f a b = .ok a' → P (done ++ [b]) a') (bs : List β)
    (done : List β) {a a' : α} (h : P done a) (hf : bs.foldlM f a = .ok a') :
    P (done ++ bs) a' := by
  induction bs generalizing done a with
  | nil =>
      obtain rfl := Except.ok.inj hf
      rwa [List.append_nil]
  | cons b bs ih =>
      rw [List.foldlM_cons] at hf
      obtain ⟨a₁, ha₁, hrest⟩ := bind_eq_ok.mp hf
      rw [List.append_cons]
      exact ih (done ++ [b]) (hstep done b a a₁ h ha₁) hrest

/-- A system that works off events one at a time. `Allowed` is what the environment
can offer in a state; an event the system cannot work off ends the run with an error. -/
structure System (σ : Type u) (α : Type v) (ε : Type w) where
  Init : σ → Prop
  Allowed : σ → α → Prop
  step : σ → α → Except ε σ

/-- The states of the runs of which every step meets `C`. -/
inductive System.Reaches (S : System σ α ε) (C : σ → α → Prop) : σ → Prop
  | init {s : σ} : S.Init s → S.Reaches C s
  | step {s : σ} {a : α} {s' : σ} :
      S.Reaches C s → S.Allowed s a → C s a → S.step s a = .ok s' → S.Reaches C s'

namespace System

variable {S : System σ α ε} {C : σ → α → Prop}

/-- What holds at the start and is kept by every step holds in every state reached. -/
theorem Reaches.invariant {P : σ → Prop} (hinit : ∀ s, S.Init s → P s)
    (hstep : ∀ s a s', P s → S.Allowed s a → C s a → S.step s a = .ok s' → P s')
    {s : σ} (h : S.Reaches C s) : P s := by
  induction h with
  | init hs => exact hinit _ hs
  | step _ ha hc hs ih => exact hstep _ _ _ ih ha hc hs

/-- The state after a list of events, of which the first that fails ends the run. -/
def after (S : System σ α ε) : σ → List α → σ
  | s, [] => s
  | s, a :: as =>
      match S.step s a with
      | .ok s' => S.after s' as
      | .error _ => s

theorem after_cons {s s' : σ} {a : α} (h : S.step s a = .ok s') (as : List α) :
    S.after s (a :: as) = S.after s' as := by
  simp only [System.after, h]

/-- Every event of the list is allowed, and meets a condition, when its turn comes. -/
def Fits (S : System σ α ε) (C : σ → α → Prop) : σ → List α → Prop
  | _, [] => True
  | s, a :: as => S.Allowed s a ∧ C s a ∧
      match S.step s a with
      | .ok s' => S.Fits C s' as
      | .error _ => True

instance decidableFits [∀ s a, Decidable (S.Allowed s a)] [∀ s a, Decidable (C s a)] (s : σ)
    (as : List α) : Decidable (S.Fits C s as) :=
  match as with
  | [] => .isTrue trivial
  | a :: as =>
      have : Decidable (match S.step s a with
          | .ok s' => S.Fits C s' as
          | .error _ => True) :=
        match S.step s a with
        | .ok s' => decidableFits s' as
        | .error _ => .isTrue trivial
      inferInstanceAs (Decidable (_ ∧ _ ∧ _))

/-- Every list of events fits when nothing stands against an event. -/
theorem fits_of_forall (h : ∀ s a, S.Allowed s a ∧ C s a) (s : σ) (as : List α) :
    S.Fits C s as := by
  induction as generalizing s with
  | nil => trivial
  | cons a as ih =>
      refine ⟨(h s a).1, (h s a).2, ?_⟩
      cases S.step s a with
      | error e => trivial
      | ok s' => exact ih s'

theorem Reaches.after {as : List α} {s : σ} (h : S.Reaches C s) (hfits : S.Fits C s as) :
    S.Reaches C (S.after s as) := by
  induction as generalizing s with
  | nil => exact h
  | cons a as ih =>
      obtain ⟨ha, hc, hrest⟩ := hfits
      simp only [System.after]
      cases hs : S.step s a with
      | error e => exact h
      | ok s' =>
          simp only [hs] at hrest
          exact ih (.step h ha hc hs) hrest

/-- Two conditions that agree as long as the one of them keeps an invariant are met by the
same runs. -/
theorem fits_congr {C' : σ → α → Prop} (Inv : σ → Prop)
    (hiff : ∀ s a, Inv s → S.Allowed s a → (C s a ↔ C' s a))
    (hstep : ∀ s a s', Inv s → S.Allowed s a → C' s a → S.step s a = .ok s' → Inv s')
    {as : List α} {s : σ} (hs : Inv s) : S.Fits C s as ↔ S.Fits C' s as := by
  induction as generalizing s with
  | nil => exact Iff.rfl
  | cons a as ih =>
      rw [Fits, Fits]
      refine and_congr_right fun ha => ?_
      rw [hiff s a hs ha]
      refine and_congr_right fun hc => ?_
      cases hres : S.step s a with
      | error e => exact Iff.rfl
      | ok s' => exact ih (hstep s a s' hs ha hc hres)

def fault (S : System σ α ε) (s : σ) (a : α) : Option ε :=
  match S.step s a with
  | .ok _ => none
  | .error e => some e

theorem fault_eq_some {s : σ} {a : α} {e : ε} : S.fault s a = some e ↔ S.step s a = .error e := by
  unfold fault
  cases S.step s a <;> simp

theorem step_eq_after {s : σ} {a : α} (h : S.fault s a = none) :
    S.step s a = .ok (S.after s [a]) := by
  unfold fault at h
  simp only [System.after]
  cases hs : S.step s a with
  | error e => simp [hs] at h
  | ok s' => rfl

/-- The system with an observer that takes notes of every event and what came of it, and
never interferes. -/
def chronicle (S : System σ α ε) (start : ω) (note : σ → α → σ → ω → ω) :
    System (σ × ω) α ε where
  Init s := S.Init s.1 ∧ s.2 = start
  Allowed s a := S.Allowed s.1 a
  step s a := (S.step s.1 a).map fun s' => (s', note s.1 a s' s.2)

theorem chronicle_step {start : ω} {note : σ → α → σ → ω → ω} {s s' : σ × ω} {a : α} :
    (S.chronicle start note).step s a = .ok s' ↔
      S.step s.1 a = .ok s'.1 ∧ s'.2 = note s.1 a s'.1 s.2 := by
  obtain ⟨s₁, w₁⟩ := s
  obtain ⟨s₂, w₂⟩ := s'
  simp only [chronicle]
  cases S.step s₁ a with
  | error e => simp [Except.map]
  | ok s₃ =>
      simp only [Except.map, Except.ok.injEq, Prod.mk.injEq]
      constructor
      · rintro ⟨rfl, rfl⟩
        exact ⟨rfl, rfl⟩
      · rintro ⟨rfl, rfl⟩
        exact ⟨rfl, rfl⟩

theorem Reaches.of_chronicle {start : ω} {note : σ → α → σ → ω → ω} {s : σ × ω}
    (h : (S.chronicle start note).Reaches (fun s a => C s.1 a) s) : S.Reaches C s.1 := by
  induction h with
  | init hs => exact .init hs.1
  | step _ ha hc hs ih => exact .step ih ha hc (chronicle_step.mp hs).1

theorem Reaches.exists_chronicle (start : ω) (note : σ → α → σ → ω → ω) {s : σ}
    (h : S.Reaches C s) :
    ∃ notes, (S.chronicle start note).Reaches (fun s a => C s.1 a) (s, notes) := by
  induction h with
  | init hs => exact ⟨start, .init ⟨hs, rfl⟩⟩
  | @step s a s' _ ha hc hs ih =>
      obtain ⟨notes, hnotes⟩ := ih
      exact ⟨note s a s' notes, .step hnotes ha hc (chronicle_step.mpr ⟨hs, rfl⟩)⟩

/-- The system with an observer that takes notes of every step and never interferes. -/
def watch (S : System σ α ε) (start : ω) (note : σ → σ → ω → ω) : System (σ × ω) α ε where
  Init s := S.Init s.1 ∧ s.2 = start
  Allowed s a := S.Allowed s.1 a
  step s a := (S.step s.1 a).map fun s' => (s', note s.1 s' s.2)

theorem watch_eq_chronicle (S : System σ α ε) (start : ω) (note : σ → σ → ω → ω) :
    S.watch start note = S.chronicle start fun s _ s' => note s s' :=
  rfl

theorem watch_step {start : ω} {note : σ → σ → ω → ω} {s s' : σ × ω} {a : α} :
    (S.watch start note).step s a = .ok s' ↔
      S.step s.1 a = .ok s'.1 ∧ s'.2 = note s.1 s'.1 s.2 := by
  rw [watch_eq_chronicle]
  exact chronicle_step

theorem Reaches.of_watch {start : ω} {note : σ → σ → ω → ω} {s : σ × ω}
    (h : (S.watch start note).Reaches (fun s a => C s.1 a) s) : S.Reaches C s.1 := by
  rw [watch_eq_chronicle] at h
  exact h.of_chronicle

theorem Reaches.exists_watch (start : ω) (note : σ → σ → ω → ω) {s : σ} (h : S.Reaches C s) :
    ∃ notes, (S.watch start note).Reaches (fun s a => C s.1 a) (s, notes) := by
  rw [watch_eq_chronicle]
  exact h.exists_chronicle start _

end System

end CasualGame.Lib.Run
