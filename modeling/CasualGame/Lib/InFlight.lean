import Mathlib.Data.List.Basic

/-!
Messages in flight, which are delivered one after the other.
-/

namespace CasualGame.Lib.InFlight

universe u v

variable {σ : Type u} {μ : Type v} {deliver : μ → σ → σ} {P : σ → Prop}
  {msgs msgs' : List μ} {s s' : σ}

/-- The state once all of them are delivered. -/
def settle (deliver : μ → σ → σ) (msgs : List μ) (s : σ) : σ :=
  msgs.foldl (fun s msg => deliver msg s) s

/-- In every state on the way there. -/
def Throughout (deliver : μ → σ → σ) (P : σ → Prop) : List μ → σ → Prop
  | [], s => P s
  | msg :: msgs, s => P s ∧ Throughout deliver P msgs (deliver msg s)

theorem settle_nil : settle deliver [] s = s := rfl

theorem settle_cons {msg : μ} :
    settle deliver (msg :: msgs) s = settle deliver msgs (deliver msg s) := rfl

theorem settle_append :
    settle deliver (msgs ++ msgs') s = settle deliver msgs' (settle deliver msgs s) :=
  List.foldl_append

theorem Throughout.now (h : Throughout deliver P msgs s) : P s := by
  cases msgs with
  | nil => exact h
  | cons msg msgs => exact h.1

theorem Throughout.settled (h : Throughout deliver P msgs s) : P (settle deliver msgs s) := by
  induction msgs generalizing s with
  | nil => exact h
  | cons msg msgs ih => exact ih h.2

theorem Throughout.append (h : Throughout deliver P msgs s)
    (h' : Throughout deliver P msgs' (settle deliver msgs s)) :
    Throughout deliver P (msgs ++ msgs') s := by
  induction msgs generalizing s with
  | nil => exact h'
  | cons msg msgs ih => exact ⟨h.1, ih h.2 h'⟩

/-- What holds on the way from one state holds on the way from another that stays related
to it. -/
theorem Throughout.related {R : σ → σ → Prop} (hP : ∀ s s', R s s' → P s → P s')
    (hR : ∀ msg ∈ msgs, ∀ s s', R s s' → R (deliver msg s) (deliver msg s'))
    (h : Throughout deliver P msgs s) (hrel : R s s') : Throughout deliver P msgs s' := by
  induction msgs generalizing s s' with
  | nil => exact hP s s' hrel h
  | cons msg msgs ih =>
      exact ⟨hP s s' hrel h.1, ih (fun msg' hmem => hR msg' (List.mem_cons_of_mem msg hmem)) h.2
        (hR msg List.mem_cons_self s s' hrel)⟩

end CasualGame.Lib.InFlight
