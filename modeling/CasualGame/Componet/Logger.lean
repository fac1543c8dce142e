import CasualGame.Lib.Exclusion
import CasualGame.Lib.Run

/-!
The writers of a logger, in a map that a spinlock guards. The threads take their steps one
after the other: the relaxed order of the accesses to the flag is not part of the model.
-/

namespace CasualGame.Componet

open Lib.Exclusion Lib.Run

universe u

structure Spinlock where
  flag : UInt32 := 0

namespace Spinlock

/-- One turn of the loop in `lock`. `spurious` makes `compare_exchange_weak` fail. -/
def compareExchange (l : Spinlock) (spurious : Bool) : Option Spinlock :=
  if spurious ∨ l.flag ≠ 0 then none else some { l with flag := 1 }

def unlock (l : Spinlock) : Spinlock := { l with flag := 0 }

def locked (l : Spinlock) : Prop := l.flag = 1

theorem not_locked {l : Spinlock} (h : l.flag = 0) : ¬ l.locked := by
  rw [locked, h]
  decide

end Spinlock

inductive WriterType
  | stdOut
  | fileOut
  deriving DecidableEq

/-- A writer is told by its type and its number. -/
structure Logger where
  writerMap : WriterType → Option Nat
  lock : Spinlock := {}

namespace Logger

section Code

/-- A logger is made with a writer to the terminal. -/
def create : Logger where
  writerMap := Function.update (fun _ => none) .stdOut (some 0)

def getWriter (l : Logger) (type : WriterType) : Option Nat := l.writerMap type

def setWriter (l : Logger) (type : WriterType) (writer : Option Nat) : Logger :=
  { l with writerMap := Function.update l.writerMap type writer }

/-- What can be called: `log` reads the map again when it has given the lock back. -/
inductive Call
  | addWriter (type : WriterType) (writer : Nat)
  | eraseWriter (type : WriterType)
  | stop
  | log

/-- Where a thread stands: in the loop of `lock`, in front of what it does to the map, or in
front of `unlock`. -/
inductive Pc
  | idle
  | lock (call : Call)
  | find (type : WriterType) (writer : Nat)
  | insert (type : WriterType) (writer : Nat)
  | erase (type : WriterType)
  | clear
  | unlock

def Pc.inside : Pc → Prop
  | .idle | .lock _ => False
  | .find _ _ | .insert _ _ | .erase _ | .clear | .unlock => True

def Call.first : Call → Pc
  | .addWriter type writer => .find type writer
  | .eraseWriter type => .erase type
  | .stop => .clear
  | .log => .unlock

structure Threads (τ : Type u) where
  logger : Logger := .create
  pc : τ → Pc := fun _ => .idle
  /-- Whether a call of `addWriter` has come back before its `unlock`. -/
  abandoned : Bool := false

inductive Act (τ : Type u)
  | call (t : τ) (call : Call)
  | step (t : τ) (spurious : Bool)

/-- There is no call to go on with, or one is going on already. -/
inductive Refusal
  | notNow

open Refusal

variable {τ : Type u} [DecidableEq τ]

def Threads.setPc (s : Threads τ) (t : τ) (pc : Pc) : Threads τ :=
  { s with pc := Function.update s.pc t pc }

def step (s : Threads τ) (t : τ) (spurious : Bool) : Except Refusal (Threads τ) :=
  let l := s.logger
  match s.pc t with
  | .idle => .error notNow
  | .lock call =>
      match l.lock.compareExchange spurious with
      | none => .ok s
      | some lock => .ok { s.setPc t call.first with logger := { l with lock } }
  | .find type writer =>
      match l.getWriter type with
      | some _ => .ok { s.setPc t .idle with abandoned := true }
      | none => .ok (s.setPc t (.insert type writer))
  | .insert type writer =>
      .ok { s.setPc t .unlock with logger := l.setWriter type (some writer) }
  | .erase type => .ok { s.setPc t .unlock with logger := l.setWriter type none }
  | .clear => .ok { s.setPc t .unlock with logger := { l with writerMap := fun _ => none } }
  | .unlock => .ok { s.setPc t .idle with logger := { l with lock := l.lock.unlock } }

def call (s : Threads τ) (t : τ) (call : Call) : Except Refusal (Threads τ) :=
  match s.pc t with
  | .idle => .ok (s.setPc t (.lock call))
  | _ => .error notNow

/-- Any number of threads that log, in any order of their steps. -/
def threads (τ : Type u) [DecidableEq τ] : System (Threads τ) (Act τ) Refusal where
  Init s := s = {}
  Allowed _ _ := True
  step s
    | .call t c => call s t c
    | .step t spurious => step s t spurious

end Code

section Guard

variable {τ : Type u} [DecidableEq τ] {s s' : Threads τ} {t : τ} {C : Threads τ → Act τ → Prop}

/-- What a step can do. -/
inductive Step (s : Threads τ) (t : τ) : Threads τ → Prop
  | spin : Step s t s
  | call {c : Call} (hpc : s.pc t = .idle) : Step s t (s.setPc t (.lock c))
  | enter {c : Call} (hpc : s.pc t = .lock c) (hflag : s.logger.lock.flag = 0) :
      Step s t { s.setPc t c.first with logger := { s.logger with lock := { flag := 1 } } }
  | work (hpc : (s.pc t).inside) {p : Pc} (hinside : p.inside)
      (map : WriterType → Option Nat) :
      Step s t { s.setPc t p with logger := { s.logger with writerMap := map } }
  | abandon (hpc : (s.pc t).inside) : Step s t { s.setPc t .idle with abandoned := true }
  | leave (hpc : (s.pc t).inside) :
      Step s t { s.setPc t .idle with logger := { s.logger with lock := { flag := 0 } } }

theorem Pc.not_inside_idle : ¬ Pc.idle.inside := fun h => h

theorem step_cases {act : Act τ} (h : (threads τ).step s act = .ok s') : ∃ t, Step s t s' := by
  cases act with
  | call t c =>
      refine ⟨t, ?_⟩
      simp only [threads, call] at h
      split at h
      · next hpc => exact Except.ok.inj h ▸ .call hpc
      · cases h
  | step t spurious =>
      refine ⟨t, ?_⟩
      simp only [threads, step] at h
      cases hpc : s.pc t with
      | idle =>
          rw [hpc] at h
          cases h
      | lock c =>
          rw [hpc] at h
          simp only [Spinlock.compareExchange] at h
          split_ifs at h with hfails <;> obtain rfl := Except.ok.inj h
          · exact .spin
          · exact .enter hpc (not_not.mp fun hflag => hfails (.inr hflag))
      | find type writer =>
          rw [hpc] at h
          dsimp only at h
          split at h <;> obtain rfl := Except.ok.inj h
          · exact .abandon (hpc ▸ trivial)
          · exact .work (p := .insert type writer) (hpc ▸ trivial) trivial s.logger.writerMap
      | insert type writer =>
          rw [hpc] at h
          exact Except.ok.inj h ▸ .work (p := .unlock) (hpc ▸ trivial) trivial _
      | erase type =>
          rw [hpc] at h
          exact Except.ok.inj h ▸ .work (p := .unlock) (hpc ▸ trivial) trivial _
      | clear =>
          rw [hpc] at h
          exact Except.ok.inj h ▸ .work (p := .unlock) (hpc ▸ trivial) trivial _
      | unlock =>
          rw [hpc] at h
          exact Except.ok.inj h ▸ .leave (hpc ▸ trivial)

/-- One thread at a time is inside, and the lock is taken by it, or for good. -/
structure Guarded (s : Threads τ) : Prop
    extends Exclusive s.logger.lock.locked Pc.inside s.pc where
  locked_iff : s.logger.lock.locked ↔ s.abandoned = true ∨ ∃ t, (s.pc t).inside
  flag_eq : s.logger.lock.flag = 0 ∨ s.logger.lock.flag = 1
  not_inside : s.abandoned = true → ∀ t, ¬ (s.pc t).inside

namespace Guarded

theorem step (h : Guarded s) (hstep : Step s t s') : Guarded s' := by
  cases hstep with
  | spin => exact h
  | @call c hpc =>
      have hmove := h.toExclusive.move (t := t) (p := .lock c) False.elim
      have hout : ∀ t', (Function.update s.pc t (.lock c) t').inside ↔ (s.pc t').inside := by
        intro t'
        rcases eq_or_ne t' t with rfl | hne
        · rw [Function.update_self, hpc]
          exact Iff.rfl
        · rw [Function.update_of_ne hne]
      refine ⟨hmove, ?_, h.flag_eq, ?_⟩
      · exact h.locked_iff.trans (or_congr_right (exists_congr fun t' => (hout t').symm))
      · exact fun hab t' ht' => h.not_inside hab t' ((hout t').mp ht')
  | @enter c hpc hflag =>
      have hinside : c.first.inside := by
        cases c <;> trivial
      have hfree := Spinlock.not_locked hflag
      refine ⟨h.toExclusive.enter hfree rfl t c.first, ?_, .inr rfl, ?_⟩
      · refine iff_of_true rfl (.inr ⟨t, ?_⟩)
        exact (congrArg Pc.inside (Function.update_self ..)).mpr hinside
      · intro hab
        exact absurd (h.locked_iff.mpr (.inl hab)) hfree
  | @work hpc p hinside map =>
      refine ⟨h.toExclusive.move fun _ => hpc, ?_, h.flag_eq, ?_⟩
      · refine iff_of_true (h.up_of_inside hpc) (.inr ⟨t, ?_⟩)
        exact (congrArg Pc.inside (Function.update_self ..)).mpr hinside
      · intro hab
        exact absurd hpc (h.not_inside hab t)
  | abandon hpc =>
      have hout := h.toExclusive.not_inside_of_leave hpc Pc.not_inside_idle
      refine ⟨h.toExclusive.leave hpc Pc.not_inside_idle, ?_, h.flag_eq, fun _ => hout⟩
      exact iff_of_true (h.up_of_inside hpc) (.inl rfl)
  | leave hpc =>
      have hout := h.toExclusive.not_inside_of_leave hpc Pc.not_inside_idle
      refine ⟨h.toExclusive.leave hpc Pc.not_inside_idle, ?_, .inl rfl, fun _ => hout⟩
      refine iff_of_false (Spinlock.not_locked rfl) ?_
      rintro (hab | ⟨t', ht'⟩)
      · exact h.not_inside hab t hpc
      · exact hout t' ht'

end Guarded

/-- Any number of threads log and change the writers: of those that have got the lock there is
one at a time, and the lock is taken when there is one, or an `addWriter` came upon a writer of
its type. -/
theorem guarded_of_reaches (h : (threads τ).Reaches C s) : Guarded s := by
  apply h.invariant
  · rintro s rfl
    refine ⟨⟨?_, ?_⟩, ?_, .inl rfl, ?_⟩
    · rintro t t' ⟨⟩
    · rintro t ⟨⟩
    · refine iff_of_false (Spinlock.not_locked rfl) ?_
      rintro (⟨⟨⟩⟩ | ⟨t, ⟨⟩⟩)
    · rintro ⟨⟩
  · intro s act s' hs _ _ hstep
    obtain ⟨t, ht⟩ := step_cases hstep
    exact hs.step ht

theorem guarded_of_two_threads :
    Guarded ((threads Bool).after {}
      [.call false (.addWriter .fileOut 1), .call true .log, .step false false, .step true false,
        .step false false, .step false false]) :=
  guarded_of_reaches (C := fun _ _ => True) <|
    .after (.init rfl) <| System.fits_of_forall (fun _ _ => ⟨trivial, trivial⟩) _ _

/-- What does not change any more when nobody gets the lock. -/
def Stuck (s s' : Threads τ) : Prop :=
  s'.logger.writerMap = s.logger.writerMap ∧ ∀ t c, s.pc t = .lock c → s'.pc t = .lock c

theorem Guarded.stuck (h : Guarded s) (hab : s.abandoned = true) (hstep : Step s t s') :
    Stuck s s' ∧ s'.abandoned = true := by
  cases hstep with
  | spin => exact ⟨⟨rfl, fun _ _ hwait => hwait⟩, hab⟩
  | @call c hpc =>
      refine ⟨⟨rfl, fun t' c' hwait => ?_⟩, hab⟩
      have hne : t' ≠ t := by
        rintro rfl
        cases hpc.symm.trans hwait
      exact (Function.update_of_ne hne ..).trans hwait
  | enter hpc hflag =>
      exact absurd (h.locked_iff.mpr (.inl hab)) (Spinlock.not_locked hflag)
  | work hpc => exact absurd hpc (h.not_inside hab t)
  | abandon hpc => exact absurd hpc (h.not_inside hab t)
  | leave hpc => exact absurd hpc (h.not_inside hab t)

theorem Guarded.stuck_after (h : Guarded s) (hab : s.abandoned = true) (acts : List (Act τ)) :
    Stuck s ((threads τ).after s acts) := by
  induction acts generalizing s with
  | nil => exact ⟨rfl, fun _ _ hwait => hwait⟩
  | cons act acts ih =>
      rw [System.after]
      split
      · next s' hstep =>
          obtain ⟨t, ht⟩ := step_cases hstep
          obtain ⟨⟨hmap, hwaits⟩, hab'⟩ := h.stuck hab ht
          obtain ⟨hmap', hwaits'⟩ := ih (h.step ht) hab'
          exact ⟨hmap'.trans hmap, fun t c hwait => hwaits' t c (hwaits t c hwait)⟩
      · exact ⟨rfl, fun _ _ hwait => hwait⟩

/-- Once an `addWriter` has come upon a writer of its type, nobody gets the lock again: whoever
asks for it waits for good, and the writers stay what they are. -/
theorem stuck_of_abandoned (h : (threads τ).Reaches C s) (hab : s.abandoned = true)
    (acts : List (Act τ)) : Stuck s ((threads τ).after s acts) :=
  (guarded_of_reaches h).stuck_after hab acts

theorem stuck_of_second_writer :
    let s := (threads Bool).after {} [.call false (.addWriter .stdOut 1), .call true .log,
      .step false false, .step true false, .step false false]
    s.pc true = .lock .log ∧ Stuck s ((threads Bool).after s [.step true false]) :=
  ⟨rfl, stuck_of_abandoned (C := fun _ _ => True)
    (.after (.init rfl) <| System.fits_of_forall (fun _ _ => ⟨trivial, trivial⟩) _ _) rfl _⟩

end Guard

end Logger

end CasualGame.Componet
