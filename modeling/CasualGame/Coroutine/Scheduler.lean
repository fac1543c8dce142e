import Mathlib.Algebra.GroupWithZero.Nat
import CasualGame.Lib.Run
import CasualGame.Lib.Slots
import CasualGame.Lib.While

/-!
Coroutines, and the scheduler that resumes them in turn.
-/

namespace CasualGame.Coroutine

open Lib.Run Lib.Slots Lib.While

universe u v

section Code

variable {γ : Type u} {β : Type v}

abbrev CorotId := UInt32

/-- `SCHEDULE_TASK_ID`, which is `-1`. -/
def scheduleTaskId : CorotId := 0xFFFFFFFF

inductive CorotStatus
  | null
  | ready
  | running
  | sleeping
  deriving DecidableEq

/-- What a coroutine does from one switch of the context to the next. Functions, and the places
where they yield, are points `β` of the program, and `γ` are its variables. -/
inductive Segment (γ : Type u) (β : Type v)
  | create (func : β) (next : CorotId → Segment γ β)
  | getId (next : CorotId → Segment γ β)
  | yield (globals : γ) (rest : β)
  | exit (globals : γ)

structure Corot (β : Type v) where
  id : CorotId
  exec : β
  /-- Where it has yielded: `ctx` with the saved stack. -/
  ctx : β
  status : CorotStatus
  /-- How many there have been before it, which the code does not keep. -/
  serial : Nat
  deriving DecidableEq

structure Scheduler (β : Type v) where
  tasks : List (Option (Corot β)) := []
  runningCoid : CorotId := scheduleTaskId
  avaliableIds : List CorotId := []
  /-- How many coroutines have been created, which the code does not keep. -/
  created : Nat := 0
  /-- The serials of the coroutines that have been resumed, which the code does not keep. -/
  resumed : List Nat := []
  deriving DecidableEq

namespace Scheduler

def create (s : Scheduler β) (func : β) : CorotId × Scheduler β :=
  let co := fun id => some { id, exec := func, ctx := func, status := .ready, serial := s.created }
  match s.avaliableIds with
  | [] =>
      -- `tasks.size() - 1` when it is in the table
      let id := UInt32.ofNat s.tasks.length
      (id, { s with tasks := s.tasks ++ [co id], created := s.created + 1 })
  | id :: ids =>
      (id, { s with
        tasks := s.tasks.set id.toNat (co id), avaliableIds := ids, created := s.created + 1 })

def destroy (s : Scheduler β) (coid : CorotId) : Scheduler β :=
  { s with tasks := s.tasks.set coid.toNat none, avaliableIds := s.avaliableIds ++ [coid] }

def getCorot (s : Scheduler β) (coid : CorotId) : Option (Corot β) :=
  if coid = scheduleTaskId then none
  else if s.tasks.length ≤ coid.toNat then none
  else s.tasks.getD coid.toNat none

def getRunningCorot (s : Scheduler β) : Option (Corot β) := s.getCorot s.runningCoid

/-- The coroutine in the slot is changed. -/
def write (s : Scheduler β) (coid : CorotId) (co : Corot β) : Scheduler β :=
  { s with tasks := s.tasks.set coid.toNat (some co) }

/-- The context and the stack are saved, and the scheduler goes on. -/
def yieldRunningCorot (s : Scheduler β) (rest : β) : Scheduler β :=
  match s.getRunningCorot with
  | none => s
  | some co =>
      { s.write s.runningCoid { co with ctx := rest, status := .sleeping } with
        runningCoid := scheduleTaskId }

/-- `invoke` when the function has returned. -/
def leave (s : Scheduler β) (coid : CorotId) : Scheduler β :=
  { s.destroy coid with runningCoid := scheduleTaskId }

end Scheduler

/-- The coroutine runs until the context is switched back. -/
def Segment.run (coid : CorotId) : Segment γ β → Scheduler β → Scheduler β × γ
  | .create func next, s => (next (s.create func).1).run coid (s.create func).2
  | .getId next, s => (next s.runningCoid).run coid s
  | .yield globals rest, s => (s.yieldRunningCorot rest, globals)
  | .exit globals, s => (s.leave coid, globals)

/-- Where a coroutine goes on: a new one with its function. -/
def Corot.point (co : Corot β) : Option β :=
  match co.status with
  | .ready => some co.exec
  | .sleeping => some co.ctx
  | .null | .running => none

namespace Scheduler

/-- What is done before the context is switched to a coroutine. -/
def switchTo (s : Scheduler β) (coid : CorotId) (co : Corot β) : Scheduler β :=
  { s.write coid { co with status := .running } with
    runningCoid := co.id, resumed := s.resumed ++ [co.serial] }

/-- A coroutine that resumes another one sleeps. -/
def sleepRunning (s : Scheduler β) : Scheduler β :=
  match s.getRunningCorot with
  | none => s
  | some co => s.write s.runningCoid { co with status := .sleeping }

/-- Every switch of the context succeeds. -/
def resumeCorot (code : γ → β → Segment γ β) (s : Scheduler β) (coid : CorotId) (globals : γ) :
    Scheduler β × γ :=
  if s.getCorot coid = none then (s, globals)
  else
    match s.sleepRunning.getCorot coid with
    | none => (s.sleepRunning, globals)
    | some co =>
        match co.point with
        | none => (s.sleepRunning, globals)
        | some point => (code globals point).run co.id (s.sleepRunning.switchTo coid co)

end Scheduler

/-- The scheduler, with the variables of the program. -/
structure World (γ : Type u) (β : Type v) where
  scheduler : Scheduler β
  globals : γ
  deriving DecidableEq

/-- The loop in `doSchedule` has come to a slot. -/
structure Pass (γ : Type u) (β : Type v) where
  coid : CorotId
  ret : UInt32
  world : World γ β

section Calls

variable (code : γ → β → Segment γ β)

def scheduleTurn (_ : Unit) (p : Pass γ β) : ForInStep (Pass γ β) :=
  if p.coid.toNat < p.world.scheduler.tasks.length then
    match p.world.scheduler.tasks.getD p.coid.toNat none with
    | none => .yield { p with coid := p.coid + 1 }
    | some _ =>
        let (scheduler, globals) := p.world.scheduler.resumeCorot code p.coid p.world.globals
        .yield ⟨p.coid + 1, p.ret + 1, ⟨scheduler, globals⟩⟩
  else .done p

/-- `doSchedule`, unless it goes on for ever: the index has `2 ^ 32` values. -/
def doSchedule (w : World γ β) : Option (UInt32 × World γ β) :=
  if w.scheduler.runningCoid ≠ scheduleTaskId then some (0, w)
  else
    (whileLoop (scheduleTurn code) (fun _ => ()) (2 ^ 32) ⟨0, 0, w⟩).map fun p => (p.ret, p.world)

/-- What the program does outside of its coroutines. -/
inductive Call (γ : Type u) (β : Type v)
  | create (func : β)
  | doSchedule
  | assign (globals : γ)

inductive Fault
  | schedulesForever

def call (w : World γ β) : Call γ β → Except Fault (World γ β)
  | .create func => .ok { w with scheduler := (w.scheduler.create func).2 }
  | .doSchedule =>
      match doSchedule code w with
      | some (_, w) => .ok w
      | none => .error .schedulesForever
  | .assign globals => .ok { w with globals }

def system : System (World γ β) (Call γ β) Fault where
  Init w := w.scheduler = {}
  Allowed _ _ := True
  step := call code

end Calls

end Code

section Conditions

variable {γ : Type u} {β : Type v}

/-- The coroutine in a slot. -/
def Scheduler.Lives (s : Scheduler β) (i : Nat) (co : Corot β) : Prop :=
  s.tasks[i]? = some (some co)

/-- No id is free, and the table has as many slots as there are ids. -/
def Scheduler.Full (s : Scheduler β) : Prop := s.avaliableIds = [] ∧ 2 ^ 32 - 1 ≤ s.tasks.length

/-- No coroutine is created when the table is full. -/
def Segment.Fits : Segment γ β → Scheduler β → Prop
  | .create func next, s => ¬ s.Full ∧ (next (s.create func).1).Fits (s.create func).2
  | .getId next, s => (next s.runningCoid).Fits s
  | .yield _ _, _ => True
  | .exit _, _ => True

instance Scheduler.decidableFull (s : Scheduler β) : Decidable s.Full :=
  inferInstanceAs (Decidable (_ ∧ _))

instance Segment.decidableFits : (segment : Segment γ β) → (s : Scheduler β) →
    Decidable (segment.Fits s)
  | .create func next, s =>
      have := (next (s.create func).1).decidableFits (s.create func).2
      inferInstanceAs (Decidable (_ ∧ _))
  | .getId next, s => (next s.runningCoid).decidableFits s
  | .yield _ _, _ => .isTrue trivial
  | .exit _, _ => .isTrue trivial

variable (code : γ → β → Segment γ β)

def Pass.Fits (p : Pass γ β) : Prop :=
  ∀ co ∈ p.world.scheduler.tasks.getD p.coid.toNat none, ∀ point ∈ co.point,
    (code p.world.globals point).Fits (p.world.scheduler.switchTo p.coid co)

instance Pass.decidableFits (p : Pass γ β) : Decidable (p.Fits code) :=
  inferInstanceAs (Decidable (∀ co ∈ p.world.scheduler.tasks.getD p.coid.toNat none,
    ∀ point ∈ co.point, (code p.world.globals point).Fits (p.world.scheduler.switchTo p.coid co)))

/-- None of the coroutines that the call creates, itself or in the ones that it resumes, finds
the table full. -/
def CallFits (w : World γ β) : Call γ β → Prop
  | .create _ => ¬ w.scheduler.Full
  | .doSchedule =>
      ∀ p i, Comes (scheduleTurn code) (fun _ => ()) ⟨0, 0, w⟩ i p → p.Fits code
  | .assign _ => True

end Conditions

section Slots

variable {β : Type v} {s s' : Scheduler β} {coid : CorotId} {i j : Nat} {co co' co₁ : Corot β}
  {func : β}

namespace Scheduler

/-- Every coroutine has the number of its slot for its id, and the other slots are the free
ones. -/
structure Sound (s : Scheduler β) : Prop where
  small : s.tasks.length < 2 ^ 32
  free : FreeList s.tasks (s.avaliableIds.map UInt32.toNat)
  id_eq : ∀ i co, s.Lives i co → co.id.toNat = i
  serial_lt : ∀ i co, s.Lives i co → co.serial < s.created
  serial_inj : ∀ i j co co', s.Lives i co → s.Lives j co' → co.serial = co'.serial → i = j

/-- Every coroutine waits for its turn but the one that runs. -/
def OthersWait (s : Scheduler β) : Prop :=
  ∀ i co, s.Lives i co → co.id ≠ s.runningCoid → ∃ point, co.point = some point

theorem Lives.unique (h : s.Lives i co) (h' : s.Lives i co') : co = co' :=
  Option.some.inj (Option.some.inj (h.symm.trans h'))

namespace Sound

theorem empty : ({} : Scheduler β).Sound where
  small := Nat.two_pow_pos 32
  free := .empty
  id_eq i co h := by cases h
  serial_lt i co h := by cases h
  serial_inj i j co co' h := by cases h

theorem congr (h : s.Sound) (htasks : s'.tasks = s.tasks) (hids : s'.avaliableIds = s.avaliableIds)
    (hcreated : s'.created = s.created) : s'.Sound := by
  obtain ⟨tasks, _, ids, created, _⟩ := s
  obtain ⟨tasks', _, ids', created', _⟩ := s'
  obtain rfl : tasks' = tasks := htasks
  obtain rfl : ids' = ids := hids
  obtain rfl : created' = created := hcreated
  exact ⟨h.small, h.free, h.id_eq, h.serial_lt, h.serial_inj⟩

theorem toNat_lt (h : s.Sound) (hlives : s.Lives i co) : i < 2 ^ 32 - 1 := by
  have hlt := lt_length_of_getElem? hlives
  have hsmall := h.small
  omega

theorem id_ne (h : s.Sound) (hlives : s.Lives i co) : co.id ≠ scheduleTaskId := by
  intro heq
  have hid := h.id_eq i co hlives
  rw [heq] at hid
  exact absurd (h.toNat_lt hlives) (hid ▸ by decide)

theorem getCorot_eq (h : s.Sound) (hlives : s.Lives coid.toNat co) :
    s.getCorot coid = some co := by
  have hne : coid ≠ scheduleTaskId := by
    rintro rfl
    exact absurd (h.toNat_lt hlives) (by decide)
  rw [getCorot, if_neg hne, if_neg (Nat.not_le.mpr (lt_length_of_getElem? hlives)),
    List.getD_eq_getElem?_getD, hlives]
  rfl

end Sound

theorem getRunningCorot_eq_none (h : s.runningCoid = scheduleTaskId) :
    s.getRunningCorot = none := by
  rw [getRunningCorot, getCorot, if_pos h]

theorem lives_write (hlives : s.Lives coid.toNat co) :
    (s.write coid co').Lives j co₁ ↔
      j = coid.toNat ∧ co₁ = co' ∨ j ≠ coid.toNat ∧ s.Lives j co₁ := by
  rw [Lives, write, getElem?_set_eq_some (lt_length_of_getElem? hlives), Option.some.injEq]
  exact Iff.rfl

theorem lives_destroy (hlives : s.Lives coid.toNat co) :
    (s.destroy coid).Lives j co₁ ↔ j ≠ coid.toNat ∧ s.Lives j co₁ := by
  rw [Lives, destroy, getElem?_set_eq_some (lt_length_of_getElem? hlives)]
  constructor
  · rintro (⟨-, hnone⟩ | hor)
    · cases hnone
    · exact hor
  · exact .inr

/-- A coroutine that has just been created. -/
def newCorot (s : Scheduler β) (func : β) : Corot β :=
  { id := (s.create func).1, exec := func, ctx := func, status := .ready, serial := s.created }

theorem create_of_nil (h : s.avaliableIds = []) : s.create func =
    (UInt32.ofNat s.tasks.length, { s with
      tasks := s.tasks ++ [some (s.newCorot func)], created := s.created + 1 }) := by
  rw [newCorot, create, h]

theorem create_of_cons {id : CorotId} {ids : List CorotId} (h : s.avaliableIds = id :: ids) :
    s.create func = (id, { s with
      tasks := s.tasks.set id.toNat (some (s.newCorot func)), avaliableIds := ids,
      created := s.created + 1 }) := by
  rw [newCorot, create, h]

theorem create_created (s : Scheduler β) (func : β) :
    (s.create func).2.created = s.created + 1 := by
  rw [create]
  cases s.avaliableIds <;> rfl

theorem create_resumed (s : Scheduler β) (func : β) :
    (s.create func).2.resumed = s.resumed := by
  rw [create]
  cases s.avaliableIds <;> rfl

theorem create_runningCoid (s : Scheduler β) (func : β) :
    (s.create func).2.runningCoid = s.runningCoid := by
  rw [create]
  cases s.avaliableIds <;> rfl

theorem length_le_create (s : Scheduler β) (func : β) :
    s.tasks.length ≤ (s.create func).2.tasks.length := by
  cases hids : s.avaliableIds with
  | nil =>
      rw [create_of_nil hids, List.length_append]
      exact Nat.le_add_right ..
  | cons id ids =>
      rw [create_of_cons hids, List.length_set]

theorem Sound.toNat_length (h : s.Sound) :
    (UInt32.ofNat s.tasks.length).toNat = s.tasks.length := by
  rw [UInt32.toNat_ofNat', Nat.mod_eq_of_lt h.small]

theorem Sound.lives_create (h : s.Sound) :
    (s.create func).2.Lives j co₁ ↔
      j = (s.create func).1.toNat ∧ co₁ = s.newCorot func ∨
        j ≠ (s.create func).1.toNat ∧ s.Lives j co₁ := by
  cases hids : s.avaliableIds with
  | nil =>
      rw [create_of_nil hids, Lives, getElem?_append_eq_some, h.toNat_length, Option.some.injEq]
      exact Iff.rfl
  | cons id ids =>
      have hfree := (h.free.mem_iff id.toNat).mp (hids ▸ List.mem_cons_self)
      rw [create_of_cons hids, Lives, getElem?_set_eq_some (lt_length_of_getElem? hfree),
        Option.some.injEq]
      exact Iff.rfl

theorem Sound.not_lives_create (h : s.Sound) : ¬ s.Lives (s.create func).1.toNat co := by
  intro hlives
  cases hids : s.avaliableIds with
  | nil =>
      rw [create_of_nil hids, h.toNat_length] at hlives
      exact Nat.lt_irrefl _ (lt_length_of_getElem? hlives)
  | cons id ids =>
      have hfree := (h.free.mem_iff id.toNat).mp (hids ▸ List.mem_cons_self)
      rw [create_of_cons hids, Lives, hfree] at hlives
      cases hlives

theorem Sound.create (h : s.Sound) (hroom : ¬ s.Full) (func : β) : (s.create func).2.Sound where
  small := by
    have hsmall := h.small
    cases hids : s.avaliableIds with
    | nil =>
        have hlt : s.tasks.length < 2 ^ 32 - 1 := Nat.not_le.mp fun hle => hroom ⟨hids, hle⟩
        rw [create_of_nil hids, List.length_append, List.length_singleton]
        omega
    | cons id ids =>
        rw [create_of_cons hids, List.length_set]
        exact hsmall
  free := by
    have hfree := h.free
    cases hids : s.avaliableIds with
    | nil =>
        rw [hids] at hfree
        rw [create_of_nil hids, hids]
        exact hfree.push _
    | cons id ids =>
        rw [hids] at hfree
        rw [create_of_cons hids]
        exact hfree.reuse _
  id_eq := by
    intro i co hlives
    rcases h.lives_create.mp hlives with ⟨rfl, rfl⟩ | ⟨-, hold⟩
    · rfl
    · exact h.id_eq i co hold
  serial_lt := by
    intro i co hlives
    rw [create_created]
    rcases h.lives_create.mp hlives with ⟨-, rfl⟩ | ⟨-, hold⟩
    · exact Nat.lt_succ_self _
    · exact Nat.lt_succ_of_lt (h.serial_lt i co hold)
  serial_inj := by
    intro i j co co' hi hj heq
    rcases h.lives_create.mp hi with ⟨rfl, rfl⟩ | ⟨-, hold⟩ <;>
      rcases h.lives_create.mp hj with ⟨rfl, rfl⟩ | ⟨-, hold'⟩
    · rfl
    · exact absurd heq.symm (h.serial_lt j co' hold').ne
    · exact absurd heq (h.serial_lt i co hold).ne
    · exact h.serial_inj i j co co' hold hold' heq

theorem Sound.othersWait_create (h : s.Sound) (hwait : s.OthersWait) (func : β) :
    (s.create func).2.OthersWait := by
  intro i co hlives hne
  rw [create_runningCoid] at hne
  rcases h.lives_create.mp hlives with ⟨-, rfl⟩ | ⟨-, hold⟩
  · exact ⟨func, rfl⟩
  · exact hwait i co hold hne

theorem Sound.write (h : s.Sound) (hlives : s.Lives coid.toNat co) (hid : co'.id = co.id)
    (hserial : co'.serial = co.serial) : (s.write coid co').Sound where
  small := by
    rw [Scheduler.write, List.length_set]
    exact h.small
  free := h.free.replace hlives _
  id_eq := by
    intro i co₁ hlives₁
    rcases (lives_write hlives).mp hlives₁ with ⟨rfl, rfl⟩ | ⟨-, hold⟩
    · rw [hid]
      exact h.id_eq _ co hlives
    · exact h.id_eq i co₁ hold
  serial_lt := by
    intro i co₁ hlives₁
    rcases (lives_write hlives).mp hlives₁ with ⟨rfl, rfl⟩ | ⟨-, hold⟩
    · rw [hserial]
      exact h.serial_lt _ co hlives
    · exact h.serial_lt i co₁ hold
  serial_inj := by
    intro i j co₁ co₂ hi hj heq
    rcases (lives_write hlives).mp hi with ⟨rfl, rfl⟩ | ⟨-, hold⟩ <;>
      rcases (lives_write hlives).mp hj with ⟨rfl, rfl⟩ | ⟨-, hold'⟩
    · rfl
    · exact h.serial_inj _ j co co₂ hlives hold' (hserial.symm.trans heq)
    · exact h.serial_inj i _ co₁ co hold hlives (heq.trans hserial)
    · exact h.serial_inj i j co₁ co₂ hold hold' heq

theorem Sound.destroy (h : s.Sound) (hlives : s.Lives coid.toNat co) :
    (s.destroy coid).Sound where
  small := by
    rw [Scheduler.destroy, List.length_set]
    exact h.small
  free := by
    rw [Scheduler.destroy, List.map_append]
    exact h.free.release hlives
  id_eq := fun i co₁ hlives₁ => h.id_eq i co₁ ((lives_destroy hlives).mp hlives₁).2
  serial_lt := fun i co₁ hlives₁ => h.serial_lt i co₁ ((lives_destroy hlives).mp hlives₁).2
  serial_inj := fun i j co₁ co₂ hi hj =>
    h.serial_inj i j co₁ co₂ ((lives_destroy hlives).mp hi).2 ((lives_destroy hlives).mp hj).2

end Scheduler

end Slots

end CasualGame.Coroutine
