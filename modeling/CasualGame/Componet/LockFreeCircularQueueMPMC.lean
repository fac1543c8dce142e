import Mathlib.Data.List.Nodup
import CasualGame.Lib.Locks
import CasualGame.Lib.Ring
import CasualGame.Lib.Run

/-!
The queue of any number of producers and consumers, whose memory accesses come in any order.
-/

namespace CasualGame.Componet

open Lib.Locks Lib.Ring Lib.Run

universe u v

inductive LockFreeCircularQueueMPMC.Status
  | writing
  | reading
  | empty
  | full
  deriving DecidableEq

/-- The vector of cells, as the status and the item of every one of them. -/
structure LockFreeCircularQueueMPMC (α : Type u) where
  beginPos : UInt32 := 0
  endPos : UInt32 := 0
  maxSize : UInt64
  status : Nat → LockFreeCircularQueueMPMC.Status := fun _ => .empty
  data : Nat → α

namespace LockFreeCircularQueueMPMC

variable {α : Type u} {τ : Type v}

section Code

/-- Where a thread stands. Every step but the calls and the returns is named after its access
to the memory; `i` is the counter of the tries. -/
inductive Pc (α : Type u)
  | idle
  | loadEnd (item : α) (i : Nat)
  | loadEmpty (item : α) (i : Nat) (oldEnd index : UInt32)
  | lockEmpty (item : α) (i : Nat) (oldEnd index : UInt32)
  | moveEnd (item : α) (i : Nat) (oldEnd index : UInt32)
  | unlockEmpty (item : α) (i : Nat) (oldEnd index : UInt32)
  | write (item : α) (index : UInt32)
  | storeFull (item : α) (index : UInt32)
  | pushed (result : Bool)
  | loadBegin (i : Nat)
  | loadFull (i : Nat) (oldBegin index : UInt32)
  | lockFull (i : Nat) (oldBegin index : UInt32)
  | moveBegin (i : Nat) (oldBegin index : UInt32)
  | unlockFull (i : Nat) (oldBegin index : UInt32)
  | read (index : UInt32)
  | reset (index : UInt32) (item : α)
  | storeEmpty (index : UInt32) (item : α)
  | popped (result : Option α)
  deriving DecidableEq

/-- What has happened at the queue: the items in the order in which `m_end` was moved for
them, which gives each its place; the places whose push has returned; how often `m_begin` was
moved; the places with the items that pops have read; and the place that each thread got last. -/
structure Past (τ : Type v) (α : Type u) where
  placed : List α := []
  returned : List Nat := []
  taken : Nat := 0
  delivered : List (Nat × α) := []
  place : τ → Nat := fun _ => 0

/-- The queue and its threads. -/
structure Threads (τ : Type v) (α : Type u) where
  queue : LockFreeCircularQueueMPMC α
  pc : τ → Pc α := fun _ => .idle
  past : Past τ α := {}

def maxSizeOf (powArg : UInt64) : UInt64 :=
  ((1 : UInt32) <<< (if powArg < 24 then powArg else 24).toUInt32).toUInt64

/-- `maxSize()` is 32 bits wide, `index` 64 and the result 32 again. -/
def realIndex (q : LockFreeCircularQueueMPMC α) (index : UInt64) : UInt32 :=
  (index &&& (q.maxSize.toUInt32 - 1).toUInt64).toUInt32

/-- `m_data[index].status.store(status)` -/
def storeStatus (q : LockFreeCircularQueueMPMC α) (index : UInt32) (status : Status) :
    LockFreeCircularQueueMPMC α :=
  { q with status := Function.update q.status index.toNat status }

/-- `m_data[index].t = item` -/
def writeItem (q : LockFreeCircularQueueMPMC α) (index : UInt32) (item : α) :
    LockFreeCircularQueueMPMC α :=
  { q with data := Function.update q.data index.toNat item }

/-- The head of the loop in `push`. -/
def tryPush (item : α) (i : Nat) : Pc α := if i = 5 then .pushed false else .loadEnd item (i + 1)

/-- The head of the loop in `pop`. -/
def tryPop (i : Nat) : Pc α := if i = 5 then .popped none else .loadBegin (i + 1)

variable [Inhabited α]

def create (τ : Type v) (powArg : UInt64) : Threads τ α where
  queue := { maxSize := maxSizeOf powArg, data := fun _ => default }

inductive Act (τ : Type v) (α : Type u)
  | push (t : τ) (item : α)
  | pop (t : τ)
  /-- The next step of the thread. `spurious` makes a `compare_exchange_weak` fail. -/
  | step (t : τ) (spurious : Bool)

/-- There is no call to go on with, or one is going on already. -/
inductive Refusal
  | notNow

open Refusal

variable [DecidableEq τ]

/-- The push of the thread has moved `m_end`. -/
def Past.push (past : Past τ α) (t : τ) (item : α) : Past τ α :=
  { past with
    placed := past.placed ++ [item]
    place := Function.update past.place t past.placed.length }

/-- The pop of the thread has moved `m_begin`. -/
def Past.take (past : Past τ α) (t : τ) : Past τ α :=
  { past with taken := past.taken + 1, place := Function.update past.place t past.taken }

def Past.ret (past : Past τ α) (t : τ) : Past τ α :=
  { past with returned := past.returned ++ [past.place t] }

def Past.read (past : Past τ α) (t : τ) (item : α) : Past τ α :=
  { past with delivered := past.delivered ++ [(past.place t, item)] }

def Threads.setPc (s : Threads τ α) (t : τ) (pc : Pc α) : Threads τ α :=
  { s with pc := Function.update s.pc t pc }

def call (s : Threads τ α) (t : τ) (pc : Pc α) : Except Refusal (Threads τ α) :=
  match s.pc t with
  | .idle | .pushed _ | .popped _ => .ok (s.setPc t pc)
  | _ => .error notNow

/-- The next step of a thread. -/
def step (s : Threads τ α) (t : τ) (spurious : Bool) : Except Refusal (Threads τ α) :=
  let q := s.queue
  match s.pc t with
  | .idle | .pushed _ | .popped _ => .error notNow
  | .loadEnd item i =>
      .ok (s.setPc t (.loadEmpty item i q.endPos (q.realIndex q.endPos.toUInt64)))
  | .loadEmpty item i oldEnd index =>
      if q.status index.toNat ≠ .empty then .ok (s.setPc t (tryPush item i))
      else .ok (s.setPc t (.lockEmpty item i oldEnd index))
  | .lockEmpty item i oldEnd index =>
      if spurious ∨ q.status index.toNat ≠ .empty then .ok (s.setPc t (tryPush item i))
      else
        .ok { s.setPc t (.moveEnd item i oldEnd index) with
          queue := q.storeStatus index .writing }
  | .moveEnd item i oldEnd index =>
      if spurious ∨ q.endPos ≠ oldEnd then .ok (s.setPc t (.unlockEmpty item i oldEnd index))
      else
        .ok { s.setPc t (.write item index) with
          queue := { q with endPos := oldEnd + 1 }
          past := s.past.push t item }
  | .unlockEmpty item i _ index =>
      .ok { s.setPc t (tryPush item i) with queue := q.storeStatus index .empty }
  | .write item index =>
      .ok { s.setPc t (.storeFull item index) with queue := q.writeItem index item }
  | .storeFull _ index =>
      .ok { s.setPc t (.pushed true) with
        queue := q.storeStatus index .full
        past := s.past.ret t }
  | .loadBegin i =>
      .ok (s.setPc t (.loadFull i q.beginPos (q.realIndex q.beginPos.toUInt64)))
  | .loadFull i oldBegin index =>
      if q.status index.toNat ≠ .full then .ok (s.setPc t (tryPop i))
      else .ok (s.setPc t (.lockFull i oldBegin index))
  | .lockFull i oldBegin index =>
      if spurious ∨ q.status index.toNat ≠ .full then .ok (s.setPc t (tryPop i))
      else
        .ok { s.setPc t (.moveBegin i oldBegin index) with
          queue := q.storeStatus index .reading }
  | .moveBegin i oldBegin index =>
      if spurious ∨ q.beginPos ≠ oldBegin then .ok (s.setPc t (.unlockFull i oldBegin index))
      else
        .ok { s.setPc t (.read index) with
          queue := { q with beginPos := oldBegin + 1 }
          past := s.past.take t }
  | .unlockFull i _ index =>
      .ok { s.setPc t (tryPop i) with queue := q.storeStatus index .full }
  | .read index =>
      .ok { s.setPc t (.reset index (q.data index.toNat)) with
        past := s.past.read t (q.data index.toNat) }
  | .reset index item =>
      .ok { s.setPc t (.storeEmpty index item) with queue := q.writeItem index default }
  | .storeEmpty index item =>
      .ok { s.setPc t (.popped (some item)) with queue := q.storeStatus index .empty }

/-- Any number of threads at the queue, in any order of their steps. -/
def threads (τ : Type v) [DecidableEq τ] (powArg : UInt64) :
    System (Threads τ α) (Act τ α) Refusal where
  Init s := s = create τ powArg
  Allowed _ _ := True
  step s
    | .push t item => call s t (tryPush item 0)
    | .pop t => call s t (tryPop 1)
    | .step t spurious => step s t spurious

end Code

section Cells

variable {q : LockFreeCircularQueueMPMC α} {index : UInt32} {c : Nat} {item : α}

theorem writeItem_data (hc : index.toNat = c) : (q.writeItem index item).data c = item := by
  rw [writeItem, ← hc]
  exact Function.update_self ..

theorem writeItem_data_of_ne (hc : index.toNat ≠ c) : (q.writeItem index item).data c = q.data c :=
  Function.update_of_ne hc.symm _ _

end Cells

/-- What a thread that holds a cell is about to do with it: to take it for a push, to write
its item, to publish it, to take it for a pop, to read it, or to give it back. -/
inductive Mode
  | toPush
  | write
  | publish
  | toPop
  | read
  | giveBack
  deriving DecidableEq

/-- What a cell is, which is more than its status says. -/
inductive Stage (τ : Type v)
  | empty
  | full
  | held (t : τ) (m : Mode)

def Mode.status : Mode → Status
  | .toPush | .write | .publish => .writing
  | .toPop | .read | .giveBack => .reading

namespace Stage

def status : Stage τ → Status
  | .empty => .empty
  | .full => .full
  | .held _ m => m.status

def owner : Stage τ → Option (τ × Mode)
  | .held t m => some (t, m)
  | _ => none

theorem owner_eq_some {x : Stage τ} {t : τ} {m : Mode} : x.owner = some (t, m) ↔ x = .held t m := by
  cases x <;> simp [owner]

theorem eq_empty {x : Stage τ} (h : x.status = .empty) : x = .empty := by
  cases x with
  | empty => rfl
  | full => cases h
  | held t m => cases m <;> cases h

theorem eq_full {x : Stage τ} (h : x.status = .full) : x = .full := by
  cases x with
  | empty => cases h
  | full => rfl
  | held t m => cases m <;> cases h

/-- A place has been given to an item, and the item has not been taken. -/
def Occupied : Stage τ → Prop
  | .full | .held _ .write | .held _ .publish | .held _ .toPop => True
  | _ => False

/-- The item is in the cell. -/
def Written : Stage τ → Prop
  | .full | .held _ .publish | .held _ .toPop => True
  | _ => False

end Stage

/-- The cell that a thread holds. -/
def Pc.held : Pc α → Option (Nat × Mode)
  | .moveEnd _ _ _ index | .unlockEmpty _ _ _ index => some (index.toNat, .toPush)
  | .write _ index => some (index.toNat, .write)
  | .storeFull _ index => some (index.toNat, .publish)
  | .moveBegin _ _ index | .unlockFull _ _ index => some (index.toNat, .toPop)
  | .read index => some (index.toNat, .read)
  | .reset index _ | .storeEmpty index _ => some (index.toNat, .giveBack)
  | _ => none

namespace Past

variable (past : Past τ α)

/-- The places of the items that have been popped. -/
def popped : List Nat := past.delivered.map Prod.fst

end Past

/-- The next step of the thread reads or writes the item of the cell. -/
def Pc.Accesses (index : UInt32) : Pc α → Prop
  | .write _ index' | .read index' | .reset index' _ => index' = index
  | _ => False

/-- The cell of a place. -/
def cellOf (q : LockFreeCircularQueueMPMC α) (place : Nat) : Nat :=
  (q.realIndex (UInt32.ofNat place).toUInt64).toNat

namespace Past

variable (past : Past τ α)

/-- The thread has got a place for its item, whose push has not returned. -/
structure Filling (n : Nat) (t : τ) (index : UInt32) : Prop where
  taken_le : past.taken ≤ past.place t
  lt_length : past.place t < past.placed.length
  place_mod : past.place t % n = index.toNat
  not_returned : past.place t ∉ past.returned

/-- The thread has got the place of an item that it is about to read. -/
structure Draining (data : Nat → α) (n : Nat) (t : τ) (index : UInt32) : Prop where
  lt_taken : past.place t < past.taken
  place_mod : past.place t % n = index.toNat
  placed_eq : past.placed[past.place t]? = some (data index.toNat)
  not_popped : past.place t ∉ past.popped

/-- What a thread knows where it stands. -/
def At (data : Nat → α) (n : Nat) (t : τ) : Pc α → Prop
  | .loadEmpty _ _ old index | .lockEmpty _ _ old index | .moveEnd _ _ old index
  | .unlockEmpty _ _ old index | .loadFull _ old index | .lockFull _ old index
  | .moveBegin _ old index | .unlockFull _ old index => index.toNat = old.toNat % n
  | .write item index => past.Filling n t index ∧ past.placed[past.place t]? = some item
  | .storeFull _ index => past.Filling n t index
  | .read index => past.Draining data n t index
  | _ => True

structure Ledger : Prop where
  returned_lt : ∀ j ∈ past.returned, j < past.placed.length
  nodup : past.popped.Nodup
  delivered_eq : ∀ d ∈ past.delivered, d.1 < past.taken ∧ past.placed[d.1]? = some d.2

variable {past} {past' : Past τ α} {data data' : Nat → α} {n : Nat} {t : τ} {p : Pc α}

theorem At.mono (h : past.At data n t p)
    (hfill : ∀ index : UInt32, p.held = some (index.toNat, .write) ∨
      p.held = some (index.toNat, .publish) → past.Filling n t index → past'.Filling n t index)
    (hplaced : ∀ item, past.placed[past.place t]? = some item →
      past'.placed[past'.place t]? = some item)
    (hdrain : ∀ index : UInt32, p.held = some (index.toNat, .read) →
      past.Draining data n t index → past'.Draining data' n t index) : past'.At data' n t p := by
  cases p with
  | write item index => exact ⟨hfill index (.inl rfl) h.1, hplaced item h.2⟩
  | storeFull item index => exact hfill index (.inr rfl) h
  | read index => exact hdrain index rfl h
  | _ => exact h

end Past

/-- The ring of `2 ^ k` cells. -/
structure Inv (k : Nat) (stage : Nat → Stage τ) (s : Threads τ α) : Prop where
  small : k ≤ 24
  maxSize_eq : s.queue.maxSize.toNat = 2 ^ k
  beginPos_eq : s.queue.beginPos = UInt32.ofNat s.past.taken
  endPos_eq : s.queue.endPos = UInt32.ofNat s.past.placed.length
  agree : Agree (fun t => (s.pc t).held) (fun c => (stage c).owner)
  status_eq : s.queue.status = fun c => (stage c).status
  marked : Marked (2 ^ k) (fun c => (stage c).Occupied) s.past.taken s.past.placed.length
  data_eq : ∀ j, s.past.taken ≤ j → j < s.past.placed.length → (stage (j % 2 ^ k)).Written →
    s.past.placed[j]? = some (s.queue.data (j % 2 ^ k))
  at_pc : ∀ t, s.past.At s.queue.data (2 ^ k) t (s.pc t)
  ledger : s.past.Ledger
  inFlight : ∀ j < s.past.taken, j ∈ s.past.popped ∨
    ∃ t index, s.pc t = .read index ∧ s.past.place t = j

namespace Inv

variable {k : Nat} {stage : Nat → Stage τ} {s : Threads τ α}

theorem realIndex_eq (h : Inv k stage s) (old : UInt32) :
    (s.queue.realIndex old.toUInt64).toNat = old.toNat % 2 ^ k := by
  have hsmall := h.small
  have hpow : 2 ^ k ≤ 2 ^ 24 := Nat.pow_le_pow_right (by decide) hsmall
  have hpos := Nat.two_pow_pos k
  have hsize : s.queue.maxSize.toUInt32.toNat = 2 ^ k := by
    rw [UInt64.toNat_toUInt32, h.maxSize_eq, Nat.mod_eq_of_lt (by omega)]
  have hmask : (s.queue.maxSize.toUInt32 - 1).toNat = 2 ^ k - 1 := by
    rw [UInt32.toNat_sub_of_le, hsize, UInt32.toNat_one]
    rw [UInt32.le_iff_toNat_le, hsize, UInt32.toNat_one]
    exact hpos
  have hlt : old.toNat % 2 ^ k < 2 ^ k := Nat.mod_lt _ hpos
  rw [realIndex, UInt64.toNat_toUInt32, UInt64.toNat_and, UInt32.toNat_toUInt64,
    UInt32.toNat_toUInt64, hmask, Nat.and_two_pow_sub_one_eq_mod, Nat.mod_eq_of_lt (by omega)]

theorem mod_ofNat (h : Inv k stage s) (j : Nat) : (UInt32.ofNat j).toNat % 2 ^ k = j % 2 ^ k := by
  have hsmall := h.small
  rw [UInt32.toNat_ofNat', Nat.mod_mod_of_dvd _ (Nat.pow_dvd_pow 2 (by omega))]

theorem stage_eq_of_held (h : Inv k stage s) {t : τ} {c : Nat} {m : Mode}
    (ht : (s.pc t).held = some (c, m)) : stage c = .held t m :=
  Stage.owner_eq_some.mp ((h.agree t c m).mp ht)

theorem stage_eq_empty (h : Inv k stage s) {c : Nat} (hc : s.queue.status c = .empty) :
    stage c = .empty := by
  rw [h.status_eq] at hc
  exact Stage.eq_empty hc

theorem stage_eq_full (h : Inv k stage s) {c : Nat} (hc : s.queue.status c = .full) :
    stage c = .full := by
  rw [h.status_eq] at hc
  exact Stage.eq_full hc

theorem ne_of_held (h : Inv k stage s) {t t' : τ} {c c' : Nat} {m m' : Mode}
    (ht : (s.pc t).held = some (c, m)) (ht' : (s.pc t').held = some (c', m')) (hne : t' ≠ t) :
    c' ≠ c := by
  rintro rfl
  exact hne (h.agree.eq_of_held ht' ht)

variable [DecidableEq τ] {t : τ} {p : Pc α}

theorem agree_setPc (h : Inv k stage s) (hheld : p.held = (s.pc t).held) :
    Agree (fun t' => (Function.update s.pc t p t').held) (fun c => (stage c).owner) := by
  have hsame : (fun t' => (Function.update s.pc t p t').held) = fun t' => (s.pc t').held := by
    funext t'
    rw [Function.update_apply]
    split_ifs with ht
    · rw [hheld, ht]
    · rfl
  rw [hsame]
  exact h.agree

theorem agree_setStage (h : Inv k stage s) {c : Nat} {x : Stage τ} (mode : Option Mode)
    (hp : p.held = mode.map (c, ·)) (hx : x.owner = mode.map (t, ·))
    (hmine : ((stage c).owner = none ∧ (s.pc t).held = none) ∨
      ∃ m, (s.pc t).held = some (c, m)) :
    Agree (fun t' => (Function.update s.pc t p t').held)
      (fun c' => (Function.update stage c x c').owner) := by
  have hagree : Agree (Function.update (fun t' => (s.pc t').held) t (mode.map (c, ·)))
      (Function.update (fun c' => (stage c').owner) c (mode.map (t, ·))) := by
    apply h.agree.update mode
    · intro t' m howner
      rcases hmine with ⟨hnone, -⟩ | ⟨m', hheld⟩
      · rw [hnone] at howner
        cases howner
      · exact h.agree.eq_of_held ((h.agree t' c m).mpr howner) hheld
    · intro c' m hheld
      rcases hmine with ⟨-, hnone⟩ | ⟨m', hheld'⟩
      · rw [hnone] at hheld
        cases hheld
      · rw [hheld', Option.some.injEq, Prod.mk.injEq] at hheld
        exact hheld.1.symm
  rw [← hp, ← hx] at hagree
  have hheld : (fun t' => (Function.update s.pc t p t').held) =
      Function.update (fun t' => (s.pc t').held) t p.held := by
    funext t'
    exact Function.apply_update (fun _ => Pc.held) s.pc t p t'
  have howner : (fun c' => (Function.update stage c x c').owner) =
      Function.update (fun c' => (stage c').owner) c x.owner := by
    funext c'
    exact Function.apply_update (fun _ => Stage.owner) stage c x c'
  rw [hheld, howner]
  exact hagree

omit [DecidableEq τ] in
theorem status_setStage (h : Inv k stage s) {index : UInt32} {x : Stage τ} {status : Status}
    (hx : x.status = status) :
    (s.queue.storeStatus index status).status =
      fun c => (Function.update stage index.toNat x c).status := by
  funext c
  rw [storeStatus, ← hx]
  dsimp only
  rw [h.status_eq]
  exact (Function.apply_update (fun _ => Stage.status) stage index.toNat x c).symm

omit [DecidableEq τ] in
theorem status_same (h : Inv k stage s) {c : Nat} {x : Stage τ}
    (hx : x.status = (stage c).status) :
    s.queue.status = fun c' => (Function.update stage c x c').status := by
  funext c'
  rw [h.status_eq, Function.update_apply]
  split_ifs with hc
  · rw [hx, hc]
  · rfl

omit [DecidableEq τ] in
theorem marked_same (h : Inv k stage s) {c : Nat} {x : Stage τ}
    (hx : x.Occupied ↔ (stage c).Occupied) :
    Marked (2 ^ k) (fun c' => (Function.update stage c x c').Occupied) s.past.taken
      s.past.placed.length := by
  apply h.marked.congr
  intro c'
  rw [Function.update_apply]
  split_ifs with hc
  · rw [hc]
    exact hx
  · exact Iff.rfl

omit [DecidableEq τ] in
theorem written_of_update {c c' : Nat} {x : Stage τ} (hx : ¬ x.Written)
    (h : (Function.update stage c x c').Written) : c' ≠ c ∧ (stage c').Written := by
  rw [Function.update_apply] at h
  split_ifs at h with hc
  · exact absurd h hx
  · exact ⟨hc, h⟩

theorem at_update {past : Past τ α} {data : Nat → α} {n : Nat} (hself : past.At data n t p)
    (hothers : ∀ t' ≠ t, past.At data n t' (s.pc t')) (t' : τ) :
    past.At data n t' (Function.update s.pc t p t') := by
  rcases eq_or_ne t' t with rfl | hne
  · rw [Function.update_self]
    exact hself
  · rw [Function.update_of_ne hne]
    exact hothers t' hne

theorem inFlight_update (h : Inv k stage s) (hread : ∀ index, s.pc t ≠ .read index) {j : Nat}
    (hj : j < s.past.taken) : j ∈ s.past.popped ∨ ∃ t' index,
      t' ≠ t ∧ Function.update s.pc t p t' = .read index ∧ s.past.place t' = j := by
  refine (h.inFlight j hj).imp_right ?_
  rintro ⟨t', index, hpc, hplace⟩
  have hne : t' ≠ t := by
    rintro rfl
    exact hread index hpc
  exact ⟨t', index, hne, (Function.update_of_ne hne _ _).trans hpc, hplace⟩

end Inv

end LockFreeCircularQueueMPMC

end CasualGame.Componet
