import CasualGame.Componet.ManyThreads

/-!
The queue of many threads as its callers see it: what has been pushed, and what has been
popped.
-/

namespace CasualGame.Componet

open Lib.Run

universe u v

namespace LockFreeCircularQueueMPMC

variable {α : Type u} {τ : Type v}

section Statement

/-- What is seen of the calls and of the two indices: the item of the push that each thread has
called last; the items in the order in which `m_end` was moved for them, which gives each its
place; how often `m_begin` was moved; the place that the call of a thread has got by moving one
of the two; the pushes that have returned `true`, and the pops that have returned an item. -/
structure Calls (τ : Type v) (α : Type u) where
  item : τ → Option α := fun _ => none
  placed : List α := []
  taken : Nat := 0
  place : τ → Option Nat := fun _ => none
  pushed : List (Option Nat × Option α) := []
  popped : List (Option Nat × α) := []

variable [DecidableEq τ]

def Calls.moved (calls : Calls τ α) (q q' : LockFreeCircularQueueMPMC α) (t : τ) : Calls τ α :=
  if q'.endPos ≠ q.endPos then
    { calls with
      placed := calls.placed ++ (calls.item t).toList
      place := Function.update calls.place t (some calls.placed.length) }
  else if q'.beginPos ≠ q.beginPos then
    { calls with
      taken := calls.taken + 1
      place := Function.update calls.place t (some calls.taken) }
  else calls

def Calls.ended (calls : Calls τ α) (t : τ) : Pc α → Calls τ α
  | .pushed true => { calls with pushed := calls.pushed ++ [(calls.place t, calls.item t)] }
  | .popped (some item) => { calls with popped := calls.popped ++ [(calls.place t, item)] }
  | _ => calls

def note (s : Threads τ α) (a : Act τ α) (s' : Threads τ α) (calls : Calls τ α) : Calls τ α :=
  match a with
  | .push t item =>
      { calls with
        item := Function.update calls.item t (some item)
        place := Function.update calls.place t none }
  | .pop t => { calls with place := Function.update calls.place t none }
  | .step t _ => (calls.moved s.queue s'.queue t).ended t (s'.pc t)

/-- The item of a push that has got a place for it. -/
def Pc.placing : Pc α → Option α
  | .write item _ | .storeFull item _ => some item
  | _ => none

/-- The item that a pop has read and not returned. -/
def Pc.carried : Pc α → Option α
  | .reset _ item | .storeEmpty _ item => some item
  | _ => none

/-- The queue is first in, first out. Every push that has returned `true` has a place of its own
for its item, the item with the place `j` is popped when `m_begin` is moved for the `j`-th time,
and until then it is in its cell. -/
structure NothingLost (s : Threads τ α) (calls : Calls τ α) : Prop where
  beginPos_eq : s.queue.beginPos = UInt32.ofNat calls.taken
  endPos_eq : s.queue.endPos = UInt32.ofNat calls.placed.length
  taken_le : calls.taken ≤ calls.placed.length
  pushed_once : (calls.pushed.map Prod.fst).Nodup
  pushed_placed : ∀ push ∈ calls.pushed, ∃ j item, push = (some j, some item) ∧
    calls.placed[j]? = some item
  placed_pushed : ∀ j item, calls.placed[j]? = some item → (some j, some item) ∈ calls.pushed ∨
    ∃ t, calls.place t = some j ∧ (s.pc t).placing = some item
  popped_once : (calls.popped.map Prod.fst).Nodup
  in_order : ∀ pop ∈ calls.popped, ∃ j < calls.taken, pop.1 = some j ∧
    calls.placed[j]? = some pop.2
  taken_once : ∀ j item, j < calls.taken → calls.placed[j]? = some item →
    (some j, item) ∈ calls.popped ∨ ∃ t, calls.place t = some j ∧
      ((∃ index, s.pc t = .read index) ∨ (s.pc t).carried = some item)
  still_there : ∀ j item, (some j, some item) ∈ calls.pushed → (some j, item) ∈ calls.popped ∨
    (∃ t, calls.place t = some j ∧ (s.pc t).carried = some item) ∨
      s.queue.data (s.queue.cellOf j) = item ∧
        (s.queue.status (s.queue.cellOf j) = .full ∨ s.queue.status (s.queue.cellOf j) = .reading)
  not_racing : ∀ t t' index, (s.pc t).Accesses index → (s.pc t').Accesses index → t = t'

end Statement

section Noting

/-- The item of a push that is going on. -/
def Pc.pushing : Pc α → Option α
  | .loadEnd item _ | .loadEmpty item _ _ _ | .lockEmpty item _ _ _ | .moveEnd item _ _ _
  | .unlockEmpty item _ _ _ | .write item _ | .storeFull item _ => some item
  | _ => none

def Pc.hasPlace : Pc α → Bool
  | .write _ _ | .storeFull _ _ | .read _ | .reset _ _ | .storeEmpty _ _ => true
  | _ => false

/-- Every place that `m_end` has given away is that of a push, which has returned or is at it. -/
structure Fills (s : Threads τ α) : Prop where
  placing : ∀ t item, (s.pc t).placing = some item →
    s.past.placed[s.past.place t]? = some item
  returned_once : s.past.returned.Nodup
  owned : ∀ j < s.past.placed.length, j ∈ s.past.returned ∨
    ∃ t item, s.past.place t = j ∧ (s.pc t).placing = some item

/-- Every item that has been read is popped, or a pop carries it. -/
structure Carries (s : Threads τ α) (popped : List (Option Nat × α)) : Prop where
  was_read : ∀ pop ∈ popped, ∃ d ∈ s.past.delivered, pop = (some d.1, d.2)
  popped_once : (popped.map Prod.fst).Nodup
  carried : ∀ t item, (s.pc t).carried = some item →
    (s.past.place t, item) ∈ s.past.delivered ∧ some (s.past.place t) ∉ popped.map Prod.fst
  apart : ∀ t t' item item', (s.pc t).carried = some item → (s.pc t').carried = some item' →
    s.past.place t = s.past.place t' → t = t'
  delivered : ∀ d ∈ s.past.delivered, (some d.1, d.2) ∈ popped ∨
    ∃ t, s.past.place t = d.1 ∧ (s.pc t).carried = some d.2

/-- What has been seen of the calls is what has happened at the queue. -/
structure Noted (s : Threads τ α) (calls : Calls τ α) : Prop where
  placed : calls.placed = s.past.placed
  taken : calls.taken = s.past.taken
  item : ∀ t item, (s.pc t).pushing = some item → calls.item t = some item
  place : ∀ t, (s.pc t).hasPlace = true → calls.place t = some (s.past.place t)
  pushed : calls.pushed = s.past.returned.map fun j => (some j, s.past.placed[j]?)
  fills : Fills s
  carries : Carries s calls.popped

variable [DecidableEq τ] {s s' : Threads τ α} {calls : Calls τ α} {t : τ} {p : Pc α}

/-- A thread goes on, and neither its place nor its item changes. -/
structure Quiet (p p' : Pc α) : Prop where
  pushing : p'.pushing = p.pushing ∨ p'.pushing = none
  hasPlace : p'.hasPlace = p.hasPlace
  placing : p'.placing = p.placing
  carried : p'.carried = p.carried

theorem update_of_eq {β : Type*} (f : Pc α → β) (h : f p = f (s.pc t)) (t' : τ) :
    f (Function.update s.pc t p t') = f (s.pc t') := by
  rcases eq_or_ne t' t with rfl | hne
  · rw [Function.update_self, h]
  · rw [Function.update_of_ne hne]

theorem update_self_of {β : Type*} (f : Pc α → β) : f (Function.update s.pc t p t) = f p := by
  rw [Function.update_self]

/-- What another thread than `t` is at, it was at before. -/
theorem of_update {β : Type*} {f : Pc α → Option β} {t' : τ} {b : β} (hnone : f p = none)
    (h : f (Function.update s.pc t p t') = some b) : t' ≠ t ∧ f (s.pc t') = some b := by
  rcases eq_or_ne t' t with rfl | hne
  · rw [Function.update_self] at h
    cases hnone.symm.trans h
  · rw [Function.update_of_ne hne] at h
    exact ⟨hne, h⟩

omit [DecidableEq τ] in
theorem ne_of_some {β : Type*} {f : Pc α → Option β} {t' : τ} {b : β} (hnone : f (s.pc t) = none)
    (h : f (s.pc t') = some b) : t' ≠ t := by
  rintro rfl
  cases hnone.symm.trans h

theorem Pc.placing_eq_none (h : p.hasPlace = false) : p.placing = none := by
  cases p with
  | write | storeFull => cases h
  | _ => rfl

theorem Pc.carried_eq_none (h : p.hasPlace = false) : p.carried = none := by
  cases p with
  | reset | storeEmpty => cases h
  | _ => rfl

theorem Pc.hasPlace_of_placing {item : α} (h : p.placing = some item) : p.hasPlace = true := by
  by_contra hnot
  cases (Pc.placing_eq_none (Bool.eq_false_iff.mpr hnot)).symm.trans h

theorem Pc.hasPlace_of_carried {item : α} (h : p.carried = some item) : p.hasPlace = true := by
  by_contra hnot
  cases (Pc.carried_eq_none (Bool.eq_false_iff.mpr hnot)).symm.trans h

omit [DecidableEq τ] in
/-- No push has got a place or returned. -/
theorem Fills.of_same (h : Fills s) (hplaced : s'.past.placed = s.past.placed)
    (hreturned : s'.past.returned = s.past.returned)
    (hplacing : ∀ t, (s'.pc t).placing = (s.pc t).placing)
    (hplace : ∀ t item, (s.pc t).placing = some item → s'.past.place t = s.past.place t) :
    Fills s' where
  placing := by
    intro t item hitem
    rw [hplacing] at hitem
    rw [hplaced, hplace t item hitem]
    exact h.placing t item hitem
  returned_once := by
    rw [hreturned]
    exact h.returned_once
  owned := by
    rw [hplaced, hreturned]
    intro j hj
    refine (h.owned j hj).imp_right ?_
    rintro ⟨t, item, rfl, hitem⟩
    exact ⟨t, item, hplace t item hitem, (hplacing t).trans hitem⟩

omit [DecidableEq τ] in
/-- No pop has read an item or returned one. -/
theorem Carries.of_same {popped : List (Option Nat × α)} (h : Carries s popped)
    (hdelivered : s'.past.delivered = s.past.delivered)
    (hcarried : ∀ t, (s'.pc t).carried = (s.pc t).carried)
    (hplace : ∀ t item, (s.pc t).carried = some item → s'.past.place t = s.past.place t) :
    Carries s' popped where
  was_read := by
    rw [hdelivered]
    exact h.was_read
  popped_once := h.popped_once
  carried := by
    intro t item hitem
    rw [hcarried] at hitem
    rw [hdelivered, hplace t item hitem]
    exact h.carried t item hitem
  apart := by
    intro t t' item item' hitem hitem' heq
    rw [hcarried] at hitem hitem'
    rw [hplace t item hitem, hplace t' item' hitem'] at heq
    exact h.apart t t' item item' hitem hitem' heq
  delivered := by
    rw [hdelivered]
    intro d hd
    refine (h.delivered d hd).imp_right ?_
    rintro ⟨t, heq, hitem⟩
    exact ⟨t, (hplace t _ hitem).trans heq, (hcarried t).trans hitem⟩

namespace Noted

theorem item_update (h : Noted s calls) (hp : p.pushing = none) (t' : τ) (item' : α)
    (hpushing : (Function.update s.pc t p t').pushing = some item') :
    calls.item t' = some item' :=
  h.item t' item' (of_update (f := Pc.pushing) hp hpushing).2

/-- The thread `t` has no place any more. -/
theorem place_update (h : Noted s calls) (hp : p.hasPlace = false) (t' : τ)
    (hhas : (Function.update s.pc t p t').hasPlace = true) :
    t' ≠ t ∧ calls.place t' = some (s.past.place t') := by
  rcases eq_or_ne t' t with rfl | hne
  · rw [Function.update_self, hp] at hhas
    cases hhas
  · rw [Function.update_of_ne hne] at hhas
    exact ⟨hne, h.place t' hhas⟩

/-- The thread `t` has got the place `j`. -/
theorem place_update_place (h : Noted s calls) {j j' : Nat} (hj : j = j') (t' : τ)
    (hhas : (Function.update s.pc t p t').hasPlace = true) :
    Function.update calls.place t (some j) t' =
      some (Function.update s.past.place t j' t') := by
  rcases eq_or_ne t' t with rfl | hne
  · rw [Function.update_self, Function.update_self, hj]
  · rw [Function.update_of_ne hne] at hhas
    rw [Function.update_of_ne hne, Function.update_of_ne hne]
    exact h.place t' hhas

theorem setPc (h : Noted s calls) (hquiet : Quiet (s.pc t) p) (q : LockFreeCircularQueueMPMC α) :
    Noted { s.setPc t p with queue := q } calls where
  placed := h.placed
  taken := h.taken
  item := by
    intro t' item hpushing
    change (Function.update s.pc t p t').pushing = some item at hpushing
    rcases hquiet.pushing with hsame | hnone
    · exact h.item t' item ((update_of_eq Pc.pushing hsame t').symm.trans hpushing)
    · exact h.item_update hnone t' item hpushing
  place t' hplace := h.place t' ((update_of_eq Pc.hasPlace hquiet.hasPlace t').symm.trans hplace)
  pushed := h.pushed
  fills := h.fills.of_same rfl rfl (update_of_eq Pc.placing hquiet.placing) fun _ _ _ => rfl
  carries := h.carries.of_same rfl (update_of_eq Pc.carried hquiet.carried) fun _ _ _ => rfl

theorem call (h : Noted s calls) (hfree : (s.pc t).hasPlace = false) (hp : p.hasPlace = false)
    {item' : τ → Option α}
    (hitem : ∀ t' item, ((s.setPc t p).pc t').pushing = some item → item' t' = some item) :
    Noted (s.setPc t p)
      { calls with item := item', place := Function.update calls.place t none } where
  placed := h.placed
  taken := h.taken
  item := hitem
  place := by
    intro t' hplace
    obtain ⟨hne, hold⟩ := h.place_update hp t' hplace
    exact (Function.update_of_ne hne _ _).trans hold
  pushed := h.pushed
  fills := h.fills.of_same rfl rfl
    (update_of_eq Pc.placing ((Pc.placing_eq_none hp).trans (Pc.placing_eq_none hfree).symm))
    fun _ _ _ => rfl
  carries := h.carries.of_same rfl
    (update_of_eq Pc.carried ((Pc.carried_eq_none hp).trans (Pc.carried_eq_none hfree).symm))
    fun _ _ _ => rfl

variable {k : Nat} {stage : Nat → Stage τ} {index : UInt32} {item : α}

theorem moveEnd (h : Noted s calls) (hinv : Inv k stage s) {i : Nat} {oldEnd : UInt32}
    (hpc : s.pc t = .moveEnd item i oldEnd index) (q : LockFreeCircularQueueMPMC α) :
    Noted { s.setPc t (.write item index) with queue := q, past := s.past.push t item }
      { calls with
        placed := calls.placed ++ (calls.item t).toList
        place := Function.update calls.place t (some calls.placed.length) } := by
  have hmine : calls.item t = some item := h.item t item (by rw [hpc]; rfl)
  have hnoItem : (s.pc t).placing = none := by rw [hpc]; rfl
  have hnoCarried : (s.pc t).carried = none := by rw [hpc]; rfl
  have hplace : ∀ {t'}, t' ≠ t → (s.past.push t item).place t' = s.past.place t' :=
    fun hne => Function.update_of_ne hne _ _
  have hnew : (s.past.push t item).place t = s.past.placed.length := Function.update_self ..
  refine {
    placed := ?placed, taken := h.taken, item := ?item,
    place := h.place_update_place (congrArg List.length h.placed), pushed := ?pushed,
    fills := { placing := ?placing, returned_once := h.fills.returned_once, owned := ?owned }
    carries := h.carries.of_same rfl
      (update_of_eq (p := .write item index) Pc.carried hnoCarried.symm)
      fun t' item' hitem' => hplace (ne_of_some hnoCarried hitem') }
  case placed =>
    rw [hmine, h.placed]
    rfl
  case item =>
    exact fun t' item' hpushing => h.item t' item' ((update_of_eq (p := .write item index)
      Pc.pushing (by rw [hpc]; rfl) t').symm.trans hpushing)
  case pushed =>
    refine h.pushed.trans (List.map_congr_left fun j hj => ?_)
    have hlt := hinv.ledger.returned_lt j hj
    exact congrArg (some j, ·) (List.getElem?_append_left hlt).symm
  case placing =>
    intro t' item' hitem'
    change (s.past.push t item).placed[(s.past.push t item).place t']? = some item'
    rcases eq_or_ne t' t with rfl | hne
    · have hitem : (Function.update s.pc t' (Pc.write item index) t').placing = some item :=
        update_self_of Pc.placing
      rw [hnew]
      exact List.getElem?_concat_length.trans (hitem.symm.trans hitem')
    · change (Function.update s.pc t _ t').placing = some item' at hitem'
      rw [Function.update_of_ne hne] at hitem'
      rw [hplace hne]
      exact Inv.getElem?_push (h.fills.placing t' item' hitem')
  case owned =>
    intro j hj
    change j < (s.past.push t item).placed.length at hj
    rw [Inv.length_push] at hj
    rcases Nat.lt_succ_iff_lt_or_eq.mp hj with hj | rfl
    · refine (h.fills.owned j hj).imp_right ?_
      rintro ⟨t', item', rfl, hitem'⟩
      have hne : t' ≠ t := ne_of_some hnoItem hitem'
      refine ⟨t', item', hplace hne, ?_⟩
      change (Function.update s.pc t _ t').placing = _
      rwa [Function.update_of_ne hne]
    · exact .inr ⟨t, item, hnew, update_self_of Pc.placing⟩

theorem storeFull (h : Noted s calls) (hinv : Inv k stage s)
    (hpc : s.pc t = .storeFull item index) (q : LockFreeCircularQueueMPMC α) :
    Noted { s.setPc t (.pushed true) with queue := q, past := s.past.ret t }
      { calls with pushed := calls.pushed ++ [(calls.place t, calls.item t)] } := by
  have hmine : calls.item t = some item := h.item t item (by rw [hpc]; rfl)
  have hplace : calls.place t = some (s.past.place t) := h.place t (by rw [hpc]; rfl)
  have hplaced := h.fills.placing t item (by rw [hpc]; rfl)
  have hfill := hinv.at_pc t
  rw [hpc] at hfill
  refine {
    placed := h.placed, taken := h.taken, item := h.item_update rfl,
    place := fun t' hhas => (h.place_update rfl t' hhas).2, pushed := ?pushed,
    fills := { placing := ?placing, returned_once := ?returned_once, owned := ?owned }
    carries := h.carries.of_same rfl
      (update_of_eq (p := .pushed true) Pc.carried (by rw [hpc]; rfl)) fun _ _ _ => rfl }
  case pushed =>
    change calls.pushed ++ [(calls.place t, calls.item t)] =
      (s.past.returned ++ [s.past.place t]).map _
    rw [h.pushed, hplace, hmine, ← hplaced, List.map_append]
    rfl
  case placing =>
    exact fun t' item' hitem' => h.fills.placing t' item'
      (of_update (f := Pc.placing) rfl hitem').2
  case returned_once =>
    refine List.nodup_append.mpr
      ⟨h.fills.returned_once, List.nodup_singleton _, fun j hj j' hj' => ?_⟩
    rw [List.mem_singleton.mp hj']
    exact fun heq => hfill.not_returned (heq ▸ hj)
  case owned =>
    intro j hj
    rcases h.fills.owned j hj with hmem | ⟨t', item', rfl, hitem'⟩
    · exact .inl (List.mem_append_left _ hmem)
    · rcases eq_or_ne t' t with rfl | hne
      · exact .inl (List.mem_append_right _ (List.mem_singleton.mpr rfl))
      · refine .inr ⟨t', item', rfl, ?_⟩
        change (Function.update s.pc t _ t').placing = _
        rwa [Function.update_of_ne hne]

theorem moveBegin (h : Noted s calls) {i : Nat} {oldBegin : UInt32}
    (hpc : s.pc t = .moveBegin i oldBegin index) (q : LockFreeCircularQueueMPMC α) :
    Noted { s.setPc t (.read index) with queue := q, past := s.past.take t }
      { calls with
        taken := calls.taken + 1
        place := Function.update calls.place t (some calls.taken) } := by
  have hnoItem : (s.pc t).placing = none := by rw [hpc]; rfl
  have hnoCarried : (s.pc t).carried = none := by rw [hpc]; rfl
  have hplace : ∀ {t'}, t' ≠ t → (s.past.take t).place t' = s.past.place t' :=
    fun hne => Function.update_of_ne hne _ _
  exact {
    placed := h.placed, taken := congrArg (· + 1) h.taken, item := h.item_update rfl,
    place := h.place_update_place h.taken, pushed := h.pushed,
    fills := h.fills.of_same rfl rfl
      (update_of_eq (p := .read index) Pc.placing hnoItem.symm)
      fun t' item' hitem' => hplace (ne_of_some hnoItem hitem'),
    carries := h.carries.of_same rfl
      (update_of_eq (p := .read index) Pc.carried hnoCarried.symm)
      fun t' item' hitem' => hplace (ne_of_some hnoCarried hitem') }

theorem read (h : Noted s calls) (hinv : Inv k stage s) (hpc : s.pc t = .read index)
    (q : LockFreeCircularQueueMPMC α) :
    Noted { s.setPc t (.reset index item) with queue := q, past := s.past.read t item } calls := by
  have hnoCarried : (s.pc t).carried = none := by rw [hpc]; rfl
  have hhas := update_of_eq (s := s) (t := t) (p := .reset index item) Pc.hasPlace
    (by rw [hpc]; rfl)
  have hdrain := hinv.at_pc t
  rw [hpc] at hdrain
  have hfresh : ∀ item', (s.past.place t, item') ∉ s.past.delivered :=
    fun item' hmem => hdrain.not_popped (List.mem_map_of_mem hmem)
  -- The other threads carry what they have carried.
  have hcarried : ∀ {t' item'}, t' ≠ t →
      ((Function.update s.pc t (.reset index item) t').carried = some item' ↔
        (s.pc t').carried = some item') := fun hne => by rw [Function.update_of_ne hne]
  refine {
    placed := h.placed, taken := h.taken, item := h.item_update rfl,
    place := fun t' hplace => h.place t' ((hhas t').symm.trans hplace), pushed := h.pushed,
    fills := h.fills.of_same rfl rfl
      (update_of_eq (p := .reset index item) Pc.placing (by rw [hpc]; rfl)) fun _ _ _ => rfl
    carries := {
      was_read := ?was_read, popped_once := h.carries.popped_once, carried := ?carried,
      apart := ?apart, delivered := ?delivered } }
  case was_read =>
    intro pop hpop
    obtain ⟨d, hd, heq⟩ := h.carries.was_read pop hpop
    exact ⟨d, List.mem_append_left _ hd, heq⟩
  case carried =>
    intro t' item' hitem'
    rcases eq_or_ne t' t with rfl | hne
    · have hmine : (Function.update s.pc t' (Pc.reset index item) t').carried = some item :=
        update_self_of Pc.carried
      obtain rfl : item = item' := Option.some.inj (hmine.symm.trans hitem')
      refine ⟨List.mem_append_right _ (List.mem_singleton.mpr rfl), fun hmem => ?_⟩
      obtain ⟨pop, hpop, hplace⟩ := List.mem_map.mp hmem
      obtain ⟨d, hd, rfl⟩ := h.carries.was_read pop hpop
      exact hfresh d.2 (Option.some.inj hplace ▸ hd)
    · obtain ⟨hmem, hnot⟩ := h.carries.carried t' item' ((hcarried hne).mp hitem')
      exact ⟨List.mem_append_left _ hmem, hnot⟩
  case apart =>
    have hmine : ∀ t' item', (s.pc t').carried = some item' →
        s.past.place t' ≠ s.past.place t := by
      intro t' item' hitem' heq
      exact hfresh item' (heq ▸ (h.carries.carried t' item' hitem').1)
    intro t' t'' item' item'' hitem' hitem'' heq
    rcases eq_or_ne t' t with rfl | hne
    · rcases eq_or_ne t'' t' with rfl | hne'
      · rfl
      · exact absurd heq.symm (hmine t'' item'' ((hcarried hne').mp hitem''))
    · rcases eq_or_ne t'' t with rfl | hne'
      · exact absurd heq (hmine t' item' ((hcarried hne).mp hitem'))
      · exact h.carries.apart t' t'' item' item'' ((hcarried hne).mp hitem')
          ((hcarried hne').mp hitem'') heq
  case delivered =>
    intro d hd
    rcases List.mem_append.mp hd with hd | hd
    · refine (h.carries.delivered d hd).imp_right ?_
      rintro ⟨t', hplace, hitem'⟩
      exact ⟨t', hplace, (hcarried (ne_of_some hnoCarried hitem')).mpr hitem'⟩
    · rw [List.mem_singleton.mp hd]
      exact .inr ⟨t, rfl, update_self_of Pc.carried⟩

theorem storeEmpty (h : Noted s calls) (hpc : s.pc t = .storeEmpty index item)
    (q : LockFreeCircularQueueMPMC α) :
    Noted { s.setPc t (.popped (some item)) with queue := q }
      { calls with popped := calls.popped ++ [(calls.place t, item)] } := by
  have hmine : (s.pc t).carried = some item := by rw [hpc]; rfl
  have hplace : calls.place t = some (s.past.place t) := h.place t (by rw [hpc]; rfl)
  obtain ⟨hmem, hnot⟩ := h.carries.carried t item hmine
  have hother : ∀ {t' item'},
      (Function.update s.pc t (.popped (some item)) t').carried = some item' →
        t' ≠ t ∧ (s.pc t').carried = some item' :=
    fun hitem' => of_update (f := Pc.carried) rfl hitem'
  refine {
    placed := h.placed, taken := h.taken, item := h.item_update rfl,
    place := fun t' hhas => (h.place_update rfl t' hhas).2, pushed := h.pushed,
    fills := h.fills.of_same rfl rfl
      (update_of_eq (p := .popped (some item)) Pc.placing (by rw [hpc]; rfl)) fun _ _ _ => rfl
    carries := {
      was_read := ?was_read, popped_once := ?popped_once, carried := ?carried,
      apart := fun t' t'' item' item'' hitem' hitem'' => h.carries.apart t' t'' item' item''
        (hother hitem').2 (hother hitem'').2
      delivered := ?delivered } }
  case was_read =>
    intro pop hpop
    rcases List.mem_append.mp hpop with hpop | hpop
    · exact h.carries.was_read pop hpop
    · exact ⟨_, hmem, by rw [List.mem_singleton.mp hpop, hplace]⟩
  case popped_once =>
    change ((calls.popped ++ [(calls.place t, item)]).map Prod.fst).Nodup
    rw [List.map_append, hplace]
    refine List.nodup_append.mpr
      ⟨h.carries.popped_once, List.nodup_singleton _, fun j hj j' hj' => ?_⟩
    rw [List.mem_singleton.mp hj']
    rintro rfl
    exact hnot hj
  case carried =>
    intro t' item' hitem'
    obtain ⟨hne, hold⟩ := hother hitem'
    obtain ⟨hmem', hnot'⟩ := h.carries.carried t' item' hold
    refine ⟨hmem', ?_⟩
    change _ ∉ (calls.popped ++ [(calls.place t, item)]).map Prod.fst
    rw [List.map_append, hplace, List.mem_append, not_or]
    refine ⟨hnot', fun hsame => hne (h.carries.apart t' t item' item hold hmine ?_)⟩
    exact Option.some.inj (List.mem_singleton.mp hsame)
  case delivered =>
    intro d hd
    rcases h.carries.delivered d hd with hpop | ⟨t', hd', hitem'⟩
    · exact .inl (List.mem_append_left _ hpop)
    · rcases eq_or_ne t' t with rfl | hne
      · obtain rfl := Option.some.inj (hmine.symm.trans hitem')
        refine .inl (List.mem_append_right _ (List.mem_singleton.mpr ?_))
        rw [hplace, hd']
      · refine .inr ⟨t', hd', ?_⟩
        change (Function.update s.pc t _ t').carried = _
        rwa [Function.update_of_ne hne]

theorem tryPush_quiet {p : Pc α} (hpc : p.pushing = some item) (hfree : p.hasPlace = false)
    (i : Nat) : Quiet p (tryPush item i) := by
  rw [tryPush]
  split_ifs
  · exact ⟨.inr rfl, hfree.symm, (Pc.placing_eq_none hfree).symm,
      (Pc.carried_eq_none hfree).symm⟩
  · exact ⟨.inl hpc.symm, hfree.symm, (Pc.placing_eq_none hfree).symm,
      (Pc.carried_eq_none hfree).symm⟩

theorem tryPop_quiet {p : Pc α} (hfree : p.hasPlace = false) (i : Nat) :
    Quiet p (tryPop i : Pc α) := by
  rw [tryPop]
  split_ifs
  · exact ⟨.inr rfl, hfree.symm, (Pc.placing_eq_none hfree).symm,
      (Pc.carried_eq_none hfree).symm⟩
  · exact ⟨.inr rfl, hfree.symm, (Pc.placing_eq_none hfree).symm,
      (Pc.carried_eq_none hfree).symm⟩

omit [DecidableEq τ] in
theorem ended_tryPush (calls : Calls τ α) (t : τ) (item : α) (i : Nat) :
    calls.ended t (tryPush item i) = calls := by
  rw [tryPush]
  split_ifs <;> rfl

omit [DecidableEq τ] in
theorem ended_tryPop (calls : Calls τ α) (t : τ) (i : Nat) :
    calls.ended t (tryPop i) = calls := by
  rw [tryPop]
  split_ifs <;> rfl

theorem note_step {spurious : Bool} (hend : s'.queue.endPos = s.queue.endPos)
    (hbegin : s'.queue.beginPos = s.queue.beginPos) (hp : s'.pc t = p) :
    note s (.step t spurious) s' calls = calls.ended t p := by
  rw [note, Calls.moved, if_neg (not_not.mpr hend), if_neg (not_not.mpr hbegin), hp]

theorem of_ended {spurious : Bool} (h : Noted s' (calls.ended t p))
    (hend : s'.queue.endPos = s.queue.endPos) (hbegin : s'.queue.beginPos = s.queue.beginPos)
    (hp : s'.pc t = p) : Noted s' (note s (.step t spurious) s' calls) := by
  rwa [note_step hend hbegin hp]

theorem quiet (h : Noted s calls) {q : LockFreeCircularQueueMPMC α} {spurious : Bool}
    (hquiet : Quiet (s.pc t) p) (hended : calls.ended t p = calls)
    (hend : q.endPos = s.queue.endPos) (hbegin : q.beginPos = s.queue.beginPos) :
    Noted { s.setPc t p with queue := q }
      (note s (.step t spurious) { s.setPc t p with queue := q } calls) := by
  refine of_ended (p := p) ?_ hend hbegin (Function.update_self ..)
  rw [hended]
  exact h.setPc hquiet q

theorem step [Inhabited α] (h : Noted s calls) (hinv : Inv k stage s) {spurious : Bool}
    (hs : LockFreeCircularQueueMPMC.step s t spurious = .ok s') :
    Noted s' (note s (.step t spurious) s' calls) := by
  rw [LockFreeCircularQueueMPMC.step] at hs
  cases hpc : s.pc t with
  | idle | pushed | popped =>
      rw [hpc] at hs
      cases hs
  | loadEnd item i =>
      rw [hpc] at hs
      obtain rfl := Except.ok.inj hs
      exact h.quiet (by rw [hpc]; exact ⟨.inl rfl, rfl, rfl, rfl⟩) rfl rfl rfl
  | loadEmpty item i oldEnd index =>
      rw [hpc] at hs
      dsimp only at hs
      split_ifs at hs
      all_goals obtain rfl := Except.ok.inj hs
      · exact h.quiet (by rw [hpc]; exact tryPush_quiet rfl rfl i) (ended_tryPush ..) rfl rfl
      · exact h.quiet (by rw [hpc]; exact ⟨.inl rfl, rfl, rfl, rfl⟩) rfl rfl rfl
  | lockEmpty item i oldEnd index =>
      rw [hpc] at hs
      dsimp only at hs
      split_ifs at hs
      all_goals obtain rfl := Except.ok.inj hs
      · exact h.quiet (by rw [hpc]; exact tryPush_quiet rfl rfl i) (ended_tryPush ..) rfl rfl
      · exact h.quiet (by rw [hpc]; exact ⟨.inl rfl, rfl, rfl, rfl⟩) rfl rfl rfl
  | moveEnd item i oldEnd index =>
      rw [hpc] at hs
      dsimp only at hs
      split_ifs at hs with hfails
      all_goals obtain rfl := Except.ok.inj hs
      · exact h.quiet (by rw [hpc]; exact ⟨.inl rfl, rfl, rfl, rfl⟩) rfl rfl rfl
      · have hend : s.queue.endPos = oldEnd := not_not.mp (not_or.mp hfails).2
        have hmoved : oldEnd + 1 ≠ s.queue.endPos := by
          rw [hend]
          simp
        have hnew := h.moveEnd hinv hpc { s.queue with endPos := oldEnd + 1 }
        change Noted _ ((Calls.moved _ _ _ _).ended t (Function.update s.pc t _ t))
        rw [Function.update_self, Calls.moved, if_pos hmoved]
        exact hnew
  | unlockEmpty item i oldEnd index =>
      rw [hpc] at hs
      obtain rfl := Except.ok.inj hs
      exact h.quiet (by rw [hpc]; exact tryPush_quiet rfl rfl i) (ended_tryPush ..) rfl rfl
  | write item index =>
      rw [hpc] at hs
      obtain rfl := Except.ok.inj hs
      exact h.quiet (by rw [hpc]; exact ⟨.inl rfl, rfl, rfl, rfl⟩) rfl rfl rfl
  | storeFull item index =>
      rw [hpc] at hs
      obtain rfl := Except.ok.inj hs
      exact of_ended (p := .pushed true) (h.storeFull hinv hpc _) rfl rfl (Function.update_self ..)
  | loadBegin i =>
      rw [hpc] at hs
      obtain rfl := Except.ok.inj hs
      exact h.quiet (by rw [hpc]; exact ⟨.inl rfl, rfl, rfl, rfl⟩) rfl rfl rfl
  | loadFull i oldBegin index =>
      rw [hpc] at hs
      dsimp only at hs
      split_ifs at hs
      all_goals obtain rfl := Except.ok.inj hs
      · exact h.quiet (by rw [hpc]; exact tryPop_quiet rfl i) (ended_tryPop ..) rfl rfl
      · exact h.quiet (by rw [hpc]; exact ⟨.inl rfl, rfl, rfl, rfl⟩) rfl rfl rfl
  | lockFull i oldBegin index =>
      rw [hpc] at hs
      dsimp only at hs
      split_ifs at hs
      all_goals obtain rfl := Except.ok.inj hs
      · exact h.quiet (by rw [hpc]; exact tryPop_quiet rfl i) (ended_tryPop ..) rfl rfl
      · exact h.quiet (by rw [hpc]; exact ⟨.inl rfl, rfl, rfl, rfl⟩) rfl rfl rfl
  | moveBegin i oldBegin index =>
      rw [hpc] at hs
      dsimp only at hs
      split_ifs at hs with hfails
      all_goals obtain rfl := Except.ok.inj hs
      · exact h.quiet (by rw [hpc]; exact ⟨.inl rfl, rfl, rfl, rfl⟩) rfl rfl rfl
      · have hbegin : s.queue.beginPos = oldBegin := not_not.mp (not_or.mp hfails).2
        have hmoved : oldBegin + 1 ≠ s.queue.beginPos := by
          rw [hbegin]
          simp
        have hnew := h.moveBegin hpc { s.queue with beginPos := oldBegin + 1 }
        change Noted _ ((Calls.moved _ _ _ _).ended t (Function.update s.pc t _ t))
        rw [Function.update_self, Calls.moved, if_neg (not_not.mpr rfl), if_pos hmoved]
        exact hnew
  | unlockFull i oldBegin index =>
      rw [hpc] at hs
      obtain rfl := Except.ok.inj hs
      exact h.quiet (by rw [hpc]; exact tryPop_quiet rfl i) (ended_tryPop ..) rfl rfl
  | read index =>
      rw [hpc] at hs
      obtain rfl := Except.ok.inj hs
      exact of_ended (p := .reset index (s.queue.data index.toNat)) (h.read hinv hpc s.queue)
        rfl rfl (Function.update_self ..)
  | reset index item =>
      rw [hpc] at hs
      obtain rfl := Except.ok.inj hs
      exact h.quiet (by rw [hpc]; exact ⟨.inl rfl, rfl, rfl, rfl⟩) rfl rfl rfl
  | storeEmpty index item =>
      rw [hpc] at hs
      obtain rfl := Except.ok.inj hs
      exact of_ended (p := .popped (some item)) (h.storeEmpty hpc _) rfl rfl
        (Function.update_self ..)

theorem callPush [Inhabited α] (h : Noted s calls)
    (hs : LockFreeCircularQueueMPMC.call s t (tryPush item 0) = .ok s') :
    Noted s' (note s (.push t item) s' calls) := by
  rw [LockFreeCircularQueueMPMC.call] at hs
  cases hpc : s.pc t with
  | idle | pushed | popped =>
      rw [hpc] at hs
      obtain rfl := Except.ok.inj hs
      refine h.call (by rw [hpc]; rfl) rfl fun t' item' hpushing => ?_
      change (Function.update s.pc t (.loadEnd item 1) t').pushing = some item' at hpushing
      rcases eq_or_ne t' t with rfl | hne
      · rw [Function.update_self] at hpushing ⊢
        exact hpushing
      · rw [Function.update_of_ne hne] at hpushing ⊢
        exact h.item t' item' hpushing
  | _ =>
      rw [hpc] at hs
      cases hs

theorem callPop [Inhabited α] (h : Noted s calls)
    (hs : LockFreeCircularQueueMPMC.call s t (tryPop 1) = .ok s') :
    Noted s' (note s (.pop t) s' calls) := by
  rw [LockFreeCircularQueueMPMC.call] at hs
  cases hpc : s.pc t with
  | idle | pushed | popped =>
      rw [hpc] at hs
      obtain rfl := Except.ok.inj hs
      exact h.call (by rw [hpc]; rfl) rfl (h.item_update rfl)
  | _ =>
      rw [hpc] at hs
      cases hs

theorem next [Inhabited α] (h : Noted s calls) (hinv : Inv k stage s) {powArg : UInt64}
    {a : Act τ α} (hs : (threads τ powArg).step s a = .ok s') : Noted s' (note s a s' calls) := by
  cases a with
  | push t item => exact h.callPush hs
  | pop t => exact h.callPop hs
  | step t spurious => exact h.step hinv hs

omit [DecidableEq τ] in
theorem create [Inhabited α] (powArg : UInt64) :
    Noted (LockFreeCircularQueueMPMC.create τ powArg : Threads τ α) {} where
  placed := rfl
  taken := rfl
  item _ _ h := by cases h
  place _ h := by cases h
  pushed := rfl
  fills := {
    placing := fun _ _ h => by cases h
    returned_once := List.nodup_nil
    owned := fun _ hj => absurd hj (Nat.not_lt_zero _) }
  carries := {
    was_read := fun _ h => absurd h List.not_mem_nil
    popped_once := List.nodup_nil
    carried := fun _ _ h => by cases h
    apart := fun _ _ _ _ h => by cases h
    delivered := fun _ h => absurd h List.not_mem_nil }

omit [DecidableEq τ] in
theorem of_popped (h : Noted s calls) (hinv : Inv k stage s) {j : Nat} (hj : j ∈ s.past.popped)
    (hget : s.past.placed[j]? = some item) : (some j, item) ∈ calls.popped ∨
      ∃ t, calls.place t = some j ∧ (s.pc t).carried = some item := by
  obtain ⟨d, hd, rfl⟩ := List.mem_map.mp hj
  obtain rfl : d.2 = item :=
    Option.some.inj ((hinv.ledger.delivered_eq d hd).2.symm.trans hget)
  refine (h.carries.delivered d hd).imp_right ?_
  rintro ⟨t, hplace, hitem⟩
  exact ⟨t, (h.place t (Pc.hasPlace_of_carried hitem)).trans (congrArg some hplace), hitem⟩

omit [DecidableEq τ] in
theorem nothingLost (h : Noted s calls) (hinv : Inv k stage s) : NothingLost s calls where
  beginPos_eq := by
    rw [h.taken]
    exact hinv.beginPos_eq
  endPos_eq := by
    rw [h.placed]
    exact hinv.endPos_eq
  taken_le := by
    rw [h.taken, h.placed]
    exact hinv.marked.le
  pushed_once := by
    rw [h.pushed, List.map_map]
    exact h.fills.returned_once.map fun j j' heq => Option.some.inj heq
  pushed_placed := by
    rw [h.pushed, h.placed]
    intro push hpush
    obtain ⟨j, hj, rfl⟩ := List.mem_map.mp hpush
    have hget := List.getElem?_eq_getElem (hinv.ledger.returned_lt j hj)
    exact ⟨j, _, by rw [hget], hget⟩
  placed_pushed := by
    rw [h.placed, h.pushed]
    intro j item hget
    rcases h.fills.owned j (List.getElem?_eq_some_iff.mp hget).1 with hj | ⟨t, item', rfl, hitem'⟩
    · exact .inl (List.mem_map.mpr ⟨j, hj, by rw [hget]⟩)
    · refine .inr ⟨t, h.place t (Pc.hasPlace_of_placing hitem'), ?_⟩
      rw [hitem', ← h.fills.placing t item' hitem', hget]
  popped_once := h.carries.popped_once
  in_order := by
    rw [h.taken, h.placed]
    intro pop hpop
    obtain ⟨d, hd, rfl⟩ := h.carries.was_read pop hpop
    obtain ⟨htaken, hget⟩ := hinv.ledger.delivered_eq d hd
    exact ⟨d.1, htaken, rfl, hget⟩
  taken_once := by
    rw [h.taken, h.placed]
    intro j item hj hget
    rcases hinv.inFlight j hj with hpopped | ⟨t, index, hpc, rfl⟩
    · refine (h.of_popped hinv hpopped hget).imp_right ?_
      rintro ⟨t, hplace, hitem⟩
      exact ⟨t, hplace, .inr hitem⟩
    · exact .inr ⟨t, h.place t (by rw [hpc]; rfl), .inl ⟨index, hpc⟩⟩
  still_there := by
    rw [h.pushed]
    intro j item hpush
    obtain ⟨j', hj, heq⟩ := List.mem_map.mp hpush
    obtain ⟨hsame, hget⟩ := Prod.mk.inj heq
    obtain rfl := Option.some.inj hsame
    by_cases hpopped : j' ∈ s.past.popped
    · exact (h.of_popped hinv hpopped hget).imp_right .inl
    · obtain ⟨hcell, hstatus⟩ := hinv.still_there hj hpopped
      rw [hinv.cellOf_eq]
      exact .inr (.inr ⟨Option.some.inj (hcell.symm.trans hget), hstatus⟩)
  not_racing t t' index ht ht' := by
    obtain ⟨m, hheld⟩ := Inv.held_of_accesses ht
    obtain ⟨m', hheld'⟩ := Inv.held_of_accesses ht'
    exact hinv.agree.eq_of_held hheld hheld'

end Noted

end Noting

/-- Whatever the threads do, in any order of their steps, no item is lost or popped twice. -/
theorem nothingLost_of_reaches [DecidableEq τ] [Inhabited α] {powArg : UInt64}
    {s : Threads τ α × Calls τ α}
    (h : ((threads τ powArg).chronicle {} note).Reaches (fun _ _ => True) s) :
    NothingLost s.1 s.2 := by
  have hseen : (∃ stage, Inv (min powArg.toNat 24) stage s.1) ∧ Noted s.1 s.2 := by
    refine h.invariant (P := fun s => (∃ stage, Inv _ stage s.1) ∧ Noted s.1 s.2) ?_ ?_
    · rintro ⟨s, calls⟩ ⟨hinit, hcalls⟩
      obtain rfl : s = create τ powArg := hinit
      obtain rfl : calls = {} := hcalls
      exact ⟨⟨_, Inv.create powArg⟩, Noted.create powArg⟩
    · rintro ⟨s, calls⟩ a ⟨s', calls'⟩ ⟨⟨stage, hinv⟩, hnoted⟩ - - hstep
      obtain ⟨hs, hcalls⟩ := System.chronicle_step.mp hstep
      obtain rfl : calls' = note s a s' calls := hcalls
      exact ⟨hinv.next hs, hnoted.next hinv hs⟩
  obtain ⟨⟨stage, hinv⟩, hnoted⟩ := hseen
  exact hnoted.nothingLost hinv

/-- One thread has pushed; a second one has pushed and popped, as the first is about to. -/
theorem nothingLost_of_reaches_two :
    let s := ((threads Bool 1).chronicle {} note).after (create Bool 1, {})
      ([.push true 7] ++ List.replicate 6 (.step true false) ++ [.push false 8] ++
        List.replicate 6 (.step false false) ++ [.pop false] ++
        List.replicate 7 (.step false false) ++ [.pop true] ++
        List.replicate 4 (.step true false))
    s.2.popped = [(some 0, 7)] ∧ s.2.pushed = [(some 0, some 7), (some 1, some 8)] ∧
      s.2.taken = 2 ∧ NothingLost s.1 s.2 := by
  refine ⟨by decide +kernel, by decide +kernel, by decide +kernel, ?_⟩
  have hinit : ((threads Bool 1).chronicle {} note).Reaches (fun _ _ => True)
      ((create Bool 1, {}) : Threads Bool Nat × Calls Bool Nat) := .init ⟨rfl, rfl⟩
  exact nothingLost_of_reaches
    (hinit.after (System.fits_of_forall (fun _ _ => ⟨trivial, trivial⟩) _ _))

end LockFreeCircularQueueMPMC

end CasualGame.Componet
