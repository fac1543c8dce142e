import CasualGame.Componet.Event
import CasualGame.Lib.Index

/-!
The timer: an event for each interval, of which handlers are taken out when the timer runs
the next time.
-/

namespace CasualGame.Componet

open Lib.Run
open FastTravelUnorderedMap

/-- `void (const TimePoint&)`. -/
def timeParams : Params where
  count := 1
  type _ := Int
  byValue _ := false
  movedFrom _ time := time

structure EventHandlers where
  event : Event timeParams := {}
  regTime : Int := 0
  counter : UInt64 := 0

/-- `Timer::RegID`: the interval, and the id in its event. -/
abbrev TimerRegID : Type := Int × UInt64

/-- `m_unregedIds` is a set, which is gone through in the order of the ids. -/
structure Timer where
  eventHandlers : Std.TreeMap Int EventHandlers := {}
  unregedIds : List TimerRegID := []
  /-- The ids that `regEventHandler` has returned; the source has no such record. -/
  issued : List TimerRegID := []

namespace Timer

section Code

variable (t : Timer)

/-- The order of a `pair`. -/
def Before (a b : TimerRegID) : Prop := a.1 < b.1 ∨ a.1 = b.1 ∧ a.2 < b.2

instance (a b : TimerRegID) : Decidable (Before a b) :=
  inferInstanceAs (Decidable (_ ∨ _))

/-- `insert` of a set. -/
def insertId (id : TimerRegID) : List TimerRegID → List TimerRegID
  | [] => [id]
  | id' :: ids =>
      if Before id id' then id :: id' :: ids
      else if id = id' then id' :: ids
      else id' :: insertId id ids

def regEventHandler (interval : Int) (handler : timeParams.Handler) (now : Int) :
    TimerRegID × Timer :=
  let info := t.eventHandlers[interval]?.getD {}
  let (eventId, event) := info.event.reg handler
  ((interval, eventId),
    { t with
      eventHandlers := t.eventHandlers.insert interval ⟨event, now, 0⟩
      issued := t.issued ++ [(interval, eventId)] })

def unregEventHandler (id : TimerRegID) : Timer :=
  { t with unregedIds := insertId id t.unregedIds }

/-- The loop of `cleanEventHandler`, and whether it has gone through all the ids. -/
def cleanFrom : List TimerRegID → Std.TreeMap Int EventHandlers →
    Except Fault (Bool × Std.TreeMap Int EventHandlers)
  | [], eventHandlers => .ok (true, eventHandlers)
  | id :: ids, eventHandlers =>
      match eventHandlers[id.1]? with
      | none => .ok (false, eventHandlers)
      | some info => do
          let event ← info.event.unreg id.2
          cleanFrom ids (eventHandlers.insert id.1 { info with event := event })

def cleanEventHandler : Except Fault Timer := do
  let (finished, eventHandlers) ← cleanFrom t.unregedIds t.eventHandlers
  .ok { t with
    eventHandlers := eventHandlers
    unregedIds := if finished then [] else t.unregedIds }

/-- When the event of the interval is to be emitted, a number of 64 bits. -/
def emitTime (interval : Int) (info : EventHandlers) : Int :=
  (info.regTime + interval * info.counter.toNat).bmod 18446744073709551616

/-- It is time for the event of the interval. -/
def Due (now interval : Int) (info : EventHandlers) : Prop := emitTime interval info ≤ now

instance (now interval : Int) (info : EventHandlers) : Decidable (Due now interval info) :=
  inferInstanceAs (Decidable (_ ≤ now))

/-- The counter of an event that is due goes on. -/
def counted (now interval : Int) (info : EventHandlers) : EventHandlers :=
  if Due now interval info then { info with counter := info.counter + 1 } else info

/-- `operator()`, with the handlers it calls. -/
def exec (now sysNow : Int) :
    Except Fault (List ((UInt64 × timeParams.Handler) × timeParams.Args) × Timer) := do
  let t ← t.cleanEventHandler
  let emitted := t.eventHandlers.toList.filter fun pair => Due now pair.1 pair.2
  .ok (emitted.flatMap fun pair => pair.2.event.raise fun _ => sysNow,
    { t with eventHandlers := t.eventHandlers.map (counted now) })

end Code

section Run

inductive Act
  | regEventHandler (interval : Int) (handler : timeParams.Handler) (now : Int)
  | unregEventHandler (id : TimerRegID)
  | exec (now sysNow : Int)

/-- Ids come from the timer itself, and may be given back any number of times. -/
def system : System Timer Act Fault where
  Init t := t = {}
  Allowed t
    | .unregEventHandler id => id ∈ t.issued
    | _ => True
  step t
    | .regEventHandler interval handler now => .ok (t.regEventHandler interval handler now).2
    | .unregEventHandler id => .ok (t.unregEventHandler id)
    | .exec now sysNow => (t.exec now sysNow).map Prod.snd

end Run

section Statement

variable (t : Timer)

/-- The event of an interval, which is a new one where there is none. -/
def eventOf (interval : Int) : Event timeParams :=
  match t.eventHandlers[interval]? with
  | none => {}
  | some info => info.event

/-- The ids of one interval, in their order. -/
def idsOf (interval : Int) (ids : List TimerRegID) : List UInt64 :=
  (ids.filter fun id => id.1 = interval).map Prod.snd

/-- The ids of an interval that are to be taken out. -/
def pending (interval : Int) : List UInt64 := idsOf interval t.unregedIds

/-- The timer is a map from ids to handlers: a registration adds a handler under an id of its
own, and a run takes out the handlers whose ids have been given back and no others. -/
def ActsAsMap : Act → Prop
  | .regEventHandler interval handler now =>
      let (id, t') := t.regEventHandler interval handler now
      id.1 = interval ∧ id.2 ∉ (t.eventOf interval).ids ∧
        (t'.eventOf interval).callbackList.Perm
          ((id.2, handler) :: (t.eventOf interval).callbackList) ∧
        ∀ other ≠ interval, t'.eventOf other = t.eventOf other
  | .unregEventHandler id => ∀ interval, (t.unregEventHandler id).eventOf interval =
      t.eventOf interval
  | .exec now sysNow => ∃ calls t', t.exec now sysNow = .ok (calls, t') ∧
      ∀ interval, (t'.eventOf interval).callbackList.Perm
        ((t.eventOf interval).callbackList.filter fun cb => cb.1 ∉ t.pending interval)

/-- One handler remains when the ids have been taken out, and the last of the ids is one that
had been taken out before. -/
def LastCancels (e : Event timeParams) (ids : List UInt64) : Prop :=
  (e.callbackList.filter fun cb => cb.1 ∉ ids).length = 1 ∧
    ∃ last, ids.getLast? = some last ∧ last ∉ e.ids

/-- No registration comes back to an id that is still in use, and no run cancels the last
handler of an interval for somebody else. -/
def Harmless : Act → Prop
  | .regEventHandler interval _ _ =>
      (t.eventOf interval).lastRegID + 1 ∉ (t.eventOf interval).ids
  | .unregEventHandler _ => True
  | .exec _ _ => ∀ interval, ¬ LastCancels (t.eventOf interval) (t.pending interval)

end Statement

section Ids

/-- The registrations that end one after the other. -/
def unregAll (ids : List UInt64) (e : Event timeParams) : Except Fault (Event timeParams) :=
  ids.foldlM Event.unreg e

variable {e e' : Event timeParams} {ids : List UInt64} {id : UInt64}

theorem unregAll_cons (h : e.unreg id = .ok e') (ids : List UInt64) :
    unregAll (id :: ids) e = unregAll ids e' := by
  rw [unregAll, List.foldlM_cons, h]
  rfl

theorem unregAll_ok (h : Coherent e.table) (ids : List UInt64) :
    ∃ e', unregAll ids e = .ok e' ∧ Coherent e'.table ∧ e'.lastRegID = e.lastRegID := by
  induction ids generalizing e with
  | nil => exact ⟨e, rfl, h, rfl⟩
  | cons id ids ih =>
      obtain ⟨e₁, hunreg, hcoherent, hlast, -⟩ := Event.unreg_outcome h id
      obtain ⟨e', hall, hcoherent', hlast'⟩ := ih hcoherent
      exact ⟨e', (unregAll_cons hunreg ids).trans hall, hcoherent', hlast'.trans hlast⟩

theorem unregAll_nil (h : Coherent e.table) (hnone : e.callbackList = [])
    (hall : unregAll ids e = .ok e') : e'.callbackList = [] := by
  induction ids generalizing e with
  | nil =>
      obtain rfl := Except.ok.inj hall
      exact hnone
  | cons id ids ih =>
      obtain ⟨e₁, hunreg, hcoherent, -, houtcome⟩ := Event.unreg_outcome h id
      rw [unregAll_cons hunreg] at hall
      refine ih hcoherent ?_ hall
      cases houtcome with
      | shortcut cb hone hnone' => exact hnone'
      | unknown hmany hid hsame =>
          rw [hsame]
          exact hnone
      | removed hmany hid hperm =>
          rw [hnone] at hperm
          exact List.perm_nil.mp hperm

theorem filter_notMem_cons (callbackList : List (UInt64 × timeParams.Handler)) :
    (callbackList.filter fun cb => cb.1 ∉ id :: ids) =
      (callbackList.filter fun cb => cb.1 ≠ id).filter fun cb => cb.1 ∉ ids := by
  rw [List.filter_filter]
  apply List.filter_congr
  intro cb _
  simp [Bool.and_comm]

theorem filter_notMem_nil (callbackList : List (UInt64 × timeParams.Handler)) :
    (callbackList.filter fun cb => cb.1 ∉ ([] : List UInt64)) = callbackList := by
  rw [List.filter_eq_self]
  exact fun _ _ => decide_eq_true List.not_mem_nil

theorem lastCancels_cons {e₁ : Event timeParams} (hmany : e.callbackList.length ≠ 1)
    (hperm : e₁.callbackList.Perm (e.callbackList.filter fun cb => cb.1 ≠ id)) (hid : id ∉ ids) :
    LastCancels e (id :: ids) ↔ LastCancels e₁ ids := by
  have hlength : (e.callbackList.filter fun cb => cb.1 ∉ id :: ids).length =
      (e₁.callbackList.filter fun cb => cb.1 ∉ ids).length := by
    rw [filter_notMem_cons]
    exact (hperm.filter _).length_eq.symm
  have hids : ∀ last ≠ id, last ∈ e₁.ids ↔ last ∈ e.ids := by
    intro last hlast
    rw [Event.mem_ids, Event.mem_ids]
    refine exists_congr fun cb => ?_
    rw [hperm.mem_iff, List.mem_filter]
    exact and_iff_left (decide_eq_true hlast)
  rw [LastCancels, LastCancels, hlength]
  refine and_congr_right fun hone => ?_
  cases ids with
  | nil =>
      refine iff_of_false ?_ ?_
      · rintro ⟨last, hlast, hnot⟩
        have hid' : id = last := Option.some.inj hlast
        rw [← hid'] at hnot
        rw [← hlength, filter_notMem_cons, Event.filter_of_notMem hnot, filter_notMem_nil] at hone
        exact hmany hone
      · rintro ⟨last, hlast, -⟩
        cases hlast
  | cons id' ids =>
      rw [List.getLast?_cons_cons]
      refine exists_congr fun last => and_congr_right fun hlast => not_congr ?_
      refine (hids last ?_).symm
      rintro rfl
      exact hid (List.mem_of_getLast? hlast)

/-- The handlers whose ids are among those that end are gone, and the others are still there,
unless the last of the ids cancels the last handler. -/
theorem unregAll_perm_iff (h : Coherent e.table) (hnodup : ids.Nodup)
    (hall : unregAll ids e = .ok e') :
    e'.callbackList.Perm (e.callbackList.filter fun cb => cb.1 ∉ ids) ↔ ¬ LastCancels e ids := by
  induction ids generalizing e with
  | nil =>
      obtain rfl := Except.ok.inj hall
      refine iff_of_true ?_ ?_
      · rw [filter_notMem_nil]
      · rintro ⟨-, last, hlast, -⟩
        cases hlast
  | cons id ids ih =>
      obtain ⟨hid, hnodup'⟩ := List.nodup_cons.mp hnodup
      obtain ⟨e₁, hunreg, hcoherent, -, houtcome⟩ := Event.unreg_outcome h id
      rw [unregAll_cons hunreg] at hall
      have hright : e.callbackList.length ≠ 1 →
          e₁.callbackList.Perm (e.callbackList.filter fun cb => cb.1 ≠ id) →
            (e'.callbackList.Perm (e.callbackList.filter fun cb => cb.1 ∉ id :: ids) ↔
              ¬ LastCancels e (id :: ids)) := by
        intro hmany hperm
        rw [lastCancels_cons hmany hperm hid, ← ih hcoherent hnodup' hall, filter_notMem_cons]
        have hrest := hperm.filter fun cb => cb.1 ∉ ids
        exact ⟨fun hgone => hgone.trans hrest.symm, fun hgone => hgone.trans hrest⟩
      cases houtcome with
      | shortcut cb hone hnone =>
          rw [unregAll_nil hcoherent hnone hall, LastCancels, hone, List.nil_perm]
          by_cases hmem : cb.1 ∈ id :: ids
          · have hfilter : ([cb].filter fun cb => cb.1 ∉ id :: ids) = [] :=
              List.filter_cons_of_neg (by simp only [decide_eq_true_eq, not_not]; exact hmem)
            rw [hfilter]
            exact iff_of_true rfl fun hcancels => absurd hcancels.1 Nat.zero_ne_one
          · have hfilter : ([cb].filter fun cb => cb.1 ∉ id :: ids) = [cb] :=
              List.filter_cons_of_pos (decide_eq_true hmem)
            rw [hfilter]
            refine iff_of_false (List.cons_ne_nil _ _) (not_not.mpr ⟨rfl, ?_⟩)
            refine ⟨_, List.getLast?_eq_some_getLast (List.cons_ne_nil id ids), ?_⟩
            rw [Event.ids, hone, List.map_singleton, List.mem_singleton]
            rintro hlast
            exact hmem (hlast ▸ List.getLast_mem _)
      | unknown hmany hnot hsame =>
          refine hright hmany ?_
          rw [hsame, Event.filter_of_notMem hnot]
      | removed hmany hmem hperm => exact hright hmany hperm

end Ids

section Cleaning

theorem idsOf_cons_self (id : TimerRegID) (ids : List TimerRegID) :
    idsOf id.1 (id :: ids) = id.2 :: idsOf id.1 ids := by
  rw [idsOf, List.filter_cons_of_pos (by simp)]
  rfl

theorem idsOf_cons_of_ne {interval : Int} {id : TimerRegID} (h : id.1 ≠ interval)
    (ids : List TimerRegID) : idsOf interval (id :: ids) = idsOf interval ids := by
  rw [idsOf, List.filter_cons_of_neg (by simpa using h)]
  rfl

variable {eventHandlers : Std.TreeMap Int EventHandlers}

/-- Every event of the map is as it should be. -/
def AllCoherent (eventHandlers : Std.TreeMap Int EventHandlers) : Prop :=
  ∀ (interval : Int) (info : EventHandlers), eventHandlers[interval]? = some info →
    Coherent info.event.table

theorem AllCoherent.insert (h : AllCoherent eventHandlers) {info : EventHandlers}
    (hinfo : Coherent info.event.table) (interval : Int) :
    AllCoherent (eventHandlers.insert interval info) := by
  intro interval' info' hget
  rw [Lib.Index.getElem?_insert] at hget
  split_ifs at hget with heq
  · obtain rfl := Option.some.inj hget
    exact hinfo
  · exact h interval' info' hget

/-- The loop ends the registrations of every interval one after the other, as long as it
knows the intervals. -/
theorem cleanFrom_spec {ids : List TimerRegID} (h : AllCoherent eventHandlers)
    (hknown : ∀ id ∈ ids, eventHandlers[id.1]? ≠ none) :
    ∃ eventHandlers', cleanFrom ids eventHandlers = .ok (true, eventHandlers') ∧
      ∀ interval, (eventHandlers[interval]? = none → eventHandlers'[interval]? = none) ∧
        ∀ info, eventHandlers[interval]? = some info → ∃ event,
          unregAll (idsOf interval ids) info.event = .ok event ∧
            eventHandlers'[interval]? = some { info with event := event } := by
  induction ids generalizing eventHandlers with
  | nil =>
      refine ⟨eventHandlers, rfl, fun interval => ⟨id, fun info hget => ?_⟩⟩
      exact ⟨info.event, rfl, hget⟩
  | cons id ids ih =>
      obtain ⟨hid, hknown'⟩ := List.forall_mem_cons.mp hknown
      obtain ⟨info, hinfo⟩ := Option.ne_none_iff_exists'.mp hid
      obtain ⟨event, hunreg, hcoherent, -, -⟩ := Event.unreg_outcome (h _ _ hinfo) id.2
      have hset : ∀ interval,
          (eventHandlers.insert id.1 { info with event := event })[interval]? =
            if interval = id.1 then some { info with event := event }
            else eventHandlers[interval]? :=
        fun interval => Lib.Index.getElem?_insert eventHandlers _ _ _
      have hall : AllCoherent (eventHandlers.insert id.1 { info with event := event }) :=
        h.insert hcoherent id.1
      obtain ⟨eventHandlers', hclean, hspec⟩ := ih hall fun id' hmem => by
        rw [hset]
        split_ifs
        · exact Option.some_ne_none _
        · exact hknown' id' hmem
      refine ⟨eventHandlers', ?_, fun interval => ?_⟩
      · rw [cleanFrom, hinfo]
        dsimp only
        rw [hunreg]
        exact hclean
      · obtain ⟨hnone, hsome⟩ := hspec interval
        rw [hset] at hnone hsome
        split_ifs at hnone hsome with heq
        · subst heq
          rw [hinfo]
          refine ⟨fun hget => absurd hget (Option.some_ne_none _), fun info' hget => ?_⟩
          obtain rfl := Option.some.inj hget
          obtain ⟨event', hall, hget'⟩ := hsome _ rfl
          rw [idsOf_cons_self, unregAll_cons hunreg]
          exact ⟨event', hall, hget'⟩
        · rw [idsOf_cons_of_ne (Ne.symm heq)]
          exact ⟨hnone, hsome⟩

end Cleaning

section Pending

variable {a b c : TimerRegID} {ids : List TimerRegID}

theorem Before.trans (hab : Before a b) (hbc : Before b c) : Before a c := by
  rw [Before] at hab hbc ⊢
  rw [UInt64.lt_iff_toNat_lt] at hab hbc ⊢
  omega

theorem before_of_not (hne : a ≠ b) (hnot : ¬ Before a b) : Before b a := by
  rw [Before] at hnot ⊢
  rw [UInt64.lt_iff_toNat_lt] at hnot ⊢
  have hid : a.1 = b.1 → a.2.toNat ≠ b.2.toNat :=
    fun hfst hsnd => hne (Prod.ext hfst (UInt64.toNat_inj.mp hsnd))
  omega

theorem mem_insertId : a ∈ insertId b ids ↔ a = b ∨ a ∈ ids := by
  induction ids with
  | nil => simp [insertId]
  | cons id ids ih =>
      rw [insertId]
      split_ifs with hbefore heq
      · rw [List.mem_cons]
      · rw [heq, List.mem_cons]
        tauto
      · rw [List.mem_cons, List.mem_cons, ih]
        tauto

theorem pairwise_insertId (h : ids.Pairwise Before) : (insertId a ids).Pairwise Before := by
  induction ids with
  | nil => exact List.pairwise_singleton _ _
  | cons id ids ih =>
      obtain ⟨hid, hids⟩ := List.pairwise_cons.mp h
      rw [insertId]
      split_ifs with hbefore heq
      · refine List.pairwise_cons.mpr ⟨fun id' hmem => ?_, h⟩
        rcases List.mem_cons.mp hmem with rfl | hmem
        · exact hbefore
        · exact hbefore.trans (hid id' hmem)
      · exact h
      · refine List.pairwise_cons.mpr ⟨fun id' hmem => ?_, ih hids⟩
        rcases mem_insertId.mp hmem with rfl | hmem
        · exact before_of_not heq hbefore
        · exact hid id' hmem

theorem nodup_idsOf (h : ids.Pairwise Before) (interval : Int) : (idsOf interval ids).Nodup := by
  rw [idsOf, List.Nodup, List.pairwise_map]
  refine (h.filter _).imp_of_mem fun {a b} ha hb hbefore => ?_
  have ha' := of_decide_eq_true (List.mem_filter.mp ha).2
  have hb' := of_decide_eq_true (List.mem_filter.mp hb).2
  rintro heq
  rw [Before, ha', hb', heq, UInt64.lt_iff_toNat_lt] at hbefore
  omega

end Pending

section Soundness

/-- What holds between the calls. -/
structure Sound (t : Timer) : Prop where
  coherent : AllCoherent t.eventHandlers
  known : ∀ id ∈ t.issued, t.eventHandlers[id.1]? ≠ none
  issued : ∀ id ∈ t.unregedIds, id ∈ t.issued
  sorted : t.unregedIds.Pairwise Before

variable {t t' : Timer} {interval : Int}

theorem sound_new : Sound {} where
  coherent _ _ hget := by simp at hget
  known _ h := absurd h List.not_mem_nil
  issued _ h := absurd h List.not_mem_nil
  sorted := List.Pairwise.nil

theorem Sound.coherent_eventOf (h : t.Sound) (interval : Int) :
    Coherent (t.eventOf interval).table := by
  rw [eventOf]
  cases hget : t.eventHandlers[interval]? with
  | none => exact coherent_empty
  | some info => exact h.coherent interval info hget

theorem eventOf_eq (t : Timer) (interval : Int) :
    (t.eventHandlers[interval]?.getD {}).event = t.eventOf interval := by
  rw [eventOf]
  cases t.eventHandlers[interval]? <;> rfl

theorem regEventHandler_fst (t : Timer) (interval : Int) (handler : timeParams.Handler)
    (now : Int) : (t.regEventHandler interval handler now).1 =
      (interval, ((t.eventOf interval).reg handler).1) := by
  rw [← eventOf_eq]
  rfl

theorem getElem?_regEventHandler (t : Timer) (interval : Int) (handler : timeParams.Handler)
    (now other : Int) : (t.regEventHandler interval handler now).2.eventHandlers[other]? =
      if other = interval then some ⟨((t.eventOf interval).reg handler).2, now, 0⟩
      else t.eventHandlers[other]? := by
  rw [← eventOf_eq]
  exact Lib.Index.getElem?_insert _ _ _ _

theorem eventOf_regEventHandler (t : Timer) (interval : Int) (handler : timeParams.Handler)
    (now other : Int) : (t.regEventHandler interval handler now).2.eventOf other =
      if other = interval then ((t.eventOf interval).reg handler).2 else t.eventOf other := by
  rw [eventOf, getElem?_regEventHandler]
  split_ifs <;> rfl

theorem Sound.regEventHandler (h : t.Sound)
    (hfresh : (t.eventOf interval).lastRegID + 1 ∉ (t.eventOf interval).ids)
    (handler : timeParams.Handler) (now : Int) :
    (t.regEventHandler interval handler now).2.Sound where
  coherent other info hget := by
    rw [getElem?_regEventHandler] at hget
    split_ifs at hget
    · obtain rfl := Option.some.inj hget
      exact (Event.reg_spec (h.coherent_eventOf interval) hfresh handler).1
    · exact h.coherent other info hget
  known id hmem := by
    rw [getElem?_regEventHandler]
    split_ifs with heq
    · exact Option.some_ne_none _
    · rcases List.mem_append.mp hmem with hold | hnew
      · exact h.known id hold
      · rw [List.mem_singleton.mp hnew] at heq
        exact absurd rfl heq
  issued id hmem := List.mem_append_left _ (h.issued id hmem)
  sorted := h.sorted

theorem Sound.unregEventHandler (h : t.Sound) {id : TimerRegID} (hid : id ∈ t.issued) :
    (t.unregEventHandler id).Sound where
  coherent := h.coherent
  known := h.known
  issued id' hmem := by
    rcases mem_insertId.mp hmem with rfl | hold
    · exact hid
    · exact h.issued id' hold
  sorted := pairwise_insertId h.sorted

theorem Sound.pending_eq_nil (h : t.Sound) (hnone : t.eventHandlers[interval]? = none) :
    t.pending interval = [] := by
  rw [pending, idsOf, List.map_eq_nil_iff, List.filter_eq_nil_iff]
  intro id hmem heq
  rw [← of_decide_eq_true heq] at hnone
  exact h.known id (h.issued id hmem) hnone

theorem event_counted (now interval : Int) (info : EventHandlers) :
    (counted now interval info).event = info.event := by
  rw [counted]
  split_ifs <;> rfl

/-- A run ends the registrations whose ids have been given back. -/
theorem exec_spec (h : t.Sound) (now sysNow : Int) :
    ∃ calls t', t.exec now sysNow = .ok (calls, t') ∧ t'.Sound ∧
      ∀ interval, unregAll (t.pending interval) (t.eventOf interval) =
        .ok (t'.eventOf interval) := by
  obtain ⟨eventHandlers, hclean, hspec⟩ := cleanFrom_spec h.coherent
    fun id hmem => h.known id (h.issued id hmem)
  have hcleaned : t.cleanEventHandler =
      .ok { t with eventHandlers := eventHandlers, unregedIds := [] } := by
    rw [cleanEventHandler, hclean]
    rfl
  have hget : ∀ interval : Int, (eventHandlers.map (counted now))[interval]? =
      eventHandlers[interval]?.map (counted now interval) :=
    fun interval => Std.TreeMap.getElem?_map
  have hexec : ∃ calls, t.exec now sysNow = .ok (calls,
      { t with eventHandlers := eventHandlers.map (counted now), unregedIds := [] }) := by
    rw [exec, hcleaned]
    exact ⟨_, rfl⟩
  obtain ⟨calls, hexec⟩ := hexec
  refine ⟨calls, _, hexec, ⟨?_, ?_, ?_, ?_⟩, ?_⟩
  · intro interval info hinfo
    rw [hget] at hinfo
    obtain ⟨info', hinfo', rfl⟩ := Option.map_eq_some_iff.mp hinfo
    rw [event_counted]
    cases hold : t.eventHandlers[interval]? with
    | none =>
        rw [(hspec interval).1 hold] at hinfo'
        cases hinfo'
    | some info =>
        obtain ⟨event, hall, hevent⟩ := (hspec interval).2 info hold
        rw [hevent] at hinfo'
        obtain rfl := Option.some.inj hinfo'
        obtain ⟨event', hall', hcoherent, -⟩ :=
          unregAll_ok (h.coherent interval info hold) (idsOf interval t.unregedIds)
        obtain rfl := Except.ok.inj (hall.symm.trans hall')
        exact hcoherent
  · intro id hmem
    rw [hget]
    obtain ⟨info, hinfo⟩ := Option.ne_none_iff_exists'.mp (h.known id hmem)
    obtain ⟨event, -, hevent⟩ := (hspec id.1).2 info hinfo
    rw [hevent]
    exact Option.some_ne_none _
  · exact fun _ hmem => absurd hmem List.not_mem_nil
  · exact List.Pairwise.nil
  · intro interval
    rw [eventOf, eventOf, hget]
    cases hold : t.eventHandlers[interval]? with
    | none =>
        rw [(hspec interval).1 hold, h.pending_eq_nil hold]
        rfl
    | some info =>
        obtain ⟨event, hall, hevent⟩ := (hspec interval).2 info hold
        rw [hevent, pending, hall]
        exact congrArg Except.ok (event_counted now interval { info with event := event }).symm

theorem actsAsMap_iff (h : t.Sound) (act : Act) : t.ActsAsMap act ↔ t.Harmless act := by
  cases act with
  | regEventHandler interval handler now =>
      have hstate := eventOf_regEventHandler t interval handler now
      change (t.regEventHandler interval handler now).1.1 = interval ∧
        (t.regEventHandler interval handler now).1.2 ∉ (t.eventOf interval).ids ∧
        ((t.regEventHandler interval handler now).2.eventOf interval).callbackList.Perm
          (((t.regEventHandler interval handler now).1.2, handler) ::
            (t.eventOf interval).callbackList) ∧
        (∀ other ≠ interval, (t.regEventHandler interval handler now).2.eventOf other =
          t.eventOf other) ↔ _
      rw [regEventHandler_fst, hstate, if_pos rfl]
      constructor
      · exact fun hmap => hmap.2.1
      · intro hfresh
        refine ⟨rfl, hfresh, ?_, fun other hother => ?_⟩
        · exact (Event.reg_spec (h.coherent_eventOf interval) hfresh handler).2
        · rw [hstate, if_neg hother]
  | unregEventHandler id => exact iff_of_true (fun _ => rfl) trivial
  | exec now sysNow =>
      obtain ⟨calls, t', hexec, -, hall⟩ := exec_spec h now sysNow
      have hiff : t.ActsAsMap (.exec now sysNow) ↔ ∀ interval,
          (t'.eventOf interval).callbackList.Perm
            ((t.eventOf interval).callbackList.filter fun cb => cb.1 ∉ t.pending interval) := by
        constructor
        · rintro ⟨calls', t'', hexec', hmap⟩
          obtain ⟨-, rfl⟩ := Prod.mk.inj (Except.ok.inj (hexec.symm.trans hexec'))
          exact hmap
        · exact fun hmap => ⟨calls, t', hexec, hmap⟩
      rw [hiff]
      exact forall_congr' fun interval => unregAll_perm_iff (h.coherent_eventOf interval)
        (nodup_idsOf h.sorted interval) (hall interval)

theorem sound_step {act : Act} (h : t.Sound) (hallowed : system.Allowed t act)
    (hharmless : t.Harmless act) (hstep : system.step t act = .ok t') : t'.Sound := by
  cases act with
  | regEventHandler interval handler now =>
      obtain rfl := Except.ok.inj hstep
      exact h.regEventHandler hharmless handler now
  | unregEventHandler id =>
      obtain rfl := Except.ok.inj hstep
      exact h.unregEventHandler hallowed
  | exec now sysNow =>
      obtain ⟨calls, t'', hexec, hsound, -⟩ := exec_spec h now sysNow
      have hstep' : (t.exec now sysNow).map Prod.snd = .ok t' := hstep
      rw [hexec] at hstep'
      obtain rfl := Except.ok.inj hstep'
      exact hsound

theorem fits_actsAsMap_iff (h : t.Sound) (acts : List Act) :
    system.Fits ActsAsMap t acts ↔ system.Fits Harmless t acts :=
  System.fits_congr Sound (fun _ act ht _ => actsAsMap_iff ht act)
    (fun _ _ _ ht hallowed hharmless hstep => sound_step ht hallowed hharmless hstep) h

end Soundness

end Timer

/-- An event is a map over a run exactly when no registration comes back to an id in use, for
which it takes all ids, and no end of a registration meets the last handler of another. A timer
is one exactly when, moreover, no run cancels the last handler of an interval for somebody
else; it is given back the ids that it has issued. -/
theorem registrations_actAsMap_iff (P : Params) :
    (∀ acts, (Event.system P).Fits Event.ActsAsMap {} acts ↔
      (Event.system P).Fits Event.Harmless {} acts) ∧
    (∀ acts : List (Event.Act P), acts.length < UInt64.size →
      ((Event.system P).Fits Event.Harmless {} acts ↔
        (Event.system P).Fits Event.MeetsOwn {} acts)) ∧
    ∀ acts, Timer.system.Fits Timer.ActsAsMap {} acts ↔
      Timer.system.Fits Timer.Harmless {} acts := by
  refine ⟨Event.fits_actsAsMap_iff coherent_empty, fun acts hfew => ?_,
    Timer.fits_actsAsMap_iff Timer.sound_new⟩
  refine Event.fits_harmless_iff_of_few coherent_empty (fun _ h => absurd h List.not_mem_nil) ?_
  change 0 + acts.length < _
  omega

/-- Two handlers, of which the first is taken out twice: by an event, and by a timer that runs
after each time. -/
theorem twice_not_actAsMap :
    ¬ (Event.system timeParams).Fits Event.ActsAsMap {}
        [.reg fun _ => .returns, .reg fun _ => .returns, .unreg 1, .unreg 1] ∧
      ¬ Timer.system.Fits Timer.ActsAsMap {}
        [.regEventHandler 10 (fun _ => .returns) 0, .regEventHandler 10 (fun _ => .returns) 0,
          .unregEventHandler (10, 1), .exec 5 5, .unregEventHandler (10, 1), .exec 6 6] := by
  rw [Event.fits_actsAsMap_iff coherent_empty, Timer.fits_actsAsMap_iff Timer.sound_new]
  constructor
  · rintro ⟨-, -, -, -, -, -, -, hlast, -⟩
    have hother := hlast (2, fun _ => .returns) rfl
    cases hother
  · rintro ⟨-, -, -, -, -, -, -, -, -, -, -, hlast, -⟩
    exact hlast 10 ⟨rfl, 1, rfl, by decide⟩

end CasualGame.Componet
