import CasualGame.Componet.Timer

/-!
When the handlers of a timer are called, and what later registrations do to that.
-/

namespace CasualGame.Componet

open Lib.Run

namespace Timer

section Statement

/-- The timer as its handlers come and never go. A clock counts from the start of the
machine, in 64 bits. -/
def schedules : System Timer Act FastTravelUnorderedMap.Fault where
  Init t := t = {}
  Allowed _
    | .regEventHandler _ _ now => 0 ≤ now ∧ now < 9223372036854775808
    | .unregEventHandler _ => False
    | .exec now _ => 0 ≤ now ∧ now < 9223372036854775808
  step := system.step

variable (t : Timer)

/-- The events a run emits, by their intervals. -/
def emitted (now : Int) : List (Int × EventHandlers) :=
  t.eventHandlers.toList.filter fun pair => Due now pair.1 pair.2

/-- A run calls the handler that was registered for the interval after `place` others. -/
def calls (interval : Int) (place : Nat) (now : Int) : Bool :=
  (t.emitted now).any fun pair =>
    pair.1 = interval && place < pair.2.event.callbackList.length

/-- The times at which it is called. -/
def callTimes (interval : Int) (place : Nat) : Timer → List Act → List Int
  | _, [] => []
  | t, .exec now sysNow :: acts =>
      (if t.calls interval place now then [now] else []) ++
        callTimes interval place (schedules.after t [.exec now sysNow]) acts
  | t, act :: acts => callTimes interval place (schedules.after t [act]) acts

def isExec : Act → Bool
  | .exec _ _ => true
  | _ => false

/-- What a handler of an interval may expect that is registered at `regTime` after `place`
others, when the timer is in the state `t` then: no more calls than there are intervals, and
those it has without the registrations that come later. -/
structure Keeps (interval : Int) (place : Nat) (regTime : Int) (t : Timer) (later : List Act) :
    Prop where
  count : ∀ now, regTime ≤ now →
    (((callTimes interval place t later).filter (· ≤ now)).length : Int) ≤
      (now - regTime) / interval + 1
  alone : callTimes interval place t later = callTimes interval place t (later.filter isExec)

/-- Every handler is called as it may expect. The calls of a run, one after the other, are those
of all handlers of the events that it emits. -/
structure Undisturbed (acts : List Act) : Prop where
  keeps : ∀ before interval handler now later,
    acts = before ++ .regEventHandler interval handler now :: later → 0 < interval →
      Keeps interval ((schedules.after {} before).eventOf interval).callbackList.length now
        (schedules.after {} (before ++ [.regEventHandler interval handler now])) later
  called : ∀ before now sysNow later, acts = before ++ .exec now sysNow :: later →
    ∃ calls t, (schedules.after {} before).exec now sysNow = .ok (calls, t) ∧
      calls.map Prod.fst = ((schedules.after {} before).emitted now).flatMap
        fun pair => pair.2.event.callbackList

/-- The time of the next event of an interval, which is no number of so many bits. -/
def dueTime (interval : Int) (info : EventHandlers) : Int :=
  info.regTime + interval * info.counter.toNat

/-- A registration for an interval that has handlers comes just when these are due, and what
is taken for due is due. -/
def OnTime : Act → Prop
  | .regEventHandler interval _ now => 0 < interval →
      ∀ info, t.eventHandlers[interval]? = some info → dueTime interval info = now
  | .unregEventHandler _ => True
  | .exec now _ => ∀ interval info, 0 < interval → t.eventHandlers[interval]? = some info →
      Due now interval info → dueTime interval info ≤ now

instance (act : Act) : Decidable (schedules.Allowed t act) :=
  match act with
  | .regEventHandler _ _ now => inferInstanceAs (Decidable (0 ≤ now ∧ now < _))
  | .unregEventHandler _ => inferInstanceAs (Decidable False)
  | .exec now _ => inferInstanceAs (Decidable (0 ≤ now ∧ now < _))

theorem onTime_exec_iff (now sysNow : Int) : t.OnTime (.exec now sysNow) ↔
    ∀ pair ∈ t.eventHandlers.toList, 0 < pair.1 → Due now pair.1 pair.2 →
      dueTime pair.1 pair.2 ≤ now := by
  constructor
  · rintro h ⟨interval, info⟩ hmem hinterval
    exact h interval info hinterval (Std.TreeMap.mem_toList_iff_getElem?_eq_some.mp hmem)
  · intro h interval info hinterval hget
    exact h (interval, info) (Std.TreeMap.mem_toList_iff_getElem?_eq_some.mpr hget) hinterval

instance (act : Act) : Decidable (t.OnTime act) :=
  match act with
  | .regEventHandler interval _ now => inferInstanceAs (Decidable (0 < interval →
      ∀ info, info ∈ t.eventHandlers[interval]? → dueTime interval info = now))
  | .unregEventHandler _ => .isTrue trivial
  | .exec now sysNow => decidable_of_iff _ (t.onTime_exec_iff now sysNow).symm

end Statement

section Runs

variable {t : Timer} {interval now sysNow : Int} {place : Nat}

theorem exec_eq (h : t.unregedIds = []) (now sysNow : Int) :
    t.exec now sysNow = .ok ((t.emitted now).flatMap fun pair => pair.2.event.raise fun _ => sysNow,
      { t with eventHandlers := t.eventHandlers.map (counted now) }) := by
  have hclean : t.cleanEventHandler = .ok t := by
    rw [cleanEventHandler, h]
    change Except.ok { t with unregedIds := [] } = _
    rw [← h]
  rw [exec, hclean]
  rfl

/-- It calls all handlers of these events, in the order of their places. -/
theorem exec_calls (h : t.unregedIds = []) (now sysNow : Int) :
    ∃ calls t', t.exec now sysNow = .ok (calls, t') ∧
      calls.map Prod.fst = (t.emitted now).flatMap fun pair => pair.2.event.callbackList := by
  refine ⟨_, _, exec_eq h now sysNow, ?_⟩
  rw [List.map_flatMap]
  congr 1
  funext pair
  exact Event.map_fst_raiseFrom _ _

theorem after_exec (h : t.unregedIds = []) (now sysNow : Int) :
    schedules.after t [.exec now sysNow] =
      { t with eventHandlers := t.eventHandlers.map (counted now) } := by
  have hstep : schedules.step t (.exec now sysNow) =
      .ok { t with eventHandlers := t.eventHandlers.map (counted now) } := by
    change (t.exec now sysNow).map Prod.snd = _
    rw [exec_eq h]
    rfl
  rw [System.after, hstep]
  rfl

theorem after_reg (t : Timer) (interval : Int) (handler : timeParams.Handler) (now : Int) :
    schedules.after t [.regEventHandler interval handler now] =
      (t.regEventHandler interval handler now).2 := rfl

/-- Whether a handler is called is decided by the entry of its interval. -/
theorem calls_iff : t.calls interval place now = true ↔
    ∃ info, t.eventHandlers[interval]? = some info ∧ Due now interval info ∧
      place < info.event.callbackList.length := by
  rw [calls, List.any_eq_true]
  constructor
  · rintro ⟨⟨interval', info⟩, hmem, hpair⟩
    rw [emitted, List.mem_filter] at hmem
    simp only [Bool.and_eq_true, decide_eq_true_eq] at hpair hmem
    obtain ⟨rfl, hplace⟩ := hpair
    exact ⟨info, Std.TreeMap.mem_toList_iff_getElem?_eq_some.mp hmem.1, hmem.2, hplace⟩
  · rintro ⟨info, hget, hdue, hplace⟩
    refine ⟨(interval, info), ?_, ?_⟩
    · rw [emitted, List.mem_filter]
      exact ⟨Std.TreeMap.mem_toList_iff_getElem?_eq_some.mpr hget, decide_eq_true hdue⟩
    · simp only [decide_eq_true hplace, decide_true, Bool.and_self]

/-- The handler is there, and its event is to be emitted at `due` the next time. -/
structure Scheduled (t : Timer) (interval : Int) (place : Nat) (due : Int) : Prop where
  stays : t.unregedIds = []
  entry : ∃ info, t.eventHandlers[interval]? = some info ∧
    place < info.event.callbackList.length ∧ dueTime interval info = due ∧ 0 ≤ info.regTime

variable {due : Int} {handler : timeParams.Handler}

theorem Scheduled.calls_iff (h : Scheduled t interval place due) :
    t.calls interval place now = true ↔ due.bmod 18446744073709551616 ≤ now := by
  obtain ⟨info, hget, hplace, hdue, -⟩ := h.entry
  rw [Timer.calls_iff, ← hdue]
  constructor
  · rintro ⟨info', hget', hdue', -⟩
    rw [hget] at hget'
    obtain rfl := Option.some.inj hget'
    exact hdue'
  · exact fun hle => ⟨info, hget, hle, hplace⟩

theorem Scheduled.onTime (h : Scheduled t interval place due) (hinterval : 0 < interval)
    (hon : t.OnTime (.exec now sysNow)) (hcalls : t.calls interval place now = true) :
    due ≤ now := by
  obtain ⟨info, hget, -, hdue, -⟩ := h.entry
  rw [← hdue]
  apply hon interval info hinterval hget
  change (dueTime interval info).bmod _ ≤ now
  rw [hdue]
  exact h.calls_iff.mp hcalls

theorem counter_succ {info : EventHandlers} (hinterval : 0 < interval) (hreg : 0 ≤ info.regTime)
    (hle : dueTime interval info < 9223372036854775808) :
    (info.counter + 1).toNat = info.counter.toNat + 1 := by
  have hone : 1 ≤ interval := hinterval
  have hcounter : (info.counter.toNat : Int) ≤ interval * info.counter.toNat := by
    calc (info.counter.toNat : Int) = 1 * info.counter.toNat := (Int.one_mul _).symm
      _ ≤ interval * info.counter.toNat :=
        Int.mul_le_mul_of_nonneg_right hone (Int.natCast_nonneg _)
  rw [dueTime] at hle
  rw [UInt64.toNat_add]
  apply Nat.mod_eq_of_lt
  change info.counter.toNat + 1 < 18446744073709551616
  omega

theorem Scheduled.exec (h : Scheduled t interval place due) (sysNow : Int)
    (hinterval : 0 < interval)
    (hnow : now < 9223372036854775808)
    (hon : t.calls interval place now = true → due ≤ now) :
    Scheduled (schedules.after t [.exec now sysNow]) interval place
      (if t.calls interval place now then due + interval else due) := by
  obtain ⟨info, hget, hplace, hdue, hreg⟩ := h.entry
  have hmap : (t.eventHandlers.map (counted now))[interval]? =
      some (counted now interval info) := by
    rw [Std.TreeMap.getElem?_map, hget]
    rfl
  rw [after_exec h.stays]
  refine ⟨h.stays, counted now interval info, hmap, ?_, ?_, ?_⟩
  · rwa [event_counted]
  · have hiff : Due now interval info ↔ t.calls interval place now = true := by
      rw [h.calls_iff, ← hdue]
      rfl
    rw [counted]
    split_ifs with hcounted hcalls hcalls
    · have hle := hon hcalls
      have hsucc := counter_succ hinterval hreg (by omega)
      rw [← hdue, dueTime, dueTime]
      change info.regTime + interval * ((info.counter + 1).toNat : Int) = _
      rw [hsucc, Int.natCast_add, Int.natCast_one, Int.mul_add, Int.mul_one, Int.add_assoc]
    · exact absurd (hiff.mp hcounted) hcalls
    · exact absurd (hiff.mpr hcalls) hcounted
    · exact hdue
  · rw [counted]
    split_ifs
    · exact hreg
    · exact hreg

theorem callbackList_reg {P : Params} (e : Event P) (cb : P.Handler) :
    ((e.reg cb).2.callbackList).length = e.callbackList.length + 1 := by
  change (e.callbackList ++ [_]).length = _
  exact List.length_append

theorem Scheduled.reg (h : Scheduled t interval place due) (hinterval : 0 < interval)
    {other : Int} (hnow : 0 ≤ now) (hon : t.OnTime (.regEventHandler other handler now)) :
    Scheduled (schedules.after t [.regEventHandler other handler now]) interval place due := by
  obtain ⟨info, hget, hplace, hdue, hreg⟩ := h.entry
  rw [after_reg]
  refine ⟨h.stays, ?_⟩
  rw [getElem?_regEventHandler]
  split_ifs with heq
  · subst heq
    refine ⟨_, rfl, ?_, ?_, hnow⟩
    · rw [callbackList_reg, eventOf, hget]
      exact Nat.lt_succ_of_lt hplace
    · rw [← hdue, hon hinterval info hget]
      simp [dueTime]
  · exact ⟨info, hget, hplace, hdue, hreg⟩

theorem step_after {act : Act} (hstays : t.unregedIds = []) (h : schedules.Allowed t act) :
    schedules.step t act = .ok (schedules.after t [act]) ∧
      (schedules.after t [act]).unregedIds = [] := by
  cases act with
  | regEventHandler interval handler now => exact ⟨rfl, hstays⟩
  | unregEventHandler id => exact h.elim
  | exec now sysNow =>
      rw [after_exec hstays]
      refine ⟨?_, hstays⟩
      change (t.exec now sysNow).map Prod.snd = _
      rw [exec_eq hstays]
      rfl

theorem after_cons {act : Act} (hstays : t.unregedIds = []) (h : schedules.Allowed t act)
    (acts : List Act) :
    schedules.after t (act :: acts) = schedules.after (schedules.after t [act]) acts :=
  System.after_cons (step_after hstays h).1 acts

theorem fits_rest {act : Act} {later : List Act} (hstays : t.unregedIds = [])
    (h : schedules.Fits OnTime t (act :: later)) :
    schedules.Allowed t act ∧ t.OnTime act ∧
      schedules.Fits OnTime (schedules.after t [act]) later := by
  obtain ⟨hallowed, hon, hrest⟩ := h
  refine ⟨hallowed, hon, ?_⟩
  rw [(step_after hstays hallowed).1] at hrest
  exact hrest

theorem fits_append {before later : List Act} (hstays : t.unregedIds = [])
    (h : schedules.Fits OnTime t (before ++ later)) :
    (schedules.after t before).unregedIds = [] ∧
      schedules.Fits OnTime (schedules.after t before) later ∧
      ∀ acts, schedules.after t (before ++ acts) =
        schedules.after (schedules.after t before) acts := by
  induction before generalizing t with
  | nil => exact ⟨hstays, h, fun _ => rfl⟩
  | cons act before ih =>
      obtain ⟨hallowed, -, hrest⟩ := fits_rest hstays h
      have hafter := after_cons hstays hallowed
      obtain ⟨hstays', hfits, hmore⟩ := ih (step_after hstays hallowed).2 hrest
      rw [hafter]
      refine ⟨hstays', hfits, fun acts => ?_⟩
      rw [List.cons_append, hafter, hmore]

theorem callTimes_alone {later : List Act} {t' : Timer} (hinterval : 0 < interval)
    (h : Scheduled t interval place due) (h' : Scheduled t' interval place due)
    (hfits : schedules.Fits OnTime t later) :
    callTimes interval place t later = callTimes interval place t' (later.filter isExec) := by
  induction later generalizing t t' due with
  | nil => rfl
  | cons act later ih =>
      obtain ⟨hallowed, hon, hrest⟩ := fits_rest h.stays hfits
      cases act with
      | regEventHandler other handler now =>
          rw [List.filter_cons_of_neg (by simp [isExec])]
          exact ih (h.reg hinterval hallowed.1 hon) h' hrest
      | unregEventHandler id => exact hallowed.elim
      | exec now sysNow =>
          have hcalls : t.calls interval place now = t'.calls interval place now := by
            rw [Bool.eq_iff_iff, h.calls_iff, h'.calls_iff]
          have hon' := h.onTime hinterval hon
          have hnext := h.exec sysNow hinterval hallowed.2 hon'
          have hnext' := h'.exec sysNow hinterval hallowed.2 (hcalls ▸ hon')
          rw [List.filter_cons_of_pos (by simp [isExec]), callTimes, callTimes, ← hcalls]
          rw [← hcalls] at hnext'
          rw [ih hnext hnext' hrest]

theorem count_callTimes {later : List Act} {limit : Int} (hinterval : 0 < interval)
    (h : Scheduled t interval place due) (hfits : schedules.Fits OnTime t later)
    (hsome : 0 < ((callTimes interval place t later).filter (· ≤ limit)).length) :
    due + interval * (((callTimes interval place t later).filter (· ≤ limit)).length - 1 : Int) ≤
      limit := by
  induction later generalizing t due with
  | nil => exact absurd hsome (Nat.lt_irrefl 0)
  | cons act later ih =>
      obtain ⟨hallowed, hon, hrest⟩ := fits_rest h.stays hfits
      cases act with
      | regEventHandler other handler now => exact ih (h.reg hinterval hallowed.1 hon) hrest hsome
      | unregEventHandler id => exact hallowed.elim
      | exec now sysNow =>
          have hon' := h.onTime hinterval hon
          have hnext := h.exec sysNow hinterval hallowed.2 hon'
          rw [callTimes] at hsome ⊢
          cases hcalls : t.calls interval place now with
          | false =>
              rw [hcalls] at hsome hnext
              exact ih hnext hrest hsome
          | true =>
              have hle := hon' hcalls
              rw [hcalls, if_pos rfl] at hsome hnext
              rw [if_pos rfl, List.singleton_append, List.filter_cons]
              rw [List.singleton_append, List.filter_cons] at hsome
              have hmore := ih hnext hrest
              rw [Int.mul_sub, Int.mul_one] at hmore ⊢
              split_ifs at hsome ⊢ with hlimit
              · have hnow := of_decide_eq_true hlimit
                rw [List.length_cons, Int.natCast_add, Int.natCast_one, Int.mul_add, Int.mul_one]
                rcases Nat.eq_zero_or_pos ((callTimes interval place
                  (schedules.after t [.exec now sysNow]) later).filter (· ≤ limit)).length
                  with hzero | hpos
                · rw [hzero]
                  omega
                · have hnext' := hmore hpos
                  omega
              · have hnext' := hmore hsome
                omega

theorem scheduled_reg (interval : Int) (handler : timeParams.Handler)
    (hstays : t.unregedIds = []) (hnow : 0 ≤ now) :
    Scheduled (schedules.after t [.regEventHandler interval handler now]) interval
      (t.eventOf interval).callbackList.length now := by
  rw [after_reg]
  refine ⟨hstays, _, (getElem?_regEventHandler _ _ _ _ _).trans (if_pos rfl), ?_, ?_, hnow⟩
  · rw [callbackList_reg]
    exact Nat.lt_succ_self _
  · simp [dueTime]

/-- No registration disturbs another one in a run in which all are on time. -/
theorem undisturbed {acts : List Act} (h : schedules.Fits OnTime {} acts) : Undisturbed acts := by
  have hcalled : ∀ before now sysNow later, acts = before ++ .exec now sysNow :: later →
      (schedules.after {} before).unregedIds = [] := by
    rintro before now sysNow later rfl
    exact (fits_append rfl h).1
  refine ⟨?_, fun before now sysNow later hacts =>
    exec_calls (hcalled before now sysNow later hacts) now sysNow⟩
  rintro before interval handler now later rfl hinterval
  obtain ⟨hstays, hfits, hafter⟩ := fits_append rfl h
  obtain ⟨hallowed, -, hrest⟩ := fits_rest hstays hfits
  have hscheduled := scheduled_reg interval handler hstays hallowed.1
  rw [hafter]
  refine ⟨fun limit hlimit => ?_, callTimes_alone hinterval hscheduled hscheduled hrest⟩
  rcases Nat.eq_zero_or_pos ((callTimes interval _ (schedules.after (schedules.after {} before)
    [.regEventHandler interval handler now]) later).filter (· ≤ limit)).length with hzero | hpos
  · rw [hzero]
    have hnonneg := Int.ediv_nonneg (Int.sub_nonneg_of_le hlimit) (Int.le_of_lt hinterval)
    omega
  · have hcount := count_callTimes hinterval hscheduled hrest hpos
    have hdiv := (Int.le_ediv_iff_mul_le hinterval).mpr
      ((Int.mul_comm _ interval).trans_le (Int.le_sub_left_of_add_le hcount))
    omega

/-- Two handlers of 3 milliseconds, of which the second comes when the first is due, and one
of 10 that comes in between. -/
theorem undisturbed_three :
    Undisturbed [.regEventHandler 3000000 (fun _ => .returns) 0, .exec 0 0,
      .regEventHandler 10000000 (fun _ => .returns) 1000000,
      .regEventHandler 3000000 (fun _ => .returns) 3000000, .exec 4000000 4000000] :=
  undisturbed (by decide +kernel)

/-- The first handler of 3 milliseconds is called twice within one, since the second comes. -/
theorem second_not_undisturbed :
    ¬ Undisturbed [.regEventHandler 3000000 (fun _ => .returns) 0, .exec 0 0,
      .regEventHandler 3000000 (fun _ => .returns) 1000000, .exec 1000000 1000000] := by
  intro h
  have hkeeps := h.keeps [] 3000000 (fun _ => .returns) 0 _ rfl (by decide)
  exact absurd (hkeeps.count 1000000 (by decide)) (by decide +kernel)

end Runs

end Timer

end CasualGame.Componet
