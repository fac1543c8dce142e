import CasualGame.Coroutine.Scheduler

/-!
The rounds of the scheduler: what one call of `doSchedule` does.
-/

namespace CasualGame.Coroutine

open Lib.Run Lib.Slots Lib.While

universe u v

variable {γ : Type u} {β : Type v} {s s' s'' : Scheduler β} {coid : CorotId} {i j k : Nat}
  {co co' co₁ : Corot β}

section Segments

namespace Scheduler

/-- What can come about while the coroutine in the slot `k` runs. -/
structure Meanwhile (k : Nat) (s s' : Scheduler β) : Prop where
  created_le : s.created ≤ s'.created
  length_le : s.tasks.length ≤ s'.tasks.length
  kept : ∀ i co, i ≠ k → s.Lives i co → s'.Lives i co
  origin : ∀ i co, s'.Lives i co →
    (∃ co', s.Lives i co' ∧ co'.serial = co.serial) ∨ s.created ≤ co.serial

namespace Meanwhile

theorem trans (h : Meanwhile k s s') (h' : Meanwhile k s' s'') : Meanwhile k s s'' where
  created_le := h.created_le.trans h'.created_le
  length_le := h.length_le.trans h'.length_le
  kept := fun i co hne hlives => h'.kept i co hne (h.kept i co hne hlives)
  origin := by
    intro i co hlives
    rcases h'.origin i co hlives with ⟨co', hlives', heq⟩ | hnew
    · rw [← heq]
      exact h.origin i co' hlives'
    · exact .inr (h.created_le.trans hnew)

theorem create (h : s.Sound) (k : Nat) (func : β) : Meanwhile k s (s.create func).2 where
  created_le := by
    rw [create_created]
    exact Nat.le_succ _
  length_le := s.length_le_create func
  kept := by
    intro i co _ hlives
    refine h.lives_create.mpr (.inr ⟨?_, hlives⟩)
    rintro rfl
    exact h.not_lives_create hlives
  origin := by
    intro i co hlives
    rcases h.lives_create.mp hlives with ⟨-, rfl⟩ | ⟨-, hold⟩
    · exact .inr (Nat.le_refl _)
    · exact .inl ⟨co, hold, rfl⟩

theorem write (hlives : s.Lives coid.toNat co) (hserial : co'.serial = co.serial) :
    Meanwhile coid.toNat s (s.write coid co') where
  created_le := Nat.le_refl _
  length_le := by
    rw [Scheduler.write, List.length_set]
  kept := fun i co₁ hne hlives₁ => (lives_write hlives).mpr (.inr ⟨hne, hlives₁⟩)
  origin := by
    intro i co₁ hlives₁
    rcases (lives_write hlives).mp hlives₁ with ⟨rfl, rfl⟩ | ⟨-, hold⟩
    · exact .inl ⟨co, hlives, hserial.symm⟩
    · exact .inl ⟨co₁, hold, rfl⟩

theorem destroy (hlives : s.Lives coid.toNat co) :
    Meanwhile coid.toNat s (s.destroy coid) where
  created_le := Nat.le_refl _
  length_le := by
    rw [Scheduler.destroy, List.length_set]
  kept := fun i co₁ hne hlives₁ => (lives_destroy hlives).mpr ⟨hne, hlives₁⟩
  origin := fun i co₁ hlives₁ => .inl ⟨co₁, ((lives_destroy hlives).mp hlives₁).2, rfl⟩

theorem congr (h : Meanwhile k s s') {runningCoid : CorotId} {resumed : List Nat} :
    Meanwhile k s { s' with runningCoid, resumed } :=
  ⟨h.created_le, h.length_le, h.kept, h.origin⟩

end Meanwhile

/-- The scheduler has the processor. -/
structure Idle (s : Scheduler β) : Prop where
  sound : s.Sound
  othersWait : s.OthersWait
  running : s.runningCoid = scheduleTaskId

/-- The coroutine in the slot has it. -/
structure Runs (s : Scheduler β) (coid : CorotId) (co : Corot β) : Prop where
  sound : s.Sound
  othersWait : s.OthersWait
  running : s.runningCoid = coid
  lives : s.Lives coid.toNat co

theorem Sound.eq_id (h : s.Sound) (hlives : s.Lives coid.toNat co) : co.id = coid :=
  UInt32.toNat_inj.mp (h.id_eq _ co hlives)

theorem Runs.yieldRunningCorot (h : s.Runs coid co) (rest : β) :
    (s.yieldRunningCorot rest).Idle ∧ Meanwhile coid.toNat s (s.yieldRunningCorot rest) ∧
      (s.yieldRunningCorot rest).resumed = s.resumed := by
  have hrunning : s.getRunningCorot = some co := by
    rw [getRunningCorot, h.running]
    exact h.sound.getCorot_eq h.lives
  have heq : s.yieldRunningCorot rest =
      { s.write coid { co with ctx := rest, status := .sleeping } with
        runningCoid := scheduleTaskId } := by
    rw [Scheduler.yieldRunningCorot, hrunning, h.running]
  have hsound : (s.write coid { co with ctx := rest, status := .sleeping }).Sound :=
    h.sound.write h.lives rfl rfl
  have hmeanwhile : s.Meanwhile coid.toNat
      (s.write coid { co with ctx := rest, status := .sleeping }) := .write h.lives rfl
  rw [heq]
  refine ⟨⟨hsound.congr rfl rfl rfl, ?_, rfl⟩, hmeanwhile.congr, rfl⟩
  intro i co₁ hlives₁ _
  rcases (lives_write h.lives).mp hlives₁ with ⟨-, rfl⟩ | ⟨hne, hold⟩
  · exact ⟨rest, rfl⟩
  · refine h.othersWait i co₁ hold fun heq => hne ?_
    rw [← h.sound.id_eq i co₁ hold, heq, h.running]

theorem Runs.leave (h : s.Runs coid co) :
    (s.leave coid).Idle ∧ Meanwhile coid.toNat s (s.leave coid) ∧
      (s.leave coid).resumed = s.resumed := by
  rw [Scheduler.leave]
  refine ⟨⟨(h.sound.destroy h.lives).congr rfl rfl rfl, ?_, rfl⟩,
    (Meanwhile.destroy h.lives).congr, rfl⟩
  intro i co₁ hlives₁ _
  obtain ⟨hne, hold⟩ := (lives_destroy h.lives).mp hlives₁
  refine h.othersWait i co₁ hold fun heq => hne ?_
  rw [← h.sound.id_eq i co₁ hold, heq, h.running]

theorem Runs.create (h : s.Runs coid co) (hroom : ¬ s.Full) (func : β) :
    (s.create func).2.Runs coid co where
  sound := h.sound.create hroom func
  othersWait := h.sound.othersWait_create h.othersWait func
  running := by
    rw [create_runningCoid, h.running]
  lives := by
    refine h.sound.lives_create.mpr (.inr ⟨fun heq => ?_, h.lives⟩)
    exact h.sound.not_lives_create (heq ▸ h.lives)

end Scheduler

/-- By induction on the segment: the processor comes back to the scheduler. -/
theorem Segment.run_spec (segment : Segment γ β) (h : s.Runs coid co) (hfits : segment.Fits s) :
    (segment.run coid s).1.Idle ∧ s.Meanwhile coid.toNat (segment.run coid s).1 ∧
      (segment.run coid s).1.resumed = s.resumed := by
  induction segment generalizing s with
  | create func next ih =>
      obtain ⟨hroom, hfits⟩ := hfits
      obtain ⟨hidle, hmeanwhile, hresumed⟩ := ih _ (h.create hroom func) hfits
      exact ⟨hidle, (Scheduler.Meanwhile.create h.sound _ func).trans hmeanwhile,
        hresumed.trans (s.create_resumed func)⟩
  | getId next ih => exact ih _ h hfits
  | yield globals rest => exact h.yieldRunningCorot rest
  | exit globals => exact h.leave

theorem Scheduler.Idle.switchTo (h : s.Idle) (hlives : s.Lives coid.toNat co) :
    (s.switchTo coid co).Runs coid { co with status := .running } ∧
      s.Meanwhile coid.toNat (s.switchTo coid co) := by
  have hsound : (s.write coid { co with status := .running }).Sound :=
    h.sound.write hlives rfl rfl
  have hmeanwhile : s.Meanwhile coid.toNat (s.write coid { co with status := .running }) :=
    .write hlives rfl
  refine ⟨⟨hsound.congr rfl rfl rfl, ?_, h.sound.eq_id hlives, ?_⟩, hmeanwhile.congr⟩
  · intro i co₁ hlives₁ hne
    rcases (lives_write hlives).mp hlives₁ with ⟨-, rfl⟩ | ⟨-, hold⟩
    · exact absurd rfl hne
    · exact h.othersWait i co₁ hold (h.running ▸ h.sound.id_ne hold)
  · exact (lives_write hlives).mpr (.inl ⟨rfl, rfl⟩)

variable {code : γ → β → Segment γ β} {globals : γ}

theorem Scheduler.Idle.resumeCorot (h : s.Idle) (hlives : s.Lives coid.toNat co)
    (hfits : ∀ point, co.point = some point →
      (code globals point).Fits (s.switchTo coid co)) :
    (s.resumeCorot code coid globals).1.Idle ∧
      s.Meanwhile coid.toNat (s.resumeCorot code coid globals).1 ∧
      (s.resumeCorot code coid globals).1.resumed = s.resumed ++ [co.serial] := by
  have hget := h.sound.getCorot_eq hlives
  have hsleep : s.sleepRunning = s := by
    rw [sleepRunning, getRunningCorot_eq_none h.running]
  obtain ⟨point, hpoint⟩ := h.othersWait _ co hlives (h.running ▸ h.sound.id_ne hlives)
  have heq : s.resumeCorot code coid globals =
      (code globals point).run coid (s.switchTo coid co) := by
    rw [Scheduler.resumeCorot, hsleep, hget, if_neg (Option.some_ne_none co)]
    dsimp only
    rw [hpoint, h.sound.eq_id hlives]
  obtain ⟨hruns, hswitch⟩ := h.switchTo hlives
  obtain ⟨hidle, hmeanwhile, hresumed⟩ := (code globals point).run_spec hruns (hfits point hpoint)
  rw [heq]
  exact ⟨hidle, hswitch.trans hmeanwhile, hresumed⟩

end Segments

section Passes

variable {code : γ → β → Segment γ β} {w w' : World γ β} {p p' : Pass γ β} {r : List Nat}

/-- The loop of a call that was made with the scheduler `s` has come to a slot. The coroutines
`r` have been resumed, which are those of `s` in the slots before and perhaps new ones. -/
structure Pass.Going (s : Scheduler β) (r : List Nat) (p : Pass γ β) : Prop where
  idle : p.world.scheduler.Idle
  coid_le : p.coid.toNat ≤ p.world.scheduler.tasks.length
  created_le : s.created ≤ p.world.scheduler.created
  resumed_eq : p.world.scheduler.resumed = s.resumed ++ r
  ret_eq : p.ret.toNat = r.length
  length_le : r.length ≤ p.coid.toNat
  nodup : r.Nodup
  known : ∀ n ∈ r, n < p.world.scheduler.created ∧
    ((∃ i co, s.Lives i co ∧ co.serial = n) ∨ s.created ≤ n)
  origin : ∀ i co, p.world.scheduler.Lives i co →
    (∃ i co', s.Lives i co' ∧ co'.serial = co.serial) ∨ s.created ≤ co.serial
  behind : ∀ i co, s.Lives i co → i < p.coid.toNat → co.serial ∈ r
  ahead : ∀ i co, s.Lives i co → p.coid.toNat ≤ i → p.world.scheduler.Lives i co
  fresh : ∀ i co, p.world.scheduler.Lives i co → p.coid.toNat ≤ i → co.serial ∉ r
  unchanged : r = [] → p.world.scheduler.tasks = s.tasks

namespace Pass

theorem Going.start (h : w.scheduler.Idle) : Going w.scheduler [] (⟨0, 0, w⟩ : Pass γ β) where
  idle := h
  coid_le := Nat.zero_le _
  created_le := Nat.le_refl _
  resumed_eq := (List.append_nil _).symm
  ret_eq := rfl
  length_le := Nat.le_refl _
  nodup := List.nodup_nil
  known := fun _ hn => absurd hn List.not_mem_nil
  origin := fun i co hlives => .inl ⟨i, co, hlives, rfl⟩
  behind := fun i _ _ hlt => absurd hlt (Nat.not_lt_zero i)
  ahead := fun _ _ hlives _ => hlives
  fresh := fun _ _ _ _ => List.not_mem_nil
  unchanged := fun _ => rfl

theorem toNat_succ {coid : CorotId} {n : Nat} (h : coid.toNat < n) (hn : n < 2 ^ 32) :
    (coid + 1).toNat = coid.toNat + 1 := by
  rw [UInt32.toNat_add]
  change (coid.toNat + 1) % 2 ^ 32 = coid.toNat + 1
  omega

theorem Going.skip (h : Going s r p) (hlt : p.coid.toNat < p.world.scheduler.tasks.length)
    (hfree : ∀ co, ¬ p.world.scheduler.Lives p.coid.toNat co) :
    Going s r { p with coid := p.coid + 1 } := by
  have hsucc := toNat_succ hlt h.idle.sound.small
  have hne : ∀ i co, p.world.scheduler.Lives i co → p.coid.toNat ≤ i → p.coid.toNat + 1 ≤ i := by
    intro i co hlives hle
    refine Nat.lt_of_le_of_ne hle ?_
    rintro rfl
    exact hfree co hlives
  refine { h with
    coid_le := hsucc.trans_le hlt, length_le := ?_, behind := ?_, ahead := ?_, fresh := ?_ }
  · rw [hsucc]
    exact Nat.le_succ_of_le h.length_le
  · intro i co hlives hlt
    rw [hsucc] at hlt
    refine h.behind i co hlives (Nat.not_le.mp fun hle => ?_)
    exact absurd (hne i co (h.ahead i co hlives hle) hle) (Nat.not_le.mpr hlt)
  · intro i co hlives hle
    rw [hsucc] at hle
    exact h.ahead i co hlives (Nat.le_of_succ_le hle)
  · intro i co hlives hle
    rw [hsucc] at hle
    exact h.fresh i co hlives (Nat.le_of_succ_le hle)

theorem Going.resume (h : Going s r p) (hlives : p.world.scheduler.Lives p.coid.toNat co)
    {w : World γ β} (hidle : w.scheduler.Idle)
    (hmeanwhile : p.world.scheduler.Meanwhile p.coid.toNat w.scheduler)
    (hresumed : w.scheduler.resumed = p.world.scheduler.resumed ++ [co.serial]) :
    Going s (r ++ [co.serial]) ⟨p.coid + 1, p.ret + 1, w⟩ := by
  have hlt := lt_length_of_getElem? hlives
  have hsmall := h.idle.sound.small
  have hsucc := toNat_succ hlt hsmall
  have hret : (p.ret + 1).toNat = p.ret.toNat + 1 :=
    toNat_succ (n := p.world.scheduler.tasks.length)
      ((h.ret_eq.trans_le h.length_le).trans_lt hlt) hsmall
  have hknown := h.idle.sound.serial_lt _ co hlives
  refine {
    idle := hidle, coid_le := ?coid_le, created_le := h.created_le.trans hmeanwhile.created_le,
    resumed_eq := ?resumed_eq, ret_eq := ?ret_eq, length_le := ?length_le, nodup := ?nodup,
    known := ?known, origin := ?origin, behind := ?behind, ahead := ?ahead, fresh := ?fresh,
    unchanged := ?unchanged }
  case coid_le => exact hsucc.trans_le (Nat.succ_le_of_lt (hlt.trans_le hmeanwhile.length_le))
  case resumed_eq => rw [hresumed, h.resumed_eq, List.append_assoc]
  case ret_eq => rw [hret, h.ret_eq, List.length_append, List.length_singleton]
  case length_le =>
    rw [hsucc, List.length_append, List.length_singleton]
    exact Nat.succ_le_succ h.length_le
  case nodup =>
    refine List.nodup_append.mpr ⟨h.nodup, List.nodup_singleton _, fun n hn m hm => ?_⟩
    obtain rfl := List.mem_singleton.mp hm
    rintro rfl
    exact h.fresh _ co hlives (Nat.le_refl _) hn
  case known =>
    intro n hn
    rcases List.mem_append.mp hn with hn | hn
    · exact ⟨(h.known n hn).1.trans_le hmeanwhile.created_le, (h.known n hn).2⟩
    · obtain rfl := List.mem_singleton.mp hn
      exact ⟨hknown.trans_le hmeanwhile.created_le, h.origin _ co hlives⟩
  case origin =>
    intro i co₁ hlives₁
    rcases hmeanwhile.origin i co₁ hlives₁ with ⟨co₂, hlives₂, heq⟩ | hnew
    · rw [← heq]
      exact h.origin i co₂ hlives₂
    · exact .inr (h.created_le.trans hnew)
  case behind =>
    intro i co₁ hlives₁ hlt₁
    rw [hsucc] at hlt₁
    rcases Nat.lt_succ_iff_lt_or_eq.mp hlt₁ with hbehind | rfl
    · exact List.mem_append_left _ (h.behind i co₁ hlives₁ hbehind)
    · obtain rfl := (h.ahead _ co₁ hlives₁ (Nat.le_refl _)).unique hlives
      exact List.mem_append_right _ (List.mem_singleton_self _)
  case ahead =>
    intro i co₁ hlives₁ hle
    rw [hsucc] at hle
    exact hmeanwhile.kept i co₁ (Nat.ne_of_gt hle) (h.ahead i co₁ hlives₁ (Nat.le_of_succ_le hle))
  case fresh =>
    intro i co₁ hlives₁ hle hmem
    rw [hsucc] at hle
    -- It has been in its slot before, or is younger than all that have been resumed.
    rcases hmeanwhile.origin i co₁ hlives₁ with ⟨co₂, hlives₂, heq⟩ | hnew
    · rcases List.mem_append.mp hmem with hmem | hmem
      · exact h.fresh i co₂ hlives₂ (Nat.le_of_succ_le hle) (heq ▸ hmem)
      · have hsame := heq.trans (List.mem_singleton.mp hmem)
        exact Nat.ne_of_gt hle (h.idle.sound.serial_inj i _ co₂ co hlives₂ hlives hsame)
    · rcases List.mem_append.mp hmem with hmem | hmem
      · exact absurd (h.known _ hmem).1 (Nat.not_lt.mpr hnew)
      · exact absurd hknown (Nat.not_lt.mpr (List.mem_singleton.mp hmem ▸ hnew))
  case unchanged =>
    intro hnil
    exact absurd hnil (List.append_ne_nil_of_right_ne_nil _ (List.cons_ne_nil _ _))

theorem Going.turn (h : Going s r p) (hfits : p.Fits code)
    (hlt : p.coid.toNat < p.world.scheduler.tasks.length) :
    ∃ r' p', scheduleTurn code () p = .yield p' ∧ Going s r' p' ∧
      p'.coid.toNat = p.coid.toNat + 1 := by
  have hsucc := toNat_succ hlt h.idle.sound.small
  have hslot : p.world.scheduler.tasks.getD p.coid.toNat none =
      p.world.scheduler.tasks[p.coid.toNat] := by
    rw [List.getD_eq_getElem?_getD, List.getElem?_eq_getElem hlt]
    rfl
  rw [scheduleTurn, if_pos hlt, hslot]
  cases hco : p.world.scheduler.tasks[p.coid.toNat] with
  | none =>
      refine ⟨r, _, rfl, h.skip hlt fun co hlives => ?_, hsucc⟩
      rw [Scheduler.Lives, List.getElem?_eq_getElem hlt, hco] at hlives
      cases hlives
  | some co =>
      have hlives : p.world.scheduler.Lives p.coid.toNat co := by
        rw [Scheduler.Lives, List.getElem?_eq_getElem hlt, hco]
      obtain ⟨hidle, hmeanwhile, hresumed⟩ :=
        h.idle.resumeCorot hlives (hfits co (hslot.trans hco))
      exact ⟨_, _, rfl, h.resume hlives hidle hmeanwhile hresumed, hsucc⟩

theorem Going.loop (h : Going s r p)
    (hfits : ∀ q i, Comes (scheduleTurn code) (fun _ => ()) p i q → q.Fits code) {turns : Nat}
    (hturns : 2 ^ 32 ≤ turns + p.coid.toNat) :
    ∃ r' p', whileLoop (scheduleTurn code) (fun _ => ()) turns p = some p' ∧ Going s r' p' ∧
      p'.world.scheduler.tasks.length ≤ p'.coid.toNat := by
  induction turns generalizing p r with
  | zero => exact absurd p.coid.toNat_lt (Nat.not_lt.mpr (by omega))
  | succ turns ih =>
      rcases Nat.lt_or_ge p.coid.toNat p.world.scheduler.tasks.length with hlt | hle
      · obtain ⟨r', p', hturn, hgoing, hsucc⟩ := h.turn (hfits p () .here) hlt
        obtain ⟨r'', p'', hloop, hend⟩ :=
          ih hgoing (fun q i hcomes => hfits q i (.yield hturn hcomes)) (by omega)
        refine ⟨r'', p'', ?_, hend⟩
        rw [whileLoop, hturn]
        exact hloop
      · refine ⟨r, p, ?_, h, hle⟩
        rw [whileLoop, scheduleTurn, if_neg (Nat.not_lt.mpr hle)]

end Pass

/-- What a call of `doSchedule` has done: the coroutines `r` have been resumed, each of them
once, and all that there were before are among them. -/
structure Round (w : World γ β) (ret : UInt32) (w' : World γ β) (r : List Nat) : Prop where
  resumed_eq : w'.scheduler.resumed = w.scheduler.resumed ++ r
  nodup : r.Nodup
  mem : ∀ i co, w.scheduler.Lives i co → co.serial ∈ r
  known : ∀ n ∈ r, (∃ i co, w.scheduler.Lives i co ∧ co.serial = n) ∨ w.scheduler.created ≤ n
  ret_eq : ret.toNat = r.length
  none_left : ret = 0 → ∀ i co, ¬ w'.scheduler.Lives i co

theorem doSchedule_round (h : w.scheduler.Idle) (hfits : CallFits code w .doSchedule) :
    ∃ ret w' r, doSchedule code w = some (ret, w') ∧ w'.scheduler.Idle ∧ Round w ret w' r := by
  obtain ⟨r, p, hloop, hgoing, hend⟩ := (Pass.Going.start h).loop hfits (Nat.le_add_right _ _)
  have hmem : ∀ i co, w.scheduler.Lives i co → co.serial ∈ r := by
    intro i co hlives
    refine hgoing.behind i co hlives (Nat.not_le.mp fun hle => ?_)
    have hlt := lt_length_of_getElem? (hgoing.ahead i co hlives hle)
    exact absurd hlt (Nat.not_lt.mpr (hend.trans hle))
  refine ⟨p.ret, p.world, r, ?_, hgoing.idle, hgoing.resumed_eq, hgoing.nodup, hmem,
    fun n hn => (hgoing.known n hn).2, hgoing.ret_eq, fun hzero i co hlives => ?_⟩
  · rw [doSchedule, if_neg (not_not.mpr h.running), hloop]
    rfl
  · have hnil : r = [] := by
      apply List.eq_nil_of_length_eq_zero
      rw [← hgoing.ret_eq, hzero]
      rfl
    have hold : w.scheduler.Lives i co := by
      rw [Scheduler.Lives, ← hgoing.unchanged hnil]
      exact hlives
    exact absurd (hmem i co hold) (hnil ▸ List.not_mem_nil)

end Passes

section Runs

variable {code : γ → β → Segment γ β} {w : World γ β}

/-- Between two calls the free ids are the ones of the empty slots, each of them once, no two
coroutines have one id, and the scheduler is the one that runs. A call of `doSchedule` comes to
its end and is a round. -/
structure SoundIds (code : γ → β → Segment γ β) (w : World γ β) : Prop where
  nodup : w.scheduler.avaliableIds.Nodup
  mem_iff : ∀ i, (∃ coid ∈ w.scheduler.avaliableIds, coid.toNat = i) ↔
    w.scheduler.tasks[i]? = some none
  distinct : ∀ i j co co', w.scheduler.Lives i co → w.scheduler.Lives j co' → co.id = co'.id →
    i = j
  running : w.scheduler.runningCoid = scheduleTaskId
  round : CallFits code w .doSchedule → ∃ ret w' r,
    doSchedule code w = some (ret, w') ∧ Round w ret w' r

theorem idle_of_reaches (h : (system code).Reaches (CallFits code) w) : w.scheduler.Idle := by
  refine h.invariant (P := fun w => w.scheduler.Idle) ?_ ?_
  · intro w hinit
    have hstart : w.scheduler = {} := hinit
    rw [hstart]
    refine ⟨.empty, fun i co hlives => ?_, rfl⟩
    cases hlives
  · intro w a w' hidle _ hfits hstep
    cases a with
    | create func =>
        obtain rfl := Except.ok.inj hstep
        exact ⟨hidle.sound.create hfits func, hidle.sound.othersWait_create hidle.othersWait func,
          (Scheduler.create_runningCoid _ func).trans hidle.running⟩
    | doSchedule =>
        obtain ⟨ret, w₁, r, hround, hidle₁, -⟩ := doSchedule_round hidle hfits
        have hcall : call code w .doSchedule = .ok w₁ := by
          rw [call, hround]
        obtain rfl := Except.ok.inj (hcall.symm.trans hstep)
        exact hidle₁
    | assign globals =>
        obtain rfl := Except.ok.inj hstep
        exact hidle

theorem soundIds_of_reaches (h : (system code).Reaches (CallFits code) w) : SoundIds code w where
  nodup := (idle_of_reaches h).sound.free.nodup.of_map _
  mem_iff := by
    intro i
    rw [← (idle_of_reaches h).sound.free.mem_iff, List.mem_map]
  distinct := by
    intro i j co co' hi hj heq
    have hsound := (idle_of_reaches h).sound
    rw [← hsound.id_eq i co hi, ← hsound.id_eq j co' hj, heq]
  running := (idle_of_reaches h).running
  round := by
    intro hfits
    obtain ⟨ret, w', r, hround, -, hround'⟩ := doSchedule_round (idle_of_reaches h) hfits
    exact ⟨ret, w', r, hround, hround'⟩

end Runs

section Examples

structure Goods where
  g : Nat
  running : Bool
  deriving DecidableEq

inductive Place
  | producer
  | produced
  | consumer
  deriving DecidableEq

/-- The loop of `p` from its condition on. -/
def produce (goods : Goods) : Segment Goods Place :=
  if goods.running then
    if goods.g < 10 then .getId fun _ => .yield { goods with g := goods.g + 1 } .produced
    else .yield goods .produced
  else .exit goods

/-- The loop of `c`. -/
def consume (goods : Goods) : Segment Goods Place :=
  if goods.running then
    if 0 < goods.g then .getId fun _ => .yield { goods with g := goods.g - 1 } .consumer
    else .yield goods .consumer
  else .exit goods

/-- A producer that creates a consumer. -/
def producerConsumer (goods : Goods) : Place → Segment Goods Place
  | .producer => .create .consumer fun _ => produce goods
  | .produced => produce goods
  | .consumer => consume goods

/-- What there is when a producer has been created. -/
def producerCreated : World Goods Place where
  scheduler := (({} : Scheduler Place).create .producer).2
  globals := ⟨10, true⟩

/-- What there is after the first round. -/
def bothSleep : World Goods Place where
  scheduler := {
    tasks := [some ⟨0, .producer, .produced, .sleeping, 0⟩,
      some ⟨1, .consumer, .consumer, .sleeping, 1⟩]
    created := 2
    resumed := [0, 1] }
  globals := ⟨9, true⟩

theorem producerCreated_fits : CallFits producerConsumer producerCreated .doSchedule := by
  intro p i hcomes
  cases hcomes with
  | here => decide +kernel
  | @yield _ _ t _ _ hturn hcomes =>
      obtain rfl : ⟨1, 1, _⟩ = t := ForInStep.yield.inj hturn
      cases hcomes with
      | here => decide +kernel
      | @yield _ _ t _ _ hturn hcomes =>
          obtain rfl : ⟨2, 2, bothSleep⟩ = t := ForInStep.yield.inj hturn
          cases hcomes with
          | here => decide +kernel
          | yield hturn => cases hturn

/-- The consumer is resumed in the round in which it has been created. -/
theorem soundIds_of_reaches_bothSleep :
    doSchedule producerConsumer producerCreated = some (2, bothSleep) ∧
      SoundIds producerConsumer bothSleep := by
  have hround : doSchedule producerConsumer producerCreated = some (2, bothSleep) := by
    decide +kernel
  have hinit : (system producerConsumer).Init ⟨{}, ⟨10, true⟩⟩ := rfl
  have hroom : CallFits producerConsumer ⟨{}, ⟨10, true⟩⟩ (.create .producer) := by
    change ¬ ({} : Scheduler Place).Full
    decide
  have hcreated : (system producerConsumer).Reaches (CallFits producerConsumer) producerCreated :=
    .step (.init hinit) trivial hroom rfl
  have hcall : call producerConsumer producerCreated .doSchedule = .ok bothSleep := by
    rw [call, hround]
  exact ⟨hround, soundIds_of_reaches (.step hcreated trivial producerCreated_fits hcall)⟩

def many (n : Nat) : Scheduler Unit where
  tasks := (List.range n).map fun k => some ⟨UInt32.ofNat k, (), (), .ready, k⟩
  created := n

theorem create_many (n : Nat) : ((many n).create ()).2 = many (n + 1) := by
  rw [Scheduler.create_of_nil rfl, many, many, Scheduler.newCorot, Scheduler.create_of_nil rfl,
    List.range_succ, List.map_append, List.length_map, List.length_range]
  rfl

theorem after_replicate (m n : Nat) :
    (system fun _ _ => Segment.exit ()).after ⟨many m, ()⟩ (List.replicate n (.create ())) =
      ⟨many (m + n), ()⟩ := by
  induction n generalizing m with
  | zero => rfl
  | succ n ih =>
      have hcall : (system fun _ _ => Segment.exit ()).step ⟨many m, ()⟩ (.create ()) =
          .ok ⟨many (m + 1), ()⟩ := by
        rw [← create_many]
        rfl
      rw [List.replicate_succ, System.after_cons hcall, ih, Nat.add_assoc, Nat.add_comm 1]

/-- After `2 ^ 32 + 1` calls of `create` the first coroutine and the last one have the same
id. -/
theorem id_given_twice :
    ∃ w : World Unit Unit, (system fun _ _ => Segment.exit ()).Reaches (fun _ _ => True) w ∧
      w.scheduler.Lives 0 ⟨0, (), (), .ready, 0⟩ ∧
      w.scheduler.Lives (2 ^ 32) ⟨0, (), (), .ready, 2 ^ 32⟩ ∧
      ¬ SoundIds (fun _ _ => Segment.exit ()) w := by
  have hlives : ∀ k < 2 ^ 32 + 1,
      (many (2 ^ 32 + 1)).Lives k ⟨UInt32.ofNat k, (), (), .ready, k⟩ := by
    intro k hk
    rw [Scheduler.Lives, many, List.getElem?_map, List.getElem?_range hk]
    rfl
  have hfirst := hlives 0 (Nat.succ_pos _)
  have hlast := hlives (2 ^ 32) (Nat.lt_succ_self _)
  refine ⟨⟨many (2 ^ 32 + 1), ()⟩, ?_, hfirst, hlast, fun h => ?_⟩
  · have hinit : (system fun _ _ => Segment.exit ()).Reaches (fun _ _ => True) ⟨many 0, ()⟩ :=
      .init rfl
    have hafter := after_replicate 0 (2 ^ 32 + 1)
    rw [Nat.zero_add] at hafter
    rw [← hafter]
    exact hinit.after (System.fits_of_forall (fun _ _ => ⟨trivial, trivial⟩) _ _)
  · exact absurd (h.distinct _ _ _ _ hfirst hlast rfl) (Nat.two_pow_pos 32).ne

end Examples

end CasualGame.Coroutine
