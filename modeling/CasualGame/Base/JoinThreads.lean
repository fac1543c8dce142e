import CasualGame.Base.Process
import Mathlib.Data.List.Perm.Subperm

/-!
What the main thread of a process finds when it waits for the other threads.
-/

namespace CasualGame.Base.Process

open Lib.Run

section Waiting

variable {p p' : Process} {cfg : ProcessInfo} {m c : Member} {members : List Member}

/-- A thread stays in `m_threads` until its value has been fetched; when that was a failure, all
that are left have been told to stop. -/
structure Waiting (cfg : ProcessInfo) (p : Process) : Prop extends Lanching cfg p where
  uncaught : p.main ≠ .caught
  fresh : p.main.lanching = true →
    ∀ m ∈ cfg.members, m ∉ p.main.unlanched → (p.thread m).valid = true
  registered : ∀ m ∈ cfg.members, m ∉ p.main.rest → p.threads m = (p.thread m).valid
  ended : ∀ m ∈ cfg.members, m ∉ p.main.unlanched → (p.thread m).valid = false →
    ∃ ok, (p.thread m).result = some (.value ok)
  aborted : p.main.lanching = false → ∀ m ∈ cfg.members, (p.thread m).valid = false →
    (p.thread m).result = some (.value false) →
    ∀ c, p.threads c = true → (p.thread c).switch = false

namespace Waiting

theorem of_frame (h : Waiting cfg p) (hlanching : Lanching cfg p') (huncaught : p'.main ≠ .caught)
    (hrest : p'.main.rest = p.main.rest) (hunlanched : p'.main.unlanched = p.main.unlanched)
    (hmain : p'.main.lanching = p.main.lanching) (hthreads : p'.threads = p.threads)
    (hthread : ∀ m, (p'.thread m).valid = (p.thread m).valid ∧
      (p'.thread m).result = (p.thread m).result ∧
      ((p.thread m).switch = false → (p'.thread m).switch = false)) : Waiting cfg p' where
  toLanching := hlanching
  uncaught := huncaught
  fresh hl c hc hun := by
    rw [(hthread c).1]
    exact h.fresh (hmain ▸ hl) c hc (hunlanched ▸ hun)
  registered c hc hin := by
    rw [(hthread c).1, hthreads]
    exact h.registered c hc (hrest ▸ hin)
  ended c hc hun hvalid := by
    rw [(hthread c).2.1]
    exact h.ended c hc (hunlanched ▸ hun) ((hthread c).1 ▸ hvalid)
  aborted hl m hm hvalid hfailed c hc :=
    (hthread c).2.2 <| h.aborted (hmain ▸ hl) m hm ((hthread m).1 ▸ hvalid)
      ((hthread m).2.1 ▸ hfailed) c (hthreads ▸ hc)

theorem init (cfg : ProcessInfo) : Waiting cfg { main := .run cfg.members } where
  toLanching := .init cfg
  uncaught h := by cases h
  fresh _ m hm hun := absurd hm hun
  registered m hm hun := absurd hm hun
  ended m hm hun := absurd hm hun
  aborted h := by cases h

theorem stop (h : Waiting cfg p) : Waiting cfg p.stop := by
  refine h.of_frame h.toLanching.stop (by rw [stop_main]; exact h.uncaught) (by rw [stop_main])
    (by rw [stop_main]) (by rw [stop_main]) (stop_threads p) fun c =>
      ⟨stop_valid p c, stop_result p c, fun hswitch => ?_⟩
  rcases p.stop_thread_cases c with hstop | hsame
  · rw [hstop, ProcessThread.stop_switch]
  · rwa [hsame]

theorem run (h : Waiting cfg p) (hmain : p.main = .run (m :: members)) :
    Waiting cfg (p.run m members) := by
  have hlanching := h.toLanching.run hmain
  have hthreads : (p.run m members).threads = p.threads := by
    unfold Process.run
    split_ifs <;> rfl
  have hthread : (p.run m members).thread = Function.update p.thread m (p.thread m).run := by
    unfold Process.run
    split_ifs <;> rfl
  have hvalid : ∀ c ∈ cfg.members, c ∉ members →
      ((p.run m members).thread c).valid = true := by
    intro c hc hun
    rw [hthread]
    rcases eq_or_ne c m with rfl | hne
    · rw [Function.update_self]
      rfl
    · rw [Function.update_of_ne hne]
      apply h.fresh (by rw [hmain]; rfl) c hc
      rw [hmain]
      change c ∉ m :: members
      rw [List.mem_cons, or_iff_right hne]
      exact hun
  refine ⟨hlanching, ?_, fun _ => hvalid, fun c hc hun => ?_, fun c hc hun hnot => ?_, ?_⟩
  · rintro ⟨⟩
  · have hun' : c ∉ m :: members := hun
    have hne : c ≠ m := fun heq => hun' (heq ▸ List.mem_cons_self)
    rw [hthreads, hthread, Function.update_of_ne hne]
    exact h.registered c hc (by rwa [hmain])
  · rw [hvalid c hc hun] at hnot
    cases hnot
  · rintro ⟨⟩

theorem insert (h : Waiting cfg p) (hmain : p.main = .insert m members) :
    Waiting cfg (p.insert m members) := by
  have hvalid : ∀ c ∈ cfg.members, c ∉ members → (p.thread c).valid = true := by
    intro c hc hun
    exact h.fresh (by rw [hmain]; rfl) c hc (by rwa [hmain])
  refine ⟨h.toLanching.insert hmain, ?_, fun _ => hvalid, fun c hc hun => ?_,
    fun c hc hun hnot => ?_, ?_⟩
  · rintro ⟨⟩
  · change Function.update p.threads m true c = (p.thread c).valid
    rw [hvalid c hc hun]
    rcases eq_or_ne c m with rfl | hne
    · rw [Function.update_self]
    · rw [Function.update_of_ne hne, h.registered c hc, hvalid c hc hun]
      rw [hmain]
      change c ∉ m :: members
      rw [List.mem_cons, or_iff_right hne]
      exact hun
  · cases (hvalid c hc hun).symm.trans hnot
  · rintro ⟨⟩

theorem lanched (h : Waiting cfg p) (hlanching : Lanching cfg { p with main := .join })
    (hmain : p.main = .run []) : Waiting cfg { p with main := .join } := by
  have hvalid : ∀ c ∈ cfg.members, (p.thread c).valid = true := by
    intro c hc
    exact h.fresh (by rw [hmain]; rfl) c hc (by rw [hmain]; exact List.not_mem_nil)
  refine ⟨hlanching, ?_, ?_, fun c hc _ => ?_, fun c hc _ hnot => ?_, fun _ c hc hnot => ?_⟩
  · rintro ⟨⟩
  · rintro ⟨⟩
  · exact h.registered c hc (by rw [hmain]; exact List.not_mem_nil)
  · cases (hvalid c hc).symm.trans hnot
  · cases (hvalid c hc).symm.trans hnot

theorem fetch (h : Waiting cfg p) {p' : Process} {ok : Bool} (hlanching : Lanching cfg p')
    (hmain : p.main = .wait (m :: members)) (hmain' : p'.main = .join)
    (hresult : (p.thread m).result = some (.value ok))
    (hthreads : p'.threads = Function.update p.threads m false)
    (hvalid : ∀ c, (p'.thread c).valid = if c = m then false else (p.thread c).valid)
    (hresult' : ∀ c, (p'.thread c).result = (p.thread c).result)
    (hswitch : ∀ c, (p.thread c).switch = false → (p'.thread c).switch = false)
    (hfailed : ok = false → ∀ c, p'.threads c = true → (p'.thread c).switch = false) :
    Waiting cfg p' := by
  have hout : ∀ c, c ∉ p.main.rest ∧ c ∉ p.main.unlanched := by
    intro c
    rw [hmain]
    exact ⟨List.not_mem_nil, List.not_mem_nil⟩
  refine ⟨hlanching, ?_, fun hl => ?_, fun c hc _ => ?_, fun c hc _ hnot => ?_,
    fun _ c hc hnot hno d hd => ?_⟩
  · rw [hmain']
    rintro ⟨⟩
  · rw [hmain'] at hl
    cases hl
  · rw [hthreads, hvalid, Function.update_apply]
    split_ifs
    · rfl
    · exact h.registered c hc (hout c).1
  · rw [hresult']
    rw [hvalid] at hnot
    split_ifs at hnot with heq
    · exact ⟨ok, heq ▸ hresult⟩
    · exact h.ended c hc (hout c).2 hnot
  · rw [hresult'] at hno
    rw [hvalid] at hnot
    split_ifs at hnot with heq
    · have hok : ok = false := by
        rw [heq, hresult] at hno
        cases hno
        rfl
      exact hfailed hok d hd
    · refine hswitch d (h.aborted (by rw [hmain]; rfl) c hc hnot hno d ?_)
      rw [hthreads, Function.update_apply] at hd
      split_ifs at hd
      exact hd

theorem move (h : Waiting cfg p) {p' : Process} (hlanching : Lanching cfg p')
    (huncaught : p'.main ≠ .caught) (hmain : p.main.lanching = false)
    (hrest : p.main.rest = []) (hunlanched : p.main.unlanched = [])
    (hmain' : p'.main.lanching = false) (hrest' : p'.main.rest = [])
    (hunlanched' : p'.main.unlanched = []) (hthreads : p'.threads = p.threads)
    (hthread : p'.thread = p.thread) : Waiting cfg p' :=
  h.of_frame hlanching huncaught (hrest'.trans hrest.symm) (hunlanched'.trans hunlanched.symm)
    (hmain'.trans hmain.symm) hthreads fun _ => by
      rw [hthread]
      exact ⟨rfl, rfl, id⟩

theorem ends (h : Waiting cfg p) {ret : Return} (hlanched : (p.thread m).lanched = true)
    (hresult : (p.thread m).result = none) :
    Waiting cfg (p.setThread m { p.thread m with result := some ret }) := by
  obtain ⟨hm, hun⟩ := (h.lanched_iff m).mp hlanched
  have hvalid : (p.thread m).valid = true := by
    rw [← Bool.not_eq_false]
    intro hnot
    obtain ⟨ok, hok⟩ := h.ended m hm hun hnot
    cases hresult.symm.trans hok
  have hother : ∀ c, (p.thread c).valid = false →
      (p.setThread m { p.thread m with result := some ret }).thread c = p.thread c := by
    intro c hnot
    apply setThread_of_ne
    rintro rfl
    cases hvalid.symm.trans hnot
  have hsame : ∀ c, ((p.setThread m { p.thread m with result := some ret }).thread c).valid =
        (p.thread c).valid ∧
      ((p.setThread m { p.thread m with result := some ret }).thread c).switch =
        (p.thread c).switch := by
    intro c
    rcases eq_or_ne c m with rfl | hne
    · rw [setThread_self]
      exact ⟨rfl, rfl⟩
    · rw [setThread_of_ne p _ hne]
      exact ⟨rfl, rfl⟩
  refine ⟨h.toLanching.ends ret, h.uncaught, fun hl c hc hin => ?_, fun c hc hin => ?_,
    fun c hc hin hnot => ?_, fun hl c hc hnot hfailed d hd => ?_⟩
  · rw [(hsame c).1]
    exact h.fresh hl c hc hin
  · rw [(hsame c).1]
    exact h.registered c hc hin
  · rw [(hsame c).1] at hnot
    rw [hother c hnot]
    exact h.ended c hc hin hnot
  · rw [(hsame c).1] at hnot
    rw [hother c hnot] at hfailed
    rw [(hsame d).2]
    exact h.aborted hl c hc hnot hfailed d hd

theorem fetched_valid (p : Process) (h : m.entry = m) (c : Member) :
    ((p.fetched m).thread c).valid = if c = m then false else (p.thread c).valid := by
  rw [Process.fetched, h]
  split_ifs with heq
  · rw [heq, setThread_self]
  · rw [setThread_of_ne p _ heq]

theorem fetched_result (p : Process) (m c : Member) :
    ((p.fetched m).thread c).result = (p.thread c).result := by
  rw [Process.fetched]
  rcases eq_or_ne c m.entry with rfl | hne
  · rw [setThread_self]
  · rw [setThread_of_ne p _ hne]

theorem fetched_switch (p : Process) (m c : Member) :
    ((p.fetched m).thread c).switch = (p.thread c).switch := by
  rw [Process.fetched]
  rcases eq_or_ne c m.entry with rfl | hne
  · rw [setThread_self]
  · rw [setThread_of_ne p _ hne]

variable (hhttp : cfg.httpListen = false)

include hhttp

theorem entry_eq (hm : m ∈ cfg.members) : m.entry = m := by
  apply Member.entry_eq_self
  rintro rfl
  rw [ProcessInfo.httpConns_mem_members, hhttp] at hm
  cases hm

theorem threw_of_caught (h : Waiting cfg p) (hmain : p.main = .wait (m :: members))
    (hthrown : (p.thread m.entry).valid = false ∨ (p.thread m.entry).Threw) :
    m ∈ cfg.members ∧ (p.thread m).Threw := by
  have hregistered := h.waiting _ hmain m List.mem_cons_self
  obtain ⟨hm, hin⟩ := h.known m hregistered
  rw [entry_eq hhttp hm] at hthrown
  refine ⟨hm, hthrown.resolve_left fun hnot => ?_⟩
  rw [h.registered m hm hin, hnot] at hregistered
  cases hregistered

theorem step (h : Waiting cfg p) (hstep : Step cfg p p') :
    (p'.main = .caught ∧ ∃ m ∈ cfg.members, (p'.thread m).Threw) ∨ Waiting cfg p' := by
  have hlanching := h.toLanching.step hstep
  cases hstep with
  | run hmain => exact .inr (h.run hmain)
  | insert hmain => exact .inr (h.insert hmain)
  | lanched hmain => exact .inr (h.lanched hlanching hmain)
  | joined hmain hthreads =>
      exact .inr <| h.move hlanching (by rintro ⟨⟩) (by rw [hmain]; rfl) (by rw [hmain]; rfl)
        (by rw [hmain]; rfl) rfl rfl rfl rfl rfl
  | look hmain hthreads suspended =>
      exact .inr <| h.move hlanching (by rintro ⟨⟩) (by rw [hmain]; rfl) (by rw [hmain]; rfl)
        (by rw [hmain]; rfl) rfl rfl rfl rfl rfl
  | around hmain =>
      exact .inr <| h.move hlanching (by rintro ⟨⟩) (by rw [hmain]; rfl) (by rw [hmain]; rfl)
        (by rw [hmain]; rfl) rfl rfl rfl rfl rfl
  | timeout hmain hresult =>
      exact .inr <| h.move hlanching (by rintro ⟨⟩) (by rw [hmain]; rfl) (by rw [hmain]; rfl)
        (by rw [hmain]; rfl) rfl rfl rfl rfl rfl
  | @succeeded m members hmain hvalid hresult =>
      have hm := h.known m (h.waiting _ hmain m List.mem_cons_self)
      have hentry := entry_eq hhttp hm.1
      rw [hentry] at hresult
      right
      refine h.fetch hlanching hmain rfl hresult rfl (fetched_valid p hentry) (fetched_result p m)
        (fun c hswitch => ?_) (by rintro ⟨⟩)
      rwa [← fetched_switch p m c] at hswitch
  | @failed m members hmain hvalid hresult =>
      have hm := h.known m (h.waiting _ hmain m List.mem_cons_self)
      have hentry := entry_eq hhttp hm.1
      rw [hentry] at hresult
      right
      refine h.fetch hlanching hmain rfl hresult ?_ (fun c => ?_) (fun c => ?_)
        (fun c hswitch => ?_) (fun _ c hc => ?_)
      · change Function.update (p.fetched m).stop.threads m false = _
        rw [stop_threads]
        rfl
      · change ((p.fetched m).stop.thread c).valid = _
        rw [stop_valid, fetched_valid p hentry]
      · change ((p.fetched m).stop.thread c).result = _
        rw [stop_result, fetched_result]
      · change ((p.fetched m).stop.thread c).switch = false
        rcases (p.fetched m).stop_thread_cases c with hstop | hsame
        · rw [hstop, ProcessThread.stop_switch]
        · rwa [hsame, fetched_switch]
      · change Function.update (p.fetched m).stop.threads m false c = true at hc
        rw [stop_threads, Function.update_apply] at hc
        split_ifs at hc
        have hknown : p.threads c = true := hc
        have hself := entry_eq hhttp (h.known c hknown).1
        have hstopped := (p.fetched m).stop_thread_of_entry (m := c) hknown
        rw [hself] at hstopped
        change ((p.fetched m).stop.thread c).switch = false
        rw [hstopped, ProcessThread.stop_switch]
  | @caught m members q hmain hq hthrown ret =>
      left
      obtain ⟨hm, hthrew⟩ := threw_of_caught hhttp h hmain hthrown
      have hsame : (q.thread m).Threw := by
        rcases hq with rfl | rfl
        · exact hthrew
        · rwa [ProcessThread.Threw, fetched_result]
      rcases q.catchException_cases ret with hcaught | hcaught
      · rw [hcaught]
        exact ⟨rfl, m, hm, hsame⟩
      · rw [hcaught]
        refine ⟨rfl, m, hm, ?_⟩
        change (q.stop.thread m).Threw
        rwa [ProcessThread.Threw, stop_result]
  | signal => exact .inr h.stop
  | ends hlanched hresult => exact .inr (h.ends hlanched hresult)

end Waiting

theorem Threw.step (hthrew : (p.thread m).Threw) (hmain : p.main = .caught)
    (hstep : Step cfg p p') : p'.main = .caught ∧ (p'.thread m).Threw := by
  cases hstep with
  | signal =>
      rw [stop_main, ProcessThread.Threw, stop_result]
      exact ⟨hmain, hthrew⟩
  | @ends c ret hlanched hresult =>
      refine ⟨hmain, ?_⟩
      rw [setThread_of_ne]
      · exact hthrew
      · rintro rfl
        rcases hthrew with hthrew | hthrew <;> cases hresult.symm.trans hthrew
  | _ hmain' => cases hmain.symm.trans hmain'

end Waiting

section Runs

variable {p p' : Process} {cfg : ProcessInfo} {m c : Member} {members : List Member}
  {C : Process → Act → Prop}

theorem Lanching.of_reaches (h : (system cfg).Reaches C p) : Lanching cfg p := by
  refine h.invariant (fun p hp => ?_) fun p act p' hp _ _ hstep => hp.step (step_cases hstep)
  obtain rfl : p = _ := hp
  exact .init cfg

theorem Waiting.of_reaches (hhttp : cfg.httpListen = false) (h : (system cfg).Reaches C p) :
    (p.main = .caught ∧ ∃ m ∈ cfg.members, (p.thread m).Threw) ∨ Waiting cfg p := by
  refine h.invariant (P := fun p => (p.main = .caught ∧ ∃ m ∈ cfg.members, (p.thread m).Threw) ∨
    Waiting cfg p) (fun p hp => .inr ?_) fun p act p' hp _ _ hstep => ?_
  · obtain rfl : p = _ := hp
    exact .init cfg
  · rcases hp with ⟨hmain, m, hm, hthrew⟩ | hp
    · obtain ⟨hmain', hthrew'⟩ := Threw.step hthrew hmain (step_cases hstep)
      exact .inl ⟨hmain', m, hm, hthrew'⟩
    · exact hp.step hhttp (step_cases hstep)

end Runs

section Http

variable {p p' : Process} {cfg : ProcessInfo} {m c : Member} {members : List Member}
  {C : Process → Act → Prop}

/-- The timer stands in `m_threads` twice, and the thread of the http connections does not. -/
structure Unjoined (cfg : ProcessInfo) (p : Process) : Prop where
  httpConns : (p.thread .httpConns).lanched = true →
    (p.thread .httpConns).switch = true ∧ (p.thread .httpConns).valid = true
  inserted : p.main.lanching = true → ∀ m ∈ cfg.members, m ∉ p.main.rest → p.threads m = true
  one : p.main.lanching = false → p.main ≠ .caught →
    p.threads .httpConns = true ∨ p.threads .timer = true
  both : p.main.lanching = false → p.main ≠ .caught → (p.thread .timer).valid = true →
    p.threads .httpConns = true ∧ p.threads .timer = true

namespace Unjoined

theorem timer_mem_members (cfg : ProcessInfo) : .timer ∈ cfg.members := by
  rw [ProcessInfo.members, List.mem_append]
  exact .inr (by decide)

theorem of_frame (h : Unjoined cfg p) (hmain : p.main.lanching = false)
    (huncaught : p.main ≠ .caught) (hmain' : p'.main.lanching = false)
    (hthreads : p'.threads = p.threads)
    (hconns : p'.thread .httpConns = p.thread .httpConns)
    (htimer : (p'.thread .timer).valid = (p.thread .timer).valid) : Unjoined cfg p' where
  httpConns := by
    rw [hconns]
    exact h.httpConns
  inserted hl := by cases hmain'.symm.trans hl
  one _ _ := by
    rw [hthreads]
    exact h.one hmain huncaught
  both _ _ := by
    rw [hthreads, htimer]
    exact h.both hmain huncaught

theorem fetch (h : Unjoined cfg p) (hmain : p.main = .wait (m :: members))
    (hmain' : p'.main.lanching = false) (hvalid : (p.thread m.entry).valid = true)
    (hthreads : p'.threads = Function.update p.threads m false)
    (hconns : p'.thread .httpConns = p.thread .httpConns)
    (htimer : (p'.thread .timer).valid =
      if m.entry = .timer then false else (p.thread .timer).valid) : Unjoined cfg p' := by
  have hl : p.main.lanching = false ∧ p.main ≠ .caught := by
    rw [hmain]
    refine ⟨rfl, ?_⟩
    rintro ⟨⟩
  refine ⟨?_, fun hl' => ?_, fun _ _ => ?_, fun _ _ hstill => ?_⟩
  · rw [hconns]
    exact h.httpConns
  · cases hmain'.symm.trans hl'
  · rw [hthreads]
    rcases Classical.em (m.entry = .timer) with hentry | hentry
    · rw [hentry] at hvalid
      have htwice := h.both hl.1 hl.2 hvalid
      rcases Member.entry_eq_timer hentry with rfl | rfl
      · exact .inr htwice.2
      · exact .inl htwice.1
    · have hne : m ≠ .httpConns ∧ m ≠ .timer := by
        constructor <;> rintro rfl <;> exact hentry rfl
      rw [Function.update_of_ne hne.1.symm, Function.update_of_ne hne.2.symm]
      exact h.one hl.1 hl.2
  · rw [htimer] at hstill
    split_ifs at hstill with hentry
    have hne : m ≠ .httpConns ∧ m ≠ .timer := by
      constructor <;> rintro rfl <;> exact hentry rfl
    rw [hthreads, Function.update_of_ne hne.1.symm, Function.update_of_ne hne.2.symm]
    exact h.both hl.1 hl.2 hstill

theorem fetched_httpConns (p : Process) (m : Member) :
    (p.fetched m).thread .httpConns = p.thread .httpConns :=
  setThread_of_ne p _ m.entry_ne_httpConns.symm

theorem fetched_timer (p : Process) (m : Member) :
    ((p.fetched m).thread .timer).valid =
      if m.entry = .timer then false else (p.thread .timer).valid := by
  rw [Process.fetched]
  split_ifs with hentry
  · rw [hentry, setThread_self]
  · rw [setThread_of_ne p _ (Ne.symm hentry)]

theorem caught (h : Unjoined cfg p) (hmain' : p'.main = .caught)
    (hconns : p'.thread .httpConns = p.thread .httpConns) : Unjoined cfg p' := by
  refine ⟨?_, fun hl => ?_, fun _ hne => absurd hmain' hne, fun _ hne => absurd hmain' hne⟩
  · rw [hconns]
    exact h.httpConns
  · rw [hmain'] at hl
    cases hl

theorem stop (h : Unjoined cfg p) : Unjoined cfg p.stop := by
  refine ⟨?_, ?_, ?_, ?_⟩
  · rw [stop_thread_httpConns]
    exact h.httpConns
  · rw [stop_main, stop_threads]
    exact h.inserted
  · rw [stop_main, stop_threads]
    exact h.one
  · rw [stop_main, stop_threads, stop_valid]
    exact h.both

variable (hhttp : cfg.httpListen = true)

include hhttp

theorem step (h : Unjoined cfg p) (hstep : Step cfg p p') : Unjoined cfg p' := by
  have hframe : ∀ main suspended, p.main.lanching = false → p.main ≠ .caught →
      main.lanching = false → Unjoined cfg { p with main, suspended } :=
    fun _ _ hmain hne hmain' => h.of_frame hmain hne hmain' rfl rfl rfl
  cases hstep with
  | @run m members hmain =>
      have hthreads : (p.run m members).threads = p.threads := by
        unfold Process.run
        split_ifs <;> rfl
      have hthread : (p.run m members).thread =
          Function.update p.thread m (p.thread m).run := by
        unfold Process.run
        split_ifs <;> rfl
      refine ⟨?_, fun _ c hc hin => ?_, ?_, ?_⟩
      · rw [hthread]
        rcases eq_or_ne .httpConns m with rfl | hne
        · rw [Function.update_self]
          exact fun _ => ⟨rfl, rfl⟩
        · rw [Function.update_of_ne hne]
          exact h.httpConns
      · rw [hthreads]
        exact h.inserted (by rw [hmain]; rfl) c hc (by rwa [hmain])
      · rintro ⟨⟩
      · rintro ⟨⟩
  | @insert m members hmain =>
      refine ⟨h.httpConns, fun _ c hc hin => ?_, ?_, ?_⟩
      · change Function.update p.threads m true c = true
        rcases eq_or_ne c m with rfl | hne
        · rw [Function.update_self]
        · rw [Function.update_of_ne hne]
          apply h.inserted (by rw [hmain]; rfl) c hc
          rw [hmain]
          change c ∉ m :: members
          rw [List.mem_cons, or_iff_right hne]
          exact hin
      · rintro ⟨⟩
      · rintro ⟨⟩
  | lanched hmain =>
      have hall : ∀ m ∈ cfg.members, p.threads m = true := fun m hm =>
        h.inserted (by rw [hmain]; rfl) m hm (by rw [hmain]; exact List.not_mem_nil)
      have hconns := hall _ (ProcessInfo.httpConns_mem_members.mpr hhttp)
      refine ⟨h.httpConns, ?_, fun _ _ => .inl hconns, fun _ _ _ => ⟨hconns, ?_⟩⟩
      · rintro ⟨⟩
      · exact hall _ (timer_mem_members cfg)
  | joined hmain hthreads => exact hframe _ _ (by rw [hmain]; rfl) (by rw [hmain]; rintro ⟨⟩) rfl
  | look hmain hthreads suspended =>
      exact hframe _ _ (by rw [hmain]; rfl) (by rw [hmain]; rintro ⟨⟩) rfl
  | around hmain => exact hframe _ _ (by rw [hmain]; rfl) (by rw [hmain]; rintro ⟨⟩) rfl
  | timeout hmain hresult =>
      exact hframe _ _ (by rw [hmain]; rfl) (by rw [hmain]; rintro ⟨⟩) rfl
  | @succeeded m members hmain hvalid hresult =>
      exact h.fetch hmain rfl hvalid rfl (fetched_httpConns p m) (fetched_timer p m)
  | @failed m members hmain hvalid hresult =>
      refine h.fetch hmain rfl hvalid ?_ ?_ ?_
      · change Function.update (p.fetched m).stop.threads m false = _
        rw [stop_threads]
        rfl
      · exact (stop_thread_httpConns _).trans (fetched_httpConns p m)
      · exact (stop_valid _ _).trans (fetched_timer p m)
  | @caught m members q hmain hq hthrown ret =>
      have hconns : q.thread .httpConns = p.thread .httpConns := by
        rcases hq with rfl | rfl
        · rfl
        · exact fetched_httpConns p m
      rcases q.catchException_cases ret with hcaught | hcaught
      · rw [hcaught]
        exact h.caught rfl hconns
      · rw [hcaught]
        exact h.caught rfl ((stop_thread_httpConns q).trans hconns)
  | signal => exact h.stop
  | @ends m ret hlanched hresult =>
      have hsame : ∀ c, ((p.setThread m { p.thread m with result := some ret }).thread c).valid =
            (p.thread c).valid ∧
          ((p.setThread m { p.thread m with result := some ret }).thread c).lanched =
            (p.thread c).lanched ∧
          ((p.setThread m { p.thread m with result := some ret }).thread c).switch =
            (p.thread c).switch := by
        intro c
        rcases eq_or_ne c m with rfl | hne
        · rw [setThread_self]
          exact ⟨rfl, rfl, rfl⟩
        · rw [setThread_of_ne p _ hne]
          exact ⟨rfl, rfl, rfl⟩
      refine ⟨?_, h.inserted, h.one, ?_⟩
      · obtain ⟨hvalid, hlanched, hswitch⟩ := hsame .httpConns
        rw [hvalid, hlanched, hswitch]
        exact h.httpConns
      · rw [(hsame .timer).1]
        exact h.both

end Unjoined

/-- A process that listens for http: `joinThreads` comes to no end but by an exception, and the
thread of the http connections is never told to stop nor waited for. -/
theorem unjoined_of_reaches (hhttp : cfg.httpListen = true) (h : (system cfg).Reaches C p) :
    p.main ≠ .joined ∧ ((p.thread .httpConns).lanched = true →
      (p.thread .httpConns).switch = true ∧ (p.thread .httpConns).valid = true) := by
  have hunjoined : Unjoined cfg p := by
    refine h.invariant (fun p hp => ?_) fun p act p' hp _ _ hstep =>
      hp.step hhttp (step_cases hstep)
    obtain rfl : p = _ := hp
    refine ⟨fun hl => ?_, fun _ m hm hin => absurd hm hin, ?_, ?_⟩
    · cases hl
    · rintro ⟨⟩
    · rintro ⟨⟩
  refine ⟨fun hjoined => ?_, hunjoined.httpConns⟩
  have hempty := (Lanching.of_reaches h).empty hjoined
  have hone : p.threads .httpConns = true ∨ p.threads .timer = true := by
    apply hunjoined.one
    · rw [hjoined]
      rfl
    · rw [hjoined]
      rintro ⟨⟩
  rcases hone with hone | hone <;> cases (hempty _).symm.trans hone

theorem unjoined_of_signal :
    let cfg : ProcessInfo := ⟨false, 0, false, true, false⟩
    let p := (system cfg).after { main := .run cfg.members } <|
      List.replicate 11 (.start 0) ++ [.signal, .ends .timer (.value true)] ++
        List.replicate 10 (.start 0)
    p.main = .caught ∧ (p.main ≠ .joined ∧ ((p.thread .httpConns).lanched = true →
      (p.thread .httpConns).switch = true ∧ (p.thread .httpConns).valid = true)) :=
  ⟨rfl, @unjoined_of_reaches _ ⟨false, 0, false, true, false⟩ (fun _ _ => True) rfl <|
    .after (.init rfl) <| System.fits_of_forall (fun _ _ => ⟨trivial, trivial⟩) _ _⟩

end Http

section Ending

variable {p p' : Process} {cfg : ProcessInfo} {m c : Member} {members : List Member}
  {C : Process → Act → Prop}

/-- How many steps of the main thread are left at most when all other threads have ended. -/
def stepsLeft (p : Process) : Nat :=
  match p.main with
  | .join => 2 * p.entries.length + 1
  | .wait [] => 2 * p.entries.length + 2
  | .wait (_ :: _) => 2 * p.entries.length
  | _ => 0

/-- All threads have ended with a value, and the main thread waits for them. -/
structure Ending (cfg : ProcessInfo) (p : Process) : Prop extends Waiting cfg p where
  lanching : p.main.lanching = false
  values : ∀ m ∈ cfg.members, ∃ ok, (p.thread m).result = some (.value ok)

theorem erase_entries_length (h : p.threads m = true) :
    (p.erase m).entries.length < p.entries.length := by
  have hfilter : (p.erase m).entries = p.entries.filter (· ≠ m) := by
    rw [entries, entries, List.filter_filter]
    apply List.filter_congr
    intro c _
    change Function.update p.threads m false c = _
    rcases eq_or_ne c m with rfl | hne
    · rw [Function.update_self, decide_not, decide_eq_true rfl]
      rfl
    · rw [Function.update_of_ne hne, decide_eq_true hne, Bool.true_and]
  rw [hfilter, List.length_filter_lt_length_iff_exists]
  exact ⟨m, mem_entries.mpr h, by simp⟩

namespace Ending

theorem of_step (hhttp : cfg.httpListen = false) (h : Ending cfg p) (hstep : Step cfg p p')
    (huncaught : p'.main ≠ .caught) (hlanching : p'.main.lanching = false)
    (hresult : ∀ c, (p'.thread c).result = (p.thread c).result) : Ending cfg p' := by
  refine ⟨(h.toWaiting.step hhttp hstep).resolve_left fun hcaught => huncaught hcaught.1,
    hlanching, fun m hm => ?_⟩
  rw [hresult]
  exact h.values m hm

theorem wait_fetches (hhttp : cfg.httpListen = false) (h : Ending cfg p)
    (hmain : p.main = .wait (m :: members)) :
    (p.wait m members).main = .join ∧
      (p.wait m members).entries = (p.erase m).entries ∧
      ∀ c, ((p.wait m members).thread c).result = (p.thread c).result := by
  have hregistered := h.waiting _ hmain m List.mem_cons_self
  obtain ⟨hm, hin⟩ := h.known m hregistered
  have hvalid : (p.thread m.entry).valid = true := by
    rw [Waiting.entry_eq hhttp hm, ← h.registered m hm hin, hregistered]
  obtain ⟨ok, hok⟩ := h.values m hm
  rw [← Waiting.entry_eq hhttp hm] at hok
  rw [Process.wait, ProcessThread.wait_of_some hvalid hok]
  cases ok with
  | true => exact ⟨rfl, rfl, Waiting.fetched_result p m⟩
  | false =>
      refine ⟨rfl, ?_, fun c => ?_⟩
      · change Member.all.filter (Function.update (p.fetched m).stop.threads m false) = _
        rw [stop_threads]
        rfl
      · change ((p.fetched m).stop.thread c).result = _
        rw [stop_result, Waiting.fetched_result]

theorem start (hhttp : cfg.httpListen = false) (h : Ending cfg p) (hmain : p.main ≠ .joined)
    (privateConns : Nat) : ∃ p', p.start cfg privateConns = .ok p' ∧ Ending cfg p' ∧
      p'.stepsLeft < p.stepsLeft := by
  have hnext : ∀ p', p.start cfg privateConns = .ok p' → p'.main ≠ .caught →
      p'.main.lanching = false → (∀ c, (p'.thread c).result = (p.thread c).result) →
      p'.stepsLeft < p.stepsLeft →
      ∃ p', p.start cfg privateConns = .ok p' ∧ Ending cfg p' ∧ p'.stepsLeft < p.stepsLeft :=
    fun p' hp' huncaught hlanching hresult hless =>
      ⟨p', hp', h.of_step hhttp (start_step hp') huncaught hlanching hresult, hless⟩
  have hlanching := h.lanching
  cases hwhere : p.main with
  | run members =>
      rw [hwhere] at hlanching
      cases hlanching
  | insert m members =>
      rw [hwhere] at hlanching
      cases hlanching
  | joined => exact absurd hwhere hmain
  | caught => exact absurd hwhere h.uncaught
  | join =>
      cases hentries : p.entries with
      | nil =>
          refine hnext { p with main := .joined } ?_ ?_ rfl (fun _ => rfl) ?_
          · rw [Process.start, hwhere, hentries]
          · rintro ⟨⟩
          · rw [stepsLeft, stepsLeft, hwhere]
            exact Nat.succ_pos _
      | cons m members =>
          have hthread : (p.resume cfg privateConns).thread = p.thread ∧
              (p.resume cfg privateConns).entries = p.entries := by
            rw [resume]
            split_ifs <;> exact ⟨rfl, rfl⟩
          refine hnext { p.resume cfg privateConns with main := .wait (m :: members) } ?_ ?_ rfl
            (fun c => ?_) ?_
          · rw [Process.start, hwhere, hentries]
          · rintro ⟨⟩
          · exact congrArg (fun thread => (thread c).result) hthread.1
          · rw [stepsLeft, stepsLeft, hwhere]
            change 2 * (p.resume cfg privateConns).entries.length < _
            rw [hthread.2]
            exact Nat.lt_succ_self _
  | wait members =>
      cases members with
      | nil =>
          refine hnext { p with main := .join } ?_ ?_ rfl (fun _ => rfl) ?_
          · rw [Process.start, hwhere]
          · rintro ⟨⟩
          · rw [stepsLeft, stepsLeft, hwhere]
            exact Nat.lt_succ_self _
      | cons m members =>
          obtain ⟨hjoin, hentries, hresult⟩ := h.wait_fetches hhttp hwhere
          have hless := erase_entries_length (h.waiting _ hwhere m List.mem_cons_self)
          refine hnext (p.wait m members) ?_ ?_ ?_ hresult ?_
          · rw [Process.start, hwhere]
          · rw [hjoin]
            rintro ⟨⟩
          · rw [hjoin]
            rfl
          · rw [stepsLeft, stepsLeft, hjoin, hwhere]
            dsimp only
            rw [hentries]
            omega

theorem after_start (hhttp : cfg.httpListen = false) (h : Ending cfg p) (privateConns : List Nat)
    (hlong : p.stepsLeft ≤ privateConns.length) :
    ((system cfg).after p (privateConns.map .start)).main = .joined := by
  induction privateConns generalizing p with
  | nil =>
      by_contra hmain
      obtain ⟨p', -, -, hless⟩ := h.start hhttp hmain 0
      exact Nat.not_lt_zero _ (Nat.lt_of_lt_of_le hless hlong)
  | cons n privateConns ih =>
      rcases Classical.em (p.main = .joined) with hmain | hmain
      · have hover : (system cfg).step p (.start n) = .error .notNow := by
          change p.start cfg n = _
          rw [Process.start, hmain]
        rw [List.map_cons, System.after, hover]
        exact hmain
      · obtain ⟨p', hp', h', hless⟩ := h.start hhttp hmain n
        rw [List.map_cons, System.after_cons hp']
        refine ih h' ?_
        rw [List.length_cons] at hlong
        omega

theorem stepsLeft_le (h : Ending cfg p) : p.stepsLeft ≤ 2 * cfg.members.length + 2 := by
  have hnodup : p.entries.Nodup := List.Nodup.filter _ (by decide)
  have hle : p.entries.length ≤ cfg.members.length :=
    (List.subperm_of_subset hnodup fun m hm => (h.known m (mem_entries.mp hm)).1).length_le
  unfold stepsLeft
  split <;> omega

end Ending

/-- When all threads have ended with a value, `joinThreads` is over after a few more steps of
the main thread. -/
theorem joined_of_ended (hhttp : cfg.httpListen = false) (h : (system cfg).Reaches C p)
    (hlanching : p.main.lanching = false)
    (hvalues : ∀ m ∈ cfg.members, ∃ ok, (p.thread m).result = some (.value ok))
    (privateConns : List Nat) (hlong : 2 * cfg.members.length + 2 ≤ privateConns.length) :
    ((system cfg).after p (privateConns.map .start)).main = .joined := by
  rcases Waiting.of_reaches hhttp h with ⟨-, m, hm, hthrew⟩ | hp
  · obtain ⟨ok, hok⟩ := hvalues m hm
    rcases hthrew with hthrew | hthrew <;> cases hok.symm.trans hthrew
  · have hending : Ending cfg p := ⟨hp, hlanching, hvalues⟩
    exact hending.after_start hhttp privateConns (Nat.le_trans hending.stepsLeft_le hlong)

theorem joined_of_ended_members :
    let cfg : ProcessInfo := ⟨false, 0, false, false, false⟩
    let p := (system cfg).after { main := .run cfg.members } <|
      List.replicate 8 (.start 0) ++ [.signal, .ends .timer (.value true),
        .ends .conns (.value true), .ends .privateConnChecker (.value false)]
    ((system cfg).after p ([0, 0, 0, 0, 0, 0, 0, 0].map .start)).main = .joined :=
  @joined_of_ended _ ⟨false, 0, false, false, false⟩ (fun _ _ => True) rfl
    (.after (.init rfl) <| System.fits_of_forall (fun _ _ => ⟨trivial, trivial⟩) _ _) rfl
    (by
      intro m hm
      have hmem : m = .privateConnChecker ∨ m = .conns ∨ m = .timer := by
        simpa [ProcessInfo.members] using hm
      rcases hmem with rfl | rfl | rfl
      · exact ⟨false, rfl⟩
      · exact ⟨true, rfl⟩
      · exact ⟨true, rfl⟩)
    _ (by decide)

end Ending

end CasualGame.Base.Process
