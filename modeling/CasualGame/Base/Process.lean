import CasualGame.Lib.Run
import Mathlib.Data.List.Nodup
import Mathlib.Logic.Function.Basic

/-!
The threads of a process: how they are started, waited for and told to stop. Exceptions of
`init`, and of the making of a thread, are not part of it.
-/

namespace CasualGame.Base

open Lib.Run

/-- What `exec` of a thread comes to. `exception` is one that a handler of `start` that stops
the threads takes. -/
inductive Return
  | value (ok : Bool)
  | exception
  | unknown
  deriving DecidableEq

structure ProcessThread where
  switch : Bool := false
  /-- Whether `m_threadReturnValue` can be asked. -/
  valid : Bool := false
  lanched : Bool := false
  result : Option Return := none
  /-- How often `e_close` has been raised. -/
  closes : Nat := 0

namespace ProcessThread

variable (t : ProcessThread)

def run : ProcessThread := { t with switch := true, valid := true, lanched := true }

def stop : ProcessThread :=
  match t.switch with
  | true => { t with switch := false, closes := t.closes + 1 }
  | false => t

inductive WaitRet
  | timeout
  | done (ret : Return)
  /-- The result has been fetched already. -/
  | noState

/-- With a timeout of 0 milliseconds. -/
def wait : WaitRet × ProcessThread :=
  match t.valid, t.result with
  | false, _ => (.noState, t)
  | true, none => (.timeout, t)
  | true, some ret => (.done ret, { t with valid := false })

@[simp] theorem stop_valid : t.stop.valid = t.valid := by
  unfold stop
  cases t.switch <;> rfl

@[simp] theorem stop_lanched : t.stop.lanched = t.lanched := by
  unfold stop
  cases t.switch <;> rfl

@[simp] theorem stop_result : t.stop.result = t.result := by
  unfold stop
  cases t.switch <;> rfl

@[simp] theorem stop_switch : t.stop.switch = false := by
  unfold stop
  cases hswitch : t.switch with
  | true => rfl
  | false => exact hswitch

variable {t} in
theorem wait_of_not_valid (h : t.valid = false) : t.wait = (.noState, t) := by
  rw [wait, h]

variable {t} in
theorem wait_of_none (h : t.valid = true) (hresult : t.result = none) :
    t.wait = (.timeout, t) := by
  rw [wait, h, hresult]

variable {t} in
theorem wait_of_some {ret : Return} (h : t.valid = true) (hresult : t.result = some ret) :
    t.wait = (.done ret, { t with valid := false }) := by
  rw [wait, h, hresult]

theorem stop_of_switch (h : t.switch = false) : t.stop = t := by
  rw [stop, h]

/-- Whether `exec` has ended with an exception. -/
def Threw : Prop := t.result = some .exception ∨ t.result = some .unknown

theorem stop_stop : t.stop.stop = t.stop := t.stop.stop_of_switch t.stop_switch

end ProcessThread

/-- The parts of a process that have a thread. -/
inductive Member
  | privateConnChecker
  | flashSandboxHandler
  | flashSandboxServer
  | httpConns
  | httpServer
  | timer
  | privateNetClient
  | privateNetServer
  | publicNetServer
  | conns
  deriving DecidableEq

namespace Member

/-- The key in `m_threads`. -/
def name : Member → String
  | privateConnChecker => "connection checker"
  | flashSandboxHandler => "flash sandbox handler"
  | flashSandboxServer => "flash sandbox server"
  | httpConns => "http conns"
  | httpServer => "http server"
  | timer => "main timer"
  | privateNetClient => "private client"
  | privateNetServer => "private server"
  | publicNetServer => "public server"
  | conns => "tcp conns"

/-- What stands under the key. Under `http conns`, this is the timer again. -/
def entry : Member → Member
  | httpConns => timer
  | m => m

/-- In the order of the keys. -/
def all : List Member :=
  [privateConnChecker, flashSandboxHandler, flashSandboxServer, httpConns, httpServer, timer,
    privateNetClient, privateNetServer, publicNetServer, conns]

theorem mem_all (m : Member) : m ∈ all := by cases m <;> decide

example : (all.map name).Pairwise (· < ·) := by decide +kernel

theorem entry_ne_httpConns (m : Member) : m.entry ≠ httpConns := by cases m <;> decide

theorem entry_eq_self {m : Member} (h : m ≠ httpConns) : m.entry = m := by
  cases m <;> first | rfl | exact absurd rfl h

theorem entry_eq_timer {m : Member} (h : m.entry = timer) : m = httpConns ∨ m = timer := by
  cases m <;> first | exact .inl rfl | exact .inr rfl | cases h

end Member

/-- The parts of the configuration that tell which threads there are. -/
structure ProcessInfo where
  privateListen : Bool
  /-- The number of endpoints to connect to. -/
  connect : Nat
  publicListen : Bool
  httpListen : Bool
  flashSandboxListen : Bool

/-- In the order in which `lanchThreads` starts them. -/
def ProcessInfo.members (cfg : ProcessInfo) : List Member :=
  (if cfg.privateListen then [.privateNetServer] else []) ++
    (if cfg.connect = 0 then [] else [.privateNetClient]) ++
    (if cfg.publicListen then [.publicNetServer] else []) ++
    (if cfg.httpListen then [.httpServer, .httpConns] else []) ++
    [.privateConnChecker] ++
    (if cfg.flashSandboxListen then [.flashSandboxServer, .flashSandboxHandler] else []) ++
    [.conns, .timer]

theorem ProcessInfo.nodup_members (cfg : ProcessInfo) : cfg.members.Nodup := by
  unfold members
  split_ifs <;> decide

theorem ProcessInfo.httpConns_mem_members {cfg : ProcessInfo} :
    .httpConns ∈ cfg.members ↔ cfg.httpListen = true := by
  unfold members
  split_ifs <;> simp_all

/-- Where the main thread stands. -/
inductive Main
  | run (members : List Member)
  | insert (m : Member) (members : List Member)
  /-- In front of the test of the loop in `joinThreads`. -/
  | join
  /-- In the loop over `m_threads`. -/
  | wait (members : List Member)
  | joined
  /-- An exception has ended `joinThreads`. -/
  | caught

/-- The members that are not in `m_threads` yet. -/
def Main.rest : Main → List Member
  | .run members => members
  | .insert m members => m :: members
  | _ => []

/-- The members whose threads have not been started. -/
def Main.unlanched : Main → List Member
  | .run members | .insert _ members => members
  | _ => []

def Main.lanching : Main → Bool
  | .run _ | .insert _ _ => true
  | _ => false

structure Process where
  /-- The keys of `m_threads`. -/
  threads : Member → Bool := fun _ => false
  thread : Member → ProcessThread := fun _ => {}
  /-- Whether the timer is suspended. -/
  suspended : Bool := false
  main : Main

namespace Process

section Code

variable (p : Process)

def setThread (m : Member) (t : ProcessThread) : Process :=
  { p with thread := Function.update p.thread m t }

/-- The entries of `m_threads`, one after another. -/
def entries : List Member := Member.all.filter p.threads

def stopAll (members : List Member) : Process :=
  members.foldl (fun p m => p.setThread m.entry (p.thread m.entry).stop) p

def stop : Process := p.stopAll p.entries

def erase (m : Member) : Process :=
  { p with threads := Function.update p.threads m false }

/-- What `start` does with an exception. -/
def catchException : Return → Process
  | .unknown => { p with main := .caught }
  | _ => { p.stop with main := .caught }

def run (m : Member) (members : List Member) : Process :=
  let p := if m = .timer then { p with suspended := true } else p
  { p.setThread m (p.thread m).run with main := .insert m members }

def insert (m : Member) (members : List Member) : Process :=
  { p with threads := Function.update p.threads m true, main := .run members }

/-- `privateConns` is what `totalPrivateConnNum` says at the time. -/
def resume (cfg : ProcessInfo) (privateConns : Nat) : Process :=
  if p.suspended ∧ privateConns = cfg.connect then { p with suspended := false } else p

def wait (m : Member) (members : List Member) : Process :=
  let (waitRet, t) := (p.thread m.entry).wait
  let p := p.setThread m.entry t
  match waitRet with
  | .timeout => { p with main := .wait members }
  | .noState => p.catchException .exception
  | .done (.value true) => { p.erase m with main := .join }
  | .done (.value false) => { p.stop.erase m with main := .join }
  | .done ret => p.catchException ret

inductive Refusal
  | notNow

/-- The next step of the main thread. -/
def start (cfg : ProcessInfo) (privateConns : Nat) : Except Refusal Process :=
  match p.main with
  | .run [] => .ok { p with main := .join }
  | .run (m :: members) => .ok (p.run m members)
  | .insert m members => .ok (p.insert m members)
  | .join =>
      match p.entries with
      | [] => .ok { p with main := .joined }
      | entries => .ok { p.resume cfg privateConns with main := .wait entries }
  | .wait [] => .ok { p with main := .join }
  | .wait (m :: members) => .ok (p.wait m members)
  | .joined | .caught => .error .notNow

inductive Act
  | start (privateConns : Nat)
  /-- A signal that the main thread takes. -/
  | signal
  /-- A thread comes to the end of `exec`. -/
  | ends (m : Member) (ret : Return)

def next (cfg : ProcessInfo) : Act → Except Refusal Process
  | .start privateConns => p.start cfg privateConns
  | .signal => .ok p.stop
  | .ends m ret =>
      let t := p.thread m
      match t.lanched, t.result with
      | true, none => .ok (p.setThread m { t with result := some ret })
      | _, _ => .error .notNow

/-- The main thread, the other threads and signals, in any order. -/
def system (cfg : ProcessInfo) : System Process Act Refusal where
  Init p := p = { main := .run cfg.members }
  Allowed _ _ := True
  step p act := p.next cfg act

end Code

section Steps

variable {p p' : Process} {cfg : ProcessInfo} {m c : Member}

@[simp] theorem setThread_self (p : Process) (m : Member) (t : ProcessThread) :
    (p.setThread m t).thread m = t := Function.update_self ..

theorem setThread_of_ne (p : Process) (t : ProcessThread) (h : c ≠ m) :
    (p.setThread m t).thread c = p.thread c := Function.update_of_ne h ..

theorem stopAll_frame (p : Process) (members : List Member) :
    (p.stopAll members).threads = p.threads ∧ (p.stopAll members).main = p.main := by
  induction members generalizing p with
  | nil => exact ⟨rfl, rfl⟩
  | cons m members ih => exact ih _

theorem stopAll_thread (p : Process) (members : List Member) (c : Member) :
    (p.stopAll members).thread c =
      if c ∈ members.map Member.entry then (p.thread c).stop else p.thread c := by
  induction members generalizing p with
  | nil => rfl
  | cons m members ih =>
      refine (ih _).trans ?_
      rw [List.map_cons]
      rcases eq_or_ne c m.entry with rfl | hne
      · rw [if_pos List.mem_cons_self, setThread_self, ProcessThread.stop_stop, ite_self]
      · rw [setThread_of_ne p _ hne]
        simp only [List.mem_cons, hne, false_or]

theorem mem_entries : m ∈ p.entries ↔ p.threads m = true := by
  rw [entries, List.mem_filter, and_iff_right (Member.mem_all m)]

@[simp] theorem stop_threads (p : Process) : p.stop.threads = p.threads := (stopAll_frame _ _).1

@[simp] theorem stop_main (p : Process) : p.stop.main = p.main := (stopAll_frame _ _).2

theorem stop_thread_cases (p : Process) (c : Member) :
    p.stop.thread c = (p.thread c).stop ∨ p.stop.thread c = p.thread c := by
  rw [stop, stopAll_thread]
  split_ifs
  · exact .inl rfl
  · exact .inr rfl

theorem stop_thread_of_entry (h : p.threads m = true) :
    p.stop.thread m.entry = (p.thread m.entry).stop := by
  rw [stop, stopAll_thread, if_pos]
  exact List.mem_map_of_mem (mem_entries.mpr h)

theorem stop_thread_httpConns (p : Process) : p.stop.thread .httpConns = p.thread .httpConns := by
  rw [stop, stopAll_thread, if_neg]
  intro h
  obtain ⟨m, -, hm⟩ := List.mem_map.mp h
  exact m.entry_ne_httpConns hm

@[simp] theorem stop_valid (p : Process) (c : Member) :
    (p.stop.thread c).valid = (p.thread c).valid := by
  rcases p.stop_thread_cases c with h | h <;> simp [h]

@[simp] theorem stop_lanched (p : Process) (c : Member) :
    (p.stop.thread c).lanched = (p.thread c).lanched := by
  rcases p.stop_thread_cases c with h | h <;> simp [h]

@[simp] theorem stop_result (p : Process) (c : Member) :
    (p.stop.thread c).result = (p.thread c).result := by
  rcases p.stop_thread_cases c with h | h <;> simp [h]

/-- The state in which the result of an entry has been fetched. -/
def fetched (p : Process) (m : Member) : Process :=
  p.setThread m.entry { p.thread m.entry with valid := false }

theorem catchException_cases (p : Process) (ret : Return) :
    p.catchException ret = { p with main := .caught } ∨
      p.catchException ret = { p.stop with main := .caught } := by
  cases ret with
  | unknown => exact .inl rfl
  | value _ => exact .inr rfl
  | exception => exact .inr rfl

/-- What a step can do. -/
inductive Step (cfg : ProcessInfo) (p : Process) : Process → Prop
  | run {m : Member} {members : List Member} (hmain : p.main = .run (m :: members)) :
      Step cfg p (p.run m members)
  | insert {m : Member} {members : List Member} (hmain : p.main = .insert m members) :
      Step cfg p (p.insert m members)
  | lanched (hmain : p.main = .run []) : Step cfg p { p with main := .join }
  | joined (hmain : p.main = .join) (hthreads : p.entries = []) :
      Step cfg p { p with main := .joined }
  | look (hmain : p.main = .join) (hthreads : p.entries ≠ []) (suspended : Bool) :
      Step cfg p { p with suspended, main := .wait p.entries }
  | around (hmain : p.main = .wait []) : Step cfg p { p with main := .join }
  | timeout {m : Member} {members : List Member} (hmain : p.main = .wait (m :: members))
      (hresult : (p.thread m.entry).result = none) : Step cfg p { p with main := .wait members }
  | succeeded {m : Member} {members : List Member} (hmain : p.main = .wait (m :: members))
      (hvalid : (p.thread m.entry).valid = true)
      (hresult : (p.thread m.entry).result = some (.value true)) :
      Step cfg p { (p.fetched m).erase m with main := .join }
  | failed {m : Member} {members : List Member} (hmain : p.main = .wait (m :: members))
      (hvalid : (p.thread m.entry).valid = true)
      (hresult : (p.thread m.entry).result = some (.value false)) :
      Step cfg p { (p.fetched m).stop.erase m with main := .join }
  | caught {m : Member} {members : List Member} {q : Process}
      (hmain : p.main = .wait (m :: members)) (hq : q = p ∨ q = p.fetched m)
      (hthrown : (p.thread m.entry).valid = false ∨ (p.thread m.entry).Threw) (ret : Return) :
      Step cfg p (q.catchException ret)
  | signal : Step cfg p p.stop
  | ends {m : Member} {ret : Return} (hlanched : (p.thread m).lanched = true)
      (hresult : (p.thread m).result = none) :
      Step cfg p (p.setThread m { p.thread m with result := some ret })

theorem wait_step {members : List Member} (hmain : p.main = .wait (m :: members)) :
    Step cfg p (p.wait m members) := by
  have hself : p.setThread m.entry (p.thread m.entry) = p := by
    rw [setThread, Function.update_eq_self]
  rw [Process.wait]
  cases hvalid : (p.thread m.entry).valid with
  | false =>
      rw [ProcessThread.wait_of_not_valid hvalid]
      dsimp only
      rw [hself]
      exact .caught hmain (.inl rfl) (.inl hvalid) .exception
  | true =>
      cases hresult : (p.thread m.entry).result with
      | none =>
          rw [ProcessThread.wait_of_none hvalid hresult]
          dsimp only
          rw [hself]
          exact .timeout hmain hresult
      | some ret =>
          rw [ProcessThread.wait_of_some hvalid hresult]
          cases ret with
          | value ok =>
              cases ok with
              | true => exact .succeeded hmain hvalid hresult
              | false => exact .failed hmain hvalid hresult
          | exception => exact .caught hmain (.inr rfl) (.inr (.inl hresult)) .exception
          | unknown => exact .caught hmain (.inr rfl) (.inr (.inr hresult)) .unknown

theorem start_step {privateConns : Nat} (h : p.start cfg privateConns = .ok p') :
    Step cfg p p' := by
  unfold Process.start at h
  cases hmain : p.main with
  | run members =>
      rw [hmain] at h
      cases members with
      | nil => exact Except.ok.inj h ▸ .lanched hmain
      | cons m members => exact Except.ok.inj h ▸ .run hmain
  | insert m members =>
      rw [hmain] at h
      exact Except.ok.inj h ▸ .insert hmain
  | join =>
      rw [hmain] at h
      cases hentries : p.entries with
      | nil =>
          rw [hentries] at h
          exact Except.ok.inj h ▸ .joined hmain hentries
      | cons m members =>
          rw [hentries] at h
          obtain rfl := Except.ok.inj h
          rw [← hentries, resume]
          have hne : p.entries ≠ [] := by
            rw [hentries]
            exact List.cons_ne_nil _ _
          split_ifs
          · exact .look hmain hne false
          · exact .look hmain hne p.suspended
  | wait members =>
      rw [hmain] at h
      cases members with
      | nil => exact Except.ok.inj h ▸ .around hmain
      | cons m members => exact Except.ok.inj h ▸ wait_step hmain
  | joined =>
      rw [hmain] at h
      cases h
  | caught =>
      rw [hmain] at h
      cases h

theorem step_cases {act : Act} (h : (system cfg).step p act = .ok p') : Step cfg p p' := by
  cases act with
  | start privateConns => exact start_step h
  | signal => exact Except.ok.inj h ▸ .signal
  | ends m ret =>
      simp only [system, next] at h
      split at h
      · next hlanched hresult => exact Except.ok.inj h ▸ .ends hlanched hresult
      · cases h

end Steps

section Lanching

variable {p p' : Process} {cfg : ProcessInfo} {m c : Member} {members : List Member}

/-- How far the threads have been started. -/
structure Lanching (cfg : ProcessInfo) (p : Process) : Prop where
  suffix : p.main.rest <:+ cfg.members
  lanched_iff : ∀ m, (p.thread m).lanched = true ↔ m ∈ cfg.members ∧ m ∉ p.main.unlanched
  known : ∀ m, p.threads m = true → m ∈ cfg.members ∧ m ∉ p.main.rest
  closes_le : ∀ m, (p.thread m).closes + (p.thread m).switch.toNat ≤ (p.thread m).lanched.toNat
  waiting : ∀ members, p.main = .wait members → ∀ m ∈ members, p.threads m = true
  empty : p.main = .joined → ∀ m, p.threads m = false

namespace Lanching

theorem init (cfg : ProcessInfo) : Lanching cfg { main := .run cfg.members } where
  suffix := List.suffix_rfl
  lanched_iff m := iff_of_false Bool.false_ne_true fun h => h.2 h.1
  known m h := absurd h Bool.false_ne_true
  closes_le m := Nat.le_refl 0
  waiting members h := by cases h
  empty h := by cases h

theorem of_frame (h : Lanching cfg p) (hrest : p'.main.rest = p.main.rest)
    (hunlanched : p'.main.unlanched = p.main.unlanched)
    (hthreads : ∀ m, p'.threads m = true → p.threads m = true)
    (hthread : ∀ m, (p'.thread m).lanched = (p.thread m).lanched ∧
      (p'.thread m).closes + (p'.thread m).switch.toNat ≤
        (p.thread m).closes + (p.thread m).switch.toNat)
    (hwaiting : ∀ members, p'.main = .wait members → ∀ m ∈ members, p'.threads m = true)
    (hempty : p'.main = .joined → ∀ m, p'.threads m = false) : Lanching cfg p' where
  suffix := hrest ▸ h.suffix
  lanched_iff m := by rw [(hthread m).1, h.lanched_iff, hunlanched]
  known m hm := hrest ▸ h.known m (hthreads m hm)
  closes_le m := by
    rw [(hthread m).1]
    exact Nat.le_trans (hthread m).2 (h.closes_le m)
  waiting := hwaiting
  empty := hempty

theorem stop_frame (t : ProcessThread) :
    t.stop.lanched = t.lanched ∧
      t.stop.closes + t.stop.switch.toNat ≤ t.closes + t.switch.toNat := by
  refine ⟨t.stop_lanched, ?_⟩
  unfold ProcessThread.stop
  cases hswitch : t.switch with
  | true => exact Nat.le_refl _
  | false =>
      exact Nat.le_of_eq (congrArg (fun b : Bool => t.closes + b.toNat) hswitch)

theorem stop (h : Lanching cfg p) : Lanching cfg p.stop := by
  refine h.of_frame (by rw [stop_main]) (by rw [stop_main])
    (fun m hm => by rwa [stop_threads] at hm) (fun m => ?_) ?_ ?_
  · rcases p.stop_thread_cases m with hstop | hsame
    · rw [hstop]
      exact stop_frame _
    · rw [hsame]
      exact ⟨rfl, Nat.le_refl _⟩
  · rw [stop_main, stop_threads]
    exact h.waiting
  · rw [stop_main, stop_threads]
    exact h.empty

theorem run (h : Lanching cfg p) (hmain : p.main = .run (m :: members)) :
    Lanching cfg (p.run m members) := by
  have hsuffix : m :: members <:+ cfg.members := by
    have hsuffix := h.suffix
    rwa [hmain] at hsuffix
  have hnodup := List.nodup_cons.mp (hsuffix.sublist.nodup cfg.nodup_members)
  have hthreads : (p.run m members).threads = p.threads := by
    unfold Process.run
    split_ifs <;> rfl
  have hthread : (p.run m members).thread =
      Function.update p.thread m (p.thread m).run := by
    unfold Process.run
    split_ifs <;> rfl
  have hlanched := h.lanched_iff m
  rw [hmain] at hlanched
  refine ⟨hsuffix, fun c => ?_, fun c hc => ?_, fun c => ?_, ?_, ?_⟩
  · rw [hthread]
    rcases eq_or_ne c m with rfl | hne
    · rw [Function.update_self]
      exact iff_of_true rfl ⟨hsuffix.subset List.mem_cons_self, hnodup.1⟩
    · have hc := h.lanched_iff c
      rw [hmain] at hc
      rw [Function.update_of_ne hne, hc]
      change _ ∧ c ∉ m :: members ↔ _ ∧ c ∉ members
      rw [List.mem_cons, or_iff_right hne]
  · have hknown := h.known c (hthreads ▸ hc)
    rwa [hmain] at hknown
  · rw [hthread]
    rcases eq_or_ne c m with rfl | hne
    · have hidle : (p.thread c).lanched = false := by
        rw [Bool.eq_false_iff, ne_eq, hlanched]
        exact fun hin => hin.2 List.mem_cons_self
      have hle := h.closes_le c
      rw [hidle] at hle
      rw [Function.update_self]
      change (p.thread c).closes + 1 ≤ 1
      change _ ≤ 0 at hle
      omega
    · rw [Function.update_of_ne hne]
      exact h.closes_le c
  · rintro _ ⟨⟩
  · rintro ⟨⟩

theorem insert (h : Lanching cfg p) (hmain : p.main = .insert m members) :
    Lanching cfg (p.insert m members) := by
  have hsuffix : m :: members <:+ cfg.members := by
    have hsuffix := h.suffix
    rwa [hmain] at hsuffix
  have hnodup := List.nodup_cons.mp (hsuffix.sublist.nodup cfg.nodup_members)
  refine ⟨(List.suffix_cons m members).trans hsuffix, fun c => ?_, fun c hc => ?_,
    h.closes_le, ?_, ?_⟩
  · have hc := h.lanched_iff c
    rw [hmain] at hc
    exact hc
  · change Function.update p.threads m true c = true at hc
    rcases eq_or_ne c m with rfl | hne
    · exact ⟨hsuffix.subset List.mem_cons_self, hnodup.1⟩
    · rw [Function.update_of_ne hne] at hc
      have hknown := h.known c hc
      rw [hmain] at hknown
      exact ⟨hknown.1, fun hin => hknown.2 (List.mem_cons_of_mem _ hin)⟩
  · rintro _ ⟨⟩
  · rintro ⟨⟩

theorem move (h : Lanching cfg p) (hrest : p.main.rest = []) (hunlanched : p.main.unlanched = [])
    {main : Main} (hmain : main.rest = []) (hmain' : main.unlanched = []) (suspended : Bool)
    (hwaiting : ∀ members, main = .wait members → ∀ m ∈ members, p.threads m = true)
    (hempty : main = .joined → ∀ m, p.threads m = false) :
    Lanching cfg { p with suspended, main } :=
  h.of_frame (hmain.trans hrest.symm) (hmain'.trans hunlanched.symm) (fun _ hm => hm)
    (fun _ => ⟨rfl, Nat.le_refl _⟩) hwaiting hempty

theorem fetched (h : Lanching cfg p) : Lanching cfg (p.fetched m) := by
  refine h.of_frame rfl rfl (fun _ hm => hm) (fun c => ?_) h.waiting h.empty
  rcases eq_or_ne c m.entry with rfl | hne
  · rw [Process.fetched, setThread_self]
    exact ⟨rfl, Nat.le_refl _⟩
  · rw [Process.fetched, setThread_of_ne p _ hne]
    exact ⟨rfl, Nat.le_refl _⟩

theorem erase (h : Lanching cfg p) (hrest : p.main.rest = []) (hunlanched : p.main.unlanched = []) :
    Lanching cfg { p.erase m with main := .join } := by
  refine h.of_frame hrest.symm hunlanched.symm (fun c hc => ?_) (fun _ => ⟨rfl, Nat.le_refl _⟩)
    ?_ ?_
  · change Function.update p.threads m false c = true at hc
    rcases eq_or_ne c m with rfl | hne
    · rw [Function.update_self] at hc
      cases hc
    · rwa [Function.update_of_ne hne] at hc
  · rintro _ ⟨⟩
  · rintro ⟨⟩

theorem ends (h : Lanching cfg p) (ret : Return) :
    Lanching cfg (p.setThread m { p.thread m with result := some ret }) := by
  refine h.of_frame rfl rfl (fun _ hm => hm) (fun c => ?_) h.waiting h.empty
  rcases eq_or_ne c m with rfl | hne
  · rw [setThread_self]
    exact ⟨rfl, Nat.le_refl _⟩
  · rw [setThread_of_ne p _ hne]
    exact ⟨rfl, Nat.le_refl _⟩

theorem step (h : Lanching cfg p) (hstep : Step cfg p p') : Lanching cfg p' := by
  cases hstep with
  | run hmain => exact h.run hmain
  | insert hmain => exact h.insert hmain
  | lanched hmain =>
      refine h.move (by rw [hmain]; rfl) (by rw [hmain]; rfl) rfl rfl p.suspended ?_ ?_
      · rintro _ ⟨⟩
      · rintro ⟨⟩
  | joined hmain hthreads =>
      refine h.move (by rw [hmain]; rfl) (by rw [hmain]; rfl) rfl rfl p.suspended ?_ fun _ c => ?_
      · rintro _ ⟨⟩
      · rw [Bool.eq_false_iff, ne_eq, ← mem_entries, hthreads]
        exact List.not_mem_nil
  | look hmain hthreads suspended =>
      refine h.move (by rw [hmain]; rfl) (by rw [hmain]; rfl) rfl rfl suspended ?_ ?_
      · rintro members ⟨⟩ c hc
        exact mem_entries.mp hc
      · rintro ⟨⟩
  | around hmain =>
      refine h.move (by rw [hmain]; rfl) (by rw [hmain]; rfl) rfl rfl p.suspended ?_ ?_
      · rintro _ ⟨⟩
      · rintro ⟨⟩
  | timeout hmain hresult =>
      refine h.move (by rw [hmain]; rfl) (by rw [hmain]; rfl) rfl rfl p.suspended ?_ ?_
      · rintro _ ⟨⟩ c hc
        exact h.waiting _ hmain c (List.mem_cons_of_mem _ hc)
      · rintro ⟨⟩
  | @succeeded m members hmain hvalid hresult =>
      have hfetched : (p.fetched m).main = .wait (m :: members) := hmain
      exact h.fetched.erase (by rw [hfetched]; rfl) (by rw [hfetched]; rfl)
  | @failed m members hmain hvalid hresult =>
      have hfetched : (p.fetched m).stop.main = .wait (m :: members) := by
        rw [stop_main]
        exact hmain
      exact h.fetched.stop.erase (by rw [hfetched]; rfl) (by rw [hfetched]; rfl)
  | @caught m members q hmain hq hthrown ret =>
      have hsound : Lanching cfg q := by
        rcases hq with rfl | rfl
        · exact h
        · exact h.fetched
      have hmain' : q.main = .wait (m :: members) := by
        rcases hq with rfl | rfl <;> exact hmain
      have hjoining : q.main.rest = [] ∧ q.main.unlanched = [] := by
        rw [hmain']
        exact ⟨rfl, rfl⟩
      have hmove : ∀ q : Process, Lanching cfg q → q.main.rest = [] ∧ q.main.unlanched = [] →
          Lanching cfg { q with main := .caught } := by
        intro q hq hjoining
        refine hq.move hjoining.1 hjoining.2 rfl rfl q.suspended ?_ ?_
        · rintro _ ⟨⟩
        · rintro ⟨⟩
      rcases q.catchException_cases ret with hcaught | hcaught
      · rw [hcaught]
        exact hmove q hsound hjoining
      · rw [hcaught]
        exact hmove q.stop hsound.stop (by rwa [stop_main])
  | signal => exact h.stop
  | ends _ _ => exact h.ends _

end Lanching

end Lanching

end Process

end CasualGame.Base
