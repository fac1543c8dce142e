import CasualGame.Lib.Run
import CasualGame.Net.Endpoint
import CasualGame.Net.TcpPacket
import Mathlib.Data.List.Pairwise
import Mathlib.Logic.Function.Basic

/-!
The thread that connects to other processes, and those who have the connections it makes: the
checker, the manager with its queue, and the main thread.
-/

namespace CasualGame.Base.TcpClient

open Lib.Run
open Net (TcpPacket)

section Code

/-- Every connection that is made is another one. -/
abbrev ConnPtr := Nat

/-- `operator<` -/
def less (ep ep' : Net.Endpoint) : Bool :=
  if ep.ip.value = ep'.ip.value then ep.port < ep'.port else ep.ip.value < ep'.ip.value

/-- Times and durations are in nanoseconds. -/
structure RemoteEndpointInfo where
  retryTimepoint : Int
  retryInterval : Nat
  /-- A `weak_ptr`. -/
  conn : Option ConnPtr := none

/-- `m_remoteEndpoints`, with its keys in their order. -/
structure RemoteEndpoints where
  keys : List Net.Endpoint := []
  info : Net.Endpoint → Option RemoteEndpointInfo := fun _ => none

namespace RemoteEndpoints

variable (m : RemoteEndpoints) (ep : Net.Endpoint)

def insertKey : List Net.Endpoint → List Net.Endpoint
  | [] => [ep]
  | key :: keys => if less ep key then ep :: key :: keys else key :: insertKey keys

def set (info : RemoteEndpointInfo) : RemoteEndpoints :=
  { m with info := Function.update m.info ep (some info) }

def addRemoteEndpoint (retryInterval : Nat) (now : Int) : RemoteEndpoints :=
  match m.info ep with
  | none =>
      { keys := insertKey ep m.keys
        info := Function.update m.info ep (some { retryTimepoint := now, retryInterval }) }
  | some info => m.set ep { info with retryInterval }

end RemoteEndpoints

/-- What `connect` comes to within its five seconds. -/
inductive Connect
  /-- `kept` is whether the checker takes the connection that it is told of. -/
  | made (kept : Bool)
  | timedOut
  | fault

/-- The source has no such record. -/
structure Attempt where
  ep : Net.Endpoint
  now : Int
  /-- The time to wait that a failure asks for. -/
  retryAfter : Option Nat

/-- Where the thread stands: in front of the test of the switch, in the loop over the endpoints,
asleep, or at the end. -/
inductive Pc
  | test
  | round (now : Int) (rest : List Net.Endpoint)
  | asleep
  | ended

structure Dialing where
  switch : Bool := true
  pc : Pc := .test
  remoteEndpoints : RemoteEndpoints
  /-- The `m_conns` of the checker. -/
  unchecked : List ConnPtr := []
  /-- Those of the holders in `m_allConns`. -/
  allConns : List ConnPtr := []
  /-- The one that the thread of the manager has an event of. -/
  reading : Option ConnPtr := none
  recvQueue : List (ConnPtr × TcpPacket) := []
  /-- The variable `conn` of `dealTcpPackets`. -/
  handling : Option ConnPtr := none
  /-- What has been dealt with; the source has no such record, nor the following. -/
  handled : List (ConnPtr × TcpPacket) := []
  attempts : List Attempt := []
  /-- The endpoint that a connection was made to; those that came in have none. -/
  remote : ConnPtr → Option Net.Endpoint := fun _ => none
  next : ConnPtr := 0

namespace Dialing

variable (s : Dialing)

/-- Someone has a `shared_ptr` to the connection. -/
def Owned (c : ConnPtr) : Prop :=
  c ∈ s.unchecked ∨ c ∈ s.allConns ∨ s.reading = some c ∨ c ∈ s.recvQueue.map Prod.fst ∨
    s.handling = some c

instance (c : ConnPtr) : Decidable (s.Owned c) := inferInstanceAs (Decidable (_ ∨ _))

def expired : Option ConnPtr → Bool
  | none => true
  | some c => !decide (s.Owned c)

/-- The turn of an endpoint. A timeout does not put off the next try. -/
def dial (now : Int) (ep : Net.Endpoint) (info : RemoteEndpointInfo) (answer : Connect) :
    Dialing :=
  if now < info.retryTimepoint then s
  else if !s.expired info.conn then s
  else
    match answer with
    | .made kept =>
        { s with
          attempts := s.attempts ++ [⟨ep, now, none⟩]
          remoteEndpoints := s.remoteEndpoints.set ep { info with conn := some s.next }
          unchecked := if kept then s.unchecked ++ [s.next] else s.unchecked
          remote := Function.update s.remote s.next (some ep)
          next := s.next + 1 }
    | .timedOut => { s with attempts := s.attempts ++ [⟨ep, now, none⟩] }
    | .fault =>
        { s with
          attempts := s.attempts ++ [⟨ep, now, some info.retryInterval⟩]
          remoteEndpoints :=
            s.remoteEndpoints.set ep { info with retryTimepoint := now + info.retryInterval } }

/-- What the thread does next in the loop over the endpoints. -/
def visit (now : Int) (rest : List Net.Endpoint) (answer : Connect) : Dialing :=
  match rest with
  | [] => { s with pc := .asleep }
  | ep :: rest =>
      if !s.switch then { s with pc := .asleep }
      else
        match s.remoteEndpoints.info ep with
        | none => { s with pc := .round now rest }
        | some info => { s.dial now ep info answer with pc := .round now rest }

end Dialing

/-- The client's own thread; connections that come in; the checker, which is done with a
connection and may have put it into the manager; the manager's thread; and the main thread. -/
inductive Act
  | test (now : Int)
  | visit (answer : Connect)
  | wake
  | stop
  | accept
  | checked (c : ConnPtr) (added : Bool)
  | event (c : ConnPtr)
  | push (packet : TcpPacket)
  | eventDone
  | eraseConnection (c : ConnPtr)
  | getPacket
  | dealt

inductive Fault
  | notNow
  deriving DecidableEq

namespace Dialing

variable (s : Dialing)

def step : Act → Except Fault Dialing
  | .test now =>
      match s.pc with
      | .test =>
          .ok { s with pc := if s.switch then .round now s.remoteEndpoints.keys else .ended }
      | _ => .error .notNow
  | .visit answer =>
      match s.pc with
      | .round now rest => .ok (s.visit now rest answer)
      | _ => .error .notNow
  | .wake =>
      match s.pc with
      | .asleep => .ok { s with pc := .test }
      | _ => .error .notNow
  | .stop => .ok { s with switch := false }
  | .accept => .ok { s with unchecked := s.unchecked ++ [s.next], next := s.next + 1 }
  | .checked c added =>
      if c ∈ s.unchecked then
        .ok { s with
          unchecked := s.unchecked.erase c
          allConns := if added then s.allConns ++ [c] else s.allConns }
      else .error .notNow
  | .event c =>
      if s.reading = none ∧ c ∈ s.allConns then .ok { s with reading := some c }
      else .error .notNow
  | .push packet =>
      match s.reading with
      | some c => .ok { s with recvQueue := s.recvQueue ++ [(c, packet)] }
      | none => .error .notNow
  | .eventDone => .ok { s with reading := none }
  | .eraseConnection c => .ok { s with allConns := s.allConns.erase c }
  | .getPacket =>
      match s.recvQueue with
      | [] => .ok s
      | (c, packet) :: recvQueue =>
          .ok { s with
            recvQueue := recvQueue
            handling := some c
            handled := s.handled ++ [(c, packet)] }
  | .dealt => .ok { s with handling := none }

end Dialing

/-- The endpoints are added before the thread is started. -/
def dialing : System Dialing Act Fault where
  Init s := ∃ cfg : List (Net.Endpoint × Nat × Int), s = {
    remoteEndpoints := cfg.foldl (fun m (ep, retryInterval, now) =>
      m.addRemoteEndpoint ep retryInterval now) {} }
  Allowed _ _ := True
  step s act := s.step act

end Code

/-- After a failure the same endpoint is left alone for as long as was asked for. -/
def Attempt.Spaced (a a' : Attempt) : Prop :=
  a.ep = a'.ep → ∀ wait : Nat, a.retryAfter = some wait → a.now + wait ≤ a'.now

namespace Dialing

variable {s s' : Dialing} {now : Int} {ep : Net.Endpoint} {info : RemoteEndpointInfo}
  {c : ConnPtr} {packet : TcpPacket}

/-- The packets in the order in which they are dealt with. -/
def log (s : Dialing) : List (ConnPtr × TcpPacket) := s.handled ++ s.recvQueue

/-- Of two packets from the same endpoint, none is from a connection before the other's. -/
def InOrder (s : Dialing) (item item' : ConnPtr × TcpPacket) : Prop :=
  ∀ ep, s.remote item.1 = some ep → s.remote item'.1 = some ep → item.1 ≤ item'.1

structure Sound (s : Dialing) : Prop where
  owned_lt : ∀ c, s.Owned c → c < s.next
  remote_lt : ∀ c ep, s.remote c = some ep → c < s.next
  log_lt : ∀ item ∈ s.log, item.1 < s.next
  /-- The client still knows of a connection that someone has. -/
  known : ∀ c ep, s.remote c = some ep → s.Owned c →
    (s.remoteEndpoints.info ep).bind RemoteEndpointInfo.conn = some c
  /-- No packet is from a later connection than the one it knows of. -/
  latest : ∀ item ∈ s.log, ∀ ep, s.remote item.1 = some ep →
    ∃ c, (s.remoteEndpoints.info ep).bind RemoteEndpointInfo.conn = some c ∧ item.1 ≤ c
  ordered : s.log.Pairwise s.InOrder
  due : ∀ a ∈ s.attempts, ∀ wait : Nat, a.retryAfter = some wait →
    ∃ info, s.remoteEndpoints.info a.ep = some info ∧ a.now + wait ≤ info.retryTimepoint
  spaced : s.attempts.Pairwise Attempt.Spaced

/-- What a step that makes no connection and no attempt may do. -/
structure Passes (s s' : Dialing) : Prop where
  remoteEndpoints : s'.remoteEndpoints = s.remoteEndpoints
  remote : s'.remote = s.remote
  attempts : s'.attempts = s.attempts
  next : s'.next = s.next
  log : s'.log = s.log
  owned : ∀ c, s'.Owned c → s.Owned c

theorem Sound.passes (h : s.Sound) (hpasses : s.Passes s') : s'.Sound := by
  have horder : s'.InOrder = s.InOrder := by
    unfold InOrder
    rw [hpasses.remote]
  constructor
  · rw [hpasses.next]
    exact fun c hc => h.owned_lt c (hpasses.owned c hc)
  · rw [hpasses.next, hpasses.remote]
    exact h.remote_lt
  · rw [hpasses.next, hpasses.log]
    exact h.log_lt
  · rw [hpasses.remote, hpasses.remoteEndpoints]
    exact fun c ep hremote hc => h.known c ep hremote (hpasses.owned c hc)
  · rw [hpasses.remote, hpasses.remoteEndpoints, hpasses.log]
    exact h.latest
  · rw [hpasses.log, horder]
    exact h.ordered
  · rw [hpasses.attempts, hpasses.remoteEndpoints]
    exact h.due
  · rw [hpasses.attempts]
    exact h.spaced

theorem Sound.spaced_concat (h : s.Sound) (hinfo : s.remoteEndpoints.info ep = some info)
    (hdue : ¬ now < info.retryTimepoint) (retryAfter : Option Nat) :
    (s.attempts ++ [Attempt.mk ep now retryAfter]).Pairwise Attempt.Spaced := by
  refine List.pairwise_append.mpr ⟨h.spaced, List.pairwise_singleton _ _, ?_⟩
  intro a ha a' ha' hsame wait hwait
  obtain rfl := List.mem_singleton.mp ha'
  obtain ⟨info', hinfo', htime⟩ := h.due a ha wait hwait
  rw [hsame, hinfo] at hinfo'
  obtain rfl := Option.some.inj hinfo'
  dsimp only
  omega

theorem info_set_self (m : RemoteEndpoints) (ep : Net.Endpoint) (info : RemoteEndpointInfo) :
    (m.set ep info).info ep = some info := Function.update_self ..

theorem info_set_of_ne (m : RemoteEndpoints) {ep ep' : Net.Endpoint} (hother : ep' ≠ ep)
    (info : RemoteEndpointInfo) : (m.set ep info).info ep' = m.info ep' :=
  Function.update_of_ne hother _ _

theorem set_of_info {m : RemoteEndpoints} (h : m.info ep = some info) : m.set ep info = m := by
  rw [RemoteEndpoints.set, ← h, Function.update_eq_self]

theorem Sound.due_set (h : s.Sound) (hinfo : s.remoteEndpoints.info ep = some info)
    {info' : RemoteEndpointInfo} (htime : info.retryTimepoint ≤ info'.retryTimepoint)
    {retryAfter : Option Nat}
    (hfailed : ∀ wait : Nat, retryAfter = some wait → now + wait ≤ info'.retryTimepoint) :
    ∀ a ∈ s.attempts ++ [Attempt.mk ep now retryAfter], ∀ wait : Nat, a.retryAfter = some wait →
      ∃ info, (s.remoteEndpoints.set ep info').info a.ep = some info ∧
        a.now + wait ≤ info.retryTimepoint := by
  intro a ha wait hwait
  rcases List.mem_append.mp ha with hbefore | hnew
  · obtain ⟨info₀, hinfo₀, hless⟩ := h.due a hbefore wait hwait
    rcases eq_or_ne a.ep ep with hsame | hother
    · rw [hsame, hinfo] at hinfo₀
      obtain rfl := Option.some.inj hinfo₀
      refine ⟨info', ?_, hless.trans htime⟩
      rw [hsame, info_set_self]
    · exact ⟨info₀, (info_set_of_ne _ hother _).trans hinfo₀, hless⟩
  · obtain rfl := List.mem_singleton.mp hnew
    exact ⟨info', info_set_self .., hfailed wait hwait⟩

theorem bind_conn_set (hinfo : s.remoteEndpoints.info ep = some info) {info' : RemoteEndpointInfo}
    (hconn : info'.conn = info.conn) (ep' : Net.Endpoint) :
    ((s.remoteEndpoints.set ep info').info ep').bind RemoteEndpointInfo.conn =
      (s.remoteEndpoints.info ep').bind RemoteEndpointInfo.conn := by
  rcases eq_or_ne ep' ep with rfl | hother
  · rw [hinfo, info_set_self]
    exact hconn
  · rw [info_set_of_ne _ hother]

theorem Sound.attempted (h : s.Sound) (hinfo : s.remoteEndpoints.info ep = some info)
    (hdue : ¬ now < info.retryTimepoint) {info' : RemoteEndpointInfo}
    (hconn : info'.conn = info.conn) (htime : info.retryTimepoint ≤ info'.retryTimepoint)
    {retryAfter : Option Nat}
    (hfailed : ∀ wait : Nat, retryAfter = some wait → now + wait ≤ info'.retryTimepoint) :
    Sound { s with
      attempts := s.attempts ++ [⟨ep, now, retryAfter⟩]
      remoteEndpoints := s.remoteEndpoints.set ep info' } where
  owned_lt := h.owned_lt
  remote_lt := h.remote_lt
  log_lt := h.log_lt
  known c ep' hremote hc := (bind_conn_set hinfo hconn ep').trans (h.known c ep' hremote hc)
  latest item hitem ep' hremote := by
    rw [bind_conn_set hinfo hconn ep']
    exact h.latest item hitem ep' hremote
  ordered := h.ordered
  due := h.due_set hinfo htime hfailed
  spaced := h.spaced_concat hinfo hdue retryAfter

theorem Sound.made (h : s.Sound) (hinfo : s.remoteEndpoints.info ep = some info)
    (hdue : ¬ now < info.retryTimepoint) (hexpired : s.expired info.conn = true) (kept : Bool) :
    Sound { s with
      attempts := s.attempts ++ [⟨ep, now, none⟩]
      remoteEndpoints := s.remoteEndpoints.set ep { info with conn := some s.next }
      unchecked := if kept then s.unchecked ++ [s.next] else s.unchecked
      remote := Function.update s.remote s.next (some ep)
      next := s.next + 1 } := by
  have hremote : ∀ c < s.next, Function.update s.remote s.next (some ep) c = s.remote c :=
    fun c hc => Function.update_of_ne (Nat.ne_of_lt hc) _ _
  have hnew : ((s.remoteEndpoints.set ep { info with conn := some s.next }).info ep).bind
      RemoteEndpointInfo.conn = some s.next := by
    rw [info_set_self]
    rfl
  have hothers : ∀ ep', ep' ≠ ep →
      (s.remoteEndpoints.set ep { info with conn := some s.next }).info ep' =
        s.remoteEndpoints.info ep' := fun ep' hother => info_set_of_ne _ hother _
  -- Nobody has a connection to the endpoint.
  have hnone : ∀ c, s.remote c = some ep → ¬ s.Owned c := by
    intro c hc howned
    have hknown := h.known c ep hc howned
    rw [hinfo, Option.bind_some] at hknown
    rw [hknown, expired, Bool.not_eq_true'] at hexpired
    exact of_decide_eq_false hexpired howned
  have howned : ∀ c, Owned { s with
      unchecked := if kept then s.unchecked ++ [s.next] else s.unchecked } c →
        s.Owned c ∨ c = s.next := by
    rintro c (hc | hrest)
    · dsimp only at hc
      split_ifs at hc
      · rcases List.mem_append.mp hc with hbefore | hlast
        · exact Or.inl (Or.inl hbefore)
        · exact Or.inr (List.mem_singleton.mp hlast)
      · exact Or.inl (Or.inl hc)
    · exact Or.inl (Or.inr hrest)
  constructor
  · intro c hc
    rcases howned c hc with hbefore | rfl
    · exact Nat.lt_succ_of_lt (h.owned_lt c hbefore)
    · exact Nat.lt_succ_self _
  · intro c ep' hc
    rcases eq_or_ne c s.next with rfl | hother
    · exact Nat.lt_succ_self _
    · dsimp only at hc
      rw [Function.update_of_ne hother] at hc
      exact Nat.lt_succ_of_lt (h.remote_lt c ep' hc)
  · exact fun item hitem => Nat.lt_succ_of_lt (h.log_lt item hitem)
  · intro c ep' hc hheld
    dsimp only at hc ⊢
    rcases howned c hheld with hbefore | rfl
    · rw [hremote c (h.owned_lt c hbefore)] at hc
      rcases eq_or_ne ep' ep with rfl | hother
      · exact absurd hbefore (hnone c hc)
      · rw [hothers ep' hother]
        exact h.known c ep' hc hbefore
    · rw [Function.update_self] at hc
      obtain rfl := Option.some.inj hc
      exact hnew
  · intro item hitem ep' hc
    have hlt := h.log_lt item hitem
    dsimp only at hc ⊢
    rw [hremote _ hlt] at hc
    rcases eq_or_ne ep' ep with rfl | hother
    · exact ⟨s.next, hnew, Nat.le_of_lt hlt⟩
    · rw [hothers ep' hother]
      exact h.latest item hitem ep' hc
  · refine h.ordered.imp_of_mem fun {item item'} hitem hitem' horder ep' hc hc' => ?_
    dsimp only at hc hc'
    rw [hremote _ (h.log_lt item hitem)] at hc
    rw [hremote _ (h.log_lt item' hitem')] at hc'
    exact horder ep' hc hc'
  · have htime : info.retryTimepoint ≤
        ({ info with conn := some s.next } : RemoteEndpointInfo).retryTimepoint := le_refl _
    exact h.due_set hinfo htime fun wait hwait => absurd hwait (Option.some_ne_none wait).symm
  · exact h.spaced_concat hinfo hdue none

theorem Sound.dial (h : s.Sound) (hinfo : s.remoteEndpoints.info ep = some info)
    (answer : Connect) : (s.dial now ep info answer).Sound := by
  unfold Dialing.dial
  split_ifs with hdue hexpired
  · exact h
  · exact h
  · rw [Bool.not_eq_true', Bool.not_eq_false] at hexpired
    cases answer with
    | made kept => exact h.made hinfo hdue hexpired kept
    | timedOut =>
        have hattempted : Sound { s with
            attempts := s.attempts ++ [⟨ep, now, none⟩]
            remoteEndpoints := s.remoteEndpoints.set ep info } :=
          h.attempted hinfo hdue rfl (le_refl _)
            fun wait hwait => absurd hwait (Option.some_ne_none wait).symm
        rwa [set_of_info hinfo] at hattempted
    | fault =>
        let info' : RemoteEndpointInfo :=
          { info with retryTimepoint := now + info.retryInterval }
        have htime : info.retryTimepoint ≤ info'.retryTimepoint :=
          show info.retryTimepoint ≤ now + info.retryInterval by omega
        refine h.attempted hinfo hdue (rfl : info'.conn = info.conn) htime fun wait hwait => ?_
        rw [← Option.some.inj hwait]

theorem Sound.visit (h : s.Sound) (rest : List Net.Endpoint) (answer : Connect) :
    (s.visit now rest answer).Sound := by
  have hpc : ∀ {s : Dialing} (pc : Pc), s.Sound → Sound { s with pc := pc } :=
    fun pc h => h.passes ⟨rfl, rfl, rfl, rfl, rfl, fun _ hc => hc⟩
  cases rest with
  | nil => exact hpc .asleep h
  | cons ep rest =>
      unfold Dialing.visit
      dsimp only
      split_ifs
      · exact hpc .asleep h
      · cases hinfo : s.remoteEndpoints.info ep with
        | none => exact hpc (.round now rest) h
        | some info => exact hpc (.round now rest) (h.dial hinfo answer)

theorem Sound.accept (h : s.Sound) :
    Sound { s with unchecked := s.unchecked ++ [s.next], next := s.next + 1 } := by
  have howned : ∀ c, Owned { s with unchecked := s.unchecked ++ [s.next] } c →
      s.Owned c ∨ c = s.next := by
    rintro c (hc | hrest)
    · rcases List.mem_append.mp hc with hbefore | hlast
      · exact Or.inl (Or.inl hbefore)
      · exact Or.inr (List.mem_singleton.mp hlast)
    · exact Or.inl (Or.inr hrest)
  constructor
  · intro c hc
    rcases howned c hc with hbefore | rfl
    · exact Nat.lt_succ_of_lt (h.owned_lt c hbefore)
    · exact Nat.lt_succ_self _
  · exact fun c ep hc => Nat.lt_succ_of_lt (h.remote_lt c ep hc)
  · exact fun item hitem => Nat.lt_succ_of_lt (h.log_lt item hitem)
  · intro c ep hc hheld
    rcases howned c hheld with hbefore | rfl
    · exact h.known c ep hc hbefore
    · exact absurd (h.remote_lt _ ep hc) (Nat.lt_irrefl _)
  · exact h.latest
  · exact h.ordered
  · exact h.due
  · exact h.spaced

theorem Sound.push (h : s.Sound) (hreading : s.reading = some c) (packet : TcpPacket) :
    Sound { s with recvQueue := s.recvQueue ++ [(c, packet)] } := by
  have hheld : s.Owned c := Or.inr (Or.inr (Or.inl hreading))
  have howned : ∀ c', Owned { s with recvQueue := s.recvQueue ++ [(c, packet)] } c' →
      s.Owned c' := by
    intro c' hc
    grind [Owned]
  have hlog : log { s with recvQueue := s.recvQueue ++ [(c, packet)] } = s.log ++ [(c, packet)] :=
    (List.append_assoc _ _ _).symm
  constructor
  · exact fun c' hc' => h.owned_lt c' (howned c' hc')
  · exact h.remote_lt
  · rw [hlog]
    intro item hitem
    rcases List.mem_append.mp hitem with hbefore | hlast
    · exact h.log_lt item hbefore
    · rw [List.mem_singleton.mp hlast]
      exact h.owned_lt c hheld
  · exact fun c' ep hc' hheld' => h.known c' ep hc' (howned c' hheld')
  · rw [hlog]
    intro item hitem ep hremote
    rcases List.mem_append.mp hitem with hbefore | hlast
    · exact h.latest item hbefore ep hremote
    · obtain rfl := List.mem_singleton.mp hlast
      exact ⟨c, h.known c ep hremote hheld, le_refl c⟩
  · rw [hlog]
    refine List.pairwise_append.mpr ⟨h.ordered, List.pairwise_singleton _ _, ?_⟩
    intro item hitem item' hitem' ep hremote hremote'
    obtain rfl := List.mem_singleton.mp hitem'
    obtain ⟨latest, hlatest, hle⟩ := h.latest item hitem ep hremote
    rw [h.known c ep hremote' hheld] at hlatest
    rwa [Option.some.inj hlatest]
  · exact h.due
  · exact h.spaced

theorem Sound.step {act : Act} (h : s.Sound) (hstep : s.step act = .ok s') : s'.Sound := by
  have hsame : ∀ {s'}, s' = s → s'.Sound := fun heq => heq ▸ h
  cases act with
  | test now =>
      cases hpc : s.pc with
      | test =>
          simp only [Dialing.step, hpc] at hstep
          obtain rfl := Except.ok.inj hstep
          exact h.passes ⟨rfl, rfl, rfl, rfl, rfl, fun _ hc => hc⟩
      | _ => simp only [Dialing.step, hpc, reduceCtorEq] at hstep
  | visit answer =>
      cases hpc : s.pc with
      | round now rest =>
          simp only [Dialing.step, hpc] at hstep
          obtain rfl := Except.ok.inj hstep
          exact h.visit rest answer
      | _ => simp only [Dialing.step, hpc, reduceCtorEq] at hstep
  | wake =>
      cases hpc : s.pc with
      | asleep =>
          simp only [Dialing.step, hpc] at hstep
          obtain rfl := Except.ok.inj hstep
          exact h.passes ⟨rfl, rfl, rfl, rfl, rfl, fun _ hc => hc⟩
      | _ => simp only [Dialing.step, hpc, reduceCtorEq] at hstep
  | stop =>
      obtain rfl := Except.ok.inj hstep
      exact h.passes ⟨rfl, rfl, rfl, rfl, rfl, fun _ hc => hc⟩
  | accept =>
      obtain rfl := Except.ok.inj hstep
      exact h.accept
  | checked c added =>
      rcases Classical.em (c ∈ s.unchecked) with hmem | hnot
      · simp only [Dialing.step, if_pos hmem] at hstep
        obtain rfl := Except.ok.inj hstep
        refine h.passes ⟨rfl, rfl, rfl, rfl, rfl, fun c' hc => ?_⟩
        cases added <;> grind [Owned]
      · simp only [Dialing.step, if_neg hnot, reduceCtorEq] at hstep
  | event c =>
      rcases Classical.em (s.reading = none ∧ c ∈ s.allConns) with hheld | hnot
      · simp only [Dialing.step, if_pos hheld] at hstep
        obtain rfl := Except.ok.inj hstep
        exact h.passes ⟨rfl, rfl, rfl, rfl, rfl, fun c' hc => by grind [Owned]⟩
      · simp only [Dialing.step, if_neg hnot, reduceCtorEq] at hstep
  | push packet =>
      cases hreading : s.reading with
      | none => simp only [Dialing.step, hreading, reduceCtorEq] at hstep
      | some c =>
          simp only [Dialing.step, hreading] at hstep
          obtain rfl := Except.ok.inj hstep
          have hpush := h.push hreading packet
          rwa [hreading] at hpush
  | eventDone =>
      obtain rfl := Except.ok.inj hstep
      exact h.passes ⟨rfl, rfl, rfl, rfl, rfl, fun c' hc => by grind [Owned]⟩
  | eraseConnection c =>
      obtain rfl := Except.ok.inj hstep
      exact h.passes ⟨rfl, rfl, rfl, rfl, rfl, fun c' hc => by grind [Owned]⟩
  | getPacket =>
      cases hqueue : s.recvQueue with
      | nil =>
          simp only [Dialing.step, hqueue] at hstep
          exact hsame (Except.ok.inj hstep).symm
      | cons item recvQueue =>
          obtain ⟨c, packet⟩ := item
          simp only [Dialing.step, hqueue] at hstep
          obtain rfl := Except.ok.inj hstep
          refine h.passes ⟨rfl, rfl, rfl, rfl, ?_, fun c' hc => by grind [Owned]⟩
          rw [log, log, hqueue, List.append_assoc, List.singleton_append]
  | dealt =>
      obtain rfl := Except.ok.inj hstep
      exact h.passes ⟨rfl, rfl, rfl, rfl, rfl, fun c' hc => by grind [Owned]⟩

theorem sound_of_reaches (h : dialing.Reaches (fun _ _ => True) s) : s.Sound := by
  refine h.invariant ?_ fun s act s' hs _ _ hstep => hs.step hstep
  rintro s ⟨cfg, rfl⟩
  have hnobody : ∀ (remoteEndpoints : RemoteEndpoints) c, ¬ Owned { remoteEndpoints } c := by
    intro remoteEndpoints c
    simp [Owned]
  constructor
  · exact fun c hc => absurd hc (hnobody _ c)
  · exact fun c ep hc => absurd hc (Option.some_ne_none ep).symm
  · exact fun item hitem => absurd hitem List.not_mem_nil
  · exact fun c ep _ hc => absurd hc (hnobody _ c)
  · exact fun item hitem => absurd hitem List.not_mem_nil
  · exact List.Pairwise.nil
  · exact fun a ha => absurd ha List.not_mem_nil
  · exact List.Pairwise.nil

end Dialing

end CasualGame.Base.TcpClient
