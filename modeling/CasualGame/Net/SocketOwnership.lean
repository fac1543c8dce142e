import CasualGame.Lib.Holding
import CasualGame.Lib.Run
import CasualGame.Net.Endpoint

/-!
Who owns the descriptors of sockets: connections are created, moved, shut down, closed and
destroyed in any order, among the other descriptors of the process.
-/

namespace CasualGame.Net

open Lib
open Lib.Run

section Code

/-- A bit for each direction; none is `closed` and both are `read_nad_write`. -/
structure ConnState where
  read : Bool
  write : Bool
  deriving DecidableEq

namespace ConnState

def closed : ConnState := ⟨false, false⟩

def readNadWrite : ConnState := ⟨true, true⟩

/-- `m_stateValue & ~stateValue` -/
def without (state cut : ConnState) : ConnState :=
  ⟨state.read && !cut.read, state.write && !cut.write⟩

/-- What `::shutdown` is called with. The case of `read` goes on into that of `write`. -/
def cut (state : ConnState) : ConnState :=
  if state = ⟨true, false⟩ then readNadWrite else state

end ConnState

structure TcpConnection where
  /-- `m_fd`, `none` for `INVALID_SOCKET_FD`. -/
  fd : Option Nat
  remoteEndpoint : Endpoint
  state : ConnState := .readNadWrite
  /-- The handlers of `e_close`. -/
  handlers : List Nat := []

/-- What a descriptor is open for. -/
inductive Descriptor
  | socket (i : Nat)
  | other
  deriving DecidableEq

def Descriptor.socket? : Descriptor → Option Nat
  | .socket i => some i
  | .other => none

/-- A socket as the kernel has it, and the handlers registered for its close. -/
structure Socket where
  peer : Endpoint
  usable : ConnState := .readNadWrite
  registered : List Nat := []

structure Sockets where
  conns : Nat → Option TcpConnection := fun _ => none
  created : Nat := 0
  fds : Nat → Option Descriptor := fun _ => none
  sockets : Nat → Option Socket := fun _ => none
  opened : Nat := 0
  closed : List Nat := []
  /-- What `::close` was called with that was no open socket. -/
  misclosed : List Nat := []
  raised : List (Nat × Nat) := []
  /-- The sockets of connections that another was assigned to. -/
  lost : List Nat := []

namespace Sockets

variable (s : Sockets)

def sock (fd : Nat) : Option Nat := (s.fds fd).bind Descriptor.socket?

def setConn (p : Nat) (c : Option TcpConnection) : Sockets :=
  { s with conns := Function.update s.conns p c }

/-- `TcpConnection::create`, with what `::socket` or `::accept` has given. -/
def create (fd : Nat) (ep : Endpoint) : Sockets :=
  { s with
    conns := Function.update s.conns s.created (some { fd := some fd, remoteEndpoint := ep })
    created := s.created + 1
    fds := Function.update s.fds fd (some (.socket s.opened))
    sockets := Function.update s.sockets s.opened (some { peer := ep })
    opened := s.opened + 1 }

/-- `::close`, and then `e_close`. -/
def closeFd (fd : Nat) (handlers : List Nat) : Sockets :=
  match s.sock fd with
  | some i =>
      { s with
        fds := Function.update s.fds fd none
        closed := s.closed ++ [i]
        raised := s.raised ++ handlers.map (·, i) }
  | none => { s with misclosed := s.misclosed ++ [fd] }

def close (p : Nat) : Sockets :=
  match s.conns p with
  | none => s
  | some c =>
      match c.fd with
      | none => s
      | some fd => (s.closeFd fd c.handlers).setConn p (some { c with fd := none })

/-- The move constructor, by which a `BufferedConnection` takes over a connection. -/
def moveConstruct (other : Nat) : Sockets :=
  match s.conns other with
  | none => s
  | some c =>
      { s with
        conns := Function.update (Function.update s.conns other (some { c with fd := none }))
          s.created (some c)
        created := s.created + 1 }

/-- The move assignment. The remote endpoint is assigned to itself. -/
def moveAssign (p other : Nat) : Sockets :=
  match s.conns p, s.conns other with
  | some d, some c =>
      let assigned := { d with fd := c.fd, handlers := c.handlers, state := c.state }
      let moved := if other = p then assigned else c
      { s with
        conns := Function.update (Function.update s.conns p (some assigned)) other
          (some { moved with fd := none })
        lost := s.lost ++ (d.fd.bind s.sock).toList }
  | _, _ => s

def setSocket (i : Nat) (f : Socket → Socket) : Sockets :=
  { s with sockets := Function.update s.sockets i ((s.sockets i).map f) }

/-- `::shutdown` -/
def shutdownFd (fd : Nat) (cut : ConnState) : Sockets :=
  match s.sock fd with
  | some i => s.setSocket i fun k => { k with usable := k.usable.without cut }
  | none => s

def shutdown (p : Nat) (state : ConnState) : Sockets :=
  match s.conns p with
  | none => s
  | some c =>
      match c.fd with
      | none => s
      | some fd =>
          let s := (s.shutdownFd fd state.cut).setConn p
            (some { c with state := c.state.without state })
          if c.state.without state = .closed then s.close p else s

/-- The destructors of the connection and of its socket. -/
def destroy (p : Nat) : Sockets :=
  match s.conns p with
  | none => s
  | some c => ((if c.state ≠ .closed then s.close p else s).close p).setConn p none

/-- `e_close.reg` -/
def regClose (p handler : Nat) : Sockets :=
  match s.conns p with
  | none => s
  | some c =>
      let s := s.setConn p (some { c with handlers := c.handlers ++ [handler] })
      match c.fd.bind s.sock with
      | some i => s.setSocket i fun k => { k with registered := k.registered ++ [handler] }
      | none => s

inductive Act
  | create (fd : Nat) (ep : Endpoint)
  | moveConstruct (other : Nat)
  | moveAssign (p other : Nat)
  | shutdown (p : Nat) (state : ConnState)
  | close (p : Nat)
  | destroy (p : Nat)
  | regClose (p handler : Nat)
  | openOther (fd : Nat)
  | closeOther (fd : Nat)

/-- The kernel gives out descriptors that are not open, and the rest of the process closes
its own. -/
def Allowed : Act → Prop
  | .create fd _ | .openOther fd => s.fds fd = none
  | .closeOther fd => s.fds fd = some .other
  | .moveConstruct .. | .moveAssign .. | .shutdown .. | .close _ | .destroy _ | .regClose .. => True

instance (act : Act) : Decidable (s.Allowed act) :=
  match act with
  | .create fd _ | .openOther fd => inferInstanceAs (Decidable (s.fds fd = none))
  | .closeOther fd => inferInstanceAs (Decidable (s.fds fd = some .other))
  | .moveConstruct .. | .moveAssign .. | .shutdown .. | .close _ | .destroy _ | .regClose .. =>
      .isTrue trivial

def step : Act → Sockets
  | .create fd ep => s.create fd ep
  | .moveConstruct other => s.moveConstruct other
  | .moveAssign p other => s.moveAssign p other
  | .shutdown p state => s.shutdown p state
  | .close p => s.close p
  | .destroy p => s.destroy p
  | .regClose p handler => s.regClose p handler
  | .openOther fd => { s with fds := Function.update s.fds fd (some .other) }
  | .closeOther fd => { s with fds := Function.update s.fds fd none }

def system : System Sockets Act Empty where
  Init s := s = {}
  Allowed s act := s.Allowed act
  step s act := .ok (s.step act)

instance (act : Act) : Decidable (system.Allowed s act) :=
  inferInstanceAs (Decidable (s.Allowed act))

end Sockets

end Code

/-- What is open in `a` is open in `b`. -/
def ConnState.Within (a b : ConnState) : Prop :=
  (a.read = true → b.read = true) ∧ (a.write = true → b.write = true)

theorem ConnState.Within.shutdown {a b : ConnState} (h : a.Within b) (state : ConnState) :
    (a.without state.cut).Within (b.without state) := by
  have hread : state.read = true → state.cut.read = true := by
    unfold cut
    split_ifs
    · exact fun _ => rfl
    · exact id
  have hwrite : state.write = true → state.cut.write = true := by
    unfold cut
    split_ifs
    · exact fun _ => rfl
    · exact id
  simp only [Within, without, Bool.and_eq_true, Bool.not_eq_true', ← Bool.not_eq_true] at h ⊢
  exact ⟨fun ha => ⟨h.1 ha.1, fun hb => ha.2 (hread hb)⟩,
    fun ha => ⟨h.2 ha.1, fun hb => ha.2 (hwrite hb)⟩⟩

namespace Sockets

section Ownership

variable {s s' : Sockets} {p : Nat} {c : TcpConnection} {fd i : Nat}

def fdOf (c : Option TcpConnection) : Option Nat := c.bind TcpConnection.fd

def socketOf (d : Option Descriptor) : Option Nat := d.bind Descriptor.socket?

/-- Who has which descriptor, and which socket it stands for. -/
def ledger (s : Sockets) : Holding Nat Nat where
  holds := fdOf ∘ s.conns
  names := socketOf ∘ s.fds
  opened := s.opened
  closed := s.closed
  lost := s.lost

/-- The handlers registered on the connections that have held the socket. -/
def registered (s : Sockets) (i : Nat) : List Nat := (s.sockets i).elim [] Socket.registered

/-- What connections say of their sockets is so, and a close is told to all its handlers. -/
structure Agrees (s : Sockets) : Prop where
  fresh : ∀ p, s.created ≤ p → s.conns p = none
  misclosed : s.misclosed = []
  socket : ∀ {p c fd i}, s.conns p = some c → c.fd = some fd → s.sock fd = some i →
    ∃ k, s.sockets i = some k ∧ k.registered = c.handlers ∧ k.usable.Within c.state
  raised : s.raised = s.closed.flatMap fun i => (s.registered i).map (·, i)

theorem holds_of_conn (hp : s.conns p = some c) : s.ledger.holds p = c.fd := by
  change fdOf (s.conns p) = c.fd
  rw [hp]
  rfl

theorem exists_conn_of_holds (h : s.ledger.holds p = some fd) :
    ∃ c, s.conns p = some c ∧ c.fd = some fd :=
  Option.bind_eq_some_iff.mp h

theorem ledger_setConn_eq {c : Option TcpConnection} (hfd : fdOf (s.conns p) = fdOf c) :
    (s.setConn p c).ledger = s.ledger := by
  unfold ledger setConn
  dsimp only
  rw [Function.comp_update, ← hfd]
  congr 1
  exact Function.update_eq_self p (fdOf ∘ s.conns)

theorem ledger_create (ep : Endpoint) :
    (s.create fd ep).ledger = s.ledger.acquire s.created fd := by
  unfold ledger create Holding.acquire
  dsimp only
  rw [Function.comp_update, Function.comp_update]
  rfl

theorem ledger_moveAssign {other : Nat} {d : TcpConnection} (hp : s.conns p = some d)
    (hother : s.conns other = some c) :
    (s.moveAssign p other).ledger = s.ledger.transfer other p := by
  unfold moveAssign
  rw [hp, hother]
  unfold ledger Holding.transfer
  dsimp only
  rw [Function.comp_update, Function.comp_update, Function.comp_apply, Function.comp_apply,
    hp, hother]
  rfl

theorem ledger_moveConstruct {other : Nat} (h : Agrees s) (hother : s.conns other = some c) :
    (s.moveConstruct other).ledger = s.ledger.transfer other s.created := by
  have hnone := h.fresh s.created (Nat.le_refl _)
  have hne : other ≠ s.created := by
    rintro rfl
    cases hnone.symm.trans hother
  unfold moveConstruct
  rw [hother]
  unfold ledger Holding.transfer
  dsimp only
  rw [Function.comp_update, Function.comp_update, Function.comp_apply, Function.comp_apply,
    hnone, hother, Function.update_comm hne]
  congr 1
  exact (List.append_nil _).symm

theorem close_of_fd (hp : s.conns p = some c) (hfd : c.fd = some fd) (hi : s.sock fd = some i) :
    s.close p = { s with
      conns := Function.update s.conns p (some { c with fd := none })
      fds := Function.update s.fds fd none
      closed := s.closed ++ [i]
      raised := s.raised ++ c.handlers.map (·, i) } := by
  simp only [close, hp, hfd, closeFd, hi]
  rfl

theorem close_of_none (hp : s.conns p = some c) (hfd : c.fd = none) : s.close p = s := by
  simp only [close, hp, hfd]

theorem ledger_close (hp : s.conns p = some c) (hfd : c.fd = some fd) (hi : s.sock fd = some i) :
    (s.close p).ledger = s.ledger.release p fd i := by
  rw [close_of_fd hp hfd hi]
  unfold ledger Holding.release
  dsimp only
  rw [Function.comp_update, Function.comp_update]
  rfl

theorem sock_ne {q : Nat} {d : TcpConnection} {fd' i' : Nat} (hs : s.ledger.Sound)
    (hp : s.conns p = some c) (hfd : c.fd = some fd) (hi : s.sock fd = some i)
    (hq : s.conns q = some d) (hfd' : d.fd = some fd') (hi' : s.sock fd' = some i')
    (hne : q ≠ p) : fd' ≠ fd ∧ i' ≠ i := by
  have hholds : s.ledger.holds p = some fd := (holds_of_conn hp).trans hfd
  have hholds' : s.ledger.holds q = some fd' := (holds_of_conn hq).trans hfd'
  have hother : fd' ≠ fd := by
    rintro rfl
    exact hne (hs.unshared hholds' hholds)
  refine ⟨hother, ?_⟩
  rintro rfl
  exact hother (hs.single hi' hi)

theorem Agrees.create (h : Agrees s) (hs : s.ledger.Sound) (hfd : s.fds fd = none) (ep : Endpoint) :
    Agrees (s.create fd ep) := by
  have hsockets : ∀ j, j < s.opened → (s.create fd ep).sockets j = s.sockets j :=
    fun j hj => Function.update_of_ne (Nat.ne_of_lt hj) ..
  refine ⟨fun q hq => ?_, h.misclosed, ?_, ?_⟩
  · have hlt : s.created < q := hq
    exact (Function.update_of_ne (Nat.ne_of_gt hlt) ..).trans (h.fresh q (Nat.le_of_lt hlt))
  · intro q d fd' i hq hfd' hi
    change Function.update s.conns s.created _ q = some d at hq
    change (Function.update s.fds fd (some (.socket s.opened)) fd').bind Descriptor.socket? =
      some i at hi
    rcases eq_or_ne q s.created with rfl | hne
    · rw [Function.update_self] at hq
      obtain rfl := Option.some.inj hq
      obtain rfl := Option.some.inj hfd'
      rw [Function.update_self] at hi
      obtain rfl := Option.some.inj hi
      exact ⟨_, Function.update_self .., rfl, id, id⟩
    · rw [Function.update_of_ne hne] at hq
      obtain ⟨j, hj⟩ := hs.named ((holds_of_conn hq).trans hfd')
      have hother : fd' ≠ fd := by
        rintro rfl
        have hopen : (s.fds fd').bind Descriptor.socket? = some j := hj
        rw [hfd] at hopen
        cases hopen
      rw [Function.update_of_ne hother] at hi
      rw [hsockets i (hs.open_lt hi)]
      exact h.socket hq hfd' hi
  · refine h.raised.trans (List.flatMap_congr fun j hj => ?_)
    rw [registered, registered, hsockets j (hs.closed_lt j hj)]

theorem Agrees.close (h : Agrees s) (hs : s.ledger.Sound) (p : Nat) : Agrees (s.close p) := by
  cases hp : s.conns p with
  | none =>
      simp only [Sockets.close, hp]
      exact h
  | some c =>
      cases hfd : c.fd with
      | none =>
          rw [close_of_none hp hfd]
          exact h
      | some fd =>
          obtain ⟨i, hi⟩ := hs.named ((holds_of_conn hp).trans hfd)
          rw [close_of_fd hp hfd hi]
          refine ⟨fun q hq => ?_, h.misclosed, ?_, ?_⟩
          · have hne : q ≠ p := by
              rintro rfl
              cases hp.symm.trans (h.fresh q hq)
            exact (Function.update_of_ne hne ..).trans (h.fresh q hq)
          · intro q d fd' i' hq hfd' hi'
            dsimp only at hq
            rcases eq_or_ne q p with rfl | hne
            · rw [Function.update_self] at hq
              obtain rfl := Option.some.inj hq
              cases hfd'
            · rw [Function.update_of_ne hne] at hq
              obtain ⟨j, hj⟩ := hs.named ((holds_of_conn hq).trans hfd')
              have hother := (sock_ne hs hp hfd hi hq hfd' hj hne).1
              change (Function.update s.fds fd none fd').bind Descriptor.socket? = some i' at hi'
              rw [Function.update_of_ne hother] at hi'
              exact h.socket hq hfd' hi'
          · obtain ⟨k, hk, hregistered, -⟩ := h.socket hp hfd hi
            have hself : s.registered i = c.handlers := by
              rw [registered, hk]
              exact hregistered
            dsimp only
            rw [List.flatMap_append, List.flatMap_singleton, h.raised, ← hself]
            rfl

theorem Agrees.of_conns (h : Agrees s) (hfresh : ∀ q, s'.created ≤ q → s'.conns q = none)
    (hconns : ∀ q d, s'.conns q = some d → d.fd.isSome → ∃ q₀ c₀, s.conns q₀ = some c₀ ∧
      c₀.fd = d.fd ∧ c₀.handlers = d.handlers ∧ c₀.state = d.state)
    (hsock : s'.sock = s.sock) (hsockets : s'.sockets = s.sockets) (hclosed : s'.closed = s.closed)
    (hraised : s'.raised = s.raised) (hmisclosed : s'.misclosed = s.misclosed) : Agrees s' := by
  refine ⟨hfresh, hmisclosed.trans h.misclosed, ?_, ?_⟩
  · intro q d fd i hq hfd hi
    obtain ⟨q₀, c₀, hq₀, hfd₀, hhandlers, hstate⟩ := hconns q d hq (hfd ▸ rfl)
    rw [hsockets, ← hhandlers, ← hstate]
    exact h.socket hq₀ (hfd₀.trans hfd) (hsock ▸ hi)
  · rw [hraised, hclosed, h.raised]
    refine List.flatMap_congr fun j _ => ?_
    rw [registered, registered, hsockets]

theorem Agrees.moveConstruct (h : Agrees s) (other : Nat) : Agrees (s.moveConstruct other) := by
  unfold Sockets.moveConstruct
  cases hother : s.conns other with
  | none => exact h
  | some c =>
      have hlt : other < s.created := by
        apply Nat.lt_of_not_le
        intro hle
        cases (h.fresh other hle).symm.trans hother
      refine h.of_conns (fun q hq => ?_) (fun q d hq hfd => ?_) rfl rfl rfl rfl rfl
      · have hlt' : s.created < q := hq
        dsimp only
        rw [Function.update_of_ne (by omega), Function.update_of_ne (by omega)]
        exact h.fresh q (by omega)
      · dsimp only at hq
        rcases eq_or_ne q s.created with rfl | hne
        · rw [Function.update_self] at hq
          obtain rfl := Option.some.inj hq
          exact ⟨other, _, hother, rfl, rfl, rfl⟩
        rw [Function.update_of_ne hne] at hq
        rcases eq_or_ne q other with rfl | hne
        · rw [Function.update_self] at hq
          obtain rfl := Option.some.inj hq
          cases hfd
        · rw [Function.update_of_ne hne] at hq
          exact ⟨q, d, hq, rfl, rfl, rfl⟩

theorem Agrees.moveAssign (h : Agrees s) (p other : Nat) : Agrees (s.moveAssign p other) := by
  unfold Sockets.moveAssign
  cases hp : s.conns p with
  | none => exact h
  | some d =>
      cases hother : s.conns other with
      | none => exact h
      | some c =>
          refine h.of_conns (fun q hq => ?_) (fun q e hq hfd => ?_) rfl rfl rfl rfl rfl
          · have hnone := h.fresh q hq
            dsimp only
            rw [Function.update_of_ne, Function.update_of_ne, hnone]
            · rintro rfl
              cases hnone.symm.trans hp
            · rintro rfl
              cases hnone.symm.trans hother
          · dsimp only at hq
            rcases eq_or_ne q other with rfl | hne
            · rw [Function.update_self] at hq
              obtain rfl := Option.some.inj hq
              cases hfd
            rw [Function.update_of_ne hne] at hq
            rcases eq_or_ne q p with rfl | hne
            · rw [Function.update_self] at hq
              obtain rfl := Option.some.inj hq
              exact ⟨other, c, hother, rfl, rfl, rfl⟩
            · rw [Function.update_of_ne hne] at hq
              exact ⟨q, e, hq, rfl, rfl, rfl⟩

theorem Agrees.setSocket (h : Agrees s) (hs : s.ledger.Sound) (hp : s.conns p = some c)
    (hfd : c.fd = some fd) (hi : s.sock fd = some i) {f : Socket → Socket} {c' : TcpConnection}
    (hfd' : c'.fd = c.fd) (hf : ∀ k, k.registered = c.handlers → k.usable.Within c.state →
      (f k).registered = c'.handlers ∧ (f k).usable.Within c'.state) :
    Agrees ((s.setSocket i f).setConn p (some c')) := by
  refine ⟨fun q hq => ?_, h.misclosed, ?_, ?_⟩
  · have hnone := h.fresh q hq
    have hne : q ≠ p := by
      rintro rfl
      cases hnone.symm.trans hp
    exact (Function.update_of_ne hne ..).trans hnone
  · intro q d fd' i' hq hfd₁ hi'
    change Function.update s.conns p (some c') q = some d at hq
    change ∃ k, Function.update s.sockets i ((s.sockets i).map f) i' = some k ∧ _
    rcases eq_or_ne q p with rfl | hne
    · rw [Function.update_self] at hq
      obtain rfl := Option.some.inj hq
      obtain rfl : fd = fd' := Option.some.inj (hfd.symm.trans (hfd'.symm.trans hfd₁))
      obtain rfl : i = i' := Option.some.inj (hi.symm.trans hi')
      obtain ⟨k, hk, hregistered, hwithin⟩ := h.socket hp hfd hi
      obtain ⟨hregistered', hwithin'⟩ := hf k hregistered hwithin
      rw [Function.update_self, hk]
      exact ⟨_, rfl, hregistered', hwithin'⟩
    · rw [Function.update_of_ne hne] at hq
      rw [Function.update_of_ne (sock_ne hs hp hfd hi hq hfd₁ hi' hne).2]
      exact h.socket hq hfd₁ hi'
  · refine h.raised.trans (List.flatMap_congr fun j hj => ?_)
    have hne : j ≠ i := by
      rintro rfl
      exact hs.not_closed hi hj
    rw [registered, registered]
    change _ = List.map _ (Option.elim (Function.update s.sockets i _ j) _ _)
    rw [Function.update_of_ne hne]

/-- A connection that says it is closed has no descriptor. -/
def Open (s : Sockets) : Prop := ∀ p c, s.conns p = some c → c.fd.isSome → c.state ≠ .closed

structure Owned (s : Sockets) : Prop where
  sound : s.ledger.Sound
  agrees : Agrees s
  state : s.Open

theorem conns_close_self (hp : s.conns p = some c) (hs : s.ledger.Sound) :
    (s.close p).conns p = some { c with fd := none } := by
  cases hfd : c.fd with
  | none =>
      rw [close_of_none hp hfd, hp, ← hfd]
  | some fd =>
      obtain ⟨i, hi⟩ := hs.named ((holds_of_conn hp).trans hfd)
      rw [close_of_fd hp hfd hi]
      exact Function.update_self ..

theorem conns_close_ne {q : Nat} (hne : q ≠ p) : (s.close p).conns q = s.conns q := by
  unfold close
  cases s.conns p with
  | none => rfl
  | some c =>
      dsimp only
      cases c.fd with
      | none => rfl
      | some fd =>
          refine (Function.update_of_ne hne ..).trans ?_
          unfold closeFd
          cases s.sock fd with
          | none => rfl
          | some i => rfl

theorem sound_close (hs : s.ledger.Sound) (p : Nat) : (s.close p).ledger.Sound := by
  cases hp : s.conns p with
  | none =>
      simp only [close, hp]
      exact hs
  | some c =>
      cases hfd : c.fd with
      | none =>
          rw [close_of_none hp hfd]
          exact hs
      | some fd =>
          have hholds : s.ledger.holds p = some fd := (holds_of_conn hp).trans hfd
          obtain ⟨i, hi⟩ := hs.named hholds
          rw [ledger_close hp hfd hi]
          exact hs.release hholds hi

theorem open_close (hs : s.ledger.Sound)
    (h : ∀ q c, q ≠ p → s.conns q = some c → c.fd.isSome → c.state ≠ .closed) :
    (s.close p).Open := by
  intro q d hq hfd
  rcases eq_or_ne q p with rfl | hne
  · cases hp : s.conns q with
    | none =>
        simp only [close, hp] at hq
        cases hq
    | some c =>
        rw [conns_close_self hp hs] at hq
        obtain rfl := Option.some.inj hq
        cases hfd
  · rw [conns_close_ne hne] at hq
    exact h q d hne hq hfd

theorem Owned.close (h : Owned s) (p : Nat) : Owned (s.close p) :=
  ⟨sound_close h.sound p, h.agrees.close h.sound p,
    open_close h.sound fun q c _ hq hfd => h.state q c hq hfd⟩

theorem Owned.update (h : Owned s) {s' : Sockets} {c' : TcpConnection} (hp : s.conns p = some c)
    (hledger : s'.ledger = s.ledger) (hagrees : Agrees s')
    (hconns : s'.conns = Function.update s.conns p (some c'))
    (hstate : c'.fd.isSome → c'.state ≠ .closed) : Owned s' := by
  refine ⟨hledger ▸ h.sound, hagrees, fun q d hq hfd => ?_⟩
  rw [hconns] at hq
  rcases eq_or_ne q p with rfl | hne
  · rw [Function.update_self] at hq
    obtain rfl := Option.some.inj hq
    exact hstate hfd
  · rw [Function.update_of_ne hne] at hq
    exact h.state q d hq hfd

theorem Owned.create (h : Owned s) (hfd : s.fds fd = none) (ep : Endpoint) :
    Owned (s.create fd ep) := by
  refine ⟨?_, h.agrees.create h.sound hfd ep, fun q d hq hfd => ?_⟩
  · rw [ledger_create]
    apply h.sound.acquire
    · change fdOf (s.conns s.created) = none
      rw [h.agrees.fresh _ (Nat.le_refl _)]
      rfl
    · change socketOf (s.fds fd) = none
      rw [hfd]
      rfl
  · change Function.update s.conns s.created _ q = some d at hq
    rcases eq_or_ne q s.created with rfl | hne
    · rw [Function.update_self] at hq
      obtain rfl := Option.some.inj hq
      rintro ⟨⟩
    · rw [Function.update_of_ne hne] at hq
      exact h.state q d hq hfd

theorem Owned.moveConstruct (h : Owned s) (other : Nat) : Owned (s.moveConstruct other) := by
  cases hother : s.conns other with
  | none =>
      simp only [Sockets.moveConstruct, hother]
      exact h
  | some c =>
      refine ⟨?_, h.agrees.moveConstruct other, fun q d hq hfd => ?_⟩
      · rw [ledger_moveConstruct h.agrees hother]
        exact h.sound.transfer _ _
      · simp only [Sockets.moveConstruct, hother] at hq
        rcases eq_or_ne q s.created with rfl | hne
        · rw [Function.update_self] at hq
          obtain rfl := Option.some.inj hq
          exact h.state other _ hother hfd
        rw [Function.update_of_ne hne] at hq
        rcases eq_or_ne q other with rfl | hne
        · rw [Function.update_self] at hq
          obtain rfl := Option.some.inj hq
          cases hfd
        · rw [Function.update_of_ne hne] at hq
          exact h.state q d hq hfd

theorem Owned.moveAssign (h : Owned s) (p other : Nat) : Owned (s.moveAssign p other) := by
  cases hp : s.conns p with
  | none =>
      simp only [Sockets.moveAssign, hp]
      exact h
  | some d =>
      cases hother : s.conns other with
      | none =>
          simp only [Sockets.moveAssign, hp, hother]
          exact h
      | some c =>
          refine ⟨?_, h.agrees.moveAssign p other, fun q e hq hfd => ?_⟩
          · rw [ledger_moveAssign hp hother]
            exact h.sound.transfer _ _
          · simp only [Sockets.moveAssign, hp, hother] at hq
            rcases eq_or_ne q other with rfl | hne
            · rw [Function.update_self] at hq
              obtain rfl := Option.some.inj hq
              cases hfd
            rw [Function.update_of_ne hne] at hq
            rcases eq_or_ne q p with rfl | hne
            · rw [Function.update_self] at hq
              obtain rfl := Option.some.inj hq
              exact h.state other c hother hfd
            · rw [Function.update_of_ne hne] at hq
              exact h.state q e hq hfd

/-- The connection after `shutdown`, before it is closed. -/
def shut (s : Sockets) (p i : Nat) (c : TcpConnection) (state : ConnState) : Sockets :=
  (s.setSocket i fun k => { k with usable := k.usable.without state.cut }).setConn p
    (some { c with state := c.state.without state })

theorem shutdown_of_fd (hp : s.conns p = some c) (hfd : c.fd = some fd) (hi : s.sock fd = some i)
    (state : ConnState) : s.shutdown p state =
      if c.state.without state = .closed then (s.shut p i c state).close p
      else s.shut p i c state := by
  simp only [shutdown, shut, hp, hfd, shutdownFd, hi]

theorem Owned.shutdown (h : Owned s) (p : Nat) (state : ConnState) :
    Owned (s.shutdown p state) := by
  cases hp : s.conns p with
  | none =>
      simp only [Sockets.shutdown, hp]
      exact h
  | some c =>
      cases hfd : c.fd with
      | none =>
          simp only [Sockets.shutdown, hp, hfd]
          exact h
      | some fd =>
          obtain ⟨i, hi⟩ := h.sound.named ((holds_of_conn hp).trans hfd)
          have hagrees : Agrees (s.shut p i c state) :=
            h.agrees.setSocket h.sound hp hfd hi rfl fun k hregistered hwithin =>
              ⟨hregistered, hwithin.shutdown state⟩
          have hledger : (s.shut p i c state).ledger = s.ledger := by
            apply ledger_setConn_eq
            change fdOf (s.conns p) = _
            rw [hp]
            rfl
          rw [shutdown_of_fd hp hfd hi]
          split_ifs with hclosed
          · have hsound : (s.shut p i c state).ledger.Sound := hledger ▸ h.sound
            refine ⟨sound_close hsound p, hagrees.close hsound p, open_close hsound ?_⟩
            intro q d hne hq hfd'
            exact h.state q d ((Function.update_of_ne hne ..).symm.trans hq) hfd'
          · exact h.update hp hledger hagrees rfl fun _ => hclosed

theorem Owned.destroy (h : Owned s) (p : Nat) : Owned (s.destroy p) := by
  cases hp : s.conns p with
  | none =>
      simp only [Sockets.destroy, hp]
      exact h
  | some c =>
      obtain ⟨s₁, hs₁⟩ : ∃ s₁, s₁ = if c.state ≠ .closed then s.close p else s := ⟨_, rfl⟩
      have hfirst : Owned s₁ ∧ ∃ c₁, s₁.conns p = some c₁ := by
        subst hs₁
        split_ifs
        · exact ⟨h.close p, _, conns_close_self hp h.sound⟩
        · exact ⟨h, c, hp⟩
      obtain ⟨h₁, c₁, hp₁⟩ := hfirst
      have h₂ := h₁.close p
      have hp₂ := conns_close_self hp₁ h₁.sound
      simp only [Sockets.destroy, hp, ← hs₁]
      have hconns : ∀ q d, ((s₁.close p).setConn p none).conns q = some d →
          (s₁.close p).conns q = some d := by
        intro q d hq
        change Function.update (s₁.close p).conns p none q = some d at hq
        rcases eq_or_ne q p with rfl | hne
        · rw [Function.update_self] at hq
          cases hq
        · rwa [Function.update_of_ne hne] at hq
      refine ⟨?_, h₂.agrees.of_conns (fun q hq => ?_) (fun q d hq _ => ⟨q, d, hconns q d hq, rfl,
        rfl, rfl⟩) rfl rfl rfl rfl rfl, fun q d hq hfd => h₂.state q d (hconns q d hq) hfd⟩
      · rw [ledger_setConn_eq]
        · exact h₂.sound
        · rw [hp₂]
          rfl
      · cases hnone : ((s₁.close p).setConn p none).conns q with
        | none => rfl
        | some d => cases (h₂.agrees.fresh q hq).symm.trans (hconns q d hnone)

theorem regClose_of_fd (hp : s.conns p = some c) (hfd : c.fd = some fd) (hi : s.sock fd = some i)
    (handler : Nat) : s.regClose p handler =
      (s.setSocket i fun k => { k with registered := k.registered ++ [handler] }).setConn p
        (some { c with handlers := c.handlers ++ [handler] }) := by
  have hsock : ∀ c', (s.setConn p c').sock fd = some i := fun _ => hi
  simp only [regClose, hp, hfd, Option.bind_some, hsock]
  rfl

theorem regClose_of_none (hp : s.conns p = some c) (hfd : c.fd = none) (handler : Nat) :
    s.regClose p handler = s.setConn p (some { c with handlers := c.handlers ++ [handler] }) := by
  simp only [regClose, hp, hfd, Option.bind_none]

theorem Owned.regClose (h : Owned s) (p handler : Nat) : Owned (s.regClose p handler) := by
  cases hp : s.conns p with
  | none =>
      simp only [Sockets.regClose, hp]
      exact h
  | some c =>
      have hholds : fdOf (s.conns p) =
          fdOf (some { c with handlers := c.handlers ++ [handler] }) := by
        rw [hp]
        rfl
      cases hfd : c.fd with
      | none =>
          have hconn : ∀ q d, Function.update s.conns p
              (some { c with handlers := c.handlers ++ [handler] }) q = some d →
              d.fd.isSome → s.conns q = some d := by
            intro q d hq hsome
            rcases eq_or_ne q p with rfl | hne
            · rw [Function.update_self] at hq
              obtain rfl := Option.some.inj hq
              rw [hfd] at hsome
              cases hsome
            · rwa [Function.update_of_ne hne] at hq
          rw [regClose_of_none hp hfd]
          refine h.update hp (ledger_setConn_eq hholds) (h.agrees.of_conns (fun q hq => ?_)
            (fun q d hq hsome => ⟨q, d, hconn q d hq hsome, rfl, rfl, rfl⟩) rfl rfl rfl rfl rfl)
            rfl fun hsome => h.state p c hp hsome
          have hnone := h.agrees.fresh q hq
          have hne : q ≠ p := by
            rintro rfl
            cases hnone.symm.trans hp
          exact (Function.update_of_ne hne ..).trans hnone
      | some fd =>
          obtain ⟨i, hi⟩ := h.sound.named ((holds_of_conn hp).trans hfd)
          rw [regClose_of_fd hp hfd hi]
          refine h.update hp ?_ (h.agrees.setSocket h.sound hp hfd hi rfl
            fun k hregistered hwithin => ⟨congrArg (· ++ [handler]) hregistered, hwithin⟩) rfl
            fun hsome => h.state p c hp hsome
          exact ledger_setConn_eq hholds

theorem Owned.other (h : Owned s) (hfd : s.sock fd = none) {d : Option Descriptor}
    (hd : socketOf d = none) : Owned { s with fds := Function.update s.fds fd d } := by
  have hsock : socketOf ∘ Function.update s.fds fd d = socketOf ∘ s.fds := by
    rw [Function.comp_update, hd]
    have hnone : (socketOf ∘ s.fds) fd = none := hfd
    rw [← hnone]
    exact Function.update_eq_self fd (socketOf ∘ s.fds)
  refine ⟨?_, h.agrees.of_conns h.agrees.fresh (fun q c hq _ => ⟨q, c, hq, rfl, rfl, rfl⟩) hsock
    rfl rfl rfl rfl, h.state⟩
  have hledger : ({ s with fds := Function.update s.fds fd d } : Sockets).ledger = s.ledger := by
    unfold ledger
    rw [hsock]
  rw [hledger]
  exact h.sound

theorem Owned.step (h : Owned s) {act : Act} (ha : s.Allowed act) : Owned (s.step act) := by
  cases act with
  | create fd ep => exact h.create ha ep
  | moveConstruct other => exact h.moveConstruct other
  | moveAssign p other => exact h.moveAssign p other
  | shutdown p state => exact h.shutdown p state
  | close p => exact h.close p
  | destroy p => exact h.destroy p
  | regClose p handler => exact h.regClose p handler
  | openOther fd =>
      apply h.other _ rfl
      rw [sock, (ha : s.fds fd = none)]
      rfl
  | closeOther fd =>
      apply h.other _ rfl
      rw [sock, (ha : s.fds fd = some .other)]
      rfl

theorem owned_init : Owned {} := by
  refine ⟨⟨?_, ?_, ?_, ?_, ?_, ?_, ?_, ?_, ?_, ?_⟩, ⟨fun _ _ => rfl, rfl, ?_, rfl⟩, ?_⟩
  · rintro p fd ⟨⟩
  · rintro p q fd ⟨⟩
  · rintro fd fd' i ⟨⟩
  · rintro fd i ⟨⟩
  · rintro fd i ⟨⟩
  · exact fun i hi => absurd hi List.not_mem_nil
  · exact List.nodup_nil
  · exact fun i hi => absurd hi (Nat.not_lt_zero i)
  · rintro fd i ⟨⟩
  · exact fun i hi => absurd hi List.not_mem_nil
  · rintro p c fd i ⟨⟩
  · rintro p c ⟨⟩

/-- No descriptor but that of an open socket is closed, each socket has one connection at most,
and the handlers of its close are called once, when it is closed. -/
theorem owned_of_reaches {C : Sockets → Act → Prop} (h : system.Reaches C s) : Owned s := by
  refine h.invariant (fun s hs => ?_) fun s act s' hs ha _ hstep => ?_
  · obtain rfl : s = {} := hs
    exact owned_init
  · obtain rfl := Except.ok.inj hstep
    exact hs.step ha

/-- An accepted connection is taken over by another object and closed there, and the
descriptor is given out again. -/
theorem owned_of_two_connections :
    let s := system.after {} [.create 3 ⟨⟨127, 0, 0, 1⟩, 7000⟩, .regClose 0 9, .moveConstruct 0,
      .destroy 0, .shutdown 1 .readNadWrite, .create 3 ⟨⟨127, 0, 0, 1⟩, 7001⟩, .destroy 1]
    s.closed = [0] ∧ s.raised = [(9, 0)] ∧ s.sock 3 = some 1 ∧ Owned s :=
  ⟨rfl, rfl, rfl, owned_of_reaches (C := fun _ _ => True)
    (.after (.init rfl) (by decide))⟩

end Ownership

section Leaks

variable {s : Sockets}

/-- No connection is assigned to one that has a descriptor. -/
def Clean (s : Sockets) : Act → Prop
  | .moveAssign p _ => fdOf (s.conns p) = none
  | _ => True

instance (act : Act) : Decidable (s.Clean act) :=
  match act with
  | .moveAssign p _ => inferInstanceAs (Decidable (fdOf (s.conns p) = none))
  | .create .. | .moveConstruct _ | .shutdown .. | .close _ | .destroy _ | .regClose ..
  | .openOther _ | .closeOther _ => .isTrue trivial

theorem lost_close (s : Sockets) (p : Nat) : (s.close p).lost = s.lost := by
  unfold close
  cases s.conns p with
  | none => rfl
  | some c =>
      dsimp only
      cases c.fd with
      | none => rfl
      | some fd =>
          dsimp only [closeFd]
          cases s.sock fd with
          | none => rfl
          | some i => rfl

theorem lost_step {act : Act} (h : s.Clean act) : (s.step act).lost = s.lost := by
  cases act with
  | create fd ep => rfl
  | moveConstruct other =>
      simp only [step, moveConstruct]
      cases s.conns other with
      | none => rfl
      | some c => rfl
  | moveAssign p other =>
      simp only [step, moveAssign]
      cases hp : s.conns p with
      | none => rfl
      | some d =>
          cases s.conns other with
          | none => rfl
          | some c =>
              have hfd : d.fd = none := by
                simpa [Clean, hp, fdOf] using h
              dsimp only
              rw [hfd]
              exact List.append_nil _
  | shutdown p state =>
      simp only [step, shutdown]
      cases s.conns p with
      | none => rfl
      | some c =>
          dsimp only
          cases c.fd with
          | none => rfl
          | some fd =>
              have hfirst : (s.shutdownFd fd state.cut).lost = s.lost := by
                unfold shutdownFd
                cases s.sock fd with
                | none => rfl
                | some i => rfl
              dsimp only
              split_ifs
              · exact (lost_close _ p).trans hfirst
              · exact hfirst
  | close p => exact lost_close s p
  | destroy p =>
      simp only [step, destroy]
      cases s.conns p with
      | none => rfl
      | some c =>
          refine (lost_close _ p).trans ?_
          split_ifs
          · exact lost_close s p
          · rfl
  | regClose p handler =>
      simp only [step, regClose]
      cases s.conns p with
      | none => rfl
      | some c =>
          dsimp only
          split
          · rfl
          · rfl
  | openOther fd => rfl
  | closeOther fd => rfl

/-- When all connections are gone every socket has been closed, once. -/
theorem closed_of_destroyed (h : system.Reaches Clean s) (hgone : ∀ p, s.conns p = none) :
    s.closed.Perm (List.range s.opened) := by
  have hinv : Owned s ∧ s.lost = [] := by
    refine h.invariant (P := fun s => Owned s ∧ s.lost = []) (fun s hs => ?_)
      fun s act s' hs ha hclean hstep => ?_
    · obtain rfl : s = {} := hs
      exact ⟨owned_init, rfl⟩
    · obtain rfl := Except.ok.inj hstep
      exact ⟨hs.1.step ha, (lost_step hclean).trans hs.2⟩
  obtain ⟨howned, hlost⟩ := hinv
  have hnodup : s.closed.Nodup := howned.sound.closed_nodup
  rw [List.perm_ext_iff_of_nodup hnodup List.nodup_range]
  intro i
  rw [List.mem_range]
  refine ⟨howned.sound.closed_lt i, fun hi => ?_⟩
  rcases howned.sound.open_or_closed i hi with hclosed | ⟨fd, hfd⟩
  · exact hclosed
  · have hkept : i ∉ s.ledger.lost := by
      change i ∉ s.lost
      rw [hlost]
      exact List.not_mem_nil
    obtain ⟨p, hp⟩ := howned.sound.kept hfd hkept
    obtain ⟨c, hc, -⟩ := exists_conn_of_holds hp
    cases (hgone p).symm.trans hc

theorem closed_of_destroyed_two :
    let s := system.after {} [.create 3 ⟨⟨127, 0, 0, 1⟩, 7000⟩, .moveConstruct 0, .destroy 0,
      .create 4 ⟨⟨127, 0, 0, 1⟩, 7001⟩, .destroy 2, .destroy 1]
    s.closed = [1, 0] ∧ s.closed.Perm (List.range s.opened) := by
  refine ⟨rfl, closed_of_destroyed (.after (.init rfl) (by decide)) fun p => ?_⟩
  rcases p with _ | _ | _ | p
  · rfl
  · rfl
  · rfl
  · rfl

end Leaks

end Sockets

end CasualGame.Net
