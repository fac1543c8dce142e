import CasualGame.Base.ProcessId
import CasualGame.Lib.Run
import CasualGame.Lib.TwoMaps
import Mathlib.Logic.Basic

/-!
The connections of a process, and the maps in which they are found: by the socket, by the
id of a client, and by the type and the number of a process.
-/

namespace CasualGame.Base

open Lib.Run
open Lib.TwoMaps
open Relay

/-- Whose connection it is: `ConnType`, with the id the connection was added with. -/
inductive Peer
  | privateType (pid : ProcessId)
  | publicType (ccid : UInt64)
  deriving DecidableEq

/-- Every holder that is made is another one. -/
structure ConnectionHolder where
  serial : Nat
  peer : Peer
  fd : Int32
  deriving DecidableEq

def ConnectionHolder.id (connHolder : ConnectionHolder) : UInt64 :=
  match connHolder.peer with
  | .privateType pid => pid.value.toUInt64
  | .publicType ccid => ccid

inductive ConnectionEvent
  /-- With whether the connection is in `m_allConns` and `m_privateConns` at the time. -/
  | afterAddPrivateConn (pid : ProcessId) (registered : Bool)
  | afterErasePrivateConn (pid : ProcessId)
  | afterErasePublicConn (ccid : UInt64)
  deriving DecidableEq

/-- `m_privateConns` is a map for each type, which is empty where there is none. -/
structure TcpConnectionManager where
  allConns : Int32 → Option ConnectionHolder := fun _ => none
  privateConns : ProcessId → Option ConnectionHolder := fun _ => none
  publicConns : UInt64 → Option ConnectionHolder := fun _ => none
  /-- How many holders have been made. -/
  made : Nat := 0
  /-- The events that have been raised. -/
  events : List ConnectionEvent := []

namespace TcpConnectionManager

section Code

variable (m : TcpConnectionManager) (fd : Int32)

def raise (event : ConnectionEvent) : TcpConnectionManager :=
  { m with events := m.events ++ [event] }

def makeHolder (peer : Peer) : ConnectionHolder × TcpConnectionManager :=
  (⟨m.made, peer, fd⟩, { m with made := m.made + 1 })

def setAll (connHolder : Option ConnectionHolder) : TcpConnectionManager :=
  { m with allConns := Function.update m.allConns fd connHolder }

def setPrivate (pid : ProcessId) (connHolder : Option ConnectionHolder) : TcpConnectionManager :=
  { m with privateConns := Function.update m.privateConns pid connHolder }

def setPublic (ccid : UInt64) (connHolder : Option ConnectionHolder) : TcpConnectionManager :=
  { m with publicConns := Function.update m.publicConns ccid connHolder }

/-- `fails` is whether `regSocket` throws. The event is raised nevertheless. -/
def addPrivateConnection (pid : ProcessId) (fails : Bool) : TcpConnectionManager :=
  let (connHolder, m) := m.makeHolder fd (.privateType pid)
  match m.allConns fd with
  | some _ => m
  | none =>
      let m := m.setAll fd (some connHolder)
      match m.privateConns pid with
      | some _ => m.setAll fd none
      | none =>
          let m := m.setPrivate pid (some connHolder)
          let m := if fails then (m.setAll fd none).setPrivate pid none else m
          m.raise (.afterAddPrivateConn pid
            (m.allConns fd = some connHolder ∧ m.privateConns pid = some connHolder))

def addPublicConnection (ccid : UInt64) (fails : Bool) : Bool × TcpConnectionManager :=
  let (connHolder, m) := m.makeHolder fd (.publicType ccid)
  match m.allConns fd with
  | some _ => (false, m)
  | none =>
      let m := m.setAll fd (some connHolder)
      match m.publicConns ccid with
      | some _ => (false, m.setAll fd none)
      | none =>
          let m := m.setPublic ccid (some connHolder)
          if fails then (false, (m.setAll fd none).setPublic ccid none)
          else (true, m)

/-- A connection that is not public is looked for under the type and number that its id
still tells. -/
def eraseConnection : TcpConnectionManager :=
  match m.allConns fd with
  | none => m
  | some connHolder =>
      let m :=
        match m.publicConns connHolder.id with
        | some _ =>
            (m.setPublic connHolder.id none).raise (.afterErasePublicConn connHolder.id)
        | none =>
            let pid := ProcessId.setValue connHolder.id.toUInt32
            match m.privateConns pid with
            | some _ => (m.setPrivate pid none).raise (.afterErasePrivateConn pid)
            | none => m
      m.setAll fd none

def erasePublicConnection (ccid : UInt64) : Option Int32 × TcpConnectionManager :=
  match m.publicConns ccid with
  | none => (none, m)
  | some connHolder => (some connHolder.fd, m.eraseConnection connHolder.fd)

/-- What `epollerEventHandler` does about a socket that is closed or broken. -/
def socketError : TcpConnectionManager :=
  match m.allConns fd with
  | none => m
  | some connHolder => m.eraseConnection connHolder.fd

end Code

section Run

inductive Act
  | addPrivateConnection (fd : Int32) (pid : ProcessId) (fails : Bool)
  | addPublicConnection (fd : Int32) (ccid : UInt64) (fails : Bool)
  | erasePublicConnection (ccid : UInt64)
  | socketError (fd : Int32)
  /-- The second half of an erasure, when others have come between. -/
  | eraseConnection (fd : Int32)

def next (m : TcpConnectionManager) : Act → TcpConnectionManager
  | .addPrivateConnection fd pid fails => m.addPrivateConnection fd pid fails
  | .addPublicConnection fd ccid fails => (m.addPublicConnection fd ccid fails).2
  | .erasePublicConnection ccid => (m.erasePublicConnection ccid).2
  | .socketError fd => m.socketError fd
  | .eraseConnection fd => m.eraseConnection fd

/-- The ids of clients, and valid ids of processes, whose values are not among them. -/
def Allowed (type2Name : List String) (isPublic : UInt64 → Bool) : Act → Prop
  | .addPrivateConnection _ pid _ =>
      pid.isValid type2Name = true ∧ isPublic pid.value.toUInt64 = false
  | .addPublicConnection _ ccid _ => isPublic ccid = true
  | .erasePublicConnection _ => True
  | .socketError _ => True
  | .eraseConnection _ => True

instance (type2Name : List String) (isPublic : UInt64 → Bool) (act : Act) :
    Decidable (Allowed type2Name isPublic act) :=
  match act with
  | .addPrivateConnection _ _ _ => inferInstanceAs (Decidable (_ ∧ _))
  | .addPublicConnection _ ccid _ => inferInstanceAs (Decidable (isPublic ccid = true))
  | .erasePublicConnection _ => .isTrue trivial
  | .socketError _ => .isTrue trivial
  | .eraseConnection _ => .isTrue trivial

def system (type2Name : List String) (isPublic : UInt64 → Bool) :
    System TcpConnectionManager Act Empty where
  Init m := m = {}
  Allowed _ act := Allowed type2Name isPublic act
  step m act := .ok (m.next act)

instance (type2Name : List String) (isPublic : UInt64 → Bool) (m : TcpConnectionManager)
    (act : Act) : Decidable ((system type2Name isPublic).Allowed m act) :=
  inferInstanceAs (Decidable (Allowed type2Name isPublic act))

end Run

section Consistency

variable (m : TcpConnectionManager)

/-- Under its id. -/
def InPublic (connHolder : ConnectionHolder) : Prop :=
  m.publicConns connHolder.id = some connHolder

/-- Under its type and number. -/
def InPrivate (connHolder : ConnectionHolder) : Prop :=
  ∃ pid, connHolder.peer = .privateType pid ∧ m.privateConns pid = some connHolder

structure Consistent : Prop where
  indexes : ∀ connHolder, m.allConns connHolder.fd = some connHolder ↔
    Xor (m.InPublic connHolder) (m.InPrivate connHolder)
  registered : ∀ pid registered,
    .afterAddPrivateConn pid registered ∈ m.events → registered = true

/-- A private connection of the socket is one whose id tells its type and number. -/
def Erasable (fd : Int32) : Prop :=
  ∀ connHolder pid, m.allConns fd = some connHolder → connHolder.peer = .privateType pid →
    ProcessId.setValue pid.value = pid

/-- A private connection that could be registered is, and one that is erased is known by
its id. -/
def Regular : Act → Prop
  | .addPrivateConnection fd pid fails =>
      m.allConns fd = none → m.privateConns pid = none → fails = false
  | .addPublicConnection _ _ _ => True
  | .erasePublicConnection ccid =>
      ∀ connHolder, m.publicConns ccid = some connHolder → m.Erasable connHolder.fd
  | .socketError fd =>
      ∀ connHolder, m.allConns fd = some connHolder → m.Erasable connHolder.fd
  | .eraseConnection fd => m.Erasable fd

/-- Where the holder of a peer is, besides `m_allConns`. -/
def lookup : Peer → Option ConnectionHolder
  | .privateType pid => m.privateConns pid
  | .publicType ccid => m.publicConns ccid

def Peer.Fits (isPublic : UInt64 → Bool) : Peer → Prop
  | .privateType pid => isPublic pid.value.toUInt64 = false
  | .publicType ccid => isPublic ccid = true

structure Sound (isPublic : UInt64 → Bool) (m : TcpConnectionManager) : Prop where
  placedAll : ∀ fd connHolder, m.allConns fd = some connHolder → connHolder.fd = fd
  placed : ∀ peer connHolder, m.lookup peer = some connHolder → connHolder.peer = peer
  fits : ∀ peer connHolder, m.lookup peer = some connHolder → Peer.Fits isPublic peer
  both : ∀ connHolder, m.allConns connHolder.fd = some connHolder ↔
    m.lookup connHolder.peer = some connHolder
  registered : ∀ pid registered,
    .afterAddPrivateConn pid registered ∈ m.events → registered = true

variable {m : TcpConnectionManager} {isPublic : UInt64 → Bool}

theorem Sound.consistent (h : m.Sound isPublic) : m.Consistent := by
  refine ⟨fun connHolder => ?_, h.registered⟩
  rw [h.both]
  cases hpeer : connHolder.peer with
  | privateType pid =>
      have hpublic : ¬ m.InPublic connHolder := by
        intro hin
        have hplaced := h.placed (.publicType connHolder.id) connHolder hin
        rw [hpeer] at hplaced
        cases hplaced
      have hprivate : m.InPrivate connHolder ↔ m.privateConns pid = some connHolder := by
        constructor
        · rintro ⟨pid', hpid, hin⟩
          rw [hpeer, Peer.privateType.injEq] at hpid
          rwa [hpid]
        · exact fun hin => ⟨pid, hpeer, hin⟩
      rw [xor_def]
      simp only [hpublic, false_and, not_false_iff, and_true, false_or]
      exact hprivate.symm
  | publicType ccid =>
      have hprivate : ¬ m.InPrivate connHolder := by
        rintro ⟨pid, hpid, -⟩
        rw [hpeer] at hpid
        cases hpid
      have hid : connHolder.id = ccid := by
        rw [ConnectionHolder.id, hpeer]
      rw [xor_def]
      simp only [hprivate, false_and, not_false_iff, and_true, or_false, InPublic, hid]
      exact Iff.rfl

/-- What an operation does to the maps. -/
inductive Change (isPublic : UInt64 → Bool) (m m' : TcpConnectionManager) : Prop
  | same (hall : m'.allConns = m.allConns) (hlookup : m'.lookup = m.lookup)
  | added (connHolder : ConnectionHolder) (hfits : Peer.Fits isPublic connHolder.peer)
      (hall : m.allConns connHolder.fd = none) (hlookup : m.lookup connHolder.peer = none)
      (hall' : m'.allConns = Function.update m.allConns connHolder.fd (some connHolder))
      (hlookup' : m'.lookup = Function.update m.lookup connHolder.peer (some connHolder))
  | erased (connHolder : ConnectionHolder)
      (hall : m.allConns connHolder.fd = some connHolder)
      (hall' : m'.allConns = Function.update m.allConns connHolder.fd none)
      (hlookup' : m'.lookup = Function.update m.lookup connHolder.peer none)

variable {m' : TcpConnectionManager}

theorem Sound.twin (h : m.Sound isPublic) :
    Twin ConnectionHolder.fd ConnectionHolder.peer m.allConns m.lookup :=
  ⟨h.placedAll, h.placed, h.both⟩

theorem Sound.of_twin
    (htwin : Twin ConnectionHolder.fd ConnectionHolder.peer m.allConns m.lookup)
    (hfits : ∀ peer connHolder, m.lookup peer = some connHolder → Peer.Fits isPublic peer)
    (hregistered : ∀ pid registered,
      .afterAddPrivateConn pid registered ∈ m.events → registered = true) :
    m.Sound isPublic :=
  ⟨htwin.placed₁, htwin.placed₂, hfits, htwin.both, hregistered⟩

theorem Sound.changed (h : m.Sound isPublic) (hchange : Change isPublic m m')
    (hregistered : ∀ pid registered,
      .afterAddPrivateConn pid registered ∈ m'.events → registered = true) :
    m'.Sound isPublic := by
  cases hchange with
  | same hall hlookup =>
      apply Sound.of_twin
      · rw [hall, hlookup]
        exact h.twin
      · rw [hlookup]
        exact h.fits
      · exact hregistered
  | added new hfits hall hlookup hall' hlookup' =>
      apply Sound.of_twin
      · rw [hall', hlookup']
        exact h.twin.add hall hlookup
      · intro peer connHolder hget
        rw [hlookup', Function.update_apply] at hget
        split_ifs at hget with hpeer
        · rw [hpeer]
          exact hfits
        · exact h.fits peer connHolder hget
      · exact hregistered
  | erased old hall hall' hlookup' =>
      apply Sound.of_twin
      · rw [hall', hlookup']
        exact h.twin.erase hall
      · intro peer connHolder hget
        rw [hlookup', Function.update_apply] at hget
        split_ifs at hget
        exact h.fits peer connHolder hget
      · exact hregistered

section Operations

theorem lookup_setPrivate (m : TcpConnectionManager) (pid : ProcessId)
    (connHolder : Option ConnectionHolder) : (m.setPrivate pid connHolder).lookup =
      Function.update m.lookup (.privateType pid) connHolder := by
  funext peer
  cases peer with
  | privateType pid' =>
      simp only [lookup, setPrivate, Function.update_apply, Peer.privateType.injEq]
  | publicType ccid => rfl

theorem lookup_setPublic (m : TcpConnectionManager) (ccid : UInt64)
    (connHolder : Option ConnectionHolder) : (m.setPublic ccid connHolder).lookup =
      Function.update m.lookup (.publicType ccid) connHolder := by
  funext peer
  cases peer with
  | privateType pid => rfl
  | publicType ccid' =>
      simp only [lookup, setPublic, Function.update_apply, Peer.publicType.injEq]

theorem mem_raise {event event' : ConnectionEvent} :
    event' ∈ (m.raise event).events ↔ event' ∈ m.events ∨ event' = event := by
  rw [raise, List.mem_append, List.mem_singleton]

theorem addPrivateConnection_change {fd : Int32} {pid : ProcessId} {fails : Bool}
    (hfits : isPublic pid.value.toUInt64 = false)
    (hregular : m.Regular (.addPrivateConnection fd pid fails)) :
    Change isPublic m (m.addPrivateConnection fd pid fails) ∧
      ∀ pid' registered, .afterAddPrivateConn pid' registered ∈
        (m.addPrivateConnection fd pid fails).events →
          .afterAddPrivateConn pid' registered ∈ m.events ∨ registered = true := by
  simp only [addPrivateConnection, makeHolder]
  cases hall : m.allConns fd with
  | some _ => exact ⟨.same rfl rfl, fun _ _ => .inl⟩
  | none =>
      cases hprivate : m.privateConns pid with
      | some _ =>
          simp only [setAll, hprivate]
          exact ⟨.same (update_none hall _) rfl, fun _ _ => .inl⟩
      | none =>
          obtain rfl := hregular hall hprivate
          simp only [setAll, hprivate, Bool.false_eq_true, if_false]
          refine ⟨.added ⟨m.made, .privateType pid, fd⟩ hfits hall hprivate rfl
            (lookup_setPrivate _ pid _), ?_⟩
          intro pid' registered hmem
          rcases mem_raise.mp hmem with hold | hnew
          · exact .inl hold
          · rw [ConnectionEvent.afterAddPrivateConn.injEq] at hnew
            rw [hnew.2]
            simp [setPrivate]

theorem addPublicConnection_change {fd : Int32} {ccid : UInt64} {fails : Bool}
    (hfits : isPublic ccid = true) :
    Change isPublic m (m.addPublicConnection fd ccid fails).2 ∧
      (m.addPublicConnection fd ccid fails).2.events = m.events := by
  simp only [addPublicConnection, makeHolder]
  cases hall : m.allConns fd with
  | some _ => exact ⟨.same rfl rfl, rfl⟩
  | none =>
      cases hpublic : m.publicConns ccid with
      | some _ =>
          simp only [setAll, hpublic]
          exact ⟨.same (update_none hall _) rfl, trivial⟩
      | none =>
          simp only [setAll, hpublic]
          cases fails with
          | true =>
              have hlookup : m.lookup (.publicType ccid) = none := hpublic
              refine ⟨.same (update_none hall _) ?_, rfl⟩
              simp only [if_true, lookup_setPublic _ _ none]
              have hset := congrArg (fun f => Function.update f (Peer.publicType ccid) none)
                (lookup_setPublic m ccid (some ⟨m.made, .publicType ccid, fd⟩))
              exact hset.trans (update_none hlookup _)
          | false =>
              exact ⟨.added ⟨m.made, .publicType ccid, fd⟩ hfits hall hpublic rfl
                (lookup_setPublic _ ccid _), rfl⟩

theorem Sound.publicConns_eq_none (h : m.Sound isPublic) {connHolder : ConnectionHolder}
    {pid : ProcessId} (hall : m.allConns connHolder.fd = some connHolder)
    (hpeer : connHolder.peer = .privateType pid) : m.publicConns connHolder.id = none := by
  have hid : connHolder.id = pid.value.toUInt64 := by rw [ConnectionHolder.id, hpeer]
  have hfits := h.fits _ _ ((h.both connHolder).mp hall)
  rw [hpeer] at hfits
  cases hget : m.publicConns connHolder.id with
  | none => rfl
  | some other =>
      have hfits' : isPublic connHolder.id = true := h.fits (.publicType _) other hget
      have hfits'' : isPublic pid.value.toUInt64 = false := hfits
      rw [hid, hfits''] at hfits'
      cases hfits'

theorem eraseConnection_change {fd : Int32} (h : m.Sound isPublic) (herasable : m.Erasable fd) :
    Change isPublic m (m.eraseConnection fd) ∧
      ∀ pid registered, .afterAddPrivateConn pid registered ∈ (m.eraseConnection fd).events →
        .afterAddPrivateConn pid registered ∈ m.events := by
  rw [eraseConnection]
  cases hall : m.allConns fd with
  | none => exact ⟨.same rfl rfl, fun _ _ => id⟩
  | some connHolder =>
      obtain rfl := h.placedAll fd connHolder hall
      have hlookup := (h.both connHolder).mp hall
      cases hpeer : connHolder.peer with
      | publicType ccid =>
          have hid : connHolder.id = ccid := by rw [ConnectionHolder.id, hpeer]
          rw [hpeer] at hlookup
          have hpublic : m.publicConns connHolder.id = some connHolder := by
            rw [hid]
            exact hlookup
          simp only [hpublic]
          refine ⟨.erased connHolder hall rfl ?_, ?_⟩
          · rw [hpeer, ← hid]
            exact lookup_setPublic m _ none
          · intro pid registered hmem
            rcases mem_raise.mp hmem with hold | hnew
            · exact hold
            · cases hnew
      | privateType pid =>
          have hid : connHolder.id = pid.value.toUInt64 := by rw [ConnectionHolder.id, hpeer]
          rw [hpeer] at hlookup
          have hpublic := h.publicConns_eq_none hall hpeer
          have hpid : ProcessId.setValue connHolder.id.toUInt32 = pid := by
            rw [hid, UInt32.toUInt32_toUInt64]
            exact herasable connHolder pid hall hpeer
          have hprivate : m.privateConns pid = some connHolder := hlookup
          simp only [hpublic, hpid, hprivate]
          refine ⟨.erased connHolder hall rfl ?_, ?_⟩
          · rw [hpeer]
            exact lookup_setPrivate m pid none
          · intro pid' registered hmem
            rcases mem_raise.mp hmem with hold | hnew
            · exact hold
            · cases hnew

end Operations

theorem Sound.step {type2Name : List String} {act : Act} (h : m.Sound isPublic)
    (hallowed : Allowed type2Name isPublic act) (hregular : m.Regular act) :
    (m.next act).Sound isPublic := by
  have herase : ∀ fd, m.Erasable fd → (m.eraseConnection fd).Sound isPublic := by
    intro fd herasable
    obtain ⟨hchange, hevents⟩ := eraseConnection_change h herasable
    exact h.changed hchange fun pid registered hmem =>
      h.registered pid registered (hevents pid registered hmem)
  cases act with
  | addPrivateConnection fd pid fails =>
      obtain ⟨hchange, hevents⟩ := addPrivateConnection_change hallowed.2 hregular
      refine h.changed hchange fun pid' registered hmem => ?_
      rcases hevents pid' registered hmem with hold | hnew
      · exact h.registered pid' registered hold
      · exact hnew
  | addPublicConnection fd ccid fails =>
      obtain ⟨hchange, hevents⟩ := addPublicConnection_change (m := m) hallowed
      refine h.changed hchange fun pid registered hmem => ?_
      rw [next, hevents] at hmem
      exact h.registered pid registered hmem
  | erasePublicConnection ccid =>
      simp only [next, erasePublicConnection]
      cases hpublic : m.publicConns ccid with
      | none => exact h
      | some connHolder => exact herase connHolder.fd (hregular connHolder hpublic)
  | socketError fd =>
      simp only [next, socketError]
      cases hall : m.allConns fd with
      | none => exact h
      | some connHolder => exact herase connHolder.fd (hregular connHolder hall)
  | eraseConnection fd => exact herase fd hregular

theorem lookup_empty (peer : Peer) : ({} : TcpConnectionManager).lookup peer = none := by
  cases peer with
  | privateType pid => rfl
  | publicType ccid => rfl

theorem sound_empty : ({} : TcpConnectionManager).Sound isPublic := by
  refine ⟨?_, ?_, ?_, ?_, ?_⟩
  · intro fd connHolder hget
    cases hget
  · intro peer connHolder hget
    rw [lookup_empty] at hget
    cases hget
  · intro peer connHolder hget
    rw [lookup_empty] at hget
    cases hget
  · intro connHolder
    rw [lookup_empty]
  · intro pid registered hmem
    cases hmem

theorem sound {type2Name : List String} (h : (system type2Name isPublic).Reaches Regular m) :
    m.Sound isPublic := by
  refine h.invariant ?_ ?_
  · rintro m rfl
    exact sound_empty
  · rintro m act m' hm hallowed hregular hstep
    obtain rfl := Except.ok.inj hstep
    exact hm.step hallowed hregular

section Converse

theorem eraseConnection_breaks {fd : Int32} (h : m.Sound isPublic) (hnot : ¬ m.Erasable fd) :
    ¬ (m.eraseConnection fd).Consistent := by
  intro hconsistent
  simp only [Erasable, not_forall] at hnot
  obtain ⟨connHolder, pid, hall, hpeer, hvalue⟩ := hnot
  obtain rfl := h.placedAll fd connHolder hall
  have hid : connHolder.id = pid.value.toUInt64 := by rw [ConnectionHolder.id, hpeer]
  have hpublic := h.publicConns_eq_none hall hpeer
  have hprivate : m.lookup connHolder.peer = some connHolder := (h.both connHolder).mp hall
  rw [hpeer] at hprivate
  have hother : pid ≠ ProcessId.setValue connHolder.id.toUInt32 := by
    rw [hid, UInt32.toUInt32_toUInt64]
    exact Ne.symm hvalue
  have hkept : (m.eraseConnection connHolder.fd).privateConns pid = some connHolder ∧
      (m.eraseConnection connHolder.fd).publicConns connHolder.id = none ∧
      (m.eraseConnection connHolder.fd).allConns connHolder.fd = none := by
    simp only [eraseConnection, hall, hpublic]
    refine ⟨?_, ?_, Function.update_self _ _ _⟩
    · split
      · exact (Function.update_of_ne hother _ _).trans hprivate
      · exact hprivate
    · split
      · exact hpublic
      · exact hpublic
  obtain ⟨hprivate', hpublic', hall'⟩ := hkept
  have hindexes := (hconsistent.indexes connHolder).mpr (.inr ⟨⟨pid, hpeer, hprivate'⟩, ?_⟩)
  · rw [hall'] at hindexes
    cases hindexes
  · intro hin
    rw [InPublic, hpublic'] at hin
    cases hin

theorem addPrivateConnection_breaks {fd : Int32} {pid : ProcessId} (hall : m.allConns fd = none)
    (hprivate : m.privateConns pid = none) :
    ¬ (m.addPrivateConnection fd pid true).Consistent := by
  intro hconsistent
  have hraised : .afterAddPrivateConn pid false ∈ (m.addPrivateConnection fd pid true).events := by
    simp only [addPrivateConnection, makeHolder, hall, setAll, hprivate, if_true]
    exact mem_raise.mpr (.inr (by simp [setPrivate]))
  have hregistered := hconsistent.registered pid false hraised
  cases hregistered

theorem Sound.inconsistent_of_not_regular {act : Act} (h : m.Sound isPublic)
    (hnot : ¬ m.Regular act) : ¬ (m.next act).Consistent := by
  cases act with
  | addPrivateConnection fd pid fails =>
      simp only [Regular, not_forall, Bool.not_eq_false] at hnot
      obtain ⟨hall, hprivate, rfl⟩ := hnot
      exact addPrivateConnection_breaks hall hprivate
  | addPublicConnection fd ccid fails => exact absurd trivial hnot
  | erasePublicConnection ccid =>
      simp only [Regular, not_forall] at hnot
      obtain ⟨connHolder, hpublic, hnot⟩ := hnot
      simp only [next, erasePublicConnection, hpublic]
      exact eraseConnection_breaks h hnot
  | socketError fd =>
      simp only [Regular, not_forall] at hnot
      obtain ⟨connHolder, hall, hnot⟩ := hnot
      simp only [next, socketError, hall]
      exact eraseConnection_breaks h hnot
  | eraseConnection fd => exact eraseConnection_breaks h hnot

end Converse

/-- In a run of which every step is regular, the maps agree on which connections there
are, and an event is raised for none but those. The first step that is not regular ends
that. -/
theorem consistent_iff_regular {type2Name : List String}
    (h : (system type2Name isPublic).Reaches Regular m) :
    m.Consistent ∧ ∀ act, Allowed type2Name isPublic act →
      ((m.next act).Consistent ↔ m.Regular act) := by
  have hsound := sound h
  refine ⟨hsound.consistent, fun act hallowed => ⟨fun hconsistent => ?_, fun hregular => ?_⟩⟩
  · by_contra hnot
    exact hsound.inconsistent_of_not_regular hnot hconsistent
  · exact (hsound.step hallowed hregular).consistent

theorem consistent_iff_regular_clients :
    let m := (system ["none", "gateway"] fun id => 0x100000000 ≤ id).after {}
      [.addPrivateConnection 5 ⟨1, 1⟩ false, .addPublicConnection 6 0x10000000000 false,
        .addPublicConnection 7 0x10000000000 false, .addPublicConnection 8 0x20000000000 true,
        .socketError 5]
    m.allConns 5 = none ∧ m.allConns 6 = some ⟨1, .publicType 0x10000000000, 6⟩ ∧
      m.Consistent ∧ ∀ act, Allowed ["none", "gateway"] (fun id => 0x100000000 ≤ id) act →
        ((m.next act).Consistent ↔ m.Regular act) := by
  refine ⟨rfl, rfl, consistent_iff_regular (System.Reaches.after (.init rfl) ?_)⟩
  refine ⟨by decide, fun _ _ => rfl, by decide, trivial, by decide, trivial, by decide, trivial,
    trivial, ?_, trivial⟩
  intro connHolder hget connHolder' pid hget' hpeer
  cases hget
  cases hget'
  cases hpeer
  rfl

/-- Without the condition: an event about a connection that could not be registered, and a
connection that is erased and stays in `m_privateConns`. -/
theorem inconsistent :
    (¬ ∀ type2Name isPublic m, (system type2Name isPublic).Reaches (fun _ _ => True) m →
      ∀ pid registered, .afterAddPrivateConn pid registered ∈ m.events → registered = true) ∧
    ¬ ∀ type2Name isPublic m, (system type2Name isPublic).Reaches (fun _ _ => True) m →
      ∀ connHolder, m.allConns connHolder.fd = some connHolder ↔
        Xor (m.InPublic connHolder) (m.InPrivate connHolder) := by
  have hreaches : ∀ acts, (system ["none", "gateway"] fun _ => false).Fits (fun _ _ => True) {}
      acts → (system ["none", "gateway"] fun _ => false).Reaches (fun _ _ => True)
        ((system ["none", "gateway"] fun _ => false).after {} acts) :=
    fun acts hfits => System.Reaches.after (.init rfl) hfits
  constructor
  · intro h
    have hregistered := h _ _ _ (hreaches [.addPrivateConnection 5 ⟨1, 1⟩ true] (by decide))
      ⟨1, 1⟩ false (by decide)
    cases hregistered
  · intro h
    have hindexes := h _ _ _
      (hreaches [.addPrivateConnection 5 ⟨1, 256⟩ false, .socketError 5] (by decide))
      ⟨0, .privateType ⟨1, 256⟩, 5⟩
    have hprivate := hindexes.mpr (.inr ⟨⟨⟨1, 256⟩, rfl, rfl⟩, fun hin => by cases hin⟩)
    cases hprivate

end Consistency

end TcpConnectionManager

end CasualGame.Base
