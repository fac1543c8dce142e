import CasualGame.Lib.Run
import CasualGame.Lib.TwoMaps

/-!
The HTTP connections of a process, and the maps in which they are found: by the socket, and
by the id.
-/

namespace CasualGame.Base

open Lib.Run
open Lib.TwoMaps

/-- Every holder that is made is another one. -/
structure HttpConnectionHolder where
  serial : Nat
  hcid : UInt64
  fd : Int32
  deriving DecidableEq

structure HttpConnectionManager where
  allConns : Int32 → Option HttpConnectionHolder := fun _ => none
  hcid2Conns : UInt64 → Option HttpConnectionHolder := fun _ => none
  /-- The sockets that `m_epoller` waits for. -/
  epoll : Int32 → Bool := fun _ => false
  /-- How many holders have been made. -/
  made : Nat := 0
  /-- The ids for which `e_afterEraseConn` has been raised. -/
  erased : List UInt64 := []

namespace HttpConnectionManager

section Code

variable (m : HttpConnectionManager) (hcid : UInt64) (fd : Int32)

def makeHolder : HttpConnectionHolder × HttpConnectionManager :=
  (⟨m.made, hcid, fd⟩, { m with made := m.made + 1 })

def setAll (connHolder : Option HttpConnectionHolder) : HttpConnectionManager :=
  { m with allConns := Function.update m.allConns fd connHolder }

def setHcid (connHolder : Option HttpConnectionHolder) : HttpConnectionManager :=
  { m with hcid2Conns := Function.update m.hcid2Conns hcid connHolder }

def setEpoll (waits : Bool) : HttpConnectionManager :=
  { m with epoll := Function.update m.epoll fd waits }

/-- `fails` is whether `trySend` or `regSocket` throws. There is no `return` where the socket
is in `m_allConns` already. -/
def addConnection (fails : Bool) : HttpConnectionManager :=
  let (connHolder, m) := m.makeHolder hcid fd
  match m.hcid2Conns hcid with
  | some _ => m
  | none =>
      let m := m.setHcid hcid (some connHolder)
      let m :=
        match m.allConns fd with
        | none => m.setAll fd (some connHolder)
        | some _ => m.setHcid hcid none
      if fails then m.setAll fd none else m.setEpoll fd true

def eraseConnection : HttpConnectionManager :=
  match m.allConns fd with
  | none => m
  | some connHolder =>
      let m := m.setHcid connHolder.hcid none
      let m := { m with erased := m.erased ++ [connHolder.hcid] }
      (m.setAll fd none).setEpoll fd false

def eraseById : HttpConnectionManager :=
  match m.hcid2Conns hcid with
  | none => m
  | some connHolder => m.eraseConnection connHolder.fd

/-- What `epollerEventHandler` does about a socket that is closed or broken. -/
def socketError : HttpConnectionManager :=
  match m.allConns fd with
  | none => m
  | some connHolder => m.eraseConnection connHolder.fd

end Code

section Run

inductive Act
  | addConnection (hcid : UInt64) (fd : Int32) (fails : Bool)
  | eraseById (hcid : UInt64)
  | socketError (fd : Int32)
  /-- The second half of an erasure, when others have come between. -/
  | eraseConnection (fd : Int32)

def next (m : HttpConnectionManager) : Act → HttpConnectionManager
  | .addConnection hcid fd fails => m.addConnection hcid fd fails
  | .eraseById hcid => m.eraseById hcid
  | .socketError fd => m.socketError fd
  | .eraseConnection fd => m.eraseConnection fd

def system : System HttpConnectionManager Act Empty where
  Init m := m = {}
  Allowed _ _ := True
  step m act := .ok (m.next act)

end Run

section Atomicity

variable (m m' : HttpConnectionManager)

/-- Both maps index the same holders. -/
def Consistent : Prop :=
  Twin HttpConnectionHolder.fd HttpConnectionHolder.hcid m.allConns m.hcid2Conns

/-- The new holder is in both maps and in epoll, and nothing else has changed. -/
def Registered (hcid : UInt64) (fd : Int32) : Prop :=
  m'.allConns = Function.update m.allConns fd (some ⟨m.made, hcid, fd⟩) ∧
    m'.hcid2Conns = Function.update m.hcid2Conns hcid (some ⟨m.made, hcid, fd⟩) ∧
      m'.epoll fd = true

def Untouched : Prop := m'.allConns = m.allConns ∧ m'.hcid2Conns = m.hcid2Conns

/-- An addition is atomic, and what there is in the maps is in both. -/
def KeepsAtomic : Act → Prop
  | .addConnection hcid fd fails =>
      (Registered m (m.addConnection hcid fd fails) hcid fd ∨
        Untouched m (m.addConnection hcid fd fails)) ∧
          (m.addConnection hcid fd fails).Consistent
  | act => (m.next act).Consistent

/-- The socket can be registered, or the id is taken already. -/
def Registrable : Act → Prop
  | .addConnection hcid _ fails => fails = true → m.hcid2Conns hcid ≠ none
  | _ => True

end Atomicity

variable {m : HttpConnectionManager} {hcid : UInt64} {fd : Int32} {fails : Bool}

theorem addConnection_of_taken (h : m.hcid2Conns hcid ≠ none) :
    m.addConnection hcid fd fails = { m with made := m.made + 1 } := by
  rw [addConnection]
  simp only [makeHolder]
  cases hget : m.hcid2Conns hcid with
  | none => exact absurd hget h
  | some _ => rfl

theorem addConnection_of_new (hid : m.hcid2Conns hcid = none) (hfd : m.allConns fd = none) :
    m.addConnection hcid fd fails =
      let m' := { m.setHcid hcid (some ⟨m.made, hcid, fd⟩) with made := m.made + 1 }
      if fails then m' else (m'.setAll fd (some ⟨m.made, hcid, fd⟩)).setEpoll fd true := by
  rw [addConnection]
  simp only [makeHolder, hid, setHcid, hfd]
  cases fails with
  | true => simp only [setAll, if_true, update_none hfd]
  | false => rfl

theorem addConnection_of_old (hid : m.hcid2Conns hcid = none) (hfd : m.allConns fd ≠ none) :
    m.addConnection hcid fd fails =
      let m' := { m with made := m.made + 1 }
      if fails then m'.setAll fd none else m'.setEpoll fd true := by
  rw [addConnection]
  cases hget : m.allConns fd with
  | none => exact absurd hget hfd
  | some _ =>
      simp only [makeHolder, hid, setHcid, hget, update_none hid]

theorem Consistent.eraseConnection (h : m.Consistent) (fd : Int32) :
    (m.eraseConnection fd).Consistent := by
  rw [HttpConnectionManager.eraseConnection]
  cases hall : m.allConns fd with
  | none => exact h
  | some connHolder =>
      obtain rfl := h.placed₁ fd connHolder hall
      exact h.erase hall

theorem keepsAtomic_of_registrable (h : m.Consistent)
    (hregistrable : m.Registrable (.addConnection hcid fd fails)) :
    m.KeepsAtomic (.addConnection hcid fd fails) := by
  rw [KeepsAtomic]
  cases hid : m.hcid2Conns hcid with
  | some _ =>
      have htaken : m.hcid2Conns hcid ≠ none := by
        rw [hid]
        exact Option.some_ne_none _
      rw [addConnection_of_taken htaken]
      exact ⟨.inr ⟨rfl, rfl⟩, h⟩
  | none =>
      obtain rfl : fails = false := by
        rw [← Bool.not_eq_true]
        exact fun hfails => hregistrable hfails hid
      cases hall : m.allConns fd with
      | none =>
          rw [addConnection_of_new hid hall]
          have hadd := @Twin.add _ _ _ _ _ _ _ _ _ h ⟨m.made, hcid, fd⟩ hall hid
          exact ⟨.inl ⟨rfl, rfl, Function.update_self ..⟩, hadd⟩
      | some _ =>
          have hold : m.allConns fd ≠ none := by
            rw [hall]
            exact Option.some_ne_none _
          rw [addConnection_of_old hid hold]
          exact ⟨.inr ⟨rfl, rfl⟩, h⟩

theorem not_keepsAtomic_of_fails (hid : m.hcid2Conns hcid = none) :
    ¬ m.KeepsAtomic (.addConnection hcid fd true) := by
  rintro ⟨hregistered | huntouched, -⟩
  · have hall : (m.addConnection hcid fd true).allConns fd = none := by
      by_cases hfd : m.allConns fd = none
      · rw [addConnection_of_new hid hfd]
        exact hfd
      · rw [addConnection_of_old hid hfd]
        exact Function.update_self ..
    rw [hregistered.1, Function.update_self] at hall
    cases hall
  · by_cases hfd : m.allConns fd = none
    · have hadded : (m.addConnection hcid fd true).hcid2Conns hcid = some ⟨m.made, hcid, fd⟩ := by
        rw [addConnection_of_new hid hfd]
        exact Function.update_self ..
      rw [huntouched.2, hid] at hadded
      cases hadded
    · have herased : (m.addConnection hcid fd true).allConns fd = none := by
        rw [addConnection_of_old hid hfd]
        exact Function.update_self ..
      rw [huntouched.1] at herased
      exact hfd herased

theorem keepsAtomic_iff (h : m.Consistent) (act : Act) : m.KeepsAtomic act ↔ m.Registrable act := by
  cases act with
  | addConnection hcid fd fails =>
      refine ⟨fun hkeeps hfails hid => ?_, keepsAtomic_of_registrable h⟩
      rw [hfails] at hkeeps
      exact not_keepsAtomic_of_fails hid hkeeps
  | eraseById hcid =>
      refine iff_of_true ?_ trivial
      change (m.eraseById hcid).Consistent
      rw [eraseById]
      cases m.hcid2Conns hcid with
      | none => exact h
      | some connHolder => exact h.eraseConnection connHolder.fd
  | socketError fd =>
      refine iff_of_true ?_ trivial
      change (m.socketError fd).Consistent
      rw [socketError]
      cases m.allConns fd with
      | none => exact h
      | some connHolder => exact h.eraseConnection connHolder.fd
  | eraseConnection fd => exact iff_of_true (h.eraseConnection fd) trivial

theorem KeepsAtomic.consistent {act : Act} (h : m.KeepsAtomic act) : (m.next act).Consistent := by
  cases act with
  | addConnection hcid fd fails => exact h.2
  | _ => exact h

/-- In a run from a consistent state every addition is atomic and every state consistent
exactly when every registration of a new id succeeds. -/
theorem fits_keepsAtomic_iff (h : m.Consistent) (acts : List Act) :
    system.Fits KeepsAtomic m acts ↔ system.Fits Registrable m acts := by
  refine System.fits_congr Consistent (fun m act h _ => keepsAtomic_iff h act) ?_ h
  intro m act m' h _ hregistrable hstep
  obtain rfl := Except.ok.inj hstep
  exact ((keepsAtomic_iff h act).mpr hregistrable).consistent

/-- Two connections, of which the first is added again under another id and fails, after
the second has been erased. -/
theorem fits_keepsAtomic_iff_two :
    system.Fits KeepsAtomic {} [.addConnection 1 5 false, .addConnection 2 6 false,
        .eraseById 2, .addConnection 3 5 true] ↔
      system.Fits Registrable {} [.addConnection 1 5 false, .addConnection 2 6 false,
        .eraseById 2, .addConnection 3 5 true] :=
  fits_keepsAtomic_iff (m := {}) twin_empty _

/-- The registration of the first connection fails. -/
theorem firstFails_not_keepsAtomic :
    Consistent {} ∧ ¬ system.Fits KeepsAtomic {} [.addConnection 1 5 true] :=
  ⟨twin_empty, fun h => not_keepsAtomic_of_fails rfl h.2.1⟩

end HttpConnectionManager

end CasualGame.Base
