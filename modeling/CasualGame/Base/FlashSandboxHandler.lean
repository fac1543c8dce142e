import CasualGame.Lib.Run
import CasualGame.Net.ConnectionBuffer

/-!
The thread that hands out the policy file to flash clients, and those who bring it connections.
-/

namespace CasualGame.Base.FlashSandboxHandler

open Lib.Run
open Net

section Code

inductive ConnState
  | recving
  | sending
  | waitclose
  deriving DecidableEq

/-- Times are in nanoseconds. -/
structure ConnHolder where
  state : ConnState := .recving
  tp : Int
  sendBuf : ConnectionBuffer
  recvBuf : ConnectionBuffer

/-- `<policy-file-request/>`, which an array of characters has with the end of it. -/
def revText : List UInt8 :=
  [60, 112, 111, 108, 105, 99, 121, 45, 102, 105, 108, 101, 45, 114, 101, 113, 117, 101, 115,
    116, 47, 62]

def sizeofRevText : Nat := revText.length + 1

def sendText : List UInt8 :=
  [60, 99, 114, 111, 115, 115, 45, 100, 111, 109, 97, 105, 110, 45, 112, 111, 108, 105, 99, 121,
    62, 32, 60, 97, 108, 108, 111, 119, 45, 97, 99, 99, 101, 115, 115, 45, 102, 114, 111, 109,
    32, 100, 111, 109, 97, 105, 110, 61, 34, 42, 34, 32, 116, 111, 45, 112, 111, 114, 116, 115,
    61, 34, 42, 34, 47, 62, 32, 60, 47, 99, 114, 111, 115, 115, 45, 100, 111, 109, 97, 105,
    110, 45, 112, 111, 108, 105, 99, 121, 62]

/-- The text has a zero at its end, and the array one more. -/
def sizeofSendText : Nat := sendText.length + 2

def timeOutDuration : Int := 5000000000

/-- What the sockets say to the handler in its turn at a connection. -/
structure Answers where
  recv : RecvResult
  send : SendResult
  /-- To the read of one byte that waits for the other side to close. -/
  close : RecvResult

/-- What a turn at a connection comes to. -/
inductive Turn
  /-- `continue`, with the same connection. -/
  | again (h : ConnHolder)
  | erase
  /-- The connection behind the one that has been erased is closed. -/
  | eraseAndClose
  | next (h : ConnHolder)

namespace ConnHolder

variable (h : ConnHolder) (answers : Answers)

def waitclose : Turn :=
  match answers.close with
  | .data [] => .erase
  | .fault => .erase
  | .data (_ :: _) | .again => .next h

/-- The turn, and the bytes that the socket has taken. -/
def sending : Turn × List UInt8 :=
  match BufferedConnection.trySend h.sendBuf answers.send with
  | .error _ => (.erase, [])
  | .ok (false, sendBuf, sent) => (.again { h with sendBuf }, sent)
  | .ok (true, sendBuf, sent) =>
      ({ h with sendBuf, state := .waitclose : ConnHolder }.waitclose answers, sent)

/-- `strncpy` fills what there is of room with zeros. -/
def putSendText (first second : Nat) (sendBuf : ConnectionBuffer) : ConnectionBuffer :=
  let text := sendText ++ List.replicate (second - sendText.length) 0
  ((sendBuf.write first text).commitWrite sizeofSendText).2

def recving : Turn × List UInt8 :=
  match BufferedConnection.tryRecv h.recvBuf answers.recv with
  | .error _ => (.erase, [])
  | .ok (_, recvBuf) =>
      if recvBuf.readable.length < sizeofRevText then (.again { h with recvBuf }, [])
      else
        let text := recvBuf.readable.take sizeofRevText
        let recvBuf := (recvBuf.commitRead sizeofRevText).2
        if text ≠ revText then (.erase, [])
        else
          let (sndBuf, sendBuf) := h.sendBuf.writeable sizeofSendText
          if sndBuf.second < sizeofSendText then (.eraseAndClose, [])
          else
            let sendBuf := putSendText sndBuf.first sndBuf.second sendBuf
            { h with recvBuf, sendBuf, state := .sending : ConnHolder }.sending answers

def turn : Turn × List UInt8 :=
  match h.state with
  | .recving => h.recving answers
  | .sending => h.sending answers
  | .waitclose => (h.waitclose answers, [])

end ConnHolder

/-- Where the thread stands: in front of the test of the switch, in the loop over the connections
with the lock taken, or at the end. -/
inductive Pc
  | test
  | round (now : Int) (passed rest : List ConnHolder)
  | ended

structure Handler where
  switch : Bool := true
  pc : Pc := .test
  /-- `m_conns`, as long as the thread is not in the loop. -/
  conns : List ConnHolder := []
  /-- All that has been sent, to whomever. -/
  sent : List UInt8 := []

inductive Fault
  /-- The thread is at its end. -/
  | notNow
  /-- A connection is used that is not the one that was meant. -/
  | wrongConnection
  deriving DecidableEq

namespace Handler

variable (s : Handler)

/-- `fails` is whether `setNonBlocking` throws. While the lock is taken, this is one turn of the
loop of `lock`, which changes nothing. -/
def addFlashSandboxConn (tp : Int) (sendBuf recvBuf : ConnectionBuffer) (fails : Bool) : Handler :=
  match s.pc, fails with
  | .round _ _ _, false => s
  | _, true => s
  | _, false => { s with conns := s.conns ++ [{ tp, sendBuf, recvBuf }] }

/-- The turn at the first of the connections that are left. -/
def visit (now : Int) (passed : List ConnHolder) (h : ConnHolder) (rest : List ConnHolder)
    (answers : Answers) : Except Fault Handler :=
  if h.tp + timeOutDuration < now then .ok { s with pc := .round now passed rest }
  else
    let (turn, sent) := h.turn answers
    let s := { s with sent := s.sent ++ sent }
    match turn with
    | .again h => .ok { s with pc := .round now passed (h :: rest) }
    | .erase => .ok { s with pc := .round now passed rest }
    | .eraseAndClose => .error .wrongConnection
    | .next h => .ok { s with pc := .round now (passed ++ [h]) rest }

def exec (now : Int) (answers : Answers) : Except Fault Handler :=
  match s.pc with
  | .test =>
      if s.switch then .ok { s with pc := .round now [] s.conns } else .ok { s with pc := .ended }
  | .round _ passed [] => .ok { s with pc := .test, conns := passed }
  | .round now passed (h :: rest) => s.visit now passed h rest answers
  | .ended => .error .notNow

inductive Act
  | addFlashSandboxConn (tp : Int) (sendBuf recvBuf : ConnectionBuffer) (fails : Bool)
  /-- The next step of the thread. `now` is what the clock says at the beginning of a round. -/
  | exec (now : Int) (answers : Answers)
  | stop

def step : Act → Except Fault Handler
  | .addFlashSandboxConn tp sendBuf recvBuf fails =>
      .ok (s.addFlashSandboxConn tp sendBuf recvBuf fails)
  | .exec now answers => s.exec now answers
  | .stop => .ok { s with switch := false }

def system : System Handler Act Fault where
  Init s := s = {}
  Allowed _ _ := True
  step s act := s.step act

end Handler

end Code

section Silence

variable {h : ConnHolder} {s s' : Handler} {C : Handler → Handler.Act → Prop}

theorem take_ne_revText {b : ConnectionBuffer} (hlong : ¬ b.readable.length < sizeofRevText) :
    b.readable.take sizeofRevText ≠ revText := by
  intro heq
  have hlength := congrArg List.length heq
  rw [List.length_take, Nat.min_eq_left (Nat.le_of_not_lt hlong)] at hlength
  exact Nat.succ_ne_self _ hlength

theorem recving_cases (h : ConnHolder) (answers : Answers) :
    h.recving answers = (.erase, []) ∨
      ∃ recvBuf, (∃ nonempty, BufferedConnection.tryRecv h.recvBuf answers.recv =
          .ok (nonempty, recvBuf)) ∧
        h.recving answers = (.again { h with recvBuf }, []) := by
  unfold ConnHolder.recving
  cases hrecv : BufferedConnection.tryRecv h.recvBuf answers.recv with
  | error _ => exact .inl rfl
  | ok result =>
      obtain ⟨nonempty, recvBuf⟩ := result
      dsimp only
      rcases Classical.em (recvBuf.readable.length < sizeofRevText) with hshort | hlong
      · rw [if_pos hshort]
        exact .inr ⟨recvBuf, ⟨nonempty, rfl⟩, rfl⟩
      · rw [if_neg hlong, if_pos (take_ne_revText hlong)]
        exact .inl rfl

theorem turn_of_recving (hstate : h.state = .recving) (answers : Answers) :
    h.turn answers = h.recving answers := by
  rw [ConnHolder.turn, hstate]

namespace Handler

/-- The connections the handler has, also in a round. -/
def all (s : Handler) : List ConnHolder :=
  match s.pc with
  | .round _ passed rest => passed ++ rest
  | .test | .ended => s.conns

/-- Nobody has been answered. -/
structure Silent (s : Handler) : Prop where
  recving : ∀ h ∈ s.all, h.state = .recving
  sent : s.sent = []

theorem Silent.visit {now : Int} {passed rest : List ConnHolder} (hs : Silent s)
    (hpc : s.pc = .round now passed (h :: rest)) (answers : Answers) :
    ∃ s', s.visit now passed h rest answers = .ok s' ∧ Silent s' := by
  have hall : ∀ h' ∈ passed ++ h :: rest, h'.state = .recving := by
    have hrecving := hs.recving
    rwa [all, hpc] at hrecving
  have hless : ∀ h' ∈ passed ++ rest, h'.state = .recving := by
    intro h' hmem
    rcases List.mem_append.mp hmem with hmem | hmem
    · exact hall h' (List.mem_append_left _ hmem)
    · exact hall h' (List.mem_append_right _ (List.mem_cons_of_mem _ hmem))
  have hstate := hall h (List.mem_append_right _ List.mem_cons_self)
  unfold Handler.visit
  split_ifs with htime
  · exact ⟨_, rfl, hless, hs.sent⟩
  · rw [turn_of_recving hstate]
    rcases recving_cases h answers with herase | ⟨recvBuf, -, hagain⟩
    · rw [herase]
      exact ⟨_, rfl, hless, (List.append_nil _).trans hs.sent⟩
    · rw [hagain]
      refine ⟨_, rfl, fun h' hmem => ?_, (List.append_nil _).trans hs.sent⟩
      rcases List.mem_append.mp hmem with hmem | hmem
      · exact hall h' (List.mem_append_left _ hmem)
      · rcases List.mem_cons.mp hmem with rfl | hmem
        · exact hstate
        · exact hall h' (List.mem_append_right _ (List.mem_cons_of_mem _ hmem))

theorem Silent.exec (hs : Silent s) (now : Int) (answers : Answers) :
    s.exec now answers = .error .notNow ∨ ∃ s', s.exec now answers = .ok s' ∧ Silent s' := by
  have hrecving := hs.recving
  unfold Handler.exec
  cases hpc : s.pc with
  | test =>
      rw [all, hpc] at hrecving
      right
      dsimp only
      split_ifs
      · exact ⟨_, rfl, hrecving, hs.sent⟩
      · exact ⟨_, rfl, hrecving, hs.sent⟩
  | ended => exact .inl rfl
  | round now' passed rest =>
      right
      cases rest with
      | nil =>
          rw [all, hpc] at hrecving
          change ∀ h ∈ passed ++ [], h.state = .recving at hrecving
          rw [List.append_nil] at hrecving
          exact ⟨_, rfl, hrecving, hs.sent⟩
      | cons h rest => exact hs.visit hpc answers

theorem Silent.add (hs : Silent s) (tp : Int) (sendBuf recvBuf : ConnectionBuffer) (fails : Bool) :
    Silent (s.addFlashSandboxConn tp sendBuf recvBuf fails) := by
  have hrecving := hs.recving
  have hnew : (∀ h ∈ s.conns, h.state = .recving) →
      ∀ h ∈ s.conns ++ [({ tp, sendBuf, recvBuf } : ConnHolder)], h.state = .recving := by
    intro hconns h hmem
    rcases List.mem_append.mp hmem with hmem | hmem
    · exact hconns h hmem
    · rw [List.mem_singleton.mp hmem]
  unfold Handler.addFlashSandboxConn
  cases fails with
  | true => cases s.pc <;> exact hs
  | false =>
      cases hpc : s.pc with
      | round now passed rest => exact hs
      | test =>
          rw [all, hpc] at hrecving
          refine ⟨?_, hs.sent⟩
          rw [all]
          exact hnew hrecving
      | ended =>
          rw [all, hpc] at hrecving
          refine ⟨?_, hs.sent⟩
          rw [all]
          exact hnew hrecving

theorem Silent.step (hs : Silent s) (act : Act) :
    s.step act = .error .notNow ∨ ∃ s', s.step act = .ok s' ∧ Silent s' := by
  cases act with
  | addFlashSandboxConn tp sendBuf recvBuf fails =>
      exact .inr ⟨_, rfl, hs.add tp sendBuf recvBuf fails⟩
  | exec now answers => exact hs.exec now answers
  | stop => exact .inr ⟨_, rfl, hs.recving, hs.sent⟩

/-- Whatever the clients send, none of them ever gets the policy file: nothing is sent at all,
and no connection comes further than to be read. -/
theorem silent_of_reaches (h : system.Reaches C s) : Silent s := by
  refine h.invariant (fun s hs => ?_) fun s act s' hs _ _ hstep => ?_
  · obtain rfl : s = {} := hs
    exact ⟨fun _ hmem => absurd hmem List.not_mem_nil, rfl⟩
  · rcases hs.step act with hnot | ⟨s₁, hs₁, hsilent⟩
    · cases hnot.symm.trans hstep
    · obtain rfl : s₁ = s' := Except.ok.inj (hs₁.symm.trans hstep)
      exact hsilent

theorem silent_of_request :
    let buf := ConnectionBuffer.create 128
    let s := system.after {} [.addFlashSandboxConn 0 buf buf false,
      .exec 1 ⟨.again, .again, .again⟩, .exec 1 ⟨.data (revText ++ [0]), .sent 128, .again⟩]
    s.all.length = 0 ∧ Silent s :=
  ⟨by decide +kernel, silent_of_reaches (C := fun _ _ => True) <|
    .after (.init rfl) <| System.fits_of_forall (fun _ _ => ⟨trivial, trivial⟩) _ _⟩

end Handler

end Silence

section Waiting

variable {h : ConnHolder} {s s' : Handler} {answers : Answers}

/-- A socket that is neither closed nor broken. -/
def Answers.Open (answers : Answers) : Prop :=
  answers.recv ≠ .fault ∧ answers.recv ≠ .data []

theorem tryRecv_of_open {b : ConnectionBuffer} (hopen : answers.Open) :
    ∃ nonempty b', BufferedConnection.tryRecv b answers.recv = .ok (nonempty, b') ∧
      b'.readable.length ≤ b.readable.length + answers.recv.bytes.length := by
  have hmoved : (b.writeable 0).2.readable.length = b.readable.length := by
    rw [ConnectionBuffer.readable_writeable]
  unfold BufferedConnection.tryRecv
  dsimp only
  rcases Classical.em ((b.writeable 0).1.second = 0) with hfull | hroom
  · rw [if_pos hfull]
    exact ⟨_, _, rfl, by omega⟩
  · rw [if_neg hroom]
    cases hrecv : answers.recv with
    | fault => exact absurd hrecv hopen.1
    | again => exact ⟨_, _, rfl, by omega⟩
    | data bytes =>
        have hne : bytes.take (b.writeable 0).1.second ≠ [] := by
          rw [ne_eq, List.take_eq_nil_iff, not_or]
          exact ⟨hroom, fun hnil => hopen.2 (hrecv.trans (congrArg _ hnil))⟩
        dsimp only
        rw [if_neg hne]
        refine ⟨_, _, rfl, ?_⟩
        rw [ConnectionBuffer.writeable_first, ConnectionBuffer.readable_commitWrite,
          List.length_append, hmoved, RecvResult.bytes]
        · have hle := List.length_take_le' (b.writeable 0).1.second bytes
          omega
        · rw [ConnectionBuffer.capacity_writeable, ← ConnectionBuffer.writeable_second]
          exact List.length_take_le ..

namespace Handler

/-- The bytes that come in the steps of the thread. -/
def received : List Act → List UInt8
  | [] => []
  | .exec _ answers :: acts => answers.recv.bytes ++ received acts
  | _ :: acts => received acts

/-- In the steps of the thread the socket stays open. -/
def StaysOpen (acts : List Act) : Prop := ∀ now answers, .exec now answers ∈ acts → answers.Open

/-- The thread stays with a client that has not sent enough, and keeps the lock, whatever else
happens: it comes to no other connection, takes no new ones, and does not notice that it is to
stop. -/
theorem waits_of_short {now : Int} {passed rest : List ConnHolder}
    (hpc : s.pc = .round now passed (h :: rest)) (hstate : h.state = .recving)
    (htime : now ≤ h.tp + timeOutDuration) (acts : List Act) (hopen : StaysOpen acts)
    (hshort : h.recvBuf.readable.length + (received acts).length < sizeofRevText) :
    ∃ h', (system.after s acts).pc = .round now passed (h' :: rest) := by
  induction acts generalizing s h with
  | nil => exact ⟨h, hpc⟩
  | cons act acts ih =>
      have hrest : StaysOpen acts := fun now answers hmem =>
        hopen now answers (List.mem_cons_of_mem _ hmem)
      cases act with
      | addFlashSandboxConn tp sendBuf recvBuf fails =>
          have hsame : s.addFlashSandboxConn tp sendBuf recvBuf fails = s := by
            unfold Handler.addFlashSandboxConn
            rw [hpc]
            cases fails <;> rfl
          have hstep : system.step s (.addFlashSandboxConn tp sendBuf recvBuf fails) = .ok s :=
            congrArg Except.ok hsame
          rw [System.after_cons hstep]
          exact ih hpc hstate htime hrest hshort
      | stop =>
          have hstep : system.step s .stop = .ok { s with switch := false } := rfl
          rw [System.after_cons hstep]
          exact ih hpc hstate htime hrest hshort
      | exec now' answers =>
          obtain ⟨nonempty, recvBuf, hrecv, hlength⟩ :=
            tryRecv_of_open (b := h.recvBuf) (hopen now' answers List.mem_cons_self)
          rw [received, List.length_append] at hshort
          have hagain : h.turn answers = (.again { h with recvBuf }, []) := by
            rw [turn_of_recving hstate, ConnHolder.recving, hrecv]
            exact if_pos (by omega)
          have hstep : system.step s (.exec now' answers) =
              .ok { s with
                pc := .round now passed ({ h with recvBuf } :: rest)
                sent := s.sent ++ [] } := by
            change s.exec now' answers = _
            rw [Handler.exec, hpc]
            dsimp only
            rw [Handler.visit, if_neg (Int.not_lt.mpr htime), hagain]
          rw [System.after_cons hstep]
          exact ih rfl hstate htime hrest (by dsimp only; omega)

theorem waits_of_silent_client :
    let buf := ConnectionBuffer.create 128
    let s := system.after {}
      [.addFlashSandboxConn 0 buf buf false, .exec 1 ⟨.again, .again, .again⟩]
    ∃ h', (system.after s [.stop, .exec 9 ⟨.data revText, .again, .again⟩,
      .exec 9000000000 ⟨.again, .again, .again⟩]).pc = .round 1 [] [h'] :=
  waits_of_short rfl rfl (by decide) _
    (by
      intro now answers hmem
      simp only [List.mem_cons, Act.exec.injEq, List.not_mem_nil, or_false] at hmem
      rcases hmem with hmem | ⟨-, rfl⟩ | ⟨-, rfl⟩
      · cases hmem
      · exact ⟨by decide, by decide⟩
      · exact ⟨by decide, by decide⟩)
    (by decide +kernel)

end Handler

end Waiting

end CasualGame.Base.FlashSandboxHandler
