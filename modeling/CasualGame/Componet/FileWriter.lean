import Mathlib.Data.List.Basic
import CasualGame.Lib.Run

/-!
The log file that a thread of its own writes, out of two buffers that change places.
-/

namespace CasualGame.Componet

open Lib.Run

/-- `m_data` up to `m_cur`, in a block of `m_size` bytes. -/
structure WriterBuffer where
  size : Nat
  data : List UInt8 := []
  fits : data.length ≤ size

namespace WriterBuffer

def bigBufferSize : Nat := 6400 * 1024 * 10

def create (size : Nat := bigBufferSize) : WriterBuffer := { size, fits := Nat.zero_le _ }

variable (b : WriterBuffer)

def length : Nat := b.data.length

def remain : Nat := b.size - b.length

def empty : Bool := b.length == 0

def put (msg : List UInt8) : WriterBuffer :=
  if h : b.remain > msg.length then
    { b with
      data := b.data ++ msg
      fits := by
        rw [remain, length] at h
        rw [List.length_append]
        omega }
  else b

def reset : WriterBuffer := { b with data := [], fits := Nat.zero_le _ }

end WriterBuffer

/-- What `localtime_r` tells. -/
structure Tm where
  year : Nat
  mon : Nat
  mday : Nat
  hour : Nat
  deriving DecidableEq

structure WriterFile where
  filename : String
  curFilename : String
  logHour : Nat

namespace WriterFile

def getFileNameBynow (filename : String) (now : Tm) : String :=
  filename ++ "." ++ (toString (now.year + 1990)).leftpad 4 ' ' ++
    (toString (now.mon + 1)).leftpad 2 '0' ++ (toString now.mday).leftpad 2 '0' ++ "-" ++
      (toString now.hour).leftpad 2 '0'

/-- The time is asked for twice, for the name and for the hour. -/
def roll (f : WriterFile) (name stamp : Tm) : WriterFile :=
  { f with curFilename := getFileNameBynow f.filename name, logHour := stamp.hour }

def create (filename : String) (name stamp : Tm) : WriterFile :=
  roll ⟨filename, "", 0⟩ name stamp

end WriterFile

structure FileWriter where
  writeFile : WriterFile
  readBuf : WriterBuffer := .create
  writeBuf : WriterBuffer := .create
  running : Bool := false

namespace FileWriter

section Code

/-- Where the writing thread stands: at one of the three tests of its loop, in front of the
test whether there is something to write, at the change of the buffers, asleep, in front of
`m_writeFile.append`, or in its loop. -/
inductive Pc
  | none
  | testRunning
  | testRead
  | testWrite
  | turn
  | swap
  | wait
  | append
  | write (done : Nat)
  | ended
  deriving DecidableEq

/-- Whether a call of `start` has made the thread but not said so yet, or a call of `stop`
waits for it. The first holds `m_mutex`. -/
inductive Control
  | idle
  | starting
  | joining
  deriving DecidableEq

/-- The writer, its thread and the files. -/
structure Threads where
  writer : FileWriter
  files : String → List UInt8
  pc : Pc := .none
  control : Control := .idle
  /-- What has been put into a buffer. -/
  accepted : List (List UInt8) := []

def create (filename : String) (name stamp : Tm) (files : String → List UInt8) : Threads where
  writer := { writeFile := .create filename name stamp }
  files := files

/-- What the thread is told from outside: the time, as often as it asks, whether `::open` has
opened the file, and how much `::write` has written. -/
structure Answer where
  check : Tm
  name : Tm
  stamp : Tm
  opened : Bool
  wrote : Option Nat

inductive Act
  | append (msg : Option (List UInt8))
  | start
  | setRunning
  | stop
  | joined
  | next (answer : Answer)

inductive Fault
  /-- The mutex is taken, or there is no such step to take. -/
  | notNow
  | openLogFileFailed
  | writeLogFileFailed
  /-- A thread that can be joined has been assigned to. -/
  | terminate

open Fault

variable (s : Threads)

def Threads.setPc (pc : Pc) : Threads := { s with pc }

def append (msg : Option (List UInt8)) : Except Fault Threads :=
  if s.control = .starting then .error notNow
  else
    match msg with
    | none => .ok s
    | some msg =>
        if !s.writer.running then .ok s
        else if s.writer.writeBuf.remain > msg.length then
          .ok { s with
            writer := { s.writer with writeBuf := s.writer.writeBuf.put msg }
            accepted := s.accepted ++ [msg] }
        else .ok s

/-- The first half, up to the thread being made. -/
def start : Except Fault Threads :=
  match s.control with
  | .starting => .error notNow
  | .joining => .error terminate
  | .idle =>
      if !s.writer.running then .ok { s with pc := .testRunning, control := .starting }
      else .ok s

def setRunning : Except Fault Threads :=
  match s.control with
  | .starting => .ok { s with writer := { s.writer with running := true }, control := .idle }
  | _ => .error notNow

def stop : Except Fault Threads :=
  if s.control = .starting then .error notNow
  else if s.writer.running then
    .ok { s with writer := { s.writer with running := false }, control := .joining }
  else .ok s

def joined : Except Fault Threads :=
  if s.control = .joining ∧ s.pc = .ended then .ok { s with pc := .none, control := .idle }
  else .error notNow

/-- The next step of the thread. -/
def next (answer : Answer) : Except Fault Threads :=
  let w := s.writer
  match s.pc with
  | .none | .ended => .error notNow
  | .testRunning => .ok (s.setPc (if w.running then .turn else .testRead))
  | .testRead => .ok (s.setPc (if w.readBuf.empty then .testWrite else .turn))
  | .testWrite => .ok (s.setPc (if w.writeBuf.empty then .ended else .turn))
  | .turn => .ok (s.setPc (if w.readBuf.empty then .swap else .append))
  | .swap =>
      if s.control = .starting then .error notNow
      else if !w.writeBuf.empty then
        .ok { s with
          writer := { w with readBuf := w.writeBuf, writeBuf := w.readBuf }
          pc := .wait }
      else .ok (s.setPc .wait)
  | .wait => .ok (s.setPc .testRunning)
  | .append =>
      if w.writeFile.logHour ≠ answer.check.hour then
        if answer.opened then
          .ok { s with
            writer := { w with writeFile := w.writeFile.roll answer.name answer.stamp }
            pc := .write 0 }
        else .error openLogFileFailed
      else .ok (s.setPc (.write 0))
  | .write done =>
      if done < w.readBuf.length then
        match answer.wrote with
        | none => .error writeLogFileFailed
        | some wrote =>
            let msg := (w.readBuf.data.drop done).take wrote
            let file := w.writeFile.curFilename
            .ok { s with
              files := Function.update s.files file (s.files file ++ msg)
              pc := .write (done + msg.length) }
      else .ok { s with writer := { w with readBuf := w.readBuf.reset }, pc := .testRunning }

/-- Any number of threads that append, start and stop, in any order of their steps. -/
def threads (filename : String) (name stamp : Tm) (files : String → List UInt8) :
    System Threads Act Fault where
  Init s := s = create filename name stamp files
  Allowed _ _ := True
  step s
    | .append msg => append s msg
    | .start => start s
    | .setRunning => setRunning s
    | .stop => stop s
    | .joined => joined s
    | .next answer => next s answer

instance (filename : String) (name stamp : Tm) (files : String → List UInt8) (s : Threads)
    (act : Act) : Decidable ((threads filename name stamp files).Allowed s act) :=
  .isTrue trivial

end Code

section Steps

variable {s s' : Threads} {answer : Answer}

/-- Where the thread goes when it only looks. -/
inductive Move (w : FileWriter) : Pc → Pc → Prop
  | running (hrunning : w.running = true) : Move w .testRunning .turn
  | notRunning (hrunning : w.running = false) : Move w .testRunning .testRead
  | readEmpty (hread : w.readBuf.data = []) : Move w .testRead .testWrite
  | readLeft (hread : w.readBuf.data ≠ []) : Move w .testRead .turn
  | writeEmpty (hwrite : w.writeBuf.data = []) : Move w .testWrite .ended
  | writeLeft (hwrite : w.writeBuf.data ≠ []) : Move w .testWrite .turn
  | toSwap (hread : w.readBuf.data = []) : Move w .turn .swap
  | toAppend (hread : w.readBuf.data ≠ []) : Move w .turn .append
  | noSwap (hwrite : w.writeBuf.data = []) : Move w .swap .wait
  | wait : Move w .wait .testRunning

/-- What a step can do. -/
inductive Step : Threads → Act → Threads → Prop
  | rejected {s : Threads} {act : Act} (hact : ∀ answer, act ≠ .next answer) : Step s act s
  | appended {s : Threads} {msg : List UInt8} (hcontrol : s.control ≠ .starting)
      (hrunning : s.writer.running = true) (hroom : s.writer.writeBuf.remain > msg.length) :
      Step s (.append (some msg))
        { s with
          writer := { s.writer with writeBuf := s.writer.writeBuf.put msg }
          accepted := s.accepted ++ [msg] }
  | start {s : Threads} (hcontrol : s.control = .idle) (hrunning : s.writer.running = false) :
      Step s .start { s with pc := .testRunning, control := .starting }
  | setRunning {s : Threads} (hcontrol : s.control = .starting) :
      Step s .setRunning { s with writer := { s.writer with running := true }, control := .idle }
  | stop {s : Threads} (hcontrol : s.control ≠ .starting) (hrunning : s.writer.running = true) :
      Step s .stop { s with writer := { s.writer with running := false }, control := .joining }
  | joined {s : Threads} (hcontrol : s.control = .joining) (hpc : s.pc = .ended) :
      Step s .joined { s with pc := .none, control := .idle }
  | moved {s : Threads} {answer : Answer} {pc : Pc} (hmove : Move s.writer s.pc pc) :
      Step s (.next answer) (s.setPc pc)
  | swap {s : Threads} {answer : Answer} (hpc : s.pc = .swap)
      (hwrite : s.writer.writeBuf.data ≠ []) :
      Step s (.next answer)
        { s with
          writer := { s.writer with
            readBuf := s.writer.writeBuf
            writeBuf := s.writer.readBuf }
          pc := .wait }
  | append {s : Threads} {answer : Answer} (hpc : s.pc = .append) (f : WriterFile) :
      Step s (.next answer) { s with writer := { s.writer with writeFile := f }, pc := .write 0 }
  | write {s : Threads} {answer : Answer} {done : Nat} (hpc : s.pc = .write done)
      (hmore : done < s.writer.readBuf.data.length) {wrote : Nat}
      (hwrote : answer.wrote = some wrote) :
      Step s (.next answer)
        { s with
          files := Function.update s.files s.writer.writeFile.curFilename
            (s.files s.writer.writeFile.curFilename ++
              (s.writer.readBuf.data.drop done).take wrote)
          pc := .write (done + ((s.writer.readBuf.data.drop done).take wrote).length) }
  | reset {s : Threads} {answer : Answer} {done : Nat} (hpc : s.pc = .write done)
      (hall : s.writer.readBuf.data.length ≤ done) :
      Step s (.next answer)
        { s with
          writer := { s.writer with readBuf := s.writer.readBuf.reset }
          pc := .testRunning }

theorem empty_iff {b : WriterBuffer} : b.empty = true ↔ b.data = [] := by
  rw [WriterBuffer.empty, WriterBuffer.length, beq_iff_eq, List.length_eq_zero_iff]

theorem step_append {msg : Option (List UInt8)} (h : FileWriter.append s msg = .ok s') :
    Step s (.append msg) s' := by
  unfold FileWriter.append at h
  split at h
  · cases h
  · next hcontrol =>
      cases msg with
      | none => exact Except.ok.inj h ▸ .rejected (by rintro answer ⟨⟩)
      | some msg =>
          dsimp only at h
          split_ifs at h with hrunning hroom <;> obtain rfl := Except.ok.inj h
          · exact .rejected (by rintro answer ⟨⟩)
          · exact .appended hcontrol (by simpa using hrunning) hroom
          · exact .rejected (by rintro answer ⟨⟩)

theorem step_start (h : FileWriter.start s = .ok s') : Step s .start s' := by
  unfold FileWriter.start at h
  cases hcontrol : s.control with
  | starting =>
      rw [hcontrol] at h
      cases h
  | joining =>
      rw [hcontrol] at h
      cases h
  | idle =>
      rw [hcontrol] at h
      dsimp only at h
      split_ifs at h with hrunning <;> obtain rfl := Except.ok.inj h
      · exact .start hcontrol (by simpa using hrunning)
      · exact .rejected (by rintro answer ⟨⟩)

theorem step_setRunning (h : FileWriter.setRunning s = .ok s') : Step s .setRunning s' := by
  unfold FileWriter.setRunning at h
  split at h
  · next hcontrol => exact Except.ok.inj h ▸ .setRunning hcontrol
  · cases h

theorem step_stop (h : FileWriter.stop s = .ok s') : Step s .stop s' := by
  unfold FileWriter.stop at h
  split_ifs at h with hcontrol hrunning <;> obtain rfl := Except.ok.inj h
  · exact .stop hcontrol hrunning
  · exact .rejected (by rintro answer ⟨⟩)

theorem step_joined (h : FileWriter.joined s = .ok s') : Step s .joined s' := by
  unfold FileWriter.joined at h
  split_ifs at h with hended
  exact Except.ok.inj h ▸ .joined hended.1 hended.2

theorem step_next (h : FileWriter.next s answer = .ok s') : Step s (.next answer) s' := by
  unfold FileWriter.next at h
  cases hpc : s.pc with
  | none =>
      rw [hpc] at h
      cases h
  | ended =>
      rw [hpc] at h
      cases h
  | testRunning =>
      rw [hpc] at h
      obtain rfl := Except.ok.inj h
      refine .moved ?_
      rw [hpc]
      split_ifs with hrunning
      · exact .running hrunning
      · exact .notRunning (by simpa using hrunning)
  | testRead =>
      rw [hpc] at h
      obtain rfl := Except.ok.inj h
      refine .moved ?_
      rw [hpc]
      split_ifs with hread
      · exact .readEmpty (empty_iff.mp hread)
      · exact .readLeft (mt empty_iff.mpr hread)
  | testWrite =>
      rw [hpc] at h
      obtain rfl := Except.ok.inj h
      refine .moved ?_
      rw [hpc]
      split_ifs with hwrite
      · exact .writeEmpty (empty_iff.mp hwrite)
      · exact .writeLeft (mt empty_iff.mpr hwrite)
  | turn =>
      rw [hpc] at h
      obtain rfl := Except.ok.inj h
      refine .moved ?_
      rw [hpc]
      split_ifs with hread
      · exact .toSwap (empty_iff.mp hread)
      · exact .toAppend (mt empty_iff.mpr hread)
  | swap =>
      rw [hpc] at h
      dsimp only at h
      split_ifs at h with hcontrol hwrite <;> obtain rfl := Except.ok.inj h
      · exact .swap hpc (mt empty_iff.mpr (by simpa using hwrite))
      · exact .moved (hpc ▸ .noSwap (empty_iff.mp (by simpa using hwrite)))
  | wait =>
      rw [hpc] at h
      exact Except.ok.inj h ▸ .moved (hpc ▸ .wait)
  | append =>
      rw [hpc] at h
      dsimp only at h
      split_ifs at h with hhour hopened <;> obtain rfl := Except.ok.inj h
      · exact .append hpc _
      · exact .append hpc s.writer.writeFile
  | write done =>
      rw [hpc] at h
      dsimp only at h
      split_ifs at h with hmore
      · cases hwrote : answer.wrote with
        | none =>
            rw [hwrote] at h
            cases h
        | some wrote =>
            rw [hwrote] at h
            exact Except.ok.inj h ▸ .write hpc hmore hwrote
      · exact Except.ok.inj h ▸ .reset hpc (Nat.le_of_not_lt hmore)

theorem step_cases {filename : String} {name stamp : Tm} {files : String → List UInt8} {act : Act}
    (h : (threads filename name stamp files).step s act = .ok s') : Step s act s' := by
  cases act with
  | append msg => exact step_append h
  | start => exact step_start h
  | setRunning => exact step_setRunning h
  | stop => exact step_stop h
  | joined => exact step_joined h
  | next answer => exact step_next h

end Steps

section Places

/-- The messages that are in a file, with its name, and those that are in the one buffer and in
the other. -/
structure Places where
  filed : List (String × List UInt8) := []
  reading : List (List UInt8) := []
  writing : List (List UInt8) := []

def contents (filed : List (String × List UInt8)) (file : String) : List UInt8 :=
  ((filed.filter fun m => m.1 = file).map Prod.snd).flatten

/-- What the loop has written so far out of a buffer that it has not reset yet. -/
def Threads.begun (s : Threads) (file : String) : List UInt8 :=
  match s.pc with
  | .write done =>
      if file = s.writer.writeFile.curFilename then s.writer.readBuf.data.take done else []
  | _ => []

/-- Every message that has been accepted is in one place, as a whole and in its turn, and
nothing else is there. -/
structure Placed (files : String → List UInt8) (s : Threads) (p : Places) : Prop where
  accepted_eq : s.accepted = p.filed.map Prod.snd ++ p.reading ++ p.writing
  reading_eq : s.writer.readBuf.data = p.reading.flatten
  writing_eq : s.writer.writeBuf.data = p.writing.flatten
  files_eq : ∀ file, s.files file = files file ++ contents p.filed file ++ s.begun file

/-- The places, and what the thread has found out. -/
structure Holds (files : String → List UInt8) (s : Threads) (p : Places) : Prop
    extends Placed files s p where
  swap_eq : s.pc = .swap → s.writer.readBuf.data = []
  done_le : ∀ done, s.pc = .write done → done ≤ s.writer.readBuf.data.length
  running_eq : s.control ≠ .idle → s.writer.running = false
  none_iff : s.pc = .none ↔ s.control = .idle ∧ s.writer.running = false

variable {files : String → List UInt8} {s s' : Threads} {p : Places}

theorem contents_append (filed : List (String × List UInt8)) (msgs : List (List UInt8))
    (file file' : String) :
    contents (filed ++ msgs.map fun msg => (file', msg)) file =
      contents filed file ++ if file = file' then msgs.flatten else [] := by
  rw [contents, contents, List.filter_append, List.map_append, List.flatten_append]
  congr 1
  rcases eq_or_ne file file' with rfl | hne
  · rw [if_pos rfl, List.filter_eq_self.mpr (by simp), List.map_map]
    congr 1
    exact List.map_id _
  · rw [if_neg hne, List.filter_eq_nil_iff.mpr (by simp [hne.symm])]
    rfl

theorem begun_eq_nil (h : ∀ done, s.pc = .write done → done = 0) (file : String) :
    s.begun file = [] := by
  rw [Threads.begun]
  split
  · next done hpc =>
      rw [h done hpc, List.take_zero, ite_self]
  · rfl

namespace Holds

theorem frame (h : Holds files s p) (pc : Pc) (control : Control) (running : Bool)
    (hpc : ∀ done, s.pc = .write done → pc = s.pc) (hnew : ∀ done, pc = .write done → pc = s.pc)
    (hswap : pc = .swap → s.writer.readBuf.data = [])
    (hrunning : control ≠ .idle → running = false)
    (hnone : pc = .none ↔ control = .idle ∧ running = false) :
    Holds files { s with writer := { s.writer with running }, pc, control } p := by
  refine ⟨⟨h.accepted_eq, h.reading_eq, h.writing_eq, ?_⟩, hswap, ?_, hrunning, hnone⟩
  · intro file
    rw [h.files_eq file]
    congr 1
    rcases Classical.em (pc = s.pc) with rfl | hne
    · rfl
    · rw [begun_eq_nil fun done hdone => absurd (hpc done hdone) hne,
        begun_eq_nil fun done hdone => absurd (hnew done hdone) hne]
  · intro done hdone
    exact h.done_le done ((hnew done hdone).symm.trans hdone)

theorem setPc (h : Holds files s p) {pc pc' : Pc} (hpc : s.pc = pc)
    (hold : ∀ done, pc ≠ .write done) (hsome : pc ≠ .none) (hsome' : pc' ≠ .none)
    (hnew : ∀ done, pc' ≠ .write done) (hswap : pc' = .swap → s.writer.readBuf.data = []) :
    Holds files (s.setPc pc') p := by
  subst hpc
  apply h.frame
  · exact fun done hdone => absurd hdone (hold done)
  · exact fun done hdone => absurd hdone (hnew done)
  · exact hswap
  · exact h.running_eq
  · rw [← h.none_iff]
    exact iff_of_false hsome' hsome

theorem appended (h : Holds files s p) {msg : List UInt8}
    (hroom : s.writer.writeBuf.remain > msg.length) :
    Holds files
      { s with
        writer := { s.writer with writeBuf := s.writer.writeBuf.put msg }
        accepted := s.accepted ++ [msg] } { p with writing := p.writing ++ [msg] } := by
  refine ⟨⟨?_, h.reading_eq, ?_, h.files_eq⟩, h.swap_eq, h.done_le, h.running_eq, h.none_iff⟩
  · dsimp only
    rw [h.accepted_eq, List.append_assoc]
  · dsimp only
    rw [WriterBuffer.put, dif_pos hroom, List.flatten_append, ← h.writing_eq,
      List.flatten_singleton]

theorem filed (h : Holds files s p) {pc : Pc} {w : FileWriter} (reading writing : List (List UInt8))
    (haccepted : p.writing = reading ++ writing) (hreading : w.readBuf.data = reading.flatten)
    (hwriting : w.writeBuf.data = writing.flatten)
    (hrunning : w.running = s.writer.running)
    (hbegun : ∀ file, s.begun file =
      if file = s.writer.writeFile.curFilename then p.reading.flatten else [])
    (hsome : s.pc ≠ .none) (hsome' : pc ≠ .none) (hpc : pc ≠ .swap)
    (hnew : ∀ done, pc ≠ .write done) :
    Holds files { s with writer := w, pc }
      ⟨p.filed ++ p.reading.map fun msg => (s.writer.writeFile.curFilename, msg), reading,
        writing⟩ := by
  refine ⟨⟨?_, hreading, hwriting, ?_⟩, fun h => absurd h hpc, fun done h => absurd h (hnew done),
    ?_, ?_⟩
  · dsimp only
    rw [h.accepted_eq, haccepted, List.map_append, List.map_map, ← List.append_assoc]
    congr 3
    exact (List.map_id _).symm
  · intro file
    have hfiles := h.files_eq file
    rw [hbegun, List.append_assoc] at hfiles
    rw [begun_eq_nil fun done hdone => absurd hdone (hnew done), List.append_nil]
    exact hfiles.trans (congrArg (files file ++ ·) (contents_append p.filed p.reading file _).symm)
  · intro hcontrol
    exact hrunning.trans (h.running_eq hcontrol)
  · dsimp only
    rw [hrunning, ← h.none_iff]
    exact iff_of_false hsome' hsome

theorem write (h : Holds files s p) {done : Nat} (hpc : s.pc = .write done) (wrote : Nat) :
    Holds files
      { s with
        files := Function.update s.files s.writer.writeFile.curFilename
          (s.files s.writer.writeFile.curFilename ++
            (s.writer.readBuf.data.drop done).take wrote)
        pc := .write (done + ((s.writer.readBuf.data.drop done).take wrote).length) } p := by
  have hdone := h.done_le done hpc
  refine ⟨⟨h.accepted_eq, h.reading_eq, h.writing_eq, ?_⟩, ?_, ?_, h.running_eq, ?_⟩
  · intro file
    have hfiles := h.files_eq file
    rw [Threads.begun, hpc] at hfiles
    rw [Threads.begun]
    dsimp only at hfiles ⊢
    rcases eq_or_ne file s.writer.writeFile.curFilename with rfl | hne
    · rw [if_pos rfl] at hfiles ⊢
      rw [Function.update_self, hfiles, List.append_assoc, List.append_assoc, List.append_assoc]
      congr 2
      rw [List.length_take, List.length_drop, List.take_add]
      congr 1
      rw [List.take_eq_take_iff, List.length_drop]
      omega
    · rw [if_neg hne] at hfiles ⊢
      rw [Function.update_of_ne hne, hfiles]
  · rintro ⟨⟩
  · rintro done' hdone'
    obtain rfl := Pc.write.inj hdone'
    dsimp only
    rw [List.length_take, List.length_drop]
    omega
  · rw [← h.none_iff, hpc]
    exact iff_of_false (by rintro ⟨⟩) (by rintro ⟨⟩)

theorem step (h : Holds files s p) {act : Act} (hstep : Step s act s') :
    ∃ p, Holds files s' p := by
  cases hstep with
  | rejected => exact ⟨p, h⟩
  | appended _ _ hroom => exact ⟨_, h.appended hroom⟩
  | start hcontrol hrunning =>
      have hnone := h.none_iff.mpr ⟨hcontrol, hrunning⟩
      refine ⟨p, ?_⟩
      have hframe := h.frame .testRunning .starting s.writer.running
        (by rw [hnone]; rintro done ⟨⟩) (by rintro done ⟨⟩) (by rintro ⟨⟩) (fun _ => hrunning)
        (iff_of_false (by rintro ⟨⟩) (by rintro ⟨⟨⟩, _⟩))
      exact hframe
  | setRunning hcontrol =>
      have hsome : s.pc ≠ .none := by
        intro hnone
        have hidle := (h.none_iff.mp hnone).1
        rw [hcontrol] at hidle
        cases hidle
      refine ⟨p, ?_⟩
      have hframe := h.frame s.pc .idle true
        (fun _ _ => rfl) (fun _ _ => rfl) h.swap_eq (fun hne => absurd rfl hne)
        (iff_of_false hsome (by rintro ⟨_, ⟨⟩⟩))
      exact hframe
  | stop hcontrol hrunning =>
      have hsome : s.pc ≠ .none := by
        intro hnone
        have hstopped := (h.none_iff.mp hnone).2
        rw [hrunning] at hstopped
        cases hstopped
      refine ⟨p, ?_⟩
      have hframe := h.frame s.pc .joining false
        (fun _ _ => rfl) (fun _ _ => rfl) h.swap_eq (fun _ => rfl)
        (iff_of_false hsome (by rintro ⟨⟨⟩, _⟩))
      exact hframe
  | joined hcontrol hpc =>
      have hrunning := h.running_eq (by rw [hcontrol]; rintro ⟨⟩)
      refine ⟨p, ?_⟩
      have hframe := h.frame .none .idle s.writer.running
        (by rw [hpc]; rintro done ⟨⟩) (by rintro done ⟨⟩) (by rintro ⟨⟩) (fun hne => absurd rfl hne)
        (iff_of_true rfl ⟨rfl, hrunning⟩)
      exact hframe
  | moved hmove =>
      generalize hpc : s.pc = pc at hmove
      refine ⟨p, h.setPc hpc ?_ ?_ ?_ ?_ ?_⟩
      · cases hmove <;> rintro done ⟨⟩
      · cases hmove <;> rintro ⟨⟩
      · cases hmove <;> rintro ⟨⟩
      · cases hmove <;> rintro done ⟨⟩
      · cases hmove with
        | toSwap hread => exact fun _ => hread
        | _ => rintro ⟨⟩
  | swap hpc =>
      have hreading : p.reading.flatten = [] := h.reading_eq.symm.trans (h.swap_eq hpc)
      refine ⟨_, h.filed p.writing [] (List.append_nil _).symm h.writing_eq (h.swap_eq hpc) rfl
        ?_ ?_ ?_ ?_ ?_⟩
      · intro file
        rw [begun_eq_nil (by rw [hpc]; rintro done ⟨⟩), hreading, ite_self]
      · rw [hpc]
        rintro ⟨⟩
      · rintro ⟨⟩
      · rintro ⟨⟩
      · rintro done ⟨⟩
  | append hpc f =>
      refine ⟨p, ⟨h.accepted_eq, h.reading_eq, h.writing_eq, ?_⟩, ?_, ?_, h.running_eq, ?_⟩
      · intro file
        rw [begun_eq_nil (by rintro done ⟨⟩; rfl), h.files_eq file,
          begun_eq_nil (by rw [hpc]; rintro done ⟨⟩)]
      · rintro ⟨⟩
      · rintro done ⟨⟩
        exact Nat.zero_le _
      · rw [← h.none_iff, hpc]
        exact iff_of_false (by rintro ⟨⟩) (by rintro ⟨⟩)
  | write hpc _ _ => exact ⟨p, h.write hpc _⟩
  | reset hpc hall =>
      refine ⟨_, h.filed [] p.writing rfl rfl h.writing_eq rfl ?_ ?_ ?_ ?_ ?_⟩
      · intro file
        rw [Threads.begun, hpc]
        dsimp only
        rw [List.take_of_length_le hall, h.reading_eq]
      · rw [hpc]
        rintro ⟨⟩
      · rintro ⟨⟩
      · rintro ⟨⟩
      · rintro done ⟨⟩

end Holds

variable {filename : String} {name stamp : Tm} {C : Threads → Act → Prop}

theorem exists_holds (h : (threads filename name stamp files).Reaches C s) :
    ∃ p, Holds files s p := by
  apply h.invariant
  · rintro s rfl
    refine ⟨{}, ⟨rfl, rfl, rfl, ?_⟩, ?_, ?_, fun _ => rfl, iff_of_true rfl ⟨rfl, rfl⟩⟩
    · intro file
      exact ((List.append_nil _).trans (List.append_nil _)).symm
    · rintro ⟨⟩
    · rintro done ⟨⟩
  · intro s act s' hs _ _ hstep
    obtain ⟨p, hp⟩ := hs
    exact hp.step (step_cases hstep)

/-- Whoever appends, starts and stops in whatever order, no message that has been accepted is
lost, doubled, torn or out of its turn. -/
theorem exists_placed (h : (threads filename name stamp files).Reaches C s) :
    ∃ p, Placed files s p := by
  obtain ⟨p, hp⟩ := exists_holds h
  exact ⟨p, hp.toPlaced⟩

theorem exists_placed_of_two_appends :
    let s := (threads "log" ⟨126, 9, 12, 8⟩ ⟨126, 9, 12, 8⟩ fun _ => []).after
      (create "log" ⟨126, 9, 12, 8⟩ ⟨126, 9, 12, 8⟩ fun _ => [])
      [.start, .setRunning, .append (some [1, 2]), .append none, .append (some [3])]
    s.accepted = [[1, 2], [3]] ∧ ∃ p, Placed (fun _ => []) s p :=
  ⟨rfl, exists_placed (C := fun _ _ => True) <|
    .after (.init rfl) <| System.fits_of_forall (fun _ _ => ⟨trivial, trivial⟩) _ _⟩

end Places

end FileWriter

end CasualGame.Componet
