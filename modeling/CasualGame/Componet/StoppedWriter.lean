import Mathlib.Data.List.Count
import CasualGame.Componet.FileWriter

/-!
What a log file has when its writer has been stopped, and that a call of `stop` returns.
-/

namespace CasualGame.Componet

namespace FileWriter

open Lib.Run

variable {filename : String} {name stamp : Tm} {files : String → List UInt8} {s s' : Threads}

section Drained

/-- The thread does not come to its first test before `start` has set `m_running`. -/
def TestsAfterStart (s : Threads) (act : Act) : Prop :=
  ∀ answer, act = .next answer → s.pc = .testRunning → s.control ≠ .starting

instance (s : Threads) (act : Act) : Decidable (TestsAfterStart s act) :=
  match act with
  | .next _ =>
      decidable_of_iff (s.pc = .testRunning → s.control ≠ .starting) (by simp [TestsAfterStart])
  | .append _ | .start | .setRunning | .stop | .joined => .isTrue (by rintro answer ⟨⟩)

/-- The thread leaves its loop only when it is being waited for, and with empty buffers. -/
structure Drains (s : Threads) : Prop where
  running_eq : s.control ≠ .idle → s.writer.running = false
  starting : s.control = .starting →
    s.pc = .testRunning ∧ s.writer.readBuf.data = [] ∧ s.writer.writeBuf.data = []
  stopped : s.control = .idle → s.writer.running = false →
    s.pc = .none ∧ s.writer.readBuf.data = [] ∧ s.writer.writeBuf.data = []
  last : s.pc = .testRead ∨ s.pc = .testWrite ∨ s.pc = .ended → s.control = .joining
  read_eq : s.pc = .testWrite → s.writer.readBuf.data = []
  ended : s.pc = .ended → s.writer.readBuf.data = [] ∧ s.writer.writeBuf.data = []

namespace Drains

theorem working (h : Drains s) {pc : Pc} {w : FileWriter} {file : String → List UInt8}
    (hpc : s.pc ≠ .none) (htest : s.control ≠ .starting) (hrunning : w.running = s.writer.running)
    (hnew : pc ≠ .testRead ∧ pc ≠ .testWrite ∧ pc ≠ .ended) :
    Drains { s with writer := w, files := file, pc } where
  running_eq hcontrol := hrunning.trans (h.running_eq hcontrol)
  starting hcontrol := absurd hcontrol htest
  stopped hidle hstopped := absurd (h.stopped hidle (hrunning.symm.trans hstopped)).1 hpc
  last hlast := absurd hlast (by simp [hnew.1, hnew.2.1, hnew.2.2])
  read_eq hwrite := absurd hwrite hnew.2.1
  ended hended := absurd hended hnew.2.2

theorem joining (h : Drains s) (hpc : s.pc ≠ .none) (htest : s.control ≠ .starting)
    (hrunning : s.writer.running = false) : s.control = .joining := by
  cases hcontrol : s.control with
  | idle => exact absurd (h.stopped hcontrol hrunning).1 hpc
  | starting => exact absurd hcontrol htest
  | joining => rfl

theorem ending (h : Drains s) {pc : Pc} (hcontrol : s.control = .joining)
    (hread : pc = .testWrite ∨ pc = .ended → s.writer.readBuf.data = [])
    (hwrite : pc = .ended → s.writer.writeBuf.data = []) : Drains (s.setPc pc) where
  running_eq := h.running_eq
  starting hstarting := absurd (hcontrol.symm.trans hstarting) (by rintro ⟨⟩)
  stopped hidle := absurd (hcontrol.symm.trans hidle) (by rintro ⟨⟩)
  last _ := hcontrol
  read_eq htest := hread (.inl htest)
  ended hended := ⟨hread (.inr hended), hwrite hended⟩

theorem move (h : Drains s) {pc : Pc} (htest : s.pc = .testRunning → s.control ≠ .starting)
    (hmove : Move s.writer s.pc pc) : Drains (s.setPc pc) := by
  have hcontrol : s.control ≠ .starting := fun hstarting =>
    htest (h.starting hstarting).1 hstarting
  generalize hpc : s.pc = old at hmove
  cases hmove with
  | notRunning hrunning =>
      have hjoining := h.joining (by rw [hpc]; rintro ⟨⟩) hcontrol hrunning
      exact h.ending hjoining (by rintro (⟨⟨⟩⟩ | ⟨⟨⟩⟩)) (by rintro ⟨⟩)
  | readEmpty hread =>
      exact h.ending (h.last (.inl hpc)) (fun _ => hread) (by rintro ⟨⟩)
  | writeEmpty hwrite =>
      exact h.ending (h.last (.inr (.inl hpc))) (fun _ => h.read_eq hpc) fun _ => hwrite
  | _ =>
      apply h.working
      · rw [hpc]
        rintro ⟨⟩
      · exact hcontrol
      · rfl
      · refine ⟨?_, ?_, ?_⟩ <;> rintro ⟨⟩

theorem step (h : Drains s) {act : Act} (htest : TestsAfterStart s act) (hstep : Step s act s') :
    Drains s' := by
  cases hstep with
  | rejected => exact h
  | appended hcontrol hrunning hroom =>
      refine ⟨h.running_eq, fun hstarting => absurd hstarting hcontrol, ?_, h.last, h.read_eq, ?_⟩
      · intro _ hstopped
        cases hrunning.symm.trans hstopped
      · intro hended
        have hjoining := h.last (.inr (.inr hended))
        have hstopped := h.running_eq (by rw [hjoining]; rintro ⟨⟩)
        cases hrunning.symm.trans hstopped
  | start hcontrol hrunning =>
      obtain ⟨-, hread, hwrite⟩ := h.stopped hcontrol hrunning
      refine ⟨fun _ => hrunning, fun _ => ⟨rfl, hread, hwrite⟩, ?_, ?_, ?_, ?_⟩
      · rintro ⟨⟩
      · rintro (⟨⟨⟩⟩ | ⟨⟨⟩⟩ | ⟨⟨⟩⟩)
      · rintro ⟨⟩
      · rintro ⟨⟩
  | setRunning hcontrol =>
      have hpc := (h.starting hcontrol).1
      refine ⟨fun hne => absurd rfl hne, ?_, ?_, ?_, h.read_eq, h.ended⟩
      · rintro ⟨⟩
      · rintro - ⟨⟩
      · dsimp only
        rw [hpc]
        rintro (⟨⟨⟩⟩ | ⟨⟨⟩⟩ | ⟨⟨⟩⟩)
  | stop hcontrol hrunning =>
      refine ⟨fun _ => rfl, ?_, ?_, fun _ => rfl, h.read_eq, h.ended⟩
      · rintro ⟨⟩
      · rintro ⟨⟩
  | joined hcontrol hpc =>
      obtain ⟨hread, hwrite⟩ := h.ended hpc
      refine ⟨fun hne => absurd rfl hne, ?_, fun _ _ => ⟨rfl, hread, hwrite⟩, ?_, ?_, ?_⟩
      · rintro ⟨⟩
      · rintro (⟨⟨⟩⟩ | ⟨⟨⟩⟩ | ⟨⟨⟩⟩)
      · rintro ⟨⟩
      · rintro ⟨⟩
  | @moved answer _ hmove => exact h.move (htest answer rfl) hmove
  | swap hpc =>
      apply h.working
      · rw [hpc]
        rintro ⟨⟩
      · intro hstarting
        cases hpc.symm.trans (h.starting hstarting).1
      · rfl
      · refine ⟨?_, ?_, ?_⟩ <;> rintro ⟨⟩
  | append hpc f =>
      apply h.working
      · rw [hpc]
        rintro ⟨⟩
      · intro hstarting
        cases hpc.symm.trans (h.starting hstarting).1
      · rfl
      · refine ⟨?_, ?_, ?_⟩ <;> rintro ⟨⟩
  | write hpc =>
      apply h.working
      · rw [hpc]
        rintro ⟨⟩
      · intro hstarting
        cases hpc.symm.trans (h.starting hstarting).1
      · rfl
      · refine ⟨?_, ?_, ?_⟩ <;> rintro ⟨⟩
  | reset hpc =>
      apply h.working
      · rw [hpc]
        rintro ⟨⟩
      · intro hstarting
        cases hpc.symm.trans (h.starting hstarting).1
      · rfl
      · refine ⟨?_, ?_, ?_⟩ <;> rintro ⟨⟩

end Drains

theorem reaches_drains (h : (threads filename name stamp files).Reaches TestsAfterStart s) :
    Drains s := by
  apply h.invariant
  · rintro s rfl
    refine ⟨fun _ => rfl, ?_, fun _ _ => ⟨rfl, rfl, rfl⟩, ?_, ?_, ?_⟩
    · rintro ⟨⟩
    · rintro (⟨⟨⟩⟩ | ⟨⟨⟩⟩ | ⟨⟨⟩⟩)
    · rintro ⟨⟩
    · rintro ⟨⟩
  · intro s act s' hs _ htest hstep
    exact hs.step htest (step_cases hstep)

/-- When no call of `start` or `stop` is under way and the writer does not run, the files have
every message that has been accepted, in order, and nothing else. -/
theorem files_of_stopped (h : (threads filename name stamp files).Reaches TestsAfterStart s)
    (hidle : s.control = .idle) (hrunning : s.writer.running = false) :
    ∃ filed, s.accepted = filed.map Prod.snd ∧
      ∀ file, s.files file = files file ++ contents filed file := by
  obtain ⟨hpc, hread, hwrite⟩ := (reaches_drains h).stopped hidle hrunning
  obtain ⟨p, hp⟩ := exists_placed h
  -- What is left in the buffers are messages without a byte, which belong to any file.
  have hleft : (p.reading ++ p.writing).flatten = [] := by
    rw [List.flatten_append, ← hp.reading_eq, ← hp.writing_eq, hread, hwrite, List.append_nil]
  refine ⟨p.filed ++ (p.reading ++ p.writing).map fun msg => (filename, msg), ?_, ?_⟩
  · rw [hp.accepted_eq, List.map_append, List.map_map, List.append_assoc]
    congr 1
    exact (List.map_id _).symm
  · intro file
    rw [contents_append, hleft, ite_self, List.append_nil, hp.files_eq file,
      begun_eq_nil (by rw [hpc]; rintro done ⟨⟩), List.append_nil]

theorem files_of_stopped_after_one_append :
    let answer : Answer := ⟨⟨126, 9, 12, 8⟩, ⟨126, 9, 12, 8⟩, ⟨126, 9, 12, 8⟩, true, some 1⟩
    let s := (threads "log" ⟨126, 9, 12, 8⟩ ⟨126, 9, 12, 8⟩ fun _ => []).after
      (create "log" ⟨126, 9, 12, 8⟩ ⟨126, 9, 12, 8⟩ fun _ => [])
      ([.start, .setRunning, .append (some [7, 7])] ++ List.replicate 4 (.next answer) ++ [.stop] ++
        List.replicate 10 (.next answer) ++ [.joined])
    s.accepted = [[7, 7]] ∧ ∃ filed, s.accepted = filed.map Prod.snd ∧
      ∀ file, s.files file = [] ++ contents filed file :=
  ⟨by decide +kernel,
    files_of_stopped (.after (.init rfl) (by decide +kernel)) (by decide +kernel)
      (by decide +kernel)⟩

/-- A thread that comes to its first test before ends at once, and the message that is accepted
afterwards is in no file when `stop` has returned. -/
theorem lost_of_early_test (answer : Answer) {msg : List UInt8}
    (hroom : msg.length < WriterBuffer.bigBufferSize) :
    let s := (threads filename name stamp files).after (create filename name stamp files)
      [.start, .next answer, .next answer, .next answer, .setRunning, .append (some msg), .stop,
        .joined]
    s.control = .idle ∧ s.writer.running = false ∧ s.accepted = [msg] ∧ s.files = files := by
  have happend :
      FileWriter.append
          { create filename name stamp files with
            writer := { writeFile := .create filename name stamp, running := true }
            pc := .ended } (some msg) =
        .ok { create filename name stamp files with
          writer := { writeFile := .create filename name stamp, running := true
                      writeBuf := (WriterBuffer.create).put msg }
          pc := .ended
          accepted := [msg] } := by
    unfold FileWriter.append
    exact if_pos (c := (WriterBuffer.create).remain > msg.length) hroom
  rw [System.after_cons rfl, System.after_cons rfl, System.after_cons rfl, System.after_cons rfl,
    System.after_cons rfl, System.after_cons happend]
  exact ⟨rfl, rfl, rfl, rfl⟩

end Drained

section Returns

/-- What can happen while a call of `stop` waits: the thread goes on, the files can be opened and
are written to, and others append or stop in vain. -/
def GoesOn (_ : Threads) : Act → Prop
  | .next answer => answer.opened = true ∧ ∃ wrote, answer.wrote = some wrote ∧ 0 < wrote
  | .append _ | .stop => True
  | .start | .setRunning | .joined => False

instance (s : Threads) (act : Act) : Decidable (GoesOn s act) :=
  match act with
  | .next answer =>
      decidable_of_iff (answer.opened = true ∧ 0 < answer.wrote.getD 0) (by
        rw [GoesOn]
        cases answer.wrote <;> simp)
  | .append _ | .stop => .isTrue trivial
  | .start | .setRunning | .joined => .isFalse not_false

def isNext : Act → Bool
  | .next _ => true
  | _ => false

/-- A bound for the steps the thread has left, with so many bytes in either buffer. -/
def workAt (read write : Nat) : Pc → Nat
  | .none | .ended => 0
  | .testRunning => 3 + 7 * read + 14 * write
  | .testRead => 2 + 7 * read + 14 * write
  | .testWrite => 1 + 7 * read + 14 * write
  | .turn => if read = 0 ∧ write = 0 then 6 else 7 * read + 14 * write
  | .swap => 5 + 7 * write
  | .wait => 4 + 7 * read + 14 * write
  | .append => 5 + read + 14 * write
  | .write done => 4 + (read - done) + 14 * write

def work (s : Threads) : Nat :=
  workAt s.writer.readBuf.data.length s.writer.writeBuf.data.length s.pc

theorem work_le (s : Threads) :
    work s ≤ 14 * (s.writer.readBuf.data.length + s.writer.writeBuf.data.length) + 6 := by
  rw [work]
  cases s.pc with
  | turn =>
      rw [workAt]
      split_ifs <;> omega
  | _ =>
      simp only [workAt]
      omega

theorem ended_of_work_eq_zero {read write : Nat} {pc : Pc} (h : workAt read write pc = 0)
    (hsome : pc ≠ .none) : pc = .ended := by
  cases pc with
  | none => exact absurd rfl hsome
  | ended => rfl
  | turn =>
      rw [workAt] at h
      split_ifs at h
      omega
  | _ =>
      simp only [workAt] at h
      omega

theorem exists_next (hcontrol : s.control ≠ .starting) (hsome : s.pc ≠ .none) {answer : Answer}
    (hanswer : GoesOn s (.next answer)) (hpc : s.pc ≠ .ended) : ∃ s', next s answer = .ok s' := by
  obtain ⟨hopened, wrote, hwrote, -⟩ := hanswer
  unfold FileWriter.next
  cases h : s.pc with
  | none => exact absurd h hsome
  | ended => exact absurd h hpc
  | swap =>
      dsimp only
      rw [if_neg hcontrol]
      split_ifs <;> exact ⟨_, rfl⟩
  | append =>
      dsimp only
      rw [if_pos hopened]
      split_ifs <;> exact ⟨_, rfl⟩
  | write done =>
      dsimp only
      rw [hwrote]
      split_ifs <;> exact ⟨_, rfl⟩
  | _ => exact ⟨_, rfl⟩

theorem work_move {w : FileWriter} (hrunning : w.running = false) {pc pc' : Pc}
    (hswap : pc = .swap → w.readBuf.data = []) (hmove : Move w pc pc') :
    workAt w.readBuf.data.length w.writeBuf.data.length pc' <
      workAt w.readBuf.data.length w.writeBuf.data.length pc := by
  cases hmove with
  | running htrue => cases hrunning.symm.trans htrue
  | readLeft hread =>
      have hlength := List.length_pos_iff.mpr hread
      rw [workAt, workAt, if_neg (by omega)]
      omega
  | writeLeft hwrite =>
      have hlength := List.length_pos_iff.mpr hwrite
      rw [workAt, workAt, if_neg (by omega)]
      omega
  | toSwap hread =>
      rw [workAt, workAt, hread, List.length_nil]
      split_ifs <;> omega
  | toAppend hread =>
      have hlength := List.length_pos_iff.mpr hread
      rw [workAt, workAt, if_neg (by omega)]
      omega
  | noSwap hwrite =>
      rw [workAt, workAt, hwrite, hswap rfl, List.length_nil]
      omega
  | _ =>
      simp only [workAt]
      omega

theorem work_step {p : Places} (h : Holds files s p) (hcontrol : s.control = .joining)
    {answer : Answer} (hanswer : GoesOn s (.next answer)) (hstep : Step s (.next answer) s') :
    work s' < work s ∧ s'.control = .joining := by
  have hrunning := h.running_eq (by rw [hcontrol]; rintro ⟨⟩)
  cases hstep with
  | rejected hact => exact absurd rfl (hact answer)
  | moved hmove => exact ⟨work_move hrunning h.swap_eq hmove, hcontrol⟩
  | swap hpc hwrite =>
      have hlength := List.length_pos_iff.mpr hwrite
      refine ⟨?_, hcontrol⟩
      simp only [work, workAt, hpc, h.swap_eq hpc, List.length_nil]
      omega
  | append hpc f =>
      refine ⟨?_, hcontrol⟩
      simp only [work, workAt, hpc]
      omega
  | @write _ done hpc hmore wrote hwrote =>
      obtain ⟨-, wrote', hwrote', hpos⟩ := hanswer
      obtain rfl := Option.some.inj (hwrote.symm.trans hwrote')
      refine ⟨?_, hcontrol⟩
      simp only [work, workAt, hpc, List.length_take, List.length_drop]
      omega
  | reset hpc hall =>
      refine ⟨?_, hcontrol⟩
      simp only [work, workAt, hpc, WriterBuffer.reset, List.length_nil]
      omega

theorem of_joining {p : Places} (h : Holds files s p) (hcontrol : s.control = .joining) :
    s.pc ≠ .none ∧ s.writer.running = false ∧ s.control ≠ .starting := by
  refine ⟨?_, h.running_eq (by rw [hcontrol]; rintro ⟨⟩), by rw [hcontrol]; rintro ⟨⟩⟩
  intro hnone
  have hidle := (h.none_iff.mp hnone).1
  rw [hcontrol] at hidle
  cases hidle

theorem ended_of_work {p : Places} (h : Holds files s p) (hcontrol : s.control = .joining)
    {acts : List Act} (hfits : (threads filename name stamp files).Fits GoesOn s acts)
    (hturns : work s ≤ acts.countP isNext) :
    ((threads filename name stamp files).after s acts).pc = .ended := by
  induction acts generalizing s p with
  | nil => exact ended_of_work_eq_zero (Nat.le_zero.mp hturns) (of_joining h hcontrol).1
  | cons act acts ih =>
      obtain ⟨hsome, hrunning, hfree⟩ := of_joining h hcontrol
      obtain ⟨-, hgoes, hrest⟩ := hfits
      cases act with
      | append msg =>
          have hstep : (threads filename name stamp files).step s (.append msg) = .ok s := by
            simp only [threads]
            unfold FileWriter.append
            rw [if_neg hfree, hrunning]
            cases msg <;> rfl
          rw [hstep] at hrest
          rw [System.after_cons hstep]
          exact ih h hcontrol hrest hturns
      | stop =>
          have hstep : (threads filename name stamp files).step s .stop = .ok s := by
            simp only [threads]
            unfold FileWriter.stop
            rw [if_neg hfree, hrunning]
            rfl
          rw [hstep] at hrest
          rw [System.after_cons hstep]
          exact ih h hcontrol hrest hturns
      | start => exact hgoes.elim
      | setRunning => exact hgoes.elim
      | joined => exact hgoes.elim
      | next answer =>
          rcases eq_or_ne s.pc .ended with hended | hpc
          · have hstep : (threads filename name stamp files).step s (.next answer) =
                .error .notNow := by
              simp only [threads]
              unfold FileWriter.next
              rw [hended]
            rw [System.after, hstep]
            exact hended
          · obtain ⟨s', hnext⟩ := exists_next hfree hsome hgoes hpc
            have hstep : (threads filename name stamp files).step s (.next answer) = .ok s' := hnext
            have hcases := step_cases hstep
            obtain ⟨p', hp'⟩ := h.step hcases
            obtain ⟨hlt, hcontrol'⟩ := work_step h hcontrol hgoes hcases
            rw [hstep] at hrest
            rw [System.after_cons hstep]
            apply ih hp' hcontrol' hrest
            rw [List.countP_cons_of_pos rfl] at hturns
            omega

/-- A call of `stop` returns: the thread has no more than so many steps to go, whatever the
others do. -/
theorem ended_of_stop {C : Threads → Act → Prop}
    (h : (threads filename name stamp files).Reaches C s) (hcontrol : s.control = .joining)
    {acts : List Act} (hfits : (threads filename name stamp files).Fits GoesOn s acts)
    (hturns : 14 * (s.writer.readBuf.data.length + s.writer.writeBuf.data.length) + 6 ≤
      acts.countP isNext) :
    ((threads filename name stamp files).after s acts).pc = .ended := by
  obtain ⟨p, hp⟩ := exists_holds h
  exact ended_of_work hp hcontrol hfits (Nat.le_trans (work_le s) hturns)

theorem ended_of_stop_with_two_bytes :
    let answer : Answer := ⟨⟨126, 9, 12, 8⟩, ⟨126, 9, 12, 8⟩, ⟨126, 9, 12, 8⟩, true, some 1⟩
    let s := (threads "log" ⟨126, 9, 12, 8⟩ ⟨126, 9, 12, 8⟩ fun _ => []).after
      (create "log" ⟨126, 9, 12, 8⟩ ⟨126, 9, 12, 8⟩ fun _ => [])
      [.start, .setRunning, .append (some [7, 7]), .next answer, .stop]
    ((threads "log" ⟨126, 9, 12, 8⟩ ⟨126, 9, 12, 8⟩ fun _ => []).after s
      (List.replicate 34 (.next answer))).pc = .ended :=
  ended_of_stop (C := fun _ _ => True)
    (.after (.init rfl) (System.fits_of_forall (fun _ _ => ⟨trivial, trivial⟩) _ _))
    (by decide +kernel) (by decide +kernel) (by decide +kernel)

end Returns

end FileWriter

end CasualGame.Componet
