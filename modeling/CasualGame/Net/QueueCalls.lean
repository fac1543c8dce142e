import CasualGame.Componet.CircularQueue
import CasualGame.Componet.LockFreeCircularQueueSPSC
import CasualGame.Net.CircularQueue

/-!
The ring in whole calls. They are those of the ring of two threads when nobody comes in
between, and they come to what the calls of a bounded list come to.
-/

namespace CasualGame.Net.CircularQueue

open Componet
open Componet.LockFreeCircularQueueSPSC
open Lib.Ring
open Lib.Run

universe u

variable {α : Type u}

section Calls

/-- The calls of the two threads; `t` is what `*t` is before a `pop`. -/
inductive Call (α : Type u)
  | push (item : α)
  | pop (t : α)

def Call.ofBounded : Call α → QueueCall α Unit
  | .push item => .push item
  | .pop t => .popTo t

def call (q : CircularQueue α) : Call α → QueueResult α Unit × CircularQueue α
  | .push item => (.pushed (q.push item).1, (q.push item).2)
  | .pop t => (.poppedTo q.pop.1.isSome (q.pop.1.getD t), q.pop.2)

def run (q : CircularQueue α) : List (Call α) → List (QueueResult α Unit)
  | [] => []
  | c :: calls => (q.call c).1 :: (q.call c).2.run calls

variable [Inhabited α]

/-- The ring of two threads after a call that nobody comes in between. -/
def alone (s : TwoThreads α) : Call α → TwoThreads α
  | .push item => (twoThreads 0).after s (.push item :: List.replicate 5 .producer)
  | .pop _ => (twoThreads 0).after s (.pop :: List.replicate 6 .consumer)

def answer (s : TwoThreads α) : Call α → Option (QueueResult α Unit)
  | .push _ =>
      match s.producer with
      | .returned ok => some (.pushed ok)
      | _ => none
  | .pop t =>
      match s.consumer with
      | .returned item => some (.poppedTo item.isSome (item.getD t))
      | _ => none

def runAlone (s : TwoThreads α) : List (Call α) → List (Option (QueueResult α Unit))
  | [] => []
  | c :: calls => answer (alone s c) c :: runAlone (alone s c) calls

end Calls

section Bounded

variable {q : CircularQueue α} {items : List α}

theorem Holds.call (h : q.Holds items) (c : Call α) :
    (q.call c).1 = (BoundedList.call q.maxSize items c.ofBounded).1 ∧
      (q.call c).2.Holds (BoundedList.call q.maxSize items c.ofBounded).2 ∧
      (q.call c).2.maxSize = q.maxSize := by
  cases c with
  | push item =>
      rw [Call.ofBounded, BoundedList.call]
      rcases Nat.lt_or_ge items.length q.maxSize with hroom | hall
      · obtain ⟨hok, hholds⟩ := h.push_of_lt hroom item
        rw [if_pos hroom]
        exact ⟨congrArg _ hok, hholds, maxSize_push q item⟩
      · have hpush := h.push_of_full (Nat.le_antisymm h.fits hall) item
        rw [if_neg (Nat.not_lt.mpr hall), CircularQueue.call, hpush]
        exact ⟨rfl, h, rfl⟩
  | pop t =>
      cases items with
      | nil =>
          rw [CircularQueue.call, h.pop_nil]
          exact ⟨rfl, h, rfl⟩
      | cons oldest items =>
          obtain ⟨hsome, hholds⟩ := h.pop_cons
          refine ⟨?_, hholds, maxSize_pop q⟩
          rw [CircularQueue.call, hsome]
          rfl

theorem Holds.run (h : q.Holds items) (calls : List (Call α)) :
    q.run calls = (BoundedList.run q.maxSize items (calls.map Call.ofBounded)).map Prod.fst := by
  induction calls generalizing q items with
  | nil => rfl
  | cons c calls ih =>
      obtain ⟨hresult, hholds, hsize⟩ := h.call c
      rw [CircularQueue.run, ih hholds, hsize, hresult]
      rfl

end Bounded

section Steps

variable [Inhabited α] {s : TwoThreads α} {item : α}

theorem alone_push_full (hrests : s.producer = .idle ∨ ∃ ok, s.producer = .returned ok)
    (hfull : s.queue.status (s.queue.realPos s.queue.endPos).toNat = .full) :
    alone s (.push item) = { s with producer := .returned false } := by
  have hcall : callPush item s = .ok { s with producer := .loadEnd item } := by
    rw [callPush]
    rcases hrests with hp | ⟨ok, hp⟩ <;> rw [hp]
  rw [alone, System.after_cons hcall]
  simp [List.replicate, System.after, twoThreads, LockFreeCircularQueueSPSC.push, hfull]

theorem alone_push_empty (hrests : s.producer = .idle ∨ ∃ ok, s.producer = .returned ok)
    {pos : UInt64} (hpos : s.queue.realPos s.queue.endPos = pos)
    (hempty : s.queue.status pos.toNat = .empty) :
    alone s (.push item) = { s with
      queue := ({ s.queue with endPos := s.queue.endPos + 1 }.writeItem pos item).storeStatus
        pos .full
      producer := .returned true
      published := s.published ++ [item] } := by
  have hcall : callPush item s = .ok { s with producer := .loadEnd item } := by
    rw [callPush]
    rcases hrests with hp | ⟨ok, hp⟩ <;> rw [hp]
  rw [alone, System.after_cons hcall]
  simp [List.replicate, System.after, twoThreads, LockFreeCircularQueueSPSC.push, hpos, hempty]

theorem alone_pop_empty {t : α} (hrests : s.consumer = .idle ∨ ∃ item, s.consumer = .returned item)
    (hempty : s.queue.status (s.queue.realPos s.queue.beginPos).toNat = .empty) :
    alone s (.pop t) = { s with consumer := .returned none } := by
  have hcall : callPop s = .ok { s with consumer := .loadBegin } := by
    rw [callPop]
    rcases hrests with hc | ⟨ok, hc⟩ <;> rw [hc]
  rw [alone, System.after_cons hcall]
  simp [List.replicate, System.after, twoThreads, LockFreeCircularQueueSPSC.pop, hempty]

theorem alone_pop_full {t : α} (hrests : s.consumer = .idle ∨ ∃ item, s.consumer = .returned item)
    {pos : UInt64} (hpos : s.queue.realPos s.queue.beginPos = pos)
    (hfull : s.queue.status pos.toNat = .full) :
    alone s (.pop t) = { s with
      queue := ({ s.queue with beginPos := s.queue.beginPos + 1 }.writeItem pos
        default).storeStatus pos .empty
      consumer := .returned (some (s.queue.data pos.toNat))
      delivered := s.delivered ++ [s.queue.data pos.toNat] } := by
  have hcall : callPop s = .ok { s with consumer := .loadBegin } := by
    rw [callPop]
    rcases hrests with hc | ⟨ok, hc⟩ <;> rw [hc]
  rw [alone, System.after_cons hcall]
  simp [List.replicate, System.after, twoThreads, LockFreeCircularQueueSPSC.pop, hpos, hfull]

end Steps

/-- The ring of two threads between its calls, with the same cells. -/
structure Resting (q : CircularQueue α) (s : TwoThreads α) : Prop where
  pow : ∃ k ≤ 24, q.maxSize = 2 ^ k
  maxSize_eq : s.queue.maxSize.toNat = q.maxSize
  beginPos_eq : s.queue.beginPos = UInt64.ofNat q.beginPos
  endPos_eq : s.queue.endPos = UInt64.ofNat q.endPos
  cells_eq : ∀ c < q.maxSize, (q.cells[c]?).join =
    if s.queue.status c = .full then some (s.queue.data c) else none
  producer_rests : s.producer = .idle ∨ ∃ ok, s.producer = .returned ok
  consumer_rests : s.consumer = .idle ∨ ∃ item, s.consumer = .returned item

namespace Resting

variable {q : CircularQueue α} {s : TwoThreads α}

theorem realPos_eq (h : q.Resting s) (pos : Nat) :
    (s.queue.realPos (UInt64.ofNat pos)).toNat = q.realPos pos := by
  obtain ⟨k, hsmall, hsize⟩ := h.pow
  rw [realPos_ofNat hsmall (h.maxSize_eq.trans hsize), CircularQueue.realPos, hsize,
    Nat.and_two_pow_sub_one_eq_mod]

theorem realPos_lt (h : q.Resting s) (pos : Nat) : q.realPos pos < q.maxSize := by
  obtain ⟨k, -, hsize⟩ := h.pow
  rw [CircularQueue.realPos, hsize, Nat.and_two_pow_sub_one_eq_mod]
  exact Nat.mod_lt _ (Nat.two_pow_pos k)

theorem cell_eq (h : q.Resting s) (pos : Nat) : q.cell pos =
    if s.queue.status (q.realPos pos) = .full then some (s.queue.data (q.realPos pos))
    else none :=
  h.cells_eq _ (h.realPos_lt pos)

theorem create [Inhabited α] (powArg : UInt32) :
    (CircularQueue.create powArg.toNat : CircularQueue α).Resting
      (LockFreeCircularQueueSPSC.create powArg) where
  pow := by
    rw [maxSize_create]
    split_ifs with hsmall
    · exact ⟨_, hsmall.le, rfl⟩
    · exact ⟨24, Nat.le_refl _, rfl⟩
  maxSize_eq := by
    rw [maxSize_create]
    refine (Inv.toNat_maxSizeOf powArg).trans (congrArg (2 ^ ·) ?_)
    split_ifs <;> omega
  beginPos_eq := rfl
  endPos_eq := rfl
  cells_eq c _ := by
    have hempty : (LockFreeCircularQueueSPSC.create powArg : TwoThreads α).queue.status c ≠
        .full := Status.noConfusion
    rw [if_neg hempty, CircularQueue.create, List.getElem?_replicate]
    split_ifs <;> rfl
  producer_rests := .inl rfl
  consumer_rests := .inl rfl

theorem cells_stored (h : q.Resting s) {ring : LockFreeCircularQueueSPSC α}
    (hstatus : ring.status = s.queue.status) (hdata : ring.data = s.queue.data) {pos : UInt64}
    {place : Nat} (hpos : pos.toNat = q.realPos place) (item : α) (status : Status) {c : Nat}
    (hc : c < q.maxSize) :
    ((q.cells.set (q.realPos place) (if status = .full then some item else none))[c]?).join =
      if ((ring.writeItem pos item).storeStatus pos status).status c = .full then
        some (((ring.writeItem pos item).storeStatus pos status).data c)
      else none := by
  have hlt : q.realPos place < q.cells.length := h.realPos_lt place
  rw [List.getElem?_set, if_pos hlt]
  rcases eq_or_ne (q.realPos place) c with rfl | hne
  · rw [if_pos rfl, storeStatus_status hpos]
    exact congrArg (fun t => if status = .full then some t else none) (writeItem_data hpos).symm
  · have hother : pos.toNat ≠ c := hpos.trans_ne hne
    have hsame : (ring.writeItem pos item).data c = s.queue.data c :=
      (writeItem_data_of_ne hother).trans (congrFun hdata c)
    rw [if_neg hne, storeStatus_status_of_ne hother, h.cells_eq c hc]
    change _ = if ring.status c = .full then some ((ring.writeItem pos item).data c) else none
    rw [hstatus, hsame]

variable [Inhabited α]

theorem push (h : q.Resting s) (item : α) :
    answer (alone s (.push item)) (.push item) = some (q.call (.push item)).1 ∧
      (q.call (.push item)).2.Resting (alone s (.push item)) := by
  have hcell := h.cell_eq q.endPos
  have hpos : (s.queue.realPos s.queue.endPos).toNat = q.realPos q.endPos := by
    rw [h.endPos_eq, h.realPos_eq]
  rw [CircularQueue.call, CircularQueue.push]
  cases hstatus : s.queue.status (q.realPos q.endPos) with
  | full =>
      rw [hstatus, if_pos rfl] at hcell
      rw [hcell, alone_push_full h.producer_rests (hpos ▸ hstatus)]
      exact ⟨rfl, { h with producer_rests := .inr ⟨false, rfl⟩ }⟩
  | empty =>
      rw [hstatus, if_neg Status.noConfusion] at hcell
      rw [hcell, alone_push_empty h.producer_rests rfl (hpos ▸ hstatus)]
      have hsize : (q.cells.set (q.realPos q.endPos) (some item)).length = q.maxSize :=
        List.length_set
      refine ⟨rfl, ?_, ?_, h.beginPos_eq, ?_, fun c hc => ?_, .inr ⟨true, rfl⟩,
        h.consumer_rests⟩
      · rw [maxSize, hsize]
        exact h.pow
      · rw [maxSize, hsize]
        exact h.maxSize_eq
      · exact (congrArg (· + 1) h.endPos_eq).trans (UInt64.ofNat_add _ 1).symm
      · rw [maxSize, hsize] at hc
        exact h.cells_stored rfl rfl hpos item .full hc

theorem pop (h : q.Resting s) (t : α) :
    answer (alone s (.pop t)) (.pop t) = some (q.call (.pop t)).1 ∧
      (q.call (.pop t)).2.Resting (alone s (.pop t)) := by
  have hcell := h.cell_eq q.beginPos
  have hpos : (s.queue.realPos s.queue.beginPos).toNat = q.realPos q.beginPos := by
    rw [h.beginPos_eq, h.realPos_eq]
  rw [CircularQueue.call, CircularQueue.pop]
  cases hstatus : s.queue.status (q.realPos q.beginPos) with
  | empty =>
      rw [hstatus, if_neg Status.noConfusion] at hcell
      rw [hcell, alone_pop_empty h.consumer_rests (hpos ▸ hstatus)]
      exact ⟨rfl, { h with consumer_rests := .inr ⟨none, rfl⟩ }⟩
  | full =>
      rw [hstatus, if_pos rfl] at hcell
      rw [hcell, alone_pop_full h.consumer_rests rfl (hpos ▸ hstatus)]
      have hsize : (q.cells.set (q.realPos q.beginPos) none).length = q.maxSize :=
        List.length_set
      refine ⟨?_, ?_, ?_, ?_, h.endPos_eq, fun c hc => ?_, h.producer_rests, .inr ⟨_, rfl⟩⟩
      · rw [answer, hpos]
      · rw [maxSize, hsize]
        exact h.pow
      · rw [maxSize, hsize]
        exact h.maxSize_eq
      · exact (congrArg (· + 1) h.beginPos_eq).trans (UInt64.ofNat_add _ 1).symm
      · rw [maxSize, hsize] at hc
        exact h.cells_stored rfl rfl hpos default .empty hc

theorem call (h : q.Resting s) (c : Call α) :
    answer (alone s c) c = some (q.call c).1 ∧ (q.call c).2.Resting (alone s c) := by
  cases c with
  | push item => exact h.push item
  | pop t => exact h.pop t

theorem run (h : q.Resting s) (calls : List (Call α)) :
    runAlone s calls = (q.run calls).map some := by
  induction calls generalizing q s with
  | nil => rfl
  | cons c calls ih =>
      obtain ⟨hanswer, hrests⟩ := h.call c
      rw [runAlone, hanswer, ih hrests]
      rfl

end Resting

/-- The ring, the ring of two threads whose calls do not meet, and the bounded list give the
same answers. -/
theorem run_create [Inhabited α] (powArg : UInt32) (calls : List (Call α)) :
    let q : CircularQueue α := create powArg.toNat
    runAlone (LockFreeCircularQueueSPSC.create powArg) calls = (q.run calls).map some ∧
      q.run calls = (BoundedList.run q.maxSize [] (calls.map Call.ofBounded)).map Prod.fst :=
  ⟨(Resting.create powArg).run calls, (holds_create powArg.toNat).run calls⟩

end CasualGame.Net.CircularQueue
