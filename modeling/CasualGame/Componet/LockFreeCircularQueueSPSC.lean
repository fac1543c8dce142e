import Mathlib.Data.List.Basic
import Mathlib.Data.Option.Basic
import CasualGame.Lib.Ring
import CasualGame.Lib.Run

/-!
The queue of one producer and one consumer, whose memory accesses come in any order.
-/

namespace CasualGame.Componet

open Lib.Ring Lib.Run

universe u

inductive LockFreeCircularQueueSPSC.Status
  | empty
  | full
  deriving DecidableEq

/-- The vector of cells, as the status and the item of every one of them. -/
structure LockFreeCircularQueueSPSC (α : Type u) where
  beginPos : UInt64 := 0
  endPos : UInt64 := 0
  maxSize : UInt64
  status : Nat → LockFreeCircularQueueSPSC.Status := fun _ => .empty
  data : Nat → α

namespace LockFreeCircularQueueSPSC

variable {α : Type u}

section Code

/-- Where the producer stands in `push`. Every step but the call and the return is named
after its access to the memory; `i` is the number of the try. -/
inductive Producer (α : Type u)
  | idle
  | loadEnd (item : α)
  | loadStatus (item : α) (pos : UInt64) (i : Nat)
  | advance (item : α) (pos : UInt64)
  | write (item : α) (pos : UInt64)
  | store (item : α) (pos : UInt64)
  | returned (result : Bool)
  deriving DecidableEq

/-- Where the consumer stands in `pop`; `item` is what `*t` has become. -/
inductive Consumer (α : Type u)
  | idle
  | loadBegin
  | loadStatus (pos : UInt64) (i : Nat)
  | advance (pos : UInt64)
  | read (pos : UInt64)
  | reset (pos : UInt64) (item : α)
  | store (pos : UInt64) (item : α)
  | returned (result : Option α)
  deriving DecidableEq

/-- The queue and its two threads, with the items whose push has stored `full` and the items
that pops have read. -/
structure TwoThreads (α : Type u) where
  queue : LockFreeCircularQueueSPSC α
  producer : Producer α := .idle
  consumer : Consumer α := .idle
  published : List α := []
  delivered : List α := []

def maxSizeOf (powArg : UInt32) : UInt64 :=
  ((1 : UInt32) <<< (if powArg < 24 then powArg else 24)).toUInt64

def realPos (q : LockFreeCircularQueueSPSC α) (pos : UInt64) : UInt64 := pos &&& (q.maxSize - 1)

def empty (q : LockFreeCircularQueueSPSC α) : Bool :=
  q.status (q.realPos q.beginPos).toNat == .empty

def full (q : LockFreeCircularQueueSPSC α) : Bool :=
  q.status (q.realPos q.endPos).toNat == .full

/-- `m_data[pos].status.store(status)` -/
def storeStatus (q : LockFreeCircularQueueSPSC α) (pos : UInt64) (status : Status) :
    LockFreeCircularQueueSPSC α :=
  { q with status := Function.update q.status pos.toNat status }

/-- `m_data[pos].t = item` -/
def writeItem (q : LockFreeCircularQueueSPSC α) (pos : UInt64) (item : α) :
    LockFreeCircularQueueSPSC α :=
  { q with data := Function.update q.data pos.toNat item }

variable [Inhabited α]

def create (powArg : UInt32) : TwoThreads α where
  queue := { maxSize := maxSizeOf powArg, data := fun _ => default }

inductive Act (α : Type u)
  | push (item : α)
  | pop
  /-- The next step of the `push` or of the `pop` that is going on. -/
  | producer
  | consumer

/-- There is no call to go on with, or one is going on already. -/
inductive Refusal
  | notNow

open Refusal

def callPush (item : α) (s : TwoThreads α) : Except Refusal (TwoThreads α) :=
  match s.producer with
  | .idle | .returned _ => .ok { s with producer := .loadEnd item }
  | _ => .error notNow

def callPop (s : TwoThreads α) : Except Refusal (TwoThreads α) :=
  match s.consumer with
  | .idle | .returned _ => .ok { s with consumer := .loadBegin }
  | _ => .error notNow

def push (s : TwoThreads α) : Except Refusal (TwoThreads α) :=
  let q := s.queue
  match s.producer with
  | .idle | .returned _ => .error notNow
  | .loadEnd item => .ok { s with producer := .loadStatus item (q.realPos q.endPos) 1 }
  | .loadStatus item pos i =>
      if q.status pos.toNat = .empty then .ok { s with producer := .advance item pos }
      else if i + 1 = 3 then .ok { s with producer := .returned false }
      else .ok { s with producer := .loadStatus item pos (i + 1) }
  | .advance item pos =>
      .ok { s with queue := { q with endPos := q.endPos + 1 }, producer := .write item pos }
  | .write item pos =>
      .ok { s with queue := q.writeItem pos item, producer := .store item pos }
  | .store item pos =>
      .ok { s with
        queue := q.storeStatus pos .full
        producer := .returned true
        published := s.published ++ [item] }

def pop (s : TwoThreads α) : Except Refusal (TwoThreads α) :=
  let q := s.queue
  match s.consumer with
  | .idle | .returned _ => .error notNow
  | .loadBegin => .ok { s with consumer := .loadStatus (q.realPos q.beginPos) 1 }
  | .loadStatus pos i =>
      if q.status pos.toNat = .full then .ok { s with consumer := .advance pos }
      else if i = 3 then .ok { s with consumer := .returned none }
      else .ok { s with consumer := .loadStatus pos (i + 1) }
  | .advance pos =>
      .ok { s with queue := { q with beginPos := q.beginPos + 1 }, consumer := .read pos }
  | .read pos =>
      .ok { s with
        consumer := .reset pos (q.data pos.toNat)
        delivered := s.delivered ++ [q.data pos.toNat] }
  | .reset pos item =>
      .ok { s with queue := q.writeItem pos default, consumer := .store pos item }
  | .store pos item =>
      .ok { s with queue := q.storeStatus pos .empty, consumer := .returned (some item) }

/-- One producer and one consumer at the queue, in any order of their steps. -/
def twoThreads (powArg : UInt32) : System (TwoThreads α) (Act α) Refusal where
  Init s := s = create powArg
  Allowed _ _ := True
  step s
    | .push item => callPush item s
    | .pop => callPop s
    | .producer => push s
    | .consumer => pop s

end Code

section Cells

variable {q : LockFreeCircularQueueSPSC α} {pos : UInt64} {c : Nat} {status : Status} {item : α}

theorem storeStatus_status (hc : pos.toNat = c) :
    (q.storeStatus pos status).status c = status := by
  rw [storeStatus, ← hc]
  exact Function.update_self ..

theorem storeStatus_status_of_ne (hc : pos.toNat ≠ c) :
    (q.storeStatus pos status).status c = q.status c :=
  Function.update_of_ne hc.symm _ _

theorem writeItem_data (hc : pos.toNat = c) : (q.writeItem pos item).data c = item := by
  rw [writeItem, ← hc]
  exact Function.update_self ..

theorem writeItem_data_of_ne (hc : pos.toNat ≠ c) : (q.writeItem pos item).data c = q.data c :=
  Function.update_of_ne hc.symm _ _

theorem realPos_ofNat {k : Nat} (hsmall : k ≤ 24) (hmax : q.maxSize.toNat = 2 ^ k) (j : Nat) :
    (q.realPos (UInt64.ofNat j)).toNat = j % 2 ^ k := by
  rw [realPos, UInt64.toNat_and, UInt64.toNat_sub_of_le, hmax, UInt64.toNat_ofNat',
    UInt64.toNat_one, wrapped_and_mask (by omega)]
  rw [UInt64.le_iff_toNat_le, hmax, UInt64.toNat_one]
  exact Nat.one_le_two_pow

end Cells

section Statement

/-- What is seen of the calls: the item of the last push, the items of the pushes that have
returned `true`, and what the pops have returned. -/
structure Calls (α : Type u) where
  item : Option α := none
  pushed : List α := []
  popped : List α := []

def note (_ : TwoThreads α) (a : Act α) (s' : TwoThreads α) (calls : Calls α) : Calls α :=
  match a with
  | .push item => { calls with item := some item }
  | .pop => calls
  | .producer =>
      match s'.producer with
      | .returned true => { calls with pushed := calls.pushed ++ calls.item.toList }
      | _ => calls
  | .consumer =>
      match s'.consumer with
      | .returned (some item) => { calls with popped := calls.popped ++ [item] }
      | _ => calls

/-- The item of a pop that has read it and not returned. -/
def Consumer.carried : Consumer α → List α
  | .reset _ item | .store _ item => [item]
  | _ => []

end Statement

/-- The item of a pop that has moved `m_begin` and is about to read. -/
def Consumer.inFlight (q : LockFreeCircularQueueSPSC α) : Consumer α → List α
  | .read pos => [q.data pos.toNat]
  | _ => []

namespace TwoThreads

variable (s : TwoThreads α)

def popped : List α := s.delivered ++ s.consumer.inFlight s.queue

/-- The items in the full cells from `m_begin` up to `m_end`. -/
def inFullCells : List α :=
  (List.range (s.queue.endPos - s.queue.beginPos).toNat).filterMap fun n =>
    let pos := (s.queue.realPos (s.queue.beginPos + UInt64.ofNat n)).toNat
    if s.queue.status pos = .full then some (s.queue.data pos) else none

/-- The producer is about to write the item of a cell that the consumer is about to read or
to reset. -/
def Racing : Prop :=
  ∃ item pos, s.producer = .write item pos ∧
    (s.consumer = .read pos ∨ ∃ item', s.consumer = .reset pos item')

end TwoThreads

namespace Producer

/-- The places between `m_end` and the last one with an item that has been published. -/
def claimed : Producer α → Nat
  | .write _ _ | .store _ _ => 1
  | _ => 0

/-- What the producer knows, when `c` items have been published. -/
def At (q : LockFreeCircularQueueSPSC α) (n c : Nat) : Producer α → Prop
  | .idle | .loadEnd _ | .returned _ => True
  | .loadStatus _ pos _ => pos.toNat = c % n
  | .advance _ pos | .write _ pos => pos.toNat = c % n ∧ q.status (c % n) ≠ .full
  | .store item pos => pos.toNat = c % n ∧ q.status (c % n) ≠ .full ∧ q.data (c % n) = item

theorem At.mono {p : Producer α} {q q' : LockFreeCircularQueueSPSC α} {n c : Nat}
    (h : p.At q n c)
    (hstays : q.status (c % n) ≠ .full →
      q'.status (c % n) ≠ .full ∧ q'.data (c % n) = q.data (c % n)) : p.At q' n c := by
  cases p with
  | idle | loadEnd | returned => trivial
  | loadStatus => exact h
  | advance | write => exact ⟨h.1, (hstays h.2).1⟩
  | store => exact ⟨h.1, (hstays h.2.1).1, (hstays h.2.1).2.trans h.2.2⟩

end Producer

namespace Consumer

/-- The places that `m_begin` has left and whose cells have not been given back. -/
def leaving : Consumer α → Nat
  | .read _ | .reset _ _ | .store _ _ => 1
  | _ => 0

/-- What the consumer knows, when `r` cells have been given back. -/
def At (q : LockFreeCircularQueueSPSC α) (n r : Nat) : Consumer α → Prop
  | .idle | .loadBegin | .returned _ => True
  | .loadStatus pos _ => pos.toNat = r % n
  | .advance pos | .read pos | .reset pos _ | .store pos _ =>
      pos.toNat = r % n ∧ q.status (r % n) = .full

theorem At.mono {c : Consumer α} {q q' : LockFreeCircularQueueSPSC α} {n r : Nat} (h : c.At q n r)
    (hstays : q.status (r % n) = .full → q'.status (r % n) = .full) : c.At q' n r := by
  cases c with
  | idle | loadBegin | returned => trivial
  | loadStatus => exact h
  | advance | read | reset | store => exact ⟨h.1, hstays h.2⟩

end Consumer

/-- The ring of `2 ^ k` cells when `r` of them have been given back in all. -/
structure Inv (k r : Nat) (s : TwoThreads α) : Prop where
  small : k ≤ 24
  maxSize_eq : s.queue.maxSize.toNat = 2 ^ k
  left_eq : r + s.consumer.leaving = s.popped.length
  beginPos_eq : s.queue.beginPos = UInt64.ofNat s.popped.length
  endPos_eq : s.queue.endPos = UInt64.ofNat (s.published.length + s.producer.claimed)
  marked : Marked (2 ^ k) (fun c => s.queue.status c = .full) r s.published.length
  popped_eq : s.popped = s.published.take s.popped.length
  data_eq : ∀ j, s.popped.length ≤ j → j < s.published.length →
    s.published[j]? = some (s.queue.data (j % 2 ^ k))
  producer_at : s.producer.At s.queue (2 ^ k) s.published.length
  consumer_at : s.consumer.At s.queue (2 ^ k) r

namespace Inv

variable {k r : Nat} {s : TwoThreads α}

theorem realPos_eq (h : Inv k r s) (j : Nat) :
    (s.queue.realPos (UInt64.ofNat j)).toNat = j % 2 ^ k :=
  realPos_ofNat h.small h.maxSize_eq j

theorem length_popped_le (h : Inv k r s) : s.popped.length ≤ s.published.length := by
  have hlength := congrArg List.length h.popped_eq
  rw [List.length_take] at hlength
  omega

theorem length_published_lt (h : Inv k r s)
    (hfree : s.queue.status (s.published.length % 2 ^ k) ≠ .full) :
    s.published.length < r + 2 ^ k :=
  h.marked.lt_room (Nat.two_pow_pos k) hfree

theorem length_popped (h : Inv k r s) (hleaving : s.consumer.leaving = 0) :
    s.popped.length = r := by
  rw [← h.left_eq, hleaving, Nat.add_zero]

theorem setProducer (h : Inv k r s) (p : Producer α) (hclaimed : p.claimed = s.producer.claimed)
    (hat : p.At s.queue (2 ^ k) s.published.length) : Inv k r { s with producer := p } where
  small := h.small
  maxSize_eq := h.maxSize_eq
  left_eq := h.left_eq
  beginPos_eq := h.beginPos_eq
  endPos_eq := by
    rw [hclaimed]
    exact h.endPos_eq
  marked := h.marked
  popped_eq := h.popped_eq
  data_eq := h.data_eq
  producer_at := hat
  consumer_at := h.consumer_at

theorem setConsumer (h : Inv k r s) (c : Consumer α) (delivered : List α)
    (hpopped : delivered ++ c.inFlight s.queue = s.popped)
    (hleaving : c.leaving = s.consumer.leaving) (hat : c.At s.queue (2 ^ k) r) :
    Inv k r { s with consumer := c, delivered := delivered } where
  small := h.small
  maxSize_eq := h.maxSize_eq
  left_eq := by
    rw [TwoThreads.popped, hpopped, hleaving]
    exact h.left_eq
  beginPos_eq := by
    rw [TwoThreads.popped, hpopped]
    exact h.beginPos_eq
  endPos_eq := h.endPos_eq
  marked := h.marked
  popped_eq := by
    rw [TwoThreads.popped, hpopped]
    exact h.popped_eq
  data_eq := by
    rw [TwoThreads.popped, hpopped]
    exact h.data_eq
  producer_at := h.producer_at
  consumer_at := hat

section Producer

variable {item : α} {pos : UInt64}

theorem pushAdvance (h : Inv k r s) (hp : s.producer = .advance item pos) :
    Inv k r { s with
      queue := { s.queue with endPos := s.queue.endPos + 1 }
      producer := .write item pos } where
  small := h.small
  maxSize_eq := h.maxSize_eq
  left_eq := h.left_eq
  beginPos_eq := h.beginPos_eq
  endPos_eq := by
    have hend := h.endPos_eq
    rw [hp] at hend
    exact (congrArg (· + 1) hend).trans (UInt64.ofNat_add _ 1).symm
  marked := h.marked
  popped_eq := h.popped_eq
  data_eq := h.data_eq
  producer_at := by
    have hat := h.producer_at
    rw [hp] at hat
    exact hat
  consumer_at := h.consumer_at

theorem pushWrite (h : Inv k r s) (hp : s.producer = .write item pos) :
    Inv k r { s with queue := s.queue.writeItem pos item, producer := .store item pos } := by
  have hat := h.producer_at
  rw [hp] at hat
  obtain ⟨hpos, hfree⟩ := hat
  have hpopped : { s with
      queue := s.queue.writeItem pos item
      producer := .store item pos : TwoThreads α }.popped = s.popped := by
    have hconsumer := h.consumer_at
    rw [TwoThreads.popped, TwoThreads.popped]
    cases hc : s.consumer with
    | read pos' =>
        rw [hc] at hconsumer
        obtain ⟨hpos', hfull⟩ := hconsumer
        rw [Consumer.inFlight, Consumer.inFlight, writeItem_data_of_ne]
        rw [hpos, hpos']
        exact fun heq => hfree (heq ▸ hfull)
    | _ => rfl
  refine {
    small := h.small, maxSize_eq := h.maxSize_eq, left_eq := ?left_eq,
    beginPos_eq := ?beginPos_eq, endPos_eq := ?endPos_eq, marked := h.marked,
    popped_eq := ?popped_eq, data_eq := ?data_eq,
    producer_at := ⟨hpos, hfree, writeItem_data hpos⟩, consumer_at := h.consumer_at }
  case left_eq =>
    rw [hpopped]
    exact h.left_eq
  case beginPos_eq =>
    rw [hpopped]
    exact h.beginPos_eq
  case endPos_eq =>
    have hend := h.endPos_eq
    rw [hp] at hend
    exact hend
  case popped_eq =>
    rw [hpopped]
    exact h.popped_eq
  case data_eq =>
    rw [hpopped]
    intro j hj hj'
    have hplace := h.length_published_lt hfree
    have hleft := h.left_eq
    rw [h.data_eq j hj hj', writeItem_data_of_ne]
    rw [hpos]
    exact mod_ne h.marked.le hplace (by omega) (by dsimp only at hj'; omega) hj'.ne'

theorem pushStore (h : Inv k r s) (hp : s.producer = .store item pos) :
    Inv k r { s with
      queue := s.queue.storeStatus pos .full
      producer := .returned true
      published := s.published ++ [item] } := by
  have hat := h.producer_at
  rw [hp] at hat
  obtain ⟨hpos, hfree, hitem⟩ := hat
  have hlength : (s.published ++ [item]).length = s.published.length + 1 := List.length_append
  refine {
    small := h.small, maxSize_eq := h.maxSize_eq, left_eq := h.left_eq,
    beginPos_eq := h.beginPos_eq, endPos_eq := ?endPos_eq, marked := ?marked,
    popped_eq := ?popped_eq, data_eq := ?data_eq, producer_at := trivial,
    consumer_at := ?consumer_at }
  case endPos_eq =>
    have hend := h.endPos_eq
    rw [hp] at hend
    rw [hlength]
    exact hend
  case marked =>
    rw [hlength]
    refine h.marked.extend (Nat.two_pow_pos k) hfree (storeStatus_status hpos) fun c hc => ?_
    dsimp only
    rw [storeStatus_status_of_ne (hpos ▸ hc.symm)]
  case popped_eq => exact h.popped_eq.trans (List.take_append_of_le_length h.length_popped_le).symm
  case data_eq =>
    intro j hj hj'
    rw [hlength] at hj'
    rcases Nat.lt_succ_iff_lt_or_eq.mp hj' with hlt | rfl
    · exact (List.getElem?_append_left hlt).trans (h.data_eq j hj hlt)
    · exact List.getElem?_concat_length.trans (congrArg some hitem.symm)
  case consumer_at =>
    refine h.consumer_at.mono fun hfull => ?_
    rcases eq_or_ne pos.toNat (r % 2 ^ k) with hsame | hother
    · exact storeStatus_status hsame
    · exact (storeStatus_status_of_ne hother).trans hfull

end Producer

section Consumer

variable {item : α} {pos : UInt64}

theorem popAdvance (h : Inv k r s) (hc : s.consumer = .advance pos) :
    Inv k r { s with
      queue := { s.queue with beginPos := s.queue.beginPos + 1 }
      consumer := .read pos } := by
  have hat := h.consumer_at
  rw [hc] at hat
  obtain ⟨hpos, hfull⟩ := hat
  have hlength : s.popped.length = r := h.length_popped (by rw [hc]; rfl)
  have hdelivered : s.popped = s.delivered := by
    rw [TwoThreads.popped, hc]
    exact List.append_nil _
  have hlt : r < s.published.length := h.marked.lt (Nat.two_pow_pos k) hfull
  have hpopped : { s with
      queue := { s.queue with beginPos := s.queue.beginPos + 1 }
      consumer := .read pos : TwoThreads α }.popped = s.popped ++ [s.queue.data (r % 2 ^ k)] := by
    rw [hdelivered, ← hpos]
    rfl
  refine {
    small := h.small, maxSize_eq := h.maxSize_eq, left_eq := ?left_eq,
    beginPos_eq := ?beginPos_eq, endPos_eq := h.endPos_eq, marked := h.marked,
    popped_eq := ?popped_eq, data_eq := ?data_eq, producer_at := h.producer_at,
    consumer_at := ⟨hpos, hfull⟩ }
  case left_eq =>
    rw [hpopped, List.length_append, hlength]
    rfl
  case beginPos_eq =>
    rw [hpopped, List.length_append]
    exact (congrArg (· + 1) h.beginPos_eq).trans (UInt64.ofNat_add _ 1).symm
  case popped_eq =>
    rw [hpopped, List.length_append, List.length_singleton, hlength, List.take_add_one,
      h.data_eq r hlength.le hlt, ← hlength, ← h.popped_eq]
    rfl
  case data_eq =>
    rw [hpopped, List.length_append]
    exact fun j hj hj' => h.data_eq j (by omega) hj'

theorem popReset [Inhabited α] (h : Inv k r s) (hc : s.consumer = .reset pos item) :
    Inv k r { s with queue := s.queue.writeItem pos default, consumer := .store pos item } := by
  have hat := h.consumer_at
  rw [hc] at hat
  obtain ⟨hpos, hfull⟩ := hat
  have hpopped : { s with
      queue := s.queue.writeItem pos default
      consumer := .store pos item : TwoThreads α }.popped = s.popped := by
    rw [TwoThreads.popped, TwoThreads.popped, hc]
    rfl
  have hleft := h.left_eq
  rw [hc] at hleft
  refine {
    small := h.small, maxSize_eq := h.maxSize_eq, left_eq := ?left_eq,
    beginPos_eq := ?beginPos_eq, endPos_eq := h.endPos_eq, marked := h.marked,
    popped_eq := ?popped_eq, data_eq := ?data_eq, producer_at := ?producer_at,
    consumer_at := ⟨hpos, hfull⟩ }
  case left_eq =>
    rw [hpopped]
    exact hleft
  case beginPos_eq =>
    rw [hpopped]
    exact h.beginPos_eq
  case popped_eq =>
    rw [hpopped]
    exact h.popped_eq
  case data_eq =>
    rw [hpopped]
    intro j hj hj'
    have hroom := h.marked.room
    have hleft : r + 1 = s.popped.length := hleft
    rw [h.data_eq j hj hj', writeItem_data_of_ne]
    rw [hpos]
    exact mod_ne (Nat.le_refl r) (by omega) (by omega) (by dsimp only at hj'; omega)
      (by omega)
  case producer_at =>
    refine h.producer_at.mono fun hfree => ⟨hfree, writeItem_data_of_ne ?_⟩
    rw [hpos]
    exact fun heq => hfree (heq ▸ hfull)

theorem popStore (h : Inv k r s) (hc : s.consumer = .store pos item) :
    Inv k (r + 1) { s with
      queue := s.queue.storeStatus pos .empty
      consumer := .returned (some item) } := by
  have hat := h.consumer_at
  rw [hc] at hat
  obtain ⟨hpos, hfull⟩ := hat
  have hpopped : { s with
      queue := s.queue.storeStatus pos .empty
      consumer := .returned (some item) : TwoThreads α }.popped = s.popped := by
    rw [TwoThreads.popped, TwoThreads.popped, hc]
    rfl
  have hempty : ∀ c, s.queue.status c ≠ .full →
      (s.queue.storeStatus pos .empty).status c ≠ .full := by
    intro c hfree
    rcases eq_or_ne pos.toNat c with hsame | hother
    · rw [storeStatus_status hsame]
      decide
    · rw [storeStatus_status_of_ne hother]
      exact hfree
  refine {
    small := h.small, maxSize_eq := h.maxSize_eq, left_eq := ?left_eq,
    beginPos_eq := ?beginPos_eq, endPos_eq := h.endPos_eq, marked := ?marked,
    popped_eq := ?popped_eq, data_eq := ?data_eq,
    producer_at := h.producer_at.mono fun hfree => ⟨hempty _ hfree, rfl⟩, consumer_at := trivial }
  case left_eq =>
    rw [hpopped]
    have hleft := h.left_eq
    rw [hc] at hleft
    exact hleft
  case beginPos_eq =>
    rw [hpopped]
    exact h.beginPos_eq
  case marked =>
    refine h.marked.retract (Nat.two_pow_pos k) hfull ?_ fun c hne => ?_
    · dsimp only
      rw [storeStatus_status hpos]
      decide
    · dsimp only
      rw [storeStatus_status_of_ne (hpos ▸ hne.symm)]
  case popped_eq =>
    rw [hpopped]
    exact h.popped_eq
  case data_eq =>
    rw [hpopped]
    exact h.data_eq

end Consumer

section Steps

variable {s' : TwoThreads α}

theorem callPush {item : α} (h : Inv k r s)
    (hs : LockFreeCircularQueueSPSC.callPush item s = .ok s') : Inv k r s' := by
  rw [LockFreeCircularQueueSPSC.callPush] at hs
  cases hp : s.producer with
  | idle | returned =>
      rw [hp] at hs
      obtain rfl := Except.ok.inj hs
      exact h.setProducer _ (by rw [hp]; rfl) trivial
  | _ =>
      rw [hp] at hs
      cases hs

theorem callPop (h : Inv k r s) (hs : LockFreeCircularQueueSPSC.callPop s = .ok s') :
    Inv k r s' := by
  rw [LockFreeCircularQueueSPSC.callPop] at hs
  cases hc : s.consumer with
  | idle | returned =>
      rw [hc] at hs
      obtain rfl := Except.ok.inj hs
      exact h.setConsumer _ _ (by rw [TwoThreads.popped, hc]; rfl) (by rw [hc]; rfl) trivial
  | _ =>
      rw [hc] at hs
      cases hs

theorem push (h : Inv k r s) (hs : LockFreeCircularQueueSPSC.push s = .ok s') : Inv k r s' := by
  have hat := h.producer_at
  rw [LockFreeCircularQueueSPSC.push] at hs
  cases hp : s.producer with
  | idle | returned =>
      rw [hp] at hs
      cases hs
  | loadEnd item =>
      rw [hp] at hs
      obtain rfl := Except.ok.inj hs
      have hend := h.endPos_eq
      rw [hp] at hend
      refine h.setProducer _ (by rw [hp]; rfl) ?_
      exact (congrArg (fun pos => (s.queue.realPos pos).toNat) hend).trans (h.realPos_eq _)
  | loadStatus item pos i =>
      rw [hp] at hs hat
      dsimp only at hs
      split_ifs at hs with hempty hlast
      all_goals obtain rfl := Except.ok.inj hs
      · refine h.setProducer _ (by rw [hp]; rfl) ⟨hat, ?_⟩
        rw [← show pos.toNat = _ from hat, hempty]
        decide
      · exact h.setProducer _ (by rw [hp]; rfl) trivial
      · exact h.setProducer _ (by rw [hp]; rfl) hat
  | advance item pos =>
      rw [hp] at hs
      obtain rfl := Except.ok.inj hs
      exact h.pushAdvance hp
  | write item pos =>
      rw [hp] at hs
      obtain rfl := Except.ok.inj hs
      exact h.pushWrite hp
  | store item pos =>
      rw [hp] at hs
      obtain rfl := Except.ok.inj hs
      exact h.pushStore hp

theorem pop [Inhabited α] (h : Inv k r s) (hs : LockFreeCircularQueueSPSC.pop s = .ok s') :
    ∃ r', Inv k r' s' := by
  have hat := h.consumer_at
  rw [LockFreeCircularQueueSPSC.pop] at hs
  cases hc : s.consumer with
  | idle | returned =>
      rw [hc] at hs
      cases hs
  | loadBegin =>
      rw [hc] at hs
      obtain rfl := Except.ok.inj hs
      refine ⟨r, h.setConsumer _ _ (by rw [TwoThreads.popped, hc]; rfl) (by rw [hc]; rfl) ?_⟩
      have hbegin := h.beginPos_eq
      rw [h.length_popped (by rw [hc]; rfl)] at hbegin
      exact (congrArg (fun pos => (s.queue.realPos pos).toNat) hbegin).trans (h.realPos_eq _)
  | loadStatus pos i =>
      rw [hc] at hs hat
      dsimp only at hs
      split_ifs at hs with hfull hlast
      all_goals obtain rfl := Except.ok.inj hs
      all_goals
        refine ⟨r, h.setConsumer _ _ (by rw [TwoThreads.popped, hc]; rfl) (by rw [hc]; rfl) ?_⟩
      · refine ⟨hat, ?_⟩
        rw [← show pos.toNat = _ from hat, hfull]
      · trivial
      · exact hat
  | advance pos =>
      rw [hc] at hs
      obtain rfl := Except.ok.inj hs
      exact ⟨r, h.popAdvance hc⟩
  | read pos =>
      rw [hc] at hs hat
      obtain rfl := Except.ok.inj hs
      refine ⟨r, h.setConsumer _ _ ?_ (by rw [hc]; rfl) hat⟩
      rw [TwoThreads.popped, hc]
      exact List.append_nil _
  | reset pos item =>
      rw [hc] at hs
      obtain rfl := Except.ok.inj hs
      exact ⟨r, h.popReset hc⟩
  | store pos item =>
      rw [hc] at hs
      obtain rfl := Except.ok.inj hs
      exact ⟨r + 1, h.popStore hc⟩

end Steps

theorem toNat_maxSizeOf (powArg : UInt32) :
    (maxSizeOf powArg).toNat = 2 ^ min powArg.toNat 24 := by
  have hshift : (if powArg < 24 then powArg else 24).toNat = min powArg.toNat 24 := by
    split_ifs with hlt
    · have hlt : powArg.toNat < 24 := hlt
      omega
    · have hge : ¬ powArg.toNat < 24 := hlt
      rw [Nat.min_eq_right (by omega)]
      rfl
  have hle : min powArg.toNat 24 ≤ 24 := Nat.min_le_right ..
  rw [maxSizeOf, toNat_one_shiftLeft (by omega), hshift]

theorem create [Inhabited α] (powArg : UInt32) :
    Inv (min powArg.toNat 24) 0 (LockFreeCircularQueueSPSC.create powArg : TwoThreads α) where
  small := Nat.min_le_right ..
  maxSize_eq := toNat_maxSizeOf powArg
  left_eq := rfl
  beginPos_eq := rfl
  endPos_eq := rfl
  marked := ⟨Nat.le_refl 0, Nat.zero_le _, fun j _ _ =>
    iff_of_false (fun h : Status.empty = Status.full => by cases h) (Nat.not_lt_zero j)⟩
  popped_eq := rfl
  data_eq j _ hj := absurd hj (Nat.not_lt_zero j)
  producer_at := trivial
  consumer_at := trivial

theorem of_reaches [Inhabited α] {powArg : UInt32}
    (h : (twoThreads powArg).Reaches (fun _ _ => True) s) :
    ∃ r, Inv (min powArg.toNat 24) r s := by
  refine h.invariant (P := fun s => ∃ r, Inv _ r s) (fun s hs => ⟨0, ?_⟩)
    fun s a s' hinv _ _ hs => ?_
  · obtain rfl := hs
    exact create powArg
  · obtain ⟨r, hinv⟩ := hinv
    cases a with
    | push item => exact ⟨r, hinv.callPush hs⟩
    | pop => exact ⟨r, hinv.callPop hs⟩
    | producer => exact ⟨r, hinv.push hs⟩
    | consumer => exact hinv.pop hs

theorem status_of_claimed (h : Inv k r s) {n : Nat} (hn : n < s.producer.claimed) :
    n = 0 ∧ s.queue.status (s.published.length % 2 ^ k) ≠ .full := by
  have hat := h.producer_at
  cases hp : s.producer with
  | write =>
      rw [hp] at hn hat
      exact ⟨Nat.lt_one_iff.mp hn, hat.2⟩
  | store =>
      rw [hp] at hn hat
      exact ⟨Nat.lt_one_iff.mp hn, hat.2.1⟩
  | _ =>
      rw [hp] at hn
      cases hn

theorem length_published_le (h : Inv k r s) :
    s.published.length + s.producer.claimed ≤ r + 2 ^ k := by
  rcases Nat.eq_zero_or_pos s.producer.claimed with hzero | hpos
  · rw [hzero]
    exact h.marked.room
  · have hlast := h.status_of_claimed (Nat.sub_lt hpos Nat.one_pos)
    have hplace := h.length_published_lt hlast.2
    omega

theorem filterMap_range_length (items : List α) (f : Nat → Option α)
    (hf : ∀ n < items.length, f n = items[n]?) :
    (List.range items.length).filterMap f = items := by
  induction items generalizing f with
  | nil => rfl
  | cons item items ih =>
      have hfirst : f 0 = some item := hf 0 (Nat.succ_pos _)
      rw [List.length_cons, List.range_succ_eq_map, List.filterMap_cons_some hfirst,
        List.filterMap_map, ih (f ∘ Nat.succ) fun n hn => hf (n + 1) (Nat.succ_lt_succ hn)]

/-- From `m_begin` on, the published items that have not been popped are found, and behind
them there is no full cell. -/
theorem inFullCells_eq (h : Inv k r s) :
    s.inFullCells = s.published.drop s.popped.length := by
  have hle := h.length_popped_le
  have hroom := h.length_published_le
  have hleft := h.left_eq
  have hpow : 2 ^ k ≤ 2 ^ 24 := Nat.pow_le_pow_right (by decide) h.small
  have hcount : (s.queue.endPos - s.queue.beginPos).toNat =
      (s.published.drop s.popped.length).length + s.producer.claimed := by
    rw [h.endPos_eq, h.beginPos_eq, ← UInt64.ofNat_sub (by omega), UInt64.toNat_ofNat',
      Nat.mod_eq_of_lt (by omega), List.length_drop]
    omega
  have hcell : ∀ n, (s.queue.realPos (s.queue.beginPos + UInt64.ofNat n)).toNat =
      (s.popped.length + n) % 2 ^ k := by
    intro n
    rw [h.beginPos_eq, ← UInt64.ofNat_add, h.realPos_eq]
  rw [TwoThreads.inFullCells, hcount, List.range_add, List.filterMap_append]
  simp only [hcell]
  rw [filterMap_range_length]
  · refine (congrArg _ (List.filterMap_eq_nil_iff.mpr fun n hn => ?_)).trans (List.append_nil _)
    -- At the most one place is behind them, the one of the push that is going on.
    obtain ⟨m, hm, rfl⟩ := List.mem_map.mp hn
    obtain ⟨rfl, hfree⟩ := h.status_of_claimed (List.mem_range.mp hm)
    rw [List.length_drop, Nat.add_zero, Nat.add_sub_cancel' hle, if_neg hfree]
  · intro n hn
    rw [List.length_drop] at hn
    rw [if_pos ((h.marked.iff _ (by omega) (by omega)).mpr (by omega)), List.getElem?_drop,
      h.data_eq _ (by omega) (by omega)]

theorem popped_append (h : Inv k r s) : s.popped ++ s.inFullCells = s.published := by
  rw [h.inFullCells_eq]
  conv_lhs => rw [h.popped_eq, List.length_take_of_le h.length_popped_le]
  exact List.take_append_drop ..

theorem full_of_push {s' : TwoThreads α} (h : Inv k r s)
    (hs : LockFreeCircularQueueSPSC.push s = .ok s') (hfails : s'.producer = .returned false) :
    s.queue.full = true := by
  have hat := h.producer_at
  rw [LockFreeCircularQueueSPSC.push] at hs
  cases hp : s.producer with
  | loadStatus item pos i =>
      have hend := h.endPos_eq
      rw [hp] at hs hat hend
      dsimp only at hs
      split_ifs at hs with hempty
      · obtain rfl := Except.ok.inj hs
        cases hfails
      · have hpos : (s.queue.realPos s.queue.endPos).toNat = pos.toNat := by
          rw [hend, h.realPos_eq]
          exact hat.symm
        rw [full, hpos]
        cases hstatus : s.queue.status pos.toNat with
        | empty => exact absurd hstatus hempty
        | full => rfl
      · obtain rfl := Except.ok.inj hs
        cases hfails
  | idle | returned =>
      rw [hp] at hs
      cases hs
  | _ =>
      rw [hp] at hs
      obtain rfl := Except.ok.inj hs
      cases hfails

theorem empty_of_pop [Inhabited α] {s' : TwoThreads α} (h : Inv k r s)
    (hs : LockFreeCircularQueueSPSC.pop s = .ok s') (hfails : s'.consumer = .returned none) :
    s.queue.empty = true := by
  have hat := h.consumer_at
  rw [LockFreeCircularQueueSPSC.pop] at hs
  cases hc : s.consumer with
  | loadStatus pos i =>
      have hbegin := h.beginPos_eq
      rw [hc] at hs hat
      rw [h.length_popped (by rw [hc]; rfl)] at hbegin
      dsimp only at hs
      split_ifs at hs with hfull
      · obtain rfl := Except.ok.inj hs
        cases hfails
      · have hpos : (s.queue.realPos s.queue.beginPos).toNat = pos.toNat := by
          rw [hbegin, h.realPos_eq]
          exact hat.symm
        rw [empty, hpos]
        cases hstatus : s.queue.status pos.toNat with
        | empty => rfl
        | full => exact absurd hstatus hfull
      · obtain rfl := Except.ok.inj hs
        cases hfails
  | idle | returned =>
      rw [hc] at hs
      cases hs
  | _ =>
      rw [hc] at hs
      obtain rfl := Except.ok.inj hs
      cases hfails

theorem not_racing (h : Inv k r s) : ¬ s.Racing := by
  rintro ⟨item, pos, hp, hc⟩
  have hproducer := h.producer_at
  rw [hp] at hproducer
  have hconsumer := h.consumer_at
  have hfull : pos.toNat = r % 2 ^ k ∧ s.queue.status (r % 2 ^ k) = .full := by
    rcases hc with hc | ⟨item', hc⟩ <;>
    · rw [hc] at hconsumer
      exact hconsumer
  rw [← hfull.1, hproducer.1] at hfull
  exact hproducer.2 hfull.2

end Inv

/-- The item of a push that is going on. -/
def Producer.pushing : Producer α → Option α
  | .loadEnd item | .loadStatus item _ _ | .advance item _ | .write item _ | .store item _ =>
      some item
  | _ => none

/-- What has been seen of the calls is what has happened at the queue. -/
structure Noted (s : TwoThreads α) (calls : Calls α) : Prop where
  item : ∀ item, s.producer.pushing = some item → calls.item = some item
  pushed : calls.pushed = s.published
  popped : s.delivered = calls.popped ++ s.consumer.carried

namespace Noted

variable {s s' : TwoThreads α} {calls : Calls α}

theorem push (h : Noted s calls) (hs : LockFreeCircularQueueSPSC.push s = .ok s') :
    Noted s' (note s .producer s' calls) := by
  rw [LockFreeCircularQueueSPSC.push] at hs
  cases hp : s.producer with
  | idle | returned =>
      rw [hp] at hs
      cases hs
  | loadStatus item pos i =>
      have hitem := h.item item (by rw [hp]; rfl)
      rw [hp] at hs
      dsimp only at hs
      split_ifs at hs
      all_goals obtain rfl := Except.ok.inj hs
      · exact ⟨fun _ heq => hitem.trans heq, h.pushed, h.popped⟩
      · exact ⟨fun _ heq => (by cases heq), h.pushed, h.popped⟩
      · exact ⟨fun _ heq => hitem.trans heq, h.pushed, h.popped⟩
  | store item pos =>
      have hitem := h.item item (by rw [hp]; rfl)
      rw [hp] at hs
      obtain rfl := Except.ok.inj hs
      refine ⟨fun _ heq => (by cases heq), ?_, h.popped⟩
      change calls.pushed ++ calls.item.toList = s.published ++ [item]
      rw [h.pushed, hitem]
      rfl
  | _ item =>
      have hitem := h.item item (by rw [hp]; rfl)
      rw [hp] at hs
      obtain rfl := Except.ok.inj hs
      exact ⟨fun _ heq => hitem.trans heq, h.pushed, h.popped⟩

theorem pop [Inhabited α] (h : Noted s calls) (hs : LockFreeCircularQueueSPSC.pop s = .ok s') :
    Noted s' (note s .consumer s' calls) := by
  have hpopped := h.popped
  rw [LockFreeCircularQueueSPSC.pop] at hs
  cases hc : s.consumer with
  | idle | returned =>
      rw [hc] at hs
      cases hs
  | loadStatus pos i =>
      rw [hc] at hs hpopped
      dsimp only at hs
      split_ifs at hs
      all_goals
        obtain rfl := Except.ok.inj hs
        exact ⟨h.item, h.pushed, hpopped⟩
  | read pos =>
      rw [hc] at hs hpopped
      obtain rfl := Except.ok.inj hs
      refine ⟨h.item, h.pushed, ?_⟩
      change s.delivered ++ [_] = calls.popped ++ [_]
      rw [hpopped]
      exact congrArg (· ++ _) (List.append_nil _)
  | store pos item =>
      rw [hc] at hs hpopped
      obtain rfl := Except.ok.inj hs
      refine ⟨h.item, h.pushed, hpopped.trans ?_⟩
      exact (List.append_nil _).symm
  | _ =>
      rw [hc] at hs hpopped
      obtain rfl := Except.ok.inj hs
      exact ⟨h.item, h.pushed, hpopped⟩

theorem callPush {item : α} (h : Noted s calls)
    (hs : LockFreeCircularQueueSPSC.callPush item s = .ok s') :
    Noted s' (note s (.push item) s' calls) := by
  rw [LockFreeCircularQueueSPSC.callPush] at hs
  cases hp : s.producer with
  | idle | returned =>
      rw [hp] at hs
      obtain rfl := Except.ok.inj hs
      exact ⟨fun _ heq => heq, h.pushed, h.popped⟩
  | _ =>
      rw [hp] at hs
      cases hs

theorem callPop (h : Noted s calls) (hs : LockFreeCircularQueueSPSC.callPop s = .ok s') :
    Noted s' (note s .pop s' calls) := by
  have hpopped := h.popped
  rw [LockFreeCircularQueueSPSC.callPop] at hs
  cases hc : s.consumer with
  | idle | returned =>
      rw [hc] at hs hpopped
      obtain rfl := Except.ok.inj hs
      exact ⟨h.item, h.pushed, hpopped⟩
  | _ =>
      rw [hc] at hs
      cases hs

theorem of_reaches [Inhabited α] {powArg : UInt32} {s : TwoThreads α × Calls α}
    (h : ((twoThreads powArg).chronicle {} note).Reaches (fun _ _ => True) s) :
    Noted s.1 s.2 := by
  refine h.invariant (P := fun s => Noted s.1 s.2) ?_ ?_
  · rintro ⟨s, calls⟩ ⟨hinit, hcalls⟩
    obtain rfl : s = create powArg := hinit
    obtain rfl : calls = {} := hcalls
    exact ⟨fun _ heq => (by cases heq), rfl, rfl⟩
  · rintro ⟨s, calls⟩ a ⟨s', calls'⟩ hnoted - - hstep
    obtain ⟨hs, hcalls⟩ := System.chronicle_step.mp hstep
    obtain rfl : calls' = note s a s' calls := hcalls
    cases a with
    | push item => exact hnoted.callPush hs
    | pop => exact hnoted.callPop hs
    | producer => exact hnoted.push hs
    | consumer => exact hnoted.pop hs

end Noted

/-- What the pops have returned, what a pop has read or is about to read, and what is in the
full cells is what has been pushed, in its order. No item is written while it is read, a push
that fails has seen its cell full, and a pop that fails has seen its cell empty. -/
theorem fifo_of_reaches [Inhabited α] {powArg : UInt32} {s : TwoThreads α} {calls : Calls α}
    (h : ((twoThreads powArg).chronicle {} note).Reaches (fun _ _ => True) (s, calls)) :
    calls.pushed = s.published ∧
      calls.popped ++ s.consumer.carried ++ s.consumer.inFlight s.queue = s.popped ∧
      s.popped ++ s.inFullCells = s.published ∧ ¬ s.Racing ∧
      (∀ s', push s = .ok s' → s'.producer = .returned false → s.queue.full = true) ∧
      ∀ s', pop s = .ok s' → s'.consumer = .returned none → s.queue.empty = true := by
  have hnoted := Noted.of_reaches h
  obtain ⟨r, hinv⟩ := Inv.of_reaches h.of_chronicle
  exact ⟨hnoted.pushed, congrArg (· ++ _) hnoted.popped.symm, hinv.popped_append, hinv.not_racing,
    fun s' => hinv.full_of_push, fun s' => hinv.empty_of_pop⟩

/-- One pop has returned and a second one has read, while another push has moved `m_end`. -/
theorem fifo_of_reaches_pushed :
    let s := ((twoThreads 1).chronicle {} note).after (create 1, {}) ([.push 7] ++
      List.replicate 5 .producer ++ [.pop] ++ List.replicate 6 .consumer ++ [.push 8] ++
      List.replicate 5 .producer ++ [.pop] ++ List.replicate 4 .consumer ++ [.push 9] ++
      List.replicate 3 .producer)
    (s.2.pushed = [7, 8] ∧ s.2.popped = [7] ∧ s.1.consumer.carried = [8]) ∧
      s.2.pushed = s.1.published ∧
      s.2.popped ++ s.1.consumer.carried ++ s.1.consumer.inFlight s.1.queue = s.1.popped ∧
      s.1.popped ++ s.1.inFullCells = s.1.published ∧ ¬ s.1.Racing ∧
      (∀ s', push s.1 = .ok s' → s'.producer = .returned false → s.1.queue.full = true) ∧
      ∀ s', pop s.1 = .ok s' → s'.consumer = .returned none → s.1.queue.empty = true := by
  intro s
  have hinit : ((twoThreads 1).chronicle {} note).Reaches (fun _ _ => True)
      ((create 1, {}) : TwoThreads Nat × Calls Nat) := .init ⟨rfl, rfl⟩
  have hreaches : ((twoThreads 1).chronicle {} note).Reaches (fun _ _ => True) s :=
    hinit.after (System.fits_of_forall (fun _ _ => ⟨trivial, trivial⟩) _ _)
  exact ⟨⟨rfl, rfl, rfl⟩, fifo_of_reaches hreaches⟩

end LockFreeCircularQueueSPSC

end CasualGame.Componet
