import CasualGame.Base.PrivateConnectionChecker
import CasualGame.Lib.Run

/-!
Two processes that check a connection between them. They agree on it, and leave alone what
either sends afterwards. The turn of a connection in `checkConn` is one step, with what it sends
and the event that it raises.
-/

namespace CasualGame.Base

open Lib.Run
open Net
open Relay

namespace Endpoint

variable {e e' : Endpoint} {recv : RecvResult} {send : SendResult} {bytes : List UInt8}
  {done : Bool}

section Operations

theorem tryRecv_ok (hfits : recv.bytes.length ≤ (e.recvBuf.writeable 0).1.second)
    (h : e.tryRecv recv = .ok (done, e')) :
    ∃ recvBuf, recvBuf.readable = e.recvBuf.readable ++ recv.bytes ∧
      e' = { e with recvBuf := recvBuf, received := e.received ++ recv.bytes } := by
  obtain ⟨⟨nonempty, recvBuf⟩, hrecv, hresult⟩ := bind_eq_ok.mp h
  obtain ⟨-, rfl⟩ := Prod.mk.inj (Except.ok.inj hresult)
  exact ⟨recvBuf, BufferedConnection.tryRecv_ok hfits hrecv, rfl⟩

theorem trySend_ok (h : e.trySend send = .ok (done, e')) :
    ∃ sendBuf emitted, emitted ++ sendBuf.readable = e.sendBuf.readable ∧
      (done = true ↔ sendBuf.readable = []) ∧
      e' = { e with sendBuf := sendBuf, sent := e.sent ++ emitted } := by
  obtain ⟨⟨empty, sendBuf, emitted⟩, hsend, hresult⟩ := bind_eq_ok.mp h
  obtain ⟨rfl, rfl⟩ := Prod.mk.inj (Except.ok.inj hresult)
  obtain ⟨hemitted, -, hdone⟩ := BufferedConnection.trySend_ok hsend
  refine ⟨sendBuf, emitted, hemitted, ?_, rfl⟩
  split_ifs at hdone with hall
  · exact iff_of_true hdone.1 hdone.2
  · exact iff_of_false (by simp [hdone.1]) hdone.2.1

theorem trySend_error {fault : NetException} (h : e.trySend send = .error fault) :
    e.sendBuf.readable ≠ [] := by
  intro hnone
  simp only [trySend, BufferedConnection.trySend_nil hnone] at h
  cases h

theorem take_eq {size : Nat} (hsize : size ≤ e.recvBuf.readable.length) :
    ∃ recvBuf, recvBuf.readable = e.recvBuf.readable.drop size ∧
      e.take size = (e.recvBuf.readable.take size,
        { e with recvBuf := recvBuf, consumed := e.consumed ++ e.recvBuf.readable.take size }) :=
  ⟨_, ConnectionBuffer.readable_commitRead hsize, rfl⟩

theorem put_eq_some (h : e.put bytes = some e') :
    ∃ sendBuf, sendBuf.readable = e.sendBuf.readable ++ bytes ∧
      e' = { e with sendBuf := sendBuf, handshake := e.handshake ++ bytes } := by
  simp only [put] at h
  split_ifs at h with hroom
  obtain rfl := Option.some.inj h
  refine ⟨_, ?_, rfl⟩
  rw [ConnectionBuffer.writeable_first, ConnectionBuffer.readable_commitWrite,
    ConnectionBuffer.readable_writeable]
  rw [ConnectionBuffer.writeable_second, not_lt] at hroom
  rwa [ConnectionBuffer.capacity_writeable]

theorem finish_eq (e : Endpoint) (info : ConnInfo) :
    e.finish info = { e with
      info := none
      confirmed := if info.checkResult then e.confirmed ++ [info.remoteId] else e.confirmed } := by
  rw [finish]
  split_ifs
  · rfl
  · rfl

end Operations

section Frame

/-- What a turn leaves alone, and what it adds to. -/
structure Advances (bytes : List UInt8) (e e' : Endpoint) : Prop where
  processId : e'.processId = e.processId
  type2Name : e'.type2Name = e.type2Name
  added : e'.added = e.added
  sent : e.sent <+: e'.sent
  received : e'.received = e.received ∨ e'.received = e.received ++ bytes

theorem advances_info (bytes : List UInt8) (e : Endpoint) (info : Option ConnInfo) :
    Advances bytes e { e with info := info } :=
  ⟨rfl, rfl, rfl, List.prefix_refl _, .inl rfl⟩

theorem Advances.received_eq (h : Advances [] e e') : e'.received = e.received := by
  rcases h.received with heq | heq
  · exact heq
  · rwa [List.append_nil] at heq

theorem Advances.trans {e₁ e₂ : Endpoint} (h : Advances [] e e₁) (h' : Advances bytes e₁ e₂) :
    Advances bytes e e₂ := by
  refine ⟨h'.processId.trans h.processId, h'.type2Name.trans h.type2Name, h'.added.trans h.added,
    h.sent.trans h'.sent, ?_⟩
  rw [← h.received_eq]
  exact h'.received

theorem Advances.trans' {e₁ e₂ : Endpoint} (h : Advances bytes e e₁) (h' : Advances [] e₁ e₂) :
    Advances bytes e e₂ := by
  refine ⟨h'.processId.trans h.processId, h'.type2Name.trans h.type2Name, h'.added.trans h.added,
    h.sent.trans h'.sent, ?_⟩
  rw [h'.received_eq]
  exact h.received

theorem advances_finish (e : Endpoint) (info : ConnInfo) : Advances [] e (e.finish info) := by
  rw [finish_eq]
  exact ⟨rfl, rfl, rfl, List.prefix_refl _, .inl rfl⟩

theorem advances_take (e : Endpoint) (size : Nat) : Advances [] e (e.take size).2 :=
  ⟨rfl, rfl, rfl, List.prefix_refl _, .inl rfl⟩

theorem advances_put (h : e.put bytes = some e') : Advances [] e e' := by
  obtain ⟨sendBuf, -, rfl⟩ := put_eq_some h
  exact ⟨rfl, rfl, rfl, List.prefix_refl _, .inl rfl⟩

theorem advances_trySend (h : e.trySend send = .ok (done, e')) : Advances [] e e' := by
  obtain ⟨sendBuf, emitted, -, -, rfl⟩ := trySend_ok h
  exact ⟨rfl, rfl, rfl, List.prefix_append _ _, .inl rfl⟩

theorem advances_tryRecv (h : e.tryRecv recv = .ok (done, e')) : Advances recv.bytes e e' := by
  obtain ⟨⟨nonempty, recvBuf⟩, -, hresult⟩ := bind_eq_ok.mp h
  obtain ⟨-, rfl⟩ := Prod.mk.inj (Except.ok.inj hresult)
  exact ⟨rfl, rfl, rfl, List.prefix_refl _, .inr rfl⟩

theorem advances_sendRet (e : Endpoint) (info : ConnInfo) (send : SendResult) :
    Advances [] e (e.sendRet info send) := by
  rw [Endpoint.sendRet]
  split
  · exact advances_info _ e _
  · rename_i e₁ hsend
    exact (advances_trySend hsend).trans (advances_info _ e₁ _)
  · rename_i e₁ hsend
    exact (advances_trySend hsend).trans (advances_finish e₁ info)

theorem advances_recvRet (e : Endpoint) (info : ConnInfo) (recv : RecvResult) :
    Advances recv.bytes e (e.recvRet info recv) := by
  rw [Endpoint.recvRet]
  split
  · exact advances_info _ e _
  · rename_i e₁ hrecv
    exact (advances_tryRecv hrecv).trans' (advances_info _ e₁ _)
  · rename_i e₁ hrecv
    split_ifs
    · exact (advances_tryRecv hrecv).trans' (advances_info _ e₁ _)
    · exact (advances_tryRecv hrecv).trans' ((advances_take e₁ _).trans (advances_finish _ _))

theorem advances_sendId (e : Endpoint) (info : ConnInfo) (recv : RecvResult) (send : SendResult) :
    Advances recv.bytes e (e.sendId info recv send) := by
  rw [Endpoint.sendId]
  split
  · exact advances_info _ e _
  · rename_i e₁ hsend
    exact (advances_trySend hsend).trans (advances_info _ e₁ _)
  · rename_i e₁ hsend
    exact (advances_trySend hsend).trans (advances_recvRet e₁ _ recv)

theorem advances_recvId (e : Endpoint) (recv : RecvResult) (send : SendResult)
    (padding : Vector UInt8 3) : Advances recv.bytes e (e.recvId recv send padding) := by
  rw [Endpoint.recvId]
  split
  · exact advances_info _ e _
  · rename_i e₁ hrecv
    exact (advances_tryRecv hrecv).trans' (advances_info _ e₁ _)
  · rename_i e₁ hrecv
    split_ifs
    · exact (advances_tryRecv hrecv).trans' (advances_info _ e₁ _)
    · have htake := (advances_tryRecv hrecv).trans' (advances_take e₁ ProcessId.sizeof)
      simp only
      split
      · exact htake.trans' (advances_info _ _ _)
      · rename_i e₂ hput
        exact htake.trans' ((advances_put hput).trans (advances_sendRet e₂ _ send))

theorem advances_checkConn (e : Endpoint) (recv : RecvResult) (send : SendResult)
    (padding : Vector UInt8 3) : Advances recv.bytes e (e.checkConn recv send padding) := by
  rw [Endpoint.checkConn]
  split
  · exact advances_info _ e _
  · rename_i info _
    split
    · exact advances_recvId e recv send padding
    · exact (advances_sendRet e info send).trans (advances_info _ _ _)
    · exact advances_sendId e info recv send
    · exact advances_recvRet e info recv

end Frame

section Outgoing

/-- The outgoing side before it has an answer. -/
structure Asking (e : Endpoint) : Prop where
  received : e.received = e.recvBuf.readable
  consumed : e.consumed = []
  confirmed : e.confirmed = []
  sent : e.sent ++ e.sendBuf.readable = e.handshake
  handshake : e.handshake = [] ∨ e.handshake = e.processId.bytes
  info : ∀ info, e.info = some info → e.handshake = e.processId.bytes ∧
    (info.state = .sendId ∨ info.state = .recvRet ∧ e.sendBuf.readable = [])

/-- The outgoing side after that. -/
structure Answered (e : Endpoint) : Prop where
  received : e.received = e.consumed ++ e.recvBuf.readable
  consumed : e.consumed.length = ConnCheckRetMsg.sizeof
  confirmed : e.confirmed = if ConnCheckRetMsg.resultOf e.consumed then
    [ConnCheckRetMsg.pidOf e.consumed] else []
  sent : e.handshake <+: e.sent
  handshake : e.handshake = e.processId.bytes
  info : e.info = none

def Outgoing (e : Endpoint) : Prop := e.Asking ∨ e.Answered

theorem Asking.erase (h : e.Asking) : e.erase.Asking := by
  refine ⟨h.received, h.consumed, h.confirmed, h.sent, h.handshake, ?_⟩
  intro info hinfo
  cases hinfo

theorem Asking.receive (h : e.Asking) {recvBuf : ConnectionBuffer}
    (hreadable : recvBuf.readable = e.recvBuf.readable ++ bytes) :
    { e with recvBuf := recvBuf, received := e.received ++ bytes }.Asking := by
  refine ⟨?_, h.consumed, h.confirmed, h.sent, h.handshake, h.info⟩
  rw [hreadable, h.received]

theorem Asking.wait (h : e.Asking) {info : ConnInfo} (hhandshake : e.handshake = e.processId.bytes)
    (hstate : info.state = .recvRet) (hempty : e.sendBuf.readable = []) :
    { e with info := some info }.Asking := by
  refine ⟨h.received, h.consumed, h.confirmed, h.sent, h.handshake, ?_⟩
  intro info' hinfo
  obtain rfl := Option.some.inj hinfo
  exact ⟨hhandshake, .inr ⟨hstate, hempty⟩⟩

theorem Asking.recvRet {info : ConnInfo} (h : e.Asking)
    (hhandshake : e.handshake = e.processId.bytes)
    (hstate : info.state = .recvRet) (hempty : e.sendBuf.readable = [])
    (hfits : recv.bytes.length ≤ (e.recvBuf.writeable 0).1.second) :
    (e.recvRet info recv).Outgoing := by
  rw [Endpoint.recvRet]
  cases hrecv : e.tryRecv recv with
  | error fault => exact .inl h.erase
  | ok result =>
      obtain ⟨nonempty, e₁⟩ := result
      obtain ⟨recvBuf, hreadable, rfl⟩ := tryRecv_ok hfits hrecv
      have hwaits := (h.receive hreadable).wait hhandshake hstate hempty
      cases nonempty with
      | false => exact .inl hwaits
      | true =>
          simp only
          split_ifs with hshort
          · exact .inl hwaits
          · rw [not_lt] at hshort
            obtain ⟨recvBuf', hrest, htake⟩ := take_eq
              (e := { e with recvBuf := recvBuf, received := e.received ++ recv.bytes }) hshort
            simp only [htake, finish_eq]
            simp only [h.consumed, h.confirmed, List.nil_append]
            have hsent := h.sent
            rw [hempty, List.append_nil] at hsent
            refine .inr ⟨?_, List.length_take_of_le hshort, rfl, ?_, hhandshake, rfl⟩
            · show e.received ++ recv.bytes = recvBuf.readable.take _ ++ recvBuf'.readable
              rw [hrest, List.take_append_drop, hreadable, h.received]
            · simp only [hsent, List.prefix_refl]

theorem Asking.sendId {info : ConnInfo} (h : e.Asking)
    (hhandshake : e.handshake = e.processId.bytes)
    (hinfo : e.info = some info) (hstate : info.state = .sendId)
    (hfits : recv.bytes.length ≤ (e.recvBuf.writeable 0).1.second) :
    (e.sendId info recv send).Outgoing := by
  rw [Endpoint.sendId]
  cases hsend : e.trySend send with
  | error fault => exact .inl h.erase
  | ok result =>
      obtain ⟨done, e₁⟩ := result
      obtain ⟨sendBuf, emitted, hemitted, hdone, rfl⟩ := trySend_ok hsend
      have hsent : { e with sendBuf := sendBuf, sent := e.sent ++ emitted }.Asking := by
        refine ⟨h.received, h.consumed, h.confirmed, ?_, h.handshake, ?_⟩
        · simp only [List.append_assoc, hemitted, h.sent]
        · intro info' hinfo'
          obtain rfl := Option.some.inj (hinfo.symm.trans hinfo')
          exact ⟨hhandshake, .inl hstate⟩
      cases done with
      | false => exact .inl hsent
      | true => exact hsent.recvRet hhandshake rfl (hdone.mp rfl) hfits

theorem Outgoing.checkConn (h : e.Outgoing) (padding : Vector UInt8 3)
    (hfits : recv.bytes.length ≤ (e.recvBuf.writeable 0).1.second) :
    (e.checkConn recv send padding).Outgoing := by
  rw [Endpoint.checkConn]
  cases hinfo : e.info with
  | none => exact h
  | some info =>
      rcases h with h | h
      · obtain ⟨hhandshake, hstate⟩ := h.info info hinfo
        rcases hstate with hstate | ⟨hstate, hempty⟩
        · simp only [hstate]
          exact h.sendId hhandshake hinfo hstate hfits
        · simp only [hstate]
          exact h.recvRet hhandshake hstate hempty hfits
      · rw [h.info] at hinfo
        cases hinfo

end Outgoing

section Incoming

/-- The incoming side before it has taken an id, or given up over it. -/
structure Listening (e : Endpoint) : Prop where
  received : e.received = e.consumed ++ e.recvBuf.readable
  consumed : e.consumed = [] ∨ e.consumed.length = ProcessId.sizeof
  confirmed : e.confirmed = []
  handshake : e.handshake = []
  sent : e.sent ++ e.sendBuf.readable = []
  info : ∀ info, e.info = some info → info.state = .recvId ∧ e.consumed = []

/-- The incoming side with an answer about the id it was sent. -/
structure Judged (e : Endpoint) (info : ConnInfo) : Prop where
  received : e.received = e.consumed ++ e.recvBuf.readable
  consumed : e.consumed.length = ProcessId.sizeof
  remoteId : info.remoteId = ProcessId.read e.consumed
  checkResult : info.checkResult = info.remoteId.isValid e.type2Name
  handshake : ∃ padding,
    e.handshake = ConnCheckRetMsg.bytes ⟨e.processId, info.checkResult, padding⟩

structure Replying (e : Endpoint) (info : ConnInfo) : Prop extends e.Judged info where
  confirmed : e.confirmed = []
  sent : e.sent ++ e.sendBuf.readable = e.handshake

/-- All of the answer is out. -/
structure Replied (e : Endpoint) (info : ConnInfo) : Prop extends e.Judged info where
  confirmed : e.confirmed = if info.checkResult then [info.remoteId] else []
  sent : e.handshake <+: e.sent
  done : e.info = none

inductive Incoming (e : Endpoint) : Prop
  | listening (h : e.Listening)
  | replying (info : ConnInfo) (h : e.Replying info) (hrest : e.sendBuf.readable ≠ [])
      (hinfo : ∀ info', e.info = some info' → info' = info ∧ info.state = .sendRet)
  | replied (info : ConnInfo) (h : e.Replied info)

theorem Replying.sendRet {info : ConnInfo} (h : e.Replying info) (hstate : info.state = .sendRet) :
    (e.sendRet info send).Incoming := by
  rw [Endpoint.sendRet]
  cases hsend : e.trySend send with
  | error fault =>
      have hrest := trySend_error hsend
      refine .replying info ⟨?_, h.confirmed, h.sent⟩ hrest ?_
      · exact ⟨h.received, h.consumed, h.remoteId, h.checkResult, h.handshake⟩
      · intro info' hinfo
        cases hinfo
  | ok result =>
      obtain ⟨done, e₁⟩ := result
      obtain ⟨sendBuf, emitted, hemitted, hdone, rfl⟩ := trySend_ok hsend
      have hsent : e.sent ++ emitted ++ sendBuf.readable = e.handshake := by
        rw [List.append_assoc, hemitted, h.sent]
      have hjudged : ∀ info' confirmed, Judged { e with
          sendBuf := sendBuf
          sent := e.sent ++ emitted
          info := info'
          confirmed := confirmed } info := fun _ _ =>
        ⟨h.received, h.consumed, h.remoteId, h.checkResult, h.handshake⟩
      cases done with
      | false =>
          refine .replying info ⟨hjudged _ _, h.confirmed, hsent⟩ (by simp [← hdone]) ?_
          intro info' hinfo
          exact ⟨(Option.some.inj hinfo).symm, hstate⟩
      | true =>
          simp only [finish_eq]
          refine .replied info ⟨hjudged _ _, ?_, ?_, rfl⟩
          · simp only [h.confirmed, List.nil_append]
          · rw [hdone.mp rfl, List.append_nil] at hsent
            simp only [hsent, List.prefix_refl]

theorem Listening.recvId (h : e.Listening) (hconsumed : e.consumed = [])
    (padding : Vector UInt8 3) (hfits : recv.bytes.length ≤ (e.recvBuf.writeable 0).1.second) :
    (e.recvId recv send padding).Incoming := by
  rw [Endpoint.recvId]
  cases hrecv : e.tryRecv recv with
  | error fault =>
      refine .listening ⟨h.received, h.consumed, h.confirmed, h.handshake, h.sent, ?_⟩
      intro info hinfo
      cases hinfo
  | ok result =>
      obtain ⟨nonempty, e₁⟩ := result
      obtain ⟨recvBuf, hreadable, rfl⟩ := tryRecv_ok hfits hrecv
      have hreceived : e.received ++ recv.bytes = e.consumed ++ recvBuf.readable := by
        rw [h.received, hreadable, List.append_assoc]
      have hwaits : { e with recvBuf := recvBuf, received := e.received ++ recv.bytes }.Incoming :=
        .listening ⟨hreceived, h.consumed, h.confirmed, h.handshake, h.sent, h.info⟩
      cases nonempty with
      | false => exact hwaits
      | true =>
          simp only
          split_ifs with hshort
          · exact hwaits
          · rw [not_lt] at hshort
            obtain ⟨recvBuf', hrest, htake⟩ := take_eq
              (e := { e with recvBuf := recvBuf, received := e.received ++ recv.bytes }) hshort
            simp only [htake]
            have htaken : e.received ++ recv.bytes =
                e.consumed ++ recvBuf.readable.take ProcessId.sizeof ++ recvBuf'.readable := by
              rw [hrest, List.append_assoc, List.take_append_drop, hreceived]
            have hlength : (e.consumed ++ recvBuf.readable.take ProcessId.sizeof).length =
                ProcessId.sizeof := by
              rw [hconsumed, List.nil_append, List.length_take_of_le hshort]
            split
            · refine .listening ⟨htaken, .inr hlength, h.confirmed, h.handshake, h.sent, ?_⟩
              intro info hinfo
              cases hinfo
            · rename_i e₂ hput
              obtain ⟨sendBuf, hsendBuf, rfl⟩ := put_eq_some hput
              refine Replying.sendRet ⟨⟨htaken, hlength, ?_, rfl, ⟨padding, ?_⟩⟩,
                h.confirmed, ?_⟩ rfl
              · simp only [hconsumed, List.nil_append]
              · simp only [h.handshake, List.nil_append]
              · simp only [hsendBuf, h.handshake, ← List.append_assoc, h.sent]

theorem Incoming.checkConn (h : e.Incoming) (padding : Vector UInt8 3)
    (hfits : recv.bytes.length ≤ (e.recvBuf.writeable 0).1.second) :
    (e.checkConn recv send padding).Incoming := by
  rw [Endpoint.checkConn]
  cases hinfo : e.info with
  | none => exact h
  | some info =>
      cases h with
      | listening h =>
          obtain ⟨hstate, hconsumed⟩ := h.info info hinfo
          simp only [hstate]
          exact h.recvId hconsumed padding hfits
      | replying info' h hrest hinfo' =>
          obtain ⟨rfl, hstate⟩ := hinfo' info hinfo
          simp only [hstate]
          exact h.sendRet hstate
      | replied info h =>
          rw [h.done] at hinfo
          cases hinfo

end Incoming

section Roles

/-- A side that has not been told of the connection. -/
structure New (e : Endpoint) : Prop where
  info : e.info = none
  received : e.received = []
  consumed : e.consumed = []
  handshake : e.handshake = []
  sent : e.sent = []
  confirmed : e.confirmed = []
  sendBuf : e.sendBuf.readable = []
  recvBuf : e.recvBuf.readable = []

def InRole : ConnType → Endpoint → Prop
  | .incoming => Incoming
  | .outgoing => Outgoing

variable {type : ConnType}

theorem new_create (processId : ProcessId) (type2Name : List String) (sendLimit recvLimit : Nat) :
    (create processId type2Name sendLimit recvLimit).New :=
  ⟨rfl, rfl, rfl, rfl, rfl, rfl, rfl, rfl⟩

theorem New.asking (h : e.New) : e.Asking := by
  refine ⟨?_, h.consumed, h.confirmed, ?_, .inl h.handshake, ?_⟩
  · rw [h.received, h.recvBuf]
  · rw [h.sent, h.sendBuf, h.handshake, List.append_nil]
  · intro info hinfo
    rw [h.info] at hinfo
    cases hinfo

theorem New.listening (h : e.New) : e.Listening := by
  refine ⟨?_, .inl h.consumed, h.confirmed, h.handshake, ?_, ?_⟩
  · rw [h.received, h.recvBuf, h.consumed, List.append_nil]
  · rw [h.sent, h.sendBuf, List.append_nil]
  · intro info hinfo
    rw [h.info] at hinfo
    cases hinfo

theorem New.inRole (h : e.New) (type : ConnType) : e.InRole type := by
  cases type with
  | incoming => exact .listening h.listening
  | outgoing => exact .inl h.asking

theorem New.addUncheckedConnection (h : e.New) (type : ConnType) (fails : Bool) :
    (e.addUncheckedConnection type fails).InRole type := by
  have hadded : { e with added := true }.New :=
    ⟨h.info, h.received, h.consumed, h.handshake, h.sent, h.confirmed, h.sendBuf, h.recvBuf⟩
  cases fails with
  | true => exact hadded.inRole type
  | false =>
      cases type with
      | incoming =>
          have hlistening := h.listening
          refine .listening ⟨hlistening.received, hlistening.consumed, h.confirmed, h.handshake,
            hlistening.sent, ?_⟩
          intro info hinfo
          obtain rfl := Option.some.inj hinfo
          exact ⟨rfl, h.consumed⟩
      | outgoing =>
          simp only [Endpoint.addUncheckedConnection, Bool.false_eq_true, if_false]
          split
          · exact hadded.inRole .outgoing
          · rename_i e₁ hput
            obtain ⟨sendBuf, hsendBuf, rfl⟩ := put_eq_some hput
            have hhandshake : e.handshake ++ e.processId.bytes = e.processId.bytes := by
              rw [h.handshake, List.nil_append]
            refine .inl ⟨h.asking.received, h.consumed, h.confirmed, ?_, .inr hhandshake, ?_⟩
            · simp only [hsendBuf, h.sent, h.sendBuf, h.handshake, List.nil_append]
            · intro info hinfo
              obtain rfl := Option.some.inj hinfo
              exact ⟨hhandshake, .inl rfl⟩

theorem addUncheckedConnection_frame (e : Endpoint) (type : ConnType) (fails : Bool) :
    Advances [] { e with added := true } (e.addUncheckedConnection type fails) := by
  cases fails with
  | true => exact advances_info _ _ _
  | false =>
      cases type with
      | incoming => exact advances_info _ _ _
      | outgoing =>
          simp only [Endpoint.addUncheckedConnection, Bool.false_eq_true, if_false]
          split
          · exact advances_info _ _ _
          · rename_i e₁ hput
            exact (advances_put hput).trans (advances_info _ _ _)

theorem InRole.checkConn (h : e.InRole type) (padding : Vector UInt8 3)
    (hfits : recv.bytes.length ≤ (e.recvBuf.writeable 0).1.second) :
    (e.checkConn recv send padding).InRole type := by
  cases type with
  | incoming => exact Incoming.checkConn h padding hfits
  | outgoing => exact Outgoing.checkConn h padding hfits

theorem InRole.more (h : e.InRole type) (hconfirmed : e.confirmed ≠ []) (bytes : List UInt8) :
    { e with sent := e.sent ++ bytes }.InRole type := by
  cases type with
  | incoming =>
      cases h with
      | listening h => exact absurd h.confirmed hconfirmed
      | replying info h => exact absurd h.confirmed hconfirmed
      | replied info h =>
          refine .replied info ⟨⟨h.received, h.consumed, h.remoteId, h.checkResult,
            h.handshake⟩, h.confirmed, ?_, h.done⟩
          exact h.sent.trans (List.prefix_append _ _)
  | outgoing =>
      rcases h with h | h
      · exact absurd h.confirmed hconfirmed
      · refine .inr ⟨h.received, h.consumed, h.confirmed, ?_, h.handshake, h.info⟩
        exact h.sent.trans (List.prefix_append _ _)

theorem checkConn_new (h : e.New) (padding : Vector UInt8 3) :
    e.checkConn recv send padding = e := by
  rw [Endpoint.checkConn, h.info]

end Roles

end Endpoint

section System

/-- A connection between two processes. -/
structure Link where
  outgoing : Endpoint
  incoming : Endpoint

def ConnType.other : ConnType → ConnType
  | .incoming => .outgoing
  | .outgoing => .incoming

namespace Link

def endpoint (l : Link) : ConnType → Endpoint
  | .incoming => l.incoming
  | .outgoing => l.outgoing

def update (l : Link) (side : ConnType) (e : Endpoint) : Link :=
  match side with
  | .incoming => { l with incoming := e }
  | .outgoing => { l with outgoing := e }

/-- The bytes that are on their way to a side. -/
def inFlight (l : Link) (side : ConnType) : List UInt8 :=
  (l.endpoint side.other).sent.drop (l.endpoint side).received.length

inductive Act
  /-- The process is told of its new connection. -/
  | add (side : ConnType) (fails : Bool)
  | checkConn (side : ConnType) (recv : RecvResult) (send : SendResult) (padding : Vector UInt8 3)
  /-- Those whom `e_connConfirmed` has given the connection send something on it. -/
  | more (side : ConnType) (bytes : List UInt8)

/-- What `recv` brings has been sent, comes in order, and there is room for it. It may also
fail, and find the connection closed. -/
def Allowed (l : Link) : Act → Prop
  | .add side _ => (l.endpoint side).added = false
  | .checkConn side recv _ _ => recv.bytes <+: l.inFlight side ∧
      recv.bytes.length ≤ ((l.endpoint side).recvBuf.writeable 0).1.second
  | .more side _ => (l.endpoint side).confirmed ≠ []

instance (l : Link) (act : Act) : Decidable (l.Allowed act) :=
  match act with
  | .add side _ => inferInstanceAs (Decidable ((l.endpoint side).added = false))
  | .checkConn _ _ _ _ => inferInstanceAs (Decidable (_ ∧ _))
  | .more side _ => inferInstanceAs (Decidable ((l.endpoint side).confirmed ≠ []))

def step (l : Link) : Act → Link
  | .add side fails => l.update side ((l.endpoint side).addUncheckedConnection side fails)
  | .checkConn side recv send padding =>
      l.update side ((l.endpoint side).checkConn recv send padding)
  | .more side bytes =>
      l.update side { l.endpoint side with sent := (l.endpoint side).sent ++ bytes }

end Link

def handshake : System Link Link.Act Empty where
  Init l := ∃ outId outNames outSend outRecv inId inNames inSend inRecv,
    l = ⟨.create outId outNames outSend outRecv, .create inId inNames inSend inRecv⟩
  Allowed := Link.Allowed
  step l act := .ok (l.step act)

instance (l : Link) (act : Link.Act) : Decidable (handshake.Allowed l act) :=
  inferInstanceAs (Decidable (l.Allowed act))

namespace Link

variable {l : Link} {side : ConnType} {e : Endpoint}

structure Sound (l : Link) : Prop where
  roles : ∀ side, (l.endpoint side).InRole side
  new : ∀ side, (l.endpoint side).added = false → (l.endpoint side).New
  inOrder : ∀ side, (l.endpoint side).received <+: (l.endpoint side.other).sent

@[simp] theorem endpoint_update_self (l : Link) (side : ConnType) (e : Endpoint) :
    (l.update side e).endpoint side = e := by
  cases side with
  | incoming => rfl
  | outgoing => rfl

@[simp] theorem endpoint_update_other (l : Link) (side : ConnType) (e : Endpoint) :
    (l.update side e).endpoint side.other = l.endpoint side.other := by
  cases side with
  | incoming => rfl
  | outgoing => rfl

@[simp] theorem other_other (side : ConnType) : side.other.other = side := by
  cases side with
  | incoming => rfl
  | outgoing => rfl

theorem eq_or_eq_other (side side' : ConnType) : side' = side ∨ side' = side.other := by
  cases side <;> cases side' <;> simp [ConnType.other]

theorem Sound.update (h : l.Sound) (hrole : e.InRole side) (hnew : e.added = false → e.New)
    (hsent : (l.endpoint side).sent <+: e.sent)
    (hreceived : e.received <+: (l.endpoint side.other).sent) : (l.update side e).Sound := by
  constructor
  · intro side'
    rcases eq_or_eq_other side side' with rfl | rfl
    · rwa [endpoint_update_self]
    · rw [endpoint_update_other]
      exact h.roles _
  · intro side'
    rcases eq_or_eq_other side side' with rfl | rfl
    · rwa [endpoint_update_self]
    · rw [endpoint_update_other]
      exact h.new _
  · intro side'
    rcases eq_or_eq_other side side' with rfl | rfl
    · rwa [endpoint_update_self, endpoint_update_other]
    · rw [endpoint_update_other, other_other, endpoint_update_self]
      have horder := h.inOrder side.other
      rw [other_other] at horder
      exact horder.trans hsent

theorem sound_init {l : Link} (h : handshake.Init l) : l.Sound := by
  obtain ⟨outId, outNames, outSend, outRecv, inId, inNames, inSend, inRecv, rfl⟩ := h
  have hnew : ∀ side, (Link.endpoint ⟨.create outId outNames outSend outRecv,
      .create inId inNames inSend inRecv⟩ side).New := by
    intro side
    cases side with
    | incoming => exact Endpoint.new_create _ _ _ _
    | outgoing => exact Endpoint.new_create _ _ _ _
  refine ⟨fun side => (hnew side).inRole side, fun side _ => hnew side, fun side => ?_⟩
  rw [(hnew side).received]
  exact List.nil_prefix

theorem received_append {received bytes sent : List UInt8} (hreceived : received <+: sent)
    (hbytes : bytes <+: sent.drop received.length) : received ++ bytes <+: sent := by
  obtain ⟨rest, rfl⟩ := hreceived
  rw [List.drop_left] at hbytes
  exact (List.prefix_append_right_inj received).mpr hbytes

theorem Sound.step (h : l.Sound) {act : Act} (hallowed : l.Allowed act) : (l.step act).Sound := by
  cases act with
  | add side fails =>
      have hnew := h.new side hallowed
      have hframe := (l.endpoint side).addUncheckedConnection_frame side fails
      refine h.update (hnew.addUncheckedConnection side fails) ?_ hframe.sent ?_
      · intro hadded
        rw [hframe.added] at hadded
        cases hadded
      · rw [hframe.received_eq]
        exact h.inOrder side
  | checkConn side recv send padding =>
      obtain ⟨hbytes, hfits⟩ := hallowed
      have hframe := (l.endpoint side).advances_checkConn recv send padding
      refine h.update ((h.roles side).checkConn padding hfits) ?_ hframe.sent ?_
      · intro hadded
        rw [hframe.added] at hadded
        rw [Endpoint.checkConn_new (h.new side hadded)]
        exact h.new side hadded
      · rcases hframe.received with heq | heq
        · rw [heq]
          exact h.inOrder side
        · rw [heq]
          exact received_append (h.inOrder side) hbytes
  | more side bytes =>
      refine h.update ((h.roles side).more hallowed bytes) ?_ (List.prefix_append _ _)
        (h.inOrder side)
      intro hadded
      exact absurd (h.new side hadded).confirmed hallowed

theorem sound (h : handshake.Reaches (fun _ _ => True) l) : l.Sound := by
  refine h.invariant (fun _ => sound_init) ?_
  rintro l act l' hl hallowed - hstep
  obtain rfl := Except.ok.inj hstep
  exact hl.step hallowed

theorem length_confirmed_le {e : Endpoint} (h : e.InRole side) : e.confirmed.length ≤ 1 := by
  cases side with
  | incoming =>
      cases h with
      | listening h => simp [h.confirmed]
      | replying info h => simp [h.confirmed]
      | replied info h =>
          rw [h.confirmed]
          split_ifs <;> simp
  | outgoing =>
      rcases h with h | h
      · simp [h.confirmed]
      · rw [h.confirmed]
        split_ifs <;> simp

theorem received_eq {e : Endpoint} (h : e.InRole side) :
    e.received = e.consumed ++ e.recvBuf.readable := by
  cases side with
  | incoming =>
      cases h with
      | listening h => exact h.received
      | replying info h => exact h.received
      | replied info h => exact h.received
  | outgoing =>
      rcases h with h | h
      · rw [h.received, h.consumed, List.nil_append]
      · exact h.received

theorem sent_handshake {e : Endpoint} (h : e.InRole side) :
    e.sent <+: e.handshake ∨ e.handshake <+: e.sent := by
  cases side with
  | incoming =>
      cases h with
      | listening h => exact .inl ⟨_, h.sent.trans h.handshake.symm⟩
      | replying info h => exact .inl ⟨_, h.sent⟩
      | replied info h => exact .inr h.sent
  | outgoing =>
      rcases h with h | h
      · exact .inl ⟨_, h.sent⟩
      · exact .inr h.sent

theorem consumed_prefix_received {e : Endpoint} (h : e.InRole side) : e.consumed <+: e.received :=
  ⟨_, (received_eq h).symm⟩

theorem Sound.replied (h : l.Sound) (hanswered : l.outgoing.Answered) :
    ∃ info, l.incoming.Replied info ∧ l.outgoing.consumed = l.incoming.handshake := by
  have hprefix : l.outgoing.consumed <+: l.incoming.sent :=
    (consumed_prefix_received (h.roles .outgoing)).trans (h.inOrder .outgoing)
  have hlength := hprefix.length_le
  rw [hanswered.consumed] at hlength
  have hincoming : l.incoming.Incoming := h.roles .incoming
  cases hincoming with
  | listening hlistening =>
      have hsent := congrArg List.length hlistening.sent
      rw [List.length_append, List.length_nil, ConnCheckRetMsg.sizeof] at *
      omega
  | replying info hreplying hrest =>
      obtain ⟨padding, hhandshake⟩ := hreplying.handshake
      have hsent := congrArg List.length hreplying.sent
      have hpos := List.length_pos_of_ne_nil hrest
      rw [hhandshake, List.length_append, ConnCheckRetMsg.length_bytes] at hsent
      omega
  | replied info hreplied =>
      obtain ⟨padding, hhandshake⟩ := hreplied.handshake
      refine ⟨info, hreplied, ?_⟩
      have hsame : l.outgoing.consumed.length = l.incoming.handshake.length := by
        rw [hanswered.consumed, hhandshake, ConnCheckRetMsg.length_bytes]
      exact (List.prefix_of_prefix_length_le hprefix hreplied.sent hsame.le).eq_of_length hsame

theorem Sound.asked (h : l.Sound) (hconsumed : l.incoming.consumed.length = ProcessId.sizeof) :
    l.incoming.consumed = l.outgoing.handshake ∧
      l.outgoing.handshake = l.outgoing.processId.bytes := by
  have hprefix : l.incoming.consumed <+: l.outgoing.sent :=
    (consumed_prefix_received (h.roles .incoming)).trans (h.inOrder .incoming)
  have houtgoing : l.outgoing.Outgoing := h.roles .outgoing
  rcases houtgoing with hasking | hanswered
  · have hwritten : l.incoming.consumed <+: l.outgoing.handshake := by
      rw [← hasking.sent]
      exact hprefix.trans (List.prefix_append _ _)
    have hlength := hwritten.length_le
    rcases hasking.handshake with hnone | hhandshake
    · rw [hconsumed, hnone] at hlength
      cases hlength
    · refine ⟨hwritten.eq_of_length ?_, hhandshake⟩
      rw [hconsumed, hhandshake, ProcessId.length_bytes]
  · have hsame : l.incoming.consumed.length = l.outgoing.handshake.length := by
      rw [hconsumed, hanswered.handshake, ProcessId.length_bytes]
    have hwritten := List.prefix_of_prefix_length_le hprefix hanswered.sent hsame.le
    exact ⟨hwritten.eq_of_length hsame, hanswered.handshake⟩

theorem Sound.onlyHandshake (h : l.Sound) (side : ConnType) :
    (l.endpoint side).consumed <+: (l.endpoint side.other).handshake := by
  cases side with
  | incoming =>
      have hread : l.incoming.consumed = [] ∨ l.incoming.consumed.length = ProcessId.sizeof := by
        have hincoming : l.incoming.Incoming := h.roles .incoming
        cases hincoming with
        | listening h => exact h.consumed
        | replying info h => exact .inr h.consumed
        | replied info h => exact .inr h.consumed
      rcases hread with hnone | hlength
      · exact ⟨_, congrArg (· ++ l.outgoing.handshake) hnone⟩
      · exact (h.asked hlength).1 ▸ List.prefix_refl _
  | outgoing =>
      have houtgoing : l.outgoing.Outgoing := h.roles .outgoing
      rcases houtgoing with hasking | hanswered
      · exact ⟨_, congrArg (· ++ l.incoming.handshake) hasking.consumed⟩
      · obtain ⟨info, -, hconsumed⟩ := h.replied hanswered
        exact hconsumed ▸ List.prefix_refl _

theorem Sound.confirmed (h : l.Sound) {id : ProcessId} (hid : id ∈ l.outgoing.confirmed) :
    id = l.incoming.processId ∧ l.outgoing.processId.isValid l.incoming.type2Name = true ∧
      l.outgoing.processId ∈ l.incoming.confirmed := by
  have houtgoing : l.outgoing.Outgoing := h.roles .outgoing
  rcases houtgoing with hasking | hanswered
  · rw [hasking.confirmed] at hid
    cases hid
  · obtain ⟨info, hreplied, hconsumed⟩ := h.replied hanswered
    obtain ⟨padding, hhandshake⟩ := hreplied.handshake
    obtain ⟨hread, hwritten⟩ := h.asked hreplied.consumed
    have hremote : info.remoteId = l.outgoing.processId := by
      rw [hreplied.remoteId, hread, hwritten, ProcessId.read_bytes]
    have hconfirmed := hanswered.confirmed
    rw [hconsumed, hhandshake, ConnCheckRetMsg.resultOf_bytes,
      ConnCheckRetMsg.pidOf_bytes] at hconfirmed
    rw [hconfirmed] at hid
    split_ifs at hid with hresult
    · refine ⟨List.mem_singleton.mp hid, ?_, ?_⟩
      · rw [← hremote, ← hreplied.checkResult]
        exact hresult
      · rw [hreplied.confirmed, if_pos hresult, hremote]
        exact List.mem_singleton_self _
    · cases hid

/-- What is agreed on, and what is done with the bytes that are sent. -/
structure Agreement (l : Link) : Prop where
  confirmed : ∀ id ∈ l.outgoing.confirmed, id = l.incoming.processId ∧
    l.outgoing.processId.isValid l.incoming.type2Name = true ∧
    l.outgoing.processId ∈ l.incoming.confirmed
  once : ∀ side, (l.endpoint side).confirmed.length ≤ 1
  first : ∀ side, (l.endpoint side).sent <+: (l.endpoint side).handshake ∨
    (l.endpoint side).handshake <+: (l.endpoint side).sent
  onlyHandshake : ∀ side, (l.endpoint side).consumed <+: (l.endpoint side.other).handshake
  rest : ∀ side, (l.endpoint side).received =
    (l.endpoint side).consumed ++ (l.endpoint side).recvBuf.readable

/-- Whatever the sockets do, both sides agree on a connection that the outgoing one takes
for confirmed. Either confirms it once, and takes no byte of what comes after the
handshake. -/
theorem agreement (h : handshake.Reaches (fun _ _ => True) l) : l.Agreement where
  confirmed _ := (sound h).confirmed
  once side := length_confirmed_le ((sound h).roles side)
  first side := sent_handshake ((sound h).roles side)
  onlyHandshake := (sound h).onlyHandshake
  rest side := received_eq ((sound h).roles side)

/-- A gateway's connection to a lobby. -/
def setUp : Link where
  outgoing := .create ⟨1, 1⟩ ["none", "gateway", "lobby"] 64 64
  incoming := .create ⟨2, 1⟩ ["none", "gateway", "lobby"] 64 64

/-- The id comes in two pieces, and something else comes right behind the answer. -/
def inPieces : List Act :=
  [.add .outgoing false, .add .incoming false,
    .checkConn .outgoing .again (.sent 5) (.replicate 3 0),
    .checkConn .incoming (.data [1, 0, 0, 0, 1]) .again (.replicate 3 0),
    .checkConn .outgoing .again (.sent 5) (.replicate 3 0),
    .checkConn .incoming (.data [0, 0, 0]) (.sent 20) (.replicate 3 7),
    .more .incoming [9],
    .checkConn .outgoing (.data [2, 0, 0, 0, 1, 0, 0, 0, 1, 7, 7, 7, 9]) .again (.replicate 3 0)]

theorem agreement_inPieces :
    let l := handshake.after setUp inPieces
    l.outgoing.confirmed = [⟨2, 1⟩] ∧ l.incoming.confirmed = [⟨1, 1⟩] ∧
      l.outgoing.recvBuf.readable = [9] ∧ l.Agreement := by
  refine ⟨by decide +kernel, by decide +kernel, by decide +kernel, agreement ?_⟩
  exact System.Reaches.after (.init ⟨_, _, _, _, _, _, _, _, rfl⟩) (by decide +kernel)

end Link

end System

end CasualGame.Base
