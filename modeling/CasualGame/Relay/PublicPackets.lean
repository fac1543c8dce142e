import CasualGame.Relay.Gateway

/-!
What the gateway does with the packets of a client, whatever is in them.
-/

namespace CasualGame.Relay.Gateway

open Net

variable {ι κ μ : Type} {gmFirst : Bool} {lobbyPid : ProcessId} {lib : Protobuf μ}
  {content : List UInt8} {connId : UInt64}

/-- A handler that a client may call, is told which client it is, and passes that on. -/
def Proper (lib : Protobuf μ) (connId : UInt64) : Dispatched Empty Handler μ → Prop
  | .rawmsg call => isPublicMsgCode call.msgCode ∧ call.senderId = connId
  | .proto call => isPublicMsgCode call.msgCode ∧ call.senderId = connId ∧
      ∀ packet, relayToServer lib call = some packet →
        (Envelope.read packet.content).sourceId = connId

/-- The messages with a handler that are not for clients. -/
def handledPrivate : List MsgName := [.ofPrivate .retLoginQuest, .ofPrivate .clientBeReplaced]

/-- A packet that calls a handler which is not for clients, or in the name of someone
else. The code of the packet is one of protobuf, and when it is one of an envelope then
the code and the sender in the envelope count. -/
def Forges (gmFirst : Bool) (content : List UInt8) (connId : UInt64) : Prop :=
  let msg := TcpMsg.read content
  let envelope := Envelope.read content
  isProtobufMsgCode msg.code ∧
    if isEnvelopeMsgCode msg.code then
      sizeofEnvelope ≤ content.length ∧
        ((∃ name ∈ handledPrivate, name.code gmFirst = envelope.msg.code) ∨
          (∃ name ∈ handled, name.code gmFirst = envelope.msg.code) ∧
            envelope.sourceId ≠ connId)
    else
      sizeofTcpMsg ≤ content.length ∧ ∃ name ∈ handledPrivate, name.code gmFirst = msg.code

section Dealing

variable {manager : ProtoManager κ μ} {recv : List UInt8} {recvSize : Nat} {call : Call κ μ}

theorem dealTcpMsg_eq_some :
    manager.dealTcpMsg recv recvSize connId = some call ↔
      ∃ received parseFromArray handler, unwrap recv recvSize connId = some received ∧
        manager.protoDescriptors received.msgCode = some parseFromArray ∧
        manager.handlers received.msgCode = some handler ∧
        call = {
          msgCode := received.msgCode
          handler := handler
          msg := parseFromArray received.msgData
          senderId := received.theSenderId } := by
  simp only [ProtoManager.dealTcpMsg, Option.bind_eq_bind, Option.bind_eq_some_iff, Option.pure_def,
    Option.some.injEq, eq_comm (b := call)]
  constructor
  · rintro ⟨received, hunwrap, parseFromArray, hparse, handler, hhandler, hcall⟩
    exact ⟨received, parseFromArray, handler, hunwrap, hparse, hhandler, hcall⟩
  · rintro ⟨received, parseFromArray, handler, hunwrap, hparse, hhandler, hcall⟩
    exact ⟨received, hunwrap, parseFromArray, hparse, handler, hhandler, hcall⟩

theorem unwrap_plain (connId : UInt64)
    (h : isEnvelopeMsgCode (TcpMsg.read content).code = false)
    (hlength : sizeofTcpMsg ≤ content.length) :
    ∃ msgData, unwrap content content.length connId =
      some ⟨(TcpMsg.read content).code, msgData, connId⟩ := by
  refine ⟨(TcpMsg.read content).data.take (content.length - sizeofTcpMsg), ?_⟩
  rw [unwrap, if_neg (Nat.not_lt_of_ge hlength)]
  dsimp only
  rw [h, if_neg Bool.false_ne_true]

theorem unwrap_opened (connId : UInt64)
    (h : isEnvelopeMsgCode (TcpMsg.read content).code = true)
    (hlength : sizeofEnvelope ≤ content.length) :
    ∃ msgData, unwrap content content.length connId =
      some ⟨(Envelope.read content).msg.code, msgData, (Envelope.read content).sourceId⟩ := by
  have hmsg : sizeofTcpMsg ≤ content.length := Nat.le_trans (by decide) hlength
  refine ⟨(Envelope.read content).msg.data.take (content.length - sizeofEnvelope), ?_⟩
  rw [unwrap, if_neg (Nat.not_lt_of_ge hmsg)]
  dsimp only
  rw [if_pos h, if_neg (Nat.not_lt_of_ge hlength)]

theorem unwrap_short (h : unwrap content content.length connId ≠ none) :
    sizeofTcpMsg ≤ content.length ∧
      (isEnvelopeMsgCode (TcpMsg.read content).code = true → sizeofEnvelope ≤ content.length) := by
  rw [unwrap] at h
  dsimp only at h
  split_ifs at h with hmsg henvelope hshort
  · exact absurd rfl h
  · exact absurd rfl h
  · exact ⟨Nat.le_of_not_lt hmsg, fun _ => Nat.le_of_not_lt hshort⟩
  · exact ⟨Nat.le_of_not_lt hmsg, fun hcode => absurd hcode henvelope⟩

end Dealing

theorem tcpPacketHandle_eq_some (hsize : content.length + 4 < 2 ^ 32)
    {dispatched : Dispatched Empty Handler μ} :
    tcpPacketHandle gmFirst lobbyPid lib { buf := TcpPacket.encode content } connId =
        some dispatched ↔
      ∃ call, dispatched = .proto call ∧ isProtobufMsgCode (TcpMsg.read content).code = true ∧
        (managers gmFirst lobbyPid lib).proto.dealTcpMsg content content.length connId =
          some call := by
  have hraw : ∀ recv recvSize, (managers gmFirst lobbyPid lib).rawmsg.dealTcpMsg recv recvSize
      connId = none := by
    intro recv recvSize
    rw [RawmsgManager.dealTcpMsg]
    cases unwrap recv recvSize connId <;> rfl
  rw [tcpPacketHandle, contentSize_encode hsize, Managers.tcpPacketHandle, content_encode,
    contentSize_encode hsize, managerType, hraw]
  constructor
  · intro h
    split_ifs at h with hshort hrawCode hprotobuf
    · exact absurd h (Option.some_ne_none _).symm
    · obtain ⟨call, hcall, rfl⟩ := Option.map_eq_some_iff.mp h
      exact ⟨call, rfl, hprotobuf, hcall⟩
  · rintro ⟨call, rfl, hprotobuf, hcall⟩
    obtain ⟨received, -, -, hunwrap, -⟩ := dealTcpMsg_eq_some.mp hcall
    have hlength := unwrap_short (by rw [hunwrap]; exact Option.some_ne_none received)
    have hnotRaw : ¬ isRawMsgCode (TcpMsg.read content).code = true := by
      intro hrawCode
      have hbits := (of_decide_eq_true hprotobuf).symm.trans (of_decide_eq_true hrawCode)
      exact absurd hbits (by decide)
    rw [if_neg (Nat.not_lt_of_ge hlength.1), if_neg hnotRaw, if_pos hprotobuf]
    dsimp only
    rw [hcall, Option.map_some]

theorem relayToServer_sourceId {call : Call Handler μ} {packet : TcpPacket}
    (h : relayToServer lib call = some packet) :
    (Envelope.read packet.content).sourceId = call.senderId := by
  rw [relayToServer] at h
  split at h
  · obtain ⟨data, -, hsent⟩ := Option.bind_eq_some_iff.mp h
    rw [relayToPrivate, TcpPacket.setContent] at hsent
    split_ifs at hsent
    obtain rfl := Option.some.inj hsent
    rw [content_encode, Envelope.read_bytes]
  · exact absurd h (Option.some_ne_none _).symm

theorem handled_public (gmFirst : Bool) {name : MsgName} (hname : name ∈ handled) :
    name ∈ handledPrivate ∨ isPublicMsgCode (name.code gmFirst) = true := by
  cases name with
  | ofPublic name => exact Or.inr (isPublicMsgCode_code gmFirst name)
  | ofPrivate name =>
      left
      cases name with
      | loginQuest => exact absurd hname (by decide)
      | retLoginQuest => exact List.mem_cons_self
      | clientBeReplaced => exact List.mem_cons_of_mem _ List.mem_cons_self
      | ping => exact absurd hname (by decide)
      | pong => exact absurd hname (by decide)

theorem not_public_of_private {name : MsgName} (hname : name ∈ handledPrivate) :
    isPublicMsgCode (name.code gmFirst) = false := by
  cases gmFirst <;> revert name <;> decide

/-- What is called depends on the code and the sender that the manager finds. -/
theorem proper_iff_received (hsize : content.length + 4 < 2 ^ 32) :
    (∀ dispatched,
      tcpPacketHandle gmFirst lobbyPid lib { buf := TcpPacket.encode content } connId =
        some dispatched → Proper lib connId dispatched) ↔
      (isProtobufMsgCode (TcpMsg.read content).code = true →
        ∀ received, unwrap content content.length connId = some received →
          (∃ name ∈ handled, name.code gmFirst = received.msgCode) →
            isPublicMsgCode received.msgCode = true ∧ received.theSenderId = connId) := by
  constructor
  · rintro h hprotobuf received hunwrap ⟨name, hname, hcode⟩
    have hsome : ((managers gmFirst lobbyPid lib).proto.handlers received.msgCode).isSome :=
      handlers_isSome.mpr ⟨name, hname, hcode⟩
    obtain ⟨handler, hhandler⟩ := Option.isSome_iff_exists.mp hsome
    have hparse := descriptor_eq gmFirst lobbyPid lib name
    rw [hcode] at hparse
    have hproper := h _ ((tcpPacketHandle_eq_some hsize).mpr ⟨_, rfl, hprotobuf,
      dealTcpMsg_eq_some.mpr ⟨received, _, handler, hunwrap, hparse, hhandler, rfl⟩⟩)
    exact ⟨hproper.1, hproper.2.1⟩
  · intro h dispatched hdispatched
    obtain ⟨call, rfl, hprotobuf, hcall⟩ := (tcpPacketHandle_eq_some hsize).mp hdispatched
    obtain ⟨received, parseFromArray, handler, hunwrap, -, hhandler, rfl⟩ :=
      dealTcpMsg_eq_some.mp hcall
    obtain ⟨hpublic, hsender⟩ := h hprotobuf received hunwrap
      (handlers_isSome.mp (Option.isSome_iff_exists.mpr ⟨handler, hhandler⟩))
    exact ⟨hpublic, hsender, fun packet hsent => (relayToServer_sourceId hsent).trans hsender⟩

/-- A client can neither call a handler that is not for clients nor call one in the name of
someone else, exactly as long as its packet does not try to. -/
theorem tcpPacketHandle_proper_iff (hsize : content.length + 4 < 2 ^ 32) :
    (∀ dispatched,
      tcpPacketHandle gmFirst lobbyPid lib { buf := TcpPacket.encode content } connId =
        some dispatched → Proper lib connId dispatched) ↔
      ¬ Forges gmFirst content connId := by
  have hprivate : ∀ name ∈ handledPrivate, name ∈ handled := by decide
  rw [proper_iff_received hsize]
  constructor
  · rintro h ⟨hprotobuf, hforges⟩
    have hreceived := h hprotobuf
    cases henvelope : isEnvelopeMsgCode (TcpMsg.read content).code with
    | true =>
        rw [if_pos henvelope] at hforges
        obtain ⟨hlength, hforges⟩ := hforges
        obtain ⟨msgData, hunwrap⟩ := unwrap_opened connId henvelope hlength
        rcases hforges with ⟨name, hname, hcode⟩ | ⟨hhandled, hsource⟩
        · obtain ⟨hpublic, -⟩ := hreceived _ hunwrap ⟨name, hprivate name hname, hcode⟩
          rw [← hcode, not_public_of_private hname] at hpublic
          exact Bool.false_ne_true hpublic
        · exact hsource (hreceived _ hunwrap hhandled).2
    | false =>
        rw [henvelope, if_neg Bool.false_ne_true] at hforges
        obtain ⟨hlength, name, hname, hcode⟩ := hforges
        obtain ⟨msgData, hunwrap⟩ := unwrap_plain connId henvelope hlength
        obtain ⟨hpublic, -⟩ := hreceived _ hunwrap ⟨name, hprivate name hname, hcode⟩
        rw [← hcode, not_public_of_private hname] at hpublic
        exact Bool.false_ne_true hpublic
  · rintro hforges hprotobuf received hunwrap ⟨name, hname, hcode⟩
    obtain ⟨hlength, hopened⟩ := unwrap_short (by rw [hunwrap]; exact Option.some_ne_none received)
    have hpublic := handled_public gmFirst hname
    rw [hcode] at hpublic
    cases henvelope : isEnvelopeMsgCode (TcpMsg.read content).code with
    | true =>
        obtain ⟨msgData, hfound⟩ := unwrap_opened connId henvelope (hopened henvelope)
        obtain rfl := Option.some.inj (hfound.symm.trans hunwrap)
        have hnot : ¬ ((∃ name ∈ handledPrivate,
              name.code gmFirst = (Envelope.read content).msg.code) ∨
            (∃ name ∈ handled, name.code gmFirst = (Envelope.read content).msg.code) ∧
              (Envelope.read content).sourceId ≠ connId) := by
          intro hforged
          refine hforges ⟨hprotobuf, ?_⟩
          rw [if_pos henvelope]
          exact ⟨hopened henvelope, hforged⟩
        refine ⟨hpublic.resolve_left fun hname => hnot (Or.inl ⟨name, hname, hcode⟩), ?_⟩
        by_contra hsource
        exact hnot (Or.inr ⟨⟨name, hname, hcode⟩, hsource⟩)
    | false =>
        obtain ⟨msgData, hfound⟩ := unwrap_plain connId henvelope hlength
        obtain rfl := Option.some.inj (hfound.symm.trans hunwrap)
        refine ⟨hpublic.resolve_left fun hname => hforges ⟨hprotobuf, ?_⟩, rfl⟩
        rw [if_neg (by rw [henvelope]; exact Bool.false_ne_true)]
        exact ⟨hlength, name, hname, hcode⟩

/-- Messages as the bytes that they are serialised to. -/
def serialised : Protobuf (List UInt8) where
  parseFromArray _ bytes := bytes
  serializeToArray := some

theorem tcpPacketHandle_proper_iff_chat :
    (∀ dispatched,
      tcpPacketHandle false ⟨3, 1⟩ serialised
        { buf := TcpPacket.encode (TcpMsg.bytes ⟨4, [8, 0]⟩) } 7 = some dispatched →
          Proper serialised 7 dispatched) ↔
      ¬ Forges false (TcpMsg.bytes ⟨4, [8, 0]⟩) 7 :=
  tcpPacketHandle_proper_iff (by decide)

/-- A message to the room of client `99`, in an envelope, from client `7`. -/
def impostor : Envelope where
  targetPid := 0
  sourceId := 99
  msg := ⟨4, [8, 0]⟩

theorem tcpPacketHandle_forged :
    ¬ ∀ (gmFirst : Bool) (lobbyPid : ProcessId) (content : List UInt8) (connId : UInt64),
      content.length + 4 < 2 ^ 32 →
      ∀ dispatched, tcpPacketHandle gmFirst lobbyPid serialised
        { buf := TcpPacket.encode content } connId = some dispatched →
          Proper serialised connId dispatched := by
  intro h
  have hsize : impostor.bytes.length + 4 < 2 ^ 32 := by decide
  have hreceived := (proper_iff_received hsize).mp (h false ⟨3, 1⟩ impostor.bytes 7 hsize)
  obtain ⟨-, hsender⟩ := hreceived (by decide) _ (unwrap_envelope impostor 7)
    ⟨.ofPublic .cSendChat, by decide, by decide⟩
  exact absurd hsender (by decide)

end CasualGame.Relay.Gateway
