import CasualGame.Relay.TcpMessage

/-!
The way of a message from one process to another: the envelope it is put into, the router,
and the manager that takes it out again and calls the handler of its code.
-/

namespace CasualGame.Relay

open Lib.LittleEndian
open Net

/-- What the lobby, the hall and the gateway send to the router. A size that a `uint32_t`
cannot count makes the buffer too short for what is written to it. -/
def relayToPrivate (sourceId : UInt64) (pid : ProcessId) (code : TcpMsgCode)
    (data : List UInt8) : Option TcpPacket :=
  let bufSize := (sizeofEnvelope + data.length) % 2 ^ 32
  if bufSize < sizeofEnvelope + data.length then none
  else
    let envelope : Envelope := { targetPid := pid.value, sourceId := sourceId, msg := ⟨code, data⟩ }
    TcpPacket.setContent envelope.bytes

inductive Routed
  | dropped
  | broadcastPacketToPrivate (processType : UInt32)
  | sendPacketToPrivate (processId : ProcessId)
  deriving DecidableEq

/-- Nothing comes of a packet that is too short for what the router reads. -/
def Router.tcpPacketHandle (packet : TcpPacket) : Option Routed :=
  if packet.size < 4 then some .dropped
  else if packet.content.length < sizeofEnvelope then none
  else
    let receiverId := ProcessId.setValue (Envelope.read packet.content).targetPid
    if receiverId.num = 0 then some (.broadcastPacketToPrivate receiverId.type)
    else some (.sendPacketToPrivate receiverId)

/-- What a manager finds in a packet: the message, and who it is from. -/
structure Received where
  msgCode : TcpMsgCode
  msgData : List UInt8
  theSenderId : UInt64
  deriving DecidableEq

/-- The first part of `dealTcpMsg`, which the managers share. -/
def unwrap (recv : List UInt8) (recvSize : Nat) (senderId : UInt64) : Option Received :=
  if recvSize < sizeofTcpMsg then none
  else
    let msg := TcpMsg.read recv
    if isEnvelopeMsgCode msg.code then
      if recvSize < sizeofEnvelope then none
      else
        let envelope := Envelope.read recv
        some {
          msgCode := envelope.msg.code
          msgData := envelope.msg.data.take (recvSize - sizeofEnvelope)
          theSenderId := envelope.sourceId }
    else
      some {
        msgCode := msg.code
        msgData := msg.data.take (recvSize - sizeofTcpMsg)
        theSenderId := senderId }

/-- A handler that is called, with its code, what it gets and the sender it is told. -/
structure Call (ι : Type) (α : Type) where
  msgCode : TcpMsgCode
  handler : ι
  msg : α
  senderId : UInt64
  deriving DecidableEq

structure RawmsgManager (ι : Type) where
  handlers : TcpMsgCode → Option ι

/-- A descriptor is what its messages are parsed with. -/
structure ProtoManager (ι : Type) (μ : Type) where
  protoDescriptors : TcpMsgCode → Option (List UInt8 → μ)
  handlers : TcpMsgCode → Option ι

variable {ι κ μ : Type}

def RawmsgManager.dealTcpMsg (manager : RawmsgManager ι) (recv : List UInt8) (recvSize : Nat)
    (senderId : UInt64) : Option (Call ι (List UInt8)) := do
  let { msgCode, msgData, theSenderId } ← unwrap recv recvSize senderId
  let handler ← manager.handlers msgCode
  return { msgCode, handler, msg := msgData, senderId := theSenderId }

/-- Whether the message could be parsed is not looked at. -/
def ProtoManager.dealTcpMsg (manager : ProtoManager ι μ) (recv : List UInt8) (recvSize : Nat)
    (senderId : UInt64) : Option (Call ι μ) := do
  let { msgCode, msgData, theSenderId } ← unwrap recv recvSize senderId
  let parseFromArray ← manager.protoDescriptors msgCode
  let handler ← manager.handlers msgCode
  return { msgCode, handler, msg := parseFromArray msgData, senderId := theSenderId }

inductive ManagerType
  | rawmsg | protobuf
  deriving DecidableEq

def managerType (code : TcpMsgCode) : Option ManagerType :=
  if isRawMsgCode code then some .rawmsg
  else if isProtobufMsgCode code then some .protobuf
  else none

/-- The managers of a process. -/
structure Managers (ι κ μ : Type) where
  rawmsg : RawmsgManager ι
  proto : ProtoManager κ μ

inductive Dispatched (ι κ μ : Type)
  | rawmsg (call : Call ι (List UInt8))
  | proto (call : Call κ μ)

/-- `tcpPacketHandle` of the lobby and the hall. -/
def Managers.tcpPacketHandle (managers : Managers ι κ μ) (packet : TcpPacket) (connId : UInt64) :
    Option (Dispatched ι κ μ) :=
  match managerType (TcpMsg.read packet.content).code with
  | some .rawmsg =>
      (managers.rawmsg.dealTcpMsg packet.content packet.contentSize connId).map .rawmsg
  | some .protobuf =>
      (managers.proto.dealTcpMsg packet.content packet.contentSize connId).map .proto
  | none => none

section Encoding

variable {content : List UInt8} {code : TcpMsgCode} {connId : UInt64}

theorem content_encode (content : List UInt8) :
    ({ buf := TcpPacket.encode content } : TcpPacket).content = content := by
  rw [TcpPacket.content, ← List.append_nil (TcpPacket.encode content), drop_head_encode,
    List.append_nil]

theorem size_encode (h : content.length + 4 < 2 ^ 32) :
    ({ buf := TcpPacket.encode content } : TcpPacket).size = content.length + 4 := by
  rw [TcpPacket.size, length_encode, Nat.mod_eq_of_lt h]

theorem contentSize_encode (h : content.length + 4 < 2 ^ 32) :
    ({ buf := TcpPacket.encode content } : TcpPacket).contentSize = content.length := by
  rw [TcpPacket.contentSize, size_encode h, if_neg (by omega)]
  change ofBytes ((TcpPacket.encode content).take 4) = _
  rw [← List.append_nil (TcpPacket.encode content), ofBytes_head_encode content [] h]

theorem unwrap_msg (hcode : isEnvelopeMsgCode code = false) (data : List UInt8)
    (senderId : UInt64) :
    unwrap (TcpMsg.bytes ⟨code, data⟩) (TcpMsg.bytes ⟨code, data⟩).length senderId =
      some ⟨code, data, senderId⟩ := by
  rw [unwrap, if_neg (by rw [TcpMsg.length_bytes]; omega)]
  simp only [TcpMsg.read_bytes, hcode, TcpMsg.length_bytes, Nat.add_sub_cancel_left,
    List.take_length]
  rw [if_neg Bool.false_ne_true]

theorem unwrap_envelope (envelope : Envelope) (senderId : UInt64) :
    unwrap envelope.bytes envelope.bytes.length senderId =
      some ⟨envelope.msg.code, envelope.msg.data, envelope.sourceId⟩ := by
  rw [unwrap, if_neg (by rw [Envelope.length_bytes, sizeofEnvelope, sizeofTcpMsg]; omega)]
  simp only [Envelope.code_read_bytes, isEnvelopeMsgCode_code, if_true, Envelope.length_bytes,
    Envelope.read_bytes, Nat.add_sub_cancel_left, List.take_length]
  rw [if_neg (by omega)]

theorem managerType_envelope (envelope : Envelope) :
    managerType envelope.code = managerType envelope.msg.code := by
  rw [managerType, managerType, isRawMsgCode, isRawMsgCode, isProtobufMsgCode, isProtobufMsgCode,
    code_and_protocolType]

end Encoding

section RoundTrip

variable {sourceId connId : UInt64} {target : ProcessId} {code : TcpMsgCode} {data : List UInt8}
  {packet bare : TcpPacket}

/-- What a process does with a message depends on nothing but what is in it. -/
theorem Managers.tcpPacketHandle_congr (managers : Managers ι κ μ) {connId' : UInt64}
    (htype : managerType (TcpMsg.read packet.content).code =
      managerType (TcpMsg.read bare.content).code)
    (hunwrap : unwrap packet.content packet.contentSize connId =
      unwrap bare.content bare.contentSize connId') :
    managers.tcpPacketHandle packet connId = managers.tcpPacketHandle bare connId' := by
  rw [tcpPacketHandle, tcpPacketHandle, htype, RawmsgManager.dealTcpMsg, RawmsgManager.dealTcpMsg,
    ProtoManager.dealTcpMsg, ProtoManager.dealTcpMsg, hunwrap]

/-- The packet of the message itself. -/
def barePacket (code : TcpMsgCode) (data : List UInt8) : TcpPacket where
  buf := TcpPacket.encode (TcpMsg.bytes ⟨code, data⟩)

def envelopePacket (envelope : Envelope) : TcpPacket where
  buf := TcpPacket.encode envelope.bytes

/-- A relayed message is as good as the message itself: the router finds the process it is
for, and there the manager of its protocol finds the message and who it is from, so that the
process does with it what it would do with the message from a connection with the id of the
source. -/
structure Relayed (sourceId : UInt64) (target : ProcessId) (code : TcpMsgCode)
    (data : List UInt8) (packet : TcpPacket) : Prop where
  routed : Router.tcpPacketHandle packet = some (.sendPacketToPrivate target)
  manager : managerType (TcpMsg.read packet.content).code =
    managerType (TcpMsg.read (barePacket code data).content).code
  managed : (managerType (TcpMsg.read packet.content).code).isSome
  received : ∀ connId, unwrap packet.content packet.contentSize connId =
    some ⟨code, data, sourceId⟩
  handled : ∀ (ι κ μ : Type) (managers : Managers ι κ μ) connId,
    managers.tcpPacketHandle packet connId =
      managers.tcpPacketHandle (barePacket code data) sourceId

theorem isEnvelopeMsgCode_of_access (haccess : isPublicMsgCode code ∨ isPrivateMsgCode code) :
    isEnvelopeMsgCode code = false := by
  apply decide_eq_false
  intro henvelope
  rcases haccess with hpublic | hprivate
  · exact absurd ((of_decide_eq_true hpublic).symm.trans henvelope) (by decide)
  · exact absurd ((of_decide_eq_true hprivate).symm.trans henvelope) (by decide)

theorem isSome_managerType (hprotocol : isRawMsgCode code ∨ isProtobufMsgCode code) :
    (managerType code).isSome := by
  rw [managerType]
  rcases hprotocol with hraw | hprotobuf
  · rw [if_pos hraw]
    rfl
  · split_ifs <;> rfl

theorem relayToPrivate_eq (hsize : data.length + 24 < 2 ^ 32) :
    relayToPrivate sourceId target code data =
      some (envelopePacket { targetPid := target.value, sourceId, msg := ⟨code, data⟩ }) := by
  rw [relayToPrivate, sizeofEnvelope, Nat.mod_eq_of_lt (by omega), if_neg (Nat.lt_irrefl _)]
  apply setContent_eq
  rw [Envelope.length_bytes, sizeofEnvelope]
  dsimp only
  omega

theorem relayToPrivate_relayed (htype : target.type.toNat < 256) (hnum : target.num.toNat < 256)
    (hzero : target.num ≠ 0) (haccess : isPublicMsgCode code ∨ isPrivateMsgCode code)
    (hprotocol : isRawMsgCode code ∨ isProtobufMsgCode code)
    (hsize : data.length + 24 < 2 ^ 32) :
    ∃ packet, relayToPrivate sourceId target code data = some packet ∧
      Relayed sourceId target code data packet := by
  let envelope : Envelope := { targetPid := target.value, sourceId, msg := ⟨code, data⟩ }
  have hlength : envelope.bytes.length = 20 + data.length := envelope.length_bytes
  have hfits : envelope.bytes.length + 4 < 2 ^ 32 := by omega
  have hbare : (TcpMsg.bytes ⟨code, data⟩).length + 4 < 2 ^ 32 := by
    rw [TcpMsg.length_bytes, sizeofTcpMsg]
    dsimp only
    omega
  have hread : managerType (TcpMsg.read envelope.bytes).code = managerType code := by
    rw [Envelope.code_read_bytes]
    exact managerType_envelope envelope
  have hunwrap : ∀ connId, unwrap envelope.bytes envelope.bytes.length connId =
      some ⟨code, data, sourceId⟩ := unwrap_envelope envelope
  have hmanager : managerType (TcpMsg.read (envelopePacket envelope).content).code =
      managerType (TcpMsg.read (barePacket code data).content).code := by
    rw [envelopePacket, content_encode, barePacket, content_encode, TcpMsg.read_bytes, hread]
  refine ⟨_, relayToPrivate_eq hsize, ?_, hmanager, ?_, ?_, ?_⟩
  · rw [Router.tcpPacketHandle, envelopePacket, size_encode hfits, content_encode,
      if_neg (by omega), if_neg (by rw [hlength, sizeofEnvelope]; omega), Envelope.read_bytes,
      setValue_value htype hnum, if_neg hzero]
  · rw [envelopePacket, content_encode, hread]
    exact isSome_managerType hprotocol
  · intro connId
    rw [envelopePacket, content_encode, contentSize_encode hfits]
    exact hunwrap connId
  · intro ι κ μ managers connId
    refine managers.tcpPacketHandle_congr hmanager ?_
    rw [envelopePacket, barePacket, content_encode, content_encode, contentSize_encode hfits,
      contentSize_encode hbare, hunwrap, unwrap_msg (isEnvelopeMsgCode_of_access haccess)]

theorem relayToPrivate_relayed_short :
    ∃ packet, relayToPrivate 7 ⟨2, 1⟩ 16 [8, 3] = some packet ∧
      Relayed 7 ⟨2, 1⟩ 16 [8, 3] packet :=
  relayToPrivate_relayed (by decide) (by decide) (by decide) (Or.inl (by decide))
    (Or.inr (by decide)) (by decide)

/-- The size of the envelope can still be counted, that of the packet cannot. -/
theorem relayToPrivate_overruns :
    ¬ ∀ (sourceId : UInt64) (target : ProcessId) (code : TcpMsgCode) (data : List UInt8),
      target.type.toNat < 256 → target.num.toNat < 256 → target.num ≠ 0 →
      isPublicMsgCode code ∨ isPrivateMsgCode code → isRawMsgCode code ∨ isProtobufMsgCode code →
      ∃ packet, relayToPrivate sourceId target code data = some packet ∧
        Relayed sourceId target code data packet := by
  intro h
  obtain ⟨data, hdata⟩ : ∃ data : List UInt8, data.length = 2 ^ 32 - 24 :=
    ⟨List.replicate _ 0, List.length_replicate⟩
  obtain ⟨packet, hsent, -⟩ := h 7 ⟨2, 1⟩ 16 data (by decide) (by decide) (by decide)
    (Or.inl (by decide)) (Or.inr (by decide))
  rw [relayToPrivate, hdata, sizeofEnvelope, if_neg (by omega), TcpPacket.setContent,
    Envelope.length_bytes, hdata, sizeofEnvelope, if_pos (by omega)] at hsent
  exact absurd hsent (Option.some_ne_none packet).symm

end RoundTrip

end CasualGame.Relay
