import Mathlib.Data.List.GetD
import CasualGame.Lib.Reads
import CasualGame.Relay.Routing

/-!
What the router, the lobby and the hall read of a packet: the handlers once more, as
programs that read behind the pointer `content()` gives, which may run past the content.
-/

namespace CasualGame.Relay

open Lib
open Lib.Reads
open Net

def readUInt32At (offset : Nat) : Reads UInt32 := do
  let bytes ← Reads.bytes offset 4
  return readUInt32 bytes

def readUInt64At (offset : Nat) : Reads UInt64 := do
  let bytes ← Reads.bytes offset 8
  return readUInt64 bytes

/-- The code of the message is read for the log only. -/
def Router.readPacket (packet : TcpPacket) : Reads Routed :=
  if packet.size < 4 then return .dropped
  else do
    let targetPid ← readUInt32At 4
    let receiverId := ProcessId.setValue targetPid
    let _msgCode ← readUInt32At 16
    if receiverId.num = 0 then return .broadcastPacketToPrivate receiverId.type
    else return .sendPacketToPrivate receiverId

/-- A message before its data is read: that is `msgDataSize` bytes at `msgData`. -/
structure Located where
  msgCode : TcpMsgCode
  msgData : Nat
  msgDataSize : Nat
  theSenderId : UInt64

/-- The first part of `dealTcpMsg`, which the managers share. -/
def locate (recvSize : Nat) (senderId : UInt64) : Reads (Option Located) :=
  if recvSize < sizeofTcpMsg then return none
  else do
    let code ← readUInt32At 0
    if isEnvelopeMsgCode code then
      if recvSize < sizeofEnvelope then return none
      else
        let msgCode ← readUInt32At 16
        let sourceId ← readUInt64At 8
        return some ⟨msgCode, sizeofEnvelope, recvSize - sizeofEnvelope, sourceId⟩
    else return some ⟨code, sizeofTcpMsg, recvSize - sizeofTcpMsg, senderId⟩

variable {ι κ μ : Type}

def RawmsgManager.readTcpMsg (manager : RawmsgManager ι) (recvSize : Nat) (senderId : UInt64) :
    Reads (Option (Call ι (List UInt8))) := do
  match ← locate recvSize senderId with
  | none => return none
  | some located =>
      match manager.handlers located.msgCode with
      | none => return none
      | some handler =>
          let msgData ← Reads.bytes located.msgData located.msgDataSize
          return some ⟨located.msgCode, handler, msgData, located.theSenderId⟩

/-- The data is not looked at before the descriptor and the handler have been found. -/
def ProtoManager.readTcpMsg (manager : ProtoManager ι μ) (recvSize : Nat) (senderId : UInt64) :
    Reads (Option (Call ι μ)) := do
  match ← locate recvSize senderId with
  | none => return none
  | some located =>
      match manager.protoDescriptors located.msgCode, manager.handlers located.msgCode with
      | some parseFromArray, some handler =>
          let msgData ← Reads.bytes located.msgData located.msgDataSize
          return some ⟨located.msgCode, handler, parseFromArray msgData, located.theSenderId⟩
      | _, _ => return none

/-- `tcpPacketHandle` of the lobby and the hall, which looks at the code before anything
else. -/
def Managers.readPacket (managers : Managers ι κ μ) (packet : TcpPacket) (connId : UInt64) :
    Reads (Option (Dispatched ι κ μ)) := do
  let code ← readUInt32At 0
  if isRawMsgCode code then
    let call ← managers.rawmsg.readTcpMsg packet.contentSize connId
    return call.map .rawmsg
  else if isProtobufMsgCode code then
    let call ← managers.proto.readTcpMsg packet.contentSize connId
    return call.map .proto
  else return none

/-- The processes that take packets from other processes. -/
inductive Receiver
  | router | lobby | hall

/-- What comes of a packet. -/
inductive Handled (ι κ μ : Type)
  | ignored
  | relayed (routed : Routed)
  | dispatched (message : Dispatched ι κ μ)

def Handled.ofRouted : Routed → Handled ι κ μ
  | .dropped => .ignored
  | routed => .relayed routed

def Handled.ofDispatched : Option (Dispatched ι κ μ) → Handled ι κ μ
  | none => .ignored
  | some message => .dispatched message

/-- `Lobby::tcpPacketHandle`. -/
def lobbyTcpPacketHandle (managers : Managers ι κ μ) (packet : TcpPacket) (connId : UInt64) :
    Reads (Handled ι κ μ) := do
  let message ← managers.readPacket packet connId
  return .ofDispatched message

/-- `Hall::tcpPacketHandle`, which is the same lines again. -/
def hallTcpPacketHandle (managers : Managers ι κ μ) (packet : TcpPacket) (connId : UInt64) :
    Reads (Handled ι κ μ) :=
  lobbyTcpPacketHandle managers packet connId

def Receiver.tcpPacketHandle (receiver : Receiver) (managers : Managers ι κ μ)
    (packet : TcpPacket) (connId : UInt64) : Reads (Handled ι κ μ) :=
  match receiver with
  | .router => do
      let routed ← Router.readPacket packet
      return .ofRouted routed
  | .lobby => lobbyTcpPacketHandle managers packet connId
  | .hall => hallTcpPacketHandle managers packet connId

/-- The memory `content()` points to: the content, and whatever there is beyond it. -/
def memoryOf (packet : TcpPacket) (beyond : Nat → UInt8) (i : Nat) : UInt8 :=
  packet.content.getD i (beyond i)

/-- The content is shorter than what it is taken for: the router takes every packet for an
envelope, the others those that say so. -/
def TooShort (receiver : Receiver) (packet : TcpPacket) : Prop :=
  match receiver with
  | .router => packet.contentSize < sizeofEnvelope
  | .lobby | .hall => packet.contentSize < sizeofTcpMsg ∨
      (isEnvelopeMsgCode (TcpMsg.read packet.content).code = true ∧
        packet.contentSize < sizeofEnvelope)

/-- Nothing is read outside of the content, and a packet that is too short comes to nothing. -/
structure StaysInside (receiver : Receiver) (managers : Managers ι κ μ) (packet : TcpPacket)
    (beyond : Nat → UInt8) (connId : UInt64) : Prop where
  inside : Within (memoryOf packet beyond) packet.contentSize
    (receiver.tcpPacketHandle managers packet connId)
  ignored : TooShort receiver packet →
    run (memoryOf packet beyond) (receiver.tcpPacketHandle managers packet connId) = .ignored

/-- What a receiver reads before it looks at the size of the content. -/
def Receiver.least : Receiver → Nat
  | .router => sizeofEnvelope
  | .lobby | .hall => sizeofTcpMsg

section Reading

variable {packet : TcpPacket} {beyond : Nat → UInt8} {connId senderId : UInt64} {n offset : Nat}
  {memory : Nat → UInt8} {content : List UInt8}

@[simp] theorem within_readUInt32At : Within memory n (readUInt32At offset) ↔ offset + 4 ≤ n := by
  simp [readUInt32At]

@[simp] theorem within_readUInt64At : Within memory n (readUInt64At offset) ↔ offset + 8 ≤ n := by
  simp [readUInt64At]

theorem contentSize_le (hcomplete : packet.complete = true) :
    packet.contentSize ≤ packet.content.length ∧ ¬ packet.size < 4 := by
  rw [TcpPacket.complete, decide_eq_true_eq] at hcomplete
  have hsize : packet.size ≤ packet.buf.length := Nat.mod_le _ _
  rw [TcpPacket.content, List.length_drop]
  omega

theorem startsWith_memoryOf (packet : TcpPacket) (beyond : Nat → UInt8) :
    StartsWith (memoryOf packet beyond) packet.content := by
  intro i hi
  rw [memoryOf, List.getD_eq_getElem _ _ hi]

theorem run_readUInt32At (h : StartsWith memory content) (hfits : offset + 4 ≤ content.length) :
    run memory (readUInt32At offset) = readUInt32 (content.drop offset) := by
  rw [readUInt32At, run_bind, run_bytes, run_pure, h.load_eq hfits, readUInt32, List.take_take,
    Nat.min_self, readUInt32]

theorem run_readUInt64At (h : StartsWith memory content) (hfits : offset + 8 ≤ content.length) :
    run memory (readUInt64At offset) = readUInt64 (content.drop offset) := by
  rw [readUInt64At, run_bind, run_bytes, run_pure, h.load_eq hfits, readUInt64, List.take_take,
    Nat.min_self, readUInt64]

theorem within_locate {recvSize : Nat} (h : recvSize ≤ n) :
    Within memory n (locate recvSize senderId) := by
  rcases Nat.lt_or_ge recvSize sizeofTcpMsg with hmsg | hmsg
  · rw [locate, if_pos hmsg]
    exact within_pure
  · rw [locate, if_neg (Nat.not_lt_of_ge hmsg), within_bind, within_readUInt32At]
    rw [sizeofTcpMsg] at hmsg
    refine ⟨by omega, ?_⟩
    split_ifs with henvelope hshort
    · exact within_pure
    · rw [sizeofEnvelope] at hshort
      simp only [within_bind, within_readUInt32At, within_readUInt64At, within_pure, and_true]
      omega
    · exact within_pure

/-- The data that is located goes up to the end of what was received. -/
theorem located_end {recvSize : Nat} {located : Located}
    (h : run memory (locate recvSize senderId) = some located) :
    located.msgData + located.msgDataSize = recvSize := by
  rcases Nat.lt_or_ge recvSize sizeofTcpMsg with hmsg | hmsg
  · rw [locate, if_pos hmsg] at h
    cases h
  · rw [locate, if_neg (Nat.not_lt_of_ge hmsg), run_bind] at h
    split_ifs at h with henvelope hshort
    · cases h
    · simp only [run_bind, run_pure, Option.some.injEq] at h
      subst h
      exact Nat.add_sub_cancel' (Nat.le_of_not_lt hshort)
    · simp only [run_pure, Option.some.injEq] at h
      subst h
      exact Nat.add_sub_cancel' hmsg

theorem within_readTcpMsg {recvSize : Nat} (manager : RawmsgManager ι) (h : recvSize ≤ n) :
    Within memory n (manager.readTcpMsg recvSize senderId) := by
  rw [RawmsgManager.readTcpMsg, within_bind]
  refine ⟨within_locate h, ?_⟩
  cases hlocated : run memory (locate recvSize senderId) with
  | none => exact within_pure
  | some located =>
      have hend := located_end hlocated
      dsimp only
      cases manager.handlers located.msgCode with
      | none => exact within_pure
      | some handler =>
          simp only [within_bind, within_bytes, within_pure, and_true]
          omega

theorem within_readProtoMsg {recvSize : Nat} (manager : ProtoManager ι μ) (h : recvSize ≤ n) :
    Within memory n (manager.readTcpMsg recvSize senderId) := by
  rw [ProtoManager.readTcpMsg, within_bind]
  refine ⟨within_locate h, ?_⟩
  cases hlocated : run memory (locate recvSize senderId) with
  | none => exact within_pure
  | some located =>
      have hend := located_end hlocated
      dsimp only
      split
      · simp only [within_bind, within_bytes, within_pure, and_true]
        omega
      · exact within_pure

theorem within_readPacket (managers : Managers ι κ μ) :
    Within memory packet.contentSize (managers.readPacket packet connId) ↔
      sizeofTcpMsg ≤ packet.contentSize := by
  rw [Managers.readPacket, within_bind, within_readUInt32At, Nat.zero_add]
  refine and_iff_left_of_imp fun h => ?_
  split_ifs
  · rw [within_bind]
    exact ⟨within_readTcpMsg _ le_rfl, within_pure⟩
  · rw [within_bind]
    exact ⟨within_readProtoMsg _ le_rfl, within_pure⟩
  · exact within_pure

theorem within_routerReadPacket (hcomplete : packet.complete = true) :
    Within memory packet.contentSize (Router.readPacket packet) ↔
      sizeofEnvelope ≤ packet.contentSize := by
  rw [Router.readPacket, if_neg (contentSize_le hcomplete).2]
  simp only [within_bind, within_readUInt32At]
  constructor
  · rintro ⟨-, hcode, -⟩
    exact hcode
  · intro hsize
    rw [sizeofEnvelope] at hsize
    refine ⟨by omega, by omega, ?_⟩
    split_ifs <;> exact within_pure

end Reading

section Agreement

variable {packet : TcpPacket} {beyond : Nat → UInt8} {connId senderId : UInt64}
  {memory : Nat → UInt8} {content : List UInt8}

/-- The located message, with its data. -/
def Located.received (memory : Nat → UInt8) (located : Located) : Received where
  msgCode := located.msgCode
  msgData := load memory located.msgData located.msgDataSize
  theSenderId := located.theSenderId

theorem run_locate (h : StartsWith memory content) {recvSize : Nat}
    (hfits : recvSize ≤ content.length) :
    (run memory (locate recvSize senderId)).map (Located.received memory) =
      unwrap content recvSize senderId := by
  rcases Nat.lt_or_ge recvSize sizeofTcpMsg with hmsg | hmsg
  · rw [locate, if_pos hmsg, unwrap, if_pos hmsg]
    rfl
  · rw [locate, if_neg (Nat.not_lt_of_ge hmsg), unwrap, if_neg (Nat.not_lt_of_ge hmsg), run_bind]
    rw [sizeofTcpMsg] at hmsg
    rw [run_readUInt32At h (by omega), List.drop_zero]
    have hcode : readUInt32 content = (TcpMsg.read content).code := rfl
    dsimp only
    rw [hcode]
    split_ifs with henvelope hshort
    · rfl
    · rw [sizeofEnvelope] at hshort
      simp only [run_bind, run_pure, Option.map_some, Located.received]
      rw [run_readUInt32At h (by omega), run_readUInt64At h (by omega), sizeofEnvelope,
        h.load_eq (by omega)]
      simp only [Envelope.read, TcpMsg.read, List.drop_drop]
    · simp only [run_pure, Option.map_some, Located.received]
      rw [sizeofTcpMsg, h.load_eq (by omega)]
      rfl

theorem run_readTcpMsg (h : StartsWith memory content) {recvSize : Nat}
    (hfits : recvSize ≤ content.length) (manager : RawmsgManager ι) :
    run memory (manager.readTcpMsg recvSize senderId) =
      manager.dealTcpMsg content recvSize senderId := by
  rw [RawmsgManager.readTcpMsg, RawmsgManager.dealTcpMsg, ← run_locate h hfits, run_bind]
  cases run memory (locate recvSize senderId) with
  | none => rfl
  | some located =>
      dsimp only [Option.map_some]
      change _ = Option.bind (manager.handlers located.msgCode) _
      cases manager.handlers located.msgCode with
      | none => rfl
      | some handler => rfl

theorem run_readProtoMsg (h : StartsWith memory content) {recvSize : Nat}
    (hfits : recvSize ≤ content.length) (manager : ProtoManager ι μ) :
    run memory (manager.readTcpMsg recvSize senderId) =
      manager.dealTcpMsg content recvSize senderId := by
  rw [ProtoManager.readTcpMsg, ProtoManager.dealTcpMsg, ← run_locate h hfits, run_bind]
  cases run memory (locate recvSize senderId) with
  | none => rfl
  | some located =>
      dsimp only [Option.map_some]
      change _ = Option.bind (manager.protoDescriptors located.msgCode) _
      cases manager.protoDescriptors located.msgCode with
      | none => rfl
      | some parseFromArray =>
          change _ = Option.bind (manager.handlers located.msgCode) _
          cases manager.handlers located.msgCode with
          | none => rfl
          | some handler => rfl

theorem run_readPacket (hcomplete : packet.complete = true)
    (hsize : sizeofTcpMsg ≤ packet.contentSize) (managers : Managers ι κ μ) :
    run (memoryOf packet beyond) (managers.readPacket packet connId) =
      managers.tcpPacketHandle packet connId := by
  have hstarts := startsWith_memoryOf packet beyond
  have hfits := (contentSize_le hcomplete).1
  rw [sizeofTcpMsg] at hsize
  have hcode : readUInt32 packet.content = (TcpMsg.read packet.content).code := rfl
  rw [Managers.readPacket, run_bind, run_readUInt32At hstarts (by omega), List.drop_zero, hcode,
    Managers.tcpPacketHandle, managerType]
  split_ifs with hraw hproto
  · rw [run_bind, run_readTcpMsg hstarts hfits]
    rfl
  · rw [run_bind, run_readProtoMsg hstarts hfits]
    rfl
  · rfl

theorem run_routerReadPacket (hcomplete : packet.complete = true)
    (hsize : sizeofEnvelope ≤ packet.contentSize) :
    some (run (memoryOf packet beyond) (Router.readPacket packet)) =
      Router.tcpPacketHandle packet := by
  have hstarts := startsWith_memoryOf packet beyond
  obtain ⟨hfits, hhead⟩ := contentSize_le hcomplete
  rw [Router.readPacket, if_neg hhead, Router.tcpPacketHandle, if_neg hhead,
    if_neg (Nat.not_lt_of_ge (hsize.trans hfits))]
  rw [sizeofEnvelope] at hsize
  have htarget : run (memoryOf packet beyond) (readUInt32At 4) =
      (Envelope.read packet.content).targetPid := run_readUInt32At hstarts (by omega)
  simp only [run_bind, htarget]
  split_ifs
  · rfl
  · rfl

theorem tcpPacketHandle_short (managers : Managers ι κ μ)
    (henvelope : isEnvelopeMsgCode (TcpMsg.read packet.content).code = true)
    (hshort : packet.contentSize < sizeofEnvelope) :
    managers.tcpPacketHandle packet connId = none := by
  have hnone : unwrap packet.content packet.contentSize connId = none := by
    rw [unwrap]
    simp only [henvelope, if_true, if_pos hshort, ite_self]
  rw [Managers.tcpPacketHandle, RawmsgManager.dealTcpMsg, ProtoManager.dealTcpMsg, hnone]
  cases managerType (TcpMsg.read packet.content).code with
  | none => rfl
  | some type => cases type <;> rfl

theorem lobby_staysInside_iff (hcomplete : packet.complete = true) (managers : Managers ι κ μ) :
    StaysInside .lobby managers packet beyond connId ↔ sizeofTcpMsg ≤ packet.contentSize := by
  have hinside : Within (memoryOf packet beyond) packet.contentSize
      (lobbyTcpPacketHandle managers packet connId) ↔ sizeofTcpMsg ≤ packet.contentSize := by
    rw [lobbyTcpPacketHandle, within_bind, within_readPacket]
    exact and_iff_left within_pure
  constructor
  · exact fun h => hinside.mp h.inside
  · intro hsize
    refine ⟨hinside.mpr hsize, ?_⟩
    rintro (hshort | ⟨henvelope, hshort⟩)
    · exact absurd hsize (Nat.not_le_of_lt hshort)
    · change run _ (lobbyTcpPacketHandle managers packet connId) = _
      rw [lobbyTcpPacketHandle, run_bind, run_readPacket hcomplete hsize,
        tcpPacketHandle_short managers henvelope hshort]
      rfl

theorem router_staysInside_iff (hcomplete : packet.complete = true) (managers : Managers ι κ μ) :
    StaysInside .router managers packet beyond connId ↔ sizeofEnvelope ≤ packet.contentSize := by
  have hinside : Within (memoryOf packet beyond) packet.contentSize
      (Receiver.router.tcpPacketHandle managers packet connId) ↔
        sizeofEnvelope ≤ packet.contentSize := by
    rw [Receiver.tcpPacketHandle, within_bind, within_routerReadPacket hcomplete]
    exact and_iff_left within_pure
  constructor
  · exact fun h => hinside.mp h.inside
  · intro hsize
    exact ⟨hinside.mpr hsize, fun hshort => absurd hsize (Nat.not_le_of_lt hshort)⟩

/-- A packet is handled by its content alone exactly when it has what its receiver reads
before any check. -/
theorem staysInside_iff (receiver : Receiver) (managers : Managers ι κ μ)
    (hcomplete : packet.complete = true) :
    StaysInside receiver managers packet beyond connId ↔
      receiver.least ≤ packet.contentSize := by
  cases receiver with
  | router => exact router_staysInside_iff hcomplete managers
  | lobby => exact lobby_staysInside_iff hcomplete managers
  | hall =>
      have hsame : StaysInside .hall managers packet beyond connId ↔
          StaysInside .lobby managers packet beyond connId :=
        ⟨fun h => ⟨h.inside, h.ignored⟩, fun h => ⟨h.inside, h.ignored⟩⟩
      rw [hsame]
      exact lobby_staysInside_iff hcomplete managers

theorem StaysInside.run_eq {receiver : Receiver} {managers : Managers ι κ μ}
    (h : StaysInside receiver managers packet beyond connId) (hcomplete : packet.complete = true)
    (beyond' : Nat → UInt8) :
    run (memoryOf packet beyond') (receiver.tcpPacketHandle managers packet connId) =
      run (memoryOf packet beyond) (receiver.tcpPacketHandle managers packet connId) := by
  apply run_congr h.inside
  intro i hi
  have hfits := (contentSize_le hcomplete).1
  rw [startsWith_memoryOf packet beyond' i (by omega),
    startsWith_memoryOf packet beyond i (by omega)]

/-- A process without handlers. -/
def noHandlers : Managers Unit Unit Unit where
  rawmsg := ⟨fun _ => none⟩
  proto := ⟨fun _ => none, fun _ => none⟩

/-- A content of one byte is read as a code of four. -/
theorem oneByte_not_staysInside :
    ¬ ∀ (receiver : Receiver) (managers : Managers Unit Unit Unit) (packet : TcpPacket)
      (beyond : Nat → UInt8) (connId : UInt64), packet.complete = true →
        StaysInside receiver managers packet beyond connId := by
  intro hall
  have hinside := (hall .lobby noHandlers ⟨[1, 0, 0, 0, 7]⟩ (fun _ => 0) 0 (by decide)).inside
  have hread : (0, 4) ∈ spans (memoryOf ⟨[1, 0, 0, 0, 7]⟩ fun _ => 0)
      (Receiver.lobby.tcpPacketHandle noHandlers ⟨[1, 0, 0, 0, 7]⟩ 0) := List.mem_cons_self
  exact absurd (hinside _ hread) (by decide)

/-- An envelope for the process `3`, with nothing in it. -/
theorem staysInside_iff_envelope :
    StaysInside .router noHandlers
        ⟨[20, 0, 0, 0, 0, 0, 0, 192, 3, 0, 0, 0, 0, 0, 0, 0, 0, 0, 0, 0, 7, 0, 0, 0]⟩
        (fun _ => 0) 0 ↔
      Receiver.least .router ≤ TcpPacket.contentSize
        ⟨[20, 0, 0, 0, 0, 0, 0, 192, 3, 0, 0, 0, 0, 0, 0, 0, 0, 0, 0, 0, 7, 0, 0, 0]⟩ :=
  staysInside_iff .router noHandlers (by decide)

end Agreement

end CasualGame.Relay
