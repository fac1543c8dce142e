import CasualGame.Net.TcpPacket

/-!
What a `TcpPacket` contains: a message, which is a code and data, or an envelope, which
carries a message from one process to another.
-/

namespace CasualGame.Relay

open Lib.LittleEndian

abbrev TcpMsgCode := UInt32

/-- `MsgCodeTypeMask::accessType`: the first two bits of a code. -/
def accessType : TcpMsgCode := 0xc0000000
def msgPublic : TcpMsgCode := 0x00000000
def msgPrivate : TcpMsgCode := 0x40000000
def msgEnvelope : TcpMsgCode := 0xc0000000

/-- `MsgCodeTypeMask::protocolType`: the next two. -/
def protocolType : TcpMsgCode := 0x30000000
def protocolRaw : TcpMsgCode := 0x10000000
def protocolProtobuf : TcpMsgCode := 0x00000000

def isEnvelopeMsgCode (code : TcpMsgCode) : Bool := code &&& accessType = msgEnvelope
def isPrivateMsgCode (code : TcpMsgCode) : Bool := code &&& accessType = msgPrivate
def isPublicMsgCode (code : TcpMsgCode) : Bool := code &&& accessType = msgPublic
def isRawMsgCode (code : TcpMsgCode) : Bool := code &&& protocolType = protocolRaw
def isProtobufMsgCode (code : TcpMsgCode) : Bool := code &&& protocolType = protocolProtobuf

/-- Only the low eight bits of each part are meant to be used. -/
structure ProcessId where
  type : UInt32
  num : UInt32
  deriving DecidableEq

def ProcessId.value (pid : ProcessId) : UInt32 := (pid.type <<< 8) ||| pid.num

def ProcessId.setValue (value : UInt32) : ProcessId where
  type := (value &&& 0xff00) >>> 8
  num := value &&& 0xff

def readUInt32 (bytes : List UInt8) : UInt32 := .ofNat (ofBytes (bytes.take 4))

def readUInt64 (bytes : List UInt8) : UInt64 := .ofNat (ofBytes (bytes.take 8))

structure TcpMsg where
  code : TcpMsgCode
  data : List UInt8
  deriving DecidableEq

/-- `sizeof(TcpMsg)`. -/
def sizeofTcpMsg : Nat := 4

def TcpMsg.bytes (msg : TcpMsg) : List UInt8 := toBytes 4 msg.code.toNat ++ msg.data

def TcpMsg.read (buf : List UInt8) : TcpMsg where
  code := readUInt32 buf
  data := buf.drop 4

structure Envelope where
  targetPid : UInt32
  sourceId : UInt64
  msg : TcpMsg
  deriving DecidableEq

/-- `sizeof(Envelope)`. -/
def sizeofEnvelope : Nat := 20

/-- An envelope has the protocol of the message in it. -/
def Envelope.code (envelope : Envelope) : TcpMsgCode :=
  msgEnvelope ||| (envelope.msg.code &&& protocolType)

def Envelope.bytes (envelope : Envelope) : List UInt8 :=
  toBytes 4 envelope.code.toNat ++ (toBytes 4 envelope.targetPid.toNat ++
    (toBytes 8 envelope.sourceId.toNat ++ envelope.msg.bytes))

/-- Any message, taken for an envelope. -/
def Envelope.read (buf : List UInt8) : Envelope where
  targetPid := readUInt32 (buf.drop 4)
  sourceId := readUInt64 (buf.drop 8)
  msg := TcpMsg.read (buf.drop 16)

section Masks

variable {code : TcpMsgCode} {pid : ProcessId}

theorem or_and_distrib (a b mask : UInt32) : (a ||| b) &&& mask = (a &&& mask) ||| (b &&& mask) :=
  UInt32.toBitVec_inj.mp BitVec.and_or_distrib_right

/-- An envelope says that it is one, whatever it carries, and nothing else of its code tells. -/
theorem isEnvelopeMsgCode_code (envelope : Envelope) : isEnvelopeMsgCode envelope.code = true := by
  apply decide_eq_true
  rw [Envelope.code, or_and_distrib, UInt32.and_assoc]
  change msgEnvelope ||| (envelope.msg.code &&& 0) = msgEnvelope
  rw [UInt32.and_zero, UInt32.or_zero]

theorem code_and_protocolType (envelope : Envelope) :
    envelope.code &&& protocolType = envelope.msg.code &&& protocolType := by
  rw [Envelope.code, or_and_distrib, UInt32.and_assoc, UInt32.and_self]
  change 0 ||| (envelope.msg.code &&& protocolType) = envelope.msg.code &&& protocolType
  rw [UInt32.zero_or]

theorem toNat_value (htype : pid.type.toNat < 256) (hnum : pid.num.toNat < 256) :
    pid.value.toNat = pid.type.toNat * 256 + pid.num.toNat := by
  have hshift : (pid.type <<< 8).toNat = pid.type.toNat <<< 8 := by
    rw [UInt32.toNat_shiftLeft]
    change pid.type.toNat <<< 8 % 2 ^ 32 = _
    rw [Nat.shiftLeft_eq]
    omega
  have hlow : pid.num.toNat < 2 ^ 8 := hnum
  rw [ProcessId.value, UInt32.toNat_or, hshift, ← Nat.shiftLeft_add_eq_or_of_lt hlow,
    Nat.shiftLeft_eq]

theorem toNat_setValue_type (value : UInt32) :
    (ProcessId.setValue value).type.toNat = value.toNat / 256 % 256 := by
  rw [ProcessId.setValue, UInt32.toNat_shiftRight, UInt32.toNat_and]
  change (value.toNat &&& 0xff00) >>> 8 = _
  rw [Nat.shiftRight_and_distrib, Nat.shiftRight_eq_div_pow]
  exact Nat.and_two_pow_sub_one_eq_mod (value.toNat / 256) 8

theorem toNat_setValue_num (value : UInt32) :
    (ProcessId.setValue value).num.toNat = value.toNat % 256 := by
  rw [ProcessId.setValue, UInt32.toNat_and]
  exact Nat.and_two_pow_sub_one_eq_mod value.toNat 8

theorem setValue_value (htype : pid.type.toNat < 256) (hnum : pid.num.toNat < 256) :
    ProcessId.setValue pid.value = pid := by
  have hvalue := toNat_value htype hnum
  have htype' : (ProcessId.setValue pid.value).type = pid.type := by
    apply UInt32.toNat_inj.mp
    rw [toNat_setValue_type]
    omega
  have hnum' : (ProcessId.setValue pid.value).num = pid.num := by
    apply UInt32.toNat_inj.mp
    rw [toNat_setValue_num]
    omega
  exact congrArg₂ ProcessId.mk htype' hnum'

end Masks

section Reading

variable (bytes : List UInt8) (msg : TcpMsg) (envelope : Envelope)

theorem readUInt32_toBytes (n : UInt32) : readUInt32 (toBytes 4 n.toNat ++ bytes) = n := by
  rw [readUInt32, List.take_left' (length_toBytes 4 _), ofBytes_toBytes_of_lt n.toNat_lt,
    UInt32.ofNat_toNat]

theorem readUInt64_toBytes (n : UInt64) : readUInt64 (toBytes 8 n.toNat ++ bytes) = n := by
  rw [readUInt64, List.take_left' (length_toBytes 8 _), ofBytes_toBytes_of_lt n.toNat_lt,
    UInt64.ofNat_toNat]

@[simp] theorem TcpMsg.read_bytes : TcpMsg.read msg.bytes = msg := by
  rw [TcpMsg.read, TcpMsg.bytes, readUInt32_toBytes, List.drop_left' (length_toBytes 4 _)]

theorem Envelope.drop_bytes :
    envelope.bytes.drop 4 = toBytes 4 envelope.targetPid.toNat ++
      (toBytes 8 envelope.sourceId.toNat ++ envelope.msg.bytes) :=
  List.drop_left' (length_toBytes 4 _)

@[simp] theorem Envelope.read_bytes : Envelope.read envelope.bytes = envelope := by
  have hsource : envelope.bytes.drop 8 =
      toBytes 8 envelope.sourceId.toNat ++ envelope.msg.bytes := by
    change envelope.bytes.drop (4 + 4) = _
    rw [← List.drop_drop, Envelope.drop_bytes, List.drop_left' (length_toBytes 4 _)]
  have hmsg : envelope.bytes.drop 16 = envelope.msg.bytes := by
    change envelope.bytes.drop (8 + 8) = _
    rw [← List.drop_drop, hsource, List.drop_left' (length_toBytes 8 _)]
  rw [Envelope.read, hmsg, hsource, Envelope.drop_bytes, readUInt32_toBytes, readUInt64_toBytes,
    TcpMsg.read_bytes]

@[simp] theorem Envelope.code_read_bytes : (TcpMsg.read envelope.bytes).code = envelope.code := by
  rw [TcpMsg.read, Envelope.bytes]
  exact readUInt32_toBytes _ _

@[simp] theorem TcpMsg.length_bytes : msg.bytes.length = sizeofTcpMsg + msg.data.length := by
  rw [TcpMsg.bytes, List.length_append, length_toBytes, sizeofTcpMsg]

@[simp] theorem Envelope.length_bytes :
    envelope.bytes.length = sizeofEnvelope + envelope.msg.data.length := by
  rw [Envelope.bytes, List.length_append, List.length_append, List.length_append, length_toBytes,
    length_toBytes, length_toBytes, TcpMsg.length_bytes, sizeofTcpMsg, sizeofEnvelope]
  omega

end Reading

end CasualGame.Relay
