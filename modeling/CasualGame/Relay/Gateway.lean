import Mathlib.Data.List.Nodup
import CasualGame.Relay.Routing

/-!
The gateway: the codes of all messages, the handlers it registers for some of them, and
what it relays between the lobby and the clients.
-/

namespace CasualGame.Relay

open Net

/-- The messages of `client.proto`. -/
inductive PublicProto
  | cLogin | sLoginRet | sNotice | cSendChat | sChat | cG13CreateGame | cG13JionGame
  | sG13RoomAttr | sG13PlayersInRoom | cG13GiveUp | sG13AbortGameOrNot | cG13VoteFoAbortGame
  | sG13VoteFailed | sG13PlayerQuited | cG13ReadyFlag | sG13HandOfMine | cG13BringOut
  | sG13AllHands | sG13AllRounds
  deriving DecidableEq

/-- The messages of `login.proto` and `gm.proto`. -/
inductive PrivateProto
  | loginQuest | retLoginQuest | clientBeReplaced | ping | pong
  deriving DecidableEq

inductive MsgName
  | ofPublic (name : PublicProto)
  | ofPrivate (name : PrivateProto)
  deriving DecidableEq

/-- As they stand in the file. -/
def PublicProto.messages : List PublicProto :=
  [.cLogin, .sLoginRet, .sNotice, .cSendChat, .sChat, .cG13CreateGame, .cG13JionGame,
    .sG13RoomAttr, .sG13PlayersInRoom, .cG13GiveUp, .sG13AbortGameOrNot, .cG13VoteFoAbortGame,
    .sG13VoteFailed, .sG13PlayerQuited, .cG13ReadyFlag, .sG13HandOfMine, .cG13BringOut,
    .sG13AllHands, .sG13AllRounds]

/-- The files stand in the order in which the directory lists them. -/
def PrivateProto.messages (gmFirst : Bool) : List PrivateProto :=
  if gmFirst then [.ping, .pong, .loginQuest, .retLoginQuest, .clientBeReplaced]
  else [.loginQuest, .retLoginQuest, .clientBeReplaced, .ping, .pong]

/-- The messages are numbered as they stand, above the bits of their kind. -/
def MsgName.code (gmFirst : Bool) : MsgName → TcpMsgCode
  | .ofPublic name =>
      (protocolProtobuf ||| msgPublic) + .ofNat (PublicProto.messages.idxOf name + 1)
  | .ofPrivate name =>
      (protocolProtobuf ||| msgPrivate) +
        .ofNat ((PrivateProto.messages gmFirst).idxOf name + 1)

def MsgName.all (gmFirst : Bool) : List MsgName :=
  PublicProto.messages.map .ofPublic ++ (PrivateProto.messages gmFirst).map .ofPrivate

/-- The protobuf library: what becomes of bytes that are parsed as a message of some type,
and the bytes of a message, unless it is too large. -/
structure Protobuf (μ : Type) where
  parseFromArray : MsgName → List UInt8 → μ
  serializeToArray : μ → Option (List UInt8)

namespace Gateway

/-- The handlers of the gateway. The first two relay the message of a code. -/
inductive Handler
  | relayClientMsgToServer (pid : ProcessId) (code : TcpMsgCode)
  | relayClientMsgToClient (code : TcpMsgCode)
  | cLogin | retLoginQuest | clientBeReplaced
  deriving DecidableEq

def msgsToLobby : List PublicProto :=
  [.cSendChat, .cG13CreateGame, .cG13JionGame, .cG13GiveUp, .cG13VoteFoAbortGame,
    .cG13ReadyFlag, .cG13BringOut]

def msgsToClient : List PublicProto :=
  [.sChat, .sNotice, .sG13RoomAttr, .sG13AbortGameOrNot, .sG13PlayerQuited,
    .sG13PlayersInRoom, .sG13HandOfMine, .sG13AllHands]

section Registering

variable (gmFirst : Bool) (lobbyPid : ProcessId)

def regClientMsgRelay : List (TcpMsgCode × Handler) :=
  msgsToLobby.map (fun name =>
    let code := (MsgName.ofPublic name).code gmFirst
    (code, .relayClientMsgToServer lobbyPid code)) ++
  msgsToClient.map fun name =>
    let code := (MsgName.ofPublic name).code gmFirst
    (code, .relayClientMsgToClient code)

def regMsgHandler : List (TcpMsgCode × Handler) :=
  [((MsgName.ofPublic .cLogin).code gmFirst, .cLogin),
    ((MsgName.ofPrivate .retLoginQuest).code gmFirst, .retLoginQuest),
    ((MsgName.ofPrivate .clientBeReplaced).code gmFirst, .clientBeReplaced)]

def registerTcpMsgHandler : List (TcpMsgCode × Handler) :=
  regClientMsgRelay gmFirst lobbyPid ++ regMsgHandler gmFirst

variable {μ : Type} (lib : Protobuf μ)

/-- The last handler registered for a code is the one that counts. No handler of a raw
message is registered. -/
def managers : Managers Empty Handler μ where
  rawmsg := { handlers := fun _ => none }
  proto := {
    protoDescriptors := fun code =>
      ((MsgName.all gmFirst).find? fun name => name.code gmFirst = code).map lib.parseFromArray
    handlers := fun code =>
      ((registerTcpMsgHandler gmFirst lobbyPid).reverse.find? fun entry => entry.1 = code).map
        Prod.snd }

def tcpPacketHandle (packet : TcpPacket) (connId : UInt64) :
    Option (Dispatched Empty Handler μ) :=
  if packet.contentSize < sizeofTcpMsg then none
  else (managers gmFirst lobbyPid lib).tcpPacketHandle packet connId

/-- What a relay handler sends to the lobby. -/
def relayToServer (call : Call Handler μ) : Option TcpPacket :=
  match call.handler with
  | .relayClientMsgToServer pid code =>
      (lib.serializeToArray call.msg).bind (relayToPrivate call.senderId pid code)
  | _ => none

/-- What one sends to a client, as long as its connection is there. -/
def relayToClient (publicConns : UInt64 → Bool) (call : Call Handler μ) :
    Option (UInt64 × TcpPacket) :=
  match call.handler with
  | .relayClientMsgToClient code =>
      match lib.serializeToArray call.msg with
      | none => none
      | some data =>
          (TcpPacket.setContent (TcpMsg.bytes ⟨code, data⟩)).bind fun packet =>
            if publicConns call.senderId then some (call.senderId, packet) else none
  | _ => none

end Registering

end Gateway

section Codes

variable (gmFirst : Bool)

theorem isPublicMsgCode_code (name : PublicProto) :
    isPublicMsgCode ((MsgName.ofPublic name).code gmFirst) = true := by
  cases gmFirst <;> cases name <;> decide

theorem isProtobufMsgCode_code (name : MsgName) :
    isProtobufMsgCode (name.code gmFirst) = true := by
  cases name with
  | ofPublic name => cases gmFirst <;> cases name <;> decide
  | ofPrivate name => cases gmFirst <;> cases name <;> decide

theorem mem_all (name : MsgName) : name ∈ MsgName.all gmFirst := by
  cases name with
  | ofPublic name =>
      refine List.mem_append_left _ (List.mem_map_of_mem ?_)
      cases name <;> decide
  | ofPrivate name =>
      refine List.mem_append_right _ (List.mem_map_of_mem ?_)
      cases gmFirst <;> cases name <;> decide

/-- No two messages have one code. -/
theorem code_injective {name name' : MsgName} (h : name.code gmFirst = name'.code gmFirst) :
    name = name' := by
  have hnodup : ((MsgName.all gmFirst).map (MsgName.code gmFirst)).Nodup := by
    cases gmFirst <;> decide
  exact List.inj_on_of_nodup_map hnodup (mem_all gmFirst name) (mem_all gmFirst name') h

theorem find_code (name : MsgName) :
    ((MsgName.all gmFirst).find? fun name' => name'.code gmFirst = name.code gmFirst) =
      some name := by
  cases hfound : (MsgName.all gmFirst).find?
      fun name' => name'.code gmFirst = name.code gmFirst with
  | none =>
      have hall := List.find?_eq_none.mp hfound name (mem_all gmFirst name)
      exact absurd (decide_eq_true rfl) hall
  | some name' =>
      have hcode := List.find?_some hfound
      rw [code_injective gmFirst (of_decide_eq_true hcode)]

end Codes

namespace Gateway

variable {gmFirst : Bool} {lobbyPid : ProcessId} {μ : Type} {lib : Protobuf μ} {code : TcpMsgCode}

/-- The messages that have a handler. -/
def handled : List MsgName :=
  (msgsToLobby ++ msgsToClient).map .ofPublic ++
    [.ofPublic .cLogin, .ofPrivate .retLoginQuest, .ofPrivate .clientBeReplaced]

theorem registered_codes (gmFirst : Bool) (lobbyPid : ProcessId) :
    (registerTcpMsgHandler gmFirst lobbyPid).map Prod.fst =
      handled.map (MsgName.code gmFirst) := by
  rfl

theorem descriptor_eq (gmFirst : Bool) (lobbyPid : ProcessId) (lib : Protobuf μ)
    (name : MsgName) :
    (managers gmFirst lobbyPid lib).proto.protoDescriptors (name.code gmFirst) =
      some (lib.parseFromArray name) := by
  change Option.map _ _ = _
  rw [find_code, Option.map_some]

/-- No code is registered twice. -/
theorem handlers_eq_some {handler : Handler} :
    (managers gmFirst lobbyPid lib).proto.handlers code = some handler ↔
      (code, handler) ∈ registerTcpMsgHandler gmFirst lobbyPid := by
  have hnodup : ((registerTcpMsgHandler gmFirst lobbyPid).map Prod.fst).Nodup := by
    rw [registered_codes]
    cases gmFirst <;> decide
  change Option.map _ _ = _ ↔ _
  rw [Option.map_eq_some_iff]
  constructor
  · rintro ⟨⟨code', handler'⟩, hfound, rfl⟩
    have hcode := List.find?_some hfound
    rw [← of_decide_eq_true hcode]
    exact List.mem_reverse.mp (List.mem_of_find?_eq_some hfound)
  · intro hmem
    obtain ⟨entry, hfound⟩ : ∃ entry, (registerTcpMsgHandler gmFirst lobbyPid).reverse.find?
        (fun entry => entry.1 = code) = some entry := by
      rw [← Option.isSome_iff_exists, List.find?_isSome]
      exact ⟨(code, handler), List.mem_reverse.mpr hmem, decide_eq_true rfl⟩
    have hentry := List.mem_reverse.mp (List.mem_of_find?_eq_some hfound)
    have hcode := List.find?_some hfound
    rw [List.inj_on_of_nodup_map hnodup hentry hmem (of_decide_eq_true hcode)] at hfound
    exact ⟨_, hfound, rfl⟩

theorem handlers_isSome :
    ((managers gmFirst lobbyPid lib).proto.handlers code).isSome ↔
      ∃ name ∈ handled, name.code gmFirst = code := by
  rw [Option.isSome_iff_exists, ← List.mem_map, ← registered_codes gmFirst lobbyPid, List.mem_map]
  simp only [handlers_eq_some, Prod.exists, exists_and_right, exists_eq_right]

end Gateway

end CasualGame.Relay
