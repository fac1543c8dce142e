import CasualGame.Lobby.AllRounds
import CasualGame.Relay.PublicPackets

/-!
What becomes of the messages of the lobby to its clients, which the gateway passes on.
-/

namespace CasualGame.Relay

open Net
open Lobby
open Lib.Run

def messageName : Msg → PublicProto
  | .notice _ => .sNotice
  | .chat .. => .sChat
  | .roomAttr .. => .sG13RoomAttr
  | .playersInRoom .. => .sG13PlayersInRoom
  | .abortGameOrNot .. => .sG13AbortGameOrNot
  | .voteFailed _ => .sG13VoteFailed
  | .playerQuited => .sG13PlayerQuited
  | .handOfMine _ => .sG13HandOfMine
  | .allHands _ => .sG13AllHands
  | .allRounds _ => .sG13AllRounds

variable {μ : Type}

/-- What is documented of the library: a message that can be serialised has less than 2 GiB
and is found again when it is parsed as one of its type. -/
structure Protobuf.Documented (lib : Protobuf μ) (typeOf : μ → MsgName) : Prop where
  size_lt : ∀ msg data, lib.serializeToArray msg = some data → data.length < 2 ^ 31
  parse_serialize : ∀ msg data, lib.serializeToArray msg = some data →
    lib.parseFromArray (typeOf msg) data = msg

section Forwarding

variable (gmFirst : Bool) (gatewayPid lobbyPid : ProcessId) (lib : Protobuf μ) (proto : Msg → μ)

/-- `Client::sendToMe`: what the router gets. -/
def sendToMe (ccid : Ccid) (msg : Msg) : Option TcpPacket :=
  (lib.serializeToArray (proto msg)).bind
    (relayToPrivate (.ofNat ccid) gatewayPid ((MsgName.ofPublic (messageName msg)).code gmFirst))

/-- A message that is passed to `sendToMe` in a run of the lobby. -/
def Emitted (ccid : Ccid) (msg : Msg) : Prop :=
  ∃ lobby a lobby', lobbySystem.Reaches (fun _ _ => True) lobby ∧ lobby.Allowed a ∧
    lobby.step a = .ok lobby' ∧
      Outgoing.relay ccid msg ∈ lobby'.world.sent.drop lobby.world.sent.length

/-- The envelope of the message makes the gateway send the client a packet with the code
and the data of the message. -/
def Forwarded (publicConns : UInt64 → Bool) (ccid : Ccid) (msg : Msg) (packet : TcpPacket) :
    Prop :=
  ∃ data, lib.serializeToArray (proto msg) = some data ∧
    ∀ connId, ∃ call,
      Gateway.tcpPacketHandle gmFirst lobbyPid lib packet connId = some (.proto call) ∧
        Gateway.relayToClient lib publicConns call =
          some (.ofNat ccid, barePacket ((MsgName.ofPublic (messageName msg)).code gmFirst) data)

end Forwarding

section Forwards

variable {gmFirst : Bool} {gatewayPid lobbyPid : ProcessId} {lib : Protobuf μ} {proto : Msg → μ}
  {typeOf : μ → MsgName} {publicConns : UInt64 → Bool} {ccid : Ccid} {msg : Msg}
  {packet : TcpPacket}

theorem mem_msgsToClient (msg : Msg) (hvote : messageName msg ≠ .sG13VoteFailed)
    (hrounds : messageName msg ≠ .sG13AllRounds) : messageName msg ∈ Gateway.msgsToClient := by
  cases msg with
  | voteFailed opponent => exact absurd rfl hvote
  | allRounds players => exact absurd rfl hrounds
  | notice | chat | roomAttr | playersInRoom | abortGameOrNot | playerQuited | handOfMine
  | allHands =>
      rw [messageName]
      decide

theorem registered_of_mem {name : PublicProto} (hname : name ∈ Gateway.msgsToClient) :
    ((MsgName.ofPublic name).code gmFirst,
      Gateway.Handler.relayClientMsgToClient ((MsgName.ofPublic name).code gmFirst)) ∈
        Gateway.registerTcpMsgHandler gmFirst lobbyPid :=
  List.mem_append_left _ (List.mem_append_right _ (List.mem_map.mpr ⟨name, hname, rfl⟩))

theorem tcpPacketHandle_envelope (name : MsgName) {envelope : Envelope} {connId : UInt64}
    {dispatched : Dispatched Empty Gateway.Handler μ}
    (hsize : envelope.bytes.length + 4 < 2 ^ 32) (hname : envelope.msg.code = name.code gmFirst) :
    Gateway.tcpPacketHandle gmFirst lobbyPid lib (envelopePacket envelope) connId =
        some dispatched ↔
      ∃ handler, (name.code gmFirst, handler) ∈ Gateway.registerTcpMsgHandler gmFirst lobbyPid ∧
        dispatched = .proto {
          msgCode := name.code gmFirst
          handler := handler
          msg := lib.parseFromArray name envelope.msg.data
          senderId := envelope.sourceId } := by
  have hprotobuf : isProtobufMsgCode (TcpMsg.read envelope.bytes).code = true := by
    rw [Envelope.code_read_bytes, isProtobufMsgCode, code_and_protocolType, hname]
    exact isProtobufMsgCode_code gmFirst name
  rw [envelopePacket, Gateway.tcpPacketHandle_eq_some hsize]
  simp only [hprotobuf, true_and, Gateway.dealTcpMsg_eq_some, unwrap_envelope,
    Option.some.injEq, hname]
  constructor
  · rintro ⟨call, rfl, received, parseFromArray, handler, rfl, hparse, hhandler, rfl⟩
    rw [Gateway.descriptor_eq] at hparse
    obtain rfl := Option.some.inj hparse
    exact ⟨handler, Gateway.handlers_eq_some.mp hhandler, rfl⟩
  · rintro ⟨handler, hhandler, rfl⟩
    exact ⟨_, rfl, _, _, handler, rfl, Gateway.descriptor_eq gmFirst lobbyPid lib name,
      Gateway.handlers_eq_some.mpr hhandler, rfl⟩

theorem handled_of_dealt (name : MsgName) {envelope : Envelope} {connId : UInt64}
    {dispatched : Dispatched Empty Gateway.Handler μ}
    (hsize : envelope.bytes.length + 4 < 2 ^ 32) (hname : envelope.msg.code = name.code gmFirst)
    (h : Gateway.tcpPacketHandle gmFirst lobbyPid lib (envelopePacket envelope) connId =
      some dispatched) : name ∈ Gateway.handled := by
  obtain ⟨handler, hhandler, -⟩ := (tcpPacketHandle_envelope name hsize hname).mp h
  have hsome : ((Gateway.managers gmFirst lobbyPid lib).proto.handlers
      (name.code gmFirst)).isSome :=
    Option.isSome_iff_exists.mpr ⟨handler, Gateway.handlers_eq_some.mpr hhandler⟩
  obtain ⟨name', hname', hcode⟩ := Gateway.handlers_isSome.mp hsome
  rwa [← code_injective gmFirst hcode]

/-- What the lobby says to a client reaches the client, exactly as long as it is neither that
a vote has failed nor the final result of a game. -/
theorem forwarded_iff (hlib : lib.Documented typeOf)
    (htype : ∀ msg, typeOf (proto msg) = .ofPublic (messageName msg))
    (hopen : publicConns (.ofNat ccid) = true)
    (harrives : sendToMe gmFirst gatewayPid lib proto ccid msg = some packet) :
    Emitted ccid msg →
      (Forwarded gmFirst lobbyPid lib proto publicConns ccid msg packet ↔
        messageName msg ≠ .sG13VoteFailed ∧ messageName msg ≠ .sG13AllRounds) := by
  intro _
  obtain ⟨data, hdata, hsent⟩ := Option.bind_eq_some_iff.mp harrives
  have hlength := hlib.size_lt _ _ hdata
  have hparse := hlib.parse_serialize _ _ hdata
  rw [htype] at hparse
  rw [relayToPrivate_eq (by omega)] at hsent
  obtain rfl := Option.some.inj hsent
  have hsize : ∀ envelope : Envelope, envelope.msg.data = data →
      envelope.bytes.length + 4 < 2 ^ 32 := by
    rintro envelope rfl
    rw [Envelope.length_bytes, sizeofEnvelope]
    omega
  constructor
  · rintro ⟨_, -, hforwarded⟩
    obtain ⟨call, hcall, -⟩ := hforwarded 0
    have hname := handled_of_dealt (.ofPublic (messageName msg)) (hsize _ rfl) rfl hcall
    constructor
    · intro hvote
      rw [hvote] at hname
      exact absurd hname (by decide)
    · intro hrounds
      rw [hrounds] at hname
      exact absurd hname (by decide)
  · rintro ⟨hvote, hrounds⟩
    refine ⟨data, hdata, fun connId => ⟨_, (tcpPacketHandle_envelope (.ofPublic (messageName msg))
      (hsize _ rfl) rfl).mpr ⟨_, registered_of_mem (mem_msgsToClient msg hvote hrounds), rfl⟩, ?_⟩⟩
    rw [Gateway.relayToClient]
    dsimp only
    rw [hparse, hdata]
    dsimp only
    rw [setContent_eq (by rw [TcpMsg.length_bytes, sizeofTcpMsg]; dsimp only; omega),
      Option.bind_some, if_pos hopen]
    rfl

end Forwards

section Runs

/-- Two messages as protobuf has them: one without fields, and one whose only field is
the number `2`. -/
def quitedOrFailed : Protobuf Msg where
  parseFromArray name _ :=
    if name = .ofPublic .sG13VoteFailed then .voteFailed 2 else .playerQuited
  serializeToArray msg :=
    if msg = .playerQuited then some []
    else if msg = .voteFailed 2 then some [8, 2]
    else none

theorem quitedOrFailed_documented :
    quitedOrFailed.Documented fun msg => .ofPublic (messageName msg) := by
  constructor
  · intro msg data hdata
    rw [quitedOrFailed] at hdata
    dsimp only at hdata
    split_ifs at hdata
    · rw [← Option.some.inj hdata]
      decide
    · rw [← Option.some.inj hdata]
      decide
  · intro msg data hdata
    rw [quitedOrFailed] at hdata ⊢
    dsimp only at hdata ⊢
    split_ifs at hdata with hquited hfailed
    · rw [hquited]
      rfl
    · rw [hfailed]
      rfl

theorem emitted_of_run (rg : Nat → Dealing.Shuffle) (events : List Event) (a : Event)
    {ccid : Ccid} {msg : Msg}
    (hfits : lobbySystem.Fits (fun _ _ => True) (LobbyState.start rg) events)
    (hallowed : (lobbySystem.after (LobbyState.start rg) events).Allowed a)
    (hfault : lobbySystem.fault (lobbySystem.after (LobbyState.start rg) events) a = none)
    (hsent : Outgoing.relay ccid msg ∈
      (lobbySystem.after (lobbySystem.after (LobbyState.start rg) events) [a]).world.sent.drop
        (lobbySystem.after (LobbyState.start rg) events).world.sent.length) : Emitted ccid msg :=
  ⟨_, a, _, .after (.init ⟨rg, rfl⟩) hfits, hallowed, System.step_eq_after hfault, hsent⟩

/-- To client `11`, which gives a vote in no room. -/
def quitedEnvelope : Envelope where
  targetPid := ProcessId.value ⟨2, 1⟩
  sourceId := 11
  msg := ⟨14, []⟩

theorem forwarded_iff_quited :
    Forwarded false ⟨3, 1⟩ quitedOrFailed id (fun _ => true) 11 .playerQuited
        (envelopePacket quitedEnvelope) ↔
      messageName .playerQuited ≠ .sG13VoteFailed ∧ messageName .playerQuited ≠ .sG13AllRounds := by
  have hemitted : Emitted 11 .playerQuited := by
    apply emitted_of_run (fun _ => Dealing.Shuffle.id) [.loginQuest 11 "a" "A"]
      (.voteFoAbortGame 11 .aye)
    · decide +kernel
    · trivial
    · decide +kernel
    · decide +kernel
  have harrives : sendToMe false ⟨2, 1⟩ quitedOrFailed id 11 .playerQuited =
      some (envelopePacket quitedEnvelope) := rfl
  exact forwarded_iff quitedOrFailed_documented (fun _ => rfl) rfl harrives hemitted

def failedEnvelope : Envelope where
  targetPid := ProcessId.value ⟨2, 1⟩
  sourceId := 11
  msg := ⟨13, [8, 2]⟩

/-- Client `11` asks to end the game, and client `12` is against it. -/
theorem voteFailed_unhandled :
    ¬ ∀ (gmFirst : Bool) (gatewayPid lobbyPid : ProcessId) (publicConns : UInt64 → Bool)
        (ccid : Ccid) (msg : Msg) (packet : TcpPacket),
      publicConns (.ofNat ccid) = true → Emitted ccid msg →
      sendToMe gmFirst gatewayPid quitedOrFailed id ccid msg = some packet →
        Forwarded gmFirst lobbyPid quitedOrFailed id publicConns ccid msg packet := by
  intro h
  have hemitted : Emitted 11 (.voteFailed 2) := by
    apply emitted_of_run (fun _ => AllRounds.stacked (AllRounds.deckOf
      [RowScoring.strongHand, RowScoring.weakHand])) (AllRounds.gameOf
        [RowScoring.strongHand, RowScoring.weakHand] ++ [.giveUp 11]) (.voteFoAbortGame 12 .nay)
    · decide +kernel
    · trivial
    · decide +kernel
    · decide +kernel
  have harrives : sendToMe false ⟨2, 1⟩ quitedOrFailed id 11 (.voteFailed 2) =
      some (envelopePacket failedEnvelope) := rfl
  obtain ⟨_, -, hforwarded⟩ := h false ⟨2, 1⟩ ⟨3, 1⟩ (fun _ => true) 11 (.voteFailed 2) _ rfl
    hemitted harrives
  obtain ⟨call, hcall, -⟩ := hforwarded 0
  have hhandled := handled_of_dealt (.ofPublic .sG13VoteFailed) (by decide) (by decide) hcall
  exact absurd hhandled (by decide)

end Runs

end CasualGame.Relay
