import Mathlib.Logic.Function.Basic

/-!
HTTP packets: the callbacks that `http_parser` makes, what they write into the message, and
`parse`. The parser itself is a parameter.
-/

namespace CasualGame.Net

inductive HttpMsgType
  | request | response
  deriving DecidableEq

structure HttpMsg where
  type : HttpMsgType := .request
  curHeaderFiled : List UInt8 := []
  headers : List UInt8 → Option (List UInt8) := fun _ => none
  /-- The union of `statusCode` and `method`. -/
  statusCodeOrMethod : UInt32 := 0
  body : List UInt8 := []
  url : List UInt8 := []

/-- The callbacks of `http_parser`, with what `HttpPacket` reads of their arguments. -/
inductive HttpCallback
  | messageBegin
  | url (data : List UInt8)
  | status (statusCode method : UInt32)
  | headerField (data : List UInt8)
  | headerValue (data : List UInt8)
  | headersComplete
  | body (data : List UInt8)
  | messageComplete
  | chunkHeader
  | chunkComplete
  deriving DecidableEq

inductive HttpParserType
  | request | response

/-- What `http_parser_execute` comes back with: the parser after it, how many bytes it has
parsed, and the callbacks it has made. -/
structure HttpExecution (π : Type) where
  parser : π
  parsed : Nat
  callbacks : List HttpCallback

/-- `http_parser`, with callbacks that pause it when a message is complete. -/
structure HttpParser (π : Type) where
  init : HttpParserType → π
  pause : π → Bool → π
  execute : π → List UInt8 → HttpExecution π
  parsed_le (p : π) (data : List UInt8) : (execute p data).parsed ≤ data.length
  /-- It goes on to the end unless it is paused. -/
  parsed_all (p : π) (data : List UInt8) :
    .messageComplete ∉ (execute p data).callbacks → (execute p data).parsed = data.length

/-- How many bytes there are up to the blank line that ends the headers. -/
def blankLine (p data : List UInt8) : Option Nat :=
  (List.range (data.length + 1)).find? fun n => [13, 10, 13, 10].isSuffixOf (p ++ data.take n)

/-- `http_parser` on requests that have neither headers nor a body. Its state is what it has
of the request. -/
def bareRequests : HttpParser (List UInt8) where
  init _ := []
  pause p _ := p
  execute p data :=
    match blankLine p data with
    | none => { parser := p ++ data, parsed := data.length, callbacks := [] }
    | some n =>
        { parser := []
          parsed := n
          callbacks :=
            [.messageBegin,
              .url ((((p ++ data.take n).dropWhile (· != 32)).drop 1).takeWhile (· != 32)),
              .headersComplete, .messageComplete] }
  parsed_le p data := by
    split
    · exact Nat.le_refl _
    · rename_i n hblank
      exact Nat.le_of_lt_succ (List.mem_range.mp (List.mem_of_find?_eq_some hblank))
  parsed_all p data h := by
    split at h
    · rfl
    · exact absurd (by simp) h

structure HttpPacket (π : Type) where
  parser : π
  completed : Bool := true
  msg : HttpMsg := {}
  /-- The callbacks that have been made on the packet; the source has no such record. -/
  ran : List HttpCallback := []

namespace HttpPacket

variable {π : Type} (P : HttpParser π) (packet : HttpPacket π)

/-- The parser is one of requests for both types. -/
def create (type : HttpMsgType) : HttpPacket π where
  parser := P.init (if type = .request then .request else .request)
  msg := { type := type }

def complete : Bool := packet.completed

def msgType : HttpMsgType := packet.msg.type

def onPacketBegin : HttpPacket π := packet

def onUrl (data : List UInt8) : HttpPacket π :=
  { packet with msg := { packet.msg with url := data } }

def onStatus (statusCode method : UInt32) : HttpPacket π :=
  if packet.msg.type = .request then
    { packet with msg := { packet.msg with statusCodeOrMethod := method } }
  else { packet with msg := { packet.msg with statusCodeOrMethod := statusCode } }

def onHeaderField (data : List UInt8) : HttpPacket π :=
  { packet with msg := { packet.msg with curHeaderFiled := data } }

def onHeaderValue (data : List UInt8) : HttpPacket π :=
  { packet with
    msg := { packet.msg with
      headers := Function.update packet.msg.headers packet.msg.curHeaderFiled (some data) } }

def onHeadersComplete : HttpPacket π :=
  { packet with msg := { packet.msg with curHeaderFiled := [] } }

def onBody (data : List UInt8) : HttpPacket π :=
  { packet with msg := { packet.msg with body := packet.msg.body ++ data } }

def onPacketComplete : HttpPacket π := { packet with completed := true }

def onChunkHeader : HttpPacket π := packet

def onChunkComplete : HttpPacket π := packet

/-- `ParserSettings`: which function is which callback. -/
def handler : HttpCallback → HttpPacket π
  | .messageBegin => packet.onPacketBegin
  | .url data => packet.onUrl data
  | .status statusCode method => packet.onStatus statusCode method
  | .headerField data => packet.onHeaderField data
  | .headerValue data => packet.onHeaderValue data
  | .headersComplete => packet.onHeadersComplete
  | .body data => packet.onBody data
  | .messageComplete => packet.onPacketComplete
  | .chunkHeader => packet.onChunkHeader
  | .chunkComplete => packet.onChunkComplete

def call (callback : HttpCallback) : HttpPacket π :=
  { packet.handler callback with ran := packet.ran ++ [callback] }

def calls (callbacks : List HttpCallback) : HttpPacket π := callbacks.foldl call packet

def parse (data : List UInt8) : Nat × HttpPacket π :=
  if packet.complete then (0, packet)
  else
    let execution := P.execute (P.pause packet.parser false) data
    (execution.parsed, { packet with parser := execution.parser }.calls execution.callbacks)

theorem parse_of_complete {P : HttpParser π} {packet : HttpPacket π} (h : packet.complete = true)
    (data : List UInt8) : packet.parse P data = (0, packet) :=
  if_pos h

@[simp] theorem calls_append (callbacks callbacks' : List HttpCallback) :
    packet.calls (callbacks ++ callbacks') = (packet.calls callbacks).calls callbacks' :=
  List.foldl_append

end HttpPacket

end CasualGame.Net
