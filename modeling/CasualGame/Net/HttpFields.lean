import CasualGame.Lib.Table
import CasualGame.Net.HttpPacket

/-!
What the callbacks make of a message whose url, header names and header values come in
pieces, each of them in a callback of its own.
-/

namespace CasualGame.Net

open Lib.Table

/-- The data of one item: a callback for each of the pieces, of which there is at least one. -/
structure Pieces where
  init : List (List UInt8)
  last : List UInt8

namespace Pieces

variable (p : Pieces)

def all : List (List UInt8) := p.init ++ [p.last]

def whole : List UInt8 := p.all.flatten

def inOne : Pieces := ⟨[], p.whole⟩

/-- All that there is comes in the last piece. -/
def Unsplit : Prop := ∀ piece ∈ p.init, piece = []

instance : Decidable p.Unsplit := inferInstanceAs (Decidable (∀ piece ∈ p.init, piece = []))

end Pieces

structure HttpHeader where
  name : Pieces
  value : Pieces

inductive BodyPart
  | data (bytes : List UInt8)
  | chunkHeader
  | chunkComplete

/-- A message, with the pieces in which `http_parser` hands it over. The trailers are the
headers behind the chunks of a body. -/
structure HttpRequest where
  url : Pieces
  headers : List HttpHeader
  body : List BodyPart
  trailers : List HttpHeader
  chunked : Bool

def HttpHeader.callbacks (header : HttpHeader) : List HttpCallback :=
  header.name.all.map .headerField ++ header.value.all.map .headerValue

def BodyPart.callback : BodyPart → HttpCallback
  | .data bytes => .body bytes
  | .chunkHeader => .chunkHeader
  | .chunkComplete => .chunkComplete

namespace HttpRequest

variable (message : HttpRequest)

def callbacks : List HttpCallback :=
  [.messageBegin] ++ message.url.all.map .url ++ message.headers.flatMap HttpHeader.callbacks ++
    [.headersComplete] ++ message.body.map BodyPart.callback ++
      message.trailers.flatMap HttpHeader.callbacks ++
        (if message.chunked then [.chunkComplete] else []) ++ [.messageComplete]

/-- All the headers, in the order in which they come. -/
def fields : List HttpHeader := message.headers ++ message.trailers

/-- The message with a single callback for each item. -/
def inOne : HttpRequest :=
  { message with
    url := message.url.inOne
    headers := message.headers.map fun header => ⟨header.name.inOne, header.value.inOne⟩
    trailers := message.trailers.map fun header => ⟨header.name.inOne, header.value.inOne⟩ }

end HttpRequest

section Statement

variable {π : Type} (P : HttpParser π) (type : HttpMsgType) (message : HttpRequest)

/-- What the callbacks of the message make of a new packet. -/
def told : HttpMsg := ((HttpPacket.create P type).calls message.callbacks).msg

/-- The url is the concatenation of its pieces, and the headers map each concatenated name
to its concatenated value, as if every item came in one callback. -/
structure FieldsSurvive : Prop where
  url : (told P type message).url = message.url.whole
  headers : (told P type message).headers =
    fill (fun header => header.name.whole) (fun header => header.value.whole) message.fields
      fun _ => none
  same_url : (told P type message).url = (told P type message.inOne).url
  same_headers : (told P type message).headers = (told P type message.inOne).headers

end Statement

/-- For every name, the last header whose last piece of the name is that name has, as its
last piece of the value, the value of the last header of that name. There is the one if there
is the other. -/
def LastPiecesTell (fields : List HttpHeader) : Prop :=
  ∀ name,
    (lastWith (fun header => header.name.last) name fields).map (fun header => header.value.last) =
      (lastWith (fun header => header.name.whole) name fields).map fun header => header.value.whole

namespace Pieces

variable {p : Pieces}

theorem whole_eq : p.whole = p.init.flatten ++ p.last := by
  rw [whole, all, List.flatten_append, List.flatten_singleton]

theorem last_eq_whole_iff : p.last = p.whole ↔ p.Unsplit := by
  rw [whole_eq, Unsplit, ← List.flatten_eq_nil_iff]
  constructor
  · intro h
    exact List.append_left_eq_self.mp h.symm
  · intro h
    rw [h, List.nil_append]

theorem length_last_le : p.last.length ≤ p.whole.length := by
  rw [whole_eq, List.length_append]
  exact Nat.le_add_left _ _

theorem unsplit_of_length (h : p.last.length = p.whole.length) : p.Unsplit := by
  rw [whole_eq, List.length_append] at h
  have hinit : p.init.flatten = [] := List.eq_nil_of_length_eq_zero (by omega)
  exact List.flatten_eq_nil_iff.mp hinit

end Pieces

/-- It is about neither the url nor the value of a header. -/
def HttpCallback.Quiet : HttpCallback → Prop
  | .url _ => False
  | .headerValue _ => False
  | _ => True

theorem BodyPart.quiet_callback (part : BodyPart) : part.callback.Quiet := by
  cases part <;> trivial

section Callbacks

variable {π : Type} (packet : HttpPacket π)

theorem msg_pieces (c : List UInt8 → HttpCallback) (effect : List UInt8 → HttpMsg → HttpMsg)
    (hcall : ∀ (packet : HttpPacket π) data, (packet.call (c data)).msg = effect data packet.msg)
    (hreplace : ∀ data data' msg, effect data' (effect data msg) = effect data' msg)
    (p : Pieces) : (packet.calls (p.all.map c)).msg = effect p.last packet.msg := by
  rw [Pieces.all, List.map_append, HttpPacket.calls_append]
  change ((packet.calls (p.init.map c)).call (c p.last)).msg = _
  rw [hcall]
  induction p.init generalizing packet with
  | nil => rfl
  | cons piece init ih =>
      calc
        effect p.last (packet.calls ((piece :: init).map c)).msg
            = effect p.last (packet.call (c piece)).msg := ih (packet.call (c piece))
        _ = effect p.last packet.msg := by rw [hcall, hreplace]

theorem msg_url (p : Pieces) :
    (packet.calls (p.all.map .url)).msg = { packet.msg with url := p.last } :=
  msg_pieces packet .url (fun data msg => { msg with url := data }) (fun _ _ => rfl)
    (fun _ _ _ => rfl) p

theorem msg_headerField (p : Pieces) :
    (packet.calls (p.all.map .headerField)).msg = { packet.msg with curHeaderFiled := p.last } :=
  msg_pieces packet .headerField (fun data msg => { msg with curHeaderFiled := data })
    (fun _ _ => rfl) (fun _ _ _ => rfl) p

theorem msg_headerValue (p : Pieces) :
    (packet.calls (p.all.map .headerValue)).msg = { packet.msg with
      headers := Function.update packet.msg.headers packet.msg.curHeaderFiled (some p.last) } := by
  refine msg_pieces packet .headerValue (fun data msg =>
    { msg with headers := Function.update msg.headers msg.curHeaderFiled (some data) })
    (fun _ _ => rfl) (fun data data' msg => ?_) p
  simp only [Function.update_idem]

theorem msg_header (header : HttpHeader) :
    (packet.calls header.callbacks).msg = { packet.msg with
      curHeaderFiled := header.name.last
      headers :=
        Function.update packet.msg.headers header.name.last (some header.value.last) } := by
  rw [HttpHeader.callbacks, HttpPacket.calls_append, msg_headerValue, msg_headerField]

theorem msg_headers (headers : List HttpHeader) :
    (packet.calls (headers.flatMap HttpHeader.callbacks)).msg.url = packet.msg.url ∧
      (packet.calls (headers.flatMap HttpHeader.callbacks)).msg.headers =
        fill (fun header => header.name.last) (fun header => header.value.last) headers
          packet.msg.headers := by
  induction headers generalizing packet with
  | nil => exact ⟨rfl, rfl⟩
  | cons header headers ih =>
      obtain ⟨hurl, hheaders⟩ := ih (packet.calls header.callbacks)
      rw [List.flatMap_cons, HttpPacket.calls_append]
      rw [msg_header] at hurl hheaders
      exact ⟨hurl, hheaders⟩

theorem msg_quiet {callbacks : List HttpCallback} (h : ∀ callback ∈ callbacks, callback.Quiet) :
    (packet.calls callbacks).msg.url = packet.msg.url ∧
      (packet.calls callbacks).msg.headers = packet.msg.headers := by
  induction callbacks generalizing packet with
  | nil => exact ⟨rfl, rfl⟩
  | cons callback callbacks ih =>
      obtain ⟨hquiet, hrest⟩ := List.forall_mem_cons.mp h
      obtain ⟨hurl, hheaders⟩ := ih (packet.call callback) hrest
      have hcall : (packet.call callback).msg.url = packet.msg.url ∧
          (packet.call callback).msg.headers = packet.msg.headers := by
        cases callback with
        | url => exact hquiet.elim
        | headerValue => exact hquiet.elim
        | status statusCode method =>
            change (packet.onStatus statusCode method).msg.url = _ ∧
              (packet.onStatus statusCode method).msg.headers = _
            rw [HttpPacket.onStatus]
            split_ifs <;> exact ⟨rfl, rfl⟩
        | _ => exact ⟨rfl, rfl⟩
      exact ⟨hurl.trans hcall.1, hheaders.trans hcall.2⟩

end Callbacks

section Told

variable {π : Type} (P : HttpParser π) (type : HttpMsgType) (message : HttpRequest)

theorem told_eq : (told P type message).url = message.url.last ∧
    (told P type message).headers =
      fill (fun header => header.name.last) (fun header => header.value.last) message.fields
        fun _ => none := by
  have hsingle : ∀ callback : HttpCallback, callback.Quiet →
      ∀ callback' ∈ [callback], callback'.Quiet := by
    intro callback hquiet callback' hmem
    rwa [List.mem_singleton.mp hmem]
  have hbody : ∀ callback ∈ message.body.map BodyPart.callback, callback.Quiet := by
    intro callback hmem
    obtain ⟨part, -, rfl⟩ := List.mem_map.mp hmem
    exact part.quiet_callback
  have hchunked : ∀ callback ∈ (if message.chunked then [HttpCallback.chunkComplete] else []),
      callback.Quiet := by
    intro callback hmem
    split_ifs at hmem
    · exact hsingle .chunkComplete trivial callback hmem
    · exact absurd hmem List.not_mem_nil
  rw [told, HttpRequest.callbacks]
  simp only [HttpPacket.calls_append]
  constructor
  · rw [(msg_quiet _ (hsingle .messageComplete trivial)).1, (msg_quiet _ hchunked).1,
      (msg_headers _ _).1, (msg_quiet _ hbody).1,
      (msg_quiet _ (hsingle .headersComplete trivial)).1, (msg_headers _ _).1, msg_url]
  · rw [(msg_quiet _ (hsingle .messageComplete trivial)).2, (msg_quiet _ hchunked).2,
      (msg_headers _ _).2, (msg_quiet _ hbody).2,
      (msg_quiet _ (hsingle .headersComplete trivial)).2, (msg_headers _ _).2, msg_url,
      HttpRequest.fields, fill_append]
    rfl

theorem told_inOne : (told P type message.inOne).url = message.url.whole ∧
    (told P type message.inOne).headers =
      fill (fun header => header.name.whole) (fun header => header.value.whole) message.fields
        fun _ => none := by
  obtain ⟨hurl, hheaders⟩ := told_eq P type message.inOne
  refine ⟨hurl, hheaders.trans ?_⟩
  have hfields : message.inOne.fields =
      message.fields.map fun header => ⟨header.name.inOne, header.value.inOne⟩ := by
    rw [HttpRequest.fields, HttpRequest.fields, List.map_append]
    rfl
  rw [hfields, fill, List.foldl_map]
  rfl

theorem fieldsSurvive_iff_told : FieldsSurvive P type message ↔
    (told P type message).url = message.url.whole ∧ (told P type message).headers =
      fill (fun header => header.name.whole) (fun header => header.value.whole) message.fields
        fun _ => none := by
  obtain ⟨hurl, hheaders⟩ := told_inOne P type message
  constructor
  · exact fun h => ⟨h.url, h.headers⟩
  · rintro ⟨hurl', hheaders'⟩
    exact ⟨hurl', hheaders', hurl'.trans hurl.symm, hheaders'.trans hheaders.symm⟩

end Told

section Distinct

variable {fields : List HttpHeader}

theorem lastPiecesTell_of_unsplit
    (h : ∀ header ∈ fields, header.name.Unsplit ∧ header.value.Unsplit) :
    LastPiecesTell fields := by
  intro name
  have hnames : ∀ header ∈ fields, header.name.last = header.name.whole :=
    fun header hmem => Pieces.last_eq_whole_iff.mpr (h header hmem).1
  rw [lastWith_congr hnames name]
  cases hlast : lastWith (fun header => header.name.whole) name fields with
  | none => rfl
  | some header =>
      have hvalue := Pieces.last_eq_whole_iff.mpr (h header (mem_of_lastWith hlast).1).2
      exact congrArg some hvalue

theorem unsplit_of_lastPiecesTell (hnodup : (fields.map fun header => header.name.whole).Nodup)
    (h : LastPiecesTell fields) :
    ∀ header ∈ fields, header.name.Unsplit ∧ header.value.Unsplit := by
  have hcovered : (fields.map fun header => header.name.whole) ⊆
      fields.map fun header => header.name.last := by
    intro name hname
    obtain ⟨header, hmem, rfl⟩ := List.mem_map.mp hname
    have htell := h header.name.whole
    rw [lastWith_of_nodup hnodup hmem, Option.map_some] at htell
    obtain ⟨header', hlast, -⟩ := Option.map_eq_some_iff.mp htell
    obtain ⟨hmem', hname'⟩ := mem_of_lastWith hlast
    exact List.mem_map.mpr ⟨header', hmem', hname'⟩
  have hnames : ∀ header ∈ fields, header.name.Unsplit := by
    intro header hmem
    apply Pieces.unsplit_of_length
    exact size_eq_of_covered List.length hnodup (fun _ _ => Pieces.length_last_le) hcovered header
      hmem
  intro header hmem
  refine ⟨hnames header hmem, ?_⟩
  have hsame : ∀ header ∈ fields, header.name.last = header.name.whole :=
    fun header hmem => Pieces.last_eq_whole_iff.mpr (hnames header hmem)
  have htell := h header.name.whole
  rw [lastWith_congr hsame, lastWith_of_nodup hnodup hmem] at htell
  exact Pieces.last_eq_whole_iff.mp (Option.some.inj htell)

end Distinct

/-- The url survives exactly when its last piece is all of it, and the headers exactly when
their last pieces tell the same. Where no two headers have the same name, that is when every
name and every value is all in its last piece. -/
theorem fieldsSurvive_iff {π : Type} (P : HttpParser π) (type : HttpMsgType)
    (message : HttpRequest) :
    (FieldsSurvive P type message ↔ message.url.Unsplit ∧ LastPiecesTell message.fields) ∧
      ((message.fields.map fun header => header.name.whole).Nodup →
        (LastPiecesTell message.fields ↔
          ∀ header ∈ message.fields, header.name.Unsplit ∧ header.value.Unsplit)) := by
  refine ⟨?_, fun hnodup => ⟨unsplit_of_lastPiecesTell hnodup, lastPiecesTell_of_unsplit⟩⟩
  obtain ⟨hurl, hheaders⟩ := told_eq P type message
  rw [fieldsSurvive_iff_told, hurl, hheaders, Pieces.last_eq_whole_iff, funext_iff, LastPiecesTell]
  simp only [fill_apply, Option.or_none]

/-- A request for `/ab`, cut between the two letters. -/
def cutUrl : HttpRequest where
  url := ⟨[[47, 97]], [98]⟩
  headers := []
  body := []
  trailers := []
  chunked := false

theorem cutUrl_not_fieldsSurvive : ¬ FieldsSurvive bareRequests .request cutUrl := by
  intro h
  exact absurd h.url (by decide)

end CasualGame.Net
