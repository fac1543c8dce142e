import CasualGame.Http.UrlCode

/-!
The parsing of HTTP requests: where the header ends, and what its first line says.
-/

namespace CasualGame.Http

structure HttpProtocInfo where
  requestMethod : List UInt8 := []
  uri : List UInt8 := []
  queryString : List UInt8 := []
  postDataLen : Int := 0
  postData : List UInt8 := []
  headerInfo : List UInt8 := []
  deriving DecidableEq

namespace HttpParse

section Code

def isprint (c : UInt8) : Bool := 32 ≤ c && c ≤ 126

/-- Control characters are not allowed, but what is not ASCII is. -/
def isForbidden (c : UInt8) : Bool := !isprint c && c ≠ 13 && c ≠ 10 && c < 128

/-- A turn of the loop of `getHeaderLen`, which is at the offset `s` with `c`, `c'` and what
follows them before it. -/
def scanByte (s : Nat) (c c' : UInt8) (rest : List UInt8) (len : Int) : Int :=
  if isForbidden c then -1
  else if c = 10 && c' = 10 then s + 2
  else if c = 10 && c' = 13 && rest.head? = some 10 then s + 3
  else len

/-- The loop goes on while `len` is not above zero, and not to the last byte. -/
def scan : Nat → List UInt8 → Int → Int
  | s, c :: c' :: rest, len =>
      if len ≤ 0 then scan (s + 1) (c' :: rest) (scanByte s c c' rest len) else len
  | _, _, len => len

def getHeaderLen (buf : List UInt8) (buflen : Int) : Int := scan 0 (buf.take buflen.toNat) 0

def readHeader (packet : List UInt8) (info : HttpProtocInfo) : Bool × HttpProtocInfo :=
  let realyRead := asInt packet.length
  let headerLen := getHeaderLen packet realyRead
  if realyRead < headerLen then (false, info)
  else if headerLen ≤ 0 then (false, info)
  else
    let info := { info with headerInfo := info.headerInfo ++ packet.take headerLen.toNat }
    if headerLen ≤ realyRead then
      (true, { info with
        postDataLen := realyRead - headerLen
        postData := info.postData ++
          (packet.drop headerLen.toNat).take (realyRead - headerLen).toNat })
    else (true, info)

/-- `find` of `std::string` -/
def find (str : List UInt8) (c : UInt8) (pos : Nat) : Option Nat :=
  ((str.drop pos).findIdx? (· = c)).map (pos + ·)

/-- `"GET"` -/
def get : List UInt8 := [71, 69, 84]

/-- `"POST"` -/
def post : List UInt8 := [80, 79, 83, 84]

/-- The target is decoded as a whole, and then split. `none` is a decoding that is not
defined. -/
def splitTarget (info : HttpProtocInfo) (target : List UInt8) : Option HttpProtocInfo := do
  let uri ← UrlCode.urlDecode target
  match find uri 63 0 with
  | none => some { info with uri := uri }
  | some pos => some { info with queryString := uri.drop (pos + 1), uri := uri.take pos }

def parseHttpHeader (info : HttpProtocInfo) : Option (Bool × HttpProtocInfo) :=
  match find info.headerInfo 32 0 with
  | none => some (false, info)
  | some posFirst =>
      let info := { info with requestMethod := info.headerInfo.take posFirst }
      if info.requestMethod ≠ get && info.requestMethod ≠ post then some (false, info)
      else
        match find info.headerInfo 32 (posFirst + 1) with
        | none => some (false, info)
        | some posSecond =>
            (splitTarget info
              ((info.headerInfo.drop (posFirst + 1)).take (posSecond - (posFirst + 1)))).map
              (true, ·)

end Code

end HttpParse

end CasualGame.Http
