import Std.Data.TreeMap
import CasualGame.Lobby.Dealing
import CasualGame.Lobby.Messages

/-!
The clients of the lobby, the three maps that index them, and what is sent to them.
-/

namespace CasualGame.Lobby

open Deck
open Dealing

structure Client where
  ccid : Ccid := 0
  cuid : Cuid := 0
  openid : String := ""
  name : String := ""
  roomId : RoomId := 0
  money : Int := 10000
  deriving DecidableEq

/-- A `Client::Ptr`, the place of the client among all clients ever created. -/
abbrev ClientPtr := Nat

structure ClientManager where
  clients : List Client := []
  uniqueIdCounter : Nat := 0
  openid2Clients : Std.TreeMap String ClientPtr := ∅
  cuid2Clients : Std.TreeMap Cuid ClientPtr := ∅
  ccid2Clients : Std.TreeMap Ccid ClientPtr := ∅

namespace ClientManager

variable (m : ClientManager)

/-- `*client`. Pointers come from the maps or from `create` and never dangle. -/
def client (p : ClientPtr) : Client := m.clients.getD p {}

def modifyClient (p : ClientPtr) (f : Client → Client) : ClientManager :=
  { m with clients := m.clients.modify p f }

def getByOpenid (openid : String) : Option ClientPtr := m.openid2Clients[openid]?

def getByCuid (cuid : Cuid) : Option ClientPtr := m.cuid2Clients[cuid]?

def getByCcid (ccid : Ccid) : Option ClientPtr := m.ccid2Clients[ccid]?

/-- A map that already has the key takes nothing, and what the maps before it took
is taken back. -/
def insert (p : ClientPtr) : Bool × ClientManager :=
  let client := m.client p
  if client.openid ∈ m.openid2Clients then (false, m)
  else if client.cuid ∈ m.cuid2Clients then
    (false, { m with openid2Clients := m.openid2Clients.erase client.openid })
  else if client.ccid ∈ m.ccid2Clients then
    (false, { m with
      openid2Clients := m.openid2Clients.erase client.openid
      cuid2Clients := m.cuid2Clients.erase client.cuid })
  else
    (true, { m with
      openid2Clients := m.openid2Clients.insert client.openid p
      cuid2Clients := m.cuid2Clients.insert client.cuid p
      ccid2Clients := m.ccid2Clients.insert client.ccid p })

/-- Erases what the maps have under the keys of the client, whoever it is. -/
def erase (p : ClientPtr) : ClientManager :=
  let client := m.client p
  { m with
    openid2Clients := m.openid2Clients.erase client.openid
    cuid2Clients := m.cuid2Clients.erase client.cuid
    ccid2Clients := m.ccid2Clients.erase client.ccid }

/-- `++m_uniqueIdCounter`, a `uint32_t`. -/
def getClientUniqueId : Cuid × ClientManager :=
  let uniqueId := (m.uniqueIdCounter + 1) % 2 ^ 32
  (uniqueId, { m with uniqueIdCounter := uniqueId })

end ClientManager

/-- Everything a room can touch apart from itself: the clients, the deck shared by
all rooms, the random generator, the clock, and what has been sent so far. -/
structure World where
  clients : ClientManager := {}
  deck : List Card := []
  rg : Nat → Shuffle
  shuffles : Nat := 0
  timerTime : Int := 0
  sent : List Outgoing := []

namespace World

variable (w : World)

def client (p : ClientPtr) : Client := w.clients.client p

def getByCuid (cuid : Cuid) : Option ClientPtr := w.clients.getByCuid cuid

def getByCcid (ccid : Ccid) : Option ClientPtr := w.clients.getByCcid ccid

def sendToPrivate (msg : PrivateMsg) : World := { w with sent := w.sent ++ [.gateway msg] }

def sendToMe (p : ClientPtr) (msg : Msg) : World :=
  { w with sent := w.sent ++ [.relay (w.client p).ccid msg] }

def noticeMessageBox (p : ClientPtr) (text : String) : World := w.sendToMe p (.notice text)

def setRoomId (p : ClientPtr) (roomId : RoomId) : World :=
  { w with clients := w.clients.modifyClient p fun client => { client with roomId := roomId } }

def addMoney (p : ClientPtr) (money : Int) : World :=
  { w with clients :=
      w.clients.modifyClient p fun client => { client with money := client.money + money } }

def enoughMoney (p : ClientPtr) (money : Int) : Bool := money < (w.client p).money

def afterLeaveRoom (p : ClientPtr) : World := (w.setRoomId p 0).sendToMe p .playerQuited

def sendToCuid (cuid : Cuid) (msg : Msg) : World :=
  match w.getByCuid cuid with
  | some p => w.sendToMe p msg
  | none => w

def sendToSeats (cuids : List Cuid) (msg : Msg) : World :=
  cuids.foldl (fun w cuid => w.sendToCuid cuid msg) w

end World

end CasualGame.Lobby
