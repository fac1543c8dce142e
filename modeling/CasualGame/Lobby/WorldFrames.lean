import CasualGame.Lib.Run
import CasualGame.Lobby.Room

/-!
What the functions of a room do to the world around it: most only send messages,
and the rest moves clients out of their rooms.
-/

namespace CasualGame.Lobby.WorldFrames

open Deck
open Dealing
open Game13
open Lib.Run

section Says

/-- From `w` to `w'` nothing happens but messages. -/
def Says (w w' : World) : Prop := ∃ sent, w' = { w with sent := sent }

variable {w w₁ w₂ : World}

@[refl] theorem Says.refl (w : World) : Says w w := ⟨w.sent, rfl⟩

@[trans] theorem Says.trans (h₁ : Says w w₁) (h₂ : Says w₁ w₂) : Says w w₂ := by
  obtain ⟨sent₁, rfl⟩ := h₁
  obtain ⟨sent₂, rfl⟩ := h₂
  exact ⟨sent₂, rfl⟩

theorem Says.clients (h : Says w w₁) : w₁.clients = w.clients := by
  obtain ⟨sent, rfl⟩ := h
  rfl

theorem Says.client (h : Says w w₁) (p : ClientPtr) : w₁.client p = w.client p := by
  obtain ⟨sent, rfl⟩ := h
  rfl

theorem Says.timerTime (h : Says w w₁) : w₁.timerTime = w.timerTime := by
  obtain ⟨sent, rfl⟩ := h
  rfl

/-- From `w` to `w'` nothing happens but messages relayed to clients. -/
def Relays (w w' : World) : Prop :=
  ∃ out, w' = { w with sent := w.sent ++ out } ∧ ∀ o ∈ out, ∃ ccid msg, o = .relay ccid msg

theorem Relays.said (h : Relays w w₁) : Says w w₁ := by
  obtain ⟨out, rfl, -⟩ := h
  exact ⟨_, rfl⟩

@[refl] theorem Relays.refl (w : World) : Relays w w := ⟨[], by simp, by simp⟩

@[trans] theorem Relays.trans (h₁ : Relays w w₁) (h₂ : Relays w₁ w₂) : Relays w w₂ := by
  obtain ⟨out₁, rfl, hout₁⟩ := h₁
  obtain ⟨out₂, rfl, hout₂⟩ := h₂
  refine ⟨out₁ ++ out₂, by simp, ?_⟩
  intro o ho
  rcases List.mem_append.mp ho with ho | ho
  · exact hout₁ o ho
  · exact hout₂ o ho

theorem Relays.foldl {β : Type} {f : World → β → World} (hf : ∀ w b, Relays w (f w b))
    (bs : List β) (w : World) : Relays w (bs.foldl f w) := by
  induction bs generalizing w with
  | nil => exact Relays.refl w
  | cons b bs ih => exact (hf w b).trans (ih (f w b))

theorem relays_sendToMe (w : World) (p : ClientPtr) (msg : Msg) : Relays w (w.sendToMe p msg) :=
  ⟨[.relay (w.client p).ccid msg], rfl, by simp⟩

theorem relays_sendToCuid (w : World) (cuid : Cuid) (msg : Msg) :
    Relays w (w.sendToCuid cuid msg) := by
  unfold World.sendToCuid
  cases w.getByCuid cuid with
  | none => exact Relays.refl w
  | some p => exact relays_sendToMe w p msg

theorem relays_sendToSeats (w : World) (cuids : List Cuid) (msg : Msg) :
    Relays w (w.sendToSeats cuids msg) :=
  Relays.foldl (fun w cuid => relays_sendToCuid w cuid msg) cuids w

theorem relays_sync (w : World) (game : Game13) :
    Relays w (syncAllPlayersInfoToAllClients w game) :=
  relays_sendToSeats w _ _

theorem relays_afterEnterRoom (w : World) (game : Game13) (p : ClientPtr) :
    Relays w (afterEnterRoom w game p) := by
  have hhands : ∀ w : World, Relays w
      (game.players.foldl (fun w info => w.sendToMe p (.handOfMine info.cards)) w) := fun w =>
    Relays.foldl (fun w info => relays_sendToMe w p _) _ w
  refine ((relays_sendToMe w p (.roomAttr game.attr.roomId game.ownerCuid game.attr)).trans
    (relays_sync _ game)).trans ?_
  simp only [afterEnterRoom]
  generalize syncAllPlayersInfoToAllClients
    (w.sendToMe p (.roomAttr game.attr.roomId game.ownerCuid game.attr)) game = w₁
  split_ifs
  · exact (hhands w₁).trans (relays_sendToMe _ p _)
  · exact relays_sendToMe w₁ p _
  · exact hhands w₁
  · exact Relays.refl w₁

theorem says_sendToMe (w : World) (p : ClientPtr) (msg : Msg) : Says w (w.sendToMe p msg) :=
  (relays_sendToMe w p msg).said

theorem says_notice (w : World) (p : ClientPtr) (text : String) :
    Says w (w.noticeMessageBox p text) :=
  says_sendToMe w p _

theorem says_sendToPrivate (w : World) (msg : PrivateMsg) : Says w (w.sendToPrivate msg) :=
  ⟨_, rfl⟩

theorem says_sendToSeats (w : World) (cuids : List Cuid) (msg : Msg) :
    Says w (w.sendToSeats cuids msg) :=
  (relays_sendToSeats w cuids msg).said

theorem says_sync (w : World) (game : Game13) : Says w (syncAllPlayersInfoToAllClients w game) :=
  (relays_sync w game).said

theorem says_afterEnterRoom (w : World) (game : Game13) (p : ClientPtr) :
    Says w (afterEnterRoom w game p) :=
  (relays_afterEnterRoom w game p).said

end Says

section Clients

/-- The clients and the indexes are the same, up to the rooms the clients are in. -/
structure SameClients (m m' : ClientManager) : Prop where
  length : m'.clients.length = m.clients.length
  counter : m'.uniqueIdCounter = m.uniqueIdCounter
  openids : m'.openid2Clients = m.openid2Clients
  cuids : m'.cuid2Clients = m.cuid2Clients
  ccids : m'.ccid2Clients = m.ccid2Clients
  client : ∀ p, m'.client p = { m.client p with roomId := (m'.client p).roomId }

/-- From `w` to `w'` clients change rooms and messages are sent. -/
structure Relocates (w w' : World) : Prop where
  clients : SameClients w.clients w'.clients
  timerTime : w'.timerTime = w.timerTime

variable {m m₁ m₂ : ClientManager} {w w₁ w₂ : World}

theorem getElem?_clients (m : ClientManager) (p : ClientPtr) :
    m.client p = m.clients[p]?.getD {} := by
  rw [ClientManager.client, List.getD_eq_getElem?_getD]

theorem client_modifyClient (m : ClientManager) (p q : ClientPtr) (f : Client → Client) :
    (m.modifyClient p f).client q =
      if q = p ∧ p < m.clients.length then f (m.client q) else m.client q := by
  simp only [getElem?_clients, ClientManager.modifyClient, List.getElem?_modify]
  by_cases hpq : p = q
  · subst hpq
    by_cases hp : p < m.clients.length
    · simp [hp]
    · simp [hp]
  · have hqp : ¬ q = p := fun h => hpq h.symm
    simp [hpq, hqp]

theorem client_of_le {p : ClientPtr} (h : m.clients.length ≤ p) : m.client p = {} := by
  rw [getElem?_clients, List.getElem?_eq_none h]
  rfl

theorem client_setRoomId (w : World) (p q : ClientPtr) (roomId : RoomId) :
    (w.setRoomId p roomId).client q =
      if q = p ∧ p < w.clients.clients.length then { w.client q with roomId := roomId }
      else w.client q :=
  client_modifyClient w.clients p q _

theorem client_setRoomId_zero (w : World) (p q : ClientPtr) :
    (w.setRoomId p 0).client q =
      if q = p then { w.client q with roomId := 0 } else w.client q := by
  rw [client_setRoomId]
  by_cases hq : q = p
  · subst hq
    by_cases hlen : q < w.clients.clients.length
    · rw [if_pos ⟨rfl, hlen⟩, if_pos rfl]
    · have hempty : w.client q = {} := client_of_le (Nat.le_of_not_lt hlen)
      rw [if_neg (by simp [hlen]), if_pos rfl, hempty]
  · rw [if_neg (by simp [hq]), if_neg hq]

theorem client_addMoney (w : World) (p q : ClientPtr) (money : Int) :
    (w.addMoney p money).client q =
      if q = p ∧ p < w.clients.clients.length then
        { w.client q with money := (w.client q).money + money }
      else w.client q :=
  client_modifyClient w.clients p q _

@[refl] theorem SameClients.refl (m : ClientManager) : SameClients m m :=
  ⟨rfl, rfl, rfl, rfl, rfl, fun _ => rfl⟩

@[trans] theorem SameClients.trans (h₁ : SameClients m m₁) (h₂ : SameClients m₁ m₂) :
    SameClients m m₂ := by
  refine ⟨h₂.length.trans h₁.length, h₂.counter.trans h₁.counter, h₂.openids.trans h₁.openids,
    h₂.cuids.trans h₁.cuids, h₂.ccids.trans h₁.ccids, fun p => ?_⟩
  rw [h₂.client p, h₁.client p]

theorem SameClients.cuid (h : SameClients m m₁) (p : ClientPtr) :
    (m₁.client p).cuid = (m.client p).cuid := by
  rw [h.client p]

theorem SameClients.ccid (h : SameClients m m₁) (p : ClientPtr) :
    (m₁.client p).ccid = (m.client p).ccid := by
  rw [h.client p]

theorem SameClients.openid (h : SameClients m m₁) (p : ClientPtr) :
    (m₁.client p).openid = (m.client p).openid := by
  rw [h.client p]

theorem SameClients.money (h : SameClients m m₁) (p : ClientPtr) :
    (m₁.client p).money = (m.client p).money := by
  rw [h.client p]

/-- The indexes are the same and the clients have the keys they had. -/
structure SameKeys (m m' : ClientManager) : Prop where
  length : m'.clients.length = m.clients.length
  counter : m'.uniqueIdCounter = m.uniqueIdCounter
  openids : m'.openid2Clients = m.openid2Clients
  cuids : m'.cuid2Clients = m.cuid2Clients
  ccids : m'.ccid2Clients = m.ccid2Clients
  openid : ∀ p, (m'.client p).openid = (m.client p).openid
  cuid : ∀ p, (m'.client p).cuid = (m.client p).cuid
  ccid : ∀ p, (m'.client p).ccid = (m.client p).ccid

@[refl] theorem SameKeys.refl (m : ClientManager) : SameKeys m m :=
  ⟨rfl, rfl, rfl, rfl, rfl, fun _ => rfl, fun _ => rfl, fun _ => rfl⟩

@[trans] theorem SameKeys.trans (h₁ : SameKeys m m₁) (h₂ : SameKeys m₁ m₂) : SameKeys m m₂ :=
  ⟨h₂.length.trans h₁.length, h₂.counter.trans h₁.counter, h₂.openids.trans h₁.openids,
    h₂.cuids.trans h₁.cuids, h₂.ccids.trans h₁.ccids, fun p => (h₂.openid p).trans (h₁.openid p),
    fun p => (h₂.cuid p).trans (h₁.cuid p), fun p => (h₂.ccid p).trans (h₁.ccid p)⟩

theorem SameClients.keys (h : SameClients m m₁) : SameKeys m m₁ :=
  ⟨h.length, h.counter, h.openids, h.cuids, h.ccids, h.openid, h.cuid, h.ccid⟩

theorem sameKeys_addMoney (w : World) (p : ClientPtr) (money : Int) :
    SameKeys w.clients (w.addMoney p money).clients := by
  have hclient : ∀ q, (w.addMoney p money).clients.client q =
      { w.clients.client q with money := ((w.addMoney p money).clients.client q).money } := by
    intro q
    change (w.addMoney p money).client q = _
    rw [client_addMoney]
    split_ifs with hq
    · change _ = { w.client q with money := ((w.addMoney p money).client q).money }
      rw [client_addMoney, if_pos hq]
    · change _ = { w.client q with money := ((w.addMoney p money).client q).money }
      rw [client_addMoney, if_neg hq]
  exact ⟨List.length_modify .., rfl, rfl, rfl, rfl, fun q => by rw [hclient q],
    fun q => by rw [hclient q], fun q => by rw [hclient q]⟩

theorem sameClients_setRoomId (w : World) (p : ClientPtr) (roomId : RoomId) :
    SameClients w.clients (w.setRoomId p roomId).clients := by
  refine ⟨List.length_modify .., rfl, rfl, rfl, rfl, fun q => ?_⟩
  change (w.setRoomId p roomId).client q =
    { w.client q with roomId := ((w.setRoomId p roomId).client q).roomId }
  rw [client_setRoomId]
  split_ifs
  · rfl
  · rfl

@[refl] theorem Relocates.refl (w : World) : Relocates w w := ⟨SameClients.refl _, rfl⟩

@[trans] theorem Relocates.trans (h₁ : Relocates w w₁) (h₂ : Relocates w₁ w₂) :
    Relocates w w₂ :=
  ⟨h₁.clients.trans h₂.clients, h₂.timerTime.trans h₁.timerTime⟩

theorem Relocates.of_said (h : Says w w₁) : Relocates w w₁ :=
  ⟨h.clients ▸ SameClients.refl _, h.timerTime⟩

theorem Relocates.getByCuid (h : Relocates w w₁) (cuid : Cuid) :
    w₁.getByCuid cuid = w.getByCuid cuid := by
  change w₁.clients.cuid2Clients[cuid]? = w.clients.cuid2Clients[cuid]?
  rw [h.clients.cuids]

theorem relocates_setRoomId (w : World) (p : ClientPtr) (roomId : RoomId) :
    Relocates w (w.setRoomId p roomId) :=
  ⟨sameClients_setRoomId w p roomId, rfl⟩

theorem relocates_afterLeaveRoom (w : World) (p : ClientPtr) :
    Relocates w (w.afterLeaveRoom p) :=
  (relocates_setRoomId w p 0).trans (.of_said (says_sendToMe _ p _))

theorem roomId_afterLeaveRoom (w : World) (p q : ClientPtr) :
    ((w.afterLeaveRoom p).client q).roomId = if q = p then 0 else (w.client q).roomId := by
  change ((w.setRoomId p 0).client q).roomId = _
  rw [client_setRoomId_zero]
  split_ifs
  · rfl
  · rfl

theorem relocates_clientOnlineExec (w : World) (game : Game13) (p : ClientPtr) :
    Relocates w (clientOnlineExec w game p) := by
  unfold clientOnlineExec
  split_ifs
  · exact relocates_setRoomId w p 0
  · exact .of_said (says_afterEnterRoom w game p)

theorem relocates_kickAll (w : World) (cuids : List Cuid) : Relocates w (kickAll w cuids) := by
  unfold kickAll
  induction cuids generalizing w with
  | nil => exact Relocates.refl w
  | cons cuid cuids ih =>
      rw [List.foldl_cons]
      cases w.getByCuid cuid with
      | none => exact ih w
      | some p => exact (relocates_afterLeaveRoom w p).trans (ih _)

theorem roomId_kickAll (w : World) (cuids : List Cuid) (q : ClientPtr) :
    ((kickAll w cuids).client q).roomId =
      if ∃ cuid ∈ cuids, w.getByCuid cuid = some q then 0 else (w.client q).roomId := by
  unfold kickAll
  induction cuids generalizing w with
  | nil => simp
  | cons cuid cuids ih =>
      rw [List.foldl_cons]
      cases hcuid : w.getByCuid cuid with
      | none =>
          rw [ih w]
          simp [hcuid]
      | some p =>
          dsimp only
          rw [ih (w.afterLeaveRoom p)]
          simp only [(relocates_afterLeaveRoom w p).getByCuid, roomId_afterLeaveRoom,
            List.exists_mem_cons_iff, hcuid, Option.some.injEq]
          by_cases hq : q = p
          · simp [hq]
          · have hpq : ¬ p = q := fun h => hq h.symm
            simp [hq, hpq]

end Clients

section Keeps

/-- From `w` to `w'` no client comes, goes or changes its keys, and the clock stands. -/
structure Keeps (w w' : World) : Prop where
  keys : SameKeys w.clients w'.clients
  timerTime : w'.timerTime = w.timerTime

variable {w w' w₁ w₂ : World} {game game' : Game13}

@[refl] theorem Keeps.refl (w : World) : Keeps w w := ⟨SameKeys.refl _, rfl⟩

@[trans] theorem Keeps.trans (h₁ : Keeps w w₁) (h₂ : Keeps w₁ w₂) : Keeps w w₂ :=
  ⟨h₁.keys.trans h₂.keys, h₂.timerTime.trans h₁.timerTime⟩

theorem Relocates.keeps (h : Relocates w w₁) : Keeps w w₁ := ⟨h.clients.keys, h.timerTime⟩

theorem Says.keeps (h : Says w w₁) : Keeps w w₁ := (Relocates.of_said h).keeps

theorem relocates_removePlayer (w : World) (game : Game13) (p : ClientPtr) :
    Relocates w (removePlayer w game p).1 := by
  unfold removePlayer
  cases game.getPlayerInfoByCuid (w.client p).cuid with
  | none => exact .of_said (says_sync w game)
  | some index => exact (relocates_afterLeaveRoom w p).trans (.of_said (says_sync _ _))

theorem relocates_checkAllVotes (w : World) (game : Game13) :
    Relocates w (checkAllVotes w game).1 := by
  unfold checkAllVotes
  dsimp only
  split_ifs
  · exact Relocates.refl w
  · exact .of_said (says_sendToSeats w _ _)
  · exact (Relocates.of_said (says_sendToSeats w _ _)).trans (relocates_kickAll _ _)
  · exact .of_said (says_sendToSeats w _ _)

/-- What is kept by messages, payments and shuffles, one after the other, is kept when a
round is dealt. -/
structure DealFrame (R : World → World → Prop) : Prop where
  refl : ∀ w, R w w
  trans : ∀ {w w₁ w₂}, R w w₁ → R w₁ w₂ → R w w₂
  said : ∀ {w w'}, Says w w' → R w w'
  addMoney : ∀ (w : World) p money, R w (w.addMoney p money)
  shuffle : ∀ (w : World) deck shuffles, R w { w with deck := deck, shuffles := shuffles }

section Frame

variable {R : World → World → Prop}

theorem DealFrame.chargeFee (hR : DealFrame R) (w : World) (game : Game13) (p : ClientPtr)
    (info : PlayerInfo) : R w (chargeFee w game p info).1 := by
  unfold Game13.chargeFee
  split_ifs
  · exact hR.addMoney w p _
  · exact hR.addMoney w p _
  · exact hR.refl w
  · exact hR.refl w

theorem DealFrame.dealSeat (hR : DealFrame R) {index : Nat} {info info' : PlayerInfo}
    (h : dealSeat w game index info = .ok (w', info')) : R w w' := by
  obtain ⟨cards, -, h⟩ := bind_eq_ok.mp h
  cases hclient : w.getByCuid info.cuid with
  | none =>
      simp only [hclient] at h
      cases h
      exact hR.refl _
  | some p =>
      simp only [hclient] at h
      cases h
      exact hR.trans (hR.chargeFee w game p _) (hR.said (says_sendToMe _ p _))

theorem DealFrame.dealSeats (hR : DealFrame R) {index : Nat} {infos infos' : List PlayerInfo}
    (h : dealSeats game w index infos = .ok (w', infos')) : R w w' := by
  induction infos generalizing w index infos' with
  | nil =>
      cases h
      exact hR.refl _
  | cons info infos ih =>
      obtain ⟨⟨w₁, info'⟩, hseat, h⟩ := bind_eq_ok.mp h
      obtain ⟨⟨w₂, rest⟩, hrest, h⟩ := bind_eq_ok.mp h
      cases h
      exact hR.trans (hR.dealSeat hseat) (ih hrest)

theorem DealFrame.tryStartRound (hR : DealFrame R)
    (h : tryStartRound w game = .ok (w', game')) : R w w' := by
  unfold Game13.tryStartRound at h
  split_ifs at h
  · obtain ⟨w₁, hshuffle, h⟩ := bind_eq_ok.mp h
    obtain ⟨⟨w₂, players⟩, hdeal, h⟩ := bind_eq_ok.mp h
    cases h
    obtain ⟨deck, -, hshuffle⟩ := bind_eq_ok.mp hshuffle
    cases hshuffle
    exact hR.trans (hR.trans (hR.shuffle w _ _) (hR.dealSeats hdeal))
      (hR.said (says_sendToSeats _ _ _))
  · cases h
    exact hR.refl _

end Frame

theorem dealFrame_keeps : DealFrame Keeps where
  refl := Keeps.refl
  trans := Keeps.trans
  said := Says.keeps
  addMoney w p money := ⟨sameKeys_addMoney w p money, rfl⟩
  shuffle _ _ _ := ⟨SameKeys.refl _, rfl⟩

theorem keeps_tryStartRound (h : tryStartRound w game = .ok (w', game')) : Keeps w w' :=
  dealFrame_keeps.tryStartRound h

theorem says_trySettleGame (h : trySettleGame w game = .ok (w', game')) : Says w w' := by
  unfold trySettleGame at h
  split_ifs at h
  · cases h
    exact Says.refl _
  · cases h
    exact Says.refl _
  · obtain ⟨⟨rsd, game₁⟩, -, h⟩ := bind_eq_ok.mp h
    dsimp only at h
    split_ifs at h
    · obtain ⟨counts, -, h⟩ := bind_eq_ok.mp h
      cases h
      exact (says_sendToSeats w _ _).trans (says_sendToSeats _ _ _)
    · cases h
      exact says_sendToSeats w _ _

theorem keeps_timerExec (h : timerExec w game = .ok (w', game')) : Keeps w w' := by
  unfold timerExec at h
  cases hstatus : game.status with
  | prepare =>
      simp only [hstatus] at h
      exact keeps_tryStartRound h
  | vote =>
      simp only [hstatus] at h
      split_ifs at h
      · cases h
        exact (says_sendToSeats w _ _).keeps.trans (relocates_kickAll _ _).keeps
      · cases h
        exact Keeps.refl _
  | settleAll =>
      simp only [hstatus] at h
      split_ifs at h
      · cases h
        exact (relocates_kickAll w _).keeps
      · cases h
        exact Keeps.refl _
  | play | settle | closed =>
      simp only [hstatus] at h
      cases h
      exact Keeps.refl _

end Keeps

section Stays

/-- From `w` to `w'` no client comes or goes, changes its keys or its room. -/
structure Stays (w w' : World) : Prop where
  keys : SameKeys w.clients w'.clients
  roomId : ∀ p, (w'.client p).roomId = (w.client p).roomId

variable {w w' w₁ w₂ : World} {game game' : Game13}

@[refl] theorem Stays.refl (w : World) : Stays w w := ⟨SameKeys.refl _, fun _ => rfl⟩

@[trans] theorem Stays.trans (h₁ : Stays w w₁) (h₂ : Stays w₁ w₂) : Stays w w₂ :=
  ⟨h₁.keys.trans h₂.keys, fun p => (h₂.roomId p).trans (h₁.roomId p)⟩

theorem Says.stays (h : Says w w₁) : Stays w w₁ := ⟨h.keeps.keys, fun p => by rw [h.client]⟩

theorem stays_addMoney (w : World) (p : ClientPtr) (money : Int) :
    Stays w (w.addMoney p money) := by
  refine ⟨sameKeys_addMoney w p money, fun q => ?_⟩
  rw [client_addMoney]
  split_ifs
  · rfl
  · rfl

theorem dealFrame_stays : DealFrame Stays where
  refl := Stays.refl
  trans := Stays.trans
  said := Says.stays
  addMoney := stays_addMoney
  shuffle _ _ _ := ⟨SameKeys.refl _, fun _ => rfl⟩

end Stays

end CasualGame.Lobby.WorldFrames
