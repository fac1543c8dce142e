import CasualGame.Lib.Relate
import CasualGame.Lobby.LobbyActs

/-!
Two runs side by side, first with the same game in both: when the worlds differ only in
what was sent before and in what is left on the deck, the same is sent from then on.
-/

namespace CasualGame.Lobby.TwoRuns

open Dealing
open CalcRound
open Game13
open LobbyState
open Lib.Relate
open LobbyActs

section Worlds

/-- The two worlds have sent the same since `s₁` and `s₂`, and the decks will be the same
once a round is dealt. -/
structure Twins (s₁ s₂ : List Outgoing) (w₁ w₂ : World) : Prop where
  clients : w₁.clients = w₂.clients
  timerTime : w₁.timerTime = w₂.timerTime
  deck : ∀ playType, initDeck playType w₁.deck = initDeck playType w₂.deck
  rg : ∀ i, w₁.rg (w₁.shuffles + i) = w₂.rg (w₂.shuffles + i)
  sent : ∃ out, w₁.sent = s₁ ++ out ∧ w₂.sent = s₂ ++ out

variable {s₁ s₂ : List Outgoing} {w₁ w₂ : World}

theorem Twins.client (h : Twins s₁ s₂ w₁ w₂) (p : ClientPtr) : w₁.client p = w₂.client p := by
  rw [World.client, World.client, h.clients]

theorem Twins.getByCuid (h : Twins s₁ s₂ w₁ w₂) (cuid : Cuid) :
    w₁.getByCuid cuid = w₂.getByCuid cuid := by
  rw [World.getByCuid, World.getByCuid, h.clients]

theorem Twins.getByCcid (h : Twins s₁ s₂ w₁ w₂) (ccid : Ccid) :
    w₁.getByCcid ccid = w₂.getByCcid ccid := by
  rw [World.getByCcid, World.getByCcid, h.clients]

theorem Twins.getByOpenid (h : Twins s₁ s₂ w₁ w₂) (openid : String) :
    w₁.clients.getByOpenid openid = w₂.clients.getByOpenid openid := by
  rw [h.clients]

theorem Twins.enoughMoney (h : Twins s₁ s₂ w₁ w₂) (p : ClientPtr) (money : Int) :
    w₁.enoughMoney p money = w₂.enoughMoney p money := by
  rw [World.enoughMoney, World.enoughMoney, h.client]

theorem Twins.withClients (h : Twins s₁ s₂ w₁ w₂) (f : ClientManager → ClientManager) :
    Twins s₁ s₂ { w₁ with clients := f w₁.clients } { w₂ with clients := f w₂.clients } :=
  ⟨congrArg f h.clients, h.timerTime, h.deck, h.rg, h.sent⟩

theorem Twins.setRoomId (h : Twins s₁ s₂ w₁ w₂) (p : ClientPtr) (roomId : RoomId) :
    Twins s₁ s₂ (w₁.setRoomId p roomId) (w₂.setRoomId p roomId) :=
  h.withClients fun clients => clients.modifyClient p _

theorem Twins.addMoney (h : Twins s₁ s₂ w₁ w₂) (p : ClientPtr) (money : Int) :
    Twins s₁ s₂ (w₁.addMoney p money) (w₂.addMoney p money) :=
  h.withClients fun clients => clients.modifyClient p _

theorem Twins.send (h : Twins s₁ s₂ w₁ w₂) {o₁ o₂ : Outgoing} (ho : o₁ = o₂) :
    Twins s₁ s₂ { w₁ with sent := w₁.sent ++ [o₁] } { w₂ with sent := w₂.sent ++ [o₂] } := by
  subst ho
  obtain ⟨out, h₁, h₂⟩ := h.sent
  refine ⟨h.clients, h.timerTime, h.deck, h.rg, out ++ [o₁], ?_, ?_⟩
  · simp [h₁]
  · simp [h₂]

theorem Twins.sendToPrivate (h : Twins s₁ s₂ w₁ w₂) (msg : PrivateMsg) :
    Twins s₁ s₂ (w₁.sendToPrivate msg) (w₂.sendToPrivate msg) :=
  h.send rfl

theorem Twins.sendToMe (h : Twins s₁ s₂ w₁ w₂) (p : ClientPtr) (msg : Msg) :
    Twins s₁ s₂ (w₁.sendToMe p msg) (w₂.sendToMe p msg) :=
  h.send (by rw [h.client])

theorem Twins.foldl {α : Type} {f : World → α → World}
    (hf : ∀ a {w₁ w₂}, Twins s₁ s₂ w₁ w₂ → Twins s₁ s₂ (f w₁ a) (f w₂ a)) (as : List α)
    (h : Twins s₁ s₂ w₁ w₂) : Twins s₁ s₂ (as.foldl f w₁) (as.foldl f w₂) :=
  List.foldl_rel h fun a _ _ _ hw => hf a hw

theorem Twins.sendToCuid (h : Twins s₁ s₂ w₁ w₂) (cuid : Cuid) (msg : Msg) :
    Twins s₁ s₂ (w₁.sendToCuid cuid msg) (w₂.sendToCuid cuid msg) := by
  rw [World.sendToCuid, World.sendToCuid, h.getByCuid]
  cases w₂.getByCuid cuid with
  | none => exact h
  | some p => exact h.sendToMe p msg

theorem Twins.sendToSeats (h : Twins s₁ s₂ w₁ w₂) (cuids : List Cuid) (msg : Msg) :
    Twins s₁ s₂ (w₁.sendToSeats cuids msg) (w₂.sendToSeats cuids msg) :=
  h.foldl (fun cuid _ _ hw => hw.sendToCuid cuid msg) cuids

theorem Twins.sync (h : Twins s₁ s₂ w₁ w₂) (game : Game13) :
    Twins s₁ s₂ (syncAllPlayersInfoToAllClients w₁ game)
      (syncAllPlayersInfoToAllClients w₂ game) :=
  h.sendToSeats _ _

theorem Twins.afterLeaveRoom (h : Twins s₁ s₂ w₁ w₂) (p : ClientPtr) :
    Twins s₁ s₂ (w₁.afterLeaveRoom p) (w₂.afterLeaveRoom p) :=
  (h.setRoomId p 0).sendToMe p .playerQuited

theorem Twins.kickAll (h : Twins s₁ s₂ w₁ w₂) (cuids : List Cuid) :
    Twins s₁ s₂ (kickAll w₁ cuids) (kickAll w₂ cuids) := by
  refine h.foldl ?_ cuids
  intro cuid w₁ w₂ hw
  rw [hw.getByCuid]
  cases w₂.getByCuid cuid with
  | none => exact hw
  | some p => exact hw.afterLeaveRoom p

theorem Twins.remainSeconds (h : Twins s₁ s₂ w₁ w₂) (game : Game13) :
    remainSeconds w₁ game = remainSeconds w₂ game := by
  rw [Game13.remainSeconds, Game13.remainSeconds, h.timerTime]

theorem Twins.afterEnterRoom (h : Twins s₁ s₂ w₁ w₂) (game : Game13) (p : ClientPtr) :
    Twins s₁ s₂ (afterEnterRoom w₁ game p) (afterEnterRoom w₂ game p) := by
  have hsync := (h.sendToMe p (.roomAttr game.attr.roomId game.ownerCuid game.attr)).sync game
  have hhands := hsync.foldl
    (f := fun w (info : PlayerInfo) => w.sendToMe p (.handOfMine info.cards))
    (fun info _ _ hw => hw.sendToMe p (.handOfMine info.cards)) game.players
  unfold Game13.afterEnterRoom
  dsimp only
  split_ifs
  · rw [hhands.remainSeconds]
    exact hhands.sendToMe p _
  · rw [hsync.remainSeconds]
    exact hsync.sendToMe p _
  · exact hhands
  · exact hsync

theorem Twins.clientOnlineExec (h : Twins s₁ s₂ w₁ w₂) (game : Game13) (p : ClientPtr) :
    Twins s₁ s₂ (clientOnlineExec w₁ game p) (clientOnlineExec w₂ game p) := by
  unfold Game13.clientOnlineExec
  rw [h.client]
  split_ifs
  · exact h.setRoomId p 0
  · exact h.afterEnterRoom game p

end Worlds

section Rooms

/-- The twins have made the same of a game. -/
def Same (s₁ s₂ : List Outgoing) (r₁ r₂ : World × Game13) : Prop :=
  Twins s₁ s₂ r₁.1 r₂.1 ∧ r₁.2 = r₂.2

variable {s₁ s₂ : List Outgoing} {w₁ w₂ : World}

theorem Twins.checkMoney (h : Twins s₁ s₂ w₁ w₂) (game : Game13) (p : ClientPtr) :
    checkMoney w₁ game p = checkMoney w₂ game p := by
  simp only [Game13.checkMoney, h.client, h.enoughMoney]

theorem Twins.enterRoom (h : Twins s₁ s₂ w₁ w₂) (game : Game13) (p : ClientPtr) :
    Same s₁ s₂ (enterRoom w₁ game p).2 (enterRoom w₂ game p).2 := by
  simp only [Game13.enterRoom, h.client, h.checkMoney]
  split_ifs
  · exact ⟨h, rfl⟩
  · exact ⟨h.sendToMe p _, rfl⟩
  · exact ⟨h.sendToMe p _, rfl⟩
  · cases game.getEmptySeatIndex with
    | none => exact ⟨h.sendToMe p _, rfl⟩
    | some index =>
        dsimp only
        cases Game13.checkMoney w₂ _ p with
        | none => exact ⟨h, rfl⟩
        | some enough =>
            cases enough with
            | false => exact ⟨h.sendToMe p _, rfl⟩
            | true => exact ⟨(h.setRoomId p game.id).afterEnterRoom _ p, rfl⟩

theorem Twins.removePlayer (h : Twins s₁ s₂ w₁ w₂) (game : Game13) (p : ClientPtr) :
    Same s₁ s₂ (removePlayer w₁ game p) (removePlayer w₂ game p) := by
  simp only [Game13.removePlayer, h.client]
  cases game.getPlayerInfoByCuid (w₂.client p).cuid with
  | none => exact ⟨h.sync game, rfl⟩
  | some index => exact ⟨(h.afterLeaveRoom p).sync _, rfl⟩

theorem Twins.abortGame (h : Twins s₁ s₂ w₁ w₂) (game : Game13) :
    Same s₁ s₂ (abortGame w₁ game) (abortGame w₂ game) :=
  ⟨h.kickAll _, rfl⟩

theorem Twins.checkAllVotes (h : Twins s₁ s₂ w₁ w₂) (game : Game13) :
    Same s₁ s₂ (checkAllVotes w₁ game) (checkAllVotes w₂ game) := by
  simp only [Game13.checkAllVotes, h.remainSeconds]
  split_ifs
  · exact ⟨h, rfl⟩
  · exact ⟨h.sendToSeats _ _, rfl⟩
  · exact (h.sendToSeats _ _).abortGame _
  · exact ⟨h.sendToSeats _ _, rfl⟩

theorem Twins.everyoneReady (h : Twins s₁ s₂ w₁ w₂) (game : Game13) :
    everyoneReady w₁ game = everyoneReady w₂ game := by
  simp only [Game13.everyoneReady, h.getByCuid]

/-- A round being dealt: from the shuffle on the decks are the same. -/
def SameDeal {α : Type} (s₁ s₂ : List Outgoing) (r₁ r₂ : World × α) : Prop :=
  Twins s₁ s₂ r₁.1 r₂.1 ∧ r₁.1.deck = r₂.1.deck ∧ r₁.2 = r₂.2

theorem Twins.chargeFee (h : Twins s₁ s₂ w₁ w₂) (hdeck : w₁.deck = w₂.deck) (game : Game13)
    (p : ClientPtr) (info : PlayerInfo) :
    SameDeal s₁ s₂ (chargeFee w₁ game p info) (chargeFee w₂ game p info) := by
  simp only [Game13.chargeFee, h.client]
  split_ifs
  · exact ⟨h.addMoney p _, hdeck, rfl⟩
  · exact ⟨h.addMoney p _, hdeck, rfl⟩
  · exact ⟨h, hdeck, rfl⟩
  · exact ⟨h, hdeck, rfl⟩

theorem Twins.dealSeat (h : Twins s₁ s₂ w₁ w₂) (hdeck : w₁.deck = w₂.deck) (game : Game13)
    (index : Nat) (info : PlayerInfo) :
    Related (SameDeal s₁ s₂) (dealSeat w₁ game index info) (dealSeat w₂ game index info) := by
  unfold Game13.dealSeat
  rw [hdeck]
  refine Related.bind (.of_eq (dealHand w₂.deck index)) ?_
  rintro cards _ rfl
  dsimp only
  rw [h.getByCuid]
  cases w₂.getByCuid info.cuid with
  | none => exact .ok ⟨h, hdeck, rfl⟩
  | some p =>
      obtain ⟨hw, hdecks, hinfo⟩ := h.chargeFee hdeck game p { info with cards := sortHand cards }
      refine .ok ⟨?_, hdecks, ?_⟩
      · dsimp only
        rw [hinfo]
        exact hw.sendToMe p _
      · dsimp only
        rw [hinfo]

theorem Twins.dealSeats (h : Twins s₁ s₂ w₁ w₂) (hdeck : w₁.deck = w₂.deck) (game : Game13)
    (index : Nat) (infos : List PlayerInfo) :
    Related (SameDeal s₁ s₂) (dealSeats game w₁ index infos) (dealSeats game w₂ index infos) := by
  induction infos generalizing w₁ w₂ index with
  | nil => exact .ok ⟨h, hdeck, rfl⟩
  | cons info infos ih =>
      refine Related.bind (h.dealSeat hdeck game index info) ?_
      rintro ⟨w₁, info₁⟩ ⟨w₂, info₂⟩ ⟨hw, hdecks, hinfo⟩
      refine Related.bind (ih hw hdecks (index + 13)) ?_
      rintro ⟨w₁, infos₁⟩ ⟨w₂, infos₂⟩ ⟨hw, hdecks, hinfos⟩
      exact .ok ⟨hw, hdecks, congrArg₂ List.cons hinfo hinfos⟩

theorem Twins.shuffleDeck (h : Twins s₁ s₂ w₁ w₂) (playType : PlayType) :
    Related (fun w₁ w₂ => Twins s₁ s₂ w₁ w₂ ∧ w₁.deck = w₂.deck) (shuffleDeck w₁ playType)
      (shuffleDeck w₂ playType) := by
  unfold Game13.shuffleDeck
  rw [h.deck]
  refine Related.bind (.of_eq (initDeck playType w₂.deck)) ?_
  rintro cards _ rfl
  have hrun : (w₁.rg w₁.shuffles).run cards = (w₂.rg w₂.shuffles).run cards := by
    have hrg := h.rg 0
    rw [Nat.add_zero, Nat.add_zero] at hrg
    rw [hrg]
  refine .ok ⟨⟨h.clients, h.timerTime, ?_, ?_, h.sent⟩, hrun⟩
  · intro playType
    rw [hrun]
  · intro i
    show w₁.rg (w₁.shuffles + 1 + i) = w₂.rg (w₂.shuffles + 1 + i)
    rw [Nat.add_assoc, Nat.add_assoc]
    exact h.rg (1 + i)

theorem Twins.tryStartRound (h : Twins s₁ s₂ w₁ w₂) (game : Game13) :
    Related (Same s₁ s₂) (tryStartRound w₁ game) (tryStartRound w₂ game) := by
  unfold Game13.tryStartRound
  rw [h.everyoneReady]
  split_ifs
  · refine Related.bind (h.shuffleDeck game.attr.playType) ?_
    rintro w₁ w₂ ⟨hw, hdeck⟩
    refine Related.bind (hw.dealSeats hdeck _ 0 game.players) ?_
    rintro ⟨w₁, players₁⟩ ⟨w₂, players₂⟩ ⟨hw, -, hplayers⟩
    cases hplayers
    exact .ok ⟨hw.sync _, rfl⟩
  · exact .ok ⟨h, rfl⟩

theorem Twins.trySettleGame (h : Twins s₁ s₂ w₁ w₂) (game : Game13) :
    Related (Same s₁ s₂) (trySettleGame w₁ game) (trySettleGame w₂ game) := by
  unfold Game13.trySettleGame
  split_ifs
  · exact .ok ⟨h, rfl⟩
  · exact .ok ⟨h, rfl⟩
  · refine Related.bind (.of_eq (calcRound game)) ?_
    rintro ⟨curRound, game⟩ _ rfl
    dsimp only
    split_ifs
    · refine Related.bind (.of_eq (allFinalCount _ _)) ?_
      rintro counts _ rfl
      have hw := (h.sendToSeats (game.cuids.filter (· ≠ 0)) (allHands (withCards curRound
        game.players))).sendToSeats (game.cuids.filter (· ≠ 0)) (.allRounds counts)
      exact .ok ⟨hw, congrArg (fun time => { game with
        settleData := game.settleData ++ [withCards curRound game.players]
        status := .settleAll
        settleAllTime := time }) hw.timerTime⟩
    · exact .ok ⟨h.sendToSeats _ _, rfl⟩

theorem Twins.timerExec (h : Twins s₁ s₂ w₁ w₂) (game : Game13) :
    Related (Same s₁ s₂) (timerExec w₁ game) (timerExec w₂ game) := by
  unfold Game13.timerExec
  rw [h.timerTime]
  cases game.status with
  | prepare => exact h.tryStartRound game
  | vote =>
      dsimp only
      split_ifs
      · exact .ok ((h.sendToSeats _ _).abortGame _)
      · exact .ok ⟨h, rfl⟩
  | settleAll =>
      dsimp only
      split_ifs
      · exact .ok (h.abortGame _)
      · exact .ok ⟨h, rfl⟩
  | play | settle | closed => exact .ok ⟨h, rfl⟩

theorem Twins.giveUpRoom (h : Twins s₁ s₂ w₁ w₂) (game : Game13) (p : ClientPtr) (seat : Nat) :
    Same s₁ s₂ (giveUpRoom w₁ game p seat) (giveUpRoom w₂ game p seat) := by
  unfold LobbyState.giveUpRoom
  rw [h.client, h.timerTime]
  cases game.status with
  | prepare =>
      dsimp only
      split_ifs
      · exact h.abortGame game
      · exact h.removePlayer game p
  | play | vote => exact h.checkAllVotes _
  | settle => exact ⟨h, rfl⟩
  | settleAll | closed => exact h.removePlayer game p

theorem Twins.readyFlagRoom (h : Twins s₁ s₂ w₁ w₂) (game : Game13) (seat : Nat)
    (newStatus : PlayerStatus) :
    Related (Same s₁ s₂) (readyFlagRoom w₁ game seat newStatus)
      (readyFlagRoom w₂ game seat newStatus) := by
  unfold LobbyState.readyFlagRoom
  dsimp only
  split_ifs
  · exact (h.sync _).tryStartRound _
  · exact .ok ⟨h.sync _, rfl⟩

theorem Twins.bringOutRoom (h : Twins s₁ s₂ w₁ w₂) (game : Game13) (seat : Nat) (hand : Hand) :
    Related (Same s₁ s₂) (bringOutRoom w₁ game seat hand) (bringOutRoom w₂ game seat hand) := by
  unfold LobbyState.bringOutRoom
  refine Related.bind ((h.sync _).trySettleGame _) ?_
  rintro ⟨w₁, game₁⟩ ⟨w₂, game₂⟩ ⟨hw, hgame⟩
  cases hgame
  dsimp only
  split_ifs
  · exact hw.tryStartRound game₁
  · exact .ok ⟨hw, rfl⟩

end Rooms

end CasualGame.Lobby.TwoRuns
