import CasualGame.Lobby.Handlers
import CasualGame.Lobby.Settlement

/-!
What one step of the lobby can do to a room and to the outbox, said once for all
handlers: a step leaves the table of a room alone, closes the room, deals a first
round, or takes the hand of a seat and perhaps settles the round.
-/

namespace CasualGame.Lobby.RoomSteps

open Deck
open Dealing
open CalcRound
open Settlement
open Game13
open Lib.Run
open Lib.Writes

section Outbox

/-- From `w` to `w'` messages are sent, and every final count among them meets `F`. -/
def Sends (F : List FinalCount → Prop) (w w' : World) : Prop :=
  ∃ out, w'.sent = w.sent ++ out ∧
    ∀ ccid counts, Outgoing.relay ccid (.allRounds counts) ∈ out → F counts

/-- From `w` to `w'` the deck stays as it is and no final count is sent. -/
def Talks (w w' : World) : Prop := w'.deck = w.deck ∧ Sends (fun _ => False) w w'

def Msg.NotFinal (msg : Msg) : Prop := ∀ counts, msg ≠ .allRounds counts

variable {F G : List FinalCount → Prop} {w w₁ w₂ : World}

theorem Sends.refl (F : List FinalCount → Prop) (w : World) : Sends F w w :=
  ⟨[], by simp, by simp⟩

theorem Sends.trans (h₁ : Sends F w w₁) (h₂ : Sends F w₁ w₂) : Sends F w w₂ := by
  obtain ⟨out₁, hsent₁, hfinal₁⟩ := h₁
  obtain ⟨out₂, hsent₂, hfinal₂⟩ := h₂
  refine ⟨out₁ ++ out₂, by rw [hsent₂, hsent₁, List.append_assoc], ?_⟩
  intro ccid counts hmem
  rcases List.mem_append.mp hmem with hmem | hmem
  · exact hfinal₁ ccid counts hmem
  · exact hfinal₂ ccid counts hmem

theorem Sends.mono (hFG : ∀ counts, F counts → G counts) (h : Sends F w w₁) : Sends G w w₁ := by
  obtain ⟨out, hsent, hfinal⟩ := h
  exact ⟨out, hsent, fun ccid counts hmem => hFG _ (hfinal ccid counts hmem)⟩

theorem Sends.of_sent_eq (F : List FinalCount → Prop) (h : w₁.sent = w.sent) : Sends F w w₁ :=
  ⟨[], by simpa using h, by simp⟩

theorem Talks.sends (h : Talks w w₁) (F : List FinalCount → Prop) : Sends F w w₁ :=
  h.2.mono fun _ => False.elim

@[refl] theorem Talks.refl (w : World) : Talks w w := ⟨rfl, Sends.refl _ w⟩

@[trans] theorem Talks.trans (h₁ : Talks w w₁) (h₂ : Talks w₁ w₂) : Talks w w₂ :=
  ⟨h₂.1.trans h₁.1, h₁.2.trans h₂.2⟩

theorem Talks.foldl {β : Type} {f : World → β → World} (hf : ∀ w b, Talks w (f w b))
    (bs : List β) (w : World) : Talks w (bs.foldl f w) := by
  induction bs generalizing w with
  | nil => exact Talks.refl w
  | cons b bs ih => exact (hf w b).trans (ih (f w b))

theorem sends_sendToMe (w : World) (p : ClientPtr) {msg : Msg}
    (hF : ∀ counts, msg = .allRounds counts → F counts) : Sends F w (w.sendToMe p msg) := by
  refine ⟨[.relay (w.client p).ccid msg], rfl, ?_⟩
  intro ccid counts hmem
  simp only [List.mem_singleton, Outgoing.relay.injEq] at hmem
  exact hF counts hmem.2.symm

theorem sends_sendToSeats (w : World) (cuids : List Cuid) {msg : Msg}
    (hF : ∀ counts, msg = .allRounds counts → F counts) :
    (w.sendToSeats cuids msg).deck = w.deck ∧ Sends F w (w.sendToSeats cuids msg) := by
  induction cuids generalizing w with
  | nil => exact ⟨rfl, Sends.refl F w⟩
  | cons cuid cuids ih =>
      have hhead : (w.sendToCuid cuid msg).deck = w.deck ∧ Sends F w (w.sendToCuid cuid msg) := by
        unfold World.sendToCuid
        cases w.getByCuid cuid with
        | none => exact ⟨rfl, Sends.refl F w⟩
        | some p => exact ⟨rfl, sends_sendToMe w p hF⟩
      obtain ⟨hdeck, hsends⟩ := ih (w.sendToCuid cuid msg)
      exact ⟨hdeck.trans hhead.1, hhead.2.trans hsends⟩

theorem talks_sendToMe (w : World) (p : ClientPtr) {msg : Msg} (h : Msg.NotFinal msg) :
    Talks w (w.sendToMe p msg) :=
  ⟨rfl, sends_sendToMe w p fun counts heq => h counts heq⟩

theorem talks_notice (w : World) (p : ClientPtr) (text : String) :
    Talks w (w.noticeMessageBox p text) :=
  talks_sendToMe w p (by simp [Msg.NotFinal])

theorem talks_sendToSeats (w : World) (cuids : List Cuid) {msg : Msg} (h : Msg.NotFinal msg) :
    Talks w (w.sendToSeats cuids msg) :=
  sends_sendToSeats w cuids fun counts heq => h counts heq

theorem talks_sendToPrivate (w : World) (msg : PrivateMsg) : Talks w (w.sendToPrivate msg) :=
  ⟨rfl, [.gateway msg], rfl, by simp⟩

theorem talks_clients (w : World) (clients : ClientManager) :
    Talks w { w with clients := clients } :=
  ⟨rfl, Sends.of_sent_eq _ rfl⟩

theorem talks_afterLeaveRoom (w : World) (p : ClientPtr) : Talks w (w.afterLeaveRoom p) :=
  (talks_clients w _).trans (talks_sendToMe _ p (by simp [Msg.NotFinal]))

theorem talks_kickAll (w : World) (cuids : List Cuid) : Talks w (kickAll w cuids) := by
  refine Talks.foldl (fun w cuid => ?_) cuids w
  cases w.getByCuid cuid with
  | none => exact Talks.refl w
  | some p => exact talks_afterLeaveRoom w p

theorem talks_sync (w : World) (game : Game13) :
    Talks w (syncAllPlayersInfoToAllClients w game) :=
  talks_sendToSeats w _ (by simp [Msg.NotFinal, playersInRoom])

theorem talks_afterEnterRoom (w : World) (game : Game13) (p : ClientPtr) :
    Talks w (afterEnterRoom w game p) := by
  have hhands : ∀ w : World, Talks w
      (game.players.foldl (fun w info => w.sendToMe p (.handOfMine info.cards)) w) := fun w =>
    Talks.foldl (fun w info => talks_sendToMe w p (by simp [Msg.NotFinal])) _ w
  have hvote : ∀ (w : World) (remain : Int) (votes : List (Cuid × Vote)),
      Talks w (w.sendToMe p (.abortGameOrNot remain game.voteSponsorCuid votes)) :=
    fun w remain votes => talks_sendToMe w p (by simp [Msg.NotFinal])
  have hattr : Talks w (w.sendToMe p (.roomAttr game.attr.roomId game.ownerCuid game.attr)) :=
    talks_sendToMe w p (by simp [Msg.NotFinal])
  refine (hattr.trans (talks_sync _ game)).trans ?_
  simp only [afterEnterRoom]
  generalize syncAllPlayersInfoToAllClients
    (w.sendToMe p (.roomAttr game.attr.roomId game.ownerCuid game.attr)) game = w₁
  split_ifs
  · exact (hhands w₁).trans (hvote _ _ _)
  · exact hvote w₁ _ _
  · exact hhands w₁
  · exact Talks.refl w₁

theorem talks_clientOnlineExec (w : World) (game : Game13) (p : ClientPtr) :
    Talks w (clientOnlineExec w game p) := by
  unfold clientOnlineExec
  split_ifs
  · exact talks_clients w _
  · exact talks_afterEnterRoom w game p

end Outbox

section Room

structure SameTable (game game' : Game13) : Prop where
  hands : game'.players.map (·.cards) = game.players.map (·.cards)
  attr : game'.attr = game.attr
  rounds : game'.rounds = game.rounds
  settleData : game'.settleData = game.settleData

def InRound (game : Game13) : Prop := game.status = .play ∨ game.status = .vote

/-- A new round is dealt, with playing cards only. -/
structure Dealt (game game' : Game13) : Prop where
  status : game'.status = .play
  attr : game'.attr = game.attr
  length : game'.players.length = game.players.length
  rounds : game'.rounds = game.rounds + 1
  settleData : game'.settleData = game.settleData
  inRange : HandsInRange game'

/-- What a step that brings out no hand can do to a room. -/
inductive Moves (game game' : Game13) : Prop
  | idle : SameTable game game' →
      (game'.status = game.status ∨ InRound game ∧ InRound game') → Moves game game'
  | closes : game'.status = .closed → game'.players = [] →
      game'.settleData = game.settleData → Moves game game'
  | deals : game.status = .prepare → Dealt game game' → Moves game game'

/-- The deck of the running lobby: empty, or full since the first round. -/
def DeckOk (deck : List Card) : Prop := deck.length = 0 ∨ deck.length = 52

variable {w w' : World} {game game₁ game' : Game13}

theorem InRound.ne_prepare (h : InRound game) : game.status ≠ .prepare := by
  rcases h with hstatus | hstatus
  · simp [hstatus]
  · simp [hstatus]

theorem InRound.ne_settle (h : InRound game) : game.status ≠ .settle := by
  rcases h with hstatus | hstatus
  · simp [hstatus]
  · simp [hstatus]

theorem InRound.ne_settleAll (h : InRound game) : game.status ≠ .settleAll := by
  rcases h with hstatus | hstatus
  · simp [hstatus]
  · simp [hstatus]

theorem InRound.ne_closed (h : InRound game) : game.status ≠ .closed := by
  rcases h with hstatus | hstatus
  · simp [hstatus]
  · simp [hstatus]

@[refl] theorem SameTable.refl (game : Game13) : SameTable game game := ⟨rfl, rfl, rfl, rfl⟩

theorem SameTable.trans (h₁ : SameTable game game₁) (h₂ : SameTable game₁ game') :
    SameTable game game' :=
  ⟨h₂.hands.trans h₁.hands, h₂.attr.trans h₁.attr, h₂.rounds.trans h₁.rounds,
    h₂.settleData.trans h₁.settleData⟩

theorem SameTable.length (h : SameTable game game') :
    game'.players.length = game.players.length := by
  simpa using congrArg List.length h.hands

theorem sameTable_updateSeat (game : Game13) (seat : Nat) {f : PlayerInfo → PlayerInfo}
    (hf : ∀ info, (f info).cards = info.cards) : SameTable game (game.updateSeat seat f) :=
  ⟨map_modify_of_eq hf _ _, rfl, rfl, rfl⟩

theorem sameTable_resetVotes (game : Game13) : SameTable game game.resetVotes :=
  ⟨by simp [resetVotes], rfl, rfl, rfl⟩

theorem Moves.refl (game : Game13) : Moves game game := .idle (SameTable.refl game) (Or.inl rfl)

theorem Moves.settleData (h : Moves game game') : game'.settleData = game.settleData := by
  cases h with
  | idle hsame _ => exact hsame.settleData
  | closes _ _ hsheet => exact hsheet
  | deals _ hdealt => exact hdealt.settleData

theorem Dealt.of_sameTable (h : SameTable game game₁) (hdealt : Dealt game₁ game') :
    Dealt game game' :=
  ⟨hdealt.status, hdealt.attr.trans h.attr, hdealt.length.trans h.length,
    hdealt.rounds.trans (by rw [h.rounds]), hdealt.settleData.trans h.settleData, hdealt.inRange⟩

theorem chargeFee_spec (w : World) (game : Game13) (p : ClientPtr) (info : PlayerInfo) :
    Talks w (chargeFee w game p info).1 ∧ (chargeFee w game p info).2.cards = info.cards := by
  unfold chargeFee
  split_ifs
  · exact ⟨talks_clients w _, rfl⟩
  · exact ⟨talks_clients w _, rfl⟩
  · exact ⟨Talks.refl w, rfl⟩
  · exact ⟨Talks.refl w, rfl⟩

theorem dealSeat_spec {index : Nat} {info info' : PlayerInfo}
    (h : dealSeat w game index info = .ok (w', info')) :
    Talks w w' ∧ ∀ card ∈ info'.cards.1, card ∈ w.deck := by
  obtain ⟨cards, hcards, h⟩ := bind_eq_ok.mp h
  have hmem : ∀ card ∈ (sortHand cards).1, card ∈ w.deck := fun card hcard =>
    dealHand_mem hcards card ((sortHand_perm cards).mem_iff.mp hcard)
  cases hp : w.getByCuid info.cuid with
  | none =>
      simp only [hp] at h
      cases h
      exact ⟨Talks.refl _, hmem⟩
  | some p =>
      obtain ⟨hfee, hkept⟩ := chargeFee_spec w game p { info with cards := sortHand cards }
      simp only [hp] at h
      cases h
      refine ⟨hfee.trans (talks_sendToMe _ p (by simp [Msg.NotFinal])), ?_⟩
      intro card hcard
      change card ∈ (chargeFee w game p _).2.cards.1 at hcard
      rw [hkept] at hcard
      exact hmem card hcard

theorem dealSeats_spec {index : Nat} {infos infos' : List PlayerInfo}
    (h : dealSeats game w index infos = .ok (w', infos')) :
    Talks w w' ∧ infos'.length = infos.length ∧
      ∀ info ∈ infos', ∀ card ∈ info.cards.1, card ∈ w.deck := by
  induction infos generalizing w index infos' with
  | nil =>
      cases h
      exact ⟨Talks.refl _, rfl, by simp⟩
  | cons info infos ih =>
      obtain ⟨⟨w₁, info'⟩, hseat, h⟩ := bind_eq_ok.mp h
      obtain ⟨⟨w₂, rest⟩, hrest, h⟩ := bind_eq_ok.mp h
      cases h
      obtain ⟨htalks, hcards⟩ := dealSeat_spec hseat
      obtain ⟨htalks', hlen, hcards'⟩ := ih hrest
      refine ⟨htalks.trans htalks', by simp [hlen], ?_⟩
      intro i hi
      rcases List.mem_cons.mp hi with rfl | hi
      · exact hcards
      · simpa [htalks.1] using hcards' i hi

theorem shuffleDeck_spec {playType : PlayType} (hdeck : DeckOk w.deck)
    (h : shuffleDeck w playType = .ok w') :
    w'.deck.length = 52 ∧ (∀ card ∈ w'.deck, InRange card) ∧ w'.sent = w.sent := by
  obtain ⟨deck, hinit, h⟩ := bind_eq_ok.mp h
  cases h
  obtain ⟨hlen, hrange⟩ := initDeck_inRange hdeck hinit
  have hperm := (w.rg w.shuffles).perm deck
  exact ⟨hperm.length_eq.trans hlen, fun card hcard => hrange card (hperm.mem_iff.mp hcard), rfl⟩

theorem tryStartRound_cases (hdeck : DeckOk w.deck)
    (h : tryStartRound w game = .ok (w', game')) :
    (everyoneReady w game = false ∧ w' = w ∧ game' = game) ∨
      (Dealt game game' ∧ DeckOk w'.deck ∧ Sends (fun _ => False) w w') := by
  unfold tryStartRound at h
  split_ifs at h with hready
  · obtain ⟨w₁, hshuffle, h⟩ := bind_eq_ok.mp h
    obtain ⟨⟨w₂, players⟩, hdeal, h⟩ := bind_eq_ok.mp h
    cases h
    obtain ⟨hlen, hrange, hsent⟩ := shuffleDeck_spec hdeck hshuffle
    obtain ⟨htalks, hseats, hcards⟩ := dealSeats_spec hdeal
    have hsync := talks_sync w₂ { game with rounds := game.rounds + 1, players := players }
    refine Or.inr ⟨⟨rfl, rfl, hseats, rfl, rfl, ?_⟩, ?_, ?_⟩
    · intro info hinfo card hcard
      exact hrange card (hcards info hinfo card hcard)
    · exact Or.inr ((congrArg List.length (hsync.1.trans htalks.1)).trans hlen)
    · exact ((Sends.of_sent_eq _ hsent).trans htalks.2).trans hsync.2
  · cases h
    exact Or.inl ⟨by simpa using hready, rfl, rfl⟩

theorem abortGame_spec (w : World) (game : Game13) :
    Talks w (abortGame w game).1 ∧ Moves game (abortGame w game).2 :=
  ⟨talks_kickAll w _, .closes rfl rfl rfl⟩

theorem checkAllVotes_spec (w : World) (h : SameTable game game₁) (hround : InRound game)
    (hvote : game₁.status = .vote) :
    Talks w (checkAllVotes w game₁).1 ∧ Moves game (checkAllVotes w game₁).2 := by
  rw [checkAllVotes, if_neg (by simp [hvote])]
  dsimp only
  split_ifs
  · refine ⟨talks_sendToSeats w _ (by simp [Msg.NotFinal]), .idle ?_ (Or.inr ⟨hround, Or.inl rfl⟩)⟩
    exact h.trans ⟨(sameTable_resetVotes game₁).hands, rfl, rfl, rfl⟩
  · exact ⟨(talks_sendToSeats w _ (by simp [Msg.NotFinal])).trans (abortGame_spec _ _).1,
      .closes rfl rfl h.settleData⟩
  · exact ⟨talks_sendToSeats w _ (by simp [Msg.NotFinal]),
      .idle h (Or.inr ⟨hround, Or.inr hvote⟩)⟩

theorem enterRoom_spec (w : World) (game : Game13) (p : ClientPtr) :
    Talks w (enterRoom w game p).2.1 ∧ SameTable game (enterRoom w game p).2.2 ∧
      (enterRoom w game p).2.2.status = game.status := by
  simp only [enterRoom]
  split_ifs
  · exact ⟨Talks.refl w, SameTable.refl game, rfl⟩
  · exact ⟨talks_notice w p _, SameTable.refl game, rfl⟩
  · exact ⟨talks_notice w p _, SameTable.refl game, rfl⟩
  · cases game.getEmptySeatIndex with
    | none => exact ⟨talks_notice w p _, SameTable.refl game, rfl⟩
    | some index =>
        simp only
        generalize hseat : game.updateSeat index _ = game₁
        have hsame : SameTable game game₁ ∧ game₁.status = game.status := by
          rw [← hseat]
          exact ⟨sameTable_updateSeat game index (by intro info; rfl), rfl⟩
        cases checkMoney w game₁ p with
        | none => exact ⟨Talks.refl w, hsame⟩
        | some enough =>
            cases enough with
            | false => exact ⟨talks_notice w p _, hsame⟩
            | true => exact ⟨(talks_clients w _).trans (talks_afterEnterRoom _ game₁ p), hsame⟩

theorem removePlayer_spec (w : World) (game : Game13) (p : ClientPtr) :
    Talks w (removePlayer w game p).1 ∧ Moves game (removePlayer w game p).2 := by
  unfold removePlayer
  cases game.getPlayerInfoByCuid (w.client p).cuid with
  | none => exact ⟨talks_sync w game, Moves.refl game⟩
  | some index =>
      refine ⟨(talks_afterLeaveRoom w p).trans (talks_sync _ _), .idle ?_ (Or.inl rfl)⟩
      exact sameTable_updateSeat game index (by intro info; rfl)

theorem timerExec_spec (hdeck : DeckOk w.deck) (h : timerExec w game = .ok (w', game')) :
    DeckOk w'.deck ∧ Sends (fun _ => False) w w' ∧ Moves game game' := by
  have hstay : w' = w → game' = game →
      DeckOk w'.deck ∧ Sends (fun _ => False) w w' ∧ Moves game game' := by
    rintro rfl rfl
    exact ⟨hdeck, Sends.refl _ _, Moves.refl _⟩
  unfold timerExec at h
  cases hstatus : game.status with
  | prepare =>
      simp only [hstatus] at h
      rcases tryStartRound_cases hdeck h with ⟨-, hw, hgame⟩ | ⟨hdealt, hdeck', hsends⟩
      · exact hstay hw hgame
      · exact ⟨hdeck', hsends, .deals hstatus hdealt⟩
  | play =>
      simp only [hstatus] at h
      cases h
      exact hstay rfl rfl
  | vote =>
      simp only [hstatus] at h
      split_ifs at h
      · cases h
        have hnotice : Msg.NotFinal (.notice "投票结束, 游戏解散!") := by simp [Msg.NotFinal]
        have htalks := (talks_sendToSeats w game.cuids hnotice).trans
          (abortGame_spec _ { game.resetVotes with startVoteTime := 0 }).1
        exact ⟨htalks.1.symm ▸ hdeck, htalks.2, .closes rfl rfl rfl⟩
      · cases h
        exact hstay rfl rfl
  | settle =>
      simp only [hstatus] at h
      cases h
      exact hstay rfl rfl
  | settleAll =>
      simp only [hstatus] at h
      split_ifs at h
      · cases h
        have htalks := (abortGame_spec w { game with settleAllTime := 0 }).1
        exact ⟨htalks.1.symm ▸ hdeck, htalks.2, .closes rfl rfl rfl⟩
      · cases h
        exact hstay rfl rfl
  | closed =>
      simp only [hstatus] at h
      cases h
      exact ⟨hdeck, Sends.refl _ _, .idle ⟨rfl, rfl, rfl, rfl⟩ (Or.inl rfl)⟩

end Room

section Settle

/-- The room with the round of the hands on the table on its score sheet. -/
def settled (game : Game13) : Game13 :=
  { game with settleData := game.settleData ++ [withCards (round game) game.players] }

inductive BroughtOut (game game' : Game13) : Prop
  | waits : everyoneCompare game = false → game' = game → BroughtOut game game'
  | goesOn : everyoneCompare game = true → HandsInRange game → game.rounds < game.attr.rounds →
      Dealt (settled game) game' → BroughtOut game game'
  | ends : everyoneCompare game = true → HandsInRange game → game.attr.rounds ≤ game.rounds →
      SameTable (settled game) game' → game'.status = .settleAll → BroughtOut game game'

def FinalCounts (game : Game13) (counts : List FinalCount) : Prop :=
  game.status = .settleAll ∧ allFinalCount game.players.length game.settleData = .ok counts

variable {w w' : World} {game game' : Game13}

theorem trySettleGame_waits (hplay : game.status = .play) (hwait : everyoneCompare game = false) :
    trySettleGame w game = .ok (w, game) := by
  rw [trySettleGame, if_neg (by simp [hplay]), if_pos (by simp [hwait])]
  rfl

/-- The world after the results of the round of `game` are sent to its seats. -/
def afterRound (w : World) (game : Game13) : World :=
  sendToAll w (settled game) (allHands (withCards (round game) game.players))

theorem trySettleGame_cases (hplay : game.status = .play) (hall : everyoneCompare game = true)
    (h : trySettleGame w game = .ok (w', game')) :
    HandsInRange game ∧
      (game.rounds < game.attr.rounds ∧ w' = afterRound w game ∧
          game' = { settled game with status := .settle } ∨
        game.attr.rounds ≤ game.rounds ∧
          (∃ counts, allFinalCount game.players.length (settled game).settleData = .ok counts ∧
            w' = sendToAll (afterRound w game) (settled game) (.allRounds counts)) ∧
          game' = { settled game with status := .settleAll, settleAllTime := w'.timerTime }) := by
  rw [trySettleGame, if_neg (by simp [hplay]), if_neg (by simp [hall])] at h
  obtain ⟨⟨rsd, game₁⟩, hround, h⟩ := bind_eq_ok.mp h
  obtain ⟨hrange, rfl, rfl⟩ := calcRound_ok hround
  refine ⟨hrange, ?_⟩
  dsimp only at h
  split_ifs at h with hrounds
  · obtain ⟨counts, hcounts, h⟩ := bind_eq_ok.mp h
    cases h
    exact Or.inr ⟨hrounds, ⟨counts, hcounts, rfl⟩, rfl⟩
  · cases h
    exact Or.inl ⟨by omega, rfl, rfl⟩

theorem talks_afterRound (w : World) (game : Game13) : Talks w (afterRound w game) :=
  talks_sendToSeats w _ (by simp [Msg.NotFinal, allHands])

theorem trySettleGame_settles (hplay : game.status = .play) (hall : everyoneCompare game = true)
    (h : trySettleGame w game = .ok (w', game')) :
    HandsInRange game ∧ w'.deck = w.deck ∧ Sends (FinalCounts game') w w' ∧
      (game.rounds < game.attr.rounds ∧ game' = { settled game with status := .settle } ∨
        game.attr.rounds ≤ game.rounds ∧
          game' = { settled game with status := .settleAll, settleAllTime := w'.timerTime }) := by
  have hround := talks_afterRound w game
  obtain ⟨hrange, ⟨hrounds, rfl, rfl⟩ | ⟨hrounds, ⟨counts, hcounts, rfl⟩, rfl⟩⟩ :=
    trySettleGame_cases hplay hall h
  · exact ⟨hrange, hround.1, hround.sends _, Or.inl ⟨hrounds, rfl⟩⟩
  · have hcountsOnly : ∀ counts', Msg.allRounds counts = .allRounds counts' →
        counts' = counts := by
      simp
    have hfinal := sends_sendToSeats (afterRound w game) ((settled game).cuids.filter (· ≠ 0))
      hcountsOnly
    refine ⟨hrange, hfinal.1.trans hround.1, (hround.sends _).trans (hfinal.2.mono ?_),
      Or.inr ⟨hrounds, rfl⟩⟩
    rintro _ rfl
    exact ⟨rfl, hcounts⟩

theorem bringOutRoom_spec {seat : Nat} {hand : Hand} (hdeck : DeckOk w.deck)
    (hplay : game.status = .play)
    (h : LobbyState.bringOutRoom w game seat hand = .ok (w', game')) :
    DeckOk w'.deck ∧ Sends (FinalCounts game') w w' ∧
      BroughtOut (LobbyState.storeHand game seat hand) game' := by
  obtain ⟨⟨w₁, game₁⟩, hsettle, h⟩ := bind_eq_ok.mp h
  have hsync := talks_sync w (LobbyState.storeHand game seat hand)
  have hplay' : (LobbyState.storeHand game seat hand).status = .play := hplay
  cases hall : everyoneCompare (LobbyState.storeHand game seat hand) with
  | false =>
      rw [trySettleGame_waits hplay' hall] at hsettle
      cases hsettle
      dsimp only at h
      rw [if_neg (by simp [hplay'])] at h
      cases h
      exact ⟨hsync.1.symm ▸ hdeck, hsync.sends _, .waits hall rfl⟩
  | true =>
      obtain ⟨hrange, hdeck₁, hsends, ⟨hrounds, rfl⟩ | ⟨hrounds, rfl⟩⟩ :=
        trySettleGame_settles hplay' hall hsettle
      · have hdeckOk : DeckOk w₁.deck := (hdeck₁.trans hsync.1).symm ▸ hdeck
        dsimp only at h
        rw [if_pos rfl] at h
        rcases tryStartRound_cases hdeckOk h with ⟨hnot, -⟩ | ⟨hdealt, hdeck', hsends'⟩
        · cases hnot
        · have hquiet : Sends (fun _ => False) w w₁ := by
            refine hsync.2.trans (hsends.mono ?_)
            rintro counts ⟨hstatus, -⟩
            cases hstatus
          exact ⟨hdeck', (hquiet.trans hsends').mono fun _ => False.elim,
            .goesOn hall hrange hrounds ⟨hdealt.status, hdealt.attr, hdealt.length, hdealt.rounds,
              hdealt.settleData, hdealt.inRange⟩⟩
      · dsimp only at h
        rw [if_neg (by simp)] at h
        cases h
        exact ⟨(hdeck₁.trans hsync.1).symm ▸ hdeck, (hsync.sends _).trans hsends,
          .ends hall hrange hrounds ⟨rfl, rfl, rfl, rfl⟩ rfl⟩

end Settle

end CasualGame.Lobby.RoomSteps
