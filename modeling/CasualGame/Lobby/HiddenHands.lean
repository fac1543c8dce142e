import CasualGame.Lobby.TwoLobbies

/-!
What a client is sent before the settlement, and whether it depends on the cards of the
others.
-/

namespace CasualGame.Lobby.HiddenHands

open Deck
open Dealing
open Game13
open LobbyState
open RoomSteps
open LobbySteps
open AllRounds
open RowScoring
open LobbyActs
open RoomMoves
open Bookkeeping
open TwoRuns
open TwoLobbies
open Lib.Run

section Hands

/-- The messages relayed to a connection. -/
def heard (ccid : Ccid) (sent : List Outgoing) : List Msg :=
  sent.filterMap fun o =>
    match o with
    | .relay target msg => if target = ccid then some msg else none
    | .gateway _ => none

/-- What a step sends to a client, over the connection it has after the step. -/
def sentTo (p : ClientPtr) (lobby lobby' : LobbyState) : List Msg :=
  heard (lobby'.world.client p).ccid (lobby'.world.sent.drop lobby.world.sent.length)

/-- The game as a client may know it, without the cards of the other seats. -/
def hide (cuid : Cuid) (game : Game13) : Game13 :=
  { game with players := game.players.map fun info =>
      if info.cuid = cuid then info else bareSeat info }

/-- Two lobbies with a round going on in room `r` that differ only in the cards held there
by others than the client `p`. The cards left on the deck and the messages of the past may
differ, what the generator has still to come may not. -/
structure DifferInHands (p : ClientPtr) (r : RoomId) (lobby₁ lobby₂ : LobbyState) : Prop where
  clients : lobby₁.world.clients = lobby₂.world.clients
  timerTime : lobby₁.world.timerTime = lobby₂.world.timerTime
  deck : lobby₁.world.deck.length = lobby₂.world.deck.length
  rg : ∀ i, lobby₁.world.rg (lobby₁.world.shuffles + i) =
    lobby₂.world.rg (lobby₂.world.shuffles + i)
  lastRoomId : lobby₁.lastRoomId = lobby₂.lastRoomId
  others : ∀ k : RoomId, k ≠ r → lobby₁.rooms[k]? = lobby₂.rooms[k]?
  room : ∃ game₁ game₂, lobby₁.rooms[r]? = some game₁ ∧ lobby₂.rooms[r]? = some game₂ ∧
    InRound game₁ ∧
      hide (lobby₁.world.client p).cuid game₁ = hide (lobby₁.world.client p).cuid game₂

/-- The hands of the room go to the client `p`: it returns itself, or another does over the
connection that `p` has. -/
def ShowsHands (lobby : LobbyState) (p : ClientPtr) (r : RoomId) (a : Event) : Prop :=
  ∃ q ccid, Returns lobby r q ccid a ∧ (q = p ∨ ccid = (lobby.world.client p).ccid)

variable {s₁ s₂ : List Outgoing} {w w₁ w₂ : World} {game game₁ game₂ : Game13}
variable {lobby lobby₁ lobby₂ lobby₁' lobby₂' : LobbyState} {p q : ClientPtr} {r : RoomId}
variable {ccid : Ccid} {a : Event}

theorem bare_hide (cuid : Cuid) (game : Game13) : bare (hide cuid game) = bare game := by
  have hseat : ∀ info : PlayerInfo,
      bareSeat (if info.cuid = cuid then info else bareSeat info) = bareSeat info := by
    intro info
    split_ifs
    · rfl
    · rfl
  simp [bare, hide, hseat]

theorem heard_append (ccid : Ccid) (sent₁ sent₂ : List Outgoing) :
    heard ccid (sent₁ ++ sent₂) = heard ccid sent₁ ++ heard ccid sent₂ :=
  List.filterMap_append

theorem sentTo_eq_of_alike (h : Alike lobby₁.world.sent lobby₂.world.sent lobby₁' lobby₂')
    (p : ClientPtr) : sentTo p lobby₁ lobby₁' = sentTo p lobby₂ lobby₂' := by
  obtain ⟨out, hsent₁, hsent₂⟩ := h.sent
  rw [sentTo, sentTo, h.client p, hsent₁, hsent₂, List.drop_left,
    List.drop_left]

theorem DifferInHands.parallel (h : DifferInHands p r lobby₁ lobby₂)
    (h₁ : DeckOk lobby₁.world.deck) (h₂ : DeckOk lobby₂.world.deck) :
    Parallel r lobby₁.world.sent lobby₂.world.sent lobby₁ lobby₂ := by
  have hinit : ∀ playType, initDeck playType lobby₁.world.deck =
      initDeck playType lobby₂.world.deck := by
    intro playType
    cases playType with
    | gp52 => rw [initDeck_gp52, initDeck_gp52]
    | gp65 =>
        have hdrop : ∀ deck : List Card, DeckOk deck → deck.drop 52 = [] := by
          rintro deck (hempty | hfull)
          · exact List.drop_eq_nil_of_le (by omega)
          · exact List.drop_eq_nil_of_le (by omega)
        rw [initDeck_gp65, initDeck_gp65, h.deck, hdrop _ h₁, hdrop _ h₂]
  refine ⟨⟨h.clients, h.timerTime, hinit, h.rg, [], by simp, by simp⟩, h.lastRoomId, ?_⟩
  intro k
  rcases eq_or_ne k r with rfl | hk
  · obtain ⟨game₁, game₂, hgame₁, hgame₂, hround, hhide⟩ := h.room
    rw [hgame₁, hgame₂]
    refine .hidden rfl ⟨hround, ?_⟩
    rw [← bare_hide, hhide, bare_hide]
  · exact .of_eq (h.others k hk)

/-- The hands of all seats, as they are relayed to one connection. -/
def handMsgs (ccid : Ccid) (game : Game13) : List Outgoing :=
  game.players.map fun info => .relay ccid (.handOfMine info.cards)

/-- The state of the votes, as it is relayed to one who comes back during a vote. -/
def voteMsgs (ccid : Ccid) (w : World) (game : Game13) : List Outgoing :=
  if game.status = .vote then
    [.relay ccid (.abortGameOrNot (remainSeconds w game) game.voteSponsorCuid
      (game.players.map fun info => (info.cuid, info.vote)))]
  else []

/-- What everybody in the room is sent when the client enters. -/
def greeted (w : World) (game : Game13) (p : ClientPtr) : World :=
  syncAllPlayersInfoToAllClients
    (w.sendToMe p (.roomAttr game.attr.roomId game.ownerCuid game.attr)) game

theorem foldl_handOfMine (w : World) (p : ClientPtr) (infos : List PlayerInfo) :
    infos.foldl (fun w info => w.sendToMe p (.handOfMine info.cards)) w =
      { w with sent := w.sent ++ infos.map fun info =>
          .relay (w.client p).ccid (.handOfMine info.cards) } := by
  induction infos generalizing w with
  | nil => simp
  | cons info infos ih =>
      rw [List.foldl_cons, ih]
      simp [World.sendToMe, World.client]

theorem afterEnterRoom_sent (w : World) (p : ClientPtr) (hround : InRound game) :
    (afterEnterRoom w game p).sent = (greeted w game p).sent ++
      (handMsgs (w.client p).ccid game ++ voteMsgs (w.client p).ccid w game) := by
  have hin : game.status = .play ∨ game.status = .vote := hround
  obtain ⟨sent, hgreeted⟩ : WorldFrames.Says w (greeted w game p) :=
    (WorldFrames.says_sendToMe w p _).trans (WorldFrames.says_sync _ game)
  rw [hgreeted]
  unfold greeted at hgreeted
  unfold afterEnterRoom
  simp only [hgreeted, if_pos hin, foldl_handOfMine, voteMsgs]
  split_ifs
  · show (sent ++ _) ++ _ = _
    rw [List.append_assoc]
    rfl
  · rw [List.append_nil]
    rfl

theorem heard_handMsgs_eq_iff (h : SameButCards game₁ game₂) (target : Ccid) :
    heard target (handMsgs ccid game₁) = heard target (handMsgs ccid game₂) ↔
      (ccid = target → game₁ = game₂) := by
  have hheard : ∀ game, heard target (handMsgs ccid game) =
      if ccid = target then game.players.map fun info => .handOfMine info.cards else [] := by
    intro game
    rw [heard, handMsgs, List.filterMap_map]
    split_ifs with hccid
    · rw [← List.filterMap_eq_map]
      refine congrArg (List.filterMap · game.players) ?_
      funext info
      exact if_pos hccid
    · exact List.filterMap_eq_nil_iff.mpr fun info _ => if_neg hccid
  rw [hheard, hheard]
  split_ifs with hccid
  · rw [forall_prop_of_true hccid]
    constructor
    · intro hhands
      have hinjective : Function.Injective Msg.handOfMine := fun _ _ heq => by injection heq
      have hcards : game₁.players.map (·.cards) = game₂.players.map (·.cards) := by
        apply List.map_injective_iff.mpr hinjective
        simpa [List.map_map, Function.comp_def] using hhands
      exact h.eq_of_players (players_eq_of_bare (congrArg Game13.players h.2) hcards)
    · rintro rfl
      rfl
  · simp [hccid]

/-- The world in which a client that comes back is let into its room. -/
def welcomed (w : World) (q : ClientPtr) (ccid : Ccid) : World :=
  (readmitted w q ccid).sendToPrivate (.retLoginQuest .succes ccid
    ((readmitted w q ccid).client q).cuid (some ((readmitted w q ccid).client q).openid))

theorem twins_welcomed (hw : Twins s₁ s₂ w₁ w₂) (q : ClientPtr) (ccid : Ccid) :
    Twins s₁ s₂ (welcomed w₁ q ccid) (welcomed w₂ q ccid) := by
  have hreadmitted := twins_readmitted hw q ccid
  rw [welcomed, welcomed, hreadmitted.client]
  exact hreadmitted.sendToPrivate _

theorem client_welcomed (w : World) (q : ClientPtr) (ccid : Ccid) (p : ClientPtr) :
    (welcomed w q ccid).client p = if p = q ∧ q < w.clients.clients.length then
      { w.client p with ccid := ccid } else w.client p :=
  (client_readmitted w q p ccid).trans (Logins.client_moved w.clients q p ccid)

theorem clientOnline_found (hroom : (lobby.world.client q).roomId = r) (hr : r ≠ 0)
    (hgame : lobby.rooms[r]? = some game) :
    lobby.clientOnline q = lobby.setWorld (clientOnlineExec lobby.world game q) := by
  unfold clientOnline
  dsimp only
  rw [hroom, if_neg hr, hgame]

theorem loginQuest_returns {openid : String} (name : String)
    (hopenid : lobby.world.clients.getByOpenid openid = some q)
    (hroom : (lobby.world.client q).roomId = r) (hr : r ≠ 0) (hgame : lobby.rooms[r]? = some game)
    (hseat : game.getPlayerInfoByCuid (lobby.world.client q).cuid ≠ none) :
    lobby.loginQuest ccid openid name =
      lobby.setWorld (afterEnterRoom (welcomed lobby.world q ccid) game q) := by
  have hclient : (welcomed lobby.world q ccid).client q =
      { lobby.world.client q with ccid := ((welcomed lobby.world q ccid).client q).ccid } :=
    readmitted_client lobby.world q q ccid
  have hroom' : ((welcomed lobby.world q ccid).client q).roomId = r := by
    rw [hclient, ← hroom]
  have hcuid : ((welcomed lobby.world q ccid).client q).cuid = (lobby.world.client q).cuid := by
    rw [hclient]
  have hexec : clientOnlineExec (welcomed lobby.world q ccid) game q =
      afterEnterRoom (welcomed lobby.world q ccid) game q := by
    rw [clientOnlineExec, hcuid]
    exact if_neg fun h => hseat h.2
  rw [Logins.loginQuest_replaces ccid name hopenid, ← hexec]
  show (lobby.setWorld (welcomed lobby.world q ccid)).clientOnline q = _
  exact clientOnline_found hroom' hr hgame

theorem greeted_eq (h : SameButCards game₁ game₂) (w : World) (q : ClientPtr) :
    greeted w game₁ q = greeted w game₂ q :=
  h.apply (F := fun game => greeted w game q) fun game => sync_bare _ game

theorem voteMsgs_eq (h : SameButCards game₁ game₂) (ccid : Ccid) (w : World) :
    voteMsgs ccid w game₁ = voteMsgs ccid w game₂ := by
  refine h.apply (F := voteMsgs ccid w) ?_
  intro game
  have hvotes : (bare game).players.map (fun info => (info.cuid, info.vote)) =
      game.players.map fun info => (info.cuid, info.vote) := by
    simp [bare, bareSeat, Function.comp_def]
  rw [voteMsgs, voteMsgs, hvotes]
  rfl

theorem twins_greeted (hw : Twins s₁ s₂ w₁ w₂) (game : Game13) (q : ClientPtr) :
    Twins s₁ s₂ (greeted w₁ game q) (greeted w₂ game q) :=
  (hw.sendToMe q _).sync game

theorem afterEnterRoom_sameButCards (hw : Twins s₁ s₂ w₁ w₂) (hsame : SameButCards game₁ game₂)
    (q : ClientPtr) :
    ∃ before after, (afterEnterRoom w₁ game₁ q).sent =
        s₁ ++ (before ++ handMsgs (w₁.client q).ccid game₁ ++ after) ∧
      (afterEnterRoom w₂ game₂ q).sent =
        s₂ ++ (before ++ handMsgs (w₁.client q).ccid game₂ ++ after) := by
  obtain ⟨before, hbefore₁, hbefore₂⟩ := (twins_greeted hw game₂ q).sent
  have hvotes : voteMsgs (w₁.client q).ccid w₁ game₁ = voteMsgs (w₁.client q).ccid w₂ game₂ := by
    rw [voteMsgs_eq hsame, voteMsgs, voteMsgs, hw.remainSeconds]
  refine ⟨before, voteMsgs (w₁.client q).ccid w₂ game₂, ?_, ?_⟩
  · rw [afterEnterRoom_sent w₁ q hsame.1, greeted_eq hsame, hbefore₁, hvotes]
    simp only [List.append_assoc]
  · rw [afterEnterRoom_sent w₂ q hsame.inRound, hbefore₂, hw.client]
    simp only [List.append_assoc]

theorem sentTo_eq_iff_of_returns
    (h : Parallel r lobby₁.world.sent lobby₂.world.sent lobby₁ lobby₂) (hr : r ≠ 0)
    (hgame₁ : lobby₁.rooms[r]? = some game₁) (hgame₂ : lobby₂.rooms[r]? = some game₂)
    (hsame : SameButCards game₁ game₂) (hreturns : Returns lobby₁ r q ccid a)
    (h₁ : lobby₁.step a = .ok lobby₁') (h₂ : lobby₂.step a = .ok lobby₂') (p : ClientPtr) :
    sentTo p lobby₁ lobby₁' = sentTo p lobby₂ lobby₂' ↔
      (q = p ∨ ccid = (lobby₁.world.client p).ccid → game₁ = game₂) := by
  obtain @⟨openid, name, game, hopenid, hroom, hgame, hseat⟩ := hreturns
  cases hgame₁.symm.trans hgame
  have hopenid₂ := (h.world.getByOpenid openid).symm.trans hopenid
  have hroom₂ : (lobby₂.world.client q).roomId = r := by
    rw [← h.world.client]
    exact hroom
  have hseat₂ : game₂.getPlayerInfoByCuid (lobby₂.world.client q).cuid ≠ none := by
    rw [← h.world.client, ← hsame.seat]
    exact hseat
  have hvalid : q < lobby₁.world.clients.clients.length := by
    by_contra hge
    rw [World.client, WorldFrames.client_of_le (Nat.not_lt.mp hge)] at hroom
    exact hr hroom.symm
  cases (loginQuest_returns name hopenid hroom hr hgame₁ hseat).symm.trans (Except.ok.inj h₁)
  cases (loginQuest_returns name hopenid₂ hroom₂ hr hgame₂ hseat₂).symm.trans (Except.ok.inj h₂)
  have hworld := twins_welcomed h.world q ccid
  obtain ⟨before, after, hsent₁, hsent₂⟩ := afterEnterRoom_sameButCards hworld hsame q
  have hsender : ((welcomed lobby₁.world q ccid).client q).ccid = ccid := by
    rw [client_welcomed, if_pos ⟨rfl, hvalid⟩]
  have hclient : ∀ w game, (afterEnterRoom w game q).client p = w.client p := fun w game =>
    (WorldFrames.says_afterEnterRoom w game q).client p
  have hreached : ccid = ((welcomed lobby₁.world q ccid).client p).ccid ↔
      q = p ∨ ccid = (lobby₁.world.client p).ccid := by
    rw [client_welcomed]
    split_ifs with hp
    · exact iff_of_true rfl (Or.inl hp.1.symm)
    · refine (or_iff_right ?_).symm
      rintro rfl
      exact hp ⟨rfl, hvalid⟩
  change heard ((afterEnterRoom _ game₁ q).client p).ccid ((afterEnterRoom _ game₁ q).sent.drop _) =
    heard ((afterEnterRoom _ game₂ q).client p).ccid ((afterEnterRoom _ game₂ q).sent.drop _) ↔ _
  rw [hsent₁, hsent₂, List.drop_left, List.drop_left, hclient, hclient, ← hworld.client p, hsender]
  simp only [heard_append, List.append_cancel_left_eq, List.append_cancel_right_eq]
  rw [heard_handMsgs_eq_iff hsame, hreached]

end Hands

section Showing

variable {lobby lobby₁ lobby₂ lobby₁' lobby₂' : LobbyState} {game : Game13} {p : ClientPtr}
variable {r : RoomId} {a : Event}

/-- Before the settlement a step sends a client what does not depend on the hands of the
others, exactly when it does not let a client of the room in again over its connection. -/
theorem hands_hidden_iff (h₁ : lobbySystem.Reaches (fun _ _ => True) lobby₁)
    (h₂ : lobbySystem.Reaches (fun _ _ => True) lobby₂) (hdiffer : DifferInHands p r lobby₁ lobby₂)
    (hstep₁ : lobby₁.step a = .ok lobby₁') (hstep₂ : lobby₂.step a = .ok lobby₂')
    (hsettles : ¬ SettlesRound lobby₁ lobby₁' r) :
    sentTo p lobby₁ lobby₁' = sentTo p lobby₂ lobby₂' ↔
      ¬ ShowsHands lobby₁ p r a ∨ lobby₁.rooms[r]? = lobby₂.rooms[r]? := by
  have hdeck₁ := (LobbyBooks.reaches h₁).deck
  have hplaced := RoomsPlaced.reaches h₁
  have hparallel := hdiffer.parallel hdeck₁ (LobbyBooks.reaches h₂).deck
  have hquiet : (∀ q ccid, Returns lobby₁ r q ccid a → lobby₁.rooms[r]? = lobby₂.rooms[r]?) →
      sentTo p lobby₁ lobby₁' = sentTo p lobby₂ lobby₂' := fun hreturns =>
    sentTo_eq_of_alike (hparallel.step hplaced hdeck₁ hstep₁ hstep₂ hsettles hreturns) p
  obtain ⟨game₁, game₂, hgame₁, hgame₂, hround, hhide⟩ := hdiffer.room
  have hsame : SameButCards game₁ game₂ := ⟨hround, by rw [← bare_hide, hhide, bare_hide]⟩
  have hr := (hplaced r game₁ hgame₁).number_ne_zero hround
  by_cases hreturns : ∃ q ccid, Returns lobby₁ r q ccid a
  · obtain ⟨q, ccid, hreturns⟩ := hreturns
    rw [sentTo_eq_iff_of_returns hparallel hr hgame₁ hgame₂ hsame hreturns hstep₁ hstep₂ p]
    rw [hgame₁, hgame₂, Option.some.injEq, ← imp_iff_not_or]
    have hshows : ShowsHands lobby₁ p r a ↔ q = p ∨ ccid = (lobby₁.world.client p).ccid := by
      constructor
      · rintro ⟨q', ccid', h, hreached⟩
        obtain ⟨rfl, rfl⟩ := hreturns.unique h
        exact hreached
      · intro hreached
        exact ⟨q, ccid, hreturns, hreached⟩
    rw [hshows]
  · refine iff_of_true (hquiet fun q ccid h => absurd ⟨q, ccid, h⟩ hreturns) (Or.inl ?_)
    rintro ⟨q, ccid, h, -⟩
    exact hreturns ⟨q, ccid, h⟩

theorem hide_storeHand {seat : Nat} {cuid : Cuid} (hseat : game.cuids[seat]? ≠ some cuid)
    (hand₁ hand₂ : Hand) :
    hide cuid (storeHand game seat hand₁) = hide cuid (storeHand game seat hand₂) := by
  have hcuids : ∀ info, game.players[seat]? = some info → info.cuid ≠ cuid := by
    rintro info hinfo rfl
    exact hseat (by simp [Game13.cuids, hinfo])
  simp only [hide, storeHand, Game13.updateSeat]
  congr 1
  apply List.ext_getElem?
  intro m
  simp only [List.getElem?_map, List.getElem?_modify]
  cases hinfo : game.players[m]? with
  | none => rfl
  | some info =>
      rcases eq_or_ne seat m with rfl | hm
      · simp [hcuids info hinfo, bareSeat]
      · simp [hm]

theorem differInHands_of_laidOut {seat : Nat} (hround : InRound game)
    (hseat : game.cuids[seat]? ≠ some (lobby.world.client p).cuid) (hand₁ hand₂ : Hand) :
    DifferInHands p r
      (lobby.setRoom r (syncAllPlayersInfoToAllClients lobby.world (storeHand game seat hand₁))
        (storeHand game seat hand₁))
      (lobby.setRoom r (syncAllPlayersInfoToAllClients lobby.world (storeHand game seat hand₂))
        (storeHand game seat hand₂)) := by
  have hsync : syncAllPlayersInfoToAllClients lobby.world (storeHand game seat hand₁) =
      syncAllPlayersInfoToAllClients lobby.world (storeHand game seat hand₂) :=
    eq_of_bare (sync_bare lobby.world) (by rw [bare_storeHand, bare_storeHand])
  have hclient : (syncAllPlayersInfoToAllClients lobby.world (storeHand game seat hand₂)).client p =
      lobby.world.client p :=
    (WorldFrames.says_sync lobby.world _).client p
  rw [← hclient] at hseat
  rw [hsync]
  refine ⟨rfl, rfl, rfl, fun _ => rfl, rfl, ?_, storeHand game seat hand₁,
    storeHand game seat hand₂, ?_, ?_, hround, ?_⟩
  · intro k hk
    rw [getElem?_setRoom, getElem?_setRoom, if_neg hk, if_neg hk]
  · rw [getElem?_setRoom, if_pos rfl]
  · rw [getElem?_setRoom, if_pos rfl]
  · exact hide_storeHand hseat hand₁ hand₂

/-- Two clients have been dealt their hands. -/
def dealtTwo : LobbyState :=
  lobbySystem.after (LobbyState.start fun _ => stacked (deckOf [strongHand, weakHand]))
    (gameOf [strongHand, weakHand]).dropLast

/-- The first of them has laid out this hand, and the other nothing yet. -/
def laidOutBy (hand : Hand) : LobbyState := lobbySystem.after dealtTwo [layOut 0 hand]

theorem laidOutBy_reaches :
    ∀ hand ∈ [strongHand, weakHand], lobbySystem.Reaches (fun _ _ => True) (laidOutBy hand) := by
  have hdealt : lobbySystem.Reaches (fun _ _ => True) dealtTwo :=
    .after (.init ⟨_, rfl⟩) (by decide +kernel)
  have hfits : ∀ hand ∈ [strongHand, weakHand],
      lobbySystem.Fits (fun _ _ => True) dealtTwo [layOut 0 hand] := by
    decide +kernel
  exact fun hand hhand => .after hdealt (hfits hand hhand)

theorem bringOut_waits {ccid : Ccid} {cards : List Int} {seat : Nat} {hand : Hand}
    (haccepts : Accepts lobby ccid cards r game seat hand) (hzero : r ≠ 0)
    (hwait : everyoneCompare (storeHand game seat hand) = false) :
    lobby.bringOut ccid cards = .ok (lobby.setRoom r
      (syncAllPlayersInfoToAllClients lobby.world (storeHand game seat hand))
      (storeHand game seat hand)) := by
  obtain ⟨client, hclient, hroomId, hseat⟩ := haccepts.sender
  have hlen : (cards.map toCard).length = 13 := by
    rw [← haccepts.hand, hand.2]
  have hhand : (⟨cards.map toCard, hlen⟩ : Hand) = hand := Subtype.ext haccepts.hand.symm
  simp only [LobbyState.bringOut, hclient, hroomId, hzero, if_false, haccepts.room, haccepts.play,
    ne_eq, not_true_eq_false, hseat, haccepts.sort, hlen, dite_true, hhand,
    bringOutRoom_waits lobby.world haccepts.play hwait]
  rfl

def tableTwo : Game13 := (dealtTwo.rooms[100001]?).getD { id := 0, ownerCuid := 0 }

theorem laidOutBy_eq {hand : Hand}
    (hhand : hand.1 = (hand.1.map fun card => (card : Int)).map toCard)
    (hwait : everyoneCompare (storeHand tableTwo 0 hand) = false) :
    laidOutBy hand = dealtTwo.setRoom 100001
      (syncAllPlayersInfoToAllClients dealtTwo.world (storeHand tableTwo 0 hand))
      (storeHand tableTwo 0 hand) := by
  have hfound : (dealtTwo.rooms[100001]?).isSome = true := by decide +kernel
  have haccepts : Accepts dealtTwo 11 (hand.1.map fun card => (card : Int)) 100001 tableTwo 0
      hand := by
    refine ⟨?_, ?_, ?_, ?_, hhand⟩
    · rw [tableTwo]
      obtain ⟨game, hgame⟩ := Option.isSome_iff_exists.mp hfound
      rw [hgame]
      rfl
    · decide +kernel
    · exact ⟨0, by decide +kernel, by decide +kernel, by decide +kernel⟩
    · decide +kernel
  have hstep : lobbySystem.step dealtTwo (layOut 0 hand) = _ :=
    bringOut_waits haccepts (by decide) hwait
  rw [laidOutBy, System.after, hstep]
  rfl

theorem laidOutBy_differ : DifferInHands 1 100001 (laidOutBy strongHand) (laidOutBy weakHand) := by
  rw [laidOutBy_eq (by decide) (by decide +kernel), laidOutBy_eq (by decide) (by decide +kernel)]
  exact differInHands_of_laidOut (Or.inl (by decide +kernel)) (by decide +kernel) _ _

theorem loginQuest_not_settles (lobby : LobbyState) (ccid : Ccid) (openid name : String)
    (r : RoomId) : ¬ SettlesRound lobby (lobby.loginQuest ccid openid name) r := by
  have hrooms : (lobby.loginQuest ccid openid name).rooms = lobby.rooms := by
    have hact : Act lobby _ (lobby.loginQuest ccid openid name) := loginQuest_act ccid openid name
    generalize lobby.loginQuest ccid openid name = lobby' at hact
    cases hact with
    | calls _ hcall => cases hcall
    | speaks _ _ => rfl
    | leaves _ _ _ => rfl
    | registers _ _ => rfl
    | relogins _ _ => rfl
    | forgets _ _ _ => rfl
  rintro ⟨game, game', hgame, hgame', hsettles⟩
  rw [hrooms, hgame] at hgame'
  cases hgame'
  exact not_settles_of_eq rfl hsettles

/-- The second client logs in again and is sent the hand that the first has laid out. -/
theorem hands_shown_on_return :
    ¬ ∀ (p : ClientPtr) (r : RoomId) (a : Event) (lobby₁ lobby₂ lobby₁' lobby₂' : LobbyState),
      lobbySystem.Reaches (fun _ _ => True) lobby₁ →
      lobbySystem.Reaches (fun _ _ => True) lobby₂ → DifferInHands p r lobby₁ lobby₂ →
      lobby₁.Allowed a → lobby₂.Allowed a → lobby₁.step a = .ok lobby₁' →
      lobby₂.step a = .ok lobby₂' → ¬ SettlesRound lobby₁ lobby₁' r →
      sentTo p lobby₁ lobby₁' = sentTo p lobby₂ lobby₂' := by
  intro hall
  have hshown : sentTo 1 (laidOutBy strongHand) ((laidOutBy strongHand).loginQuest 12 "12" "") ≠
      sentTo 1 (laidOutBy weakHand) ((laidOutBy weakHand).loginQuest 12 "12" "") := by
    decide +kernel
  exact hshown (hall 1 100001 (.loginQuest 12 "12" "") _ _ _ _
    (laidOutBy_reaches _ (by simp)) (laidOutBy_reaches _ (by simp)) laidOutBy_differ trivial
    trivial rfl rfl (loginQuest_not_settles _ _ _ _ _))

/-- When the first logs in again, the second is sent no hand. -/
theorem hands_hidden_iff_two :
    sentTo 1 (laidOutBy strongHand) ((laidOutBy strongHand).loginQuest 11 "11" "") =
        sentTo 1 (laidOutBy weakHand) ((laidOutBy weakHand).loginQuest 11 "11" "") ↔
      ¬ ShowsHands (laidOutBy strongHand) 1 100001 (.loginQuest 11 "11" "") ∨
        (laidOutBy strongHand).rooms[100001]? = (laidOutBy weakHand).rooms[100001]? :=
  hands_hidden_iff (laidOutBy_reaches _ (by simp)) (laidOutBy_reaches _ (by simp)) laidOutBy_differ
    rfl rfl (loginQuest_not_settles _ _ _ _ _)

end Showing

end CasualGame.Lobby.HiddenHands
