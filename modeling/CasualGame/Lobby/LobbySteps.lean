import CasualGame.Lobby.RoomSteps

/-!
What one step of the lobby can do: to the deck, to each registered room, and to the
outbox. The invariants of the lobby are read off this one statement.
-/

namespace CasualGame.Lobby.LobbySteps

open Deck
open Dealing
open Game13
open RoomSteps
open Lib.Run

/-- The message is accepted as the hand of a seat: it comes from the player of the
seat, who has not brought out a hand in this round, and holds thirteen cards. -/
structure Accepts (lobby : LobbyState) (ccid : Ccid) (cards : List Int) (roomId : RoomId)
    (game : Game13) (seat : Nat) (hand : Hand) : Prop where
  room : lobby.rooms[roomId]? = some game
  play : game.status = .play
  sender : ∃ client, lobby.world.getByCcid ccid = some client ∧
    (lobby.world.client client).roomId = roomId ∧
      game.getPlayerInfoByCuid (lobby.world.client client).cuid = some seat
  sort : (game.players[seat]?).map (·.status) = some .sort
  hand : hand.1 = cards.map toCard

/-- The room and the seat from which the sender of a message may bring out a hand. -/
def seatToPlay (lobby : LobbyState) (ccid : Ccid) : Option (Game13 × Nat) := do
  let client ← lobby.world.getByCcid ccid
  let game ← lobby.rooms[(lobby.world.client client).roomId]?
  let seat ← game.getPlayerInfoByCuid (lobby.world.client client).cuid
  let info ← game.players[seat]?
  if game.status = .play ∧ info.status = .sort then some (game, seat) else none

def laidOut (lobby : LobbyState) (ccid : Ccid) (cards : List Int) : Option Game13 := do
  let (game, seat) ← seatToPlay lobby ccid
  if h : (cards.map toCard).length = 13 then
    some (LobbyState.storeHand game seat ⟨cards.map toCard, h⟩)
  else none

theorem Accepts.seatToPlay {lobby : LobbyState} {ccid : Ccid} {cards : List Int} {roomId : RoomId}
    {game : Game13} {seat : Nat} {hand : Hand}
    (h : Accepts lobby ccid cards roomId game seat hand) :
    seatToPlay lobby ccid = some (game, seat) := by
  obtain ⟨client, hclient, hroomId, hseat⟩ := h.sender
  obtain ⟨info, hinfo, hsort⟩ := Option.map_eq_some_iff.mp h.sort
  simp [LobbySteps.seatToPlay, hclient, hroomId, h.room, hseat, hinfo, h.play, hsort]

theorem Accepts.laidOut {lobby : LobbyState} {ccid : Ccid} {cards : List Int} {roomId : RoomId}
    {game : Game13} {seat : Nat} {hand : Hand}
    (h : Accepts lobby ccid cards roomId game seat hand) :
    laidOut lobby ccid cards = some (LobbyState.storeHand game seat hand) := by
  have hlen : (cards.map toCard).length = 13 := by
    rw [← h.hand, hand.2]
  have hhand : (⟨cards.map toCard, hlen⟩ : Hand) = hand := Subtype.ext h.hand.symm
  simp only [LobbySteps.laidOut, h.seatToPlay, Option.bind_eq_bind, Option.bind_some, hlen,
    dite_true, hhand]

def Ends (lobby lobby' : LobbyState) (counts : List FinalCount) : Prop :=
  ∃ (roomId : RoomId) (game game' : Game13), lobby.rooms[roomId]? = some game ∧
    game.status = .play ∧ lobby'.rooms[roomId]? = some game' ∧ FinalCounts game' counts

/-- What a step does to what is registered under a room number. -/
inductive RoomChange (lobby : LobbyState) (a : Event) (roomId : RoomId) :
    Option Game13 → Option Game13 → Prop
  | gone (old : Option Game13) : RoomChange lobby a roomId old none
  | opens {game' : Game13} : game'.status = .prepare → game'.settleData = [] →
      RoomChange lobby a roomId none (some game')
  | moves {game game' : Game13} : Moves game game' →
      RoomChange lobby a roomId (some game) (some game')
  | brings {ccid : Ccid} {cards : List Int} {game : Game13} {seat : Nat} {hand : Hand}
      {game' : Game13} : a = .bringOut ccid cards → Accepts lobby ccid cards roomId game seat hand →
      BroughtOut (LobbyState.storeHand game seat hand) game' →
      RoomChange lobby a roomId (some game) (some game')

structure StepSpec (lobby : LobbyState) (a : Event) (lobby' : LobbyState) : Prop where
  deck : DeckOk lobby'.world.deck
  rooms : ∀ roomId : RoomId, RoomChange lobby a roomId lobby.rooms[roomId]? lobby'.rooms[roomId]?
  sent : Sends (Ends lobby lobby') lobby.world lobby'.world

variable {lobby lobby' : LobbyState} {a : Event}

theorem RoomChange.refl (lobby : LobbyState) (a : Event) (roomId : RoomId)
    (room : Option Game13) : RoomChange lobby a roomId room room := by
  cases room with
  | none => exact .gone none
  | some game => exact .moves (Moves.refl game)

theorem StepSpec.of_world (hdeck : DeckOk lobby.world.deck) (a : Event) {w : World}
    (h : Talks lobby.world w) : StepSpec lobby a (lobby.setWorld w) :=
  ⟨h.1.symm ▸ hdeck, fun roomId => RoomChange.refl lobby a roomId _, h.sends _⟩

theorem StepSpec.refl (hdeck : DeckOk lobby.world.deck) (a : Event) : StepSpec lobby a lobby :=
  StepSpec.of_world hdeck a (Talks.refl _)

theorem getElem?_setRoom (lobby : LobbyState) (roomId : RoomId) (w : World) (game : Game13)
    (k : RoomId) :
    (lobby.setRoom roomId w game).rooms[k]? =
      if k = roomId then some game else lobby.rooms[k]? := by
  simp only [LobbyState.setRoom, Std.TreeMap.getElem?_insert, compare_eq_iff_eq]
  by_cases hk : k = roomId
  · rw [if_pos hk.symm, if_pos hk]
  · rw [if_neg (Ne.symm hk), if_neg hk]

theorem StepSpec.of_room {roomId : RoomId} {w : World} {game' : Game13}
    (hdeck : DeckOk w.deck) (hroom : RoomChange lobby a roomId lobby.rooms[roomId]? (some game'))
    (hsends : Sends (fun counts => (∃ game, lobby.rooms[roomId]? = some game ∧
      game.status = .play) ∧ FinalCounts game' counts) lobby.world w) :
    StepSpec lobby a (lobby.setRoom roomId w game') := by
  refine ⟨hdeck, fun k => ?_, hsends.mono ?_⟩
  · rw [getElem?_setRoom]
    split_ifs with hk
    · rw [hk]
      exact hroom
    · exact RoomChange.refl lobby a k _
  · rintro counts ⟨⟨game, hgame, hplay⟩, hcounts⟩
    exact ⟨roomId, game, game', hgame, hplay, by rw [getElem?_setRoom, if_pos rfl], hcounts⟩

theorem StepSpec.of_moves (hdeck : DeckOk lobby.world.deck) (a : Event) {roomId : RoomId}
    {w : World} {game game' : Game13} (hroom : lobby.rooms[roomId]? = some game)
    (htalks : Talks lobby.world w) (hmoves : Moves game game') :
    StepSpec lobby a (lobby.setRoom roomId w game') :=
  .of_room (htalks.1.symm ▸ hdeck) (hroom ▸ .moves hmoves) (htalks.sends _)

theorem giveUpRoom_spec (w : World) (game : Game13) (client : ClientPtr) (seat : Nat) :
    Talks w (LobbyState.giveUpRoom w game client seat).1 ∧
      Moves game (LobbyState.giveUpRoom w game client seat).2 := by
  unfold LobbyState.giveUpRoom
  cases hstatus : game.status with
  | prepare =>
      dsimp only
      split_ifs
      · exact abortGame_spec w game
      · exact removePlayer_spec w game client
  | play =>
      apply checkAllVotes_spec w _ (Or.inl hstatus) rfl
      exact ⟨(sameTable_updateSeat game seat (f := fun info => { info with vote := .aye })
        (by intro info; rfl)).hands, rfl, rfl, rfl⟩
  | vote =>
      exact checkAllVotes_spec w (sameTable_updateSeat game seat (by intro info; rfl))
        (Or.inr hstatus) hstatus
  | settle => exact ⟨Talks.refl w, Moves.refl game⟩
  | settleAll => exact removePlayer_spec w game client
  | closed => exact removePlayer_spec w game client

theorem readyFlagRoom_spec {w w' : World} {game game' : Game13} {seat : Nat}
    {newStatus : PlayerStatus} (hdeck : DeckOk w.deck) (hprepare : game.status = .prepare)
    (h : LobbyState.readyFlagRoom w game seat newStatus = .ok (w', game')) :
    DeckOk w'.deck ∧ Sends (fun _ => False) w w' ∧ Moves game game' := by
  have hsame := sameTable_updateSeat game seat (f := fun info => { info with status := newStatus })
    (by intro info; rfl)
  have hsync := talks_sync w (game.updateSeat seat fun info => { info with status := newStatus })
  have hdeck₁ := hsync.1.symm ▸ hdeck
  simp only [LobbyState.readyFlagRoom] at h
  split_ifs at h
  · rcases tryStartRound_cases hdeck₁ h with ⟨-, rfl, rfl⟩ | ⟨hdealt, hdeck', hsends⟩
    · exact ⟨hdeck₁, hsync.2, .idle hsame (Or.inl rfl)⟩
    · exact ⟨hdeck', hsync.2.trans hsends, .deals hprepare (.of_sameTable hsame hdealt)⟩
  · cases h
    exact ⟨hdeck₁, hsync.2, .idle hsame (Or.inl rfl)⟩

theorem readyFlag_cases (lobby : LobbyState) (ccid : Ccid) (ready : Bool) :
    (∃ w, Talks lobby.world w ∧ lobby.readyFlag ccid ready = .ok (lobby.setWorld w)) ∨
      ∃ roomId game seat newStatus, lobby.rooms[roomId]? = some game ∧ game.status = .prepare ∧
        lobby.readyFlag ccid ready =
          (LobbyState.readyFlagRoom lobby.world game seat newStatus).bind fun r =>
            .ok (lobby.setRoom roomId r.1 r.2) := by
  unfold LobbyState.readyFlag
  cases lobby.world.getByCcid ccid with
  | none => exact Or.inl ⟨_, Talks.refl _, rfl⟩
  | some client =>
      dsimp only
      by_cases hzero : (lobby.world.client client).roomId = 0
      · rw [if_pos hzero]
        exact Or.inl ⟨_, talks_notice _ _ _, rfl⟩
      rw [if_neg hzero]
      cases hroom : lobby.rooms[(lobby.world.client client).roomId]? with
      | none => exact Or.inl ⟨_, talks_afterLeaveRoom _ _, rfl⟩
      | some game =>
          dsimp only
          by_cases hprepare : game.status ≠ .prepare
          · rw [if_pos hprepare]
            exact Or.inl ⟨_, talks_notice _ _ _, rfl⟩
          rw [if_neg hprepare]
          cases game.getPlayerInfoByCuid (lobby.world.client client).cuid with
          | none => exact Or.inl ⟨_, talks_afterLeaveRoom _ _, rfl⟩
          | some seat =>
              dsimp only
              split_ifs
              · exact Or.inl ⟨_, Talks.refl _, rfl⟩
              · exact Or.inr ⟨_, game, seat, _, hroom, by simpa using hprepare, rfl⟩

theorem bringOut_cases (lobby : LobbyState) (ccid : Ccid) (cards : List Int) :
    (∃ w, Talks lobby.world w ∧ lobby.bringOut ccid cards = .ok (lobby.setWorld w)) ∨
      ∃ roomId game seat hand, Accepts lobby ccid cards roomId game seat hand ∧
        lobby.bringOut ccid cards =
          (LobbyState.bringOutRoom lobby.world game seat hand).bind fun r =>
            .ok (lobby.setRoom roomId r.1 r.2) := by
  unfold LobbyState.bringOut
  cases hclient : lobby.world.getByCcid ccid with
  | none => exact Or.inl ⟨_, Talks.refl _, rfl⟩
  | some client =>
      dsimp only
      by_cases hzero : (lobby.world.client client).roomId = 0
      · rw [if_pos hzero]
        exact Or.inl ⟨_, talks_notice _ _ _, rfl⟩
      rw [if_neg hzero]
      cases hroom : lobby.rooms[(lobby.world.client client).roomId]? with
      | none => exact Or.inl ⟨_, talks_afterLeaveRoom _ _, rfl⟩
      | some game =>
          dsimp only
          by_cases hplay : game.status ≠ .play
          · rw [if_pos hplay]
            exact Or.inl ⟨_, talks_notice _ _ _, rfl⟩
          rw [if_neg hplay]
          rw [not_not] at hplay
          cases hseat : game.getPlayerInfoByCuid (lobby.world.client client).cuid with
          | none => exact Or.inl ⟨_, talks_afterLeaveRoom _ _, rfl⟩
          | some seat =>
              dsimp only
              split_ifs with hsort hlen
              · exact Or.inl ⟨_, talks_notice _ _ _, rfl⟩
              · refine Or.inr ⟨_, game, seat, ⟨cards.map toCard, hlen⟩, ?_, rfl⟩
                exact ⟨hroom, hplay, ⟨client, hclient, rfl, hseat⟩, by simpa using hsort, rfl⟩
              · exact Or.inl ⟨_, talks_notice _ _ _, rfl⟩

section Handlers

variable (hdeck : DeckOk lobby.world.deck)
include hdeck

theorem notice_spec (a : Event) (client : ClientPtr) (text : String) :
    StepSpec lobby a (lobby.notice client text) :=
  .of_world hdeck a (talks_notice _ _ _)

theorem afterLeaveRoom_spec (a : Event) (client : ClientPtr) :
    StepSpec lobby a (lobby.setWorld (lobby.world.afterLeaveRoom client)) :=
  .of_world hdeck a (talks_afterLeaveRoom _ _)

theorem createGame_spec (ccid : Ccid) (rcv : CreateGame) (a : Event) :
    StepSpec lobby a (lobby.createGame ccid rcv) := by
  simp only [LobbyState.createGame]
  cases lobby.world.getByCcid ccid with
  | none => exact StepSpec.refl hdeck a
  | some client =>
      dsimp only
      by_cases hin : (lobby.world.client client).roomId ≠ 0
      · rw [if_pos hin]
        exact notice_spec hdeck a client _
      rw [if_neg hin]
      obtain ⟨roomId, hnext⟩ : ∃ roomId : RoomId,
        lobby.getRoomId = (roomId, { lobby with lastRoomId := roomId }) := ⟨_, rfl⟩
      rw [hnext]
      dsimp only
      by_cases hold : roomId ∈ lobby.rooms
      · rw [if_pos hold]
        exact ⟨hdeck, fun k => RoomChange.refl lobby a k _, Sends.refl _ _⟩
      rw [if_neg hold]
      have hnone : lobby.rooms[roomId]? = none := by
        simpa using hold
      obtain ⟨htalks, hsame, hstatus⟩ := enterRoom_spec lobby.world
        (LobbyState.newGame roomId (lobby.world.client client).cuid rcv) client
      have hopens : RoomChange lobby a roomId none _ := .opens hstatus hsame.settleData
      rw [← hnone] at hopens
      have hspec := StepSpec.of_room (htalks.1.symm ▸ hdeck) hopens (htalks.sends _)
      exact ⟨hspec.deck, hspec.rooms, hspec.sent⟩

theorem jionGame_spec (ccid : Ccid) (roomId : Int) (a : Event) :
    StepSpec lobby a (lobby.jionGame ccid roomId) := by
  simp only [LobbyState.jionGame]
  cases lobby.world.getByCcid ccid with
  | none => exact StepSpec.refl hdeck a
  | some client =>
      dsimp only
      cases hroom : lobby.rooms[CalcRound.toUInt32 roomId]? with
      | none => exact notice_spec hdeck a client _
      | some game =>
          obtain ⟨htalks, hsame, hstatus⟩ := enterRoom_spec lobby.world game client
          exact .of_moves hdeck a hroom htalks (.idle hsame (Or.inl hstatus))

theorem giveUp_spec (ccid : Ccid) (a : Event) : StepSpec lobby a (lobby.giveUp ccid) := by
  simp only [LobbyState.giveUp]
  cases lobby.world.getByCcid ccid with
  | none => exact StepSpec.refl hdeck a
  | some client =>
      dsimp only
      split_ifs with hzero
      · exact notice_spec hdeck a client _
      · cases hroom : lobby.rooms[(lobby.world.client client).roomId]? with
        | none => exact afterLeaveRoom_spec hdeck a client
        | some game =>
            dsimp only
            cases game.getPlayerInfoByCuid (lobby.world.client client).cuid with
            | none => exact StepSpec.refl hdeck a
            | some seat =>
                obtain ⟨htalks, hmoves⟩ := giveUpRoom_spec lobby.world game client seat
                exact .of_moves hdeck a hroom htalks hmoves

theorem voteFoAbortGame_spec (ccid : Ccid) (vote : Vote) (a : Event) :
    StepSpec lobby a (lobby.voteFoAbortGame ccid vote) := by
  simp only [LobbyState.voteFoAbortGame]
  cases lobby.world.getByCcid ccid with
  | none => exact StepSpec.refl hdeck a
  | some client =>
      dsimp only
      cases hroom : lobby.rooms[(lobby.world.client client).roomId]? with
      | none => exact afterLeaveRoom_spec hdeck a client
      | some game =>
          dsimp only
          by_cases hvote : game.status ≠ .vote
          · rw [if_pos hvote]
            exact StepSpec.refl hdeck a
          · rw [if_neg hvote]
            have hround : game.status = .vote := by simpa using hvote
            cases game.getPlayerInfoByCuid (lobby.world.client client).cuid with
            | none => exact afterLeaveRoom_spec hdeck a client
            | some seat =>
                have hsame := sameTable_updateSeat game seat
                  (f := fun info => { info with vote := vote }) (by intro info; rfl)
                dsimp only
                split_ifs
                · exact .of_moves hdeck a hroom (Talks.refl _) (.idle hsame (Or.inl rfl))
                · obtain ⟨htalks, hmoves⟩ := checkAllVotes_spec lobby.world hsame
                    (Or.inr hround) hround
                  exact .of_moves hdeck a hroom htalks hmoves

theorem sendChat_spec (ccid : Ccid) (type : ChatType) (dataInt : Int) (dataText : String)
    (a : Event) : StepSpec lobby a (lobby.sendChat ccid type dataInt dataText) := by
  simp only [LobbyState.sendChat]
  cases lobby.world.getByCcid ccid with
  | none => exact StepSpec.refl hdeck a
  | some client =>
      dsimp only
      cases lobby.rooms[(lobby.world.client client).roomId]? with
      | none => exact StepSpec.refl hdeck a
      | some game =>
          exact .of_world hdeck a (talks_sendToSeats _ _ (by simp [Msg.NotFinal]))

theorem loginSucces_spec {w : World} (hw : Talks lobby.world w) (client : ClientPtr)
    (ccid : Ccid) (a : Event) :
    StepSpec lobby a ((lobby.setWorld w).loginSucces client ccid) := by
  have hret := hw.trans (talks_sendToPrivate w
    (.retLoginQuest .succes ccid (w.client client).cuid (some (w.client client).openid)))
  simp only [LobbyState.loginSucces, LobbyState.clientOnline]
  split_ifs with hzero
  · exact .of_world hdeck a hret
  · split
    · exact .of_world hdeck a (hret.trans (talks_clients _ _))
    · exact .of_world hdeck a (hret.trans (talks_clientOnlineExec _ _ _))

theorem loginQuest_spec (ccid : Ccid) (openid name : String) (a : Event) :
    StepSpec lobby a (lobby.loginQuest ccid openid name) := by
  simp only [LobbyState.loginQuest]
  cases lobby.world.clients.getByOpenid openid with
  | none =>
      dsimp only
      split_ifs
      · exact loginSucces_spec hdeck (talks_clients lobby.world _) _ ccid a
      · exact .of_world hdeck a ((talks_clients lobby.world _).trans (talks_sendToPrivate _ _))
  | some client =>
      dsimp only
      apply loginSucces_spec hdeck
      generalize hw : lobby.world.sendToPrivate _ = w
      have htalks : Talks lobby.world w := hw ▸ talks_sendToPrivate _ _
      split_ifs
      · exact htalks.trans (talks_clients w _)
      · exact htalks.trans ((talks_clients w _).trans (talks_sendToPrivate _ _))

theorem readyFlag_spec {ccid : Ccid} {ready : Bool} (a : Event)
    (h : lobby.readyFlag ccid ready = .ok lobby') : StepSpec lobby a lobby' := by
  rcases readyFlag_cases lobby ccid ready with
    ⟨w, htalks, heq⟩ | ⟨roomId, game, seat, newStatus, hroom, hprepare, heq⟩
  · rw [heq] at h
    cases h
    exact .of_world hdeck a htalks
  · obtain ⟨⟨w, game'⟩, hready, h⟩ := bind_eq_ok.mp (heq.symm.trans h)
    cases h
    obtain ⟨hdeck', hsends, hmoves⟩ := readyFlagRoom_spec hdeck hprepare hready
    exact .of_room hdeck' (hroom ▸ .moves hmoves) (hsends.mono fun _ => False.elim)

theorem bringOut_spec {ccid : Ccid} {cards : List Int}
    (h : lobby.bringOut ccid cards = .ok lobby') :
    StepSpec lobby (.bringOut ccid cards) lobby' := by
  rcases bringOut_cases lobby ccid cards with
    ⟨w, htalks, heq⟩ | ⟨roomId, game, seat, hand, haccepts, heq⟩
  · rw [heq] at h
    cases h
    exact .of_world hdeck _ htalks
  · obtain ⟨⟨w, game'⟩, hbring, h⟩ := bind_eq_ok.mp (heq.symm.trans h)
    cases h
    obtain ⟨hdeck', hsends, hbrought⟩ := bringOutRoom_spec hdeck haccepts.play hbring
    exact .of_room hdeck' (haccepts.room ▸ .brings rfl haccepts hbrought)
      (hsends.mono fun counts hcounts => ⟨⟨game, haccepts.room, haccepts.play⟩, hcounts⟩)

end Handlers

theorem timerExecRooms_spec {order : List RoomId} (horder : order.Nodup)
    (hdeck : DeckOk lobby.world.deck) (h : LobbyState.timerExecRooms order lobby = .ok lobby') :
    DeckOk lobby'.world.deck ∧ Sends (fun _ => False) lobby.world lobby'.world ∧
      (∀ k : RoomId, k ∉ order → lobby'.rooms[k]? = lobby.rooms[k]?) ∧
      ∀ (k : RoomId) (game' : Game13), lobby'.rooms[k]? = some game' →
        ∃ game, lobby.rooms[k]? = some game ∧ Moves game game' := by
  induction order generalizing lobby with
  | nil =>
      cases h
      exact ⟨hdeck, Sends.refl _ _, fun _ _ => rfl, fun k game' hk => ⟨game', hk, Moves.refl _⟩⟩
  | cons roomId order ih =>
      obtain ⟨hnotin, hnodup⟩ := List.nodup_cons.mp horder
      unfold LobbyState.timerExecRooms at h
      cases hroom : lobby.rooms[roomId]? with
      | none =>
          simp only [hroom] at h
          obtain ⟨hdeck', hsends, hkept, hmoves⟩ := ih hnodup hdeck h
          exact ⟨hdeck', hsends, fun k hk => hkept k (List.not_mem_of_not_mem_cons hk), hmoves⟩
      | some game =>
          simp only [hroom] at h
          split_ifs at h with hid
          · cases h
            refine ⟨hdeck, Sends.refl _ _, fun k hk => ?_, fun k game' hk => ?_⟩
            · have hne : roomId ≠ k := fun heq => hk (by simp [heq])
              simp [Std.TreeMap.getElem?_erase, hne]
            · rw [Std.TreeMap.getElem?_erase] at hk
              split_ifs at hk
              exact ⟨game', hk, Moves.refl _⟩
          · obtain ⟨⟨w, game₁⟩, hexec, h⟩ := bind_eq_ok.mp h
            obtain ⟨hdeck₁, hsends₁, hmoves₁⟩ := timerExec_spec hdeck hexec
            obtain ⟨hdeck', hsends, hkept, hmoves⟩ := ih hnodup hdeck₁ h
            refine ⟨hdeck', hsends₁.trans hsends, fun k hk => ?_, fun k game' hk => ?_⟩
            · have hne : k ≠ roomId := fun heq => hk (by simp [heq])
              rw [hkept k (List.not_mem_of_not_mem_cons hk), getElem?_setRoom, if_neg hne]
            · by_cases heq : k = roomId
              · subst heq
                rw [hkept k hnotin, getElem?_setRoom, if_pos rfl] at hk
                cases hk
                exact ⟨game, hroom, hmoves₁⟩
              · obtain ⟨game₂, hgame₂, hmoves₂⟩ := hmoves k game' hk
                rw [getElem?_setRoom, if_neg heq] at hgame₂
                exact ⟨game₂, hgame₂, hmoves₂⟩

/-- Every step keeps the deck, changes rooms as `RoomChange` says, and sends final
counts only of rooms that have come to their end. -/
theorem step_spec (hdeck : DeckOk lobby.world.deck) (ha : lobby.Allowed a)
    (h : lobby.step a = .ok lobby') : StepSpec lobby a lobby' := by
  cases a with
  | createGame ccid rcv =>
      cases h
      exact createGame_spec hdeck ccid rcv _
  | jionGame ccid roomId =>
      cases h
      exact jionGame_spec hdeck ccid roomId _
  | giveUp ccid =>
      cases h
      exact giveUp_spec hdeck ccid _
  | voteFoAbortGame ccid vote =>
      cases h
      exact voteFoAbortGame_spec hdeck ccid vote _
  | readyFlag ccid ready => exact readyFlag_spec hdeck _ h
  | bringOut ccid cards => exact bringOut_spec hdeck h
  | sendChat ccid type dataInt dataText =>
      cases h
      exact sendChat_spec hdeck ccid type dataInt dataText _
  | loginQuest ccid openid name =>
      cases h
      exact loginQuest_spec hdeck ccid openid name _
  | timer now order =>
      have horder : order.Nodup := ha.nodup_iff.mpr lobby.rooms.nodup_keys
      have hdeckNow : DeckOk (lobby.setWorld { lobby.world with timerTime := now }).world.deck :=
        hdeck
      obtain ⟨hdeck', hsends, -, hmoves⟩ := timerExecRooms_spec horder hdeckNow h
      refine ⟨hdeck', fun k => ?_, (Sends.of_sent_eq _ rfl).trans (hsends.mono fun _ => False.elim)⟩
      cases hk : lobby'.rooms[k]? with
      | none => exact .gone _
      | some game' =>
          obtain ⟨game, hgame, hmove⟩ := hmoves k game' hk
          change lobby.rooms[k]? = some game at hgame
          rw [hgame]
          exact .moves hmove

end CasualGame.Lobby.LobbySteps
