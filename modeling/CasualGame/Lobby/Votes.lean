import CasualGame.Lobby.Bookkeeping

/-!
Votes on ending a game early. What is counted in a vote are the ballots of its own
session, as an observer notes them down, and nothing else ends a game in a round but all
of them in favour or the time being up.
-/

namespace CasualGame.Lobby.Votes

open Deck
open Dealing
open Settlement
open Game13
open LobbyState
open RoomSteps
open LobbySteps
open AllRounds
open RowScoring
open Lib.Run
open WorldFrames
open Admission
open LobbyActs
open RoomMoves
open Bookkeeping

section Sessions

/-- The ballots of a vote by their seats, the latest first, and the time the vote began. -/
structure Session where
  ballots : List (Nat × Vote) := []
  began : Int := 0

def Session.latest (session : Session) (seat : Nat) : Vote :=
  (session.ballots.lookup seat).getD .none

def Session.cast (session : Session) (seat : Nat) (vote : Vote) : Session :=
  { session with ballots := (seat, vote) :: session.ballots }

theorem Session.latest_cast (session : Session) (seat : Nat) (vote : Vote) (k : Nat) :
    (session.cast seat vote).latest k = if k = seat then vote else session.latest k := by
  simp only [Session.latest, Session.cast, List.lookup_cons, beq_eq_decide]
  split_ifs with hk
  · simp [hk]
  · simp [hk]

abbrev Sessions := RoomId → Session

/-- The room a client says it is in, and its seat there. -/
def voter (lobby : LobbyState) (ccid : Ccid) : Option (RoomId × Game13 × Nat) :=
  (lobby.world.getByCcid ccid).bind fun client =>
    (lobby.rooms[(lobby.world.client client).roomId]?).bind fun game =>
      (game.getPlayerInfoByCuid (lobby.world.client client).cuid).map fun seat =>
        ((lobby.world.client client).roomId, game, seat)

/-- The ballot a message casts: the room, the seat and the vote. To give up in a round is
to vote for its end. -/
def ballot (lobby : LobbyState) : Event → Option (RoomId × Nat × Vote)
  | .giveUp ccid => (voter lobby ccid).bind fun (roomId, game, seat) =>
      if roomId ≠ 0 ∧ (game.status = .play ∨ game.status = .vote) then some (roomId, seat, .aye)
      else none
  | .voteFoAbortGame ccid vote => (voter lobby ccid).bind fun (roomId, game, seat) =>
      if game.status = .vote then some (roomId, seat, vote) else none
  | _ => none

def voting (lobby : LobbyState) (roomId : RoomId) : Bool :=
  (lobby.rooms[roomId]?).any fun game => game.status = .vote

/-- As long as a room is not in a vote, the next session would begin now. -/
def noteBallots (lobby : LobbyState) (a : Event) (_ : LobbyState) (sessions : Sessions) :
    Sessions := fun k =>
  let session := if voting lobby k then sessions k else ⟨[], lobby.world.timerTime⟩
  match ballot lobby a with
  | some (roomId, seat, vote) => if roomId = k then session.cast seat vote else session
  | none => session

def votedLobby : System (LobbyState × Sessions) Event Fault :=
  lobbySystem.chronicle (fun _ => {}) noteBallots

instance (s : LobbyState × Sessions) (a : Event) : Decidable (votedLobby.Allowed s a) :=
  inferInstanceAs (Decidable (s.1.Allowed a))

variable {lobby lobby' : LobbyState} {a : Event} {k : RoomId} {game : Game13} {seat : Nat}
  {vote : Vote}

theorem voting_of_room (hroom : lobby.rooms[k]? = some game) :
    voting lobby k = true ↔ game.status = .vote := by
  simp [voting, hroom]

theorem noteBallots_none (hnone : ballot lobby a = none) (sessions : Sessions)
    (hvoting : voting lobby k = true) : noteBallots lobby a lobby' sessions k = sessions k := by
  simp [noteBallots, hnone, hvoting]

theorem noteBallots_other {roomId : RoomId} (hsome : ballot lobby a = some (roomId, seat, vote))
    (hne : roomId ≠ k) (sessions : Sessions) (hvoting : voting lobby k = true) :
    noteBallots lobby a lobby' sessions k = sessions k := by
  simp [noteBallots, hsome, hne, hvoting]

theorem noteBallots_cast (hsome : ballot lobby a = some (k, seat, vote)) (sessions : Sessions) :
    noteBallots lobby a lobby' sessions k =
      (if voting lobby k then sessions k else ⟨[], lobby.world.timerTime⟩).cast seat vote := by
  simp [noteBallots, hsome]

theorem voter_eq_some {ccid : Ccid} : voter lobby ccid = some (k, game, seat) ↔
    ∃ client, Sender lobby.world ccid k client ∧ lobby.rooms[k]? = some game ∧
      game.getPlayerInfoByCuid (lobby.world.client client).cuid = some seat := by
  simp only [voter, Option.bind_eq_some_iff, Option.map_eq_some_iff, Prod.mk.injEq]
  constructor
  · rintro ⟨client, hclient, game', hgame, seat', hseat, rfl, rfl, rfl⟩
    exact ⟨client, ⟨hclient, rfl⟩, hgame, hseat⟩
  · rintro ⟨client, ⟨hclient, rfl⟩, hgame, hseat⟩
    exact ⟨client, hclient, game, hgame, seat, hseat, rfl, rfl, rfl⟩

end Sessions

section Polls

/-- The game a ballot is cast in; in play it puts the end of the game to the vote. -/
def polled (w : World) (game : Game13) (cuid : Cuid) : Game13 :=
  if game.status = .vote then game
  else { game with startVoteTime := w.timerTime, voteSponsorCuid := cuid, status := .vote }

variable {lobby lobby' : LobbyState} {a : Event} {k : RoomId} {game : Game13} {seat : Nat}
  {vote : Vote}

theorem polled_status (w : World) (game : Game13) (cuid : Cuid) :
    (polled w game cuid).status = .vote := by
  unfold polled
  split_ifs with hvote
  · exact hvote
  · rfl

theorem polled_players (w : World) (game : Game13) (cuid : Cuid) :
    (polled w game cuid).players = game.players := by
  unfold polled
  split_ifs
  · rfl
  · rfl

theorem giveUpRoom_polls (w : World) (client : ClientPtr) (seat : Nat) (hround : InRound game) :
    giveUpRoom w game client seat =
      voteRoom w (polled w game (w.client client).cuid) seat .aye := by
  rcases hround with hplay | hvote
  · simp [giveUpRoom, voteRoom, polled, hplay]
  · simp [giveUpRoom, voteRoom, polled, hvote]

theorem step_of_ballot (hballot : ballot lobby a = some (k, seat, vote))
    (hstep : lobby.step a = .ok lobby') :
    ∃ game client, lobby.rooms[k]? = some game ∧ InRound game ∧
      game.getPlayerInfoByCuid (lobby.world.client client).cuid = some seat ∧
      let room := voteRoom lobby.world
        (polled lobby.world game (lobby.world.client client).cuid) seat vote
      lobby' = lobby.setRoom k room.1 room.2 := by
  cases a with
  | giveUp ccid =>
      cases hstep
      simp only [ballot, Option.bind_eq_some_iff, Option.ite_none_right_eq_some, Option.some.injEq,
        Prod.mk.injEq] at hballot
      obtain ⟨⟨roomId, game, seat'⟩, hvoter, ⟨hzero, hround⟩, rfl, rfl, rfl⟩ := hballot
      obtain ⟨client, ⟨hfound, hroom⟩, hgame, hseat⟩ := voter_eq_some.mp hvoter
      refine ⟨game, client, hgame, hround, hseat, ?_⟩
      dsimp only at hroom hgame hzero
      subst hroom
      dsimp only
      rw [← giveUpRoom_polls lobby.world client seat' hround]
      simp only [LobbyState.giveUp, hfound, if_neg hzero, hgame, hseat]
  | voteFoAbortGame ccid v =>
      cases hstep
      simp only [ballot, Option.bind_eq_some_iff, Option.ite_none_right_eq_some, Option.some.injEq,
        Prod.mk.injEq] at hballot
      obtain ⟨⟨roomId, game, seat'⟩, hvoter, hvote, rfl, rfl, rfl⟩ := hballot
      obtain ⟨client, ⟨hfound, hroom⟩, hgame, hseat⟩ := voter_eq_some.mp hvoter
      refine ⟨game, client, hgame, Or.inr hvote, hseat, ?_⟩
      dsimp only at hroom hgame hvote
      subst hroom
      have hpolled : polled lobby.world game (lobby.world.client client).cuid = game :=
        if_pos hvote
      simp only [LobbyState.voteFoAbortGame, hfound, hgame, hvote, hseat, hpolled, voteRoom, ne_eq,
        not_true_eq_false, if_false]
      split_ifs
      · rfl
      · rfl
  | createGame _ _ => cases hballot
  | jionGame _ _ => cases hballot
  | readyFlag _ _ => cases hballot
  | bringOut _ _ => cases hballot
  | sendChat _ _ _ _ => cases hballot
  | loginQuest _ _ _ => cases hballot
  | timer _ _ => cases hballot

end Polls

section Quiet

/-- No vote is cast and no time is running. -/
def NoVotes (game : Game13) : Prop :=
  game.startVoteTime = 0 ∧ ∀ info ∈ game.players, info.vote = .none

/-- Outside a vote there are no votes. -/
def Quiet (game : Game13) : Prop := game.status ≠ .vote → NoVotes game

variable {w w' : World} {game game' : Game13}

theorem NoVotes.of_votes (h : NoVotes game) (htime : game'.startVoteTime = game.startVoteTime)
    (hvotes : game'.players.map (·.vote) = game.players.map (·.vote)) : NoVotes game' := by
  refine ⟨htime.trans h.1, fun info hinfo => ?_⟩
  have hmem := List.mem_map_of_mem (f := (·.vote)) hinfo
  rw [hvotes] at hmem
  obtain ⟨old, hold, heq⟩ := List.mem_map.mp hmem
  exact heq.symm.trans (h.2 old hold)

theorem NoVotes.of_no_seats (htime : game.startVoteTime = 0) (hplayers : game.players = []) :
    NoVotes game := by
  refine ⟨htime, ?_⟩
  rw [hplayers]
  exact nofun

theorem NoVotes.started (h : NoVotes game) (hstarted : Started game game') : NoVotes game' := by
  refine h.of_votes hstarted.startVoteTime ?_
  have hvotes := congrArg (List.map (·.2.2)) hstarted.seats
  simpa [seatKey, List.map_map, Function.comp_def] using hvotes

theorem NoVotes.updateSeat (h : NoVotes game) (seat : Nat) {f : PlayerInfo → PlayerInfo}
    (hf : ∀ info, (f info).vote = info.vote) : NoVotes (game.updateSeat seat f) :=
  h.of_votes rfl (map_updateSeat hf game seat)

theorem noVotes_voteFailed (game : Game13) : NoVotes (voteFailed game) := by
  refine ⟨rfl, fun info hinfo => ?_⟩
  obtain ⟨old, -, rfl⟩ := List.mem_map.mp hinfo
  rfl

theorem Quiet.move {s s' : World × Game13} (h : Move s s') (hs : Quiet s.2) : Quiet s'.2 := by
  have hquiet : ∀ {status}, s.2.status = status → status ≠ .vote → NoVotes s.2 :=
    fun heq hne => hs (heq ▸ hne)
  intro hstatus
  cases h with
  | speaks _ => exact hs hstatus
  | leaves _ _ _ _ => exact (hs hstatus).updateSeat _ fun _ => rfl
  | dissolves hprepare => exact .of_no_seats (hquiet hprepare (by simp)).1 rfl
  | sponsors _ _ => exact absurd rfl hstatus
  | votes _ _ hvote => exact absurd hvote hstatus
  | fails _ _ => exact noVotes_voteFailed _
  | passes _ _ _ => exact .of_no_seats rfl rfl
  | timesOut _ _ _ => exact .of_no_seats rfl rfl
  | readies _ hprepare _ _ => exact (hquiet hprepare (by simp)).updateSeat _ fun _ => rfl
  | starts hprepare hready hstart =>
      exact (hquiet hprepare (by simp)).started (tryStartRound_started hready hstart)
  | lays _ _ hplay _ _ => exact (hquiet hplay (by simp)).updateSeat _ fun _ => rfl
  | @settles _ _ _ game _ seat hand hplay _ _ _ hstart =>
      have hstored : NoVotes (storeHand game seat hand) :=
        (hquiet hplay (by simp)).updateSeat seat fun _ => rfl
      have hsettled : NoVotes { settled (storeHand game seat hand) with status := .settle } :=
        hstored
      exact hsettled.started (tryStartRound_started rfl hstart)
  | @ends _ _ game seat hand _ hplay _ _ _ =>
      have hstored : NoVotes (storeHand game seat hand) :=
        (hquiet hplay (by simp)).updateSeat seat fun _ => rfl
      exact hstored
  | expires hall => exact .of_no_seats (hquiet hall (by simp)).1 rfl
  | dies hclosed => exact hquiet hclosed (by simp)

theorem Quiet.enterRoom (h : Quiet game) (w : World) (client : ClientPtr) :
    Quiet (enterRoom w game client).2.2 :=
  enterRoom_game w client h fun _ _ _ hstatus => (h hstatus).updateSeat _ fun _ => rfl

def RoomsQuiet (lobby : LobbyState) : Prop :=
  ∀ (k : RoomId) (game : Game13), lobby.rooms[k]? = some game → Quiet game

theorem RoomsQuiet.act {lobby lobby' : LobbyState} {a : Event} (h : Act lobby a lobby')
    (hquiet : RoomsQuiet lobby) : RoomsQuiet lobby' := by
  have hopened : ∀ rcv client, Quiet (opened lobby rcv client) := fun _ _ _ =>
    ⟨rfl, fun info hinfo => by rw [List.eq_of_mem_replicate hinfo]⟩
  exact games_of_act h hopened (fun w _ client hgame => hgame.enterRoom w client)
    (fun _ _ => Quiet.move) hquiet

end Quiet

section Outcomes

/-- What comes of a ballot, from the seats with the vote in. -/
inductive Counted (game : Game13) : Game13 → Prop
  | waits : Counted game game
  | fails : Counted game (voteFailed game)
  | passes {game' : Game13} : (∀ info ∈ game.players, info.vote = .aye) →
      game'.status = .closed → Counted game game'

variable {w w' : World} {game game' : Game13}

theorem checkAllVotes_counted (w : World) (hvote : game.status = .vote) :
    Counted game (checkAllVotes w game).2 := by
  rw [checkAllVotes, if_neg (by simp [hvote])]
  dsimp only
  split_ifs with hopponent hayes
  · exact .fails
  · exact .passes (all_aye_of_scanVotes hayes) rfl
  · exact .waits

theorem voteRoom_counted (w : World) (seat : Nat) (vote : Vote) (hvote : game.status = .vote) :
    Counted (game.updateSeat seat fun info => { info with vote := vote })
      (voteRoom w game seat vote).2 := by
  unfold voteRoom
  dsimp only
  split_ifs
  · exact .waits
  · exact checkAllVotes_counted w hvote

theorem voteRoom_nay (w : World) {seat : Nat} (hvote : game.status = .vote)
    (hseat : seat < game.players.length) (hcuids : ∀ info ∈ game.players, info.cuid ≠ 0) :
    ∃ failed, (voteRoom w game seat .nay).2 = voteFailed failed := by
  have hupdated : ∀ info ∈ (game.updateSeat seat fun info => { info with vote := .nay }).players,
      info.cuid ≠ 0 := by
    intro info hinfo
    rcases mem_updateSeat hinfo with hold | ⟨old, hold, rfl⟩
    · exact hcuids info hold
    · exact hcuids old (List.mem_of_getElem? hold)
  have hnay : ∃ info ∈ (game.updateSeat seat fun info => { info with vote := .nay }).players,
      info.vote = .nay := by
    refine ⟨{ game.players[seat] with vote := .nay }, List.mem_iff_getElem?.mpr ⟨seat, ?_⟩, rfl⟩
    simp [Game13.updateSeat, hseat]
  exact ⟨_, checkAllVotes_fails hvote (opponent_of_nay hupdated hnay)⟩

theorem tryStartRound_status (h : tryStartRound w game = .ok (w', game')) :
    game'.status = .play ∨ game'.status = game.status := by
  by_cases hready : everyoneReady w game = true
  · exact Or.inl (tryStartRound_started hready h).status
  · rw [tryStartRound, if_neg hready] at h
    cases h
    exact Or.inr rfl

theorem readyFlagRoom_status {seat : Nat} {newStatus : PlayerStatus}
    (h : readyFlagRoom w game seat newStatus = .ok (w', game')) :
    game'.status = .play ∨ game'.status = game.status := by
  simp only [readyFlagRoom] at h
  split_ifs at h
  · have hstatus := tryStartRound_status h
    exact hstatus
  · cases h
    exact Or.inr rfl

theorem bringOutRoom_status {seat : Nat} {hand : Hand} (hplay : game.status = .play)
    (h : bringOutRoom w game seat hand = .ok (w', game')) :
    game'.status = .play ∨ game'.status = .settleAll := by
  obtain ⟨⟨w₁, game₁⟩, hsettle, h⟩ := bind_eq_ok.mp h
  have hplay' : (storeHand game seat hand).status = .play := hplay
  cases hall : everyoneCompare (storeHand game seat hand) with
  | false =>
      rw [trySettleGame_waits hplay' hall] at hsettle
      cases hsettle
      dsimp only at h
      rw [if_neg (by simp [hplay'])] at h
      cases h
      exact Or.inl hplay
  | true =>
      obtain ⟨-, -, -, ⟨-, rfl⟩ | ⟨-, rfl⟩⟩ := trySettleGame_settles hplay' hall hsettle
      · dsimp only at h
        rw [if_pos rfl] at h
        exact Or.inl (tryStartRound_started rfl h).status
      · dsimp only at h
        rw [if_neg (by simp)] at h
        cases h
        exact Or.inr rfl

theorem enterRoom_status (w : World) (game : Game13) (client : ClientPtr) :
    (enterRoom w game client).2.2.status = game.status :=
  enterRoom_game (P := fun game' => game'.status = game.status) w client rfl fun _ _ _ => rfl

theorem enterRoom_of_inRound (w : World) (client : ClientPtr) (hround : InRound game) :
    (enterRoom w game client).2.2 = game :=
  enterRoom_game (P := fun game' => game' = game) w client rfl fun _ hprepare _ =>
    absurd hprepare hround.ne_prepare

theorem giveUpRoom_status (w : World) (client : ClientPtr) (seat : Nat) (hidle : ¬ InRound game) :
    (giveUpRoom w game client seat).2.status ≠ .vote := by
  have hremoved : (removePlayer w game client).2.status = game.status := by
    unfold removePlayer
    cases game.getPlayerInfoByCuid (w.client client).cuid with
    | none => rfl
    | some index => rfl
  unfold giveUpRoom
  cases hstatus : game.status with
  | prepare =>
      dsimp only
      split_ifs
      · simp [abortGame, destroyLater]
      · simp [hremoved, hstatus]
  | play | vote => simp [InRound, hstatus] at hidle
  | settle => simp [hstatus]
  | settleAll | closed => simp [hremoved, hstatus]

end Outcomes

section Sessions

variable {lobby lobby' : LobbyState} {a : Event} {k : RoomId} {game : Game13}

theorem ballot_giveUp {ccid : Ccid} {client : ClientPtr} {seat : Nat}
    (hsender : Sender lobby.world ccid k client) (hgame : lobby.rooms[k]? = some game)
    (hzero : k ≠ 0) (hseat : game.getPlayerInfoByCuid (lobby.world.client client).cuid = some seat)
    (hround : InRound game) : ballot lobby (.giveUp ccid) = some (k, seat, .aye) := by
  have hvoter := voter_eq_some.mpr ⟨client, hsender, hgame, hseat⟩
  simp only [ballot, hvoter, Option.bind_some]
  exact if_pos ⟨hzero, hround⟩

theorem ballot_voteFoAbortGame {ccid : Ccid} {client : ClientPtr} {seat : Nat} (vote : Vote)
    (hsender : Sender lobby.world ccid k client) (hgame : lobby.rooms[k]? = some game)
    (hseat : game.getPlayerInfoByCuid (lobby.world.client client).cuid = some seat)
    (hvote : game.status = .vote) :
    ballot lobby (.voteFoAbortGame ccid vote) = some (k, seat, vote) := by
  have hvoter := voter_eq_some.mpr ⟨client, hsender, hgame, hseat⟩
  simp only [ballot, hvoter, Option.bind_some]
  exact if_pos hvote

theorem voting_of_no_ballot (h : Act lobby a lobby') (hnone : ballot lobby a = none) :
    ∀ (k : RoomId) (game : Game13), lobby'.rooms[k]? = some game → game.status = .vote →
      lobby.rooms[k]? = some game := by
  refine h.rooms ?_ ?_ ?_ fun _ _ hgame _ => hgame
  · intro rcv client hvote
    rw [enterRoom_status] at hvote
    cases hvote
  · intro roomId game w' game' hgame _ hcall hvote'
    cases hcall with
    | jions _ _ =>
        rw [enterRoom_status] at hvote'
        rw [enterRoom_of_inRound _ _ (Or.inr hvote')]
        exact hgame
    | @givesUp _ client seat hsender hzero hseat =>
        by_cases hround : InRound game
        · rw [ballot_giveUp hsender hgame hzero hseat hround] at hnone
          cases hnone
        · exact absurd hvote' (giveUpRoom_status _ client seat hround)
    | votes hsender hvote hseat =>
        rw [ballot_voteFoAbortGame _ hsender hgame hseat hvote] at hnone
        cases hnone
    | readies _ _ hprepare _ hready =>
        rcases readyFlagRoom_status hready with hstatus | hstatus
        · rw [hstatus] at hvote'
          cases hvote'
        · rw [hstatus, hprepare] at hvote'
          cases hvote'
    | brings _ _ hplay _ _ _ hbring =>
        rcases bringOutRoom_status hplay hbring with hstatus | hstatus
        · rw [hstatus] at hvote'
          cases hvote'
        · rw [hstatus] at hvote'
          cases hvote'
  · intro w roomId game w' game' hold _ hexec hvote'
    unfold timerExec at hexec
    cases hstatus : game.status with
    | prepare =>
        simp only [hstatus] at hexec
        rcases tryStartRound_status hexec with hstatus' | hstatus'
        · rw [hstatus'] at hvote'
          cases hvote'
        · rw [hstatus', hstatus] at hvote'
          cases hvote'
    | vote =>
        simp only [hstatus] at hexec
        split_ifs at hexec
        · cases hexec
          cases hvote'
        · cases hexec
          exact hold hvote'
    | settleAll =>
        simp only [hstatus] at hexec
        split_ifs at hexec
        · cases hexec
          cases hvote'
        · cases hexec
          simp [hstatus] at hvote'
    | play | settle | closed =>
        simp only [hstatus] at hexec
        cases hexec
        simp [destroyLater, hstatus] at hvote'

end Sessions

section Safety

/-- The game in a room goes on, if only as one that is over and waits to be left. -/
def GoesOn (lobby : LobbyState) (k : RoomId) : Prop :=
  ∃ game, lobby.rooms[k]? = some game ∧ game.status ≠ .closed

/-- The time for a vote is up. -/
def TimeUp (now : Int) (game : Game13) : Prop :=
  game.status = .vote ∧ MAX_VOTE_DURATION ≤ now - game.startVoteTime

variable {lobby lobby' : LobbyState} {s s' : LobbyState × Sessions} {a : Event} {k : RoomId}
  {game : Game13}

theorem timerExec_inRound {w w' : World} {game' : Game13} (hround : InRound game)
    (h : timerExec w game = .ok (w', game')) : TimeUp w.timerTime game ∨ game' = game := by
  unfold timerExec at h
  rcases hround with hplay | hvote
  · simp only [hplay] at h
    cases h
    exact Or.inr rfl
  · simp only [hvote] at h
    split_ifs at h with htime
    · exact Or.inl ⟨hvote, htime⟩
    · cases h
      exact Or.inr rfl

theorem turns_inRound (h : Relation.ReflTransGen Turn lobby lobby')
    (hgame : lobby.rooms[k]? = some game) (hround : InRound game) (hid : game.id ≠ 0) :
    TimeUp lobby.world.timerTime game ∨ lobby'.rooms[k]? = some game := by
  induction h with
  | refl => exact Or.inr hgame
  | @tail lobby₁ _ hturns hturn ih =>
      rcases ih with htime | hsame
      · exact Or.inl htime
      · cases hturn with
        | @execs roomId game₁ w game' hgame₁ _ hexec =>
            rw [getElem?_setRoom]
            split_ifs with hk
            · rw [← hk, hsame, Option.some.injEq] at hgame₁
              subst hgame₁
              rw [← (sameKeys_turns hturns).timerTime]
              exact (timerExec_inRound hround hexec).imp id (congrArg some)
            · exact Or.inr hsame
        | @erases roomId game₁ hgame₁ hzero =>
            refine Or.inr ?_
            rw [Std.TreeMap.getElem?_erase]
            split_ifs with hk
            · rw [compare_eq_iff_eq.mp hk, hsame, Option.some.injEq] at hgame₁
              exact absurd (hgame₁ ▸ hzero) hid
            · exact hsame

theorem goesOn_of_inRound (hgame : lobby.rooms[k]? = some game) (hround : InRound game) :
    GoesOn lobby k :=
  ⟨game, hgame, hround.ne_closed⟩

theorem goesOn_of_call {game' : Game13} {w' : World} (hnone : ballot lobby a = none)
    (hgame : lobby.rooms[k]? = some game) (hround : InRound game)
    (hcall : RoomCall lobby.world k game a w' game') : game'.status ≠ .closed := by
  cases hcall with
  | jions _ _ =>
      rw [enterRoom_of_inRound _ _ hround]
      exact hround.ne_closed
  | givesUp hsender hzero hseat =>
      rw [ballot_giveUp hsender hgame hzero hseat hround] at hnone
      cases hnone
  | votes hsender hvote hseat =>
      rw [ballot_voteFoAbortGame _ hsender hgame hseat hvote] at hnone
      cases hnone
  | readies _ _ hprepare _ _ => exact absurd hprepare hround.ne_prepare
  | brings _ _ hplay _ _ _ hbring =>
      rcases bringOutRoom_status hplay hbring with hstatus | hstatus <;> simp [hstatus]

theorem goesOn_of_no_ballot (h : Act lobby a lobby') (hnone : ballot lobby a = none)
    (hgame : lobby.rooms[k]? = some game) (hround : InRound game) (hid : game.id ≠ 0) :
    GoesOn lobby' k ∨ ∃ now order, a = .timer now order ∧ TimeUp now game := by
  have hsame := goesOn_of_inRound hgame hround
  cases h with
  | speaks _ _ => exact Or.inl hsame
  | leaves _ _ _ => exact Or.inl hsame
  | draws _ => exact Or.inl hsame
  | opens _ _ hnew =>
      have hk : k ≠ lobby.getRoomId.1 := by
        rintro rfl
        exact hnew (Std.TreeMap.mem_iff_isSome_getElem?.mpr (by simp [hgame]))
      apply Or.inl
      apply goesOn_of_inRound _ hround
      rw [getElem?_setRoom, if_neg hk]
      exact hgame
  | @calls _ roomId game₁ w game' hgame₁ hcall =>
      refine Or.inl ?_
      by_cases hk : k = roomId
      · subst hk
        cases hgame.symm.trans hgame₁
        refine ⟨game', ?_, goesOn_of_call hnone hgame hround hcall⟩
        rw [getElem?_setRoom, if_pos rfl]
      · refine goesOn_of_inRound ?_ hround
        rw [getElem?_setRoom, if_neg hk]
        exact hgame
  | registers _ _ => exact Or.inl hsame
  | relogins _ _ => exact Or.inl hsame
  | forgets _ _ _ => exact Or.inl hsame
  | @ticks now order _ hturns =>
      rcases turns_inRound hturns hgame hround hid with htime | hsame'
      · exact Or.inr ⟨now, order, rfl, htime⟩
      · exact Or.inl (goesOn_of_inRound hsame' hround)

/-- The votes in a room are those of the current session, which began when the room says
it did. -/
structure Agrees (session : Session) (game : Game13) : Prop where
  began : game.startVoteTime = session.began
  votes : ∀ (seat : Nat) (info : PlayerInfo), game.players[seat]? = some info →
    info.vote = session.latest seat

/-- No vote of an earlier session is left in any room, and none that is not noted down. -/
structure VotesInOrder (s : LobbyState × Sessions) : Prop where
  outside : ∀ (k : RoomId) (game : Game13), s.1.rooms[k]? = some game →
    game.status ≠ .vote → NoVotes game
  inside : ∀ (k : RoomId) (game : Game13), s.1.rooms[k]? = some game →
    game.status = .vote → Agrees (s.2 k) game

theorem agrees_of_noVotes (w : World) (cuid : Cuid) (hvotes : NoVotes game)
    (hstatus : game.status ≠ .vote) :
    Agrees ⟨[], w.timerTime⟩ (polled w game cuid) := by
  rw [polled, if_neg hstatus]
  exact ⟨rfl, fun seat info hinfo => hvotes.2 info (List.mem_of_getElem? hinfo)⟩

theorem Agrees.cast {session : Session} (h : Agrees session game) (seat : Nat) (vote : Vote) :
    Agrees (session.cast seat vote)
      (game.updateSeat seat fun info => { info with vote := vote }) := by
  refine ⟨h.began, fun k info hinfo => ?_⟩
  rw [Session.latest_cast]
  rw [updateSeat, List.getElem?_modify, Option.map_eq_map, Option.map_eq_some_iff] at hinfo
  obtain ⟨old, hold, heq⟩ := hinfo
  split_ifs at heq with hk
  · rw [if_pos hk.symm, ← heq]
  · rw [if_neg (Ne.symm hk), ← heq]
    exact h.votes k old hold

theorem agrees_cast (hinv : VotesInOrder s) {seat : Nat} {vote : Vote}
    (hballot : ballot s.1 a = some (k, seat, vote)) (hgame : s.1.rooms[k]? = some game)
    (cuid : Cuid) (hnotes : s'.2 = noteBallots s.1 a s'.1 s.2) :
    Agrees (s'.2 k) ((polled s.1.world game cuid).updateSeat seat
      fun info => { info with vote := vote }) := by
  rw [hnotes, noteBallots_cast hballot]
  refine Agrees.cast ?_ seat vote
  by_cases hvote : game.status = .vote
  · rw [if_pos ((voting_of_room hgame).mpr hvote), polled, if_pos hvote]
    exact hinv.inside k game hgame hvote
  · have hnot : ¬ voting s.1 k = true := fun h => hvote ((voting_of_room hgame).mp h)
    rw [if_neg hnot]
    exact agrees_of_noVotes _ cuid (hinv.outside k game hgame hvote) hvote

theorem VotesInOrder.step (hinv : VotesInOrder s) (hstep : votedLobby.step s a = .ok s') :
    VotesInOrder s' := by
  obtain ⟨hlobby, hnotes⟩ := System.chronicle_step.mp hstep
  have hact : Act s.1 a s'.1 := step_act hlobby
  refine ⟨RoomsQuiet.act hact hinv.outside, fun k game' hgame' hvote' => ?_⟩
  have hunchanged : s.1.rooms[k]? = some game' → noteBallots s.1 a s'.1 s.2 k = s.2 k →
      Agrees (s'.2 k) game' := by
    intro hsame hnote
    rw [hnotes, hnote]
    exact hinv.inside k game' hsame hvote'
  cases hballot : ballot s.1 a with
  | none =>
      have hsame := voting_of_no_ballot hact hballot k game' hgame' hvote'
      exact hunchanged hsame (noteBallots_none hballot _ ((voting_of_room hsame).mpr hvote'))
  | some cast =>
      obtain ⟨roomId, seat, vote⟩ := cast
      obtain ⟨game, client, hgame, hround, -, heq⟩ := step_of_ballot hballot hlobby
      rw [heq, getElem?_setRoom] at hgame'
      split_ifs at hgame' with hk
      · subst hk
        have hcounted := voteRoom_counted s.1.world seat vote
          (polled_status s.1.world game (s.1.world.client client).cuid)
        have hagrees := agrees_cast hinv hballot hgame (s.1.world.client client).cuid hnotes
        cases hgame'
        generalize (voteRoom s.1.world _ seat vote).2 = game' at hcounted hvote' ⊢
        cases hcounted with
        | waits => exact hagrees
        | fails => cases hvote'
        | passes _ hclosed =>
            rw [hclosed] at hvote'
            cases hvote'
      · refine hunchanged hgame' (noteBallots_other hballot (Ne.symm hk) _ ?_)
        exact (voting_of_room hgame').mpr hvote'

theorem VotesInOrder.reaches (h : votedLobby.Reaches (fun _ _ => True) s) : VotesInOrder s := by
  refine h.invariant ?_ fun s a s' hinv _ _ hstep => hinv.step hstep
  rintro ⟨lobby, sessions⟩ ⟨⟨rg, rfl⟩, -⟩
  constructor
  · intro k game hgame
    simp [LobbyState.start] at hgame
  · intro k game hgame
    simp [LobbyState.start] at hgame

/-- Every seat is in favour, by its latest ballot of the session. -/
def Unanimous (session : Session) (game : Game13) : Prop :=
  ∀ seat < game.players.length, session.ballots.lookup seat = some .aye

/-- A game in a round is ended only with all seats in favour, this ballot included, or by
the timer, long enough after the session began. -/
def AbortsOnlyByVote (s : LobbyState × Sessions) (a : Event) (s' : LobbyState × Sessions) :
    Prop :=
  ∀ (k : RoomId) (game : Game13), s.1.rooms[k]? = some game → InRound game →
    ¬ GoesOn s'.1 k → Unanimous (s'.2 k) game ∨
      ∃ now order, a = .timer now order ∧ game.status = .vote ∧
        MAX_VOTE_DURATION ≤ now - (s'.2 k).began

/-- One vote against takes the room back to play, with no votes. -/
def NayReturnsToPlay (s : LobbyState × Sessions) (a : Event) (s' : LobbyState × Sessions) :
    Prop :=
  ∀ (k : RoomId) (seat : Nat), ballot s.1 a = some (k, seat, .nay) →
    ∃ game', s'.1.rooms[k]? = some game' ∧ game'.status = .play ∧ NoVotes game'

theorem unanimous_of_agrees {session : Session} {game' : Game13} (h : Agrees session game')
    (hlength : game'.players.length = game.players.length)
    (hayes : ∀ info ∈ game'.players, info.vote = .aye) : Unanimous session game := by
  intro seat hseat
  have hlt : seat < game'.players.length := hlength ▸ hseat
  have haye := h.votes seat _ (List.getElem?_eq_getElem hlt)
  rw [hayes _ (List.getElem_mem hlt), Session.latest] at haye
  cases hlookup : session.ballots.lookup seat with
  | none =>
      rw [hlookup] at haye
      cases haye
  | some vote =>
      rw [hlookup] at haye
      exact congrArg some haye.symm

theorem abortsOnlyByVote (hinv : VotesInOrder s) (hplaced : RoomsPlaced s.1)
    (hstep : votedLobby.step s a = .ok s') : AbortsOnlyByVote s a s' := by
  obtain ⟨hlobby, hnotes⟩ := System.chronicle_step.mp hstep
  intro k game hgame hround hgone
  cases hballot : ballot s.1 a with
  | none =>
      have hid := (hplaced k game hgame).id_ne_zero hround
      rcases goesOn_of_no_ballot (step_act hlobby) hballot hgame hround hid with
        hgoes | ⟨now, order, ha, hvote, htime⟩
      · exact absurd hgoes hgone
      · refine Or.inr ⟨now, order, ha, hvote, ?_⟩
        rw [hnotes, noteBallots_none hballot _ ((voting_of_room hgame).mpr hvote),
          ← (hinv.inside k game hgame hvote).began]
        exact htime
  | some cast =>
      obtain ⟨roomId, seat, vote⟩ := cast
      obtain ⟨game₁, client, hgame₁, -, -, heq⟩ := step_of_ballot hballot hlobby
      have hroom := getElem?_setRoom s.1 roomId
        (voteRoom s.1.world (polled s.1.world game₁ (s.1.world.client client).cuid) seat vote).1
        (voteRoom s.1.world (polled s.1.world game₁ (s.1.world.client client).cuid) seat vote).2 k
      rw [← heq] at hroom
      by_cases hk : k = roomId
      · subst hk
        cases hgame.symm.trans hgame₁
        rw [if_pos rfl] at hroom
        have hcounted := voteRoom_counted s.1.world seat vote
          (polled_status s.1.world game (s.1.world.client client).cuid)
        have hagrees := agrees_cast hinv hballot hgame (s.1.world.client client).cuid hnotes
        generalize (voteRoom s.1.world _ seat vote).2 = game' at hcounted hroom
        cases hcounted with
        | waits =>
            refine absurd ⟨_, hroom, ?_⟩ hgone
            change (polled s.1.world game _).status ≠ .closed
            simp [polled_status]
        | fails => exact absurd ⟨_, hroom, by simp [voteFailed]⟩ hgone
        | passes hayes _ =>
            refine Or.inl (unanimous_of_agrees hagrees ?_ hayes)
            rw [updateSeat, List.length_modify, polled_players]
      · rw [if_neg hk] at hroom
        exact absurd (goesOn_of_inRound (hroom.trans hgame) hround) hgone

theorem nayReturnsToPlay (hbooks : LobbyBooks s.1) (hstep : votedLobby.step s a = .ok s') :
    NayReturnsToPlay s a s' := by
  obtain ⟨hlobby, -⟩ := System.chronicle_step.mp hstep
  intro k seat hballot
  obtain ⟨game, client, hgame, hround, hseat, heq⟩ := step_of_ballot hballot hlobby
  have hcuids : ∀ info ∈ game.players, info.cuid ≠ 0 := fun info hinfo =>
    (((hbooks.rooms k game hgame).inRound hround).engaged info hinfo).1
  have hlt : seat < game.players.length := (List.findIdx?_eq_some_iff_getElem.mp hseat).1
  obtain ⟨failed, hnay⟩ := voteRoom_nay s.1.world
    (polled_status s.1.world game (s.1.world.client client).cuid)
    (by rwa [polled_players]) (by rwa [polled_players])
  refine ⟨voteFailed failed, ?_, rfl, noVotes_voteFailed failed⟩
  rw [heq, getElem?_setRoom, if_pos rfl]
  exact congrArg some hnay

/-- In every run what counts in a vote are the ballots of its own session, a game in a
round is ended early only by all of them or by the time, and one against is enough to
go on playing. -/
theorem vote_safety (h : votedLobby.Reaches (fun _ _ => True) s) :
    VotesInOrder s ∧ ∀ (a : Event) (s' : LobbyState × Sessions), votedLobby.Allowed s a →
      votedLobby.step s a = .ok s' → AbortsOnlyByVote s a s' ∧ NayReturnsToPlay s a s' := by
  have hinv := VotesInOrder.reaches h
  have hlobby : lobbySystem.Reaches (fun _ _ => True) s.1 := by
    apply System.Reaches.of_chronicle
    exact h
  exact ⟨hinv, fun a s' _ hstep =>
    ⟨abortsOnlyByVote hinv (RoomsPlaced.reaches hlobby) hstep,
      nayReturnsToPlay (LobbyBooks.reaches hlobby) hstep⟩⟩

/-- Every run of the lobby has its notes of the votes. -/
theorem reaches_iff_voted {C : LobbyState → Event → Prop} {lobby : LobbyState} :
    lobbySystem.Reaches C lobby ↔
      ∃ sessions, votedLobby.Reaches (fun s a => C s.1 a) (lobby, sessions) := by
  constructor
  · exact System.Reaches.exists_chronicle _ _
  · rintro ⟨sessions, h⟩
    exact System.Reaches.of_chronicle h

/-- The first of two players asks to end the game. -/
def askedToEnd : LobbyState × Sessions :=
  votedLobby.after (LobbyState.start fun _ => stacked (deckOf [strongHand, weakHand]), fun _ => {})
    (gameOf [strongHand, weakHand] ++ [.giveUp 11])

def answered (vote : Vote) : LobbyState × Sessions :=
  votedLobby.after askedToEnd [.voteFoAbortGame 12 vote]

theorem vote_safety_two :
    VotesInOrder askedToEnd ∧
      AbortsOnlyByVote askedToEnd (.voteFoAbortGame 12 .aye) (answered .aye) ∧
        NayReturnsToPlay askedToEnd (.voteFoAbortGame 12 .nay) (answered .nay) := by
  have hreached : votedLobby.Reaches (fun _ _ => True) askedToEnd :=
    .after (.init ⟨⟨_, rfl⟩, rfl⟩) (by decide +kernel)
  have hsafe := vote_safety hreached
  have hstep : ∀ vote, votedLobby.fault askedToEnd (.voteFoAbortGame 12 vote) = none →
      votedLobby.step askedToEnd (.voteFoAbortGame 12 vote) = .ok (answered vote) :=
    fun vote => System.step_eq_after
  have hallowed : ∀ vote, votedLobby.Allowed askedToEnd (.voteFoAbortGame 12 vote) :=
    fun _ => trivial
  exact ⟨hsafe.1, (hsafe.2 _ _ (hallowed .aye) (hstep .aye (by decide +kernel))).1,
    (hsafe.2 _ _ (hallowed .nay) (hstep .nay (by decide +kernel))).2⟩

end Safety

end CasualGame.Lobby.Votes
