import CasualGame.Lobby.Seats
import CasualGame.Lobby.Votes

/-!
Whether a player gets out of a room. Who gives up is out at once or asks for a vote, and a vote
that nobody opposes comes to its end. The timer may not get to the room in a tick, but it gets
there in as many ticks as there are rooms.
-/

namespace CasualGame.Lobby.EndOfVote

open Deck
open Dealing
open Game13
open LobbyState
open Lib.Run
open RoomSteps
open RowScoring
open LobbySteps
open AllRounds
open WorldFrames
open Admission
open LobbyActs
open RoomMoves
open Bookkeeping
open Votes
open Seats

section Over

variable {lobby lobby' : LobbyState} {k : RoomId} {game game' : Game13}

theorem not_goesOn : ¬ GoesOn lobby k ↔
    ∀ game, lobby.rooms[k]? = some game → game.status = .closed := by
  constructor
  · intro hover game hgame
    by_contra hstatus
    exact hover ⟨game, hgame, hstatus⟩
  · rintro hclosed ⟨game, hgame, hstatus⟩
    exact hstatus (hclosed game hgame)

theorem not_goesOn_congr (hrooms : lobby'.rooms[k]? = lobby.rooms[k]?) (h : ¬ GoesOn lobby k) :
    ¬ GoesOn lobby' k := by
  rw [not_goesOn, hrooms]
  exact not_goesOn.mp h

theorem not_goesOn_of_closed (hgame : lobby.rooms[k]? = some game)
    (hclosed : game.status = .closed) : ¬ GoesOn lobby k := by
  refine not_goesOn.mpr fun game' hgame' => ?_
  rw [← Option.some.inj (hgame.symm.trans hgame')]
  exact hclosed

/-- The room is as it was, or it is over. -/
def Stands (game : Game13) (k : RoomId) (lobby : LobbyState) : Prop :=
  lobby.rooms[k]? = some game ∨ ¬ GoesOn lobby k

theorem Stands.congr (h : Stands game k lobby) (hrooms : lobby'.rooms[k]? = lobby.rooms[k]?) :
    Stands game k lobby' :=
  h.imp hrooms.trans (not_goesOn_congr hrooms)

theorem roomId_ne_of_over (h : lobbySystem.Reaches SafeSeats lobby) (hover : ¬ GoesOn lobby k)
    (hk : k ≠ 0) {client : ClientPtr} (hknown : Known lobby.world.clients client) :
    (lobby.world.client client).roomId ≠ k := by
  rintro rfl
  obtain ⟨S, U, hseating⟩ := Seated.reaches h
  obtain ⟨seat, ⟨game, hgame, hat⟩, -⟩ := hseating.unique.own client hknown hk
  have hnone := ((hseating.placed _ game hgame).dead (not_goesOn.mp hover game hgame)).2
  rw [Game13.cuids, hnone] at hat
  cases hat

end Over

section Ticks

variable {lobby lobby' : LobbyState} {k : RoomId} {game game' : Game13} {w w' : World}
  {order : List RoomId}

theorem timerExec_vote (hvote : game.status = .vote) (h : timerExec w game = .ok (w', game')) :
    game' = game ∧ ¬ TimeUp w.timerTime game ∨ game'.status = .closed := by
  unfold timerExec at h
  simp only [hvote] at h
  split_ifs at h with htime
  · cases h
    exact Or.inr rfl
  · cases h
    exact Or.inl ⟨rfl, fun hup => htime hup.2⟩

theorem timerExec_closed (hclosed : game.status = .closed)
    (h : timerExec w game = .ok (w', game')) : game'.status = .closed := by
  unfold timerExec at h
  simp only [hclosed] at h
  cases h
  exact hclosed

theorem getElem?_erase_ne {j : RoomId} (hne : k ≠ j) :
    (lobby.rooms.erase j)[k]? = lobby.rooms[k]? := by
  rw [Std.TreeMap.getElem?_erase, if_neg fun hcmp => hne (compare_eq_iff_eq.mp hcmp).symm]

theorem over_turn (hover : ¬ GoesOn lobby k) (hturn : Turn lobby lobby') :
    ¬ GoesOn lobby' k := by
  cases hturn with
  | @execs roomId game w game' hgame _ hexec =>
      rcases eq_or_ne k roomId with rfl | hne
      · have hclosed := not_goesOn.mp hover game hgame
        refine not_goesOn_of_closed ?_ (timerExec_closed hclosed hexec)
        rw [getElem?_setRoom, if_pos rfl]
      · apply not_goesOn_congr _ hover
        rw [getElem?_setRoom, if_neg hne]
  | @erases roomId _ _ _ =>
      rcases eq_or_ne k roomId with rfl | hne
      · refine not_goesOn.mpr fun game' hgame' => ?_
        dsimp only at hgame'
        rw [Std.TreeMap.getElem?_erase_self] at hgame'
        cases hgame'
      · exact not_goesOn_congr (getElem?_erase_ne hne) hover

theorem over_turns (hover : ¬ GoesOn lobby k)
    (hturns : Relation.ReflTransGen Turn lobby lobby') : ¬ GoesOn lobby' k := by
  induction hturns with
  | refl => exact hover
  | tail _ hturn ih => exact over_turn ih hturn

theorem Stands.turn (hvote : game.status = .vote) (hid : game.id ≠ 0) (h : Stands game k lobby)
    (hturn : Turn lobby lobby') : Stands game k lobby' := by
  rcases h with hsame | hover
  · cases hturn with
    | @execs roomId game₁ w game' hgame₁ _ hexec =>
        rcases eq_or_ne k roomId with rfl | hne
        · obtain rfl := Option.some.inj (hsame.symm.trans hgame₁)
          have hgame' : (lobby.setRoom k w game').rooms[k]? = some game' := by
            rw [getElem?_setRoom, if_pos rfl]
          rcases timerExec_vote hvote hexec with ⟨rfl, -⟩ | hclosed
          · exact Or.inl hgame'
          · exact Or.inr (not_goesOn_of_closed hgame' hclosed)
        · left
          rw [getElem?_setRoom, if_neg hne]
          exact hsame
    | @erases roomId game₁ hgame₁ hzero =>
        have hne : k ≠ roomId := by
          rintro rfl
          obtain rfl := Option.some.inj (hsame.symm.trans hgame₁)
          exact hid hzero
        exact Or.inl ((getElem?_erase_ne hne).trans hsame)
  · exact Or.inr (over_turn hover hturn)

theorem Stands.turns (hvote : game.status = .vote) (hid : game.id ≠ 0) (h : Stands game k lobby)
    (hturns : Relation.ReflTransGen Turn lobby lobby') : Stands game k lobby' := by
  induction hturns with
  | refl => exact h
  | tail _ hturn ih => exact ih.turn hvote hid hturn

theorem mem_rooms (hgame : lobby.rooms[k]? = some game) : k ∈ lobby.rooms := by
  rw [Std.TreeMap.mem_iff_isSome_getElem?, hgame]
  rfl

theorem size_pos (hgame : lobby.rooms[k]? = some game) : 0 < lobby.rooms.size := by
  rw [← Std.TreeMap.length_keys]
  exact List.length_pos_of_mem (Std.TreeMap.mem_keys.mpr (mem_rooms hgame))

theorem size_setRoom (hgame : lobby.rooms[k]? = some game) (w : World) (game' : Game13) :
    (lobby.setRoom k w game').rooms.size = lobby.rooms.size := by
  rw [LobbyState.setRoom, Std.TreeMap.size_insert]
  exact if_pos (mem_rooms hgame)

theorem size_erase (hgame : lobby.rooms[k]? = some game) :
    (lobby.rooms.erase k).size + 1 = lobby.rooms.size := by
  have hpos := size_pos hgame
  have hsize : (lobby.rooms.erase k).size = lobby.rooms.size - 1 := by
    rw [Std.TreeMap.size_erase]
    exact if_pos (mem_rooms hgame)
  omega

theorem size_turn (hturn : Turn lobby lobby') : lobby'.rooms.size ≤ lobby.rooms.size := by
  cases hturn with
  | execs hgame _ _ => exact (size_setRoom hgame _ _).le
  | erases hgame _ => exact (size_erase hgame).le.trans' (Nat.le_succ _)

theorem size_turns (hturns : Relation.ReflTransGen Turn lobby lobby') :
    lobby'.rooms.size ≤ lobby.rooms.size := by
  induction hturns with
  | refl => exact Nat.le_refl _
  | tail _ hturn ih => exact (size_turn hturn).trans ih

theorem timerExecRooms_ends (hk : k ∈ order) (hgame : lobby.rooms[k]? = some game)
    (hup : TimeUp lobby.world.timerTime game)
    (h : timerExecRooms order lobby = .ok lobby') :
    lobby'.rooms.size + 1 = lobby.rooms.size ∨ ¬ GoesOn lobby' k := by
  induction order generalizing lobby with
  | nil => cases hk
  | cons roomId order ih =>
      rw [timerExecRooms] at h
      cases hroom : lobby.rooms[roomId]? with
      | none =>
          rw [hroom] at h
          have hne : k ≠ roomId := by
            rintro rfl
            cases hroom.symm.trans hgame
          exact ih (List.mem_of_ne_of_mem hne hk) hgame hup h
      | some game₁ =>
          rw [hroom] at h
          dsimp only at h
          split_ifs at h with hzero
          · obtain rfl := Except.ok.inj h
            exact Or.inl (size_erase hroom)
          · obtain ⟨⟨w, game'⟩, hexec, hrest⟩ := bind_eq_ok.mp h
            rw [← size_setRoom hroom w game']
            rcases eq_or_ne k roomId with rfl | hne
            · obtain rfl := Option.some.inj (hgame.symm.trans hroom)
              have hclosed : game'.status = .closed :=
                (timerExec_vote hup.1 hexec).resolve_left fun hsame => hsame.2 hup
              refine Or.inr (over_turns ?_ (timerExecRooms_turns hrest))
              refine not_goesOn_of_closed ?_ hclosed
              rw [getElem?_setRoom, if_pos rfl]
            · apply ih (List.mem_of_ne_of_mem hne hk) ?_ ?_ hrest
              · rw [getElem?_setRoom, if_neg hne]
                exact hgame
              · have htime := (keeps_timerExec hexec).timerTime
                change TimeUp w.timerTime game
                rw [htime]
                exact hup

end Ticks

section Nays

variable {lobby lobby' : LobbyState} {a : Event} {k : RoomId} {game : Game13} {w : World}
  {seat : Nat} {vote : Vote}

/-- No vote against the end is left on a seat. -/
def NoNays (game : Game13) : Prop := ∀ info ∈ game.players, info.vote ≠ .nay

theorem opponent_of_noNays {infos : List PlayerInfo} (h : ∀ info ∈ infos, info.vote ≠ .nay) :
    (scanVotes infos).2.1 = 0 := by
  induction infos with
  | nil => rfl
  | cons info infos ih =>
      have hrest := ih fun i hi => h i (List.mem_cons_of_mem info hi)
      simp only [scanVotes]
      cases hvote : info.vote with
      | nay => exact absurd hvote (h info List.mem_cons_self)
      | none | aye => exact hrest

theorem NoNays.updateSeat (h : NoNays game) (seat : Nat) (hne : vote ≠ .nay) :
    NoNays (game.updateSeat seat fun info => { info with vote := vote }) := by
  intro info hinfo
  rcases mem_updateSeat hinfo with hold | ⟨old, -, rfl⟩
  · exact h info hold
  · exact hne

theorem voteRoom_goes (w : World) (seat : Nat) (hvote : game.status = .vote) (h : NoNays game)
    (hne : vote ≠ .nay) :
    (voteRoom w game seat vote).2 = (game.updateSeat seat fun info => { info with vote := vote }) ∨
      (voteRoom w game seat vote).2.status = .closed := by
  have hnays := h.updateSeat seat hne
  have hstatus : (game.updateSeat seat fun info => { info with vote := vote }).status = .vote :=
    hvote
  unfold voteRoom
  dsimp only
  split_ifs
  · exact Or.inl rfl
  · rw [checkAllVotes, if_neg (by simp [hstatus])]
    dsimp only
    rw [if_neg (not_not_intro (opponent_of_noNays hnays))]
    split_ifs
    · exact Or.inr rfl
    · exact Or.inl rfl

theorem voteRoom_noNays (hvote : game.status = .vote) (h : NoNays game)
    (hcuids : ∀ info ∈ game.players, info.cuid ≠ 0) (hseat : seat < game.players.length)
    (hstill : (voteRoom w game seat vote).2.status = .vote) :
    NoNays (voteRoom w game seat vote).2 := by
  rcases eq_or_ne vote .nay with rfl | hne
  · obtain ⟨failed, hfailed⟩ := voteRoom_nay w hvote hseat hcuids
    rw [hfailed] at hstill
    cases hstill
  · rcases voteRoom_goes w seat hvote h hne with hsame | hclosed
    · rw [hsame]
      exact h.updateSeat seat hne
    · cases hstill.symm.trans hclosed

theorem NoVotes.noNays (h : NoVotes game) : NoNays game := by
  intro info hinfo
  rw [h.2 info hinfo]
  exact Vote.noConfusion

theorem polled_noNays (h : NoNays game) (w : World) (cuid : Cuid) :
    NoNays (polled w game cuid) := by
  rw [NoNays, polled_players]
  exact h

theorem roomsQuiet_reaches {C : LobbyState → Event → Prop} (h : lobbySystem.Reaches C lobby) :
    RoomsQuiet lobby := by
  refine h.invariant (P := RoomsQuiet) ?_ fun _ _ _ hinv _ _ hstep =>
    RoomsQuiet.act (step_act hstep) hinv
  rintro lobby ⟨rg, rfl⟩ k game hgame
  simp [LobbyState.start] at hgame

theorem noNays_reaches {C : LobbyState → Event → Prop} (h : lobbySystem.Reaches C lobby) :
    ∀ (k : RoomId) (game : Game13), lobby.rooms[k]? = some game → NoNays game := by
  induction h with
  | init hs =>
      obtain ⟨rg, rfl⟩ := hs
      intro k game hgame
      simp [LobbyState.start] at hgame
  | @step lobby a lobby' hreach hallowed hc hstep ih =>
      intro k game' hgame'
      rcases eq_or_ne game'.status .vote with hvote | hstatus
      · cases hballot : ballot lobby a with
        | none =>
            have hbefore := voting_of_no_ballot (step_act hstep) hballot k game' hgame' hvote
            exact ih k game' hbefore
        | some b =>
            obtain ⟨j, seat, vote⟩ := b
            obtain ⟨game, client, hgame, hround, hseat, rfl⟩ := step_of_ballot hballot hstep
            rw [getElem?_setRoom] at hgame'
            split_ifs at hgame' with hk
            · obtain rfl := Option.some.inj hgame'
              have hengaged := (((LobbyBooks.reaches hreach).rooms j game hgame).inRound
                hround).engaged
              have hnays := polled_noNays (ih j game hgame) lobby.world
                (lobby.world.client client).cuid
              apply voteRoom_noNays (polled_status ..) hnays _ _ hvote
              · rw [polled_players]
                exact fun info hinfo => (hengaged info hinfo).1
              · rw [polled_players]
                exact (List.findIdx?_eq_some_iff_getElem.mp hseat).1
            · exact ih k game' hgame'
      · have hquiet := roomsQuiet_reaches (hreach.step hallowed hc hstep)
        exact NoVotes.noNays (hquiet k game' hgame' hstatus)

end Nays

section Waiting

/-- Nobody in the room votes against its end, and the lobby works off what it is told. -/
def Unopposed (k : RoomId) (lobby : LobbyState) (a : Event) : Prop :=
  SafeSeats lobby a ∧ (∀ b ∈ ballot lobby a, b.1 = k → b.2.2 ≠ .nay) ∧
    lobbySystem.fault lobby a = none

instance (k : RoomId) (lobby : LobbyState) (a : Event) : Decidable (Unopposed k lobby a) :=
  inferInstanceAs (Decidable (_ ∧ _ ∧ _))

def isCreateGame : Event → Bool
  | .createGame .. => true
  | _ => false

def isLate (time : Int) : Event → Bool
  | .timer now _ => decide (time ≤ now)
  | _ => false

/-- The room is in a vote for which the time is up at `time`. -/
def Waiting (k : RoomId) (time : Int) (lobby : LobbyState) : Prop :=
  ∃ game, lobby.rooms[k]? = some game ∧ game.status = .vote ∧
    game.startVoteTime + MAX_VOTE_DURATION ≤ time

variable {lobby lobby' : LobbyState} {a : Event} {k : RoomId} {game game' : Game13} {w' : World}
  {time : Int}

theorem same_of_call (hnone : ballot lobby a = none) (hgame : lobby.rooms[k]? = some game)
    (hvote : game.status = .vote) (hcall : RoomCall lobby.world k game a w' game') :
    game' = game := by
  cases hcall with
  | jions _ _ => exact enterRoom_of_inRound _ _ (Or.inr hvote)
  | givesUp hsender hzero hseat =>
      rw [ballot_giveUp hsender hgame hzero hseat (Or.inr hvote)] at hnone
      cases hnone
  | votes hsender hvote hseat =>
      rw [ballot_voteFoAbortGame _ hsender hgame hseat hvote] at hnone
      cases hnone
  | readies _ _ hprepare _ _ => cases hvote.symm.trans hprepare
  | brings _ _ hplay _ _ _ _ => cases hvote.symm.trans hplay

theorem stands_of_no_ballot (h : Act lobby a lobby') (hnone : ballot lobby a = none)
    (hgame : lobby.rooms[k]? = some game) (hvote : game.status = .vote) (hid : game.id ≠ 0) :
    Stands game k lobby' := by
  cases h with
  | speaks _ _ => exact Or.inl hgame
  | leaves _ _ _ => exact Or.inl hgame
  | draws _ => exact Or.inl hgame
  | opens _ _ hnew =>
      have hk : k ≠ lobby.getRoomId.1 := by
        rintro rfl
        exact hnew (mem_rooms hgame)
      left
      rw [getElem?_setRoom, if_neg hk]
      exact hgame
  | @calls _ roomId game₁ w game' hgame₁ hcall =>
      left
      rw [getElem?_setRoom]
      split_ifs with hk
      · subst hk
        obtain rfl := Option.some.inj (hgame.symm.trans hgame₁)
        rw [same_of_call hnone hgame hvote hcall]
      · exact hgame
  | registers _ _ => exact Or.inl hgame
  | relogins _ _ => exact Or.inl hgame
  | forgets _ _ _ => exact Or.inl hgame
  | @ticks now _ _ hturns =>
      have hstands : Stands game k (lobby.setWorld { lobby.world with timerTime := now }) :=
        Or.inl hgame
      exact hstands.turns hvote hid hturns

theorem size_act (h : Act lobby a lobby') :
    lobby'.rooms.size ≤ lobby.rooms.size + if isCreateGame a then 1 else 0 := by
  cases h with
  | opens _ _ _ => exact Std.TreeMap.size_insert_le
  | calls hgame _ => exact (size_setRoom hgame _ _).le.trans (Nat.le_add_right _ _)
  | ticks hturns => exact (size_turns hturns).trans (Nat.le_add_right _ _)
  | _ => exact Nat.le_add_right _ _

theorem not_isLate_of_ballot {b : RoomId × Nat × Vote} (h : ballot lobby a = some b) (time : Int) :
    isLate time a = false := by
  cases a with
  | timer _ _ => cases h
  | _ => rfl

theorem Waiting.step (hreach : lobbySystem.Reaches SafeSeats lobby) (h : Waiting k time lobby)
    (hallowed : lobby.Allowed a) (ha : Unopposed k lobby a) (hstep : lobby.step a = .ok lobby') :
    ¬ GoesOn lobby' k ∨ Waiting k time lobby' ∧
      lobby'.rooms.size + (if isLate time a then 1 else 0) ≤
        lobby.rooms.size + if isCreateGame a then 1 else 0 := by
  obtain ⟨game, hgame, hvote, htime⟩ := h
  have hid : game.id ≠ 0 := (RoomsPlaced.reaches hreach k game hgame).id_ne_zero (Or.inr hvote)
  have hsize := size_act (step_act hstep)
  cases hballot : ballot lobby a with
  | none =>
      rcases stands_of_no_ballot (step_act hstep) hballot hgame hvote hid with hsame | hover
      · cases hlate : isLate time a with
        | false => exact Or.inr ⟨⟨game, hsame, hvote, htime⟩, hsize⟩
        | true =>
            cases a with
            | timer now order =>
                have hnow : time ≤ now := of_decide_eq_true hlate
                have hk : k ∈ order := by
                  rw [List.Perm.mem_iff hallowed, Std.TreeMap.mem_keys]
                  exact mem_rooms hgame
                have hup : TimeUp now game := ⟨hvote, by omega⟩
                have hgame' : (lobby.setWorld
                    { lobby.world with timerTime := now }).rooms[k]? = some game := hgame
                rcases timerExecRooms_ends hk hgame' hup hstep with hfewer | hover
                · exact Or.inr ⟨⟨game, hsame, hvote, htime⟩, hfewer.le⟩
                · exact Or.inl hover
            | _ => cases hlate
      · exact Or.inl hover
  | some b =>
      have hlate := not_isLate_of_ballot hballot time
      rw [hlate]
      have hwaits : ∀ game', lobby'.rooms[k]? = some game' → game'.status = .vote →
          game'.startVoteTime = game.startVoteTime → Waiting k time lobby' :=
        fun game' hgame' hvote' htime' => ⟨game', hgame', hvote', by rwa [htime']⟩
      obtain ⟨j, seat, vote⟩ := b
      obtain ⟨game₁, client, hgame₁, -, -, hlobby⟩ := step_of_ballot hballot hstep
      have hroom := congrArg (fun lobby : LobbyState => lobby.rooms[k]?) hlobby
      rw [getElem?_setRoom] at hroom
      split_ifs at hroom with hk
      · subst hk
        obtain rfl := Option.some.inj (hgame.symm.trans hgame₁)
        have hpolled : polled lobby.world game (lobby.world.client client).cuid = game :=
          if_pos hvote
        rw [hpolled] at hroom
        have hnays := noNays_reaches hreach k game hgame
        rcases voteRoom_goes lobby.world seat hvote hnays (ha.2.1 _ hballot rfl) with
          hgoes | hclosed
        · rw [hgoes] at hroom
          exact Or.inr ⟨hwaits _ hroom hvote rfl, hsize⟩
        · exact Or.inl (not_goesOn_of_closed hroom hclosed)
      · exact Or.inr ⟨hwaits _ (hroom.trans hgame) hvote rfl, hsize⟩

end Waiting

section Runs

variable {lobby : LobbyState} {k : RoomId} {time : Int} {acts : List Event}

theorem ends_or_waits (hreach : lobbySystem.Reaches SafeSeats lobby) (h : Waiting k time lobby)
    (hfits : lobbySystem.Fits (Unopposed k) lobby acts) :
    (∃ n ≤ acts.length, lobbySystem.Reaches SafeSeats (lobbySystem.after lobby (acts.take n)) ∧
      ¬ GoesOn (lobbySystem.after lobby (acts.take n)) k) ∨
    Waiting k time (lobbySystem.after lobby acts) ∧
      (lobbySystem.after lobby acts).rooms.size + acts.countP (isLate time) ≤
        lobby.rooms.size + acts.countP isCreateGame := by
  induction acts generalizing lobby with
  | nil => exact Or.inr ⟨h, Nat.le_refl _⟩
  | cons a acts ih =>
      obtain ⟨hallowed, ha, hrest⟩ := hfits
      have hstep := System.step_eq_after ha.2.2
      generalize lobbySystem.after lobby [a] = lobby' at hstep
      rw [hstep] at hrest
      have hreach' := hreach.step hallowed ha.1 hstep
      have hafter := System.after_cons hstep
      rcases h.step hreach hallowed ha hstep with hover | ⟨hwaits, hsize⟩
      · refine Or.inl ⟨1, Nat.succ_le_succ (Nat.zero_le _), ?_⟩
        rw [List.take_succ_cons, hafter]
        exact ⟨hreach', hover⟩
      · rcases ih hreach' hwaits hrest with ⟨n, hn, hends⟩ | ⟨hwaits', hcount⟩
        · refine Or.inl ⟨n + 1, Nat.succ_le_succ hn, ?_⟩
          rw [List.take_succ_cons, hafter]
          exact hends
        · rw [hafter, List.countP_cons, List.countP_cons]
          exact Or.inr ⟨hwaits', by omega⟩

theorem roomId_removePlayer {w : World} {game : Game13} {client : ClientPtr} {seat : Nat}
    (hseat : game.getPlayerInfoByCuid (w.client client).cuid = some seat) :
    ((removePlayer w game client).1.client client).roomId = 0 := by
  rw [removePlayer]
  simp only [hseat]
  rw [(says_sync _ _).client, roomId_afterLeaveRoom, if_pos rfl]

theorem giveUpRoom_cases {w : World} {game : Game13} {client : ClientPtr} {seat : Nat}
    (hsettle : game.status ≠ .settle) (hnays : NoNays game)
    (hseat : game.getPlayerInfoByCuid (w.client client).cuid = some seat) :
    ((giveUpRoom w game client seat).1.client client).roomId = 0 ∨
      (giveUpRoom w game client seat).2.status = .closed ∨
      (giveUpRoom w game client seat).2.status = .vote := by
  have hvotes : InRound game → (giveUpRoom w game client seat).2.status = .closed ∨
      (giveUpRoom w game client seat).2.status = .vote := by
    intro hround
    rw [giveUpRoom_polls w client seat hround]
    have haye : Vote.aye ≠ .nay := Vote.noConfusion
    rcases voteRoom_goes w seat (polled_status w game (w.client client).cuid)
      (polled_noNays hnays w _) haye with hgoes | hclosed
    · right
      rw [hgoes]
      exact polled_status w game (w.client client).cuid
    · exact Or.inl hclosed
  cases hstatus : game.status with
  | prepare =>
      simp only [giveUpRoom, hstatus]
      split_ifs
      · exact Or.inr (Or.inl rfl)
      · exact Or.inl (roomId_removePlayer hseat)
  | play => exact Or.inr (hvotes (Or.inl hstatus))
  | vote => exact Or.inr (hvotes (Or.inr hstatus))
  | settle => exact absurd hstatus hsettle
  | settleAll | closed =>
      left
      simp only [giveUpRoom, hstatus]
      exact roomId_removePlayer hseat

theorem giveUp_cases {ccid : Ccid} {client : ClientPtr}
    (hreach : lobbySystem.Reaches SafeSeats lobby)
    (hclient : lobby.world.getByCcid ccid = some client)
    (hroom : (lobby.world.client client).roomId ≠ 0) :
    ((lobby.giveUp ccid).world.client client).roomId = 0 ∨
      ∃ game, (lobby.giveUp ccid).rooms[(lobby.world.client client).roomId]? = some game ∧
        (game.status = .closed ∨ game.status = .vote) := by
  obtain ⟨S, U, hseating⟩ := Seated.reaches hreach
  have hmem := hseating.mem_of_known (Or.inr (Or.inr ⟨ccid, hclient⟩))
  have hseated : ¬ Stray lobby client := fun hstray =>
    hroom (hseating.roomless_of_stray hmem hstray)
  cases hgame : lobby.rooms[(lobby.world.client client).roomId]? with
  | none => exact absurd (stray_of_none hgame) hseated
  | some game =>
      cases hseat : game.getPlayerInfoByCuid (lobby.world.client client).cuid with
      | none => exact absurd (stray_of_seatless hgame hseat) hseated
      | some seat =>
          have hlobby : lobby.giveUp ccid = lobby.setRoom (lobby.world.client client).roomId
              (giveUpRoom lobby.world game client seat).1
              (giveUpRoom lobby.world game client seat).2 := by
            simp only [LobbyState.giveUp, hclient, if_neg hroom, hgame, hseat]
          have hbooks := (LobbyBooks.reaches hreach).rooms _ game hgame
          rw [hlobby, getElem?_setRoom, if_pos rfl]
          rcases giveUpRoom_cases hbooks.transient (noNays_reaches hreach _ game hgame) hseat with
            hout | hstatus
          · exact Or.inl hout
          · exact Or.inr ⟨_, rfl, hstatus⟩

/-- Nobody is kept in a room. Who gives up is let out of it, by the time the others have agreed
or the timer has come round after the time for the vote, if only nobody is against it. -/
theorem leaves_of_giveUp (time : Int) {ccid : Ccid} {client : ClientPtr}
    (hreach : lobbySystem.Reaches SafeSeats lobby)
    (hclient : lobby.world.getByCcid ccid = some client)
    (hroom : (lobby.world.client client).roomId ≠ 0)
    (htime : ∀ game ∈ (lobby.giveUp ccid).rooms[(lobby.world.client client).roomId]?,
      game.status = .vote → game.startVoteTime + MAX_VOTE_DURATION ≤ time)
    (hfits : lobbySystem.Fits (Unopposed (lobby.world.client client).roomId) (lobby.giveUp ccid)
      acts)
    (hticks : lobby.rooms.size + acts.countP isCreateGame ≤ acts.countP (isLate time)) :
    ∃ n ≤ acts.length, let lobby' := lobbySystem.after (lobby.giveUp ccid) (acts.take n)
      Known lobby'.world.clients client →
        (lobby'.world.client client).roomId ≠ (lobby.world.client client).roomId := by
  have hallowed : lobbySystem.Allowed lobby (.giveUp ccid) := trivial
  have hstep : lobby.step (.giveUp ccid) = .ok (lobby.giveUp ccid) := rfl
  have hreach' := hreach.step hallowed trivial hstep
  rcases giveUp_cases hreach hclient hroom with hout | ⟨game, hgame, hclosed | hvote⟩
  · refine ⟨0, Nat.zero_le _, fun _ => ?_⟩
    rw [List.take_zero]
    exact fun heq => hroom (heq.symm.trans hout)
  · exact ⟨0, Nat.zero_le _, roomId_ne_of_over hreach' (not_goesOn_of_closed hgame hclosed) hroom⟩
  · have hwaits : Waiting (lobby.world.client client).roomId time (lobby.giveUp ccid) :=
      ⟨game, hgame, hvote, htime game hgame hvote⟩
    rcases ends_or_waits hreach' hwaits hfits with ⟨n, hn, hends, hover⟩ | ⟨hwaits', hcount⟩
    · exact ⟨n, hn, roomId_ne_of_over hends hover hroom⟩
    · obtain ⟨game', hgame', -⟩ := hwaits'
      have hpos := size_pos hgame'
      have hsize : (lobby.giveUp ccid).rooms.size ≤ lobby.rooms.size := size_act (step_act hstep)
      omega

/-- In a game of two, one gives up and the other says nothing. -/
theorem leaves_of_giveUp_two :
    let lobby := beforeLast [strongHand, weakHand]
    let acts : List Event := [.timer 299 [100001], .timer 300 [100001]]
    ∃ n ≤ acts.length, let lobby' := lobbySystem.after (lobby.giveUp 11) (acts.take n)
      Known lobby'.world.clients 0 →
        (lobby'.world.client 0).roomId ≠ (lobby.world.client 0).roomId :=
  leaves_of_giveUp 300 (beforeLast_reaches (by decide +kernel)) (by decide +kernel)
    (by decide +kernel) (by decide +kernel) (by decide +kernel) (by decide +kernel)

end Runs

end CasualGame.Lobby.EndOfVote
