import CasualGame.Lobby.RoomMoves

/-!
The books of a game: how its status, its rounds, its score sheet and the statuses of
its seats hang together between two calls.
-/

namespace CasualGame.Lobby.Bookkeeping

open Deck
open Dealing
open CalcRound
open Settlement
open Game13
open LobbyState
open RoomSteps
open LobbySteps
open AllRounds
open RowScoring
open Lib.Run
open Lib.Writes
open WorldFrames
open Admission
open LobbyActs
open RoomMoves

section Books

def roundCuids (round : RoundSettleData) : List Cuid := round.players.map (·.cuid)

/-- A seat that is in a round has a player, who has its cards to sort or has laid them out. -/
def Engaged (info : PlayerInfo) : Prop :=
  info.cuid ≠ 0 ∧ (info.status = .sort ∨ info.status = .compare)

/-- The books in a round: the rounds before it are on the sheet, and somebody is still
sorting. -/
structure RoundBooks (game : Game13) : Prop where
  sheet : (game.settleData.length : Int) + 1 = game.rounds
  rows : ∀ round ∈ game.settleData, roundCuids round = game.cuids
  engaged : ∀ info ∈ game.players, Engaged info
  sorting : game.players ≠ [] → ∃ info ∈ game.players, info.status = .sort

/-- The books at the end: all rounds are on the sheet, for the players of then. -/
structure FinalBooks (game : Game13) : Prop where
  sheet : (game.settleData.length : Int) = game.rounds
  rows : ∃ cuids : List Cuid, cuids.length = game.players.length ∧
    ∀ round ∈ game.settleData, roundCuids round = cuids

structure Books (game : Game13) : Prop where
  transient : game.status ≠ .settle
  prepare : game.status = .prepare → game.rounds = 0 ∧ game.settleData = []
  inRound : InRound game → RoundBooks game
  settleAll : game.status = .settleAll → FinalBooks game

variable {w w' : World} {game game' : Game13}

theorem Books.of_prepare (h : game.status = .prepare)
    (hsheet : game.rounds = 0 ∧ game.settleData = []) : Books game := by
  refine ⟨by simp [h], fun _ => hsheet, fun hround => ?_, fun hall => ?_⟩
  · rcases hround with hplay | hvote
    · rw [h] at hplay
      cases hplay
    · rw [h] at hvote
      cases hvote
  · rw [h] at hall
    cases hall

theorem Books.of_closed (h : game.status = .closed) : Books game := by
  refine ⟨by simp [h], fun hprepare => ?_, fun hround => ?_, fun hall => ?_⟩
  · rw [h] at hprepare
    cases hprepare
  · rcases hround with hplay | hvote
    · rw [h] at hplay
      cases hplay
    · rw [h] at hvote
      cases hvote
  · rw [h] at hall
    cases hall

theorem Books.of_inRound (hround : InRound game) (h : RoundBooks game) : Books game := by
  refine ⟨hround.ne_settle, fun hprepare => ?_, fun _ => h, fun hall => ?_⟩
  · exact absurd hprepare hround.ne_prepare
  · exact absurd hall hround.ne_settleAll

theorem Books.of_settleAll (h : game.status = .settleAll) (hbooks : FinalBooks game) :
    Books game := by
  refine ⟨by simp [h], fun hprepare => ?_, fun hround => ?_, fun _ => hbooks⟩
  · rw [h] at hprepare
    cases hprepare
  · rcases hround with hplay | hvote
    · rw [h] at hplay
      cases hplay
    · rw [h] at hvote
      cases hvote

theorem RoundBooks.of_seats (h : RoundBooks game) (hrounds : game'.rounds = game.rounds)
    (hsheet : game'.settleData = game.settleData)
    (hseats : game'.players.map (fun info => (info.cuid, info.status)) =
      game.players.map fun info => (info.cuid, info.status)) : RoundBooks game' := by
  have hcuids : game'.cuids = game.cuids := by
    have hmap := congrArg (List.map (·.1)) hseats
    simpa [cuids, List.map_map, Function.comp_def] using hmap
  have hmem : ∀ info' ∈ game'.players, ∃ info ∈ game.players,
      info.cuid = info'.cuid ∧ info.status = info'.status := by
    intro info' hinfo'
    have hkey := List.mem_map_of_mem (f := fun info : PlayerInfo => (info.cuid, info.status)) hinfo'
    rw [hseats] at hkey
    obtain ⟨info, hinfo, heq⟩ := List.mem_map.mp hkey
    exact ⟨info, hinfo, congrArg Prod.fst heq, congrArg Prod.snd heq⟩
  constructor
  · rw [hsheet, hrounds]
    exact h.sheet
  · rw [hsheet, hcuids]
    exact h.rows
  · intro info' hinfo'
    obtain ⟨info, hinfo, hcuid, hstatus⟩ := hmem info' hinfo'
    have hengaged := h.engaged info hinfo
    rwa [Engaged, hcuid, hstatus] at hengaged
  · intro hne
    have hne' : game.players ≠ [] := by
      intro hnil
      rw [hnil] at hseats
      exact hne (List.map_eq_nil_iff.mp hseats)
    obtain ⟨info, hinfo, hsort⟩ := h.sorting hne'
    have hkey := List.mem_map_of_mem (f := fun info : PlayerInfo => (info.cuid, info.status)) hinfo
    rw [← hseats] at hkey
    obtain ⟨info', hinfo', heq⟩ := List.mem_map.mp hkey
    exact ⟨info', hinfo', (congrArg Prod.snd heq).trans hsort⟩

theorem roundCuids_settled (game : Game13) :
    roundCuids (withCards (round game) game.players) = game.cuids := by
  have hround : (round game).players.map (·.cuid) = game.players.map (·.cuid) :=
    round_view game (·.cuid) (fun _ => rfl) fun _ _ => rfl
  rw [roundCuids, withCards_view (·.cuid) (fun _ _ => rfl), hround]
  rfl

theorem engaged_storeHand {game : Game13} (h : ∀ info ∈ game.players, Engaged info) (seat : Nat)
    (hand : Hand) : ∀ info ∈ (storeHand game seat hand).players, Engaged info := by
  intro info hinfo
  rcases mem_updateSeat hinfo with hold | ⟨old, hold, rfl⟩
  · exact h info hold
  · exact ⟨(h old (List.mem_of_getElem? hold)).1, Or.inr rfl⟩

theorem sorting_of_not_everyoneCompare {game : Game13} (h : ∀ info ∈ game.players, Engaged info)
    (hwait : everyoneCompare game = false) : ∃ info ∈ game.players, info.status = .sort := by
  rw [everyoneCompare, List.all_eq_false] at hwait
  obtain ⟨info, hinfo, hnot⟩ := hwait
  obtain ⟨hcuid, hsort | hcompare⟩ := h info hinfo
  · exact ⟨info, hinfo, hsort⟩
  · simp [hcuid, hcompare] at hnot

theorem Books.of_started (h : Started game game')
    (hsheet : (game.settleData.length : Int) = game.rounds)
    (hrows : ∀ round ∈ game.settleData, roundCuids round = game.cuids)
    (hcuids : ∀ cuid ∈ game.cuids, cuid ≠ 0) : Books game' := by
  refine .of_inRound (Or.inl h.status) ⟨?_, ?_, ?_, ?_⟩
  · rw [h.settleData, h.rounds, hsheet]
  · rw [h.settleData, h.cuids]
    exact hrows
  · intro info hinfo
    refine ⟨hcuids _ ?_, Or.inl (h.sort info hinfo)⟩
    rw [← h.cuids]
    exact List.mem_map_of_mem hinfo
  · intro hne
    obtain ⟨info, hinfo⟩ := List.exists_mem_of_ne_nil _ hne
    exact ⟨info, hinfo, h.sort info hinfo⟩

theorem everyoneReady_cuids (hprepare : game.status = .prepare)
    (h : everyoneReady w game = true) : ∀ cuid ∈ game.cuids, cuid ≠ 0 := by
  intro cuid hcuid
  obtain ⟨info, hinfo, rfl⟩ := List.mem_map.mp hcuid
  simp only [everyoneReady, hprepare, List.all_eq_true] at h
  have := h info hinfo
  simp only [Bool.and_eq_true, decide_eq_true_eq] at this
  exact this.1.1

theorem everyoneCompare_cuids (h : everyoneCompare game = true) :
    ∀ cuid ∈ game.cuids, cuid ≠ 0 := by
  intro cuid hcuid
  obtain ⟨info, hinfo, rfl⟩ := List.mem_map.mp hcuid
  rw [everyoneCompare, List.all_eq_true] at h
  have := h info hinfo
  simp only [Bool.and_eq_true, decide_eq_true_eq] at this
  exact this.1

end Books

section Moves

variable {w w' : World} {game game' : Game13}

theorem FinalBooks.of_length (h : FinalBooks game) (hlength : game'.players.length =
    game.players.length) (hrounds : game'.rounds = game.rounds)
    (hsheet : game'.settleData = game.settleData) : FinalBooks game' := by
  obtain ⟨hlen, cuids, hcuids, hrows⟩ := h
  refine ⟨by rw [hsheet, hrounds, hlen], cuids, by rw [hlength, hcuids], ?_⟩
  rw [hsheet]
  exact hrows

theorem Books.of_idle (h : Books game) (hidle : ¬ InRound game)
    (hstatus : game'.status = game.status) (hlength : game'.players.length = game.players.length)
    (hrounds : game'.rounds = game.rounds) (hsheet : game'.settleData = game.settleData) :
    Books game' := by
  refine ⟨hstatus ▸ h.transient, fun hprepare => ?_, fun hround => ?_, fun hall => ?_⟩
  · rw [hrounds, hsheet]
    exact h.prepare (hstatus ▸ hprepare)
  · rw [InRound, hstatus] at hround
    exact absurd hround hidle
  · exact (h.settleAll (hstatus ▸ hall)).of_length hlength hrounds hsheet

theorem Books.move {s s' : World × Game13} (h : Move s s') (hbooks : Books s.2) : Books s'.2 := by
  cases h with
  | speaks _ => exact hbooks
  | @leaves _ _ _ _ _ seat _ hidle _ _ =>
      exact hbooks.of_idle hidle rfl (List.length_modify ..) rfl rfl
  | dissolves _ => exact .of_closed rfl
  | sponsors _ hplay =>
      exact .of_inRound (Or.inr rfl) ((hbooks.inRound (Or.inl hplay)).of_seats rfl rfl rfl)
  | votes seat vote hvote =>
      refine .of_inRound (Or.inr hvote) ((hbooks.inRound (Or.inr hvote)).of_seats rfl rfl ?_)
      exact map_updateSeat (f := fun info => { info with vote := vote }) (fun _ => rfl) _ seat
  | fails hvote _ =>
      refine .of_inRound (Or.inl rfl) ((hbooks.inRound (Or.inr hvote)).of_seats rfl rfl ?_)
      simp [voteFailed, resetVotes]
  | passes _ _ _ => exact .of_closed rfl
  | timesOut _ _ _ => exact .of_closed rfl
  | readies _ hprepare _ _ => exact .of_prepare hprepare (hbooks.prepare hprepare)
  | starts hprepare hready hstart =>
      obtain ⟨hrounds, hsheet⟩ := hbooks.prepare hprepare
      refine .of_started (tryStartRound_started hready hstart) ?_ ?_
        (everyoneReady_cuids hprepare hready)
      · rw [hsheet, hrounds]
        rfl
      · rw [hsheet]
        simp
  | lays seat hand hplay hwait _ =>
      obtain ⟨hsheet, hrows, hengaged, -⟩ := hbooks.inRound (Or.inl hplay)
      refine .of_inRound (Or.inl hplay)
        ⟨hsheet, ?_, engaged_storeHand hengaged seat hand, fun _ => ?_⟩
      · rw [cuids_storeHand]
        exact hrows
      · exact sorting_of_not_everyoneCompare (engaged_storeHand hengaged seat hand) hwait
  | @settles _ w₁ _ game game' seat hand hplay hall hrounds _ hstart =>
      obtain ⟨hsheet, hrows, -, -⟩ := hbooks.inRound (Or.inl hplay)
      have hready : everyoneReady w₁
          { settled (storeHand game seat hand) with status := .settle } = true := rfl
      refine .of_started (tryStartRound_started hready hstart) ?_ ?_ (everyoneCompare_cuids hall)
      · change ((game.settleData ++ [_]).length : Int) = game.rounds
        rw [List.length_append, ← hsheet]
        rfl
      · intro r hr
        rcases List.mem_append.mp hr with hr | hr
        · exact (hrows r hr).trans (cuids_storeHand game seat hand).symm
        · rw [List.mem_singleton.mp hr]
          exact roundCuids_settled (storeHand game seat hand)
  | @ends _ _ game seat hand _ hplay hall hrounds _ =>
      obtain ⟨hsheet, hrows, -, -⟩ := hbooks.inRound (Or.inl hplay)
      refine .of_settleAll rfl ⟨?_, game.cuids, ?_, ?_⟩
      · change ((game.settleData ++ [_]).length : Int) = game.rounds
        rw [List.length_append, ← hsheet]
        rfl
      · rw [← cuids_storeHand game seat hand]
        exact List.length_map ..
      · intro r hr
        rcases List.mem_append.mp hr with hr | hr
        · exact hrows r hr
        · rw [List.mem_singleton.mp hr, ← cuids_storeHand game seat hand]
          exact roundCuids_settled (storeHand game seat hand)
  | expires _ => exact .of_closed rfl
  | dies hclosed => exact .of_closed hclosed

theorem Books.enterRoom (h : Books game) (w : World) (client : ClientPtr) :
    Books (enterRoom w game client).2.2 :=
  enterRoom_game w client h fun _ hprepare _ => .of_prepare hprepare (h.prepare hprepare)

theorem Books.act {lobby lobby' : LobbyState} {a : Event} (h : Act lobby a lobby')
    (hbooks : ∀ (k : RoomId) (game : Game13), lobby.rooms[k]? = some game → Books game) :
    ∀ (k : RoomId) (game : Game13), lobby'.rooms[k]? = some game → Books game :=
  games_of_act h (fun _ _ => .of_prepare rfl ⟨rfl, rfl⟩)
    (fun w _ client hgame => hgame.enterRoom w client) (fun _ _ => Books.move) hbooks

end Moves

section Order

variable {lobby lobby' : LobbyState} {a : Event} {game game' : Game13}

/-- What the status of a game says about its rounds, its sheet and its seats. -/
structure InOrder (game : Game13) : Prop where
  transient : game.status ≠ .settle
  prepare : game.status = .prepare → game.rounds = 0 ∧ game.settleData.length = 0
  inRound : InRound game → (game.settleData.length : Int) = game.rounds - 1
  settleAll : game.status = .settleAll → (game.settleData.length : Int) = game.rounds
  rows : InRound game ∨ game.status = .settleAll → ∀ round ∈ game.settleData,
    round.players.length = game.players.length ∧
      ∀ round' ∈ game.settleData, roundCuids round' = roundCuids round
  sorting : InRound game → game.players ≠ [] → ∃ info ∈ game.players, info.status = .sort

theorem Books.inOrder (h : Books game) : InOrder game := by
  refine ⟨h.transient, fun hprepare => ?_, fun hround => ?_, fun hall => (h.settleAll hall).sheet,
    ?_, fun hround => (h.inRound hround).sorting⟩
  · obtain ⟨hrounds, hsheet⟩ := h.prepare hprepare
    exact ⟨hrounds, by rw [hsheet]; rfl⟩
  · have hsheet := (h.inRound hround).sheet
    omega
  · have hlength : ∀ round : RoundSettleData, round.players.length = (roundCuids round).length :=
      fun round => (List.length_map ..).symm
    rintro (hround | hall) round hmem
    · have hrows := (h.inRound hround).rows
      refine ⟨?_, fun round' hmem' => (hrows round' hmem').trans (hrows round hmem).symm⟩
      rw [hlength, hrows round hmem]
      exact List.length_map ..
    · obtain ⟨-, cuids, hcuids, hrows⟩ := h.settleAll hall
      refine ⟨?_, fun round' hmem' => (hrows round' hmem').trans (hrows round hmem).symm⟩
      rw [hlength, hrows round hmem, hcuids]

/-- A round goes on the score sheet. -/
def Settles (game game' : Game13) : Prop :=
  ∃ round, game'.settleData = game.settleData ++ [round]

/-- In a step a game comes to its end exactly when a round is settled and it was the
last, whatever the step is. -/
def EndsByLastRound (lobby lobby' : LobbyState) : Prop :=
  ∀ (k : RoomId) (game' : Game13), lobby'.rooms[k]? = some game' →
    ((∀ game, lobby.rooms[k]? = some game → game.status ≠ .settleAll) ∧
        game'.status = .settleAll ↔
      ∃ game, lobby.rooms[k]? = some game ∧ Settles game game' ∧ game.attr.rounds ≤ game.rounds)

theorem not_settles_of_eq (h : game'.settleData = game.settleData) : ¬ Settles game game' := by
  rintro ⟨round, hround⟩
  have hlength := congrArg List.length (h.symm.trans hround)
  simp at hlength

theorem endsByLastRound (hdeck : DeckOk lobby.world.deck) (ha : lobby.Allowed a)
    (hstep : lobby.step a = .ok lobby') : EndsByLastRound lobby lobby' := by
  intro k game' hgame'
  have hroom := (step_spec hdeck ha hstep).rooms k
  rw [hgame'] at hroom
  generalize hold : lobby.rooms[k]? = old at hroom ⊢
  cases hroom with
  | opens hstatus _ =>
      constructor
      · rintro ⟨-, hall⟩
        rw [hstatus] at hall
        cases hall
      · rintro ⟨game, hgame, -⟩
        cases hgame
  | @moves game _ hmoves =>
      constructor
      · rintro ⟨hnot, hall⟩
        cases hmoves with
        | idle _ hstatus =>
            rcases hstatus with hsame | ⟨-, hplay | hvote⟩
            · exact absurd (hsame ▸ hall) (hnot game rfl)
            · rw [hplay] at hall
              cases hall
            · rw [hvote] at hall
              cases hall
        | closes hclosed _ _ =>
            rw [hclosed] at hall
            cases hall
        | deals _ hdealt =>
            rw [hdealt.status] at hall
            cases hall
      · rintro ⟨game₁, hgame₁, hsettles, -⟩
        cases hgame₁
        exact absurd hsettles (not_settles_of_eq hmoves.settleData)
  | @brings ccid cards game seat hand _ _ haccepts hbrought =>
      have hplay := haccepts.play
      cases hbrought with
      | waits _ hsame =>
          subst hsame
          constructor
          · rintro ⟨-, hall⟩
            change game.status = .settleAll at hall
            rw [hplay] at hall
            cases hall
          · rintro ⟨game₁, hgame₁, hsettles, -⟩
            cases hgame₁
            exact absurd hsettles (not_settles_of_eq rfl)
      | goesOn _ _ hrounds hdealt =>
          constructor
          · rintro ⟨-, hall⟩
            rw [hdealt.status] at hall
            cases hall
          · rintro ⟨game₁, hgame₁, -, hlast⟩
            cases hgame₁
            change game.rounds < game.attr.rounds at hrounds
            omega
      | ends _ _ hrounds hsame hall =>
          refine iff_of_true ⟨?_, hall⟩ ⟨game, rfl, ⟨_, hsame.settleData⟩, hrounds⟩
          rintro _ ⟨rfl⟩
          rw [hplay]
          exact nofun

/-- The deck and the books of every room are in order. -/
structure LobbyBooks (lobby : LobbyState) : Prop where
  deck : DeckOk lobby.world.deck
  rooms : ∀ (k : RoomId) (game : Game13), lobby.rooms[k]? = some game → Books game

theorem LobbyBooks.reaches {C : LobbyState → Event → Prop} (h : lobbySystem.Reaches C lobby) :
    LobbyBooks lobby := by
  refine h.invariant ?_ fun lobby a lobby' hinv ha _ hstep => ?_
  · rintro lobby ⟨rg, rfl⟩
    exact ⟨Or.inl rfl, fun k game hgame => by simp [LobbyState.start] at hgame⟩
  · exact ⟨(step_spec hinv.deck ha hstep).deck, Books.act (step_act hstep) hinv.rooms⟩

/-- In every reachable lobby the books of every game are in order, and every step ends a
game exactly when it settles its last round. -/
theorem bookkeeping (h : lobbySystem.Reaches (fun _ _ => True) lobby) :
    (∀ (k : RoomId) (game : Game13), lobby.rooms[k]? = some game → InOrder game) ∧
      ∀ (a : Event) (lobby' : LobbyState), lobby.Allowed a → lobby.step a = .ok lobby' →
        EndsByLastRound lobby lobby' := by
  have hbooks := LobbyBooks.reaches h
  exact ⟨fun k game hgame => (hbooks.rooms k game hgame).inOrder,
    fun a lobby' ha hstep => endsByLastRound hbooks.deck ha hstep⟩

theorem bookkeeping_two :
    (∀ (k : RoomId) (game : Game13),
      (beforeLast [strongHand, weakHand]).rooms[k]? = some game → InOrder game) ∧
        EndsByLastRound (beforeLast [strongHand, weakHand])
          (afterLast [strongHand, weakHand] (layOut 1 weakHand)) := by
  have hreached : lobbySystem.Reaches (fun _ _ => True) (beforeLast [strongHand, weakHand]) :=
    beforeLast_reaches (by decide +kernel)
  have hbooks := bookkeeping hreached
  exact ⟨hbooks.1, hbooks.2 _ _ (allowed_layOut _ _ _) (step_eq_afterLast (by decide +kernel))⟩

end Order

end CasualGame.Lobby.Bookkeeping
