import CasualGame.Lobby.LobbySteps

/-!
The hands a round is settled on and the hands that were dealt for it. An observer
notes the hands of every deal; the lobby itself keeps no record of them.
-/

namespace CasualGame.Lobby.PlayedHands

open Deck
open Dealing
open CalcRound
open Settlement
open Game13
open RoomSteps
open LobbySteps
open Lib.Run

abbrev DealtHands := RoomId → List Hand

/-- A round starts when the number of rounds changes, and nothing touches the hands
between the deal and the end of the step. -/
def noteDeals (lobby lobby' : LobbyState) (dealt : DealtHands) : DealtHands := fun roomId =>
  match lobby.rooms[roomId]?, lobby'.rooms[roomId]? with
  | some game, some game' =>
      if game'.rounds ≠ game.rounds then game'.players.map (·.cards) else dealt roomId
  | _, _ => dealt roomId

def watchedLobby : System (LobbyState × DealtHands) Event Fault :=
  lobbySystem.watch (fun _ => []) noteDeals

instance (s : LobbyState × DealtHands) (a : Event) : Decidable (watchedLobby.Allowed s a) :=
  inferInstanceAs (Decidable (s.1.Allowed a))

/-- What a step makes of the rounds it settles: their hands are those dealt, laid out
in any order, and no card fails the assertions of `suit` and `rank`. -/
def PlayedAsDealt (lobby : LobbyState) (dealt : DealtHands) :
    Except Fault LobbyState → Prop
  | .error fault => fault ≠ .assertFailed
  | .ok lobby' => ∀ (roomId : RoomId) (game game' : Game13),
      lobby.rooms[roomId]? = some game → lobby'.rooms[roomId]? = some game' →
        ∀ rsd ∈ game'.settleData.drop game.settleData.length,
          List.Forall₂ (fun cards hand => cards.1.Perm hand.1)
              (rsd.players.map (·.cards)) (dealt roomId) ∧
            ∀ pd ∈ rsd.players, ∀ card ∈ pd.cards.1, InRange card

/-- Whoever brings out thirteen cards brings out the cards its seat holds. -/
def KeepsCards (lobby : LobbyState) : Event → Prop
  | .bringOut ccid cards => ∀ place ∈ seatToPlay lobby ccid, ∀ info ∈ place.1.players[place.2]?,
      cards.length = 13 → (cards.map toCard).Perm info.cards.1
  | _ => True

instance (lobby : LobbyState) (a : Event) : Decidable (KeepsCards lobby a) :=
  match a with
  | .bringOut ccid cards => inferInstanceAs (Decidable (∀ place ∈ seatToPlay lobby ccid,
      ∀ info ∈ place.1.players[place.2]?, cards.length = 13 →
        (cards.map toCard).Perm info.cards.1))
  | .createGame .. | .jionGame .. | .giveUp .. | .voteFoAbortGame .. | .readyFlag ..
  | .timer .. | .sendChat .. | .loginQuest .. => .isTrue trivial

theorem KeepsCards.perm {lobby : LobbyState} {ccid : Ccid} {cards : List Int} {roomId : RoomId}
    {game : Game13} {seat : Nat} {hand : Hand} (h : KeepsCards lobby (.bringOut ccid cards))
    (haccepts : Accepts lobby ccid cards roomId game seat hand) (info : PlayerInfo)
    (hinfo : game.players[seat]? = some info) : hand.1.Perm info.cards.1 := by
  have hlen := congrArg List.length haccepts.hand
  rw [hand.2, List.length_map] at hlen
  rw [haccepts.hand]
  exact h (game, seat) haccepts.seatToPlay info hinfo hlen.symm

section NoAssert

variable {w : World} {game : Game13}

theorem shuffleDeck_noAssert (w : World) (playType : PlayType) :
    shuffleDeck w playType ≠ .error .assertFailed := by
  refine bind_ne_error ?_ fun deck _ => pure_ne_error _ _
  cases playType with
  | gp52 => simp [initDeck_gp52]
  | gp65 =>
      rw [initDeck_gp65]
      split_ifs <;> simp

theorem dealSeats_noAssert (game : Game13) (w : World) (index : Nat) (infos : List PlayerInfo) :
    dealSeats game w index infos ≠ .error .assertFailed := by
  induction infos generalizing w index with
  | nil => simp [dealSeats]
  | cons info infos ih =>
      refine bind_ne_error ?_ fun r _ => bind_ne_error (ih _ _) fun r' _ =>
        pure_ne_error _ _
      refine bind_ne_error ?_ fun cards _ => ?_
      · rw [dealHand]
        split_ifs <;> simp
      · dsimp only
        split <;> exact pure_ne_error _ _

theorem tryStartRound_noAssert (w : World) (game : Game13) :
    tryStartRound w game ≠ .error .assertFailed := by
  unfold tryStartRound
  split_ifs
  · exact bind_ne_error (shuffleDeck_noAssert w _) fun w₁ _ =>
      bind_ne_error (dealSeats_noAssert _ w₁ 0 _) fun r _ => pure_ne_error _ _
  · exact pure_ne_error _ _

theorem int32_noAssert (x : Int) : int32 x ≠ .error .assertFailed := by
  unfold int32
  split_ifs <;> simp

theorem countRound_noAssert (counts : List FinalCount) (pds : List PlayerData) :
    countRound counts pds ≠ .error .assertFailed := by
  induction pds generalizing counts with
  | nil => simp [countRound]
  | cons pd pds ih =>
      cases counts with
      | nil => simp [countRound]
      | cons count counts =>
          refine bind_ne_error ?_ fun c _ => bind_ne_error (ih counts) fun cs _ =>
            pure_ne_error _ _
          exact bind_ne_error (int32_noAssert _) fun _ _ =>
            bind_ne_error (int32_noAssert _) fun _ _ =>
              bind_ne_error (int32_noAssert _) fun _ _ =>
                bind_ne_error (int32_noAssert _) fun _ _ => pure_ne_error _ _

theorem allFinalCount_noAssert (size : Nat) (settleData : List RoundSettleData) :
    allFinalCount size settleData ≠ .error .assertFailed :=
  foldlM_ne_error (f := fun counts rsd => countRound counts (RoundSettleData.players rsd))
    (fun counts _ => countRound_noAssert counts _) settleData _

theorem trySettleGame_noAssert (hrange : HandsInRange game) :
    trySettleGame w game ≠ .error .assertFailed := by
  unfold trySettleGame
  split_ifs
  · exact pure_ne_error _ _
  · exact pure_ne_error _ _
  · rw [calcRound_of_inRange hrange]
    refine bind_ne_error (by simp) fun r _ => ?_
    dsimp only
    split_ifs
    · exact bind_ne_error (allFinalCount_noAssert _ _) fun counts _ => pure_ne_error _ _
    · exact pure_ne_error _ _

theorem bringOutRoom_noAssert {seat : Nat} {hand : Hand}
    (hrange : HandsInRange (LobbyState.storeHand game seat hand)) :
    LobbyState.bringOutRoom w game seat hand ≠ .error .assertFailed := by
  refine bind_ne_error (trySettleGame_noAssert hrange) fun r _ => ?_
  dsimp only
  split_ifs
  · exact tryStartRound_noAssert _ _
  · exact pure_ne_error _ _

theorem timerExec_noAssert (w : World) (game : Game13) :
    timerExec w game ≠ .error .assertFailed := by
  unfold timerExec
  split
  · exact tryStartRound_noAssert w game
  · exact pure_ne_error _ _
  · split_ifs <;> exact pure_ne_error _ _
  · exact pure_ne_error _ _
  · split_ifs <;> exact pure_ne_error _ _
  · exact pure_ne_error _ _

theorem timerExecRooms_noAssert (order : List RoomId) (lobby : LobbyState) :
    LobbyState.timerExecRooms order lobby ≠ .error .assertFailed := by
  induction order generalizing lobby with
  | nil => exact pure_ne_error _ _
  | cons roomId order ih =>
      unfold LobbyState.timerExecRooms
      split
      · exact ih lobby
      · split_ifs
        · exact pure_ne_error _ _
        · exact bind_ne_error (timerExec_noAssert _ _) fun r _ => ih _

theorem step_noAssert {lobby : LobbyState} {a : Event}
    (hrange : ∀ ccid cards roomId game seat hand, a = .bringOut ccid cards →
      Accepts lobby ccid cards roomId game seat hand →
        HandsInRange (LobbyState.storeHand game seat hand)) :
    lobby.step a ≠ .error .assertFailed := by
  cases a with
  | createGame ccid rcv => exact pure_ne_error _ _
  | jionGame ccid roomId => exact pure_ne_error _ _
  | giveUp ccid => exact pure_ne_error _ _
  | voteFoAbortGame ccid vote => exact pure_ne_error _ _
  | sendChat ccid type dataInt dataText => exact pure_ne_error _ _
  | loginQuest ccid openid name => exact pure_ne_error _ _
  | timer now order => exact timerExecRooms_noAssert order _
  | readyFlag ccid ready =>
      show lobby.readyFlag ccid ready ≠ _
      rcases readyFlag_cases lobby ccid ready with
        ⟨w, -, heq⟩ | ⟨roomId, game, seat, newStatus, -, -, heq⟩
      · rw [heq]
        exact pure_ne_error _ _
      · rw [heq]
        refine bind_ne_error ?_ fun r _ => pure_ne_error _ _
        unfold LobbyState.readyFlagRoom
        dsimp only
        split_ifs
        · exact tryStartRound_noAssert _ _
        · exact pure_ne_error _ _
  | bringOut ccid cards =>
      show lobby.bringOut ccid cards ≠ _
      rcases bringOut_cases lobby ccid cards with
        ⟨w, -, heq⟩ | ⟨roomId, game, seat, hand, haccepts, heq⟩
      · rw [heq]
        exact pure_ne_error _ _
      · rw [heq]
        exact bind_ne_error (bringOutRoom_noAssert
          (hrange ccid cards roomId game seat hand rfl haccepts)) fun r _ => pure_ne_error _ _

end NoAssert

section Invariant

/-- The table holds the hands dealt, laid out in any order. -/
def OnTable (game : Game13) (hands : List Hand) : Prop :=
  List.Forall₂ (fun cards hand => cards.1.Perm hand.1) (game.players.map (·.cards)) hands

/-- In every room that is in a round the hands dealt are on the table, and they are
playing cards. -/
structure DealtInv (s : LobbyState × DealtHands) : Prop where
  deck : DeckOk s.1.world.deck
  table : ∀ (roomId : RoomId) (game : Game13), s.1.rooms[roomId]? = some game → InRound game →
    OnTable game (s.2 roomId) ∧ HandsInRange game

variable {game game' : Game13} {hands : List Hand}

theorem OnTable.self (game : Game13) : OnTable game (game.players.map (·.cards)) := by
  unfold OnTable
  rw [List.forall₂_same]
  exact fun cards _ => List.Perm.refl _

theorem OnTable.congr (h : OnTable game hands) (hsame : SameTable game game') :
    OnTable game' hands := by
  rw [OnTable, hsame.hands]
  exact h

theorem handsInRange_congr (h : HandsInRange game) (hsame : SameTable game game') :
    HandsInRange game' := by
  have hall : ∀ cards ∈ game.players.map (·.cards), ∀ card ∈ cards.1, InRange card := by
    simpa [HandsInRange] using h
  rw [← hsame.hands] at hall
  simpa [HandsInRange] using hall

theorem storeHand_seat {seat : Nat} {hand : Hand} {k : Nat} {info : PlayerInfo}
    (h : (LobbyState.storeHand game seat hand).players[k]? = some info)
    (hkeeps : ∀ info, game.players[seat]? = some info → hand.1.Perm info.cards.1) :
    ∃ old, game.players[k]? = some old ∧ info.cards.1.Perm old.cards.1 := by
  simp only [LobbyState.storeHand, updateSeat, List.getElem?_modify] at h
  cases hold : game.players[k]? with
  | none => simp [hold] at h
  | some old =>
      refine ⟨old, rfl, ?_⟩
      by_cases hseat : seat = k
      · subst hseat
        simp only [hold, if_true, Option.map_eq_map, Option.map_some, Option.some.injEq] at h
        exact h ▸ hkeeps old hold
      · simp only [hold, hseat, if_false, Option.map_eq_map, Option.map_some,
          Option.some.injEq] at h
        rw [h]

theorem OnTable.storeHand {seat : Nat} {hand : Hand} (h : OnTable game hands)
    (hkeeps : ∀ info, game.players[seat]? = some info → hand.1.Perm info.cards.1) :
    OnTable (LobbyState.storeHand game seat hand) hands := by
  rw [OnTable, List.forall₂_iff_get] at h ⊢
  refine ⟨by simpa [LobbyState.storeHand, updateSeat] using h.1, fun i hi hi' => ?_⟩
  have hlen : i < (LobbyState.storeHand game seat hand).players.length := by simpa using hi
  obtain ⟨old, hold, hperm⟩ := storeHand_seat (List.getElem?_eq_getElem hlen) hkeeps
  obtain ⟨hlt, rfl⟩ := List.getElem?_eq_some_iff.mp hold
  have hdealt := h.2 i (by simpa using hlt) hi'
  simp only [List.get_eq_getElem, List.getElem_map] at hdealt ⊢
  exact hperm.trans hdealt

theorem handsInRange_storeHand {seat : Nat} {hand : Hand} (h : HandsInRange game)
    (hkeeps : ∀ info, game.players[seat]? = some info → hand.1.Perm info.cards.1) :
    HandsInRange (LobbyState.storeHand game seat hand) := by
  intro info hinfo card hcard
  obtain ⟨k, hk⟩ := List.mem_iff_getElem?.mp hinfo
  obtain ⟨old, hold, hperm⟩ := storeHand_seat hk hkeeps
  exact h old (List.mem_of_getElem? hold) card (hperm.mem_iff.mp hcard)

theorem withCards_cards (game : Game13) :
    (withCards (round game) game.players).players.map (·.cards) = game.players.map (·.cards) := by
  apply List.ext_getElem
  · simp [withCards]
  · intro k hk hk'
    simp [withCards]

theorem inRange_withCards (h : HandsInRange game) :
    ∀ pd ∈ (withCards (round game) game.players).players, ∀ card ∈ pd.cards.1, InRange card := by
  intro pd hpd card hcard
  have hmem : pd.cards ∈ game.players.map (·.cards) :=
    withCards_cards game ▸ List.mem_map_of_mem hpd
  obtain ⟨info, hinfo, heq⟩ := List.mem_map.mp hmem
  exact h info hinfo card (heq ▸ hcard)

theorem eq_round_of_mem_drop {seat : Nat} {hand : Hand} {rsd : RoundSettleData}
    (hbrought : BroughtOut (LobbyState.storeHand game seat hand) game')
    (hrsd : rsd ∈ game'.settleData.drop game.settleData.length) :
    rsd = withCards (round (LobbyState.storeHand game seat hand))
      (LobbyState.storeHand game seat hand).players := by
  have hsheet : rsd ∈ (settled (LobbyState.storeHand game seat hand)).settleData.drop
      game.settleData.length := by
    cases hbrought with
    | waits _ hsame =>
        subst hsame
        simp [LobbyState.storeHand, updateSeat] at hrsd
    | goesOn _ _ _ hdealt => rwa [← hdealt.settleData]
    | ends _ _ _ hsame _ => rwa [← hsame.settleData]
  simpa [settled, LobbyState.storeHand, updateSeat] using hsheet

theorem DealtInv.step {lobby lobby' : LobbyState} {dealt : DealtHands} {a : Event}
    (hinv : DealtInv (lobby, dealt)) (ha : lobby.Allowed a) (hkeeps : KeepsCards lobby a)
    (h : lobby.step a = .ok lobby') : DealtInv (lobby', noteDeals lobby lobby' dealt) := by
  have hspec := step_spec hinv.deck ha h
  refine ⟨hspec.deck, fun roomId game' hgame' hround => ?_⟩
  have hchange := hspec.rooms roomId
  simp only at hgame' ⊢
  rw [hgame'] at hchange
  generalize hold : lobby.rooms[roomId]? = old at hchange
  cases hchange with
  | opens hstatus _ => exact absurd hstatus hround.ne_prepare
  | @moves game _ hmoves =>
      simp only [noteDeals, hold, hgame']
      cases hmoves with
      | idle hsame hstatus =>
          have hin : InRound game := by
            rcases hstatus with heq | ⟨hin, -⟩
            · rwa [InRound, ← heq]
            · exact hin
          obtain ⟨htable, hrange⟩ := hinv.table roomId game hold hin
          rw [if_neg (by simp [hsame.rounds])]
          exact ⟨htable.congr hsame, handsInRange_congr hrange hsame⟩
      | closes hclosed => exact absurd hclosed hround.ne_closed
      | deals _ hdealt =>
          rw [if_pos (by simp [hdealt.rounds])]
          exact ⟨OnTable.self game', hdealt.inRange⟩
  | @brings ccid cards game seat hand _ heq haccepts hbrought =>
      subst heq
      simp only [noteDeals, hold, hgame']
      obtain ⟨htable, hrange⟩ := hinv.table roomId game hold (Or.inl haccepts.play)
      have hkept := KeepsCards.perm hkeeps haccepts
      cases hbrought with
      | waits _ hsame =>
          subst hsame
          rw [if_neg (by simp [LobbyState.storeHand, updateSeat])]
          exact ⟨htable.storeHand hkept, handsInRange_storeHand hrange hkept⟩
      | goesOn _ _ _ hdealt =>
          have hrounds : game'.rounds = game.rounds + 1 := hdealt.rounds
          rw [if_pos (by simp [hrounds])]
          exact ⟨OnTable.self game', hdealt.inRange⟩
      | ends _ _ _ _ hstatus => exact absurd hstatus hround.ne_settleAll

theorem DealtInv.reaches {s : LobbyState × DealtHands}
    (h : watchedLobby.Reaches (fun s a => KeepsCards s.1 a) s) : DealtInv s := by
  refine h.invariant ?_ ?_
  · rintro ⟨lobby, dealt⟩ ⟨⟨rg, rfl⟩, -⟩
    exact ⟨Or.inl rfl, fun roomId game hgame => by simp [LobbyState.start] at hgame⟩
  · rintro ⟨lobby, dealt⟩ a ⟨lobby', dealt'⟩ hinv ha hkeeps hstep
    obtain ⟨hstep, hnote⟩ := System.watch_step.mp hstep
    simp only at hnote
    rw [hnote]
    exact hinv.step ha hkeeps hstep

theorem DealtInv.noAssert {lobby : LobbyState} {dealt : DealtHands} {a : Event}
    (hinv : DealtInv (lobby, dealt)) (hkeeps : KeepsCards lobby a) :
    lobby.step a ≠ .error .assertFailed := by
  apply step_noAssert
  rintro ccid cards roomId game seat hand rfl haccepts
  exact handsInRange_storeHand (hinv.table roomId game haccepts.room (Or.inl haccepts.play)).2
    (KeepsCards.perm hkeeps haccepts)

theorem reaches_iff_watched {C : LobbyState → Event → Prop} {lobby : LobbyState} :
    lobbySystem.Reaches C lobby ↔
      ∃ dealt, watchedLobby.Reaches (fun s a => C s.1 a) (lobby, dealt) := by
  constructor
  · exact System.Reaches.exists_watch _ _
  · rintro ⟨dealt, h⟩
    exact System.Reaches.of_watch h

theorem step_ne_assertFailed {lobby : LobbyState} (h : lobbySystem.Reaches KeepsCards lobby)
    {a : Event} (hkeeps : KeepsCards lobby a) : lobby.step a ≠ .error .assertFailed := by
  obtain ⟨dealt, hwatched⟩ := reaches_iff_watched.mp h
  exact (DealtInv.reaches hwatched).noAssert hkeeps

/-- In every run in which players lay out the cards they hold, each round is settled on
the hands dealt for it and no card fails an assertion. -/
theorem played_as_dealt {s : LobbyState × DealtHands}
    (h : watchedLobby.Reaches (fun s a => KeepsCards s.1 a) s) {a : Event}
    (ha : s.1.Allowed a) (hkeeps : KeepsCards s.1 a) : PlayedAsDealt s.1 s.2 (s.1.step a) := by
  have hinv := DealtInv.reaches h
  obtain ⟨lobby, dealt⟩ := s
  cases hstep : lobby.step a with
  | error fault =>
      rintro rfl
      exact hinv.noAssert hkeeps hstep
  | ok lobby' =>
      intro roomId game game' hgame hgame' rsd hrsd
      have hchange := (step_spec hinv.deck ha hstep).rooms roomId
      simp only at hgame
      rw [hgame, hgame'] at hchange
      cases hchange with
      | moves hmoves => simp [hmoves.settleData] at hrsd
      | @brings ccid cards _ seat hand _ heq haccepts hbrought =>
          subst heq
          obtain ⟨htable, hrange⟩ := hinv.table roomId game hgame (Or.inl haccepts.play)
          have hkept := KeepsCards.perm hkeeps haccepts
          obtain rfl := eq_round_of_mem_drop hbrought hrsd
          refine ⟨?_, inRange_withCards (handsInRange_storeHand hrange hkept)⟩
          rw [withCards_cards]
          exact htable.storeHand hkept

end Invariant

section Runs

/-- Two clients log in and start a game of one round, in which they hold the cards
`1` to `13` and `14` to `26`. -/
def startTwo : List Event :=
  [.loginQuest 11 "a" "A", .loginQuest 12 "b" "B",
    .createGame 11 ⟨2, 52, 1, 10, 3, false, 1⟩, .jionGame 12 100001,
    .readyFlag 11 true, .readyFlag 12 true]

def unshuffled : LobbyState × DealtHands := (LobbyState.start fun _ => Shuffle.id, fun _ => [])

/-- The first player brings out thirteen times the card `0`, the second its hand. -/
theorem cheater_fails_assert :
    ¬ ∀ s : LobbyState × DealtHands, watchedLobby.Reaches (fun _ _ => True) s →
      ∀ a, s.1.Allowed a → PlayedAsDealt s.1 s.2 (s.1.step a) := by
  intro hall
  let events := startTwo ++ [.bringOut 11 (List.replicate 13 0)]
  have hreached : watchedLobby.Reaches (fun _ _ => True) (watchedLobby.after unshuffled events) :=
    .after (.init ⟨⟨_, rfl⟩, rfl⟩) (by decide +kernel)
  have hfault : lobbySystem.fault (watchedLobby.after unshuffled events).1
      (.bringOut 12 ((List.range' 14 13).map (↑))) = some .assertFailed := by
    decide +kernel
  have hstep : (watchedLobby.after unshuffled events).1.step
      (.bringOut 12 ((List.range' 14 13).map (↑))) = .error .assertFailed :=
    System.fault_eq_some.mp hfault
  have hplayed := hall _ hreached (.bringOut 12 ((List.range' 14 13).map (↑))) trivial
  rw [hstep] at hplayed
  exact hplayed rfl

def oneHandOut : LobbyState × DealtHands :=
  watchedLobby.after unshuffled (startTwo ++ [.bringOut 11 ((List.range' 1 13).map (↑))])

theorem played_as_dealt_two :
    PlayedAsDealt oneHandOut.1 oneHandOut.2
      (oneHandOut.1.step (.bringOut 12 ((List.range' 14 13).map (↑)))) := by
  have hreached : watchedLobby.Reaches (fun s a => KeepsCards s.1 a) oneHandOut :=
    .after (.init ⟨⟨_, rfl⟩, rfl⟩) (by decide +kernel)
  have hkeeps : KeepsCards oneHandOut.1 (.bringOut 12 ((List.range' 14 13).map (↑))) := by
    decide +kernel
  exact played_as_dealt hreached trivial hkeeps

end Runs

end CasualGame.Lobby.PlayedHands
