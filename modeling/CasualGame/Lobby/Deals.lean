import Mathlib.Data.List.Nodup
import CasualGame.Lobby.AllRounds

/-!
The deal: how many seats a deck serves, and that no card it deals is dealt twice.
-/

namespace CasualGame.Lobby.Deals

open Deck
open Dealing
open Game13
open RoomSteps
open Lib.Run

section Seats

variable {w w' : World} {game : Game13} {index : Nat}

def handsOf (players : List PlayerInfo) : List Card := players.flatMap fun info => info.cards.1

theorem dealSeat_ok (h : index + 13 ≤ w.deck.length) (game : Game13) (info : PlayerInfo) :
    ∃ w' info', dealSeat w game index info = .ok (w', info') := by
  rw [dealSeat, dealHand, dif_pos h]
  cases hclient : w.getByCuid info.cuid with
  | none =>
      simp only [bind, Except.bind, hclient]
      exact ⟨_, _, rfl⟩
  | some client =>
      simp only [bind, Except.bind, hclient]
      exact ⟨_, _, rfl⟩

theorem dealSeat_cards {info info' : PlayerInfo}
    (h : dealSeat w game index info = .ok (w', info')) :
    index + 13 ≤ w.deck.length ∧ info'.cards.1.Perm ((w.deck.drop index).take 13) := by
  obtain ⟨hand, hhand, h⟩ := bind_eq_ok.mp h
  rw [dealHand] at hhand
  split_ifs at hhand with hlen
  cases hhand
  refine ⟨hlen, ?_⟩
  have hsorted := sortHand_perm ⟨(w.deck.drop index).take 13,
    by simp only [List.length_take, List.length_drop]; omega⟩
  cases hclient : w.getByCuid info.cuid with
  | none =>
      simp only [hclient] at h
      cases h
      exact hsorted
  | some client =>
      simp only [hclient] at h
      cases h
      change (chargeFee w game client _).2.cards.1.Perm _
      rw [(chargeFee_spec w game client _).2]
      exact hsorted

theorem dealSeats_ok {infos : List PlayerInfo} (h : index + 13 * infos.length ≤ w.deck.length) :
    ∃ w' infos', dealSeats game w index infos = .ok (w', infos') := by
  induction infos generalizing w index with
  | nil => exact ⟨w, [], rfl⟩
  | cons info infos ih =>
      rw [List.length_cons] at h
      have hfirst : index + 13 ≤ w.deck.length := by omega
      obtain ⟨w₁, info', hseat⟩ := dealSeat_ok hfirst game info
      have hothers : index + 13 + 13 * infos.length ≤ w₁.deck.length := by
        rw [(dealSeat_spec hseat).1.1]
        omega
      obtain ⟨w₂, infos', hrest⟩ := ih hothers
      refine ⟨w₂, info' :: infos', ?_⟩
      simp only [dealSeats, hseat, hrest, bind, Except.bind]
      rfl

theorem dealSeats_cards {infos infos' : List PlayerInfo} (hindex : index ≤ w.deck.length)
    (h : dealSeats game w index infos = .ok (w', infos')) :
    index + 13 * infos.length ≤ w.deck.length ∧
      (handsOf infos').Perm ((w.deck.drop index).take (13 * infos.length)) := by
  induction infos generalizing w index infos' with
  | nil =>
      cases h
      simpa [handsOf] using hindex
  | cons info infos ih =>
      obtain ⟨⟨w₁, info'⟩, hseat, h⟩ := bind_eq_ok.mp h
      obtain ⟨⟨w₂, rest⟩, hrest, h⟩ := bind_eq_ok.mp h
      cases h
      obtain ⟨hlen, hhand⟩ := dealSeat_cards hseat
      have hdeck := (dealSeat_spec hseat).1.1
      obtain ⟨hfits, hhands⟩ := ih (hdeck.symm ▸ hlen) hrest
      rw [hdeck] at hfits hhands
      have hblock : 13 * (infos.length + 1) = 13 + 13 * infos.length := by omega
      have hsplit : (w.deck.drop index).take (13 * (infos.length + 1)) =
          (w.deck.drop index).take 13 ++ (w.deck.drop (index + 13)).take (13 * infos.length) := by
        rw [hblock, List.take_add, List.drop_drop]
      rw [List.length_cons]
      refine ⟨by omega, ?_⟩
      rw [hsplit]
      exact hhand.append hhands

end Seats

section SafeDeals

/-- The start of a round stays inside the deck, deals cards of the deck, each as often
as the deck has it at most, and under `GP_52` no card twice. -/
def DealsSafely (w : World) (game : Game13) : Prop :=
  ∃ w' game', tryStartRound w game = .ok (w', game') ∧
    (handsOf game'.players).Subperm w'.deck ∧
      (game.attr.playType = .gp52 → (handsOf game'.players).Nodup)

/-- There are cards for every seat, in the deck as its initialisation leaves it. -/
def SeatsFitDeck (w : World) (game : Game13) : Prop :=
  match game.attr.playType with
  | .gp52 => 13 * game.players.length ≤ 52
  | .gp65 => 52 ≤ w.deck.length ∧ 13 * game.players.length ≤ w.deck.length

instance (w : World) (game : Game13) : Decidable (SeatsFitDeck w game) := by
  unfold SeatsFitDeck
  exact match game.attr.playType with
    | .gp52 => inferInstanceAs (Decidable (_ ≤ _))
    | .gp65 => inferInstanceAs (Decidable (_ ∧ _))

variable {w w' : World} {game game' : Game13}

theorem tryStartRound_ok_iff (hready : everyoneReady w game = true) :
    tryStartRound w game = .ok (w', game') ↔
      ∃ cards w₁ players, initDeck game.attr.playType w.deck = .ok cards ∧
        dealSeats { game with rounds := game.rounds + 1 }
          { w with deck := (w.rg w.shuffles).run cards, shuffles := w.shuffles + 1 } 0
          game.players = .ok (w₁, players) ∧
        w' = sendToAll w₁ { game with rounds := game.rounds + 1, players := players }
          (playersInRoom { game with rounds := game.rounds + 1, players := players }) ∧
        game' = { game with rounds := game.rounds + 1, players := players, status := .play } := by
  rw [tryStartRound, if_pos hready]
  constructor
  · intro h
    obtain ⟨w₀, hshuffle, h⟩ := bind_eq_ok.mp h
    obtain ⟨cards, hcards, hshuffled⟩ := bind_eq_ok.mp hshuffle
    cases hshuffled
    obtain ⟨⟨w₁, players⟩, hdeal, h⟩ := bind_eq_ok.mp h
    cases h
    exact ⟨cards, w₁, players, hcards, hdeal, rfl, rfl⟩
  · rintro ⟨cards, w₁, players, hcards, hdeal, rfl, rfl⟩
    simp only [shuffleDeck, hcards, hdeal, bind, Except.bind, pure, Except.pure]

theorem length_initDeck_of_fits {cards : List Card}
    (h : initDeck game.attr.playType w.deck = .ok cards) :
    SeatsFitDeck w game ↔ 13 * game.players.length ≤ cards.length := by
  unfold SeatsFitDeck
  cases htype : game.attr.playType with
  | gp52 =>
      rw [htype, initDeck_gp52] at h
      cases h
      rfl
  | gp65 =>
      rw [htype, initDeck_gp65] at h
      split_ifs at h with hlen
      cases h
      have hcards : (List.range' 40 13 ++ List.range' 14 39 ++ w.deck.drop 52).length =
          w.deck.length := by
        simp only [List.length_append, List.length_range', List.length_drop]
        omega
      rw [hcards]
      exact and_iff_right hlen

theorem initDeck_of_fits (h : SeatsFitDeck w game) :
    ∃ cards, initDeck game.attr.playType w.deck = .ok cards := by
  unfold SeatsFitDeck at h
  cases htype : game.attr.playType with
  | gp52 => exact ⟨_, initDeck_gp52 w.deck⟩
  | gp65 =>
      rw [htype] at h
      exact ⟨_, (initDeck_gp65 w.deck).trans (if_pos h.1)⟩

theorem DealsSafely.fits (hready : everyoneReady w game = true) (h : DealsSafely w game) :
    SeatsFitDeck w game := by
  obtain ⟨w', game', hstart, -⟩ := h
  obtain ⟨cards, w₁, players, hcards, hdeal, -, -⟩ := (tryStartRound_ok_iff hready).mp hstart
  have hfits := (dealSeats_cards (Nat.zero_le _) hdeal).1
  rw [Nat.zero_add, ((w.rg w.shuffles).perm cards).length_eq] at hfits
  exact (length_initDeck_of_fits hcards).mpr hfits

theorem dealsSafely_of_fits (hready : everyoneReady w game = true) (h : SeatsFitDeck w game) :
    DealsSafely w game := by
  obtain ⟨cards, hcards⟩ := initDeck_of_fits h
  have hperm := (w.rg w.shuffles).perm cards
  have hlen := (length_initDeck_of_fits hcards).mp h
  rw [← hperm.length_eq, ← Nat.zero_add (13 * game.players.length)] at hlen
  obtain ⟨w₁, players, hdeal⟩ := dealSeats_ok
    (w := { w with deck := (w.rg w.shuffles).run cards, shuffles := w.shuffles + 1 }) hlen
  refine ⟨_, _, (tryStartRound_ok_iff hready).mpr ⟨cards, w₁, players, hcards, hdeal, rfl, rfl⟩, ?_⟩
  have hhands := (dealSeats_cards (Nat.zero_le _) hdeal).2
  have hdeck := (dealSeats_spec hdeal).1.1
  have hsub := hhands.subperm.trans (List.take_sublist _ _).subperm
  rw [List.drop_zero] at hsub hhands
  constructor
  · exact (((talks_sync w₁ _).1.trans hdeck).symm ▸ hsub)
  · intro htype
    rw [htype, initDeck_gp52] at hcards
    cases hcards
    exact hhands.nodup_iff.mpr
      ((hperm.nodup_iff.mpr List.nodup_range').sublist (List.take_sublist _ _))

/-- A round start deals safely exactly when the deck of the play type has thirteen cards
for every seat. -/
theorem dealsSafely_iff (hready : everyoneReady w game = true) :
    DealsSafely w game ↔ SeatsFitDeck w game :=
  ⟨DealsSafely.fits hready, dealsSafely_of_fits hready⟩

def withReady (game : Game13) (seat : Nat) : Game13 :=
  game.updateSeat seat fun info => { info with status := .ready }

/-- Clients `11`, `12`, ... sit in a room of their number, and all but the last are ready. -/
def allButOneReady (size : Nat) : LobbyState :=
  let ccids := (List.range size).map (11 + ·)
  lobbySystem.after (LobbyState.start fun _ => Shuffle.id)
    (ccids.map (fun ccid => .loginQuest ccid (toString ccid) "") ++
      [.createGame 11 ⟨size, 52, 1, 10, 3, false, 1⟩] ++
      ccids.tail.map (fun ccid => .jionGame ccid 100001) ++
      ccids.dropLast.map fun ccid => .readyFlag ccid true)

theorem dealsSafely_iff_four :
    ∃ game, (allButOneReady 4).rooms[100001]? = some game ∧
      (DealsSafely (allButOneReady 4).world (withReady game 3) ↔
        SeatsFitDeck (allButOneReady 4).world (withReady game 3)) := by
  have hroom : ((allButOneReady 4).rooms[100001]?).any fun game =>
      everyoneReady (allButOneReady 4).world (withReady game 3) := by
    decide +kernel
  obtain ⟨game, hgame, hready⟩ := (Option.any_eq_true _ _).mp hroom
  exact ⟨game, hgame, dealsSafely_iff hready⟩

/-- Five seats are let in, and the fifth is dealt cards from behind the deck. -/
theorem five_seats_overrun :
    ¬ ∀ (lobby : LobbyState) (roomId : RoomId) (game : Game13) (seat : Nat),
      lobbySystem.Reaches (fun _ _ => True) lobby → lobby.rooms[roomId]? = some game →
        everyoneReady lobby.world (withReady game seat) = true →
          DealsSafely lobby.world (withReady game seat) := by
  intro hall
  have hreached : lobbySystem.Reaches (fun _ _ => True) (allButOneReady 5) :=
    .after (.init ⟨_, rfl⟩) (by decide +kernel)
  have hroom : ((allButOneReady 5).rooms[100001]?).any fun game =>
      everyoneReady (allButOneReady 5).world (withReady game 4) &&
        ! decide (SeatsFitDeck (allButOneReady 5).world (withReady game 4)) := by
    decide +kernel
  obtain ⟨game, hgame, hover⟩ := (Option.any_eq_true _ _).mp hroom
  simp only [Bool.and_eq_true, Bool.not_eq_true', decide_eq_false_iff_not] at hover
  exact hover.2 ((hall _ _ _ 4 hreached hgame hover.1).fits hover.1)

end SafeDeals

end CasualGame.Lobby.Deals
