import CasualGame.Lobby.RowScoring

/-! Two seats whose special brands differ in strength. -/

namespace CasualGame.Lobby.SpecialBrands

open Deck
open Rules
open CalcRound
open PairLoop
open Settlement
open Losers
open RowScoring

/-- Seat `i` beats the weaker special brand of seat `j`: it has the prize of its brand
from `j`, `j` has nothing from it, and in a room of two these are the prizes. -/
def SpecialPaid (game : Game13) (rsd : RoundSettleData) (i j : Nat) : Prop :=
  (∃ daQiang, loser rsd i j = some (specialPrize (roundSeat game i).spec, daQiang)) ∧
    loser rsd j i = none ∧
    (game.players.length = 2 →
      prize rsd i = specialPrize (roundSeat game i).spec ∧
        prize rsd j = -specialPrize (roundSeat game i).spec)

variable {game game' : Game13} {rsd : RoundSettleData}

theorem special_entry_own_number (h : calcRound game = .ok (rsd, game')) {i x : Nat}
    (hi : i < game.players.length) (hx : x < game.players.length)
    (hlt : strength (roundSeat game x) < strength (roundSeat game i))
    (hreached : i < x ∧ Reached game.attr (roundSeat game) i x ∨
      x < i ∧ Reached game.attr (roundSeat game) x i) :
    loser rsd i i = some (specialPrize (roundSeat game i).spec, 0) := by
  obtain ⟨-, rfl, -⟩ := calcRound_ok h
  exact (loser_self game i _).mpr ⟨rfl, x, hx, hi, hlt, hreached⟩

/-- No stronger special brand is ever paid by the seat it beats. -/
theorem special_never_paid (h : calcRound game = .ok (rsd, game')) {i j : Nat}
    (hlt : strength (roundSeat game j) < strength (roundSeat game i)) :
    ¬ SpecialPaid game rsd i j := by
  obtain ⟨-, rfl, -⟩ := calcRound_ok h
  rintro ⟨⟨daQiang, he⟩, -, -⟩
  rcases Nat.lt_trichotomy i j with hij | rfl | hji
  · obtain ⟨-, -, hspec, -⟩ := (loser_of_lt game hij _).mp he
    rw [strength, strength, hspec] at hlt
    exact lt_irrefl _ hlt
  · exact lt_irrefl _ hlt
  · rw [loser_of_gt game hji] at he
    cases he

/-- A hand of eights and above (`全大`). -/
def bigHand : Hand := ⟨[13, 26, 25, 12, 51, 37, 23, 8, 11, 24, 50, 9, 7], rfl⟩

theorem bigHand_not_paid :
    ¬ ∀ (game game' : Game13) (rsd : RoundSettleData), calcRound game = .ok (rsd, game') →
      ∀ i j, i < game.players.length → j < game.players.length →
        strength (roundSeat game j) < strength (roundSeat game i) →
        SpecialPaid game rsd i j := by
  intro hall
  have hrun : calcRound (roomOf {} [bigHand, weakHand]) =
      .ok (round (roomOf {} [bigHand, weakHand]), roomOf {} [bigHand, weakHand]) :=
    calcRound_of_inRange (by decide)
  obtain ⟨-, -, hprizes⟩ := hall _ _ _ hrun 0 1 (by decide) (by decide) (by decide +kernel)
  have hpaid : prize (round (roomOf {} [bigHand, weakHand])) 0 ≠
      specialPrize (roundSeat (roomOf {} [bigHand, weakHand]) 0).spec := by
    decide +kernel
  exact hpaid (hprizes rfl).1

theorem special_never_paid_big :
    ¬ SpecialPaid (roomOf {} [bigHand, weakHand]) (round (roomOf {} [bigHand, weakHand])) 0 1 :=
  special_never_paid (calcRound_of_inRange (by decide)) (by decide +kernel)

end CasualGame.Lobby.SpecialBrands
