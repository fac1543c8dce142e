import CasualGame.Lobby.RowScoring

/-! A round moves points between the seats and makes none. -/

namespace CasualGame.Lobby.Conservation

open Deck
open Rules
open CalcRound
open PairLoop
open Settlement
open Losers
open RowScoring

/-- The prizes of a round sum to zero, its losers maps hold seat numbers only, and
the game is as before. -/
theorem calcRound_zero_sum {game game' : Game13} {rsd : RoundSettleData}
    (h : calcRound game = .ok (rsd, game')) :
    (rsd.players.map (·.prize)).sum = 0 ∧
      (∀ data ∈ rsd.players, ∀ loserIndex ∈ data.losers, loserIndex < rsd.players.length) ∧
      game' = game := by
  obtain ⟨-, rfl, rfl⟩ := calcRound_ok h
  refine ⟨sum_prizes_round game', fun data hdata loserIndex hmem => ?_, rfl⟩
  obtain ⟨i, hi⟩ := List.mem_iff_getElem?.mp hdata
  rw [length_round]
  apply lt_of_mem_losersOf game' (i := i)
  rw [losersOf, hi]
  exact hmem

theorem calcRound_zero_sum_three :
    ((round (roomOf {} [strongHand, evenHand, weakHand])).players.map (·.prize)).sum = 0 ∧
      (∀ data ∈ (round (roomOf {} [strongHand, evenHand, weakHand])).players,
        ∀ loserIndex ∈ data.losers,
          loserIndex < (round (roomOf {} [strongHand, evenHand, weakHand])).players.length) ∧
      roomOf {} [strongHand, evenHand, weakHand] = roomOf {} [strongHand, evenHand, weakHand] :=
  calcRound_zero_sum (calcRound_of_inRange (by decide))

section Bound

variable (game : Game13)

theorem transfer_self (i : Nat) : transfer (round game) i i = 0 := sub_self _

theorem transfer_of_spec_ne {i j : Nat} (hij : i < j)
    (hspec : (roundSeat game i).spec ≠ (roundSeat game j).spec) :
    transfer (round game) i j = 0 := by
  rw [transfer, collected_of_gt game hij, sub_zero, collected]
  cases he : loser (round game) i j with
  | none => rfl
  | some e =>
      obtain ⟨-, -, hspec', -⟩ := (loser_of_lt game hij e).mp he
      exact absurd hspec' hspec

theorem abs_transfer_of_lt_le {i j : Nat} (hij : i < j) (hj : j < game.players.length) :
    |transfer (round game) i j| ≤ 66 := by
  by_cases hspec : (roundSeat game i).spec = (roundSeat game j).spec
  · by_cases h : game.attr.daQiang ≠ 0 ∧ Reached game.attr (roundSeat game) i j
    · have hnet := abs_le.mp (abs_crossNet_le (roundSeat game i) (roundSeat game j))
      rw [transfer_of_settled hij hj hspec h.1 h.2, abs_le]
      split_ifs <;> omega
    · rw [transfer_of_unsettled hij h]
      decide
  · rw [transfer_of_spec_ne game hij hspec]
    decide

theorem abs_transfer_le {i j : Nat} (hi : i < game.players.length)
    (hj : j < game.players.length) : |transfer (round game) i j| ≤ 66 := by
  rcases Nat.lt_trichotomy i j with hij | rfl | hji
  · exact abs_transfer_of_lt_le game hij hj
  · rw [transfer_self]
    decide
  · rw [← abs_neg, ← transfer_swap]
    exact abs_transfer_of_lt_le game hji hi

theorem abs_prize_le {k : Nat} (hk : k < game.players.length) :
    |prize (round game) k| ≤ game.players.length * 66 := by
  rw [prize_round game hk]
  calc
    |∑ j ∈ Finset.range game.players.length, transfer (round game) k j| ≤
        ∑ j ∈ Finset.range game.players.length, |transfer (round game) k j| :=
      Finset.abs_sum_le_sum_abs _ _
    _ ≤ ∑ _j ∈ Finset.range game.players.length, 66 :=
      Finset.sum_le_sum fun j hj => abs_transfer_le game hk (Finset.mem_range.mp hj)
    _ = game.players.length * 66 := by simp

end Bound

end CasualGame.Lobby.Conservation
