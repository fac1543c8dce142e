import CasualGame.Lobby.Losers

/-!
Two seats with the same special brand, scored by their rows: when what `calcRound`
moves between them is what the rules say one owes the other.
-/

namespace CasualGame.Lobby.RowScoring

open Deck
open Rules
open CalcRound
open PairLoop
open Settlement
open Losers

/-- The comparisons `calcRound` makes pay what the rules pay: all three rows come
out as they should and the later seat does not sweep, or the middle and the tail
row go to different sides for the same bonus while `calcRound` sees a tie. -/
def RowsSettle (P Q : Seat) : Prop :=
  let s := fun d => rowSign (P.dun d) (Q.dun d)
  let c := rowSign (P.dun 1) (Q.dun 2)
  (s 1 = c ∧ s 2 = c ∧ ¬ Sweeps Q P) ∨
    (c = 0 ∧ s 1 = 1 ∧ s 2 = -1 ∧ bonus 1 (P.dun 1).b = bonus 2 (Q.dun 2).b) ∨
    (c = 0 ∧ s 1 = -1 ∧ s 2 = 1 ∧ bonus 1 (Q.dun 1).b = bonus 2 (P.dun 2).b)

instance (P Q : Seat) : Decidable (RowsSettle P Q) :=
  inferInstanceAs (Decidable ((_ ∧ _ ∧ _) ∨ (_ ∧ _ ∧ _ ∧ _) ∨ (_ ∧ _ ∧ _ ∧ _)))

/-- When a pair of seats with one special brand is settled by the rules: the loop
settles it, and its comparisons pay the right amount; or neither owes anything. -/
def SettledByRules (game : Game13) (i j : Nat) : Prop :=
  if game.attr.daQiang ≠ 0 ∧ Reached game.attr (roundSeat game) i j then
    RowsSettle (roundSeat game i) (roundSeat game j)
  else net (roundSeat game i) (roundSeat game j) = 0

theorem sweeps_iff (P Q : Seat) :
    Sweeps P Q ↔ rowSign (P.dun 0) (Q.dun 0) = 1 ∧ rowSign (P.dun 1) (Q.dun 1) = 1 ∧
      rowSign (P.dun 2) (Q.dun 2) = 1 := by
  simp [Sweeps, Fin.forall_fin_succ]

theorem sweeps_swap_iff (P Q : Seat) :
    Sweeps Q P ↔ rowSign (P.dun 0) (Q.dun 0) = -1 ∧ rowSign (P.dun 1) (Q.dun 1) = -1 ∧
      rowSign (P.dun 2) (Q.dun 2) = -1 := by
  rw [sweeps_iff]
  simp only [fun d => rowSign_swap (P.dun d) (Q.dun d)]
  omega

theorem crossSweeps_iff (P Q : Seat) :
    CrossSweeps P Q ↔ rowSign (P.dun 0) (Q.dun 0) = 1 ∧ rowSign (P.dun 1) (Q.dun 2) = 1 := by
  simp [CrossSweeps, crossSign, Fin.forall_fin_succ]

theorem score_of_one (d : Fin 3) (b1 b2 : Brand) : score d 1 b1 b2 = 1 + bonus d b1 := rfl

theorem score_of_neg_one (d : Fin 3) (b1 b2 : Brand) :
    score d (-1) b1 b2 = -(1 + bonus d b2) := rfl

theorem score_of_zero (d : Fin 3) (b1 b2 : Brand) : score d 0 b1 b2 = 0 := rfl

theorem crossNet_eq_owed_iff {attr : Attr} (hdq : attr.daQiang ≠ 0) (P Q : Seat) :
    (if CrossSweeps P Q then 2 * crossNet P Q else crossNet P Q) = owed attr P Q ↔
      RowsSettle P Q := by
  have b0P := bonus_nonneg 0 (P.dun 0).b
  have b0Q := bonus_nonneg 0 (Q.dun 0).b
  have b1P := bonus_nonneg 1 (P.dun 1).b
  have b1Q := bonus_nonneg 1 (Q.dun 1).b
  have b2P := bonus_nonneg 2 (P.dun 2).b
  have b2Q := bonus_nonneg 2 (Q.dun 2).b
  simp only [owed, RowsSettle, crossSweeps_iff, sweeps_iff P Q, sweeps_swap_iff P Q, crossNet, net,
    Fin.sum_univ_three, rowScore, crossScore, crossSign, Matrix.cons_val_zero,
    Matrix.cons_val_one, Matrix.cons_val, hdq, ne_eq, not_false_eq_true, true_and]
  -- every outcome of the four comparisons; the bonuses are never negative
  rcases rowSign_cases (P.dun 0) (Q.dun 0) with h0 | h0 | h0 <;>
    rcases rowSign_cases (P.dun 1) (Q.dun 1) with h1 | h1 | h1 <;>
    rcases rowSign_cases (P.dun 2) (Q.dun 2) with h2 | h2 | h2 <;>
    rcases rowSign_cases (P.dun 1) (Q.dun 2) with hc | hc | hc <;>
    simp only [h0, h1, h2, hc, score_of_one, score_of_neg_one, score_of_zero] <;>
    norm_num <;> omega

theorem transfer_eq_owed_iff_of_lt (game : Game13) {i j : Nat} (hij : i < j)
    (hj : j < game.players.length) (hspec : (roundSeat game i).spec = (roundSeat game j).spec) :
    transfer (round game) i j = owed game.attr (roundSeat game i) (roundSeat game j) ↔
      SettledByRules game i j := by
  by_cases hsettled : game.attr.daQiang ≠ 0 ∧ Reached game.attr (roundSeat game) i j
  · rw [transfer_of_settled hij hj hspec hsettled.1 hsettled.2, SettledByRules, if_pos hsettled]
    exact crossNet_eq_owed_iff hsettled.1 _ _
  · rw [transfer_of_unsettled hij hsettled, SettledByRules, if_neg hsettled, owed]
    split_ifs <;> omega

/-- The prizes are what `calcRound` moves, and between two seats with one special brand this
is what the rules say is owed exactly when the pair is settled by the rules. -/
theorem transfer_eq_owed_iff {game game' : Game13} {rsd : RoundSettleData}
    (h : calcRound game = .ok (rsd, game')) {i j : Nat} (hne : i ≠ j)
    (hi : i < game.players.length) (hj : j < game.players.length)
    (hspec : (roundSeat game i).spec = (roundSeat game j).spec) :
    (∀ k < game.players.length,
      prize rsd k = ∑ l ∈ Finset.range game.players.length, transfer rsd k l) ∧
    (transfer rsd i j = owed game.attr (roundSeat game i) (roundSeat game j) ↔
      SettledByRules game (min i j) (max i j)) := by
  obtain ⟨-, rfl, -⟩ := calcRound_ok h
  refine ⟨fun k hk => prize_round game hk, ?_⟩
  rcases Nat.lt_or_gt_of_ne hne with hij | hji
  · rw [min_eq_left hij.le, max_eq_right hij.le]
    exact transfer_eq_owed_iff_of_lt game hij hj hspec
  · rw [min_eq_right hji.le, max_eq_left hji.le, transfer_swap, owed_swap, neg_inj]
    exact transfer_eq_owed_iff_of_lt game hji hi hspec.symm

/-- A hand with nothing in any row. -/
def weakHand : Hand := ⟨[1, 16, 31, 2, 17, 32, 8, 49, 3, 5, 20, 37, 12], rfl⟩

/-- A hand that ties with `weakHand`: the middle row of either has the ranks of the
tail row of the other, and the head rows have the same ranks. -/
def evenHand : Hand := ⟨[14, 29, 44, 42, 18, 33, 11, 51, 15, 30, 45, 21, 36], rfl⟩

/-- A hand with a pair in every row, the middle one beating both `weakHand` and
`evenHand` in every row. -/
def strongHand : Hand := ⟨[13, 26, 28, 25, 38, 6, 34, 48, 24, 50, 10, 9, 40], rfl⟩

/-- A room of the given hands, with cuids counted from `1`. -/
def roomOf (attr : Attr) (hands : List Hand) : Game13 where
  id := 100001
  ownerCuid := 1
  attr := { attr with playerSize := hands.length }
  players := hands.zipIdx.map fun hand =>
    { cuid := hand.2 + 1, status := .compare, cards := hand.1 }

/-- The later seat wins every row and is paid once where it is owed double. -/
theorem swept_pair_not_owed :
    ¬ ∀ (game game' : Game13) (rsd : RoundSettleData), calcRound game = .ok (rsd, game') →
      ∀ i j, i ≠ j → i < game.players.length → j < game.players.length →
        (roundSeat game i).spec = (roundSeat game j).spec →
        transfer rsd i j = owed game.attr (roundSeat game i) (roundSeat game j) := by
  intro hall
  have hrun : calcRound (roomOf {} [weakHand, strongHand]) =
      .ok (round (roomOf {} [weakHand, strongHand]), roomOf {} [weakHand, strongHand]) :=
    calcRound_of_inRange (by decide)
  have heq := hall _ _ _ hrun 0 1 (by decide) (by decide) (by decide) (by decide +kernel)
  have hne : transfer (round (roomOf {} [weakHand, strongHand])) 0 1 ≠
      owed (roomOf {} [weakHand, strongHand]).attr
        (roundSeat (roomOf {} [weakHand, strongHand]) 0)
        (roundSeat (roomOf {} [weakHand, strongHand]) 1) := by
    decide +kernel
  exact hne heq

theorem transfer_eq_owed_iff_strong :
    (∀ k < (roomOf {} [strongHand, weakHand]).players.length,
      prize (round (roomOf {} [strongHand, weakHand])) k =
        ∑ l ∈ Finset.range (roomOf {} [strongHand, weakHand]).players.length,
          transfer (round (roomOf {} [strongHand, weakHand])) k l) ∧
    (transfer (round (roomOf {} [strongHand, weakHand])) 1 0 =
        owed (roomOf {} [strongHand, weakHand]).attr
          (roundSeat (roomOf {} [strongHand, weakHand]) 1)
          (roundSeat (roomOf {} [strongHand, weakHand]) 0) ↔
      SettledByRules (roomOf {} [strongHand, weakHand]) (min 1 0) (max 1 0)) :=
  transfer_eq_owed_iff (calcRound_of_inRange (by decide)) (by decide) (by decide) (by decide)
    (by decide +kernel)

end CasualGame.Lobby.RowScoring
