import CasualGame.Lobby.Conservation

/-!
The losers maps as a relation between the seats, and the flag for beating every
other seat in all rows.
-/

namespace CasualGame.Lobby.LosersShape

open Deck
open Rules
open CalcRound
open PairLoop
open Settlement
open Losers
open RowScoring
open Lib.Ledger

/-- No seat is its own loser, no two seats are losers of each other, every price is
positive, and a seat has as many losers as it takes points from. -/
def WellShaped (rsd : RoundSettleData) : Prop :=
  (∀ i, i ∉ losersOf rsd i) ∧
    (∀ i j, i ≠ j → ¬ (j ∈ losersOf rsd i ∧ i ∈ losersOf rsd j)) ∧
    (∀ i j entry, loser rsd i j = some entry → 0 < entry.1) ∧
    ∀ i, (losersOf rsd i).size =
      ((Finset.range rsd.players.length).filter fun j => 0 < transfer rsd i j).card

/-- All special brands are equally strong, and no earlier seat loses a pair that the
loop settles by rows. -/
def EarlierSeatsWin (game : Game13) : Prop :=
  (∀ i < game.players.length, ∀ j < game.players.length,
      strength (roundSeat game i) = strength (roundSeat game j)) ∧
    (game.attr.daQiang ≠ 0 → ∀ j < game.players.length, ∀ i < j,
      (roundSeat game i).spec = (roundSeat game j).spec →
        Reached game.attr (roundSeat game) i j →
          0 ≤ crossNet (roundSeat game i) (roundSeat game j))

instance (game : Game13) : Decidable (EarlierSeatsWin game) :=
  inferInstanceAs (Decidable ((∀ i < game.players.length, ∀ j < game.players.length, _) ∧
    (_ → ∀ j < game.players.length, ∀ i < j, _ → _ → _)))

theorem settleAmount_pos {quanLeiDa : Bool} {entry : Int × Int} (h : 0 < entry.1) :
    0 < settleAmount quanLeiDa entry := by
  simp only [settleAmount]
  split_ifs <;> omega

variable {game game' : Game13} {rsd : RoundSettleData}

theorem transfer_pos_iff (hpos : ∀ i j entry, loser (round game) i j = some entry → 0 < entry.1)
    (hself : ∀ i, i ∉ losersOf (round game) i) (i j : Nat) :
    0 < transfer (round game) i j ↔ j ∈ losersOf (round game) i := by
  have hcollected : ∀ a b, 0 ≤ collected (round game) a b ∧
      (0 < collected (round game) a b ↔ b ∈ losersOf (round game) a) := by
    intro a b
    rw [mem_losersOf_iff, collected]
    cases he : loser (round game) a b with
    | none => simp
    | some entry =>
        have hamount : 0 < settleAmount false entry := settleAmount_pos (hpos a b entry he)
        simpa using ⟨hamount.le, hamount⟩
  rcases Nat.lt_trichotomy i j with hij | rfl | hji
  · rw [transfer, collected_of_gt game hij, sub_zero]
    exact (hcollected i j).2
  · simp [transfer, hself i]
  · have hji' := (hcollected j i).1
    rw [transfer, collected_of_gt game hji]
    simp only [not_mem_losersOf_of_gt game hji, iff_false, not_lt]
    omega

theorem strength_const_of_noSelf (hself : ∀ i, i ∉ losersOf (round game) i) :
    ∀ i < game.players.length, strength (roundSeat game i) = strength (roundSeat game 0) := by
  intro i
  induction i with
  | zero => intro _; rfl
  | succ i ih =>
      intro hi
      rw [← ih (by omega)]
      have hreached := Reached.next game.attr (roundSeat game) i
      apply le_antisymm
      · by_contra hlt
        refine hself (i + 1) ((self_mem_losersOf game (i + 1)).mpr ?_)
        exact ⟨i, by omega, hi, by omega, Or.inr ⟨by omega, hreached⟩⟩
      · by_contra hlt
        refine hself i ((self_mem_losersOf game i).mpr ?_)
        exact ⟨i + 1, hi, by omega, by omega, Or.inl ⟨by omega, hreached⟩⟩

theorem EarlierSeatsWin.noSelf (hwin : EarlierSeatsWin game) :
    ∀ i, i ∉ losersOf (round game) i := by
  intro i hmem
  obtain ⟨x, hx, hi, hlt, -⟩ := (self_mem_losersOf game i).mp hmem
  exact absurd (hwin.1 x hx i hi) hlt.ne

theorem EarlierSeatsWin.price_pos (hwin : EarlierSeatsWin game) :
    ∀ i j entry, loser (round game) i j = some entry → 0 < entry.1 := by
  intro i j entry he
  rcases Nat.lt_trichotomy i j with hij | rfl | hji
  · obtain ⟨hj, hreached, hspec, hdq, hnet, rfl⟩ := (loser_of_lt game hij entry).mp he
    have hnonneg := hwin.2 hdq j hj i hij hspec hreached
    show 0 < crossNet _ _
    omega
  · exact absurd (mem_losersOf_iff.mpr ⟨entry, he⟩) (hwin.noSelf i)
  · rw [loser_of_gt game hji] at he
    cases he

/-- The losers maps of a round are a well-shaped relation exactly when no special
brand is stronger than another and no earlier seat loses by rows. -/
theorem wellShaped_iff (h : calcRound game = .ok (rsd, game')) :
    WellShaped rsd ↔ EarlierSeatsWin game := by
  obtain ⟨-, rfl, -⟩ := calcRound_ok h
  constructor
  · rintro ⟨hself, -, hpos, -⟩
    have hconst := strength_const_of_noSelf hself
    refine ⟨fun i hi j hj => (hconst i hi).trans (hconst j hj).symm, ?_⟩
    intro hdq j hj i hij hspec hreached
    by_contra hneg
    have he := (loser_of_lt game hij _).mpr ⟨hj, hreached, hspec, hdq, by omega, rfl⟩
    have hprice : 0 < crossNet (roundSeat game i) (roundSeat game j) := hpos i j _ he
    omega
  · intro hwin
    refine ⟨hwin.noSelf, fun i j hne => ?_, hwin.price_pos, fun i => ?_⟩
    · rintro ⟨hj, hi⟩
      rcases Nat.lt_or_gt_of_ne hne with hij | hji
      · exact not_mem_losersOf_of_gt game hij hi
      · exact not_mem_losersOf_of_gt game hji hj
    · rw [length_round, size_eq_card _ fun j hj => lt_of_mem_losersOf game hj]
      congr 1
      apply Finset.filter_congr
      intro j _
      rw [transfer_pos_iff hwin.price_pos hwin.noSelf]

/-- The later seat wins by rows: the earlier one gets an entry with a negative price. -/
theorem weakFirst_not_wellShaped :
    ¬ ∀ (game game' : Game13) (rsd : RoundSettleData), calcRound game = .ok (rsd, game') →
      WellShaped rsd := by
  intro hall
  have hshape := hall (roomOf {} [weakHand, strongHand]) _ _
    (calcRound_of_inRange (by decide))
  have hentry : loser (round (roomOf {} [weakHand, strongHand])) 0 1 = some (-3, 0) := by
    decide +kernel
  exact absurd (hshape.2.2.1 0 1 _ hentry) (by decide)

theorem wellShaped_iff_strong :
    WellShaped (round (roomOf {} [strongHand, weakHand])) ↔
      EarlierSeatsWin (roomOf {} [strongHand, weakHand]) :=
  wellShaped_iff (calcRound_of_inRange (by decide))

section QuanLeiDa

/-- `全垒打`: the room enables it, has more than two players, and seat `i` sweeps
every other seat. -/
def GrandSlam (game : Game13) (i : Nat) : Prop :=
  game.attr.quanLeiDa = true ∧ 2 < game.players.length ∧
    ∀ j < game.players.length, j ≠ i →
      game.attr.daQiang ≠ 0 ∧ (roundSeat game i).spec = (roundSeat game j).spec ∧
        Sweeps (roundSeat game i) (roundSeat game j)

/-- The flags mark the grand slams, and a flagged seat collects double. -/
def SlamsFlagged (game : Game13) (rsd : RoundSettleData) : Prop :=
  ∀ i < game.players.length,
    (flag rsd i = true ↔ GrandSlam game i) ∧
      (flag rsd i = true → ∀ j entry, loser rsd i j = some entry →
        collected rsd i j = 2 * (if 0 < entry.2 then 2 * entry.1 else entry.1))

/-- No seat is ever flagged, so the flags are right when nobody earns one. -/
theorem slamsFlagged_iff (h : calcRound game = .ok (rsd, game')) :
    SlamsFlagged game rsd ↔ ∀ i < game.players.length, ¬ GrandSlam game i := by
  obtain ⟨-, rfl, -⟩ := calcRound_ok h
  simp [SlamsFlagged, flag_round]

/-- Seat `0` sweeps both others and is not flagged. -/
theorem slam_not_flagged :
    ¬ ∀ (game game' : Game13) (rsd : RoundSettleData), calcRound game = .ok (rsd, game') →
      SlamsFlagged game rsd := by
  intro hall
  have hflags := hall (roomOf { quanLeiDa := true } [strongHand, evenHand, weakHand]) _ _
    (calcRound_of_inRange (by decide)) 0 (by decide)
  have hslam : GrandSlam (roomOf { quanLeiDa := true } [strongHand, evenHand, weakHand]) 0 := by
    unfold GrandSlam
    decide +kernel
  have hflag := hflags.1.mpr hslam
  rw [flag_round] at hflag
  cases hflag

theorem slamsFlagged_iff_strong :
    let game := roomOf { quanLeiDa := true } [strongHand, evenHand, weakHand]
    SlamsFlagged game (round game) ↔ ∀ i < game.players.length, ¬ GrandSlam game i :=
  slamsFlagged_iff (calcRound_of_inRange (by decide))

end QuanLeiDa

end CasualGame.Lobby.LosersShape
