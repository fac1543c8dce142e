import CasualGame.Lobby.Settlement

/-!
The losers maps of a round, entry by entry: what an earlier seat has for a later
one, a later seat for an earlier one, and a seat for itself.
-/

namespace CasualGame.Lobby.Losers

open Deck
open Rules
open CalcRound
open PairLoop
open Settlement

variable (game : Game13)

theorem loser_of_lt {i j : Nat} (hij : i < j) (e : Int × Int) :
    loser (round game) i j = some e ↔
      j < game.players.length ∧ Reached game.attr (roundSeat game) i j ∧
        (roundSeat game i).spec = (roundSeat game j).spec ∧ game.attr.daQiang ≠ 0 ∧
        crossNet (roundSeat game i) (roundSeat game j) ≠ 0 ∧
        e = (crossNet (roundSeat game i) (roundSeat game j),
          if CrossSweeps (roundSeat game i) (roundSeat game j) then 1 else 0) := by
  rw [loser_round, mem_roundWrites]
  constructor
  · rintro ⟨i', j', hij', hjn, hreached, hw⟩
    rcases pairWrite_eq_some.mp hw with
      ⟨hspec, hdq, hnet, rfl, rfl, he⟩ | ⟨-, rfl, rfl, -⟩ | ⟨-, rfl, rfl, -⟩
    · exact ⟨hjn, hreached, hspec, hdq, hnet, he⟩
    · omega
    · omega
  · rintro ⟨hjn, hreached, hspec, hdq, hnet, he⟩
    exact ⟨i, j, hij, hjn, hreached,
      pairWrite_eq_some.mpr (Or.inl ⟨hspec, hdq, hnet, rfl, rfl, he⟩)⟩

theorem loser_of_gt {i j : Nat} (hji : j < i) : loser (round game) i j = none := by
  rw [Option.eq_none_iff_forall_ne_some]
  intro e he
  obtain ⟨i', j', hij', -, -, hw⟩ := mem_roundWrites.mp ((loser_round game i j e).mp he)
  rcases pairWrite_eq_some.mp hw with h | h | h <;> omega

theorem loser_self (i : Nat) (e : Int × Int) :
    loser (round game) i i = some e ↔
      e = (specialPrize (roundSeat game i).spec, 0) ∧
        ∃ x, x < game.players.length ∧ i < game.players.length ∧
          strength (roundSeat game x) < strength (roundSeat game i) ∧
          (i < x ∧ Reached game.attr (roundSeat game) i x ∨
            x < i ∧ Reached game.attr (roundSeat game) x i) := by
  rw [loser_round, mem_roundWrites]
  constructor
  · rintro ⟨i', j', hij', hjn, hreached, hw⟩
    rcases pairWrite_eq_some.mp hw with
      ⟨-, -, -, rfl, rfl, -⟩ | ⟨hlt, rfl, -, he⟩ | ⟨hlt, rfl, -, he⟩
    · omega
    · exact ⟨he, j', hjn, by omega, hlt, Or.inl ⟨hij', hreached⟩⟩
    · exact ⟨he, i', by omega, hjn, hlt, Or.inr ⟨hij', hreached⟩⟩
  · rintro ⟨he, x, hx, hi, hlt, ⟨hix, hreached⟩ | ⟨hxi, hreached⟩⟩
    · exact ⟨i, x, hix, hx, hreached,
        pairWrite_eq_some.mpr (Or.inr (Or.inl ⟨hlt, rfl, rfl, he⟩))⟩
    · exact ⟨x, i, hxi, hi, hreached,
        pairWrite_eq_some.mpr (Or.inr (Or.inr ⟨hlt, rfl, rfl, he⟩))⟩

theorem mem_losersOf_of_lt {i j : Nat} (hij : i < j) :
    j ∈ losersOf (round game) i ↔
      j < game.players.length ∧ Reached game.attr (roundSeat game) i j ∧
        (roundSeat game i).spec = (roundSeat game j).spec ∧ game.attr.daQiang ≠ 0 ∧
        crossNet (roundSeat game i) (roundSeat game j) ≠ 0 := by
  rw [mem_losersOf_iff]
  constructor
  · rintro ⟨e, he⟩
    obtain ⟨hj, hreached, hspec, hdq, hnet, -⟩ := (loser_of_lt game hij e).mp he
    exact ⟨hj, hreached, hspec, hdq, hnet⟩
  · rintro ⟨hj, hreached, hspec, hdq, hnet⟩
    exact ⟨_, (loser_of_lt game hij _).mpr ⟨hj, hreached, hspec, hdq, hnet, rfl⟩⟩

theorem not_mem_losersOf_of_gt {i j : Nat} (hji : j < i) : j ∉ losersOf (round game) i := by
  rw [mem_losersOf_iff, loser_of_gt game hji]
  rintro ⟨e, he⟩
  cases he

theorem self_mem_losersOf (i : Nat) :
    i ∈ losersOf (round game) i ↔
      ∃ x, x < game.players.length ∧ i < game.players.length ∧
        strength (roundSeat game x) < strength (roundSeat game i) ∧
        (i < x ∧ Reached game.attr (roundSeat game) i x ∨
          x < i ∧ Reached game.attr (roundSeat game) x i) := by
  rw [mem_losersOf_iff]
  constructor
  · rintro ⟨e, he⟩
    exact ((loser_self game i e).mp he).2
  · intro h
    exact ⟨_, (loser_self game i _).mpr ⟨rfl, h⟩⟩

theorem collected_of_gt {i j : Nat} (hji : j < i) : collected (round game) i j = 0 := by
  rw [collected, loser_of_gt game hji]
  rfl

section Transfer

variable {game} {i j : Nat}

theorem transfer_of_settled (hij : i < j) (hj : j < game.players.length)
    (hspec : (roundSeat game i).spec = (roundSeat game j).spec) (hdq : game.attr.daQiang ≠ 0)
    (hreached : Reached game.attr (roundSeat game) i j) :
    transfer (round game) i j =
      if CrossSweeps (roundSeat game i) (roundSeat game j) then
        2 * crossNet (roundSeat game i) (roundSeat game j)
      else crossNet (roundSeat game i) (roundSeat game j) := by
  rw [transfer, collected_of_gt game hij, sub_zero, collected, flag_round]
  cases he : loser (round game) i j with
  | none =>
      have hnet : crossNet (roundSeat game i) (roundSeat game j) = 0 := by
        by_contra hnet
        have hsome := (loser_of_lt game hij _).mpr ⟨hj, hreached, hspec, hdq, hnet, rfl⟩
        simp [he] at hsome
      simp [hnet]
  | some e =>
      obtain ⟨-, -, -, -, -, rfl⟩ := (loser_of_lt game hij e).mp he
      by_cases hsweep : CrossSweeps (roundSeat game i) (roundSeat game j)
      · simp [hsweep, settleAmount, mul_comm]
      · simp [hsweep, settleAmount]

theorem transfer_of_unsettled (hij : i < j)
    (h : ¬ (game.attr.daQiang ≠ 0 ∧ Reached game.attr (roundSeat game) i j)) :
    transfer (round game) i j = 0 := by
  rw [transfer, collected_of_gt game hij, sub_zero, collected]
  cases he : loser (round game) i j with
  | none => rfl
  | some e =>
      obtain ⟨-, hreached, -, hdq, -⟩ := (loser_of_lt game hij e).mp he
      exact absurd ⟨hdq, hreached⟩ h

end Transfer

end CasualGame.Lobby.Losers
