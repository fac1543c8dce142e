import Mathlib.Logic.Equiv.Fin.Basic
import Mathlib.GroupTheory.Perm.Basic
import CasualGame.Lobby.RowScoring

/-!
What the order of the seats and the presence of third players do to a round.
-/

namespace CasualGame.Lobby.SeatOrder

open Deck
open Rules
open CalcRound
open PairLoop
open Settlement
open Losers
open RowScoring

theorem roundSeat_eq {game : Game13} {k : Nat} (hk : k < game.players.length) :
    roundSeat game k = seatOf (playerData game.players[k]) := by
  apply seatAt_eq
  simp [hk]

section Reseat

def reseat (game : Game13) (σ : Equiv.Perm (Fin game.players.length)) : Game13 :=
  { game with players := List.ofFn fun k => game.players[σ k] }

/-- Every player has the same prize, flag and beaten opponents in both rounds, the
second of which has the player of seat `σ k` at seat `k`. -/
def SameScores {n : Nat} (σ : Equiv.Perm (Fin n)) (rsd rsd' : RoundSettleData) : Prop :=
  ∀ k : Fin n,
    prize rsd' k = prize rsd (σ k) ∧ flag rsd' k = flag rsd (σ k) ∧
      ∀ l : Fin n, l.val ∈ losersOf rsd' k ↔ (σ l).val ∈ losersOf rsd (σ k)

/-- The rows never count: `打枪` is off, or seats share a special brand only when it
is the weakest one present and their rows come out even. -/
def RowsIdle (game : Game13) : Prop :=
  game.attr.daQiang = 0 ∨
    ∀ i < game.players.length, ∀ j < game.players.length, i ≠ j →
      (roundSeat game i).spec = (roundSeat game j).spec →
        crossNet (roundSeat game i) (roundSeat game j) = 0 ∧
          ∀ x < game.players.length, strength (roundSeat game i) ≤ strength (roundSeat game x)

variable {game game' : Game13} {rsd : RoundSettleData}

@[simp] theorem length_reseat (σ : Equiv.Perm (Fin game.players.length)) :
    (reseat game σ).players.length = game.players.length := by
  simp [reseat]

theorem roundSeat_reseat (σ : Equiv.Perm (Fin game.players.length))
    (k : Fin game.players.length) : roundSeat (reseat game σ) k = roundSeat game (σ k) := by
  rw [roundSeat_eq (by simp), roundSeat_eq (σ k).isLt]
  simp [reseat]

theorem roundSeat_reseat_of_val {σ : Equiv.Perm (Fin game.players.length)} {k a : Nat}
    (hk : k < game.players.length) (h : (σ ⟨k, hk⟩).val = a) :
    roundSeat (reseat game σ) k = roundSeat game a := by
  rw [← h]
  exact roundSeat_reseat σ ⟨k, hk⟩

theorem handsInRange_reseat (h : HandsInRange game) (σ : Equiv.Perm (Fin game.players.length)) :
    HandsInRange (reseat game σ) := by
  intro info hinfo
  simp only [reseat, List.mem_ofFn] at hinfo
  obtain ⟨k, rfl⟩ := hinfo
  exact h _ (List.getElem_mem _)

theorem calcRound_reseat (h : calcRound game = .ok (rsd, game'))
    (σ : Equiv.Perm (Fin game.players.length)) :
    calcRound (reseat game σ) = .ok (round (reseat game σ), reseat game σ) :=
  calcRound_of_inRange (handsInRange_reseat (calcRound_ok h).1 σ)

theorem RowsIdle.reseat (hidle : RowsIdle game) (σ : Equiv.Perm (Fin game.players.length)) :
    RowsIdle (reseat game σ) := by
  refine hidle.imp id fun h => ?_
  simp only [length_reseat]
  intro i hi j hj hne hspec
  rw [roundSeat_reseat σ ⟨i, hi⟩, roundSeat_reseat σ ⟨j, hj⟩] at hspec ⊢
  have hne' : (σ ⟨i, hi⟩).val ≠ (σ ⟨j, hj⟩).val := by
    simpa [Fin.val_inj] using hne
  obtain ⟨hnet, hmin⟩ := h _ (σ ⟨i, hi⟩).isLt _ (σ ⟨j, hj⟩).isLt hne' hspec
  refine ⟨hnet, fun x hx => ?_⟩
  rw [roundSeat_reseat σ ⟨x, hx⟩]
  exact hmin _ (σ ⟨x, hx⟩).isLt

theorem RowsIdle.exists_reached (hidle : RowsIdle game) {i x : Nat}
    (hi : i < game.players.length) (hx : x < game.players.length)
    (hlt : strength (roundSeat game x) < strength (roundSeat game i)) :
    ∃ y < game.players.length, strength (roundSeat game y) < strength (roundSeat game i) ∧
      (i < y ∧ Reached game.attr (roundSeat game) i y ∨
        y < i ∧ Reached game.attr (roundSeat game) y i) := by
  have hcut : ∀ m < game.players.length, m ≠ i →
      ¬ Cuts game.attr (roundSeat game i) (roundSeat game m) := by
    rintro m hm hne ⟨hspec, hdq, -⟩
    rcases hidle with hoff | hrows
    · exact hdq hoff
    · exact absurd ((hrows i hi m hm hne.symm hspec).2 x hx) (by omega)
  rcases Nat.lt_trichotomy i x with hix | rfl | hxi
  · exact ⟨x, hx, hlt, Or.inl ⟨hix, fun m hm hm' => hcut m (by omega) (by omega)⟩⟩
  · exact absurd hlt (lt_irrefl _)
  · -- the weaker seat closest before `i` meets `i`: what cuts its row is as weak
    induction hd : i - x using Nat.strong_induction_on generalizing x with
    | _ d ih =>
        by_cases hreached : Reached game.attr (roundSeat game) x i
        · exact ⟨x, hx, hlt, Or.inr ⟨hxi, hreached⟩⟩
        · obtain ⟨m, hm⟩ := not_forall.mp hreached
          obtain ⟨hxm, hmi, hcutm⟩ : x < m ∧ m < i ∧
              Cuts game.attr (roundSeat game x) (roundSeat game m) := by
            simpa using hm
          have hltm : strength (roundSeat game m) < strength (roundSeat game i) := by
            rw [strength, ← hcutm.1]
            exact hlt
          exact ih (i - m) (by omega) (by omega) hltm hmi rfl

theorem RowsIdle.mem_losersOf (hidle : RowsIdle game) {i j : Nat}
    (hi : i < game.players.length) :
    j ∈ losersOf (round game) i ↔
      j = i ∧ ∃ x < game.players.length,
        strength (roundSeat game x) < strength (roundSeat game i) := by
  rcases Nat.lt_trichotomy i j with hij | rfl | hji
  · simp only [mem_losersOf_of_lt game hij, hij.ne', false_and, iff_false]
    rintro ⟨hj, -, hspec, hdq, hnet⟩
    rcases hidle with hoff | hrows
    · exact hdq hoff
    · exact hnet (hrows i hi j hj hij.ne hspec).1
  · simp only [self_mem_losersOf, true_and]
    constructor
    · rintro ⟨x, hx, -, hlt, -⟩
      exact ⟨x, hx, hlt⟩
    · rintro ⟨x, hx, hlt⟩
      obtain ⟨y, hy, hlty, hreached⟩ := hidle.exists_reached hi hx hlt
      exact ⟨y, hy, hi, hlty, hreached⟩
  · simp [not_mem_losersOf_of_gt game hji, hji.ne]

theorem RowsIdle.prize_eq (hidle : RowsIdle game) {k : Nat} (hk : k < game.players.length) :
    prize (round game) k = 0 := by
  have hentry : ∀ a b, a ≠ b → collected (round game) a b = 0 := by
    intro a b hne
    rw [collected]
    cases he : loser (round game) a b with
    | none => rfl
    | some e =>
        have hmem := mem_losersOf_iff.mpr ⟨e, he⟩
        exact absurd ((hidle.mem_losersOf (loser_lt game he).1).mp hmem).1 hne.symm
  rw [prize_round game hk]
  apply Finset.sum_eq_zero
  intro j _
  by_cases hne : k = j
  · simp [transfer, hne]
  · simp [transfer, hentry k j hne, hentry j k (Ne.symm hne)]

theorem exists_front {n a b : Nat} (h0 : 0 < n) (h1 : 1 < n) (ha : a < n) (hb : b < n)
    (hne : a ≠ b) :
    ∃ σ : Equiv.Perm (Fin n), (σ ⟨0, h0⟩).val = a ∧ (σ ⟨1, h1⟩).val = b := by
  let front : Equiv.Perm (Fin n) := Equiv.swap ⟨0, h0⟩ ⟨a, ha⟩
  have h0b : (⟨0, h0⟩ : Fin n) ≠ front ⟨b, hb⟩ := by
    intro h
    have hab : front ⟨a, ha⟩ = front ⟨b, hb⟩ := (Equiv.swap_apply_right _ _).trans h
    exact hne (congrArg Fin.val (front.injective hab))
  refine ⟨(Equiv.swap ⟨1, h1⟩ (front ⟨b, hb⟩)).trans front, ?_, ?_⟩
  · rw [Equiv.trans_apply, Equiv.swap_apply_of_ne_of_ne (by simp) h0b]
    simp [front]
  · rw [Equiv.trans_apply, Equiv.swap_apply_left]
    simp [front]

theorem crossNet_eq_zero_of_same (hdq : game.attr.daQiang ≠ 0)
    (hsame : ∀ σ, SameScores σ (round game) (round (reseat game σ))) {i j : Nat}
    (hi : i < game.players.length) (hj : j < game.players.length) (hne : i ≠ j)
    (hspec : (roundSeat game i).spec = (roundSeat game j).spec) :
    crossNet (roundSeat game i) (roundSeat game j) = 0 := by
  have h0 : 0 < game.players.length := by omega
  have h1 : 1 < game.players.length := by omega
  obtain ⟨σ, hσi, hσj⟩ := exists_front h0 h1 hi hj hne
  obtain ⟨τ, hτj, hτi⟩ := exists_front h0 h1 hj hi hne.symm
  have hi0 : roundSeat (reseat game σ) 0 = roundSeat game i := roundSeat_reseat_of_val h0 hσi
  have hj1 : roundSeat (reseat game σ) 1 = roundSeat game j := roundSeat_reseat_of_val h1 hσj
  have hnot : j ∉ losersOf (round game) i := by
    have hτ := (hsame τ ⟨1, h1⟩).2.2 ⟨0, h0⟩
    rw [hτj, hτi] at hτ
    rw [← hτ]
    exact not_mem_losersOf_of_gt _ (by simp)
  have hσ := (hsame σ ⟨0, h0⟩).2.2 ⟨1, h1⟩
  rw [hσi, hσj] at hσ
  by_contra hnet
  refine hnot (hσ.mp ((mem_losersOf_of_lt _ (by simp)).mpr ?_))
  refine ⟨by simpa using h1, Reached.next _ _ 0, ?_, hdq, ?_⟩
  · rw [hi0, hj1, hspec]
  · rw [hi0, hj1]
    exact hnet

theorem strength_le_of_same (hdq : game.attr.daQiang ≠ 0)
    (hsame : ∀ σ, SameScores σ (round game) (round (reseat game σ))) {i j x : Nat}
    (hi : i < game.players.length) (hj : j < game.players.length) (hne : i ≠ j)
    (hspec : (roundSeat game i).spec = (roundSeat game j).spec)
    (hx : x < game.players.length) : strength (roundSeat game i) ≤ strength (roundSeat game x) := by
  by_contra hlt
  have hix : i ≠ x := by
    rintro rfl
    exact hlt le_rfl
  have h0 : 0 < game.players.length := by omega
  have h1 : 1 < game.players.length := by omega
  obtain ⟨σ, hσi, hσj⟩ := exists_front h0 h1 hi hj hne
  obtain ⟨τ, hτi, hτx⟩ := exists_front h0 h1 hi hx hix
  have hi0 : roundSeat (reseat game σ) 0 = roundSeat game i := roundSeat_reseat_of_val h0 hσi
  have hj1 : roundSeat (reseat game σ) 1 = roundSeat game j := roundSeat_reseat_of_val h1 hσj
  have hi0' : roundSeat (reseat game τ) 0 = roundSeat game i := roundSeat_reseat_of_val h0 hτi
  have hx1 : roundSeat (reseat game τ) 1 = roundSeat game x := roundSeat_reseat_of_val h1 hτx
  have hself : i ∈ losersOf (round game) i := by
    have hτ := (hsame τ ⟨0, h0⟩).2.2 ⟨0, h0⟩
    rw [hτi] at hτ
    refine hτ.mp ((self_mem_losersOf _ 0).mpr ⟨1, ?_⟩)
    refine ⟨by simpa using h1, by simpa using h0, ?_, Or.inl ⟨by simp, Reached.next _ _ 0⟩⟩
    rw [hi0', hx1]
    omega
  have hσ := (hsame σ ⟨0, h0⟩).2.2 ⟨0, h0⟩
  rw [hσi] at hσ
  obtain ⟨y, -, -, hlty, ⟨hy, hreached⟩ | ⟨hy, -⟩⟩ :=
    (self_mem_losersOf _ 0).mp (hσ.mpr hself)
  · have hcut : Cuts game.attr (roundSeat (reseat game σ) 0) (roundSeat (reseat game σ) 1) := by
      rw [hi0, hj1]
      exact ⟨hspec, hdq, crossNet_eq_zero_of_same hdq hsame hi hj hne hspec⟩
    rcases Nat.eq_or_lt_of_le (Nat.succ_le_of_lt hy) with rfl | hy
    · rw [strength, strength, hi0, hj1, hspec] at hlty
      exact lt_irrefl _ hlty
    · exact hreached 1 (by simp) hy hcut
  · simp at hy

/-- The scores of a round do not depend on the order of the seats exactly when the
rows are idle. -/
theorem sameScores_iff (h : calcRound game = .ok (rsd, game')) :
    (∀ (σ : Equiv.Perm (Fin game.players.length)) (rsd' : RoundSettleData) (game'' : Game13),
        calcRound (reseat game σ) = .ok (rsd', game'') → SameScores σ rsd rsd') ↔
      RowsIdle game := by
  have hrun := calcRound_reseat h
  obtain ⟨-, rfl, -⟩ := calcRound_ok h
  constructor
  · intro hall
    have hsame : ∀ σ, SameScores σ (round game) (round (reseat game σ)) := fun σ =>
      hall σ _ _ (hrun σ)
    by_cases hdq : game.attr.daQiang = 0
    · exact Or.inl hdq
    · refine Or.inr fun i hi j hj hne hspec => ?_
      exact ⟨crossNet_eq_zero_of_same hdq hsame hi hj hne hspec,
        fun x hx => strength_le_of_same hdq hsame hi hj hne hspec hx⟩
  · intro hidle σ rsd' game'' h'
    obtain ⟨-, rfl, -⟩ := calcRound_ok h'
    have hidle' := hidle.reseat σ
    refine fun k => ⟨?_, ?_, fun l => ?_⟩
    · rw [hidle.prize_eq (σ k).isLt, hidle'.prize_eq (by simp)]
    · rw [flag_round, flag_round]
    · rw [hidle.mem_losersOf (σ k).isLt, hidle'.mem_losersOf (by simp)]
      refine and_congr (by simp [Fin.val_inj]) ?_
      rw [roundSeat_reseat]
      constructor
      · rintro ⟨x, hx, hlt⟩
        have hx' : x < game.players.length := by simpa using hx
        rw [roundSeat_reseat σ ⟨x, hx'⟩] at hlt
        exact ⟨_, (σ ⟨x, hx'⟩).isLt, hlt⟩
      · rintro ⟨x, hx, hlt⟩
        refine ⟨σ.symm ⟨x, hx⟩, by simp, ?_⟩
        rw [roundSeat_reseat]
        simpa using hlt

/-- Whoever sits first is credited with the other as a loser. -/
theorem swapped_seats_differ :
    ¬ ∀ (game game' : Game13) (rsd : RoundSettleData), calcRound game = .ok (rsd, game') →
      ∀ (σ : Equiv.Perm (Fin game.players.length)) (rsd' : RoundSettleData) (game'' : Game13),
        calcRound (reseat game σ) = .ok (rsd', game'') → SameScores σ rsd rsd' := by
  intro hall
  have hrun : calcRound (roomOf {} [strongHand, weakHand]) =
      .ok (round (roomOf {} [strongHand, weakHand]), roomOf {} [strongHand, weakHand]) :=
    calcRound_of_inRange (by decide)
  have hsame := hall _ _ _ hrun (Equiv.swap ⟨0, by decide⟩ ⟨1, by decide⟩) _ _
    (calcRound_reseat hrun _)
  have hbeaten := (hsame ⟨1, by decide⟩).2.2 ⟨0, by decide⟩
  rw [Equiv.swap_apply_left, Equiv.swap_apply_right] at hbeaten
  have hin : (1 : Nat) ∈ losersOf (round (roomOf {} [strongHand, weakHand])) 0 := by
    decide +kernel
  exact not_mem_losersOf_of_gt _ (by decide) (hbeaten.mpr hin)

theorem sameScores_iff_strong :
    (∀ (σ : Equiv.Perm (Fin 2)) (rsd' : RoundSettleData) (game'' : Game13),
        calcRound (reseat (roomOf {} [strongHand, weakHand]) σ) = .ok (rsd', game'') →
          SameScores σ (round (roomOf {} [strongHand, weakHand])) rsd') ↔
      RowsIdle (roomOf {} [strongHand, weakHand]) :=
  sameScores_iff
    (calcRound_of_inRange (by decide : HandsInRange (roomOf {} [strongHand, weakHand])))

end Reseat

section ThirdPlayers

def twoSeats (game : Game13) (i j : Nat) : Game13 :=
  { game with
    attr := { game.attr with playerSize := 2 }
    players := [i, j].filterMap (game.players[·]?) }

/-- Seats `i` and `j` have the entries for each other they would have on their own. -/
def SettledAlone (game : Game13) (rsd : RoundSettleData) (i j : Nat) : Prop :=
  ∃ rsd₂ game₂, calcRound (twoSeats game i j) = .ok (rsd₂, game₂) ∧
    loser rsd i j = loser rsd₂ 0 1 ∧ loser rsd j i = loser rsd₂ 1 0

/-- No seat between `i` and `j` cuts the row of `i`, or there is nothing to cut off:
the seats are not scored by rows, or their rows come out even. -/
def NotCutOff (game : Game13) (i j : Nat) : Prop :=
  Reached game.attr (roundSeat game) i j ∨
    (roundSeat game i).spec ≠ (roundSeat game j).spec ∨ game.attr.daQiang = 0 ∨
      crossNet (roundSeat game i) (roundSeat game j) = 0

variable {game game' : Game13} {rsd : RoundSettleData} {i j : Nat}

theorem players_twoSeats (hi : i < game.players.length) (hj : j < game.players.length) :
    (twoSeats game i j).players = [game.players[i], game.players[j]] := by
  simp [twoSeats, hi, hj]

theorem roundSeat_twoSeats (hi : i < game.players.length) (hj : j < game.players.length) :
    roundSeat (twoSeats game i j) 0 = roundSeat game i ∧
      roundSeat (twoSeats game i j) 1 = roundSeat game j := by
  have hplayers := players_twoSeats hi hj
  rw [roundSeat_eq hi, roundSeat_eq hj, roundSeat_eq (by simp [hplayers]),
    roundSeat_eq (by simp [hplayers])]
  simp [hplayers]

theorem calcRound_twoSeats (h : calcRound game = .ok (rsd, game')) (hi : i < game.players.length)
    (hj : j < game.players.length) :
    calcRound (twoSeats game i j) = .ok (round (twoSeats game i j), twoSeats game i j) := by
  apply calcRound_of_inRange
  intro info hinfo
  rw [players_twoSeats hi hj] at hinfo
  rcases List.mem_pair.mp hinfo with rfl | rfl
  · exact (calcRound_ok h).1 _ (List.getElem_mem hi)
  · exact (calcRound_ok h).1 _ (List.getElem_mem hj)

/-- A pair is settled as if the others were not there exactly when its settlement is
not cut off. -/
theorem settledAlone_iff (h : calcRound game = .ok (rsd, game')) (hij : i < j)
    (hj : j < game.players.length) : SettledAlone game rsd i j ↔ NotCutOff game i j := by
  have hi : i < game.players.length := by omega
  have hrun := calcRound_twoSeats h hi hj
  obtain ⟨-, rfl, -⟩ := calcRound_ok h
  obtain ⟨hseat0, hseat1⟩ := roundSeat_twoSeats hi hj
  have hpair : ∀ e, loser (round (twoSeats game i j)) 0 1 = some e ↔
      (roundSeat game i).spec = (roundSeat game j).spec ∧ game.attr.daQiang ≠ 0 ∧
        crossNet (roundSeat game i) (roundSeat game j) ≠ 0 ∧
        e = (crossNet (roundSeat game i) (roundSeat game j),
          if CrossSweeps (roundSeat game i) (roundSeat game j) then 1 else 0) := by
    intro e
    rw [loser_of_lt _ (by simp), hseat0, hseat1, players_twoSeats hi hj]
    simp [Reached.next, twoSeats]
  have hback : loser (round game) j i = loser (round (twoSeats game i j)) 1 0 := by
    rw [loser_of_gt game hij, loser_of_gt _ (by simp)]
  constructor
  · rintro ⟨rsd₂, game₂, h₂, hsame, -⟩
    obtain ⟨-, rfl, -⟩ := calcRound_ok h₂
    by_contra hcut
    simp only [NotCutOff, not_or, not_not] at hcut
    obtain ⟨hunreached, hspec, hdq, hnet⟩ := hcut
    have he := (hpair _).mpr ⟨hspec, hdq, hnet, rfl⟩
    rw [← hsame] at he
    exact hunreached ((loser_of_lt game hij _).mp he).2.1
  · intro hnot
    refine ⟨_, _, hrun, ?_, hback⟩
    apply Option.ext
    intro e
    rw [hpair, loser_of_lt game hij]
    constructor
    · rintro ⟨-, -, hrest⟩
      exact hrest
    · rintro ⟨hspec, hdq, hnet, he⟩
      refine ⟨hj, ?_, hspec, hdq, hnet, he⟩
      rcases hnot with hreached | hspec' | hoff | hzero
      · exact hreached
      · exact absurd hspec hspec'
      · exact absurd hoff hdq
      · exact absurd hzero hnet

/-- Seat `0` ties with seat `1`, and is not set against seat `2` any more. -/
theorem tie_suppresses_settlement :
    ¬ ∀ (game game' : Game13) (rsd : RoundSettleData), calcRound game = .ok (rsd, game') →
      game.attr.quanLeiDa = false →
        ∀ i j, i < j → j < game.players.length → SettledAlone game rsd i j := by
  intro hall
  have hrun : calcRound (roomOf {} [weakHand, evenHand, strongHand]) =
      .ok (round (roomOf {} [weakHand, evenHand, strongHand]),
        roomOf {} [weakHand, evenHand, strongHand]) :=
    calcRound_of_inRange (by decide)
  obtain ⟨rsd₂, game₂, h₂, hsame, -⟩ := hall _ _ _ hrun rfl 0 2 (by decide) (by decide)
  obtain ⟨-, rfl, -⟩ := calcRound_ok h₂
  have hne : loser (round (roomOf {} [weakHand, evenHand, strongHand])) 0 2 ≠
      loser (round (twoSeats (roomOf {} [weakHand, evenHand, strongHand]) 0 2)) 0 1 := by
    decide +kernel
  exact hne hsame

theorem settledAlone_iff_strong :
    SettledAlone (roomOf {} [strongHand, evenHand, weakHand])
        (round (roomOf {} [strongHand, evenHand, weakHand])) 0 2 ↔
      NotCutOff (roomOf {} [strongHand, evenHand, weakHand]) 0 2 :=
  settledAlone_iff (calcRound_of_inRange (by decide)) (by decide) (by decide)

end ThirdPlayers

end CasualGame.Lobby.SeatOrder
