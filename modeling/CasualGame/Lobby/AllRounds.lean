import CasualGame.Lobby.LobbySteps
import CasualGame.Lobby.LosersShape
import CasualGame.Lobby.WorldFrames

/-! The totals of a game as `S_G13_AllRounds` reports them at its end. -/

namespace CasualGame.Lobby.AllRounds

open Deck
open Dealing
open Rules
open CalcRound
open PairLoop
open Settlement
open Losers
open RowScoring
open LosersShape
open Game13
open RoomSteps
open LobbySteps
open WorldFrames
open Lib.Run

def beaten (rsd : RoundSettleData) (i : Nat) : Finset Nat :=
  (Finset.range rsd.players.length).filter fun j => 0 < transfer rsd i j

/-- The opponents seat `i` wins against by `打枪` in a round. -/
def shot (rsd : RoundSettleData) (i : Nat) : Finset Nat :=
  (Finset.range rsd.players.length).filter fun j => (loser rsd i j).any fun entry => entry.2 ≠ 0

/-- What the stored rounds add up to for seat `i`. -/
def totals (sheet : List RoundSettleData) (i : Nat) (cuid : Cuid) : FinalCount where
  cuid := cuid
  win := (sheet.map fun rsd => ((beaten rsd i).card : Int)).sum
  daqiang := (sheet.map fun rsd => ((shot rsd i).card : Int)).sum
  quanleida := (sheet.map fun rsd => if flag rsd i then (1 : Int) else 0).sum
  rank := (sheet.map fun rsd => prize rsd i).sum

/-- There is one entry for each seat, under the cuid at that seat and with its totals over
the stored rounds, and the ranks sum to `0`. -/
def ExactCounts (cuids : List Cuid) (sheet : List RoundSettleData) (counts : List FinalCount) :
    Prop :=
  counts = cuids.mapIdx (totals sheet) ∧ (counts.map (·.rank)).sum = 0

instance (cuids : List Cuid) (sheet : List RoundSettleData) (counts : List FinalCount) :
    Decidable (ExactCounts cuids sheet counts) :=
  inferInstanceAs (Decidable (_ ∧ _))

section Counting

def addSeat (count : FinalCount) (pd : PlayerData) : FinalCount where
  cuid := pd.cuid
  win := count.win + pd.losers.size
  daqiang := count.daqiang + (anyDaqiang pd.losers).toInt
  quanleida := count.quanleida + if pd.quanLeiDa then 1 else 0
  rank := count.rank + pd.prize

theorem int32_ok {x y : Int} (h : int32 x = .ok y) : y = x := by
  unfold int32 at h
  split_ifs at h
  cases h
  rfl

theorem countSeat_ok {count count' : FinalCount} {pd : PlayerData}
    (h : countSeat count pd = .ok count') : count' = addSeat count pd := by
  obtain ⟨win, hwin, h⟩ := bind_eq_ok.mp h
  obtain ⟨daqiang, hdaqiang, h⟩ := bind_eq_ok.mp h
  obtain ⟨quanleida, hquanleida, h⟩ := bind_eq_ok.mp h
  obtain ⟨rank, hrank, h⟩ := bind_eq_ok.mp h
  cases h
  have hq : quanleida = count.quanleida + if pd.quanLeiDa then 1 else 0 := by
    rw [int32_ok hquanleida]
    split_ifs <;> simp
  simp [addSeat, int32_ok hwin, int32_ok hdaqiang, hq, int32_ok hrank]

theorem countRound_ok {counts counts' : List FinalCount} {pds : List PlayerData}
    (hlen : pds.length = counts.length) (h : countRound counts pds = .ok counts') :
    counts' = List.zipWith addSeat counts pds := by
  induction pds generalizing counts counts' with
  | nil =>
      cases counts with
      | nil =>
          cases h
          rfl
      | cons count counts => cases hlen
  | cons pd pds ih =>
      cases counts with
      | nil => cases hlen
      | cons count counts =>
          obtain ⟨c, hc, h⟩ := bind_eq_ok.mp h
          obtain ⟨cs, hcs, h⟩ := bind_eq_ok.mp h
          cases h
          rw [List.zipWith_cons_cons, countSeat_ok hc, ih (by simpa using hlen) hcs]

theorem foldlM_countRound_ok {sheet : List RoundSettleData} {counts counts' : List FinalCount}
    (hlen : ∀ rsd ∈ sheet, rsd.players.length = counts.length)
    (h : sheet.foldlM (fun counts rsd => countRound counts rsd.players) counts = .ok counts') :
    counts' = sheet.foldl (fun counts rsd => List.zipWith addSeat counts rsd.players) counts := by
  induction sheet generalizing counts with
  | nil =>
      cases h
      rfl
  | cons rsd sheet ih =>
      rw [List.foldlM_cons] at h
      obtain ⟨counts₁, hround, h⟩ := bind_eq_ok.mp h
      have hfirst := hlen rsd (by simp)
      obtain rfl := countRound_ok hfirst hround
      refine ih (fun r hr => ?_) h
      simp [hlen r (by simp [hr]), hfirst]

theorem foldl_addSeat {sheet : List RoundSettleData} {counts : List FinalCount}
    (hlen : ∀ rsd ∈ sheet, rsd.players.length = counts.length) :
    let counts' := sheet.foldl (fun counts rsd => List.zipWith addSeat counts rsd.players) counts
    counts'.length = counts.length ∧
      ∀ i count', counts'[i]? = some count' → ∃ count, counts[i]? = some count ∧
        count'.win = count.win + (sheet.map fun rsd => ((losersOf rsd i).size : Int)).sum ∧
        count'.daqiang = count.daqiang +
          (sheet.map fun rsd => (anyDaqiang (losersOf rsd i)).toInt).sum ∧
        count'.quanleida = count.quanleida +
          (sheet.map fun rsd => if flag rsd i then (1 : Int) else 0).sum ∧
        count'.rank = count.rank + (sheet.map fun rsd => prize rsd i).sum := by
  induction sheet generalizing counts with
  | nil => exact ⟨rfl, fun i count' h => ⟨count', h, by simp⟩⟩
  | cons rsd sheet ih =>
      have hfirst := hlen rsd (by simp)
      have hzip : (List.zipWith addSeat counts rsd.players).length = counts.length := by
        simp [hfirst]
      have hrest : ∀ r ∈ sheet,
          r.players.length = (List.zipWith addSeat counts rsd.players).length := fun r hr => by
        rw [hzip, hlen r (by simp [hr])]
      obtain ⟨hlen', hcounts⟩ := ih hrest
      refine ⟨hlen'.trans hzip, fun i count' h => ?_⟩
      obtain ⟨count₁, hcount₁, hwin, hdaqiang, hquanleida, hrank⟩ := hcounts i count' h
      rw [List.getElem?_zipWith_eq_some] at hcount₁
      obtain ⟨count, pd, hcount, hpd, rfl⟩ := hcount₁
      refine ⟨count, hcount, ?_⟩
      simp only [List.map_cons, List.sum_cons, hwin, hdaqiang, hquanleida, hrank, addSeat,
        losersOf, flag, prize, hpd, Option.map_some, Option.getD_some, add_assoc, and_self]

theorem sum_rank_zipWith {counts : List FinalCount} {pds : List PlayerData}
    (hlen : pds.length = counts.length) :
    ((List.zipWith addSeat counts pds).map (·.rank)).sum =
      (counts.map (·.rank)).sum + (pds.map (·.prize)).sum := by
  induction pds generalizing counts with
  | nil =>
      cases counts with
      | nil => rfl
      | cons count counts => cases hlen
  | cons pd pds ih =>
      cases counts with
      | nil => cases hlen
      | cons count counts =>
          simp only [List.zipWith_cons_cons, List.map_cons, List.sum_cons, addSeat,
            ih (by simpa using hlen)]
          ring

theorem sum_rank_foldl {sheet : List RoundSettleData} {counts : List FinalCount}
    (hlen : ∀ rsd ∈ sheet, rsd.players.length = counts.length)
    (hzero : ∀ rsd ∈ sheet, (rsd.players.map (·.prize)).sum = 0) :
    ((sheet.foldl (fun counts rsd => List.zipWith addSeat counts rsd.players) counts).map
      (·.rank)).sum = (counts.map (·.rank)).sum := by
  induction sheet generalizing counts with
  | nil => rfl
  | cons rsd sheet ih =>
      have hfirst := hlen rsd (by simp)
      rw [List.foldl_cons, ih (fun r hr => by simp [hlen r (by simp [hr]), hfirst])
        (fun r hr => hzero r (by simp [hr])), sum_rank_zipWith hfirst, hzero rsd (by simp),
        add_zero]

end Counting

section Rounds

/-- The loop comes to the pair `i`, `j` and finds all three comparisons won by `i`. -/
def Shoots (game : Game13) (i j : Nat) : Prop :=
  game.attr.daQiang ≠ 0 ∧ (roundSeat game i).spec = (roundSeat game j).spec ∧
    CrossSweeps (roundSeat game i) (roundSeat game j) ∧ Reached game.attr (roundSeat game) i j

instance (game : Game13) (i j : Nat) : Decidable (Shoots game i j) :=
  inferInstanceAs (Decidable (_ ∧ _ ∧ _ ∧ _))

/-- No seat shoots two opponents in one round. -/
def SingleShots (game : Game13) : Prop :=
  ∀ k < game.players.length, ∀ j < k, ∀ i < j, Shoots game i j → ¬ Shoots game i k

def CountsRight (game : Game13) : Prop := EarlierSeatsWin game ∧ SingleShots game

instance (game : Game13) : Decidable (CountsRight game) :=
  inferInstanceAs (Decidable (_ ∧ ∀ k < game.players.length, ∀ j < k, ∀ i < j, _ → ¬ _))

def RightRound (n : Nat) (rsd : RoundSettleData) : Prop :=
  ∃ table : Game13, table.players.length = n ∧ CountsRight table ∧
    rsd = withCards (round table) table.players

variable {game : Game13}

theorem mem_shot_round {i j : Nat} :
    j ∈ shot (round game) i ↔ i < j ∧ j < game.players.length ∧ Shoots game i j := by
  simp only [shot, Finset.mem_filter, Finset.mem_range, length_round, Option.any_eq_true]
  rcases Nat.lt_trichotomy i j with hij | rfl | hji
  · constructor
    · rintro ⟨hj, e, he, hflag⟩
      obtain ⟨-, hreached, hspec, hdq, -, rfl⟩ := (loser_of_lt game hij e).mp he
      refine ⟨hij, hj, hdq, hspec, ?_, hreached⟩
      by_contra hnot
      simp [hnot] at hflag
    · rintro ⟨-, hj, hdq, hspec, hsweeps, hreached⟩
      exact ⟨hj, _, (loser_of_lt game hij _).mpr
        ⟨hj, hreached, hspec, hdq, hsweeps.crossNet_pos.ne', rfl⟩, by simp [hsweeps]⟩
  · simp only [lt_irrefl, false_and, iff_false]
    rintro ⟨-, e, he, hflag⟩
    obtain ⟨rfl, -⟩ := (loser_self game i e).mp he
    simp at hflag
  · simp [loser_of_gt game hji, hji.not_gt]

theorem flag_cases {i : Nat} {item : Nat × (Int × Int)}
    (h : item ∈ (losersOf (round game) i).toList) : item.2.2 = 0 ∨ item.2.2 = 1 := by
  obtain ⟨j, e⟩ := item
  have he : loser (round game) i j = some e := Std.TreeMap.mem_toList_iff_getElem?_eq_some.mp h
  rcases Nat.lt_trichotomy i j with hij | rfl | hji
  · obtain ⟨-, -, -, -, -, rfl⟩ := (loser_of_lt game hij e).mp he
    show (if _ then _ else _) = _ ∨ (if _ then _ else _) = _
    split_ifs <;> simp
  · obtain ⟨rfl, -⟩ := (loser_self game i e).mp he
    exact Or.inl rfl
  · rw [loser_of_gt game hji] at he
    cases he

theorem anyDaqiang_eq {losers : LoserMap}
    (hflag : ∀ item ∈ losers.toList, item.2.2 = 0 ∨ item.2.2 = 1) :
    anyDaqiang losers = losers.toList.any fun item => item.2.2 ≠ 0 := by
  have hfold : ∀ (items : List (Nat × (Int × Int))) (b : Bool),
      (∀ item ∈ items, item.2.2 = 0 ∨ item.2.2 = 1) →
        items.foldl (fun daqiang item => decide (daqiang.toInt + item.2.2 ≠ 0)) b =
          (b || items.any fun item => item.2.2 ≠ 0) := by
    intro items
    induction items with
    | nil => simp
    | cons item items ih =>
        intro b hitems
        rw [List.foldl_cons, ih _ fun i hi => hitems i (by simp [hi]), List.any_cons]
        rcases hitems item (by simp) with h | h <;> cases b <;> simp [h]
  rw [anyDaqiang, hfold _ _ hflag, Bool.false_or]

theorem anyDaqiang_round (game : Game13) (i : Nat) :
    (anyDaqiang (losersOf (round game) i)).toInt =
      if (shot (round game) i).Nonempty then 1 else 0 := by
  have hiff : anyDaqiang (losersOf (round game) i) = true ↔ (shot (round game) i).Nonempty := by
    rw [anyDaqiang_eq fun item => flag_cases, List.any_eq_true]
    constructor
    · rintro ⟨⟨j, e⟩, hmem, hflag⟩
      have he : loser (round game) i j = some e :=
        Std.TreeMap.mem_toList_iff_getElem?_eq_some.mp hmem
      refine ⟨j, ?_⟩
      simp only [shot, Finset.mem_filter, Finset.mem_range, length_round, he]
      exact ⟨(loser_lt game he).2, hflag⟩
    · rintro ⟨j, hj⟩
      simp only [shot, Finset.mem_filter, Option.any_eq_true] at hj
      obtain ⟨-, e, he, hflag⟩ := hj
      exact ⟨(j, e), Std.TreeMap.mem_toList_iff_getElem?_eq_some.mpr he, hflag⟩
  by_cases h : (shot (round game) i).Nonempty
  · rw [if_pos h, hiff.mpr h]
    rfl
  · rw [if_neg h, Bool.eq_false_iff.mpr (hiff.not.mpr h)]
    rfl

theorem CountsRight.daqiang (h : CountsRight game) (i : Nat) :
    (anyDaqiang (losersOf (round game) i)).toInt = ((shot (round game) i).card : Int) := by
  have hcard : (shot (round game) i).card ≤ 1 := by
    rw [Finset.card_le_one]
    intro j hj k hk
    obtain ⟨hij, hjn, hj⟩ := mem_shot_round.mp hj
    obtain ⟨hik, hkn, hk⟩ := mem_shot_round.mp hk
    rcases Nat.lt_trichotomy j k with hjk | rfl | hkj
    · exact absurd hk (h.2 k hkn j hjk i hij hj)
    · rfl
    · exact absurd hj (h.2 j hjn k hkj i hik hk)
  rw [anyDaqiang_round]
  split_ifs with hne
  · have := hne.card_pos
    omega
  · simp [Finset.not_nonempty_iff_eq_empty.mp hne]

theorem CountsRight.win (h : CountsRight game) (i : Nat) :
    (losersOf (round game) i).size = (beaten (round game) i).card := by
  rw [beaten, length_round, Lib.Ledger.size_eq_card _ fun j hj => lt_of_mem_losersOf game hj]
  congr 1
  apply Finset.filter_congr
  intro j _
  rw [transfer_pos_iff h.1.price_pos h.1.noSelf]

end Rounds

section Sheet

theorem withCards_view {γ : Type} (g : PlayerData → γ)
    (hg : ∀ data cards, g { data with cards := cards } = g data) (game : Game13) :
    (withCards (round game) game.players).players.map g = (round game).players.map g := by
  apply List.ext_getElem
  · simp [withCards]
  · intro k hk hk'
    simp [withCards, hg]

variable {n : Nat} {rsd : RoundSettleData} {sheet : List RoundSettleData}

theorem losersOf_withCards (game : Game13) :
    losersOf (withCards (round game) game.players) = losersOf (round game) := by
  funext i
  simp only [losersOf, ← List.getElem?_map]
  rw [withCards_view (·.losers) (fun _ _ => rfl)]

theorem flag_withCards (game : Game13) :
    flag (withCards (round game) game.players) = flag (round game) := by
  funext i
  simp only [flag, ← List.getElem?_map]
  rw [withCards_view (·.quanLeiDa) (fun _ _ => rfl)]

theorem RightRound.spec (h : RightRound n rsd) :
    rsd.players.length = n ∧ (rsd.players.map (·.prize)).sum = 0 ∧
      ∀ i, ((losersOf rsd i).size : Int) = ((beaten rsd i).card : Int) ∧
        (anyDaqiang (losersOf rsd i)).toInt = ((shot rsd i).card : Int) := by
  obtain ⟨table, rfl, hright, rfl⟩ := h
  have hlen : (withCards (round table) table.players).players.length = table.players.length := by
    simp [withCards]
  have hloser : loser (withCards (round table) table.players) = loser (round table) := by
    funext i j
    rw [loser, losersOf_withCards, loser]
  have hbeaten : ∀ i,
      beaten (withCards (round table) table.players) i = beaten (round table) i := by
    intro i
    simp only [beaten, hlen, length_round, transfer, collected, hloser, flag_withCards]
  have hshot : ∀ i, shot (withCards (round table) table.players) i = shot (round table) i := by
    intro i
    simp only [shot, hlen, length_round, hloser]
  refine ⟨hlen, ?_, fun i => ?_⟩
  · rw [withCards_view (·.prize) (fun _ _ => rfl)]
    exact sum_prizes_round table
  · rw [losersOf_withCards, hbeaten, hshot, hright.win i, hright.daqiang i]
    exact ⟨rfl, rfl⟩

theorem cuids_of_allFinalCount {last : RoundSettleData}
    (hlen : ∀ rsd ∈ sheet ++ [last], rsd.players.length = n) {counts : List FinalCount}
    (h : allFinalCount n (sheet ++ [last]) = .ok counts) :
    counts.map (·.cuid) = last.players.map (·.cuid) := by
  have hstart : ∀ rsd ∈ sheet ++ [last],
      rsd.players.length = (List.replicate n ({} : FinalCount)).length :=
    fun rsd hrsd => by simpa using hlen rsd hrsd
  have hsheet : ∀ rsd ∈ sheet, rsd.players.length = (List.replicate n ({} : FinalCount)).length :=
    fun rsd hrsd => hstart rsd (List.mem_append_left _ hrsd)
  obtain rfl := foldlM_countRound_ok hstart h
  have hbefore := (foldl_addSeat hsheet).1
  rw [List.foldl_append, List.foldl_cons, List.foldl_nil]
  generalize sheet.foldl (fun counts rsd => List.zipWith addSeat counts rsd.players)
    (List.replicate n {}) = before at hbefore
  have hlast : last.players.length = before.length :=
    (hstart last (by simp)).trans hbefore.symm
  apply List.ext_getElem
  · simp [hlast]
  · intro k hk hk'
    simp [addSeat]

theorem exactCounts_of_right {cuids : List Cuid} (hright : ∀ rsd ∈ sheet, RightRound n rsd)
    {counts : List FinalCount} (h : allFinalCount n sheet = .ok counts)
    (hcuids : counts.map (·.cuid) = cuids) : ExactCounts cuids sheet counts := by
  have hlen : ∀ rsd ∈ sheet, rsd.players.length = (List.replicate n ({} : FinalCount)).length :=
    fun rsd hrsd => by simpa using (hright rsd hrsd).spec.1
  obtain rfl := foldlM_countRound_ok hlen h
  obtain ⟨-, hcounts⟩ := foldl_addSeat hlen
  have hsum := sum_rank_foldl hlen fun rsd hrsd => (hright rsd hrsd).spec.2.1
  refine ⟨?_, by simpa using hsum⟩
  rw [← hcuids]
  apply List.ext_getElem?
  intro i
  rw [List.getElem?_mapIdx, List.getElem?_map]
  cases hcount : (sheet.foldl (fun counts rsd => List.zipWith addSeat counts rsd.players)
      (List.replicate n {}))[i]? with
  | none => rfl
  | some count =>
      obtain ⟨start, hstart, hwin, hdaqiang, hquanleida, hrank⟩ := hcounts i count hcount
      have hzero : start = {} := by
        rw [List.getElem?_replicate] at hstart
        split_ifs at hstart
        exact (Option.some.inj hstart).symm
      subst hzero
      have hbeaten : (sheet.map fun rsd => ((losersOf rsd i).size : Int)) =
          sheet.map fun rsd => ((beaten rsd i).card : Int) :=
        List.map_congr_left fun rsd hrsd => ((hright rsd hrsd).spec.2.2 i).1
      have hshot : (sheet.map fun rsd => (anyDaqiang (losersOf rsd i)).toInt) =
          sheet.map fun rsd => ((shot rsd i).card : Int) :=
        List.map_congr_left fun rsd hrsd => ((hright rsd hrsd).spec.2.2 i).2
      obtain ⟨cuid, win, daqiang, quanleida, rank⟩ := count
      simp only [zero_add, hbeaten, hshot] at hwin hdaqiang hquanleida hrank
      simp only [Option.map_some, totals, hwin, hdaqiang, hquanleida, hrank]

end Sheet

section Runs

/-- A hand that completes a round completes one for which the counters come out right. -/
def RoundsRight (lobby : LobbyState) : Event → Prop
  | .bringOut ccid cards => ∀ game ∈ laidOut lobby ccid cards,
      everyoneCompare game = true → CountsRight game
  | _ => True

instance (lobby : LobbyState) (a : Event) : Decidable (RoundsRight lobby a) :=
  match a with
  | .bringOut ccid cards => inferInstanceAs (Decidable (∀ game ∈ laidOut lobby ccid cards,
      everyoneCompare game = true → CountsRight game))
  | .createGame .. | .jionGame .. | .giveUp .. | .voteFoAbortGame .. | .readyFlag ..
  | .timer .. | .sendChat .. | .loginQuest .. => .isTrue trivial

/-- Every room that is not closed has only right rounds on its score sheet. -/
structure SheetInv (lobby : LobbyState) : Prop where
  deck : DeckOk lobby.world.deck
  sheet : ∀ (roomId : RoomId) (game : Game13), lobby.rooms[roomId]? = some game →
    game.status ≠ .closed → ∀ rsd ∈ game.settleData, RightRound game.players.length rsd

theorem rightRound_settled {game : Game13} (h : CountsRight game)
    (hsheet : ∀ rsd ∈ game.settleData, RightRound game.players.length rsd) :
    ∀ rsd ∈ (settled game).settleData, RightRound game.players.length rsd := by
  intro rsd hrsd
  rcases List.mem_append.mp hrsd with hrsd | hrsd
  · exact hsheet rsd hrsd
  · exact ⟨game, rfl, h, List.mem_singleton.mp hrsd⟩

theorem SheetInv.step {lobby lobby' : LobbyState} {a : Event} (hinv : SheetInv lobby)
    (ha : lobby.Allowed a) (hright : RoundsRight lobby a) (h : lobby.step a = .ok lobby') :
    SheetInv lobby' := by
  have hspec := step_spec hinv.deck ha h
  refine ⟨hspec.deck, fun roomId game' hgame' hopen => ?_⟩
  have hchange := hspec.rooms roomId
  rw [hgame'] at hchange
  generalize hold : lobby.rooms[roomId]? = old at hchange
  cases hchange with
  | opens _ hempty => simp [hempty]
  | @moves game _ hmoves =>
      cases hmoves with
      | idle hsame hstatus =>
          have hopen' : game.status ≠ .closed := by
            rcases hstatus with heq | ⟨hin, -⟩
            · rwa [← heq]
            · rcases hin with hin | hin <;> simp [hin]
          rw [hsame.settleData, hsame.length]
          exact hinv.sheet roomId game hold hopen'
      | closes hclosed => exact absurd hclosed hopen
      | deals hprepare hdealt =>
          rw [hdealt.settleData, hdealt.length]
          exact hinv.sheet roomId game hold (by simp [hprepare])
  | @brings ccid cards game seat hand _ heq haccepts hbrought =>
      subst heq
      have hsheet := hinv.sheet roomId game hold (by simp [haccepts.play])
      have hlen : (LobbyState.storeHand game seat hand).players.length = game.players.length := by
        simp [LobbyState.storeHand, updateSeat]
      have hsheet' : ∀ rsd ∈ (LobbyState.storeHand game seat hand).settleData,
          RightRound (LobbyState.storeHand game seat hand).players.length rsd := by
        rw [hlen]
        exact hsheet
      have hcounts := hright _ haccepts.laidOut
      cases hbrought with
      | waits _ hsame =>
          subst hsame
          exact hsheet'
      | goesOn hall _ _ hdealt =>
          rw [hdealt.settleData, hdealt.length]
          exact rightRound_settled (hcounts hall) hsheet'
      | ends hall _ _ hsame _ =>
          rw [hsame.settleData, hsame.length]
          exact rightRound_settled (hcounts hall) hsheet'

theorem SheetInv.reaches {lobby : LobbyState} (h : lobbySystem.Reaches RoundsRight lobby) :
    SheetInv lobby := by
  refine h.invariant ?_ fun lobby a lobby' hinv ha hright hstep => hinv.step ha hright hstep
  rintro lobby ⟨rg, rfl⟩
  exact ⟨Or.inl rfl, fun roomId game hgame => by simp [LobbyState.start] at hgame⟩

/-- The clients at the seats are sent the counts. -/
def Announces (w w' : World) (cuids : List Cuid) (counts : List FinalCount) : Prop :=
  ∃ out, w'.sent = w.sent ++ out ∧ ∀ cuid ∈ cuids, ∀ client, w.getByCuid cuid = some client →
    .relay (w.client client).ccid (.allRounds counts) ∈ out

theorem announces_sendToSeats (w : World) (cuids : List Cuid) (counts : List FinalCount) :
    Announces w (w.sendToSeats cuids (.allRounds counts)) cuids counts := by
  induction cuids generalizing w with
  | nil => exact ⟨[], by simp [World.sendToSeats], by simp⟩
  | cons cuid cuids ih =>
      obtain ⟨out, hsent, hout⟩ := ih (w.sendToCuid cuid (.allRounds counts))
      have htells := (relays_sendToCuid w cuid (.allRounds counts)).said
      obtain ⟨first, hfirst, hclient⟩ : ∃ first,
          (w.sendToCuid cuid (.allRounds counts)).sent = w.sent ++ first ∧
            ∀ client, w.getByCuid cuid = some client →
              .relay (w.client client).ccid (.allRounds counts) ∈ first := by
        unfold World.sendToCuid
        cases w.getByCuid cuid with
        | none => exact ⟨[], by simp, by simp⟩
        | some p => exact ⟨_, rfl, by simp⟩
      refine ⟨first ++ out, ?_, ?_⟩
      · rw [← List.append_assoc, ← hfirst]
        exact hsent
      · intro cuid' hcuid' client hfound
        rcases List.mem_cons.mp hcuid' with rfl | hcuid'
        · exact List.mem_append_left _ (hclient client hfound)
        · have htold := hout cuid' hcuid' client (by
            rwa [World.getByCuid, htells.clients])
          rw [htells.client] at htold
          exact List.mem_append_right _ htold

theorem Announces.after {w w₁ w' : World} {cuids : List Cuid} {counts : List FinalCount}
    (hrelays : Relays w w₁) (h : Announces w₁ w' cuids counts) : Announces w w' cuids counts := by
  obtain ⟨said, rfl, -⟩ := hrelays
  obtain ⟨out, hsent, hout⟩ := h
  exact ⟨said ++ out, by rw [hsent, List.append_assoc], fun cuid hcuid client hfound =>
    List.mem_append_right _ (hout cuid hcuid client hfound)⟩

/-- A room is at its end when the last round of the hands on `table` is on its score sheet,
and its seats have been sent the counts. -/
def Ended (w w' : World) (table game' : Game13) : Prop :=
  game'.players = table.players ∧ game'.settleData = (settled table).settleData ∧
    ∃ counts, FinalCounts game' counts ∧ Announces w w' game'.cuids counts

theorem bringOutRoom_ended {w w' : World} {game game' : Game13} {seat : Nat} {hand : Hand}
    (hdeck : DeckOk w.deck) (hplay : game.status = .play) (hend : game'.status = .settleAll)
    (h : LobbyState.bringOutRoom w game seat hand = .ok (w', game')) :
    Ended w w' (LobbyState.storeHand game seat hand) game' := by
  obtain ⟨-, -, hbrought⟩ := bringOutRoom_spec hdeck hplay h
  have hplay' : (LobbyState.storeHand game seat hand).status = .play := hplay
  generalize htable : LobbyState.storeHand game seat hand = table at *
  cases hbrought with
  | waits _ hsame =>
      rw [hsame, hplay'] at hend
      cases hend
  | goesOn _ _ _ hdealt =>
      rw [hdealt.status] at hend
      cases hend
  | ends hall _ hrounds _ _ =>
      obtain ⟨⟨w₁, game₁⟩, hsettle, h⟩ := bind_eq_ok.mp h
      rw [htable] at hsettle
      obtain ⟨-, ⟨hmore, -⟩ | ⟨-, ⟨counts, hcounts, rfl⟩, rfl⟩⟩ :=
        trySettleGame_cases hplay' hall hsettle
      · omega
      · dsimp only at h
        rw [if_neg (by simp)] at h
        cases h
        have hseated : (settled table).cuids.filter (· ≠ 0) = table.cuids := by
          refine List.filter_eq_self.mpr fun cuid hcuid => ?_
          obtain ⟨info, hinfo, rfl⟩ := List.mem_map.mp hcuid
          have hset := List.all_eq_true.mp hall info hinfo
          simp only [Bool.and_eq_true] at hset
          exact hset.1
        refine ⟨rfl, rfl, counts, ⟨rfl, hcounts⟩, ?_⟩
        have hrelays : Relays w (afterRound (syncAllPlayersInfoToAllClients w table) table) :=
          (relays_sync w table).trans (relays_sendToSeats _ _ _)
        refine Announces.after hrelays ?_
        rw [sendToAll, hseated]
        exact announces_sendToSeats _ _ counts

theorem step_ended {lobby lobby' : LobbyState} {a : Event} (hdeck : DeckOk lobby.world.deck)
    (ha : lobby.Allowed a) (h : lobby.step a = .ok lobby') {roomId : RoomId} {game' : Game13}
    (hgame' : lobby'.rooms[roomId]? = some game') (hend : game'.status = .settleAll)
    (hnew : ∀ game ∈ lobby.rooms[roomId]?, game.status ≠ .settleAll) :
    ∃ table, Ended lobby.world lobby'.world table game' := by
  have hchange := (step_spec hdeck ha h).rooms roomId
  rw [hgame'] at hchange
  generalize hold : lobby.rooms[roomId]? = old at hchange hnew
  cases hchange with
  | opens hprepare _ =>
      rw [hprepare] at hend
      cases hend
  | @moves game _ hmoves =>
      have hgame := hnew game rfl
      cases hmoves with
      | idle _ hstatus =>
          rcases hstatus with heq | ⟨-, hin⟩
          · exact absurd (heq.symm.trans hend) hgame
          · exact absurd hend hin.ne_settleAll
      | closes hclosed =>
          rw [hclosed] at hend
          cases hend
      | deals _ hdealt =>
          rw [hdealt.status] at hend
          cases hend
  | @brings ccid cards game seat hand _ heq haccepts _ =>
      subst heq
      have hplay := haccepts.play
      rcases bringOut_cases lobby ccid cards with
        ⟨w, -, hbring⟩ | ⟨roomId₁, game₁, seat₁, hand₁, haccepts₁, hbring⟩
      · have heq := hbring.symm.trans h
        cases heq
        have hsame : lobby.rooms[roomId]? = some game' := hgame'
        rw [hold] at hsame
        cases hsame
        exact absurd hend (hnew _ rfl)
      · obtain ⟨⟨w, game₁'⟩, hroom, heq⟩ := bind_eq_ok.mp (hbring.symm.trans h)
        cases heq
        rw [getElem?_setRoom] at hgame'
        split_ifs at hgame' with hsame
        · cases hgame'
          exact ⟨_, bringOutRoom_ended hdeck haccepts₁.play hend hroom⟩
        · rw [hold] at hgame'
          cases hgame'
          exact absurd hend (hnew _ rfl)

theorem Ended.exactCounts {w w' : World} {table game' : Game13} (h : Ended w w' table game')
    (hright : ∀ rsd ∈ game'.settleData, RightRound game'.players.length rsd)
    {counts : List FinalCount} (hcounts : FinalCounts game' counts) :
    ExactCounts game'.cuids game'.settleData counts := by
  refine exactCounts_of_right hright hcounts.2 ?_
  have hcounts' := hcounts.2
  rw [h.2.1, settled] at hcounts'
  rw [h.2.1, settled] at hright
  rw [cuids_of_allFinalCount (fun rsd hrsd => (hright rsd hrsd).spec.1) hcounts',
    withCards_view (·.cuid) (fun _ _ => rfl), round_view table (·.cuid) (fun _ => rfl)
      fun _ _ => rfl, cuids, h.1]
  rfl

/-- The final counts a step sends are the exact counts of a room that comes to its end in it,
and every room that does so sends its exact counts to the clients at its seats. -/
structure SendsExactCounts (lobby lobby' : LobbyState) : Prop where
  sent : Sends (fun counts => ∃ (roomId : RoomId) (game game' : Game13),
    lobby.rooms[roomId]? = some game ∧ game.status = .play ∧
      lobby'.rooms[roomId]? = some game' ∧ game'.status = .settleAll ∧
        ExactCounts game'.cuids game'.settleData counts) lobby.world lobby'.world
  ended : ∀ (roomId : RoomId) (game' : Game13), lobby'.rooms[roomId]? = some game' →
    game'.status = .settleAll → (∀ game ∈ lobby.rooms[roomId]?, game.status ≠ .settleAll) →
      ∃ counts, ExactCounts game'.cuids game'.settleData counts ∧
        Announces lobby.world lobby'.world game'.cuids counts

/-- In every run in which each round that is settled is one for which the counters come
out right, the final counts of every game are exact. -/
theorem final_counts_exact {lobby lobby' : LobbyState} {a : Event}
    (h : lobbySystem.Reaches RoundsRight lobby) (ha : lobby.Allowed a)
    (hright : RoundsRight lobby a) (hstep : lobby.step a = .ok lobby') :
    SendsExactCounts lobby lobby' := by
  have hinv := SheetInv.reaches h
  have hinv' := hinv.step ha hright hstep
  refine ⟨(step_spec hinv.deck ha hstep).sent.mono ?_, ?_⟩
  · rintro counts ⟨roomId, game, game', hgame, hplay, hgame', hcounts⟩
    have hstatus := hcounts.1
    obtain ⟨table, hended⟩ := step_ended hinv.deck ha hstep hgame' hstatus (by simp [hgame, hplay])
    exact ⟨roomId, game, game', hgame, hplay, hgame', hstatus,
      hended.exactCounts (hinv'.sheet roomId game' hgame' (by simp [hstatus])) hcounts⟩
  · intro roomId game' hgame' hstatus hnew
    obtain ⟨table, hended⟩ := step_ended hinv.deck ha hstep hgame' hstatus hnew
    obtain ⟨-, -, counts, hcounts, hannounces⟩ := id hended
    exact ⟨counts,
      hended.exactCounts (hinv'.sheet roomId game' hgame' (by simp [hstatus])) hcounts, hannounces⟩

/-- A shuffle that leaves the deck in a given order. -/
def stacked (deck : List Card) : Shuffle where
  run cards := if deck.Perm cards then deck else cards
  perm cards := by
    split_ifs with h
    · exact h
    · exact List.Perm.refl cards

def deckOf (hands : List Hand) : List Card :=
  let dealt := hands.flatMap (·.1)
  dealt ++ (List.range' 1 52).filter (· ∉ dealt)

/-- The hand of the client that sat down after `index` others. -/
def layOut (index : Nat) (hand : Hand) : Event :=
  .bringOut (11 + index) (hand.1.map fun card => (card : Int))

/-- Clients `11`, `12`, ... play a game of one round with the given hands, of which the
last is not yet brought out. -/
def gameOf (hands : List Hand) : List Event :=
  let ccids := (List.range hands.length).map (11 + ·)
  ccids.map (fun ccid => .loginQuest ccid (toString ccid) "") ++
    [.createGame 11 ⟨hands.length, 52, 1, 10, 3, false, 1⟩] ++
    ccids.tail.map (fun ccid => .jionGame ccid 100001) ++
    ccids.map (fun ccid => .readyFlag ccid true) ++
    hands.dropLast.zipIdx.map fun hand => layOut hand.2 hand.1

def beforeLast (hands : List Hand) : LobbyState :=
  lobbySystem.after (LobbyState.start fun _ => stacked (deckOf hands)) (gameOf hands)

def afterLast (hands : List Hand) (last : Event) : LobbyState :=
  lobbySystem.after (beforeLast hands) [last]

theorem beforeLast_reaches {C : LobbyState → Event → Prop} {hands : List Hand}
    (h : lobbySystem.Fits C (LobbyState.start fun _ => stacked (deckOf hands)) (gameOf hands)) :
    lobbySystem.Reaches C (beforeLast hands) :=
  .after (.init ⟨_, rfl⟩) h

theorem step_eq_afterLast {hands : List Hand} {last : Event}
    (h : lobbySystem.fault (beforeLast hands) last = none) :
    (beforeLast hands).step last = .ok (afterLast hands last) :=
  System.step_eq_after h

theorem allowed_layOut (lobby : LobbyState) (index : Nat) (hand : Hand) :
    lobby.Allowed (layOut index hand) := trivial

/-- The first seat shoots both others and is credited with one shot. -/
theorem two_shots_counted_once :
    ¬ ∀ (lobby lobby' : LobbyState) (a : Event), lobbySystem.Reaches (fun _ _ => True) lobby →
      lobby.Allowed a → lobby.step a = .ok lobby' → SendsExactCounts lobby lobby' := by
  intro hall
  have hreached : lobbySystem.Reaches (fun _ _ => True)
      (beforeLast [strongHand, evenHand, weakHand]) :=
    beforeLast_reaches (by decide +kernel)
  have hstep : (beforeLast [strongHand, evenHand, weakHand]).step (layOut 2 weakHand) =
      .ok (afterLast [strongHand, evenHand, weakHand] (layOut 2 weakHand)) :=
    step_eq_afterLast (by decide +kernel)
  have hsent : Outgoing.relay 11
      (.allRounds [⟨1, 2, 1, 0, 12⟩, ⟨2, 0, 0, 0, -6⟩, ⟨3, 0, 0, 0, -6⟩]) ∈
      (afterLast [strongHand, evenHand, weakHand] (layOut 2 weakHand)).world.sent.drop
        (beforeLast [strongHand, evenHand, weakHand]).world.sent.length := by
    decide +kernel
  have hwrong : ∀ room ∈
      (afterLast [strongHand, evenHand, weakHand] (layOut 2 weakHand)).rooms.toList,
      ¬ ExactCounts room.2.cuids room.2.settleData
        [⟨1, 2, 1, 0, 12⟩, ⟨2, 0, 0, 0, -6⟩, ⟨3, 0, 0, 0, -6⟩] := by
    decide +kernel
  have hsends := hall _ _ _ hreached (allowed_layOut _ _ _) hstep
  generalize beforeLast [strongHand, evenHand, weakHand] = lobby at hsent hsends
  generalize afterLast [strongHand, evenHand, weakHand] (layOut 2 weakHand) = lobby' at *
  obtain ⟨out, hout, hexact⟩ := hsends.sent
  rw [hout, List.drop_left] at hsent
  obtain ⟨roomId, -, game', -, -, hgame', -, hcounts⟩ := hexact 11 _ hsent
  exact hwrong (roomId, game') (Std.TreeMap.mem_toList_iff_getElem?_eq_some.mpr hgame') hcounts

theorem final_counts_exact_two :
    SendsExactCounts (beforeLast [strongHand, weakHand])
      (afterLast [strongHand, weakHand] (layOut 1 weakHand)) := by
  have hright : RoundsRight (beforeLast [strongHand, weakHand]) (layOut 1 weakHand) := by
    decide +kernel
  exact final_counts_exact (beforeLast_reaches (by decide +kernel)) (allowed_layOut _ _ _) hright
    (step_eq_afterLast (by decide +kernel))

end Runs

end CasualGame.Lobby.AllRounds
