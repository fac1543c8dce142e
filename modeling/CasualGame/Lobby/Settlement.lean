import CasualGame.Lib.Ledger
import CasualGame.Lobby.PairLoop

/-!
The settlement loop of `calcRound` as a ledger of payments, and what one call of
`calcRound` computes: the entries of the pair loop, settled one by one.
-/

namespace CasualGame.Lobby.Settlement

open Deck
open Rules
open CalcRound
open PairLoop
open Lib.Loop
open Lib.Writes
open Lib.Ledger

theorem quanLeiDa_eq_false (attr : Attr) (losers : LoserMap) (size : Nat) :
    quanLeiDa attr losers size = false := by
  unfold quanLeiDa
  simp only
  split_ifs
  · have hbody : ∀ entry ∈ losers.toList, ∀ flag : Bool, flag = false →
        result (if entry.2.2 = 0 then .done false else .yield flag) = false := by
      intro entry _ flag hflag
      split_ifs
      · rfl
      · exact hflag
    exact forBreak_invariant hbody rfl
  · rfl

def seatTransfers (i : Nat) (losers : LoserMap) : List Transfer :=
  losers.toList.map fun entry => ⟨i, entry.1, settleAmount false entry.2⟩

def prizes (datas : List PlayerData) : List Int := datas.map (·.prize)

/-- Everything the settlement leaves alone. -/
def frame (datas : List PlayerData) : List PlayerData :=
  datas.map fun data => { data with prize := 0 }

theorem prizes_addPrize (k : Nat) (amount : Int) (datas : List PlayerData) :
    prizes (addPrize k amount datas) = (prizes datas).modify k (· + amount) :=
  map_modify_of_comp (by intro data; rfl) datas k

theorem frame_addPrize (k : Nat) (amount : Int) (datas : List PlayerData) :
    frame (addPrize k amount datas) = frame datas :=
  map_modify_of_eq (by intro data; rfl) datas k

theorem view_of_frame_eq {γ : Type} {datas datas' : List PlayerData}
    (h : frame datas = frame datas') (g : PlayerData → γ)
    (hg : ∀ data, g { data with prize := 0 } = g data) :
    datas.map g = datas'.map g := by
  have hmap := congrArg (List.map g) h
  simpa [frame, Function.comp_def, hg] using hmap

theorem foldl_addPrize (i : Nat) (entries : List (Nat × (Int × Int))) (datas : List PlayerData) :
    let settled := entries.foldl (fun datas entry =>
      addPrize entry.1 (-settleAmount false entry.2)
        (addPrize i (settleAmount false entry.2) datas)) datas
    prizes settled =
        applyAll (entries.map fun entry => ⟨i, entry.1, settleAmount false entry.2⟩)
          (prizes datas) ∧
      frame settled = frame datas := by
  induction entries generalizing datas with
  | nil => exact ⟨rfl, rfl⟩
  | cons entry entries ih =>
      obtain ⟨hprizes, hframe⟩ := ih (addPrize entry.1 (-settleAmount false entry.2)
        (addPrize i (settleAmount false entry.2) datas))
      refine ⟨hprizes.trans ?_, hframe.trans ?_⟩
      · rw [prizes_addPrize, prizes_addPrize]
        rfl
      · rw [frame_addPrize, frame_addPrize]

theorem settleSeat_spec (attr : Attr) {datas : List PlayerData} {i : Nat} {winner : PlayerData}
    (hflag : ∀ data ∈ datas, data.quanLeiDa = false) (hi : datas[i]? = some winner) :
    prizes (settleSeat attr datas i) = applyAll (seatTransfers i winner.losers) (prizes datas) ∧
      frame (settleSeat attr datas i) = frame datas := by
  have hset : (datas.modify i fun data => { data with quanLeiDa := false }) = datas :=
    modify_eq_self (fun data hdata => by simp [← hflag data hdata]) i
  simp only [settleSeat, hi, quanLeiDa_eq_false, hset]
  exact foldl_addPrize i winner.losers.toList datas

def roundTransfers (datas : List PlayerData) (is : List Nat) : List Transfer :=
  is.flatMap fun i => seatTransfers i (((datas[i]?).map (·.losers)).getD ∅)

theorem foldl_settleSeat (attr : Attr) {datas : List PlayerData}
    (hflag : ∀ data ∈ datas, data.quanLeiDa = false) {is : List Nat}
    (his : ∀ i ∈ is, i < datas.length) {ds : List PlayerData} (hds : frame ds = frame datas) :
    prizes (is.foldl (settleSeat attr) ds) = applyAll (roundTransfers datas is) (prizes ds) ∧
      frame (is.foldl (settleSeat attr) ds) = frame datas := by
  induction is generalizing ds with
  | nil => exact ⟨rfl, hds⟩
  | cons i is ih =>
      have hlen : ds.length = datas.length := by
        simpa [frame] using congrArg List.length hds
      have hi : i < ds.length := hlen ▸ his i (by simp)
      have hflag' : ∀ data ∈ ds, data.quanLeiDa = false := by
        have hview := view_of_frame_eq hds (·.quanLeiDa) fun _ => rfl
        have hall : ∀ b ∈ datas.map (·.quanLeiDa), b = false := by simpa using hflag
        rw [← hview] at hall
        simpa using hall
      have hlosers : ((datas[i]?).map (·.losers)).getD ∅ = ds[i].losers := by
        have hview := view_of_frame_eq hds (·.losers) fun _ => rfl
        rw [← List.getElem?_map, ← hview, List.getElem?_map, List.getElem?_eq_getElem hi]
        rfl
      obtain ⟨hprizes, hframe⟩ := settleSeat_spec attr hflag' (List.getElem?_eq_getElem hi)
      obtain ⟨ihp, ihf⟩ := ih (fun k hk => his k (by simp [hk])) (hframe.trans hds)
      refine ⟨?_, ihf⟩
      rw [List.foldl_cons, ihp, hprizes, ← hlosers]
      simp [roundTransfers, applyAll]

theorem settleLoop_spec (attr : Attr) {datas : List PlayerData}
    (hflag : ∀ data ∈ datas, data.quanLeiDa = false) :
    prizes (settleLoop attr datas) =
        applyAll (roundTransfers datas (List.range datas.length)) (prizes datas) ∧
      frame (settleLoop attr datas) = frame datas :=
  foldl_settleSeat attr hflag (by simp) rfl

section Round

def losersOf (rsd : RoundSettleData) (i : Nat) : LoserMap :=
  ((rsd.players[i]?).map (·.losers)).getD ∅

def loser (rsd : RoundSettleData) (i j : Nat) : Option (Int × Int) :=
  (losersOf rsd i)[j]?

def prize (rsd : RoundSettleData) (k : Nat) : Int :=
  ((rsd.players[k]?).map (·.prize)).getD 0

def flag (rsd : RoundSettleData) (k : Nat) : Bool :=
  ((rsd.players[k]?).map (·.quanLeiDa)).getD false

theorem mem_losersOf_iff {rsd : RoundSettleData} {i j : Nat} :
    j ∈ losersOf rsd i ↔ ∃ entry, loser rsd i j = some entry := by
  rw [Std.TreeMap.mem_iff_isSome_getElem?, Option.isSome_iff_exists]
  rfl

def collected (rsd : RoundSettleData) (i j : Nat) : Int :=
  (loser rsd i j).elim 0 (settleAmount (flag rsd i))

/-- The points that move to seat `i` from seat `j`. -/
def transfer (rsd : RoundSettleData) (i j : Nat) : Int :=
  collected rsd i j - collected rsd j i

theorem transfer_swap (rsd : RoundSettleData) (i j : Nat) :
    transfer rsd j i = -transfer rsd i j := by
  simp [transfer]

def HandsInRange (game : Game13) : Prop :=
  ∀ info ∈ game.players, ∀ card ∈ info.cards.1, InRange card

instance (game : Game13) : Decidable (HandsInRange game) :=
  inferInstanceAs (Decidable (∀ info ∈ game.players, ∀ card ∈ info.cards.1, InRange card))

def roundSeat (game : Game13) : Nat → Seat :=
  seatAt (game.players.map fun info => seatOf (playerData info))

/-- What `calcRound` returns on hands in range. -/
def round (game : Game13) : RoundSettleData :=
  ⟨settleLoop game.attr (pairLoop game.attr (game.players.map playerData))⟩

theorem mapM_fillPlayerData (infos : List PlayerInfo) :
    infos.mapM fillPlayerData =
      if ∀ info ∈ infos, ∀ card ∈ info.cards.1, InRange card then
        .ok (infos.map playerData)
      else .error .assertFailed := by
  induction infos with
  | nil => rfl
  | cons info infos ih =>
      rw [List.mapM_cons, ih]
      by_cases hinfo : ∀ card ∈ info.cards.1, InRange card
      · by_cases hinfos : ∀ info ∈ infos, ∀ card ∈ info.cards.1, InRange card
        · rw [if_pos hinfos, if_pos (by simpa using ⟨hinfo, hinfos⟩), fillPlayerData,
            if_pos hinfo]
          rfl
        · rw [if_neg hinfos, if_neg (fun h => hinfos fun i hi => h i (by simp [hi])),
            fillPlayerData, if_pos hinfo]
          rfl
      · have hcons : ¬ ∀ i ∈ info :: infos, ∀ card ∈ i.cards.1, InRange card :=
          fun h => hinfo (h info (by simp))
        rw [if_neg hcons, fillPlayerData, if_neg hinfo]
        rfl

theorem calcRound_eq (game : Game13) :
    calcRound game =
      if HandsInRange game then .ok (round game, game) else .error .assertFailed := by
  rw [calcRound, mapM_fillPlayerData]
  by_cases h : HandsInRange game
  · rw [if_pos h]
    exact if_pos h ▸ rfl
  · rw [if_neg h]
    exact if_neg h ▸ rfl

theorem calcRound_of_inRange {game : Game13} (h : HandsInRange game) :
    calcRound game = .ok (round game, game) := by
  rw [calcRound_eq, if_pos h]

theorem calcRound_ok {game game' : Game13} {rsd : RoundSettleData}
    (h : calcRound game = .ok (rsd, game')) :
    HandsInRange game ∧ rsd = round game ∧ game' = game := by
  rw [calcRound_eq] at h
  split_ifs at h with hrange
  · injection h with h
    obtain ⟨rfl, rfl⟩ := Prod.mk.inj h
    exact ⟨hrange, rfl, rfl⟩

section

variable (game : Game13)

def paired : List PlayerData := pairLoop game.attr (game.players.map playerData)

theorem paired_view {γ : Type} (g : PlayerData → γ)
    (hg : ∀ data losers, g { data with losers := losers } = g data) :
    (paired game).map g = game.players.map fun info => g (playerData info) := by
  have hputs : ∀ (ws : List ((Nat × Nat) × (Int × Int))) (ds : List PlayerData),
      (((loserStore ((game.players.map playerData).map seatOf)).putAll ds ws)).map g =
        ds.map g := by
    intro ws
    induction ws with
    | nil => intro ds; rfl
    | cons w ws ih =>
        intro ds
        exact (ih _).trans (map_modify_of_eq (by intro data; exact hg data _) ds w.1.1)
  rw [paired, pairLoop_eq, hputs, List.map_map]
  rfl

@[simp] theorem length_paired : (paired game).length = game.players.length := by
  simpa using congrArg List.length (paired_view game seatOf fun _ _ => rfl)

theorem paired_flag : ∀ data ∈ paired game, data.quanLeiDa = false := by
  have hview := paired_view game (·.quanLeiDa) fun _ _ => rfl
  have hall : ∀ b ∈ game.players.map fun info => (playerData info).quanLeiDa, b = false := by
    simp [playerData]
  rw [← hview] at hall
  simpa using hall

theorem round_frame : frame (round game).players = frame (paired game) :=
  (settleLoop_spec game.attr (paired_flag game)).2

theorem round_view {γ : Type} (g : PlayerData → γ)
    (hprize : ∀ data, g { data with prize := 0 } = g data)
    (hlosers : ∀ data losers, g { data with losers := losers } = g data) :
    (round game).players.map g = game.players.map fun info => g (playerData info) :=
  (view_of_frame_eq (round_frame game) g hprize).trans (paired_view game g hlosers)

@[simp] theorem length_round : (round game).players.length = game.players.length := by
  simpa [frame] using congrArg List.length (round_frame game)

@[simp] theorem flag_round (k : Nat) : flag (round game) k = false := by
  have hview := round_view game (·.quanLeiDa) (fun _ => rfl) fun _ _ => rfl
  rw [flag, ← List.getElem?_map, hview]
  simp only [playerData, List.map_const', List.getElem?_replicate]
  split_ifs <;> rfl

theorem losersOf_round (i : Nat) :
    losersOf (round game) i = (((paired game)[i]?).map (·.losers)).getD ∅ := by
  have hview := view_of_frame_eq (round_frame game) (·.losers) fun _ => rfl
  rw [losersOf, ← List.getElem?_map, hview, List.getElem?_map]

theorem loser_round (i j : Nat) (e : Int × Int) :
    loser (round game) i j = some e ↔
      ((i, j), e) ∈ roundWrites game.attr (roundSeat game) game.players.length := by
  have hlook : loser (round game) i j =
      (loserStore ((game.players.map playerData).map seatOf)).look (paired game) (i, j) := by
    rw [loser, losersOf_round]
    simp only [loserStore]
    cases (paired game)[i]? <;> simp
  rw [hlook, paired, pairLoop_eq, Store.look_putAll_of_empty]
  · simp [roundSeat, Function.comp_def]
  · intro w hw
    show w.1.1 < _
    simpa using (roundWrites_dom w hw).1
  · exact roundWrites_agree
  · rfl
  · intro key
    simp only [loserStore, List.getElem?_map]
    cases game.players[key.1]? with
    | none => rfl
    | some info => simp [playerData]

theorem loser_lt {i j : Nat} {e : Int × Int} (h : loser (round game) i j = some e) :
    i < game.players.length ∧ j < game.players.length :=
  roundWrites_dom _ ((loser_round game i j e).mp h)

theorem lt_of_mem_losersOf {i j : Nat} (h : j ∈ losersOf (round game) i) :
    j < game.players.length := by
  obtain ⟨e, he⟩ := Option.isSome_iff_exists.mp (Std.TreeMap.mem_iff_isSome_getElem?.mp h)
  exact (loser_lt game he).2

theorem roundTransfers_paired (is : List Nat) :
    roundTransfers (paired game) is =
      is.flatMap fun i => seatTransfers i (losersOf (round game) i) := by
  simp only [roundTransfers, losersOf_round]

theorem prizes_round :
    prizes (round game).players =
      applyAll (roundTransfers (paired game) (List.range game.players.length))
        (List.replicate game.players.length 0) := by
  have hstart : prizes (paired game) = List.replicate game.players.length 0 := by
    rw [prizes, paired_view game (·.prize) fun _ _ => rfl]
    simp [playerData]
  rw [← hstart, ← length_paired game]
  exact (settleLoop_spec game.attr (paired_flag game)).1

theorem roundTransfers_valid :
    ∀ t ∈ roundTransfers (paired game) (List.range game.players.length),
      t.payee < game.players.length ∧ t.payer < game.players.length := by
  intro t ht
  rw [roundTransfers_paired] at ht
  simp only [List.mem_flatMap, List.mem_range, seatTransfers, List.mem_map] at ht
  obtain ⟨i, hi, ⟨l, e⟩, hle, rfl⟩ := ht
  have he : loser (round game) i l = some e :=
    Std.TreeMap.mem_toList_iff_getElem?_eq_some.mp hle
  exact loser_lt game he

theorem sum_prizes_round : (prizes (round game).players).sum = 0 := by
  rw [prizes_round, sum_applyAll (by simpa using roundTransfers_valid game)]
  simp

theorem prize_round {k : Nat} (hk : k < game.players.length) :
    prize (round game) k =
      ∑ j ∈ Finset.range game.players.length, transfer (round game) k j := by
  set n := game.players.length with hn
  have hseat : ∀ i, ((seatTransfers i (losersOf (round game) i)).map (·.net k)).sum =
      ∑ j ∈ Finset.range n, ((if i = k then collected (round game) i j else 0) -
        (if j = k then collected (round game) i j else 0)) := by
    intro i
    rw [seatTransfers, List.map_map]
    refine (sum_toList_map (losersOf (round game) i) (n := n)
      (fun j hj => lt_of_mem_losersOf game hj)
      (fun j e => Transfer.net ⟨i, j, settleAmount false e⟩ k)).trans ?_
    apply Finset.sum_congr rfl
    intro j _
    rw [collected, flag_round, loser]
    cases (losersOf (round game) i)[j]? <;> simp [Transfer.net]
  have hget : (prizes (round game).players)[k]? =
      some (((roundTransfers (paired game) (List.range n)).map (·.net k)).sum) := by
    rw [prizes_round, getElem?_applyAll, List.getElem?_replicate, if_pos hk]
    simp [hn]
  have hprize : prize (round game) k =
      ((roundTransfers (paired game) (List.range n)).map (·.net k)).sum := by
    rw [prize, ← List.getElem?_map]
    show ((prizes (round game).players)[k]?).getD 0 = _
    rw [hget, Option.getD_some]
  calc
    prize (round game) k =
        ∑ i ∈ Finset.range n, ((seatTransfers i (losersOf (round game) i)).map (·.net k)).sum := by
      rw [hprize, roundTransfers_paired, List.map_flatMap, List.flatMap_def, List.sum_flatten,
        List.map_map, ← List.toFinset_range, List.sum_toFinset _ List.nodup_range]
      rfl
    _ = ∑ j ∈ Finset.range n, collected (round game) k j -
          ∑ i ∈ Finset.range n, collected (round game) i k := by
      simp only [hseat, Finset.sum_sub_distrib]
      congr 1
      · rw [Finset.sum_comm]
        apply Finset.sum_congr rfl
        intro j _
        simp [hk]
      · apply Finset.sum_congr rfl
        intro i _
        simp [hk]
    _ = ∑ j ∈ Finset.range n, transfer (round game) k j := by
      rw [← Finset.sum_sub_distrib]
      rfl

end

end Round

end CasualGame.Lobby.Settlement
