import Mathlib.Algebra.Order.BigOperators.Group.Finset
import CasualGame.Lib.Writes
import CasualGame.Lobby.CalcRound
import CasualGame.Lobby.Rules

/-!
What the pair loop of `calcRound` writes into the losers maps. A pass for two
seats either breaks the row of the earlier seat or makes at most one entry, and
both are decided by the two seats alone; the loop is then the table of the
entries of the pairs it reaches.
-/

namespace CasualGame.Lobby.PairLoop

open Deck
open Rules
open CalcRound
open Lib.Loop
open Lib.Writes

def seatOf (data : PlayerData) : Seat := ⟨data.dun, data.spec⟩

@[simp] theorem seatOf_dun (data : PlayerData) : (seatOf data).dun = data.dun := rfl

@[simp] theorem seatOf_spec (data : PlayerData) : (seatOf data).spec = data.spec := rfl

/-- The comparisons `calcRound` makes, which set the middle row of `P` against
the tail row of `Q` twice. -/
def crossSign (P Q : Seat) : Fin 3 → Int :=
  ![rowSign (P.dun 0) (Q.dun 0), rowSign (P.dun 1) (Q.dun 2), rowSign (P.dun 1) (Q.dun 2)]

def crossScore (P Q : Seat) (d : Fin 3) : Int :=
  score d (crossSign P Q d) (P.dun d).b (Q.dun d).b

def crossNet (P Q : Seat) : Int := ∑ d, crossScore P Q d

def CrossSweeps (P Q : Seat) : Prop := ∀ d, crossSign P Q d = 1

instance (P Q : Seat) : Decidable (CrossSweeps P Q) :=
  inferInstanceAs (Decidable (∀ d, crossSign P Q d = 1))

section Body

def extraOf (rules : List ExtraRule) (d : Fin 3) (b : Brand) : Int :=
  ((rules.filter fun rule => rule.d = d ∧ rule.brand = b).map (·.extra)).sum

theorem extraOf_cons (rule : ExtraRule) (rules : List ExtraRule) (d : Fin 3) (b : Brand) :
    extraOf (rule :: rules) d b =
      (if rule.d = d ∧ rule.brand = b then rule.extra else 0) + extraOf rules d b := by
  unfold extraOf
  by_cases h : rule.d = d ∧ rule.brand = b
  · simp [h]
  · rw [List.filter_cons_of_neg (by simpa using h), if_neg h, zero_add]

theorem extraOf_extraRules (d : Fin 3) (b : Brand) : extraOf extraRules d b = bonus d b := by
  fin_cases d <;> cases b <;> rfl

theorem applyExtra_apply (cmps : Fin 3 → Nat) (dataI dataJ : PlayerData)
    (prize : Fin 3 → Int) (rule : ExtraRule) (d : Fin 3) :
    applyExtra cmps dataI dataJ prize rule d =
      prize d +
        (if cmps d = 1 then (if rule.d = d ∧ rule.brand = (dataI.dun d).b then rule.extra else 0)
        else if cmps d = 2 then
          -(if rule.d = d ∧ rule.brand = (dataJ.dun d).b then rule.extra else 0)
        else 0) := by
  unfold applyExtra
  by_cases hd : rule.d = d
  · subst hd
    by_cases h1 : cmps rule.d = 1
    · by_cases hb : (dataI.dun rule.d).b = rule.brand
      · simp [h1, hb]
      · simp [h1, hb, Ne.symm hb]
    · by_cases h2 : cmps rule.d = 2
      · by_cases hb : (dataJ.dun rule.d).b = rule.brand
        · simp [h2, hb, sub_eq_add_neg]
        · simp [h2, hb, Ne.symm hb]
      · simp [h1, h2]
  · have hd' : d ≠ rule.d := Ne.symm hd
    simp only [hd, false_and, if_false, neg_zero, ite_self, add_zero]
    split_ifs <;> simp [Function.update_of_ne hd']

theorem foldl_applyExtra (cmps : Fin 3 → Nat) (dataI dataJ : PlayerData)
    (rules : List ExtraRule) (prize : Fin 3 → Int) (d : Fin 3) :
    rules.foldl (applyExtra cmps dataI dataJ) prize d =
      prize d +
        (if cmps d = 1 then extraOf rules d (dataI.dun d).b
        else if cmps d = 2 then -extraOf rules d (dataJ.dun d).b
        else 0) := by
  induction rules generalizing prize with
  | nil => simp [extraOf]
  | cons rule rules ih =>
      rw [List.foldl_cons, ih, applyExtra_apply, extraOf_cons, extraOf_cons]
      split_ifs <;> ring

theorem dunPrize_eq (dataI dataJ : PlayerData) (d : Fin 3) :
    dunPrize dataI dataJ d = crossScore (seatOf dataI) (seatOf dataJ) d := by
  have hsign : ∀ bi1 bi2 : BrandInfo,
      (cmpBrandInfo bi1 bi2 = 1 ∧ rowSign bi1 bi2 = 1) ∨
        (cmpBrandInfo bi1 bi2 = 2 ∧ rowSign bi1 bi2 = -1) ∨
        (cmpBrandInfo bi1 bi2 = 0 ∧ rowSign bi1 bi2 = 0) := by
    intro bi1 bi2
    rcases cmpBrandInfo_cases bi1 bi2 with h | h | h <;> simp [rowSign, h]
  have hd : (dunCmps dataI dataJ d = 1 ∧ crossSign (seatOf dataI) (seatOf dataJ) d = 1) ∨
      (dunCmps dataI dataJ d = 2 ∧ crossSign (seatOf dataI) (seatOf dataJ) d = -1) ∨
      (dunCmps dataI dataJ d = 0 ∧ crossSign (seatOf dataI) (seatOf dataJ) d = 0) := by
    fin_cases d <;> exact hsign _ _
  rw [dunPrize, foldl_applyExtra, crossScore, score, extraOf_extraRules, extraOf_extraRules]
  rcases hd with ⟨hc, hs⟩ | ⟨hc, hs⟩ | ⟨hc, hs⟩
  · simp [hc, hs]
  · simp [hc, hs]
    ring
  · simp [hc, hs]

theorem dunPrize_sum (dataI dataJ : PlayerData) :
    dunPrize dataI dataJ 0 + dunPrize dataI dataJ 1 + dunPrize dataI dataJ 2 =
      crossNet (seatOf dataI) (seatOf dataJ) := by
  simp [crossNet, Fin.sum_univ_three, dunPrize_eq]

theorem dunPrize_pos_iff (dataI dataJ : PlayerData) :
    (0 < dunPrize dataI dataJ 0 ∧ 0 < dunPrize dataI dataJ 1 ∧ 0 < dunPrize dataI dataJ 2) ↔
      CrossSweeps (seatOf dataI) (seatOf dataJ) := by
  simp [dunPrize_eq, crossScore, score_pos_iff, CrossSweeps, Fin.forall_fin_succ]

theorem abs_crossNet_le (P Q : Seat) : |crossNet P Q| ≤ 33 := by
  calc
    |crossNet P Q| ≤ ∑ d, |crossScore P Q d| := Finset.abs_sum_le_sum_abs _ _
    _ ≤ ∑ d, (1 + ![2, 19, 9] d) := Finset.sum_le_sum fun d _ => abs_score_le _ _ _ _
    _ = 33 := by decide

theorem toInt32_toUInt32 {x : Int} (hx : |x| ≤ 33) : toInt32 (toUInt32 x) = x := by
  rw [abs_le] at hx
  unfold toInt32 toUInt32
  split_ifs <;> omega

theorem toUInt32_eq_zero_iff {x : Int} (hx : |x| ≤ 33) : toUInt32 x = 0 ↔ x = 0 := by
  rw [abs_le] at hx
  unfold toUInt32
  omega

/-- The pass for two seats leaves the row of the earlier one. -/
def Cuts (attr : Attr) (P Q : Seat) : Prop :=
  P.spec = Q.spec ∧ attr.daQiang ≠ 0 ∧ crossNet P Q = 0

instance (attr : Attr) (P Q : Seat) : Decidable (Cuts attr P Q) :=
  inferInstanceAs (Decidable (P.spec = Q.spec ∧ attr.daQiang ≠ 0 ∧ crossNet P Q = 0))

/-- The entry the pass for seats `i` and `j` makes, under (winner, loser). A
special brand wins its own seat number. -/
def pairWrite (attr : Attr) (i j : Nat) (P Q : Seat) : Option ((Nat × Nat) × (Int × Int)) :=
  if P.spec = Q.spec then
    if attr.daQiang ≠ 0 ∧ crossNet P Q ≠ 0 then
      some ((i, j), (crossNet P Q, if CrossSweeps P Q then 1 else 0))
    else none
  else if strength Q < strength P then some ((i, i), (specialPrize P.spec, 0))
  else if strength P < strength Q then some ((j, j), (specialPrize Q.spec, 0))
  else none

def write (datas : List PlayerData) : Option ((Nat × Nat) × (Int × Int)) → List PlayerData
  | some (key, entry) => setLoser key.1 key.2 entry datas
  | none => datas

theorem specPrize_eq (spec : G13SpecialBrand) : specPrize spec = specialPrize spec := by
  cases spec <;> rfl

theorem CrossSweeps.crossNet_pos {P Q : Seat} (h : CrossSweeps P Q) : 0 < crossNet P Q := by
  refine Finset.sum_pos (fun d _ => ?_) ⟨0, by simp⟩
  exact (score_pos_iff ..).mpr (h d)

theorem specialPass_eq (i j : Nat) (dataI dataJ : PlayerData) (datas : List PlayerData)
    (hspec : dataI.spec ≠ dataJ.spec) (attr : Attr) :
    specialPass i j dataI dataJ datas =
      .yield (write datas (pairWrite attr i j (seatOf dataI) (seatOf dataJ))) := by
  simp only [specialPass, pairWrite, seatOf_spec, hspec, if_false, strength, specCmpValue,
    ← specPrize_eq]
  rcases Nat.lt_trichotomy (dataI.spec.value % 10) (dataJ.spec.value % 10) with h | h | h
  · simp [h, h.ne, h.not_gt, write]
  · simp [h, write]
  · simp [h, h.ne', write]

theorem ordinaryPass_eq (i j : Nat) (dataI dataJ : PlayerData) (datas : List PlayerData)
    (hspec : dataI.spec = dataJ.spec) (attr : Attr) :
    ordinaryPass attr i j dataI dataJ datas =
      if ¬ Cuts attr (seatOf dataI) (seatOf dataJ) then
        .yield (write datas (pairWrite attr i j (seatOf dataI) (seatOf dataJ)))
      else .done datas := by
  have hbound := abs_crossNet_le (seatOf dataI) (seatOf dataJ)
  have hzero := toUInt32_eq_zero_iff hbound
  have hback := toInt32_toUInt32 hbound
  simp only [ordinaryPass, dunPrize_sum, dunPrize_pos_iff, pairWrite, Cuts, seatOf_spec, hspec,
    if_true, true_and, hback, hzero]
  by_cases hdq : attr.daQiang = 0
  · simp [hdq, write]
  · by_cases hsweep : CrossSweeps (seatOf dataI) (seatOf dataJ)
    · simp [hdq, hsweep, hsweep.crossNet_pos.ne', write]
    · by_cases hnet : crossNet (seatOf dataI) (seatOf dataJ) = 0
      · simp [hdq, hsweep, hnet]
      · have hpos : 0 < toUInt32 (crossNet (seatOf dataI) (seatOf dataJ)) :=
          Nat.pos_of_ne_zero (hzero.not.mpr hnet)
        simp [hdq, hsweep, hnet, hpos, write]

theorem pairPass_eq (attr : Attr) {i j : Nat} {datas : List PlayerData}
    {dataI dataJ : PlayerData} (hi : datas[i]? = some dataI) (hj : datas[j]? = some dataJ) :
    pairPass attr i j datas =
      if ¬ Cuts attr (seatOf dataI) (seatOf dataJ) then
        .yield (write datas (pairWrite attr i j (seatOf dataI) (seatOf dataJ)))
      else .done datas := by
  simp only [pairPass, hi, hj]
  by_cases hspec : dataI.spec = dataJ.spec
  · rw [if_neg (by simpa using hspec), ordinaryPass_eq i j dataI dataJ datas hspec attr]
  · rw [if_pos hspec, specialPass_eq i j dataI dataJ datas hspec attr, if_pos]
    exact fun h => hspec h.1

end Body

section Loop

def seatAt (seats : List Seat) (k : Nat) : Seat := seats.getD k default

theorem seatAt_eq {seats : List Seat} {k : Nat} {P : Seat} (h : seats[k]? = some P) :
    seatAt seats k = P := by
  simp [seatAt, List.getD_eq_getElem?_getD, h]

/-- The loop over `j` comes to the pair `i`, `j`: no seat between them cut the row. -/
def Reached (attr : Attr) (seat : Nat → Seat) (i j : Nat) : Prop :=
  ∀ k, i < k → k < j → ¬ Cuts attr (seat i) (seat k)

instance (attr : Attr) (seat : Nat → Seat) (i j : Nat) : Decidable (Reached attr seat i j) :=
  inferInstanceAs (Decidable (∀ k, i + 1 ≤ k → k < j → ¬ Cuts attr (seat i) (seat k)))

theorem Reached.next (attr : Attr) (seat : Nat → Seat) (i : Nat) :
    Reached attr seat i (i + 1) := by
  intro k hk hk'
  omega

/-- The losers maps as one store keyed by winner and loser. The rows and special
brands of the seats stay as they are. -/
def loserStore (seats : List Seat) : Store (List PlayerData) (Nat × Nat) (Int × Int) where
  Inv datas := datas.map seatOf = seats
  Dom key := key.1 < seats.length
  look datas key := datas[key.1]?.bind fun data => data.losers[key.2]?
  put datas key entry := setLoser key.1 key.2 entry datas
  put_inv := by
    intro datas key entry hinv _
    exact (map_modify_of_eq (by intro data; rfl) datas key.1).trans hinv
  look_put := by
    intro datas key entry key' hinv hdom
    have hlen : key.1 < datas.length := by
      simpa [← hinv] using hdom
    obtain ⟨w, l⟩ := key
    obtain ⟨w', l'⟩ := key'
    simp only [setLoser, List.getElem?_modify]
    by_cases hw : w = w'
    · subst hw
      simp only [List.getElem?_eq_getElem hlen, Prod.mk.injEq, true_and, if_true,
        Option.map_eq_map, Option.map_some, Option.bind_some, Std.TreeMap.getElem?_insert,
        compare_eq_iff_eq]
      by_cases hl : l = l'
      · rw [if_pos hl, if_pos hl.symm]
      · rw [if_neg hl, if_neg (Ne.symm hl)]
    · have hkey : ¬ ((w', l') = (w, l)) := by
        simp [Ne.symm hw]
      rw [if_neg hkey]
      cases datas[w']? <;> simp [hw]

def rowWrites (attr : Attr) (seat : Nat → Seat) (n i : Nat) :
    List ((Nat × Nat) × (Int × Int)) :=
  ((List.range' (i + 1) (n - (i + 1))).takeWhile fun k => ¬ Cuts attr (seat i) (seat k)).filterMap
    fun j => pairWrite attr i j (seat i) (seat j)

def roundWrites (attr : Attr) (seat : Nat → Seat) (n : Nat) :
    List ((Nat × Nat) × (Int × Int)) :=
  (List.range n).flatMap (rowWrites attr seat n)

theorem Cuts.pairWrite_eq {attr : Attr} {P Q : Seat} (h : Cuts attr P Q) (i j : Nat) :
    pairWrite attr i j P Q = none := by
  simp [pairWrite, h.1, h.2.2]

theorem mem_rowWrites {attr : Attr} {seat : Nat → Seat} {n i : Nat}
    {w : (Nat × Nat) × (Int × Int)} :
    w ∈ rowWrites attr seat n i ↔
      ∃ j, i < j ∧ j < n ∧ Reached attr seat i j ∧
        pairWrite attr i j (seat i) (seat j) = some w := by
  simp only [rowWrites, List.mem_filterMap, mem_takeWhile_range', decide_eq_true_eq]
  constructor
  · rintro ⟨j, ⟨hij, hjn, hall⟩, hw⟩
    exact ⟨j, by omega, by omega, fun k hk hk' => hall k (by omega) (by omega), hw⟩
  · rintro ⟨j, hij, hjn, hreached, hw⟩
    refine ⟨j, ⟨by omega, by omega, fun k hk hk' => ?_⟩, hw⟩
    rcases Nat.eq_or_lt_of_le hk' with rfl | hk'
    · intro hcut
      simp [hcut.pairWrite_eq] at hw
    · exact hreached k (by omega) hk'

theorem mem_roundWrites {attr : Attr} {seat : Nat → Seat} {n : Nat}
    {w : (Nat × Nat) × (Int × Int)} :
    w ∈ roundWrites attr seat n ↔
      ∃ i j, i < j ∧ j < n ∧ Reached attr seat i j ∧
        pairWrite attr i j (seat i) (seat j) = some w := by
  simp only [roundWrites, List.mem_flatMap, List.mem_range, mem_rowWrites]
  constructor
  · rintro ⟨i, _, j, h⟩
    exact ⟨i, j, h⟩
  · rintro ⟨i, j, hij, hjn, h⟩
    exact ⟨i, by omega, j, hij, hjn, h⟩

theorem pairWrite_eq_some {attr : Attr} {i j : Nat} {P Q : Seat} {a b : Nat} {e : Int × Int} :
    pairWrite attr i j P Q = some ((a, b), e) ↔
      (P.spec = Q.spec ∧ attr.daQiang ≠ 0 ∧ crossNet P Q ≠ 0 ∧ a = i ∧ b = j ∧
          e = (crossNet P Q, if CrossSweeps P Q then 1 else 0)) ∨
        (strength Q < strength P ∧ a = i ∧ b = i ∧ e = (specialPrize P.spec, 0)) ∨
        (strength P < strength Q ∧ a = j ∧ b = j ∧ e = (specialPrize Q.spec, 0)) := by
  unfold pairWrite
  by_cases hspec : P.spec = Q.spec
  · have hstrength : strength P = strength Q := by
      rw [strength, strength, hspec]
    simp only [hspec, if_true, hstrength, lt_irrefl, false_and, or_false, true_and]
    by_cases h : attr.daQiang ≠ 0 ∧ crossNet P Q ≠ 0
    · rw [if_pos h]
      simp only [Option.some.injEq, Prod.mk.injEq]
      tauto
    · rw [if_neg h]
      simp only [reduceCtorEq, false_iff]
      tauto
  · simp only [hspec, if_false, false_and, false_or]
    split_ifs with h h'
    · have := h.not_gt
      simp only [Option.some.injEq, Prod.mk.injEq, h, this, true_and, false_and, or_false]
      tauto
    · simp only [Option.some.injEq, Prod.mk.injEq, h, h', true_and, false_and, false_or]
      tauto
    · simp [h, h']

theorem roundWrites_dom {attr : Attr} {seat : Nat → Seat} {n : Nat} :
    ∀ w ∈ roundWrites attr seat n, w.1.1 < n ∧ w.1.2 < n := by
  rintro ⟨⟨a, b⟩, e⟩ hw
  obtain ⟨i, j, hij, hjn, -, hw⟩ := mem_roundWrites.mp hw
  show a < n ∧ b < n
  rcases pairWrite_eq_some.mp hw with h | h | h <;> omega

theorem roundWrites_agree {attr : Attr} {seat : Nat → Seat} {n : Nat} :
    ∀ w ∈ roundWrites attr seat n, ∀ w' ∈ roundWrites attr seat n, w.1 = w'.1 → w.2 = w'.2 := by
  have hvalue : ∀ a b e, ((a, b), e) ∈ roundWrites attr seat n →
      e = if a = b then (specialPrize (seat a).spec, 0)
        else (crossNet (seat a) (seat b), if CrossSweeps (seat a) (seat b) then 1 else 0) := by
    intro a b e hw
    obtain ⟨i, j, hij, -, -, hw⟩ := mem_roundWrites.mp hw
    rcases pairWrite_eq_some.mp hw with
      ⟨-, -, -, rfl, rfl, he⟩ | ⟨-, rfl, rfl, he⟩ | ⟨-, rfl, rfl, he⟩
    · rw [if_neg hij.ne, he]
    · rw [if_pos rfl, he]
    · rw [if_pos rfl, he]
  rintro ⟨⟨a, b⟩, e⟩ hw ⟨⟨a', b'⟩, e'⟩ hw' heq
  obtain ⟨rfl, rfl⟩ := Prod.mk.inj heq
  exact (hvalue a b e hw).trans (hvalue a b e' hw').symm

theorem pairRow_eq (attr : Attr) {seats : List Seat} {datas : List PlayerData}
    (hseats : datas.map seatOf = seats) {i : Nat} (hi : i < seats.length) :
    pairRow attr datas i =
      (loserStore seats).putAll datas (rowWrites attr (seatAt seats) seats.length i) := by
  have hlen : datas.length = seats.length := by simp [← hseats]
  let act : List PlayerData → Nat → List PlayerData := fun datas j =>
    write datas (pairWrite attr i j (seatAt seats i) (seatAt seats j))
  have hact : ∀ j, j < seats.length → ∀ datas : List PlayerData, datas.map seatOf = seats →
      (act datas j).map seatOf = seats := by
    intro j hj datas hdatas
    simp only [act]
    cases hw : pairWrite attr i j (seatAt seats i) (seatAt seats j) with
    | none => exact hdatas
    | some w =>
        apply (loserStore seats).put_inv hdatas
        obtain ⟨⟨a, b⟩, e⟩ := w
        show a < seats.length
        rcases pairWrite_eq_some.mp hw with h | h | h <;> omega
  have hbody : ∀ j ∈ List.range' (i + 1) (datas.length - (i + 1)),
      ∀ datas : List PlayerData, datas.map seatOf = seats →
        pairPass attr i j datas =
          if ¬ Cuts attr (seatAt seats i) (seatAt seats j) then .yield (act datas j)
          else .done datas := by
    intro j hj datas hdatas
    have hjlen : j < seats.length := by
      simp only [List.mem_range'_1] at hj
      omega
    have hget : ∀ k, k < seats.length → ∃ data, datas[k]? = some data ∧
        seatOf data = seatAt seats k := by
      intro k hk
      have hk' : k < datas.length := by simpa [← hdatas] using hk
      refine ⟨datas[k], List.getElem?_eq_getElem hk', ?_⟩
      symm
      apply seatAt_eq
      simp [← hdatas, List.getElem?_eq_getElem hk']
    obtain ⟨dataI, hdataI, hseatI⟩ := hget i hi
    obtain ⟨dataJ, hdataJ, hseatJ⟩ := hget j hjlen
    rw [pairPass_eq attr hdataI hdataJ, hseatI, hseatJ]
  have hfold := forBreak_eq_foldl_takeWhile (fun datas => datas.map seatOf = seats)
    (fun k => decide (¬ Cuts attr (seatAt seats i) (seatAt seats k)))
    (fun j datas => act datas j) (by simpa only [decide_eq_true_eq] using hbody)
    (fun j hj => hact j (by simp only [List.mem_range'_1] at hj; omega)) hseats
  rw [pairRow, hfold, hlen, rowWrites, Store.putAll, List.foldl_filterMap]
  congr 1
  funext datas j
  simp only [act]
  cases pairWrite attr i j (seatAt seats i) (seatAt seats j) <;> rfl

theorem pairLoop_eq (attr : Attr) (datas : List PlayerData) :
    pairLoop attr datas =
      (loserStore (datas.map seatOf)).putAll datas
        (roundWrites attr (seatAt (datas.map seatOf)) datas.length) := by
  set seats := datas.map seatOf with hseats
  have hlen : datas.length = seats.length := by simp [hseats]
  rw [pairLoop, roundWrites, hlen]
  have hrows : ∀ (is : List Nat), (∀ i ∈ is, i < seats.length) →
      ∀ ds : List PlayerData, ds.map seatOf = seats →
        is.foldl (pairRow attr) ds = (loserStore seats).putAll ds
          (is.flatMap (rowWrites attr (seatAt seats) seats.length)) := by
    intro is
    induction is with
    | nil => intros; rfl
    | cons i is ih =>
        intro his ds hds
        have hi : i < seats.length := his i (by simp)
        have hrow := pairRow_eq attr hds hi
        have hdom : ∀ w ∈ rowWrites attr (seatAt seats) seats.length i,
            (loserStore seats).Dom w.1 := by
          intro w hw
          have hmem : w ∈ roundWrites attr (seatAt seats) seats.length :=
            List.mem_flatMap.mpr ⟨i, by simpa using hi, hw⟩
          exact (roundWrites_dom w hmem).1
        rw [List.foldl_cons, List.flatMap_cons, hrow,
          ih (fun k hk => his k (by simp [hk])) _ ((loserStore seats).putAll_inv hdom hds)]
        simp [Store.putAll]
  exact hrows _ (by simp) datas hseats.symm

end Loop

end CasualGame.Lobby.PairLoop
