import CasualGame.Lobby.Bookkeeping
import CasualGame.Lobby.Seats

/-!
Who pays for a game. The fee is checked when a client takes its seat and charged when
the first round is dealt, and the check still covers it then, because a client with a
seat in one game has none in another.
-/

namespace CasualGame.Lobby.Balances

open Deck
open Dealing
open Game13
open LobbyState
open RoomSteps
open LobbySteps
open AllRounds
open RowScoring
open Lib.Run
open Lib.Index
open WorldFrames
open Admission
open LobbyActs
open Logins
open RoomMoves
open Bookkeeping
open Seats

section Charges

/-- What the first round costs a client. -/
def fee (game : Game13) (cuid : Cuid) : Int :=
  if game.attr.payor = PAY_BANKER ∧ cuid = game.ownerCuid then 10
  else if game.attr.payor = PAY_SHARE_EQU then 5
  else 0

variable {w w' : World} {game game' : Game13}

theorem fee_le_of_checkMoney {client : ClientPtr} (hmoney : 0 ≤ (w.client client).money)
    (h : checkMoney w game client = some true) :
    fee game (w.client client).cuid ≤ (w.client client).money := by
  unfold fee
  split_ifs with hpays hshare
  · obtain ⟨hbanker, howner⟩ := hpays
    simp only [checkMoney, hbanker, if_true, World.enoughMoney, howner, ne_eq, not_true_eq_false,
      decide_false, Bool.false_or, Option.some.injEq, decide_eq_true_eq] at h
    exact h.le
  · have hother : ¬ game.attr.payor = PAY_BANKER := by
      rw [hshare]
      decide
    simp only [checkMoney, if_neg hother, if_pos hshare, World.enoughMoney, Option.some.injEq,
      decide_eq_true_eq] at h
    exact h.le
  · exact hmoney

theorem money_chargeFee (w : World) (hfirst : game.rounds = 1) {client : ClientPtr}
    (hclient : client < w.clients.clients.length) (info : PlayerInfo) (p : ClientPtr) :
    ((chargeFee w game client info).1.client p).money =
      (w.client p).money - if p = client then fee game (w.client client).cuid else 0 := by
  have hcharged : ∀ price : Int, ((w.addMoney client (-price)).client p).money =
      (w.client p).money - if p = client then price else 0 := by
    intro price
    rw [client_addMoney]
    by_cases hp : p = client
    · rw [if_pos ⟨hp, hclient⟩, if_pos hp]
      rfl
    · rw [if_neg fun heq => hp heq.1, if_neg hp, Int.sub_zero]
  by_cases hbanker : game.attr.payor = PAY_BANKER ∧ (w.client client).cuid = game.ownerCuid
  · rw [chargeFee, if_pos hfirst, if_pos hbanker, fee, if_pos hbanker]
    exact hcharged 10
  · rw [chargeFee, if_pos hfirst, if_neg hbanker, fee, if_neg hbanker]
    by_cases hshare : game.attr.payor = PAY_SHARE_EQU
    · rw [if_pos hshare, if_pos hshare]
      exact hcharged 5
    · rw [if_neg hshare, if_neg hshare, ite_self]
      exact (Int.sub_zero _).symm

theorem dealSeat_charges {index : Nat} {info info' : PlayerInfo}
    (h : dealSeat w game index info = .ok (w', info')) :
    w.getByCuid info.cuid = none ∧ w' = w ∨ ∃ client dealt,
      w.getByCuid info.cuid = some client ∧ Says (chargeFee w game client dealt).1 w' := by
  obtain ⟨cards, -, h⟩ := bind_eq_ok.mp h
  cases hclient : w.getByCuid info.cuid with
  | none =>
      simp only [hclient] at h
      cases h
      exact Or.inl ⟨rfl, rfl⟩
  | some client =>
      simp only [hclient] at h
      cases h
      exact Or.inr ⟨client, _, rfl, says_sendToMe _ _ _⟩

theorem money_dealSeats_later (hlater : game.rounds ≠ 1) {index : Nat}
    {infos infos' : List PlayerInfo} (h : dealSeats game w index infos = .ok (w', infos'))
    (p : ClientPtr) : (w'.client p).money = (w.client p).money := by
  induction infos generalizing w index infos' with
  | nil =>
      cases h
      rfl
  | cons info infos ih =>
      obtain ⟨⟨w₁, info'⟩, hseat, h⟩ := bind_eq_ok.mp h
      obtain ⟨⟨w₂, rest⟩, hrest, h⟩ := bind_eq_ok.mp h
      cases h
      rw [ih hrest]
      rcases dealSeat_charges hseat with ⟨-, rfl⟩ | ⟨client, dealt, -, hsaid⟩
      · rfl
      · rw [hsaid.client, chargeFee, if_neg hlater]

/-- The client has one of the seats. -/
def Sits (w : World) (infos : List PlayerInfo) (p : ClientPtr) : Prop :=
  ∃ info ∈ infos, w.getByCuid info.cuid = some p

theorem sits_cons {info : PlayerInfo} {infos : List PlayerInfo} {p : ClientPtr} :
    Sits w (info :: infos) p ↔ w.getByCuid info.cuid = some p ∨ Sits w infos p := by
  simp [Sits]

theorem sits_of_keys (hkeys : SameKeys w.clients w'.clients) {infos : List PlayerInfo}
    {p : ClientPtr} : Sits w' infos p ↔ Sits w infos p := by
  simp only [Sits, World.getByCuid, ClientManager.getByCuid, hkeys.cuids]

theorem money_dealSeats_first {S : Set ClientPtr} (hfirst : game.rounds = 1)
    (hindex : Indexes w.clients.cuid2Clients (fun p => (w.clients.client p).cuid) S)
    (hvalid : ∀ p ∈ S, p < w.clients.clients.length) {index : Nat}
    {infos infos' : List PlayerInfo} (hcuids : (infos.map (·.cuid)).Nodup)
    (h : dealSeats game w index infos = .ok (w', infos')) (p : ClientPtr) :
    (Sits w infos p → (w'.client p).money = (w.client p).money - fee game (w.client p).cuid) ∧
      (¬ Sits w infos p → (w'.client p).money = (w.client p).money) := by
  induction infos generalizing w index infos' with
  | nil =>
      cases h
      exact ⟨fun hsits => by simp [Sits] at hsits, fun _ => rfl⟩
  | cons info infos ih =>
      obtain ⟨⟨w₁, info'⟩, hseat, h⟩ := bind_eq_ok.mp h
      obtain ⟨⟨w₂, rest⟩, hrest, h⟩ := bind_eq_ok.mp h
      cases h
      have hkeys := (dealFrame_keeps.dealSeat hseat).keys
      rw [List.map_cons, List.nodup_cons] at hcuids
      obtain ⟨hpays, hkeeps⟩ := ih (by
        rw [hkeys.cuids]
        exact hindex.congr fun p _ => hkeys.cuid p) (by
        rw [hkeys.length]
        exact hvalid) hcuids.2 hrest
      rw [sits_of_keys hkeys] at hpays hkeeps
      have hcuid : (w₁.client p).cuid = (w.client p).cuid := hkeys.cuid p
      have hseated : (w₁.client p).money = (w.client p).money -
          if w.getByCuid info.cuid = some p then fee game (w.client p).cuid else 0 := by
        rcases dealSeat_charges hseat with ⟨hnone, rfl⟩ | ⟨client, dealt, hclient, hsaid⟩
        · simp [hnone]
        · rw [hsaid.client, money_chargeFee w hfirst (hvalid client (hindex.mem hclient)), hclient]
          by_cases hp : p = client
          · rw [hp, if_pos rfl, if_pos rfl]
          · rw [if_neg hp, if_neg fun heq => hp (Option.some.inj heq).symm]
      rw [sits_cons]
      by_cases hself : w.getByCuid info.cuid = some p
      · -- the seats of the others have other cuids
        have hothers : ¬ Sits w infos p := by
          rintro ⟨other, hother, hfound⟩
          refine hcuids.1 (List.mem_map.mpr ⟨other, hother, ?_⟩)
          exact (hindex.key_eq hfound).symm.trans (hindex.key_eq hself)
        rw [if_pos hself] at hseated
        exact ⟨fun _ => (hkeeps hothers).trans hseated, fun hnot => absurd (Or.inl hself) hnot⟩
      · rw [if_neg hself, Int.sub_zero] at hseated
        constructor
        · rintro (hsits | hsits)
          · exact absurd hsits hself
          · rw [hpays hsits, hseated, hcuid]
        · intro hnot
          rw [hkeeps fun hsits => hnot (Or.inr hsits), hseated]

theorem tryStartRound_deals (hready : everyoneReady w game = true)
    (h : tryStartRound w game = .ok (w', game')) :
    ∃ w₁ w₂ players, w₁.clients = w.clients ∧
      dealSeats { game with rounds := game.rounds + 1 } w₁ 0 game.players = .ok (w₂, players) ∧
        Says w₂ w' := by
  rw [tryStartRound, if_pos hready] at h
  obtain ⟨w₁, hshuffle, h⟩ := bind_eq_ok.mp h
  obtain ⟨⟨w₂, players⟩, hdeal, h⟩ := bind_eq_ok.mp h
  cases h
  have hclients : w₁.clients = w.clients := by
    obtain ⟨deck, -, hshuffle⟩ := bind_eq_ok.mp hshuffle
    cases hshuffle
    rfl
  exact ⟨w₁, w₂, players, hclients, hdeal, says_sendToSeats _ _ _⟩

theorem money_tryStartRound_later (hlater : game.rounds ≠ 0)
    (h : tryStartRound w game = .ok (w', game')) (p : ClientPtr) :
    (w'.client p).money = (w.client p).money := by
  by_cases hready : everyoneReady w game = true
  · obtain ⟨w₁, w₂, players, hclients, hdeal, hsaid⟩ := tryStartRound_deals hready h
    have hrounds : game.rounds + 1 ≠ 1 := by omega
    rw [hsaid.client, money_dealSeats_later hrounds hdeal, World.client, hclients]
    rfl
  · rw [tryStartRound, if_neg hready] at h
    cases h
    rfl

theorem money_tryStartRound_first {S : Set ClientPtr} (hready : everyoneReady w game = true)
    (hfirst : game.rounds = 0)
    (hindex : Indexes w.clients.cuid2Clients (fun p => (w.clients.client p).cuid) S)
    (hvalid : ∀ p ∈ S, p < w.clients.clients.length) (hcuids : game.cuids.Nodup)
    (h : tryStartRound w game = .ok (w', game')) (p : ClientPtr) :
    (Sits w game.players p →
        (w'.client p).money = (w.client p).money - fee game (w.client p).cuid) ∧
      (¬ Sits w game.players p → (w'.client p).money = (w.client p).money) := by
  obtain ⟨w₁, w₂, players, hclients, hdeal, hsaid⟩ := tryStartRound_deals hready h
  have hrounds : game.rounds + 1 = 1 := by omega
  have hcharged := money_dealSeats_first hrounds (by rwa [hclients]) (by rwa [hclients]) hcuids
    hdeal p
  have hsame : w₁.client p = w.client p := by
    rw [World.client, hclients]
    rfl
  have hsits : Sits w₁ game.players p ↔ Sits w game.players p := by
    simp only [Sits, World.getByCuid, hclients]
  rw [hsits, hsame, ← hsaid.client] at hcharged
  exact hcharged

end Charges

section Solvent

/-- Everyone is solvent, and whoever sits in a game that has not started can pay for it. -/
structure Solvent (S U : Set ClientPtr) (lobby : LobbyState) : Prop where
  seating : Seating S U lobby
  books : ∀ (k : RoomId) (game : Game13), lobby.rooms[k]? = some game → Books game
  nonneg : ∀ p, 0 ≤ (lobby.world.client p).money
  covered : ∀ p ∈ S, ∀ (k : RoomId) (game : Game13), lobby.rooms[k]? = some game →
    game.status = .prepare → (lobby.world.client p).cuid ∈ game.cuids →
      fee game (lobby.world.client p).cuid ≤ (lobby.world.client p).money

variable {S S' U U' : Set ClientPtr} {lobby lobby' : LobbyState} {k : RoomId} {w' : World}
  {game game' : Game13}

theorem Solvent.of_clients (h : Solvent S U lobby) (hseating : Seating S' U' lobby')
    (hrooms : ∀ k : RoomId, lobby'.rooms[k]? = lobby.rooms[k]?)
    (hnonneg : ∀ p, 0 ≤ (lobby'.world.client p).money)
    (hclients : ∀ p ∈ S', p ∈ S ∧ (lobby'.world.client p).cuid = (lobby.world.client p).cuid ∧
        (lobby'.world.client p).money = (lobby.world.client p).money ∨
      ∀ k seat, ¬ SeatAt lobby k seat (lobby'.world.client p).cuid) : Solvent S' U' lobby' := by
  refine ⟨hseating, fun k game hgame => ?_, hnonneg, fun p hp k game hgame hprepare hin => ?_⟩
  · rw [hrooms] at hgame
    exact h.books k game hgame
  · rw [hrooms] at hgame
    rcases hclients p hp with ⟨hold, hcuid, hmoney⟩ | hnowhere
    · rw [hcuid] at hin ⊢
      rw [hmoney]
      exact h.covered p hold k game hgame hprepare hin
    · obtain ⟨seat, hat⟩ := SeatAt.of_mem hgame hin
      exact absurd hat (hnowhere k seat)

theorem Solvent.setRoom (h : Solvent S U lobby) (hseating : Seating S U (lobby.setRoom k w' game'))
    (hbooks : Books game') (hkeys : SameKeys lobby.world.clients w'.clients)
    (hmoney : ∀ p, (w'.client p).money = (lobby.world.client p).money)
    (hcovered : ∀ p ∈ S, game'.status = .prepare → (lobby.world.client p).cuid ∈ game'.cuids →
      fee game' (lobby.world.client p).cuid ≤ (lobby.world.client p).money) :
    Solvent S U (lobby.setRoom k w' game') := by
  have hcuid : ∀ p, (w'.client p).cuid = (lobby.world.client p).cuid := hkeys.cuid
  refine ⟨hseating, fun j game hgame => ?_, fun p => ?_, fun p hp j game hgame hprepare hin => ?_⟩
  · rw [getElem?_setRoom] at hgame
    split_ifs at hgame
    · cases hgame
      exact hbooks
    · exact h.books j game hgame
  · exact (hmoney p).symm ▸ h.nonneg p
  · change (w'.client p).cuid ∈ game.cuids at hin
    change fee game (w'.client p).cuid ≤ (w'.client p).money
    rw [hcuid] at hin ⊢
    rw [hmoney]
    rw [getElem?_setRoom] at hgame
    split_ifs at hgame
    · cases hgame
      exact hcovered p hp hprepare hin
    · exact h.covered p hp j game hgame hprepare hin

theorem Solvent.relocates {s' : World × Game13} (h : Solvent S U lobby)
    (hgame : lobby.rooms[k]? = some game) (hmove : Move (lobby.world, game) s')
    (hrel : Relocates lobby.world s'.1)
    (hcovered : s'.2.status = .prepare → game.status = .prepare ∧ s'.2.attr = game.attr ∧
      s'.2.ownerCuid = game.ownerCuid ∧ ∀ cuid ≠ 0, cuid ∈ s'.2.cuids → cuid ∈ game.cuids) :
    Solvent S U (lobby.setRoom k s'.1 s'.2) := by
  refine h.setRoom (h.seating.move hgame hmove) (Books.move hmove (h.books k game hgame))
    hrel.keeps.keys hrel.clients.money fun p hp hprepare hin => ?_
  obtain ⟨hold, hattr, howner, hsub⟩ := hcovered hprepare
  have hfee : fee s'.2 (lobby.world.client p).cuid = fee game (lobby.world.client p).cuid := by
    rw [fee, fee, hattr, howner]
  rw [hfee]
  exact h.covered p hp k game hgame hold (hsub _ (h.seating.cuids p hp) hin)

theorem Solvent.starts (h : Solvent S U lobby) (hgame : lobby.rooms[k]? = some game)
    (hprepare : game.status = .prepare) (hready : everyoneReady lobby.world game = true)
    (hstart : tryStartRound lobby.world game = .ok (w', game')) :
    Solvent S U (lobby.setRoom k w' game') := by
  have hstarted := tryStartRound_started hready hstart
  have hmove : Move (lobby.world, game) (w', game') := .starts hprepare hready hstart
  have hindexing := h.seating.indexing
  have hnonzero := everyoneReady_cuids hprepare hready
  have hcuids : game.cuids.Nodup := by
    rw [List.nodup_iff_getElem?_ne_getElem?]
    intro i j hij hj heq
    rw [List.getElem?_eq_getElem hj] at heq
    exact hij.ne (h.seating.once (hnonzero _ (List.getElem_mem hj)) ⟨game, hgame, heq⟩
      ⟨game, hgame, List.getElem?_eq_getElem hj⟩).2
  have hpaid := money_tryStartRound_first hready ((h.books k game hgame).prepare hprepare).1
    hindexing.cuids hindexing.valid hcuids hstart
  have hseated : ∀ {p}, Sits lobby.world game.players p →
      p ∈ S ∧ (lobby.world.client p).cuid ∈ game.cuids := by
    rintro p ⟨info, hinfo, hfound⟩
    have hcuid : (lobby.world.client p).cuid = info.cuid := hindexing.cuids.key_eq hfound
    rw [hcuid]
    exact ⟨hindexing.cuids.mem hfound, List.mem_map_of_mem hinfo⟩
  have hkeys := (dealFrame_keeps.tryStartRound hstart).keys
  have hcuid : ∀ p, (w'.client p).cuid = (lobby.world.client p).cuid := hkeys.cuid
  refine ⟨h.seating.move hgame hmove, fun j g hg => ?_, fun p => ?_,
    fun p hp j g hg hprepare' hin => ?_⟩
  · rw [getElem?_setRoom] at hg
    split_ifs at hg
    · cases hg
      exact Books.move hmove (h.books k game hgame)
    · exact h.books j g hg
  · change 0 ≤ (w'.client p).money
    by_cases hsits : Sits lobby.world game.players p
    · obtain ⟨hp, hin⟩ := hseated hsits
      rw [(hpaid p).1 hsits]
      exact Int.sub_nonneg_of_le (h.covered p hp k game hgame hprepare hin)
    · rw [(hpaid p).2 hsits]
      exact h.nonneg p
  · change (w'.client p).cuid ∈ g.cuids at hin
    change fee g (w'.client p).cuid ≤ (w'.client p).money
    rw [hcuid] at hin ⊢
    rw [getElem?_setRoom] at hg
    split_ifs at hg with hj
    · cases hg
      rw [hstarted.status] at hprepare'
      cases hprepare'
    · -- a client of another room sits there, and so not in this one
      have hnot : ¬ Sits lobby.world game.players p := by
        intro hsits
        obtain ⟨seat, hat⟩ := SeatAt.of_mem hg hin
        obtain ⟨seat', hat'⟩ := SeatAt.of_mem hgame (hseated hsits).2
        exact hj ((h.seating.seated p hp hat).symm.trans (h.seating.seated p hp hat'))
      rw [(hpaid p).2 hnot]
      exact h.covered p hp j g hg hprepare' hin

theorem Solvent.move {s' : World × Game13} (h : Solvent S U lobby)
    (hgame : lobby.rooms[k]? = some game) (hmove : Move (lobby.world, game) s') :
    Solvent S U (lobby.setRoom k s'.1 s'.2) := by
  have hcosts := h.relocates hgame hmove
  have hbooks := h.books k game hgame
  have hrefl := Relocates.refl lobby.world
  cases hmove with
  | speaks hsaid => exact hcosts (.of_said hsaid) fun hp => ⟨hp, rfl, rfl, fun _ _ hin => hin⟩
  | @leaves _ _ _ _ client seat _ _ _ hsaid =>
      exact hcosts ((relocates_afterLeaveRoom _ client).trans (.of_said hsaid)) fun hp =>
        ⟨hp, rfl, rfl, fun cuid hzero hin =>
          mem_cuids_of_updateSeat (fun _ => Or.inr rfl) hzero hin⟩
  | dissolves _ => exact hcosts (relocates_kickAll _ _) nofun
  | sponsors _ _ => exact hcosts hrefl nofun
  | votes _ _ hvote => exact hcosts hrefl fun hp => absurd (hvote.symm.trans hp) nofun
  | fails _ hsaid => exact hcosts (.of_said hsaid) nofun
  | passes _ _ hsaid => exact hcosts ((Relocates.of_said hsaid).trans (relocates_kickAll _ _)) nofun
  | timesOut _ _ hsaid =>
      exact hcosts ((Relocates.of_said hsaid).trans (relocates_kickAll _ _)) nofun
  | readies seat _ _ hsaid =>
      refine hcosts (.of_said hsaid) fun hp => ⟨hp, rfl, rfl, fun cuid hzero hin => ?_⟩
      apply mem_cuids_of_updateSeat _ hzero hin
      exact fun _ => Or.inl rfl
  | starts hprepare hready hstart => exact h.starts hgame hprepare hready hstart
  | lays _ _ hplay _ hsaid =>
      exact hcosts (.of_said hsaid) fun hp => absurd (hplay.symm.trans hp) nofun
  | @settles _ w₁ _ _ game' seat hand hplay hall hrounds hsaid hstart =>
      have hlater : ({ settled (storeHand game seat hand) with status := .settle } : Game13).rounds
          ≠ 0 := by
        have hsheet := (hbooks.inRound (Or.inl hplay)).sheet
        change game.rounds ≠ 0
        omega
      have hmove : Move (lobby.world, game) (_, game') :=
        .settles seat hand hplay hall hrounds hsaid hstart
      refine h.setRoom (h.seating.move hgame hmove) (Books.move hmove hbooks)
        (hsaid.keeps.trans (dealFrame_keeps.tryStartRound hstart)).keys (fun p => ?_)
        fun p _ hp => ?_
      · rw [← hsaid.client]
        exact money_tryStartRound_later hlater hstart p
      · rw [(tryStartRound_started rfl hstart).status] at hp
        cases hp
  | ends _ _ _ _ _ _ hsaid => exact hcosts (.of_said hsaid) nofun
  | expires _ => exact hcosts (relocates_kickAll _ _) nofun
  | dies hclosed => exact hcosts hrefl fun hp => absurd (hclosed.symm.trans hp) nofun

theorem Solvent.congr (h : Solvent S U lobby)
    (hrooms : ∀ k : RoomId, lobby'.rooms[k]? = lobby.rooms[k]?)
    (hstays : Stays lobby.world lobby'.world)
    (hmoney : ∀ p, (lobby'.world.client p).money = (lobby.world.client p).money) :
    Solvent S U lobby' :=
  h.of_clients (h.seating.congr hrooms hstays) hrooms (fun p => (hmoney p).symm ▸ h.nonneg p)
    fun p hp => Or.inl ⟨hp, hstays.keys.cuid p, hmoney p⟩

theorem Solvent.moved {s' : World × Game13} (h : Solvent S U lobby)
    (hgame : lobby.rooms[k]? = some game) (hmoved : Moved (lobby.world, game) s') :
    Solvent S U (lobby.setRoom k s'.1 s'.2) := by
  refine hmoved.invariant (P := fun s => Solvent S U (lobby.setRoom k s.1 s.2)) ?_ ?_
  · intro s s' hmove hs
    have hroom : (lobby.setRoom k s.1 s.2).rooms[k]? = some s.2 := by
      rw [getElem?_setRoom, if_pos rfl]
    refine (hs.move hroom hmove).congr (fun j => ?_) (Stays.refl _) fun _ => rfl
    exact (getElem?_setRoom_setRoom lobby k s.1 s'.1 s.2 s'.2 j).symm
  · exact h.congr (getElem?_setRoom_same hgame) (Stays.refl _) fun _ => rfl

theorem Solvent.enterRoom (h : Solvent S U lobby) (hgame : lobby.rooms[k]? = some game)
    {client : ClientPtr} (hclient : client ∈ S) (hpaid : SeatPaid lobby.world game client) :
    Solvent S U (lobby.setRoom k (enterRoom lobby.world game client).2.1
      (enterRoom lobby.world game client).2.2) := by
  have hseating := h.seating.enterRoom hgame hclient hpaid
  have hbooks := (h.books k game hgame).enterRoom lobby.world client
  have hout := entering lobby.world game client
  generalize Game13.enterRoom lobby.world game client = out at hout hseating hbooks ⊢
  cases hout with
  | stays _ _ => exact h.congr (getElem?_setRoom_same hgame) (Stays.refl _) fun _ => rfl
  | refused text _ =>
      have hsaid := says_notice lobby.world client text
      exact h.congr (getElem?_setRoom_same hgame) hsaid.stays fun p => congrArg _ (hsaid.client p)
  | unpaid hroom hprepare hseat hmoney _ =>
      exact absurd (hpaid.checkMoney hroom hprepare hseat) hmoney
  | @enters index _ hprepare hseat hmoney =>
      have hrel : Relocates lobby.world (afterEnterRoom (lobby.world.setRoomId client game.id)
          (withSeat lobby.world game client index) client) :=
        (relocates_setRoomId _ client _).trans (.of_said (says_afterEnterRoom _ _ _))
      refine h.setRoom hseating hbooks hrel.keeps.keys hrel.clients.money fun p hp _ hin => ?_
      change fee game (lobby.world.client p).cuid ≤ (lobby.world.client p).money
      obtain ⟨info, hinfo, hcuid⟩ := List.mem_map.mp hin
      rcases mem_updateSeat hinfo with hold | ⟨old, -, rfl⟩
      · exact h.covered p hp k game hgame hprepare (hcuid ▸ List.mem_map_of_mem hold)
      · rw [h.seating.indexing.cuids.injOn hp hclient hcuid.symm]
        exact fee_le_of_checkMoney (h.nonneg client) hmoney

theorem Solvent.forgets {client : ClientPtr} (h : Solvent S U lobby) (hstray : Stray lobby client) :
    Solvent S U (lobby.setWorld (lobby.world.setRoomId client 0)) := by
  have hrel := relocates_setRoomId lobby.world client 0
  have hmoney : ∀ p, ((lobby.world.setRoomId client 0).client p).money =
      (lobby.world.client p).money := hrel.clients.money
  exact h.of_clients (h.seating.forgets hstray) (fun _ => rfl)
    (fun p => (hmoney p).symm ▸ h.nonneg p)
    fun p hp => Or.inl ⟨hp, hrel.clients.cuid p, hmoney p⟩

end Solvent

section Steps

variable {S U : Set ClientPtr} {lobby lobby' : LobbyState} {a : Event} {w : World} {ccid : Ccid}
  {openid name : String} {client : ClientPtr}

theorem Solvent.opens {k : RoomId} {game : Game13} (h : Solvent S U lobby)
    (hseating : Seating S U (lobby.setRoom k lobby.world game)) (hbooks : Books game)
    (hempty : ∀ cuid ∈ game.cuids, cuid = 0) : Solvent S U (lobby.setRoom k lobby.world game) :=
  h.setRoom hseating hbooks (SameKeys.refl _) (fun _ => rfl) fun p hp _ hin =>
    absurd (hempty _ hin) (h.seating.cuids p hp)

theorem Solvent.registers (h : Solvent S U lobby)
    (hopenid : lobby.world.clients.getByOpenid openid = none)
    (hfresh : FreshCuid lobby lobby.world.clients.getClientUniqueId.1)
    (hsaid : Says (registered lobby.world ccid openid name) w) :
    ∃ S' U', Solvent S' U' (lobby.setWorld w) := by
  obtain ⟨S', U', hsub, hseating⟩ := h.seating.registers hopenid hfresh hsaid
  have hclient := client_registered hsaid
  refine ⟨S', U', h.of_clients hseating (fun _ => rfl) (fun p => ?_) fun p hp => ?_⟩
  · change 0 ≤ (w.client p).money
    rw [hclient]
    split_ifs
    · exact Int.natCast_nonneg 10000
    · exact h.nonneg p
  · change p ∈ S ∧ (w.client p).cuid = _ ∧ (w.client p).money = _ ∨
      ∀ k seat, ¬ SeatAt lobby k seat (w.client p).cuid
    rw [hclient]
    rcases hsub p hp with hold | rfl
    · rw [if_neg (h.seating.indexing.valid p hold).ne]
      exact Or.inl ⟨hold, rfl, rfl⟩
    · rw [if_pos rfl]
      exact Or.inr hfresh.nowhere

theorem Solvent.relogins (h : Solvent S U lobby)
    (hopenid : lobby.world.clients.getByOpenid openid = some client)
    (hsaid : Says (relogged lobby.world client ccid) w) :
    ∃ S' U', Solvent S' U' (lobby.setWorld w) := by
  obtain ⟨S', U', hsub, hseating⟩ := h.seating.relogins hopenid hsaid
  have hkept : ∀ p, (w.client p).cuid = (lobby.world.client p).cuid ∧
      (w.client p).money = (lobby.world.client p).money := by
    intro p
    rw [client_relogged hsaid p]
    exact ⟨rfl, rfl⟩
  exact ⟨S', U', h.of_clients hseating (fun _ => rfl) (fun p => (hkept p).2.symm ▸ h.nonneg p)
    fun p hp => Or.inl ⟨hsub hp, hkept p⟩⟩

theorem Solvent.turn (h : Solvent S U lobby) (hturn : Turn lobby lobby') :
    Solvent S U lobby' := by
  cases hturn with
  | execs hgame _ hexec => exact h.moved hgame (timerExec_moved hexec)
  | @erases roomId game hgame hzero =>
      have hrooms : ∀ (j : RoomId) (g : Game13), (lobby.rooms.erase roomId)[j]? = some g →
          lobby.rooms[j]? = some g := by
        intro j g hg
        rw [getElem?_erase] at hg
        split_ifs at hg
        exact hg
      exact ⟨h.seating.erases hgame hzero, fun j g hg => h.books j g (hrooms j g hg), h.nonneg,
        fun p hp j g hg => h.covered p hp j g (hrooms j g hg)⟩

theorem Solvent.act (h : Solvent S U lobby) (hsafe : SafeSeats lobby a)
    (hact : Act lobby a lobby') : ∃ S' U', Solvent S' U' lobby' := by
  have hcaller : ∀ {ccid client}, lobby.world.getByCcid ccid = some client → client ∈ S :=
    fun hclient => h.seating.indexing.ccids_sub (h.seating.indexing.ccids.mem hclient)
  cases hact with
  | speaks _ hsaid =>
      exact ⟨S, U, h.congr (fun _ => rfl) hsaid.stays fun p => congrArg _ (hsaid.client p)⟩
  | @leaves _ _ client _ hstray =>
      have hsaid := says_sendToMe (lobby.world.setRoomId client 0) client .playerQuited
      exact ⟨S, U, (h.forgets hstray).congr (fun _ => rfl) hsaid.stays fun p =>
        congrArg _ (hsaid.client p)⟩
  | draws _ => exact ⟨S, U, h.congr (fun _ => rfl) (Stays.refl _) fun _ => rfl⟩
  | @opens ccid rcv client hclient hout hnew =>
      obtain ⟨hzero, hpaid⟩ := hsafe client hclient hout hnew
      have hopened := h.opens (h.seating.newRoom rcv client hzero hnew) (.of_prepare rfl ⟨rfl, rfl⟩)
        (cuids_opened lobby rcv client)
      have hroom : (lobby.setRoom lobby.getRoomId.1 lobby.world
          (opened lobby rcv client)).rooms[lobby.getRoomId.1]? =
            some (opened lobby rcv client) := by
        rw [getElem?_setRoom, if_pos rfl]
      exact ⟨S, U, (hopened.enterRoom hroom (hcaller hclient) hpaid).congr
        (fun j => (getElem?_setRoom_setRoom lobby _ _ _ _ _ j).symm) (Stays.refl _) fun _ => rfl⟩
  | calls hgame hcall =>
      rcases roomCall_moved hcall with ⟨ccid, id, client, rfl, hclient, rfl, rfl, rfl⟩ | ⟨-, hmoved⟩
      · exact ⟨S, U, h.enterRoom hgame (hcaller hclient) (hsafe client hclient _ hgame)⟩
      · exact ⟨S, U, h.moved hgame hmoved⟩
  | registers hopenid hsaid =>
      exact h.registers hopenid (hsafe (getByOpenid_eq_none.mp hopenid)) hsaid
  | relogins hopenid hsaid => exact h.relogins hopenid hsaid
  | forgets hopenid hsaid hstray =>
      obtain ⟨S', U', h'⟩ := h.relogins hopenid hsaid
      exact ⟨S', U', h'.forgets hstray⟩
  | ticks hturns =>
      refine ⟨S, U, ?_⟩
      induction hturns with
      | refl => exact h.congr (fun _ => rfl) ⟨SameKeys.refl _, fun _ => rfl⟩ fun _ => rfl
      | tail _ hturn ih => exact ih.turn hturn

end Steps

section Funds

variable {lobby : LobbyState}

/-- A lobby with no rooms, and with clients that have logged in, whatever they own. -/
structure Opening (lobby : LobbyState) : Prop where
  deck : lobby.world.deck = []
  rooms : lobby.rooms = ∅
  indexed : ∃ S, Indexing lobby.world.clients S S S ∧ ∀ p ∈ S, (lobby.world.client p).cuid ≠ 0
  roomless : ∀ p, (lobby.world.client p).roomId = 0
  nonneg : ∀ p, 0 ≤ (lobby.world.client p).money

/-- All runs of the lobby, from any starting balances. -/
def fundedLobby : System LobbyState Event Fault := { lobbySystem with Init := Opening }

instance (lobby : LobbyState) (a : Event) : Decidable (fundedLobby.Allowed lobby a) :=
  inferInstanceAs (Decidable (lobby.Allowed a))

def NoDebts (lobby : LobbyState) : Prop := ∀ p, 0 ≤ (lobby.world.client p).money

/-- Whoever sits in a game that has not started can pay its fee. -/
def FeesCovered (lobby : LobbyState) : Prop :=
  ∀ (k : RoomId) (game : Game13) (client : ClientPtr), lobby.rooms[k]? = some game →
    game.status = .prepare → Known lobby.world.clients client →
      (lobby.world.client client).cuid ∈ game.cuids →
        fee game (lobby.world.client client).cuid ≤ (lobby.world.client client).money

def AllSolvent (lobby : LobbyState) : Prop := ∃ S U, Solvent S U lobby

theorem AllSolvent.reaches (h : fundedLobby.Reaches SafeSeats lobby) : AllSolvent lobby := by
  refine h.invariant ?_ fun lobby a lobby' hinv _ hsafe hstep => ?_
  · intro lobby hopening
    obtain ⟨S, hindexing, hcuids⟩ := hopening.indexed
    have hnone : ∀ (k : RoomId) (game : Game13), lobby.rooms[k]? ≠ some game := by
      simp [hopening.rooms]
    exact ⟨S, S, .of_no_rooms hindexing hcuids hopening.rooms fun p _ => hopening.roomless p,
      fun k game hgame => absurd hgame (hnone k game), hopening.nonneg,
      fun _ _ k game hgame => absurd hgame (hnone k game)⟩
  · obtain ⟨S, U, hsolvent⟩ := hinv
    exact hsolvent.act hsafe (step_act hstep)

/-- Whatever the clients start with, as long as nobody is turned away from a seat already
taken nobody comes to owe anything, and what was checked at the door covers the fee. -/
theorem balances_nonneg (h : fundedLobby.Reaches SafeSeats lobby) :
    NoDebts lobby ∧ FeesCovered lobby := by
  obtain ⟨S, U, hsolvent⟩ := AllSolvent.reaches h
  exact ⟨hsolvent.nonneg, fun k game client hgame hprepare hknown hin =>
    hsolvent.covered client (hsolvent.seating.mem_of_known hknown) k game hgame hprepare hin⟩

/-- The first of two clients owns `6`, the second `10000`. -/
def poorAndRich : LobbyState where
  world := ({
    clients := (insertNew (insertNew {} 11 "a" "").2 12 "b" "").2
    rg := fun _ => Shuffle.id } : World).addMoney 0 (-9994)

theorem poorAndRich_opening : Opening poorAndRich := by
  have hfirst : Indexing (insertNew {} 11 "a" "").2 (insert 0 ∅) (insert 0 ∅) (insert 0 ∅) :=
    indexing_empty.insertNew_true (by decide +kernel)
  have hsecond : Indexing (insertNew (insertNew {} 11 "a" "").2 12 "b" "").2
      (insert 1 (insert 0 ∅)) (insert 1 (insert 0 ∅)) (insert 1 (insert 0 ∅)) :=
    hfirst.insertNew_true (by decide +kernel)
  have hindexing : Indexing poorAndRich.world.clients (insert 1 (insert 0 ∅))
      (insert 1 (insert 0 ∅)) (insert 1 (insert 0 ∅)) :=
    hsecond.of_sameKeys (sameKeys_addMoney _ 0 _)
  have hclients : ∀ p, p = 0 ∨ p = 1 ∨ poorAndRich.world.client p = {} := by
    intro p
    rcases p with _ | _ | p
    · exact Or.inl rfl
    · exact Or.inr (Or.inl rfl)
    · exact Or.inr (Or.inr (client_of_le (Nat.le_add_left 2 p)))
  refine ⟨rfl, rfl, ⟨_, hindexing, ?_⟩, fun p => ?_, fun p => ?_⟩
  · rintro p (rfl | rfl | hp)
    · decide +kernel
    · decide +kernel
    · cases hp
  · rcases hclients p with rfl | rfl | hp
    · decide +kernel
    · decide +kernel
    · rw [hp]
  · rcases hclients p with rfl | rfl | hp
    · decide +kernel
    · decide +kernel
    · rw [hp]
      decide

def gameFor (playerSize payor : Int) : CreateGame := ⟨playerSize, 52, 1, payor, 3, false, 1⟩

/-- The two of them start a game that each pays for. -/
def sharedGame : LobbyState :=
  fundedLobby.after poorAndRich [.createGame 12 (gameFor 2 11), .jionGame 11 100001,
    .readyFlag 11 true, .readyFlag 12 true]

theorem balances_nonneg_shared : NoDebts sharedGame ∧ FeesCovered sharedGame :=
  balances_nonneg (.after (.init poorAndRich_opening) (by decide +kernel))

/-- The first client is turned away from a game the winner would pay for, and keeps a seat
in it. It gets ready in a second game, is out of that one when the first is closed,
starts a third and pays for it, and then the second starts too. -/
def turnedAwayAndCharged : LobbyState :=
  fundedLobby.after poorAndRich [.createGame 12 (gameFor 2 12), .jionGame 11 100001,
    .createGame 11 (gameFor 2 11), .readyFlag 11 true, .giveUp 12,
    .createGame 11 (gameFor 1 11), .readyFlag 11 true, .jionGame 12 100002, .readyFlag 12 true]

theorem turned_away_in_debt :
    ¬ ∀ lobby : LobbyState, fundedLobby.Reaches (fun _ _ => True) lobby → NoDebts lobby := by
  intro hall
  have hreached : fundedLobby.Reaches (fun _ _ => True) turnedAwayAndCharged :=
    .after (.init poorAndRich_opening) (by decide +kernel)
  have hmoney : (turnedAwayAndCharged.world.client 0).money = -4 := by decide +kernel
  have hnonneg := hall _ hreached 0
  rw [hmoney] at hnonneg
  exact absurd hnonneg (by decide)

end Funds

end CasualGame.Lobby.Balances
