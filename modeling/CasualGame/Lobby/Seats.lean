import CasualGame.Lobby.Logins
import CasualGame.Lobby.RoomMoves

/-!
Who sits where. A client keeps the number of its room and the rooms keep the cuids of
their seats, and as long as nobody is turned away from a seat already taken, the two
agree in every state.
-/

namespace CasualGame.Lobby.Seats

open Deck
open Dealing
open Game13
open LobbyState
open RoomSteps
open LobbySteps
open AllRounds
open RowScoring
open Lib.Run
open Lib.Index
open WorldFrames
open Admission
open LobbyActs
open Logins
open RoomMoves

section Seating

/-- The cuid is written in the seat. -/
def SeatAt (lobby : LobbyState) (k : RoomId) (seat : Nat) (cuid : Cuid) : Prop :=
  ∃ game, lobby.rooms[k]? = some game ∧ game.cuids[seat]? = some cuid

/-- The clients in `S` are those the maps know by openid and cuid. Each is in the room it
says it is in, on one seat, and has no other. -/
structure Seating (S U : Set ClientPtr) (lobby : LobbyState) : Prop where
  indexing : Indexing lobby.world.clients S S U
  cuids : ∀ p ∈ S, (lobby.world.client p).cuid ≠ 0
  placed : RoomsPlaced lobby
  numbered : lobby.rooms[0]? = none
  once : ∀ {j k : RoomId} {seat seat' : Nat} {cuid : Cuid}, cuid ≠ 0 →
    SeatAt lobby j seat cuid → SeatAt lobby k seat' cuid → j = k ∧ seat = seat'
  located : ∀ p ∈ S, (lobby.world.client p).roomId ≠ 0 →
    ∃ seat, SeatAt lobby (lobby.world.client p).roomId seat (lobby.world.client p).cuid
  seated : ∀ p ∈ S, ∀ {k : RoomId} {seat : Nat}, SeatAt lobby k seat (lobby.world.client p).cuid →
    (lobby.world.client p).roomId = k

variable {S S' U U' : Set ClientPtr} {lobby lobby' : LobbyState} {k : RoomId}
  {w' : World} {game game' : Game13}

theorem SeatAt.of_mem {cuid : Cuid} (hgame : lobby.rooms[k]? = some game)
    (hcuid : cuid ∈ game.cuids) : ∃ seat, SeatAt lobby k seat cuid := by
  obtain ⟨seat, hseat⟩ := List.mem_iff_getElem?.mp hcuid
  exact ⟨seat, game, hgame, hseat⟩

theorem SeatAt.mem {seat : Nat} {cuid : Cuid} (h : SeatAt lobby k seat cuid)
    (hgame : lobby.rooms[k]? = some game) : cuid ∈ game.cuids := by
  obtain ⟨game', hgame', hseat⟩ := h
  cases hgame.symm.trans hgame'
  exact List.mem_of_getElem? hseat

theorem seatAt_congr (hrooms : ∀ k : RoomId, lobby'.rooms[k]? = lobby.rooms[k]?) {seat : Nat}
    {cuid : Cuid} : SeatAt lobby' k seat cuid ↔ SeatAt lobby k seat cuid := by
  rw [SeatAt, SeatAt, hrooms]

theorem seatAt_setRoom {j : RoomId} {seat : Nat} {cuid : Cuid} :
    SeatAt (lobby.setRoom k w' game') j seat cuid ↔
      if j = k then game'.cuids[seat]? = some cuid else SeatAt lobby j seat cuid := by
  rw [SeatAt, getElem?_setRoom]
  split_ifs with hj
  · simp
  · rfl

theorem roomsPlaced_setRoom (h : RoomsPlaced lobby) (hplaced : Placed k game') :
    RoomsPlaced (lobby.setRoom k w' game') := by
  intro j game hgame
  rw [getElem?_setRoom] at hgame
  split_ifs at hgame with hj
  · cases hgame
    exact hj ▸ hplaced
  · exact h j game hgame

theorem Seating.of_clients (h : Seating S U lobby)
    (hrooms : ∀ k : RoomId, lobby'.rooms[k]? = lobby.rooms[k]?)
    (hindexing : Indexing lobby'.world.clients S' S' U')
    (hclients : ∀ p ∈ S', p ∈ S ∧ (lobby'.world.client p).cuid = (lobby.world.client p).cuid ∧
        (lobby'.world.client p).roomId = (lobby.world.client p).roomId ∨
      (lobby'.world.client p).cuid ≠ 0 ∧ (lobby'.world.client p).roomId = 0 ∧
        ∀ k seat, ¬ SeatAt lobby k seat (lobby'.world.client p).cuid) :
    Seating S' U' lobby' := by
  have hseats : ∀ {k seat cuid}, SeatAt lobby' k seat cuid ↔ SeatAt lobby k seat cuid :=
    seatAt_congr hrooms
  refine ⟨hindexing, fun p hp => ?_, fun k game hgame => ?_, ?_, fun hcuid h₁ h₂ => ?_,
    fun p hp hroom => ?_, fun p hp k seat hseat => ?_⟩
  · rcases hclients p hp with ⟨hold, hcuid, -⟩ | ⟨hcuid, -⟩
    · rw [hcuid]
      exact h.cuids p hold
    · exact hcuid
  · rw [hrooms] at hgame
    exact h.placed k game hgame
  · rw [hrooms]
    exact h.numbered
  · exact h.once hcuid (hseats.mp h₁) (hseats.mp h₂)
  · rcases hclients p hp with ⟨hold, hcuid, hsame⟩ | ⟨-, hzero, -⟩
    · rw [hsame] at hroom
      obtain ⟨seat, hseat⟩ := h.located p hold hroom
      rw [hcuid, hsame]
      exact ⟨seat, hseats.mpr hseat⟩
    · exact absurd hzero hroom
  · rcases hclients p hp with ⟨hold, hcuid, hsame⟩ | ⟨-, -, hnowhere⟩
    · rw [hsame]
      rw [hcuid] at hseat
      exact h.seated p hold (hseats.mp hseat)
    · exact absurd (hseats.mp hseat) (hnowhere k seat)

theorem Seating.congr (h : Seating S U lobby)
    (hrooms : ∀ k : RoomId, lobby'.rooms[k]? = lobby.rooms[k]?)
    (hstays : Stays lobby.world lobby'.world) : Seating S U lobby' :=
  h.of_clients hrooms (h.indexing.of_sameKeys hstays.keys) fun p hp =>
    Or.inl ⟨hp, hstays.keys.cuid p, hstays.roomId p⟩

theorem Seating.vacate (h : Seating S U lobby) (hgame : lobby.rooms[k]? = some game)
    (hplaced : Placed k game') (hkeys : SameKeys lobby.world.clients w'.clients)
    (hsub : ∀ {seat : Nat} {cuid : Cuid}, cuid ≠ 0 → game'.cuids[seat]? = some cuid →
      game.cuids[seat]? = some cuid)
    (hfreed : ∀ p ∈ S, (lobby.world.client p).cuid ∈ game.cuids →
      (lobby.world.client p).cuid ∉ game'.cuids → (w'.client p).roomId = 0)
    (hkept : ∀ p ∈ S, (lobby.world.client p).cuid ∉ game.cuids ∨
      (lobby.world.client p).cuid ∈ game'.cuids →
        (w'.client p).roomId = (lobby.world.client p).roomId) :
    Seating S U (lobby.setRoom k w' game') := by
  have hcuid : ∀ p, (w'.client p).cuid = (lobby.world.client p).cuid := hkeys.cuid
  have hold : ∀ {j seat cuid}, cuid ≠ 0 → SeatAt (lobby.setRoom k w' game') j seat cuid →
      SeatAt lobby j seat cuid := by
    intro j seat cuid hzero hseat
    rw [seatAt_setRoom] at hseat
    split_ifs at hseat with hj
    · exact hj ▸ ⟨game, hgame, hsub hzero hseat⟩
    · exact hseat
  refine ⟨h.indexing.of_sameKeys hkeys, fun p hp => ?_, roomsPlaced_setRoom h.placed hplaced, ?_,
    fun hzero h₁ h₂ => h.once hzero (hold hzero h₁) (hold hzero h₂), fun p hp hroom => ?_,
    fun p hp j seat hseat => ?_⟩
  · change (w'.client p).cuid ≠ 0
    rw [hcuid]
    exact h.cuids p hp
  · have hk : (0 : RoomId) ≠ k := by
      rintro rfl
      rw [h.numbered] at hgame
      cases hgame
    rw [getElem?_setRoom, if_neg hk]
    exact h.numbered
  · change (w'.client p).roomId ≠ 0 at hroom
    change ∃ seat, SeatAt _ (w'.client p).roomId seat (w'.client p).cuid
    have hstays : (lobby.world.client p).cuid ∉ game.cuids ∨
        (lobby.world.client p).cuid ∈ game'.cuids := by
      by_contra hnot
      rw [not_or, not_not] at hnot
      exact hroom (hfreed p hp hnot.1 hnot.2)
    rw [hkept p hp hstays] at hroom ⊢
    rw [hcuid]
    obtain ⟨seat, hseat⟩ := h.located p hp hroom
    by_cases hk : (lobby.world.client p).roomId = k
    · rw [hk] at hseat ⊢
      obtain ⟨seat', hseat'⟩ := List.mem_iff_getElem?.mp
        (hstays.resolve_left fun hnot => hnot (hseat.mem hgame))
      refine ⟨seat', seatAt_setRoom.mpr ?_⟩
      rw [if_pos rfl]
      exact hseat'
    · refine ⟨seat, seatAt_setRoom.mpr ?_⟩
      rw [if_neg hk]
      exact hseat
  · change SeatAt _ j seat (w'.client p).cuid at hseat
    change (w'.client p).roomId = j
    rw [hcuid] at hseat
    have hroom := h.seated p hp (hold (h.cuids p hp) hseat)
    rw [hkept p hp, hroom]
    by_cases hj : j = k
    · subst hj
      rw [seatAt_setRoom, if_pos rfl] at hseat
      exact Or.inr (List.mem_of_getElem? hseat)
    · refine Or.inl fun hin => hj ?_
      obtain ⟨seat', hseat'⟩ := SeatAt.of_mem hgame hin
      exact hroom.symm.trans (h.seated p hp hseat')

theorem Seating.sameSeats (h : Seating S U lobby) (hgame : lobby.rooms[k]? = some game)
    (hplaced : Placed k game') (hstays : Stays lobby.world w') (hcuids : game'.cuids = game.cuids) :
    Seating S U (lobby.setRoom k w' game') := by
  refine h.vacate hgame hplaced hstays.keys (fun _ hseat => hcuids ▸ hseat) ?_
    fun p _ _ => hstays.roomId p
  intro p _ hin hout
  rw [hcuids] at hout
  exact absurd hin hout

end Seating

section Entering

variable {S U : Set ClientPtr} {lobby : LobbyState} {k : RoomId} {w' : World}
  {game game' : Game13}

theorem Seating.opens (h : Seating S U lobby) (hk : k ≠ 0) (hnew : lobby.rooms[k]? = none)
    (hplaced : Placed k game) (hempty : ∀ cuid ∈ game.cuids, cuid = 0) :
    Seating S U (lobby.setRoom k lobby.world game) := by
  have hold : ∀ {j seat cuid}, cuid ≠ 0 → SeatAt (lobby.setRoom k lobby.world game) j seat cuid →
      SeatAt lobby j seat cuid := by
    intro j seat cuid hzero hseat
    rw [seatAt_setRoom] at hseat
    split_ifs at hseat with hj
    · exact absurd (hempty cuid (List.mem_of_getElem? hseat)) hzero
    · exact hseat
  refine ⟨h.indexing, h.cuids, roomsPlaced_setRoom h.placed hplaced, ?_,
    fun hzero h₁ h₂ => h.once hzero (hold hzero h₁) (hold hzero h₂), fun p hp hroom => ?_,
    fun p hp j seat hseat => h.seated p hp (hold (h.cuids p hp) hseat)⟩
  · rw [getElem?_setRoom, if_neg hk.symm]
    exact h.numbered
  · obtain ⟨seat, hseat⟩ := h.located p hp hroom
    refine ⟨seat, seatAt_setRoom.mpr ?_⟩
    split_ifs with hj
    · obtain ⟨game', hgame', -⟩ := hseat
      change (lobby.world.client p).roomId = k at hj
      rw [hj, hnew] at hgame'
      cases hgame'
    · exact hseat

theorem getElem?_cuids_withSeat (w : World) (game : Game13) (client : ClientPtr) (index seat : Nat)
    (hindex : index < game.players.length) :
    (withSeat w game client index).cuids[seat]? =
      if seat = index then some (w.client client).cuid else game.cuids[seat]? := by
  simp only [cuids, List.getElem?_map, getElem?_withSeat]
  split_ifs with h₁ h₂ h₂
  · rw [← h₁, List.getElem?_eq_getElem hindex]
    rfl
  · exact absurd h₁.symm h₂
  · exact absurd h₂.symm h₁
  · rfl

theorem Seating.enters (h : Seating S U lobby) (hgame : lobby.rooms[k]? = some game)
    {client : ClientPtr} {index : Nat} (hclient : client ∈ S)
    (hout : (lobby.world.client client).roomId = 0) (hprepare : game.status = .prepare)
    (hseat : game.getEmptySeatIndex = some index)
    (hsaid : Says (lobby.world.setRoomId client game.id) w') :
    Seating S U (lobby.setRoom k w' (withSeat lobby.world game client index)) := by
  have hindex := getEmptySeatIndex_lt hseat
  have hid : game.id = k := (h.placed k game hgame).alive (by simp [hprepare])
  have hk : k ≠ 0 := by
    rintro rfl
    rw [h.numbered] at hgame
    cases hgame
  have hkeys : SameKeys lobby.world.clients w'.clients :=
    ((relocates_setRoomId lobby.world client game.id).keeps.trans hsaid.keeps).keys
  have hcuid : ∀ p, (w'.client p).cuid = (lobby.world.client p).cuid := hkeys.cuid
  have hroomId : ∀ p, (w'.client p).roomId =
      if p = client then k else (lobby.world.client p).roomId := by
    intro p
    rw [hsaid.client, client_setRoomId, hid]
    by_cases hp : p = client
    · rw [if_pos ⟨hp, h.indexing.valid client hclient⟩, if_pos hp]
    · rw [if_neg (fun heq => hp heq.1), if_neg hp]
  -- the client sat nowhere, so its only seat is the new one
  have hnowhere : ∀ j seat, ¬ SeatAt lobby j seat (lobby.world.client client).cuid := by
    intro j seat hat
    have hj := h.seated client hclient hat
    rw [hout] at hj
    obtain ⟨game', hgame', -⟩ := hat
    rw [← hj, h.numbered] at hgame'
    cases hgame'
  have hseats : ∀ {j seat cuid}, cuid ≠ 0 →
      (SeatAt (lobby.setRoom k w' (withSeat lobby.world game client index)) j seat cuid ↔
        j = k ∧ seat = index ∧ cuid = (lobby.world.client client).cuid ∨
          SeatAt lobby j seat cuid) := by
    intro j seat cuid hzero
    rw [seatAt_setRoom, getElem?_cuids_withSeat _ _ _ _ _ hindex]
    by_cases hj : j = k
    · rw [if_pos hj]
      by_cases hi : seat = index
      · have hempty : ¬ SeatAt lobby j seat cuid := by
          rintro ⟨game', hgame', hat⟩
          rw [hj] at hgame'
          cases hgame.symm.trans hgame'
          rw [Game13.cuids, hi, List.getElem?_map, Option.map_eq_some_iff] at hat
          obtain ⟨info, hinfo, rfl⟩ := hat
          exact hzero (getEmptySeatIndex_cuid hseat hinfo)
        simp [hj, hi, hj ▸ hi ▸ hempty, eq_comm]
      · simp only [hi, if_false, false_and, and_false, false_or]
        constructor
        · intro hat
          exact ⟨game, hj ▸ hgame, hat⟩
        · rintro ⟨game', hgame', hat⟩
          rw [hj] at hgame'
          cases hgame.symm.trans hgame'
          exact hat
    · simp [hj]
  refine ⟨h.indexing.of_sameKeys hkeys, fun p hp => ?_, roomsPlaced_setRoom h.placed ?_, ?_,
    fun hzero h₁ h₂ => ?_, fun p hp hroom => ?_, fun p hp j seat hat => ?_⟩
  · change (w'.client p).cuid ≠ 0
    rw [hcuid]
    exact h.cuids p hp
  · exact (h.placed k game hgame).updateSeat _ _
  · rw [getElem?_setRoom, if_neg hk.symm]
    exact h.numbered
  · rcases (hseats hzero).mp h₁ with ⟨hj₁, hi₁, hc₁⟩ | hold₁
    · rcases (hseats hzero).mp h₂ with ⟨hj₂, hi₂, -⟩ | hold₂
      · exact ⟨hj₁.trans hj₂.symm, hi₁.trans hi₂.symm⟩
      · exact absurd (hc₁ ▸ hold₂) (hnowhere _ _)
    · rcases (hseats hzero).mp h₂ with ⟨-, -, hc₂⟩ | hold₂
      · exact absurd (hc₂ ▸ hold₁) (hnowhere _ _)
      · exact h.once hzero hold₁ hold₂
  · change (w'.client p).roomId ≠ 0 at hroom
    change ∃ seat, SeatAt _ (w'.client p).roomId seat (w'.client p).cuid
    rw [hroomId] at hroom ⊢
    rw [hcuid]
    split_ifs at hroom ⊢ with hp'
    · exact ⟨index, (hseats (h.cuids p hp)).mpr (Or.inl ⟨rfl, rfl, by rw [hp']⟩)⟩
    · obtain ⟨seat, hat⟩ := h.located p hp hroom
      exact ⟨seat, (hseats (h.cuids p hp)).mpr (Or.inr hat)⟩
  · change SeatAt _ j seat (w'.client p).cuid at hat
    change (w'.client p).roomId = j
    rw [hcuid] at hat
    rw [hroomId]
    rcases (hseats (h.cuids p hp)).mp hat with ⟨hj, -, hc⟩ | hold
    · rw [if_pos (h.indexing.cuids.injOn hp hclient hc), hj]
    · rw [if_neg, h.seated p hp hold]
      rintro rfl
      exact hnowhere _ _ hold

end Entering

section Moves

variable {S U : Set ClientPtr} {lobby lobby' : LobbyState} {k : RoomId} {w w' : World}
  {game game' : Game13}

theorem Seating.number_ne_zero (h : Seating S U lobby) (hgame : lobby.rooms[k]? = some game) :
    k ≠ 0 := by
  rintro rfl
  rw [h.numbered] at hgame
  cases hgame

theorem Seating.leaves {seat : Nat} (h : Seating S U lobby)
    (hgame : lobby.rooms[k]? = some game)
    (hplaced : Placed k (game.updateSeat seat PlayerInfo.clear)) {client : ClientPtr}
    (hclient : client ∈ S)
    (hseat : game.getPlayerInfoByCuid (lobby.world.client client).cuid = some seat)
    (hsaid : Says (lobby.world.afterLeaveRoom client) w') :
    Seating S U (lobby.setRoom k w' (game.updateSeat seat PlayerInfo.clear)) := by
  obtain ⟨hlen, hcuid, -⟩ := List.findIdx?_eq_some_iff_getElem.mp hseat
  have hat : game.cuids[seat]? = some (lobby.world.client client).cuid := by
    rw [Game13.cuids, List.getElem?_map, List.getElem?_eq_getElem hlen]
    simpa using hcuid
  have hcleared : ∀ i, (game.updateSeat seat PlayerInfo.clear).cuids[i]? =
      if i = seat then some 0 else game.cuids[i]? := by
    intro i
    simp only [Game13.cuids, updateSeat, List.getElem?_map, List.getElem?_modify]
    split_ifs with h₁ h₂ h₂
    · rw [← h₁, List.getElem?_eq_getElem hlen]
      rfl
    · exact absurd h₁.symm h₂
    · exact absurd h₂.symm h₁
    · simp
  have hroomId : ∀ p, (w'.client p).roomId =
      if p = client then 0 else (lobby.world.client p).roomId := by
    intro p
    rw [hsaid.client, roomId_afterLeaveRoom]
  refine h.vacate hgame hplaced ((relocates_afterLeaveRoom lobby.world client).keeps.trans
    hsaid.keeps).keys ?_ ?_ ?_
  · intro i cuid hzero hi
    rw [hcleared] at hi
    split_ifs at hi
    · exact absurd (Option.some.inj hi).symm hzero
    · exact hi
  · intro p hp hin hout
    obtain ⟨i, hi⟩ := List.mem_iff_getElem?.mp hin
    have hseated : i = seat := by
      by_contra hne
      refine hout (List.mem_iff_getElem?.mpr ⟨i, ?_⟩)
      rw [hcleared, if_neg hne]
      exact hi
    rw [hseated, hat, Option.some.injEq] at hi
    rw [hroomId, if_pos (h.indexing.cuids.injOn hp hclient hi.symm)]
  · intro p hp hstays
    rw [hroomId, if_neg]
    rintro rfl
    rcases hstays with hout | hin
    · exact hout (List.mem_of_getElem? hat)
    · obtain ⟨i, hi⟩ := List.mem_iff_getElem?.mp hin
      rw [hcleared] at hi
      split_ifs at hi with hne
      · exact h.cuids p hp (Option.some.inj hi).symm
      · exact hne (h.once (h.cuids p hp) ⟨game, hgame, hi⟩ ⟨game, hgame, hat⟩).2

theorem Seating.closes (h : Seating S U lobby) (hgame : lobby.rooms[k]? = some game)
    (hstays : Stays lobby.world w) (hcuids : game'.cuids = game.cuids) :
    Seating S U (lobby.setRoom k (abortGame w game').1 (abortGame w game').2) := by
  have hfound : ∀ p ∈ S, (∃ cuid ∈ game'.cuids, w.getByCuid cuid = some p) ↔
      (lobby.world.client p).cuid ∈ game.cuids := by
    intro p hp
    have hindex := (h.indexing.of_sameKeys hstays.keys).cuids
    have hcuid : (w.clients.client p).cuid = (lobby.world.client p).cuid := hstays.keys.cuid p
    rw [hcuids]
    constructor
    · rintro ⟨cuid, hin, hget⟩
      rw [← hcuid, hindex.key_eq hget]
      exact hin
    · intro hin
      refine ⟨_, hin, ?_⟩
      rw [← hcuid]
      exact hindex.getElem? hp
  have hroomId := fun p => roomId_kickAll w game'.cuids p
  refine h.vacate hgame (.of_dead rfl rfl rfl)
    (hstays.keys.trans (relocates_kickAll w game'.cuids).keeps.keys) ?_ ?_ ?_
  · intro i cuid _ hi
    cases hi
  · intro p hp hin _
    exact (hroomId p).trans (if_pos ((hfound p hp).mpr hin))
  · rintro p hp (hout | hin)
    · refine (hroomId p).trans ((if_neg ?_).trans (hstays.roomId p))
      exact fun hfind => hout ((hfound p hp).mp hfind)
    · cases hin

theorem cuids_resetVotes (game : Game13) : game.resetVotes.cuids = game.cuids := by
  simp [Game13.cuids, resetVotes, Function.comp_def]

theorem Seating.move {s' : World × Game13} (h : Seating S U lobby)
    (hgame : lobby.rooms[k]? = some game) (hmove : Move (lobby.world, game) s') :
    Seating S U (lobby.setRoom k s'.1 s'.2) := by
  have hplaced := Placed.move (h.number_ne_zero hgame) hmove (h.placed k game hgame)
  have hupdate : ∀ {f : PlayerInfo → PlayerInfo} (seat : Nat),
      (∀ info, (f info).cuid = info.cuid) → (game.updateSeat seat f).cuids = game.cuids :=
    fun seat hf => map_updateSeat hf game seat
  cases hmove with
  | speaks hsaid => exact h.sameSeats hgame hplaced hsaid.stays rfl
  | leaves hclient _ hseat hsaid =>
      exact h.leaves hgame hplaced (h.indexing.ccids_sub (h.indexing.ccids.mem hclient)) hseat hsaid
  | dissolves _ => exact h.closes hgame (Stays.refl _) rfl
  | sponsors _ _ => exact h.sameSeats hgame hplaced (Stays.refl _) rfl
  | votes seat _ _ =>
      refine h.sameSeats hgame hplaced (Stays.refl _) ?_
      apply hupdate seat
      exact fun _ => rfl
  | fails _ hsaid => exact h.sameSeats hgame hplaced hsaid.stays (cuids_resetVotes game)
  | passes _ _ hsaid => exact h.closes hgame hsaid.stays (cuids_resetVotes game)
  | timesOut _ _ hsaid => exact h.closes hgame hsaid.stays (cuids_resetVotes game)
  | readies seat _ _ hsaid =>
      refine h.sameSeats hgame hplaced hsaid.stays ?_
      apply hupdate seat
      exact fun _ => rfl
  | starts _ hready hstart =>
      exact h.sameSeats hgame hplaced (dealFrame_stays.tryStartRound hstart)
        (tryStartRound_started hready hstart).cuids
  | lays seat hand _ _ hsaid =>
      exact h.sameSeats hgame hplaced hsaid.stays (cuids_storeHand game seat hand)
  | settles seat hand _ _ _ hsaid hstart =>
      refine h.sameSeats hgame hplaced
        (hsaid.stays.trans (dealFrame_stays.tryStartRound hstart)) ?_
      rw [(tryStartRound_started rfl hstart).cuids]
      exact cuids_storeHand game seat hand
  | ends seat hand _ _ _ _ hsaid =>
      exact h.sameSeats hgame hplaced hsaid.stays (cuids_storeHand game seat hand)
  | expires _ => exact h.closes hgame (Stays.refl _) rfl
  | dies _ => exact h.sameSeats hgame hplaced (Stays.refl _) rfl

theorem getElem?_setRoom_same {w : World} (hgame : lobby.rooms[k]? = some game) (j : RoomId) :
    (lobby.setRoom k w game).rooms[j]? = lobby.rooms[j]? := by
  rw [getElem?_setRoom]
  split_ifs with hj
  · rw [hj, hgame]
  · rfl

theorem getElem?_setRoom_setRoom (lobby : LobbyState) (k : RoomId) (w w' : World)
    (game game' : Game13) (j : RoomId) :
    ((lobby.setRoom k w game).setRoom k w' game').rooms[j]? =
      (lobby.setRoom k w' game').rooms[j]? := by
  simp only [getElem?_setRoom]
  split_ifs
  · rfl
  · rfl

theorem Seating.moved {s' : World × Game13} (h : Seating S U lobby)
    (hgame : lobby.rooms[k]? = some game) (hmoved : Moved (lobby.world, game) s') :
    Seating S U (lobby.setRoom k s'.1 s'.2) := by
  refine hmoved.invariant (P := fun s => Seating S U (lobby.setRoom k s.1 s.2)) ?_ ?_
  · intro s s' hmove hs
    have hroom : (lobby.setRoom k s.1 s.2).rooms[k]? = some s.2 := by
      rw [getElem?_setRoom, if_pos rfl]
    refine (hs.move hroom hmove).congr (fun j => ?_) (Stays.refl _)
    exact (getElem?_setRoom_setRoom lobby k s.1 s'.1 s.2 s'.2 j).symm
  · exact h.congr (getElem?_setRoom_same hgame) (Stays.refl _)

theorem Seating.erases (h : Seating S U lobby) (hgame : lobby.rooms[k]? = some game)
    (hzero : game.id = 0) : Seating S U { lobby with rooms := lobby.rooms.erase k } := by
  have hempty : game.players = [] := by
    by_cases hclosed : game.status = .closed
    · exact ((h.placed k game hgame).dead hclosed).2
    · exact absurd ((h.placed k game hgame).alive hclosed ▸ hzero) (h.number_ne_zero hgame)
  have hvacant : ∀ {seat cuid}, ¬ SeatAt lobby k seat cuid := by
    rintro seat cuid ⟨game', hgame', hat⟩
    cases hgame.symm.trans hgame'
    rw [Game13.cuids, hempty] at hat
    cases hat
  have hrooms : ∀ j : RoomId, (lobby.rooms.erase k)[j]? =
      if j = k then none else lobby.rooms[j]? := getElem?_erase lobby.rooms k
  have hseats : ∀ {j seat cuid}, SeatAt { lobby with rooms := lobby.rooms.erase k } j seat cuid ↔
      SeatAt lobby j seat cuid := by
    intro j seat cuid
    change (∃ game, (lobby.rooms.erase k)[j]? = some game ∧ _) ↔ _
    rw [hrooms]
    split_ifs with hj
    · simp [hj, hvacant]
    · rfl
  refine ⟨h.indexing, h.cuids, fun j game' hgame' => ?_, ?_,
    fun hcuid h₁ h₂ => h.once hcuid (hseats.mp h₁) (hseats.mp h₂), fun p hp hroom => ?_,
    fun p hp j seat hat => h.seated p hp (hseats.mp hat)⟩
  · change (lobby.rooms.erase k)[j]? = some game' at hgame'
    rw [hrooms] at hgame'
    split_ifs at hgame'
    exact h.placed j game' hgame'
  · change (lobby.rooms.erase k)[0]? = none
    rw [hrooms, h.numbered, ite_self]
  · obtain ⟨seat, hat⟩ := h.located p hp hroom
    exact ⟨seat, hseats.mpr hat⟩

end Moves

section Logins

variable {S U : Set ClientPtr} {lobby : LobbyState} {w : World} {ccid : Ccid}
  {openid name : String} {client : ClientPtr}

/-- The cuid is one, and nobody has it, neither a client nor a seat. -/
def FreshCuid (lobby : LobbyState) (cuid : Cuid) : Prop :=
  cuid ≠ 0 ∧ cuid ∉ lobby.world.clients.cuid2Clients ∧
    ∀ room ∈ lobby.rooms.toList, cuid ∉ room.2.cuids

theorem FreshCuid.nowhere {cuid : Cuid} (h : FreshCuid lobby cuid) (k : RoomId) (seat : Nat) :
    ¬ SeatAt lobby k seat cuid := by
  rintro ⟨game, hgame, hat⟩
  exact h.2.2 (k, game) (Std.TreeMap.mem_toList_iff_getElem?_eq_some.mpr hgame)
    (List.mem_of_getElem? hat)

theorem client_registered (hsaid : Says (registered lobby.world ccid openid name) w)
    (p : ClientPtr) : w.client p = if p = lobby.world.clients.clients.length then
      newClient lobby.world.clients ccid openid name else lobby.world.client p := by
  rw [hsaid.client]
  refine Eq.trans ?_ (client_insertNew lobby.world.clients ccid openid name p)
  change (registered lobby.world ccid openid name).clients.client p = _
  rw [registered_clients]
  split_ifs
  · rfl
  · rfl

theorem client_relogged (hsaid : Says (relogged lobby.world client ccid) w) (p : ClientPtr) :
    w.client p = { lobby.world.client p with ccid := (w.client p).ccid } := by
  have hmoved : w.client p = (Logins.moved lobby.world.clients client ccid).client p := by
    rw [hsaid.client]
    exact client_insert _ client p
  rw [hmoved, client_moved]
  split_ifs
  · rfl
  · rfl

theorem Seating.registers (h : Seating S U lobby)
    (hopenid : lobby.world.clients.getByOpenid openid = none)
    (hfresh : FreshCuid lobby lobby.world.clients.getClientUniqueId.1)
    (hsaid : Says (registered lobby.world ccid openid name) w) :
    ∃ S' U', (∀ p ∈ S', p ∈ S ∨ p = lobby.world.clients.clients.length) ∧
      Seating S' U' (lobby.setWorld w) := by
  have hnew := getByOpenid_eq_none.mp hopenid
  have hclient := client_registered hsaid
  have hkept : ∀ p ∈ S, (w.client p).cuid = (lobby.world.client p).cuid ∧
      (w.client p).roomId = (lobby.world.client p).roomId := by
    intro p hp
    rw [hclient, if_neg (h.indexing.valid p hp).ne]
    exact ⟨rfl, rfl⟩
  cases hinserted : (insertNew lobby.world.clients ccid openid name).1 with
  | true =>
      have hindexing := h.indexing.insertNew_true hinserted
      have hclients : w.clients = (insertNew lobby.world.clients ccid openid name).2 := by
        rw [hsaid.clients, registered_clients, if_pos hinserted]
      rw [← hclients] at hindexing
      refine ⟨_, _, fun p hp => hp.symm, h.of_clients (fun _ => rfl) hindexing ?_⟩
      rintro p (rfl | hp)
      · have hself : (lobby.setWorld w).world.client lobby.world.clients.clients.length =
            newClient lobby.world.clients ccid openid name := by
          refine (hclient _).trans ?_
          rw [if_pos rfl]
        rw [hself]
        exact Or.inr ⟨hfresh.1, rfl, hfresh.nowhere⟩
      · exact Or.inl ⟨hp, hkept p hp⟩
  | false =>
      have hindexing := h.indexing.registered_false hnew hinserted
      have hclients : w.clients = (insertNew lobby.world.clients ccid openid name).2.erase
          lobby.world.clients.clients.length := by
        rw [hsaid.clients, registered_clients, if_neg (by simp [hinserted])]
      rw [← hclients, filter_key_of_notMem fun q hq heq =>
        hfresh.2.1 (h.indexing.cuids.mem_iff.mpr ⟨q, hq, heq⟩)] at hindexing
      exact ⟨_, _, fun p hp => Or.inl hp,
        h.of_clients (fun _ => rfl) hindexing fun p hp => Or.inl ⟨hp, hkept p hp⟩⟩

theorem Seating.relogins (h : Seating S U lobby)
    (hopenid : lobby.world.clients.getByOpenid openid = some client)
    (hsaid : Says (relogged lobby.world client ccid) w) :
    ∃ S' U', S' ⊆ S ∧ Seating S' U' (lobby.setWorld w) := by
  have hp := h.indexing.openids.mem hopenid
  have hclients : w.clients = ((Logins.moved lobby.world.clients client ccid).insert client).2 :=
    hsaid.clients
  have hkept : ∀ p, (w.client p).cuid = (lobby.world.client p).cuid ∧
      (w.client p).roomId = (lobby.world.client p).roomId := by
    intro p
    rw [client_relogged hsaid p]
    exact ⟨rfl, rfl⟩
  have hrelogged := h.indexing.relogged hp ccid
  rw [← hclients, others_eq_of_injOn fun q hq heq => h.indexing.cuids.injOn hq hp heq,
    insert_diff_self hp] at hrelogged
  split_ifs at hrelogged
  · exact ⟨_, _, Set.Subset.refl S,
      h.of_clients (fun _ => rfl) hrelogged fun q hq => Or.inl ⟨hq, hkept q⟩⟩
  · exact ⟨_, _, Set.sdiff_subset,
      h.of_clients (fun _ => rfl) hrelogged fun q hq => Or.inl ⟨hq.1, hkept q⟩⟩

theorem Seating.roomless_of_stray (h : Seating S U lobby) (hclient : client ∈ S)
    (hstray : Stray lobby client) : (lobby.world.client client).roomId = 0 := by
  by_contra hroom
  obtain ⟨seat, game, hgame, hat⟩ := h.located client hclient hroom
  have hnone := hstray game hgame
  rw [getPlayerInfoByCuid, List.findIdx?_eq_none_iff] at hnone
  obtain ⟨info, hinfo, heq⟩ := List.mem_map.mp (List.mem_of_getElem? hat)
  exact absurd heq (by simpa using hnone info hinfo)

theorem Seating.forgets (h : Seating S U lobby) (hstray : Stray lobby client) :
    Seating S U (lobby.setWorld (lobby.world.setRoomId client 0)) := by
  have hkeys := (relocates_setRoomId lobby.world client 0).keeps.keys
  refine h.of_clients (fun _ => rfl) (h.indexing.of_sameKeys hkeys) fun p hp =>
    Or.inl ⟨hp, hkeys.cuid p, ?_⟩
  change ((lobby.world.setRoomId client 0).client p).roomId = _
  rw [client_setRoomId_zero]
  split_ifs with hsame
  · rw [hsame] at hp ⊢
    exact (h.roomless_of_stray hp hstray).symm
  · rfl

end Logins

section Steps

variable {S U : Set ClientPtr} {lobby lobby' : LobbyState} {a : Event} {k : RoomId}
  {game : Game13} {client : ClientPtr}

/-- Whoever gets as far as a seat can pay for it. -/
def SeatPaid (w : World) (game : Game13) (client : ClientPtr) : Prop :=
  (w.client client).roomId ≠ 0 ∨ game.status ≠ .prepare ∨ game.getEmptySeatIndex = none ∨
    checkMoney w game client = some true

theorem SeatPaid.checkMoney {w : World} {index : Nat} (h : SeatPaid w game client)
    (hroom : (w.client client).roomId = 0) (hprepare : game.status = .prepare)
    (hseat : game.getEmptySeatIndex = some index) : checkMoney w game client = some true := by
  rcases h with hin | hstatus | hfull | hmoney
  · exact absurd hroom hin
  · exact absurd hprepare hstatus
  · rw [hfull] at hseat
    cases hseat
  · exact hmoney

/-- Nobody is turned away from a seat already taken, and the numbers drawn for rooms and
clients are free. -/
def SafeSeats (lobby : LobbyState) : Event → Prop
  | .createGame ccid rcv => ∀ client ∈ lobby.world.getByCcid ccid,
      (lobby.world.client client).roomId = 0 → lobby.getRoomId.1 ∉ lobby.rooms →
        lobby.getRoomId.1 ≠ 0 ∧ SeatPaid lobby.world (opened lobby rcv client) client
  | .jionGame ccid roomId => ∀ client ∈ lobby.world.getByCcid ccid,
      ∀ game ∈ lobby.rooms[CalcRound.toUInt32 roomId]?, SeatPaid lobby.world game client
  | .loginQuest _ openid _ => openid ∉ lobby.world.clients.openid2Clients →
      FreshCuid lobby lobby.world.clients.getClientUniqueId.1
  | _ => True

instance (w : World) (game : Game13) (client : ClientPtr) : Decidable (SeatPaid w game client) :=
  inferInstanceAs (Decidable (_ ∨ _ ∨ _ ∨ _))

instance (lobby : LobbyState) (cuid : Cuid) : Decidable (FreshCuid lobby cuid) :=
  inferInstanceAs (Decidable (_ ∧ _ ∧ _))

instance (lobby : LobbyState) (a : Event) : Decidable (SafeSeats lobby a) :=
  match a with
  | .createGame ccid rcv => inferInstanceAs (Decidable (∀ client ∈ lobby.world.getByCcid ccid,
      (lobby.world.client client).roomId = 0 → lobby.getRoomId.1 ∉ lobby.rooms →
        lobby.getRoomId.1 ≠ 0 ∧ SeatPaid lobby.world (opened lobby rcv client) client))
  | .jionGame ccid roomId => inferInstanceAs (Decidable (∀ client ∈ lobby.world.getByCcid ccid,
      ∀ game ∈ lobby.rooms[CalcRound.toUInt32 roomId]?, SeatPaid lobby.world game client))
  | .loginQuest _ _ _ => inferInstanceAs (Decidable (_ → _))
  | .giveUp .. | .voteFoAbortGame .. | .readyFlag .. | .bringOut .. | .sendChat .. | .timer .. =>
      .isTrue trivial

theorem Seating.enterRoom (h : Seating S U lobby) (hgame : lobby.rooms[k]? = some game)
    (hclient : client ∈ S) (hpaid : SeatPaid lobby.world game client) :
    Seating S U (lobby.setRoom k (enterRoom lobby.world game client).2.1
      (enterRoom lobby.world game client).2.2) := by
  have hout := entering lobby.world game client
  generalize Game13.enterRoom lobby.world game client = out at hout
  cases hout with
  | stays _ _ => exact h.congr (getElem?_setRoom_same hgame) (Stays.refl _)
  | refused text _ =>
      exact h.congr (getElem?_setRoom_same hgame) (says_notice _ _ text).stays
  | unpaid hroom hprepare hseat hmoney _ =>
      exact absurd (hpaid.checkMoney hroom hprepare hseat) hmoney
  | enters hroom hprepare hseat _ =>
      exact h.enters hgame hclient hroom hprepare hseat (says_afterEnterRoom _ _ _)

theorem cuids_opened (lobby : LobbyState) (rcv : CreateGame) (client : ClientPtr) :
    ∀ cuid ∈ (opened lobby rcv client).cuids, cuid = 0 := by
  intro cuid hcuid
  obtain ⟨info, hinfo, rfl⟩ := List.mem_map.mp hcuid
  rw [List.eq_of_mem_replicate hinfo]

theorem Seating.newRoom (h : Seating S U lobby) (rcv : CreateGame) (client : ClientPtr)
    (hzero : lobby.getRoomId.1 ≠ 0) (hnew : lobby.getRoomId.1 ∉ lobby.rooms) :
    Seating S U
      (lobby.setRoom lobby.getRoomId.1 lobby.world (opened lobby rcv client)) := by
  have hnone : lobby.rooms[lobby.getRoomId.1]? = none := by
    rw [Std.TreeMap.mem_iff_isSome_getElem?] at hnew
    simpa using hnew
  have hplaced : Placed lobby.getRoomId.1 (opened lobby rcv client) :=
    .of_alive hzero rfl (by simp [opened, LobbyState.newGame])
  exact h.opens hzero hnone hplaced (cuids_opened lobby rcv client)

theorem Seating.turn (h : Seating S U lobby) (hturn : Turn lobby lobby') :
    Seating S U lobby' := by
  cases hturn with
  | execs hgame _ hexec => exact h.moved hgame (timerExec_moved hexec)
  | erases hgame hzero => exact h.erases hgame hzero

theorem Seating.act (h : Seating S U lobby) (hsafe : SafeSeats lobby a)
    (hact : Act lobby a lobby') : ∃ S' U', Seating S' U' lobby' := by
  have hcaller : ∀ {ccid client}, lobby.world.getByCcid ccid = some client → client ∈ S :=
    fun hclient => h.indexing.ccids_sub (h.indexing.ccids.mem hclient)
  cases hact with
  | speaks _ hsaid => exact ⟨S, U, h.congr (fun _ => rfl) hsaid.stays⟩
  | leaves _ _ hstray =>
      exact ⟨S, U, (h.forgets hstray).congr (fun _ => rfl) (says_sendToMe _ _ _).stays⟩
  | draws _ => exact ⟨S, U, h.congr (fun _ => rfl) (Stays.refl _)⟩
  | @opens ccid rcv client hclient hout hnew =>
      obtain ⟨hzero, hpaid⟩ := hsafe client hclient hout hnew
      have hopened := h.newRoom rcv client hzero hnew
      have hroom : (lobby.setRoom lobby.getRoomId.1 lobby.world
          (opened lobby rcv client)).rooms[lobby.getRoomId.1]? =
            some (opened lobby rcv client) := by
        rw [getElem?_setRoom, if_pos rfl]
      exact ⟨S, U, (hopened.enterRoom hroom (hcaller hclient) hpaid).congr
        (fun j => (getElem?_setRoom_setRoom lobby _ _ _ _ _ j).symm) (Stays.refl _)⟩
  | calls hgame hcall =>
      rcases roomCall_moved hcall with ⟨ccid, id, client, rfl, hclient, rfl, rfl, rfl⟩ | ⟨-, hmoved⟩
      · exact ⟨S, U, h.enterRoom hgame (hcaller hclient) (hsafe client hclient _ hgame)⟩
      · exact ⟨S, U, h.moved hgame hmoved⟩
  | registers hopenid hsaid =>
      obtain ⟨S', U', -, h'⟩ := h.registers hopenid (hsafe (getByOpenid_eq_none.mp hopenid)) hsaid
      exact ⟨S', U', h'⟩
  | relogins hopenid hsaid =>
      obtain ⟨S', U', -, h'⟩ := h.relogins hopenid hsaid
      exact ⟨S', U', h'⟩
  | forgets hopenid hsaid hstray =>
      obtain ⟨S', U', -, h'⟩ := h.relogins hopenid hsaid
      exact ⟨S', U', h'.forgets hstray⟩
  | ticks hturns =>
      refine ⟨S, U, ?_⟩
      induction hturns with
      | refl => exact h.congr (fun _ => rfl) ⟨SameKeys.refl _, fun _ => rfl⟩
      | tail _ hturn ih => exact ih.turn hturn

end Steps

section Uniqueness

variable {lobby : LobbyState}

/-- Some map still leads to the client. -/
def Known (m : ClientManager) (client : ClientPtr) : Prop :=
  (∃ openid, m.getByOpenid openid = some client) ∨
    (∃ cuid, m.getByCuid cuid = some client) ∨ ∃ ccid, m.getByCcid ccid = some client

/-- No cuid is in two seats, of one room or of two, and a client that says it is in a
room is in one seat, and in that room. -/
structure SeatsUnique (lobby : LobbyState) : Prop where
  once : ∀ (j k : RoomId) (seat seat' : Nat) (cuid : Cuid), cuid ≠ 0 →
    SeatAt lobby j seat cuid → SeatAt lobby k seat' cuid → j = k ∧ seat = seat'
  own : ∀ client, Known lobby.world.clients client → (lobby.world.client client).roomId ≠ 0 →
    ∃ seat, SeatAt lobby (lobby.world.client client).roomId seat (lobby.world.client client).cuid ∧
      ∀ k seat', SeatAt lobby k seat' (lobby.world.client client).cuid →
        k = (lobby.world.client client).roomId ∧ seat' = seat

def Seated (lobby : LobbyState) : Prop := ∃ S U, Seating S U lobby

theorem Seating.of_no_rooms {S U : Set ClientPtr} (hindexing : Indexing lobby.world.clients S S U)
    (hcuids : ∀ p ∈ S, (lobby.world.client p).cuid ≠ 0) (hrooms : lobby.rooms = ∅)
    (hroomless : ∀ p ∈ S, (lobby.world.client p).roomId = 0) : Seating S U lobby := by
  have hnone : ∀ k : RoomId, lobby.rooms[k]? = none := by simp [hrooms]
  have hnowhere : ∀ {k seat cuid}, ¬ SeatAt lobby k seat cuid := by
    rintro k seat cuid ⟨game, hgame, -⟩
    rw [hnone] at hgame
    cases hgame
  refine ⟨hindexing, hcuids, fun k game hgame => ?_, hnone 0, fun _ hat => absurd hat hnowhere,
    fun p hp hroom => absurd (hroomless p hp) hroom, fun p _ _ _ hat => absurd hat hnowhere⟩
  rw [hnone] at hgame
  cases hgame

theorem Seating.mem_of_known {S U : Set ClientPtr} (h : Seating S U lobby) {client : ClientPtr}
    (hknown : Known lobby.world.clients client) : client ∈ S := by
  rcases hknown with ⟨openid, hget⟩ | ⟨cuid, hget⟩ | ⟨ccid, hget⟩
  · exact h.indexing.openids.mem hget
  · exact h.indexing.cuids.mem hget
  · exact h.indexing.ccids_sub (h.indexing.ccids.mem hget)

theorem Seating.unique {S U : Set ClientPtr} (h : Seating S U lobby) : SeatsUnique lobby := by
  refine ⟨fun _ _ _ _ _ hzero h₁ h₂ => h.once hzero h₁ h₂, fun client hknown hroom => ?_⟩
  have hclient := h.mem_of_known hknown
  obtain ⟨seat, hat⟩ := h.located client hclient hroom
  exact ⟨seat, hat, fun k seat' hat' => h.once (h.cuids client hclient) hat' hat⟩

theorem Seated.reaches (h : lobbySystem.Reaches SafeSeats lobby) : Seated lobby := by
  refine h.invariant ?_ fun lobby a lobby' hinv _ hsafe hstep => ?_
  · rintro lobby ⟨rg, rfl⟩
    exact ⟨∅, ∅, .of_no_rooms indexing_empty (fun _ hp => absurd hp (Set.notMem_empty _)) rfl
      fun _ hp => absurd hp (Set.notMem_empty _)⟩
  · obtain ⟨S, U, hseating⟩ := hinv
    exact hseating.act hsafe (step_act hstep)

/-- In every run in which nobody is turned away from a seat already taken, every cuid has
at most one seat, and every client in a room exactly one. -/
theorem seats_unique (h : lobbySystem.Reaches SafeSeats lobby) : SeatsUnique lobby := by
  obtain ⟨S, U, hseating⟩ := Seated.reaches h
  exact hseating.unique

theorem seats_unique_two : SeatsUnique (beforeLast [strongHand, weakHand]) :=
  seats_unique (beforeLast_reaches (by decide +kernel))

/-- A client is turned away from its own room, twice, and sits in both. -/
def turnedAwayTwice : LobbyState :=
  lobbySystem.after oneClient [.createGame 11 (payedBy 13), .createGame 11 (payedBy 13)]

theorem turned_away_in_two_seats :
    ¬ ∀ lobby : LobbyState, lobbySystem.Reaches (fun _ _ => True) lobby → SeatsUnique lobby := by
  intro hall
  have hreached : lobbySystem.Reaches (fun _ _ => True) turnedAwayTwice :=
    .after oneClient_reaches (by decide +kernel)
  have hseats : ∀ k ∈ [100001, 100002],
      (turnedAwayTwice.rooms[k]?).bind (fun game => game.cuids[0]?) = some 1 := by
    decide +kernel
  have hat : ∀ k ∈ [100001, 100002], SeatAt turnedAwayTwice k 0 1 := fun k hk =>
    Option.bind_eq_some_iff.mp (hseats k hk)
  have hsame := (hall _ hreached).once _ _ 0 0 1 (by simp) (hat 100001 (by simp))
    (hat 100002 (by simp))
  exact absurd hsame.1 (by simp)

end Uniqueness

end CasualGame.Lobby.Seats
