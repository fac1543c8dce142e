import CasualGame.Lobby.LobbyActs

/-!
The moves of a room that is not being entered. Every message to it and every tick is a
sequence of moves, and what each of them keeps holds of whole runs.
-/

namespace CasualGame.Lobby.RoomMoves

open Deck
open Dealing
open Game13
open LobbyState
open RoomSteps
open Lib.Run
open Lib.Writes
open WorldFrames
open LobbyActs

section Start

/-- What a seat keeps when a round is dealt. -/
def seatKey (info : PlayerInfo) : Cuid × String × Vote := (info.cuid, info.name, info.vote)

/-- A round is started: every seat has new cards and is to sort them. -/
structure Started (game game' : Game13) : Prop where
  status : game'.status = .play
  rounds : game'.rounds = game.rounds + 1
  id : game'.id = game.id
  ownerCuid : game'.ownerCuid = game.ownerCuid
  attr : game'.attr = game.attr
  settleData : game'.settleData = game.settleData
  startVoteTime : game'.startVoteTime = game.startVoteTime
  seats : game'.players.map seatKey = game.players.map seatKey
  sort : ∀ info ∈ game'.players, info.status = .sort

variable {w w' : World} {game game' : Game13}

theorem chargeFee_seatKey (w : World) (game : Game13) (client : ClientPtr) (info : PlayerInfo) :
    seatKey (chargeFee w game client info).2 = seatKey info := by
  unfold chargeFee
  split_ifs
  · rfl
  · rfl
  · rfl
  · rfl

theorem dealSeat_seat {index : Nat} {info info' : PlayerInfo}
    (h : dealSeat w game index info = .ok (w', info')) :
    seatKey info' = seatKey info ∧ info'.status = .sort := by
  obtain ⟨cards, -, h⟩ := bind_eq_ok.mp h
  cases hclient : w.getByCuid info.cuid with
  | none =>
      simp only [hclient] at h
      cases h
      exact ⟨rfl, rfl⟩
  | some client =>
      simp only [hclient] at h
      cases h
      exact ⟨chargeFee_seatKey w game client { info with cards := sortHand cards }, rfl⟩

theorem dealSeats_seats {index : Nat} {infos infos' : List PlayerInfo}
    (h : dealSeats game w index infos = .ok (w', infos')) :
    infos'.map seatKey = infos.map seatKey ∧ ∀ info ∈ infos', info.status = .sort := by
  induction infos generalizing w index infos' with
  | nil =>
      cases h
      exact ⟨rfl, by simp⟩
  | cons info infos ih =>
      obtain ⟨⟨w₁, info'⟩, hseat, h⟩ := bind_eq_ok.mp h
      obtain ⟨⟨w₂, rest⟩, hrest, h⟩ := bind_eq_ok.mp h
      cases h
      obtain ⟨hkey, hsort⟩ := dealSeat_seat hseat
      obtain ⟨hkeys, hsorts⟩ := ih hrest
      refine ⟨by simp [hkey, hkeys], ?_⟩
      intro i hi
      rcases List.mem_cons.mp hi with rfl | hi
      · exact hsort
      · exact hsorts i hi

theorem tryStartRound_started (hready : everyoneReady w game = true)
    (h : tryStartRound w game = .ok (w', game')) : Started game game' := by
  rw [tryStartRound, if_pos hready] at h
  obtain ⟨w₁, -, h⟩ := bind_eq_ok.mp h
  obtain ⟨⟨w₂, players⟩, hdeal, h⟩ := bind_eq_ok.mp h
  cases h
  obtain ⟨hseats, hsort⟩ := dealSeats_seats hdeal
  exact ⟨rfl, rfl, rfl, rfl, rfl, rfl, rfl, hseats, hsort⟩

theorem Started.cuids (h : Started game game') : game'.cuids = game.cuids := by
  have hcuids := congrArg (List.map (·.1)) h.seats
  simpa [Game13.cuids, seatKey, List.map_map, Function.comp_def] using hcuids

end Start

section Moves

/-- The votes in a room are over and nothing came of them. -/
def voteFailed (game : Game13) : Game13 :=
  { game.resetVotes with startVoteTime := 0, voteSponsorCuid := 0, status := .play }

inductive Move : World × Game13 → World × Game13 → Prop
  | speaks {w w' : World} {game : Game13} : Says w w' → Move (w, game) (w', game)
  | leaves {w w' : World} {game : Game13} {ccid : Ccid} {client : ClientPtr} {seat : Nat} :
      w.getByCcid ccid = some client → ¬ InRound game →
      game.getPlayerInfoByCuid (w.client client).cuid = some seat →
      Says (w.afterLeaveRoom client) w' →
      Move (w, game) (w', game.updateSeat seat PlayerInfo.clear)
  | dissolves {w : World} {game : Game13} : game.status = .prepare →
      Move (w, game) (abortGame w game)
  | sponsors {w : World} {game : Game13} (cuid : Cuid) : game.status = .play →
      Move (w, game) (w, { game with
        startVoteTime := w.timerTime, voteSponsorCuid := cuid, status := .vote })
  | votes {w : World} {game : Game13} (seat : Nat) (vote : Vote) : game.status = .vote →
      Move (w, game) (w, game.updateSeat seat fun info => { info with vote := vote })
  | fails {w w' : World} {game : Game13} : game.status = .vote → Says w w' →
      Move (w, game) (w', voteFailed game)
  | passes {w w' : World} {game : Game13} : game.status = .vote →
      (∀ info ∈ game.players, info.vote = .aye) → Says w w' →
      Move (w, game)
        (abortGame w' { game.resetVotes with startVoteTime := 0, voteSponsorCuid := 0 })
  | timesOut {w w' : World} {game : Game13} : game.status = .vote →
      MAX_VOTE_DURATION ≤ w.timerTime - game.startVoteTime → Says w w' →
      Move (w, game) (abortGame w' { game.resetVotes with startVoteTime := 0 })
  | readies {w w' : World} {game : Game13} (seat : Nat) {newStatus : PlayerStatus} :
      game.status = .prepare → newStatus = .ready ∨ newStatus = .prep → Says w w' →
      Move (w, game) (w', game.updateSeat seat fun info => { info with status := newStatus })
  | starts {w w' : World} {game game' : Game13} : game.status = .prepare →
      everyoneReady w game = true → tryStartRound w game = .ok (w', game') →
      Move (w, game) (w', game')
  | lays {w w' : World} {game : Game13} (seat : Nat) (hand : Hand) : game.status = .play →
      everyoneCompare (storeHand game seat hand) = false → Says w w' →
      Move (w, game) (w', storeHand game seat hand)
  | settles {w w₁ w' : World} {game game' : Game13} (seat : Nat) (hand : Hand) :
      game.status = .play → everyoneCompare (storeHand game seat hand) = true →
      game.rounds < game.attr.rounds → Says w w₁ →
      tryStartRound w₁ { settled (storeHand game seat hand) with status := .settle } =
        .ok (w', game') → Move (w, game) (w', game')
  | ends {w w' : World} {game : Game13} (seat : Nat) (hand : Hand) (time : Int) :
      game.status = .play → everyoneCompare (storeHand game seat hand) = true →
      game.attr.rounds ≤ game.rounds → Says w w' →
      Move (w, game) (w', { settled (storeHand game seat hand) with
        status := .settleAll, settleAllTime := time })
  | expires {w : World} {game : Game13} : game.status = .settleAll →
      Move (w, game) (abortGame w { game with settleAllTime := 0 })
  | dies {w : World} {game : Game13} : game.status = .closed →
      Move (w, game) (w, game.destroyLater)

abbrev Moved := Relation.ReflTransGen Move

theorem Moved.invariant {P : World × Game13 → Prop} {s s' : World × Game13} (h : Moved s s')
    (hmove : ∀ s s', Move s s' → P s → P s') (hs : P s) : P s' := by
  induction h with
  | refl => exact hs
  | tail _ hlast ih => exact hmove _ _ hlast ih

end Moves

section Seats

theorem mem_updateSeat {game : Game13} {seat : Nat} {f : PlayerInfo → PlayerInfo}
    {info : PlayerInfo} (h : info ∈ (game.updateSeat seat f).players) :
    info ∈ game.players ∨ ∃ old, game.players[seat]? = some old ∧ info = f old := by
  obtain ⟨k, hk⟩ := List.mem_iff_getElem?.mp h
  rw [updateSeat, List.getElem?_modify, Option.map_eq_map, Option.map_eq_some_iff] at hk
  obtain ⟨old, hold, heq⟩ := hk
  split_ifs at heq with hseat
  · exact Or.inr ⟨old, hseat ▸ hold, heq.symm⟩
  · exact Or.inl (heq ▸ List.mem_of_getElem? hold)

theorem mem_cuids_of_updateSeat {game : Game13} {seat : Nat} {f : PlayerInfo → PlayerInfo}
    (hf : ∀ info, (f info).cuid = info.cuid ∨ (f info).cuid = 0) {cuid : Cuid} (hzero : cuid ≠ 0)
    (h : cuid ∈ (game.updateSeat seat f).cuids) : cuid ∈ game.cuids := by
  obtain ⟨info, hinfo, rfl⟩ := List.mem_map.mp h
  rcases mem_updateSeat hinfo with hold | ⟨old, hold, rfl⟩
  · exact List.mem_map_of_mem hold
  · rw [(hf old).resolve_right hzero]
    exact List.mem_map_of_mem (List.mem_of_getElem? hold)

theorem map_updateSeat {γ : Type} {g : PlayerInfo → γ} {f : PlayerInfo → PlayerInfo}
    (hf : ∀ info, g (f info) = g info) (game : Game13) (seat : Nat) :
    (game.updateSeat seat f).players.map g = game.players.map g :=
  map_modify_of_eq hf game.players seat

theorem cuids_storeHand (game : Game13) (seat : Nat) (hand : Hand) :
    (storeHand game seat hand).cuids = game.cuids :=
  map_updateSeat (f := fun info => { info with status := .compare, cards := hand })
    (fun _ => rfl) game seat

end Seats

section Votes

theorem scanVotes_ayes_le (infos : List PlayerInfo) : (scanVotes infos).1 ≤ infos.length := by
  induction infos with
  | nil => exact Nat.le_refl 0
  | cons info infos ih =>
      simp only [scanVotes, List.length_cons]
      split
      · exact Nat.zero_le _
      · exact Nat.succ_le_succ ih
      · exact Nat.le_succ_of_le ih

theorem all_aye_of_scanVotes {infos : List PlayerInfo}
    (h : (scanVotes infos).1 = infos.length) : ∀ info ∈ infos, info.vote = .aye := by
  induction infos with
  | nil => simp
  | cons info infos ih =>
      simp only [scanVotes, List.length_cons] at h
      cases hvote : info.vote with
      | none =>
          simp only [hvote] at h
          have := scanVotes_ayes_le infos
          omega
      | aye =>
          simp only [hvote, Nat.add_right_cancel_iff] at h
          intro i hi
          rcases List.mem_cons.mp hi with rfl | hi
          · exact hvote
          · exact ih h i hi
      | nay =>
          simp only [hvote] at h
          omega

theorem opponent_of_nay {infos : List PlayerInfo} (hcuids : ∀ info ∈ infos, info.cuid ≠ 0)
    (h : ∃ info ∈ infos, info.vote = .nay) : (scanVotes infos).2.1 ≠ 0 := by
  induction infos with
  | nil =>
      obtain ⟨info, hinfo, -⟩ := h
      cases hinfo
  | cons info infos ih =>
      simp only [scanVotes]
      cases hvote : info.vote with
      | nay => exact hcuids info List.mem_cons_self
      | none | aye =>
          apply ih fun i hi => hcuids i (List.mem_cons_of_mem info hi)
          obtain ⟨i, hi, hnay⟩ := h
          rcases List.mem_cons.mp hi with rfl | hi
          · rw [hvote] at hnay
            cases hnay
          · exact ⟨i, hi, hnay⟩

theorem checkAllVotes_moved {w : World} {game : Game13} (hvote : game.status = .vote) :
    Moved (w, game) (checkAllVotes w game) := by
  rw [checkAllVotes, if_neg (by simp [hvote])]
  dsimp only
  split_ifs with hopponent hayes
  · exact .single (.fails hvote (says_sendToSeats w _ _))
  · exact .single (.passes hvote (all_aye_of_scanVotes hayes) (says_sendToSeats w _ _))
  · exact .single (.speaks (says_sendToSeats w _ _))

theorem checkAllVotes_fails {w : World} {game : Game13} (hvote : game.status = .vote)
    (hopponent : (scanVotes game.players).2.1 ≠ 0) :
    (checkAllVotes w game).2 = voteFailed game := by
  rw [checkAllVotes, if_neg (by simp [hvote])]
  dsimp only
  rw [if_pos hopponent]
  rfl

end Votes

section Calls

variable {w w' : World} {game game' : Game13}

theorem removePlayer_moved {ccid : Ccid} {client : ClientPtr} {seat : Nat}
    (hclient : w.getByCcid ccid = some client) (hidle : ¬ InRound game)
    (hseat : game.getPlayerInfoByCuid (w.client client).cuid = some seat) :
    Moved (w, game) (removePlayer w game client) := by
  rw [removePlayer]
  simp only [hseat]
  exact .single (.leaves hclient hidle hseat (says_sync _ _))

theorem giveUpRoom_moved {ccid : Ccid} {client : ClientPtr} {seat : Nat}
    (hclient : w.getByCcid ccid = some client)
    (hseat : game.getPlayerInfoByCuid (w.client client).cuid = some seat) :
    Moved (w, game) (giveUpRoom w game client seat) := by
  unfold giveUpRoom
  cases hstatus : game.status with
  | prepare =>
      dsimp only
      split_ifs
      · exact .single (.dissolves hstatus)
      · exact removePlayer_moved hclient (by simp [InRound, hstatus]) hseat
  | play =>
      refine .head (.sponsors (w.client client).cuid hstatus) (.head (.votes seat .aye rfl) ?_)
      exact checkAllVotes_moved rfl
  | vote =>
      refine .head (.votes seat .aye hstatus) ?_
      exact checkAllVotes_moved hstatus
  | settle => exact .refl
  | settleAll | closed => exact removePlayer_moved hclient (by simp [InRound, hstatus]) hseat

theorem voteRoom_moved (w : World) (seat : Nat) (vote : Vote) (hvote : game.status = .vote) :
    Moved (w, game) (voteRoom w game seat vote) := by
  unfold voteRoom
  dsimp only
  split_ifs
  · exact .single (.votes seat vote hvote)
  · exact .head (.votes seat vote hvote) (checkAllVotes_moved hvote)

theorem tryStartRound_moved (hprepare : game.status = .prepare)
    (h : tryStartRound w game = .ok (w', game')) : Moved (w, game) (w', game') := by
  by_cases hready : everyoneReady w game = true
  · exact .single (.starts hprepare hready h)
  · rw [tryStartRound, if_neg hready] at h
    cases h
    exact .refl

theorem readyFlagRoom_moved {seat : Nat} (ready : Bool) (hprepare : game.status = .prepare)
    (h : readyFlagRoom w game seat (readyStatus ready) = .ok (w', game')) :
    Moved (w, game) (w', game') := by
  have hnew : readyStatus ready = .ready ∨ readyStatus ready = .prep := by
    cases ready
    · exact Or.inr rfl
    · exact Or.inl rfl
  simp only [readyFlagRoom] at h
  split_ifs at h
  · exact .head (.readies seat hprepare hnew (says_sync w _)) (tryStartRound_moved hprepare h)
  · cases h
    exact .single (.readies seat hprepare hnew (says_sync w _))

theorem bringOutRoom_moved {seat : Nat} {hand : Hand} (hplay : game.status = .play)
    (h : bringOutRoom w game seat hand = .ok (w', game')) : Moved (w, game) (w', game') := by
  obtain ⟨⟨w₁, game₁⟩, hsettle, h⟩ := bind_eq_ok.mp h
  have hplay' : (storeHand game seat hand).status = .play := hplay
  have hsaid := (says_sync w (storeHand game seat hand)).trans (says_trySettleGame hsettle)
  cases hall : everyoneCompare (storeHand game seat hand) with
  | false =>
      rw [trySettleGame_waits hplay' hall] at hsettle
      cases hsettle
      dsimp only at h
      rw [if_neg (by simp [hplay'])] at h
      cases h
      exact .single (.lays seat hand hplay hall hsaid)
  | true =>
      obtain ⟨-, -, -, ⟨hrounds, rfl⟩ | ⟨hrounds, rfl⟩⟩ := trySettleGame_settles hplay' hall hsettle
      · dsimp only at h
        rw [if_pos rfl] at h
        exact .single (.settles seat hand hplay hall hrounds hsaid h)
      · dsimp only at h
        rw [if_neg (by simp)] at h
        cases h
        exact .single (.ends seat hand _ hplay hall hrounds hsaid)

theorem timerExec_moved (h : timerExec w game = .ok (w', game')) :
    Moved (w, game) (w', game') := by
  unfold timerExec at h
  cases hstatus : game.status with
  | prepare =>
      simp only [hstatus] at h
      exact tryStartRound_moved hstatus h
  | vote =>
      simp only [hstatus] at h
      split_ifs at h with htime
      · cases h
        exact .single (.timesOut hstatus htime (says_sendToSeats w _ _))
      · cases h
        exact .refl
  | settleAll =>
      simp only [hstatus] at h
      split_ifs at h
      · cases h
        exact .single (.expires hstatus)
      · cases h
        exact .refl
  | closed =>
      simp only [hstatus] at h
      cases h
      exact .single (.dies hstatus)
  | play | settle =>
      simp only [hstatus] at h
      cases h
      exact .refl

theorem roomCall_moved {roomId : RoomId} {a : Event} (h : RoomCall w roomId game a w' game') :
    (∃ ccid id client, a = .jionGame ccid id ∧ w.getByCcid ccid = some client ∧
        CalcRound.toUInt32 id = roomId ∧ w' = (enterRoom w game client).2.1 ∧
          game' = (enterRoom w game client).2.2) ∨
      (roomId ≠ 0 ∨ game.status = .vote) ∧ Moved (w, game) (w', game') := by
  cases h with
  | @jions ccid id client hclient hid =>
      exact Or.inl ⟨ccid, id, client, rfl, hclient, hid, rfl, rfl⟩
  | givesUp hsender hroom hseat => exact Or.inr ⟨Or.inl hroom, giveUpRoom_moved hsender.found hseat⟩
  | votes _ hvote _ => exact Or.inr ⟨Or.inr hvote, voteRoom_moved w _ _ hvote⟩
  | readies _ hroom hprepare _ hready =>
      exact Or.inr ⟨Or.inl hroom, readyFlagRoom_moved _ hprepare hready⟩
  | brings _ hroom hplay _ _ _ hbring =>
      exact Or.inr ⟨Or.inl hroom, bringOutRoom_moved hplay hbring⟩

theorem games_of_act {P : Game13 → Prop} {lobby lobby' : LobbyState} {a : Event}
    (h : Act lobby a lobby') (hopened : ∀ rcv client, P (Admission.opened lobby rcv client))
    (henters : ∀ w game client, P game → P (enterRoom w game client).2.2)
    (hmove : ∀ s s', Move s s' → P s.2 → P s'.2)
    (hrooms : ∀ (k : RoomId) (game : Game13), lobby.rooms[k]? = some game → P game) :
    ∀ (k : RoomId) (game : Game13), lobby'.rooms[k]? = some game → P game := by
  have hmoved : ∀ {s s'}, Moved s s' → P s.2 → P s'.2 := fun hmoved hs =>
    hmoved.invariant (P := fun s => P s.2) (fun s s' h hs => hmove s s' h hs) hs
  refine h.rooms (P := fun _ game => P game) ?_ ?_ ?_ hrooms
  · intro rcv client
    exact henters _ _ client (hopened rcv client)
  · intro roomId game w' game' _ hgame hcall
    rcases roomCall_moved hcall with ⟨_, _, client, -, -, -, -, rfl⟩ | ⟨-, hcalled⟩
    · exact henters _ game client hgame
    · exact hmoved hcalled hgame
  · intro w roomId game w' game' hgame _ hexec
    exact hmoved (timerExec_moved hexec) hgame

end Calls

section Numbers

/-- A room that lives has the number it is registered under, and a dead one has neither
number nor seats. No client can say it is in a room `0`, so that one never starts. -/
structure Placed (k : RoomId) (game : Game13) : Prop where
  alive : game.status ≠ .closed → game.id = k
  dead : game.status = .closed → game.id = 0 ∧ game.players = []
  zero : k = 0 → game.status = .prepare ∨ game.status = .closed

def RoomsPlaced (lobby : LobbyState) : Prop :=
  ∀ (k : RoomId) (game : Game13), lobby.rooms[k]? = some game → Placed k game

variable {k : RoomId} {w : World} {game game' : Game13}

theorem Placed.of_alive (hk : k ≠ 0) (hid : game.id = k) (hstatus : game.status ≠ .closed) :
    Placed k game :=
  ⟨fun _ => hid, fun h => absurd h hstatus, fun h => absurd h hk⟩

theorem Placed.of_dead (hid : game.id = 0) (hplayers : game.players = [])
    (hstatus : game.status = .closed) : Placed k game :=
  ⟨fun h => absurd hstatus h, fun _ => ⟨hid, hplayers⟩, fun _ => Or.inr hstatus⟩

theorem Placed.of_seats (h : Placed k game) (hid : game'.id = game.id)
    (hstatus : game'.status = game.status) (hplayers : game.players = [] → game'.players = []) :
    Placed k game' := by
  refine ⟨fun halive => ?_, fun hdead => ?_, fun hk => ?_⟩
  · rw [hid]
    exact h.alive (hstatus ▸ halive)
  · obtain ⟨hzero, hnone⟩ := h.dead (hstatus ▸ hdead)
    exact ⟨hid.trans hzero, hplayers hnone⟩
  · rw [hstatus]
    exact h.zero hk

theorem Placed.updateSeat (h : Placed k game) (seat : Nat) (f : PlayerInfo → PlayerInfo) :
    Placed k (game.updateSeat seat f) := by
  refine h.of_seats rfl rfl fun hnone => ?_
  rw [Game13.updateSeat, hnone]
  exact List.modify_nil ..

theorem Placed.move {s s' : World × Game13} (hk : k ≠ 0) (h : Move s s') (hs : Placed k s.2) :
    Placed k s'.2 := by
  have halive : ∀ {status}, s.2.status = status → status ≠ .closed → s.2.id = k :=
    fun heq hne => hs.alive (heq ▸ hne)
  cases h with
  | speaks _ => exact hs
  | leaves _ _ _ _ => exact hs.updateSeat _ _
  | dissolves _ => exact .of_dead rfl rfl rfl
  | sponsors _ hplay => exact .of_alive hk (halive hplay (by simp)) (by simp)
  | votes _ _ _ => exact hs.updateSeat _ _
  | fails hvote _ => exact .of_alive hk (halive hvote (by simp)) (by simp [voteFailed])
  | passes _ _ _ => exact .of_dead rfl rfl rfl
  | timesOut _ _ _ => exact .of_dead rfl rfl rfl
  | readies _ _ _ _ => exact hs.updateSeat _ _
  | starts hprepare hready hstart =>
      have hstarted := tryStartRound_started hready hstart
      exact .of_alive hk (hstarted.id.trans (halive hprepare (by simp))) (by simp [hstarted.status])
  | lays _ _ _ _ _ => exact hs.updateSeat _ _
  | settles _ _ hplay _ _ _ hstart =>
      have hstarted := tryStartRound_started rfl hstart
      exact .of_alive hk (hstarted.id.trans (halive hplay (by simp))) (by simp [hstarted.status])
  | ends _ _ _ hplay _ _ _ => exact .of_alive hk (halive hplay (by simp)) (by simp)
  | expires _ => exact .of_dead rfl rfl rfl
  | dies hclosed => exact .of_dead rfl (hs.dead hclosed).2 hclosed

theorem Placed.moved {s s' : World × Game13} (hk : k ≠ 0) (h : Moved s s')
    (hs : Placed k s.2) : Placed k s'.2 :=
  h.invariant (fun _ _ hmove hs => Placed.move hk hmove hs) hs

theorem Placed.enterRoom (h : Placed k game) (w : World) (client : ClientPtr) :
    Placed k (enterRoom w game client).2.2 :=
  Admission.enterRoom_game w client h fun _ _ _ => h.updateSeat _ _

theorem Placed.number_ne_zero (h : Placed k game) (hround : InRound game) : k ≠ 0 := by
  intro hk
  rcases h.zero hk with hprepare | hclosed
  · exact hround.ne_prepare hprepare
  · exact hround.ne_closed hclosed

theorem Placed.id_ne_zero (h : Placed k game) (hround : InRound game) : game.id ≠ 0 := by
  rw [h.alive hround.ne_closed]
  exact h.number_ne_zero hround

theorem RoomsPlaced.act {lobby lobby' : LobbyState} {a : Event} (h : Act lobby a lobby')
    (hplaced : RoomsPlaced lobby) : RoomsPlaced lobby' := by
  refine h.rooms ?_ ?_ ?_ hplaced
  · intro rcv client
    have hopened : Placed lobby.getRoomId.1 (Admission.opened lobby rcv client) :=
      ⟨fun _ => rfl, fun hclosed => (nomatch hclosed), fun _ => Or.inl rfl⟩
    exact hopened.enterRoom _ client
  · intro roomId game w' game' _ hgame hcall
    rcases roomCall_moved hcall with ⟨_, _, client, -, -, -, -, rfl⟩ | ⟨hroom, hmoved⟩
    · exact hgame.enterRoom _ client
    · refine Placed.moved ?_ hmoved hgame
      rintro rfl
      rcases hroom with hroom | hvote
      · exact hroom rfl
      · exact hgame.id_ne_zero (Or.inr hvote) (hgame.alive (by simp [hvote]))
  · intro w roomId game w' game' hgame hid hexec
    refine Placed.moved ?_ (timerExec_moved hexec) hgame
    rintro rfl
    by_cases hclosed : game.status = .closed
    · exact hid (hgame.dead hclosed).1
    · exact hid (hgame.alive hclosed)

theorem RoomsPlaced.reaches {C : LobbyState → Event → Prop} {lobby : LobbyState}
    (h : lobbySystem.Reaches C lobby) : RoomsPlaced lobby := by
  refine h.invariant ?_ fun lobby a lobby' hinv _ _ hstep => hinv.act (step_act hstep)
  rintro lobby ⟨rg, rfl⟩ k game hgame
  simp [LobbyState.start] at hgame

end Numbers

end CasualGame.Lobby.RoomMoves
