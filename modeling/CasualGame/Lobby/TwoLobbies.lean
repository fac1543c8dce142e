import CasualGame.Lobby.Bookkeeping
import CasualGame.Lobby.Seats
import CasualGame.Lobby.TwoRuns

/-!
Two runs of the lobby side by side that differ in nothing but the cards of one game: until
the round is settled only the return of a client can tell them apart.
-/

namespace CasualGame.Lobby.TwoLobbies

open CalcRound
open Game13
open LobbyState
open RoomSteps
open LobbySteps
open LobbyActs
open RoomMoves
open Bookkeeping
open TwoRuns
open Lib.Run
open Lib.Relate
open Lib.Writes

section Bare

def bareSeat (info : PlayerInfo) : PlayerInfo := { info with cards := Hand.undealt }

/-- The game without the cards. -/
def bare (game : Game13) : Game13 := { game with players := game.players.map bareSeat }

variable {game game₁ game₂ : Game13} {w : World}

theorem eq_of_bare {α : Type} {F : Game13 → α} (hF : ∀ game, F (bare game) = F game)
    (h : bare game₁ = bare game₂) : F game₁ = F game₂ := by
  rw [← hF game₁, h, hF]

theorem cuids_bare (game : Game13) : (bare game).cuids = game.cuids := by
  simp [Game13.cuids, bare, bareSeat, Function.comp_def]

theorem status_bare (game : Game13) : (bare game).status = game.status := rfl

theorem getPlayerInfoByCuid_bare (game : Game13) (cuid : Cuid) :
    (bare game).getPlayerInfoByCuid cuid = game.getPlayerInfoByCuid cuid := by
  rw [getPlayerInfoByCuid, bare, List.findIdx?_map]
  rfl

theorem playersInRoom_bare (game : Game13) : (bare game).playersInRoom = game.playersInRoom := by
  simp [playersInRoom, bare, bareSeat]

theorem seatStatus_bare (game : Game13) (seat : Nat) :
    ((bare game).players[seat]?).map (·.status) = (game.players[seat]?).map (·.status) := by
  simp [bare, bareSeat, Function.comp_def]

theorem everyoneCompare_bare (game : Game13) :
    everyoneCompare (bare game) = everyoneCompare game := by
  rw [everyoneCompare, bare, List.all_map]
  rfl

theorem scanVotes_bare (infos : List PlayerInfo) :
    scanVotes (infos.map bareSeat) = scanVotes infos := by
  induction infos with
  | nil => rfl
  | cons info infos ih =>
      rw [List.map_cons, scanVotes, scanVotes, ih]
      rfl

theorem updateSeat_bare (game : Game13) (seat : Nat) {f : PlayerInfo → PlayerInfo}
    (hf : ∀ info, f (bareSeat info) = bareSeat (f info)) :
    (bare game).updateSeat seat f = bare (game.updateSeat seat f) := by
  have hplayers : (game.players.map bareSeat).modify seat f =
      (game.players.modify seat f).map bareSeat := by
    exact (map_modify_of_comp (fun info => (hf info).symm) game.players seat).symm
  simp only [Game13.updateSeat, bare, hplayers]

theorem sync_bare (w : World) (game : Game13) :
    syncAllPlayersInfoToAllClients w (bare game) = syncAllPlayersInfoToAllClients w game := by
  simp only [syncAllPlayersInfoToAllClients, sendToAll, cuids_bare, playersInRoom_bare]

theorem abortGame_bare (w : World) (game : Game13) :
    abortGame w (bare game) = abortGame w game := by
  rw [abortGame, abortGame, cuids_bare]
  rfl

theorem checkAllVotes_bare (w : World) (game : Game13) :
    (checkAllVotes w (bare game)).1 = (checkAllVotes w game).1 := by
  have hcuids : (bare game).resetVotes.cuids = game.resetVotes.cuids := by
    rw [Seats.cuids_resetVotes, Seats.cuids_resetVotes, cuids_bare]
  have hlength : (bare game).players.length = game.players.length := List.length_map ..
  unfold checkAllVotes
  rw [status_bare, cuids_bare, hlength]
  simp only [bare, scanVotes_bare]
  split_ifs
  · rfl
  · rfl
  · exact congrArg (kickAll _) hcuids
  · rfl

theorem castVote_bare (w : World) (game : Game13) (seat : Nat) (vote : Vote) :
    (checkAllVotes w ((bare game).updateSeat seat fun info => { info with vote := vote })).1 =
      (checkAllVotes w (game.updateSeat seat fun info => { info with vote := vote })).1 := by
  rw [updateSeat_bare game seat (f := fun info => { info with vote := vote }) fun _ => rfl]
  exact checkAllVotes_bare w _

theorem removePlayer_bare (w : World) (game : Game13) (p : ClientPtr) :
    (removePlayer w (bare game) p).1 = (removePlayer w game p).1 := by
  unfold removePlayer
  rw [getPlayerInfoByCuid_bare]
  cases game.getPlayerInfoByCuid (w.client p).cuid with
  | none => exact sync_bare w game
  | some index =>
      dsimp only
      rw [updateSeat_bare game index (f := PlayerInfo.clear) fun _ => rfl]
      exact sync_bare _ _

theorem giveUpRoom_bare (w : World) (game : Game13) (p : ClientPtr) (seat : Nat) :
    (giveUpRoom w (bare game) p seat).1 = (giveUpRoom w game p seat).1 := by
  unfold giveUpRoom
  rw [status_bare]
  cases game.status with
  | prepare =>
      dsimp only
      rw [show (bare game).ownerCuid = game.ownerCuid from rfl]
      split_ifs
      · exact congrArg Prod.fst (abortGame_bare w game)
      · exact removePlayer_bare w game p
  | play => exact castVote_bare w { game with
      startVoteTime := w.timerTime
      voteSponsorCuid := (w.client p).cuid
      status := .vote } seat .aye
  | vote => exact castVote_bare w game seat .aye
  | settle => rfl
  | settleAll | closed => exact removePlayer_bare w game p

theorem enterRoom_bare (w : World) (p : ClientPtr) (hround : InRound game) :
    (enterRoom w (bare game) p).2.1 = (enterRoom w game p).2.1 := by
  unfold enterRoom
  rw [status_bare, if_pos hround.ne_prepare, if_pos hround.ne_prepare,
    show (bare game).id = game.id from rfl]
  dsimp only
  split_ifs
  · rfl
  · rfl
  · rfl

theorem bare_storeHand (game : Game13) (seat : Nat) (hand : Hand) :
    bare (storeHand game seat hand) =
      (bare game).updateSeat seat fun info => { info with status := .compare } := by
  have hplayers : (game.players.modify seat fun info =>
      { info with status := .compare, cards := hand }).map bareSeat =
        (game.players.map bareSeat).modify seat fun info => { info with status := .compare } :=
    map_modify_of_comp (by intro info; rfl) game.players seat
  simp only [bare, storeHand, Game13.updateSeat, hplayers]

theorem bringOutRoom_waits {seat : Nat} {hand : Hand} (w : World) (hplay : game.status = .play)
    (hwait : everyoneCompare (storeHand game seat hand) = false) :
    bringOutRoom w game seat hand = .ok (syncAllPlayersInfoToAllClients w
      (storeHand game seat hand), storeHand game seat hand) := by
  have hplay' : (storeHand game seat hand).status = .play := hplay
  show (trySettleGame _ (storeHand game seat hand)).bind _ = _
  rw [trySettleGame_waits hplay' hwait]
  show (if (storeHand game seat hand).status = .settle then _ else _) = _
  rw [if_neg (by simp [hplay'])]
  rfl

theorem settles_of_compare {w' : World} {game' : Game13} {seat : Nat} {hand : Hand}
    (hdeck : DeckOk w.deck) (hplay : game.status = .play)
    (hall : everyoneCompare (storeHand game seat hand) = true)
    (h : bringOutRoom w game seat hand = .ok (w', game')) : Settles game game' := by
  obtain ⟨-, -, hbrought⟩ := bringOutRoom_spec hdeck hplay h
  cases hbrought with
  | waits hwait _ =>
      rw [hall] at hwait
      cases hwait
  | goesOn _ _ _ hdealt => exact ⟨_, hdealt.settleData⟩
  | ends _ _ _ hsame _ => exact ⟨_, hsame.settleData⟩

theorem players_eq_of_bare {infos₁ infos₂ : List PlayerInfo}
    (hbare : infos₁.map bareSeat = infos₂.map bareSeat)
    (hcards : infos₁.map (·.cards) = infos₂.map (·.cards)) : infos₁ = infos₂ := by
  induction infos₁ generalizing infos₂ with
  | nil =>
      rw [List.map_nil] at hbare
      exact (List.map_eq_nil_iff.mp hbare.symm).symm
  | cons info₁ infos₁ ih =>
      cases infos₂ with
      | nil => cases hbare
      | cons info₂ infos₂ =>
          obtain ⟨hseat, hbare⟩ := List.cons.inj hbare
          obtain ⟨hhand, hcards⟩ := List.cons.inj hcards
          rw [ih hbare hcards]
          obtain ⟨cuid₁, name₁, status₁, money₁, cards₁, vote₁⟩ := info₁
          obtain ⟨cuid₂, name₂, status₂, money₂, cards₂, vote₂⟩ := info₂
          cases hhand
          cases hseat
          rfl

end Bare

section Lobbies

/-- Two games of which nobody could tell one from the other who sees no cards. -/
def SameButCards (game₁ game₂ : Game13) : Prop := InRound game₁ ∧ bare game₁ = bare game₂

variable {s₁ s₂ : List Outgoing} {w₁ w₂ : World} {game₁ game₂ : Game13}

theorem SameButCards.apply {α : Type} {F : Game13 → α} (h : SameButCards game₁ game₂)
    (hF : ∀ game, F (bare game) = F game) : F game₁ = F game₂ :=
  eq_of_bare hF h.2

theorem SameButCards.status (h : SameButCards game₁ game₂) : game₁.status = game₂.status :=
  h.apply status_bare

theorem SameButCards.inRound (h : SameButCards game₁ game₂) : InRound game₂ := by
  rw [InRound, ← h.status]
  exact h.1

theorem SameButCards.seat (h : SameButCards game₁ game₂) (cuid : Cuid) :
    game₁.getPlayerInfoByCuid cuid = game₂.getPlayerInfoByCuid cuid :=
  h.apply (F := fun game => game.getPlayerInfoByCuid cuid) fun game =>
    getPlayerInfoByCuid_bare game cuid

theorem SameButCards.eq_of_players (h : SameButCards game₁ game₂)
    (hplayers : game₁.players = game₂.players) : game₁ = game₂ := by
  obtain ⟨id₁, owner₁, attr₁, players₁, status₁, rounds₁, time₁, sponsor₁, all₁, sheet₁⟩ := game₁
  obtain ⟨id₂, owner₂, attr₂, players₂, status₂, rounds₂, time₂, sponsor₂, all₂, sheet₂⟩ := game₂
  cases hplayers
  cases h.2
  rfl

theorem SameButCards.giveUpRoom (h : SameButCards game₁ game₂) (w : World) (p : ClientPtr)
    (seat : Nat) : (giveUpRoom w game₁ p seat).1 = (giveUpRoom w game₂ p seat).1 :=
  h.apply (F := fun game => (LobbyState.giveUpRoom w game p seat).1) fun game =>
    giveUpRoom_bare w game p seat

theorem SameButCards.castVote (h : SameButCards game₁ game₂) (w : World) (seat : Nat)
    (vote : Vote) :
    (checkAllVotes w (game₁.updateSeat seat fun info => { info with vote := vote })).1 =
      (checkAllVotes w (game₂.updateSeat seat fun info => { info with vote := vote })).1 :=
  h.apply (F := fun game => (checkAllVotes w (game.updateSeat seat fun info =>
    { info with vote := vote })).1) fun game => castVote_bare w game seat vote

theorem SameButCards.enterRoom (h : SameButCards game₁ game₂) (w : World) (p : ClientPtr) :
    (enterRoom w game₁ p).2.1 = (enterRoom w game₂ p).2.1 := by
  rw [← enterRoom_bare w p h.1, h.2, enterRoom_bare w p h.inRound]

theorem SameButCards.storeHand (h : SameButCards game₁ game₂) (seat : Nat) (hand : Hand) :
    SameButCards (storeHand game₁ seat hand) (storeHand game₂ seat hand) :=
  ⟨h.1, by rw [bare_storeHand, bare_storeHand, h.2]⟩

theorem SameButCards.seatStatus (h : SameButCards game₁ game₂) (seat : Nat) :
    (game₁.players[seat]?).map (·.status) = (game₂.players[seat]?).map (·.status) :=
  h.apply (F := fun game => (game.players[seat]?).map (·.status)) fun game =>
    seatStatus_bare game seat

theorem SameButCards.everyoneCompare (h : SameButCards game₁ game₂) :
    everyoneCompare game₁ = everyoneCompare game₂ :=
  h.apply everyoneCompare_bare

theorem SameButCards.sync (h : SameButCards game₁ game₂) (w : World) :
    syncAllPlayersInfoToAllClients w game₁ = syncAllPlayersInfoToAllClients w game₂ :=
  h.apply (sync_bare w)

theorem SameButCards.timerExec (h : SameButCards game₁ game₂) (hw : Twins s₁ s₂ w₁ w₂) :
    Related (fun r₁ r₂ => Twins s₁ s₂ r₁.1 r₂.1 ∧ (r₁.2 = r₂.2 ∨ SameButCards r₁.2 r₂.2))
      (timerExec w₁ game₁) (timerExec w₂ game₂) := by
  have hstatus : game₁.status = game₂.status := h.apply status_bare
  have htime : game₁.startVoteTime = game₂.startVoteTime := h.apply fun _ => rfl
  have hcuids : game₁.cuids = game₂.cuids := h.apply cuids_bare
  have habort : ∀ w, abortGame w { game₁.resetVotes with startVoteTime := 0 } =
      abortGame w { game₂.resetVotes with startVoteTime := 0 } := by
    intro w
    refine h.apply (F := fun game => abortGame w { game.resetVotes with startVoteTime := 0 }) ?_
    intro game
    rw [abortGame, abortGame]
    show (kickAll w (bare game).resetVotes.cuids, _) = (kickAll w game.resetVotes.cuids, _)
    rw [Seats.cuids_resetVotes, Seats.cuids_resetVotes, cuids_bare]
    rfl
  unfold Game13.timerExec
  rw [hw.timerTime, ← hstatus, ← htime, ← hcuids]
  rcases h.1 with hplay | hvote
  · rw [hplay]
    exact .ok ⟨hw, Or.inr h⟩
  · rw [hvote]
    dsimp only
    split_ifs
    · rw [habort]
      obtain ⟨hworld, hgame⟩ := (hw.sendToSeats game₁.cuids _).abortGame _
      exact .ok ⟨hworld, Or.inl hgame⟩
    · exact .ok ⟨hw, Or.inr h⟩

/-- What two lobbies may have under the number `k` when only the cards of room `r` differ. -/
inductive Resembles (r k : RoomId) : Option Game13 → Option Game13 → Prop
  | vacant : Resembles r k none none
  | same (game : Game13) : Resembles r k (some game) (some game)
  | hidden {game₁ game₂ : Game13} : k = r → SameButCards game₁ game₂ →
      Resembles r k (some game₁) (some game₂)

/-- Two lobbies that differ in the cards of room `r` alone and have sent the same since
`s₁` and `s₂`. -/
structure Parallel (r : RoomId) (s₁ s₂ : List Outgoing) (lobby₁ lobby₂ : LobbyState) : Prop where
  world : Twins s₁ s₂ lobby₁.world lobby₂.world
  lastRoomId : lobby₁.lastRoomId = lobby₂.lastRoomId
  rooms : ∀ k : RoomId, Resembles r k lobby₁.rooms[k]? lobby₂.rooms[k]?

/-- The lobbies have sent the same. -/
def Alike (s₁ s₂ : List Outgoing) (lobby₁ lobby₂ : LobbyState) : Prop :=
  Twins s₁ s₂ lobby₁.world lobby₂.world

variable {r k : RoomId} {lobby₁ lobby₂ : LobbyState}

theorem Resembles.refl (r k : RoomId) (room : Option Game13) : Resembles r k room room := by
  cases room with
  | none => exact .vacant
  | some game => exact .same game

theorem Resembles.of_eq {room₁ room₂ : Option Game13} (h : room₁ = room₂) :
    Resembles r k room₁ room₂ :=
  h ▸ Resembles.refl r k room₁

theorem Parallel.setRoom (h : Parallel r s₁ s₂ lobby₁ lobby₂) (hw : Twins s₁ s₂ w₁ w₂)
    (hgame : Resembles r k (some game₁) (some game₂)) :
    Parallel r s₁ s₂ (lobby₁.setRoom k w₁ game₁) (lobby₂.setRoom k w₂ game₂) := by
  refine ⟨hw, h.lastRoomId, fun j => ?_⟩
  rw [getElem?_setRoom, getElem?_setRoom]
  split_ifs with hj
  · rw [hj]
    exact hgame
  · exact h.rooms j

theorem Parallel.erase (h : Parallel r s₁ s₂ lobby₁ lobby₂) (k : RoomId) :
    Parallel r s₁ s₂ { lobby₁ with rooms := lobby₁.rooms.erase k }
      { lobby₂ with rooms := lobby₂.rooms.erase k } := by
  refine ⟨h.world, h.lastRoomId, fun j => ?_⟩
  simp only [Std.TreeMap.getElem?_erase]
  split_ifs
  · exact .vacant
  · exact h.rooms j

theorem Parallel.mem_rooms (h : Parallel r s₁ s₂ lobby₁ lobby₂) (k : RoomId) :
    k ∈ lobby₁.rooms ↔ k ∈ lobby₂.rooms := by
  rw [Std.TreeMap.mem_iff_isSome_getElem?, Std.TreeMap.mem_iff_isSome_getElem?]
  have hroom := h.rooms k
  generalize lobby₁.rooms[k]? = room₁ at hroom ⊢
  generalize lobby₂.rooms[k]? = room₂ at hroom ⊢
  cases hroom with
  | vacant => rfl
  | same game => rfl
  | hidden _ _ => rfl

theorem Parallel.notice (h : Parallel r s₁ s₂ lobby₁ lobby₂) (p : ClientPtr) (text : String) :
    Alike s₁ s₂ (lobby₁.notice p text) (lobby₂.notice p text) :=
  h.world.sendToMe p _

theorem Parallel.createGame (h : Parallel r s₁ s₂ lobby₁ lobby₂) (ccid : Ccid) (rcv : CreateGame) :
    Alike s₁ s₂ (lobby₁.createGame ccid rcv) (lobby₂.createGame ccid rcv) := by
  unfold LobbyState.createGame
  rw [h.world.getByCcid]
  cases lobby₂.world.getByCcid ccid with
  | none => exact h.world
  | some p =>
      dsimp only [getRoomId]
      simp only [h.world.client, h.lastRoomId, h.mem_rooms]
      split_ifs
      · exact h.notice p _
      · exact h.world
      · exact (h.world.enterRoom _ p).1

theorem Parallel.jionGame (h : Parallel r s₁ s₂ lobby₁ lobby₂) (ccid : Ccid) (roomId : Int) :
    Alike s₁ s₂ (lobby₁.jionGame ccid roomId) (lobby₂.jionGame ccid roomId) := by
  unfold LobbyState.jionGame
  rw [h.world.getByCcid]
  cases lobby₂.world.getByCcid ccid with
  | none => exact h.world
  | some p =>
      dsimp only
      have hroom := h.rooms (toUInt32 roomId)
      generalize lobby₁.rooms[toUInt32 roomId]? = room₁ at hroom ⊢
      generalize lobby₂.rooms[toUInt32 roomId]? = room₂ at hroom ⊢
      cases hroom with
      | vacant => exact h.notice p _
      | same game => exact (h.world.enterRoom game p).1
      | @hidden game₁ game₂ _ hsame =>
          show Twins s₁ s₂ (enterRoom lobby₁.world game₁ p).2.1 _
          rw [hsame.enterRoom]
          exact (h.world.enterRoom game₂ p).1

theorem Parallel.giveUp (h : Parallel r s₁ s₂ lobby₁ lobby₂) (ccid : Ccid) :
    Alike s₁ s₂ (lobby₁.giveUp ccid) (lobby₂.giveUp ccid) := by
  unfold LobbyState.giveUp
  rw [h.world.getByCcid]
  cases lobby₂.world.getByCcid ccid with
  | none => exact h.world
  | some p =>
      dsimp only
      rw [h.world.client]
      split_ifs
      · exact h.notice p _
      · have hroom := h.rooms (lobby₂.world.client p).roomId
        generalize lobby₁.rooms[(lobby₂.world.client p).roomId]? = room₁ at hroom ⊢
        generalize lobby₂.rooms[(lobby₂.world.client p).roomId]? = room₂ at hroom ⊢
        cases hroom with
        | vacant => exact h.world.afterLeaveRoom p
        | same game =>
            dsimp only
            cases game.getPlayerInfoByCuid (lobby₂.world.client p).cuid with
            | none => exact h.world
            | some seat => exact (h.world.giveUpRoom game p seat).1
        | @hidden game₁ game₂ _ hsame =>
            dsimp only
            rw [hsame.seat]
            cases game₂.getPlayerInfoByCuid (lobby₂.world.client p).cuid with
            | none => exact h.world
            | some seat =>
                show Twins s₁ s₂ (giveUpRoom lobby₁.world game₁ p seat).1 _
                rw [hsame.giveUpRoom]
                exact (h.world.giveUpRoom game₂ p seat).1

theorem Parallel.voteFoAbortGame (h : Parallel r s₁ s₂ lobby₁ lobby₂) (ccid : Ccid) (vote : Vote) :
    Alike s₁ s₂ (lobby₁.voteFoAbortGame ccid vote) (lobby₂.voteFoAbortGame ccid vote) := by
  unfold LobbyState.voteFoAbortGame
  rw [h.world.getByCcid]
  cases lobby₂.world.getByCcid ccid with
  | none => exact h.world
  | some p =>
      dsimp only
      rw [h.world.client]
      have hroom := h.rooms (lobby₂.world.client p).roomId
      generalize lobby₁.rooms[(lobby₂.world.client p).roomId]? = room₁ at hroom ⊢
      generalize lobby₂.rooms[(lobby₂.world.client p).roomId]? = room₂ at hroom ⊢
      cases hroom with
      | vacant => exact h.world.afterLeaveRoom p
      | same game =>
          dsimp only
          split_ifs
          · exact h.world
          · cases game.getPlayerInfoByCuid (lobby₂.world.client p).cuid with
            | none => exact h.world.afterLeaveRoom p
            | some seat => exact h.world
          · cases game.getPlayerInfoByCuid (lobby₂.world.client p).cuid with
            | none => exact h.world.afterLeaveRoom p
            | some seat => exact (h.world.checkAllVotes _).1
      | @hidden game₁ game₂ _ hsame =>
          dsimp only
          rw [hsame.status, hsame.seat]
          split_ifs
          · exact h.world
          · cases game₂.getPlayerInfoByCuid (lobby₂.world.client p).cuid with
            | none => exact h.world.afterLeaveRoom p
            | some seat => exact h.world
          · cases game₂.getPlayerInfoByCuid (lobby₂.world.client p).cuid with
            | none => exact h.world.afterLeaveRoom p
            | some seat =>
                show Twins s₁ s₂ (checkAllVotes lobby₁.world _).1 _
                rw [hsame.castVote]
                exact (h.world.checkAllVotes _).1

theorem Parallel.readyFlag (h : Parallel r s₁ s₂ lobby₁ lobby₂) (ccid : Ccid) (ready : Bool) :
    Related (Alike s₁ s₂) (lobby₁.readyFlag ccid ready) (lobby₂.readyFlag ccid ready) := by
  unfold LobbyState.readyFlag
  rw [h.world.getByCcid]
  cases lobby₂.world.getByCcid ccid with
  | none => exact .ok h.world
  | some p =>
      dsimp only
      rw [h.world.client]
      split_ifs
      · exact .ok (h.notice p _)
      · have hroom := h.rooms (lobby₂.world.client p).roomId
        generalize lobby₁.rooms[(lobby₂.world.client p).roomId]? = room₁ at hroom ⊢
        generalize lobby₂.rooms[(lobby₂.world.client p).roomId]? = room₂ at hroom ⊢
        cases hroom with
        | vacant => exact .ok (h.world.afterLeaveRoom p)
        | same game =>
            dsimp only
            split_ifs
            · exact .ok (h.notice p _)
            · cases game.getPlayerInfoByCuid (lobby₂.world.client p).cuid with
              | none => exact .ok (h.world.afterLeaveRoom p)
              | some seat =>
                  dsimp only
                  split_ifs
                  · exact .ok h.world
                  · refine Related.bind (h.world.readyFlagRoom game seat _) ?_
                    rintro ⟨w₁, game₁⟩ ⟨w₂, game₂⟩ ⟨hw, -⟩
                    exact .ok hw
        | @hidden game₁ game₂ _ hsame =>
            dsimp only
            rw [hsame.status, if_pos hsame.inRound.ne_prepare, if_pos hsame.inRound.ne_prepare]
            exact .ok (h.notice p _)

/-- In a step the round of a room is settled. -/
def SettlesRound (lobby lobby' : LobbyState) (r : RoomId) : Prop :=
  ∃ game game', lobby.rooms[r]? = some game ∧ lobby'.rooms[r]? = some game' ∧ Settles game game'

theorem Parallel.bringOut (h : Parallel r s₁ s₂ lobby₁ lobby₂) (ccid : Ccid) (cards : List Int) :
    Related (Alike s₁ s₂) (lobby₁.bringOut ccid cards) (lobby₂.bringOut ccid cards) ∨
      ∃ game seat hand, lobby₁.rooms[r]? = some game ∧ game.status = .play ∧
        everyoneCompare (storeHand game seat hand) = true ∧
          lobby₁.bringOut ccid cards = (bringOutRoom lobby₁.world game seat hand).bind fun result =>
            .ok (lobby₁.setRoom r result.1 result.2) := by
  unfold LobbyState.bringOut
  cases hp : lobby₁.world.getByCcid ccid with
  | none =>
      rw [← h.world.getByCcid, hp]
      exact Or.inl (.ok h.world)
  | some p =>
      rw [← h.world.getByCcid, hp]
      dsimp only
      rw [← h.world.client]
      rcases eq_or_ne (lobby₁.world.client p).roomId 0 with hzero | hzero
      · rw [if_pos hzero, if_pos hzero]
        exact Or.inl (.ok (h.notice p _))
      · rw [if_neg hzero, if_neg hzero]
        have hroom := h.rooms (lobby₁.world.client p).roomId
        generalize hroom₁ : lobby₁.rooms[(lobby₁.world.client p).roomId]? = room₁ at hroom ⊢
        generalize lobby₂.rooms[(lobby₁.world.client p).roomId]? = room₂ at hroom ⊢
        cases hroom with
        | vacant => exact Or.inl (.ok (h.world.afterLeaveRoom p))
        | same game =>
            dsimp only
            rcases ne_or_eq game.status .play with hplay | hplay
            · rw [if_pos hplay, if_pos hplay]
              exact Or.inl (.ok (h.notice p _))
            · rw [if_neg (not_not.mpr hplay), if_neg (not_not.mpr hplay)]
              cases game.getPlayerInfoByCuid (lobby₁.world.client p).cuid with
              | none => exact Or.inl (.ok (h.world.afterLeaveRoom p))
              | some seat =>
                  dsimp only
                  split_ifs
                  · exact Or.inl (.ok (h.notice p _))
                  · refine Or.inl (Related.bind (h.world.bringOutRoom game seat _) ?_)
                    rintro ⟨w₁, game₁⟩ ⟨w₂, game₂⟩ ⟨hw, -⟩
                    exact .ok hw
                  · exact Or.inl (.ok (h.notice p _))
        | @hidden game₁ game₂ hr hsame =>
            dsimp only
            rw [← hsame.status]
            rcases ne_or_eq game₁.status .play with hplay | hplay
            · rw [if_pos hplay, if_pos hplay]
              exact Or.inl (.ok (h.notice p _))
            · rw [if_neg (not_not.mpr hplay), if_neg (not_not.mpr hplay), ← hsame.seat]
              cases hseat : game₁.getPlayerInfoByCuid (lobby₁.world.client p).cuid with
              | none => exact Or.inl (.ok (h.world.afterLeaveRoom p))
              | some seat =>
                  dsimp only
                  rw [← hsame.seatStatus]
                  split_ifs with hsort hlen
                  · exact Or.inl (.ok (h.notice p _))
                  · have hstored := hsame.storeHand seat ⟨cards.map toCard, hlen⟩
                    rw [not_not] at hsort
                    cases hall :
                      everyoneCompare (storeHand game₁ seat ⟨cards.map toCard, hlen⟩) with
                    | false =>
                        rw [bringOutRoom_waits _ hplay hall,
                          bringOutRoom_waits _ (hsame.status ▸ hplay)
                            (hstored.everyoneCompare ▸ hall)]
                        refine Or.inl (.ok ?_)
                        show Twins s₁ s₂ (syncAllPlayersInfoToAllClients lobby₁.world _) _
                        rw [hstored.sync]
                        exact h.world.sync _
                    | true =>
                        subst hr
                        exact Or.inr ⟨game₁, seat, _, hroom₁, hplay, hall, rfl⟩
                  · exact Or.inl (.ok (h.notice p _))

theorem Parallel.sendChat (h : Parallel r s₁ s₂ lobby₁ lobby₂) (ccid : Ccid) (type : ChatType)
    (dataInt : Int) (dataText : String) :
    Alike s₁ s₂ (lobby₁.sendChat ccid type dataInt dataText)
      (lobby₂.sendChat ccid type dataInt dataText) := by
  unfold LobbyState.sendChat
  rw [h.world.getByCcid]
  cases lobby₂.world.getByCcid ccid with
  | none => exact h.world
  | some p =>
      dsimp only
      rw [h.world.client]
      have hroom := h.rooms (lobby₂.world.client p).roomId
      generalize lobby₁.rooms[(lobby₂.world.client p).roomId]? = room₁ at hroom ⊢
      generalize lobby₂.rooms[(lobby₂.world.client p).roomId]? = room₂ at hroom ⊢
      cases hroom with
      | vacant => exact h.world
      | same game => exact h.world.sendToSeats _ _
      | hidden _ hsame =>
          dsimp only [sendToOthers]
          rw [hsame.apply cuids_bare]
          exact h.world.sendToSeats _ _

theorem Parallel.timerExecRooms (h : Parallel r s₁ s₂ lobby₁ lobby₂) (order : List RoomId) :
    Related (Parallel r s₁ s₂) (timerExecRooms order lobby₁) (timerExecRooms order lobby₂) := by
  induction order generalizing lobby₁ lobby₂ with
  | nil => exact .ok h
  | cons k order ih =>
      rw [LobbyState.timerExecRooms, LobbyState.timerExecRooms]
      have hroom := h.rooms k
      generalize lobby₁.rooms[k]? = room₁ at hroom ⊢
      generalize lobby₂.rooms[k]? = room₂ at hroom ⊢
      cases hroom with
      | vacant => exact ih h
      | same game =>
          dsimp only
          split_ifs
          · exact .ok (h.erase k)
          · refine Related.bind (h.world.timerExec game) ?_
            rintro ⟨w₁, game₁⟩ ⟨w₂, game₂⟩ ⟨hw, hgame⟩
            cases hgame
            exact ih (h.setRoom hw (.same game₁))
      | @hidden game₁ game₂ hr hsame =>
          dsimp only
          rw [show game₁.id = game₂.id from hsame.apply fun _ => rfl]
          split_ifs
          · exact .ok (h.erase k)
          · refine Related.bind (hsame.timerExec h.world) ?_
            rintro ⟨w₁, game₁⟩ ⟨w₂, game₂⟩ ⟨hw, hgame | hgame⟩
            · cases hgame
              exact ih (h.setRoom hw (.same game₁))
            · exact ih (h.setRoom hw (.hidden hr hgame))

theorem Parallel.setWorld (h : Parallel r s₁ s₂ lobby₁ lobby₂) (hw : Twins s₁ s₂ w₁ w₂) :
    Parallel r s₁ s₂ (lobby₁.setWorld w₁) (lobby₂.setWorld w₂) :=
  ⟨hw, h.lastRoomId, h.rooms⟩

theorem Parallel.timerExecAll (h : Parallel r s₁ s₂ lobby₁ lobby₂) (now : Int)
    (order : List RoomId) :
    Related (Alike s₁ s₂) (lobby₁.timerExecAll now order) (lobby₂.timerExecAll now order) := by
  have hw : Twins s₁ s₂ { lobby₁.world with timerTime := now }
      { lobby₂.world with timerTime := now } :=
    ⟨h.world.clients, rfl, h.world.deck, h.world.rg, h.world.sent⟩
  exact ((h.setWorld hw).timerExecRooms order).mono fun _ _ hparallel => hparallel.world

/-- What the client finds in room `r`, if that is where its seat is, are the same cards. -/
def FindsSame (r : RoomId) (lobby₁ lobby₂ : LobbyState) (p : ClientPtr) : Prop :=
  ∀ game₁ game₂, lobby₁.rooms[r]? = some game₁ → lobby₂.rooms[r]? = some game₂ →
    (lobby₁.world.client p).roomId = r →
    game₁.getPlayerInfoByCuid (lobby₁.world.client p).cuid ≠ none → game₁ = game₂

theorem Parallel.clientOnline (h : Parallel r s₁ s₂ lobby₁ lobby₂) (hplaced : RoomsPlaced lobby₁)
    {p : ClientPtr} (hfinds : FindsSame r lobby₁ lobby₂ p) :
    Alike s₁ s₂ (lobby₁.clientOnline p) (lobby₂.clientOnline p) := by
  unfold LobbyState.clientOnline
  rw [← h.world.client]
  dsimp only
  split_ifs
  · exact h.world
  · have hroom := h.rooms (lobby₁.world.client p).roomId
    generalize hroom₁ : lobby₁.rooms[(lobby₁.world.client p).roomId]? = room₁ at hroom ⊢
    generalize hroom₂ : lobby₂.rooms[(lobby₁.world.client p).roomId]? = room₂ at hroom ⊢
    cases hroom with
    | vacant => exact h.world.setRoomId p 0
    | same game => exact h.world.clientOnlineExec game p
    | @hidden game₁ game₂ hr hsame =>
        rcases eq_or_ne (game₁.getPlayerInfoByCuid (lobby₁.world.client p).cuid) none with
          hseat | hseat
        · have hid := (hplaced _ game₁ hroom₁).alive hsame.1.ne_closed
          have hid' : game₂.id = (lobby₁.world.client p).roomId :=
            (hsame.apply (F := Game13.id) fun _ => rfl).symm.trans hid
          dsimp only [Game13.clientOnlineExec]
          rw [if_pos ⟨hid.symm, hseat⟩, ← h.world.client,
            if_pos ⟨hid'.symm, (hsame.seat _).symm.trans hseat⟩]
          exact h.world.setRoomId p 0
        · have hgame := hfinds game₁ game₂ (hr ▸ hroom₁) (hr ▸ hroom₂) hr hseat
          rw [hgame]
          exact h.world.clientOnlineExec game₂ p

theorem Parallel.loginSucces (h : Parallel r s₁ s₂ lobby₁ lobby₂) (hplaced : RoomsPlaced lobby₁)
    {p : ClientPtr} (hfinds : FindsSame r lobby₁ lobby₂ p) (ccid : Ccid) :
    Alike s₁ s₂ (lobby₁.loginSucces p ccid) (lobby₂.loginSucces p ccid) := by
  unfold LobbyState.loginSucces
  rw [← h.world.client]
  exact (h.setWorld (h.world.sendToPrivate _)).clientOnline hplaced hfinds

theorem twins_regFailed (hw : Twins s₁ s₂ w₁ w₂) (p : ClientPtr) (ccid : Ccid) :
    Twins s₁ s₂ (regFailed w₁ p ccid) (regFailed w₂ p ccid) := by
  unfold LobbyState.regFailed
  rw [hw.client]
  exact hw.sendToPrivate _

theorem twins_replaced (hw : Twins s₁ s₂ w₁ w₂) (p : ClientPtr) (ccid : Ccid) :
    Twins s₁ s₂ (Logins.replaced w₁ p ccid) (Logins.replaced w₂ p ccid) := by
  unfold Logins.replaced
  rw [hw.client]
  exact (hw.sendToPrivate _).withClients fun clients => ((Logins.moved clients p ccid).insert p).2

/-- The world in which a known client is told of its login. -/
def readmitted (w : World) (p : ClientPtr) (ccid : Ccid) : World :=
  if ((Logins.moved w.clients p ccid).insert p).1 then Logins.replaced w p ccid
  else regFailed (Logins.replaced w p ccid) p ccid

theorem twins_readmitted (hw : Twins s₁ s₂ w₁ w₂) (p : ClientPtr) (ccid : Ccid) :
    Twins s₁ s₂ (readmitted w₁ p ccid) (readmitted w₂ p ccid) := by
  unfold readmitted
  rw [hw.clients]
  split_ifs
  · exact twins_replaced hw p ccid
  · exact twins_regFailed (twins_replaced hw p ccid) p ccid

theorem client_readmitted (w : World) (p q : ClientPtr) (ccid : Ccid) :
    (readmitted w p ccid).client q = (Logins.moved w.clients p ccid).client q := by
  have hclients : (readmitted w p ccid).clients = ((Logins.moved w.clients p ccid).insert p).2 := by
    unfold readmitted
    split_ifs
    · rfl
    · rfl
  rw [World.client, hclients, Logins.client_insert]

theorem readmitted_client (w : World) (p q : ClientPtr) (ccid : Ccid) :
    (readmitted w p ccid).client q =
      { w.client q with ccid := ((readmitted w p ccid).client q).ccid } := by
  rw [client_readmitted, Logins.client_moved]
  split_ifs
  · rfl
  · rfl

theorem Parallel.loginQuest (h : Parallel r s₁ s₂ lobby₁ lobby₂) (hplaced : RoomsPlaced lobby₁)
    (ccid : Ccid) {openid : String} (name : String)
    (hfinds : ∀ p, lobby₁.world.clients.getByOpenid openid = some p →
      FindsSame r lobby₁ lobby₂ p) :
    Alike s₁ s₂ (lobby₁.loginQuest ccid openid name) (lobby₂.loginQuest ccid openid name) := by
  cases hopenid : lobby₁.world.clients.getByOpenid openid with
  | none =>
      rw [loginQuest_new ccid name hopenid,
        loginQuest_new ccid name (h.world.getByOpenid openid ▸ hopenid), h.world.clients]
      have hclient := client_insertNew lobby₂.world.clients ccid openid name
        lobby₂.world.clients.clients.length
      generalize insertNew lobby₂.world.clients ccid openid name = inserted at hclient ⊢
      split_ifs
      · have hroom : (inserted.2.client lobby₂.world.clients.clients.length).roomId = 0 := by
          rw [hclient, if_pos rfl]
          rfl
        rw [LobbyState.loginSucces, LobbyState.loginSucces, clientOnline_roomless,
          clientOnline_roomless]
        · exact (h.world.withClients fun _ => inserted.2).sendToPrivate _
        · exact hroom
        · exact hroom
      · exact twins_regFailed (h.world.withClients fun _ => _) _ _
  | some p =>
      rw [Logins.loginQuest_replaces ccid name hopenid,
        Logins.loginQuest_replaces ccid name (h.world.getByOpenid openid ▸ hopenid)]
      have hparallel := h.setWorld (twins_readmitted h.world p ccid)
      refine hparallel.loginSucces hplaced ?_ ccid
      intro game₁ game₂ hgame₁ hgame₂ hroom hseat
      change ((readmitted lobby₁.world p ccid).client p).roomId = r at hroom
      change game₁.getPlayerInfoByCuid ((readmitted lobby₁.world p ccid).client p).cuid ≠ none
        at hseat
      rw [readmitted_client] at hroom hseat
      exact hfinds p hopenid game₁ game₂ hgame₁ hgame₂ hroom hseat

/-- A client with a seat in room `r` logs in again, over the connection `ccid`. -/
inductive Returns (lobby : LobbyState) (r : RoomId) (q : ClientPtr) (ccid : Ccid) : Event → Prop
  | login {openid name : String} {game : Game13} :
      lobby.world.clients.getByOpenid openid = some q → (lobby.world.client q).roomId = r →
      lobby.rooms[r]? = some game →
      game.getPlayerInfoByCuid (lobby.world.client q).cuid ≠ none →
      Returns lobby r q ccid (.loginQuest ccid openid name)

theorem Returns.unique {q q' : ClientPtr} {ccid ccid' : Ccid} {a : Event} {lobby : LobbyState}
    (h : Returns lobby r q ccid a) (h' : Returns lobby r q' ccid' a) : q = q' ∧ ccid = ccid' := by
  cases h with
  | login hopenid _ _ _ =>
      cases h' with
      | login hopenid' _ _ _ => exact ⟨Option.some.inj (hopenid.symm.trans hopenid'), rfl⟩

theorem Parallel.step {a : Event} {lobby₁' lobby₂' : LobbyState}
    (h : Parallel r s₁ s₂ lobby₁ lobby₂) (hplaced : RoomsPlaced lobby₁)
    (hdeck : DeckOk lobby₁.world.deck) (h₁ : lobby₁.step a = .ok lobby₁')
    (h₂ : lobby₂.step a = .ok lobby₂') (hsettles : ¬ SettlesRound lobby₁ lobby₁' r)
    (hreturns : ∀ q ccid, Returns lobby₁ r q ccid a → lobby₁.rooms[r]? = lobby₂.rooms[r]?) :
    Alike s₁ s₂ lobby₁' lobby₂' := by
  cases a with
  | createGame ccid rcv =>
      cases h₁
      cases h₂
      exact h.createGame ccid rcv
  | jionGame ccid roomId =>
      cases h₁
      cases h₂
      exact h.jionGame ccid roomId
  | giveUp ccid =>
      cases h₁
      cases h₂
      exact h.giveUp ccid
  | voteFoAbortGame ccid vote =>
      cases h₁
      cases h₂
      exact h.voteFoAbortGame ccid vote
  | readyFlag ccid ready => exact (h.readyFlag ccid ready).of_ok h₁ h₂
  | bringOut ccid cards =>
      rcases h.bringOut ccid cards with hrelated | ⟨game, seat, hand, hgame, hplay, hall, heq⟩
      · exact hrelated.of_ok h₁ h₂
      · obtain ⟨⟨w, game'⟩, hbring, h₁⟩ := bind_eq_ok.mp (heq.symm.trans h₁)
        cases h₁
        refine absurd ⟨game, game', hgame, ?_, settles_of_compare hdeck hplay hall hbring⟩ hsettles
        rw [getElem?_setRoom, if_pos rfl]
  | sendChat ccid type dataInt dataText =>
      cases h₁
      cases h₂
      exact h.sendChat ccid type dataInt dataText
  | loginQuest ccid openid name =>
      cases h₁
      cases h₂
      refine h.loginQuest hplaced ccid name ?_
      intro q hopenid game₁ game₂ hgame₁ hgame₂ hroom hseat
      have heq := hreturns q ccid (.login hopenid hroom hgame₁ hseat)
      rw [hgame₁, hgame₂] at heq
      exact Option.some.inj heq
  | timer now order => exact (h.timerExecAll now order).of_ok h₁ h₂

end Lobbies

end CasualGame.Lobby.TwoLobbies
