import CasualGame.Lobby.Logins
import CasualGame.Lobby.Seats

/-!
What a message to the lobby can reach: its sender, the room it is about and the clients
found under the seats of that room. All other rooms and clients are as before and hear
nothing.
-/

namespace CasualGame.Lobby.Isolation

open Deck
open Dealing
open CalcRound
open Game13
open LobbyState
open Lib.Run
open WorldFrames
open LobbyActs
open RoomMoves
open Settlement
open Logins (replaced loginQuest_replaces)

section Confined

/-- From `w` to `w'` only clients of `A` are changed, and only they are told something. -/
structure Confined (A : ClientPtr → Prop) (w w' : World) : Prop where
  keeps : Keeps w w'
  client : ∀ p, ¬ A p → w'.client p = w.client p
  sent : ∃ out, w'.sent = w.sent ++ out ∧
    ∀ o ∈ out, ∃ p msg, A p ∧ o = .relay (w.client p).ccid msg

/-- All clients found under the cuids are clients of `A`. -/
def Covers (A : ClientPtr → Prop) (w : World) (cuids : List Cuid) : Prop :=
  ∀ cuid ∈ cuids, ∀ p, w.getByCuid cuid = some p → A p

variable {A : ClientPtr → Prop} {w w' w₁ w₂ : World} {cuids cuids' : List Cuid} {p : ClientPtr}

theorem Covers.of_keeps (h : Covers A w cuids) (hkeeps : Keeps w w') : Covers A w' cuids := by
  intro cuid hcuid p hp
  apply h cuid hcuid p
  rwa [World.getByCuid, ClientManager.getByCuid, hkeeps.keys.cuids] at hp

theorem Covers.of_subset (h : Covers A w cuids) (hsub : cuids' ⊆ cuids) : Covers A w cuids' :=
  fun cuid hcuid => h cuid (hsub hcuid)

@[refl] theorem Confined.refl (w : World) : Confined A w w := by
  refine ⟨Keeps.refl w, fun _ _ => rfl, [], (List.append_nil _).symm, fun o ho => ?_⟩
  exact absurd ho List.not_mem_nil

@[trans] theorem Confined.trans (h₁ : Confined A w w₁) (h₂ : Confined A w₁ w₂) :
    Confined A w w₂ := by
  obtain ⟨out₁, hsent₁, hout₁⟩ := h₁.sent
  obtain ⟨out₂, hsent₂, hout₂⟩ := h₂.sent
  refine ⟨h₁.keeps.trans h₂.keeps, fun p hp => (h₂.client p hp).trans (h₁.client p hp),
    out₁ ++ out₂, by rw [hsent₂, hsent₁, List.append_assoc], fun o ho => ?_⟩
  rcases List.mem_append.mp ho with ho | ho
  · exact hout₁ o ho
  · obtain ⟨p, msg, hp, rfl⟩ := hout₂ o ho
    refine ⟨p, msg, hp, ?_⟩
    change Outgoing.relay (w₁.clients.client p).ccid msg = .relay (w.clients.client p).ccid msg
    rw [h₁.keeps.keys.ccid]

theorem Confined.foldl {β : Type} {f : World → β → World} (bs : List β)
    (hf : ∀ b ∈ bs, ∀ w', Keeps w w' → Confined A w' (f w' b)) : Confined A w (bs.foldl f w) := by
  induction bs generalizing w with
  | nil => exact Confined.refl w
  | cons b bs ih =>
      have hfirst := hf b List.mem_cons_self w (Keeps.refl w)
      apply hfirst.trans
      apply ih
      intro c hc w' hkeeps
      exact hf c (List.mem_cons_of_mem _ hc) w' (hfirst.keeps.trans hkeeps)

theorem confined_sendToMe (hp : A p) (w : World) (msg : Msg) : Confined A w (w.sendToMe p msg) := by
  refine ⟨(says_sendToMe w p msg).keeps, fun _ _ => rfl, _, rfl, fun o ho => ?_⟩
  obtain rfl := List.mem_singleton.mp ho
  exact ⟨p, msg, hp, rfl⟩

theorem confined_sendToSeats (hcovers : Covers A w cuids) (msg : Msg) :
    Confined A w (w.sendToSeats cuids msg) := by
  apply Confined.foldl
  intro cuid hcuid w' hkeeps
  unfold World.sendToCuid
  cases hp : w'.getByCuid cuid with
  | none => exact Confined.refl w'
  | some p => exact confined_sendToMe (hcovers.of_keeps hkeeps cuid hcuid p hp) w' msg

theorem confined_setRoomId (hp : A p) (w : World) (roomId : RoomId) :
    Confined A w (w.setRoomId p roomId) := by
  refine ⟨(relocates_setRoomId w p roomId).keeps, fun q hq => ?_, [], (List.append_nil _).symm,
    fun o ho => absurd ho List.not_mem_nil⟩
  rw [client_setRoomId]
  apply if_neg
  rintro ⟨rfl, -⟩
  exact hq hp

theorem confined_addMoney (hp : A p) (w : World) (money : Int) :
    Confined A w (w.addMoney p money) := by
  refine ⟨⟨sameKeys_addMoney w p money, rfl⟩, fun q hq => ?_, [], (List.append_nil _).symm,
    fun o ho => absurd ho List.not_mem_nil⟩
  rw [client_addMoney]
  apply if_neg
  rintro ⟨rfl, -⟩
  exact hq hp

theorem confined_afterLeaveRoom (hp : A p) (w : World) : Confined A w (w.afterLeaveRoom p) :=
  (confined_setRoomId hp w 0).trans (confined_sendToMe hp _ _)

theorem confined_kickAll (hcovers : Covers A w cuids) : Confined A w (kickAll w cuids) := by
  apply Confined.foldl
  intro cuid hcuid w' hkeeps
  cases hp : w'.getByCuid cuid with
  | none => exact Confined.refl w'
  | some p => exact confined_afterLeaveRoom (hcovers.of_keeps hkeeps cuid hcuid p hp) w'

end Confined

section Rooms

variable {A : ClientPtr → Prop} {w w' : World} {game game' : Game13} {p : ClientPtr}

/-- The cuids in the seats that are taken. -/
def taken (game : Game13) : List Cuid := game.cuids.filter (· ≠ 0)

theorem Covers.taken (h : Covers A w game.cuids) : Covers A w (Isolation.taken game) :=
  h.of_subset (List.filter_subset_self _)

theorem confined_sendToAll (hcovers : Covers A w (taken game)) (msg : Msg) :
    Confined A w (sendToAll w game msg) :=
  confined_sendToSeats hcovers msg

theorem confined_sync (hcovers : Covers A w (taken game)) :
    Confined A w (syncAllPlayersInfoToAllClients w game) :=
  confined_sendToAll hcovers _

theorem confined_afterEnterRoom (hp : A p) (hcovers : Covers A w (taken game)) :
    Confined A w (afterEnterRoom w game p) := by
  have hgreeted : Confined A w (w.sendToMe p
      (.roomAttr game.attr.roomId game.ownerCuid game.attr)) := confined_sendToMe hp w _
  have hsynced := hgreeted.trans (confined_sync (hcovers.of_keeps hgreeted.keeps))
  refine hsynced.trans ?_
  simp only [afterEnterRoom]
  generalize syncAllPlayersInfoToAllClients
    (w.sendToMe p (.roomAttr game.attr.roomId game.ownerCuid game.attr)) game = w₁
  have hhands : Confined A w₁
      (game.players.foldl (fun w info => w.sendToMe p (.handOfMine info.cards)) w₁) :=
    Confined.foldl _ fun info _ w' _ => confined_sendToMe hp w' _
  split_ifs
  · exact hhands.trans (confined_sendToMe hp _ _)
  · exact confined_sendToMe hp _ _
  · exact hhands
  · exact Confined.refl w₁

theorem mem_taken_withSeat {index : Nat} {cuid : Cuid}
    (h : cuid ∈ taken (Admission.withSeat w game p index)) :
    cuid ∈ (w.client p).cuid :: taken game := by
  obtain ⟨hcuid, hzero⟩ := List.mem_filter.mp h
  obtain ⟨info, hinfo, rfl⟩ := List.mem_map.mp hcuid
  rcases mem_updateSeat hinfo with hold | ⟨old, -, rfl⟩
  · exact List.mem_cons_of_mem _ (List.mem_filter.mpr ⟨List.mem_map_of_mem hold, hzero⟩)
  · exact List.mem_cons_self

theorem confined_enterRoom (hp : A p) (hcovers : Covers A w ((w.client p).cuid :: taken game)) :
    Confined A w (enterRoom w game p).2.1 := by
  unfold enterRoom
  dsimp only
  split_ifs
  · exact Confined.refl w
  · exact confined_sendToMe hp w _
  · exact confined_sendToMe hp w _
  · cases game.getEmptySeatIndex with
    | none => exact confined_sendToMe hp w _
    | some index =>
        dsimp only
        split
        · exact Confined.refl w
        · exact confined_sendToMe hp w _
        · have hentered := confined_setRoomId hp w game.id
          apply hentered.trans
          apply confined_afterEnterRoom hp
          intro cuid hcuid
          exact hcovers.of_keeps hentered.keeps cuid (mem_taken_withSeat hcuid)

theorem confined_clientOnlineExec (hp : A p) (hcovers : Covers A w game.cuids) :
    Confined A w (clientOnlineExec w game p) := by
  unfold clientOnlineExec
  split_ifs
  · exact confined_setRoomId hp w 0
  · exact confined_afterEnterRoom hp hcovers.taken

theorem confined_removePlayer (hp : A p) (hcovers : Covers A w game.cuids) :
    Confined A w (removePlayer w game p).1 := by
  unfold removePlayer
  cases game.getPlayerInfoByCuid (w.client p).cuid with
  | none => exact confined_sync hcovers.taken
  | some index =>
      have hleft := confined_afterLeaveRoom hp w
      apply hleft.trans
      apply confined_sendToSeats
      intro cuid hcuid
      obtain ⟨hseat, hzero⟩ := List.mem_filter.mp hcuid
      apply hcovers.of_keeps hleft.keeps cuid
      exact mem_cuids_of_updateSeat (fun _ => .inr rfl) (of_decide_eq_true hzero) hseat

theorem confined_abortGame (hcovers : Covers A w game.cuids) :
    Confined A w (abortGame w game).1 :=
  confined_kickAll hcovers

theorem confined_checkAllVotes (hcovers : Covers A w game.cuids) :
    Confined A w (checkAllVotes w game).1 := by
  unfold checkAllVotes
  dsimp only
  split_ifs
  · exact Confined.refl w
  · exact confined_sendToSeats hcovers _
  · have htold := confined_sendToSeats hcovers (.notice "全体通过, 游戏解散!")
    apply htold.trans
    apply confined_kickAll
    have hsame : ({ game.resetVotes with startVoteTime := 0, voteSponsorCuid := 0 }).cuids =
        game.cuids := Seats.cuids_resetVotes game
    rw [hsame]
    exact hcovers.of_keeps htold.keeps
  · exact confined_sendToSeats hcovers _

theorem Covers.updateSeat {f : PlayerInfo → PlayerInfo} (h : Covers A w game.cuids)
    (hf : ∀ info, (f info).cuid = info.cuid) (seat : Nat) :
    Covers A w (game.updateSeat seat f).cuids := by
  have hsame : (game.updateSeat seat f).cuids = game.cuids := map_updateSeat hf game seat
  rwa [hsame]

theorem confined_giveUpRoom (hp : A p) (hcovers : Covers A w game.cuids) (seat : Nat) :
    Confined A w (giveUpRoom w game p seat).1 := by
  unfold giveUpRoom
  cases game.status with
  | prepare =>
      dsimp only
      split_ifs
      · exact confined_abortGame hcovers
      · exact confined_removePlayer hp hcovers
  | play | vote =>
      apply confined_checkAllVotes
      apply Covers.updateSeat
      · exact hcovers
      · exact fun _ => rfl
  | settle => exact Confined.refl w
  | settleAll | closed => exact confined_removePlayer hp hcovers

theorem confined_voteRoom (hcovers : Covers A w game.cuids) (seat : Nat) (vote : Vote) :
    Confined A w (voteRoom w game seat vote).1 := by
  unfold voteRoom
  dsimp only
  split_ifs
  · exact Confined.refl w
  · apply confined_checkAllVotes
    apply Covers.updateSeat hcovers
    exact fun _ => rfl

theorem confined_dealSeat {index : Nat} {info info' : PlayerInfo}
    (hcovers : Covers A w [info.cuid]) (h : dealSeat w game index info = .ok (w', info')) :
    Confined A w w' := by
  obtain ⟨cards, -, h⟩ := bind_eq_ok.mp h
  cases hp : w.getByCuid info.cuid with
  | none =>
      simp only [hp] at h
      cases h
      exact Confined.refl w
  | some p =>
      have hA : A p := hcovers _ List.mem_cons_self p hp
      simp only [hp] at h
      cases h
      refine Confined.trans ?_ (confined_sendToMe hA _ _)
      unfold chargeFee
      split_ifs
      · exact confined_addMoney hA w _
      · exact confined_addMoney hA w _
      · exact Confined.refl w
      · exact Confined.refl w

theorem confined_dealSeats {index : Nat} {infos infos' : List PlayerInfo}
    (hcovers : Covers A w (infos.map (·.cuid)))
    (h : dealSeats game w index infos = .ok (w', infos')) : Confined A w w' := by
  induction infos generalizing w index infos' with
  | nil =>
      cases h
      exact Confined.refl _
  | cons info infos ih =>
      obtain ⟨⟨w₁, info'⟩, hseat, h⟩ := bind_eq_ok.mp h
      obtain ⟨⟨w₂, rest⟩, hrest, h⟩ := bind_eq_ok.mp h
      cases h
      have hone : Covers A w [info.cuid] := by
        intro cuid hcuid
        obtain rfl := List.mem_singleton.mp hcuid
        exact hcovers _ List.mem_cons_self
      have hfirst := confined_dealSeat hone hseat
      have hothers : Covers A w (infos.map (·.cuid)) :=
        hcovers.of_subset (List.subset_cons_self _ _)
      exact hfirst.trans (ih (hothers.of_keeps hfirst.keeps) hrest)

theorem confined_tryStartRound (hcovers : Covers A w game.cuids)
    (h : tryStartRound w game = .ok (w', game')) : Confined A w w' := by
  have hcuids : everyoneReady w game = true → game'.cuids = game.cuids := fun hready =>
    (tryStartRound_started hready h).cuids
  unfold tryStartRound at h
  split_ifs at h with hready
  · obtain ⟨w₁, hshuffle, h⟩ := bind_eq_ok.mp h
    obtain ⟨⟨w₂, players⟩, hdeal, h⟩ := bind_eq_ok.mp h
    cases h
    obtain ⟨deck, -, hshuffle⟩ := bind_eq_ok.mp hshuffle
    cases hshuffle
    have hshuffled : Confined A w
        { w with deck := (w.rg w.shuffles).run deck, shuffles := w.shuffles + 1 } :=
      ⟨⟨SameKeys.refl _, rfl⟩, fun _ _ => rfl, [], (List.append_nil _).symm,
        fun o ho => absurd ho List.not_mem_nil⟩
    have hdealt := hshuffled.trans (confined_dealSeats (hcovers.of_keeps hshuffled.keeps) hdeal)
    apply hdealt.trans
    apply confined_sendToAll
    have hcovers' : Covers A w₂ (taken game) := hcovers.taken.of_keeps hdealt.keeps
    rwa [taken, ← hcuids hready] at hcovers'
  · cases h
    exact Confined.refl w

theorem confined_trySettleGame (hcovers : Covers A w game.cuids)
    (h : trySettleGame w game = .ok (w', game')) :
    Confined A w w' ∧ game'.cuids = game.cuids := by
  unfold trySettleGame at h
  split_ifs at h
  · cases h
    exact ⟨Confined.refl w, rfl⟩
  · cases h
    exact ⟨Confined.refl w, rfl⟩
  · obtain ⟨⟨rsd, game₁⟩, hround, h⟩ := bind_eq_ok.mp h
    obtain ⟨-, rfl, rfl⟩ := calcRound_ok hround
    dsimp only at h
    have hhands := confined_sendToAll hcovers.taken
      (allHands (withCards (round game₁) game₁.players))
    split_ifs at h
    · obtain ⟨counts, -, h⟩ := bind_eq_ok.mp h
      cases h
      exact ⟨hhands.trans (confined_sendToAll (hcovers.of_keeps hhands.keeps).taken _), rfl⟩
    · cases h
      exact ⟨hhands, rfl⟩

theorem confined_readyFlagRoom {seat : Nat} {newStatus : PlayerStatus}
    (hcovers : Covers A w game.cuids)
    (h : readyFlagRoom w game seat newStatus = .ok (w', game')) : Confined A w w' := by
  have hseats : Covers A w
      (game.updateSeat seat fun info => { info with status := newStatus }).cuids := by
    apply hcovers.updateSeat
    exact fun _ => rfl
  have hsynced := confined_sync hseats.taken
  simp only [readyFlagRoom] at h
  split_ifs at h
  · exact hsynced.trans (confined_tryStartRound (hseats.of_keeps hsynced.keeps) h)
  · cases h
    exact hsynced

theorem confined_bringOutRoom {seat : Nat} {hand : Hand} (hcovers : Covers A w game.cuids)
    (h : bringOutRoom w game seat hand = .ok (w', game')) : Confined A w w' := by
  obtain ⟨⟨w₁, game₁⟩, hsettle, h⟩ := bind_eq_ok.mp h
  have hstored : Covers A w (storeHand game seat hand).cuids := by
    rwa [cuids_storeHand]
  have hsynced := confined_sync hstored.taken
  have hseats := hstored.of_keeps hsynced.keeps
  obtain ⟨hsettled, hcuids⟩ := confined_trySettleGame hseats hsettle
  dsimp only at h
  split_ifs at h
  · apply (hsynced.trans hsettled).trans
    apply confined_tryStartRound _ h
    rw [hcuids]
    exact hseats.of_keeps hsettled.keeps
  · cases h
    exact hsynced.trans hsettled

theorem confined_timerExec (hcovers : Covers A w game.cuids)
    (h : timerExec w game = .ok (w', game')) : Confined A w w' ∧ game'.cuids ⊆ game.cuids := by
  unfold timerExec at h
  cases hstatus : game.status with
  | prepare =>
      simp only [hstatus] at h
      refine ⟨confined_tryStartRound hcovers h, ?_⟩
      cases hready : everyoneReady w game with
      | true =>
          rw [(tryStartRound_started hready h).cuids]
          exact List.Subset.refl _
      | false =>
          rw [tryStartRound, if_neg (by simp [hready])] at h
          cases h
          exact List.Subset.refl _
  | vote =>
      simp only [hstatus] at h
      split_ifs at h
      · cases h
        refine ⟨?_, List.nil_subset _⟩
        have htold := confined_sendToSeats hcovers (.notice "投票结束, 游戏解散!")
        apply htold.trans
        apply confined_kickAll
        have hsame : ({ game.resetVotes with startVoteTime := 0 }).cuids = game.cuids :=
          Seats.cuids_resetVotes game
        rw [hsame]
        exact hcovers.of_keeps htold.keeps
      · cases h
        exact ⟨Confined.refl w, List.Subset.refl _⟩
  | settleAll =>
      simp only [hstatus] at h
      split_ifs at h
      · cases h
        exact ⟨confined_kickAll hcovers, List.nil_subset _⟩
      · cases h
        exact ⟨Confined.refl w, List.Subset.refl _⟩
  | play | settle | closed =>
      simp only [hstatus] at h
      cases h
      exact ⟨Confined.refl w, List.Subset.refl _⟩

end Rooms

section Messages

/-- The client that sends the message; of a login the client it is led to. -/
def Sends (lobby : LobbyState) : Event → ClientPtr → Prop
  | .createGame ccid _, p | .jionGame ccid _, p | .giveUp ccid, p | .voteFoAbortGame ccid _, p
  | .readyFlag ccid _, p | .bringOut ccid _, p | .sendChat ccid _ _ _, p =>
      lobby.world.getByCcid ccid = some p
  | .loginQuest _ openid _, p =>
      (lobby.world.clients.getByOpenid openid).getD lobby.world.clients.clients.length = p
  | .timer _ _, _ => False

/-- The room the message names, and otherwise the one its sender says it is in. A tick is
about all rooms. -/
def About (lobby : LobbyState) : Event → RoomId → Prop
  | .createGame _ _, k => k = lobby.getRoomId.1
  | .jionGame _ roomId, k => k = toUInt32 roomId
  | .timer _ _, _ => True
  | a, k => ∃ p, Sends lobby a p ∧ (lobby.world.client p).roomId = k

/-- The sender, and whoever is found under its cuid or under a seat of the room. -/
inductive Concerned (lobby : LobbyState) (a : Event) (p : ClientPtr) : Prop
  | sender : Sends lobby a p → Concerned lobby a p
  | namesake {q : ClientPtr} : Sends lobby a q →
      lobby.world.getByCuid (lobby.world.client q).cuid = some p → Concerned lobby a p
  | seated {k : RoomId} {game : Game13} {cuid : Cuid} : About lobby a k →
      lobby.rooms[k]? = some game → cuid ∈ game.cuids → lobby.world.getByCuid cuid = some p →
      Concerned lobby a p

/-- The lobby answers the gateway only when it is asked to log a user in. -/
def ToGateway (a : Event) (o : Outgoing) : Prop :=
  (∃ msg, o = .gateway msg) ∧ ∃ ccid openid name, a = .loginQuest ccid openid name

/-- From `lobby` to `lobby'` only what the message concerns is changed or told. -/
structure Isolated (lobby : LobbyState) (a : Event) (lobby' : LobbyState) : Prop where
  rooms : ∀ k, ¬ About lobby a k → lobby'.rooms[k]? = lobby.rooms[k]?
  clients : ∀ p, ¬ Concerned lobby a p → lobby'.world.client p = lobby.world.client p
  sent : ∃ out, lobby'.world.sent = lobby.world.sent ++ out ∧ ∀ o ∈ out, ToGateway a o ∨
    ∃ p msg, Concerned lobby a p ∧ o = .relay (lobby'.world.client p).ccid msg

variable {lobby lobby' : LobbyState} {a : Event} {k : RoomId} {game game' : Game13} {w : World}
  {p : ClientPtr}

theorem covers_seats (habout : About lobby a k) (hgame : lobby.rooms[k]? = some game) :
    Covers (Concerned lobby a) lobby.world game.cuids :=
  fun _ hcuid _ hp => .seated habout hgame hcuid hp

theorem Isolated.of_confined (hrooms : ∀ k, ¬ About lobby a k → lobby'.rooms[k]? = lobby.rooms[k]?)
    (h : Confined (Concerned lobby a) lobby.world lobby'.world) : Isolated lobby a lobby' := by
  obtain ⟨out, hsent, hout⟩ := h.sent
  refine ⟨hrooms, h.client, out, hsent, fun o ho => .inr ?_⟩
  obtain ⟨p, msg, hp, rfl⟩ := hout o ho
  refine ⟨p, msg, hp, ?_⟩
  change Outgoing.relay (lobby.world.clients.client p).ccid msg =
    .relay (lobby'.world.clients.client p).ccid msg
  rw [h.keeps.keys.ccid]

theorem Isolated.refl (lobby : LobbyState) (a : Event) : Isolated lobby a lobby :=
  .of_confined (fun _ _ => rfl) (Confined.refl _)

theorem Isolated.setWorld (h : Confined (Concerned lobby a) lobby.world w) :
    Isolated lobby a (lobby.setWorld w) :=
  .of_confined (fun _ _ => rfl) h

theorem Isolated.setRoom (habout : About lobby a k)
    (h : Confined (Concerned lobby a) lobby.world w) :
    Isolated lobby a (lobby.setRoom k w game') := by
  refine .of_confined (fun j hj => ?_) h
  rw [LobbySteps.getElem?_setRoom]
  apply if_neg
  rintro rfl
  exact hj habout

theorem Isolated.notice (hp : Sends lobby a p) (text : String) :
    Isolated lobby a (lobby.notice p text) :=
  .setWorld (confined_sendToMe (.sender hp) _ _)

theorem Isolated.leaves (hp : Sends lobby a p) :
    Isolated lobby a (lobby.setWorld (lobby.world.afterLeaveRoom p)) :=
  .setWorld (confined_afterLeaveRoom (.sender hp) _)

theorem createGame_isolated (ccid : Ccid) (rcv : CreateGame) :
    Isolated lobby (.createGame ccid rcv) (lobby.createGame ccid rcv) := by
  unfold LobbyState.createGame
  cases hp : lobby.world.getByCcid ccid with
  | none => exact Isolated.refl lobby _
  | some p =>
      have hsends : Sends lobby (.createGame ccid rcv) p := hp
      dsimp only
      split_ifs with hin hold
      · exact Isolated.notice hsends _
      · exact .of_confined (fun _ _ => rfl) (Confined.refl _)
      · refine .of_confined (fun j hj => ?_) ?_
        · rw [LobbySteps.getElem?_setRoom]
          exact if_neg hj
        · apply confined_enterRoom (.sender hsends)
          intro cuid hcuid q hq
          rcases List.mem_cons.mp hcuid with rfl | hcuid
          · exact .namesake hsends hq
          · -- the seats of a new room are empty
            obtain ⟨hseat, hzero⟩ := List.mem_filter.mp hcuid
            obtain ⟨info, hinfo, rfl⟩ := List.mem_map.mp hseat
            obtain rfl := List.eq_of_mem_replicate hinfo
            exact absurd rfl (of_decide_eq_true hzero)

theorem jionGame_isolated (ccid : Ccid) (roomId : Int) :
    Isolated lobby (.jionGame ccid roomId) (lobby.jionGame ccid roomId) := by
  unfold LobbyState.jionGame
  cases hp : lobby.world.getByCcid ccid with
  | none => exact Isolated.refl lobby _
  | some p =>
      have hsends : Sends lobby (.jionGame ccid roomId) p := hp
      have habout : About lobby (.jionGame ccid roomId) (toUInt32 roomId) := rfl
      dsimp only
      cases hgame : lobby.rooms[toUInt32 roomId]? with
      | none => exact Isolated.notice hsends _
      | some game =>
          apply Isolated.setRoom habout
          apply confined_enterRoom (.sender hsends)
          intro cuid hcuid q hq
          rcases List.mem_cons.mp hcuid with rfl | hcuid
          · exact .namesake hsends hq
          · exact (covers_seats habout hgame).taken cuid hcuid q hq

theorem giveUp_isolated (ccid : Ccid) : Isolated lobby (.giveUp ccid) (lobby.giveUp ccid) := by
  unfold LobbyState.giveUp
  cases hp : lobby.world.getByCcid ccid with
  | none => exact Isolated.refl lobby _
  | some p =>
      have hsends : Sends lobby (.giveUp ccid) p := hp
      have habout : About lobby (.giveUp ccid) (lobby.world.client p).roomId := ⟨p, hsends, rfl⟩
      dsimp only
      split_ifs
      · exact Isolated.notice hsends _
      · cases hgame : lobby.rooms[(lobby.world.client p).roomId]? with
        | none => exact Isolated.leaves hsends
        | some game =>
            dsimp only
            cases game.getPlayerInfoByCuid (lobby.world.client p).cuid with
            | none => exact Isolated.refl lobby _
            | some seat =>
                apply Isolated.setRoom habout
                exact confined_giveUpRoom (.sender hsends) (covers_seats habout hgame) seat

theorem voteFoAbortGame_isolated (ccid : Ccid) (vote : Vote) :
    Isolated lobby (.voteFoAbortGame ccid vote) (lobby.voteFoAbortGame ccid vote) := by
  unfold LobbyState.voteFoAbortGame
  cases hp : lobby.world.getByCcid ccid with
  | none => exact Isolated.refl lobby _
  | some p =>
      have hsends : Sends lobby (.voteFoAbortGame ccid vote) p := hp
      have habout : About lobby (.voteFoAbortGame ccid vote) (lobby.world.client p).roomId :=
        ⟨p, hsends, rfl⟩
      dsimp only
      cases hgame : lobby.rooms[(lobby.world.client p).roomId]? with
      | none => exact Isolated.leaves hsends
      | some game =>
          dsimp only
          rcases ne_or_eq game.status .vote with hvote | hvote
          · rw [if_pos hvote]
            exact Isolated.refl lobby _
          rw [if_neg (not_not.mpr hvote)]
          cases game.getPlayerInfoByCuid (lobby.world.client p).cuid with
          | none => exact Isolated.leaves hsends
          | some seat =>
              have hvoted := confined_voteRoom (covers_seats habout hgame) seat vote
              unfold voteRoom at hvoted
              dsimp only at hvoted ⊢
              split_ifs at hvoted ⊢
              · exact Isolated.setRoom habout hvoted
              · exact Isolated.setRoom habout hvoted

theorem readyFlag_isolated {ccid : Ccid} {ready : Bool}
    (h : lobby.readyFlag ccid ready = .ok lobby') :
    Isolated lobby (.readyFlag ccid ready) lobby' := by
  unfold LobbyState.readyFlag at h
  cases hp : lobby.world.getByCcid ccid with
  | none =>
      simp only [hp] at h
      cases h
      exact Isolated.refl lobby _
  | some p =>
      have hsends : Sends lobby (.readyFlag ccid ready) p := hp
      have habout : About lobby (.readyFlag ccid ready) (lobby.world.client p).roomId :=
        ⟨p, hsends, rfl⟩
      simp only [hp] at h
      split_ifs at h
      · cases h
        exact Isolated.notice hsends _
      · cases hgame : lobby.rooms[(lobby.world.client p).roomId]? with
        | none =>
            simp only [hgame] at h
            cases h
            exact Isolated.leaves hsends
        | some game =>
            simp only [hgame] at h
            split_ifs at h
            · cases h
              exact Isolated.notice hsends _
            · cases hseat : game.getPlayerInfoByCuid (lobby.world.client p).cuid with
              | none =>
                  simp only [hseat] at h
                  cases h
                  exact Isolated.leaves hsends
              | some seat =>
                  simp only [hseat] at h
                  split_ifs at h
                  · cases h
                    exact Isolated.refl lobby _
                  · obtain ⟨⟨w, game'⟩, hready, h⟩ := bind_eq_ok.mp h
                    cases h
                    apply Isolated.setRoom habout
                    exact confined_readyFlagRoom (covers_seats habout hgame) hready

theorem bringOut_isolated {ccid : Ccid} {cards : List Int}
    (h : lobby.bringOut ccid cards = .ok lobby') :
    Isolated lobby (.bringOut ccid cards) lobby' := by
  unfold LobbyState.bringOut at h
  cases hp : lobby.world.getByCcid ccid with
  | none =>
      simp only [hp] at h
      cases h
      exact Isolated.refl lobby _
  | some p =>
      have hsends : Sends lobby (.bringOut ccid cards) p := hp
      have habout : About lobby (.bringOut ccid cards) (lobby.world.client p).roomId :=
        ⟨p, hsends, rfl⟩
      simp only [hp] at h
      rcases eq_or_ne (lobby.world.client p).roomId 0 with hzero | hzero
      · rw [if_pos hzero] at h
        cases h
        exact Isolated.notice hsends _
      · rw [if_neg hzero] at h
        cases hgame : lobby.rooms[(lobby.world.client p).roomId]? with
        | none =>
            simp only [hgame] at h
            cases h
            exact Isolated.leaves hsends
        | some game =>
            simp only [hgame] at h
            rcases ne_or_eq game.status .play with hplay | hplay
            · rw [if_pos hplay] at h
              cases h
              exact Isolated.notice hsends _
            · rw [if_neg (not_not.mpr hplay)] at h
              cases hseat : game.getPlayerInfoByCuid (lobby.world.client p).cuid with
              | none =>
                  simp only [hseat] at h
                  cases h
                  exact Isolated.leaves hsends
              | some seat =>
                  simp only [hseat] at h
                  split_ifs at h
                  · cases h
                    exact Isolated.notice hsends _
                  · obtain ⟨⟨w, game'⟩, hbring, h⟩ := bind_eq_ok.mp h
                    cases h
                    apply Isolated.setRoom habout
                    exact confined_bringOutRoom (covers_seats habout hgame) hbring
                  · cases h
                    exact Isolated.notice hsends _

theorem sendChat_isolated (ccid : Ccid) (type : ChatType) (dataInt : Int) (dataText : String) :
    Isolated lobby (.sendChat ccid type dataInt dataText)
      (lobby.sendChat ccid type dataInt dataText) := by
  unfold LobbyState.sendChat
  cases hp : lobby.world.getByCcid ccid with
  | none => exact Isolated.refl lobby _
  | some p =>
      dsimp only
      cases hgame : lobby.rooms[(lobby.world.client p).roomId]? with
      | none => exact Isolated.refl lobby _
      | some game =>
          have habout : About lobby (.sendChat ccid type dataInt dataText)
              (lobby.world.client p).roomId := ⟨p, hp, rfl⟩
          apply Isolated.setWorld
          apply confined_sendToSeats
          exact (covers_seats habout hgame).of_subset (List.filter_subset_self _)

theorem timerExecRooms_confined {A : ClientPtr → Prop} {order : List RoomId}
    (hcovers : ∀ (k : RoomId) game, lobby.rooms[k]? = some game → Covers A lobby.world game.cuids)
    (h : timerExecRooms order lobby = .ok lobby') : Confined A lobby.world lobby'.world := by
  induction order generalizing lobby with
  | nil =>
      cases h
      exact Confined.refl _
  | cons roomId order ih =>
      rw [timerExecRooms] at h
      cases hgame : lobby.rooms[roomId]? with
      | none =>
          simp only [hgame] at h
          exact ih hcovers h
      | some game =>
          simp only [hgame] at h
          split_ifs at h with hid
          · cases h
            exact Confined.refl _
          · obtain ⟨⟨w, game'⟩, hexec, h⟩ := bind_eq_ok.mp h
            obtain ⟨hconfined, hsub⟩ := confined_timerExec (hcovers roomId game hgame) hexec
            apply hconfined.trans
            refine ih (fun k room hroom => ?_) h
            rw [LobbySteps.getElem?_setRoom] at hroom
            split_ifs at hroom
            · obtain rfl := Option.some.inj hroom
              exact ((hcovers roomId game hgame).of_keeps hconfined.keeps).of_subset hsub
            · exact (hcovers k room hroom).of_keeps hconfined.keeps

theorem timer_isolated {now : Int} {order : List RoomId}
    (h : lobby.timerExecAll now order = .ok lobby') :
    Isolated lobby (.timer now order) lobby' := by
  have habout : ∀ k, About lobby (.timer now order) k := fun _ => trivial
  obtain ⟨begun, hbegun⟩ : ∃ begun, begun =
    lobby.setWorld { lobby.world with timerTime := now } := ⟨_, rfl⟩
  have hcovers : ∀ (k : RoomId) game, begun.rooms[k]? = some game →
      Covers (Concerned lobby (.timer now order)) begun.world game.cuids := by
    subst hbegun
    exact fun k game hgame => covers_seats (habout k) hgame
  have hloop : timerExecRooms order begun = .ok lobby' := hbegun ▸ h
  have hconfined := timerExecRooms_confined hcovers hloop
  subst hbegun
  obtain ⟨out, hsent, hout⟩ := hconfined.sent
  refine ⟨fun k hk => absurd (habout k) hk, hconfined.client, out, hsent, fun o ho => .inr ?_⟩
  obtain ⟨p, msg, hp, rfl⟩ := hout o ho
  refine ⟨p, msg, hp, congrArg (Outgoing.relay · msg) ?_⟩
  exact (hconfined.keeps.keys.ccid p).symm

theorem confined_clientOnline {A : ClientPtr → Prop} (lobby : LobbyState) (hp : A p)
    (hcovers : ∀ game, lobby.rooms[(lobby.world.client p).roomId]? = some game →
      Covers A lobby.world game.cuids) :
    Confined A lobby.world (lobby.clientOnline p).world := by
  unfold clientOnline
  dsimp only
  split_ifs
  · exact Confined.refl _
  · cases hgame : lobby.rooms[(lobby.world.client p).roomId]? with
    | none => exact confined_setRoomId hp _ 0
    | some game => exact confined_clientOnlineExec hp (hcovers game hgame)

theorem rooms_clientOnline (lobby : LobbyState) (p : ClientPtr) :
    (lobby.clientOnline p).rooms = lobby.rooms := by
  unfold clientOnline
  dsimp only
  split_ifs
  · rfl
  · cases lobby.rooms[(lobby.world.client p).roomId]? with
    | none => rfl
    | some game => rfl

/-- From `w` to `w'` nothing is sent but answers to the gateway. -/
def Answers (w w' : World) : Prop := ∃ msgs : List PrivateMsg, w'.sent = w.sent ++ msgs.map .gateway

theorem Answers.of_sent_eq {w w' : World} (h : w'.sent = w.sent) : Answers w w' :=
  ⟨[], h.trans (List.append_nil _).symm⟩

theorem Answers.sendToPrivate {w w' : World} (h : Answers w w') (msg : PrivateMsg) :
    Answers w (w'.sendToPrivate msg) := by
  obtain ⟨msgs, hsent⟩ := h
  refine ⟨msgs ++ [msg], ?_⟩
  rw [List.map_append, ← List.append_assoc, ← hsent]
  rfl

theorem Isolated.online {ccid : Ccid} {openid name : String}
    (hp : Sends lobby (.loginQuest ccid openid name) p)
    (hothers : ∀ q, q ≠ p → w.client q = lobby.world.client q)
    (hroom : (w.client p).roomId = (lobby.world.client p).roomId)
    (hfound : ∀ cuid q, q ≠ p → w.getByCuid cuid = some q → lobby.world.getByCuid cuid = some q)
    (hsent : Answers lobby.world w) :
    Isolated lobby (.loginQuest ccid openid name) ((lobby.setWorld w).clientOnline p) := by
  have habout : About lobby (.loginQuest ccid openid name) (lobby.world.client p).roomId :=
    ⟨p, hp, rfl⟩
  have hconfined : Confined (Concerned lobby (.loginQuest ccid openid name)) w
      ((lobby.setWorld w).clientOnline p).world := by
    apply confined_clientOnline (lobby.setWorld w) (.sender hp)
    intro game hgame cuid hcuid q hq
    have hgame' : lobby.rooms[(w.client p).roomId]? = some game := hgame
    rw [hroom] at hgame'
    rcases eq_or_ne q p with rfl | hne
    · exact .sender hp
    · exact .seated habout hgame' hcuid (hfound cuid q hne hq)
  obtain ⟨msgs, hsent⟩ := hsent
  obtain ⟨out, hout, hmem⟩ := hconfined.sent
  refine ⟨fun k _ => ?_, fun q hq => ?_, msgs.map .gateway ++ out, ?_, fun o ho => ?_⟩
  · rw [rooms_clientOnline]
    rfl
  · rw [hconfined.client q hq]
    apply hothers
    rintro rfl
    exact hq (.sender hp)
  · rw [hout, hsent, List.append_assoc]
  · rcases List.mem_append.mp ho with ho | ho
    · obtain ⟨msg, -, rfl⟩ := List.mem_map.mp ho
      exact .inl ⟨⟨msg, rfl⟩, ccid, openid, name, rfl⟩
    · obtain ⟨q, msg, hq, rfl⟩ := hmem o ho
      refine .inr ⟨q, msg, hq, congrArg (Outgoing.relay · msg) ?_⟩
      exact (hconfined.keeps.keys.ccid q).symm

theorem getByCuid_insert {m : ClientManager} {q : ClientPtr} {cuid : Cuid} (hne : q ≠ p)
    (h : (m.insert p).2.getByCuid cuid = some q) : m.getByCuid cuid = some q := by
  unfold ClientManager.getByCuid at h ⊢
  unfold ClientManager.insert at h
  dsimp only at h
  split_ifs at h
  · exact h
  · exact h
  · dsimp only at h
    rw [Std.TreeMap.getElem?_erase] at h
    split_ifs at h
    exact h
  · dsimp only at h
    rw [Std.TreeMap.getElem?_insert] at h
    split_ifs at h
    · exact absurd (Option.some.inj h).symm hne
    · exact h

theorem loginQuest_isolated (ccid : Ccid) (openid name : String) :
    Isolated lobby (.loginQuest ccid openid name) (lobby.loginQuest ccid openid name) := by
  cases hopenid : lobby.world.clients.getByOpenid openid with
  | none =>
      have hp : Sends lobby (.loginQuest ccid openid name) lobby.world.clients.clients.length := by
        rw [Sends, hopenid]
        rfl
      have hclient := client_insertNew lobby.world.clients ccid openid name
      rw [loginQuest_new ccid name hopenid]
      split_ifs
      · apply Isolated.online hp
        · exact fun q hq => (hclient q).trans (if_neg hq)
        · have hempty : lobby.world.client lobby.world.clients.clients.length = {} :=
            client_of_le (Nat.le_refl _)
          rw [hempty]
          refine (congrArg Client.roomId (hclient _)).trans ?_
          rw [if_pos rfl]
          rfl
        · intro cuid q hq hfound
          have hnew : ((withNew lobby.world.clients ccid openid name).insert
            lobby.world.clients.clients.length).2.getByCuid cuid = some q := hfound
          have hold := getByCuid_insert hq hnew
          exact hold
        · exact (Answers.of_sent_eq rfl).sendToPrivate _
      · refine ⟨fun _ _ => rfl, fun q hq => ?_, [_], rfl, fun o ho => ?_⟩
        · apply (hclient q).trans
          apply if_neg
          rintro rfl
          exact hq (.sender hp)
        · obtain rfl := List.mem_singleton.mp ho
          exact .inl ⟨⟨_, rfl⟩, ccid, openid, name, rfl⟩
  | some p =>
      have hp : Sends lobby (.loginQuest ccid openid name) p := by
        rw [Sends, hopenid]
        rfl
      have hclient : ∀ q, (replaced lobby.world p ccid).client q =
          if q = p ∧ p < lobby.world.clients.clients.length then
            { lobby.world.client q with ccid := ccid }
          else lobby.world.client q := by
        intro q
        refine Eq.trans ?_ (Logins.client_moved lobby.world.clients p q ccid)
        exact congrArg (·.getD q {}) (insert_clients (Logins.moved lobby.world.clients p ccid) p)
      have hothers : ∀ q, q ≠ p → (replaced lobby.world p ccid).client q = lobby.world.client q :=
        fun q hq => (hclient q).trans (if_neg fun heq => hq heq.1)
      have hroom : ((replaced lobby.world p ccid).client p).roomId =
          (lobby.world.client p).roomId := by
        rw [hclient]
        split_ifs
        · rfl
        · rfl
      have hfound : ∀ cuid q, q ≠ p → (replaced lobby.world p ccid).getByCuid cuid = some q →
          lobby.world.getByCuid cuid = some q := by
        intro cuid q hq hfound
        have hmoved : (Logins.moved lobby.world.clients p ccid).getByCuid cuid = some q :=
          getByCuid_insert hq hfound
        change (lobby.world.clients.cuid2Clients.erase _)[cuid]? = some q at hmoved
        rw [Std.TreeMap.getElem?_erase] at hmoved
        split_ifs at hmoved
        exact hmoved
      have hsent : Answers lobby.world (replaced lobby.world p ccid) :=
        (Answers.of_sent_eq rfl).sendToPrivate _
      rw [loginQuest_replaces ccid name hopenid]
      split_ifs
      · exact Isolated.online hp hothers hroom hfound (hsent.sendToPrivate _)
      · exact Isolated.online hp hothers hroom hfound ((hsent.sendToPrivate _).sendToPrivate _)

/-- What a message changes, and whom it tells something. -/
theorem isolated_of_step (h : lobby.step a = .ok lobby') : Isolated lobby a lobby' := by
  cases a with
  | createGame ccid rcv =>
      cases h
      exact createGame_isolated ccid rcv
  | jionGame ccid roomId =>
      cases h
      exact jionGame_isolated ccid roomId
  | giveUp ccid =>
      cases h
      exact giveUp_isolated ccid
  | voteFoAbortGame ccid vote =>
      cases h
      exact voteFoAbortGame_isolated ccid vote
  | readyFlag ccid ready => exact readyFlag_isolated h
  | bringOut ccid cards => exact bringOut_isolated h
  | sendChat ccid type dataInt dataText =>
      cases h
      exact sendChat_isolated ccid type dataInt dataText
  | loginQuest ccid openid name =>
      cases h
      exact loginQuest_isolated ccid openid name
  | timer now order => exact timer_isolated h

/-- Two clients, each in a room of its own. -/
def twoTables : LobbyState :=
  lobbySystem.after (LobbyState.start fun _ => Shuffle.id)
    [.loginQuest 11 "11" "", .loginQuest 12 "12" "", .createGame 11 ⟨2, 52, 1, 10, 3, false, 1⟩,
      .createGame 12 ⟨2, 52, 1, 10, 3, false, 1⟩]

theorem isolated_of_giveUp :
    ¬ About twoTables (.giveUp 11) 100002 ∧
      Isolated twoTables (.giveUp 11) (twoTables.giveUp 11) := by
  refine ⟨?_, isolated_of_step rfl⟩
  rintro ⟨p, hp, hroom⟩
  have hfirst : twoTables.world.getByCcid 11 = some 0 := by
    decide +kernel
  obtain rfl : p = 0 := Option.some.inj (hp.symm.trans hfirst)
  have hown : (twoTables.world.client 0).roomId = 100001 := by
    decide +kernel
  cases hown.symm.trans hroom

end Messages

end CasualGame.Lobby.Isolation
