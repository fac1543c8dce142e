import CasualGame.Lib.Loop
import CasualGame.Lobby.AllRounds

/-!
One call of `timerExecAll`: which rooms it runs, which it removes, and which it never
gets to.
-/

namespace CasualGame.Lobby.TimerLoop

open Deck
open Dealing
open Game13
open LobbySteps
open AllRounds
open Lib.Run
open Lib.Loop

/-- What the loop does with a room it reaches. -/
inductive Visit
  | execs (roomId : RoomId)
  | erases (roomId : RoomId)
  deriving DecidableEq

/-- The loop of `timerExecAll`, with the visits it makes. -/
def timerVisits : List RoomId → LobbyState → Except Fault (LobbyState × List Visit)
  | [], lobby => .ok (lobby, [])
  | roomId :: order, lobby =>
      match lobby.rooms[roomId]? with
      | none => timerVisits order lobby
      | some game =>
          if game.id = 0 then
            .ok ({ lobby with rooms := lobby.rooms.erase roomId }, [.erases roomId])
          else do
            let (w, game) ← timerExec lobby.world game
            let (lobby, visits) ← timerVisits order (lobby.setRoom roomId w game)
            return (lobby, .execs roomId :: visits)

theorem timerVisits_fst (order : List RoomId) (lobby : LobbyState) :
    (timerVisits order lobby).map Prod.fst = LobbyState.timerExecRooms order lobby := by
  induction order generalizing lobby with
  | nil => rfl
  | cons roomId order ih =>
      rw [timerVisits, LobbyState.timerExecRooms]
      cases lobby.rooms[roomId]? with
      | none => exact ih lobby
      | some game =>
          dsimp only
          split_ifs
          · rfl
          · cases timerExec lobby.world game with
            | error e => rfl
            | ok r =>
                change ((timerVisits order _).bind _).map _ = LobbyState.timerExecRooms order _
                rw [← ih]
                cases timerVisits order (lobby.setRoom roomId r.1 r.2) with
                | error e => rfl
                | ok r => rfl

theorem tryStartRound_id {w w' : World} {game game' : Game13}
    (h : tryStartRound w game = .ok (w', game')) : game'.id = game.id := by
  unfold tryStartRound at h
  split_ifs at h
  · obtain ⟨w₁, -, h⟩ := bind_eq_ok.mp h
    obtain ⟨⟨w₂, players⟩, -, h⟩ := bind_eq_ok.mp h
    cases h
    rfl
  · cases h
    rfl

theorem timerExec_id {w w' : World} {game game' : Game13}
    (h : timerExec w game = .ok (w', game')) : game'.id = game.id ∨ game'.id = 0 := by
  unfold timerExec at h
  cases hstatus : game.status with
  | prepare =>
      simp only [hstatus] at h
      exact Or.inl (tryStartRound_id h)
  | play =>
      simp only [hstatus] at h
      cases h
      exact Or.inl rfl
  | vote =>
      simp only [hstatus] at h
      split_ifs at h
      · cases h
        exact Or.inr rfl
      · cases h
        exact Or.inl rfl
  | settle =>
      simp only [hstatus] at h
      cases h
      exact Or.inl rfl
  | settleAll =>
      simp only [hstatus] at h
      split_ifs at h
      · cases h
        exact Or.inr rfl
      · cases h
        exact Or.inl rfl
  | closed =>
      simp only [hstatus] at h
      cases h
      exact Or.inr rfl

def destroyed (lobby : LobbyState) (roomId : RoomId) : Bool :=
  match lobby.rooms[roomId]? with
  | some game => game.id = 0
  | none => false

section Loop

variable {lobby lobby' : LobbyState} {order : List RoomId} {visits : List Visit}

/-- The rooms the loop reaches, all but the destroyed one at its end run once, and the
others, untouched. -/
structure Swept (lobby : LobbyState) (order : List RoomId) (lobby' : LobbyState)
    (visits : List Visit) : Prop where
  reached : ∀ k ∈ upTo (destroyed lobby) order, ∀ game, lobby.rooms[k]? = some game →
    game.id ≠ 0 ∧ visits.count (.execs k) = 1 ∧ Visit.erases k ∉ visits ∧
        (∃ game', lobby'.rooms[k]? = some game' ∧ (game'.id = game.id ∨ game'.id = 0)) ∨
      game.id = 0 ∧ Visit.execs k ∉ visits ∧ lobby'.rooms[k]? = none
  others : ∀ k, k ∉ upTo (destroyed lobby) order →
    Visit.execs k ∉ visits ∧ Visit.erases k ∉ visits ∧ lobby'.rooms[k]? = lobby.rooms[k]?

theorem timerVisits_swept (horder : order.Nodup)
    (h : timerVisits order lobby = .ok (lobby', visits)) : Swept lobby order lobby' visits := by
  induction order generalizing lobby visits with
  | nil =>
      cases h
      exact ⟨fun k hk => absurd hk (List.not_mem_nil), fun k _ => ⟨by simp, by simp, rfl⟩⟩
  | cons roomId order ih =>
      obtain ⟨hnotin, hnodup⟩ := List.nodup_cons.mp horder
      rw [timerVisits] at h
      cases hroom : lobby.rooms[roomId]? with
      | none =>
          simp only [hroom] at h
          have hlive : destroyed lobby roomId = false := by rw [destroyed, hroom]
          have hrest := ih hnodup h
          constructor
          · intro k hk game hgame
            rw [upTo, hlive] at hk
            rcases List.mem_cons.mp hk with rfl | hk
            · rw [hroom] at hgame
              cases hgame
            · exact hrest.reached k hk game hgame
          · intro k hk
            rw [upTo, hlive] at hk
            exact hrest.others k (List.not_mem_of_not_mem_cons hk)
      | some game =>
          simp only [hroom] at h
          split_ifs at h with hid
          · -- the break: everything after this room is out of reach
            have hstop : destroyed lobby roomId = true := by simp [destroyed, hroom, hid]
            cases h
            constructor
            · intro k hk game' hgame'
              rw [upTo, hstop] at hk
              rw [List.mem_singleton.mp hk] at hgame' ⊢
              rw [hroom] at hgame'
              cases hgame'
              exact Or.inr ⟨hid, by simp, by simp⟩
            · intro k hk
              rw [upTo, hstop] at hk
              have hne : roomId ≠ k := fun heq => hk (by simp [heq])
              exact ⟨by simp, by simpa using hne.symm, by simp [Std.TreeMap.getElem?_erase, hne]⟩
          · have hlive : destroyed lobby roomId = false := by simp [destroyed, hroom, hid]
            obtain ⟨⟨w, game₁⟩, hexec, h⟩ := bind_eq_ok.mp h
            obtain ⟨⟨lobby₁, visits₁⟩, hrun, h⟩ := bind_eq_ok.mp h
            cases h
            have hrest := ih hnodup hrun
            have hupTo : upTo (destroyed (lobby.setRoom roomId w game₁)) order =
                upTo (destroyed lobby) order := by
              apply upTo_congr
              intro k hk
              have hne : k ≠ roomId := fun heq => hnotin (heq ▸ hk)
              rw [destroyed, destroyed, getElem?_setRoom, if_neg hne]
            have hself := hrest.others roomId fun hmem =>
              hnotin ((upTo_sublist _ _).subset hmem)
            constructor
            · intro k hk game' hgame'
              rw [upTo, hlive] at hk
              by_cases hk' : k = roomId
              · subst hk'
                rw [hroom] at hgame'
                cases hgame'
                obtain ⟨hexecs, herases, hkept⟩ := hself
                rw [getElem?_setRoom, if_pos rfl] at hkept
                refine Or.inl ⟨hid, ?_, by simpa using herases, game₁, hkept, timerExec_id hexec⟩
                rw [List.count_cons_self, List.count_eq_zero_of_not_mem hexecs]
              · have hmem : k ∈ upTo (destroyed lobby) order := by
                  rcases List.mem_cons.mp hk with heq | hmem
                  · exact absurd heq hk'
                  · exact hmem
                rw [← hupTo] at hmem
                have hgame : (lobby.setRoom roomId w game₁).rooms[k]? = some game' := by
                  rw [getElem?_setRoom, if_neg hk', hgame']
                have hne : ¬ roomId = k := fun heq => hk' heq.symm
                simpa [hne, hk', List.count_cons] using hrest.reached k hmem game' hgame
            · intro k hk
              rw [upTo, hlive] at hk
              have hne : k ≠ roomId := fun heq => hk (by simp [heq])
              rw [← hupTo] at hk
              have hothers := hrest.others k (List.not_mem_of_not_mem_cons hk)
              rw [getElem?_setRoom, if_neg hne] at hothers
              simpa [hne] using hothers

end Loop

section Ticks

/-- Every live room is run exactly once and stays under its id unless it destroys itself
in its turn, and a destroyed room is never run, and gone once the loop has got to it. -/
structure TicksEveryRoom (lobby lobby' : LobbyState) (visits : List Visit) : Prop where
  execs : ∀ (k : RoomId) (game : Game13), lobby.rooms[k]? = some game → game.id ≠ 0 →
    visits.count (.execs k) = 1
  erases : ∀ (k : RoomId) (game : Game13), lobby.rooms[k]? = some game → game.id = 0 →
    Visit.execs k ∉ visits ∧ (Visit.erases k ∈ visits → lobby'.rooms[k]? = none)
  keeps : ∀ (k : RoomId) (game : Game13), lobby.rooms[k]? = some game → game.id = k → k ≠ 0 →
    ∃ game', lobby'.rooms[k]? = some game' ∧ (game'.id = k ∨ game'.id = 0)

variable {lobby lobby' : LobbyState} {order : List RoomId} {visits : List Visit}

theorem destroyed_eq {lobby : LobbyState} {k : RoomId} {game : Game13}
    (h : lobby.rooms[k]? = some game) : destroyed lobby k = decide (game.id = 0) := by
  rw [destroyed, h]

theorem Swept.ticks_iff (h : Swept lobby order lobby' visits) (hnodup : order.Nodup)
    (hkeys : ∀ k, k ∈ order ↔ ∃ game, lobby.rooms[k]? = some game) :
    TicksEveryRoom lobby lobby' visits ↔
      order.Pairwise fun j k => destroyed lobby j = true → destroyed lobby k = true := by
  rw [← mem_upTo_iff_pairwise hnodup]
  constructor
  · intro hticks k hk hlive
    obtain ⟨game, hgame⟩ := (hkeys k).mp hk
    rw [destroyed_eq hgame, decide_eq_false_iff_not] at hlive
    by_contra hskipped
    have honce := hticks.execs k game hgame hlive
    rw [List.count_eq_zero_of_not_mem (h.others k hskipped).1] at honce
    cases honce
  · intro hall
    have hlive : ∀ (k : RoomId) (game : Game13), lobby.rooms[k]? = some game → game.id ≠ 0 →
        visits.count (.execs k) = 1 ∧
          ∃ game', lobby'.rooms[k]? = some game' ∧ (game'.id = game.id ∨ game'.id = 0) := by
      intro k game hgame hid
      have hmem := hall k ((hkeys k).mpr ⟨game, hgame⟩) (by simp [destroyed_eq hgame, hid])
      rcases h.reached k hmem game hgame with ⟨-, honce, -, hkept⟩ | ⟨hzero, -⟩
      · exact ⟨honce, hkept⟩
      · exact absurd hzero hid
    constructor
    · intro k game hgame hid
      exact (hlive k game hgame hid).1
    · intro k game hgame hid
      by_cases hmem : k ∈ upTo (destroyed lobby) order
      · rcases h.reached k hmem game hgame with ⟨hne, -⟩ | ⟨-, hnot, hgone⟩
        · exact absurd hid hne
        · exact ⟨hnot, fun _ => hgone⟩
      · obtain ⟨hnot, hnever, -⟩ := h.others k hmem
        exact ⟨hnot, fun herases => absurd herases hnever⟩
    · intro k game hgame hid hk
      obtain ⟨-, game', hgame', hid'⟩ := hlive k game hgame (hid ▸ hk)
      exact ⟨game', hgame', hid ▸ hid'⟩

/-- A call that returns has given every live room its tick exactly when no live room
comes after a destroyed one in the order of the hash table. -/
theorem ticksEveryRoom_iff {now : Int} (horder : order.Perm lobby.rooms.keys)
    (h : lobby.timerExecAll now order = .ok lobby') :
    ∃ visits, timerVisits order (lobby.setWorld { lobby.world with timerTime := now }) =
        .ok (lobby', visits) ∧
      (TicksEveryRoom lobby lobby' visits ↔
        order.Pairwise fun j k => destroyed lobby j = true → destroyed lobby k = true) := by
  rw [LobbyState.timerExecAll, ← timerVisits_fst] at h
  cases hvisits : timerVisits order
      (lobby.setWorld { lobby.world with timerTime := now }) with
  | error e =>
      rw [hvisits] at h
      cases h
  | ok r =>
      rw [hvisits] at h
      obtain ⟨lobby₁, visits⟩ := r
      have heq : lobby₁ = lobby' := Except.ok.inj h
      subst heq
      refine ⟨visits, rfl, ?_⟩
      have hnodup : order.Nodup := horder.nodup_iff.mpr lobby.rooms.nodup_keys
      have hswept : Swept lobby order lobby₁ visits :=
        ⟨(timerVisits_swept hnodup hvisits).reached, (timerVisits_swept hnodup hvisits).others⟩
      refine hswept.ticks_iff hnodup fun k => ?_
      rw [horder.mem_iff, Std.TreeMap.mem_keys, Std.TreeMap.mem_iff_isSome_getElem?,
        Option.isSome_iff_exists]

/-- One client has opened a room and closed it, and has opened another. -/
def twoRooms : LobbyState :=
  lobbySystem.after (LobbyState.start fun _ => Shuffle.id)
    [.loginQuest 11 "11" "", .createGame 11 ⟨2, 52, 1, 10, 3, false, 1⟩, .giveUp 11,
      .createGame 11 ⟨2, 52, 1, 10, 3, false, 1⟩]

theorem twoRooms_reaches : lobbySystem.Reaches (fun _ _ => True) twoRooms :=
  .after (.init ⟨_, rfl⟩) (by decide +kernel)

def afterTick (order : List RoomId) : LobbyState :=
  lobbySystem.after twoRooms [.timer 1 order]

theorem ticksEveryRoom_iff_twoRooms :
    ∃ visits, timerVisits [100002, 100001]
        (twoRooms.setWorld { twoRooms.world with timerTime := 1 }) =
          .ok (afterTick [100002, 100001], visits) ∧
      (TicksEveryRoom twoRooms (afterTick [100002, 100001]) visits ↔
        [100002, 100001].Pairwise fun j k =>
          destroyed twoRooms j = true → destroyed twoRooms k = true) := by
  have hfault : lobbySystem.fault twoRooms (.timer 1 [100002, 100001]) = none := by
    decide +kernel
  have hstep : twoRooms.timerExecAll 1 [100002, 100001] = .ok (afterTick [100002, 100001]) :=
    System.step_eq_after hfault
  exact ticksEveryRoom_iff (by decide +kernel) hstep

/-- With the closed room first, the other is not run. -/
theorem live_room_skipped :
    ¬ ∀ (lobby lobby' : LobbyState) (now : Int) (order : List RoomId) (visits : List Visit),
      lobbySystem.Reaches (fun _ _ => True) lobby → order.Perm lobby.rooms.keys →
        timerVisits order (lobby.setWorld { lobby.world with timerTime := now }) =
          .ok (lobby', visits) → TicksEveryRoom lobby lobby' visits := by
  intro hall
  have hfault : lobbySystem.fault twoRooms (.timer 1 [100001, 100002]) = none := by
    decide +kernel
  have hstep : twoRooms.timerExecAll 1 [100001, 100002] = .ok (afterTick [100001, 100002]) :=
    System.step_eq_after hfault
  have horder : [100001, 100002].Perm twoRooms.rooms.keys := by
    decide +kernel
  have hskips : ¬ [100001, 100002].Pairwise fun j k =>
      destroyed twoRooms j = true → destroyed twoRooms k = true := by
    decide +kernel
  rw [LobbyState.timerExecAll, ← timerVisits_fst] at hstep
  cases hvisits : timerVisits [100001, 100002]
      (twoRooms.setWorld { twoRooms.world with timerTime := 1 }) with
  | error e =>
      rw [hvisits] at hstep
      cases hstep
  | ok r =>
      have hnodup : [100001, 100002].Nodup := by decide
      have hswept := timerVisits_swept hnodup hvisits
      have hkeys : ∀ k, k ∈ [100001, 100002] ↔ ∃ game, twoRooms.rooms[k]? = some game := by
        intro k
        rw [horder.mem_iff, Std.TreeMap.mem_keys, Std.TreeMap.mem_iff_isSome_getElem?,
          Option.isSome_iff_exists]
      have hswept' : Swept twoRooms [100001, 100002] r.1 r.2 := ⟨hswept.reached, hswept.others⟩
      exact hskips ((hswept'.ticks_iff hnodup hkeys).mp
        (hall _ _ 1 _ _ twoRooms_reaches horder hvisits))

end Ticks

end CasualGame.Lobby.TimerLoop
