import CasualGame.Sessions.Users

/-!
The steps of the two processes: what each does to the clients that the gateway will have
once it has heard everything, and that the ids of connections on the way have been given
out.
-/

namespace CasualGame.Sessions

open Lobby
open Lobby.Logins
open Lobby.LobbyActs
open Lobby.WorldFrames
open Lib.Run
open Lib.InFlight

section Settling

variable {msgs : List PrivateMsg} {clients : Clients} {c : Ccid} {client : Option Client}

/-- What the messages of a connection do to its client. -/
def hearAll (msgs : List PrivateMsg) (c : Ccid) (client : Option Client) : Option Client :=
  (msgs.filter fun msg => about msg = c).foldl (fun client msg => hear msg client) client

theorem settle_apply (msgs : List PrivateMsg) (clients : Clients) (c : Ccid) :
    settle handle msgs clients c = hearAll msgs c (clients c) := by
  induction msgs generalizing clients with
  | nil => rfl
  | cons msg msgs ih =>
      change settle handle msgs (handle msg clients) c = _
      rw [ih, handle_apply, hearAll, hearAll]
      by_cases hmsg : about msg = c
      · rw [List.filter_cons, if_pos (decide_eq_true hmsg), if_pos hmsg.symm, List.foldl_cons]
      · rw [if_neg fun heq => hmsg heq.symm, List.filter_cons, if_neg (by simpa using hmsg)]

theorem hearAll_none (msgs : List PrivateMsg) (c : Ccid) : hearAll msgs c none = none := by
  rw [hearAll]
  induction msgs.filter fun msg => about msg = c with
  | nil => rfl
  | cons msg msgs ih => rwa [List.foldl_cons, hear_none]

theorem hearAll_of_others (h : ∀ msg ∈ msgs, about msg ≠ c) : hearAll msgs c client = client := by
  rw [hearAll, List.filter_eq_nil_iff.mpr fun msg hmsg => by simpa using h msg hmsg]
  rfl

theorem settle_of_others (h : ∀ msg ∈ msgs, about msg ≠ c) :
    settle handle msgs clients c = clients c := by
  rw [settle_apply, hearAll_of_others h]

theorem settle_update (msgs : List PrivateMsg) (clients : Clients) (c : Ccid)
    (client : Option Client) :
    settle handle msgs (Function.update clients c client) =
      Function.update (settle handle msgs clients) c (hearAll msgs c client) := by
  funext c'
  rw [settle_apply]
  by_cases hc : c' = c
  · rw [hc, Function.update_self, Function.update_self]
  · rw [Function.update_of_ne hc, Function.update_of_ne hc, settle_apply]

end Settling

section Steps

variable {s s' : Session} {quest : LoginQuest} {quests : List LoginQuest} {act : SessionAct}
  {c : Ccid}

/-- The quest has been worked off: `m` are the clients of the lobby, and `msgs` is what the
gateway will hear. -/
structure Quested (s : Session) (quest : LoginQuest) (quests : List LoginQuest)
    (m : ClientManager) (msgs : List PrivateMsg) (s' : Session) : Prop where
  logged : Logged s.lobby.world.clients quest.ccid quest.openid quest.name m msgs
  keys : SameKeys m s'.lobby.world.clients
  clients : s'.clients = s.clients
  seen : s'.seen = s.seen
  quests : s'.quests = quests
  answers : s'.answers = s.answers ++ msgs

theorem privateMsgs_of_tells {msgs : List PrivateMsg} {w w' : World} (h : Tells msgs w w') :
    privateMsgs (w'.sent.drop w.sent.length) = msgs := by
  obtain ⟨out, hsent, hmsgs⟩ := h
  rw [hsent, List.drop_left, hmsgs]

theorem quested (h : s.quests = quest :: quests) :
    ∃ m msgs, Quested s quest quests m msgs s.quest := by
  obtain ⟨m, msgs, hlogged, hkeys, htold⟩ :=
    loginQuest_logged s.lobby quest.ccid quest.openid quest.name
  have hquest : s.quest = { s with
      quests := quests
      lobby := s.lobby.loginQuest quest.ccid quest.openid quest.name
      answers := s.answers ++ msgs } := by
    rw [Session.quest, h, ← privateMsgs_of_tells htold]
  rw [hquest]
  exact ⟨m, msgs, hlogged, hkeys, rfl, rfl, rfl, rfl⟩

theorem Quested.settled {m : ClientManager} {msgs : List PrivateMsg}
    (h : Quested s quest quests m msgs s') : s'.settled = settle handle msgs s.settled := by
  rw [Session.settled, h.answers, h.clients, settle_append]
  rfl

theorem settled_answer (s : Session) : s.answer.settled = s.settled := by
  rw [Session.answer]
  cases hanswers : s.answers with
  | nil => rfl
  | cons msg answers =>
      rw [Session.settled, Session.settled, hanswers]
      rfl

theorem settled_clientOffline (s : Session) (c : Ccid) :
    (s.step (.clientOffline c)).settled = Function.update s.settled c none := by
  change settle handle s.answers (Function.update s.clients c none) = _
  rw [settle_update, hearAll_none]
  rfl

theorem settled_clientOnline (hanswers : ∀ msg ∈ s.answers, about msg ≠ c) :
    (s.step (.clientOnline c)).settled = Function.update s.settled c (some {}) := by
  change settle handle s.answers (Function.update s.clients c (some {})) = _
  rw [settle_update, hearAll_of_others hanswers]
  rfl

theorem cLogin_eq_some {clients : Clients} {openid nickName : String} :
    clients.cLogin c openid nickName = some quest ↔
      clients c ≠ none ∧ quest = { ccid := c, openid := openid, name := nickName } := by
  rw [Clients.cLogin]
  cases clients c with
  | none => simp
  | some client => simp [eq_comm]

theorem mem_quests_cLogin {openid nickName : String} :
    quest ∈ (s.step (.cLogin c openid nickName)).quests ↔ quest ∈ s.quests ∨
      s.clients c ≠ none ∧ quest = { ccid := c, openid := openid, name := nickName } := by
  change quest ∈ s.quests ++ (s.clients.cLogin c openid nickName).toList ↔ _
  rw [List.mem_append, Option.mem_toList, cLogin_eq_some]

theorem step_eq (h : loginSystem.step s act = .ok s') : s' = s.step act :=
  (Except.ok.inj h).symm

end Steps

section Known

variable {s s' : Session} {act : SessionAct} {quest : LoginQuest} {quests : List LoginQuest}

/-- Every id of a connection, wherever it stands, has been given out. -/
structure Known (s : Session) : Prop where
  indexed : Indexed s.lobby
  users : ∀ p, IsUser s.lobby.world.clients p → (s.lobby.world.clients.client p).ccid ∈ s.seen
  quests : ∀ quest ∈ s.quests, quest.ccid ∈ s.seen
  answers : ∀ msg ∈ s.answers, about msg ∈ s.seen
  clients : ∀ c, s.clients c ≠ none → c ∈ s.seen

theorem known_start (rg : Nat → Dealing.Shuffle) : Known { lobby := LobbyState.start rg } where
  indexed := ⟨∅, ∅, ∅, indexing_empty⟩
  users p hp := absurd hp (by simp [IsUser, ClientManager.getByOpenid, LobbyState.start])
  quests quest hquest := absurd hquest List.not_mem_nil
  answers msg hmsg := absurd hmsg List.not_mem_nil
  clients c hc := absurd rfl hc

theorem handle_ne_none {msg : PrivateMsg} {clients : Clients} {c : Ccid}
    (h : handle msg clients c ≠ none) : clients c ≠ none := by
  rw [handle_apply] at h
  split_ifs at h with hc
  · intro hnone
    rw [hnone, hear_none] at h
    exact h rfl
  · exact h

theorem Known.quest_step (h : Known s) (hquests : s.quests = quest :: quests) : Known s.quest := by
  obtain ⟨m, msgs, hquested⟩ := quested hquests
  obtain ⟨S, T, U, hindexing⟩ := h.indexed
  have hfirst : quest.ccid ∈ s.seen := h.quests quest (by rw [hquests]; exact List.mem_cons_self)
  constructor
  · obtain ⟨S', T', U', hindexing'⟩ := hquested.logged.indexed hindexing
    exact ⟨S', T', U', hindexing'.of_sameKeys hquested.keys⟩
  · intro p hp
    rw [hquested.seen, hquested.keys.ccid]
    rw [isUser_sameKeys hquested.keys] at hp
    rcases hquested.logged.user_cases hindexing hp with ⟨hp, heq, -⟩ | ⟨hccid, -⟩
    · rw [heq]
      exact h.users p hp
    · rwa [hccid]
  · intro quest' hquest'
    rw [hquested.quests] at hquest'
    rw [hquested.seen]
    exact h.quests quest' (by rw [hquests]; exact List.mem_cons_of_mem quest hquest')
  · intro msg hmsg
    rw [hquested.answers, List.mem_append] at hmsg
    rw [hquested.seen]
    rcases hmsg with hmsg | hmsg
    · exact h.answers msg hmsg
    · rcases hquested.logged.about hmsg with habout | ⟨client, hclient, habout⟩
      · rwa [habout]
      · rw [habout]
        exact h.users client (isUser_of_getByOpenid hindexing hclient)
  · rw [hquested.clients, hquested.seen]
    exact h.clients

theorem Known.answer_step (h : Known s) : Known s.answer := by
  rw [Session.answer]
  cases hanswers : s.answers with
  | nil => exact h
  | cons msg answers =>
      refine { h with answers := fun msg' hmsg => ?_, clients := fun c hc => ?_ }
      · exact h.answers msg' (by rw [hanswers]; exact List.mem_cons_of_mem msg hmsg)
      · exact h.clients c (handle_ne_none hc)

theorem Known.step (h : Known s) (hallowed : s.Allowed act) : Known (s.step act) := by
  cases act with
  | clientOnline c =>
      refine ⟨h.indexed, fun p hp => List.mem_cons_of_mem c (h.users p hp),
        fun quest hquest => List.mem_cons_of_mem c (h.quests quest hquest),
        fun msg hmsg => List.mem_cons_of_mem c (h.answers msg hmsg), fun c' hc' => ?_⟩
      by_cases hc : c' = c
      · rw [hc]
        exact List.mem_cons_self
      · change Function.update s.clients c (some {}) c' ≠ none at hc'
        rw [Function.update_of_ne hc] at hc'
        exact List.mem_cons_of_mem c (h.clients c' hc')
  | clientOffline c =>
      refine { h with clients := fun c' hc' => ?_ }
      change Function.update s.clients c none c' ≠ none at hc'
      by_cases hc : c' = c
      · rw [hc]
        exact hallowed
      · rw [Function.update_of_ne hc] at hc'
        exact h.clients c' hc'
  | cLogin c openid nickName =>
      refine { h with quests := fun quest hquest => ?_ }
      rcases mem_quests_cLogin.mp hquest with hquest | ⟨-, rfl⟩
      · exact h.quests quest hquest
      · exact hallowed
  | quest =>
      obtain ⟨quest, quests, hquests⟩ := List.exists_cons_of_ne_nil hallowed
      exact h.quest_step hquests
  | answer => exact h.answer_step

theorem Known.reaches {C : Session → SessionAct → Prop} (h : loginSystem.Reaches C s) :
    Known s := by
  refine h.invariant ?_ fun s act s' hinv hallowed _ hstep => ?_
  · rintro s ⟨rg, rfl⟩
    exact known_start rg
  · rw [step_eq hstep]
    exact hinv.step hallowed

end Known

end CasualGame.Sessions
