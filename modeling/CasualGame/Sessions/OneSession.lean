import CasualGame.Sessions.SessionSteps

/-!
Whether a user can play over two connections at once.
-/

namespace CasualGame.Sessions

open Lobby
open Lobby.Logins
open Lobby.LobbyActs
open Lobby.WorldFrames
open Lib.Run
open Lib.InFlight

/-- No two clients play under one cuid. -/
def OnePlaying (clients : Clients) : Prop :=
  ∀ c c' client client', clients c = some client → clients c' = some client' →
    client.state = .playing → client'.state = .playing → client.cuid = client'.cuid → c = c'

instance (m : ClientManager) (p : ClientPtr) : Decidable (IsUser m p) :=
  inferInstanceAs (Decidable (_ = _))

/-- A new user whom the maps take draws a cuid that no user has. -/
def FreshCuid (m : ClientManager) (quest : LoginQuest) : Prop :=
  quest.openid ∉ m.openid2Clients → m.getClientUniqueId.1 ∉ m.cuid2Clients →
    quest.ccid ∉ m.ccid2Clients →
      ∀ p < m.clients.length, IsUser m p → (m.client p).cuid ≠ m.getClientUniqueId.1

/-- If a quest is worked off, then one with a fresh cuid. -/
def CuidFree (s : Session) : SessionAct → Prop
  | .quest => ∀ quest ∈ s.quests.head?, FreshCuid s.lobby.world.clients quest
  | _ => True

section Playing

variable {clients clients' : Clients} {msg : PrivateMsg}

theorem OnePlaying.mono (h : OnePlaying clients) (hsub : ∀ c client, clients' c = some client →
    client.state = .playing → clients c = some client) : OnePlaying clients' := by
  intro c c' client client' hc hc' hplays hplays' hcuid
  exact h c c' client client' (hsub c client hc hplays) (hsub c' client' hc' hplays') hplays
    hplays' hcuid

theorem OnePlaying.handle (h : OnePlaying clients)
    (hothers : ∀ c client client', c ≠ about msg → clients c = some client →
      client.state = .playing → hear msg (clients (about msg)) = some client' →
        client.cuid ≠ client'.cuid) : OnePlaying (Sessions.handle msg clients) := by
  intro c c' client client' hc hc' hplays hplays' hcuid
  rw [handle_apply] at hc hc'
  split_ifs at hc hc' with heq heq' heq'
  · rw [heq, heq']
  · rw [heq] at hc
    exact absurd hcuid.symm (hothers c' client' client heq' hc' hplays' hc)
  · rw [heq'] at hc'
    exact absurd hcuid (hothers c client client' heq hc hplays hc')
  · exact h c c' client client' hc hc' hplays hplays' hcuid

theorem OnePlaying.silenced (h : OnePlaying clients)
    (hsilent : hear msg (clients (about msg)) = none) : OnePlaying (Sessions.handle msg clients) :=
  h.handle fun _ _ client' _ _ _ hclient' => by rw [hsilent] at hclient'; cases hclient'

end Playing

section Login

variable {m m' : ClientManager} {S T U : Set ClientPtr} {ccid : Ccid} {openid name : String}
  {msgs : List PrivateMsg} {clients : Clients} {c : Ccid} {client : Client}

/-- Whoever plays is a user of the lobby, who has the connection and the cuid. -/
def PlayedByUsers (m : ClientManager) (clients : Clients) : Prop :=
  ∀ c client, clients c = some client → client.state = .playing →
    ∃ p, IsUser m p ∧ (m.client p).ccid = c ∧ (m.client p).cuid = client.cuid

def DistinctCuids (m : ClientManager) : Prop :=
  ∀ p q, IsUser m p → IsUser m q → (m.client p).cuid = (m.client q).cuid → p = q

theorem Logged.settled_cases (hlogged : Logged m ccid openid name m' msgs)
    (h : Indexing m S T U) (hclient : settle handle msgs clients c = some client) :
    (clients c = some client ∧ c ≠ ccid ∧
        ∀ p, m.getByOpenid openid = some p → (m.client p).ccid ≠ c) ∨
      (c = ccid ∧ client.state = .playing ∧
        ∃ p, IsUser m' p ∧ (m'.client p).ccid = ccid ∧ (m'.client p).openid = openid ∧
          (m'.client p).cuid = client.cuid) := by
  cases hlogged with
  | registered hopenid hinserted =>
      rw [settle_cons, settle_nil, handle_apply] at hclient
      split_ifs at hclient with hc
      · obtain ⟨old, -, rfl⟩ := Option.map_eq_some_iff.mp hclient
        refine Or.inr ⟨hc, rfl, m.clients.length, ?_⟩
        rw [isUser_registered h hinserted, client_insertNew, if_pos rfl]
        exact ⟨Or.inl rfl, rfl, rfl, rfl⟩
      · refine Or.inl ⟨hclient, hc, fun p hp => ?_⟩
        rw [hopenid] at hp
        cases hp
  | refused hopenid hinserted =>
      rw [settle_cons, settle_nil, handle_apply] at hclient
      split_ifs at hclient with hc
      · cases hclient
      · refine Or.inl ⟨hclient, hc, fun p hp => ?_⟩
        rw [hopenid] at hp
        cases hp
  | @replaced user hopenid hinserted =>
      rw [settle_cons, settle_cons, settle_nil, handle_apply, handle_apply] at hclient
      split_ifs at hclient with hc hold hold
      · cases hclient
      · obtain ⟨old, -, rfl⟩ := Option.map_eq_some_iff.mp hclient
        have huser := isUser_of_getByOpenid h hopenid
        refine Or.inr ⟨hc, rfl, user, ?_⟩
        rw [isUser_replaced h hopenid hinserted, client_moved_self h huser]
        exact ⟨huser, rfl, h.openids.key_eq hopenid, rfl⟩
      · cases hclient
      · refine Or.inl ⟨hclient, hc, fun p hp heq => ?_⟩
        rw [hopenid, Option.some.injEq] at hp
        rw [← hp] at heq
        exact hold heq.symm
  | @rejected user hopenid hinserted =>
      rw [settle_cons, settle_cons, settle_cons, settle_nil] at hclient
      by_cases hc : c = ccid
      · subst hc
        cases hclient.symm.trans (handle_about.trans (congrArg (hear _) handle_about))
      · rw [handle_of_ne hc, handle_of_ne hc, handle_apply] at hclient
        split_ifs at hclient with hold
        · cases hclient
        · refine Or.inl ⟨hclient, hc, fun p hp heq => ?_⟩
          rw [hopenid, Option.some.injEq] at hp
          rw [← hp] at heq
          exact hold heq.symm

theorem Logged.playedByUsers (hlogged : Logged m ccid openid name m' msgs)
    (h : Indexing m S T U) (hplayed : PlayedByUsers m clients) :
    PlayedByUsers m' (settle handle msgs clients) := by
  intro c client hclient hplays
  rcases hlogged.settled_cases h hclient with
    ⟨hclient, hc, hothers⟩ | ⟨rfl, -, p, hp, hccid, -, hcuid⟩
  · obtain ⟨p, hp, hccid, hcuid⟩ := hplayed c client hclient hplays
    obtain ⟨hp', heq⟩ := hlogged.user_kept h hp fun hopenid => hothers p hopenid hccid
    exact ⟨p, hp', by rw [heq, hccid], by rw [heq, hcuid]⟩
  · exact ⟨p, hp, hccid, hcuid⟩

theorem FreshCuid.ne {quest : LoginQuest} (hfresh : FreshCuid m quest) (h : Indexing m S T U)
    (hinserted : (insertNew m quest.ccid quest.openid name).1 = true) {p : ClientPtr}
    (hp : IsUser m p) : (m.client p).cuid ≠ m.getClientUniqueId.1 := by
  obtain ⟨hopenid, hcuid, hccid⟩ := (insertNew_fst _ _ _ _).mp hinserted
  exact hfresh hopenid hcuid hccid p (h.valid p ((isUser_iff h).mp hp)) hp

theorem Logged.distinctCuids {quest : LoginQuest}
    (hlogged : Logged m quest.ccid quest.openid quest.name m' msgs) (h : Indexing m S T U)
    (hfresh : FreshCuid m quest) (hcuids : DistinctCuids m) : DistinctCuids m' := by
  -- an old user and the new one differ by `hfresh`; a moved user has its cuid still
  have hold : ∀ p q, IsUser m p → m.getByOpenid quest.openid ≠ some p →
      (q = m.clients.length ∧ (insertNew m quest.ccid quest.openid quest.name).1 = true ∧
          (m'.client q).cuid = m.getClientUniqueId.1) ∨
        (m.getByOpenid quest.openid = some q ∧ (m'.client q).cuid = (m.client q).cuid) →
      (m.client p).cuid ≠ (m'.client q).cuid := by
    rintro p q hp hne (⟨-, hinserted, hcuid⟩ | ⟨hq, hcuid⟩) heq
    · exact hfresh.ne h hinserted hp (heq.trans hcuid)
    · apply hne
      rw [hq, hcuids p q hp (isUser_of_getByOpenid h hq) (heq.trans hcuid)]
  intro p q hp hq heq
  rcases hlogged.user_cases h hp with ⟨hp, hpeq, hpne⟩ | ⟨-, hpopenid, hpnew⟩
  · rcases hlogged.user_cases h hq with ⟨hq, hqeq, -⟩ | ⟨-, -, hqnew⟩
    · rw [hpeq, hqeq] at heq
      exact hcuids p q hp hq heq
    · rw [hpeq] at heq
      exact absurd heq (hold p q hp hpne hqnew)
  · rcases hlogged.user_cases h hq with ⟨hq, hqeq, hqne⟩ | ⟨-, hqopenid, -⟩
    · rw [hqeq] at heq
      exact absurd heq.symm (hold q p hq hqne hpnew)
    · have hsame : m'.getByOpenid quest.openid = some p := by
        rw [← hpopenid]
        exact hp
      rw [IsUser, hqopenid, hsame] at hq
      exact Option.some.inj hq

theorem Logged.keepsOnePlaying {quest : LoginQuest}
    (hlogged : Logged m quest.ccid quest.openid quest.name m' msgs) (h : Indexing m S T U)
    (hfresh : FreshCuid m quest) (hcuids : DistinctCuids m) (hplayed : PlayedByUsers m clients)
    (hone : OnePlaying clients) : Throughout handle OnePlaying msgs clients := by
  cases hlogged with
  | registered hopenid hinserted =>
      refine ⟨hone, hone.handle fun c client client' _ hclient hplays hclient' hcuid => ?_⟩
      obtain ⟨p, hp, -, hpcuid⟩ := hplayed c client hclient hplays
      obtain ⟨old, -, rfl⟩ := Option.map_eq_some_iff.mp hclient'
      exact hfresh.ne h hinserted hp (hpcuid.trans hcuid)
  | refused hopenid hinserted => exact ⟨hone, hone.silenced rfl⟩
  | @replaced user hopenid hinserted =>
      have hreplaced : OnePlaying (Sessions.handle (.clientBeReplaced (m.client user).ccid
          (m.client user).cuid (m.client user).openid) clients) := hone.silenced rfl
      refine ⟨hone, hreplaced, hreplaced.handle
        fun c client client' _ hclient hplays hclient' hcuid => ?_⟩
      obtain ⟨old, -, rfl⟩ := Option.map_eq_some_iff.mp hclient'
      rw [handle_apply] at hclient
      split_ifs at hclient with hc
      · cases hclient
      · obtain ⟨p, hp, hpccid, hpcuid⟩ := hplayed c client hclient hplays
        have hsame := hcuids p user hp (isUser_of_getByOpenid h hopenid) (hpcuid.trans hcuid)
        rw [hsame] at hpccid
        exact hc hpccid.symm
  | @rejected user hopenid hinserted =>
      have hreplaced : OnePlaying (Sessions.handle (.clientBeReplaced (m.client user).ccid
          (m.client user).cuid (m.client user).openid) clients) := hone.silenced rfl
      have hfailed : OnePlaying (Sessions.handle (.retLoginQuest .regFailed quest.ccid
          (m.client user).cuid none) _) := hreplaced.silenced rfl
      exact ⟨hone, hreplaced, hfailed, hfailed.silenced (congrArg (hear _) handle_about)⟩

end Login

section Run

variable {s s' : Session} {act : SessionAct}

/-- No two users have one cuid, only users play, and from here on, whatever the gateway
has heard already, no two clients play under one cuid. -/
structure Played (s : Session) : Prop where
  known : Known s
  cuids : DistinctCuids s.lobby.world.clients
  users : PlayedByUsers s.lobby.world.clients s.settled
  one : Throughout handle OnePlaying s.answers s.clients

theorem played_start (rg : Nat → Dealing.Shuffle) : Played { lobby := LobbyState.start rg } where
  known := known_start rg
  cuids p q hp := absurd hp (by simp [IsUser, ClientManager.getByOpenid, LobbyState.start])
  users c client hclient := by cases hclient
  one c c' client client' hclient := by cases hclient

theorem DistinctCuids.of_sameKeys {m m' : ClientManager} (hkeys : SameKeys m m')
    (h : DistinctCuids m) : DistinctCuids m' := by
  intro p q hp hq hcuid
  rw [hkeys.cuid, hkeys.cuid] at hcuid
  exact h p q ((isUser_sameKeys hkeys).mp hp) ((isUser_sameKeys hkeys).mp hq) hcuid

theorem PlayedByUsers.of_sameKeys {m m' : ClientManager} {clients : Clients}
    (hkeys : SameKeys m m') (h : PlayedByUsers m clients) : PlayedByUsers m' clients := by
  intro c client hclient hplays
  obtain ⟨p, hp, hccid, hcuid⟩ := h c client hclient hplays
  exact ⟨p, (isUser_sameKeys hkeys).mpr hp, by rw [hkeys.ccid, hccid], by rw [hkeys.cuid, hcuid]⟩

theorem Played.quest_step {quest : LoginQuest} {quests : List LoginQuest} (h : Played s)
    (hquests : s.quests = quest :: quests) (hfresh : FreshCuid s.lobby.world.clients quest) :
    Played s.quest := by
  obtain ⟨m, msgs, hquested⟩ := quested hquests
  obtain ⟨S, T, U, hindexing⟩ := h.known.indexed
  constructor
  · exact h.known.quest_step hquests
  · exact (hquested.logged.distinctCuids hindexing hfresh h.cuids).of_sameKeys hquested.keys
  · rw [hquested.settled]
    exact (hquested.logged.playedByUsers hindexing h.users).of_sameKeys hquested.keys
  · rw [hquested.answers, hquested.clients]
    exact h.one.append
      (hquested.logged.keepsOnePlaying hindexing hfresh h.cuids h.users h.one.settled)

theorem throughout_update {msgs : List PrivateMsg} {clients : Clients} {c : Ccid}
    {client : Option Client} (hidle : ∀ client', client = some client' → client'.state ≠ .playing)
    (hunheard : client = none ∨ ∀ msg ∈ msgs, about msg ≠ c)
    (h : Throughout handle OnePlaying msgs clients) :
    Throughout handle OnePlaying msgs (Function.update clients c client) := by
  apply h.related (R := fun clients clients' => clients' c = client ∧
    ∀ c' ≠ c, clients' c' = clients c')
  · rintro clients clients' ⟨hself, hothers⟩ hone
    refine hone.mono fun c' client' hclient' hplays => ?_
    have hc' : c' ≠ c := by
      rintro rfl
      exact hidle client' (hself.symm.trans hclient') hplays
    rw [← hothers c' hc', hclient']
  · rintro msg hmsg clients clients' ⟨hself, hothers⟩
    refine ⟨?_, fun c' hc' => ?_⟩
    · rw [handle_apply, hself]
      rcases hunheard with rfl | hunheard
      · rw [hear_none, ite_self]
      · rw [if_neg (hunheard msg hmsg).symm]
    · rw [handle_apply, handle_apply, hothers c' hc']
  · exact ⟨Function.update_self .., fun c' hc' => Function.update_of_ne hc' ..⟩

theorem PlayedByUsers.update {m : ClientManager} {clients : Clients} {c : Ccid}
    {client : Option Client} (hidle : ∀ client', client = some client' → client'.state ≠ .playing)
    (h : PlayedByUsers m clients) : PlayedByUsers m (Function.update clients c client) := by
  intro c' client' hclient' hplays
  by_cases hc' : c' = c
  · rw [hc', Function.update_self] at hclient'
    exact absurd hplays (hidle client' hclient')
  · rw [Function.update_of_ne hc'] at hclient'
    exact h c' client' hclient' hplays

theorem Played.step (h : Played s) (hallowed : s.Allowed act) (hfree : CuidFree s act) :
    Played (s.step act) := by
  have hknown := h.known.step hallowed
  cases act with
  | clientOnline c =>
      have hunheard : ∀ msg ∈ s.answers, about msg ≠ c := by
        rintro msg hmsg rfl
        exact hallowed (h.known.answers msg hmsg)
      have hidle : ∀ client, some ({} : Client) = some client → client.state ≠ .playing := by
        rintro client ⟨⟩ ⟨⟩
      refine ⟨hknown, h.cuids, ?_, throughout_update hidle (Or.inr hunheard) h.one⟩
      rw [settled_clientOnline hunheard]
      exact h.users.update hidle
  | clientOffline c =>
      have hidle : ∀ client, (none : Option Client) = some client → client.state ≠ .playing := by
        rintro client ⟨⟩
      refine ⟨hknown, h.cuids, ?_, throughout_update hidle (Or.inl rfl) h.one⟩
      rw [settled_clientOffline]
      exact h.users.update hidle
  | cLogin c openid nickName => exact ⟨hknown, h.cuids, h.users, h.one⟩
  | quest =>
      obtain ⟨quest, quests, hquests⟩ := List.exists_cons_of_ne_nil hallowed
      exact h.quest_step hquests (hfree quest (by rw [hquests]; rfl))
  | answer =>
      obtain ⟨msg, answers, hanswers⟩ := List.exists_cons_of_ne_nil hallowed
      have hone := h.one
      rw [hanswers] at hone
      have heq : s.answer = { s with clients := handle msg s.clients, answers := answers } := by
        rw [Session.answer, hanswers]
      have husers := h.users
      rw [← settled_answer] at husers
      rw [heq] at husers
      rw [Session.step, heq]
      exact ⟨heq ▸ hknown, h.cuids, husers, hone.2⟩

theorem Played.reaches (h : loginSystem.Reaches CuidFree s) : Played s := by
  refine h.invariant ?_ fun s act s' hinv hallowed hfree hstep => ?_
  · rintro s ⟨rg, rfl⟩
    exact played_start rg
  · rw [step_eq hstep]
    exact hinv.step hallowed hfree

/-- In every run whose new users draw fresh cuids no two clients play under one cuid. -/
theorem onePlaying (h : loginSystem.Reaches CuidFree s) : OnePlaying s.clients :=
  (Played.reaches h).one.now

instance (s : Session) (act : SessionAct) : Decidable (CuidFree s act) :=
  match act with
  | .quest => inferInstanceAs (Decidable (∀ quest ∈ s.quests.head?,
      _ ∉ _ → _ ∉ _ → _ ∉ _ → ∀ p < s.lobby.world.clients.clients.length, _ → _ ≠ _))
  | .clientOnline _ | .clientOffline _ | .cLogin .. | .answer => .isTrue trivial

instance (s : Session) (act : SessionAct) : Decidable (loginSystem.Allowed s act) :=
  inferInstanceAs (Decidable (s.Allowed act))

def sessions (acts : List SessionAct) : Session :=
  loginSystem.after { lobby := LobbyState.start fun _ => Dealing.Shuffle.id } acts

/-- The user has moved from one connection to another. -/
theorem onePlaying_moved :
    OnePlaying (sessions [.clientOnline 1, .cLogin 1 "a" "", .quest, .answer, .clientOnline 2,
      .cLogin 2 "a" "", .quest, .answer, .answer]).clients :=
  onePlaying (.after (.init ⟨_, rfl⟩) (by decide +kernel))

end Run

section Wrapping

variable {m m' : ClientManager} {ccid : Ccid} {openid name : String} {msgs : List PrivateMsg}
  {s : Session} {n : Nat}

/-- A registration over a new connection gives its cuid away, or takes it from whoever
has it. -/
structure Toggles (m : ClientManager) (ccid : Ccid) (openid : String) (m' : ClientManager) :
    Prop where
  counter : m'.uniqueIdCounter = m.getClientUniqueId.1
  openids : ∀ o ∈ m'.openid2Clients, o = openid ∨ o ∈ m.openid2Clients
  ccids : ∀ c ∈ m'.ccid2Clients, c = ccid ∨ c ∈ m.ccid2Clients
  cuids : ∀ k, k ∈ m'.cuid2Clients ↔
    if k = m.getClientUniqueId.1 then k ∉ m.cuid2Clients else k ∈ m.cuid2Clients

theorem toggles_registered (hinserted : (insertNew m ccid openid name).1 = true) :
    Toggles m ccid openid (insertNew m ccid openid name).2 := by
  have hfree := ((insertNew_fst _ _ _ _).mp hinserted).2.1
  rw [insertNew] at hinserted ⊢
  rw [insert_snd_of_true hinserted, client_self_withNew]
  refine ⟨rfl, fun o ho => ?_, fun c hc => ?_, fun k => ?_⟩
  · exact (Std.TreeMap.mem_insert.mp ho).imp (fun h => (Std.compare_eq_iff_eq.mp h).symm) id
  · exact (Std.TreeMap.mem_insert.mp hc).imp (fun h => (Std.compare_eq_iff_eq.mp h).symm) id
  · change k ∈ m.cuid2Clients.insert m.getClientUniqueId.1 _ ↔ _
    rw [Std.TreeMap.mem_insert, Std.compare_eq_iff_eq]
    split_ifs with hk
    · rw [hk]
      exact iff_of_true (Or.inl rfl) hfree
    · exact or_iff_right fun heq => hk heq.symm

theorem toggles_refused (hopenid : openid ∉ m.openid2Clients) (hccid : ccid ∉ m.ccid2Clients)
    (hinserted : (insertNew m ccid openid name).1 = false) :
    Toggles m ccid openid ((insertNew m ccid openid name).2.erase m.clients.length) := by
  have htaken : m.getClientUniqueId.1 ∈ m.cuid2Clients := by
    by_contra hfree
    rw [(insertNew_fst _ _ _ _).mpr ⟨hopenid, hfree, hccid⟩] at hinserted
    cases hinserted
  have hsnd : (insertNew m ccid openid name).2 =
      { withNew m ccid openid name with openid2Clients := m.openid2Clients.erase openid } := by
    rw [insertNew, ClientManager.insert, client_self_withNew]
    dsimp only
    exact (congrArg Prod.snd ((if_neg hopenid).trans (if_pos htaken)))
  have hself : (insertNew m ccid openid name).2.client m.clients.length =
      newClient m ccid openid name := by
    rw [client_insertNew, if_pos rfl]
  rw [ClientManager.erase, hself, hsnd]
  refine ⟨rfl, fun o ho => ?_, fun c hc => ?_, fun k => ?_⟩
  · exact Or.inr (Std.TreeMap.mem_of_mem_erase (Std.TreeMap.mem_of_mem_erase ho))
  · exact Or.inr (Std.TreeMap.mem_of_mem_erase hc)
  · change k ∈ m.cuid2Clients.erase m.getClientUniqueId.1 ↔ _
    rw [Std.TreeMap.mem_erase, Ne, Std.compare_eq_iff_eq]
    split_ifs with hk
    · rw [hk]
      exact iff_of_false (fun h => h.1 rfl) fun h => h htaken
    · exact and_iff_right fun heq => hk heq.symm

theorem Logged.toggles (hlogged : Logged m ccid openid name m' msgs)
    (hopenid : openid ∉ m.openid2Clients) (hccid : ccid ∉ m.ccid2Clients) :
    Toggles m ccid openid m' := by
  have hunknown := getByOpenid_eq_none.mpr hopenid
  cases hlogged with
  | registered _ hinserted => exact toggles_registered hinserted
  | refused _ hinserted => exact toggles_refused hopenid hccid hinserted
  | replaced hknown => rw [hunknown] at hknown; cases hknown
  | rejected hknown => rw [hunknown] at hknown; cases hknown

theorem Logged.new_about (hlogged : Logged m ccid openid name m' msgs)
    (hopenid : openid ∉ m.openid2Clients) {msg : PrivateMsg} (hmsg : msg ∈ msgs) :
    Sessions.about msg = ccid := by
  rcases hlogged.about hmsg with habout | ⟨client, hclient, -⟩
  · exact habout
  · rw [getByOpenid_eq_none.mpr hopenid] at hclient
    cases hclient

theorem Logged.new_free (hlogged : Logged m ccid openid name m' msgs)
    (hopenid : openid ∉ m.openid2Clients) (hccid : ccid ∉ m.ccid2Clients)
    (hcuid : m.getClientUniqueId.1 ∉ m.cuid2Clients) :
    msgs = [.retLoginQuest .succes ccid m.getClientUniqueId.1 (some openid)] := by
  have hunknown := getByOpenid_eq_none.mpr hopenid
  cases hlogged with
  | registered => rfl
  | refused _ hinserted =>
      rw [(insertNew_fst _ _ _ _).mpr ⟨hopenid, hcuid, hccid⟩] at hinserted
      cases hinserted
  | replaced hknown => rw [hunknown] at hknown; cases hknown
  | rejected hknown => rw [hunknown] at hknown; cases hknown

theorem reaches_step (h : loginSystem.Reaches (fun _ _ => True) s) (act : SessionAct)
    (hallowed : s.Allowed act) : loginSystem.Reaches (fun _ _ => True) (s.step act) :=
  .step h hallowed trivial rfl

/-- The gateway can hear everything before anything else happens. -/
theorem reaches_settled (h : loginSystem.Reaches (fun _ _ => True) s) :
    loginSystem.Reaches (fun _ _ => True) { s with clients := s.settled, answers := [] } := by
  cases s with
  | mk clients seen quests lobby answers =>
      induction answers generalizing clients with
      | nil => exact h
      | cons msg answers ih =>
          exact ih (handle msg clients) (reaches_step h .answer (List.cons_ne_nil msg answers))

theorem exists_login (h : loginSystem.Reaches (fun _ _ => True) s) (hquests : s.quests = [])
    (hanswers : s.answers = []) (hccid : ccid ∉ s.seen) (openid : String) :
    ∃ m msgs s', loginSystem.Reaches (fun _ _ => True) s' ∧
      Logged s.lobby.world.clients ccid openid "" m msgs ∧
        SameKeys m s'.lobby.world.clients ∧
          s'.clients = settle handle msgs (s.clients.clientOnline ccid) ∧
            s'.seen = ccid :: s.seen ∧ s'.quests = [] ∧ s'.answers = [] := by
  have honline := reaches_step h (.clientOnline ccid) hccid
  have hasked := reaches_step honline (.cLogin ccid openid "") List.mem_cons_self
  have hone : ((s.step (.clientOnline ccid)).step (.cLogin ccid openid "")).quests =
      [{ ccid := ccid, openid := openid, name := "" }] := by
    change s.quests ++ (Clients.cLogin (Function.update s.clients ccid (some {})) ccid openid
      "").toList = _
    rw [hquests, cLogin_eq_some.mpr ⟨by rw [Function.update_self]; exact Option.some_ne_none _,
      rfl⟩]
    rfl
  obtain ⟨m, msgs, hquested⟩ := quested hone
  have hanswered := reaches_step hasked .quest (hone.trans_ne (List.cons_ne_nil _ []))
  refine ⟨m, msgs, _, reaches_settled hanswered, hquested.logged, hquested.keys, ?_, hquested.seen,
    hquested.quests, rfl⟩
  refine hquested.settled.trans ?_
  change settle handle msgs (settle handle s.answers (s.clients.clientOnline ccid)) = _
  rw [hanswers, settle_nil]

def openidOf (n : Nat) : String := String.ofList (List.replicate n 'a')

theorem openidOf_injective : Function.Injective openidOf := by
  intro n n' h
  have hlength := congrArg List.length (String.ofList_injective h)
  rwa [List.length_replicate, List.length_replicate] at hlength

/-- As many users have logged in, each over a connection of its own, and the first of them
plays under the cuid 1, which the lobby knows until it is drawn once more. -/
structure LoggedIn (n : Nat) (s : Session) : Prop where
  reached : loginSystem.Reaches (fun _ _ => True) s
  quests : s.quests = []
  answers : s.answers = []
  seen : ∀ c ∈ s.seen, c ≤ n
  openids : ∀ o ∈ s.lobby.world.clients.openid2Clients, ∃ i ≤ n, o = openidOf i
  ccids : ∀ c ∈ s.lobby.world.clients.ccid2Clients, c ≤ n
  counter : s.lobby.world.clients.uniqueIdCounter = n % 2 ^ 32
  cuid : 1 ∈ s.lobby.world.clients.cuid2Clients ↔ 1 ≤ n ∧ n ≤ 2 ^ 32
  first : 1 ≤ n → s.clients 1 = some { cuid := 1, state := .playing }

theorem loggedIn_start :
    LoggedIn 0 { lobby := LobbyState.start fun _ => Dealing.Shuffle.id } where
  reached := .init ⟨_, rfl⟩
  quests := rfl
  answers := rfl
  seen _ hc := absurd hc List.not_mem_nil
  openids _ ho := absurd ho Std.TreeMap.not_mem_emptyc
  ccids _ hc := absurd hc Std.TreeMap.not_mem_emptyc
  counter := rfl
  cuid := iff_of_false Std.TreeMap.not_mem_emptyc fun h => absurd h.1 (Nat.not_succ_le_zero 0)
  first h := absurd h (Nat.not_succ_le_zero 0)

theorem LoggedIn.next (h : LoggedIn n s) :
    ∃ m msgs s', loginSystem.Reaches (fun _ _ => True) s' ∧
      Logged s.lobby.world.clients (n + 1) (openidOf (n + 1)) "" m msgs ∧
        SameKeys m s'.lobby.world.clients ∧
          s'.clients = settle handle msgs (s.clients.clientOnline (n + 1)) ∧
            s'.seen = (n + 1) :: s.seen ∧ s'.quests = [] ∧ s'.answers = [] :=
  exists_login h.reached h.quests h.answers (fun hmem => Nat.not_succ_le_self n (h.seen _ hmem)) _

theorem LoggedIn.openid_free (h : LoggedIn n s) :
    openidOf (n + 1) ∉ s.lobby.world.clients.openid2Clients := by
  intro hmem
  obtain ⟨i, hi, heq⟩ := h.openids _ hmem
  have := openidOf_injective heq
  omega

theorem LoggedIn.ccid_free (h : LoggedIn n s) : n + 1 ∉ s.lobby.world.clients.ccid2Clients :=
  fun hmem => Nat.not_succ_le_self n (h.ccids _ hmem)

theorem LoggedIn.uniqueId (h : LoggedIn n s) :
    s.lobby.world.clients.getClientUniqueId.1 = (n % 2 ^ 32 + 1) % 2 ^ 32 := by
  rw [ClientManager.getClientUniqueId, h.counter]

theorem clients_of_new {msgs : List PrivateMsg} {clients : Clients} {c : Ccid} (hne : c ≠ ccid)
    (habout : ∀ msg ∈ msgs, about msg = ccid) :
    settle handle msgs (clients.clientOnline ccid) c = clients c := by
  rw [settle_of_others fun msg hmsg heq => hne (by rw [← heq, habout msg hmsg])]
  exact Function.update_of_ne hne ..

theorem playing_of_succes (clients : Clients) (ccid : Ccid) (cuid : Cuid) (openid : Option String) :
    settle handle [.retLoginQuest .succes ccid cuid openid] (clients.clientOnline ccid) ccid =
      some { cuid := cuid, state := .playing } := by
  rw [settle_cons, settle_nil]
  have honline : clients.clientOnline ccid ccid = some {} := Function.update_self ..
  refine handle_about.trans ?_
  rw [about, honline]
  rfl

theorem LoggedIn.succ (h : LoggedIn n s) (hn : n < 2 ^ 33) : ∃ s', LoggedIn (n + 1) s' := by
  obtain ⟨m, msgs, s', hreached, hlogged, hkeys, hclients, hseen, hquests, hanswers⟩ := h.next
  have htoggles := hlogged.toggles h.openid_free h.ccid_free
  have huid := h.uniqueId
  refine ⟨s', hreached, hquests, hanswers, ?_, ?_, ?_, ?_, ?_, ?_⟩
  · rw [hseen]
    rintro c (_ | ⟨_, hc⟩)
    · exact Nat.le_refl _
    · exact Nat.le_succ_of_le (h.seen c hc)
  · rw [hkeys.openids]
    intro o ho
    rcases htoggles.openids o ho with rfl | ho
    · exact ⟨n + 1, Nat.le_refl _, rfl⟩
    · obtain ⟨i, hi, heq⟩ := h.openids o ho
      exact ⟨i, Nat.le_succ_of_le hi, heq⟩
  · rw [hkeys.ccids]
    intro c hc
    rcases htoggles.ccids c hc with rfl | hc
    · exact Nat.le_refl _
    · exact Nat.le_succ_of_le (h.ccids c hc)
  · rw [hkeys.counter, htoggles.counter, huid]
    omega
  · rw [hkeys.cuids, htoggles.cuids, huid, h.cuid]
    split_ifs with hone
    · have hdrawn : (1 : Nat) = (n % 2 ^ 32 + 1) % 2 ^ 32 := hone
      omega
    · have hdrawn : ¬ (1 : Nat) = (n % 2 ^ 32 + 1) % 2 ^ 32 := hone
      omega
  · intro _
    rw [hclients]
    rcases Nat.eq_zero_or_pos n with rfl | hpos
    · have hfree : s.lobby.world.clients.getClientUniqueId.1 ∉
          s.lobby.world.clients.cuid2Clients := by
        rw [huid]
        exact fun hmem => absurd (h.cuid.mp hmem).1 (Nat.not_succ_le_zero 0)
      rw [hlogged.new_free h.openid_free h.ccid_free hfree, huid]
      exact playing_of_succes ..
    · have hfirst : (1 : Nat) ≠ n + 1 := by omega
      rw [clients_of_new hfirst fun msg hmsg => hlogged.new_about h.openid_free hmsg]
      exact h.first hpos

theorem exists_loggedIn (hn : n ≤ 2 ^ 33) : ∃ s, LoggedIn n s := by
  induction n with
  | zero => exact ⟨_, loggedIn_start⟩
  | succ n ih =>
      obtain ⟨s, hs⟩ := ih (Nat.le_of_succ_le hn)
      exact hs.succ hn

/-- The counter has come round twice: the second time the cuid 1 was refused and struck
out, and the third time it is given away again while its first user still plays. -/
theorem cuid_given_twice :
    ¬ ∀ s : Session, loginSystem.Reaches (fun _ _ => True) s → OnePlaying s.clients := by
  intro hall
  obtain ⟨s, h⟩ := exists_loggedIn (Nat.le_refl (2 ^ 33))
  obtain ⟨m, msgs, s', hreached, hlogged, -, hclients, -⟩ := h.next
  have huid : s.lobby.world.clients.getClientUniqueId.1 = 1 := h.uniqueId.trans rfl
  have hfree : s.lobby.world.clients.getClientUniqueId.1 ∉
      s.lobby.world.clients.cuid2Clients := by
    rw [huid, h.cuid]
    omega
  have hone := hall s' hreached
  have hfirst : s'.clients 1 = some { cuid := 1, state := .playing } := by
    have hne : (1 : Nat) ≠ 2 ^ 33 + 1 := by omega
    rw [hclients, clients_of_new hne fun msg hmsg => hlogged.new_about h.openid_free hmsg]
    exact h.first (by omega)
  have hlast : s'.clients (2 ^ 33 + 1) = some { cuid := 1, state := .playing } := by
    rw [hclients, hlogged.new_free h.openid_free h.ccid_free hfree, huid]
    exact playing_of_succes ..
  have hsame : (1 : Nat) = 2 ^ 33 + 1 := hone _ _ _ _ hfirst hlast rfl rfl rfl
  omega

end Wrapping

end CasualGame.Sessions
