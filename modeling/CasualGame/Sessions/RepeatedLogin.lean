import CasualGame.Sessions.OneSession

/-!
What becomes of a connection that logs in once, or more than once.
-/

namespace CasualGame.Sessions

open Lobby
open Lobby.Logins
open Lobby.LobbyActs
open Lobby.WorldFrames
open Lib.Run
open Lib.InFlight

/-- How often a connection has logged in, and whether its user drew a cuid that the lobby
had under another user. -/
structure LoginNotes where
  asked : Nat := 0
  taken : Bool := false
  deriving DecidableEq

/-- The quest of the connection registers a new user, whose cuid is taken. -/
def DrawsTaken (c : Ccid) (s : Session) : Prop :=
  ∃ quest ∈ s.quests.head?, quest.ccid = c ∧
    quest.openid ∉ s.lobby.world.clients.openid2Clients ∧
      s.lobby.world.clients.getClientUniqueId.1 ∈ s.lobby.world.clients.cuid2Clients

instance (c : Ccid) (s : Session) : Decidable (DrawsTaken c s) :=
  inferInstanceAs (Decidable (∃ quest ∈ s.quests.head?, _ = _ ∧ _ ∉ _ ∧ _ ∈ _))

def noteLogin (c : Ccid) (s : Session) : SessionAct → LoginNotes → LoginNotes
  | .cLogin ccid _ _, notes => if ccid = c then { notes with asked := notes.asked + 1 } else notes
  | .quest, notes => if DrawsTaken c s then { notes with taken := true } else notes
  | _, notes => notes

/-- The two processes, and the notes on the logins of a connection. -/
def notedSystem (c : Ccid) : System (Session × LoginNotes) SessionAct Empty :=
  loginSystem.chronicle {} fun s act _ notes => noteLogin c s act notes

/-- The connection stays open and logs in as this user only, and no other logs in as this
user. -/
def LogsInAs (c : Ccid) (openid : String) : SessionAct → Prop
  | .clientOffline ccid => ccid ≠ c
  | .cLogin ccid openid' _ => ccid = c ↔ openid' = openid
  | _ => True

/-- The client of the gateway plays under the cuid of the user, and the lobby has the user
under the connection. -/
def StillPlays (s : Session) (c : Ccid) (openid : String) : Prop :=
  ∃ p, s.lobby.world.clients.getByOpenid openid = some p ∧
    s.lobby.world.clients.getByCcid c = some p ∧
      s.clients c = some { cuid := (s.lobby.world.client p).cuid, state := .playing }

section Login

variable {m m' : ClientManager} {S T U : Set ClientPtr} {ccid c : Ccid} {openid name o : String}
  {msgs : List PrivateMsg} {clients : Clients} {p : ClientPtr}

/-- The quests and the users of the connection are those of the openid. -/
structure Exclusive (c : Ccid) (o : String) (s : Session) : Prop where
  quests : ∀ quest ∈ s.quests, quest.ccid = c ↔ quest.openid = o
  users : ∀ p, IsUser s.lobby.world.clients p →
    ((s.lobby.world.clients.client p).ccid = c ↔ (s.lobby.world.clients.client p).openid = o)

theorem Logged.known_kept (hlogged : Logged m ccid openid name m' msgs) (h : Indexing m S T U)
    (hne : o ≠ openid) : m'.getByOpenid o = m.getByOpenid o := by
  obtain ⟨S', T', U', h'⟩ := hlogged.indexed h
  apply Option.ext
  intro p
  constructor
  · intro hp
    have hkey : (m'.client p).openid = o := h'.openids.key_eq hp
    rcases hlogged.user_cases h (isUser_of_getByOpenid h' hp) with ⟨huser, heq, -⟩ | ⟨-, hnew, -⟩
    · rw [heq] at hkey
      rw [← hkey]
      exact huser
    · exact absurd (hkey.symm.trans hnew) hne
  · intro hp
    have hkey : (m.client p).openid = o := h.openids.key_eq hp
    have hother : m.getByOpenid openid ≠ some p :=
      fun hopenid => hne (hkey.symm.trans (h.openids.key_eq hopenid))
    obtain ⟨huser, heq⟩ := hlogged.user_kept h (isUser_of_getByOpenid h hp) hother
    rw [IsUser, heq, hkey] at huser
    exact huser

theorem Logged.byCcid_kept (hlogged : Logged m ccid openid name m' msgs) (h : Indexing m S T U)
    (hp : m.getByCcid c = some p) (hne : c ≠ ccid)
    (hother : ∀ client, m.getByOpenid openid = some client → (m.client client).ccid ≠ c) :
    m'.getByCcid c = some p := by
  have hmem := h.ccids.mem hp
  have hkey : (m.client p).ccid = c := h.ccids.key_eq hp
  obtain ⟨-, heq⟩ := hlogged.user_kept h ((isUser_iff h).mpr (h.ccids_sub hmem))
    fun hopenid => hother p hopenid hkey
  have hindexed : ∃ V, Lib.Index.Indexes m'.ccid2Clients (fun q => (m'.client q).ccid) V ∧
      p ∈ V := by
    cases hlogged with
    | registered hopenid hinserted =>
        exact ⟨_, (h.insertNew_true hinserted).ccids, Set.mem_insert_of_mem _ hmem⟩
    | refused hopenid hinserted =>
        refine ⟨_, (h.registered_false (getByOpenid_eq_none.mp hopenid) hinserted).ccids, hmem, ?_⟩
        rwa [hkey]
    | @replaced client hopenid hinserted =>
        have hrelogged := h.relogged (h.openids.mem hopenid) ccid
        rw [if_pos hinserted] at hrelogged
        refine ⟨_, hrelogged.ccids, Set.mem_insert_of_mem _ ⟨hmem, fun hsame => ?_⟩⟩
        exact hother client hopenid (hsame.symm.trans hkey)
    | @rejected client hopenid hinserted =>
        have hrelogged := h.relogged (h.openids.mem hopenid) ccid
        rw [if_neg (by rw [hinserted]; exact Bool.false_ne_true)] at hrelogged
        refine ⟨_, hrelogged.ccids, hmem, fun hsame => ?_⟩
        exact hother client hopenid (hsame.symm.trans hkey)
  obtain ⟨V, hV, hpV⟩ := hindexed
  refine (hV c p).mpr ⟨hpV, ?_⟩
  change (m'.client p).ccid = c
  rw [heq, hkey]

theorem Logged.settled_again (hlogged : Logged m ccid openid name m' msgs)
    (hp : m.getByOpenid openid = some p) (hccid : (m.client p).ccid = ccid) :
    settle handle msgs clients ccid = none := by
  cases hlogged with
  | registered hopenid | refused hopenid =>
      rw [hp] at hopenid
      cases hopenid
  | @replaced client hopenid hinserted =>
      rw [hp, Option.some.injEq] at hopenid
      rw [← hopenid, settle_cons, settle_cons, settle_nil]
      refine handle_about.trans ?_
      refine (congrArg (hear _) ((handle_apply ..).trans (if_pos hccid.symm))).trans ?_
      exact hear_none _
  | @rejected client hopenid hinserted =>
      rw [settle_cons, settle_cons, settle_cons, settle_nil]
      exact handle_about.trans (congrArg (hear _) handle_about)

end Login

section Stages

variable {c : Ccid} {o : String} {s s' : Session} {act : SessionAct} {notes : LoginNotes}

def pending (c : Ccid) (s : Session) : Nat := s.quests.countP fun quest => quest.ccid = c

/-- The client of the connection is gone, or the quests that are left to work off will see
to it. -/
def Doomed (c : Ccid) (o : String) (s : Session) : Prop :=
  s.settled c = none ∨ 2 ≤ pending c s ∨
    (1 ≤ pending c s ∧ s.lobby.world.clients.getByOpenid o ≠ none)

/-- How far the connection has come with its logins. -/
inductive Stage (c : Ccid) (o : String) (s : Session) : LoginNotes → Prop
  | fresh (hpending : pending c s = 0) (hunknown : s.lobby.world.clients.getByOpenid o = none)
      (honline : c ∈ s.seen → s.settled c ≠ none) : Stage c o s ⟨0, false⟩
  | waiting (hseen : c ∈ s.seen) (hpending : pending c s = 1)
      (hunknown : s.lobby.world.clients.getByOpenid o = none) (honline : s.settled c ≠ none) :
      Stage c o s ⟨1, false⟩
  | playing {p : ClientPtr} (hseen : c ∈ s.seen) (hpending : pending c s = 0)
      (hknown : s.lobby.world.clients.getByOpenid o = some p)
      (hccid : s.lobby.world.clients.getByCcid c = some p)
      (hplays : s.settled c =
        some { cuid := (s.lobby.world.client p).cuid, state := .playing }) : Stage c o s ⟨1, false⟩
  | doomed {asked : Nat} {taken : Bool} (hseen : c ∈ s.seen)
      (hasked : 2 ≤ asked ∨ taken = true) (hdoomed : Doomed c o s) : Stage c o s ⟨asked, taken⟩

theorem Doomed.mono (h : Doomed c o s) (hgone : s.settled c = none → s'.settled c = none)
    (hpending : pending c s ≤ pending c s')
    (hknown : s.lobby.world.clients.getByOpenid o ≠ none →
      s'.lobby.world.clients.getByOpenid o ≠ none) : Doomed c o s' := by
  rcases h with hsettled | htwo | ⟨hone, hregistered⟩
  · exact Or.inl (hgone hsettled)
  · exact Or.inr (Or.inl (htwo.trans hpending))
  · exact Or.inr (Or.inr ⟨hone.trans hpending, hknown hregistered⟩)

theorem settled_eq_none (h : s.clients c = none) : s.settled c = none := by
  rw [Session.settled, settle_apply, h, hearAll_none]

theorem Stage.of_same (h : Stage c o s notes) (hseen : c ∈ s'.seen ↔ c ∈ s.seen)
    (hpending : pending c s' = pending c s)
    (hknown : s'.lobby.world.clients.getByOpenid o = s.lobby.world.clients.getByOpenid o)
    (hkept : ∀ p, s.lobby.world.clients.getByOpenid o = some p →
      s.lobby.world.clients.getByCcid c = some p →
        s'.lobby.world.clients.getByCcid c = some p ∧
          (s'.lobby.world.client p).cuid = (s.lobby.world.client p).cuid)
    (hsettled : s'.settled c = s.settled c) : Stage c o s' notes := by
  cases h with
  | fresh hnone hunknown honline =>
      refine .fresh (hpending.trans hnone) (hknown.trans hunknown) fun hmem => ?_
      rw [hsettled]
      exact honline (hseen.mp hmem)
  | waiting hmem hone hunknown honline =>
      exact .waiting (hseen.mpr hmem) (hpending.trans hone) (hknown.trans hunknown)
        (by rwa [hsettled])
  | @playing p hmem hnone hp hccid hplays =>
      obtain ⟨hccid', hcuid⟩ := hkept p hp hccid
      refine .playing (hseen.mpr hmem) (hpending.trans hnone) (hknown.trans hp) hccid' ?_
      rw [hsettled, hcuid, hplays]
  | doomed hmem hasked hdoomed =>
      refine .doomed (hseen.mpr hmem) hasked (hdoomed.mono ?_ hpending.ge ?_)
      · intro hnone
        rw [hsettled, hnone]
      · intro hne
        rwa [hknown]

theorem pending_cLogin {ccid : Ccid} {openid nickName : String} :
    pending c (s.step (.cLogin ccid openid nickName)) =
      pending c s + if ccid = c ∧ s.clients ccid ≠ none then 1 else 0 := by
  change (s.quests ++ (s.clients.cLogin ccid openid nickName).toList).countP _ = _
  rw [List.countP_append, pending, Clients.cLogin]
  congr 1
  cases s.clients ccid with
  | none => simp
  | some client => simp [List.countP_cons]

theorem Stage.cLogin_step {ccid : Ccid} {openid nickName : String} (h : Stage c o s notes)
    (hallowed : ccid ∈ s.seen) :
    Stage c o (s.step (.cLogin ccid openid nickName))
      (noteLogin c s (.cLogin ccid openid nickName) notes) := by
  rw [noteLogin]
  split_ifs with hc
  · subst hc
    have honline : s.settled ccid ≠ none → pending ccid (s.step (.cLogin ccid openid nickName)) =
        pending ccid s + 1 := by
      intro hsettled
      rw [pending_cLogin, if_pos ⟨rfl, mt settled_eq_none hsettled⟩]
    cases h with
    | fresh hnone hunknown hclient =>
        refine .waiting hallowed ?_ hunknown (hclient hallowed)
        rw [honline (hclient hallowed), hnone]
    | waiting hseen hone hunknown hclient =>
        refine .doomed hseen (Or.inl (by decide)) (Or.inr (Or.inl ?_))
        rw [honline hclient, hone]
    | @playing p hseen hnone hknown hccid hplays =>
        refine .doomed hseen (Or.inl (by decide)) (Or.inr (Or.inr ⟨?_, ?_⟩))
        · rw [honline (by rw [hplays]; exact Option.some_ne_none _), hnone]
        · change s.lobby.world.clients.getByOpenid o ≠ none
          rw [hknown]
          exact Option.some_ne_none p
    | doomed hseen hasked hdoomed =>
        refine .doomed hseen (hasked.imp (fun h => Nat.le_succ_of_le h) id) ?_
        refine hdoomed.mono id ?_ id
        rw [pending_cLogin]
        exact Nat.le_add_right ..
  · refine h.of_same Iff.rfl ?_ rfl (fun p _ hccid => ⟨hccid, rfl⟩) rfl
    rw [pending_cLogin, if_neg fun h => hc h.1, Nat.add_zero]

theorem pending_quested {quest : LoginQuest} {quests : List LoginQuest} {m : ClientManager}
    {msgs : List PrivateMsg} (hquests : s.quests = quest :: quests)
    (hquested : Quested s quest quests m msgs s') :
    pending c s = pending c s' + if quest.ccid = c then 1 else 0 := by
  rw [pending, pending, hquests, hquested.quests, List.countP_cons]
  simp only [decide_eq_true_eq]

theorem Stage.other_quest {quest : LoginQuest} {quests : List LoginQuest} {m : ClientManager}
    {msgs : List PrivateMsg} (h : Stage c o s notes) (hexclusive : Exclusive c o s)
    (hindexed : Indexed s.lobby) (hquests : s.quests = quest :: quests)
    (hquested : Quested s quest quests m msgs s') (hc : quest.ccid ≠ c) : Stage c o s' notes := by
  obtain ⟨S, T, U, hindexing⟩ := hindexed
  have hopenid : o ≠ quest.openid := by
    have hiff := hexclusive.quests quest (by rw [hquests]; exact List.mem_cons_self)
    exact fun heq => hc (hiff.mpr heq.symm)
  -- the user of the quest has another connection than `c`
  have hother : ∀ client, s.lobby.world.clients.getByOpenid quest.openid = some client →
      (s.lobby.world.clients.client client).ccid ≠ c := by
    intro client hclient hccid
    have hkey := (hexclusive.users client (isUser_of_getByOpenid hindexing hclient)).mp hccid
    exact hopenid (hkey.symm.trans (hindexing.openids.key_eq hclient))
  refine h.of_same (by rw [hquested.seen]) ?_ ?_ ?_ ?_
  · rw [pending_quested hquests hquested, if_neg hc, Nat.add_zero]
  · rw [← hquested.logged.known_kept hindexing hopenid, ClientManager.getByOpenid,
      ClientManager.getByOpenid, hquested.keys.openids]
  · intro p hp hccid
    constructor
    · rw [ClientManager.getByCcid, hquested.keys.ccids]
      exact hquested.logged.byCcid_kept hindexing hccid hc.symm hother
    · have hne : s.lobby.world.clients.getByOpenid quest.openid ≠ some p := fun hquest =>
        hother p hquest (hindexing.ccids.key_eq hccid)
      refine (hquested.keys.cuid p).trans ?_
      rw [(hquested.logged.user_kept hindexing (isUser_of_getByOpenid hindexing hp) hne).2]
      rfl
  · rw [hquested.settled]
    refine settle_of_others fun msg hmsg habout => ?_
    rcases hquested.logged.about hmsg with heq | ⟨client, hclient, heq⟩
    · exact hc (heq.symm.trans habout)
    · exact hother client hclient (heq.symm.trans habout)

theorem drawsTaken_iff {quest : LoginQuest} {quests : List LoginQuest}
    (hquests : s.quests = quest :: quests) (hc : quest.ccid = c) :
    DrawsTaken c s ↔ quest.openid ∉ s.lobby.world.clients.openid2Clients ∧
      s.lobby.world.clients.getClientUniqueId.1 ∈ s.lobby.world.clients.cuid2Clients := by
  rw [DrawsTaken, hquests]
  constructor
  · rintro ⟨quest', ⟨⟩, -, htaken⟩
    exact htaken
  · intro htaken
    exact ⟨quest, rfl, hc, htaken⟩

theorem Stage.first_quest {quest : LoginQuest} {quests : List LoginQuest} {m : ClientManager}
    {msgs : List PrivateMsg} (hindexed : Indexed s.lobby) (hquests : s.quests = quest :: quests)
    (hquested : Quested s quest quests m msgs s') (hccid : quest.ccid = c)
    (hopenid : quest.openid = o) (hseen : c ∈ s.seen) (hone : pending c s = 1)
    (hunknown : s.lobby.world.clients.getByOpenid o = none)
    (hfree : c ∉ s.lobby.world.clients.ccid2Clients) (honline : s.settled c ≠ none) :
    Stage c o s' (noteLogin c s .quest ⟨1, false⟩) := by
  obtain ⟨S, T, U, hindexing⟩ := hindexed
  have hseen' : c ∈ s'.seen := by rwa [hquested.seen]
  have hnone : pending c s' = 0 := by
    have hcount := pending_quested (c := c) hquests hquested
    rw [hone, if_pos hccid] at hcount
    omega
  have hdraws := drawsTaken_iff hquests hccid
  have hnew := getByOpenid_eq_none.mp hunknown
  have hsettled := hquested.settled
  have hkeys := hquested.keys
  subst hccid hopenid
  rw [noteLogin]
  cases hquested.logged with
  | registered _ hinserted =>
      have hregistered := hindexing.insertNew_true hinserted
      have hself : (insertNew s.lobby.world.clients quest.ccid quest.openid quest.name).2.client
          s.lobby.world.clients.clients.length =
            newClient s.lobby.world.clients quest.ccid quest.openid quest.name := by
        rw [client_insertNew, if_pos rfl]
      rw [if_neg fun h => ((insertNew_fst _ _ _ _).mp hinserted).2.1 (hdraws.mp h).2]
      refine .playing (p := s.lobby.world.clients.clients.length) hseen' hnone ?_ ?_ ?_
      · rw [ClientManager.getByOpenid, hkeys.openids]
        exact (hregistered.openids _ _).mpr ⟨Set.mem_insert _ _, congrArg Client.openid hself⟩
      · rw [ClientManager.getByCcid, hkeys.ccids]
        exact (hregistered.ccids _ _).mpr ⟨Set.mem_insert _ _, congrArg Client.ccid hself⟩
      · obtain ⟨client, hclient⟩ := Option.ne_none_iff_exists'.mp honline
        have hcuid : (s'.lobby.world.client s.lobby.world.clients.clients.length).cuid =
            s.lobby.world.clients.getClientUniqueId.1 := by
          refine (hkeys.cuid _).trans ?_
          rw [hself]
          rfl
        rw [hsettled, hcuid, settle_cons, settle_nil]
        refine handle_about.trans ?_
        rw [about, hclient]
        rfl
  | refused _ hinserted =>
      have htaken : s.lobby.world.clients.getClientUniqueId.1 ∈
          s.lobby.world.clients.cuid2Clients := by
        by_contra hcuid
        rw [(insertNew_fst _ _ _ _).mpr ⟨hnew, hcuid, hfree⟩] at hinserted
        cases hinserted
      rw [if_pos (hdraws.mpr ⟨hnew, htaken⟩)]
      refine .doomed hseen' (Or.inr rfl) (Or.inl ?_)
      rw [hsettled, settle_cons, settle_nil]
      exact handle_about
  | replaced hknown => rw [hunknown] at hknown; cases hknown
  | rejected hknown => rw [hunknown] at hknown; cases hknown

theorem Doomed.own_quest {quest : LoginQuest} {quests : List LoginQuest} {m : ClientManager}
    {msgs : List PrivateMsg} (h : Doomed c o s) (hexclusive : Exclusive c o s)
    (hindexed : Indexed s.lobby) (hquests : s.quests = quest :: quests)
    (hquested : Quested s quest quests m msgs s') (hccid : quest.ccid = c)
    (hopenid : quest.openid = o) : Doomed c o s' := by
  obtain ⟨S, T, U, hindexing⟩ := hindexed
  have hcount := pending_quested (c := c) hquests hquested
  rw [if_pos hccid] at hcount
  have hsettled := hquested.settled
  have hkeys := hquested.keys
  subst hccid hopenid
  cases hknown : s.lobby.world.clients.getByOpenid quest.openid with
  | some p =>
      have hkey := (hexclusive.users p (isUser_of_getByOpenid hindexing hknown)).mpr
        (hindexing.openids.key_eq hknown)
      refine Or.inl ?_
      rw [hsettled]
      exact hquested.logged.settled_again hknown hkey
  | none =>
      rcases h with hnone | htwo | ⟨-, hne⟩
      · refine Or.inl ?_
        rw [hsettled, settle_apply, hnone, hearAll_none]
      · cases hquested.logged with
        | registered _ hinserted =>
            refine Or.inr (Or.inr ⟨by omega, ?_⟩)
            have hregistered := (hindexing.insertNew_true hinserted).openids.getElem?
              (Set.mem_insert _ _)
            rw [client_insertNew, if_pos rfl] at hregistered
            rw [ClientManager.getByOpenid, hkeys.openids]
            exact ne_of_eq_of_ne hregistered (Option.some_ne_none _)
        | refused =>
            refine Or.inl ?_
            rw [hsettled, settle_cons, settle_nil]
            exact handle_about
        | replaced hsome => rw [hknown] at hsome; cases hsome
        | rejected hsome => rw [hknown] at hsome; cases hsome
      · exact absurd hknown hne

theorem Stage.quest_step {quest : LoginQuest} {quests : List LoginQuest}
    (h : Stage c o s notes) (hexclusive : Exclusive c o s) (hindexed : Indexed s.lobby)
    (hquests : s.quests = quest :: quests) : Stage c o s.quest (noteLogin c s .quest notes) := by
  obtain ⟨m, msgs, hquested⟩ := quested hquests
  have hiff := hexclusive.quests quest (by rw [hquests]; exact List.mem_cons_self)
  by_cases hc : quest.ccid = c
  · have hcount := pending_quested (c := c) hquests hquested
    rw [if_pos hc] at hcount
    cases h with
    | fresh hnone => omega
    | waiting hseen hone hunknown honline =>
        refine .first_quest hindexed hquests hquested hc (hiff.mp hc) hseen hone hunknown ?_ honline
        obtain ⟨S, T, U, hindexing⟩ := hindexed
        rw [hindexing.ccids.mem_iff]
        rintro ⟨p, hp, hccid⟩
        have huser := (isUser_iff hindexing).mpr (hindexing.ccids_sub hp)
        rw [IsUser, (hexclusive.users p huser).mp hccid, hunknown] at huser
        cases huser
    | playing _ hnone => omega
    | doomed hseen hasked hdoomed =>
        have hdoomed' := hdoomed.own_quest hexclusive hindexed hquests hquested hc (hiff.mp hc)
        rw [← hquested.seen] at hseen
        rw [noteLogin]
        split_ifs
        · exact .doomed hseen (Or.inr rfl) hdoomed'
        · exact .doomed hseen hasked hdoomed'
  · have hdraws : ¬ DrawsTaken c s := by
      rintro ⟨quest', hquest', hccid, -⟩
      rw [hquests] at hquest'
      cases hquest'
      exact hc hccid
    rw [noteLogin, if_neg hdraws]
    exact h.other_quest hexclusive hindexed hquests hquested hc

end Stages

section Run

variable {c : Ccid} {o : String} {s : Session} {act : SessionAct} {notes : LoginNotes}

theorem Exclusive.quest_step {quest : LoginQuest} {quests : List LoginQuest}
    (h : Exclusive c o s) (hindexed : Indexed s.lobby) (hquests : s.quests = quest :: quests) :
    Exclusive c o s.quest := by
  obtain ⟨m, msgs, hquested⟩ := quested hquests
  obtain ⟨S, T, U, hindexing⟩ := hindexed
  constructor
  · intro quest' hquest'
    rw [hquested.quests] at hquest'
    exact h.quests quest' (by rw [hquests]; exact List.mem_cons_of_mem quest hquest')
  · intro p hp
    rw [hquested.keys.ccid, hquested.keys.openid]
    rw [isUser_sameKeys hquested.keys] at hp
    rcases hquested.logged.user_cases hindexing hp with ⟨hp, heq, -⟩ | ⟨hccid, hopenid, -⟩
    · rw [heq]
      exact h.users p hp
    · rw [hccid, hopenid]
      exact h.quests quest (by rw [hquests]; exact List.mem_cons_self)

theorem Exclusive.step (h : Exclusive c o s) (hindexed : Indexed s.lobby)
    (hallowed : s.Allowed act) (hlogs : LogsInAs c o act) : Exclusive c o (s.step act) := by
  cases act with
  | clientOnline | clientOffline => exact ⟨h.quests, h.users⟩
  | cLogin ccid openid nickName =>
      refine ⟨fun quest hquest => ?_, h.users⟩
      rcases mem_quests_cLogin.mp hquest with hquest | ⟨-, rfl⟩
      · exact h.quests quest hquest
      · exact hlogs
  | quest =>
      obtain ⟨quest, quests, hquests⟩ := List.exists_cons_of_ne_nil hallowed
      exact h.quest_step hindexed hquests
  | answer =>
      change Exclusive c o s.answer
      rw [Session.answer]
      split
      · exact h
      · exact ⟨h.quests, h.users⟩

theorem Stage.step (h : Stage c o s notes) (hknown : Known s) (hexclusive : Exclusive c o s)
    (hallowed : s.Allowed act) (hlogs : LogsInAs c o act) :
    Stage c o (s.step act) (noteLogin c s act notes) := by
  cases act with
  | clientOnline ccid =>
      have hunheard : ∀ msg ∈ s.answers, about msg ≠ ccid := by
        rintro msg hmsg rfl
        exact hallowed (hknown.answers msg hmsg)
      have hsettled := settled_clientOnline hunheard
      by_cases hc : ccid = c
      · subst hc
        cases h with
        | fresh hnone hunknown =>
            refine .fresh hnone hunknown fun _ => ?_
            rw [hsettled, Function.update_self]
            exact Option.some_ne_none _
        | waiting hseen | playing hseen | doomed hseen => exact absurd hseen hallowed
      · refine h.of_same ?_ rfl rfl (fun p _ hccid => ⟨hccid, rfl⟩) ?_
        · exact List.mem_cons.trans (or_iff_right (Ne.symm hc))
        · rw [hsettled, Function.update_of_ne (Ne.symm hc)]
  | clientOffline ccid =>
      refine h.of_same Iff.rfl rfl rfl (fun p _ hccid => ⟨hccid, rfl⟩) ?_
      rw [settled_clientOffline, Function.update_of_ne (Ne.symm hlogs)]
  | cLogin ccid openid nickName => exact h.cLogin_step hallowed
  | quest =>
      obtain ⟨quest, quests, hquests⟩ := List.exists_cons_of_ne_nil hallowed
      exact h.quest_step hexclusive hknown.indexed hquests
  | answer =>
      have hsettled := congrFun (settled_answer s) c
      change Stage c o s.answer notes
      have hsame : s.answer.lobby = s.lobby ∧ s.answer.quests = s.quests ∧
          s.answer.seen = s.seen := by
        rw [Session.answer]
        split
        · exact ⟨rfl, rfl, rfl⟩
        · exact ⟨rfl, rfl, rfl⟩
      obtain ⟨hlobby, hquests, hseen⟩ := hsame
      refine h.of_same (by rw [hseen]) (by rw [pending, hquests, pending]) (by rw [hlobby]) ?_
        hsettled
      rw [hlobby]
      exact fun p _ hccid => ⟨hccid, rfl⟩

structure Followed (c : Ccid) (o : String) (run : Session × LoginNotes) : Prop where
  known : Known run.1
  exclusive : Exclusive c o run.1
  stage : Stage c o run.1 run.2

theorem followed_start (rg : Nat → Dealing.Shuffle) :
    Followed c o ({ lobby := LobbyState.start rg }, {}) where
  known := known_start rg
  exclusive := by
    refine ⟨fun quest hquest => absurd hquest List.not_mem_nil, fun p hp => ?_⟩
    exact absurd hp (by simp [IsUser, ClientManager.getByOpenid, LobbyState.start])
  stage := .fresh rfl (by simp [ClientManager.getByOpenid, LobbyState.start])
    fun hseen => absurd hseen List.not_mem_nil

theorem Followed.reaches {run : Session × LoginNotes}
    (h : (notedSystem c).Reaches (fun _ act => LogsInAs c o act) run) : Followed c o run := by
  refine h.invariant ?_ fun run act run' hinv hallowed hlogs hstep => ?_
  · rintro ⟨s, notes⟩ ⟨⟨rg, rfl⟩, rfl⟩
    exact followed_start rg
  · obtain ⟨hsession, hnotes⟩ := System.chronicle_step.mp hstep
    constructor
    · rw [step_eq hsession]
      exact hinv.known.step hallowed
    · rw [step_eq hsession]
      exact hinv.exclusive.step hinv.known.indexed hallowed hlogs
    · rw [hnotes, step_eq hsession]
      exact hinv.stage.step hinv.known hinv.exclusive hallowed hlogs

/-- Once everything is delivered a connection that has logged in plays exactly when it has
logged in once, and its user drew a cuid of its own. -/
theorem stillPlays_iff {s : Session} {notes : LoginNotes}
    (h : (notedSystem c).Reaches (fun _ act => LogsInAs c o act) (s, notes))
    (hasked : 1 ≤ notes.asked) (hquests : s.quests = []) (hanswers : s.answers = []) :
    StillPlays s c o ↔ notes.asked = 1 ∧ notes.taken = false := by
  have hstage := (Followed.reaches h).stage
  have hsettled : s.settled = s.clients := by
    rw [Session.settled, hanswers]
    rfl
  have hpending : pending c s = 0 := by
    rw [pending, hquests]
    rfl
  dsimp only at hstage
  cases hstage with
  | fresh => exact absurd hasked (Nat.not_succ_le_zero 0)
  | waiting _ hone =>
      rw [hpending] at hone
      cases hone
  | @playing p _ _ hknown hccid hplays =>
      rw [hsettled] at hplays
      exact iff_of_true ⟨p, hknown, hccid, hplays⟩ ⟨rfl, rfl⟩
  | doomed _ hmore hdoomed =>
      refine iff_of_false ?_ ?_
      · rintro ⟨p, -, -, hplays⟩
        rw [Doomed, hsettled, hpending] at hdoomed
        rcases hdoomed with hnone | htwo | ⟨hone, -⟩
        · rw [hnone] at hplays
          cases hplays
        · omega
        · omega
      · rintro ⟨hone, hfree⟩
        rcases hmore with htwo | htaken
        · dsimp only at hone
          omega
        · rw [htaken] at hfree
          cases hfree

instance (c : Ccid) (o : String) (act : SessionAct) : Decidable (LogsInAs c o act) :=
  match act with
  | .clientOffline ccid => inferInstanceAs (Decidable (ccid ≠ c))
  | .cLogin ccid openid _ => inferInstanceAs (Decidable (ccid = c ↔ openid = o))
  | .clientOnline _ | .quest | .answer => .isTrue trivial

instance (c : Ccid) (run : Session × LoginNotes) (act : SessionAct) :
    Decidable ((notedSystem c).Allowed run act) :=
  inferInstanceAs (Decidable (run.1.Allowed act))

def notedSessions (c : Ccid) (acts : List SessionAct) : Session × LoginNotes :=
  (notedSystem c).after ({ lobby := LobbyState.start fun _ => Dealing.Shuffle.id }, {}) acts

theorem notedSessions_reaches {acts : List SessionAct}
    (h : (notedSystem c).Fits (fun _ act => LogsInAs c o act)
      ({ lobby := LobbyState.start fun _ => Dealing.Shuffle.id }, {}) acts) :
    (notedSystem c).Reaches (fun _ act => LogsInAs c o act) (notedSessions c acts) :=
  .after (.init ⟨⟨_, rfl⟩, rfl⟩) h

theorem stillPlays_iff_once :
    StillPlays (notedSessions 1 [.clientOnline 1, .cLogin 1 "a" "", .quest, .answer]).1 1 "a" ↔
      (notedSessions 1 [.clientOnline 1, .cLogin 1 "a" "", .quest, .answer]).2.asked = 1 ∧
        (notedSessions 1 [.clientOnline 1, .cLogin 1 "a" "", .quest, .answer]).2.taken = false :=
  stillPlays_iff (notedSessions_reaches (by decide +kernel)) (by decide +kernel)
    (by decide +kernel) (by decide +kernel)

def loginTwice : List SessionAct :=
  [.clientOnline 1, .cLogin 1 "a" "", .cLogin 1 "a" "", .quest, .quest, .answer, .answer, .answer]

/-- Who logs in twice over one connection is replaced by itself. -/
theorem second_login_evicts :
    ¬ ∀ (c : Ccid) (o : String) (s : Session) (notes : LoginNotes),
      (notedSystem c).Reaches (fun _ act => LogsInAs c o act) (s, notes) → 1 ≤ notes.asked →
        s.quests = [] → s.answers = [] → StillPlays s c o := by
  intro hall
  have hreached : (notedSystem 1).Reaches (fun _ act => LogsInAs 1 "a" act)
      (notedSessions 1 loginTwice) := notedSessions_reaches (by decide +kernel)
  have hkept := hall 1 "a" (notedSessions 1 loginTwice).1 (notedSessions 1 loginTwice).2 hreached
    (by decide +kernel) (by decide +kernel) (by decide +kernel)
  have hgone : (notedSessions 1 loginTwice).1.clients 1 = none := by
    decide +kernel
  obtain ⟨p, -, -, hplays⟩ := hkept
  rw [hgone] at hplays
  cases hplays

end Run

end CasualGame.Sessions
