import CasualGame.Sessions.LoginProtocol

/-!
The users that the lobby knows, what a login does to them, and which ids of connections
can be on the way.
-/

namespace CasualGame.Sessions

open Lobby
open Lobby.Logins
open Lobby.LobbyActs
open Lobby.WorldFrames
open Lib.Run
open Lib.InFlight

/-- The client of an openid. -/
def IsUser (m : ClientManager) (p : ClientPtr) : Prop :=
  m.getByOpenid (m.client p).openid = some p

section Users

variable {m m' : ClientManager} {S T U : Set ClientPtr} {p client : ClientPtr} {ccid : Ccid}
  {openid name : String} {msgs : List PrivateMsg}

theorem isUser_iff (h : Indexing m S T U) : IsUser m p ↔ p ∈ S :=
  (h.openids _ p).trans (and_iff_left rfl)

theorem isUser_of_getByOpenid (h : Indexing m S T U) (hopenid : m.getByOpenid openid = some p) :
    IsUser m p :=
  (isUser_iff h).mpr (h.openids.mem hopenid)

theorem isUser_sameKeys (hkeys : SameKeys m m') : IsUser m' p ↔ IsUser m p := by
  rw [IsUser, IsUser, ClientManager.getByOpenid, ClientManager.getByOpenid, hkeys.openids,
    hkeys.openid]

theorem isUser_registered (h : Indexing m S T U)
    (hinserted : (insertNew m ccid openid name).1 = true) :
    IsUser (insertNew m ccid openid name).2 p ↔ p = m.clients.length ∨ IsUser m p := by
  rw [isUser_iff (h.insertNew_true hinserted), isUser_iff h, Set.mem_insert_iff]

theorem isUser_refused (h : Indexing m S T U) (hopenid : m.getByOpenid openid = none)
    (hinserted : (insertNew m ccid openid name).1 = false) :
    IsUser ((insertNew m ccid openid name).2.erase m.clients.length) p ↔ IsUser m p := by
  rw [isUser_iff (h.registered_false (getByOpenid_eq_none.mp hopenid) hinserted), isUser_iff h]

theorem isUser_replaced (h : Indexing m S T U) (hopenid : m.getByOpenid openid = some client)
    (hinserted : ((moved m client ccid).insert client).1 = true) :
    IsUser ((moved m client ccid).insert client).2 p ↔ IsUser m p := by
  have hrelogged := h.relogged (h.openids.mem hopenid) ccid
  rw [if_pos hinserted] at hrelogged
  rw [isUser_iff hrelogged, isUser_iff h, insert_diff_self (h.openids.mem hopenid)]

theorem isUser_rejected (h : Indexing m S T U) (hopenid : m.getByOpenid openid = some client)
    (hinserted : ((moved m client ccid).insert client).1 = false) :
    IsUser ((moved m client ccid).insert client).2 p ↔ IsUser m p ∧ p ≠ client := by
  have hrelogged := h.relogged (h.openids.mem hopenid) ccid
  rw [if_neg (by rw [hinserted]; exact Bool.false_ne_true)] at hrelogged
  rw [isUser_iff hrelogged, isUser_iff h]
  rfl

theorem client_insertNew_user (h : Indexing m S T U) (hp : IsUser m p) :
    (insertNew m ccid openid name).2.client p = m.client p := by
  rw [client_insertNew, if_neg (h.valid p ((isUser_iff h).mp hp)).ne]

theorem client_moved_other (hne : p ≠ client) :
    ((moved m client ccid).insert client).2.client p = m.client p := by
  rw [client_insert_moved, if_neg fun h => hne h.1]

theorem client_moved_self (h : Indexing m S T U) (hp : IsUser m client) :
    ((moved m client ccid).insert client).2.client client =
      { m.client client with ccid := ccid } := by
  rw [client_insert_moved, if_pos ⟨rfl, h.valid client ((isUser_iff h).mp hp)⟩]

theorem Logged.user_cases (hlogged : Logged m ccid openid name m' msgs) (h : Indexing m S T U)
    (hp : IsUser m' p) :
    (IsUser m p ∧ m'.client p = m.client p ∧ m.getByOpenid openid ≠ some p) ∨
      ((m'.client p).ccid = ccid ∧ (m'.client p).openid = openid ∧
        ((p = m.clients.length ∧ (insertNew m ccid openid name).1 = true ∧
            (m'.client p).cuid = m.getClientUniqueId.1) ∨
          (m.getByOpenid openid = some p ∧ (m'.client p).cuid = (m.client p).cuid))) := by
  cases hlogged with
  | registered hopenid hinserted =>
      rcases (isUser_registered h hinserted).mp hp with rfl | hp
      · rw [client_insertNew, if_pos rfl]
        exact Or.inr ⟨rfl, rfl, Or.inl ⟨rfl, hinserted, rfl⟩⟩
      · refine Or.inl ⟨hp, client_insertNew_user h hp, ?_⟩
        rw [hopenid]
        exact (Option.some_ne_none p).symm
  | refused hopenid hinserted =>
      have huser := (isUser_refused h hopenid hinserted).mp hp
      refine Or.inl ⟨huser, client_insertNew_user h huser, ?_⟩
      rw [hopenid]
      exact (Option.some_ne_none p).symm
  | @replaced client hopenid hinserted =>
      have huser := (isUser_replaced h hopenid hinserted).mp hp
      by_cases hclient : p = client
      · subst hclient
        rw [client_moved_self h huser]
        exact Or.inr ⟨rfl, h.openids.key_eq hopenid, Or.inr ⟨hopenid, rfl⟩⟩
      · refine Or.inl ⟨huser, client_moved_other hclient, ?_⟩
        rw [hopenid]
        exact fun heq => hclient (Option.some.inj heq).symm
  | @rejected client hopenid hinserted =>
      obtain ⟨huser, hclient⟩ := (isUser_rejected h hopenid hinserted).mp hp
      refine Or.inl ⟨huser, client_moved_other hclient, ?_⟩
      rw [hopenid]
      exact fun heq => hclient (Option.some.inj heq).symm

theorem Logged.user_kept (hlogged : Logged m ccid openid name m' msgs) (h : Indexing m S T U)
    (hp : IsUser m p) (hne : m.getByOpenid openid ≠ some p) :
    IsUser m' p ∧ m'.client p = m.client p := by
  cases hlogged with
  | registered hopenid hinserted =>
      exact ⟨(isUser_registered h hinserted).mpr (Or.inr hp), client_insertNew_user h hp⟩
  | refused hopenid hinserted =>
      exact ⟨(isUser_refused h hopenid hinserted).mpr hp, client_insertNew_user h hp⟩
  | @replaced client hopenid hinserted =>
      have hclient : p ≠ client := fun heq => hne (by rw [hopenid, heq])
      exact ⟨(isUser_replaced h hopenid hinserted).mpr hp, client_moved_other hclient⟩
  | @rejected client hopenid hinserted =>
      have hclient : p ≠ client := fun heq => hne (by rw [hopenid, heq])
      exact ⟨(isUser_rejected h hopenid hinserted).mpr ⟨hp, hclient⟩, client_moved_other hclient⟩

theorem Logged.about (hlogged : Logged m ccid openid name m' msgs) {msg : PrivateMsg}
    (hmsg : msg ∈ msgs) :
    about msg = ccid ∨
      ∃ client, m.getByOpenid openid = some client ∧ about msg = (m.client client).ccid := by
  cases hlogged with
  | registered | refused =>
      rw [List.mem_singleton.mp hmsg]
      exact Or.inl rfl
  | replaced hopenid =>
      rcases List.mem_pair.mp hmsg with rfl | rfl
      · exact Or.inr ⟨_, hopenid, rfl⟩
      · exact Or.inl rfl
  | rejected hopenid =>
      rcases List.mem_cons.mp hmsg with rfl | hmsg
      · exact Or.inr ⟨_, hopenid, rfl⟩
      · rcases List.mem_pair.mp hmsg with rfl | rfl <;> exact Or.inl rfl

theorem Logged.indexed (hlogged : Logged m ccid openid name m' msgs) (h : Indexing m S T U) :
    ∃ S' T' U', Indexing m' S' T' U' := by
  cases hlogged with
  | registered hopenid hinserted => exact ⟨_, _, _, h.insertNew_true hinserted⟩
  | refused hopenid hinserted =>
      exact ⟨_, _, _, h.registered_false (getByOpenid_eq_none.mp hopenid) hinserted⟩
  | replaced hopenid hinserted =>
      have hrelogged := h.relogged (h.openids.mem hopenid) ccid
      rw [if_pos hinserted] at hrelogged
      exact ⟨_, _, _, hrelogged⟩
  | rejected hopenid hinserted =>
      have hrelogged := h.relogged (h.openids.mem hopenid) ccid
      rw [if_neg (by rw [hinserted]; exact Bool.false_ne_true)] at hrelogged
      exact ⟨_, _, _, hrelogged⟩

end Users

end CasualGame.Sessions
