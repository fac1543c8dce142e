import CasualGame.Lib.Index
import CasualGame.Lobby.LobbyActs

/-!
The three indexes of the clients: what a login does to each of them, when they keep
indexing the same clients, and what the gateway is told.
-/

namespace CasualGame.Lobby.Logins

open Deck
open Dealing
open Game13
open LobbyState
open Lib.Run
open Lib.Index
open WorldFrames
open LobbyActs

section Indexing

/-- The clients each of the maps indexes, under the keys they have. A client in the
second or third map is in the first. -/
structure Indexing (m : ClientManager) (S T U : Set ClientPtr) : Prop where
  openids : Indexes m.openid2Clients (fun p => (m.client p).openid) S
  cuids : Indexes m.cuid2Clients (fun p => (m.client p).cuid) T
  ccids : Indexes m.ccid2Clients (fun p => (m.client p).ccid) U
  cuids_sub : T ⊆ S
  ccids_sub : U ⊆ S
  valid : ∀ p ∈ S, p < m.clients.length

variable {m m' : ClientManager} {S T U : Set ClientPtr} {p : ClientPtr}

theorem indexing_empty : Indexing {} ∅ ∅ ∅ :=
  ⟨indexes_empty _, indexes_empty _, indexes_empty _, Set.Subset.refl _, Set.Subset.refl _,
    fun _ hp => absurd hp (Set.notMem_empty _)⟩

theorem Indexing.of_sameKeys (hkeys : SameKeys m m') (h : Indexing m S T U) :
    Indexing m' S T U := by
  constructor
  · rw [hkeys.openids]
    exact h.openids.congr fun p _ => hkeys.openid p
  · rw [hkeys.cuids]
    exact h.cuids.congr fun p _ => hkeys.cuid p
  · rw [hkeys.ccids]
    exact h.ccids.congr fun p _ => hkeys.ccid p
  · exact h.cuids_sub
  · exact h.ccids_sub
  · intro p hp
    rw [hkeys.length]
    exact h.valid p hp

theorem Indexing.of_others (h : Indexing m S T U) (hopenids : m'.openid2Clients = m.openid2Clients)
    (hcuids : m'.cuid2Clients = m.cuid2Clients) (hccids : m'.ccid2Clients = m.ccid2Clients)
    (hlength : m.clients.length ≤ m'.clients.length)
    (hclient : ∀ q ∈ S, m'.client q = m.client q) : Indexing m' S T U := by
  constructor
  · rw [hopenids]
    exact h.openids.congr fun q hq => by rw [hclient q hq]
  · rw [hcuids]
    exact h.cuids.congr fun q hq => by rw [hclient q (h.cuids_sub hq)]
  · rw [hccids]
    exact h.ccids.congr fun q hq => by rw [hclient q (h.ccids_sub hq)]
  · exact h.cuids_sub
  · exact h.ccids_sub
  · intro q hq
    exact (h.valid q hq).trans_le hlength

theorem client_insert (m : ClientManager) (p q : ClientPtr) :
    (m.insert p).2.client q = m.client q := by
  rw [ClientManager.client, insert_clients]
  rfl

theorem insert_fst (m : ClientManager) (p : ClientPtr) :
    (m.insert p).1 = true ↔ (m.client p).openid ∉ m.openid2Clients ∧
      (m.client p).cuid ∉ m.cuid2Clients ∧ (m.client p).ccid ∉ m.ccid2Clients := by
  unfold ClientManager.insert
  dsimp only
  split_ifs with hopenid hcuid hccid
  · simp [hopenid]
  · simp [hcuid]
  · simp [hccid]
  · simp [hopenid, hcuid, hccid]

theorem insert_snd_of_true (hinserted : (m.insert p).1 = true) :
    (m.insert p).2 = { m with
      openid2Clients := m.openid2Clients.insert (m.client p).openid p
      cuid2Clients := m.cuid2Clients.insert (m.client p).cuid p
      ccid2Clients := m.ccid2Clients.insert (m.client p).ccid p } := by
  obtain ⟨hopenid, hcuid, hccid⟩ := (insert_fst m p).mp hinserted
  rw [ClientManager.insert, if_neg hopenid, if_neg hcuid, if_neg hccid]

theorem Indexing.insert_true (h : Indexing m S T U) (hvalid : p < m.clients.length)
    (hinserted : (m.insert p).1 = true) :
    Indexing (m.insert p).2 (insert p S) (insert p T) (insert p U) := by
  obtain ⟨hopenid, hcuid, hccid⟩ := (insert_fst m p).mp hinserted
  rw [insert_snd_of_true hinserted]
  refine ⟨h.openids.insert hopenid, h.cuids.insert hcuid, h.ccids.insert hccid,
    Set.insert_subset_insert h.cuids_sub, Set.insert_subset_insert h.ccids_sub, ?_⟩
  rintro q (rfl | hq)
  · exact hvalid
  · exact h.valid q hq

theorem filter_key_of_notMem {κ : Type} {S : Set ClientPtr} {key : ClientPtr → κ} {k : κ}
    (h : ∀ p ∈ S, key p ≠ k) : {p ∈ S | key p ≠ k} = S := by
  ext q
  exact ⟨fun hq => hq.1, fun hq => ⟨hq, h q hq⟩⟩

theorem Indexing.insert_false (h : Indexing m S T U)
    (hopenid : (m.client p).openid ∉ m.openid2Clients)
    (hinserted : (m.insert p).1 = false) : Indexing (m.insert p).2 S T U := by
  have hopenids : Indexes (m.openid2Clients.erase (m.client p).openid)
      (fun q => (m.client q).openid) S := by
    have herase := h.openids.erase (m.client p).openid
    rwa [filter_key_of_notMem fun q hq heq => hopenid (h.openids.mem_iff.mpr ⟨q, hq, heq⟩)]
      at herase
  unfold ClientManager.insert at hinserted ⊢
  dsimp only at hinserted ⊢
  rw [if_neg hopenid] at hinserted ⊢
  split_ifs at hinserted ⊢ with hcuid hccid
  · exact ⟨hopenids, h.cuids, h.ccids, h.cuids_sub, h.ccids_sub, h.valid⟩
  · have hcuids : Indexes (m.cuid2Clients.erase (m.client p).cuid)
        (fun q => (m.client q).cuid) T := by
      have herase := h.cuids.erase (m.client p).cuid
      rwa [filter_key_of_notMem fun q hq heq => hcuid (h.cuids.mem_iff.mpr ⟨q, hq, heq⟩)] at herase
    exact ⟨hopenids, hcuids, h.ccids, h.cuids_sub, h.ccids_sub, h.valid⟩

/-- The clients that are not erased together with one that has the same key. -/
def others (key : ClientPtr → Nat) (S : Set ClientPtr) (p : ClientPtr) : Set ClientPtr :=
  {q ∈ S | key q ≠ key p}

theorem Indexing.erase_member (h : Indexing m S T U) (hp : p ∈ S) :
    Indexing (m.erase p) (S \ {p}) (others (fun q => (m.client q).cuid) T p)
      (others (fun q => (m.client q).ccid) U p) := by
  refine ⟨h.openids.erase_member hp, h.cuids.erase _, h.ccids.erase _, ?_, ?_, ?_⟩
  · rintro q ⟨hq, hne⟩
    exact ⟨h.cuids_sub hq, fun heq => hne (by rw [Set.mem_singleton_iff.mp heq])⟩
  · rintro q ⟨hq, hne⟩
    exact ⟨h.ccids_sub hq, fun heq => hne (by rw [Set.mem_singleton_iff.mp heq])⟩
  · rintro q ⟨hq, -⟩
    exact h.valid q hq

theorem Indexing.erase_stranger (h : Indexing m S T U)
    (hopenid : (m.client p).openid ∉ m.openid2Clients) :
    Indexing (m.erase p) S (others (fun q => (m.client q).cuid) T p)
      (others (fun q => (m.client q).ccid) U p) := by
  have hopenids := h.openids.erase (m.client p).openid
  rw [filter_key_of_notMem fun q hq heq => hopenid (h.openids.mem_iff.mpr ⟨q, hq, heq⟩)] at hopenids
  exact ⟨hopenids, h.cuids.erase _, h.ccids.erase _, fun q hq => h.cuids_sub hq.1,
    fun q hq => h.ccids_sub hq.1, h.valid⟩

theorem others_eq_of_injOn {key : ClientPtr → Nat}
    (hinj : ∀ q ∈ S, key q = key p → q = p) : others key S p = S \ {p} := by
  ext q
  constructor
  · rintro ⟨hq, hne⟩
    exact ⟨hq, fun heq => hne (by rw [Set.mem_singleton_iff.mp heq])⟩
  · rintro ⟨hq, hne⟩
    exact ⟨hq, fun heq => hne (hinj q hq heq)⟩

end Indexing

section LoginSteps

variable {m : ClientManager} {S T U : Set ClientPtr} {p : ClientPtr} {ccid : Ccid}
  {openid name : String}

theorem indexing_withNew (h : Indexing m S T U) (ccid : Ccid) (openid name : String) :
    Indexing (withNew m ccid openid name) S T U := by
  refine h.of_others rfl rfl rfl ?_ fun q hq => ?_
  · change m.clients.length ≤ (m.clients ++ [newClient m ccid openid name]).length
    simp
  · rw [client_withNew, if_neg (h.valid q hq).ne]

theorem client_self_withNew (m : ClientManager) (ccid : Ccid) (openid name : String) :
    (withNew m ccid openid name).client m.clients.length = newClient m ccid openid name := by
  rw [client_withNew, if_pos rfl]

theorem insertNew_fst (m : ClientManager) (ccid : Ccid) (openid name : String) :
    (insertNew m ccid openid name).1 = true ↔ openid ∉ m.openid2Clients ∧
      m.getClientUniqueId.1 ∉ m.cuid2Clients ∧ ccid ∉ m.ccid2Clients := by
  rw [insertNew, insert_fst, client_self_withNew]
  rfl

theorem Indexing.insertNew_true (h : Indexing m S T U)
    (hinserted : (insertNew m ccid openid name).1 = true) :
    Indexing (insertNew m ccid openid name).2 (insert m.clients.length S)
      (insert m.clients.length T) (insert m.clients.length U) := by
  refine (indexing_withNew h ccid openid name).insert_true ?_ hinserted
  change m.clients.length < (m.clients ++ [newClient m ccid openid name]).length
  simp

theorem Indexing.insertNew_false (h : Indexing m S T U) (hopenid : openid ∉ m.openid2Clients)
    (hinserted : (insertNew m ccid openid name).1 = false) :
    Indexing (insertNew m ccid openid name).2 S T U := by
  refine (indexing_withNew h ccid openid name).insert_false ?_ hinserted
  rw [client_self_withNew]
  exact hopenid

/-- The client under its new connection, before the maps are asked. -/
def moved (m : ClientManager) (p : ClientPtr) (ccid : Ccid) : ClientManager :=
  (m.erase p).modifyClient p fun c => { c with ccid := ccid }

theorem client_moved (m : ClientManager) (p q : ClientPtr) (ccid : Ccid) :
    (moved m p ccid).client q =
      if q = p ∧ p < m.clients.length then { m.client q with ccid := ccid } else m.client q :=
  client_modifyClient (m.erase p) p q _

theorem Indexing.moved (h : Indexing m S T U) (hp : p ∈ S) (ccid : Ccid) :
    Indexing (Logins.moved m p ccid) (S \ {p}) (others (fun q => (m.client q).cuid) T p)
      (others (fun q => (m.client q).ccid) U p) := by
  refine (h.erase_member hp).of_others rfl rfl rfl (List.length_modify ..).ge fun q hq => ?_
  rw [client_moved, if_neg fun heq => hq.2 heq.1]
  rfl

theorem length_moved (m : ClientManager) (p : ClientPtr) (ccid : Ccid) :
    (moved m p ccid).clients.length = m.clients.length :=
  List.length_modify ..

theorem insert_moved_fst (h : Indexing m S T U) (hp : p ∈ S) (ccid : Ccid) :
    ((moved m p ccid).insert p).1 = true ↔
      ccid = (m.client p).ccid ∨ ccid ∉ m.ccid2Clients := by
  have hself : (moved m p ccid).client p = { m.client p with ccid := ccid } := by
    rw [client_moved, if_pos ⟨rfl, h.valid p hp⟩]
  rw [insert_fst, hself]
  change (m.client p).openid ∉ m.openid2Clients.erase (m.client p).openid ∧
    (m.client p).cuid ∉ m.cuid2Clients.erase (m.client p).cuid ∧
      ccid ∉ m.ccid2Clients.erase (m.client p).ccid ↔ _
  simp only [Std.TreeMap.mem_erase, Std.ReflCmp.compare_self, ne_eq, not_true_eq_false, false_and,
    not_false_eq_true, true_and, not_and, compare_eq_iff_eq]
  constructor
  · intro hfree
    by_cases heq : ccid = (m.client p).ccid
    · exact Or.inl heq
    · exact Or.inr (hfree fun h => heq h.symm)
  · rintro (rfl | hfree) hne
    · exact absurd rfl hne
    · exact hfree

end LoginSteps

section Agree

/-- The three maps index one set of clients, each under its current keys. -/
def IndexesAgree (m : ClientManager) : Prop :=
  ∃ S : Set ClientPtr, Indexes m.openid2Clients (fun p => (m.client p).openid) S ∧
    Indexes m.cuid2Clients (fun p => (m.client p).cuid) S ∧
      Indexes m.ccid2Clients (fun p => (m.client p).ccid) S

/-- A login for an unknown openid comes with a connection, and draws a cuid, that no map
has yet. -/
def NewLoginFree (lobby : LobbyState) : Event → Prop
  | .loginQuest ccid openid _ => openid ∉ lobby.world.clients.openid2Clients →
      lobby.world.clients.getClientUniqueId.1 ∉ lobby.world.clients.cuid2Clients ∧
        ccid ∉ lobby.world.clients.ccid2Clients
  | _ => True

instance (lobby : LobbyState) (a : Event) : Decidable (NewLoginFree lobby a) :=
  match a with
  | .loginQuest _ _ _ => inferInstanceAs (Decidable (_ → _))
  | .createGame .. | .jionGame .. | .giveUp .. | .voteFoAbortGame .. | .readyFlag ..
  | .bringOut .. | .sendChat .. | .timer .. => .isTrue trivial

variable {lobby lobby' : LobbyState} {a : Event} {m : ClientManager} {S T U : Set ClientPtr}
  {p : ClientPtr} {ccid : Ccid} {openid name : String}

theorem getByOpenid_eq_none : m.getByOpenid openid = none ↔ openid ∉ m.openid2Clients := by
  rw [ClientManager.getByOpenid, Std.TreeMap.mem_iff_isSome_getElem?, Bool.not_eq_true,
    Option.isSome_eq_false_iff, Option.isNone_iff_eq_none]

theorem registered_clients (w : World) (ccid : Ccid) (openid name : String) :
    (registered w ccid openid name).clients =
      if (insertNew w.clients ccid openid name).1 then (insertNew w.clients ccid openid name).2
      else (insertNew w.clients ccid openid name).2.erase w.clients.clients.length := by
  rw [registered_eq]

theorem Indexing.registered_false (h : Indexing m S T U) (hopenid : openid ∉ m.openid2Clients)
    (hinserted : (insertNew m ccid openid name).1 = false) :
    Indexing ((insertNew m ccid openid name).2.erase m.clients.length) S
      {q ∈ T | (m.client q).cuid ≠ m.getClientUniqueId.1} {q ∈ U | (m.client q).ccid ≠ ccid} := by
  have hinserted' := h.insertNew_false hopenid hinserted
  have hself : (insertNew m ccid openid name).2.client m.clients.length =
      newClient m ccid openid name := by
    rw [client_insertNew, if_pos rfl]
  have hstranger : ((insertNew m ccid openid name).2.client m.clients.length).openid ∉
      (insertNew m ccid openid name).2.openid2Clients := by
    rw [hself, hinserted'.openids.mem_iff]
    rintro ⟨q, hq, heq⟩
    rw [client_insertNew, if_neg (h.valid q hq).ne] at heq
    exact hopenid (h.openids.mem_iff.mpr ⟨q, hq, heq⟩)
  have herased := hinserted'.erase_stranger hstranger
  have hsame : ∀ (key : Client → Nat) {V : Set ClientPtr}, V ⊆ S →
      others (fun q => key ((insertNew m ccid openid name).2.client q)) V m.clients.length =
        {q ∈ V | key (m.client q) ≠ key (newClient m ccid openid name)} := by
    intro key V hsub
    ext q
    refine and_congr_right fun hq => ?_
    dsimp only
    rw [hself, client_insertNew, if_neg (h.valid q (hsub hq)).ne]
  rw [hsame (·.cuid) h.cuids_sub, hsame (·.ccid) h.ccids_sub] at herased
  exact herased

theorem Indexing.relogged (h : Indexing m S T U) (hp : p ∈ S) (ccid : Ccid) :
    if ((Logins.moved m p ccid).insert p).1 then
      Indexing ((Logins.moved m p ccid).insert p).2 (insert p (S \ {p}))
        (insert p (others (fun q => (m.client q).cuid) T p))
        (insert p (others (fun q => (m.client q).ccid) U p))
    else Indexing ((Logins.moved m p ccid).insert p).2 (S \ {p})
      (others (fun q => (m.client q).cuid) T p) (others (fun q => (m.client q).ccid) U p) := by
  have hmoved := h.moved hp ccid
  have hself : (Logins.moved m p ccid).client p = { m.client p with ccid := ccid } := by
    rw [client_moved, if_pos ⟨rfl, h.valid p hp⟩]
  split_ifs with hinserted
  · apply hmoved.insert_true _ hinserted
    rw [length_moved]
    exact h.valid p hp
  · apply hmoved.insert_false
    · rw [hself, hmoved.openids.mem_iff]
      rintro ⟨q, hq, heq⟩
      rw [client_moved, if_neg fun h => hq.2 h.1] at heq
      exact hq.2 (h.openids.injOn hq.1 hp heq)
    · exact Bool.not_eq_true _ ▸ hinserted

theorem insert_diff_self {S : Set ClientPtr} (hp : p ∈ S) : insert p (S \ {p}) = S := by
  rw [Set.insert_sdiff_singleton, Set.insert_eq_of_mem hp]

theorem Indexing.agree (h : Indexing m S S S) : IndexesAgree m :=
  ⟨S, h.openids, h.cuids, h.ccids⟩

theorem Indexes.eq {κ : Type} [Ord κ] {t : Std.TreeMap κ ClientPtr} {key : ClientPtr → κ}
    (h : Indexes t key S) (h' : Indexes t key T) : S = T := by
  ext q
  exact ⟨fun hq => h'.mem (h.getElem? hq), fun hq => h.mem (h'.getElem? hq)⟩

theorem insert_others_eq {key : ClientPtr → Nat} {t : Std.TreeMap Nat ClientPtr}
    (h : Indexes t key S) (hp : p ∈ S) : insert p (others key S p) = S := by
  rw [others_eq_of_injOn fun q hq heq => h.injOn hq hp heq]
  exact insert_diff_self hp

/-- Whatever the logins, the maps hold clients under their keys. -/
def Indexed (lobby : LobbyState) : Prop := ∃ S T U, Indexing lobby.world.clients S T U

def IndexedAlike (lobby : LobbyState) : Prop := ∃ S, Indexing lobby.world.clients S S S

theorem Indexed.reaches {C : LobbyState → Event → Prop} (h : lobbySystem.Reaches C lobby) :
    Indexed lobby := by
  refine h.invariant ?_ fun lobby a lobby' hinv _ _ hstep => ?_
  · rintro lobby ⟨rg, rfl⟩
    exact ⟨∅, ∅, ∅, indexing_empty⟩
  · obtain ⟨S, T, U, hindexing⟩ := hinv
    refine (step_act hstep).clients (P := fun m => ∃ S T U, Indexing m S T U) ?_ ?_ ?_
      ⟨S, T, U, hindexing⟩
    · rintro m m' hkeys ⟨S, T, U, h⟩
      exact ⟨S, T, U, h.of_sameKeys hkeys⟩
    · intro ccid openid name _ hopenid
      rw [registered_clients]
      split_ifs with hinserted
      · exact ⟨_, _, _, hindexing.insertNew_true hinserted⟩
      · exact ⟨_, _, _, hindexing.registered_false (getByOpenid_eq_none.mp hopenid)
          (Bool.not_eq_true _ ▸ hinserted)⟩
    · intro ccid openid name client _ hopenid
      have hrelogged := hindexing.relogged (hindexing.openids.mem hopenid) ccid
      split_ifs at hrelogged
      · exact ⟨_, _, _, hrelogged⟩
      · exact ⟨_, _, _, hrelogged⟩

theorem IndexedAlike.step (hinv : IndexedAlike lobby) (hfree : NewLoginFree lobby a)
    (hstep : lobby.step a = .ok lobby') : IndexedAlike lobby' := by
  obtain ⟨S, h⟩ := hinv
  refine (step_act hstep).clients (P := fun m => ∃ S', Indexing m S' S' S') ?_ ?_ ?_ ⟨S, h⟩
  · rintro m m' hkeys ⟨S', h'⟩
    exact ⟨S', h'.of_sameKeys hkeys⟩
  · rintro ccid openid name rfl hopenid
    have hnew := getByOpenid_eq_none.mp hopenid
    have hinserted := (insertNew_fst lobby.world.clients ccid openid name).mpr ⟨hnew, hfree hnew⟩
    rw [registered_clients, if_pos hinserted]
    exact ⟨_, h.insertNew_true hinserted⟩
  · rintro ccid openid name client rfl hopenid
    have hp := h.openids.mem hopenid
    have hrelogged := h.relogged hp ccid
    split_ifs at hrelogged
    · rw [insert_diff_self hp, insert_others_eq h.cuids hp, insert_others_eq h.ccids hp]
        at hrelogged
      exact ⟨S, hrelogged⟩
    · rw [others_eq_of_injOn fun q hq heq => h.cuids.injOn hq hp heq,
        others_eq_of_injOn fun q hq heq => h.ccids.injOn hq hp heq] at hrelogged
      exact ⟨_, hrelogged⟩

theorem newLoginFree_of_agree (h : Indexing lobby.world.clients S S S)
    (hstep : lobby.step a = .ok lobby') (hagree : IndexesAgree lobby'.world.clients) :
    NewLoginFree lobby a := by
  cases a with
  | loginQuest ccid openid name =>
      intro hopenid
      cases hinserted : (insertNew lobby.world.clients ccid openid name).1 with
      | true => exact ((insertNew_fst _ _ _ _).mp hinserted).2
      | false =>
          have hfailed := loginQuest_new ccid name (getByOpenid_eq_none.mpr hopenid)
          rw [hinserted, if_neg Bool.false_ne_true] at hfailed
          cases hstep
          rw [hfailed] at hagree
          obtain ⟨R, hR, hcuids, hccids⟩ := hagree
          have herased := h.registered_false hopenid hinserted
          have hsame := Indexes.eq herased.openids hR
          subst hsame
          have hcuids' := Indexes.eq hcuids herased.cuids
          have hccids' := Indexes.eq hccids herased.ccids
          constructor
          · rw [h.cuids.mem_iff]
            rintro ⟨q, hq, heq⟩
            rw [hcuids'] at hq
            exact hq.2 heq
          · rw [h.ccids.mem_iff]
            rintro ⟨q, hq, heq⟩
            rw [hccids'] at hq
            exact hq.2 heq
  | createGame | jionGame | giveUp | voteFoAbortGame | readyFlag | bringOut | sendChat | timer =>
      trivial

/-- In every run whose new logins are free the maps agree, and the next step keeps them
so exactly when it is of this kind too. -/
theorem indexes_agree (h : lobbySystem.Reaches NewLoginFree lobby) :
    IndexesAgree lobby.world.clients ∧
      ∀ (a : Event) (lobby' : LobbyState), lobby.Allowed a → lobby.step a = .ok lobby' →
        (IndexesAgree lobby'.world.clients ↔ NewLoginFree lobby a) := by
  have hinv : IndexedAlike lobby := by
    refine h.invariant ?_ fun lobby a lobby' hinv _ hfree hstep => hinv.step hfree hstep
    rintro lobby ⟨rg, rfl⟩
    exact ⟨∅, indexing_empty⟩
  have ⟨S, hS⟩ := hinv
  refine ⟨hS.agree, fun a lobby' _ hstep => ⟨newLoginFree_of_agree hS hstep, fun hfree => ?_⟩⟩
  obtain ⟨S', hS'⟩ := hinv.step hfree hstep
  exact hS'.agree

def logins (quests : List (Ccid × String)) : LobbyState :=
  lobbySystem.after (LobbyState.start fun _ => Shuffle.id)
    (quests.map fun quest => .loginQuest quest.1 quest.2 "")

theorem indexes_agree_two :
    IndexesAgree (logins [(11, "a"), (12, "b"), (13, "a")]).world.clients ∧
      ∀ (a : Event) (lobby' : LobbyState), (logins [(11, "a"), (12, "b"), (13, "a")]).Allowed a →
        (logins [(11, "a"), (12, "b"), (13, "a")]).step a = .ok lobby' →
          (IndexesAgree lobby'.world.clients ↔
            NewLoginFree (logins [(11, "a"), (12, "b"), (13, "a")]) a) :=
  indexes_agree (.after (.init ⟨_, rfl⟩) (by decide +kernel))

/-- The second client is refused, and the first has lost its connection. -/
theorem refused_login_unindexes :
    ¬ ∀ lobby : LobbyState, lobbySystem.Reaches (fun _ _ => True) lobby →
      IndexesAgree lobby.world.clients := by
  intro hall
  have hreached : lobbySystem.Reaches (fun _ _ => True) (logins [(11, "a"), (11, "b")]) :=
    .after (.init ⟨_, rfl⟩) (by decide +kernel)
  obtain ⟨S, hopenids, -, hccids⟩ := hall _ hreached
  have hfirst : (logins [(11, "a"), (11, "b")]).world.clients.openid2Clients["a"]? = some 0 := by
    decide +kernel
  have hempty : (logins [(11, "a"), (11, "b")]).world.clients.ccid2Clients.toList = [] := by
    decide +kernel
  have hfound := hccids.getElem? (hopenids.mem hfirst)
  rw [← Std.TreeMap.mem_toList_iff_getElem?_eq_some, hempty] at hfound
  cases hfound

end Agree

section Replies

/-- The answers to logins among what is sent. -/
def retCodes (out : List Outgoing) : List RetCode :=
  out.filterMap fun
    | .gateway (.retLoginQuest retCode _ _ _) => some retCode
    | _ => none

/-- What the gateway is told. -/
def privateMsgs (out : List Outgoing) : List PrivateMsg :=
  out.filterMap fun
    | .gateway msg => some msg
    | .relay .. => none

/-- From `w` to `w'` the gateway is told this, in this order. -/
def Tells (msgs : List PrivateMsg) (w w' : World) : Prop :=
  ∃ out, w'.sent = w.sent ++ out ∧ privateMsgs out = msgs

/-- From `w` to `w'` the gateway is given these answers, in this order. -/
def Answers (codes : List RetCode) (w w' : World) : Prop :=
  ∃ out, w'.sent = w.sent ++ out ∧ retCodes out = codes

/-- The connection and the openid lead to one client. -/
def LedTogether (lobby : LobbyState) (ccid : Ccid) (openid : String) : Prop :=
  ∃ client, lobby.world.getByCcid ccid = some client ∧
    lobby.world.clients.getByOpenid openid = some client

/-- Whoever was found under a key is still found under it. -/
structure StillFound (m m' : ClientManager) : Prop where
  openids : ∀ openid client, m.getByOpenid openid = some client →
    m'.getByOpenid openid = some client
  cuids : ∀ cuid client, m.getByCuid cuid = some client → m'.getByCuid cuid = some client
  ccids : ∀ ccid client, m.getByCcid ccid = some client → m'.getByCcid ccid = some client

/-- A login has one answer, which says success exactly when the client can be reached,
and nobody gets lost when it says failure. -/
def TruthfulLogin (lobby : LobbyState) (ccid : Ccid) (openid name : String) : Prop :=
  ∃ code, retCodes ((lobby.loginQuest ccid openid name).world.sent.drop
      lobby.world.sent.length) = [code] ∧
    (code = .succes ↔ LedTogether (lobby.loginQuest ccid openid name) ccid openid) ∧
      (code = .regFailed → StillFound lobby.world.clients
        (lobby.loginQuest ccid openid name).world.clients)

/-- The connection is new, or the one the user has, and a new user draws a new cuid. -/
def NoCollision (lobby : LobbyState) (ccid : Ccid) (openid : String) : Prop :=
  match lobby.world.clients.getByOpenid openid with
  | none => lobby.world.clients.getClientUniqueId.1 ∉ lobby.world.clients.cuid2Clients ∧
      ccid ∉ lobby.world.clients.ccid2Clients
  | some client => ccid = (lobby.world.client client).ccid ∨
      ccid ∉ lobby.world.clients.ccid2Clients

variable {lobby : LobbyState} {w w₁ w₂ : World} {codes codes' : List RetCode}
  {ccid : Ccid} {openid name : String}

theorem retCodes_eq (out : List Outgoing) :
    retCodes out = (privateMsgs out).filterMap fun
      | .retLoginQuest retCode _ _ _ => some retCode
      | .clientBeReplaced .. => none := by
  rw [retCodes, privateMsgs, List.filterMap_filterMap]
  congr 1
  funext o
  rcases o with _ | (_ | _) <;> rfl

theorem Answers.trans (h₁ : Answers codes w w₁) (h₂ : Answers codes' w₁ w₂) :
    Answers (codes ++ codes') w w₂ := by
  obtain ⟨out₁, hsent₁, hcodes₁⟩ := h₁
  obtain ⟨out₂, hsent₂, hcodes₂⟩ := h₂
  refine ⟨out₁ ++ out₂, by rw [hsent₂, hsent₁, List.append_assoc], ?_⟩
  rw [retCodes, List.filterMap_append, ← hcodes₁, ← hcodes₂]
  rfl

theorem Answers.drop (h : Answers codes w w₁) :
    retCodes (w₁.sent.drop w.sent.length) = codes := by
  obtain ⟨out, hsent, hcodes⟩ := h
  rw [hsent, List.drop_left, hcodes]

theorem Tells.trans {msgs msgs' : List PrivateMsg} (h₁ : Tells msgs w w₁)
    (h₂ : Tells msgs' w₁ w₂) : Tells (msgs ++ msgs') w w₂ := by
  obtain ⟨out₁, hsent₁, hmsgs₁⟩ := h₁
  obtain ⟨out₂, hsent₂, hmsgs₂⟩ := h₂
  refine ⟨out₁ ++ out₂, by rw [hsent₂, hsent₁, List.append_assoc], ?_⟩
  rw [privateMsgs, List.filterMap_append, ← hmsgs₁, ← hmsgs₂]
  rfl

theorem Tells.of_sent_eq (h : w₁.sent = w.sent) : Tells [] w w₁ :=
  ⟨[], by simpa using h, rfl⟩

theorem tells_of_relays (h : Relays w w₁) : Tells [] w w₁ := by
  obtain ⟨out, rfl, hrelays⟩ := h
  refine ⟨out, rfl, List.filterMap_eq_nil_iff.mpr fun o ho => ?_⟩
  obtain ⟨ccid, msg, rfl⟩ := hrelays o ho
  rfl

theorem tells_clientOnline (lobby : LobbyState) (client : ClientPtr) :
    Tells [] lobby.world (lobby.clientOnline client).world := by
  rw [clientOnline]
  split_ifs
  · exact .of_sent_eq rfl
  · split
    · exact .of_sent_eq rfl
    · simp only [LobbyState.setWorld, clientOnlineExec]
      split_ifs
      · exact .of_sent_eq rfl
      · exact tells_of_relays (relays_afterEnterRoom _ _ _)

theorem tells_loginSucces (lobby : LobbyState) (client : ClientPtr) (ccid : Ccid) :
    Tells [.retLoginQuest .succes ccid (lobby.world.client client).cuid
      (some (lobby.world.client client).openid)] lobby.world
        (lobby.loginSucces client ccid).world := by
  have htold : Tells [_] lobby.world (lobby.world.sendToPrivate (.retLoginQuest .succes ccid
      (lobby.world.client client).cuid (some (lobby.world.client client).openid))) :=
    ⟨[_], rfl, rfl⟩
  exact htold.trans (tells_clientOnline _ client)

theorem answers_loginSucces (lobby : LobbyState) (client : ClientPtr) (ccid : Ccid) :
    Answers [.succes] lobby.world (lobby.loginSucces client ccid).world := by
  obtain ⟨out, hsent, hmsgs⟩ := tells_loginSucces lobby client ccid
  exact ⟨out, hsent, by rw [retCodes_eq, hmsgs]; rfl⟩

theorem relocates_clientOnline (lobby : LobbyState) (client : ClientPtr) :
    Relocates lobby.world (lobby.clientOnline client).world := by
  rw [clientOnline]
  split_ifs
  · exact Relocates.refl _
  · split
    · exact relocates_setRoomId _ _ 0
    · exact relocates_clientOnlineExec _ _ _

theorem sameKeys_loginSucces (lobby : LobbyState) (client : ClientPtr) (ccid : Ccid) :
    SameKeys lobby.world.clients (lobby.loginSucces client ccid).world.clients := by
  rw [loginSucces]
  exact (relocates_clientOnline (lobby.setWorld (lobby.world.sendToPrivate _)) client).clients.keys

theorem ledTogether_of_sameKeys {lobby' : LobbyState} {m : ClientManager}
    (hkeys : SameKeys m lobby'.world.clients) :
    LedTogether lobby' ccid openid ↔
      ∃ client, m.getByCcid ccid = some client ∧ m.getByOpenid openid = some client := by
  unfold LedTogether
  simp only [World.getByCcid, ClientManager.getByCcid, ClientManager.getByOpenid, hkeys.ccids,
    hkeys.openids]

theorem truthful_of_registered (hindexed : Indexed lobby)
    (hopenid : lobby.world.clients.getByOpenid openid = none)
    (hinserted : (insertNew lobby.world.clients ccid openid name).1 = true) :
    TruthfulLogin lobby ccid openid name := by
  obtain ⟨S, T, U, h⟩ := hindexed
  have heq := loginQuest_new ccid name hopenid
  rw [hinserted, if_pos rfl] at heq
  have hnew := h.insertNew_true hinserted
  have hself : (insertNew lobby.world.clients ccid openid name).2.client
      lobby.world.clients.clients.length = newClient lobby.world.clients ccid openid name := by
    rw [client_insertNew, if_pos rfl]
  refine ⟨.succes, ?_, iff_of_true rfl ?_, nofun⟩
  · have honce : Answers [.succes] lobby.world (lobby.loginQuest ccid openid name).world := by
      rw [heq]
      obtain ⟨out, hsent, hcodes⟩ := answers_loginSucces (lobby.setWorld _) _ ccid
      exact ⟨out, hsent, hcodes⟩
    exact honce.drop
  · rw [heq, ledTogether_of_sameKeys (sameKeys_loginSucces (lobby.setWorld _) _ ccid)]
    refine ⟨lobby.world.clients.clients.length, ?_, ?_⟩
    · exact (hnew.ccids _ _).mpr ⟨Set.mem_insert _ _, congrArg Client.ccid hself⟩
    · exact (hnew.openids _ _).mpr ⟨Set.mem_insert _ _, congrArg Client.openid hself⟩

theorem not_truthful_of_refused (hindexed : Indexed lobby)
    (hopenid : lobby.world.clients.getByOpenid openid = none)
    (hinserted : (insertNew lobby.world.clients ccid openid name).1 = false) :
    ¬ TruthfulLogin lobby ccid openid name := by
  obtain ⟨S, T, U, h⟩ := hindexed
  have heq := loginQuest_new ccid name hopenid
  rw [hinserted, if_neg Bool.false_ne_true] at heq
  have hnew := getByOpenid_eq_none.mp hopenid
  have herased := h.registered_false hnew hinserted
  rintro ⟨code, hcodes, -, hkept⟩
  have hcode : code = .regFailed := by
    have honce : Answers [.regFailed] lobby.world (lobby.loginQuest ccid openid name).world := by
      rw [heq]
      exact ⟨[_], rfl, rfl⟩
    rw [honce.drop] at hcodes
    cases hcodes
    rfl
  have hfound := hkept hcode
  rw [heq] at hfound
  have hfree := mt (insertNew_fst lobby.world.clients ccid openid name).mpr
    (by rw [hinserted]; exact Bool.false_ne_true)
  apply hfree
  refine ⟨hnew, ?_, ?_⟩
  · rw [h.cuids.mem_iff]
    rintro ⟨q, hq, hkey⟩
    have hgone := hfound.cuids _ q (h.cuids.getElem? hq)
    exact (herased.cuids.mem hgone).2 hkey
  · rw [h.ccids.mem_iff]
    rintro ⟨q, hq, hkey⟩
    have hgone := hfound.ccids _ q (h.ccids.getElem? hq)
    exact (herased.ccids.mem hgone).2 hkey

/-- The world of a known user under its new connection. -/
def replaced (w : World) (client : ClientPtr) (ccid : Ccid) : World :=
  { w.sendToPrivate (.clientBeReplaced (w.client client).ccid (w.client client).cuid
      (w.client client).openid) with
    clients := ((Logins.moved w.clients client ccid).insert client).2 }

theorem loginQuest_replaces {client : ClientPtr} (ccid : Ccid) (name : String)
    (h : lobby.world.clients.getByOpenid openid = some client) :
    lobby.loginQuest ccid openid name =
      (lobby.setWorld (if ((Logins.moved lobby.world.clients client ccid).insert client).1 then
        replaced lobby.world client ccid
      else regFailed (replaced lobby.world client ccid) client ccid)).loginSucces client ccid := by
  simp only [LobbyState.loginQuest, h]
  rfl

theorem answers_replaced (w : World) (client : ClientPtr) (ccid : Ccid) :
    Answers [] w (replaced w client ccid) :=
  ⟨[_], rfl, rfl⟩

theorem truthful_of_replaced {client : ClientPtr} (hindexed : Indexed lobby)
    (hopenid : lobby.world.clients.getByOpenid openid = some client)
    (hinserted : ((Logins.moved lobby.world.clients client ccid).insert client).1 = true) :
    TruthfulLogin lobby ccid openid name := by
  obtain ⟨S, T, U, h⟩ := hindexed
  have hp := h.openids.mem hopenid
  have heq := loginQuest_replaces ccid name hopenid
  rw [hinserted, if_pos rfl] at heq
  have hrelogged := h.relogged hp ccid
  rw [hinserted, if_pos rfl] at hrelogged
  have hself : (replaced lobby.world client ccid).clients.client client =
      { lobby.world.client client with ccid := ccid } := by
    refine (client_insert _ client client).trans ?_
    rw [client_moved, if_pos ⟨rfl, h.valid client hp⟩]
    rfl
  refine ⟨.succes, ?_, iff_of_true rfl ?_, nofun⟩
  · have honce : Answers ([] ++ [.succes]) lobby.world
        (lobby.loginQuest ccid openid name).world := by
      rw [heq]
      exact (answers_replaced lobby.world client ccid).trans
        (answers_loginSucces (lobby.setWorld _) client ccid)
    exact honce.drop
  · rw [heq, ledTogether_of_sameKeys (sameKeys_loginSucces (lobby.setWorld _) client ccid)]
    refine ⟨client, ?_, ?_⟩
    · exact (hrelogged.ccids _ _).mpr ⟨Set.mem_insert _ _, congrArg Client.ccid hself⟩
    · refine (hrelogged.openids _ _).mpr ⟨Set.mem_insert _ _, ?_⟩
      exact (congrArg Client.openid hself).trans (h.openids.key_eq hopenid)

theorem not_truthful_of_twice {client : ClientPtr}
    (hopenid : lobby.world.clients.getByOpenid openid = some client)
    (hinserted : ((Logins.moved lobby.world.clients client ccid).insert client).1 = false) :
    ¬ TruthfulLogin lobby ccid openid name := by
  have heq := loginQuest_replaces ccid name hopenid
  rw [hinserted, if_neg Bool.false_ne_true] at heq
  have htwice : Answers ([] ++ [.regFailed] ++ [.succes]) lobby.world
      (lobby.loginQuest ccid openid name).world := by
    rw [heq]
    have hfailed : Answers [.regFailed] (replaced lobby.world client ccid)
        (regFailed (replaced lobby.world client ccid) client ccid) :=
      ⟨[_], rfl, rfl⟩
    exact ((answers_replaced lobby.world client ccid).trans hfailed).trans
      (answers_loginSucces (lobby.setWorld _) client ccid)
  rintro ⟨code, hcodes, -⟩
  rw [htwice.drop] at hcodes
  cases hcodes

theorem truthfulLogin_of_indexed (hindexed : Indexed lobby) (ccid : Ccid) (openid name : String) :
    TruthfulLogin lobby ccid openid name ↔ NoCollision lobby ccid openid := by
  unfold NoCollision
  cases hopenid : lobby.world.clients.getByOpenid openid with
  | none =>
      have hnew := getByOpenid_eq_none.mp hopenid
      dsimp only
      cases hinserted : (insertNew lobby.world.clients ccid openid name).1 with
      | true =>
          exact iff_of_true (truthful_of_registered hindexed hopenid hinserted)
            ((insertNew_fst _ _ _ _).mp hinserted).2
      | false =>
          refine iff_of_false (not_truthful_of_refused hindexed hopenid hinserted) fun hfree => ?_
          rw [(insertNew_fst _ _ _ _).mpr ⟨hnew, hfree⟩] at hinserted
          cases hinserted
  | some client =>
      have ⟨S, T, U, h⟩ := hindexed
      have hfst := insert_moved_fst h (h.openids.mem hopenid) ccid
      change _ ↔ ccid = (lobby.world.clients.client client).ccid ∨ _
      rw [← hfst]
      cases hinserted : ((Logins.moved lobby.world.clients client ccid).insert client).1 with
      | true => exact iff_of_true (truthful_of_replaced hindexed hopenid hinserted) rfl
      | false => exact iff_of_false (not_truthful_of_twice hopenid hinserted) Bool.false_ne_true

/-- In every reachable lobby a login is answered once and truthfully exactly when its
keys collide with nobody's. -/
theorem truthfulLogin_iff (h : lobbySystem.Reaches (fun _ _ => True) lobby) (ccid : Ccid)
    (openid name : String) :
    TruthfulLogin lobby ccid openid name ↔ NoCollision lobby ccid openid :=
  truthfulLogin_of_indexed (Indexed.reaches h) ccid openid name

theorem logins_reaches {quests : List (Ccid × String)}
    (h : lobbySystem.Fits (fun _ _ => True) (LobbyState.start fun _ => Shuffle.id)
      (quests.map fun quest => .loginQuest quest.1 quest.2 "")) :
    lobbySystem.Reaches (fun _ _ => True) (logins quests) :=
  .after (.init ⟨_, rfl⟩) h

theorem truthfulLogin_iff_two :
    TruthfulLogin (logins [(11, "a"), (12, "b")]) 12 "a" "" ↔
      NoCollision (logins [(11, "a"), (12, "b")]) 12 "a" :=
  truthfulLogin_iff (logins_reaches (by decide +kernel)) 12 "a" ""

/-- A user comes back over the connection of another, and is told both. -/
theorem relogin_answered_twice :
    ¬ ∀ (lobby : LobbyState) (ccid : Ccid) (openid name : String),
      lobbySystem.Reaches (fun _ _ => True) lobby → TruthfulLogin lobby ccid openid name := by
  intro hall
  have hreached : lobbySystem.Reaches (fun _ _ => True) (logins [(11, "a"), (12, "b")]) :=
    logins_reaches (by decide +kernel)
  obtain ⟨code, hcodes, -⟩ := hall _ 12 "a" "" hreached
  have htwice : retCodes (((logins [(11, "a"), (12, "b")]).loginQuest 12 "a" "").world.sent.drop
      (logins [(11, "a"), (12, "b")]).world.sent.length) = [.regFailed, .succes] := by
    decide +kernel
  rw [htwice] at hcodes
  cases hcodes

end Replies

end CasualGame.Lobby.Logins
