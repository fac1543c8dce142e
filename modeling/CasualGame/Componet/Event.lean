import CasualGame.Componet.FastTravelUnorderedMap

/-!
Events: the handlers that are registered, and where they are found by the ids of their
registrations.
-/

namespace CasualGame.Componet

open Lib.Run
open Lib.SwapRemove
open FastTravelUnorderedMap

/-- The parameters of an event: their types, which of them are passed by value, and what is
left of a value that has been moved. -/
structure Params where
  count : Nat
  type : Fin count → Type
  byValue : Fin count → Bool
  movedFrom : ∀ i, type i → type i

namespace Params

variable (P : Params)

abbrev Args : Type := ∀ i, P.type i

/-- What a call with `std::forward` leaves of its arguments. A parameter that is passed by
value is made from the argument by a move before the handler runs. -/
def forwarded (args : P.Args) : P.Args := fun i =>
  if P.byValue i then P.movedFrom i (args i) else args i

inductive Outcome
  | returns | throws
  deriving DecidableEq

abbrev Handler : Type := P.Args → Outcome

end Params

/-- `callbackList` has the handlers with the ids of their registrations, and `regIDs` the
places in it. -/
structure Event (P : Params) where
  callbackList : List (UInt64 × P.Handler) := []
  regIDs : UInt64 → Option Nat := fun _ => none
  lastRegID : UInt64 := 0

namespace Event

variable {P : Params}

section Code

variable (e : Event P)

/-- The `insert` leaves an id that is there as it is, and the place is set afterwards. -/
def reg (cb : P.Handler) : UInt64 × Event P :=
  let id := e.lastRegID + 1
  let regIDs :=
    match e.regIDs id with
    | some _ => e.regIDs
    | none => Function.update e.regIDs id (some e.callbackList.length)
  let callbackList := e.callbackList ++ [(id, cb)]
  (id,
    { callbackList := callbackList
      regIDs := Function.update regIDs id (some (callbackList.length - 1))
      lastRegID := id })

/-- The last handler overwrites the one at `index`, unless that is the last itself. -/
def overwrite (index : Nat) : Except Fault (Event P) :=
  if index + 1 ≠ e.callbackList.length then
    if e.callbackList.length ≤ index then .error .outOfRange
    else
      match e.callbackList.getLast? with
      | none => .error .undefined
      | some back =>
          .ok { e with
            callbackList := e.callbackList.set index back
            regIDs := Function.update e.regIDs back.1 (some index) }
  else .ok e

/-- Where there is one handler, the id is not looked at. -/
def unreg (regID : UInt64) : Except Fault (Event P) :=
  if e.callbackList.length = 1 then
    .ok { e with callbackList := [], regIDs := fun _ => none }
  else
    match e.regIDs regID with
    | none => .ok e
    | some index => do
        let e ← e.overwrite index
        .ok { e with
          callbackList := e.callbackList.dropLast
          regIDs := Function.update e.regIDs regID none }

/-- The loop of `operator()`: the handlers it calls, with what. An exception changes
nothing. -/
def raiseFrom : List (UInt64 × P.Handler) → P.Args → List ((UInt64 × P.Handler) × P.Args)
  | [], _ => []
  | cb :: callbackList, args =>
      match cb.2 args with
      | .returns => (cb, args) :: raiseFrom callbackList (P.forwarded args)
      | .throws => (cb, args) :: raiseFrom callbackList (P.forwarded args)

def raise (args : P.Args) : List ((UInt64 × P.Handler) × P.Args) :=
  raiseFrom e.callbackList args

end Code

section Run

inductive Act (P : Params)
  | reg (cb : P.Handler)
  | unreg (regID : UInt64)
  | raise (args : P.Args)

def system (P : Params) : System (Event P) (Act P) Fault where
  Init e := e = {}
  Allowed _ _ := True
  step e
    | .reg cb => .ok (e.reg cb).2
    | .unreg regID => e.unreg regID
    | .raise _ => .ok e

end Run

section Statement

variable (e : Event P)

def ids : List UInt64 := e.callbackList.map Prod.fst

/-- The event is a map from ids to handlers: a registration adds a handler under an id of its
own, its end removes what is under the id and nothing else, and a raised event calls every
handler once. -/
def ActsAsMap : Act P → Prop
  | .reg cb => (e.reg cb).1 ∉ e.ids ∧
      (e.reg cb).2.callbackList.Perm (((e.reg cb).1, cb) :: e.callbackList)
  | .unreg regID => ∃ e', e.unreg regID = .ok e' ∧
      e'.callbackList.Perm (e.callbackList.filter fun cb => cb.1 ≠ regID) ∧
        (regID ∉ e.ids → e' = e)
  | .raise args => e.ids.Nodup ∧ (e.raise args).map Prod.fst = e.callbackList

/-- The end of a registration does not meet the last handler of another. -/
def MeetsOwn : Act P → Prop
  | .unreg regID => ∀ cb, e.callbackList = [cb] → cb.1 = regID
  | _ => True

/-- Moreover, no registration comes back to an id that is still in use. -/
def Harmless : Act P → Prop
  | .reg _ => e.lastRegID + 1 ∉ e.ids
  | act => e.MeetsOwn act

/-- Every handler is called with what the event is raised with. -/
def CallsAllWith (args : P.Args) : Prop := e.raise args = e.callbackList.map fun cb => (cb, args)

end Statement

/-- The list and the places as those of a `FastTravelUnorderedMap`. -/
def table (e : Event P) : FastTravelUnorderedMap UInt64 P.Handler := ⟨e.callbackList, e.regIDs⟩

variable {e e' : Event P} {cb : P.Handler} {regID : UInt64}

theorem map_fst_raiseFrom (callbackList : List (UInt64 × P.Handler)) (args : P.Args) :
    (raiseFrom callbackList args).map Prod.fst = callbackList := by
  induction callbackList generalizing args with
  | nil => rfl
  | cons cb callbackList ih =>
      rw [raiseFrom]
      cases cb.2 args with
      | returns => rw [List.map_cons, ih]
      | throws => rw [List.map_cons, ih]

theorem table_reg (h : Coherent e.table) (hfresh : e.lastRegID + 1 ∉ e.ids) :
    (e.reg cb).2.table = (e.table.insert (e.lastRegID + 1, cb)).2 := by
  have hnone : e.table.map (e.lastRegID + 1) = none := by
    rw [h.map_eq_none_iff]
    exact fun v hmem => hfresh (List.mem_map.mpr ⟨_, hmem, rfl⟩)
  have hnone' : e.regIDs (e.lastRegID + 1) = none := hnone
  rw [FastTravelUnorderedMap.insert, hnone, reg, hnone']
  rfl

theorem overwrite_eq (index : Nat) : e.overwrite index =
    (e.table.overwrite index).map fun m => { e with callbackList := m.vec, regIDs := m.map } := by
  rw [overwrite, FastTravelUnorderedMap.overwrite]
  change (if index + 1 ≠ e.callbackList.length then _ else _) =
    Except.map _ (if index + 1 ≠ e.callbackList.length then
      (if e.callbackList.length ≤ index then _ else _) else _)
  split_ifs with hend hle
  · rfl
  · have hlast : e.table.vec.getLast? = e.callbackList.getLast? := rfl
    rw [hlast]
    cases e.callbackList.getLast? <;> rfl
  · rfl

theorem unreg_eq_erase (h : e.callbackList.length ≠ 1) (regID : UInt64) :
    e.unreg regID = (e.table.erase regID).map fun m =>
      { e with callbackList := m.vec, regIDs := m.map } := by
  have hlength : e.table.vec.length ≠ 1 := h
  rw [unreg, if_neg h, FastTravelUnorderedMap.erase]
  cases hid : e.regIDs regID with
  | none =>
      have hmap : e.table.map regID = none := hid
      rw [hmap]
      rfl
  | some index =>
      have hmap : e.table.map regID = some index := hid
      rw [hmap]
      dsimp only
      rw [if_neg hlength, overwrite_eq]
      cases e.table.overwrite index <;> rfl

theorem mem_ids : regID ∈ e.ids ↔ ∃ cb, (regID, cb) ∈ e.callbackList := by
  rw [ids, List.mem_map]
  constructor
  · rintro ⟨⟨id, cb⟩, hmem, rfl⟩
    exact ⟨cb, hmem⟩
  · rintro ⟨cb, hmem⟩
    exact ⟨_, hmem, rfl⟩

theorem regIDs_eq_none_iff (h : Coherent e.table) : e.regIDs regID = none ↔ regID ∉ e.ids := by
  rw [mem_ids, not_exists]
  exact h.map_eq_none_iff

theorem filter_of_notMem (h : regID ∉ e.ids) :
    (e.callbackList.filter fun cb => cb.1 ≠ regID) = e.callbackList := by
  rw [List.filter_eq_self]
  intro cb hmem
  apply decide_eq_true
  rintro rfl
  exact h (List.mem_map.mpr ⟨cb, hmem, rfl⟩)

theorem filter_perm {rest : List (UInt64 × P.Handler)} (hnodup : e.ids.Nodup)
    (hperm : e.callbackList.Perm ((regID, cb) :: rest)) :
    rest.Perm (e.callbackList.filter fun cb => cb.1 ≠ regID) := by
  have hids := (hperm.map Prod.fst).nodup_iff.mp hnodup
  rw [List.map_cons, List.nodup_cons] at hids
  have hrest : rest.filter (fun cb => cb.1 ≠ regID) = rest := by
    rw [List.filter_eq_self]
    intro cb hmem
    apply decide_eq_true
    rintro rfl
    exact hids.1 (List.mem_map.mpr ⟨cb, hmem, rfl⟩)
  have hfilter := hperm.filter fun cb => cb.1 ≠ regID
  rw [List.filter_cons_of_neg (by simp), hrest] at hfilter
  exact hfilter.symm

/-- What the end of a registration does to an event. -/
inductive UnregOutcome (e : Event P) (regID : UInt64) (e' : Event P) : Prop
  | shortcut (cb : UInt64 × P.Handler) (hone : e.callbackList = [cb])
      (hnone : e'.callbackList = [])
  | unknown (hmany : e.callbackList.length ≠ 1) (hid : regID ∉ e.ids) (hsame : e' = e)
  | removed (hmany : e.callbackList.length ≠ 1) (hid : regID ∈ e.ids)
      (hperm : e'.callbackList.Perm (e.callbackList.filter fun cb => cb.1 ≠ regID))

theorem unreg_outcome (h : Coherent e.table) (regID : UInt64) :
    ∃ e', e.unreg regID = .ok e' ∧ Coherent e'.table ∧ e'.lastRegID = e.lastRegID ∧
      UnregOutcome e regID e' := by
  by_cases hone : e.callbackList.length = 1
  · obtain ⟨cb, hcb⟩ := List.length_eq_one_iff.mp hone
    exact ⟨_, if_pos hone, coherent_empty, rfl, .shortcut cb hcb rfl⟩
  rw [unreg_eq_erase hone]
  cases hid : e.table.map regID with
  | none =>
      have hnot : regID ∉ e.ids := (regIDs_eq_none_iff h).mp hid
      refine ⟨e, ?_, h, rfl, .unknown hone hnot rfl⟩
      rw [FastTravelUnorderedMap.erase, hid]
      rfl
  | some index =>
      obtain ⟨m, herase, hvec, hcoherent⟩ := h.erase hid
      obtain ⟨cb, hget⟩ := h.getElem?_map hid
      have hperm := swapRemove_perm hget
      rw [← hvec] at hperm
      refine ⟨{ e with callbackList := m.vec, regIDs := m.map }, ?_, hcoherent, rfl, ?_⟩
      · rw [herase]
        rfl
      · exact .removed hone (mem_ids.mpr ⟨cb, List.mem_of_getElem? hget⟩)
          (filter_perm h.nodup hperm)

theorem reg_spec (h : Coherent e.table) (hfresh : e.lastRegID + 1 ∉ e.ids) (cb : P.Handler) :
    Coherent (e.reg cb).2.table ∧
      (e.reg cb).2.callbackList.Perm (((e.reg cb).1, cb) :: e.callbackList) := by
  rw [table_reg h hfresh]
  exact ⟨h.insert _, List.perm_append_singleton _ _⟩

theorem actsAsMap_iff (h : Coherent e.table) (act : Act P) :
    e.ActsAsMap act ↔ e.Harmless act := by
  cases act with
  | reg cb => exact and_iff_left_of_imp fun hfresh => (reg_spec h hfresh cb).2
  | raise args => exact iff_of_true ⟨h.nodup, map_fst_raiseFrom _ _⟩ trivial
  | unreg regID =>
      obtain ⟨e', hunreg, -, -, houtcome⟩ := unreg_outcome h regID
      have hiff : e.ActsAsMap (.unreg regID) ↔
          e'.callbackList.Perm (e.callbackList.filter fun cb => cb.1 ≠ regID) ∧
            (regID ∉ e.ids → e' = e) := by
        constructor
        · rintro ⟨e'', hunreg', hmap⟩
          obtain rfl := Except.ok.inj (hunreg.symm.trans hunreg')
          exact hmap
        · exact fun hmap => ⟨e', hunreg, hmap⟩
      rw [hiff]
      cases houtcome with
      | unknown hmany hid hsame =>
          rw [hsame, filter_of_notMem hid]
          refine iff_of_true ⟨List.Perm.refl _, fun _ => rfl⟩ fun cb hone => ?_
          rw [hone] at hmany
          exact absurd rfl hmany
      | removed hmany hid hperm =>
          refine iff_of_true ⟨hperm, absurd hid⟩ fun cb hone => ?_
          rw [hone] at hmany
          exact absurd rfl hmany
      | shortcut cb hone hnone =>
          have hharmless : e.Harmless (.unreg regID) ↔ cb.1 = regID := by
            change (∀ cb, e.callbackList = [cb] → cb.1 = regID) ↔ _
            rw [hone]
            exact ⟨fun hlast => hlast cb rfl, fun hid cb' hcb => List.singleton_inj.mp hcb ▸ hid⟩
          rw [hharmless, hone, hnone, List.nil_perm, List.filter_eq_nil_iff]
          constructor
          · rintro ⟨hid, -⟩
            simpa using hid cb (List.mem_singleton.mpr rfl)
          · intro hid
            refine ⟨fun cb' hmem => ?_, fun hnot => absurd ?_ hnot⟩
            · rw [List.mem_singleton.mp hmem]
              simpa using hid
            · rw [ids, hone, ← hid]
              exact List.mem_singleton.mpr rfl

theorem coherent_step (h : Coherent e.table) {act : Act P} (hharmless : e.Harmless act)
    (hstep : (system P).step e act = .ok e') : Coherent e'.table := by
  cases act with
  | reg cb =>
      obtain rfl := Except.ok.inj hstep
      exact (reg_spec h hharmless cb).1
  | raise args =>
      obtain rfl := Except.ok.inj hstep
      exact h
  | unreg regID =>
      obtain ⟨e'', hunreg, hcoherent, -, -⟩ := unreg_outcome h regID
      obtain rfl := Except.ok.inj (hunreg.symm.trans hstep)
      exact hcoherent

theorem fits_actsAsMap_iff (h : Coherent e.table) (acts : List (Act P)) :
    (system P).Fits ActsAsMap e acts ↔ (system P).Fits Harmless e acts :=
  System.fits_congr (fun e => Coherent e.table) (fun _ act he _ => actsAsMap_iff he act)
    (fun _ _ _ he _ hharmless hstep => coherent_step he hharmless hstep) h

theorem UnregOutcome.subset (h : UnregOutcome e regID e') : e'.ids ⊆ e.ids := by
  cases h with
  | shortcut cb hone hnone =>
      rw [ids, hnone]
      exact List.nil_subset _
  | unknown hmany hid hsame =>
      rw [hsame]
      exact List.Subset.refl _
  | removed hmany hid hperm =>
      exact List.map_subset _ (List.Subset.trans hperm.subset (List.filter_subset_self _))

theorem toNat_reg (h : e.lastRegID.toNat + 1 < UInt64.size) :
    (e.lastRegID + 1).toNat = e.lastRegID.toNat + 1 := by
  rw [UInt64.toNat_add]
  exact Nat.mod_eq_of_lt h

theorem fits_harmless_iff_of_few (h : Coherent e.table) {acts : List (Act P)}
    (hids : ∀ id ∈ e.ids, id.toNat ≤ e.lastRegID.toNat)
    (hfew : e.lastRegID.toNat + acts.length < UInt64.size) :
    (system P).Fits Harmless e acts ↔ (system P).Fits MeetsOwn e acts := by
  induction acts generalizing e with
  | nil => exact Iff.rfl
  | cons act acts ih =>
      rw [List.length_cons] at hfew
      cases act with
      | reg cb =>
          have hnext : (e.lastRegID + 1).toNat = e.lastRegID.toNat + 1 := toNat_reg (by omega)
          have hfresh : e.lastRegID + 1 ∉ e.ids := by
            intro hmem
            have := hids _ hmem
            omega
          have hids' : ∀ id ∈ (e.reg cb).2.ids, id.toNat ≤ (e.reg cb).2.lastRegID.toNat := by
            intro id hmem
            change id.toNat ≤ (e.lastRegID + 1).toNat
            have hmem' := ((reg_spec h hfresh cb).2.map Prod.fst).mem_iff.mp hmem
            rcases List.mem_cons.mp hmem' with rfl | hold
            · exact Nat.le_refl _
            · have := hids id hold
              omega
          have hfew' : (e.reg cb).2.lastRegID.toNat + acts.length < UInt64.size := by
            change (e.lastRegID + 1).toNat + _ < _
            omega
          have hrest := ih (reg_spec h hfresh cb).1 hids' hfew'
          exact and_congr_right fun _ => and_congr (iff_of_true hfresh trivial) hrest
      | raise args =>
          have hrest := ih h hids (by omega)
          exact and_congr_right fun _ => and_congr_right fun _ => hrest
      | unreg regID =>
          obtain ⟨e', hunreg, hcoherent, hlast, houtcome⟩ := unreg_outcome h regID
          rw [← hlast] at hids hfew
          have hrest := ih hcoherent (fun id hmem => hids id (houtcome.subset hmem)) (by omega)
          refine and_congr_right fun _ => and_congr_right fun _ => ?_
          have hstep : (system P).step e (.unreg regID) = .ok e' := hunreg
          rw [hstep]
          exact hrest

section Raising

variable {args : P.Args}

theorem forwarded_eq_iff :
    P.forwarded args = args ↔ ∀ i, P.byValue i = true → P.movedFrom i (args i) = args i := by
  rw [funext_iff]
  refine forall_congr' fun i => ?_
  rw [Params.forwarded]
  split_ifs with hvalue
  · exact ⟨fun hsame _ => hsame, fun hsame => hsame hvalue⟩
  · exact iff_of_true rfl fun hvalue' => absurd hvalue' hvalue

theorem raiseFrom_cons (cb : UInt64 × P.Handler) (callbackList : List (UInt64 × P.Handler)) :
    raiseFrom (cb :: callbackList) args =
      (cb, args) :: raiseFrom callbackList (P.forwarded args) := by
  rw [raiseFrom]
  cases cb.2 args <;> rfl

theorem raiseFrom_of_forwarded (h : P.forwarded args = args)
    (callbackList : List (UInt64 × P.Handler)) :
    raiseFrom callbackList args = callbackList.map fun cb => (cb, args) := by
  induction callbackList with
  | nil => rfl
  | cons cb callbackList ih => rw [raiseFrom_cons, h, ih, List.map_cons]

/-- All handlers see what the event is raised with exactly when there are not two of them, or
when nothing that is passed by value is changed by a move. -/
theorem callsAllWith_iff (e : Event P) (args : P.Args) :
    e.CallsAllWith args ↔ e.callbackList.length ≤ 1 ∨
      ∀ i, P.byValue i = true → P.movedFrom i (args i) = args i := by
  rw [← forwarded_eq_iff, CallsAllWith, raise]
  cases hlist : e.callbackList with
  | nil => exact iff_of_true rfl (.inl (Nat.zero_le _))
  | cons cb rest =>
      cases rest with
      | nil => exact iff_of_true (raiseFrom_cons cb []) (.inl (Nat.le_refl _))
      | cons cb' rest =>
          constructor
          · intro hcalls
            rw [raiseFrom_cons, raiseFrom_cons, List.map_cons, List.map_cons] at hcalls
            have hsecond := (List.cons.inj (List.cons.inj hcalls).2).1
            exact .inr (congrArg Prod.snd hsecond)
          · rintro (hone | hsame)
            · exact absurd hone (by simp)
            · exact raiseFrom_of_forwarded hsame _

/-- The parameter of `e_newConn` is a pointer to a connection, which is null once it has been
moved. -/
def newConnParams : Params where
  count := 1
  type _ := Option Nat
  byValue _ := true
  movedFrom _ _ := none

/-- Two handlers of `e_newConn`, of which the first throws. -/
theorem secondHandler_not_callsAllWith :
    ¬ ((({} : Event newConnParams).reg fun _ => .throws).2.reg fun _ => .returns).2.CallsAllWith
      (fun _ => some 7) := by
  intro h
  have hsecond := (List.cons.inj (List.cons.inj h).2).1
  have hmoved := congrFun (congrArg Prod.snd hsecond) (⟨0, Nat.one_pos⟩ : Fin 1)
  cases hmoved

end Raising

end Event

end CasualGame.Componet
