import Mathlib.Algebra.BigOperators.Group.List.Basic
import Mathlib.Algebra.BigOperators.Group.Finset.Piecewise
import Mathlib.Algebra.Group.Action.Defs
import Mathlib.Algebra.Order.Group.Int
import Mathlib.Tactic.Ring
import Std.Data.TreeMap

namespace CasualGame.Lib.Ledger

/-- A payment between two numbered accounts. -/
structure Transfer where
  payee : Nat
  payer : Nat
  amount : Int

def Transfer.apply (t : Transfer) (balances : List Int) : List Int :=
  (balances.modify t.payee (· + t.amount)).modify t.payer (· - t.amount)

def Transfer.net (t : Transfer) (k : Nat) : Int :=
  (if t.payee = k then t.amount else 0) - (if t.payer = k then t.amount else 0)

def applyAll (ts : List Transfer) (balances : List Int) : List Int :=
  ts.foldl (fun b t => t.apply b) balances

@[simp] theorem Transfer.length_apply (t : Transfer) (b : List Int) :
    (t.apply b).length = b.length := by
  simp [Transfer.apply]

theorem Transfer.getElem?_apply (t : Transfer) (b : List Int) (k : Nat) :
    (t.apply b)[k]? = b[k]?.map (· + t.net k) := by
  simp only [Transfer.apply, List.getElem?_modify, Transfer.net]
  cases b[k]? with
  | none => rfl
  | some x =>
      simp only [Option.map_eq_map, Option.map_some, Option.some.injEq]
      split <;> split <;> ring

theorem getElem?_applyAll (ts : List Transfer) (b : List Int) (k : Nat) :
    (applyAll ts b)[k]? = b[k]?.map (· + (ts.map (·.net k)).sum) := by
  induction ts generalizing b with
  | nil => simp [applyAll]
  | cons t ts ih =>
      show (applyAll ts (t.apply b))[k]? = _
      rw [ih, t.getElem?_apply]
      cases b[k]? with
      | none => rfl
      | some x => simp [add_assoc]

theorem sum_modify_add {b : List Int} {k : Nat} (hk : k < b.length) (x : Int) :
    (b.modify k (· + x)).sum = b.sum + x := by
  induction b generalizing k with
  | nil => simp at hk
  | cons y b ih =>
      cases k with
      | zero => simp [List.modify_zero_cons]; ring
      | succ k =>
          simp only [List.modify_succ_cons, List.sum_cons]
          rw [ih (by simpa using hk)]
          ring

theorem Transfer.sum_apply {t : Transfer} {b : List Int} (hp : t.payee < b.length)
    (hq : t.payer < b.length) : (t.apply b).sum = b.sum := by
  have hdebit : (fun x : Int => x - t.amount) = (· + -t.amount) := by
    funext x
    ring
  rw [Transfer.apply, hdebit, sum_modify_add (by simpa using hq), sum_modify_add hp]
  ring

theorem sum_applyAll {ts : List Transfer} {b : List Int}
    (hts : ∀ t ∈ ts, t.payee < b.length ∧ t.payer < b.length) :
    (applyAll ts b).sum = b.sum := by
  induction ts generalizing b with
  | nil => rfl
  | cons t ts ih =>
      have ht := hts t (by simp)
      calc
        (applyAll (t :: ts) b).sum = (applyAll ts (t.apply b)).sum := rfl
        _ = (t.apply b).sum := ih fun t' h' => by
          simpa using hts t' (by simp [h'])
        _ = b.sum := Transfer.sum_apply ht.1 ht.2

section TreeSum

variable {β : Type*} {M : Type*} [AddCommMonoid M]

/-- Summing over the entries of a map with keys below `n` is summing over the
keys below `n`. -/
theorem sum_toList_map (m : Std.TreeMap Nat β) {n : Nat} (hkeys : ∀ k ∈ m, k < n)
    (f : Nat → β → M) :
    (m.toList.map fun e => f e.1 e.2).sum =
      ∑ k ∈ Finset.range n, (m[k]?).elim 0 (f k) := by
  have hnodup : (m.toList.map (·.1)).Nodup := by
    rw [List.nodup_iff_pairwise_ne, List.pairwise_map]
    exact m.distinct_keys_toList.imp fun h heq => h (by simp [heq])
  have hlook : ∀ e ∈ m.toList, m[e.1]? = some e.2 := fun e he =>
    Std.TreeMap.mem_toList_iff_getElem?_eq_some.mp he
  have hsub : (m.toList.map (·.1)).toFinset ⊆ Finset.range n := by
    intro k hk
    simp only [List.mem_toFinset, List.mem_map] at hk
    obtain ⟨e, he, rfl⟩ := hk
    have := hlook e he
    exact Finset.mem_range.mpr (hkeys _ (Std.TreeMap.mem_iff_isSome_getElem?.mpr (by simp [this])))
  have hzero : ∀ k ∈ Finset.range n, k ∉ (m.toList.map (·.1)).toFinset →
      (m[k]?).elim 0 (f k) = 0 := by
    intro k _ hk
    cases hb : m[k]? with
    | none => rfl
    | some b =>
        refine absurd ?_ hk
        simp only [List.mem_toFinset, List.mem_map]
        exact ⟨(k, b), Std.TreeMap.mem_toList_iff_getElem?_eq_some.mpr hb, rfl⟩
  calc
    (m.toList.map fun e => f e.1 e.2).sum =
        ((m.toList.map (·.1)).map fun k => (m[k]?).elim 0 (f k)).sum := by
      rw [List.map_map]
      congr 1
      apply List.map_congr_left
      intro e he
      simp [hlook e he]
    _ = ∑ k ∈ (m.toList.map (·.1)).toFinset, (m[k]?).elim 0 (f k) :=
      (List.sum_toFinset _ hnodup).symm
    _ = ∑ k ∈ Finset.range n, (m[k]?).elim 0 (f k) := Finset.sum_subset hsub hzero

/-- A map with keys below `n` has as many entries as there are keys below `n`
it holds. -/
theorem size_eq_card (m : Std.TreeMap Nat β) {n : Nat} (hkeys : ∀ k ∈ m, k < n) :
    m.size = ((Finset.range n).filter (· ∈ m)).card := by
  have hsum := sum_toList_map m hkeys (fun _ _ => (1 : Nat))
  simp only [List.map_const', List.sum_replicate, smul_eq_mul, mul_one,
    Std.TreeMap.length_toList] at hsum
  rw [hsum, Finset.card_filter]
  apply Finset.sum_congr rfl
  intro k _
  simp only [Std.TreeMap.mem_iff_isSome_getElem?]
  cases m[k]? <;> rfl

end TreeSum

end CasualGame.Lib.Ledger
