import Mathlib.Data.List.Basic
import Mathlib.Data.List.Range

namespace CasualGame.Lib.Loop

universe u v

variable {ι : Type u} {σ : Type v}

/-- A `for` loop over a list of indices whose body may leave it early:
`.yield` goes on to the next index, `.done` is a `break`. -/
def forBreak (body : ι → σ → ForInStep σ) : List ι → σ → σ
  | [], s => s
  | i :: is, s =>
      match body i s with
      | .done s' => s'
      | .yield s' => forBreak body is s'

def result : ForInStep σ → σ
  | .done s => s
  | .yield s => s

/-- A property that every pass keeps holds after the loop. -/
theorem forBreak_invariant {body : ι → σ → ForInStep σ} {Inv : σ → Prop}
    {is : List ι} (hbody : ∀ i ∈ is, ∀ s, Inv s → Inv (result (body i s)))
    {s : σ} (hs : Inv s) : Inv (forBreak body is s) := by
  induction is generalizing s with
  | nil => exact hs
  | cons i is ih =>
      have hstep := hbody i (by simp) s hs
      simp only [forBreak]
      cases hb : body i s with
      | done s' => simpa [result, hb] using hstep
      | yield s' =>
          exact ih (fun k hk => hbody k (by simp [hk])) (by simpa [result, hb] using hstep)

/-- When the decision to break depends on the index alone, the loop is the plain
fold over the indices before the first break. The invariant carries what the
passes may assume about the state. -/
theorem forBreak_eq_foldl_takeWhile {body : ι → σ → ForInStep σ} (Inv : σ → Prop)
    (go : ι → Bool) (act : ι → σ → σ) {is : List ι}
    (hbody : ∀ i ∈ is, ∀ s, Inv s →
      body i s = if go i then .yield (act i s) else .done s)
    (hact : ∀ i ∈ is, ∀ s, Inv s → Inv (act i s))
    {s : σ} (hs : Inv s) :
    forBreak body is s = (is.takeWhile go).foldl (fun s i => act i s) s := by
  induction is generalizing s with
  | nil => rfl
  | cons i is ih =>
      simp only [forBreak, hbody i (by simp) s hs]
      cases hgo : go i with
      | false => simp [hgo]
      | true =>
          simp only [if_true, List.takeWhile_cons, hgo, List.foldl_cons]
          exact ih (fun k hk => hbody k (by simp [hk]))
            (fun k hk => hact k (by simp [hk])) (hact i (by simp) s hs)

/-- The indices a counting loop reaches: those with no break at or before them. -/
theorem mem_takeWhile_range' {go : Nat → Bool} {start len j : Nat} :
    j ∈ (List.range' start len).takeWhile go ↔
      start ≤ j ∧ j < start + len ∧ ∀ k, start ≤ k → k ≤ j → go k = true := by
  induction len generalizing start with
  | zero => simp; omega
  | succ len ih =>
      rw [List.range'_succ, List.takeWhile_cons]
      cases hgo : go start with
      | false =>
          simp only [Bool.false_eq_true, if_false, List.not_mem_nil, false_iff]
          rintro ⟨hle, -, hall⟩
          simp [hall start le_rfl hle] at hgo
      | true =>
          simp only [if_true, List.mem_cons, ih]
          constructor
          · rintro (rfl | ⟨hle, hlt, hall⟩)
            · refine ⟨le_rfl, by omega, fun k hk hkj => ?_⟩
              rwa [show k = j by omega]
            · refine ⟨by omega, by omega, fun k hk hkj => ?_⟩
              rcases Nat.eq_or_lt_of_le hk with rfl | hk
              · exact hgo
              · exact hall k hk hkj
          · rintro ⟨hle, hlt, hall⟩
            rcases Nat.eq_or_lt_of_le hle with rfl | hle
            · exact Or.inl rfl
            · exact Or.inr ⟨hle, by omega, fun k hk hkj => hall k (by omega) hkj⟩

section UpTo

variable {stop stop' : ι → Bool}

/-- The indices reached by a loop that deals with the first index to stop at and then
breaks. -/
def upTo (stop : ι → Bool) : List ι → List ι
  | [] => []
  | i :: is => if stop i then [i] else i :: upTo stop is

theorem upTo_sublist (stop : ι → Bool) (is : List ι) : (upTo stop is).Sublist is := by
  induction is with
  | nil => exact List.Sublist.refl []
  | cons i is ih =>
      rw [upTo]
      split_ifs
      · exact List.Sublist.cons_cons i (List.nil_sublist is)
      · exact List.Sublist.cons_cons i ih

theorem upTo_congr {is : List ι} (h : ∀ i ∈ is, stop i = stop' i) :
    upTo stop is = upTo stop' is := by
  induction is with
  | nil => rfl
  | cons i is ih => rw [upTo, upTo, h i (by simp), ih fun k hk => h k (by simp [hk])]

/-- No index is skipped that the loop would have gone on from, as long as none comes
after one to stop at. -/
theorem mem_upTo_iff_pairwise {is : List ι} (his : is.Nodup) :
    (∀ i ∈ is, stop i = false → i ∈ upTo stop is) ↔
      is.Pairwise fun i j => stop i = true → stop j = true := by
  induction is with
  | nil => simp
  | cons i is ih =>
      obtain ⟨hnotin, hnodup⟩ := List.nodup_cons.mp his
      rw [List.pairwise_cons, upTo]
      cases hi : stop i with
      | true =>
          simp only [if_true, List.mem_singleton, true_implies]
          constructor
          · intro h
            have hall : ∀ j ∈ is, stop j = true := by
              intro j hj
              by_contra hstop
              have heq := h j (List.mem_cons_of_mem i hj) (Bool.eq_false_iff.mpr hstop)
              exact hnotin (heq ▸ hj)
            exact ⟨hall, List.Pairwise.imp_of_mem (fun _ hj _ _ => hall _ hj)
              (List.pairwise_of_forall (R := fun _ _ => True) fun _ _ => trivial)⟩
          · rintro ⟨hall, -⟩ j hj hstop
            rcases List.mem_cons.mp hj with rfl | hj
            · rfl
            · rw [hall j hj] at hstop
              cases hstop
      | false =>
          simp only [Bool.false_eq_true, if_false, false_implies, implies_true, true_and,
            ← ih hnodup]
          constructor
          · intro h j hj hstop
            rcases List.mem_cons.mp (h j (List.mem_cons_of_mem i hj) hstop) with rfl | hmem
            · exact absurd hj hnotin
            · exact hmem
          · intro h j hj hstop
            rcases List.mem_cons.mp hj with rfl | hj
            · exact List.mem_cons_self
            · exact List.mem_cons_of_mem i (h j hj hstop)

end UpTo

end CasualGame.Lib.Loop
