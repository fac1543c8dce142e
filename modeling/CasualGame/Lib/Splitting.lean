import Mathlib.Data.List.Infix

/-!
Texts that are cut at a delimiter.
-/

namespace CasualGame.Lib.Splitting

universe u

variable {α : Type u} {d s a b : List α} {ps qs : List (List α)}

/-- The text is cut at the occurrences of `d` that do not overlap, each time at the first one
there is. -/
inductive Cut (d : List α) : List α → List (List α) → Prop
  | last {s : List α} (hnone : ¬ d <:+: s) : Cut d s [s]
  | cons {a s : List α} {ps : List (List α)}
      (hfirst : ∀ i < a.length, ¬ d <+: (a ++ d ++ s).drop i) (hcut : Cut d s ps) :
      Cut d (a ++ d ++ s) (a :: ps)

theorem infix_append_append (a d s : List α) : d <:+: a ++ d ++ s := ⟨a, s, rfl⟩

theorem Cut.ne_nil (h : Cut d s ps) : ps ≠ [] := by
  cases h <;> exact List.cons_ne_nil _ _

/-- Of two first occurrences neither is before the other. -/
theorem length_le_of_first {a' s' : List α}
    (hfirst : ∀ i < a'.length, ¬ d <+: (a' ++ d ++ s').drop i)
    (heq : a ++ d ++ s = a' ++ d ++ s') : a'.length ≤ a.length := by
  refine Nat.le_of_not_lt fun hlt => hfirst a.length hlt ?_
  rw [← heq, List.append_assoc, List.drop_left]
  exact List.prefix_append d s

theorem Cut.unique (h : Cut d s ps) (h' : Cut d s qs) : ps = qs := by
  induction h generalizing qs with
  | last hnone =>
      cases h' with
      | last => rfl
      | cons => exact absurd (infix_append_append ..) hnone
  | @cons a s ps hfirst _ ih =>
      generalize ht : a ++ d ++ s = t at h'
      cases h' with
      | last hnone => exact absurd (ht ▸ infix_append_append a d s) hnone
      | @cons a' s' qs hfirst' hcut' =>
          have hlength : a.length = a'.length := Nat.le_antisymm
            (length_le_of_first hfirst ht.symm) (length_le_of_first hfirst' ht)
          rw [List.append_assoc, List.append_assoc] at ht
          obtain ⟨rfl, hrest⟩ := List.append_inj ht hlength
          obtain rfl := List.append_cancel_left hrest
          rw [ih hcut']

/-- No piece contains the delimiter. -/
theorem Cut.not_infix (hd : d ≠ []) (h : Cut d s ps) : ∀ p ∈ ps, ¬ d <:+: p := by
  induction h with
  | last hnone =>
      intro p hp
      rw [List.mem_singleton.mp hp]
      exact hnone
  | @cons a s ps hfirst _ ih =>
      intro p hp
      rcases List.mem_cons.mp hp with rfl | hp
      · rintro ⟨before, after, rfl⟩
        have hpos := List.length_pos_of_ne_nil hd
        refine hfirst before.length (by simp only [List.length_append]; omega) ?_
        rw [List.append_assoc, List.append_assoc, List.append_assoc, List.drop_left]
        exact List.prefix_append ..
      · exact ih p hp

/-- With the delimiters put back between the pieces it is the text again. -/
theorem Cut.intercalate_eq (h : Cut d s ps) : d.intercalate ps = s := by
  induction h with
  | last => exact List.append_nil _
  | @cons a s ps _ hcut ih =>
      obtain ⟨p, ps, rfl⟩ := List.exists_cons_of_ne_nil hcut.ne_nil
      rw [← ih, List.append_assoc]
      rfl

/-- A delimiter of one letter. -/
theorem Cut.cons_of_not_mem {c : α} (ha : c ∉ a) (h : Cut [c] s ps) :
    Cut [c] (a ++ c :: s) (a :: ps) := by
  have hcut : Cut [c] (a ++ [c] ++ s) (a :: ps) := by
    refine .cons (fun i hi hprefix => ha ?_) h
    rw [List.append_assoc, List.drop_append_of_le_length hi.le] at hprefix
    obtain ⟨x, l, hx⟩ := List.exists_cons_of_length_pos
      (show 0 < (a.drop i).length by rw [List.length_drop]; omega)
    rw [hx] at hprefix
    obtain rfl := (List.cons_prefix_cons.mp hprefix).1
    exact List.mem_of_mem_drop (hx ▸ List.mem_cons_self)
  rwa [List.append_assoc] at hcut

theorem Cut.last_of_not_mem {c : α} (hs : c ∉ s) : Cut [c] s [s] :=
  .last fun hpart => hs (hpart.subset (List.mem_singleton_self c))

end CasualGame.Lib.Splitting
