import Mathlib.Data.List.Perm.Basic
import CasualGame.Componet.RoundTrip

/-!
What is left of an object when another value is read into it.
-/

namespace CasualGame.Componet.Serialization

open Lib.Decoding

section Statement

/-- No `forward_list` that is read into holds anything before. The items of a vector are
read into as far as it goes; most other containers are cleared first. -/
def Ty.Clean : (t : Ty) → t.carrier → t.carrier → Prop
  | key _, _, _ => True
  | pair first second, old, x => first.Clean old.1 x.1 ∧ second.Clean old.2 x.2
  | sequence c item, olds, xs =>
      match c with
      | .vector => ∀ ox ∈ olds.zip xs, item.Clean ox.1 ox.2
      | .basicString => ∀ ox ∈ olds.zip xs, item.Clean ox.1 ox.2
      | .list => True
      | .deque => True
      | .forwardList => olds = []
  | set _ _, _, _ => True
  | map _ _ _, _, _ => True
  | unorderedSet _ _, _, _ => True
  | unorderedMap _ _ _, _, _ => True

/-- Wherever the bytes of `x` stand, an object with the value `old` equals a new one after
they have been read into both. -/
def Overwrites (p : Platform) (t : Ty) (old x : t.carrier) : Prop :=
  ∀ before after, ∃ y y',
    (t.get p old : Deserialize t.carrier) (before ++ t.bytes x ++ after) before.length =
      some (y, before.length + (t.bytes x).length) ∧
    (t.get p (t.fresh p) : Deserialize t.carrier) (before ++ t.bytes x ++ after) before.length =
      some (y', before.length + (t.bytes x).length) ∧ t.Same y y'

end Statement

section Equality

variable {α : Type} {same : α → α → Prop} {xs ys zs : List α}

theorem forall₂_symm (h : ∀ y x, same y x → same x y) (hys : List.Forall₂ same ys xs) :
    List.Forall₂ same xs ys :=
  hys.flip.imp fun x y hxy => h y x hxy

theorem forall₂_trans (h : ∀ z y x, same z y → same y x → same z x)
    (hzs : List.Forall₂ same zs ys) (hys : List.Forall₂ same ys xs) :
    List.Forall₂ same zs xs := by
  induction hzs generalizing xs with
  | nil => exact hys
  | cons hzy _ ih =>
      cases hys with
      | cons hyx hys => exact .cons (h _ _ _ hzy hyx) (ih hys)

theorem exists_perm_forall₂ (hys : List.Forall₂ same ys xs) (hperm : xs.Perm zs) :
    ∃ ws, ys.Perm ws ∧ List.Forall₂ same ws zs := by
  have hcomp : Relation.Comp (List.Forall₂ same) List.Perm ys zs := ⟨xs, hys, hperm⟩
  rwa [List.forall₂_comp_perm_eq_perm_comp_forall₂] at hcomp

theorem entries_symm {β : Type} {same : β → β → Prop} (h : ∀ y x, same y x → same x y)
    (y x : List UInt8 × β) (hyx : y.1 = x.1 ∧ same y.2 x.2) : x.1 = y.1 ∧ same x.2 y.2 :=
  ⟨hyx.1.symm, h _ _ hyx.2⟩

theorem entries_trans {β : Type} {same : β → β → Prop}
    (h : ∀ z y x, same z y → same y x → same z x) (z y x : List UInt8 × β)
    (hzy : z.1 = y.1 ∧ same z.2 y.2) (hyx : y.1 = x.1 ∧ same y.2 x.2) :
    z.1 = x.1 ∧ same z.2 x.2 :=
  ⟨hzy.1.trans hyx.1, h _ _ _ hzy.2 hyx.2⟩

theorem Ty.Same.symm {t : Ty} (y x : t.carrier) (h : t.Same y x) : t.Same x y := by
  induction t with
  | key k => exact Eq.symm h
  | pair first second ih ih' => exact ⟨ih _ _ h.1, ih' _ _ h.2⟩
  | sequence c item ih => exact forall₂_symm ih h
  | set keys item ih => exact forall₂_symm ih h
  | map keys k value ih => exact forall₂_symm (entries_symm ih) h
  | unorderedSet keys item => exact List.Perm.symm h
  | unorderedMap keys k value ih =>
      obtain ⟨zs, hperm, hzs⟩ := h
      exact exists_perm_forall₂ (forall₂_symm (entries_symm ih) hzs) hperm.symm

theorem Ty.Same.trans {t : Ty} (z y x : t.carrier) (h : t.Same z y) (h' : t.Same y x) :
    t.Same z x := by
  induction t with
  | key k => exact Eq.trans h h'
  | pair first second ih ih' => exact ⟨ih _ _ _ h.1 h'.1, ih' _ _ _ h.2 h'.2⟩
  | sequence c item ih => exact forall₂_trans ih h h'
  | set keys item ih => exact forall₂_trans ih h h'
  | map keys k value ih => exact forall₂_trans (entries_trans ih) h h'
  | unorderedSet keys item => exact List.Perm.trans h h'
  | unorderedMap keys k value ih =>
      obtain ⟨zs, hzperm, hzs⟩ := h
      obtain ⟨ys, hyperm, hys⟩ := h'
      obtain ⟨ws, hwperm, hws⟩ := exists_perm_forall₂ hzs hyperm
      exact ⟨ws, hzperm.trans hwperm, forall₂_trans (entries_trans ih) hws hys⟩

end Equality

section Parts

variable {α : Type} {same : α → α → Prop} {bytes : α → List UInt8} {get : α → Deserialize α}
  {fresh : α} {olds xs : List α}

theorem exists_places (fresh : α) (olds xs : List α) :
    ∃ places : List (α × α), places.map Prod.snd = xs ∧
      places.map Prod.fst = resize xs.length fresh olds ∧
      ∃ rest, places = olds.zip xs ++ rest ∧ ∀ ox ∈ rest, ox.1 = fresh := by
  induction olds generalizing xs with
  | nil =>
      refine ⟨xs.map (fresh, ·), ?_, ?_, _, (List.nil_append _).symm, ?_⟩
      · rw [List.map_map]
        exact List.map_id xs
      · rw [List.map_map, resize_nil]
        exact List.map_const
      · intro ox hox
        obtain ⟨x, -, rfl⟩ := List.mem_map.mp hox
        rfl
  | cons o olds ih =>
      rcases xs with _ | ⟨x, xs⟩
      · exact ⟨[], rfl, by simp [resize], [], rfl, by simp⟩
      · obtain ⟨places, hsnd, hfst, rest, hplaces, hrest⟩ := ih xs
        refine ⟨(o, x) :: places, by rw [List.map_cons, hsnd], ?_, rest, ?_, hrest⟩
        · rw [List.map_cons, hfst]
          simp [resize]
        · rw [hplaces]
          rfl

theorem forall₂_iff {β : Type} {R : α → β → Prop} {Q : β → Prop} {ys : List α} {places : List β}
    (h : List.Forall₂ (fun y place => R y place ↔ Q place) ys places) :
    List.Forall₂ R ys places ↔ ∀ place ∈ places, Q place := by
  induction h with
  | nil => exact iff_of_true .nil fun _ hmem => absurd hmem List.not_mem_nil
  | cons hy _ ih => rw [List.forall₂_cons, List.forall_mem_cons, hy, ih]

theorem reads_vector {clean : α → α → Prop} (hsize : xs.length < maxSize)
    (hold : ∀ o ∈ olds, ∀ x ∈ xs, Reads (get o) (bytes x) fun y => same y x ↔ clean o x)
    (hfresh : ∀ x ∈ xs, Reads (get fresh) (bytes x) fun y => same y x) :
    Reads (deserializeRandomAccessContainer get fresh olds) (containerBytes bytes xs) fun ys =>
      List.Forall₂ same ys xs ↔ ∀ ox ∈ olds.zip xs, clean ox.1 ox.2 := by
  obtain ⟨places, hsnd, hfst, rest, hplaces, hrest⟩ := exists_places fresh olds xs
  refine (reads_places (P := fun ox y => same y ox.2 ↔ ox ∈ olds.zip xs → clean ox.1 ox.2)
    hsnd hfst hsize fun ox hox => ?_).mono fun ys hys => ?_
  · have hx : ox.2 ∈ xs := by
      rw [← hsnd]
      exact List.mem_map_of_mem hox
    rcases Classical.em (ox ∈ olds.zip xs) with hzip | hzip
    · refine (hold ox.1 (List.of_mem_zip hzip).1 ox.2 hx).mono fun y hy => ?_
      rw [hy]
      exact ⟨fun h _ => h, fun h => h hzip⟩
    · rw [hplaces] at hox
      rw [hrest ox ((List.mem_append.mp hox).resolve_left hzip)]
      exact (hfresh ox.2 hx).mono fun y hy => iff_of_true hy fun h => absurd h hzip
  · have hsame : List.Forall₂ same ys xs ↔ List.Forall₂ (fun y ox => same y ox.2) ys places := by
      rw [← hsnd, List.forall₂_map_right_iff]
    rw [hsame, forall₂_iff hys]
    constructor
    · intro hall ox hzip
      apply hall ox _ hzip
      rw [hplaces]
      exact List.mem_append_left rest hzip
    · exact fun hall ox _ hzip => hall ox hzip

end Parts

section Types

variable (p : Platform)

theorem Ty.reads_old (t : Ty) (old x : t.carrier) (hold : t.Valid old) (h : t.Valid x) :
    Reads (t.get p old) (t.bytes x) fun y => t.Same y x ↔ t.Clean old x := by
  induction t with
  | key k =>
      refine Reads.mono ?_ fun y hy => iff_of_true hy trivial
      cases k with
      | scalar s => exact reads_getScalar (hold.trans h.symm)
      | string => exact reads_getString h
  | pair first second ih ih' =>
      refine (reads_getPair (ih _ _ hold.1 h.1) (ih' _ _ hold.2 h.2)).mono fun y hy => ?_
      exact and_congr hy.1 hy.2
  | sequence c item ih =>
      have hfresh := fun x hx => item.reads p x (h.2 x hx)
      have hplaces := reads_vector h.1 (fun o ho x hx => ih o x (hold.2 o ho) (h.2 x hx)) hfresh
      cases c with
      | vector => exact hplaces
      | basicString => exact hplaces
      | list =>
          exact ((Ty.sequence .list item).reads p x h).mono fun y hy => iff_of_true hy trivial
      | deque =>
          exact ((Ty.sequence .deque item).reads p x h).mono fun y hy => iff_of_true hy trivial
      | forwardList =>
          refine (reads_forwardList_behind h.1 hfresh).mono ?_
          rintro y ⟨zs, hzs, rfl⟩
          constructor
          · intro hsame
            have hlength := hsame.length_eq
            rw [List.length_append, hzs.length_eq] at hlength
            exact List.length_eq_zero_iff.mp (by omega)
          · rintro rfl
            rwa [List.append_nil]
  | set keys item ih =>
      exact ((Ty.set keys item).reads p x h).mono fun y hy => iff_of_true hy trivial
  | map keys k value ih =>
      exact ((Ty.map keys k value).reads p x h).mono fun y hy => iff_of_true hy trivial
  | unorderedSet keys item =>
      exact ((Ty.unorderedSet keys item).reads p x h).mono fun y hy => iff_of_true hy trivial
  | unorderedMap keys k value ih =>
      exact ((Ty.unorderedMap keys k value).reads p x h).mono fun y hy => iff_of_true hy trivial

/-- Nothing of what an object was before is left in it exactly when it is clean. -/
theorem overwrites_iff (t : Ty) (old x : Value t) :
    Overwrites p t old.data x.data ↔ t.Clean old.data x.data := by
  have hold := t.reads_old p old.data x.data old.valid x.valid
  have hfresh := t.reads p x.data x.valid
  constructor
  · intro h
    obtain ⟨y, y', hget, hget', hsame⟩ := h [] []
    obtain ⟨z, hz, hclean⟩ := hold [] []
    obtain ⟨z', hz', hsame'⟩ := hfresh [] []
    rw [hget] at hz
    rw [hget'] at hz'
    obtain ⟨rfl, -⟩ := Prod.mk.inj (Option.some.inj hz)
    obtain ⟨rfl, -⟩ := Prod.mk.inj (Option.some.inj hz')
    exact hclean.mp (hsame.trans _ _ _ hsame')
  · intro hclean before after
    obtain ⟨y, hget, hsame⟩ := hold before after
    obtain ⟨y', hget', hsame'⟩ := hfresh before after
    exact ⟨y, y', hget, hget', Ty.Same.trans _ _ _ (hsame.mpr hclean) (hsame'.symm _ _)⟩

/-- `uint8_t` -/
def byte : Scalar := ⟨1, lexLess fun b c => decide (b < c), fun x y => decide (x = y)⟩

/-- A `forward_list` of one byte reads two others, and has three afterwards. -/
theorem bytes_not_overwrites :
    ¬ Overwrites .plain (.sequence .forwardList (.key (.scalar byte))) [[1]] [[2], [3]] := by
  intro h
  obtain ⟨y, y', hget, hget', hsame⟩ := h [] []
  have hthree : some ([[2], [3], [1]], 10) = some (y, 10) := hget
  have htwo : some ([[2], [3]], 10) = some (y', 10) := hget'
  obtain ⟨rfl, -⟩ := Prod.mk.inj (Option.some.inj hthree)
  obtain ⟨rfl, -⟩ := Prod.mk.inj (Option.some.inj htwo)
  have hlength := List.Forall₂.length_eq hsame
  cases hlength

end Types

end CasualGame.Componet.Serialization
