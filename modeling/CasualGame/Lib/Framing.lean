import Mathlib.Data.List.Basic

/-!
Streams that are cut into frames from the front: what of a stream has arrived decides
its first frames, and more of the stream only adds to them.
-/

namespace CasualGame.Lib.Framing

universe u v

/-- A way to cut the first frame off a stream. Nothing that arrives later changes a
frame once it is complete. -/
structure Cutter (β : Type u) (α : Type v) where
  cut : List β → Option (α × List β)
  cut_shorter : ∀ {s a r}, cut s = some (a, r) → r.length < s.length
  cut_append : ∀ {s a r} (t), cut s = some (a, r) → cut (s ++ t) = some (a, r ++ t)

namespace Cutter

variable {β : Type u} {α : Type v} (F : Cutter β α)

/-- The frames that lie completely in the stream. -/
def frames (s : List β) : List α :=
  match h : F.cut s with
  | none => []
  | some (a, r) =>
      have : r.length < s.length := F.cut_shorter h
      a :: frames r
  termination_by s.length

/-- What comes after them. -/
def rest (s : List β) : List β :=
  match h : F.cut s with
  | none => s
  | some (_, r) =>
      have : r.length < s.length := F.cut_shorter h
      rest r
  termination_by s.length

variable {F} {s t r : List β} {a : α}

theorem frames_of_none (h : F.cut s = none) : F.frames s = [] := by
  rw [frames]
  split
  · rfl
  · simp_all

theorem frames_of_some (h : F.cut s = some (a, r)) : F.frames s = a :: F.frames r := by
  rw [frames]
  split
  · simp_all
  · simp_all

theorem rest_of_none (h : F.cut s = none) : F.rest s = s := by
  rw [rest]
  split
  · rfl
  · simp_all

theorem rest_of_some (h : F.cut s = some (a, r)) : F.rest s = F.rest r := by
  rw [rest]
  split
  · simp_all
  · simp_all

theorem frames_append (s t : List β) :
    F.frames (s ++ t) = F.frames s ++ F.frames (F.rest s ++ t) := by
  fun_induction F.frames s with
  | case1 s h => rw [rest_of_none h, List.nil_append]
  | case2 s a r h _ ih =>
      rw [frames_of_some (F.cut_append t h), rest_of_some h, ih, List.cons_append]

theorem rest_append (s t : List β) : F.rest (s ++ t) = F.rest (F.rest s ++ t) := by
  fun_induction F.rest s with
  | case1 s h => rfl
  | case2 s a r h _ ih => rw [rest_of_some (F.cut_append t h), ih]

/-- The frames of a stream that begins with frames. -/
theorem frames_encoded {encode : α → List β} {as : List α}
    (h : ∀ a ∈ as, ∀ t, F.cut (encode a ++ t) = some (a, t)) (t : List β) :
    F.frames (as.flatMap encode ++ t) = as ++ F.frames t := by
  induction as with
  | nil => rfl
  | cons a as ih =>
      rw [List.flatMap_cons, List.append_assoc, frames_of_some (h a (by simp) _),
        ih fun b hb => h b (by simp [hb]), List.cons_append]

theorem rest_encoded {encode : α → List β} {as : List α}
    (h : ∀ a ∈ as, ∀ t, F.cut (encode a ++ t) = some (a, t)) (t : List β) :
    F.rest (as.flatMap encode ++ t) = F.rest t := by
  induction as with
  | nil => rfl
  | cons a as ih =>
      rw [List.flatMap_cons, List.append_assoc, rest_of_some (h a (by simp) _),
        ih fun b hb => h b (by simp [hb])]

end Cutter

end CasualGame.Lib.Framing
