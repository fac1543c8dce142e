import Mathlib.Data.List.Basic

namespace CasualGame.Lib.Writes

universe u v w

variable {σ : Type u} {κ : Type v} {β : Type w} [DecidableEq κ]

/-- How a state is read and written by key. A write may rely on an invariant of
the state and on its key being in the domain, and keeps the invariant. -/
structure Store (σ : Type u) (κ : Type v) (β : Type w) [DecidableEq κ] where
  Inv : σ → Prop
  Dom : κ → Prop
  look : σ → κ → Option β
  put : σ → κ → β → σ
  put_inv : ∀ {s k b}, Inv s → Dom k → Inv (put s k b)
  look_put : ∀ {s k b k'}, Inv s → Dom k →
    look (put s k b) k' = if k' = k then some b else look s k'

def Store.putAll (S : Store σ κ β) (s : σ) (ws : List (κ × β)) : σ :=
  ws.foldl (fun s kb => S.put s kb.1 kb.2) s

theorem Store.putAll_inv (S : Store σ κ β) {ws : List (κ × β)}
    (hdom : ∀ kb ∈ ws, S.Dom kb.1) {s : σ} (hs : S.Inv s) : S.Inv (S.putAll s ws) := by
  induction ws generalizing s with
  | nil => exact hs
  | cons kb ws ih =>
      exact ih (fun kb' h => hdom kb' (by simp [h])) (S.put_inv hs (hdom kb (by simp)))

/-- Writes to one key that agree leave their common value, whatever the order:
a key holds what was written there, or else what it held before. -/
theorem Store.look_putAll (S : Store σ κ β) {ws : List (κ × β)}
    (hdom : ∀ kb ∈ ws, S.Dom kb.1)
    (hagree : ∀ kb ∈ ws, ∀ kb' ∈ ws, kb.1 = kb'.1 → kb.2 = kb'.2)
    {s : σ} (hs : S.Inv s) (k : κ) (b : β) :
    S.look (S.putAll s ws) k = some b ↔
      (k, b) ∈ ws ∨ (∀ b', (k, b') ∉ ws) ∧ S.look s k = some b := by
  induction ws generalizing s with
  | nil => simp [Store.putAll]
  | cons kb ws ih =>
      have hput := S.put_inv (b := kb.2) hs (hdom kb (by simp))
      have htail := ih (fun kb' h => hdom kb' (by simp [h]))
        (fun x hx y hy => hagree x (by simp [hx]) y (by simp [hy])) hput
      have hlook : S.look (S.put s kb.1 kb.2) k = if k = kb.1 then some kb.2 else S.look s k :=
        S.look_put hs (hdom kb (by simp))
      show S.look (S.putAll (S.put s kb.1 kb.2) ws) k = some b ↔ _
      rw [htail, hlook]
      obtain ⟨k₀, b₀⟩ := kb
      by_cases hk : k = k₀
      · subst hk
        have hsame : ∀ b', (k, b') ∈ ws → b' = b₀ := fun b' h =>
          (hagree (k, b₀) (by simp) (k, b') (by simp [h]) rfl).symm
        simp only [if_true, List.mem_cons, Prod.mk.injEq, true_and, Option.some.injEq]
        constructor
        · rintro (h | ⟨-, rfl⟩)
          · exact Or.inl (Or.inr h)
          · exact Or.inl (Or.inl rfl)
        · rintro ((rfl | h) | ⟨h, -⟩)
          · by_cases hmem : (k, b) ∈ ws
            · exact Or.inl hmem
            · exact Or.inr ⟨fun b' h => hmem (hsame b' h ▸ h), rfl⟩
          · exact Or.inl h
          · exact absurd (Or.inl rfl) (h b₀)
      · simp [hk]

/-- Over a state that holds nothing yet, the agreeing writes are the table. -/
theorem Store.look_putAll_of_empty (S : Store σ κ β) {ws : List (κ × β)}
    (hdom : ∀ kb ∈ ws, S.Dom kb.1)
    (hagree : ∀ kb ∈ ws, ∀ kb' ∈ ws, kb.1 = kb'.1 → kb.2 = kb'.2)
    {s : σ} (hs : S.Inv s) (hempty : ∀ k, S.look s k = none) (k : κ) (b : β) :
    S.look (S.putAll s ws) k = some b ↔ (k, b) ∈ ws := by
  rw [S.look_putAll hdom hagree hs]
  simp [hempty]

section Modify

variable {α : Type u} {γ : Type v}

theorem map_modify_of_comp {f : α → α} {g : α → γ} {f' : γ → γ} (h : ∀ x, g (f x) = f' (g x))
    (l : List α) (k : Nat) : (l.modify k f).map g = (l.map g).modify k f' := by
  apply List.ext_getElem?
  intro m
  simp only [List.getElem?_map, List.getElem?_modify]
  cases l[m]? with
  | none => rfl
  | some x => by_cases hk : k = m <;> simp [hk, h]

theorem map_modify_of_eq {f : α → α} {g : α → γ} (h : ∀ x, g (f x) = g x)
    (l : List α) (k : Nat) : (l.modify k f).map g = l.map g := by
  have hid : (l.modify k f).map g = (l.map g).modify k id := map_modify_of_comp h l k
  rw [hid, List.modify_id]

theorem modify_eq_self {f : α → α} {l : List α} (h : ∀ x ∈ l, f x = x) (k : Nat) :
    l.modify k f = l := by
  apply List.ext_getElem?
  intro m
  rw [List.getElem?_modify]
  cases hm : l[m]? with
  | none => rfl
  | some x => simp [h x (List.mem_of_getElem? hm)]

end Modify

end CasualGame.Lib.Writes
