import Mathlib.Data.List.Nodup
import Mathlib.Logic.Function.Basic

/-!
Resources that are held under names: opened under a free name, handed over from one holder
to another, and closed by the holder, after which the name is free again.
-/

namespace CasualGame.Lib

universe u v

structure Holding (P : Type u) (F : Type v) where
  holds : P → Option F
  /-- The resource that is open under the name. -/
  names : F → Option Nat
  opened : Nat
  closed : List Nat
  lost : List Nat

namespace Holding

variable {P : Type u} {F : Type v}

/-- Every open resource has one holder, if it is not lost, and no other has ever been closed
but once. -/
structure Sound (h : Holding P F) : Prop where
  named : ∀ {p f}, h.holds p = some f → ∃ i, h.names f = some i
  unshared : ∀ {p q f}, h.holds p = some f → h.holds q = some f → p = q
  single : ∀ {f g i}, h.names f = some i → h.names g = some i → f = g
  open_lt : ∀ {f i}, h.names f = some i → i < h.opened
  not_closed : ∀ {f i}, h.names f = some i → i ∉ h.closed
  closed_lt : ∀ i ∈ h.closed, i < h.opened
  closed_nodup : h.closed.Nodup
  open_or_closed : ∀ i < h.opened, i ∈ h.closed ∨ ∃ f, h.names f = some i
  kept : ∀ {f i}, h.names f = some i → i ∉ h.lost → ∃ p, h.holds p = some f
  lost : ∀ i ∈ h.lost, ∃ f, h.names f = some i ∧ ∀ p, h.holds p ≠ some f

section Handing

variable [DecidableEq P] (h : Holding P F)

/-- What `q` has held before is lost. -/
def transfer (p q : P) : Holding P F :=
  { h with
    holds := Function.update (Function.update h.holds q (h.holds p)) p none
    lost := h.lost ++ ((h.holds q).bind h.names).toList }

variable {h} {p q : P}

theorem holds_transfer {r : P} {g : F} (hr : (h.transfer p q).holds r = some g) :
    r = q ∧ q ≠ p ∧ h.holds p = some g ∨ r ≠ p ∧ r ≠ q ∧ h.holds r = some g := by
  change Function.update (Function.update h.holds q (h.holds p)) p none r = some g at hr
  rcases eq_or_ne r p with rfl | hrp
  · rw [Function.update_self] at hr
    cases hr
  rw [Function.update_of_ne hrp] at hr
  rcases eq_or_ne r q with rfl | hrq
  · rw [Function.update_self] at hr
    exact .inl ⟨rfl, hrp, hr⟩
  · rw [Function.update_of_ne hrq] at hr
    exact .inr ⟨hrp, hrq, hr⟩

theorem Sound.transfer (hs : h.Sound) (p q : P) : (h.transfer p q).Sound := by
  refine ⟨?_, ?_, hs.single, hs.open_lt, hs.not_closed, hs.closed_lt, hs.closed_nodup,
    hs.open_or_closed, ?_, ?_⟩
  · intro r g hr
    rcases holds_transfer hr with ⟨-, -, hp⟩ | ⟨-, -, hr⟩
    · exact hs.named hp
    · exact hs.named hr
  · intro r r' g hr hr'
    rcases holds_transfer hr with ⟨rfl, -, hp⟩ | ⟨hrp, -, hr⟩
    · rcases holds_transfer hr' with ⟨rfl, -, -⟩ | ⟨hrp', -, hr'⟩
      · rfl
      · exact absurd (hs.unshared hr' hp) hrp'
    · rcases holds_transfer hr' with ⟨-, -, hp⟩ | ⟨-, -, hr'⟩
      · exact absurd (hs.unshared hr hp) hrp
      · exact hs.unshared hr hr'
  · intro g i hg hlost
    obtain ⟨hold, hnew⟩ : i ∉ h.lost ∧ i ∉ ((h.holds q).bind h.names).toList := by
      rw [← not_or, ← List.mem_append]
      exact hlost
    obtain ⟨r, hr⟩ := hs.kept hg hold
    have hrq : r ≠ q := by
      rintro rfl
      apply hnew
      rw [hr, Option.mem_toList]
      exact hg
    rcases eq_or_ne r p with rfl | hrp
    · refine ⟨q, ?_⟩
      change Function.update (Function.update h.holds q (h.holds r)) r none q = some g
      rw [Function.update_of_ne hrq.symm, Function.update_self]
      exact hr
    · refine ⟨r, ?_⟩
      change Function.update (Function.update h.holds q (h.holds p)) p none r = some g
      rw [Function.update_of_ne hrp, Function.update_of_ne hrq]
      exact hr
  · intro i hi
    rcases List.mem_append.mp hi with hi | hi
    · obtain ⟨g, hg, hnone⟩ := hs.lost i hi
      refine ⟨g, hg, fun r hr => ?_⟩
      rcases holds_transfer hr with ⟨-, -, hp⟩ | ⟨-, -, hr⟩
      · exact hnone p hp
      · exact hnone r hr
    · obtain ⟨g, hq, hg⟩ := Option.bind_eq_some_iff.mp (Option.mem_toList.mp hi)
      refine ⟨g, hg, fun r hr => ?_⟩
      rcases holds_transfer hr with ⟨-, hne, hp⟩ | ⟨-, hne, hr⟩
      · exact hne (hs.unshared hq hp)
      · exact hne (hs.unshared hr hq)

end Handing

section Opening

variable [DecidableEq P] [DecidableEq F] (h : Holding P F)

def acquire (p : P) (f : F) : Holding P F :=
  { h with
    holds := Function.update h.holds p (some f)
    names := Function.update h.names f (some h.opened)
    opened := h.opened + 1 }

def release (p : P) (f : F) (i : Nat) : Holding P F :=
  { h with
    holds := Function.update h.holds p none
    names := Function.update h.names f none
    closed := h.closed ++ [i] }

variable {h} {p : P} {f : F} {i : Nat}

theorem Sound.acquire (hs : h.Sound) (hp : h.holds p = none) (hf : h.names f = none) :
    (h.acquire p f).Sound := by
  have hfree : ∀ q, h.holds q ≠ some f := by
    intro q hq
    obtain ⟨i, hi⟩ := hs.named hq
    cases hf.symm.trans hi
  have hholds : ∀ {q g}, (h.acquire p f).holds q = some g →
      q = p ∧ g = f ∨ q ≠ p ∧ h.holds q = some g := by
    intro q g hq
    change Function.update h.holds p (some f) q = some g at hq
    rcases eq_or_ne q p with rfl | hne
    · rw [Function.update_self] at hq
      exact .inl ⟨rfl, (Option.some.inj hq).symm⟩
    · rw [Function.update_of_ne hne] at hq
      exact .inr ⟨hne, hq⟩
  have hnames : ∀ {g i}, (h.acquire p f).names g = some i →
      g = f ∧ i = h.opened ∨ g ≠ f ∧ h.names g = some i := by
    intro g i hg
    change Function.update h.names f (some h.opened) g = some i at hg
    rcases eq_or_ne g f with rfl | hne
    · rw [Function.update_self] at hg
      exact .inl ⟨rfl, (Option.some.inj hg).symm⟩
    · rw [Function.update_of_ne hne] at hg
      exact .inr ⟨hne, hg⟩
  have hself : (h.acquire p f).names f = some h.opened := Function.update_self ..
  have hother : ∀ {g i}, h.names g = some i → (h.acquire p f).names g = some i := by
    intro g i hg
    have hne : g ≠ f := by
      rintro rfl
      cases hf.symm.trans hg
    exact (Function.update_of_ne hne ..).trans hg
  constructor
  · intro q g hq
    rcases hholds hq with ⟨-, rfl⟩ | ⟨-, hq⟩
    · exact ⟨_, hself⟩
    · obtain ⟨i, hi⟩ := hs.named hq
      exact ⟨i, hother hi⟩
  · intro q q' g hq hq'
    rcases hholds hq with ⟨rfl, rfl⟩ | ⟨-, hold⟩
    · rcases hholds hq' with ⟨rfl, -⟩ | ⟨-, hold'⟩
      · rfl
      · exact absurd hold' (hfree q')
    · rcases hholds hq' with ⟨-, rfl⟩ | ⟨-, hold'⟩
      · exact absurd hold (hfree q)
      · exact hs.unshared hold hold'
  · intro g g' i hg hg'
    rcases hnames hg with ⟨rfl, rfl⟩ | ⟨-, hold⟩
    · rcases hnames hg' with ⟨rfl, -⟩ | ⟨-, hold'⟩
      · rfl
      · exact absurd (hs.open_lt hold') (Nat.lt_irrefl _)
    · rcases hnames hg' with ⟨-, rfl⟩ | ⟨-, hold'⟩
      · exact absurd (hs.open_lt hold) (Nat.lt_irrefl _)
      · exact hs.single hold hold'
  · intro g i hg
    rcases hnames hg with ⟨-, rfl⟩ | ⟨-, hg⟩
    · exact Nat.lt_succ_self _
    · exact Nat.lt_succ_of_lt (hs.open_lt hg)
  · intro g i hg hclosed
    rcases hnames hg with ⟨-, rfl⟩ | ⟨-, hg⟩
    · exact Nat.lt_irrefl _ (hs.closed_lt _ hclosed)
    · exact hs.not_closed hg hclosed
  · exact fun i hi => Nat.lt_succ_of_lt (hs.closed_lt i hi)
  · exact hs.closed_nodup
  · intro i hi
    rcases Nat.lt_succ_iff_lt_or_eq.mp hi with hi | rfl
    · rcases hs.open_or_closed i hi with hclosed | ⟨g, hg⟩
      · exact .inl hclosed
      · exact .inr ⟨g, hother hg⟩
    · exact .inr ⟨f, hself⟩
  · intro g i hg hlost
    rcases hnames hg with ⟨rfl, -⟩ | ⟨-, hg⟩
    · exact ⟨p, Function.update_self ..⟩
    · obtain ⟨q, hq⟩ := hs.kept hg hlost
      have hne : q ≠ p := by
        rintro rfl
        cases hp.symm.trans hq
      exact ⟨q, (Function.update_of_ne hne ..).trans hq⟩
  · intro i hi
    obtain ⟨g, hg, hnone⟩ := hs.lost i hi
    refine ⟨g, hother hg, fun q hq => ?_⟩
    rcases hholds hq with ⟨-, rfl⟩ | ⟨-, hq⟩
    · cases hf.symm.trans hg
    · exact hnone q hq

theorem Sound.release (hs : h.Sound) (hp : h.holds p = some f) (hf : h.names f = some i) :
    (h.release p f i).Sound := by
  have hholds : ∀ {q g}, (h.release p f i).holds q = some g → q ≠ p ∧ h.holds q = some g := by
    intro q g hq
    change Function.update h.holds p none q = some g at hq
    rcases eq_or_ne q p with rfl | hne
    · rw [Function.update_self] at hq
      cases hq
    · rw [Function.update_of_ne hne] at hq
      exact ⟨hne, hq⟩
  have hnames : ∀ {g j}, (h.release p f i).names g = some j → g ≠ f ∧ h.names g = some j := by
    intro g j hg
    change Function.update h.names f none g = some j at hg
    rcases eq_or_ne g f with rfl | hne
    · rw [Function.update_self] at hg
      cases hg
    · rw [Function.update_of_ne hne] at hg
      exact ⟨hne, hg⟩
  have hother : ∀ {g j}, g ≠ f → h.names g = some j → (h.release p f i).names g = some j :=
    fun hne hg => (Function.update_of_ne hne ..).trans hg
  constructor
  · intro q g hq
    obtain ⟨hne, hold⟩ := hholds hq
    obtain ⟨j, hj⟩ := hs.named hold
    refine ⟨j, hother ?_ hj⟩
    rintro rfl
    exact hne (hs.unshared hold hp)
  · exact fun hq hq' => hs.unshared (hholds hq).2 (hholds hq').2
  · exact fun hg hg' => hs.single (hnames hg).2 (hnames hg').2
  · exact fun hg => hs.open_lt (hnames hg).2
  · intro g j hg hclosed
    obtain ⟨hne, hold⟩ := hnames hg
    rcases List.mem_append.mp hclosed with hclosed | hclosed
    · exact hs.not_closed hold hclosed
    · obtain rfl := List.mem_singleton.mp hclosed
      exact hne (hs.single hold hf)
  · intro j hj
    rcases List.mem_append.mp hj with hj | hj
    · exact hs.closed_lt j hj
    · obtain rfl := List.mem_singleton.mp hj
      exact hs.open_lt hf
  · apply List.Nodup.append hs.closed_nodup (List.nodup_singleton i)
    rw [List.disjoint_singleton]
    exact hs.not_closed hf
  · intro j hj
    rcases hs.open_or_closed j hj with hclosed | ⟨g, hg⟩
    · exact .inl (List.mem_append_left _ hclosed)
    · rcases eq_or_ne g f with rfl | hne
      · obtain rfl := Option.some.inj (hg.symm.trans hf)
        exact .inl (List.mem_append_right _ List.mem_cons_self)
      · exact .inr ⟨g, hother hne hg⟩
  · intro g j hg hlost
    obtain ⟨hne, hg⟩ := hnames hg
    obtain ⟨q, hq⟩ := hs.kept hg hlost
    have hqp : q ≠ p := by
      rintro rfl
      exact hne (Option.some.inj (hq.symm.trans hp))
    exact ⟨q, (Function.update_of_ne hqp ..).trans hq⟩
  · intro j hj
    obtain ⟨g, hg, hnone⟩ := hs.lost j hj
    refine ⟨g, hother ?_ hg, fun q hq => hnone q (hholds hq).2⟩
    rintro rfl
    exact hnone p hp

end Opening

end Holding

end CasualGame.Lib
