import Mathlib.Algebra.Order.Group.Defs
import Mathlib.Logic.Relation

/-!
Paths along the edges of a graph, and what they cost.
-/

namespace CasualGame.Lib.Paths

universe u v

/-- The edges between places, and the cost of a step along one. -/
structure WeightedGraph (P : Type u) (C : Type v) where
  Edge : P → P → Prop
  stepCost : P → P → C

namespace WeightedGraph

variable {P : Type u} {C : Type v} (G : WeightedGraph P C) {p q r : P} {path rest : List P}

section Leading

/-- The places of `path` lead from `p` to `q`, each one by an edge from the one before. -/
def Leads : P → List P → P → Prop
  | p, [], q => p = q
  | p, r :: path, q => G.Edge p r ∧ Leads r path q

instance decidableLeads [DecidableEq P] [DecidableRel G.Edge] :
    ∀ p path q, Decidable (G.Leads p path q)
  | p, [], q => inferInstanceAs (Decidable (p = q))
  | _, r :: path, q =>
      have := decidableLeads r path q
      inferInstanceAs (Decidable (_ ∧ _))

/-- There is a way from one place to the other. -/
def Reachable : P → P → Prop := Relation.ReflTransGen G.Edge

variable {G}

theorem leads_append :
    G.Leads p (path ++ rest) q ↔ ∃ r, G.Leads p path r ∧ G.Leads r rest q := by
  induction path generalizing p with
  | nil => simp [Leads]
  | cons r path ih => simp [Leads, ih, and_assoc]

theorem Leads.unique (h : G.Leads p path q) (h' : G.Leads p path r) : q = r := by
  induction path generalizing p with
  | nil => exact Eq.trans (Eq.symm h) h'
  | cons _ path ih => exact ih h.2 h'.2

theorem Leads.snoc (h : G.Leads p path q) (hedge : G.Edge q r) : G.Leads p (path ++ [r]) r :=
  leads_append.mpr ⟨q, h, hedge, rfl⟩

theorem Leads.reachable (h : G.Leads p path q) : G.Reachable p q := by
  induction path generalizing p with
  | nil =>
      obtain rfl : p = q := h
      exact .refl
  | cons r path ih => exact .head h.1 (ih h.2)

/-- What holds at the start and goes over from every place to the next ones holds wherever
the start leads to. -/
theorem Reachable.closed {Holds : P → Prop} (h : G.Reachable p q)
    (hedge : ∀ p q, Holds p → G.Edge p q → Holds q) (hp : Holds p) : Holds q := by
  induction h with
  | refl => exact hp
  | tail _ hstep ih => exact hedge _ _ ih hstep

end Leading

section Costs

variable [AddCommGroup C]

/-- The cost of all steps of a path that begins at `p`. -/
def pathCost : P → List P → C
  | _, [] => 0
  | p, r :: path => G.stepCost p r + pathCost r path

variable {G}

theorem pathCost_append (h : G.Leads p path r) (rest : List P) :
    G.pathCost p (path ++ rest) = G.pathCost p path + G.pathCost r rest := by
  induction path generalizing p with
  | nil =>
      obtain rfl : p = r := h
      exact (zero_add _).symm
  | cons q path ih =>
      rw [List.cons_append, pathCost, ih h.2, ← add_assoc]
      rfl

theorem pathCost_snoc (h : G.Leads p path q) (r : P) :
    G.pathCost p (path ++ [r]) = G.pathCost p path + G.stepCost q r := by
  rw [pathCost_append h, pathCost, pathCost, add_zero]

variable [LinearOrder C]

variable (G) in
/-- No path between the two places costs less. -/
def Cheapest (p : P) (path : List P) (q : P) : Prop :=
  G.Leads p path q ∧ ∀ path', G.Leads p path' q → G.pathCost p path ≤ G.pathCost p path'

variable [IsOrderedAddMonoid C]

/-- The first part of a cheapest path is a cheapest path. -/
theorem Cheapest.part (h : G.Cheapest p (path ++ rest) q) (hpath : G.Leads p path r) :
    G.Cheapest p path r := by
  obtain ⟨r', hpath', hrest⟩ := leads_append.mp h.1
  obtain rfl := hpath.unique hpath'
  refine ⟨hpath, fun path' hpath' => ?_⟩
  have hle := h.2 (path' ++ rest) (leads_append.mpr ⟨r, hpath', hrest⟩)
  rw [pathCost_append hpath, pathCost_append hpath'] at hle
  exact le_of_add_le_add_right hle

/-- A number that no step lowers by more than it costs is lowered by no path by more than the
path costs. -/
theorem Leads.le_pathCost (h : G.Leads p path q) (potential : P → C)
    (hstep : ∀ p q, G.Edge p q → potential p ≤ G.stepCost p q + potential q) :
    potential p ≤ G.pathCost p path + potential q := by
  induction path generalizing p with
  | nil =>
      obtain rfl : p = q := h
      exact (zero_add _).ge
  | cons r path ih =>
      calc potential p ≤ G.stepCost p r + potential r := hstep _ _ h.1
        _ ≤ G.stepCost p r + (G.pathCost r path + potential q) := by gcongr; exact ih h.2
        _ = G.pathCost p (r :: path) + potential q := (add_assoc ..).symm

theorem Leads.pathCost_nonneg (h : G.Leads p path q)
    (hstep : ∀ p q, G.Edge p q → 0 ≤ G.stepCost p q) : 0 ≤ G.pathCost p path := by
  have hle := h.le_pathCost (fun _ => 0) fun p q hedge => by
    simpa using hstep p q hedge
  simpa using hle

/-- Where a path leaves the places that are settled: at an open place, whose label and the rest
of the path cost no more than the label before and the whole path, when the labels along the
path have been lowered to what a step from a settled place makes of them. -/
theorem Leads.exists_open (h : G.Leads p path q) (Settled Open : P → Prop) (label : P → C)
    (hp : Settled p) (hq : ¬ Settled q)
    (hlowered : ∀ p q, Settled p → G.Edge p q → q ∈ path →
      (Settled q ∨ Open q) ∧ label q ≤ label p + G.stepCost p q) :
    ∃ r rest, Open r ∧ G.Leads r rest q ∧
      label r + G.pathCost r rest ≤ label p + G.pathCost p path := by
  induction path generalizing p with
  | nil =>
      obtain rfl : p = q := h
      exact absurd hp hq
  | cons r path ih =>
      obtain ⟨hr, hle⟩ := hlowered p r hp h.1 List.mem_cons_self
      have hcost : label r + G.pathCost r path ≤ label p + G.pathCost p (r :: path) := by
        calc label r + G.pathCost r path
            ≤ label p + G.stepCost p r + G.pathCost r path := by gcongr
          _ = label p + G.pathCost p (r :: path) := add_assoc ..
      rcases hr with hr | hr
      · obtain ⟨r', rest, hopen, hrest, hle'⟩ :=
          ih h.2 hr fun p q hp hedge hq => hlowered p q hp hedge (List.mem_cons_of_mem _ hq)
        exact ⟨r', rest, hopen, hrest, hle'.trans hcost⟩
      · exact ⟨r, path, hr, h.2, hcost⟩

end Costs

end WeightedGraph

end CasualGame.Lib.Paths
