import CasualGame.Lib.Paths
import CasualGame.Lib.While
import Mathlib.Algebra.Order.Group.Int
import Mathlib.Data.Finset.Card
import Mathlib.Data.Set.Finite.Basic
import Mathlib.Data.Prod.Lex
import Mathlib.Order.MinMax

/-!
The search for a path: from the start, the cell that promises the cheapest way is searched
next, until it is the goal or there is none left.
-/

namespace CasualGame.Componet

open Lib.Paths
open Lib.While

universe u

/-- What the caller chooses. The costs are numbers of 32 bits, and no sum of them leaves that
range. -/
structure AStar (P : Type u) where
  nighbors : P → List P
  enterable : P → Bool
  stepCost : P → P → Int
  heruistic : P → P → Int

namespace AStar

variable {P : Type u}

/-- `INVALID_COST`. -/
def invalidCost : Int := -1

structure PosAttr (P : Type u) where
  prevPos : P
  cost : Int := invalidCost

/-- Which item a heap has on top: one that costs no more than any other. Between items of one
cost the order of the positions decides. -/
structure Top (P : Type u) where
  item (frontier : List (Int × P)) : frontier ≠ [] → Int × P
  item_mem (frontier : List (Int × P)) (h : frontier ≠ []) : item frontier h ∈ frontier
  item_le (frontier : List (Int × P)) (h : frontier ≠ []) :
    ∀ other ∈ frontier, (item frontier h).1 ≤ other.1

/-- The order of a `pair`. -/
def leastItem [LinearOrder P] (item : Int × P) : List (Int × P) → Int × P
  | [] => item
  | other :: frontier =>
      leastItem (if toLex other < toLex item then other else item) frontier

theorem leastItem_mem [LinearOrder P] (item : Int × P) (frontier : List (Int × P)) :
    leastItem item frontier ∈ item :: frontier := by
  induction frontier generalizing item with
  | nil => exact List.mem_cons_self
  | cons other frontier ih =>
      rw [leastItem]
      split
      · exact List.mem_cons_of_mem _ (ih other)
      · exact List.mem_cons.mpr ((List.mem_cons.mp (ih item)).imp_right
          (List.mem_cons_of_mem _))

theorem leastItem_le [LinearOrder P] (item : Int × P) (frontier : List (Int × P)) :
    ∀ other ∈ item :: frontier, toLex (leastItem item frontier) ≤ toLex other := by
  induction frontier generalizing item with
  | nil => exact fun other hother => (congrArg toLex (List.mem_singleton.mp hother)).ge
  | cons head frontier ih =>
      rw [leastItem]
      intro other hother
      split
      · next hlt =>
          rcases List.mem_cons.mp hother with rfl | hother
          · exact (ih head head List.mem_cons_self).trans hlt.le
          · exact ih head other hother
      · next hnot =>
          rcases List.mem_cons.mp hother with rfl | hother
          · exact ih other other List.mem_cons_self
          · rcases List.mem_cons.mp hother with rfl | hother
            · exact (ih item item List.mem_cons_self).trans (not_lt.mp hnot)
            · exact ih item other (List.mem_cons_of_mem _ hother)

/-- The top of a heap whose positions have an order. -/
def leastTop [LinearOrder P] : Top P where
  item frontier h := leastItem (frontier.head h) frontier.tail
  item_mem frontier h := by
    have hmem := leastItem_mem (frontier.head h) frontier.tail
    rwa [List.cons_head_tail] at hmem
  item_le frontier h other hother := by
    have hle := leastItem_le (frontier.head h) frontier.tail other
    rw [List.cons_head_tail] at hle
    exact Prod.Lex.monotone_fst _ _ (hle hother)

structure Search (P : Type u) where
  frontier : List (Int × P)
  /-- A cell that is not in the map has the attributes that `operator[]` puts there. -/
  searchedArea : P → PosAttr P
  nearestToGoal : Int × P

section Code

variable [DecidableEq P] [Inhabited P] (A : AStar P)

/-- The cell on top of the heap, and the search without it. -/
def Search.pop (s : Search P) (top : Top P) (h : s.frontier ≠ []) : P × Search P :=
  let item := top.item s.frontier h
  (item.2, { s with frontier := s.frontier.erase item })

/-- The search before its first turn. -/
def started (start goal : P) : Search P where
  frontier := [(0, start)]
  searchedArea := Function.update (fun _ => { prevPos := default }) start
    { prevPos := default, cost := 0 }
  nearestToGoal := (A.heruistic start goal, start)

/-- The cost of the way to a cell over the one that is searched. -/
def nextCost (s : Search P) (curPos nextPos : P) : Int :=
  (s.searchedArea curPos).cost + A.stepCost curPos nextPos

/-- What is put down of a cell for which a way has been found. -/
def noted (goal curPos nextPos : P) (s : Search P) : Search P :=
  let nextCost := A.nextCost s curPos nextPos
  let nextHeruistic := A.heruistic nextPos goal
  { frontier := (nextCost + nextHeruistic, nextPos) :: s.frontier
    searchedArea := Function.update s.searchedArea nextPos { prevPos := curPos, cost := nextCost }
    nearestToGoal :=
      if nextHeruistic < s.nearestToGoal.1 then (nextHeruistic, nextPos) else s.nearestToGoal }

/-- One turn of the loop over the neighbours. A cell that has a cost is looked at against the
cost of the cell before it. -/
def check (goal curPos : P) (s : Search P) (nextPos : P) : Search P :=
  if A.enterable nextPos then
    if (s.searchedArea nextPos).cost = invalidCost ∨
        A.nextCost s curPos nextPos < (s.searchedArea curPos).cost then
      A.noted goal curPos nextPos s
    else s
  else s

/-- The loop over the neighbours of a cell. -/
def expand (goal curPos : P) (s : Search P) : Search P :=
  (A.nighbors curPos).foldl (A.check goal curPos) s

/-- One turn of the loop that searches. -/
def searchTurn (goal : P) (top : Top P) (s : Search P) : ForInStep (Search P) :=
  if h : s.frontier = [] then .done s
  else
    let (curPos, s) := s.pop top h
    if curPos = goal then .done { s with nearestToGoal := (s.nearestToGoal.1, goal) }
    else .yield (A.expand goal curPos s)

/-- One turn of the loop that goes back along `prevPos`. -/
def pathTurn (searchedArea : P → PosAttr P) (start : P) (_ : Unit) (back : P × List P) :
    ForInStep (P × List P) :=
  if back.1 = start then .done back
  else .yield ((searchedArea back.1).prevPos, back.1 :: back.2)

/-- `findPath`, if each of its loops is left within so many turns. -/
def findPath (tops : Nat → Top P) (start goal : P) (turns : Nat) : Option (List P) := do
  let s ← whileLoop (A.searchTurn goal) tops turns (A.started start goal)
  let back ← whileLoop (pathTurn s.searchedArea start) (fun _ => ()) turns
    (s.nearestToGoal.2, [])
  some back.2

/-- `findPath` comes to an end, with the path. -/
def FindsPath (tops : Nat → Top P) (start goal : P) (path : List P) : Prop :=
  ∃ enough, ∀ turns ≥ enough, A.findPath tops start goal turns = some path

end Code

section Cells

variable (A : AStar P)

/-- The steps to a neighbour that can be entered. -/
def graph : WeightedGraph P Int where
  Edge p q := q ∈ A.nighbors p ∧ A.enterable q = true
  stepCost := A.stepCost

/-- No step costs less than nothing. -/
def CostsNonneg : Prop := ∀ p q, A.graph.Edge p q → 0 ≤ A.stepCost p q

/-- A way to the cell has been found. -/
def Search.Found (s : Search P) (p : P) : Prop := (s.searchedArea p).cost ≠ invalidCost

/-- The cell is in the heap. -/
def Search.Queued (s : Search P) (p : P) : Prop := p ∈ s.frontier.map Prod.snd

/-- The neighbours of the cell have been looked at. -/
def Search.Expanded (s : Search P) (p : P) : Prop := s.Found p ∧ ¬ s.Queued p

/-- The way from the start to a cell along `prevPos`, whose steps make up the cost of the cell. -/
inductive Way (searchedArea : P → PosAttr P) (start : P) : List P → P → Prop
  | start (h : (searchedArea start).cost = 0) : Way searchedArea start [] start
  | link {path : List P} {p : P} (hne : p ≠ start)
      (hedge : A.graph.Edge (searchedArea p).prevPos p)
      (hcost : (searchedArea p).cost =
        (searchedArea (searchedArea p).prevPos).cost + A.stepCost (searchedArea p).prevPos p)
      (hway : Way searchedArea start path (searchedArea p).prevPos) :
      Way searchedArea start (path ++ [p]) p

instance [DecidableEq P] : DecidableRel A.graph.Edge :=
  fun _ _ => inferInstanceAs (Decidable (_ ∧ _))

section Ways

variable {A} {searchedArea : P → PosAttr P} {start p q : P} {path : List P}

theorem Way.leads (h : A.Way searchedArea start path p) : A.graph.Leads start path p := by
  induction h with
  | start _ => rfl
  | link _ hedge _ _ ih => exact ih.snoc hedge

theorem Way.cost_eq (h : A.Way searchedArea start path p) :
    (searchedArea p).cost = A.graph.pathCost start path := by
  induction h with
  | start h => exact h
  | link _ _ hcost hway ih =>
      rw [hcost, ih, WeightedGraph.pathCost_snoc hway.leads]
      rfl

theorem Way.cost_nonneg (h : A.Way searchedArea start path p) (hcosts : A.CostsNonneg) :
    0 ≤ (searchedArea p).cost := by
  rw [h.cost_eq]
  exact h.leads.pathCost_nonneg hcosts

theorem Way.eq_nil (h : A.Way searchedArea start path p) (hp : p = start) : path = [] := by
  cases h with
  | start _ => rfl
  | link hne => exact absurd hp hne

theorem Way.cost_start (h : A.Way searchedArea start path start) :
    (searchedArea start).cost = 0 := by
  cases h with
  | start h => exact h
  | link hne => exact absurd rfl hne

theorem Way.part {before after : List P} (h : A.Way searchedArea start path p)
    (hpath : path = before ++ q :: after) : A.Way searchedArea start (before ++ [q]) q := by
  induction h generalizing after with
  | start _ => simp at hpath
  | @link path p hne hedge hcost hway ih =>
      rcases List.eq_nil_or_concat after with rfl | ⟨after, r, rfl⟩
      · obtain ⟨rfl, hq⟩ := List.append_inj' hpath rfl
        obtain rfl := List.singleton_inj.mp hq
        exact .link hne hedge hcost hway
      · rw [List.concat_eq_append, ← List.cons_append, ← List.append_assoc] at hpath
        exact ih (List.append_inj' hpath rfl).1

theorem Way.update [DecidableEq P] (h : A.Way searchedArea start path p)
    (hcosts : A.CostsNonneg) (hq : (searchedArea q).cost = invalidCost) (attr : PosAttr P) :
    A.Way (Function.update searchedArea q attr) start path p := by
  have hsame : ∀ path p, A.Way searchedArea start path p →
      Function.update searchedArea q attr p = searchedArea p := by
    intro path p hway
    refine Function.update_of_ne (fun heq => ?_) _ _
    have hnonneg := hway.cost_nonneg hcosts
    rw [heq, hq] at hnonneg
    exact absurd hnonneg (by decide)
  induction h with
  | start h => exact .start (by rwa [hsame _ _ (.start h)])
  | link hne hedge hcost hway ih =>
      have hp := hsame _ _ (.link hne hedge hcost hway)
      rw [← hp] at hedge hcost ih
      refine .link hne hedge ?_ ih
      rw [hcost, hp, hsame _ _ hway]

theorem Way.ends_pathTurn [DecidableEq P] (h : A.Way searchedArea start path p)
    (inputs : Nat → Unit) (behind : List P) :
    Ends (pathTurn searchedArea start) inputs (p, behind) (start, path ++ behind) := by
  induction h generalizing inputs behind with
  | start _ => exact .done (if_pos rfl)
  | link hne _ _ _ ih =>
      refine .yield (if_neg hne) ?_
      rw [List.append_assoc]
      exact ih _ _

end Ways

end Cells

end AStar

end CasualGame.Componet
