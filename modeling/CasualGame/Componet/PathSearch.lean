import CasualGame.Componet.AStar

/-!
What the search keeps from turn to turn.
-/

namespace CasualGame.Componet.AStar

open Lib.Paths
open Lib.While

universe u

variable {P : Type u} {A : AStar P} {start goal curPos nextPos p : P} {s s' : Search P}

/-- A check that leaves a cell as it is although the way to it has become cheaper. -/
def PassesOver (A : AStar P) (s : Search P) (curPos nextPos : P) : Prop :=
  A.enterable nextPos = true ∧ s.Found nextPos ∧
    A.nextCost s curPos nextPos < (s.searchedArea nextPos).cost ∧
    ¬ A.nextCost s curPos nextPos < (s.searchedArea curPos).cost

/-- What holds of the search for a goal. The steps that are still `pending` have not been
looked at, and no check has passed over a cell that is `Kept`. -/
structure Searching (A : AStar P) (start goal : P) (Kept : P → Prop) (pending : P → P → Prop)
    (s : Search P) : Prop where
  found_start : s.Found start
  way : ∀ p, s.Found p → ∃ path, A.Way s.searchedArea start path p
  nodup : (s.frontier.map Prod.snd).Nodup
  queued : ∀ item ∈ s.frontier, s.Found item.2 ∧
    (item = (0, start) ∨ item.1 = (s.searchedArea item.2).cost + A.heruistic item.2 goal)
  checked : ∀ p q, s.Expanded p → A.graph.Edge p q → ¬ pending p q → s.Found q ∧
    (Kept q → (s.searchedArea q).cost ≤ A.nextCost s p q)
  goal_open : ¬ s.Expanded goal
  nearest : s.Found s.nearestToGoal.2 ∧
    s.nearestToGoal.1 = A.heruistic s.nearestToGoal.2 goal
  nearest_le : ∀ p, s.Found p → s.nearestToGoal.1 ≤ A.heruistic p goal

/-- Between two turns, no step is pending. -/
abbrev Between (A : AStar P) (start goal : P) (Kept : P → Prop) (s : Search P) : Prop :=
  Searching A start goal Kept (fun _ _ => False) s

/-- What the checks of a turn leave as it is. -/
structure Search.Extends (s s' : Search P) : Prop where
  searchedArea : ∀ p, s.Found p → s'.searchedArea p = s.searchedArea p
  expanded : ∀ p, s'.Expanded p ↔ s.Expanded p

section Extending

theorem Search.Extends.refl (s : Search P) : s.Extends s := ⟨fun _ _ => rfl, fun _ => Iff.rfl⟩

theorem Search.Extends.found (h : s.Extends s') (hp : s.Found p) : s'.Found p := by
  rw [Search.Found, h.searchedArea p hp]
  exact hp

theorem Search.Extends.trans {s'' : Search P} (h : s.Extends s') (h' : s'.Extends s'') :
    s.Extends s'' where
  searchedArea p hp := (h'.searchedArea p (h.found hp)).trans (h.searchedArea p hp)
  expanded p := (h'.expanded p).trans (h.expanded p)

end Extending

section Noted

variable [DecidableEq P]

theorem attr_noted (A : AStar P) (goal curPos nextPos : P) (s : Search P) :
    (A.noted goal curPos nextPos s).searchedArea nextPos =
      { prevPos := curPos, cost := A.nextCost s curPos nextPos } :=
  Function.update_self ..

theorem searchedArea_noted (A : AStar P) (goal curPos : P) (s : Search P) (hne : p ≠ nextPos) :
    (A.noted goal curPos nextPos s).searchedArea p = s.searchedArea p :=
  Function.update_of_ne hne _ _

theorem queued_noted (A : AStar P) (goal curPos nextPos : P) (s : Search P) :
    (A.noted goal curPos nextPos s).Queued p ↔ p = nextPos ∨ s.Queued p := by
  rw [Search.Queued, noted, List.map_cons, List.mem_cons]
  exact Iff.rfl

theorem found_noted (goal : P) (hnonneg : 0 ≤ A.nextCost s curPos nextPos) :
    (A.noted goal curPos nextPos s).Found p ↔ p = nextPos ∨ s.Found p := by
  rcases eq_or_ne p nextPos with rfl | hne
  · rw [Search.Found, attr_noted, invalidCost]
    exact iff_of_true (by dsimp only; omega) (.inl rfl)
  · rw [Search.Found, searchedArea_noted A goal curPos s hne]
    exact (or_iff_right hne).symm

theorem expanded_noted (goal : P) (hnonneg : 0 ≤ A.nextCost s curPos nextPos)
    (hnew : ¬ s.Found nextPos) :
    (A.noted goal curPos nextPos s).Expanded p ↔ s.Expanded p := by
  rw [Search.Expanded, found_noted goal hnonneg, queued_noted, not_or]
  constructor
  · rintro ⟨hfound, hne, hqueued⟩
    exact ⟨hfound.resolve_left hne, hqueued⟩
  · rintro ⟨hfound, hqueued⟩
    exact ⟨.inr hfound, fun heq => hnew (heq ▸ hfound), hqueued⟩

theorem extends_noted (goal : P) (hnonneg : 0 ≤ A.nextCost s curPos nextPos)
    (hnew : ¬ s.Found nextPos) : s.Extends (A.noted goal curPos nextPos s) where
  searchedArea _ hp := searchedArea_noted A goal curPos s fun heq => hnew (heq ▸ hp)
  expanded _ := expanded_noted goal hnonneg hnew

end Noted

section Checking

variable {Kept : P → Prop} {pending : P → P → Prop}

theorem Searching.cost_nonneg (hs : Searching A start goal Kept pending s)
    (hcosts : A.CostsNonneg) (hp : s.Found p) : 0 ≤ (s.searchedArea p).cost := by
  obtain ⟨path, hway⟩ := hs.way p hp
  exact hway.cost_nonneg hcosts

theorem found_of_nonneg (hp : 0 ≤ (s.searchedArea p).cost) : s.Found p := by
  rw [Search.Found, invalidCost]
  omega

theorem Searching.nextCost_nonneg (hs : Searching A start goal Kept pending s)
    (hcosts : A.CostsNonneg) (hp : s.Found curPos) (hedge : A.graph.Edge curPos nextPos) :
    0 ≤ A.nextCost s curPos nextPos :=
  add_nonneg (hs.cost_nonneg hcosts hp) (hcosts _ _ hedge)

theorem check_cases [DecidableEq P] (hcosts : A.CostsNonneg)
    (hnext : nextPos ∈ A.nighbors curPos) (goal : P) (s : Search P) :
    A.check goal curPos s nextPos = s ∧ (A.graph.Edge curPos nextPos → s.Found nextPos) ∨
      A.graph.Edge curPos nextPos ∧ ¬ s.Found nextPos ∧
        A.check goal curPos s nextPos = A.noted goal curPos nextPos s := by
  rw [check]
  split
  · next henterable =>
      have hedge : A.graph.Edge curPos nextPos := ⟨hnext, henterable⟩
      have hnot : ¬ A.nextCost s curPos nextPos < (s.searchedArea curPos).cost :=
        not_lt.mpr (le_add_of_nonneg_right (hcosts _ _ hedge))
      split
      · next hnew =>
          exact .inr ⟨hedge, fun hfound => hfound (hnew.resolve_right hnot), rfl⟩
      · next hknown => exact .inl ⟨rfl, fun _ hnew => hknown (.inl hnew)⟩
  · next henterable => exact .inl ⟨rfl, fun hedge => absurd hedge.2 henterable⟩

section NewCell

variable [DecidableEq P] (hs : Searching A start goal Kept pending s) (hcosts : A.CostsNonneg)
  (hcur : s.Expanded curPos) (hedge : A.graph.Edge curPos nextPos) (hnew : ¬ s.Found nextPos)

include hs hcosts hcur hedge hnew

theorem Searching.way_noted (hp : (A.noted goal curPos nextPos s).Found p) :
    ∃ path, A.Way (A.noted goal curPos nextPos s).searchedArea start path p := by
  have hnonneg := hs.nextCost_nonneg hcosts hcur.1 hedge
  have hold : ∀ p, s.Found p → ∃ path,
      A.Way (A.noted goal curPos nextPos s).searchedArea start path p := by
    intro p hp
    obtain ⟨path, hway⟩ := hs.way p hp
    exact ⟨path, hway.update hcosts (not_not.mp hnew) _⟩
  rcases (found_noted goal hnonneg).mp hp with rfl | hp
  · obtain ⟨path, hway⟩ := hold curPos hcur.1
    have hprev : ((A.noted goal curPos p s).searchedArea p).prevPos = curPos := by
      rw [attr_noted]
    have hkeeps := extends_noted goal hnonneg hnew
    refine ⟨path ++ [p], .link (fun heq => hnew (heq ▸ hs.found_start)) ?_ ?_ ?_⟩
    · rw [hprev]
      exact hedge
    · rw [hprev, attr_noted, hkeeps.searchedArea curPos hcur.1, nextCost]
    · rw [hprev]
      exact hway
  · exact hold p hp

theorem Searching.queued_noted {item : Int × P}
    (hitem : item ∈ (A.noted goal curPos nextPos s).frontier) :
    (A.noted goal curPos nextPos s).Found item.2 ∧ (item = (0, start) ∨
      item.1 = ((A.noted goal curPos nextPos s).searchedArea item.2).cost +
        A.heruistic item.2 goal) := by
  have hnonneg := hs.nextCost_nonneg hcosts hcur.1 hedge
  rcases List.mem_cons.mp hitem with rfl | hitem
  · refine ⟨(found_noted goal hnonneg).mpr (.inl rfl), .inr ?_⟩
    rw [attr_noted]
  · have hkeeps := extends_noted goal hnonneg hnew
    obtain ⟨hfound, heq⟩ := hs.queued item hitem
    rw [hkeeps.searchedArea _ hfound]
    exact ⟨hkeeps.found hfound, heq⟩

theorem Searching.checked_noted {q : P} (hp : s.Expanded p) (hedge' : A.graph.Edge p q)
    (hpending : ¬ (pending p q ∧ ¬ (p = curPos ∧ q = nextPos))) :
    (A.noted goal curPos nextPos s).Found q ∧
      (Kept q → ((A.noted goal curPos nextPos s).searchedArea q).cost ≤
        A.nextCost (A.noted goal curPos nextPos s) p q) := by
  have hnonneg := hs.nextCost_nonneg hcosts hcur.1 hedge
  have hkeeps := extends_noted goal hnonneg hnew
  have hcost : A.nextCost (A.noted goal curPos nextPos s) p q = A.nextCost s p q := by
    rw [nextCost, nextCost, hkeeps.searchedArea p hp.1]
  rw [hcost]
  rcases eq_or_ne q nextPos with rfl | hne
  · refine ⟨(found_noted goal hnonneg).mpr (.inl rfl), fun _ => ?_⟩
    rw [attr_noted]
    rcases eq_or_ne p curPos with rfl | hne
    · exact le_rfl
    · exact absurd (hs.checked p q hp hedge' fun h => hpending ⟨h, fun h => hne h.1⟩).1 hnew
  · obtain ⟨hfound, hle⟩ := hs.checked p q hp hedge' fun h => hpending ⟨h, fun h => hne h.2⟩
    rw [searchedArea_noted A goal curPos s hne]
    exact ⟨hkeeps.found hfound, hle⟩

omit hnew in
theorem Searching.nearest_noted :
    (A.noted goal curPos nextPos s).Found (A.noted goal curPos nextPos s).nearestToGoal.2 ∧
      (A.noted goal curPos nextPos s).nearestToGoal.1 =
        A.heruistic (A.noted goal curPos nextPos s).nearestToGoal.2 goal := by
  have hnonneg := hs.nextCost_nonneg hcosts hcur.1 hedge
  rw [AStar.noted]
  split
  · exact ⟨(found_noted goal hnonneg).mpr (.inl rfl), rfl⟩
  · exact ⟨(found_noted goal hnonneg).mpr (.inr hs.nearest.1), hs.nearest.2⟩

omit hnew in
theorem Searching.nearest_le_noted (hp : (A.noted goal curPos nextPos s).Found p) :
    (A.noted goal curPos nextPos s).nearestToGoal.1 ≤ A.heruistic p goal := by
  rw [found_noted goal (hs.nextCost_nonneg hcosts hcur.1 hedge)] at hp
  rw [AStar.noted]
  split
  · next hlt =>
      rcases hp with rfl | hp
      · exact le_rfl
      · exact hlt.le.trans (hs.nearest_le p hp)
  · next hnot =>
      rcases hp with rfl | hp
      · exact not_lt.mp hnot
      · exact hs.nearest_le p hp

theorem Searching.noted :
    Searching A start goal Kept (fun p q => pending p q ∧ ¬ (p = curPos ∧ q = nextPos))
      (A.noted goal curPos nextPos s) := by
  have hkeeps := extends_noted goal (hs.nextCost_nonneg hcosts hcur.1 hedge) hnew
  constructor
  case found_start => exact hkeeps.found hs.found_start
  case way => exact fun p => hs.way_noted hcosts hcur hedge hnew
  case nodup =>
    refine List.nodup_cons.mpr ⟨fun hqueued => hnew ?_, hs.nodup⟩
    obtain ⟨item, hitem, rfl⟩ := List.mem_map.mp hqueued
    exact (hs.queued item hitem).1
  case queued => exact fun item => hs.queued_noted hcosts hcur hedge hnew
  case checked =>
    intro p q hp
    exact hs.checked_noted hcosts hcur hedge hnew ((hkeeps.expanded p).mp hp)
  case goal_open =>
    rw [hkeeps.expanded]
    exact hs.goal_open
  case nearest => exact hs.nearest_noted hcosts hcur hedge
  case nearest_le => exact fun p => hs.nearest_le_noted hcosts hcur hedge

end NewCell

theorem extends_check [DecidableEq P] (hcosts : A.CostsNonneg)
    (hcur : 0 ≤ (s.searchedArea curPos).cost) (hnext : nextPos ∈ A.nighbors curPos) (goal : P) :
    s.Extends (A.check goal curPos s nextPos) := by
  rcases check_cases hcosts hnext goal s with ⟨heq, -⟩ | ⟨hedge, hnew, heq⟩
  · rw [heq]
    exact .refl s
  · rw [heq]
    exact extends_noted goal (add_nonneg hcur (hcosts _ _ hedge)) hnew

theorem extends_checks [DecidableEq P] {nighbors : List P} (hcosts : A.CostsNonneg)
    (hcur : 0 ≤ (s.searchedArea curPos).cost) (hall : ∀ q ∈ nighbors, q ∈ A.nighbors curPos)
    (goal : P) : s.Extends (nighbors.foldl (A.check goal curPos) s) := by
  induction nighbors generalizing s with
  | nil => exact .refl s
  | cons nextPos nighbors ih =>
      obtain ⟨hnext, hall⟩ := List.forall_mem_cons.mp hall
      have hextends := extends_check hcosts hcur hnext goal
      refine hextends.trans (ih ?_ hall)
      rwa [hextends.searchedArea curPos (found_of_nonneg hcur)]

theorem Searching.check [DecidableEq P] (hs : Searching A start goal Kept pending s)
    (hcosts : A.CostsNonneg) (hcur : s.Expanded curPos) (hnext : nextPos ∈ A.nighbors curPos)
    (hkept : Kept nextPos → ¬ PassesOver A s curPos nextPos) :
    Searching A start goal Kept (fun p q => pending p q ∧ ¬ (p = curPos ∧ q = nextPos))
      (A.check goal curPos s nextPos) := by
  rcases check_cases hcosts hnext goal s with ⟨heq, hfound⟩ | ⟨hedge, hnew, heq⟩
  · rw [heq]
    refine { hs with checked := fun p q hp hedge hpending => ?_ }
    rcases Classical.em (p = curPos ∧ q = nextPos) with ⟨rfl, rfl⟩ | hother
    · refine ⟨hfound hedge, fun hq => not_lt.mp fun hlt => hkept hq ?_⟩
      exact ⟨hedge.2, hfound hedge, hlt, not_lt.mpr (le_add_of_nonneg_right (hcosts _ _ hedge))⟩
    · exact hs.checked p q hp hedge fun h => hpending ⟨h, hother⟩
  · rw [heq]
    exact hs.noted hcosts hcur hedge hnew

theorem Searching.checks [DecidableEq P] {nighbors : List P}
    (hcosts : A.CostsNonneg) (hall : ∀ q ∈ nighbors, q ∈ A.nighbors curPos)
    (hs : Searching A start goal Kept (fun p q => p = curPos ∧ q ∈ nighbors) s)
    (hcur : s.Expanded curPos)
    (hkept : ∀ before q after, nighbors = before ++ q :: after → Kept q →
      ¬ PassesOver A (before.foldl (A.check goal curPos) s) curPos q) :
    Between A start goal Kept (nighbors.foldl (A.check goal curPos) s) := by
  induction nighbors generalizing s with
  | nil =>
      exact { hs with checked := fun p q hp hedge _ => hs.checked p q hp hedge (by simp) }
  | cons nextPos nighbors ih =>
      obtain ⟨hnext, hall⟩ := List.forall_mem_cons.mp hall
      have hs' := hs.check hcosts hcur hnext (hkept [] nextPos nighbors rfl)
      have hextends := extends_check hcosts (hs.cost_nonneg hcosts hcur.1) hnext goal
      apply ih hall
      · refine { hs' with checked := fun p q hp hedge hpending => hs'.checked p q hp hedge ?_ }
        rintro ⟨⟨hp, hq⟩, hother⟩
        exact hpending ⟨hp, (List.mem_cons.mp hq).resolve_left fun h => hother ⟨hp, h⟩⟩
      · exact (hextends.expanded curPos).mpr hcur
      · exact fun before q after hnighbors => hkept (nextPos :: before) q after
          (congrArg (nextPos :: ·) hnighbors)

end Checking

section Popping

variable [DecidableEq P] {top : Top P} {Kept : P → Prop}

theorem pop_found (h : s.frontier ≠ []) : (s.pop top h).2.Found p ↔ s.Found p := Iff.rfl

theorem perm_pop (top : Top P) (h : s.frontier ≠ []) :
    (s.frontier.map Prod.snd).Perm
      ((s.pop top h).1 :: (s.pop top h).2.frontier.map Prod.snd) :=
  (List.perm_cons_erase (top.item_mem s.frontier h)).map Prod.snd

theorem expanded_pop (hnodup : (s.frontier.map Prod.snd).Nodup) (h : s.frontier ≠ [])
    (hfound : s.Found (s.pop top h).1) :
    (s.pop top h).2.Expanded p ↔ p = (s.pop top h).1 ∨ s.Expanded p := by
  have hleft := List.nodup_cons.mp ((perm_pop top h).nodup_iff.mp hnodup)
  rw [Search.Expanded, Search.Expanded, pop_found, Search.Queued, Search.Queued,
    (perm_pop top h).mem_iff, List.mem_cons]
  rcases eq_or_ne p (s.pop top h).1 with rfl | hne
  · exact iff_of_true ⟨hfound, hleft.1⟩ (.inl rfl)
  · rw [or_iff_right hne, or_iff_right hne]

theorem Between.found_pop (hs : Between A start goal Kept s) (top : Top P)
    (h : s.frontier ≠ []) : s.Found (s.pop top h).1 :=
  (hs.queued _ (top.item_mem s.frontier h)).1

theorem Between.pop (hs : Between A start goal Kept s) (h : s.frontier ≠ [])
    (hgoal : (s.pop top h).1 ≠ goal) :
    Searching A start goal Kept
      (fun p q => p = (s.pop top h).1 ∧ q ∈ A.nighbors (s.pop top h).1) (s.pop top h).2 := by
  have hexpanded : ∀ p, (s.pop top h).2.Expanded p ↔ p = (s.pop top h).1 ∨ s.Expanded p :=
    fun _ => expanded_pop hs.nodup h (hs.found_pop _ h)
  constructor
  case found_start => exact hs.found_start
  case way => exact hs.way
  case nodup => exact (List.nodup_cons.mp ((perm_pop top h).nodup_iff.mp hs.nodup)).2
  case queued => exact fun item hitem => hs.queued item (List.mem_of_mem_erase hitem)
  case checked =>
    intro p q hp hedge hpending
    rcases (hexpanded p).mp hp with rfl | hp
    · exact absurd ⟨rfl, hedge.1⟩ hpending
    · exact hs.checked p q hp hedge not_false
  case goal_open =>
    rw [hexpanded, not_or]
    exact ⟨hgoal.symm, hs.goal_open⟩
  case nearest => exact hs.nearest
  case nearest_le => exact hs.nearest_le

end Popping

section Turns

variable [DecidableEq P] {top : Top P} {Kept : P → Prop}

theorem searchTurn_of_ne (h : s.frontier ≠ []) (hgoal : (s.pop top h).1 ≠ goal) :
    A.searchTurn goal top s = .yield (A.expand goal (s.pop top h).1 (s.pop top h).2) := by
  rw [searchTurn, dif_neg h]
  exact if_neg hgoal

theorem searchTurn_yield (h : A.searchTurn goal top s = .yield s') :
    ∃ h : s.frontier ≠ [], (s.pop top h).1 ≠ goal ∧
      s' = A.expand goal (s.pop top h).1 (s.pop top h).2 := by
  rw [searchTurn] at h
  split at h
  · cases h
  · next hsome =>
      dsimp only at h
      split at h
      · cases h
      · next hgoal => exact ⟨hsome, hgoal, (ForInStep.yield.inj h).symm⟩

theorem searchTurn_done (h : A.searchTurn goal top s = .done s') :
    s.frontier = [] ∧ s' = s ∨ ∃ h : s.frontier ≠ [], (s.pop top h).1 = goal ∧
      s' = { (s.pop top h).2 with nearestToGoal := (s.nearestToGoal.1, goal) } := by
  rw [searchTurn] at h
  split at h
  · next hnil => exact .inl ⟨hnil, (ForInStep.done.inj h).symm⟩
  · next hsome =>
      dsimp only at h
      split at h
      · next hgoal => exact .inr ⟨hsome, hgoal, (ForInStep.done.inj h).symm⟩
      · cases h

theorem Between.turn (hcosts : A.CostsNonneg) (hs : Between A start goal Kept s)
    (h : s.frontier ≠ []) (hgoal : (s.pop top h).1 ≠ goal)
    (hkept : ∀ before q after, A.nighbors (s.pop top h).1 = before ++ q :: after → Kept q →
      ¬ PassesOver A (before.foldl (A.check goal (s.pop top h).1) (s.pop top h).2)
        (s.pop top h).1 q) :
    Between A start goal Kept (A.expand goal (s.pop top h).1 (s.pop top h).2) :=
  (hs.pop h hgoal).checks hcosts (fun _ hq => hq)
    ((expanded_pop hs.nodup h (hs.found_pop _ h)).mpr (.inl rfl)) hkept

theorem Between.extends_turn (hcosts : A.CostsNonneg) (hs : Between A start goal Kept s)
    (top : Top P) (h : s.frontier ≠ []) :
    (s.pop top h).2.Extends (A.expand goal (s.pop top h).1 (s.pop top h).2) :=
  extends_checks (s := (s.pop top h).2) hcosts (hs.cost_nonneg hcosts (hs.found_pop _ h))
    (fun _ hq => hq) goal

end Turns

section Started

variable [DecidableEq P] [Inhabited P]

theorem cost_started (A : AStar P) (start goal : P) :
    ((A.started start goal).searchedArea start).cost = 0 := by
  simp only [started, Function.update_self]

theorem found_started (A : AStar P) (start goal : P) :
    (A.started start goal).Found p ↔ p = start := by
  rcases eq_or_ne p start with rfl | hne
  · rw [Search.Found, cost_started]
    exact iff_of_true (by decide) rfl
  · simp only [Search.Found, started, Function.update_of_ne hne]
    exact iff_of_false (fun h => h rfl) hne

theorem not_expanded_started (A : AStar P) (start goal : P) :
    ¬ (A.started start goal).Expanded p := by
  rintro ⟨hfound, hqueued⟩
  rw [(found_started A start goal).mp hfound] at hqueued
  exact hqueued (List.mem_singleton_self start)

theorem searching_started (A : AStar P) (start goal : P) (Kept : P → Prop) :
    Between A start goal Kept (A.started start goal) := by
  have hstart : (A.started start goal).Found start := (found_started A start goal).mpr rfl
  constructor
  case found_start => exact hstart
  case way =>
    intro p hp
    obtain rfl := (found_started A start goal).mp hp
    exact ⟨[], .start (cost_started A p goal)⟩
  case nodup => exact List.nodup_singleton start
  case queued =>
    intro item hitem
    obtain rfl := List.mem_singleton.mp hitem
    exact ⟨hstart, .inl rfl⟩
  case checked => exact fun p q hp => absurd hp (not_expanded_started A start goal)
  case goal_open => exact not_expanded_started A start goal
  case nearest => exact ⟨hstart, rfl⟩
  case nearest_le =>
    intro p hp
    rw [(found_started A start goal).mp hp]
    exact le_rfl

end Started

section Ending

variable {Kept : P → Prop}

/-- What the search has found when it comes to its end. -/
structure Finished (A : AStar P) (start goal : P) (s : Search P) : Prop where
  way : ∃ path, A.Way s.searchedArea start path s.nearestToGoal.2
  eq_goal : A.graph.Reachable start goal → s.nearestToGoal.2 = goal
  nearest : ¬ A.graph.Reachable start goal → ∀ p, A.graph.Reachable start p →
    A.heruistic s.nearestToGoal.2 goal ≤ A.heruistic p goal

theorem Between.reachable (hs : Between A start goal Kept s) (hp : s.Found p) :
    A.graph.Reachable start p := by
  obtain ⟨path, hway⟩ := hs.way p hp
  exact hway.leads.reachable

theorem Between.found_of_nil (hs : Between A start goal Kept s) (hnil : s.frontier = []) :
    (∀ p, A.graph.Reachable start p → s.Found p) ∧ ¬ A.graph.Reachable start goal := by
  have hexpanded : ∀ p, s.Found p → s.Expanded p := by
    refine fun p hp => ⟨hp, ?_⟩
    rw [Search.Queued, hnil]
    exact List.not_mem_nil
  have hfound : ∀ p, A.graph.Reachable start p → s.Found p := fun p hp =>
    hp.closed (fun p q hp hedge => (hs.checked p q (hexpanded p hp) hedge not_false).1)
      hs.found_start
  exact ⟨hfound, fun hgoal => hs.goal_open (hexpanded goal (hfound goal hgoal))⟩

variable [DecidableEq P]

theorem Between.finished {top : Top P} (hs : Between A start goal Kept s)
    (hturn : A.searchTurn goal top s = .done s') : Finished A start goal s' := by
  rcases searchTurn_done hturn with ⟨hnil, rfl⟩ | ⟨h, hgoal, rfl⟩
  · obtain ⟨hfound, hnot⟩ := hs.found_of_nil hnil
    refine ⟨hs.way _ hs.nearest.1, fun hreachable => absurd hreachable hnot, fun _ p hp => ?_⟩
    rw [← hs.nearest.2]
    exact hs.nearest_le p (hfound p hp)
  · have hfound : s.Found goal := hgoal ▸ hs.found_pop top h
    exact ⟨hs.way goal hfound, fun _ => rfl, fun hnot => absurd (hs.reachable hfound) hnot⟩

theorem Between.yield {top : Top P} (hcosts : A.CostsNonneg)
    (hs : Between A start goal (fun _ => False) s)
    (hturn : A.searchTurn goal top s = .yield s') :
    Between A start goal (fun _ => False) s' ∧
      (∀ p, s.Expanded p → s'.Expanded p) ∧ ∃ p, s.Found p ∧ ¬ s.Expanded p ∧ s'.Expanded p := by
  obtain ⟨h, hgoal, rfl⟩ := searchTurn_yield hturn
  have hextends := hs.extends_turn hcosts top h
  have hfound := hs.found_pop top h
  have hpopped : ∀ p, _ ↔ p = (s.pop top h).1 ∨ s.Expanded p :=
    fun p => (hextends.expanded p).trans (expanded_pop hs.nodup h hfound)
  refine ⟨hs.turn hcosts h hgoal fun _ _ _ _ hkept => hkept.elim,
    fun p hp => (hpopped p).mpr (.inr hp), (s.pop top h).1, hfound, ?_,
    (hpopped _).mpr (.inl rfl)⟩
  exact fun hexpanded => hexpanded.2 ((perm_pop top h).mem_iff.mpr List.mem_cons_self)

variable [Inhabited P]

/-- The search comes to an end: there are no more turns than cells it can come to. -/
theorem exists_ends (goal : P) (hfinite : {p | A.graph.Reachable start p}.Finite)
    (hcosts : A.CostsNonneg) (tops : Nat → Top P) :
    ∃ s, Ends (A.searchTurn goal) tops (A.started start goal) s ∧ Finished A start goal s := by
  classical
  refine ends_of_measure (Between A start goal (fun _ => False)) _
    (fun s => (hfinite.toFinset.filter fun p => ¬ s.Expanded p).card) ?_
    (fun _ _ _ hs hturn => hs.finished hturn) tops (searching_started A start goal _)
  intro top s s' hs hturn
  obtain ⟨hs', hgrows, p, hfound, hopen, hexpanded⟩ := hs.yield hcosts hturn
  refine ⟨hs', Finset.card_lt_card (Finset.ssubset_iff_of_subset ?_ |>.mpr ⟨p, ?_, ?_⟩)⟩
  · exact Finset.monotone_filter_right _ fun q _ hq hexpanded => hq (hgrows q hexpanded)
  · exact Finset.mem_filter.mpr ⟨hfinite.mem_toFinset.mpr (hs.reachable hfound), hopen⟩
  · exact fun hmem => (Finset.mem_filter.mp hmem).2 hexpanded

theorem findsPath_of_ends {tops : Nat → Top P} {path : List P}
    (hends : Ends (A.searchTurn goal) tops (A.started start goal) s)
    (hway : A.Way s.searchedArea start path s.nearestToGoal.2) :
    A.FindsPath tops start goal path := by
  obtain ⟨enough, hsearch⟩ := hends
  obtain ⟨enough', hback⟩ := hway.ends_pathTurn (fun _ => ()) []
  refine ⟨max enough enough', fun turns hturns => ?_⟩
  rw [findPath, hsearch turns (le_of_max_le_left hturns), Option.bind_eq_bind,
    Option.bind_some, hback turns (le_of_max_le_right hturns), List.append_nil]
  rfl

/-- The path leads from the start to `last`: to the goal, if any path does, and else to a cell
that is nearest to it. -/
structure LeadsNearest (A : AStar P) (start goal : P) (path : List P) (last : P) : Prop where
  leads : A.graph.Leads start path last
  eq_nil : last = start → path = []
  eq_goal : A.graph.Reachable start goal → last = goal
  nearest : ¬ A.graph.Reachable start goal → ∀ p, A.graph.Reachable start p →
    A.heruistic last goal ≤ A.heruistic p goal

/-- `findPath` comes to an end, with a path that can be gone. -/
theorem finds_leadsNearest (hfinite : {p | A.graph.Reachable start p}.Finite)
    (hcosts : A.CostsNonneg) (tops : Nat → Top P) :
    ∃ path last, A.FindsPath tops start goal path ∧ LeadsNearest A start goal path last := by
  obtain ⟨s, hends, hfinished⟩ := exists_ends goal hfinite hcosts tops
  obtain ⟨path, hway⟩ := hfinished.way
  exact ⟨path, _, findsPath_of_ends hends hway, hway.leads, fun hlast => hway.eq_nil hlast,
    hfinished.eq_goal, hfinished.nearest⟩

/-- Two ways lead to cell 2: a step from the start, and two cheaper ones over cell 1. -/
def twoWays : AStar (Fin 4) where
  nighbors p := ([[1, 2], [2], [3], []] : List (List (Fin 4))).getD p []
  enterable _ := true
  stepCost p q := if p = 0 ∧ q = 2 then 3 else 1
  heruistic _ _ := 0

theorem twoWays_costsNonneg : twoWays.CostsNonneg := by
  unfold CostsNonneg
  decide

theorem twoWays_leadsNearest : ∃ path last,
    twoWays.FindsPath (fun _ => leastTop) 0 3 path ∧ LeadsNearest twoWays 0 3 path last :=
  finds_leadsNearest (Set.toFinite _) twoWays_costsNonneg _

end Ending

end CasualGame.Componet.AStar
