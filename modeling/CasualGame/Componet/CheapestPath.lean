import CasualGame.Componet.PathSearch

/-!
When the path that the search finds is a cheapest one: a cell keeps the cost of the first way to
it, since the cost of a later one is held against that of the cell before.
-/

namespace CasualGame.Componet.AStar

open Lib.Paths
open Lib.While

universe u

variable {P : Type u} {A : AStar P} {start goal p q : P} {way path : List P} {s s' : Search P}

/-- The estimate of the goal is nothing, and no step lowers the estimate by more than it costs. -/
structure Consistent (A : AStar P) (goal : P) : Prop where
  heruistic_goal : A.heruistic goal goal = 0
  step : ∀ p q, A.graph.Edge p q → A.heruistic p goal ≤ A.stepCost p q + A.heruistic q goal

section Estimates

theorem Consistent.le_pathCost (h : Consistent A goal) (hpath : A.graph.Leads p path goal) :
    A.heruistic p goal ≤ A.graph.pathCost p path := by
  have hle := hpath.le_pathCost (fun p => A.heruistic p goal) h.step
  rwa [h.heruistic_goal, add_zero] at hle

theorem Between.item_le {Kept : P → Prop} (hs : Between A start goal Kept s)
    (hcosts : A.CostsNonneg)
    (hconsistent : Consistent A goal) {item : Int × P} (hitem : item ∈ s.frontier)
    (hpath : A.graph.Leads item.2 path goal) :
    item.1 ≤ (s.searchedArea item.2).cost + A.graph.pathCost item.2 path := by
  obtain ⟨hfound, rfl | hcost⟩ := hs.queued item hitem
  · exact add_nonneg (hs.cost_nonneg hcosts hfound) (hpath.pathCost_nonneg hcosts)
  · rw [hcost]
    gcongr
    exact hconsistent.le_pathCost hpath

theorem Between.exists_queued (hs : Between A start goal (· ∈ way) s)
    (hway : A.graph.Leads start way goal) :
    ∃ item ∈ s.frontier, ∃ rest, A.graph.Leads item.2 rest goal ∧
      (s.searchedArea item.2).cost + A.graph.pathCost item.2 rest ≤
        A.graph.pathCost start way := by
  obtain ⟨_, hstart⟩ := hs.way start hs.found_start
  rcases Classical.em (s.Queued start) with hqueued | hqueued
  · obtain ⟨item, hitem, heq⟩ := List.mem_map.mp hqueued
    refine ⟨item, hitem, way, heq ▸ hway, ?_⟩
    rw [heq, hstart.cost_start, zero_add]
  · have hlowered : ∀ p q, s.Expanded p → A.graph.Edge p q → q ∈ way →
        (s.Expanded q ∨ s.Queued q) ∧
          (s.searchedArea q).cost ≤ (s.searchedArea p).cost + A.stepCost p q := by
      intro p q hp hedge hq
      obtain ⟨hfound, hle⟩ := hs.checked p q hp hedge not_false
      exact ⟨(Classical.em (s.Queued q)).symm.imp_left fun h => ⟨hfound, h⟩, hle hq⟩
    obtain ⟨r, rest, hopen, hrest, hle⟩ := hway.exists_open s.Expanded s.Queued
      (fun p => (s.searchedArea p).cost) ⟨hs.found_start, hqueued⟩ hs.goal_open hlowered
    obtain ⟨item, hitem, rfl⟩ := List.mem_map.mp hopen
    refine ⟨item, hitem, rest, hrest, ?_⟩
    rwa [hstart.cost_start, zero_add] at hle

end Estimates

variable [DecidableEq P]

/-- A check of the turn passes over the cell. -/
def TurnPassesOver (A : AStar P) (goal : P) (top : Top P) (s : Search P) (q : P) : Prop :=
  ∃ h : s.frontier ≠ [], (s.pop top h).1 ≠ goal ∧ ∃ before after,
    A.nighbors (s.pop top h).1 = before ++ q :: after ∧
      PassesOver A (before.foldl (A.check goal (s.pop top h).1) (s.pop top h).2)
        (s.pop top h).1 q

/-- A check of the search passes over the cell. -/
def PassedOver [Inhabited P] (A : AStar P) (tops : Nat → Top P) (start goal q : P) : Prop :=
  ∃ top s, Comes (A.searchTurn goal) tops (A.started start goal) top s ∧
    TurnPassesOver A goal top s q

/-- `findPath` comes to an end, with a path that costs no more than any other. -/
def FindsCheapest [Inhabited P] (A : AStar P) (tops : Nat → Top P) (start goal : P) : Prop :=
  ∃ path, A.FindsPath tops start goal path ∧ A.graph.Cheapest start path goal

section Enough

variable {top : Top P}

theorem Between.cost_goal_le (hs : Between A start goal (· ∈ way) s)
    (hcosts : A.CostsNonneg) (hconsistent : Consistent A goal)
    (hway : A.graph.Leads start way goal) (h : s.frontier ≠ [])
    (hgoal : (s.pop top h).1 = goal) :
    (s.searchedArea goal).cost ≤ A.graph.pathCost start way := by
  obtain ⟨item, hitem, rest, hrest, hle⟩ := hs.exists_queued hway
  have htop : (s.searchedArea goal).cost ≤ (top.item s.frontier h).1 := by
    obtain ⟨-, heq | heq⟩ := hs.queued _ (top.item_mem s.frontier h)
    · obtain ⟨_, hstart⟩ := hs.way start hs.found_start
      have : goal = start := hgoal.symm.trans (congrArg Prod.snd heq)
      rw [this, hstart.cost_start, heq]
    · have : (top.item s.frontier h).2 = goal := hgoal
      rw [heq, this, hconsistent.heruistic_goal, add_zero]
  calc (s.searchedArea goal).cost ≤ (top.item s.frontier h).1 := htop
    _ ≤ item.1 := top.item_le s.frontier h item hitem
    _ ≤ (s.searchedArea item.2).cost + A.graph.pathCost item.2 rest :=
        hs.item_le hcosts hconsistent hitem hrest
    _ ≤ A.graph.pathCost start way := hle

variable [Inhabited P] {tops : Nat → Top P}

theorem cost_goal_le_of_ends (hcosts : A.CostsNonneg) (hconsistent : Consistent A goal)
    (hway : A.graph.Leads start way goal)
    (hkept : ∀ q ∈ way, ¬ PassedOver A tops start goal q)
    (hends : Ends (A.searchTurn goal) tops (A.started start goal) s) :
    (s.searchedArea goal).cost ≤ A.graph.pathCost start way := by
  refine hends.invariant_of_comes (Between A start goal (· ∈ way))
    (fun s => (s.searchedArea goal).cost ≤ A.graph.pathCost start way) ?_ ?_
    (searching_started A start goal _)
  · intro top t t' hcomes ht hturn
    obtain ⟨h, hgoal, rfl⟩ := searchTurn_yield hturn
    exact ht.turn hcosts h hgoal fun before q after hnighbors hq hpasses =>
      hkept q hq ⟨top, t, hcomes, h, hgoal, before, after, hnighbors, hpasses⟩
  · intro top t t' _ ht hturn
    rcases searchTurn_done hturn with ⟨hnil, rfl⟩ | ⟨h, hgoal, rfl⟩
    · exact absurd hway.reachable (ht.found_of_nil hnil).2
    · exact ht.cost_goal_le hcosts hconsistent hway h hgoal

end Enough

section Needed

variable {top : Top P}

theorem Between.ends_attr {inputs : Nat → Top P} (hcosts : A.CostsNonneg)
    (hs : Between A start goal (fun _ => False) s) (hq : s.Found q)
    (hends : Ends (A.searchTurn goal) inputs s s') : s'.searchedArea q = s.searchedArea q := by
  refine hends.invariant_of_comes
    (fun t => Between A start goal (fun _ => False) t ∧ t.Found q ∧
      t.searchedArea q = s.searchedArea q)
    (fun t => t.searchedArea q = s.searchedArea q) ?_ ?_ ⟨hs, hq, rfl⟩
  · rintro top t t' - ⟨ht, hfound, heq⟩ hturn
    obtain ⟨h, hgoal, rfl⟩ := searchTurn_yield hturn
    have hextends := ht.extends_turn hcosts top h
    exact ⟨ht.turn hcosts h hgoal fun _ _ _ _ hkept => hkept.elim, hextends.found hfound,
      (hextends.searchedArea q hfound).trans heq⟩
  · rintro top t t' - ⟨-, -, heq⟩ hturn
    rcases searchTurn_done hturn with ⟨-, rfl⟩ | ⟨_, -, rfl⟩
    · exact heq
    · exact heq

theorem Between.exists_cheaper (hcosts : A.CostsNonneg)
    (hs : Between A start goal (fun _ => False) s)
    (hpasses : TurnPassesOver A goal top s q) :
    ∃ t, A.searchTurn goal top s = .yield t ∧
      Between A start goal (fun _ => False) t ∧ t.Found q ∧
      ∃ path, A.graph.Leads start path q ∧
        A.graph.pathCost start path < (t.searchedArea q).cost := by
  obtain ⟨h, hgoal, before, after, hnighbors, henterable, hfound, hlt, -⟩ := hpasses
  have hall : ∀ r ∈ before ++ q :: after, r ∈ A.nighbors (s.pop top h).1 :=
    fun r hr => hnighbors ▸ hr
  have hcur := hs.cost_nonneg hcosts (hs.found_pop top h)
  obtain ⟨path, hway⟩ := hs.way _ (hs.found_pop top h)
  have hbefore := extends_checks (s := (s.pop top h).2) hcosts hcur
    (fun r hr => hall r (List.mem_append_left _ hr)) goal
  have hcur' := hbefore.searchedArea _ (hs.found_pop top h)
  have hafter := extends_checks hcosts (hcur' ▸ hcur)
    (fun r hr => hall r (List.mem_append_right _ hr)) goal
  rw [← List.foldl_append, ← hnighbors, ← expand] at hafter
  refine ⟨_, searchTurn_of_ne h hgoal, hs.turn hcosts h hgoal fun _ _ _ _ hkept => hkept.elim,
    hafter.found hfound, path ++ [q], hway.leads.snoc ⟨?_, henterable⟩, ?_⟩
  · exact hall q (List.mem_append_right _ List.mem_cons_self)
  · rw [hafter.searchedArea q hfound, WeightedGraph.pathCost_snoc hway.leads, ← hway.cost_eq]
    rwa [nextCost, hcur'] at hlt

variable [Inhabited P] {tops : Nat → Top P}

/-- No cell of the path that is found has been passed over, when it is a cheapest path. -/
theorem not_passedOver (hcosts : A.CostsNonneg)
    (hends : Ends (A.searchTurn goal) tops (A.started start goal) s)
    (hway : A.Way s.searchedArea start path goal) (hcheapest : A.graph.Cheapest start path goal)
    (hq : q ∈ path) : ¬ PassedOver A tops start goal q := by
  rintro ⟨top, t, hcomes, hpasses⟩
  have ht : Between A start goal (fun _ => False) t :=
    hcomes.invariant (fun _ _ _ hs hturn => (hs.yield hcosts hturn).1)
      (searching_started A start goal _)
  obtain ⟨t', hturn, ht', hfound, cheaper, hleads, hlt⟩ := ht.exists_cheaper hcosts hpasses
  obtain ⟨inputs, rfl, hends'⟩ := hcomes.ends hends
  obtain ⟨before, after, rfl⟩ := List.append_of_mem hq
  have hpart := hway.part rfl
  have hsame := ht'.ends_attr hcosts hfound (hends'.of_yield hturn)
  rw [List.append_cons] at hcheapest
  have hle := (hcheapest.part hpart.leads).2 cheaper hleads
  rw [← hpart.cost_eq, hsame] at hle
  exact absurd hlt (not_lt.mpr hle)

end Needed

section Order

/-- What a step costs beyond the estimate of the cell it starts from is up to the cell it leads
to, as where every cell has a price and nothing is estimated. -/
def PricedByTarget (A : AStar P) (goal : P) : Prop :=
  ∀ p p' q, A.graph.Edge p q → A.graph.Edge p' q →
    A.stepCost p q - A.heruistic p goal = A.stepCost p' q - A.heruistic p' goal

/-- What the way that has been found to a cell promises to cost in all. -/
def promise (A : AStar P) (goal : P) (s : Search P) (p : P) : Int :=
  (s.searchedArea p).cost + A.heruistic p goal

/-- Between two turns: the cells have been expanded in the order of what they promise, and each
has been found from one of them. -/
structure InOrder (A : AStar P) (start goal : P) (s : Search P) : Prop where
  between : Between A start goal (fun _ => False) s
  alone : s.Queued start → ∀ p, s.Found p → p = start
  before : ∀ p, s.Found p → p ≠ start → s.Expanded (s.searchedArea p).prevPos
  mono : ∀ p q, s.Expanded p → s.Queued q → A.promise goal s p ≤ A.promise goal s q

variable {curPos : P} {top : Top P}

omit [DecidableEq P] in
theorem Between.found_of_queued (hs : Between A start goal (fun _ => False) s)
    (hq : s.Queued q) : s.Found q := by
  obtain ⟨item, hitem, rfl⟩ := List.mem_map.mp hq
  exact (hs.queued item hitem).1

omit [DecidableEq P] in
theorem Between.link (hs : Between A start goal (fun _ => False) s) (hq : s.Found q)
    (hne : q ≠ start) : A.graph.Edge (s.searchedArea q).prevPos q ∧
      (s.searchedArea q).cost =
        (s.searchedArea (s.searchedArea q).prevPos).cost +
          A.stepCost (s.searchedArea q).prevPos q := by
  obtain ⟨path, hway⟩ := hs.way q hq
  cases hway with
  | start _ => exact absurd rfl hne
  | link _ hedge hcost _ => exact ⟨hedge, hcost⟩

omit [DecidableEq P] in
theorem Between.cost_start (hs : Between A start goal (fun _ => False) s) :
    (s.searchedArea start).cost = 0 := by
  obtain ⟨path, hway⟩ := hs.way start hs.found_start
  exact hway.cost_start

theorem queued_pop (top : Top P) (h : s.frontier ≠ []) : s.Queued (s.pop top h).1 :=
  (perm_pop top h).mem_iff.mpr List.mem_cons_self

/-- The cell that is popped promises no more than any other in the heap. -/
theorem InOrder.promise_pop_le (hs : InOrder A start goal s) (h : s.frontier ≠ [])
    (hq : s.Queued q) : A.promise goal s (s.pop top h).1 ≤ A.promise goal s q := by
  rcases Classical.em (s.Queued start) with hstart | hstart
  · have hcur := hs.between.found_pop top h
    rw [hs.alone hstart _ hcur, hs.alone hstart q (hs.between.found_of_queued hq)]
  · have hitem : ∀ item ∈ s.frontier, item.1 = A.promise goal s item.2 := by
      intro item hitem
      refine (hs.between.queued item hitem).2.resolve_left fun heq => hstart ?_
      exact List.mem_map.mpr ⟨item, hitem, congrArg Prod.snd heq⟩
    obtain ⟨item, hmem, rfl⟩ := List.mem_map.mp hq
    rw [← hitem item hmem]
    exact (hitem _ (top.item_mem s.frontier h)).symm.trans_le (top.item_le s.frontier h item hmem)

theorem found_checks {nighbors : List P} (hcosts : A.CostsNonneg)
    (hcur : 0 ≤ (s.searchedArea curPos).cost) (hall : ∀ q ∈ nighbors, q ∈ A.nighbors curPos)
    (hq : (nighbors.foldl (A.check goal curPos) s).Found q) :
    s.Found q ∨ A.graph.Edge curPos q ∧
      (nighbors.foldl (A.check goal curPos) s).searchedArea q =
        { prevPos := curPos, cost := A.nextCost s curPos q } := by
  induction nighbors generalizing s with
  | nil => exact .inl hq
  | cons nextPos nighbors ih =>
      obtain ⟨hnext, hrest⟩ := List.forall_mem_cons.mp hall
      have hextends := extends_check hcosts hcur hnext goal
      have hsame := hextends.searchedArea curPos (found_of_nonneg hcur)
      have hcost : A.nextCost (A.check goal curPos s nextPos) curPos q = A.nextCost s curPos q := by
        rw [nextCost, nextCost, hsame]
      rw [List.foldl_cons] at hq ⊢
      rcases ih (hsame ▸ hcur) hrest hq with hfound | hnew
      · rcases check_cases hcosts hnext goal s with ⟨heq, -⟩ | ⟨hedge, hnot, heq⟩
        · exact .inl (heq ▸ hfound)
        · rw [heq] at hfound
          have hnonneg := add_nonneg hcur (hcosts _ _ hedge)
          refine ((found_noted goal hnonneg).mp hfound).symm.imp_right ?_
          rintro rfl
          have hlater := extends_checks hcosts (hsame ▸ hcur) hrest goal
          have hfound : (A.check goal curPos s q).Found q :=
            heq ▸ (found_noted goal hnonneg).mpr (.inl rfl)
          refine ⟨hedge, (hlater.searchedArea q hfound).trans ?_⟩
          rw [heq, attr_noted]
      · rw [hcost] at hnew
        exact .inr hnew

theorem InOrder.expanded_turn (hs : InOrder A start goal s) (hcosts : A.CostsNonneg) (top : Top P)
    (h : s.frontier ≠ []) (p : P) :
    (A.expand goal (s.pop top h).1 (s.pop top h).2).Expanded p ↔
      p = (s.pop top h).1 ∨ s.Expanded p :=
  ((hs.between.extends_turn hcosts top h).expanded p).trans
    (expanded_pop hs.between.nodup h (hs.between.found_pop top h))

/-- A later way to a cell is no cheaper than the first one. -/
theorem InOrder.not_turnPassesOver (hs : InOrder A start goal s) (hcosts : A.CostsNonneg)
    (hpriced : PricedByTarget A goal) : ¬ TurnPassesOver A goal top s q := by
  rintro ⟨h, -, before, after, hnighbors, henterable, hfound, hlt, -⟩
  have hall : ∀ r ∈ before ++ q :: after, r ∈ A.nighbors (s.pop top h).1 :=
    fun r hr => hnighbors ▸ hr
  have hedge : A.graph.Edge (s.pop top h).1 q :=
    ⟨hall q (List.mem_append_right _ List.mem_cons_self), henterable⟩
  have hcur := hs.between.cost_nonneg hcosts (hs.between.found_pop top h)
  have hbefore := extends_checks (s := (s.pop top h).2) hcosts hcur
    (fun r hr => hall r (List.mem_append_left _ hr)) goal
  rw [nextCost, hbefore.searchedArea _ (hs.between.found_pop top h)] at hlt
  change (s.searchedArea (s.pop top h).1).cost + A.stepCost (s.pop top h).1 q < _ at hlt
  rcases found_checks (s := (s.pop top h).2) hcosts hcur
    (fun r hr => hall r (List.mem_append_left _ hr)) hfound with hold | ⟨-, hattr⟩
  · rw [hbefore.searchedArea q hold] at hlt
    change _ < (s.searchedArea q).cost at hlt
    rcases eq_or_ne q start with rfl | hne
    · rw [hs.between.cost_start] at hlt
      exact absurd hlt (not_lt.mpr (add_nonneg hcur (hcosts _ _ hedge)))
    · obtain ⟨hedge', hcost⟩ := hs.between.link hold hne
      have hle := hs.mono _ _ (hs.before q hold hne) (queued_pop top h)
      have hsame := hpriced _ _ q hedge' hedge
      rw [promise, promise] at hle
      omega
  · rw [hattr] at hlt
    exact absurd hlt (lt_irrefl _)

theorem InOrder.yield (hs : InOrder A start goal s) (hcosts : A.CostsNonneg)
    (hconsistent : Consistent A goal) (hturn : A.searchTurn goal top s = .yield s') :
    InOrder A start goal s' := by
  obtain ⟨h, hgoal, rfl⟩ := searchTurn_yield hturn
  have hextends := hs.between.extends_turn hcosts top h
  have hexpanded := hs.expanded_turn hcosts top h
  have hcur := hs.between.cost_nonneg hcosts (hs.between.found_pop top h)
  have hnew : ∀ q, (A.expand goal (s.pop top h).1 (s.pop top h).2).Found q → s.Found q ∨
      A.graph.Edge (s.pop top h).1 q ∧
        (A.expand goal (s.pop top h).1 (s.pop top h).2).searchedArea q =
          { prevPos := (s.pop top h).1, cost := A.nextCost s (s.pop top h).1 q } := fun q hq =>
    found_checks (s := (s.pop top h).2) hcosts hcur (fun _ hr => hr) hq
  have hpromise : ∀ p, s.Found p →
      A.promise goal (A.expand goal (s.pop top h).1 (s.pop top h).2) p = A.promise goal s p := by
    intro p hp
    rw [promise, hextends.searchedArea p hp]
    rfl
  constructor
  case between => exact hs.between.turn hcosts h hgoal fun _ _ _ _ hkept => hkept.elim
  case alone =>
    intro hqueued
    refine absurd hqueued ((hexpanded start).mpr ?_).2
    rcases Classical.em (s.Queued start) with hstart | hstart
    · exact .inl (hs.alone hstart _ (hs.between.found_pop top h)).symm
    · exact .inr ⟨hs.between.found_start, hstart⟩
  case before =>
    intro q hq hne
    rw [hexpanded]
    rcases hnew q hq with hold | ⟨-, hattr⟩
    · rw [hextends.searchedArea q hold]
      exact .inr (hs.before q hold hne)
    · rw [hattr]
      exact .inl rfl
  case mono =>
    intro p q hp hq
    have hbetween := hs.between.turn hcosts h hgoal fun _ _ _ _ hkept => hkept.elim
    have hcurLe : ∀ p, p = (s.pop top h).1 ∨ s.Expanded p →
        s.Found p ∧ A.promise goal s p ≤ A.promise goal s (s.pop top h).1 := by
      rintro p (rfl | hp)
      · exact ⟨hs.between.found_pop top h, le_rfl⟩
      · exact ⟨hp.1, hs.mono _ _ hp (queued_pop top h)⟩
    obtain ⟨hfound, hle⟩ := hcurLe p ((hexpanded p).mp hp)
    rw [hpromise p hfound]
    refine hle.trans ?_
    rcases hnew q (hbetween.found_of_queued hq) with hold | ⟨hedge, hattr⟩
    · rw [hpromise q hold]
      have hopen : s.Queued q := by
        by_contra hnot
        exact ((hexpanded q).mpr (.inr ⟨hold, hnot⟩)).2 hq
      exact hs.promise_pop_le h hopen
    · have hstep := hconsistent.step _ _ hedge
      rw [promise, promise, hattr, nextCost]
      dsimp only
      omega

variable [Inhabited P] {tops : Nat → Top P}

theorem inOrder_started (A : AStar P) (start goal : P) :
    InOrder A start goal (A.started start goal) where
  between := searching_started A start goal _
  alone _ _ hp := (found_started A start goal).mp hp
  before _ hp hne := absurd ((found_started A start goal).mp hp) hne
  mono _ _ hp := absurd hp (not_expanded_started A start goal)

theorem not_passedOver_of_priced (hcosts : A.CostsNonneg) (hconsistent : Consistent A goal)
    (hpriced : PricedByTarget A goal) : ¬ PassedOver A tops start goal q := by
  rintro ⟨top, s, hcomes, hpasses⟩
  have hs : InOrder A start goal s :=
    hcomes.invariant (fun _ _ _ hs hturn => hs.yield hcosts hconsistent hturn)
      (inOrder_started A start goal)
  exact hs.not_turnPassesOver hcosts hpriced hpasses

end Order

section Cheapest

variable [Inhabited P]

theorem FindsPath.unique {tops : Nat → Top P} {path path' : List P}
    (h : A.FindsPath tops start goal path) (h' : A.FindsPath tops start goal path') :
    path = path' := by
  obtain ⟨enough, h⟩ := h
  obtain ⟨enough', h'⟩ := h'
  have hpath := h (max enough enough') (le_max_left ..)
  rw [h' _ (le_max_right ..)] at hpath
  exact (Option.some.inj hpath).symm

theorem findsPath_of_findPath {tops : Nat → Top P} {turns : Nat}
    (h : A.findPath tops start goal turns = some path) : A.FindsPath tops start goal path := by
  obtain ⟨s, hsearch, h⟩ := Option.bind_eq_some_iff.mp h
  obtain ⟨back, hback, h⟩ := Option.bind_eq_some_iff.mp h
  obtain ⟨enough, hends⟩ := ends_of_whileLoop hsearch
  obtain ⟨enough', hends'⟩ := ends_of_whileLoop hback
  refine ⟨max enough enough', fun turns hturns => ?_⟩
  rw [findPath, hends turns (le_of_max_le_left hturns), Option.bind_eq_bind, Option.bind_some,
    hends' turns (le_of_max_le_right hturns)]
  exact h

/-- The path that is found is a cheapest one if and only if no check passes over a cell of some
cheapest path. No cell is passed over where the cells have their prices. -/
theorem findsCheapest_iff (hfinite : {p | A.graph.Reachable start p}.Finite)
    (hcosts : A.CostsNonneg) (hconsistent : Consistent A goal)
    (hgoal : A.graph.Reachable start goal) (tops : Nat → Top P) :
    (FindsCheapest A tops start goal ↔
      ∃ way, A.graph.Cheapest start way goal ∧
        ∀ q ∈ way, ¬ PassedOver A tops start goal q) ∧
    (PricedByTarget A goal → FindsCheapest A tops start goal) := by
  obtain ⟨s, hends, hfinished⟩ := exists_ends goal hfinite hcosts tops
  obtain ⟨path, hway⟩ := hfinished.way
  have hfinds := findsPath_of_ends hends hway
  rw [hfinished.eq_goal hgoal] at hway
  have hle : ∀ way, A.graph.Leads start way goal →
      (∀ q ∈ way, ¬ PassedOver A tops start goal q) →
        A.graph.pathCost start path ≤ A.graph.pathCost start way := fun way hleads hkept =>
    hway.cost_eq.symm.trans_le (cost_goal_le_of_ends hcosts hconsistent hleads hkept hends)
  refine ⟨⟨?_, ?_⟩, fun hpriced => ?_⟩
  · rintro ⟨path', hfinds', hcheapest⟩
    obtain rfl := hfinds.unique hfinds'
    exact ⟨path, hcheapest, fun q hq => not_passedOver hcosts hends hway hcheapest hq⟩
  · rintro ⟨way, hcheapest, hkept⟩
    refine ⟨path, hfinds, hway.leads, fun path' hpath' => ?_⟩
    exact (hle way hcheapest.1 hkept).trans (hcheapest.2 path' hpath')
  · refine ⟨path, hfinds, hway.leads, fun path' hpath' => hle path' hpath' fun q _ => ?_⟩
    exact not_passedOver_of_priced hcosts hconsistent hpriced

theorem twoWays_consistent : Consistent twoWays 3 where
  heruistic_goal := rfl
  step := by decide

theorem twoWays_leads : twoWays.graph.Leads 0 [1, 2, 3] 3 := by decide

/-- The same cells, of which each has a price. -/
def pricedWays : AStar (Fin 4) :=
  { twoWays with stepCost := fun _ q => if q.val = 2 then 3 else 1 }

theorem twoWays_findsCheapest_iff : (FindsCheapest twoWays (fun _ => leastTop) 0 3 ↔
    ∃ way, twoWays.graph.Cheapest 0 way 3 ∧
      ∀ q ∈ way, ¬ PassedOver twoWays (fun _ => leastTop) 0 3 q) ∧
    FindsCheapest pricedWays (fun _ => leastTop) 0 3 := by
  have hcosts : pricedWays.CostsNonneg := by
    unfold CostsNonneg
    decide
  have hpriced : PricedByTarget pricedWays 3 := by
    unfold PricedByTarget
    decide
  have hleads : pricedWays.graph.Leads 0 [2, 3] 3 := by decide
  exact ⟨(findsCheapest_iff (Set.toFinite _) twoWays_costsNonneg twoWays_consistent
    twoWays_leads.reachable _).1,
    (findsCheapest_iff (Set.toFinite _) hcosts ⟨rfl, by decide⟩ hleads.reachable _).2 hpriced⟩

/-- The first way to cell 2 is kept when the cheaper one is found. -/
theorem twoWays_not_cheapest : {p | twoWays.graph.Reachable 0 p}.Finite ∧
    twoWays.CostsNonneg ∧ Consistent twoWays 3 ∧ twoWays.graph.Reachable 0 3 ∧
    twoWays.FindsPath (fun _ => leastTop) 0 3 [2, 3] ∧
    ¬ FindsCheapest twoWays (fun _ => leastTop) 0 3 := by
  have hfinds : twoWays.FindsPath (fun _ => leastTop) 0 3 [2, 3] :=
    findsPath_of_findPath (show twoWays.findPath _ 0 3 5 = some [2, 3] by decide +kernel)
  refine ⟨Set.toFinite _, twoWays_costsNonneg, twoWays_consistent, twoWays_leads.reachable,
    hfinds, ?_⟩
  rintro ⟨path, hfinds', hcheapest⟩
  obtain rfl := hfinds.unique hfinds'
  exact absurd (hcheapest.2 [1, 2, 3] twoWays_leads) (by decide)

end Cheapest

end CasualGame.Componet.AStar
