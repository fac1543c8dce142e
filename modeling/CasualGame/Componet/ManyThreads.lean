import CasualGame.Componet.LockFreeCircularQueueMPMC

/-!
What every step of many threads keeps.
-/

namespace CasualGame.Componet

open Lib.Locks Lib.Ring Lib.Run

universe u v

namespace LockFreeCircularQueueMPMC

variable {α : Type u} {τ : Type v}

namespace Inv

variable {k : Nat} {stage : Nat → Stage τ} {s : Threads τ α} [DecidableEq τ] {t : τ} {p : Pc α}

section Steps

theorem setPc (h : Inv k stage s) (hheld : p.held = (s.pc t).held)
    (hat : s.past.At s.queue.data (2 ^ k) t p) (hread : ∀ index, s.pc t ≠ .read index) :
    Inv k stage (s.setPc t p) where
  small := h.small
  maxSize_eq := h.maxSize_eq
  beginPos_eq := h.beginPos_eq
  endPos_eq := h.endPos_eq
  agree := h.agree_setPc hheld
  status_eq := h.status_eq
  marked := h.marked
  data_eq := h.data_eq
  at_pc := at_update hat fun t' _ => h.at_pc t'
  ledger := h.ledger
  inFlight _ hj := (h.inFlight_update hread hj).imp_right
    fun ⟨t', index, _, hpc, hplace⟩ => ⟨t', index, hpc, hplace⟩

theorem setPc_of_free (h : Inv k stage s) (hfree : (s.pc t).held = none) (hp : p.held = none)
    (hat : s.past.At s.queue.data (2 ^ k) t p) : Inv k stage (s.setPc t p) := by
  apply h.setPc (hp.trans hfree.symm) hat
  intro index hpc
  rw [hpc] at hfree
  cases hfree

variable {index : UInt32}

theorem setStage (h : Inv k stage s) {x : Stage τ} {status : Status} (mode : Option Mode)
    (hx : x.status = status) (hp : p.held = mode.map (index.toNat, ·))
    (howner : x.owner = mode.map (t, ·))
    (hmine : ((stage index.toNat).owner = none ∧ (s.pc t).held = none) ∨
      ∃ m, (s.pc t).held = some (index.toNat, m))
    (hoccupied : x.Occupied ↔ (stage index.toNat).Occupied)
    (hwritten : x.Written → (stage index.toNat).Written)
    (hat : s.past.At s.queue.data (2 ^ k) t p) (hread : ∀ index, s.pc t ≠ .read index) :
    Inv k (Function.update stage index.toNat x)
      { s.setPc t p with queue := s.queue.storeStatus index status } where
  small := h.small
  maxSize_eq := h.maxSize_eq
  beginPos_eq := h.beginPos_eq
  endPos_eq := h.endPos_eq
  agree := h.agree_setStage mode hp howner hmine
  status_eq := h.status_setStage hx
  marked := h.marked_same hoccupied
  data_eq j hj hj' hnow := by
    refine h.data_eq j hj hj' ?_
    rw [Function.update_apply] at hnow
    split_ifs at hnow with hc
    · rw [hc]
      exact hwritten hnow
    · exact hnow
  at_pc := at_update hat fun t' _ => h.at_pc t'
  ledger := h.ledger
  inFlight _ hj := (h.inFlight_update hread hj).imp_right
    fun ⟨t', index, _, hpc, hplace⟩ => ⟨t', index, hpc, hplace⟩

omit [DecidableEq τ] in
theorem index_of_moveEnd {item : α} {i : Nat} {oldEnd : UInt32} (h : Inv k stage s)
    (hpc : s.pc t = .moveEnd item i oldEnd index) (hend : s.queue.endPos = oldEnd) :
    index.toNat = s.past.placed.length % 2 ^ k := by
  have hat := h.at_pc t
  rw [hpc] at hat
  rw [show index.toNat = oldEnd.toNat % 2 ^ k from hat, ← hend, h.endPos_eq, h.mod_ofNat]

omit [DecidableEq τ] in
theorem index_of_moveBegin {i : Nat} {oldBegin : UInt32} (h : Inv k stage s)
    (hpc : s.pc t = .moveBegin i oldBegin index) (hbegin : s.queue.beginPos = oldBegin) :
    index.toNat = s.past.taken % 2 ^ k := by
  have hat := h.at_pc t
  rw [hpc] at hat
  rw [show index.toNat = oldBegin.toNat % 2 ^ k from hat, ← hbegin, h.beginPos_eq, h.mod_ofNat]

theorem getElem?_push {past : Past τ α} {item x : α} {j : Nat} (hget : past.placed[j]? = some x) :
    (past.push t item).placed[j]? = some x := by
  change (past.placed ++ [item])[j]? = some x
  rw [List.getElem?_append_left (List.getElem?_eq_some_iff.mp hget).1]
  exact hget

theorem length_push (past : Past τ α) (t : τ) (item : α) :
    (past.push t item).placed.length = past.placed.length + 1 :=
  List.length_append

theorem at_others_push (h : Inv k stage s) (item : α) {t' : τ} (hne : t' ≠ t) :
    (s.past.push t item).At s.queue.data (2 ^ k) t' (s.pc t') := by
  have hplace : (s.past.push t item).place t' = s.past.place t' := Function.update_of_ne hne _ _
  refine (h.at_pc t').mono (fun _ _ hfill => ?_) (fun x hget => ?_) fun _ _ hdrain => ?_
  · refine ⟨?_, ?_, ?_, ?_⟩ <;> rw [hplace]
    · exact hfill.taken_le
    · rw [length_push]
      exact hfill.lt_length.trans (Nat.lt_succ_self _)
    · exact hfill.place_mod
    · exact hfill.not_returned
  · rw [hplace]
    exact getElem?_push hget
  · refine ⟨?_, ?_, ?_, ?_⟩ <;> rw [hplace]
    · exact hdrain.lt_taken
    · exact hdrain.place_mod
    · exact getElem?_push hdrain.placed_eq
    · exact hdrain.not_popped

theorem at_others_take (h : Inv k stage s) {m : Mode}
    (hheld : (s.pc t).held = some (index.toNat, m)) (hindex : index.toNat = s.past.taken % 2 ^ k)
    {t' : τ} (hne : t' ≠ t) : (s.past.take t).At s.queue.data (2 ^ k) t' (s.pc t') := by
  have hplace : (s.past.take t).place t' = s.past.place t' := Function.update_of_ne hne _ _
  refine (h.at_pc t').mono (fun index' hheld' hfill => ?_) (fun x hget => ?_)
    fun _ _ hdrain => ?_
  · refine ⟨?_, ?_, ?_, ?_⟩ <;> rw [hplace]
    · refine Nat.succ_le_of_lt (hfill.taken_le.lt_of_ne fun heq => ?_)
      have hcell : index'.toNat = index.toNat := by
        rw [← hfill.place_mod, ← heq, hindex]
      rcases hheld' with hheld' | hheld' <;> exact h.ne_of_held hheld hheld' hne hcell
    · exact hfill.lt_length
    · exact hfill.place_mod
    · exact hfill.not_returned
  · rw [hplace]
    exact hget
  · refine ⟨?_, ?_, ?_, ?_⟩ <;> rw [hplace]
    · exact hdrain.lt_taken.trans (Nat.lt_succ_self _)
    · exact hdrain.place_mod
    · exact hdrain.placed_eq
    · exact hdrain.not_popped

theorem moveEnd {item : α} {i : Nat} {oldEnd : UInt32} (h : Inv k stage s)
    (hpc : s.pc t = .moveEnd item i oldEnd index) (hend : s.queue.endPos = oldEnd) :
    Inv k (Function.update stage index.toNat (.held t .write))
      { s.setPc t (.write item index) with
        queue := { s.queue with endPos := oldEnd + 1 }
        past := s.past.push t item } := by
  have hheld : (s.pc t).held = some (index.toNat, .toPush) := by rw [hpc]; rfl
  have hstage := h.stage_eq_of_held hheld
  have hindex := h.index_of_moveEnd hpc hend
  have hnot : ¬ (stage (s.past.placed.length % 2 ^ k)).Occupied := by
    rw [← hindex, hstage]
    exact not_false
  have hlength := length_push s.past t item
  have hread : ∀ index, s.pc t ≠ .read index := by
    rw [hpc]
    rintro _ ⟨⟩
  refine {
    small := h.small, maxSize_eq := h.maxSize_eq, beginPos_eq := h.beginPos_eq,
    endPos_eq := ?endPos_eq, agree := h.agree_setStage (some .write) rfl rfl (.inr ⟨_, hheld⟩),
    status_eq := h.status_same (by rw [hstage]; rfl), marked := ?marked, data_eq := ?data_eq,
    at_pc := at_update ?_ fun t' => h.at_others_push item, ledger := ?ledger,
    inFlight := ?inFlight }
  case endPos_eq =>
    change oldEnd + 1 = UInt32.ofNat (s.past.push t item).placed.length
    rw [hlength, ← hend, h.endPos_eq]
    exact (UInt32.ofNat_add _ 1).symm
  case marked =>
    rw [hlength]
    apply h.marked.extend (Nat.two_pow_pos k) hnot
    · rw [← hindex, Function.update_self]
      trivial
    · intro c hc
      rw [Function.update_of_ne (hindex ▸ hc)]
  case data_eq =>
    intro j hj hj' hwritten
    have hempty : ¬ (Stage.held t .write).Written := not_false
    obtain ⟨hother, hwritten⟩ := written_of_update hempty hwritten
    have hne : j ≠ s.past.placed.length := by
      rintro rfl
      exact hother hindex.symm
    rw [hlength] at hj'
    exact getElem?_push (h.data_eq j hj (by omega) hwritten)
  case ledger =>
    refine ⟨fun j hj => ?_, h.ledger.nodup, fun d hd => ?_⟩
    · rw [hlength]
      exact Nat.lt_succ_of_lt (h.ledger.returned_lt j hj)
    · exact ⟨(h.ledger.delivered_eq d hd).1, getElem?_push (h.ledger.delivered_eq d hd).2⟩
  case inFlight =>
    intro j hj
    refine (h.inFlight_update (p := .write item index) hread hj).imp_right ?_
    rintro ⟨t', index', hne, hpc', hplace⟩
    exact ⟨t', index', hpc', (Function.update_of_ne hne _ _).trans hplace⟩
  · have hnew : (s.past.push t item).place t = s.past.placed.length := Function.update_self ..
    refine ⟨⟨?_, ?_, ?_, ?_⟩, ?_⟩ <;> rw [hnew]
    · exact h.marked.le
    · exact hlength.ge
    · exact hindex.symm
    · exact fun hmem => absurd (h.ledger.returned_lt _ hmem) (Nat.lt_irrefl _)
    · exact List.getElem?_concat_length

theorem moveBegin {i : Nat} {oldBegin : UInt32} (h : Inv k stage s)
    (hpc : s.pc t = .moveBegin i oldBegin index) (hbegin : s.queue.beginPos = oldBegin) :
    Inv k (Function.update stage index.toNat (.held t .read))
      { s.setPc t (.read index) with
        queue := { s.queue with beginPos := oldBegin + 1 }
        past := s.past.take t } := by
  have hheld : (s.pc t).held = some (index.toNat, .toPop) := by rw [hpc]; rfl
  have hstage := h.stage_eq_of_held hheld
  have hindex := h.index_of_moveBegin hpc hbegin
  have hoccupied : (stage (s.past.taken % 2 ^ k)).Occupied := by
    rw [← hindex, hstage]
    trivial
  have hlt : s.past.taken < s.past.placed.length := h.marked.lt (Nat.two_pow_pos k) hoccupied
  have hread : ∀ index, s.pc t ≠ .read index := by
    rw [hpc]
    rintro _ ⟨⟩
  have hnew : (s.past.take t).place t = s.past.taken := Function.update_self ..
  refine {
    small := h.small, maxSize_eq := h.maxSize_eq, beginPos_eq := ?beginPos_eq,
    endPos_eq := h.endPos_eq, agree := h.agree_setStage (some .read) rfl rfl (.inr ⟨_, hheld⟩),
    status_eq := h.status_same (by rw [hstage]; rfl), marked := ?marked, data_eq := ?data_eq,
    at_pc := at_update ?_ fun t' => h.at_others_take hheld hindex, ledger := ?ledger,
    inFlight := ?inFlight }
  case beginPos_eq =>
    change oldBegin + 1 = UInt32.ofNat (s.past.taken + 1)
    rw [← hbegin, h.beginPos_eq]
    exact (UInt32.ofNat_add _ 1).symm
  case marked =>
    apply h.marked.retract (Nat.two_pow_pos k) hoccupied
    · rw [← hindex, Function.update_self]
      exact not_false
    · intro c hc
      rw [Function.update_of_ne (hindex ▸ hc)]
  case data_eq =>
    intro j hj hj' hwritten
    have hempty : ¬ (Stage.held t .read).Written := not_false
    exact h.data_eq j (Nat.le_of_succ_le hj) hj' (written_of_update hempty hwritten).2
  case ledger =>
    refine ⟨h.ledger.returned_lt, h.ledger.nodup, fun d hd => ?_⟩
    obtain ⟨htaken, hplaced⟩ := h.ledger.delivered_eq d hd
    exact ⟨Nat.lt_succ_of_lt htaken, hplaced⟩
  case inFlight =>
    intro j hj
    rcases Nat.lt_succ_iff_lt_or_eq.mp hj with hj | rfl
    · refine (h.inFlight_update (p := .read index) hread hj).imp_right ?_
      rintro ⟨t', index', hne, hpc', hplace⟩
      exact ⟨t', index', hpc', (Function.update_of_ne hne _ _).trans hplace⟩
    · exact .inr ⟨t, index, Function.update_self .., hnew⟩
  · refine ⟨?_, ?_, ?_, ?_⟩ <;> rw [hnew]
    · exact Nat.lt_succ_self _
    · exact hindex.symm
    · rw [hindex]
      apply h.data_eq _ (Nat.le_refl _) hlt
      rw [← hindex, hstage]
      trivial
    · intro hmem
      obtain ⟨d, hd, hplace⟩ := List.mem_map.mp hmem
      exact absurd (h.ledger.delivered_eq d hd).1 (by omega)

omit [DecidableEq τ] in
theorem at_others_writeItem (h : Inv k stage s) {m : Mode} (item : α)
    (hheld : (s.pc t).held = some (index.toNat, m)) {t' : τ} (hne : t' ≠ t) :
    s.past.At (s.queue.writeItem index item).data (2 ^ k) t' (s.pc t') := by
  refine (h.at_pc t').mono (fun _ _ hfill => hfill) (fun _ hget => hget)
    fun index' hheld' hdrain => ?_
  refine ⟨hdrain.lt_taken, hdrain.place_mod, ?_, hdrain.not_popped⟩
  rw [writeItem_data_of_ne (h.ne_of_held hheld hheld' hne).symm]
  exact hdrain.placed_eq

theorem write {item : α} (h : Inv k stage s) (hpc : s.pc t = .write item index) :
    Inv k (Function.update stage index.toNat (.held t .publish))
      { s.setPc t (.storeFull item index) with queue := s.queue.writeItem index item } := by
  have hheld : (s.pc t).held = some (index.toNat, .write) := by rw [hpc]; rfl
  have hstage := h.stage_eq_of_held hheld
  have hread : ∀ index, s.pc t ≠ .read index := by
    rw [hpc]
    rintro _ ⟨⟩
  have hat := h.at_pc t
  rw [hpc] at hat
  obtain ⟨hfill, hitem⟩ := hat
  refine {
    small := h.small, maxSize_eq := h.maxSize_eq, beginPos_eq := h.beginPos_eq,
    endPos_eq := h.endPos_eq,
    agree := h.agree_setStage (some .publish) rfl rfl (.inr ⟨_, hheld⟩),
    status_eq := h.status_same (by rw [hstage]; rfl),
    marked := h.marked_same (by rw [hstage]; exact Iff.rfl), data_eq := ?data_eq,
    at_pc := at_update hfill fun t' hne => h.at_others_writeItem item hheld hne,
    ledger := h.ledger, inFlight := ?inFlight }
  case data_eq =>
    intro j (hj : s.past.taken ≤ j) (hj' : j < s.past.placed.length) hwritten
    have hroom := h.marked.room
    have hlast := hfill.lt_length
    change s.past.placed[j]? = some ((s.queue.writeItem index item).data (j % 2 ^ k))
    rcases eq_or_ne (j % 2 ^ k) index.toNat with hsame | hother
    · have hplace : j = s.past.place t := by
        apply eq_of_mod_eq (n := 2 ^ k) hj (by omega) hfill.taken_le (by omega)
        rw [hsame, hfill.place_mod]
      rw [hsame, writeItem_data rfl, hplace]
      exact hitem
    · rw [Function.update_of_ne hother] at hwritten
      rw [writeItem_data_of_ne hother.symm]
      exact h.data_eq j hj hj' hwritten
  case inFlight =>
    exact fun _ hj => (h.inFlight_update hread hj).imp_right
      fun ⟨t', index', _, hpc', hplace⟩ => ⟨t', index', hpc', hplace⟩

theorem storeFull {item : α} (h : Inv k stage s) (hpc : s.pc t = .storeFull item index) :
    Inv k (Function.update stage index.toNat .full)
      { s.setPc t (.pushed true) with
        queue := s.queue.storeStatus index .full
        past := s.past.ret t } := by
  have hheld : (s.pc t).held = some (index.toNat, .publish) := by rw [hpc]; rfl
  have hstage := h.stage_eq_of_held hheld
  have hread : ∀ index, s.pc t ≠ .read index := by
    rw [hpc]
    rintro _ ⟨⟩
  have hfill := h.at_pc t
  rw [hpc] at hfill
  have hset := h.setStage (p := .pushed true) (x := .full) none rfl rfl rfl (.inr ⟨_, hheld⟩)
    (by rw [hstage]; exact Iff.rfl) (by rw [hstage]; exact id) trivial hread
  refine {
    small := h.small, maxSize_eq := h.maxSize_eq, beginPos_eq := h.beginPos_eq,
    endPos_eq := h.endPos_eq, agree := hset.agree, status_eq := hset.status_eq,
    marked := hset.marked, data_eq := hset.data_eq, at_pc := at_update trivial ?others,
    ledger := ?ledger, inFlight := hset.inFlight }
  case others =>
    intro t' hne
    refine (h.at_pc t').mono (fun index' hheld' hfill' => ?_) (fun _ hget => hget)
      fun _ _ hdrain => ⟨hdrain.1, hdrain.2, hdrain.3, hdrain.4⟩
    refine ⟨hfill'.taken_le, hfill'.lt_length, hfill'.place_mod, fun hmem => ?_⟩
    rcases List.mem_append.mp hmem with hmem | hmem
    · exact hfill'.not_returned hmem
    · -- Both have places of their own, since they hold two cells.
      have hsame : s.past.place t' = s.past.place t := List.mem_singleton.mp hmem
      have hcell : index'.toNat = index.toNat := by
        rw [← hfill'.place_mod, ← hfill.place_mod, hsame]
      rcases hheld' with hheld' | hheld' <;> exact h.ne_of_held hheld hheld' hne hcell
  case ledger =>
    refine ⟨fun j hj => ?_, h.ledger.nodup, h.ledger.delivered_eq⟩
    rcases List.mem_append.mp hj with hj | hj
    · exact h.ledger.returned_lt j hj
    · rw [List.mem_singleton.mp hj]
      exact hfill.lt_length

theorem read (h : Inv k stage s) (hpc : s.pc t = .read index) :
    Inv k (Function.update stage index.toNat (.held t .giveBack))
      { s.setPc t (.reset index (s.queue.data index.toNat)) with
        past := s.past.read t (s.queue.data index.toNat) } := by
  have hheld : (s.pc t).held = some (index.toNat, .read) := by rw [hpc]; rfl
  have hstage := h.stage_eq_of_held hheld
  have hdrain := h.at_pc t
  rw [hpc] at hdrain
  have hpopped : (s.past.read t (s.queue.data index.toNat)).popped =
      s.past.popped ++ [s.past.place t] := List.map_append
  refine {
    small := h.small, maxSize_eq := h.maxSize_eq, beginPos_eq := h.beginPos_eq,
    endPos_eq := h.endPos_eq,
    agree := h.agree_setStage (some .giveBack) rfl rfl (.inr ⟨_, hheld⟩),
    status_eq := h.status_same (by rw [hstage]; rfl),
    marked := h.marked_same (by rw [hstage]; exact Iff.rfl), data_eq := ?data_eq,
    at_pc := at_update trivial ?others, ledger := ?ledger, inFlight := ?inFlight }
  case data_eq =>
    intro j hj hj' hwritten
    have hempty : ¬ (Stage.held t .giveBack).Written := not_false
    exact h.data_eq j hj hj' (written_of_update hempty hwritten).2
  case others =>
    intro t' hne
    refine (h.at_pc t').mono (fun _ _ hfill => ⟨hfill.1, hfill.2, hfill.3, hfill.4⟩)
      (fun _ hget => hget) fun index' hheld' hdrain' => ?_
    refine ⟨hdrain'.lt_taken, hdrain'.place_mod, hdrain'.placed_eq, fun hmem => ?_⟩
    rw [hpopped] at hmem
    rcases List.mem_append.mp hmem with hmem | hmem
    · exact hdrain'.not_popped hmem
    · apply h.ne_of_held hheld hheld' hne
      have hsame : s.past.place t' = s.past.place t := List.mem_singleton.mp hmem
      rw [← hdrain'.place_mod, ← hdrain.place_mod, hsame]
  case ledger =>
    refine ⟨h.ledger.returned_lt, ?_, fun d hd => ?_⟩
    · rw [hpopped]
      exact List.nodup_append.mpr ⟨h.ledger.nodup, List.nodup_singleton _, fun j hj j' hj' => by
        rw [List.mem_singleton.mp hj']
        exact fun heq => hdrain.not_popped (heq ▸ hj)⟩
    · rcases List.mem_append.mp hd with hd | hd
      · exact h.ledger.delivered_eq d hd
      · rw [List.mem_singleton.mp hd]
        exact ⟨hdrain.lt_taken, hdrain.placed_eq⟩
  case inFlight =>
    intro j hj
    rw [hpopped, List.mem_append, List.mem_singleton]
    rcases h.inFlight j hj with hmem | ⟨t', index', hpc', hplace⟩
    · exact .inl (.inl hmem)
    · rcases eq_or_ne t' t with rfl | hne
      · exact .inl (.inr hplace.symm)
      · exact .inr ⟨t', index', (Function.update_of_ne hne _ _).trans hpc', hplace⟩

theorem reset [Inhabited α] {item : α} (h : Inv k stage s) (hpc : s.pc t = .reset index item) :
    Inv k stage
      { s.setPc t (.storeEmpty index item) with queue := s.queue.writeItem index default } := by
  have hheld : (s.pc t).held = some (index.toNat, .giveBack) := by rw [hpc]; rfl
  have hstage := h.stage_eq_of_held hheld
  have hread : ∀ index, s.pc t ≠ .read index := by
    rw [hpc]
    rintro _ ⟨⟩
  refine {
    small := h.small, maxSize_eq := h.maxSize_eq, beginPos_eq := h.beginPos_eq,
    endPos_eq := h.endPos_eq, agree := h.agree_setPc hheld.symm, status_eq := h.status_eq,
    marked := h.marked, data_eq := ?data_eq,
    at_pc := at_update trivial fun t' hne => h.at_others_writeItem _ hheld hne,
    ledger := h.ledger, inFlight := ?inFlight }
  case data_eq =>
    intro j hj hj' hwritten
    have hother : j % 2 ^ k ≠ index.toNat := by
      intro hsame
      rw [hsame, hstage] at hwritten
      exact hwritten
    exact (h.data_eq j hj hj' hwritten).trans
      (congrArg some (writeItem_data_of_ne hother.symm).symm)
  case inFlight =>
    exact fun _ hj => (h.inFlight_update hread hj).imp_right
      fun ⟨t', index', _, hpc', hplace⟩ => ⟨t', index', hpc', hplace⟩

theorem call (h : Inv k stage s) {s' : Threads τ α} (hp : p.held = none)
    (hat : ∀ past : Past τ α, past.At s.queue.data (2 ^ k) t p)
    (hs : LockFreeCircularQueueMPMC.call s t p = .ok s') : Inv k stage s' := by
  rw [LockFreeCircularQueueMPMC.call] at hs
  cases hpc : s.pc t with
  | idle | pushed | popped =>
      rw [hpc] at hs
      obtain rfl := Except.ok.inj hs
      have hfree : (s.pc t).held = none := by rw [hpc]; rfl
      exact h.setPc_of_free hfree hp (hat _)
  | _ =>
      rw [hpc] at hs
      cases hs

omit [DecidableEq τ] in
theorem tryPush_held (item : α) (i : Nat) : (tryPush item i).held = none := by
  rw [tryPush]
  split_ifs <;> rfl

omit [DecidableEq τ] in
theorem tryPop_held (i : Nat) : (tryPop i : Pc α).held = none := by
  rw [tryPop]
  split_ifs <;> rfl

omit [DecidableEq τ] in
theorem at_tryPush (past : Past τ α) (data : Nat → α) (n : Nat) (t : τ) (item : α) (i : Nat) :
    past.At data n t (tryPush item i) := by
  rw [tryPush]
  split_ifs <;> trivial

omit [DecidableEq τ] in
theorem at_tryPop (past : Past τ α) (data : Nat → α) (n : Nat) (t : τ) (i : Nat) :
    past.At data n t (tryPop i) := by
  rw [tryPop]
  split_ifs <;> trivial

theorem step [Inhabited α] (h : Inv k stage s) {s' : Threads τ α} {spurious : Bool}
    (hs : LockFreeCircularQueueMPMC.step s t spurious = .ok s') : ∃ stage', Inv k stage' s' := by
  have hat := h.at_pc t
  rw [LockFreeCircularQueueMPMC.step] at hs
  cases hpc : s.pc t with
  | idle | pushed | popped =>
      rw [hpc] at hs
      cases hs
  | loadEnd item i =>
      rw [hpc] at hs
      obtain rfl := Except.ok.inj hs
      have hfree : (s.pc t).held = none := by rw [hpc]; rfl
      exact ⟨stage, h.setPc_of_free hfree rfl (h.realIndex_eq _)⟩
  | loadEmpty item i oldEnd index =>
      have hfree : (s.pc t).held = none := by rw [hpc]; rfl
      rw [hpc] at hs hat
      dsimp only at hs
      split_ifs at hs
      · obtain rfl := Except.ok.inj hs
        exact ⟨stage, h.setPc_of_free hfree (tryPush_held item i) (at_tryPush ..)⟩
      · obtain rfl := Except.ok.inj hs
        exact ⟨stage, h.setPc_of_free hfree rfl hat⟩
  | lockEmpty item i oldEnd index =>
      have hfree : (s.pc t).held = none := by rw [hpc]; rfl
      rw [hpc] at hs hat
      dsimp only at hs
      split_ifs at hs with hfails
      · obtain rfl := Except.ok.inj hs
        exact ⟨stage, h.setPc_of_free hfree (tryPush_held item i) (at_tryPush ..)⟩
      · obtain rfl := Except.ok.inj hs
        have hempty := h.stage_eq_empty (not_not.mp (not_or.mp hfails).2)
        exact ⟨_, h.setStage (x := .held t .toPush) (some .toPush) rfl rfl rfl
          (.inl ⟨by rw [hempty]; rfl, hfree⟩) (by rw [hempty]; exact Iff.rfl)
          False.elim hat (by rw [hpc]; rintro _ ⟨⟩)⟩
  | moveEnd item i oldEnd index =>
      rw [hpc] at hs hat
      dsimp only at hs
      split_ifs at hs with hfails
      · obtain rfl := Except.ok.inj hs
        exact ⟨stage, h.setPc (by rw [hpc]; rfl) hat (by rw [hpc]; rintro _ ⟨⟩)⟩
      · obtain rfl := Except.ok.inj hs
        exact ⟨_, h.moveEnd hpc (not_not.mp (not_or.mp hfails).2)⟩
  | unlockEmpty item i oldEnd index =>
      rw [hpc] at hs
      obtain rfl := Except.ok.inj hs
      have hheld : (s.pc t).held = some (index.toNat, .toPush) := by rw [hpc]; rfl
      exact ⟨_, h.setStage (x := .empty) none rfl (tryPush_held item i) rfl (.inr ⟨_, hheld⟩)
        (by rw [h.stage_eq_of_held hheld]; exact Iff.rfl) False.elim (at_tryPush ..)
        (by rw [hpc]; rintro _ ⟨⟩)⟩
  | write item index =>
      rw [hpc] at hs
      obtain rfl := Except.ok.inj hs
      exact ⟨_, h.write hpc⟩
  | storeFull item index =>
      rw [hpc] at hs
      obtain rfl := Except.ok.inj hs
      exact ⟨_, h.storeFull hpc⟩
  | loadBegin i =>
      rw [hpc] at hs
      obtain rfl := Except.ok.inj hs
      have hfree : (s.pc t).held = none := by rw [hpc]; rfl
      exact ⟨stage, h.setPc_of_free hfree rfl (h.realIndex_eq _)⟩
  | loadFull i oldBegin index =>
      have hfree : (s.pc t).held = none := by rw [hpc]; rfl
      rw [hpc] at hs hat
      dsimp only at hs
      split_ifs at hs
      · obtain rfl := Except.ok.inj hs
        exact ⟨stage, h.setPc_of_free hfree (tryPop_held i) (at_tryPop ..)⟩
      · obtain rfl := Except.ok.inj hs
        exact ⟨stage, h.setPc_of_free hfree rfl hat⟩
  | lockFull i oldBegin index =>
      have hfree : (s.pc t).held = none := by rw [hpc]; rfl
      rw [hpc] at hs hat
      dsimp only at hs
      split_ifs at hs with hfails
      · obtain rfl := Except.ok.inj hs
        exact ⟨stage, h.setPc_of_free hfree (tryPop_held i) (at_tryPop ..)⟩
      · obtain rfl := Except.ok.inj hs
        have hfull := h.stage_eq_full (not_not.mp (not_or.mp hfails).2)
        exact ⟨_, h.setStage (x := .held t .toPop) (some .toPop) rfl rfl rfl
          (.inl ⟨by rw [hfull]; rfl, hfree⟩) (by rw [hfull]; exact Iff.rfl)
          (by rw [hfull]; exact id) hat (by rw [hpc]; rintro _ ⟨⟩)⟩
  | moveBegin i oldBegin index =>
      rw [hpc] at hs hat
      dsimp only at hs
      split_ifs at hs with hfails
      · obtain rfl := Except.ok.inj hs
        exact ⟨stage, h.setPc (by rw [hpc]; rfl) hat (by rw [hpc]; rintro _ ⟨⟩)⟩
      · obtain rfl := Except.ok.inj hs
        exact ⟨_, h.moveBegin hpc (not_not.mp (not_or.mp hfails).2)⟩
  | unlockFull i oldBegin index =>
      rw [hpc] at hs
      obtain rfl := Except.ok.inj hs
      have hheld : (s.pc t).held = some (index.toNat, .toPop) := by rw [hpc]; rfl
      have hstage := h.stage_eq_of_held hheld
      exact ⟨_, h.setStage (x := .full) none rfl (tryPop_held i) rfl (.inr ⟨_, hheld⟩)
        (by rw [hstage]; exact Iff.rfl) (by rw [hstage]; exact id) (at_tryPop ..)
        (by rw [hpc]; rintro _ ⟨⟩)⟩
  | read index =>
      rw [hpc] at hs
      obtain rfl := Except.ok.inj hs
      exact ⟨_, h.read hpc⟩
  | reset index item =>
      rw [hpc] at hs
      obtain rfl := Except.ok.inj hs
      exact ⟨stage, h.reset hpc⟩
  | storeEmpty index item =>
      rw [hpc] at hs
      obtain rfl := Except.ok.inj hs
      have hheld : (s.pc t).held = some (index.toNat, .giveBack) := by rw [hpc]; rfl
      exact ⟨_, h.setStage (x := .empty) none rfl rfl rfl (.inr ⟨_, hheld⟩)
        (by rw [h.stage_eq_of_held hheld]; exact Iff.rfl) False.elim trivial
        (by rw [hpc]; rintro _ ⟨⟩)⟩

end Steps

theorem toNat_maxSizeOf (powArg : UInt64) :
    (maxSizeOf powArg).toNat = 2 ^ min powArg.toNat 24 := by
  have hshift : (if powArg < 24 then powArg else 24).toUInt32.toNat = min powArg.toNat 24 := by
    split_ifs with hlt
    · have hlt : powArg.toNat < 24 := hlt
      rw [UInt64.toNat_toUInt32, Nat.mod_eq_of_lt (by omega)]
      omega
    · have hge : ¬ powArg.toNat < 24 := hlt
      rw [Nat.min_eq_right (by omega)]
      rfl
  have hle : min powArg.toNat 24 ≤ 24 := Nat.min_le_right ..
  rw [maxSizeOf, toNat_one_shiftLeft (by omega), hshift]

omit [DecidableEq τ] in
theorem create [Inhabited α] (powArg : UInt64) :
    Inv (min powArg.toNat 24) (fun _ => .empty)
      (LockFreeCircularQueueMPMC.create τ powArg : Threads τ α) where
  small := Nat.min_le_right ..
  maxSize_eq := toNat_maxSizeOf powArg
  beginPos_eq := rfl
  endPos_eq := rfl
  agree _ _ _ := iff_of_false (Option.some_ne_none _).symm (Option.some_ne_none _).symm
  status_eq := rfl
  marked := ⟨Nat.le_refl 0, Nat.zero_le _, fun j _ _ => iff_of_false not_false (Nat.not_lt_zero j)⟩
  data_eq j _ hj := absurd hj (Nat.not_lt_zero j)
  at_pc _ := trivial
  ledger := ⟨fun _ hj => absurd hj List.not_mem_nil, List.nodup_nil,
    fun _ hd => absurd hd List.not_mem_nil⟩
  inFlight j hj := absurd hj (Nat.not_lt_zero j)

theorem next [Inhabited α] (h : Inv k stage s) {powArg : UInt64} {a : Act τ α}
    {s' : Threads τ α} (hs : (threads τ powArg).step s a = .ok s') :
    ∃ stage', Inv k stage' s' := by
  cases a with
  | push t item => exact ⟨stage, h.call (tryPush_held item 0) (at_tryPush · _ _ t item 0) hs⟩
  | pop t => exact ⟨stage, h.call (tryPop_held 1) (at_tryPop · _ _ t 1) hs⟩
  | step t spurious => exact h.step hs

omit [DecidableEq τ] in
theorem cellOf_eq (h : Inv k stage s) (j : Nat) : s.queue.cellOf j = j % 2 ^ k := by
  rw [cellOf, h.realIndex_eq, h.mod_ofNat]

omit [DecidableEq τ] in
theorem filling_of_held (h : Inv k stage s) {c : Nat} {m : Mode}
    (hheld : (s.pc t).held = some (c, m)) (hm : m = .write ∨ m = .publish) :
    ∃ index : UInt32, index.toNat = c ∧ s.past.Filling (2 ^ k) t index := by
  have hat := h.at_pc t
  cases hpc : s.pc t with
  | write item index =>
      rw [hpc] at hheld hat
      exact ⟨index, congrArg Prod.fst (Option.some.inj hheld), hat.1⟩
  | storeFull item index =>
      rw [hpc] at hheld hat
      exact ⟨index, congrArg Prod.fst (Option.some.inj hheld), hat⟩
  | _ =>
      rw [hpc] at hheld
      rcases hm with rfl | rfl <;> cases hheld

omit [DecidableEq τ] in
/-- After its push has returned, an item that has not been taken is in a cell that is full, or
that a pop has locked which may not get it. -/
theorem stage_of_returned (h : Inv k stage s) {j : Nat} (hj : j ∈ s.past.returned)
    (hle : s.past.taken ≤ j) :
    stage (j % 2 ^ k) = .full ∨ ∃ t, stage (j % 2 ^ k) = .held t .toPop := by
  have hlt := h.ledger.returned_lt j hj
  have hroom := h.marked.room
  have hoccupied : (stage (j % 2 ^ k)).Occupied := (h.marked.iff j hle (by omega)).mpr hlt
  have hfilling : ∀ t m, stage (j % 2 ^ k) = .held t m → ¬ (m = .write ∨ m = .publish) := by
    intro t m hstage hm
    have hheld := (h.agree t (j % 2 ^ k) m).mpr (Stage.owner_eq_some.mpr hstage)
    obtain ⟨index, hindex, hfill⟩ := h.filling_of_held hheld hm
    have hlast := hfill.lt_length
    have hplace : j = s.past.place t := by
      apply eq_of_mod_eq (n := 2 ^ k) hle (by omega) hfill.taken_le (by omega)
      rw [← hindex, hfill.place_mod]
    exact hfill.not_returned (hplace ▸ hj)
  cases hstage : stage (j % 2 ^ k) with
  | empty =>
      rw [hstage] at hoccupied
      exact hoccupied.elim
  | full => exact .inl rfl
  | held t m =>
      rw [hstage] at hoccupied
      cases m with
      | toPop => exact .inr ⟨t, rfl⟩
      | write => exact absurd (.inl rfl) (hfilling t _ hstage)
      | publish => exact absurd (.inr rfl) (hfilling t _ hstage)
      | _ => exact hoccupied.elim

omit [DecidableEq τ] in
theorem still_there (h : Inv k stage s) {j : Nat} (hj : j ∈ s.past.returned)
    (hnot : j ∉ s.past.popped) :
    s.past.placed[j]? = some (s.queue.data (j % 2 ^ k)) ∧
      (s.queue.status (j % 2 ^ k) = .full ∨ s.queue.status (j % 2 ^ k) = .reading) := by
  rw [h.status_eq]
  dsimp only
  rcases Nat.lt_or_ge j s.past.taken with htaken | hle
  · rcases h.inFlight j htaken with hmem | ⟨t, index, hpc, rfl⟩
    · exact absurd hmem hnot
    · have hdrain := h.at_pc t
      rw [hpc] at hdrain
      have hstage := h.stage_eq_of_held (t := t) (m := .read) (by rw [hpc]; rfl)
      rw [hdrain.place_mod, hstage]
      exact ⟨hdrain.placed_eq, .inr rfl⟩
  · have hlt := h.ledger.returned_lt j hj
    rcases h.stage_of_returned hj hle with hfull | ⟨t, hlocked⟩
    · rw [hfull]
      exact ⟨h.data_eq j hle hlt (by rw [hfull]; trivial), .inl rfl⟩
    · rw [hlocked]
      exact ⟨h.data_eq j hle hlt (by rw [hlocked]; trivial), .inr rfl⟩

omit [DecidableEq τ] in
theorem held_of_accesses {index : UInt32} (hp : p.Accesses index) :
    ∃ m, p.held = some (index.toNat, m) := by
  cases p with
  | write | read | reset =>
      obtain rfl := hp
      exact ⟨_, rfl⟩
  | _ => exact hp.elim

end Inv

end LockFreeCircularQueueMPMC

end CasualGame.Componet
