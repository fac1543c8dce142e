import Mathlib.Data.List.TakeWhile
import CasualGame.Componet.Serialize

/-!
What `Serialize` has written, `Deserialize` reads back, for values of every type.
-/

namespace CasualGame.Componet.Serialization

open Lib.Decoding
open Lib.LittleEndian

section Bytes

variable {α β : Type}

def sizeBytes (size : Nat) : List UInt8 := toBytes 8 size

def containerBytes (bytes : α → List UInt8) (xs : List α) : List UInt8 :=
  sizeBytes xs.length ++ xs.flatMap bytes

def pairBytes (bytes : α → List UInt8) (bytes' : β → List UInt8) (x : α × β) : List UInt8 :=
  bytes x.1 ++ bytes' x.2

def Key.bytes : Key → List UInt8 → List UInt8
  | scalar _, x => x
  | string, x => sizeBytes x.length ++ x

/-- The bytes that stand for a value. -/
def Ty.bytes : (t : Ty) → t.carrier → List UInt8
  | key k, x => k.bytes x
  | pair first second, x => pairBytes first.bytes second.bytes x
  | sequence _ item, xs => containerBytes item.bytes xs
  | set _ item, xs => containerBytes item.bytes xs
  | map _ k value, xs => containerBytes (pairBytes (Key.scalar k).bytes value.bytes) xs
  | unorderedSet _ item, xs => containerBytes item.bytes xs
  | unorderedMap _ k value, xs => containerBytes (pairBytes (Key.scalar k).bytes value.bytes) xs

theorem Serialize.append_append (s : Serialize) (bytes more : List UInt8) :
    (s.append bytes).append more = s.append (bytes ++ more) := by
  simp only [Serialize.append, List.append_assoc, List.length_append, Nat.add_assoc]

theorem Serialize.append_nil (s : Serialize) : s.append [] = s := by
  simp only [Serialize.append, List.append_nil, List.length_nil, Nat.add_zero]

theorem foldl_append {put : α → Serialize → Serialize} {bytes : α → List UInt8}
    (hput : ∀ x s, put x s = s.append (bytes x)) (xs : List α) (s : Serialize) :
    xs.foldl (fun s x => put x s) s = s.append (xs.flatMap bytes) := by
  induction xs generalizing s with
  | nil => exact s.append_nil.symm
  | cons x xs ih =>
      rw [List.foldl_cons, ih, hput, s.append_append, List.flatMap_cons]

theorem serializeContainer_eq {put : α → Serialize → Serialize} {bytes : α → List UInt8}
    (hput : ∀ x s, put x s = s.append (bytes x)) (xs : List α) (s : Serialize) :
    serializeContainer put xs s = s.append (containerBytes bytes xs) := by
  rw [serializeContainer, foldl_append hput, putSize, s.append_append]
  rfl

theorem putPair_eq {put : α → Serialize → Serialize} {put' : β → Serialize → Serialize}
    {bytes : α → List UInt8} {bytes' : β → List UInt8}
    (hput : ∀ x s, put x s = s.append (bytes x)) (hput' : ∀ x s, put' x s = s.append (bytes' x))
    (x : α × β) (s : Serialize) : putPair put put' x s = s.append (pairBytes bytes bytes' x) := by
  rw [putPair, hput, hput', s.append_append, pairBytes]

theorem Key.put_eq (k : Key) (x : List UInt8) (s : Serialize) :
    k.put x s = s.append (k.bytes x) := by
  cases k with
  | scalar => rfl
  | string => exact s.append_append _ _

theorem Ty.put_eq (t : Ty) (x : t.carrier) (s : Serialize) :
    t.put x s = s.append (t.bytes x) := by
  induction t generalizing s with
  | key k => exact k.put_eq x s
  | pair first second ih ih' => exact putPair_eq ih ih' x s
  | sequence _ item ih => exact serializeContainer_eq ih x s
  | set _ item ih => exact serializeContainer_eq ih x s
  | map _ k value ih => exact serializeContainer_eq (putPair_eq (Key.put_eq _) ih) x s
  | unorderedSet _ item => exact serializeContainer_eq item.put_eq x s
  | unorderedMap _ k value ih => exact serializeContainer_eq (putPair_eq (Key.put_eq _) ih) x s

end Bytes

section Parts

variable {α β : Type} {x : List UInt8} {size : Nat}

theorem reads_getScalar {t : List UInt8} (h : t.length = x.length) :
    Reads (getScalar t) x fun y => y = x := by
  intro before after
  exact ⟨x, congrArg some (overlay_eq h), rfl⟩

theorem reads_getSize (h : size < maxSize) : Reads getSize (sizeBytes size) fun n => n = size := by
  have hscalar := reads_getScalar (t := toBytes 8 0) (x := sizeBytes size) (by simp [sizeBytes])
  refine hscalar.bind_pure ?_
  rintro y rfl
  have hwidth : maxSize = 256 ^ 8 := by norm_num [maxSize]
  rw [hwidth] at h
  exact ofBytes_toBytes_of_lt h

theorem reads_assign : Reads (assign x.length) x fun y => y = x := by
  intro before after
  refine ⟨x, ?_, rfl⟩
  have hlength : before.length + x.length ≤ (before ++ x ++ after).length := by
    simp only [List.length_append]
    omega
  rw [assign, if_pos hlength]
  simp

theorem reads_getString (h : x.length < maxSize) :
    Reads getString (sizeBytes x.length ++ x) fun y => y = x := by
  refine (reads_getSize h).bind ?_
  rintro n rfl
  exact reads_assign

theorem reads_getPair {get : α → Deserialize α} {get' : β → Deserialize β} {a : α} {b : β}
    {bytes bytes' : List UInt8} {P : α → Prop} {Q : β → Prop} (h : Reads (get a) bytes P)
    (h' : Reads (get' b) bytes' Q) :
    Reads (getPair get get' (a, b)) (bytes ++ bytes') fun y => P y.1 ∧ Q y.2 := by
  refine h.bind fun first hfirst => ?_
  exact h'.bind_pure fun second hsecond => ⟨hfirst, hsecond⟩

theorem Key.reads (p : Platform) (k : Key) (h : k.Valid x) :
    Reads (k.get (k.fresh p)) (k.bytes x) fun y => y = x := by
  cases k with
  | scalar s => exact reads_getScalar ((p.length_unset s.size).trans h.symm)
  | string => exact reads_getString h

end Parts

section Containers

variable {α β : Type} {same : α → α → Prop} {bytes : α → List UInt8} {xs : List α}

theorem reads_nonRandomAccess {get : Deserialize α} {insert : List α → α → List α}
    (hsize : xs.length < maxSize) (hget : ∀ x ∈ xs, Reads get (bytes x) fun y => same y x)
    (hinsert : ∀ done x rest, xs = done ++ x :: rest → ∀ ys y, List.Forall₂ same ys done →
      same y x → insert ys y = ys ++ [y]) :
    Reads (deserializeNonRandomAccessContainer get insert) (containerBytes bytes xs) fun ys =>
      List.Forall₂ same ys xs := by
  refine (reads_getSize hsize).bind ?_
  rintro n rfl
  refine reads_forLoop _ bytes (fun done ys => List.Forall₂ same ys done)
    (fun done x rest hxs ys hys => ?_) .nil
  refine (hget x (by simp [hxs])).bind_pure fun y hy => ?_
  rw [hinsert done x rest hxs ys y hys hy]
  exact List.rel_append hys (.cons hy .nil)

theorem resize_nil (n : Nat) (x : α) : resize n x [] = List.replicate n x := by
  simp [resize]

theorem reads_places {get : α → Deserialize α} {fresh : α} {olds : List α}
    {P : α × α → α → Prop} {places : List (α × α)}
    (hxs : places.map Prod.snd = xs) (hresize : places.map Prod.fst = resize xs.length fresh olds)
    (hsize : xs.length < maxSize)
    (hget : ∀ ox ∈ places, Reads (get ox.1) (bytes ox.2) fun y => P ox y) :
    Reads (deserializeRandomAccessContainer get fresh olds) (containerBytes bytes xs) fun ys =>
      List.Forall₂ (fun y ox => P ox y) ys places := by
  refine (reads_getSize hsize).bind ?_
  rintro n rfl
  have hflat : xs.flatMap bytes = places.flatMap fun ox => bytes ox.2 := by
    rw [← hxs, List.flatMap_map]
  have hlength : xs.length = places.length := by rw [← hxs, List.length_map]
  rw [hflat, ← hresize, hlength]
  -- the places not read yet are as they were
  refine (reads_forLoop (getAt get fresh) (fun ox => bytes ox.2)
    (fun done container => ∃ ys, List.Forall₂ (fun y ox => P ox y) ys done ∧
      container = ys ++ (places.drop done.length).map Prod.fst) ?_ ⟨[], .nil, rfl⟩).mono ?_
  · rintro done ox rest hplaces container ⟨ys, hys, rfl⟩
    have hlength := hys.length_eq
    rw [hplaces, List.drop_left, List.map_cons, ← hlength]
    simp only [getAt, List.getD_eq_getElem?_getD, List.getElem?_append_right (Nat.le_refl _),
      Nat.sub_self, List.getElem?_cons_zero, Option.getD_some]
    refine (hget ox (by simp [hplaces])).bind_pure fun y hy => ?_
    refine ⟨ys ++ [y], List.rel_append hys (.cons hy .nil), ?_⟩
    have hdrop : (done ++ ox :: rest).drop (done ++ [ox]).length = rest := by
      rw [List.append_cons done ox rest, List.drop_left]
    rw [List.set_append_right _ _ (Nat.le_refl _), Nat.sub_self, List.set_cons_zero, hdrop,
      List.append_assoc, List.singleton_append]
  · rintro container ⟨ys, hys, rfl⟩
    rwa [List.drop_length, List.map_nil, List.append_nil]

theorem reads_randomAccess {get : α → Deserialize α} {fresh : α} (hsize : xs.length < maxSize)
    (hget : ∀ x ∈ xs, Reads (get fresh) (bytes x) fun y => same y x) :
    Reads (deserializeRandomAccessContainer get fresh []) (containerBytes bytes xs) fun ys =>
      List.Forall₂ same ys xs := by
  -- all places have been made anew
  have hsnd : (xs.map fun x => (fresh, x)).map Prod.snd = xs := by
    rw [List.map_map]
    exact List.map_id xs
  have hfst : (xs.map fun x => (fresh, x)).map Prod.fst = resize xs.length fresh [] := by
    rw [List.map_map, resize_nil]
    exact List.map_const
  refine (reads_places (P := fun ox y => same y ox.2) hsnd hfst hsize ?_).mono ?_
  · intro ox hox
    obtain ⟨x, hx, rfl⟩ := List.mem_map.mp hox
    exact hget x hx
  · intro ys hys
    rwa [List.forall₂_map_right_iff] at hys

theorem insertIdx_behind (ys olds : List α) (y : α) :
    (ys ++ olds).insertIdx ys.length y = ys ++ y :: olds := by
  induction ys with
  | nil => exact List.insertIdx_zero
  | cons z ys ih => exact congrArg (z :: ·) ih

theorem reads_forwardList_behind {get : α → Deserialize α} {fresh : α} {olds : List α}
    (hsize : xs.length < maxSize)
    (hget : ∀ x ∈ xs, Reads (get fresh) (bytes x) fun y => same y x) :
    Reads (getForwardList get fresh olds) (containerBytes bytes xs) fun ys =>
      ∃ zs, List.Forall₂ same zs xs ∧ ys = zs ++ olds := by
  refine (reads_getSize hsize).bind ?_
  rintro n rfl
  have hloop : Reads _ (xs.flatMap bytes) _ := reads_forLoop (insertAfter get fresh) bytes
    (fun done fl => ∃ ys, List.Forall₂ same ys done ∧ fl = fresh :: (ys ++ olds))
    (fun done x rest hxs fl hfl => ?_) ⟨[], .nil, rfl⟩
  · refine hloop.bind_pure ?_
    rintro fl ⟨ys, hys, rfl⟩
    exact ⟨ys, hys, rfl⟩
  · obtain ⟨ys, hys, rfl⟩ := hfl
    refine (hget x (by simp [hxs])).bind_pure fun y hy => ?_
    refine ⟨ys ++ [y], List.rel_append hys (.cons hy .nil), ?_⟩
    rw [List.insertIdx_succ_cons, ← hys.length_eq, insertIdx_behind, List.append_assoc,
      List.singleton_append]

theorem reads_forwardList {get : α → Deserialize α} {fresh : α} (hsize : xs.length < maxSize)
    (hget : ∀ x ∈ xs, Reads (get fresh) (bytes x) fun y => same y x) :
    Reads (getForwardList get fresh []) (containerBytes bytes xs) fun ys =>
      List.Forall₂ same ys xs := by
  refine (reads_forwardList_behind hsize hget).mono ?_
  rintro ys ⟨zs, hzs, rfl⟩
  rwa [List.append_nil]

theorem reads_getSequence (c : Sequence) {get : α → Deserialize α} {fresh : α}
    (hsize : xs.length < maxSize)
    (hget : ∀ x ∈ xs, Reads (get fresh) (bytes x) fun y => same y x) :
    Reads (getSequence c get fresh []) (containerBytes bytes xs) fun ys =>
      List.Forall₂ same ys xs := by
  cases c with
  | vector => exact reads_randomAccess hsize hget
  | basicString => exact reads_randomAccess hsize hget
  | list => exact reads_nonRandomAccess hsize hget fun _ _ _ _ _ _ _ _ => rfl
  | deque => exact reads_nonRandomAccess hsize hget fun _ _ _ _ _ _ _ _ => rfl
  | forwardList => exact reads_forwardList hsize hget

variable {keys : Keys} {key : α → β} {done rest ys : List α} {x y : α}

theorem forall_key_of_forall₂ (P : β → Prop) (hkey : ∀ y x, same y x → key y = key x)
    (hys : List.Forall₂ same ys done) (hdone : ∀ x ∈ done, P (key x)) : ∀ y ∈ ys, P (key y) := by
  induction hys with
  | nil => simp
  | cons hy _ ih =>
      rw [List.forall_mem_cons] at hdone ⊢
      rw [hkey _ _ hy]
      exact ⟨hdone.1, ih hdone.2⟩

theorem insertOrdered_eq {less : β → β → Bool} (hkey : ∀ y x, same y x → key y = key x)
    (hxs : InOrder keys less key (done ++ x :: rest)) (hys : List.Forall₂ same ys done)
    (hy : same y x) : insertOrdered keys less key ys y = ys ++ [y] := by
  cases keys with
  | unique =>
      have hless : ∀ z ∈ ys, less (key z) (key y) = true := by
        rw [hkey y x hy]
        refine forall_key_of_forall₂ (fun k => less k (key x) = true) hkey hys fun d hd => ?_
        exact (List.pairwise_append.mp hxs).2.2 d hd x List.mem_cons_self
      have hany : (ys.any fun z => !less (key z) (key y) && !less (key y) (key z)) = false := by
        rw [List.any_eq_false]
        intro z hz
        simp [hless z hz]
      rw [insertOrdered, hany, List.takeWhile_eq_self_iff.mpr hless,
        List.dropWhile_eq_nil_iff.mpr hless]
      rfl
  | multi =>
      have hless : ∀ z ∈ ys, (!less (key y) (key z)) = true := by
        rw [hkey y x hy]
        refine forall_key_of_forall₂ (fun k => (!less (key x) k) = true) hkey hys fun d hd => ?_
        rw [(List.pairwise_append.mp hxs).2.2 d hd x List.mem_cons_self]
        rfl
      rw [insertOrdered, List.takeWhile_eq_self_iff.mpr hless,
        List.dropWhile_eq_nil_iff.mpr hless]

theorem insertUnordered_eq {equal : β → β → Bool} (hkey : ∀ y x, same y x → key y = key x)
    (hxs : Apart keys equal key (done ++ x :: rest)) (hys : List.Forall₂ same ys done)
    (hy : same y x) : insertUnordered keys equal key ys y = ys ++ [y] := by
  cases keys with
  | unique =>
      have hany : (ys.any fun z => equal (key z) (key y)) = false := by
        rw [List.any_eq_false, hkey y x hy]
        refine forall_key_of_forall₂ (fun k => ¬equal k (key x) = true) hkey hys fun d hd => ?_
        rw [(List.pairwise_append.mp hxs).2.2 d hd x List.mem_cons_self]
        exact Bool.false_ne_true
      rw [insertUnordered, hany]
      rfl
  | multi => rfl

theorem reads_ordered {less : β → β → Bool} {get : Deserialize α} (hsize : xs.length < maxSize)
    (hget : ∀ x ∈ xs, Reads get (bytes x) fun y => same y x)
    (hkey : ∀ y x, same y x → key y = key x) (hxs : InOrder keys less key xs) :
    Reads (deserializeNonRandomAccessContainer get (insertOrdered keys less key))
      (containerBytes bytes xs) fun ys => List.Forall₂ same ys xs := by
  refine reads_nonRandomAccess hsize hget fun done x rest heq ys y hys hy => ?_
  rw [heq] at hxs
  exact insertOrdered_eq hkey hxs hys hy

theorem reads_unordered {equal : β → β → Bool} {get : Deserialize α}
    (hsize : xs.length < maxSize) (hget : ∀ x ∈ xs, Reads get (bytes x) fun y => same y x)
    (hkey : ∀ y x, same y x → key y = key x) (hxs : Apart keys equal key xs) :
    Reads (deserializeNonRandomAccessContainer get (insertUnordered keys equal key))
      (containerBytes bytes xs) fun ys => List.Forall₂ same ys xs := by
  refine reads_nonRandomAccess hsize hget fun done x rest heq ys y hys hy => ?_
  rw [heq] at hxs
  exact insertUnordered_eq hkey hxs hys hy

end Containers

section Types

theorem forall₂_eq {α : Type} {same : α → α → Prop} {ys xs : List α}
    (hsame : ∀ y x, same y x → y = x) (h : List.Forall₂ same ys xs) : ys = xs := by
  rw [← List.forall₂_eq_eq_eq]
  exact h.imp hsame

theorem Ty.Ordered.eq_of_same {t : Ty} (h : t.Ordered) (y x : t.carrier) (hsame : t.Same y x) :
    y = x := by
  induction t with
  | key k => exact hsame
  | pair first second ih ih' => exact Prod.ext (ih h.1 _ _ hsame.1) (ih' h.2 _ _ hsame.2)
  | sequence c item ih => exact forall₂_eq (ih h) hsame
  | set keys item ih => exact forall₂_eq (ih h) hsame
  | map keys k value ih =>
      exact forall₂_eq (fun y x heq => Prod.ext heq.1 (ih h _ _ heq.2)) hsame
  | unorderedSet keys item => exact h.elim
  | unorderedMap keys k value => exact h.elim

variable (p : Platform)

/-- What `>>` reads into a new object is the value that was written. -/
theorem Ty.reads (t : Ty) (x : t.carrier) (h : t.Valid x) :
    Reads (t.get p (t.fresh p)) (t.bytes x) fun y => t.Same y x := by
  induction t with
  | key k => exact k.reads p h
  | pair first second ih ih' => exact reads_getPair (ih _ h.1) (ih' _ h.2)
  | sequence c item ih => exact reads_getSequence c h.1 fun x hx => ih x (h.2 x hx)
  | set keys item ih =>
      obtain ⟨hsize, hvalid, hordered, hxs⟩ := h
      exact reads_ordered hsize (fun x hx => ih x (hvalid x hx)) hordered.eq_of_same hxs
  | map keys k value ih =>
      obtain ⟨hsize, hvalid, hxs⟩ := h
      refine reads_ordered hsize (fun x hx => ?_) (fun _ _ => And.left) hxs
      exact reads_getPair ((Key.scalar k).reads p (hvalid x hx).1) (ih _ (hvalid x hx).2)
  | unorderedSet keys item =>
      obtain ⟨hsize, hvalid, hxs⟩ := h
      have hread := reads_unordered hsize (fun x hx => item.reads p (hvalid x hx))
        (fun _ _ => id) hxs
      refine hread.bind_pure fun ys hys => ?_
      obtain rfl := forall₂_eq (fun _ _ => id) hys
      exact p.iterated_perm _ _ _
  | unorderedMap keys k value ih =>
      obtain ⟨hsize, hvalid, hxs⟩ := h
      have hentries : ∀ entry ∈ x, Reads
          (getPair (Key.scalar k).get (value.get p) ((Key.scalar k).fresh p, value.fresh p))
          (pairBytes (Key.scalar k).bytes value.bytes entry)
          fun y => y.1 = entry.1 ∧ value.Same y.2 entry.2 := fun entry hentry =>
        reads_getPair ((Key.scalar k).reads p (hvalid entry hentry).1)
          (ih _ (hvalid entry hentry).2)
      have hread := reads_unordered hsize hentries (fun _ _ => And.left) hxs
      exact hread.bind_pure fun ys hys => ⟨ys, p.iterated_perm _ _ _, hys⟩

end Types

section Sequences

def putAll (xs : List (Σ t, Value t)) (s : Serialize) : Serialize :=
  xs.foldl (fun s x => x.1.put x.2.data s) s

/-- New objects are read into. -/
def getAll (p : Platform) (ts : List Ty) : Deserialize (List (Σ t : Ty, t.carrier)) :=
  getInto p (ts.map fun t => ⟨t, t.fresh p⟩)

/-- What was read equals what was written. -/
inductive Equal : (Σ t : Ty, t.carrier) → (Σ t, Value t) → Prop
  | same {t : Ty} {y : t.carrier} {x : Value t} (h : t.Same y x.data) : Equal ⟨t, y⟩ ⟨t, x⟩

theorem reads_getAll (p : Platform) (xs : List (Σ t, Value t)) :
    Reads (getAll p (xs.map Sigma.fst)) (xs.flatMap fun x => x.1.bytes x.2.data) fun ys =>
      List.Forall₂ Equal ys xs := by
  induction xs with
  | nil => exact reads_pure .nil
  | cons x xs ih =>
      refine (x.1.reads p x.2.data x.2.valid).bind fun y hy => ?_
      exact ih.bind_pure fun ys hys => .cons (.same hy) hys

/-- A value written anywhere is read back, and exactly its bytes are taken, whatever
follows them; and so are values written one after another. -/
theorem readsBack (p : Platform) (s : Serialize) (after : List UInt8) :
    (∀ (t : Ty) (x : Value t), ∃ bytes y, t.put x.data s = s.append bytes ∧
      (t.get p (t.fresh p) : Deserialize t.carrier) ((t.put x.data s).buffer ++ after)
        s.buffer.length = some (y, s.buffer.length + bytes.length) ∧ t.Same y x.data) ∧
    ∀ xs : List (Σ t, Value t), ∃ bytes ys, putAll xs s = s.append bytes ∧
      getAll p (xs.map Sigma.fst) ((putAll xs s).buffer ++ after) s.buffer.length =
        some (ys, s.buffer.length + bytes.length) ∧ List.Forall₂ Equal ys xs := by
  constructor
  · intro t x
    obtain ⟨y, hget, hy⟩ := t.reads p x.data x.valid s.buffer after
    refine ⟨t.bytes x.data, y, t.put_eq x.data s, ?_, hy⟩
    rw [t.put_eq]
    exact hget
  · intro xs
    obtain ⟨ys, hget, hys⟩ := reads_getAll p xs s.buffer after
    have hput : putAll xs s = s.append (xs.flatMap fun x => x.1.bytes x.2.data) :=
      foldl_append (fun x s => x.1.put_eq x.2.data s) xs s
    refine ⟨_, ys, hput, ?_, hys⟩
    rw [hput]
    exact hget

end Sequences

end CasualGame.Componet.Serialization
