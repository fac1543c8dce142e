import CasualGame.Componet.Serialize

/-!
What `Deserialize` does to a buffer that it has not been written for: one access after
another, and what memory it asks for in between.
-/

namespace CasualGame.Componet.Serialization

open Lib.Decoding

/-- What is done while something is read. -/
inductive Access (α : Type) : Type
  | done (a : α)
  /-- A scalar is read over the bytes that it has. -/
  | scalar (t : List UInt8) (next : List UInt8 → Access α)
  /-- A string is given the bytes that stand in the buffer. -/
  | assign (size : Nat) (next : List UInt8 → Access α)
  /-- There has to be memory for so many items. -/
  | request (size : Nat) (next : Access α)

namespace Access

variable {α β γ : Type}

def bind (m : Access α) (f : α → Access β) : Access β :=
  match m with
  | .done a => f a
  | .scalar t next => .scalar t fun bytes => (next bytes).bind f
  | .assign size next => .assign size fun bytes => (next bytes).bind f
  | .request size next => .request size (next.bind f)

instance : Monad Access where
  pure := .done
  bind := bind

instance : Reading Access where
  scalar t := .scalar t .done
  assign size := .assign size .done
  request := .request

section Meaning

/-- What is read, where the buffer goes far enough and memory is always there. -/
def get : Access α → Deserialize α
  | .done a => pure a
  | .scalar t next => do (next (← Reading.scalar t)).get
  | .assign size next => do (next (← Reading.assign size)).get
  | .request size next => Reading.request size next.get

theorem get_bind (m : Access α) (f : α → Access β) :
    (m >>= f).get = m.get >>= fun a => (f a).get := by
  change (m.bind f).get = _
  induction m with
  | done a => exact (pure_bind a fun a => (f a).get).symm
  | scalar t next ih => simp only [bind, get, ih, bind_assoc]
  | assign size next ih => simp only [bind, get, ih, bind_assoc]
  | request size next ih => exact ih

theorem get_pure (a : α) : (pure a : Access α).get = pure a := rfl

theorem get_scalar (t : List UInt8) :
    (Reading.scalar t : Access (List UInt8)).get = Reading.scalar t :=
  bind_pure _

theorem get_assign (size : Nat) :
    (Reading.assign size : Access (List UInt8)).get = Reading.assign size :=
  bind_pure _

theorem get_request (size : Nat) (next : Access α) :
    (Reading.request size next).get = Reading.request size next.get :=
  rfl

theorem get_getSize : (getSize : Access Nat).get = getSize := by
  simp only [getSize, get_bind, get_scalar, get_pure]

theorem get_getString : (getString : Access (List UInt8)).get = getString := by
  simp only [getString, get_bind, get_getSize, get_request, get_assign]

variable {read : α → Access α} {read' : β → Access β}

theorem get_getPair (pair : α × β) : (getPair read read' pair).get =
    getPair (fun x => (read x).get) (fun x => (read' x).get) pair := by
  simp only [getPair, get_bind, get_pure]

theorem get_forLoop {body : Nat → γ → Access γ} {body' : Nat → γ → Deserialize γ}
    (hbody : ∀ i c, (body i c).get = body' i c) (i count : Nat) (c : γ) :
    (forLoop body i count c).get = forLoop body' i count c := by
  induction count generalizing i c with
  | zero => rfl
  | succ count ih => simp only [forLoop, get_bind, hbody, ih]

theorem get_randomAccess (fresh : α) (container : List α) :
    (deserializeRandomAccessContainer read fresh container).get =
      deserializeRandomAccessContainer (fun x => (read x).get) fresh container := by
  have hbody : ∀ i container, (getAt read fresh i container).get =
      getAt (fun x => (read x).get) fresh i container := by
    intro i container
    simp only [getAt, get_bind, get_pure]
  simp only [deserializeRandomAccessContainer, get_bind, get_getSize, get_request,
    get_forLoop hbody]

theorem get_nonRandomAccess (m : Access α) (insert : List α → α → List α) :
    (deserializeNonRandomAccessContainer m insert).get =
      deserializeNonRandomAccessContainer m.get insert := by
  have hbody : ∀ (_ : Nat) container, (getInserted m insert container).get =
      getInserted m.get insert container := by
    intro i container
    simp only [getInserted, get_bind, get_request, get_pure]
  simp only [deserializeNonRandomAccessContainer, get_bind, get_getSize, get_forLoop hbody]

theorem get_getForwardList (fresh : α) (fl : List α) :
    (getForwardList read fresh fl).get = getForwardList (fun x => (read x).get) fresh fl := by
  have hbody : ∀ i fl, (insertAfter read fresh i fl).get =
      insertAfter (fun x => (read x).get) fresh i fl := by
    intro i fl
    simp only [insertAfter, get_bind, get_request, get_pure]
  simp only [getForwardList, get_bind, get_getSize, get_request, get_pure, get_forLoop hbody]

theorem get_getSequence (c : Sequence) (fresh : α) (xs : List α) :
    (getSequence c read fresh xs).get = getSequence c (fun x => (read x).get) fresh xs := by
  cases c with
  | vector => exact get_randomAccess fresh xs
  | basicString => exact get_randomAccess fresh xs
  | list => exact get_nonRandomAccess _ _
  | deque => exact get_nonRandomAccess _ _
  | forwardList => exact get_getForwardList fresh xs

end Meaning

section Buffer

variable (buffer : List UInt8) (had : Nat → Nat → Bool)

/-- From where to where an access reads, which is where `tellg` is before and after it. The
`n`-th request for memory is not always met, and what is not met is an exception. -/
def spans : Access α → Nat → Nat → List (Nat × Nat)
  | .done _, _, _ => []
  | .scalar t next, ipos, n =>
      (ipos, (overlay buffer t ipos).2) ::
        spans (next (overlay buffer t ipos).1) (overlay buffer t ipos).2 n
  | .assign size next, ipos, n =>
      (ipos, ipos + size) :: spans (next ((buffer.drop ipos).take size)) (ipos + size) n
  | .request size next, ipos, n => if had n size then spans next ipos (n + 1) else []

/-- Every string for which there is memory has a length that is no greater than the number
of bytes behind it. -/
def StringsFit : Access α → Nat → Nat → Prop
  | .done _, _, _ => True
  | .scalar t next, ipos, n =>
      StringsFit (next (overlay buffer t ipos).1) (overlay buffer t ipos).2 n
  | .assign size next, ipos, n =>
      size ≤ buffer.length - ipos ∧
        StringsFit (next ((buffer.drop ipos).take size)) (ipos + size) n
  | .request size next, ipos, n => had n size = true → StringsFit next ipos (n + 1)

end Buffer

end Access

def accessAll (p : Platform) (olds : List (Σ t : Ty, t.carrier)) :
    Access (List (Σ t : Ty, t.carrier)) :=
  getInto p olds

section Bounds

variable {α : Type} {buffer t : List UInt8} {had : Nat → Nat → Bool} {ipos n : Nat}

/-- No byte is read that is not in the buffer, and `tellg` is never beyond its end. -/
structure InBounds (buffer : List UInt8) (spans : List (Nat × Nat)) : Prop where
  reads : ∀ span ∈ spans, ∀ offset, span.1 ≤ offset → offset < span.2 → offset < buffer.length
  tellg : ∀ span ∈ spans, span.2 ≤ buffer.length

theorem inBounds_iff {spans : List (Nat × Nat)} :
    InBounds buffer spans ↔ ∀ span ∈ spans, span.2 ≤ buffer.length := by
  constructor
  · exact fun h => h.tellg
  · intro h
    exact ⟨fun span hspan offset _ hlt => Nat.lt_of_lt_of_le hlt (h span hspan), h⟩

theorem overlay_le (h : ipos ≤ buffer.length) : (overlay buffer t ipos).2 ≤ buffer.length := by
  induction t generalizing ipos with
  | nil => exact h
  | cons b t ih =>
      cases hget : buffer[ipos]? with
      | none => simpa only [overlay, hget] using h
      | some byte =>
          have hlt := (List.getElem?_eq_some_iff.mp hget).1
          simpa only [overlay, hget] using ih hlt

theorem spans_iff (m : Access α) (h : ipos ≤ buffer.length) :
    (∀ span ∈ m.spans buffer had ipos n, span.2 ≤ buffer.length) ↔
      m.StringsFit buffer had ipos n := by
  induction m generalizing ipos n with
  | done a => exact iff_of_true (fun _ hmem => absurd hmem List.not_mem_nil) trivial
  | scalar t next ih =>
      have hle := overlay_le (t := t) h
      rw [Access.spans, Access.StringsFit, List.forall_mem_cons, ih _ hle]
      exact and_iff_right hle
  | assign size next ih =>
      rw [Access.spans, Access.StringsFit, List.forall_mem_cons]
      have hfits : ipos + size ≤ buffer.length ↔ size ≤ buffer.length - ipos := by omega
      constructor
      · rintro ⟨hle, hrest⟩
        exact ⟨hfits.mp hle, (ih _ hle).mp hrest⟩
      · rintro ⟨hle, hrest⟩
        exact ⟨hfits.mpr hle, (ih _ (hfits.mpr hle)).mpr hrest⟩
  | request size next ih =>
      rw [Access.spans, Access.StringsFit]
      split_ifs with hhad
      · rw [ih h]
        exact ⟨fun hfit _ => hfit, fun hfit => hfit hhad⟩
      · exact iff_of_true (fun _ hmem => absurd hmem List.not_mem_nil)
          fun htrue => absurd htrue hhad

/-- What is read from a buffer stays inside of it exactly when all strings fit. -/
theorem readsInBounds_iff (p : Platform) (olds : List (Σ t : Ty, t.carrier)) (buffer : List UInt8)
    (had : Nat → Nat → Bool) :
    InBounds buffer ((accessAll p olds).spans buffer had 0 0) ↔
      (accessAll p olds).StringsFit buffer had 0 0 := by
  rw [inBounds_iff]
  exact spans_iff _ (Nat.zero_le _)

/-- The length of a string, which is one, and nothing behind it. -/
theorem length_not_inBounds :
    ¬ InBounds [1, 0, 0, 0, 0, 0, 0, 0]
      ((accessAll .plain [⟨.key .string, []⟩]).spans [1, 0, 0, 0, 0, 0, 0, 0]
        (fun _ _ => true) 0 0) := by
  intro h
  have hread : (8, 9) ∈ (accessAll .plain [⟨.key .string, []⟩]).spans [1, 0, 0, 0, 0, 0, 0, 0]
      (fun _ _ => true) 0 0 := by decide +kernel
  have hlt := h.reads (8, 9) hread 8 (Nat.le_refl 8) (Nat.lt_succ_self 8)
  exact absurd hlt (by decide)

end Bounds

section Defined

variable (p : Platform)

theorem Key.get_access (k : Key) (x : List UInt8) : (k.get x : Access (List UInt8)).get =
    k.get x := by
  cases k with
  | scalar s => exact Access.get_scalar x
  | string => exact Access.get_getString

/-- Where there is memory for everything, this is how `Deserialize` reads. -/
theorem Ty.get_access (t : Ty) (x : t.carrier) : (t.get p x : Access t.carrier).get =
    t.get p x := by
  induction t with
  | key k => exact k.get_access x
  | pair first second ih ih' =>
      simp only [Ty.get, Access.get_getPair, ih, ih']
  | sequence c item ih => simp only [Ty.get, Access.get_getSequence, ih]
  | set keys item ih => simp only [Ty.get, Access.get_nonRandomAccess, ih]
  | map keys k value ih =>
      simp only [Ty.get, Access.get_nonRandomAccess, Access.get_getPair, ih,
        Key.get_access]
  | unorderedSet keys item =>
      simp only [Ty.get, Access.get_bind, Access.get_pure, Access.get_nonRandomAccess,
        Key.get_access]
  | unorderedMap keys k value ih =>
      simp only [Ty.get, Access.get_bind, Access.get_pure, Access.get_nonRandomAccess,
        Access.get_getPair, ih, Key.get_access]

variable {buffer : List UInt8} {ipos : Nat}

theorem isSome_get_iff {α : Type} (m : Access α) (n : Nat) (h : ipos ≤ buffer.length) :
    (m.get buffer ipos).isSome = true ↔ m.StringsFit buffer (fun _ _ => true) ipos n := by
  induction m generalizing ipos n with
  | done a => exact iff_of_true rfl trivial
  | scalar t next ih => exact ih _ _ (overlay_le h)
  | assign size next ih =>
      rw [Access.StringsFit]
      change (Option.bind (assign size buffer ipos) fun r => (next r.1).get buffer r.2).isSome
        = true ↔ _
      rw [assign]
      split_ifs with hfits
      · rw [Option.bind_some, ih _ n hfits]
        exact (and_iff_right (by omega)).symm
      · exact iff_of_false Bool.false_ne_true fun hfit => by omega
  | request size next ih =>
      rw [Access.StringsFit]
      exact (ih (n + 1) h).trans ⟨fun hfit _ => hfit, fun hfit => hfit rfl⟩

/-- Where all strings fit it is defined what is read, and nowhere else. -/
theorem Ty.isSome_get_iff (t : Ty) (x : t.carrier) (h : ipos ≤ buffer.length) :
    ((t.get p x : Deserialize t.carrier) buffer ipos).isSome = true ↔
      (t.get p x : Access t.carrier).StringsFit buffer (fun _ _ => true) ipos 0 := by
  rw [← t.get_access]
  exact Serialization.isSome_get_iff _ _ h

end Defined

end CasualGame.Componet.Serialization
