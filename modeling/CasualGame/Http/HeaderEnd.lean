import CasualGame.Http.HttpParse
import Mathlib.Data.List.Infix
import Mathlib.Data.Nat.Find

/-!
Where the header of a request ends: behind its first blank line, if what comes before is text.
-/

namespace CasualGame.Http.HttpParse

section Statement

def IsBlank (line : List UInt8) : Prop := line = [10, 10] ∨ line = [10, 13, 10]

/-- A blank line ends at the offset `n`. -/
def EndsAt (bytes : List UInt8) (n : Nat) : Prop :=
  n ≤ bytes.length ∧ ∃ line, IsBlank line ∧ line <:+ bytes.take n

def FirstEndsAt (bytes : List UInt8) (n : Nat) : Prop :=
  EndsAt bytes n ∧ ∀ m < n, ¬ EndsAt bytes m

def NoneEnds (bytes : List UInt8) : Prop := ∀ n, ¬ EndsAt bytes n

def Allowed (bytes : List UInt8) : Prop := ∀ c ∈ bytes, isForbidden c = false

/-- A byte that is not allowed comes before any blank line has ended. -/
def ForbiddenFirst (bytes : List UInt8) : Prop :=
  ∃ before c after, bytes = before ++ c :: after ∧ isForbidden c = true ∧ NoneEnds before

/-- What `len` says of `bytes`. -/
structure HeaderLenRight (bytes : List UInt8) (len : Int) : Prop where
  found (n : Nat) (hn : 0 < n) :
    len = n ↔ FirstEndsAt bytes n ∧ Allowed (bytes.take n)
  forbidden (h : ForbiddenFirst bytes) : len = -1
  neither (hnone : NoneEnds bytes) (hallowed : Allowed bytes) : len = 0

/-- The length that is found is the right one, and a packet that is read is split in two. -/
structure HeaderRead (packet : List UInt8) : Prop where
  len : HeaderLenRight packet (getHeaderLen packet (asInt packet.length))
  split (h : 0 < getHeaderLen packet (asInt packet.length)) :
    ∃ info, readHeader packet {} = (true, info) ∧ info.headerInfo ++ info.postData = packet

/-- No byte before the first blank line is forbidden; and where there is no blank line, the
last byte is not the only one that is. -/
def EndsInTime (bytes : List UInt8) : Prop :=
  (∀ n, FirstEndsAt bytes n → Allowed (bytes.take n)) ∧
    (NoneEnds bytes → Allowed bytes.dropLast → Allowed bytes)

/-- Of what has more bytes than an `int` counts, only the bytes that come first are looked
at. -/
def Looked (packet : List UInt8) : List UInt8 := packet.take (asInt packet.length).toNat

/-- There is nothing to be found in such a packet, or a forbidden byte is seen, and no blank
line behind it. -/
def LongInTime (packet : List UInt8) : Prop :=
  NoneEnds packet ∧ Allowed packet ∨
    NoneEnds (Looked packet) ∧ ¬ Allowed (Looked packet).dropLast

def InTime (packet : List UInt8) : Prop :=
  if packet.length < 2147483648 then EndsInTime packet else LongInTime packet

end Statement

section BlankLines

variable {bytes line : List UInt8} {c : UInt8} {m n : Nat}

theorem IsBlank.two_le (h : IsBlank line) : 2 ≤ line.length := by
  rcases h with rfl | rfl
  · exact Nat.le_refl 2
  · exact Nat.le_succ 2

theorem EndsAt.two_le (h : EndsAt bytes n) : 2 ≤ n := by
  obtain ⟨-, line, hblank, hsuffix⟩ := h
  calc 2 ≤ line.length := hblank.two_le
    _ ≤ (bytes.take n).length := hsuffix.length_le
    _ ≤ n := List.length_take_le n bytes

theorem noneEnds_of_length (h : bytes.length < 2) : NoneEnds bytes := by
  intro n hends
  have htwo := hends.two_le
  have hle := hends.1
  omega

theorem endsAt_cons :
    EndsAt (c :: bytes) (n + 1) ↔
      EndsAt bytes n ∨ n ≤ bytes.length ∧ IsBlank (c :: bytes.take n) := by
  rw [EndsAt, List.take_succ_cons, List.length_cons, Nat.succ_le_succ_iff]
  constructor
  · rintro ⟨hle, line, hblank, hsuffix⟩
    rcases List.suffix_cons_iff.mp hsuffix with rfl | hsuffix
    · exact .inr ⟨hle, hblank⟩
    · exact .inl ⟨hle, line, hblank, hsuffix⟩
  · rintro (⟨hle, line, hblank, hsuffix⟩ | ⟨hle, hblank⟩)
    · exact ⟨hle, line, hblank, hsuffix.trans (List.suffix_cons c _)⟩
    · exact ⟨hle, _, hblank, List.suffix_rfl⟩

theorem endsAt_append (rest : List UInt8) (h : n ≤ bytes.length) :
    EndsAt (bytes ++ rest) n ↔ EndsAt bytes n := by
  have hle : n ≤ (bytes ++ rest).length ↔ n ≤ bytes.length := by
    rw [List.length_append]
    omega
  rw [EndsAt, EndsAt, List.take_append_of_le_length h, hle]

theorem NoneEnds.of_append {rest : List UInt8} (h : NoneEnds (bytes ++ rest)) :
    NoneEnds bytes :=
  fun n hends => h n ((endsAt_append _ hends.1).mpr hends)

theorem FirstEndsAt.eq (hm : FirstEndsAt bytes m) (hn : FirstEndsAt bytes n) : m = n := by
  rcases Nat.lt_trichotomy m n with hlt | heq | hgt
  · exact absurd hm.1 (hn.2 m hlt)
  · exact heq
  · exact absurd hn.1 (hm.2 n hgt)

theorem firstEndsAt_two (rest : List UInt8) : FirstEndsAt (10 :: 10 :: rest) 2 := by
  refine ⟨endsAt_cons.mpr (.inr ⟨Nat.le_add_left 1 _, .inl rfl⟩), fun m hm hends => ?_⟩
  exact absurd hm (Nat.not_lt.mpr hends.two_le)

theorem firstEndsAt_three (rest : List UInt8) : FirstEndsAt (10 :: 13 :: 10 :: rest) 3 := by
  refine ⟨endsAt_cons.mpr (.inr ⟨Nat.le_add_left 2 _, .inr rfl⟩), fun m hm hends => ?_⟩
  have htwo : m = 2 := Nat.le_antisymm (Nat.le_of_lt_succ hm) hends.two_le
  obtain ⟨-, line, rfl | rfl, hsuffix⟩ := hends
  · rw [htwo] at hsuffix
    exact absurd (List.cons.inj (List.cons.inj (hsuffix.eq_of_length rfl)).2).1 (by decide)
  · rw [htwo] at hsuffix
    exact absurd hsuffix.length_le (Nat.not_succ_le_self 2)

section Step

variable (hstart : ∀ n, ¬ IsBlank (c :: bytes.take n))

include hstart

theorem endsAt_cons_of_not : EndsAt (c :: bytes) (n + 1) ↔ EndsAt bytes n := by
  rw [endsAt_cons]
  exact ⟨fun h => h.resolve_right fun hblank => hstart n hblank.2, .inl⟩

theorem noneEnds_cons_of_not : NoneEnds (c :: bytes) ↔ NoneEnds bytes := by
  constructor
  · exact fun h n hends => h (n + 1) ((endsAt_cons_of_not hstart).mpr hends)
  · intro h n hends
    obtain ⟨n, rfl⟩ : ∃ m, n = m + 1 := ⟨n - 1, by have := hends.two_le; omega⟩
    exact h n ((endsAt_cons_of_not hstart).mp hends)

theorem firstEndsAt_cons_of_not (h : FirstEndsAt bytes n) : FirstEndsAt (c :: bytes) (n + 1) := by
  refine ⟨(endsAt_cons_of_not hstart).mpr h.1, fun m hm hends => ?_⟩
  obtain ⟨m, rfl⟩ : ∃ k, m = k + 1 := ⟨m - 1, by have := hends.two_le; omega⟩
  exact h.2 m (Nat.lt_of_succ_lt_succ hm) ((endsAt_cons_of_not hstart).mp hends)

end Step

theorem not_isBlank_of_ne (bytes : List UInt8) (h : c ≠ 10) (n : Nat) :
    ¬ IsBlank (c :: bytes.take n) := by
  rintro (heq | heq)
  · exact h (List.cons.inj heq).1
  · exact h (List.cons.inj heq).1

theorem not_isBlank_of_not {c' : UInt8} {rest : List UInt8} (htwo : ¬ (c = 10 ∧ c' = 10))
    (hthree : ¬ ((c = 10 ∧ c' = 13) ∧ rest.head? = some 10)) (n : Nat) :
    ¬ IsBlank (c :: (c' :: rest).take n) := by
  rintro (heq | heq)
  · rcases n with _ | n
    · cases heq
    · rw [List.take_succ_cons, List.cons.injEq, List.cons.injEq] at heq
      exact htwo ⟨heq.1, heq.2.1⟩
  · rcases n with _ | _ | n
    · cases heq
    · cases heq
    · rcases rest with _ | ⟨c'', rest⟩
      · cases heq
      · rw [List.take_succ_cons, List.take_succ_cons, List.cons.injEq, List.cons.injEq,
          List.cons.injEq] at heq
        exact hthree ⟨⟨heq.1, heq.2.1⟩, congrArg some heq.2.2.1⟩

end BlankLines

section Scan

variable {bytes : List UInt8} {c c' : UInt8} {len : Int} {n s : Nat}

theorem scan_of_pos (h : 0 < len) : scan s bytes len = len := by
  rcases bytes with _ | ⟨c, _ | ⟨c', rest⟩⟩
  · rw [scan]
    simp
  · rw [scan]
    simp
  · rw [scan, if_neg (Int.not_le.mpr h)]

theorem isForbidden_ne (h : isForbidden c = true) : c ≠ 10 := by
  rintro rfl
  exact absurd h (by decide)

theorem allowed_cons : Allowed (c :: bytes) ↔ isForbidden c = false ∧ Allowed bytes := by
  rw [Allowed, List.forall_mem_cons]
  rfl

/-- The end of the first blank line is what the loop comes out with; without one, it has
seen a forbidden byte or has nothing to tell. -/
theorem scan_spec (bytes : List UInt8) (s : Nat) (h : len ≤ 0) :
    (∃ n, FirstEndsAt bytes n ∧ scan s bytes len = s + n) ∨
      NoneEnds bytes ∧ (Allowed bytes.dropLast ∧ scan s bytes len = len ∨
        ¬ Allowed bytes.dropLast ∧ scan s bytes len = -1) := by
  induction bytes generalizing s len with
  | nil =>
      refine .inr ⟨noneEnds_of_length Nat.zero_lt_two, .inl ⟨fun c hc => ?_, ?_⟩⟩
      · cases hc
      · rw [scan]
        simp
  | cons c bytes ih =>
      rcases bytes with _ | ⟨c', rest⟩
      · refine .inr ⟨noneEnds_of_length Nat.one_lt_two, .inl ⟨fun c hc => ?_, ?_⟩⟩
        · cases hc
        · rw [scan]
          simp
      · rw [scan, if_pos h, scanByte, List.dropLast_cons_cons, allowed_cons]
        simp only [Bool.and_eq_true, decide_eq_true_eq]
        split_ifs with hforbidden htwo hthree
        · have hstart := not_isBlank_of_ne (c' :: rest) (isForbidden_ne hforbidden)
          rw [noneEnds_cons_of_not hstart]
          rcases ih (s + 1) (show (-1 : Int) ≤ 0 by decide) with ⟨n, hfirst, hscan⟩ | ⟨hnone, hscan⟩
          · exact .inl ⟨n + 1, firstEndsAt_cons_of_not hstart hfirst, by omega⟩
          · exact .inr ⟨hnone, .inr ⟨by simp [hforbidden], by omega⟩⟩
        · obtain ⟨rfl, rfl⟩ := htwo
          exact .inl ⟨2, firstEndsAt_two rest, scan_of_pos (by omega)⟩
        · obtain ⟨⟨rfl, rfl⟩, hrest⟩ := hthree
          obtain ⟨rest, rfl⟩ := List.head?_eq_some_iff.mp hrest
          exact .inl ⟨3, firstEndsAt_three rest, scan_of_pos (by omega)⟩
        · have hstart := not_isBlank_of_not htwo hthree
          have hfalse := Bool.eq_false_of_not_eq_true hforbidden
          rw [noneEnds_cons_of_not hstart]
          rcases ih (s := s + 1) h with ⟨n, hfirst, hscan⟩ | ⟨hnone, hscan⟩
          · exact .inl ⟨n + 1, firstEndsAt_cons_of_not hstart hfirst, by omega⟩
          · refine .inr ⟨hnone, ?_⟩
            simpa only [hfalse, true_and] using hscan

end Scan

section Outcomes

variable {bytes rest : List UInt8} {len : Int} {n : Nat}

theorem FirstEndsAt.not_noneEnds (h : FirstEndsAt bytes n) : ¬ NoneEnds bytes :=
  fun hnone => hnone n h.1

theorem noneEnds_or_first (bytes : List UInt8) :
    NoneEnds bytes ∨ ∃ n, FirstEndsAt bytes n := by
  classical
  rcases Classical.em (∃ n, EndsAt bytes n) with hends | hnone
  · exact .inr ⟨Nat.find hends, Nat.find_spec hends, fun _ => Nat.find_min hends⟩
  · exact .inl (not_exists.mp hnone)

theorem exists_of_not_allowed (h : ¬ Allowed bytes) :
    ∃ before c after, bytes = before ++ c :: after ∧ isForbidden c = true := by
  obtain ⟨c, hc⟩ := Classical.not_forall.mp h
  obtain ⟨hmem, hforbidden⟩ := Classical.not_imp.mp hc
  obtain ⟨before, after, rfl⟩ := List.append_of_mem hmem
  exact ⟨before, c, after, rfl, Bool.eq_true_of_not_eq_false hforbidden⟩

theorem ForbiddenFirst.not_allowed (h : ForbiddenFirst bytes) : ¬ Allowed bytes := by
  obtain ⟨before, c, after, rfl, hforbidden, -⟩ := h
  intro hallowed
  have hfalse := hallowed c (List.mem_append_right _ List.mem_cons_self)
  rw [hforbidden] at hfalse
  cases hfalse

theorem ForbiddenFirst.append (h : ForbiddenFirst bytes) (rest : List UInt8) :
    ForbiddenFirst (bytes ++ rest) := by
  obtain ⟨before, c, after, rfl, hforbidden, hnone⟩ := h
  exact ⟨before, c, after ++ rest, List.append_assoc _ _ _, hforbidden, hnone⟩

theorem forbiddenFirst_of_noneEnds (hnone : NoneEnds bytes) (h : ¬ Allowed bytes) :
    ForbiddenFirst bytes := by
  obtain ⟨before, c, after, rfl, hforbidden⟩ := exists_of_not_allowed h
  exact ⟨before, c, after, rfl, hforbidden, hnone.of_append⟩

theorem FirstEndsAt.forbiddenFirst (h : FirstEndsAt bytes n) (hnot : ¬ Allowed (bytes.take n)) :
    ForbiddenFirst bytes := by
  obtain ⟨before, c, after, htake, hforbidden⟩ := exists_of_not_allowed hnot
  have hbytes : bytes = before ++ c :: (after ++ bytes.drop n) := by
    calc bytes = bytes.take n ++ bytes.drop n := (List.take_append_drop n bytes).symm
      _ = before ++ c :: (after ++ bytes.drop n) := by
        rw [htake, List.append_assoc, List.cons_append]
  have hlength := List.length_take_le n bytes
  rw [htake, List.length_append, List.length_cons] at hlength
  refine ⟨before, c, after ++ bytes.drop n, hbytes, hforbidden, fun m hends => ?_⟩
  have hm : m < n := by
    have hle := hends.1
    omega
  apply h.2 m hm
  rw [hbytes]
  exact (endsAt_append _ hends.1).mpr hends

theorem FirstEndsAt.not_forbiddenFirst (h : FirstEndsAt bytes n)
    (hallowed : Allowed (bytes.take n)) : ¬ ForbiddenFirst bytes := by
  rintro ⟨before, c, after, rfl, hforbidden, hnone⟩
  rcases Nat.lt_or_ge before.length n with hlt | hge
  · obtain ⟨k, rfl⟩ := Nat.exists_eq_add_of_lt hlt
    have hmem : c ∈ (before ++ c :: after).take (before.length + k + 1) := by
      rw [Nat.add_assoc, List.take_length_add_append, List.take_succ_cons]
      exact List.mem_append_right _ List.mem_cons_self
    have hfalse := hallowed c hmem
    rw [hforbidden] at hfalse
    cases hfalse
  · exact hnone n ((endsAt_append _ hge).mp h.1)

theorem headerLenRight_pos (hn : 0 < n) :
    HeaderLenRight bytes n ↔ FirstEndsAt bytes n ∧ Allowed (bytes.take n) := by
  constructor
  · exact fun hright => (hright.found n hn).mp rfl
  · rintro ⟨hfirst, hallowed⟩
    refine ⟨fun m hm => ⟨fun heq => ?_, fun hm' => ?_⟩, fun hforbidden => ?_, fun hnone _ => ?_⟩
    · obtain rfl := Int.ofNat_inj.mp heq
      exact ⟨hfirst, hallowed⟩
    · rw [hfirst.eq hm'.1]
    · exact absurd hforbidden (hfirst.not_forbiddenFirst hallowed)
    · exact absurd hnone hfirst.not_noneEnds

theorem headerLenRight_neg : HeaderLenRight bytes (-1) ↔ ForbiddenFirst bytes := by
  constructor
  · intro hright
    rcases noneEnds_or_first bytes with hnone | ⟨n, hfirst⟩
    · apply forbiddenFirst_of_noneEnds hnone
      intro hallowed
      cases hright.neither hnone hallowed
    · apply hfirst.forbiddenFirst
      intro hallowed
      have hn : 0 < n := Nat.lt_of_lt_of_le Nat.zero_lt_two hfirst.1.two_le
      have heq := (hright.found n hn).mpr ⟨hfirst, hallowed⟩
      omega
  · intro hforbidden
    refine ⟨fun n hn => ⟨fun heq => by omega, fun hfirst => ?_⟩, fun _ => rfl,
      fun _ hallowed => ?_⟩
    · exact absurd hforbidden (hfirst.1.not_forbiddenFirst hfirst.2)
    · exact absurd hallowed hforbidden.not_allowed

theorem headerLenRight_zero : HeaderLenRight bytes 0 ↔ NoneEnds bytes ∧ Allowed bytes := by
  constructor
  · intro hright
    have hnot : ¬ ForbiddenFirst bytes := fun hforbidden => by cases hright.forbidden hforbidden
    rcases noneEnds_or_first bytes with hnone | ⟨n, hfirst⟩
    · exact ⟨hnone, Classical.not_not.mp fun h => hnot (forbiddenFirst_of_noneEnds hnone h)⟩
    · have hn : 0 < n := Nat.lt_of_lt_of_le Nat.zero_lt_two hfirst.1.two_le
      have hallowed := Classical.not_not.mp fun h => hnot (hfirst.forbiddenFirst h)
      have heq := (hright.found n hn).mpr ⟨hfirst, hallowed⟩
      omega
  · rintro ⟨hnone, hallowed⟩
    refine ⟨fun n hn => ⟨fun heq => by omega, fun hfirst => ?_⟩, fun hforbidden => ?_,
      fun _ _ => rfl⟩
    · exact absurd hnone hfirst.1.not_noneEnds
    · exact absurd hallowed hforbidden.not_allowed

end Outcomes

section Read

variable {bytes packet : List UInt8} {info : HttpProtocInfo} {n : Nat}

theorem Allowed.dropLast (h : Allowed bytes) : Allowed bytes.dropLast :=
  fun c hc => h c (List.mem_of_mem_dropLast hc)

theorem scan_zero_spec (bytes : List UInt8) :
    (∃ n, FirstEndsAt bytes n ∧ scan 0 bytes 0 = n) ∨
      NoneEnds bytes ∧ (Allowed bytes.dropLast ∧ scan 0 bytes 0 = 0 ∨
        ¬ Allowed bytes.dropLast ∧ scan 0 bytes 0 = -1) := by
  rcases scan_spec bytes 0 (Int.le_refl 0) with ⟨n, hfirst, hscan⟩ | hnone
  · rw [Int.natCast_zero, Int.zero_add] at hscan
    exact .inl ⟨n, hfirst, hscan⟩
  · exact .inr hnone

theorem getHeaderLen_eq (packet : List UInt8) :
    getHeaderLen packet (asInt packet.length) = scan 0 (Looked packet) 0 := rfl

/-- The length is told by the blank lines and the forbidden bytes of what is looked at. -/
theorem getHeaderLen_spec (packet : List UInt8) :
    (∃ n, FirstEndsAt (Looked packet) n ∧ getHeaderLen packet (asInt packet.length) = n) ∨
      NoneEnds (Looked packet) ∧ (Allowed (Looked packet).dropLast ∧
          getHeaderLen packet (asInt packet.length) = 0 ∨
        ¬ Allowed (Looked packet).dropLast ∧
          getHeaderLen packet (asInt packet.length) = -1) := by
  rw [getHeaderLen_eq]
  exact scan_zero_spec (Looked packet)

theorem headerLenRight_scan : HeaderLenRight bytes (scan 0 bytes 0) ↔ EndsInTime bytes := by
  rcases scan_zero_spec bytes with
    ⟨n, hfirst, hscan⟩ | ⟨hnone, ⟨hallowed, hscan⟩ | ⟨hnot, hscan⟩⟩
  · have hn : 0 < n := Nat.lt_of_lt_of_le Nat.zero_lt_two hfirst.1.two_le
    rw [hscan, headerLenRight_pos hn]
    constructor
    · rintro ⟨-, hallowed⟩
      refine ⟨fun m hm => ?_, fun hnone => absurd hnone hfirst.not_noneEnds⟩
      rwa [hm.eq hfirst]
    · exact fun h => ⟨hfirst, h.1 n hfirst⟩
  · rw [hscan, headerLenRight_zero]
    constructor
    · exact fun h => ⟨fun m hm => absurd hnone hm.not_noneEnds, fun _ _ => h.2⟩
    · exact fun h => ⟨hnone, h.2 hnone hallowed⟩
  · rw [hscan, headerLenRight_neg]
    constructor
    · exact fun _ => ⟨fun m hm => absurd hnone hm.not_noneEnds, fun _ h => absurd h hnot⟩
    · exact fun _ => forbiddenFirst_of_noneEnds hnone fun h => hnot h.dropLast

theorem readHeader_of_first (hfirst : FirstEndsAt (Looked packet) n)
    (hlen : getHeaderLen packet (asInt packet.length) = n) :
    ∃ info, readHeader packet {} = (true, info) ∧ info.headerInfo = packet.take n ∧
      info.headerInfo ++ info.postData = Looked packet := by
  have htwo := hfirst.1.two_le
  have hle : n ≤ (asInt packet.length).toNat := by
    calc n ≤ (Looked packet).length := hfirst.1.1
      _ ≤ (asInt packet.length).toNat := List.length_take_le _ _
  have hread : ¬ asInt packet.length < n := by omega
  have hpos : ¬ (n : Int) ≤ 0 := by omega
  have hbody : (n : Int) ≤ asInt packet.length := by omega
  have hcount : (asInt packet.length).toNat = n + (asInt packet.length - n).toNat := by omega
  have hinfo : readHeader packet {} = (true,
      { headerInfo := [] ++ packet.take (n : Int).toNat
        postDataLen := asInt packet.length - n
        postData := [] ++ (packet.drop (n : Int).toNat).take
          (asInt packet.length - n).toNat }) := by
    simp only [readHeader, hlen, if_neg hread, if_neg hpos, if_pos hbody]
  refine ⟨_, hinfo, rfl, ?_⟩
  rw [Looked, hcount, List.take_add, List.nil_append, List.nil_append, Int.toNat_natCast]

theorem readHeader_of_le (h : getHeaderLen packet (asInt packet.length) ≤ 0) :
    readHeader packet info = (false, info) := by
  simp only [readHeader, if_pos h, ite_self]

theorem looked_of_lt (h : packet.length < 2147483648) : Looked packet = packet := by
  rw [Looked, UrlCode.asInt_of_lt h, Int.toNat_natCast, List.take_length]

theorem looked_of_ge (h : 2147483648 ≤ packet.length) : Looked packet ≠ packet := by
  intro heq
  have hlength := congrArg List.length heq
  rw [Looked, List.length_take] at hlength
  rcases UrlCode.asInt_of_ge h with hneg | ⟨-, -, hcut⟩
  · omega
  · omega

theorem length_looked_lt (packet : List UInt8) : (Looked packet).length < 2147483648 := by
  rw [Looked, List.length_take]
  rcases Nat.lt_or_ge packet.length 2147483648 with hlt | hge
  · omega
  · rcases UrlCode.asInt_of_ge hge with hneg | ⟨-, hint, -⟩
    · omega
    · omega

theorem looked_append (packet : List UInt8) :
    Looked packet ++ packet.drop (asInt packet.length).toNat = packet :=
  List.take_append_drop _ packet

theorem NoneEnds.looked (h : NoneEnds packet) : NoneEnds (Looked packet) := by
  rw [← looked_append packet] at h
  exact h.of_append

theorem headerRead_of_lt (h : packet.length < 2147483648) :
    HeaderRead packet ↔ EndsInTime packet := by
  rw [← headerLenRight_scan]
  constructor
  · intro hread
    have hright := hread.len
    rwa [getHeaderLen_eq, looked_of_lt h] at hright
  · intro hright
    refine ⟨by rwa [getHeaderLen_eq, looked_of_lt h], fun hpos => ?_⟩
    rcases getHeaderLen_spec packet with ⟨n, hfirst, hlen⟩ | ⟨-, ⟨-, hlen⟩ | ⟨-, hlen⟩⟩
    · obtain ⟨info, hinfo, -, hsplit⟩ := readHeader_of_first hfirst hlen
      exact ⟨info, hinfo, by rw [hsplit, looked_of_lt h]⟩
    · rw [hlen] at hpos
      exact absurd hpos (Int.lt_irrefl 0)
    · rw [hlen] at hpos
      exact absurd hpos (by decide)

theorem headerRead_of_ge (h : 2147483648 ≤ packet.length) :
    HeaderRead packet ↔ LongInTime packet := by
  rcases getHeaderLen_spec packet with
    ⟨n, hfirst, hlen⟩ | ⟨hnone, ⟨hallowed, hlen⟩ | ⟨hnot, hlen⟩⟩
  · constructor
    · intro hread
      obtain ⟨info, hinfo, -, hsplit⟩ := readHeader_of_first hfirst hlen
      have htwo := hfirst.1.two_le
      obtain ⟨info', hinfo', hsplit'⟩ := hread.split (by omega)
      rw [hinfo] at hinfo'
      obtain rfl := (Prod.mk.inj hinfo').2
      exact absurd (hsplit.symm.trans hsplit') (looked_of_ge h)
    · rintro (⟨hnone, -⟩ | ⟨hnone, -⟩)
      · exact absurd hnone.looked hfirst.not_noneEnds
      · exact absurd hnone hfirst.not_noneEnds
  · constructor
    · intro hread
      have hright := hread.len
      rw [hlen] at hright
      exact .inl (headerLenRight_zero.mp hright)
    · rintro (hright | ⟨-, hnot⟩)
      · refine ⟨by rw [hlen]; exact headerLenRight_zero.mpr hright, fun hpos => ?_⟩
        omega
      · exact absurd hallowed hnot
  · constructor
    · exact fun _ => .inr ⟨hnone, hnot⟩
    · intro _
      have hforbidden := forbiddenFirst_of_noneEnds hnone fun hallowed => hnot hallowed.dropLast
      have happend := hforbidden.append (packet.drop (asInt packet.length).toNat)
      rw [looked_append] at happend
      refine ⟨by rw [hlen]; exact headerLenRight_neg.mpr happend, fun hpos => ?_⟩
      omega

theorem headerRead_iff (packet : List UInt8) : HeaderRead packet ↔ InTime packet := by
  rw [InTime]
  split_ifs with h
  · exact headerRead_of_lt h
  · exact headerRead_of_ge (Nat.le_of_not_lt h)

/-- A forbidden byte, and a blank line behind it that is taken for the end of the header. -/
theorem overwritten_not_headerRead : ¬ HeaderRead [1, 10, 10] := by
  intro hread
  have hlen : getHeaderLen [1, 10, 10] (asInt 3) = (3 : Nat) := by decide +kernel
  have hfound := (hread.len.found 3 (by decide)).mp hlen
  have hforbidden := hfound.2 1 List.mem_cons_self
  exact absurd hforbidden (by decide)

end Read

end CasualGame.Http.HttpParse
