import CasualGame.Http.HeaderEnd

/-!
The target of a request is decoded before it is split at the question mark.
-/

namespace CasualGame.Http

namespace UrlCode

theorem isSafe_of_isxdigit {c : UInt8} (h : isxdigit c = true) : isSafe c = true := by
  simp only [isSafe, isxdigit, Bool.or_eq_true, Bool.and_eq_true, decide_eq_true_eq] at h ⊢
  rcases h with (h | h) | h
  · exact .inl (.inl (.inl (.inl (.inl h))))
  · exact .inl (.inl (.inl (.inl (.inr ⟨h.1, UInt8.le_trans h.2 (by decide)⟩))))
  · exact .inl (.inl (.inl (.inr ⟨h.1, UInt8.le_trans h.2 (by decide)⟩)))

theorem UrlText.mem {text : List UInt8} {c : UInt8} (h : UrlText text) (hc : c ∈ text) :
    isSafe c = true ∨ c = 43 ∨ c = 37 := by
  induction h with
  | nil => cases hc
  | safe hsafe _ ih =>
      rcases List.mem_cons.mp hc with rfl | hc
      · exact .inl hsafe
      · exact ih hc
  | plus _ ih =>
      rcases List.mem_cons.mp hc with rfl | hc
      · exact .inr (.inl rfl)
      · exact ih hc
  | escape hdigit hdigit' _ ih =>
      rcases List.mem_cons.mp hc with rfl | hc
      · exact .inr (.inr rfl)
      · rcases List.mem_cons.mp hc with rfl | hc
        · exact .inl (isSafe_of_isxdigit hdigit)
        · rcases List.mem_cons.mp hc with rfl | hc
          · exact .inl (isSafe_of_isxdigit hdigit')
          · exact ih hc

theorem not_mem_urlEncode {c : UInt8} (src : List UInt8)
    (h : ¬ (isSafe c = true ∨ c = 43 ∨ c = 37)) : c ∉ urlEncode src :=
  fun hc => h ((urlText_urlEncode src).mem hc)

theorem urlDecode_target (p q : List UInt8)
    (h : (urlEncode p ++ 63 :: urlEncode q).length < 2147483648) :
    urlDecode (urlEncode p ++ 63 :: urlEncode q) = some (p ++ 63 :: q) := by
  have hlength : (urlEncode p ++ 63 :: urlEncode q).length =
      encodedSize q + 1 + encodedSize p := by
    rw [List.length_append, List.length_cons, length_urlEncode, length_urlEncode, Nat.add_comm]
  rw [hlength] at h
  have hq : Countable q := ⟨by omega, fun c rest hsuffix _ => by
    have := encodedSize_le_of_suffix hsuffix
    omega⟩
  have hmark : decodeFrom (63 :: urlEncode q) (asInt (encodedSize q + 1)) = some (63 :: q) := by
    have hrest := urlDecode_urlEncode hq
    rw [urlDecode, length_urlEncode] at hrest
    rw [decodeFrom_literal (by decide) (by omega) (.inl (by decide)), hrest]
    rfl
  rw [urlDecode, hlength, decodeFrom_urlEncode p _ (by omega) (fun c rest hsuffix _ => ?_), hmark]
  · rfl
  · have := encodedSize_le_of_suffix hsuffix
    omega

end UrlCode

namespace HttpParse

section Statement

/-- The first line of a request. -/
def firstLine (p q : List UInt8) : List UInt8 :=
  get ++ 32 :: (UrlCode.urlEncode p ++ 63 :: UrlCode.urlEncode q) ++
    [32, 72, 84, 84, 80, 47, 49, 46, 49]

def Splits (info : HttpProtocInfo) (p q : List UInt8) : Prop :=
  ∃ info', parseHttpHeader info = some (true, info') ∧ info'.uri = p ∧ info'.queryString = q

end Statement

section Find

variable {a b str : List UInt8} {c : UInt8} {pos : Nat}

theorem find_eq (h : str.drop pos = a ++ c :: b) (hc : c ∉ a) :
    find str c pos = some (pos + a.length) := by
  have hnone : List.findIdx? (· = c) a = none := by
    rw [List.findIdx?_eq_none_iff]
    intro x hx
    exact decide_eq_false fun heq => hc (heq ▸ hx)
  have hfound : List.findIdx? (· = c) (c :: b) = some 0 := by
    rw [List.findIdx?_cons, if_pos (decide_eq_true rfl)]
  rw [find, h, List.findIdx?_append, hnone, hfound]
  simp

theorem find_lt (hc : c ∈ a) : ∃ n < a.length, find (a ++ b) c 0 = some n := by
  obtain ⟨before, after, rfl, hbefore⟩ := List.eq_append_cons_of_mem hc
  refine ⟨before.length, ?_, ?_⟩
  · rw [List.length_append, List.length_cons]
    omega
  · have hfind : find (before ++ c :: after ++ b) c 0 = some (0 + before.length) := find_eq
      (List.append_assoc before (c :: after) b) hbefore
    rwa [Nat.zero_add] at hfind

end Find

section Target

variable {p q rest : List UInt8} {info : HttpProtocInfo} {n : Nat}

theorem of_readHeader {packet : List UInt8} (h : readHeader packet {} = (true, info)) :
    ∃ n < 2147483648, EndsAt packet n ∧ info.headerInfo = packet.take n := by
  rcases getHeaderLen_spec packet with ⟨n, hfirst, hlen⟩ | ⟨-, hlen⟩
  · obtain ⟨info', hread, hheader, -⟩ := readHeader_of_first hfirst hlen
    rw [h] at hread
    obtain rfl := (Prod.mk.inj hread).2
    have hends := (endsAt_append (packet.drop (asInt packet.length).toNat)
      hfirst.1.1).mpr hfirst.1
    rw [looked_append] at hends
    exact ⟨n, Nat.lt_of_le_of_lt hfirst.1.1 (length_looked_lt packet), hends, hheader⟩
  · rw [readHeader_of_le (by omega)] at h
    cases (Prod.mk.inj h).1

theorem IsBlank.mem {line : List UInt8} (h : IsBlank line) : 10 ∈ line := by
  rcases h with rfl | rfl
  · exact List.mem_cons_self
  · exact List.mem_cons_self

theorem EndsAt.length_lt {before rest : List UInt8} (h : EndsAt (before ++ rest) n)
    (hbefore : 10 ∉ before) : before.length < n := by
  obtain ⟨-, line, hblank, hsuffix⟩ := h
  apply Nat.lt_of_not_le
  intro hle
  rw [List.take_append_of_le_length hle] at hsuffix
  exact hbefore (List.mem_of_mem_take (hsuffix.subset hblank.mem))

theorem not_mem_target {c : UInt8} (p q : List UInt8) (hne : c ≠ 63)
    (h : ¬ (UrlCode.isSafe c = true ∨ c = 43 ∨ c = 37)) :
    c ∉ UrlCode.urlEncode p ++ 63 :: UrlCode.urlEncode q := by
  intro hc
  rcases List.mem_append.mp hc with hc | hc
  · exact UrlCode.not_mem_urlEncode p h hc
  · rcases List.mem_cons.mp hc with rfl | hc
    · exact hne rfl
    · exact UrlCode.not_mem_urlEncode q h hc

theorem not_mem_firstLine (p q : List UInt8) : 10 ∉ firstLine p q := by
  intro hc
  rcases List.mem_append.mp hc with hc | hc
  · rcases List.mem_append.mp hc with hc | hc
    · exact absurd hc (by decide)
    · rcases List.mem_cons.mp hc with hc | hc
      · exact absurd hc (by decide)
      · exact not_mem_target p q (by decide) (by decide) hc
  · exact absurd hc (by decide)

theorem headerInfo_eq (h : readHeader (firstLine p q ++ rest) {} = (true, info)) :
    (firstLine p q).length < 2147483648 ∧
      ∃ more, info.headerInfo = firstLine p q ++ more := by
  obtain ⟨n, hint, hends, hheader⟩ := of_readHeader h
  have hlt := hends.length_lt (not_mem_firstLine p q)
  refine ⟨Nat.lt_trans hlt hint, rest.take (n - (firstLine p q).length), ?_⟩
  rw [hheader, List.take_append, List.take_of_length_le (Nat.le_of_lt hlt)]

theorem parseHttpHeader_eq {target more : List UInt8}
    (hinfo : info.headerInfo = get ++ 32 :: (target ++ 32 :: more)) (htarget : 32 ∉ target) :
    parseHttpHeader info =
      (splitTarget { info with requestMethod := get } target).map (true, ·) := by
  have hfirst : find info.headerInfo 32 0 = some 3 := by
    have hget : 32 ∉ get := by decide
    rw [hinfo]
    exact find_eq List.drop_zero hget
  have hmethod : info.headerInfo.take 3 = get := by
    rw [hinfo]
    rfl
  have hdrop : info.headerInfo.drop 4 = target ++ 32 :: more := by
    rw [hinfo]
    rfl
  have hsecond : find info.headerInfo 32 4 = some (4 + target.length) :=
    find_eq hdrop htarget
  have hget : ¬ (get ≠ get && get ≠ post) = true := by decide
  simp only [parseHttpHeader, hfirst, hmethod, hsecond, hdrop, Nat.reduceAdd,
    Nat.add_sub_cancel_left, List.take_left]
  rw [if_neg hget]

theorem splitTarget_eq {target uri : List UInt8} (huri : UrlCode.urlDecode target = some uri)
    (h : find uri 63 0 = some n) :
    splitTarget info target =
      some { info with queryString := uri.drop (n + 1), uri := uri.take n } := by
  simp only [splitTarget, huri, h, Option.bind_eq_bind, Option.bind_some]

/-- The target comes apart at the first question mark of the text it is decoded to. -/
theorem exists_parsed (h : readHeader (firstLine p q ++ rest) {} = (true, info))
    (hfind : find (p ++ 63 :: q) 63 0 = some n) :
    ∃ info', parseHttpHeader info = some (true, info') ∧
      info'.uri = (p ++ 63 :: q).take n ∧ info'.queryString = (p ++ 63 :: q).drop (n + 1) := by
  obtain ⟨hlength, more, hheader⟩ := headerInfo_eq h
  have htarget : (UrlCode.urlEncode p ++ 63 :: UrlCode.urlEncode q).length < 2147483648 := by
    rw [firstLine, List.length_append, List.length_append, List.length_cons] at hlength
    omega
  have hinfo : info.headerInfo = get ++ 32 ::
      ((UrlCode.urlEncode p ++ 63 :: UrlCode.urlEncode q) ++
        32 :: ([72, 84, 84, 80, 47, 49, 46, 49] ++ more)) := by
    rw [hheader, firstLine, List.append_assoc, List.append_assoc, List.cons_append]
    rfl
  have hparse := parseHttpHeader_eq hinfo (not_mem_target p q (by decide) (by decide))
  rw [splitTarget_eq (UrlCode.urlDecode_target p q htarget) hfind, Option.map_some] at hparse
  exact ⟨_, hparse, rfl, rfl⟩

/-- A request is split as it was put together exactly when there is no question mark in its
path. -/
theorem splits_iff (h : readHeader (firstLine p q ++ rest) {} = (true, info)) :
    Splits info p q ↔ 63 ∉ p := by
  constructor
  · rintro ⟨info', hparse, huri, -⟩ hmem
    obtain ⟨n, hn, hfind⟩ := find_lt (b := 63 :: q) hmem
    obtain ⟨info'', hparse', huri', -⟩ := exists_parsed h hfind
    rw [hparse] at hparse'
    obtain rfl := (Prod.mk.inj (Option.some.inj hparse')).2
    have hlength := congrArg List.length (huri.symm.trans huri')
    rw [List.length_take] at hlength
    omega
  · intro hmem
    have hfind : find (p ++ 63 :: q) 63 0 = some (0 + p.length) := find_eq rfl hmem
    rw [Nat.zero_add] at hfind
    obtain ⟨info', hparse, huri, hquery⟩ := exists_parsed h hfind
    refine ⟨info', hparse, by rw [huri, List.take_left], ?_⟩
    rw [hquery, ← List.drop_drop, List.drop_left]
    rfl

/-- A path of two letters, with an empty line behind the first one. -/
theorem letters_splits :
    ∃ info, readHeader (firstLine [97, 98] [99] ++ [13, 10, 13, 10]) {} = (true, info) ∧
      Splits info [97, 98] [99] := by
  have hread : readHeader (firstLine [97, 98] [99] ++ [13, 10, 13, 10]) {} =
      (true, (readHeader (firstLine [97, 98] [99] ++ [13, 10, 13, 10]) {}).2) := by
    decide +kernel
  exact ⟨_, hread, (splits_iff hread).mpr (by decide)⟩

/-- The question mark that is the path is taken for the one behind it. -/
theorem mark_not_splits :
    ∃ info, readHeader (firstLine [63] [97] ++ [13, 10, 13, 10]) {} = (true, info) ∧
      ¬ Splits info [63] [97] := by
  have hread : readHeader (firstLine [63] [97] ++ [13, 10, 13, 10]) {} =
      (true, (readHeader (firstLine [63] [97] ++ [13, 10, 13, 10]) {}).2) := by
    decide +kernel
  refine ⟨_, hread, ?_⟩
  rintro ⟨info', hparse, huri, -⟩
  have hempty : (parseHttpHeader
      (readHeader (firstLine [63] [97] ++ [13, 10, 13, 10]) {}).2).map (·.2.uri) = some [] := by
    decide +kernel
  rw [hparse, Option.map_some, huri] at hempty
  cases hempty

end Target

end HttpParse

end CasualGame.Http
