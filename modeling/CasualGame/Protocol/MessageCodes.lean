import CasualGame.Lib.Text

/-!
The codes of the messages, which three runs of one script write down for C++, for the
gateway's XML and for the client's JSON.
-/

namespace CasualGame.Protocol.MessageCodes

open Lib.Text

abbrev Str := List Char

/-- An entry of a folder, as `os.listdir` has it. -/
structure Entry where
  fileName : Str
  isFile : Bool := true
  lines : List Str := []
  deriving DecidableEq

/-- What `str.strip()` strips. -/
def isSpace (c : Char) : Bool :=
  c = ' ' || c = '\t' || c = '\n' || c = '\r' || c = '\x0b' || c = '\x0c'

def stripSpace (s : Str) : Str := strip isSpace s

def stripChar (char : Char) (s : Str) : Str := strip (· = char) s

def delFront (s sub : Str) : Str := removePrefix sub s

def searchPacketKey : Str := "namespace ".toList

def searchMessageKey : Str := "extern const uint32_t".toList

section CodedefHpp

/-- The lines of a `.codedef.h`, as `codedef_hpp.py` writes them for the messages of a
`.proto`. -/
def codedefHpp (macroName fileName package : Str) (messages : List Str) : List Str :=
  ["#ifndef ".toList ++ macroName ++ "\n".toList, "#define ".toList ++ macroName ++ "\n".toList,
    "\n".toList, "#include <stdint.h>\n".toList,
    "#include \"".toList ++ fileName ++ ".pb.h\"\n".toList, "\n".toList,
    "namespace ".toList ++ package ++ "\n".toList, "\x7b\n".toList] ++
  messages.flatMap (fun name =>
    ["    extern const uint32_t code".toList ++ name ++ ";\n".toList,
      "    extern const ".toList ++ name ++ " temp".toList ++ name ++ ";\n".toList]) ++
  ["\x7d\n".toList, "\n".toList, "#endif".toList]

end CodedefHpp

section ProtobufCodedef

inductive Access
  | pub | priv
  deriving DecidableEq

/-- The `message_code` a run starts from. -/
def messageCode : Access → Nat
  | .pub => 0x00000000 ||| 0x00000000
  | .priv => 0x00000000 ||| 0x40000000

def exts : List Str := [".codedef.h".toList]

def filterFiles (folder : List Entry) : List Entry :=
  folder.filter fun entry => entry.isFile && exts.any fun ext => ext.isSuffixOf entry.fileName

def getMsgCodeName (searchLine : Str) : Str :=
  stripSpace (stripChar ';' (delFront searchLine "extern".toList))

def getFullMsgName (searchLine : Str) : Str :=
  stripSpace (stripChar ';' (delFront searchLine "extern const uint32_t code".toList))

def namespaceOf (line : Str) : Option Str :=
  let searchLine := stripSpace line
  if searchPacketKey.isPrefixOf searchLine then
    some (stripChar ';' (stripChar '\x7b' (delFront searchLine searchPacketKey)))
  else none

/-- The first namespace of the first file that has one. -/
def getNamespaceStr (files : List Entry) : Option Str :=
  files.findSome? fun file => file.lines.findSome? namespaceOf

def declares (line : Str) : Bool := searchMessageKey.isPrefixOf (stripSpace line)

/-- The loop that all runs share: over the files, over their lines, and what is written
for a declaration and its code. -/
def writeCodes {α : Type} (write : Str → Nat → α) (access : Access) (files : List Entry) :
    List α :=
  (files.foldl (fun acc file => file.lines.foldl (fun acc line =>
      if declares line then (acc.1 + 1, acc.2 ++ [write (stripSpace line) (acc.1 + 1)]) else acc)
    acc) (messageCode access, [])).2

/-- The constants of `codedef.*.cpp` and the namespace around them. The script breaks off
where there is no namespace. -/
def cppRun (access : Access) (folder : List Entry) : Option (Str × List (Str × Nat)) :=
  let files := filterFiles folder
  (getNamespaceStr files).map fun namespaceStr =>
    (namespaceStr, writeCodes (fun line code => (getMsgCodeName line, code)) access files)

/-- The items of `protobuf.codedef.xml`. Without a namespace the script breaks off at the
first of them. -/
def xmlRun (access : Access) (folder : List Entry) : Option (List (Nat × Str)) :=
  let files := filterFiles folder
  match getNamespaceStr files with
  | some namespaceStr =>
      some (writeCodes (fun line code =>
        (code, namespaceStr ++ ".".toList ++ getFullMsgName line)) access files)
  | none => if files.flatMap (fun file => file.lines.filter declares) = [] then some [] else none

/-- The lines of `protobuf.codedef.json`, where no namespace reads `None`. -/
def jsonRun (access : Access) (folder : List Entry) : List (Str × Nat) :=
  let files := filterFiles folder
  let namespaceStr := (getNamespaceStr files).getD "None".toList
  writeCodes (fun line code => (namespaceStr ++ ".".toList ++ getFullMsgName line, code)) access
    files

end ProtobufCodedef

section Agreement

/-- The name of a message as protobuf has it. -/
def fullName (namespaceStr name : Str) : Str := namespaceStr ++ ".".toList ++ name

def CppAssigns (access : Access) (folder : List Entry) (message : Str) (code : Nat) : Prop :=
  ∃ namespaceStr constants name, cppRun access folder = some (namespaceStr, constants) ∧
    message = fullName namespaceStr name ∧
      ("const uint32_t code".toList ++ name, code) ∈ constants

def XmlAssigns (access : Access) (folder : List Entry) (message : Str) (code : Nat) : Prop :=
  ∃ items, xmlRun access folder = some items ∧ (code, message) ∈ items

def JsonAssigns (access : Access) (folder : List Entry) (message : Str) (code : Nat) : Prop :=
  (message, code) ∈ jsonRun access folder

/-- The three runs, and the folder as each of them finds it. -/
inductive Run
  | cpp | xml | json

/-- A message has the same code in all tables, and no two messages have one. -/
structure CodesAgree (folder : Access → Run → List Entry) : Prop where
  xml : ∀ access message code, CppAssigns access (folder access .cpp) message code ↔
    XmlAssigns access (folder access .xml) message code
  json : ∀ access message code, CppAssigns access (folder access .cpp) message code ↔
    JsonAssigns access (folder access .json) message code
  distinct : ∀ access access' message message' code,
    CppAssigns access (folder access .cpp) message code →
      CppAssigns access' (folder access' .cpp) message' code →
        access = access' ∧ message = message'

def Identifier (name : Str) : Prop := name ≠ [] ∧ ∀ c ∈ name, c.isAlphanum ∨ c = '_'

/-- A `.codedef.h` has a namespace, and what it declares as codes are codes of messages. -/
structure WellFormed (file : Entry) : Prop where
  packet : file.lines.findSome? namespaceOf ≠ none
  message : ∀ line ∈ file.lines, declares line → ∃ name, Identifier name ∧
    stripSpace line = "extern const uint32_t code".toList ++ name ++ ";".toList

/-- The messages declared in the files of a folder, from the first to the last. -/
def messages (folder : List Entry) : List Str :=
  let files := filterFiles folder
  let namespaceStr := (getNamespaceStr files).getD "None".toList
  (files.flatMap fun file => file.lines.filter declares).map fun line =>
    fullName namespaceStr (getFullMsgName (stripSpace line))

end Agreement

section Names

variable {name line : Str} {c : Char}

theorem not_isSpace (hc : c.isAlphanum ∨ c = '_') : isSpace c = false := by
  simp only [isSpace, Bool.or_eq_false_iff, decide_eq_false_iff_not]
  refine ⟨⟨⟨⟨⟨?_, ?_⟩, ?_⟩, ?_⟩, ?_⟩, ?_⟩ <;> rintro rfl <;> revert hc <;> decide

theorem ne_semicolon (hc : c.isAlphanum ∨ c = '_') : decide (c = ';') = false := by
  rw [decide_eq_false_iff_not]
  rintro rfl
  revert hc
  decide

theorem Identifier.last (h : Identifier name) (pre : Str) {y : Char}
    (hy : y ∈ (pre ++ name).getLast?) : y.isAlphanum ∨ y = '_' := by
  rw [List.getLast?_append_of_ne_nil _ h.1] at hy
  exact h.2 y (List.mem_of_getLast? hy)

theorem Identifier.first (h : Identifier name) {y : Char} (hy : y ∈ name.head?) :
    y.isAlphanum ∨ y = '_' :=
  h.2 y (List.mem_of_head? hy)

theorem Identifier.exists_mem (h : Identifier name) (pre : Str) :
    ∃ y ∈ pre ++ name, decide (y = ';') = false := by
  obtain ⟨y, hy⟩ := List.exists_mem_of_ne_nil name h.1
  exact ⟨y, List.mem_append_right _ hy, ne_semicolon (h.2 y hy)⟩

theorem getFullMsgName_eq (h : Identifier name)
    (hline : line = "extern const uint32_t code".toList ++ name ++ ";".toList) :
    getFullMsgName line = name := by
  rw [getFullMsgName, delFront, hline, List.append_assoc, removePrefix_append, stripChar]
  have hstrip : strip (· = ';') (name ++ ";".toList) = name := by
    refine (strip_concat_of_pos (by decide) (h.exists_mem [])).trans ?_
    exact strip_eq_self (fun y hy => ne_semicolon (h.first hy)) fun y hy =>
      ne_semicolon (h.last [] hy)
  rw [hstrip]
  exact strip_eq_self (fun y hy => not_isSpace (h.first hy)) fun y hy => not_isSpace (h.last [] hy)

theorem getMsgCodeName_eq (h : Identifier name)
    (hline : line = "extern const uint32_t code".toList ++ name ++ ";".toList) :
    getMsgCodeName line = "const uint32_t code".toList ++ name := by
  have hsplit : line = "extern".toList ++ (" const uint32_t code".toList ++ name ++ [';']) := hline
  rw [getMsgCodeName, delFront, hsplit, removePrefix_append, stripChar]
  have hstrip : strip (· = ';') (" const uint32_t code".toList ++ name ++ [';']) =
      " const uint32_t code".toList ++ name := by
    refine (strip_concat_of_pos (by decide) (h.exists_mem _)).trans ?_
    refine strip_eq_self ?_ fun y hy => ne_semicolon (h.last _ hy)
    rintro y ⟨⟩
    decide
  rw [hstrip, stripSpace]
  refine (strip_cons_of_pos (by decide) ("const uint32_t code".toList ++ name)).trans ?_
  refine strip_eq_self ?_ fun y hy => not_isSpace (h.last _ hy)
  rintro y ⟨⟩
  decide

end Names

section Numbers

variable {access : Access} {folder : List Entry} {message : Str} {code : Nat}

def declarations (folder : List Entry) : List Str :=
  (filterFiles folder).flatMap fun file => file.lines.filter declares

theorem writeCodes_eq {α : Type} (write : Str → Nat → α) (access : Access) (folder : List Entry) :
    writeCodes write access (filterFiles folder) =
      ((declarations folder).zipIdx (messageCode access + 1)).map fun x =>
        write (stripSpace x.1) x.2 := by
  have hnumber := number_eq declares (fun line code => write (stripSpace line) code)
    (messageCode access) ((filterFiles folder).flatMap Entry.lines)
  rw [number, List.foldl_flatMap, List.filter_flatMap] at hnumber
  exact hnumber

theorem mem_writeCodes {α : Type} {write : Str → Nat → α} {item : α} :
    item ∈ writeCodes write access (filterFiles folder) ↔
      ∃ line code, (line, code) ∈ (declarations folder).zipIdx (messageCode access + 1) ∧
        write (stripSpace line) code = item := by
  rw [writeCodes_eq, List.mem_map]
  exact Prod.exists

theorem mem_messages_zipIdx {namespaceStr : Str} {n : Nat}
    (h : (getNamespaceStr (filterFiles folder)).getD "None".toList = namespaceStr) :
    (message, code) ∈ (messages folder).zipIdx n ↔
      ∃ line, (line, code) ∈ (declarations folder).zipIdx n ∧
        message = fullName namespaceStr (getFullMsgName (stripSpace line)) := by
  have hmessages : messages folder = (declarations folder).map fun line =>
      fullName namespaceStr (getFullMsgName (stripSpace line)) := by
    simp only [messages, h]
    rfl
  rw [hmessages, List.zipIdx_map, List.mem_map]
  constructor
  · rintro ⟨⟨line, code'⟩, hline, heq⟩
    obtain ⟨rfl, rfl⟩ := Prod.mk.inj heq
    exact ⟨line, hline, rfl⟩
  · rintro ⟨line, hline, rfl⟩
    exact ⟨(line, code), hline, rfl⟩

theorem jsonAssigns_iff : JsonAssigns access folder message code ↔
    (message, code) ∈ (messages folder).zipIdx (messageCode access + 1) := by
  rw [JsonAssigns, jsonRun, mem_writeCodes, mem_messages_zipIdx rfl]
  constructor
  · rintro ⟨line, code', hline, heq⟩
    obtain ⟨rfl, rfl⟩ := Prod.mk.inj heq
    exact ⟨line, hline, rfl⟩
  · rintro ⟨line, hline, rfl⟩
    exact ⟨line, code, hline, rfl⟩

theorem xmlAssigns_iff_of_namespace {namespaceStr : Str}
    (h : getNamespaceStr (filterFiles folder) = some namespaceStr) :
    XmlAssigns access folder message code ↔
      (message, code) ∈ (messages folder).zipIdx (messageCode access + 1) := by
  have hitems : XmlAssigns access folder message code ↔ (code, message) ∈
      writeCodes (fun line code => (code, namespaceStr ++ ".".toList ++ getFullMsgName line))
        access (filterFiles folder) := by
    simp only [XmlAssigns, xmlRun, h, Option.some.injEq, exists_eq_left']
  rw [hitems, mem_writeCodes, mem_messages_zipIdx (congrArg (Option.getD · _) h)]
  constructor
  · rintro ⟨line, code', hline, heq⟩
    obtain ⟨rfl, rfl⟩ := Prod.mk.inj heq
    exact ⟨line, hline, rfl⟩
  · rintro ⟨line, hline, rfl⟩
    exact ⟨line, code, hline, rfl⟩

variable (hwf : ∀ file ∈ filterFiles folder, WellFormed file)

include hwf

theorem exists_name {line : Str} (hline : line ∈ declarations folder) :
    ∃ name, Identifier name ∧ stripSpace line = "extern const uint32_t code".toList ++ name ++
      ";".toList := by
  obtain ⟨file, hfile, hmem⟩ := List.mem_flatMap.mp hline
  obtain ⟨hin, hdeclares⟩ := List.mem_filter.mp hmem
  exact (hwf file hfile).message line hin hdeclares

theorem declarations_of_no_namespace (h : getNamespaceStr (filterFiles folder) = none) :
    declarations folder = [] := by
  rw [declarations, List.flatMap_eq_nil_iff]
  intro file hfile
  rw [getNamespaceStr, List.findSome?_eq_none_iff] at h
  exact absurd (h file hfile) (hwf file hfile).packet

theorem cppAssigns_iff : CppAssigns access folder message code ↔
    (message, code) ∈ (messages folder).zipIdx (messageCode access + 1) := by
  rw [mem_messages_zipIdx rfl]
  cases h : getNamespaceStr (filterFiles folder) with
  | none =>
      rw [declarations_of_no_namespace hwf h]
      simp [CppAssigns, cppRun, h]
  | some namespaceStr =>
      simp only [CppAssigns, cppRun, h, Option.map_some, Option.some.injEq, Prod.mk.injEq,
        Option.getD_some]
      constructor
      · rintro ⟨_, _, name, ⟨rfl, rfl⟩, rfl, hmem⟩
        obtain ⟨line, code', hline, heq⟩ := mem_writeCodes.mp hmem
        obtain ⟨hname, rfl⟩ := Prod.mk.inj heq
        obtain ⟨name', hid, hstrip⟩ := exists_name hwf (List.fst_mem_of_mem_zipIdx hline)
        rw [getMsgCodeName_eq hid hstrip] at hname
        refine ⟨line, hline, ?_⟩
        rw [getFullMsgName_eq hid hstrip, List.append_cancel_left hname]
      · rintro ⟨line, hline, rfl⟩
        obtain ⟨name, hid, hstrip⟩ := exists_name hwf (List.fst_mem_of_mem_zipIdx hline)
        refine ⟨_, _, name, ⟨rfl, rfl⟩, ?_, mem_writeCodes.mpr ⟨line, code, hline, ?_⟩⟩
        · rw [getFullMsgName_eq hid hstrip]
        · rw [getMsgCodeName_eq hid hstrip]

theorem xmlAssigns_iff : XmlAssigns access folder message code ↔
    (message, code) ∈ (messages folder).zipIdx (messageCode access + 1) := by
  cases h : getNamespaceStr (filterFiles folder) with
  | some namespaceStr => exact xmlAssigns_iff_of_namespace h
  | none =>
      have hnone := declarations_of_no_namespace hwf h
      rw [mem_messages_zipIdx rfl, hnone]
      rw [declarations] at hnone
      simp [XmlAssigns, xmlRun, h, hnone]

end Numbers

section Tables

variable {folder : Access → Run → List Entry}

/-- The runs come by the same messages in the same order. -/
def InStep (folder : Access → Run → List Entry) : Prop :=
  ∀ access, messages (folder access .xml) = messages (folder access .cpp) ∧
    messages (folder access .json) = messages (folder access .cpp)

/-- The public messages leave the codes of the private ones alone. -/
def Apart (folder : Access → Run → List Entry) : Prop :=
  (messages (folder .pub .cpp)).length ≤ 0x40000000 ∨ messages (folder .priv .cpp) = []

theorem apart_iff {publics privates : List Str} :
    (publics.length ≤ 0x40000000 ∨ privates = []) ↔
      ∀ m m' code, (m, code) ∈ publics.zipIdx (messageCode .pub + 1) →
        (m', code) ∈ privates.zipIdx (messageCode .priv + 1) → False := by
  have hpub : messageCode .pub = 0 := rfl
  have hpriv : messageCode .priv = 0x40000000 := rfl
  simp only [mem_zipIdx_iff, hpub, hpriv]
  constructor
  · rintro hapart m m' code ⟨i, hi, rfl⟩ ⟨j, hj, heq⟩
    have hilt := (List.getElem?_eq_some_iff.mp hi).1
    rcases hapart with hle | rfl
    · omega
    · cases hj
  · intro hno
    by_contra hnot
    rw [not_or, Nat.not_le] at hnot
    obtain ⟨hlt, hne⟩ := hnot
    obtain ⟨m', privates, rfl⟩ := List.exists_cons_of_ne_nil hne
    exact hno _ m' _ ⟨0x40000000, List.getElem?_eq_getElem hlt, rfl⟩ ⟨0, rfl, by omega⟩

/-- The codes agree exactly when every run comes by the same messages in the same order, and
there are not more public messages than there are codes for them. -/
theorem codesAgree_iff
    (hwf : ∀ access run, ∀ file ∈ filterFiles (folder access run), WellFormed file) :
    CodesAgree folder ↔ InStep folder ∧ Apart folder := by
  have hcpp : ∀ access m k, CppAssigns access (folder access .cpp) m k ↔
      (m, k) ∈ (messages (folder access .cpp)).zipIdx (messageCode access + 1) :=
    fun access _ _ => cppAssigns_iff (hwf access .cpp)
  have hxml : ∀ access m k, XmlAssigns access (folder access .xml) m k ↔
      (m, k) ∈ (messages (folder access .xml)).zipIdx (messageCode access + 1) :=
    fun access _ _ => xmlAssigns_iff (hwf access .xml)
  constructor
  · rintro ⟨hxmlAgrees, hjsonAgrees, hdistinct⟩
    refine ⟨fun access => ⟨(zipIdx_ext (n := messageCode access + 1)).mp fun m k => ?_,
      (zipIdx_ext (n := messageCode access + 1)).mp fun m k => ?_⟩, ?_⟩
    · rw [← hxml, ← hcpp]
      exact (hxmlAgrees access m k).symm
    · rw [← jsonAssigns_iff, ← hcpp]
      exact (hjsonAgrees access m k).symm
    · rw [Apart, apart_iff]
      intro m m' code hpub hpriv
      have hsame := hdistinct .pub .priv m m' code ((hcpp ..).mpr hpub) ((hcpp ..).mpr hpriv)
      cases hsame.1
  · rintro ⟨hinStep, hapart⟩
    refine ⟨fun access m k => ?_, fun access m k => ?_, fun access access' m m' code h h' => ?_⟩
    · rw [hcpp, hxml, (hinStep access).1]
    · rw [hcpp, jsonAssigns_iff, (hinStep access).2]
    · rw [hcpp] at h h'
      rw [Apart, apart_iff] at hapart
      have hsame : ∀ access, (m, code) ∈ (messages (folder access .cpp)).zipIdx
          (messageCode access + 1) → (m', code) ∈ (messages (folder access .cpp)).zipIdx
            (messageCode access + 1) → m = m' := by
        intro access hm hm'
        obtain ⟨i, hi, rfl⟩ := mem_zipIdx_iff.mp hm
        obtain ⟨j, hj, heq⟩ := mem_zipIdx_iff.mp hm'
        rw [← Nat.add_left_cancel heq, hi] at hj
        exact Option.some.inj hj
      cases access <;> cases access'
      · exact ⟨rfl, hsame _ h h'⟩
      · exact (hapart m m' code h h').elim
      · exact (hapart m' m code h' h).elim
      · exact ⟨rfl, hsame _ h h'⟩

end Tables

section Generated

variable {macroName fileName package name : Str} {names : List Str}

theorem filterFiles_generated (folder : List Entry) (lines : List Str) {generated : Str}
    (h : generated ∈ ["codedef.public.cpp".toList, "codedef.private.cpp".toList,
      "protobuf.codedef.xml".toList, "protobuf.codedef.json".toList]) :
    filterFiles (⟨generated, true, lines⟩ :: folder) = filterFiles folder := by
  have hexts : (exts.any fun ext => ext.isSuffixOf generated) = false := by
    simp only [List.mem_cons, List.not_mem_nil, or_false] at h
    rcases h with rfl | rfl | rfl | rfl <;> decide
  exact List.filter_cons_of_neg (by simp [hexts])

theorem not_declares_of_head {c : Char} (hspace : isSpace c = false) (hc : c ≠ 'e') (line : Str) :
    declares (c :: line) = false := by
  obtain ⟨t, ht⟩ := strip_cons_of_neg hspace line
  rw [declares, stripSpace, ht]
  exact Bool.and_eq_false_imp.mpr fun heq => absurd (beq_iff_eq.mp heq).symm hc

theorem stripSpace_indented {text : Str} (hhead : text.head?.any (! isSpace ·) = true)
    (hlast : ∀ y ∈ text.getLast?, isSpace y = false) :
    stripSpace ("    ".toList ++ text ++ "\n".toList) = text := by
  obtain ⟨c, hc, hspace⟩ : ∃ c, text.head? = some c ∧ isSpace c = false := by
    cases text with
    | nil => cases hhead
    | cons c text => exact ⟨c, rfl, by simpa using hhead⟩
  have hline : "    ".toList ++ text ++ "\n".toList =
      ' ' :: ' ' :: ' ' :: ' ' :: (text ++ ['\n']) := by
    simp
  rw [hline, stripSpace]
  simp only [strip_cons_of_pos (show isSpace ' ' = true from rfl)]
  rw [strip_concat_of_pos rfl ⟨c, List.mem_of_head? hc, hspace⟩]
  refine strip_eq_self (fun y hy => ?_) hlast
  rw [hc, Option.mem_some_iff] at hy
  rwa [← hy]

theorem stripSpace_code (name : Str) :
    stripSpace ("    extern const uint32_t code".toList ++ name ++ ";\n".toList) =
      "extern const uint32_t code".toList ++ name ++ ";".toList := by
  have hline : "    extern const uint32_t code".toList ++ name ++ ";\n".toList =
      "    ".toList ++ ("extern const uint32_t code".toList ++ name ++ ";".toList) ++
        "\n".toList := by
    simp
  rw [hline]
  refine stripSpace_indented rfl fun y hy => ?_
  have hlast : y ∈ (("extern const uint32_t code".toList ++ name) ++ [';']).getLast? := hy
  rw [List.getLast?_concat, Option.mem_some_iff] at hlast
  subst hlast
  rfl

theorem not_declares_object (hname : ¬ "uint32_t".toList <+: name) :
    declares ("    extern const ".toList ++ name ++ " temp".toList ++ name ++ ";\n".toList) =
      false := by
  have hline : "    extern const ".toList ++ name ++ " temp".toList ++ name ++ ";\n".toList =
      "    ".toList ++ ("extern const ".toList ++ name ++ " temp".toList ++ name ++ ";".toList) ++
        "\n".toList := by
    simp
  have hstrip : stripSpace ("    ".toList ++ ("extern const ".toList ++ name ++ " temp".toList ++
      name ++ ";".toList) ++ "\n".toList) =
        "extern const ".toList ++ (name ++ (' ' :: "temp".toList ++ name ++ ";".toList)) := by
    refine (stripSpace_indented rfl fun y hy => ?_).trans (by simp only [List.append_assoc]; rfl)
    have hlast : y ∈
        (("extern const ".toList ++ name ++ " temp".toList ++ name) ++ [';']).getLast? := hy
    rw [List.getLast?_concat, Option.mem_some_iff] at hlast
    subst hlast
    rfl
  have hkey : searchMessageKey = "extern const ".toList ++ "uint32_t".toList := rfl
  rw [declares, hline, hstrip, hkey, Bool.eq_false_iff, Ne, List.isPrefixOf_iff_prefix,
    List.prefix_append_right_inj]
  intro hprefix
  rcases Nat.lt_or_ge name.length 8 with hlt | hge
  · -- the blank after the name would be a letter of the type
    have hblank : name ++ [' '] <+: name ++ (' ' :: "temp".toList ++ name ++ ";".toList) :=
      ⟨"temp".toList ++ name ++ ";".toList, by simp⟩
    have hin := List.prefix_of_prefix_length_le hblank hprefix (by
      rw [List.length_append, List.length_singleton]
      exact hlt)
    have hmem : ' ' ∈ "uint32_t".toList := hin.subset (by simp)
    revert hmem
    decide
  · exact hname (List.prefix_of_prefix_length_le hprefix (List.prefix_append _ _) hge)

/-- The files that `codedef_hpp.py` writes are well formed, but for messages named as if they
were codes. -/
theorem wellFormed_codedefHpp (hpackage : Identifier package) (hnames : ∀ name ∈ names,
    Identifier name ∧ ¬ "uint32_t".toList <+: name) (entryName : Str) :
    WellFormed ⟨entryName, true, codedefHpp macroName fileName package names⟩ := by
  constructor
  · rw [Ne, List.findSome?_eq_none_iff]
    intro hnone
    have hline := hnone ("namespace ".toList ++ package ++ "\n".toList) (by simp [codedefHpp])
    have hstrip : stripSpace ("namespace ".toList ++ package ++ "\n".toList) =
        "namespace ".toList ++ package := by
      have hn : isSpace 'n' = false := by decide
      have hmem : 'n' ∈ "namespace ".toList ++ package := List.mem_append_left _ (by decide)
      refine (strip_concat_of_pos (x := '\n') rfl ⟨'n', hmem, hn⟩).trans ?_
      refine strip_eq_self ?_ fun y hy => not_isSpace (hpackage.last _ hy)
      rintro y ⟨⟩
      exact hn
    have hprefix : searchPacketKey.isPrefixOf ("namespace ".toList ++ package) = true :=
      List.isPrefixOf_iff_prefix.mpr (List.prefix_append _ _)
    rw [namespaceOf, hstrip, if_pos hprefix] at hline
    cases hline
  · intro line hline hdeclares
    simp only [codedefHpp, List.mem_append, List.mem_cons, List.not_mem_nil, or_false,
      List.mem_flatMap] at hline
    have hother : ∀ {c : Char} {line : Str}, isSpace c = false → c ≠ 'e' →
        ¬ declares (c :: line) = true :=
      fun hspace hc => Bool.eq_false_iff.mp (not_declares_of_head hspace hc _)
    rcases hline with (hhead | ⟨name, hname, rfl | rfl⟩) | htail
    · rcases hhead with rfl | rfl | rfl | rfl | rfl | rfl | rfl | rfl
      · exact absurd hdeclares (hother rfl (by decide))
      · exact absurd hdeclares (hother rfl (by decide))
      · exact absurd hdeclares (by decide)
      · exact absurd hdeclares (hother rfl (by decide))
      · exact absurd hdeclares (hother rfl (by decide))
      · exact absurd hdeclares (by decide)
      · exact absurd hdeclares (hother rfl (by decide))
      · exact absurd hdeclares (by decide)
    · exact ⟨name, (hnames name hname).1, stripSpace_code name⟩
    · rw [not_declares_object (hnames name hname).2] at hdeclares
      cases hdeclares
    · rcases htail with rfl | rfl | rfl <;> exact absurd hdeclares (by decide)

end Generated

section Orders

instance (name : Str) : Decidable (Identifier name) :=
  decidable_of_iff (name ≠ [] ∧ name.all (fun c => c.isAlphanum || c = '_') = true)
    (by simp [Identifier])

def gmCodedef : Entry :=
  ⟨"gm.codedef.h".toList, true, codedefHpp "PROTOCOL_PROTOBUF_PRIVATE_CODE_GM_HPP".toList
    "gm".toList "PrivateProto".toList ["Ping".toList, "Pong".toList]⟩

def loginCodedef : Entry :=
  ⟨"login.codedef.h".toList, true, codedefHpp "PROTOCOL_PROTOBUF_PRIVATE_CODE_LOGIN_HPP".toList
    "login".toList "PrivateProto".toList
    ["LoginQuest".toList, "RetLoginQuest".toList, "ClientBeReplaced".toList]⟩

theorem wellFormed_gmCodedef : WellFormed gmCodedef :=
  wellFormed_codedefHpp (by decide) (by decide) _

theorem wellFormed_loginCodedef : WellFormed loginCodedef :=
  wellFormed_codedefHpp (by decide) (by decide) _

theorem filterFiles_privates :
    filterFiles [gmCodedef, loginCodedef] = [gmCodedef, loginCodedef] := by
  decide +kernel

theorem filterFiles_privates_swapped :
    filterFiles [loginCodedef, gmCodedef] = [loginCodedef, gmCodedef] := by
  decide +kernel

/-- All runs find the folder in one order. -/
theorem codesAgree_iff_sameOrder :
    CodesAgree (fun _ _ => [gmCodedef, loginCodedef]) ↔
      InStep (fun _ _ => [gmCodedef, loginCodedef]) ∧
        Apart (fun _ _ => [gmCodedef, loginCodedef]) := by
  refine codesAgree_iff fun access run file hfile => ?_
  rw [filterFiles_privates] at hfile
  rcases List.mem_pair.mp hfile with rfl | rfl
  · exact wellFormed_gmCodedef
  · exact wellFormed_loginCodedef

/-- The folder of the private messages, as the run for C++ and the run for XML find it. -/
def swapped : Access → Run → List Entry
  | .pub, _ => []
  | .priv, .xml => [loginCodedef, gmCodedef]
  | .priv, .cpp | .priv, .json => [gmCodedef, loginCodedef]

/-- What is a `Ping` in C++ is a `LoginQuest` in the XML. -/
theorem orders_differ :
    ¬ ∀ (files : Access → List Entry) (folder : Access → Run → List Entry),
      (∀ access, ∀ file ∈ files access, WellFormed file) →
        (∀ access run, (filterFiles (folder access run)).Perm (files access)) →
          CodesAgree folder := by
  intro hall
  have hfiles : ∀ access, ∀ file ∈ swapped access .cpp, WellFormed file := by
    intro access file hfile
    cases access with
    | pub => cases hfile
    | priv =>
        rcases List.mem_pair.mp hfile with rfl | rfl
        · exact wellFormed_gmCodedef
        · exact wellFormed_loginCodedef
  have hperm : ∀ access run, (filterFiles (swapped access run)).Perm (swapped access .cpp) := by
    intro access run
    cases access with
    | pub => exact List.Perm.refl _
    | priv =>
        cases run with
        | xml => exact (List.Perm.of_eq filterFiles_privates_swapped).trans (List.Perm.swap ..)
        | cpp | json => exact List.Perm.of_eq filterFiles_privates
  have hagree := hall _ swapped hfiles hperm
  have hwf : ∀ run, ∀ file ∈ filterFiles (swapped .priv run), WellFormed file :=
    fun run file hfile => hfiles .priv file ((hperm .priv run).subset hfile)
  have hping := hagree.xml .priv "PrivateProto.Ping".toList 0x40000001
  rw [cppAssigns_iff (hwf .cpp), xmlAssigns_iff (hwf .xml)] at hping
  revert hping
  decide +kernel

end Orders

end CasualGame.Protocol.MessageCodes
