import CasualGame.Base.ProcessId
import CasualGame.Lib.Run
import CasualGame.Net.Endpoint

/-!
What a process takes from `process.xml`: its own id, where it listens, and to whom it connects.
-/

namespace CasualGame.Base

open Componet Lib.Run
open Net (EndpointError)
open Relay (ProcessId)

section Code

/-- `ProcessId::s_type2Name` and `ProcessId::s_name2Type`. The first name is `none`. -/
structure ProcessTypes where
  type2Name : List (List UInt8) := [[110, 111, 110, 101]]
  name2Type : List UInt8 → Option UInt32 := fun _ => none

namespace ProcessTypes

variable (types : ProcessTypes)

def add (name : List UInt8) : ProcessTypes where
  type2Name := types.type2Name ++ [name]
  name2Type := Function.update types.name2Type name (some (.ofNat types.type2Name.length))

/-- The names are separated by blanks. -/
def ofAllType (allType : List UInt8) : ProcessTypes := (splitString allType [32]).foldl add {}

def stringToType (str : List UInt8) : UInt32 := (types.name2Type str).getD 0

/-- `ProcessId(typeStr, num)` -/
def processId (typeStr : List UInt8) (num : Int8) : ProcessId :=
  let type := types.stringToType typeStr
  if type = 0 then ⟨0, 0⟩ else ⟨type, .ofInt num.toInt⟩

end ProcessTypes

structure PrivateNode where
  listen : List UInt8
  connectTo : List UInt8

/-- A `process` element. An attribute that is not there is empty. -/
structure ProcessNode where
  num : Int32
  privateNode : Option PrivateNode
  publicListen : Option (List UInt8) := none
  flashSandboxListen : Option (List UInt8) := none
  httpListen : Option (List UInt8) := none

structure ProcessTypeNode where
  name : List UInt8
  processes : List ProcessNode

structure AllProcesses where
  allType : List UInt8
  processTypes : List ProcessTypeNode

/-- The root element. -/
structure ConfigRoot where
  allProcesses : Option AllProcesses

inductive LoadError
  | rootNodeFailed
  | allProcessesNotExisit
  | typeNotExisit (name : List UInt8)
  | privateNotExisit (processId : ProcessId)
  | processNotExisit (processName : List UInt8) (processNum : UInt16)
  | privateLacking (processId : ProcessId)
  | connectToFailed (processId : ProcessId)
  | endpoint (error : EndpointError)
  deriving DecidableEq

/-- Sets are lists without repetitions. -/
structure LoadedInfo where
  processId : ProcessId
  privateListen : Option Net.Endpoint
  connect : List Net.Endpoint
  publicListen : List Net.Endpoint
  flashSandboxListen : List Net.Endpoint
  httpListen : List Net.Endpoint
  deriving DecidableEq

/-- The constructor takes an `int16_t`. -/
structure ProcessConfig where
  processName : List UInt8
  processNum : UInt16

/-- What the loops over the elements have found. `m_processIdPrivateListenEps` compares ids by
their values. -/
structure Loading where
  privateListenEps : UInt32 → Option Net.Endpoint := fun _ => none
  thisProcess : Option ProcessNode := none
  processId : ProcessId := ⟨0, 0⟩
  privateListen : Option Net.Endpoint := none

def endpointOf (str : List UInt8) : Except LoadError Net.Endpoint :=
  (Net.Endpoint.fromString str).mapError .endpoint

/-- An endpoint that is empty is none. -/
def readListen (str : List UInt8) : Except LoadError (Option Net.Endpoint) :=
  if str = [] then .ok none else (endpointOf str).map some

def Loading.addListen (s : Loading) (processId : ProcessId) (privateListen : Option Net.Endpoint) :
    Loading :=
  match privateListen with
  | none => s
  | some ep =>
      { s with
        privateListenEps := Function.update s.privateListenEps processId.value (some ep) }

/-- A set of ids has one for each value. -/
def insertId (ids : List ProcessId) (id : ProcessId) : List ProcessId :=
  if ids.any fun other => other.value == id.value then ids else ids ++ [id]

/-- The numbers are separated by commas. -/
def insertNums (ids : List ProcessId) (type : UInt32) (str : List UInt8) : List ProcessId :=
  ((splitString str [44]).map (extract .int16)).foldl
    (fun ids num => insertId ids ⟨type, .ofInt num⟩) ids

/-- One turn of the loop in `parseProcessList`. With a zone in front, an unknown type is
passed over. -/
def parseProcessItem (types : ProcessTypes) (ids : List ProcessId) (item : List UInt8) :
    Option (List ProcessId) :=
  match splitString item [58] with
  | [name, nums] =>
      let type := types.stringToType name
      if type = 0 then none else some (insertNums ids type nums)
  | [_, name, nums] =>
      let type := types.stringToType name
      if type = 0 then some ids else some (insertNums ids type nums)
  | _ => none

def parseProcessList (types : ProcessTypes) (str : List UInt8) : Option (List ProcessId) :=
  (splitString str [32]).foldlM (parseProcessItem types) []

def insertEndpoint (eps : List Net.Endpoint) (ep : Net.Endpoint) : List Net.Endpoint :=
  if eps.any fun other => Net.Endpoint.equals other ep then eps else eps ++ [ep]

def parsePrivateEndpoint (types : ProcessTypes) (privateListenEps : UInt32 → Option Net.Endpoint)
    (str : List UInt8) : Option (List Net.Endpoint) := do
  let processIds ← parseProcessList types str
  processIds.foldlM (fun eps id => (privateListenEps id.value).map (insertEndpoint eps)) []

def parseEndpointList (str : List UInt8) : Except LoadError (List Net.Endpoint) :=
  (splitString str [32]).foldlM (fun eps str => (endpointOf str).map (insertEndpoint eps)) []

def parseListen (listen : Option (List UInt8)) : Except LoadError (List Net.Endpoint) :=
  match listen with
  | none => .ok []
  | some str => parseEndpointList str

namespace ProcessConfig

variable (c : ProcessConfig) (types : ProcessTypes)

def isSelf (name : List UInt8) (num : Int32) : Bool :=
  name == c.processName && num.toInt == c.processNum.toNat

/-- The inner loop, for a type of this name. -/
def readProcess (name : List UInt8) (s : Loading) (node : ProcessNode) :
    Except LoadError Loading :=
  let processId := types.processId name node.num.toInt8
  match node.privateNode with
  | none => .error (.privateNotExisit processId)
  | some privateNode => do
      let privateListen ← readListen privateNode.listen
      let s := s.addListen processId privateListen
      if c.isSelf name node.num then
        .ok { s with
          processId := ⟨types.stringToType name, c.processNum.toUInt32⟩
          thisProcess := some node
          privateListen }
      else .ok s

def readProcessType (s : Loading) (node : ProcessTypeNode) : Except LoadError Loading :=
  if types.stringToType node.name = 0 then .error (.typeNotExisit node.name)
  else node.processes.foldlM (c.readProcess types node.name) s

/-- What is read of the element of the process itself. -/
def readThis (s : Loading) : Except LoadError LoadedInfo := do
  match s.thisProcess with
  | none => .error (.processNotExisit c.processName c.processNum)
  | some node =>
      match node.privateNode with
      | none => .error (.privateLacking s.processId)
      | some privateNode =>
          match parsePrivateEndpoint types s.privateListenEps privateNode.connectTo with
          | none => .error (.connectToFailed s.processId)
          | some connect =>
              let publicListen ← parseListen node.publicListen
              let flashSandboxListen ← parseListen node.flashSandboxListen
              let httpListen ← parseListen node.httpListen
              .ok { processId := s.processId, privateListen := s.privateListen, connect,
                    publicListen, flashSandboxListen, httpListen }

/-- The root is not there when the file cannot be parsed. The process has loaded nothing yet. -/
def load (root : Option ConfigRoot) : Except LoadError LoadedInfo := do
  match root with
  | none => .error .rootNodeFailed
  | some { allProcesses := none } => .error .allProcessesNotExisit
  | some { allProcesses := some doc } =>
      let types := ProcessTypes.ofAllType doc.allType
      let s ← doc.processTypes.foldlM (c.readProcessType types) {}
      c.readThis types s

end ProcessConfig

end Code

/-- All `process` elements, with the names of their types. -/
def AllProcesses.processes (doc : AllProcesses) : List (List UInt8 × ProcessNode) :=
  doc.processTypes.flatMap fun node => node.processes.map fun process => (node.name, process)

/-- The key of an element in `m_processIdPrivateListenEps`. -/
def ProcessTypes.keyOf (types : ProcessTypes) (x : List UInt8 × ProcessNode) : UInt32 :=
  (types.processId x.1 x.2.num.toInt8).value

/-- Where the process of an element listens, when it does. -/
def listenOf (x : List UInt8 × ProcessNode) : Option Net.Endpoint := do
  let privateNode ← x.2.privateNode
  let listen ← (readListen privateNode.listen).toOption
  listen

section Types

variable {types : ProcessTypes} {name name' : List UInt8}

/-- The type of a name is a place at which the name stands. -/
def ProcessTypes.Sound (types : ProcessTypes) : Prop :=
  0 < types.type2Name.length ∧ ∀ name type, types.name2Type name = some type →
    0 < type.toNat ∧ types.type2Name[type.toNat]? = some name

theorem ProcessTypes.Sound.add (h : types.Sound) (name : List UInt8)
    (hlength : types.type2Name.length < 2 ^ 32) : (types.add name).Sound := by
  refine ⟨by simp [ProcessTypes.add], fun name' type htype => ?_⟩
  change Function.update types.name2Type name _ name' = some type at htype
  change _ ∧ (types.type2Name ++ [name])[type.toNat]? = some name'
  rcases eq_or_ne name' name with rfl | hne
  · rw [Function.update_self] at htype
    obtain rfl := Option.some.inj htype
    rw [UInt32.toNat_ofNat_of_lt' hlength]
    exact ⟨h.1, List.getElem?_concat_length⟩
  · rw [Function.update_of_ne hne] at htype
    obtain ⟨hpos, hget⟩ := h.2 name' type htype
    refine ⟨hpos, ?_⟩
    rw [List.getElem?_append_left (List.getElem?_eq_some_iff.mp hget).1]
    exact hget

theorem ProcessTypes.Sound.foldl (h : types.Sound) (names : List (List UInt8))
    (hlength : types.type2Name.length + names.length ≤ 2 ^ 32) :
    (names.foldl ProcessTypes.add types).Sound ∧
      (names.foldl ProcessTypes.add types).type2Name.length =
        types.type2Name.length + names.length := by
  induction names generalizing types with
  | nil => exact ⟨h, rfl⟩
  | cons name names ih =>
      rw [List.length_cons] at hlength
      have hadd : (types.add name).type2Name.length = types.type2Name.length + 1 := by
        simp [ProcessTypes.add]
      obtain ⟨hsound, heq⟩ := ih (h.add name (by omega)) (by omega)
      refine ⟨hsound, heq.trans ?_⟩
      rw [hadd, List.length_cons]
      omega

theorem name2Type_eq_some (h : types.stringToType name ≠ 0) :
    types.name2Type name =
      some (types.stringToType name) := by
  unfold ProcessTypes.stringToType at h ⊢
  cases htype : types.name2Type name with
  | none =>
      rw [htype] at h
      exact absurd rfl h
  | some type => rfl

/-- There are fewer names than 24 bits can tell apart. -/
def FewTypes (doc : AllProcesses) : Prop := (splitString doc.allType [32]).length < 2 ^ 24

variable {doc : AllProcesses} (hfew : FewTypes doc)

include hfew

theorem ofAllType_sound : (ProcessTypes.ofAllType doc.allType).Sound ∧
    (ProcessTypes.ofAllType doc.allType).type2Name.length ≤ 2 ^ 24 := by
  have hinit : ProcessTypes.Sound {} := ⟨by decide, by rintro _ _ ⟨⟩⟩
  obtain ⟨hsound, hlength⟩ := hinit.foldl (splitString doc.allType [32]) (by
    have hlt := hfew
    unfold FewTypes at hlt
    simp only [List.length_singleton]
    omega)
  refine ⟨hsound, ?_⟩
  rw [ProcessTypes.ofAllType, hlength]
  unfold FewTypes at hfew
  simp only [List.length_singleton]
  omega

theorem stringToType_lt (h : (ProcessTypes.ofAllType doc.allType).stringToType name ≠ 0) :
    ((ProcessTypes.ofAllType doc.allType).stringToType name).toNat < 2 ^ 24 := by
  obtain ⟨hsound, hlength⟩ := ofAllType_sound hfew
  obtain ⟨-, hget⟩ := hsound.2 name _ (name2Type_eq_some h)
  exact (List.getElem?_eq_some_iff.mp hget).1.trans_le hlength

theorem stringToType_injective
    (h : (ProcessTypes.ofAllType doc.allType).stringToType name ≠ 0)
    (heq : (ProcessTypes.ofAllType doc.allType).stringToType name =
      (ProcessTypes.ofAllType doc.allType).stringToType name') : name = name' := by
  obtain ⟨hsound, -⟩ := ofAllType_sound hfew
  have hname := (hsound.2 name _ (name2Type_eq_some h)).2
  have hname' := (hsound.2 name' _ (name2Type_eq_some (heq ▸ h))).2
  rw [← heq, hname] at hname'
  exact Option.some.inj hname'

end Types

section Values

theorem value_toNat {pid : ProcessId} (htype : pid.type.toNat < 2 ^ 24)
    (hnum : pid.num.toNat < 256) :
    pid.value.toNat = pid.type.toNat * 256 + pid.num.toNat := by
  rw [ProcessId.value, UInt32.toNat_or, UInt32.toNat_shiftLeft]
  change pid.type.toNat <<< 8 % 2 ^ 32 ||| pid.num.toNat = _
  rw [Nat.shiftLeft_eq, Nat.mod_eq_of_lt (by omega), ← Nat.shiftLeft_eq,
    ← Nat.shiftLeft_add_eq_or_of_lt hnum, Nat.shiftLeft_eq]

theorem ofInt_toNat (n : Int) : (UInt32.ofInt n).toNat = (n % 2 ^ 32).toNat := by
  rw [UInt32.ofInt, UInt32.toNat_ofNat_of_lt']
  change _ < 2 ^ 32
  omega

theorem num_toNat {n : Int32} (hpos : 0 ≤ n.toInt) (hle : n.toInt ≤ 127) :
    (UInt32.ofInt n.toInt8.toInt).toNat = n.toInt.toNat := by
  rw [ofInt_toNat, Int32.toInt_toInt8, Int.bmod_def]
  omega

variable {doc : AllProcesses} {types : ProcessTypes} {x y : List UInt8 × ProcessNode}

theorem processId_of_known (h : types.stringToType x.1 ≠ 0) (num : Int8) :
    types.processId x.1 num = ⟨types.stringToType x.1, .ofInt num.toInt⟩ := by
  rw [ProcessTypes.processId]
  exact if_neg h

theorem keyOf_toNat (hfew : FewTypes doc)
    (hx : (ProcessTypes.ofAllType doc.allType).stringToType x.1 ≠ 0)
    (hpos : 0 ≤ x.2.num.toInt) (hle : x.2.num.toInt ≤ 127) :
    ((ProcessTypes.ofAllType doc.allType).keyOf x).toNat =
      ((ProcessTypes.ofAllType doc.allType).stringToType x.1).toNat * 256 +
        x.2.num.toInt.toNat := by
  have hnum := num_toNat hpos hle
  rw [ProcessTypes.keyOf, processId_of_known hx, value_toNat]
  · rw [hnum]
  · exact stringToType_lt hfew hx
  · rw [hnum]
    omega

theorem keyOf_injective (hfew : FewTypes doc)
    (hx : (ProcessTypes.ofAllType doc.allType).stringToType x.1 ≠ 0)
    (hy : (ProcessTypes.ofAllType doc.allType).stringToType y.1 ≠ 0)
    (hposx : 0 ≤ x.2.num.toInt) (hlex : x.2.num.toInt ≤ 127)
    (hposy : 0 ≤ y.2.num.toInt) (hley : y.2.num.toInt ≤ 127)
    (h : (ProcessTypes.ofAllType doc.allType).keyOf x =
      (ProcessTypes.ofAllType doc.allType).keyOf y) : x.1 = y.1 ∧ x.2.num = y.2.num := by
  have hnat := congrArg UInt32.toNat h
  rw [keyOf_toNat hfew hx hposx hlex, keyOf_toNat hfew hy hposy hley] at hnat
  refine ⟨stringToType_injective hfew hx (UInt32.toNat_inj.mp (by omega)), ?_⟩
  rw [← Int32.toInt_inj]
  omega

end Values

section Reading

variable {c : ProcessConfig} {types : ProcessTypes} {name : List UInt8} {s s' : Loading}
  {node : ProcessNode} {xs : List (List UInt8 × ProcessNode)} {x : List UInt8 × ProcessNode}

/-- The elements that have been read, and what has been taken from them. -/
structure Read (c : ProcessConfig) (types : ProcessTypes) (xs : List (List UInt8 × ProcessNode))
    (s : Loading) : Prop where
  known : ∀ x ∈ xs, types.stringToType x.1 ≠ 0
  eps_mem : ∀ v ep, s.privateListenEps v = some ep →
    ∃ x ∈ xs, types.keyOf x = v ∧ listenOf x = some ep
  eps_of_mem : (xs.map types.keyOf).Nodup →
    ∀ x ∈ xs, s.privateListenEps (types.keyOf x) = listenOf x
  self : ∀ node, s.thisProcess = some node → ∃ x ∈ xs, x.2 = node ∧
    c.isSelf x.1 x.2.num = true ∧ s.privateListen = listenOf x ∧
    s.processId = ⟨types.stringToType x.1, c.processNum.toUInt32⟩

/-- What an element leaves behind. -/
structure Reads (c : ProcessConfig) (types : ProcessTypes) (x : List UInt8 × ProcessNode)
    (s s' : Loading) : Prop where
  eps : s'.privateListenEps =
    match listenOf x with
    | none => s.privateListenEps
    | some ep => Function.update s.privateListenEps (types.keyOf x) (some ep)
  self : c.isSelf x.1 x.2.num = true → s'.thisProcess = some x.2 ∧ s'.privateListen = listenOf x ∧
    s'.processId = ⟨types.stringToType x.1, c.processNum.toUInt32⟩
  other : c.isSelf x.1 x.2.num = false → s'.thisProcess = s.thisProcess ∧
    s'.privateListen = s.privateListen ∧ s'.processId = s.processId

theorem listenOf_eq {privateNode : PrivateNode} {listen : Option Net.Endpoint}
    (hprivate : x.2.privateNode = some privateNode)
    (hlisten : readListen privateNode.listen = .ok listen) : listenOf x = listen := by
  change (x.2.privateNode.bind fun privateNode => _) = _
  rw [hprivate, Option.bind_some, hlisten]
  rfl

theorem readProcess_reads (h : c.readProcess types name s node = .ok s') :
    Reads c types (name, node) s s' := by
  rw [ProcessConfig.readProcess] at h
  cases hprivate : node.privateNode with
  | none =>
      rw [hprivate] at h
      cases h
  | some privateNode =>
      rw [hprivate] at h
      obtain ⟨listen, hread, hrest⟩ := bind_eq_ok.mp h
      have hlisten : listenOf (name, node) = listen := listenOf_eq hprivate hread
      cases hself : c.isSelf name node.num with
      | true =>
          rw [hself] at hrest
          obtain rfl := Except.ok.inj hrest
          refine ⟨?_, fun _ => ⟨rfl, hlisten.symm, rfl⟩, fun hnot => ?_⟩
          · rw [hlisten]
            cases listen <;> rfl
          · cases hself.symm.trans hnot
      | false =>
          rw [hself] at hrest
          obtain rfl := Except.ok.inj hrest
          refine ⟨?_, fun hnot => ?_, fun _ => ?_⟩
          · rw [hlisten]
            cases listen <;> rfl
          · cases hself.symm.trans hnot
          · cases listen <;> exact ⟨rfl, rfl, rfl⟩

theorem Read.append (h : Read c types xs s) (hknown : types.stringToType x.1 ≠ 0)
    (hreads : Reads c types x s s') : Read c types (xs ++ [x]) s' where
  known y hy := by
    rcases List.mem_append.mp hy with hy | hy
    · exact h.known y hy
    · rwa [List.mem_singleton.mp hy]
  eps_mem v ep hv := by
    have hold : s.privateListenEps v = some ep →
        ∃ y ∈ xs ++ [x], types.keyOf y = v ∧ listenOf y = some ep := by
      intro hv
      obtain ⟨y, hy, hkey, hlisten⟩ := h.eps_mem v ep hv
      exact ⟨y, List.mem_append_left _ hy, hkey, hlisten⟩
    rw [hreads.eps] at hv
    cases hlisten : listenOf x with
    | none =>
        rw [hlisten] at hv
        exact hold hv
    | some ep' =>
        rw [hlisten] at hv
        dsimp only at hv
        rcases eq_or_ne v (types.keyOf x) with rfl | hne
        · rw [Function.update_self] at hv
          exact ⟨x, List.mem_append_right _ List.mem_cons_self, rfl, hlisten.trans hv⟩
        · rw [Function.update_of_ne hne] at hv
          exact hold hv
  eps_of_mem hnodup y hy := by
    rw [List.map_append, List.nodup_append] at hnodup
    obtain ⟨hnodup, -, hdisjoint⟩ := hnodup
    have hother : ∀ z ∈ xs, types.keyOf z ≠ types.keyOf x := fun z hz =>
      hdisjoint _ (List.mem_map_of_mem hz) _ (List.mem_singleton_self _)
    have hnone : s.privateListenEps (types.keyOf x) = none := by
      rw [Option.eq_none_iff_forall_ne_some]
      intro ep hep
      obtain ⟨z, hz, hkey, -⟩ := h.eps_mem _ ep hep
      exact hother z hz hkey
    rw [hreads.eps]
    rcases List.mem_append.mp hy with hy | hy
    · rw [← h.eps_of_mem hnodup y hy]
      cases listenOf x with
      | none => rfl
      | some ep => exact Function.update_of_ne (hother y hy) ..
    · obtain rfl := List.mem_singleton.mp hy
      cases listenOf y with
      | none => exact hnone
      | some ep => exact Function.update_self ..
  self node hnode := by
    cases hself : c.isSelf x.1 x.2.num with
    | true =>
        obtain ⟨hthis, hlisten, hid⟩ := hreads.self hself
        rw [hthis] at hnode
        exact ⟨x, List.mem_append_right _ List.mem_cons_self, Option.some.inj hnode, hself,
          hlisten, hid⟩
    | false =>
        obtain ⟨hthis, hlisten, hid⟩ := hreads.other hself
        obtain ⟨y, hy, hynode, hyself, hylisten, hyid⟩ := h.self node (hthis ▸ hnode)
        exact ⟨y, List.mem_append_left _ hy, hynode, hyself, hlisten.trans hylisten,
          hid.trans hyid⟩

end Reading

section Connecting

variable {c a b : ProcessConfig} {types : ProcessTypes} {doc : AllProcesses} {info : LoadedInfo}
  {eps : UInt32 → Option Net.Endpoint} {str : List UInt8} {x : List UInt8 × ProcessNode}

theorem readProcessType_read {node : ProcessTypeNode} {xs : List (List UInt8 × ProcessNode)}
    {s s' : Loading} (h : Read c types xs s) (hstep : c.readProcessType types s node = .ok s') :
    Read c types (xs ++ node.processes.map fun process => (node.name, process)) s' := by
  rw [ProcessConfig.readProcessType] at hstep
  split_ifs at hstep with hknown
  refine foldlM_ok (P := fun done s => Read c types
    (xs ++ done.map fun process => (node.name, process)) s) ?_ node.processes [] ?_ hstep
  · intro done process s s' hread hstep
    rw [List.map_append, ← List.append_assoc]
    exact hread.append hknown (readProcess_reads hstep)
  · rwa [List.map_nil, List.append_nil]

theorem exists_read (h : c.load (some ⟨some doc⟩) = .ok info) :
    ∃ s, Read c (.ofAllType doc.allType) doc.processes s ∧
      c.readThis (.ofAllType doc.allType) s = .ok info := by
  obtain ⟨s, hloop, hthis⟩ := bind_eq_ok.mp h
  refine ⟨s, ?_, hthis⟩
  have hinit : Read c (.ofAllType doc.allType) [] {} := by
    refine ⟨fun x hx => ?_, fun v ep hv => ?_, fun _ x hx => ?_, fun node hnode => ?_⟩
    · exact absurd hx List.not_mem_nil
    · cases hv
    · exact absurd hx List.not_mem_nil
    · cases hnode
  refine foldlM_ok (P := fun done s => Read c (.ofAllType doc.allType) (done.flatMap fun node =>
    node.processes.map fun process => (node.name, process)) s) ?_ doc.processTypes [] hinit hloop
  intro done node s s' hread hstep
  rw [List.flatMap_append, List.flatMap_singleton]
  exact readProcessType_read hread hstep

theorem mem_insertEndpoint {connect : List Net.Endpoint} {ep ep' : Net.Endpoint} :
    ep' ∈ insertEndpoint connect ep ↔ ep' ∈ connect ∨ ep' = ep := by
  rw [insertEndpoint]
  split_ifs with hany
  · obtain ⟨other, hmem, heq⟩ := List.any_eq_true.mp hany
    rw [Net.Endpoint.equals_iff] at heq
    constructor
    · exact .inl
    · rintro (hin | rfl)
      · exact hin
      · exact heq ▸ hmem
  · rw [List.mem_append, List.mem_singleton]

theorem mem_endpoints {ids : List ProcessId} {connect connect' : List Net.Endpoint}
    (h : ids.foldlM (fun connect id => (eps id.value).map (insertEndpoint connect)) connect =
      some connect') :
    (∀ id ∈ ids, eps id.value ≠ none) ∧
      ∀ ep, ep ∈ connect' ↔ ep ∈ connect ∨ ∃ id ∈ ids, eps id.value = some ep := by
  induction ids generalizing connect with
  | nil =>
      obtain rfl := Option.some.inj h
      simp
  | cons id ids ih =>
      rw [List.foldlM_cons] at h
      obtain ⟨connect₁, hfirst, hrest⟩ := Option.bind_eq_some_iff.mp h
      obtain ⟨ep₀, hep₀, rfl⟩ := Option.map_eq_some_iff.mp hfirst
      obtain ⟨hsome, hmem⟩ := ih hrest
      refine ⟨fun id' hid' => ?_, fun ep => ?_⟩
      · rcases List.mem_cons.mp hid' with rfl | hid'
        · rw [hep₀]
          exact Option.some_ne_none _
        · exact hsome id' hid'
      · rw [hmem, mem_insertEndpoint, or_assoc]
        apply or_congr_right
        constructor
        · rintro (rfl | ⟨id', hid', hep⟩)
          · exact ⟨id, List.mem_cons_self, hep₀⟩
          · exact ⟨id', List.mem_cons_of_mem _ hid', hep⟩
        · rintro ⟨id', hid', hep⟩
          rcases List.mem_cons.mp hid' with rfl | hid'
          · exact .inl (Option.some.inj (hep.symm.trans hep₀))
          · exact .inr ⟨id', hid', hep⟩

theorem exists_this {s : Loading} (h : c.readThis types s = .ok info) :
    ∃ node privateNode ids, s.thisProcess = some node ∧ node.privateNode = some privateNode ∧
      parseProcessList types privateNode.connectTo = some ids ∧
      (∀ id ∈ ids, s.privateListenEps id.value ≠ none) ∧
      (∀ ep, ep ∈ info.connect ↔ ∃ id ∈ ids, s.privateListenEps id.value = some ep) ∧
      info.privateListen = s.privateListen ∧ info.processId = s.processId := by
  rw [ProcessConfig.readThis] at h
  cases hthis : s.thisProcess with
  | none =>
      rw [hthis] at h
      cases h
  | some node =>
      rw [hthis] at h
      dsimp only at h
      cases hprivate : node.privateNode with
      | none =>
          rw [hprivate] at h
          cases h
      | some privateNode =>
          rw [hprivate] at h
          dsimp only at h
          cases hconnect : parsePrivateEndpoint types s.privateListenEps privateNode.connectTo with
          | none =>
              rw [hconnect] at h
              cases h
          | some connect =>
              rw [hconnect] at h
              obtain ⟨ids, hids, hconnect⟩ := Option.bind_eq_some_iff.mp hconnect
              obtain ⟨publicListen, -, h⟩ := bind_eq_ok.mp h
              obtain ⟨flashSandboxListen, -, h⟩ := bind_eq_ok.mp h
              obtain ⟨httpListen, -, h⟩ := bind_eq_ok.mp h
              obtain rfl := Except.ok.inj h
              obtain ⟨hsome, hmem⟩ := mem_endpoints hconnect
              refine ⟨node, privateNode, ids, rfl, hprivate, hids, hsome, fun ep => ?_, rfl, rfl⟩
              rw [hmem, or_iff_right List.not_mem_nil]

/-- Whether the `connectTo` of a process names an id. -/
def ProcessConfig.ConnectsTo (c : ProcessConfig) (doc : AllProcesses) (pid : ProcessId) : Prop :=
  ∃ x ∈ doc.processes, c.isSelf x.1 x.2.num = true ∧ ∃ privateNode ids,
    x.2.privateNode = some privateNode ∧
    parseProcessList (.ofAllType doc.allType) privateNode.connectTo = some ids ∧
    ∃ id ∈ ids, id.value = pid.value

/-- The numbers are from 0 to `top`, and no type has a number twice. -/
structure Numbered (doc : AllProcesses) (top : Int) : Prop where
  few : FewTypes doc
  nums : ∀ x ∈ doc.processes, 0 ≤ x.2.num.toInt ∧ x.2.num.toInt ≤ top
  once : (doc.processes.map fun x => (x.1, x.2.num)).Nodup

theorem num_eq (h : c.isSelf x.1 x.2.num = true) :
    x.1 = c.processName ∧ x.2.num.toInt = c.processNum.toNat := by
  rw [ProcessConfig.isSelf, Bool.and_eq_true, beq_iff_eq, beq_iff_eq] at h
  exact h

theorem Numbered.self_eq {top : Int} (h : Numbered doc top) {y : List UInt8 × ProcessNode}
    (hx : x ∈ doc.processes) (hy : y ∈ doc.processes) (hxself : c.isSelf x.1 x.2.num = true)
    (hyself : c.isSelf y.1 y.2.num = true) : x = y := by
  apply List.inj_on_of_nodup_map h.once hx hy
  obtain ⟨hxname, hxnum⟩ := num_eq hxself
  obtain ⟨hyname, hynum⟩ := num_eq hyself
  refine Prod.ext (hxname.trans hyname.symm) ?_
  rw [← Int32.toInt_inj, hxnum, hynum]

theorem Numbered.nodup_keys (h : Numbered doc 127)
    (hknown : ∀ x ∈ doc.processes, (ProcessTypes.ofAllType doc.allType).stringToType x.1 ≠ 0) :
    (doc.processes.map (ProcessTypes.ofAllType doc.allType).keyOf).Nodup := by
  refine List.Nodup.map_on (fun x hx y hy hkey => ?_) h.once.of_map
  obtain ⟨hname, hnum⟩ := keyOf_injective h.few (hknown x hx) (hknown y hy) (h.nums x hx).1
    (h.nums x hx).2 (h.nums y hy).1 (h.nums y hy).2 hkey
  exact List.inj_on_of_nodup_map h.once hx hy (Prod.ext hname hnum)

/-- The id of the process of an element, as the process itself has it. -/
def AllProcesses.idOf (doc : AllProcesses) (x : List UInt8 × ProcessNode) : ProcessId :=
  ⟨(ProcessTypes.ofAllType doc.allType).stringToType x.1, .ofInt x.2.num.toInt⟩

theorem idOf_eq (h : c.isSelf x.1 x.2.num = true) :
    doc.idOf x =
      ⟨(ProcessTypes.ofAllType doc.allType).stringToType x.1, c.processNum.toUInt32⟩ := by
  rw [AllProcesses.idOf, (num_eq h).2]
  congr 1
  rw [← UInt32.toNat_inj, ofInt_toNat, UInt16.toNat_toUInt32]
  have hlt := c.processNum.toNat_lt
  omega

theorem Numbered.keyOf_eq (h : Numbered doc 127) (hx : x ∈ doc.processes)
    (hknown : (ProcessTypes.ofAllType doc.allType).stringToType x.1 ≠ 0) :
    (ProcessTypes.ofAllType doc.allType).keyOf x = (doc.idOf x).value := by
  obtain ⟨hpos, hle⟩ := h.nums x hx
  have hnum : (doc.idOf x).num.toNat = x.2.num.toInt.toNat := by
    change (UInt32.ofInt x.2.num.toInt).toNat = _
    rw [ofInt_toNat]
    omega
  rw [← UInt32.toNat_inj, keyOf_toNat h.few hknown hpos hle, value_toNat, hnum]
  · rfl
  · exact stringToType_lt h.few hknown
  · rw [hnum]
    omega

theorem ProcessConfig.ConnectsTo.exists_lookup {top : Int} {s : Loading} {pid : ProcessId}
    (h : c.ConnectsTo doc pid) (hdoc : Numbered doc top)
    (hread : Read c (.ofAllType doc.allType) doc.processes s)
    (hthis : c.readThis (.ofAllType doc.allType) s = .ok info) :
    ∃ ep, s.privateListenEps pid.value = some ep ∧ ep ∈ info.connect := by
  obtain ⟨x, hx, hxself, privateNode, ids, hprivate, hids, id, hid, hvalue⟩ := h
  obtain ⟨node, privateNode', ids', hnode, hprivate', hids', hsome, hmem, -, -⟩ :=
    exists_this hthis
  obtain ⟨y, hy, rfl, hyself, -, -⟩ := hread.self node hnode
  obtain rfl : x = y := hdoc.self_eq hx hy hxself hyself
  obtain rfl : privateNode = privateNode' := Option.some.inj (hprivate.symm.trans hprivate')
  obtain rfl : ids = ids' := Option.some.inj (hids.symm.trans hids')
  obtain ⟨ep, hep⟩ := Option.ne_none_iff_exists'.mp (hsome id hid)
  exact ⟨ep, hvalue ▸ hep, (hmem ep).mpr ⟨id, hid, hep⟩⟩

/-- What two processes take from the same file fits together: where the one that is connected to
listens is among what the other connects to, and each of these is where a process listens that
is to be connected to. -/
theorem connect_agrees (doc : AllProcesses) {infoA infoB : LoadedInfo} (hdoc : Numbered doc 127)
    (ha : a.load (some ⟨some doc⟩) = .ok infoA) (hb : b.load (some ⟨some doc⟩) = .ok infoB) :
    (a.ConnectsTo doc infoB.processId →
      ∃ ep, infoB.privateListen = some ep ∧ ep ∈ infoA.connect) ∧
    ∀ ep ∈ infoA.connect, ∃ x ∈ doc.processes, listenOf x = some ep ∧
      a.ConnectsTo doc (doc.idOf x) := by
  obtain ⟨sa, hreada, hthisa⟩ := exists_read ha
  have hkeys := hdoc.nodup_keys hreada.known
  constructor
  · intro hconnects
    obtain ⟨ep, hep, hmem⟩ := hconnects.exists_lookup hdoc hreada hthisa
    obtain ⟨sb, hreadb, hthisb⟩ := exists_read hb
    obtain ⟨node, -, -, hnode, -, -, -, -, hlistenb, hidb⟩ := exists_this hthisb
    obtain ⟨x, hx, -, hxself, hlisten, hprocessId⟩ := hreadb.self node hnode
    refine ⟨ep, ?_, hmem⟩
    rw [hlistenb, hlisten, ← hreada.eps_of_mem hkeys x hx,
      hdoc.keyOf_eq hx (hreada.known x hx), idOf_eq hxself, ← hprocessId, ← hidb, hep]
  · intro ep hep
    obtain ⟨node, privateNode, ids, hnode, hprivate, hids, -, hmem, -, -⟩ := exists_this hthisa
    obtain ⟨y, hy, rfl, hyself, -, -⟩ := hreada.self node hnode
    obtain ⟨id, hid, hlookup⟩ := (hmem ep).mp hep
    obtain ⟨x, hx, hkey, hlisten⟩ := hreada.eps_mem _ ep hlookup
    refine ⟨x, hx, hlisten, y, hy, hyself, privateNode, ids, hprivate, hids, id, hid, ?_⟩
    rw [← hkey, hdoc.keyOf_eq hx (hreada.known x hx)]

/-- The gateway and the router of `config/process.xml`, with a number for the router, and its
text. -/
def gatewayAndRouter (num : Int32) (text : List UInt8) : AllProcesses where
  -- `router gateway`
  allType := [114, 111, 117, 116, 101, 114, 32, 103, 97, 116, 101, 119, 97, 121]
  processTypes :=
    [⟨[103, 97, 116, 101, 119, 97, 121],
      [{ num := 1
         privateNode := some ⟨[], [114, 111, 117, 116, 101, 114, 58] ++ text⟩
         publicListen := some [48, 46, 48, 46, 48, 46, 48, 58, 55, 48, 48, 48]
         httpListen := some [] }]⟩,
      ⟨[114, 111, 117, 116, 101, 114],
        [{ num
           privateNode := some ⟨[49, 50, 55, 46, 48, 46, 48, 46, 49, 58, 54, 48, 48, 48], []⟩ }]⟩]

theorem connect_agrees_of_gateway :
    let infoA : LoadedInfo :=
      ⟨⟨2, 1⟩, none, [⟨⟨127, 0, 0, 1⟩, 6000⟩], [⟨⟨0, 0, 0, 0⟩, 7000⟩], [], []⟩
    let infoB : LoadedInfo := ⟨⟨1, 1⟩, some ⟨⟨127, 0, 0, 1⟩, 6000⟩, [], [], [], []⟩
    ProcessConfig.load ⟨[114, 111, 117, 116, 101, 114], 1⟩
      (some ⟨some (gatewayAndRouter 1 [49])⟩) = .ok infoB ∧
      ∃ ep, infoB.privateListen = some ep ∧ ep ∈ infoA.connect :=
  ⟨by decide +kernel,
    (connect_agrees (gatewayAndRouter 1 [49]) (a := ⟨[103, 97, 116, 101, 119, 97, 121], 1⟩)
      (b := ⟨[114, 111, 117, 116, 101, 114], 1⟩)
      ⟨by unfold FewTypes; decide +kernel, by decide +kernel, by decide +kernel⟩
      (by decide +kernel) (by decide +kernel)).1
      ⟨_, List.mem_cons_self, by decide +kernel, _, [⟨1, 1⟩], rfl, by decide +kernel, ⟨1, 1⟩,
        List.mem_cons_self, rfl⟩⟩

end Connecting

end CasualGame.Base
