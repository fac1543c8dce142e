import CasualGame.Relay.TcpMessage

/-!
The id of a process as it lies in memory, and which ids a process takes for valid.
-/

namespace CasualGame.Relay.ProcessId

open Lib.LittleEndian

/-- `s_type2Name[type]`, for the types a process has been configured with. -/
def typeToString (type2Name : List String) (type : UInt32) : String :=
  match type2Name[type.toNat]? with
  | none => "none"
  | some name => name

def isValid (type2Name : List String) (pid : ProcessId) : Bool :=
  typeToString type2Name pid.type ≠ "none" && pid.num ≠ 0

/-- `sizeof(ProcessId)` -/
def sizeof : Nat := 8

def bytes (pid : ProcessId) : List UInt8 := toBytes 4 pid.type.toNat ++ toBytes 4 pid.num.toNat

def read (buf : List UInt8) : ProcessId where
  type := readUInt32 buf
  num := readUInt32 (buf.drop 4)

@[simp] theorem length_bytes (pid : ProcessId) : pid.bytes.length = sizeof := by
  rw [bytes, List.length_append, length_toBytes, length_toBytes]
  rfl

theorem read_bytes_append (pid : ProcessId) (rest : List UInt8) :
    read (pid.bytes ++ rest) = pid := by
  rw [read, bytes, List.append_assoc, readUInt32_toBytes,
    List.drop_left' (length_toBytes 4 _), readUInt32_toBytes]

@[simp] theorem read_bytes (pid : ProcessId) : read pid.bytes = pid := by
  have hread := read_bytes_append pid []
  rwa [List.append_nil] at hread

end CasualGame.Relay.ProcessId
