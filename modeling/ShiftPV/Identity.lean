import Mathlib.Data.List.Sort
import ShiftPV.Lib.Check

/-! Copy identities: the full name of one data-bearing directory, and the operation names derived from object UIDs. -/

namespace ShiftPV
open Check

/-! ### Tokens -/

def validIdentityToken (value : String) : Bool :=
  value ≠ "" && value.utf8ByteSize ≤ 128 && value ≠ "." && value ≠ ".." &&
    !value.toList.any fun c => c == '/' || c == '\\' || c == '\x00'

def validObjectName (value : String) : Bool :=
  validIdentityToken value && value.utf8ByteSize ≤ 253

/-- The volume IDs of the driver: `shiftpv-` and 32 lower-case hexadecimal digits. -/
def validateID (id : String) : Bool :=
  let digits := id.toList.drop 8
  id.toList.take 8 == "shiftpv-".toList && digits.length == 32 &&
    digits.all fun c => ('a' ≤ c && c ≤ 'f') || ('0' ≤ c && c ≤ '9')

/-- A time field of a record: empty, text that is no RFC 3339 time, or a time in nanoseconds. -/
inductive Timestamp where
  | absent | malformed | at (nanoseconds : Nat)
  deriving DecidableEq

def Timestamp.parses : Timestamp → Bool
  | .at _ => true
  | _ => false

def validDigest (digest : String) : Bool :=
  digest.toList.length == 64 &&
    digest.toList.all fun c => ('a' ≤ c && c ≤ 'f') || ('0' ≤ c && c ≤ '9')

/-! ### Copies -/

/-- What a directory is for. `unknown` is any text outside the three known roles. -/
inductive CopyRole where
  | serving | incoming | retired | unknown
  deriving DecidableEq

structure CopyIdentity where
  installationID : String
  poolName : String
  poolUID : String
  volumeID : String
  volumeUID : String
  copyID : String
  nodeName : String
  role : CopyRole
  deriving DecidableEq

def CopyIdentity.valid (copy : CopyIdentity) : Bool :=
  validIdentityToken copy.installationID && validObjectName copy.poolName &&
    validIdentityToken copy.poolUID && validateID copy.volumeID && validIdentityToken copy.volumeUID &&
    validIdentityToken copy.copyID && validObjectName copy.nodeName && copy.role ≠ .unknown

/-! ### Operations -/

def creationCancellationPrefix : String := "cancel-create-"

/-- The original serving copy of a volume together with its cancellation operation. -/
def isCreationCancellation (copy : CopyIdentity) (operationID : String) : Bool :=
  copy.valid && copy.role = .serving && copy.copyID = "initial-" ++ copy.volumeUID &&
    validIdentityToken operationID && operationID = creationCancellationPrefix ++ copy.volumeUID

def creationOperationID (volumeUID : String) : Except String String := do
  let operationID := "create-" ++ volumeUID
  require (validIdentityToken volumeUID ∧ validIdentityToken operationID)
    "invalid volume creation operation identity"
  return operationID

def deletionOperationID (volumeUID : String) : String := "delete-" ++ volumeUID

theorem creationOperationID_ok {uid op : String} (h : creationOperationID uid = .ok op) :
    op = "create-" ++ uid := by
  simp only [creationOperationID, bind_ok, require_ok, pure_ok] at h
  obtain ⟨_, -, rfl⟩ := h
  rfl

theorem deletionOperationID_ne_cancellation (u v : String) :
    deletionOperationID u ≠ creationCancellationPrefix ++ v := by
  intro h
  have hchars := congrArg String.toList h
  simp [deletionOperationID, creationCancellationPrefix] at hchars

end ShiftPV
