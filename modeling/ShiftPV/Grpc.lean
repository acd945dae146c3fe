import ShiftPV.Lib.Check

/-! How the driver answers. -/

namespace ShiftPV

inductive Code where
  | canceled | unknown | invalidArgument | deadlineExceeded | alreadyExists | resourceExhausted | failedPrecondition | aborted
  | unavailable | internal
  deriving DecidableEq

structure Status where
  code : Code
  message : String
  deriving DecidableEq

inductive FailureKind where
  | canceled | deadlineExceeded | poolConfiguration | poolNotFound | poolNotReady
  /-- A conflict, a timeout, too many requests or a server that is not available. -/
  | busy
  | retryable
  | other
  deriving DecidableEq

structure Failure where
  kind : FailureKind
  text : String
  deriving DecidableEq

def kubernetesAPIError (operation : String) (e : Failure) : Status where
  code :=
    match e.kind with
    | .canceled => .canceled
    | .deadlineExceeded => .deadlineExceeded
    | .busy => .unavailable
    | _ => .internal
  message := operation ++ ": " ++ e.text

inductive ObjectRead (α : Type) where
  | notFound
  | failed (text : String)
  | found (object : α)

end ShiftPV
