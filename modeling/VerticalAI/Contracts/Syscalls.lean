import VerticalAI.Contracts.Arch
import VerticalAI.Contracts.Locks
import VerticalAI.Contracts.Module
import VerticalAI.Contracts.Stop

/-! The context a syscall runs in and the errors it may report. -/

namespace VerticalAI.Contracts

/-- Built by the channel layer from an authenticated connection. -/
structure Ctx where
  principal : Principal
  clearance : Clearance
  partition : String
  nowMs : UInt64
  deriving DecidableEq, Repr

inductive KernelError where
  | i1 (why : String)
  | i2 (why : String)
  | i3 (why : String)
  | i4 (why : String)
  | i4Prime (why : String)
  | stopped (scope : String)
  | lock (error : LockError)
  | principal (error : PrincipalError)
  | stop (error : StopError)
  | module (error : ModuleError)
  | gate (why : String)
  | notFound (what : String)
  | store (reason : String)
  deriving DecidableEq, Repr

/-- The message the error displays as. -/
def KernelError.text : KernelError → String
  | .i1 why => s!"I1 violated: {why}"
  | .i2 why => s!"I2 violated: {why}"
  | .i3 why => s!"I3 violated: {why}"
  | .i4 why => s!"I4 violated: {why}"
  | .i4Prime why => "I4' violated: " ++ why
  | .stopped scope => s!"scope is stopped: {scope}"
  | .lock error => error.text
  | .principal error => error.text
  | .stop error => error.text
  | .module error => error.text
  | .gate why => s!"gate verdict missing or failed: {why}"
  | .notFound what => s!"not found: {what}"
  | .store reason => s!"store failure: {reason}"

structure InferOutcome where
  archId : String
  projected : Bool
  tokensIn : UInt32
  deriving DecidableEq, Repr

end VerticalAI.Contracts
