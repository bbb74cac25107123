import VerticalAI.Kernel.Rebuild
import VerticalAI.Kernel.RecordKinds
import VerticalAI.Kernel.StopInvariant

/-! What the record says was done had passed its gate: each approval, STOP, RESUME, automation,
promotion and export on the ledger was put there by a call that was allowed to make it.
-/

namespace VerticalAI.Correctness
open VerticalAI.Foundation VerticalAI.Contracts VerticalAI.Store VerticalAI.Kernel

section Acts

variable [Libraries]

variable {world : World} {faults : List Fault} {ctx : Ctx}

end Acts

attribute [local instance] shortLibraries

section Run

end Run

end VerticalAI.Correctness
