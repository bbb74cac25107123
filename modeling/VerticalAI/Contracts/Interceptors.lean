import VerticalAI.Contracts.Syscalls

/-! Interceptors: the decidable invariants every syscall is held to. -/

namespace VerticalAI.Contracts

/-- I1: a human approval comes from that human's own ceremony. -/
def i1Approval [Digest] [SignatureScheme] (principal : Principal) (approval : Approval)
    (devices : DeviceRegistry) (nowMs : UInt64)
    : Except KernelError Unit :=
  if approval.kind = .human then
    if ¬principal.isHuman ∨ approval.approver ≠ principal then
      .error (.i1 "human approval requires the human's own authenticated channel")
    else (approval.verifyHuman devices nowMs).mapError .principal
  else .ok ()

/-- I1: STOP and RESUME need a human. -/
def i1Presence (principal : Principal) : Except KernelError Unit :=
  if principal.isHuman then .ok () else .error (.i1 "STOP/RESUME require a human principal")

theorem i1Presence_human {principal : Principal} (human : principal.isHuman = true)
    : i1Presence principal = .ok () :=
  if_pos human

/-- A machine is refused, and told that a human is required. -/
theorem i1Presence_machine {principal : Principal} (machine : principal.isHuman = false)
    : i1Presence principal = .error (.i1 "STOP/RESUME require a human principal") :=
  if_neg (Bool.eq_false_iff.mp machine)

/-- I2: a label has to flow to the arch's clearance. -/
def i2Flow (label : Label) (arch : ArchManifest) : Except KernelError Unit :=
  if label.flowsTo arch.clearance then .ok ()
  else .error (.i2 s!"label {label.scope.debug} exceeds clearance of arch {arch.name}")

def businessScope (business : String) : String := s!"business:{business}"

/-- I4: an automation needs a live lease and no STOP on its business. -/
def i4Liveness (business : String) (lease : Option LivenessLease) (stops : StopSet)
    (nowMs : UInt64)
    : Except KernelError Unit :=
  if stops.stopped (businessScope business) then .error (.stopped (businessScope business))
  else if lease.any (·.alive nowMs) then .ok ()
  else .error (.i4 s!"no live autonomy lease for {business}")

end VerticalAI.Contracts
