import VerticalAI.Ipc.Server

/-! What a request may change whose caller is no human: no STOP, no RESUME, no approval, and no
device of a node that has its own enrolled.
-/

namespace VerticalAI.Ipc
open VerticalAI.Foundation VerticalAI.Contracts VerticalAI.Kernel

variable [Libraries] {α : Type} {ctx : Ctx} {allowed : World → Update → Prop}

/-- A machine's STOP is refused before anything is written. -/
theorem stop_refused (machine : ctx.principal.isHuman = false) (scope : String)
    : (stop ctx scope).Emits allowed := by
  unfold stop
  rw [i1Presence_machine machine]
  exact Program.emits_fail

/-- A machine's RESUME makes no update at all. -/
theorem resume_refused (machine : ctx.principal.isHuman = false) (stopId : String)
    : (resume ctx stopId).Emits allowed := by
  unfold resume
  rw [i1Presence_machine machine]
  exact Program.emits_fail

/-- A machine's human approval is refused whatever it is signed with. -/
theorem approve_refused (machine : ctx.principal.isHuman = false) {approval : Approval}
    (human : approval.kind = .human)
    : (approve ctx approval).Emits allowed := by
  unfold approve
  refine kernel_emits.bind fun devices => ?_
  rw [i1Approval, if_pos human, if_pos (.inl (by simp [machine]))]
  exact Program.emits_fail

/-- The node's own row is there, so that its key is not enrolled again. -/
theorem enrollNodeKey_present {key : VerifyingKey} {nowMs : UInt64} {world : World}
    {row : DeviceRow}
    (present : world.disk.devices[nodeDevice world.kernel.nodeId]? = some row) (faults : List Fault)
    : (enrollNodeKey key nowMs world faults).2.1 = world := by
  have read {rest : List Fault}
      (ran : load (·.devices[nodeDevice world.kernel.nodeId]?) world faults
        = (.done world.disk.devices[nodeDevice world.kernel.nodeId]?, world, rest))
      : (enrollNodeKey key nowMs world faults).2.1 = world := by
    unfold enrollNodeKey kernel
    rw [Program.observe_bind_run, Program.bind_done ran, present]
    dsimp only
    split <;> rfl
  rcases faults with _ | ⟨_ | reason | _, rest⟩
  · exact read rfl
  · exact read rfl
  · rfl
  · rfl

omit [Libraries] in
/-- What errors are called makes no difference to the state. -/
theorem syscall_state (program : Syscall α) (world : World) (faults : List Fault)
    : (syscall program world faults).2 = (program world faults).2 := by
  unfold syscall Program.mapError
  rcases program world faults with ⟨_ | _ | _, _, _⟩ <;> rfl

/-- The parts of the state that no machine's request has to stay away from. -/
def machineAreas : List Area :=
  [.arches, .registers, .tasks, .leases, .liveness, .modules, .counter, .stats, .policies, .record,
    .payload, .exports, .inferLog, .adapters, .sent, .draws]

/-- A call of the kernel stays within its areas whatever its error is called. -/
theorem answered_emits {β ε : Type} {areas : List Area} {program : Syscall α}
    {rename : KernelError → ε}
    {change : α → β} (emits : program.Emits (Within areas)) (inclusion : areas ⊆ machineAreas)
    : (change <$> Program.mapError rename program).Emits (Within machineAreas) := by
  rw [map_eq_pure_bind]
  exact (emits_widen emits inclusion).mapError.bind fun _ => Program.emits_pure

/-- A request that only reads changes nothing. -/
theorem answered_reads {β ε : Type} {program : Syscall α} {rename : KernelError → ε}
    {change : α → β}
    (emits : program.Emits (Within []))
    : (change <$> Program.mapError rename program).Emits (Within machineAreas) :=
  answered_emits emits (List.nil_subset _)

theorem bootInfo_emits : (bootInfo).Emits (Within machineAreas) := by
  unfold bootInfo
  refine Program.emits_observe.bind fun node => ?_
  exact (Program.Emits.mapError loadOr_emits).bind fun _ => Program.emits_pure

/-- Where the node has its device enrolled, a request to enrol it changes nothing. -/
theorem enrollNode_present {params : Params} {kernelNow : UInt64} {world : World} {row : DeviceRow}
    (present : world.disk.devices[nodeDevice world.kernel.nodeId]? = some row) (faults : List Fault)
    : (enrollNode params kernelNow world faults).2.1 = world := by
  unfold enrollNode
  cases params.required "device_id" with
  | error error => rfl
  | ok id =>
      cases (params.required "vk_hex").bind keyOfHex with
      | error error => rfl
      | ok key =>
          rw [Program.lift_ok, Program.lift_ok, Program.pure_bind_run, Program.pure_bind_run,
            Program.observe_bind_run]
          split
          · rfl
          · change (((fun _ => Answer.enrolled id) <$> syscall (enrollNodeKey key kernelNow))
              world faults).2.1 = world
            rw [Program.map_run, syscall_state]
            exact enrollNodeKey_present present faults

/-- A request whose caller is no human stays away from STOPs, RESUMEs, approvals and devices, by
cases on its method.
-/
theorem serve_machine {request : Request} {presence : Option Presented} {now kernelNow : UInt64}
    {world : World} {row : DeviceRow}
    (present : world.disk.devices[nodeDevice world.kernel.nodeId]? = some row)
    (machine : ∀ ctx, ctxFor world.kernel presence now = .ok ctx → ctx.principal.isHuman = false)
    (faults : List Fault)
    : Trail (Within machineAreas) world (serve request presence now kernelNow world faults).2.1 := by
  have stays {program : Program World RpcError Answer} (emits : program.Emits (Within machineAreas))
      : Trail (Within machineAreas) world (program world faults).2.1 := emits.trail world faults
  unfold serve
  rw [Program.observe_bind_run]
  dsimp only
  generalize request.method = method
  split
  · exact stays bootInfo_emits
  · refine stays (Program.emits_lift_bind fun ctx _ => ?_)
    exact answered_reads resolve_emits
  · exact stays Program.emits_pure
  · refine stays (Program.emits_lift_bind fun ceiling _ => ?_)
    exact answered_emits mount_emits (by decide)
  · refine stays (Program.emits_lift_bind fun id _ => ?_)
    exact answered_emits unmount_emits (by decide)
  · refine stays (Program.emits_lift_bind fun ctx _ => ?_)
    refine Program.emits_lift_bind fun goal _ => ?_
    refine Program.emits_lift_bind fun steps _ => ?_
    exact answered_emits createTask_emits (by decide)
  · refine stays (Program.emits_lift_bind fun ctx _ => ?_)
    refine Program.emits_lift_bind fun id _ => ?_
    exact answered_emits runTaskStep_emits (by decide)
  · refine stays (Program.emits_lift_bind fun ctx _ => ?_)
    refine Program.emits_lift_bind fun id _ => ?_
    exact answered_reads approvalSubject_emits
  · refine stays (Program.emits_lift_bind fun ctx _ => ?_)
    refine Program.emits_lift_bind fun id _ => ?_
    refine (Program.Emits.mapError task_emits).bind fun row => ?_
    cases row with
    | some row => exact Program.emits_pure
    | none => exact Program.emits_fail
  · refine stays (Program.emits_lift_bind fun ctx _ => ?_)
    exact answered_reads tasks_emits
  · refine stays (Program.emits_lift_bind fun ctx _ => ?_)
    exact answered_reads top_emits
  · refine stays (Program.emits_lift_bind fun ctx built => ?_)
    exact answered_reads (stop_refused (machine ctx built) _)
  · refine stays (Program.emits_lift_bind fun ctx built => ?_)
    refine Program.emits_lift_bind fun id _ => ?_
    exact answered_reads (resume_refused (machine ctx built) _)
  · refine stays (Program.emits_lift_bind fun ctx built => ?_)
    refine Program.emits_lift_bind fun approval _ => ?_
    split
    · exact Program.emits_fail
    · next human =>
        exact answered_reads (approve_refused (machine ctx built) (not_not.mp human))
  · rw [enrollNode_present present faults]
    exact Trail.refl world
  · exact stays Program.emits_pure
  · exact stays Program.emits_pure
  · exact stays Program.emits_fail

end VerticalAI.Ipc
