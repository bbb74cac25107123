import VerticalAI.Ipc.Server

/-! `vk task step`: one request of the scheduler a step, and with `--all` as many as the task needs,
on a node that others use at the same time.
-/

namespace VerticalAI.Cli
open VerticalAI.Foundation VerticalAI.Contracts VerticalAI.Kernel VerticalAI.Ipc

/-- How many requests a run with `--all` makes before a task is reported that does not settle. -/
def maxSteps : Nat := 256

/-- A task that will not move again without something else happening: a human, a fix or a resume. -/
def settled (row : Task) : Bool :=
  row.status.name ∈ ["waiting_human", "done", "failed", "stopped"]

/-- What happens around one request: what others did to the node before it, the time it arrives
at and the faults its storage has.
-/
structure Round where
  others : List Event
  nowMs : UInt64
  faults : List Fault

/-- Why a request was not answered with a task. -/
inductive Failure where
  | refused (error : RpcError)
  | malformed
  | closed

/-- The parameters `{ "task_id": … }`. -/
def taskParams (taskId : String) : Params where
  text name := if name = "task_id" then some taskId else none
  number _ := none
  steps := .error "missing field"
  approval := .error "missing field"

def stepRequest (taskId : String) : Request where
  method := "task.step"
  params := taskParams taskId
  presence := none

variable [Libraries]

/-- Ask a node for a step; one that is down answers nothing. -/
def askStep (taskId : String) (node : Machine) (nowMs : UInt64) (faults : List Fault)
    : Except Failure Task × Machine :=
  if !node.up then (.error .closed, node)
  else
    match serve (stepRequest taskId) none nowMs nowMs node.world faults with
    | (.done (.task row), world, _) => (.ok row, { world, up := true })
    | (.done _, world, _) => (.error .malformed, { world, up := true })
    | (.failed error, world, _) => (.error (.refused error), { world, up := true })
    | (.crashed, world, _) => (.error .closed, { world, up := false })

/-- Ask for a step after whatever others did. -/
def requestStep (taskId : String) (machine : Machine) (round : Round)
    : Except Failure Task × Machine :=
  askStep taskId (machine.run round.others) round.nowMs round.faults

inductive Verdict where
  | shown (row : Task)
  | failed (failure : Failure)
  | unsettled

/-- How the command ended: what it says, how many requests it made, and the node. -/
structure Finish where
  verdict : Verdict
  requests : Nat
  machine : Machine

/-- The loop of `--all`: the last answer, the requests made and those it may still make. -/
def untilSettled (taskId : String) (rounds : Nat → Round) (row : Task) (requests : Nat)
    (machine : Machine)
    : Nat → Finish
  | 0 => ⟨if settled row then .shown row else .unsettled, requests, machine⟩
  | left + 1 =>
      if settled row then ⟨.shown row, requests, machine⟩
      else
        match requestStep taskId machine (rounds requests) with
        | (.ok row, machine) => untilSettled taskId rounds row (requests + 1) machine left
        | (.error failure, machine) => ⟨.failed failure, requests + 1, machine⟩

def taskStep (taskId : String) (all : Bool) (rounds : Nat → Round) (machine : Machine) : Finish :=
  match requestStep taskId machine (rounds 0) with
  | (.ok row, machine) =>
      if all then untilSettled taskId rounds row 1 machine (maxSteps - 1)
      else ⟨.shown row, 1, machine⟩
  | (.error failure, machine) => ⟨.failed failure, 1, machine⟩

/-- The context of a request without a proof. -/
def cliCtx (node : RealKernel) (nowMs : UInt64) : Ctx where
  principal := .machine node.nodeId "cli"
  clearance := ⟨.personal, true⟩
  partition := "local"
  nowMs

/-- A request for a step is a call of the scheduler. -/
theorem serve_step (taskId : String) (now kernelNow : UInt64) (world : World) (faults : List Fault)
    : serve (stepRequest taskId) none now kernelNow world faults
      = (Answer.task <$> syscall (runTaskStep (cliCtx world.kernel now) taskId)) world faults := rfl

/-- A request for a step leaves the node that the call leaves, and a task is answered just if the call
returned it.
-/
theorem askStep_run (taskId : String) (node : Machine) (nowMs : UInt64) (faults : List Fault)
    : let call := Call.runTaskStep (cliCtx node.world.kernel nowMs) taskId
      (askStep taskId node nowMs faults).2 = node.step (.call call faults)
        ∧ ∀ row, (askStep taskId node nowMs faults).1 = .ok row
          → node.answer call faults = some (.done (.task row)) := by
  intro call
  unfold askStep
  cases up : node.up with
  | false =>
      refine ⟨(Machine.step_call_down up call faults).symm, fun row answered => ?_⟩
      cases answered
  | true =>
      have invoked : invoke call node.world faults
          = (Reply.task <$> runTaskStep (cliCtx node.world.kernel nowMs) taskId) node.world
              faults := rfl
      simp only [Bool.not_true, Bool.false_eq_true, if_false, serve_step, Machine.step, up,
        Machine.answer, if_true, invoked, Program.map_run, syscall, Program.mapError]
      rcases runTaskStep (cliCtx node.world.kernel nowMs) taskId node.world faults with
        ⟨row | error | _, world, rest⟩
      · refine ⟨rfl, fun shown same => ?_⟩
        cases same
        rfl
      · exact ⟨rfl, fun shown same => by cases same⟩
      · exact ⟨rfl, fun shown same => by cases same⟩

end VerticalAI.Cli
