import VerticalAI.Stub.Twins

/-! Kernels that were set up alike are twins before they are called. -/

namespace VerticalAI.Stub
open VerticalAI.Foundation VerticalAI.Contracts VerticalAI.Kernel

variable [Libraries]

/-- Nothing is filed yet. -/
def Holdings.empty : Holdings := ⟨∅, {}, 0⟩

/-- The two were set up alike, and neither has been called. -/
structure Alike (stub : StubKernel) (world : World) : Prop where
  same : Matches stub.bearing world.bearing
  empty : stub.bearing.holdings = .empty
  realEmpty : realHoldings world.bearing = .empty

omit [Libraries] in
theorem sound_empty : Holdings.empty.Sound (named []) where
  used handle id names := by cases names
  apart handle other id names := by cases names
  register id reg filed := by
    change (∅ : Table Register)[id]? = some reg at filed
    rw [Std.ExtTreeMap.getElem?_empty] at filed
    cases filed
  stop id event filed := by
    change (∅ : Table StopEvent)[id]? = some event at filed
    rw [Std.ExtTreeMap.getElem?_empty] at filed
    cases filed
  resume id event filed := by
    change (∅ : Table ResumeEvent)[id]? = some event at filed
    rw [Std.ExtTreeMap.getElem?_empty] at filed
    cases filed

/-- Kernels that were set up alike are twins before the first call. -/
theorem Alike.twins {stub : StubKernel} {world : World} (alike : Alike stub world)
    : Twins ⟨[], stub⟩ ⟨[], world⟩ where
  taken := rfl
  numbered :=
    ⟨(congrArg Holdings.counter alike.empty).le, (congrArg Holdings.counter alike.realEmpty).le⟩
  same := alike.same
  paired := by
    constructor
    · rw [alike.empty]
      exact sound_empty
    · rw [alike.realEmpty]
      exact sound_empty
    · rw [alike.empty, alike.realEmpty]

/-- Over an empty directory there is nothing to rebuild. -/
theorem opened_bearing (setup : Setup)
    : setup.opened.bearing
      = { adapters := ∅, devices := {}, locks := {}, home := {}, liveness := ∅, approvals := ∅
          hot := ∅, registers := ∅, stops := {}, counter := 0 } := by
  rfl

/-- Two kernels that were just made are alike, each on a node of its own. -/
theorem alike_new (setup : Setup) : Alike (.new setup.stubNode) setup.opened := by
  refine ⟨?_, rfl, by rw [opened_bearing]; rfl⟩
  rw [opened_bearing]
  constructor
  · intro id
    exact Std.ExtTreeMap.getElem?_empty
  · rfl
  · rfl
  · rfl
  · rfl
  · intro approval
    refine iff_of_false List.not_mem_nil fun ⟨key, held⟩ => ?_
    change (∅ : Table Approval)[key]? = some approval at held
    rw [Std.ExtTreeMap.getElem?_empty] at held
    cases held
  · intro key approval held
    change (∅ : Table Approval)[key]? = some approval at held
    rw [Std.ExtTreeMap.getElem?_empty] at held
    cases held
  · intro subject
    exact iff_of_false List.not_mem_nil Std.ExtTreeMap.not_mem_empty

/-- Mounting is refused, or puts the adapter under its manifest's id. -/
theorem mount_ends (adapter : ArchAdapter) (nowMs : UInt64) (world : World)
    : (∃ error, (mount adapter nowMs).Ends World.bearing world (.failed error) world.bearing)
      ∨ (mount adapter nowMs).Ends World.bearing world (.done adapter.manifest.archId)
          { world.bearing with
            adapters := world.bearing.adapters.insert adapter.manifest.archId adapter } := by
  unfold mount
  cases adapter.manifest.validate with
  | error error => exact Or.inl ⟨_, Program.ends_fail _⟩
  | ok _ =>
      cases mounted : world.kernel.adapters[adapter.manifest.archId]? with
      | none =>
          refine Or.inr (ends_kernel ?_)
          rw [mounted]
          exact ends_save (Program.ends_perform (Program.ends_perform ends_log_pure))
      | some found =>
          by_cases other : (!found.manifest.same adapter.manifest) = true
          · refine Or.inl ⟨?reason, ends_kernel ?refused⟩
            case refused =>
              rw [mounted]
              dsimp only
              rw [if_pos other]
              exact Program.ends_fail _
          · refine Or.inr (ends_kernel ?_)
            rw [mounted]
            dsimp only
            rw [if_neg other]
            exact Program.ends_perform (Program.ends_perform (Program.ends_pure _))

/-- What a hook puts into the state that answers depend on. -/
def Hook.bearing (hook : Hook) (bearing : Bearing) : Bearing :=
  match hook with
  | .registerArch manifest _ =>
      { bearing with
        adapters := bearing.adapters.insert manifest.archId
          (mockAdapter manifest manifest.contextCeiling) }
  | .enrollDevice deviceId key _ =>
      { bearing with devices := bearing.devices.register deviceId key }
  | .renewLiveness business deviceId expiresAtMs =>
      { bearing with
        liveness := bearing.liveness.insert business ⟨business, deviceId, expiresAtMs⟩ }
  | .setContextBudget _ _ => bearing

/-- A hook of the real kernel fails, or does this. -/
theorem hook_ends (hook : Hook) (world : World)
    : (∃ error, (invoke hook.toCall).Ends World.bearing world (.failed error) world.bearing)
      ∨ ∃ reply, (invoke hook.toCall).Ends World.bearing world (.done reply)
          (hook.bearing world.bearing) := by
  cases hook with
  | registerArch manifest nowMs =>
      rcases mount_ends (mockAdapter manifest manifest.contextCeiling) nowMs world with
        ⟨error, refused⟩ | mounted
      · exact Or.inl ⟨error, refused.map _⟩
      · exact Or.inr ⟨_, mounted.map _⟩
  | enrollDevice deviceId key nowMs =>
      have enrolled : (enrollDevicePersisted deviceId key nowMs).Ends World.bearing world (.done ())
          { world.bearing with devices := world.bearing.devices.register deviceId key } :=
        ends_save (Program.ends_perform (ends_log _ _ _))
      exact Or.inr ⟨_, enrolled.map _⟩
  | renewLiveness business deviceId expiresAtMs =>
      have renewed : (renewLivenessPersisted business deviceId expiresAtMs).Ends World.bearing world
          (.done ())
          { world.bearing with
            liveness := world.bearing.liveness.insert business
              ⟨business, deviceId, expiresAtMs⟩ } := ⟨rfl, rfl⟩
      exact Or.inr ⟨_, renewed.map _⟩
  | setContextBudget archId tokens => exact Or.inr ⟨.unit, rfl, rfl⟩

/-- Alike kernels stay so. -/
theorem Matches.hook {stub : StubKernel} {bearing : Bearing} (same : Matches stub.bearing bearing)
    (hook : Hook)
    : Matches (stub.hook hook).bearing (hook.bearing bearing) := by
  cases hook with
  | registerArch manifest nowMs =>
      refine ⟨fun id => ?_, same.devices, same.locks, same.home, same.liveness, same.approvals,
        same.keys, same.hot⟩
      change (bearing.adapters.insert manifest.archId _)[id]?
        = (stub.bearing.arches.insert manifest.archId manifest)[id]?.map _
      by_cases named : id = manifest.archId
      · subst named
        rw [Std.ExtTreeMap.getElem?_insert_self, Std.ExtTreeMap.getElem?_insert_self]
        rfl
      · rw [Table.getElem?_insert_ne named, Table.getElem?_insert_ne named, same.arches]
  | enrollDevice deviceId key nowMs =>
      exact ⟨same.arches, congrArg (·.register deviceId key) same.devices, same.locks, same.home,
        same.liveness, same.approvals, same.keys, same.hot⟩
  | renewLiveness business deviceId expiresAtMs =>
      exact ⟨same.arches, same.devices, same.locks, same.home,
        congrArg (·.insert business ⟨business, deviceId, expiresAtMs⟩) same.liveness,
        same.approvals, same.keys, same.hot⟩
  | setContextBudget archId tokens => exact same

/-- A hook that did not fail leaves the two alike. -/
theorem Alike.hook {stub : StubKernel} {world after : World} (alike : Alike stub world)
    {hook : Hook} {reply : Reply} {rest : List Fault}
    (ran : invoke hook.toCall world [] = (.done reply, after, rest))
    : Alike (stub.hook hook) after := by
  rcases hook_ends hook world with ⟨error, failed⟩ | ⟨_, done⟩
  · have answer := failed.answer
    rw [ran] at answer
    cases answer
  · have left := done.leaves
    rw [ran] at left
    have left : after.bearing = hook.bearing world.bearing := left
    refine ⟨left ▸ alike.same.hook hook, ?_, ?_⟩
    · cases hook <;> exact alike.empty
    · rw [left]
      cases hook <;> exact alike.realEmpty

/-- Kernels that were set up without a hook failing are alike, by induction on the hooks. -/
theorem alike_hookAll {hooks : List Hook} {stub : StubKernel} {world : World}
    (alike : Alike stub world) (started : (Setup.hookAll hooks world []).1 = .done ())
    : Alike (hooks.foldl StubKernel.hook stub) (Setup.hookAll hooks world []).2.1 := by
  induction hooks generalizing stub world with
  | nil => exact alike
  | cons hook rest ih =>
      rcases (invoke_emits hook.toCall).working world with
        ⟨reply, after, ran⟩ | ⟨error, after, ran⟩
      · rw [Setup.hookAll, Program.bind_done ran] at started ⊢
        exact ih (alike.hook ran) started
      · rw [Setup.hookAll, Program.bind_failed ran] at started
        cases started

/-- Kernels that were set up alike start a script as twins. -/
theorem Setup.twins {setup : Setup} (started : setup.Started)
    : Twins ⟨[], setup.stub⟩ ⟨[], setup.world⟩ :=
  (alike_hookAll (alike_new setup) started).twins

end VerticalAI.Stub
