import VerticalAI.Ipc.Daemon
import VerticalAI.Ipc.MachineRequests

/-! The human path over the transport: a request is a human's only by a fresh, signed and unexpired
nonce, once, and without one nothing that takes a human is changed.
-/

namespace VerticalAI.Correctness
open VerticalAI.Foundation VerticalAI.Contracts VerticalAI.Kernel VerticalAI.Ipc

section Ceremony

variable [Libraries]

/-- The proof verifies under the key that is enrolled for the device it names. -/
def Verifies (devices : DeviceRegistry) (proof : PresenceProof) : Prop :=
  ∃ signature key, signatureOfHex proof.signatureHex = some signature
    ∧ devices.keys[proof.deviceId]? = some key
    ∧ SignatureScheme.verifies key (PresenceProof.message proof.nonce) signature = true

/-- A human context is that of a request whose nonce was taken in time and whose proof verifies. -/
theorem ctxFor_human {node : RealKernel} {presence : Option Presented} {now : UInt64} {ctx : Ctx}
    {deviceId : String} (built : ctxFor node presence now = .ok ctx)
    (human : ctx.principal = .human deviceId)
    : ∃ proof, presence = some ⟨proof, .ok ()⟩ ∧ proof.deviceId = deviceId
        ∧ Verifies node.devices proof := by
  unfold ctxFor at built
  cases derived : principalFor node presence with
  | error error =>
      rw [derived] at built
      cases built
  | ok principal =>
      rw [derived] at built
      obtain rfl := Except.ok.inj built
      obtain rfl : principal = .human deviceId := human
      unfold principalFor at derived
      split at derived
      · cases derived
      · next presented =>
          obtain ⟨proof, nonce⟩ := presented
          split at derived
          · cases derived
          · next spent =>
              obtain rfl : nonce = .ok () := spent
              split at derived
              · cases derived
              · next signature decoded =>
                  split at derived
                  · cases derived
                  · next verified =>
                      obtain ⟨key, enrolled, verifies⟩ := DeviceRegistry.verify_ok_iff.mp verified
                      have named := Principal.human.inj (Except.ok.inj derived)
                      exact ⟨proof, rfl, named, signature, key, decoded, enrolled, verifies⟩

/-- And every such request gets one. -/
theorem ctxFor_verified {node : RealKernel} {proof : PresenceProof}
    (verifies : Verifies node.devices proof) (now : UInt64)
    : ctxFor node (some ⟨proof, .ok ()⟩) now
      = .ok { principal := .human proof.deviceId, clearance := ⟨.personal, true⟩
              partition := "local", nowMs := now } := by
  obtain ⟨signature, key, decoded, enrolled, verified⟩ := verifies
  have passed := DeviceRegistry.verify_ok_iff.mpr ⟨key, enrolled, verified⟩
  simp only [ctxFor, principalFor, decoded, passed]

/-- The turn finishes this request in a human's context. -/
def DispatchedHuman (daemon : Daemon) (turn : Turn) (entry : Arrived) (deviceId : String) : Prop :=
  ∃ number nonce kernelNow faults ctx, turn = .finish number nonce kernelNow faults
    ∧ daemon.entry number = some entry
    ∧ ctxFor daemon.world.kernel entry.presence entry.now = .ok ctx
    ∧ ctx.principal = .human deviceId

variable {world : World} {turns : List Turn}

/-- The request came at this point of the run, and presented a nonce that was good there. -/
structure TakenAt (world : World) (earlier : List Turn) (entry : Arrived) (proof : PresenceProof)
    : Prop where
  carried : entry.request.presence = some proof
  numbered : entry.number = ((Daemon.start world).run earlier).arrived
  presents : ((Daemon.start world).run earlier).presents (.arrive entry.request entry.now)
    = some proof.nonce
  issued : ∃ time, Daemon.Issued world earlier proof.nonce time ∧ entry.now < time + challengeTtlMs
  unpresented : ¬Daemon.WasPresented world earlier proof.nonce

/-- A request under way whose nonce was good came at such a point. -/
theorem taken_of_came (fresh : Daemon.FreshNonces world turns) {entry : Arrived}
    {proof : PresenceProof} (presented : entry.presence = some ⟨proof, .ok ()⟩)
    (came : Daemon.Came world turns entry)
    : ∃ earlier later, turns = earlier ++ .arrive entry.request entry.now :: later
        ∧ TakenAt world earlier entry proof := by
  obtain ⟨earlier, turn, later, rfl, rfl, up, numbered, taken⟩ := came
  rw [presented, Daemon.take] at taken
  cases carried : entry.request.presence with
  | none =>
      rw [carried] at taken
      cases taken
  | some other =>
      rw [carried] at taken
      obtain ⟨rfl, spent⟩ := Presented.mk.inj (Option.some.inj taken)
      obtain ⟨expiry, held, inTime⟩ := Challenges.spend_ok_iff.mp spent.symm
      obtain ⟨⟨time, issued, rfl⟩, unpresented⟩ := Daemon.open_issued fresh.take held
      refine ⟨earlier, later, rfl, carried, numbered, ?_, ⟨time, issued, inTime⟩, unpresented⟩
      simp only [Daemon.presents, up, if_true, carried, Option.map_some]

/-- A human request went through the ceremony. -/
theorem taken_of_human (fresh : Daemon.FreshNonces world turns) {turn : Turn} {entry : Arrived}
    {deviceId : String}
    (dispatched : DispatchedHuman ((Daemon.start world).run turns) turn entry deviceId)
    : ∃ proof earlier later, turns = earlier ++ .arrive entry.request entry.now :: later
        ∧ TakenAt world earlier entry proof ∧ proof.deviceId = deviceId
        ∧ Verifies ((Daemon.start world).run turns).world.kernel.devices proof := by
  obtain ⟨number, nonce, kernelNow, faults, ctx, rfl, underway, built, human⟩ := dispatched
  obtain ⟨proof, presented, named, verifies⟩ := ctxFor_human built human
  have came := (Daemon.underway_came (Daemon.entry_mem underway).1).1
  obtain ⟨earlier, later, split, taken⟩ := taken_of_came fresh presented came
  exact ⟨proof, earlier, later, split, taken, named, verifies⟩

/-- Of two human requests one after the other the proofs are over different nonces: they came
apart, and each found its nonce unpresented.
-/
theorem human_nonces_differ {before between : List Turn} {turn again : Turn} {entry other : Arrived}
    {deviceId otherId : String} {proof otherProof : PresenceProof}
    (fresh : Daemon.FreshNonces world (before ++ turn :: between))
    (dispatched : DispatchedHuman ((Daemon.start world).run before) turn entry deviceId)
    (later : DispatchedHuman ((Daemon.start world).run (before ++ turn :: between)) again other otherId)
    (carries : entry.request.presence = some proof)
    (otherCarries : other.request.presence = some otherProof)
    : proof.nonce ≠ otherProof.nonce := by
  obtain ⟨shown, earlier, since, split, taken, -⟩ := taken_of_human fresh.take dispatched
  obtain ⟨otherShown, place, rest, otherSplit, otherTaken, -⟩ := taken_of_human fresh later
  obtain rfl := Option.some.inj (taken.carried.symm.trans carries)
  obtain rfl := Option.some.inj (otherTaken.carried.symm.trans otherCarries)
  intro same
  have places := otherSplit
  rw [split, List.append_assoc, List.cons_append] at places
  rcases append_cons_trichotomy places with rfl | ⟨between, rfl⟩ | ⟨between, rfl⟩
  · obtain ⟨number, nonce, kernelNow, faults, -, rfl, under, -⟩ := dispatched
    obtain ⟨otherNumber, -, -, -, -, -, otherUnder, -⟩ := later
    have finished := (Daemon.finished_of_finish under nonce kernelNow faults).run between
    have equal : otherNumber = number := by
      rw [← (Daemon.entry_mem otherUnder).2, ← (Daemon.entry_mem under).2, taken.numbered,
        otherTaken.numbered]
    rw [Daemon.run_append, equal] at otherUnder
    exact absurd (finished.entry_none.symm.trans otherUnder) nofun
  · exact otherTaken.unpresented ⟨earlier, _, between, rfl, same ▸ taken.presents⟩
  · exact taken.unpresented ⟨place, _, between, rfl, same ▸ otherTaken.presents⟩

/-- The request carries no proof that verifies under an enrolled key. -/
def Unsigned (devices : DeviceRegistry) (request : Request) : Prop :=
  ∀ proof, request.presence = some proof → ¬Verifies devices proof

/-- The node's device is enrolled. -/
def NodeEnrolled (world : World) : Prop :=
  ∃ row, world.disk.devices[nodeDevice world.kernel.nodeId]? = some row

/-- The parts that take a human are as they were, and the node has its name. -/
structure HumanPartsKept (first last : World) : Prop where
  stops : first.Same last .stops
  approvals : first.Same last .approvals
  devices : first.Same last .devices
  named : last.kernel.nodeId = first.kernel.nodeId

namespace HumanPartsKept

variable {first middle last : World}

omit [Libraries] in
theorem refl (world : World) : HumanPartsKept world world :=
  ⟨.refl world _, .refl world _, .refl world _, rfl⟩

omit [Libraries] in
theorem trans (head : HumanPartsKept first middle) (tail : HumanPartsKept middle last)
    : HumanPartsKept first last :=
  ⟨head.stops.trans tail.stops, head.approvals.trans tail.approvals,
    head.devices.trans tail.devices, tail.named.trans head.named⟩

theorem of_trail (trail : Trail (Within machineAreas) first last) : HumanPartsKept first last :=
  ⟨same_of_trail trail .stops (by decide), same_of_trail trail .approvals (by decide),
    same_of_trail trail .devices (by decide), (process_of_trail trail).2⟩

end HumanPartsKept

/-- The context of a request without signature is no human's. -/
theorem ctxFor_unsigned {node : RealKernel} {presence : Option Presented} {now : UInt64} {ctx : Ctx}
    (unsigned : ∀ presented, presence = some presented → ¬Verifies node.devices presented.proof)
    (built : ctxFor node presence now = .ok ctx)
    : ctx.principal.isHuman = false := by
  cases principal : ctx.principal with
  | machine nodeId leaseId => rfl
  | human deviceId =>
      obtain ⟨proof, presented, -, verifies⟩ := ctxFor_human built principal
      exact absurd verifies (unsigned _ presented)

/-- Answering a request without signature keeps what takes a human. -/
theorem dispatch_unsigned (daemon : Daemon) {entry : Arrived} (enrolled : NodeEnrolled daemon.world)
    (unsigned : ∀ presented, entry.presence = some presented
      → ¬Verifies daemon.world.kernel.devices presented.proof)
    (nonce : String) (kernelNow : UInt64) (faults : List Fault)
    : HumanPartsKept daemon.world (daemon.dispatch entry nonce kernelNow faults).2.world := by
  obtain ⟨row, present⟩ := enrolled
  have trail : Trail (Within machineAreas) daemon.world
      (serve entry.request entry.presence entry.now kernelNow daemon.world faults).2.1 :=
    serve_machine present (fun ctx built => ctxFor_unsigned unsigned built) faults
  unfold Daemon.dispatch
  split
  · exact .refl daemon.world
  · split
    · exact .refl daemon.world
    · rcases ran : serve entry.request entry.presence entry.now kernelNow daemon.world faults with
        ⟨_ | _ | _, last, rest⟩
      all_goals
        rw [ran] at trail
        exact .of_trail trail

/-- A request under way carries what it came with. -/
theorem carried_of_came {entry : Arrived} {presented : Presented}
    (came : Daemon.Came world turns entry)
    (taken : entry.presence = some presented)
    : entry.request.presence = some presented.proof ∧ .arrive entry.request entry.now ∈ turns := by
  obtain ⟨earlier, turn, later, rfl, rfl, -, -, took⟩ := came
  refine ⟨?_, List.mem_append_right earlier List.mem_cons_self⟩
  rw [taken, Daemon.take] at took
  cases carried : entry.request.presence with
  | none =>
      rw [carried] at took
      cases took
  | some proof =>
      rw [carried] at took
      obtain rfl := Option.some.inj took
      rfl

/-- Without a signature no run changes what takes a human, by induction on the run. -/
theorem run_unsigned (enrolled : NodeEnrolled world)
    (unsigned : ∀ request now, .arrive request now ∈ turns → Unsigned world.kernel.devices request)
    : HumanPartsKept world ((Daemon.start world).run turns).world := by
  induction turns using List.reverseRecOn with
  | nil => exact .refl world
  | append_singleton turns turn ih =>
      have kept := ih fun request now arrived => unsigned request now (List.mem_append_left _ arrived)
      refine kept.trans ?_
      rw [Daemon.run_concat]
      cases turn with
      | arrive request now =>
          rw [Daemon.step]
          split <;> exact .refl _
      | finish number nonce kernelNow faults =>
          rw [Daemon.step]
          split
          · next entry under =>
              have came := (Daemon.underway_came (Daemon.entry_mem under).1).1
              obtain ⟨row, present⟩ := enrolled
              refine dispatch_unsigned (((Daemon.start world).run turns).without number)
                ⟨row, ?_⟩ (fun presented taken => ?_) nonce kernelNow faults
              · change ((Daemon.start world).run turns).world.disk.devices[nodeDevice
                  ((Daemon.start world).run turns).world.kernel.nodeId]? = some row
                rw [kept.named, kept.devices.1]
                exact present
              · obtain ⟨carried, arrived⟩ := carried_of_came came taken
                have unverified := unsigned _ _ (List.mem_append_left _ arrived) _ carried
                change ¬Verifies ((Daemon.start world).run turns).world.kernel.devices _
                rw [kept.devices.2]
                exact unverified
          · exact .refl _

/-- A request is dispatched as a human's only with a signature that verifies over a nonce that was
issued, unexpired and never presented before; no two are over one nonce; and without such a
signature no STOP, RESUME or approval is added and no device of an enrolled node replaced.
-/
theorem presence_ceremony (fresh : Daemon.FreshNonces world turns) (enrolled : NodeEnrolled world)
    : (Throughout turns fun before turn => ∀ entry deviceId,
        DispatchedHuman ((Daemon.start world).run before) turn entry deviceId
          → ∃ proof earlier later, before = earlier ++ .arrive entry.request entry.now :: later
            ∧ TakenAt world earlier entry proof ∧ proof.deviceId = deviceId
            ∧ Verifies ((Daemon.start world).run before).world.kernel.devices proof)
      ∧ (∀ before turn between again after entry other deviceId otherId proof otherProof,
        turns = before ++ turn :: between ++ again :: after
          → DispatchedHuman ((Daemon.start world).run before) turn entry deviceId
          → DispatchedHuman ((Daemon.start world).run (before ++ turn :: between)) again other otherId
          → entry.request.presence = some proof → other.request.presence = some otherProof
          → proof.nonce ≠ otherProof.nonce)
      ∧ ((∀ request now, .arrive request now ∈ turns → Unsigned world.kernel.devices request)
        → HumanPartsKept world ((Daemon.start world).run turns).world) := by
  refine ⟨?_, ?_, run_unsigned enrolled⟩
  · rintro before turn after rfl entry deviceId dispatched
    exact taken_of_human fresh.take dispatched
  · rintro before turn between again after entry other deviceId otherId proof otherProof rfl
      dispatched later carries otherCarries
    exact human_nonces_differ fresh.take dispatched later carries otherCarries

end Ceremony

attribute [local instance] plainLibraries

private def zeroKey : VerifyingKey := ⟨List.replicate 32 0, rfl⟩

/-- A node whose device is enrolled, with a key of zeros. -/
private def enrolledNode : World where
  disk := { devices := .ofList [("node:node", ⟨Hex.encode zeroKey.val, "full"⟩)] compare }
  kernel :=
    { nodeId := "node", stateDir := "state", clock := HlcClock.new "node"
      devices := DeviceRegistry.register {} "node:node" zeroKey }

private def presenceNonce : String := "00000000000000000000000000000000"

private def presenceProof : PresenceProof :=
  ⟨"node:node", presenceNonce,
    Hex.encode (zeroKey.val ++ (PresenceProof.message presenceNonce).take 32)⟩

private def plainParams : Params := ⟨fun _ => none, fun _ => none, .error "", .error ""⟩

private def askTurns : List Turn :=
  [.arrive ⟨"presence.challenge", plainParams, none⟩ 0] ++ [.finish 0 presenceNonce 0 []]

private def stopTurns (presence : Option PresenceProof) : List Turn :=
  askTurns ++ [.arrive ⟨"stop", plainParams, presence⟩ 5] ++ [.finish 1 "" 5 []]

private theorem enrolledNode_enrolled : NodeEnrolled enrolledNode :=
  ⟨⟨Hex.encode zeroKey.val, "full"⟩, by decide +kernel⟩

private theorem presenceProof_verifies : Verifies enrolledNode.kernel.devices presenceProof := by
  refine ⟨⟨zeroKey.val ++ (PresenceProof.message presenceNonce).take 32, by decide +kernel⟩,
    zeroKey, ?_, ?_, ?_⟩
  · decide +kernel
  · decide +kernel
  · decide +kernel

private theorem stopTurns_fresh (presence : Option PresenceProof)
    : Daemon.FreshNonces enrolledNode (stopTurns presence) := by
  unfold stopTurns askTurns Daemon.FreshNonces
  rw [Throughout.concat_iff, Throughout.concat_iff, Throughout.concat_iff, Throughout.single_iff]
  refine ⟨⟨⟨nofun, fun nonce time issues => ⟨fun other issued => ?_, fun presented => ?_⟩⟩, nofun⟩, ?_⟩
  · cases Occurred.single_iff.mp issued
  · cases Occurred.single_iff.mp presented
  · intro nonce time issues
    have none : ((Daemon.start enrolledNode).run (askTurns
        ++ [.arrive ⟨"stop", plainParams, presence⟩ 5])).issues (.finish 1 "" 5 []) = none := by
      cases presence <;> rfl
    exact absurd (none.symm.trans issues) nofun

/-- The signed STOP is a human's, by a proof taken where it came; the unsigned one changes nothing
that takes a human.
-/
theorem signed_stop_is_human
    : (∃ proof earlier later,
        askTurns ++ [.arrive ⟨"stop", plainParams, some presenceProof⟩ 5]
          = earlier ++ .arrive ⟨"stop", plainParams, some presenceProof⟩ 5 :: later
        ∧ TakenAt enrolledNode earlier
          ⟨1, ⟨"stop", plainParams, some presenceProof⟩, some ⟨presenceProof, .ok ()⟩, 5⟩ proof
        ∧ proof.deviceId = "node:node"
        ∧ Verifies ((Daemon.start enrolledNode).run
            (askTurns ++ [.arrive ⟨"stop", plainParams, some presenceProof⟩ 5])).world.kernel.devices
            proof)
      ∧ HumanPartsKept enrolledNode ((Daemon.start enrolledNode).run (stopTurns none)).world := by
  constructor
  · have ceremony := presence_ceremony (stopTurns_fresh (some presenceProof)) enrolledNode_enrolled
    have built := ctxFor_verified presenceProof_verifies 5
    exact ceremony.1 _ _ [] rfl _ "node:node" ⟨1, "", 5, [], _, rfl, rfl, built, rfl⟩
  · refine (presence_ceremony (stopTurns_fresh none) enrolledNode_enrolled).2.2 ?_
    intro request now arrived
    simp only [stopTurns, askTurns, List.cons_append, List.nil_append, List.mem_cons,
      List.not_mem_nil, or_false, Turn.arrive.injEq, reduceCtorEq, false_or] at arrived
    rcases arrived with ⟨rfl, rfl⟩ | ⟨rfl, rfl⟩ <;> exact fun _ carried => by cases carried

end VerticalAI.Correctness
