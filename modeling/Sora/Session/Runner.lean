import Sora.Session.World

/-!
# The session

`Start`, `Stop`, `SetKillSwitch`, `Select` and the supervising loop as programs over the
operations of the service.
-/

set_option linter.dupNamespace false

namespace Sora.Session

open Sora.Lib Sora.Engine Sora.Guard

def Err.entry (err : Err) : Event := { kind := .error, reason := err.code, key := err.key }

/-- `fail`: records the cause and enters failed. -/
def fail (i : Nat) (err : Err) : Prog Op Unit := do
  .op (.setState i .failed err.code err.key)
  .op (.append i err.entry)

/-- `restoreGuard`: reverts only settings this session applied. -/
def restoreGuard (i : Nat) : Prog Op (Option Err) := do
  .op (.lockGuard i)
  if ← .op (.readGuardApplied i) then
    match ← .op (.guardRestore i) with
    | some err => do
      .op (.unlockGuard i)
      pure (some err)
    | none => do
      .op (.setGuardApplied i false)
      .op (.unlockGuard i)
      pure none
  else do
    .op (.unlockGuard i)
    pure none

/-- The engine part of `Start`: an engine without its adapter is stopped again, and what
that stop answers is ignored. -/
def startEngine (i : Nat) : Prog Op (Option Err) := do
  match ← .op (.engineApply i .start) with
  | some err => pure (some (err.wrap .unavailable keyEngineStartFailed))
  | none => do
    let plan ← .op (.readPlan i)
    if plan.tun.enabled && plan.tun.deviceName != [] then
      match ← .op (.tunUp i) with
      | some err => do
        let _ ← .op (.engineStop i .adapter)
        pure (some err)
      | none => pure none
    else pure none

/-- `Start`.  On success it leaves the supervising loop running. -/
def start (i : Nat) : Prog Op (Option Err) := do
  match ← .op (.beginStart i) with
  | some _ => pure (some ⟨.failedPrecondition, keySessionBusy⟩)
  | none =>
    match ← .op (.engineValidate i) with
    | some err => do
      let wrapped := err.wrap .invalidArgument keyPlanOutbounds
      fail i wrapped
      pure (some wrapped)
    | none => do
      .op (.setGuardApplied i true)
      let settings ← .op (.settings i)
      match ← .op (.guardApply i .start settings) with
      | some err => do
        let wrapped := err.wrap .failedPrecondition keyGuardFirewallFail
        fail i wrapped
        pure (some wrapped)
      | none =>
        match ← startEngine i with
        | some err => do
          match ← restoreGuard i with
          | some restoreErr =>
            .op (.append i { kind := .error, reason := restoreErr.code, key := keyGuardRestoreFailed })
          | none => pure ()
          fail i err
          pure (some err)
        | none => do
          .op (.setState i .connected .none [])
          pure none

/-- A `Stop` of a session that is stopping already. -/
def stopAgain (i : Nat) : Prog Op (Option Err) := do
  let stopErr ←
    if (← .op (.engineState i)) = .stopped then pure none
    else .op (.engineStop i .againStop)
  match stopErr with
  | some err => pure (some (err.wrap .internal keyGuardRestoreFailed))
  | none => do
    let restoreErr ← restoreGuard i
    pure (restoreErr.map (·.wrap .internal keyGuardRestoreFailed))

/-- The first `Stop` of a session.  The guard is restored whatever the engine's stop
answered. -/
def stopFirst (i : Nat) : Prog Op (Option Err) := do
  .op (.cancel i)
  let stopErr ← .op (.engineStop i .firstStop)
  let restoreErr ← restoreGuard i
  .op (.setState i .disconnected .none [])
  .op (.finishStop i)
  pure ((stopErr.or restoreErr).map (·.wrap .internal keyGuardRestoreFailed))

/-- `Stop`. -/
def stop (i : Nat) : Prog Op (Option Err) := do
  if ← .op (.beginStop i) then stopAgain i else stopFirst i

/-- `SetKillSwitch`. -/
def setKillSwitch (i : Nat) (enabled : Bool) : Prog Op (Option Err) := do
  .op (.lockGuard i)
  match ← .op (.checkKillSwitch i enabled) with
  | .error _ => do
    .op (.unlockGuard i)
    pure (some ⟨.failedPrecondition, keySessionRequired⟩)
  | .ok settings =>
    match ← .op (.guardApply i .setKillSwitch settings) with
    | some err => do
      .op (.unlockGuard i)
      pure (some (err.wrap .internal keyGuardFirewallFail))
    | none => do
      .op (.commitKillSwitch i enabled)
      .op (.unlockGuard i)
      pure none

/-- `Select`: the state is read and journaled in two sections. -/
def select (i : Nat) (group target : Bytes) : Prog Op (Option Err) := do
  match ← .op (.engineSelect i group target) with
  | some err => pure (some err)
  | none => do
    let state ← .op (.readState i)
    .op (.append i { kind := .state, state := state, key := keySelectionChanged })
    pure none

/-- `setStateReconnecting`: the move is made under the lock and journaled after it. -/
def setStateReconnecting (i : Nat) (reason : Code) (key : Key) (delay : Nat) : Prog Op Unit := do
  if ← .op (.beginReconnecting i reason key delay) then
    .op (.append i
      { kind := .state, state := .reconnecting, reason := reason, key := key, retryAfter := delay })
  else pure ()

/-! ## The supervising loop -/

/-- `publishCounters`. -/
def publishCounters (i : Nat) : Prog Op Unit := do
  match ← .op (.engineCounters i) with
  | some _ => pure ()
  | none => .op (.append i { kind := .counters })

/-- The error that an engine event carries, or that the engine stopped. -/
def engineErr (err : Option Err) : Err := err.getD ⟨.unavailable, keyEngineStopped⟩

/-- The journal entry of an engine event. -/
def engineEntry : EngineEvent → Event
  | .state _ => { kind := .log }
  | .counters => { kind := .counters }
  | .group => { kind := .probe }
  | .restart => { kind := .probe }
  | .down err => (engineErr err).entry
  | .fatal err => (engineErr err).entry
  | .other => { kind := .log }

/-- `publishEngineEvent`. -/
def publishEngineEvent (i : Nat) (ev : EngineEvent) : Prog Op Unit :=
  .op (.append i (engineEntry ev))

/-- The member that each watched group had at the last look. -/
abbrev Fallbacks := List (Bytes × Bytes)

def Fallbacks.set (group selected : Bytes) (last : Fallbacks) : Fallbacks :=
  last.map fun entry => if entry.1 = group then (group, selected) else entry

/-- The loop of `noticeFallbacks` over the groups of one reading. -/
def noticeGroups (i : Nat) : List GroupReading → Fallbacks → Prog Op Fallbacks
  | [], last => pure last
  | g :: rest, last =>
    match last.lookup g.name with
    | none => noticeGroups i rest last
    | some before =>
      if g.selected = [] ∨ g.selected = before ∨ g.latency ≤ 0 then noticeGroups i rest last
      else if before = [] then noticeGroups i rest (last.set g.name g.selected)
      else do
        .op (.append i { kind := .group, switch := some ⟨g.name, before, g.selected⟩ })
        noticeGroups i rest (last.set g.name g.selected)

variable {σ : Type} {s : σ} {i : Nat} {D : Discipline Op σ}

/-- A phase that journal entries about groups keep is kept by the loop over them. -/
theorem noticeGroups_wp (appends : ∀ ev : Event, ev.kind = .group → D.allowed s (.append i ev) ∧ ∀
    b, D.next s (.append i ev) b = s) (groups : List GroupReading) (last : Fallbacks)
    {Q : Fallbacks → σ → Prop} (post : ∀ r, Q r s) :
    (noticeGroups i groups last).wp D.transformer Q s := by
  induction groups generalizing last with
  | nil => exact post _
  | cons g rest ih =>
    rw [noticeGroups]
    split
    · exact ih _
    · split
      · exact ih _
      · split
        · exact ih _
        · refine ⟨(appends _ rfl).1, fun b _ => ?_⟩
          rw [(appends _ rfl).2 b]
          exact ih _

/-- `noticeFallbacks`. -/
def noticeFallbacks (i : Nat) (last : Fallbacks) : Prog Op Fallbacks := do
  match ← .op (.engineGroups i) with
  | none => pure last
  | some groups => noticeGroups i groups last

/-- `renewConnections`: engines without bulk close apply the plan again. -/
def renewConnections (i : Nat) : Prog Op Unit := do
  if (← .op (.readState i)) = .connected then
    .op (.append i { kind := .log })
    match ← .op (.closeConnections i) with
    | none => pure ()
    | some _ =>
      match ← .op (.engineApply i .renew) with
      | none => pure ()
      | some _ => .op (.append i { kind := .error, reason := .unavailable, key := keyEngineStartFailed })
  else pure ()

/-- `supervise`, for at most `n` turns of its loop; the loop closes `done` when it returns. -/
def supervise (i : Nat) : Nat → Fallbacks → Prog Op Unit
  | 0, _ => pure ()
  | n + 1, last => do
    match ← .op (.nextWork i) with
    | .done => .op (.closeDone i)
    | .closed => .op (.closeDone i)
    | .tick => do
      publishCounters i
      supervise i n last
    | .look =>
      -- while the engine restarts, a look may reach the process that is going away
      if (← .op (.readState i)) = .connected then
        let last ← noticeFallbacks i last
        supervise i n last
      else supervise i n last
    | .network changed => do
      if changed then renewConnections i else pure ()
      supervise i n last
    | .event ev => do
      publishEngineEvent i ev
      match ev with
      | .down err => do
        setStateReconnecting i (engineErr err).code (engineErr err).key 0
        supervise i n last
      | .state .running =>
        if (← .op (.readState i)) = .reconnecting then
          .op (.setState i .connected .none [])
          supervise i n (last.map fun entry => (entry.1, []))
        else supervise i n last
      | .fatal _ => do
        fail i ⟨.unavailable, keyEngineStopped⟩
        .op (.closeDone i)
      | _ => supervise i n last

/-- The operations of the loop. -/
def Op.supervises {β : Type} (i : Nat) : Op β → Bool
  | .nextWork k | .readState k | .append k _ | .setState k _ _ _ | .beginReconnecting k _ _ _
  | .closeDone k | .engineCounters k | .engineGroups k | .closeConnections k => k == i
  | .engineApply k site => k == i && site == .renew
  | _ => false

/-- A phase that every operation of the loop keeps is kept by the loop. -/
theorem supervise_wp (quiet : ∀ {β : Type} (op : Op β), op.supervises i = true → D.allowed s op ∧ ∀
    b, D.next s op b = s) (turns : Nat) (last : Fallbacks) {Q : Unit → σ → Prop} (post : Q () s) :
    (supervise i turns last).wp D.transformer Q s := by
  have call {β : Type} {op : Op β} {R : β → σ → Prop} (rest : ∀ b, R b s)
      (is : op.supervises i = true := by simp [Op.supervises]) : D.transformer.call op R s := by
    refine ⟨(quiet op is).1, fun b _ => ?_⟩
    rw [(quiet op is).2 b]
    exact rest b
  induction turns generalizing last with
  | zero => exact post
  | succ n ih =>
    simp only [supervise, Prog.wp_bind, Prog.wp_op]
    refine call fun work => ?_
    cases work with
    | done | closed => exact call fun _ => post
    | tick =>
      refine call fun failed => ?_
      cases failed with
      | none => exact call fun _ => ih last
      | some err => exact ih last
    | look =>
      simp only [Prog.wp_bind, Prog.wp_op]
      refine call fun state => ?_
      split
      · simp only [Prog.wp_bind]
        refine call fun reading => ?_
        cases reading with
        | none => exact ih last
        | some groups =>
          exact noticeGroups_wp (fun ev _ => quiet (.append i ev) (by simp [Op.supervises]))
            groups last fun _ => ih _
      · exact ih last
    | network changed =>
      cases changed with
      | false => exact ih last
      | true =>
        simp only [if_true, renewConnections, Prog.wp_bind, Prog.wp_op]
        refine call fun state => ?_
        split
        · refine call fun _ => call fun closed => ?_
          cases closed with
          | none => exact ih last
          | some err =>
            refine call fun applied => ?_
            cases applied with
            | none => exact ih last
            | some err => exact call fun _ => ih last
        · exact ih last
    | event ev =>
      simp only [Prog.wp_bind]
      refine call fun _ => ?_
      cases ev with
      | down err =>
        refine call fun moved => ?_
        cases moved with
        | true => exact call fun _ => ih last
        | false => exact ih last
      | fatal err =>
        exact call fun _ => call fun _ => call fun _ => post
      | state next =>
        cases next with
        | running =>
          simp only [Prog.wp_bind, Prog.wp_op]
          refine call fun state => ?_
          split
          · exact call fun _ => ih _
          · exact ih last
        | _ => exact ih last
      | _ => exact ih last

/-- The watched groups at the start of the loop. -/
def Fallbacks.initial (plan : Plan) : Fallbacks := plan.fallbacks.map fun name => (name, [])

/-! ## Calls on a session -/

/-- What the goroutines of the core do with one session. -/
inductive SessionCall where
  | start
  | stop
  | setKillSwitch (enabled : Bool)
  | select (group target : Bytes)
  | supervise (turns : Nat) (last : Fallbacks)
  | status

def SessionCall.program (i : Nat) : SessionCall → Prog Op Unit
  | .start => (Session.start i).ignore
  | .stop => (Session.stop i).ignore
  | .setKillSwitch enabled => (Session.setKillSwitch i enabled).ignore
  | .select group target => (Session.select i group target).ignore
  | .supervise turns last => Session.supervise i turns last
  | .status => (Prog.op (.readStatus i)).ignore

end Sora.Session
