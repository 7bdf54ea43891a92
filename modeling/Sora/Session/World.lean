import Sora.Engine.Render
import Sora.Guard.Guard
import Sora.Lib.Prog

/-!
# The world of the session service

The state that the goroutines of the core share (sessions with their journals and engines,
the guard, the manager) and the atomic operations on it.  An operation is one section under
a lock of the source, or one call of an engine, of the guard or of the platform, with the
outcome the environment chooses.
-/

set_option linter.dupNamespace false

namespace Sora.Session

open Sora.Lib Sora.Engine Sora.Guard Function

/-! ## Engines -/

/-- `engine.State`. -/
inductive EngineState where
  | idle
  | starting
  | running
  | applying
  | recovering
  | stopping
  | stopped
  | failed
  deriving DecidableEq, Repr

/-- The engine of a session.  `live` tells whether a process may be running: a successful
start sets it, and only a successful stop clears it for certain.  `rendered` is the plan
that the engine's last configuration was made from. -/
structure EngineUnit where
  kind : Kind
  state : EngineState
  live : Bool
  rendered : Option Plan

/-- The events of an engine that the session tells apart. -/
inductive EngineEvent where
  | state (s : EngineState)
  | counters
  | group
  | restart
  | down (err : Option Err)
  | fatal (err : Option Err)
  | other
  deriving DecidableEq

/-- What wakes the supervising loop. -/
inductive Work where
  | done
  | tick
  | look
  | network (changed : Bool)
  | event (ev : EngineEvent)
  | closed
  deriving DecidableEq

/-- One group as the engine reports it, with the latency of its selected member. -/
structure GroupReading where
  name : Bytes
  selected : Bytes
  latency : Int
  deriving DecidableEq

/-! ## Sessions and the manager -/

/-- `session.Session`.  `log` holds every event of its journal in sequence order. -/
structure Session where
  plan : Plan
  state : State
  status : Status
  stopping : Bool
  cancelled : Bool
  guardApplied : Bool
  /-- The thread that holds `guardMu`. -/
  guardMu : Option Nat
  /-- Whether the channel `done` has been closed. -/
  done : Bool
  log : List Event

/-- `session.Manager`. -/
structure Manager where
  current : Option Nat
  last : Status
  busy : Bool

def Status.initial (settings : Settings) : Status where
  state := .disconnected
  sessionID := []
  reason := .none
  key := []
  retryAfter := 0
  killSwitch := settings.killSwitch
  bypass := settings.bypass
  tunnelMode := settings.tunnelMode

/-- `session.New`. -/
def Session.new (plan : Plan) (settings : Settings) : Session where
  plan := plan
  state := .disconnected
  status := .initial settings
  stopping := false
  cancelled := false
  guardApplied := false
  guardMu := none
  done := false
  log := []

/-- The call sites of an engine that behave differently after a failure. -/
inductive Site where
  | start
  | renew
  | adapter
  | firstStop
  | againStop
  deriving DecidableEq, Repr

/-- The calls that apply settings to the guard. -/
inductive Caller where
  | start
  | setKillSwitch
  deriving DecidableEq, Repr

/-- The outside calls that happened, oldest first.  No function of the service reads them. -/
inductive Outside where
  | engineApply (i : Nat) (site : Site) (err : Option Err)
  | engineStop (i : Nat) (site : Site) (err : Option Err)
  | engineClose (i : Nat) (err : Option Err)
  | guardApply (i : Nat) (caller : Caller) (killSwitch : Bool) (err : Option Err)
  | guardRestore (i : Nat) (err : Option Err)
  deriving DecidableEq

structure World where
  guard : Guard
  sessions : Nat → Session
  engines : Nat → EngineUnit
  manager : Manager
  /-- The number of sessions that were created. -/
  created : Nat
  history : List Outside

/-- Nothing has been called yet. -/
def World.idle (backend : Backend) (plan : Plan) (settings : Settings) : World where
  guard := .initial backend
  sessions _ := .new plan settings
  engines _ := ⟨.singBox, .idle, false, none⟩
  manager := ⟨none, .initial .empty, false⟩
  created := 1
  history := []

/-- No session of this world has been called yet. -/
structure World.Untouched (w : World) : Prop where
  guard : ∃ backend, w.guard = .initial backend
  sessions : ∀ i, ∃ plan settings, w.sessions i = .new plan settings
  engines : ∀ i, (w.engines i).live = false
  current : w.manager.current = none
  busy : w.manager.busy = false

/-! ## Session sections -/

namespace Session

/-- `Journal.Append`, as far as the order of the events goes. -/
def append (ev : Event) (s : Session) : Session := { s with log := s.log ++ [ev] }

/-- `setStateLocked`: an illegal move is discarded. -/
def setStateLocked (next : State) (reason : Code) (key : Key) (s : Session) : Session :=
  if canTransition s.state next then
    { s with
      state := next
      status :=
        { state := next
          sessionID := s.status.sessionID
          reason := reason
          key := key
          retryAfter := 0
          killSwitch := s.status.killSwitch
          bypass := s.status.bypass
          tunnelMode := s.status.tunnelMode }
      log := s.log ++ [{ kind := .state, state := next, reason := reason, key := key }] }
  else s

@[simp] theorem setStateLocked_killSwitch (next : State) (reason : Code) (key : Key)
    (s : Session) :
    (s.setStateLocked next reason key).status.killSwitch = s.status.killSwitch := by
  unfold setStateLocked
  split <;> rfl

/-- The locked part of `setStateReconnecting`: whether the move was made. -/
def beginReconnecting (reason : Code) (key : Key) (delay : Nat) (s : Session) : Bool × Session :=
  if canTransition s.state .reconnecting then
    (true, { s with
      state := .reconnecting
      status := { s.status with
        state := .reconnecting, reason := reason, key := key, retryAfter := delay } })
  else (false, s)

/-- The first section of `Start`: the state that forbids it, or the move to connecting. -/
def beginStart (s : Session) : Option State × Session :=
  if s.state = .disconnected then
    (none, setStateLocked .connecting .none []
      { s with status := { s.status with sessionID := s.plan.sessionID } })
  else (some s.state, s)

/-- `settingsLocked`. -/
def settingsLocked (s : Session) : Settings where
  tunNetworks := s.plan.tun.networks
  fakeIPRange := parsePrefix s.plan.dns.fakeIPRange
  killSwitch := s.status.killSwitch
  bypass := s.status.bypass
  tunnelMode := s.status.tunnelMode

/-- The check of `SetKillSwitch`: the settings to apply, unless the state forbids it. -/
def checkKillSwitch (enabled : Bool) (s : Session) : Except State Settings :=
  if s.stopping || (enabled && s.state.terminal) || (!enabled && s.state == .disconnected) then
    .error s.state
  else .ok { s.settingsLocked with killSwitch := enabled }

/-- The last section of `SetKillSwitch`. -/
def commitKillSwitch (enabled : Bool) (s : Session) : Session :=
  { s with guardApplied := true, status := { s.status with killSwitch := enabled } }

/-- The first section of `Stop`: whether the session was stopping already. -/
def beginStop (s : Session) : Bool × Session :=
  if s.stopping then (true, s) else (false, { s with stopping := true })

end Session

variable {i j : Nat} {w w' : World} {β : Type}

namespace World

@[simps guard engines manager created history]
def setSession (i : Nat) (s : Session) (w : World) : World :=
  { w with sessions := Function.update w.sessions i s }

@[simps guard sessions manager created history]
def setEngine (i : Nat) (e : EngineUnit) (w : World) : World :=
  { w with engines := Function.update w.engines i e }

@[simps]
def record (o : Outside) (w : World) : World := { w with history := w.history ++ [o] }

section Fields

variable (w : World) (i : Nat) (s : Session) (e : EngineUnit)

@[simp] theorem setSession_same : (w.setSession i s).sessions i = s := update_self ..

@[simp] theorem setSession_other (ne : j ≠ i) :
    (w.setSession i s).sessions j = w.sessions j := update_of_ne ne ..

@[simp] theorem setEngine_same : (w.setEngine i e).engines i = e := update_self ..

@[simp] theorem setEngine_other (ne : j ≠ i) :
    (w.setEngine i e).engines j = w.engines j := update_of_ne ne ..

end Fields

end World

/-! ## Operations -/

inductive Op : Type → Type where
  -- sections under the lock of session `i`
  | beginStart (i : Nat) : Op (Option State)
  | readPlan (i : Nat) : Op Plan
  | readState (i : Nat) : Op State
  | readStatus (i : Nat) : Op Status
  | settings (i : Nat) : Op Settings
  | setGuardApplied (i : Nat) (applied : Bool) : Op Unit
  | readGuardApplied (i : Nat) : Op Bool
  | setState (i : Nat) (next : State) (reason : Code) (key : Key) : Op Unit
  | beginReconnecting (i : Nat) (reason : Code) (key : Key) (delay : Nat) : Op Bool
  | checkKillSwitch (i : Nat) (enabled : Bool) : Op (Except State Settings)
  | commitKillSwitch (i : Nat) (enabled : Bool) : Op Unit
  | beginStop (i : Nat) : Op Bool
  | cancel (i : Nat) : Op Unit
  | finishStop (i : Nat) : Op Unit
  | closeDone (i : Nat) : Op Unit
  -- its other lock and its journal
  | lockGuard (i : Nat) : Op Unit
  | unlockGuard (i : Nat) : Op Unit
  | append (i : Nat) (ev : Event) : Op Unit
  -- its engine
  | engineValidate (i : Nat) : Op (Option Err)
  | engineApply (i : Nat) (site : Site) : Op (Option Err)
  | engineStop (i : Nat) (site : Site) : Op (Option Err)
  | engineClose (i : Nat) : Op Unit
  | engineState (i : Nat) : Op EngineState
  | engineSelect (i : Nat) (group target : Bytes) : Op (Option Err)
  | engineCounters (i : Nat) : Op (Option Err)
  | engineGroups (i : Nat) : Op (Option (List GroupReading))
  | closeConnections (i : Nat) : Op (Option Err)
  | tunUp (i : Nat) : Op (Option Err)
  | nextWork (i : Nat) : Op Work
  -- the guard, on behalf of session `i`
  | guardApply (i : Nat) (caller : Caller) (settings : Settings) : Op (Option Err)
  | guardRestore (i : Nat) : Op (Option Err)
  -- the manager
  | beginCall : Op (Option (Option Nat))
  | release : Op Unit
  | prepareTun (plan : Plan) : Op (Option TunError × Plan)
  | factory (plan : Plan) : Op (Except Err Nat)
  | newSession (i : Nat) (plan : Plan) (settings : Settings) : Op (Option Err)
  | ctxErr : Op (Option Err)
  | setLast (status : Status) : Op Unit
  | setCurrent (current : Option Nat) : Op Unit
  | commitCurrent (i : Nat) : Op Unit
  | current : Op (Option Nat)
  | managerStatus : Op (Option Nat × Status)

/-- What the environment decides when an operation runs. -/
structure Choice where
  /-- The outcome of a call that can fail. -/
  err : Option Err := none
  faults : PlatformFaults := {}
  /-- What a failed engine call leaves behind. -/
  live : Bool := false
  engineState : EngineState := .failed
  rendered : Bool := true
  interfaces : Option (List Prefix) := some []
  groups : List GroupReading := []
  work : Work := .tick
  kind : Kind := .singBox

namespace EngineUnit

/-- An engine that has not been started. -/
def new (kind : Kind) : EngineUnit := ⟨kind, .idle, false, none⟩

/-- After a successful `Apply` of a plan. -/
def started (plan : Plan) (e : EngineUnit) : EngineUnit :=
  { e with state := .running, live := true, rendered := some plan }

/-- After a failed `Apply`: the engine refused the plan and is as before, or it is in some
state other than stopped, with or without a process and a new configuration. -/
def startFailed (c : Choice) (plan : Plan) (e : EngineUnit) : EngineUnit :=
  if c.engineState = .stopped then e
  else
    { e with
      state := c.engineState
      live := c.live
      rendered := if c.rendered then some plan else e.rendered }

/-- After `Stop` or `Close` with the given outcome. -/
def stop (c : Choice) (e : EngineUnit) : EngineUnit :=
  match c.err with
  | none => { e with state := .stopped, live := false }
  | some _ => { e with state := .failed, live := e.live && c.live }

theorem stop_live (c : Choice) (e : EngineUnit) :
    (e.stop c).live = true → e.live = true ∧ c.err.isNone = false := by
  unfold stop
  split
  · rintro ⟨⟩
  · rename_i err
    intro live
    exact ⟨(Bool.and_eq_true_iff.mp live).1, by rw [err]; rfl⟩

end EngineUnit

variable {b : β} {f : Session → β × Session}

namespace World

/-- `Engine.Apply`: the addresses are prepared again on the plan that session and engine
share, then the engine is started or moved to it. -/
def engineApply (c : Choice) (i : Nat) (site : Site) (w : World) : Option Err × World :=
  let s := w.sessions i
  let e := w.engines i
  let (refused, plan) := prepareTun s.plan c.interfaces
  let err := if refused.isSome then some ⟨.internal, ascii "core.internal.unexpected"⟩ else c.err
  let unit :=
    if refused.isSome then e else if c.err.isNone then e.started plan else e.startFailed c plan
  (err, ((w.setSession i { s with plan := plan }).setEngine i unit).record
    (.engineApply i site err))

/-- `Engine.Stop`. -/
def engineStop (c : Choice) (i : Nat) (site : Site) (w : World) : Option Err × World :=
  (c.err, (w.setEngine i ((w.engines i).stop c)).record (.engineStop i site c.err))

/-- `Engine.Close`, whose error every caller ignores. -/
def engineClose (c : Choice) (i : Nat) (w : World) : World :=
  (w.setEngine i ((w.engines i).stop c)).record (.engineClose i c.err)

def guardApply (c : Choice) (i : Nat) (caller : Caller) (settings : Settings) (w : World) :
    Option Err × World :=
  let (err, g) := w.guard.apply c.faults settings
  (err, { w with guard := g }.record (.guardApply i caller settings.killSwitch err))

def guardRestore (c : Choice) (i : Nat) (w : World) : Option Err × World :=
  let (err, g) := w.guard.restore c.faults
  (err, { w with guard := g }.record (.guardRestore i err))

/-- A section that changes one session and answers. -/
def onSession {β : Type} (i : Nat) (f : Session → β × Session) (w : World) :
    Option (β × World) :=
  some ((f (w.sessions i)).1, w.setSession i (f (w.sessions i)).2)

/-- Such a section leaves every other session alone. -/
theorem onSession_cases (step : onSession i f w = some (b, w')) (j : Nat) :
    (j ≠ i ∧ w'.sessions j = w.sessions j) ∨
      (j = i ∧ b = (f (w.sessions j)).1 ∧ w'.sessions j = (f (w.sessions j)).2) := by
  cases step
  by_cases same : j = i
  · subst same
    exact .inr ⟨rfl, rfl, setSession_same ..⟩
  · exact .inl ⟨same, setSession_other _ _ _ same⟩

def onManager {β : Type} (f : Manager → β × Manager) (w : World) : Option (β × World) :=
  some ((f w.manager).1, { w with manager := (f w.manager).2 })

end World

open World in
/-- What an operation of thread `t` does. -/
def perform {β : Type} (t : Nat) (c : Choice) (op : Op β) (w : World) : Option (β × World) :=
  match op with
  | .beginStart i => onSession i Session.beginStart w
  | .readPlan i => some ((w.sessions i).plan, w)
  | .readState i => some ((w.sessions i).state, w)
  | .readStatus i => some ((w.sessions i).status, w)
  | .settings i => some ((w.sessions i).settingsLocked, w)
  | .setGuardApplied i applied => onSession i (fun s => ((), { s with guardApplied := applied })) w
  | .readGuardApplied i => some ((w.sessions i).guardApplied, w)
  | .setState i next reason key =>
    onSession i (fun s => ((), s.setStateLocked next reason key)) w
  | .beginReconnecting i reason key delay =>
    onSession i (Session.beginReconnecting reason key delay) w
  | .checkKillSwitch i enabled => some ((w.sessions i).checkKillSwitch enabled, w)
  | .commitKillSwitch i enabled => onSession i (fun s => ((), s.commitKillSwitch enabled)) w
  | .beginStop i => onSession i Session.beginStop w
  | .cancel i => onSession i (fun s => ((), { s with cancelled := true })) w
  | .finishStop i => some ((), w.engineClose c i)
  | .closeDone i => onSession i (fun s => ((), { s with done := true })) w
  | .lockGuard i =>
    if (w.sessions i).guardMu.isSome then none
    else onSession i (fun s => ((), { s with guardMu := some t })) w
  | .unlockGuard i => onSession i (fun s => ((), { s with guardMu := none })) w
  | .append i ev => onSession i (fun s => ((), s.append ev)) w
  | .engineValidate _ => some (c.err, w)
  | .engineApply i site => some (w.engineApply c i site)
  | .engineStop i site => some (w.engineStop c i site)
  | .engineClose i => some ((), w.engineClose c i)
  | .engineState i => some ((w.engines i).state, w)
  | .engineSelect _ _ _ => some (c.err, w)
  | .engineCounters _ => some (c.err, w)
  | .engineGroups _ => some (if c.err.isNone then some c.groups else none, w)
  | .closeConnections _ => some (c.err, w)
  | .tunUp _ => some (c.err, w)
  | .nextWork i =>
    -- the context of the loop and its subscription end only after `Stop` has cancelled it
    if (c.work = .done ∨ c.work = .closed) ∧ (w.sessions i).cancelled = false then none
    else some (c.work, w)
  | .guardApply i caller settings => some (w.guardApply c i caller settings)
  | .guardRestore i => some (w.guardRestore c i)
  | .beginCall =>
    onManager (fun m => if m.busy then (none, m) else (some m.current, { m with busy := true })) w
  | .release => onManager (fun m => ((), { m with busy := false })) w
  | .prepareTun plan => some (prepareTun plan c.interfaces, w)
  | .factory _ =>
    match c.err with
    | some err => some (.error err, w)
    | none =>
      some (.ok w.created,
        { w.setEngine w.created (EngineUnit.new c.kind) with created := w.created + 1 })
  | .newSession i plan settings =>
    match c.err with
    | some err => some (some err, w)
    | none => some (none, w.setSession i (Session.new plan settings))
  | .ctxErr => some (c.err, w)
  | .setLast status => onManager (fun m => ((), { m with last := status })) w
  | .setCurrent current => onManager (fun m => ((), { m with current := current })) w
  | .commitCurrent i =>
    onManager (fun m => ((), { m with current := some i, last := (w.sessions i).status })) w
  | .current => some (w.manager.current, w)
  | .managerStatus => some ((w.manager.current, w.manager.last), w)

/-- The session whose lock section, engine or guard an operation is about. -/
@[simp] def Op.session {β : Type} : Op β → Option Nat
  | .beginStart i | .readPlan i | .readState i | .readStatus i | .settings i
  | .setGuardApplied i _ | .readGuardApplied i | .setState i _ _ _ | .beginReconnecting i _ _ _
  | .checkKillSwitch i _ | .commitKillSwitch i _ | .beginStop i | .cancel i | .finishStop i
  | .closeDone i | .lockGuard i | .unlockGuard i | .append i _ | .engineValidate i | .engineApply i _
  | .engineStop i _ | .engineClose i | .engineState i | .engineSelect i _ _ | .engineCounters i
  | .engineGroups i | .closeConnections i | .tunUp i | .nextWork i | .guardApply i _ _
  | .guardRestore i => some i
  | _ => none

/-- Two worlds that differ at most in session `i`, its engine, the guard and the history. -/
structure World.SameBut (i : Nat) (w w' : World) : Prop where
  sessions : ∀ j, j ≠ i → w'.sessions j = w.sessions j
  engines : ∀ j, j ≠ i → w'.engines j = w.engines j
  manager : w'.manager = w.manager
  created : w'.created = w.created

namespace World.SameBut

theorem refl (i : Nat) (w : World) : SameBut i w w := ⟨fun _ _ => rfl, fun _ _ => rfl, rfl, rfl⟩

theorem trans {w'' : World} (first : SameBut i w w') (second : SameBut i w' w'') :
    SameBut i w w'' where
  sessions j ne := (second.sessions j ne).trans (first.sessions j ne)
  engines j ne := (second.engines j ne).trans (first.engines j ne)
  manager := second.manager.trans first.manager
  created := second.created.trans first.created

theorem onSession (step : onSession i f w = some (b, w')) : SameBut i w w' := by
  cases step
  exact ⟨fun _ ne => setSession_other _ _ _ ne, fun _ _ => rfl, rfl, rfl⟩

theorem engineClose (c : Choice) (i : Nat) (w : World) : SameBut i w (w.engineClose c i) :=
  ⟨fun _ _ => rfl, fun _ ne => setEngine_other _ _ _ ne, rfl, rfl⟩

/-- An operation of a session leaves the other sessions and the manager alone. -/
theorem of_perform {t : Nat} {c : Choice} {op : Op β} (step : perform t c op w = some (b, w'))
    (of : op.session = some i) : SameBut i w w' := by
  cases op <;> cases of <;> simp only [perform] at step
  case finishStop | engineClose =>
    cases step
    exact engineClose c i w
  case lockGuard =>
    split at step
    · cases step
    · exact onSession step
  case nextWork =>
    split at step
    · cases step
    · cases step
      exact refl i w
  case engineApply =>
    cases step
    exact ⟨fun _ ne => setSession_other _ _ _ ne, fun _ ne => setEngine_other _ _ _ ne, rfl, rfl⟩
  case engineStop =>
    cases step
    exact ⟨fun _ _ => rfl, fun _ ne => setEngine_other _ _ _ ne, rfl, rfl⟩
  case guardApply | guardRestore =>
    cases step
    exact ⟨fun _ _ => rfl, fun _ _ => rfl, rfl, rfl⟩
  all_goals first
    | exact onSession step
    | (cases step; exact refl i w)

end World.SameBut

/-- The machine of the session service. -/
def machine : Machine Op World where
  Choice := Choice
  perform := perform

end Sora.Session
