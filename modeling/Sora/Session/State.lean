import Sora.Engine.Tun

/-!
# Session states, settings and events

The values that sessions, guards and the session manager exchange: the state machine with
its legal moves, error classes, the settings a session asks of the system, the status that
clients see and the events of the journal.
-/

namespace Sora.Session

open Sora.Lib Sora.Engine

/-! ## The state machine -/

inductive State where
  | disconnected
  | connecting
  | connected
  | reconnecting
  | failed
  deriving DecidableEq, Repr

def allowedTransitions : State → List State
  | .disconnected => [.connecting]
  | .connecting => [.connected, .reconnecting, .failed, .disconnected]
  | .connected => [.reconnecting, .disconnected, .failed]
  | .reconnecting => [.connected, .failed, .disconnected]
  | .failed => [.connecting, .disconnected]

/-- `canTransition`: whether `target` is a legal move from `source`. -/
def canTransition (source target : State) : Bool := (allowedTransitions source).contains target

/-- `State.terminal`: no further progress happens without a new command. -/
def State.terminal (s : State) : Bool := s == .failed || s == .disconnected

/-! ## Errors -/

/-- `errs.Code`; the empty code stands for no error. -/
inductive Code where
  | none
  | versionMismatch
  | invalidArgument
  | unauthenticated
  | permissionDenied
  | notFound
  | failedPrecondition
  | resourceExhausted
  | deadlineExceeded
  | cancelled
  | timeout
  | unavailable
  | tls
  | unsupported
  | internal
  deriving DecidableEq, Repr

/-- `errs.Key`, a localization key; the empty key stands for no error. -/
abbrev Key := Bytes

def keySessionBusy : Key := ascii "core.session.busy"
def keySessionRequired : Key := ascii "core.session.required"
def keySelectionChanged : Key := ascii "core.session.selection_changed"
def keyPlanOutbounds : Key := ascii "core.plan.outbounds_invalid"
def keyPlanTunnel : Key := ascii "core.plan.tunnel_unsupported"
def keyEngineStartFailed : Key := ascii "core.engine.start_failed"
def keyEngineStopped : Key := ascii "core.engine.stopped"
def keyGuardFirewallFail : Key := ascii "core.guard.firewall_failed"
def keyGuardRestoreFailed : Key := ascii "core.guard.restore_failed"

/-- What clients learn of an error. -/
structure Err where
  code : Code
  key : Key
  deriving DecidableEq, Repr

/-- `errs.Wrap`: new catalog metadata for an error. -/
def Err.wrap (_ : Err) (code : Code) (key : Key) : Err := ⟨code, key⟩

/-! ## Settings, status, events -/

/-- `session.Settings`: what a session asks of the system. -/
structure Settings where
  tunNetworks : List Prefix
  fakeIPRange : Option Prefix
  killSwitch : Bool
  bypass : List Bytes
  tunnelMode : Bytes
  deriving DecidableEq

/-- The zero value, which is also what a restored guard holds. -/
def Settings.empty : Settings := ⟨[], none, false, [], []⟩

def Settings.switchedOn : Settings := { Settings.empty with killSwitch := true }

structure Status where
  state : State
  sessionID : Bytes
  reason : Code
  key : Key
  retryAfter : Nat
  killSwitch : Bool
  bypass : List Bytes
  tunnelMode : Bytes
  deriving DecidableEq

inductive EventKind where
  | state
  | counters
  | log
  | probe
  | error
  | group
  deriving DecidableEq, Repr

/-- A fallback group that moved to another member on its own. -/
structure GroupSwitch where
  group : Bytes
  previous : Bytes
  selected : Bytes
  deriving DecidableEq

/-- An entry of the journal.  The fields of other kinds are empty. -/
structure Event where
  kind : EventKind
  state : State := .disconnected
  reason : Code := .none
  key : Key := []
  retryAfter : Nat := 0
  switch : Option GroupSwitch := none
  deriving DecidableEq

def Event.isState (e : Event) : Bool := e.kind == .state

end Sora.Session
