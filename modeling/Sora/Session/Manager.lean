import Sora.Session.Runner

/-!
# The session manager

`Connect`, `Disconnect` and the requests that act on the current session.
-/

namespace Sora.Session

open Sora.Lib Sora.Engine Sora.Guard

/-- The failure of a `Connect` before anything was stopped: the new engine is closed. -/
def abandon (i : Nat) (err : Err) : Prog Op (Except Err Nat) := do
  .op (.engineClose i)
  pure (.error err)

/-- Building and checking a session, before the previous one is touched. -/
def prepare (plan : Plan) (settings : Settings) : Prog Op (Except Err Nat) := do
  match ← .op (.prepareTun plan) with
  | (some _, _) => pure (.error ⟨.failedPrecondition, keyPlanTunnel⟩)
  | (none, plan) =>
    match ← .op (.factory plan) with
    | .error err => pure (.error err)
    | .ok i =>
      match ← .op (.newSession i plan settings) with
      | some err => abandon i err
      | none =>
        match ← .op (.engineValidate i) with
        | some err => abandon i (err.wrap .invalidArgument keyPlanOutbounds)
        | none =>
          match ← .op .ctxErr with
          | some err => abandon i err
          | none => pure (.ok i)

/-- Starting a session once the previous one is gone. -/
def launch (i : Nat) : Prog Op (Except Err Nat) := do
  .op (.setCurrent none)
  match ← start i with
  | some err => do
    -- a failed start may still own an engine or a device
    let status ← .op (.readStatus i)
    match ← stop i with
    | some cleanupErr => do
      .op (.setCurrent (some i))
      .op (.setLast status)
      pure (.error (err.wrap cleanupErr.code cleanupErr.key))
    | none => do
      .op (.setLast status)
      pure (.error err)
  | none => do
    .op (.commitCurrent i)
    pure (.ok i)

/-- Replacing the previous session by session `i`. -/
def replace (previous : Option Nat) (i : Nat) : Prog Op (Except Err Nat) := do
  match previous with
  | none => launch i
  | some j =>
    match ← stop j with
    | some err => do
      .op (.engineClose i)
      let status ← .op (.readStatus j)
      .op (.setLast status)
      pure (.error err)
    | none => do
      let status ← .op (.readStatus j)
      .op (.setLast status)
      launch i

/-- `Connect`. -/
def connect (plan : Plan) (settings : Settings) : Prog Op (Except Err Nat) := do
  match ← .op .beginCall with
  | none => pure (.error ⟨.failedPrecondition, keySessionBusy⟩)
  | some previous => do
    let result ←
      match ← prepare plan settings with
      | .error err => pure (.error err)
      | .ok i => replace previous i
    .op .release
    pure result

/-- `Disconnect`. -/
def disconnect : Prog Op (Option Err) := do
  match ← .op .beginCall with
  | none => pure (some ⟨.failedPrecondition, keySessionBusy⟩)
  | some none => do
    .op (.setLast (Status.initial .empty))
    .op .release
    pure none
  | some (some i) => do
    let err ← stop i
    let status ← .op (.readStatus i)
    .op (.setLast status)
    if err.isNone then .op (.setCurrent none) else pure ()
    .op .release
    pure err

/-- `Manager.Status`: the live status of the current session, or the last one. -/
def managerStatus : Prog Op Status := do
  match ← .op .managerStatus with
  | (some i, _) => .op (.readStatus i)
  | (none, last) => pure last

def requestKillSwitch (enabled : Bool) : Prog Op (Option Err) := do
  match ← .op .current with
  | none => pure (some ⟨.failedPrecondition, keySessionRequired⟩)
  | some i => setKillSwitch i enabled

end Sora.Session
