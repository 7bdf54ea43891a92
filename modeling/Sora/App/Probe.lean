import Sora.App.Plan
import Sora.Control.Probe

/-!
# The app's measurements

The app measures all servers, or those of one subscription, with one request.  The core accepts
requests with at most 256 items.
-/

namespace Sora.App

open Sora.Lib Sora.Contract Sora.Control Sora.Control.Probe

/-- `apiVersion` of the app. -/
def apiVersion : Wire.ApiVersion := { major := 1, minor := 7, minSupportedMinor := 6 }

/-- The servers that `probe` measures. -/
def probed (subscriptions : List Subscription) : Option Bytes → List PlanOutbound
  | none => servers subscriptions
  | some id => ((subscriptions.find? fun s => s.id == id).map fun s => s.outbounds).getD []

/-- `settings.probeMethod`. -/
def probeMethod (setting : Bytes) : ProbeMethod :=
  if setting = ascii "engine" then .engine
  else if setting = ascii "connect" then .connect
  else .unspecified

/-- The request of `probe`, if there is something to measure. -/
def probeRequest (subscriptions : List Subscription) (chosen : Option Bytes) (setting : Bytes) :
    Option Request :=
  let all := probed subscriptions chosen
  if all = [] then none
  else some { version := some apiVersion, outbounds := all, method := probeMethod setting }

def Accepted (core : Probe.Core) (req : Request) : Prop :=
  (core.start req).handler ≠ .returned false

theorem refused_handler (o : Wire.Obstacle) (s : State Bytes) :
    (Probe.Core.refused o s).handler = .returned true := by
  have silent : Wire.transportStatus o.failure = none := if_neg o.silent
  rw [Probe.Core.refused, silent]
  rfl

theorem measure_accepted (core : Probe.Core) (req : Request) (relays : List (Relay Bytes)) :
    (core.measure req relays).handler ≠ .returned false := by
  have refused : ∀ o s, (Probe.Core.refused o s).handler ≠ .returned false := by
    intro o s returned
    rw [refused_handler] at returned
    cases returned
  rw [Probe.Core.measure]
  have dialled : (core.dialAll req relays).handler ≠ .returned false := by
    rw [Probe.Core.dialAll]
    split
    · exact refused _ _
    · rintro ⟨⟩
  cases core.measurer with
  | none =>
    cases req.method with
    | engine => exact refused _ _
    | unspecified | connect => exact dialled
  | some r =>
    cases req.method with
    | connect => exact dialled
    | unspecified | engine =>
      change (core.throughEngines req r relays).handler ≠ _
      rw [Probe.Core.throughEngines]
      split
      · exact refused _ _
      · rintro ⟨⟩

theorem accepted_iff {core : Probe.Core} {req : Request} {minor : Nat}
    (speaks : core.front.checkVersion req.version = .ok minor) :
    Accepted core req ↔ 0 < req.total ∧ req.total ≤ Wire.maxProbeEndpoints := by
  rw [Accepted, Probe.Core.start, speaks]
  simp only
  split
  · refine ⟨fun accepted => absurd rfl accepted, fun bounds => ?_⟩
    omega
  · refine ⟨fun _ => by omega, fun _ => ?_⟩
    split
    · exact measure_accepted core req _
    · split
      · rw [refused_handler]
        rintro ⟨⟩
      · split
        · rintro ⟨⟩
        · exact measure_accepted core req _

/-- One subscription with `n` servers. -/
def largeSubscription (n : Nat) : Subscription where
  id := ascii "s"
  outbounds := (List.range n).map fun i =>
    { socksServer "a" with id := numeral 10 i }

end Sora.App
