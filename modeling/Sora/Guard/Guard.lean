import Sora.Session.State

/-!
# The guard and its firewalls

The kill switch of the core: the platform firewalls (an nftables table on Linux, a
Windows Filtering Platform session on Windows) with every platform call that can fail, and
the guard that arms and disarms them for a session.  Each function returns its error, if
any, and the state it leaves behind.
-/

set_option linter.dupNamespace false

namespace Sora.Guard

open Sora.Lib Sora.Session Bool

inductive Backend where
  | nftables
  | wfp
  deriving DecidableEq, Repr

/-- Which platform calls fail: running `nft`, and opening, filling and closing a WFP
session. -/
structure PlatformFaults where
  nft : Bool := false
  openSession : Bool := false
  install : Bool := false
  close : Bool := false
  deriving DecidableEq, Repr

/-- A platform firewall.  `armed` is the flag of the nftables backend, and whether the WFP
backend holds a session; `installed` are the blocked networks in the rules in force. -/
structure Firewall where
  backend : Backend
  armed : Bool
  tunNetworks : List Prefix
  blocked : List Prefix
  installed : List Prefix
  deriving DecidableEq

/-- The error of a platform call. -/
def refused : Err := ⟨.permissionDenied, keyGuardFirewallFail⟩

namespace Firewall

/-- `SetTunNetworks`, which only the WFP backend has. -/
def setTunNetworks (networks : List Prefix) (f : Firewall) : Firewall :=
  match f.backend with
  | .nftables => f
  | .wfp => { f with tunNetworks := networks }

/-- `SetBlockedNetworks`. -/
def setBlockedNetworks (networks : List Prefix) (f : Firewall) : Firewall :=
  { f with blocked := networks }

/-- `Arm`.  The nftables backend replaces its table on every call; the WFP backend leaves an
open session alone. -/
def arm (faults : PlatformFaults) (f : Firewall) : Option Err × Firewall :=
  match f.backend with
  | .nftables =>
    if faults.nft then (some refused, f)
    else (none, { f with armed := true, installed := f.blocked })
  | .wfp =>
    if f.armed then (none, f)
    else if faults.openSession then (some refused, f)
    else if faults.install then (some refused, f)
    else (none, { f with armed := true, installed := f.blocked })

/-- `Disarm`.  The WFP backend forgets its session even when closing it fails. -/
def disarm (faults : PlatformFaults) (f : Firewall) : Option Err × Firewall :=
  match f.backend with
  | .nftables =>
    if faults.nft then (some refused, f) else (none, { f with armed := false, installed := [] })
  | .wfp =>
    if !f.armed then (none, f)
    else if faults.close then (some refused, { f with armed := false, installed := [] })
    else (none, { f with armed := false, installed := [] })

section Specs

variable (faults : PlatformFaults) (f : Firewall)

@[simp] theorem arm_backend : (f.arm faults).2.backend = f.backend := by
  unfold arm
  repeat' split
  all_goals rfl

@[simp] theorem disarm_backend : (f.disarm faults).2.backend = f.backend := by
  unfold disarm
  repeat' split
  all_goals rfl

theorem arm_armed : (f.arm faults).2.armed = (f.armed || (f.arm faults).1.isNone) := by
  unfold arm
  repeat' split
  all_goals simp_all

/-- Only nftables stays armed after a failed `Disarm`. -/
theorem disarm_armed : (f.disarm faults).2.armed =
    (f.armed && (f.disarm faults).1.isSome && f.backend == .nftables) := by
  unfold disarm
  repeat' split
  all_goals simp_all

/-- The rules in force after `Arm` are new, or those of an armed firewall. -/
theorem arm_installed (on : (f.arm faults).2.armed = true) :
    (f.arm faults).2.installed = f.blocked ∨
      f.armed = true ∧ (f.arm faults).2.installed = f.installed := by
  revert on
  unfold arm
  repeat' split
  all_goals simp_all

theorem disarm_installed (on : (f.disarm faults).2.armed = true) :
    f.armed = true ∧ (f.disarm faults).2.installed = f.installed := by
  revert on
  unfold disarm
  repeat' split
  all_goals simp_all

theorem close_of_disarm_failed (wfp : f.backend = .wfp) (failed : (f.disarm faults).1.isSome) :
    faults.close := by
  unfold disarm at failed
  repeat' split at failed
  all_goals simp_all

end Specs

end Firewall

/-- `guard.Guard`: the firewall, the settings in force and whether they are being restored. -/
structure Guard where
  firewall : Firewall
  applied : Settings
  restoring : Bool
  deriving DecidableEq

/-- The networks that may not be reached outside the tunnel. -/
def blockedNetworks (settings : Settings) : List Prefix :=
  settings.tunNetworks ++ (settings.fakeIPRange.map Prefix.masked).toList

variable {err : Option Err}

namespace Guard

/-- The firewall after it has been told the networks of the session. -/
def configured (g : Guard) (settings : Settings) : Firewall :=
  (g.firewall.setTunNetworks settings.tunNetworks).setBlockedNetworks (blockedNetworks settings)

/-- `Apply`. -/
def apply (faults : PlatformFaults) (settings : Settings) (g : Guard) : Option Err × Guard :=
  if g.restoring then (some ⟨.failedPrecondition, keyGuardFirewallFail⟩, g)
  else
    let f := g.configured settings
    if settings.killSwitch && !g.applied.killSwitch then
      match f.arm faults with
      | (some err, f) => (some (err.wrap .internal keyGuardFirewallFail), { g with firewall := f })
      | (none, f) => (none, { g with firewall := f, applied := settings })
    else if !settings.killSwitch && g.applied.killSwitch then
      match f.disarm faults with
      | (some err, f) => (some (err.wrap .internal keyGuardFirewallFail), { g with firewall := f })
      | (none, f) => (none, { g with firewall := f, applied := settings })
    else (none, { g with firewall := f, applied := settings })

/-- `Restore`. -/
def restore (faults : PlatformFaults) (g : Guard) : Option Err × Guard :=
  if g.applied.killSwitch then
    match g.firewall.disarm faults with
    | (some err, f) =>
      (some (err.wrap .internal keyGuardRestoreFailed), { g with firewall := f, restoring := false })
    | (none, f) => (none, { g with firewall := f, applied := .empty, restoring := false })
  else (none, { g with applied := .empty, restoring := false })

/-- A guard that has changed nothing yet. -/
def initial (backend : Backend) : Guard :=
  ⟨⟨backend, false, [], [], []⟩, .empty, false⟩

section Specs

variable (faults : PlatformFaults) (settings : Settings) (g : Guard)

@[simp] theorem configured_armed : (g.configured settings).armed = g.firewall.armed := by
  unfold configured Firewall.setTunNetworks Firewall.setBlockedNetworks
  split <;> rfl

@[simp] theorem configured_backend : (g.configured settings).backend = g.firewall.backend := by
  unfold configured Firewall.setTunNetworks Firewall.setBlockedNetworks
  split <;> rfl

@[simp] theorem configured_blocked :
    (g.configured settings).blocked = blockedNetworks settings := by
  unfold configured Firewall.setTunNetworks Firewall.setBlockedNetworks
  split <;> rfl

@[simp] theorem configured_installed :
    (g.configured settings).installed = g.firewall.installed := by
  unfold configured Firewall.setTunNetworks Firewall.setBlockedNetworks
  split <;> rfl

/-- The rules in force after `Apply` are those of its settings, or those in force before. -/
theorem apply_installed (on : (g.apply faults settings).2.firewall.armed = true) :
    (g.apply faults settings).2.firewall.installed = blockedNetworks settings ∨
      g.firewall.armed = true ∧
        (g.apply faults settings).2.firewall.installed = g.firewall.installed := by
  have armed := (g.configured settings).arm_installed faults
  have disarmed := (g.configured settings).disarm_installed faults
  revert on
  unfold apply
  rcases arms : (g.configured settings).arm faults with ⟨_ | err, f⟩ <;>
    rcases disarms : (g.configured settings).disarm faults with ⟨_ | err', f'⟩ <;>
    repeat' split
  all_goals simp_all

/-- The switch after `Apply`, by its outcome. -/
structure Applied (g : Guard) (settings : Settings) (err : Option Err) (g' : Guard) : Prop where
  restoring : g'.restoring = false
  backend : g'.firewall.backend = g.firewall.backend
  applied : g'.applied = if err.isNone then settings else g.applied
  armed : g'.firewall.armed =
    if settings.killSwitch = g.applied.killSwitch then g.firewall.armed
    else if settings.killSwitch then g.firewall.armed || err.isNone
    else g.firewall.armed && err.isSome && g.firewall.backend == .nftables

theorem apply_spec (idle : g.restoring = false) :
    Applied g settings (g.apply faults settings).1 (g.apply faults settings).2 := by
  have armed := (g.configured settings).arm_armed faults
  have disarmed := (g.configured settings).disarm_armed faults
  have backend := (g.configured settings).arm_backend faults
  have backend' := (g.configured settings).disarm_backend faults
  unfold apply
  rw [if_neg (by simp [idle])]
  cases wanted : settings.killSwitch <;> cases before : g.applied.killSwitch <;> simp only
    [Bool.not_true, Bool.not_false, Bool.and_true, Bool.and_false, Bool.false_eq_true, if_true,
      if_false]
  · exact ⟨idle, by simp, rfl, by simp [wanted, before]⟩
  · split <;> rename_i outcome <;> rw [outcome] at disarmed backend'
    · exact ⟨idle, by simpa using backend', rfl, by simpa [wanted, before] using disarmed⟩
    · exact ⟨idle, by simpa using backend', rfl, by simpa [wanted, before] using disarmed⟩
  · split <;> rename_i outcome <;> rw [outcome] at armed backend
    · exact ⟨idle, by simpa using backend, rfl, by simpa [wanted] using armed⟩
    · exact ⟨idle, by simpa using backend, rfl, by simpa [wanted, before] using armed⟩
  · exact ⟨idle, by simp, rfl, by simp [wanted, before]⟩

/-- A firewall that is armed only under the switch stays so. -/
theorem Applied.flagged {g g' : Guard} {settings : Settings} (spec : Applied g settings err g')
    (flagged : g.firewall.armed = true → g.applied.killSwitch = true)
    (on : g'.firewall.armed = true) : g'.applied.killSwitch = true := by
  have armed := spec.armed
  rw [on] at armed
  rw [spec.applied]
  cases err <;> cases wanted : settings.killSwitch <;> cases before : g.applied.killSwitch <;>
    simp [wanted, before] at armed flagged ⊢
  all_goals exact false_ne_true (flagged.symm.trans armed)

/-- A failed `Apply` leaves the settings in force. -/
theorem applied_of_apply_failed (failed : (g.apply faults settings).1.isSome) :
    (g.apply faults settings).2.applied = g.applied := by
  cases restoring : g.restoring
  · rw [(g.apply_spec faults settings restoring).applied, if_neg]
    rw [Option.isNone_iff_eq_none]
    exact fun none => by simp [none] at failed
  · simp [apply, restoring]

/-- When lifting the switch fails on Windows, a session did not close. -/
theorem close_of_apply_failed (idle : g.restoring = false) (wfp : g.firewall.backend = .wfp)
    (before : g.applied.killSwitch = true) (wanted : settings.killSwitch = false)
    (failed : (g.apply faults settings).1.isSome) : faults.close := by
  unfold apply at failed
  simp only [idle, before, wanted, Bool.false_eq_true, if_false, Bool.not_true, Bool.not_false,
    Bool.and_self, if_true] at failed
  refine (g.configured settings).close_of_disarm_failed faults (by simpa using wfp) ?_
  split at failed <;> rename_i outcome <;> rw [outcome]
  · rfl
  · cases failed

/-- The switch after `Restore`, by its outcome. -/
structure Restored (g : Guard) (err : Option Err) (g' : Guard) : Prop where
  restoring : g'.restoring = false
  backend : g'.firewall.backend = g.firewall.backend
  applied : g'.applied = if err.isNone then .empty else g.applied
  armed : g'.firewall.armed =
    if g.applied.killSwitch then g.firewall.armed && err.isSome && g.firewall.backend == .nftables
    else g.firewall.armed
  failed : err.isSome → g.applied.killSwitch

theorem restore_spec : Restored g (g.restore faults).1 (g.restore faults).2 := by
  have disarmed := g.firewall.disarm_armed faults
  have backend := g.firewall.disarm_backend faults
  unfold restore
  split
  · rename_i on
    split <;> rename_i failed <;> rw [failed] at disarmed backend
    · exact ⟨rfl, backend, rfl, by simpa [on] using disarmed, fun _ => on⟩
    · exact ⟨rfl, backend, rfl, by simpa [on] using disarmed, fun _ => on⟩
  · rename_i off
    exact ⟨rfl, rfl, rfl, by simp [off], fun failed => by cases failed⟩

theorem Restored.flagged {g g' : Guard} (spec : Restored g err g')
    (flagged : g.firewall.armed = true → g.applied.killSwitch = true)
    (on : g'.firewall.armed = true) : g'.applied.killSwitch = true := by
  have armed := spec.armed
  rw [on] at armed
  rw [spec.applied]
  cases err <;> cases before : g.applied.killSwitch <;> simp [before] at armed flagged ⊢
  all_goals exact absurd (flagged.symm.trans armed) false_ne_true

theorem restore_installed (on : (g.restore faults).2.firewall.armed = true) :
    g.firewall.armed = true ∧
      (g.restore faults).2.firewall.installed = g.firewall.installed := by
  have disarmed := g.firewall.disarm_installed faults
  revert on
  unfold restore
  rcases disarms : g.firewall.disarm faults with ⟨_ | err, f⟩ <;> split
  all_goals simp_all

end Specs

end Guard

end Sora.Guard
