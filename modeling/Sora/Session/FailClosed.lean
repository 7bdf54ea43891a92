import Sora.Session.Runner

/-!
# The kill switch fails closed

From the engine's first start on, the firewall of a session that asks for the kill switch
stays armed until something releases it: a successful `SetKillSwitch(false)`, a successful
stop of the engine, or a start of the engine that failed.  `guarding` is the discipline that
the calls on the session keep to: the guard is restored only by a thread that knows of a
release.
-/

set_option linter.dupNamespace false

namespace Sora.Session

open Sora.Lib Sora.Engine Sora.Guard List Option World Session

/-! ## Releases -/

/-- The outside calls that end the protection of session `i`. -/
def Outside.releases (i : Nat) : Outside → Bool
  | .engineStop j _ err => j == i && err.isNone
  | .guardApply j .setKillSwitch killSwitch err => j == i && !killSwitch && err.isNone
  | .engineApply j .start err => j == i && err.isSome
  | _ => false

def World.released (i : Nat) (w : World) : Bool := w.history.any (Outside.releases i)

/-- The engine of session `i` has been started, successfully or not. -/
def World.started (i : Nat) (w : World) : Bool :=
  w.history.any fun o => match o with
    | .engineApply j .start _ => j == i
    | _ => false

def World.covered (i : Nat) (w : World) : Bool := w.guard.firewall.armed || w.released i

variable {w w' : World} {o : Outside} {i : Nat} {β : Type} {c : Choice}

theorem released_append (history : w'.history = w.history ++ [o]) :
    w'.released i = (w.released i || o.releases i) := by
  simp [released, history]

/-! ## The discipline -/

/-- What a thread knows: the flag of the settings it has read, that the firewall protects
the session, or that it has been released. -/
inductive GuardPhase where
  | idle
  | read (killSwitch : Bool)
  | secured
  | released
  deriving DecidableEq

namespace GuardPhase

@[simp] def allows {β : Type} (i : Nat) (phase : GuardPhase) (op : Op β) : Prop :=
  op.session = some i ∧
    match op with
    | .guardApply _ .start settings => phase = .read settings.killSwitch
    | .commitKillSwitch _ enabled => enabled = true ∨ phase = .released
    | .engineApply _ .start => phase = .secured
    | .guardRestore _ => phase = .released
    | .finishStop _ => phase = .released
    | .engineClose _ => False
    | _ => True

@[simp] def answers {β : Type} : Op β → β → Prop
  | .checkKillSwitch _ enabled => fun b => ∀ settings, b = .ok settings →
      settings.killSwitch = enabled
  | .engineStop _ .firstStop => fun err => err = none
  | .engineStop _ .adapter => fun err => err = none
  | _ => fun _ => True

@[simp] def after {β : Type} (phase : GuardPhase) : Op β → β → GuardPhase
  | .settings _ => fun settings => .read settings.killSwitch
  | .guardApply _ .start _ => fun err => if err.isNone then .secured else .idle
  | .guardApply _ .setKillSwitch settings => fun err =>
    if err.isNone && !settings.killSwitch then .released else phase
  | .engineApply _ .start => fun err => if err.isNone then phase else .released
  | .engineStop _ _ => fun err => if err.isNone then .released else phase
  | .engineState _ => fun state => if state = .stopped then .released else phase
  | _ => fun _ => phase

end GuardPhase

@[simps] def guarding (i : Nat) : Discipline Op GuardPhase where
  allowed phase op := phase.allows i op
  answers _ := GuardPhase.answers
  next := GuardPhase.after

variable {phase : GuardPhase} {b : β}

section Programs

variable (i : Nat) {Q : Option Err → GuardPhase → Prop}

theorem fail_guarding (err : Err) {Q : Unit → GuardPhase → Prop} (post : Q () phase) :
    (fail i err).wp (guarding i).transformer Q phase := by
  simp [fail, post]

theorem restoreGuard_guarding (post : ∀ r, Q r .released) :
    (restoreGuard i).wp (guarding i).transformer Q .released := by
  simp [restoreGuard, Option.forall, post]

/-- The engine part of `Start` ends protected, or released if it failed. -/
theorem startEngine_guarding (up : Q none .secured)
    (down : ∀ err, Q (some err) .released) :
    (startEngine i).wp (guarding i).transformer Q .secured := by
  simp [startEngine, Option.forall, up, down]

section

variable (post : ∀ r phase, Q r phase)

include post

theorem start_guarding : (start i).wp (guarding i).transformer Q .idle := by
  simp [start, Option.forall, fail_guarding, post]
  intro settings
  refine startEngine_guarding i ?_ fun err => ?_
  · simp [post]
  · simp only [Prog.wp_bind]
    refine restoreGuard_guarding i (Option.rec ?_ fun restoreErr => ?_) <;>
      simp [fail_guarding, post]

theorem stop_guarding : (stop i).wp (guarding i).transformer Q .idle := by
  simp [stop, stopAgain, stopFirst, restoreGuard_guarding, Option.forall, post]

theorem setKillSwitch_guarding (enabled : Bool) :
    (setKillSwitch i enabled).wp (guarding i).transformer Q .idle := by
  cases enabled <;> simp [setKillSwitch, forall_except, Option.forall, post]

theorem select_guarding (group target : Bytes) :
    (select i group target).wp (guarding i).transformer Q .idle := by
  simp [select, Option.forall, post]

end

theorem supervise_guarding (turns : Nat) (last : Fallbacks) {Q : Unit → GuardPhase → Prop}
    (post : Q () .idle) : (supervise i turns last).wp (guarding i).transformer Q .idle := by
  refine supervise_wp (fun op is => ?_) turns last post
  cases op <;> simp_all [Op.supervises]

theorem program_guarding (call : SessionCall) :
    (guarding i).Follows (fun _ => True) .idle (call.program i) := by
  unfold Discipline.Follows
  cases call with
  | start => simp [SessionCall.program, start_guarding]
  | stop => simp [SessionCall.program, stop_guarding]
  | setKillSwitch enabled => simp [SessionCall.program, setKillSwitch_guarding]
  | select group target => simp [SessionCall.program, select_guarding]
  | supervise turns last => exact supervise_guarding i turns last trivial
  | status => simp [SessionCall.program]

end Programs

/-! ## What one operation does -/

/-- The failures left out: of the engine's stop on the paths that restore the guard whatever
it answers, and of closing a Windows session while lifting the switch. -/
def stopsAndLifts : Admission Op World := fun _ op w b _ =>
  match op, b with
  | .engineStop _ .firstStop, err => err.isNone
  | .engineStop _ .adapter, err => err.isNone
  | .guardApply _ _ settings, err =>
    !(w.guard.firewall.backend == .wfp && w.guard.applied.killSwitch && !settings.killSwitch &&
      err.isSome)
  | _, _ => true

/-- The operations that reach neither guard nor engine nor the flag of the status. -/
def Op.quiet {β : Type} : Op β → Bool
  | .guardApply _ _ _ | .guardRestore _ | .engineApply _ _ | .engineStop _ _ | .engineClose _
  | .finishStop _ | .commitKillSwitch _ _ => false
  | _ => true

/-- What the invariant reads of the world. -/
structure SameGuard (i : Nat) (w w' : World) : Prop where
  guard : w'.guard = w.guard
  history : w'.history = w.history
  flag : (w'.sessions i).status.killSwitch = (w.sessions i).status.killSwitch
  engine : (w'.engines i).state = (w.engines i).state

theorem sameGuard_onSession {f : Session → β × Session}
    (keeps : ∀ s, (f s).2.status.killSwitch = s.status.killSwitch)
    (step : onSession i f w = some (b, w')) : SameGuard i w w' := by
  cases step
  exact ⟨rfl, rfl, by simp [keeps], rfl⟩

variable {t : Nat}

theorem sameGuard_of_quiet {op : Op β} (of : op.session = some i) (quiet : op.quiet = true)
    (step : perform t c op w = some (b, w')) : SameGuard i w w' := by
  have same : SameGuard i w w := ⟨rfl, rfl, rfl, rfl⟩
  cases op <;> cases of <;> simp only [perform] at step
  case guardApply | guardRestore | engineApply | engineStop | engineClose | finishStop |
    commitKillSwitch => cases quiet
  case beginStart =>
    refine sameGuard_onSession (fun s => ?_) step
    unfold beginStart
    split
    · exact setStateLocked_killSwitch _ _ _ _
    · rfl
  case setState next reason key =>
    exact sameGuard_onSession (fun s => setStateLocked_killSwitch next reason key s) step
  case beginReconnecting reason key delay =>
    refine sameGuard_onSession (fun s => ?_) step
    unfold beginReconnecting
    split <;> rfl
  case beginStop =>
    refine sameGuard_onSession (fun s => ?_) step
    unfold beginStop
    split <;> rfl
  case lockGuard =>
    split at step
    · cases step
    · exact sameGuard_onSession (fun s => rfl) step
  case nextWork =>
    split at step
    · cases step
    · cases step
      exact same
  all_goals first
    | exact sameGuard_onSession (fun s => rfl) step
    | (cases step; exact same)

/-! ## The invariant -/

structure Guarded (i : Nat) (w : World) : Prop where
  idle : w.guard.restoring = false
  applied : w.guard.applied.killSwitch = true → w.covered i = true
  flag : (w.sessions i).status.killSwitch = false → w.released i = true
  stopped : (w.engines i).state = .stopped → w.released i = true
  started : w.started i = true → w.covered i = true

def GuardPhase.Knows (i : Nat) (w : World) : GuardPhase → Prop
  | .idle => True
  | .read killSwitch => killSwitch = false → w.released i = true
  | .secured => w.covered i = true
  | .released => w.released i = true

/-- Releases are not taken back, and protection ends only by a release. -/
structure Kept (i : Nat) (w w' : World) : Prop where
  released : w.released i = true → w'.released i = true
  covered : w.covered i = true → w'.covered i = true

theorem Kept.knows (kept : Kept i w w') (knows : phase.Knows i w) : phase.Knows i w' := by
  cases phase with
  | idle => trivial
  | read killSwitch => exact fun off => kept.released (knows off)
  | secured => exact kept.covered knows
  | released => exact kept.released knows

theorem covered_of_released (released : w.released i = true) : w.covered i = true := by
  simp [covered, released]

/-- After an outside call, with the guard as it was or not. -/
theorem Kept.of_record (history : w'.history = w.history ++ [o]) (armed : w.guard.firewall.armed =
    true → w'.guard.firewall.armed = true ∨ w.released i = true ∨ o.releases i = true) :
    Kept i w w' := by
  have released := released_append (i := i) history
  refine ⟨fun before => by simp [released, before], fun before => ?_⟩
  simp only [World.covered, Bool.or_eq_true] at *
  rw [released, Bool.or_eq_true]
  rcases before with before | before
  · exact armed before
  · exact .inr (.inl before)

theorem Guarded.of_same (guarded : Guarded i w) (same : SameGuard i w w') :
    Guarded i w' ∧ Kept i w w' := by
  obtain ⟨guard, history, flag, engine⟩ := same
  have released : w'.released i = w.released i := by simp [released, history]
  have covered' : w'.covered i = w.covered i := by simp [covered, guard, released]
  have started : w'.started i = w.started i := by simp [World.started, history]
  refine ⟨⟨?_, ?_, ?_, ?_, ?_⟩, fun before => released ▸ before, fun before => covered' ▸ before⟩
  · rw [guard]
    exact guarded.idle
  · rw [guard, covered']
    exact guarded.applied
  · rw [flag, released]
    exact guarded.flag
  · rw [engine, released]
    exact guarded.stopped
  · rw [started, covered']
    exact guarded.started

/-- `Apply` by a caller that lifts the switch only when that counts as a release. -/
theorem Guarded.guardApply (guarded : Guarded i w) (c : Choice) (caller : Caller)
    (settings : Settings) (lifts : settings.killSwitch = false → (w.guardApply c i caller
    settings).1 = none → (w.guardApply c i caller settings).2.released i = true) (clean :
    w.guard.firewall.backend = .wfp → w.guard.applied.killSwitch = true → settings.killSwitch =
    false → (w.guardApply c i caller settings).1 = none) :
    Guarded i (w.guardApply c i caller settings).2 ∧
      Kept i w (w.guardApply c i caller settings).2 ∧
      ((w.guardApply c i caller settings).1 = none →
        (w.guardApply c i caller settings).2.covered i = true) := by
  have spec := w.guard.apply_spec c.faults settings guarded.idle
  have history : (w.guardApply c i caller settings).2.history = w.history ++
    [.guardApply i caller settings.killSwitch (w.guardApply c i caller settings).1] := rfl
  have engines : (w.guardApply c i caller settings).2.engines = w.engines := rfl
  have sessions : (w.guardApply c i caller settings).2.sessions = w.sessions := rfl
  change Guard.Applied w.guard settings (w.guardApply c i caller settings).1
    (w.guardApply c i caller settings).2.guard at spec
  generalize w.guardApply c i caller settings = outcome at *
  obtain ⟨err, w'⟩ := outcome
  obtain ⟨idle, -, applied, armed⟩ := spec
  simp only at *
  have kept : Kept i w w' := by
    refine .of_record history fun before => ?_
    rw [before] at armed
    by_cases same : settings.killSwitch = w.guard.applied.killSwitch
    · exact .inl (armed.trans (if_pos same))
    · cases wanted : settings.killSwitch with
      | true => exact .inl (armed.trans (by simp [wanted]))
      | false =>
        have on : w.guard.applied.killSwitch = true := by simpa [wanted] using same
        by_cases ok : err = none
        · have now := lifts wanted ok
          simp only [released, history, any_append, any_cons, any_nil,
            Bool.or_false, Bool.or_eq_true, wanted] at now
          exact .inr now
        · cases platform : w.guard.firewall.backend with
          | wfp => exact absurd (clean platform on wanted) ok
          | nftables =>
            have failed : err.isSome = true := isSome_iff_ne_none.mpr ok
            exact .inl (armed.trans (by simp [failed, platform]))
  have covers (ok : err = none) : w'.covered i = true := by
    cases wanted : settings.killSwitch with
    | false => exact covered_of_released (lifts wanted ok)
    | true =>
      by_cases on : w.guard.applied.killSwitch = true
      · exact kept.covered (guarded.applied on)
      · simp [covered, armed, wanted, on, ok]
  refine ⟨⟨idle, fun on => ?_, fun off => ?_, fun stopped => ?_, fun started => ?_⟩, kept, covers⟩
  · cases err with
    | none => exact covers rfl
    | some err =>
      rw [applied] at on
      exact kept.covered (guarded.applied on)
  · rw [sessions] at off
    exact kept.released (guarded.flag off)
  · rw [engines] at stopped
    exact kept.released (guarded.stopped stopped)
  · refine kept.covered (guarded.started ?_)
    simpa [World.started, history] using started

theorem Guarded.of_engine (guarded : Guarded i w) (guard : w'.guard = w.guard)
    (sessions : (w'.sessions i).status = (w.sessions i).status)
    (history : w'.history = w.history ++ [o])
    (stopped : (w'.engines i).state = .stopped → w'.released i = true)
    (started : w'.started i = true → w.started i = true ∨ w.covered i = true) :
    Guarded i w' ∧ Kept i w w' := by
  have kept : Kept i w w' := .of_record history fun armed => .inl (guard ▸ armed)
  refine ⟨⟨?_, fun on => ?_, fun off => ?_, stopped, fun now => ?_⟩, kept⟩
  · rw [guard]
    exact guarded.idle
  · rw [guard] at on
    exact kept.covered (guarded.applied on)
  · rw [sessions] at off
    exact kept.released (guarded.flag off)
  · rcases started now with before | covered
    · exact kept.covered (guarded.started before)
    · exact kept.covered covered

theorem stop_stopped {e : EngineUnit} (stopped : (e.stop c).state = .stopped) : c.err = none := by
  unfold EngineUnit.stop at stopped
  split at stopped
  · assumption
  · cases stopped

theorem engineApply_stopped {site : Site}
    (stopped : ((w.engineApply c i site).2.engines i).state = .stopped) :
    (w.engines i).state = .stopped := by
  simp only [engineApply, record_engines, setEngine_same] at stopped
  split at stopped
  · exact stopped
  · split at stopped
    · cases stopped
    · unfold EngineUnit.startFailed at stopped
      split at stopped
      · exact stopped
      · rename_i other
        exact absurd stopped other

/-- Every allowed and admitted operation keeps the invariant, and its thread then knows
what its phase says. -/
theorem Guarded.step {op : Op β} (guarded : Guarded i w) (knows : phase.Knows i w)
    (allows : phase.allows i op) (step : perform t c op w = some (b, w'))
    (admitted : stopsAndLifts β op w b w') :
    GuardPhase.answers op b ∧ Guarded i w' ∧ Kept i w w' ∧ (phase.after op b).Knows i w' := by
  obtain ⟨of, allows⟩ := allows
  cases op <;> cases of
  case commitKillSwitch enabled =>
    obtain ⟨rfl, rfl⟩ := pair_of_some step
    refine ⟨trivial, ⟨guarded.idle, guarded.applied, fun off => ?_, guarded.stopped,
      guarded.started⟩, ⟨id, id⟩, knows⟩
    simp only [setSession_same, commitKillSwitch] at off
    rcases allows with on | rfl
    · rw [on] at off
      cases off
    · exact knows
  case guardApply caller settings =>
    obtain ⟨rfl, rfl⟩ := pair_of_some step
    have history : (w.guardApply c i caller settings).2.history = w.history ++
      [.guardApply i caller settings.killSwitch (w.guardApply c i caller settings).1] := rfl
    have lifts : settings.killSwitch = false → (w.guardApply c i caller settings).1 = none →
        (w.guardApply c i caller settings).2.released i = true := by
      intro off ok
      rw [released_append history]
      cases caller with
      | start =>
        obtain rfl : phase = .read settings.killSwitch := allows
        rw [knows off, Bool.true_or]
      | setKillSwitch => simp [Outside.releases, off, ok]
    obtain ⟨guarded', kept, covers⟩ := guarded.guardApply c caller settings lifts (by
      intro wfp on off
      have clean : (!(w.guard.firewall.backend == .wfp && w.guard.applied.killSwitch &&
        !settings.killSwitch && (w.guardApply c i caller settings).1.isSome)) = true := admitted
      simpa [wfp, on, off] using clean)
    refine ⟨trivial, guarded', kept, ?_⟩
    cases caller with
    | start =>
      simp only [GuardPhase.after]
      split
      · rename_i ok
        exact covers (isNone_iff_eq_none.mp ok)
      · trivial
    | setKillSwitch =>
      simp only [GuardPhase.after]
      split
      · rename_i both
        rw [Bool.and_eq_true, isNone_iff_eq_none, Bool.not_eq_true'] at both
        exact lifts both.2 both.1
      · exact kept.knows knows
  case guardRestore =>
    obtain ⟨rfl, rfl⟩ := pair_of_some step
    obtain rfl : phase = .released := allows
    have kept : Kept i w (w.guardRestore c i).2 :=
      .of_record rfl fun _ => .inr (.inl knows)
    have released := kept.released knows
    have covered := covered_of_released released
    exact ⟨trivial, ⟨(w.guard.restore_spec c.faults).restoring, fun _ => covered,
      fun _ => released, fun _ => released, fun _ => covered⟩, kept, released⟩
  case finishStop =>
    obtain ⟨rfl, rfl⟩ := pair_of_some step
    obtain rfl : phase = .released := allows
    have kept : Kept i w (w.engineClose c i) := .of_record rfl fun _ => .inr (.inl knows)
    have released := kept.released knows
    have covered := covered_of_released released
    exact ⟨trivial, ⟨guarded.idle, fun _ => covered, fun _ => released, fun _ => released,
      fun _ => covered⟩, kept, released⟩
  case engineApply site =>
    obtain ⟨rfl, rfl⟩ := pair_of_some step
    have history : (w.engineApply c i site).2.history =
      w.history ++ [.engineApply i site (w.engineApply c i site).1] := rfl
    have engine : Guarded i (w.engineApply c i site).2 ∧ Kept i w (w.engineApply c i site).2 := by
      refine guarded.of_engine rfl (by simp [engineApply]) history (fun stopped => ?_)
        (fun started => ?_)
      · rw [released_append history, guarded.stopped (engineApply_stopped stopped), Bool.true_or]
      · cases site
        case start =>
          obtain rfl : phase = .secured := allows
          exact .inr knows
        all_goals exact .inl (by simpa [World.started, history] using started)
    obtain ⟨guarded', kept⟩ := engine
    refine ⟨trivial, guarded', kept, ?_⟩
    cases site
    case start =>
      simp only [GuardPhase.after]
      split
      · exact kept.knows knows
      · rename_i failed
        change (w.engineApply c i .start).2.released i = true
        rw [released_append history]
        simp [Outside.releases, isSome_iff_ne_none, isNone_iff_eq_none] at failed ⊢
        exact .inr failed
    all_goals exact kept.knows knows
  case engineStop site =>
    obtain ⟨rfl, rfl⟩ := pair_of_some step
    have history : (w.engineStop c i site).2.history =
      w.history ++ [.engineStop i site (w.engineStop c i site).1] := rfl
    have releases (ok : c.err = none) : (w.engineStop c i site).2.released i = true := by
      rw [released_append history]
      simp [Outside.releases, engineStop, ok]
    have engine : Guarded i (w.engineStop c i site).2 ∧ Kept i w (w.engineStop c i site).2 := by
      refine guarded.of_engine rfl rfl history (fun stopped => ?_)
        (fun started => .inl (by simpa [World.started, history] using started))
      simp only [engineStop, record_engines, setEngine_same] at stopped
      exact releases (stop_stopped stopped)
    obtain ⟨guarded', kept⟩ := engine
    refine ⟨?_, guarded', kept, ?_⟩
    · cases site
      case firstStop | adapter => exact isNone_iff_eq_none.mp admitted
      all_goals trivial
    · simp only [GuardPhase.after]
      split
      · rename_i ok
        exact releases (isNone_iff_eq_none.mp ok)
      · exact kept.knows knows
  case engineClose => exact allows.elim
  case settings =>
    obtain ⟨rfl, rfl⟩ := pair_of_some step
    exact ⟨trivial, guarded, ⟨id, id⟩, guarded.flag⟩
  case engineState =>
    obtain ⟨rfl, rfl⟩ := pair_of_some step
    refine ⟨trivial, guarded, ⟨id, id⟩, ?_⟩
    simp only [GuardPhase.after]
    split
    · rename_i stopped
      exact guarded.stopped stopped
    · exact knows
  case checkKillSwitch enabled =>
    obtain ⟨rfl, rfl⟩ := pair_of_some step
    refine ⟨fun settings accepted => ?_, guarded, ⟨id, id⟩, knows⟩
    simp only [checkKillSwitch] at accepted
    split at accepted
    · cases accepted
    · cases accepted
      rfl
  all_goals
    obtain ⟨guarded', kept⟩ := guarded.of_same (sameGuard_of_quiet rfl rfl step)
    exact ⟨trivial, guarded', kept, kept.knows knows⟩

/-! ## Interleavings -/

/-- The next operation of a thread is the start of the engine of session `i`. -/
def startsEngine (i : Nat) : Prog Op Unit → Bool
  | .call (.engineApply j .start) _ => j == i
  | _ => false

theorem secured_of_startsEngine {p : Prog Op Unit}
    (follows : (guarding i).Follows (fun _ => True) phase p) (next : startsEngine i p = true) :
    phase = .secured := by
  unfold startsEngine at next
  split at next
  · exact follows.1.2
  · cases next

/-- In every interleaving of the calls on one session that asks for the kill switch, the
firewall is armed from just before the engine is first started until the switch is turned
off, the engine has been stopped, or its start has failed.  Runs are left out in which the
engine fails to stop on a path that restores the guard anyway, or a Windows session fails to
close while the switch is turned off. -/
theorem firewall_armed_until_released (i : Nat) (plan : Plan) (settings : Settings)
    (asks : settings.killSwitch = true) (backend : Backend) (kind : Kind) (w : World)
    (fresh : w.sessions i = .new plan settings) (guard : w.guard = .initial backend)
    (engine : w.engines i = .new kind) (history : w.history = []) (pool : Pool Op World)
    (reach : Pool.Reach machine (SessionCall.program i) stopsAndLifts ⟨w, []⟩ pool)
    (started : pool.world.started i = true ∨ ∃ p ∈ pool.threads, startsEngine i p = true) :
    pool.world.guard.firewall.armed = true ∨ pool.world.released i = true := by
  have init : Guarded i w := by
    refine ⟨by rw [guard]; rfl, fun on => ?_, fun off => ?_, fun stopped => ?_, fun now => ?_⟩
    · rw [guard] at on
      cases on
    · rw [fresh] at off
      exact absurd (asks.symm.trans off) (by decide)
    · rw [engine] at stopped
      cases stopped
    · simp [World.started, history] at now
  obtain ⟨guarded, known⟩ :=
    Pool.knowledge (guarding i) (fun _ => True) .idle (Guarded i) (fun w phase => phase.Knows i w)
      (program_guarding i) (fun _ _ => trivial)
      (fun op w w' t phase c b guarded knows allows step admitted => by
        obtain ⟨answers, guarded', kept, knows'⟩ := guarded.step knows allows step admitted
        exact ⟨answers, guarded', fun _ before => kept.knows before, knows'⟩)
      init (forall_mem_nil _) .nil reach
  have covered : pool.world.covered i = true := by
    rcases started with before | ⟨p, member, next⟩
    · exact guarded.started before
    · obtain ⟨phase, knows, follows⟩ := known p member
      rw [secured_of_startsEngine follows next] at knows
      exact knows
  simpa [World.covered] using covered

/-! ## Runs -/

/-- The session connects, and its engine fails for good. -/
def fatalRun : List (Move SessionCall Choice) :=
  .spawn .start :: (List.replicate 8 (.step 0 {}) ++ .spawn (.supervise 1 []) ::
    .step 1 { work := .event (.fatal none) } :: List.replicate 3 (.step 1 {}))

theorem fatalRun_stays_armed :
    ∃ pool, Pool.exec machine (SessionCall.program 0) stopsAndLifts
        ⟨.idle .nftables .bare .switchedOn, []⟩ fatalRun = some pool ∧
      (pool.world.sessions 0).state = .failed ∧ pool.world.released 0 = false ∧
      pool.world.guard.firewall.armed = true := by
  obtain ⟨pool, ran, facts⟩ := map_eq_some_iff.mp
    (show (Pool.exec machine (SessionCall.program 0) stopsAndLifts
        ⟨.idle .nftables .bare .switchedOn, []⟩ fatalRun).map (fun pool =>
          ((pool.world.sessions 0).state, pool.world.started 0, pool.world.released 0)) =
      some (.failed, true, false) from rfl)
  simp only [Prod.mk.injEq] at facts
  obtain ⟨failed, started, unreleased⟩ := facts
  have held := firewall_armed_until_released 0 .bare .switchedOn rfl .nftables .singBox
    (.idle .nftables .bare .switchedOn) rfl rfl rfl rfl pool (Pool.reach_of_exec .refl ran)
    (.inl started)
  exact ⟨pool, ran, failed, unreleased, held.resolve_right (by simp [unreleased])⟩

/-- The engine does not start, and `Start` lifts the switch. -/
def refusedRun : List (Move SessionCall Choice) :=
  .spawn .start :: (List.replicate 5 (.step 0 {}) ++
    .step 0 { err := some ⟨.unavailable, []⟩ } :: List.replicate 5 (.step 0 {}))

theorem failed_start_lifts_switch :
    ∃ pool, Pool.Reach machine (SessionCall.program 0) everything
        ⟨.idle .nftables .bare .switchedOn, []⟩ pool ∧
      pool.world.started 0 = true ∧ pool.world.guard.firewall.armed = false ∧
      ∀ o ∈ pool.world.history, (∀ site, o ≠ .engineStop 0 site none) ∧
        o ≠ .guardApply 0 .setKillSwitch false none := by
  obtain ⟨pool, ran, facts⟩ := map_eq_some_iff.mp
    (show (Pool.exec machine (SessionCall.program 0) everything
        ⟨.idle .nftables .bare .switchedOn, []⟩ refusedRun).map (fun pool =>
          (pool.world.started 0, pool.world.guard.firewall.armed, pool.world.history)) =
      some (true, false, [.guardApply 0 .start true none,
        .engineApply 0 .start (some ⟨.unavailable, []⟩), .guardRestore 0 none]) from rfl)
  simp only [Prod.mk.injEq] at facts
  obtain ⟨started, off, history⟩ := facts
  refine ⟨pool, Pool.reach_of_exec .refl ran, started, off, fun o member => ?_⟩
  rw [history] at member
  simp only [mem_cons, not_mem_nil, or_false] at member
  rcases member with rfl | rfl | rfl <;> simp

end Sora.Session
