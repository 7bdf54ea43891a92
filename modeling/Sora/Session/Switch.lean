import Sora.Session.Runner

/-!
# The three copies of the kill switch

A session, the guard and the firewall each keep the kill switch.  `SwitchView` is what the
calls on one session see of them; every operation of the session acts on the view as
`SwitchView.after` says (`switchView_step`), so the calls are checked on views.
-/

set_option linter.dupNamespace false

namespace Sora.Session

open Sora.Lib Sora.Engine Sora.Guard Prog Session Discipline

/-! ## The view -/

structure SwitchView where
  /-- The guard's flag. -/
  applied : Bool
  /-- The answer of `Armed`. -/
  armed : Bool
  /-- The backend drops its rules even when lifting them fails. -/
  forgets : Bool
  /-- The flag in the session's status. -/
  flag : Bool
  state : State
  stopping : Bool
  /-- The session owns the guard's settings. -/
  owns : Bool
  /-- The journal holds a connected entry. -/
  seen : Bool
  deriving DecidableEq

def Event.isConnected (ev : Event) : Bool := ev.isState && ev.state == .connected

@[simp] theorem Err.entry_isConnected (err : Err) : err.entry.isConnected = false := rfl

def viewOf (g : Guard) (s : Session) : SwitchView where
  applied := g.applied.killSwitch
  armed := g.firewall.armed
  forgets := g.firewall.backend == .wfp
  flag := s.status.killSwitch
  state := s.state
  stopping := s.stopping
  owns := s.guardApplied
  seen := s.log.any Event.isConnected

namespace SwitchView

def move (next : State) (v : SwitchView) : SwitchView :=
  if canTransition v.state next then
    { v with state := next, seen := v.seen || next == .connected }
  else v

/-- `SetKillSwitch` is refused. -/
def refuses (enabled : Bool) (v : SwitchView) : Bool :=
  v.stopping || (enabled && v.state.terminal) || (!enabled && v.state == .disconnected)

/-- The answers that an operation can give. -/
@[simp] def answers {β : Type} (v : SwitchView) : Op β → β → Prop
  | .beginStart _ => fun b => b = none ↔ v.state = .disconnected
  | .readState _ => fun b => b = v.state
  | .readGuardApplied _ => fun b => b = v.owns
  | .settings _ => fun b => b.killSwitch = v.flag
  | .beginReconnecting _ _ _ _ => fun b => b = canTransition v.state .reconnecting
  | .beginStop _ => fun b => b = v.stopping
  | .checkKillSwitch _ enabled => fun b =>
    match b with
    | .error _ => v.refuses enabled = true
    | .ok settings => v.refuses enabled = false ∧ settings.killSwitch = enabled
  | .guardRestore _ => fun b => b.isSome → v.applied = true
  | _ => fun _ => True

@[simp] def after {β : Type} (v : SwitchView) : Op β → β → SwitchView
  | .beginStart _ => fun b => if b.isNone then v.move .connecting else v
  | .setState _ next _ _ => fun _ => v.move next
  | .beginReconnecting _ _ _ _ => fun b => if b then { v with state := .reconnecting } else v
  | .append _ ev => fun _ => if ev.isConnected then { v with seen := true } else v
  | .setGuardApplied _ applied => fun _ => { v with owns := applied }
  | .commitKillSwitch _ enabled => fun _ => { v with owns := true, flag := enabled }
  | .beginStop _ => fun _ => { v with stopping := true }
  | .guardApply _ _ settings => fun err =>
    match err with
    | none =>
      { v with
        applied := settings.killSwitch
        armed :=
          if settings.killSwitch = v.applied then v.armed else settings.killSwitch }
    | some _ => v
  | .guardRestore _ => fun err =>
    match err with
    | none => { v with applied := false, armed := v.armed && !v.applied }
    | some _ => { v with armed := v.armed && !v.forgets }
  | _ => fun _ => v

end SwitchView

/-- The calls on session `i` over its view. -/
@[simps] def switching (i : Nat) : Discipline Op SwitchView where
  allowed _ op := op.session = some i
  answers := SwitchView.answers
  next := SwitchView.after

/-- Closing a Windows session to lift the switch of a running one succeeds. -/
def liftsCleanly {β : Type} (c : Choice) (op : Op β) (w : World) : Bool :=
  match op with
  | .guardApply _ _ settings =>
    !(w.guard.firewall.backend == .wfp && w.guard.applied.killSwitch && !settings.killSwitch &&
      c.faults.close)
  | _ => true

/-! ## The view follows the world -/

/-- What the calls on session `i` see, and what they leave alone. -/
structure Sees (i : Nat) (w₀ w : World) (v : SwitchView) : Prop where
  view : viewOf w.guard (w.sessions i) = v
  idle : w.guard.restoring = false
  same : World.SameBut i w₀ w

theorem viewOf_setStateLocked (g : Guard) (next : State) (reason : Code) (key : Key)
    (s : Session) :
    viewOf g (s.setStateLocked next reason key) = (viewOf g s).move next := by
  cases legal : canTransition s.state next <;>
    simp [setStateLocked, SwitchView.move, viewOf, legal, Event.isConnected, Event.isState]

variable {s : Session} {enabled : Bool} {w w' : World} {v : SwitchView} {i : Nat}
    {Q : Unit → SwitchView → Prop} {next : State}

theorem viewOf_apply {faults : PlatformFaults} {settings : Settings} {g : Guard}
    (idle : g.restoring = false) (clean : g.firewall.backend = .wfp → g.applied.killSwitch = true →
    settings.killSwitch = false → faults.close = false) (i : Nat) (caller : Caller) :
    viewOf (g.apply faults settings).2 s =
      (viewOf g s).after (.guardApply i caller settings) (g.apply faults settings).1 := by
  have spec := g.apply_spec faults settings idle
  have closed := g.close_of_apply_failed faults settings idle
  generalize g.apply faults settings = outcome at *
  obtain ⟨err, g'⟩ := outcome
  obtain ⟨-, backend, applied, armed⟩ := spec
  simp only at backend applied armed
  cases err with
  | none =>
    rcases Bool.eq_false_or_eq_true settings.killSwitch with wanted | wanted <;>
      rcases Bool.eq_false_or_eq_true g.applied.killSwitch with before | before <;>
      simp [viewOf, backend, applied, armed, before]
  | some err =>
    rcases Bool.eq_false_or_eq_true settings.killSwitch with wanted | wanted <;>
      cases platform : g.firewall.backend <;> simp_all [viewOf]

theorem viewOf_restore (faults : PlatformFaults) (g : Guard) (s : Session) (i : Nat) :
    viewOf (g.restore faults).2 s =
      (viewOf g s).after (.guardRestore i) (g.restore faults).1 := by
  have spec := g.restore_spec faults
  generalize g.restore faults = outcome at *
  obtain ⟨err, g'⟩ := outcome
  obtain ⟨-, backend, applied, armed, failed⟩ := spec
  simp only at backend applied armed failed
  cases err with
  | none =>
    simp only [viewOf, backend, applied, armed]
    cases g.applied.killSwitch <;> simp [Settings.empty]
  | some err =>
    simp only [viewOf]
    cases platform : g.firewall.backend <;> simp_all

theorem checkKillSwitch_of_refused (g : Guard) (refused : (viewOf g s).refuses enabled = true) :
    s.checkKillSwitch enabled = .error s.state := if_pos refused

theorem checkKillSwitch_of_accepted (g : Guard) (accepted : (viewOf g s).refuses enabled = false) :
    s.checkKillSwitch enabled = .ok { s.settingsLocked with killSwitch := enabled } :=
  if_neg (ne_true_of_eq_false accepted)

/-- Every operation of the session acts on the view as `after` says. -/
theorem Sees.step {β : Type} {c : Choice} {op : Op β} {w₀ : World} {b : β} (sees : Sees i w₀ w v)
    (of : op.session = some i) (clean : liftsCleanly c op w)
    (step : perform 0 c op w = some (b, w')) : v.answers op b ∧ Sees i w₀ w' (v.after op b) := by
  have same := sees.same.trans (World.SameBut.of_perform step of)
  obtain ⟨rfl, idle, -⟩ := sees
  cases op <;> cases of <;> simp only [perform] at step
  case beginStart =>
    cases step
    by_cases fresh : (w.sessions i).state = .disconnected
    · refine ⟨by simp [beginStart, viewOf, fresh], ?_, idle, same⟩
      simp [beginStart, fresh, viewOf_setStateLocked]
      simp [viewOf, fresh]
    · refine ⟨by simp [beginStart, viewOf, fresh], ?_, idle, same⟩
      simp [beginStart, fresh]
  case setState next reason key =>
    cases step
    exact ⟨trivial, by simp [viewOf_setStateLocked], idle, same⟩
  case beginReconnecting reason key delay =>
    cases step
    refine ⟨?_, ?_, idle, same⟩ <;>
      cases legal : canTransition (w.sessions i).state .reconnecting <;>
      simp [beginReconnecting, viewOf, legal]
  case checkKillSwitch enabled =>
    cases step
    refine ⟨?_, rfl, idle, same⟩
    cases refused : (viewOf w.guard (w.sessions i)).refuses enabled
    · rw [checkKillSwitch_of_accepted _ refused]
      exact ⟨refused, rfl⟩
    · rw [checkKillSwitch_of_refused _ refused]
      exact refused
  case beginStop =>
    cases step
    refine ⟨?_, ?_, idle, same⟩ <;> cases again : (w.sessions i).stopping <;>
      simp [beginStop, viewOf, again]
  case append ev =>
    cases step
    refine ⟨trivial, ?_, idle, same⟩
    cases connected : ev.isConnected <;> simp [viewOf, append, connected]
  case lockGuard =>
    split at step
    · cases step
    · cases step
      exact ⟨trivial, by simp [viewOf], idle, same⟩
  case nextWork =>
    split at step
    · cases step
    · cases step
      exact ⟨trivial, rfl, idle, same⟩
  case engineApply site =>
    cases step
    exact ⟨trivial, by simp [viewOf], idle, same⟩
  case guardApply caller settings =>
    cases step
    refine ⟨trivial, ?_, (w.guard.apply_spec c.faults settings idle).restoring, same⟩
    refine viewOf_apply idle (fun wfp before wanted => ?_) i caller
    simpa [liftsCleanly, wfp, before, wanted] using clean
  case guardRestore =>
    cases step
    have spec := w.guard.restore_spec c.faults
    exact ⟨spec.failed, viewOf_restore c.faults w.guard _ i, spec.restoring, same⟩
  case settings =>
    cases step
    exact ⟨rfl, rfl, idle, same⟩
  case commitKillSwitch enabled =>
    cases step
    exact ⟨trivial, by simp [viewOf, commitKillSwitch], idle, same⟩
  all_goals
    cases step
    refine ⟨?_, ?_, idle, same⟩ <;> first | rfl | simp [viewOf]

/-! ## The calls on views -/

namespace SwitchView

/-- Connected, reconnecting, or failed after having been connected. -/
def live (v : SwitchView) : Bool :=
  v.state == .connected || v.state == .reconnecting || (v.state == .failed && v.seen)

/-- The firewall is not armed behind the back of the guard, nor the guard set behind the
back of the session. -/
structure Sound (v : SwitchView) : Prop where
  lifted : v.applied = false → v.armed = false
  released : v.owns = false → v.applied = false

/-- A session that was started and not yet stopped successfully, between two calls. -/
structure Owned (v : SwitchView) : Prop extends Sound v where
  stopped : v.stopping = true → v.state = .disconnected
  settled : v.state ≠ .connecting
  agrees : v.live = true → v.owns = true ∧ v.flag = v.applied ∧ v.applied = v.armed

instance (v : SwitchView) : Decidable v.Owned :=
  decidable_of_iff ((v.applied = false → v.armed = false) ∧ (v.owns = false → v.applied = false) ∧
      (v.stopping = true → v.state = .disconnected) ∧ v.state ≠ .connecting ∧
      (v.live = true → v.owns = true ∧ v.flag = v.applied ∧ v.applied = v.armed))
    ⟨fun ⟨lifted, released, stopped, settled, agrees⟩ =>
        ⟨⟨lifted, released⟩, stopped, settled, agrees⟩,
      fun ⟨⟨lifted, released⟩, stopped, settled, agrees⟩ =>
        ⟨lifted, released, stopped, settled, agrees⟩⟩

/-- A session that was not started, or stopped successfully. -/
structure Idle (v : SwitchView) : Prop where
  owns : v.owns = false
  state : v.state = .disconnected

/-- The guard holds no settings. -/
structure Lifted (v : SwitchView) : Prop where
  applied : v.applied = false
  armed : v.armed = false

theorem Sound.owned_of_disconnected (sound : v.Sound) (state : v.state = .disconnected) : v.Owned :=
  ⟨sound, fun _ => state, by simp [state], by simp [live, state]⟩

theorem move_disconnected (v : SwitchView) :
    v.move .disconnected = { v with state := .disconnected } := by
  obtain ⟨_, _, _, _, state, _, _, seen⟩ := v
  cases state <;> cases seen <;> rfl

end SwitchView

section Calls

variable (i : Nat)

theorem restoreGuard_switching {Q : Option Err → SwitchView → Prop}
    (kept : v.owns = false → Q none v)
    (restored : v.owns = true →
      Q none { v with applied := false, armed := v.armed && !v.applied, owns := false })
    (failed : v.owns = true → v.applied = true →
      ∀ err, Q (some err) { v with armed := v.armed && !v.forgets }) :
    (restoreGuard i).wp (switching i).transformer Q v := by
  simp only [restoreGuard]
  simp [Option.forall]
  exact ⟨fun owns => ⟨restored owns, fun err applied => failed owns applied err⟩, kept⟩

theorem fail_switching (err : Err) (post : Q () (v.move .failed)) :
    (fail i err).wp (switching i).transformer Q v := by
  simp [fail, post]

theorem startEngine_switching {Q : Option Err → SwitchView → Prop} (post : ∀ err, Q err v) :
    (startEngine i).wp (switching i).transformer Q v := by
  simp [startEngine, Option.forall, post]

/-- `Start` of a new session while the guard holds no settings. -/
theorem start_switching (forgets flag : Bool) :
    (start i).wp (switching i).transformer (fun _ v => v.Owned)
      ⟨false, false, forgets, flag, .disconnected, false, false, false⟩ := by
  simp only [start]
  simp [Option.forall]
  refine ⟨fun settings wanted => ⟨?_, fun err => ?_⟩, fun err => ?_⟩
  · rw [wanted]
    refine startEngine_switching i (Option.rec ?_ fun err => ?_)
    · simp
      cases forgets <;> cases flag <;> decide
    · simp only [wp_bind]
      refine restoreGuard_switching i (fun owns => ?_) (fun _ => ?_) (fun _ _ restoreErr => ?_)
      · cases owns
      · refine fail_switching i err (show SwitchView.Owned _ from ?_)
        cases forgets <;> cases flag <;> decide
      · simp [Event.isConnected]
        refine fail_switching i err ?_
        cases forgets <;> cases flag <;> decide
  all_goals
    refine fail_switching i _ ?_
    cases forgets <;> cases flag <;> decide

/-- `restoreGuard`: once it succeeds the guard holds no settings. -/
theorem restoreGuard_sound (sound : v.Sound) :
    (restoreGuard i).wp (switching i).transformer (fun err v' => v'.Sound ∧ v'.state = v.state ∧
      (err = none → v'.owns = false ∧ v'.Lifted)) v := by
  refine restoreGuard_switching i (fun owns => ?_) (fun _ => ?_) (fun owns applied err => ?_)
  · have applied := sound.released owns
    exact ⟨sound, rfl, fun _ => ⟨owns, applied, sound.lifted applied⟩⟩
  · have armed : (v.armed && !v.applied) = false := by
      cases applied : v.applied
      · rw [sound.lifted applied]
        rfl
      · simp
    exact ⟨⟨fun _ => armed, fun _ => rfl⟩, rfl, fun _ => ⟨rfl, rfl, armed⟩⟩
  · refine ⟨⟨fun off => ?_, fun free => ?_⟩, rfl, fun none => ?_⟩
    · exact absurd (applied.symm.trans off) (by decide)
    · exact absurd (owns.symm.trans free) (by decide)
    · cases none

/-- `Stop` of a started session; once it succeeds the guard holds no settings. -/
theorem stop_switching (owned : v.Owned) :
    (stop i).wp (switching i).transformer
      (fun err v => v.Owned ∧ (err = none → v.Idle ∧ v.Lifted)) v := by
  have sound : SwitchView.Sound { v with stopping := true } := ⟨owned.lifted, owned.released⟩
  rw [stop, wp_bind, wp_op]
  refine ⟨rfl, fun again answer => ?_⟩
  obtain rfl : again = v.stopping := answer
  rw [wp_ite]
  refine ⟨fun again => ?_, fun first => ?_⟩
  · have state := owned.stopped again
    have restored : (restoreGuard i).wp (switching i).transformer
        (fun err v => v.Owned ∧ (err = none → v.Idle ∧ v.Lifted)) { v with stopping := true } :=
      wp_mono _ (fun err v' post => ⟨post.1.owned_of_disconnected (post.2.1.trans state),
        fun ok => ⟨⟨(post.2.2 ok).1, post.2.1.trans state⟩, (post.2.2 ok).2⟩⟩)
        (restoreGuard_sound i sound)
    simp [stopAgain, Option.forall]
    exact fun _ => ⟨fun _ => restored, fun _ => ⟨restored, fun _ => sound.owned_of_disconnected state⟩⟩
  · simp [stopFirst]
    intro stopErr
    refine wp_mono _ (fun restoreErr v' post => ?_) (restoreGuard_sound i sound)
    obtain ⟨sound', -, released⟩ := post
    simp [SwitchView.move_disconnected]
    refine ⟨SwitchView.Sound.owned_of_disconnected ⟨sound'.lifted, sound'.released⟩ rfl,
      fun _ ok => ?_⟩
    exact ⟨⟨(released ok).1, rfl⟩, (released ok).2.applied, (released ok).2.armed⟩

/-- `Stop` of any other session does not reach the guard. -/
theorem stop_switching_of_idle (idle : v.Idle) :
    (stop i).wp (switching i).transformer
      (fun _ v' => v'.Idle ∧ v'.applied = v.applied ∧ v'.armed = v.armed) v := by
  have kept {Q : Option Err → SwitchView → Prop} (post : Q none { v with stopping := true }) :
      (restoreGuard i).wp (switching i).transformer Q { v with stopping := true } :=
    restoreGuard_switching i (fun _ => post) (fun owns => by simp [idle.owns] at owns)
      (fun owns => by simp [idle.owns] at owns)
  have idle' : SwitchView.Idle { v with stopping := true } := ⟨idle.owns, idle.state⟩
  simp [stop, stopAgain, stopFirst, Option.forall]
  refine ⟨fun again _ => ⟨fun _ => ?_, fun _ => ⟨?_, fun _ => idle'⟩⟩, fun _ => ?_⟩
  · exact kept ⟨idle', rfl, rfl⟩
  · exact kept ⟨idle', rfl, rfl⟩
  · refine kept ?_
    simp [SwitchView.move_disconnected]
    exact ⟨idle.owns, rfl⟩

/-- `SetKillSwitch` of a started session; once switching on succeeds the firewall is
armed. -/
theorem setKillSwitch_switching (enabled : Bool) (owned : v.Owned) :
    (setKillSwitch i enabled).wp (switching i).transformer
      (fun err v => v.Owned ∧ (err = none → enabled = true → v.armed = true)) v := by
  simp [setKillSwitch, forall_except, Option.forall]
  refine ⟨fun _ _ => owned, fun settings accepted wanted => ⟨?_, fun _ => owned⟩⟩
  rw [wanted]
  simp only [SwitchView.refuses, Bool.or_eq_false_iff] at accepted
  obtain ⟨⟨running, mayEnable⟩, -⟩ := accepted
  have live (on : enabled = true) : v.live = true := by
    have settled := owned.settled
    cases state : v.state <;> simp_all [SwitchView.live, State.terminal]
  by_cases same : enabled = v.applied
  · rw [if_pos same]
    refine ⟨⟨⟨fun off => owned.lifted (same ▸ off), fun free => ?_⟩, fun stopping => ?_,
      owned.settled, fun live => ?_⟩, fun on => ?_⟩
    · cases free
    · exact absurd (running.symm.trans stopping) (by decide)
    · exact ⟨rfl, rfl, same.trans (owned.agrees live).2.2⟩
    · rw [if_pos same, ← (owned.agrees (live on)).2.2, ← same, on]
  · rw [if_neg same, if_neg same]
    refine ⟨⟨⟨fun off => off, fun free => ?_⟩, fun stopping => ?_, owned.settled,
      fun _ => ⟨rfl, rfl, rfl⟩⟩, fun on => on⟩
    · cases free
    · exact absurd (running.symm.trans stopping) (by decide)

theorem setKillSwitch_switching_of_idle (enabled : Bool) (idle : v.Idle) :
    (setKillSwitch i enabled).wp (switching i).transformer
      (fun err v' => v' = v ∧ err ≠ none) v := by
  have refused : v.refuses enabled = true := by
    cases enabled <;> simp [SwitchView.refuses, idle.state, State.terminal]
  simp [setKillSwitch, forall_except, refused]

end Calls

/-! ## The loop on views -/

/-- What the supervising loop changes: at most the state, and never towards a session that
has to agree with the firewall. -/
structure Drifted (v v' : SwitchView) : Prop where
  applied : v'.applied = v.applied
  armed : v'.armed = v.armed
  flag : v'.flag = v.flag
  stopping : v'.stopping = v.stopping
  owns : v'.owns = v.owns
  live : v'.live = true → v.live = true
  settled : v'.state ≠ .connecting
  stays : v.state = .disconnected → v'.state = .disconnected

namespace Drifted

variable {v' : SwitchView}

theorem refl (settled : v.state ≠ .connecting) : Drifted v v :=
  ⟨rfl, rfl, rfl, rfl, rfl, id, settled, id⟩

section

variable (drifted : Drifted v v')

include drifted

theorem move (running : v'.live = true) (settled : next ≠ .connecting) :
    Drifted v (v'.move next) := by
  unfold SwitchView.move
  split
  · refine ⟨drifted.applied, drifted.armed, drifted.flag, drifted.stopping, drifted.owns,
      fun _ => drifted.live running, settled, fun stopped => ?_⟩
    have stopped' := drifted.stays stopped
    simp [SwitchView.live, stopped'] at running
  · exact drifted

theorem live_of_canTransition (legal : canTransition v'.state next = true)
    (next_ne : next = .failed ∨ next = .reconnecting) : v'.live = true := by
  have settled := drifted.settled
  rcases next_ne with rfl | rfl <;> cases state : v'.state <;>
    simp_all [canTransition, allowedTransitions, SwitchView.live]

theorem move_failed : Drifted v (v'.move .failed) := by
  cases legal : canTransition v'.state .failed
  · rw [SwitchView.move, if_neg (by simp [legal])]
    exact drifted
  · exact drifted.move (drifted.live_of_canTransition legal (.inl rfl)) (by decide)

theorem move_reconnecting (legal : canTransition v'.state .reconnecting = true) :
    Drifted v { v' with state := .reconnecting } := by
  have moved : Drifted v (v'.move .reconnecting) :=
    drifted.move (drifted.live_of_canTransition legal (.inr rfl)) (by decide)
  rwa [SwitchView.move, if_pos legal, show (State.reconnecting == .connected) = false from rfl,
    Bool.or_false] at moved

theorem owned (owned : v.Owned) : v'.Owned := by
  obtain ⟨applied, armed, flag, stopping, owns, live, settled, stays⟩ := drifted
  refine ⟨⟨?_, ?_⟩, fun stopped => stays (owned.stopped (stopping ▸ stopped)), settled,
    fun running => ?_⟩
  · rw [applied, armed]
    exact owned.lifted
  · rw [owns, applied]
    exact owned.released
  · rw [owns, flag, applied, armed]
    exact owned.agrees (live running)

theorem idle (idle : v.Idle) : v'.Idle :=
  ⟨drifted.owns.trans idle.owns, drifted.stays idle.state⟩

end

end Drifted

section Loop

variable (i : Nat)

theorem noticeGroups_switching (groups : List GroupReading) (last : Fallbacks)
    {Q : Fallbacks → SwitchView → Prop} (post : ∀ r, Q r v) :
    (noticeGroups i groups last).wp (switching i).transformer Q v := by
  exact noticeGroups_wp (fun ev group => by simp [Event.isConnected, Event.isState, group])
    groups last post

theorem renewConnections_switching (post : Q () v) :
    (renewConnections i).wp (switching i).transformer Q v := by
  simp [renewConnections, Event.isConnected, Option.forall, post]

theorem publishEngineEvent_switching (ev : EngineEvent) (post : Q () v) :
    (publishEngineEvent i ev).wp (switching i).transformer Q v := by
  have quiet : (engineEntry ev).isConnected = false := by cases ev <;> rfl
  simp [publishEngineEvent, quiet, post]

theorem setStateReconnecting_switching (reason : Code) (key : Key) (delay : Nat) (kept : Q () v)
    (moved : canTransition v.state .reconnecting = true → Q () { v with state := .reconnecting }) :
    (setStateReconnecting i reason key delay).wp (switching i).transformer Q v := by
  cases legal : canTransition v.state .reconnecting <;>
    simp [setStateReconnecting, legal, Event.isConnected, kept, moved]

theorem supervise_switching (turns : Nat) (last : Fallbacks) {v₀ : SwitchView}
    (drifted : Drifted v₀ v) :
    (supervise i turns last).wp (switching i).transformer (fun _ v => Drifted v₀ v) v := by
  induction turns generalizing last v with
  | zero => exact drifted
  | succ n ih =>
    simp only [supervise, wp_bind, wp_op, transformer_call, switching_allowed,
      Op.session, switching_answers, SwitchView.answers, SwitchView.after, true_and,
      forall_const]
    intro work
    cases work with
    | done | closed => simp [drifted]
    | tick => simp [publishCounters, Event.isConnected, Option.forall,
        ih last drifted]
    | look => simp [noticeFallbacks, noticeGroups_switching, Option.forall, ih _ drifted]
    | network changed =>
      cases changed <;> simp [renewConnections_switching, ih last drifted]
    | event ev =>
      cases ev with
      | down err =>
        simp only [wp_bind]
        refine publishEngineEvent_switching i _ (setStateReconnecting_switching i _ _ _ ?_ ?_)
        · exact ih last drifted
        · exact fun legal => ih last (drifted.move_reconnecting legal)
      | state next =>
        simp only [wp_bind]
        refine publishEngineEvent_switching i _ ?_
        cases next <;> simp [ih _ drifted]
        intro reconnecting
        refine ih _ (drifted.move ?_ (by decide))
        simp [SwitchView.live, reconnecting]
      | fatal err =>
        simp only [wp_bind]
        refine publishEngineEvent_switching i _ (fail_switching i _ ?_)
        simpa using drifted.move_failed
      | _ =>
        exact publishEngineEvent_switching i _ (ih last drifted)

end Loop

/-! ## Sequences of calls -/

/-- A program of session `i` does to the world what it does to the view. -/
theorem runs_switching {α : Type} {p : Prog Op α} {Q : α → SwitchView → Prop} {a : α}
    (run : Runs (machine.only liftsCleanly) p w a w') (idle : w.guard.restoring = false)
    (holds : p.wp (switching i).transformer Q (viewOf w.guard (w.sessions i))) :
    ∃ v, Sees i w w' v ∧ Q a v := by
  refine run.of_wp (wp_of_view (switching i) ?_ p ⟨rfl, idle, .refl i w⟩ holds)
  intro β op w₁ w₂ v c b sees of step
  simp only [Machine.only] at step
  split at step
  · rename_i clean
    exact sees.step of clean step
  · cases step

/-- Connected, reconnecting, or failed after having been connected. -/
def Session.up (s : Session) : Bool :=
  s.state == .connected || s.state == .reconnecting ||
    (s.state == .failed && s.log.any Event.isConnected)

/-- The flag in the status of session `i`, the flag of the guard and the answer of the
firewall are equal. -/
def FlagsAgree (w : World) (i : Nat) : Prop :=
  (w.sessions i).status.killSwitch = w.guard.applied.killSwitch ∧
    w.guard.applied.killSwitch = w.guard.firewall.armed

/-- The sessions of one guard between two calls.  `owner` is the session that was started
and whose `Stop` has not succeeded yet. -/
structure Shared where
  world : World
  owner : Option Nat

/-- One call.  A new session is started only when no other owns the guard, as `Connect`
does; the other calls may be made on any session. -/
inductive Shared.Call (M : Machine Op World) : Shared → Shared → Prop
  | start {s : Shared} {i : Nat} {plan : Plan} {settings : Settings} {err : Option Err}
      {w' : World} (free : s.owner = none) (new : s.world.sessions i = .new plan settings)
      (run : Runs M (start i) s.world err w') : Call M s ⟨w', some i⟩
  | setKillSwitch {s : Shared} {i : Nat} {enabled : Bool} {err : Option Err} {w' : World}
      (run : Runs M (setKillSwitch i enabled) s.world err w') : Call M s ⟨w', s.owner⟩
  | stop {s : Shared} {i : Nat} {err : Option Err} {w' : World}
      (run : Runs M (stop i) s.world err w') :
      Call M s ⟨w', if err = none ∧ s.owner = some i then none else s.owner⟩
  | supervise {s : Shared} {i turns : Nat} {last : Fallbacks} {w' : World}
      (run : Runs M (supervise i turns last) s.world () w') : Call M s ⟨w', s.owner⟩

inductive Shared.Reach (M : Machine Op World) (start : Shared) : Shared → Prop
  | refl : Reach M start start
  | call {s s' : Shared} (before : Reach M start s) (next : Call M s s') : Reach M start s'

/-- The view of session `i`. -/
abbrev World.switch (w : World) (i : Nat) : SwitchView := viewOf w.guard (w.sessions i)

/-- Every session but the owner is idle, and without an owner the guard holds nothing. -/
structure Shared.Inv (s : Shared) : Prop where
  idle : s.world.guard.restoring = false
  others : ∀ j, s.owner ≠ some j → (s.world.switch j).Idle
  owned : ∀ i, s.owner = some i → (s.world.switch i).Owned
  lifted : s.owner = none → ∀ j, (s.world.switch j).Lifted

theorem idle_of_same {j : Nat} (same : World.SameBut i w w') (ne : j ≠ i)
    (idle : (w.switch j).Idle) :
    (w'.switch j).Idle := by
  have session := same.sessions j ne
  exact ⟨(congrArg guardApplied session).trans idle.owns,
    (congrArg state session).trans idle.state⟩

theorem lifted_of_view (lifted : (w.switch i).Lifted) (j : Nat) :
    (w.switch j).Lifted := ⟨lifted.applied, lifted.armed⟩

/-- A call on session `i` that leaves its owner in place. -/
theorem Shared.Inv.keep {s : Shared} (inv : s.Inv) (sees : Sees i s.world w' v)
    (own : s.owner = some i → v.Owned) (other : s.owner ≠ some i → v.Idle ∧ v.applied =
    s.world.guard.applied.killSwitch ∧ v.armed = s.world.guard.firewall.armed) :
    Shared.Inv ⟨w', s.owner⟩ := by
  obtain ⟨rfl, idle, same⟩ := sees
  refine ⟨idle, fun j free => ?_, fun k owner => ?_, fun free j => ?_⟩
  · by_cases here : j = i
    · exact here ▸ (other (here ▸ free)).1
    · exact idle_of_same same here (inv.others j free)
  · by_cases here : k = i
    · exact here ▸ own (here ▸ owner)
    · have free : s.owner ≠ some i := fun owner' =>
        here (Option.some.inj (owner.symm.trans owner'))
      obtain ⟨-, applied, armed⟩ := other free
      have session := same.sessions k here
      have owned := inv.owned k owner
      have kept : Drifted (s.world.switch k) (w'.switch k) := by
        refine ⟨applied, armed, ?_, ?_, ?_, ?_, ?_, ?_⟩ <;>
          simp only [viewOf, session]
        · exact id
        · exact owned.settled
        · exact id
      exact kept.owned owned
  · have free' : s.owner ≠ some i := fun owner => by rw [owner] at free; cases free
    obtain ⟨-, applied, armed⟩ := other free'
    have lifted := inv.lifted free i
    exact ⟨applied.trans lifted.applied, armed.trans lifted.armed⟩

theorem Shared.Inv.call {s s' : Shared} (inv : s.Inv)
    (call : Shared.Call (machine.only liftsCleanly) s s') : s'.Inv := by
  cases call with
  | @start i plan settings err w' free new run =>
    have fresh : s.world.switch i = ⟨false, false, s.world.guard.firewall.backend == .wfp,
        settings.killSwitch, .disconnected, false, false, false⟩ := by
      have lifted := inv.lifted free i
      simp only [viewOf, new]
      rw [show s.world.guard.applied.killSwitch = false from lifted.applied,
        show s.world.guard.firewall.armed = false from lifted.armed]
      rfl
    obtain ⟨v, ⟨rfl, idle, same⟩, owned⟩ :=
      runs_switching run inv.idle (fresh ▸ start_switching i _ _)
    refine ⟨idle, fun j other => ?_, fun k owner => ?_, fun free => ?_⟩
    · exact idle_of_same same (fun here => other (here ▸ rfl)) (inv.others j (by simp [free]))
    · cases owner
      exact owned
    · cases free
  | @setKillSwitch i enabled err w' run =>
    by_cases owner : s.owner = some i
    · obtain ⟨v, sees, owned, -⟩ :=
        runs_switching run inv.idle (setKillSwitch_switching i enabled (inv.owned i owner))
      exact inv.keep sees (fun _ => owned) (absurd owner)
    · have idle := inv.others i owner
      obtain ⟨v, sees, rfl, -⟩ :=
        runs_switching run inv.idle (setKillSwitch_switching_of_idle i enabled idle)
      exact inv.keep sees (fun owner' => absurd owner' owner) fun _ => ⟨idle, rfl, rfl⟩
  | @stop i err w' run =>
    by_cases owner : s.owner = some i
    · obtain ⟨v, sees, owned, released⟩ :=
        runs_switching run inv.idle (stop_switching i (inv.owned i owner))
      by_cases ok : err = none
      · obtain ⟨idle, lifted⟩ := released ok
        obtain ⟨rfl, quiet, same⟩ := sees
        rw [if_pos ⟨ok, owner⟩]
        refine ⟨quiet, fun j _ => ?_, fun k owner => ?_, fun _ => lifted_of_view lifted⟩
        · by_cases here : j = i
          · exact here ▸ idle
          · refine idle_of_same same here (inv.others j fun other => here ?_)
            exact Option.some.inj (other.symm.trans owner)
        · cases owner
      · rw [if_neg (fun both => ok both.1)]
        exact inv.keep sees (fun _ => owned) (absurd owner)
    · obtain ⟨v, sees, idle, applied, armed⟩ :=
        runs_switching run inv.idle (stop_switching_of_idle i (inv.others i owner))
      rw [if_neg (fun both => owner both.2)]
      exact inv.keep sees (fun owner' => absurd owner' owner) fun _ => ⟨idle, applied, armed⟩
  | @supervise i turns last w' run =>
    by_cases owner : s.owner = some i
    · have owned := inv.owned i owner
      obtain ⟨v, sees, drifted⟩ :=
        runs_switching run inv.idle (supervise_switching i turns last (.refl owned.settled))
      exact inv.keep sees (fun _ => drifted.owned owned) (absurd owner)
    · have idle := inv.others i owner
      obtain ⟨v, sees, drifted⟩ := runs_switching run inv.idle
        (supervise_switching i turns last (.refl (by rw [idle.state]; decide)))
      exact inv.keep sees (fun owner' => absurd owner' owner)
        fun _ => ⟨drifted.idle idle, drifted.applied, drifted.armed⟩

/-- In every sequence of calls in which no failed close lifts the switch of a running
session, a session that is up agrees with guard and firewall about the kill switch, and
switching it on successfully leaves the firewall armed. -/
theorem kill_switch_flags_agree (backend : Backend) (w₀ : World)
    (guard : w₀.guard = .initial backend)
    (new : ∀ i, ∃ plan settings, w₀.sessions i = .new plan settings) (s : Shared)
    (reach : Shared.Reach (machine.only liftsCleanly) ⟨w₀, none⟩ s) :
    (∀ i, (s.world.sessions i).up = true → FlagsAgree s.world i) ∧
      ∀ i w', Runs (machine.only liftsCleanly) (setKillSwitch i true) s.world none w' →
        w'.guard.firewall.armed = true := by
  have inv : s.Inv := by
    induction reach with
    | refl =>
      refine ⟨by rw [guard]; rfl, fun j _ => ?_, fun i owner => ?_, fun _ j => ?_⟩
      · obtain ⟨plan, settings, session⟩ := new j
        simp only [World.switch, session]
        exact ⟨rfl, rfl⟩
      · cases owner
      · simp only [World.switch, guard]
        exact ⟨rfl, rfl⟩
    | call before next ih => exact ih.call next
  refine ⟨fun i up => ?_, fun i w' run => ?_⟩
  · by_cases owner : s.owner = some i
    · exact ((inv.owned i owner).agrees up).2
    · have state : (s.world.sessions i).state = .disconnected := (inv.others i owner).state
      simp [Session.up, state] at up
  · by_cases owner : s.owner = some i
    · obtain ⟨v, ⟨rfl, -, -⟩, -, armed⟩ :=
        runs_switching run inv.idle (setKillSwitch_switching i true (inv.owned i owner))
      exact armed rfl rfl
    · obtain ⟨v, -, -, refused⟩ :=
        runs_switching run inv.idle (setKillSwitch_switching_of_idle i true (inv.others i owner))
      exact absurd rfl refused

theorem started_session_agrees :
    ∃ w, (start 0).eval (machine.only liftsCleanly) (List.replicate 8 ({} : Choice))
        (.idle .wfp .bare .switchedOn) = some (none, w) ∧
      (w.sessions 0).up = true ∧ FlagsAgree w 0 ∧ w.guard.firewall.armed = true := by
  obtain ⟨⟨err, w⟩, ran, facts⟩ := Option.map_eq_some_iff.mp
    (show ((start 0).eval (machine.only liftsCleanly) (List.replicate 8 ({} : Choice))
        (.idle .wfp .bare .switchedOn)).map (fun r =>
          (r.1, (r.2.sessions 0).up, r.2.guard.firewall.armed)) = some (none, true, true) from rfl)
  obtain ⟨rfl, up, armed⟩ := Prod.mk.inj facts |>.imp_right Prod.mk.inj
  have reach : Shared.Reach (machine.only liftsCleanly) ⟨.idle .wfp .bare .switchedOn, none⟩
      ⟨w, some 0⟩ := .call .refl (.start rfl rfl (Runs.of_eval ran))
  exact ⟨w, ran, up, (kill_switch_flags_agree .wfp _ rfl (fun _ => ⟨_, _, rfl⟩) _ reach).1 0 up,
    armed⟩

/-- On Windows a failed close drops the rules while session and guard keep their flags, and
switching on again does not bring them back. -/
theorem failed_close_leaves_switch_off :
    ∃ s, Shared.Reach machine ⟨.idle .wfp .bare .switchedOn, none⟩ s ∧
      (s.world.sessions 0).up = true ∧ (s.world.sessions 0).status.killSwitch = true ∧
      s.world.guard.firewall.armed = false ∧
      ∃ w', Runs machine (setKillSwitch 0 true) s.world none w' ∧
        w'.guard.firewall.armed = false := by
  let closeFails : List Choice := [{}, {}, { faults := { close := true } }, {}]
  obtain ⟨⟨err₁, w₁⟩, started, rest⟩ := Option.bind_eq_some_iff.mp
    (show ((start 0).eval machine (List.replicate 8 {}) (.idle .wfp .bare .switchedOn)).bind
        (fun r₁ => ((setKillSwitch 0 false).eval machine closeFails r₁.2).bind fun r₂ =>
          ((setKillSwitch 0 true).eval machine (List.replicate 5 {}) r₂.2).map fun r₃ =>
            ((r₂.2.sessions 0).up, (r₂.2.sessions 0).status.killSwitch,
              r₂.2.guard.firewall.armed, r₃.1, r₃.2.guard.firewall.armed)) =
      some (true, true, false, none, false) from rfl)
  obtain ⟨⟨err₂, w₂⟩, lifted, rest⟩ := Option.bind_eq_some_iff.mp rest
  obtain ⟨⟨err₃, w₃⟩, again, facts⟩ := Option.map_eq_some_iff.mp rest
  simp only [Prod.mk.injEq] at facts
  obtain ⟨up, flag, off, rfl, off'⟩ := facts
  have reach : Shared.Reach machine ⟨.idle .wfp .bare .switchedOn, none⟩ ⟨w₂, some 0⟩ :=
    .call (.call .refl (.start rfl rfl (Runs.of_eval started)))
      (.setKillSwitch (Runs.of_eval lifted))
  exact ⟨_, reach, up, flag, off, w₃, Runs.of_eval again, off'⟩

end Sora.Session
