import Sora.Session.Manager

/-!
# What the manager's sessions own

A session owns its engine while a process may be running, and the guard while its
`guardApplied` flag is set.  `OwnView` is what the calls on one session know of both;
`Managed` says that only one session may own anything.
-/

set_option linter.dupNamespace false

namespace Sora.Session

open Sora.Lib Sora.Engine Sora.Guard World Prog Session Discipline EngineUnit

/-! ## The flags of a session -/

/-- What the sections of a session decide on. -/
structure Flags where
  /-- The session owns the guard's settings. -/
  owns : Bool
  state : State
  stopping : Bool

def Session.flags (s : Session) : Flags := ⟨s.guardApplied, s.state, s.stopping⟩

namespace Flags

def move (next : State) (f : Flags) : Flags :=
  if canTransition f.state next then { f with state := next } else f

/-- The answers that an operation can give. -/
@[simp] def answers {β : Type} (f : Flags) : Op β → β → Prop
  | .beginStart _ => fun b => b = none ↔ f.state = .disconnected
  | .readState _ => fun b => b = f.state
  | .readGuardApplied _ => fun b => b = f.owns
  | .beginReconnecting _ _ _ _ => fun b => b = canTransition f.state .reconnecting
  | .beginStop _ => fun b => b = f.stopping
  | .checkKillSwitch _ _ => fun b => f.state = .disconnected → ∃ state, b = .error state
  | _ => fun _ => True

@[simp] def after {β : Type} (f : Flags) : Op β → β → Flags
  | .beginStart _ => fun b => if b.isNone then { f with state := .connecting } else f
  | .setState _ next _ _ => fun _ => f.move next
  | .beginReconnecting _ _ _ _ => fun b => if b then { f with state := .reconnecting } else f
  | .setGuardApplied _ applied => fun _ => { f with owns := applied }
  | .commitKillSwitch _ _ => fun _ => { f with owns := true }
  | .beginStop _ => fun _ => { f with stopping := true }
  | _ => fun _ => f

end Flags

theorem flags_setStateLocked (next : State) (reason : Code) (key : Key) (s : Session) :
    (s.setStateLocked next reason key).flags = s.flags.move next := by
  cases legal : canTransition s.state next <;>
    simp [setStateLocked, Flags.move, flags, legal]

variable {w w' : World} {β : Type} {b : β} {c : Choice} {i t : Nat}

/-- Every operation of the session acts on its flags as `after` says. -/
theorem flags_step {op : Op β} (of : op.session = some i) (step : perform t c op w = some (b, w')) :
    (w.sessions i).flags.answers op b ∧
      (w'.sessions i).flags = (w.sessions i).flags.after op b := by
  cases op <;> cases of <;> simp only [perform] at step
  case beginStart =>
    cases step
    by_cases fresh : (w.sessions i).state = .disconnected
    · refine ⟨by simp [beginStart, flags, fresh], ?_⟩
      simp [beginStart, fresh, flags_setStateLocked]
      simp [Flags.move, flags, canTransition, allowedTransitions]
    · refine ⟨by simp [beginStart, flags, fresh], ?_⟩
      simp [beginStart, fresh]
  case setState next reason key =>
    cases step
    exact ⟨trivial, by simp [flags_setStateLocked]⟩
  case beginReconnecting reason key delay =>
    cases step
    cases legal : canTransition (w.sessions i).state .reconnecting <;>
      simp [beginReconnecting, flags, legal]
  case checkKillSwitch enabled =>
    cases step
    refine ⟨fun stopped => ⟨(w.sessions i).state, if_pos ?_⟩, rfl⟩
    rw [show (w.sessions i).state = .disconnected from stopped]
    cases enabled <;> simp [State.terminal]
  case beginStop =>
    cases step
    cases again : (w.sessions i).stopping <;> simp [beginStop, flags, again]
  case lockGuard | nextWork =>
    split at step
    · cases step
    · cases step
      exact ⟨trivial, by simp [flags]⟩
  case engineApply site =>
    cases step
    exact ⟨trivial, by simp [flags]⟩
  all_goals
    cases step
    refine ⟨?_, ?_⟩ <;> first | rfl | simp [flags, append, commitKillSwitch]

/-! ## Engines and the guard -/

/-- What an operation does to the engine of its session: whether it may start it, or has
stopped it. -/
inductive EngineEffect where
  | none
  | start
  | stop

@[simp] def engineEffect {β : Type} : Op β → β → EngineEffect
  | .engineApply _ _ => fun _ => .start
  | .engineStop _ _ => fun err => if err.isNone then .stop else .none
  | .engineState _ => fun state => if state = .stopped then .stop else .none
  | _ => fun _ => .none

/-- What an operation does to the settings that the guard holds. -/
inductive GuardEffect where
  | none
  | apply
  | restore

@[simp] def guardEffect {β : Type} : Op β → β → GuardEffect
  | .guardApply _ _ _ => fun err => if err.isNone then .apply else .none
  | .guardRestore _ => fun err => if err.isNone then .restore else .none
  | _ => fun _ => .none

/-- An engine that reports to be stopped is not running. -/
def Sane (w : World) (i : Nat) : Prop := (w.engines i).state = .stopped → (w.engines i).live = false

theorem stop_sane (c : Choice) (e : EngineUnit) :
    (e.stop c).state = .stopped → (e.stop c).live = false := by
  unfold EngineUnit.stop
  split
  · exact fun _ => rfl
  · rintro ⟨⟩

theorem sane_engineApply (c : Choice) (i : Nat) (site : Site) (sane : Sane w i) :
    Sane (w.engineApply c i site).2 i := by
  simp only [Sane, engineApply, record_engines, setEngine_same]
  split
  · exact sane
  · split
    · rintro ⟨⟩
    · unfold startFailed
      split
      · exact sane
      · rename_i other
        exact fun stopped => absurd stopped other

def EngineEffect.Rel (e e' : EngineUnit) : EngineEffect → Prop
  | .none => e'.live = true → e.live = true
  | .start => True
  | .stop => e'.live = false

/-- Every operation of a session acts on its engine as `engineEffect` says. -/
theorem engine_step {op : Op β} (of : op.session = some i) (step : perform t c op w = some (b, w'))
    (sane : Sane w i) : Sane w' i ∧ (engineEffect op b).Rel (w.engines i) (w'.engines i) := by
  cases op <;> cases of <;> simp only [perform] at step
  case engineApply site =>
    cases step
    exact ⟨sane_engineApply c i site sane, trivial⟩
  case engineStop site =>
    obtain ⟨answer, rfl⟩ := pair_of_some step
    have answer : c.err = b := answer.symm
    simp only [Sane, engineStop, record_engines, setEngine_same, engineEffect]
    refine ⟨stop_sane c _, ?_⟩
    split
    · rename_i ok
      refine Bool.eq_false_of_not_eq_true fun live => ?_
      rw [← answer, (stop_live c _ live).2] at ok
      cases ok
    · exact fun live => (stop_live c _ live).1
  case engineClose | finishStop =>
    cases step
    simp only [Sane, engineClose, record_engines, setEngine_same]
    exact ⟨stop_sane c _, fun live => (stop_live c _ live).1⟩
  case engineState =>
    cases step
    refine ⟨sane, ?_⟩
    simp only [engineEffect]
    split
    · rename_i stopped
      exact sane stopped
    · exact id
  case lockGuard | nextWork =>
    split at step
    · cases step
    · cases step
      exact ⟨sane, id⟩
  all_goals
    cases step
    exact ⟨sane, id⟩

def GuardEffect.Rel (g g' : Guard) : GuardEffect → Prop
  | .none => g'.applied = g.applied
  | .apply => True
  | .restore => g'.applied = .empty

/-- Every operation of a session acts on the guard as `guardEffect` says. -/
theorem guard_step {op : Op β} (of : op.session = some i) (step : perform t c op w = some (b, w')) :
    (guardEffect op b).Rel w.guard w'.guard := by
  cases op <;> cases of <;> simp only [perform] at step
  case guardApply caller settings =>
    obtain ⟨rfl, rfl⟩ := pair_of_some step
    cases ok : (w.guardApply c i caller settings).1.isNone
    · simp only [guardEffect, ok]
      refine w.guard.applied_of_apply_failed c.faults settings ?_
      exact Option.isSome_iff_ne_none.mpr fun none => by simp [guardApply, none] at ok
    · simp only [guardEffect, ok]
      trivial
  case guardRestore =>
    obtain ⟨rfl, rfl⟩ := pair_of_some step
    have applied := (w.guard.restore_spec c.faults).applied
    simp only [guardEffect]
    split
    · rename_i ok
      exact applied.trans (if_pos ok)
    · rename_i failed
      exact applied.trans (if_neg failed)
  case lockGuard | nextWork =>
    split at step
    · cases step
    · obtain ⟨rfl, rfl⟩ := some_pair step
      rfl
  all_goals
    obtain ⟨rfl, rfl⟩ := some_pair step
    rfl

/-! ## Ownership of one session -/

structure OwnView where
  /-- The engine may be running. -/
  live : Bool
  /-- The guard may hold settings. -/
  dirty : Bool
  flags : Flags

namespace OwnView

@[simp] def engineAfter (live : Bool) : EngineEffect → Bool
  | .none => live
  | .start => true
  | .stop => false

@[simp] def guardAfter (dirty : Bool) : GuardEffect → Bool
  | .none => dirty
  | .apply => true
  | .restore => false

@[simp] def after {β : Type} (v : OwnView) (op : Op β) (b : β) : OwnView where
  live := engineAfter v.live (engineEffect op b)
  dirty := guardAfter v.dirty (guardEffect op b)
  flags := v.flags.after op b

/-- Whatever the guard holds, the session owns it; and a session that is stopping is
disconnected. -/
structure Settled (v : OwnView) : Prop where
  owned : v.dirty = true → v.flags.owns = true
  stopped : v.flags.stopping = true → v.flags.state = .disconnected

structure Released (v : OwnView) : Prop where
  live : v.live = false
  dirty : v.dirty = false
  owns : v.flags.owns = false
  state : v.flags.state = .disconnected

end OwnView

/-- The calls on session `i` over its view. -/
@[simps] def owning (i : Nat) : Discipline Op OwnView where
  allowed _ op := op.session = some i
  answers v := v.flags.answers
  next := OwnView.after

/-- What the calls on session `i` know, and what they leave alone. -/
structure Knows (i : Nat) (w₀ w : World) (v : OwnView) : Prop where
  live : (w.engines i).live = true → v.live = true
  dirty : w.guard.applied ≠ .empty → v.dirty = true
  flags : (w.sessions i).flags = v.flags
  sane : Sane w i
  same : World.SameBut i w₀ w

theorem Knows.step {op : Op β} {w₀ : World} {v : OwnView} (knows : Knows i w₀ w v)
    (of : op.session = some i) (step : perform t c op w = some (b, w')) :
    v.flags.answers op b ∧ Knows i w₀ w' (v.after op b) := by
  obtain ⟨live, dirty, flags, sane, same⟩ := knows
  obtain ⟨answer, flags'⟩ := flags_step of step
  obtain ⟨sane', engine⟩ := engine_step of step sane
  have guard := guard_step of step
  rw [flags] at answer flags'
  refine ⟨answer, ?_, ?_, flags', sane', same.trans (.of_perform step of)⟩
  · simp only [OwnView.after]
    cases effect : engineEffect op b <;> rw [effect] at engine
    · exact fun running => live (engine running)
    · exact fun _ => rfl
    · exact fun running => by rw [engine] at running; cases running
  · simp only [OwnView.after]
    cases effect : guardEffect op b <;> rw [effect] at guard
    · exact fun held => dirty (guard ▸ held)
    · exact fun _ => rfl
    · exact fun held => absurd guard held

variable {Q : Option Err → OwnView → Prop} {v₀ : OwnView}

section Calls

variable (i : Nat) {v : OwnView}

theorem restoreGuard_owning (kept : v.flags.owns = false → Q none v) (restored : v.flags.owns = true
    → Q none { v with dirty := false, flags := { v.flags with owns := false } })
    (failed : v.flags.owns = true → ∀ err, Q (some err) v) :
    (restoreGuard i).wp (owning i).transformer Q v := by
  simp only [restoreGuard]
  simp [Option.forall]
  exact ⟨fun owns => ⟨restored owns, failed owns⟩, kept⟩

theorem restoreGuard_owned (owned : v.dirty = true → v.flags.owns = true) :
    (restoreGuard i).wp (owning i).transformer (fun err v' =>
      (v'.dirty = true → v'.flags.owns = true) ∧ v'.live = v.live ∧
      v'.flags.state = v.flags.state ∧ v'.flags.stopping = v.flags.stopping ∧
      (err = none → v'.dirty = false ∧ v'.flags.owns = false)) v := by
  refine restoreGuard_owning i (fun owns => ?_) (fun _ => ?_) (fun _ err => ?_)
  · refine ⟨owned, rfl, rfl, rfl, fun _ => ⟨Bool.eq_false_of_not_eq_true fun dirty => ?_, owns⟩⟩
    rw [owned dirty] at owns
    cases owns
  · exact ⟨fun dirty => (by cases dirty), rfl, rfl, rfl, fun _ => ⟨rfl, rfl⟩⟩
  · exact ⟨owned, rfl, rfl, rfl, fun none => (by cases none)⟩

theorem fail_owning (err : Err) {Q : Unit → OwnView → Prop}
    (post : Q () { v with flags := v.flags.move .failed }) :
    (fail i err).wp (owning i).transformer Q v := by
  simp [fail, post]

@[simp] theorem Flags.move_owns (next : State) (f : Flags) : (f.move next).owns = f.owns := by
  unfold Flags.move
  split <;> rfl

@[simp] theorem Flags.move_stopping (next : State) (f : Flags) :
    (f.move next).stopping = f.stopping := by
  unfold Flags.move
  split <;> rfl

theorem Flags.move_disconnected (f : Flags) :
    f.move .disconnected = { f with state := .disconnected } := by
  obtain ⟨owns, state, stopping⟩ := f
  cases state <;> rfl

theorem OwnView.settled_of_running (owned : v.dirty = true → v.flags.owns = true)
    (running : v.flags.stopping = false) : v.Settled :=
  ⟨owned, fun stopping => by rw [running] at stopping; cases stopping⟩

theorem startEngine_owning (post : ∀ err live, Q err { v with live := live }) :
    (startEngine i).wp (owning i).transformer Q v := by
  simp [startEngine, Option.forall, post]

theorem start_owning (settled : v.Settled) (running : v.flags.stopping = false) :
    (start i).wp (owning i).transformer (fun _ v => v.Settled) v := by
  simp only [start]
  simp [Option.forall]
  refine ⟨fun _ => ⟨fun _ => ⟨?_, fun _ => ?_⟩, fun _ => ?_⟩, fun _ _ => settled⟩
  · refine startEngine_owning i (Option.rec (fun live => ?_) fun err live => ?_)
    · simp
      exact OwnView.settled_of_running (fun _ => by simp) (by simpa using running)
    · simp only [wp_bind]
      refine wp_mono _ (fun restoreErr v' post => ?_) (restoreGuard_owned i fun _ => rfl)
      have settled' : OwnView.Settled { v' with flags := v'.flags.move .failed } :=
        OwnView.settled_of_running (by simpa using post.1)
          (by simpa using post.2.2.2.1.trans running)
      cases restoreErr <;> simp [fail_owning, settled']
  · exact fail_owning i _ (OwnView.settled_of_running (fun _ => by simp) (by simpa using running))
  · exact fail_owning i _
      (OwnView.settled_of_running (by simpa using settled.owned) (by simpa using running))

theorem stop_owning (settled : v.Settled) :
    (stop i).wp (owning i).transformer
      (fun err v => v.Settled ∧ (err = none → v.Released)) v := by
  have restored (live : Bool) := restoreGuard_owned i
    (show (OwnView.mk live v.dirty ⟨v.flags.owns, v.flags.state, true⟩).dirty = true → _ from
      settled.owned)
  simp only [stop, wp_bind, wp_op, transformer_call]
  simp [stopAgain, stopFirst, Option.forall]
  refine ⟨fun again engine => ?_, fun first => ⟨?_, fun err => ?_⟩⟩
  · have state := settled.stopped again
    have again' : (restoreGuard i).wp (owning i).transformer
        (fun err v => v.Settled ∧ (err = none → v.Released))
        ⟨false, v.dirty, ⟨v.flags.owns, v.flags.state, true⟩⟩ := by
      refine wp_mono _ (fun restoreErr v' post => ?_) (restored false)
      obtain ⟨owned, live, state', -, released⟩ := post
      refine ⟨⟨owned, fun _ => state'.trans state⟩, fun ok => ?_⟩
      exact ⟨live, (released ok).1, (released ok).2, state'.trans state⟩
    refine ⟨fun stopped => ?_, fun running => ⟨again', fun _ => ⟨settled.owned, fun _ => state⟩⟩⟩
    simpa [stopped] using again'
  · refine wp_mono _ (fun restoreErr v' post => ?_) (restored false)
    obtain ⟨owned, live, -, -, released⟩ := post
    simp [Flags.move_disconnected]
    exact ⟨⟨owned, fun _ => rfl⟩, fun ok => ⟨live, (released ok).1, (released ok).2, rfl⟩⟩
  · refine wp_mono _ (fun restoreErr v' post => ?_) (restored v.live)
    simp [Flags.move_disconnected]
    exact ⟨post.1, fun _ => rfl⟩

theorem setKillSwitch_owning (enabled : Bool) (settled : v.Settled) :
    (setKillSwitch i enabled).wp (owning i).transformer (fun _ v => v.Settled) v := by
  simp [setKillSwitch, forall_except, Option.forall, settled]
  exact fun _ _ => ⟨fun _ => rfl, settled.stopped⟩

/-- What the supervising loop changes: never a session that is disconnected. -/
structure Supervised (v v' : OwnView) : Prop where
  dirty : v'.dirty = v.dirty
  owns : v'.flags.owns = v.flags.owns
  stopping : v'.flags.stopping = v.flags.stopping
  stays : v.flags.state = .disconnected → v' = v

theorem Supervised.refl (v : OwnView) : Supervised v v := ⟨rfl, rfl, rfl, fun _ => rfl⟩

/-- A change of the state or the engine of a session that is not disconnected. -/
theorem Supervised.change {v' : OwnView} (before : Supervised v₀ v)
    (running : v.flags.state ≠ .disconnected) (dirty : v'.dirty = v.dirty)
    (owns : v'.flags.owns = v.flags.owns) (stopping : v'.flags.stopping = v.flags.stopping) :
    Supervised v₀ v' := by
  refine ⟨dirty.trans before.dirty, owns.trans before.owns, stopping.trans before.stopping,
    fun stopped => absurd ?_ running⟩
  rw [before.stays stopped, stopped]

theorem Supervised.move (before : Supervised v₀ v) {next : State} (ne : next ≠ .connecting) :
    Supervised v₀ { v with flags := v.flags.move next } := by
  by_cases stopped : v.flags.state = .disconnected
  · have still : v.flags.move next = v.flags := by
      unfold Flags.move
      rw [stopped, if_neg]
      cases next <;> first | exact absurd rfl ne | decide
    rw [still]
    exact before
  · exact before.change stopped rfl (by simp) (by simp)

theorem noticeGroups_owning (groups : List GroupReading) (last : Fallbacks)
    {Q : Fallbacks → OwnView → Prop} (post : ∀ r, Q r v) :
    (noticeGroups i groups last).wp (owning i).transformer Q v := by
  exact noticeGroups_wp (fun ev _ => by simp) groups last post

theorem renewConnections_owning (before : Supervised v₀ v) {Q : Unit → OwnView → Prop}
    (post : ∀ v, Supervised v₀ v → Q () v) :
    (renewConnections i).wp (owning i).transformer Q v := by
  simp [renewConnections, Option.forall]
  refine ⟨fun connected => ⟨post _ before, fun _ => ?_⟩, fun _ => post _ before⟩
  have renewed : Supervised v₀ { v with live := true } :=
    before.change (by simp [connected]) rfl rfl rfl
  exact ⟨post _ renewed, fun _ _ => post _ renewed⟩

theorem supervise_owning (turns : Nat) (last : Fallbacks) (before : Supervised v₀ v) :
    (supervise i turns last).wp (owning i).transformer (fun _ v => Supervised v₀ v) v := by
  induction turns generalizing last v with
  | zero => exact before
  | succ n ih =>
    simp only [supervise, wp_bind, wp_op, transformer_call, owning_allowed,
      Op.session, owning_answers, Flags.answers, true_and, forall_const]
    intro work
    cases work with
    | done | closed => simp [before]
    | tick => simp [publishCounters, Option.forall, ih last before]
    | look => simp [noticeFallbacks, noticeGroups_owning, Option.forall, ih _ before]
    | network changed =>
      cases changed
      · simp [ih last before]
      · simp only [if_true, wp_bind]
        exact renewConnections_owning i before fun v after => ih last after
    | event ev =>
      simp only [wp_bind, publishEngineEvent, wp_op]
      refine ⟨rfl, fun _ _ => ?_⟩
      cases ev with
      | down err =>
        have moved := before.move (show State.reconnecting ≠ .connecting by decide)
        simp [setStateReconnecting]
        exact ⟨fun _ => ih last moved, fun _ => ih last moved⟩
      | state next =>
        cases next <;> simp [ih _ before]
        exact fun _ => ih _ (before.move (by decide))
      | fatal err =>
        have moved := before.move (show State.failed ≠ .connecting by decide)
        exact fail_owning i _ ⟨rfl, fun _ _ => moved⟩
      | _ => exact ih last before

end Calls

/-! ## All sessions -/

/-- At most the session `owner` owns a live engine or the settings of the guard. -/
structure Managed (w : World) (owner : Option Nat) : Prop where
  sane : ∀ i, Sane w i
  live : ∀ i, (w.engines i).live = true → owner = some i
  owns : ∀ i, (w.sessions i).guardApplied = true → owner = some i
  others : ∀ i, owner ≠ some i → (w.sessions i).state = .disconnected
  stopped : ∀ i, (w.sessions i).stopping = true → (w.sessions i).state = .disconnected
  guard : w.guard.applied ≠ .empty → ∃ i, owner = some i ∧ (w.sessions i).guardApplied = true
  known : ∀ i, owner = some i → i < w.created

namespace Managed

variable {owner : Option Nat}

theorem withManager (managed : Managed w owner) (m : Manager) :
    Managed { w with manager := m } owner :=
  ⟨managed.sane, managed.live, managed.owns, managed.others, managed.stopped, managed.guard,
    managed.known⟩

theorem adopt (managed : Managed w none) (known : i < w.created) : Managed w (some i) where
  sane := managed.sane
  live j running := by cases managed.live j running
  owns j applied := by cases managed.owns j applied
  others j _ := managed.others j (by simp)
  stopped := managed.stopped
  guard held := by obtain ⟨j, owner, -⟩ := managed.guard held; cases owner
  known j owner := Option.some.inj owner ▸ known

theorem engineClose (managed : Managed w owner) (c : Choice) (i : Nat) :
    Managed (w.engineClose c i) owner where
  sane j := by
    by_cases here : j = i
    · subst here
      simp only [Sane, World.engineClose, World.record_engines, World.setEngine_same]
      exact stop_sane c _
    · have same := (World.SameBut.engineClose c i w).engines j here
      rw [Sane, same]
      exact managed.sane j
  live j running := by
    by_cases here : j = i
    · subst here
      simp only [World.engineClose, World.record_engines, World.setEngine_same] at running
      exact managed.live j (stop_live c _ running).1
    · rw [(World.SameBut.engineClose c i w).engines j here] at running
      exact managed.live j running
  owns := managed.owns
  others := managed.others
  stopped := managed.stopped
  guard := managed.guard
  known := managed.known

end Managed

/-- What is known of session `i` before a call. -/
def World.own (w : World) (i : Nat) : OwnView :=
  ⟨(w.engines i).live, decide (w.guard.applied ≠ .empty), (w.sessions i).flags⟩

/-- A program of session `i` does to the world what it does to the view. -/
theorem wp_owning {α : Type} {p : Prog Op α} {Q : α → OwnView → Prop} (sane : Sane w i)
    (holds : p.wp (owning i).transformer Q (w.own i)) :
    p.wp machine.demonic (fun a w' => ∃ v, Knows i w w' v ∧ Q a v) w := by
  refine wp_of_view (owning i) ?_ p
    ⟨id, fun held => by simpa [own] using held, rfl, sane, .refl i w⟩ holds
  intro β op w₁ w₂ v c b knows of step
  exact knows.step of step

namespace Managed

variable {owner : Option Nat} {v : OwnView}

theorem own_settled (managed : Managed w (some i)) : (w.own i).Settled := by
  refine ⟨fun dirty => ?_, managed.stopped i⟩
  obtain ⟨j, owner, applied⟩ := managed.guard (of_decide_eq_true dirty)
  exact Option.some.inj owner ▸ applied

/-- The calls on the owner keep it the owner. -/
theorem settled (managed : Managed w (some i)) (knows : Knows i w w' v) (settled : v.Settled) :
    Managed w' (some i) where
  sane j := by
    by_cases here : j = i
    · exact here ▸ knows.sane
    · rw [Sane, knows.same.engines j here]
      exact managed.sane j
  live j running := by
    by_cases here : j = i
    · rw [here]
    · rw [knows.same.engines j here] at running
      exact managed.live j running
  owns j applied := by
    by_cases here : j = i
    · rw [here]
    · rw [knows.same.sessions j here] at applied
      exact managed.owns j applied
  others j other := by
    have ne : j ≠ i := fun here => other (here ▸ rfl)
    rw [knows.same.sessions j ne]
    exact managed.others j other
  stopped j stopping := by
    by_cases here : j = i
    · subst here
      have flags := knows.flags
      exact (congrArg Flags.state flags).trans
        (settled.stopped ((congrArg Flags.stopping flags).symm.trans stopping))
    · rw [knows.same.sessions j here] at stopping ⊢
      exact managed.stopped j stopping
  guard held :=
    ⟨i, rfl, (congrArg Flags.owns knows.flags).trans (settled.owned (knows.dirty held))⟩
  known := by
    rw [knows.same.created]
    exact managed.known

/-- Calls that change nothing of a session change nothing of the ownership. -/
theorem unchanged (managed : Managed w owner) (knows : Knows i w w' (w.own i)) :
    Managed w' owner := by
  have flags : ∀ j, (w'.sessions j).flags = (w.sessions j).flags := by
    intro j
    by_cases here : j = i
    · exact here ▸ knows.flags
    · rw [knows.same.sessions j here]
  refine ⟨fun j => ?_, fun j running => ?_, fun j applied => ?_, fun j other => ?_,
    fun j stopping => ?_, fun held => ?_, ?_⟩
  · by_cases here : j = i
    · exact here ▸ knows.sane
    · rw [Sane, knows.same.engines j here]
      exact managed.sane j
  · by_cases here : j = i
    · subst here
      exact managed.live j (knows.live running)
    · rw [knows.same.engines j here] at running
      exact managed.live j running
  · exact managed.owns j ((congrArg Flags.owns (flags j)).symm.trans applied)
  · exact (congrArg Flags.state (flags j)).trans (managed.others j other)
  · exact (congrArg Flags.state (flags j)).trans
      (managed.stopped j ((congrArg Flags.stopping (flags j)).symm.trans stopping))
  · obtain ⟨j, owner, applied⟩ := managed.guard (of_decide_eq_true (knows.dirty held))
    exact ⟨j, owner, (congrArg Flags.owns (flags j)).trans applied⟩
  · rw [knows.same.created]
    exact managed.known

/-- Once the owner is released there is no owner. -/
theorem released (managed : Managed w (some i)) (knows : Knows i w w' v) (settled : v.Settled)
    (released : v.Released) : Managed w' none := by
  have kept := managed.settled knows settled
  have flags := knows.flags
  refine ⟨kept.sane, fun j running => ?_, fun j applied => ?_, fun j _ => ?_, kept.stopped,
    fun held => ?_, fun j owner => by cases owner⟩
  · obtain rfl := Option.some.inj (kept.live j running)
    have live := knows.live running
    rw [released.live] at live
    cases live
  · obtain rfl := Option.some.inj (kept.owns j applied)
    have owns := (congrArg Flags.owns flags).symm.trans applied
    rw [released.owns] at owns
    cases owns
  · by_cases here : j = i
    · subst here
      exact (congrArg Flags.state flags).trans released.state
    · exact kept.others j fun owner => here (Option.some.inj owner).symm
  · have dirty := knows.dirty held
    rw [released.dirty] at dirty
    cases dirty

end Managed

end Sora.Session
