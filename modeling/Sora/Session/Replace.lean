import Sora.Session.Manager

/-!
# Replacing a session under the kill switch

`Connect` stops the current session and restores its settings before it starts the new one.
`replacing` follows the thread of the `Connect` through its stages while other threads ask
for the status or switch the kill switch on.
-/

set_option linter.dupNamespace false

namespace Sora.Session

open Sora.Lib Sora.Engine Sora.Guard List Option World Prog Session Discipline

/-! ## Stages -/

/-- The stages of the thread of `Connect`; the other threads stay in `other`. -/
inductive ConnectStage where
  | other
  | start
  | prep
  | built (i : Nat)
  | made (i : Nat)
  | stopping (i : Nat)
  | halted (i : Nat)
  | restored (i : Nat)
  | begun (i : Nat)
  | secured (i : Nat)
  deriving DecidableEq

namespace ConnectStage

/-- The operations of each stage of replacing session `j`. -/
@[simp] def allows {β : Type} (j : Nat) : ConnectStage → Op β → Prop
  | .other, .guardApply _ .setKillSwitch settings => settings.killSwitch = true
  | .other, .commitKillSwitch _ enabled => enabled = true
  | .other, .lockGuard _ => True
  | .other, .unlockGuard _ => True
  | .other, .checkKillSwitch _ _ => True
  | .other, .readStatus _ => True
  | .other, .current => True
  | .other, .managerStatus => True
  | .start, .beginCall => True
  | .prep, .prepareTun _ => True
  | .prep, .factory _ => True
  | .built i, .newSession k _ settings => k = i ∧ settings.killSwitch = true
  | .made _, .engineValidate _ => True
  | .made _, .ctxErr => True
  | .made _, .beginStop k => k = j
  | .stopping _, .cancel k => k = j
  | .stopping _, .engineStop k _ => k = j
  | .halted _, .lockGuard k => k = j
  | .halted _, .readGuardApplied k => k = j
  | .halted _, .guardRestore k => k = j
  | .restored _, .setGuardApplied k _ => k = j
  | .restored _, .unlockGuard k => k = j
  | .restored _, .setState k _ _ _ => k = j
  | .restored _, .finishStop k => k = j
  | .restored _, .readStatus _ => True
  | .restored _, .setLast _ => True
  | .restored _, .setCurrent _ => True
  | .restored i, .beginStart k => k = i
  | .begun _, .engineValidate _ => True
  | .begun i, .setGuardApplied k _ => k = i
  | .begun i, .settings k => k = i
  | .begun i, .guardApply k .start settings => k = i ∧ settings.killSwitch = true
  | .secured _, .engineApply _ .start => True
  | .secured _, .readPlan _ => True
  | .secured _, .tunUp _ => True
  | .secured _, .setState _ _ _ _ => True
  | .secured _, .commitCurrent _ => True
  | .secured _, .release => True
  | _, _ => False

/-- The answers when no call fails. -/
@[simp] def answers {β : Type} (j : Nat) : ConnectStage → Op β → β → Prop
  | _, .beginCall => fun b => b = none ∨ b = some (some j)
  | _, .prepareTun _ => fun b => b.1 = none
  | _, .factory _ => fun b => ∃ i, b = .ok i
  | _, .newSession _ _ _ => fun err => err = none
  | _, .engineValidate _ => fun err => err = none
  | _, .ctxErr => fun err => err = none
  | _, .beginStop _ => fun b => b = false
  | _, .engineStop _ _ => fun err => err = none
  | _, .readGuardApplied _ => fun b => b = true
  | _, .guardRestore _ => fun err => err = none
  | _, .beginStart _ => fun b => b = none
  | .begun _, .settings _ => fun b => b.killSwitch = true
  | _, .guardApply _ _ _ => fun err => err = none
  | _, .engineApply _ _ => fun err => err = none
  | _, .tunUp _ => fun err => err = none
  | _, .checkKillSwitch _ enabled => fun b =>
      ∀ settings, b = .ok settings → settings.killSwitch = enabled
  | _, _ => fun _ => True

@[simp] def after {β : Type} : ConnectStage → Op β → β → ConnectStage
  | .start, .beginCall => fun _ => .prep
  | .prep, .factory _ => fun b => match b with
    | .ok i => .built i
    | .error _ => .prep
  | .built i, .newSession _ _ _ => fun _ => .made i
  | .made i, .beginStop _ => fun _ => .stopping i
  | .stopping i, .engineStop _ _ => fun _ => .halted i
  | .halted i, .guardRestore _ => fun _ => .restored i
  | .restored i, .beginStart _ => fun _ => .begun i
  | .begun i, .guardApply _ _ _ => fun _ => .secured i
  | stage, _ => fun _ => stage

end ConnectStage

@[simps] def replacing (j : Nat) : Discipline Op ConnectStage where
  allowed stage op := stage.allows j op
  answers stage := stage.answers j
  next := ConnectStage.after

variable {Q : Option Err → ConnectStage → Prop} {w w' : World} {i j n : Nat} {o : Outside}
    {β : Type} {c : Choice} {stage : ConnectStage} {stages : List ConnectStage}

section Programs

variable (j : Nat)

theorem setKillSwitch_replacing (k : Nat) (post : ∀ r, Q r .other) :
    (setKillSwitch k true).wp (replacing j).transformer Q .other := by
  simp [setKillSwitch, forall_except, post]

theorem stop_replacing (i : Nat) (post : Q none (.restored i)) :
    (stop j).wp (replacing j).transformer Q (.made i) := by
  simp [stop, stopFirst, restoreGuard, post]

theorem start_replacing (i : Nat) (post : Q none (.secured i)) :
    (start i).wp (replacing j).transformer Q (.restored i) := by
  simp [start, startEngine, post]

theorem connect_replacing (plan : Plan) (settings : Settings) (asks : settings.killSwitch = true)
    {Q : Except Err Nat → ConnectStage → Prop} (post : ∀ r stage, Q r stage) :
    (connect plan settings).wp (replacing j).transformer Q .start := by
  simp only [connect, wp_bind, wp_op, transformer_call, replacing_allowed,
    ConnectStage.allows, true_and]
  rintro b (rfl | rfl)
  · simp [post]
  · simp only [prepare, wp_bind, wp_op, transformer_call, replacing_allowed,
      ConnectStage.allows, replacing_next,
      ConnectStage.after, true_and]
    rintro ⟨_, plan⟩ rfl
    simp [replace, launch, asks, stop_replacing, start_replacing, post]

/-- What other callers ask meanwhile. -/
inductive Request where
  | killSwitchOn
  | status

def Request.program : Request → Prog Op Unit
  | .killSwitchOn => (requestKillSwitch true).ignore
  | .status => managerStatus.ignore

theorem request_replacing (request : Request) :
    (replacing j).Follows (fun _ => True) .other request.program := by
  unfold Discipline.Follows
  cases request with
  | killSwitchOn =>
    simp only [Request.program, requestKillSwitch, wp_ignore, wp_bind, wp_op]
    refine ⟨trivial, fun current _ => ?_⟩
    cases current with
    | none => simp
    | some k => exact setKillSwitch_replacing j k fun _ => trivial
  | status =>
    simp only [Request.program, managerStatus, wp_ignore, wp_bind, wp_op]
    refine ⟨trivial, fun found _ => ?_⟩
    obtain ⟨_ | k, last⟩ := found <;> simp

end Programs

/-! ## What the stages know -/

/-- No call of an engine, of the guard or of the factory fails. -/
def nothingFails : Admission Op World := fun _ op _ b _ =>
  match op with
  | .prepareTun _ => b.1.isNone
  | .factory _ => b.toOption.isSome
  | .newSession _ _ _ | .engineValidate _ | .ctxErr | .engineApply _ _ | .engineStop _ _
  | .guardApply _ _ _ | .guardRestore _ | .tunUp _ => b.isNone
  | _ => true

/-- The calls made since the history had `n` entries. -/
def World.since (n : Nat) (w : World) : List Outside := w.history.drop n

/-- No session has applied its settings in `Start`. -/
def Unapplied (calls : List Outside) : Prop :=
  ∀ i killSwitch err, .guardApply i .start killSwitch err ∉ calls

/-- Session `j` is current and holds the guard, and no other engine runs. -/
structure Holding (j n : Nat) (w : World) : Prop where
  applied : w.guard.applied.killSwitch = true
  current : w.manager.current = some j
  owns : (w.sessions j).guardApplied = true
  dead : ∀ k, k ≠ j → (w.engines k).live = false
  known : j < w.created
  unapplied : Unapplied (w.since n)

/-- The settings of session `j` are restored, those of the next one are not applied, and no
engine runs. -/
structure Handover (j n : Nat) (w : World) : Prop where
  dead : ∀ k, (w.engines k).live = false
  restored : .guardRestore j none ∈ w.since n
  unapplied : Unapplied (w.since n)

/-- The next session, which asks for the kill switch. -/
structure Next (j i : Nat) (w : World) : Prop where
  ne : i ≠ j
  asks : (w.sessions i).status.killSwitch = true
  fresh : (w.sessions i).state = .disconnected

def ConnectStage.Holds (j n : Nat) (w : World) : ConnectStage → Prop
  | .other => False
  | .start | .prep => Holding j n w ∧ (w.sessions j).stopping = false
  | .built i => Holding j n w ∧ (w.sessions j).stopping = false ∧ i ≠ j
  | .made i => Holding j n w ∧ (w.sessions j).stopping = false ∧ Next j i w
  | .stopping i => Holding j n w ∧ Next j i w
  | .halted i => Holding j n w ∧ Next j i w ∧ (w.engines j).live = false
  | .restored i => Handover j n w ∧ Next j i w
  | .begun i => Handover j n w ∧ (w.sessions i).status.killSwitch = true
  | .secured _ => w.guard.applied.killSwitch = true

/-- The guard accepts calls, and the switch in its settings is in force. -/
structure Enforced (n : Nat) (w : World) : Prop where
  idle : w.guard.restoring = false
  armed : w.guard.applied.killSwitch = true → w.guard.firewall.armed = true
  recorded : n ≤ w.history.length

theorem since_append (enforced : Enforced n w) (history : w'.history = w.history ++ [o]) :
    w'.since n = w.since n ++ [o] := by
  rw [since, history, drop_append_of_le_length enforced.recorded, since]

theorem Unapplied.append {calls : List Outside} (unapplied : Unapplied calls)
    (other : ∀ i killSwitch err, o ≠ .guardApply i .start killSwitch err) :
    Unapplied (calls ++ [o]) := by
  intro i killSwitch err mem
  rcases mem_append.mp mem with mem | mem
  · exact unapplied i killSwitch err mem
  · exact other i killSwitch err (mem_singleton.mp mem).symm

/-! ## Steps of the other threads -/

/-- What a session keeps while others ask for its status or switch it on. -/
structure Session.Keeps (s s' : Session) : Prop where
  owns : s.guardApplied = true → s'.guardApplied = true
  stopping : s'.stopping = s.stopping
  state : s'.state = s.state
  asks : s.status.killSwitch = true → s'.status.killSwitch = true

theorem Session.Keeps.refl (s : Session) : s.Keeps s := ⟨id, rfl, rfl, id⟩

structure Calm (n : Nat) (w w' : World) : Prop where
  applied : w.guard.applied.killSwitch = true → w'.guard.applied.killSwitch = true
  manager : w'.manager = w.manager
  engines : w'.engines = w.engines
  created : w'.created = w.created
  sessions : ∀ k, (w.sessions k).Keeps (w'.sessions k)
  since : w.since n ⊆ w'.since n
  unapplied : Unapplied (w.since n) → Unapplied (w'.since n)

theorem Calm.refl (n : Nat) (w : World) : Calm n w w :=
  ⟨id, rfl, rfl, rfl, fun _ => .refl _, fun _ => id, id⟩

variable {b : β}

theorem Calm.onSession {f : Session → β × Session} (keeps : ∀ s : Session, s.Keeps (f s).2)
    (step : onSession i f w = some (b, w')) : Calm n w w' := by
  cases step
  refine ⟨id, rfl, rfl, rfl, fun k => ?_, fun _ => id, id⟩
  by_cases same : k = i
  · rw [same, setSession_same]
    exact keeps _
  · rw [setSession_other _ _ _ same]
    exact .refl _

variable {t : Nat}

theorem Calm.lockGuard {b : Unit} (step : perform t c (.lockGuard i) w = some (b, w')) :
    Calm n w w' := by
  simp only [perform] at step
  split at step
  · cases step
  · exact .onSession (fun s => ⟨id, rfl, rfl, id⟩) step

section Calm

theorem Holding.calm (holding : Holding j n w) (calm : Calm n w w') : Holding j n w' where
  applied := calm.applied holding.applied
  current := calm.manager ▸ holding.current
  owns := (calm.sessions j).owns holding.owns
  dead k ne := calm.engines ▸ holding.dead k ne
  known := calm.created ▸ holding.known
  unapplied := calm.unapplied holding.unapplied

theorem Handover.calm (handover : Handover j n w) (calm : Calm n w w') : Handover j n w' where
  dead k := calm.engines ▸ handover.dead k
  restored := calm.since handover.restored
  unapplied := calm.unapplied handover.unapplied

theorem Next.calm (next : Next j i w) (calm : Calm n w w') : Next j i w' where
  ne := next.ne
  asks := (calm.sessions i).asks next.asks
  fresh := (calm.sessions i).state.trans next.fresh

theorem ConnectStage.Holds.calm (holds : stage.Holds j n w) (calm : Calm n w w') :
    stage.Holds j n w' := by
  have stopping := (calm.sessions j).stopping
  cases stage with
  | other => exact holds
  | start | prep => exact ⟨holds.1.calm calm, stopping.trans holds.2⟩
  | built i => exact ⟨holds.1.calm calm, stopping.trans holds.2.1, holds.2.2⟩
  | made i => exact ⟨holds.1.calm calm, stopping.trans holds.2.1, holds.2.2.calm calm⟩
  | stopping i | restored i => exact ⟨holds.1.calm calm, holds.2.calm calm⟩
  | halted i => exact ⟨holds.1.calm calm, holds.2.1.calm calm, calm.engines ▸ holds.2.2⟩
  | begun i => exact ⟨holds.1.calm calm, (calm.sessions i).asks holds.2⟩
  | secured i => exact calm.applied holds

end Calm

theorem Enforced.of_same (enforced : Enforced n w) (guard : w'.guard = w.guard)
    (history : w'.history = w.history) : Enforced n w' :=
  ⟨guard ▸ enforced.idle, guard ▸ enforced.armed, history ▸ enforced.recorded⟩

theorem Enforced.of_record (enforced : Enforced n w) (guard : w'.guard = w.guard)
    (history : w'.history = w.history ++ [o]) : Enforced n w' := by
  refine ⟨guard ▸ enforced.idle, guard ▸ enforced.armed, ?_⟩
  rw [history, length_append]
  exact enforced.recorded.trans (Nat.le_add_right ..)

/-- Switching on arms the firewall, or leaves it armed. -/
theorem Enforced.guardApply (enforced : Enforced n w) (c : Choice) (k : Nat) (caller : Caller)
    {settings : Settings} (asks : settings.killSwitch = true)
    (ok : (w.guardApply c k caller settings).1 = none) :
    Enforced n (w.guardApply c k caller settings).2 ∧
      (w.guardApply c k caller settings).2.guard.applied.killSwitch = true := by
  have spec := w.guard.apply_spec c.faults settings enforced.idle
  change Guard.Applied w.guard settings (w.guardApply c k caller settings).1
    (w.guardApply c k caller settings).2.guard at spec
  have history : (w.guardApply c k caller settings).2.history = w.history ++
    [.guardApply k caller settings.killSwitch (w.guardApply c k caller settings).1] := rfl
  rw [ok] at spec
  have applied : (w.guardApply c k caller settings).2.guard.applied.killSwitch = true := by
    simp [spec.applied, asks]
  refine ⟨⟨spec.restoring, fun _ => ?_, ?_⟩, applied⟩
  · rw [spec.armed]
    by_cases on : w.guard.applied.killSwitch = true
    · simp [asks, enforced.armed on]
    · simp [asks, on]
  · rw [history, length_append]
    exact enforced.recorded.trans (Nat.le_add_right ..)

theorem other_step {op : Op β} (enforced : Enforced n w) (ok : (ConnectStage.other).allows j op)
    (step : perform t c op w = some (b, w')) (smooth : nothingFails β op w b w' = true) :
    (ConnectStage.other).answers j op b ∧ (ConnectStage.other).after op b = .other ∧
      Enforced n w' ∧ Calm n w w' := by
  cases op <;> try exact False.elim ok
  case guardApply k caller settings =>
    cases caller with
    | start => exact False.elim ok
    | setKillSwitch =>
      cases step
      have done := isNone_iff_eq_none.mp smooth
      obtain ⟨enforced', applied⟩ := enforced.guardApply c k .setKillSwitch ok done
      have since := since_append enforced
        (show (w.guardApply c k .setKillSwitch settings).2.history = w.history ++ [_] from rfl)
      refine ⟨done, rfl, enforced', fun _ => applied, rfl, rfl, rfl, fun _ => .refl _, ?_, ?_⟩
      · exact since ▸ subset_append_left _ _
      · exact fun unapplied => since ▸ unapplied.append fun _ _ _ eq => by cases eq
  case commitKillSwitch k enabled =>
    have on : enabled = true := ok
    simp only [perform] at step
    refine ⟨trivial, rfl, ?_, .onSession (fun s => ⟨fun _ => rfl, rfl, rfl, fun _ => on⟩) step⟩
    cases step
    exact enforced.of_same rfl rfl
  case lockGuard k =>
    refine ⟨trivial, rfl, ?_, .lockGuard step⟩
    simp only [perform] at step
    split at step
    · cases step
    · cases step
      exact enforced.of_same rfl rfl
  case unlockGuard k =>
    simp only [perform] at step
    refine ⟨trivial, rfl, ?_, .onSession (fun s => ⟨id, rfl, rfl, id⟩) step⟩
    cases step
    exact enforced.of_same rfl rfl
  case checkKillSwitch k enabled =>
    cases step
    refine ⟨fun settings checked => ?_, rfl, enforced, .refl n w⟩
    unfold checkKillSwitch at checked
    split at checked
    · cases checked
    · cases checked
      rfl
  case readStatus | current | managerStatus =>
    cases step
    exact ⟨trivial, rfl, enforced, .refl n w⟩

/-! ## Steps of `Connect` -/

section Steps

theorem Enforced.setSession (enforced : Enforced n w) (k : Nat) (s : Session) :
    Enforced n (w.setSession k s) := enforced.of_same rfl rfl

theorem Holding.setSession (holding : Holding j n w) (k : Nat) (s : Session)
    (owns : k = j → s.guardApplied = true) : Holding j n (w.setSession k s) := by
  refine ⟨holding.applied, holding.current, ?_, holding.dead, holding.known, holding.unapplied⟩
  by_cases same : j = k
  · rw [same, setSession_same]
    exact owns same.symm
  · rw [setSession_other _ _ _ same]
    exact holding.owns

theorem Handover.setSession (handover : Handover j n w) (k : Nat) (s : Session) :
    Handover j n (w.setSession k s) :=
  ⟨handover.dead, handover.restored, handover.unapplied⟩

theorem Next.setSession (next : Next j i w) (s : Session) : Next j i (w.setSession j s) := by
  refine ⟨next.ne, ?_, ?_⟩ <;> rw [setSession_other _ _ _ next.ne]
  · exact next.asks
  · exact next.fresh

theorem Handover.engineClose (handover : Handover j n w) (enforced : Enforced n w) (c : Choice)
    (k : Nat) : Handover j n (w.engineClose c k) := by
  have since := since_append enforced
    (show (w.engineClose c k).history = w.history ++ [_] from rfl)
  refine ⟨fun l => ?_, ?_, ?_⟩
  · by_cases same : l = k
    · refine Bool.eq_false_of_not_eq_true fun live => ?_
      simp only [World.engineClose, World.record_engines, same, World.setEngine_same] at live
      exact Bool.false_ne_true ((handover.dead k).symm.trans (EngineUnit.stop_live c _ live).1)
    · simpa [World.engineClose, same] using handover.dead l
  · exact since ▸ mem_append_left _ handover.restored
  · exact since ▸ handover.unapplied.append fun _ _ _ eq => by cases eq

end Steps

/-- Every operation of a stage, answered without a failure, leads to the next one. -/
def ConnectStage.Steps (j n : Nat) (stage : ConnectStage) : Prop :=
  ∀ {β : Type} {op : Op β} {t : Nat} {c : Choice} {w w' : World} {b : β}, Enforced n w →
    stage.Holds j n w → stage.allows j op → perform t c op w = some (b, w') →
    nothingFails β op w b w' = true →
    stage.answers j op b ∧ Enforced n w' ∧ (stage.after op b).Holds j n w'

theorem start_steps (j n : Nat) : (ConnectStage.start).Steps j n := by
  intro β op t c w w' b enforced holds ok step smooth
  cases op <;> try exact False.elim ok
  obtain ⟨holding, stopping⟩ := holds
  cases step
  refine ⟨?_, enforced.of_same rfl rfl, ⟨holding.applied, ?_, holding.owns, holding.dead,
    holding.known, holding.unapplied⟩, stopping⟩
  · simp only [ConnectStage.answers]
    split
    · exact .inl rfl
    · exact .inr (congrArg some holding.current)
  · simp only
    split
    · exact holding.current
    · exact holding.current

/-- Creating the engine and the next session. -/
theorem prep_steps (j n : Nat) : (ConnectStage.prep).Steps j n := by
  intro β op t c w w' b enforced holds ok step smooth
  obtain ⟨holding, stopping⟩ := holds
  cases op <;> try exact False.elim ok
  case prepareTun plan =>
    cases step
    exact ⟨isNone_iff_eq_none.mp smooth, enforced, holding, stopping⟩
  case factory plan =>
    simp only [perform] at step
    split at step <;> cases step
    · cases smooth
    · refine ⟨⟨_, rfl⟩, enforced.of_same rfl rfl, ⟨holding.applied, holding.current, holding.owns,
        fun k ne => ?_, holding.known.trans (Nat.lt_succ_self _), holding.unapplied⟩, stopping,
        (Nat.ne_of_lt holding.known).symm⟩
      by_cases new : k = w.created
      · simp [new, EngineUnit.new]
      · simpa [new] using holding.dead k ne

theorem built_steps (i j n : Nat) : (ConnectStage.built i).Steps j n := by
  intro β op t c w w' b enforced holds ok step smooth
  obtain ⟨holding, stopping, ne⟩ := holds
  cases op <;> try exact False.elim ok
  case newSession k plan settings =>
    obtain ⟨rfl, asks⟩ := ok
    simp only [perform] at step
    split at step <;> cases step
    · cases smooth
    · refine ⟨rfl, enforced.setSession _ _, holding.setSession _ _ fun same => absurd same ne, ?_,
        ne, ?_, ?_⟩
      · simpa [ne.symm] using stopping
      · simpa [new, Status.initial] using asks
      · simp [new]

theorem made_steps (i j n : Nat) : (ConnectStage.made i).Steps j n := by
  intro β op t c w w' b enforced holds ok step smooth
  cases op <;> try exact False.elim ok
  case beginStop k =>
    have same : k = j := ok
    obtain ⟨holding, stopping, next⟩ := holds
    cases step
    subst same
    simp only [beginStop, stopping]
    exact ⟨rfl, enforced.setSession _ _, holding.setSession _ _ fun _ => holding.owns,
      next.setSession _⟩
  case engineValidate | ctxErr =>
    cases step
    exact ⟨isNone_iff_eq_none.mp smooth, enforced, holds⟩

theorem stopping_steps (i j n : Nat) : (ConnectStage.stopping i).Steps j n := by
  intro β op t c w w' b enforced holds ok step smooth
  cases op <;> try exact False.elim ok
  case cancel k =>
    simp only [perform] at step
    refine ⟨trivial, ?_, holds.calm (.onSession (fun s => ⟨id, rfl, rfl, id⟩) step)⟩
    cases step
    exact enforced.setSession _ _
  case engineStop k site =>
    have same : k = j := ok
    subst same
    obtain ⟨holding, next⟩ := holds
    cases step
    have done : c.err = none := isNone_iff_eq_none.mp smooth
    have history : (w.engineStop c k site).2.history = w.history ++ [_] := rfl
    have since := since_append enforced history
    refine ⟨done, enforced.of_record rfl history, ⟨holding.applied, holding.current, holding.owns,
      fun l ne => ?_, holding.known, ?_⟩, ⟨next.ne, next.asks, next.fresh⟩, ?_⟩
    · simpa [ne] using holding.dead l ne
    · exact since ▸ holding.unapplied.append fun _ _ _ eq => by cases eq
    · simp [EngineUnit.stop, done]

theorem halted_steps (i j n : Nat) : (ConnectStage.halted i).Steps j n := by
  intro β op t c w w' b enforced holds ok step smooth
  cases op <;> try exact False.elim ok
  case lockGuard k =>
    refine ⟨trivial, ?_, holds.calm (.lockGuard step)⟩
    simp only [perform] at step
    split at step
    · cases step
    · obtain ⟨rfl, rfl⟩ := some_pair step
      exact enforced.setSession _ _
  case readGuardApplied k =>
    have same : k = j := ok
    subst same
    obtain ⟨rfl, rfl⟩ := some_pair step
    exact ⟨holds.1.owns, enforced, holds⟩
  case guardRestore k =>
    have same : k = j := ok
    subst same
    obtain ⟨holding, next, dead⟩ := holds
    obtain ⟨rfl, rfl⟩ := pair_of_some step
    have done : (w.guardRestore c k).1 = none := isNone_iff_eq_none.mp smooth
    have history : (w.guardRestore c k).2.history =
      w.history ++ [.guardRestore k (w.guardRestore c k).1] := rfl
    have since := since_append enforced history
    have spec := w.guard.restore_spec c.faults
    change Guard.Restored w.guard (w.guardRestore c k).1 (w.guardRestore c k).2.guard at spec
    rw [done] at spec since
    refine ⟨done, ⟨spec.restoring, fun on => ?_, ?_⟩, ⟨fun l => ?_, ?_, ?_⟩, next.ne, next.asks,
      next.fresh⟩
    · simp [spec.applied, Settings.empty] at on
    · rw [history, length_append]
      exact enforced.recorded.trans (Nat.le_add_right ..)
    · by_cases same : l = k
      · exact same ▸ dead
      · exact holding.dead l same
    · simp [since]
    · exact since ▸ holding.unapplied.append fun _ _ _ eq => by cases eq

theorem restored_steps (i j n : Nat) : (ConnectStage.restored i).Steps j n := by
  intro β op t c w w' b enforced holds ok step smooth
  obtain ⟨handover, next⟩ := holds
  cases op <;> try exact False.elim ok
  case setGuardApplied k _ | unlockGuard k | setState k _ _ _ =>
    have same : k = j := ok
    subst same
    cases step
    exact ⟨trivial, enforced.setSession _ _, handover.setSession _ _, next.setSession _⟩
  case finishStop k =>
    cases step
    exact ⟨trivial, enforced.of_record rfl rfl, handover.engineClose enforced c k, next.ne,
      next.asks, next.fresh⟩
  case readStatus k =>
    cases step
    exact ⟨trivial, enforced, handover, next⟩
  case setLast _ | setCurrent _ =>
    cases step
    exact ⟨trivial, enforced.of_same rfl rfl,
      ⟨handover.dead, handover.restored, handover.unapplied⟩, next.ne, next.asks, next.fresh⟩
  case beginStart k =>
    have same : k = i := ok
    subst same
    cases step
    have fresh := next.fresh
    refine ⟨?_, enforced.setSession _ _, handover.setSession _ _, ?_⟩
    · simp [beginStart, fresh]
    · simpa [beginStart, fresh] using next.asks

theorem begun_steps (i j n : Nat) : (ConnectStage.begun i).Steps j n := by
  intro β op t c w w' b enforced holds ok step smooth
  cases op <;> try exact False.elim ok
  case engineValidate k =>
    cases step
    exact ⟨isNone_iff_eq_none.mp smooth, enforced, holds⟩
  case setGuardApplied k applied =>
    have same : k = i := ok
    subst same
    cases step
    refine ⟨trivial, enforced.setSession _ _, holds.1.setSession _ _, ?_⟩
    rw [setSession_same]
    exact holds.2
  case settings k =>
    have same : k = i := ok
    subst same
    cases step
    exact ⟨holds.2, enforced, holds⟩
  case guardApply k caller settings =>
    cases caller with
    | setKillSwitch => exact False.elim ok
    | start =>
      cases step
      have done := isNone_iff_eq_none.mp smooth
      obtain ⟨enforced', applied⟩ := enforced.guardApply c k .start ok.2 done
      exact ⟨done, enforced', applied⟩

theorem secured_steps (i j n : Nat) : (ConnectStage.secured i).Steps j n := by
  intro β op t c w w' b enforced holds ok step smooth
  cases op <;> try exact False.elim ok
  case engineApply k site =>
    cases step
    exact ⟨isNone_iff_eq_none.mp smooth, enforced.of_record rfl rfl, holds⟩
  case tunUp =>
    cases step
    exact ⟨isNone_iff_eq_none.mp smooth, enforced, holds⟩
  case readPlan | setState | commitCurrent | release =>
    cases step
    exact ⟨trivial, enforced.of_same rfl rfl, holds⟩

theorem connect_steps (j n : Nat) (stage : ConnectStage) : stage.Steps j n := by
  cases stage with
  | other =>
    intro β op t c w w' b enforced holds
    exact False.elim holds
  | start => exact start_steps j n
  | prep => exact prep_steps j n
  | built i => exact built_steps i j n
  | made i => exact made_steps i j n
  | stopping i => exact stopping_steps i j n
  | halted i => exact halted_steps i j n
  | restored i => exact restored_steps i j n
  | begun i => exact begun_steps i j n
  | secured i => exact secured_steps i j n

/-! ## Replacing the session -/

/-- The first thread is in a stage of `Connect`, the others only make requests. -/
def Replacing (j n : Nat) (w : World) (stages : List ConnectStage) : Prop :=
  Enforced n w ∧ ∃ stage rest, stages = stage :: rest ∧ stage.Holds j n w ∧
    ∀ request ∈ rest, request = .other

theorem Replacing.spawn (replacing : Replacing j n w stages) :
    Replacing j n w (stages ++ [.other]) := by
  obtain ⟨enforced, first, rest, rfl, holds, others⟩ := replacing
  refine ⟨enforced, first, rest ++ [.other], rfl, holds, fun request mem => ?_⟩
  rcases mem_append.mp mem with mem | mem
  · exact others request mem
  · exact mem_singleton.mp mem

theorem Replacing.step {op : Op β} (replacing : Replacing j n w stages)
    (thread : stages[t]? = some stage) (ok : stage.allows j op)
    (step : perform t c op w = some (b, w')) (smooth : nothingFails β op w b w' = true) :
    stage.answers j op b ∧ Replacing j n w' (stages.set t (stage.after op b)) := by
  obtain ⟨enforced, first, rest, rfl, holds, others⟩ := replacing
  cases t with
  | zero =>
    obtain rfl := Option.some.inj thread
    obtain ⟨answer, enforced', holds'⟩ := connect_steps j n first enforced holds ok step smooth
    exact ⟨answer, enforced', _, rest, rfl, holds', others⟩
  | succ t =>
    obtain rfl := others stage (mem_of_getElem? thread)
    obtain ⟨answer, stays, enforced', calm⟩ := other_step enforced ok step smooth
    refine ⟨answer, enforced', first, _, rfl, holds.calm calm, fun request mem => ?_⟩
    rcases mem_or_eq_of_mem_set mem with mem | rfl
    · exact others request mem
    · exact stays

theorem ConnectStage.Holds.armed_or (holds : stage.Holds j n w) (enforced : Enforced n w) :
    w.guard.firewall.armed = true ∨ Handover j n w := by
  cases stage with
  | other => exact False.elim holds
  | start | prep | built | made | stopping | halted => exact .inl (enforced.armed holds.1.applied)
  | restored i | begun i => exact .inr holds.1
  | secured i => exact .inl (enforced.armed holds)

/-- Session `j` is current, holds the guard with the kill switch in force, and its engine is
the only one that may run. -/
structure World.Sheltered (j : Nat) (w : World) : Prop where
  current : w.manager.current = some j
  known : j < w.created
  stopping : (w.sessions j).stopping = false
  owns : (w.sessions j).guardApplied = true
  applied : w.guard.applied.killSwitch = true
  armed : w.guard.firewall.armed = true
  idle : w.guard.restoring = false
  dead : ∀ k, k ≠ j → (w.engines k).live = false

/-- While a `Connect` replaces a session under the kill switch, with any requests for the
status and for the kill switch beside it and no failing call, the firewall is armed at every
moment, except from the restoring of the old settings to the applying of the new ones; in
between no engine runs. -/
theorem firewall_armed_but_in_handover (j : Nat) (w₀ : World) (plan : Plan) (settings : Settings)
    (sheltered : w₀.Sheltered j) (asks : settings.killSwitch = true) (pool : Pool Op World)
    (reach : Pool.Reach machine Request.program nothingFails
      ⟨w₀, [(connect plan settings).ignore]⟩ pool) :
    pool.world.guard.firewall.armed = true ∨
      (.guardRestore j none ∈ pool.world.history.drop w₀.history.length ∧
        (∀ i killSwitch err,
          .guardApply i .start killSwitch err ∉ pool.world.history.drop w₀.history.length) ∧
        ∀ k, (pool.world.engines k).live = false) := by
  have follows : (replacing j).Follows (fun _ => True) .start (connect plan settings).ignore := by
    unfold Discipline.Follows
    rw [wp_ignore]
    exact connect_replacing j plan settings asks fun _ _ => trivial
  have unapplied : Unapplied (w₀.since w₀.history.length) := by
    simp [Unapplied, since]
  have init : Replacing j w₀.history.length w₀ [.start] :=
    ⟨⟨sheltered.idle, fun _ => sheltered.armed, Nat.le_refl _⟩, .start, [], rfl,
      ⟨⟨sheltered.applied, sheltered.current, sheltered.owns, sheltered.dead, sheltered.known,
        unapplied⟩, sheltered.stopping⟩, forall_mem_nil _⟩
  obtain ⟨stages, ⟨enforced, stage, rest, -, holds, -⟩, -⟩ :=
    Pool.invariant (replacing j) (fun _ => True) .other (Replacing j w₀.history.length)
      (request_replacing j) (fun w stages inv => inv.spawn)
      (fun op w w' stages t stage c b inv thread ok step smooth => inv.step thread ok step smooth)
      init (.cons follows .nil) reach
  refine (holds.armed_or enforced).imp_right fun handover => ?_
  exact ⟨handover.restored, handover.unapplied, handover.dead⟩

/-- Session `0` is connected under the kill switch. -/
def connectedWorld : World :=
  { World.idle .nftables .bare .switchedOn with
    guard := ((Guard.initial .nftables).apply {} .switchedOn).2
    sessions := fun _ =>
      { Session.new .bare .switchedOn with state := .connected, guardApplied := true }
    engines := fun k => ⟨.singBox, .running, k == 0, some .bare⟩
    manager := ⟨some 0, .initial .switchedOn, false⟩ }

theorem connectedWorld_sheltered : connectedWorld.Sheltered 0 :=
  ⟨rfl, by decide, rfl, rfl, rfl, rfl, rfl, fun k ne => by simp [connectedWorld, ne]⟩

/-- The kill switch is asked for while the old session stops; then the new one connects. -/
def replacingRun : List (Move Request Choice) :=
  .spawn .killSwitchOn :: (List.replicate 6 (.step 0 {}) ++ List.replicate 3 (.step 1 {}) ++
    List.replicate 3 (.step 0 {}) ++ List.replicate 3 (.step 1 {}) ++
    List.replicate 20 (.step 0 {}))

theorem replacingRun_stays_armed :
    ∃ pool, Pool.exec machine Request.program nothingFails
        ⟨connectedWorld, [(connect .bare .switchedOn).ignore]⟩ replacingRun = some pool ∧
      (pool.world.engines 1).live = true ∧ (pool.world.sessions 1).state = .connected ∧
      pool.world.guard.firewall.armed = true := by
  obtain ⟨pool, ran, facts⟩ := map_eq_some_iff.mp
    (show (Pool.exec machine Request.program nothingFails
        ⟨connectedWorld, [(connect .bare .switchedOn).ignore]⟩ replacingRun).map (fun pool =>
          ((pool.world.engines 1).live, (pool.world.sessions 1).state)) =
      some (true, .connected) from rfl)
  obtain ⟨live, connected⟩ := Prod.mk.inj facts
  refine ⟨pool, ran, live, connected, ?_⟩
  rcases firewall_armed_but_in_handover 0 connectedWorld .bare .switchedOn connectedWorld_sheltered
    rfl pool (Pool.reach_of_exec .refl ran) with armed | ⟨-, -, dead⟩
  · exact armed
  · exact absurd live (by simp [dead 1])

/-- Once the old settings are restored, the firewall is down. -/
theorem replaced_session_lifts_switch :
    ∃ pool, Pool.Reach machine Request.program nothingFails
        ⟨connectedWorld, [(connect .bare .switchedOn).ignore]⟩ pool ∧
      connectedWorld.Sheltered 0 ∧ (connectedWorld.sessions 0).state = .connected ∧
      (connectedWorld.sessions 0).status.killSwitch = true ∧
      pool.world.guard.firewall.armed = false := by
  obtain ⟨pool, ran, off⟩ := map_eq_some_iff.mp
    (show (Pool.exec machine Request.program nothingFails
        ⟨connectedWorld, [(connect .bare .switchedOn).ignore]⟩
        (replicate 12 (.step 0 {}))).map (fun pool => pool.world.guard.firewall.armed) =
      some false from rfl)
  exact ⟨pool, Pool.reach_of_exec .refl ran, connectedWorld_sheltered, rfl, rfl, off⟩

end Sora.Session
