import Sora.Session.Runner

/-!
# What a disconnected session owns

`Stop` enters disconnected whatever the engine's stop and the guard's restoration answered, and
it cancels the context of the supervising loop, whose end closes `done`, before it restores the
guard.  In the runs in which the calls of `Stop` succeed, `Start` and `Stop` do not overlap and
the loop does not end while settings are applied, a disconnected session owns nothing and `done`
is closed after the settings have been restored.

A step changes the part of a session that matters here as `OwnedView.after` says
(`ownedView_step`).  The invariant `Orderly` ties this view to the phases of the threads.
-/

set_option linter.dupNamespace false

namespace Sora.Session

open Sora.Lib Sora.Engine Sora.Guard List World Session

/-! ## Calls -/

/-- What the goroutines of the core do with a session: the supervising loop is the end of a
successful `Start`. -/
inductive RunCall where
  | start (turns : Nat)
  | stop
  | setKillSwitch (enabled : Bool)
  | select (group target : Bytes)
  | status

def startAndSupervise (i turns : Nat) : Prog Op Unit := do
  match ← start i with
  | some _ => pure ()
  | none =>
    let plan ← .op (.readPlan i)
    supervise i turns (Fallbacks.initial plan)

def RunCall.program (i : Nat) : RunCall → Prog Op Unit
  | .start turns => startAndSupervise i turns
  | .stop => (Session.stop i).ignore
  | .setKillSwitch enabled => (Session.setKillSwitch i enabled).ignore
  | .select group target => (Session.select i group target).ignore
  | .status => (Prog.op (.readStatus i)).ignore

/-! ## The view -/

/-- The journal entry that `Start` makes first. -/
def Event.opens (ev : Event) : Bool :=
  ev.isState && ev.state == .connecting && ev.key == []

/-- Whether `Start` has been called on the session. -/
def Session.begun (s : Session) : Bool := s.log.any Event.opens

/-- Whether the engine's stop that the first `Stop` of the session calls has succeeded. -/
def World.halted (i : Nat) (w : World) : Bool := w.history.contains (.engineStop i .firstStop none)

structure OwnedView where
  state : State
  stopping : Bool
  cancelled : Bool
  applied : Bool
  lock : Option Nat
  begun : Bool
  halted : Bool

def Session.owned (halted : Bool) (s : Session) : OwnedView where
  state := s.state
  stopping := s.stopping
  cancelled := s.cancelled
  applied := s.guardApplied
  lock := s.guardMu
  begun := s.begun
  halted := halted

def World.ownedView (i : Nat) (w : World) : OwnedView := (w.sessions i).owned (w.halted i)

namespace OwnedView

def move (next : State) (v : OwnedView) : OwnedView :=
  if canTransition v.state next then { v with state := next } else v

section Move

variable (next : State) (v : OwnedView)

@[simp] theorem move_stopping : (v.move next).stopping = v.stopping := by unfold move; split <;> rfl
@[simp] theorem move_cancelled : (v.move next).cancelled = v.cancelled := by unfold move; split <;> rfl
@[simp] theorem move_applied : (v.move next).applied = v.applied := by unfold move; split <;> rfl
@[simp] theorem move_lock : (v.move next).lock = v.lock := by unfold move; split <;> rfl
@[simp] theorem move_begun : (v.move next).begun = v.begun := by unfold move; split <;> rfl
@[simp] theorem move_halted : (v.move next).halted = v.halted := by unfold move; split <;> rfl

theorem move_disconnected {next : State} {v : OwnedView} (other : next ≠ .disconnected)
    (down : (v.move next).state = .disconnected) : v.state = .disconnected := by
  unfold move at down
  split at down
  · exact absurd down other
  · exact down

end Move

/-- What an operation of thread `t` does to the view. -/
@[simp] def after {β : Type} (t : Nat) (v : OwnedView) (op : Op β) (answer : β) : OwnedView :=
  match op, answer with
  | .beginStart _, refused =>
    if refused.isNone then { v with state := .connecting, begun := true } else v
  | .setGuardApplied _ applied, _ => { v with applied := applied }
  | .setState _ next _ _, _ => v.move next
  | .beginReconnecting _ _ _ _, moved => if moved then { v with state := .reconnecting } else v
  | .commitKillSwitch _ _, _ => { v with applied := true }
  | .beginStop _, _ => { v with stopping := true }
  | .cancel _, _ => { v with cancelled := true }
  | .lockGuard _, _ => { v with lock := some t }
  | .unlockGuard _, _ => { v with lock := none }
  | .engineStop _ site, err =>
    { v with halted := v.halted || decide (site = .firstStop ∧ err = none) }
  | _, _ => v

/-- Which answers an operation can give. -/
@[simp] def answers {β : Type} (v : OwnedView) (op : Op β) (answer : β) : Prop :=
  match op, answer with
  | .beginStart _, refused => refused = none → v.state = .disconnected
  | .readGuardApplied _, applied => applied = v.applied
  | .beginReconnecting _ _ _ _, moved => moved = canTransition v.state .reconnecting
  | .checkKillSwitch _ _, settings => settings.isOk = true → v.stopping = false
  | .beginStop _, again => again = v.stopping
  | .lockGuard _, _ => v.lock = none
  | .nextWork _, work => (work = .done ∨ work = .closed) → v.cancelled = true
  | _, _ => True

end OwnedView

/-- The operations of the programs of session `i`: only `Start` enters connecting. -/
@[simp] def Op.ordinary {β : Type} (i : Nat) (op : Op β) : Prop :=
  op.session = some i ∧
    match op with
    | .setState _ next _ _ => next ≠ .connecting
    | .append _ ev => ev.opens = false
    | _ => True

theorem owned_append {ev : Event} (other : ev.opens = false) (halted : Bool) (s : Session) :
    (s.append ev).owned halted = s.owned halted := by
  simp [owned, begun, append, other]

variable {next : State} {w w' : World} {β : Type} {i t' : Nat} {o : Outside} {answer : β}

theorem owned_setStateLocked (other : next ≠ .connecting) (reason : Code) (key : Key)
    (halted : Bool) (s : Session) :
    (s.setStateLocked next reason key).owned halted = (s.owned halted).move next := by
  cases legal : canTransition s.state next <;>
    simp [setStateLocked, owned, OwnedView.move, begun, Event.opens, legal, other]

variable {b : β}

/-- A section of the session that the view shows as `f` does. -/
theorem ownedView_onSession {f : Session → β × Session}
    (step : onSession i f w = some (b, w')) :
    w'.ownedView i = (f (w.sessions i)).2.owned (w.halted i) := by
  cases step
  rw [ownedView, setSession_same]
  rfl

/-- A call of an engine or of the guard. -/
theorem ownedView_record (same : (w'.sessions i).owned (w.halted i) = w.ownedView i)
    (history : w'.history = w.history ++ [o]) :
    w'.ownedView i =
      { w.ownedView i with halted := w.halted i || decide (o = .engineStop i .firstStop none) } := by
  have halted : w'.halted i = (w.halted i || decide (o = .engineStop i .firstStop none)) := by
    simp [halted, history, eq_comm]
  rw [← same, ownedView, halted]
  rfl

theorem ownedView_other (same : (w'.sessions i).owned (w.halted i) = w.ownedView i)
    (history : w'.history = w.history ++ [o]) (other : o ≠ .engineStop i .firstStop none) :
    w'.ownedView i = w.ownedView i := by
  rw [ownedView_record same history, decide_eq_false other, Bool.or_false]
  rfl

theorem ownedView_step {t : Nat} {c : Choice} {op : Op β} (ordinary : op.ordinary i)
    (step : perform t c op w = some (b, w')) :
    (w.ownedView i).answers op b ∧ w'.ownedView i = (w.ownedView i).after t op b := by
  obtain ⟨of, plain⟩ := ordinary
  cases op <;> cases of <;> simp only [perform] at step
  case beginStart =>
    obtain ⟨rfl, rfl⟩ := some_pair step
    by_cases fresh : (w.sessions i).state = .disconnected
    · simp [beginStart, ownedView, halted, owned, fresh,
        setStateLocked, canTransition, allowedTransitions, begun, Event.opens,
        Event.isState]
    · simp [beginStart, ownedView, halted, fresh]
  case setState next reason key =>
    refine ⟨trivial, (ownedView_onSession step).trans ?_⟩
    exact owned_setStateLocked plain reason key _ _
  case beginReconnecting reason key delay =>
    obtain ⟨rfl, rfl⟩ := some_pair step
    cases legal : canTransition (w.sessions i).state .reconnecting <;>
      simp [beginReconnecting, ownedView, halted, owned, begun, legal]
  case checkKillSwitch enabled =>
    obtain ⟨rfl, rfl⟩ := some_pair step
    refine ⟨fun accepted => ?_, rfl⟩
    unfold checkKillSwitch at accepted
    split at accepted
    · cases accepted
    · rename_i open_
      simp only [Bool.or_eq_true, not_or, Bool.not_eq_true] at open_
      exact open_.1.1
  case beginStop =>
    obtain ⟨rfl, rfl⟩ := some_pair step
    cases again : (w.sessions i).stopping <;>
      simp [beginStop, ownedView, halted, owned, begun, again]
  case lockGuard =>
    split at step
    · cases step
    · rename_i free
      exact ⟨by simpa [ownedView, owned] using free, ownedView_onSession step⟩
  case append ev =>
    exact ⟨trivial, (ownedView_onSession step).trans (owned_append plain _ _)⟩
  case nextWork =>
    split at step
    · cases step
    · rename_i awake
      obtain ⟨rfl, rfl⟩ := some_pair step
      refine ⟨fun ends => ?_, rfl⟩
      simpa [ownedView, owned, ends] using awake
  case engineApply site =>
    obtain ⟨rfl, rfl⟩ := some_pair step
    refine ⟨trivial, ownedView_other ?_ rfl (by rintro ⟨⟩)⟩
    simp [ownedView, owned, begun]
  case engineStop site =>
    obtain ⟨rfl, rfl⟩ := pair_of_some step
    have changed : (w.engineStop c i site).2.ownedView i = _ :=
      ownedView_record (w := w) rfl rfl
    refine ⟨trivial, changed.trans ?_⟩
    simp only [Outside.engineStop.injEq, true_and]
    congr
  case finishStop | engineClose | guardApply caller settings | guardRestore =>
    obtain ⟨rfl, rfl⟩ := pair_of_some step
    exact ⟨trivial, ownedView_other rfl rfl (by rintro ⟨⟩)⟩
  all_goals first
    | exact ⟨trivial, ownedView_onSession step⟩
    | (obtain ⟨rfl, rfl⟩ := some_pair step; exact ⟨trivial, rfl⟩)
    | (obtain ⟨rfl, rfl⟩ := some_pair step; exact ⟨rfl, rfl⟩)

/-! ## The phases of a thread -/

inductive OwnedPhase where
  | idle
  /-- `Start`, before and after it claims the guard. -/
  | starting
  | armed
  /-- A `Start` that gives up; `locked` while it restores the guard. -/
  | unwinding (locked : Bool)
  | supervising
  /-- The loop has seen the end of its context or a fatal event. -/
  | returning
  /-- `SetKillSwitch`, before and after its check. -/
  | checking
  | approved
  /-- The first `Stop`, before and after the engine's stop, or (`again`) another one. -/
  | stopping
  | halted
  | again
  /-- `Stop` restores the guard; `clear` once the settings are restored. -/
  | restoring (first : Bool)
  | clear (first : Bool)
  | cleared (first : Bool)
  deriving DecidableEq

namespace OwnedPhase

/-- `Start` is running. -/
@[simp] def launches : OwnedPhase → Bool
  | .starting | .armed | .unwinding _ => true
  | _ => false

/-- The thread of a `Start` that has begun. -/
@[simp] def active : OwnedPhase → Bool
  | .starting | .armed | .unwinding _ | .supervising | .returning => true
  | _ => false

/-- The thread holds the lock of the guard. -/
@[simp] def holds : OwnedPhase → Bool
  | .unwinding locked => locked
  | .checking | .approved | .restoring _ | .clear _ => true
  | _ => false

@[simp] def stops : OwnedPhase → Bool
  | .stopping | .halted | .again | .restoring _ | .clear _ | .cleared _ => true
  | _ => false

/-- A first `Stop` whose engine has stopped. -/
@[simp] def stopped : OwnedPhase → Bool
  | .halted => true
  | .restoring first | .clear first | .cleared first => first
  | _ => false

/-- The settings have been restored for good. -/
@[simp] def settles : OwnedPhase → Bool
  | .clear _ | .cleared _ | .returning => true
  | _ => false

end OwnedPhase

/-- The work after which the loop returns. -/
@[simp] def Work.ends : Work → Bool
  | .done | .closed | .event (.fatal _) => true
  | _ => false

namespace OwnedPhase

@[simp] def allows {β : Type} (i : Nat) (s : OwnedPhase) (op : Op β) : Prop :=
  op.ordinary i ∧
    match op with
    | .beginStart _ | .beginStop _ => s = .idle
    | .setGuardApplied _ applied =>
      if applied then s = .starting else s = .unwinding true ∨ ∃ first, s = .restoring first
    | .setState _ next _ _ =>
      match next with
      | .connected => s = .armed ∨ s = .supervising
      | .failed => s = .starting ∨ s = .armed ∨ s = .unwinding false ∨ s = .returning
      | _ => next = .disconnected ∧ s = .cleared true
    | .beginReconnecting _ _ _ _ | .nextWork _ => s = .supervising
    | .checkKillSwitch _ _ => s = .checking
    | .commitKillSwitch _ _ => s = .approved
    | .cancel _ => s = .stopping
    | .engineStop _ site => site = .firstStop → s = .stopping
    | .lockGuard _ => s = .idle ∨ s = .armed ∨ s = .halted ∨ s = .again
    | .readGuardApplied _ | .guardRestore _ => s = .unwinding true ∨ ∃ first, s = .restoring first
    | .unlockGuard _ =>
      s = .unwinding true ∨ s = .checking ∨ s = .approved ∨ ∃ first, s = .clear first
    | .closeDone _ => s = .returning
    | _ => True

/-- The calls that have to succeed. -/
@[simp] def answers {β : Type} (s : OwnedPhase) (op : Op β) (answer : β) : Prop :=
  match op, answer with
  | .engineStop _ site, err => site = .firstStop → err = none
  | .guardRestore _, err => s = .unwinding true ∨ err = none
  | _, _ => True

@[simp] def after {β : Type} (s : OwnedPhase) (op : Op β) (answer : β) : OwnedPhase :=
  match op, answer with
  | .beginStart _, refused => if refused.isNone then .starting else s
  | .setGuardApplied _ applied, _ =>
    match applied, s with
    | true, _ => .armed
    | false, .restoring first => .clear first
    | false, _ => s
  | .setState _ next _ _, _ =>
    match next, s with
    | .connected, .armed => .supervising
    | .failed, .returning => s
    | .failed, _ => .idle
    | _, _ => s
  | .nextWork _, work => if work.ends then .returning else s
  | .closeDone _, _ => .idle
  | .checkKillSwitch _ _, settings => if settings.isOk then .approved else s
  | .beginStop _, repeated => if repeated then .again else .stopping
  | .engineStop _ site, _ => if site = .firstStop then .halted else s
  | .lockGuard _, _ =>
    match s with
    | .armed => .unwinding true
    | .halted => .restoring true
    | .again => .restoring false
    | _ => .checking
  | .readGuardApplied _, applied =>
    match applied, s with
    | false, .restoring first => .clear first
    | _, _ => s
  | .unlockGuard _, _ =>
    match s with
    | .unwinding _ => .unwinding false
    | .clear first => .cleared first
    | _ => .idle
  | _, _ => s

end OwnedPhase

@[simps] def releasing (i : Nat) : Discipline Op OwnedPhase where
  allowed := OwnedPhase.allows i
  answers := OwnedPhase.answers
  next := OwnedPhase.after

variable {q s : OwnedPhase}

section Programs

variable (i : Nat) {Q : Option Err → OwnedPhase → Prop}

theorem fail_releasing (err : Err) {Q : Unit → OwnedPhase → Prop}
    (may : s = .starting ∨ s = .armed ∨ s = .unwinding false) (post : Q () .idle) :
    (fail i err).wp (releasing i).transformer Q s := by
  rcases may with rfl | rfl | rfl <;>
    simp [fail, Err.entry, Event.opens, post]

theorem restoreGuard_unwinds
    (post : ∀ r, Q r (.unwinding false)) : (restoreGuard i).wp (releasing i).transformer Q .armed := by
  simp [restoreGuard, Option.forall, post]

theorem restoreGuard_clears (first : Bool)
    (post : Q none (.cleared first)) :
    (restoreGuard i).wp (releasing i).transformer Q (if first then .halted else .again) := by
  cases first <;> simp [restoreGuard, post]

theorem startEngine_releasing (post : ∀ r, Q r .armed) :
    (startEngine i).wp (releasing i).transformer Q .armed := by
  simp [startEngine, Option.forall, post]

theorem start_releasing (up : Q none .supervising)
    (down : ∀ err, Q (some err) .idle) : (start i).wp (releasing i).transformer Q .idle := by
  have gives_up : ∀ (err : Err) (s : OwnedPhase),
      (s = .starting ∨ s = .armed ∨ s = .unwinding false) →
      (fail i err).wp (releasing i).transformer (fun _ => Q (some err)) s :=
    fun err s may => fail_releasing i err may (down err)
  simp only [start, Prog.wp_bind, Prog.wp_op]
  refine ⟨by simp, fun refused _ => ?_⟩
  cases refused with
  | some state => exact down _
  | none =>
    simp [Option.forall, gives_up]
    refine fun _ => startEngine_releasing i fun result => ?_
    cases result with
    | none => simp [up]
    | some err =>
      simp only [Prog.wp_bind]
      refine restoreGuard_unwinds i fun restored => ?_
      cases restored <;> simp [Event.opens, gives_up]

theorem stop_releasing (post : ∀ r s, Q r s) : (stop i).wp (releasing i).transformer Q .idle := by
  simp only [stop, Prog.wp_bind, Prog.wp_op]
  refine ⟨by simp, fun repeated _ => ?_⟩
  cases repeated with
  | true =>
    have restores : (restoreGuard i).wp (releasing i).transformer
        (fun r => Q (r.map (·.wrap .internal keyGuardRestoreFailed))) .again :=
      restoreGuard_clears i false (post _ _)
    simp [stopAgain, Option.forall, post, restores]
  | false =>
    simp [stopFirst]
    exact restoreGuard_clears i true (by simp [post])

theorem setKillSwitch_releasing (enabled : Bool)
    (post : ∀ r, Q r .idle) : (setKillSwitch i enabled).wp (releasing i).transformer Q .idle := by
  simp [setKillSwitch, forall_except, Option.forall, Except.toBool, post]

theorem select_releasing (group target : Bytes)
    (post : ∀ r, Q r .idle) : (select i group target).wp (releasing i).transformer Q .idle := by
  have marked : keySelectionChanged ≠ [] := by decide
  simp [select, Option.forall, Event.opens, marked, post]

theorem publishEngineEvent_releasing (ev : EngineEvent) {Q : Unit → OwnedPhase → Prop}
    (post : Q () s) : (publishEngineEvent i ev).wp (releasing i).transformer Q s := by
  cases ev <;>
    simp [publishEngineEvent, engineEntry, Err.entry, Event.opens, post]

theorem supervise_releasing (turns : Nat) (last : Fallbacks) :
    (supervise i turns last).wp (releasing i).transformer (fun _ _ => True) .supervising := by
  induction turns generalizing last with
  | zero => trivial
  | succ n ih =>
    simp only [supervise, Prog.wp_bind, Prog.wp_op]
    refine ⟨by simp, fun work _ => ?_⟩
    cases work with
    | done | closed => simp
    | tick =>
      simp [publishCounters, Event.opens, Option.forall, ih]
    | look =>
      have notices : ∀ groups, (noticeGroups i groups last).wp (releasing i).transformer
          (fun last => (supervise i n last).wp (releasing i).transformer fun _ _ => True)
          .supervising := by
        intro groups
        refine noticeGroups_wp (fun ev group => ?_) groups last ih
        simp [Event.opens, Event.isState, group]
      simp [noticeFallbacks, Option.forall, ih, notices]
    | network changed =>
      cases changed <;>
        simp [renewConnections, Event.opens, Option.forall, ih]
    | event ev =>
      simp only [Prog.wp_bind]
      refine publishEngineEvent_releasing i ev ?_
      cases ev with
      | down err =>
        simp [setStateReconnecting, Event.opens, ih]
      | state next => cases next <;> simp [ih]
      | fatal err =>
        simp [fail, Err.entry, Event.opens]
      | _ => simp [ih]

theorem program_releasing (call : RunCall) :
    (releasing i).Follows (fun _ => True) .idle (call.program i) := by
  unfold Discipline.Follows
  cases call with
  | start turns =>
    simp only [RunCall.program, startAndSupervise, Prog.wp_bind]
    refine start_releasing i ?_ fun err => trivial
    simp [supervise_releasing]
  | stop => simp [RunCall.program, stop_releasing]
  | setKillSwitch enabled => simp [RunCall.program, setKillSwitch_releasing]
  | select group target => simp [RunCall.program, select_releasing]
  | status => simp [RunCall.program]

end Programs

/-! ## The invariant -/

/-- The runs in which the engine's stop and the restoration that `Stop` asks for succeed,
`Start` and `Stop` do not overlap, and the loop does not end while settings are applied. -/
def orderly (i : Nat) : Admission Op World := fun _ op w answer _ =>
  match op, answer with
  | .beginStart _, _ => !(w.sessions i).stopping
  | .beginStop _, _ => (w.sessions i).state != .connecting
  | .engineStop _ site, err => site != .firstStop || err.isNone
  | .guardRestore _, err => !(w.sessions i).stopping || err.isNone
  | .nextWork _, work => !(work.ends && (w.sessions i).guardApplied)
  | _, _ => true

/-- The settings are restored and nobody is about to apply them again. -/
structure Settled (v : OwnedView) (phases : List OwnedPhase) : Prop where
  stopping : v.stopping = true
  restored : v.applied = false
  refused : .approved ∉ phases

/-- What the phase of thread `t` tells about the session. -/
structure OwnedPhase.Knows (v : OwnedView) (settled : Prop) (t : Nat) (s : OwnedPhase) : Prop where
  launching : s.launches = true → v.state = .connecting ∧ v.stopping = false
  armed : s = .armed → v.applied = true
  begun : s.active = true → v.begun = true
  lock : s.holds = true → v.lock = some t
  stopping : s.stops = true → v.stopping = true
  halted : s.stopped = true → v.halted = true
  supervising : s = .supervising → v.applied = true ∨ settled
  settled : s.settles = true → settled

structure Orderly (v : OwnedView) (phases : List OwnedPhase) : Prop where
  knows : ∀ (t : Nat) (s : OwnedPhase), phases[t]? = some s → s.Knows v (Settled v phases) t
  /-- At most one `Start` gets past its first section. -/
  single : ∀ (t t' : Nat) (s s' : OwnedPhase), phases[t]? = some s → phases[t']? = some s' → s.active = true →
    s'.active = true → t = t'
  cancelled : v.cancelled = true → v.stopping = true
  released : v.begun = true → v.state = .disconnected → Settled v phases ∧ v.halted = true

section Steps

variable {v v' : OwnedView} {phases : List OwnedPhase} {t : Nat} {s' : OwnedPhase}

/-- A step of thread `t`: what the thread knows then, and what the others still know. -/
theorem Orderly.change (inv : Orderly v phases) (thread : phases[t]? = some s)
    (own : s'.Knows v' (Settled v' (phases.set t s')) t)
    (others : ∀ t' q, t' ≠ t → phases[t']? = some q → q.Knows v (Settled v phases) t' →
      q.Knows v' (Settled v' (phases.set t s')) t')
    (single : s'.active = true → s.active = true ∨
      ∀ t' q, t' ≠ t → phases[t']? = some q → q.active = false)
    (cancelled : v'.cancelled = true → v'.stopping = true)
    (released : v'.begun = true → v'.state = .disconnected →
      Settled v' (phases.set t s') ∧ v'.halted = true) :
    Orderly v' (phases.set t s') where
  knows t' q there := by
    rcases getElem?_set_cases there with ⟨rfl, rfl⟩ | ⟨other, there⟩
    · exact own
    · exact others t' q other there (inv.knows t' q there)
  single t₁ t₂ s₁ s₂ there₁ there₂ active₁ active₂ := by
    have once : ∀ t' q, t' ≠ t → phases[t']? = some q → q.active = true → s'.active = true → False := by
      intro t' q other there active active'
      rcases single active' with before | alone
      · exact other (inv.single _ _ _ _ there thread active before)
      · exact absurd ((alone t' q other there).symm.trans active) nofun
    rcases getElem?_set_cases there₁ with ⟨is₁, rfl⟩ | ⟨other₁, old₁⟩
    · rcases getElem?_set_cases there₂ with ⟨is₂, -⟩ | ⟨other₂, old₂⟩
      · exact is₁.trans is₂.symm
      · exact (once _ _ other₂ old₂ active₂ active₁).elim
    · rcases getElem?_set_cases there₂ with ⟨-, rfl⟩ | ⟨other₂, old₂⟩
      · exact (once _ _ other₁ old₁ active₁ active₂).elim
      · exact inv.single _ _ _ _ old₁ old₂ active₁ active₂
  cancelled := cancelled
  released := released

theorem Settled.keep (settled : Settled v phases) (stopping : v'.stopping = v.stopping)
    (applied : v'.applied = v.applied) (other : s' ≠ .approved) :
    Settled v' (phases.set t s') where
  stopping := stopping.trans settled.stopping
  restored := applied.trans settled.restored
  refused member := by
    rcases mem_or_eq_of_mem_set member with old | new
    · exact settled.refused old
    · exact other new.symm

/-- What another thread knows survives a step that spares it. -/
theorem OwnedPhase.Knows.keep {settled settled' : Prop} (knows : q.Knows v settled t')
    (launching : q.launches = true → v'.state = v.state ∧ v'.stopping = v.stopping) (applied : q =
    .armed ∨ q = .supervising → v.applied = true → v'.applied = true ∨ q = .supervising ∧ settled')
    (begun : v.begun = true → v'.begun = true) (lock : q.holds = true → v'.lock = v.lock)
    (stopping : v.stopping = true → v'.stopping = true)
    (halted : v.halted = true → v'.halted = true) (kept : settled → settled') :
    q.Knows v' settled' t' where
  launching is := ⟨(launching is).1.trans (knows.launching is).1,
    (launching is).2.trans (knows.launching is).2⟩
  armed is := by
    rcases applied (.inl is) (knows.armed is) with still | ⟨other, -⟩
    · exact still
    · cases is.symm.trans other
  begun is := begun (knows.begun is)
  lock is := (lock is).trans (knows.lock is)
  stopping is := stopping (knows.stopping is)
  halted is := halted (knows.halted is)
  supervising is := by
    rcases knows.supervising is with was | was
    · exact (applied (.inr is) was).imp_right (·.2)
    · exact .inr (kept was)
  settled is := kept (knows.settled is)

theorem set_same (thread : phases[t]? = some s) : phases.set t s = phases := by
  obtain ⟨bound, rfl⟩ := List.getElem?_eq_some_iff.mp thread
  exact set_getElem_self bound

/-- A step that shows at most that the context is cancelled, that the engine has stopped or that the
thread takes or leaves the lock. -/
theorem Orderly.pass (inv : Orderly v phases) (thread : phases[t]? = some s)
    (own : s'.Knows v' (Settled v' (phases.set t s')) t) (other : s' ≠ .approved)
    (single : s'.active = true → s.active = true) (same : v'.state = v.state ∧
      v'.stopping = v.stopping ∧ v'.applied = v.applied ∧ v'.begun = v.begun)
    (lock : ∀ t' ≠ t, v.lock = some t' → v'.lock = some t')
    (cancelled : v'.cancelled = true → v'.stopping = true)
    (halted : v.halted = true → v'.halted = true) : Orderly v' (phases.set t s') := by
  obtain ⟨state, stopping, applied, begun⟩ := same
  have kept : Settled v phases → Settled v' (phases.set t s') := fun settled =>
    settled.keep stopping applied other
  refine inv.change thread own (fun t' q ne _ knows => ?_) (fun is => .inl (single is)) cancelled
    fun has down => ?_
  · exact knows.keep (fun _ => ⟨state, stopping⟩) (fun _ is => .inl (applied.trans is)) (begun ▸ id)
      (fun holds => (lock t' ne (knows.lock holds)).trans (knows.lock holds).symm) (stopping ▸ id)
      halted kept
  · obtain ⟨settled, was⟩ := inv.released (begun ▸ has) (state ▸ down)
    exact ⟨kept settled, halted was⟩

/-- Another thread is not in the way of one that is past the first section of `Start`. -/
theorem Orderly.alone (inv : Orderly v phases) (thread : phases[t]? = some s)
    (active : s.active = true) (other : t' ≠ t) (there : phases[t']? = some q) :
    q.active = false := by
  cases is : q.active with
  | false => rfl
  | true => exact absurd (inv.single _ _ _ _ there thread is active) other

theorem OwnedPhase.launches_active (inactive : q.active = false) :
    q.launches = false ∧ q ≠ .armed ∧ q ≠ .supervising := by
  cases q <;> simp_all

namespace Orderly

variable (inv : Orderly v phases)

include inv

section

variable (thread : phases[t]? = some s)

include thread

/-- A step of a thread of `Start` that changes the state or, while no `Stop` has begun, the
ownership of the guard. -/
theorem active_step (active : s.active = true) (own : s'.Knows v' (Settled v' (phases.set t s')) t)
    (other : s' ≠ .approved) (stopping : v'.stopping = v.stopping)
    (applied : v.stopping = true → v'.applied = v.applied) (cancelled : v'.cancelled = v.cancelled)
    (lock : v'.lock = v.lock) (begun : v'.begun = v.begun) (halted : v'.halted = v.halted)
    (state : v'.state = .disconnected → v.state = .disconnected) :
    Orderly v' (phases.set t s') := by
  have kept : Settled v phases → Settled v' (phases.set t s') := fun settled =>
    settled.keep stopping (applied settled.stopping) other
  refine inv.change thread own (fun t' q ne there knows => ?_) (fun _ => .inl active) ?_ ?_
  · obtain ⟨idle, unarmed, unwatched⟩ := OwnedPhase.launches_active (inv.alone thread active ne there)
    refine knows.keep (fun is => ?_) (fun is => ?_) (begun ▸ id) (fun _ => lock) (stopping ▸ id)
      (halted ▸ id) kept
    · exact absurd (idle.symm.trans is) nofun
    · exact (is.elim unarmed unwatched).elim
  · rw [cancelled, stopping]
    exact inv.cancelled
  · intro has down
    obtain ⟨settled, stopped⟩ := inv.released (begun ▸ has) (state down)
    exact ⟨kept settled, halted ▸ stopped⟩

/-- The lock of the guard keeps the approved ones away. -/
theorem settled_of_lock
    (holds : s.holds = true) (stopping : v'.stopping = true) (restored : v'.applied = false)
    (is : s ≠ .approved) (other : s' ≠ .approved) : Settled v' (phases.set t s') where
  stopping := stopping
  restored := restored
  refused member := by
    rcases mem_or_eq_of_mem_set member with old | new
    · obtain ⟨t', there⟩ := mem_iff_getElem?.mp old
      have mine := (inv.knows t s thread).lock holds
      have theirs := (inv.knows t' _ there).lock rfl
      cases mine.symm.trans theirs
      exact is (Option.some.inj (thread.symm.trans there))
    · exact other new.symm

theorem setState (active : s.active = true) (other : next ≠ .disconnected)
    (own : s'.Knows (v.move next) (Settled (v.move next) (phases.set t s')) t)
    (unapproved : s' ≠ .approved) : Orderly (v.move next) (phases.set t s') :=
  inv.active_step thread active own unapproved (by simp) (by simp) (by simp) (by simp) (by simp)
    (by simp) (OwnedView.move_disconnected other)

theorem setConnected (may : s = .armed ∨ s = .supervising) :
    Orderly (v.move .connected) (phases.set t .supervising) := by
  have knows := inv.knows t s thread
  have active : s.active = true := by rcases may with rfl | rfl <;> rfl
  refine inv.setState thread active (by decide) ?_ (by decide)
  refine ⟨nofun, nofun, fun _ => ?_, nofun, nofun, nofun, fun _ => ?_, nofun⟩
  · simpa using knows.begun active
  · rcases may with rfl | rfl
    · exact .inl (by simpa using knows.armed rfl)
    · refine (knows.supervising rfl).imp (fun applied => by simpa using applied) fun settled => ?_
      exact settled.keep (by simp) (by simp) (by decide)

theorem setFailed (may : s = .starting ∨ s = .armed ∨ s = .unwinding false) :
    Orderly (v.move .failed) (phases.set t .idle) := by
  have active : s.active = true := by rcases may with rfl | rfl | rfl <;> rfl
  exact inv.setState thread active (by decide)
    ⟨nofun, nofun, nofun, nofun, nofun, nofun, nofun, nofun⟩ (by decide)

/-- Taking or leaving the lock of the guard. -/
theorem relock {lock : Option Nat} (free : v.lock = none ∨ v.lock = some t) (other : s' ≠ .approved)
    (active : s'.active = true → s.active = true)
    (own : s'.Knows { v with lock := lock } (Settled { v with lock := lock } (phases.set t s')) t) :
    Orderly { v with lock := lock } (phases.set t s') := by
  refine inv.pass thread own other active ⟨rfl, rfl, rfl, rfl⟩ (fun t' ne held => ?_) inv.cancelled id
  rcases free with free | mine
  · cases free.symm.trans held
  · exact absurd (Option.some.inj (held.symm.trans mine)) ne

theorem lockGuard
    (may : s = .idle ∨ s = .armed ∨ s = .halted ∨ s = .again) (free : v.lock = none) (i : Nat) :
    Orderly { v with lock := some t } (phases.set t (s.after (.lockGuard i) ())) := by
  have knows := inv.knows t s thread
  rcases may with rfl | rfl | rfl | rfl
  · exact inv.relock thread (.inl free) (by simp) nofun
      ⟨nofun, nofun, nofun, fun _ => rfl, nofun, nofun, nofun, nofun⟩
  · exact inv.relock thread (.inl free) (by simp) (fun _ => rfl)
      ⟨fun _ => knows.launching rfl, nofun, fun _ => knows.begun rfl, fun _ => rfl, nofun, nofun,
        nofun, nofun⟩
  · exact inv.relock thread (.inl free) (by simp) nofun
      ⟨nofun, nofun, nofun, fun _ => rfl, fun _ => knows.stopping rfl, fun _ => knows.halted rfl,
        nofun, nofun⟩
  · exact inv.relock thread (.inl free) (by simp) nofun
      ⟨nofun, nofun, nofun, fun _ => rfl, fun _ => knows.stopping rfl, nofun, nofun, nofun⟩

theorem unlockGuard
    (may : s = .unwinding true ∨ s = .checking ∨ s = .approved ∨ ∃ first, s = .clear first)
    (i : Nat) : Orderly { v with lock := none } (phases.set t (s.after (.unlockGuard i) ())) := by
  have knows := inv.knows t s thread
  rcases may with rfl | rfl | rfl | ⟨first, rfl⟩
  · exact inv.relock thread (.inr (knows.lock rfl)) (by simp) (fun _ => rfl)
      ⟨fun _ => knows.launching rfl, nofun, fun _ => knows.begun rfl, nofun, nofun, nofun, nofun,
        nofun⟩
  · exact inv.relock thread (.inr (knows.lock rfl)) (by simp) nofun
      ⟨nofun, nofun, nofun, nofun, nofun, nofun, nofun, nofun⟩
  · exact inv.relock thread (.inr (knows.lock rfl)) (by simp) nofun
      ⟨nofun, nofun, nofun, nofun, nofun, nofun, nofun, nofun⟩
  · refine inv.relock thread (.inr (knows.lock rfl)) (by simp) nofun
      ⟨nofun, nofun, nofun, nofun, fun _ => knows.stopping rfl, knows.halted, nofun, fun _ => ?_⟩
    exact (knows.settled rfl).keep rfl rfl (by simp)

theorem ends : Orderly v (phases.set t .idle) :=
  inv.pass thread ⟨nofun, nofun, nofun, nofun, nofun, nofun, nofun, nofun⟩ (by simp) nofun
    ⟨rfl, rfl, rfl, rfl⟩ (fun _ _ => id) inv.cancelled id

end

theorem beginStart (thread : phases[t]? = some .idle)
    (fresh : v.state = .disconnected) (running : v.stopping = false) :
    Orderly { v with state := .connecting, begun := true } (phases.set t .starting) := by
  have never : ¬ Settled v phases := fun settled => by
    cases running.symm.trans settled.stopping
  refine inv.change thread ⟨fun _ => ⟨rfl, running⟩, nofun, fun _ => rfl, nofun, nofun, nofun, nofun,
    nofun⟩ (fun t' q _ _ knows => ?_) (fun _ => .inr fun t' q _ there => ?_) inv.cancelled nofun
  · refine knows.keep (fun is => ?_) (fun _ => .inl) (fun _ => rfl) (fun _ => rfl) id id
      (absurd · never)
    cases fresh.symm.trans (knows.launching is).1
  · cases active : q.active with
    | false => rfl
    | true => exact absurd (inv.released ((inv.knows t' q there).begun active) fresh).1 never

theorem setFailed_returning (thread : phases[t]? = some .returning) :
    Orderly (v.move .failed) (phases.set t .returning) := by
  have knows := inv.knows t _ thread
  refine inv.setState thread rfl (by decide) ?_ (by decide)
  refine ⟨nofun, nofun, fun _ => ?_, nofun, nofun, nofun, nofun, fun _ => ?_⟩
  · simpa using knows.begun rfl
  · exact (knows.settled rfl).keep (by simp) (by simp) (by decide)

/-- The only step that disconnects a session. -/
theorem setDisconnected (thread : phases[t]? = some (.cleared true)) :
    Orderly (v.move .disconnected) (phases.set t (.cleared true)) := by
  have knows := inv.knows t _ thread
  have kept : Settled v phases →
      Settled (v.move .disconnected) (phases.set t (.cleared true)) := fun settled =>
    settled.keep (by simp) (by simp) (by decide)
  have settled := kept (knows.settled rfl)
  have halted : (v.move .disconnected).halted = true := by simpa using knows.halted rfl
  refine inv.change thread ?_ (fun t' q _ _ other => ?_) nofun ?_ fun _ _ => ⟨settled, halted⟩
  · exact ⟨nofun, nofun, nofun, nofun, fun _ => settled.stopping, fun _ => halted, nofun,
      fun _ => settled⟩
  · refine other.keep (fun is => ?_) (fun _ => ?_) ?_ (fun _ => ?_) ?_ ?_ kept
    · cases (other.launching is).2.symm.trans (knows.stopping rfl)
    all_goals simp
    exact .inl
  · intro _
    exact settled.stopping

theorem beginReconnecting (thread : phases[t]? = some .supervising) :
    Orderly { v with state := .reconnecting } (phases.set t .supervising) := by
  have knows := inv.knows t _ thread
  refine inv.active_step thread rfl ?_ (by decide) rfl (fun _ => rfl) rfl rfl rfl rfl nofun
  refine ⟨nofun, nofun, fun _ => knows.begun rfl, nofun, nofun, nofun, fun _ => ?_, nofun⟩
  exact (knows.supervising rfl).imp_right fun settled => settled.keep rfl rfl (by decide)

theorem claimGuard (thread : phases[t]? = some .starting) :
    Orderly { v with applied := true } (phases.set t .armed) := by
  have knows := inv.knows t _ thread
  obtain ⟨state, running⟩ := knows.launching rfl
  refine inv.active_step thread rfl ?_ (by decide) rfl (fun stopping => ?_) rfl rfl rfl rfl id
  · exact ⟨fun _ => ⟨state, running⟩, fun _ => rfl, fun _ => knows.begun rfl, nofun, nofun, nofun,
      nofun, nofun⟩
  · cases running.symm.trans stopping

theorem unclaimGuard (thread : phases[t]? = some (.unwinding true)) :
    Orderly { v with applied := false } (phases.set t (.unwinding true)) := by
  have knows := inv.knows t _ thread
  obtain ⟨state, running⟩ := knows.launching rfl
  refine inv.active_step thread rfl ?_ (by decide) rfl (fun stopping => ?_) rfl rfl rfl rfl id
  · exact ⟨fun _ => ⟨state, running⟩, nofun, fun _ => knows.begun rfl, fun _ => knows.lock rfl, nofun,
      nofun, nofun, nofun⟩
  · cases running.symm.trans stopping

/-- `Stop` has restored the guard, or finds that there is nothing to restore. -/
theorem clear {first : Bool} (thread : phases[t]? = some (.restoring first)) :
    Orderly { v with applied := false } (phases.set t (.clear first)) := by
  have knows := inv.knows t _ thread
  have stopping := knows.stopping rfl
  have settled : Settled { v with applied := false } (phases.set t (.clear first)) :=
    inv.settled_of_lock thread rfl stopping rfl (by simp) (by simp)
  refine inv.change thread ?_ (fun t' q _ _ other => ?_) nofun inv.cancelled
    fun begun down => ⟨settled, (inv.released begun down).2⟩
  · exact ⟨nofun, nofun, nofun, fun _ => knows.lock rfl, fun _ => stopping, knows.halted, nofun,
      fun _ => settled⟩
  · refine other.keep (fun _ => ⟨rfl, rfl⟩) (fun is _ => ?_) id (fun _ => rfl) id id fun _ => settled
    rcases is with rfl | rfl
    · cases (other.launching rfl).2.symm.trans stopping
    · exact .inr ⟨rfl, settled⟩

theorem commit (thread : phases[t]? = some .approved) :
    Orderly { v with applied := true } (phases.set t .approved) := by
  have never : ¬ Settled v phases := fun settled =>
    settled.refused (mem_iff_getElem?.mpr ⟨t, thread⟩)
  have knows := inv.knows t _ thread
  refine inv.change thread ?_ (fun t' q _ _ other => ?_) nofun inv.cancelled
    fun begun down => absurd (inv.released begun down).1 never
  · exact ⟨nofun, nofun, nofun, fun _ => knows.lock rfl, nofun, nofun, nofun, nofun⟩
  · exact other.keep (fun _ => ⟨rfl, rfl⟩) (fun _ _ => .inl rfl) id (fun _ => rfl) id id
      (absurd · never)

theorem approve (thread : phases[t]? = some .checking)
    (running : v.stopping = false) : Orderly v (phases.set t .approved) := by
  have never : ¬ Settled v phases := fun settled => by
    cases running.symm.trans settled.stopping
  have knows := inv.knows t _ thread
  refine inv.change thread ?_ (fun t' q _ _ other => ?_) nofun inv.cancelled
    fun begun down => absurd (inv.released begun down).1 never
  · exact ⟨nofun, nofun, nofun, fun _ => knows.lock rfl, nofun, nofun, nofun, nofun⟩
  · exact other.keep (fun _ => ⟨rfl, rfl⟩) (fun _ => .inl) id (fun _ => rfl) id id (absurd · never)

theorem beginStop (thread : phases[t]? = some .idle)
    (settled : v.state ≠ .connecting) (repeated : Bool) :
    Orderly { v with stopping := true }
      (phases.set t (if repeated then .again else .stopping)) := by
  have kept : Settled v phases →
      Settled { v with stopping := true } (phases.set t (if repeated then .again else .stopping)) := by
    intro settled
    refine settled.keep settled.stopping.symm rfl ?_
    cases repeated <;> nofun
  refine inv.change thread ?_ (fun t' q _ _ knows => ?_) ?_ (fun _ => rfl) ?_
  · cases repeated <;> exact ⟨nofun, nofun, nofun, nofun, fun _ => rfl, nofun, nofun, nofun⟩
  · refine knows.keep (fun is => ?_) (fun _ => .inl) id (fun _ => rfl) (fun _ => rfl) id kept
    exact absurd (knows.launching is).1 settled
  · cases repeated <;> nofun
  · intro begun down
    obtain ⟨settled, halted⟩ := inv.released begun down
    exact ⟨kept settled, halted⟩

theorem cancel (thread : phases[t]? = some .stopping) :
    Orderly { v with cancelled := true } (phases.set t .stopping) := by
  have knows := inv.knows t _ thread
  exact inv.pass thread
    ⟨nofun, nofun, nofun, nofun, fun _ => knows.stopping rfl, nofun, nofun, nofun⟩ (by simp) nofun
    ⟨rfl, rfl, rfl, rfl⟩ (fun _ _ => id) (fun _ => knows.stopping rfl) id

/-- The engine's stop that the first `Stop` asks for succeeds. -/
theorem halt (thread : phases[t]? = some .stopping) :
    Orderly { v with halted := true } (phases.set t .halted) := by
  have knows := inv.knows t _ thread
  exact inv.pass thread
    ⟨nofun, nofun, nofun, nofun, fun _ => knows.stopping rfl, fun _ => rfl, nofun, nofun⟩ (by simp)
    nofun ⟨rfl, rfl, rfl, rfl⟩ (fun _ _ => id) inv.cancelled fun _ => rfl

theorem returns (thread : phases[t]? = some .supervising)
    (restored : v.applied = false) : Orderly v (phases.set t .returning) := by
  have knows := inv.knows t _ thread
  refine inv.pass thread ?_ (by simp) (fun _ => rfl) ⟨rfl, rfl, rfl, rfl⟩ (fun _ _ => id)
    inv.cancelled id
  refine ⟨nofun, nofun, fun _ => knows.begun rfl, nofun, nofun, nofun, nofun, fun _ => ?_⟩
  rcases knows.supervising rfl with applied | settled
  · cases restored.symm.trans applied
  · exact settled.keep rfl rfl (by simp)

end Orderly

def OwnedView.admits {β : Type} (v : OwnedView) (op : Op β) (answer : β) : Prop :=
  match op, answer with
  | .beginStart _, _ => v.stopping = false
  | .beginStop _, _ => v.state ≠ .connecting
  | .engineStop _ site, err => site = .firstStop → err = none
  | .guardRestore _, err => v.stopping = true → err = none
  | .nextWork _, work => work.ends = true → v.applied = false
  | _, _ => True

theorem Orderly.step {op : Op β} (inv : Orderly v phases) (thread : phases[t]? = some s)
    (allowed : s.allows i op) (answers : v.answers op answer) (admits : v.admits op answer) :
    s.answers op answer ∧ Orderly (v.after t op answer) (phases.set t (s.after op answer)) := by
  have knows := inv.knows t s thread
  have same : Orderly v (phases.set t s) := (set_same thread).symm ▸ inv
  obtain ⟨-, may⟩ := allowed
  cases op with
  | beginStart i =>
    obtain rfl : s = .idle := may
    refine ⟨trivial, ?_⟩
    cases answer with
    | some state => exact same
    | none => exact inv.beginStart thread (answers rfl) admits
  | setGuardApplied i applied =>
    refine ⟨trivial, ?_⟩
    cases applied with
    | true =>
      obtain rfl : s = .starting := may
      exact inv.claimGuard thread
    | false =>
      rcases may with rfl | ⟨first, rfl⟩
      · exact inv.unclaimGuard thread
      · exact inv.clear thread
  | setState i next reason key =>
    refine ⟨trivial, ?_⟩
    cases next with
    | connected =>
      rcases may with rfl | rfl
      · exact inv.setConnected thread (.inl rfl)
      · exact inv.setConnected thread (.inr rfl)
    | failed =>
      rcases may with rfl | rfl | rfl | rfl
      · exact inv.setFailed thread (.inl rfl)
      · exact inv.setFailed thread (.inr (.inl rfl))
      · exact inv.setFailed thread (.inr (.inr rfl))
      · exact inv.setFailed_returning thread
    | disconnected =>
      obtain ⟨-, rfl⟩ := may
      exact inv.setDisconnected thread
    | connecting | reconnecting => cases may.1
  | beginReconnecting i reason key delay =>
    obtain rfl : s = .supervising := may
    refine ⟨trivial, ?_⟩
    cases answer with
    | true => exact inv.beginReconnecting thread
    | false => exact same
  | checkKillSwitch i enabled =>
    obtain rfl : s = .checking := may
    refine ⟨trivial, ?_⟩
    cases answer with
    | error state => exact same
    | ok settings => exact inv.approve thread (answers rfl)
  | commitKillSwitch i enabled =>
    obtain rfl : s = .approved := may
    exact ⟨trivial, inv.commit thread⟩
  | beginStop i =>
    obtain rfl : s = .idle := may
    exact ⟨trivial, inv.beginStop thread admits answer⟩
  | cancel i =>
    obtain rfl : s = .stopping := may
    exact ⟨trivial, inv.cancel thread⟩
  | engineStop i site =>
    by_cases first : site = .firstStop
    · obtain rfl : s = .stopping := may first
      obtain rfl : answer = none := admits first
      simpa [first] using inv.halt thread
    · simpa [first] using same
  | lockGuard i => exact ⟨trivial, inv.lockGuard thread may answers i⟩
  | unlockGuard i => exact ⟨trivial, inv.unlockGuard thread may i⟩
  | readGuardApplied i =>
    obtain rfl : answer = v.applied := answers
    refine ⟨trivial, ?_⟩
    rcases may with rfl | ⟨first, rfl⟩
    · cases v.applied <;> exact same
    · cases applied : v.applied with
      | true => exact same
      | false =>
        have clear := inv.clear thread
        rwa [← applied] at clear
  | guardRestore i =>
    refine ⟨?_, same⟩
    rcases may with rfl | ⟨first, rfl⟩
    · exact .inl rfl
    · exact .inr (admits (knows.stopping rfl))
  | nextWork i =>
    obtain rfl : s = .supervising := may
    refine ⟨trivial, ?_⟩
    simp only [OwnedPhase.after]
    split
    · rename_i ends
      exact inv.returns thread (admits ends)
    · exact same
  | closeDone i =>
    exact ⟨trivial, inv.ends thread⟩
  | _ => exact ⟨trivial, same⟩

end Steps

theorem admits_of_orderly {op : Op β} (admitted : orderly i β op w answer w' = true) :
    (w.ownedView i).admits op answer := by
  cases op with
  | beginStart j => exact Bool.not_eq_eq_eq_not.mp admitted
  | beginStop j => exact bne_iff_ne.mp admitted
  | engineStop j site =>
    intro first
    simpa [orderly, first] using admitted
  | guardRestore j =>
    intro stopping
    have stopping : (w.sessions i).stopping = true := stopping
    simpa [orderly, stopping] using admitted
  | nextWork j =>
    intro ends
    rw [orderly, ends, Bool.not_eq_true'] at admitted
    exact admitted
  | _ => trivial

/-! ## Runs -/

theorem Orderly.spawn {v : OwnedView} {phases : List OwnedPhase} (inv : Orderly v phases) :
    Orderly v (phases ++ [.idle]) := by
  have kept : Settled v phases → Settled v (phases ++ [.idle]) := fun settled =>
    ⟨settled.stopping, settled.restored, by simpa using settled.refused⟩
  refine ⟨fun t s there => ?_, fun t t' s s' there there' active active' => ?_, inv.cancelled,
    fun begun down => ⟨kept (inv.released begun down).1, (inv.released begun down).2⟩⟩
  · rcases getElem?_snoc_cases there with old | rfl
    · exact (inv.knows t s old).keep (fun _ => ⟨rfl, rfl⟩) (fun _ => .inl) id (fun _ => rfl) id id kept
    · exact ⟨nofun, nofun, nofun, nofun, nofun, nofun, nofun, nofun⟩
  · rcases getElem?_snoc_cases there with old | rfl
    · rcases getElem?_snoc_cases there' with old' | rfl
      · exact inv.single t t' s s' old old' active active'
      · cases active'
    · cases active

theorem orderly_of_reach (i : Nat) {plan : Plan} {settings : Settings}
    (fresh : w.sessions i = new plan settings) {pool : Pool Op World}
    (reach : Pool.Reach machine (RunCall.program i) (orderly i) ⟨w, []⟩ pool) :
    ∃ phases, Orderly (pool.world.ownedView i) phases ∧
      List.Forall₂ ((releasing i).Follows fun _ => True) phases pool.threads := by
  refine Pool.invariant (releasing i) (fun _ => True) .idle
    (fun w phases => Orderly (w.ownedView i) phases) (program_releasing i)
    (fun w phases (inv : Orderly (w.ownedView i) phases) => inv.spawn) ?_ ?_ .nil reach
  · intro β op w w' phases t s c b inv thread allowed step admitted
    obtain ⟨answers, changed⟩ := ownedView_step allowed.1 step
    rw [changed]
    exact inv.step thread allowed answers (admits_of_orderly admitted)
  · have begun : (w.sessions i).begun = false := by rw [fresh]; rfl
    have cancelled : (w.sessions i).cancelled = false := by rw [fresh]; rfl
    refine ⟨nofun, nofun, fun is => ?_, fun is => ?_⟩
    · cases cancelled.symm.trans is
    · cases begun.symm.trans is

/-- The next step of the thread closes `done`. -/
def closesDone (i : Nat) : Prog Op Unit → Prop
  | .call (.closeDone j) _ => j = i
  | _ => False

theorem returning_of_closesDone {p : Prog Op Unit}
    (follows : (releasing i).Follows (fun _ => True) s p) (closes : closesDone i p) :
    s = .returning := by
  cases p with
  | pure a => cases closes
  | call op k =>
    cases op with
    | closeDone j => exact follows.1.2
    | _ => cases closes

/-- In every orderly run a session that is disconnected after a `Start` owns no settings of the
guard and its engine has been stopped, and `done` is closed after the settings have been
restored. -/
theorem disconnected_owns_nothing (i : Nat) (plan : Plan) (settings : Settings) (w : World)
    (fresh : w.sessions i = Session.new plan settings) (pool : Pool Op World)
    (reach : Pool.Reach machine (RunCall.program i) (orderly i) ⟨w, []⟩ pool) :
    ((pool.world.sessions i).begun = true → (pool.world.sessions i).state = .disconnected →
      (pool.world.sessions i).guardApplied = false ∧
        .engineStop i .firstStop none ∈ pool.world.history) ∧
      ∀ p ∈ pool.threads, closesDone i p → (pool.world.sessions i).guardApplied = false := by
  obtain ⟨phases, inv, follow⟩ := orderly_of_reach i fresh reach
  constructor
  · intro begun down
    obtain ⟨settled, halted⟩ := inv.released begun down
    exact ⟨settled.restored, contains_iff_mem.mp halted⟩
  · intro p member closes
    obtain ⟨s, there, follows⟩ := exists_of_forall₂ follow.flip member
    obtain rfl := returning_of_closesDone follows closes
    obtain ⟨t, thread⟩ := mem_iff_getElem?.mp there
    exact ((inv.knows t _ thread).settled rfl).restored

/-! ## Two ends -/

def connectedRun : List (Move RunCall Choice) :=
  .spawn (.start 1) :: List.replicate 9 (.step 0 {})

/-- The session is stopped, and then the loop sees the end of its context. -/
def releasedRun : List (Move RunCall Choice) :=
  connectedRun ++ .spawn .stop :: (List.replicate 10 (.step 1 {}) ++ [.step 0 { work := .done }])

theorem releasedRun_owns_nothing :
    ∃ pool, Pool.exec machine (RunCall.program 0) (orderly 0)
        ⟨.idle .nftables .bare .switchedOn, []⟩ releasedRun = some pool ∧
      (pool.world.sessions 0).state = .disconnected ∧
      (pool.world.sessions 0).guardApplied = false ∧
      .engineStop 0 .firstStop none ∈ pool.world.history := by
  obtain ⟨pool, ran, facts⟩ := Option.map_eq_some_iff.mp
    (show (Pool.exec machine (RunCall.program 0) (orderly 0)
        ⟨.idle .nftables .bare .switchedOn, []⟩ releasedRun).map (fun pool =>
          ((pool.world.sessions 0).begun, (pool.world.sessions 0).state)) =
      some (true, .disconnected) by decide)
  obtain ⟨begun, down⟩ := Prod.mk.inj facts
  have owns := disconnected_owns_nothing 0 .bare .switchedOn (.idle .nftables .bare .switchedOn) rfl
    pool (Pool.reach_of_exec .refl ran)
  exact ⟨pool, ran, down, owns.1 begun down⟩

/-- `Stop` cancels the context, the loop ends and closes `done`; then neither the engine nor the
firewall obeys. -/
def defiantRun : List (Move RunCall Choice) :=
  connectedRun ++
    [.spawn .stop, .step 1 {}, .step 1 {}, .step 0 { work := .done }, .step 0 {},
      .step 1 { err := some ⟨.internal, []⟩ }, .step 1 {}, .step 1 {},
      .step 1 { faults := { nft := true } }, .step 1 {}, .step 1 {}]

theorem disconnected_session_owns_guard :
    ∃ pool, Pool.Reach machine (RunCall.program 0) everything
        ⟨.idle .nftables .bare .switchedOn, []⟩ pool ∧
      (pool.world.sessions 0).begun = true ∧ (pool.world.sessions 0).state = .disconnected ∧
      (pool.world.sessions 0).guardApplied = true ∧ (pool.world.sessions 0).done = true ∧
      ∀ site, .engineStop 0 site none ∉ pool.world.history := by
  obtain ⟨pool, ran, facts⟩ := Option.map_eq_some_iff.mp
    (show (Pool.exec machine (RunCall.program 0) everything
        ⟨.idle .nftables .bare .switchedOn, []⟩ defiantRun).map (fun pool =>
          ((pool.world.sessions 0).begun, (pool.world.sessions 0).state,
            (pool.world.sessions 0).guardApplied, (pool.world.sessions 0).done,
            pool.world.history)) =
      some (true, .disconnected, true, true,
        [.guardApply 0 .start true none, .engineApply 0 .start none,
          .engineStop 0 .firstStop (some ⟨.internal, []⟩),
          .guardRestore 0 (some ⟨.internal, keyGuardRestoreFailed⟩)]) by decide)
  simp only [Prod.mk.injEq] at facts
  obtain ⟨begun, down, applied, closed, history⟩ := facts
  refine ⟨pool, Pool.reach_of_exec .refl ran, begun, down, applied, closed, fun site member => ?_⟩
  simp [history] at member

end Sora.Session
