import Sora.Session.Ownership

/-!
# Sequences of connects and disconnects

Between two calls of the manager only its current session owns a live engine or settings of
the guard.
-/

set_option linter.dupNamespace false

namespace Sora.Session

open Sora.Lib Sora.Engine Sora.Guard World Prog Nat

/-! ## The operations of the manager -/

variable {plan : Plan} {i : Nat} {Q : Option Err → World → Prop} {w w' : World}

section Operations

theorem call_beginCall {Q : Option (Option Nat) → World → Prop}
    (busy : w.manager.busy = true → Q none w)
    (free : w.manager.busy = false →
      Q (some w.manager.current) { w with manager := { w.manager with busy := true } }) :
    machine.demonic.call .beginCall Q w := by
  intro c b w' step
  cases step
  cases state : w.manager.busy
  · simpa [state] using free state
  · simpa [state] using busy state

theorem call_manager {op : Op Unit} {Q : Unit → World → Prop} (m : Manager)
    (does : ∀ c, perform 0 c op w = some ((), { w with manager := m }))
    (post : Q () { w with manager := m }) : machine.demonic.call op Q w := by
  intro c b w' step
  simp only [machine, does c] at step
  cases step
  exact post

theorem call_reads {β : Type} {op : Op β} {Q : β → World → Prop}
    (reads : ∀ c, ∃ b, perform 0 c op w = some (b, w)) (post : ∀ b, Q b w) :
    machine.demonic.call op Q w := by
  intro c b w' step
  obtain ⟨b', same⟩ := reads c
  simp only [machine, same] at step
  cases step
  exact post _

theorem call_prepareTun {Q : Option TunError × Plan → World → Prop}
    (post : ∀ interfaces, Q (prepareTun plan interfaces) w) :
    machine.demonic.call (.prepareTun plan) Q w := by
  intro c b w' step
  cases step
  exact post c.interfaces

theorem call_engineClose {Q : Unit → World → Prop} (post : ∀ c, Q () (w.engineClose c i)) :
    machine.demonic.call (.engineClose i) Q w := by
  intro c b w' step
  cases step
  exact post c

theorem call_factory {Q : Except Err Nat → World → Prop} (failed : ∀ err, Q (.error err) w) (built :
    ∀ kind, Q (.ok w.created) { w.setEngine w.created (EngineUnit.new kind) with created :=
    w.created + 1 }) : machine.demonic.call (.factory plan) Q w := by
  intro c b w' step
  simp only [machine, perform] at step
  split at step
  · cases step
    exact failed _
  · cases step
    exact built _

theorem call_newSession {settings : Settings} (failed : ∀ err, Q (some err) w)
    (made : Q none (w.setSession i (.new plan settings))) :
    machine.demonic.call (.newSession i plan settings) Q w := by
  intro c b w' step
  simp only [machine, perform] at step
  split at step
  · cases step
    exact failed _
  · cases step
    exact made

end Operations

/-! ## Preparing -/

/-- What a `Connect` leaves alone before it stops the previous session: everything but the
session it is making. -/
structure Unharmed (w w' : World) : Prop where
  sessions : ∀ j, j < w.created → w'.sessions j = w.sessions j
  engines : ∀ j, j < w.created → w'.engines j = w.engines j
  guard : w'.guard = w.guard
  manager : w'.manager = w.manager
  created : w.created ≤ w'.created

namespace Managed

variable {owner : Option Nat}

theorem factory (managed : Managed w owner) (kind : Kind) :
    Managed { w.setEngine w.created (EngineUnit.new kind) with created := w.created + 1 }
      owner where
  sane j := by
    by_cases here : j = w.created
    · subst here
      simp [Sane, EngineUnit.new]
    · simpa [Sane, here] using managed.sane j
  live j running := by
    by_cases here : j = w.created
    · subst here
      simp [EngineUnit.new] at running
    · exact managed.live j (by simpa [here] using running)
  owns := managed.owns
  others := managed.others
  stopped := managed.stopped
  guard := managed.guard
  known j at_j := lt_succ_of_lt (managed.known j at_j)

theorem newSession (managed : Managed w owner) (other : owner ≠ some i) (plan : Plan)
    (settings : Settings) : Managed (w.setSession i (.new plan settings)) owner where
  sane := managed.sane
  live := managed.live
  owns j applied := by
    by_cases here : j = i
    · subst here
      simp [Session.new] at applied
    · exact managed.owns j (by simpa [here] using applied)
  others j at_j := by
    by_cases here : j = i
    · subst here
      simp [Session.new]
    · simpa [here] using managed.others j at_j
  stopped j stopping := by
    by_cases here : j = i
    · subst here
      simp [Session.new]
    · simp only [ne_eq, here, not_false_eq_true, setSession_other] at stopping ⊢
      exact managed.stopped j stopping
  guard held := by
    obtain ⟨j, at_j, applied⟩ := managed.guard held
    have ne : j ≠ i := fun here => other (here ▸ at_j)
    exact ⟨j, at_j, by simpa [ne] using applied⟩
  known := managed.known

end Managed

namespace Unharmed

theorem factory (w : World) (kind : Kind) : Unharmed w
    { w.setEngine w.created (EngineUnit.new kind) with created := w.created + 1 } where
  sessions _ _ := rfl
  engines _ old := setEngine_other _ _ _ (Nat.ne_of_lt old)
  guard := rfl
  manager := rfl
  created := le_succ _

theorem newSession (before : Unharmed w w') (new : w.created ≤ i) (plan : Plan)
    (settings : Settings) : Unharmed w (w'.setSession i (.new plan settings)) where
  sessions j old := (setSession_other _ _ _ (Nat.ne_of_lt (Nat.lt_of_lt_of_le old new))).trans
    (before.sessions j old)
  engines := before.engines
  guard := before.guard
  manager := before.manager
  created := before.created

theorem engineClose (before : Unharmed w w') (new : w.created ≤ i) (c : Choice) :
    Unharmed w (w'.engineClose c i) where
  sessions := before.sessions
  engines j old := ((World.SameBut.engineClose c i w').engines j
    (Nat.ne_of_lt (Nat.lt_of_lt_of_le old new))).trans (before.engines j old)
  guard := before.guard
  manager := before.manager
  created := before.created

end Unharmed

/-- Session `i` was made from a prepared plan and has not been started. -/
structure Fresh (i : Nat) (w : World) : Prop where
  session : ∃ plan settings, w.sessions i = .new plan settings ∧
    ∃ requested interfaces, prepareTun requested interfaces = (none, plan)
  engine : ∃ kind, w.engines i = .new kind

theorem Fresh.of_same (fresh : Fresh i w) (session : w'.sessions i = w.sessions i)
    (engine : w'.engines i = w.engines i) : Fresh i w' :=
  ⟨session ▸ fresh.session, engine ▸ fresh.engine⟩

theorem Fresh.running (fresh : Fresh i w) : (w.sessions i).stopping = false := by
  obtain ⟨plan, settings, new, -⟩ := fresh.session
  rw [new]
  rfl

/-- A further invariant that the calls on sessions keep, and that depends on the guard and on
the session that owns it. -/
structure Carries (K : Option Nat → World → Prop) : Prop where
  frame : ∀ {owner w w'}, K owner w → w'.guard = w.guard →
    (∀ i, owner = some i → w'.sessions i = w.sessions i ∧ w'.engines i = w.engines i) → K owner w'
  adopt : ∀ {i w}, Managed w none → Fresh i w → K none w → K (some i) w
  release : ∀ {i w}, Managed w none → K (some i) w → K none w
  start : ∀ {i w err w'}, K (some i) w → Runs machine (start i) w err w' → K (some i) w'
  stop : ∀ {i w err w'}, K (some i) w → Runs machine (stop i) w err w' → K (some i) w'
  setKillSwitch : ∀ {i enabled w err w'}, K (some i) w →
    Runs machine (setKillSwitch i enabled) w err w' → K (some i) w'
  supervise : ∀ {owner i turns last w w'}, K owner w →
    Runs machine (supervise i turns last) w () w' → K owner w'

theorem Carries.nothing : Carries fun _ _ => True where
  frame _ _ _ := trivial
  adopt _ _ _ := trivial
  release _ _ := trivial
  start _ _ := trivial
  stop _ _ := trivial
  setKillSwitch _ _ := trivial
  supervise _ _ := trivial

section Managing

variable {owner : Option Nat} {K : Option Nat → World → Prop}

theorem Carries.withManager (carries : Carries K) (kept : K owner w) (m : Manager) :
    K owner { w with manager := m } :=
  carries.frame kept rfl fun _ _ => ⟨rfl, rfl⟩

/-- What is known after the preparations of a `Connect`. -/
structure Prepared (w : World) (r : Except Err Nat) (w' : World) : Prop where
  unharmed : Unharmed w w'
  made : ∀ i, r = .ok i → w.created ≤ i ∧ i < w'.created ∧ Fresh i w'

theorem abandon_managed (managed : Managed w' owner) (before : Unharmed w w') (new : w.created ≤ i)
    (err : Err) :
    (abandon i err).wp machine.demonic (fun r w' => Managed w' owner ∧ Prepared w r w') w' := by
  exact call_engineClose fun c =>
    ⟨managed.engineClose c i, before.engineClose new c, by rintro _ ⟨⟩⟩

/-- Until the previous session is stopped, `Connect` only makes a session of its own. -/
theorem prepare_managed (managed : Managed w owner) (plan : Plan) (settings : Settings) :
    (prepare plan settings).wp machine.demonic
      (fun r w' => Managed w' owner ∧ Prepared w r w') w := by
  have nothing : Unharmed w w := ⟨fun _ _ => rfl, fun _ _ => rfl, rfl, rfl, le_refl _⟩
  have other : owner ≠ some w.created := fun owns =>
    lt_irrefl _ (managed.known w.created owns)
  refine call_prepareTun fun interfaces => ?_
  rcases outcome : prepareTun plan interfaces with ⟨_ | refused, planned⟩
  rotate_left
  · exact ⟨managed, nothing, by rintro _ ⟨⟩⟩
  · refine call_factory (fun err => ⟨managed, nothing, by rintro _ ⟨⟩⟩) fun kind => ?_
    have made := managed.factory kind
    have harmless := Unharmed.factory w kind
    refine call_newSession (fun err => abandon_managed made harmless (le_refl _) err) ?_
    have made := made.newSession other planned settings
    have harmless := harmless.newSession (le_refl _) planned settings
    refine call_reads (fun c => ⟨_, rfl⟩) ?_
    rintro (_ | err)
    · refine call_reads (fun c => ⟨_, rfl⟩) ?_
      rintro (_ | err)
      · refine ⟨made, harmless, fun i ok => ?_⟩
        cases ok
        exact ⟨le_refl _, lt_succ_self _,
          ⟨_, _, setSession_same .., plan, interfaces, outcome⟩,
          kind, setEngine_same ..⟩
      · exact abandon_managed made harmless (le_refl _) err
    · exact abandon_managed made harmless (le_refl _) _

/-! ## Stopping and starting -/

section

variable (carries : Carries K)

include carries

theorem stop_managed (managed : Managed w (some i)) (kept : K (some i) w) :
    (stop i).wp machine.demonic (fun err w' => World.SameBut i w w' ∧ Managed w' (some i) ∧
      K (some i) w' ∧ (err = none → Managed w' none)) w := by
  refine wp_of_runs fun err w' run => ?_
  obtain ⟨v, knows, settled, released⟩ :=
    run.of_wp (wp_owning (managed.sane i) (stop_owning i managed.own_settled))
  exact ⟨knows.same, managed.settled knows settled, carries.stop kept run,
    fun ok => managed.released knows settled (released ok)⟩

theorem start_managed (managed : Managed w (some i)) (kept : K (some i) w)
    (running : (w.sessions i).stopping = false) :
    (start i).wp machine.demonic
      (fun _ w' => w'.manager = w.manager ∧ Managed w' (some i) ∧ K (some i) w') w := by
  refine wp_of_runs fun err w' run => ?_
  obtain ⟨v, knows, settled⟩ :=
    run.of_wp (wp_owning (managed.sane i) (start_owning i managed.own_settled running))
  exact ⟨knows.same.manager, managed.settled knows settled, carries.start kept run⟩

/-- Between two calls the owner is the current session. -/
structure Between (K : Option Nat → World → Prop) (w : World) : Prop where
  managed : Managed w w.manager.current
  kept : K w.manager.current w
  free : w.manager.busy = false

theorem launch_managed (managed : Managed w none) (kept : K none w)
    (known : i < w.created) (fresh : Fresh i w) :
    (launch i).wp machine.demonic (fun _ w' => w'.manager.busy = w.manager.busy ∧
      Managed w' w'.manager.current ∧ K w'.manager.current w') w := by
  simp only [launch, wp_bind, wp_op]
  refine call_manager _ (fun c => rfl) ?_
  refine wp_mono _ (fun err w₁ post => ?_)
    (start_managed carries ((managed.adopt known).withManager _)
      (carries.withManager (carries.adopt managed fresh kept) _) fresh.running)
  obtain ⟨manager, managed₁, kept₁⟩ := post
  cases err with
  | none =>
    refine call_manager _ (fun c => rfl)
      ⟨?_, managed₁.withManager _, carries.withManager kept₁ _⟩
    rw [manager]
  | some err =>
    simp only [wp_bind, wp_op]
    refine call_reads (fun c => ⟨_, rfl⟩) fun status => ?_
    refine wp_mono _ (fun cleanupErr w₂ post => ?_) (stop_managed carries managed₁ kept₁)
    obtain ⟨same, managed₂, kept₂, released⟩ := post
    have manager' := same.manager.trans manager
    cases cleanupErr with
    | none =>
      simp only [wp_bind, wp_op, wp_pure]
      refine call_manager _ (fun c => rfl) ?_
      simp only [manager']
      exact ⟨trivial, (released rfl).withManager _,
        carries.withManager (carries.release (released rfl) kept₂) _⟩
    | some cleanupErr =>
      refine call_manager _ (fun c => rfl) (call_manager _ (fun c => rfl) ⟨?_, ?_, ?_⟩)
      · rw [manager']
      · exact (managed₂.withManager _).withManager _
      · exact carries.withManager (carries.withManager kept₂ _) _

theorem replace_managed (managed : Managed w w.manager.current)
    (kept : K w.manager.current w) (known : i < w.created) (fresh : Fresh i w)
    (other : w.manager.current ≠ some i) :
    (replace w.manager.current i).wp machine.demonic (fun _ w' =>
      w'.manager.busy = w.manager.busy ∧ Managed w' w'.manager.current ∧
        K w'.manager.current w') w := by
  cases previous : w.manager.current with
  | none =>
    rw [previous] at managed kept
    exact launch_managed carries managed kept known fresh
  | some j =>
    rw [previous] at managed kept other
    have ne : i ≠ j := fun here => other (here ▸ rfl)
    simp only [replace, wp_bind]
    refine wp_mono _ (fun err w₁ post => ?_) (stop_managed carries managed kept)
    obtain ⟨same, managed₁, kept₁, released⟩ := post
    cases err with
    | some err =>
      simp only [wp_bind, wp_op, wp_pure]
      refine call_engineClose fun c => call_reads (fun c => ⟨_, rfl⟩) fun status => ?_
      have current : (w₁.engineClose c i).manager = w.manager := same.manager
      have closed : K (some j) (w₁.engineClose c i) := by
        refine carries.frame kept₁ rfl fun k at_k => ⟨rfl, setEngine_other _ _ _ ?_⟩
        exact fun here => ne (here.symm.trans (Option.some.inj at_k).symm)
      refine call_manager _ (fun c => rfl) ?_
      simp only [current, previous]
      exact ⟨trivial, (managed₁.engineClose c i).withManager _, carries.withManager closed _⟩
    | none =>
      refine call_reads (fun c => ⟨_, rfl⟩) fun status => call_manager _ (fun c => rfl) ?_
      refine wp_mono _ (fun r w₂ post => ⟨?_, post.2⟩)
        (launch_managed carries ((released rfl).withManager _)
          (carries.withManager (carries.release (released rfl) kept₁) _)
          (by simpa [same.created] using known)
          (fresh.of_same (same.sessions i ne) (same.engines i ne)))
      rw [post.1, same.manager]

theorem connect_between (between : Between K w) (plan : Plan) (settings : Settings) :
    (connect plan settings).wp machine.demonic (fun _ w' => Between K w') w := by
  simp only [connect, wp_bind, wp_op]
  refine call_beginCall (fun _ => between) fun _ => ?_
  simp only [wp_bind]
  refine wp_mono _ (fun r w₁ post => ?_)
    (prepare_managed (between.managed.withManager _) plan settings)
  obtain ⟨managed, harmless, made⟩ := post
  have current : w₁.manager.current = w.manager.current := by rw [harmless.manager]
  have kept : K w₁.manager.current w₁ := by
    rw [current]
    refine carries.frame between.kept harmless.guard fun k at_k => ?_
    have old := between.managed.known k at_k
    exact ⟨harmless.sessions k old, harmless.engines k old⟩
  rw [← current] at managed ⊢
  cases r with
  | error err =>
    exact call_manager _ (fun c => rfl) ⟨managed.withManager _, carries.withManager kept _, rfl⟩
  | ok i =>
    obtain ⟨new, known, fresh⟩ := made i rfl
    have other : w₁.manager.current ≠ some i := fun here =>
      lt_irrefl i (lt_of_lt_of_le (between.managed.known i (current ▸ here)) new)
    simp only [wp_bind]
    refine wp_mono _ (fun r w₂ post => ?_)
      (replace_managed carries managed kept known fresh other)
    obtain ⟨-, managed₂, kept₂⟩ := post
    exact call_manager _ (fun c => rfl)
      ⟨managed₂.withManager _, carries.withManager kept₂ _, rfl⟩

theorem disconnect_between (between : Between K w) :
    disconnect.wp machine.demonic (fun _ w' => Between K w') w := by
  simp only [disconnect, wp_bind, wp_op]
  refine call_beginCall (fun _ => between) fun _ => ?_
  cases current : w.manager.current with
  | none =>
    refine call_manager _ (fun c => rfl) (call_manager _ (fun c => rfl) ⟨?_, ?_, rfl⟩)
    · exact between.managed.withManager _
    · exact carries.withManager between.kept _
  | some i =>
    have managed : Managed w (some i) := current ▸ between.managed
    have kept : K (some i) w := current ▸ between.kept
    simp only [wp_bind]
    refine wp_mono _ (fun err w₁ post => ?_)
      (stop_managed carries (managed.withManager _) (carries.withManager kept _))
    obtain ⟨same, managed₁, kept₁, released⟩ := post
    have manager := same.manager
    refine call_reads (fun c => ⟨_, rfl⟩) fun status => call_manager _ (fun c => rfl) ?_
    cases err with
    | none =>
      refine call_manager _ (fun c => rfl) (call_manager _ (fun c => rfl) ⟨?_, ?_, rfl⟩)
      · exact (released rfl).withManager _
      · exact carries.withManager (carries.release (released rfl) kept₁) _
    | some err =>
      refine call_manager _ (fun c => rfl) ⟨?_, ?_, rfl⟩ <;> simp only [manager, current]
      · exact managed₁.withManager _
      · exact carries.withManager kept₁ _

theorem requestKillSwitch_between (between : Between K w) (enabled : Bool) :
    (requestKillSwitch enabled).wp machine.demonic (fun _ w' => Between K w') w := by
  intro c b w' step
  cases step
  cases current : w.manager.current with
  | none => exact between
  | some i =>
    have managed : Managed w (some i) := current ▸ between.managed
    have kept : K (some i) w := current ▸ between.kept
    refine wp_of_runs fun err w₁ run => ?_
    obtain ⟨v, knows, settled⟩ :=
      run.of_wp (wp_owning (managed.sane i) (setKillSwitch_owning i enabled managed.own_settled))
    have manager := knows.same.manager
    refine ⟨?_, ?_, by rw [manager]; exact between.free⟩ <;> rw [manager, current]
    · exact managed.settled knows settled
    · exact carries.setKillSwitch kept run

/-- The loop of any session, also of one that was stopped. -/
theorem supervise_between (between : Between K w) (i turns : Nat) (last : Fallbacks) :
    (supervise i turns last).wp machine.demonic (fun _ w' => Between K w') w := by
  have managed := between.managed
  refine wp_of_runs fun _ w₁ run => ?_
  obtain ⟨v, knows, after⟩ := run.of_wp
    (wp_owning (managed.sane i) (supervise_owning i turns last (.refl (w.own i))))
  have manager := knows.same.manager
  refine ⟨?_, ?_, by rw [manager]; exact between.free⟩ <;> rw [manager]
  · by_cases current : w.manager.current = some i
    · rw [current] at managed ⊢
      have settled := managed.own_settled
      refine managed.settled knows ⟨fun dirty => ?_, fun stopping => ?_⟩
      · exact after.owns.trans (settled.owned (after.dirty.symm.trans dirty))
      · have state := settled.stopped (after.stopping.symm.trans stopping)
        rw [after.stays state]
        exact state
    · rw [after.stays (managed.others i current)] at knows
      exact managed.unchanged knows
  · exact carries.supervise between.kept run

end

/-! ## Failing before the previous session is stopped -/

/-- `Stop` of session `j` is not called. -/
def spares (j : Nat) {β : Type} (_ : Choice) (op : Op β) (_ : World) : Bool :=
  match op with
  | .beginStop k => k != j
  | _ => true

theorem stop_of_spares (j : Nat) : (stop j).wp (machine.only (spares j)).demonic Q w := by
  intro c b w' step
  simp [Machine.only, spares] at step

theorem connect_unharmed {j : Nat} (between : Between K w) (current : w.manager.current = some j)
    (plan : Plan) (settings : Settings) :
    (connect plan settings).wp (machine.only (spares j)).demonic
      (fun r w' => ∀ err, r = .error err → Unharmed w w') w := by
  have call {β : Type} {op : Op β} {Q : β → World → Prop} {w : World}
      (holds : machine.demonic.call op Q w) : (machine.only (spares j)).demonic.call op Q w :=
    wp_only (.op op) holds
  simp only [connect, wp_bind, wp_op]
  refine call (call_beginCall (fun busy => ?_) fun _ => ?_)
  · rw [between.free] at busy
    cases busy
  · simp only [wp_bind, current]
    refine wp_mono _ (fun r w₁ post => ?_)
      (wp_only _ (prepare_managed (between.managed.withManager _) plan settings))
    obtain ⟨-, harmless, -⟩ := post
    cases r with
    | error err =>
      refine call (call_manager _ (fun c => rfl) fun err _ => ?_)
      refine ⟨harmless.sessions, harmless.engines, harmless.guard, ?_, harmless.created⟩
      simp only [harmless.manager]
      rw [← current, ← between.free]
    | ok i =>
      simp only [wp_bind, replace]
      exact stop_of_spares j

end Managing

/-! ## Sequences -/

/-- One call, or some turns of the loop of a session. -/
inductive ManagerCall : World → World → Prop
  | connect {w w' : World} {plan : Plan} {settings : Settings} {r : Except Err Nat}
      (run : Runs machine (connect plan settings) w r w') : ManagerCall w w'
  | disconnect {w w' : World} {err : Option Err}
      (run : Runs machine disconnect w err w') : ManagerCall w w'
  | requestKillSwitch {w w' : World} {enabled : Bool} {err : Option Err}
      (run : Runs machine (requestKillSwitch enabled) w err w') : ManagerCall w w'
  | supervise {w w' : World} {i turns : Nat} {last : Fallbacks}
      (run : Runs machine (supervise i turns last) w () w') : ManagerCall w w'

inductive ManagerReach (start : World) : World → Prop
  | refl : ManagerReach start start
  | call {w w' : World} (before : ManagerReach start w) (next : ManagerCall w w') :
      ManagerReach start w'

theorem Between.call {K : Option Nat → World → Prop} (between : Between K w) (carries : Carries K)
    (call : ManagerCall w w') : Between K w' := by
  cases call with
  | connect run => exact run.of_wp (connect_between carries between _ _)
  | disconnect run => exact run.of_wp (disconnect_between carries between)
  | requestKillSwitch run => exact run.of_wp (requestKillSwitch_between carries between _)
  | supervise run => exact run.of_wp (supervise_between carries between _ _ _)

theorem World.Untouched.between {K : Option Nat → World → Prop} (untouched : w.Untouched)
    (kept : K none w) : Between K w := by
  obtain ⟨backend, guard⟩ := untouched.guard
  have session (i : Nat) : (w.sessions i).flags = ⟨false, .disconnected, false⟩ := by
    obtain ⟨plan, settings, new⟩ := untouched.sessions i
    rw [new]
    rfl
  refine ⟨?_, untouched.current ▸ kept, untouched.busy⟩
  rw [untouched.current]
  refine ⟨fun i _ => untouched.engines i, fun i live => ?_, fun i applied => ?_, fun i _ => ?_,
    fun i _ => ?_, fun held => ?_, fun i owner => by cases owner⟩
  · rw [untouched.engines i] at live
    cases live
  · cases (congrArg Flags.owns (session i)).symm.trans applied
  · exact congrArg Flags.state (session i)
  · exact congrArg Flags.state (session i)
  · exact absurd (by rw [guard]; rfl) held

/-- Between two calls of any sequence, a session with a live engine or with settings in the
guard is the current one, and a `Connect` that fails before it stops the previous session
leaves that session, the guard and the manager as they were. -/
theorem manager_owns_through_current_session (w₀ w : World) (untouched : w₀.Untouched)
    (reach : ManagerReach w₀ w) :
    (∀ i, (w.engines i).live = true ∨ (w.sessions i).guardApplied = true →
      w.manager.current = some i) ∧
    (w.guard.applied ≠ .empty →
      ∃ i, w.manager.current = some i ∧ (w.sessions i).guardApplied = true) ∧
    ∀ j plan settings err w', w.manager.current = some j →
      Runs (machine.only (spares j)) (connect plan settings) w (.error err) w' →
      w'.manager = w.manager ∧ w'.sessions j = w.sessions j ∧ w'.engines j = w.engines j ∧
        w'.guard = w.guard := by
  have between : Between (fun _ _ => True) w := by
    induction reach with
    | refl => exact untouched.between trivial
    | call before next ih => exact ih.call .nothing next
  have managed := between.managed
  refine ⟨fun i owner => ?_, managed.guard, fun j plan settings err w' current run => ?_⟩
  · exact owner.elim (managed.live i) (managed.owns i)
  · have harmless := run.of_wp (connect_unharmed between current plan settings) err rfl
    have known := managed.known j current
    exact ⟨harmless.manager, harmless.sessions j known, harmless.engines j known, harmless.guard⟩

/-- A `Connect` that succeeds, and one after it whose factory fails. -/
theorem second_connect_fails_harmlessly :
    ∃ w w' err, ManagerReach (.idle .nftables .bare .switchedOn) w ∧
      (w.engines 1).live = true ∧ w.manager.current = some 1 ∧
      Runs (machine.only (spares 1)) (connect .bare .empty) w (.error err) w' ∧
      w'.manager = w.manager ∧ w'.sessions 1 = w.sessions 1 ∧ w'.guard = w.guard := by
  obtain ⟨⟨r, w⟩, connected, rest⟩ := Option.bind_eq_some_iff.mp
    (show ((connect .bare .switchedOn).eval machine (List.replicate 17 {})
        (.idle .nftables .bare .switchedOn)).bind (fun r =>
          ((connect .bare .empty).eval (machine.only (spares 1))
            ([{}, {}, { err := some refused }, {}] : List Choice) r.2).map
            fun r' => ((r.2.engines 1).live, r'.1.toOption)) = some (true, none) from rfl)
  obtain ⟨⟨r', w'⟩, failed, facts⟩ := Option.map_eq_some_iff.mp rest
  obtain ⟨live, error⟩ := Prod.mk.inj facts
  cases r' with
  | ok i => cases error
  | error err =>
    have reach : ManagerReach (.idle .nftables .bare .switchedOn) w :=
      .call .refl (.connect (Runs.of_eval connected))
    have untouched : World.Untouched (.idle .nftables .bare .switchedOn) :=
      ⟨⟨_, rfl⟩, fun _ => ⟨_, _, rfl⟩, fun _ => rfl, rfl, rfl⟩
    obtain ⟨owner, -, harmless⟩ := manager_owns_through_current_session _ w untouched reach
    have current := owner 1 (Or.inl live)
    obtain ⟨manager, session, -, guard⟩ := harmless 1 _ _ err w' current (Runs.of_eval failed)
    exact ⟨w, w', err, reach, live, current, Runs.of_eval failed, manager, session, guard⟩

end Sora.Session
