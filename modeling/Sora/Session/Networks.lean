import Sora.Session.Connect

/-!
# The networks in the rules and in the configuration

A session's addresses are chosen once.  The rules that the guard installs for it and the
configurations that its engine is started with are made from the same plan, however often
the switch is moved, the engine is started again or the network changes.
-/

set_option linter.dupNamespace false

namespace Sora.Session

open Sora.Lib Sora.Engine Sora.Guard Option World Session EngineUnit

def planNetworks (plan : Plan) : List Prefix :=
  plan.tun.networks ++ ((parsePrefix plan.dns.fakeIPRange).map Prefix.masked).toList

@[simp] theorem blockedNetworks_settingsLocked (s : Session) :
    blockedNetworks s.settingsLocked = planNetworks s.plan := rfl

/-! ## Programs -/

/-- A session applies only settings with the networks of its plan; `none` stands for a session
that applies none. -/
@[simps] def applying (i : Nat) (networks : Option (List Prefix)) : Discipline Op Unit where
  allowed _ op := op.session = some i ∧ match op with
    | .guardApply _ _ settings => networks = some (blockedNetworks settings)
    | _ => True
  answers _ op := match op with
    | .settings _ => fun settings => networks.isSome → networks = some (blockedNetworks settings)
    | .checkKillSwitch _ _ => fun r =>
      ∀ settings, r = .ok settings → networks.isSome → networks = some (blockedNetworks settings)
    | _ => fun _ => True
  next _ _ _ := ()

variable {Q : Option Err → Unit → Prop} {w w' : World} {α β : Type} {i : Nat} {owner : Option Nat}

section Programs

variable (i : Nat) {networks : Option (List Prefix)}

theorem restoreGuard_applying (post : ∀ r, Q r ()) :
    (restoreGuard i).wp (applying i networks).transformer Q () := by
  simp [restoreGuard, Option.forall, post]

theorem start_applying (applies : networks.isSome) (post : ∀ r, Q r ()) :
    (start i).wp (applying i networks).transformer Q () := by
  simp [start, startEngine, fail, Option.forall, restoreGuard_applying, applies, post]

theorem stop_applying (post : ∀ r, Q r ()) :
    (stop i).wp (applying i networks).transformer Q () := by
  simp [stop, stopAgain, stopFirst, Option.forall, restoreGuard_applying, post]

theorem setKillSwitch_applying (applies : networks.isSome) (enabled : Bool) (post : ∀ r, Q r ()) :
    (setKillSwitch i enabled).wp (applying i networks).transformer Q () := by
  simp [setKillSwitch, Option.forall, forall_except, applies, post]

theorem supervise_applying (turns : Nat) (last : Fallbacks) {Q : Unit → Unit → Prop}
    (post : Q () ()) : (supervise i turns last).wp (applying i networks).transformer Q () := by
  refine supervise_wp (fun op is => ?_) turns last post
  cases op <;> simp_all [Op.supervises]

end Programs

/-! ## What one operation does -/

/-- The guard, and the plans of session `i` and of its engine. -/
structure SamePlan (i : Nat) (w w' : World) : Prop where
  guard : w'.guard = w.guard
  plan : (w'.sessions i).plan = (w.sessions i).plan
  rendered : (w'.engines i).rendered = (w.engines i).rendered

variable {b : β} {p : Prog Op α} {a : α}

theorem SamePlan.onSession {f : Session → β × Session} (keeps : ∀ s, (f s).2.plan = s.plan)
    (step : onSession i f w = some (b, w')) : SamePlan i w w' := by
  cases step
  exact ⟨rfl, by simp [keeps], rfl⟩

theorem stop_rendered (c : Choice) (e : EngineUnit) : (e.stop c).rendered = e.rendered := by
  unfold EngineUnit.stop
  split <;> rfl

/-- The operations that reach the guard or render a configuration. -/
def Op.renders {β : Type} : Op β → Bool
  | .guardApply _ _ _ | .guardRestore _ | .engineApply _ _ => true
  | _ => false

theorem samePlan_of_perform {t : Nat} {c : Choice} {op : Op β} (of : op.session = some i)
    (plain : op.renders = false) (step : perform t c op w = some (b, w')) : SamePlan i w w' := by
  have moves (next : State) (reason : Code) (key : Key) (s : Session) :
      (s.setStateLocked next reason key).plan = s.plan := by
    unfold setStateLocked
    split <;> rfl
  cases op <;> cases of <;> simp only [perform] at step
  case guardApply | guardRestore | engineApply => cases plain
  case beginStart =>
    refine .onSession (fun s => ?_) step
    unfold beginStart
    split
    · exact moves _ _ _ _
    · rfl
  case setState next reason key => exact .onSession (fun s => moves next reason key s) step
  case beginReconnecting reason key delay =>
    refine .onSession (fun s => ?_) step
    unfold beginReconnecting
    split <;> rfl
  case beginStop =>
    refine .onSession (fun s => ?_) step
    unfold beginStop
    split <;> rfl
  case engineStop | engineClose | finishStop =>
    cases step
    exact ⟨rfl, rfl, by simp [engineClose, stop_rendered]⟩
  case lockGuard =>
    split at step
    · cases step
    · exact .onSession (fun s => rfl) step
  case nextWork =>
    split at step
    · cases step
    · cases step
      exact ⟨rfl, rfl, rfl⟩
  all_goals first
    | exact .onSession (fun s => rfl) step
    | (cases step; exact ⟨rfl, rfl, rfl⟩)

/-! ## The invariant -/

/-- The rules in force and the configuration of the owner are made from the owner's plan,
whose addresses are chosen. -/
structure Fits (owner : Option Nat) (w : World) : Prop where
  idle : w.guard.restoring = false
  flagged : w.guard.firewall.armed = true → w.guard.applied.killSwitch = true
  chosen : ∀ i, owner = some i → Chosen (w.sessions i).plan
  rules : ∀ i, owner = some i → w.guard.firewall.armed = true →
    w.guard.firewall.installed = planNetworks (w.sessions i).plan
  drawn : ∀ i plan, owner = some i → (w.engines i).rendered = some plan →
    plan = (w.sessions i).plan

namespace Fits

/-- What is known of the guard, carried over to a world with the same plans. -/
theorem of_plans (fits : Fits owner w) (idle : w'.guard.restoring = false)
    (flagged : w'.guard.firewall.armed = true → w'.guard.applied.killSwitch = true)
    (rules : ∀ i, owner = some i → w'.guard.firewall.armed = true →
      w'.guard.firewall.installed = planNetworks (w.sessions i).plan)
    (plans : ∀ i, owner = some i → (w'.sessions i).plan = (w.sessions i).plan)
    (drawn : ∀ i plan, owner = some i → (w'.engines i).rendered = some plan →
      plan = (w.sessions i).plan) : Fits owner w' where
  idle := idle
  flagged := flagged
  chosen i at_i := by
    rw [plans i at_i]
    exact fits.chosen i at_i
  rules i at_i on := by
    rw [plans i at_i]
    exact rules i at_i on
  drawn i plan at_i rendered := by
    rw [plans i at_i]
    exact drawn i plan at_i rendered

theorem of_guard (fits : Fits owner w) (guard : w'.guard = w.guard)
    (plans : ∀ i, owner = some i → (w'.sessions i).plan = (w.sessions i).plan)
    (drawn : ∀ i plan, owner = some i → (w'.engines i).rendered = some plan →
      plan = (w.sessions i).plan) : Fits owner w' :=
  fits.of_plans (guard ▸ fits.idle) (guard ▸ fits.flagged) (fun i at_i => guard ▸ fits.rules i at_i)
    plans drawn

theorem guardApply (fits : Fits (some i) w) (c : Choice) (caller : Caller) {settings : Settings}
    (same : blockedNetworks settings = planNetworks (w.sessions i).plan) :
    Fits (some i) (w.guardApply c i caller settings).2 := by
  have spec := w.guard.apply_spec c.faults settings fits.idle
  have installed := w.guard.apply_installed c.faults settings
  refine fits.of_plans spec.restoring (spec.flagged fits.flagged) (fun k at_k on => ?_)
    (fun _ _ => rfl) fits.drawn
  cases at_k
  rcases installed on with new | ⟨on, old⟩
  · exact new.trans same
  · exact old.trans (fits.rules i rfl on)

theorem guardRestore (fits : Fits owner w) (c : Choice) (i : Nat) :
    Fits owner (w.guardRestore c i).2 := by
  have spec := w.guard.restore_spec c.faults
  have installed := w.guard.restore_installed c.faults
  refine fits.of_plans spec.restoring (spec.flagged fits.flagged) (fun k at_k on => ?_)
    (fun _ _ => rfl) fits.drawn
  exact (installed on).2.trans (fits.rules k at_k (installed on).1)

theorem engineApply (fits : Fits owner w) (c : Choice) (i : Nat) (site : Site) :
    Fits owner (w.engineApply c i site).2 := by
  have same : World.SameBut i w (w.engineApply c i site).2 :=
    .of_perform
      (show perform 0 c (.engineApply i site) w = _ from rfl) rfl
  refine fits.of_guard rfl (fun k at_k => ?_) fun k plan at_k rendered => ?_
  · by_cases here : k = i
    · subst here
      simpa [World.engineApply] using (fits.chosen k at_k).stays c.interfaces
    · rw [same.sessions k here]
  · by_cases here : k = i
    · subst here
      have stays := (fits.chosen k at_k).stays c.interfaces
      have drawn := fits.drawn k plan at_k
      simp only [World.engineApply, World.record_engines, World.setEngine_same, startFailed,
        stays] at rendered
      repeat' split at rendered
      all_goals first
        | exact drawn rendered
        | exact (Option.some.inj rendered).symm
    · rw [same.engines k here] at rendered
      exact fits.drawn k plan at_k rendered

end Fits

/-- What session `i` may apply are the networks of its plan, if it is the owner. -/
structure Applies (owner : Option Nat) (i : Nat) (networks : Option (List Prefix)) (w : World)
    (_ : Unit) : Prop where
  fits : Fits owner w
  own : ∀ n, networks = some n → owner = some i ∧ n = planNetworks (w.sessions i).plan

namespace Applies

variable {networks : Option (List Prefix)}

theorem step {t : Nat} {c : Choice} {op : Op β}
    (applies : Applies owner i networks w ()) (ok : (applying i networks).allowed () op)
    (step : perform t c op w = some (b, w')) :
    (applying i networks).answers () op b ∧ Applies owner i networks w' () := by
  obtain ⟨fits, applies⟩ := applies
  obtain ⟨of, ok⟩ := ok
  have answers : (applying i networks).answers () op b := by
    cases op <;> try exact trivial
    case settings k =>
      cases of
      obtain ⟨rfl, rfl⟩ := some_pair step
      intro some
      obtain ⟨n, rfl⟩ := isSome_iff_exists.mp some
      rw [(applies n rfl).2, blockedNetworks_settingsLocked]
    case checkKillSwitch k enabled =>
      cases of
      obtain ⟨rfl, rfl⟩ := some_pair step
      intro settings checked some
      obtain ⟨n, rfl⟩ := isSome_iff_exists.mp some
      unfold checkKillSwitch at checked
      split at checked
      · cases checked
      · cases checked
        rw [(applies n rfl).2]
        rfl
  have fits' : Fits owner w' := by
    have same := World.SameBut.of_perform step of
    by_cases plain : op.renders = false
    · have kept := samePlan_of_perform of plain step
      refine fits.of_guard kept.guard (fun k at_k => ?_) fun k plan at_k rendered => ?_
      · by_cases here : k = i
        · rw [here, kept.plan]
        · rw [same.sessions k here]
      · refine fits.drawn k plan at_k ?_
        by_cases here : k = i
        · rw [← rendered, here, kept.rendered]
        · rw [← rendered, same.engines k here]
    · cases op <;> try exact absurd rfl plain
      case guardApply k caller settings =>
        cases of
        obtain ⟨rfl, rfl⟩ := pair_of_some step
        obtain ⟨rfl, same⟩ := applies _ ok
        exact fits.guardApply c caller same
      case guardRestore k =>
        obtain ⟨rfl, rfl⟩ := pair_of_some step
        exact fits.guardRestore c k
      case engineApply k site =>
        obtain ⟨rfl, rfl⟩ := pair_of_some step
        exact fits.engineApply c k site
  refine ⟨answers, fits', fun n applied => ?_⟩
  obtain ⟨at_i, rfl⟩ := applies n applied
  refine ⟨at_i, ?_⟩
  by_cases plain : op.renders = false
  · rw [(samePlan_of_perform of plain step).plan]
  · cases op <;> try exact absurd rfl plain
    case guardApply k caller settings =>
      obtain ⟨rfl, rfl⟩ := pair_of_some step
      rfl
    case guardRestore k =>
      obtain ⟨rfl, rfl⟩ := pair_of_some step
      rfl
    case engineApply k site =>
      cases of
      obtain ⟨rfl, rfl⟩ := pair_of_some step
      simp [engineApply, (fits.chosen i at_i).stays c.interfaces]

theorem of_runs (applies : Applies owner i networks w ())
    (follows : p.wp (applying i networks).transformer (fun _ _ => True) ())
    (run : Runs machine p w a w') : Fits owner w' := by
  have holds : p.wp machine.demonic (fun _ w' => ∃ s, Applies owner i networks w' s ∧ True) w :=
    Prog.wp_of_view (applying i networks) (fun op w w' _ c b applies ok step =>
      applies.step ok step) p applies follows
  obtain ⟨_, after, -⟩ := run.of_wp holds
  exact after.fits

end Applies

/-- A run of the owner. -/
theorem Fits.of_own (fits : Fits (some i) w)
    (follows : ∀ n, p.wp (applying i (some n)).transformer (fun _ _ => True) ())
    (run : Runs machine p w a w') : Fits (some i) w' := by
  have applies : Applies (some i) i (some (planNetworks (w.sessions i).plan)) w () :=
    ⟨fits, fun n own => ⟨rfl, (Option.some.inj own).symm⟩⟩
  exact applies.of_runs (follows _) run

theorem carries_fits : Carries Fits where
  frame fits guard same := by
    refine fits.of_guard guard (fun i at_i => by rw [(same i at_i).1]) fun i plan at_i rendered => ?_
    rw [(same i at_i).2] at rendered
    exact fits.drawn i plan at_i rendered
  adopt {i w} managed fresh fits := by
    refine ⟨fits.idle, fits.flagged, fun k at_k => ?_, fun k at_k on => ?_,
      fun k plan at_k rendered => ?_⟩
    · cases at_k
      obtain ⟨plan, settings, made, requested, interfaces, prepared⟩ := fresh.session
      rw [made]
      exact chosen_of_prepareTun prepared
    · have held : w.guard.applied ≠ .empty := fun empty => by
        have on := fits.flagged on
        rw [empty] at on
        cases on
      obtain ⟨k, none, -⟩ := managed.guard held
      cases none
    · cases at_k
      obtain ⟨kind, new⟩ := fresh.engine
      rw [new] at rendered
      cases rendered
  release managed fits := ⟨fits.idle, fits.flagged, by rintro _ ⟨⟩, by rintro _ ⟨⟩, by rintro _ _ ⟨⟩⟩
  start {i _ _ _} fits run := fits.of_own (fun n => start_applying i rfl fun _ => trivial) run
  stop {i _ _ _} fits run := fits.of_own (fun n => stop_applying i fun _ => trivial) run
  setKillSwitch {i enabled _ _ _} fits run :=
    fits.of_own (fun n => setKillSwitch_applying i rfl enabled fun _ => trivial) run
  supervise {owner i turns last w _} fits run := by
    have applies : Applies owner i none w () := ⟨fits, by rintro _ ⟨⟩⟩
    exact applies.of_runs (supervise_applying i turns last trivial) run

/-! ## Sequences with restarts of engines -/

/-- The engine after its process ended and was started again, from the plan it shares with the
session; a start that fails leaves the engine failed. -/
def EngineUnit.restarted (running : Bool) (plan : Plan) (e : EngineUnit) : EngineUnit :=
  { e with state := if running then .running else .failed, rendered := some plan }

def World.engineRestart (running : Bool) (i : Nat) (w : World) : World :=
  w.setEngine i ((w.engines i).restarted running (w.sessions i).plan)

inductive ServiceReach (start : World) : World → Prop
  | refl : ServiceReach start start
  | call {w w' : World} (before : ServiceReach start w) (next : ManagerCall w w') :
      ServiceReach start w'
  | restart {w : World} (before : ServiceReach start w) (i : Nat) (running : Bool)
      (live : (w.engines i).live = true) : ServiceReach start (w.engineRestart running i)

theorem Managed.engineRestart (managed : Managed w owner) (i : Nat) (running : Bool) :
    Managed (w.engineRestart running i) owner := by
  have live (k : Nat) : ((w.engineRestart running i).engines k).live = (w.engines k).live := by
    by_cases here : k = i
    · simp [World.engineRestart, restarted, here]
    · simp [World.engineRestart, here]
  refine ⟨fun k => ?_, fun k on => managed.live k (live k ▸ on), managed.owns, managed.others,
    managed.stopped, managed.guard, managed.known⟩
  by_cases here : k = i
  · cases running <;> simp [Sane, World.engineRestart, restarted, here]
  · simpa [Sane, World.engineRestart, here] using managed.sane k

theorem Fits.engineRestart (fits : Fits owner w) (i : Nat) (running : Bool) :
    Fits owner (w.engineRestart running i) := by
  refine fits.of_guard rfl (fun _ _ => rfl) fun k plan at_k rendered => ?_
  by_cases here : k = i
  · subst here
    simp only [World.engineRestart, World.setEngine_same] at rendered
    exact (Option.some.inj rendered).symm
  · simp only [World.engineRestart, ne_eq, here, not_false_eq_true, World.setEngine_other]
      at rendered
    exact fits.drawn k plan at_k rendered

theorem ServiceReach.between {w₀ : World} (untouched : w₀.Untouched) (reach : ServiceReach w₀ w) :
    Between Fits w := by
  induction reach with
  | refl =>
    obtain ⟨backend, guard⟩ := untouched.guard
    refine untouched.between ⟨by rw [guard]; rfl, fun on => ?_, by rintro _ ⟨⟩, by rintro _ ⟨⟩,
      by rintro _ _ ⟨⟩⟩
    rw [guard] at on
    cases on
  | call before next ih => exact ih.call carries_fits next
  | restart before i running live ih =>
    exact ⟨ih.managed.engineRestart i running, ih.kept.engineRestart i running, ih.free⟩

def networkOf (text : Bytes) : Option Prefix := (parsePrefix text).map Prefix.masked

theorem networkOf_texts {t : Tun} (enabled : t.enabled = true) :
    t.texts.map networkOf = t.networks.map some := by
  simp [Tun.texts, Tun.networks, enabled, networkOf, parsePrefix_formatPrefix]

/-- A tunnel with the given way of answering names. -/
def tunnelPlan (mode : DNSMode) : Plan := ⟨[], ⟨none, none, true, []⟩, ⟨true, mode, []⟩, []⟩

/-- Session `1` of the world after a first `Connect` of such a plan. -/
theorem tunnel_connected (mode : DNSMode) (facts : World → Config → α) (found : ((connect
    (tunnelPlan mode) .switchedOn).eval machine (List.replicate 18 { interfaces := some [] }) (.idle
    .nftables .bare .switchedOn)).bind (fun r => (r.2.engines 1).rendered.bind fun plan => (render
    (r.2.engines 1).kind plan).map fun config => (r.2.manager.current, r.2.guard.firewall.armed,
    plan.tun.enabled, facts r.2 config)) = some (some 1, true, true, a)) :
    ∃ w plan config, ServiceReach (.idle .nftables .bare .switchedOn) w ∧
      w.manager.current = some 1 ∧ w.guard.firewall.armed = true ∧
      (w.engines 1).rendered = some plan ∧ plan.tun.enabled = true ∧
      render (w.engines 1).kind plan = some config ∧ facts w config = a := by
  obtain ⟨⟨r, w⟩, connected, found⟩ := bind_eq_some_iff.mp found
  obtain ⟨plan, rendered, found⟩ := bind_eq_some_iff.mp found
  obtain ⟨config, renders, found⟩ := map_eq_some_iff.mp found
  simp only [Prod.mk.injEq] at found
  obtain ⟨current, armed, tunnel, known⟩ := found
  exact ⟨w, plan, config, .call .refl (.connect (Runs.of_eval connected)), current, armed, rendered,
    tunnel, renders, known⟩

end Sora.Session
