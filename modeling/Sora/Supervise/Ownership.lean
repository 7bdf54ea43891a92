import Sora.Supervise.Supervisor

/-!
# The supervisor and its child process

A live child is the process that the supervisor refers to, so that a later `Stop` ends it, as long as
an `Apply` that replaces a process can stop it: on this path the reference is dropped before the stop
and not taken back when the stop fails.  The routes are owed as long as a `Route` that fails leaves
nothing behind.
-/

namespace Sora.Supervise

open Sora.Lib Sora.Session List Bool Supervisor

variable {n : Nat}

namespace Supervisor

variable {Plan : Type} {d : Driver Plan} {o : Outcomes} {s : Supervisor Plan} {p : Plan} {i : Nat}
    {a : Action Plan} {s' : Supervisor Plan}

/-- Every live child is referred to, a process that waits for its restart has exited, and the routes
that are installed are owed. -/
structure Owned (d : Driver Plan) (s : Supervisor Plan) : Prop where
  live : ∀ i, s.alive i = true → s.proc = some i
  referred : ∀ i, s.proc = some i → i < s.processes.length
  crashed : ∀ i p, .delayed i p ∈ s.watchers → s.alive i = false ∧ i < s.processes.length
  routing : Routing d s

theorem Owned.told (ok : Owned d s) (st : EngineState) (pub : List Published) :
    Owned d (s.told st pub) :=
  ⟨ok.live, ok.referred, ok.crashed, ok.routing.owed, ok.routing.router⟩

theorem Owned.setRoutes (ok : Owned d s) {r i f : Bool} (routing : Routing d (s.setRoutes r i f)) :
    Owned d (s.setRoutes r i f) :=
  ⟨ok.live, ok.referred, ok.crashed, routing⟩

theorem Owned.unroute (ok : Owned d s) : Owned d (s.unroute d o).2 := by
  obtain ⟨r, i, f, removed⟩ := unroute_eq d o s
  have routing := ok.routing.unroute (o := o)
  rw [removed] at routing ⊢
  exact ok.setRoutes routing

theorem Owned.announce {r : List Stage × Supervisor Plan} (ok : Owned d r.2) :
    Owned d (announce r).2 := by
  obtain ⟨pub, done⟩ := announce_eq r
  rw [done]
  split
  · exact ok
  · exact ok.told _ _

theorem alive_false_of (quiet : ∀ i, s.alive i = true → s.proc = some i)
    (gone : ∀ i, s.proc = some i → s.alive i = false) (i : Nat) : s.alive i = false := by
  rw [← not_eq_true]
  intro live
  rw [gone i (quiet i live)] at live
  cases live

/-- The process that an `Apply` replaces, if any, can be stopped, and a `Route` that fails leaves no
rules behind for whose removal nobody would care. -/
def Stoppable : Action Plan → Supervisor Plan → Prop
  | .apply _ o, s =>
    ((s.proc.any s.alive && o.unsupported && o.fails .stop) = true → o.exited = true) ∧ Tidy o s
  | .wake _ o, s => Tidy o s
  | _, _ => True

section

variable (ok : Owned d s)

include ok

/-- A goroutine takes its next position. -/
theorem Owned.set {w : Watcher Plan}
    (new : ∀ i p, w = .delayed i p → s.alive i = false ∧ i < s.processes.length) :
    Owned d { s with watchers := s.watchers.set n w } := by
  refine ⟨ok.live, ok.referred, fun i p inside => ?_, ok.routing.owed, ok.routing.router⟩
  rcases mem_or_eq_of_mem_set inside with old | same
  · exact ok.crashed i p old
  · exact new i p same.symm

theorem Owned.exit (i : Nat) : Owned d (s.exit i) := by
  have same : (s.exit i).processes.length = s.processes.length := by simp [Supervisor.exit]
  refine ⟨fun j live => ok.live j (alive_exit.mp live).2, fun j proc => same ▸ ok.referred j proc,
    fun j p inside => ?_, ok.routing.owed, ok.routing.router⟩
  obtain ⟨gone, there⟩ := ok.crashed j p inside
  refine ⟨?_, same ▸ there⟩
  rw [← not_eq_true]
  intro live
  rw [(alive_exit.mp live).2] at gone
  cases gone

/-- A start is made while no child is alive. -/
theorem Owned.start (quiet : ∀ i, s.alive i = false) (tidy : Tidy o s) :
    Owned d (s.start d o p).2 := by
  have attempted : ∀ q, Owned d (s.attempted p q) := by
    have longer : ∀ q, (s.attempted p q).processes.length = s.processes.length + 1 := by
      simp [attempted]
    refine fun q => ⟨fun i live => ?_, fun i proc => ?_, fun i p inside => ?_, ok.routing.owed,
      ok.routing.router⟩
    · rcases alive_attempted.mp live with old | ⟨rfl, rfl⟩
      · rw [quiet i] at old
        cases old
      · rfl
    · rw [longer]
      cases q with
      | true =>
        cases proc
        omega
      | false =>
        have old := ok.referred i proc
        omega
    · obtain ⟨gone, there⟩ := ok.crashed i p inside
      refine ⟨?_, ?_⟩
      · rw [← not_eq_true, alive_attempted]
        rintro (old | ⟨rfl, -⟩)
        · rw [gone] at old
          cases old
        · omega
      · rw [longer]
        omega
  rcases start_cases d o s p with ⟨e, st, pub, done, -⟩ | ⟨err, q, r, i, f, st, pub, done, -, -, kept⟩ |
    ⟨r, i, f, pub, done, -, kept⟩
  · rw [done]
    exact ok.told _ _
  · rw [done]
    have routing := kept ok.routing tidy
    exact ((attempted q).setRoutes ⟨routing.owed, routing.router⟩).told _ _
  · rw [done]
    have routing := kept ok.routing
    have watched : Owned d (s.watched p) := by
      refine ⟨(attempted true).live, (attempted true).referred, fun i p inside => ?_,
        ok.routing.owed, ok.routing.router⟩
      rcases mem_append.mp inside with old | new
      · exact (attempted true).crashed i p old
      · cases mem_singleton.mp new
    exact (watched.setRoutes ⟨routing.owed, routing.router⟩).told _ _

theorem Owned.cleared_exit (proc : s.proc = some i) :
    Owned d (s.cleared.exit i) := by
  have exited := ok.exit i
  refine ⟨fun j live => ?_, fun j absent => (by cases absent), exited.crashed, ok.routing.owed,
    ok.routing.router⟩
  obtain ⟨other, old⟩ := alive_exit.mp live
  have same := ok.live j old
  rw [proc] at same
  exact absurd (Option.some.inj same).symm other

theorem Owned.apply (admitted : Stoppable (.apply p o) s) :
    Owned d (s.apply d o p).2 := by
  have base : Owned d (s.stored p) :=
    ⟨ok.live, ok.referred, ok.crashed, ok.routing.owed, ok.routing.router⟩
  have done := applied d o s p
  generalize s.apply d o p = r at done
  cases done with
  | refused why => exact ok
  | fresh idle =>
    exact (base.start (fun i => alive_false_of ok.live idle i) admitted.2).announce
  | unloaded proc live why => exact base.told _ _
  | @loaded i pub proc live =>
    have reloaded : Owned d ((s.stored p).reloaded i p) := by
      have same : ((s.stored p).reloaded i p).processes.length = s.processes.length :=
        length_modify ..
      refine ⟨fun j alive => ?_, fun j proc => same ▸ ok.referred j proc, fun j q inside => ?_,
        ok.routing.owed, ok.routing.router⟩
      · rw [alive_reloaded] at alive
        exact ok.live j alive
      · rw [alive_reloaded, same]
        exact ok.crashed j q inside
    exact reloaded.told _ _
  | unstopped proc live supported fails stays =>
    have exited := admitted.1 (by simp [proc, live, supported, fails])
    rw [exited] at stays
    cases stays
  | @stopped e i pub proc live => exact (base.cleared_exit proc).told _ _
  | @replaced i pub proc live =>
    have owned := (base.cleared_exit proc).told .running pub
    refine (owned.start (fun j => ?_) admitted.2).announce
    exact alive_false_of owned.live (fun j some => by cases some) j

theorem Owned.stop : Owned d (s.stop d o).2 := by
  have routing : Routing d s := ok.routing
  have done := stopped d o s
  generalize s.stop d o = r at done
  cases done with
  | idle gone =>
    have quiet := alive_false_of ok.live gone
    have halted : Owned d s.halted := by
      refine ⟨fun i live => ?_, fun i absent => (by cases absent), ok.crashed, routing.owed,
        routing.router⟩
      have dead : s.alive i = true := live
      rw [quiet i] at dead
      cases dead
    exact halted.unroute.told _ _
  | @exits i err st pub proc =>
    have exited := ok.cleared_exit proc
    have halted : Owned d (s.halted.exit i) :=
      ⟨exited.live, exited.referred, exited.crashed, routing.owed, routing.router⟩
    exact halted.unroute.told _ _
  | @stays i e st pub proc live fails still =>
    have kept : Owned d { s.halted with proc := some i } :=
      ⟨fun j alive => proc ▸ ok.live j alive, fun j some => ok.referred j (proc.trans some),
        ok.crashed, routing.owed, routing.router⟩
    exact kept.unroute.told _ _

theorem Owned.watchExit {canceled : Bool}
    (gone : canceled = false → s.alive i = false) {r : Watcher Plan × Supervisor Plan}
    (done : Noticed d o s i canceled r) :
    Owned d { r.2 with watchers := r.2.watchers.set n r.1 } := by
  have routing : Routing d s := ok.routing
  cases done with
  | idle other => exact ok.set fun i p same => by cases same
  | ended why words => exact (ok.told _ _).set fun i p same => by cases same
  | @delayed p attempts pub crashed proc running plan words room =>
    have spent : Owned d ({ s with
        budget := { s.budget with attempts := attempts }
        now := s.now + o.lag
        restarts := s.restarts ++ [s.now + o.lag] }.told .recovering pub) :=
      ⟨ok.live, ok.referred, ok.crashed, routing.owed, routing.router⟩
    refine spent.set fun j q same => ?_
    cases same
    exact ⟨gone crashed, ok.referred _ proc⟩
  | @exhausted attempts pub crashed proc words spent =>
    have spent : Owned d { s with
        budget := { s.budget with attempts := attempts }
        now := s.now + o.lag } :=
      ⟨ok.live, ok.referred, ok.crashed, routing.owed, routing.router⟩
    exact (spent.unroute.told _ _).set fun i p same => by cases same

theorem Owned.step (admitted : Stoppable a s) (taken : step d a s = some s') :
    Owned d s' := by
  have routing : Routing d s := ok.routing
  cases stepped taken with
  | failed err => exact ok.apply admitted
  | accepted done =>
    have owned := ok.apply admitted
    exact ⟨owned.live, owned.referred, owned.crashed, owned.routing.owed, owned.routing.router⟩
  | stop => exact ok.stop
  | @close o =>
    have owned := ok.stop (o := o)
    exact ⟨owned.live, owned.referred, owned.crashed, owned.routing.owed, owned.routing.router⟩
  | cancel | wait => exact ⟨ok.live, ok.referred, ok.crashed, routing.owed, routing.router⟩
  | exit live => exact ok.exit _
  | notice waiting gone done => exact ok.watchExit gone done
  | late delayed other | quit delayed => exact ok.set fun i p same => by cases same
  | @restart n i o plan delayed proc running =>
    have base := ok.set (n := n) (w := .ended) fun i p same => by cases same
    refine (base.start (fun j => ?_) admitted).announce
    refine alive_false_of base.live (fun k same => ?_) j
    cases proc.symm.trans same
    exact (ok.crashed i plan (mem_of_getElem? delayed)).1

end

theorem Owned.new (d : Driver Plan) (limit window : Nat) : Owned d (new limit window) where
  live i live := by simp [alive, Supervise.new] at live
  referred i proc := by cases proc
  crashed i p inside := by cases inside
  routing := ⟨fun installed => Bool.noConfusion installed, fun routed => Bool.noConfusion routed⟩

/-! ## After a stop -/

/-- Nothing runs, nothing is owed and nothing will be restarted. -/
structure Over (n : Nat) (s : Supervisor Plan) : Prop where
  stopping : s.stopping = true
  proc : s.proc = none
  quiet : ∀ i, s.alive i = false
  routed : s.routed = false
  installed : s.installed = false
  started : s.processes.length = n

/-- A step of anybody but `Apply`. -/
def NoApply : Action Plan → Supervisor Plan → Prop
  | .apply _ _, _ => False
  | _, _ => True

theorem Over.unroute (ended : Over n s) : s.unroute d o = ([], s) := by
  rw [Supervisor.unroute, ended.routed]
  rfl

theorem Over.stop (ended : Over n s) : Over n (s.stop d o).2 := by
  have done := stopped d o s
  generalize s.stop d o = r at done
  have halted : Over n s.halted :=
    ⟨rfl, rfl, ended.quiet, ended.routed, ended.installed, ended.started⟩
  cases done with
  | idle gone =>
    rw [halted.unroute]
    exact ⟨rfl, rfl, ended.quiet, ended.routed, ended.installed, ended.started⟩
  | exits proc | stays proc live fails still => exact nomatch ended.proc.symm.trans proc

theorem Over.step (ended : Over n s) (admitted : NoApply a s) (taken : step d a s = some s') :
    Over n s' := by
  have same : ∀ t : Supervisor Plan, t.stopping = s.stopping → t.proc = s.proc →
      t.processes = s.processes → t.routed = s.routed → t.installed = s.installed → Over n t := by
    intro t stopping proc processes routed installed
    refine ⟨stopping.trans ended.stopping, proc.trans ended.proc, fun i => ?_,
      routed.trans ended.routed, installed.trans ended.installed, ?_⟩
    · rw [alive, processes]
      exact ended.quiet i
    · rw [processes]
      exact ended.started
  cases stepped taken with
  | failed err | accepted done => cases admitted
  | stop => exact ended.stop
  | @close o =>
    have ended := ended.stop (d := d) (o := o)
    exact ⟨ended.stopping, ended.proc, ended.quiet, ended.routed, ended.installed, ended.started⟩
  | cancel | late delayed other | quit delayed | wait => exact same _ rfl rfl rfl rfl rfl
  | @exit i live =>
    rw [ended.quiet i] at live
    cases live
  | notice waiting gone done =>
    cases done with
    | idle other | ended why words => exact same _ rfl rfl rfl rfl rfl
    | delayed crashed proc running plan words room | exhausted crashed proc words spent =>
      cases ended.proc.symm.trans proc
  | restart delayed proc running => cases ended.proc.symm.trans proc

/-- A `Stop` that returns nil has ended everything. -/
theorem Owned.ended (ok : Owned d s) (done : (s.stop d o).1 = []) :
    Over s.processes.length (s.stop d o).2 := by
  have owned := ok.stop (o := o)
  have removal := stopped d o s
  generalize s.stop d o = r at done owned removal
  have removed : ∀ (t : Supervisor Plan) (st : EngineState) (pub : List Published), Routing d t →
      t.stopping = true → t.proc = none → (∀ i, t.alive i = false) →
      t.processes.length = s.processes.length → (t.unroute d o).1 = [] →
      Over s.processes.length ((t.unroute d o).2.told st pub) := by
    intro t st pub routing stopping proc quiet started cleared
    have installed := routing.removed cleared
    rcases unroute_cases d o t with ⟨same, nothing⟩ | ⟨failed, -⟩ | ⟨gone, -⟩
    · rw [same] at installed ⊢
      refine ⟨stopping, proc, quiet, ?_, installed, started⟩
      rw [← not_eq_true]
      intro routed
      have routed : t.routed = true := routed
      simp [routed, routing.router routed] at nothing
    · rw [failed] at cleared
      cases cleared
    · rw [gone]
      exact ⟨stopping, proc, quiet, rfl, rfl, started⟩
  cases removal with
  | idle gone =>
    have quiet := alive_false_of ok.live gone
    exact removed s.halted _ _ ⟨ok.routing.owed, ok.routing.router⟩ rfl rfl quiet rfl done
  | @exits i err st pub proc =>
    have exited := ok.cleared_exit proc
    obtain ⟨-, cleared⟩ := append_eq_nil_iff.mp done
    refine removed (s.halted.exit i) _ _ ⟨ok.routing.owed, ok.routing.router⟩ rfl rfl (fun j => ?_)
      (length_modify ..) cleared
    exact alive_false_of exited.live (fun k absent => by cases absent) j
  | stays proc live fails still => cases done

/-- While the lock is free, every live child is the one the supervisor refers to; after a `Stop` or
`Close` whose stop has returned nil, and as long as no `Apply` follows, no child is alive, no route is
installed and no process is ever started. -/
theorem no_orphan_engine {limit window : Nat}
    (run : Run (step d) Stoppable (new limit window) s) :
    (∀ i, s.alive i = true → s.proc = some i) ∧
      ∀ o a s' t, (a = .stop o ∨ a = .close o) → step d a s = some s' → (s.stop d o).1 = [] →
        Run (step d) NoApply s' t →
        (∀ i, t.alive i = false) ∧ t.installed = false ∧ t.processes.length = s.processes.length := by
  have owned : Owned d s := run.keeps (Owned d) (.new d limit window)
    fun a s s' ok admitted taken => ok.step admitted taken
  refine ⟨owned.live, fun o a s' t which taken nil later => ?_⟩
  have ended := owned.ended nil
  have halted : Over s.processes.length s' := by
    rcases which with rfl | rfl
    · cases taken
      exact ended
    · cases taken
      exact ⟨ended.stopping, ended.proc, ended.quiet, ended.routed, ended.installed, ended.started⟩
  have still : Over s.processes.length t := later.keeps (Over s.processes.length) halted
    fun a s s' ended admitted taken => ended.step admitted taken
  exact ⟨still.quiet, still.installed, still.started⟩

/-! ## A process that is lost -/

/-- A driver that cannot reload, as the ones of sing-box and Xray. -/
def plainDriver : Driver Nat where
  tun plan := plan != 0
  router := true
  preparer := true
  synchronizer := false

/-- The second `Apply` has to replace the process, and either can stop it or cannot. -/
def replacement (o : Outcomes) : List (Action Nat) :=
  [.apply 1 {}, .apply 2 { o with unsupported := true }]

/-- The children, the one referred to, the routes, and the error and the children of a `Stop`. -/
def outcome (s : Supervisor Nat) : List Bool × Option Nat × List Stage × List Bool :=
  (s.processes.map (·.alive), s.proc, (s.stop plainDriver {}).1,
    (s.stop plainDriver {}).2.processes.map (·.alive))

theorem outcome_of_exec (acts : List (Action Nat)) {x : List Bool × Option Nat × List Stage × List Bool}
    (ran : (exec (step plainDriver) (fun _ _ => True) acts (new 5 600)).map outcome = some x) :
    ∃ s, Run (step plainDriver) (fun _ _ => True) (new 5 600) s ∧ outcome s = x := by
  obtain ⟨s, done, same⟩ := Option.map_eq_some_iff.mp ran
  exact ⟨s, .of_exec done, same⟩

/-- After an `Apply` that could not stop the process it replaces, the process is alive, nobody refers
to it, and a `Stop` returns nil and leaves it alive. -/
theorem replaced_process_lost : ∃ s, Run (step plainDriver) (fun _ _ => True) (new 5 600) s ∧
    outcome s = ([true], none, [], [true]) :=
  outcome_of_exec (replacement { fails := (· == .stop) }) (by decide)

theorem replaced_process_stopped : ∃ s, Run (step plainDriver) Stoppable (new 5 600) s ∧
    outcome s = ([false, true], some 1, [], [false, false]) ∧
    (∀ i, s.alive i = true → s.proc = some i) ∧ ∀ i, (s.stop plainDriver {}).2.alive i = false := by
  have first : Run (step plainDriver) Stoppable (new 5 600) _ :=
    Run.refl.next (.apply 1 {}) ⟨fun stuck => by simp at stuck, fun fails => by simp at fails⟩ rfl
  have second := first.next (.apply 2 { unsupported := true })
    ⟨fun stuck => by simp at stuck, fun fails => by simp at fails⟩ rfl
  have all := no_orphan_engine second
  have after := all.2 {} (.stop {}) _ _ (Or.inl rfl) rfl (by decide) .refl
  exact ⟨_, second, by decide, all.1, after.1⟩

end Supervisor

end Sora.Supervise
