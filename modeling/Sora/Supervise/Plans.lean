import Sora.Supervise.Ownership

/-!
# The plan of the running process

`Apply` replaces the stored plan before it reloads or starts anything and does not take it back when
it fails.  The plan that the supervisor reports is the one its process runs with as long as no `Apply`
fails while a process runs or waits for its restart.
-/

namespace Sora.Supervise

open Sora.Lib Sora.Session List Supervisor

variable {Plan : Type}

/-- The process a goroutine looks after. -/
def Watcher.on (i : Nat) : Watcher Plan → Prop
  | .waiting j => j = i
  | .delayed j _ => j = i
  | .ended => False

variable {r : List Stage × Supervisor Plan}

namespace Supervisor

variable {d : Driver Plan} {o : Outcomes} {s t : Supervisor Plan} {p : Plan} {i : Nat}

/-- Whether a goroutine still looks after process `i`. -/
def Watched (i : Nat) (s : Supervisor Plan) : Prop := ∃ w ∈ s.watchers, w.on i

/-- The plan that the supervisor reports is the one of the process that runs or that is about to be
restarted, and the last one that was accepted. -/
structure Faithful (s : Supervisor Plan) : Prop where
  live : ∀ i, s.alive i = true → s.proc = some i
  referred : ∀ i, s.proc = some i → i < s.processes.length
  watched : ∀ i, s.Watched i → i < s.processes.length
  crashed : ∀ i p, .delayed i p ∈ s.watchers → s.alive i = false ∧ s.loaded i = some p
  plan : ∀ i, s.proc = some i → s.alive i = true ∨ s.Watched i → s.plan = s.loaded i
  accepted : ∀ i, s.proc = some i → s.Watched i → s.accepted = s.loaded i

theorem Faithful.congr (ok : Faithful s) (processes : t.processes = s.processes)
    (watchers : t.watchers = s.watchers) (proc : t.proc = s.proc) (plan : t.plan = s.plan)
    (accepted : t.accepted = s.accepted) : Faithful t := by
  have alive : ∀ i, t.alive i = s.alive i := fun i => by rw [alive, alive, processes]
  have loaded : ∀ i, t.loaded i = s.loaded i := fun i => by rw [loaded, loaded, processes]
  have watched : ∀ i, t.Watched i = s.Watched i := fun i => by rw [Watched, Watched, watchers]
  constructor
  · intro i live
    rw [proc]
    exact ok.live i (alive i ▸ live)
  · intro i same
    rw [processes]
    exact ok.referred i (proc ▸ same)
  · intro i on
    rw [processes]
    exact ok.watched i (watched i ▸ on)
  · intro i p inside
    rw [alive, loaded]
    exact ok.crashed i p (watchers ▸ inside)
  · intro i same either
    rw [plan, loaded]
    exact ok.plan i (proc ▸ same) (by rwa [alive, watched] at either)
  · intro i same on
    rw [accepted, loaded]
    exact ok.accepted i (proc ▸ same) (watched i ▸ on)

theorem Faithful.told (ok : Faithful s) (st : EngineState) (pub : List Published) :
    Faithful (s.told st pub) := ok.congr rfl rfl rfl rfl rfl

/-! ## Starts -/

/-- What a start needs to know about the processes before it. -/
structure Startable (p : Plan) (s : Supervisor Plan) : Prop where
  quiet : ∀ i, s.alive i = false
  plan : s.plan = some p
  watched : ∀ i, s.Watched i → i < s.processes.length
  crashed : ∀ i p, .delayed i p ∈ s.watchers → s.alive i = false ∧ s.loaded i = some p

theorem Startable.crashed_attempted (ok : Startable p s) {q : Bool} {j : Nat} {plan : Plan}
    (inside : .delayed j plan ∈ s.watchers) :
    (s.attempted p q).alive j = false ∧ (s.attempted p q).loaded j = some plan := by
  have there := ok.watched j ⟨_, inside, rfl⟩
  obtain ⟨gone, loaded⟩ := ok.crashed j plan inside
  refine ⟨?_, (loaded_attempted there).trans loaded⟩
  rw [← Bool.not_eq_true, alive_attempted]
  rintro (old | ⟨rfl, -⟩)
  · rw [gone] at old
    cases old
  · omega

/-- A start that succeeds runs the new plan. -/
theorem Startable.started (can : Startable p s) (fine : (s.start d o p).1 = []) :
    Faithful { (s.start d o p).2 with accepted := some p } := by
  rcases start_cases d o s p with ⟨e, st, pub, done, -⟩ | ⟨err, q, r, i, f, st, pub, done, failed, -⟩ |
    ⟨r, i, f, pub, done, -⟩
  · rw [done] at fine
    cases fine
  · rw [done] at fine
    exact absurd fine failed
  · rw [done]
    have longer : (s.watched p).processes.length = s.processes.length + 1 := by
      simp [Supervisor.watched, attempted]
    have fresh : ∀ j, (s.watched p).proc = some j → j = s.processes.length :=
      fun j proc => (Option.some.inj proc).symm
    have last : (s.watched p).loaded s.processes.length = some p := loaded_attempted_last
    have running : Faithful { s.watched p with accepted := some p } := by
      constructor
      · intro j live
        rcases alive_attempted.mp live with old | ⟨rfl, -⟩
        · rw [can.quiet j] at old
          cases old
        · rfl
      · intro j proc
        rw [fresh j proc]
        exact longer ▸ Nat.lt_succ_self _
      · rintro j ⟨w, inside, on⟩
        rw [longer]
        rcases mem_append.mp inside with old | new
        · have old := can.watched j ⟨w, old, on⟩
          omega
        · rw [mem_singleton.mp new] at on
          have same : s.processes.length = j := on
          omega
      · intro j plan inside
        rcases mem_append.mp inside with old | new
        · exact can.crashed_attempted old
        · cases mem_singleton.mp new
      · intro j proc either
        rw [fresh j proc]
        exact can.plan.trans last.symm
      · intro j proc on
        rw [fresh j proc]
        exact last.symm
    exact running.congr rfl rfl rfl rfl rfl

theorem announce_ok (fine : r.1 = []) : announce r = r := by
  obtain ⟨pub, done⟩ := announce_eq r
  rw [done, if_pos fine]

theorem Faithful.announced (ok : Faithful r.2) : Faithful (announce r).2 := by
  obtain ⟨pub, done⟩ := announce_eq r
  rw [done]
  split
  · exact ok
  · exact ok.told _ _

theorem announce_fst (r : List Stage × Supervisor Plan) : (announce r).1 = r.1 := by
  obtain ⟨pub, done⟩ := announce_eq r
  rw [done]

/-! ## Apply -/

/-- An `Apply` that has stored its plan can load it into the process that runs, stops the process
that it has to replace, and starts the engine if a process waits for its restart. -/
def Steady (d : Driver Plan) : Action Plan → Supervisor Plan → Prop
  | .apply p o, s => o.fails .admission = true ∨ o.fails .prepareTun = true ∨
      ∀ i, s.proc = some i →
        (s.alive i = true → o.fails .renderReload = false ∧
          (o.unsupported = false → o.fails .reload = false) ∧
          (o.unsupported = true → o.fails .stop = true → o.exited = true)) ∧
        (s.alive i = false → s.Watched i → Outcomes.startsUp o d p)
  | .stop o, s | .close o, s => s.proc.any s.alive = true → o.fails .stop = true → o.exited = true
  | _, _ => True

/-- The result of an `Apply`, with the record of the plans that were accepted. -/
def recorded (p : Plan) (r : List Stage × Supervisor Plan) : Supervisor Plan :=
  if r.1 = [] then { r.2 with accepted := some p } else r.2

section

variable (ok : Faithful s)

include ok

theorem Faithful.unroute : Faithful (s.unroute d o).2 := by
  obtain ⟨r, i, f, removed⟩ := unroute_eq d o s
  rw [removed]
  exact ok.congr rfl rfl rfl rfl rfl

/-- A goroutine ends. -/
theorem Faithful.ended (n : Nat) :
    Faithful { s with watchers := s.watchers.set n .ended } := by
  have fewer : ∀ w ∈ s.watchers.set n .ended, ∀ i, w.on i → w ∈ s.watchers := by
    intro w inside i on
    rcases mem_or_eq_of_mem_set inside with old | rfl
    · exact old
    · cases on
  have watched : ∀ i, Watched i { s with watchers := s.watchers.set n .ended } → s.Watched i :=
    fun i ⟨w, inside, on⟩ => ⟨w, fewer w inside i on, on⟩
  exact ⟨ok.live, ok.referred, fun i on => ok.watched i (watched i on),
    fun i p inside => ok.crashed i p (fewer _ inside i rfl),
    fun i proc either => ok.plan i proc (either.imp_right (watched i)),
    fun i proc on => ok.accepted i proc (watched i on)⟩

theorem Faithful.exit (i : Nat) : Faithful (s.exit i) := by
  have same : (s.exit i).processes.length = s.processes.length := length_modify ..
  refine ⟨fun j live => ok.live j (alive_exit.mp live).2, fun j proc => same ▸ ok.referred j proc,
    fun j on => same ▸ ok.watched j on, fun j p inside => ?_, fun j proc either => ?_,
    fun j proc on => ?_⟩
  · obtain ⟨gone, loaded⟩ := ok.crashed j p inside
    rw [loaded_exit]
    refine ⟨?_, loaded⟩
    rw [← Bool.not_eq_true]
    intro live
    rw [(alive_exit.mp live).2] at gone
    cases gone
  · rw [loaded_exit]
    exact ok.plan j proc (either.imp_left fun live => (alive_exit.mp live).2)
  · rw [loaded_exit]
    exact ok.accepted j proc on

/-- The process is no longer referred to and has exited. -/
theorem Faithful.drop (gone : ∀ j, s.alive j = true → j = i) (none : t.proc = none)
    (processes : t.processes = (s.exit i).processes) (watchers : t.watchers = s.watchers) :
    Faithful t := by
  have exited := ok.exit i
  have alive : ∀ j, t.alive j = (s.exit i).alive j := fun j => by
    rw [alive, alive, processes]
  have loaded : ∀ j, t.loaded j = (s.exit i).loaded j := fun j => by
    rw [loaded, loaded, processes]
  have idle : ∀ j, t.proc ≠ some j := by simp [none]
  refine ⟨fun j live => ?_, fun j proc => absurd proc (idle j), fun j on => ?_,
    fun j p inside => ?_, fun j proc => absurd proc (idle j), fun j proc => absurd proc (idle j)⟩
  · rw [alive] at live
    obtain ⟨other, old⟩ := alive_exit.mp live
    exact absurd (gone j old) other
  · rw [processes]
    obtain ⟨w, inside, on⟩ := on
    exact exited.watched j ⟨w, watchers ▸ inside, on⟩
  · rw [alive, loaded]
    exact exited.crashed j p (watchers ▸ inside)

theorem Faithful.startable (quiet : ∀ i, s.alive i = false)
    (plan : s.plan = some p) : Startable p s :=
  ⟨quiet, plan, ok.watched, ok.crashed⟩

/-- A start that fails leaves the old process, or one that nobody looks after. -/
theorem Faithful.start_failed (can : Startable p s)
    (fails : (s.start d o p).1 ≠ []) : Faithful (s.start d o p).2 := by
  rcases start_cases d o s p with ⟨e, st, pub, done, -⟩ | ⟨err, q, r, i, f, st, pub, done, -⟩ |
    ⟨r, i, f, pub, done, -⟩
  · rw [done]
    exact ok.told _ _
  · rw [done]
    have longer : (s.attempted p q).processes.length = s.processes.length + 1 := by
      simp [attempted]
    have unwatched : ∀ j, s.Watched j → j < s.processes.length := can.watched
    have attempted : Faithful (s.attempted p q) := by
      constructor
      · intro j live
        rcases alive_attempted.mp live with old | ⟨rfl, rfl⟩
        · rw [can.quiet j] at old
          cases old
        · rfl
      · intro j proc
        cases q with
        | true =>
          cases proc
          omega
        | false =>
          have old := ok.referred j proc
          omega
      · intro j on
        have old := unwatched j on
        omega
      · exact fun j plan inside => can.crashed_attempted inside
      · intro j proc either
        cases q with
        | true =>
          cases proc
          rw [loaded_attempted_last]
          exact can.plan
        | false =>
          rw [loaded_attempted (ok.referred j proc)]
          refine ok.plan j proc (either.imp_left fun live => ?_)
          rcases alive_attempted.mp live with old | ⟨-, new⟩
          · exact old
          · cases new
      · intro j proc on
        have old := unwatched j on
        cases q with
        | true =>
          cases proc
          omega
        | false =>
          rw [loaded_attempted old]
          exact ok.accepted j proc on
    exact attempted.congr rfl rfl rfl rfl rfl
  · rw [done] at fails
    exact absurd rfl fails

theorem Faithful.recorded_announce (can : Startable p s) :
    Faithful (recorded p (announce (s.start d o p))) := by
  rw [recorded, announce_fst]
  split
  · rename_i fine
    rw [announce_ok fine]
    exact can.started fine
  · rename_i fails
    exact (ok.start_failed can fails).announced

theorem Faithful.reloaded (proc : s.proc = some i) (live : s.alive i = true) :
    Faithful { (s.stored p).reloaded i p with accepted := some p } := by
  have same : (s.reloaded i p).processes.length = s.processes.length := length_modify ..
  have loaded : (s.reloaded i p).loaded i = some p := loaded_reloaded (alive_lt live)
  have only : ∀ j, s.proc = some j → j = i := fun j other =>
    (Option.some.inj (proc.symm.trans other)).symm
  constructor
  · intro j alive
    exact ok.live j (alive_reloaded ▸ alive)
  · exact fun j proc => same ▸ ok.referred j proc
  · exact fun j on => same ▸ ok.watched j on
  · intro j q inside
    obtain ⟨gone, before⟩ := ok.crashed j q inside
    have other : i ≠ j := by
      rintro rfl
      rw [live] at gone
      cases gone
    exact ⟨alive_reloaded.trans gone, (loaded_reloaded_other other).trans before⟩
  · intro j proc _
    rw [only j proc]
    exact loaded.symm
  · intro j proc _
    rw [only j proc]
    exact loaded.symm

theorem Faithful.apply (admitted : Steady d (.apply p o) s) :
    Faithful (recorded p (s.apply d o p)) := by
  rcases admitted with why | why | steady
  · obtain ⟨e, same⟩ := apply_refused (.inl why)
    rw [same]
    exact ok
  · obtain ⟨e, same⟩ := apply_refused (.inr why)
    rw [same]
    exact ok
  · have alone : ∀ {i}, s.proc = some i → ∀ j, s.alive j = true → j = i := fun proc j alive =>
      (Option.some.inj (proc.symm.trans (ok.live j alive))).symm
    have done := applied d o s p
    generalize s.apply d o p = r at done
    cases done with
    | refused why => exact ok
    | fresh idle =>
      have quiet := alive_false_of ok.live idle
      have can : Startable p (s.stored p) := ⟨quiet, rfl, ok.watched, ok.crashed⟩
      by_cases fine : ((s.stored p).start d o p).1 = []
      · rw [recorded, announce_fst, if_pos fine, announce_ok fine]
        exact can.started fine
      · -- nobody looks after the process that has exited, or the start would have succeeded
        have unwatched : ∀ i, s.proc = some i → ¬s.Watched i := fun i proc on =>
          fine (start_ok ((steady i proc).2 (quiet i) on))
        have base : Faithful (s.stored p) := by
          refine ⟨ok.live, ok.referred, ok.watched, ok.crashed, fun i proc either => ?_,
            fun i proc on => absurd on (unwatched i proc)⟩
          rcases either with alive | on
          · have alive : s.alive i = true := alive
            rw [quiet i] at alive
            cases alive
          · exact absurd on (unwatched i proc)
        exact base.recorded_announce can
    | @unloaded e i pub proc live why =>
      obtain ⟨renders, reloads, -⟩ := (steady i proc).1 live
      rcases why with fails | ⟨supported, fails⟩
      · rw [renders] at fails
        cases fails
      · rw [reloads supported] at fails
        cases fails
    | @loaded i pub proc live => exact (ok.reloaded proc live).congr rfl rfl rfl rfl rfl
    | @unstopped e i pub proc live supported fails stays =>
      rw [((steady i proc).1 live).2.2 supported fails] at stays
      cases stays
    | @stopped e i pub proc live => exact ok.drop (alone proc) rfl rfl rfl
    | @replaced i pub proc live =>
      have base : Faithful (((s.stored p).cleared.exit i).told .running pub) :=
        ok.drop (alone proc) rfl rfl rfl
      refine base.recorded_announce (base.startable (fun j => ?_) rfl)
      exact alive_false_of base.live (fun k absent => nomatch absent) j

theorem Faithful.stop
    (admitted : s.proc.any s.alive = true → o.fails .stop = true → o.exited = true) :
    Faithful (s.stop d o).2 := by
  have done := stopped d o s
  generalize s.stop d o = r at done
  cases done with
  | idle gone =>
    have quiet := alive_false_of ok.live gone
    have halted : Faithful s.halted := by
      refine ⟨fun i live => ?_, fun i absent => (nomatch absent), ok.watched, ok.crashed,
        fun i absent => (nomatch absent), fun i absent => (nomatch absent)⟩
      have live : s.alive i = true := live
      rw [quiet i] at live
      cases live
    exact halted.unroute.told _ _
  | @exits i err st pub proc =>
    have halted : Faithful (s.halted.exit i) := ok.drop
      (fun j live => (Option.some.inj (proc.symm.trans (ok.live j live))).symm) rfl rfl rfl
    exact halted.unroute.told _ _
  | @stays i e st pub proc live fails still =>
    rw [admitted (by simp [proc, live]) fails] at still
    cases still

/-- A goroutine goes on to wait for the delay. -/
theorem Faithful.delay {n : Nat} (waiting : s.watchers[n]? = some (.waiting i))
    (gone : s.alive i = false) (proc : s.proc = some i) (plan : s.plan = some p) :
    Faithful { s with watchers := s.watchers.set n (.delayed i p) } := by
  have on : s.Watched i := ⟨_, mem_of_getElem? waiting, rfl⟩
  have same : ∀ j, Watched j { s with watchers := s.watchers.set n (.delayed i p) } → s.Watched j := by
    rintro j ⟨w, inside, there⟩
    rcases mem_or_eq_of_mem_set inside with old | rfl
    · exact ⟨w, old, there⟩
    · have same : i = j := there
      exact same ▸ on
  refine ⟨ok.live, ok.referred, fun j there => ok.watched j (same j there), fun j q inside => ?_,
    fun j proc either => ok.plan j proc (either.imp_right (same j)),
    fun j proc there => ok.accepted j proc (same j there)⟩
  rcases mem_or_eq_of_mem_set inside with old | new
  · exact ok.crashed j q old
  · cases new
    exact ⟨gone, (ok.plan _ proc (.inr on)).symm.trans plan⟩

theorem Faithful.step {a : Action Plan} {s' : Supervisor Plan}
    (admitted : Steady d a s) (taken : step d a s = some s') : Faithful s' := by
  cases stepped taken with
  | failed err =>
    have done := ok.apply admitted
    rwa [recorded, if_neg err] at done
  | accepted fine =>
    have done := ok.apply admitted
    rwa [recorded, if_pos fine] at done
  | stop => exact ok.stop admitted
  | @close o => exact (ok.stop admitted).congr rfl rfl rfl rfl rfl
  | cancel | wait => exact ok.congr rfl rfl rfl rfl rfl
  | exit live => exact ok.exit _
  | @notice n i canceled o r waiting gone done =>
    cases done with
    | idle other => exact ok.ended _
    | ended why words => exact (ok.told _ _).ended _
    | @delayed p attempts pub crashed proc running plan words room =>
      exact (ok.delay waiting (gone crashed) proc plan).congr rfl rfl rfl rfl rfl
    | @exhausted attempts pub crashed proc words spent =>
      have spent : Faithful { s with
          budget := { s.budget with attempts := attempts }
          now := s.now + o.lag } := ok.congr rfl rfl rfl rfl rfl
      exact (spent.unroute.told _ _).ended _
  | late delayed other | quit delayed => exact ok.ended _
  | @restart n i o plan delayed proc running =>
    have inside := mem_of_getElem? delayed
    obtain ⟨gone, loaded⟩ := ok.crashed i plan inside
    have on : s.Watched i := ⟨_, inside, rfl⟩
    have stored := (ok.plan i proc (.inr on)).trans loaded
    have accepted := (ok.accepted i proc on).trans loaded
    have base := ok.ended n
    have can : Startable plan { s with watchers := s.watchers.set n .ended } := by
      refine base.startable (fun j => ?_) stored
      refine alive_false_of base.live (fun k same => ?_) j
      cases proc.symm.trans same
      exact gone
    by_cases fine : ({ s with watchers := s.watchers.set n .ended }.start d o plan).1 = []
    · rw [announce_ok fine]
      exact (can.started fine).congr rfl rfl rfl rfl (start_accepted.trans accepted)
    · exact (base.start_failed can fine).announced

end

theorem Faithful.new (limit window : Nat) : Faithful (new limit window : Supervisor Plan) where
  live i live := by simp [alive, Supervise.new] at live
  referred i absent := by cases absent
  watched i on := by
    obtain ⟨w, inside, -⟩ := on
    cases inside
  crashed i p inside := by cases inside
  plan i absent := by cases absent
  accepted i absent := by cases absent

/-- A restart runs the plan that the supervisor reports, which is the last one accepted. -/
theorem Faithful.restart (ok : Faithful s) {n : Nat} {s' : Supervisor Plan}
    (taken : Supervise.step d (.wake n o) s = some s') {q : Process Plan}
    (new : q ∈ s'.processes.drop s.processes.length) :
    s.plan = some q.loaded ∧ s.accepted = some q.loaded := by
  cases stepped taken with
  | late delayed other => simp at new
  | @restart n i o plan delayed proc running =>
    have inside := mem_of_getElem? delayed
    obtain ⟨-, loaded⟩ := ok.crashed i plan inside
    have on : s.Watched i := ⟨_, inside, rfl⟩
    have started : q ∈ ({ s with watchers := s.watchers.set n .ended }.start d o
        plan).2.processes.drop s.processes.length := by
      obtain ⟨pub, done⟩ := announce_eq
        ({ s with watchers := s.watchers.set n .ended }.start d o plan)
      rw [done] at new
      split at new
      · exact new
      · exact new
    have same : q.loaded = plan :=
      start_processes (s := { s with watchers := s.watchers.set n .ended }) started
    rw [same]
    exact ⟨(ok.plan i proc (.inr on)).trans loaded, (ok.accepted i proc on).trans loaded⟩

/-- The plan that the supervisor reports is the one that a live process was started or reloaded with
last, and an automatic restart starts the engine with that plan, which is the one of the last `Apply`
that returned nil. -/
theorem plan_of_process {limit window : Nat}
    (run : Run (step d) (Steady d) (new limit window) s) :
    (∀ i, s.alive i = true → s.plan = s.loaded i) ∧
      ∀ n o s', step d (.wake n o) s = some s' → ∀ q ∈ s'.processes.drop s.processes.length,
        s.plan = some q.loaded ∧ s.accepted = some q.loaded := by
  have faithful : Faithful s := run.keeps Faithful (.new limit window)
    fun a s s' ok admitted taken => ok.step admitted taken
  exact ⟨fun i live => faithful.plan i (faithful.live i live) (.inl live),
    fun n o s' taken q new => faithful.restart taken new⟩

/-! ## A failed reload -/

/-- The reported plan, the plans of the processes and the last accepted plan. -/
def plans (s : Supervisor Nat) : Option Nat × List Nat × Option Nat :=
  (s.plan, s.processes.map (·.loaded), s.accepted)

/-- After a reload that failed the supervisor reports the rejected plan, and restarts the engine with
it when the process exits. -/
theorem failed_reload_reported :
    (exec (step plainDriver) (fun _ _ => True)
      [.apply 1 {}, .apply 2 { fails := (· == .reload) }] (new 5 600)).map plans =
        some (some 2, [1], some 1) ∧
    (exec (step plainDriver) (fun _ _ => True)
      [.apply 1 {}, .apply 2 { fails := (· == .reload) }, .exit 0, .notice 0 false {}, .wake 0 {}]
      (new 5 600)).map plans = some (some 2, [1, 2], some 1) := by
  decide

/-- A reload, a crash and a restart. -/
theorem reloaded_plan_restarted : ∃ s, Run (step plainDriver) (Steady plainDriver) (new 5 600) s ∧
    plans s = (some 2, [2], some 2) ∧
    ∀ n o s', step plainDriver (.wake n o) s = some s' →
      ∀ q ∈ s'.processes.drop s.processes.length, s.plan = some q.loaded ∧
        s.accepted = some q.loaded := by
  have first : Run (step plainDriver) (Steady plainDriver) (new 5 600) _ :=
    Run.refl.next (.apply 1 {}) (.inr (.inr fun i absent => by cases absent)) rfl
  have second := first.next (.apply 2 {}) (.inr (.inr fun i proc =>
    ⟨fun _ => ⟨rfl, fun _ => rfl, fun unsupported => by cases unsupported⟩,
      fun _ _ stage _ => rfl⟩)) rfl
  have third := (second.next (.exit 0) trivial rfl).next (.notice 0 false {}) trivial rfl
  exact ⟨_, third, by decide, (plan_of_process third).2⟩

end Supervisor

end Sora.Supervise
