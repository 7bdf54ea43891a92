import Sora.Lib.Run
import Sora.Session.World

/-!
# The process supervisor of an engine

`supervise.Supervisor` owns one engine process.  `Apply`, `Stop` and the two sections of the
goroutine `watch` hold the lock `lifecycle` for their whole length, so a section is one step of the
model; what can happen between the sections is that a process exits, that time passes and that the
context is cancelled.  An exit in the middle of a section cannot be told from one right after it,
except by the stop of the process, whose outcome is chosen by the environment.
-/

namespace Sora.Supervise

open Sora.Lib Sora.Session List

/-! ## The environment -/

/-- The outside calls of a section that can fail.  An error of the source is the list of the calls
that failed: `errors.Join` appends. -/
inductive Stage where
  | admission
  | prepareTun
  | renderReload
  | reload
  | stop
  | reserve
  | render
  | check
  | prepareStart
  | spawn
  | ready
  | confirm
  | route
  | stopNew
  | unroute
  deriving DecidableEq, Repr

/-- What the environment answers in one section. -/
structure Outcomes where
  fails : Stage → Bool := fun _ => false
  /-- `Reload` answers `ErrReloadUnsupported`. -/
  unsupported : Bool := false
  /-- A process whose stop failed has exited nevertheless. -/
  exited : Bool := false
  /-- Rules are left behind by a `Route`, or an `Unroute`, that failed. -/
  routeLeft : Bool := false
  unrouteLeft : Bool := false
  /-- The time between the two readings of the clock in `Allow`. -/
  lag : Nat := 0

def Outcomes.first (o : Outcomes) (stages : List Stage) : Option Stage := stages.find? o.fails

/-- What the supervisor asks of a driver: the plan's `Tun.Enabled`, and which of the optional
interfaces the driver has. -/
structure Driver (Plan : Type) where
  tun : Plan → Bool
  router : Bool
  preparer : Bool
  synchronizer : Bool

/-- `engine.RestartBudget`. -/
structure RestartBudget where
  limit : Nat
  window : Nat
  attempts : List Nat := []

/-- The attempts inside the window that ends at `now`. -/
def inWindow (window now : Nat) (attempts : List Nat) : List Nat :=
  attempts.filter fun t => now < t + window

/-- `RestartBudget.Allow`, with its two readings of the clock. -/
def RestartBudget.allow (now later : Nat) (b : RestartBudget) : Bool × RestartBudget :=
  if b.limit = 0 then (false, b)
  else
    let kept := inWindow b.window now b.attempts
    if b.limit ≤ kept.length then (false, { b with attempts := kept })
    else (true, { b with attempts := kept ++ [later] })

/-! ## The supervisor -/

variable {stages : List Stage} {q : Bool}

section

variable {Plan : Type}

/-- A child process: the plan whose configuration it was started, or reloaded, with last. -/
structure Process (Plan : Type) where
  loaded : Plan
  alive : Bool
  deriving DecidableEq

/-- A goroutine `watch`: waiting for its process, or for the delay before a restart with the plan it
has read. -/
inductive Watcher (Plan : Type) where
  | waiting (i : Nat)
  | delayed (i : Nat) (plan : Plan)
  | ended
  deriving DecidableEq

/-- The events on the bus. -/
inductive Published where
  | state (s : EngineState)
  | down
  | restart
  | fatal
  deriving DecidableEq

/-- `Supervisor`, its children, its goroutines and the routes it has asked for.  The last three
fields are records of what happened that no function reads. -/
structure Supervisor (Plan : Type) where
  budget : RestartBudget
  state : EngineState := .idle
  plan : Option Plan := none
  proc : Option Nat := none
  stopping : Bool := false
  routed : Bool := false
  cancelled : Bool := false
  processes : List (Process Plan) := []
  watchers : List (Watcher Plan) := []
  /-- Whether routing rules of the tunnel are installed. -/
  installed : Bool := false
  /-- Whether a `Close` has finished its `Stop`. -/
  closing : Bool := false
  now : Nat := 0
  published : List Published := []
  /-- When restarts were allowed. -/
  restarts : List Nat := []
  /-- Whether the last attempt to remove the routes failed. -/
  removalFailed : Bool := false
  /-- The plan of the last `Apply` that returned nil. -/
  accepted : Option Plan := none

namespace Supervisor

variable (d : Driver Plan) (o : Outcomes) (s : Supervisor Plan)

def alive (i : Nat) : Bool := s.processes[i]?.any (·.alive)

def loaded (i : Nat) : Option Plan := s.processes[i]?.map (·.loaded)

def exit (i : Nat) : Supervisor Plan :=
  { s with processes := s.processes.modify i fun q => { q with alive := false } }

/-- `Start` of a process. -/
def launch (p : Plan) : Supervisor Plan :=
  { s with processes := s.processes ++ [{ loaded := p, alive := true }] }

def publish (ev : Published) : Supervisor Plan := { s with published := s.published ++ [ev] }

/-- `setState`. -/
def setState (st : EngineState) : Supervisor Plan :=
  { s with
    state := st
    published := if s.state = st then s.published else s.published ++ [.state st] }

/-- `Process.Stop`. -/
def stopProcess (i : Nat) (stage : Stage) : List Stage × Supervisor Plan :=
  if s.alive i = false then ([], s)
  else if o.fails stage then ([stage], if o.exited then s.exit i else s)
  else ([], s.exit i)

/-- Whether routes are owned, whether they are installed, and whether their removal has failed. -/
def setRoutes (routed installed failed : Bool) : Supervisor Plan :=
  { s with routed := routed, installed := installed, removalFailed := failed }

/-- `unroute`. -/
def unroute : List Stage × Supervisor Plan :=
  if s.routed && d.router then
    if o.fails .unroute then
      ([.unroute], s.setRoutes s.routed (s.installed && o.unrouteLeft) true)
    else ([], s.setRoutes false false false)
  else ([], s)

/-- A process that could not be stopped is kept. -/
def keepUnstopped (i : Nat) (err : List Stage) : Supervisor Plan :=
  if err ≠ [] ∧ s.alive i then { s with proc := some i } else s

/-- The end of a start whose process did not become ready. -/
def abandon (child : Nat) (err : List Stage) : List Stage × Supervisor Plan :=
  let (stopErr, s) := s.stopProcess o child .stopNew
  let (unrouteErr, s) := (s.keepUnstopped child stopErr).unroute d o
  (err ++ stopErr ++ unrouteErr, s)

/-- The end of a start whose process is ready. -/
def adopt (child : Nat) : Supervisor Plan :=
  let s := ({ s with proc := some child }.setState .running).publish (.state .running)
  { s with watchers := s.watchers ++ [.waiting child] }

/-- The part of `start` after the process has been started. -/
def settle (p : Plan) (child : Nat) : List Stage × Supervisor Plan :=
  match o.first (.ready :: if d.synchronizer then [.confirm] else []) with
  | some e => s.abandon d o child [e]
  | none =>
    if d.tun p && d.router then
      if o.fails .route then
        (s.setRoutes s.routed o.routeLeft s.removalFailed).abandon d o child [.route]
      else ([], (s.setRoutes true true false).adopt child)
    else ([], s.adopt child)

/-- `start`. -/
def start (p : Plan) : List Stage × Supervisor Plan :=
  match o.first ([.reserve, .render, .check] ++ if d.preparer then [.prepareStart] else []) with
  | some e => ([e], s)
  | none =>
    let s := s.setState .starting
    if o.fails .spawn then ([.spawn], s)
    else
      (s.launch p).settle d o p s.processes.length

/-- `reload`: the last component tells that the engine cannot reload. -/
def reload (i : Nat) (p : Plan) : List Stage × Supervisor Plan × Bool :=
  let s := s.setState .applying
  if o.fails .renderReload then ([.renderReload], s.setState .running, false)
  else if o.unsupported then ([.reload], s.setState .running, true)
  else if o.fails .reload then ([.reload], s.setState .running, false)
  else
    let s := { s with processes := s.processes.modify i fun q => { q with loaded := p } }
    ([], (s.publish (.state .running)).setState .running, false)

/-- The end of a start that a caller has to announce as fatal. -/
def announce : List Stage × Supervisor Plan → List Stage × Supervisor Plan
  | ([], s) => ([], s)
  | (err, s) => (err, (s.setState .failed).publish .fatal)

/-- `Apply`. -/
def apply (p : Plan) : List Stage × Supervisor Plan :=
  match o.first [.admission, .prepareTun] with
  | some e => ([e], s)
  | none =>
    let s := { s with plan := some p, stopping := false }
    match s.proc.filter s.alive with
    | none => announce (s.start d o p)
    | some i =>
      let (err, s, unsupported) := s.reload o i p
      if unsupported then
        let (stopErr, s) := { s with proc := none }.stopProcess o i .stop
        if stopErr ≠ [] then (stopErr, s) else announce (s.start d o p)
      else (err, s)

/-- The first section of `watch`: what becomes of the goroutine. -/
def watchExit (i : Nat) (canceled : Bool) : Watcher Plan × Supervisor Plan :=
  if s.proc ≠ some i ∨ s.stopping then (.ended, s)
  else if canceled then (.ended, s.setState .stopped)
  else
    let s := s.publish .down
    match s.plan with
    | none => (.ended, s.setState .stopped)
    | some plan =>
      let (allowed, budget) := s.budget.allow s.now (s.now + o.lag)
      let s := { s with budget := budget, now := s.now + o.lag }
      if allowed then
        let s := { s with restarts := s.restarts ++ [s.now] }
        (.delayed i plan, (s.setState .recovering).publish .restart)
      else
        let (_, s) := s.unroute d o
        (.ended, (s.setState .failed).publish .fatal)

/-- The second section of `watch`. -/
def watchRestart (i : Nat) (plan : Plan) : Supervisor Plan :=
  if s.proc ≠ some i ∨ s.stopping ∨ s.cancelled then s
  else (announce (s.start d o plan)).2

/-- `Stop`. -/
def stop : List Stage × Supervisor Plan :=
  let old := s.proc
  let s := { s with stopping := true, proc := none, plan := none }
  let (err, s) : List Stage × Supervisor Plan := match old with
    | none => ([], s)
    | some i =>
      let (err, s) := s.stopProcess o i .stop
      (err, s.keepUnstopped i err)
  let (unrouteErr, s) := s.unroute d o
  (err ++ unrouteErr, s.setState (if err ++ unrouteErr = [] then .stopped else .failed))

end Supervisor

/-! ## Steps -/

inductive Action (Plan : Type) where
  | apply (p : Plan) (o : Outcomes)
  | stop (o : Outcomes)
  | close (o : Outcomes)
  | cancel
  | exit (i : Nat)
  /-- A goroutine `watch` goes on after its process has exited, or its context has ended. -/
  | notice (n : Nat) (canceled : Bool) (o : Outcomes)
  /-- The delay of a goroutine is over. -/
  | wake (n : Nat) (o : Outcomes)
  | quit (n : Nat)
  | wait (t : Nat)

/-- One step.  `Close` is a `Stop` and, outside the lock, the end of the context. -/
def step (d : Driver Plan) : Action Plan → Supervisor Plan → Option (Supervisor Plan)
  | .apply p o, s =>
    let (err, s) := s.apply d o p
    some (if err = [] then { s with accepted := some p } else s)
  | .stop o, s => some (s.stop d o).2
  | .close o, s => some { (s.stop d o).2 with closing := true }
  | .cancel, s => if s.closing then some { s with cancelled := true } else none
  | .exit i, s => if s.alive i then some (s.exit i) else none
  | .notice n canceled o, s =>
    match s.watchers[n]? with
    | some (.waiting i) =>
      if (if canceled then s.cancelled = true else s.alive i = false) then
        let (after, s) := s.watchExit d o i canceled
        some { s with watchers := s.watchers.set n after }
      else none
    | _ => none
  | .wake n o, s =>
    match s.watchers[n]? with
    | some (.delayed i plan) =>
      some ({ s with watchers := s.watchers.set n .ended }.watchRestart d o i plan)
    | _ => none
  | .quit n, s =>
    match s.watchers[n]? with
    | some (.delayed _ _) =>
      if s.cancelled then some { s with watchers := s.watchers.set n .ended } else none
    | _ => none
  | .wait t, s => some { s with now := s.now + t }

/-- `New`. -/
def new (limit window : Nat) : Supervisor Plan where
  budget := { limit := limit, window := window }

/-! ## What the sections do -/

namespace Supervisor

variable {d : Driver Plan} {o : Outcomes} {s : Supervisor Plan} {p : Plan} {i j : Nat}

/-- Only the announced state has changed. -/
def told (st : EngineState) (published : List Published) (s : Supervisor Plan) : Supervisor Plan :=
  { s with state := st, published := published }

theorem setState_eq (st : EngineState) (s : Supervisor Plan) : ∃ pub, s.setState st = s.told st pub :=
  ⟨_, rfl⟩

theorem announce_eq (r : List Stage × Supervisor Plan) :
    ∃ pub, announce r = (r.1, if r.1 = [] then r.2 else r.2.told .failed pub) := by
  obtain ⟨err, s⟩ := r
  cases err with
  | nil => exact ⟨[], rfl⟩
  | cons e rest => exact ⟨_, rfl⟩

/-- Removing the routes either gives them up or keeps the debt. -/
theorem unroute_cases (d : Driver Plan) (o : Outcomes) (s : Supervisor Plan) :
    (s.unroute d o = ([], s) ∧ (s.routed && d.router) = false) ∨
      (s.unroute d o = ([.unroute], s.setRoutes s.routed (s.installed && o.unrouteLeft) true) ∧
        (s.routed && d.router) = true) ∨
      (s.unroute d o = ([], s.setRoutes false false false) ∧ (s.routed && d.router) = true) := by
  rw [unroute]
  split
  · rename_i owed
    split
    · exact .inr (.inl ⟨rfl, owed⟩)
    · exact .inr (.inr ⟨rfl, owed⟩)
  · rename_i nothing
    exact .inl ⟨rfl, by simpa using nothing⟩

theorem unroute_told (d : Driver Plan) (o : Outcomes) (s : Supervisor Plan) (st : EngineState)
    (pub : List Published) :
    (s.told st pub).unroute d o = ((s.unroute d o).1, (s.unroute d o).2.told st pub) := by
  have alike : (s.told st pub).routed = s.routed := rfl
  rw [unroute, unroute, alike]
  cases s.routed && d.router with
  | false => rfl
  | true => cases o.fails .unroute <;> rfl

/-- Rules are installed only while the supervisor owes their removal, and it can remove them. -/
structure Routing (d : Driver Plan) (s : Supervisor Plan) : Prop where
  owed : s.installed = true → s.routed = true
  router : s.routed = true → d.router = true

/-- A `Route` that fails leaves rules behind only if the removal of earlier ones is still owed. -/
def Tidy (o : Outcomes) (s : Supervisor Plan) : Prop :=
  o.fails .route = true → o.routeLeft = true → s.routed = true

theorem Routing.unroute (ok : Routing d s) : Routing d (s.unroute d o).2 := by
  rcases unroute_cases d o s with ⟨done, -⟩ | ⟨done, owed⟩ | ⟨done, -⟩
  · rw [done]
    exact ok
  · rw [done]
    simp only [Bool.and_eq_true] at owed
    exact ⟨fun _ => owed.1, fun _ => owed.2⟩
  · rw [done]
    exact ⟨fun installed => Bool.noConfusion installed, fun routed => Bool.noConfusion routed⟩

/-- After a successful removal nothing is installed. -/
theorem Routing.removed (ok : Routing d s) (done : (s.unroute d o).1 = []) :
    (s.unroute d o).2.installed = false := by
  rcases unroute_cases d o s with ⟨same, nothing⟩ | ⟨failed, -⟩ | ⟨removed, -⟩
  · rw [same]
    by_contra installed
    have routed := ok.owed (by simpa using installed)
    simp [routed, ok.router routed] at nothing
  · rw [failed] at done
    cases done
  · rw [removed]
    rfl

/-- After an attempt of the removal nothing is installed, or the attempt has failed. -/
theorem Routing.removed_or_failed (ok : Routing d s) :
    (s.unroute d o).2.installed = true → (s.unroute d o).2.removalFailed = true := by
  rcases unroute_cases d o s with ⟨same, nothing⟩ | ⟨failed, -⟩ | ⟨removed, -⟩
  · have gone := ok.removed (by rw [same])
    intro installed
    rw [gone] at installed
    cases installed
  · rw [failed]
    exact fun _ => rfl
  · rw [removed]
    exact fun installed => Bool.noConfusion installed

/-- A removal touches the record of the routes only. -/
theorem unroute_eq (d : Driver Plan) (o : Outcomes) (s : Supervisor Plan) :
    ∃ routed installed failed, (s.unroute d o).2 = s.setRoutes routed installed failed := by
  rcases unroute_cases d o s with ⟨done, -⟩ | ⟨done, -⟩ | ⟨done, -⟩
  all_goals
    rw [done]
    exact ⟨_, _, _, rfl⟩

theorem alive_exit : (s.exit i).alive j = true ↔ j ≠ i ∧ s.alive j = true := by
  rw [exit, alive, alive]
  simp only [getElem?_modify]
  by_cases same : i = j
  · subst same
    cases s.processes[i]? <;> simp
  · have other : j ≠ i := fun eq => same eq.symm
    cases s.processes[j]? <;> simp [same, other]

theorem loaded_exit : (s.exit i).loaded j = s.loaded j := by
  rw [exit, loaded, loaded]
  simp only [getElem?_modify]
  cases s.processes[j]? <;> simp
  split <;> rfl

theorem alive_lt (live : s.alive i = true) : i < s.processes.length := by
  by_contra beyond
  rw [alive, getElem?_eq_none (by omega)] at live
  cases live

theorem stopProcess_cases (o : Outcomes) (s : Supervisor Plan) (i : Nat) (stage : Stage) :
    (s.stopProcess o i stage = ([], s) ∧ s.alive i = false) ∨
      (s.stopProcess o i stage = ([], s.exit i)) ∨
      (s.stopProcess o i stage = ([stage], s.exit i)) ∨
      (s.stopProcess o i stage = ([stage], s) ∧ s.alive i = true ∧ o.fails stage = true ∧
        o.exited = false) := by
  rw [stopProcess]
  split
  · rename_i gone
    exact .inl ⟨rfl, gone⟩
  · rename_i live
    split
    · rename_i fails
      cases exited : o.exited with
      | true => exact .inr (.inr (.inl rfl))
      | false => exact .inr (.inr (.inr ⟨rfl, by simpa using live, fails, rfl⟩))
    · exact .inr (.inl rfl)

/-- The calls that have to succeed for an engine to come up. -/
def startStages (d : Driver Plan) (p : Plan) : List Stage :=
  ([.reserve, .render, .check] ++ if d.preparer then [.prepareStart] else []) ++
    (.spawn :: ((.ready :: if d.synchronizer then [.confirm] else []) ++
      if d.tun p && d.router then [.route] else []))

/-- Whether every call of a start succeeds. -/
def Outcomes.startsUp (o : Outcomes) (d : Driver Plan) (p : Plan) : Prop :=
  ∀ st ∈ startStages d p, o.fails st = false

theorem Outcomes.first_none : o.first stages = none ↔ ∀ st ∈ stages, o.fails st = false := by
  simp [Outcomes.first]

theorem Outcomes.first_some {e : Stage} (first : o.first stages = some e) :
    e ∈ stages ∧ o.fails e = true :=
  ⟨mem_of_find?_eq_some first, find?_some first⟩

/-- A process was started that could be stopped again (`q = false`) or not. -/
def attempted (p : Plan) (q : Bool) (s : Supervisor Plan) : Supervisor Plan :=
  { s with
    processes := s.processes ++ [{ loaded := p, alive := q }]
    proc := if q then some s.processes.length else s.proc }

/-- A process was started and is watched. -/
def watched (p : Plan) (s : Supervisor Plan) : Supervisor Plan :=
  { s.attempted p true with watchers := s.watchers ++ [.waiting s.processes.length] }

theorem exit_launch (s : Supervisor Plan) (p : Plan) :
    (s.launch p).exit s.processes.length =
      { s with processes := s.processes ++ [{ loaded := p, alive := false }] } := by
  have modified : (s.launch p).processes.modify s.processes.length
      (fun q => { q with alive := false }) = s.processes ++ [{ loaded := p, alive := false }] := by
    apply ext_getElem?
    intro j
    rw [launch, getElem?_modify, getElem?_append, getElem?_append]
    by_cases old : j < s.processes.length
    · have other : s.processes.length ≠ j := by omega
      simp [old, other]
    · by_cases last : s.processes.length = j
      · simp [last]
      · have beyond : 1 ≤ j - s.processes.length := by omega
        simp [last, getElem?_eq_none, beyond]
  rw [exit, modified]
  rfl

theorem alive_launch (s : Supervisor Plan) (p : Plan) :
    (s.launch p).alive s.processes.length = true := by
  simp [alive, launch]

theorem abandon_eq (child : Nat) (err : List Stage) : s.abandon d o child err =
    (err ++ (s.stopProcess o child .stopNew).1 ++
      (((s.stopProcess o child .stopNew).2.keepUnstopped child
        (s.stopProcess o child .stopNew).1).unroute d o).1,
      (((s.stopProcess o child .stopNew).2.keepUnstopped child
        (s.stopProcess o child .stopNew).1).unroute d o).2) := rfl

/-- A process that did not become ready is stopped, or kept, and the routes are removed. -/
theorem abandon_cases (d : Driver Plan) (o : Outcomes) (s : Supervisor Plan) (p : Plan)
    (routed installed failed : Bool) (e : Stage) :
    ∃ err q r i f, ((s.launch p).setRoutes routed installed failed).abandon d o s.processes.length [e] =
        (err, (s.attempted p q).setRoutes r i f) ∧ err ≠ [] ∧
      (Routing d (s.setRoutes routed installed failed) → Routing d (s.setRoutes r i f)) := by
  have live : ((s.launch p).setRoutes routed installed failed).alive s.processes.length = true :=
    alive_launch s p
  -- what is left after the stop, with the routes still to be removed
  obtain ⟨stopErr, q, stopped⟩ : ∃ stopErr q,
      (((s.launch p).setRoutes routed installed failed).stopProcess o s.processes.length
        .stopNew).2.keepUnstopped s.processes.length
        (((s.launch p).setRoutes routed installed failed).stopProcess o s.processes.length
          .stopNew).1 = (s.attempted p q).setRoutes routed installed failed ∧
      (((s.launch p).setRoutes routed installed failed).stopProcess o s.processes.length
        .stopNew).1 = stopErr := by
    have gone : ((s.launch p).setRoutes routed installed failed).exit s.processes.length =
        (s.attempted p false).setRoutes routed installed failed := by
      have exited := exit_launch s p
      exact congrArg (fun t => t.setRoutes routed installed failed) exited
    have dead : (((s.launch p).setRoutes routed installed failed).exit s.processes.length).alive
        s.processes.length ≠ true := fun still => (alive_exit.mp still).1 rfl
    rcases stopProcess_cases o ((s.launch p).setRoutes routed installed failed) s.processes.length
      .stopNew with ⟨-, dead⟩ | done | done | ⟨done, -⟩
    · rw [live] at dead
      cases dead
    · exact ⟨[], false, by rw [done, keepUnstopped, if_neg (by simp), gone], by rw [done]⟩
    · exact ⟨_, false, by rw [done, keepUnstopped, if_neg (fun both => dead both.2), gone], rfl⟩
    · exact ⟨_, true, by rw [done, keepUnstopped, if_pos ⟨by simp, live⟩]; rfl, rfl⟩
  obtain ⟨stopped, failure⟩ := stopped
  obtain ⟨r, i, f, removed⟩ := unroute_eq d o ((s.attempted p q).setRoutes routed installed failed)
  refine ⟨[e] ++ stopErr ++ (((s.attempted p q).setRoutes routed installed failed).unroute d o).1,
    q, r, i, f, ?_, by simp, fun ok => ?_⟩
  · rw [abandon_eq, stopped, failure, removed]
    rfl
  · have kept : Routing d (((s.attempted p q).setRoutes routed installed failed).unroute d o).2 :=
      Routing.unroute ⟨ok.owed, ok.router⟩
    rw [removed] at kept
    exact ⟨kept.owed, kept.router⟩

/-- Everything a start can do: no process was started; one was started and given up; one was
started and is watched. -/
theorem start_cases (d : Driver Plan) (o : Outcomes) (s : Supervisor Plan) (p : Plan) :
    (∃ e st pub, s.start d o p = ([e], s.told st pub) ∧ ¬Outcomes.startsUp o d p) ∨
      (∃ err q r i f st pub, s.start d o p = (err, ((s.attempted p q).setRoutes r i f).told st pub) ∧
        err ≠ [] ∧ ¬Outcomes.startsUp o d p ∧
        (Routing d s → Tidy o s → Routing d (s.setRoutes r i f))) ∨
      (∃ r i f pub, s.start d o p = ([], ((s.watched p).setRoutes r i f).told .running pub) ∧
        Outcomes.startsUp o d p ∧ (Routing d s → Routing d (s.setRoutes r i f))) := by
  have failing : ∀ {e : Stage}, e ∈ startStages d p → o.fails e = true →
      ¬Outcomes.startsUp o d p := by
    intro e stage fails up
    rw [up e stage] at fails
    cases fails
  rw [start]
  split
  · rename_i e first
    obtain ⟨stage, fails⟩ := Outcomes.first_some first
    exact .inl ⟨e, s.state, s.published, rfl, failing (mem_append_left _ stage) fails⟩
  · rename_i early
    rw [Outcomes.first_none] at early
    obtain ⟨pub, starting⟩ := setState_eq .starting s
    simp only [starting]
    split
    · rename_i fails
      refine .inl ⟨.spawn, _, pub, rfl, failing ?_ fails⟩
      exact mem_append_right _ mem_cons_self
    · rename_i spawned
      rw [settle]
      split
      · rename_i e first
        obtain ⟨stage, fails⟩ := Outcomes.first_some first
        obtain ⟨err, q, r, i, f, done, nonempty, kept⟩ :=
          abandon_cases d o (s.told .starting pub) p s.routed s.installed s.removalFailed e
        refine .inr (.inl ⟨err, q, r, i, f, _, pub, done, nonempty, failing ?_ fails, ?_⟩)
        · exact mem_append_right _ (mem_cons_of_mem _ (mem_append_left _ stage))
        · intro ok _
          have kept := kept ⟨ok.owed, ok.router⟩
          exact ⟨kept.owed, kept.router⟩
      · rename_i ready
        rw [Outcomes.first_none] at ready
        have most : ∀ routes : List Stage, (∀ st ∈ routes, o.fails st = false) →
            ∀ st ∈ ([.reserve, .render, .check] ++ if d.preparer then [.prepareStart] else []) ++
              (.spawn :: ((.ready :: if d.synchronizer then [.confirm] else []) ++ routes)),
            o.fails st = false := by
          intro routes all st inside
          rcases mem_append.mp inside with inside | inside
          · exact early st inside
          · rcases mem_cons.mp inside with rfl | inside
            · simpa using spawned
            · rcases mem_append.mp inside with inside | inside
              · exact ready st inside
              · exact all st inside
        split
        · rename_i routes
          split
          · rename_i fails
            obtain ⟨err, q, r, i, f, done, nonempty, kept⟩ := abandon_cases d o
              (s.told .starting pub) p s.routed o.routeLeft s.removalFailed .route
            refine .inr (.inl ⟨err, q, r, i, f, _, pub, done, nonempty, failing ?_ fails, ?_⟩)
            · rw [startStages, if_pos routes]
              simp
            · intro ok tidy
              have kept := kept ⟨fun left => tidy fails left, ok.router⟩
              exact ⟨kept.owed, kept.router⟩
          · rename_i routed
            refine .inr (.inr ⟨true, true, false, _, rfl, ?_, ?_⟩)
            · rw [Outcomes.startsUp, startStages, if_pos routes]
              exact most _ fun st inside => by
                rw [mem_singleton.mp inside]
                simpa using routed
            · simp only [Bool.and_eq_true] at routes
              exact fun _ => ⟨fun _ => rfl, fun _ => routes.2⟩
        · rename_i plain
          refine .inr (.inr ⟨s.routed, s.installed, s.removalFailed, _, rfl, ?_, fun ok => ok⟩)
          rw [Outcomes.startsUp, startStages, if_neg plain]
          exact most _ fun st inside => by cases inside

/-- `Apply` has stored its plan. -/
def stored (p : Plan) (s : Supervisor Plan) : Supervisor Plan :=
  { s with plan := some p, stopping := false }

/-- `Apply` no longer refers to the process that it replaces. -/
def cleared (s : Supervisor Plan) : Supervisor Plan := { s with proc := none }

def reloaded (i : Nat) (p : Plan) (s : Supervisor Plan) : Supervisor Plan :=
  { s with processes := s.processes.modify i fun q => { q with loaded := p } }

/-- Everything an `Apply` can do. -/
inductive Applied (d : Driver Plan) (o : Outcomes) (s : Supervisor Plan) (p : Plan) :
    List Stage × Supervisor Plan → Prop
  | refused {e : Stage} (why : o.fails .admission = true ∨ o.fails .prepareTun = true) :
      Applied d o s p ([e], s)
  | fresh (idle : ∀ i, s.proc = some i → s.alive i = false) :
      Applied d o s p (announce ((s.stored p).start d o p))
  | unloaded {e : Stage} {i : Nat} {pub : List Published} (proc : s.proc = some i)
      (live : s.alive i = true)
      (why : o.fails .renderReload = true ∨ o.unsupported = false ∧ o.fails .reload = true) :
      Applied d o s p ([e], (s.stored p).told .running pub)
  | loaded {i : Nat} {pub : List Published} (proc : s.proc = some i) (live : s.alive i = true) :
      Applied d o s p ([], ((s.stored p).reloaded i p).told .running pub)
  | unstopped {e : Stage} {i : Nat} {pub : List Published} (proc : s.proc = some i)
      (live : s.alive i = true) (supported : o.unsupported = true) (fails : o.fails .stop = true)
      (stays : o.exited = false) : Applied d o s p ([e], (s.stored p).cleared.told .running pub)
  | stopped {e : Stage} {i : Nat} {pub : List Published} (proc : s.proc = some i)
      (live : s.alive i = true) :
      Applied d o s p ([e], ((s.stored p).cleared.exit i).told .running pub)
  | replaced {i : Nat} {pub : List Published} (proc : s.proc = some i) (live : s.alive i = true) :
      Applied d o s p (announce ((((s.stored p).cleared.exit i).told .running pub).start d o p))

theorem reload_cases (o : Outcomes) (s : Supervisor Plan) (i : Nat) (p : Plan) :
    (∃ e pub, s.reload o i p = ([e], s.told .running pub, false) ∧
      (o.fails .renderReload = true ∨ o.unsupported = false ∧ o.fails .reload = true)) ∨
      (∃ e pub, s.reload o i p = ([e], s.told .running pub, true) ∧ o.unsupported = true) ∨
      (∃ pub, s.reload o i p = ([], (s.reloaded i p).told .running pub, false)) := by
  rw [reload]
  split
  · rename_i renders
    exact .inl ⟨_, _, rfl, .inl renders⟩
  · split
    · rename_i supported
      exact .inr (.inl ⟨_, _, rfl, supported⟩)
    · rename_i supported
      split
      · rename_i fails
        exact .inl ⟨_, _, rfl, .inr ⟨by simpa using supported, fails⟩⟩
      · exact .inr (.inr ⟨_, rfl⟩)

theorem applied (d : Driver Plan) (o : Outcomes) (s : Supervisor Plan) (p : Plan) :
    Applied d o s p (s.apply d o p) := by
  rw [apply]
  cases first : o.first [.admission, .prepareTun] with
  | some e =>
    obtain ⟨stage, fails⟩ := Outcomes.first_some first
    refine .refused ?_
    rcases mem_cons.mp stage with rfl | stage
    · exact .inl fails
    · rw [mem_singleton.mp stage] at fails
      exact .inr fails
  | none =>
    change Applied d o s p (match s.proc.filter s.alive with
      | none => announce ((s.stored p).start d o p)
      | some i =>
        let (err, s, unsupported) := (s.stored p).reload o i p
        if unsupported then
          let (stopErr, s) := s.cleared.stopProcess o i .stop
          if stopErr ≠ [] then (stopErr, s) else announce (s.start d o p)
        else (err, s))
    cases found : s.proc.filter s.alive with
    | none =>
      refine .fresh fun i proc => ?_
      rw [Option.filter_eq_none_iff] at found
      simpa using found i proc
    | some i =>
      obtain ⟨proc, live⟩ := Option.filter_eq_some_iff.mp found
      rcases reload_cases o (s.stored p) i p with ⟨e, pub, done, why⟩ | ⟨e, pub, done, why⟩ | ⟨pub, done⟩
      · simp only [done]
        exact .unloaded proc live why
      · simp only [done]
        have still : ((s.stored p).told .running pub).cleared.alive i = true := live
        rcases stopProcess_cases o ((s.stored p).told .running pub).cleared i .stop with
          ⟨-, gone⟩ | done | done | ⟨done, -, fails, stays⟩
        · rw [still] at gone
          cases gone
        · simp only [done]
          exact .replaced proc live
        · simp only [done]
          exact .stopped proc live
        · simp only [done]
          exact .unstopped proc live why fails stays
      · simp only [done]
        exact .loaded proc live

theorem apply_refused (why : o.fails .admission = true ∨ o.fails .prepareTun = true) :
    ∃ e, s.apply d o p = ([e], s) := by
  rw [apply]
  cases first : o.first [.admission, .prepareTun] with
  | some e => exact ⟨e, rfl⟩
  | none =>
    rw [Outcomes.first_none] at first
    rcases why with fails | fails
    · rw [first .admission (by simp)] at fails
      cases fails
    · rw [first .prepareTun (by simp)] at fails
      cases fails

theorem start_ok (up : Outcomes.startsUp o d p) : (s.start d o p).1 = [] := by
  rcases start_cases d o s p with ⟨e, st, pub, -, down⟩ | ⟨err, q, r, i, f, st, pub, -, -, down, -⟩ |
    ⟨r, i, f, pub, done, -⟩
  · exact absurd up down
  · exact absurd up down
  · rw [done]

/-- A start that fails leaves the plan and the goroutines as they are. -/
theorem start_frame (err : (s.start d o p).1 ≠ []) :
    (s.start d o p).2.plan = s.plan ∧ (s.start d o p).2.stopping = s.stopping ∧
      (s.start d o p).2.cancelled = s.cancelled ∧ (s.start d o p).2.watchers = s.watchers := by
  rcases start_cases d o s p with ⟨e, st, pub, done, -⟩ | ⟨err, q, r, i, f, st, pub, done, -⟩ |
    ⟨r, i, f, pub, done, -⟩
  · rw [done]
    exact ⟨rfl, rfl, rfl, rfl⟩
  · rw [done]
    exact ⟨rfl, rfl, rfl, rfl⟩
  · rw [done] at err
    exact absurd rfl err

theorem start_accepted : (s.start d o p).2.accepted = s.accepted := by
  rcases start_cases d o s p with ⟨e, st, pub, done, -⟩ | ⟨err, q, r, i, f, st, pub, done, -⟩ |
    ⟨r, i, f, pub, done, -⟩
  all_goals
    rw [done]
    rfl

theorem start_processes {q : Process Plan}
    (new : q ∈ (s.start d o p).2.processes.drop s.processes.length) : q.loaded = p := by
  rcases start_cases d o s p with ⟨e, st, pub, done, -⟩ | ⟨err, q, r, i, f, st, pub, done, -⟩ |
    ⟨r, i, f, pub, done, -⟩
  · rw [done] at new
    simp [told] at new
  · rw [done] at new
    simp only [told, setRoutes, attempted, drop_left, mem_singleton] at new
    rw [new]
  · rw [done] at new
    simp only [told, setRoutes, watched, attempted, drop_left, mem_singleton] at new
    rw [new]

/-- What `setState` publishes. -/
def changed (before after : EngineState) : List Published :=
  if before = after then [] else [.state after]

theorem published_setState (st : EngineState) (s : Supervisor Plan) :
    (s.setState st).published = s.published ++ changed s.state st := by
  rw [changed]
  by_cases same : s.state = st <;> simp [setState, same]

theorem announce_failed {r : List Stage × Supervisor Plan} (err : r.1 ≠ []) :
    (announce r).2 =
      r.2.told .failed (r.2.published ++ changed r.2.state .failed ++ [.fatal]) := by
  obtain ⟨list, s⟩ := r
  cases list with
  | nil => exact absurd rfl err
  | cons e rest =>
    rw [← published_setState]
    rfl

theorem published_abandon (child : Nat) (err : List Stage) :
    (s.abandon d o child err).2.published = s.published := by
  rw [abandon_eq]
  obtain ⟨r, i, f, removed⟩ := unroute_eq d o ((s.stopProcess o child .stopNew).2.keepUnstopped child
    (s.stopProcess o child .stopNew).1)
  have kept : ∀ (t : Supervisor Plan) (e : List Stage),
      (t.keepUnstopped child e).published = t.published := by
    intro t e
    rw [keepUnstopped]
    split <;> rfl
  rw [removed]
  refine (kept _ _).trans ?_
  rcases stopProcess_cases o s child .stopNew with ⟨done, -⟩ | done | done | ⟨done, -⟩
  · rw [done]
  · rw [done]
    rfl
  · rw [done]
    rfl
  · rw [done]

theorem published_start (d : Driver Plan) (o : Outcomes) (s : Supervisor Plan) (p : Plan) :
    ((s.start d o p).1 = [] ∧ (s.start d o p).2.published =
        s.published ++ changed s.state .starting ++ [.state .running, .state .running]) ∨
      ((s.start d o p).1 ≠ [] ∧ ((s.start d o p).2.published = s.published ∨
        (s.start d o p).2.published = s.published ++ changed s.state .starting)) := by
  have starting := published_setState .starting s
  have failed : ∀ (t : Supervisor Plan) (child : Nat) (e : Stage), (t.abandon d o child [e]).1 ≠ [] := by
    intro t child e
    rw [abandon_eq]
    simp
  rw [start]
  split
  · exact .inr ⟨by simp, .inl rfl⟩
  · split
    · exact .inr ⟨by simp, .inr starting⟩
    · rw [settle]
      have adopted : ∀ t : Supervisor Plan, t.published = (s.setState .starting).published →
          t.state = .starting → ∀ child, (t.adopt child).published =
            s.published ++ changed s.state .starting ++ [.state .running, .state .running] := by
        intro t same state child
        have up := published_setState .running { t with proc := some child }
        change ({ t with proc := some child }.setState .running).published ++ [.state .running] = _
        rw [up]
        simp [same, starting, state, changed]
      split
      · exact .inr ⟨failed _ _ _, .inr ((published_abandon _ _).trans starting)⟩
      · split
        · split
          · exact .inr ⟨failed _ _ _, .inr ((published_abandon _ _).trans starting)⟩
          · exact .inl ⟨rfl, adopted
              (((s.setState .starting).launch p).setRoutes true true false) rfl rfl
                s.processes.length⟩
        · exact .inl ⟨rfl, adopted ((s.setState .starting).launch p) rfl rfl s.processes.length⟩

/-- Everything the first section of `watch` can do. -/
inductive Noticed (d : Driver Plan) (o : Outcomes) (s : Supervisor Plan) (i : Nat) (canceled : Bool) :
    Watcher Plan × Supervisor Plan → Prop
  | idle (other : s.proc ≠ some i ∨ s.stopping = true) : Noticed d o s i canceled (.ended, s)
  | ended {pub : List Published} (why : canceled = true ∨ s.plan = none)
      (words : pub = s.published ++ changed s.state .stopped ∨
        pub = s.published ++ [.down] ++ changed s.state .stopped) :
      Noticed d o s i canceled (.ended, s.told .stopped pub)
  | delayed {p : Plan} {attempts : List Nat} {pub : List Published} (crashed : canceled = false)
      (proc : s.proc = some i) (running : s.stopping = false) (plan : s.plan = some p)
      (words : pub = s.published ++ [.down] ++ changed s.state .recovering ++ [.restart])
      (room : s.budget.allow s.now (s.now + o.lag) = (true, { s.budget with attempts := attempts })) :
      Noticed d o s i canceled (.delayed i p,
        { s with
          budget := { s.budget with attempts := attempts }
          now := s.now + o.lag
          restarts := s.restarts ++ [s.now + o.lag] }.told .recovering pub)
  | exhausted {attempts : List Nat} {pub : List Published} (crashed : canceled = false)
      (proc : s.proc = some i)
      (words : pub = s.published ++ [.down] ++ changed s.state .failed ++ [.fatal])
      (spent : s.budget.allow s.now (s.now + o.lag) = (false, { s.budget with attempts := attempts })) :
      Noticed d o s i canceled (.ended,
        ({ s with
          budget := { s.budget with attempts := attempts }
          now := s.now + o.lag }.unroute d o).2.told .failed pub)

theorem RestartBudget.allow_eq (now later : Nat) (b : RestartBudget) :
    ∃ attempts, (b.allow now later).2 = { b with attempts := attempts } := by
  rw [RestartBudget.allow]
  split
  · exact ⟨_, rfl⟩
  · simp only
    split <;> exact ⟨_, rfl⟩

theorem noticed (d : Driver Plan) (o : Outcomes) (s : Supervisor Plan) (i : Nat) (canceled : Bool) :
    Noticed d o s i canceled (s.watchExit d o i canceled) := by
  rw [watchExit]
  split
  · rename_i other
    exact .idle other
  · rename_i current
    obtain ⟨proc, running⟩ := not_or.mp current
    simp only [not_not, Bool.not_eq_true] at proc running
    split
    · rename_i canceled
      exact .ended (.inl canceled) (.inl (published_setState .stopped s))
    · rename_i crashed
      have crashed : canceled = false := by simpa using crashed
      have said : ∀ (st : EngineState) (ev : Published),
          (if s.state = st then s.published ++ [.down] else s.published ++ [.down] ++ [.state st]) ++
            [ev] = s.published ++ [.down] ++ changed s.state st ++ [ev] := by
        intro st ev
        rw [changed]
        by_cases same : s.state = st <;> simp [same]
      simp only
      split
      · rename_i absent
        exact .ended (.inr absent) (.inr (published_setState .stopped (s.publish .down)))
      · rename_i p plan
        obtain ⟨attempts, after⟩ := RestartBudget.allow_eq s.now (s.now + o.lag) s.budget
        generalize allowed : (s.budget.allow s.now (s.now + o.lag)).1 = answer
        have pair : s.budget.allow s.now (s.now + o.lag) =
            (answer, { s.budget with attempts := attempts }) := Prod.ext allowed after
        have same : (s.publish .down).budget.allow (s.publish .down).now
            ((s.publish .down).now + o.lag) = (answer, { s.budget with attempts := attempts }) := pair
        simp only [same]
        cases answer with
        | true => exact .delayed crashed proc running plan (said .recovering .restart) pair
        | false =>
          have removal := unroute_told d o { s with
            budget := { s.budget with attempts := attempts }
            now := s.now + o.lag } s.state (s.publish .down).published
          have removed := congrArg Prod.snd removal
          change Noticed d o s i canceled (.ended, ((({ s with
            budget := { s.budget with attempts := attempts }
            now := s.now + o.lag }.told s.state (s.publish .down).published).unroute d o).2.setState
              .failed).publish .fatal)
          rw [removed]
          exact .exhausted crashed proc (said .failed .fatal) pair

/-- `Stop` has forgotten the process and the plan. -/
def halted (s : Supervisor Plan) : Supervisor Plan :=
  { s with stopping := true, proc := none, plan := none }

/-- Everything a `Stop` can do before it removes the routes. -/
inductive Stopped (d : Driver Plan) (o : Outcomes) (s : Supervisor Plan) :
    List Stage × Supervisor Plan → Prop
  | idle {st : EngineState} {pub : List Published}
      (gone : ∀ i, s.proc = some i → s.alive i = false) :
      Stopped d o s ((s.halted.unroute d o).1, (s.halted.unroute d o).2.told st pub)
  | exits {i : Nat} {err : List Stage} {st : EngineState} {pub : List Published}
      (proc : s.proc = some i) :
      Stopped d o s (err ++ ((s.halted.exit i).unroute d o).1,
        ((s.halted.exit i).unroute d o).2.told st pub)
  | stays {i : Nat} {e : Stage} {st : EngineState} {pub : List Published} (proc : s.proc = some i)
      (live : s.alive i = true) (fails : o.fails .stop = true) (still : o.exited = false) :
      Stopped d o s ([e] ++ ({ s.halted with proc := some i }.unroute d o).1,
        ({ s.halted with proc := some i }.unroute d o).2.told st pub)

theorem stopped (d : Driver Plan) (o : Outcomes) (s : Supervisor Plan) :
    Stopped d o s (s.stop d o) := by
  rw [stop]
  cases proc : s.proc with
  | none => exact .idle fun i some => nomatch proc.symm.trans some
  | some i =>
    have alike : ∀ t : Supervisor Plan, { t with stopping := true, proc := none, plan := none } =
      t.halted := fun _ => rfl
    simp only [alike]
    rcases stopProcess_cases o s.halted i .stop with ⟨done, gone⟩ | done | done |
      ⟨done, live, fails, still⟩
    · simp only [done]
      refine .idle fun j some => ?_
      cases proc.symm.trans some
      exact gone
    · simp only [done]
      exact .exits proc
    · have dead : ¬([Stage.stop] ≠ [] ∧ (s.halted.exit i).alive i = true) :=
        fun both => (alive_exit.mp both.2).1 rfl
      simp only [done, keepUnstopped, if_neg dead]
      exact .exits proc
    · have kept : [Stage.stop] ≠ [] ∧ s.halted.alive i = true := ⟨by simp, live⟩
      simp only [done, keepUnstopped, if_pos kept]
      exact .stays proc live fails still

theorem stop_stopping : (s.stop d o).2.stopping = true := by
  have unrouted : ∀ t : Supervisor Plan, t.stopping = true → ∀ st pub,
      ((t.unroute d o).2.told st pub).stopping = true := by
    intro t stopping st pub
    obtain ⟨r, i, f, removed⟩ := unroute_eq d o t
    rw [removed]
    exact stopping
  have done := stopped d o s
  generalize s.stop d o = r at done
  cases done with
  | idle gone => exact unrouted s.halted rfl _ _
  | @exits i err st pub proc => exact unrouted (s.halted.exit i) rfl _ _
  | @stays i e st pub proc live fails still =>
    exact unrouted { s.halted with proc := some i } rfl _ _

theorem alive_attempted :
    (s.attempted p q).alive i = true ↔ s.alive i = true ∨ i = s.processes.length ∧ q = true := by
  rw [attempted, alive, alive]
  simp only [getElem?_append]
  rcases Nat.lt_trichotomy i s.processes.length with before | rfl | after
  · have other : i ≠ s.processes.length := by omega
    simp [before, other]
  · simp
  · have beyond : ¬i < s.processes.length := by omega
    have other : i ≠ s.processes.length := by omega
    have gone : [({ loaded := p, alive := q } : Process Plan)][i - s.processes.length]? = none :=
      getElem?_eq_none (by simp; omega)
    simp [beyond, other, gone]

theorem loaded_attempted (old : i < s.processes.length) :
    (s.attempted p q).loaded i = s.loaded i := by
  rw [attempted, loaded, loaded, getElem?_append_left old]

theorem loaded_attempted_last : (s.attempted p q).loaded s.processes.length = some p := by
  simp [attempted, loaded]

theorem alive_reloaded : (s.reloaded i p).alive j = s.alive j := by
  rw [reloaded, alive, alive]
  simp only [getElem?_modify]
  cases s.processes[j]? with
  | none => rfl
  | some q =>
    split <;> rfl

theorem loaded_reloaded (there : i < s.processes.length) : (s.reloaded i p).loaded i = some p := by
  simp [reloaded, loaded, there]

theorem loaded_reloaded_other (other : i ≠ j) : (s.reloaded i p).loaded j = s.loaded j := by
  simp [reloaded, loaded, other]

/-- Everything a step can do. -/
inductive Stepped (d : Driver Plan) (s : Supervisor Plan) : Action Plan → Supervisor Plan → Prop
  | failed {p : Plan} {o : Outcomes} (err : (s.apply d o p).1 ≠ []) :
      Stepped d s (.apply p o) (s.apply d o p).2
  | accepted {p : Plan} {o : Outcomes} (ok : (s.apply d o p).1 = []) :
      Stepped d s (.apply p o) { (s.apply d o p).2 with accepted := some p }
  | stop {o : Outcomes} : Stepped d s (.stop o) (s.stop d o).2
  | close {o : Outcomes} : Stepped d s (.close o) { (s.stop d o).2 with closing := true }
  | cancel : Stepped d s .cancel { s with cancelled := true }
  | exit {i : Nat} (live : s.alive i = true) : Stepped d s (.exit i) (s.exit i)
  | notice {n i : Nat} {canceled : Bool} {o : Outcomes} {r : Watcher Plan × Supervisor Plan}
      (waiting : s.watchers[n]? = some (.waiting i)) (gone : canceled = false → s.alive i = false)
      (done : Noticed d o s i canceled r) :
      Stepped d s (.notice n canceled o) { r.2 with watchers := r.2.watchers.set n r.1 }
  | late {n i : Nat} {o : Outcomes} {plan : Plan}
      (delayed : s.watchers[n]? = some (.delayed i plan))
      (other : s.proc ≠ some i ∨ s.stopping = true ∨ s.cancelled = true) :
      Stepped d s (.wake n o) { s with watchers := s.watchers.set n .ended }
  | restart {n i : Nat} {o : Outcomes} {plan : Plan}
      (delayed : s.watchers[n]? = some (.delayed i plan)) (proc : s.proc = some i)
      (running : s.stopping = false) :
      Stepped d s (.wake n o)
        (announce ({ s with watchers := s.watchers.set n .ended }.start d o plan)).2
  | quit {n i : Nat} {plan : Plan} (delayed : s.watchers[n]? = some (.delayed i plan)) :
      Stepped d s (.quit n) { s with watchers := s.watchers.set n .ended }
  | wait {t : Nat} : Stepped d s (.wait t) { s with now := s.now + t }

theorem stepped {a : Action Plan} {s' : Supervisor Plan} (taken : step d a s = some s') :
    Stepped d s a s' := by
  cases a with
  | apply p o =>
    change some (if (s.apply d o p).1 = [] then { (s.apply d o p).2 with accepted := some p }
      else (s.apply d o p).2) = some s' at taken
    split at taken
    · rename_i ok
      cases taken
      exact .accepted ok
    · rename_i err
      cases taken
      exact .failed err
  | stop o =>
    cases taken
    exact .stop
  | close o =>
    cases taken
    exact .close
  | cancel =>
    rw [step] at taken
    split at taken
    · cases taken
      exact .cancel
    · cases taken
  | exit i =>
    rw [step] at taken
    split at taken
    · rename_i live
      cases taken
      exact .exit live
    · cases taken
  | notice n canceled o =>
    rw [step] at taken
    cases entry : s.watchers[n]? with
    | none => rw [entry] at taken; cases taken
    | some w =>
      rw [entry] at taken
      cases w with
      | waiting i =>
        change (if (if canceled then s.cancelled = true else s.alive i = false) then
          some { (s.watchExit d o i canceled).2 with
            watchers := (s.watchExit d o i canceled).2.watchers.set n
              (s.watchExit d o i canceled).1 } else none) = some s' at taken
        by_cases enabled : if canceled then s.cancelled = true else s.alive i = false
        · rw [if_pos enabled] at taken
          cases taken
          refine .notice entry (fun crashed => ?_) (noticed d o s i canceled)
          subst crashed
          exact enabled
        · rw [if_neg enabled] at taken
          cases taken
      | delayed i plan | ended => cases taken
  | wake n o =>
    rw [step] at taken
    split at taken
    · rename_i i plan delayed
      cases taken
      rw [watchRestart]
      split
      · rename_i other
        exact .late delayed other
      · rename_i current
        obtain ⟨proc, running⟩ := not_or.mp current
        obtain ⟨running, -⟩ := not_or.mp running
        exact .restart delayed (not_not.mp proc) (by simpa using running)
    · cases taken
  | quit n =>
    rw [step] at taken
    split at taken
    · rename_i i plan delayed
      split at taken
      · cases taken
        exact .quit delayed
      · cases taken
    · cases taken
  | wait t =>
    cases taken
    exact .wait

end Supervisor

end

end Sora.Supervise
