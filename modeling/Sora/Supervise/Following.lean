import Sora.Supervise.Ownership

/-!
# A session that follows its engine

`Session.Start` applies the plan, checks the adapter, announces the session as connected and only then
subscribes to the events of the engine; the loop `supervise` follows the events from its queue.  The
sections of the supervisor hand their events to the bus one by one (`outbox`), and every step of the
session may come between two of them.  The bus loses an event that nobody has subscribed to, and one
for which the queue has no room.
-/

namespace Sora.Supervise

open Sora.Lib Sora.Session List Supervisor
open Supervisor (plainDriver)

variable {Plan : Type} {w : Watcher Plan} {n : Nat} {p plan : Plan} {o : Outcomes} {a : Action Plan}
    {s' : Supervisor Plan} {st : State} {checks : Bool}

/-- The queue of a subscriber, as `supervise.New` asks for. -/
def queueLength : Nat := 128

/-- How far the session is. -/
inductive Progress where
  | starting
  | applied
  | checked
  | announced
  | following
  | ended
  deriving DecidableEq

/-- A session and its supervisor. -/
structure Service (Plan : Type) where
  engine : Supervisor Plan
  /-- Events of the current section that are still to be published. -/
  outbox : List Published := []
  progress : Progress := .starting
  session : State := .connecting
  /-- The events in the queue of the session. -/
  queue : List Published := []
  /-- How many processes had been started when `TunUp` succeeded last; no function reads it. -/
  tunSeen : Option Nat := none

inductive Event (Plan : Type) where
  /-- `Apply` of the session's plan, and what the environment answers. -/
  | apply (o : Outcomes)
  /-- The answer of `TunUp`, and of the `Stop` after a failure. -/
  | tunUp (ok : Bool) (o : Outcomes)
  | announce
  | subscribe
  /-- The bus gets the next event. -/
  | publish
  /-- The loop of the session takes the next event. -/
  | consume
  /-- A step of the environment or of a goroutine of the supervisor. -/
  | engine (a : Action Plan)

variable {e : Event Plan}

namespace Service

/-- `setState`: an illegal move is discarded. -/
def move (target source : State) : State := if canTransition source target then target else source

/-- What an event means to the session. -/
def react (st : State) : Published → State
  | .down => move .reconnecting st
  | .state .running => if st = .reconnecting then move .connected st else st
  | .fatal => move .failed st
  | _ => st

/-- The supervisor has taken a step and publishes its events. -/
def emit (engine : Supervisor Plan) (s : Service Plan) : Service Plan :=
  { s with engine := engine, outbox := engine.published.drop s.engine.published.length }

/-- The steps of a supervised engine that nobody calls. -/
def alone : Action Plan → Bool
  | .exit _ | .notice _ false _ | .wake _ _ | .wait _ => true
  | _ => false

/-- One step, for a plan whose adapter has to be checked or not.  A section of the supervisor starts
when the one before it has published its events. -/
def step (d : Driver Plan) (plan : Plan) (checks : Bool) : Event Plan → Service Plan →
    Option (Service Plan)
  | .apply o, s =>
    -- nobody hears the events of the first `Apply`
    if s.progress = .starting then
      let (err, engine) := s.engine.apply d o plan
      if err = [] then some { s with engine := engine, progress := .applied }
      else some { s with engine := engine, progress := .ended, session := move .failed s.session }
    else none
  | .tunUp ok o, s =>
    if s.progress = .applied then
      if checks = false then some { s with progress := .checked }
      else if ok then
        some { s with progress := .checked, tunSeen := some s.engine.processes.length }
      else if s.outbox = [] then
        some { s.emit (s.engine.stop d o).2 with
          progress := .ended
          session := move .failed s.session }
      else none
    else none
  | .announce, s =>
    if s.progress = .checked then
      some { s with progress := .announced, session := move .connected s.session }
    else none
  | .subscribe, s => if s.progress = .announced then some { s with progress := .following } else none
  | .publish, s =>
    match s.outbox with
    | [] => none
    | ev :: rest =>
      if s.progress = .following ∧ s.queue.length < queueLength then
        some { s with outbox := rest, queue := s.queue ++ [ev] }
      else some { s with outbox := rest }
  | .consume, s =>
    match s.queue with
    | [] => none
    | ev :: rest =>
      if s.progress = .following then
        some { s with
          queue := rest
          session := react s.session ev
          progress := if ev = .fatal then .ended else .following }
      else none
  | .engine a, s =>
    if alone a ∧ s.outbox = [] then (Supervise.step d a s.engine).map fun engine => s.emit engine
    else none

/-- Before the session is started. -/
def new (limit window : Nat) : Service Plan where
  engine := Supervise.new limit window

/-! ## What the events tell -/

/-- The state of a session that has heard everything. -/
def target : EngineState → State
  | .running => .connected
  | .recovering => .reconnecting
  | _ => .failed

theorem foldl_changed {after : EngineState} (other : after ≠ .running) (before : EngineState)
    (st : State) : (changed before after).foldl react st = st := by
  rw [changed]
  split
  · rfl
  · cases after with
    | running => exact absurd rfl other
    | _ => rfl

/-! ## The engine after a successful start -/

/-- The goroutine that looks after the engine fits the state: all others have ended. -/
inductive Minded (s : Supervisor Plan) : Prop
  | running (k i : Nat) (state : s.state = .running)
      (watchers : s.watchers = List.replicate k .ended ++ [.waiting i]) (proc : s.proc = some i)
  | recovering (k i : Nat) (p : Plan) (state : s.state = .recovering)
      (watchers : s.watchers = List.replicate k .ended ++ [.delayed i p]) (proc : s.proc = some i)
      (gone : s.alive i = false)
  | failed (k : Nat) (state : s.state = .failed) (watchers : s.watchers = List.replicate k .ended)

/-- The engine has a plan, nobody has stopped it, and it is minded. -/
structure Kept (s : Supervisor Plan) : Prop where
  plan : s.plan ≠ none
  stopping : s.stopping = false
  cancelled : s.cancelled = false
  minded : Minded s

variable {s : Supervisor Plan} {d : Driver Plan}

theorem last_of_replicate {k : Nat} {v : Watcher Plan}
    (entry : (replicate k .ended ++ [w])[n]? = some v) (active : v ≠ .ended) :
    n = k ∧ v = w := by
  rw [getElem?_append] at entry
  split at entry
  · rename_i before
    simp only [length_replicate] at before
    simp [before] at entry
    exact absurd entry.symm active
  · rename_i after
    simp only [length_replicate] at after entry
    rw [getElem?_singleton] at entry
    split at entry
    · exact ⟨by omega, (Option.some.inj entry).symm⟩
    · cases entry

theorem set_replicate (k : Nat) (v w : Watcher Plan) :
    (replicate k (.ended : Watcher Plan) ++ [w]).set k v = replicate k .ended ++ [v] := by
  simp

theorem replicate_snoc (k : Nat) :
    replicate k (.ended : Watcher Plan) ++ [.ended] = replicate (k + 1) .ended :=
  replicate_succ'.symm

/-- The entry of a goroutine that can go on. -/
theorem Minded.active (ok : Minded s) (entry : s.watchers[n]? = some w) (active : w ≠ .ended) :
    (∃ i, w = .waiting i ∧ s.state = .running ∧ s.watchers = replicate n .ended ++ [w] ∧
        s.proc = some i) ∨
      (∃ i p, w = .delayed i p ∧ s.state = .recovering ∧
        s.watchers = replicate n .ended ++ [w] ∧ s.proc = some i) := by
  cases ok with
  | running k i state watchers proc =>
    rw [watchers] at entry
    obtain ⟨rfl, rfl⟩ := last_of_replicate entry active
    exact .inl ⟨i, rfl, state, watchers, proc⟩
  | recovering k i p state watchers proc gone =>
    rw [watchers] at entry
    obtain ⟨rfl, rfl⟩ := last_of_replicate entry active
    exact .inr ⟨i, p, rfl, state, watchers, proc⟩
  | failed k state watchers =>
    rw [watchers, getElem?_replicate] at entry
    split at entry
    · exact absurd (Option.some.inj entry).symm active
    · cases entry

/-- A restart tells the session that the engine runs, or that it has failed. -/
theorem Kept.restarted (ok : Kept s)
    (ended : s.watchers.set n .ended = replicate (n + 1) .ended)
    (state : s.state = .recovering) :
    Kept (announce ({ s with watchers := s.watchers.set n .ended }.start d o p)).2 ∧
      ∃ evs, (announce ({ s with
          watchers := s.watchers.set n .ended }.start d o p)).2.published = s.published ++ evs ∧
        evs.foldl react (target s.state) = target (announce ({ s with
          watchers := s.watchers.set n .ended }.start d o p)).2.state := by
  rcases published_start d o { s with watchers := s.watchers.set n .ended } p with
    ⟨fine, words⟩ | ⟨err, words⟩
  · rcases start_cases d o { s with watchers := s.watchers.set n .ended } p with
      ⟨e, st, pub, done, -⟩ | ⟨err, q, r, i, f, st, pub, done, failed, -⟩ | ⟨r, i, f, pub, done, -⟩
    · rw [done] at fine
      cases fine
    · rw [done] at fine
      exact absurd fine failed
    · rw [done] at words ⊢
      refine ⟨⟨ok.plan, ok.stopping, ok.cancelled, ?_⟩, ?_⟩
      · refine .running (n + 1) s.processes.length rfl ?_ rfl
        change s.watchers.set n _ ++ [_] = _
        rw [ended]
      · refine ⟨_, words.trans (append_assoc ..), ?_⟩
        rw [state]
        rfl
  · obtain ⟨plan, stopping, cancelled, watchers⟩ := start_frame err
    rw [announce_failed err]
    refine ⟨⟨?_, stopping.trans ok.stopping, cancelled.trans ok.cancelled,
      .failed (n + 1) rfl (watchers.trans ended)⟩, ?_⟩
    · exact fun absent => ok.plan (plan.symm.trans absent)
    · generalize { s with watchers := s.watchers.set n .ended }.start d o p = r at words
      have told : ∀ evs : List Published, r.2.published = s.published ++ evs →
          (∀ st, evs.foldl react st = st) → ∃ evs, r.2.published ++
            changed r.2.state .failed ++ [.fatal] = s.published ++ evs ∧
            evs.foldl react (target s.state) = .failed := by
        intro evs published quiet
        refine ⟨evs ++ changed r.2.state .failed ++ [.fatal], ?_, ?_⟩
        · rw [published]
          simp only [append_assoc]
        · rw [foldl_append, foldl_append, quiet, foldl_changed (by simp), state]
          rfl
      rcases words with words | words
      · exact told [] (words.trans (append_nil _).symm) fun st => rfl
      · exact told _ words fun st => foldl_changed (by simp) _ st

/-- A step that the supervisor takes by itself keeps it minded, and its events tell the session the
new state. -/
theorem Kept.step (ok : Kept s) (own : alone a = true) (taken : Supervise.step d a s = some s') :
    Kept s' ∧ ∃ evs, s'.published = s.published ++ evs ∧
      evs.foldl react (target s.state) = target s'.state := by
  have silent : ∀ t : Supervisor Plan, t.published = s.published → t.state = s.state →
      ∃ evs, t.published = s.published ++ evs ∧ evs.foldl react (target s.state) = target t.state :=
    fun t published state => ⟨[], by rw [published, append_nil], by rw [state]; rfl⟩
  cases stepped taken with
  | failed err | accepted fine | stop | close | cancel | quit delayed => cases own
  | wait =>
    refine ⟨⟨ok.plan, ok.stopping, ok.cancelled, ?_⟩, silent _ rfl rfl⟩
    cases ok.minded with
    | running k i state watchers proc => exact .running k i state watchers proc
    | recovering k i p state watchers proc gone => exact .recovering k i p state watchers proc gone
    | failed k state watchers => exact .failed k state watchers
  | @exit j live =>
    refine ⟨⟨ok.plan, ok.stopping, ok.cancelled, ?_⟩, silent _ rfl rfl⟩
    cases ok.minded with
    | running k i state watchers proc => exact .running k i state watchers proc
    | recovering k i p state watchers proc gone =>
      refine .recovering k i p state watchers proc ?_
      rw [← Bool.not_eq_true]
      intro alive
      rw [(alive_exit.mp alive).2] at gone
      cases gone
    | failed k state watchers => exact .failed k state watchers
  | @notice n i canceled o r waiting gone done =>
    have noticed : canceled = false := by
      cases canceled with
      | true => cases own
      | false => rfl
    obtain ⟨i', same, state, watchers, proc⟩ | ⟨i', p, same, -⟩ :=
      ok.minded.active waiting (by simp)
    · cases same
      cases done with
      | idle other =>
        rcases other with other | stopping
        · exact absurd proc other
        · rw [ok.stopping] at stopping
          cases stopping
      | ended why words =>
        rcases why with canceled | absent
        · rw [noticed] at canceled
          cases canceled
        · exact absurd absent ok.plan
      | @delayed p attempts pub crashed proc running plan words room =>
        refine ⟨⟨ok.plan, ok.stopping, ok.cancelled, ?_⟩, ?_⟩
        · refine .recovering n i p rfl ?_ proc (gone crashed)
          change s.watchers.set n _ = _
          rw [watchers, set_replicate]
        · refine ⟨[.down] ++ changed s.state .recovering ++ [.restart], ?_, ?_⟩
          · simp only [← append_assoc]
            exact words
          · rw [state]
            rfl
      | @exhausted attempts pub crashed proc words spent =>
        obtain ⟨routed, installed, failed, removed⟩ := unroute_eq d o { s with
          budget := { s.budget with attempts := attempts }
          now := s.now + o.lag }
        rw [removed]
        refine ⟨⟨ok.plan, ok.stopping, ok.cancelled, ?_⟩, ?_⟩
        · refine .failed (n + 1) rfl ?_
          change s.watchers.set n _ = _
          rw [watchers, set_replicate, replicate_snoc]
        · refine ⟨[.down] ++ changed s.state .failed ++ [.fatal], ?_, ?_⟩
          · simp only [← append_assoc]
            exact words
          · rw [state]
            rfl
    · cases same
  | @late n i o p delayed other =>
    obtain ⟨i', same, -⟩ | ⟨i', q, same, state, watchers, proc⟩ := ok.minded.active delayed (by simp)
    · cases same
    · cases same
      rcases other with other | stopping | cancelled
      · exact absurd proc other
      · rw [ok.stopping] at stopping
        cases stopping
      · rw [ok.cancelled] at cancelled
        cases cancelled
  | @restart n i o p delayed proc running =>
    obtain ⟨i', same, -⟩ | ⟨i', q, same, state, watchers, -⟩ := ok.minded.active delayed (by simp)
    · cases same
    · have ended : s.watchers.set n .ended = replicate (n + 1) .ended := by
        rw [watchers, set_replicate, replicate_snoc]
      exact ok.restarted ended state

/-! ## The session and the engine -/

/-- The events that the session still has to hear lead it to the state of the engine. -/
inductive Heeds (s : Service Plan) : Prop
  | starting (progress : s.progress = .starting) (watchers : s.engine.watchers = [])
      (processes : s.engine.processes = []) (proc : s.engine.proc = none)
      (cancelled : s.engine.cancelled = false) (outbox : s.outbox = []) (queue : s.queue = [])
      (session : s.session = .connecting)
  | coming (progress : s.progress = .applied ∨ s.progress = .checked) (kept : Kept s.engine)
      (queue : s.queue = []) (session : s.session = .connecting)
      (fits : s.outbox.foldl react .connected = target s.engine.state)
  | here (progress : s.progress = .announced ∨ s.progress = .following) (kept : Kept s.engine)
      (session : s.session ∈ [State.connected, .reconnecting, .failed])
      (fits : (s.queue ++ s.outbox).foldl react s.session = target s.engine.state)
  | finished (progress : s.progress = .ended) (session : s.session = .failed)
      (still : s.engine.stopping = true ∨ ∀ w ∈ s.engine.watchers, w = .ended)

/-- No event is published before the session has subscribed, or while its queue is full. -/
def Heard : Event Plan → Service Plan → Prop
  | .publish, s => s.progress = .ended ∨ s.progress = .following ∧ s.queue.length < queueLength
  | _, _ => True

theorem react_known (known : st ∈ [State.connected, .reconnecting, .failed]) (ev : Published) :
    react st ev ∈ [State.connected, .reconnecting, .failed] := by
  have all : ∀ st ∈ [State.connected, .reconnecting, .failed],
      move .reconnecting st ∈ [State.connected, .reconnecting, .failed] ∧
        move .failed st ∈ [State.connected, .reconnecting, .failed] ∧
        (if st = .reconnecting then move .connected st else st) ∈
          [State.connected, .reconnecting, .failed] := by decide
  obtain ⟨down, fatal, running⟩ := all st known
  cases ev with
  | down => exact down
  | restart => exact known
  | fatal => exact fatal
  | state e =>
    cases e with
    | running => exact running
    | _ => exact known

theorem foldl_failed (evs : List Published) : evs.foldl react .failed = .failed := by
  induction evs with
  | nil => rfl
  | cons ev rest ih =>
    have stays : react .failed ev = .failed := by
      cases ev with
      | state e => cases e <;> rfl
      | _ => rfl
    rw [foldl_cons, stays, ih]

/-- The events of a step are what it has added to the published ones. -/
theorem outbox_emit {s : Service Plan} {engine : Supervisor Plan} {evs : List Published}
    (words : engine.published = s.engine.published ++ evs) : (s.emit engine).outbox = evs := by
  rw [emit, words]
  exact drop_left

/-- The first `Apply`: the engine runs and is minded, or no goroutine has been started. -/
theorem first_apply (watchers : s.watchers = []) (proc : s.proc = none)
    (cancelled : s.cancelled = false) :
    ((s.apply d o p).1 = [] → Kept (s.apply d o p).2 ∧ (s.apply d o p).2.state = .running) ∧
      ((s.apply d o p).1 ≠ [] → (s.apply d o p).2.watchers = []) := by
  have done := applied d o s p
  generalize s.apply d o p = r at done
  cases done with
  | refused why => exact ⟨fun fine => (by cases fine), fun _ => watchers⟩
  | fresh idle =>
    refine ⟨fun fine => ?_, fun err => ?_⟩
    · rcases start_cases d o (s.stored p) p with ⟨e, st, pub, done, -⟩ |
        ⟨err, q, r, i, f, st, pub, done, failed, -⟩ | ⟨r, i, f, pub, done, -⟩
      · rw [done] at fine
        cases fine
      · obtain ⟨pub, same⟩ := announce_eq ((s.stored p).start d o p)
        rw [same, done] at fine
        exact absurd fine failed
      · rw [done]
        refine ⟨⟨fun absent => (by cases absent), rfl, cancelled, ?_⟩, rfl⟩
        refine .running 0 s.processes.length rfl ?_ rfl
        change s.watchers ++ [_] = _
        rw [watchers]
        rfl
    · obtain ⟨pub, same⟩ := announce_eq ((s.stored p).start d o p)
      rw [same] at err ⊢
      obtain ⟨-, -, -, kept⟩ := start_frame err
      simp only [if_neg err]
      exact kept.trans watchers
  | unloaded some live why | loaded some live | unstopped some live supported fails stays
  | stopped some live | replaced some live => exact nomatch proc.symm.trans some

/-- An engine that was stopped, or that nobody minds any more, stays so. -/
theorem still_alone (own : alone a = true) (taken : Supervise.step d a s = some s')
    (still : s.stopping = true ∨ ∀ w ∈ s.watchers, w = .ended) :
    s'.stopping = true ∨ ∀ w ∈ s'.watchers, w = .ended := by
  have active : ∀ {n : Nat} {w : Watcher Plan}, s.watchers[n]? = some w → w ≠ .ended →
      s.stopping = true := by
    intro n w entry live
    rcases still with stopping | ended
    · exact stopping
    · exact absurd (ended w (mem_of_getElem? entry)) live
  cases stepped taken with
  | failed err | accepted fine | stop | close | cancel | quit delayed => cases own
  | wait | exit live => exact still
  | notice waiting gone done =>
    have stopping := active waiting (by simp)
    cases done with
    | idle other | ended why words | delayed crashed proc running plan words room =>
      exact .inl stopping
    | exhausted crashed proc words spent =>
      obtain ⟨r, i, f, removed⟩ := unroute_eq d _ _
      rw [removed]
      exact .inl stopping
  | late delayed other => exact .inl (active delayed (by simp))
  | restart delayed proc running =>
    have stopping := active delayed (by simp)
    rw [stopping] at running
    cases running

/-- A step of the supervisor, when its last events have been published. -/
theorem engine_step {s s' : Service Plan} (taken : step d plan checks (.engine a) s = some s') :
    ∃ engine, alone a = true ∧ s.outbox = [] ∧ Supervise.step d a s.engine = some engine ∧
      s' = s.emit engine := by
  rw [Service.step] at taken
  split at taken
  · rename_i own
    obtain ⟨engine, stepped, rfl⟩ := Option.map_eq_some_iff.mp taken
    exact ⟨engine, own.1, own.2, stepped, rfl⟩
  · cases taken

theorem Heeds.step {s s' : Service Plan} (ok : Heeds s) (heard : Heard e s)
    (taken : step d plan checks e s = some s') : Heeds s' := by
  cases ok with
  | starting progress watchers processes proc cancelled outbox queue session =>
    cases e with
    | tunUp | announce | subscribe => simp [Service.step, progress] at taken
    | publish => simp [Service.step, outbox] at taken
    | consume => simp [Service.step, queue] at taken
    | apply o =>
      obtain ⟨fine, bad⟩ := first_apply watchers proc cancelled
      rw [Service.step, if_pos progress] at taken
      simp only at taken fine bad
      split at taken
      · rename_i none
        cases taken
        obtain ⟨kept, running⟩ := fine none
        refine .coming (.inl rfl) kept queue session ?_
        rw [outbox, running]
        rfl
      · rename_i some
        cases taken
        refine .finished rfl ?_ (.inr fun w inside => ?_)
        · rw [session]
          rfl
        · rw [bad some] at inside
          cases inside
    | engine a =>
      obtain ⟨engine, own, -, stepped, rfl⟩ := engine_step taken
      -- there is no process and no goroutine yet
      have nobody : ∀ {n : Nat} {w : Watcher Plan}, s.engine.watchers[n]? ≠ some w := by
        intro n w entry
        rw [watchers] at entry
        cases entry
      cases Supervisor.stepped stepped with
      | failed err | accepted fine | stop | close | cancel | quit delayed => cases own
      | wait =>
        refine .starting progress watchers processes proc cancelled ?_ queue session
        exact outbox_emit (append_nil _).symm
      | exit live =>
        rw [alive, processes] at live
        cases live
      | notice waiting gone done => exact absurd waiting nobody
      | late delayed other | restart delayed proc running => exact absurd delayed nobody
  | coming progress kept queue session fits =>
    cases e with
    | apply | subscribe => rcases progress with progress | progress <;> simp [Service.step, progress] at taken
    | publish => rcases progress with progress | progress <;> simp [Heard, progress] at heard
    | consume => simp [Service.step, queue] at taken
    | tunUp up o =>
      rw [Service.step] at taken
      split at taken
      · split at taken
        · cases taken
          exact .coming (.inr rfl) kept queue session fits
        · split at taken
          · cases taken
            exact .coming (.inr rfl) kept queue session fits
          · split at taken
            · cases taken
              refine .finished rfl ?_ (.inl stop_stopping)
              rw [session]
              rfl
            · cases taken
      · cases taken
    | announce =>
      rw [Service.step] at taken
      split at taken
      · cases taken
        have connected : move .connected s.session = .connected := by
          rw [session]
          rfl
        refine .here (.inl rfl) kept ?_ ?_
        · rw [connected]
          simp
        · rw [connected, queue]
          exact fits
      · cases taken
    | engine a =>
      obtain ⟨engine, own, empty, stepped, rfl⟩ := engine_step taken
      obtain ⟨kept', evs, words, led⟩ := kept.step own stepped
      rw [empty] at fits
      refine .coming progress kept' queue session ?_
      rw [outbox_emit words, show State.connected = target s.engine.state from fits]
      exact led
  | here progress kept session fits =>
    cases e with
    | apply | tunUp | announce =>
      rcases progress with progress | progress <;> simp [Service.step, progress] at taken
    | subscribe =>
      rw [Service.step] at taken
      split at taken <;> cases taken
      exact .here (.inr rfl) kept session fits
    | publish =>
      rw [Service.step] at taken
      split at taken
      · cases taken
      · rename_i ev rest outbox
        split at taken
        · cases taken
          refine .here progress kept session ?_
          rw [outbox] at fits
          simpa using fits
        · rename_i full
          have ended : s.progress = .ended := heard.resolve_right full
          rcases progress with progress | progress <;> cases ended.symm.trans progress
    | consume =>
      rw [Service.step] at taken
      split at taken
      · cases taken
      · rename_i ev rest queue
        split at taken
        · cases taken
          rw [queue, cons_append, foldl_cons] at fits
          by_cases fatal : ev = .fatal
          · subst fatal
            have failed : react s.session .fatal = .failed := by
              have all : ∀ st ∈ [State.connected, .reconnecting, .failed], move .failed st = .failed := by
                decide
              exact all _ session
            refine .finished rfl failed (.inr ?_)
            rw [failed, foldl_failed] at fits
            cases kept.minded with
            | running k i state watchers proc => rw [state] at fits; cases fits
            | recovering k i p state watchers proc gone => rw [state] at fits; cases fits
            | failed k state watchers =>
              rw [watchers]
              exact fun w inside => (mem_replicate.mp inside).2
          · exact .here (.inr (if_neg fatal)) kept (react_known session ev) fits
        · cases taken
    | engine a =>
      obtain ⟨engine, own, empty, stepped, rfl⟩ := engine_step taken
      obtain ⟨kept', evs, words, led⟩ := kept.step own stepped
      rw [empty, append_nil] at fits
      refine .here progress kept' session ?_
      rw [outbox_emit words]
      change (s.queue ++ evs).foldl react s.session = _
      rw [foldl_append, fits]
      exact led
  | finished progress session still =>
    cases e with
    | apply | tunUp | announce | subscribe => simp [Service.step, progress] at taken
    | publish =>
      rw [Service.step] at taken
      split at taken
      · cases taken
      · split at taken <;> cases taken <;> exact .finished progress session still
    | consume =>
      rw [Service.step] at taken
      split at taken
      · cases taken
      · simp [progress] at taken
    | engine a =>
      obtain ⟨engine, own, -, stepped, rfl⟩ := engine_step taken
      exact .finished progress session (still_alone own stepped still)

theorem Heeds.new (limit window : Nat) : Heeds (new limit window : Service Plan) :=
  .starting rfl rfl rfl rfl rfl rfl rfl rfl

/-! ## Agreement -/

/-- Every event has been published, and every exit has been noticed. -/
structure Quiet (s : Service Plan) : Prop where
  outbox : s.outbox = []
  noticed : ∀ i, .waiting i ∈ s.engine.watchers → s.engine.proc = some i → s.engine.alive i = true

/-- The process is down and a goroutine waits to restart it. -/
def Restarting (s : Supervisor Plan) : Prop :=
  ∃ i p, .delayed i p ∈ s.watchers ∧ s.proc = some i ∧ s.stopping = false

theorem Minded.restarting (ok : Minded s) (down : Restarting s) : s.state = .recovering := by
  obtain ⟨i, p, inside, -, -⟩ := down
  obtain ⟨n, entry⟩ := mem_iff_getElem?.mp inside
  obtain ⟨i', same, -⟩ | ⟨i', q, same, state, -⟩ := ok.active entry (by simp)
  · cases same
  · exact state

/-- What the session and the engine look like. -/
def picture (s : Service Nat) : State × EngineState × List Published × List Published :=
  (s.session, s.engine.state, s.queue, s.outbox)

/-- The session is connected and follows its engine. -/
def connect : List (Event Nat) := [.apply {}, .tunUp true {}, .announce, .subscribe]

/-- The engine exits before the session has subscribed. -/
def earlyExit : List (Event Nat) :=
  [.apply {}, .engine (.exit 0), .engine (.notice 0 false {}), .publish, .publish, .publish,
    .tunUp true {}, .announce, .subscribe]

/-- The `n`-th process exits and is restarted, long after the one before it. -/
def crash (n : Nat) : List (Event Nat) :=
  [.engine (.wait 600), .engine (.exit n), .engine (.notice n false {}), .publish, .publish, .publish,
    .engine (.wake n {}), .publish, .publish, .publish]

/-- A session that takes four events and then does not look at its queue until the engine has been
restarted 22 times and has exited once more. -/
def slowSession : List (Event Nat) :=
  connect ++ crash 0 ++ List.replicate 4 .consume ++
    (List.range 21).flatMap (fun n => crash (n + 1)) ++
    [.engine (.wait 600), .engine (.exit 22), .engine (.notice 22 false {}), .publish, .publish,
      .publish] ++ List.replicate 128 .consume

instance (e : Event Plan) (s : Service Plan) : Decidable (Heard e s) :=
  match e with
  | .publish => inferInstanceAs
      (Decidable (s.progress = .ended ∨ s.progress = .following ∧ s.queue.length < queueLength))
  | .apply _ | .tunUp _ _ | .announce | .subscribe | .consume | .engine _ => .isTrue trivial

/-- The supervisor does not restart the engine. -/
def NoRestart : Event Plan → Service Plan → Prop
  | .engine (.wake _ _), _ => False
  | _, _ => True

/-- The adapter has been seen before the session is announced, and no event will announce it again. -/
structure Seen (s : Service Plan) : Prop where
  seen : s.progress = .checked → s.tunSeen = some s.engine.processes.length
  waiting : s.queue ≠ [] → s.progress = .following ∨ s.progress = .ended
  silent : s.progress = .ended ∨ .state .running ∉ s.queue ++ s.outbox

theorem changed_silent {before after : EngineState} (other : after ≠ .running) :
    Published.state .running ∉ changed before after := by
  rw [changed]
  split
  · simp
  · simp [other.symm]

/-- A step without a restart starts no process and announces no running engine. -/
theorem step_silent (own : alone a = true) (norestart : ∀ n o, a ≠ .wake n o)
    (taken : Supervise.step d a s = some s') :
    s'.processes.length = s.processes.length ∧
      ∃ evs, s'.published = s.published ++ evs ∧ Published.state .running ∉ evs := by
  have nothing : ∀ t : Supervisor Plan, t.published = s.published →
      ∃ evs, t.published = s.published ++ evs ∧ Published.state .running ∉ evs :=
    fun t same => ⟨[], by rw [same, append_nil], by simp⟩
  cases stepped taken with
  | failed err | accepted fine | stop | close | cancel | quit delayed => cases own
  | wait => exact ⟨rfl, nothing _ rfl⟩
  | exit live => exact ⟨length_modify .., nothing _ rfl⟩
  | late delayed other | restart delayed proc running => exact absurd rfl (norestart _ _)
  | @notice n i canceled o r waiting gone done =>
    cases done with
    | idle other => exact ⟨rfl, nothing _ rfl⟩
    | ended why words =>
      refine ⟨rfl, ?_⟩
      rcases words with words | words
      · exact ⟨_, words, changed_silent (by simp)⟩
      · refine ⟨_, words.trans (append_assoc ..), ?_⟩
        simp [changed_silent]
    | delayed crashed proc running plan words room =>
      refine ⟨rfl, [.down] ++ changed s.state .recovering ++ [.restart], ?_, ?_⟩
      · simp only [← append_assoc]
        exact words
      · simp [changed_silent]
    | @exhausted attempts pub crashed proc words spent =>
      obtain ⟨routed, installed, failed, removed⟩ := unroute_eq d o { s with
        budget := { s.budget with attempts := attempts }
        now := s.now + o.lag }
      rw [removed]
      refine ⟨rfl, [.down] ++ changed s.state .failed ++ [.fatal], ?_, ?_⟩
      · simp only [← append_assoc]
        exact words
      · simp [changed_silent]

theorem connected_of_move {target source : State} (other : target ≠ .connected)
    (connected : move target source = .connected) : source = .connected := by
  rw [move] at connected
  split at connected
  · exact absurd connected other
  · exact connected

theorem connected_of_react {ev : Published} (silent : ev ≠ .state .running)
    (connected : react st ev = .connected) : st = .connected := by
  cases ev with
  | down | fatal => exact connected_of_move (by simp) connected
  | restart => exact connected
  | state e =>
    cases e with
    | running => exact absurd rfl silent
    | _ => exact connected

/-- Nothing is in the queue before the session has subscribed. -/
theorem Seen.early {s : Service Plan} (ok : Seen s) (early : s.progress ≠ .ended) :
    (s.progress ≠ .following → s.queue = []) ∧ .state .running ∉ s.queue ++ s.outbox := by
  refine ⟨fun before => ?_, ok.silent.resolve_left early⟩
  by_contra waits
  exact (ok.waiting waits).elim before early

theorem Seen.step {s s' : Service Plan} (ok : Seen s) (admitted : NoRestart e s)
    (taken : step d plan true e s = some s') :
    Seen s' ∧ (s'.session = .connected → s.session = .connected ∨
      s'.tunSeen = some s'.engine.processes.length) := by
  cases e with
  | apply o =>
    rw [Service.step] at taken
    split at taken
    · rename_i starting
      obtain ⟨empty, silent⟩ := ok.early (by simp [starting])
      have empty := empty (by simp [starting])
      generalize s.engine.apply d o plan = r at taken
      simp only at taken
      split at taken
      · cases taken
        exact ⟨⟨by rintro ⟨⟩, fun waits => absurd empty waits, .inr silent⟩, .inl⟩
      · cases taken
        exact ⟨⟨by rintro ⟨⟩, fun waits => absurd empty waits, .inl rfl⟩,
          fun connected => .inl (connected_of_move (by simp) connected)⟩
    · cases taken
  | tunUp up o =>
    rw [Service.step] at taken
    split at taken
    · rename_i applied
      obtain ⟨empty, silent⟩ := ok.early (by simp [applied])
      have empty := empty (by simp [applied])
      simp only [Bool.true_eq_false, if_false] at taken
      split at taken
      · cases taken
        exact ⟨⟨fun _ => rfl, fun waits => absurd empty waits, .inr silent⟩, .inl⟩
      · split at taken
        · cases taken
          exact ⟨⟨by rintro ⟨⟩, fun waits => absurd empty waits, .inl rfl⟩,
            fun connected => .inl (connected_of_move (by simp) connected)⟩
        · cases taken
    · cases taken
  | announce =>
    rw [Service.step] at taken
    split at taken
    · rename_i checked
      cases taken
      obtain ⟨empty, silent⟩ := ok.early (by simp [checked])
      exact ⟨⟨by rintro ⟨⟩, fun waits => absurd (empty (by simp [checked])) waits, .inr silent⟩,
        fun _ => .inr (ok.seen checked)⟩
    · cases taken
  | subscribe =>
    rw [Service.step] at taken
    split at taken
    · rename_i announced
      cases taken
      exact ⟨⟨by rintro ⟨⟩, fun _ => .inl rfl, .inr (ok.early (by simp [announced])).2⟩, .inl⟩
    · cases taken
  | publish =>
    rw [Service.step] at taken
    split at taken
    · cases taken
    · rename_i ev rest outbox
      split at taken
      · rename_i room
        cases taken
        refine ⟨⟨fun checked => ?_, fun _ => .inl room.1, ok.silent.imp_right fun silent => ?_⟩,
          .inl⟩
        · cases room.1.symm.trans checked
        · rw [outbox] at silent
          simpa using silent
      · cases taken
        refine ⟨⟨ok.seen, ok.waiting, ok.silent.imp_right fun silent => ?_⟩, .inl⟩
        rw [outbox] at silent
        simp only [mem_append, mem_cons, not_or] at silent ⊢
        exact ⟨silent.1, silent.2.2⟩
  | consume =>
    rw [Service.step] at taken
    split at taken
    · cases taken
    · rename_i ev rest queue
      split at taken
      · rename_i following
        cases taken
        have silent := (ok.early (by simp [following])).2
        rw [queue, cons_append, mem_cons, not_or] at silent
        refine ⟨⟨fun checked => ?_, fun _ => ?_, .inr silent.2⟩, fun connected => .inl ?_⟩
        · split at checked <;> cases checked
        · by_cases fatal : ev = .fatal
          · exact .inr (if_pos fatal)
          · exact .inl (if_neg fatal)
        · exact connected_of_react (fun same => silent.1 same.symm) connected
      · cases taken
  | engine a =>
    obtain ⟨engine, own, -, stepped, rfl⟩ := engine_step taken
    have norestart : ∀ n o, a ≠ .wake n o := by
      rintro n o rfl
      exact admitted
    obtain ⟨processes, evs, words, silent⟩ := step_silent own norestart stepped
    refine ⟨⟨fun checked => ?_, ok.waiting, ok.silent.imp_right fun before => ?_⟩, .inl⟩
    · exact (ok.seen checked).trans (congrArg some processes.symm)
    · rw [outbox_emit words]
      rw [mem_append, not_or] at before ⊢
      exact ⟨before.1, silent⟩

theorem Seen.new (limit window : Nat) : Seen (new limit window : Service Plan) where
  seen checked := by cases checked
  waiting waits := absurd rfl waits
  silent := .inr (by simp [Service.new])

end Service

end Sora.Supervise
