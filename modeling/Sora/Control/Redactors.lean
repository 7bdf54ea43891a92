import Sora.Lib.Bytes
import Sora.Lib.Run

/-!
# The redactors of sessions

`Connect` makes a redactor from the plan it is given and caches it under the id of the session,
whether or not the session starts.  The streams of events and the statistics take the redactor of
the current session from the cache.  The cache has room for eight redactors and is cleared as a
whole when one more comes.
-/

namespace Sora.Control.Redactors

open Sora.Lib

/-- What a redactor masks: the secrets and the identifiers of a plan of four bytes or more. -/
structure Redactor where
  values : List Bytes
  deriving DecidableEq

/-- `NewRedactor`. -/
def newRedactor (values : List Bytes) : Redactor :=
  ⟨(values.filter fun v => 4 ≤ v.length).dedup⟩

/-- `byRef` of `redactorCache`; keys are distinct. -/
abbrev Cache := List (Bytes × Redactor)

def maxCachedRedactors : Nat := 8

def Cache.get (c : Cache) (id : Bytes) : Option Redactor := c.lookup id

def Cache.drop (c : Cache) (id : Bytes) : Cache := c.filter fun p => p.1 != id

def Cache.put (c : Cache) (id : Bytes) (r : Redactor) : Cache :=
  if id = [] then c
  else
    let kept := if maxCachedRedactors ≤ c.length then [] else c
    (id, r) :: Cache.drop kept id

/-- A session with the values that its plan asks to mask. -/
structure Session where
  id : Bytes
  values : List Bytes
  deriving DecidableEq

structure State where
  current : Option Session := none
  /-- The session id of the status that is left when no session is current. -/
  last : Bytes := []
  cache : Cache := []
  deriving DecidableEq

/-- What `Manager.Connect` does. -/
inductive Outcome where
  /-- It fails before the current session is stopped, or the stop fails. -/
  | kept
  /-- The session does not start, and the previous one is gone. -/
  | gone
  /-- The session does not start, but cannot be stopped either. -/
  | stuck
  | started
  deriving DecidableEq

inductive Call where
  /-- A plan that could be read, under the id of its session. -/
  | connect (session : Session) (outcome : Outcome)
  /-- `Disconnect`, with the name it is given and whether the session could be stopped. -/
  | disconnect (named : Bytes) (stopped : Bool)
  /-- Status, statistics and event streams, and requests that are refused before the plan is
  read. -/
  | read
  deriving DecidableEq

/-- `Manager.Status`, as far as the id goes. -/
def State.statusID (s : State) : Bytes := (s.current.map fun r => r.id).getD s.last

def connect (session : Session) (outcome : Outcome) (s : State) : State :=
  let s := { s with cache := s.cache.put session.id (newRedactor session.values) }
  match outcome with
  | .kept => s
  | .gone => { s with current := none, last := session.id }
  | .stuck | .started => { s with current := some session }

/-- `Manager.Disconnect` followed by the removal of the redactor. -/
def disconnect (stopped : Bool) (s : State) : State :=
  match s.current with
  | none => { s with last := [] }
  | some session =>
    if stopped then
      let s := { s with current := none, last := session.id }
      { s with cache := s.cache.drop s.statusID }
    else s

/-- A session's id is never empty: `newSessionID` makes one up. -/
def step : Call → State → Option State
  | .connect session outcome, s =>
    if session.id = [] then none else some (connect session outcome s)
  | .disconnect named stopped, s =>
    let wanted := trimSpace named
    if wanted ≠ [] ∧ s.current.map (fun r => r.id) ≠ some wanted then some s
    else some (disconnect stopped s)
  | .read, s => some s

/-- The redactor that event streams and statistics of the current session get. -/
def State.redactor (s : State) : Option Redactor := s.current.bind fun r => s.cache.get r.id

/-- `maskText` of a text of the current session; without a redactor, the text leaves as it is. -/
def State.masked (redact : Redactor → Bytes → Bytes) (s : State) (text : Bytes) : Bytes :=
  (s.redactor.map fun r => redact r text).getD text

/-- A `Connect` next to a running session finds room in the cache, and has another id or the same
values. -/
def Apart : Call → State → Prop
  | .connect session _, s => ∀ r, s.current = some r →
      s.cache.length < maxCachedRedactors ∧ (session.id = r.id → session.values = r.values)
  | _, _ => True

instance : ∀ c s, Decidable (Apart c s)
  | .connect session outcome, s =>
    match found : s.current with
    | none => .isTrue fun r same => by rw [found] at same; cases same
    | some r =>
      if apart : s.cache.length < maxCachedRedactors ∧
          (session.id = r.id → session.values = r.values) then
        .isTrue fun r' same => by
          rw [found] at same
          cases same
          exact apart
      else .isFalse fun all => apart (all r found)
  | .disconnect _ _, _ | .read, _ => .isTrue trivial

/-! ## The cache -/

theorem Cache.get_cons (c : Cache) (id id' : Bytes) (r : Redactor) :
    Cache.get ((id, r) :: c) id' = if id' = id then some r else c.get id' := by
  rw [Cache.get, List.lookup_cons]
  by_cases same : id' = id
  · rw [if_pos same, same, beq_self_eq_true]
  · rw [if_neg same, beq_eq_false_iff_ne.mpr same]
    rfl

theorem Cache.get_drop (c : Cache) (id id' : Bytes) :
    Cache.get (c.drop id) id' = if id' = id then none else c.get id' := by
  induction c with
  | nil => simp [Cache.get, Cache.drop]
  | cons p c ih =>
    obtain ⟨key, r⟩ := p
    rw [Cache.get_cons, Cache.drop, List.filter_cons]
    rw [Cache.drop] at ih
    by_cases same : key = id
    · subst same
      rw [if_neg (by simp), ih]
      split <;> rfl
    · rw [if_pos (by simpa using same), Cache.get_cons, ih]
      by_cases found : id' = key
      · rw [if_pos found, if_pos found, if_neg fun dropped => same (found.symm.trans dropped)]
      · rw [if_neg found, if_neg found]

theorem Cache.get_put (c : Cache) {id : Bytes} (named : id ≠ []) (r : Redactor) (id' : Bytes) :
    Cache.get (c.put id r) id' =
      if id' = id then some r
      else if maxCachedRedactors ≤ c.length then none else c.get id' := by
  rw [Cache.put, if_neg named, Cache.get_cons]
  by_cases same : id' = id
  · rw [if_pos same, if_pos same]
  · rw [if_neg same, Cache.get_drop, if_neg same]
    split <;> rfl

/-! ## Runs of requests -/

/-- The cache has the redactor of the current session. -/
def State.Covered (s : State) : Prop :=
  ∀ r, s.current = some r → s.cache.get r.id = some (newRedactor r.values)

theorem covered_step {c : Call} {s t : State} (covered : s.Covered) (apart : Apart c s)
    (done : step c s = some t) : t.Covered := by
  cases c with
  | connect session outcome =>
    rw [step] at done
    split at done <;> cases done
    rename_i named
    have put := Cache.get_put s.cache named (newRedactor session.values)
    cases outcome with
    | kept =>
      intro r current
      obtain ⟨room, same⟩ := apart r current
      change Cache.get (s.cache.put session.id (newRedactor session.values)) r.id = _
      rw [put]
      split
      · rename_i shared
        rw [same shared.symm]
      · rw [if_neg (by omega)]
        exact covered r current
    | gone => exact nofun
    | stuck | started =>
      intro r current
      cases current
      change Cache.get (s.cache.put session.id (newRedactor session.values)) session.id = _
      rw [put, if_pos rfl]
  | disconnect named stopped =>
    simp only [step] at done
    split at done
    · cases done
      exact covered
    · cases done
      intro r current
      rw [disconnect] at current ⊢
      cases found : s.current with
      | none =>
        simp only [found] at current
        cases current
      | some session =>
        cases stopped with
        | true =>
          simp only [found] at current
          cases current
        | false =>
          simp only [found, Bool.false_eq_true, if_false] at current ⊢
          exact covered r (found.trans current)
  | read =>
    cases done
    exact covered

/-- In every run in which no `Connect` next to a running session meets a full cache or takes its
id, the texts of the current session are masked with the values of its plan. -/
theorem current_masked {s : State} (run : Run step Apart {} s) {r : Session}
    (current : s.current = some r) (redact : Redactor → Bytes → Bytes) (text : Bytes) :
    s.redactor = some (newRedactor r.values) ∧
      s.masked redact text = redact (newRedactor r.values) text := by
  have covered : s.Covered :=
    run.keeps State.Covered nofun fun c s t covered apart done => covered_step covered apart done
  have found : s.redactor = some (newRedactor r.values) := by
    rw [State.redactor, current]
    exact covered r current
  refine ⟨found, ?_⟩
  rw [State.masked, found]
  rfl

/-! ## Sessions that lose their redactor -/

def secretSession : Session := ⟨ascii "s", [ascii "password"]⟩

/-- A plan under another id that does not start. -/
def failedConnect (id : String) : Call := .connect ⟨ascii id, [ascii "other-password"]⟩ .kept

def everyCall : Call → State → Prop := fun _ _ => True

instance (c : Call) (s : State) : Decidable (everyCall c s) := .isTrue trivial

/-- Eight attempts to connect that fail, or one that fails under the id of the running session, and
its secrets leave the core. -/
theorem redactor_lost :
    (exec step everyCall
      (.connect secretSession .started ::
        ["a", "b", "c", "d", "e", "f", "g", "h"].map failedConnect) {}).map
        (fun s => (s.current, s.redactor)) = some (some secretSession, none) ∧
    (exec step everyCall [.connect secretSession .started, failedConnect "s"] {}).map
        (fun s => (s.current, s.redactor)) =
      some (some secretSession, some ⟨[ascii "other-password"]⟩) := by
  decide

/-- With one failed attempt, the redactor stays. -/
theorem redactor_kept : ∃ s, Run step Apart {} s ∧ s.current = some secretSession ∧
    s.redactor = some ⟨[ascii "password"]⟩ := by
  have ran : (exec step Apart [.connect secretSession .started, failedConnect "a"] {}).map
      (fun s => s.current) = some (some secretSession) := by decide
  obtain ⟨s, done, current⟩ := Option.map_eq_some_iff.mp ran
  have run := Run.of_exec done
  exact ⟨s, run, current, (current_masked run current (fun _ text => text) []).1⟩

end Sora.Control.Redactors
