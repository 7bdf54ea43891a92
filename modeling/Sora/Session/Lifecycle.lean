import Sora.Session.Runner

/-!
# The journal as a lifecycle trace
-/

set_option linter.dupNamespace false

namespace Sora.Session

open Sora.Lib Sora.Engine Sora.Guard List World Prog Session

/-! ## State entries -/

/-- The states that the journal of a session records, in sequence order. -/
def Session.entries (s : Session) : List State := (s.log.filter Event.isState).map Event.state

/-- The last recorded state; a session starts disconnected. -/
def Session.lastEntry (s : Session) : State := s.entries.getLastD .disconnected

/-- A repeat, or a legal move. -/
def Leads (a b : State) : Prop := a = b ∨ canTransition a b = true

instance (a b : State) : Decidable (Leads a b) := by unfold Leads; infer_instance

/-- The entries form a path of legal moves and repeats that starts disconnected. -/
def Session.IsTrace (s : Session) : Prop := List.IsChain Leads (.disconnected :: s.entries)

instance (s : Session) : Decidable s.IsTrace := by unfold Session.IsTrace; infer_instance

/-! ## What an operation does to the journal -/

inductive JournalEffect where
  | none
  | move (next : State)
  | reconnect
  | append (ev : Event)
  | reset

/-- The effect of an operation, by its answer, on the state and the journal of session `j`. -/
@[simp] def journalEffect {β : Type} (j : Nat) : Op β → β → JournalEffect
  | .beginStart i => fun _ => if i = j then .move .connecting else .none
  | .setState i next _ _ => fun _ => if i = j then .move next else .none
  | .beginReconnecting i _ _ _ => fun moved => if i = j ∧ moved then .reconnect else .none
  | .append i ev => fun _ => if i = j then .append ev else .none
  | .newSession i _ _ => fun err => if i = j ∧ err = none then .reset else .none
  | _ => fun _ => .none

/-- Two sessions with the same states and journal. -/
structure SameJournal (s s' : Session) : Prop where
  state : s'.state = s.state
  status : s'.status.state = s.status.state
  log : s'.log = s.log

def JournalEffect.Rel (s s' : Session) : JournalEffect → Prop
  | .none => SameJournal s s'
  | .move next => SameJournal s s' ∨ (canTransition s.state next = true ∧ s'.state = next ∧
      s'.status.state = next ∧ ∃ reason key, s'.log = s.log ++
        [{ kind := .state, state := next, reason := reason, key := key }])
  | .reconnect => canTransition s.state .reconnecting = true ∧ s'.state = .reconnecting ∧
      s'.status.state = .reconnecting ∧ s'.log = s.log
  | .append ev => s'.state = s.state ∧ s'.status.state = s.status.state ∧ s'.log = s.log ++ [ev]
  | .reset => ∃ plan settings, s' = Session.new plan settings

theorem SameJournal.refl (s : Session) : SameJournal s s := ⟨rfl, rfl, rfl⟩

theorem setStateLocked_rel (next : State) (reason : Code) (key : Key) (s : Session) :
    (JournalEffect.move next).Rel s (s.setStateLocked next reason key) := by
  unfold setStateLocked
  split
  · rename_i legal
    exact .inr ⟨legal, rfl, rfl, reason, key, rfl⟩
  · exact .inl (.refl s)

theorem beginStart_rel (s : Session) : (JournalEffect.move .connecting).Rel s s.beginStart.2 := by
  unfold beginStart
  split
  · rcases setStateLocked_rel .connecting .none []
      { s with status := { s.status with sessionID := s.plan.sessionID } } with same | moved
    · exact .inl ⟨same.state, same.status, same.log⟩
    · exact .inr moved
  · exact .inl (.refl s)

theorem beginReconnecting_rel (reason : Code) (key : Key) (delay : Nat) (s : Session) :
    ((s.beginReconnecting reason key delay).1 = true ∧
        JournalEffect.reconnect.Rel s (s.beginReconnecting reason key delay).2) ∨
      ((s.beginReconnecting reason key delay).1 = false ∧
        SameJournal s (s.beginReconnecting reason key delay).2) := by
  unfold beginReconnecting
  split
  · rename_i legal
    exact .inl ⟨rfl, legal, rfl, rfl, rfl⟩
  · exact .inr ⟨rfl, .refl s⟩

variable {w w' : World} {β : Type} {b : β} {i t : Nat} {c : Choice} {s s' : Session} {ev : Event}

/-- A section that keeps states and journal of its session keeps those of all sessions. -/
theorem sameJournal_onSession {f : Session → β × Session} (keeps : ∀ s, SameJournal s (f s).2)
    (step : onSession i f w = some (b, w')) (j : Nat) :
    SameJournal (w.sessions j) (w'.sessions j) := by
  rcases onSession_cases step j with ⟨-, same⟩ | ⟨-, -, changed⟩
  · rw [same]
    exact .refl _
  · rw [changed]
    exact keeps _

theorem sameJournal_engineApply (c : Choice) (i : Nat) (site : Site) (w : World) (j : Nat) :
    SameJournal (w.sessions j) ((w.engineApply c i site).2.sessions j) := by
  simp only [engineApply, record_sessions, setEngine_sessions]
  by_cases same : j = i
  · subst same
    rw [setSession_same]
    exact ⟨rfl, rfl, rfl⟩
  · rw [setSession_other _ _ _ same]
    exact .refl _

/-- Every operation changes states and journals only as `journalEffect` says. -/
theorem journal_step {op : Op β} (step : perform t c op w = some (b, w')) (j : Nat) :
    (journalEffect j op b).Rel (w.sessions j) (w'.sessions j) := by
  cases op with
  | beginStart i =>
    rcases onSession_cases step j with ⟨other, same⟩ | ⟨rfl, -, changed⟩
    · simp only [journalEffect, same, if_neg (Ne.symm other)]
      exact .refl _
    · simp only [journalEffect, changed]
      exact beginStart_rel _
  | setState i next reason key =>
    simp only [perform] at step
    rcases onSession_cases step j with ⟨other, same⟩ | ⟨rfl, -, changed⟩
    · simp only [journalEffect, same, if_neg (Ne.symm other)]
      exact .refl _
    · simp only [journalEffect, changed]
      exact setStateLocked_rel next reason key _
  | beginReconnecting i reason key delay =>
    rcases onSession_cases step j with ⟨other, same⟩ | ⟨rfl, answer, changed⟩
    · simp only [journalEffect, same, Ne.symm other]
      exact .refl _
    · rw [changed]
      rcases beginReconnecting_rel reason key delay (w.sessions j) with ⟨yes, rel⟩ | ⟨no, same⟩
      · simp only [answer, yes, journalEffect]
        exact rel
      · simp only [answer, no, journalEffect]
        exact same
  | append i ev =>
    simp only [perform] at step
    rcases onSession_cases step j with ⟨other, same⟩ | ⟨rfl, -, changed⟩
    · simp only [journalEffect, same, if_neg (Ne.symm other)]
      exact .refl _
    · simp only [journalEffect, changed]
      exact ⟨rfl, rfl, rfl⟩
  | newSession i plan settings =>
    simp only [perform] at step
    split at step
    · cases step
      simp only [journalEffect, reduceCtorEq, and_false]
      exact .refl _
    · cases step
      by_cases same : i = j
      · subst same
        simp only [journalEffect, setSession_same]
        exact ⟨plan, settings, rfl⟩
      · simp only [journalEffect, same, setSession_other _ _ _ (Ne.symm same)]
        exact .refl _
  | beginStop i =>
    refine sameJournal_onSession (fun s => ?_) step j
    unfold beginStop
    split <;> exact ⟨rfl, rfl, rfl⟩
  | lockGuard i =>
    simp only [perform] at step
    split at step
    · cases step
    · exact sameJournal_onSession (fun s => ⟨rfl, rfl, rfl⟩) step j
  | engineApply i site =>
    cases step
    exact sameJournal_engineApply c i site w j
  | nextWork i =>
    simp only [perform] at step
    split at step
    · cases step
    · cases step
      exact .refl _
  | factory plan =>
    simp only [perform] at step
    split at step <;>
    · cases step
      exact .refl _
  | setGuardApplied i applied | commitKillSwitch i enabled | closeDone i | cancel i
  | unlockGuard i =>
    simp only [perform] at step
    exact sameJournal_onSession (fun s => ⟨rfl, rfl, rfl⟩) step j
  | _ =>
    cases step
    exact .refl _

/-! ## Traces grow at their end -/

theorem entries_append (log : s'.log = s.log ++ [ev]) :
    s'.entries = s.entries ++ if ev.isState then [ev.state] else [] := by
  unfold entries
  rw [log]
  cases kind : ev.isState <;> simp [kind]

theorem isTrace_snoc {next : State} (trace : s.IsTrace) (leads : Leads s.lastEntry next)
    (entries : s'.entries = s.entries ++ [next]) : s'.IsTrace ∧ s'.lastEntry = next := by
  unfold Session.IsTrace lastEntry at *
  rw [entries, ← cons_append, isChain_append]
  refine ⟨⟨trace, isChain_singleton _, fun x last y first => ?_⟩, by simp⟩
  rw [getLast?_cons, Option.mem_some_iff] at last
  rw [head?_singleton, Option.mem_some_iff] at first
  rw [← last, ← first, ← getLastD_eq_getLast?]
  exact leads

/-- After a move to reconnecting that is not journaled yet, every further move is also a
legal move from the last entry. -/
theorem leads_of_pending : ∀ a b : State, canTransition a .reconnecting = true →
    canTransition .reconnecting b = true → Leads a b := by
  intro a b
  cases a <;> cases b <;> decide

/-! ## Owing an entry -/

/-- A thread owes the journal an entry between the two sections of
`setStateReconnecting`. -/
inductive JournalPhase where
  | free
  | owing
  deriving DecidableEq

@[simp] def JournalPhase.allows {β : Type} (i : Nat) : JournalPhase → Op β → Prop
  | .free, .newSession _ _ _ => False
  | .free, _ => True
  | .owing, .append j ev => j = i ∧ ev.isState ∧ ev.state = .reconnecting
  | .owing, _ => False

@[simp] def JournalPhase.after : JournalEffect → JournalPhase
  | .reconnect => .owing
  | _ => .free

/-- After the move to reconnecting of session `i` the next operation is its entry. -/
@[simps] def journaling (i : Nat) : Discipline Op JournalPhase where
  allowed phase op := phase.allows i op
  answers _ _ _ := True
  next _ op b := .after (journalEffect i op b)

section Programs

variable (i : Nat) {Q : Option Err → JournalPhase → Prop}

theorem fail_journaling (err : Err) {Q : Unit → JournalPhase → Prop} (post : Q () .free) :
    (fail i err).wp (journaling i).transformer Q .free := by
  simp [fail, post]

section

variable (post : ∀ r, Q r .free)

include post

theorem restoreGuard_journaling : (restoreGuard i).wp (journaling i).transformer Q .free := by
  simp [restoreGuard, Option.forall, post]

theorem startEngine_journaling : (startEngine i).wp (journaling i).transformer Q .free := by
  simp [startEngine, Option.forall, post]

theorem start_journaling : (start i).wp (journaling i).transformer Q .free := by
  simp only [start, wp_bind, wp_op, Discipline.transformer_call, Option.forall]
  simp only [journaling_allowed, JournalPhase.allows, journaling_answers, journaling_next,
    journalEffect, JournalPhase.after, if_true, true_and, forall_const]
  refine ⟨⟨fun settings => ⟨?_, ?_⟩, ?_⟩, fun _ => post _⟩
  · refine startEngine_journaling i (Option.rec ?_ fun err => ?_)
    · simp [post]
    · rw [wp_bind]
      refine restoreGuard_journaling i (Option.rec ?_ fun restoreErr => ?_) <;>
      simp [fail_journaling, post]
  all_goals exact fun err => fail_journaling i _ (post _)

theorem stop_journaling : (stop i).wp (journaling i).transformer Q .free := by
  simp [stop, stopAgain, stopFirst, restoreGuard_journaling, Option.forall, post]

theorem setKillSwitch_journaling (enabled : Bool) :
    (setKillSwitch i enabled).wp (journaling i).transformer Q .free := by
  simp [setKillSwitch, forall_except, Option.forall, post]

theorem select_journaling (group target : Bytes) :
    (select i group target).wp (journaling i).transformer Q .free := by
  simp [select, Option.forall, post]

end

theorem setStateReconnecting_journaling (reason : Code) (key : Key) (delay : Nat)
    {Q : Unit → JournalPhase → Prop} (post : Q () .free) :
    (setStateReconnecting i reason key delay).wp (journaling i).transformer Q .free := by
  simp [setStateReconnecting, Event.isState, post]

theorem noticeGroups_journaling (groups : List GroupReading) (last : Fallbacks)
    {Q : Fallbacks → JournalPhase → Prop} (post : ∀ r, Q r .free) :
    (noticeGroups i groups last).wp (journaling i).transformer Q .free := by
  exact noticeGroups_wp (fun ev group => by simp) groups last post

theorem renewConnections_journaling {Q : Unit → JournalPhase → Prop} (post : Q () .free) :
    (renewConnections i).wp (journaling i).transformer Q .free := by
  simp [renewConnections, Option.forall, post]

theorem supervise_journaling (turns : Nat) (last : Fallbacks) {Q : Unit → JournalPhase → Prop}
    (post : Q () .free) : (supervise i turns last).wp (journaling i).transformer Q .free := by
  induction turns generalizing last with
  | zero => exact post
  | succ n ih =>
    simp only [supervise, wp_bind, wp_op, Discipline.transformer_call,
      journaling_allowed, JournalPhase.allows, true_and]
    intro work
    cases work with
    | done | closed => simp [post]
    | tick => simp [publishCounters, Option.forall, ih]
    | look => simp [noticeFallbacks, noticeGroups_journaling, Option.forall, ih]
    | network changed => cases changed <;> simp [renewConnections_journaling, ih]
    | event ev =>
      cases ev with
      | down err => simp [publishEngineEvent, setStateReconnecting_journaling, ih]
      | state next => cases next <;> simp [publishEngineEvent, ih]
      | fatal err => simp [publishEngineEvent, fail_journaling, post]
      | _ => simp [publishEngineEvent, ih]

theorem program_journaling (call : SessionCall) :
    (journaling i).Follows (· = .free) .free (call.program i) := by
  unfold Discipline.Follows
  cases call with
  | start => simp [SessionCall.program, start_journaling]
  | stop => simp [SessionCall.program, stop_journaling]
  | setKillSwitch enabled => simp [SessionCall.program, setKillSwitch_journaling]
  | select group target => simp [SessionCall.program, select_journaling]
  | supervise turns last => exact supervise_journaling i turns last rfl
  | status => simp [SessionCall.program]

end Programs

/-! ## Interleavings -/

/-- State entries are made while the session is in the state they carry. -/
def journalsInTime : Admission Op World := fun _ op w _ _ =>
  match op with
  | .append i ev => decide (ev.isState → (w.sessions i).state = ev.state)
  | _ => true

/-- The last entry carries the state, or a thread owes the entry of the move that the
session just made. -/
def Caught (s : Session) (phases : List JournalPhase) : Prop :=
  s.lastEntry = s.state ∨
    s.state = .reconnecting ∧ canTransition s.lastEntry .reconnecting = true ∧ .owing ∈ phases

structure Journaled (i : Nat) (w : World) (phases : List JournalPhase) : Prop where
  trace : (w.sessions i).IsTrace
  status : (w.sessions i).status.state = (w.sessions i).state
  caught : Caught (w.sessions i) phases

variable {phases : List JournalPhase} {next phase : JournalPhase}

theorem Caught.leads {next : State} (caught : Caught s phases)
    (legal : canTransition s.state next = true) : Leads s.lastEntry next := by
  rcases caught with last | ⟨state, pending, -⟩
  · exact .inr (last ▸ legal)
  · exact leads_of_pending _ _ pending (state ▸ legal)

theorem Caught.canTransition_reconnecting (caught : Caught s phases)
    (legal : canTransition s.state .reconnecting = true) :
    canTransition s.lastEntry .reconnecting = true := by
  rcases caught with last | ⟨-, pending, -⟩
  · exact last ▸ legal
  · exact pending

theorem Caught.leads_state (caught : Caught s phases) : Leads s.lastEntry s.state := by
  rcases caught with last | ⟨state, pending, -⟩
  · exact .inl last
  · exact .inr (state ▸ pending)

theorem owing_mem_set (owing : .owing ∈ phases) (thread : phases[t]? = some .free) :
    .owing ∈ phases.set t next := by
  obtain ⟨k, at_k⟩ := mem_iff_getElem?.mp owing
  have other : t ≠ k := by
    rintro rfl
    rw [thread] at at_k
    cases at_k
  exact mem_iff_getElem?.mpr ⟨k, by rw [getElem?_set_ne other, at_k]⟩

/-- An operation of a thread that owes nothing, without a move and without a state entry. -/
theorem Journaled.keep (inv : Journaled i w phases) (thread : phases[t]? = some .free)
    (state : (w'.sessions i).state = (w.sessions i).state)
    (status : (w'.sessions i).status.state = (w.sessions i).status.state)
    (entries : (w'.sessions i).entries = (w.sessions i).entries) :
    Journaled i w' (phases.set t next) := by
  have last : (w'.sessions i).lastEntry = (w.sessions i).lastEntry := by
    rw [lastEntry, entries, lastEntry]
  refine ⟨?_, by rw [status, state, inv.status], ?_⟩
  · rw [Session.IsTrace, entries]
    exact inv.trace
  · rw [Caught, last, state]
    rcases inv.caught with caught | ⟨moved, legal, owing⟩
    · exact .inl caught
    · exact .inr ⟨moved, legal, owing_mem_set owing thread⟩

theorem entries_congr (log : s'.log = s.log) : s'.entries = s.entries := by
  unfold entries
  rw [log]

/-- An entry that carries the state of its session. -/
theorem Journaled.entry {phases' : List JournalPhase} (inv : Journaled i w phases)
    (rel : (JournalEffect.append ev).Rel (w.sessions i) (w'.sessions i)) (isState : ev.isState)
    (inTime : (w.sessions i).state = ev.state) : Journaled i w' phases' := by
  obtain ⟨state', status', log'⟩ := rel
  have entries := entries_append log'
  rw [if_pos isState, ← inTime] at entries
  obtain ⟨trace', last⟩ := isTrace_snoc inv.trace inv.caught.leads_state entries
  exact ⟨trace', by rw [status', state', inv.status], .inl (last.trans state'.symm)⟩

theorem inTime_of_append {op : Op β} (effect : journalEffect i op b = .append ev)
    (admitted : journalsInTime β op w b w') (isState : ev.isState) :
    (w.sessions i).state = ev.state := by
  cases op <;> simp only [journalEffect, reduceCtorEq] at effect <;> split at effect <;>
    try cases effect
  rename_i same
  exact same ▸ of_decide_eq_true admitted isState

theorem no_reset_of_allows {op : Op β} (allows : phase.allows i op) :
    journalEffect i op b ≠ .reset := by
  intro effect
  cases op <;> simp only [journalEffect, reduceCtorEq] at effect <;> split at effect <;>
    try cases effect
  cases phase <;> exact allows

/-- One admitted operation keeps the journal a trace. -/
theorem Journaled.step {op : Op β} (inv : Journaled i w phases) (thread : phases[t]? = some phase)
    (allows : phase.allows i op) (step : perform t c op w = some (b, w'))
    (admitted : journalsInTime β op w b w') :
    Journaled i w' (phases.set t (.after (journalEffect i op b))) := by
  have rel := journal_step step i
  cases phase with
  | owing =>
    -- the thread makes the entry it owes, in time
    cases op <;> simp only [JournalPhase.allows] at allows
    obtain ⟨rfl, isState, -⟩ := allows
    simp only [journalEffect] at rel
    exact inv.entry rel isState (of_decide_eq_true admitted isState)
  | free =>
    cases effect : journalEffect i op b with
    | none =>
      rw [effect] at rel
      exact inv.keep thread rel.state rel.status (entries_congr rel.log)
    | move next =>
      rw [effect] at rel
      rcases rel with same | ⟨legal, state', status', reason, key, log'⟩
      · exact inv.keep thread same.state same.status (entries_congr same.log)
      · obtain ⟨trace', last⟩ :=
          isTrace_snoc inv.trace (inv.caught.leads legal) (entries_append log')
        exact ⟨trace', status'.trans state'.symm, .inl (last.trans state'.symm)⟩
    | reconnect =>
      rw [effect] at rel
      obtain ⟨legal, state', status', log'⟩ := rel
      have entries := entries_congr log'
      have bound : t < phases.length := (List.getElem?_eq_some_iff.mp thread).1
      refine ⟨?_, status'.trans state'.symm, .inr ⟨state', ?_, mem_set bound _⟩⟩
      · rw [Session.IsTrace, entries]
        exact inv.trace
      · rw [lastEntry, entries]
        exact inv.caught.canTransition_reconnecting legal
    | append ev =>
      rw [effect] at rel
      by_cases isState : ev.isState
      · exact inv.entry rel isState (inTime_of_append effect admitted isState)
      · refine inv.keep thread rel.1 rel.2.1 ?_
        rw [entries_append rel.2.2, if_neg isState, append_nil]
    | reset => exact absurd effect (no_reset_of_allows allows)

def Op.waits {β : Type} : Op β → Bool
  | .nextWork _ => true
  | _ => false

/-- Nothing is in flight in a thread that has ended or waits for the next event. -/
def atRest : Prog Op Unit → Bool
  | .pure _ => true
  | .call op _ => op.waits

theorem free_of_atRest {p : Prog Op Unit} (follows : (journaling i).Follows (· = .free) phase p)
    (rest : atRest p) : phase = .free := by
  cases phase with
  | free => rfl
  | owing =>
    cases p with
    | pure a => exact follows
    | call op k =>
      have allows : JournalPhase.owing.allows i op := follows.1
      cases op <;> first | exact allows.elim | cases rest

/-- In every interleaving of the calls on one session in which state entries are made in
time, the journal is a lifecycle trace; at rest its last state is the one `Status` reports. -/
theorem journal_is_trace_of_entries_in_time (i : Nat) (plan : Plan) (settings : Settings)
    (w : World) (fresh : w.sessions i = Session.new plan settings) (pool : Pool Op World)
    (reach : Pool.Reach machine (SessionCall.program i) journalsInTime ⟨w, []⟩ pool) :
    (pool.world.sessions i).IsTrace ∧
      ((∀ p ∈ pool.threads, atRest p) →
        (pool.world.sessions i).lastEntry = (pool.world.sessions i).status.state) := by
  have init : Journaled i w [] := by
    refine ⟨?_, ?_, .inl ?_⟩ <;> rw [fresh]
    · exact isChain_singleton _
    · rfl
    · rfl
  obtain ⟨phases, inv, follow⟩ :=
    Pool.invariant (journaling i) (· = .free) .free (Journaled i) (program_journaling i)
      (fun w phases inv => ⟨inv.trace, inv.status, inv.caught.imp_right fun pending =>
        ⟨pending.1, pending.2.1, mem_append_left _ pending.2.2⟩⟩)
      (fun op w w' phases t phase c b inv thread allows step admitted =>
        ⟨trivial, inv.step thread allows step admitted⟩)
      init .nil reach
  refine ⟨inv.trace, fun rest => ?_⟩
  rw [inv.status]
  refine inv.caught.resolve_right fun pending => ?_
  obtain ⟨p, member, follows⟩ := exists_of_forall₂ follow pending.2.2
  cases free_of_atRest follows (rest p member)

/-! ## Runs -/

/-- The session connects, its engine goes down and comes back, and it is stopped. -/
def calmRun : List (Move SessionCall Choice) :=
  .spawn .start :: (List.replicate 8 (.step 0 {}) ++ .spawn (.supervise 2 []) ::
    .step 1 { work := .event (.down none) } :: .step 1 {} :: .step 1 {} :: .step 1 {} ::
    .step 1 { work := .event (.state .running) } :: .step 1 {} :: .step 1 {} :: .step 1 {} ::
    .spawn .stop :: List.replicate 10 (.step 2 {}))

theorem calmRun_is_trace :
    ∃ pool, Pool.exec machine (SessionCall.program 0) journalsInTime
        ⟨.idle .nftables Plan.bare .empty, []⟩ calmRun = some pool ∧
      (pool.world.sessions 0).entries =
        [.connecting, .connected, .reconnecting, .connected, .disconnected] ∧
      (pool.world.sessions 0).IsTrace ∧
      (pool.world.sessions 0).lastEntry = (pool.world.sessions 0).status.state := by
  obtain ⟨pool, ran, facts⟩ := Option.map_eq_some_iff.mp
    (show (Pool.exec machine (SessionCall.program 0) journalsInTime
        ⟨.idle .nftables Plan.bare .empty, []⟩ calmRun).map (fun pool =>
          ((pool.world.sessions 0).entries, pool.threads.all atRest)) =
      some ([.connecting, .connected, .reconnecting, .connected, .disconnected], true) from rfl)
  obtain ⟨entries, rest⟩ := Prod.mk.inj facts
  obtain ⟨trace, last⟩ := journal_is_trace_of_entries_in_time 0 Plan.bare .empty _ rfl pool
    (Pool.reach_of_exec .refl ran)
  exact ⟨pool, ran, entries, trace, last (all_eq_true.mp rest)⟩

/-- The loop has moved to reconnecting and is overtaken by a whole `Stop` before it makes
its entry. -/
def overtakenRun : List (Move SessionCall Choice) :=
  .spawn .start :: (List.replicate 8 (.step 0 {}) ++ .spawn (.supervise 1 []) ::
    .step 1 { work := .event (.down none) } :: .step 1 {} :: .step 1 {} ::
    .spawn .stop :: (List.replicate 10 (.step 2 {}) ++ [.step 1 {}]))

theorem overtaken_entry_breaks_trace :
    ∃ pool, Pool.Reach machine (SessionCall.program 0) everything
        ⟨.idle .nftables Plan.bare .empty, []⟩ pool ∧
      ¬ (pool.world.sessions 0).IsTrace ∧ (∀ p ∈ pool.threads, atRest p) ∧
      (pool.world.sessions 0).lastEntry ≠ (pool.world.sessions 0).status.state := by
  obtain ⟨pool, ran, facts⟩ := Option.map_eq_some_iff.mp
    (show (Pool.exec machine (SessionCall.program 0) everything
        ⟨.idle .nftables Plan.bare .empty, []⟩ overtakenRun).map (fun pool =>
          ((pool.world.sessions 0).entries, (pool.world.sessions 0).status.state,
            pool.threads.all atRest)) =
      some ([.connecting, .connected, .disconnected, .reconnecting], .disconnected, true) from rfl)
  obtain ⟨entries, status, rest⟩ := Prod.mk.inj facts |>.imp_right Prod.mk.inj
  refine ⟨pool, Pool.reach_of_exec .refl ran, ?_, all_eq_true.mp rest, ?_⟩
  · rw [Session.IsTrace, entries]
    decide
  · rw [lastEntry, entries, status]
    decide

end Sora.Session
