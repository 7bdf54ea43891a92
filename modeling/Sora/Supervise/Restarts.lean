import Sora.Supervise.Ownership

/-!
# The restart policy

A process that exits unexpectedly is restarted with a growing delay, as often as the budget of the
sliding window allows.  A restart that does not bring the engine up ends the supervision at once: it
is not retried, and if it fails before the process is started, the routes of the tunnel stay.  As long
as every restart succeeds, the failed state means that the budget is used up, and the routes have been
removed or their removal has failed.
-/

namespace Sora.Supervise

open Sora.Lib Sora.Session List

/-! ## The window -/

theorem inWindow_inWindow {window now later : Nat} (le : now ≤ later) (times : List Nat) :
    inWindow window later (inWindow window now times) = inWindow window later times := by
  rw [inWindow, inWindow, List.filter_filter]
  refine List.filter_congr fun t _ => ?_
  by_cases inside : later < t + window
  · have earlier : now < t + window := by omega
    simp [earlier]
  · simp [inside]

theorem inWindow_append (window now : Nat) (before after : List Nat) :
    inWindow window now (before ++ after) =
      inWindow window now before ++ inWindow window now after := List.filter_append ..

/-- Every grant of `past` that is inside the window at `now` or later is among the attempts. -/
def RestartBudget.Knows (b : RestartBudget) (past : List Nat) (now : Nat) : Prop :=
  ∀ later, now ≤ later → inWindow b.window later b.attempts = inWindow b.window later past

variable {attempts past : List Nat} {b b' : RestartBudget} {now later limit window : Nat}

/-- What `Allow` answers and keeps. -/
theorem RestartBudget.Knows.allow {granted : Bool} (knows : b.Knows past now) (le : now ≤ later)
    (answer : b.allow now later = (granted, b')) : b'.limit = b.limit ∧ b'.window = b.window ∧
      (granted = true ↔ (inWindow b.window now past).length < b.limit) ∧
      b'.Knows (if granted then past ++ [later] else past) later := by
  have kept (time : Nat) (above : later ≤ time) : inWindow b.window time
      (inWindow b.window now past) = inWindow b.window time past :=
    inWindow_inWindow (le.trans above) past
  rw [RestartBudget.allow, knows now le_rfl] at answer
  split at answer
  · cases answer
    exact ⟨rfl, rfl, by simp [*], fun time above => knows time (le.trans above)⟩
  · simp only at answer
    split at answer <;> cases answer
    · exact ⟨rfl, rfl, by simpa using ‹_›, kept⟩
    · refine ⟨rfl, rfl, by simpa using Nat.lt_of_not_le ‹_›, fun time above => ?_⟩
      simp only [if_true, inWindow_append, kept time above]

/-- A call of `Allow` with its two readings of the clock; the granted calls are recorded. -/
def RestartBudget.ask (s : RestartBudget × List (Nat × Nat)) (c : Nat × Nat) :
    RestartBudget × List (Nat × Nat) :=
  let r := s.1.allow c.1 c.2
  (r.2, if r.1 then s.2 ++ [c] else s.2)

variable {calls : List (Nat × Nat)} {s : RestartBudget × List (Nat × Nat)}

/-- What holds after these calls: the budget knows the grants, and no interval shorter than the
window meets more than `limit` of them. -/
structure Slides (limit window : Nat) (calls : List (Nat × Nat)) (s : RestartBudget × List (Nat × Nat)) :
    Prop where
  sameLimit : s.1.limit = limit
  sameWindow : s.1.window = window
  sublist : s.2.Sublist calls
  knows : ∀ now, (∀ c ∈ calls, c.2 ≤ now) → s.1.Knows (s.2.map (·.2)) now
  few : ∀ lo hi, hi < lo + window →
    s.2.countP (fun c => decide (c.1 ≤ hi) && decide (lo ≤ c.2)) ≤ limit

theorem length_inWindow (window now : Nat) (granted : List (Nat × Nat)) :
    (inWindow window now (granted.map (·.2))).length =
      granted.countP fun c => decide (now < c.2 + window) := by
  rw [inWindow, ← countP_eq_length_filter, countP_map]
  rfl

theorem Slides.ask (slides : Slides limit window calls s) (earlier : ∀ c ∈ calls, c.2 ≤ now)
    (le : now ≤ later) :
    Slides limit window (calls ++ [(now, later)]) (RestartBudget.ask s (now, later)) := by
  obtain ⟨sameLimit, sameWindow, sublist, knows, few⟩ := slides
  rw [RestartBudget.ask]
  generalize answer : s.1.allow now later = r
  obtain ⟨limit', window', room, known⟩ := (knows now earlier).allow le answer
  rw [sameLimit, length_inWindow] at room
  refine ⟨limit'.trans sameLimit, window'.trans sameWindow, ?_, fun m above time le => ?_,
    fun lo hi short => ?_⟩
  · split
    · exact sublist.append (.refl _)
    · exact sublist.trans (sublist_append_left ..)
  · have last := above _ (mem_append_right _ (mem_singleton_self _))
    rw [known time (last.trans le)]
    split <;> simp
  · split
    · rename_i granted
      rw [countP_append, countP_singleton]
      split
      · -- a grant that meets the interval is in the window of this call
        rename_i met
        refine Nat.succ_le_of_lt (Nat.lt_of_le_of_lt (countP_mono_left fun c _ meets => ?_)
          (room.mp granted))
        simp only [Bool.and_eq_true, decide_eq_true_eq] at met meets ⊢
        omega
      · exact few lo hi short
    · exact few lo hi short

/-- Any calls of `Allow` on a fresh budget, with any readings of a clock that does not go back: an
interval shorter than the window meets at most `limit` granted calls, and a further call is refused
only if `limit` grants are in the window before it. -/
theorem budget_slides (limit window : Nat) (calls : List (Nat × Nat))
    (clock : (calls.flatMap fun c => [c.1, c.2]).Pairwise (· ≤ ·)) :
    let s := calls.foldl RestartBudget.ask (⟨limit, window, []⟩, [])
    (∀ lo hi, hi < lo + window →
      s.2.countP (fun c => decide (c.1 ≤ hi) && decide (lo ≤ c.2)) ≤ limit) ∧
      ∀ now later, (∀ c ∈ calls, c.2 ≤ now) → now ≤ later → (s.1.allow now later).1 = false →
        limit ≤ s.2.countP fun c => decide (now < c.2 + window) && decide (c.2 ≤ now) := by
  intro s
  have slides : Slides limit window calls s := by
    induction calls using reverseRecOn with
    | nil => exact ⟨rfl, rfl, .slnil, fun _ _ _ _ => rfl, fun _ _ _ => Nat.zero_le _⟩
    | append_singleton calls c ih =>
      rw [flatMap_append, pairwise_append] at clock
      obtain ⟨before, both, between⟩ := clock
      have slides := (ih before).ask (fun e inside => between _ (mem_flatMap.mpr ⟨e, inside,
        by simp⟩) _ mem_cons_self) (rel_of_pairwise_cons both mem_cons_self)
      rwa [← foldl_concat RestartBudget.ask] at slides
  refine ⟨slides.few, fun now later earlier le refused => ?_⟩
  generalize answer : s.1.allow now later = r at refused
  have full := ((slides.knows now earlier).allow le answer).2.2.1
  rw [refused, slides.sameLimit, slides.sameWindow, length_inWindow] at full
  refine (Nat.le_of_not_lt fun room => Bool.noConfusion (full.mpr room)).trans
    (countP_mono_left fun c inside within => ?_)
  simpa [earlier c (slides.sublist.mem inside)] using within

/-- Two grants in ten units: the third call is refused, the fourth comes after the first grant has
left the window. -/
theorem third_call_refused :
    let s := [(0, 1), (3, 3), (5, 6), (11, 12)].foldl RestartBudget.ask (⟨2, 10, []⟩, [])
    s.2 = [(0, 1), (3, 3), (11, 12)] ∧
      s.2.countP (fun c => decide (c.1 ≤ 9) && decide (0 ≤ c.2)) ≤ 2 :=
  ⟨by decide, (budget_slides 2 10 _ (by decide)).1 0 9 (by decide)⟩

namespace Supervisor

variable {Plan : Type} {d : Driver Plan} {o : Outcomes} {s : Supervisor Plan} {p : Plan}
    {i : Nat} {t : Supervisor Plan} {a : Action Plan} {s' : Supervisor Plan}

/-- The budget knows every restart that is still inside the window. -/
structure Counted (limit window : Nat) (s : Supervisor Plan) : Prop where
  sameLimit : s.budget.limit = limit
  sameWindow : s.budget.window = window
  attempts : ∀ now, s.now ≤ now →
    inWindow window now s.budget.attempts = inWindow window now s.restarts

/-- What the budget is about. -/
def clock (s : Supervisor Plan) : RestartBudget × List Nat × Nat := (s.budget, s.restarts, s.now)

theorem Counted.congr (ok : Counted limit window s) (same : t.clock = s.clock) :
    Counted limit window t := by
  obtain ⟨budget, restarts, now⟩ : t.budget = s.budget ∧ t.restarts = s.restarts ∧ t.now = s.now :=
    ⟨congrArg (·.1) same, congrArg (·.2.1) same, congrArg (·.2.2) same⟩
  refine ⟨budget ▸ ok.sameLimit, budget ▸ ok.sameWindow, fun later le => ?_⟩
  rw [budget, restarts]
  exact ok.attempts later (now ▸ le)

theorem Counted.knows (ok : Counted limit window s) : s.budget.Knows s.restarts s.now := by
  intro later le
  rw [ok.sameWindow]
  exact ok.attempts later le

/-- A budget that refuses is used up. -/
theorem Counted.exhausted (ok : Counted limit window s) (le : s.now ≤ later)
    (refused : s.budget.allow s.now later = (false, b)) :
    limit ≤ (inWindow window s.now s.restarts).length := by
  have full := (ok.knows.allow le refused).2.2.1
  rw [ok.sameLimit, ok.sameWindow] at full
  exact Nat.le_of_not_lt fun room => Bool.noConfusion (full.mpr room)

/-- What the budget knows after an answer. -/
theorem Counted.answered {granted : Bool} (ok : Counted limit window s)
    (answer : s.budget.allow s.now (s.now + o.lag) =
      (granted, { s.budget with attempts := attempts })) :
    ∀ now, s.now + o.lag ≤ now → inWindow window now attempts =
      inWindow window now (if granted then s.restarts ++ [s.now + o.lag] else s.restarts) := by
  rw [← ok.sameWindow]
  exact (ok.knows.allow (Nat.le_add_right ..) answer).2.2.2

theorem clock_unroute : (s.unroute d o).2.clock = s.clock := by
  obtain ⟨r, i, f, removed⟩ := unroute_eq d o s
  rw [removed]
  rfl

theorem clock_start : (s.start d o p).2.clock = s.clock := by
  rcases start_cases d o s p with ⟨e, st, pub, done, -⟩ | ⟨err, q, r, i, f, st, pub, done, -⟩ |
    ⟨r, i, f, pub, done, -⟩
  all_goals
    rw [done]
    rfl

theorem clock_announce (r : List Stage × Supervisor Plan) : (announce r).2.clock = r.2.clock := by
  obtain ⟨pub, done⟩ := announce_eq r
  rw [done]
  split <;> rfl

theorem clock_apply : (s.apply d o p).2.clock = s.clock := by
  have done := applied d o s p
  generalize s.apply d o p = r at done
  cases done with
  | refused why => rfl
  | fresh idle => exact (clock_announce _).trans clock_start
  | unloaded proc live why | loaded proc live | unstopped proc live supported fails stays
  | stopped proc live => rfl
  | replaced proc live => exact (clock_announce _).trans clock_start

theorem clock_stop : (s.stop d o).2.clock = s.clock := by
  have done := stopped d o s
  generalize s.stop d o = r at done
  cases done with
  | idle gone => exact clock_unroute
  | @exits i err st pub proc => exact clock_unroute
  | @stays i e st pub proc live fails still =>
    exact clock_unroute

theorem Counted.step (ok : Counted limit window s) (taken : step d a s = some s') :
    Counted limit window s' := by
  cases stepped taken with
  | failed err => exact ok.congr clock_apply
  | accepted fine => exact ok.congr clock_apply
  | stop => exact ok.congr clock_stop
  | close => exact ok.congr clock_stop
  | cancel | exit live | late delayed other | quit delayed => exact ok.congr rfl
  | @notice n i canceled o r waiting gone done =>
    cases done with
    | idle other | ended why words => exact ok.congr rfl
    | @delayed p attempts pub crashed proc running plan words room =>
      exact ⟨ok.sameLimit, ok.sameWindow, ok.answered room⟩
    | @exhausted attempts pub crashed proc words spent =>
      have counted : Counted limit window { s with
          budget := { s.budget with attempts := attempts }
          now := s.now + o.lag } := ⟨ok.sameLimit, ok.sameWindow, ok.answered spent⟩
      exact counted.congr clock_unroute
  | restart delayed proc running =>
    exact ok.congr ((clock_announce _).trans clock_start)
  | wait => exact ⟨ok.sameLimit, ok.sameWindow, fun later le => ok.attempts later (by
      have le : s.now + _ ≤ later := le
      omega)⟩

/-! ## The routes -/

/-- A `Route` that fails leaves no rules behind for whose removal nobody would care. -/
def Tidied : Action Plan → Supervisor Plan → Prop
  | .apply _ o, s | .wake _ o, s => Tidy o s
  | _, _ => True

theorem Routing.congr (ok : Routing d s) (routed : t.routed = s.routed)
    (installed : t.installed = s.installed) : Routing d t :=
  ⟨fun there => routed ▸ ok.owed (installed ▸ there), fun there => ok.router (routed ▸ there)⟩

theorem Routing.start (ok : Routing d s) (tidy : Tidy o s) :
    Routing d (announce (s.start d o p)).2 := by
  have started : Routing d (s.start d o p).2 := by
    rcases start_cases d o s p with ⟨e, st, pub, done, -⟩ |
      ⟨err, q, r, i, f, st, pub, done, -, -, kept⟩ | ⟨r, i, f, pub, done, -, kept⟩
    · rw [done]
      exact ok.congr rfl rfl
    · rw [done]
      exact (kept ok tidy).congr rfl rfl
    · rw [done]
      exact (kept ok).congr rfl rfl
  obtain ⟨pub, done⟩ := announce_eq (s.start d o p)
  rw [done]
  split
  · exact started
  · exact started.congr rfl rfl

theorem Routing.apply (ok : Routing d s) (tidy : Tidy o s) : Routing d (s.apply d o p).2 := by
  have done := applied d o s p
  generalize s.apply d o p = r at done
  cases done with
  | refused why => exact ok
  | fresh idle => exact Routing.start (ok.congr rfl rfl) tidy
  | unloaded proc live why | loaded proc live | unstopped proc live supported fails stays
  | stopped proc live => exact ok.congr rfl rfl
  | replaced proc live => exact Routing.start (ok.congr rfl rfl) tidy

theorem Routing.stop (ok : Routing d s) : Routing d (s.stop d o).2 := by
  have unrouted : ∀ t : Supervisor Plan, Routing d t → ∀ st pub,
      Routing d ((t.unroute d o).2.told st pub) := fun t ok st pub => ok.unroute.congr rfl rfl
  have done := stopped d o s
  generalize s.stop d o = r at done
  cases done with
  | idle gone => exact unrouted s.halted (ok.congr rfl rfl) _ _
  | @exits i err st pub proc => exact unrouted (s.halted.exit i) (ok.congr rfl rfl) _ _
  | @stays i e st pub proc live fails still =>
    exact unrouted { s.halted with proc := some i } (ok.congr rfl rfl) _ _

theorem Routing.step (ok : Routing d s) (admitted : Tidied a s) (taken : step d a s = some s') :
    Routing d s' := by
  cases stepped taken with
  | failed err => exact ok.apply admitted
  | accepted fine => exact (ok.apply admitted).congr rfl rfl
  | stop => exact ok.stop
  | @close o => exact ok.stop.congr rfl rfl
  | cancel | exit live | late delayed other | quit delayed | wait => exact ok.congr rfl rfl
  | @notice n i canceled o r waiting gone done =>
    cases done with
    | idle other | ended why words | delayed crashed proc running plan words room =>
      exact ok.congr rfl rfl
    | @exhausted attempts pub crashed proc words spent =>
      have spent : Routing d { s with
          budget := { s.budget with attempts := attempts }
          now := s.now + o.lag } := ok.congr rfl rfl
      exact spent.unroute.congr rfl rfl
  | restart delayed proc running => exact Routing.start (ok.congr rfl rfl) admitted

/-! ## The failed state -/

/-- A process exits, or a goroutine goes on, and every restart brings the engine up. -/
def Recovers (d : Driver Plan) : Action Plan → Supervisor Plan → Prop
  | .exit _, _ | .notice _ false _, _ | .wait _, _ => True
  | .wake n o, s => ∀ i plan, s.watchers[n]? = some (.delayed i plan) → Outcomes.startsUp o d plan
  | _, _ => False

/-- A restart that brings the engine up. -/
theorem started_up (up : Outcomes.startsUp o d p) :
    ∃ r i f pub, announce (s.start d o p) = ([], ((s.watched p).setRoutes r i f).told .running pub) ∧
      (Routing d s → Routing d (s.setRoutes r i f)) := by
  rcases start_cases d o s p with ⟨e, st, pub, -, down⟩ | ⟨err, q, r, i, f, st, pub, -, -, down, -⟩ |
    ⟨r, i, f, pub, done, -, kept⟩
  · exact absurd up down
  · exact absurd up down
  · exact ⟨r, i, f, pub, by rw [done]; rfl, kept⟩

theorem announce_running (fine : (announce (s.start d o p)).1 = []) :
    (announce (s.start d o p)).2.state = .running := by
  rcases start_cases d o s p with ⟨e, st, pub, done, -⟩ | ⟨err, q, r, i, f, st, pub, done, failed, -⟩ |
    ⟨r, i, f, pub, done, -⟩
  · rw [done] at fine
    cases fine
  · obtain ⟨pub, same⟩ := announce_eq (s.start d o p)
    rw [same, done] at fine
    exact absurd fine failed
  · rw [done]
    rfl

theorem apply_running (fine : (s.apply d o p).1 = []) : (s.apply d o p).2.state = .running := by
  have done := applied d o s p
  generalize s.apply d o p = r at done fine
  cases done with
  | refused why | unloaded proc live why
  | unstopped proc live supported fails stays | stopped proc live => cases fine
  | fresh idle | replaced proc live => exact announce_running fine
  | loaded proc live => rfl

theorem Routing.recovers (ok : Routing d s) (admitted : Recovers d a s)
    (taken : Supervise.step d a s = some s') : Routing d s' := by
  have copy := taken
  cases stepped taken with
  | failed err | accepted fine => cases admitted
  | @restart n i o plan delayed proc running =>
    obtain ⟨r, i, f, pub, done, kept⟩ := started_up (admitted i plan delayed)
    rw [done]
    exact (kept (ok.congr rfl rfl)).congr rfl rfl
  | late delayed other => exact ok.congr rfl rfl
  | _ =>
    refine ok.step ?_ copy
    trivial

/-- What every step of a recovering supervisor can do to its state. -/
theorem Recovers.state (admitted : Recovers d a s) (taken : step d a s = some s') (ok : Routing d s)
    (counted : Counted limit window s) (failed : s'.state = .failed) :
    (s.state = .failed ∧ s'.installed = s.installed ∧ s'.removalFailed = s.removalFailed) ∨
      (limit ≤ (inWindow window s.now s.restarts).length ∧
        (s'.installed = true → s'.removalFailed = true)) := by
  cases stepped taken with
  | failed err | accepted fine | stop | close | cancel | quit delayed => cases admitted
  | exit live | late delayed other | wait => exact .inl ⟨failed, rfl, rfl⟩
  | @notice n i canceled o r waiting gone done =>
    cases done with
    | idle other => exact .inl ⟨failed, rfl, rfl⟩
    | ended why words | delayed crashed proc running plan words room => cases failed
    | @exhausted attempts pub crashed proc words spent =>
      refine .inr ⟨counted.exhausted (Nat.le_add_right ..) spent, ?_⟩
      have before : Routing d { s with
          budget := { s.budget with attempts := attempts }
          now := s.now + o.lag } := ok.congr rfl rfl
      exact before.removed_or_failed
  | @restart n i o plan delayed proc running =>
    obtain ⟨r, i, f, pub, done, kept⟩ := started_up (admitted i plan delayed)
    rw [done] at failed
    cases failed

/-- After a successful `Apply`, and as long as every restart brings the engine up, the supervisor
enters the failed state only if the budget of the window is used up, and in the failed state no route
is installed whose removal has not been tried in vain. -/
theorem failed_when_exhausted {s₀ s₁ t : Supervisor Plan}
    (before : Run (step d) Tidied (new limit window) s₀) (tidy : Tidied (.apply p o) s₀)
    (applied : step d (.apply p o) s₀ = some s₁) (fine : (s₀.apply d o p).1 = [])
    (run : Run (step d) (Recovers d) s₁ t) :
    (∀ a t', Recovers d a t → step d a t = some t' → t.state ≠ .failed → t'.state = .failed →
      limit ≤ (inWindow window t.now t.restarts).length) ∧
      (t.state = .failed → t.installed = true → t.removalFailed = true) := by
  have start : Routing d s₀ ∧ Counted limit window s₀ := by
    refine before.keeps (fun s => Routing d s ∧ Counted limit window s) ⟨?_, ?_⟩
      fun a s s' both admitted taken => ⟨both.1.step admitted taken, both.2.step taken⟩
    · exact ⟨fun installed => Bool.noConfusion installed, fun routed => Bool.noConfusion routed⟩
    · exact ⟨rfl, rfl, fun now le => rfl⟩
  have running : s₁.state = .running := by
    cases stepped applied with
    | failed err => exact absurd fine err
    | accepted fine => exact apply_running fine
  have along : (Routing d t ∧ Counted limit window t) ∧
      (t.state = .failed → t.installed = true → t.removalFailed = true) := by
    refine run.keeps (fun s => (Routing d s ∧ Counted limit window s) ∧
      (s.state = .failed → s.installed = true → s.removalFailed = true)) ⟨⟨?_, ?_⟩, ?_⟩ ?_
    · exact start.1.step tidy applied
    · exact start.2.step applied
    · rw [running]
      exact fun failed => by cases failed
    · intro a s s' both admitted taken
      refine ⟨⟨both.1.1.recovers admitted taken, both.1.2.step taken⟩, fun failed => ?_⟩
      rcases admitted.state taken both.1.1 both.1.2 failed with ⟨old, installed, removal⟩ | ⟨-, gone⟩
      · rw [installed, removal]
        exact both.2 old
      · exact gone
  refine ⟨fun a t' admitted taken up failed => ?_, along.2⟩
  rcases Recovers.state admitted taken along.1.1 along.1.2 failed with ⟨old, -⟩ | ⟨spent, -⟩
  · exact absurd old up
  · exact spent

/-! ## A restart that fails -/

/-- The state, how many restarts were allowed, whether routes are installed and whether their removal
has failed. -/
def verdict (s : Supervisor Nat) : EngineState × Nat × Bool × Bool :=
  (s.state, s.restarts.length, s.installed, s.removalFailed)

/-- The first restart fails its check: the supervisor has failed after one of five restarts, and the
routes stay installed without an attempt to remove them. -/
theorem failed_restart_final :
    (exec (step plainDriver) (fun _ _ => True)
      [.apply 1 {}, .exit 0, .notice 0 false {}, .wake 0 { fails := (· == .check) }]
      (new 5 600)).map verdict = some (.failed, 1, true, false) := by
  decide

/-- A supervisor that may restart once, with its first process. -/
def onceStarted : Supervisor Nat :=
  { ((new 1 600).apply plainDriver {} 1).2 with accepted := some 1 }

/-- One restart is allowed; the second exit uses up the budget. -/
theorem second_exit_exhausts : ∃ t t', step plainDriver (.apply 1 {}) (new 1 600) = some onceStarted ∧
    Run (step plainDriver) (Recovers plainDriver) onceStarted t ∧
    step plainDriver (.notice 1 false {}) t = some t' ∧ verdict t' = (.failed, 1, false, false) ∧
    1 ≤ (inWindow 600 t.now t.restarts).length := by
  have tidy : Tidied (.apply 1 {}) (new 1 600 : Supervisor Nat) := fun fails => by cases fails
  have crashed : Run (step plainDriver) (Recovers plainDriver) onceStarted _ :=
    (Run.refl.next (.exit 0) trivial rfl).next (.notice 0 false {}) trivial rfl
  have again := (crashed.next (.wake 0 {}) (fun i plan _ stage _ => rfl) rfl).next (.exit 1) trivial rfl
  have policy := failed_when_exhausted .refl tidy rfl (by decide) again
  refine ⟨_, _, rfl, again, rfl, by decide, ?_⟩
  exact policy.1 (.notice 1 false {}) _ trivial rfl (by decide) (by decide)

end Supervisor

end Sora.Supervise
