import Mathlib.Algebra.GroupWithZero.Nat
import Mathlib.Algebra.Order.BigOperators.Group.List
import Mathlib.Algebra.Order.Group.Nat
import Sora.Lib.Run

/-!
# The goroutines of a probe request

`ProbeServers` answers a request with a stream of results.  The results come from goroutines: one
for each engine that measures a group of servers, one that forwards the measurements and dials the
servers without an engine itself, and one for each call of the prober.  They meet in two channels of
fixed size, `out` with a place for each measured server and `results` with one for each requested
item.  The model takes the goroutines step by step in any order.
-/

namespace Sora.Control.Probe

open Sora.Lib List
open Option hiding all_eq_true

variable {i : Nat} {α : Type} {as : List α} {a : α} {cancelled : Bool}

section Pipeline

variable {ι : Type} {messages : List (ι × Bool)} {reported : List ι}

/-! ## The goroutines of a request -/

/-- The goroutine that measures a group of servers through one engine. -/
structure Group (ι : Type) where
  members : List ι
  /-- The batches whose engine has not been started. -/
  later : List (List ι)
  /-- The servers that are being timed. -/
  flying : List ι := []
  /-- The servers whose error `Registry.Measure` has still to report. -/
  failing : List ι := []
  deriving DecidableEq

/-- A call of the prober, with the goroutine of `connect` that relays its results. -/
structure Relay (ι : Type) where
  workers : List ι
  found : List ι := []
  deriving DecidableEq

/-- The goroutine of `measureOutbounds`. -/
inductive Forwarder (ι : Type) where
  | waiting
  | reading (orphans : List ι) (hand : Option ι)
  | failing (orphans : List ι)
  | ended
  deriving DecidableEq

/-- The handler: it reports the servers without an engine, then it sends results to the client. -/
inductive Handler (ι : Type) where
  | queueing (orphans : List ι)
  | receiving
  | returned (ok : Bool)
  deriving DecidableEq

structure State (ι : Type) where
  groups : List (Group ι) := []
  /-- Measurements, and whether they say that no engine carries the server. -/
  out : List (ι × Bool) := []
  forwarder : Forwarder ι := .ended
  relays : List (Relay ι) := []
  results : List ι := []
  sent : List ι := []
  handler : Handler ι := .receiving
  cancelled : Bool := false
  deriving DecidableEq

/-- What stays the same during a request. -/
structure Shape (ι : Type) where
  /-- Servers without an engine are dialled. -/
  auto : Bool
  /-- The name under which the request has a measured server. -/
  spec : ι → ι
  outCapacity : Nat
  total : Nat

inductive GroupAct (ι : Type) where
  /-- The engine of the next batch starts, or does not. -/
  | launch (up : Bool)
  | timed (server : ι)
  /-- `Measure` reports the error of its engine for the next server of the group. -/
  | excuse
  deriving DecidableEq

inductive RelayAct (ι : Type) where
  | dialled (item : ι)
  /-- The prober gives an item up, after the client has cancelled. -/
  | abandon (item : ι)
  | relayed
  deriving DecidableEq

inductive Act (ι : Type) where
  /-- `Measure` reports a server without an engine. -/
  | orphan
  | receive
  | group (i : Nat) (b : GroupAct ι)
  | take
  | give
  /-- All measurements are taken; the prober is called for the servers without an engine. -/
  | fallBack (up : Bool)
  | apologise
  | relay (i : Nat) (b : RelayAct ι)
  | send
  /-- `Send` fails, after the client has cancelled. -/
  | fail
  | finish
  | cancel
  deriving DecidableEq

def Group.idle (g : Group ι) : Bool := g.later.isEmpty && g.flying.isEmpty && g.failing.isEmpty

def Relay.idle (r : Relay ι) : Bool := r.workers.isEmpty && r.found.isEmpty

/-- All groups are done, so that `out` is closed. -/
def State.measured (s : State ι) : Bool := s.groups.all Group.idle

def Forwarder.hasEnded : Forwarder ι → Bool
  | .ended => true
  | _ => false

/-- The wait group is done, so that `results` is closed. -/
def State.drained (s : State ι) : Bool :=
  s.measured && s.forwarder.hasEnded && s.relays.all Relay.idle

/-- All goroutines of the request have ended. -/
def State.Ended (s : State ι) : Prop := s.drained = true ∧ ∃ ok, s.handler = .returned ok

variable [BEq ι] [LawfulBEq ι] {b : GroupAct ι} {s t : State ι} {g : Group ι} {r : Relay ι}

def Group.step (g : Group ι) : GroupAct ι → Option (Group ι × List (ι × Bool))
  | .launch up =>
    match g.flying, g.failing, g.later with
    | [], [], batch :: rest =>
      if up then some ({ g with flying := batch, later := rest }, [])
      -- The error of one batch is reported for all servers of the group.
      else some ({ g with failing := g.members, later := [] }, [])
    | _, _, _ => none
  | .timed server =>
    if server ∈ g.flying then
      some ({ g with flying := g.flying.erase server }, [(server, false)])
    else none
  | .excuse =>
    match g.failing with
    | [] => none
    | server :: rest => some ({ g with failing := rest }, [(server, false)])

def Relay.step (cancelled : Bool) (r : Relay ι) : RelayAct ι → Option (Relay ι × List ι)
  | .dialled item =>
    if item ∈ r.workers then
      some ({ workers := r.workers.erase item, found := r.found ++ [item] }, [])
    else none
  | .abandon item =>
    if cancelled ∧ item ∈ r.workers then some ({ r with workers := r.workers.erase item }, [])
    else none
  | .relayed =>
    match r.found with
    | [] => none
    | item :: rest => some ({ r with found := rest }, [item])

/-! ## What a step can do -/

/-- The steps.  A message is sent when there is a place for it in its channel. -/
inductive Moves (shape : Shape ι) (s : State ι) : Act ι → State ι → Prop
  | orphan {server : ι} {rest : List ι} (queue : s.handler = .queueing (server :: rest))
      (place : s.out.length < shape.outCapacity) :
      Moves shape s .orphan { s with handler := .queueing rest, out := s.out ++ [(server, true)] }
  | receive (queue : s.handler = .queueing []) (waiting : s.forwarder = .waiting) :
      Moves shape s .receive { s with handler := .receiving, forwarder := .reading [] none }
  | group {i : Nat} {b : GroupAct ι} {g g' : Group ι} {messages : List (ι × Bool)}
      (at_i : s.groups[i]? = some g) (moved : g.step b = some (g', messages))
      (places : s.out.length + messages.length ≤ shape.outCapacity) :
      Moves shape s (.group i b) { s with groups := s.groups.set i g', out := s.out ++ messages }
  | takeOrphan {orphans : List ι} {server : ι} {rest : List (ι × Bool)}
      (reading : s.forwarder = .reading orphans none) (out : s.out = (server, true) :: rest)
      (auto : shape.auto = true) :
      Moves shape s .take
        { s with forwarder := .reading (orphans ++ [shape.spec server]) none, out := rest }
  | take {orphans : List ι} {server : ι} {orphaned : Bool} {rest : List (ι × Bool)}
      (reading : s.forwarder = .reading orphans none) (out : s.out = (server, orphaned) :: rest)
      (kept : (orphaned && shape.auto) = false) :
      Moves shape s .take { s with forwarder := .reading orphans (some server), out := rest }
  | give {orphans : List ι} {server : ι} (reading : s.forwarder = .reading orphans (some server))
      (place : s.results.length < shape.total) :
      Moves shape s .give
        { s with forwarder := .reading orphans none, results := s.results ++ [server] }
  -- `connect` does nothing for an empty list.
  | forwarded {up : Bool} (reading : s.forwarder = .reading [] none) (out : s.out = [])
      (measured : s.measured = true) : Moves shape s (.fallBack up) { s with forwarder := .ended }
  | fallBack {orphans : List ι} (reading : s.forwarder = .reading orphans none)
      (out : s.out = []) (measured : s.measured = true) (some' : orphans ≠ []) :
      Moves shape s (.fallBack true)
        { s with forwarder := .ended, relays := s.relays ++ [{ workers := orphans }] }
  | stranded {orphans : List ι} (reading : s.forwarder = .reading orphans none)
      (out : s.out = []) (measured : s.measured = true) (some' : orphans ≠ []) :
      Moves shape s (.fallBack false) { s with forwarder := .failing orphans }
  | apologised (failing : s.forwarder = .failing []) :
      Moves shape s .apologise { s with forwarder := .ended }
  | apologise {server : ι} {rest : List ι} (failing : s.forwarder = .failing (server :: rest))
      (place : s.results.length < shape.total) :
      Moves shape s .apologise
        { s with forwarder := .failing rest, results := s.results ++ [server] }
  | relay {i : Nat} {b : RelayAct ι} {r r' : Relay ι} {reported : List ι}
      (at_i : s.relays[i]? = some r) (moved : r.step s.cancelled b = some (r', reported))
      (places : s.results.length + reported.length ≤ shape.total) :
      Moves shape s (.relay i b)
        { s with relays := s.relays.set i r', results := s.results ++ reported }
  | send {item : ι} {rest : List ι} (receiving : s.handler = .receiving)
      (results : s.results = item :: rest) :
      Moves shape s .send { s with results := rest, sent := s.sent ++ [item] }
  | fail {item : ι} {rest : List ι} (receiving : s.handler = .receiving)
      (results : s.results = item :: rest) (cancelled : s.cancelled = true) :
      Moves shape s .fail { s with handler := .returned false, results := rest }
  -- A call that the client has cancelled does not end well, whatever the handler returns.
  | finish (receiving : s.handler = .receiving) (results : s.results = [])
      (drained : s.drained = true) :
      Moves shape s .finish { s with handler := .returned !s.cancelled }
  | cancel (alive : s.cancelled = false) : Moves shape s .cancel { s with cancelled := true }

/-- A group fails as a whole only before its first batch is started. -/
def Sound : Act ι → State ι → Prop
  | .group i (.launch false), s => ∀ g, s.groups[i]? = some g → g.later.flatten = g.members
  | _, _ => True

/-- A step of a request whose engines do not fail between two batches. -/
def Next (shape : Shape ι) (s t : State ι) : Prop := ∃ a, Sound a s ∧ Moves shape s a t

/-- A step that is not the client's. -/
def Own (shape : Shape ι) (s t : State ι) : Prop :=
  ∃ a, a ≠ .cancel ∧ Sound a s ∧ Moves shape s a t

/-! ## What is on its way -/

def Group.load (g : Group ι) : List ι := g.flying ++ g.failing ++ g.later.flatten

def Relay.load (r : Relay ι) : List ι := r.workers ++ r.found

def Forwarder.load : Forwarder ι → List ι
  | .waiting | .ended => []
  | .reading orphans hand => orphans ++ hand.toList
  | .failing orphans => orphans

def Handler.load : Handler ι → List ι
  | .queueing orphans => orphans
  | .receiving | .returned _ => []

/-- What `out` has or gets. -/
def State.inbound (s : State ι) : List ι :=
  s.handler.load ++ s.groups.flatMap Group.load ++ s.out.map Prod.fst

/-- The items that are not yet in `results`. -/
def State.ahead (s : State ι) : List ι :=
  s.inbound ++ s.forwarder.load ++ s.relays.flatMap Relay.load

/-- The items that the client has been sent, or that are on their way to it. -/
def State.load (s : State ι) : List ι := s.ahead ++ s.results ++ s.sent

theorem sum_map_set (f : α → Nat) (at_i : as[i]? = some a) (b : α) :
    ((as.set i b).map f).sum + f a = (as.map f).sum + f b := by
  induction as generalizing i with
  | nil => cases at_i
  | cons c as ih =>
    cases i with
    | zero =>
      cases at_i
      simp only [set_cons_zero, map_cons, sum_cons]
      omega
    | succ i =>
      have rest := ih (getElem?_cons_succ.symm.trans at_i)
      simp only [set_cons_succ, map_cons, sum_cons]
      omega

omit [LawfulBEq ι] in
theorem count_flatMap_set (f : α → List ι) (at_i : as[i]? = some a) (b : α) (x : ι) :
    ((as.set i b).flatMap f).count x + (f a).count x = (as.flatMap f).count x + (f b).count x := by
  rw [count_flatMap, count_flatMap]
  exact sum_map_set (count x ∘ f) at_i b

theorem count_erase_add {as : List ι} {a : ι} (inside : a ∈ as) (x : ι) :
    (as.erase a).count x + [a].count x = as.count x := by
  have same := (perm_cons_erase inside).count_eq x
  rw [same, count_cons, count_cons, count_nil]
  omega

/-- A group that fails as a whole has not measured anything. -/
def Group.Sound (g : Group ι) : GroupAct ι → Prop
  | .launch false => g.later.flatten = g.members
  | _ => True

omit [BEq ι] [LawfulBEq ι] in
theorem sound_group (sound : Sound (.group i b) s) (at_i : s.groups[i]? = some g) : g.Sound b := by
  cases b with
  | launch up =>
    cases up with
    | false => exact sound g at_i
    | true => trivial
  | timed server | excuse => trivial

variable {g' : Group ι}

/-- A step of a group moves its load to `out`. -/
theorem Group.count_step (moved : g.step b = some (g', messages)) (sound : g.Sound b) (x : ι) :
    g'.load.count x + (messages.map Prod.fst).count x = g.load.count x := by
  cases b with
  | launch up =>
    simp only [Group.step] at moved
    split at moved
    · rename_i batch rest flying failing later
      cases up with
      | true =>
        cases moved
        simp [Group.load, flying, failing, later]
      | false =>
        cases moved
        have whole : g.later.flatten = g.members := sound
        simp [Group.load, failing, whole]
    · cases moved
  | timed server =>
    rw [Group.step] at moved
    split at moved <;> cases moved
    rename_i inside
    have erased := count_erase_add inside x
    simp only [Group.load, count_append, map_cons, map_nil]
    omega
  | excuse =>
    simp only [Group.step] at moved
    split at moved <;> cases moved
    rename_i server rest failing
    simp only [Group.load, failing, count_append, map_cons, map_nil, count_cons, count_nil]
    omega

variable {r' : Relay ι} {shape : Shape ι}

/-- A step of a relay moves its load to `results`, or drops an item of a cancelled request. -/
theorem Relay.count_step {b : RelayAct ι} (moved : r.step cancelled b = some (r', reported)) (x : ι) :
    r'.load.count x + reported.count x ≤ r.load.count x ∧
      (cancelled = false → r'.load.count x + reported.count x = r.load.count x) := by
  cases b with
  | dialled item =>
    rw [Relay.step] at moved
    split at moved <;> cases moved
    rename_i inside
    have erased := count_erase_add inside x
    simp only [Relay.load, count_append, count_nil]
    omega
  | abandon item =>
    rw [Relay.step] at moved
    split at moved <;> cases moved
    rename_i both
    have erased := count_erase_add both.2 x
    refine ⟨?_, fun alive => absurd both.1 (by simp [alive])⟩
    simp only [Relay.load, count_append, count_nil]
    omega
  | relayed =>
    simp only [Relay.step] at moved
    split at moved <;> cases moved
    rename_i item rest found
    simp only [Relay.load, found, count_append, count_cons, count_nil]
    omega

/-- A step loses no item and adds none; once the client has cancelled, items may be dropped. -/
structure Keeps (s t : State ι) : Prop where
  inbound : ∀ x, t.inbound.count x ≤ s.inbound.count x
  load : ∀ x, t.load.count x ≤ s.load.count x
  all : s.cancelled = false → ∀ x, t.load.count x = s.load.count x

omit [LawfulBEq ι] in
theorem Keeps.of_eq (inbound : ∀ x, t.inbound.count x ≤ s.inbound.count x)
    (all : ∀ x, t.load.count x = s.load.count x) : Keeps s t :=
  ⟨inbound, fun x => (all x).le, fun _ => all⟩

theorem keeps_of_moves {a : Act ι} (named : ∀ x, shape.spec x = x)
    (sound : Sound a s) (moves : Moves shape s a t) : Keeps s t := by
  cases moves with
  | orphan queue _ =>
    refine .of_eq (fun x => ?_) fun x => ?_ <;>
      simp only [State.load, State.ahead, State.inbound, Handler.load, queue, map_append,
        map_cons, map_nil, count_append, count_cons, count_nil] <;>
      omega
  | receive queue waiting =>
    refine .of_eq (fun x => ?_) fun x => ?_ <;>
      simp [State.load, State.ahead, State.inbound, Handler.load, Forwarder.load, queue, waiting]
  | @group i b g g' messages at_i moved _ =>
    have inbound : ∀ x, ({ s with groups := s.groups.set i g', out := s.out ++ messages } :
        State ι).inbound.count x = s.inbound.count x := by
      intro x
      have counted := Group.count_step moved (sound_group sound at_i) x
      have placed := count_flatMap_set Group.load at_i g' x
      simp only [State.inbound, count_append, map_append]
      omega
    refine .of_eq (fun x => (inbound x).le) fun x => ?_
    have same := inbound x
    simp only [State.load, State.ahead, count_append, same]
  | takeOrphan reading out _ | take reading out _ =>
    refine .of_eq (fun x => ?_) fun x => ?_ <;>
      simp only [State.load, State.ahead, State.inbound, Forwarder.load, reading, out, named,
        toList_none, toList_some, map_cons, count_append,
        count_cons, count_nil] <;>
      omega
  | give reading _ =>
    refine .of_eq (fun x => le_refl _) fun x => ?_
    simp only [State.load, State.ahead, State.inbound, Forwarder.load, reading,
      toList_none, toList_some, count_append, count_nil]
    omega
  | forwarded reading out measured =>
    refine .of_eq (fun x => le_refl _) fun x => ?_
    simp [State.load, State.ahead, State.inbound, Forwarder.load, reading]
  | fallBack reading out measured some' | stranded reading out measured some' =>
    refine .of_eq (fun x => le_refl _) fun x => ?_
    simp only [State.load, State.ahead, State.inbound, Forwarder.load, Relay.load, reading,
      toList_none, flatMap_append, flatMap_cons, flatMap_nil,
      count_append, count_nil]
    omega
  | apologised failing =>
    refine .of_eq (fun x => le_refl _) fun x => ?_
    simp [State.load, State.ahead, State.inbound, Forwarder.load, failing]
  | apologise failing _ =>
    refine .of_eq (fun x => le_refl _) fun x => ?_
    simp only [State.load, State.ahead, State.inbound, Forwarder.load, failing,
      count_append, count_cons, count_nil]
    omega
  | @relay i b r r' reported at_i moved _ =>
    refine ⟨fun x => le_refl _, fun x => ?_, fun alive x => ?_⟩
    all_goals
      have counted := Relay.count_step moved x
      have placed := count_flatMap_set Relay.load at_i r' x
      simp only [State.load, State.ahead, State.inbound, count_append]
    · omega
    · have same := counted.2 alive
      omega
  | send receiving results =>
    refine .of_eq (fun x => le_refl _) fun x => ?_
    simp only [State.load, State.ahead, State.inbound, results, count_append, count_cons, count_nil]
    omega
  | fail receiving results cancelled =>
    refine ⟨fun x => ?_, fun x => ?_, fun alive => absurd cancelled (by simp [alive])⟩ <;>
      simp only [State.load, State.ahead, State.inbound, Handler.load, results,
        count_append, count_cons, count_nil] <;>
      omega
  | finish receiving results drained =>
    refine .of_eq (fun x => ?_) fun x => ?_ <;>
      simp [State.load, State.ahead, State.inbound, Handler.load, receiving]
  | cancel alive => exact .of_eq (fun x => le_refl _) fun x => rfl

/-! ## The order of the goroutines -/

/-- The forwarder has seen the end of `out`. -/
def Forwarder.closed : Forwarder ι → Bool
  | .waiting | .reading .. => false
  | .failing _ | .ended => true

structure Order (s : State ι) : Prop where
  /-- The forwarder is started when all servers without an engine are reported. -/
  waiting : s.forwarder = .waiting ↔ ∃ orphans, s.handler = .queueing orphans
  closed : s.forwarder.closed = true → s.measured = true ∧ s.out = []

theorem Group.step_idle (idle : g.idle = true) (b : GroupAct ι) : g.step b = none := by
  simp only [Group.idle, Bool.and_eq_true, List.isEmpty_iff] at idle
  obtain ⟨⟨later, flying⟩, failing⟩ := idle
  cases b <;> simp [Group.step, later, flying, failing]

theorem not_measured_of_step {p : Group ι × List (ι × Bool)} (at_i : s.groups[i]? = some g)
    (moved : g.step b = some p) : s.measured ≠ true := by
  intro measured
  have idle := all_eq_true.mp measured g (mem_of_getElem? at_i)
  rw [Group.step_idle idle] at moved
  cases moved

theorem order_of_moves {a : Act ι} (order : Order s) (moves : Moves shape s a t) :
    Order t := by
  have waits : s.forwarder ≠ .waiting → ¬ ∃ orphans, s.handler = .queueing orphans :=
    fun runs queue => runs (order.waiting.mpr queue)
  cases moves with
  | orphan queue _ =>
    have waiting := order.waiting.mpr ⟨_, queue⟩
    refine ⟨⟨fun _ => ⟨_, rfl⟩, fun _ => waiting⟩, fun closed => ?_⟩
    rw [waiting] at closed
    cases closed
  | receive queue waiting =>
    exact ⟨⟨nofun, fun queue' => nomatch queue'.choose_spec⟩, nofun⟩
  | group at_i moved _ =>
    refine ⟨order.waiting, fun closed => ?_⟩
    exact absurd (order.closed closed).1 (not_measured_of_step at_i moved)
  | takeOrphan reading out _ | take reading out _ | give reading _ =>
    exact ⟨⟨nofun, fun queue => absurd queue (waits (by rw [reading]; nofun))⟩, nofun⟩
  | forwarded reading out measured | fallBack reading out measured some'
  | stranded reading out measured some' =>
    refine ⟨⟨nofun, fun queue => absurd queue (waits (by rw [reading]; nofun))⟩, fun _ => ?_⟩
    exact ⟨measured, out⟩
  | apologised failing | apologise failing _ =>
    have closed := order.closed (by rw [failing]; rfl)
    exact ⟨⟨nofun, fun queue => absurd queue (waits (by rw [failing]; nofun))⟩, fun _ => closed⟩
  | relay at_i moved _ | send receiving results => exact ⟨order.waiting, order.closed⟩
  | fail receiving results cancelled | finish receiving results drained =>
    refine ⟨⟨fun waiting => ?_, fun queue => nomatch queue.choose_spec⟩, order.closed⟩
    obtain ⟨orphans, queue⟩ := order.waiting.mp waiting
    rw [receiving] at queue
    cases queue
  | cancel alive => exact ⟨order.waiting, order.closed⟩

/-! ## Every request comes to its end -/

def Group.weight (g : Group ι) : Nat := 8 * g.load.length + g.later.length

def Relay.weight (r : Relay ι) : Nat := 5 * r.workers.length + 4 * r.found.length

def Forwarder.weight : Forwarder ι → Nat
  | .waiting => 3
  | .reading orphans hand => 2 + 6 * (orphans.length + hand.toList.length)
  | .failing orphans => 1 + 5 * orphans.length
  | .ended => 0

def Handler.weight : Handler ι → Nat
  | .queueing orphans => 2 + 8 * orphans.length
  | .receiving => 1
  | .returned _ => 0

/-- The number of steps that are left, at most: an item is the lighter the nearer it is to the
client. -/
def State.weight (s : State ι) : Nat :=
  s.handler.weight + (s.groups.map Group.weight).sum + 7 * s.out.length + s.forwarder.weight +
    (s.relays.map Relay.weight).sum + 2 * s.results.length + (if s.cancelled then 0 else 1)

theorem Group.weight_step (moved : g.step b = some (g', messages)) (sound : g.Sound b) :
    g'.weight + 7 * messages.length < g.weight := by
  cases b with
  | launch up =>
    simp only [Group.step] at moved
    split at moved
    · rename_i batch rest flying failing later
      cases up with
      | true =>
        cases moved
        simp [Group.weight, Group.load, flying, failing, later]
      | false =>
        cases moved
        have whole : g.later.flatten = g.members := sound
        have nonempty : 0 < g.later.length := by simp [later]
        simp only [Group.weight, Group.load, failing, whole, flatten_nil, append_nil, length_nil]
        omega
    · cases moved
  | timed server =>
    rw [Group.step] at moved
    split at moved <;> cases moved
    rename_i inside
    have erased := length_erase_of_mem inside
    have nonempty := length_pos_of_mem inside
    simp only [Group.weight, Group.load, length_append, length_cons, length_nil]
    omega
  | excuse =>
    simp only [Group.step] at moved
    split at moved <;> cases moved
    rename_i server rest failing
    simp only [Group.weight, Group.load, failing, length_append, length_cons, length_nil]
    omega

theorem Relay.weight_step {b : RelayAct ι} (moved : r.step cancelled b = some (r', reported)) :
    r'.weight + 2 * reported.length < r.weight := by
  cases b with
  | dialled item =>
    rw [Relay.step] at moved
    split at moved <;> cases moved
    rename_i inside
    have erased := length_erase_of_mem inside
    have nonempty := length_pos_of_mem inside
    simp only [Relay.weight, length_append, length_cons, length_nil]
    omega
  | abandon item =>
    rw [Relay.step] at moved
    split at moved <;> cases moved
    rename_i both
    have erased := length_erase_of_mem both.2
    have nonempty := length_pos_of_mem both.2
    simp only [Relay.weight, length_nil]
    omega
  | relayed =>
    simp only [Relay.step] at moved
    split at moved <;> cases moved
    rename_i item rest found
    simp only [Relay.weight, found, length_cons, length_nil]
    omega

theorem weight_of_moves {a : Act ι} (sound : Sound a s)
    (moves : Moves shape s a t) : t.weight < s.weight := by
  cases moves with
  | orphan queue _ =>
    simp only [State.weight, Handler.weight, queue, length_append, length_cons, length_nil]
    omega
  | receive queue waiting =>
    simp only [State.weight, Handler.weight, Forwarder.weight, queue, waiting, length_nil,
      toList_none]
    omega
  | @group i b g g' messages at_i moved _ =>
    have lighter := Group.weight_step moved (sound_group sound at_i)
    have placed := sum_map_set Group.weight at_i g'
    simp only [State.weight, length_append]
    omega
  | takeOrphan reading out _ | take reading out _ =>
    simp only [State.weight, Forwarder.weight, reading, out, length_append, length_cons,
      length_nil, toList_some]
    omega
  | give reading _ =>
    simp only [State.weight, Forwarder.weight, reading, length_append, length_cons,
      length_nil, toList_none, toList_some]
    omega
  | forwarded reading out measured =>
    simp only [State.weight, Forwarder.weight, reading]
    omega
  | fallBack reading out measured some' | stranded reading out measured some' =>
    simp only [State.weight, Forwarder.weight, Relay.weight, reading, map_append,
      map_cons, map_nil, sum_append, sum_cons, sum_nil,
      toList_none]
    omega
  | apologised failing =>
    simp only [State.weight, Forwarder.weight, failing]
    omega
  | apologise failing _ =>
    simp only [State.weight, Forwarder.weight, failing, length_append, length_cons, length_nil]
    omega
  | @relay i b r r' reported at_i moved _ =>
    have lighter := Relay.weight_step moved
    have placed := sum_map_set Relay.weight at_i r'
    simp only [State.weight, length_append]
    omega
  | send receiving results =>
    simp only [State.weight, results, length_cons]
    omega
  | fail receiving results cancelled =>
    simp only [State.weight, Handler.weight, results, length_cons]
    omega
  | finish receiving results drained =>
    simp only [State.weight, Handler.weight, receiving]
    omega
  | cancel alive =>
    simp only [State.weight, alive]
    simp

/-- A group that is not done can go on. -/
theorem Group.progress (busy : g.idle ≠ true) :
    ∃ b g' messages, g.Sound b ∧ g.step b = some (g', messages) ∧
      messages.length ≤ g.load.length := by
  match flying : g.flying, failing : g.failing, later : g.later with
  | server :: rest, _, _ =>
    refine ⟨.timed server, _, _, trivial, if_pos (by simp [flying]), ?_⟩
    simp [Group.load, flying]
  | [], server :: rest, _ =>
    refine ⟨.excuse, { g with failing := rest }, [(server, false)], trivial, ?_, ?_⟩
    · simp only [Group.step, failing]
    · simp only [Group.load, failing, length_append, length_cons, length_nil]
      omega
  | [], [], batch :: rest =>
    refine ⟨.launch true, { g with flying := batch, later := rest }, [], trivial, ?_, ?_⟩
    · simp only [Group.step, flying, failing, later, if_true]
    · exact Nat.zero_le _
  | [], [], [] => exact absurd (by simp [Group.idle, flying, failing, later]) busy

theorem Relay.progress (busy : r.idle ≠ true) (cancelled : Bool) :
    ∃ b r' reported, r.step cancelled b = some (r', reported) ∧
      reported.length ≤ r.load.length := by
  match workers : r.workers, found : r.found with
  | item :: rest, _ =>
    refine ⟨.dialled item, _, _, if_pos (by simp [workers]), ?_⟩
    exact Nat.zero_le _
  | [], item :: rest =>
    refine ⟨.relayed, { r with found := rest }, [item], ?_, ?_⟩
    · simp only [Relay.step, found]
    · simp only [Relay.load, found, length_append, length_cons, length_nil]
      omega
  | [], [] => exact absurd (by simp [Relay.idle, workers, found]) busy

theorem exists_busy {p : α → Bool} (some' : as.all p ≠ true) :
    ∃ (i : Nat) (a : α), as[i]? = some a ∧ p a ≠ true := by
  rw [ne_eq, all_eq_true, not_forall] at some'
  obtain ⟨a, outside⟩ := some'
  rw [Classical.not_imp] at outside
  obtain ⟨i, at_i⟩ := mem_iff_getElem?.mp outside.1
  exact ⟨i, a, at_i, outside.2⟩

omit [BEq ι] [LawfulBEq ι] in
theorem length_le_flatMap (f : α → List ι) (at_i : as[i]? = some a) :
    (f a).length ≤ (as.flatMap f).length := by
  rw [length_flatMap]
  exact single_le_sum (fun _ _ => Nat.zero_le _) _
    (mem_map_of_mem (mem_of_getElem? at_i))

/-- The channels are large enough. -/
structure Room (shape : Shape ι) (s : State ι) : Prop where
  inbound : s.inbound.length ≤ shape.outCapacity
  load : s.load.length ≤ shape.total

omit [BEq ι] [LawfulBEq ι] in
theorem Room.places {n : Nat} (room : Room shape s) (ahead : n ≤ s.ahead.length) :
    s.results.length + n ≤ shape.total := by
  have bound := room.load
  simp only [State.load, length_append] at bound
  omega

theorem group_progress (room : Room shape s) (open' : s.measured ≠ true) :
    ∃ t, Own shape s t := by
  obtain ⟨i, g, at_i, busy⟩ := exists_busy open'
  obtain ⟨b, g', messages, sound, moved, few⟩ := Group.progress busy
  have bound := room.inbound
  have inside := length_le_flatMap Group.load at_i
  simp only [State.inbound, length_append, length_map] at bound
  refine ⟨_, .group i b, nofun, ?_, .group at_i moved (by omega)⟩
  cases b with
  | launch up =>
    cases up with
    | true => trivial
    | false =>
      intro g₁ at_i₁
      cases Option.some.inj (at_i.symm.trans at_i₁)
      exact sound
  | timed server | excuse => trivial

theorem relay_progress (room : Room shape s) (open' : s.relays.all Relay.idle ≠ true) :
    ∃ t, Own shape s t := by
  obtain ⟨i, r, at_i, busy⟩ := exists_busy open'
  obtain ⟨b, r', reported, moved, few⟩ := Relay.progress busy s.cancelled
  have inside := length_le_flatMap Relay.load at_i
  refine ⟨_, .relay i b, nofun, trivial, .relay at_i moved (room.places ?_)⟩
  simp only [State.ahead, length_append]
  omega

/-- The forwarder goes on when the groups are done. -/
theorem forwarder_progress (room : Room shape s) (measured : s.measured = true)
    (started : s.forwarder ≠ .waiting) (running : s.forwarder.hasEnded ≠ true) :
    ∃ t, Own shape s t := by
  have place : 1 ≤ s.forwarder.load.length → s.results.length < shape.total := by
    intro held
    refine room.places (n := 1) ?_
    simp only [State.ahead, length_append]
    omega
  match at_ : s.forwarder with
  | .waiting => exact absurd at_ started
  | .ended => exact absurd (by rw [at_]; rfl) running
  | .reading orphans (some server) =>
    exact ⟨_, .give, nofun, trivial, .give at_ (place (by simp [Forwarder.load, at_]))⟩
  | .reading orphans none =>
    match out : s.out with
    | (server, orphaned) :: rest =>
      cases test : orphaned && shape.auto with
      | true =>
        rw [Bool.and_eq_true] at test
        exact ⟨_, .take, nofun, trivial, .takeOrphan at_ (test.1 ▸ out) test.2⟩
      | false => exact ⟨_, .take, nofun, trivial, .take at_ out test⟩
    | [] =>
      by_cases none' : orphans = []
      · exact ⟨_, .fallBack true, nofun, trivial, .forwarded (none' ▸ at_) out measured⟩
      · exact ⟨_, .fallBack true, nofun, trivial, .fallBack at_ out measured none'⟩
  | .failing [] => exact ⟨_, .apologise, nofun, trivial, .apologised at_⟩
  | .failing (server :: rest) =>
    exact ⟨_, .apologise, nofun, trivial, .apologise at_ (place (by simp [Forwarder.load, at_]))⟩

/-- A request that has not ended goes on by itself. -/
theorem progress (order : Order s) (room : Room shape s) :
    s.Ended ∨ ∃ t, Own shape s t := by
  match at_ : s.handler with
  | .queueing (server :: rest) =>
    have bound := room.inbound
    simp only [State.inbound, Handler.load, at_, length_append, length_cons, length_map] at bound
    exact .inr ⟨_, .orphan, nofun, trivial, .orphan at_ (by omega)⟩
  | .queueing [] =>
    exact .inr ⟨_, .receive, nofun, trivial, .receive at_ (order.waiting.mpr ⟨_, at_⟩)⟩
  | .receiving | .returned ok =>
    have started : s.forwarder ≠ .waiting := by
      intro waiting
      obtain ⟨orphans, queue⟩ := order.waiting.mp waiting
      rw [at_] at queue
      cases queue
    by_cases measured : s.measured = true
    · by_cases ended : s.forwarder.hasEnded = true
      · by_cases idle : s.relays.all Relay.idle = true
        · have drained : s.drained = true := by simp [State.drained, measured, ended, idle]
          first
          | exact .inl ⟨drained, _, at_⟩
          | match results : s.results with
            | item :: rest => exact .inr ⟨_, .send, nofun, trivial, .send at_ results⟩
            | [] => exact .inr ⟨_, .finish, nofun, trivial, .finish at_ results drained⟩
        · exact .inr (relay_progress room idle)
      · exact .inr (forwarder_progress room measured started ended)
    · exact .inr (group_progress room measured)

/-! ## Whole runs -/

theorem returned_of_moves {a : Act ι} {ok : Bool} (moves : Moves shape s a t)
    (returned : s.handler = .returned ok) : t.handler = .returned ok ∧ t.sent = s.sent := by
  cases moves with
  | orphan queue _ | receive queue _ => exact nomatch queue.symm.trans returned
  | send receiving _ | fail receiving _ _ | finish receiving _ _ =>
    exact nomatch receiving.symm.trans returned
  | _ => exact ⟨returned, rfl⟩

/-- The handler returns well only when all results are sent. -/
theorem finish_of_moves {a : Act ι} (moves : Moves shape s a t)
    (returned : t.handler = .returned true) (before : s.handler ≠ .returned true) :
    s.handler = .receiving ∧ s.results = [] ∧ s.drained = true ∧ s.cancelled = false ∧
      t.sent = s.sent := by
  cases moves with
  | orphan _ _ | receive _ _ | fail _ _ _ => cases returned
  | finish receiving results drained =>
    have alive : (!s.cancelled) = true := Handler.returned.inj returned
    exact ⟨receiving, results, drained, by simpa using alive, rfl⟩
  | _ => exact absurd returned before

theorem alive_of_moves {a : Act ι} (moves : Moves shape s a t)
    (alive : t.cancelled = false) : s.cancelled = false := by
  cases moves with
  | cancel _ => cases alive
  | _ => exact alive

omit [BEq ι] [LawfulBEq ι] in
theorem flatMap_idle {idle : α → Bool} {load : α → List ι}
    (empty : ∀ a, idle a = true → load a = []) (all : as.all idle = true) :
    as.flatMap load = [] := by
  rw [flatMap_eq_nil_iff]
  exact fun a inside => empty a (all_eq_true.mp all a inside)

omit [BEq ι] [LawfulBEq ι] in
theorem Group.load_idle (g : Group ι) (idle : g.idle = true) : g.load = [] := by
  simp only [Group.idle, Bool.and_eq_true, List.isEmpty_iff] at idle
  obtain ⟨⟨later, flying⟩, failing⟩ := idle
  simp [Group.load, later, flying, failing]

omit [BEq ι] [LawfulBEq ι] in
theorem Relay.load_idle (r : Relay ι) (idle : r.idle = true) : r.load = [] := by
  simp only [Relay.idle, Bool.and_eq_true, List.isEmpty_iff] at idle
  simp [Relay.load, idle.1, idle.2]

omit [BEq ι] [LawfulBEq ι] in
theorem ahead_drained (order : Order s) (receiving : s.handler = .receiving)
    (drained : s.drained = true) : s.ahead = [] := by
  simp only [State.drained, Bool.and_eq_true] at drained
  obtain ⟨⟨measured, hasEnded⟩, idle⟩ := drained
  have ended : s.forwarder = .ended := by
    match at_ : s.forwarder with
    | .ended => rfl
    | .waiting | .reading _ _ | .failing _ =>
      rw [at_] at hasEnded
      cases hasEnded
  have out := (order.closed (by rw [ended]; rfl)).2
  have groups : s.groups.flatMap Group.load = [] := flatMap_idle Group.load_idle measured
  have relays : s.relays.flatMap Relay.load = [] := flatMap_idle Relay.load_idle idle
  simp [State.ahead, State.inbound, Handler.load, Forwarder.load, receiving, ended, out, groups,
    relays]

theorem length_le_of_count {as bs : List ι} (le : ∀ x, as.count x ≤ bs.count x) :
    as.length ≤ bs.length :=
  (subperm_ext_iff.mpr fun x _ => le x).length_le

/-- What holds along every run of a request for `items`. -/
structure Inv (shape : Shape ι) (items : List ι) (s : State ι) : Prop where
  order : Order s
  inbound : s.inbound.length ≤ shape.outCapacity
  load : ∀ x, s.load.count x ≤ items.count x
  all : s.cancelled = false → s.handler ≠ .returned false →
    ∀ x, s.load.count x = items.count x
  done : s.handler = .returned true → s.sent.Perm items

variable {items : List ι}

theorem Inv.next (named : ∀ x, shape.spec x = x) (inv : Inv shape items s)
    (next : Next shape s t) : Inv shape items t := by
  obtain ⟨a, sound, moves⟩ := next
  have keeps := keeps_of_moves named sound moves
  refine ⟨order_of_moves inv.order moves, (length_le_of_count keeps.inbound).trans inv.inbound,
    fun x => (keeps.load x).trans (inv.load x), fun alive open' x => ?_, fun returned => ?_⟩
  · have before := alive_of_moves moves alive
    have unreturned : s.handler ≠ .returned false :=
      fun returned => open' (returned_of_moves moves returned).1
    exact (keeps.all before x).trans (inv.all before unreturned x)
  · by_cases already : s.handler = .returned true
    · rw [(returned_of_moves moves already).2]
      exact inv.done already
    · obtain ⟨receiving, results, drained, alive, sent⟩ := finish_of_moves moves returned already
      have whole := inv.all alive (by rw [receiving]; nofun)
      rw [State.load, ahead_drained inv.order receiving drained, results] at whole
      rw [sent]
      exact perm_iff_count.mpr whole

theorem Inv.room (small : items.length ≤ shape.total) (inv : Inv shape items s) : Room shape s :=
  ⟨inv.inbound, (length_le_of_count inv.load).trans small⟩

/-- Along every sound run, the handler returns well only after one result for each item, and all
goroutines end. -/
theorem Inv.run (named : ∀ x, shape.spec x = x) (small : items.length ≤ shape.total)
    (init : Inv shape items s) (run : Relation.ReflTransGen (Next shape) s t) :
    (t.handler = .returned true → t.sent.Perm items) ∧
      Inevitably (Next shape) (Own shape) State.Ended t := by
  have inv : Inv shape items t := by
    induction run with
    | refl => exact init
    | tail before next ih => exact ih.next named next
  refine ⟨inv.done, ?_⟩
  exact .of_weight (Inv shape items) State.weight (fun u v inv next => inv.next named next)
    (fun u v _ ⟨a, sound, moves⟩ => weight_of_moves sound moves)
    (fun u inv => progress inv.order (inv.room small)) inv

/-- A batch that fails after another one was measured: its group's error is reported for servers
whose results are on their way already. -/
theorem late_failure_duplicates (at_i : s.groups[i]? = some g)
    (moves : Moves shape s (.group i (.launch false)) t) (x : ι) :
    t.load.count x + g.later.flatten.count x = s.load.count x + g.members.count x := by
  cases moves with
  | @group _ _ g₁ g' messages at_i₁ moved _ =>
    cases at_i.symm.trans at_i₁
    have placed := count_flatMap_set Group.load at_i g' x
    simp only [Group.step] at moved
    split at moved
    · rename_i batch rest flying failing later
      cases moved
      have old : g.load = g.later.flatten := by simp [Group.load, flying, failing]
      have new : Group.load { g with failing := g.members, later := [] } = g.members := by
        simp [Group.load, flying]
      rw [old, new] at placed
      simp only [State.load, State.ahead, State.inbound, count_append, append_nil]
      omega
    · cases moved

end Pipeline

end Sora.Control.Probe
