import Sora.Control.Pinned
import Sora.Control.Pipeline
import Sora.Control.ShareLinks
import Sora.Control.Status

/-!
# Probe requests

The handler of `ProbeServers` checks a request, reads its outbounds, calls the prober and the
engines, and then leaves the results to the goroutines of `Sora.Control.Pipeline`.  An error on the
way there goes through `transportStatus`, which makes success of most of them.
-/

namespace Sora.Control.Probe

open Sora.Lib Sora.Contract List

inductive ProbeMethod where
  | unspecified
  | engine
  | connect
  deriving DecidableEq

/-- `ProbeServersRequest`.  Endpoints have no id, and neither have their results. -/
structure Request where
  version : Option Wire.ApiVersion
  endpoints : Nat := 0
  outbounds : List PlanOutbound := []
  method : ProbeMethod := .unspecified
  engines : List EngineKind := []

structure Core where
  front : Wire.Front
  gzip : Gzip
  vault : Entries
  /-- There is a prober. -/
  prober : Bool
  /-- It has a place for the endpoints. -/
  free : Bool
  /-- It has a place for the outbounds. -/
  freeLater : Bool
  measurer : Option Registry

/-- The ids of the results that a request is to get. -/
def Request.items (req : Request) : List Bytes :=
  List.replicate req.endpoints [] ++ req.outbounds.map fun o => o.id

def Request.total (req : Request) : Nat := req.endpoints + req.outbounds.length

def probeBatch : Nat := 128

/-- The batches of Xray's `Measure`. -/
def batches (servers : List Bytes) : List (List Bytes) :=
  if servers = [] then []
  else servers.take probeBatch :: batches (servers.drop probeBatch)
termination_by servers.length
decreasing_by
  rename_i some'
  have nonempty := List.length_pos_iff.mpr some'
  simp only [List.length_drop, probeBatch]
  omega

/-- The goroutine for the servers of one engine. -/
def groupFor (kind : EngineKind) (members : List Bytes) : Group Bytes where
  members
  later := if kind = .xray then batches members else [members]

section

variable (uses : List (Outbound × Option EngineKind))

def membersOf (kind : EngineKind) : List Bytes :=
  (uses.filter fun u => u.2 = some kind).map fun u => u.1.id

def orphansOf : List Bytes := (uses.filter fun u => u.2 = none).map fun u => u.1.id

/-- `byKind`, which has the engines of at least one server. -/
def groupsOf : List (Group Bytes) :=
  (drivers.filter fun kind => membersOf uses kind ≠ []).map fun kind =>
    groupFor kind (membersOf uses kind)

end

namespace Core

variable (core : Core) (req : Request)

/-- The outbounds are measured through engines. -/
def measures : Bool := core.measurer.isSome && decide (req.method ≠ .connect)

/-- The outbounds that could be read, with what was read. -/
def measured : List (PlanOutbound × Outbound) :=
  req.outbounds.filterMap fun o => (o.fromProto core.gzip core.vault).map fun x => (o, x)

/-- The outbounds that could not be read; their errors are results. -/
def unread : List Bytes :=
  (req.outbounds.filter fun o => (o.fromProto core.gzip core.vault).isNone).map fun o => o.id

/-- `bySpec`: the last outbound of the request that was read with the id. -/
def spec (id : Bytes) : Bytes :=
  (((core.measured req).filter fun p => p.2.id == id).getLast?.map fun p => p.1.id).getD id

def shape : Shape Bytes where
  auto := decide (req.method = .unspecified)
  spec := if core.measures req then core.spec req else id
  outCapacity := if core.measures req then (core.measured req).length else 0
  total := req.total

/-- What keeps `Prober.Probe` from starting. -/
def dial (free : Bool) : Option Wire.Obstacle :=
  if !core.prober then some .noProber else if !free then some .proberBusy else none

/-- The handler returns early.  Its context is cancelled then. -/
def refused (o : Wire.Obstacle) (s : State Bytes) : State Bytes :=
  { s with handler := .returned (Wire.transportStatus o.failure).isNone, cancelled := true }

/-- The outbounds are dialled, next to the endpoints. -/
def dialAll (relays : List (Relay Bytes)) : State Bytes :=
  match core.dial core.freeLater with
  | some o => refused o { relays }
  | none => { relays := relays ++ [{ workers := req.outbounds.map fun o => o.id }] }

def throughEngines (r : Registry) (relays : List (Relay Bytes)) : State Bytes :=
  match r.measureWith req.engines ((core.measured req).map Prod.snd) with
  | none =>
    refused (.unknownEngine (((req.engines.find? (· ∉ drivers)).map EngineKind.name).getD []))
      { relays, results := core.unread req }
  | some uses =>
    { groups := groupsOf uses
      forwarder := .waiting
      relays
      results := core.unread req
      handler := .queueing (orphansOf uses) }

/-- `measureOutbounds`. -/
def measure (relays : List (Relay Bytes)) : State Bytes :=
  match core.measurer, req.method with
  | some r, .unspecified | some r, .engine => core.throughEngines req r relays
  | none, .engine => refused .noMeasurer { relays }
  | _, _ => core.dialAll req relays

/-- `ProbeServers`, until the goroutines are started. -/
def start : State Bytes :=
  match core.front.checkVersion req.version with
  | .error e => { handler := .returned (Wire.transportStatus e).isNone }
  | .ok _ =>
    if req.total = 0 ∨ Wire.maxProbeEndpoints < req.total then { handler := .returned false }
    else if req.endpoints = 0 then core.measure req []
    else
      match core.dial core.free with
      | some o => refused o {}
      | none =>
        let relays := [{ workers := List.replicate req.endpoints [] }]
        if req.outbounds = [] then { relays } else core.measure req relays

/-- Nothing keeps the prober and the engines from starting, and the ids of the servers that are
measured have no blanks around them. -/
structure Clear : Prop where
  endpoints : 0 < req.endpoints → core.prober = true ∧ core.free = true
  dialled : req.outbounds ≠ [] → core.measurer = none ∨ req.method = .connect →
    req.method ≠ .engine ∧ core.prober = true ∧ core.freeLater = true
  engines : ∀ r, core.measurer = some r → req.method ≠ .connect →
    r.preference.length = 1 ∨ ∀ kind ∈ req.engines, kind ∈ drivers
  named : core.measurer.isSome = true → req.method ≠ .connect → ∀ o ∈ req.outbounds,
    (o.fromProto core.gzip core.vault).isSome = true → trimSpace o.id = o.id

end Core

/-! ## The split over engines -/

theorem flatten_batches (servers : List Bytes) : (batches servers).flatten = servers := by
  fun_induction batches servers with
  | case1 => rfl
  | case2 servers some' ih => rw [flatten_cons, ih, take_append_drop]

theorem load_groupFor (kind : EngineKind) (members : List Bytes) :
    (groupFor kind members).load = members := by
  simp only [groupFor]
  split
  · exact flatten_batches members
  · exact flatten_singleton

theorem load_groupsOf (uses : List (Outbound × Option EngineKind)) :
    (groupsOf uses).flatMap Group.load = drivers.flatMap (membersOf uses) := by
  rw [groupsOf, flatMap_map]
  simp only [load_groupFor]
  induction drivers with
  | nil => rfl
  | cons kind kinds ih =>
    rw [filter_cons]
    split
    · rw [flatMap_cons, flatMap_cons, ih]
    · rename_i empty
      have none' : membersOf uses kind = [] := by simpa using empty
      rw [flatMap_cons, ih, none', nil_append]

variable {uses : List (Outbound × Option EngineKind)} {r : Registry} {engines : List EngineKind}
    {relays : List (Relay Bytes)}

/-- Every server is in the group of one engine, or without an engine. -/
theorem count_split (known : ∀ u ∈ uses, ∀ kind, u.2 = some kind → kind ∈ drivers) (x : Bytes) :
    (orphansOf uses).count x + ((groupsOf uses).flatMap Group.load).count x =
      (uses.map fun u => u.1.id).count x := by
  rw [load_groupsOf]
  induction uses with
  | nil => rfl
  | cons u uses ih =>
    have rest := ih fun v inside => known v (mem_cons_of_mem _ inside)
    simp only [drivers, flatMap_cons, flatMap_nil, count_append, membersOf, orphansOf] at rest ⊢
    cases chosen : u.2 with
    | none =>
      simp only [filter_cons, chosen, reduceCtorEq, decide_false, decide_true, if_true, if_false,
        map_cons, count_cons]
      omega
    | some kind =>
      have driver := known u mem_cons_self kind chosen
      simp only [drivers, mem_cons, not_mem_nil, or_false] at driver
      rcases driver with rfl | rfl | rfl <;>
        simp only [filter_cons, chosen, reduceCtorEq, Option.some.injEq, decide_false,
          decide_true, if_true, if_false, map_cons, count_cons] <;>
        omega

theorem consider_driver {linux : Bool} {found : List Availability} {p : Plan} {kind : EngineKind}
    (passes : (consider linux found p kind).isOk = true) : kind ∈ drivers := by
  cases kind with
  | other name =>
    simp only [consider] at passes
    split at passes
    · cases passes
    · split at passes <;> cases passes
  | _ => decide

theorem measureWith_some {outbounds : List Outbound}
    (made : r.measureWith engines outbounds = some uses) :
    uses.map Prod.fst = outbounds ∧ ∀ u ∈ uses, ∀ kind, u.2 = some kind → kind ∈ drivers := by
  obtain ⟨order, -, rfl⟩ := Option.map_eq_some_iff.mp made
  refine ⟨by rw [map_map]; exact map_id _, fun u inside kind chosen => ?_⟩
  obtain ⟨o, -, rfl⟩ := mem_map.mp inside
  have passes := find?_some chosen
  exact consider_driver passes

/-! ## The start of a request -/

theorem checkVersion_status {front : Wire.Front} {version : Option Wire.ApiVersion}
    {e : Wire.Failure} (refused : front.checkVersion version = .error e) :
    (Wire.transportStatus e).isNone = false := by
  have mismatch : e.code = .versionMismatch := by
    simp only [Wire.Front.checkVersion] at refused
    split at refused
    · cases refused
      rfl
    · split at refused <;> cases refused
      rfl
  rw [Wire.transportStatus, if_pos (by rw [mismatch]; decide)]
  rfl

theorem inv_returned (shape : Shape Bytes) (items : List Bytes) :
    Inv shape items { handler := .returned false } where
  order := ⟨⟨nofun, fun queue => nomatch queue.choose_spec⟩, fun _ => ⟨rfl, rfl⟩⟩
  inbound := Nat.zero_le _
  load := fun _ => Nat.zero_le _
  all := fun _ open' => absurd rfl open'
  done := nofun

theorem inv_relays {shape : Shape Bytes} {items : List Bytes}
    (whole : ∀ x, (relays.flatMap Relay.load).count x = items.count x) :
    Inv shape items { relays } where
  order := ⟨⟨nofun, fun queue => nomatch queue.choose_spec⟩, fun _ => ⟨rfl, rfl⟩⟩
  inbound := Nat.zero_le _
  load := fun x => by
    simp [State.load, State.ahead, State.inbound, Handler.load, Forwarder.load, whole x]
  all := fun _ _ x => by
    simp [State.load, State.ahead, State.inbound, Handler.load, Forwarder.load, whole x]
  done := nofun

section

variable {core : Core} {req : Request}

/-- Every outbound is measured under its id, or its error is reported. -/
theorem count_read (named : ∀ o ∈ req.outbounds,
      (o.fromProto core.gzip core.vault).isSome = true → trimSpace o.id = o.id) (x : Bytes) :
    ((core.measured req).map fun p => p.2.id).count x + (core.unread req).count x =
      (req.outbounds.map fun o => o.id).count x := by
  rw [Core.measured, Core.unread]
  generalize req.outbounds = outbounds at named
  induction outbounds with
  | nil => rfl
  | cons o outbounds ih =>
    have rest := ih fun o' inside => named o' (mem_cons_of_mem _ inside)
    cases read : o.fromProto core.gzip core.vault with
    | none =>
      simp only [filterMap_cons, filter_cons, read, Option.map_none, Option.isNone_none,
        if_true, map_cons, count_cons]
      omega
    | some y =>
      have same : y.id = o.id :=
        (PlanOutbound.fromProto_some read).1.trans
          (named o mem_cons_self (by rw [read]; rfl))
      simp only [filterMap_cons, filter_cons, read, Option.map_some, Option.isNone_some,
        Bool.false_eq_true, if_false, map_cons, count_cons, same]
      omega

theorem spec_named (clear : core.Clear req) (x : Bytes) : (core.shape req).spec x = x := by
  rw [Core.shape]
  by_cases measures : core.measures req = true
  · simp only [if_pos measures, Core.spec]
    rw [Core.measures, Bool.and_eq_true, decide_eq_true_eq] at measures
    cases last : ((core.measured req).filter fun p => p.2.id == x).getLast? with
    | none => rfl
    | some p =>
      obtain ⟨member, named⟩ := mem_filter.mp (mem_of_getLast? last)
      obtain ⟨o, inside, paired⟩ := mem_filterMap.mp member
      obtain ⟨y, read, rfl⟩ := Option.map_eq_some_iff.mp paired
      have trimmed := clear.named measures.1 measures.2 o inside (by rw [read]; rfl)
      have same := (PlanOutbound.fromProto_some read).1.trans trimmed
      exact same.symm.trans (beq_iff_eq.mp named)
  · simp only [if_neg measures]
    rfl

theorem dial_none {free : Bool} (able : core.prober = true ∧ free = true) :
    core.dial free = none := by
  simp [Core.dial, able.1, able.2]

theorem order_some (known : r.preference.length = 1 ∨ ∀ kind ∈ engines, kind ∈ drivers) :
    ∃ order, r.order engines = some order := by
  rw [Registry.order]
  split
  · exact ⟨_, rfl⟩
  · rename_i several
    have all := known.resolve_left fun single => several (.inl single)
    exact ⟨_, if_pos all⟩

section

variable (clear : core.Clear req)
  (dialled : relays.flatMap Relay.load = replicate req.endpoints [])

include clear dialled

theorem inv_engines (measures : core.measures req = true)
    (made : r.measureWith req.engines ((core.measured req).map Prod.snd) = some uses) :
    Inv (core.shape req) req.items
      { groups := groupsOf uses, forwarder := .waiting, relays, results := core.unread req
        handler := .queueing (orphansOf uses) } := by
  obtain ⟨outbounds, known⟩ := measureWith_some made
  have chosen : core.measurer.isSome = true ∧ req.method ≠ .connect := by
    rwa [Core.measures, Bool.and_eq_true, decide_eq_true_eq] at measures
  have ids : (uses.map fun u => u.1.id) = (core.measured req).map fun p => p.2.id := by
    have mapped := congrArg (List.map fun o => o.id) outbounds
    rwa [map_map, map_map] at mapped
  have split := fun x => count_split known x
  have read := count_read (clear.named chosen.1 chosen.2)
  have whole : ∀ x, (State.load
      { groups := groupsOf uses, forwarder := .waiting, relays, results := core.unread req
        handler := .queueing (orphansOf uses) }).count x = req.items.count x := by
    intro x
    have parts := split x
    have total := read x
    rw [ids] at parts
    simp only [State.load, State.ahead, State.inbound, Handler.load, Forwarder.load, dialled,
      Request.items, map_nil, append_nil, count_append]
    omega
  refine ⟨⟨⟨fun _ => ⟨_, rfl⟩, fun _ => rfl⟩, by rintro ⟨⟩⟩, ?_, fun x => (whole x).le,
    fun _ _ x => whole x, by rintro ⟨⟩⟩
  have places : (core.shape req).outCapacity =
      ((core.measured req).map fun p => p.2.id).length := by
    rw [length_map]
    exact if_pos measures
  rw [places, ← ids]
  refine length_le_of_count fun x => ?_
  rw [← split x]
  simp [State.inbound, Handler.load]

theorem inv_dialAll (some' : req.outbounds ≠ [])
    (direct : core.measurer = none ∨ req.method = .connect) :
    Inv (core.shape req) req.items (core.dialAll req relays) := by
  rw [Core.dialAll, dial_none (clear.dialled some' direct).2]
  refine inv_relays fun x => ?_
  simp [Relay.load, dialled, Request.items]

theorem inv_throughEngines (found : core.measurer = some r) (other : req.method ≠ .connect) :
    Inv (core.shape req) req.items (core.throughEngines req r relays) := by
  obtain ⟨order, ordered⟩ := order_some (clear.engines r found other)
  have measures : core.measures req = true := by simp [Core.measures, found, other]
  obtain ⟨uses, made⟩ :
      ∃ uses, r.measureWith req.engines ((core.measured req).map Prod.snd) = some uses :=
    ⟨_, by rw [Registry.measureWith, ordered, Option.map_some]⟩
  rw [Core.throughEngines, made]
  exact inv_engines clear dialled measures made

theorem inv_measure (some' : req.outbounds ≠ []) :
    Inv (core.shape req) req.items (core.measure req relays) := by
  rw [Core.measure]
  match found : core.measurer, method : req.method with
  | some r, .unspecified | some r, .engine =>
    exact inv_throughEngines clear dialled found (by rw [method]; decide)
  | none, .engine => exact absurd method (clear.dialled some' (.inl found)).1
  | some r, .connect => exact inv_dialAll clear dialled some' (.inr method)
  | none, .unspecified | none, .connect => exact inv_dialAll clear dialled some' (.inl found)

end

theorem inv_start (clear : core.Clear req) : Inv (core.shape req) req.items (core.start req) := by
  rw [Core.start]
  cases checked : core.front.checkVersion req.version with
  | error e =>
    simp only [checkVersion_status checked]
    exact inv_returned _ _
  | ok minor =>
    simp only
    split
    · exact inv_returned _ _
    · rename_i bounded
      split
      · rename_i none'
        refine inv_measure clear (by rw [none']; rfl) fun empty => bounded (.inl ?_)
        rw [Request.total, none', empty]
        rfl
      · rename_i some'
        rw [dial_none (clear.endpoints (Nat.pos_of_ne_zero some'))]
        have dialled : [({ workers := replicate req.endpoints [] } : Relay Bytes)].flatMap
            Relay.load = replicate req.endpoints [] := by
          simp [Relay.load]
        simp only
        split
        · rename_i empty
          refine inv_relays fun x => ?_
          rw [dialled, Request.items, empty, map_nil, append_nil]
        · rename_i outbounds
          exact inv_measure clear dialled outbounds

theorem run_start (clear : core.Clear req) {s : State Bytes}
    (run : Relation.ReflTransGen (Next (core.shape req)) (core.start req) s) :
    (s.handler = .returned true → s.sent.Perm req.items) ∧
      Inevitably (Next (core.shape req)) (Own (core.shape req)) State.Ended s := by
  have small : req.items.length ≤ (core.shape req).total := by
    simp [Request.items, Core.shape, Request.total]
  exact (inv_start clear).run (spec_named clear) small run

end

/-- A core with three engines and a prober. -/
def stockedCore : Core where
  front :=
    { version := { major := 1, minor := 7, minSupportedMinor := 6 }
      token := List.replicate 32 7 }
  gzip := markedGzip
  vault := ∅
  prober := true
  free := true
  freeLater := true
  measurer := some stockedRegistry

def socksServer (id : String) : PlanOutbound where
  id := ascii id
  displayName := []
  protocol := ascii "socks5"
  displayProtocol := []
  transport := []
  security := ascii "none"
  host := ascii "a.example"
  port := 1080
  reference := []

def socksRequest (id : String) : Request where
  version := some stockedCore.front.version
  outbounds := [socksServer id]

theorem stockedCore_clear : stockedCore.Clear (socksRequest "a") where
  endpoints := fun some' => absurd some' (by decide)
  dialled := fun _ direct => absurd direct (by decide)
  engines := fun _ _ _ => .inr fun _ inside => absurd inside not_mem_nil
  named := fun _ _ o inside _ => by
    cases mem_singleton.mp inside
    decide

end Sora.Control.Probe
