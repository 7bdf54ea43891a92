import Sora.App.Plan
import Sora.Control.Imports

/-!
# The other servers of a plan

For one chosen server, without failover, the app sends a plan that carries every ordinary server of
its list.  The core checks each of them and looks for an engine that carries all of them.
`alone_iff` says when this has the outcome that the chosen server would have alone.
-/

namespace Sora.App

open Sora.Lib Sora.Contract Sora.Control List Bool Registry

def ordinary (servers : List PlanOutbound) : List PlanOutbound :=
  servers.filter fun o => !isProfile o

/-- What becomes of the plan for a chosen server. -/
def outcomeFor (core : Receiver) (sorter : Sorter) (windows : Bool) (settings : Settings)
    (latency : Latency) (servers : List PlanOutbound) (s : PlanOutbound) :
    Option (EngineKind × Bool) :=
  (buildPlan sorter windows servers s.id settings latency none).bind core.outcome

/-! ## The plan for one server -/

variable {s : PlanOutbound} {settings : Settings} {p : Plan} {m : SessionPlan} {core : Receiver}
    {carried : List PlanOutbound}

/-- Without failover the plan for an ordinary server has no group. -/
theorem buildPlan_server {sorter : Sorter} {windows : Bool} {latency : Latency}
    {servers : List PlanOutbound} (off : settings.failover = false)
    (named : s.id ≠ autoChoice ∧ s.id ≠ bypassChoice)
    (unpicked : ∀ o ∈ servers, isProfile o = true → o.id ≠ s.id) :
    buildPlan sorter windows servers s.id settings latency none =
      some (settings.carrying (settings.plan windows s.id) (ordinary servers) [] s.id) := by
  have none : (servers.filter isProfile).find? (fun o => o.id == s.id) = none := by
    rw [find?_eq_none]
    intro o inside
    have profile := mem_filter.mp inside
    simpa using unpicked o profile.1 profile.2
  simp [buildPlan, named.2, buildChoice, none, named.1, off, ordinary]

/-! ## What the core reads of it -/

/-- The outbounds of a plan are each read, valid, and told apart by their ids. -/
structure Sound (core : Receiver) (carried : List PlanOutbound) : Prop where
  size : carried.length ≤ maxOutbounds
  distinct : (carried.map fun o => trimSpace o.id).Nodup
  valid : ∀ o ∈ carried, ∃ x, o.fromProto core.gzip core.vault = some x ∧ x.valid = true

section

variable {plan : SessionPlan}

/-- A plan that is accepted has sound outbounds. -/
theorem Sound.of_read (accepted : core.read m = some p) : Sound core m.outbounds := by
  obtain ⟨outbounds, groups, rules, read, -, -, framed, distinct, valid, rfl⟩ :=
    planFromProto_eq_some.mp accepted
  obtain ⟨-, ⟨-, -, each, -⟩, -⟩ := (valid_iff _).mp valid
  refine ⟨?_, ?_, fun o inside => ?_⟩
  · simp only [SessionPlan.framed, and_eq_true, decide_eq_true_eq] at framed
    exact framed.1.1.1.1.1.1.1.2
  · rwa [← ids_of_read read]
  · obtain ⟨x, there, same⟩ := mem_mapM read inside
    exact ⟨x, same, each x there⟩

theorem Sound.sublist {part : List PlanOutbound} (sound : Sound core carried)
    (sub : part.Sublist carried) : Sound core part where
  size := sub.length_le.trans sound.size
  distinct := sound.distinct.sublist (sub.map _)
  valid o inside := sound.valid o (sub.subset inside)

/-- Of sound outbounds with the target among them only the list itself differs: where the plan of
one list is accepted, so is that of another. -/
theorem read_carrying (other : List PlanOutbound) (there : s ∈ other)
    (plain : ∀ o ∈ other, isProfile o = false) (sound : Sound core other)
    (accepted : core.read (settings.carrying plan carried [] s.id) = some p) :
    ∃ outbounds, (other.mapM fun o => o.fromProto core.gzip core.vault) = some outbounds ∧
      core.read (settings.carrying plan other [] s.id) = some { p with outbounds := outbounds } := by
  obtain ⟨outs, groups, rules, read, grouped, ruled, framed, -, valid, rfl⟩ :=
    planFromProto_eq_some.mp accepted
  obtain rfl : groups = [] := by
    have none : groupsFromProto [] (outs.map (·.id)) = some [] := rfl
    exact Option.some.inj (grouped.symm.trans none)
  obtain ⟨outbounds, made, valid'⟩ := exists_mapM sound.valid
  have ids := ids_of_read made
  have own : trimSpace s.id ∈ outbounds.map (·.id) := by
    rw [ids]
    exact mem_map_of_mem there
  obtain ⟨user, routed, applied, -, target⟩ := SessionPlan.rules_eq_some.mp ruled
  -- a target that is the id of an outbound has no blanks around it
  have target : s.id = [] ∨ s.id ∈ outbounds.map (·.id) := by
    rcases target with empty | inside
    · exact .inl empty
    · rw [map_nil, append_nil, ids_of_read read] at inside
      obtain ⟨o, -, same⟩ := mem_map.mp inside
      have trimmed : trimSpace s.id = s.id := by
        have twice := trimSpace_trimSpace o.id
        rwa [show trimSpace o.id = s.id from same] at twice
      rw [trimmed] at own
      exact .inr own
  have leads : ∀ route ∈ settings.routes s.id, trimSpace route.outboundID = ascii "direct" ∨
      trimSpace route.outboundID = ascii "reject" ∨
      trimSpace route.outboundID ∈ outbounds.map (·.id) := by
    intro route inside
    rcases routes_target inside with same | same | same
    · exact .inl (by rw [same]; decide)
    · exact .inr (.inl (by rw [same]; decide))
    · exact .inr (.inr (by rw [same]; exact own))
  obtain ⟨frame, -, -, -, -⟩ := (valid_iff _).mp valid
  have distinct : (outbounds.map (·.id)).Nodup := by
    rw [ids]
    exact sound.distinct
  have size : outbounds.length ≤ maxOutbounds := by
    rw [← (mapM_eq_some_iff.mp made).length_eq]
    exact sound.size
  refine ⟨outbounds, made, planFromProto_eq_some.mpr ⟨outbounds, [], rules, made, rfl,
    SessionPlan.rules_eq_some.mpr ⟨user, routed, applied, fun r inside => ?_, ?_⟩, ?_, ?_, ?_, rfl⟩⟩
  · obtain ⟨route, given, same⟩ := mem_of_mapM routed inside
    rw [ruleFromProto_target same, map_nil, append_nil]
    rcases leads route given with direct | reject | known
    · exact .inr (by rw [direct]; decide)
    · exact .inr (by rw [reject]; decide)
    · exact .inl known
  · rwa [map_nil, append_nil]
  · simp only [SessionPlan.framed, and_eq_true, decide_eq_true_eq] at framed ⊢
    obtain ⟨⟨⟨⟨⟨⟨⟨⟨-, -⟩, routes⟩, stack⟩, login⟩, both⟩, mode⟩, dns⟩, bypass⟩ := framed
    exact ⟨⟨⟨⟨⟨⟨⟨⟨ne_nil_of_mem there, sound.size⟩, routes⟩, stack⟩, login⟩, both⟩, mode⟩, dns⟩,
      bypass⟩
  · exact distinct
  · refine (valid_iff _).mpr ⟨frame, ⟨?_, size, fun x inside => ?_, distinct⟩, ?_, ?_,
      fun r inside => ?_⟩
    · exact ne_nil_of_mem (mem_map.mp own).choose_spec.1
    · exact valid' x inside
    · rintro ⟨x, inside, profile⟩
      obtain ⟨o, given, same⟩ := mem_of_mapM made inside
      rw [(PlanOutbound.fromProto_some same).2.1, ofName_profile] at profile
      have ordinary := plain o given
      rw [isProfile, profile] at ordinary
      simp at ordinary
    · exact ⟨Nat.zero_le _, .nil, nofun, nofun⟩
    · have full : r.target ≠ [] := by
        simp only [frameValid, and_eq_true, all_eq_true] at frame
        simpa using (frame.1.1.1.2 r inside).2
      rcases SessionPlan.rules_target ruled r inside with ⟨route, given, same⟩ | same | same | same
      · rw [same]
        rcases leads route given with direct | reject | known
        · exact .inr (.inr (by rw [direct]; decide))
        · exact .inr (.inr (by rw [reject]; decide))
        · exact .inl known
      · exact .inr (.inr (by rw [same]; decide))
      · exact .inr (.inr (by rw [same]; decide))
      · rcases target with empty | known
        · exact absurd (same.trans empty) full
        · exact .inl (by rw [same]; exact known)

theorem outbounds_of_read (accepted : core.read m = some p) :
    (m.outbounds.mapM fun o => o.fromProto core.gzip core.vault) = some p.outbounds := by
  obtain ⟨outbounds, groups, rules, read, -, -, -, -, -, rfl⟩ := planFromProto_eq_some.mp accepted
  exact read

/-- More outbounds keep the engine of a plan exactly if it suits them. -/
theorem pick_eq_iff {r : Registry} {engines : List EngineKind} (p : Plan) {more : List Outbound}
    (all : ∀ x ∈ p.outbounds, x ∈ more) :
    r.pick engines { p with outbounds := more } = r.pick engines p ↔
      ∀ kind bridge, r.pick engines p = some (kind, bridge) → ∀ x ∈ more, r.suits kind x = true := by
  rw [pick_eq, pick_eq]
  cases r.order engines with
  | none => exact ⟨fun _ _ _ picked => (nomatch picked), fun _ => rfl⟩
  | some order =>
    have injective : Function.Injective fun kind => (kind, needsBridge r.linux p kind) :=
      fun _ _ same => (Prod.mk.inj same).1
    have stronger (kind : EngineKind) (carried : r.carries { p with outbounds := more } kind = true) :
        r.carries p kind = true := by
      simp only [carries, and_eq_true, all_eq_true] at carried ⊢
      exact ⟨carried.1, fun x inside => carried.2 x (all x inside)⟩
    refine (Option.map_injective injective).eq_iff.trans ((find?_eq_find?_iff stronger).trans ?_)
    constructor
    · intro passes kind bridge picked x inside
      obtain ⟨same, found, named⟩ := Option.map_eq_some_iff.mp picked
      obtain rfl : same = kind := (Prod.mk.inj named).1
      have carried := passes same found
      simp only [carries, and_eq_true, all_eq_true] at carried
      exact carried.2 x inside
    · intro suits kind found
      have carried := find?_some found
      simp only [carries, and_eq_true, all_eq_true] at carried ⊢
      exact ⟨carried.1, suits kind _ (Option.map_eq_some_iff.mpr ⟨kind, found, rfl⟩)⟩

end

/-! ## Interference -/

/-- The servers of a list are no obstacle to an engine: each is read and valid, they are told apart
by their ids, they are few enough, and the engine suits every one. -/
structure Harmless (core : Receiver) (kind : EngineKind) (carried : List PlanOutbound) : Prop where
  size : carried.length ≤ maxOutbounds
  distinct : (carried.map fun o => trimSpace o.id).Nodup
  suited : ∀ o ∈ carried, ∃ x, o.fromProto core.gzip core.vault = some x ∧ x.valid = true ∧
    core.registry.suits kind x = true

theorem Harmless.sound {kind : EngineKind}
    (harmless : Harmless core kind carried) : Sound core carried where
  size := harmless.size
  distinct := harmless.distinct
  valid o inside := by
    obtain ⟨x, read, valid, -⟩ := harmless.suited o inside
    exact ⟨x, read, valid⟩

/-- The plan with all servers has the outcome of the plan with the target alone exactly if they are
harmless to the engine that the target alone gets. -/
theorem outcome_carrying_iff {plan : SessionPlan}
    (there : s ∈ carried) (plain : ∀ o ∈ carried, isProfile o = false) :
    core.outcome (settings.carrying plan carried [] s.id) =
        core.outcome (settings.carrying plan [s] [] s.id) ↔
      ∀ kind bridge, core.outcome (settings.carrying plan [s] [] s.id) = some (kind, bridge) →
        Harmless core kind carried := by
  constructor
  · intro same kind bridge picked
    rw [← same] at picked
    obtain ⟨p, accepted, engine⟩ := Option.bind_eq_some_iff.mp picked
    have sound := Sound.of_read accepted
    refine ⟨sound.size, sound.distinct, fun o inside => ?_⟩
    obtain ⟨x, among, read⟩ := mem_mapM (outbounds_of_read accepted) inside
    have suits := (pick_eq_iff p fun x inside => inside).mp rfl kind bridge engine x among
    obtain ⟨y, again, valid⟩ := sound.valid o inside
    cases read.symm.trans again
    exact ⟨x, read, valid, suits⟩
  · intro harmless
    cases all : core.read (settings.carrying plan carried [] s.id) with
    | some p =>
      have sound := Sound.of_read all
      obtain ⟨outbounds, made, alone⟩ := read_carrying [s] mem_cons_self
        (fun o one => by rw [mem_singleton.mp one]; exact plain s there)
        (sound.sublist (singleton_sublist.mpr there)) all
      rw [Receiver.outcome, Receiver.outcome, all, alone]
      refine (pick_eq_iff { p with outbounds := outbounds } ?_).mpr ?_
      · intro x inside
        obtain ⟨o, one, read⟩ := mem_of_mapM made inside
        rw [mem_singleton] at one
        subst one
        obtain ⟨y, among, again⟩ := mem_mapM (outbounds_of_read all) there
        rw [read, Option.some.injEq] at again
        rwa [again]
      · intro kind bridge picked x inside
        obtain ⟨o, given, read⟩ := mem_of_mapM (outbounds_of_read all) inside
        have suited := (harmless kind bridge (by
          rw [Receiver.outcome, alone]
          exact picked)).suited o given
        obtain ⟨y, again, -, suits⟩ := suited
        rw [read, Option.some.injEq] at again
        rwa [again]
    | none =>
      rw [Receiver.outcome, all]
      cases picked : core.outcome (settings.carrying plan [s] [] s.id) with
      | none => rfl
      | some engine =>
        -- where the target alone is accepted, harmless servers do not change that
        obtain ⟨p, alone, -⟩ := Option.bind_eq_some_iff.mp picked
        obtain ⟨_, -, accepted⟩ :=
          read_carrying carried there plain (harmless engine.1 engine.2 picked).sound alone
        rw [all] at accepted
        cases accepted

/-- The other servers of the subscriptions are harmless to the engine that a server alone gets. -/
def HarmlessTo (core : Receiver) (sorter : Sorter) (windows : Bool) (settings : Settings)
    (latency : Latency) (subscriptions : List Subscription) (s : PlanOutbound) : Prop :=
  ∀ kind bridge, outcomeFor core sorter windows settings latency [s] s = some (kind, bridge) →
    Harmless core kind (ordinary (servers subscriptions))

section

variable {sorter : Sorter} {windows : Bool} {latency : Latency}

theorem alone_iff {subscriptions : List Subscription} (off : settings.failover = false)
    (chosen : s ∈ servers subscriptions) (plain : isProfile s = false)
    (named : s.id ≠ autoChoice ∧ s.id ≠ bypassChoice) :
    outcomeFor core sorter windows settings latency (servers subscriptions) s =
        outcomeFor core sorter windows settings latency [s] s ↔
      HarmlessTo core sorter windows settings latency subscriptions s := by
  have unpicked : ∀ o ∈ servers subscriptions, isProfile o = true → o.id ≠ s.id := by
    intro o inside profile same
    have one : o = s := inj_on_of_nodup_map (nodup_distinctBy _ _ _) inside chosen same
    rw [one, plain] at profile
    cases profile
  have single : ∀ o ∈ [s], isProfile o = true → o.id ≠ s.id := by
    intro o one profile
    rw [mem_singleton.mp one, plain] at profile
    cases profile
  have self : ordinary [s] = [s] := by simp [ordinary, plain]
  rw [HarmlessTo, outcomeFor, outcomeFor, buildPlan_server off named unpicked,
    buildPlan_server off named single, self]
  apply outcome_carrying_iff
  · exact mem_filter.mpr ⟨chosen, by simp [plain]⟩
  · intro o inside
    simpa using (mem_filter.mp inside).2

end

/-- For every two lists of subscriptions with one ordinary server that the user chose, and without
failover: a list has the outcome that the server would have alone exactly if its other servers are
harmless, and two such lists have one outcome. -/
theorem servers_agree_iff (core : Receiver) (sorter : Sorter) (windows : Bool) (settings : Settings)
    (latency : Latency) (first second : List Subscription) (s : PlanOutbound)
    (off : settings.failover = false)
    (chosen : s ∈ servers first ∧ s ∈ servers second) (plain : isProfile s = false)
    (named : s.id ≠ autoChoice ∧ s.id ≠ bypassChoice) :
    (outcomeFor core sorter windows settings latency (servers first) s =
        outcomeFor core sorter windows settings latency [s] s ↔
      HarmlessTo core sorter windows settings latency first s) ∧
    (HarmlessTo core sorter windows settings latency first s →
      HarmlessTo core sorter windows settings latency second s →
      outcomeFor core sorter windows settings latency (servers first) s =
        outcomeFor core sorter windows settings latency (servers second) s) := by
  refine ⟨alone_iff off chosen.1 plain named, fun one two => ?_⟩
  have left := (alone_iff off chosen.1 plain named).mpr one
  have right := (alone_iff off chosen.2 plain named).mpr two
  exact left.trans right.symm

/-! ## A server that another one keeps from connecting -/

/-- A core with the three engines. -/
def fullCore : Receiver where
  gzip := markedGzip
  toASCII := some
  sessionID := ascii "s"
  vault := ∅
  registry :=
    let found :=
      [{ kind := .singBox, version := { major := 1, minor := 12 }, usable := true },
        { kind := .xray, version := { major := 26, minor := 4 }, usable := true },
        { kind := .mihomo, version := { major := 1, minor := 20 }, usable := true }]
    { linux := true, binaries := found, availability := found }

def plainSettings : Settings := { failover := false, controlPort := true }

/-- What becomes of the first server when the list has the others too. -/
def outcomeAmong (s : PlanOutbound) (others : List PlanOutbound) : Option (EngineKind × Bool) :=
  outcomeFor fullCore stableSorter false plainSettings (fun _ => none)
    (servers [{ id := ascii "1", outbounds := s :: others }]) s

def xhttpServer : PlanOutbound := serverAt "a" "vless" "xhttp" "a.example.com"

/-- A server that needs another engine, and one whose host is not valid, each keep the chosen server
from connecting. -/
theorem other_server_interferes : outcomeAmong xhttpServer [] = some (.xray, false) ∧
    outcomeAmong xhttpServer [serverAt "b" "anytls" "tcp" "b.example.com"] = none ∧
    outcomeAmong xhttpServer [serverAt "c" "vless" "tcp" "::1"] = none := by
  decide

/-- Next to a server that Xray carries too, the outcome stays. -/
theorem like_server_agrees : outcomeAmong xhttpServer [serverAt "b" "trojan" "tcp" "b.example.com"] =
    outcomeAmong xhttpServer [] := by
  have alone : outcomeFor fullCore stableSorter false plainSettings (fun _ => none) [xhttpServer]
      xhttpServer = some (.xray, false) := by decide
  have among : outcomeFor fullCore stableSorter false plainSettings (fun _ => none)
      (servers [{ id := ascii "1",
                  outbounds := [xhttpServer, serverAt "b" "trojan" "tcp" "b.example.com"] }])
      xhttpServer = some (.xray, false) := by decide
  have agree (first second : List Subscription) := servers_agree_iff fullCore stableSorter false
    plainSettings (fun _ => none) first second xhttpServer rfl
  have listed := fun others : List PlanOutbound => (agree
    [{ id := ascii "1", outbounds := xhttpServer :: others }]
    [{ id := ascii "1", outbounds := xhttpServer :: others }]
    ⟨mem_cons_self, mem_cons_self⟩ (by decide) (by decide)).1
  exact (agree _ _ ⟨mem_cons_self, mem_cons_self⟩ (by decide)
    (by decide)).2 ((listed _).mp (among.trans alone.symm)) ((listed []).mp rfl)

end Sora.App
