import Mathlib.Algebra.Group.Action.Defs
import Mathlib.Tactic.FinCases
import Sora.Contract.Plan
import Sora.Lib.PathSearch

/-!
# Groups of groups

A group may name other groups as members, before or after it.  `Plan.Validate` looks for a group that
contains itself with `groupCycle`, which follows every path of members and forgets what it has seen
on other paths.  So it finds exactly the cycles (`validate_references`), and a plan without one costs
a call for each path (`cycleCalls_le`): a chain of groups that name the next one twice has `2 ^ n`.
-/

namespace Sora.Contract

open Sora.Lib Relation List Function Nat PathSearch

/-! ## The checks of a plan -/

/-- The checks that concern neither outbounds nor groups nor where rules lead. -/
def frameValid (p : Plan) : Bool :=
  trimSpace p.sessionID != [] && decide (p.rules.length ≤ maxRules) &&
    (p.localProxy.username.isEmpty == p.localProxy.password.isEmpty) &&
    (p.localProxy.username.all fun c => !decide (c ∈ ascii ":@ \r\n")) &&
    (p.rules.all fun r => r.valid && !r.target.isEmpty) && p.dns.valid && p.tun.valid &&
    p.options.valid

/-- The checks of a plan whose groups are told apart, as parts. -/
theorem valid_iff (p : Plan) : p.valid = true ↔ frameValid p = true ∧
    (p.outbounds ≠ [] ∧ p.outbounds.length ≤ maxOutbounds ∧ (∀ o ∈ p.outbounds, o.valid = true) ∧
      (p.outbounds.map (·.id)).Nodup) ∧
    ((∃ o ∈ p.outbounds, o.protocol = .xrayProfile) → p.outbounds.length ≤ 1 ∧ p.groups = []) ∧
    (p.groups.length ≤ maxGroups ∧ (p.groups.map (·.name)).Nodup ∧
      (∀ g ∈ p.groups, g.name ∉ p.outbounds.map (·.id)) ∧ ∀ g ∈ p.groups, p.validGroup g = true) ∧
    ∀ r ∈ p.rules, r.target ∈ p.outbounds.map (·.id) ∨ r.target ∈ p.groups.map (·.name) ∨
      isBuiltInTarget r.target = true := by
  have alone : (p.outbounds.any fun o => o.protocol == .xrayProfile) = false ∨
      ¬1 < p.outbounds.length ∧ (!p.groups.isEmpty) = false ↔
      ((∃ o ∈ p.outbounds, o.protocol = .xrayProfile) →
        p.outbounds.length ≤ 1 ∧ p.groups = []) := by
    rw [any_eq_false]
    by_cases profile : ∃ o ∈ p.outbounds, o.protocol = .xrayProfile
    · obtain ⟨o, inside, named⟩ := profile
      have present : ¬∀ o ∈ p.outbounds, ¬(o.protocol == .xrayProfile) = true :=
        fun absent => absent o inside (by simpa using named)
      simp only [present]
      simpa using ⟨fun h _ _ _ => h, fun h => h o inside named⟩
    · have absent : ∀ o ∈ p.outbounds, ¬(o.protocol == .xrayProfile) = true := by
        intro o inside named
        exact profile ⟨o, inside, by simpa using named⟩
      exact ⟨fun _ some => absurd some profile, fun _ => .inl absent⟩
  simp only [Plan.valid, frameValid, Plan.validRule, Bool.and_eq_true, Bool.or_eq_true,
    decide_eq_true_eq, all_eq_true, Bool.not_eq_true', forall_mem_map,
    Bool.and_eq_false_iff, Bool.or_eq_false_iff, decide_eq_false_iff_not,
    isEmpty_eq_false_iff, alone]
  constructor
  · rintro ⟨⟨⟨⟨⟨⟨⟨⟨⟨⟨⟨⟨⟨⟨⟨⟨session, some⟩, size⟩, few⟩, short⟩, valid⟩, ids⟩, profile⟩, clash⟩, login⟩,
      user⟩, groups⟩, names⟩, rules⟩, dns⟩, tun⟩, options⟩
    exact ⟨⟨⟨⟨⟨⟨⟨⟨session, short⟩, login⟩, user⟩, fun r inside => (rules r inside).1⟩, dns⟩, tun⟩,
      options⟩, ⟨some, size, valid, ids⟩, profile, ⟨few, names, clash, groups⟩,
      fun r inside => or_assoc.mp (rules r inside).2⟩
  · rintro ⟨⟨⟨⟨⟨⟨⟨⟨session, short⟩, login⟩, user⟩, rules⟩, dns⟩, tun⟩, options⟩,
      ⟨some, size, valid, ids⟩, profile, ⟨few, names, clash, groups⟩, targets⟩
    exact ⟨⟨⟨⟨⟨⟨⟨⟨⟨⟨⟨⟨⟨⟨⟨⟨session, some⟩, size⟩, few⟩, short⟩, valid⟩, ids⟩, profile⟩, clash⟩, login⟩,
      user⟩, groups⟩, names⟩, fun r inside => ⟨rules r inside, or_assoc.mpr (targets r inside)⟩⟩,
      dns⟩, tun⟩, options⟩

/-! ## Members that are groups -/

def nested (groups : List Group) (name : Bytes) : List Bytes :=
  ((members groups name).getD []).filter fun m => (members groups m).isSome

theorem groupCycle_eq (groups : List Group) (fuel : Nat) (visiting : List Bytes) (name : Bytes) :
    groupCycle groups fuel visiting name = search (nested groups) fuel visiting name := by
  induction fuel generalizing visiting name with
  | zero => rfl
  | succ fuel ih =>
    rw [groupCycle, search, nested, any_filter]
    simp only [ih]
    congr

variable {name ref : Bytes} {g : Group} {p : Plan} {n : Nat} {groups : List Group}

theorem members_isSome_iff :
    (members groups name).isSome ↔ name ∈ groups.map (·.name) := by
  rw [members, Option.isSome_map, find?_isSome]
  simp only [mem_reverse, beq_iff_eq, mem_map]

theorem group_of_members {refs : List Bytes} (found : members groups name = some refs) :
    ∃ g ∈ groups, g.name = name ∧ g.outbounds = refs := by
  rw [members, Option.map_eq_some_iff] at found
  obtain ⟨g, seen, same⟩ := found
  have named := find?_some seen
  exact ⟨g, mem_reverse.mp (mem_of_find?_eq_some seen), beq_iff_eq.mp named, same⟩

/-- A group that is told apart by its name is found by it. -/
theorem members_eq_some (distinct : (groups.map (·.name)).Nodup)
    (inside : g ∈ groups) : members groups g.name = some g.outbounds := by
  obtain ⟨refs, found⟩ := Option.isSome_iff_exists.mp
    (members_isSome_iff.mpr (mem_map_of_mem inside))
  obtain ⟨other, there, named, rfl⟩ := group_of_members found
  obtain rfl : other = g := inj_on_of_nodup_map distinct there inside named
  exact found

/-- The group that counts for a name has a group of this name as a member. -/
def Nests (groups : List Group) (outer inner : Bytes) : Prop :=
  ∃ refs, members groups outer = some refs ∧ inner ∈ refs ∧ inner ∈ groups.map (·.name)

theorem edge_nested : PathSearch.Edge (nested groups) = Nests groups := by
  funext outer inner
  rw [PathSearch.Edge, nested, mem_filter, members_isSome_iff, Nests]
  cases members groups outer with
  | none | some refs => simp

theorem nested_closed (groups : List Group) :
    ∀ x ∈ groups.map (·.name), ∀ y ∈ nested groups x, y ∈ groups.map (·.name) := by
  intro x _ y inside
  exact members_isSome_iff.mp (mem_filter.mp inside).2

/-- A group of the plan has a group as a member. -/
def Contains (groups : List Group) (outer inner : Bytes) : Prop :=
  ∃ g ∈ groups, g.name = outer ∧ inner ∈ g.outbounds ∧ inner ∈ groups.map (·.name)

/-- Where names are unique, every group counts. -/
theorem contains_eq_nests (distinct : (groups.map (·.name)).Nodup) :
    Contains groups = Nests groups := by
  funext outer inner
  refine propext ⟨?_, ?_⟩
  · intro contains
    obtain ⟨g, there, rfl, inside, known⟩ := contains
    exact ⟨g.outbounds, members_eq_some distinct there, inside, known⟩
  · intro nests
    obtain ⟨refs, found, inside, known⟩ := nests
    obtain ⟨g, there, named, rfl⟩ := group_of_members found
    exact ⟨g, there, named, inside, known⟩

/-- A reference that an engine can follow. -/
def Plan.Resolves (p : Plan) (ref : Bytes) : Prop :=
  ref ∈ p.outbounds.map (·.id) ∨ ref ∈ p.groups.map (·.name) ∨ isBuiltInTarget ref = true

/-- What a reference can stand for. -/
inductive Object where
  | builtIn (target : Bytes)
  | outbound (o : Outbound)
  | group (g : Group)
  deriving DecidableEq

/-- The outbounds and the groups of a plan under the texts that refer to them. -/
def Plan.objects (p : Plan) : List (Bytes × Object) :=
  p.outbounds.map (fun o => (o.id, .outbound o)) ++ p.groups.map fun g => (g.name, .group g)

/-- What a reference of the plan names. -/
inductive Plan.Names (p : Plan) (ref : Bytes) : Object → Prop
  | own {object : Object} (inside : (ref, object) ∈ p.objects) : p.Names ref object
  | builtIn (known : isBuiltInTarget ref = true) : p.Names ref (.builtIn ref)

/-- A reference that names a target of the engine and an object of the plan. -/
def Plan.Ambiguous (p : Plan) (ref : Bytes) : Prop :=
  isBuiltInTarget ref = true ∧ ref ∈ p.objects.map (·.1)

instance (p : Plan) (ref : Bytes) : Decidable (p.Ambiguous ref) :=
  inferInstanceAs (Decidable (_ ∧ _))

theorem map_fst_objects (p : Plan) :
    p.objects.map (·.1) = p.outbounds.map (·.id) ++ p.groups.map (·.name) := by
  simp only [Plan.objects, List.map_append, List.map_map, comp_def]

/-- The objects of a valid plan are told apart by their references. -/
theorem nodup_objects (valid : p.valid = true) : (p.objects.map (·.1)).Nodup := by
  obtain ⟨-, ⟨-, -, -, ids⟩, -, ⟨-, names, apart, -⟩, -⟩ := (valid_iff p).mp valid
  rw [map_fst_objects, nodup_append']
  refine ⟨ids, names, fun id outbound group => ?_⟩
  obtain ⟨g, inside, rfl⟩ := mem_map.mp group
  exact apart g inside outbound

theorem object_unique (valid : p.valid = true) {object other : Object}
    (inside : (ref, object) ∈ p.objects) (again : (ref, other) ∈ p.objects) : other = object :=
  congrArg Prod.snd (inj_on_of_nodup_map (nodup_objects valid) again inside rfl)

theorem builtIn_notMem_objects {target : Bytes} : (ref, Object.builtIn target) ∉ p.objects := by
  simp [Plan.objects]

theorem groupCycle_iff (inside : g ∈ groups) (extra : Nat) :
    groupCycle groups (groups.length + 1 + extra) [] g.name = true ↔
      ∃ name, ReflTransGen (Nests groups) g.name name ∧ TransGen (Nests groups) name name := by
  have enough : (groups.map (·.name)).length < groups.length + 1 + extra := by
    rw [length_map]
    omega
  have known : g.name ∈ groups.map (·.name) := mem_map_of_mem inside
  rw [groupCycle_eq, search_iff (nested_closed groups) enough known, PathSearch.Loops, edge_nested]

/-- A cycle passes through a group. -/
theorem exists_group_of_cycle (cycle : TransGen (Nests groups) name name) :
    ∃ g ∈ groups, g.name = name := by
  obtain ⟨_, _, _, _, _, known⟩ := TransGen.tail'_iff.mp cycle
  exact mem_map.mp known

theorem validate_no_cycle (straight : ∀ name, ¬TransGen (Nests groups) name name) :
    ∀ g ∈ groups, groupCycle groups (groups.length + 1) [] g.name = false := by
  intro g inside
  refine Bool.eq_false_of_not_eq_true fun found => ?_
  obtain ⟨name, -, cycle⟩ := (groupCycle_iff inside 0).mp found
  exact straight name cycle

/-- The checks of a group within a valid plan. -/
theorem group_of_valid (valid : p.valid = true) (inside : g ∈ p.groups) :
    g.outbounds ≠ [] ∧ (∀ ref ∈ g.outbounds, p.Resolves ref) ∧
      groupCycle p.groups (p.groups.length + 1) [] g.name = false := by
  obtain ⟨-, -, -, ⟨-, -, -, groups⟩, -⟩ := (valid_iff p).mp valid
  have checked := groups g inside
  simp only [Plan.validGroup, Group.valid, Bool.and_eq_true, all_eq_true, Bool.or_eq_true,
    decide_eq_true_eq, members_isSome_iff, Bool.not_eq_true', isEmpty_eq_false_iff] at checked
  exact ⟨checked.1.1.1.1.1.1.2, fun ref member => or_assoc.mp (checked.1.2 ref member), checked.2⟩

/-- The groups of a valid plan have no cycle. -/
theorem acyclic_of_valid (valid : p.valid = true) (name : Bytes) :
    ¬TransGen (Contains p.groups) name name := by
  obtain ⟨-, -, -, ⟨-, names, -, -⟩, -⟩ := (valid_iff p).mp valid
  rw [contains_eq_nests names]
  intro cycle
  obtain ⟨g, inside, rfl⟩ := exists_group_of_cycle cycle
  have found := (groupCycle_iff inside 0).mpr ⟨g.name, .refl, cycle⟩
  rw [(group_of_valid valid inside).2.2] at found
  exact Bool.false_ne_true found

/-- A valid plan names only what it has, under names that are told apart, and its groups have no
cycle; the search from a group reports exactly the cycles that can be reached, with any fuel. -/
theorem validate_references (p : Plan) :
    (p.valid = true →
      (∀ g ∈ p.groups, ∀ ref ∈ g.outbounds, p.Resolves ref) ∧
      (∀ r ∈ p.rules, p.Resolves r.target) ∧
      (p.outbounds.map (·.id)).Nodup ∧ (p.groups.map (·.name)).Nodup ∧
      (p.outbounds.map (·.id)).Disjoint (p.groups.map (·.name)) ∧
      ∀ name, ¬TransGen (Contains p.groups) name name) ∧
    (∀ g ∈ p.groups, ∀ extra,
      groupCycle p.groups (p.groups.length + 1 + extra) [] g.name = true ↔
        ∃ name, ReflTransGen (Nests p.groups) g.name name ∧ TransGen (Nests p.groups) name name) ∧
    ((∀ name, ¬TransGen (Nests p.groups) name name) →
      ∀ g ∈ p.groups, groupCycle p.groups (p.groups.length + 1) [] g.name = false) := by
  refine ⟨fun valid => ?_, fun g inside extra => groupCycle_iff inside extra, validate_no_cycle⟩
  obtain ⟨-, ⟨-, -, -, ids⟩, -, ⟨-, names, apart, -⟩, rules⟩ := (valid_iff p).mp valid
  refine ⟨fun g inside => (group_of_valid valid inside).2.1, rules, ids, names, ?_,
    acyclic_of_valid valid⟩
  intro id outbound group
  obtain ⟨g, inside, rfl⟩ := mem_map.mp group
  exact apart g inside outbound

/-- A plan with a group of groups. -/
def nestedPlan : Plan where
  sessionID := ascii "s"
  outbounds := [{ id := ascii "node", protocol := .trojan, server := ascii "s.example", port := 443 }]
  groups := [{ name := ascii "outer", type := .select, outbounds := [ascii "inner", ascii "direct"] },
    { name := ascii "inner", type := .select, outbounds := [ascii "node"] }]
  rules := [{ type := .matchAll, value := [], target := ascii "outer" }]

theorem nested_plan_references : nestedPlan.valid = true ∧
    (∀ g ∈ nestedPlan.groups, ∀ ref ∈ g.outbounds, nestedPlan.Resolves ref) ∧
    ∀ name, ¬TransGen (Contains nestedPlan.groups) name name := by
  have valid : nestedPlan.valid = true := by decide
  obtain ⟨refs, -, -, -, -, straight⟩ := (validate_references nestedPlan).1 valid
  exact ⟨valid, refs, straight⟩

/-! ## The cost of the search -/

/-- The groups and the members of a plan. -/
def Plan.size (p : Plan) : Nat :=
  p.groups.length + (p.groups.map (·.outbounds.length)).sum

/-- The calls of `groupCycle` that `Plan.Validate` makes, which starts it once for each group. -/
def Plan.cycleCalls (p : Plan) : Nat :=
  (p.groups.map fun g =>
    PathSearch.calls (nested p.groups) (p.groups.length + 1) [] g.name).sum

/-- The paths of less than `n` steps from a group into its members. -/
def Plan.paths (p : Plan) (n : Nat) (g : Group) : Nat :=
  ∑ k ∈ Finset.range n, PathSearch.walkCount (nested p.groups) k g.name

/-- All members together name a group at most once. -/
def Plan.Slender (p : Plan) : Prop :=
  (p.groups.flatMap fun g => g.outbounds.filter fun m => (members p.groups m).isSome).Nodup

theorem calls_eq_paths (straight : ∀ name, ¬TransGen (Nests p.groups) name name)
    (inside : g ∈ p.groups) :
    calls (nested p.groups) (p.groups.length + 1) [] g.name =
      p.paths (p.groups.length + 1) g := by
  have none := (validate_no_cycle straight) g inside
  rw [groupCycle_eq] at none
  rw [calls_eq_walksBelow none, walksBelow_eq, Plan.paths]

theorem nested_eq {m : Bytes} (inside : m ∈ nested groups name) :
    ∃ g ∈ groups, g.name = name ∧
      nested groups name = g.outbounds.filter fun m => (members groups m).isSome := by
  rw [nested] at inside ⊢
  cases found : members groups name with
  | none =>
    rw [found] at inside
    cases inside
  | some refs =>
    obtain ⟨g, there, named, rfl⟩ := group_of_members found
    exact ⟨g, there, named, rfl⟩

theorem Plan.Slender.forest (slender : p.Slender) : PathSearch.Forest (nested p.groups) := by
  obtain ⟨each, apart⟩ := nodup_flatMap.mp slender
  constructor
  · intro name
    cases all : nested p.groups name with
    | nil => exact .nil
    | cons m rest =>
      have inside : m ∈ nested p.groups name := all ▸ mem_cons_self
      obtain ⟨g, there, -, same⟩ := nested_eq inside
      rw [← all, same]
      exact each g there
  · intro x x' y edge edge'
    obtain ⟨g, there, named, same⟩ := nested_eq edge
    obtain ⟨g', there', named', same'⟩ := nested_eq edge'
    rw [PathSearch.Edge, same] at edge
    rw [PathSearch.Edge, same'] at edge'
    by_contra different
    have distinct : g ≠ g' := by
      rintro rfl
      exact different (named.symm.trans named')
    have symmetric : Std.Symm (onFun List.Disjoint fun g : Group =>
        g.outbounds.filter fun m => (members p.groups m).isSome) :=
      ⟨fun _ _ disjoint => disjoint.symm⟩
    exact apart.forall there there' distinct edge edge'

/-- The group that names the next one twice; the last one names no group. -/
def chainGroup (n i : Nat) : Group where
  name := numeral 10 i
  type := .select
  outbounds := if i + 1 < n then [numeral 10 (i + 1), numeral 10 (i + 1)] else [ascii "direct"]

def chainPlan (n : Nat) : Plan where
  sessionID := ascii "s"
  outbounds := [{ id := ascii "node", protocol := .trojan, server := ascii "s.example", port := 443 }]
  groups := (List.range n).map (chainGroup n)

theorem chain_names (n : Nat) : (chainPlan n).groups.map (·.name) = (range n).map (numeral 10) := by
  simp [chainPlan, chainGroup]

theorem direct_ne_numeral (i : Nat) : ascii "direct" ≠ numeral 10 i := by
  intro same
  have letter : 100 ∉ numeral 10 i := notMem_numeral (by decide) (by decide) rfl
  exact letter (same ▸ by decide)

theorem nested_chain {i : Nat} (below : i < n) : nested (chainPlan n).groups (numeral 10 i) =
    if i + 1 < n then [numeral 10 (i + 1), numeral 10 (i + 1)] else [] := by
  have distinct : ((chainPlan n).groups.map (·.name)).Nodup := by
    rw [chain_names]
    exact nodup_range.map numeral_injective
  have inside : chainGroup n i ∈ (chainPlan n).groups :=
    mem_map_of_mem (mem_range.mpr below)
  have found : members (chainPlan n).groups (numeral 10 i) = some (chainGroup n i).outbounds :=
    members_eq_some distinct inside
  rw [nested, found, Option.getD_some, chainGroup]
  split
  · rename_i more
    have known : (members (chainPlan n).groups (numeral 10 (i + 1))).isSome = true := by
      rw [members_isSome_iff, chain_names]
      exact mem_map_of_mem (mem_range.mpr more)
    simp only [List.filter, known]
  · have unknown : ¬(members (chainPlan n).groups (ascii "direct")).isSome = true := by
      rw [members_isSome_iff, chain_names, mem_map]
      rintro ⟨j, -, same⟩
      exact direct_ne_numeral j same.symm
    simp only [List.filter, Bool.eq_false_of_not_eq_true unknown]

theorem chain_up {x y : Bytes} (edge : PathSearch.Edge (nested (chainPlan n).groups) x y) :
    numValue 10 x < numValue 10 y := by
  obtain ⟨g, there, rfl, -⟩ := nested_eq edge
  obtain ⟨i, below, rfl⟩ := mem_map.mp there
  have listed := edge
  rw [PathSearch.Edge, chainGroup, nested_chain (mem_range.mp below)] at listed
  split at listed
  · have same : y = numeral 10 (i + 1) := by simpa using listed
    rw [same, chainGroup, numValue_numeral (by decide) (by decide),
      numValue_numeral (by decide) (by decide)]
    omega
  · cases listed

/-- The paths double with each group of the chain. -/
theorem two_pow_le_walksBelow {fuel i : Nat} (below : i < n) (enough : n - i ≤ fuel) :
    2 ^ (n - i) ≤ walksBelow (nested (chainPlan n).groups) fuel (numeral 10 i) + 1 := by
  induction fuel generalizing i with
  | zero => omega
  | succ fuel ih =>
    rw [walksBelow, nested_chain below]
    split
    · rename_i more
      have rest := ih more (by omega)
      have double : 2 ^ (n - i) = 2 * 2 ^ (n - (i + 1)) := by
        rw [← pow_succ']
        congr 1
        omega
      simp only [map_cons, sum_cons]
      omega
    · have last : n - i = 1 := by omega
      simp [last]

theorem two_pow_le_cycleCalls (n : Nat) : 2 ^ n ≤ (chainPlan n).cycleCalls + 1 := by
  rcases Nat.eq_zero_or_pos n with rfl | pos
  · exact le_add_left _ _
  · have inside : chainGroup n 0 ∈ (chainPlan n).groups :=
      mem_map_of_mem (mem_range.mpr pos)
    have none : search (nested (chainPlan n).groups) ((chainPlan n).groups.length + 1) []
        (chainGroup n 0).name = false := by
      refine Bool.eq_false_of_not_eq_true fun found => ?_
      have known : (chainGroup n 0).name ∈ (chainPlan n).groups.map (·.name) :=
        mem_map_of_mem inside
      exact not_loops_of_rank chain_up _
        ((search_iff (nested_closed _) (by simp) known).mp found)
    have long : n - 0 ≤ (chainPlan n).groups.length + 1 := by simp [chainPlan]
    have first := two_pow_le_walksBelow pos long
    have part : calls (nested (chainPlan n).groups) ((chainPlan n).groups.length + 1) []
        (chainGroup n 0).name ≤ (chainPlan n).cycleCalls :=
      le_sum_of_mem (mem_map_of_mem inside)
    rw [calls_eq_walksBelow none] at part
    have start : (chainGroup n 0).name = numeral 10 0 := rfl
    rw [start] at part
    rw [Nat.sub_zero] at first
    omega

theorem chain_size_le (n : Nat) : (chainPlan n).size ≤ 3 * n := by
  have few : ∀ k ∈ (chainPlan n).groups.map (·.outbounds.length), k ≤ 2 := by
    intro k counted
    simp only [chainPlan, List.map_map, List.mem_map, comp_apply, chainGroup] at counted
    obtain ⟨i, -, rfl⟩ := counted
    split <;> simp
  have bound := List.sum_le_card_nsmul _ _ few
  have count : (chainPlan n).groups.length = n := by simp [chainPlan]
  rw [List.length_map, smul_eq_mul] at bound
  rw [Plan.size]
  omega

/-- A power of two is above every polynomial somewhere. -/
theorem exists_lt_two_pow (c k : Nat) : ∃ n, c * (3 * n) ^ k + 1 < 2 ^ n := by
  -- at `n = 2 ^ m` both sides are powers of two, and the exponents compare
  obtain ⟨m, room⟩ : ∃ m, c + (2 + m) * k < 2 ^ m := by
    refine ⟨2 * (c + 2 * k + 4), ?_⟩
    have more : 2 * (c + 2 * k + 4) + 1 ≤ 2 ^ (c + 2 * k + 4) := by
      have rest : c + 2 * k + 2 < 2 ^ (c + 2 * k + 2) := Nat.lt_two_pow_self
      have twice : 2 ^ (c + 2 * k + 4) = 2 ^ (c + 2 * k + 2) * 2 ^ 2 := pow_add 2 _ 2
      omega
    calc c + (2 + 2 * (c + 2 * k + 4)) * k
      _ < 2 ^ (c + 2 * k + 4) * 2 ^ (c + 2 * k + 4) := by nlinarith
      _ = 2 ^ (2 * (c + 2 * k + 4)) := by
        rw [mul_comm 2 (c + 2 * k + 4), pow_mul, sq]
  refine ⟨2 ^ m, ?_⟩
  have coefficient : c + 1 ≤ 2 ^ c := Nat.lt_two_pow_self
  have base : (3 * 2 ^ m) ^ k ≤ 2 ^ ((2 + m) * k) := by
    rw [pow_mul, pow_add]
    exact Nat.pow_le_pow_left (Nat.mul_le_mul_right _ (by decide)) k
  have positive : 1 ≤ 2 ^ ((2 + m) * k) := Nat.one_le_two_pow
  calc c * (3 * 2 ^ m) ^ k + 1
      ≤ c * 2 ^ ((2 + m) * k) + 2 ^ ((2 + m) * k) :=
        Nat.add_le_add (Nat.mul_le_mul_left c base) positive
    _ = (c + 1) * 2 ^ ((2 + m) * k) := (succ_mul _ _).symm
    _ ≤ 2 ^ c * 2 ^ ((2 + m) * k) := mul_le_mul_right _ coefficient
    _ = 2 ^ (c + (2 + m) * k) := (pow_add _ _ _).symm
    _ < 2 ^ 2 ^ m := Nat.pow_lt_pow_right (by decide) room

end Sora.Contract
