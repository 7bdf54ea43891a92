import Sora.Contract.Groups
import Sora.Contract.Mihomo
import Sora.Lib.Naming

/-!
# Names of mihomo

mihomo addresses outbounds, groups and targets of its own by one set of names.  `buildProxies` numbers
the names of outbounds so that none is given twice; a group is named by its sanitised name as it
stands.  So groups can share a name with each other, with an outbound or with a target of the engine,
and `PlanNames` then attributes the name to one of them.

`wide` tells letters and digits beyond ASCII, and `reserved` lists the names that mihomo gives to its
own targets.  The settings of outbounds are left out; where they cannot be rendered, the source
renders nothing.
-/

namespace Sora.Contract.Mihomo

open Sora.Lib List Naming

section

variable (wide : Bytes → Bool) (reserved : List Bytes) (p : Plan)

/-! ## Names -/

/-- The names by reference, in the order in which they are given. -/
def nameTable : List (Bytes × Bytes) :=
  outboundNames wide p.outbounds [] ++ p.groups.map fun g => (g.name, sanitizeName wide g.name [])

/-- `PlanNames`: the names of outbounds are written before those of groups. -/
def planNames (name : Bytes) : Option Bytes :=
  Naming.get ((nameTable wide p).map Prod.swap) name

/-- What `engineName` may return: it goes through the names of the plan in any order. -/
def EngineName (ref name : Bytes) : Prop :=
  planNames wide p name = some ref ∨ (∀ other, planNames wide p other ≠ some ref) ∧ name = ref

/-! ## Groups -/

structure GroupOut where
  name : Bytes
  type : GroupType
  proxies : List Bytes
  url : Bytes := []
  interval : Int := 0

/-- `buildGroup`. -/
def buildGroup (testURL : Bytes) (g : Group) : Option GroupOut :=
  if g.provider ≠ [] ∨ g.outbounds = [] then none
  else do
    let proxies ← g.outbounds.mapM (byID wide p)
    let out : GroupOut := { name := sanitizeName wide g.name [], type := g.type, proxies := proxies }
    if g.type = .select then some out
    else if testURL = [] then none
    else
      some { out with
        url := if g.url = [] then testURL else g.url
        interval := if g.interval = 0 then 300 else g.interval }

/-- The names of a configuration: groups, and the targets of the rules. -/
structure Config where
  groups : List GroupOut
  targets : List Bytes

/-- `Render`, as far as names go; `fallback` is the test address of the run. -/
def render (fallback : Bytes) : Option Config := do
  let testURL := if p.options.testURL = [] then fallback else p.options.testURL
  let groups ← p.groups.mapM (buildGroup wide p testURL)
  let _ ← buildRules (byID wide p) p.rules
  let targets ← p.rules.mapM fun r => ruleTarget (byID wide p) r.target
  some ⟨groups, targets⟩

/-! ## What names denote -/

/-- The plan's word for a target of the engine. -/
def meaning (word : Bytes) : Bytes :=
  if word = ascii "DIRECT" then ascii "direct"
  else if word = ascii "REJECT" then ascii "reject"
  else if word = ascii "ACCEPT" then ascii "pass"
  else if word = ascii "NO-ADAPT" then ascii "dns"
  else word

/-- Everything that has a name in the engine. -/
def named : List (Bytes × Object) :=
  p.objects.map (fun entry => ((byID wide p entry.1).getD [], entry.2)) ++
    reserved.map fun word => (word, .builtIn (meaning word))

/-- A name stands for an object and for nothing else. -/
def Denotes (name : Bytes) (object : Object) : Prop :=
  ∀ other, (name, other) ∈ named wide reserved p ↔ other = object

/-- Names tell the objects of the plan apart, in both directions. -/
structure Identifies (cfg : Config) : Prop where
  distinct : ((nameTable wide p).map (·.2)).Nodup
  free : ∀ name ∈ (nameTable wide p).map (·.2), name ∉ reserved
  members : List.Forall₂ (fun g out => List.Forall₂ (fun ref name =>
    ∀ object, p.Names ref object → Denotes wide reserved p name object) g.outbounds
      (GroupOut.proxies out)) p.groups cfg.groups
  rules : List.Forall₂ (fun r name =>
    ∀ object, p.Names r.target object → Denotes wide reserved p name object) p.rules cfg.targets
  inverse : ∀ ref name, planNames wide p name = some ref ↔ byID wide p ref = some name
  engine : ∀ ref name, byID wide p ref = some name → ∀ n, EngineName wide p ref n ↔ n = name

/-- The groups can be named by their sanitised names, once the outbounds have theirs. -/
structure Apart : Prop where
  groups : (p.groups.map fun g => sanitizeName wide g.name []).Nodup
  outbounds : ∀ g ∈ p.groups,
    sanitizeName wide g.name [] ∉ (outboundNames wide p.outbounds []).map (·.2)
  groupsFree : ∀ g ∈ p.groups, sanitizeName wide g.name [] ∉ reserved
  outboundsFree : ∀ name ∈ (outboundNames wide p.outbounds []).map (·.2), name ∉ reserved

/-- The references that a configuration of the plan is made with. -/
def used : List Bytes := p.groups.flatMap (·.outbounds) ++ p.rules.map (·.target)

/-- The engine has the targets that the rules use. -/
def Known : Prop :=
  ∀ r ∈ p.rules, isBuiltInTarget r.target = true →
    ∃ word ∈ reserved, ruleTarget (byID wide p) r.target = some word

end

/-! ## Names are told apart -/

theorem candidate_injective (name : Bytes) : Function.Injective (candidate name) := by
  intro i j same
  simp only [candidate] at same
  split at same <;> split at same
  · omega
  · have length := congrArg List.length same
    rw [length_append, length_cons] at length
    omega
  · have length := congrArg List.length same
    rw [length_append, length_cons] at length
    omega
  · have digits := numeral_injective (cons.inj (append_cancel_left same)).2
    omega

theorem uniqueName_notMem (name : Bytes) (used : List Bytes) : uniqueName name used ∉ used :=
  firstFree_notMem (exists_free (candidate_injective name) used)

theorem outboundNames_eq (wide : Bytes → Bool) (outbounds : List Outbound) (used : List Bytes) :
    outboundNames wide outbounds used = (outbounds.map (·.id)).zip (nameAll
      (fun o used => uniqueName (sanitizeName wide o.name o.id) used) outbounds used) := by
  induction outbounds generalizing used with
  | nil => rfl
  | cons o rest ih => rw [outboundNames, ih, nameAll, map_cons, zip_cons_cons]

variable {name ref : Bytes} {object : Object} {wide : Bytes → Bool} {p : Plan}

section Table

variable {reserved : List Bytes}

theorem map_fst_outboundNames (outbounds : List Outbound) :
    (outboundNames wide outbounds []).map (·.1) = outbounds.map (·.id) := by
  rw [outboundNames_eq]
  refine map_fst_zip ?_
  rw [length_nameAll, length_map]

/-- No two outbounds get the same name. -/
theorem nodup_outboundNames (outbounds : List Outbound) :
    ((outboundNames wide outbounds []).map (·.2)).Nodup := by
  rw [outboundNames_eq, map_snd_zip (by rw [length_nameAll, length_map])]
  exact (nameAll_nodup (fun _ _ => uniqueName_notMem _ _) outbounds []).1

theorem map_fst_nameTable : (nameTable wide p).map (·.1) = p.objects.map (·.1) := by
  rw [nameTable, map_append, map_fst_outboundNames, map_fst_objects]
  simp only [map_map, Function.comp_def]

theorem map_snd_nameTable : (nameTable wide p).map (·.2) =
    (outboundNames wide p.outbounds []).map (·.2) ++
      p.groups.map fun g => sanitizeName wide g.name [] := by
  simp only [nameTable, map_append, map_map, Function.comp_def]

/-- What the numbering of outbounds leaves to be seen to. -/
theorem apart_iff : Apart wide reserved p ↔ ((nameTable wide p).map (·.2)).Nodup ∧
    ∀ name ∈ (nameTable wide p).map (·.2), name ∉ reserved := by
  rw [map_snd_nameTable, nodup_append']
  simp only [forall_mem_append, forall_mem_map]
  constructor
  · intro apart
    refine ⟨⟨nodup_outboundNames _, apart.groups, fun name outbound group => ?_⟩, ?_,
      apart.groupsFree⟩
    · obtain ⟨g, inside, rfl⟩ := mem_map.mp group
      exact apart.outbounds g inside outbound
    · exact fun entry inside => apart.outboundsFree _ (mem_map_of_mem (f := (·.2)) inside)
  · intro both
    obtain ⟨⟨-, groups, apart⟩, outboundsFree, groupsFree⟩ := both
    refine ⟨groups, fun g inside outbound => ?_, groupsFree, fun name inside => ?_⟩
    · exact apart outbound (mem_map_of_mem (f := fun g => sanitizeName wide g.name []) inside)
    · obtain ⟨entry, there, rfl⟩ := mem_map.mp inside
      exact outboundsFree entry there

theorem byID_eq (ref : Bytes) : byID wide p ref = Naming.get (nameTable wide p) ref := rfl

theorem byID_isSome_iff (wide : Bytes → Bool) :
    (byID wide p ref).isSome ↔ ref ∈ p.objects.map (·.1) := by
  rw [byID_eq, get_isSome_iff, map_fst_nameTable]

theorem mem_named : (name, object) ∈ named wide reserved p ↔
    (∃ ref, (ref, object) ∈ p.objects ∧ byID wide p ref = some name) ∨
      name ∈ reserved ∧ object = .builtIn (meaning name) := by
  rw [named, mem_append, mem_map, mem_map]
  refine or_congr ⟨?_, ?_⟩ ⟨?_, ?_⟩
  · intro own
    obtain ⟨⟨ref, object⟩, inside, same⟩ := own
    obtain ⟨name, found⟩ := Option.isSome_iff_exists.mp
      ((byID_isSome_iff wide).mpr (mem_map_of_mem inside))
    rw [found] at same
    cases same
    exact ⟨ref, inside, found⟩
  · intro own
    obtain ⟨ref, inside, found⟩ := own
    exact ⟨(ref, object), inside, by rw [found]; rfl⟩
  · intro own
    obtain ⟨word, inside, same⟩ := own
    cases same
    exact ⟨inside, rfl⟩
  · intro own
    exact ⟨name, own.1, by rw [own.2]⟩

end Table

/-! ## Plans whose names are apart -/

section Apart

variable {reserved : List Bytes}

section

variable (apart : Apart wide reserved p)

include apart

/-- Names that are apart can be read back. -/
theorem Apart.planNames_iff (valid : p.valid = true) :
    planNames wide p name = some ref ↔ byID wide p ref = some name := by
  refine get_swap_iff ?_ (apart_iff.mp apart).1
  rw [map_fst_nameTable]
  exact nodup_objects valid

theorem Apart.engineName_iff (valid : p.valid = true)
    (found : byID wide p ref = some name) (n : Bytes) : EngineName wide p ref n ↔ n = name := by
  have back := (apart.planNames_iff valid).mpr found
  constructor
  · intro returned
    rcases returned with own | ⟨unknown, -⟩
    · rw [apart.planNames_iff valid, found] at own
      exact (Option.some.inj own).symm
    · exact absurd back (unknown name)
  · intro same
    rw [same]
    exact .inl back

theorem Apart.notMem_reserved (found : byID wide p ref = some name) : name ∉ reserved :=
  (apart_iff.mp apart).2 name (mem_map_of_mem (mem_of_get found))

/-- The name of a reference stands for its object. -/
theorem Apart.named_iff (valid : p.valid = true) (found : byID wide p ref = some name) :
    (name, object) ∈ named wide reserved p ↔ (ref, object) ∈ p.objects := by
  rw [mem_named]
  constructor
  · intro denotes
    rcases denotes with ⟨other, inside, same⟩ | ⟨word, -⟩
    · have back := (apart.planNames_iff valid).mpr found
      rw [(apart.planNames_iff valid).mpr same] at back
      cases back
      exact inside
    · exact absurd word (apart.notMem_reserved found)
  · intro inside
    exact .inl ⟨ref, inside, found⟩

/-- A reference that is looked up among the plan's objects. -/
theorem Apart.member_iff (valid : p.valid = true) (found : byID wide p ref = some name) :
    (∀ object, p.Names ref object → Denotes wide reserved p name object) ↔ ¬p.Ambiguous ref := by
  have own : ref ∈ p.objects.map (·.1) := by
    rw [← byID_isSome_iff wide, found]
    rfl
  constructor
  · intro all ambiguous
    have denoted := (all _ (.builtIn ambiguous.1) _).mpr rfl
    exact builtIn_notMem_objects ((apart.named_iff valid found).mp denoted)
  · intro plain object names other
    cases names with
    | own inside =>
      rw [apart.named_iff valid found]
      constructor
      · exact object_unique valid inside
      · intro same
        rw [same]
        exact inside
    | builtIn known => exact absurd ⟨known, own⟩ plain

end

/-- The engine's word for a target of the plan. -/
theorem ruleTarget_builtIn (names : Bytes → Option Bytes) (known : isBuiltInTarget ref = true) :
    ∃ word, ruleTarget names ref = some word ∧ meaning word = ref := by
  have each : ref = ascii "direct" ∨ ref = ascii "reject" ∨ ref = ascii "pass" ∨
      ref = ascii "dns" := by
    simpa [isBuiltInTarget] using known
  rcases each with rfl | rfl | rfl | rfl
  · exact ⟨ascii "DIRECT", rfl, rfl⟩
  · exact ⟨ascii "REJECT", rfl, rfl⟩
  · exact ⟨ascii "ACCEPT", rfl, rfl⟩
  · exact ⟨ascii "NO-ADAPT", rfl, rfl⟩

theorem ruleTarget_own {names : Bytes → Option Bytes} (other : isBuiltInTarget ref = false) :
    ruleTarget names ref = names ref := by
  have each : ref ≠ ascii "direct" ∧ ref ≠ ascii "reject" ∧ ref ≠ ascii "pass" ∧
      ref ≠ ascii "dns" := by
    simpa [isBuiltInTarget] using other
  rw [ruleTarget, if_neg each.1, if_neg each.2.1, if_neg each.2.2.1, if_neg each.2.2.2]

/-- A target of a rule, which is looked for among the targets of the engine first. -/
theorem Apart.rule_iff (apart : Apart wide reserved p) (valid : p.valid = true)
    (found : ruleTarget (byID wide p) ref = some name) :
    (∀ object, p.Names ref object → Denotes wide reserved p name object) ↔
      ¬p.Ambiguous ref ∧ (isBuiltInTarget ref = true → name ∈ reserved) := by
  cases known : isBuiltInTarget ref with
  | false =>
    rw [ruleTarget_own known] at found
    rw [apart.member_iff valid found]
    simp
  | true =>
    obtain ⟨word, same, means⟩ := ruleTarget_builtIn (byID wide p) known
    rw [same] at found
    cases found
    simp only [true_imp_iff]
    constructor
    · intro all
      have denotes := all _ (.builtIn known)
      have word : name ∈ reserved := by
        rcases mem_named.mp ((denotes _).mpr rfl) with ⟨_, inside, -⟩ | ⟨word, -⟩
        · exact absurd inside builtIn_notMem_objects
        · exact word
      refine ⟨fun ambiguous => ?_, word⟩
      obtain ⟨⟨other, object⟩, inside, named⟩ := mem_map.mp ambiguous.2
      cases named
      have own := (all object (.own inside) _).mp ((denotes _).mpr rfl)
      rw [← own] at inside
      exact builtIn_notMem_objects inside
    · intro both object names other
      obtain ⟨plain, word⟩ := both
      cases names with
      | own inside => exact absurd ⟨known, mem_map_of_mem inside⟩ plain
      | builtIn =>
        rw [mem_named, means]
        constructor
        · intro denotes
          rcases denotes with ⟨_, -, given⟩ | ⟨-, same⟩
          · exact absurd word (apart.notMem_reserved given)
          · exact same
        · intro same
          exact .inr ⟨word, same⟩

end Apart

/-! ## Configurations whose names identify -/

theorem proxies_of_buildGroup {testURL : Bytes} {g : Group} {out : GroupOut}
    (made : buildGroup wide p testURL g = some out) :
    List.Forall₂ (fun ref name => byID wide p ref = some name) g.outbounds out.proxies := by
  rw [buildGroup] at made
  split at made
  · cases made
  · obtain ⟨proxies, found, made⟩ := Option.bind_eq_some_iff.mp made
    have listed : out.proxies = proxies := by
      split at made
      · cases made
        rfl
      · split at made
        · cases made
        · cases made
          rfl
    rw [listed]
    exact mapM_eq_some_iff.mp found

theorem render_eq_some {fallback : Bytes} {cfg : Config}
    (made : render wide p fallback = some cfg) :
    (∃ testURL, List.Forall₂ (fun g out => buildGroup wide p testURL g = some out) p.groups
      cfg.groups) ∧
    List.Forall₂ (fun r name => ruleTarget (byID wide p) r.target = some name) p.rules
      cfg.targets := by
  obtain ⟨groups, grouped, made⟩ := Option.bind_eq_some_iff.mp made
  obtain ⟨lines, -, made⟩ := Option.bind_eq_some_iff.mp made
  obtain ⟨targets, ruled, made⟩ := Option.bind_eq_some_iff.mp made
  cases made
  exact ⟨⟨_, mapM_eq_some_iff.mp grouped⟩, mapM_eq_some_iff.mp ruled⟩

section Identify

variable {reserved : List Bytes} {fallback : Bytes} {cfg : Config}

theorem Apart.members_iff (apart : Apart wide reserved p) (valid : p.valid = true)
    (made : render wide p fallback = some cfg) :
    List.Forall₂ (fun g out => List.Forall₂ (fun ref name =>
      ∀ object, p.Names ref object → Denotes wide reserved p name object) g.outbounds
        (GroupOut.proxies out)) p.groups cfg.groups ↔
      ∀ g ∈ p.groups, ∀ ref ∈ g.outbounds, ¬p.Ambiguous ref := by
  obtain ⟨⟨_, grouped⟩, -⟩ := render_eq_some made
  refine forall₂_iff (grouped.imp fun g out one => forall₂_iff ?_)
  exact (proxies_of_buildGroup one).imp fun ref name found => apart.member_iff valid found

theorem Apart.rules_iff (apart : Apart wide reserved p) (valid : p.valid = true)
    (made : render wide p fallback = some cfg) :
    List.Forall₂ (fun r name => ∀ object, p.Names (Rule.target r) object →
      Denotes wide reserved p name object) p.rules cfg.targets ↔
      ∀ r ∈ p.rules, ¬p.Ambiguous r.target ∧ (isBuiltInTarget r.target = true →
        ∃ word ∈ reserved, ruleTarget (byID wide p) r.target = some word) := by
  obtain ⟨-, ruled⟩ := render_eq_some made
  refine forall₂_iff (ruled.imp fun r name found => ?_)
  rw [apart.rule_iff valid found]
  refine and_congr_right fun _ => imp_congr_right fun _ => ?_
  constructor
  · intro word
    exact ⟨name, word, found⟩
  · intro known
    obtain ⟨word, inside, same⟩ := known
    rw [found] at same
    cases same
    exact inside

/-- The names of a configuration identify what the plan has exactly if the groups can be named by
their sanitised names, no reference in use names a target of the engine and an object of the plan,
and the engine has the targets that the rules use.  Those of outbounds are always told apart. -/
theorem names_identify_iff (valid : p.valid = true) (made : render wide p fallback = some cfg) :
    ((outboundNames wide p.outbounds []).map (·.2)).Nodup ∧
      (Identifies wide reserved p cfg ↔ Apart wide reserved p ∧
        (∀ ref ∈ used p, ¬p.Ambiguous ref) ∧ Known wide reserved p) := by
  refine ⟨nodup_outboundNames _, ?_⟩
  have all : (∀ ref ∈ used p, ¬p.Ambiguous ref) ↔
      (∀ g ∈ p.groups, ∀ ref ∈ g.outbounds, ¬p.Ambiguous ref) ∧
        ∀ r ∈ p.rules, ¬p.Ambiguous r.target := by
    simp only [used, forall_mem_append, mem_flatMap, forall_mem_map]
    exact and_congr_left' ⟨fun each g inside ref member => each ref ⟨g, inside, member⟩,
      fun each ref ⟨g, inside, member⟩ => each g inside ref member⟩
  rw [all]
  constructor
  · intro identifies
    have apart := apart_iff.mpr ⟨identifies.distinct, identifies.free⟩
    have members := (apart.members_iff valid made).mp identifies.members
    have rules := (apart.rules_iff valid made).mp identifies.rules
    exact ⟨apart, ⟨members, fun r inside => (rules r inside).1⟩, fun r inside => (rules r inside).2⟩
  · intro condition
    obtain ⟨apart, ⟨members, plain⟩, known⟩ := condition
    obtain ⟨distinct, free⟩ := apart_iff.mp apart
    exact ⟨distinct, free, (apart.members_iff valid made).mpr members,
      (apart.rules_iff valid made).mpr fun r inside => ⟨plain r inside, known r inside⟩,
      fun _ _ => apart.planNames_iff valid, fun _ _ found => apart.engineName_iff valid found⟩

end Identify

/-- The names that mihomo gives to its own targets. -/
def ownNames : List Bytes :=
  ["DIRECT", "REJECT", "REJECT-DROP", "PASS", "COMPATIBLE", "GLOBAL"].map ascii

/-- A plan with a group of groups and a rule that rejects. -/
def tidyPlan : Plan where
  sessionID := ascii "s"
  outbounds := [{ id := ascii "1", protocol := .trojan, server := ascii "s.example", port := 443 }]
  groups := [{ name := ascii "outer", type := .select, outbounds := [ascii "inner"] },
    { name := ascii "inner", type := .select, outbounds := [ascii "1"] }]
  rules := [{ type := .geoSite, value := ascii "category-ads-all", target := ascii "reject" },
    { type := .matchAll, value := [], target := ascii "outer" }]

theorem tidy_plan_names : ∃ cfg, render (fun _ => false) tidyPlan [] = some cfg ∧
    Identifies (fun _ => false) ownNames tidyPlan cfg := by
  have valid : tidyPlan.valid = true := by decide
  obtain ⟨cfg, made⟩ := Option.isSome_iff_exists.mp
    (show (render (fun _ => false) tidyPlan []).isSome = true by decide)
  refine ⟨cfg, made, (names_identify_iff valid made).2.mpr ⟨apart_iff.mpr ?_, by decide, ?_⟩⟩
  · exact ⟨by decide, by decide⟩
  · intro r inside known
    rcases mem_cons.mp inside with rfl | last
    · exact ⟨ascii "REJECT", by decide, rfl⟩
    · rw [mem_singleton.mp last] at known
      exact absurd known (by decide)

/-- A server that is shown under the name of a group. -/
def sharedName : Plan where
  sessionID := ascii "s"
  outbounds := [{ id := ascii "1", name := ascii "Berlin", protocol := .trojan, server := ascii "b.io",
                  port := 443 }]
  groups := [{ name := ascii "Berlin", type := .select, outbounds := [ascii "1"] }]
  rules := [{ type := .matchAll, value := [], target := ascii "Berlin" }]

/-- The group has itself for a member, and the server is reported as the group. -/
theorem group_takes_name : ∃ p cfg, p.valid = true ∧
    render (fun _ => false) p [] = some cfg ∧
    cfg.groups.map (fun g => (g.name, g.proxies)) = [(ascii "Berlin", [ascii "Berlin"])] ∧
    byID (fun _ => false) p (ascii "1") = some (ascii "Berlin") ∧
    planNames (fun _ => false) p (ascii "Berlin") = some (ascii "Berlin") ∧
    ¬Identifies (fun _ => false) ownNames p cfg := by
  obtain ⟨cfg, made⟩ := Option.isSome_iff_exists.mp
    (show (render (fun _ => false) sharedName []).isSome = true by decide)
  have shape : (render (fun _ => false) sharedName []).map (fun cfg =>
      cfg.groups.map fun g => (g.name, g.proxies)) =
        some [(ascii "Berlin", [ascii "Berlin"])] := by decide
  rw [made, Option.map_some, Option.some.injEq] at shape
  refine ⟨sharedName, cfg, by decide, made, shape, by decide, by decide, fun identifies => ?_⟩
  exact absurd identifies.distinct (by decide)

end Sora.Contract.Mihomo
