import Sora.Contract.Groups
import Sora.Lib.Lists
import Sora.Lib.Naming

/-!
# Tags of sing-box

sing-box addresses outbounds and groups by tags.  `assignTags` prefers the display name and falls back
to the id with a number, so that no tag is given twice; `PlanNames` reads the tags backwards.  Rules
and members are rendered through them, but some references are taken for targets of the engine
before the tags are looked at: `direct` always, `reject` and `dns` in rules only.

The settings of outbounds, resolvers and listeners are left out; where they cannot be rendered, the
source renders nothing.
-/

namespace Sora.Contract.SingBox

open Sora.Lib List Naming
open Option hiding forall_mem_map mem_map

/-! ## Tags -/

def direct : Bytes := ascii "direct"

/-- The texts that `unique` tries: the display name unless it is empty, the fallback, and the fallback
with a number from two. -/
def candidate (name fallback : Bytes) : Nat → Bytes
  | 0 => if trimSpace name = [] then fallback else trimSpace name
  | 1 => fallback
  | n + 2 => fallback ++ 45 :: numeral 10 (n + 2)

/-- `unique` of `assignTags`. -/
def unique (name fallback : Bytes) (used : List Bytes) : Bytes :=
  Naming.firstFree (candidate name fallback) (used.length + 2) used

def pickTag (entry : Bytes × Object) (used : List Bytes) : Bytes :=
  match entry.2 with
  | .outbound o => unique o.name o.id used
  | .group g => unique g.name (ascii "group") used
  | .builtIn target => unique target target used

/-- `assignTags`: outbounds first, then groups.  A group whose name is in the map already is an
error. -/
def assignTags (p : Plan) : Option (List (Bytes × Bytes)) :=
  if (p.groups.map (·.name)).Nodup ∧ ∀ g ∈ p.groups, g.name ∉ p.outbounds.map (·.id) then
    some ((p.objects.map (·.1)).zip (Naming.nameAll pickTag p.objects [direct]))
  else none

/-- `target`. -/
def target (tags : List (Bytes × Bytes)) (id : Bytes) : Option Bytes :=
  if id = direct then some direct else Naming.get tags id

/-- `PlanNames`. -/
def planNames (p : Plan) (tag : Bytes) : Option Bytes :=
  (assignTags p).bind fun tags => Naming.get (tags.map Prod.swap) tag

/-! ## Groups -/

inductive GroupOut where
  | selector (tag : Bytes) (outbounds : List Bytes)
  | urltest (tag : Bytes) (outbounds : List Bytes) (url : Bytes) (interval : Option Int)
  deriving DecidableEq

def GroupOut.tag : GroupOut → Bytes
  | .selector tag _ => tag
  | .urltest tag _ _ _ => tag

def GroupOut.outbounds : GroupOut → List Bytes
  | .selector _ outbounds => outbounds
  | .urltest _ outbounds _ _ => outbounds

/-- `group`. -/
def group (tags : List (Bytes × Bytes)) (testURL : Bytes) (g : Group) : Option GroupOut := do
  let members ← g.outbounds.mapM (target tags)
  if members = [] then none
  else
    let tag := (Naming.get tags g.name).getD []
    match g.type with
    | .select => some (.selector tag members)
    | .urlTest =>
      some (.urltest tag members (if g.url = [] then testURL else g.url)
        (if 0 < g.interval then some g.interval else none))
    | _ => none

/-! ## Rules -/

/-- A rule set that the configuration downloads. -/
structure RuleSet where
  tag : Bytes
  url : Bytes
  deriving DecidableEq

/-- `remoteRuleSet`: one set for each address. -/
def remoteRuleSet (sets : List RuleSet) (tag url : Bytes) : Bytes × List RuleSet :=
  match sets.find? fun s => s.url == url with
  | some s => (s.tag, sets)
  | none => (tag, sets ++ [⟨tag, url⟩])

/-- The conditions of a rule; a port is kept as the text that was read. -/
inductive Match where
  | any
  | protocolDNS
  | domain (v : Bytes)
  | domainSuffix (v : Bytes)
  | domainKeyword (v : Bytes)
  | ipCIDR (v : Bytes)
  | port (v : Bytes)
  | sourcePort (v : Bytes)
  | processName (v : Bytes)
  | network (v : Bytes)
  | ipIsPrivate
  | ruleSet (tag : Bytes)
  deriving DecidableEq

def geoSiteRuleSetURL (v : Bytes) : Bytes :=
  ascii "https://raw.githubusercontent.com/SagerNet/sing-geosite/rule-set/geosite-" ++ v ++
    ascii ".srs"

def geoIPRuleSetURL (v : Bytes) : Bytes :=
  ascii "https://raw.githubusercontent.com/SagerNet/sing-geoip/rule-set/geoip-" ++ v ++ ascii ".srs"

/-- The condition for a rule set, with the sets known so far. -/
def setMatch (sets : List RuleSet) (tag url : Bytes) : Match × List RuleSet :=
  let (tag, sets) := remoteRuleSet sets tag url
  (.ruleSet tag, sets)

/-- `match`. -/
def matchRule (sets : List RuleSet) (r : Rule) : Option (Match × List RuleSet) :=
  let v := r.value
  let low := Url.toLower v
  match r.type with
  | .domain => some (.domain v, sets)
  | .domainSuffix => some (.domainSuffix v, sets)
  | .domainKeyword => some (.domainKeyword v, sets)
  | .ipCIDR => some (.ipCIDR v, sets)
  | .port => if isInteger v then some (.port v, sets) else none
  | .srcPort => if isInteger v then some (.sourcePort v, sets) else none
  | .process => some (.processName v, sets)
  | .protocol => some (.network low, sets)
  | .geoIP =>
    if low = ascii "private" ∨ low = ascii "lan" then some (.ipIsPrivate, sets)
    else some (setMatch sets (ascii "geoip-" ++ low) (geoIPRuleSetURL low))
  | .geoSite => some (setMatch sets (ascii "geosite-" ++ low) (geoSiteRuleSetURL low))
  | .ruleSet =>
    if (ascii "https://").isPrefixOf v then
      some (setMatch sets (ascii "rule-set-" ++ numeral 10 (sets.length + 1)) v)
    else none
  | _ => none

inductive Action where
  | sniff
  | hijackDNS
  | reject
  | route (tag : Bytes)
  deriving DecidableEq

/-- The action for the target of a rule. -/
def actionOf (tags : List (Bytes × Bytes)) (id : Bytes) : Option Action :=
  if id = ascii "reject" then some .reject
  else if id = ascii "dns" then some .hijackDNS
  else (target tags id).map .route

/-- The rules of a configuration; without a last rule for everything the rest goes out directly. -/
structure Route where
  rules : List (Match × Action)
  final : Option Bytes := none
  ruleSets : List RuleSet

/-- The loop of `route`.  A rule for everything ends it, unless it rejects. -/
def routeRules (tags : List (Bytes × Bytes)) : List Rule → List RuleSet → Option Route
  | [], sets => some { rules := [], ruleSets := sets }
  | r :: rest, sets =>
    if r.type = .matchAll then
      if r.target = ascii "reject" then
        (routeRules tags rest sets).map fun out =>
          { out with rules := (.any, .reject) :: out.rules }
      else (target tags r.target).map fun tag => { rules := [], final := some tag, ruleSets := sets }
    else do
      let (condition, sets) ← matchRule sets r
      let action ← actionOf tags r.target
      let out ← routeRules tags rest sets
      some { out with rules := (condition, action) :: out.rules }

/-! ## Configurations -/

/-- What the references of a plan become. -/
structure Config where
  /-- The tags of the outbounds, the groups and the direct outbound. -/
  outbounds : List (Bytes × Object)
  groups : List GroupOut
  route : Route

/-- `Render`, as far as references go. -/
def render (p : Plan) : Option Config := do
  let tags ← assignTags p
  let groups ← p.groups.mapM (group tags p.options.testURL)
  let route ← routeRules tags p.rules []
  some {
    outbounds := p.objects.map (fun entry => ((Naming.get tags entry.1).getD [], entry.2)) ++
      [(direct, .builtIn direct)]
    groups := groups
    route := { route with
      rules := (.any, .sniff) :: (.protocolDNS, .hijackDNS) :: route.rules } }

/-! ## What tags denote -/

/-- What the action of a rule leads to. -/
def Config.leads (cfg : Config) : Action → Object → Prop
  | .route tag, object => (tag, object) ∈ cfg.outbounds
  | .reject, object => object = .builtIn (ascii "reject")
  | .hijackDNS, object => object = .builtIn (ascii "dns")
  | .sniff, _ => False

/-- The rules that `route` comes to. -/
def reached : List Rule → List Rule
  | [] => []
  | r :: rest =>
    if r.type = .matchAll ∧ r.target ≠ ascii "reject" then [r] else r :: reached rest

/-- The actions for the rules of the plan. -/
def Route.actions (route : Route) : List Action :=
  route.rules.map (·.2) ++ (route.final.map Action.route).toList

/-- Members and rules lead to what their references name. -/
structure Config.Faithful (cfg : Config) (p : Plan) : Prop where
  members : List.Forall₂ (fun g out => List.Forall₂ (fun ref tag =>
    ∀ object, p.Names ref object → (tag, object) ∈ cfg.outbounds) g.outbounds out.outbounds)
    p.groups cfg.groups
  rules : List.Forall₂ (fun r action => ∀ object, p.Names r.target object → cfg.leads action object)
    (reached p.rules) (cfg.route.actions.drop 2)

/-- The references that a configuration of the plan is made with. -/
def used (p : Plan) : List Bytes :=
  p.groups.flatMap (·.outbounds) ++ (reached p.rules).map (·.target)

/-! ## Tags are told apart -/

theorem candidate_injective (name fallback : Bytes) :
    Function.Injective fun i => candidate name fallback (i + 1) := by
  have numbered : ∀ n, fallback ++ 45 :: numeral 10 (n + 2) ≠ fallback := by
    intro n same
    have length := congrArg List.length same
    rw [length_append, length_cons] at length
    omega
  intro i j same
  cases i with
  | zero =>
    cases j with
    | zero => rfl
    | succ j => exact absurd same.symm (numbered j)
  | succ i =>
    cases j with
    | zero => exact absurd same (numbered i)
    | succ j =>
      have tail := append_cancel_left same
      have digits := numeral_injective (cons.inj tail).2
      omega

theorem unique_notMem (name fallback : Bytes) (used : List Bytes) : unique name fallback used ∉ used := by
  refine firstFree_notMem ?_
  obtain ⟨i, below, free⟩ := exists_free (candidate_injective name fallback) used
  exact ⟨i + 1, by omega, free⟩

theorem pickTag_notMem (entry : Bytes × Object) (used : List Bytes) : pickTag entry used ∉ used := by
  rw [pickTag]
  split <;> exact unique_notMem _ _ _

/-- The tags of a plan whose references are told apart. -/
def tagsOf (p : Plan) : List (Bytes × Bytes) :=
  (p.objects.map (·.1)).zip (Naming.nameAll pickTag p.objects [direct])

variable {p : Plan} {ref tag : Bytes} {object : Object} {tags : List (Bytes × Bytes)} {cfg : Config}

theorem assignTags_eq (valid : p.valid = true) : assignTags p = some (tagsOf p) := by
  obtain ⟨-, -, -, ⟨-, names, apart, -⟩, -⟩ := (valid_iff p).mp valid
  exact if_pos ⟨names, apart⟩

theorem map_fst_tagsOf (p : Plan) : (tagsOf p).map (·.1) = p.objects.map (·.1) := by
  refine map_fst_zip ?_
  rw [length_nameAll, length_map]

theorem map_snd_tagsOf (p : Plan) : (tagsOf p).map (·.2) = nameAll pickTag p.objects [direct] := by
  refine map_snd_zip ?_
  rw [length_nameAll, length_map]

theorem nodup_tags (p : Plan) : ((tagsOf p).map (·.2)).Nodup := by
  rw [map_snd_tagsOf]
  exact (nameAll_nodup pickTag_notMem _ _).1

theorem direct_notMem_tags (p : Plan) : direct ∉ (tagsOf p).map (·.2) := by
  rw [map_snd_tagsOf]
  intro inside
  exact (nameAll_nodup pickTag_notMem _ _).2 _ inside mem_cons_self

/-- `PlanNames` reads the tags backwards. -/
theorem planNames_iff (valid : p.valid = true) :
    planNames p tag = some ref ↔ Naming.get (tagsOf p) ref = some tag := by
  rw [planNames, assignTags_eq valid]
  refine get_swap_iff ?_ (nodup_tags p)
  rw [map_fst_tagsOf]
  exact nodup_objects valid

/-! ## What references lead to -/

section Leads

/-- The tags of a configuration, with what they denote. -/
def outboundsOf (p : Plan) : List (Bytes × Object) :=
  p.objects.map (fun entry => ((Naming.get (tagsOf p) entry.1).getD [], entry.2)) ++
    [(direct, .builtIn direct)]

theorem get_tagsOf (inside : (ref, object) ∈ p.objects) :
    ∃ tag, Naming.get (tagsOf p) ref = some tag := by
  refine isSome_iff_exists.mp (get_isSome_iff.mpr ?_)
  rw [map_fst_tagsOf]
  exact mem_map_of_mem inside

theorem mem_outboundsOf : (tag, object) ∈ outboundsOf p ↔
    (∃ ref, (ref, object) ∈ p.objects ∧ Naming.get (tagsOf p) ref = some tag) ∨
      tag = direct ∧ object = .builtIn direct := by
  rw [outboundsOf, mem_append, mem_singleton, Prod.mk.injEq, mem_map]
  refine or_congr_left ⟨?_, ?_⟩
  · intro own
    obtain ⟨⟨ref, object⟩, inside, same⟩ := own
    obtain ⟨tag, found⟩ := get_tagsOf inside
    rw [found] at same
    cases same
    exact ⟨ref, inside, found⟩
  · intro own
    obtain ⟨ref, inside, found⟩ := own
    exact ⟨(ref, object), inside, by rw [found]; rfl⟩

theorem tag_ne_direct : Naming.get (tagsOf p) ref ≠ some direct := by
  intro found
  exact direct_notMem_tags p (mem_map_of_mem (mem_of_get found))

/-- A tag denotes the object whose reference it was given for, and no other. -/
theorem denotes_iff (valid : p.valid = true) (found : Naming.get (tagsOf p) ref = some tag) :
    (tag, object) ∈ outboundsOf p ↔ (ref, object) ∈ p.objects := by
  rw [mem_outboundsOf]
  constructor
  · intro denotes
    rcases denotes with ⟨other, inside, same⟩ | ⟨rfl, -⟩
    · have back := (planNames_iff valid).mpr found
      rw [(planNames_iff valid).mpr same] at back
      cases back
      exact inside
    · exact absurd found tag_ne_direct
  · intro inside
    exact .inl ⟨ref, inside, found⟩

theorem direct_denotes_iff : (direct, object) ∈ outboundsOf p ↔ object = .builtIn direct := by
  rw [mem_outboundsOf]
  constructor
  · intro denotes
    rcases denotes with ⟨_, -, found⟩ | ⟨-, same⟩
    · exact absurd found tag_ne_direct
    · exact same
  · intro same
    exact .inr ⟨rfl, same⟩

/-- A reference that is taken for a target of the engine leads where it should unless the plan has
an object of this name. -/
theorem builtIn_leads_iff (known : isBuiltInTarget ref = true) :
    (∀ object, p.Names ref object → object = .builtIn ref) ↔ ¬p.Ambiguous ref := by
  constructor
  · intro only ambiguous
    obtain ⟨⟨other, object⟩, inside, same⟩ := mem_map.mp ambiguous.2
    cases same
    rw [only object (.own inside)] at inside
    exact builtIn_notMem_objects inside
  · intro plain object names
    cases names with
    | own inside => exact absurd ⟨known, mem_map_of_mem inside⟩ plain
    | builtIn => rfl

theorem target_leads_iff (valid : p.valid = true) (made : target (tagsOf p) ref = some tag) :
    (∀ object, p.Names ref object → (tag, object) ∈ outboundsOf p) ↔ ¬p.Ambiguous ref := by
  rw [target] at made
  split at made
  · rename_i same
    subst same
    cases made
    simp only [direct_denotes_iff]
    exact builtIn_leads_iff (by decide)
  · simp only [denotes_iff valid made]
    have own : ref ∈ p.objects.map (·.1) := by
      rw [← map_fst_tagsOf, ← get_isSome_iff, made]
      rfl
    constructor
    · intro all ambiguous
      exact builtIn_notMem_objects (all _ (.builtIn ambiguous.1))
    · intro plain object names
      cases names with
      | own inside => exact inside
      | builtIn known => exact absurd ⟨known, own⟩ plain

/-- The action for a rule that `route` comes to. -/
def actionFor (tags : List (Bytes × Bytes)) (r : Rule) : Option Action :=
  if r.type = .matchAll ∧ r.target ≠ ascii "reject" then (target tags r.target).map .route
  else actionOf tags r.target

theorem routeRules_actions {rules : List Rule} {sets : List RuleSet} {out : Route}
    (made : routeRules tags rules sets = some out) :
    List.Forall₂ (fun r action => actionFor tags r = some action) (reached rules) out.actions := by
  induction rules generalizing sets out with
  | nil =>
    cases made
    exact .nil
  | cons r rest ih =>
    rw [routeRules] at made
    rw [reached]
    split at made
    · rename_i everything
      split at made
      · rename_i rejects
        obtain ⟨rest, later, rfl⟩ := map_eq_some_iff.mp made
        rw [if_neg fun both => both.2 rejects]
        refine .cons ?_ (ih later)
        rw [actionFor, if_neg fun both => both.2 rejects, actionOf, if_pos rejects]
      · rename_i passes
        obtain ⟨tag, found, rfl⟩ := map_eq_some_iff.mp made
        rw [if_pos ⟨everything, passes⟩]
        refine .cons ?_ .nil
        rw [actionFor, if_pos ⟨everything, passes⟩, found]
        rfl
    · rename_i narrow
      obtain ⟨⟨condition, sets⟩, -, made⟩ := bind_eq_some_iff.mp made
      obtain ⟨action, acts, made⟩ := bind_eq_some_iff.mp made
      obtain ⟨later, follows, same⟩ := bind_eq_some_iff.mp made
      cases same
      rw [if_neg fun both => narrow both.1]
      refine .cons ?_ (ih follows)
      rw [actionFor, if_neg fun both => narrow both.1]
      exact acts

theorem action_leads_iff (valid : p.valid = true) (same : cfg.outbounds = outboundsOf p) {r : Rule}
    {action : Action} (made : actionFor (tagsOf p) r = some action) :
    (∀ object, p.Names r.target object → cfg.leads action object) ↔ ¬p.Ambiguous r.target := by
  have route : ∀ {tag}, target (tagsOf p) r.target = some tag →
      ((∀ object, p.Names r.target object → cfg.leads (.route tag) object) ↔
        ¬p.Ambiguous r.target) := by
    intro tag found
    simp only [Config.leads, same]
    exact target_leads_iff valid found
  rw [actionFor] at made
  split at made
  · obtain ⟨tag, found, rfl⟩ := map_eq_some_iff.mp made
    exact route found
  · rw [actionOf] at made
    split at made
    · rename_i rejects
      cases made
      rw [rejects]
      exact builtIn_leads_iff (by decide)
    · split at made
      · rename_i resolves
        cases made
        rw [resolves]
        exact builtIn_leads_iff (by decide)
      · obtain ⟨tag, found, rfl⟩ := map_eq_some_iff.mp made
        exact route found

theorem outbounds_of_group {testURL : Bytes} {g : Group} {out : GroupOut}
    (made : group tags testURL g = some out) :
    List.Forall₂ (fun ref tag => target tags ref = some tag) g.outbounds out.outbounds := by
  obtain ⟨members, found, made⟩ := bind_eq_some_iff.mp made
  have listed : out.outbounds = members := by
    split at made
    · cases made
    · split at made
      · cases made
        rfl
      · cases made
        rfl
      · cases made
  rw [listed]
  exact mapM_eq_some_iff.mp found

/-- The parts of a configuration. -/
theorem render_eq_some (valid : p.valid = true) (made : render p = some cfg) :
    cfg.outbounds = outboundsOf p ∧
      List.Forall₂ (fun g out => group (tagsOf p) p.options.testURL g = some out) p.groups
        cfg.groups ∧
      List.Forall₂ (fun r action => actionFor (tagsOf p) r = some action) (reached p.rules)
        (cfg.route.actions.drop 2) := by
  rw [render, assignTags_eq valid, bind_eq_bind, bind_some] at made
  obtain ⟨groups, grouped, made⟩ := bind_eq_some_iff.mp made
  obtain ⟨route, routed, made⟩ := bind_eq_some_iff.mp made
  cases made
  exact ⟨rfl, mapM_eq_some_iff.mp grouped, routeRules_actions routed⟩

end Leads

/-! ## Configurations that do what the plan says -/

theorem faithful_iff (valid : p.valid = true) (made : render p = some cfg) :
    cfg.Faithful p ↔ ∀ ref ∈ used p, ¬p.Ambiguous ref := by
  obtain ⟨same, grouped, routed⟩ := render_eq_some valid made
  have members : List.Forall₂ (fun g out => List.Forall₂ (fun ref tag =>
      ∀ object, p.Names ref object → (tag, object) ∈ cfg.outbounds) g.outbounds out.outbounds)
      p.groups cfg.groups ↔ ∀ g ∈ p.groups, ∀ ref ∈ g.outbounds, ¬p.Ambiguous ref := by
    refine forall₂_iff (grouped.imp fun g out one => forall₂_iff ?_)
    refine (outbounds_of_group one).imp fun ref tag found => ?_
    rw [same]
    exact target_leads_iff valid found
  have rules : List.Forall₂ (fun r action => ∀ object, p.Names r.target object →
      cfg.leads action object) (reached p.rules) (cfg.route.actions.drop 2) ↔
      ∀ r ∈ reached p.rules, ¬p.Ambiguous r.target :=
    forall₂_iff (routed.imp fun r action acts => action_leads_iff valid same acts)
  have all : (∀ ref ∈ used p, ¬p.Ambiguous ref) ↔
      (∀ g ∈ p.groups, ∀ ref ∈ g.outbounds, ¬p.Ambiguous ref) ∧
        ∀ r ∈ reached p.rules, ¬p.Ambiguous r.target := by
    simp only [used, forall_mem_append, mem_flatMap, forall_mem_map]
    exact and_congr_left' ⟨fun each g inside ref member => each ref ⟨g, inside, member⟩,
      fun each ref ⟨g, inside, member⟩ => each g inside ref member⟩
  rw [all, ← members, ← rules]
  exact ⟨fun faithful => ⟨faithful.members, faithful.rules⟩, fun both => ⟨both.1, both.2⟩⟩

/-- The tags of a valid plan are told apart and can be read back.  Its configuration leads where the
references say exactly if none that is used names both a target of the engine and an object of the
plan. -/
theorem tags_identify_iff {p : Plan} (valid : p.valid = true) :
    ∃ tags, assignTags p = some tags ∧ tags.map (·.1) = p.objects.map (·.1) ∧
      (tags.map (·.2)).Nodup ∧ ascii "direct" ∉ tags.map (·.2) ∧
      (∀ ref tag, planNames p tag = some ref ↔ Naming.get tags ref = some tag) ∧
      ∀ cfg, render p = some cfg → (cfg.Faithful p ↔ ∀ ref ∈ used p, ¬p.Ambiguous ref) :=
  ⟨tagsOf p, assignTags_eq valid, map_fst_tagsOf p, nodup_tags p, direct_notMem_tags p,
    fun _ _ => planNames_iff valid, fun _ made => faithful_iff valid made⟩

theorem nested_plan_tags : ∃ cfg, render nestedPlan = some cfg ∧ cfg.Faithful nestedPlan := by
  have valid : nestedPlan.valid = true := by decide
  obtain ⟨tags, -, -, -, -, -, faithful⟩ := tags_identify_iff valid
  have made : (render nestedPlan).isSome := by decide
  obtain ⟨cfg, made⟩ := isSome_iff_exists.mp made
  exact ⟨cfg, made, (faithful cfg made).mpr (by decide)⟩

/-- A server whose id is the name of a target, in a group, beside a rule that rejects. -/
def rejectPlan : Plan where
  sessionID := ascii "s"
  outbounds :=
    [{ id := ascii "reject", protocol := .trojan, server := ascii "s.example", port := 443 }]
  groups := [{ name := ascii "auto", type := .select, outbounds := [ascii "reject"] }]
  rules := [{ type := .geoSite, value := ascii "category-ads-all", target := ascii "reject" },
    { type := .matchAll, value := [], target := ascii "auto" }]

/-- The same reference is a server in the group and refusal in the rule. -/
theorem reject_names_two : ∃ p cfg, p.valid = true ∧ render p = some cfg ∧
    cfg.groups.map (·.outbounds) = [[ascii "reject"]] ∧
    (∃ o, (ascii "reject", Object.outbound o) ∈ cfg.outbounds) ∧
    (cfg.route.actions.drop 2).head? = some .reject ∧
    p.rules.head?.map (·.target) = some (ascii "reject") ∧ ¬cfg.Faithful p := by
  have valid : rejectPlan.valid = true := by decide
  obtain ⟨cfg, made⟩ := isSome_iff_exists.mp
    (show (render rejectPlan).isSome = true by decide)
  have shape : (render rejectPlan).map (fun cfg => (cfg.groups.map (·.outbounds),
      (cfg.route.actions.drop 2).head?)) = some ([[ascii "reject"]], some .reject) := by decide
  rw [made, map_some, Option.some.injEq, Prod.mk.injEq] at shape
  refine ⟨rejectPlan, cfg, valid, made, shape.1, ?_, shape.2, rfl, fun faithful => ?_⟩
  · rw [(render_eq_some valid made).1]
    exact ⟨_, mem_cons_self⟩
  · exact (faithful_iff valid made).mp faithful (ascii "reject") (by decide) (by decide)

end Sora.Contract.SingBox
