import Sora.Contract.Leaves

/-!
# Groups in Xray

Xray has neither groups nor selectors.  A rule whose target is a select group is aimed at the member
that is chosen, and changing the choice renders the configuration again; an automatic group becomes a
balancer over the tags of its members.  Only outbounds have tags of this kind: a member that is a
group or a target of the engine is left out of the balancer.

Balancers select outbounds by prefixes of their tags.  Tags of outbounds have one length, so that no
tag is a prefix of another.
-/

namespace Sora.Contract.Xray

open Sora.Lib List Option Prod

/-! ## Tags -/

def tagDirect : Bytes := ascii "direct"
def tagBlock : Bytes := ascii "block"
def tagDNS : Bytes := ascii "dns-out"
def tagFragment : Bytes := ascii "fragment"

/-- `fmt.Sprintf("%04d", n)`. -/
def fourDigits (n : Nat) : Bytes :=
  List.replicate (4 - (numeral 10 n).length) 48 ++ numeral 10 n

/-- `outboundTag`. -/
def outboundTag (i : Nat) : Bytes := 111 :: fourDigits (i + 1)

/-- The tags of the outbounds by id. -/
def tagTable (p : Plan) : List (Bytes × Bytes) :=
  (p.outbounds.map (·.id)).zip ((List.range p.outbounds.length).map outboundTag)

/-- The groups by name; the last group of a name counts. -/
def groupOf (p : Plan) (name : Bytes) : Option Group := p.groups.reverse.find? fun g => g.name == name

/-! ## Targets -/

/-- The members that are chosen in select groups. -/
abbrev Selection := Bytes → Option Bytes

/-- The member of a select group that traffic goes to. -/
def chosen (sel : Selection) (g : Group) : Bytes :=
  match sel g.name with
  | some pinned => if pinned ∈ g.outbounds then pinned else g.outbounds.headD []
  | none => g.outbounds.headD []

inductive Strategy where
  | leastPing
  | roundRobin
  deriving DecidableEq

/-- A balancer, and the group that it was made for. -/
structure Balancer where
  group : Bytes
  tag : Bytes
  selector : List Bytes
  strategy : Strategy
  fallbackTag : Option Bytes
  deriving DecidableEq

/-- The tags of the members that are outbounds. -/
def selectorOf (p : Plan) (g : Group) : List Bytes :=
  g.outbounds.filterMap (Naming.get (tagTable p))

/-- `balancerFor`: one balancer for each name of a group. -/
def balancerFor (p : Plan) (balancers : List Balancer) (g : Group) : Bytes × List Balancer :=
  match balancers.find? fun b => b.group == g.name with
  | some b => (b.tag, balancers)
  | none =>
    let tag := ascii "b-" ++ numeral 10 (balancers.length + 1)
    let selector := selectorOf p g
    (tag, balancers ++ [{
      group := g.name
      tag := tag
      selector := selector
      strategy := if g.type = .loadBalance then .roundRobin else .leastPing
      fallbackTag := selector.head? }])

inductive Target where
  | outbound (tag : Bytes)
  | balancer (tag : Bytes)
  deriving DecidableEq

/-- What `target` finds under a reference: the tag of an outbound, or a group. -/
def lookup (p : Plan) (id : Bytes) : Option (Bytes ⊕ Group) :=
  if id = ascii "direct" then some (.inl tagDirect)
  else if id = ascii "reject" then some (.inl tagBlock)
  else if id = ascii "dns" then some (.inl tagDNS)
  else
    match Naming.get (tagTable p) id with
    | some tag => some (.inl tag)
    | none => (groupOf p id).map .inr

/-- `target`; the fuel is what is left of the number of groups. -/
def target (p : Plan) (sel : Selection) : Nat → Bytes → List Balancer →
    Option (Target × List Balancer)
  | fuel, id, balancers =>
    match lookup p id with
    | none => none
    | some (.inl tag) => some (.outbound tag, balancers)
    | some (.inr g) =>
      match fuel with
      | 0 => none
      | fuel + 1 =>
        if g.outbounds = [] then none
        else
          match g.type with
          | .select => target p sel fuel (chosen sel g) balancers
          | .urlTest | .loadBalance =>
            let (tag, balancers) := balancerFor p balancers g
            some (.balancer tag, balancers)
          | _ => none

/-! ## Rules -/

inductive Match where
  | domain (v : Bytes)
  | ip (v : Bytes)
  | port (v : Bytes)
  | sourcePort (v : Bytes)
  | process (v : Bytes)
  | network (v : Bytes)
  deriving DecidableEq

/-- `match`. -/
def matchRule (r : Rule) : Option Match :=
  let v := r.value
  let low := Url.toLower v
  match r.type with
  | .domain => some (.domain (ascii "full:" ++ v))
  | .domainSuffix => some (.domain (ascii "domain:" ++ v))
  | .domainKeyword => some (.domain (ascii "keyword:" ++ v))
  | .geoSite => some (.domain (ascii "geosite:" ++ low))
  | .ipCIDR => some (.ip v)
  | .geoIP => some (.ip (ascii "geoip:" ++ if low = ascii "lan" then ascii "private" else low))
  | .port => some (.port v)
  | .srcPort => some (.sourcePort v)
  | .process => some (.process v)
  | .protocol => some (.network low)
  | _ => none

/-- The rules of a configuration, the target for the rest if the plan has one, and the balancers. -/
structure Route where
  rules : List (Match × Target)
  final : Option Target := none
  balancers : List Balancer

/-- The loop of `routing`, which ends at a rule for everything. -/
def routeRules (p : Plan) (sel : Selection) : List Rule → List Balancer → Option Route
  | [], balancers => some { rules := [], balancers := balancers }
  | r :: rest, balancers => do
    let (aim, balancers) ← target p sel (p.groups.length + 1) r.target balancers
    if r.type = .matchAll then some { rules := [], final := some aim, balancers := balancers }
    else
      let condition ← matchRule r
      let out ← routeRules p sel rest balancers
      some { out with rules := (condition, aim) :: out.rules }

/-! ## Configurations -/

structure Config where
  outbounds : List (Bytes × Object)
  /-- The first rule sends the DNS traffic of the adapter to the resolver. -/
  tunRule : Bool
  route : Route

/-- The tags of a configuration with what they stand for. -/
def outboundsOf (p : Plan) : List (Bytes × Object) :=
  (((List.range p.outbounds.length).map outboundTag).zip (p.outbounds.map .outbound)) ++
    [(tagDirect, .builtIn (ascii "direct")), (tagBlock, .builtIn (ascii "reject")),
      (tagDNS, .builtIn (ascii "dns"))] ++
    if p.options.fragment then [(tagFragment, .builtIn tagFragment)] else []

/-- `Render`, as far as references go.  A profile has a renderer of its own, and no groups. -/
def render (p : Plan) (sel : Selection) : Option Config :=
  if p.tun.enabled ∧ p.tun.stack ≠ [] ∧ p.tun.stack ≠ ascii "gvisor" then none
  else if p.outbounds.map (·.protocol) = [.xrayProfile] then none
  else (routeRules p sel p.rules []).map fun route =>
    { outbounds := outboundsOf p, tunRule := p.tun.enabled, route := route }

/-! ## What targets lead to -/

/-- References of a plan under a selection: a select group goes on to the chosen member. -/
def via (p : Plan) (sel : Selection) : Network Bytes Object where
  next ref m := isBuiltInTarget ref = false ∧
    ∃ g, (ref, .group g) ∈ p.objects ∧ m ∈ g.outbounds ∧ (g.type = .select → m = chosen sel g)
  leaf := p.network.leaf

/-- Where a target sends traffic; a balancer selects outbounds by prefixes of their tags. -/
def Config.sends (cfg : Config) : Target → Object → Prop
  | .outbound tag, l => (tag, l) ∈ cfg.outbounds
  | .balancer tag, l => ∃ b ∈ cfg.route.balancers, b.tag = tag ∧
    ∃ s ∈ b.selector, ∃ t, (t, l) ∈ cfg.outbounds ∧ s <+: t

/-- A target is not a balancer over nothing. -/
def Config.filled (cfg : Config) : Target → Prop
  | .outbound _ => True
  | .balancer tag => ∀ b ∈ cfg.route.balancers, b.tag = tag → b.selector ≠ []

/-- The rules that `routing` comes to. -/
def reached : List Rule → List Rule
  | [] => []
  | r :: rest => if r.type = .matchAll then [r] else r :: reached rest

def Route.targets (route : Route) : List Target := route.rules.map (·.2) ++ route.final.toList

/-- The reference means a group of the plan. -/
def Plan.IsGroup (p : Plan) (ref : Bytes) : Prop :=
  isBuiltInTarget ref = false ∧ ∃ g, (ref, Object.group g) ∈ p.objects

/-- Every rule for a group sends traffic where the group leads, and to something. -/
def Config.Preserves (cfg : Config) (p : Plan) (sel : Selection) : Prop :=
  List.Forall₂ (fun r aim => Plan.IsGroup p r.target →
    (∀ l, cfg.sends aim l ↔ (via p sel).Leads r.target l) ∧ cfg.filled aim)
    (reached p.rules) cfg.route.targets

/-- A select group goes on to its chosen member. -/
def Picks (p : Plan) (sel : Selection) (ref m : Bytes) : Prop :=
  ∃ g, lookup p ref = some (.inr g) ∧ g.type = .select ∧ m = chosen sel g

/-- A group lists all that it leads to itself: outbounds, at least one. -/
structure Listed (p : Plan) (sel : Selection) (g : Group) : Prop where
  plain : ∀ m ∈ g.outbounds, isBuiltInTarget m = false
  all : ∀ m ∈ g.outbounds, ∀ l, (via p sel).Leads m l → ∃ o, l = .outbound o ∧ o.id ∈ g.outbounds
  some : ∃ o ∈ p.outbounds, o.id ∈ g.outbounds

/-- The chosen members lead to something that Xray can be aimed at. -/
def Kept (p : Plan) (sel : Selection) (ref : Bytes) : Prop :=
  ∀ x, Relation.ReflTransGen (Picks p sel) ref x → x ≠ ascii "pass" ∧
    ∀ g, lookup p x = some (.inr g) → g.type ≠ .select → Listed p sel g

/-! ## Tags of one length -/

theorem numValue_zeros (k : Nat) (s : Bytes) :
    numValue 10 (replicate k 48 ++ s) = numValue 10 s := by
  induction k with
  | zero => rfl
  | succ k ih =>
    rw [← ih]
    rfl

variable {i : Nat} {id m name tag : Bytes} {l : Object} {o : Outbound} {g : Group} {b : Balancer}
    {balancers : List Balancer} {aim : Target} {sel : Selection} {cfg : Config}

theorem length_outboundTag (small : i < maxOutbounds) : (outboundTag i).length = 5 := by
  have digits := numeral_length_le (by decide : 1 < 10) (by decide)
    (show i + 1 < 10 ^ 4 by rw [maxOutbounds] at small; omega)
  rw [outboundTag, fourDigits, length_cons, length_append, length_replicate]
  omega

theorem outboundTag_injective : Function.Injective outboundTag := by
  intro i j same
  have value := congrArg (numValue 10) (cons.inj same).2
  rw [fourDigits, fourDigits, numValue_zeros, numValue_zeros,
    numValue_numeral (by decide) (by decide), numValue_numeral (by decide) (by decide)] at value
  omega

/-- No tag of an outbound is the beginning of another. -/
theorem outboundTag_of_prefix {j : Nat} (small : i < maxOutbounds) (small' : j < maxOutbounds)
    (start : outboundTag i <+: outboundTag j) : i = j := by
  refine outboundTag_injective (start.eq_of_length ?_)
  rw [length_outboundTag small, length_outboundTag small']

section Tags

variable {p : Plan}

theorem mem_tagTable : (id, tag) ∈ tagTable p ↔
    ∃ i o, p.outbounds[i]? = some o ∧ o.id = id ∧ outboundTag i = tag := by
  rw [tagTable, mem_iff_getElem?]
  refine exists_congr fun i => ?_
  rw [getElem?_zip_eq_some, getElem?_map, getElem?_map, map_eq_some_iff, map_eq_some_iff]
  constructor
  · intro both
    obtain ⟨⟨o, there, same⟩, j, listed, tagged⟩ := both
    rw [List.getElem?_range (List.getElem?_eq_some_iff.mp there).1] at listed
    cases listed
    exact ⟨o, there, same, tagged⟩
  · intro one
    obtain ⟨o, there, same, tagged⟩ := one
    exact ⟨⟨o, there, same⟩, i, List.getElem?_range (List.getElem?_eq_some_iff.mp there).1, tagged⟩

theorem map_fst_tagTable : (tagTable p).map (·.1) = p.outbounds.map (·.id) := by
  refine map_fst_zip ?_
  rw [length_map, length_map, length_range]

theorem get_tagTable (valid : p.valid = true) :
    Naming.get (tagTable p) id = some tag ↔
      ∃ i o, p.outbounds[i]? = some o ∧ o.id = id ∧ outboundTag i = tag := by
  obtain ⟨-, ⟨-, -, -, ids⟩, -⟩ := (valid_iff p).mp valid
  rw [Naming.get_eq_some_iff (by rw [map_fst_tagTable]; exact ids), mem_tagTable]

/-- What is known of the tags beside those of the plan's outbounds. -/
theorem mem_outboundsOf (inside : (tag, l) ∈ outboundsOf p) :
    (∃ i o, p.outbounds[i]? = some o ∧ outboundTag i = tag ∧ l = .outbound o) ∨
      (tag.head? ≠ some 111 ∧ ∃ target, l = .builtIn target) := by
  rw [outboundsOf, mem_append, mem_append] at inside
  rcases inside with (own | fixed) | fragment
  · rw [mem_iff_getElem?] at own
    obtain ⟨i, own⟩ := own
    rw [getElem?_zip_eq_some, getElem?_map, getElem?_map, map_eq_some_iff, map_eq_some_iff] at own
    obtain ⟨⟨j, listed, tagged⟩, o, there, same⟩ := own
    rw [List.getElem?_range (List.getElem?_eq_some_iff.mp there).1] at listed
    cases listed
    exact .inl ⟨i, o, there, tagged, same.symm⟩
  · simp only [mem_cons, not_mem_nil, or_false] at fixed
    rcases fixed with ⟨rfl, rfl⟩ | ⟨rfl, rfl⟩ | ⟨rfl, rfl⟩ <;> exact .inr ⟨by decide, _, rfl⟩
  · split at fragment
    · simp only [mem_singleton] at fragment
      obtain ⟨rfl, rfl⟩ := fragment
      exact .inr ⟨by decide, _, rfl⟩
    · cases fragment

theorem outbound_mem_outboundsOf (there : p.outbounds[i]? = some o) :
    (outboundTag i, .outbound o) ∈ outboundsOf p := by
  refine mem_append_left _ (mem_append_left _ (mem_iff_getElem?.mpr ⟨i, ?_⟩))
  rw [getElem?_zip_eq_some, getElem?_map, getElem?_map, there,
    List.getElem?_range (List.getElem?_eq_some_iff.mp there).1]
  exact ⟨rfl, rfl⟩

end Tags

/-! ## What lookups find -/

section Lookup

variable {p : Plan}

/-- An outbound of the plan under its id, in the order of the plan. -/
theorem outbound_of_getElem (there : p.outbounds[i]? = some o) :
    (o.id, Object.outbound o) ∈ p.objects :=
  mem_append_left _
    (mem_map_of_mem (mem_of_getElem? there))

theorem groupOf_eq_some (found : groupOf p name = some g) : (name, Object.group g) ∈ p.objects := by
  have named := find?_some found
  have there := mem_reverse.mp (mem_of_find?_eq_some found)
  rw [← beq_iff_eq.mp named]
  exact mem_objects_of_group there

/-- A reference that Xray takes for a target of its own. -/
def Fixed (id tag : Bytes) : Prop :=
  id = ascii "direct" ∧ tag = tagDirect ∨ id = ascii "reject" ∧ tag = tagBlock ∨
    id = ascii "dns" ∧ tag = tagDNS

theorem Fixed.known (fixed : Fixed id tag) : isBuiltInTarget id = true := by
  rcases fixed with ⟨rfl, -⟩ | ⟨rfl, -⟩ | ⟨rfl, -⟩ <;> decide

theorem Fixed.ne_pass (fixed : Fixed id tag) : id ≠ ascii "pass" := by
  rcases fixed with ⟨rfl, -⟩ | ⟨rfl, -⟩ | ⟨rfl, -⟩ <;> decide

/-- The references that lookups go through the plan for. -/
theorem free_of_not_fixed (direct : id ≠ ascii "direct") (reject : id ≠ ascii "reject")
    (dns : id ≠ ascii "dns") (pass : id ≠ ascii "pass") : isBuiltInTarget id = false := by
  simp [isBuiltInTarget, direct, reject, dns, pass]

theorem lookup_inl (valid : p.valid = true) (found : lookup p id = some (.inl tag)) :
    Fixed id tag ∨ ((id = ascii "pass" ∨ isBuiltInTarget id = false) ∧
      ∃ i o, p.outbounds[i]? = some o ∧ o.id = id ∧ outboundTag i = tag) := by
  rw [lookup] at found
  split at found
  · cases found
    exact .inl (.inl ⟨‹_›, rfl⟩)
  · split at found
    · cases found
      exact .inl (.inr (.inl ⟨‹_›, rfl⟩))
    · split at found
      · cases found
        exact .inl (.inr (.inr ⟨‹_›, rfl⟩))
      · rename_i direct reject dns
        refine .inr ⟨?_, ?_⟩
        · by_cases pass : id = ascii "pass"
          · exact .inl pass
          · exact .inr (free_of_not_fixed direct reject dns pass)
        · split at found
          · rename_i tag' tagged
            cases found
            exact (get_tagTable valid).mp tagged
          · obtain ⟨_, -, same⟩ := map_eq_some_iff.mp found
            cases same

theorem lookup_inr (found : lookup p id = some (.inr g)) :
    (id = ascii "pass" ∨ isBuiltInTarget id = false) ∧ (id, Object.group g) ∈ p.objects := by
  rw [lookup] at found
  split at found
  · cases found
  · split at found
    · cases found
    · split at found
      · cases found
      · rename_i direct reject dns
        refine ⟨?_, ?_⟩
        · by_cases pass : id = ascii "pass"
          · exact .inl pass
          · exact .inr (free_of_not_fixed direct reject dns pass)
        · split at found
          · cases found
          · obtain ⟨g', there, same⟩ := map_eq_some_iff.mp found
            cases same
            exact groupOf_eq_some there

end Lookup

/-! ## Balancers -/

section Balancers

variable {p : Plan}

/-- Every balancer belongs to a group, and their tags count up. -/
structure Good (p : Plan) (balancers : List Balancer) : Prop where
  group : ∀ b ∈ balancers, ∃ g ∈ p.groups, g.name = b.group ∧ b.selector = selectorOf p g
  tags : balancers.map (·.tag) =
    (List.range balancers.length).map fun i => ascii "b-" ++ numeral 10 (i + 1)

theorem Good.nil : Good p [] := ⟨fun _ inside => absurd inside not_mem_nil, rfl⟩

theorem Good.unique (good : Good p balancers) {b' : Balancer} (inside : b ∈ balancers)
    (inside' : b' ∈ balancers) (same : b.tag = b'.tag) : b = b' := by
  have distinct : (balancers.map (·.tag)).Nodup := by
    rw [good.tags]
    refine nodup_range.map fun i j same => ?_
    have digits := numeral_injective (append_cancel_left same)
    omega
  exact inj_on_of_nodup_map distinct inside inside' same

theorem balancerFor_spec (good : Good p balancers) (inside : g ∈ p.groups) :
    Good p (balancerFor p balancers g).2 ∧ balancers <+: (balancerFor p balancers g).2 ∧
      ∃ b ∈ (balancerFor p balancers g).2, b.group = g.name ∧ b.tag = (balancerFor p balancers g).1 := by
  rw [balancerFor]
  split
  · rename_i b found
    have named := find?_some found
    exact ⟨good, prefix_rfl, b, mem_of_find?_eq_some found, beq_iff_eq.mp named, rfl⟩
  · refine ⟨⟨fun b listed => ?_, ?_⟩, prefix_append _ _, _,
      mem_append_right _ mem_cons_self, rfl, rfl⟩
    · rcases mem_append.mp listed with old | new
      · exact good.group b old
      · rw [mem_singleton.mp new]
        exact ⟨g, inside, rfl, rfl⟩
    · rw [map_append, good.tags, length_append, length_singleton, range_succ, map_append]
      rfl

/-- What a reference is aimed at. -/
inductive Aims (p : Plan) (sel : Selection) (balancers : List Balancer) : Bytes → Target → Prop
  | fixed {id tag : Bytes} (found : lookup p id = some (.inl tag)) :
    Aims p sel balancers id (.outbound tag)
  | auto {id : Bytes} {g : Group} {b : Balancer} (found : lookup p id = some (.inr g))
    (type : g.type ≠ .select) (inside : b ∈ balancers) (named : b.group = g.name) :
    Aims p sel balancers id (.balancer b.tag)
  | select {id : Bytes} {g : Group} {aim : Target} (found : lookup p id = some (.inr g))
    (full : g.outbounds ≠ []) (type : g.type = .select)
    (rest : Aims p sel balancers (chosen sel g) aim) : Aims p sel balancers id aim

theorem Aims.mono {more : List Balancer} (start : balancers <+: more)
    (aims : Aims p sel balancers id aim) : Aims p sel more id aim := by
  induction aims with
  | fixed found => exact .fixed found
  | auto found type inside named => exact .auto found type (start.subset inside) named
  | select found full type _ ih => exact .select found full type ih

/-- Where following the chosen members of select groups ends: at a tag, or at a group that Xray has
balancers for. -/
inductive Ends (p : Plan) (sel : Selection) : Bytes → Bytes ⊕ Group → Prop
  | tag {id tag : Bytes} (found : lookup p id = some (.inl tag)) : Ends p sel id (.inl tag)
  | auto {id : Bytes} {g : Group} (found : lookup p id = some (.inr g))
    (type : g.type = .urlTest ∨ g.type = .loadBalance) : Ends p sel id (.inr g)
  | select {id : Bytes} {g : Group} {e : Bytes ⊕ Group} (found : lookup p id = some (.inr g))
    (full : g.outbounds ≠ []) (type : g.type = .select) (rest : Ends p sel (chosen sel g) e) :
    Ends p sel id e

/-- The target for such an end, and the balancers after it. -/
def aimAt (p : Plan) (balancers : List Balancer) : Bytes ⊕ Group → Target × List Balancer
  | .inl tag => (.outbound tag, balancers)
  | .inr g => (.balancer (balancerFor p balancers g).1, (balancerFor p balancers g).2)

/-- What `target` finds is an end. -/
theorem ends_of_target {fuel : Nat} {r : Target × List Balancer}
    (made : target p sel fuel id balancers = some r) :
    ∃ e, Ends p sel id e ∧ r = aimAt p balancers e := by
  fun_induction target p sel fuel id balancers with
  | case1 | case3 | case4 | case8 => cases made
  | case2 fuel id l tag found =>
    cases made
    exact ⟨.inl tag, .tag found, rfl⟩
  | case5 id l g found fuel full type ih =>
    obtain ⟨e, ends, rfl⟩ := ih made
    exact ⟨e, .select found full type ends, rfl⟩
  | case6 id l g found fuel full type tag later same | case7 id l g found fuel full type tag later same =>
    cases made
    exact ⟨.inr g, .auto found (by simp [type]), by rw [aimAt, same]⟩

theorem target_spec {fuel : Nat} {after : List Balancer} (good : Good p balancers)
    (made : target p sel fuel id balancers = some (aim, after)) :
    Good p after ∧ balancers <+: after ∧ Aims p sel after id aim := by
  obtain ⟨e, ends, same⟩ := ends_of_target made
  clear made
  induction ends with
  | tag found =>
    cases same
    exact ⟨good, prefix_rfl, .fixed found⟩
  | auto found type =>
    cases same
    have inside := (group_of_mem_objects (lookup_inr found).2).1
    obtain ⟨good', start, b, listed, named, tagged⟩ := balancerFor_spec good inside
    rw [← tagged]
    exact ⟨good', start, .auto found (by rcases type with type | type <;> simp [type]) listed named⟩
  | select found full type _ ih =>
    obtain ⟨good', start, aims⟩ := ih same
    exact ⟨good', start, .select found full type aims⟩

theorem routeRules_spec {rules : List Rule} {out : Route} (good : Good p balancers)
    (made : routeRules p sel rules balancers = some out) :
    Good p out.balancers ∧ balancers <+: out.balancers ∧
      List.Forall₂ (fun r aim => Aims p sel out.balancers (Rule.target r) aim) (reached rules)
        out.targets := by
  induction rules generalizing balancers out with
  | nil =>
    cases made
    exact ⟨good, prefix_rfl, .nil⟩
  | cons r rest ih =>
    obtain ⟨⟨aim, after⟩, aimed, made⟩ := bind_eq_some_iff.mp made
    obtain ⟨good', start, aims⟩ := target_spec good aimed
    rw [reached]
    simp only at made
    split at made
    · rename_i everything
      cases made
      rw [if_pos everything]
      exact ⟨good', start, .cons aims .nil⟩
    · rename_i narrow
      obtain ⟨condition, -, made⟩ := bind_eq_some_iff.mp made
      obtain ⟨later, follows, made⟩ := bind_eq_some_iff.mp made
      cases made
      obtain ⟨good'', start', targets⟩ := ih good' follows
      rw [if_neg narrow]
      exact ⟨good'', start.trans start', .cons (aims.mono start') targets⟩

end Balancers

/-! ## Where targets send traffic -/

section Sends

variable {p : Plan}

theorem pass_not_sent (same : cfg.outbounds = outboundsOf p) :
    ¬cfg.sends aim (.builtIn (ascii "pass")) := by
  have absent : ∀ tag, (tag, Object.builtIn (ascii "pass")) ∉ outboundsOf p := by
    intro tag inside
    rw [outboundsOf, mem_append, mem_append] at inside
    rcases inside with (own | fixed) | fragment
    · obtain ⟨_, -, same⟩ := mem_map.mp (of_mem_zip own).2
      cases same
    · simp only [mem_cons, not_mem_nil, or_false] at fixed
      rcases fixed with ⟨-, other⟩ | ⟨-, other⟩ | ⟨-, other⟩
    · split at fragment
      · simp only [mem_singleton, mk.injEq] at fragment
        obtain ⟨-, other⟩ := fragment
        revert other
        decide
      · cases fragment
  intro sent
  cases aim with
  | outbound tag => exact absent tag (same ▸ sent)
  | balancer tag =>
    obtain ⟨b, -, -, s, -, t, inside, -⟩ := sent
    exact absent t (same ▸ inside)

theorem fixed_mem_iff (fixed : Fixed id tag) : (tag, l) ∈ outboundsOf p ↔ l = .builtIn id := by
  have foreign : tag.head? ≠ some 111 := by
    rcases fixed with ⟨-, rfl⟩ | ⟨-, rfl⟩ | ⟨-, rfl⟩ <;> decide
  have notOwn : ∀ l, (tag, l) ∉
      ((range p.outbounds.length).map outboundTag).zip (p.outbounds.map Object.outbound) := by
    intro l inside
    obtain ⟨i, -, rfl⟩ := mem_map.mp (of_mem_zip inside).1
    exact foreign rfl
  have notFragment : ∀ l, (tag, l) ∉
      if p.options.fragment then [(tagFragment, Object.builtIn tagFragment)] else [] := by
    intro l inside
    split at inside
    · simp only [mem_singleton, mk.injEq] at inside
      rcases fixed with ⟨-, rfl⟩ | ⟨-, rfl⟩ | ⟨-, rfl⟩ <;> exact absurd inside.1 (by decide)
    · cases inside
  rw [outboundsOf, mem_append, mem_append]
  simp only [notOwn, notFragment]
  have apart : tagDirect ≠ tagBlock ∧ tagDirect ≠ tagDNS ∧ tagBlock ≠ tagDNS := by decide
  rcases fixed with ⟨rfl, rfl⟩ | ⟨rfl, rfl⟩ | ⟨rfl, rfl⟩
  · simp [apart.1, apart.2.1]
  · simp [apart.1.symm, apart.2.2]
  · simp [apart.2.1.symm, apart.2.2.symm]

theorem own_mem_iff (there : p.outbounds[i]? = some o) :
    (outboundTag i, l) ∈ outboundsOf p ↔ l = .outbound o := by
  constructor
  · intro inside
    rcases mem_outboundsOf inside with ⟨j, o', there', same, rfl⟩ | ⟨foreign, -⟩
    · cases outboundTag_injective same
      rw [there] at there'
      cases there'
      rfl
    · exact absurd rfl foreign
  · intro same
    rw [same]
    exact outbound_mem_outboundsOf there

variable (valid : p.valid = true)

include valid

theorem small_of_getElem (there : p.outbounds[i]? = some o) :
    i < maxOutbounds := by
  obtain ⟨-, ⟨-, few, -⟩, -⟩ := (valid_iff p).mp valid
  exact (List.getElem?_eq_some_iff.mp there).1.trans_le few

/-- The selector of a group reaches the outbounds that the group lists. -/
theorem selected_iff :
    (∃ s ∈ selectorOf p g, ∃ t, (t, l) ∈ outboundsOf p ∧ s <+: t) ↔
      ∃ o ∈ p.outbounds, o.id ∈ g.outbounds ∧ l = .outbound o := by
  constructor
  · intro selected
    obtain ⟨s, listed, t, inside, start⟩ := selected
    obtain ⟨m, member, tagged⟩ := mem_filterMap.mp listed
    obtain ⟨i, o, there, rfl, rfl⟩ := (get_tagTable valid).mp tagged
    rcases mem_outboundsOf inside with ⟨j, o', there', rfl, rfl⟩ | ⟨foreign, -⟩
    · cases outboundTag_of_prefix (small_of_getElem valid there) (small_of_getElem valid there') start
      rw [there] at there'
      cases there'
      exact ⟨o, mem_of_getElem? there, member, rfl⟩
    · obtain ⟨rest, rfl⟩ := start
      exact absurd rfl foreign
  · intro listed
    obtain ⟨o, there, member, rfl⟩ := listed
    obtain ⟨i, at_⟩ := mem_iff_getElem?.mp there
    refine ⟨outboundTag i, mem_filterMap.mpr ⟨o.id, member, ?_⟩, _,
      outbound_mem_outboundsOf at_, prefix_rfl⟩
    exact (get_tagTable valid).mpr ⟨i, o, at_, rfl, rfl⟩

theorem selectorOf_ne_nil :
    selectorOf p g ≠ [] ↔ ∃ o ∈ p.outbounds, o.id ∈ g.outbounds := by
  constructor
  · intro full
    obtain ⟨s, listed⟩ := exists_mem_of_ne_nil _ full
    obtain ⟨m, member, tagged⟩ := mem_filterMap.mp listed
    obtain ⟨i, o, there, rfl, -⟩ := (get_tagTable valid).mp tagged
    exact ⟨o, mem_of_getElem? there, member⟩
  · intro listed empty
    obtain ⟨o, there, member⟩ := listed
    obtain ⟨s, inside, -⟩ := (selected_iff valid).mpr ⟨o, there, member, rfl⟩
    rw [empty] at inside
    cases inside

/-- The balancer of a group sends traffic to the outbounds that the group lists. -/
theorem sends_balancer (same : cfg.outbounds = outboundsOf p)
    (good : Good p cfg.route.balancers) (inside : b ∈ cfg.route.balancers) (there : g ∈ p.groups)
    (named : b.group = g.name) :
    (∀ l, cfg.sends (.balancer b.tag) l ↔ ∃ o ∈ p.outbounds, o.id ∈ g.outbounds ∧ l = .outbound o) ∧
      (cfg.filled (.balancer b.tag) ↔ ∃ o ∈ p.outbounds, o.id ∈ g.outbounds) := by
  obtain ⟨-, -, -, ⟨-, names, -, -⟩, -⟩ := (valid_iff p).mp valid
  obtain ⟨g', there', named', selector⟩ := good.group b inside
  obtain rfl : g' = g := inj_on_of_nodup_map names there' there (named'.trans named)
  constructor
  · intro l
    rw [← selected_iff valid, ← selector, ← same]
    constructor
    · intro sent
      obtain ⟨b', listed, tagged, selected⟩ := sent
      rwa [good.unique listed inside tagged] at selected
    · intro selected
      exact ⟨b, inside, rfl, selected⟩
  · rw [← selectorOf_ne_nil valid, ← selector]
    constructor
    · intro filled
      exact filled b inside rfl
    · intro full b' listed tagged
      rw [good.unique listed inside tagged]
      exact full

end Sends

/-! ## Where references lead under a selection -/

section Via

variable {p : Plan} {ref : Bytes}

theorem via_builtIn (known : isBuiltInTarget ref = true) :
    (via p sel).Leads ref l ↔ l = .builtIn ref := by
  rw [Network.leads_iff]
  constructor
  · intro either
    rcases either with (⟨-, same⟩ | ⟨free, -⟩) | ⟨_, ⟨free, -⟩, -⟩
    · exact same
    · rw [known] at free
      cases free
    · rw [known] at free
      cases free
  · intro same
    exact .inl (.inl ⟨known, same⟩)

theorem chosen_mem (sel : Selection) (full : g.outbounds ≠ []) : chosen sel g ∈ g.outbounds := by
  have first : g.outbounds.headD [] ∈ g.outbounds := by
    cases all : g.outbounds with
    | nil => exact absurd all full
    | cons m rest => exact mem_cons_self
  rw [chosen]
  split
  · split
    · assumption
    · exact first
  · exact first

/-! ## Targets that are kept -/

theorem kept_of_inl (found : lookup p ref = some (.inl tag)) :
    Kept p sel ref ↔ ref ≠ ascii "pass" := by
  constructor
  · intro kept
    exact (kept ref .refl).1
  · intro other x path
    rcases Relation.ReflTransGen.cases_head path with rfl | ⟨_, ⟨g, group, -⟩, -⟩
    · refine ⟨other, fun g group => ?_⟩
      rw [found] at group
      cases group
    · rw [found] at group
      cases group

theorem kept_of_auto (found : lookup p ref = some (.inr g)) (type : g.type ≠ .select) :
    Kept p sel ref ↔ ref ≠ ascii "pass" ∧ Listed p sel g := by
  constructor
  · intro kept
    obtain ⟨other, listed⟩ := kept ref .refl
    exact ⟨other, listed g found type⟩
  · intro both x path
    rcases Relation.ReflTransGen.cases_head path with rfl | ⟨_, ⟨g', group, select, -⟩, -⟩
    · refine ⟨both.1, fun g' group _ => ?_⟩
      rw [found] at group
      cases group
      exact both.2
    · rw [found] at group
      cases group
      exact absurd select type

theorem kept_of_select (found : lookup p ref = some (.inr g)) (type : g.type = .select) :
    Kept p sel ref ↔ ref ≠ ascii "pass" ∧ Kept p sel (chosen sel g) := by
  constructor
  · intro kept
    exact ⟨(kept ref .refl).1, fun x path => kept x (.head ⟨g, found, type, rfl⟩ path)⟩
  · intro both x path
    rcases Relation.ReflTransGen.cases_head path with rfl | ⟨m, ⟨g', group, -, rfl⟩, rest⟩
    · refine ⟨both.1, fun g' group other => ?_⟩
      rw [found] at group
      cases group
      exact absurd type other
    · rw [found] at group
      cases group
      exact both.2 x rest

/-- `pass` is no target of Xray, so nothing that the plan has under this name is meant. -/
theorem pass_not_kept (same : cfg.outbounds = outboundsOf p) (pass : ref = ascii "pass") :
    ¬((∀ l, cfg.sends aim l ↔ (via p sel).Leads ref l) ∧ cfg.filled aim) := by
  intro both
  refine pass_not_sent same ((both.1 (.builtIn (ascii "pass"))).mpr ?_)
  rw [pass]
  exact (via_builtIn (by decide)).mpr rfl

theorem ne_pass_of_free (free : isBuiltInTarget ref = false) : ref ≠ ascii "pass" := by
  rintro rfl
  revert free
  decide

/-! ## Every leaf has a selection -/

theorem leads_of_via (leads : (via p sel).Leads ref l) : p.network.Leads ref l := by
  have simulates : (via p sel).Simulates p.network Eq := by
    constructor
    · rintro x _ l rfl leaf
      exact leaf
    · rintro x _ y rfl ⟨free, g, inside, member, -⟩
      exact ⟨y, ⟨free, g, inside, member⟩, rfl⟩
  exact simulates.leads rfl leads

/-- A reference that goes on to others is the name of a group. -/
theorem group_of_next (next : p.network.next ref m) : ref ∈ p.groups.map (·.name) := by
  obtain ⟨-, g, inside, -⟩ := next
  obtain ⟨there, rfl⟩ := group_of_mem_objects inside
  exact mem_map_of_mem there

/-- Choosing another member of a group that is not passed changes nothing. -/
theorem via_update {x : Bytes} (away : ¬Relation.ReflTransGen p.network.next x name)
    (leads : (via p sel).Leads x l) : (via p (Function.update sel name (some m))).Leads x l := by
  obtain ⟨y, path, leaf⟩ := leads
  induction path using Relation.ReflTransGen.head_induction_on with
  | refl => exact .of_leaf leaf
  | @head x z step _ ih =>
    obtain ⟨free, g, inside, member, picked⟩ := step
    have onward : ¬Relation.ReflTransGen p.network.next z name :=
      fun path => away (.head ⟨free, g, inside, member⟩ path)
    refine .of_next ⟨free, g, inside, member, fun type => ?_⟩ (ih onward)
    have other : g.name ≠ name := by
      rw [(group_of_mem_objects inside).2]
      rintro rfl
      exact away .refl
    rw [picked type, chosen, chosen, Function.update_of_ne other]

variable (valid : p.valid = true)

include valid

theorem via_outbound (free : isBuiltInTarget ref = false)
    (inside : (ref, .outbound o) ∈ p.objects) : (via p sel).Leads ref l ↔ l = .outbound o := by
  rw [Network.leads_iff]
  constructor
  · intro either
    rcases either with (⟨known, -⟩ | ⟨-, o', there, same⟩) | ⟨_, ⟨-, g, there, -⟩, -⟩
    · rw [free] at known
      cases known
    · cases object_unique valid inside there
      exact same
    · cases object_unique valid inside there
  · intro same
    exact .inl (.inr ⟨free, o, inside, same⟩)

theorem via_group (free : isBuiltInTarget ref = false)
    (inside : (ref, .group g) ∈ p.objects) : (via p sel).Leads ref l ↔
      ∃ m ∈ g.outbounds, (g.type = .select → m = chosen sel g) ∧ (via p sel).Leads m l := by
  rw [Network.leads_iff]
  constructor
  · intro either
    rcases either with (⟨known, -⟩ | ⟨-, o, there, -⟩) | ⟨m, ⟨-, g', there, member, picked⟩, leads⟩
    · rw [free] at known
      cases known
    · cases object_unique valid inside there
    · cases object_unique valid inside there
      exact ⟨m, member, picked, leads⟩
  · intro member
    obtain ⟨m, member, picked, leads⟩ := member
    exact .inr ⟨m, ⟨free, g, inside, member, picked⟩, leads⟩

theorem via_select (free : isBuiltInTarget ref = false)
    (inside : (ref, .group g) ∈ p.objects) (full : g.outbounds ≠ []) (type : g.type = .select) :
    (via p sel).Leads ref l ↔ (via p sel).Leads (chosen sel g) l := by
  rw [via_group valid free inside]
  constructor
  · intro member
    obtain ⟨m, -, picked, leads⟩ := member
    rwa [picked type] at leads
  · intro leads
    exact ⟨chosen sel g, chosen_mem sel full, fun _ => rfl, leads⟩

/-- An automatic group and its balancer agree exactly if the group lists what it leads to. -/
theorem listed_iff :
    (∀ l, (∃ o ∈ p.outbounds, o.id ∈ g.outbounds ∧ l = .outbound o) ↔
        ∃ m ∈ g.outbounds, (via p sel).Leads m l) ∧ (∃ o ∈ p.outbounds, o.id ∈ g.outbounds) ↔
      Listed p sel g := by
  constructor
  · intro both
    obtain ⟨same, some⟩ := both
    refine ⟨fun m member => ?_, fun m member l leads => ?_, some⟩
    · by_contra known
      obtain ⟨o, -, -, other⟩ :=
        (same (.builtIn m)).mpr ⟨m, member, (via_builtIn (by simpa using known)).mpr rfl⟩
      cases other
    · obtain ⟨o, -, listed, sent⟩ := (same l).mpr ⟨m, member, leads⟩
      exact ⟨o, sent, listed⟩
  · intro listed
    refine ⟨fun l => ⟨fun sent => ?_, fun leads => ?_⟩, listed.some⟩
    · obtain ⟨o, there, member, rfl⟩ := sent
      have inside : (o.id, Object.outbound o) ∈ p.objects :=
        mem_append_left _ (mem_map_of_mem there)
      exact ⟨o.id, member, (via_outbound valid (listed.plain _ member) inside).mpr rfl⟩
    · obtain ⟨m, member, leads⟩ := leads
      obtain ⟨o, rfl, inside⟩ := listed.all m member l leads
      obtain ⟨y, path, (⟨-, other⟩ | ⟨-, o', there, same⟩)⟩ := leads
      · cases other
      · cases same
        exact ⟨o, (outbound_of_mem_objects there).1, inside, rfl⟩

theorem aims_iff (same : cfg.outbounds = outboundsOf p)
    (good : Good p cfg.route.balancers) (aims : Aims p sel cfg.route.balancers ref aim) :
    (∀ l, cfg.sends aim l ↔ (via p sel).Leads ref l) ∧ cfg.filled aim ↔ Kept p sel ref := by
  induction aims with
  | @fixed id tag found =>
    rw [kept_of_inl found]
    rcases lookup_inl valid found with fixed | ⟨meant, i, o, there, rfl, rfl⟩
    · refine ⟨fun _ => fixed.ne_pass, fun _ => ⟨fun l => ?_, trivial⟩⟩
      rw [via_builtIn fixed.known, Config.sends, same, fixed_mem_iff fixed]
    · rcases meant with pass | free
      · exact ⟨fun both => absurd both (pass_not_kept same pass), fun other => absurd pass other⟩
      · refine ⟨fun _ => ne_pass_of_free free, fun _ => ⟨fun l => ?_, trivial⟩⟩
        rw [via_outbound valid free (outbound_of_getElem there), Config.sends, same, own_mem_iff there]
  | @auto id g b found type inside named =>
    obtain ⟨meant, object⟩ := lookup_inr found
    obtain ⟨sends, filled⟩ := sends_balancer valid same good inside (group_of_mem_objects object).1 named
    rw [kept_of_auto found type]
    rcases meant with pass | free
    · exact ⟨fun both => absurd both (pass_not_kept same pass), fun kept => absurd pass kept.1⟩
    · have leads : ∀ l, (via p sel).Leads id l ↔ ∃ m ∈ g.outbounds, (via p sel).Leads m l := by
        intro l
        rw [via_group valid free object]
        simp only [type, false_imp_iff, true_and]
      simp only [sends, filled, leads, ne_pass_of_free free, ne_eq, not_false_eq_true, true_and]
      exact listed_iff valid
  | @select id g aim found full type _ ih =>
    obtain ⟨meant, object⟩ := lookup_inr found
    rw [kept_of_select found type]
    rcases meant with pass | free
    · exact ⟨fun both => absurd both (pass_not_kept same pass), fun kept => absurd pass kept.1⟩
    · simp only [via_select valid free object full type, ne_pass_of_free free, ne_eq,
        not_false_eq_true, true_and]
      exact ih

theorem preserves_iff (made : render p sel = some cfg) :
    cfg.Preserves p sel ↔ ∀ r ∈ reached p.rules, Plan.IsGroup p r.target → Kept p sel r.target := by
  rw [render] at made
  split at made
  · cases made
  · split at made
    · cases made
    · obtain ⟨route, routed, rfl⟩ := map_eq_some_iff.mp made
      obtain ⟨good, -, targets⟩ := routeRules_spec .nil routed
      exact forall₂_iff (targets.imp fun r aim aims =>
        imp_congr_right fun _ => aims_iff valid rfl good aims)

/-- A member of a group does not lead back to it. -/
theorem no_return (next : p.network.next ref m) :
    ¬Relation.ReflTransGen p.network.next m ref := by
  intro back
  have known : m ∈ p.groups.map (·.name) := by
    rcases Relation.ReflTransGen.cases_head back with rfl | ⟨_, step, -⟩
    · exact group_of_next next
    · exact group_of_next step
  have contains : ∀ {x y}, p.network.next x y → y ∈ p.groups.map (·.name) →
      Contains p.groups x y := by
    intro x y step named
    obtain ⟨-, g, inside, member⟩ := step
    obtain ⟨there, rfl⟩ := group_of_mem_objects inside
    exact ⟨g, there, rfl, member, named⟩
  have path : Relation.ReflTransGen (Contains p.groups) m ref := by
    have named := group_of_next next
    clear next
    induction back with
    | refl => exact .refl
    | tail _ step ih => exact .tail (ih (group_of_next step)) (contains step named)
  exact acyclic_of_valid valid ref (.head' (contains next known) path)

/-- What a reference leads to in the plan, it leads to under some selection. -/
theorem leads_iff_exists_via :
    p.network.Leads ref l ↔ ∃ sel, (via p sel).Leads ref l := by
  constructor
  · intro leads
    obtain ⟨y, path, leaf⟩ := leads
    induction path using Relation.ReflTransGen.head_induction_on with
    | refl => exact ⟨fun _ => none, .of_leaf leaf⟩
    | @head x m step _ ih =>
      obtain ⟨sel, leads⟩ := ih
      have away := no_return valid step
      obtain ⟨free, g, inside, member⟩ := step
      obtain ⟨-, rfl⟩ := group_of_mem_objects inside
      refine ⟨Function.update sel g.name (some m), .of_next ⟨free, g, inside, member, fun _ => ?_⟩
        (via_update away leads)⟩
      rw [chosen, Function.update_self]
      exact (if_pos member).symm
  · intro some
    obtain ⟨sel, leads⟩ := some
    exact leads_of_via leads

end Via

/-! ## Targets of valid plans -/

section Exact

variable {p : Plan} {e : Bytes ⊕ Group} {seen : List Bytes} {fuel : Nat}

theorem target_inl (found : lookup p id = some (.inl tag)) :
    target p sel fuel id balancers = some (aimAt p balancers (.inl tag)) := by
  cases fuel <;> rw [target, found] <;> rfl

/-- `target` at a group of a valid plan, which is not empty. -/
theorem target_inr (valid : p.valid = true) (found : lookup p id = some (.inr g)) :
    target p sel (fuel + 1) id balancers =
      match g.type with
      | .select => target p sel fuel (chosen sel g) balancers
      | .urlTest | .loadBalance => some (aimAt p balancers (.inr g))
      | _ => none := by
  have full := (group_of_valid valid (group_of_mem_objects (lookup_inr found).2).1).1
  rw [target, found]
  exact if_neg full

/-- An end is found with fuel enough. -/
theorem Ends.target (valid : p.valid = true) (balancers : List Balancer) (ends : Ends p sel id e) :
    ∃ n, ∀ m, Xray.target p sel (n + m) id balancers = some (aimAt p balancers e) := by
  induction ends with
  | tag found => exact ⟨0, fun m => target_inl found⟩
  | auto found type =>
    refine ⟨1, fun m => ?_⟩
    rw [Nat.add_comm, target_inr valid found]
    rcases type with type | type <;> rw [type]
  | select found _ type _ ih =>
    obtain ⟨n, rest⟩ := ih
    refine ⟨n + 1, fun m => ?_⟩
    rw [Nat.add_right_comm, target_inr valid found, type]
    exact rest m

/-- The groups on the way to a reference: they are told apart, and lead to it if it is a group. -/
structure Way (p : Plan) (seen : List Bytes) (id : Bytes) : Prop where
  apart : seen.Nodup
  known : seen ⊆ p.groups.map (·.name)
  before : id ∈ p.groups.map (·.name) → ∀ x ∈ seen, Relation.TransGen (Contains p.groups) x id

/-- No group comes back, so the way is shorter than all groups. -/
theorem Way.next (way : Way p seen id) (valid : p.valid = true)
    (found : lookup p id = some (.inr g)) (sel : Selection) :
    seen.length < p.groups.length ∧ Way p (id :: seen) (chosen sel g) := by
  obtain ⟨there, rfl⟩ := group_of_mem_objects (lookup_inr found).2
  have named : g.name ∈ p.groups.map (·.name) := mem_map_of_mem there
  have apart : (g.name :: seen).Nodup :=
    nodup_cons.mpr ⟨fun again => acyclic_of_valid valid _ (way.before named _ again), way.apart⟩
  have known := cons_subset.mpr ⟨named, way.known⟩
  have short := (apart.subperm known).length_le
  rw [length_map] at short
  refine ⟨short, apart, known, fun onward x inside => ?_⟩
  have step : Contains p.groups g.name (chosen sel g) :=
    ⟨g, there, rfl, chosen_mem sel (group_of_valid valid there).1, onward⟩
  rcases mem_cons.mp inside with rfl | earlier
  · exact .single step
  · exact .tail (way.before named x earlier) step

theorem target_leaf (leaf : ¬∃ g, lookup p id = some (.inr g)) (n m : Nat) :
    target p sel n id balancers = target p sel m id balancers := by
  cases found : lookup p id with
  | none => rw [target, target, found]
  | some x =>
    cases x with
    | inl tag => rw [target_inl found, target_inl found]
    | inr g => exact absurd ⟨g, found⟩ leaf

theorem target_stable (valid : p.valid = true) (way : Way p seen id)
    (enough : p.groups.length ≤ fuel + seen.length) :
    target p sel (fuel + 1) id balancers = target p sel fuel id balancers := by
  induction fuel generalizing id seen with
  | zero =>
    refine target_leaf (fun ⟨g, found⟩ => ?_) ..
    have short := (way.next valid found sel).1
    omega
  | succ fuel ih =>
    by_cases group : ∃ g, lookup p id = some (.inr g)
    · obtain ⟨g, found⟩ := group
      rw [target_inr valid found, target_inr valid found,
        ih (way.next valid found sel).2 (by rw [length_cons]; omega)]
    · exact target_leaf group ..

/-- A target is resolved, as those of the rules are in turn. -/
def Uses (p : Plan) (sel : Selection) (before after : List Balancer) : Prop :=
  ∃ id aim, target p sel (p.groups.length + 1) id before = some (aim, after)

theorem Good.uses {after : List Balancer} (good : Good p balancers)
    (run : Relation.ReflTransGen (Uses p sel) balancers after) :
    Good p after ∧ balancers <+: after := by
  induction run with
  | refl => exact ⟨good, prefix_rfl⟩
  | tail _ step ih =>
    obtain ⟨id, aim, made⟩ := step
    obtain ⟨good', start, -⟩ := target_spec ih.1 made
    exact ⟨good', ih.2.trans start⟩

theorem balancerFor_again {after : List Balancer} (start : (balancerFor p balancers g).2 <+: after) :
    (balancerFor p after g).1 = (balancerFor p balancers g).1 := by
  obtain ⟨more, rfl⟩ := start
  cases found : balancers.find? fun b => b.group == g.name with
  | none | some b => simp [balancerFor, found]

end Exact

/-! ## The three renderers -/

/-- Where the renderers keep what groups lead to.  In Xray a selection is part of the configuration;
over all selections a reference leads to all that it has in the plan. -/
theorem members_kept_iff {p : Plan} (valid : p.valid = true) :
    (∀ cfg, SingBox.render p = some cfg → (cfg.Preserves p ↔ SingBox.Plain p)) ∧
    (∀ wide reserved fallback cfg, Mihomo.Apart wide reserved p →
      Mihomo.render wide p fallback = some cfg →
        (cfg.Preserves wide reserved p ↔ Mihomo.Plain p)) ∧
    (∀ sel cfg, render p sel = some cfg → (cfg.Preserves p sel ↔
      ∀ r ∈ reached p.rules, Plan.IsGroup p r.target → Kept p sel r.target)) ∧
    ∀ ref l, p.network.Leads ref l ↔ ∃ sel, (via p sel).Leads ref l :=
  ⟨fun _ made => SingBox.preserves_iff valid made,
    fun _ _ _ _ apart made => Mihomo.preserves_iff made apart valid,
    fun _ _ made => preserves_iff valid made, fun _ _ => leads_iff_exists_via valid⟩

theorem tidy_plan_kept : ∃ cfg, render Mihomo.tidyPlan (fun _ => none) = some cfg ∧
    cfg.Preserves Mihomo.tidyPlan fun _ => none := by
  have valid : Mihomo.tidyPlan.valid = true := by decide
  obtain ⟨cfg, made⟩ := isSome_iff_exists.mp
    (show (render Mihomo.tidyPlan fun _ => none).isSome = true by decide)
  refine ⟨cfg, made, ((members_kept_iff valid).2.2.1 _ cfg made).mpr fun r inside group => ?_⟩
  rcases mem_cons.mp inside with rfl | last
  · exact absurd group.1 (by decide)
  · rw [mem_singleton.mp last]
    refine (kept_of_select rfl rfl).mpr ⟨by decide, ?_⟩
    refine (kept_of_select rfl rfl).mpr ⟨by decide, ?_⟩
    exact (kept_of_inl rfl).mpr (by decide)

/-- An automatic group over a select group. -/
def autoPlan : Plan where
  sessionID := ascii "s"
  outbounds := [{ id := ascii "1", protocol := .trojan, server := ascii "s.example", port := 443 }]
  groups := [{ name := ascii "auto", type := .urlTest, outbounds := [ascii "inner"],
               url := ascii "https://t.example/" },
    { name := ascii "inner", type := .select, outbounds := [ascii "1"] }]
  rules := [{ type := .matchAll, value := [], target := ascii "auto" }]

/-- The member of the automatic group is dropped, and the balancer has nothing to select from. -/
theorem nested_member_dropped : ∃ p cfg, p.valid = true ∧ render p (fun _ => none) = some cfg ∧
    cfg.route.balancers.map (·.selector) = [[]] ∧ ¬cfg.Preserves p fun _ => none := by
  have valid : autoPlan.valid = true := by decide
  obtain ⟨cfg, made⟩ := isSome_iff_exists.mp
    (show (render autoPlan fun _ => none).isSome = true by decide)
  have shape : (render autoPlan fun _ => none).map (fun cfg =>
      cfg.route.balancers.map (·.selector)) = some [[]] := by decide
  rw [made, map_some, Option.some.injEq] at shape
  refine ⟨autoPlan, cfg, valid, made, shape, fun preserves => ?_⟩
  have group : Plan.IsGroup autoPlan (ascii "auto") :=
    ⟨by decide, _, mem_cons_of_mem _ mem_cons_self⟩
  have kept := (preserves_iff valid made).mp preserves _ mem_cons_self group
  obtain ⟨-, listed⟩ := (kept_of_auto rfl (by decide)).mp kept
  have none : ¬∃ o ∈ autoPlan.outbounds, o.id ∈ [ascii "inner"] := by decide
  exact none listed.some

end Sora.Contract.Xray
