import Sora.Contract.MihomoNames
import Sora.Contract.SingBox
import Sora.Lib.Leaves

/-!
# What groups lead to

A group leads to the outbounds and targets of the engine that its members lead to, through groups of
groups.  Where a text is both, the engine's target is meant.  sing-box and mihomo keep groups as
groups, so the rendered group leads to the same leaves as long as its members are looked up as they
are meant: sing-box knows one target of its own among members, mihomo none.
-/

namespace Sora.Contract

open Sora.Lib List

/-- References of a plan: a group goes on to its members. -/
def Plan.network (p : Plan) : Network Bytes Object where
  next ref m := isBuiltInTarget ref = false ∧ ∃ g, (ref, .group g) ∈ p.objects ∧ m ∈ g.outbounds
  leaf ref l := isBuiltInTarget ref = true ∧ l = .builtIn ref ∨
    isBuiltInTarget ref = false ∧ ∃ o, (ref, .outbound o) ∈ p.objects ∧ l = .outbound o

def Plan.leaves (p : Plan) (g : Group) (l : Object) : Prop :=
  ∃ m ∈ g.outbounds, p.network.Leads m l

variable {p : Plan} {g : Group} {n ref testURL : Bytes} {out : GroupOut}

theorem mem_objects_of_group (inside : g ∈ p.groups) : (g.name, Object.group g) ∈ p.objects :=
  mem_append_right _ (mem_map_of_mem inside)

theorem group_of_mem_objects (inside : (ref, Object.group g) ∈ p.objects) :
    g ∈ p.groups ∧ g.name = ref := by
  rcases mem_append.mp inside with outbound | group
  · obtain ⟨_, -, same⟩ := mem_map.mp outbound
    cases same
  · obtain ⟨g, there, same⟩ := mem_map.mp group
    cases same
    exact ⟨there, rfl⟩

theorem outbound_of_mem_objects {o : Outbound} (inside : (ref, Object.outbound o) ∈ p.objects) :
    o ∈ p.outbounds ∧ o.id = ref := by
  rcases mem_append.mp inside with outbound | group
  · obtain ⟨o, there, same⟩ := mem_map.mp outbound
    cases same
    exact ⟨there, rfl⟩
  · obtain ⟨_, -, same⟩ := mem_map.mp group
    cases same

/-! ## sing-box -/

namespace SingBox

def Config.network (cfg : Config) : Network Bytes Object where
  next tag t := ∃ out ∈ cfg.groups, out.tag = tag ∧ t ∈ out.outbounds
  leaf tag l := (tag, l) ∈ cfg.outbounds ∧ ∀ g, l ≠ .group g

/-- Every group leads to the leaves that it has in the plan. -/
def Config.Preserves (cfg : Config) (p : Plan) : Prop :=
  List.Forall₂ (fun g out =>
    ∀ l, p.leaves g l ↔ ∃ t ∈ GroupOut.outbounds out, cfg.network.Leads t l) p.groups cfg.groups

/-- Members are targets of the engine only if sing-box has the target. -/
def Plain (p : Plan) : Prop :=
  ∀ g ∈ p.groups, ∀ m ∈ g.outbounds, isBuiltInTarget m = true → m = direct

section

variable {cfg : Config}

theorem tag_of_group {tags : List (Bytes × Bytes)} (made : group tags testURL g = some out) :
    out.tag = (Naming.get tags g.name).getD [] := by
  obtain ⟨members, -, made⟩ := Option.bind_eq_some_iff.mp made
  split at made
  · cases made
  · split at made
    · cases made
      rfl
    · cases made
      rfl
    · cases made

theorem get_group (inside : g ∈ p.groups) (made : group (tagsOf p) testURL g = some out) :
    Naming.get (tagsOf p) g.name = some out.tag := by
  obtain ⟨tag, found⟩ := get_tagsOf (mem_objects_of_group inside)
  rw [tag_of_group made, found]
  rfl

/-- A reference and the tag that it is rendered as. -/
def Rendered (p : Plan) (ref tag : Bytes) : Prop :=
  target (tagsOf p) ref = some tag ∧ (isBuiltInTarget ref = true → ref = direct)

theorem Rendered.cases {tag : Bytes} (rendered : Rendered p ref tag) :
    ref = direct ∧ tag = direct ∨
      isBuiltInTarget ref = false ∧ Naming.get (tagsOf p) ref = some tag := by
  obtain ⟨made, plain⟩ := rendered
  rw [target] at made
  split at made
  · rename_i same
    cases made
    exact .inl ⟨same, rfl⟩
  · rename_i other
    exact .inr ⟨Bool.eq_false_of_not_eq_true fun known => other (plain known), made⟩

theorem isBuiltInTarget_direct : isBuiltInTarget direct = true := by decide

variable (valid : p.valid = true) (made : render p = some cfg)

include valid made

theorem simulates_forth (plain : Plain p) :
    p.network.Simulates cfg.network (Rendered p) := by
  obtain ⟨same, grouped, -⟩ := render_eq_some valid made
  constructor
  · intro ref tag l rendered leaf
    rcases rendered.cases with ⟨rfl, rfl⟩ | ⟨other, found⟩
    · rcases leaf with ⟨-, rfl⟩ | ⟨other, -⟩
      · exact ⟨same ▸ direct_denotes_iff.mpr rfl, nofun⟩
      · cases other
    · rcases leaf with ⟨known, -⟩ | ⟨-, o, inside, rfl⟩
      · rw [other] at known
        cases known
      · exact ⟨same ▸ (denotes_iff valid found).mpr inside, nofun⟩
  · intro ref tag m rendered next
    obtain ⟨other, g, inside, member⟩ := next
    obtain ⟨there, rfl⟩ := group_of_mem_objects inside
    rcases rendered.cases with ⟨named, -⟩ | ⟨-, found⟩
    · rw [named] at other
      cases other
    · obtain ⟨out, listed, one⟩ := exists_of_forall₂ grouped there
      obtain ⟨t, sent, aimed⟩ := exists_of_forall₂ (outbounds_of_group one) member
      have tagged := get_group there one
      rw [found] at tagged
      cases tagged
      exact ⟨t, ⟨out, listed, rfl, sent⟩, aimed, plain g there m member⟩

theorem simulates_back (plain : Plain p) :
    cfg.network.Simulates p.network (Function.swap (Rendered p)) := by
  obtain ⟨same, grouped, -⟩ := render_eq_some valid made
  constructor
  · intro tag ref l rendered leaf
    obtain ⟨denotes, single⟩ := leaf
    rw [same] at denotes
    rcases Rendered.cases rendered with ⟨rfl, rfl⟩ | ⟨other, found⟩
    · exact .inl ⟨isBuiltInTarget_direct, direct_denotes_iff.mp denotes⟩
    · have inside := (denotes_iff valid found).mp denotes
      cases l with
      | builtIn => exact absurd inside builtIn_notMem_objects
      | outbound o => exact .inr ⟨other, o, inside, rfl⟩
      | group g => exact absurd rfl (single g)
  · intro tag ref t rendered next
    obtain ⟨out, listed, rfl, sent⟩ := next
    obtain ⟨g, there, one⟩ := forall₂_right grouped listed
    obtain ⟨m, member, aimed⟩ := forall₂_right (outbounds_of_group one) sent
    have tagged := get_group there one
    rcases Rendered.cases rendered with ⟨-, own⟩ | ⟨other, found⟩
    · rw [own] at tagged
      exact absurd tagged tag_ne_direct
    · have back := (planNames_iff valid).mpr found
      rw [(planNames_iff valid).mpr tagged] at back
      cases back
      exact ⟨m, ⟨other, g, mem_objects_of_group there, member⟩, aimed, plain g there m member⟩

theorem preserves_iff : cfg.Preserves p ↔ Plain p := by
  obtain ⟨same, grouped, -⟩ := render_eq_some valid made
  constructor
  · intro preserves g there m member known
    obtain ⟨out, -, leaves⟩ := exists_of_forall₂ preserves there
    obtain ⟨t, -, y, -, denotes, -⟩ :=
      (leaves (.builtIn m)).mp ⟨m, member, .of_leaf (.inl ⟨known, rfl⟩)⟩
    rw [same] at denotes
    rcases mem_outboundsOf.mp denotes with ⟨_, inside, -⟩ | ⟨-, named⟩
    · exact absurd inside builtIn_notMem_objects
    · cases named
      rfl
  · intro plain
    refine forall₂_imp_mem grouped fun g there out one l => forall₂_exists_iff ?_
    refine forall₂_imp_mem (outbounds_of_group one) fun m member t aimed => ?_
    exact Network.leads_iff_of_simulates (simulates_forth valid made plain)
      (simulates_back valid made plain) ⟨aimed, plain g there m member⟩ l

end

end SingBox

/-! ## mihomo -/

namespace Mihomo

section

variable {wide : Bytes → Bool} {reserved : List Bytes} {fallback : Bytes} {cfg : Config}

def Config.network (wide : Bytes → Bool) (reserved : List Bytes) (p : Plan) (cfg : Config) :
    Network Bytes Object where
  next name n := ∃ out ∈ cfg.groups, out.name = name ∧ n ∈ out.proxies
  leaf name l := (name, l) ∈ named wide reserved p ∧ ∀ g, l ≠ .group g

/-- Every group leads to the leaves that it has in the plan. -/
def Config.Preserves (wide : Bytes → Bool) (reserved : List Bytes) (p : Plan) (cfg : Config) : Prop :=
  List.Forall₂ (fun g out => ∀ l, p.leaves g l ↔
    ∃ n ∈ GroupOut.proxies out, (cfg.network wide reserved p).Leads n l) p.groups cfg.groups

/-- No member is a target of the engine. -/
def Plain (p : Plan) : Prop := ∀ g ∈ p.groups, ∀ m ∈ g.outbounds, isBuiltInTarget m = false

theorem name_of_buildGroup (made : buildGroup wide p testURL g = some out) :
    out.name = sanitizeName wide g.name [] := by
  rw [buildGroup] at made
  split at made
  · cases made
  · obtain ⟨proxies, -, made⟩ := Option.bind_eq_some_iff.mp made
    split at made
    · cases made
      rfl
    · split at made
      · cases made
      · cases made
        rfl

theorem byID_group (valid : p.valid = true) (inside : g ∈ p.groups)
    (made : buildGroup wide p testURL g = some out) : byID wide p g.name = some out.name := by
  have distinct : ((nameTable wide p).map (·.1)).Nodup := by
    rw [map_fst_nameTable]
    exact nodup_objects valid
  rw [byID_eq, Naming.get_eq_some_iff distinct, name_of_buildGroup made]
  exact mem_append_right _ (mem_map_of_mem inside)

/-- A reference to an object of the plan and the name that it is rendered as. -/
def Rendered (wide : Bytes → Bool) (p : Plan) (ref name : Bytes) : Prop :=
  byID wide p ref = some name ∧ isBuiltInTarget ref = false

variable (made : render wide p fallback = some cfg)

include made

theorem byID_of_proxy (listed : out ∈ cfg.groups) (sent : n ∈ out.proxies) :
    ∃ ref, byID wide p ref = some n := by
  obtain ⟨⟨_, grouped⟩, -⟩ := render_eq_some made
  obtain ⟨g, -, one⟩ := forall₂_right grouped listed
  obtain ⟨m, -, found⟩ := forall₂_right (proxies_of_buildGroup one) sent
  exact ⟨m, found⟩

/-- From a member of a group one comes to names of the plan only. -/
theorem byID_of_path {y : Bytes}
    (path : Relation.ReflTransGen (cfg.network wide reserved p).next n y)
    (start : ∃ ref, byID wide p ref = some n) : ∃ ref, byID wide p ref = some y := by
  induction path with
  | refl => exact start
  | tail _ step _ =>
    obtain ⟨out, listed, -, sent⟩ := step
    exact byID_of_proxy made listed sent

variable (apart : Apart wide reserved p) (valid : p.valid = true)

include apart valid

theorem simulates_forth (plain : Plain p) :
    p.network.Simulates (cfg.network wide reserved p) (Rendered wide p) := by
  obtain ⟨⟨_, grouped⟩, -⟩ := render_eq_some made
  constructor
  · intro ref name l rendered leaf
    rcases leaf with ⟨known, -⟩ | ⟨-, o, inside, rfl⟩
    · rw [rendered.2] at known
      cases known
    · exact ⟨(apart.named_iff valid rendered.1).mpr inside, nofun⟩
  · intro ref name m rendered next
    obtain ⟨-, g, inside, member⟩ := next
    obtain ⟨there, rfl⟩ := group_of_mem_objects inside
    obtain ⟨out, listed, one⟩ := exists_of_forall₂ grouped there
    obtain ⟨n, sent, found⟩ := exists_of_forall₂ (proxies_of_buildGroup one) member
    have same := byID_group valid there one
    rw [rendered.1] at same
    cases same
    exact ⟨n, ⟨out, listed, rfl, sent⟩, found, plain g there m member⟩

theorem simulates_back (plain : Plain p) :
    (cfg.network wide reserved p).Simulates p.network (Function.swap (Rendered wide p)) := by
  obtain ⟨⟨_, grouped⟩, -⟩ := render_eq_some made
  constructor
  · intro name ref l rendered leaf
    obtain ⟨denotes, single⟩ := leaf
    have inside := (apart.named_iff valid rendered.1).mp denotes
    cases l with
    | builtIn => exact absurd inside builtIn_notMem_objects
    | outbound o => exact .inr ⟨rendered.2, o, inside, rfl⟩
    | group g => exact absurd rfl (single g)
  · intro name ref n rendered next
    obtain ⟨out, listed, rfl, sent⟩ := next
    obtain ⟨g, there, one⟩ := forall₂_right grouped listed
    obtain ⟨m, member, found⟩ := forall₂_right (proxies_of_buildGroup one) sent
    have back := (apart.planNames_iff valid).mpr rendered.1
    rw [(apart.planNames_iff valid).mpr (byID_group valid there one)] at back
    cases back
    exact ⟨m, ⟨rendered.2, g, mem_objects_of_group there, member⟩, found, plain g there m member⟩

theorem preserves_iff : cfg.Preserves wide reserved p ↔ Plain p := by
  obtain ⟨⟨_, grouped⟩, -⟩ := render_eq_some made
  constructor
  · intro preserves g there m member
    by_contra known
    have leads : p.leaves g (.builtIn m) :=
      ⟨m, member, .of_leaf (.inl ⟨by simpa using known, rfl⟩)⟩
    obtain ⟨out, listed, leaves⟩ := exists_of_forall₂ preserves there
    obtain ⟨n, sent, y, path, denotes, -⟩ := (leaves _).mp leads
    obtain ⟨ref, found⟩ := byID_of_path made path (byID_of_proxy made listed sent)
    rcases mem_named.mp denotes with ⟨_, inside, -⟩ | ⟨word, -⟩
    · exact builtIn_notMem_objects inside
    · exact apart.notMem_reserved found word
  · intro plain
    refine forall₂_imp_mem grouped fun g there out one l => forall₂_exists_iff ?_
    refine forall₂_imp_mem (proxies_of_buildGroup one) fun m member n found => ?_
    exact Network.leads_iff_of_simulates (simulates_forth made apart valid plain)
      (simulates_back made apart valid plain) ⟨found, plain g there m member⟩ l

end

end Mihomo

end Sora.Contract
