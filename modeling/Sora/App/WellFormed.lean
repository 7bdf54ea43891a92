import Sora.App.Plan
import Sora.Control.Imports

/-!
# Plans that the core can take

What `connect` builds and reads before it sends anything, and when the plan is well formed: its ids
are unique, everything it names is in it, a profile runs alone, and it is within the limits of the
core.  `plan_well_formed_iff` says for which subscriptions, choices and settings this holds; of such a
plan only the fields of its outbounds and rules can be a reason to reject it.
-/

namespace Sora.App

open Sora.Lib Sora.Contract Sora.Control List Bool
open Option hiding all_eq_true any_eq_false mem_map

/-! ## Reading the plan -/

/-- What the app builds a plan from. -/
structure Client where
  splitRole : Bytes → Bytes × Option Role
  sorter : Sorter
  windows : Bool
  /-- The core can run without a server. -/
  serverlessAvailable : Bool
  settings : Settings
  subscriptions : List Subscription
  latency : Latency

namespace Client

def servers (app : Client) : List PlanOutbound := App.servers app.subscriptions

def ordinary (app : Client) : List PlanOutbound := app.servers.filter fun o => !isProfile o

def entryFor (app : Client) (choice : Bytes) : Option Entry :=
  entryOf app.splitRole choice app.subscriptions

/-- `selected`: the stored choice, or auto when it is gone. -/
def selected (app : Client) : Bytes :=
  let chosen := app.settings.server
  if chosen = autoChoice then chosen
  else if chosen = bypassChoice then if app.serverlessAvailable then chosen else autoChoice
  else if groupPrefix.isPrefixOf chosen then
    if (app.entryFor chosen).isSome then chosen else autoChoice
  else if app.servers.any fun o => o.id == chosen then chosen
  else autoChoice

/-- The group of the choice. -/
def entry (app : Client) : Option Entry :=
  if groupPrefix.isPrefixOf app.selected then app.entryFor app.selected else none

/-- `currentPlan`. -/
def currentPlan (app : Client) : Option SessionPlan :=
  buildPlan app.sorter app.windows app.servers app.selected app.settings app.latency app.entry

/-- `nameOf`. -/
def nameOf (app : Client) (id : Bytes) : Bytes :=
  if groupPrefix.isPrefixOf id then ((app.entryFor id).map (·.name)).getD id
  else ((app.servers.find? fun o => o.id == id).map (·.displayName)).getD id

end Client

/-- What the app keeps of a fallback group. -/
structure Fallback where
  name : Bytes
  order : List Bytes
  mains : List Bytes
  title : Bytes
  ordered : Bool

/-- `_mainsOf`; it throws for a group without members. -/
def mainsOf (g : GroupSpec) (entry : Option Entry) : Option (List Bytes) :=
  match entry.filter Entry.ordered with
  | some e => some (g.members.filter fun m => e.roles m == some .main)
  | none => g.members.head?.map fun m => [m]

/-- One of the groups that `connect` keeps. -/
def Client.fallback (app : Client) (g : GroupSpec) : Option Fallback :=
  (mainsOf g app.entry).bind fun mains =>
    g.members.head?.map fun first =>
      { name := g.name
        order := g.members
        mains := mains
        title := ((app.entry.map (·.name)).getD (app.nameOf first))
        ordered := app.entry.any Entry.ordered }

/-- What `connect` comes to before it sends a request. -/
inductive Reading where
  | noServers
  | versionMismatch
  | ready (plan : SessionPlan) (fallbacks : List Fallback) (member : Option Bytes)

/-- `Iterable.single`; it throws unless there is one element. -/
def single {α : Type} : List α → Option α
  | [x] => some x
  | _ => none

/-- The part of `connect` that builds the plan and reads it; `minor` is the version of the core's
interface. -/
def Client.connectReads (app : Client) (minor : Nat) : Option Reading :=
  if app.selected ≠ bypassChoice ∧ app.servers = [] then some .noServers
  else
    app.currentPlan.bind fun plan =>
      if plan.tunStack ≠ [] ∧ minor < 7 then some .versionMismatch
      else
        ((plan.groups.filter fun g => g.type == .fallback && !g.members.isEmpty).mapM
          app.fallback).bind fun fallbacks =>
          if app.entry.any fun e => e.members.any isProfile then
            (single plan.outbounds).map fun o => .ready plan fallbacks (some o.id)
          else some (.ready plan fallbacks none)

/-! ## Well-formed plans -/

/-- The rules that the core makes of a plan: the routes, and those of its routing options. -/
def ruleCount (routes : Nat) (routing : RoutingOptions) : Nat :=
  routes + (if routing.blockAds then 1 else 0) + ((presetRules routing.preset).getD []).length + 1

/-- Something that the plan has, or that every engine has. -/
def Resolves (m : SessionPlan) (target : Bytes) : Prop :=
  target ∈ m.outbounds.map (·.id) ∨ target ∈ m.groups.map (·.name) ∨ Control.isBuiltInTarget target

/-- The shape that the core asks of a plan. -/
structure WellFormed (m : SessionPlan) : Prop where
  ids : (m.outbounds.map (·.id)).Nodup
  members : ∀ g ∈ m.groups, ∀ id ∈ g.members, Resolves m id
  routes : ∀ r ∈ m.routes, Resolves m r.outboundID
  target : m.routing.proxyTarget ∈ m.outbounds.map (·.id) ∨
    m.routing.proxyTarget ∈ m.groups.map (·.name)
  profile : (∃ o ∈ m.outbounds, isProfile o = true) → m.outbounds.length = 1 ∧ m.groups = []
  outbounds : m.outbounds.length ≤ maxOutbounds
  groups : m.groups.length ≤ maxGroups
  rules : ruleCount m.routes.length m.routing ≤ maxRules

/-! ## Servers, groups and members -/

variable {o : PlanOutbound} {sub : Subscription} {e : Entry} {s : Settings} {plan : SessionPlan}
    {g : GroupSpec}

theorem mem_servers_ids {subscriptions : List Subscription} (known : sub ∈ subscriptions)
    (inside : o ∈ sub.outbounds) : o.id ∈ (servers subscriptions).map (·.id) :=
  mem_keys_distinctBy.mpr
    ⟨mem_map_of_mem (mem_flatMap.mpr ⟨sub, known, inside⟩), not_mem_nil⟩

/-- A group has members, all of its subscription. -/
theorem entriesOf_members {splitRole : Bytes → Bytes × Option Role}
    (inside : e ∈ entriesOf splitRole sub) :
    e.members ≠ [] ∧ ∀ o ∈ e.members, o ∈ sub.outbounds := by
  simp only [entriesOf, mem_map, mem_reverse, mem_dedup] at inside
  obtain ⟨name, ⟨o, given, named⟩, made⟩ := inside
  have there : o ∈ sub.outbounds.filter fun o => (splitRole o.displayName).1 == name :=
    mem_filter.mpr ⟨given, by simpa using named⟩
  have among : ∀ o ∈ sub.outbounds.filter fun o => (splitRole o.displayName).1 == name,
      o ∈ sub.outbounds := fun o inside => (mem_filter.mp inside).1
  cases found : sub.outbounds.filter fun o => (splitRole o.displayName).1 == name with
  | nil =>
    rw [found] at there
    cases there
  | cons first rest =>
    rw [found] at made among
    cases rest with
    | nil | cons second rest =>
      subst made
      exact ⟨cons_ne_nil _ _, among⟩

theorem groupMembers_mem (inside : o ∈ s.groupMembers e) : o ∈ e.members := by
  rw [Settings.groupMembers] at inside
  split at inside
  · exact inside
  · rw [Settings.preferred] at inside
    split at inside
    · split at inside
      · exact mem_byRole.mp inside
      · exact (mem_filter.mp inside).1
    · exact inside

theorem groupMembers_ne_nil (full : e.members ≠ []) : s.groupMembers e ≠ [] := by
  rw [Settings.groupMembers]
  split
  · exact full
  · assumption

/-! ## The plans that are built -/

/-- A group as the app makes them. -/
structure AppGroup (g : GroupSpec) : Prop where
  name : g.name ∈ [autoGroup, failoverGroup, entryGroup]
  type : g.type = .urlTest ∨ g.type = .fallback
  test : g.testURL = [] ∧ g.testInterval = none

/-- The target of a plan is one of its servers, or a group of them. -/
def Served (carried : List PlanOutbound) (groups : List GroupSpec) (target : Bytes) : Prop :=
  groups = [] ∧ target ∈ carried.map (·.id) ∨
    ∃ g, groups = [g] ∧ target = g.name ∧ AppGroup g ∧ (carried ≠ [] → g.members ≠ []) ∧
      ∀ m ∈ g.members, m ∈ carried.map (·.id)

/-- The end of `buildPlan` runs a profile by itself or carries the ordinary servers. -/
theorem buildChoice_cases (sorter : Sorter) {servers : List PlanOutbound} (settings : Settings)
    (latency : Latency) (plan : SessionPlan) {choice : Bytes}
    (known : choice = autoChoice ∨ choice ∈ servers.map (·.id)) :
    (∃ o ∈ servers, isProfile o = true ∧
        (o.id = choice ∨ servers.filter (fun o => !isProfile o) = []) ∧
        buildChoice sorter servers settings latency plan choice =
          some (settings.carrying plan [o] [] o.id)) ∨
      (∀ o ∈ servers, isProfile o = true → o.id ≠ choice) ∧
      (servers ≠ [] → servers.filter (fun o => !isProfile o) ≠ []) ∧ ∃ groups target,
        Served (servers.filter fun o => !isProfile o) groups target ∧
        buildChoice sorter servers settings latency plan choice =
          some (settings.carrying plan (servers.filter fun o => !isProfile o) groups target) := by
  simp only [buildChoice]
  cases picked : (servers.filter isProfile).find? fun o => o.id == choice with
  | some o =>
    have inside := mem_filter.mp (mem_of_find?_eq_some picked)
    have named : o.id = choice := by simpa using find?_some picked
    exact .inl ⟨o, inside.1, inside.2, .inl named, by simp⟩
  | none =>
    have unpicked : ∀ o ∈ servers, isProfile o = true → o.id ≠ choice := by
      intro o inside profile
      simpa using find?_eq_none.mp picked o (mem_filter.mpr ⟨inside, profile⟩)
    have among (other : choice ≠ autoChoice) :
        choice ∈ (servers.filter fun o => !isProfile o).map (·.id) := by
      obtain ⟨o, inside, named⟩ := mem_map.mp (known.resolve_left other)
      refine mem_map.mpr ⟨o, mem_filter.mpr ⟨inside, ?_⟩, named⟩
      cases profile : isProfile o with
      | false => rfl
      | true => exact absurd named (unpicked o inside profile)
    by_cases auto : choice = autoChoice
    · by_cases only : servers.filter (fun o => !isProfile o) = [] ∧ servers.filter isProfile ≠ []
      · obtain ⟨o, same, fast⟩ := fastest_spec latency only.2
        have member := mem_filter.mp fast.inside
        refine .inl ⟨o, member.1, member.2, .inr only.1, ?_⟩
        rw [if_pos (.inr ⟨auto, only⟩), same]
        rfl
      · have carrying : ¬((none : Option PlanOutbound).isSome = true ∨ choice = autoChoice ∧
            servers.filter (fun o => !isProfile o) = [] ∧ servers.filter isProfile ≠ []) :=
          fun some => some.elim Bool.false_ne_true fun alone => only alone.2
        have full : servers ≠ [] → servers.filter (fun o => !isProfile o) ≠ [] := by
          intro some none
          obtain ⟨o, inside⟩ := exists_mem_of_ne_nil _ some
          have profiles : servers.filter isProfile = [] := by_contra fun other => only ⟨none, other⟩
          have plain := filter_eq_nil_iff.mp none o inside
          exact plain (by simpa using filter_eq_nil_iff.mp profiles o inside)
        rw [if_neg carrying, if_pos auto]
        exact .inr ⟨unpicked, full, _, _, .inr ⟨_, rfl, rfl,
          ⟨mem_cons_self, .inl rfl, rfl, rfl⟩,
          fun full empty => full (map_eq_nil_iff.mp empty), fun m inside => inside⟩, rfl⟩
    · have carrying : ¬((none : Option PlanOutbound).isSome = true ∨ choice = autoChoice ∧
          servers.filter (fun o => !isProfile o) = [] ∧ servers.filter isProfile ≠ []) :=
        fun some => some.elim Bool.false_ne_true fun alone => auto alone.1
      have full : servers.filter (fun o => !isProfile o) ≠ [] := fun none => by
        have there := among auto
        rw [none] at there
        cases there
      rw [if_neg carrying, if_neg auto]
      split
      · refine .inr ⟨unpicked, fun _ => full, _, _, .inr ⟨_, rfl, rfl,
          ⟨mem_cons_of_mem _ mem_cons_self, .inr rfl, rfl, rfl⟩,
          fun _ => cons_ne_nil _ _, fun m inside => ?_⟩, rfl⟩
        rcases mem_cons.mp inside with rfl | later
        · exact among auto
        · obtain ⟨o, sorted, rfl⟩ := mem_map.mp later
          have member := (sorter.perm _ _).mem_iff.mp sorted
          exact mem_map_of_mem (mem_filter.mp member).1
      · exact .inr ⟨unpicked, fun _ => full, _, _, .inl ⟨rfl, among auto⟩, rfl⟩

namespace Client

variable {app : Client}

theorem entry_members (found : app.entry = some e) :
    e.members ≠ [] ∧ ∀ o ∈ e.members, o.id ∈ app.servers.map (·.id) := by
  rw [entry] at found
  split at found
  · have inside := mem_of_find?_eq_some found
    obtain ⟨sub, known, there⟩ := mem_flatMap.mp inside
    obtain ⟨full, members⟩ := entriesOf_members there
    exact ⟨full, fun o member => mem_servers_ids known (members o member)⟩
  · cases found

/-- A choice without a group is auto, no server, or the id of a server. -/
theorem selected_known (plain : app.entry = none) : app.selected = autoChoice ∨
    app.selected = bypassChoice ∨ app.selected ∈ app.servers.map (·.id) := by
  rw [entry] at plain
  rw [selected] at plain ⊢
  split
  · rename_i auto
    exact .inl auto
  · split
    · split
      · rename_i bypass _
        exact .inr (.inl bypass)
      · exact .inl rfl
    · split
      · split
        · rename_i auto bypass group there
          simp only [auto, bypass, group, there, if_true, if_false] at plain
          rw [plain] at there
          cases there
        · exact .inl rfl
      · split
        · rename_i there
          obtain ⟨o, inside, named⟩ := any_eq_true.mp there
          exact .inr (.inr (mem_map.mpr ⟨o, inside, by simpa using named⟩))
        · exact .inl rfl

/-- The plan runs a provider's profile by itself: the chosen one, or the member picked of a group. -/
def RunsProfile (app : Client) : Prop :=
  match app.entry with
  | none => ∃ o ∈ app.servers, isProfile o = true ∧ o.id = app.selected
  | some e => e.members.any isProfile = true ∧ ∃ m, pickMember e app.latency = some m ∧
      ∃ o ∈ app.servers, isProfile o = true ∧ o.id = m.id

def carry (app : Client) (carried : List PlanOutbound) (groups : List GroupSpec) (target : Bytes) :
    SessionPlan :=
  app.settings.carrying (app.settings.plan app.windows app.selected) carried groups target

def groupSpec (app : Client) (e : Entry) : GroupSpec :=
  let fallback := e.ordered && app.settings.fallsBack
  { name := entryGroup
    type := if fallback then .fallback else .urlTest
    members := (app.settings.groupMembers e).map (·.id)
    toleranceMs := if fallback then 0 else 50 }

/-- The plans that the app builds. -/
inductive Planned (app : Client) : SessionPlan → Prop
  | bypass (chosen : app.selected = bypassChoice) :
      Planned app (app.carry [app.settings.bypassOutbound] [] bypassID)
  | profile {o : PlanOutbound} (other : app.selected ≠ bypassChoice) (inside : o ∈ app.servers)
      (profile : isProfile o = true) (runs : app.RunsProfile ∨ app.entry = none ∧ app.ordinary = []) :
      Planned app (app.carry [o] [] o.id)
  | ordinary {groups : List GroupSpec} {target : Bytes} (other : app.selected ≠ bypassChoice)
      (runs : ¬app.RunsProfile)
      (mixed : ∀ e, app.entry = some e → e.members.any isProfile = true)
      (full : app.servers ≠ [] → app.ordinary ≠ [])
      (served : Served app.ordinary groups target) : Planned app (app.carry app.ordinary groups target)
  | group {e : Entry} (other : app.selected ≠ bypassChoice) (found : app.entry = some e)
      (plain : e.members.any isProfile = false) :
      Planned app (app.carry app.ordinary [app.groupSpec e] entryGroup)

/-- `buildPlan` does not throw. -/
theorem currentPlan_planned (app : Client) :
    ∃ plan, app.currentPlan = some plan ∧ app.Planned plan := by
  simp only [currentPlan, buildPlan]
  split
  · rename_i bypass
    exact ⟨_, rfl, .bypass bypass⟩
  · rename_i other
    cases found : app.entry with
    | none =>
      have known : app.selected = autoChoice ∨ app.selected ∈ app.servers.map (·.id) := by
        rcases selected_known found with auto | bypass | inside
        · exact .inl auto
        · exact absurd bypass other
        · exact .inr inside
      rcases buildChoice_cases app.sorter app.settings app.latency
          (app.settings.plan app.windows app.selected) known with
        ⟨o, inside, profile, why, made⟩ | ⟨unpicked, full, groups, target, served, made⟩
      · refine ⟨_, made, .profile other inside profile (why.imp (fun named => ?_) fun only => ?_)⟩
        · rw [RunsProfile, found]
          exact ⟨o, inside, profile, named⟩
        · exact ⟨found, only⟩
      · refine ⟨_, made, .ordinary other ?_ ?_ full served⟩
        · rw [RunsProfile, found]
          rintro ⟨o, inside, profile, named⟩
          exact unpicked o inside profile named
        · intro e some
          rw [found] at some
          cases some
    | some e =>
      obtain ⟨some, members⟩ := entry_members found
      cases mixed : e.members.any isProfile with
      | false =>
        refine ⟨_, ?_, .group other found mixed⟩
        simp only [mixed]
        rfl
      | true =>
        obtain ⟨m, member, picked, -⟩ := pickMember_spec app.latency some
        simp only [mixed, picked]
        rcases buildChoice_cases app.sorter app.settings app.latency
            (app.settings.plan app.windows app.selected) (.inr (members m member)) with
          ⟨o, inside, profile, why, made⟩ | ⟨unpicked, full, groups, target, served, made⟩
        · refine ⟨_, made, .profile other inside profile (.inl ?_)⟩
          rw [RunsProfile, found]
          refine ⟨mixed, m, picked, ?_⟩
          rcases why with named | only
          · exact ⟨o, inside, profile, named⟩
          · -- all servers are profiles, so the one with the member's id is
            obtain ⟨o, inside, named⟩ := mem_map.mp (members m member)
            refine ⟨o, inside, ?_, named⟩
            by_contra plain
            have there : o ∈ app.servers.filter fun o => !isProfile o :=
              mem_filter.mpr ⟨inside, by simpa using plain⟩
            rw [only] at there
            cases there
        · refine ⟨_, made, .ordinary other ?_ ?_ full served⟩
          · rw [RunsProfile, found]
            rintro ⟨-, again, same, o, inside, profile, named⟩
            cases picked.symm.trans same
            exact unpicked o inside profile named
          · intro e' some
            cases found.symm.trans some
            exact mixed

/-! ## When they are well formed -/

/-- The rules that the core makes of the user's rules and the preset. -/
def ruleCount (app : Client) : Nat :=
  App.ruleCount (app.settings.rules.filterMap UserRule.parse).length
    { preset := app.settings.preset, blockAds := app.settings.blockAds }

theorem wellFormed_carry {carried : List PlanOutbound} {groups : List GroupSpec} {target : Bytes} :
    WellFormed (app.carry carried groups target) ↔
      ((carried.map (·.id)).Nodup ∧
        (∀ g ∈ groups, ∀ id ∈ g.members, id ∈ carried.map (·.id) ∨ id ∈ groups.map (·.name) ∨
          Control.isBuiltInTarget id = true) ∧
        (target ∈ carried.map (·.id) ∨ target ∈ groups.map (·.name)) ∧
        ((∃ o ∈ carried, isProfile o = true) → carried.length = 1 ∧ groups = []) ∧
        groups.length ≤ maxGroups) ∧
      carried.length ≤ maxOutbounds ∧ app.ruleCount ≤ maxRules := by
  have count : App.ruleCount (app.carry carried groups target).routes.length
      (app.carry carried groups target).routing = app.ruleCount := by
    rw [show (app.carry carried groups target).routes = app.settings.routes target from rfl,
      Settings.routes, length_map]
    rfl
  constructor
  · intro formed
    exact ⟨⟨formed.ids, formed.members, formed.target, formed.profile, formed.groups⟩,
      formed.outbounds, count ▸ formed.rules⟩
  · rintro ⟨⟨ids, members, resolved, profile, few⟩, size, rules⟩
    refine ⟨ids, members, fun r inside => ?_, resolved, profile, size, few, count.symm ▸ rules⟩
    rcases routes_target inside with direct | reject | same
    · exact .inr (.inr (by rw [direct]; decide))
    · exact .inr (.inr (by rw [reject]; decide))
    · rw [same]
      exact resolved.imp id .inl

theorem nodup_ordinary (app : Client) : (app.ordinary.map (·.id)).Nodup :=
  (nodup_distinctBy _ _ _).sublist (filter_sublist.map _)

theorem plain_ordinary (inside : o ∈ app.ordinary) : isProfile o = false := by
  simpa using (mem_filter.mp inside).2

/-- The groups that `connect` keeps have members, so it can read them. -/
theorem fallbacks_isSome (app : Client) (plan : SessionPlan) :
    ((plan.groups.filter fun g => g.type == .fallback && !g.members.isEmpty).mapM
      app.fallback).isSome := by
  rw [isSome_mapM]
  intro g inside
  have full := (mem_filter.mp inside).2
  rw [and_eq_true] at full
  cases members : g.members with
  | nil =>
    rw [members] at full
    cases full.2
  | cons first rest =>
    rw [fallback, mainsOf]
    cases app.entry.filter Entry.ordered <;> simp [members]

/-- `connect` does not throw when a plan for a group with profiles has one outbound. -/
theorem connectReads_isSome (made : app.currentPlan = some plan) :
    (∀ minor, (app.connectReads minor).isSome) ↔
      ∀ e, app.entry = some e → e.members.any isProfile = true → plan.outbounds.length = 1 := by
  obtain ⟨fallbacks, kept⟩ := isSome_iff_exists.mp (app.fallbacks_isSome plan)
  have one : (single plan.outbounds).isSome ↔ plan.outbounds.length = 1 := by
    match plan.outbounds with
    | [] | [o] | o :: o' :: rest => simp [single]
  simp only [connectReads, made, bind_some, kept]
  constructor
  · intro reads e found mixed
    have full : app.servers ≠ [] := by
      intro empty
      obtain ⟨o, inside⟩ := exists_mem_of_ne_nil _ (entry_members found).1
      have there := (entry_members found).2 o inside
      rw [empty] at there
      cases there
    have read := reads 7
    rw [if_neg fun both => full both.2, if_neg fun both => Nat.lt_irrefl 7 both.2, found,
      any_some, if_pos mixed, isSome_map] at read
    exact one.mp read
  · intro length minor
    split
    · rfl
    · split
      · rfl
      · split
        · rename_i mixed
          rw [isSome_map]
          cases found : app.entry with
          | none =>
            rw [found] at mixed
            cases mixed
          | some e =>
            rw [found] at mixed
            exact one.mpr (length e found mixed)
        · rfl

/-- What the subscriptions, the choice and the settings have to satisfy for a well-formed plan. -/
structure Plannable (app : Client) : Prop where
  /-- The rules of the user and of the preset are within the limit. -/
  rules : app.ruleCount ≤ maxRules
  /-- The ordinary servers are within the limit where the plan carries them. -/
  few : app.selected ≠ bypassChoice → ¬app.RunsProfile → app.ordinary.length ≤ maxOutbounds
  /-- Where an ordinary server is picked of a group with profiles, there is no other one. -/
  mixed : ∀ e, app.entry = some e → e.members.any isProfile = true → ¬app.RunsProfile →
    app.ordinary.length = 1
  /-- No profile of another subscription has taken the id of a member. -/
  shared : ∀ e, app.entry = some e → e.members.any isProfile = false →
    ∀ o ∈ app.settings.groupMembers e, o.id ∈ app.ordinary.map (·.id) ∨ o.id = entryGroup ∨
      Control.isBuiltInTarget o.id = true

theorem served_formed {groups : List GroupSpec} {target : Bytes}
    (served : Served app.ordinary groups target) :
    WellFormed (app.carry app.ordinary groups target) ↔
      app.ordinary.length ≤ maxOutbounds ∧ app.ruleCount ≤ maxRules := by
  rw [wellFormed_carry]
  refine and_iff_right ⟨app.nodup_ordinary, ?_, ?_, ?_, ?_⟩
  · rcases served with ⟨rfl, -⟩ | ⟨g, rfl, -, -, -, members⟩
    · exact nofun
    · intro g' one id inside
      rw [mem_singleton.mp one] at inside
      exact .inl (members id inside)
  · rcases served with ⟨-, inside⟩ | ⟨g, rfl, rfl, -⟩
    · exact .inl inside
    · exact .inr mem_cons_self
  · rintro ⟨o, inside, profile⟩
    rw [plain_ordinary inside] at profile
    cases profile
  · rcases served with ⟨rfl, -⟩ | ⟨g, rfl, -⟩
    · exact Nat.zero_le _
    · exact show 1 ≤ maxGroups by decide

theorem group_formed : WellFormed (app.carry app.ordinary [app.groupSpec e] entryGroup) ↔
    (∀ o ∈ app.settings.groupMembers e, o.id ∈ app.ordinary.map (·.id) ∨ o.id = entryGroup ∨
      Control.isBuiltInTarget o.id = true) ∧
      app.ordinary.length ≤ maxOutbounds ∧ app.ruleCount ≤ maxRules := by
  rw [wellFormed_carry]
  apply and_congr_left
  intro _
  constructor
  · rintro ⟨-, members, -⟩ o inside
    have resolved := members _ mem_cons_self o.id (mem_map_of_mem inside)
    simpa [groupSpec] using resolved
  · intro members
    refine ⟨app.nodup_ordinary, fun g one id inside => ?_, .inr mem_cons_self, ?_,
      show 1 ≤ maxGroups by decide⟩
    · rw [mem_singleton.mp one] at inside
      obtain ⟨o, member, rfl⟩ := mem_map.mp inside
      simpa [groupSpec] using members o member
    · rintro ⟨o, inside, profile⟩
      rw [plain_ordinary inside] at profile
      cases profile

/-- A plan with one outbound is well formed when its rules are within the limit. -/
theorem single_formed : WellFormed (app.carry [o] [] o.id) ↔ app.ruleCount ≤ maxRules := by
  rw [wellFormed_carry]
  constructor
  · exact fun formed => formed.2.2
  · exact fun rules => ⟨⟨nodup_singleton _, nofun, .inl mem_cons_self,
      fun _ => ⟨rfl, rfl⟩, Nat.zero_le _⟩, show 1 ≤ maxOutbounds by decide, rules⟩

/-- A group is never chosen together with going without a server. -/
theorem entry_bypass (chosen : app.selected = bypassChoice) : app.entry = none := by
  rw [entry, chosen]
  exact if_neg (by decide)

/-- The plan is well formed, and `connect` reads it without throwing, exactly for what is plannable. -/
theorem formed_iff (app : Client) :
    (∃ plan, app.currentPlan = some plan ∧ WellFormed plan ∧
      ∀ minor, (app.connectReads minor).isSome) ↔ app.Plannable := by
  obtain ⟨plan, made, planned⟩ := app.currentPlan_planned
  have reduced : (∃ plan, app.currentPlan = some plan ∧ WellFormed plan ∧
      ∀ minor, (app.connectReads minor).isSome) ↔ WellFormed plan ∧
        ∀ e, app.entry = some e → e.members.any isProfile = true → plan.outbounds.length = 1 := by
    rw [← connectReads_isSome made]
    constructor
    · rintro ⟨plan', again, formed⟩
      cases made.symm.trans again
      exact formed
    · exact fun formed => ⟨plan, made, formed⟩
  rw [reduced]
  cases planned with
  | bypass chosen =>
    have none := entry_bypass chosen
    constructor
    · rintro ⟨formed, -⟩
      refine ⟨(wellFormed_carry.mp formed).2.2, fun other => absurd chosen other, ?_, ?_⟩
      · intro e found
        rw [none] at found
        cases found
      · intro e found
        rw [none] at found
        cases found
    · exact fun plannable => ⟨single_formed.mpr plannable.rules, fun _ _ _ => rfl⟩
  | profile other inside profile runs =>
    constructor
    · rintro ⟨formed, -⟩
      refine ⟨single_formed.mp formed, fun _ idle => ?_, fun e found _ idle => ?_,
        fun e found plain => ?_⟩
      · obtain ⟨-, empty⟩ := runs.resolve_left idle
        rw [empty]
        exact Nat.zero_le _
      · obtain ⟨none, -⟩ := runs.resolve_left idle
        rw [none] at found
        cases found
      · rcases runs with running | ⟨none, -⟩
        · rw [RunsProfile, found] at running
          rw [running.1] at plain
          cases plain
        · rw [none] at found
          cases found
    · exact fun plannable => ⟨single_formed.mpr plannable.rules, fun _ _ _ => rfl⟩
  | ordinary other idle mixed _ served =>
    rw [served_formed served]
    constructor
    · rintro ⟨⟨size, rules⟩, one⟩
      refine ⟨rules, fun _ _ => size, fun e found any _ => one e found any, fun e found plain => ?_⟩
      rw [mixed e found] at plain
      cases plain
    · exact fun plannable => ⟨⟨plannable.few other idle, plannable.rules⟩,
        fun e found any => plannable.mixed e found any idle⟩
  | @group e other found plain =>
    have same (e' : Entry) (again : app.entry = some e') : e' = e := by
      rw [found, Option.some.injEq] at again
      exact again.symm
    have idle : ¬app.RunsProfile := by
      rw [RunsProfile, found]
      rintro ⟨any, -⟩
      rw [plain] at any
      cases any
    rw [group_formed]
    constructor
    · rintro ⟨⟨members, size, rules⟩, -⟩
      refine ⟨rules, fun _ _ => size, fun e' again any => ?_, fun e' again _ => ?_⟩
      · rw [same e' again, plain] at any
        cases any
      · rw [same e' again]
        exact members
    · intro plannable
      refine ⟨⟨plannable.shared e found plain, plannable.few other idle, plannable.rules⟩,
        fun e' again any => ?_⟩
      rw [same e' again, plain] at any
      cases any

end Client

/-! ## What is left for the core to reject -/

/-- The fields of a plan, apart from its shape: its outbounds, rules, preset and resolvers. -/
structure FieldsFit (core : Receiver) (m : SessionPlan) : Prop where
  session : trimSpace core.sessionID ≠ []
  outbounds : ∀ o ∈ m.outbounds, trimSpace o.id = o.id ∧
    ∃ x, o.fromProto core.gzip core.vault = some x ∧ x.valid = true
  rules : ∀ r ∈ m.routes, ∃ x, ruleFromProto core.toASCII r = some x ∧ x.valid = true
  preset : (presetRules m.routing.preset).isSome
  dns : checkDNS (dnsFromProto m.dnsServers (m.tunnelMode == .system)) = true ∧
    (dnsFromProto m.dnsServers (m.tunnelMode == .system)).valid = true

theorem storedStack_mem {stored : Option Bytes} {default : Bytes} (known : default ∈ tunStacks) :
    storedStack stored default ∈ tunStacks := by
  cases stored with
  | none => exact known
  | some value =>
    rw [storedStack]
    split
    · assumption
    · exact known

/-- The app names a stack only for the adapter, and only one that the core knows. -/
theorem tunStack_known (s : Settings) (windows : Bool) : s.tunStack windows = [] ∨
    s.tunStack windows ∈ tunStacks ∧ s.tunnel = ascii "tun" := by
  have xray : storedStack s.xrayTunStack (ascii (if windows then "mips" else "gvisor")) ∈ tunStacks :=
    storedStack_mem (by cases windows <;> decide)
  have mihomo : storedStack s.mihomoTunStack (ascii (if windows then "mips" else "mixed")) ∈
      tunStacks := storedStack_mem (by cases windows <;> decide)
  simp only [Settings.tunStack]
  by_cases named : s.tunnel = ascii "tun"
  · rw [if_neg (not_not.mpr named)]
    by_cases pinned : s.engine = ascii "mihomo"
    · rw [if_pos pinned]
      exact .inr ⟨mihomo, named⟩
    · rw [if_neg pinned]
      generalize storedStack s.xrayTunStack (ascii (if windows then "mips" else "gvisor")) = stack at xray ⊢
      by_cases own : s.engine = ascii "xray" ∧ (windows ∨ stack ≠ ascii "gvisor")
      · rw [if_pos own]
        exact .inr ⟨xray, named⟩
      · rw [if_neg own]
        exact .inl rfl
  · rw [if_pos named]
    exact .inl rfl

section

variable {core : Receiver} {rules user : List Rule} {opts : RoutingOptions}

/-- The rules that routing adds are valid, and no more than were counted. -/
theorem applyRouting_rules (made : applyRouting user opts = some rules)
    (valid : ∀ r ∈ user, r.valid = true) : rules.length ≤ ruleCount user.length opts ∧
      ∀ r ∈ rules, r.valid = true := by
  have presetValid : ∀ p ∈ presets, ∀ r ∈ p.2, r.valid = true := by decide
  have adsValid : adsRule.valid = true := by decide
  have own : user.length ≤ ruleCount user.length opts := by
    rw [ruleCount]
    omega
  rcases applyRouting_cases made with ⟨-, rfl⟩ | ⟨-, rfl⟩
  · exact ⟨own, valid⟩
  · refine ⟨?_, fun r inside => ?_⟩
    · rw [ruleCount, additions]
      simp only [length_append]
      split <;> split <;> simp only [length_singleton, length_nil] <;> omega
    · rcases mem_append.mp inside with inside | added
      · exact valid r inside
      · rcases mem_additions added with rfl | ⟨p, known, inside⟩ | rfl
        · exact adsValid
        · exact presetValid p known r inside
        · rfl

/-- A known preset and a target suffice for the rules of a plan. -/
theorem applyRouting_isSome (user : List Rule) (known : (presetRules opts.preset).isSome)
    (target : opts.proxyTarget ≠ []) : (applyRouting user opts).isSome := by
  rw [applyRouting]
  split
  · rfl
  · have other : ¬(opts.preset = [] ∧ opts.blockAds = false ∧ opts.proxyTarget = []) :=
      fun all => target all.2.2
    rw [if_neg other, isSome_map]
    exact known

end

def readGroup (g : GroupSpec) (kind : GroupType) : Group :=
  { name := g.name, type := kind, outbounds := g.members }

theorem AppGroup.plain (made : AppGroup g) : trimSpace g.name = g.name ∧
    g.name ≠ [] ∧ validDisplayName g.name = true := by
  have all : ∀ name ∈ [autoGroup, failoverGroup, entryGroup], trimSpace name = name ∧ name ≠ [] ∧
      validDisplayName name = true := by decide
  exact all _ made.name

theorem groupsFromProto_one {ids : List Bytes} (made : AppGroup g) (fresh : g.name ∉ ids)
    (members : ∀ m ∈ g.members, m ∈ ids) :
    ∃ kind, (kind = .urlTest ∨ kind = .fallback) ∧
      groupsFromProto [g] ids = some [readGroup g kind] := by
  obtain ⟨trimmed, named, -⟩ := made.plain
  obtain ⟨kind, known, same⟩ : ∃ kind, (kind = .urlTest ∨ kind = .fallback) ∧
      groupTypes g.type = some kind := by
    rcases made.type with test | fallback
    · exact ⟨.urlTest, .inl rfl, by rw [test]; rfl⟩
    · exact ⟨.fallback, .inr rfl, by rw [fallback]; rfl⟩
  have read : groupFromProto g = some (readGroup g kind) := by
    rw [groupFromProto, trimmed, if_neg named, same, made.test.1, made.test.2]
    rfl
  refine ⟨kind, known, ?_⟩
  have all : ([g].mapM groupFromProto) = some [readGroup g kind] := by
    rw [mapM_cons, read]
    rfl
  rw [groupsFromProto, if_neg (show ¬maxGroups < [g].length from by rw [length_singleton]; decide),
    all, bind_some, if_pos]
  refine ⟨nodup_singleton _, fun name one => ?_, fun g' one m inside => .inl ?_⟩
  · rw [map_singleton, mem_singleton] at one
    rw [one]
    exact fresh
  · rw [mem_singleton.mp one] at inside
    exact members m inside

/-- The plan's own checks of such a group. -/
theorem validGroup_one {p : Plan} {kind : GroupType} (made : AppGroup g)
    (known : kind = .urlTest ∨ kind = .fallback) (full : g.members ≠ [])
    (alone : p.groups = [readGroup g kind]) (test : p.options.testURL = testURLProduction)
    (fresh : g.name ∉ g.members) (resolved : ∀ m ∈ g.members, m ∈ p.outbounds.map (·.id)) :
    p.validGroup (readGroup g kind) = true := by
  have own : (readGroup g kind).valid = true := by
    rcases known with rfl | rfl <;> simp [Group.valid, readGroup, made.plain.2.2, full]
  have itself : members [readGroup g kind] g.name = some g.members := by simp [members, readGroup]
  have other (m : Bytes) (inside : m ∈ g.members) : members [readGroup g kind] m = none := by
    have apart : g.name ≠ m := fun same => fresh (same ▸ inside)
    simp [members, readGroup, apart]
  have acyclic : groupCycle [readGroup g kind] 2 [] g.name = false := by
    rw [groupCycle, itself]
    simp only [not_mem_nil, decide_false, Bool.false_or, any_eq_false]
    intro m inside
    simp [other m inside]
  have probed : testURLProduction.isEmpty = false := by decide
  have inside : g.members.all (fun m => decide (m ∈ p.outbounds.map (·.id)) ||
      (members [readGroup g kind] m).isSome || Contract.isBuiltInTarget m) = true := by
    rw [all_eq_true]
    intro m member
    rw [decide_eq_true (resolved m member)]
    rfl
  rw [Plan.validGroup, own, alone, test, probed, length_singleton]
  simp only [Bool.and_false, Bool.not_false, Bool.true_and, Bool.and_eq_true]
  exact ⟨⟨rfl, inside⟩, by rw [show (readGroup g kind).name = g.name from rfl, acyclic]; rfl⟩

namespace Client

variable {app : Client} {core : Receiver}

/-- A stack that the app sends comes with the adapter. -/
theorem carry_tunStack (carried : List PlanOutbound) (groups : List GroupSpec) (target : Bytes) :
    (app.carry carried groups target).tunStack = [] ∨
      (app.carry carried groups target).tunStack ∈ tunStacks ∧
        (app.carry carried groups target).tunnelMode = .system := by
  by_cases bypass : app.selected = bypassChoice
  · exact .inl (if_pos bypass)
  · have named : (app.carry carried groups target).tunStack = app.settings.tunStack app.windows :=
      if_neg bypass
    rw [named]
    rcases tunStack_known app.settings app.windows with empty | ⟨known, tunnel⟩
    · exact .inl empty
    · refine .inr ⟨known, if_neg ?_⟩
      rw [tunnel]
      decide

section

variable {carried : List PlanOutbound} {groups : List GroupSpec} {target : Bytes}

theorem carry_framed (full : carried ≠ []) (size : carried.length ≤ maxOutbounds)
    (routes : (app.carry carried groups target).routes.length ≤ maxRules)
    (dns : checkDNS (dnsFromProto app.settings.dns
      ((app.carry carried groups target).tunnelMode == .system)) = true) :
    (app.carry carried groups target).framed = true := by
  have stack : ((app.carry carried groups target).tunStack.isEmpty ||
      (app.carry carried groups target).tunnelMode == .system) = true := by
    rcases carry_tunStack carried groups target with empty | ⟨-, system⟩
    · rw [empty]
      rfl
    · rw [system, or_eq_true]
      exact .inr rfl
  have mode : ((app.carry carried groups target).tunnelMode != .unspecified) = true := by
    change ((if app.settings.tunnel = ascii "proxy" then TunnelMode.application else .system) !=
      .unspecified) = true
    split <;> rfl
  simp only [SessionPlan.framed, and_eq_true, decide_eq_true_eq]
  exact ⟨⟨⟨⟨⟨⟨⟨⟨full, size⟩, routes⟩, stack⟩, or_true _⟩, rfl⟩, mode⟩, dns⟩, rfl⟩

/-- The adapter and the options of a plan from the app are valid. -/
theorem carry_frameValid (outbounds : List Outbound) (read : List Group) {rules : List Rule}
    (session : trimSpace core.sessionID ≠ []) (few : rules.length ≤ maxRules)
    (fields : ∀ r ∈ rules, r.valid = true ∧ r.target ≠ [])
    (dns : (dnsFromProto app.settings.dns
      ((app.carry carried groups target).tunnelMode == .system)).valid = true) :
    frameValid ((app.carry carried groups target).assembled core.sessionID outbounds read rules) =
      true := by
  have device : validDisplayName tunDevice = true := by decide
  have known : (app.carry carried groups target).tunStack ∈
      [[], ascii "system", ascii "gvisor", ascii "mixed", ascii "mips"] := by
    rcases carry_tunStack carried groups target with empty | ⟨sent, -⟩
    · rw [empty]
      exact mem_cons_self
    · exact mem_cons_of_mem _ sent
  have tun : ((app.carry carried groups target).assembled core.sessionID outbounds read
      rules).tun.valid = true := by
    rw [Tun.valid, or_eq_true]
    refine .inr ?_
    rw [and_eq_true, and_eq_true, decide_eq_true_eq]
    exact ⟨⟨known, rfl⟩, device⟩
  have options : ((app.carry carried groups target).assembled core.sessionID outbounds read
      rules).options.valid = true := by
    have fixed : ∀ fragment, Options.valid
        { mode := ascii "rule", logLevel := ascii "debug", testURL := testURLProduction,
          fragment := fragment } = true := by decide
    exact fixed _
  simp only [frameValid, and_eq_true, decide_eq_true_eq, bne_iff_ne, all_eq_true]
  exact ⟨⟨⟨⟨⟨⟨⟨session, few⟩, rfl⟩, by rintro _ ⟨⟩⟩, fun r inside =>
    ⟨(fields r inside).1, by simpa using (fields r inside).2⟩⟩, dns⟩, tun⟩, options⟩

end

/-- The core takes a well-formed plan whose fields fit. -/
theorem read_carry {carried : List PlanOutbound} {groups : List GroupSpec} {target : Bytes}
    (formed : WellFormed (app.carry carried groups target))
    (fit : FieldsFit core (app.carry carried groups target)) (full : carried ≠ [])
    (grouped : groups = [] ∨ ∃ g, groups = [g] ∧ AppGroup g ∧ g.members ≠ [] ∧
      g.name ∉ carried.map (·.id) ∧ ∀ m ∈ g.members, m ∈ carried.map (·.id)) :
    (core.read (app.carry carried groups target)).isSome := by
  obtain ⟨outbounds, made, sound⟩ := exists_mapM fun o inside => (fit.outbounds o inside).2
  have ids : outbounds.map (·.id) = carried.map (·.id) := by
    rw [ids_of_read made]
    exact map_congr_left fun o inside => (fit.outbounds o inside).1
  obtain ⟨read, taken, names, checked⟩ : ∃ read,
      groupsFromProto groups (outbounds.map (·.id)) = some read ∧
      read.map (·.name) = groups.map (·.name) ∧
      ∀ p : Plan, p.groups = read → p.options.testURL = testURLProduction →
        p.outbounds = outbounds → ∀ g ∈ read, p.validGroup g = true := by
    rcases grouped with rfl | ⟨g, rfl, own, some, fresh, members⟩
    · exact ⟨[], rfl, rfl, fun _ _ _ _ => nofun⟩
    · rw [ids]
      obtain ⟨kind, known, taken⟩ := groupsFromProto_one own fresh members
      refine ⟨_, taken, rfl, fun p alone test same g' one => ?_⟩
      rw [mem_singleton.mp one]
      refine validGroup_one own known some alone test (fun inside => fresh (members _ inside)) ?_
      rw [same, ids]
      exact members
  -- the target is trimmed and not empty, as the ids of servers and the names of groups are
  have target_plain : trimSpace target = target ∧ target ≠ [] := by
    rcases formed.target with inside | inside
    · obtain ⟨o, there, same⟩ := mem_map.mp inside
      obtain ⟨trimmed, x, read, -⟩ := fit.outbounds o there
      have named := (PlanOutbound.fromProto_some read).2.2
      rw [trimmed] at named
      exact (show o.id = target from same) ▸ ⟨trimmed, named⟩
    · rcases grouped with rfl | ⟨g, rfl, own, -⟩
      · cases inside
      · have same : target = g.name := mem_singleton.mp (show target ∈ [g.name] from inside)
        exact same ▸ ⟨own.plain.1, own.plain.2.1⟩
  have seen : target ∈ outbounds.map (·.id) ++ read.map (·.name) := by
    rw [ids, names]
    exact mem_append.mpr formed.target
  obtain ⟨user, routed, userValid⟩ := exists_mapM fit.rules
  have leads : ∀ route ∈ (app.carry carried groups target).routes,
      trimSpace route.outboundID = ascii "direct" ∨ trimSpace route.outboundID = ascii "reject" ∨
        trimSpace route.outboundID = target := by
    intro route inside
    rcases routes_target inside with same | same | same
    · exact .inl (by rw [same]; decide)
    · exact .inr (.inl (by rw [same]; decide))
    · exact .inr (.inr (by rw [same]; exact target_plain.1))
  obtain ⟨rules, applied⟩ := isSome_iff_exists.mp
    (applyRouting_isSome user fit.preset target_plain.2)
  obtain ⟨count, valid⟩ := applyRouting_rules applied userValid
  have few : rules.length ≤ maxRules := by
    rw [← (mapM_eq_some_iff.mp routed).length_eq] at count
    exact count.trans formed.rules
  have routes : (app.carry carried groups target).routes.length ≤ maxRules := by
    have all := formed.rules
    rw [App.ruleCount] at all
    omega
  have ruled : (app.carry carried groups target).rules core.toASCII
      (outbounds.map (·.id) ++ read.map (·.name)) = some rules := by
    refine SessionPlan.rules_eq_some.mpr ⟨user, routed, applied, fun r inside => ?_, .inr seen⟩
    obtain ⟨route, there, same⟩ := mem_of_mapM routed inside
    rw [ruleFromProto_target same]
    rcases leads route there with direct | reject | own
    · exact .inr (by rw [direct]; decide)
    · exact .inr (by rw [reject]; decide)
    · exact .inl (by rw [own]; exact seen)
  -- where the rules lead: past the proxy, or to the target
  have targets : ∀ r ∈ rules, r.target = ascii "direct" ∨ r.target = ascii "reject" ∨
      r.target = target := by
    intro r inside
    rcases SessionPlan.rules_target ruled r inside with ⟨route, there, same⟩ | rest
    · rw [same]
      exact leads route there
    · exact rest
  have ruleFields : ∀ r ∈ rules, r.valid = true ∧ r.target ≠ [] := by
    intro r inside
    refine ⟨valid r inside, ?_⟩
    rcases targets r inside with same | same | same
    · rw [same]
      decide
    · rw [same]
      decide
    · rw [same]
      exact target_plain.2
  have framed := carry_framed full formed.outbounds routes fit.dns.1
  have frame := carry_frameValid outbounds read fit.session few ruleFields
    fit.dns.2
  have length : outbounds.length = carried.length := (mapM_eq_some_iff.mp made).length_eq.symm
  refine isSome_iff_exists.mpr ⟨_, planFromProto_eq_some.mpr ⟨outbounds, read, rules, made,
    taken, ruled, framed, ids ▸ formed.ids, (valid_iff _).mpr ⟨frame, ⟨fun empty => ?_,
      length ▸ formed.outbounds, fun x inside => ?_, ids ▸ formed.ids⟩, ?_,
      ⟨?_, ?_, fun g inside => ?_, checked _ rfl rfl rfl⟩, fun r inside => ?_⟩, rfl⟩⟩
  · have none : outbounds.length = 0 := congrArg List.length (show outbounds = [] from empty)
    rw [length] at none
    exact full (length_eq_zero_iff.mp none)
  · exact sound x inside
  · rintro ⟨x, inside, profile⟩
    obtain ⟨o, there, same⟩ := mem_of_mapM made inside
    rw [(PlanOutbound.fromProto_some same).2.1, ofName_profile] at profile
    obtain ⟨one, none⟩ := formed.profile ⟨o, there, by rw [isProfile, profile]; exact beq_self_eq_true _⟩
    have empty : read.map (·.name) = [] := by
      rw [names, show groups = [] from none]
      rfl
    exact ⟨(length.trans one).le, map_eq_nil_iff.mp empty⟩
  · have same : read.length = groups.length := by
      rw [← length_map, names, length_map]
    exact same ▸ formed.groups
  · change (read.map (·.name)).Nodup
    rw [names]
    rcases grouped with rfl | ⟨g, rfl, -⟩
    · exact .nil
    · exact nodup_singleton _
  · change g.name ∉ outbounds.map (·.id)
    rw [ids]
    have named : g.name ∈ groups.map (·.name) := by
      rw [← names]
      exact mem_map_of_mem inside
    rcases grouped with rfl | ⟨g', rfl, -, -, fresh, -⟩
    · cases named
    · rw [mem_singleton.mp (show g.name ∈ [g'.name] from named)]
      exact fresh
  · rcases targets r inside with same | same | same
    · exact .inr (.inr (by rw [same]; decide))
    · exact .inr (.inr (by rw [same]; decide))
    · rw [same]
      exact (mem_append.mp seen).imp id .inl

/-- Names that no server has: those of the app's groups and of the built-in targets. -/
def reserved : List Bytes :=
  [autoGroup, failoverGroup, entryGroup] ++ ["direct", "block", "reject"].map ascii

/-- Of a well-formed plan that `connect` sends, with ids as the core makes them, only the fields can be
a reason to reject it. -/
theorem read_formed (made : app.currentPlan = some plan)
    (sent : app.selected = bypassChoice ∨ app.servers ≠ [])
    (fresh : ∀ o ∈ app.servers, o.id ∉ reserved) (formed : WellFormed plan)
    (fit : FieldsFit core plan) : (core.read plan).isSome := by
  have apart {name : Bytes} (kept : name ∈ reserved) : name ∉ app.servers.map (·.id) := by
    intro inside
    obtain ⟨o, there, rfl⟩ := mem_map.mp inside
    exact fresh o there kept
  have part {id : Bytes} (inside : id ∈ app.ordinary.map (·.id)) : id ∈ app.servers.map (·.id) :=
    (filter_sublist.map _).subset inside
  obtain ⟨plan', again, planned⟩ := app.currentPlan_planned
  cases made.symm.trans again
  cases planned with
  | bypass _ | profile _ _ _ _ => exact read_carry formed fit (cons_ne_nil _ _) (.inl rfl)
  | ordinary other _ _ full served =>
    have some := full (sent.resolve_left other)
    refine read_carry formed fit some ?_
    rcases served with ⟨none, -⟩ | ⟨g, one, -, own, members, inside⟩
    · exact .inl none
    · exact .inr ⟨g, one, own, members some,
        fun clash => apart (mem_append_left _ own.name) (part clash), inside⟩
  | @group e _ found _ =>
    obtain ⟨some, known⟩ := entry_members found
    have own : AppGroup (app.groupSpec e) := by
      refine ⟨by simp [groupSpec], ?_, rfl, rfl⟩
      change (if _ then GroupKind.fallback else .urlTest) = .urlTest ∨
        (if _ then GroupKind.fallback else .urlTest) = .fallback
      split
      · exact .inr rfl
      · exact .inl rfl
    have inside : ∀ m ∈ (app.groupSpec e).members, m ∈ app.ordinary.map (·.id) := by
      intro m member
      obtain ⟨o, there, same⟩ := mem_map.mp member
      have server : m ∈ app.servers.map (·.id) := same ▸ known o (groupMembers_mem there)
      rcases formed.members _ mem_cons_self m member with id | name | builtIn
      · exact id
      · rw [mem_singleton.mp (show m ∈ [entryGroup] from name)] at server
        exact absurd server (apart (by simp [reserved]))
      · rw [Control.isBuiltInTarget, decide_eq_true_eq] at builtIn
        exact absurd server (apart (mem_append_right _ builtIn))
    have members : (app.groupSpec e).members ≠ [] := by
      intro empty
      exact groupMembers_ne_nil some (map_eq_nil_iff.mp empty)
    obtain ⟨m, member⟩ := exists_mem_of_ne_nil _ members
    refine read_carry formed fit ?_ (.inr ⟨_, rfl, own, members,
      fun clash => apart (mem_append_left _ own.name) (part clash), inside⟩)
    intro empty
    have there := inside m member
    rw [empty] at there
    cases there

end Client

def clientOf (choice : String) (outbounds : List PlanOutbound) (latency : Latency) : Client where
  splitRole name := (name, none)
  sorter := stableSorter
  windows := false
  serverlessAvailable := false
  settings := { server := ascii choice }
  subscriptions := [{ id := ascii "1", outbounds := outbounds }]
  latency := latency

/-- A profile and two ordinary servers of one name, of which an ordinary one answered. -/
def mixedClient : Client :=
  clientOf "group:1:NL"
    [{ serverAt "p" "xray-profile" "tcp" "p.example.com" with displayName := ascii "NL" },
      { serverAt "a" "vless" "tcp" "a.example.com" with displayName := ascii "NL" },
      { serverAt "b" "vless" "tcp" "b.example.com" with displayName := ascii "NL" }]
    fun id => if id = ascii "a" then some (some 40) else none

def plainClient : Client :=
  clientOf "auto" [serverAt "a" "vless" "tcp" "a.example.com"] fun _ => none

/-- A core without credentials and engines. -/
def bareCore : Receiver where
  gzip := markedGzip
  toASCII := some
  sessionID := ascii "s"
  vault := ∅
  registry := { linux := true, binaries := [], availability := [] }

end Sora.App
