import Sora.Control.SessionPlan

/-!
# The plan that the app builds

The app keeps the subscriptions that the core sent, the settings of the user and the latencies it
measured.  From the choice of the user it builds a `SessionPlan`: one server, the fastest of them, a
group of servers with one name, a provider's profile, or no server at all.

A function of the source that may throw returns an `Option`, without a value when it throws.  The
regular expression for role words and the order in which Dart sorts equal elements are parameters.
-/

namespace Sora.App

open Sora.Lib Sora.Contract Sora.Control

/-! ## Settings -/

/-- The settings that a plan is built from; a setting that is not stored has its default. -/
structure Settings where
  server : Bytes := ascii "auto"
  preset : Bytes := ascii "global"
  blockAds : Bool := true
  engine : Bytes := []
  fragment : Bool := false
  fragmentPackets : Bytes := []
  fragmentLength : Bytes := []
  fragmentInterval : Bytes := []
  ipv6 : Bool := false
  dns : List Bytes := []
  splitPos : List Bytes := ["1", "midsld"].map ascii
  disorder : Bool := true
  tlsRecord : Bytes := []
  hostCase : Bool := true
  controlPort : Bool := false
  rules : List Bytes := []
  failover : Bool := true
  tunnel : Bytes := ascii "tun"
  mihomoTunStack : Option Bytes := none
  xrayTunStack : Option Bytes := none
  deriving DecidableEq

def tunStacks : List Bytes := ["system", "gvisor", "mixed", "mips"].map ascii

/-- A stored stack, or the default of the platform. -/
def storedStack (stored : Option Bytes) (default : Bytes) : Bytes :=
  match stored with
  | some value => if value ∈ tunStacks then value else default
  | none => default

/-- `tunStack` of a plan, for a choice other than no server. -/
def Settings.tunStack (s : Settings) (windows : Bool) : Bytes :=
  let xray := storedStack s.xrayTunStack (ascii (if windows then "mips" else "gvisor"))
  if s.tunnel ≠ ascii "tun" then []
  else if s.engine = ascii "mihomo" then
    storedStack s.mihomoTunStack (ascii (if windows then "mips" else "mixed"))
  else if s.engine = ascii "xray" ∧ (windows ∨ xray ≠ ascii "gvisor") then xray
  else []

inductive RuleTarget where
  | direct
  | proxy
  | block
  deriving DecidableEq

structure UserRule where
  target : RuleTarget
  destination : Bytes
  deriving DecidableEq

def targetNames : List (Bytes × RuleTarget) :=
  [(ascii "direct", .direct), (ascii "proxy", .proxy), (ascii "block", .block)]

/-- `UserRule.parse`. -/
def UserRule.parse (stored : Bytes) : Option UserRule :=
  let (word, rest) := Url.cut 32 stored
  if 32 ∉ stored ∨ word = [] then none
  else
    (targetNames.find? fun t => t.1 == word).bind fun t =>
      if trimSpace rest = [] then none else some { target := t.2, destination := trimSpace rest }

/-- The routes of the user's rules; those for the proxy go to the plan's target. -/
def Settings.routes (s : Settings) (proxy : Bytes) : List RoutingRule :=
  (s.rules.filterMap UserRule.parse).map fun rule =>
    { destination := rule.destination
      outboundID :=
        match rule.target with
        | .direct => ascii "direct"
        | .block => ascii "reject"
        | .proxy => proxy }

/-- The routes of a plan lead past the proxy or to its target. -/
theorem routes_target {settings : Settings} {target : Bytes} {route : RoutingRule}
    (inside : route ∈ settings.routes target) : route.outboundID = ascii "direct" ∨
      route.outboundID = ascii "reject" ∨ route.outboundID = target := by
  obtain ⟨rule, -, rfl⟩ := List.mem_map.mp inside
  cases rule.target with
  | direct => exact .inl rfl
  | block => exact .inr (.inl rfl)
  | proxy => exact .inr (.inr rfl)

/-! ## Servers and entries -/

/-- `isProfile`. -/
def isProfile (o : PlanOutbound) : Bool := o.protocol == ascii "xray-profile"

structure Subscription where
  id : Bytes
  outbounds : List PlanOutbound
  deriving DecidableEq

/-- `servers`: those of all subscriptions, deduplicated by their id. -/
def servers (subscriptions : List Subscription) : List PlanOutbound :=
  distinctBy (·.id) [] (subscriptions.flatMap (·.outbounds))

inductive Role where
  | main
  | backup
  deriving DecidableEq

/-- `Entry`: a server, or the servers of one name in a subscription. -/
structure Entry where
  id : Bytes
  name : Bytes
  members : List PlanOutbound
  /-- The roles of the members that have one, by their ids. -/
  roles : Bytes → Option Role

def Entry.ordered (e : Entry) : Bool := e.members.any fun o => (e.roles o.id).isSome

/-- `byRole`: the main members, then the others. -/
def Entry.byRole (e : Entry) : List PlanOutbound :=
  (e.members.filter fun o => e.roles o.id == some .main) ++
    e.members.filter fun o => e.roles o.id != some .main

def groupPrefix : Bytes := ascii "group:"

section

variable (splitRole : Bytes → Bytes × Option Role)

/-- The role of an id in a subscription; the last name with a role counts. -/
def roleOf (outbounds : List PlanOutbound) (id : Bytes) : Option Role :=
  ((outbounds.filter fun o => o.id == id).filterMap fun o => (splitRole o.displayName).2).getLast?

/-- `entriesOf`; a name stands where its first server stands. -/
def entriesOf (s : Subscription) : List Entry :=
  let names := s.outbounds.map fun o => (splitRole o.displayName).1
  names.reverse.dedup.reverse.map fun name =>
    match s.outbounds.filter fun o => (splitRole o.displayName).1 == name with
    | [o] => { id := o.id, name := o.displayName, members := [o], roles := fun _ => none }
    | members =>
      { id := groupPrefix ++ s.id ++ ascii ":" ++ name
        name := name
        members := members
        roles := roleOf splitRole s.outbounds }

/-- `entryOf`. -/
def entryOf (choice : Bytes) (subscriptions : List Subscription) : Option Entry :=
  (subscriptions.flatMap (entriesOf splitRole)).find? fun e => e.id == choice

end

/-! ## Latencies -/

/-- What was measured of a server: nothing, no answer, or its milliseconds. -/
abbrev Latency := Bytes → Option (Option Int)

/-- Measured, and without an answer. -/
def Latency.down (latency : Latency) (o : PlanOutbound) : Bool := latency o.id == some none

/-- `_fastest`; it throws for an empty list. -/
def fastest (latency : Latency) (profiles : List PlanOutbound) : Option PlanOutbound :=
  profiles.head?.map fun first =>
    profiles.foldl (fun best o =>
      match (latency o.id).join, (latency best.id).join with
      | some ms, some bestMs => if ms < bestMs then o else best
      | some _, none => o
      | none, _ => best) first

/-- `pickMember`. -/
def pickMember (entry : Entry) (latency : Latency) : Option PlanOutbound :=
  if entry.ordered then
    (entry.byRole.find? fun o => !latency.down o).or entry.byRole.head?
  else
    let up := entry.members.filter fun o => !latency.down o
    fastest latency (if up = [] then entry.members else up)

/-- One of the servers with the least latency, or the first if none is measured. -/
structure Fastest (latency : Latency) (l : List PlanOutbound) (o : PlanOutbound) : Prop where
  inside : o ∈ l
  least : ∀ x ∈ l, ∀ m, (latency x.id).join = some m → ∃ ms ≤ m, (latency o.id).join = some ms
  first : (∀ x ∈ l, (latency x.id).join = none) → l.head? = some o

theorem fastest_spec (latency : Latency) {l : List PlanOutbound} (full : l ≠ []) :
    ∃ o, fastest latency l = some o ∧ Fastest latency l o := by
  have kept : ∀ (rest done : List PlanOutbound) (best : PlanOutbound), Fastest latency done best →
      Fastest latency (done ++ rest) (rest.foldl (fun best o =>
        match (latency o.id).join, (latency best.id).join with
        | some ms, some bestMs => if ms < bestMs then o else best
        | some _, none => o
        | none, _ => best) best) := by
    intro rest
    induction rest with
    | nil => simp
    | cons o rest ih =>
      intro done best fast
      rw [List.append_cons, List.foldl_cons]
      apply ih
      obtain ⟨inside, least, first⟩ := fast
      split
      · split
        · refine ⟨by simp, ?_, ?_⟩ <;> grind
        · refine ⟨by simp [inside], ?_, ?_⟩ <;> grind
      · refine ⟨by simp, ?_, ?_⟩ <;> grind
      · refine ⟨by simp [inside], ?_, ?_⟩ <;> grind
  cases l with
  | nil => exact absurd rfl full
  | cons first rest =>
    have alone : Fastest latency [first] first :=
      ⟨.head _, by simpa using fun m known => ⟨m, le_rfl, known⟩, fun _ => rfl⟩
    obtain ⟨inside, least, head⟩ := kept (first :: rest) [first] first alone
    exact ⟨_, rfl, by simpa using inside, fun x there => least x (.tail _ there), by simpa using head⟩

/-- The member of a group of profiles that is run. -/
inductive Picked (latency : Latency) (e : Entry) (m : PlanOutbound) : Prop
  | down (all : ∀ x ∈ e.members, latency.down x = true)
    (first : (if e.ordered then e.byRole else e.members).head? = some m) : Picked latency e m
  | first {before after : List PlanOutbound} (roles : e.ordered = true)
    (up : latency.down m = false) (split : e.byRole = before ++ m :: after)
    (earlier : ∀ x ∈ before, latency.down x = true) : Picked latency e m
  | fastest (plain : e.ordered = false)
    (fast : Fastest latency (e.members.filter fun x => !latency.down x) m) : Picked latency e m

variable {o : PlanOutbound} {e : Entry}

theorem mem_byRole : o ∈ e.byRole ↔ o ∈ e.members := by
  simp only [Entry.byRole]
  by_cases main : e.roles o.id = some .main <;> simp [main]

theorem pickMember_spec (latency : Latency) (full : e.members ≠ []) :
    ∃ m ∈ e.members, pickMember e latency = some m ∧ Picked latency e m := by
  rw [pickMember]
  split
  · rename_i roles
    cases found : e.byRole.find? fun o => !latency.down o with
    | some m =>
      obtain ⟨up, before, after, split, earlier⟩ := List.find?_eq_some_iff_append.mp found
      exact ⟨m, mem_byRole.mp (List.mem_of_find?_eq_some found), rfl,
        .first roles (by simpa using up) split (by simpa using earlier)⟩
    | none =>
      have down : ∀ x ∈ e.members, latency.down x = true := fun x inside => by
        simpa using List.find?_eq_none.mp found x (mem_byRole.mpr inside)
      obtain ⟨x, inside⟩ := List.exists_mem_of_ne_nil _ full
      cases order : e.byRole with
      | nil =>
        have there := mem_byRole.mpr inside
        rw [order] at there
        cases there
      | cons first rest =>
        exact ⟨first, mem_byRole.mp (by rw [order]; exact .head _), rfl,
          .down down (by rw [if_pos roles, order]; rfl)⟩
  · rename_i plain
    by_cases none : (e.members.filter fun o => !latency.down o) = []
    · have down : ∀ x ∈ e.members, latency.down x = true := by
        simpa using List.filter_eq_nil_iff.mp none
      obtain ⟨m, same, fast⟩ := fastest_spec latency full
      refine ⟨m, fast.inside, by simpa [none] using same, .down down ?_⟩
      rw [if_neg plain]
      refine fast.first fun x inside => ?_
      have unmeasured := down x inside
      rw [Latency.down, beq_iff_eq] at unmeasured
      rw [unmeasured]
      rfl
    · obtain ⟨m, same, fast⟩ := fastest_spec latency none
      exact ⟨m, (List.mem_filter.mp fast.inside).1, by simpa [none] using same,
        .fastest (by simpa using plain) fast⟩

/-- Dart's `List.sort`: some order of the elements that the key does not contradict. -/
structure Sorter where
  sort : (PlanOutbound → Int) → List PlanOutbound → List PlanOutbound
  perm : ∀ key l, (sort key l).Perm l
  sorted : ∀ key l, (sort key l).Pairwise fun a b => key a ≤ key b

/-- A sort that keeps the order of equal elements. -/
def stableSorter : Sorter where
  sort key l := l.mergeSort fun a b => decide (key a ≤ key b)
  perm key l := List.mergeSort_perm l _
  sorted key l := by
    have sorted := @List.pairwise_mergeSort _ (fun a b => decide (key a ≤ key b))
      (fun a b c first second => by
        simp only [decide_eq_true_eq] at first second ⊢
        exact first.trans second)
      (fun a b => by simpa using le_total (key a) (key b)) l
    exact sorted.imp fun ordered => by simpa using ordered

/-! ## Building a plan -/

def autoChoice : Bytes := ascii "auto"

def bypassChoice : Bytes := ascii "bypass"

def autoGroup : Bytes := ascii "sora:auto"

def bypassID : Bytes := ascii "sora:bypass"

def failoverGroup : Bytes := ascii "sora:failover"

def entryGroup : Bytes := ascii "sora:group"

/-- The plan before its outbounds, groups and routes. -/
def Settings.plan (s : Settings) (windows : Bool) (choice : Bytes) : SessionPlan where
  tunnelMode := if s.tunnel = ascii "proxy" then .application else .system
  tunStack := if choice = bypassChoice then [] else s.tunStack windows
  engines := if s.engine = [] then [] else [s.engine]
  networkControlAllowed := s.controlPort
  routing := { preset := s.preset, blockAds := s.blockAds }
  ipv6 := s.ipv6
  dnsServers := s.dns
  antiCensorship :=
    { tlsFragment := s.fragment
      fragmentPackets := s.fragmentPackets
      fragmentLength := s.fragmentLength
      fragmentInterval := s.fragmentInterval }

/-- The plan with its outbounds and groups; everything else goes to `target`. -/
def Settings.carrying (s : Settings) (plan : SessionPlan) (outbounds : List PlanOutbound)
    (groups : List GroupSpec) (target : Bytes) : SessionPlan :=
  { plan with
    outbounds := outbounds
    groups := groups
    routing := { plan.routing with proxyTarget := target }
    routes := s.routes target }

/-- No engine, or the one with fallback groups, is pinned. -/
def Settings.fallsBack (s : Settings) : Bool := s.engine.isEmpty || s.engine == ascii "mihomo"

def Settings.bypassOutbound (s : Settings) : PlanOutbound where
  id := bypassID
  displayName := ascii "zapret"
  protocol := ascii "bypass"
  displayProtocol := []
  transport := []
  security := []
  host := []
  port := 0
  reference := []
  bypass :=
    some
      { splitPos := s.splitPos, disorder := s.disorder, tlsRecord := s.tlsRecord,
        hostCase := s.hostCase }

def Settings.preferred (s : Settings) (entry : Entry) : List PlanOutbound :=
  if entry.ordered then
    if s.fallsBack then entry.byRole
    else entry.members.filter fun o => entry.roles o.id == some .main
  else entry.members

def Settings.groupMembers (s : Settings) (entry : Entry) : List PlanOutbound :=
  if s.preferred entry = [] then entry.members else s.preferred entry

section

variable (sorter : Sorter) (windows : Bool)

/-- The end of `buildPlan`: a profile alone, or the ordinary servers. -/
def buildChoice (servers : List PlanOutbound) (settings : Settings) (latency : Latency)
    (plan : SessionPlan) (choice : Bytes) : Option SessionPlan :=
  let profiles := servers.filter isProfile
  let ordinary := servers.filter fun o => !isProfile o
  let picked := profiles.find? fun o => o.id == choice
  if picked.isSome ∨ choice = autoChoice ∧ ordinary = [] ∧ profiles ≠ [] then
    (picked.or (fastest latency profiles)).map fun profile =>
      settings.carrying plan [profile] [] profile.id
  else if choice = autoChoice then
    some (settings.carrying plan ordinary
      [{ name := autoGroup, type := .urlTest, members := ordinary.map (·.id), toleranceMs := 50 }]
      autoGroup)
  else if settings.failover ∧ 1 < ordinary.length ∧ settings.fallsBack then
    let others := sorter.sort (fun o => (latency o.id).join.getD (2 ^ 30))
      (ordinary.filter fun o => o.id != choice)
    some (settings.carrying plan ordinary
      [{ name := failoverGroup, type := .fallback, members := choice :: others.map (·.id) }]
      failoverGroup)
  else some (settings.carrying plan ordinary [] choice)

/-- `buildPlan`. -/
def buildPlan (servers : List PlanOutbound) (choice : Bytes) (settings : Settings)
    (latency : Latency) (entry : Option Entry) : Option SessionPlan :=
  let plan := settings.plan windows choice
  if choice = bypassChoice then
    some (settings.carrying plan [settings.bypassOutbound] [] bypassID)
  else
    match entry with
    | none => buildChoice sorter servers settings latency plan choice
    | some entry =>
      if entry.members.any isProfile then
        (pickMember entry latency).bind fun member =>
          buildChoice sorter servers settings latency plan member.id
      else
        let fallback := entry.ordered && settings.fallsBack
        some (settings.carrying plan (servers.filter fun o => !isProfile o)
          [{ name := entryGroup
             type := if fallback then .fallback else .urlTest
             members := (settings.groupMembers entry).map (·.id)
             toleranceMs := if fallback then 0 else 50 }]
          entryGroup)

end

def serverAt (id protocol transport host : String) : PlanOutbound where
  id := ascii id
  displayName := ascii id
  protocol := ascii protocol
  displayProtocol := []
  transport := ascii transport
  security := ascii "tls"
  host := ascii host
  port := 443
  reference := []

/-- A group of one profile. -/
def profileEntry : Entry where
  id := ascii "group:1:NL"
  name := ascii "NL"
  members := [serverAt "p" "xray-profile" "tcp" "p.example.com"]
  roles _ := none

end Sora.App
