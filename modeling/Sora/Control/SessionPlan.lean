import Sora.Contract.Catalog
import Sora.Contract.Groups
import Sora.Control.Credential

/-!
# Session plans on the wire

A client sends a `SessionPlan`; `planFromProto` checks it and makes the engine-independent plan of
it, with the credentials of its outbounds filled in.  The registry then looks for an engine that
carries the whole plan.  Both look at every outbound: `accepts_iff` says what each of them has to
satisfy.

Go's IDNA package is a parameter, a function that may refuse a name.
-/

namespace Sora.Control

open Sora.Lib Sora.Contract List

/-! ## Messages -/

inductive TunnelMode where
  | unspecified
  | system
  | application
  deriving DecidableEq

/-- The group types of the contract. -/
inductive GroupKind where
  | unspecified
  | select
  | urlTest
  | fallback
  | loadBalance
  deriving DecidableEq

/-- An outbound of a plan; the servers that the core lists have no bypass strategy. -/
structure PlanOutbound extends OutboundSpec where
  bypass : Option BypassStrategy := none
  deriving DecidableEq

structure GroupSpec where
  name : Bytes
  type : GroupKind
  members : List Bytes
  testURL : Bytes := []
  /-- In nanoseconds. -/
  testInterval : Option Int := none
  toleranceMs : Nat := 0
  deriving DecidableEq

structure RoutingRule where
  destination : Bytes
  outboundID : Bytes
  deriving DecidableEq

structure RoutingOptions where
  preset : Bytes := []
  proxyTarget : Bytes := []
  blockAds : Bool := false
  deriving DecidableEq

structure AntiCensorship where
  tlsFragment : Bool := false
  fragmentPackets : Bytes := []
  fragmentLength : Bytes := []
  fragmentInterval : Bytes := []
  deriving DecidableEq

structure SessionPlan where
  tunnelMode : TunnelMode := .unspecified
  tunStack : Bytes := []
  engines : List Bytes := []
  networkControlAllowed : Bool := false
  localProxy : LocalProxy := {}
  outbounds : List PlanOutbound := []
  groups : List GroupSpec := []
  routes : List RoutingRule := []
  routing : RoutingOptions := {}
  dnsServers : List Bytes := []
  bypassRules : List Bytes := []
  antiCensorship : AntiCensorship := {}
  ipv6 : Bool := false
  deriving DecidableEq

/-! ## Groups -/

/-- `isBuiltInTarget` of the control package; the plan's checks have another list. -/
def isBuiltInTarget (t : Bytes) : Bool := decide (t ∈ ["direct", "block", "reject"].map ascii)

def groupTypes : GroupKind → Option GroupType
  | .unspecified => none
  | .select => some .select
  | .urlTest => some .urlTest
  | .fallback => some .fallback
  | .loadBalance => some .loadBalance

/-- The seconds between two tests, from a minute to a day. -/
def testSeconds (interval : Int) : Int :=
  min (max interval (60 * 10 ^ 9)) (24 * 3600 * 10 ^ 9) / 10 ^ 9

/-- One group of `groupsFromProto`. -/
def groupFromProto (spec : GroupSpec) : Option Group :=
  if trimSpace spec.name = [] then none
  else
    (groupTypes spec.type).map fun kind =>
      { name := trimSpace spec.name
        type := kind
        outbounds := spec.members
        url := spec.testURL
        interval := (spec.testInterval.map testSeconds).getD 0 }

/-- `groupsFromProto`; `outbounds` are the ids of the plan. -/
def groupsFromProto (specs : List GroupSpec) (outbounds : List Bytes) : Option (List Group) :=
  if maxGroups < specs.length then none
  else
    (specs.mapM groupFromProto).bind fun groups =>
      let names := groups.map (·.name)
      if names.Nodup ∧ (∀ name ∈ names, name ∉ outbounds) ∧
          ∀ g ∈ groups, ∀ m ∈ g.outbounds, m ∈ outbounds ∨ m ∈ names ∨ isBuiltInTarget m then
        some groups
      else none

/-! ## Rules -/

def rulePrefixes : List (Bytes × RuleType) :=
  [(ascii "geosite:", .geoSite), (ascii "geoip:", .geoIP), (ascii "ruleset:", .ruleSet),
    (ascii "domain:", .domainSuffix), (ascii "full:", .domain), (ascii "process:", .process)]

/-- `ruleTypeOf`. -/
def ruleTypeOf (destination : Bytes) : RuleType :=
  match rulePrefixes.find? fun p => p.1.isPrefixOf destination with
  | some p => p.2
  | none => if 47 ∈ destination then .ipCIDR else if 58 ∈ destination then .port else .domainKeyword

/-- `ruleValue`. -/
def ruleValue (kind : RuleType) (destination : Bytes) : Bytes :=
  match rulePrefixes.find? fun p => p.2 == kind with
  | some p => if p.1.isPrefixOf destination then destination.drop p.1.length else destination
  | none => destination

/-- `ruleFromProto`; `toASCII` is that of the IDNA package. -/
def ruleFromProto (toASCII : Bytes → Option Bytes) (route : RoutingRule) : Option Rule :=
  let destination := trimSpace route.destination
  let target := trimSpace route.outboundID
  if destination = [] ∨ target = [] then none
  else
    let kind := ruleTypeOf destination
    let value := ruleValue kind destination
    (if kind = .domain ∨ kind = .domainSuffix then toASCII value else some value).map fun value =>
      { type := kind, value := value, target := target }

/-! ## Presets -/

def geoip (cc : String) : Rule :=
  { type := .geoIP, value := ascii cc, target := ascii "direct", noResolve := true }

def geosite (tag : String) : Rule :=
  { type := .geoSite, value := ascii tag, target := ascii "direct" }

def presets : List (Bytes × List Rule) :=
  [(ascii "global", [geoip "private"]),
    (ascii "ru",
      [geoip "private", geosite "category-gov-ru", geosite "category-bank-ru", geosite "category-ru",
        geosite "tld-ru", geosite "yandex", geosite "vk", geosite "mailru", geoip "ru"]),
    (ascii "ir", [geoip "private", geosite "category-ir", geoip "ir"]),
    (ascii "cn", [geoip "private", geosite "cn", geoip "cn"])]

def adsRule : Rule :=
  { type := .geoSite, value := ascii "category-ads-all", target := ascii "reject" }

/-- The rules of a preset; no preset has none. -/
def presetRules (preset : Bytes) : Option (List Rule) :=
  if preset = [] then some [] else (presets.find? fun p => p.1 == preset).map (·.2)

/-- `routing.Apply`. -/
def applyRouting (user : List Rule) (opts : RoutingOptions) : Option (List Rule) :=
  if user.any fun r => r.type == .matchAll then some user
  else if opts.preset = [] ∧ opts.blockAds = false ∧ opts.proxyTarget = [] then some user
  else if opts.proxyTarget = [] then none
  else
    (presetRules opts.preset).map fun direct =>
      user ++ (if opts.blockAds then [adsRule] else []) ++ direct ++
        [{ type := .matchAll, target := opts.proxyTarget }]

/-! ## Resolvers -/

def dnsPrefixes : List (Bytes × DNSTransport) :=
  [(ascii "https://", .https), (ascii "h3://", .https), (ascii "tls://", .tls),
    (ascii "tcp://", .tcp), (ascii "quic://", .quic)]

/-- `splitDNSServer`: the host, the port and the transport. -/
def splitDNSServer (address : Bytes) : Bytes × Nat × DNSTransport :=
  let rest := trimSpace address
  let found := dnsPrefixes.find? fun p => p.1.isPrefixOf (Url.toLower rest)
  let transport := (found.map (·.2)).getD .plain
  let rest := rest.drop ((found.map fun p => p.1.length).getD 0)
  let path := ascii "/dns-query"
  let rest := if path.isSuffixOf rest then rest.take (rest.length - path.length) else rest
  let (head, tail) := Url.cut 58 rest
  if 58 ∈ rest ∧ Json.isDigits tail ∧ numValue 10 tail < 2 ^ 16 then
    (head, numValue 10 tail, transport)
  else (rest, 0, transport)

def defaultTunResolvers : List Bytes :=
  ["https://1.1.1.1/dns-query", "https://8.8.8.8/dns-query"].map ascii

/-- `dnsFromProto`; resolvers beyond the limit are dropped. -/
def dnsFromProto (servers : List Bytes) (tun : Bool) : DNS :=
  let servers := if servers = [] ∧ tun then defaultTunResolvers else servers
  if servers = [] then {}
  else
    { enabled := true
      mode := ascii "rule"
      servers := (servers.take maxDNSServers).mapIdx fun index address =>
        let (host, port, transport) := splitDNSServer address
        { tag := ascii "dns-" ++ numeral 10 index, transport := transport, address := host,
          port := port } }

/-- `checkDNS`. -/
def checkDNS (dns : DNS) : Bool := dns.servers.all fun s => !s.address.isEmpty

/-- `checkBypass`. -/
def checkBypass (entry : Bytes) : Bool :=
  !(trimSpace entry).isEmpty && (trimSpace entry).all fun c => !decide (c ∈ ascii " \t\r\n")

/-! ## The plan -/

def testURLProduction : Bytes := ascii "https://www.gstatic.com/generate_204"

def tunDevice : Bytes := ascii "sora0"

section

variable (gzip : Gzip) (toASCII : Bytes → Option Bytes)

/-- `outboundFromProto`, the strategy included. -/
def PlanOutbound.fromProto (o : PlanOutbound) (vault : Entries) : Option Outbound :=
  (outboundFromProto gzip o.toOutboundSpec vault).map fun x => { x with bypass := o.bypass }

/-- The checks of `planFromProto` that read neither outbounds nor rules one by one. -/
def SessionPlan.framed (m : SessionPlan) : Bool :=
  decide (m.outbounds ≠ []) && decide (m.outbounds.length ≤ maxOutbounds) &&
    decide (m.routes.length ≤ maxRules) && (m.tunStack.isEmpty || m.tunnelMode == .system) &&
    (m.tunnelMode == .system || m.localProxy.username.isEmpty) &&
    (m.localProxy.username.isEmpty == m.localProxy.password.isEmpty) &&
    m.tunnelMode != .unspecified && checkDNS (dnsFromProto m.dnsServers (m.tunnelMode == .system)) &&
    m.bypassRules.all checkBypass

/-- The plan of a message from its outbounds, groups and rules. -/
def SessionPlan.assembled (m : SessionPlan) (sessionID : Bytes) (outbounds : List Outbound)
    (groups : List Group) (rules : List Rule) : Plan :=
  let tun := m.tunnelMode == .system
  { sessionID := sessionID
    privateControl := !m.networkControlAllowed
    localProxy := { m.localProxy with enabled := m.localProxy.enabled || !tun }
    outbounds := outbounds
    groups := groups
    rules := rules
    dns := dnsFromProto m.dnsServers tun
    tun := { enabled := tun, stack := m.tunStack, deviceName := tunDevice }
    options :=
      { mode := ascii "rule", logLevel := ascii "debug", testURL := testURLProduction,
        fragment := m.antiCensorship.tlsFragment } }

/-- The rules of a plan whose outbounds and groups are `seen`. -/
def SessionPlan.rules (m : SessionPlan) (seen : List Bytes) : Option (List Rule) :=
  (m.routes.mapM (ruleFromProto toASCII)).bind fun rules =>
    if (∀ r ∈ rules, r.target ∈ seen ∨ isBuiltInTarget r.target) ∧
        (m.routing.proxyTarget = [] ∨ m.routing.proxyTarget ∈ seen) then
      applyRouting rules m.routing
    else none

/-- `planFromProto`.  The source makes its checks one after another and returns the first error;
which plans pass does not depend on their order. -/
def planFromProto (m : SessionPlan) (sessionID : Bytes) (vault : Entries) : Option Plan := do
  let outbounds ← m.outbounds.mapM fun o => o.fromProto gzip vault
  let ids := outbounds.map (·.id)
  let groups ← groupsFromProto m.groups ids
  let rules ← m.rules toASCII (ids ++ groups.map (·.name))
  let plan := m.assembled sessionID outbounds groups rules
  if m.framed ∧ ids.Nodup ∧ plan.valid then some plan else none

end

/-! ## The registry -/

def drivers : List EngineKind := [.mihomo, .singBox, .xray]

/-- `engine.Kind` of a name. -/
def kindOf (name : Bytes) : EngineKind :=
  (drivers.find? fun kind => kind.name == name).getD (.other name)

structure Registry where
  linux : Bool
  /-- The engines that are installed. -/
  binaries : List Availability
  /-- What is known of them. -/
  availability : List Availability
  preference : List EngineKind := [.singBox, .xray, .mihomo]
  /-- zapret's `tpws` is installed. -/
  tpws : Bool := false

def privatePreference : List EngineKind := [.singBox, .mihomo, .xray]

/-- `Registry.order`. -/
def Registry.order (r : Registry) (requested : List EngineKind) : Option (List EngineKind) :=
  if r.preference.length = 1 ∨ requested = [] then some r.preference
  else if ∀ kind ∈ requested, kind ∈ drivers then some requested
  else none

/-- One outbound of `bypass.Rewrite`, before the port is known. -/
def rewriteOutbound (o : Outbound) : Outbound :=
  if o.protocol = .bypass then
    { id := o.id, name := o.name, protocol := .socks5, server := ascii "127.0.0.1", port := 1 }
  else o

/-- `bypass.Rewrite`. -/
def rewrite (p : Plan) : Plan := { p with outbounds := p.outbounds.map rewriteOutbound }

/-- The engine that the registry's factory picks, and whether Xray gets the bridge. -/
def Registry.pick (r : Registry) (engines : List EngineKind) (p : Plan) :
    Option (EngineKind × Bool) :=
  (r.order engines).bind fun order =>
    let order := if engines = [] ∧ p.privateControl then privatePreference else order
    if (p.outbounds.any fun o => o.protocol == .bypass) && !r.tpws then none
    else
      let selection := selectPlan r.linux r.binaries r.availability (rewrite p) order
      selection.kind.map fun kind => (kind, selection.bridge)

/-- What the core decides with: its session's id, its credentials and its engines. -/
structure Receiver where
  gzip : Gzip
  toASCII : Bytes → Option Bytes
  sessionID : Bytes
  vault : Entries
  registry : Registry

/-- `planFromProto` of the core. -/
def Receiver.read (core : Receiver) (m : SessionPlan) : Option Plan :=
  planFromProto core.gzip core.toASCII m core.sessionID core.vault

def Receiver.outcome (core : Receiver) (m : SessionPlan) : Option (EngineKind × Bool) :=
  (core.read m).bind (core.registry.pick (m.engines.map kindOf))

/-! ## What a plan that is accepted consists of -/

variable {m : SessionPlan} {toASCII : Bytes → Option Bytes} {seen : List Bytes}

section

variable {gzip : Gzip} {vault : Entries}

/-- An outbound that was read has the trimmed id and the protocol of its message. -/
theorem PlanOutbound.fromProto_some {o : PlanOutbound} {x : Outbound}
    (read : o.fromProto gzip vault = some x) :
    x.id = trimSpace o.id ∧ x.protocol = .ofName o.protocol ∧ trimSpace o.id ≠ [] := by
  obtain ⟨y, made, rfl⟩ := Option.map_eq_some_iff.mp read
  rw [outboundFromProto] at made
  split at made
  · cases made
  · rename_i named
    have nonblank : trimSpace o.id ≠ [] := fun blank => named (.inl blank)
    split at made
    · cases made
      exact ⟨rfl, rfl, nonblank⟩
    · obtain ⟨material, _, filled⟩ := Option.bind_eq_some_iff.mp made
      obtain ⟨-, ⟨id, -, protocol, -⟩, -⟩ := applyCredential_some filled
      exact ⟨id, protocol, nonblank⟩

theorem ids_of_read {core : Receiver} {carried : List PlanOutbound} {outbounds : List Outbound}
    (read : (carried.mapM fun o => o.fromProto core.gzip core.vault) = some outbounds) :
    outbounds.map (·.id) = carried.map fun o => trimSpace o.id :=
  map_of_mapM read fun _ _ same => (PlanOutbound.fromProto_some same).1

theorem planFromProto_eq_some {sessionID : Bytes} {p : Plan} :
    planFromProto gzip toASCII m sessionID vault = some p ↔ ∃ outbounds groups rules,
      (m.outbounds.mapM fun o => o.fromProto gzip vault) = some outbounds ∧
      groupsFromProto m.groups (outbounds.map (·.id)) = some groups ∧
      m.rules toASCII (outbounds.map (·.id) ++ groups.map (·.name)) = some rules ∧
      m.framed = true ∧ (outbounds.map (·.id)).Nodup ∧
      (m.assembled sessionID outbounds groups rules).valid = true ∧
      m.assembled sessionID outbounds groups rules = p := by
  simp [planFromProto, Option.bind_eq_some_iff, and_assoc]

end

/-! ## Where the rules of a plan lead -/

/-- What the routing options say of the connections that the user's rules leave: the ad block, then the
direct rules of the preset, then the proxy target. -/
def additions (opts : RoutingOptions) : List Rule :=
  (if opts.blockAds then [adsRule] else []) ++ (presetRules opts.preset).getD [] ++
    if opts.proxyTarget = [] then [] else [{ type := .matchAll, target := opts.proxyTarget }]

section

variable {user rules : List Rule} {opts : RoutingOptions} {r : Rule}

theorem mem_additions (inside : r ∈ additions opts) : r = adsRule ∨ (∃ p ∈ presets, r ∈ p.2) ∨
    r = { type := .matchAll, target := opts.proxyTarget } := by
  simp only [additions, mem_append] at inside
  rcases inside with (ads | preset) | target
  · split at ads
    · exact .inl (mem_singleton.mp ads)
    · cases ads
  · rw [presetRules] at preset
    split at preset
    · cases preset
    · cases found : presets.find? fun p => p.1 == opts.preset with
      | none => rw [found] at preset; cases preset
      | some p =>
        rw [found] at preset
        exact .inr (.inl ⟨p, mem_of_find?_eq_some found, preset⟩)
  · split at target
    · cases target
    · exact .inr (.inr (mem_singleton.mp target))

theorem applyRouting_cases (made : applyRouting user opts = some rules) :
    (user.any (·.type == .matchAll) = true ∧ rules = user) ∨
      user.any (·.type == .matchAll) = false ∧ rules = user ++ additions opts := by
  rw [applyRouting] at made
  split at made
  · rename_i all
    exact .inl ⟨all, (Option.some.inj made).symm⟩
  · rename_i open_
    refine .inr ⟨Bool.eq_false_of_not_eq_true open_, ?_⟩
    split at made
    · rename_i bare
      cases made
      simp [additions, bare, presetRules]
    · split at made
      · cases made
      · rename_i target
        obtain ⟨direct, known, rfl⟩ := Option.map_eq_some_iff.mp made
        simp [additions, known, target]

/-- The rules that routing adds go past the proxy or to its target. -/
theorem applyRouting_target (made : applyRouting user opts = some rules) : ∀ r ∈ rules, r ∈ user ∨
    r.target = ascii "direct" ∨ r.target = ascii "reject" ∨ r.target = opts.proxyTarget := by
  have direct : ∀ p ∈ presets, ∀ r ∈ p.2, r.target = ascii "direct" := by decide
  intro r inside
  rcases applyRouting_cases made with ⟨-, rfl⟩ | ⟨-, rfl⟩
  · exact .inl inside
  · rcases mem_append.mp inside with own | added
    · exact .inl own
    · rcases mem_additions added with rfl | ⟨p, known, inside⟩ | rfl
      · exact .inr (.inr (.inl rfl))
      · exact .inr (.inl (direct p known r inside))
      · exact .inr (.inr (.inr rfl))

/-- Where the first rule that a connection meets leads it. -/
def verdict {Conn : Type} (meets : Rule → Conn → Bool) (rules : List Rule) (c : Conn) : Option Bytes :=
  (rules.find? (meets · c)).map (·.target)

/-- The user's rules decide first and the additions after them, and the rules are not too many, exactly
if one of the user's rules takes every connection or the additions fit within the limit too. -/
theorem additions_fit_iff {Conn : Type} {meets : Rule → Conn → Bool}
    (total : ∀ r c, r.type = .matchAll → meets r c = true) (within : user.length ≤ maxRules)
    (made : applyRouting user opts = some rules) :
    ((∀ c, verdict meets rules c = (verdict meets user c).or (verdict meets (additions opts) c)) ∧
        rules.length ≤ maxRules) ↔
      user.any (·.type == .matchAll) = true ∨ user.length + (additions opts).length ≤ maxRules := by
  rcases applyRouting_cases made with ⟨all, rfl⟩ | ⟨none, rfl⟩
  · refine iff_of_true ⟨fun c => ?_, within⟩ (.inl all)
    obtain ⟨r, inside, kind⟩ := any_eq_true.mp all
    have found : (rules.find? (meets · c)).isSome :=
      find?_isSome.mpr ⟨r, inside, total r c (eq_of_beq kind)⟩
    obtain ⟨first, same⟩ := Option.isSome_iff_exists.mp found
    rw [verdict, same]
    rfl
  · rw [none, length_append]
    refine ⟨fun both => .inr both.2, fun fits => ⟨fun c => ?_, ?_⟩⟩
    · rw [verdict, find?_append, Option.map_or]
      rfl
    · simpa using fits

def globalPreset : RoutingOptions := { preset := ascii "global", proxyTarget := ascii "node" }

/-- A list at the limit has no room for a preset. -/
theorem full_list_overflows : ∃ user rules, user.length ≤ maxRules ∧
    applyRouting user globalPreset = some rules ∧ maxRules < rules.length := by
  have none : (replicate maxRules (geosite "cn")).any (·.type == .matchAll) = false := by
    rw [any_replicate]
    decide
  have some : (applyRouting (replicate maxRules (geosite "cn")) globalPreset).isSome := by
    rw [applyRouting, none]
    rfl
  obtain ⟨rules, made⟩ := Option.isSome_iff_exists.mp some
  refine ⟨_, rules, length_replicate.le, made, ?_⟩
  rcases applyRouting_cases made with ⟨all, -⟩ | ⟨-, rfl⟩
  · cases none.symm.trans all
  · rw [length_append, length_replicate]
    exact Nat.lt_add_of_pos_right (by decide)

theorem short_list_fits : ∃ rules, applyRouting [geosite "cn"] globalPreset = some rules ∧
    rules.length ≤ maxRules := by
  have made : applyRouting [geosite "cn"] globalPreset =
      some ([geosite "cn"] ++ additions globalPreset) := rfl
  exact ⟨_, made, ((additions_fit_iff (fun _ (_ : Unit) _ => rfl) (by decide) made).mpr
    (.inr (by decide))).2⟩

end

theorem ruleFromProto_target {route : RoutingRule} {r : Rule}
    (made : ruleFromProto toASCII route = some r) : r.target = trimSpace route.outboundID := by
  simp only [ruleFromProto] at made
  split at made
  · cases made
  · obtain ⟨value, _, rfl⟩ := Option.map_eq_some_iff.mp made
    rfl

/-- The rules of a plan when its targets are known: `seen` plays no further part. -/
theorem SessionPlan.rules_eq_some {rules : List Rule} : m.rules toASCII seen = some rules ↔
      ∃ user, m.routes.mapM (ruleFromProto toASCII) = some user ∧
        applyRouting user m.routing = some rules ∧
        (∀ r ∈ user, r.target ∈ seen ∨ isBuiltInTarget r.target = true) ∧
        (m.routing.proxyTarget = [] ∨ m.routing.proxyTarget ∈ seen) := by
  rw [SessionPlan.rules, Option.bind_eq_some_iff]
  apply exists_congr
  intro user
  apply and_congr_right
  intro _
  split
  · rename_i resolved
    exact ⟨fun made => ⟨made, resolved⟩, fun made => made.1⟩
  · rename_i unresolved
    exact ⟨nofun, fun made => absurd made.2 unresolved⟩

/-- A rule of the plan leads where a route leads, past the proxy, or to its target. -/
theorem SessionPlan.rules_target {rules : List Rule} (made : m.rules toASCII seen = some rules) :
    ∀ r ∈ rules, (∃ route ∈ m.routes, r.target = trimSpace route.outboundID) ∨
      r.target = ascii "direct" ∨ r.target = ascii "reject" ∨
      r.target = m.routing.proxyTarget := by
  obtain ⟨user, read, applied, -, -⟩ := rules_eq_some.mp made
  intro r inside
  rcases applyRouting_target applied r inside with own | rest
  · obtain ⟨route, there, same⟩ := mem_of_mapM read own
    exact .inl ⟨route, there, ruleFromProto_target same⟩
  · exact .inr rest

/-! ## The engine that is picked -/

/-- The engine carries the outbound, or zapret does in front of it. -/
def Registry.suits (r : Registry) (kind : EngineKind) (o : Outbound) : Bool :=
  (o.protocol != .bypass || r.tpws) &&
    engineCarries r.linux r.availability kind (rewriteOutbound o)

/-- The kinds that the factory tries. -/
def Registry.tried (r : Registry) (engines : List EngineKind) (p : Plan) : List EngineKind :=
  if engines = [] ∧ p.privateControl then privatePreference else (r.order engines).getD []

/-- An engine suits every outbound and the rest of the plan. -/
def Registry.carries (r : Registry) (p : Plan) (kind : EngineKind) : Bool :=
  accepts r.linux r.binaries r.availability p.bare kind && p.outbounds.all (r.suits kind)

/-- The factory picks the first engine that it tries and that carries the plan. -/
theorem Registry.pick_eq (r : Registry) (engines : List EngineKind) (p : Plan) :
    r.pick engines p = (r.order engines).bind fun _ =>
      ((r.tried engines p).find? (r.carries p)).map fun kind =>
        (kind, needsBridge r.linux p kind) := by
  rw [Registry.pick, Registry.tried]
  cases r.order engines with
  | none => rfl
  | some order =>
    cases missing : (p.outbounds.any fun o => o.protocol == .bypass) && !r.tpws with
    | true =>
      -- no engine suits an outbound that zapret would have to carry
      rw [Bool.and_eq_true, any_eq_true] at missing
      obtain ⟨⟨o, inside, bypass⟩, absent⟩ := missing
      have refused (kind : EngineKind) : r.carries p kind = false := by
        have unsuited : r.suits kind o = false := by
          rw [Registry.suits, show (o.protocol != .bypass) = false by simpa using bypass,
            show r.tpws = false by simpa using absent]
          rfl
        rw [Registry.carries, all_eq_false.mpr ⟨o, inside, by rw [unsuited]; simp⟩,
          Bool.and_false]
      rw [find?_eq_none.mpr fun kind _ => by rw [refused]; simp]
      rfl
    | false =>
      have same : accepts r.linux r.binaries r.availability (rewrite p) = r.carries p := by
        funext kind
        rw [Bool.eq_iff_iff, accepts_iff, Registry.carries, Bool.and_eq_true, all_eq_true]
        apply and_congr_right
        intro _
        rw [show (rewrite p).outbounds = p.outbounds.map rewriteOutbound from rfl, forall_mem_map]
        apply forall₂_congr
        intro o inside
        have served : (o.protocol != .bypass || r.tpws) = true := by
          rcases Bool.and_eq_false_iff.mp missing with unused | there
          · have other : o.protocol ≠ .bypass := by simpa using any_eq_false.mp unused o inside
            simp [other]
          · have present : r.tpws = true := by simpa using there
            rw [present, Bool.or_true]
        rw [Registry.suits, served, Bool.true_and]
      have outcome := selectPlan_outcome r.linux r.binaries r.availability (rewrite p)
        (if engines = [] ∧ p.privateControl then privatePreference else order)
      rw [same] at outcome
      exact outcome

/-- `Rewrite` leaves a valid plan valid, without an outbound of zapret's. -/
theorem rewrite_valid {p : Plan} (valid : p.valid = true) :
    (rewrite p).valid = true ∧ ∀ o ∈ (rewrite p).outbounds, o.protocol ≠ .bypass := by
  have each (o : Outbound) : let r := rewriteOutbound o
      r.id = o.id ∧ (o.valid = true → r.valid = true) ∧ r.protocol ≠ .bypass ∧
        (r.protocol = .xrayProfile → o.protocol = .xrayProfile) := by
    unfold rewriteOutbound
    split
    · refine ⟨rfl, fun good => ?_, by simp⟩
      simp only [Outbound.valid, Bool.and_eq_true] at good ⊢
      simp [good]
      decide
    · exact ⟨rfl, id, ‹_›, id⟩
  have ids : (p.outbounds.map rewriteOutbound).map (·.id) = p.outbounds.map (·.id) := by
    rw [map_map]
    exact map_congr_left fun o _ => (each o).1
  rw [Contract.valid_iff] at valid ⊢
  simp only [rewrite, Plan.validGroup, ids, forall_mem_map, length_map, ne_eq, map_eq_nil_iff]
  obtain ⟨frame, ⟨some, size, good, nodup⟩, alone, rest⟩ := valid
  refine ⟨⟨frame, ⟨some, size, fun o inside => (each o).2.1 (good o inside), nodup⟩, ?_, rest⟩,
    fun o _ => (each o).2.2.1⟩
  rintro ⟨_, there, profile⟩
  obtain ⟨o, inside, rfl⟩ := mem_map.mp there
  exact alone ⟨o, inside, (each o).2.2.2 profile⟩

theorem rewrite_valid_zapret : (rewrite { sessionID := [49], outbounds :=
    [{ id := [49], protocol := .bypass, bypass := some { hostCase := true } }] }).valid = true :=
  (rewrite_valid (by decide)).1

end Sora.Control
