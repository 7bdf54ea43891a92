import Sora.Contract.Plan

/-!
# Capabilities of the engines

The capability tables of `catalog.go`, what a plan requires of an engine and how an engine is chosen:
`Missing`, `SelectEngine` and the registry's `selectPlan` with its bridge for Xray.  Where the core
runs decides whether Xray may have a TUN adapter of its own.
-/

namespace Sora.Contract

open Sora.Lib List

inductive EngineKind where
  | mihomo
  | singBox
  | xray
  | other (name : Bytes)
  deriving DecidableEq

def EngineKind.name : EngineKind → Bytes
  | .mihomo => ascii "mihomo"
  | .singBox => ascii "sing-box"
  | .xray => ascii "xray"
  | .other name => name

inductive Feature where
  | tun
  | fakeIP
  | ruleSets
  | proxyProviders
  | urlTest
  | latencyTest
  | hotApply
  | geoData
  | perAppRouting
  | fallbackGroup
  | loadBalance
  | tlsFragment
  | xhttp
  | vlessEncrypt
  | amneziaWG
  | privateControl
  deriving DecidableEq

structure Version where
  major : Int := 0
  minor : Int := 0
  patch : Int := 0
  preRelease : Bytes := []
  raw : Bytes := []
  deriving DecidableEq

/-- `Less`; pre-releases do not count. -/
def Version.less (v w : Version) : Bool :=
  if v.major ≠ w.major then v.major < w.major
  else if v.minor ≠ w.minor then v.minor < w.minor
  else v.patch < w.patch

structure Availability where
  kind : EngineKind
  version : Version := {}
  usable : Bool := false
  reason : Bytes := []
  buildTags : List Bytes := []
  deriving DecidableEq

structure Capabilities where
  kind : EngineKind
  minVersion : Version
  protocols : List Protocol
  features : List Feature
  deriving DecidableEq

/-- What every engine carries. -/
def commonProtocols : List Protocol :=
  [.vless, .vmess, .trojan, .shadowsocks, .hysteria2, .wireGuard, .socks5, .http, .direct]

/-- `Catalog`; only on Linux the core installs routes for Xray's own adapter. -/
def catalog (linux : Bool) : EngineKind → Option Capabilities
  | .mihomo =>
    some
      { kind := .mihomo
        minVersion := { major := 1, minor := 19, raw := ascii "1.19.0" }
        protocols := .tuic :: commonProtocols
        features :=
          [.tun, .fakeIP, .ruleSets, .proxyProviders, .urlTest, .latencyTest, .hotApply, .geoData,
            .fallbackGroup, .loadBalance, .xhttp, .vlessEncrypt, .amneziaWG, .privateControl] }
  | .singBox =>
    some
      { kind := .singBox
        minVersion := { major := 1, minor := 12, raw := ascii "1.12.0" }
        protocols := .tuic :: .anyTLS :: commonProtocols
        features :=
          [.tun, .fakeIP, .ruleSets, .urlTest, .latencyTest, .geoData, .perAppRouting, .tlsFragment] }
  | .xray =>
    some
      { kind := .xray
        minVersion := { major := 26, minor := 3, patch := 27, raw := ascii "26.3.27" }
        protocols := .xrayProfile :: commonProtocols
        features :=
          (if linux then [.tun] else []) ++
            [.urlTest, .loadBalance, .latencyTest, .geoData, .tlsFragment, .xhttp, .vlessEncrypt,
              .privateControl] }
  | .other _ => none

/-- `BuildCapabilities`, for an engine of the catalog. -/
def Capabilities.build (caps : Capabilities) (version : Version) (tags : List Bytes) :
    Capabilities :=
  if caps.kind = .singBox ∧ (ascii "lx.").isPrefixOf version.preRelease ∧
      !version.less { major := 1, minor := 14, patch := 3 } then
    { caps with
      features := caps.features ++ (if ascii "with_xhttp" ∈ tags then [.xhttp] else []) ++
        [.vlessEncrypt] ++ (if ascii "with_awg" ∈ tags then [.amneziaWG] else []) }
  else caps

/-! ## What a plan asks for -/

/-- `RequiredFeatures`. -/
def Plan.requires (p : Plan) : Feature → Bool
  | .tun => p.tun.enabled
  | .fakeIP => p.dns.mode == ascii "fakeip"
  | .ruleSets => p.rules.any fun r => r.type == .ruleSet
  | .proxyProviders => p.groups.any fun g => !g.provider.isEmpty
  | .urlTest => p.groups.any fun g => g.type == .urlTest
  | .fallbackGroup => p.groups.any fun g => g.type == .fallback
  | .loadBalance => p.groups.any fun g => g.type == .loadBalance
  | .xhttp => p.outbounds.any fun o => o.transport.type == ascii "xhttp"
  | .vlessEncrypt =>
    p.outbounds.any fun o => !o.encryption.isEmpty && o.encryption != ascii "none"
  | .amneziaWG => p.outbounds.any fun o => o.amnezia.isSome
  | .tlsFragment => p.options.fragment
  | .privateControl => p.privateControl
  | .perAppRouting => !p.tun.includeApps.isEmpty || !p.tun.excludeApps.isEmpty
  | .latencyTest | .hotApply | .geoData => false

def allFeatures : List Feature :=
  [.tun, .fakeIP, .ruleSets, .proxyProviders, .urlTest, .latencyTest, .hotApply, .geoData,
    .perAppRouting, .fallbackGroup, .loadBalance, .tlsFragment, .xhttp, .vlessEncrypt, .amneziaWG,
    .privateControl]

/-- What an engine lacks for a plan. -/
inductive Lack where
  | tunStack (stack : Bytes)
  | insecureTLS
  | amneziaParameters
  | protocol (p : Protocol)
  | feature (f : Feature)
  deriving DecidableEq

/-- An outbound whose certificate Xray would have to leave unchecked. -/
def Outbound.unchecked (o : Outbound) : Bool :=
  o.tls.insecure && !o.tls.reality &&
    (o.tls.enabled || o.protocol == .trojan || o.protocol == .hysteria2)

/-- An outbound with the parameters that sing-box does not have. -/
def Outbound.extraAmnezia (o : Outbound) : Bool :=
  o.amnezia.any fun a => !a.j1.isEmpty || !a.j2.isEmpty || !a.j3.isEmpty || a.itime != 0

/-- `Missing`; the texts of the source are sorted. -/
def Capabilities.missing (c : Capabilities) (p : Plan) : List Lack :=
  (if p.tun.enabled ∧ p.tun.stack ≠ [] ∧ (c.kind = .xray ∧ p.tun.stack ≠ ascii "gvisor" ∨
      c.kind = .singBox ∧ p.tun.stack = ascii "mips") then [.tunStack p.tun.stack] else []) ++
    (if c.kind = .xray ∧ p.outbounds.any Outbound.unchecked then [.insecureTLS] else []) ++
    (if c.kind = .singBox ∧ p.outbounds.any Outbound.extraAmnezia then [.amneziaParameters]
      else []) ++
    ((p.outbounds.map (·.protocol)).dedup.filter fun q => decide (q ∉ c.protocols)).map .protocol ++
    (allFeatures.filter fun f => p.requires f && decide (f ∉ c.features)).map .feature

/-! ## Choosing an engine -/

/-- Why an engine was passed over. -/
inductive Rejection where
  | notInstalled
  | unusable (reason : Bytes)
  | noMatrix
  | tooOld (version least : Version)
  | cannotCarry (lacks : List Lack)
  /-- The bridge needs mihomo for its packets. -/
  | noPacketEngine
  | packetEngineTooOld
  deriving DecidableEq

/-- The last engine found of a kind. -/
def available (found : List Availability) (kind : EngineKind) : Option Availability :=
  found.reverse.find? fun a => a.kind == kind

/-- One round of `SelectEngine`. -/
def consider (linux : Bool) (found : List Availability) (p : Plan) (kind : EngineKind) :
    Except Rejection Unit :=
  match available found kind with
  | none => .error .notInstalled
  | some a =>
    if !a.usable then .error (if a.reason = [] then .notInstalled else .unusable a.reason)
    else
      match catalog linux kind with
      | none => .error .noMatrix
      | some caps =>
        let caps := caps.build a.version a.buildTags
        if a.version.less caps.minVersion then .error (.tooOld a.version caps.minVersion)
        else
          match caps.missing p with
          | [] => .ok ()
          | lacks => .error (.cannotCarry lacks)

/-- A selection: the engine, and why others were passed over. -/
structure Selection where
  kind : Option EngineKind := none
  bridge : Bool := false
  rejected : List (EngineKind × Rejection) := []
  deriving DecidableEq

/-- Whether Xray needs a packet engine for the plan's adapter. -/
def needsBridge (linux : Bool) (p : Plan) (kind : EngineKind) : Bool :=
  kind == .xray && p.tun.enabled &&
    (!linux || decide (p.tun.stack ∈ ["system", "mixed", "mips"].map ascii))

/-- The plan that Xray is given behind the bridge. -/
def Plan.bridged (p : Plan) : Plan :=
  { p with
    tun := {}
    dns := if p.dns.mode = ascii "fakeip" then { p.dns with mode := ascii "rule" } else p.dns }

/-- The packet engine of the bridge, if its version is high enough. -/
def packetEngine (binaries : List Availability) : Except Rejection Unit :=
  match available binaries .mihomo with
  | none => .error .noPacketEngine
  | some a =>
    if a.version.less { major := 1, minor := 19, patch := 32 } then .error .packetEngineTooOld
    else .ok ()

/-- The registry's `selectPlan`: the first kind of the order that carries the plan.  `binaries` are
the engines that are installed, `found` what is known of them. -/
def selectPlan (linux : Bool) (binaries found : List Availability) (p : Plan) :
    List EngineKind → Selection
  | [] => {}
  | kind :: rest =>
    let bridge := needsBridge linux p kind
    let verdict := do
      consider linux found (if bridge then p.bridged else p) kind
      if bridge then packetEngine binaries
    match verdict with
    | .ok () => { kind := some kind, bridge := bridge }
    | .error why =>
      let later := selectPlan linux binaries found p rest
      { later with rejected := (kind, why) :: later.rejected }

/-! ## What an engine has to carry -/

def Capabilities.carries (c : Capabilities) (o : Outbound) : Bool :=
  !(c.kind == .xray && o.unchecked) && !(c.kind == .singBox && o.extraAmnezia) &&
    decide (o.protocol ∈ c.protocols) &&
    (o.transport.type != ascii "xhttp" || decide (.xhttp ∈ c.features)) &&
    (o.encryption.isEmpty || o.encryption == ascii "none" || decide (.vlessEncrypt ∈ c.features)) &&
    (o.amnezia.isNone || decide (.amneziaWG ∈ c.features))

/-- The plan without its outbounds: what it asks of an engine besides them. -/
def Plan.bare (p : Plan) : Plan := { p with outbounds := [] }

/-- A feature is required by an outbound or by the rest of the plan. -/
theorem requires_iff (p : Plan) (f : Feature) : p.requires f = true ↔ p.bare.requires f = true ∨
    ∃ o ∈ p.outbounds, f = .xhttp ∧ o.transport.type = ascii "xhttp" ∨
      f = .vlessEncrypt ∧ o.encryption ≠ [] ∧ o.encryption ≠ ascii "none" ∨
      f = .amneziaWG ∧ o.amnezia.isSome := by
  cases f <;> simp [Plan.requires, Plan.bare]

/-- Nothing is missing when none of the five kinds of lack is there. -/
theorem missing_eq_nil (c : Capabilities) (p : Plan) : c.missing p = [] ↔
    ¬(p.tun.enabled ∧ p.tun.stack ≠ [] ∧ (c.kind = .xray ∧ p.tun.stack ≠ ascii "gvisor" ∨
        c.kind = .singBox ∧ p.tun.stack = ascii "mips")) ∧
      (∀ o ∈ p.outbounds, ¬(c.kind = .xray ∧ o.unchecked) ∧
        ¬(c.kind = .singBox ∧ o.extraAmnezia) ∧ o.protocol ∈ c.protocols) ∧
      ∀ f, p.requires f = true → f ∈ c.features := by
  have every (f : Feature) : f ∈ allFeatures := by cases f <;> decide
  simp only [Capabilities.missing, append_eq_nil_iff, ite_eq_right_iff, cons_ne_nil,
    map_eq_nil_iff, filter_eq_nil_iff, mem_dedup, mem_map,
    Bool.and_eq_true, decide_eq_true_eq, any_eq_true]
  constructor
  · rintro ⟨⟨⟨⟨stack, checked⟩, plain⟩, known⟩, features⟩
    refine ⟨stack, fun o inside => ⟨fun bad => checked ⟨bad.1, o, inside, bad.2⟩,
      fun bad => plain ⟨bad.1, o, inside, bad.2⟩, ?_⟩, fun f asked => ?_⟩
    · by_contra absent
      exact known _ ⟨o, inside, rfl⟩ absent
    · by_contra absent
      exact features f (every f) ⟨asked, absent⟩
  · rintro ⟨stack, outbounds, features⟩
    refine ⟨⟨⟨⟨stack, ?_⟩, ?_⟩, ?_⟩, fun f _ lacking => lacking.2 (features f lacking.1)⟩
    · rintro ⟨kind, o, inside, bad⟩
      exact (outbounds o inside).1 ⟨kind, bad⟩
    · rintro ⟨kind, o, inside, bad⟩
      exact (outbounds o inside).2.1 ⟨kind, bad⟩
    · rintro _ ⟨o, inside, rfl⟩ absent
      exact absent (outbounds o inside).2.2

theorem carries_iff (c : Capabilities) (o : Outbound) : c.carries o = true ↔
    (¬(c.kind = .xray ∧ o.unchecked) ∧ ¬(c.kind = .singBox ∧ o.extraAmnezia) ∧
      o.protocol ∈ c.protocols) ∧
      (o.transport.type = ascii "xhttp" → .xhttp ∈ c.features) ∧
      (o.encryption ≠ [] ∧ o.encryption ≠ ascii "none" → .vlessEncrypt ∈ c.features) ∧
      (o.amnezia.isSome → .amneziaWG ∈ c.features) := by
  cases amnezia : o.amnezia <;> simp [Capabilities.carries, amnezia] <;> tauto

/-- An engine carries a plan when it carries every outbound and the rest. -/
theorem missing_eq_nil_iff (c : Capabilities) (p : Plan) : c.missing p = [] ↔
    c.missing p.bare = [] ∧ ∀ o ∈ p.outbounds, c.carries o = true := by
  rw [missing_eq_nil c p, missing_eq_nil c p.bare]
  constructor
  · rintro ⟨stack, outbounds, features⟩
    refine ⟨⟨stack, fun _ inside => absurd inside not_mem_nil, fun f asked => features f ((requires_iff p f).mpr (.inl asked))⟩,
      fun o inside => ?_⟩
    have has (f : Feature) (asked : f = .xhttp ∧ o.transport.type = ascii "xhttp" ∨
        f = .vlessEncrypt ∧ o.encryption ≠ [] ∧ o.encryption ≠ ascii "none" ∨
        f = .amneziaWG ∧ o.amnezia.isSome) : f ∈ c.features :=
      features f ((requires_iff p f).mpr (.inr ⟨o, inside, asked⟩))
    rw [carries_iff]
    exact ⟨outbounds o inside, fun xhttp => has _ (.inl ⟨rfl, xhttp⟩),
      fun encrypted => has _ (.inr (.inl ⟨rfl, encrypted⟩)),
      fun amnezia => has _ (.inr (.inr ⟨rfl, amnezia⟩))⟩
  · rintro ⟨⟨stack, _, features⟩, outbounds⟩
    refine ⟨stack, fun o inside => ((carries_iff c o).mp (outbounds o inside)).1, fun f asked => ?_⟩
    rcases (requires_iff p f).mp asked with rest | ⟨o, inside, by_outbound⟩
    · exact features f rest
    · obtain ⟨_, xhttp, encrypt, amnezia⟩ := (carries_iff c o).mp (outbounds o inside)
      rcases by_outbound with ⟨rfl, h⟩ | ⟨rfl, h⟩ | ⟨rfl, h⟩
      · exact xhttp h
      · exact encrypt h
      · exact amnezia h

def engineCarries (linux : Bool) (found : List Availability) (kind : EngineKind) (o : Outbound) :
    Bool :=
  (available found kind).any fun a =>
    (catalog linux kind).any fun caps => (caps.build a.version a.buildTags).carries o

theorem consider_isOk_iff (linux : Bool) (found : List Availability) (p : Plan) (kind : EngineKind) :
    (consider linux found p kind).isOk = true ↔ (consider linux found p.bare kind).isOk = true ∧
      ∀ o ∈ p.outbounds, engineCarries linux found kind o = true := by
  have matched (lacks : List Lack) : (match lacks with
      | [] => (.ok () : Except Rejection Unit)
      | lacks => .error (.cannotCarry lacks)).isOk = true ↔ lacks = [] := by
    cases lacks <;> simp [Except.toBool]
  simp only [consider, engineCarries]
  cases available found kind with
  | none => simp [Except.toBool]
  | some a =>
    cases usable : a.usable with
    | false => simp [usable, Except.toBool]
    | true =>
      cases catalog linux kind with
      | none => simp [usable, Except.toBool]
      | some caps =>
        simp only [usable, Bool.not_true, Bool.false_eq_true, if_false, Option.any_some]
        by_cases old : a.version.less (caps.build a.version a.buildTags).minVersion = true
        · simp [old, Except.toBool]
        · rw [if_neg old, if_neg old, matched, matched, missing_eq_nil_iff]

/-- One round of `selectPlan`. -/
def accepts (linux : Bool) (binaries found : List Availability) (p : Plan) (kind : EngineKind) :
    Bool :=
  let bridge := needsBridge linux p kind
  (consider linux found (if bridge then p.bridged else p) kind).isOk &&
    (!bridge || (packetEngine binaries).isOk)

theorem accepts_iff (linux : Bool) (binaries found : List Availability) (p : Plan)
    (kind : EngineKind) : accepts linux binaries found p kind = true ↔
      accepts linux binaries found p.bare kind = true ∧
        ∀ o ∈ p.outbounds, engineCarries linux found kind o = true := by
  have same : needsBridge linux p.bare kind = needsBridge linux p kind := rfl
  simp only [accepts, same, Bool.and_eq_true]
  cases needsBridge linux p kind with
  | false =>
    simp only [Bool.false_eq_true, if_false]
    rw [consider_isOk_iff linux found p]
    tauto
  | true =>
    simp only [if_true]
    rw [consider_isOk_iff linux found p.bridged]
    tauto

/-- The outcome of a selection: the engine and whether it gets the bridge. -/
def Selection.outcome (s : Selection) : Option (EngineKind × Bool) := s.kind.map fun k => (k, s.bridge)

/-- The first engine of the order that accepts the plan is selected. -/
theorem selectPlan_outcome (linux : Bool) (binaries found : List Availability) (p : Plan)
    (order : List EngineKind) : (selectPlan linux binaries found p order).outcome =
      (order.find? (accepts linux binaries found p)).map fun k => (k, needsBridge linux p k) := by
  induction order with
  | nil => rfl
  | cons kind rest ih =>
    rw [selectPlan, find?_cons]
    simp only [accepts]
    cases consider linux found (if needsBridge linux p kind then p.bridged else p) kind with
    | error why => exact ih
    | ok _ =>
      cases bridge : needsBridge linux p kind with
      | false => exact congrArg (fun b => some (kind, b)) bridge.symm
      | true =>
        cases packetEngine binaries with
        | error why => exact ih
        | ok _ => exact congrArg (fun b => some (kind, b)) bridge.symm

/-! ## Protocols that are carried -/

/-- Some engine's table has the protocol. -/
def carried (q : Protocol) : Bool :=
  [EngineKind.mihomo, .singBox, .xray].any fun kind =>
    (catalog true kind).any fun caps => decide (q ∈ caps.protocols)

theorem carried_iff (q : Protocol) : carried q = true ↔ q ≠ .bypass ∧ ∀ name, q ≠ .other name := by
  cases q with
  | other name =>
    constructor
    · intro some
      simp [carried, catalog, commonProtocols] at some
    · exact fun known => absurd rfl (known.2 name)
  | bypass =>
    constructor
    · intro some
      exact absurd some (by decide)
    · exact fun known => absurd rfl known.1
  | _ => exact ⟨fun _ => ⟨nofun, fun _ => nofun⟩, fun _ => rfl⟩

end Sora.Contract
