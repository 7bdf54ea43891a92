import Sora.Guard.Nftables
import Sora.Lib.Arbitration

/-!
# The Windows kill switch

The filters that `WFP.rules` adds to its sublayer, one per layer to which their conditions
apply, and what they decide together.  The filtering platform joins conditions on one field by
"or" and fields by "and"; the heaviest hit decides (`Sora.Lib.Arbitration`).
-/

namespace Sora.Guard

open Sora.Lib Sora.Lib.Arbitration List

namespace WFP

/-! ## Conditions -/

inductive Field where
  | aleAppID
  | aleUserID
  | flags
  | ipLocalAddress
  | ipRemoteAddress
  | ipLocalPort
  | ipRemotePort
  | ipProtocol
  | nexthopInterfaceType
  | arrivalInterfaceType
  deriving DecidableEq

inductive MatchType where
  | equal
  | flagsAllSet
  deriving DecidableEq

/-- The values of conditions.  A security descriptor admits one account. -/
inductive Value where
  | appID (id : Bytes)
  | account (sid : Bytes)
  | flags (n : UInt32)
  | network (p : Prefix)
  | uint16 (n : UInt16)
  | uint32 (n : UInt32)
  | proto (n : UInt8)
  deriving DecidableEq

structure Match where
  field : Field
  op : MatchType
  value : Value
  deriving DecidableEq

/-- What the platform classifies: a connection on the layer of its addresses.  The interface
types are empty where the platform does not know them. -/
structure Flow where
  layer : Family
  localAddress : IP
  remoteAddress : IP
  localFamily : localAddress.family = layer
  remoteFamily : remoteAddress.family = layer
  localPort : UInt16
  remotePort : UInt16
  protocol : UInt8
  app : Bytes
  account : Bytes
  flags : UInt32
  nexthopType : Option UInt32
  arrivalType : Option UInt32

def conditionFlagIsLoopback : UInt32 := 1

def conditionFlagIsReauthorize : UInt32 := 4

def ipProtoUDP : UInt8 := 17

def ipProtoICMPV6 : UInt8 := 58

def Match.holds (flow : Flow) (c : Match) : Bool :=
  match c.op, c.field, c.value with
  | .equal, .aleAppID, .appID id => flow.app == id
  | .equal, .aleUserID, .account sid => flow.account == sid
  | .equal, .ipLocalAddress, .network p => p.contains flow.localAddress
  | .equal, .ipRemoteAddress, .network p => p.contains flow.remoteAddress
  | .equal, .ipLocalPort, .uint16 n => flow.localPort == n
  | .equal, .ipRemotePort, .uint16 n => flow.remotePort == n
  | .equal, .ipProtocol, .proto n => flow.protocol == n
  | .equal, .nexthopInterfaceType, .uint32 n => flow.nexthopType == some n
  | .equal, .arrivalInterfaceType, .uint32 n => flow.arrivalType == some n
  | .flagsAllSet, .flags, .flags n => flow.flags &&& n == n
  | _, _, _ => false

structure Rule where
  name : Bytes
  layer : Family
  weight : Nat
  conditions : List Match
  action : Action
  deriving DecidableEq

/-- The rule is on the flow's layer, and on each field that it names one condition holds. -/
def Rule.hits (rule : Rule) (flow : Flow) : Bool :=
  rule.layer == flow.layer &&
    rule.conditions.all fun c => rule.conditions.any fun d => d.field == c.field && d.holds flow

@[simps] def arbiter : Arbiter Rule Flow where
  weight := Rule.weight
  action := Rule.action
  hits := Rule.hits

end WFP

open WFP

/-! ## The code -/

structure WFP where
  enginesDir : Bytes
  bypass : List Prefix
  tunNetworks : List Prefix := []
  blockedNetworks : List Prefix := []
  /-- The rules of the open session. -/
  session : Option (List Rule) := none

/-- What Windows answers. -/
structure Windows where
  executable : Option Bytes
  /-- The `.exe` files of a directory. -/
  glob : Bytes → Option (List Bytes)
  appID : Bytes → Option Bytes
  sameAccount : Option Bytes
  /-- A session with its sublayer can be opened. -/
  opens : Bool
  addsRule : Rule → Bool
  closes : Bool

variable {flow : Flow} {conditions : List Match} {name : Bytes} {action : Action} {weight : Nat}

namespace WFP

/-- `PlatformFirewall`. -/
def platformFirewall (enginesDir : Bytes) (bypass : List Bytes) : Option WFP := do
  let bypass := if bypass.length = 0 then defaultBypassNetworks else bypass
  let prefixes ← bypass.mapM parsePrefix
  some { enginesDir := enginesDir, bypass := prefixes.map Prefix.masked }

def setTunNetworks (w : WFP) (networks : List Prefix) : WFP := { w with tunNetworks := networks }

def setBlockedNetworks (w : WFP) (networks : List Prefix) : WFP :=
  { w with blockedNetworks := networks }

def weightPermit : Nat := 10

def weightTunnelBlock : Nat := 40

def weightTunnelPermit : Nat := 50

def weightBlock : Nat := 0

def outbound : List Family := [.v4, .v6]

/-- Address conditions belong on the layer of their family, ICMPv6 on the IPv6 layer. -/
def applies (layer : Family) (conditions : List Match) : Bool :=
  conditions.all fun c =>
    (match c.value with
      | .network p => (p.ip.family == .v4) == (layer == .v4)
      | _ => true) &&
    !(c.value == .proto ipProtoICMPV6 && layer == .v4)

/-- The rules that `add` adds. -/
def candidates (name : Bytes) (action : Action) (weight : Nat) (conditions : List Match) :
    List Rule :=
  (outbound.filter (applies · conditions)).map fun layer =>
    { name := ascii "Sora: " ++ name, layer := layer, weight := weight, conditions := conditions,
      action := action }

/-- A loop over what rules are added for. -/
def forEach {α : Type} (f : α → Option (List Rule)) : List α → Option (List Rule)
  | [] => some []
  | x :: xs => do
    let rules ← f x
    let rest ← forEach f xs
    some (rules ++ rest)

def base (file : Bytes) : Bytes := (file.splitOnP fun c => c == 92 || c == 47).getLastD []

section Rules

variable (host : Windows) (w : WFP)

def executables : Option (List Bytes) := do
  let self ← host.executable
  let engines ← host.glob w.enginesDir
  some (self :: engines)

def add (name : Bytes) (action : Action) (weight : Nat) (conditions : List Match) :
    Option (List Rule) :=
  let rules := candidates name action weight conditions
  if rules.all host.addsRule then some rules else none

def permit (name : Bytes) (conditions : List Match) : Option (List Rule) :=
  add host name .permit weightPermit conditions

def engineRules (owner file : Bytes) : Option (List Rule) := do
  let id ← host.appID file
  add host (base file) .permit 30
    [⟨.aleAppID, .equal, .appID id⟩, ⟨.aleUserID, .equal, .account owner⟩]

def tunnelRules (network : Prefix) : Option (List Rule) := do
  let outgoing ← add host (ascii "through the tunnel") .permit weightTunnelPermit
    [⟨.ipLocalAddress, .equal, .network network⟩, ⟨.nexthopInterfaceType, .equal, .uint32 53⟩]
  let reply ← add host (ascii "reply through the tunnel") .permit weightTunnelPermit
    [⟨.ipLocalAddress, .equal, .network network⟩, ⟨.arrivalInterfaceType, .equal, .uint32 53⟩,
      ⟨.flags, .flagsAllSet, .flags conditionFlagIsReauthorize⟩]
  some (outgoing ++ reply)

def blockedRules (network : Prefix) : Option (List Rule) :=
  add host (ascii "tunnel destination outside the tunnel") .block weightTunnelBlock
    [⟨.ipRemoteAddress, .equal, .network network⟩]

def bypassRules (network : Prefix) : Option (List Rule) :=
  permit host (ascii "local network") [⟨.ipRemoteAddress, .equal, .network network⟩]

/-- The address `255.255.255.255`. -/
def broadcast : Prefix := ⟨⟨.v4, 2 ^ 32 - 1, by decide⟩, 32, by decide⟩

/-- The address `ff02::1:2`. -/
def dhcpServers : Prefix := ⟨⟨.v6, 0xff02 * 2 ^ 112 + 0x10002, by decide⟩, 128, by decide⟩

def dhcpRules : Option (List Rule) :=
  permit host (ascii "DHCP")
    [⟨.ipProtocol, .equal, .proto ipProtoUDP⟩, ⟨.ipLocalPort, .equal, .uint16 68⟩,
      ⟨.ipRemotePort, .equal, .uint16 67⟩, ⟨.ipRemoteAddress, .equal, .network broadcast⟩]

def dhcp6Rules : Option (List Rule) :=
  permit host (ascii "DHCPv6")
    [⟨.ipProtocol, .equal, .proto ipProtoUDP⟩, ⟨.ipLocalPort, .equal, .uint16 546⟩,
      ⟨.ipRemotePort, .equal, .uint16 547⟩, ⟨.ipRemoteAddress, .equal, .network dhcpServers⟩]

/-- For ICMP the local port is the message type. -/
def discoveryRules (kind : UInt16) : Option (List Rule) :=
  permit host (ascii "neighbour discovery")
    [⟨.ipProtocol, .equal, .proto ipProtoICMPV6⟩, ⟨.ipLocalPort, .equal, .uint16 kind⟩]

/-- `rules`: those it adds, if none of its calls fails. -/
def rules : Option (List Rule) := do
  let apps ← executables host w
  let owner ← host.sameAccount
  let engines ← forEach (engineRules host owner) apps
  let loopback ← add host (ascii "loopback") .permit 30
    [⟨.flags, .flagsAllSet, .flags conditionFlagIsLoopback⟩]
  let tunnel ← forEach (tunnelRules host) w.tunNetworks
  let blocked ← forEach (blockedRules host) (legacyFakeIPNetwork :: w.blockedNetworks)
  let dns ← add host (ascii "DNS outside the tunnel") .block 20
    [⟨.ipRemotePort, .equal, .uint16 53⟩]
  let bypass ← forEach (bypassRules host) w.bypass
  let dhcp ← dhcpRules host
  let dhcp6 ← dhcp6Rules host
  let discovery ← forEach (discoveryRules host) [133, 135, 136]
  let rest ← add host (ascii "everything else") .block weightBlock []
  some (engines ++ loopback ++ tunnel ++ blocked ++ dns ++ bypass ++ dhcp ++ dhcp6 ++ discovery ++
    rest)

/-- `Arm`, and whether it succeeds.  A failed installation closes the session. -/
def arm : WFP × Bool :=
  match w.session with
  | some _ => (w, true)
  | none =>
    if host.opens then
      match rules host w with
      | some rules => ({ w with session := some rules }, true)
      | none => (w, false)
    else (w, false)

/-- `Disarm`. -/
def disarm : WFP × Bool :=
  match w.session with
  | none => (w, true)
  | some _ => ({ w with session := none }, host.closes)

def armed : Bool := w.session.isSome

end Rules

example : parsePrefix (ascii "255.255.255.255/32") = some broadcast := rfl

example : parsePrefix (ascii "ff02::1:2/128") = some dhcpServers := by decide

/-! ## What single rules hit -/

theorem hits_of_distinct {rule : Rule} (distinct : (rule.conditions.map Match.field).Nodup)
    (flow : Flow) : rule.hits flow = true ↔
      rule.layer = flow.layer ∧ ∀ c ∈ rule.conditions, c.holds flow = true := by
  rw [Rule.hits, Bool.and_eq_true, beq_iff_eq, all_eq_true]
  refine and_congr_right fun _ => forall₂_congr fun c member => ?_
  rw [any_eq_true]
  constructor
  · rintro ⟨d, member', both⟩
    obtain ⟨same, holds⟩ := Bool.and_eq_true_iff.mp both
    rwa [← inj_on_of_nodup_map distinct member' member (beq_iff_eq.mp same)]
  · intro holds
    exact ⟨c, member, by simp [holds]⟩

/-- A condition on an address holds on the layer of its network only. -/
theorem family_of_holds {c : Match} {p : Prefix} (holds : c.holds flow = true)
    (value : c.value = .network p) : p.ip.family = flow.layer := by
  obtain ⟨field, op, v⟩ := c
  subst value
  cases op <;> cases field <;> try cases holds
  · have same := (Bool.and_eq_true_iff.mp holds).1
    rw [beq_iff_eq.mp same, flow.localFamily]
  · have same := (Bool.and_eq_true_iff.mp holds).1
    rw [beq_iff_eq.mp same, flow.remoteFamily]

theorem applies_iff (holds : ∀ c ∈ conditions, c.holds flow = true) :
    applies flow.layer conditions = true ↔
      (flow.layer = .v4 → ∀ c ∈ conditions, c.value ≠ .proto ipProtoICMPV6) := by
  rw [applies, all_eq_true]
  constructor
  · intro all layer c member value
    have both := all c member
    simp [value, layer] at both
  · intro other c member
    rw [Bool.and_eq_true]
    constructor
    · cases value : c.value with
      | network p => simp [family_of_holds (holds c member) value]
      | _ => rfl
    · by_cases layer : flow.layer = .v4
      · simp [other layer c member]
      · simp [layer]

/-- The rules of one call of `add`. -/
theorem group_add {host : Windows} {rs : List Rule}
    (added : add host name action weight conditions = some rs)
    (distinct : (conditions.map Match.field).Nodup) :
    Group arbiter weight action (fun flow => (∀ c ∈ conditions, c.holds flow = true) ∧
      (flow.layer = .v4 → ∀ c ∈ conditions, c.value ≠ .proto ipProtoICMPV6)) rs := by
  have made : candidates name action weight conditions = rs := by
    simp only [add] at added
    split at added
    · exact Option.some.inj added
    · cases added
  subst made
  refine ⟨fun r member => ?_, fun r member => ?_, fun flow => ?_⟩
  · obtain ⟨layer, -, rfl⟩ := mem_map.mp member
    rfl
  · obtain ⟨layer, -, rfl⟩ := mem_map.mp member
    rfl
  rw [any_eq_true]
  constructor
  · rintro ⟨r, member, hit⟩
    obtain ⟨layer, outgoing, rfl⟩ := mem_map.mp member
    obtain ⟨here, holds⟩ := (hits_of_distinct distinct flow).mp hit
    obtain rfl : layer = flow.layer := here
    exact ⟨holds, (applies_iff holds).mp (mem_filter.mp outgoing).2⟩
  · rintro ⟨holds, other⟩
    have outgoing : flow.layer ∈ outbound := by cases flow.layer <;> decide
    refine ⟨_, mem_map_of_mem (mem_filter.mpr ⟨outgoing, (applies_iff holds).mpr other⟩),
      (hits_of_distinct distinct flow).mpr ⟨rfl, holds⟩⟩

theorem group_forEach {α : Type} {f : α → Option (List Rule)} {P : α → Flow → Prop}
    (each : ∀ x rs, f x = some rs → Group arbiter weight action (P x) rs) (xs : List α) :
    ∀ rs, forEach f xs = some rs →
      Group arbiter weight action (fun flow => ∃ x ∈ xs, P x flow) rs := by
  induction xs with
  | nil =>
    intro rs made
    obtain rfl : [] = rs := Option.some.inj made
    exact Group.nil.mono (by simp)
  | cons x xs ih =>
    intro rs made
    obtain ⟨first, made_first, made⟩ := Option.bind_eq_some_iff.mp made
    obtain ⟨rest, made_rest, made⟩ := Option.bind_eq_some_iff.mp made
    obtain rfl : first ++ rest = rs := Option.some.inj made
    exact ((each x first made_first).append (ih rest made_rest)).mono (by simp)

/-! ## The policy -/

section Policy

variable (host : Windows) (w : WFP) (files : List Bytes) (flow : Flow)

def Flow.loopback : Prop := flow.flags &&& conditionFlagIsLoopback = conditionFlagIsLoopback

def Flow.reauthorized : Prop := flow.flags &&& conditionFlagIsReauthorize = conditionFlagIsReauthorize

/-- From an address of the tunnel over a virtual interface. -/
def isTunnelFlow : Prop :=
  ∃ network ∈ w.tunNetworks, network.contains flow.localAddress = true ∧
    (flow.nexthopType = some 53 ∨ flow.arrivalType = some 53 ∧ flow.reauthorized)

/-- To an address that only the tunnel may reach. -/
def toTunnelNetwork : Prop :=
  ∃ network ∈ legacyFakeIPNetwork :: w.blockedNetworks, network.contains flow.remoteAddress = true

/-- Of one of the executables, run by the core's account. -/
def isTrusted : Prop :=
  (∃ file ∈ files, host.appID file = some flow.app) ∧ host.sameAccount = some flow.account

def toBypass : Prop := ∃ network ∈ w.bypass, network.contains flow.remoteAddress = true

def isDHCP : Prop :=
  flow.protocol = ipProtoUDP ∧ flow.localPort = 68 ∧ flow.remotePort = 67 ∧
    broadcast.contains flow.remoteAddress = true

def isDHCPv6 : Prop :=
  flow.protocol = ipProtoUDP ∧ flow.localPort = 546 ∧ flow.remotePort = 547 ∧
    dhcpServers.contains flow.remoteAddress = true

/-- A router solicitation, neighbour solicitation or neighbour advertisement. -/
def isNeighbourDiscovery : Prop :=
  flow.layer = .v6 ∧ flow.protocol = ipProtoICMPV6 ∧ flow.localPort ∈ [133, 135, 136]

/-- What the kill switch lets out when it trusts these executables. -/
def Permitted : Prop :=
  isTunnelFlow w flow ∨
  ¬ toTunnelNetwork w flow ∧ (flow.loopback ∨ isTrusted host files flow) ∨
  ¬ toTunnelNetwork w flow ∧ flow.remotePort ≠ 53 ∧
    (toBypass w flow ∨ isDHCP flow ∨ isDHCPv6 flow ∨ isNeighbourDiscovery flow)

instance : Decidable flow.loopback := by unfold Flow.loopback; infer_instance
instance : Decidable flow.reauthorized := by unfold Flow.reauthorized; infer_instance
instance : Decidable (isTunnelFlow w flow) := by unfold isTunnelFlow; infer_instance
instance : Decidable (toTunnelNetwork w flow) := by unfold toTunnelNetwork; infer_instance
instance : Decidable (isTrusted host files flow) := by unfold isTrusted; infer_instance
instance : Decidable (toBypass w flow) := by unfold toBypass; infer_instance
instance : Decidable (isDHCP flow) := by unfold isDHCP; infer_instance
instance : Decidable (isDHCPv6 flow) := by unfold isDHCPv6; infer_instance
instance : Decidable (isNeighbourDiscovery flow) := by
  unfold isNeighbourDiscovery; infer_instance
instance : Decidable (Permitted host w files flow) := by unfold Permitted; infer_instance

end Policy

/-! ## The rules enforce it -/

section Enforcement

variable {host : Windows} {rs : List Rule}

theorem group_engine {owner : Bytes} (file : Bytes) (rs : List Rule)
    (added : engineRules host owner file = some rs) :
    Group arbiter 30 .permit
      (fun flow => host.appID file = some flow.app ∧ owner = flow.account) rs := by
  obtain ⟨id, known, added⟩ := Option.bind_eq_some_iff.mp added
  refine (group_add added (by simp)).mono fun flow => ?_
  have same : host.appID file = some flow.app ↔ flow.app = id := by
    rw [known, Option.some.injEq, eq_comm]
  rw [same, eq_comm (a := owner)]
  simp [Match.holds]

theorem group_tunnel (network : Prefix) (rs : List Rule)
    (added : tunnelRules host network = some rs) :
    Group arbiter 50 .permit (fun flow => network.contains flow.localAddress = true ∧
      (flow.nexthopType = some 53 ∨ flow.arrivalType = some 53 ∧ flow.reauthorized)) rs := by
  obtain ⟨outgoing, added_outgoing, added⟩ := Option.bind_eq_some_iff.mp added
  obtain ⟨reply, added_reply, added⟩ := Option.bind_eq_some_iff.mp added
  obtain rfl : outgoing ++ reply = rs := Option.some.inj added
  refine ((group_add added_outgoing (by simp)).append (group_add added_reply (by simp))).mono
    fun flow => ?_
  simp [Match.holds, Flow.reauthorized, and_or_left]

theorem group_remote (network : Prefix) (rs : List Rule)
    (added : add host name action weight [⟨.ipRemoteAddress, .equal, .network network⟩] = some rs) :
    Group arbiter weight action (fun flow => network.contains flow.remoteAddress = true) rs :=
  (group_add added (by simp)).mono fun flow => by simp [Match.holds]

theorem group_dhcp (added : dhcpRules host = some rs) : Group arbiter 10 .permit isDHCP rs :=
  (group_add added (by simp)).mono fun flow => by
    simp [Match.holds, isDHCP, ipProtoUDP, ipProtoICMPV6]

theorem group_dhcp6 (added : dhcp6Rules host = some rs) : Group arbiter 10 .permit isDHCPv6 rs :=
  (group_add added (by simp)).mono fun flow => by
    simp [Match.holds, isDHCPv6, ipProtoUDP, ipProtoICMPV6]

theorem group_discovery (kind : UInt16) (rs : List Rule)
    (added : discoveryRules host kind = some rs) :
    Group arbiter 10 .permit (fun flow => flow.layer = .v6 ∧ flow.protocol = ipProtoICMPV6 ∧
      flow.localPort = kind) rs := by
  refine (group_add added (by simp)).mono fun flow => ?_
  cases layer : flow.layer <;> simp [Match.holds]

/-- The filters decide as the policy says, for the core's executable and those of the engines. -/
theorem verdict_rules {w : WFP} (added : rules host w = some rs) :
    ∃ self engines, host.executable = some self ∧ host.glob w.enginesDir = some engines ∧
      ∀ flow, verdict arbiter rs flow =
        some (if Permitted host w (self :: engines) flow then .permit else .block) := by
  simp only [rules, executables, Option.bind_eq_bind, Option.bind_eq_some_iff,
    Option.some.injEq] at added
  obtain ⟨-, ⟨self, known_self, engines, known_engines, rfl⟩, owner, account, engineRs, made_engine,
    loopbackRs, made_loopback, tunnelRs, made_tunnel, blockedRs, made_blocked, dnsRs, made_dns,
    bypassRs, made_bypass, dhcpRs, made_dhcp, dhcp6Rs, made_dhcp6, discoveryRs, made_discovery,
    restRs, made_rest, rfl⟩ := added
  refine ⟨self, engines, known_self, known_engines, fun flow => ?_⟩
  have tunnel : Group arbiter 50 .permit (isTunnelFlow w) tunnelRs :=
    group_forEach group_tunnel w.tunNetworks tunnelRs made_tunnel
  have blocked : Group arbiter 40 .block (toTunnelNetwork w) blockedRs :=
    group_forEach group_remote _ blockedRs made_blocked
  have trusted : Group arbiter 30 .permit (fun flow =>
      flow.loopback ∨ isTrusted host (self :: engines) flow) (loopbackRs ++ engineRs) := by
    refine (group_add made_loopback (by simp)).append
      (group_forEach group_engine _ engineRs made_engine) |>.mono fun flow => ?_
    refine or_congr (by simp [Match.holds, Flow.loopback]) ?_
    rw [isTrusted, account, Option.some.injEq]
    exact ⟨fun ⟨file, listed, ran, owned⟩ => ⟨⟨file, listed, ran⟩, owned⟩,
      fun ⟨⟨file, listed, ran⟩, owned⟩ => ⟨file, listed, ran, owned⟩⟩
  have dns : Group arbiter 20 .block (fun flow => flow.remotePort = 53) dnsRs :=
    (group_add made_dns (by simp)).mono fun flow => by simp [Match.holds]
  have lan : Group arbiter 10 .permit (fun flow =>
      toBypass w flow ∨ isDHCP flow ∨ isDHCPv6 flow ∨ isNeighbourDiscovery flow)
      (bypassRs ++ (dhcpRs ++ (dhcp6Rs ++ discoveryRs))) := by
    refine (group_forEach group_remote _ bypassRs made_bypass).append ((group_dhcp made_dhcp).append
      ((group_dhcp6 made_dhcp6).append (group_forEach group_discovery _ _ made_discovery)))
      |>.mono fun flow => or_congr_right (or_congr_right (or_congr_right ?_))
    rw [isNeighbourDiscovery]
    exact ⟨fun ⟨kind, listed, layer, protocol, port⟩ => ⟨layer, protocol, port ▸ listed⟩,
      fun ⟨layer, protocol, listed⟩ => ⟨flow.localPort, listed, layer, protocol, rfl⟩⟩
  have rest : Group arbiter 0 .block (fun _ => True) restRs :=
    (group_add made_rest (by simp)).mono fun flow => by simp
  have covers : ∀ r, r ∈ engineRs ++ loopbackRs ++ tunnelRs ++ blockedRs ++ dnsRs ++ bypassRs ++
      dhcpRs ++ dhcp6Rs ++ discoveryRs ++ restRs ↔ ∃ layer ∈ [tunnel.layer, blocked.layer,
        trusted.layer, dns.layer, lan.layer, rest.layer], r ∈ layer.rules := by
    intro r
    simp only [mem_append, exists_mem_cons_iff, not_mem_nil, false_and, exists_false,
      or_false, Group.layer]
    tauto
  rw [verdict_layers flow covers (by simp [Group.layer])]
  rw [tunnel.find?_layer, blocked.find?_layer, trusted.find?_layer, dns.find?_layer,
    lan.find?_layer, rest.find?_layer, if_pos trivial]
  by_cases inTunnel : isTunnelFlow w flow
  · simp [Permitted, inTunnel]
  by_cases outside : toTunnelNetwork w flow
  · simp [Permitted, inTunnel, outside]
  by_cases own : flow.loopback ∨ isTrusted host (self :: engines) flow
  · simp [Permitted, inTunnel, outside, own]
  by_cases query : flow.remotePort = 53
  · simp [Permitted, inTunnel, outside, own, query]
  by_cases near : toBypass w flow ∨ isDHCP flow ∨ isDHCPv6 flow ∨ isNeighbourDiscovery flow
  · simp [Permitted, inTunnel, outside, own, query, near]
  · simp [Permitted, inTunnel, outside, own, query, near]

/-- Once armed, the kill switch lets out the flows that the policy permits and blocks all
others. -/
theorem arm_permits_iff {w w' : WFP} (disarmed : w.session = none)
    (armed : arm host w = (w', true)) :
    ∃ filters self engines, w'.session = some filters ∧ host.executable = some self ∧
      host.glob w.enginesDir = some engines ∧
      ∀ flow, (verdict arbiter filters flow = some .permit ↔
          Permitted host w (self :: engines) flow) ∧
        (verdict arbiter filters flow = some .block ↔
          ¬ Permitted host w (self :: engines) flow) := by
  simp only [arm, disarmed] at armed
  split at armed
  case isFalse => cases armed
  split at armed
  case h_2 => cases armed
  rename_i filters added
  obtain ⟨self, engines, known_self, known_engines, decided⟩ := verdict_rules added
  obtain ⟨rfl, -⟩ := Prod.mk.inj armed
  refine ⟨filters, self, engines, rfl, known_self, known_engines, fun flow => ?_⟩
  by_cases permitted : Permitted host w (self :: engines) flow <;> simp [decided]

end Enforcement

/-- The core on a machine without engines. -/
def coreOnly : Windows where
  executable := some (ascii "sora-core.exe")
  glob _ := some []
  appID file := some file
  sameAccount := some (ascii "S-1-5-18")
  opens := true
  addsRule _ := true
  closes := true

def freshWFP : WFP := { enginesDir := ascii "engines", bypass := [] }

/-- The core fetches a subscription. -/
def subscriptionFlow : Flow where
  layer := .v4
  localAddress := ⟨.v4, 192 * 2 ^ 24 + 168 * 2 ^ 16 + 2, by decide⟩
  remoteAddress := ⟨.v4, 203 * 2 ^ 24 + 113 * 2 ^ 8 + 7, by decide⟩
  localFamily := rfl
  remoteFamily := rfl
  localPort := 50000
  remotePort := 443
  protocol := 6
  app := ascii "sora-core.exe"
  account := ascii "S-1-5-18"
  flags := 0
  nexthopType := some 6
  arrivalType := none

theorem armed_core_only : ∃ w', arm coreOnly freshWFP = (w', true) ∧
    ∃ filters, w'.session = some filters ∧
      verdict arbiter filters subscriptionFlow = some .permit := by
  have armed : (arm coreOnly freshWFP).2 = true := by decide
  obtain ⟨filters, self, engines, installed, known_self, known_engines, decided⟩ :=
    arm_permits_iff (show freshWFP.session = none from rfl) (Prod.ext rfl armed)
  obtain rfl : ascii "sora-core.exe" = self := Option.some.inj known_self
  obtain rfl : [] = engines := Option.some.inj known_engines
  exact ⟨_, Prod.ext rfl armed, filters, installed,
    (decided subscriptionFlow).1.mpr (by decide)⟩

/-- The core's own connections pass although it is no engine. -/
theorem core_passes_without_engines :
    ∃ filters, rules coreOnly freshWFP = some filters ∧
      verdict arbiter filters subscriptionFlow = some .permit ∧
      coreOnly.glob freshWFP.enginesDir = some [] ∧
      ¬ Permitted coreOnly freshWFP [] subscriptionFlow := by
  obtain ⟨filters, made, permits⟩ := Option.map_eq_some_iff.mp
    (show (rules coreOnly freshWFP).map (fun filters => verdict arbiter filters subscriptionFlow) =
      some (some .permit) by decide)
  exact ⟨filters, made, permits, rfl, by decide⟩

end WFP

end Sora.Guard
