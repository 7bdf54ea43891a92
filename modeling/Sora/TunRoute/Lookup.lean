import Sora.TunRoute.Steps

/-!
# Where the rules send traffic

The way of a packet through the installed rules.  The engine's own traffic is decided by the
main table as long as that has a route for it, and name queries of other users by the table
of the tunnel or, past the exemptions for foreign interfaces, by the main table.
-/

namespace Sora.TunRoute

open Sora.Lib Sora.Lib.Route Sora.Engine Option
open List hiding lookup

/-! ## Single rules -/

theorem host_contains (ip x : IP) : (host ip).contains x = true ↔ x = ip := by
  constructor
  · intro inside
    simp only [Prefix.contains, host, IP.top, Bool.and_eq_true, beq_iff_eq] at inside
    obtain ⟨family, value⟩ := inside
    rw [family, Nat.sub_self, Nat.pow_zero, Nat.div_one, Nat.div_one] at value
    exact IP.ext family.symm value.symm
  · rintro rfl
    simp [Prefix.contains, host]

variable {source : IP} {flow : Flow} {uid : UInt32} {other transport : Nat}
    {tables : Nat → List Route} {mask : Option Nat} {family : Family}

theorem returnRule_applies : (returnRule source).applies flow = true ↔ flow.src = some source := by
  cases from_ : flow.src with
  | none => simp [Rule.applies, from_]
  | some x => simp [Rule.applies, from_, host_contains]

theorem engineRule_applies : (engineRule uid).applies flow = true ↔ flow.uid = some uid.toNat := by
  cases owner : flow.uid with
  | none => simp [Rule.applies, owner]
  | some x =>
    simp only [Rule.applies, engineRule_src, engineRule_dst, engineRule_iif, engineRule_oif,
      engineRule_uids, engineRule_ipproto, engineRule_dport, engineRule_other, owner,
      all_none, all_some, any_some, all_nil, Bool.and_true,
      Bool.true_and, Bool.and_eq_true, decide_eq_true_eq, Option.some.injEq]
    exact ⟨fun both => Nat.le_antisymm both.2 both.1, fun same => ⟨same.ge, same.le⟩⟩

/-- A name query of a local socket over one of the transports. -/
structure Query (flow : Flow) (transport : Nat) : Prop where
  here : flow.iif = ascii "lo"
  carried : flow.ipproto = transport
  port : flow.dport = some 53

theorem dnsRule_applies (query : Query flow transport) (mask : Option Nat) :
    (dnsRule mask other).applies flow = (other == transport) := by
  simp [Rule.applies, portHolds, query.here, query.carried, query.port]

theorem dnsBypassRule_applies (query : Query flow transport) (mask : Option Nat) :
    (dnsBypassRule mask other).applies flow = (other == transport) := by
  simp [Rule.applies, portHolds, query.here, query.carried, query.port]

/-! ## The engine's traffic -/

/-- The adapter with its usual addresses on a machine without other interfaces, and an engine
that runs as root. -/
def plainInstallation : Installation where
  tun := { ipv4 := none, ipv6 := none, enabled := true, deviceName := tunDevice }
  named := .of_all rfl
  inet := by simp
  inet6 := by simp
  uid := 0
  interfaces := []
  ipv6 := true

/-- A machine with IPv4 only: no route for any IPv6 destination. -/
def inet4Only : Kernel where
  rules := defaultRules
  tables family table :=
    if family = .v4 ∧ table = tableMain then
      [⟨⟨⟨.v4, 0, by decide⟩, 0, by decide⟩, .via (ascii "eth0")⟩]
    else []
  mask := none

/-- A packet of the engine to an address. -/
def engineFlow (dst : IP) : Flow where
  src := none
  dst := dst
  iif := ascii "lo"
  oif := none
  uid := some 0
  ipproto := 6
  dport := some 443

def server6 : IP := ⟨.v6, 0x20010db8 * 2 ^ 96 + 7, by decide⟩

theorem server4_lt : 203 * 2 ^ 24 + 113 * 2 ^ 8 + 7 < 2 ^ Family.v4.width := by decide

def server4 : IP := ⟨.v4, _, server4_lt⟩

/-- Past the exemptions: a query that reaches the second pair of its rules goes on at the
main table. -/
theorem resolve_dnsBypass (mask : Option Nat) (query : Query flow transport)
    (known : transport = 6 ∨ transport = 17) {exemptions : List Rule}
    (level : ∀ r ∈ exemptions, r.priority = 5337) (rest : List Rule) :
    resolve tables flow none
        (dnsBypassRule mask 17 :: dnsBypassRule mask 6 :: (exemptions ++ mainRule :: rest)) =
      resolve tables flow none (mainRule :: rest) := by
  have other : ∀ r ∈ exemptions, r.priority ≠ 5338 := by
    intro r member
    rw [level r member]
    decide
  rcases known with rfl | rfl
  · rw [resolve_skip (by rw [dnsBypassRule_applies query]; rfl)]
    exact resolve_goto rfl (by rw [dnsBypassRule_applies query]; rfl) other rfl
  · rw [← cons_append]
    refine resolve_goto rfl (by rw [dnsBypassRule_applies query]; rfl) ?_ rfl
    exact forall_mem_cons.mpr ⟨by simp, other⟩

/-- No exemption decides a query, whatever the tables hold. -/
theorem query_skips_exemptions (query : Query flow transport)
    (known : transport = 6 ∨ transport = 17) {exemptions : List Rule}
    (level : ∀ r ∈ exemptions, r.priority = 5337) {found : Rule × Hop} (decided : resolve tables
    flow none (headRules mask source uid ++ exemptions ++ tailRules family) = some found) :
    found.1.priority ≠ 5337 := by
  iterate 5
    rcases resolve_lookup rfl decided with here | decided
    · simp [here]
  have passed := (resolve_dnsBypass mask query known level _).symm.trans decided
  rcases mem_cons.mp (resolve_spec passed).1 with here | later
  · simp [here]
  rcases mem_cons.mp later with here | last
  · simp [here]
  · have far := lastRules_priority _ last
    omega

/-- The first rules that apply to a query of another user look up the table of the tunnel. -/
theorem query_finds_tunnel (query : Query flow transport) (known : transport = 6 ∨ transport = 17)
    (others : flow.uid ≠ some uid.toNat) (away : lookup (tables tableLocal) flow = none)
    {route : Route} (finds : lookup (tables 5340) flow = some route) (rest : List Rule) :
    ∃ rule hop, resolve tables flow none (headRules mask source uid ++ rest) = some (rule, hop) ∧
      rule.action = .lookup 5340 := by
  have sends : ∀ rule : Rule, rule.applies flow = true → rule.action = .lookup 5340 →
      rule.suppress = none → rule.hop tables flow = some route.hop := by
    intro rule applies looks open_
    simp [Rule.hop, applies, looks, finds, Rule.suppresses, open_]
  have falls : localRule.hop tables flow = none := by simp [Rule.hop, away]
  have engine : (engineRule uid).applies flow = false :=
    Bool.eq_false_iff.mpr fun applies => others (engineRule_applies.mp applies)
  rw [headRules, cons_append, resolve_fall rfl falls, cons_append]
  by_cases own : (returnRule source).applies flow = true
  · exact ⟨_, _, resolve_here (sends _ own rfl rfl), rfl⟩
  rw [resolve_skip (Bool.eq_false_iff.mpr own), cons_append, resolve_skip engine, cons_append]
  rcases known with rfl | rfl
  · rw [resolve_skip (by rw [dnsRule_applies query]; rfl)]
    exact ⟨_, _, resolve_here (sends _ (by rw [dnsRule_applies query]; rfl) rfl rfl), rfl⟩
  · exact ⟨_, _, resolve_here (sends _ (by rw [dnsRule_applies query]; rfl) rfl rfl), rfl⟩

/-- The route to everywhere that the table of the tunnel holds. -/
def defaultRoute (family : Family) (device : Bytes) : Route := ⟨anywhere family, .via device⟩

/-- It is there for every socket that is not bound to another device. -/
theorem lookup_defaultRoute {device : Bytes} (same : flow.dst.family = family)
    (unbound : ∀ d, flow.oif = some d → d = device) :
    lookup [defaultRoute family device] flow = some (defaultRoute family device) := by
  have everywhere : (defaultRoute family device).dst.contains flow.dst = true := by
    subst same
    simp [Prefix.contains, defaultRoute, anywhere, IP.top, Nat.div_eq_of_lt flow.dst.lt]
  have admits : (defaultRoute family device).admits flow = true := by
    rw [Route.admits, everywhere]
    cases bound : flow.oif with
    | none => rfl
    | some d => simp [defaultRoute, unbound d bound]
  have kept : [defaultRoute family device].filter (·.admits flow) = [defaultRoute family device] := by
    simp [admits]
  rw [lookup, kept]
  rfl

/-- After the installation, for every set of interfaces and addresses and every content of the
other tables: a TCP or UDP query of another user to an address that is not the machine's own is
decided by the table of the tunnel while that holds its route, if its socket is not bound to
another device; and whatever that table holds, no exemption decides a query. -/
theorem queries_stay_in_tunnel (i : Installation) (k k' : Kernel) (lines : List Bytes)
    (clean : k.rules = defaultRules) (made : i.lines = some lines) (done : k.run lines = some k')
    (family : Family) (present : family ∈ families i.ipv6) (tables : Nat → List Route)
    (flow : Flow) (inside : flow.dst.family = family) (transport : Nat)
    (known : transport = 6 ∨ transport = 17) (query : Query flow transport)
    (others : flow.uid ≠ some i.uid.toNat) (away : lookup (tables tableLocal) flow = none) :
    (tables 5340 = [defaultRoute family i.tun.deviceName] →
      (∀ device, flow.oif = some device → device = i.tun.deviceName) →
      ∃ rule hop, resolve tables flow none (k'.rules family) = some (rule, hop) ∧
        rule.action = .lookup 5340) ∧
    ∀ rule hop, resolve tables flow none (k'.rules family) = some (rule, hop) →
      rule.priority ≠ 5337 := by
  rw [installed_rules i clean made done present]
  refine ⟨fun holds unbound => ?_, fun rule hop decided => ?_⟩
  · have finds := lookup_defaultRoute inside unbound
    rw [← holds] at finds
    exact query_finds_tunnel query known others away finds _
  · exact query_skips_exemptions query known i.exemptions_priority decided

/-- A resolver of another user, bound to a device or not. -/
def queryFlow (oif : Option Bytes) : Flow where
  src := none
  dst := server4
  iif := ascii "lo"
  oif := oif
  uid := some 1000
  ipproto := 17
  dport := some 53

/-- Bound to the physical device, the query leaves by the main table although the table of the
tunnel holds its route. -/
theorem bound_query_leaves_tunnel :
    ∃ lines k' rule, plainInstallation.lines = some lines ∧ inet4Only.run lines = some k' ∧
      k'.tables .v4 5340 = [defaultRoute .v4 tunDevice] ∧
      resolve (k'.tables .v4) (queryFlow (some (ascii "eth0"))) none (k'.rules .v4) =
        some (rule, .via (ascii "eth0")) ∧ rule.action = .lookup tableMain := by
  obtain ⟨k', ran, shows⟩ := map_eq_some_iff.mp
    (show (plainInstallation.lines.bind inet4Only.run).map
      (fun k => (k.tables .v4 5340,
        resolve (k.tables .v4) (queryFlow (some (ascii "eth0"))) none (k.rules .v4))) =
        some ([defaultRoute .v4 tunDevice], some (lastMainRule, .via (ascii "eth0")))
      by decide)
  obtain ⟨lines, made, done⟩ := bind_eq_some_iff.mp ran
  obtain ⟨holds, decided⟩ := Prod.mk.inj shows
  exact ⟨lines, k', _, made, done, holds, decided, rfl⟩

theorem unbound_query_enters_tunnel :
    ∃ lines k' rule hop, plainInstallation.lines = some lines ∧ inet4Only.run lines = some k' ∧
      resolve (k'.tables .v4) (queryFlow none) none (k'.rules .v4) = some (rule, hop) ∧
      rule.action = .lookup 5340 := by
  obtain ⟨k', ran, shows⟩ := map_eq_some_iff.mp
    (show (plainInstallation.lines.bind inet4Only.run).map
      (fun k => (k.tables .v4 5340, lookup (k.tables .v4 tableLocal) (queryFlow none))) =
        some ([defaultRoute .v4 tunDevice], none) by decide)
  obtain ⟨lines, made, done⟩ := bind_eq_some_iff.mp ran
  obtain ⟨holds, away⟩ := Prod.mk.inj shows
  obtain ⟨enters, -⟩ := queries_stay_in_tunnel plainInstallation inet4Only k' lines rfl made done .v4
    (by decide) (k'.tables .v4) (queryFlow none) rfl 17 (.inr rfl) ⟨rfl, rfl, rfl⟩ (by decide) away
  obtain ⟨rule, hop, decided, looks⟩ := enters holds (by simp [queryFlow])
  exact ⟨lines, k', rule, hop, made, done, decided, looks⟩

end Sora.TunRoute
