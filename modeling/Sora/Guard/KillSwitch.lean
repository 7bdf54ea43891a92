import Sora.Guard.Nftables

/-!
# The kill-switch policy on Linux

`killSwitchPolicy` states what the kill switch is for.  The rules that `NftRuleset` prints
decide every packet as the policy does, for every engine user, every list of bypass
networks and every list of blocked networks.
-/

namespace Sora.Guard

open Sora.Lib Sora.Lib.Nft Sora.Engine

/-! ## The policy -/

def throughTunnel (packet : Packet) : Prop :=
  packet.oifname = ascii "lo" ∨ packet.oifname = tunDevice

def isDNS (packet : Packet) : Prop :=
  (packet.l4proto = .tcp ∨ packet.l4proto = .udp) ∧ packet.dport = some 53

def isReply (states : List CtState) (packet : Packet) : Prop :=
  packet.direction = some .reply ∧ packet.state ∈ states

def goesTo (networks : List Prefix) (packet : Packet) : Prop :=
  ∃ network ∈ networks, network.contains packet.daddr = true

instance (packet : Packet) : Decidable (throughTunnel packet) := by
  unfold throughTunnel; infer_instance

instance (packet : Packet) : Decidable (isDNS packet) := by
  unfold isDNS; infer_instance

instance (states : List CtState) (packet : Packet) : Decidable (isReply states packet) := by
  unfold isReply; infer_instance

instance (networks : List Prefix) (packet : Packet) : Decidable (goesTo networks packet) := by
  unfold goesTo; infer_instance

/-- The kill switch: loopback and the tunnel are open; tunnel destinations stay inside it
even for the engine; the engine reaches its servers; DNS of others stays inside; replies
in the given conntrack states and the bypass networks stay reachable; all else is cut. -/
def killSwitchPolicy (replies : List CtState) (engineUID : Nat) (bypass blocked : List Prefix)
    (packet : Packet) : Verdict :=
  if throughTunnel packet then .accept
  else if goesTo (legacyFakeIPNetwork :: blocked) packet then .drop
  else if packet.skuid = some engineUID then .accept
  else if isDNS packet then .drop
  else if isReply replies packet ∨ goesTo bypass packet then .accept
  else .drop

/-! ## The rules enforce it -/

variable {packet : Packet}

theorem findSome_networks {rule : Prefix → Rule} {v : Verdict} (each : ∀ network, (rule network).run
    packet = if network.contains packet.daddr = true then some v else none) (networks : List Prefix) :
    (networks.map rule).findSome? (Rule.run packet) =
      if goesTo networks packet then some v else none := by
  induction networks with
  | nil => simp [goesTo]
  | cons network networks ih =>
    by_cases inside : network.contains packet.daddr = true
    · simp [goesTo, each, inside]
    · simpa [goesTo, each, inside] using ih

theorem run_blockedRule (packet : Packet) (network : Prefix) :
    (blockedRule network).run packet =
      if network.contains packet.daddr = true then some .drop else none := by
  cases inside : network.contains packet.daddr <;>
    simp [blockedRule, inside]

theorem run_bypassRule (packet : Packet) (network : Prefix) :
    (bypassRule network).run packet =
      if network.contains packet.daddr = true then some .accept else none := by
  cases inside : network.contains packet.daddr <;>
    simp [bypassRule, inside]

theorem findSome_interfaces (packet : Packet) :
    interfaceRules.findSome? (Rule.run packet) =
      if throughTunnel packet then some .accept else none := by
  by_cases loopback : packet.oifname = ascii "lo"
  · simp [interfaceRules, throughTunnel, loopback]
  · by_cases tunnel : packet.oifname = tunDevice
    · have distinct : tunDevice ≠ ascii "lo" := by decide
      simp [interfaceRules, throughTunnel, tunnel, distinct]
    · simp [interfaceRules, throughTunnel, loopback]

theorem run_engineRule (uid : Nat) (packet : Packet) :
    (engineRule uid).run packet = if packet.skuid = some uid then some .accept else none := by
  simp [engineRule]

theorem run_dnsRule (packet : Packet) :
    dnsRule.run packet = if isDNS packet then some .drop else none := by
  by_cases proto : packet.l4proto = .tcp ∨ packet.l4proto = .udp
  · simp [dnsRule, isDNS, proto]
  · simp [dnsRule, isDNS, proto]

theorem run_repliesRule (packet : Packet) :
    repliesRule.run packet =
      if isReply [.established, .related] packet then some .accept else none := by
  by_cases reply : packet.direction = some .reply <;>
    simp [repliesRule, isReply, reply]

/-- The first terminal verdict of the rules is the policy's. -/
theorem verdict_nftRules (uid : Nat) (bypass blocked : List Prefix) (packet : Packet) :
    Chain.verdict ⟨.accept, nftRules uid bypass blocked⟩ packet =
      killSwitchPolicy [.established, .related] uid bypass blocked packet := by
  unfold Chain.verdict nftRules killSwitchPolicy
  simp only [List.findSome?_append, findSome_interfaces,
    findSome_networks (run_blockedRule packet), findSome_networks (run_bypassRule packet),
    List.findSome?_cons, run_engineRule, run_dnsRule, run_repliesRule]
  split_ifs <;> simp_all [dropRule]

/-- Outside loopback and the tunnel another user's packet passes only as a reply or to a
bypass network, and never as DNS. -/
theorem reply_or_bypass_of_accept {replies : List CtState} {uid : Nat}
    {bypass blocked : List Prefix}
    (accepted : killSwitchPolicy replies uid bypass blocked packet = .accept)
    (outside : ¬throughTunnel packet) (foreign : packet.skuid ≠ some uid) :
    (isReply replies packet ∨ goesTo bypass packet) ∧ ¬isDNS packet := by
  rw [killSwitchPolicy] at accepted
  split_ifs at accepted with _ dns passes
  exact ⟨passes, dns⟩

/-- The rule file enforces the kill-switch policy for every packet.  In particular no
packet of a user other than the engine's leaves outside loopback and the tunnel unless it
is a reply or goes to a bypass network, and is not DNS. -/
theorem nftRuleset_enforces_kill_switch (engineUID : Nat) (goInt : engineUID < 2 ^ 63)
    (bypass : List BypassNetwork) (blocked : List Prefix) :
    ∃ table, (nftRuleset engineUID (bypass.map (·.text)) blocked).bind readTable = some table ∧
      ∀ packet,
        table.chain.verdict packet = killSwitchPolicy [.established, .related] engineUID
          ((effectiveBypass bypass).map (·.network)) blocked packet ∧
        (table.chain.verdict packet = .accept → ¬throughTunnel packet →
          packet.skuid ≠ some engineUID →
          (isReply [.established, .related] packet ∨
            goesTo ((effectiveBypass bypass).map (·.network)) packet) ∧ ¬isDNS packet) := by
  refine ⟨_, readTable_nftRuleset goInt bypass blocked, fun packet =>
    ⟨verdict_nftRules _ _ _ packet, fun accepted outside foreign => ?_⟩⟩
  rw [verdict_nftRules] at accepted
  exact reply_or_bypass_of_accept accepted outside foreign

theorem nftRuleset_enforces_kill_switch_root :
    ∃ table, (nftRuleset (0 : Nat) [] []).bind readTable = some table ∧
      ∀ packet,
        table.chain.verdict packet = killSwitchPolicy [.established, .related] 0
          ((effectiveBypass []).map (·.network)) [] packet ∧
        (table.chain.verdict packet = .accept → ¬throughTunnel packet →
          packet.skuid ≠ some 0 →
          (isReply [.established, .related] packet ∨
            goesTo ((effectiveBypass []).map (·.network)) packet) ∧ ¬isDNS packet) :=
  nftRuleset_enforces_kill_switch 0 (by decide) [] []

/-- An error message about a reply to an incoming connection, sent to a public address. -/
def relatedReply : Packet where
  oifname := ascii "eth0"
  daddr := ⟨.v4, 8 * 2 ^ 24 + 8 * 2 ^ 16 + 8 * 2 ^ 8 + 8, by decide⟩
  l4proto := .other 1
  dport := none
  skuid := none
  direction := some .reply
  state := .related

/-- The rules also let related replies through, not only established ones. -/
theorem related_reply_leaves :
    ¬∀ (engineUID : Nat) (bypass : List BypassNetwork) (blocked : List Prefix) (table : Table)
        (packet : Packet), engineUID < 2 ^ 63 →
      (nftRuleset engineUID (bypass.map (·.text)) blocked).bind readTable = some table →
      table.chain.verdict packet = killSwitchPolicy [.established] engineUID
        ((effectiveBypass bypass).map (·.network)) blocked packet := by
  intro claimed
  have same := claimed 0 [] [] _ relatedReply (by decide) (readTable_nftRuleset (by decide) [] [])
  exact absurd same (by decide)

end Sora.Guard
