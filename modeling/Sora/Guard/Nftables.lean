import Sora.Engine.Tun
import Sora.Lib.Nft

/-!
# The nftables kill switch

The rule file that the Linux guard feeds to `nft` (`nftRuleset`), as the bytes the source
prints, and what the printed rules do to a packet: the text is read back rule by rule and
its verdict is the documented policy for every packet.
-/

namespace Sora.Guard

open Sora.Lib Sora.Lib.Nft Sora.Engine List Nat

/-! ## Printing -/

def nftTable : Bytes := ascii "sora"

def nftChain : Bytes := ascii "output"

/-- Old fake addresses may remain in application caches after an upgrade:
`172.19.0.0/16`. -/
def legacyFakeIPNetwork : Prefix := ⟨⟨.v4, 172 * 2 ^ 24 + 19 * 2 ^ 16, by decide⟩, 16, by decide⟩

/-- The digit loop of `itoa` over a buffer with `index` free bytes at its front; running
out of them is an index panic. -/
def itoaLoop : Nat → Nat → Bytes → Option (Nat × Bytes)
  | index, 0, digits => some (index, digits)
  | 0, _ + 1, _ => none
  | index + 1, value + 1, digits =>
    itoaLoop index ((value + 1) / 10) (digitByte ((value + 1) % 10) :: digits)

def itoa (value : Int) : Option Bytes :=
  if value = 0 then some (ascii "0")
  else do
    -- negating the least Go integer wraps around, and its loop does not run
    let magnitude := if value = -2 ^ 63 then 0 else value.natAbs
    let (index, digits) ← itoaLoop 20 magnitude []
    if value < 0 then if index = 0 then none else some (45 :: digits) else some digits

def defaultBypassNetworks : List Bytes :=
  [ascii "127.0.0.0/8", ascii "10.0.0.0/8", ascii "172.16.0.0/12", ascii "192.168.0.0/16",
    ascii "169.254.0.0/16", ascii "fc00::/7", ascii "fe80::/10"]

def familyWord : Family → Bytes
  | .v4 => ascii "ip"
  | .v6 => ascii "ip6"

/-- The family a bypass network is matched against; what is neither a network nor an
address is printed as IPv4. -/
def bypassFamily (network : Bytes) : Family :=
  if (parsePrefix network).any (·.ip.family == .v6) then .v6
  else if (parseAddr network).any (·.1.family == .v6) then .v6
  else .v4

def blockedLine (network : Prefix) : Bytes :=
  ascii "\t\t" ++ familyWord network.ip.family ++ ascii " daddr " ++ formatPrefix network.masked ++
    ascii " counter drop comment \"sora: tunnel destination outside the tunnel\"\n"

def bypassLine (network : Bytes) : Bytes :=
  ascii "\t\t" ++ familyWord (bypassFamily network) ++ ascii " daddr " ++ network ++
    ascii " accept comment \"sora: local network bypass\"\n"

def openingLines : Bytes :=
  ascii "table inet " ++ nftTable ++ ascii " \x7b\n" ++
  ascii "\tchain " ++ nftChain ++ ascii " \x7b\n" ++
  ascii "\t\ttype filter hook output priority filter; policy accept;\n"

def loopbackLine : Bytes :=
  ascii "\t\toif lo accept comment \"sora: the local engine is on loopback\"\n"

def tunnelLine : Bytes :=
  ascii "\t\toifname \"" ++ tunDevice ++ ascii "\" accept comment \"sora: through the tunnel\"\n"

def engineLine (uid : Bytes) : Bytes :=
  ascii "\t\tmeta skuid " ++ uid ++
    ascii " accept comment \"sora: the engine keeps its own traffic\"\n"

def dnsLine : Bytes :=
  ascii "\t\tmeta l4proto \x7b tcp, udp \x7d th dport 53 counter drop comment \"sora: DNS outside the tunnel\"\n"

def repliesLine : Bytes :=
  ascii "\t\tct direction reply ct state established,related accept comment \"sora: replies to incoming connections\"\n"

def dropLine : Bytes := ascii "\t\tcounter drop comment \"sora: kill switch\"\n"

def closingLines : Bytes := ascii "\t\x7d\n" ++ ascii "\x7d\n"

/-- The rules in the order in which `NftRuleset` writes them. -/
def ruleLines (uid : Bytes) (networks : List Bytes) (blocked : List Prefix) : Bytes :=
  loopbackLine ++ tunnelLine ++ (legacyFakeIPNetwork :: blocked).flatMap blockedLine ++
    engineLine uid ++ dnsLine ++ repliesLine ++ networks.flatMap bypassLine ++ dropLine

/-- `NftRuleset`. -/
def nftRuleset (engineUID : Int) (bypass : List Bytes) (blocked : List Prefix) : Option Bytes := do
  let networks := if bypass.length = 0 then defaultBypassNetworks else bypass
  let uid ← itoa engineUID
  some (openingLines ++ (ruleLines uid networks blocked ++ closingLines))

/-- `NftRemove`. -/
def nftRemove : Bytes := ascii "delete table inet " ++ nftTable ++ ascii "\n"

example : parsePrefix (ascii "172.19.0.0/16") = some legacyFakeIPNetwork := rfl

/-! ## Reading what is printed -/

/-- The loop prints the digits as long as they fit into the free part of the buffer. -/
theorem itoaLoop_eq {index value : Nat} (fits : (Nat.digits 10 value).length ≤ index)
    (digits : Bytes) :
    itoaLoop index value digits = some (index - (Nat.digits 10 value).length,
      (Nat.digits 10 value).reverse.map digitByte ++ digits) := by
  induction index generalizing value digits with
  | zero =>
    have zero : value = 0 := by
      have empty := eq_nil_of_length_eq_zero (le_zero.mp fits)
      exact digits_eq_nil_iff_eq_zero.mp empty
    subst zero
    rfl
  | succ index ih =>
    cases value with
    | zero => simp [itoaLoop]
    | succ value =>
      rw [itoaLoop, ih (by simpa using fits)]
      simp

/-- Twenty bytes hold every Go integer. -/
theorem itoa_natCast {n : Nat} (bound : n < 2 ^ 63) : itoa n = some (numeral 10 n) := by
  unfold itoa numeral
  by_cases zero : n = 0
  · subst zero
    rfl
  · have fits : (digits 10 n).length ≤ 20 := by
      rw [digits_length_le_iff (by decide)]
      omega
    rw [if_neg (by omega), if_neg zero]
    simp [itoaLoop_eq fits]

variable {c : UInt8} {w : Bytes} {rest : Rule} {uid : Nat}

theorem wordByte_of_netByte (alphabet : netByte c = true) : wordByte c = true := by
  by_contra special
  have cases : c ∈ [32, 9, 34, 10, 44, 59, 123, 125] := by
    grind [wordByte, isBlank, isPunct]
  simp only [mem_cons, not_mem_nil, or_false] at cases
  rcases cases with rfl | rfl | rfl | rfl | rfl | rfl | rfl | rfl <;> cases alphabet

theorem wordByte_of_isDigit (digit : isDigit 10 c = true) : wordByte c = true :=
  wordByte_of_netByte (netByte_of_addrByte (addrByte_of_isDigit 10 (by decide) digit))

/-- A line of two fixed parts with a word between them. -/
theorem areLines_word {before : Bytes} (after : Bytes) (ts us : List Token)
    (start : LexesTo before ts) (nonempty : w ≠ []) (plain : ∀ c ∈ w, wordByte c = true)
    (finish : LexesTo after (us ++ [lineEnd])) (closed : lineEnd ∉ ts ++ us) :
    AreLines (before ++ w ++ 32 :: after) [ts ++ .word w :: us] where
  lexes := by
    have whole := (start.append (LexesTo.word nonempty plain)).append finish
    simpa [joinLines] using whole
  closed := by
    simpa [lineEnd] using closed

theorem readRule_daddr {network : Prefix} (read : parseNetwork w = some network)
    {tokens : List Token} (readRest : readRule tokens = some rest) :
    readRule (.word (familyWord network.ip.family) :: .word (ascii "daddr") :: .word w :: tokens) =
      some (.condition (.daddr network) :: rest) := by
  have reads : readNetwork network.ip.family w = some network := by simp [readNetwork, read]
  refine readRule_cons tokens ?_ (by simp; omega) readRest
  cases family : network.ip.family with
  | v4 =>
    change matching .daddr (readWord (readNetwork .v4) (.word w :: tokens)) = _
    rw [family] at reads
    simp [matching, readWord, reads]
  | v6 =>
    change matching .daddr (readWord (readNetwork .v6) (.word w :: tokens)) = _
    rw [family] at reads
    simp [matching, readWord, reads]

/-- A line that matches a destination, whatever it does then. -/
theorem isRule_daddr {network : Prefix} (read : parseNetwork w = some network) (after : Bytes)
    (tokens : List Token) (checks : LexesTo after (tokens ++ [lineEnd]) ∧ lineEnd ∉ tokens ∧
    readRule tokens = some rest) :
    IsRule (ascii "\t\t" ++ familyWord network.ip.family ++ ascii " daddr " ++ w ++ 32 :: after)
      (.condition (.daddr network) :: rest) := by
  obtain ⟨finish, closed, readRest⟩ := checks
  refine ⟨_, areLines_word after [.word (familyWord network.ip.family), .word (ascii "daddr")] tokens
    ?_ (ne_nil_of_parseNetwork read)
    (fun c member => wordByte_of_netByte (netByte_of_parseNetwork read c member)) finish ?_,
    readRule_daddr read readRest⟩
  · cases network.ip.family <;> rfl
  · cases network.ip.family <;> simpa [lineEnd] using closed

/-- A fixed line. -/
theorem isRule_literal {text : Bytes} (tokens : List Token) {rule : Rule}
    (checks : LexesTo text (tokens ++ [lineEnd]) ∧ lineEnd ∉ tokens ∧
      readRule tokens = some rule) : IsRule text rule := by
  obtain ⟨lexes, closed, read⟩ := checks
  exact ⟨tokens, ⟨by simpa [joinLines] using lexes, by simpa using closed⟩, read⟩

/-- A network of the bypass list: a text that Go reads as a network or an address. -/
structure BypassNetwork where
  text : Bytes
  reads : (parseNetwork text).isSome = true

def BypassNetwork.network (b : BypassNetwork) : Prefix := (parseNetwork b.text).get b.reads

theorem BypassNetwork.parse (b : BypassNetwork) : parseNetwork b.text = some b.network :=
  (Option.some_get b.reads).symm

/-- The networks that stay reachable when no others are given. -/
def defaultBypass : List BypassNetwork :=
  [⟨ascii "127.0.0.0/8", by decide⟩, ⟨ascii "10.0.0.0/8", by decide⟩,
    ⟨ascii "172.16.0.0/12", by decide⟩, ⟨ascii "192.168.0.0/16", by decide⟩,
    ⟨ascii "169.254.0.0/16", by decide⟩, ⟨ascii "fc00::/7", by decide⟩,
    ⟨ascii "fe80::/10", by decide⟩]

def effectiveBypass (bypass : List BypassNetwork) : List BypassNetwork :=
  if bypass.length = 0 then defaultBypass else bypass

theorem ite_eq_v6 (f : Family) : (if f = .v6 then Family.v6 else .v4) = f := by
  cases f <;> rfl

/-- The printed family is the family of the network. -/
theorem bypassFamily_eq (b : BypassNetwork) : bypassFamily b.text = b.network.ip.family := by
  have parse := b.parse
  unfold parseNetwork at parse
  split at parse
  · rename_i p readPrefix
    cases parse
    simp [bypassFamily, readPrefix, parseAddr_eq_none_of_parsePrefix readPrefix, ite_eq_v6]
  · rename_i notPrefix
    split at parse
    · rename_i ip readIP
      have same := congrArg (Prefix.ip ·) (Option.some.inj parse)
      simp [bypassFamily, notPrefix, readIP, ← same, ite_eq_v6, host]
    · cases parse

/-! ## The rules -/

def blockedRule (network : Prefix) : Rule :=
  [.condition (.daddr network.masked), .counter, .verdict .drop,
    .comment (ascii "sora: tunnel destination outside the tunnel")]

def bypassRule (network : Prefix) : Rule :=
  [.condition (.daddr network), .verdict .accept, .comment (ascii "sora: local network bypass")]

def engineRule (uid : Nat) : Rule :=
  [.condition (.skuid uid), .verdict .accept,
    .comment (ascii "sora: the engine keeps its own traffic")]

def interfaceRules : List Rule :=
  [[.condition (.oif (ascii "lo")), .verdict .accept,
      .comment (ascii "sora: the local engine is on loopback")],
    [.condition (.oifname tunDevice), .verdict .accept, .comment (ascii "sora: through the tunnel")]]

def dnsRule : Rule :=
  [.condition (.l4proto [.tcp, .udp]), .condition (.dport 53), .counter, .verdict .drop,
    .comment (ascii "sora: DNS outside the tunnel")]

def repliesRule : Rule :=
  [.condition (.direction .reply), .condition (.state [.established, .related]), .verdict .accept,
    .comment (ascii "sora: replies to incoming connections")]

def dropRule : Rule := [.counter, .verdict .drop, .comment (ascii "sora: kill switch")]

def nftRules (uid : Nat) (bypass blocked : List Prefix) : List Rule :=
  interfaceRules ++ (legacyFakeIPNetwork :: blocked).map blockedRule ++ [engineRule uid] ++
    [dnsRule] ++ [repliesRule] ++ bypass.map bypassRule ++ [dropRule]

theorem isRule_blockedLine (network : Prefix) : IsRule (blockedLine network) (blockedRule network) :=
  isRule_daddr (parseNetwork_formatPrefix network.masked)
    (ascii "counter drop comment \"sora: tunnel destination outside the tunnel\"\n")
    [.word (ascii "counter"), .word (ascii "drop"), .word (ascii "comment"),
      .quoted (ascii "sora: tunnel destination outside the tunnel")] (by decide)

theorem isRule_bypassLine (b : BypassNetwork) :
    IsRule (bypassLine b.text) (bypassRule b.network) := by
  rw [bypassLine, bypassFamily_eq]
  exact isRule_daddr b.parse
    (ascii "accept comment \"sora: local network bypass\"\n")
    [.word (ascii "accept"), .word (ascii "comment"),
      .quoted (ascii "sora: local network bypass")] (by decide)

theorem isRule_engineLine (bound : uid < 2 ^ 63) :
    IsRule (engineLine (numeral 10 uid)) (engineRule uid) := by
  refine ⟨_, areLines_word
    (ascii "accept comment \"sora: the engine keeps its own traffic\"\n")
    [.word (ascii "meta"), .word (ascii "skuid")]
    [.word (ascii "accept"), .word (ascii "comment"),
      .quoted (ascii "sora: the engine keeps its own traffic")]
    rfl numeral_ne_nil
    (fun c member => wordByte_of_isDigit (isDigit_of_mem_numeral (by decide) (by decide) c member))
    rfl (by decide), ?_⟩
  refine readRule_cons [.word (ascii "accept"), .word (ascii "comment"),
    .quoted (ascii "sora: the engine keeps its own traffic")] ?_ (by simp) (by decide)
  have reads : readNumber (2 ^ 63 - 1) (numeral 10 uid) = some uid :=
    readNumber_numeral (by omega)
  change matching .skuid (readWord (readNumber (2 ^ 63 - 1)) (.word (numeral 10 uid) :: _)) = _
  rw [readWord, reads]
  rfl

theorem areRules_interfaceLines : AreRules (loopbackLine ++ tunnelLine) interfaceRules :=
  .append
    (.one (isRule_literal [.word (ascii "oif"), .word (ascii "lo"),
      .word (ascii "accept"), .word (ascii "comment"),
      .quoted (ascii "sora: the local engine is on loopback")]
      (by decide)))
    (.one (isRule_literal [.word (ascii "oifname"), .quoted (ascii "sora0"),
      .word (ascii "accept"), .word (ascii "comment"), .quoted (ascii "sora: through the tunnel")]
      (by decide)))

theorem isRule_dnsLine : IsRule dnsLine dnsRule :=
  isRule_literal [.word (ascii "meta"), .word (ascii "l4proto"), .punct 123,
    .word (ascii "tcp"), .punct 44, .word (ascii "udp"), .punct 125, .word (ascii "th"),
    .word (ascii "dport"), .word (ascii "53"), .word (ascii "counter"), .word (ascii "drop"),
    .word (ascii "comment"), .quoted (ascii "sora: DNS outside the tunnel")]
    (by decide)

theorem isRule_repliesLine : IsRule repliesLine repliesRule :=
  isRule_literal [.word (ascii "ct"), .word (ascii "direction"), .word (ascii "reply"),
    .word (ascii "ct"), .word (ascii "state"), .word (ascii "established"), .punct 44,
    .word (ascii "related"), .word (ascii "accept"), .word (ascii "comment"),
    .quoted (ascii "sora: replies to incoming connections")]
    (by decide)

theorem isRule_dropLine : IsRule dropLine dropRule :=
  isRule_literal [.word (ascii "counter"), .word (ascii "drop"),
    .word (ascii "comment"), .quoted (ascii "sora: kill switch")]
    (by decide)

theorem areRules_ruleLines (bound : uid < 2 ^ 63) (bypass : List BypassNetwork)
    (blocked : List Prefix) :
    AreRules (ruleLines (numeral 10 uid) (bypass.map (·.text)) blocked)
      (nftRules uid (bypass.map (·.network)) blocked) := by
  have bypassRules : AreRules ((bypass.map (·.text)).flatMap bypassLine)
      ((bypass.map (·.network)).map bypassRule) := by
    rw [flatMap_map, map_map]
    exact .flatMap fun b _ => isRule_bypassLine b
  exact ((((((areRules_interfaceLines.append
    (.flatMap fun network _ => isRule_blockedLine network)).append
    (.one (isRule_engineLine bound))).append (.one isRule_dnsLine)).append
    (.one isRule_repliesLine)).append bypassRules).append (.one isRule_dropLine))

/-- What `nft` reads from the printed text: the table, the hook with policy accept and the
rules in order. -/
theorem readTable_nftRuleset (bound : uid < 2 ^ 63) (bypass : List BypassNetwork)
    (blocked : List Prefix) :
    (nftRuleset uid (bypass.map (·.text)) blocked).bind readTable =
      some ⟨nftTable, nftChain, .accept,
        nftRules uid ((effectiveBypass bypass).map (·.network)) blocked⟩ := by
  have networks : (if (bypass.map (·.text)).length = 0 then defaultBypassNetworks
      else bypass.map (·.text)) = (effectiveBypass bypass).map (·.text) := by
    rw [length_map, effectiveBypass]
    split <;> rfl
  have printed : nftRuleset uid (bypass.map (·.text)) blocked = some (openingLines ++
      (ruleLines (numeral 10 uid) ((effectiveBypass bypass).map (·.text)) blocked ++
        closingLines)) := by
    rw [nftRuleset, networks, itoa_natCast bound]
    rfl
  rw [printed, Option.bind_some]
  exact readTable_of_lines (ascii "accept")
    ⟨by decide, by decide⟩ (by decide)
    (areRules_ruleLines bound _ blocked) ⟨by decide, by decide⟩

end Sora.Guard
