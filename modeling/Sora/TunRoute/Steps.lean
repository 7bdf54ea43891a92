import Sora.Engine.Tun
import Sora.Lib.PolicyRoute

/-!
# Installing the routes of the tunnel

The `ip` command lines that `route` runs, as the text the source prints, and the rules they
leave in each address family.
-/

namespace Sora.TunRoute

open Sora.Lib Sora.Lib.Route Sora.Engine List

/-! ## Command lines -/

def table : Bytes := ascii "5340"

def priorityBound : Bytes := ascii "5337"

def priorityForeign : Bytes := ascii "5337"

def priorityReturn : Bytes := ascii "5333"

def priorityEngine : Bytes := ascii "5334"

def priorityDNS : Bytes := ascii "5335"

def priorityDNSBypass : Bytes := ascii "5336"

def priorityMain : Bytes := ascii "5338"

def priorityTunnel : Bytes := ascii "5339"

def protocol : Bytes := ascii "242"

/-- The option of `ip` for an address family. -/
def flag : Family → Bytes
  | .v4 => ascii "-4"
  | .v6 => ascii "-6"

/-- `families`: without the file of the IPv6 addresses only IPv4. -/
def families (inet6 : Bool) : List Family := if inet6 then [.v4, .v6] else [.v4]

def familySteps (device : Bytes) (address : Prefix) (family : Family) : List Bytes :=
  let source := formatIP address.ip
  [flag family ++ ascii " addr replace " ++ formatPrefix address ++ ascii " dev " ++ device,
    flag family ++ ascii " route replace default dev " ++ device ++ ascii " src " ++ source ++
      ascii " table " ++ table,
    flag family ++ ascii " rule add from " ++ source ++ ascii " lookup " ++ table ++
      ascii " priority " ++ priorityReturn,
    flag family ++ ascii " rule add iif lo ipproto udp dport 53 lookup " ++ table ++
      ascii " priority " ++ priorityDNS,
    flag family ++ ascii " rule add iif lo ipproto tcp dport 53 lookup " ++ table ++
      ascii " priority " ++ priorityDNS,
    flag family ++ ascii " rule add iif lo ipproto udp dport 53 goto " ++ priorityMain ++
      ascii " priority " ++ priorityDNSBypass,
    flag family ++ ascii " rule add iif lo ipproto tcp dport 53 goto " ++ priorityMain ++
      ascii " priority " ++ priorityDNSBypass,
    flag family ++ ascii " rule add iif lo lookup main suppress_prefixlength 1 priority " ++
      priorityMain,
    flag family ++ ascii " rule add iif lo lookup " ++ table ++ ascii " priority " ++ priorityTunnel]

/-- `routeSteps`.  The source parses the addresses it has just printed. -/
def routeSteps (tun : Tun) (families : List Family) : Option (List Bytes) := do
  let addresses ← tun.addresses
  let steps ← families.mapM fun family => do
    let address ← if family = .v6 then addresses[1]? else addresses[0]?
    some (familySteps tun.deviceName address family)
  some steps.flatten

/-- `bypassSteps`. -/
def bypassSteps (device : Bytes) (addresses : List Prefix) (families : List Family) : List Bytes :=
  families.flatMap fun family =>
    (flag family ++ ascii " rule add oif " ++ device ++ ascii " lookup main priority " ++
        priorityBound) ::
      (addresses.filter fun p => (p.ip.family == .v4) == (family == .v4)).map fun p =>
        flag family ++ ascii " rule add from " ++ formatIP p.ip ++ ascii " lookup main priority " ++
          priorityForeign

/-- A network interface as `net.Interfaces` reports it. -/
structure Interface where
  name : Bytes
  solid : Solid name
  loopback : Bool
  pointToPoint : Bool
  addresses : List Prefix

def engineStep (uid : UInt32) (family : Family) : Bytes :=
  let owner := numeral 10 uid.toNat
  flag family ++ ascii " rule add uidrange " ++ owner ++ ascii "-" ++ owner ++
    ascii " lookup main priority " ++ priorityEngine

/-- The steps of `bypass`. -/
def bypass (device : Bytes) (uid : UInt32) (interfaces : List Interface) (families : List Family) :
    List Bytes :=
  ((interfaces.filter fun iface => !(iface.name == device || iface.loopback)).flatMap fun iface =>
    bypassSteps iface.name (if iface.pointToPoint then iface.addresses else []) families) ++
  families.map (engineStep uid)

/-- What `ip` is run with: rules carry the owner protocol.  Only steps that add rules contain
these words. -/
def tagged (step : Bytes) : Bytes :=
  if ascii " rule add " <:+: step then step ++ ascii " protocol " ++ protocol else step

/-! ## The rules they add -/

@[simps] def returnRule (source : IP) : Rule :=
  { priority := 5333, src := some (host source), action := .lookup 5340, protocol := 242 }

@[simps] def engineRule (uid : UInt32) : Rule :=
  { priority := 5334, uids := some (uid.toNat, uid.toNat), action := .lookup tableMain,
    protocol := 242 }

@[simps] def dnsRule (mask : Option Nat) (transport : Nat) : Rule :=
  { priority := 5335, iif := some (ascii "lo"), ipproto := some transport, dport := some 53,
    dportMask := mask, action := .lookup 5340, protocol := 242 }

@[simps] def dnsBypassRule (mask : Option Nat) (transport : Nat) : Rule :=
  { priority := 5336, iif := some (ascii "lo"), ipproto := some transport, dport := some 53,
    dportMask := mask, action := .goto 5338, protocol := 242 }

@[simps] def boundRule (device : Bytes) : Rule :=
  { priority := 5337, oif := some device, action := .lookup tableMain, protocol := 242 }

@[simps] def foreignRule (source : IP) : Rule :=
  { priority := 5337, src := some (host source), action := .lookup tableMain, protocol := 242 }

@[simps] def mainRule : Rule :=
  { priority := 5338, iif := some (ascii "lo"), action := .lookup tableMain, suppress := some 1,
    protocol := 242 }

@[simps] def tunnelRule : Rule :=
  { priority := 5339, iif := some (ascii "lo"), action := .lookup 5340, protocol := 242 }

def familyRules (mask : Option Nat) (source : IP) : List Rule :=
  [returnRule source, dnsRule mask 17, dnsRule mask 6, dnsBypassRule mask 17, dnsBypassRule mask 6,
    mainRule, tunnelRule]

/-- The exemptions for one interface. -/
def bypassRules (family : Family) (device : Bytes) (addresses : List Prefix) : List Rule :=
  boundRule device :: (addresses.filter (·.ip.family == family)).map fun p => foreignRule p.ip

/-! ## Reading the command lines -/

theorem solid_flag (family : Family) : Solid (flag family) := by
  cases family <;> exact .of_all rfl

variable {c : UInt8} {rule : Rule} {mask : Option Nat} {s : Selectors} {device : Bytes}
    {family : Family}

theorem parseNetwork_formatIP (ip : IP) : parseNetwork (formatIP ip) = some (host ip) := by
  have reads := parseAddr_formatIP ip
  have slashless : 47 ∉ formatIP ip := by
    intro slash
    have alphabet := addrByte_of_parseAddr reads 47 slash
    cases alphabet
  have alone : (formatIP ip).splitOn 47 = [formatIP ip] := splitOn_eq_singleton slashless
  rw [parseNetwork, parsePrefix, alone]
  simp only [reads]

theorem solid_of_parseNetwork {w : Bytes} {p : Prefix} (read : parseNetwork w = some p) : Solid w :=
  ⟨ne_nil_of_parseNetwork read, fun c member =>
    netByte_visible c (netByte_of_parseNetwork read c member)⟩

theorem solid_formatIP (ip : IP) : Solid (formatIP ip) :=
  solid_of_parseNetwork (parseNetwork_formatIP ip)

theorem readFamily_flag (family : Family) : readFamily (flag family) = some family := by
  cases family <;> rfl

theorem adds_rule (family other : Family) {line : Bytes} {words : List Bytes}
    (split : fields line = flag family :: ascii "rule" :: ascii "add" :: words)
    (read : readSelectors family {} words = some s) (made : s.rule mask = some rule) :
    Adds other mask [line] (if family = other then [rule] else []) := by
  have command : readCommand (fields line) = some (.ruleAdd family s) := by
    rw [split, readCommand, readFamily_flag, Option.bind_some, read]
    rfl
  have adds := Adds.cons command rfl (.nil : Adds other mask [] [])
  by_cases same : family = other
  · simpa [Command.adds, same, made] using adds
  · simpa [Command.adds, same] using adds

/-- A line of another object. -/
theorem adds_nothing (other : Family) (mask : Option Nat) {line : Bytes} {c : Command}
    (read : readCommand (fields line) = some c) (keeps : c.keeps = true)
    (silent : c.adds other mask = none) : Adds other mask [line] [] := by
  have adds := Adds.cons read keeps (.nil : Adds other mask [] [])
  simpa [silent] using adds

theorem tagged_of_rule {step : Bytes} (adds : ascii " rule add " <:+: step) :
    tagged step = step ++ ascii " protocol " ++ protocol := if_pos adds

/-- The words that mark a rule are whole words. -/
theorem infix_fields {step : Bytes} (adds : ascii " rule add " <:+: step) :
    [ascii "rule", ascii "add"] <:+: fields step := by
  obtain ⟨a, b, rfl⟩ := adds
  have words : fields (a ++ ascii " rule add " ++ b) =
      fields a ++ [ascii "rule", ascii "add"] ++ fields b := by
    have text : a ++ ascii " rule add " ++ b = a ++ 32 :: (ascii "rule add" ++ 32 :: b) := by
      simp only [append_assoc]
      rfl
    have blank : isSpace 32 = true := by decide
    rw [text, fields_append a _ blank]
    simp only [append_assoc]
    rfl
  rw [words]
  exact ⟨fields a, fields b, rfl⟩

theorem readSelectors_from {ip : IP} (rest : List Bytes) :
    readSelectors ip.family {} (ascii "from" :: formatIP ip :: rest) =
      readSelectors ip.family { src := some (host ip) } rest := by
  refine readSelectors_cons rfl ?_ rest
  have notAll : formatIP ip ≠ ascii "all" := by
    intro all
    have reads := parseNetwork_formatIP ip
    rw [all] at reads
    cases reads
  rw [readSelector, readSource, if_neg notAll, parseNetwork_formatIP]
  simp [host]

/-- A line that adds a rule and has one word that is not fixed. -/
theorem adds_selector (family other : Family) (key w after : Bytes) {line : Bytes} (text : line =
    flag family ++ 32 :: (ascii "rule add" ++ 32 :: (key ++ 32 :: (w ++ 32 :: after))))
    (keyword : Solid key) (solid : Solid w) (read : readSelectors family {} (key :: w :: fields
    (after ++ ascii " protocol 242")) = some s) (made : s.rule mask = some rule) :
    Adds other mask [tagged line] (if family = other then [rule] else []) := by
  refine adds_rule family other ?_ read made
  have blank : isSpace 32 = true := by decide
  have marked : tagged line = flag family ++ 32 :: (ascii "rule add" ++ 32 :: (key ++ 32 ::
      (w ++ 32 :: (after ++ ascii " protocol 242")))) := by
    have adds : ascii " rule add " <:+: line := by
      refine ⟨flag family, key ++ 32 :: (w ++ 32 :: after), ?_⟩
      rw [text, append_assoc]
      rfl
    rw [tagged_of_rule adds, text]
    simp only [append_assoc, cons_append]
    rfl
  rw [marked, fields_append _ _ blank, fields_append _ _ blank, fields_append _ _ blank,
    fields_append _ _ blank, fields_solid (solid_flag family), fields_solid keyword,
    fields_solid solid]
  rfl

theorem adds_return (other : Family) (mask : Option Nat) (ip : IP) :
    Adds other mask [tagged (flag ip.family ++ ascii " rule add from " ++ formatIP ip ++
        ascii " lookup " ++ table ++ ascii " priority " ++ priorityReturn)]
      (if ip.family = other then [returnRule ip] else []) := by
  refine adds_selector ip.family other (ascii "from") (formatIP ip)
    (ascii "lookup 5340 priority 5333") ?_ (.of_all rfl) (solid_formatIP ip)
    ((readSelectors_from _).trans rfl) rfl
  simp only [append_assoc]
  rfl

theorem adds_foreign (other : Family) (mask : Option Nat) (ip : IP) :
    Adds other mask [tagged (flag ip.family ++ ascii " rule add from " ++ formatIP ip ++
        ascii " lookup main priority " ++ priorityForeign)]
      (if ip.family = other then [foreignRule ip] else []) := by
  refine adds_selector ip.family other (ascii "from") (formatIP ip)
    (ascii "lookup main priority 5337") ?_ (.of_all rfl) (solid_formatIP ip)
    ((readSelectors_from _).trans rfl) rfl
  simp only [append_assoc]
  rfl

theorem adds_bound (family other : Family) (mask : Option Nat) (solid : Solid device) :
    Adds other mask [tagged (flag family ++ ascii " rule add oif " ++ device ++
        ascii " lookup main priority " ++ priorityBound)]
      (if family = other then [boundRule device] else []) := by
  refine adds_selector family other (ascii "oif") device
    (ascii "lookup main priority 5337") ?_ (.of_all rfl) solid rfl rfl
  simp only [append_assoc]
  rfl

theorem solid_numeral (base n : Nat) (lower : 1 < base) (upper : base ≤ 16) :
    Solid (numeral base n) :=
  ⟨numeral_ne_nil, fun c member => netByte_visible c (netByte_of_addrByte
    (addrByte_of_isDigit base upper (isDigit_of_mem_numeral lower upper c member)))⟩

theorem not_mem_numeral (other : isDigit 10 c = false) (n : Nat) : c ∉ numeral 10 n :=
  notMem_numeral (by decide) (by decide) other

theorem readRange_numeral {low high : Nat} (fits : low ≤ word32) (fits' : high ≤ word32) :
    readRange (numeral 10 low ++ 45 :: numeral 10 high) = some (low, high) := by
  have dashless := not_mem_numeral (c := 45) rfl
  rw [readRange, splitOn_append_cons_self_of_not_mem (dashless low),
    splitOn_eq_singleton (dashless high)]
  simp [readNumber_numeral fits, readNumber_numeral fits']

theorem adds_engine (family other : Family) (mask : Option Nat) (uid : UInt32) :
    Adds other mask [tagged (engineStep uid family)]
      (if family = other then [engineRule uid] else []) := by
  have read : readSelector family {} .uids (numeral 10 uid.toNat ++ 45 :: numeral 10 uid.toNat) =
      some { uids := some (uid.toNat, uid.toNat) } := by
    have fits : uid.toNat ≤ word32 := Nat.le_pred_of_lt uid.toNat_lt
    rw [readSelector, readRange_numeral fits fits]
    rfl
  have owner : Solid (numeral 10 uid.toNat) := solid_numeral 10 _ (by decide) (by decide)
  refine adds_selector family other (ascii "uidrange")
    (numeral 10 uid.toNat ++ 45 :: numeral 10 uid.toNat) (ascii "lookup main priority 5334") ?_
    (.of_all rfl) (owner.join owner rfl) ((readSelectors_cons rfl read _).trans rfl) rfl
  simp only [engineStep, append_assoc]
  rfl

/-- A line for local traffic, all of whose words are fixed. -/
theorem adds_local (family other : Family) (text tail : Bytes)
    (spelled : text = ascii " rule add iif lo " ++ tail) (read : readSelectors family {} (ascii
    "iif" :: ascii "lo" :: fields (tail ++ ascii " protocol 242")) = some s)
    (made : s.rule mask = some rule) :
    Adds other mask [tagged (flag family ++ text)] (if family = other then [rule] else []) := by
  refine adds_selector family other (ascii "iif") (ascii "lo") tail ?_ (.of_all rfl)
    (.of_all rfl) read made
  rw [spelled]
  rfl

/-- A line that is not about rules stays as it is. -/
theorem tagged_of_fields {step : Bytes} (other : ¬ [ascii "rule", ascii "add"] <:+: fields step) :
    tagged step = step :=
  if_neg fun adds => other (infix_fields adds)

/-- No pair of neighbours is the one that marks a rule. -/
theorem not_infix_of_chain {words : List Bytes}
    (apart : words.IsChain fun a b => a = ascii "rule" → b ≠ ascii "add") :
    ¬ [ascii "rule", ascii "add"] <:+: words := by
  rintro ⟨a, b, rfl⟩
  rw [append_assoc] at apart
  have tail := apart.right_of_append
  exact (isChain_cons_cons.mp tail).1 rfl rfl

theorem adds_addr (other : Family) (mask : Option Nat) (address : Prefix) (solid : Solid device) :
    Adds other mask [tagged (flag address.ip.family ++ ascii " addr replace " ++
      formatPrefix address ++ ascii " dev " ++ device)] [] := by
  have reads := parseNetwork_formatPrefix address
  have blank : isSpace 32 = true := by decide
  have split : fields (flag address.ip.family ++ ascii " addr replace " ++ formatPrefix address ++
      ascii " dev " ++ device) = [flag address.ip.family, ascii "addr", ascii "replace",
      formatPrefix address, ascii "dev", device] := by
    have text : flag address.ip.family ++ ascii " addr replace " ++ formatPrefix address ++
        ascii " dev " ++ device = flag address.ip.family ++ 32 :: (ascii "addr replace" ++ 32 ::
          (formatPrefix address ++ 32 :: (ascii "dev" ++ 32 :: device))) := by
      simp only [append_assoc]
      rfl
    rw [text, fields_append _ _ blank, fields_append _ _ blank, fields_append _ _ blank,
      fields_append _ _ blank, fields_solid (solid_flag _), fields_solid solid,
      fields_solid (solid_of_parseNetwork reads)]
    rfl
  have plain : ¬ [ascii "rule", ascii "add"] <:+: fields (flag address.ip.family ++
      ascii " addr replace " ++ formatPrefix address ++ ascii " dev " ++ device) := by
    rw [split]
    refine not_infix_of_chain ?_
    have apart : flag address.ip.family ≠ ascii "rule" := by cases address.ip.family <;> decide
    simp only [isChain_cons_cons, isChain_singleton, and_true]
    exact ⟨fun same => absurd same apart, by decide, fun same => absurd same (by decide),
      fun _ => by decide, fun same => absurd same (by decide)⟩
  rw [tagged_of_fields plain]
  refine adds_nothing other mask (c := .addrReplace address.ip.family address device) ?_ rfl rfl
  rw [split, readCommand, readFamily_flag, Option.bind_some, if_neg (by decide),
    if_neg (by decide), readAddrReplace, readAddress, reads]
  simp

theorem adds_route (other : Family) (mask : Option Nat) (ip : IP) (solid : Solid device) :
    Adds other mask [tagged (flag ip.family ++ ascii " route replace default dev " ++ device ++
      ascii " src " ++ formatIP ip ++ ascii " table " ++ table)] [] := by
  have reads := parseNetwork_formatIP ip
  have blank : isSpace 32 = true := by decide
  have split : fields (flag ip.family ++ ascii " route replace default dev " ++ device ++
      ascii " src " ++ formatIP ip ++ ascii " table " ++ table) = [flag ip.family, ascii "route",
      ascii "replace", ascii "default", ascii "dev", device, ascii "src", formatIP ip,
      ascii "table", table] := by
    have text : flag ip.family ++ ascii " route replace default dev " ++ device ++
        ascii " src " ++ formatIP ip ++ ascii " table " ++ table = flag ip.family ++ 32 ::
          (ascii "route replace default dev" ++ 32 :: (device ++ 32 :: (ascii "src" ++ 32 ::
            (formatIP ip ++ 32 :: ascii "table 5340")))) := by
      simp only [append_assoc]
      rfl
    rw [text, fields_append _ _ blank, fields_append _ _ blank, fields_append _ _ blank,
      fields_append _ _ blank, fields_append _ _ blank, fields_solid (solid_flag _),
      fields_solid solid, fields_solid (solid_formatIP ip)]
    rfl
  have plain : ¬ [ascii "rule", ascii "add"] <:+: fields (flag ip.family ++
      ascii " route replace default dev " ++ device ++ ascii " src " ++ formatIP ip ++
      ascii " table " ++ table) := by
    rw [split]
    refine not_infix_of_chain ?_
    have apart : flag ip.family ≠ ascii "rule" := by cases ip.family <;> decide
    simp only [isChain_cons_cons]
    exact ⟨fun same => absurd same apart, by decide, by decide, by decide,
      fun same => absurd same (by decide), fun _ => by decide, fun same => absurd same (by decide),
      fun _ => by decide, by decide⟩
  rw [tagged_of_fields plain]
  refine adds_nothing other mask (c := .routeReplace ip.family device (host ip) 5340) ?_ rfl rfl
  have number : readTableName table = some 5340 := rfl
  rw [split, readCommand, readFamily_flag, Option.bind_some, if_neg (by decide), if_neg (by decide),
    if_neg (by decide), readRouteReplace,
    readAddress, reads, number]
  simp [host, Option.filter]

theorem adds_familySteps (other : Family) (mask : Option Nat) (address : Prefix)
    (solid : Solid device) :
    Adds other mask ((familySteps device address address.ip.family).map tagged)
      (if address.ip.family = other then familyRules mask address.ip else []) := by
  have joined : (if address.ip.family = other then familyRules mask address.ip else []) =
      [] ++ ([] ++ ((if address.ip.family = other then [returnRule address.ip] else []) ++
      ((if address.ip.family = other then [dnsRule mask 17] else []) ++
      ((if address.ip.family = other then [dnsRule mask 6] else []) ++
      ((if address.ip.family = other then [dnsBypassRule mask 17] else []) ++
      ((if address.ip.family = other then [dnsBypassRule mask 6] else []) ++
      ((if address.ip.family = other then [mainRule] else []) ++
      (if address.ip.family = other then [tunnelRule] else [])))))))) := by
    split <;> rfl
  rw [joined]
  simp only [familySteps, append_assoc (flag address.ip.family)]
  refine .line ?_ (.line ?_ (.line ?_ (.line ?_ (.line ?_ (.line ?_ (.line ?_ (.line ?_ ?_)))))))
  · simpa only [append_assoc] using adds_addr other mask address solid
  · simpa only [append_assoc] using adds_route other mask address.ip solid
  · simpa only [append_assoc] using adds_return other mask address.ip
  · exact adds_local _ other _ (ascii "ipproto udp dport 53 lookup 5340 priority 5335") rfl rfl rfl
  · exact adds_local _ other _ (ascii "ipproto tcp dport 53 lookup 5340 priority 5335") rfl rfl rfl
  · exact adds_local _ other _ (ascii "ipproto udp dport 53 goto 5338 priority 5336") rfl rfl rfl
  · exact adds_local _ other _ (ascii "ipproto tcp dport 53 goto 5338 priority 5336") rfl rfl rfl
  · exact adds_local _ other _ (ascii "lookup main suppress_prefixlength 1 priority 5338")
      rfl rfl rfl
  · exact adds_local _ other _ (ascii "lookup 5340 priority 5339") rfl rfl rfl

/-- The rules of one family among those of all. -/
theorem adds_families {families : List Family} {lines : Family → List Bytes}
    {rules : Family → List Rule}
    (each : ∀ f, Adds family mask (lines f) (if f = family then rules f else [])) :
    Adds family mask (families.flatMap lines)
      (families.flatMap fun f => if f = family then rules f else []) :=
  .flatMap fun f _ => each f

theorem adds_bypassSteps (family : Family) (mask : Option Nat) (solid : Solid device)
    (addresses : List Prefix) (families : List Family) :
    Adds family mask ((bypassSteps device addresses families).map tagged)
      (families.flatMap fun f => if f = family then bypassRules f device addresses else []) := by
  rw [bypassSteps, map_flatMap]
  refine adds_families fun f => ?_
  have sources : ∀ ps : List Prefix, Adds family mask
      ((ps.filter fun p => (p.ip.family == .v4) == (f == .v4)).map (tagged ∘ fun p =>
        flag f ++ ascii " rule add from " ++ formatIP p.ip ++ ascii " lookup main priority " ++
          priorityForeign))
      (if f = family then (ps.filter (·.ip.family == f)).map fun p => foreignRule p.ip else []) := by
    intro ps
    induction ps with
    | nil => simpa using Adds.nil
    | cons p ps ih =>
      have same : ((p.ip.family == .v4) == (f == .v4)) = (p.ip.family == f) := by
        cases p.ip.family <;> cases f <;> rfl
      rw [filter_cons, same]
      by_cases here : p.ip.family = f
      · subst here
        have both := (adds_foreign family mask p.ip).line ih
        by_cases mine : p.ip.family = family <;> simpa [mine] using both
      · simpa [here] using ih
  have both := (adds_bound f family mask solid).line (sources addresses)
  by_cases mine : f = family
  · simpa [mine, bypassRules] using both
  · simpa [mine] using both

/-! ## Installation -/

/-- What `route` is called with and what it finds. -/
structure Installation where
  tun : Tun
  named : Solid tun.deviceName
  inet : ∀ p, tun.ipv4 = some p → p.ip.family = .v4
  inet6 : ∀ p, tun.ipv6 = some p → p.ip.family = .v6
  uid : UInt32
  interfaces : List Interface
  /-- Whether the kernel has IPv6. -/
  ipv6 : Bool

namespace Installation

variable (i : Installation)

/-- The command lines of `route` after the cleanup. -/
def lines : Option (List Bytes) := do
  let steps ← routeSteps i.tun (families i.ipv6)
  some ((bypass i.tun.deviceName i.uid i.interfaces (families i.ipv6) ++ steps).map tagged)

/-- The adapter's address. -/
def address : Family → Prefix
  | .v4 => i.tun.ipv4.getD ⟨⟨.v4, 192 * 2 ^ 24 + 2 * 2 ^ 8 + 1, by decide⟩, 30, by decide⟩
  | .v6 => i.tun.ipv6.getD
      ⟨⟨.v6, 0x20010db8 * 2 ^ 96 + 0x5340 * 2 ^ 80 + 1, by decide⟩, 126, by decide⟩

/-- The interfaces that keep their bound sockets. -/
def foreign : List Interface :=
  i.interfaces.filter fun iface => !(iface.name == i.tun.deviceName || iface.loopback)

def exemptions (family : Family) : List Rule :=
  i.foreign.flatMap fun iface =>
    bypassRules family iface.name (if iface.pointToPoint then iface.addresses else [])

theorem address_family (family : Family) : (i.address family).ip.family = family := by
  cases family with
  | v4 =>
    unfold address
    cases chosen : i.tun.ipv4 with
    | none => rfl
    | some p => exact i.inet p chosen
  | v6 =>
    unfold address
    cases chosen : i.tun.ipv6 with
    | none => rfl
    | some p => exact i.inet6 p chosen

theorem addresses_eq : i.tun.addresses = some [i.address .v4, i.address .v6] := by
  have first : tunPools4.head?.bind parsePrefix =
      some ⟨⟨.v4, 192 * 2 ^ 24 + 2 * 2 ^ 8 + 1, by decide⟩, 30, by decide⟩ := by rfl
  have second : tunPools6.head?.bind parsePrefix =
      some ⟨⟨.v6, 0x20010db8 * 2 ^ 96 + 0x5340 * 2 ^ 80 + 1, by decide⟩, 126, by decide⟩ := by rfl
  unfold Tun.addresses
  rw [first, second]
  cases four : i.tun.ipv4 <;> cases six : i.tun.ipv6 <;> simp [address, four, six]

theorem routeSteps_eq : routeSteps i.tun (families i.ipv6) =
    some ((families i.ipv6).flatMap fun f => familySteps i.tun.deviceName (i.address f) f) := by
  rw [routeSteps, addresses_eq]
  cases ipv6 : i.ipv6 <;> simp [families]

/-- The rules that the command lines add to a family. -/
def rules (mask : Option Nat) (family : Family) : List Rule :=
  i.exemptions family ++ [engineRule i.uid] ++ familyRules mask (i.address family).ip

theorem flatMap_families {g : Family → List Rule} :
    ((families i.ipv6).flatMap fun f => if f = family then g f else []) =
      if family ∈ families i.ipv6 then g family else [] := by
  cases i.ipv6 <;> cases family <;> simp [families]

theorem adds_lines {lines : List Bytes} (made : i.lines = some lines) (family : Family)
    (mask : Option Nat) :
    Adds family mask lines (if family ∈ families i.ipv6 then i.rules mask family else []) := by
  rw [Installation.lines, routeSteps_eq] at made
  cases made
  rw [map_append, bypass, map_append, map_flatMap, map_flatMap, map_map]
  have exempt : Adds family mask _ (i.foreign.flatMap _) := .flatMap fun iface _ =>
    adds_bypassSteps family mask iface.solid
      (if iface.pointToPoint then iface.addresses else []) (families i.ipv6)
  have engine : Adds family mask ((families i.ipv6).map (tagged ∘ engineStep i.uid))
      ((families i.ipv6).flatMap fun f => if f = family then [engineRule i.uid] else []) := by
    rw [map_eq_flatMap]
    exact adds_families fun f => adds_engine f family mask i.uid
  have own : Adds family mask ((families i.ipv6).flatMap fun f =>
      (familySteps i.tun.deviceName (i.address f) f).map tagged)
      ((families i.ipv6).flatMap fun f =>
        if f = family then familyRules mask (i.address f).ip else []) := by
    refine adds_families fun f => ?_
    have steps := adds_familySteps family mask (i.address f) i.named
    rw [i.address_family f] at steps
    exact steps
  have all := (exempt.append engine).append own
  simp only [flatMap_families] at all
  by_cases present : family ∈ families i.ipv6
  · simp only [present] at all ⊢
    exact all
  · have silent : i.foreign.flatMap (fun _ => ([] : List Rule)) = [] := by simp
    simp only [present, if_false, silent] at all ⊢
    exact all

theorem exemptions_priority : ∀ r ∈ i.exemptions family, r.priority = 5337 := by
  intro r member
  obtain ⟨iface, -, exempt⟩ := mem_flatMap.mp member
  rcases mem_cons.mp exempt with rfl | source
  · rfl
  · obtain ⟨p, -, rfl⟩ := mem_map.mp source
    rfl

end Installation

/-! ## The rules in force -/

@[simps] def localRule : Rule := { priority := 0, action := .lookup tableLocal, protocol := 2 }

def lastMainRule : Rule := { priority := 32766, action := .lookup tableMain, protocol := 2 }

def lastDefaultRule : Rule := { priority := 32767, action := .lookup tableDefault, protocol := 2 }

/-- The kernel's own rules after the one for local addresses. -/
def lastRules : Family → List Rule
  | .v4 => [lastMainRule, lastDefaultRule]
  | .v6 => [lastMainRule]

def defaultRules (family : Family) : List Rule := localRule :: lastRules family

theorem lastRules_priority : ∀ r ∈ lastRules family, 32766 ≤ r.priority := by
  cases family <;> decide

/-- What stands before the exemptions. -/
def headRules (mask : Option Nat) (source : IP) (uid : UInt32) : List Rule :=
  [localRule, returnRule source, engineRule uid, dnsRule mask 17, dnsRule mask 6,
    dnsBypassRule mask 17, dnsBypassRule mask 6]

/-- What stands after them. -/
def tailRules (family : Family) : List Rule := mainRule :: tunnelRule :: lastRules family

/-- Inserted one after another, the rules stand in the order of their priorities. -/
theorem insert_rules (mask : Option Nat) (source : IP) (uid : UInt32) (family : Family)
    {exemptions : List Rule} (level : ∀ r ∈ exemptions, r.priority = 5337) :
    (exemptions ++ [engineRule uid] ++ familyRules mask source).foldl (fun rs r => insertRule r rs)
      (defaultRules family) = headRules mask source uid ++ exemptions ++ tailRules family := by
  have high : ∀ n, n < 32766 → ∀ r ∈ lastRules family, n < r.priority :=
    fun n small r member => Nat.lt_of_lt_of_le small (lastRules_priority r member)
  have low : ∀ r ∈ [localRule], r.priority ≤ 5337 := by simp
  have first : exemptions.foldl (fun rs r => insertRule r rs) (defaultRules family) =
      [localRule] ++ exemptions ++ lastRules family :=
    insert_level low (high 5337 (by decide)) level
  -- the rules below the exemptions go before them, the other two after them
  have early : ∀ r : Rule, r.priority < 5337 → insertRule r (exemptions ++ lastRules family) =
      r :: (exemptions ++ lastRules family) := by
    intro r small
    refine insert_front fun s member => ?_
    rcases mem_append.mp member with exempt | last
    · rw [level s exempt]
      exact small
    · exact high _ (small.trans (by decide)) s last
  have late : ∀ (r : Rule) (rest : List Rule), 5337 ≤ r.priority → insertRule r (exemptions ++ rest) =
      exemptions ++ insertRule r rest :=
    fun r rest large => insert_append (fun s member => level s member ▸ large) rest
  have last : insertRule mainRule (lastRules family) = mainRule :: lastRules family :=
    insert_front (high 5338 (by decide))
  have last' : insertRule tunnelRule (lastRules family) = tunnelRule :: lastRules family :=
    insert_front (high 5339 (by decide))
  rw [foldl_append, foldl_append, first]
  simp [familyRules, insertRule, early, late, headRules, tailRules, last, last']

/-- The rules after a successful installation on a machine without other rules. -/
theorem installed_rules (i : Installation) {k k' : Kernel} {lines : List Bytes}
    (clean : k.rules = defaultRules) (made : i.lines = some lines) (done : k.run lines = some k')
    (present : family ∈ families i.ipv6) :
    k'.rules family = headRules k.mask (i.address family).ip i.uid ++ i.exemptions family ++
      tailRules family := by
  have adds := i.adds_lines made family k.mask
  rw [if_pos present] at adds
  rw [adds.run_rules rfl done, clean]
  exact insert_rules _ _ _ _ i.exemptions_priority

theorem uninstalled_rules (i : Installation) {k k' : Kernel} {lines : List Bytes}
    (clean : k.rules = defaultRules) (made : i.lines = some lines) (done : k.run lines = some k')
    (absent : family ∉ families i.ipv6) : k'.rules family = defaultRules family := by
  have adds := i.adds_lines made family k.mask
  rw [if_neg absent] at adds
  rw [adds.run_rules rfl done, clean]
  rfl

end Sora.TunRoute
