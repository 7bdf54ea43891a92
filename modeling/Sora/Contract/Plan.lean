import Sora.Lib.JsonValue
import Sora.Lib.Url

/-!
# Session plans

The engine-independent plan of a session and `Plan.Validate`, the checks that every plan passes
before an engine sees it.  A check is modelled by whether it accepts; the texts of its errors are
left out.
-/

namespace Sora.Contract

open Sora.Lib

def maxOutbounds : Nat := 5000

def maxGroups : Nat := 500

def maxRules : Nat := 10000

def maxIDLen : Nat := 128

def maxNameBytes : Nat := 256

def maxHeaderCount : Nat := 32

def maxDNSServers : Nat := 32

/-! ## Plans -/

/-- The outbound protocols, and any other name that a plan may hold. -/
inductive Protocol where
  | vless
  | vmess
  | trojan
  | shadowsocks
  | hysteria2
  | tuic
  | wireGuard
  | socks5
  | http
  | anyTLS
  | bypass
  | xrayProfile
  | direct
  | other (name : Bytes)
  deriving DecidableEq

def protocolNames : List (Bytes × Protocol) :=
  [(ascii "vless", .vless), (ascii "vmess", .vmess), (ascii "trojan", .trojan),
    (ascii "shadowsocks", .shadowsocks), (ascii "hysteria2", .hysteria2), (ascii "tuic", .tuic),
    (ascii "wireguard", .wireGuard), (ascii "socks5", .socks5), (ascii "http", .http),
    (ascii "anytls", .anyTLS), (ascii "bypass", .bypass), (ascii "xray-profile", .xrayProfile),
    (ascii "direct", .direct)]

def Protocol.ofName (name : Bytes) : Protocol :=
  ((protocolNames.find? fun p => p.1 == name).map (·.2)).getD (.other name)

structure TLS where
  enabled : Bool := false
  serverName : Bytes := []
  alpn : List Bytes := []
  fingerprint : Bytes := []
  insecure : Bool := false
  reality : Bool := false
  realityPublicKey : Bytes := []
  realityShortID : Bytes := []
  spiderX : Bytes := []
  deriving DecidableEq

structure Transport where
  type : Bytes := []
  path : Bytes := []
  host : Bytes := []
  service : Bytes := []
  headers : List (Bytes × Bytes) := []
  mode : Bytes := []
  deriving DecidableEq

structure WireGuardPeer where
  publicKey : Bytes
  preSharedKey : Bytes
  endpoint : Bytes
  allowedIPs : List Bytes
  persistentKeepalive : Int
  deriving DecidableEq

/-- `AmneziaWG`; the headers and packets are listed in the order of their keys. -/
structure AmneziaWG where
  numbers : List Int
  headers : List Bytes
  packets : List Bytes
  j1 : Bytes
  j2 : Bytes
  j3 : Bytes
  itime : Int
  deriving DecidableEq

structure BypassStrategy where
  splitPos : List Bytes := []
  disorder : Bool := false
  oob : Bool := false
  tlsRecord : Bytes := []
  hostCase : Bool := false
  domainCase : Bool := false
  methodEOL : Bool := false
  deriving DecidableEq

structure Outbound where
  id : Bytes
  name : Bytes := []
  protocol : Protocol
  transport : Transport := {}
  tls : TLS := {}
  socksUDP : Bool := false
  server : Bytes := []
  port : Nat := 0
  uuid : Bytes := []
  password : Bytes := []
  cipher : Bytes := []
  userID : Bytes := []
  flow : Bytes := []
  obfs : Bytes := []
  obfsParam : Bytes := []
  privateKey : Bytes := []
  publicKey : Bytes := []
  shortID : Bytes := []
  encryption : Bytes := []
  peers : List WireGuardPeer := []
  amnezia : Option AmneziaWG := none
  bypass : Option BypassStrategy := none
  profile : Bytes := []
  addresses : List Bytes := []
  deriving DecidableEq

inductive GroupType where
  | select
  | urlTest
  | fallback
  | loadBalance
  | other (name : Bytes)
  deriving DecidableEq

structure Group where
  name : Bytes
  type : GroupType
  outbounds : List Bytes
  url : Bytes := []
  interval : Int := 0
  provider : Bytes := []
  deriving DecidableEq

inductive RuleType where
  | domain
  | domainSuffix
  | domainKeyword
  | ipCIDR
  | ipSuffix
  | geoIP
  | geoSite
  | ruleSet
  | port
  | srcPort
  | process
  | protocol
  | matchAll
  | other (name : Bytes)
  deriving DecidableEq

structure Rule where
  type : RuleType
  value : Bytes := []
  target : Bytes
  noResolve : Bool := false
  deriving DecidableEq

inductive DNSTransport where
  | plain
  | tcp
  | tls
  | https
  | quic
  | system
  | fakeIP
  | other (name : Bytes)
  deriving DecidableEq

structure DNSServer where
  tag : Bytes := []
  transport : DNSTransport := .plain
  address : Bytes
  port : Nat := 0
  dialer : Bytes := []
  proxyOnly : Bool := false
  deriving DecidableEq

structure DNS where
  enabled : Bool := false
  mode : Bytes := []
  fakeIPRange : Bytes := []
  servers : List DNSServer := []
  deriving DecidableEq

structure Tun where
  enabled : Bool := false
  stack : Bytes := []
  deviceName : Bytes := []
  mtu : Int := 0
  includeApps : List Bytes := []
  excludeApps : List Bytes := []
  deriving DecidableEq

structure Options where
  logLevel : Bytes := []
  mode : Bytes := []
  testURL : Bytes := []
  geoSiteURL : Bytes := []
  geoIPURL : Bytes := []
  fragment : Bool := false
  deriving DecidableEq

structure LocalProxy where
  enabled : Bool := false
  username : Bytes := []
  password : Bytes := []
  deriving DecidableEq

structure Plan where
  sessionID : Bytes
  privateControl : Bool := false
  localProxy : LocalProxy := {}
  outbounds : List Outbound
  groups : List Group := []
  rules : List Rule := []
  dns : DNS := {}
  tun : Tun := {}
  options : Options := {}
  deriving DecidableEq

/-! ## Texts and addresses -/

/-- `net.ParseIP`. -/
def isIP (s : Bytes) : Bool := (parseAddr s).any fun p => p.2.isEmpty

/-- `net.ParseCIDR`. -/
def isCIDR (s : Bytes) : Bool :=
  let (address, mask) := Url.cut 47 s
  decide (47 ∈ s) && (parseAddr address).any fun p =>
    p.2.isEmpty && Json.isDigits mask && decide (numValue 10 mask ≤ p.1.family.width)

theorem netByte_of_isCIDR {s : Bytes} (cidr : isCIDR s = true) : ∀ c ∈ s, netByte c = true := by
  simp only [isCIDR, Url.cut, Bool.and_eq_true, Option.any_eq_true] at cidr
  obtain ⟨-, ⟨ip, zone⟩, read, ⟨unzoned, digits⟩, -⟩ := cidr
  obtain rfl : zone = [] := by simpa using unzoned
  intro c member
  rw [← List.takeWhile_append_dropWhile (l := s), List.mem_append] at member
  rcases member with address | rest
  · exact netByte_of_parseAddr read c address
  · cases after : s.dropWhile (· != 47) with
    | nil =>
      rw [after] at rest
      cases rest
    | cons slash mask =>
      have first := List.head?_dropWhile_not (· != 47) s
      rw [after] at rest digits first
      rcases List.mem_cons.mp rest with rfl | inside
      · simp [netByte, show c = 47 by simpa using first]
      · rw [Json.isDigits, Bool.and_eq_true] at digits
        exact netByte_of_addrByte
          (addrByte_of_isDigit 10 (by decide) (List.all_eq_true.mp digits.2 c inside))

/-- `strconv.Atoi` succeeds. -/
def isInteger (s : Bytes) : Bool :=
  let digits := if s.head? = some 45 ∨ s.head? = some 43 then s.tail else s
  let bound := if s.head? = some 45 then 2 ^ 63 + 1 else 2 ^ 63
  Json.isDigits digits && decide (numValue 10 digits < bound)

def isControlByte (c : UInt8) : Bool := c < 32 || c == 127

/-- `unicode.IsControl` for a rune beyond ASCII. -/
def isControlChar (bytes : Bytes) : Bool :=
  bytes.length == 2 && bytes.head? == some 0xC2 && bytes.getLast?.any (· < 0xA0)

/-- The blanks beyond ASCII. -/
def wideSpaces : List Bytes :=
  ([0x85, 0xA0, 0x1680, 0x2028, 0x2029, 0x202F, 0x205F, 0x3000] ++
    (List.range 11).map (0x2000 + ·)).map Json.encodeRune

/-- `unicode.IsSpace`. -/
def isSpaceChunk : Json.Chunk → Bool
  | .ascii c => isSpace c
  | .char bytes => decide (bytes ∈ wideSpaces)
  | .stray _ => false

/-- `unicode.IsControl`. -/
def isControlChunk : Json.Chunk → Bool
  | .ascii c => isControlByte c
  | .char bytes => isControlChar bytes
  | .stray _ => false

/-- `validateDisplayName`. -/
def validDisplayName (name : Bytes) : Bool :=
  let runes := Json.chunks name
  decide (name.length ≤ maxNameBytes) && !runes.head?.any isSpaceChunk &&
    !runes.getLast?.any isSpaceChunk && runes.all fun c => !isControlChunk c

/-- `isDomain`. -/
def isDomain (s : Bytes) : Bool :=
  decide (s.length ≤ 253) && decide (46 ∈ s) && (s.splitOn 46).all fun label =>
    !label.isEmpty && decide (label.length ≤ 63) && label.head? != some 45 &&
      label.getLast? != some 45 &&
      label.all fun c => Url.isAlpha c || isDigit 10 c || c == 45 || c == 95

/-- `validateServer`. -/
def validServer (server : Bytes) (required : Bool) : Bool :=
  if server = [] then !required
  else if server.any fun c => decide (c ∈ ascii "/@:? ") then false
  else
    let bare :=
      if server.head? = some 91 ∧ server.getLast? = some 93 then server.tail.dropLast else server
    isIP bare || isDomain bare

/-- `validateTestURL`. -/
def validTestURL (raw : Bytes) : Bool :=
  raw.isEmpty || (Url.parse raw).any fun u =>
    (u.scheme == ascii "https" || u.scheme == ascii "http") && u.user.isNone && u.fragment.isEmpty

/-- `validHeaderToken`. -/
def validHeaderToken (s : Bytes) : Bool :=
  !s.isEmpty && s.all fun c => Url.isAlpha c || isDigit 10 c || decide (c ∈ ascii "-_.!")

/-! ## Outbounds -/

def isShortNumber (s : Bytes) : Bool := Json.isDigits s && decide (s.length ≤ 4)

def positionMarks : List Bytes :=
  ["method", "host", "endhost", "sld", "midsld", "endsld", "sniext"].map ascii

/-- `bypassPosition`. -/
def isBypassPosition (s : Bytes) : Bool :=
  isShortNumber (if s.head? = some 45 then s.tail else s) ||
    positionMarks.any fun mark => mark.isPrefixOf s &&
      match s.drop mark.length with
      | [] => true
      | c :: rest => (c == 43 || c == 45) && isShortNumber rest

/-- `BypassStrategy.validate`. -/
def BypassStrategy.valid (s : BypassStrategy) : Bool :=
  !(s.splitPos.isEmpty && s.tlsRecord.isEmpty && !s.hostCase && !s.domainCase && !s.methodEOL) &&
    decide (s.splitPos.length ≤ 8) &&
    ((s.splitPos ++ [s.tlsRecord]).all fun pos => pos.isEmpty || isBypassPosition pos) &&
    !((s.disorder || s.oob) && s.splitPos.isEmpty)

/-- `encoding/json` compares the keys of an object with a field's name without their case; of the
letters beyond ASCII two fold to one in it. -/
def foldKey : Bytes → Bytes
  | 0xC5 :: 0xBF :: rest => 115 :: foldKey rest
  | 0xE2 :: 0x84 :: 0xAA :: rest => 107 :: foldKey rest
  | c :: rest => (if Url.isUpper c then c + 32 else c) :: foldKey rest
  | [] => []

/-- The outbounds of a profile, as the plan's check decodes it. -/
def profileOutbounds (profile : Bytes) : Option (List Json.Value) :=
  match Json.parse profile with
  | some (.object ms) =>
    ms.foldl (fun found m =>
      if foldKey m.1 = ascii "outbounds" then
        match m.2 with
        | .array items => found.map fun _ => items
        | .null => found.map fun _ => []
        | _ => none
      else found) (some [])
  | some .null => some []
  | _ => none

/-- `Outbound.Validate`. -/
def Outbound.valid (o : Outbound) : Bool :=
  let serverless := o.protocol == .direct || o.protocol == .bypass
  !o.id.isEmpty && decide (o.id.length ≤ maxIDLen) && validDisplayName o.name &&
    o.protocol != .other [] && (serverless || o.port != 0) && validServer o.server (!serverless) &&
    (o.protocol != .bypass || o.bypass.any BypassStrategy.valid) &&
    (o.protocol != .xrayProfile || (profileOutbounds o.profile).any fun l => !l.isEmpty) &&
    decide (o.tls.alpn.length ≤ 8) && decide (o.transport.headers.length ≤ maxHeaderCount) &&
    o.transport.headers.all fun h => validHeaderToken h.1 && h.2.all fun c => c != 13 && c != 10

/-! ## Groups, rules and settings -/

/-- `isBuiltInTarget` of the plan's checks. -/
def isBuiltInTarget (t : Bytes) : Bool :=
  decide (t ∈ ["direct", "reject", "pass", "dns"].map ascii)

/-- `Group.needsProbe`. -/
def Group.needsProbe (g : Group) : Bool :=
  g.type == .urlTest || g.type == .fallback || g.type == .loadBalance

/-- `Group.validate`. -/
def Group.valid (g : Group) : Bool :=
  validDisplayName g.name &&
    (match g.type with
      | .other _ => false
      | _ => true) &&
    !g.outbounds.isEmpty && decide (0 ≤ g.interval) && decide (g.interval ≤ 86400)

/-- The members of a group by its name; the last group of a name counts. -/
def members (groups : List Group) (name : Bytes) : Option (List Bytes) :=
  (groups.reverse.find? fun g => g.name == name).map (·.outbounds)

/-- `groupCycle`.  No chain of groups is longer than their number without a repetition. -/
def groupCycle (groups : List Group) : Nat → List Bytes → Bytes → Bool
  | 0, _, _ => true
  | fuel + 1, visiting, group =>
    decide (group ∈ visiting) ||
      ((members groups group).getD []).any fun m =>
        (members groups m).isSome && groupCycle groups fuel (group :: visiting) m

/-- `Rule.validate`. -/
def Rule.valid (r : Rule) : Bool :=
  (match r.type with
    | .other _ => false
    | .ipCIDR => isCIDR r.value
    | .port | .srcPort => isInteger r.value
    | _ => true) &&
    (r.type == .matchAll || trimSpace r.value != []) &&
    r.value.all fun c => c != 13 && c != 10 && c != 9

/-- `DNS.validate`. -/
def DNS.valid (d : DNS) : Bool :=
  !d.enabled ||
    decide (d.mode ∈ [[], ascii "rule", ascii "redir-host", ascii "fakeip"]) &&
      decide (d.servers.length ≤ maxDNSServers) &&
      (d.servers.all fun s => !s.address.isEmpty &&
        (s.transport == .system || isIP s.address || isDomain s.address)) &&
      (d.mode != ascii "fakeip" || d.fakeIPRange.isEmpty || isCIDR d.fakeIPRange)

/-- `Tun.validate`. -/
def Tun.valid (t : Tun) : Bool :=
  !t.enabled ||
    decide (t.stack ∈ [[], ascii "system", ascii "gvisor", ascii "mixed", ascii "mips"]) &&
      (t.mtu == 0 || decide (576 ≤ t.mtu) && decide (t.mtu ≤ 1500)) && validDisplayName t.deviceName

/-- `Options.validate`. -/
def Options.valid (o : Options) : Bool :=
  decide (o.logLevel ∈ [[], ascii "silent", ascii "error", ascii "warning", ascii "info",
    ascii "debug"]) &&
    decide (o.mode ∈ [[], ascii "rule", ascii "global", ascii "direct"]) &&
    validTestURL o.testURL &&
    [o.geoSiteURL, o.geoIPURL].all fun u => u.isEmpty || (ascii "https://").isPrefixOf u

def Plan.validGroup (p : Plan) (g : Group) : Bool :=
  let ids := p.outbounds.map (·.id)
  g.valid && !(g.needsProbe && g.url.isEmpty && p.options.testURL.isEmpty) && validTestURL g.url &&
    (g.outbounds.all fun ref =>
      decide (ref ∈ ids) || (members p.groups ref).isSome || isBuiltInTarget ref) &&
    !groupCycle p.groups (p.groups.length + 1) [] g.name

def Plan.validRule (p : Plan) (r : Rule) : Bool :=
  r.valid && !r.target.isEmpty &&
    (decide (r.target ∈ p.outbounds.map (·.id)) || decide (r.target ∈ p.groups.map (·.name)) ||
      isBuiltInTarget r.target)

/-- `Plan.Validate`. -/
def Plan.valid (p : Plan) : Bool :=
  let ids : List Bytes := p.outbounds.map (·.id)
  let names : List Bytes := p.groups.map (·.name)
  trimSpace p.sessionID != [] && !p.outbounds.isEmpty &&
    decide (p.outbounds.length ≤ maxOutbounds) && decide (p.groups.length ≤ maxGroups) &&
    decide (p.rules.length ≤ maxRules) && p.outbounds.all Outbound.valid && decide ids.Nodup &&
    !((p.outbounds.any fun o => o.protocol == .xrayProfile) &&
      (decide (1 < p.outbounds.length) || !p.groups.isEmpty)) &&
    (names.all fun name => !decide (name ∈ ids)) &&
    (p.localProxy.username.isEmpty == p.localProxy.password.isEmpty) &&
    (p.localProxy.username.all fun c => !decide (c ∈ ascii ":@ \r\n")) &&
    p.groups.all p.validGroup && decide names.Nodup && p.rules.all p.validRule && p.dns.valid &&
    p.tun.valid && p.options.valid

end Sora.Contract
