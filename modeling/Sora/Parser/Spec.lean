import Sora.Control.Metadata

/-!
# Imported servers

`OutboundSpec` of `core/parser` with its checks, and the readers of a single item: a share link, a
`vmess` or `wireguard` link, an object of a JSON or YAML list and a provider's whole Xray
configuration.

The options of a spec are a function; a missing option reads as the empty text, as it does in the
source.  SHA-256 and the texts of floating-point numbers are parameters.
-/

namespace Sora.Parser

open Sora.Lib

def maxInputSize : Nat := 16 * 2 ^ 20

def defaultMaxItems : Nat := 20000

inductive Err where
  | emptySource
  | inputTooLarge
  | unsupported
  | invalid
  deriving DecidableEq

/-- SHA-256, as hexadecimal digits. -/
structure Hash where
  sum : Bytes → Bytes
  hex : ∀ s, Control.isHex 64 (sum s) = true

/-- What `encoding/json` does with the literals of numbers: the value of one, unless it is out of
range, and the text of a value. -/
structure Floats where
  read : Bytes → Option Rat
  print : Rat → Bytes

structure WireGuardPeer where
  publicKey : Bytes := []
  preSharedKey : Bytes := []
  endpoint : Bytes := []
  allowedIPs : List Bytes := []
  persistentKeepalive : Int := 0
  deriving DecidableEq

structure OutboundSpec where
  displayProtocol : Bytes := []
  displayName : Bytes := []
  protocol : Bytes := []
  transport : Bytes := []
  security : Bytes := []
  host : Bytes := []
  port : UInt16 := 0
  uuid : Bytes := []
  password : Bytes := []
  user : Bytes := []
  cipher : Bytes := []
  publicKey : Bytes := []
  shortID : Bytes := []
  spiderX : Bytes := []
  serverName : Bytes := []
  fingerprint : Bytes := []
  flow : Bytes := []
  path : Bytes := []
  hostHeader : Bytes := []
  serviceName : Bytes := []
  mode : Bytes := []
  alpn : List Bytes := []
  allowInsecure : Bool := false
  options : Bytes → Bytes := fun _ => []
  peers : List WireGuardPeer := []

/-- The text whose hash tells servers apart. -/
def OutboundSpec.identity (o : OutboundSpec) : Bytes :=
  [0].intercalate [o.protocol, o.host, numeral 10 o.port.toNat, o.uuid, o.user] ++
    if o.protocol = ascii "xray-profile" then 0 :: o.displayName else []

/-- `StableKey`. -/
def OutboundSpec.stableKey (hash : Hash) (o : OutboundSpec) : Bytes :=
  o.protocol ++ 58 :: (o.host ++ 58 :: (numeral 10 o.port.toNat ++ 58 :: (hash.sum o.identity).take 16))

def isHexDigit (c : UInt8) : Bool := isDigit 10 c || (97 ≤ c && c ≤ 102) || (65 ≤ c && c ≤ 70)

/-- `uuidRE`. -/
def isUUID (s : Bytes) : Bool :=
  match s.splitOn 45 with
  | [a, b, c, d, e] =>
    ([a, b, c, d, e].map List.length == [8, 4, 4, 4, 12]) && [a, b, c, d, e].all (·.all isHexDigit) &&
      (c.head?.any fun x => 49 ≤ x && x ≤ 53) && (d.head?.any fun x => decide (x ∈ ascii "89abAB"))
  | _ => false

/-- `validate`. -/
def OutboundSpec.validate (o : OutboundSpec) : Option Err :=
  if o.protocol = [] ∨ o.host = [] ∨ o.port < 1 then some .invalid
  else if o.protocol ∈ ["vless", "vmess", "tuic"].map ascii ∧ o.uuid ≠ [] ∧ !isUUID o.uuid then
    some .invalid
  else none

def OutboundSpec.checked (o : OutboundSpec) : Except Err OutboundSpec :=
  match o.validate with
  | some e => .error e
  | none => .ok o

/-! ## Links -/

/-- `decodeBase64`. -/
def decodeBase64 (s : Bytes) : Option Bytes :=
  let clean := s.filter fun c => !decide (c ∈ [13, 10, 32, 9])
  Control.decodeAny (clean ++ List.replicate ((4 - clean.length % 4) % 4) 61)

/-- `strconv.ParseBool`, with false for other texts. -/
def parseBool (s : Bytes) : Bool := decide (s ∈ ["1", "t", "T", "TRUE", "true", "True"].map ascii)

/-- `parsePort`. -/
def parsePort (s : Bytes) : Except Err UInt16 :=
  match Control.atoi s with
  | some n => if n < 1 ∨ 65535 < n then .error .invalid else .ok (.ofNat n.toNat)
  | none => .error .invalid

/-- `getq`. -/
def getq (u : Url.URL) (keys : List String) : Bytes :=
  ((keys.map fun k => Url.get (ascii k) u.query).find? fun v => v ≠ []).getD []

/-- `fragmentName`. -/
def fragmentName (s : Bytes) : Bytes := (Url.queryUnescape s).getD s

/-- The schemes that `parseLink` reads itself. -/
def linkSchemes : List Bytes :=
  ["vless", "trojan", "ss", "socks", "socks5", "http", "https", "hysteria2", "hy2", "tuic"].map ascii

/-- The engines' names of protocols that links call differently. -/
def protocolOf (scheme : Bytes) : Bytes :=
  if scheme = ascii "ss" then ascii "shadowsocks"
  else if scheme = ascii "socks" then ascii "socks5"
  else if scheme = ascii "hy2" then ascii "hysteria2"
  else if scheme = ascii "https" then ascii "http"
  else scheme

/-- The credentials of a link: user, password, cipher and UUID. -/
structure Credentials where
  user : Bytes := []
  password : Bytes := []
  cipher : Bytes := []
  uuid : Bytes := []
  deriving DecidableEq

/-- `method:password` in base64, as the user of an `ss` link may carry it. -/
def methodAndPassword (user : Bytes) : Option (Bytes × Bytes) :=
  (decodeBase64 user).bind fun b => if 58 ∈ b then some (Url.cut 58 b) else none

/-- How `parseLink` splits the user information of a link. -/
def linkCredentials (u : Url.URL) : Credentials :=
  let user := (u.user.map (·.username)).getD []
  let password := (u.user.bind (·.password)).getD []
  if u.scheme = ascii "ss" then
    let (cipher, password) := (methodAndPassword user).getD (user, password)
    { user := user, cipher := cipher
      password := if password = [] then getq u ["password"] else password }
  else { user := user, password := password, uuid := user }

def linkSecurity (u : Url.URL) : Bytes :=
  let asked :=
    if u.scheme = ascii "ss" then ascii "none"
    else if u.scheme = ascii "tuic" then ascii "tls"
    else getq u ["security"]
  if asked ≠ [] then asked
  else if u.scheme ∈ ["trojan", "hysteria2", "hy2", "https"].map ascii then ascii "tls"
  else ascii "none"

/-- The spec of a link of one of `linkSchemes`.  Every option holds the first value of its key, so
writing the known ones once more changes nothing. -/
def linkSpec (u : Url.URL) (port : UInt16) : OutboundSpec :=
  let c := linkCredentials u
  let alpn := getq u ["alpn"]
  { displayName := fragmentName u.fragment
    protocol := protocolOf u.scheme
    transport :=
      if u.scheme ∈ ["ss", "tuic"].map ascii then ascii "tcp" else getq u ["type", "transport"]
    security := linkSecurity u
    host := u.hostname
    port := port
    uuid := c.uuid
    password := c.password
    user := c.user
    cipher := c.cipher
    publicKey := getq u ["pbk", "public-key"]
    shortID := getq u ["sid", "short-id"]
    spiderX := getq u ["spx"]
    serverName := getq u ["sni"]
    fingerprint := getq u ["fp"]
    flow := getq u ["flow"]
    path := getq u ["path"]
    hostHeader := getq u ["host"]
    serviceName := getq u ["serviceName", "service_name"]
    mode := getq u ["mode"]
    alpn := if alpn = [] then [] else alpn.splitOn 44
    allowInsecure := parseBool (getq u ["allowInsecure", "insecure", "skip-cert-verify"])
    options := fun k => Url.get k u.query }

/-! ## Objects -/

/-- The numbers of a JSON text that `json.Unmarshal` refuses are out of the range of a float. -/
def inRange (floats : Floats) : Nat → Json.Value → Bool
  | _, .number literal => (floats.read literal).isSome
  | fuel + 1, .array vs => vs.all (inRange floats fuel)
  | fuel + 1, .object ms => ms.all fun m => inRange floats fuel m.2
  | _, _ => true

/-- `json.Unmarshal` into an `any`. -/
def decode (floats : Floats) (s : Bytes) : Option Json.Value :=
  (Json.parse s).filter (inRange floats s.length)

abbrev Object := List (Bytes × Json.Value)

/-- `json.Unmarshal` into a map. -/
def decodeObject (floats : Floats) (s : Bytes) : Option Object :=
  match decode floats s with
  | some (.object ms) => some ms
  | some .null => some []
  | _ => none

/-- The last member of a key, which is the one a map keeps. -/
def value (ms : Object) (key : Bytes) : Option Json.Value :=
  (ms.reverse.find? fun m => m.1 == key).map (·.2)

mutual

/-- What `json.Marshal` prints for a decoded value: the keys of an object in order and once, and
numbers as floats. -/
def canonical (floats : Floats) : Json.Value → Json.Value
  | .number literal => .number (floats.print ((floats.read literal).getD 0))
  | .array vs => .array (canonicalItems floats vs)
  | .object ms =>
    .object (((canonicalFields floats ms).pwFilter fun a b => a.1 ≠ b.1).insertionSort
      fun a b => a.1 ≤ b.1)
  | .null => .null
  | .bool b => .bool b
  | .string s => .string s

def canonicalItems (floats : Floats) : List Json.Value → List Json.Value
  | [] => []
  | v :: vs => canonical floats v :: canonicalItems floats vs

def canonicalFields (floats : Floats) : Object → Object
  | [] => []
  | (key, v) :: ms => (key, canonical floats v) :: canonicalFields floats ms

end

/-- `json.Marshal`. -/
def marshal (floats : Floats) (v : Json.Value) : Bytes := (canonical floats v).print

/-- `stringValue`. -/
def stringValue : Option Json.Value → Bytes
  | some (.string s) => s
  | _ => []

/-- `number`. -/
def number (floats : Floats) : Option Json.Value → Int
  | some (.number literal) =>
    let q := (floats.read literal).getD 0
    if q < 0 ∨ 2 ^ 31 - 1 < q then 0 else q.floor
  | some (.string s) => (Control.atoi s).getD 0
  | _ => 0

/-- `portNumber`. -/
def portNumber (floats : Floats) (v : Option Json.Value) : UInt16 :=
  let n := number floats v
  if n < 1 ∨ 65535 < n then 0 else .ofNat n.toNat

def firstText (texts : List Bytes) : Bytes := (texts.find? fun s => s ≠ []).getD []

/-- `mapJSONSpec`, before its check. -/
def objectSpec (floats : Floats) (ms : Object) (fallback : Bytes) : OutboundSpec :=
  let text (key : String) := stringValue (value ms (ascii key))
  let serverPort := portNumber floats (value ms (ascii "server_port"))
  { protocol :=
      match value ms (ascii "type") with
      | some (.string s) => s
      | _ => fallback
    host := firstText [text "server", text "address", text "host"]
    port := if serverPort = 0 then portNumber floats (value ms (ascii "port")) else serverPort
    uuid := text "uuid"
    password := text "password"
    cipher := text "method"
    transport := firstText [text "network", text "transport", ascii "tcp"]
    flow := text "flow"
    displayName := text "tag"
    security := text "security"
    options := fun key => ((value ms key).map (marshal floats)).getD [] }

/-- `mapJSONSpec`. -/
def mapJSONSpec (floats : Floats) (ms : Object) (fallback : Bytes) : Except Err OutboundSpec :=
  (objectSpec floats ms fallback).checked

/-- `isXrayConfig`. -/
def isXrayConfig (ms : Object) : Bool :=
  match value ms (ascii "outbounds") with
  | some (.array (.object first :: _)) => (value first (ascii "protocol")).isSome
  | _ => false

/-- The members of an object, and none of another value. -/
def fields : Option Json.Value → Object
  | some (.object ms) => ms
  | _ => []

/-- `xrayEndpoint`. -/
def xrayEndpoint (floats : Floats) (ob : Object) : Bytes × UInt16 :=
  let settings := fields (value ob (ascii "settings"))
  let listed := (["vnext", "servers", "peers"].map ascii).findSome? fun key =>
    match value settings key with
    | some (.array (.object first :: _)) => some first
    | _ => none
  match listed with
  | some first =>
    (firstText [stringValue (value first (ascii "address")), stringValue (value first (ascii "endpoint"))],
      portNumber floats (value first (ascii "port")))
  | none =>
    (stringValue (value settings (ascii "address")), portNumber floats (value settings (ascii "port")))

/-- The outbounds of a configuration that lead nowhere else. -/
def localProtocols : List Bytes := ["freedom", "blackhole", "dns", "loopback", ""].map ascii

/-- The first outbound of a configuration that leads to a server. -/
def defaultOutbound : List Json.Value → Option Object
  | [] => none
  | .object ob :: rest =>
    if stringValue (value ob (ascii "protocol")) ∈ localProtocols then defaultOutbound rest else some ob
  | _ :: rest => defaultOutbound rest

/-- `profileSpec`, before its check. -/
def wholeSpec (floats : Floats) (ms : Object) : OutboundSpec :=
  let outbounds :=
    match value ms (ascii "outbounds") with
    | some (.array vs) => vs
    | _ => []
  let ob := (defaultOutbound outbounds).getD []
  let endpoint := xrayEndpoint floats ob
  let stream := fields (value ob (ascii "streamSettings"))
  { protocol := ascii "xray-profile"
    displayProtocol := stringValue (value ob (ascii "protocol"))
    displayName := firstText [trimSpace (stringValue (value ms (ascii "remarks"))), endpoint.1]
    host := endpoint.1
    port := endpoint.2
    transport := firstText [stringValue (value stream (ascii "network")), ascii "tcp"]
    security := firstText [stringValue (value stream (ascii "security")), ascii "none"]
    options := fun key => if key = ascii "profile" then marshal floats (.object ms) else [] }

/-- `profileSpec`. -/
def profileSpec (floats : Floats) (ms : Object) : Except Err OutboundSpec :=
  (wholeSpec floats ms).checked

/-! ## One link -/

/-- `parseVMess`, for a link that does not hold an object. -/
def vmessSpec (u : Url.URL) : OutboundSpec :=
  { protocol := ascii "vmess"
    host := u.hostname
    port := (parsePort u.port).toOption.getD 0
    transport := firstText [getq u ["type", "transport"], ascii "tcp"]
    security := firstText [getq u ["security"], ascii "auto"]
    uuid := (u.user.map (·.username)).getD []
    password := (u.user.bind (·.password)).getD []
    displayName := fragmentName u.fragment
    options := fun k => Url.get k u.query }

def dropStart (start s : Bytes) : Bytes := if start.isPrefixOf s then s.drop start.length else s

/-- `parseVMess`. -/
def parseVMess (floats : Floats) (u : Url.URL) : Except Err OutboundSpec :=
  let raw := firstText [dropStart (ascii "//") u.opaqued, dropStart (ascii "/") u.path]
  match (decodeBase64 raw).bind (decodeObject floats) with
  | some ms => mapJSONSpec floats ms (ascii "vmess")
  | none => if u.hostname = [] then .error .invalid else (vmessSpec u).checked

/-- `parseWireURL`. -/
def parseWireURL (u : Url.URL) : Except Err OutboundSpec := do
  let port ← parsePort u.port
  OutboundSpec.checked
    { protocol := ascii "wireguard"
      host := u.hostname
      port := port
      transport := ascii "udp"
      displayName := fragmentName u.fragment
      password := (u.user.map Url.Userinfo.string).getD []
      options := fun k => Url.get k u.query }

/-- `parseLink`. -/
def parseLink (floats : Floats) (raw : Bytes) : Except Err OutboundSpec :=
  match Url.parse (trimSpace raw) with
  | none => .error .invalid
  | some u =>
    if u.scheme = ascii "vmess" then parseVMess floats u
    else if u.scheme ∈ ["wireguard", "wg"].map ascii then parseWireURL u
    else if u.scheme ∉ linkSchemes then .error .unsupported
    else do
      let port ← parsePort u.port
      (linkSpec u port).checked

/-! ## Specs that are accepted -/

variable {o : OutboundSpec}

theorem OutboundSpec.checked_ok {spec : OutboundSpec} (ok : o.checked = .ok spec) :
    spec = o ∧ o.validate = none := by
  rw [checked] at ok
  cases found : o.validate with
  | some e => rw [found] at ok; cases ok
  | none =>
    rw [found] at ok
    exact ⟨(Except.ok.inj ok).symm, rfl⟩

/-- A spec that passes its check has a protocol, a host and a port. -/
theorem OutboundSpec.present_of_validate (ok : o.validate = none) :
    o.protocol ≠ [] ∧ o.host ≠ [] ∧ o.port ≠ 0 := by
  rw [validate] at ok
  split at ok
  · cases ok
  · rename_i missing
    simp only [not_or] at missing
    refine ⟨missing.1, missing.2.1, fun zero => missing.2.2 ?_⟩
    rw [zero]
    decide

variable {floats : Floats}

/-- The object that a `vmess` link may hold. -/
def heldObject (floats : Floats) (u : Url.URL) : Option Object :=
  (decodeBase64 (firstText [dropStart (ascii "//") u.opaqued, dropStart (ascii "/") u.path])).bind
    (decodeObject floats)

/-- What the importer makes of a link. -/
inductive LinkRead (floats : Floats) (u : Url.URL) : OutboundSpec → Prop
  | object (ms : Object) (scheme : u.scheme = ascii "vmess") (held : heldObject floats u = some ms) :
      LinkRead floats u (objectSpec floats ms (ascii "vmess"))
  | vmess (scheme : u.scheme = ascii "vmess") (none : heldObject floats u = none) :
      LinkRead floats u (vmessSpec u)
  | wire (port : UInt16) (other : u.scheme ≠ ascii "vmess")
      (scheme : u.scheme ∈ ["wireguard", "wg"].map ascii) :
      LinkRead floats u
        { protocol := ascii "wireguard"
          host := u.hostname
          port := port
          transport := ascii "udp"
          displayName := fragmentName u.fragment
          password := (u.user.map Url.Userinfo.string).getD []
          options := fun k => Url.get k u.query }
  | link (port : UInt16) (other : u.scheme ≠ ascii "vmess")
      (wire : u.scheme ∉ ["wireguard", "wg"].map ascii) (scheme : u.scheme ∈ linkSchemes) :
      LinkRead floats u (linkSpec u port)

theorem parseLink_read {raw : Bytes} {spec : OutboundSpec} (ok : parseLink floats raw = .ok spec) :
    spec.validate = none ∧ ∃ u, Url.parse (trimSpace raw) = some u ∧ LinkRead floats u spec := by
  have done : ∀ {o : OutboundSpec} {u}, Url.parse (trimSpace raw) = some u → LinkRead floats u o →
      o.checked = .ok spec → spec.validate = none ∧
        ∃ u, Url.parse (trimSpace raw) = some u ∧ LinkRead floats u spec := by
    intro o u parsed read ok
    obtain ⟨rfl, valid⟩ := OutboundSpec.checked_ok ok
    exact ⟨valid, u, parsed, read⟩
  rw [parseLink] at ok
  split at ok
  · cases ok
  · rename_i u parsed
    split at ok
    · rename_i scheme
      change (match heldObject floats u with | some ms => _ | none => _) = _ at ok
      split at ok
      · rename_i ms held
        exact done parsed (.object ms scheme held) ok
      · rename_i none
        split at ok
        · cases ok
        · exact done parsed (.vmess scheme none) ok
    · rename_i other
      split at ok
      · rename_i scheme
        rw [parseWireURL] at ok
        cases port : parsePort u.port with
        | error e => rw [port] at ok; cases ok
        | ok n => rw [port] at ok; exact done parsed (.wire n other scheme) ok
      · rename_i wire
        split at ok
        · cases ok
        · rename_i known
          cases port : parsePort u.port with
          | error e => rw [port] at ok; cases ok
          | ok n => rw [port] at ok; exact done parsed (.link n other wire (not_not.mp known)) ok

/-- What the importer makes of an accepted link of one of its own schemes. -/
theorem parseLink_scheme {raw : Bytes} {spec : OutboundSpec} {u : Url.URL}
    (read : Url.parse (trimSpace raw) = some u) (scheme : u.scheme ∈ linkSchemes)
    (ok : parseLink floats raw = .ok spec) : ∃ port, spec = linkSpec u port := by
  have known : ∀ s ∈ linkSchemes, s ≠ ascii "vmess" ∧ s ∉ ["wireguard", "wg"].map ascii := by
    decide
  obtain ⟨-, u, again, made⟩ := parseLink_read ok
  cases read.symm.trans again
  cases made with
  | object ms vmess | vmess vmess => exact absurd vmess (known _ scheme).1
  | wire port other wire => exact absurd wire (known _ scheme).2
  | link port => exact ⟨port, rfl⟩

/-! ## Names -/

/-- A name has nothing that `fragmentName` decodes once more, or cannot be decoded. -/
def Legible (name : Bytes) : Prop := (43 ∉ name ∧ 37 ∉ name) ∨ Url.escapesWell name = false

theorem fragmentName_self {name : Bytes} : fragmentName name = name ↔ Legible name := by
  rcases Url.queryUnescape_cases name with ⟨bad, none⟩ | ⟨t, good, read, -, same⟩
  · simp [fragmentName, none, Legible, bad]
  · simp [fragmentName, read, Legible, good, same]

/-- The name in the fragment is the one that the server gets: an object has a name of its own. -/
def NameKept (floats : Floats) (u : Url.URL) : Prop :=
  match if u.scheme = ascii "vmess" then heldObject floats u else none with
  | some ms => stringValue (value ms (ascii "tag")) = u.fragment
  | none => Legible u.fragment

/-- A link that is imported gives its server the name in its fragment exactly if the name has neither a
plus sign nor a percent sign or has a percent sign that starts no escape; a `vmess` link that holds an
object does so exactly if that is the tag of the object. -/
theorem link_name_iff {raw : Bytes} {u : Url.URL} (parsed : Url.parse (trimSpace raw) = some u)
    (imported : parseLink floats raw = .ok o) : o.displayName = u.fragment ↔ NameKept floats u := by
  obtain ⟨-, u, again, made⟩ := parseLink_read imported
  cases parsed.symm.trans again
  cases made with
  | object ms scheme held =>
    rw [NameKept, if_pos scheme, held]
    rfl
  | vmess scheme none =>
    rw [NameKept, if_pos scheme, none]
    exact fragmentName_self
  | wire port other | link port other =>
    rw [NameKept, if_neg other]
    exact fragmentName_self

def noNumbers : Floats := ⟨fun _ => none, fun _ => []⟩

/-- The plus sign of a name becomes a blank. -/
theorem plus_becomes_blank : (Url.parse (ascii "ss://c@h:1#A%2BB")).map (·.fragment) =
      some (ascii "A+B") ∧ (parseLink noNumbers (ascii "ss://c@h:1#A%2BB")).toOption.map
        (·.displayName) = some (ascii "A B") := by
  decide

theorem plain_name_kept : ∃ u o, Url.parse (trimSpace (ascii "ss://c@h:1#A%20B")) = some u ∧
    parseLink noNumbers (ascii "ss://c@h:1#A%20B") = .ok o ∧ o.displayName = u.fragment := by
  have kept : ∀ u o, Url.parse (trimSpace (ascii "ss://c@h:1#A%20B")) = some u →
      parseLink noNumbers (ascii "ss://c@h:1#A%20B") = .ok o → NameKept noNumbers u →
        o.displayName = u.fragment := fun u o parsed read => (link_name_iff parsed read).mpr
  exact ⟨_, _, rfl, rfl, kept _ _ rfl rfl (.inl (by decide))⟩

end Sora.Parser
