import Sora.Parser.Parse
import Sora.Control.Entries
import Sora.Contract.Plan
import Sora.Lib.Naming

/-!
# Credentials of imported servers

`credentialDocument` turns an imported server into the flat JSON object that the vault keeps, and
`applyCredential` fills an outbound of a plan from it; `outboundToProto` and `outboundFromProto`
carry the rest over the wire.  The main lemma says what a key of the document reads as: the value it
was written with, its stray bytes replaced.

The compression of provider configurations is a parameter.
-/

namespace Sora.Control

open Sora.Lib Sora.Contract List Json
open Option hiding map_map mem_map

def maxPlanBytes : Nat := 4 * 2 ^ 20

/-- `compress/gzip`. -/
structure Gzip where
  pack : Bytes → Bytes
  unpack : Bytes → Option Bytes
  pack_ne_nil : ∀ s, pack s ≠ []
  unpack_pack : ∀ s, unpack (pack s) = some s

/-- `strings.EqualFold`. -/
def equalFold (s t : Bytes) : Bool := foldKey s == foldKey t

/-! ## WireGuard -/

/-- The texts of a list that are not blank, without their blanks. -/
def nonBlank (texts : List Bytes) : List Bytes := (texts.map trimSpace).filter fun v => v ≠ []

/-- An interface address with the width of a single host. -/
def withWidth (a : Bytes) : Bytes :=
  if 47 ∈ a then a else if 58 ∈ a then a ++ ascii "/128" else a ++ ascii "/32"

/-- `net.JoinHostPort`. -/
def joinHostPort (host : Bytes) (port : Nat) : Bytes :=
  (if 58 ∈ host then 91 :: (host ++ [93]) else host) ++ 58 :: numeral 10 port

def comma : Bytes := [44]

/-- `wireguardMaterial`: the key, the addresses and the peers. -/
def wireguardMaterial (spec : Parser.OutboundSpec) :
    Bytes × List Bytes × List Contract.WireGuardPeer :=
  let option (key : String) := spec.options (ascii key)
  let key :=
    if option "privatekey" ≠ [] then option "privatekey"
    else (Url.unescape .pathSegment spec.password).getD []
  let addresses := (nonBlank ((option "address").splitOn 44)).map withWidth
  let listed := spec.peers.map fun p =>
    ({ publicKey := p.publicKey, preSharedKey := p.preSharedKey, endpoint := p.endpoint
       allowedIPs := nonBlank p.allowedIPs
       persistentKeepalive := p.persistentKeepalive } : Contract.WireGuardPeer)
  let peers :=
    if listed = [] ∧ option "publickey" ≠ [] then
      [{ publicKey := option "publickey", preSharedKey := option "presharedkey"
         endpoint := joinHostPort spec.host spec.port.toNat
         allowedIPs := nonBlank ((option "allowedips").splitOn 44)
         persistentKeepalive := 0 }]
    else listed
  (key, addresses, peers)

/-- `json.Marshal` of a peer; a list without entries is a nil slice. -/
def peerValue (p : Contract.WireGuardPeer) : Json.Value :=
  .object [(ascii "PublicKey", .string p.publicKey), (ascii "PreSharedKey", .string p.preSharedKey),
    (ascii "Endpoint", .string p.endpoint),
    (ascii "AllowedIPs",
      if p.allowedIPs = [] then .null else .array (p.allowedIPs.map Json.Value.string)),
    (ascii "PersistentKeepalive", .int p.persistentKeepalive)]

def readPeer : Json.Value → Option Contract.WireGuardPeer
  | .object ms => do
    let publicKey ← readMember [] readText (member "PublicKey" ms)
    let preSharedKey ← readMember [] readText (member "PreSharedKey" ms)
    let endpoint ← readMember [] readText (member "Endpoint" ms)
    let allowedIPs ← readMember [] readTexts (member "AllowedIPs" ms)
    let persistentKeepalive ← readMember 0 readInteger (member "PersistentKeepalive" ms)
    some { publicKey, preSharedKey, endpoint, allowedIPs, persistentKeepalive }
  | _ => none

/-- The peers of a document; those of one that cannot be read are left out. -/
def readPeers (raw : Bytes) : List Contract.WireGuardPeer :=
  match Json.parse raw with
  | some (.array vs) => (vs.mapM readPeer).getD []
  | _ => []

/-- `amneziaKeys`, in the order of their names. -/
def amneziaKeys : List Bytes :=
  ["h1", "h2", "h3", "h4", "i1", "i2", "i3", "i4", "i5", "itime", "j1", "j2", "j3", "jc", "jmax",
    "jmin", "s1", "s2", "s3", "s4"].map ascii

def amneziaNumbers : List Bytes := ["jc", "jmin", "jmax", "s1", "s2", "s3", "s4", "itime"].map ascii

/-- `amneziaMaterial`. -/
def amneziaMaterial (options : Bytes → Bytes) : List (Bytes × Bytes) :=
  (amneziaKeys.map fun key => (key, trimSpace (options key))).filter fun m => m.2 ≠ []

/-- The value of a key in a flat object; the last one counts and a missing one is empty. -/
def valueOf (ms : List (Bytes × Bytes)) (key : Bytes) : Bytes :=
  ((ms.reverse.find? fun m => m.1 == key).map (·.2)).getD []

/-- A number of a parameter; an empty one is zero. -/
def amneziaNumber (v : Bytes → Bytes) (key : Bytes) : Option Int :=
  if v key = [] then some 0 else atoi (v key)

/-- `amneziaFrom`. -/
def amneziaFrom (raw : Bytes) : Option AmneziaWG := do
  let v := valueOf (← Json.readObject raw)
  let numbers ← amneziaNumbers.mapM (amneziaNumber v)
  some
    { numbers := numbers.dropLast
      headers := (["h1", "h2", "h3", "h4"].map ascii).map v
      packets := (["i1", "i2", "i3", "i4", "i5"].map ascii).map v
      j1 := v (ascii "j1"), j2 := v (ascii "j2"), j3 := v (ascii "j3")
      itime := numbers.getLast?.getD 0 }

/-! ## Documents -/

variable (gzip : Gzip) {ms : List (Bytes × Bytes)} {key v : Bytes} {values : String → Bytes}
    {spec : Parser.OutboundSpec}

/-- `packProfile`. -/
def packProfile (profile : Bytes) : Bytes := Base64.encode Base64.std (gzip.pack profile)

/-- `unpackProfile`. -/
def unpackProfile (packed : Bytes) : Option Bytes := do
  let profile ← gzip.unpack (← Base64.decode Base64.std true packed)
  if maxPlanBytes < profile.length then none else some profile

/-- The values of a document in the order of their keys, the empty ones among them. -/
def credentialValues (spec : Parser.OutboundSpec) : List (String × Bytes) :=
  let option (key : String) := spec.options (ascii key)
  let wireguard := equalFold spec.protocol (ascii "wireguard")
  let (key, addresses, peers) := wireguardMaterial spec
  let awg := amneziaMaterial spec.options
  [("addresses", if wireguard then comma.intercalate addresses else []),
    ("alpn", comma.intercalate spec.alpn),
    ("amneziawg", if wireguard ∧ awg ≠ [] then Json.printObject awg else []),
    ("encryption", option "encryption"),
    ("fingerprint", spec.fingerprint),
    ("flow", spec.flow),
    ("host_header", spec.hostHeader),
    ("insecure", if spec.allowInsecure then ascii "1" else []),
    ("method", spec.cipher),
    ("mode", spec.mode),
    ("obfs", option "obfs"),
    ("obfs_param",
      Parser.firstText [option "obfs_param", option "obfs-password", option "obfs_password"]),
    ("password", spec.password),
    ("path", spec.path),
    ("peers",
      if wireguard ∧ peers ≠ [] then (Json.Value.array (peers.map peerValue)).print else []),
    ("private_key", if wireguard then key else []),
    ("public_key", spec.publicKey),
    ("security", spec.security),
    ("server_name", spec.serverName),
    ("service_name", spec.serviceName),
    ("short_id", spec.shortID),
    ("spider_x", spec.spiderX),
    ("user", spec.user),
    ("uuid", spec.uuid),
    ("xray_profile", if option "profile" = [] then [] else packProfile gzip (option "profile"))]

/-- The members of the document: the values that are not empty. -/
def credentialMembers (spec : Parser.OutboundSpec) : List (Bytes × Bytes) :=
  ((credentialValues gzip spec).map fun m => (ascii m.1, m.2)).filter fun m => m.2 ≠ []

/-- `credentialDocument`. -/
def credentialDocument (spec : Parser.OutboundSpec) : Bytes :=
  Json.printObject (credentialMembers gzip spec)

/-- `parseCredential`, for the flat objects that `credentialDocument` prints. -/
def parseCredential (material : Bytes) (key : String) : Bytes :=
  valueOf ((Json.readObject material).getD []) (ascii key)

def restoredProfile (outbound : Outbound) (values : String → Bytes) : Option Bytes :=
  if values "xray_profile" = [] then some outbound.profile
  else unpackProfile gzip (values "xray_profile")

/-- The AmneziaWG parameters of an outbound after its document. -/
def restoredAmnezia (outbound : Outbound) (values : String → Bytes) : Option (Option AmneziaWG) :=
  if values "amneziawg" = [] then some outbound.amnezia
  else (amneziaFrom (values "amneziawg")).map some

def filled (outbound : Outbound) (values : String → Bytes) (profile : Bytes)
    (amnezia : Option AmneziaWG) : Outbound :=
  let reality := equalFold (values "security") (ascii "reality")
  { outbound with
    uuid := values "uuid"
    password := values "password"
    cipher := values "method"
    userID := values "user"
    flow := values "flow"
    obfs := values "obfs"
    obfsParam := values "obfs_param"
    publicKey := values "public_key"
    shortID := values "short_id"
    encryption := values "encryption"
    tls :=
      { enabled := reality || outbound.tls.enabled
        serverName := values "server_name"
        alpn := if values "alpn" = [] then outbound.tls.alpn else (values "alpn").splitOn 44
        fingerprint := values "fingerprint"
        insecure :=
          if values "insecure" = [] then outbound.tls.insecure
          else values "insecure" == ascii "1" || equalFold (values "insecure") (ascii "true")
        reality := reality || outbound.tls.reality
        realityPublicKey :=
          if reality then values "public_key" else outbound.tls.realityPublicKey
        realityShortID := if reality then values "short_id" else outbound.tls.realityShortID
        spiderX := if reality then values "spider_x" else outbound.tls.spiderX }
    transport :=
      { outbound.transport with
        path := values "path"
        host := values "host_header"
        service := values "service_name"
        mode := values "mode" }
    privateKey := values "private_key"
    addresses :=
      if values "addresses" = [] then outbound.addresses else (values "addresses").splitOn 44
    peers := if values "peers" = [] then outbound.peers else readPeers (values "peers")
    profile := profile
    amnezia := amnezia }

/-- `applyCredential`. -/
def applyCredential (outbound : Outbound) (values : String → Bytes) : Option Outbound :=
  (restoredProfile gzip outbound values).bind fun profile =>
    (restoredAmnezia outbound values).map (filled outbound values profile)

/-! ## The wire -/

/-- `outboundToProto`. -/
def outboundToProto (hash : Parser.Hash) (spec : Parser.OutboundSpec) (reference : Bytes) :
    OutboundSpec where
  id := spec.stableKey hash
  displayName := spec.displayName
  protocol := spec.protocol
  displayProtocol := spec.displayProtocol
  transport := spec.transport
  security := spec.security
  host := spec.host
  port := spec.port.toNat
  reference := reference

/-- The outbound before its credentials. -/
def bareOutbound (spec : OutboundSpec) : Outbound :=
  let id := trimSpace spec.id
  { id := id
    name := if spec.displayName = [] then id else spec.displayName
    protocol := .ofName spec.protocol
    server := spec.host
    port := spec.port
    transport := { type := if trimSpace spec.transport = [] then ascii "tcp" else spec.transport }
    tls := { enabled := !equalFold spec.security (ascii "none") } }

/-- `outboundFromProto`, for a message without a bypass strategy. -/
def outboundFromProto (spec : OutboundSpec) (vault : Entries) : Option Outbound :=
  if trimSpace spec.id = [] ∨ 0xffff < spec.port then none
  else if spec.reference = [] then some (bareOutbound spec)
  else
    (vault.lookup spec.reference).bind fun material =>
      applyCredential gzip (bareOutbound spec) (parseCredential material)

/-! ## Reading a document back -/

theorem valueOf_eq (distinct : (ms.map (·.1)).Nodup) (there : (key, v) ∈ ms) :
    valueOf ms key = v :=
  congrArg (Option.getD · []) ((Naming.get_eq_some_iff distinct).mpr there)

theorem valueOf_eq_nil (absent : ∀ v, (key, v) ∉ ms) : valueOf ms key = [] := by
  have none : Naming.get ms key = none :=
    Option.eq_none_iff_forall_ne_some.mpr fun v found => absent v (Naming.mem_of_get found)
  exact congrArg (Option.getD · []) none

/-- The members of a flat object that was printed, as they are read. -/
def repaired (ms : List (Bytes × Bytes)) : List (Bytes × Bytes) :=
  ms.map fun m => (Json.fix m.1, Json.fix m.2)

/-- An object printed from distinct ASCII keys reads as its values with stray bytes replaced; the
empty ones are left out when it is printed. -/
theorem valueOf_repaired (distinct : (ms.map (·.1)).Nodup) (plain : ∀ m ∈ ms, fix m.1 = m.1)
    (there : (key, v) ∈ ms) :
    valueOf (repaired (ms.filter fun m => m.2 ≠ [])) key = fix v := by
  have names : ∀ l : List (Bytes × Bytes), (∀ m ∈ l, fix m.1 = m.1) →
      (repaired l).map (·.1) = l.map (·.1) := by
    intro l plain
    rw [repaired, map_map]
    exact map_congr_left plain
  have kept : ∀ m ∈ ms.filter (fun m => m.2 ≠ []), fix m.1 = m.1 := fun m inside =>
    plain m (mem_filter.mp inside).1
  have apart : ((repaired (ms.filter fun m => m.2 ≠ [])).map (·.1)).Nodup := by
    rw [names _ kept]
    exact distinct.sublist (filter_sublist.map _)
  by_cases empty : v = []
  · subst empty
    apply valueOf_eq_nil
    intro w inside
    rw [repaired, mem_map] at inside
    obtain ⟨m, inside, same⟩ := inside
    obtain ⟨inside, full⟩ := mem_filter.mp inside
    have named : m.1 = key := (plain m inside).symm.trans (Prod.mk.inj same).1
    have only : m = (key, []) := inj_on_of_nodup_map distinct inside there named
    rw [only] at full
    simp at full
  · apply valueOf_eq apart
    rw [repaired, mem_map]
    refine ⟨(key, v), mem_filter.mpr ⟨there, by simpa using empty⟩, ?_⟩
    rw [plain _ there]

theorem credentialValues_names (spec : Parser.OutboundSpec) :
    (credentialValues gzip spec).map (·.1) =
      ["addresses", "alpn", "amneziawg", "encryption", "fingerprint", "flow", "host_header",
        "insecure", "method", "mode", "obfs", "obfs_param", "password", "path", "peers",
        "private_key", "public_key", "security", "server_name", "service_name", "short_id",
        "spider_x", "user", "uuid", "xray_profile"] := rfl

/-- A key of a document reads as the value it was written with, stray bytes replaced. -/
theorem parseCredential_document {key : String} (there : (key, v) ∈ credentialValues gzip spec) :
    parseCredential (credentialDocument gzip spec) key = fix v := by
  have names := credentialValues_names gzip spec
  rw [parseCredential, credentialDocument, readObject_print]
  refine valueOf_repaired ?_ ?_ (mem_map.mpr ⟨(key, v), there, rfl⟩)
  · have apart : ((credentialValues gzip spec).map fun m => ascii m.1) =
        ((credentialValues gzip spec).map (·.1)).map ascii := (map_map ..).symm
    rw [map_map, Function.comp_def, apart, names]
    decide
  · intro m inside
    obtain ⟨⟨name, w⟩, source, rfl⟩ := mem_map.mp inside
    have listed : name ∈ (credentialValues gzip spec).map (·.1) := mem_map.mpr ⟨_, source, rfl⟩
    rw [names] at listed
    change fix (ascii name) = ascii name
    clear inside source
    revert name
    decide

/-! ## What an outbound receives -/

variable {gzip}

/-- The credentials of an outbound after its document was applied, and what the document leaves as
it was. -/
theorem applyCredential_some {o o' : Outbound} (done : applyCredential gzip o values = some o') :
    (o'.uuid = values "uuid" ∧ o'.password = values "password" ∧ o'.userID = values "user") ∧
      (o'.id = o.id ∧ o'.name = o.name ∧ o'.protocol = o.protocol ∧ o'.server = o.server ∧
        o'.port = o.port ∧ o'.bypass = o.bypass ∧ o'.transport.headers = o.transport.headers) ∧
      o'.tls.alpn = (if values "alpn" = [] then o.tls.alpn else (values "alpn").splitOn 44) ∧
      restoredProfile gzip o values = some o'.profile := by
  obtain ⟨profile, unpacked, done⟩ := bind_eq_some_iff.mp done
  obtain ⟨amnezia, -, rfl⟩ := map_eq_some_iff.mp done
  exact ⟨⟨rfl, rfl, rfl⟩, ⟨rfl, rfl, rfl, rfl, rfl, rfl, rfl⟩, rfl, unpacked⟩

/-- The transport security of an outbound after its document was applied. -/
theorem applyCredential_tls {o o' : Outbound} (done : applyCredential gzip o values = some o') :
    o'.tls.enabled = (equalFold (values "security") (ascii "reality") || o.tls.enabled) ∧
      o'.tls.serverName = values "server_name" ∧
      o'.tls.realityPublicKey = (if equalFold (values "security") (ascii "reality") then
        values "public_key" else o.tls.realityPublicKey) ∧
      o'.tls.realityShortID = (if equalFold (values "security") (ascii "reality") then
        values "short_id" else o.tls.realityShortID) := by
  obtain ⟨profile, -, done⟩ := bind_eq_some_iff.mp done
  obtain ⟨amnezia, -, rfl⟩ := map_eq_some_iff.mp done
  exact ⟨rfl, rfl, rfl, rfl⟩

/-- A document is applied unless its profile or its parameters cannot be read. -/
theorem applyCredential_isSome {o : Outbound} {values : String → Bytes} :
    (applyCredential gzip o values).isSome ↔
      (restoredProfile gzip o values).isSome ∧ (restoredAmnezia o values).isSome := by
  rw [applyCredential]
  cases restoredProfile gzip o values with
  | none | some profile => simp

theorem encode_ne_nil {s : Bytes} (full : s ≠ []) : Base64.encode Base64.std s ≠ [] := by
  intro empty
  have back := Base64.decode_encode (.inl rfl) s
  rw [empty] at back
  exact full (Option.some.inj back).symm

/-- The text of a packed profile is ASCII and not empty. -/
theorem packProfile_plain (profile : Bytes) :
    fix (packProfile gzip profile) = packProfile gzip profile ∧
      packProfile gzip profile ≠ [] := by
  refine ⟨fix_of_valid (valid_of_ascii fun c inside => ?_),
    encode_ne_nil (gzip.pack_ne_nil profile)⟩
  have low : ∀ n < 64, Base64.std.char n < 0x80 := by decide
  rcases Base64.mem_encode inside with rfl | ⟨n, small, rfl⟩
  · decide
  · exact low n small

theorem unpackProfile_packProfile (profile : Bytes) :
    unpackProfile gzip (packProfile gzip profile) =
      if maxPlanBytes < profile.length then none else some profile := by
  rw [unpackProfile, packProfile, Base64.decode_encode (.inl rfl)]
  simp only [bind_eq_bind, bind_some, gzip.unpack_pack]

/-- The profile of a document is the one the server was imported with, if it is not too large. -/
theorem profile_document (spec : Parser.OutboundSpec) :
    parseCredential (credentialDocument gzip spec) "xray_profile" =
      (if spec.options (ascii "profile") = [] then []
        else packProfile gzip (spec.options (ascii "profile"))) := by
  have there : ("xray_profile", if spec.options (ascii "profile") = [] then []
      else packProfile gzip (spec.options (ascii "profile"))) ∈ credentialValues gzip spec := by
    simp [credentialValues]
  rw [parseCredential_document gzip there]
  split
  · rfl
  · exact (packProfile_plain _).1

theorem restoredProfile_document (o : Outbound) (spec : Parser.OutboundSpec) :
    restoredProfile gzip o (parseCredential (credentialDocument gzip spec)) =
      if spec.options (ascii "profile") = [] then some o.profile
      else if maxPlanBytes < (spec.options (ascii "profile")).length then none
      else some (spec.options (ascii "profile")) := by
  rw [restoredProfile, profile_document]
  by_cases empty : spec.options (ascii "profile") = []
  · rw [if_pos empty, if_pos empty, if_pos rfl]
  · rw [if_neg empty, if_neg empty, if_neg (packProfile_plain _).2, unpackProfile_packProfile]

/-- The profile of a document is refused if it is larger than a plan. -/
theorem restoredProfile_isSome (o : Outbound) (spec : Parser.OutboundSpec) :
    (restoredProfile gzip o (parseCredential (credentialDocument gzip spec))).isSome ↔
      (spec.options (ascii "profile")).length ≤ maxPlanBytes := by
  rw [restoredProfile_document]
  by_cases empty : spec.options (ascii "profile") = []
  · simp [empty]
  · rw [if_neg empty]
    split
    · simp only [isSome_none, Bool.false_eq_true, false_iff]
      omega
    · simp only [isSome_some, true_iff]
      omega

/-- The document of a server that is not a WireGuard one has no parameters of AmneziaWG. -/
theorem restoredAmnezia_other (o : Outbound)
    (other : equalFold spec.protocol (ascii "wireguard") = false) :
    restoredAmnezia o (parseCredential (credentialDocument gzip spec)) = some o.amnezia := by
  have there : ("amneziawg", []) ∈ credentialValues gzip spec := by
    simp [credentialValues, other]
  rw [restoredAmnezia, parseCredential_document gzip there, if_pos (by rfl)]

/-- The stable key of a server stands after trimming. -/
theorem trimSpace_stableKey_ne_nil (hash : Parser.Hash) (spec : Parser.OutboundSpec) :
    trimSpace (spec.stableKey hash) ≠ [] := by
  have inside : (58 : UInt8) ∈ spec.stableKey hash := by simp [Parser.OutboundSpec.stableKey]
  exact ne_nil_of_mem (mem_trimSpace (by decide) inside)

/-- A server whose document is in the vault is the one that its document fills. -/
theorem outboundFromProto_stored {hash : Parser.Hash}
    {reference : Bytes} (named : reference ≠ []) {vault : Entries}
    (stored : vault.lookup reference = some (credentialDocument gzip spec)) :
    outboundFromProto gzip (outboundToProto hash spec reference) vault =
      applyCredential gzip (bareOutbound (outboundToProto hash spec reference))
        (parseCredential (credentialDocument gzip spec)) := by
  have id : trimSpace (outboundToProto hash spec reference).id ≠ [] :=
    trimSpace_stableKey_ne_nil hash spec
  have port : ¬0xffff < (outboundToProto hash spec reference).port := by
    have small := spec.port.toNat_lt
    change ¬0xffff < spec.port.toNat
    omega
  have given : (outboundToProto hash spec reference).reference ≠ [] := named
  have kept : vault.lookup (outboundToProto hash spec reference).reference =
      some (credentialDocument gzip spec) := stored
  rw [outboundFromProto, if_neg (not_or.mpr ⟨id, port⟩), if_neg given, kept, bind_some]

end Sora.Control
