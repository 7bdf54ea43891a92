import Sora.Control.ShareLinks

/-!
# The transport security of imported servers

What a share link, an item of a JSON list or a Clash proxy asks for, against the outbound it becomes
in a plan.  The parsers leave a text in the field `security`, each with a default of its own, and
`outboundFromProto` takes every text but `none` for TLS.
-/

namespace Sora.Control

open Sora.Lib Sora.Contract List Parser

/-! ## What a source asks for -/

def asksText (s : Bytes) : Bool := equalFold s (ascii "tls") || equalFold s (ascii "reality")

def isNone (s : Bytes) : Bool := equalFold s (ascii "none")

/-- The schemes and types of protocols that always use TLS. -/
def alwaysTLS : List Bytes :=
  ["trojan", "hysteria2", "hy2", "tuic", "anytls", "https"].map ascii

/-- The server name, and the public key and short id of REALITY. -/
structure TLSNames where
  serverName : Bytes := []
  publicKey : Bytes := []
  shortID : Bytes := []
  deriving DecidableEq

/-- What a source asks for; the names matter if it asks for TLS in a block of its own. -/
structure Intent where
  tls : Bool
  names : Option TLSNames := none
  deriving DecidableEq

def memberText (ms : Parser.Object) (key : String) : Bytes :=
  Parser.stringValue (Parser.value ms (ascii key))

def linkSetting (u : Url.URL) : Bytes := Parser.getq u ["security"]

def linkIntent (u : Url.URL) : Intent where
  tls := decide (u.scheme ∈ alwaysTLS) || asksText (linkSetting u)

def objectType (ms : Parser.Object) (fallback : Bytes) : Bytes :=
  match Parser.value ms (ascii "type") with
  | some (.string s) => s
  | _ => fallback

/-- The member `tls`: a flag in Clash, a text in v2rayN, a block in sing-box. -/
def tlsMember (ms : Parser.Object) : Bool :=
  match Parser.value ms (ascii "tls") with
  | some (.bool b) => b
  | some (.string s) => asksText s
  | some (.object block) =>
    match Parser.value block (ascii "enabled") with
    | some (.bool b) => b
    | _ => false
  | _ => false

/-- The REALITY block of Clash. -/
def realityMember (ms : Parser.Object) : Bool :=
  match Parser.value ms (ascii "reality-opts") with
  | some (.object _) => true
  | _ => false

def objectAsks (ms : Parser.Object) (fallback : Bytes) : Bool :=
  decide (objectType ms fallback ∈ alwaysTLS) || asksText (memberText ms "security") ||
    tlsMember ms || realityMember ms

/-- The names of the block of sing-box, or else the members of Clash and v2rayN. -/
def objectNames (ms : Parser.Object) : TLSNames :=
  match Parser.value ms (ascii "tls") with
  | some (.object block) =>
    let reality := Parser.fields (Parser.value block (ascii "reality"))
    { serverName := memberText block "server_name"
      publicKey := memberText reality "public_key"
      shortID := memberText reality "short_id" }
  | _ =>
    let reality := Parser.fields (Parser.value ms (ascii "reality-opts"))
    { serverName := Parser.firstText [memberText ms "servername", memberText ms "sni"]
      publicKey := memberText reality "public-key"
      shortID := memberText reality "short-id" }

def objectIntent (ms : Parser.Object) (fallback : Bytes) : Intent where
  tls := objectAsks ms fallback
  names := if objectAsks ms fallback then some (objectNames ms) else none

/-! ## Sources -/

/-- Where a server of an import comes from. -/
inductive Source where
  | link (raw : Bytes)
  | item (ms : Parser.Object)
  | proxy (ms : Parser.Object)

/-- The object that a `vmess` link holds. -/
def vmessObject (floats : Parser.Floats) (u : Url.URL) : Option Parser.Object :=
  if u.scheme = ascii "vmess" then
    (Parser.decodeBase64 (Parser.firstText [Parser.dropStart (ascii "//") u.opaqued,
      Parser.dropStart (ascii "/") u.path])).bind (Parser.decodeObject floats)
  else none

variable {u : Url.URL} {s : Bytes} {hash : Parser.Hash}

section

variable (floats : Parser.Floats)

/-- How the importer reads a source. -/
def Source.read : Source → Except Parser.Err Parser.OutboundSpec
  | .link raw => Parser.parseLink floats raw
  | .item ms => Parser.mapJSONSpec floats ms []
  | .proxy ms => (Parser.mapJSONSpec floats ms []).map fun o =>
      { o with displayName := memberText ms "name" }

def Source.intent : Source → Intent
  | .link raw =>
    match Url.parse (trimSpace raw) with
    | none => { tls := false }
    | some u =>
      match vmessObject floats u with
      | some ms => objectIntent ms (ascii "vmess")
      | none => linkIntent u
  | .item ms | .proxy ms => objectIntent ms []

/-- A link whose setting means to `outboundFromProto` what it means to the reader: `none`, `tls` or
`reality` where the scheme has a choice, and an empty one where its default is off. -/
def linkKept (u : Url.URL) : Bool :=
  let asked := linkSetting u
  if u.scheme = ascii "tuic" then true
  else if u.scheme ∈ ["trojan", "hysteria2", "hy2", "https"].map ascii then !isNone asked
  else if u.scheme = ascii "ss" then !asksText asked
  else if u.scheme ∈ ["wireguard", "wg"].map ascii then asksText asked
  else if u.scheme = ascii "vmess" then asksText asked || isNone asked
  else asked == [] || asksText asked || isNone asked

/-- An object that asks for TLS without names of its own, or says `none` in the member that the
importer reads. -/
def objectKept (ms : Parser.Object) (fallback : Bytes) : Bool :=
  if objectAsks ms fallback then
    !isNone (memberText ms "security") && decide (objectNames ms = {})
  else isNone (memberText ms "security")

/-- The sources whose transport security survives. -/
def Source.kept : Source → Bool
  | .link raw =>
    match Url.parse (trimSpace raw) with
    | none => false
    | some u =>
      match vmessObject floats u with
      | some ms => objectKept ms (ascii "vmess")
      | none => linkKept u
  | .item ms | .proxy ms => objectKept ms []

end

/-- The outbound has TLS exactly if it was asked for, and the names that were given. -/
def Keeps (i : Intent) (o : Outbound) : Prop :=
  o.tls.enabled = i.tls ∧ ∀ names ∈ i.names,
    o.tls.serverName = names.serverName ∧ o.tls.realityPublicKey = names.publicKey ∧
      o.tls.realityShortID = names.shortID

/-! ## The outbound -/

theorem low_of_foldKey (plain : ∀ c ∈ foldKey s, c < 0x80 ∧ c ≠ 115 ∧ c ≠ 107) :
    ∀ c ∈ s, c < 0x80 := by
  induction s using foldKey.induct with
  | case1 rest ih => exact absurd rfl (plain 115 mem_cons_self).2.1
  | case2 rest ih => exact absurd rfl (plain 107 mem_cons_self).2.2
  | case3 c rest first second ih =>
    rw [foldKey] at plain
    · intro x inside
      rcases mem_cons.mp inside with rfl | later
      · have low := (plain _ mem_cons_self).1
        split at low
        · rename_i upper
          have all : ∀ c, Url.isUpper c = true → c < 0x80 := forall_byte (by decide +kernel)
          exact all x upper
        · exact low
      · exact ih (fun y there => plain y (mem_cons_of_mem _ there)) x later
    · exact first
    · exact second
  | case4 => exact fun c inside => (not_mem_nil inside).elim

theorem fix_of_isNone (none : isNone s = true) : Json.fix s = s := by
  have folded : foldKey s = ascii "none" := by
    rw [isNone, equalFold, beq_iff_eq] at none
    rw [none]
    decide
  refine Json.fix_of_valid (Json.valid_of_ascii (low_of_foldKey ?_))
  rw [folded]
  decide +kernel

theorem not_both (none : isNone s = true) : asksText s = false := by
  have folded : foldKey s = ascii "none" := by
    rw [isNone, equalFold, beq_iff_eq] at none
    rw [none]
    decide
  rw [asksText, equalFold, equalFold, folded]
  decide

/-- The transport security of the outbound that a server becomes. -/
theorem tls_of_spec {gzip : Gzip} {spec : Parser.OutboundSpec} {reference : Bytes} {o : Outbound}
    (done : applyCredential gzip (bareOutbound (outboundToProto hash spec reference))
    (parseCredential (credentialDocument gzip spec)) = some o) :
    o.tls.enabled = !isNone spec.security ∧ o.tls.serverName = Json.fix spec.serverName ∧
      (spec.publicKey = [] → o.tls.realityPublicKey = []) ∧
      (spec.shortID = [] → o.tls.realityShortID = []) := by
  obtain ⟨enabled, name, key, short⟩ := applyCredential_tls done
  have read : ∀ key v, (key, v) ∈ credentialValues gzip spec →
      parseCredential (credentialDocument gzip spec) key = Json.fix v :=
    fun key v => parseCredential_document gzip
  rw [read "security" spec.security (by simp [credentialValues])] at enabled key short
  rw [read "server_name" spec.serverName (by simp [credentialValues])] at name
  rw [read "public_key" spec.publicKey (by simp [credentialValues])] at key
  rw [read "short_id" spec.shortID (by simp [credentialValues])] at short
  refine ⟨?_, name, fun empty => ?_, fun empty => ?_⟩
  · rw [enabled]
    change (_ || !isNone spec.security) = !isNone spec.security
    cases off : isNone spec.security with
    | false => exact Bool.or_true _
    | true =>
      have other := not_both off
      rw [asksText, Bool.or_eq_false_iff] at other
      rw [fix_of_isNone off, other.2]
      rfl
  · rw [key, empty]
    split
    · rfl
    · rfl
  · rw [short, empty]
    split
    · rfl
    · rfl

/-! ## Links -/

theorem asksText_nil : asksText [] = false := by decide

theorem isNone_nil : isNone [] = false := by decide

/-- The setting that an accepted link of a scheme of its own ends with. -/
theorem linkKept_iff (known : u.scheme ∈ linkSchemes) :
    (!isNone (linkSecurity u)) = (linkIntent u).tls ↔ linkKept u = true := by
  have both : asksText (linkSetting u) = true → isNone (linkSetting u) = false := by
    intro asks
    by_contra none
    rw [not_both (by simpa using none)] at asks
    cases asks
  have empty : linkSetting u = [] → asksText (linkSetting u) = false ∧
      isNone (linkSetting u) = false := by
    intro same
    rw [same]
    exact ⟨asksText_nil, isNone_nil⟩
  have tls : isNone (ascii "tls") = false := by decide
  have none : isNone (ascii "none") = true := by decide
  simp only [linkSchemes, map_cons, map_nil, mem_cons, not_mem_nil, or_false] at known
  have setting : getq u ["security"] = linkSetting u := rfl
  rcases known with named | named | named | named | named | named | named | named | named | named
  all_goals
    simp only [linkSecurity, linkIntent, linkKept, named, setting]
    generalize linkSetting u = asked at both empty
    simp +decide only [if_true, if_false, tls, none, Bool.not_true, Bool.not_false]
    by_cases absent : asked = []
    · obtain ⟨noTLS, noNone⟩ := empty absent
      subst absent
      simp [tls, none, noTLS, noNone]
    · cases asks : asksText asked <;> cases off : isNone asked <;> simp_all

/-- A VMess link without a setting gets `auto`, which is TLS. -/
theorem auto_iff (asked : Bytes) :
    (!isNone (firstText [asked, ascii "auto"])) = asksText asked ↔
      (asksText asked || isNone asked) = true := by
  by_cases absent : asked = []
  · subst absent
    decide
  · have first : firstText [asked, ascii "auto"] = asked := by
      simp [firstText, absent]
    have both : isNone asked = true → asksText asked = false := not_both
    cases asks : asksText asked <;> cases off : isNone asked <;> simp_all

section

variable {gzip : Gzip} {floats : Parser.Floats} {spec : Parser.OutboundSpec} {reference : Bytes}
    {o : Outbound}
    (done : applyCredential gzip (bareOutbound (outboundToProto hash spec reference))
    (parseCredential (credentialDocument gzip spec)) = some o)

include done

theorem keeps_link : Keeps (linkIntent u) o ↔ (!isNone spec.security) = (linkIntent u).tls := by
  rw [Keeps, (tls_of_spec done).1]
  exact and_iff_left fun names none => nomatch none

theorem keeps_object {ms : Parser.Object} {fallback : Bytes}
    (security : spec.security = memberText ms "security") (name : spec.serverName = [])
    (key : spec.publicKey = []) (short : spec.shortID = []) :
    Keeps (objectIntent ms fallback) o ↔ objectKept ms fallback = true := by
  obtain ⟨enabled, serverName, publicKey, shortID⟩ := tls_of_spec done
  rw [name] at serverName
  rw [Keeps, enabled, serverName, publicKey key, shortID short, security, objectKept, objectIntent]
  have blank : Json.fix [] = [] := rfl
  cases asks : objectAsks ms fallback with
  | false =>
    simp only [Bool.not_eq_eq_eq_not]
    exact and_iff_left fun names none => nomatch none
  | true =>
    simp only [if_true, Bool.and_eq_true, decide_eq_true_eq, Option.mem_some_iff, forall_eq', blank]
    refine and_congr_right fun _ => ?_
    constructor
    · rintro ⟨first, second, third⟩
      cases shape : objectNames ms with
      | mk serverName publicKey shortID =>
        rw [shape] at first second third
        simp only at first second third
        rw [← first, ← second, ← third]
    · intro empty
      rw [empty]
      exact ⟨rfl, rfl, rfl⟩

/-- The transport security of a server in a plan is what its source asks for exactly if the source is
one of those whose setting survives. -/
theorem keeps_of_read {s : Source} (read : s.read floats = .ok spec) :
    Keeps (s.intent floats) o ↔ s.kept floats = true := by
  cases s with
  | item ms =>
    obtain ⟨rfl, -⟩ := Parser.OutboundSpec.checked_ok read
    exact keeps_object done rfl rfl rfl rfl
  | proxy ms =>
    rw [Source.read] at read
    cases accepted : mapJSONSpec floats ms [] with
    | error e => rw [accepted] at read; cases read
    | ok p =>
      rw [accepted] at read
      obtain ⟨rfl, -⟩ := Parser.OutboundSpec.checked_ok accepted
      cases read
      exact keeps_object done rfl rfl rfl rfl
  | link raw =>
    obtain ⟨-, u, url, made⟩ := parseLink_read read
    rw [Source.intent, Source.kept, url]
    simp only
    cases made with
    | object ms scheme held =>
      rw [heldObject] at held
      rw [vmessObject, if_pos scheme, held]
      exact keeps_object done rfl rfl rfl rfl
    | vmess scheme none =>
      rw [heldObject] at none
      rw [vmessObject, if_pos scheme, none]
      refine (keeps_link done).trans ?_
      simp only [linkIntent, linkKept, scheme]
      simp +decide only [if_false]
      exact auto_iff _
    | wire port other scheme =>
      rw [vmessObject, if_neg other]
      refine (keeps_link done).trans ?_
      have kinds : ∀ s ∈ ["wireguard", "wg"].map ascii, s ∉ alwaysTLS ∧ s ≠ ascii "tuic" ∧
          s ∉ ["trojan", "hysteria2", "hy2", "https"].map ascii ∧ s ≠ ascii "ss" := by
        decide
      obtain ⟨k₁, k₂, k₃, k₄⟩ := kinds _ scheme
      simp only [linkIntent, linkKept, k₁, k₂, k₃, k₄, scheme]
      exact eq_comm
    | link port other wire scheme =>
      rw [vmessObject, if_neg other]
      exact (keeps_link done).trans (linkKept_iff scheme)

end

/-- Every server of an import comes from a source, apart from provider configurations and WireGuard
files. -/
theorem parse_sources {lib : Parser.Readers} {limit : Nat} {src : Bytes} {r : Parser.Imported}
    (done : parse hash lib limit src = .ok r) :
    r.Every fun o => (∃ s : Source, s.read lib.floats = .ok o) ∨
      (∃ ms, profileSpec lib.floats ms = .ok o) ∨ ∃ s r, parseWG s = .ok r ∧
        o ∈ r.servers := by
  refine parse_every (fun raw o accepted => .inl ⟨.link raw, accepted⟩)
    (fun ms o accepted => .inl ⟨.item ms, accepted⟩)
    (fun ms o accepted => .inr (.inl ⟨ms, accepted⟩)) (fun ms o accepted => .inl ⟨.proxy ms, ?_⟩)
    (fun s r accepted o inside => .inr (.inr ⟨s, r, accepted, inside⟩)) done
  rw [Source.read, accepted]
  rfl

/-- A server that was parsed, stored and resolved has TLS exactly if its source asks for it, with the
names of its own block, exactly if the source is one whose setting survives. -/
theorem tls_intent_iff {gzip : Gzip} {hash : Parser.Hash} {floats : Parser.Floats} {s : Source}
    {spec : Parser.OutboundSpec} {reference : Bytes} {vault : Entries} {o : Outbound}
    (read : s.read floats = .ok spec) (named : reference ≠ [])
    (stored : vault.lookup reference = some (credentialDocument gzip spec))
    (back : outboundFromProto gzip (outboundToProto hash spec reference) vault = some o) :
    Keeps (s.intent floats) o ↔ s.kept floats = true := by
  rw [outboundFromProto_stored named stored] at back
  exact keeps_of_read back read

/-! ## Two sources -/

/-- A plain Shadowsocks server of a Clash list. -/
def clashProxy : Parser.Object :=
  [(ascii "type", .string (ascii "shadowsocks")), (ascii "server", .string (ascii "a.example.com")),
    (ascii "port", .string (ascii "8388")), (ascii "method", .string (ascii "aes-256-gcm")),
    (ascii "password", .string (ascii "secret"))]

/-- A source that is imported into an empty vault and taken into a plan. -/
def Source.planned (s : Source) : Option Outbound := do
  let spec ← (s.read noFloats).toOption
  outboundFromProto markedGzip (outboundToProto zeroHash spec linkRef)
    (AList.insert linkRef (credentialDocument markedGzip spec) ∅)

/-- A plain Shadowsocks server of a Clash list becomes a TLS server. -/
theorem plain_proxy_gets_tls :
    ((Source.proxy clashProxy).intent noFloats).tls = false ∧
      (Source.proxy clashProxy).planned.map (·.tls.enabled) = some true := by
  decide

def realityLink : Bytes := ascii "vless://a.example.com:443?security=reality"

theorem reality_link_keeps_tls : ∃ o, (Source.link realityLink).planned = some o ∧
    Keeps ((Source.link realityLink).intent noFloats) o := by
  have run : (Source.link realityLink).planned.isSome = true := by decide
  obtain ⟨o, planned⟩ := Option.isSome_iff_exists.mp run
  have steps : ∀ s : Source, s.planned = some o → ∃ spec, s.read noFloats = .ok spec ∧
      outboundFromProto markedGzip (outboundToProto zeroHash spec linkRef)
        (AList.insert linkRef (credentialDocument markedGzip spec) ∅) = some o := by
    intro s planned
    obtain ⟨spec, read, back⟩ := Option.bind_eq_some_iff.mp planned
    exact ⟨spec, ok_of_toOption read, back⟩
  obtain ⟨spec, read, back⟩ := steps _ planned
  have named : linkRef ≠ [] := by decide
  have kept : (Source.link realityLink).kept noFloats = true := by decide
  exact ⟨o, planned, (tls_intent_iff read named (AList.lookup_insert _) back).mpr kept⟩

end Sora.Control
