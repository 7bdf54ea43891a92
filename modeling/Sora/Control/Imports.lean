import Sora.Control.ShareLinks
import Sora.Contract.Catalog

/-!
# Imported servers in a plan

A server that an import returns is sent to the client and comes back in a plan.  The import checks a
server with its own rules and the plan with others; this module says for which servers of an import
both agree, and when a whole import can be taken into a plan.
-/

namespace Sora.Control

open Sora.Lib Sora.Contract List Bool Json Parser

/-! ## Numbers of AmneziaWG -/

theorem digit_low : ∀ c, isDigit 10 c = true → c < 0x80 := forall_byte (by decide +kernel)

variable {name s : Bytes} {gzip : Gzip} {hash : Parser.Hash} {spec : Parser.OutboundSpec}

theorem atoi_low (number : (atoi s).isSome) : ∀ c ∈ s, c < 0x80 := by
  rw [atoi] at number
  have digits : isDigits (if s.head? = some 45 ∨ s.head? = some 43 then s.tail else s) = true := by
    by_contra none
    simp [none] at number
  rw [isDigits, and_eq_true, all_eq_true] at digits
  intro c inside
  by_cases signed : s.head? = some 45 ∨ s.head? = some 43
  · rw [if_pos signed] at digits
    cases s with
    | nil => cases inside
    | cons x s =>
      rcases mem_cons.mp inside with rfl | later
      · simp only [head?_cons, Option.some.injEq] at signed
        rcases signed with rfl | rfl
        · decide
        · decide
      · exact digit_low c (digits.2 c later)
  · rw [if_neg signed] at digits
    exact digit_low c (digits.2 c inside)

/-- A number is ASCII, so replacing stray bytes neither makes one nor spoils one. -/
theorem atoi_fix (s : Bytes) : (atoi (fix s)).isSome ↔ (atoi s).isSome := by
  constructor
  · intro number
    rwa [fix_of_low (atoi_low number)] at number
  · intro number
    rwa [fix_of_valid (valid_of_ascii (atoi_low number))]

theorem fix_eq_nil : fix s = [] ↔ s = [] := by
  constructor
  · intro empty
    have low : ∀ c ∈ fix s, c < 0x80 := by
      rw [empty]
      exact fun c inside => (not_mem_nil inside).elim
    rw [← fix_of_low low, empty]
  · rintro rfl
    rfl

/-- The parameters of AmneziaWG that must be numbers are. -/
def NumbersRead (spec : Parser.OutboundSpec) : Prop :=
  ∀ key ∈ amneziaNumbers, trimSpace (spec.options key) = [] ∨
    (atoi (trimSpace (spec.options key))).isSome

theorem amneziaFrom_isSome (spec : Parser.OutboundSpec) :
    (amneziaFrom (printObject (amneziaMaterial spec.options))).isSome ↔ NumbersRead spec := by
  have names : (amneziaKeys.map fun key => (key, trimSpace (spec.options key))).map (·.1) =
      amneziaKeys := by
    rw [map_map]
    exact map_id _
  have values : ∀ key ∈ amneziaNumbers,
      valueOf (repaired (amneziaMaterial spec.options)) key =
        fix (trimSpace (spec.options key)) := by
    intro key inside
    have known : ∀ key ∈ amneziaNumbers, key ∈ amneziaKeys := by decide
    refine valueOf_repaired ?_ ?_ (mem_map.mpr ⟨key, known key inside, rfl⟩)
    · rw [names]
      decide
    · intro m there
      obtain ⟨key, listed, rfl⟩ := mem_map.mp there
      change fix key = key
      clear there inside
      revert key
      decide
  rw [amneziaFrom, readObject_print]
  change ((amneziaNumbers.mapM
    (amneziaNumber (valueOf (repaired (amneziaMaterial spec.options))))).bind _).isSome ↔ _
  rw [Option.isSome_bind]
  have total : ∀ r : Option (List Int), r.any (fun _ => true) = r.isSome := by
    intro r
    cases r with
    | none | some l => rfl
  simp only [Option.isSome_some, total]
  rw [isSome_mapM]
  refine forall₂_congr fun key inside => ?_
  rw [amneziaNumber, values key inside]
  by_cases empty : trimSpace (spec.options key) = []
  · rw [if_pos (fix_eq_nil.mpr empty)]
    exact ⟨fun _ => .inl empty, fun _ => rfl⟩
  · rw [if_neg fun none => empty (fix_eq_nil.mp none), atoi_fix]
    exact ⟨.inr, fun either => either.resolve_left empty⟩

/-- The parameters of a document are refused if one that must be a number is not. -/
theorem restoredAmnezia_isSome (o : Outbound) (spec : Parser.OutboundSpec) :
    (restoredAmnezia o (parseCredential (credentialDocument gzip spec))).isSome ↔
      (equalFold spec.protocol (ascii "wireguard") = true → NumbersRead spec) := by
  by_cases wireguard : equalFold spec.protocol (ascii "wireguard") = true
  · simp only [wireguard, true_imp_iff]
    by_cases none : amneziaMaterial spec.options = []
    · have there : ("amneziawg", []) ∈ credentialValues gzip spec := by
        simp [credentialValues, none]
      rw [restoredAmnezia, parseCredential_document gzip there]
      refine ⟨fun _ => ?_, fun _ => rfl⟩
      rw [← amneziaFrom_isSome, none]
      decide
    · have there : ("amneziawg", printObject (amneziaMaterial spec.options)) ∈
          credentialValues gzip spec := by
        simp [credentialValues, none, wireguard]
      have full : printObject (amneziaMaterial spec.options) ≠ [] := cons_ne_nil _ _
      rw [restoredAmnezia, parseCredential_document gzip there,
        fix_of_valid (valid_printObject _), if_neg full, Option.isSome_map,
        amneziaFrom_isSome]
  · rw [restoredAmnezia_other o (eq_false_iff.mpr wireguard)]
    simp [wireguard]

/-! ## Servers that fit -/

/-- An imported server whose fields pass the checks of a plan. -/
structure Fits (hash : Parser.Hash) (spec : Parser.OutboundSpec) : Prop where
  /-- Some engine carries the protocol. -/
  protocol : carried (.ofName spec.protocol) = true
  id : (spec.stableKey hash).length ≤ maxIDLen
  /-- The name, or the id of a server without one, can be shown. -/
  name : validDisplayName (if spec.displayName = [] then spec.stableKey hash
    else spec.displayName) = true
  /-- The host is a dotted name or an IPv4 address. -/
  server : validServer spec.host true = true
  alpn : (comma.intercalate spec.alpn).count 44 < 8
  /-- A profile has outbounds, whatever the case of that key. -/
  outbounds : spec.protocol = ascii "xray-profile" →
    (profileOutbounds (spec.options (ascii "profile"))).any (fun l => !l.isEmpty) = true
  profile : (spec.options (ascii "profile")).length ≤ maxPlanBytes
  amnezia : equalFold spec.protocol (ascii "wireguard") = true → NumbersRead spec

theorem ofName_known (known : carried (.ofName name) = true) : name ∈ protocolNames.map (·.1) := by
  have some := ((carried_iff _).mp known).2 name
  by_contra missing
  apply some
  rw [Protocol.ofName]
  have none : protocolNames.find? (fun p => p.1 == name) = none := by
    rw [find?_eq_none]
    intro p inside same
    exact missing (mem_map.mpr ⟨p, inside, by simpa using same⟩)
  rw [none]
  rfl

theorem ofName_profile : Protocol.ofName name = .xrayProfile ↔ name = ascii "xray-profile" := by
  constructor
  · intro same
    have known : name ∈ protocolNames.map (·.1) := by
      apply ofName_known
      rw [same]
      rfl
    revert same
    revert name
    decide
  · rintro rfl
    decide

/-- The key of a server with a known protocol has no blanks at its ends. -/
theorem trimSpace_stableKey (known : carried (.ofName spec.protocol) = true) :
    trimSpace (spec.stableKey hash) = spec.stableKey hash := by
  have first : ∃ c rest, spec.protocol = c :: rest ∧ isSpace c = false := by
    have shape : ∀ name ∈ protocolNames.map (·.1), name.head?.any (fun c => !isSpace c) = true := by
      decide
    have found := shape _ (ofName_known known)
    cases named : spec.protocol with
    | nil => rw [named] at found; cases found
    | cons c rest =>
      rw [named] at found
      exact ⟨c, rest, rfl, by simpa using found⟩
  have hex := hash.hex spec.identity
  have size : (hash.sum spec.identity).length = 64 := length_of_isHex hex
  have nonempty : (hash.sum spec.identity).take 16 ≠ [] := by
    intro empty
    have zero := congrArg List.length empty
    rw [length_take, size] at zero
    simp at zero
  obtain ⟨c, rest, named, mark⟩ := first
  have last : isSpace (((hash.sum spec.identity).take 16).getLast nonempty) = false := by
    have visible : ∀ c ∈ hash.sum spec.identity, isSpace c = false :=
      forall_isHex (by decide +kernel) hex
    exact visible _ (mem_of_mem_take (getLast_mem nonempty))
  rw [trimSpace]
  have front : (spec.stableKey hash).dropWhile isSpace = spec.stableKey hash := by
    rw [Parser.OutboundSpec.stableKey, named, cons_append, dropWhile_cons, mark]
    rfl
  rw [front, rdropWhile_eq_self_iff]
  intro full
  have end_ : (spec.stableKey hash).getLast full =
      ((hash.sum spec.identity).take 16).getLast nonempty := by
    simp only [Parser.OutboundSpec.stableKey]
    rw [getLast_append_of_ne_nil _ (cons_ne_nil _ _), getLast_cons (by simp),
      getLast_append_of_ne_nil _ (cons_ne_nil _ _), getLast_cons (by simp),
      getLast_append_of_ne_nil _ (cons_ne_nil _ _), getLast_cons nonempty]
  rw [end_, last]
  exact false_ne_true

/-- The number of protocols that the restored outbound offers. -/
theorem alpn_document (spec : Parser.OutboundSpec) :
    (if parseCredential (credentialDocument gzip spec) "alpn" = [] then ([] : List Bytes)
      else (parseCredential (credentialDocument gzip spec) "alpn").splitOn 44).length ≤ 8 ↔
      (comma.intercalate spec.alpn).count 44 < 8 := by
  have there : ("alpn", comma.intercalate spec.alpn) ∈ credentialValues gzip spec := by
    simp [credentialValues]
  rw [parseCredential_document gzip there]
  generalize comma.intercalate spec.alpn = joined
  by_cases empty : fix joined = []
  · rw [if_pos empty, fix_eq_nil.mp empty]
    simp
  · rw [if_neg empty, length_splitOn, count_fix (by decide)]
    omega

/-- What the restored outbound is made of. -/
theorem received {reference : Bytes} {o : Outbound} (done :
    applyCredential gzip (bareOutbound (outboundToProto hash spec reference)) (parseCredential
    (credentialDocument gzip spec)) = some o) :
    o.id = trimSpace (spec.stableKey hash) ∧
      o.name = (if spec.displayName = [] then trimSpace (spec.stableKey hash)
        else spec.displayName) ∧
      o.protocol = .ofName spec.protocol ∧ o.server = spec.host ∧ o.port = spec.port.toNat ∧
      o.bypass = none ∧ o.transport.headers = [] ∧
      (o.tls.alpn.length ≤ 8 ↔ (comma.intercalate spec.alpn).count 44 < 8) ∧
      o.profile = spec.options (ascii "profile") := by
  obtain ⟨-, ⟨id, name, protocol, server, port, bypass, headers⟩, alpn, profile⟩ :=
    applyCredential_some done
  refine ⟨id, name, protocol, server, port, bypass, headers, ?_, ?_⟩
  · rw [alpn]
    exact alpn_document spec
  · rw [restoredProfile_document] at profile
    by_cases empty : spec.options (ascii "profile") = []
    · rw [if_pos empty] at profile
      rw [empty]
      exact (Option.some.inj profile).symm
    · rw [if_neg empty] at profile
      split at profile
      · cases profile
      · exact (Option.some.inj profile).symm

theorem validServer_of_ne_nil {host : Bytes} (given : host ≠ []) (required : Bool) :
    validServer host required = validServer host true := by
  rw [validServer, validServer, if_neg given, if_neg given]

/-- The restored outbound passes the checks of a plan and has an engine exactly if the server
fits. -/
theorem valid_received_iff {reference : Bytes} (checked : spec.validate = none) :
    (∃ o, applyCredential gzip (bareOutbound (outboundToProto hash spec reference))
        (parseCredential (credentialDocument gzip spec)) = some o ∧
      o.valid = true ∧ carried o.protocol = true) ↔ Fits hash spec := by
  have applied := @applyCredential_isSome gzip (bareOutbound (outboundToProto hash spec reference))
    (parseCredential (credentialDocument gzip spec))
  rw [restoredProfile_isSome, restoredAmnezia_isSome] at applied
  obtain ⟨_, host, port⟩ := Parser.OutboundSpec.present_of_validate checked
  have numbered : spec.port.toNat ≠ 0 := fun zero => port (UInt16.toNat_inj.mp zero)
  have key := trimSpace_stableKey_ne_nil hash spec
  constructor
  · rintro ⟨o, done, valid, known⟩
    obtain ⟨id, name, protocol, server, _, _, _, alpn, profile⟩ := received done
    rw [protocol] at known
    have trimmed := @trimSpace_stableKey hash spec known
    rw [done] at applied
    have readable := applied.mp rfl
    simp only [Outbound.valid, and_eq_true, decide_eq_true_eq, or_eq_true,
      bne_iff_ne, id, name, protocol, server, profile, trimmed,
      validServer_of_ne_nil host] at valid
    obtain ⟨⟨⟨⟨⟨⟨⟨⟨⟨⟨_, short⟩, shown⟩, _⟩, _⟩, reachable⟩, _⟩, outbounds⟩, offered⟩, _⟩, _⟩ := valid
    exact
      { protocol := known
        id := short
        name := shown
        server := reachable
        alpn := alpn.mp offered
        outbounds := fun named => outbounds.resolve_left fun other => other (ofName_profile.mpr named)
        profile := readable.1
        amnezia := readable.2 }
  · intro fits
    obtain ⟨o, done⟩ := Option.isSome_iff_exists.mp (applied.mpr ⟨fits.profile, fits.amnezia⟩)
    obtain ⟨id, name, protocol, server, portNumber, bypass, headers, alpn, profile⟩ := received done
    have trimmed := @trimSpace_stableKey hash spec fits.protocol
    obtain ⟨noBypass, noOther⟩ := (carried_iff _).mp fits.protocol
    refine ⟨o, done, ?_, by rw [protocol]; exact fits.protocol⟩
    rw [trimmed] at id name key
    have outbounds : Protocol.ofName spec.protocol ≠ .xrayProfile ∨
        (profileOutbounds (spec.options (ascii "profile"))).any (fun l => !l.isEmpty) = true := by
      by_cases named : Protocol.ofName spec.protocol = .xrayProfile
      · exact .inr (fits.outbounds (ofName_profile.mp named))
      · exact .inl named
    simp only [Outbound.valid, and_eq_true, decide_eq_true_eq, or_eq_true, bne_iff_ne,
      id, name, protocol, server, profile, portNumber, headers, validServer_of_ne_nil host,
      not_eq_true', isEmpty_eq_false_iff]
    exact ⟨⟨⟨⟨⟨⟨⟨⟨⟨⟨key, fits.id⟩, fits.name⟩, noOther []⟩, .inr numbered⟩, fits.server⟩,
      .inl noBypass⟩, outbounds⟩, alpn.mpr fits.alpn⟩, Nat.zero_le _⟩, rfl⟩

/-! ## Whole imports -/

section

variable {lib : Parser.Readers} {limit : Nat} {src : Bytes} {r : Parser.Imported}
    {reference : Parser.OutboundSpec → Bytes} {vault : Parser.OutboundSpec → Entries}

end

/-! ## Two payloads -/

def linkReaders : Parser.Readers := ⟨noFloats, fun _ => none⟩

/-- A vault with the document of one server. -/
def vaultOf (spec : Parser.OutboundSpec) : Entries :=
  AList.insert linkRef (credentialDocument markedGzip spec) ∅

/-- The servers of a payload as a plan receives them. -/
def planned (payload : Bytes) : Option (List (Option Outbound)) :=
  (Parser.parse zeroHash linkReaders Parser.defaultMaxItems payload).toOption.map fun r =>
    r.servers.map fun s =>
      outboundFromProto markedGzip (outboundToProto zeroHash s linkRef) (vaultOf s)

def namedPayload : Bytes := ascii "socks://a.example.com:1080#one"

end Sora.Control
