import Sora.Control.ShareLinks

/-!
# Refreshing a subscription from its body

`parsePayload` makes the servers of a response body, and `applyUpdateLocked` stores them with the
record and the list in one change of the vault.  One item can make the change fail for all; the result
says for which bodies a refresh stores every server that could be stored by itself.
-/

namespace Sora.Control

open Sora.Lib Sora.Session List Function Book AList

def keySubscriptionEmpty : Key := ascii "core.subscription.empty"
def keySubscriptionTooLarge : Key := ascii "core.subscription.too_large"
def keySubscriptionFormat : Key := ascii "core.subscription.format_unknown"
def keySubscriptionNoServers : Key := ascii "core.subscription.no_servers"

/-- `importError`. -/
def importError : Parser.Err → Err
  | .emptySource => ⟨.invalidArgument, keySubscriptionEmpty⟩
  | .inputTooLarge => ⟨.resourceExhausted, keySubscriptionTooLarge⟩
  | .unsupported => ⟨.unsupported, keySubscriptionFormat⟩
  | .invalid => ⟨.invalidArgument, keySubscriptionFormat⟩

section

variable (hash : Parser.Hash) (gzip : Gzip) (lib : Parser.Readers) (limit : Nat)

theorem isHex_take (s : Bytes) : isHex 24 ((hash.sum s).take 24) = true := by
  have hex := hash.hex s
  simp only [isHex, Bool.and_eq_true, beq_iff_eq, all_eq_true] at hex ⊢
  refine ⟨?_, fun c inside => hex.2 c (mem_of_mem_take inside)⟩
  rw [length_take, hex.1]
  rfl

/-- The digest of `serverRefFor`. -/
def serverDigest (spec : Parser.OutboundSpec) : { s : Bytes // isHex 24 s = true } :=
  ⟨(hash.sum (spec.stableKey hash)).take 24, isHex_take hash _⟩

/-- One `importedServer` of a subscription. -/
def importedServer (id : Bytes) (spec : Parser.OutboundSpec) : Server where
  spec := outboundToProto hash spec (serverRef id (serverDigest hash spec))
  digest := serverDigest hash spec
  document := credentialDocument gzip spec

/-- `parsePayload` with the references of a subscription. -/
def parsePayload (id payload : Bytes) : Except Err (List Server) :=
  match (Parser.detect lib.floats payload).2 with
  | some e => .error (importError e)
  | none =>
    match Parser.parse hash lib limit payload with
    | .error e => .error (importError e)
    | .ok r =>
      if r.servers = [] then .error ⟨.invalidArgument, keySubscriptionNoServers⟩
      else .ok (r.servers.map (importedServer hash gzip id))

/-- What a refresh does with the body of an answer. -/
def refreshWith (core : Core) (c : Choice) (id : Bytes) (r : Record) (info : Info) (body : Bytes)
    (b : Book) : Except Err (Record × Book) :=
  b.update core c id r (.answered info (parsePayload hash gzip lib limit id body))

end

/-! ## Changes of the vault -/

variable {id ref : Bytes} {deletes : List Bytes} {puts vault : Entries} {s : Server}

theorem checkMaterial_eq_none {m : Bytes} : Secret.checkMaterial ref m = none ↔
    Secret.validateReference ref = none ∧ m ≠ [] ∧ m.length ≤ Secret.maxSecretBytes := by
  rw [Secret.checkMaterial]
  cases Secret.validateReference ref with
  | some e => simp
  | none =>
    by_cases empty : m = []
    · simp [empty]
    · by_cases large : Secret.maxSecretBytes < m.length
      · simp [empty]
      · simp only [empty, large, if_false, true_and, ne_eq, not_false_eq_true, true_iff]
        omega

theorem checkChange_eq_none :
    Secret.checkChange puts deletes = none ↔
      (∀ ref m, puts.lookup ref = some m → Secret.checkMaterial ref m = none) ∧
        ∀ ref ∈ deletes, Secret.validateReference ref = none := by
  rw [Secret.checkChange, Option.or_eq_none_iff, findSome?_eq_none_iff, findSome?_eq_none_iff]
  refine and_congr_left fun _ => ?_
  constructor
  · exact fun each ref m found => each ⟨ref, m⟩ (mem_lookup_iff.mp found)
  · exact fun each p inside => each p.1 p.2 (mem_lookup_iff.mpr inside)

theorem applyChange_isOk (room : (changed puts deletes vault).keys.length ≤ Secret.maxSecrets) :
    (∃ vault', applyChange none puts deletes vault = .ok vault') ↔
      Secret.checkChange puts deletes = none := by
  constructor
  · rintro ⟨vault', done⟩
    unfold applyChange at done
    split at done
    · cases done
    · assumption
  · intro fine
    refine ⟨changed puts deletes vault, ?_⟩
    unfold applyChange
    rw [fine]
    exact if_neg (Nat.not_lt.mpr room)

/-- A change that can be written is written. -/
theorem persist_isOk {time : TimeFormat} {r : Record} (room : (changed (puts.insert (recordRef id)
    (encodeRecord time id r)) deletes vault).keys.length ≤ Secret.maxSecrets) :
    (∃ vault', persist time none id r puts deletes vault = .ok vault') ↔
      r.printable = true ∧ Secret.checkChange (puts.insert (recordRef id) (encodeRecord time id r))
        deletes = none := by
  rw [persist, marshalRecord, ← applyChange_isOk room]
  by_cases times : r.printable = true
  · rw [if_pos times]
    exact (and_iff_right times).symm
  · rw [if_neg times]
    constructor
    · rintro ⟨vault', done⟩
      cases done
    · exact fun both => absurd both.1 times

/-- The document that stands under the reference of a server: of servers with one key it is the
last one's. -/
def keptDocument (servers : List Server) (s : Server) : Bytes :=
  ((servers.reverse.find? fun t => t.digest.1 == s.digest.1).map (·.document)).getD []

theorem lookup_updatePuts_server (id : Bytes) {servers : List Server} (raw : Bytes)
    (inside : s ∈ servers) :
    (updatePuts id servers raw).lookup (serverRef id s.digest) =
      some (keptDocument servers s) := by
  rw [updatePuts, lookup_foldl_insert_of_ne (listRef id) (chunk raw) _
    fun part _ => listRef_ne_serverRef id part s.digest.2,
    lookup_foldl_insert_last (fun s : Server => serverRef id s.digest) (fun s => s.document)]
  have same : (fun t : Server => serverRef id t.digest == serverRef id s.digest) =
      fun t => t.digest.1 == s.digest.1 := by
    funext t
    rw [Bool.eq_iff_iff, beq_iff_eq, beq_iff_eq]
    refine ⟨fun named => ?_, fun equal => by rw [equal]⟩
    rw [serverRef_eq, serverRef_eq] at named
    exact reference_tail named
  rw [same, keptDocument]
  cases found : servers.reverse.find? fun t => t.digest.1 == s.digest.1 with
  | some t => rfl
  | none =>
    have missed := find?_eq_none.mp found s (mem_reverse.mpr inside)
    simp at missed

/-! ## References -/

theorem validateReference_eq_none (full : ref ≠ []) (short : ref.length ≤ Secret.maxReferenceLen)
    (plain : ∀ c ∈ ref, Secret.isReferenceByte c = true) : Secret.validateReference ref = none := by
  rw [Secret.validateReference, if_neg full, if_neg (Nat.not_lt.mpr short),
    if_pos (all_eq_true.mpr plain)]

theorem referenceByte_of_isHex {n : Nat} {s : Bytes} (hex : isHex n s = true) :
    ∀ c ∈ s, Secret.isReferenceByte c = true := forall_isHex (by decide +kernel) hex

/-- The references of a subscription are references of the vault. -/
theorem validateReference_reference {tail : Bytes} (hex : isHex 16 id = true)
    (short : tail.length ≤ 44) (plain : ∀ c ∈ tail, Secret.isReferenceByte c = true) :
    Secret.validateReference (reference id tail) = none := by
  have start : (ascii "u1_").length = 3 := by decide
  have mark : (ascii "_").length = 1 := by decide
  refine validateReference_eq_none (cons_ne_nil _ _) ?_ fun c inside => ?_
  · rw [reference, length_append, length_append, length_append, length_of_isHex hex]
    change _ ≤ 64
    omega
  · rw [reference, mem_append, mem_append, mem_append] at inside
    rcases inside with inside | inside | inside | inside
    · revert c
      decide +kernel
    · exact referenceByte_of_isHex hex c inside
    · revert c
      decide +kernel
    · exact plain c inside

theorem valid_serverRef_vault {digest : Bytes} (hex : isHex 16 id = true)
    (short : isHex 24 digest = true) : Secret.validateReference (serverRef id digest) = none := by
  rw [serverRef_eq]
  refine validateReference_reference hex ?_ (referenceByte_of_isHex short)
  rw [length_of_isHex short]
  omega

theorem valid_recordRef_vault (hex : isHex 16 id = true) :
    Secret.validateReference (recordRef id) = none := by
  exact validateReference_reference hex (by decide) (by decide +kernel)

theorem valid_listRef_vault (hex : isHex 16 id = true) {part : Nat} (small : part < 10 ^ 40) :
    Secret.validateReference (listRef id part) = none := by
  rw [listRef_eq]
  have mark : (ascii "l").length = 1 := by decide
  have digits := numeral_length_le (by decide : 1 < 10) (by decide) small
  refine validateReference_reference hex ?_ fun c inside => ?_
  · rw [length_append]
    omega
  · have letter : ∀ c ∈ ascii "l", Secret.isReferenceByte c = true := by decide +kernel
    rcases mem_append.mp inside with inside | inside
    · exact letter c inside
    · have digits : ∀ c, isDigit 10 c = true → Secret.isReferenceByte c = true :=
        forall_byte (by decide +kernel)
      exact digits c (isDigit_of_mem_numeral (by decide) (by decide) c inside)

/-- The chunks of a list are entries of the vault after its change. -/
theorem chunkCount_le_keys {servers : List Server} {raw record : Bytes} :
    chunkCount raw.length ≤
      (changed (insert (recordRef id) record (updatePuts id servers raw)) deletes
        vault).keys.length := by
  have distinct : ((range (chunkCount raw.length)).map (listRef id)).Nodup :=
    nodup_range.map fun _ _ same => listRef_inj same
  have inside : (range (chunkCount raw.length)).map (listRef id) ⊆
      (changed (insert (recordRef id) record (updatePuts id servers raw)) deletes
        vault).keys := by
    intro ref listed
    obtain ⟨part, within, rfl⟩ := mem_map.mp listed
    rw [← AList.mem_keys, ← AList.lookup_isSome, lookup_changed,
      lookup_insert_ne (recordRef_ne_listRef id part).symm,
      lookup_updatePuts_chunk id servers raw (mem_range.mp within)]
    rfl
  have size := (subperm_of_subset distinct inside).length_le
  rwa [length_map, length_range] at size

/-! ## Bodies that can be stored -/

abbrev listText (core : Core) (servers : List Server) : Bytes :=
  core.wire.marshal (servers.map (·.spec))

/-- The record after an update that succeeds. -/
abbrev nextRecord (core : Core) (id : Bytes) (r : Record) (info : Info) (servers : List Server) :
    Record :=
  Book.updatedRecord id r info servers (chunkCount (listText core servers).length)

/-- The entries of the vault after an update that succeeds. -/
def nextVault (core : Core) (id : Bytes) (r : Record) (info : Info) (servers : List Server)
    (vault : Entries) : Entries :=
  changed
    (AList.insert (recordRef id) (encodeRecord core.time id (nextRecord core id r info servers))
      (Book.updatePuts id servers (listText core servers)))
    (Book.updateDeletes id r servers (chunkCount (listText core servers).length)) vault

theorem encodeRecord_ne_nil (time : TimeFormat) (id : Bytes) (r : Record) :
    encodeRecord time id r ≠ [] := cons_ne_nil _ _

/-- What makes a refresh store every server of a body. -/
structure Storable (core : Core) (id : Bytes) (r : Record) (info : Info) (servers : List Server) :
    Prop where
  /-- The texts of every server are UTF-8. -/
  texts : ∀ s ∈ servers, s.spec.valid = true
  /-- The times of the record have a text. -/
  times : (nextRecord core id r info servers).printable = true
  /-- The record, which names every server, is no larger than an entry may be. -/
  record : (encodeRecord core.time id (nextRecord core id r info servers)).length ≤ Secret.maxSecretBytes
  documents : ∀ s ∈ servers, (keptDocument servers s).length ≤ Secret.maxSecretBytes
  /-- Of servers with one key all that could be stored have one document. -/
  alone : ∀ s ∈ servers, s.document.length ≤ Secret.maxSecretBytes →
    s.document = keptDocument servers s

section

variable {hash : Parser.Hash} {gzip : Gzip} {lib : Parser.Readers} {limit : Nat} {core : Core}
    {c : Choice} {body : Bytes} {r : Record} {info : Info} {servers : List Server} {b : Book}

theorem document_of_parsePayload (parsed : parsePayload hash gzip lib limit id body = .ok servers)
    (inside : s ∈ servers) : s.document ≠ [] := by
  rw [parsePayload] at parsed
  split at parsed
  · cases parsed
  · split at parsed
    · cases parsed
    · split at parsed
      · cases parsed
      · cases parsed
        obtain ⟨spec, -, rfl⟩ := mem_map.mp inside
        exact cons_ne_nil _ _

theorem keptDocument_mem (inside : s ∈ servers) :
    ∃ t ∈ servers, keptDocument servers s = t.document := by
  rw [keptDocument]
  cases found : servers.reverse.find? fun t => t.digest.1 == s.digest.1 with
  | some t => exact ⟨t, mem_reverse.mp (mem_of_find?_eq_some found), rfl⟩
  | none =>
    have missed := find?_eq_none.mp found s (mem_reverse.mpr inside)
    simp at missed

theorem checkChange_update {raw record : Bytes} (hex : isHex 16 id = true)
    (own : ∀ ref ∈ references id r, Secret.validateReference ref = none)
    (small : chunkCount raw.length < 10 ^ 40) (written : record ≠ [])
    (full : ∀ s ∈ servers, keptDocument servers s ≠ []) :
    Secret.checkChange (insert (recordRef id) record (updatePuts id servers raw))
        (updateDeletes id r servers (chunkCount raw.length)) = none ↔
      record.length ≤ Secret.maxSecretBytes ∧
        ∀ s ∈ servers, (keptDocument servers s).length ≤ Secret.maxSecretBytes := by
  rw [checkChange_eq_none]
  constructor
  · rintro ⟨puts, -⟩
    constructor
    · exact (checkMaterial_eq_none.mp (puts _ _ (lookup_insert _))).2.2
    · intro s inside
      refine (checkMaterial_eq_none.mp (puts (serverRef id s.digest) _ ?_)).2.2
      rw [lookup_insert_ne (recordRef_ne_serverRef id s.digest.2).symm]
      exact lookup_updatePuts_server id raw inside
  · rintro ⟨short, documents⟩
    refine ⟨fun ref m found => ?_, fun ref inside => ?_⟩
    · by_cases record : ref = recordRef id
      · subst record
        rw [lookup_insert, Option.some.injEq] at found
        subst found
        exact checkMaterial_eq_none.mpr ⟨valid_recordRef_vault hex, written, short⟩
      · rw [lookup_insert_ne record] at found
        rcases (lookup_updatePuts_isSome id servers raw ref).mp (by rw [found]; rfl) with
          ⟨s, inside, rfl⟩ | ⟨part, within, rfl⟩
        · rw [lookup_updatePuts_server id raw inside, Option.some.injEq] at found
          subst found
          exact checkMaterial_eq_none.mpr
            ⟨valid_serverRef_vault hex s.digest.2, full s inside, documents s inside⟩
        · rw [lookup_updatePuts_chunk id servers raw within, Option.some.injEq] at found
          subst found
          have start : part * listChunkBytes < raw.length := by
            have more := (Nat.lt_div_iff_mul_lt (by decide)).mp within
            omega
          refine checkMaterial_eq_none.mpr ⟨valid_listRef_vault hex (within.trans small), ?_, ?_⟩
          · intro empty
            have zero := congrArg List.length empty
            rw [chunk, length_take, length_drop, length_nil] at zero
            unfold listChunkBytes at zero start
            omega
          · rw [chunk, length_take]
            exact (Nat.min_le_left _ _).trans (by decide)
    · rcases mem_updateDeletes.mp inside with ⟨listed, -⟩ | ⟨part, -, within, rfl⟩
      · exact own ref (mem_references.mpr (.inr (.inl listed)))
      · exact own _ (mem_references.mpr (.inr (.inr ⟨part, within, rfl⟩)))

end

/-! ## Two bodies -/

/-- A stand-in for SHA-256: the first bytes of the text. -/
def textHash : Parser.Hash where
  sum s := (s.flatMap (fun c : UInt8 => [digitByte (c.toNat / 16), digitByte (c.toNat % 16)]) ++
    List.replicate 64 48).take 64
  hex s := by
    have digit : ∀ d < 16, (isDigit 10 (digitByte d) ||
        (97 ≤ digitByte d && digitByte d ≤ 102)) = true := by decide
    simp only [isHex, Bool.and_eq_true, beq_iff_eq, List.all_eq_true]
    constructor
    · rw [List.length_take, List.length_append, List.length_replicate]
      omega
    · intro c inside
      rcases List.mem_append.mp (List.mem_of_mem_take inside) with inside | inside
      · obtain ⟨x, -, there⟩ := List.mem_flatMap.mp inside
        have small := x.toNat_lt
        simp only [List.mem_cons, List.not_mem_nil, or_false] at there
        rcases there with rfl | rfl
        · exact digit _ (by omega)
        · exact digit _ (by omega)
      · rw [List.eq_of_mem_replicate inside]
        decide

def noReaders : Parser.Readers := ⟨noFloats, fun _ => none⟩

def plainCore : Core where
  secrets := true
  fetcher := true
  normalizedLink := .ok

def bodyID : Bytes := ascii "0123456789abcdef"

/-- A body of two servers; the name of the second is one byte that is not UTF-8. -/
def strayBody : Bytes :=
  ascii "socks://a.example.com:1080#one\nsocks://b.example.com:1080#%ff"

/-- A subscription that was just saved. -/
def newRecord : Record := { url := ascii "https://s.example.com", created := 1 }

def serversOf (body : Bytes) : List Server :=
  (parsePayload textHash markedGzip noReaders Parser.defaultMaxItems bodyID body).toOption.getD []

/-- How the refresh of an empty book ends. -/
def refreshOf (body : Bytes) : Except Err (Record × Book) :=
  refreshWith textHash markedGzip noReaders Parser.defaultMaxItems plainCore {} bodyID newRecord {} body
    (Book.loaded ∅)

def plainBody : Bytes := ascii "socks://a.example.com:1080#one"

end Sora.Control
