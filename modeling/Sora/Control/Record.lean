import Sora.Lib.JsonValue
import Sora.Secret.Store
import Sora.Session.State

/-!
# Subscription records and their vault entries

A record, the servers that an update imports, and how both are kept in the vault: the record as
a JSON document, the credentials of every server under a reference of its own and the server
list in chunks.  The texts of times and the encoding of the server list belong to libraries;
they are parameters with the laws that the book relies on.
-/

namespace Sora.Control

open Sora.Lib Sora.Lib.Json Sora.Session List
open Option hiding mem_map

def keySecretStoreUnavailable : Key := ascii "core.secret.store_unavailable"
def keySecretReferenceInvalid : Key := ascii "core.secret.reference_invalid"
def keySecretTooLarge : Key := ascii "core.secret.too_large"
def keySecretStoreCorrupt : Key := ascii "core.secret.store_corrupt"
def keySecretNotFound : Key := ascii "core.secret.not_found"
def keySubscriptionScheme : Key := ascii "core.subscription.scheme_unsupported"
def keySubscriptionInterval : Key := ascii "core.subscription.interval_invalid"
def keySubscriptionDuplicate : Key := ascii "core.subscription.duplicate"
def keySubscriptionLimit : Key := ascii "core.subscription.limit"
def keySubscriptionNotFound : Key := ascii "core.subscription.not_found"
def keySubscriptionFetch : Key := ascii "core.subscription.fetch_failed"

def minute : Int := 60 * 10 ^ 9

def hour : Int := 60 * minute

def defaultUpdateInterval : Int := 24 * hour

def minUpdateInterval : Int := hour

def maxUpdateInterval : Int := 30 * 24 * hour

def recordVersion : Int := 1

def listChunkBytes : Nat := 60 * 2 ^ 10

/-! ## Records -/

/-- `subscription.Info`.  Times are nanoseconds since the zero time. -/
structure Info where
  title : Bytes := []
  updateInterval : Int := 0
  hasUsage : Bool := false
  upload : Nat := 0
  download : Nat := 0
  total : Nat := 0
  expire : Int := 0
  webPageURL : Bytes := []
  supportURL : Bytes := []
  announce : Bytes := []
  deriving DecidableEq

/-- `storedError`. -/
structure StoredError where
  code : Code
  key : Key
  detail : Bytes
  deriving DecidableEq

/-- `subscriptionRecord`, without its version and identifier.  Times are nanoseconds since the
zero time. -/
structure Record where
  url : Bytes
  name : Bytes := []
  userAgent : Bytes := []
  autoUpdate : Bool := false
  interval : Int := 0
  created : Int
  lastAttempt : Int := 0
  lastSuccess : Int := 0
  failures : Nat := 0
  lastError : Option StoredError := none
  info : Info := {}
  servers : List Bytes := []
  listParts : Nat := 0
  deriving DecidableEq

/-- `subscriptionRecord.interval`. -/
def Record.updateInterval (r : Record) : Int :=
  if 0 < r.interval then r.interval
  else if minUpdateInterval ≤ r.info.updateInterval then
    min r.info.updateInterval maxUpdateInterval
  else defaultUpdateInterval

/-- `nextUpdate`.  `retry` is the delay of the book's backoff for a ceiling and an attempt. -/
def nextUpdate (retry : Int → Nat → Int) (r : Record) : Int :=
  if !r.autoUpdate then 0
  else if r.lastAttempt = 0 then r.created
  else if 0 < r.failures then r.lastAttempt + retry (min hour r.updateInterval) (r.failures - 1)
  else r.lastSuccess + r.updateInterval

/-! ## References -/

def recordRef (id : Bytes) : Bytes := ascii "u1_" ++ id ++ ascii "_rec"

def listRef (id : Bytes) (part : Nat) : Bytes := ascii "u1_" ++ id ++ ascii "_l" ++ numeral 10 part

/-- `serverRefFor`, for the hexadecimal digest of the server's stable key. -/
def serverRef (id digest : Bytes) : Bytes := ascii "u1_" ++ id ++ ascii "_" ++ digest

/-- `n` digits as `hex.EncodeToString` prints them. -/
def isHex (n : Nat) (s : Bytes) : Bool :=
  s.length == n && s.all fun c => isDigit 10 c || (97 ≤ c && c ≤ 102)

/-! ## Server lists -/

/-- `corev1.OutboundSpec`, as `outboundToProto` fills it. -/
structure OutboundSpec where
  id : Bytes
  displayName : Bytes
  protocol : Bytes
  displayProtocol : Bytes
  transport : Bytes
  security : Bytes
  host : Bytes
  port : Nat
  reference : Bytes
  deriving DecidableEq

/-- Every text of the message is UTF-8. -/
def OutboundSpec.valid (s : OutboundSpec) : Bool :=
  [s.id, s.displayName, s.protocol, s.displayProtocol, s.transport, s.security, s.host,
    s.reference].all Json.valid

/-- The encoding of a server list; a list with a text that is not UTF-8 has none. -/
structure Wire where
  marshal : List OutboundSpec → Bytes
  unmarshal : Bytes → Option (List OutboundSpec)
  marshal_nil : marshal [] = []
  unmarshal_marshal : ∀ l, l.all OutboundSpec.valid = true → unmarshal (marshal l) = some l

/-- `importedServer`: what the server list says, the digest of the stable key and the
credentials. -/
structure Server where
  spec : OutboundSpec
  digest : { s : Bytes // isHex 24 s = true }
  document : Bytes

/-- How many chunks a list of `n` bytes takes. -/
def chunkCount (n : Nat) : Nat := (n + (listChunkBytes - 1)) / listChunkBytes

def chunk (raw : Bytes) (part : Nat) : Bytes :=
  (raw.drop (part * listChunkBytes)).take listChunkBytes

/-! ## The stored form -/

def day : Int := 24 * hour

/-- Whether `json.Marshal` takes the time: its year is one of 0 to 9999. -/
def printable (t : Int) : Bool := -366 * day ≤ t && t < 3652059 * day

/-- The texts of times, RFC 3339 with nanoseconds. -/
structure TimeFormat where
  print : Int → Bytes
  parse : Bytes → Option Int
  valid_print : ∀ t, Json.valid (print t) = true
  parse_print : ∀ t, printable t = true → parse (print t) = some t

/-- `errs.Code`. -/
def codeText : Code → Bytes
  | .none => []
  | .versionMismatch => ascii "version_mismatch"
  | .invalidArgument => ascii "invalid_argument"
  | .unauthenticated => ascii "unauthenticated"
  | .permissionDenied => ascii "permission_denied"
  | .notFound => ascii "not_found"
  | .failedPrecondition => ascii "failed_precondition"
  | .resourceExhausted => ascii "resource_exhausted"
  | .deadlineExceeded => ascii "deadline_exceeded"
  | .cancelled => ascii "cancelled"
  | .timeout => ascii "timeout"
  | .unavailable => ascii "unavailable"
  | .tls => ascii "tls"
  | .unsupported => ascii "unsupported"
  | .internal => ascii "internal"

def allCodes : List Code :=
  [.none, .versionMismatch, .invalidArgument, .unauthenticated, .permissionDenied, .notFound,
    .failedPrecondition, .resourceExhausted, .deadlineExceeded, .cancelled, .timeout, .unavailable,
    .tls, .unsupported, .internal]

def readCode (s : Bytes) : Option Code := allCodes.find? fun c => codeText c == s

/-- The members of an object that are not left out. -/
def present (fields : List (Bytes × Option Value)) : List (Bytes × Value) :=
  fields.filterMap fun m => m.2.map (m.1, ·)

/-- `omitempty` and `omitzero`. -/
def keepUnless (empty : Bool) (v : Value) : Option Value := if empty then none else some v

def errorFields (e : StoredError) : List (Bytes × Option Value) :=
  [(ascii "code", some (.string (codeText e.code))), (ascii "key", some (.string e.key)),
    (ascii "detail", some (.string e.detail))]

variable {v : Value} {fields : List (Bytes × Option Value)}

section Encoding

variable (time : TimeFormat)

def infoFields (i : Info) : List (Bytes × Option Value) :=
  [(ascii "Title", some (.string i.title)), (ascii "UpdateInterval", some (.int i.updateInterval)),
    (ascii "HasUsage", some (.bool i.hasUsage)), (ascii "Upload", some (.int i.upload)),
    (ascii "Download", some (.int i.download)), (ascii "Total", some (.int i.total)),
    (ascii "Expire", some (.string (time.print i.expire))),
    (ascii "WebPageURL", some (.string i.webPageURL)),
    (ascii "SupportURL", some (.string i.supportURL)),
    (ascii "Announce", some (.string i.announce))]

def recordFields (id : Bytes) (r : Record) : List (Bytes × Option Value) :=
  [(ascii "v", some (.int recordVersion)), (ascii "id", some (.string id)),
    (ascii "url", some (.string r.url)), (ascii "name", keepUnless (r.name = []) (.string r.name)),
    (ascii "ua", keepUnless (r.userAgent = []) (.string r.userAgent)),
    (ascii "auto", some (.bool r.autoUpdate)),
    (ascii "interval", keepUnless (r.interval = 0) (.int r.interval)),
    (ascii "created", some (.string (time.print r.created))),
    (ascii "last_attempt", keepUnless (r.lastAttempt = 0) (.string (time.print r.lastAttempt))),
    (ascii "last_success", keepUnless (r.lastSuccess = 0) (.string (time.print r.lastSuccess))),
    (ascii "failures", keepUnless (r.failures = 0) (.int r.failures)),
    (ascii "last_error", r.lastError.map fun e => .object (present (errorFields e))),
    (ascii "info", some (.object (present (infoFields time r.info)))),
    (ascii "servers", keepUnless (r.servers = []) (.array (r.servers.map .string))),
    (ascii "list_parts", keepUnless (r.listParts = 0) (.int r.listParts))]

def encodeRecord (id : Bytes) (r : Record) : Bytes :=
  (Value.object (present (recordFields time id r))).print

/-- Whether `json.Marshal` takes every time of the record. -/
def Record.printable (r : Record) : Bool :=
  [r.created, r.lastAttempt, r.lastSuccess, r.info.expire].all Control.printable

/-- `json.Marshal` of a record. -/
def marshalRecord (id : Bytes) (r : Record) : Option Bytes :=
  if r.printable then some (encodeRecord time id r) else none

/-! ## Reading -/

/-- The last member of the name. -/
def member (name : String) (ms : List (Bytes × Value)) : Option Value :=
  (ms.reverse.find? fun m => m.1 == ascii name).map (·.2)

/-- A missing member and `null` leave the field as it is. -/
def readMember {α : Type} (default : α) (read : Value → Option α) : Option Value → Option α
  | none => some default
  | some .null => some default
  | some v => read v

def readText : Value → Option Bytes
  | .string s => some s
  | _ => none

def readFlag : Value → Option Bool
  | .bool b => some b
  | _ => none

def readInteger : Value → Option Int
  | .number literal => readInt literal
  | _ => none

def readNatural (v : Value) : Option Nat :=
  (readInteger v).bind fun n => if 0 ≤ n then some n.toNat else none

def readTime : Value → Option Int
  | .string s => time.parse s
  | _ => none

def readTexts : Value → Option (List Bytes)
  | .array vs => vs.mapM readText
  | _ => none

def readError : Value → Option (Option StoredError)
  | .object ms => do
    let code ← readMember [] readText (member "code" ms)
    let key ← readMember [] readText (member "key" ms)
    let detail ← readMember [] readText (member "detail" ms)
    let code ← readCode code
    some (some ⟨code, key, detail⟩)
  | _ => none

def readInfo : Value → Option Info
  | .object ms => do
    let title ← readMember [] readText (member "Title" ms)
    let updateInterval ← readMember 0 readInteger (member "UpdateInterval" ms)
    let hasUsage ← readMember false readFlag (member "HasUsage" ms)
    let upload ← readMember 0 readNatural (member "Upload" ms)
    let download ← readMember 0 readNatural (member "Download" ms)
    let total ← readMember 0 readNatural (member "Total" ms)
    let expire ← readMember 0 (readTime time) (member "Expire" ms)
    let webPageURL ← readMember [] readText (member "WebPageURL" ms)
    let supportURL ← readMember [] readText (member "SupportURL" ms)
    let announce ← readMember [] readText (member "Announce" ms)
    some ⟨title, updateInterval, hasUsage, upload, download, total, expire, webPageURL, supportURL,
      announce⟩
  | _ => none

/-- `decodeRecord`: the identifier and the record of a document of the known version. -/
def decodeRecord (raw : Bytes) : Option (Bytes × Record) :=
  match parse raw with
  | some (.object ms) => do
    let version ← readMember 0 readInteger (member "v" ms)
    if version ≠ recordVersion then none
    else
      let id ← readMember [] readText (member "id" ms)
      let url ← readMember [] readText (member "url" ms)
      let name ← readMember [] readText (member "name" ms)
      let userAgent ← readMember [] readText (member "ua" ms)
      let autoUpdate ← readMember false readFlag (member "auto" ms)
      let interval ← readMember 0 readInteger (member "interval" ms)
      let created ← readMember 0 (readTime time) (member "created" ms)
      let lastAttempt ← readMember 0 (readTime time) (member "last_attempt" ms)
      let lastSuccess ← readMember 0 (readTime time) (member "last_success" ms)
      let failures ← readMember 0 readNatural (member "failures" ms)
      let lastError ← readMember none readError (member "last_error" ms)
      let info ← readMember {} (readInfo time) (member "info" ms)
      let servers ← readMember [] readTexts (member "servers" ms)
      let listParts ← readMember 0 readNatural (member "list_parts" ms)
      some (id, ⟨url, name, userAgent, autoUpdate, interval, created, lastAttempt, lastSuccess,
        failures, lastError, info, servers, listParts⟩)
  | _ => none

/-! ## Reading what is stored -/

theorem fixedFields_eq (ms : List (Bytes × Value)) :
    fixedFields ms = ms.map fun m => (fix m.1, m.2.fixed) := by
  induction ms with
  | nil => rfl
  | cons m ms ih => rw [fixedFields, ih, map_cons]

theorem fixedItems_eq (vs : List Value) : fixedItems vs = vs.map Value.fixed := by
  induction vs with
  | nil => rfl
  | cons v vs ih => rw [fixedItems, ih, map_cons]

theorem mem_present {key : Bytes} :
    (key, v) ∈ present fields ↔ (key, some v) ∈ fields := by
  simp only [present, mem_filterMap, map_eq_some_iff, Prod.mk.injEq]
  constructor
  · rintro ⟨⟨key', _⟩, there, w, rfl, rfl, rfl⟩
    exact there
  · exact fun there => ⟨_, there, v, rfl, rfl, rfl⟩

/-- The names of the members of an object are apart, and printing does not change them. -/
def Apart (names : List Bytes) : Prop := names.Nodup ∧ ∀ name ∈ names, fix name = name

instance (names : List Bytes) : Decidable (Apart names) := inferInstanceAs (Decidable (_ ∧ _))

/-- A member that was printed under a name of its own is read under that name. -/
theorem member_fixed {name : String} {v : Option Value}
    (apart : Apart (fields.map (·.1))) (there : (ascii name, v) ∈ fields) :
    member name (fixedFields (present fields)) = v.map Value.fixed := by
  have plain : ∀ m ∈ fields, fix m.1 = m.1 := fun m inside => apart.2 _ (mem_map_of_mem inside)
  have only : ∀ w, (ascii name, w) ∈ fields → w = v := fun w other =>
    (Prod.mk.inj (inj_on_of_nodup_map apart.1 other there rfl)).2
  have found : ∀ m ∈ (fixedFields (present fields)).reverse, m.1 = ascii name →
      v.map Value.fixed = some m.2 := by
    intro m inside named
    rw [mem_reverse, fixedFields_eq, mem_map] at inside
    obtain ⟨⟨key, w⟩, inside, rfl⟩ := inside
    rw [mem_present] at inside
    have same : key = ascii name := (plain _ inside).symm.trans named
    subst same
    rw [← only _ inside, map_some]
  rw [member]
  cases first : (fixedFields (present fields)).reverse.find? fun m => m.1 == ascii name with
  | some m =>
    have named : m.1 = ascii name := by simpa using find?_some first
    rw [found m (mem_of_find?_eq_some first) named, map_some]
  | none =>
    cases v with
    | none => rfl
    | some w =>
      have inside : (ascii name, w.fixed) ∈ (fixedFields (present fields)).reverse := by
        rw [mem_reverse, fixedFields_eq, mem_map]
        exact ⟨(ascii name, w), mem_present.mpr there, by rw [plain _ there]⟩
      have missed := find?_eq_none.mp first _ inside
      simp at missed

theorem fixed_int (n : Int) : (Value.int n).fixed = .int n := by
  rw [Value.int, Value.fixed]

theorem readInteger_int (n : Int) : readInteger (.int n) = some n := readInt_intLiteral n

theorem readNatural_int (n : Nat) : readNatural (.int n) = some n := by
  simp [readNatural, readInteger_int]

/-- A printed value other than `null` is what its field is read from. -/
theorem readMember_some {α : Type} {default a : α} {read : Value → Option α}
    (reads : read v.fixed = some a) (proper : read .null = none) :
    readMember default read (some v.fixed) = some a := by
  cases same : v.fixed with
  | null =>
    rw [same, proper] at reads
    cases reads
  | _ => rw [← reads, same]; rfl

section Members

variable {α : Type} {fields : List (Bytes × Option Value)} {a : α} {read : Value → Option α}
    {v : Value} (apart : Apart (fields.map (·.1))) (default : α) (name : String)
    (reads : read v.fixed = some a) (proper : read .null = none)

include apart reads proper

theorem readMember_printed (there : (ascii name, some v) ∈ fields) :
    readMember default read (member name (fixedFields (present fields))) = some a := by
  rw [member_fixed apart there, map_some, readMember_some reads proper]

/-- A value that is left out is the default. -/
theorem readMember_kept {empty : Prop} [Decidable empty] (zero : empty → a = default)
    (there : (ascii name, keepUnless empty v) ∈ fields) :
    readMember default read (member name (fixedFields (present fields))) = some a := by
  rw [member_fixed apart there]
  by_cases left : empty
  · simp [keepUnless, left, readMember, zero left]
  · simpa [keepUnless, left] using readMember_some reads proper

end Members

theorem readText_fixed {s : Bytes} (utf8 : Json.valid s = true) :
    readText (Value.string s).fixed = some s := by
  rw [Value.fixed, readText, fix_of_valid utf8]

theorem readInteger_fixed (n : Int) : readInteger (Value.int n).fixed = some n := by
  rw [fixed_int, readInteger_int]

theorem readNatural_fixed (n : Nat) : readNatural (Value.int n).fixed = some n := by
  rw [fixed_int, readNatural_int]

theorem readTime_fixed {t : Int} (inside : printable t = true) :
    readTime time (Value.string (time.print t)).fixed = some t := by
  rw [Value.fixed, readTime, fix_of_valid (time.valid_print t), time.parse_print t inside]

theorem readFlag_fixed (b : Bool) : readFlag (Value.bool b).fixed = some b := by
  rw [Value.fixed, readFlag]

theorem sound_present (sound : ∀ m ∈ fields, ∀ v, m.2 = some v → v.sound = true) :
    (Value.object (present fields)).sound = true := by
  have each : ∀ m ∈ present fields, m.2.sound = true := by
    rintro ⟨key, v⟩ inside
    exact sound _ (mem_present.mp inside) v rfl
  rw [Value.sound]
  revert each
  generalize present fields = ms
  intro each
  induction ms with
  | nil => rfl
  | cons m ms ih =>
    rw [soundFields, each m mem_cons_self]
    exact ih fun m inside => each m (mem_cons_of_mem _ inside)

theorem sound_texts (texts : List Bytes) : (Value.array (texts.map .string)).sound = true := by
  rw [Value.sound]
  induction texts with
  | nil => rfl
  | cons s texts ih => rw [map_cons, soundItems, ih]; rfl

theorem sound_string (s : Bytes) : (Value.string s).sound = true := rfl

theorem sound_bool (b : Bool) : (Value.bool b).sound = true := rfl

theorem sound_errorFields (e : StoredError) :
    (Value.object (present (errorFields e))).sound = true := by
  refine sound_present ?_
  simp [errorFields, sound_string]

theorem sound_infoFields (i : Info) :
    (Value.object (present (infoFields time i))).sound = true := by
  refine sound_present ?_
  simp [infoFields, sound_string, sound_bool, sound_int]

theorem sound_recordFields (id : Bytes) (r : Record) :
    (Value.object (present (recordFields time id r))).sound = true := by
  refine sound_present ?_
  simp [recordFields, keepUnless, sound_string, sound_bool, sound_int, sound_texts,
    sound_errorFields, sound_infoFields]

/-- Every text of the record is UTF-8. -/
def Record.utf8 (r : Record) : Bool :=
  [r.url, r.name, r.userAgent, r.info.title, r.info.webPageURL, r.info.supportURL,
    r.info.announce].all Json.valid && r.servers.all Json.valid &&
    r.lastError.all fun e => Json.valid e.key && Json.valid e.detail

theorem readCode_codeText (c : Code) : readCode (codeText c) = some c := by
  cases c <;> decide

theorem valid_codeText (c : Code) : Json.valid (codeText c) = true := by
  cases c <;> decide

theorem readTexts_fixed {texts : List Bytes} (utf8 : texts.all Json.valid = true) :
    readTexts (Value.array (texts.map .string)).fixed = some texts := by
  rw [Value.fixed, readTexts, fixedItems_eq]
  induction texts with
  | nil => rfl
  | cons s texts ih =>
    rw [all_cons, Bool.and_eq_true] at utf8
    rw [map_cons, map_cons, mapM_cons, ih utf8.2, Value.fixed, fix_of_valid utf8.1]
    rfl

theorem readError_fixed {e : StoredError} (key : Json.valid e.key = true)
    (detail : Json.valid e.detail = true) :
    readError (Value.object (present (errorFields e))).fixed = some (some e) := by
  have apart : Apart ((errorFields e).map (·.1)) := of_decide_eq_true rfl
  have code' := readMember_printed apart [] "code" (readText_fixed (valid_codeText e.code)) rfl
    (by simp [errorFields])
  have key' := readMember_printed apart [] "key" (readText_fixed key) rfl (by simp [errorFields])
  have detail' := readMember_printed apart [] "detail" (readText_fixed detail) rfl
    (by simp [errorFields])
  simp only [Value.fixed, readError, code', key', detail', readCode_codeText, bind_eq_bind,
    bind_some]

theorem readInfo_fixed {i : Info}
    (utf8 : [i.title, i.webPageURL, i.supportURL, i.announce].all Json.valid = true)
    (inside : printable i.expire = true) :
    readInfo time (Value.object (present (infoFields time i))).fixed = some i := by
  obtain ⟨utf8₁, utf8₂, utf8₃, utf8₄⟩ : Json.valid i.title = true ∧ Json.valid i.webPageURL = true ∧
      Json.valid i.supportURL = true ∧ Json.valid i.announce = true := by
    simpa using utf8
  have apart : Apart ((infoFields time i).map (·.1)) := of_decide_eq_true rfl
  have title := readMember_printed apart [] "Title" (readText_fixed utf8₁) rfl (by simp [infoFields])
  have interval := readMember_printed apart 0 "UpdateInterval" (readInteger_fixed i.updateInterval)
    rfl (by simp [infoFields])
  have usage := readMember_printed apart false "HasUsage" (readFlag_fixed i.hasUsage) rfl
    (by simp [infoFields])
  have upload := readMember_printed apart 0 "Upload" (readNatural_fixed i.upload) rfl
    (by simp [infoFields])
  have download := readMember_printed apart 0 "Download" (readNatural_fixed i.download) rfl
    (by simp [infoFields])
  have total := readMember_printed apart 0 "Total" (readNatural_fixed i.total) rfl
    (by simp [infoFields])
  have expire := readMember_printed apart 0 "Expire" (readTime_fixed time inside) rfl
    (by simp [infoFields])
  have page := readMember_printed apart [] "WebPageURL" (readText_fixed utf8₂) rfl
    (by simp [infoFields])
  have support := readMember_printed apart [] "SupportURL" (readText_fixed utf8₃) rfl
    (by simp [infoFields])
  have announce := readMember_printed apart [] "Announce" (readText_fixed utf8₄) rfl
    (by simp [infoFields])
  simp only [Value.fixed, readInfo, title, interval, usage, upload, download, total, expire, page,
    support, announce, bind_eq_bind, bind_some]

/-- A stored record is read back if its texts are UTF-8. -/
theorem decodeRecord_encodeRecord {id : Bytes} {r : Record} (name : Json.valid id = true)
    (utf8 : r.utf8 = true) (times : r.printable = true) :
    decodeRecord time (encodeRecord time id r) = some (id, r) := by
  obtain ⟨begun, tried, succeeded, expires⟩ : _ ∧ _ ∧ _ ∧ _ := by
    simpa [Record.printable] using times
  simp only [Record.utf8, all_cons, Bool.and_eq_true] at utf8
  obtain ⟨⟨⟨url, label, agent, title, page, support, announce⟩, servers⟩, failure⟩ := utf8
  have apart : Apart ((recordFields time id r).map (·.1)) := of_decide_eq_true rfl
  have version := readMember_printed apart 0 "v" (readInteger_fixed recordVersion) rfl
    (by simp [recordFields])
  have name' := readMember_printed apart [] "id" (readText_fixed name) rfl (by simp [recordFields])
  have url' := readMember_printed apart [] "url" (readText_fixed url) rfl (by simp [recordFields])
  have label' := readMember_kept apart [] "name" (readText_fixed label) rfl
    (fun none => none) (by simp [recordFields])
  have agent' := readMember_kept apart [] "ua" (readText_fixed agent) rfl
    (fun none => none) (by simp [recordFields])
  have auto := readMember_printed apart false "auto" (readFlag_fixed r.autoUpdate) rfl
    (by simp [recordFields])
  have interval := readMember_kept apart 0 "interval" (readInteger_fixed r.interval) rfl
    (fun none => none) (by simp [recordFields])
  have created := readMember_printed apart 0 "created" (readTime_fixed time begun) rfl
    (by simp [recordFields])
  have attempt := readMember_kept apart 0 "last_attempt" (readTime_fixed time tried) rfl
    (fun none => none) (by simp [recordFields])
  have success := readMember_kept apart 0 "last_success" (readTime_fixed time succeeded) rfl
    (fun none => none) (by simp [recordFields])
  have failures := readMember_kept apart 0 "failures" (readNatural_fixed r.failures) rfl
    (fun none => none) (by simp [recordFields])
  have last : readMember none readError
      (member "last_error" (fixedFields (present (recordFields time id r)))) = some r.lastError := by
    rw [member_fixed apart (v := r.lastError.map fun e => .object (present (errorFields e)))
      (by simp [recordFields])]
    cases same : r.lastError with
    | none => rfl
    | some e =>
      rw [same] at failure
      obtain ⟨key, detail⟩ := Bool.and_eq_true_iff.mp failure
      exact readMember_some (readError_fixed key detail) rfl
  have info := readMember_printed apart {} "info"
    (readInfo_fixed time (by simp [title, page, support, announce]) expires) rfl
    (by simp [recordFields])
  have servers' := readMember_kept apart [] "servers" (readTexts_fixed servers) rfl
    (fun none => none) (by simp [recordFields])
  have parts := readMember_kept apart 0 "list_parts" (readNatural_fixed r.listParts) rfl
    (fun none => none) (by simp [recordFields])
  rw [encodeRecord, decodeRecord, parse_print (sound_recordFields time id r), Value.fixed]
  simp only [version, name', url', label', agent', auto, interval, created, attempt, success,
    failures, last, info, servers', parts, bind_eq_bind, bind_some, ne_eq,
    not_true_eq_false, if_false]

end Encoding

end Sora.Control
