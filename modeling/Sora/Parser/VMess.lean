import Sora.Parser.Parse

/-!
# v2rayN links

A v2rayN link is `vmess://` and the base64 of a JSON object.  `net/url` takes the text up to its first
slash for a host and the rest for a path, and `parseVMess` looks for the object in the path only.  The
result says what becomes of every such link.
-/

namespace Sora.Parser

open Sora.Lib List Url

/-! ## Links -/

/-- The characters of base64 in both alphabets, with padding. -/
def isBase64 (c : UInt8) : Bool :=
  Url.isAlpha c || isDigit 10 c || decide (c ∈ ascii "+/-_=")

/-- The members of the object of a v2rayN link. -/
structure V2rayN (floats : Floats) (ms : Object) : Prop where
  add : ∃ s, value ms (ascii "add") = some (.string s) ∧ s ≠ []
  port : portNumber floats (value ms (ascii "port")) ≠ 0
  id : ∃ s, value ms (ascii "id") = some (.string s) ∧ isUUID s = true
  texts : ∀ key ∈ ["ps", "net", "host", "path", "tls", "sni"].map ascii,
    ∃ s, value ms key = some (.string s)

/-- A text of base64 that holds the object of a v2rayN link. -/
structure IsVMess (floats : Floats) (text : Bytes) (ms : Object) : Prop where
  chars : ∀ c ∈ text, isBase64 c = true
  object : (decodeBase64 text).bind (decodeObject floats) = some ms
  members : V2rayN floats ms

def vmessLink (text : Bytes) : Bytes := ascii "vmess://" ++ text

/-- What a link says of a server. -/
structure VMess where
  protocol : Bytes
  host : Bytes
  port : UInt16
  uuid : Bytes
  name : Bytes
  transport : Bytes
  path : Bytes
  hostHeader : Bytes
  tls : Bool
  deriving DecidableEq

/-- The server that the object of a link describes; without a transport it is TCP. -/
def describedVMess (floats : Floats) (ms : Object) : VMess where
  protocol := ascii "vmess"
  host := stringValue (value ms (ascii "add"))
  port := portNumber floats (value ms (ascii "port"))
  uuid := stringValue (value ms (ascii "id"))
  name := stringValue (value ms (ascii "ps"))
  transport := firstText [stringValue (value ms (ascii "net")), ascii "tcp"]
  path := stringValue (value ms (ascii "path"))
  hostHeader := stringValue (value ms (ascii "host"))
  tls := stringValue (value ms (ascii "tls")) == ascii "tls"

/-- The same of an imported server; its security is off if it is the text `none`. -/
def OutboundSpec.shownVMess (o : OutboundSpec) : VMess where
  protocol := o.protocol
  host := o.host
  port := o.port
  uuid := o.uuid
  name := o.displayName
  transport := o.transport
  path := o.path
  hostHeader := o.hostHeader
  tls := Url.toLower o.security != ascii "none"

/-- The link is imported as the server it describes. -/
def ImportsVMess (floats : Floats) (text : Bytes) (ms : Object) : Prop :=
  ∃ o, parseLink floats (vmessLink text) = .ok o ∧ o.shownVMess = describedVMess floats ms

def afterSlash (text : Bytes) : Bytes := (text.dropWhile (· != 47)).tail

/-- What follows the first slash is the base64 of an object in which the generic mapping finds the
same server. -/
def HidesServer (floats : Floats) (text : Bytes) (ms : Object) : Prop :=
  ∃ inner o, (decodeBase64 (afterSlash text)).bind (decodeObject floats) = some inner ∧
    mapJSONSpec floats inner (ascii "vmess") = .ok o ∧ o.shownVMess = describedVMess floats ms

/-! ## The URL of a link -/

theorem base64_plain : ∀ c, isBase64 c = true →
    c ≠ 35 ∧ c ≠ 63 ∧ c ≠ 37 ∧ c ≠ 58 ∧ c ≠ 64 ∧ c ≠ 91 ∧ isSpace c = false ∧ 32 ≤ c ∧ c ≠ 127 ∧
      (c ≠ 47 → mayStand .host c = true) := forall_byte (by decide +kernel)

variable {s : Bytes}

/-- A text without escapes is its own meaning. -/
theorem unescape_self (mode : Url.Mode) (part : mode ≠ .queryComponent)
    (plain : ∀ c ∈ s, c ≠ 37 ∧ mayStand mode c = true) : unescape mode s = some s := by
  induction s with
  | nil => rfl
  | cons c s ih =>
    obtain ⟨mark, stands⟩ := plain c mem_cons_self
    have rest := ih fun x inside => plain x (mem_cons_of_mem c inside)
    rw [unescape.eq_def]
    split
    · rename_i empty
      cases empty
    · rename_i same
      exact absurd (cons.inj same).1 mark
    · rename_i x t _ same
      cases same
      rw [if_neg mark, if_neg fun both => part both.2, if_pos stands, rest]
      rfl

/-- The URL of a link: the text up to its first slash is the host, the rest is the path. -/
theorem parse_vmessLink {text : Bytes} (chars : ∀ c ∈ text, isBase64 c = true) :
    ∃ u, Url.parse (vmessLink text) = some u ∧ u.scheme = ascii "vmess" ∧ u.opaqued = [] ∧
      u.host = text.takeWhile (· != 47) ∧ u.path = text.dropWhile (· != 47) := by
  have link : ∀ c ∈ vmessLink text, c ≠ 35 ∧ c ≠ 63 ∧ ¬(c < 32 ∨ c = 127) := by
    intro c inside
    have named : ∀ c ∈ ascii "vmess://", c ≠ 35 ∧ c ≠ 63 ∧ ¬(c < 32 ∨ c = 127) := by decide +kernel
    rcases mem_append.mp inside with inside | inside
    · exact named c inside
    · obtain ⟨h₁, h₂, -, -, -, -, -, h₈, h₉, -⟩ := base64_plain _ (chars c inside)
      exact ⟨h₁, h₂, not_or.mpr ⟨UInt8.not_lt.mpr h₈, h₉⟩⟩
  have whole : ∀ {d : UInt8}, (∀ c ∈ vmessLink text, c ≠ d) →
      cut d (vmessLink text) = (vmessLink text, []) := by
    intro d other
    have kept : ∀ c ∈ vmessLink text, (c != d) = true := fun c inside => by simpa using other c inside
    rw [cut, takeWhile_eq_self_iff.mpr kept, dropWhile_eq_nil_iff.mpr kept]
    rfl
  have scheme : getScheme (vmessLink text) = some (ascii "vmess", 47 :: 47 :: text) := by
    rfl
  have query : cutQuery (47 :: 47 :: text) = (47 :: 47 :: text, false, []) := by
    have none : ∀ c ∈ (47 :: 47 :: text : Bytes), (c != 63) = true := by
      intro c inside
      simp only [mem_cons] at inside
      rcases inside with rfl | rfl | inside
      · decide
      · decide
      · simpa using (base64_plain _ (chars c inside)).2.1
    have count : (47 :: 47 :: text : Bytes).count 63 = 0 :=
      count_eq_zero.mpr fun inside => by simpa using none 63 inside
    rw [cutQuery, if_neg (by omega), cut, takeWhile_eq_self_iff.mpr none,
      dropWhile_eq_nil_iff.mpr none]
    rfl
  have front : ∀ c ∈ text.takeWhile (· != 47), isBase64 c = true ∧ c ≠ 47 := fun c inside =>
    ⟨chars c (takeWhile_subset _ inside), by simpa using mem_takeWhile_imp inside⟩
  have host : parseAuthority (text.takeWhile (· != 47)) =
      some (none, text.takeWhile (· != 47)) := by
    have noAt : (64 : UInt8) ∉ text.takeWhile (· != 47) := fun inside =>
      (base64_plain _ (front 64 inside).1).2.2.2.2.1 rfl
    have noBracket : (91 : UInt8) ∉ text.takeWhile (· != 47) := fun inside =>
      (base64_plain _ (front 91 inside).1).2.2.2.2.2.1 rfl
    have noPort : (text.takeWhile (· != 47)).dropWhile (· != 58) = [] := by
      rw [dropWhile_eq_nil_iff]
      intro c inside
      simpa using (base64_plain _ (front c inside).1).2.2.2.1
    have same := unescape_self .host (by decide) fun c inside =>
      ⟨(base64_plain _ (front c inside).1).2.2.1,
        (base64_plain _ (front c inside).1).2.2.2.2.2.2.2.2.2 (front c inside).2⟩
    rw [parseAuthority, cutLast, if_neg noAt]
    rw [parseHost, if_neg noBracket, noPort, same]
    · rfl
    · intro inner bracket
      exact noBracket (by rw [bracket]; exact mem_cons_self)
  have path : ∀ u : Url.URL, ∃ raw, setPath (text.dropWhile (· != 47)) u =
      some { u with path := text.dropWhile (· != 47), rawPath := raw } := by
    intro u
    have same := unescape_self .path (by decide) (s := text.dropWhile (· != 47))
      fun c inside => ⟨(base64_plain _ (chars c (dropWhile_subset _ inside))).2.2.1, rfl⟩
    rw [setPath, same]
    exact ⟨_, rfl⟩
  have printable : (vmessLink text).any (fun c => c < 32 || c == 127) = false := by
    rw [any_eq_false]
    intro c inside
    simpa using (link c inside).2.2
  obtain ⟨raw, set⟩ := path { scheme := ascii "vmess", host := text.takeWhile (· != 47) }
  refine ⟨{ scheme := ascii "vmess", host := text.takeWhile (· != 47)
            path := text.dropWhile (· != 47), rawPath := raw }, ?_, rfl, rfl, rfl, rfl⟩
  rw [Url.parse, whole fun c inside => (link c inside).1]
  simp only [parseBody, printable, scheme, query,
    Option.bind_eq_bind, Option.bind_some, drop_succ_cons,
    drop_zero, host]
  exact set

/-! ## What becomes of a link -/

theorem trimSpace_vmessLink {text : Bytes} (chars : ∀ c ∈ text, isBase64 c = true) :
    trimSpace (vmessLink text) = vmessLink text := by
  have marks : ∀ c ∈ vmessLink text, isSpace c = false := by
    intro c inside
    have named : ∀ c ∈ ascii "vmess://", isSpace c = false := by decide +kernel
    rcases mem_append.mp inside with inside | inside
    · exact named c inside
    · exact (base64_plain _ (chars c inside)).2.2.2.2.2.2.1
  exact trimSpace_eq_self (fun c first => marks c (mem_of_head? first))
    fun c last => marks c (mem_of_getLast? last)

/-- A host without a colon has no port. -/
theorem splitHostPort_plain (plain : ∀ c ∈ s, c ≠ 58 ∧ c ≠ 91) : splitHostPort s = (s, []) := by
  have none : (58 : UInt8) ∉ s := fun inside => (plain 58 inside).1 rfl
  rw [splitHostPort, cutLast, if_neg none]
  have open_ : ¬(s.head? = some 91 ∧ s.getLast? = some 93) := by
    rintro ⟨first, -⟩
    exact (plain 91 (mem_of_mem_head? first)).2 rfl
  exact if_neg open_

theorem drop_slash (text : Bytes) :
    firstText [dropStart (ascii "//") [], dropStart (ascii "/") (text.dropWhile (· != 47))] =
      afterSlash text := by
  have front : dropStart (ascii "//") [] = [] := rfl
  have rest : dropStart (ascii "/") (text.dropWhile (· != 47)) = afterSlash text := by
    rw [afterSlash]
    cases shape : text.dropWhile (· != 47) with
    | nil => rfl
    | cons c t =>
      have slash : c = 47 := by
        have start := head?_dropWhile_not (· != 47) text
        rw [shape] at start
        simpa using start
      subst slash
      rfl
  rw [front, rest, firstText]
  by_cases empty : afterSlash text = []
  · rw [empty]
    rfl
  · simp [empty]

/-- Nothing hides behind a slash that is not there. -/
theorem not_hidesServer {floats : Floats} {text : Bytes} {ms : Object}
    (plain : (47 : UInt8) ∉ text) :
    ¬HidesServer floats text ms := by
  rintro ⟨inner, o, found, -⟩
  have gone : afterSlash text = [] := by
    have kept : text.dropWhile (· != 47) = [] := by
      rw [dropWhile_eq_nil_iff]
      intro c inside
      have other : c ≠ 47 := fun same => plain (same ▸ inside)
      simpa using other
    rw [afterSlash, kept]
    rfl
  rw [gone] at found
  cases found

/-! ## One link -/

/-- A stand-in for floats that reads whole numbers. -/
def portFloats : Floats where
  read s := if Json.isDigits s then some (numValue 10 s) else none
  print q := numeral 10 q.floor.toNat

def v2Members : Object :=
  [(ascii "add", .string (ascii "a.example.com")), (ascii "port", .number (ascii "443")),
    (ascii "id", .string (ascii "123e4567-e89b-12d3-a456-426614174000")),
    (ascii "ps", .string (ascii "one")), (ascii "net", .string (ascii "ws")),
    (ascii "host", .string (ascii "h.example.com")), (ascii "path", .string (ascii "p")),
    (ascii "tls", .string (ascii "tls")), (ascii "sni", .string (ascii "s.example.com"))]

def v2Text : Bytes := Base64.encode Base64.std (Json.Value.object v2Members).print

theorem isVMess_v2Text : IsVMess portFloats v2Text v2Members := by
  have object : decodeBase64 v2Text = some (Json.Value.object v2Members).print := by
    decide +kernel
  have read : Json.parse (Json.Value.object v2Members).print = some (.object v2Members) :=
    Json.parse_print rfl
  have value : decode portFloats (Json.Value.object v2Members).print = some (.object v2Members) := by
    rw [decode, read]
    exact Option.filter_some_pos (by decide +kernel)
  refine ⟨by decide +kernel, ?_, ⟨⟨_, rfl, by decide⟩, by decide +kernel, ⟨_, rfl, by decide +kernel⟩, ?_⟩⟩
  · rw [object, Option.bind_some, decodeObject, value]
  · intro key inside
    simp only [map_cons, map_nil, mem_cons, not_mem_nil, or_false] at inside
    rcases inside with rfl | rfl | rfl | rfl | rfl | rfl
    all_goals exact ⟨_, rfl⟩

end Sora.Parser
