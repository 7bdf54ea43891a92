import Sora.Lib.Json
import Sora.Lib.NetText

/-!
# Uniform resource locators

The package `net/url` on byte strings: percent-escapes by part of the URL, `Parse`, `String`,
queries and the parts of an authority.  A bracketed host is an IPv6 address and a host outside
brackets has at most one colon, as the package has it since 1.26.
-/

namespace Sora.Lib.Url

open List

/-! ## Splitting -/

/-- `strings.Cut` at a byte. -/
def cut (c : UInt8) (s : Bytes) : Bytes × Bytes := (s.takeWhile (· != c), (s.dropWhile (· != c)).tail)

/-- What stands before and after the last occurrence of a byte. -/
def cutLast (c : UInt8) (s : Bytes) : Option (Bytes × Bytes) :=
  if c ∈ s then
    some ((s.reverse.dropWhile (· != c)).tail.reverse, (s.reverse.takeWhile (· != c)).reverse)
  else none

def isLower (c : UInt8) : Bool := 97 ≤ c && c ≤ 122

def isUpper (c : UInt8) : Bool := 65 ≤ c && c ≤ 90

def isAlpha (c : UInt8) : Bool := isLower c || isUpper c

/-- `strings.ToLower` on ASCII; other bytes stay. -/
def toLower (s : Bytes) : Bytes := s.map fun c => if isUpper c then c + 32 else c

/-! ## Escapes -/

/-- The part of a URL that is escaped. -/
inductive Mode
  | path
  | pathSegment
  | host
  | zone
  | userPassword
  | queryComponent
  | fragment
  deriving DecidableEq

def hostMarks : Bytes := ascii "!$&'()*+,;=:[]<>\""

def reserved : Bytes := ascii "$&+,/:;=?@"

/-- `shouldEscape`. -/
def shouldEscape (c : UInt8) (mode : Mode) : Bool :=
  if isAlpha c || isDigit 10 c then false
  else if (mode = .host ∨ mode = .zone) ∧ c ∈ hostMarks then false
  else if c ∈ ascii "-_.~" then false
  else if c ∈ reserved then
    match mode with
    | .path => c == 63
    | .pathSegment => decide (c ∈ ascii "/;,?")
    | .userPassword => decide (c ∈ ascii "@/?:")
    | .queryComponent => true
    | .fragment => false
    | .host | .zone => true
  else if mode = .fragment ∧ c ∈ ascii "!()*" then false
  else true

/-- The two upper case digits of a byte. -/
def hexPair (c : UInt8) : Bytes :=
  let digit (d : Nat) : UInt8 := UInt8.ofNat (if d < 10 then 48 + d else 55 + d)
  [digit (c.toNat / 16), digit (c.toNat % 16)]

def escape (mode : Mode) (s : Bytes) : Bytes :=
  s.flatMap fun c =>
    if c = 32 ∧ mode = .queryComponent then [43]
    else if shouldEscape c mode then 37 :: hexPair c
    else [c]

/-- Whether an escape may stand in the part. -/
def mayEscape (mode : Mode) (v : UInt8) : Bool :=
  match mode with
  | .host => 0x80 ≤ v || v == 37
  | .zone => v == 37 || v == 32 || !shouldEscape v .host
  | _ => true

/-- Whether a byte may stand in the part as it is. -/
def mayStand (mode : Mode) (c : UInt8) : Bool :=
  match mode with
  | .host | .zone => 0x80 ≤ c || !shouldEscape c mode
  | _ => true

def unescape (mode : Mode) : Bytes → Option Bytes
  | [] => some []
  | 37 :: a :: b :: rest => do
    let high ← digitValue a
    let low ← digitValue b
    let v := UInt8.ofNat (high * 16 + low)
    if mayEscape mode v then (unescape mode rest).map (v :: ·) else none
  | c :: rest =>
    if c = 37 then none
    else if c = 43 ∧ mode = .queryComponent then (unescape mode rest).map (32 :: ·)
    else if mayStand mode c then (unescape mode rest).map (c :: ·)
    else none

/-! ## The parts of a URL -/

/-- `Userinfo`: a name, and a password if one is set. -/
structure Userinfo where
  username : Bytes
  password : Option Bytes
  deriving DecidableEq

/-- `Userinfo.String`. -/
def Userinfo.string (u : Userinfo) : Bytes :=
  if u.username = [] ∧ u.password.getD [] = [] then []
  else escape .userPassword u.username ++
    (u.password.map fun p => 58 :: escape .userPassword p).getD []

structure URL where
  scheme : Bytes := []
  opaqued : Bytes := []
  user : Option Userinfo := none
  host : Bytes := []
  path : Bytes := []
  rawPath : Bytes := []
  omitHost : Bool := false
  forceQuery : Bool := false
  rawQuery : Bytes := []
  fragment : Bytes := []
  rawFragment : Bytes := []
  deriving DecidableEq

/-- `getScheme`: the scheme, empty if there is none, and what follows it. -/
def getScheme (s : Bytes) : Option (Bytes × Bytes) :=
  let inScheme (c : UInt8) : Bool := isAlpha c || isDigit 10 c || c == 43 || c == 45 || c == 46
  let name := s.takeWhile inScheme
  match s.dropWhile inScheme with
  | 58 :: rest =>
    match name with
    | [] => none
    | c :: _ => if isAlpha c then some (name, rest) else some ([], s)
  | _ => some ([], s)

def validOptionalPort : Bytes → Bool
  | [] => true
  | c :: rest => c == 58 && rest.all (isDigit 10)

def validUserinfo (s : Bytes) : Bool :=
  s.all fun c => isAlpha c || isDigit 10 c || decide (c ∈ ascii "-._:~!$&'()*+,;=%@")

/-- The bracketed part of a host, with its zone. -/
def unescapeBracketed (s : Bytes) : Option Bytes :=
  match (List.range s.length).find? fun i => (ascii "%25").isPrefixOf (s.drop i) with
  | some i => do
    let host ← unescape .host (s.take i)
    let zone ← unescape .zone (s.drop i)
    some (host ++ zone)
  | none => unescape .host s

/-- `parseHost`. -/
def parseHost (s : Bytes) : Option Bytes :=
  if 91 ∈ s then
    match s with
    | 91 :: inner =>
      if 91 ∈ inner then none
      else
        match cutLast 93 inner with
        | none => none
        | some (address, port) => do
          if !validOptionalPort port then none
          let port ← unescape .host port
          let address ← unescapeBracketed address
          match parseAddr address with
          | some (ip, _) => if ip.family = .v6 then some (91 :: (address ++ 93 :: port)) else none
          | none => none
    | _ => none
  else if validOptionalPort (s.dropWhile (· != 58)) then unescape .host s
  else none

/-- `parseAuthority`. -/
def parseAuthority (s : Bytes) : Option (Option Userinfo × Bytes) :=
  match cutLast 64 s with
  | none => (parseHost s).map (none, ·)
  | some (info, host) => do
    let host ← parseHost host
    if !validUserinfo info then none
    if 58 ∈ info then
      let username ← unescape .userPassword (cut 58 info).1
      let password ← unescape .userPassword (cut 58 info).2
      some (some ⟨username, some password⟩, host)
    else
      let username ← unescape .userPassword info
      some (some ⟨username, none⟩, host)

/-- `setPath`. -/
def setPath (s : Bytes) (u : URL) : Option URL :=
  (unescape .path s).map fun path =>
    { u with path := path, rawPath := if s = escape .path path then [] else s }

/-- `setFragment`. -/
def setFragment (s : Bytes) (u : URL) : Option URL :=
  (unescape .fragment s).map fun fragment =>
    { u with fragment := fragment, rawFragment := if s = escape .fragment fragment then [] else s }

def cutQuery (s : Bytes) : Bytes × Bool × Bytes :=
  if s.getLast? = some 63 ∧ s.count 63 = 1 then (s.dropLast, true, [])
  else ((cut 63 s).1, false, (cut 63 s).2)

/-- `parse`, without the fragment. -/
def parseBody (s : Bytes) : Option URL := do
  if s.any fun c => c < 32 || c == 127 then none
  if s = ascii "*" then some { path := s }
  else
    let (scheme, rest) ← getScheme s
    let scheme := toLower scheme
    let (rest, forceQuery, rawQuery) := cutQuery rest
    let u : URL := { scheme := scheme, forceQuery := forceQuery, rawQuery := rawQuery }
    if rest.head? ≠ some 47 ∧ scheme ≠ [] then some { u with opaqued := rest }
    else if rest.head? ≠ some 47 ∧ 58 ∈ (cut 47 rest).1 then none
    else if (scheme ≠ [] ∨ !(ascii "///").isPrefixOf rest) ∧ (ascii "//").isPrefixOf rest then
      let authority := rest.drop 2
      let (user, host) ← parseAuthority (authority.takeWhile (· != 47))
      setPath (authority.dropWhile (· != 47)) { u with user := user, host := host }
    else setPath rest { u with omitHost := scheme ≠ [] ∧ rest.head? = some 47 }

/-- `Parse`. -/
def parse (s : Bytes) : Option URL :=
  match cut 35 s with
  | (body, []) => parseBody body
  | (body, fragment) => (parseBody body).bind (setFragment fragment)

/-! ## Reading a URL -/

/-- `splitHostPort`. -/
def splitHostPort (s : Bytes) : Bytes × Bytes :=
  let (host, port) :=
    match cutLast 58 s with
    | some (host, port) => if port.all (isDigit 10) then (host, port) else (s, [])
    | none => (s, [])
  if host.head? = some 91 ∧ host.getLast? = some 93 then (host.tail.dropLast, port)
  else (host, port)

def URL.hostname (u : URL) : Bytes := (splitHostPort u.host).1

def URL.port (u : URL) : Bytes := (splitHostPort u.host).2

def queryUnescape (s : Bytes) : Option Bytes := unescape .queryComponent s

def readSetting (s : Bytes) : Option (Bytes × Bytes) :=
  if 59 ∈ s ∨ s = [] then none
  else do
    let key ← queryUnescape (cut 61 s).1
    let value ← queryUnescape (cut 61 s).2
    some (key, value)

/-- How many settings a query may have. -/
def maxQueryParams : Nat := 10000

/-- The settings of a query, in their order; those that cannot be read are left out. -/
def parseQuery (s : Bytes) : List (Bytes × Bytes) :=
  if maxQueryParams < s.count 38 + 1 then [] else (s.splitOn 38).filterMap readSetting

/-- `Query`. -/
def URL.query (u : URL) : List (Bytes × Bytes) := parseQuery u.rawQuery

/-- `Values.Get`. -/
def get (key : Bytes) (q : List (Bytes × Bytes)) : Bytes :=
  ((q.find? fun p => p.1 == key).map (·.2)).getD []

/-! ## Printing -/

/-- `validEncoded`. -/
def validEncoded (s : Bytes) (mode : Mode) : Bool :=
  s.all fun c => decide (c ∈ ascii "!$&'()*+,;=:@[]%") || !shouldEscape c mode

/-- The printed form of a part: as it was written if that stands for it. -/
def printPart (mode : Mode) (raw decoded : Bytes) : Bytes :=
  if raw ≠ [] ∧ validEncoded raw mode ∧ unescape mode raw = some decoded then raw
  else escape mode decoded

/-- `EscapedPath`. -/
def URL.escapedPath (u : URL) : Bytes :=
  if u.path = ascii "*" then u.path else printPart .path u.rawPath u.path

/-- `EscapedFragment`. -/
def URL.escapedFragment (u : URL) : Bytes := printPart .fragment u.rawFragment u.fragment

/-- What `String` prints before the path. -/
def URL.authority (u : URL) : Bytes :=
  if u.scheme = [] ∧ u.host = [] ∧ u.user = none then []
  else if u.omitHost ∧ u.host = [] ∧ u.user = none then []
  else
    (if u.host ≠ [] ∨ u.path ≠ [] ∨ u.user ≠ none then ascii "//" else []) ++
      (u.user.map fun info => info.string ++ [64]).getD [] ++ escape .host u.host

/-- `String`. -/
def URL.string (u : URL) : Bytes :=
  let scheme := if u.scheme = [] then [] else u.scheme ++ [58]
  let body :=
    if u.opaqued ≠ [] then scheme ++ u.opaqued
    else
      let before := scheme ++ u.authority
      let path := u.escapedPath
      let slash := if path ≠ [] ∧ path.head? ≠ some 47 ∧ u.host ≠ [] then [47] else []
      let dot := if before = [] ∧ slash = [] ∧ 58 ∈ (cut 47 path).1 then ascii "./" else []
      before ++ slash ++ dot ++ path
  let query := if u.forceQuery ∨ u.rawQuery ≠ [] then 63 :: u.rawQuery else []
  let fragment := if u.fragment ≠ [] then 35 :: u.escapedFragment else []
  body ++ query ++ fragment

variable {s : Bytes}

theorem low_of_all (low : s.all (· < 0x80) = true) : ∀ c ∈ s, c < 0x80 := by
  simpa using low

variable {mode : Mode}

theorem low_of_unescaped : ∀ c, shouldEscape c mode = false → c < 0x80 :=
  forall_byte (by cases mode <;> decide +kernel)

theorem low_escape : ∀ c ∈ escape mode s, c < 0x80 := by
  intro c inside
  obtain ⟨d, -, inside⟩ := mem_flatMap.mp inside
  split at inside
  · rw [mem_singleton.mp inside]
    decide
  · split at inside
    · have pair : ∀ d, (37 :: hexPair d).all (· < 0x80) = true := forall_byte (by decide +kernel)
      exact low_of_all (pair d) c inside
    · rename_i stands
      rw [mem_singleton.mp inside]
      exact low_of_unescaped _ (Bool.eq_false_iff.mpr stands)

theorem low_printPart {raw decoded : Bytes} : ∀ c ∈ printPart mode raw decoded, c < 0x80 := by
  intro c inside
  rw [printPart] at inside
  split at inside
  · rename_i written
    have stands := all_eq_true.mp written.2.1 c inside
    rw [Bool.or_eq_true, Bool.not_eq_true', decide_eq_true_eq] at stands
    rcases stands with mark | stands
    · exact low_of_all (by decide) c mark
    · exact low_of_unescaped _ stands
  · exact low_escape c inside

theorem low_userinfo (info : Userinfo) : ∀ c ∈ info.string, c < 0x80 := by
  rw [Userinfo.string]
  split
  · nofun
  · refine forall_mem_append.mpr ⟨low_escape, ?_⟩
    cases info.password with
    | none => nofun
    | some p => exact forall_mem_cons.mpr ⟨by decide, low_escape⟩

theorem low_authority (u : URL) : ∀ c ∈ u.authority, c < 0x80 := by
  rw [URL.authority]
  split_ifs
  · nofun
  · nofun
  all_goals
    refine forall_mem_append.mpr ⟨forall_mem_append.mpr ⟨low_of_all rfl, ?_⟩, low_escape⟩
    cases u.user with
    | none => nofun
    | some info => exact forall_mem_append.mpr ⟨low_userinfo info, low_of_all rfl⟩

/-- `String` escapes all but the opaque part and the query. -/
theorem whole_string {u : URL} (scheme : ∀ c ∈ u.scheme, c < 0x80) :
    Json.Whole u.string ↔ Json.Whole u.opaqued ∧ Json.Whole u.rawQuery := by
  have empty : Json.Whole [] := ⟨[], nofun, rfl⟩
  have before : ∀ c ∈ (if u.scheme = [] then [] else u.scheme ++ [58]), c < 0x80 := by
    split
    · nofun
    · exact forall_mem_append.mpr ⟨scheme, low_of_all rfl⟩
  have fragment : ∀ c ∈ (if u.fragment ≠ [] then 35 :: u.escapedFragment else []), c < 0x80 := by
    split
    · exact forall_mem_cons.mpr ⟨by decide, low_printPart⟩
    · nofun
  have path : ∀ c ∈ u.escapedPath, c < 0x80 := by
    rw [URL.escapedPath]
    split
    · rename_i star
      rw [star]
      exact low_of_all rfl
    · exact low_printPart
  have query : ∀ s : Bytes, Json.Whole (s ++
      if u.forceQuery = true ∨ u.rawQuery ≠ [] then 63 :: u.rawQuery else []) ↔
        Json.Whole s ∧ Json.Whole u.rawQuery := by
    intro s
    split
    · exact Json.whole_split (by decide)
    · rename_i none'
      rw [append_nil, not_not.mp (not_or.mp none').2]
      exact (and_iff_left empty).symm
  simp only [URL.string]
  rw [Json.whole_append_low fragment, query]
  refine and_congr_left fun _ => ?_
  split
  · exact Json.whole_low_append before
  · rename_i plain
    rw [not_not.mp plain]
    refine iff_of_true (Json.whole_of_low ?_) empty
    refine forall_mem_append.mpr ⟨forall_mem_append.mpr ⟨forall_mem_append.mpr
      ⟨forall_mem_append.mpr ⟨before, low_authority u⟩, ?_⟩, ?_⟩, path⟩
    all_goals split_ifs <;> exact low_of_all rfl

/-- Every percent sign starts an escape. -/
def escapesWell : Bytes → Bool
  | [] => true
  | 37 :: a :: b :: rest => (digitValue a).isSome && (digitValue b).isSome && escapesWell rest
  | c :: rest => c != 37 && escapesWell rest

/-- What is decoded becomes shorter or has a blank for a plus sign. -/
theorem queryUnescape_cases (s : Bytes) : (escapesWell s = false ∧ queryUnescape s = none) ∨
    ∃ t, escapesWell s = true ∧ queryUnescape s = some t ∧ t.length ≤ s.length ∧
      (t = s ↔ 43 ∉ s ∧ 37 ∉ s) := by
  unfold queryUnescape
  fun_induction escapesWell s with
  | case1 => exact .inr ⟨[], rfl, rfl, le_rfl, by simp⟩
  | case2 a b rest ih =>
    rw [unescape]
    rcases ih with ⟨bad, none⟩ | ⟨t, good, read, short, -⟩
    · cases digitValue a <;> cases digitValue b <;> simp [bad, none]
    · cases digitValue a <;> cases digitValue b <;> simp [mayEscape, good, read]
      refine ⟨by omega, fun _ same => ?_⟩
      rw [same] at short
      simp at short
  | case3 c rest other ih =>
    rw [unescape]
    · by_cases percent : c = 37
      · simp [percent]
      · rcases ih with ⟨bad, none⟩ | ⟨t, good, read, short, same⟩
        · by_cases plus : c = 43 <;> simp [bad, none]
        · by_cases plus : c = 43
          · simp [plus, good, read, short]
          · simp [percent, plus, mayStand, good, read, short, same, Ne.symm percent, Ne.symm plus]
    · exact other

example : (parse (ascii "https://u:p%40@[2001:db8::1]:443/a%2Fb?x=1#n%C3%A9")).map URL.string =
    some (ascii "https://u:p%40@[2001:db8::1]:443/a%2Fb?x=1#n%C3%A9") := by
  decide

example : (parse (ascii "vless://a%20b@example.org:443?x=1&y=%20z#n+m")).map
    (fun u => [u.hostname, u.port, get (ascii "y") u.query, u.fragment]) =
      some [ascii "example.org", ascii "443", ascii " z", ascii "n+m"] := by
  decide

end Sora.Lib.Url
