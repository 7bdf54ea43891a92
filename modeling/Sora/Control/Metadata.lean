import Sora.Lib.Url
import Sora.Control.Record

/-!
# Provider metadata

`parseInfo`: what a provider says about a subscription in the headers of its answer or in the
first lines of the body.  Texts are cleaned to UTF-8 and the expiry is bounded; the two page
links are kept as `URL.String` prints them.
-/

namespace Sora.Control

open Sora.Lib

def maxTitleRunes : Nat := 128

def maxAnnounceRunes : Nat := 2048

def maxURLBytes : Nat := 2048

def maxIntervalHours : Nat := 24 * 365

/-- How many lines of the body are looked at. -/
def bodyHeaderLines : Nat := 10

/-! ## Numbers and times -/

/-- `strconv.ParseUint` with base ten and 64 bits. -/
def parseUint (s : Bytes) : Option Nat :=
  if Json.isDigits s ∧ numValue 10 s < 2 ^ 64 then some (numValue 10 s) else none

/-- `strconv.Atoi` for 64 bits. -/
def atoi (s : Bytes) : Option Int :=
  let digits := if s.head? = some 45 ∨ s.head? = some 43 then s.tail else s
  let value : Int := numValue 10 digits
  let n : Int := if s.head? = some 45 then -value else value
  if Json.isDigits digits ∧ -2 ^ 63 ≤ n ∧ n < 2 ^ 63 then some n else none

/-- A Unix time in nanoseconds since the zero time. -/
def unixTime (seconds : Nat) : Int := (62135596800 + seconds) * 10 ^ 9

/-! ## Texts -/

/-- `unicode.IsControl`. -/
def isControl : Json.Chunk → Bool
  | .ascii c => c < 32 || c == 127
  | .char bytes => bytes.length == 2 && bytes.head? == some 0xC2 && bytes.getLast?.any (· < 0xA0)
  | .stray _ => false

/-- `cleanText`. -/
def cleanText (s : Bytes) (limit : Nat) (multiline : Bool) : Bytes :=
  let kept := (Json.chunks (trimSpace s)).filter fun c =>
    !isControl c || multiline && c == .ascii 10
  trimSpace ((kept.take limit).flatMap Json.Chunk.fixed)

/-- The encodings that panels use: with and without padding, of both alphabets. -/
def decodeAny (s : Bytes) : Option Bytes :=
  [(Base64.std, true), (Base64.std, false), (Base64.url, true), (Base64.url, false)].findSome?
    fun (a, padded) => (Base64.decode a padded s).filter Json.valid

/-- `decodeMarked`. -/
def decodeMarked (s : Bytes) : Bytes :=
  if (ascii "base64:").isPrefixOf s then (decodeAny (trimSpace (s.drop 7))).getD [] else s

/-- `decodeBody`. -/
def decodeBody (body : Bytes) : Option Bytes := decodeAny (body.filter fun c => !isSpace c)

/-- `cleanURL`. -/
def cleanURL (s : Bytes) : Bytes :=
  let s := trimSpace s
  if s = [] ∨ maxURLBytes < s.length then []
  else
    match Url.parse s with
    | none => []
    | some u =>
      if u.scheme = ascii "https" ∨ u.scheme = ascii "http" then
        if u.host = [] then [] else u.string
      else if u.scheme = ascii "tg" then u.string
      else []

/-! ## Headers -/

/-- A setting of one of the first lines of the body. -/
def bodyHeader (line : Bytes) : Option (Bytes × Bytes) :=
  let line := trimSpace line
  let setting (rest : Bytes) : Option (Bytes × Bytes) :=
    if 58 ∈ rest then some (Url.toLower (trimSpace (Url.cut 58 rest).1), trimSpace (Url.cut 58 rest).2)
    else none
  match line with
  | 35 :: rest => setting rest
  | 47 :: 47 :: rest => setting rest
  | _ => none

/-- `bodyHeaders`; the last setting of a key counts. -/
def bodyHeaders (body : Bytes) (key : Bytes) : Bytes :=
  let lines := (((decodeBody body).getD body).splitOn 10).take bodyHeaderLines
  (((lines.filterMap bodyHeader).reverse.find? fun p => p.1 == key).map (·.2)).getD []

/-- The last value of a field of `subscription-userinfo`. -/
def usageField (raw key : Bytes) : Option Nat :=
  ((raw.splitOn 59).reverse.filterMap fun part =>
    if 61 ∈ part ∧ Url.toLower (trimSpace (Url.cut 61 part).1) = key then
      parseUint (trimSpace (Url.cut 61 part).2)
    else none).head?

/-- `parseUsage`. -/
def parseUsage (raw : Bytes) (info : Info) : Info :=
  let field (key : String) : Option Nat := usageField raw (ascii key)
  if (field "upload").isNone ∧ (field "download").isNone then info
  else
    let seconds := (field "expire").getD 0
    { info with
      hasUsage := true
      upload := (field "upload").getD 0
      download := (field "download").getD 0
      total := (field "total").getD 0
      expire := if 0 < seconds ∧ seconds < 2 ^ 40 then unixTime seconds else 0 }

/-- `dispositionName`, for the file name of a disposition. -/
def dispositionName (name : Bytes) : Bytes :=
  match Url.cutLast 46 name with
  | some (stem, _) => if stem = [] then name else stem
  | none => name

/-- `parseInfo`.  `filename` is the parameter that `mime.ParseMediaType` reads. -/
def parseInfo (filename : Bytes → Option Bytes) (header : Bytes → Bytes) (body : Bytes) : Info :=
  let value (key : String) : Bytes :=
    if trimSpace (header (ascii key)) ≠ [] then trimSpace (header (ascii key))
    else bodyHeaders body (ascii key)
  let title := cleanText (decodeMarked (value "profile-title")) maxTitleRunes false
  let hours := (atoi (value "profile-update-interval")).getD 0
  let info : Info :=
    { title :=
        if title ≠ [] then title
        else cleanText (((filename (value "content-disposition")).map dispositionName).getD [])
          maxTitleRunes false
      updateInterval := if 0 < hours ∧ hours ≤ maxIntervalHours then hours * hour else 0
      webPageURL := cleanURL (value "profile-web-page-url")
      supportURL := cleanURL (value "support-url")
      announce := cleanText (decodeMarked (value "announce")) maxAnnounceRunes true }
  if value "subscription-userinfo" ≠ [] then parseUsage (value "subscription-userinfo") info
  else info

/-- A page link with a byte that is no text keeps it. -/
example : (parseInfo (fun _ => none) (fun _ => [])
    (ascii "#profile-web-page-url: https://panel.example/?" ++ [0xFF])).webPageURL =
      ascii "https://panel.example/?" ++ [0xFF] := by
  decide

end Sora.Control
