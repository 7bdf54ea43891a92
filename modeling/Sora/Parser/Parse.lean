import Sora.Parser.Spec

/-!
# Imports

Detecting the format of a payload and reading its servers: lists of links, plain or in base64, JSON
and YAML lists, provider configurations and WireGuard files.  The results say what every accepted
server has passed, and that a list of links holds no server twice.

The YAML reader is a parameter.
-/

namespace Sora.Parser

open Sora.Lib List

inductive Format where
  | unset
  | unknown
  | subscription
  | httpSubscription
  | link
  | base64
  | sip008
  | clash
  | singBox
  | xray
  | wireGuard
  | plainList
  deriving DecidableEq

/-- What the parser uses of libraries: `yaml` reads the list `proxies` of a document. -/
structure Readers where
  floats : Floats
  yaml : Bytes → Option (List Object)

/-! ## Formats -/

def knownSchemes : List Bytes :=
  ["vless://", "vmess://", "trojan://", "ss://", "socks://", "socks5://", "http://", "https://",
    "hysteria2://", "hy2://", "tuic://", "wireguard://", "wg://"].map ascii

/-- `strings.Fields`. -/
def words (s : Bytes) : List Bytes := (s.splitOnP isSpace).filter fun w => !w.isEmpty

/-- `hasScheme`. -/
def hasScheme (s : Bytes) : Bool :=
  (words s).any fun w => knownSchemes.any fun x => x.isPrefixOf (Url.toLower w)

/-- `looksList`. -/
def looksList (s : Bytes) : Bool := (s.splitOn 10).any fun l => hasScheme (trimSpace l)

/-- `strings.Contains`. -/
def contains (part s : Bytes) : Bool := s.tails.any fun t => part.isPrefixOf t

/-- `looksWG`. -/
def looksWG (s : Bytes) : Bool := contains (ascii "[Interface]") s && contains (ascii "[Peer]") s

/-- `classifyJSON`. -/
def classifyJSON : Json.Value → Format
  | .object ms =>
    if (value ms (ascii "outbounds")).isSome then .singBox
    else if (value ms (ascii "servers")).isSome then .sip008
    else if (value ms (ascii "inbounds")).isSome then .xray
    else .unset
  | .array (.object _ :: _) => .xray
  | _ => .unset

/-- `Detect`. -/
def detect (floats : Floats) (src : Bytes) : Format × Option Err :=
  let s := trimSpace src
  let low := Url.toLower s
  if s = [] then (.unset, some .emptySource)
  else if maxInputSize < src.length then (.unset, some .inputTooLarge)
  else if (ascii "https://").isPrefixOf low then (.subscription, none)
  else if (ascii "http://").isPrefixOf low then (.httpSubscription, none)
  else if hasScheme s then (.link, none)
  else
    let json := if s.head? = some 123 ∨ s.head? = some 91 then decode floats s else none
    match json with
    | some v => (classifyJSON v, none)
    | none =>
      if contains (ascii "proxies:") s then (.clash, none)
      else if looksWG s then (.wireGuard, none)
      else if (decodeBase64 s).any fun b => hasScheme b || looksList b then (.base64, none)
      else if looksList s then (.plainList, none)
      else (.unknown, some .unsupported)

/-! ## Lists of links -/

structure ItemReason where
  index : Nat
  reason : Bytes
  deriving DecidableEq

structure Report where
  imported : Nat := 0
  skippedDuplicates : Nat := 0
  unsupported : Nat := 0
  invalid : Nat := 0
  unsupportedItems : List ItemReason := []
  invalidItems : List ItemReason := []
  duplicateItems : List ItemReason := []
  deriving DecidableEq

structure Imported where
  servers : List OutboundSpec := []
  report : Report := {}

namespace Report

def skipUnsupported (index : Nat) (reason : String) (r : Report) : Report :=
  { r with
    unsupported := r.unsupported + 1
    unsupportedItems := r.unsupportedItems ++ [⟨index, ascii reason⟩] }

def skipInvalid (index : Nat) (r : Report) : Report :=
  { r with
    invalid := r.invalid + 1
    invalidItems := r.invalidItems ++ [⟨index, ascii "invalid link fields"⟩] }

def skipDuplicate (index : Nat) (r : Report) : Report :=
  { r with
    skippedDuplicates := r.skippedDuplicates + 1
    duplicateItems := r.duplicateItems ++ [⟨index, ascii "duplicate server"⟩] }

end Report

def Imported.add (o : OutboundSpec) (r : Imported) : Imported where
  servers := r.servers ++ [o]
  report := { r.report with imported := r.report.imported + 1 }

section

variable (hash : Hash) (lib : Readers)

/-- One line of a list.  The keys that were seen are those of the servers so far. -/
def readLine (limit : Nat) (r : Imported) (line : Nat × Bytes) : Imported :=
  let l := trimSpace line.2
  if limit ≤ r.servers.length then
    { r with report := r.report.skipUnsupported line.1 "item limit exceeded" }
  else if l = [] then r
  else
    match parseLink lib.floats l with
    | .error .unsupported =>
      { r with report := r.report.skipUnsupported line.1 "unsupported protocol or option" }
    | .error _ => { r with report := r.report.skipInvalid line.1 }
    | .ok o =>
      if o.stableKey hash ∈ r.servers.map (·.stableKey hash) then
        { r with report := r.report.skipDuplicate line.1 }
      else r.add o

/-- The lines of a text with their positions. -/
def numbered (s : Bytes) : List (Nat × Bytes) := (s.splitOn 10).zipIdx.map fun p => (p.2, p.1)

/-- `parseList`. -/
def parseList (limit : Nat) (s : Bytes) : Except Err Imported :=
  let r := (numbered s).foldl (readLine hash lib limit) {}
  if r.servers = [] ∧ r.report.unsupported = 0 ∧ r.report.invalid = 0 then .error .unsupported
  else .ok r

/-! ## Objects and files -/

/-- The items of a JSON payload; a whole Xray configuration is one. -/
def jsonItems : Json.Value → List Json.Value
  | .array vs => vs
  | .object ms =>
    if isXrayConfig ms then [.object ms]
    else
      match value ms (ascii "outbounds"), value ms (ascii "servers"), value ms (ascii "outbound") with
      | some (.array vs), _, _ => vs
      | _, some (.array vs), _ => vs
      | _, _, some (.array vs) => vs
      | _, _, _ => [.object ms]
  | _ => []

/-- What an item of a JSON payload adds.  A spec without a protocol has not passed its check. -/
def readItem (r : Imported) : Json.Value → Imported
  | .object ms =>
    match if isXrayConfig ms then profileSpec lib.floats ms else mapJSONSpec lib.floats ms [] with
    | .error _ => { r with report := { r.report with invalid := r.report.invalid + 1 } }
    | .ok o => r.add o
  | _ => r

/-- `parseJSON`. -/
def parseJSON (s : Bytes) : Except Err Imported :=
  match decode lib.floats s with
  | none => .error .invalid
  | some v => .ok ((jsonItems v).foldl (readItem lib) {})

/-- What an entry of `proxies` adds. -/
def readProxy (r : Imported) (ms : Object) : Imported :=
  match mapJSONSpec lib.floats ms [] with
  | .error _ => { r with report := { r.report with invalid := r.report.invalid + 1 } }
  | .ok o => r.add { o with displayName := stringValue (value ms (ascii "name")) }

/-- `parseYAML`. -/
def parseYAML (s : Bytes) : Except Err Imported :=
  match lib.yaml s with
  | none => .error .invalid
  | some proxies => .ok (proxies.foldl (readProxy lib) {})

/-- `net.SplitHostPort`. -/
def netSplitHostPort (s : Bytes) : Option (Bytes × Bytes) := do
  let (front, port) ← Url.cutLast 58 s
  if s.head? = some 91 then
    let host := s.tail.takeWhile (· != 93)
    if 93 ∈ s ∧ front = 91 :: (host ++ [93]) ∧ 91 ∉ s.tail ∧ 93 ∉ port then some (host, port) else none
  else if 58 ∈ front ∨ 91 ∈ s ∨ 93 ∈ s then none
  else some (front, port)

/-- A WireGuard file as far as it is read. -/
structure WGFile where
  spec : OutboundSpec := { protocol := ascii "wireguard", transport := ascii "udp" }
  sectionName : Bytes := []
  peer : WireGuardPeer := {}

/-- The peer that a section has described. -/
def WGFile.close (f : WGFile) : WGFile :=
  if f.sectionName = ascii "[peer]" then
    { f with spec := { f.spec with peers := f.spec.peers ++ [f.peer] }, peer := {} }
  else f

/-- A setting in the section of a peer. -/
def WGFile.setPeer (f : WGFile) (k v : Bytes) : WGFile :=
  if k = ascii "publickey" then { f with peer := { f.peer with publicKey := v } }
  else if k = ascii "presharedkey" then { f with peer := { f.peer with preSharedKey := v } }
  else if k = ascii "endpoint" then
    let f := { f with peer := { f.peer with endpoint := v } }
    match netSplitHostPort v with
    | some (h, p) =>
      { f with spec := { f.spec with host := h, port := (parsePort p).toOption.getD 0 } }
    | none => f
  else if k = ascii "allowedips" then
    { f with peer := { f.peer with allowedIPs := v.splitOn 44 } }
  else if k = ascii "persistentkeepalive" then
    { f with peer := { f.peer with persistentKeepalive := (Control.atoi v).getD 0 } }
  else f

def WGFile.readLine (f : WGFile) (line : Bytes) : WGFile :=
  let line := trimSpace line
  if line.head? = some 91 then { f.close with sectionName := Url.toLower line }
  else if 61 ∉ line then f
  else
    let k := Url.toLower (trimSpace (Url.cut 61 line).1)
    let v := trimSpace (Url.cut 61 line).2
    if f.sectionName = ascii "[interface]" then
      { f with spec := { f.spec with options := Function.update f.spec.options k v } }
    else if f.sectionName = ascii "[peer]" then f.setPeer k v
    else f

/-- `parseWG`. -/
def parseWG (s : Bytes) : Except Err Imported :=
  let o := ((s.splitOn 10).foldl WGFile.readLine {}).close.spec
  match o.validate with
  | some e => .error e
  | none => .ok { servers := [o], report := { imported := 1 } }

/-- `Parse`. -/
def parse (limit : Nat) (src : Bytes) : Except Err Imported :=
  let s := trimSpace src
  if maxInputSize < src.length then .error .inputTooLarge
  else
    match detect lib.floats src with
    | (.unknown, _) => parseList hash lib limit s
    | (_, some e) => .error e
    | (.httpSubscription, none) => .error .unsupported
    | (.base64, none) => parseList hash lib limit ((decodeBase64 s).getD [])
    | (.sip008, none) | (.singBox, none) | (.xray, none) => parseJSON lib s
    | (.clash, none) => parseYAML lib s
    | (.wireGuard, none) => parseWG s
    | (_, none) => parseList hash lib limit s

end

/-! ## What an import has checked -/

variable {r : Imported} {src : Bytes} {limit : Nat}

section

variable {hash : Hash} {lib : Readers} {P : OutboundSpec → Prop}

/-- Every server so far has the property. -/
def Imported.Every (P : OutboundSpec → Prop) (r : Imported) : Prop := ∀ o ∈ r.servers, P o

theorem Imported.Every.add (every : r.Every P) {o : OutboundSpec} (new : P o) :
    (r.add o).Every P := by
  intro p inside
  rcases mem_append.mp inside with inside | inside
  · exact every p inside
  · rwa [mem_singleton.mp inside]

theorem Imported.every_foldl {α : Type} {step : Imported → α → Imported}
    (keeps : ∀ r a, r.Every P → (step r a).Every P) (l : List α) :
    ∀ r : Imported, r.Every P → (l.foldl step r).Every P := by
  induction l with
  | nil => exact fun r every => every
  | cons a l ih => exact fun r every => ih _ (keeps r a every)

theorem Imported.every_empty : ({} : Imported).Every P := fun _ inside => by cases inside

theorem readLine_every (link : ∀ raw o, parseLink lib.floats raw = .ok o → P o) (limit : Nat)
    (r : Imported) (line : Nat × Bytes) (every : r.Every P) :
    (readLine hash lib limit r line).Every P := by
  rw [readLine]
  split
  · exact every
  · split
    · exact every
    · split
      · exact every
      · exact every
      · rename_i o accepted
        split
        · exact every
        · exact every.add (link _ o accepted)

theorem readItem_every (item : ∀ ms o, mapJSONSpec lib.floats ms [] = .ok o → P o)
    (whole : ∀ ms o, profileSpec lib.floats ms = .ok o → P o) (r : Imported) (v : Json.Value)
    (every : r.Every P) : (readItem lib r v).Every P := by
  rw [readItem.eq_def]
  split
  · split
    · exact every
    · rename_i o accepted
      split at accepted
      · exact every.add (whole _ o accepted)
      · exact every.add (item _ o accepted)
  · exact every

theorem readProxy_every
    (proxy : ∀ ms o, mapJSONSpec lib.floats ms [] = .ok o →
      P { o with displayName := stringValue (value ms (ascii "name")) })
    (r : Imported) (ms : Object) (every : r.Every P) : (readProxy lib r ms).Every P := by
  rw [readProxy]
  split
  · exact every
  · rename_i o accepted
    exact every.add (proxy ms o accepted)

/-- What holds of every server that a reader of a single item accepts holds of every server of an
import. -/
theorem parse_every (link : ∀ raw o, parseLink lib.floats raw = .ok o → P o)
    (item : ∀ ms o, mapJSONSpec lib.floats ms [] = .ok o → P o)
    (whole : ∀ ms o, profileSpec lib.floats ms = .ok o → P o) (proxy : ∀ ms o, mapJSONSpec
    lib.floats ms [] = .ok o → P { o with displayName := stringValue (value ms (ascii "name")) })
    (file : ∀ s r, parseWG s = .ok r → r.Every P) (ok : parse hash lib limit src = .ok r) :
    r.Every P := by
  have list : ∀ s, parseList hash lib limit s = .ok r → r.Every P := by
    intro s ok
    rw [parseList] at ok
    split at ok
    · cases ok
    · cases ok
      exact Imported.every_foldl (readLine_every link limit) _ _ Imported.every_empty
  have json : ∀ s, parseJSON lib s = .ok r → r.Every P := by
    intro s ok
    rw [parseJSON] at ok
    split at ok
    · cases ok
    · cases ok
      exact Imported.every_foldl (readItem_every item whole) _ _ Imported.every_empty
  rw [parse] at ok
  split at ok
  · cases ok
  · split at ok
    · exact list _ ok
    · cases ok
    · cases ok
    · exact list _ ok
    · exact json _ ok
    · exact json _ ok
    · exact json _ ok
    · rw [parseYAML] at ok
      split at ok
      · cases ok
      · cases ok
        exact Imported.every_foldl (readProxy_every proxy) _ _ Imported.every_empty
    · exact file _ r ok
    · exact list _ ok

/-- Every server of an import has passed the check of its fields. -/
theorem parse_sound (ok : parse hash lib limit src = .ok r) :
    r.Every fun o => o.validate = none := by
  have checked : ∀ {o p : OutboundSpec}, o.checked = .ok p → p.validate = none := by
    intro o p accepted
    obtain ⟨rfl, valid⟩ := OutboundSpec.checked_ok accepted
    exact valid
  refine parse_every (fun raw o ok => (parseLink_read ok).1) (fun ms o => checked) (fun ms o => checked)
    (fun ms o accepted => ?_) (fun s r accepted => ?_) ok
  · -- the check does not look at the name
    have valid : o.validate = none := checked accepted
    exact valid
  · rw [parseWG] at accepted
    split at accepted
    · cases accepted
    · cases accepted
      intro o inside
      rwa [mem_singleton.mp inside]

/-- The keys of the servers so far are distinct. -/
def Imported.Distinct (hash : Hash) (r : Imported) : Prop :=
  (r.servers.map (·.stableKey hash)).Nodup

theorem readLine_distinct (limit : Nat) (r : Imported) (line : Nat × Bytes)
    (distinct : r.Distinct hash) : (readLine hash lib limit r line).Distinct hash := by
  rw [readLine]
  split
  · exact distinct
  · split
    · exact distinct
    · split
      · exact distinct
      · exact distinct
      · split
        · exact distinct
        · rename_i fresh
          rw [Imported.Distinct, Imported.add, map_append, nodup_append]
          refine ⟨distinct, nodup_singleton _, ?_⟩
          rintro key inside _ last rfl
          rw [mem_singleton.mp last] at inside
          exact fresh inside

/-- The formats whose items are not compared with each other. -/
def Format.unordered : Format → Bool
  | .sip008 | .singBox | .xray | .clash => true
  | _ => false

/-- An import of links or of a WireGuard file holds no server twice. -/
theorem parse_distinct (ok : parse hash lib limit src = .ok r)
    (links : (detect lib.floats src).1.unordered = false) : r.Distinct hash := by
  have list : ∀ s, parseList hash lib limit s = .ok r → r.Distinct hash := by
    intro s ok
    rw [parseList] at ok
    split at ok
    · cases ok
    · cases ok
      have run : ∀ (l : List (Nat × Bytes)) (r : Imported), r.Distinct hash →
          (l.foldl (readLine hash lib limit) r).Distinct hash := by
        intro l
        induction l with
        | nil => exact fun r distinct => distinct
        | cons line l ih => exact fun r distinct => ih _ (readLine_distinct limit r line distinct)
      exact run _ _ nodup_nil
  rw [parse] at ok
  split at ok
  · cases ok
  · generalize detect lib.floats src = found at ok links
    split at ok
    · exact list _ ok
    · cases ok
    · cases ok
    · exact list _ ok
    · cases links
    · cases links
    · cases links
    · cases links
    · rw [parseWG] at ok
      split at ok
      · cases ok
      · cases ok
        exact nodup_singleton _
    · exact list _ ok

end

end Sora.Parser
