import Sora.Parser.Parse

/-!
# SIP008 documents

A SIP008 document is a JSON object with an array `servers` of Shadowsocks servers.  The items of the
format have no member that names a protocol, and the importer reads them with the mapping of all other
JSON lists, which needs one.  The result says which documents come through whole.
-/

namespace Sora.Parser

open Sora.Lib List Option Json OutboundSpec Url Nat

/-! ## Documents -/

/-- An item of a document: its host, port, method and password, and a name if there is one. -/
structure IsServer (floats : Floats) (ms : Object) : Prop where
  host : ∃ s, value ms (ascii "server") = some (.string s) ∧ s ≠ []
  port : portNumber floats (value ms (ascii "server_port")) ≠ 0
  method : ∃ s, value ms (ascii "method") = some (.string s)
  password : ∃ s, value ms (ascii "password") = some (.string s)
  remarks : value ms (ascii "remarks") = none ∨ ∃ s, value ms (ascii "remarks") = some (.string s)

/-- A text that is a SIP008 document with these items. -/
structure IsDocument (floats : Floats) (src : Bytes) (items : List Object) : Prop where
  text : ∃ ms, decode floats (trimSpace src) = some (.object ms) ∧
    value ms (ascii "servers") = some (.array (items.map .object)) ∧
    value ms (ascii "outbounds") = none
  servers : ∀ ms ∈ items, IsServer floats ms

/-- What a document says of a server. -/
structure Shadowsocks where
  protocol : Bytes
  host : Bytes
  port : UInt16
  method : Bytes
  password : Bytes
  name : Bytes
  deriving DecidableEq

/-- The server that an item describes. -/
def described (floats : Floats) (ms : Object) : Shadowsocks where
  protocol := ascii "shadowsocks"
  host := stringValue (value ms (ascii "server"))
  port := portNumber floats (value ms (ascii "server_port"))
  method := stringValue (value ms (ascii "method"))
  password := stringValue (value ms (ascii "password"))
  name := stringValue (value ms (ascii "remarks"))

/-- The same of an imported server. -/
def OutboundSpec.shown (o : OutboundSpec) : Shadowsocks where
  protocol := o.protocol
  host := o.host
  port := o.port
  method := o.cipher
  password := o.password
  name := o.displayName

/-- An import with one server for each item, in order, that reports nothing. -/
def Imported.Complete (floats : Floats) (items : List Object) (r : Imported) : Prop :=
  r.servers.map OutboundSpec.shown = items.map (described floats) ∧ r.report.invalid = 0 ∧
    r.report.unsupported = 0

/-- An item that also says what the generic mapping looks for. -/
structure Mapped (ms : Object) : Prop where
  type : value ms (ascii "type") = some (.string (ascii "shadowsocks"))
  tag : stringValue (value ms (ascii "tag")) = stringValue (value ms (ascii "remarks"))
  plain : isXrayConfig ms = false

/-! ## Items -/

/-- What an item becomes. -/
def outcome (lib : Readers) (ms : Object) : Except Err OutboundSpec :=
  if isXrayConfig ms then profileSpec lib.floats ms else mapJSONSpec lib.floats ms []

theorem readItem_object (lib : Readers) (r : Imported) (ms : Object) :
    readItem lib r (.object ms) =
      match outcome lib ms with
      | .error _ => { r with report := { r.report with invalid := r.report.invalid + 1 } }
      | .ok o => r.add o := rfl

theorem servers_readItems (lib : Readers) (l : List Object) : ∀ r : Imported,
    ((l.map Json.Value.object).foldl (readItem lib) r).servers =
      r.servers ++ l.filterMap fun ms => (outcome lib ms).toOption := by
  induction l with
  | nil => exact fun r => (append_nil _).symm
  | cons ms l ih =>
    intro r
    rw [map_cons, foldl_cons, readItem_object, ih, filterMap_cons]
    cases outcome lib ms with
    | error e => rfl
    | ok o => exact append_assoc ..

/-- Every object that does not become a server is counted as invalid. -/
theorem invalid_readItems (lib : Readers) (l : List Object) : ∀ r : Imported,
    ((l.map Json.Value.object).foldl (readItem lib) r).report.invalid =
      r.report.invalid + l.countP fun ms => (outcome lib ms).toOption.isNone := by
  induction l with
  | nil => exact fun r => rfl
  | cons ms l ih =>
    intro r
    rw [map_cons, foldl_cons, readItem_object, ih, countP_cons]
    cases outcome lib ms with
    | error e =>
      change r.report.invalid + 1 + _ = r.report.invalid + (_ + 1)
      omega
    | ok o => rfl

theorem unsupported_readItems (lib : Readers) (l : List Object) : ∀ r : Imported,
    ((l.map Json.Value.object).foldl (readItem lib) r).report.unsupported = r.report.unsupported := by
  induction l with
  | nil => exact fun r => rfl
  | cons ms l ih =>
    intro r
    rw [map_cons, foldl_cons, readItem_object, ih]
    split
    · rfl
    · rfl

variable {lib : Readers} {ms : Object}

/-- An item of a document comes through whole exactly if it says what the mapping looks for. -/
theorem outcome_iff (server : IsServer lib.floats ms) :
    (∃ o, outcome lib ms = .ok o ∧ o.shown = described lib.floats ms) ↔ Mapped ms := by
  obtain ⟨host, hosted, named⟩ := server.host
  have port := server.port
  have fixed : (objectSpec lib.floats ms []).host = host ∧
      (objectSpec lib.floats ms []).port = portNumber lib.floats (value ms (ascii "server_port")) := by
    simp [objectSpec, hosted, stringValue, firstText, named, port]
  constructor
  · rintro ⟨o, accepted, same⟩
    rw [outcome] at accepted
    split at accepted
    · obtain ⟨rfl, -⟩ := checked_ok accepted
      have protocol := congrArg Shadowsocks.protocol same
      change ascii "xray-profile" = ascii "shadowsocks" at protocol
      exact absurd protocol (by decide)
    · rename_i plain
      obtain ⟨rfl, -⟩ := checked_ok accepted
      have protocol := congrArg Shadowsocks.protocol same
      refine ⟨?_, congrArg Shadowsocks.name same, by simpa using plain⟩
      simp only [shown, objectSpec, described] at protocol
      split at protocol
      · rename_i s found
        rw [found, protocol]
      · exact absurd protocol (by decide)
  · intro mapped
    have protocol : (objectSpec lib.floats ms []).protocol = ascii "shadowsocks" := by
      simp [objectSpec, mapped.type]
    have valid : (objectSpec lib.floats ms []).validate = none := by
      have other : ascii "shadowsocks" ∉ ["vless", "vmess", "tuic"].map ascii := by decide
      have given : ¬(ascii "shadowsocks" = [] ∨ host = [] ∨
          portNumber lib.floats (value ms (ascii "server_port")) < 1) := by
        rintro (empty | empty | low)
        · exact absurd empty (by decide)
        · exact named empty
        · exact port (UInt16.lt_one_iff.mp low)
      rw [validate, protocol, fixed.1, fixed.2, if_neg given, if_neg fun all => other all.1]
    refine ⟨objectSpec lib.floats ms [], ?_, ?_⟩
    · rw [outcome, mapped.plain]
      simp only [Bool.false_eq_true, if_false, mapJSONSpec, checked, valid]
    · rw [shown, described, protocol, fixed.1, fixed.2, hosted]
      simp only [Shadowsocks.mk.injEq, true_and, stringValue]
      exact ⟨rfl, rfl, mapped.tag⟩

theorem map_filterMap_iff {α β γ : Type} {f : α → Option β} {g : β → γ} {h : α → γ} {l : List α}
    (all : ∀ a ∈ l, (f a).isSome) :
    (l.filterMap f).map g = l.map h ↔ ∀ a ∈ l, ∃ b, f a = some b ∧ g b = h a := by
  induction l with
  | nil => simp
  | cons a l ih =>
    obtain ⟨b, found⟩ := isSome_iff_exists.mp (all a mem_cons_self)
    rw [filterMap_cons_some found, map_cons, map_cons, cons.injEq,
      ih fun x inside => all x (mem_cons_of_mem a inside), forall_mem_cons]
    refine and_congr_left fun _ => ⟨fun same => ⟨b, found, same⟩, ?_⟩
    rintro ⟨b', found', same⟩
    rw [found, Option.some.injEq] at found'
    rwa [found']

/-- A list of items of documents is imported whole exactly if every item says what the mapping looks
for. -/
theorem readItems_complete {items : List Object} (servers : ∀ ms ∈ items, IsServer lib.floats ms) :
    Imported.Complete lib.floats items ((items.map Json.Value.object).foldl (readItem lib) {}) ↔
      ∀ ms ∈ items, Mapped ms := by
  have accepted : ∀ {ms o}, (outcome lib ms).toOption = some o ↔ outcome lib ms = .ok o := by
    intro ms o
    cases outcome lib ms with
    | error e => exact ⟨nofun, nofun⟩
    | ok p => exact ⟨fun same => congrArg _ (Option.some.inj same), fun same => congrArg _ (Except.ok.inj same)⟩
  have each : ∀ ms ∈ items,
      ((∃ o, (outcome lib ms).toOption = some o ∧ o.shown = described lib.floats ms) ↔ Mapped ms) := by
    intro ms inside
    simp only [accepted]
    exact outcome_iff (servers ms inside)
  rw [Imported.Complete, unsupported_readItems, invalid_readItems, servers_readItems]
  rw [zero_add, countP_eq_zero, and_iff_left rfl]
  constructor
  · rintro ⟨shown, all⟩ ms inside
    have some : ∀ ms ∈ items, ((outcome lib ms).toOption).isSome := by
      intro ms inside
      rw [isSome_iff_ne_none]
      simpa using all ms inside
    exact (each ms inside).mp ((map_filterMap_iff some).mp shown ms inside)
  · intro mapped
    have found := fun ms inside => (each ms inside).mpr (mapped ms inside)
    have some : ∀ ms ∈ items, ((outcome lib ms).toOption).isSome := by
      intro ms inside
      obtain ⟨o, same, -⟩ := found ms inside
      rw [same]
      rfl
    refine ⟨(map_filterMap_iff some).mpr found, fun ms inside none => ?_⟩
    have there := some ms inside
    rw [isNone_iff_eq_none.mp none] at there
    cases there

/-! ## Texts -/

/-- The text of an object starts with a brace. -/
theorem head_of_decode {floats : Floats} {src : Bytes}
    (read : decode floats (trimSpace src) = some (.object ms)) :
    (trimSpace src).head? = some 123 := by
  rw [decode, filter_eq_some_iff] at read
  obtain ⟨⟨v, rest⟩, read, whole⟩ := bind_eq_some_iff.mp read.1
  have only : v = .object ms := by
    simp only [ite_none_right_eq_some, Option.some.injEq] at whole
    exact whole.2
  subst only
  have blank : ∀ c, isSpace c = false → isBlank c = false := forall_byte (by decide +kernel)
  cases shape : trimSpace src with
  | nil =>
    rw [shape] at read
    simp [readValue, skip] at read
  | cons c s =>
    have mark : isSpace c = false := head_trimSpace_mark (by rw [shape]; rfl)
    rw [shape, readValue, skip_cons (blank c mark)] at read
    by_contra other
    have brace : c ≠ 123 := fun same => other (congrArg some same)
    simp only [expect, readNumeral] at read
    split_ifs at read
    all_goals simp at read

variable {s : Bytes}

theorem scheme_of_brace {u : Url.URL} (brace : s.head? = some 123) (read : Url.parse s = some u) :
    u.scheme = [] := by
  have body : ∀ {t : Bytes} {v : Url.URL}, t.head? = some 123 → parseBody t = some v →
      v.scheme = [] := by
    intro t v first done
    obtain ⟨t, rfl⟩ := head?_eq_some_iff.mp first
    have scheme : getScheme (123 :: t) = some ([], 123 :: t) := rfl
    have path : ∀ {p : Bytes} {a b : Url.URL}, setPath p a = some b → b.scheme = a.scheme := by
      intro p a b set
      obtain ⟨text, -, rfl⟩ := map_eq_some_iff.mp set
      rfl
    simp only [parseBody, scheme, bind_eq_bind, bind_some] at done
    split at done
    · cases done
    · split at done
      · cases done
        rfl
      · split at done
        · cases done
          rfl
        · split at done
          · cases done
          · split at done
            · obtain ⟨pair, -, done⟩ := bind_eq_some_iff.mp done
              exact path done
            · exact path done
  rw [Url.parse] at read
  have kept : (cut 35 s).1.head? = some 123 := by
    obtain ⟨t, rfl⟩ := head?_eq_some_iff.mp brace
    rfl
  split at read
  · rename_i front cutted
    rw [cutted] at kept
    exact body kept read
  · rename_i front fragment _ cutted
    rw [cutted] at kept
    obtain ⟨v, first, set⟩ := bind_eq_some_iff.mp read
    obtain ⟨text, -, rfl⟩ := map_eq_some_iff.mp set
    have scheme : v.scheme = [] := body kept first
    exact scheme

theorem parseLink_of_brace (floats : Floats) (brace : s.head? = some 123) :
    ∃ e, parseLink floats s = .error e := by
  rw [parseLink]
  cases read : Url.parse (trimSpace s) with
  | none => exact ⟨.invalid, rfl⟩
  | some u =>
    have scheme := scheme_of_brace (head_trimSpace (by decide) brace) read
    refine ⟨.unsupported, ?_⟩
    have none : ([] : Bytes) ≠ ascii "vmess" ∧ ([] : Bytes) ∉ ["wireguard", "wg"].map ascii ∧
        ([] : Bytes) ∉ linkSchemes := by
      decide
    simp only [scheme, none.1, none.2.1, none.2.2, if_false, if_true, not_false_eq_true]

/-- What a list has complained about so far. -/
def Report.complaints (r : Report) : Nat := r.invalid + r.unsupported

theorem complaints_readLine (hash : Hash) (lib : Readers) (limit : Nat) (r : Imported)
    (line : Nat × Bytes) :
    r.report.complaints ≤ (readLine hash lib limit r line).report.complaints := by
  rw [readLine]
  split
  · exact le_succ _
  · split
    · exact le_rfl
    · split
      · exact le_succ _
      · change r.report.invalid + r.report.unsupported ≤ r.report.invalid + 1 + r.report.unsupported
        omega
      · split
        · exact le_rfl
        · exact le_rfl

theorem complaints_readLines (hash : Hash) (lib : Readers) (limit : Nat) (l : List (Nat × Bytes)) :
    ∀ r : Imported, r.report.complaints ≤ (l.foldl (readLine hash lib limit) r).report.complaints := by
  induction l with
  | nil => exact fun r => le_rfl
  | cons line l ih =>
    exact fun r => (complaints_readLine hash lib limit r line).trans (ih _)

/-- A text that starts with a brace is no list of links. -/
theorem complaints_of_brace (hash : Hash) (lib : Readers) {limit : Nat} (room : 0 < limit)
    (brace : s.head? = some 123) :
    0 < ((numbered s).foldl (readLine hash lib limit) {}).report.complaints := by
  obtain ⟨t, rfl⟩ := head?_eq_some_iff.mp brace
  have first : ∃ x xs, numbered (123 :: t) = (0, 123 :: x) :: xs := by
    rw [numbered, splitOn, splitOnP_cons_eq_if_modifyHead]
    cases shape : t.splitOnP (· == 10) with
    | nil => exact absurd shape (splitOnP_ne_nil _ _)
    | cons x xs => exact ⟨x, _, rfl⟩
  obtain ⟨x, xs, lines⟩ := first
  rw [lines]
  refine lt_of_lt_of_le ?_ (complaints_readLines hash lib limit xs _)
  have head : (trimSpace (123 :: x)).head? = some 123 := head_trimSpace (by decide) rfl
  obtain ⟨e, refused⟩ := parseLink_of_brace lib.floats head
  have full : trimSpace (123 :: x) ≠ [] := by
    intro empty
    rw [empty] at head
    cases head
  rw [readLine]
  simp only [full, refused, length_nil, not_le.mpr room]
  cases e with
  | unsupported | emptySource | inputTooLarge | invalid => exact zero_lt_one

/-! ## Documents that come through -/

section

variable {hash : Hash} {lib : Readers} {limit : Nat} {src : Bytes} {items : List Object}

theorem not_prefix_of_brace (word : Bytes) (brace : s.head? = some 123)
    (other : word.head?.any (· != 123) = true) : word.isPrefixOf (toLower s) = false := by
  obtain ⟨t, rfl⟩ := head?_eq_some_iff.mp brace
  cases word with
  | nil => cases other
  | cons w word =>
    have differ : w ≠ 123 := by simpa using other
    rw [toLower, map_cons, isPrefixOf_cons_cons]
    have same : (if isUpper 123 = true then (123 : UInt8) + 32 else 123) = 123 := by decide
    rw [same, beq_eq_false_iff_ne.mpr differ, Bool.false_and]

/-- What the detector says of a document within the limit. -/
theorem detect_document {ms : Object} (read : decode lib.floats (trimSpace src) = some (.object ms))
    (short : src.length ≤ maxInputSize) :
    detect lib.floats src =
      if hasScheme (trimSpace src) then (.link, none) else (classifyJSON (.object ms), none) := by
  have brace := head_of_decode read
  have full : trimSpace src ≠ [] := by
    intro empty
    rw [empty] at brace
    cases brace
  rw [detect]
  simp only [full, if_false, not_lt.mpr short,
    not_prefix_of_brace (ascii "https://") brace (by decide),
    not_prefix_of_brace (ascii "http://") brace (by decide), Bool.false_eq_true, brace,
    true_or, if_true, read]

end

/-! ## Two documents -/

/-- A stand-in for floats that reads whole numbers. -/
def wholeFloats : Floats where
  read s := if Json.isDigits s then some (numValue 10 s) else none
  print q := numeral 10 q.floor.toNat

def sipReaders : Readers := ⟨wholeFloats, fun _ => none⟩

theorem isHex_zeros : Control.isHex 64 (List.replicate 64 48) = true := by decide

def sipHash : Hash where
  sum _ := List.replicate 64 48
  hex _ := isHex_zeros

def sipItem : Object :=
  [(ascii "server", .string (ascii "a.example.com")), (ascii "server_port", .number (ascii "8388")),
    (ascii "method", .string (ascii "aes-256-gcm")), (ascii "password", .string (ascii "secret")),
    (ascii "remarks", .string (ascii "one"))]

/-- The same with the members of another format. -/
def taggedItem : Object :=
  sipItem ++ [(ascii "type", .string (ascii "shadowsocks")), (ascii "tag", .string (ascii "one"))]

def sipMembers (items : List Object) : Object :=
  [(ascii "version", .number (ascii "1")), (ascii "servers", .array (items.map .object))]

def sipText (items : List Object) : Bytes := (Json.Value.object (sipMembers items)).print

theorem isServer_of_members
    (start : ∃ rest, ms = sipItem ++ rest ∧ ∀ m ∈ rest, m.1 ∉ sipItem.map (·.1)) :
    IsServer wholeFloats ms := by
  obtain ⟨rest, rfl, other⟩ := start
  have found : ∀ key ∈ sipItem.map (·.1), value (sipItem ++ rest) key = value sipItem key := by
    intro key inside
    have none : rest.reverse.find? (fun m => m.1 == key) = none := by
      rw [find?_eq_none]
      intro m there same
      exact other m (mem_reverse.mp there) (by rwa [beq_iff_eq.mp same])
    rw [value, value, reverse_append, find?_append, none, none_or]
  constructor
  · rw [found _ (by decide)]
    exact ⟨_, rfl, by decide⟩
  · rw [found _ (by decide)]
    decide +kernel
  · rw [found _ (by decide)]
    exact ⟨_, rfl⟩
  · rw [found _ (by decide)]
    exact ⟨_, rfl⟩
  · rw [found _ (by decide)]
    exact .inr ⟨_, rfl⟩

end Sora.Parser
