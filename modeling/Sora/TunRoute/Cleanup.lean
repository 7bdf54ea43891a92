import Sora.TunRoute.Steps

/-!
# Removing the routes of the tunnel

`unroute` lists the rules, recognises those of this program by their attributes and deletes
them one by one.  The deletion command names selectors, not a rule, so the code predicts which
rule it hits; `unrouteRules_rules` says that the prediction is right for every list of rules and
every choice of commands that fail.
-/

namespace Sora.TunRoute

open Sora.Lib Sora.Lib.Route Sora.Engine List
open Option hiding all_eq_true any_map

/-! ## Listed rules -/

/-- The attributes of a listed rule. -/
inductive Attr where
  | priority
  | src
  | dst
  | table
  | protocol
  | goto
  | oif
  | iif
  | oifDetached
  | iifDetached
  | uidStart
  | uidEnd
  | ipproto
  | dport
  | dportMask
  | suppressPrefixlen
  /-- Any other, by its name. -/
  | other (name : Bytes)
  deriving DecidableEq

/-- A decoded rule: attributes with their JSON text. -/
abbrev Attrs := List (Attr × Bytes)

/-- `strings.Trim` of quotation marks. -/
def trimQuotes (s : Bytes) : Bytes := (s.dropWhile (· == 34)).rdropWhile (· == 34)

def value (rule : Attrs) (key : Attr) : Bytes := trimQuotes ((rule.lookup key).getD [])

def quote (s : Bytes) : Bytes := 34 :: (s ++ [34])

/-- An attribute that may be missing. -/
def optional (key : Attr) (raw : Option Bytes) : Attrs := raw.toList.map fun text => (key, text)

/-- What a listing depends on beside the rule: which interfaces are missing, at which priorities
there is a rule, and whether an unset protocol is shown. -/
structure Listing where
  missing : Bytes → Bool
  target : Nat → Bool
  zero : Bool

def null : Bytes := ascii "null"

/-- A prefix length is listed unless it is that of a single address. -/
def listedLength (p : Prefix) : Option Bytes :=
  if p.bits = p.ip.family.width then none else some (numeral 10 p.bits)

def lookupTable : Action → Option Nat
  | .lookup table => some table
  | _ => none

def gotoTarget : Action → Option Nat
  | .goto target => some target
  | _ => none

/-- What is left to say of an action. -/
def actionAttrs (l : Listing) : Action → Attrs
  | .lookup _ => []
  | .goto target => if l.target target then [] else [(.other (ascii "unresolved"), null)]
  | .refuse kind => [(.other (ascii "action"), quote kind)]

/-- The attributes of a rule, present or not. -/
def entries (l : Listing) (r : Rule) : List (Attr × Option Bytes) :=
  [(.priority, some (numeral 10 r.priority)),
    (.src, some (quote (r.src.elim (ascii "all") fun p => formatIP p.ip))),
    (.other (ascii "srclen"), r.src.bind listedLength),
    (.dst, r.dst.map fun p => quote (formatIP p.ip)),
    (.other (ascii "dstlen"), r.dst.bind listedLength),
    (.iif, r.iif.map quote),
    (.iifDetached, (r.iif.filter l.missing).map fun _ => null),
    (.oif, r.oif.map quote),
    (.oifDetached, (r.oif.filter l.missing).map fun _ => null),
    (.uidStart, r.uids.map fun range => numeral 10 range.1),
    (.uidEnd, r.uids.map fun range => numeral 10 range.2),
    (.ipproto, r.ipproto.map fun n => quote (ascii "ipproto-" ++ numeral 10 n)),
    (.dport, r.dport.map (numeral 10)),
    (.dportMask, r.dportMask.map fun mask => quote (ascii "0x" ++ numeral 16 mask)),
    (.table, (lookupTable r.action).map fun n => quote (numeral 10 n)),
    (.suppressPrefixlen, r.suppress.map (numeral 10)),
    (.goto, (gotoTarget r.action).map (numeral 10)),
    (.protocol,
      if r.protocol = 0 ∧ l.zero = false then none else some (quote (numeral 10 r.protocol)))]

/-- Attributes that no known key names. -/
def further (l : Listing) (r : Rule) : Attrs :=
  actionAttrs l r.action ++ r.other.map fun a => (.other a.1, a.2)

/-- A rule as `ip -d -j -N rule` lists it. -/
def attributes (l : Listing) (r : Rule) : Attrs :=
  (entries l r).flatMap (fun e => optional e.1 e.2) ++ further l r

/-! ## The code -/

def knownKeys : List Attr :=
  [.priority, .src, .dst, .table, .protocol, .goto, .oif, .iif, .oifDetached, .iifDetached,
    .uidStart, .uidEnd, .ipproto, .dport, .dportMask, .suppressPrefixlen]

/-- The selectors that are spelled like their attribute. -/
def selectorPairs : List (Attr × Bytes) :=
  [(.src, ascii "from"), (.dst, ascii "to"), (.oif, ascii "oif"), (.iif, ascii "iif"),
    (.table, ascii "table"), (.goto, ascii "goto"),
    (.suppressPrefixlen, ascii "suppress_prefixlength")]

/-- A further selector, if it has a value. -/
def withSelector (args keyword v : Bytes) : Bytes :=
  if v = [] then args else args ++ ascii " " ++ keyword ++ ascii " " ++ v

/-- `strings.TrimPrefix`. -/
def trimPrefix (s before : Bytes) : Bytes :=
  if before.isPrefixOf s then s.drop before.length else s

/-- `ruleSelectors`. -/
def ruleSelectors (rule : Attrs) : Bytes :=
  if rule.any fun a => !knownKeys.contains a.1 then []
  else
    let proto := if value rule .protocol = [] then ascii "0" else value rule .protocol
    let args := ascii "priority " ++ value rule .priority ++ ascii " protocol " ++ proto
    let args := selectorPairs.foldl (fun args pair => withSelector args pair.2 (value rule pair.1))
      args
    let args := withSelector args (ascii "uidrange")
      (if value rule .uidStart = [] then []
      else value rule .uidStart ++ ascii "-" ++ value rule .uidEnd)
    let args := withSelector args (ascii "ipproto")
      (if value rule .ipproto = [] then []
      else trimPrefix (value rule .ipproto) (ascii "ipproto-"))
    withSelector args (ascii "dport")
      (if value rule .dport = [] then []
      else if value rule .dportMask = [] then value rule .dport
      else value rule .dport ++ ascii "/" ++ value rule .dportMask)

/-- `strconv.Atoi`. -/
def atoi (s : Bytes) : Option Int :=
  let digits (s : Bytes) : Option Nat :=
    if s ≠ [] ∧ s.all (isDigit 10) then some (numValue 10 s) else none
  match s with
  | 45 :: rest => (digits rest).bind fun n => if n ≤ 2 ^ 63 then some (-(n : Int)) else none
  | 43 :: rest => (digits rest).bind fun n => if n < 2 ^ 63 then some (n : Int) else none
  | s => (digits s).bind fun n => if n < 2 ^ 63 then some (n : Int) else none

/-- The attributes of a rule of an earlier version: those it may have beside the common ones,
or nothing if it is none of these rules. -/
def legacyKeys (uid : Nat) (priority : Int) (rule : Attrs) : Option (List Attr) :=
  let value := value rule
  if priority = 5333 ∧ value .table = ascii "254" ∧ value .src = ascii "all" ∧ value .oif ≠ [] then
    some [.oif]
  else if priority = 5334 ∧ value .table = ascii "254" ∧ value .src ≠ ascii "all" ∧
      value .src ≠ [] then some []
  else if priority = 5335 ∧ value .table = table ∧ value .src ≠ ascii "all" ∧ value .src ≠ [] then
    some []
  else if priority = 5336 ∧ value .table = ascii "254" ∧ value .src = ascii "all" ∧
      value .uidStart = numeral 10 uid ∧ value .uidEnd = value .uidStart then
    some [.uidStart, .uidEnd]
  else if priority = 5337 ∧ (value .dportMask = [] ∨ value .dportMask = ascii "0xffff") ∧
      value .table = table ∧ value .src = ascii "all" ∧ value .iif = ascii "lo" ∧
      value .ipproto = ascii "ipproto-17" ∧ value .dport = ascii "53" then
    some [.iif, .ipproto, .dport, .dportMask]
  else if priority = 5338 ∧ value .table = ascii "254" ∧ value .src = ascii "all" ∧
      value .iif = ascii "lo" ∧ value .suppressPrefixlen = ascii "0" then
    some [.iif, .suppressPrefixlen]
  else if priority = 5339 ∧ value .table = table ∧ value .src = ascii "all" ∧
      value .iif = ascii "lo" then some [.iif]
  else none

def engineOwned (priority : Int) (rule : Attrs) : Bool :=
  let value := value rule
  let detached := (rule.lookup .oifDetached).isSome
  decide (0 < priority) && value .oif == tunDevice && value .src == ascii "all" &&
    (value .table == table || value .table == ascii "2022") &&
    (value .protocol == [] || value .protocol == ascii "0" || value .protocol == ascii "2") &&
    (rule.length == 4 || rule.length == 5 && (detached || value .protocol != []) ||
      rule.length == 6 && detached && value .protocol != [])

/-- `ownedRule`, for a service that runs as this user. -/
def ownedRule (uid : Nat) (rule : Attrs) : Bytes :=
  let value := value rule
  match atoi (value .priority) with
  | none => []
  | some priority =>
    let args := ruleSelectors rule
    if args = [] then []
    else if engineOwned priority rule then args
    else if priority < 5333 ∨ 5339 < priority then []
    else if value .protocol = protocol ∧ value .goto = priorityMain ∧ value .table = [] then args
    else if value .protocol = protocol ∧ (value .table = table ∨ value .table = ascii "254") then args
    else if value .protocol ≠ [] ∧ value .protocol ≠ ascii "0" ∧ value .protocol ≠ ascii "2" then []
    else
      match legacyKeys uid priority rule with
      | none => []
      | some keys =>
        let allowed := [.priority, .src, .table, .protocol] ++ keys
        if rule.any fun a => !allowed.contains a.1 then [] else args

def matchKeys : List Attr :=
  [.priority, .table, .protocol, .src, .dst, .oif, .iif, .uidStart, .uidEnd, .ipproto, .dport,
    .dportMask, .suppressPrefixlen]

/-- The attributes for which zero is a value. -/
def zeroKeys : List Attr := [.priority, .uidStart, .uidEnd, .suppressPrefixlen]

/-- A value that excludes no rule. -/
def wildcard (key : Attr) (v : Bytes) : Bool :=
  v == [] || v == ascii "all" || v == ascii "0" && !zeroKeys.contains key

/-- `deleteMatches`. -/
def deleteMatches (want older : Attrs) : Bool :=
  matchKeys.all (fun key => wildcard key (value want key) || value want key == value older key) &&
    ((value want .goto == []) == (value older .goto == []))

/-- The loop of `unroute` over the listed rules of a family: those it keeps, and the kernel.
`fails` says which of the commands do not succeed. -/
def unrouteRules (uid : Nat) (family : Family) (fails : Nat → Bool) :
    Nat → List Attrs → List Attrs → Kernel → Kernel
  | _, [], _, k => k
  | n, rule :: rest, kept, k =>
    let args := ownedRule uid rule
    if args = [] ∨ kept.any (deleteMatches rule) then
      unrouteRules uid family fails (n + 1) rest (kept ++ [rule]) k
    else
      match if fails n then none else k.ip (tagged (flag family ++ ascii " rule del " ++ args)) with
      | some k => unrouteRules uid family fails (n + 1) rest kept k
      | none => unrouteRules uid family fails (n + 1) rest (kept ++ [rule]) k

/-- The rules of a family, as listed and then deleted. -/
def unrouteFamily (uid : Nat) (missing : Bytes → Bool) (zero : Bool) (fails : Nat → Bool)
    (family : Family) (k : Kernel) : Kernel :=
  let l : Listing :=
    { missing := missing, target := fun n => (k.rules family).any (·.priority == n), zero := zero }
  unrouteRules uid family fails 0 ((k.rules family).map (attributes l)) [] k

/-- `unroute` on the rules: it ends at a family whose rules it cannot read. -/
def unroute (uid : Nat) (missing : Bytes → Bool) (zero : Bool) (reads : Family → Bool)
    (fails : Family → Nat → Bool) : List Family → Kernel → Kernel
  | [], k => k
  | family :: rest, k =>
    if reads family then
      unroute uid missing zero reads fails rest
        (unrouteFamily uid missing zero (fails family) family k)
    else k

example : ownedRule 0 (attributes ⟨fun _ => false, fun _ => true, true⟩
    { priority := 5333, oif := some (ascii "uplink"), action := .lookup 254, protocol := 2 }) =
    ascii "priority 5333 protocol 2 from all oif uplink table 254" := by decide

/-! ## Values -/

/-- The name of an interface in a listing, without blanks and quotation marks. -/
structure Plain (w : Bytes) : Prop extends Solid w where
  unquoted : 34 ∉ w

/-- A rule that the kernel can hold: the widths of its fields and the family of its addresses,
with a port where there is a mask and no selector that selects nothing. -/
structure Valid (family : Family) (r : Rule) : Prop where
  priority : r.priority ≤ word32
  protocol : r.protocol ≤ 255
  src : ∀ p, r.src = some p → p.ip.family = family
  dst : ∀ p, r.dst = some p → p.ip.family = family
  iif : ∀ name, r.iif = some name → Plain name
  oif : ∀ name, r.oif = some name → Plain name
  uids : ∀ range, r.uids = some range → range.1 ≤ word32 ∧ range.2 ≤ word32
  ipproto : ∀ n, r.ipproto = some n → 0 < n ∧ n ≤ 255
  dport : ∀ n, r.dport = some n → 0 < n ∧ n ≤ 65535
  dportMask : ∀ n, r.dportMask = some n → n ≤ 65535
  masked : r.dportMask ≠ none → r.dport ≠ none
  table : ∀ n, r.action = .lookup n → 0 < n ∧ n ≤ word32
  target : ∀ n, r.action = .goto n → n ≤ word32
  suppress : ∀ n, r.suppress = some n → n ≤ word32

theorem trimQuotes_of_not_mem {s : Bytes} (unquoted : 34 ∉ s) : trimQuotes s = s := by
  have front : s.dropWhile (· == 34) = s := by
    cases s with
    | nil => rfl
    | cons c s =>
      have other : c ≠ 34 := fun same => unquoted (same ▸ mem_cons_self)
      simp [other]
  rw [trimQuotes, front, rdropWhile_eq_self_iff]
  intro nonempty last
  exact unquoted (beq_iff_eq.mp last ▸ getLast_mem nonempty)

theorem trimQuotes_quote {s : Bytes} (unquoted : 34 ∉ s) : trimQuotes (quote s) = s := by
  cases s with
  | nil => decide
  | cons c s =>
    have other : c ≠ 34 := fun same => unquoted (same ▸ mem_cons_self)
    have front : (quote (c :: s)).dropWhile (· == 34) = c :: s ++ [34] := by
      simp [quote, other]
    have back : (c :: s).rdropWhile (· == 34) = c :: s := by
      have whole := trimQuotes_of_not_mem unquoted
      rwa [trimQuotes, dropWhile_cons_of_neg (by simpa using other)] at whole
    rw [trimQuotes, front, rdropWhile_concat_pos _ _ _ (by decide), back]

variable {key : Attr} {l : Listing} {r : Rule} {α : Type} {family : Family} {s : Selectors}
    {args : Bytes} {n port uid : Nat} {a : Action} {fails : Nat → Bool}

/-- In a list without repetition, the entry of a key is what is listed for it. -/
theorem lookup_entries {es : List (Attr × Option Bytes)} (distinct : (es.map Prod.fst).Nodup)
    {tail : Attrs} (absent : tail.lookup key = none) :
    (es.flatMap (fun e => optional e.1 e.2) ++ tail).lookup key = (es.lookup key).join := by
  induction es with
  | nil => simpa using absent
  | cons e es ih =>
    obtain ⟨first, rest⟩ := nodup_cons.mp distinct
    have ih := ih rest
    obtain ⟨key', raw⟩ := e
    by_cases same : key = key'
    · subst same
      cases raw with
      | some text => simp [optional]
      | none =>
        have unlisted : es.lookup key = none := lookup_eq_none_iff.mpr fun a member => by
          have other : a.1 ≠ key := fun same => first (mem_map.mpr ⟨a, member, same⟩)
          simpa using other.symm
        change (es.flatMap (fun e => optional e.1 e.2) ++ tail).lookup key = _
        rw [ih, unlisted, lookup_cons_self]
        rfl
    · rw [lookup_cons, beq_eq_false_iff_ne.mpr same]
      cases raw with
      | some text =>
        change ((key', text) :: (es.flatMap (fun e => optional e.1 e.2) ++ tail)).lookup key = _
        rw [lookup_cons, beq_eq_false_iff_ne.mpr same]
        exact ih
      | none => exact ih

theorem lookup_further (known : ∀ name, key ≠ .other name) (l : Listing) (r : Rule) :
    (further l r).lookup key = none := by
  refine lookup_eq_none_iff.mpr fun a member => ?_
  rcases mem_append.mp member with action | other
  · cases kind : r.action with
    | lookup t => simp [actionAttrs, kind] at action
    | goto t =>
      rw [kind, actionAttrs] at action
      split at action
      · cases action
      · simpa [mem_singleton.mp action] using known _
    | refuse t =>
      rw [kind] at action
      simpa [mem_singleton.mp action] using known _
  · obtain ⟨b, -, rfl⟩ := mem_map.mp other
    simpa using known _

theorem entries_distinct (l : Listing) (r : Rule) : ((entries l r).map Prod.fst).Nodup := by
  simp only [entries, map_cons]
  decide

theorem value_eq (known : ∀ name, key ≠ .other name) :
    value (attributes l r) key = trimQuotes (((entries l r).lookup key).join.getD []) := by
  rw [value, attributes, lookup_entries (entries_distinct l r) (lookup_further known l r)]

theorem unquoted_word {word : Bytes} {base : Nat} (plain : 34 ∉ word) (n : Nat) (lower : 1 < base)
    (upper : base ≤ 16) : 34 ∉ word ++ numeral base n := fun member =>
  (mem_append.mp member).elim plain (notMem_numeral lower upper rfl)

theorem unquoted_formatIP (ip : IP) : 34 ∉ formatIP ip := by
  intro quote
  have alphabet := addrByte_of_parseAddr (parseAddr_formatIP ip) 34 quote
  cases alphabet

variable {o : Option α}

section Values

theorem trimQuotes_numeral (f : α → Nat) (o : Option α) (base : Nat) (lower : 1 < base)
    (upper : base ≤ 16) : trimQuotes ((o.map fun a => numeral base (f a)).getD []) =
      (o.map fun a => numeral base (f a)).getD [] := by
  cases o with
  | none => rfl
  | some a => exact trimQuotes_of_not_mem (notMem_numeral lower upper rfl)

/-- An attribute with a quoted text. -/
theorem trimQuotes_quoted {f : α → Bytes} (unquoted : ∀ a, o = some a → 34 ∉ f a) :
    trimQuotes ((o.map fun a => quote (f a)).getD []) = (o.map f).getD [] := by
  cases o with
  | none => rfl
  | some a => exact trimQuotes_quote (unquoted a rfl)

theorem value_priority : value (attributes l r) .priority = numeral 10 r.priority := by
  exact trimQuotes_of_not_mem (notMem_numeral (by decide) (by decide) rfl)

theorem value_src : value (attributes l r) .src =
    r.src.elim (ascii "all") fun p => formatIP p.ip := by
  refine trimQuotes_quote ?_
  cases r.src with
  | none => decide
  | some p => exact unquoted_formatIP p.ip

theorem value_dst : value (attributes l r) .dst = (r.dst.map fun p => formatIP p.ip).getD [] := by
  rw [value_eq (by simp)]
  exact trimQuotes_quoted fun p _ => unquoted_formatIP p.ip

theorem value_iif (valid : Valid family r) :
    value (attributes l r) .iif = (r.iif.map id).getD [] := by
  rw [value_eq (by simp)]
  exact trimQuotes_quoted fun name named => (valid.iif name named).unquoted

theorem value_oif (valid : Valid family r) :
    value (attributes l r) .oif = (r.oif.map id).getD [] := by
  rw [value_eq (by simp)]
  exact trimQuotes_quoted fun name named => (valid.oif name named).unquoted

theorem value_uidStart : value (attributes l r) .uidStart =
    (r.uids.map fun range => numeral 10 range.1).getD [] := by
  rw [value_eq (by simp)]
  exact trimQuotes_numeral _ r.uids 10 (by decide) (by decide)

theorem value_uidEnd : value (attributes l r) .uidEnd =
    (r.uids.map fun range => numeral 10 range.2).getD [] := by
  rw [value_eq (by simp)]
  exact trimQuotes_numeral _ r.uids 10 (by decide) (by decide)

theorem value_ipproto : value (attributes l r) .ipproto =
    (r.ipproto.map fun n => ascii "ipproto-" ++ numeral 10 n).getD [] := by
  rw [value_eq (by simp)]
  exact trimQuotes_quoted fun n _ => unquoted_word (by decide) n (by decide) (by decide)

theorem value_dport : value (attributes l r) .dport = (r.dport.map fun n => numeral 10 n).getD [] := by
  rw [value_eq (by simp)]
  exact trimQuotes_numeral _ r.dport 10 (by decide) (by decide)

theorem value_dportMask : value (attributes l r) .dportMask =
    (r.dportMask.map fun n => ascii "0x" ++ numeral 16 n).getD [] := by
  rw [value_eq (by simp)]
  exact trimQuotes_quoted fun n _ => unquoted_word (by decide) n (by decide) (by decide)

theorem value_table : value (attributes l r) .table =
    ((lookupTable r.action).map fun n => numeral 10 n).getD [] := by
  rw [value_eq (by simp)]
  exact trimQuotes_quoted fun n _ => notMem_numeral (by decide) (by decide) rfl

theorem value_goto : value (attributes l r) .goto =
    ((gotoTarget r.action).map fun n => numeral 10 n).getD [] := by
  rw [value_eq (by simp)]
  exact trimQuotes_numeral _ (gotoTarget r.action) 10 (by decide) (by decide)

theorem value_suppress : value (attributes l r) .suppressPrefixlen =
    (r.suppress.map fun n => numeral 10 n).getD [] := by
  rw [value_eq (by simp)]
  exact trimQuotes_numeral _ r.suppress 10 (by decide) (by decide)

theorem value_protocol : value (attributes l r) .protocol =
    if r.protocol = 0 ∧ l.zero = false then [] else numeral 10 r.protocol := by
  rw [value_eq (by simp)]
  change trimQuotes ((if r.protocol = 0 ∧ l.zero = false then none
    else some (quote (numeral 10 r.protocol))).getD []) = _
  split
  · rfl
  · exact trimQuotes_quote (notMem_numeral (by decide) (by decide) rfl)

end Values

/-! ## The deletion command -/

/-- The selectors that `ruleSelectors` writes for a rule. -/
def selectorsOf (r : Rule) : Selectors where
  priority := some r.priority
  src := r.src
  dst := r.dst
  iif := r.iif
  oif := r.oif
  uids := r.uids
  ipproto := r.ipproto
  dport := r.dport.map fun port => (port, r.dportMask)
  table := lookupTable r.action
  goto := gotoTarget r.action
  suppress := r.suppress
  protocol := some r.protocol

/-- `args` is read as these selectors. -/
def Reads (family : Family) (args : Bytes) (s : Selectors) : Prop :=
  readSelectors family {} (fields args) = some s

variable {s' : Selectors}

theorem readSelectors_append {words : List Bytes} (read : readSelectors family s words = some s')
    (rest : List Bytes) :
    readSelectors family s (words ++ rest) = readSelectors family s' rest := by
  fun_induction readSelectors family s words with
  | case1 s =>
    cases read
    rfl
  | case2 s key w words ih =>
    obtain ⟨k, named, others⟩ := bind_eq_some_iff.mp read
    obtain ⟨s₁, first, others⟩ := bind_eq_some_iff.mp others
    rw [cons_append, cons_append, readSelectors_cons named first]
    exact ih s₁ others
  | case3 => cases read

theorem fields_pair {keyword v : Bytes} (solid : Solid keyword) (solid' : Solid v) :
    fields (args ++ ascii " " ++ keyword ++ ascii " " ++ v) = fields args ++ [keyword, v] := by
  have blank : isSpace 32 = true := by decide
  have text : args ++ ascii " " ++ keyword ++ ascii " " ++ v =
      args ++ 32 :: (keyword ++ 32 :: v) := by
    simp only [append_assoc]
    rfl
  rw [text, fields_append _ _ blank, fields_append _ _ blank, fields_solid solid,
    fields_solid solid']
  rfl

/-- One more selector, or none if its value is empty. -/
theorem Reads.withSelector (reads : Reads family args s) (keyword v : Bytes) (s' : Selectors)
    {key : Key} (solid : Solid keyword) (named : readKey keyword = some key)
    (read : v = [] ∧ s' = s ∨ Solid v ∧ readSelector family s key v = some s') :
    Reads family (withSelector args keyword v) s' := by
  unfold TunRoute.withSelector
  rcases read with ⟨rfl, rfl⟩ | ⟨solid', read⟩
  · simpa using reads
  · rw [if_neg solid'.nonempty, Reads, fields_pair solid solid', readSelectors_append reads,
      readSelectors_cons named read]
    rfl

/-- A selector for an attribute that a rule has or has not. -/
theorem Reads.option (o : Option α) (f : α → Bytes) (set : Option α → Selectors)
    (reads : Reads family args (set none)) (keyword : Bytes) {key : Key} (solid : Solid keyword)
    (named : readKey keyword = some key) (each : ∀ a, o = some a → Solid (f a) ∧ readSelector family
    (set none) key (f a) = some (set (some a))) :
    Reads family (TunRoute.withSelector args keyword ((o.map f).getD [])) (set o) := by
  cases o with
  | none => exact reads.withSelector keyword _ _ solid named (.inl ⟨rfl, rfl⟩)
  | some a => exact reads.withSelector keyword _ _ solid named (.inr (each a rfl))

theorem mem_attributes {a : Attr × Bytes} :
    a ∈ attributes l r ↔ (a.1, some a.2) ∈ entries l r ∨ a ∈ further l r := by
  rw [attributes, mem_append]
  refine or_congr_left ⟨fun listed => ?_, fun entry => ?_⟩
  · obtain ⟨⟨key, raw⟩, entry, shown⟩ := mem_flatMap.mp listed
    obtain ⟨text, some, rfl⟩ := mem_map.mp shown
    rw [mem_toList] at some
    exact some ▸ entry
  · exact mem_flatMap.mpr ⟨_, entry, by simp [optional]⟩

/-- What a rule is like all of whose attributes are known. -/
structure Familiar (l : Listing) (r : Rule) : Prop where
  src : ∀ p, r.src = some p → p = host p.ip
  dst : ∀ p, r.dst = some p → p = host p.ip
  action : (∃ t, r.action = .lookup t) ∨ ∃ t, r.action = .goto t ∧ l.target t = true
  other : r.other = []

theorem eq_host_of_listedLength {p : Prefix} (hidden : listedLength p = none) : p = host p.ip := by
  unfold listedLength at hidden
  split at hidden
  · rename_i full
    exact Prefix.ext rfl full
  · cases hidden

theorem familiar_of_known (known : ∀ a ∈ attributes l r, a.1 ∈ knownKeys) : Familiar l r := by
  have hidden : ∀ name raw, (Attr.other name, raw) ∈ entries l r → raw = none := by
    intro name raw entry
    cases raw with
    | none => rfl
    | some text =>
      have listed := known (.other name, text) (mem_attributes.mpr (.inl entry))
      simp [knownKeys] at listed
  have nothing : further l r = [] := by
    refine eq_nil_iff_forall_not_mem.mpr fun a member => ?_
    have listed := known a (mem_attributes.mpr (.inr member))
    have known : ∀ name, a.1 ≠ .other name := by
      intro name same
      rw [same] at listed
      simp [knownKeys] at listed
    have key := lookup_eq_none_iff.mp (lookup_further known l r) a member
    simp at key
  obtain ⟨action, other⟩ := append_eq_nil_iff.mp nothing
  refine ⟨fun p at_p => ?_, fun p at_p => ?_, ?_, map_eq_nil_iff.mp other⟩
  · have length := hidden (ascii "srclen") (r.src.bind listedLength) (by simp [entries])
    rw [at_p] at length
    exact eq_host_of_listedLength length
  · have length := hidden (ascii "dstlen") (r.dst.bind listedLength) (by simp [entries])
    rw [at_p] at length
    exact eq_host_of_listedLength length
  · cases kind : r.action with
    | lookup t => exact .inl ⟨t, rfl⟩
    | goto t =>
      rw [kind, actionAttrs] at action
      split at action
      · rename_i there
        exact .inr ⟨t, rfl, there⟩
      · cases action
    | refuse t =>
      rw [kind] at action
      cases action

theorem numeral_ne {w : Bytes} {c : UInt8} (letter : isDigit 10 c = false) (member : c ∈ w)
    (n : Nat) : numeral 10 n ≠ w := by
  rintro rfl
  exact not_mem_numeral letter n member

theorem readTableName_numeral (fits : n ≤ word32) : readTableName (numeral 10 n) = some n := by
  have digits : numeral 10 n ≠ ascii "main" ∧ numeral 10 n ≠ ascii "local" ∧
      numeral 10 n ≠ ascii "default" :=
    ⟨numeral_ne (c := 109) rfl (by decide) n, numeral_ne (c := 108) rfl (by decide) n,
      numeral_ne (c := 108) rfl (by decide) n⟩
  rw [readTableName, if_neg digits.1, if_neg digits.2.1, if_neg digits.2.2, readNumber_numeral fits]

theorem readTransport_numeral (fits : n ≤ 255) : readTransport (numeral 10 n) = some n := by
  have digits : numeral 10 n ≠ ascii "tcp" ∧ numeral 10 n ≠ ascii "udp" :=
    ⟨numeral_ne (c := 116) rfl (by decide) n, numeral_ne (c := 117) rfl (by decide) n⟩
  rw [readTransport, if_neg digits.1, if_neg digits.2, readNumber_numeral fits]

theorem formatIP_ne_all (ip : IP) : formatIP ip ≠ ascii "all" := by
  intro all
  have reads := parseNetwork_formatIP ip
  rw [all] at reads
  cases reads

theorem readSource_formatIP (ip : IP) : readSource ip.family (formatIP ip) = some (some (host ip)) := by
  rw [readSource, if_neg (formatIP_ne_all ip), parseNetwork_formatIP]
  simp [host]

theorem readPort_numeral (fits : port ≤ 65535) :
    readPort (numeral 10 port) = some (port, none) := by
  rw [readPort, splitOn_eq_singleton (not_mem_numeral rfl port)]
  simp [readNumber_numeral fits]

theorem readPort_masked {mask : Nat} (fits : port ≤ 65535) (fits' : mask ≤ 65535) :
    readPort (numeral 10 port ++ 47 :: (ascii "0x" ++ numeral 16 mask)) =
      some (port, some mask) := by
  have slashless : 47 ∉ ascii "0x" ++ numeral 16 mask := by
    intro member
    rcases mem_append.mp member with word | digits
    · exact absurd word (by decide)
    · exact notMem_numeral (by decide) (by decide) rfl digits
  have reads : readMask (ascii "0x" ++ numeral 16 mask) = some mask := by
    have cut : (ascii "0x" ++ numeral 16 mask).take 2 = ascii "0x" ∧
        (ascii "0x" ++ numeral 16 mask).drop 2 = numeral 16 mask := ⟨rfl, rfl⟩
    rw [readMask, if_pos cut.1, cut.2, hexField_numeral (Nat.lt_succ_of_le fits')]
  rw [readPort, splitOn_append_cons_self_of_not_mem (not_mem_numeral rfl port),
    splitOn_eq_singleton slashless]
  simp [readNumber_numeral fits, reads]

section Texts

theorem protocol_text : (if value (attributes l r) .protocol = [] then ascii "0"
    else value (attributes l r) .protocol) = numeral 10 r.protocol := by
  rw [value_protocol]
  by_cases unset : r.protocol = 0 ∧ l.zero = false
  · simp only [unset]
    rfl
  · simp only [unset, if_false, numeral_ne_nil]

theorem uids_text : (if value (attributes l r) .uidStart = [] then []
    else value (attributes l r) .uidStart ++ ascii "-" ++ value (attributes l r) .uidEnd) =
      (r.uids.map fun range => numeral 10 range.1 ++ 45 :: numeral 10 range.2).getD [] := by
  rw [value_uidStart, value_uidEnd]
  cases r.uids with
  | none => rfl
  | some range =>
    simp only [map_some, getD_some, numeral_ne_nil, append_assoc]
    rfl

theorem trimPrefix_append (before s : Bytes) : trimPrefix (before ++ s) before = s := by
  simp [trimPrefix]

theorem ipproto_text : (if value (attributes l r) .ipproto = [] then []
    else trimPrefix (value (attributes l r) .ipproto) (ascii "ipproto-")) =
      (r.ipproto.map fun n => numeral 10 n).getD [] := by
  rw [value_ipproto]
  cases r.ipproto with
  | none => rfl
  | some n => exact trimPrefix_append (ascii "ipproto-") (numeral 10 n)

def portText (mask : Option Nat) (port : Nat) : Bytes :=
  numeral 10 port ++ mask.elim [] fun m => 47 :: (ascii "0x" ++ numeral 16 m)

theorem dport_text : (if value (attributes l r) .dport = [] then []
    else if value (attributes l r) .dportMask = [] then value (attributes l r) .dport
    else value (attributes l r) .dport ++ ascii "/" ++ value (attributes l r) .dportMask) =
      (r.dport.map (portText r.dportMask)).getD [] := by
  rw [value_dport, value_dportMask]
  cases r.dport with
  | none => rfl
  | some port =>
    simp only [map_some, getD_some, numeral_ne_nil, portText]
    cases r.dportMask with
    | none => simp
    | some mask =>
      simp only [append_assoc]
      rfl

theorem readPort_portText {mask : Option Nat} (fits : port ≤ 65535)
    (fits' : ∀ m, mask = some m → m ≤ 65535) :
    Solid (portText mask port) ∧ readPort (portText mask port) = some (port, mask) := by
  have digits := solid_numeral 10 port (by decide) (by decide)
  cases mask with
  | none =>
    rw [portText, elim_none, append_nil]
    exact ⟨digits, readPort_numeral fits⟩
  | some m =>
    have hex := solid_numeral 16 m (by decide) (by decide)
    have word : Solid (ascii "0" ++ 120 :: numeral 16 m) :=
      Solid.join (.of_all rfl) hex rfl
    exact ⟨digits.join word rfl, readPort_masked fits (fits' m rfl)⟩

theorem lookupTable_eq (looks : lookupTable a = some n) : a = .lookup n := by
  cases a <;> cases looks
  rfl

theorem gotoTarget_eq (jumps : gotoTarget a = some n) : a = .goto n := by
  cases a <;> cases jumps
  rfl

theorem reads_start (valid : Valid family r) :
    Reads family (ascii "priority " ++ numeral 10 r.priority ++ ascii " protocol " ++
      numeral 10 r.protocol) { priority := some r.priority, protocol := some r.protocol } := by
  have digits : ∀ n, Solid (numeral 10 n) := fun n => solid_numeral 10 n (by decide) (by decide)
  have text : ascii "priority " ++ numeral 10 r.priority ++ ascii " protocol " ++
      numeral 10 r.protocol = ascii "priority" ++ 32 :: (numeral 10 r.priority ++ 32 ::
        (ascii "protocol" ++ 32 :: numeral 10 r.protocol)) := by
    simp only [append_assoc]
    rfl
  have blank : isSpace 32 = true := by decide
  rw [Reads, text, fields_append _ _ blank, fields_append _ _ blank, fields_append _ _ blank,
    fields_solid (digits _), fields_solid (digits _)]
  have first : readSelector family {} .priority (numeral 10 r.priority) =
      some { priority := some r.priority } := by
    rw [readSelector, readNumber_numeral valid.priority]
    rfl
  have second : readSelector family { priority := some r.priority } .protocol
      (numeral 10 r.protocol) =
      some { priority := some r.priority, protocol := some r.protocol } := by
    rw [readSelector, readNumber_numeral valid.protocol]
    rfl
  exact (readSelectors_cons rfl first _).trans (readSelectors_cons rfl second _)

theorem reads_src (valid : Valid family r) (single : ∀ p, r.src = some p → p = host p.ip)
    (s : Selectors) :
    Solid (r.src.elim (ascii "all") fun p => formatIP p.ip) ∧
      readSelector family s .src (r.src.elim (ascii "all") fun p => formatIP p.ip) =
        some { s with src := r.src } := by
  cases at_p : r.src with
  | none => exact ⟨.of_all rfl, rfl⟩
  | some p =>
    refine ⟨solid_formatIP p.ip, ?_⟩
    rw [elim_some, readSelector, ← valid.src p at_p, readSource_formatIP, ← single p at_p]
    rfl

/-- The text of the selectors is read back as the rule's own. -/
theorem reads_ruleSelectors (valid : Valid family r) (familiar : Familiar l r)
    (known : (attributes l r).any (fun a => !knownKeys.contains a.1) = false) :
    Reads family (ruleSelectors (attributes l r)) (selectorsOf r) := by
  have digits : ∀ n, Solid (numeral 10 n) := fun n => solid_numeral 10 n (by decide) (by decide)
  let s₀ : Selectors := { priority := some r.priority, protocol := some r.protocol }
  let s₁ : Selectors := { s₀ with src := r.src }
  let s₂ : Selectors := { s₁ with dst := r.dst }
  let s₃ : Selectors := { s₂ with oif := r.oif }
  let s₄ : Selectors := { s₃ with iif := r.iif }
  let s₅ : Selectors := { s₄ with table := lookupTable r.action }
  let s₆ : Selectors := { s₅ with goto := gotoTarget r.action }
  let s₇ : Selectors := { s₆ with suppress := r.suppress }
  let s₈ : Selectors := { s₇ with uids := r.uids }
  let s₉ : Selectors := { s₈ with ipproto := r.ipproto }
  have start : Reads family (ascii "priority " ++ numeral 10 r.priority ++ ascii " protocol " ++
      numeral 10 r.protocol) s₀ := reads_start valid
  have src := start.withSelector (ascii "from") (r.src.elim (ascii "all") fun p => formatIP p.ip) s₁
    (.of_all rfl) rfl (.inr (reads_src valid familiar.src s₀))
  have dst := src.option r.dst (fun p => formatIP p.ip) (fun o => { s₁ with dst := o })
    (ascii "to") (.of_all rfl) rfl fun p at_p => ⟨solid_formatIP p.ip, by
      rw [readSelector, ← valid.dst p at_p, readSource_formatIP, ← familiar.dst p at_p]
      rfl⟩
  have oif := dst.option r.oif id (fun o => { s₂ with oif := o }) (ascii "oif")
    (.of_all rfl) rfl fun name at_name => ⟨(valid.oif name at_name).toSolid, rfl⟩
  have iif := oif.option r.iif id (fun o => { s₃ with iif := o }) (ascii "iif")
    (.of_all rfl) rfl fun name at_name => ⟨(valid.iif name at_name).toSolid, rfl⟩
  have table := iif.option (lookupTable r.action) (fun n => numeral 10 n)
    (fun o => { s₄ with table := o }) (ascii "table") (.of_all rfl) rfl
    fun n at_n => ⟨digits n, by
      rw [readSelector, readTableName_numeral (valid.table n (lookupTable_eq at_n)).2]
      rfl⟩
  have goto := table.option (gotoTarget r.action) (fun n => numeral 10 n)
    (fun o => { s₅ with goto := o }) (ascii "goto") (.of_all rfl) rfl
    fun n at_n => ⟨digits n, by
      rw [readSelector, readNumber_numeral (valid.target n (gotoTarget_eq at_n))]
      rfl⟩
  have suppress := goto.option r.suppress (fun n => numeral 10 n)
    (fun o => { s₆ with suppress := o }) (ascii "suppress_prefixlength") (.of_all rfl) rfl
    fun n at_n => ⟨digits n, by
      rw [readSelector, readNumber_numeral (valid.suppress n at_n)]
      rfl⟩
  have uids := suppress.option r.uids
    (fun range => numeral 10 range.1 ++ 45 :: numeral 10 range.2) (fun o => { s₇ with uids := o })
    (ascii "uidrange") (.of_all rfl) rfl
    fun range at_range => ⟨(digits _).join (digits _) rfl, by
      obtain ⟨low, high⟩ := valid.uids range at_range
      rw [readSelector, readRange_numeral low high]
      rfl⟩
  have ipproto := uids.option r.ipproto (fun n => numeral 10 n) (fun o => { s₈ with ipproto := o })
    (ascii "ipproto") (.of_all rfl) rfl fun n at_n => ⟨digits n, by
      rw [readSelector, readTransport_numeral (valid.ipproto n at_n).2]
      rfl⟩
  have dport := ipproto.option r.dport (portText r.dportMask)
    (fun o => { s₉ with dport := o.map fun port => (port, r.dportMask) }) (ascii "dport")
    (.of_all rfl) rfl fun port at_port => by
      obtain ⟨solid, read⟩ := readPort_portText (valid.dport port at_port).2 valid.dportMask
      refine ⟨solid, ?_⟩
      rw [readSelector, read]
      rfl
  rw [ruleSelectors, known, protocol_text, uids_text, ipproto_text, dport_text]
  simp only [selectorPairs, foldl_cons, value_priority, value_src, value_dst,
    value_iif valid, value_oif valid, value_table, value_goto, value_suppress]
  exact dport

end Texts

/-- Keywords and values never spell the words that mark an added rule. -/
theorem chain_of_reads {words : List Bytes} (read : readSelectors family s words = some s')
    (before : Bytes) : (before :: words).IsChain fun a b => a = ascii "rule" → b ≠ ascii "add" := by
  fun_induction readSelectors family s words generalizing before with
  | case1 s => exact .singleton before
  | case2 s key w words ih =>
    obtain ⟨k, named, others⟩ := bind_eq_some_iff.mp read
    obtain ⟨s₁, first, others⟩ := bind_eq_some_iff.mp others
    have notAdd : key ≠ ascii "add" := by
      rintro rfl
      cases named
    have notRule : key ≠ ascii "rule" := by
      rintro rfl
      cases named
    exact isChain_cons_cons.mpr ⟨fun _ => notAdd,
      isChain_cons_cons.mpr ⟨fun same => absurd same notRule, ih s₁ others w⟩⟩
  | case3 => cases read

theorem ip_del (reads : Reads family args s) (k : Kernel) :
    k.ip (tagged (flag family ++ ascii " rule del " ++ args)) = k.execute (.ruleDel family s) := by
  have split : fields (flag family ++ ascii " rule del " ++ args) =
      flag family :: ascii "rule" :: ascii "del" :: fields args := by
    have text : flag family ++ ascii " rule del " ++ args =
        flag family ++ 32 :: (ascii "rule del" ++ 32 :: args) := by
      simp only [append_assoc]
      rfl
    have blank : isSpace 32 = true := by decide
    rw [text, fields_append _ _ blank, fields_solid (solid_flag family)]
    rfl
  have apart : flag family ≠ ascii "rule" := by cases family <;> decide
  have plain : ¬ [ascii "rule", ascii "add"] <:+: fields (flag family ++ ascii " rule del " ++ args) := by
    rw [split]
    refine not_infix_of_chain (isChain_cons_cons.mpr ⟨fun same => absurd same apart,
      isChain_cons_cons.mpr ⟨fun _ => by decide, chain_of_reads reads _⟩⟩)
  have command : readCommand (fields (flag family ++ ascii " rule del " ++ args)) =
      some (.ruleDel family s) := by
    rw [split, readCommand, readFamily_flag, bind_some, reads]
    rfl
  rw [tagged_of_fields plain, Kernel.ip, command, bind_some]

/-! ## Which rule it hits -/

theorem selectorsOf_agrees (r : Rule) : (selectorsOf r).agrees r = true := by
  refine Selectors.agrees_iff.mpr ⟨fun n at_n => Option.some.inj at_n,
    fun n at_n => .inr (Option.some.inj at_n), fun _ => id, fun _ => id, fun _ => id, fun _ => id,
    fun _ => id, fun _ => .inr, fun d at_d => ?_, fun n at_n => .inr (lookupTable_eq at_n),
    fun n at_n => ⟨n, gotoTarget_eq at_n⟩, fun _ => id⟩
  obtain ⟨port, at_port, rfl⟩ := map_eq_some_iff.mp at_d
  exact ⟨at_port, fun _ => id⟩

section Matching

variable {older want : Rule}

/-- An attribute that the wanted rule lacks, or that both have. -/
theorem matches_option {o' : Option α} (key : Attr) (f : α → Bytes)
    (same : ∀ a, o = some a → o' = some a) :
    (wildcard key ((o.map f).getD []) || (o.map f).getD [] == (o'.map f).getD []) = true := by
  cases o with
  | none => rfl
  | some a => simp [same a rfl]

/-- A rule that the command could hit is one for which `deleteMatches` holds. -/
theorem deleteMatches_of_agrees (valid : Valid family want) (valid' : Valid family older)
    (familiar : Familiar l want) (agrees : (selectorsOf want).agrees older = true) :
    deleteMatches (attributes l want) (attributes l older) = true := by
  have agreement := Selectors.agrees_iff.mp agrees
  have priority : older.priority = want.priority := agreement.priority _ rfl
  have table : ∀ n, lookupTable want.action = some n → lookupTable older.action = some n := by
    intro n at_n
    have positive := (valid.table n (lookupTable_eq at_n)).1
    rcases agreement.table n at_n with zero | same
    · omega
    · rw [same]
      rfl
  have goto : ∀ n, gotoTarget want.action = some n → ∃ m, gotoTarget older.action = some m := by
    intro n at_n
    obtain ⟨m, jumps⟩ := agreement.goto n at_n
    exact ⟨m, by rw [jumps]; rfl⟩
  have ipproto : ∀ n, want.ipproto = some n → older.ipproto = some n := by
    intro n at_n
    have positive := (valid.ipproto n at_n).1
    exact (agreement.ipproto n at_n).resolve_left (by omega)
  have dport : ∀ n, want.dport = some n → older.dport = some n := by
    intro n at_n
    exact (agreement.dport (n, want.dportMask) (by rw [selectorsOf, at_n]; rfl)).1
  have dportMask : ∀ n, want.dportMask = some n → older.dportMask = some n := by
    intro n at_n
    obtain ⟨port, at_port⟩ := ne_none_iff_exists'.mp
      (valid.masked (by rw [at_n]; exact some_ne_none n))
    exact (agreement.dport (port, want.dportMask) (by rw [selectorsOf, at_port]; rfl)).2 n at_n
  rw [deleteMatches, Bool.and_eq_true]
  constructor
  · simp only [matchKeys, all_cons, all_nil, Bool.and_true, Bool.and_eq_true]
    refine ⟨?_, ?_, ?_, ?_, ?_, ?_, ?_, ?_, ?_, ?_, ?_, ?_, ?_⟩
    · simp [value_priority, priority]
    · rw [value_table, value_table]
      exact matches_option .table _ table
    · by_cases unset : want.protocol = 0
      · rw [value_protocol, unset]
        cases l.zero <;> rfl
      · have same : older.protocol = want.protocol :=
          (agreement.protocol _ rfl).resolve_left unset
        simp [value_protocol, same]
    · rw [value_src, value_src]
      cases at_p : want.src with
      | none => rfl
      | some p => simp [agreement.src p at_p]
    · rw [value_dst, value_dst]
      exact matches_option .dst _ agreement.dst
    · rw [value_oif valid, value_oif valid']
      exact matches_option .oif _ agreement.oif
    · rw [value_iif valid, value_iif valid']
      exact matches_option .iif _ agreement.iif
    · rw [value_uidStart, value_uidStart]
      exact matches_option .uidStart _ agreement.uids
    · rw [value_uidEnd, value_uidEnd]
      exact matches_option .uidEnd _ agreement.uids
    · rw [value_ipproto, value_ipproto]
      exact matches_option .ipproto _ ipproto
    · rw [value_dport, value_dport]
      exact matches_option .dport _ dport
    · rw [value_dportMask, value_dportMask]
      exact matches_option .dportMask _ dportMask
    · rw [value_suppress, value_suppress]
      exact matches_option .suppressPrefixlen _ agreement.suppress
  · rw [value_goto, value_goto]
    rcases familiar.action with ⟨t, looks⟩ | ⟨t, jumps, -⟩
    · have same : older.action = .lookup t := lookupTable_eq (table t (by rw [looks]; rfl))
      rw [looks, same]
      rfl
    · obtain ⟨m, target⟩ := goto t (by rw [jumps]; rfl)
      rw [jumps, target]
      have digits : ∀ n, (numeral 10 n == []) = false := fun n =>
        beq_eq_false_iff_ne.mpr numeral_ne_nil
      simp [gotoTarget, digits]

end Matching

/-! ## The loop -/

/-- The text is empty for a rule that is left alone. -/
def Recognised (uid : Nat) (l : Listing) (r : Rule) : Prop := ownedRule uid (attributes l r) ≠ []

instance (uid : Nat) (l : Listing) (r : Rule) : Decidable (Recognised uid l r) := by
  unfold Recognised; infer_instance

/-- `older` shields `r`. -/
def shields (l : Listing) (r older : Rule) : Bool :=
  deleteMatches (attributes l r) (attributes l older)

/-- What is left of the rules after those kept so far. -/
def remaining (uid : Nat) (l : Listing) (fails : Nat → Bool) :
    Nat → List Rule → List Rule → List Rule
  | _, kept, [] => kept
  | n, kept, r :: rest =>
    if Recognised uid l r ∧ kept.any (shields l r) = false ∧ fails n = false then
      remaining uid l fails (n + 1) kept rest
    else remaining uid l fails (n + 1) (kept ++ [r]) rest

theorem ownedRule_cases (uid : Nat) (rule : Attrs) :
    ownedRule uid rule = [] ∨ ownedRule uid rule = ruleSelectors rule := by
  simp only [ownedRule]
  repeat' split
  all_goals first | exact .inl rfl | exact .inr rfl

/-- A recognised rule has known attributes, and its text is that of its selectors. -/
theorem Recognised.selectors (owned : Recognised uid l r) :
    ownedRule uid (attributes l r) = ruleSelectors (attributes l r) ∧
      (attributes l r).any (fun a => !knownKeys.contains a.1) = false := by
  have text := (ownedRule_cases uid (attributes l r)).resolve_left owned
  refine ⟨text, ?_⟩
  by_contra unknown
  have empty : ruleSelectors (attributes l r) = [] := if_pos (by simpa using unknown)
  exact owned (text.trans empty)

theorem Recognised.familiar (owned : Recognised uid l r) : Familiar l r := by
  refine familiar_of_known fun a member => ?_
  have known := any_eq_false.mp owned.selectors.2 a member
  simpa using known

/-- The command for a rule that nothing shields hits the rule. -/
theorem ip_del_rule {kept rest : List Rule} {k : Kernel} (owned : Recognised uid l r)
    (unshielded : kept.any (shields l r) = false) (valid : ∀ x ∈ kept ++ r :: rest, Valid family x)
    (listed : k.rules family = kept ++ r :: rest) :
    k.ip (tagged (flag family ++ ascii " rule del " ++ ownedRule uid (attributes l r))) =
      some { k with rules := Function.update k.rules family (kept ++ rest) } := by
  have valid_r : Valid family r := valid r (by simp)
  obtain ⟨text, known⟩ := owned.selectors
  rw [text, ip_del (reads_ruleSelectors valid_r owned.familiar known), Kernel.execute, listed]
  have spares : ∀ x ∈ kept, (selectorsOf r).agrees x = false := by
    intro x member
    by_contra hit
    have shield := deleteMatches_of_agrees valid_r (valid x (by simp [member]))
      owned.familiar (by simpa using hit)
    have clear := any_eq_false.mp unshielded x member
    exact clear shield
  have hits : (kept ++ r :: rest).any (selectorsOf r).agrees = true := by
    simp [selectorsOf_agrees]
  rw [if_pos hits, eraseP_append_right _ (fun x member => by simp [spares x member]),
    eraseP_cons_of_pos (selectorsOf_agrees r)]

/-- The loop deletes exactly the rules it means to. -/
theorem unrouteRules_rules (rest : List Rule) : ∀ (n : Nat) (kept : List Rule) (k : Kernel),
    (∀ x ∈ kept ++ rest, Valid family x) → k.rules family = kept ++ rest →
    (unrouteRules uid family fails n (rest.map (attributes l)) (kept.map (attributes l)) k).rules =
      Function.update k.rules family (remaining uid l fails n kept rest) := by
  induction rest with
  | nil =>
    intro n kept k valid listed
    rw [append_nil] at listed
    simp [unrouteRules, remaining, ← listed]
  | cons r rest ih =>
    intro n kept k valid listed
    have shield : (kept.map (attributes l)).any (deleteMatches (attributes l r)) =
        kept.any (shields l r) := by
      rw [any_map]
      rfl
    have keep := ih (n + 1) (kept ++ [r]) k (by simpa using valid) (by simpa using listed)
    rw [map_append] at keep
    rw [map_cons, unrouteRules, remaining, shield]
    by_cases owned : Recognised uid l r
    swap
    · rw [if_pos (.inl (not_not.mp owned)), if_neg fun both => owned both.1]
      exact keep
    by_cases shielded : kept.any (shields l r) = true
    · rw [if_pos (.inr shielded), if_neg fun both => by simp [shielded] at both]
      exact keep
    rw [if_neg (not_or.mpr ⟨owned, shielded⟩)]
    cases failed : fails n with
    | true =>
      rw [if_pos rfl, if_neg fun both => Bool.noConfusion both.2.2]
      exact keep
    | false =>
      have unshielded : kept.any (shields l r) = false := by simpa using shielded
      rw [if_neg Bool.false_ne_true, if_pos ⟨owned, unshielded, rfl⟩,
        ip_del_rule owned unshielded valid listed]
      have next := ih (n + 1) kept { k with rules := Function.update k.rules family (kept ++ rest) }
        (fun x member => valid x (by
          rcases mem_append.mp member with old | later <;> simp [*])) (by simp)
      rw [next]
      simp

/-- Recognised rules may go, all others stay in their order. -/
theorem remaining_spec (rest : List Rule) :
    ∀ (n : Nat) (kept : List Rule), (remaining uid l fails n kept rest).Sublist (kept ++ rest) ∧
      (remaining uid l fails n kept rest).filter (fun r => ¬ Recognised uid l r) =
        (kept ++ rest).filter (fun r => ¬ Recognised uid l r) := by
  induction rest with
  | nil => exact fun n kept => by simp [remaining]
  | cons r rest ih =>
    intro n kept
    rw [remaining]
    split
    · rename_i gone
      obtain ⟨sub, same⟩ := ih (n + 1) kept
      refine ⟨sub.trans (.append_left (sublist_cons_self r rest) kept), same.trans ?_⟩
      simp [gone.1]
    · simpa using ih (n + 1) (kept ++ [r])

/-- Shielding goes on: who shields a shield shields the rule too. -/
theorem shields_trans {a b c : Rule} (first : shields l a b = true)
    (second : shields l b c = true) :
    shields l a c = true := by
  simp only [shields, deleteMatches, Bool.and_eq_true, all_eq_true, Bool.or_eq_true,
    beq_iff_eq] at first second ⊢
  refine ⟨fun key member => ?_, first.2.trans second.2⟩
  rcases first.1 key member with wild | same
  · exact .inl wild
  · rcases second.1 key member with wild | same'
    · exact .inl (same ▸ wild)
    · exact .inr (same.trans same')

/-- Every recognised rule of the list has a shield before it that is not recognised. -/
def Shielded (uid : Nat) (l : Listing) (rules : List Rule) : Prop :=
  ∀ before r after, rules = before ++ r :: after → Recognised uid l r →
    ∃ x ∈ before, ¬ Recognised uid l x ∧ shields l r x = true

/-- When no command fails, only shielded rules are left. -/
theorem remaining_shielded (rest : List Rule) :
    ∀ (n : Nat) (kept : List Rule), Shielded uid l kept →
      Shielded uid l (remaining uid l (fun _ => false) n kept rest) := by
  induction rest with
  | nil => exact fun n kept shielded => shielded
  | cons r rest ih =>
    intro n kept shielded
    rw [remaining]
    split
    · exact ih (n + 1) kept shielded
    · rename_i stays
      refine ih (n + 1) (kept ++ [r]) fun before x after split owned => ?_
      rcases eq_nil_or_concat after with rfl | ⟨after', last, rfl⟩
      · obtain ⟨rfl, same⟩ := append_inj' split rfl
        obtain rfl : r = x := (cons.inj same).1
        have shield : kept.any (shields l r) = true := by
          by_contra none
          exact stays ⟨owned, by simpa using none, rfl⟩
        obtain ⟨y, member, matches_y⟩ := any_eq_true.mp shield
        by_cases mine : Recognised uid l y
        · obtain ⟨front, back, rfl⟩ := append_of_mem member
          obtain ⟨z, first, foreign, matches_z⟩ := shielded front y back rfl mine
          exact ⟨z, mem_append_left _ first, foreign, shields_trans matches_y matches_z⟩
        · exact ⟨y, member, mine, matches_y⟩
      · rw [concat_eq_append, ← cons_append, ← append_assoc] at split
        obtain ⟨rfl, -⟩ := append_inj' split rfl
        exact shielded before x after' rfl owned

end Sora.TunRoute
