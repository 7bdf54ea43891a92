import Sora.Contract.Plan
import Sora.Lib.Lists

/-!
# Rules of mihomo

How a plan's rules become lines of a mihomo configuration: `sanitizeName` and `uniqueName` give
every outbound a name, `buildRules` joins type, value and target with commas.  A name has no
comma; a value that has one is split into fields of its own.
-/

namespace Sora.Contract.Mihomo

open Sora.Lib List Option

/-! ## Names -/

/-- The bytes that a rune of a display name contributes; `wide` tells letters and digits beyond
ASCII. -/
def sanitizeRune (wide : Bytes → Bool) : Json.Chunk → Bytes
  | .ascii c =>
    if Url.isAlpha c || isDigit 10 c || c == 45 || c == 95 || c == 46 then [c]
    else if c = 32 then [95]
    else []
  | .char bytes => if wide bytes then bytes else []
  | .stray _ => []

/-- The loop of `sanitizeName`, which ends when more than 96 bytes are written. -/
def sanitizeRunes (wide : Bytes → Bool) : List Json.Chunk → Bytes → Bytes
  | [], written => written
  | c :: rest, written =>
    let written := written ++ sanitizeRune wide c
    if 96 < written.length then written else sanitizeRunes wide rest written

/-- `strings.Trim` of the marks. -/
def trimMarks (s : Bytes) : Bytes :=
  let mark (c : UInt8) : Bool := c == 45 || c == 95 || c == 46
  (s.dropWhile mark).rdropWhile mark

/-- `sanitizeName`. -/
def sanitizeName (wide : Bytes → Bool) (name fallback : Bytes) : Bytes :=
  let source := if name = [] then fallback else name
  let out := trimMarks (sanitizeRunes wide (Json.chunks source) [])
  if out = [] then ascii "server" else out

/-- The candidates of `uniqueName`. -/
def candidate (name : Bytes) (i : Nat) : Bytes :=
  if i = 0 then name else name ++ 45 :: numeral 10 (i + 1)

/-- `uniqueName`: the first candidate that is free.  One of as many as there are names and one
more is. -/
def uniqueName (name : Bytes) (used : List Bytes) : Bytes :=
  candidate name (((List.range (used.length + 1)).find? fun i =>
    !decide (candidate name i ∈ used)).getD 0)

/-- The names of `buildProxies`, in the order of the outbounds. -/
def outboundNames (wide : Bytes → Bool) : List Outbound → List Bytes → List (Bytes × Bytes)
  | [], _ => []
  | o :: rest, used =>
    let name := uniqueName (sanitizeName wide o.name o.id) used
    (o.id, name) :: outboundNames wide rest (name :: used)

/-- The name of an outbound or a group; a group of the name replaces an outbound. -/
def byID (wide : Bytes → Bool) (p : Plan) (target : Bytes) : Option Bytes :=
  let names := outboundNames wide p.outbounds [] ++
    p.groups.map fun g => (g.name, sanitizeName wide g.name [])
  (names.reverse.find? fun n => n.1 == target).map (·.2)

/-! ## Lines -/

/-- `ruleTypes`. -/
def ruleTypes : RuleType → Option Bytes
  | .domain => some (ascii "DOMAIN")
  | .domainSuffix => some (ascii "DOMAIN-SUFFIX")
  | .domainKeyword => some (ascii "DOMAIN-KEYWORD")
  | .ipCIDR => some (ascii "IP-CIDR")
  | .ipSuffix => some (ascii "IP-SUFFIX")
  | .geoIP => some (ascii "GEOIP")
  | .geoSite => some (ascii "GEOSITE")
  | .ruleSet => some (ascii "RULE-SET")
  | .port => some (ascii "DST-PORT")
  | .srcPort => some (ascii "SRC-PORT")
  | .process => some (ascii "PROCESS-NAME")
  | .protocol => some (ascii "NETWORK")
  | .matchAll => none
  | .other _ => none

/-- `ruleTarget`. -/
def ruleTarget (names : Bytes → Option Bytes) (target : Bytes) : Option Bytes :=
  if target = ascii "direct" then some (ascii "DIRECT")
  else if target = ascii "reject" then some (ascii "REJECT")
  else if target = ascii "pass" then some (ascii "ACCEPT")
  else if target = ascii "dns" then some (ascii "NO-ADAPT")
  else names target

/-- The word for a rule's type in a line. -/
def kindOf (r : Rule) (word : Bytes) : Bytes :=
  if r.type = .ipCIDR ∧ 58 ∈ r.value then ascii "IP-CIDR6" else word

/-- Whether a line of the rule may end with `no-resolve`. -/
def takesNoResolve (r : Rule) : Bool :=
  r.noResolve && (r.type == .ipCIDR || r.type == .ipSuffix || r.type == .geoIP)

def ruleLine (names : Bytes → Option Bytes) (r : Rule) : Option Bytes :=
  if r.type = .matchAll then (ruleTarget names r.target).map (ascii "MATCH," ++ ·)
  else do
    let word ← ruleTypes r.type
    let target ← ruleTarget names r.target
    let line := kindOf r word ++ ascii "," ++ r.value ++ ascii "," ++ target
    some (if takesNoResolve r then line ++ ascii ",no-resolve" else line)

/-- `buildRules`. -/
def buildRules (names : Bytes → Option Bytes) (rules : List Rule) : Option (List Bytes) :=
  (rules.mapM (ruleLine names)).map fun out =>
    if out.getLast?.any fun line => (ascii "MATCH,").isPrefixOf line then out
    else out ++ [ascii "MATCH,DIRECT"]

/-! ## Names without commas -/

def comma : UInt8 := 44

theorem comma_notMem_sanitizeRune (wide : Bytes → Bool) {c : Json.Chunk} (good : c.Good) :
    comma ∉ sanitizeRune wide c := by
  cases c with
  | ascii b =>
    rw [sanitizeRune]
    split
    · rename_i kept
      rw [mem_singleton]
      rintro rfl
      exact absurd kept (by decide)
    · split <;> decide
  | char bytes =>
    rw [sanitizeRune]
    split
    · intro inside
      exact absurd (good.high comma inside) (by decide)
    · exact not_mem_nil
  | stray b => exact not_mem_nil

theorem comma_notMem_sanitizeRunes (wide : Bytes → Bool) (runes : List Json.Chunk) :
    ∀ written, comma ∉ written → (∀ c ∈ runes, c.Good) →
      comma ∉ sanitizeRunes wide runes written := by
  induction runes with
  | nil => exact fun _ free _ => free
  | cons c runes ih =>
    intro written free good
    have next : comma ∉ written ++ sanitizeRune wide c := by
      rw [mem_append, not_or]
      exact ⟨free, comma_notMem_sanitizeRune wide (good c mem_cons_self)⟩
    rw [sanitizeRunes]
    split
    · exact next
    · exact ih _ next fun c inside => good c (mem_cons_of_mem _ inside)

variable {name s : Bytes} {r : Rule} {names : Bytes → Option Bytes} {p : Plan}

theorem mem_of_mem_trimMarks {c : UInt8} (member : c ∈ trimMarks s) : c ∈ s :=
  (dropWhile_sublist _).subset (( rdropWhile_prefix _ _).subset member)

theorem comma_notMem_sanitizeName (wide : Bytes → Bool) (name fallback : Bytes) :
    comma ∉ sanitizeName wide name fallback := by
  rw [sanitizeName]
  generalize (if name = [] then fallback else name) = source
  split
  · decide
  · intro member
    refine comma_notMem_sanitizeRunes wide _ [] not_mem_nil ?_ (mem_of_mem_trimMarks member)
    exact Json.good_chunksFrom _ _

theorem comma_notMem_numeral (n : Nat) : comma ∉ numeral 10 n :=
  notMem_numeral (by decide) (by decide) rfl

theorem comma_notMem_uniqueName (free : comma ∉ name) (used : List Bytes) :
    comma ∉ uniqueName name used := by
  rw [uniqueName, candidate]
  split
  · exact free
  · rw [mem_append, mem_cons]
    rintro (inside | mark | inside)
    · exact free inside
    · exact absurd mark (by decide)
    · exact comma_notMem_numeral _ inside

theorem comma_notMem_outboundNames (wide : Bytes → Bool) (outbounds : List Outbound) :
    ∀ used, ∀ n ∈ outboundNames wide outbounds used, comma ∉ n.2 := by
  induction outbounds with
  | nil => intro used n inside; cases inside
  | cons o outbounds ih =>
    intro used n inside
    rcases mem_cons.mp inside with rfl | later
    · exact comma_notMem_uniqueName (comma_notMem_sanitizeName wide _ _) used
    · exact ih _ n later

theorem comma_notMem_ruleTarget (wide : Bytes → Bool) (p : Plan) {target : Bytes}
    (found : ruleTarget (byID wide p) target = some name) : comma ∉ name := by
  unfold ruleTarget at found
  repeat' split at found
  case isFalse.isFalse.isFalse.isFalse =>
    rw [byID, map_eq_some_iff] at found
    obtain ⟨n, there, rfl⟩ := found
    have inside := mem_of_find?_eq_some there
    rw [mem_reverse, mem_append] at inside
    rcases inside with outbound | group
    · exact comma_notMem_outboundNames wide _ _ n outbound
    · obtain ⟨g, -, rfl⟩ := mem_map.mp group
      exact comma_notMem_sanitizeName wide _ _
  all_goals
    cases found
    decide

/-! ## Values without commas -/

theorem comma_notMem_digits (digits : Json.isDigits s = true) : comma ∉ s := by
  intro member
  rw [Json.isDigits, Bool.and_eq_true] at digits
  exact absurd (all_eq_true.mp digits.2 comma member) (by decide)

theorem comma_notMem_of_isCIDR (cidr : isCIDR s = true) : comma ∉ s :=
  fun member => absurd (netByte_of_isCIDR cidr comma member) (by decide)

theorem comma_notMem_of_isInteger (integer : isInteger s = true) : comma ∉ s := by
  simp only [isInteger, Bool.and_eq_true] at integer
  obtain ⟨digits, -⟩ := integer
  split at digits
  · rename_i signed
    cases s with
    | nil => exact not_mem_nil
    | cons c rest =>
      rintro (_ | ⟨_, inside⟩)
      · exact absurd signed (by simp [comma])
      · exact comma_notMem_digits digits inside
  · exact comma_notMem_digits digits

/-! ## The split lines -/

/-- The fields that a rule's line is to have. -/
def ruleParts (r : Rule) (target : Bytes) : List Bytes :=
  match ruleTypes r.type with
  | none => [ascii "MATCH", target]
  | some word =>
    [kindOf r word, r.value, target] ++ if takesNoResolve r then [ascii "no-resolve"] else []

/-- A rule whose value is any text: one for which `Rule.validate` reads no number or network. -/
def takesText (r : Rule) : Bool :=
  match r.type with
  | .matchAll | .ipCIDR | .port | .srcPort => false
  | _ => true

theorem comma_notMem_kindOf {word : Bytes} (known : ruleTypes r.type = some word) :
    comma ∉ kindOf r word := by
  rw [kindOf]
  split
  · decide
  · cases type : r.type <;> rw [type] at known <;> cases known <;> decide

theorem ruleLine_eq {line : Bytes} (made : ruleLine names r = some line) :
    ∃ target, ruleTarget names r.target = some target ∧
      line = [comma].intercalate (ruleParts r target) := by
  unfold ruleLine at made
  split at made
  · rename_i all
    obtain ⟨target, found, rfl⟩ := map_eq_some_iff.mp made
    refine ⟨target, found, ?_⟩
    simp [ruleParts, all, ruleTypes, show ascii "MATCH," = ascii "MATCH" ++ [comma] from rfl]
  · simp only [bind_eq_bind, bind_eq_some_iff, Option.some.injEq] at made
    obtain ⟨word, known, target, found, rfl⟩ := made
    refine ⟨target, found, ?_⟩
    rw [ruleParts]
    split <;> simp [*, show ascii "," = [comma] from rfl,
      show ascii ",no-resolve" = comma :: ascii "no-resolve" from rfl]

/-- The lines of `buildRules`: one for each rule, and at most a last one for what is left. -/
theorem buildRules_eq {rules : List Rule} {lines : List Bytes}
    (made : buildRules names rules = some lines) : ∃ out,
      List.Forall₂ (fun r line => ruleLine names r = some line) rules out ∧
        (lines = out ∨ lines = out ++ [ascii "MATCH,DIRECT"]) := by
  obtain ⟨out, each, rfl⟩ := map_eq_some_iff.mp made
  refine ⟨out, mapM_eq_some_iff.mp each, ?_⟩
  split
  · exact .inl rfl
  · exact .inr rfl

theorem splitOn_ruleLine {wide : Bytes → Bool} {line target : Bytes}
    (made : ruleLine (byID wide p) r = some line)
    (found : ruleTarget (byID wide p) r.target = some target) :
    line.splitOn comma = ruleParts r target ↔ ((ruleTypes r.type).isSome = true → comma ∉ r.value) := by
  obtain ⟨target', found', rfl⟩ := ruleLine_eq made
  obtain rfl := Option.some.inj (found'.symm.trans found)
  have named := comma_notMem_ruleTarget wide p found
  constructor
  · intro same known
    obtain ⟨word, known⟩ := isSome_iff_exists.mp known
    refine notMem_of_mem_splitOn comma ([comma].intercalate (ruleParts r target')) r.value ?_
    rw [same, ruleParts, known]
    simp
  · intro free
    refine splitOn_intercalate comma (fun part inside => ?_) ?_
    · rw [ruleParts] at inside
      split at inside
      · rcases mem_cons.mp inside with rfl | inside
        · decide
        · rw [mem_singleton.mp inside]
          exact named
      · rename_i word known
        have value := free (known ▸ rfl)
        have kind := comma_notMem_kindOf known
        rw [mem_append] at inside
        rcases inside with three | flag
        · simp only [mem_cons, not_mem_nil, or_false] at three
          rcases three with rfl | rfl | rfl
          · exact kind
          · exact value
          · exact named
        · split at flag
          · rw [mem_singleton.mp flag]
            decide
          · cases flag
    · rw [ruleParts]
      split <;> exact cons_ne_nil _ _

/-- A value that `Rule.validate` reads as a network or a port has no comma. -/
theorem comma_notMem_of_valid (valid : r.valid = true) (read : takesText r = false)
    (known : (ruleTypes r.type).isSome = true) : comma ∉ r.value := by
  simp only [Rule.valid, Bool.and_eq_true] at valid
  obtain ⟨⟨shape, -⟩, -⟩ := valid
  unfold takesText at read
  cases type : r.type with
  | ipCIDR =>
    rw [type] at shape
    exact comma_notMem_of_isCIDR shape
  | port | srcPort =>
    rw [type] at shape
    exact comma_notMem_of_isInteger shape
  | matchAll =>
    rw [type] at known
    cases known
  | _ =>
    rw [type] at read
    cases read

theorem valid_of_mem_rules (valid : p.valid = true) (member : r ∈ p.rules) : r.valid = true := by
  simp only [Plan.valid, Bool.and_eq_true] at valid
  have checked := all_eq_true.mp valid.1.1.1.2 r member
  simp only [Plan.validRule, Bool.and_eq_true] at checked
  exact checked.1.1

/-- The lines of an accepted plan split at commas into the type, the value, the target's name and
at most the flag of their rules, and a last line into `MATCH` and `DIRECT`, if and only if no
value that is free text has a comma. -/
theorem rule_lines_split_iff (wide : Bytes → Bool) {p : Plan} (valid : p.valid = true)
    {lines : List Bytes} (rendered : buildRules (byID wide p) p.rules = some lines) :
    (∀ (i : Nat) line, lines[i]? = some line →
      (∃ r target, p.rules[i]? = some r ∧ ruleTarget (byID wide p) r.target = some target ∧
        line.splitOn comma = ruleParts r target) ∨
      (p.rules.length ≤ i ∧ line.splitOn comma = [ascii "MATCH", ascii "DIRECT"])) ↔
      ∀ r ∈ p.rules, takesText r = true → comma ∉ r.value := by
  obtain ⟨out, each, shape⟩ := buildRules_eq rendered
  have within : ∀ {i : Nat} {line : Bytes}, out[i]? = some line → lines[i]? = some line := by
    intro i line found
    rcases shape with rfl | rfl
    · exact found
    · exact (List.getElem?_append_left (List.getElem?_eq_some_iff.mp found).1).trans found
  have match_ : ∀ {i : Nat} {line : Bytes} {r : Rule}, out[i]? = some line →
      p.rules[i]? = some r → ruleLine (byID wide p) r = some line := by
    intro i line r found rule
    obtain ⟨bound, rfl⟩ := List.getElem?_eq_some_iff.mp found
    obtain ⟨bound', rfl⟩ := List.getElem?_eq_some_iff.mp rule
    exact each.get bound' bound
  constructor
  · intro split r member text
    obtain ⟨i, rule⟩ := mem_iff_getElem?.mp member
    obtain ⟨bound, -⟩ := List.getElem?_eq_some_iff.mp rule
    have bound' : i < out.length := each.length_eq ▸ bound
    have found : out[i]? = some out[i] := getElem?_eq_getElem bound'
    rcases split i _ (within found) with ⟨r', target, rule', named, parts⟩ | ⟨beyond, -⟩
    · obtain rfl := Option.some.inj (rule.symm.trans rule')
      refine (splitOn_ruleLine (match_ found rule) named).mp parts ?_
      unfold takesText at text
      cases type : r.type with
      | other name =>
        have checked := valid_of_mem_rules valid member
        simp [Rule.valid, type] at checked
      | matchAll =>
        rw [type] at text
        cases text
      | _ => rfl
    · omega
  · intro free i line found
    by_cases bound : i < p.rules.length
    · have rule : p.rules[i]? = some p.rules[i] := getElem?_eq_getElem bound
      have member := getElem_mem bound
      have bound' : i < out.length := each.length_eq ▸ bound
      have there : out[i]? = some out[i] := getElem?_eq_getElem bound'
      obtain rfl := Option.some.inj ((within there).symm.trans found)
      obtain ⟨target, named, -⟩ := ruleLine_eq (match_ there rule)
      refine .inl ⟨_, target, rule, named, ?_⟩
      rw [splitOn_ruleLine (match_ there rule) named]
      intro known
      cases text : takesText p.rules[i] with
      | true => exact free _ member text
      | false => exact comma_notMem_of_valid (valid_of_mem_rules valid member) text known
    · refine .inr ⟨Nat.le_of_not_lt bound, ?_⟩
      have outside : out.length ≤ i := each.length_eq ▸ Nat.le_of_not_lt bound
      rcases shape with rfl | rfl
      · rw [getElem?_eq_none outside] at found
        cases found
      · rw [getElem?_append_right outside] at found
        obtain ⟨-, rfl⟩ := List.getElem?_eq_some_iff.mp found
        simp only [getElem_singleton]
        decide

/-! ## A keyword with a comma -/

def keywordPlan (keyword : Bytes) : Plan where
  sessionID := ascii "s"
  outbounds := [{ id := ascii "proxy", protocol := .trojan, server := ascii "s.example", port := 443 }]
  rules := [{ type := .domainKeyword, value := keyword, target := ascii "proxy" }]

theorem keyword_changes_target :
    ∃ p lines, p.valid = true ∧ buildRules (byID (fun _ => false) p) p.rules = some lines ∧
      p.rules.map (·.target) = [ascii "proxy"] ∧
      lines.map (List.splitOn comma) =
        [[ascii "DOMAIN-KEYWORD", ascii "bank", ascii "DIRECT", ascii "proxy"],
          [ascii "MATCH", ascii "DIRECT"]] :=
  ⟨keywordPlan (ascii "bank,DIRECT"), _, by decide, rfl, rfl, by decide⟩

theorem plain_keyword_splits :
    ∃ p lines, p.valid = true ∧ buildRules (byID (fun _ => false) p) p.rules = some lines ∧
      ∀ (i : Nat) line, lines[i]? = some line →
        (∃ r target, p.rules[i]? = some r ∧
          ruleTarget (byID (fun _ => false) p) r.target = some target ∧
          line.splitOn comma = ruleParts r target) ∨
        (p.rules.length ≤ i ∧ line.splitOn comma = [ascii "MATCH", ascii "DIRECT"]) := by
  have valid : (keywordPlan (ascii "bank")).valid = true := by decide
  refine ⟨keywordPlan (ascii "bank"), _, valid, rfl, ?_⟩
  refine (rule_lines_split_iff (fun _ => false) valid rfl).mpr fun r member _ => ?_
  rw [mem_singleton.mp member]
  decide

end Sora.Contract.Mihomo
