import Sora.Lib.NetText

/-!
# A fragment of nftables

The text of an nft rule file, cut into tokens and read as a table with one filter chain,
and the meaning of its rules: the statements of a rule run in order, a failing match ends
the rule, a verdict ends the chain, and a packet that no rule decides gets the chain's
policy.

`LexesTo` says which tokens a piece of text stands for; it composes, and so do the lines
of a table (`readTable_of_lines`).
-/

namespace Sora.Lib.Nft

open List Option Nat

/-! ## Packets and rules -/

inductive Verdict where
  | accept
  | drop
  deriving DecidableEq, Repr

inductive L4Proto where
  | tcp
  | udp
  | other (number : Nat)
  deriving DecidableEq, Repr

inductive Direction where
  | original
  | reply
  deriving DecidableEq, Repr

inductive CtState where
  | new
  | established
  | related
  | invalid
  | untracked
  deriving DecidableEq, Repr

/-- What the output hook sees of a packet.  A transport without ports has no destination
port, a packet without a socket has no owner and an untracked one no direction. -/
structure Packet where
  oifname : Bytes
  daddr : IP
  l4proto : L4Proto
  dport : Option Nat
  skuid : Option Nat
  direction : Option Direction
  state : CtState

inductive Match where
  | oif (name : Bytes)
  | oifname (name : Bytes)
  | daddr (network : Prefix)
  | skuid (uid : Nat)
  | l4proto (protocols : List L4Proto)
  | dport (port : Nat)
  | direction (d : Direction)
  | state (states : List CtState)
  deriving DecidableEq

@[simp] def Match.holds (packet : Packet) : Match → Bool
  | .oif name => packet.oifname == name
  | .oifname name => packet.oifname == name
  | .daddr network => network.contains packet.daddr
  | .skuid uid => packet.skuid == some uid
  | .l4proto protocols => protocols.contains packet.l4proto
  | .dport port => packet.dport == some port
  | .direction d => packet.direction == some d
  | .state states => states.contains packet.state

inductive Statement where
  | condition (m : Match)
  | counter
  | comment (text : Bytes)
  | verdict (v : Verdict)
  deriving DecidableEq

abbrev Rule := List Statement

/-- The verdict of one rule; `none` hands the packet to the next rule. -/
@[simp] def Rule.run (packet : Packet) : Rule → Option Verdict
  | [] => none
  | .condition m :: rest => if m.holds packet then Rule.run packet rest else none
  | .counter :: rest => Rule.run packet rest
  | .comment _ :: rest => Rule.run packet rest
  | .verdict v :: _ => some v

structure Chain where
  policy : Verdict
  rules : List Rule
  deriving DecidableEq

/-- The first terminal verdict wins. -/
def Chain.verdict (chain : Chain) (packet : Packet) : Verdict :=
  (chain.rules.findSome? (Rule.run packet)).getD chain.policy

/-! ## Tokens -/

inductive Token where
  | word (text : Bytes)
  | quoted (text : Bytes)
  | punct (c : UInt8)
  deriving DecidableEq

/-- Line ends, commas, semicolons and braces stand for themselves. -/
def isPunct (c : UInt8) : Bool := c == 10 || c == 44 || c == 59 || c == 123 || c == 125

def isBlank (c : UInt8) : Bool := c == 32 || c == 9

inductive LexMode where
  | gap
  | word (reversed : Bytes)
  | quote (reversed : Bytes)
  deriving DecidableEq

/-- The tokens that end with a byte, and what is open after it. -/
def lexStep : LexMode → UInt8 → List Token × LexMode
  | .gap, c =>
    if isBlank c then ([], .gap)
    else if c == 34 then ([], .quote [])
    else if isPunct c then ([.punct c], .gap)
    else ([], .word [c])
  | .word w, c =>
    if isBlank c then ([.word w.reverse], .gap)
    else if c == 34 then ([.word w.reverse], .quote [])
    else if isPunct c then ([.word w.reverse, .punct c], .gap)
    else ([], .word (c :: w))
  | .quote q, c => if c == 34 then ([.quoted q.reverse], .gap) else ([], .quote (c :: q))

def lexRun : LexMode → Bytes → List Token × LexMode
  | mode, [] => ([], mode)
  | mode, c :: s =>
    match lexStep mode c with
    | (tokens, mode') =>
      match lexRun mode' s with
      | (rest, final) => (tokens ++ rest, final)

/-- The tokens of a text.  An open quotation at its end is an error. -/
def lex (text : Bytes) : Option (List Token) :=
  match lexRun .gap text with
  | (tokens, .gap) => some tokens
  | (tokens, .word w) => some (tokens ++ [.word w.reverse])
  | (_, .quote _) => none

theorem lexRun_append (mode : LexMode) (a b : Bytes) :
    lexRun mode (a ++ b) =
      ((lexRun mode a).1 ++ (lexRun (lexRun mode a).2 b).1, (lexRun (lexRun mode a).2 b).2) := by
  induction a generalizing mode with
  | nil => rfl
  | cons c a ih => simp [lexRun, ih]

/-- `text` stands for `tokens` and leaves nothing open. -/
def LexesTo (text : Bytes) (tokens : List Token) : Prop := lexRun .gap text = (tokens, .gap)

instance (text : Bytes) (tokens : List Token) : Decidable (LexesTo text tokens) :=
  inferInstanceAs (Decidable (lexRun .gap text = (tokens, .gap)))

variable {a b text top w : Bytes} {tokens : List Token} {fuel : Nat} {rule : Rule}
    {lines : List (List Token)}

theorem LexesTo.append {ta tb : List Token} (first : LexesTo a ta) (second : LexesTo b tb) :
    LexesTo (a ++ b) (ta ++ tb) := by
  unfold LexesTo at first second ⊢
  rw [lexRun_append, first, second]

theorem LexesTo.lex_append (reads : LexesTo text tokens) (rest : Bytes) :
    lex (text ++ rest) = (lex rest).map (tokens ++ ·) := by
  rw [lex, lex, lexRun_append, reads]
  rcases lexRun .gap rest with ⟨others, _ | w | q⟩ <;> simp

theorem LexesTo.lex_eq (reads : LexesTo text tokens) : lex text = some tokens := by
  rw [lex, reads]

/-- The bytes a word may consist of. -/
def wordByte (c : UInt8) : Bool := !isBlank c && !(c == 34) && !isPunct c

theorem lexStep_wordByte {c : UInt8} (plain : wordByte c = true) :
    lexStep .gap c = ([], .word [c]) ∧ ∀ w, lexStep (.word w) c = ([], .word (c :: w)) := by
  have ordinary : isBlank c = false ∧ (c == 34) = false ∧ isPunct c = false := by
    simpa [wordByte, and_assoc] using plain
  obtain ⟨blank, quote, punct⟩ := ordinary
  simp only [lexStep, blank, quote, punct, Bool.false_eq_true, if_false, implies_true, and_self]

theorem lexRun_word (plain : ∀ c ∈ w, wordByte c = true) (acc : Bytes) :
    lexRun (.word acc) w = ([], .word (w.reverse ++ acc)) := by
  induction w generalizing acc with
  | nil => rfl
  | cons c w ih =>
    have rest := ih (fun d member => plain d (mem_cons_of_mem _ member)) (c :: acc)
    simp [lexRun, (lexStep_wordByte (plain c mem_cons_self)).2 acc, rest]

/-- A word and the blank after it. -/
theorem LexesTo.word (nonempty : w ≠ []) (plain : ∀ c ∈ w, wordByte c = true) :
    LexesTo (w ++ [32]) [.word w] := by
  obtain ⟨c, w, rfl⟩ := exists_cons_of_ne_nil nonempty
  have run : lexRun .gap (c :: w) = ([], .word (w.reverse ++ [c])) := by
    have rest := lexRun_word (fun d member => plain d (mem_cons_of_mem _ member)) [c]
    simp [lexRun, (lexStep_wordByte (plain c mem_cons_self)).1, rest]
  rw [LexesTo, lexRun_append, run]
  simp [lexRun, lexStep, isBlank]

/-! ## Reading rules -/

def readProto (w : Bytes) : Option L4Proto :=
  if w = ascii "tcp" then some .tcp else if w = ascii "udp" then some .udp else none

def readDirection (w : Bytes) : Option Direction :=
  if w = ascii "original" then some .original
  else if w = ascii "reply" then some .reply
  else none

def readState (w : Bytes) : Option CtState :=
  if w = ascii "new" then some .new
  else if w = ascii "established" then some .established
  else if w = ascii "related" then some .related
  else if w = ascii "invalid" then some .invalid
  else if w = ascii "untracked" then some .untracked
  else none

/-- A rule of one address family takes networks of that family only. -/
def readNetwork (family : Family) (w : Bytes) : Option Prefix := do
  let network ← parseNetwork w
  if network.ip.family = family then some network else none

/-- Values separated by commas, and the tokens after them. -/
def readItems {α : Type} (item : Bytes → Option α) : List Token → Option (List α × List Token)
  | .word w :: .punct 44 :: rest => do
    let x ← item w
    let (xs, rest) ← readItems item rest
    some (x :: xs, rest)
  | .word w :: rest => do
    let x ← item w
    some ([x], rest)
  | _ => none

/-- One value, or several in braces. -/
def readSet {α : Type} (item : Bytes → Option α) : List Token → Option (List α × List Token)
  | .punct 123 :: rest => do
    let (xs, rest) ← readItems item rest
    match rest with
    | .punct 125 :: rest => some (xs, rest)
    | _ => none
  | .word w :: rest => do
    let x ← item w
    some ([x], rest)
  | _ => none

def readWord {α : Type} (item : Bytes → Option α) : List Token → Option (α × List Token)
  | .word w :: rest => (item w).map fun x => (x, rest)
  | _ => none

/-- An interface name, quoted or not. -/
def readName : List Token → Option (Bytes × List Token)
  | .word w :: rest => some (w, rest)
  | .quoted w :: rest => some (w, rest)
  | _ => none

def matching {α : Type} (m : α → Match) (read : Option (α × List Token)) :
    Option (Statement × List Token) :=
  read.map fun (x, rest) => (.condition (m x), rest)

/-- Expressions of two words. -/
def readField (object field : Bytes) (rest : List Token) : Option (Statement × List Token) :=
  if object = ascii "ip" ∧ field = ascii "daddr" then
    matching .daddr (readWord (readNetwork .v4) rest)
  else if object = ascii "ip6" ∧ field = ascii "daddr" then
    matching .daddr (readWord (readNetwork .v6) rest)
  else if object = ascii "meta" ∧ field = ascii "skuid" then
    matching .skuid (readWord (readNumber (2 ^ 63 - 1)) rest)
  else if object = ascii "meta" ∧ field = ascii "l4proto" then
    matching .l4proto (readSet readProto rest)
  else if object = ascii "th" ∧ field = ascii "dport" then
    matching .dport (readWord (readNumber 65535) rest)
  else if object = ascii "ct" ∧ field = ascii "direction" then
    matching .direction (readWord readDirection rest)
  else if object = ascii "ct" ∧ field = ascii "state" then
    matching .state (readItems readState rest)
  else none

def readStatement : List Token → Option (Statement × List Token)
  | .word w :: rest =>
    if w = ascii "accept" then some (.verdict .accept, rest)
    else if w = ascii "drop" then some (.verdict .drop, rest)
    else if w = ascii "counter" then some (.counter, rest)
    else if w = ascii "oif" then matching .oif (readName rest)
    else if w = ascii "oifname" then matching .oifname (readName rest)
    else
      match rest with
      | .quoted text :: rest => if w = ascii "comment" then some (.comment text, rest) else none
      | .word field :: rest => readField w field rest
      | _ => none
  | _ => none

/-- At most `fuel` statements; each one takes a token, so the length of the line suffices. -/
def readStatements : Nat → List Token → Option Rule
  | _, [] => some []
  | 0, _ :: _ => none
  | fuel + 1, t :: ts => do
    let (statement, rest) ← readStatement (t :: ts)
    let rule ← readStatements fuel rest
    some (statement :: rule)

def readRule (line : List Token) : Option Rule := readStatements line.length line

theorem readStatements_succ (nonempty : tokens ≠ []) :
    readStatements (fuel + 1) tokens = (readStatement tokens).bind fun (statement, rest) =>
      (readStatements fuel rest).map (statement :: ·) := by
  obtain ⟨t, ts, rfl⟩ := exists_cons_of_ne_nil nonempty
  rw [readStatements]
  cases readStatement (t :: ts) with
  | none => rfl
  | some found => cases h : readStatements fuel found.2 <;> simp [h]

theorem readStatements_mono {fuel' : Nat} (le : fuel ≤ fuel')
    (read : readStatements fuel tokens = some rule) : readStatements fuel' tokens = some rule := by
  induction fuel generalizing fuel' tokens rule with
  | zero =>
    cases tokens with
    | nil => cases fuel' <;> exact read
    | cons t ts => cases read
  | succ fuel ih =>
    obtain ⟨fuel', rfl⟩ := exists_eq_succ_of_ne_zero (ne_of_gt (lt_of_lt_of_le
      (succ_pos fuel) le))
    cases tokens with
    | nil => exact read
    | cons t ts =>
      rw [readStatements_succ (cons_ne_nil t ts)] at read ⊢
      obtain ⟨⟨statement, rest⟩, first, others⟩ := bind_eq_some_iff.mp read
      obtain ⟨rule', readRest, rfl⟩ := map_eq_some_iff.mp others
      simp [first, ih (le_of_succ_le_succ le) readRest]

theorem readRule_cons (rest : List Token) {statement : Statement}
    (first : readStatement tokens = some (statement, rest)) (shorter : rest.length < tokens.length)
    (others : readRule rest = some rule) : readRule tokens = some (statement :: rule) := by
  have nonempty : tokens ≠ [] := ne_nil_of_length_pos (zero_lt_of_lt shorter)
  obtain ⟨fuel, length⟩ := exists_eq_succ_of_ne_zero (ne_of_gt (zero_lt_of_lt shorter))
  rw [readRule, length, readStatements_succ nonempty, first]
  simp [readStatements_mono (le_of_lt_succ (length ▸ shorter)) others]

/-! ## Reading a table -/

structure Table where
  name : Bytes
  chainName : Bytes
  chain : Chain
  deriving DecidableEq

def lineEnd : Token := .punct 10

/-- The rules of a chain up to the closing braces of chain and table. -/
def readRules : List (List Token) → Option (List Rule)
  | [] => none
  | line :: rest =>
    if line = [.punct 125] then if rest = [[.punct 125], []] then some [] else none
    else do
      let rule ← readRule line
      let rules ← readRules rest
      some (rule :: rules)

/-- `type filter hook output priority filter; policy ...;` -/
def hookLine (policy : Bytes) : List Token :=
  (["type", "filter", "hook", "output", "priority", "filter"].map fun w => .word (ascii w)) ++
    [.punct 59, .word (ascii "policy"), .word policy, .punct 59]

def readPolicy (line : List Token) : Option Verdict :=
  if line = hookLine (ascii "accept") then some .accept
  else if line = hookLine (ascii "drop") then some .drop
  else none

def readLines : List (List Token) → Option Table
  | [.word t, .word family, .word name, .punct 123] ::
      [.word c, .word chainName, .punct 123] :: hook :: lines =>
    if t = ascii "table" ∧ family = ascii "inet" ∧ c = ascii "chain" then do
      let policy ← readPolicy hook
      let rules ← readRules lines
      some ⟨name, chainName, policy, rules⟩
    else none
  | _ => none

/-- A file that defines one table of the `inet` family with one chain on the output hook. -/
def readTable (text : Bytes) : Option Table := do
  let tokens ← lex text
  readLines (tokens.splitOn lineEnd)

/-! ## Composing a table from its lines -/

def joinLines (lines : List (List Token)) : List Token := lines.flatMap (· ++ [lineEnd])

/-- `text` consists of whole lines with these tokens. -/
structure AreLines (text : Bytes) (lines : List (List Token)) : Prop where
  lexes : LexesTo text (joinLines lines)
  closed : ∀ line ∈ lines, lineEnd ∉ line

theorem splitOn_joinLines (closed : ∀ line ∈ lines, lineEnd ∉ line) (rest : List Token) :
    (joinLines lines ++ rest).splitOn lineEnd = lines ++ rest.splitOn lineEnd := by
  induction lines with
  | nil => rfl
  | cons line lines ih =>
    have others := ih fun l member => closed l (mem_cons_of_mem _ member)
    have unfolded : joinLines (line :: lines) ++ rest =
        line ++ lineEnd :: (joinLines lines ++ rest) := by
      simp [joinLines]
    rw [unfolded, splitOn_append_cons_self_of_not_mem (closed line mem_cons_self), others]
    rfl

namespace AreLines

theorem append {lines' : List (List Token)} (first : AreLines a lines)
    (second : AreLines b lines') : AreLines (a ++ b) (lines ++ lines') where
  lexes := by
    rw [joinLines, flatMap_append]
    exact first.lexes.append second.lexes
  closed := by
    intro line member
    rcases mem_append.mp member with inFirst | inSecond
    · exact first.closed line inFirst
    · exact second.closed line inSecond

theorem readTable_eq (areLines : AreLines text lines) :
    readTable text = readLines (lines ++ [[]]) := by
  have split := splitOn_joinLines areLines.closed []
  rw [append_nil] at split
  rw [readTable, areLines.lexes.lex_eq, bind_eq_bind, bind_some, split]
  rfl

/-- The first lines of a text are read first. -/
theorem readTable_append (areLines : AreLines top lines) (body : Bytes) :
    readTable (top ++ body) = (lex body).bind fun tokens =>
      readLines (lines ++ tokens.splitOn lineEnd) := by
  rw [readTable, areLines.lexes.lex_append]
  simp [bind_map, splitOn_joinLines areLines.closed]

end AreLines

/-- `text` is one line that is read as the rule. -/
def IsRule (text : Bytes) (rule : Rule) : Prop :=
  ∃ tokens, AreLines text [tokens] ∧ readRule tokens = some rule

/-- `text` is a sequence of lines that are read as the rules. -/
inductive AreRules : Bytes → List Rule → Prop where
  | nil : AreRules [] []
  | cons {line rest : Bytes} {rule : Rule} {rules : List Rule} (first : IsRule line rule)
      (others : AreRules rest rules) : AreRules (line ++ rest) (rule :: rules)

namespace AreRules

theorem append {rules rules' : List Rule} (first : AreRules a rules) (second : AreRules b rules') :
    AreRules (a ++ b) (rules ++ rules') := by
  induction first with
  | nil => exact second
  | cons rule _ ih =>
    rw [append_assoc]
    exact cons rule ih

theorem one {line : Bytes} (isRule : IsRule line rule) : AreRules line [rule] := by
  simpa using cons isRule nil

theorem flatMap {α : Type} {text : α → Bytes} {rule : α → Rule} {xs : List α}
    (each : ∀ x ∈ xs, IsRule (text x) (rule x)) : AreRules (xs.flatMap text) (xs.map rule) := by
  induction xs with
  | nil => exact nil
  | cons x xs ih =>
    exact cons (each x mem_cons_self) (ih fun y member => each y (mem_cons_of_mem _ member))

end AreRules

theorem readRules_cons {line : List Token} (read : readRule line = some rule)
    (rest : List (List Token)) : readRules (line :: rest) = (readRules rest).map (rule :: ·) := by
  have open_ : line ≠ [.punct 125] := by
    rintro rfl
    cases read
  rw [readRules, if_neg open_, read]
  cases readRules rest <;> rfl

/-- Lines that are read as rules can stand before any others. -/
theorem AreRules.exists_lines {rules : List Rule} (areRules : AreRules text rules) :
    ∃ lines, AreLines text lines ∧
      ∀ rest, readRules (lines ++ rest) = (readRules rest).map (rules ++ ·) := by
  induction areRules with
  | nil => exact ⟨[], ⟨rfl, by simp⟩, by simp⟩
  | cons first _ ih =>
    obtain ⟨tokens, isLine, read⟩ := first
    obtain ⟨lines, areLines, readRest⟩ := ih
    refine ⟨tokens :: lines, isLine.append areLines, fun rest => ?_⟩
    rw [cons_append, readRules_cons read, readRest, Option.map_map]
    rfl

/-- A table is read from its opening lines, the lines of its rules and two closing braces. -/
theorem readTable_of_lines (policyWord : Bytes) {body bottom name chainName : Bytes}
    {policy : Verdict} {rules : List Rule} (opening : AreLines top [[.word (ascii "table"), .word
    (ascii "inet"), .word name, .punct 123], [.word (ascii "chain"), .word chainName, .punct 123],
    hookLine policyWord]) (readsPolicy : readPolicy (hookLine policyWord) = some policy)
    (areRules : AreRules body rules) (closing : AreLines bottom [[.punct 125], [.punct 125]]) :
    readTable (top ++ (body ++ bottom)) = some ⟨name, chainName, policy, rules⟩ := by
  obtain ⟨lines, areLines, read⟩ := areRules.exists_lines
  have rest : readRules (lines ++ [[.punct 125], [.punct 125]] ++ [[]]) = some rules := by
    rw [append_assoc, read]
    simp [readRules]
  rw [(opening.append (areLines.append closing)).readTable_eq]
  simp only [cons_append, nil_append, readLines, readsPolicy]
  rw [rest]
  rfl

/-! ## Loading files -/

/-- The `inet` tables in force, by the names of table and chain. -/
abbrev Ruleset := Bytes → Option (Bytes → Option Chain)

/-- A table block creates what is missing and adds its rules after those of an existing
chain. -/
def Ruleset.add (ruleset : Ruleset) (table : Table) : Ruleset :=
  let chains := (ruleset table.name).getD fun _ => none
  let rules := (chains table.chainName).elim [] Chain.rules
  Function.update ruleset table.name (some (Function.update chains table.chainName
    (some ⟨table.chain.policy, rules ++ table.chain.rules⟩)))

/-- A file that deletes one table of the `inet` family. -/
def readDelete (text : Bytes) : Option Bytes := do
  match ← lex text with
  | [.word command, .word object, .word family, .word name, .punct 10] =>
    if command = ascii "delete" ∧ object = ascii "table" ∧ family = ascii "inet" then some name
    else none
  | _ => none

/-- `nft -f` on a file with one command: all of it takes effect or, when it is refused,
nothing. -/
def Ruleset.load (ruleset : Ruleset) (text : Bytes) : Option Ruleset :=
  match readTable text, readDelete text with
  | some table, _ => some (ruleset.add table)
  | none, some name =>
    if (ruleset name).isSome then some (Function.update ruleset name none) else none
  | none, none => none

end Sora.Lib.Nft
