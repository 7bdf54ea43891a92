import Sora.Lib.NetText

/-!
# Policy routing

The routing policy database of Linux: rules in the order of their priority, the tables they
look up and the way a flow takes through them.  A rule that does not apply, a lookup without
a usable route and a suppressed route hand the flow to the next rule, and a `goto` skips to
its target.  The second half reads the commands of `ip` that change rules and routes.
-/

namespace Sora.Lib.Route

open List Option Bool

/-! ## Rules and routes -/

inductive Action where
  | lookup (table : Nat)
  | goto (target : Nat)
  /-- `blackhole`, `unreachable` or `prohibit`. -/
  | refuse (kind : Bytes)
  deriving DecidableEq

/-- A rule; an absent selector selects everything. -/
@[ext]
structure Rule where
  priority : Nat
  src : Option Prefix := none
  dst : Option Prefix := none
  iif : Option Bytes := none
  oif : Option Bytes := none
  uids : Option (Nat × Nat) := none
  ipproto : Option Nat := none
  dport : Option Nat := none
  /-- Reported by kernels that can mask ports. -/
  dportMask : Option Nat := none
  action : Action
  suppress : Option Nat := none
  protocol : Nat := 0
  /-- Attributes outside this fragment, such as a packet mark. -/
  other : List (Bytes × Bytes) := []
  deriving DecidableEq

/-- What a rule sees of a packet.  A socket without address has no source yet, one that is not
bound to a device no output device. -/
structure Flow where
  src : Option IP
  dst : IP
  iif : Bytes
  oif : Option Bytes
  uid : Option Nat
  ipproto : Nat
  dport : Option Nat
  /-- The attributes outside this fragment that the packet has. -/
  tags : List (Bytes × Bytes) := []

inductive Hop where
  | via (device : Bytes)
  | reject
  | throw
  deriving DecidableEq

structure Route where
  dst : Prefix
  hop : Hop
  deriving DecidableEq

def tableDefault : Nat := 253

def tableMain : Nat := 254

def tableLocal : Nat := 255

/-- A route for the destination; to a device only if the socket is not bound to another. -/
def Route.admits (flow : Flow) (route : Route) : Bool :=
  route.dst.contains flow.dst &&
    match route.hop with
    | .via device => flow.oif.all (· == device)
    | _ => true

def longest : List Route → Option Route
  | [] => none
  | route :: rest =>
    match longest rest with
    | some best => if route.dst.bits < best.dst.bits then some best else some route
    | none => some route

/-- The route of a table; a `throw` route stands for none. -/
def lookup (table : List Route) (flow : Flow) : Option Route :=
  (longest (table.filter (·.admits flow))).filter (·.hop != .throw)

def portHolds (port mask : Nat) (dport : Option Nat) : Bool :=
  dport.any fun d => d &&& mask == port &&& mask

def Rule.applies (flow : Flow) (rule : Rule) : Bool :=
  rule.src.all (fun p => flow.src.any p.contains) &&
  rule.dst.all (·.contains flow.dst) &&
  rule.iif.all (· == flow.iif) &&
  rule.oif.all (fun device => flow.oif == some device) &&
  rule.uids.all (fun range => flow.uid.any fun uid => range.1 ≤ uid && uid ≤ range.2) &&
  rule.ipproto.all (· == flow.ipproto) &&
  rule.dport.all (fun port => portHolds port (rule.dportMask.getD 0xffff) flow.dport) &&
  rule.other.all flow.tags.contains

/-- Too short a prefix for the rule. -/
def Rule.suppresses (rule : Rule) (route : Route) : Bool :=
  route.hop != .reject && rule.suppress.any fun length => route.dst.bits ≤ length

def Rule.hop (tables : Nat → List Route) (flow : Flow) (rule : Rule) : Option Hop :=
  if rule.applies flow then
    match rule.action with
    | .lookup table => ((lookup (tables table) flow).filter (!rule.suppresses ·)).map (·.hop)
    | .goto _ => none
    | .refuse _ => some .reject
  else none

/-- The rule at which the walk goes on; a `goto` without target is passed over. -/
def Rule.jump (flow : Flow) (rest : List Rule) (rule : Rule) : Option Nat :=
  match rule.action with
  | .goto target =>
    if rule.applies flow && rest.any (·.priority == target) then some target else none
  | _ => none

/-- The rule that decides a flow and what it decides.  The walk skips rules up to the target
of a `goto`. -/
def resolve (tables : Nat → List Route) (flow : Flow) : Option Nat → List Rule → Option (Rule × Hop)
  | _, [] => none
  | target, rule :: rest =>
    if target.any (· != rule.priority) then resolve tables flow target rest
    else
      match rule.hop tables flow with
      | some hop => some (rule, hop)
      | none => resolve tables flow (rule.jump flow rest) rest

/-- A new rule stands after those of its priority. -/
def insertRule (rule : Rule) : List Rule → List Rule
  | [] => [rule]
  | first :: rest =>
    if first.priority ≤ rule.priority then first :: insertRule rule rest else rule :: first :: rest

variable {found : Rule × Hop} {low : List Rule} {w : Bytes} {c : UInt8} {rules : List Rule}

section Walk

variable {tables : Nat → List Route} {flow : Flow} {rule : Rule} {rest : List Rule}

/-- What decides a flow is one of the rules, and it applies. -/
theorem resolve_spec {target : Option Nat}
    (decided : resolve tables flow target rules = some found) :
    found.1 ∈ rules ∧ found.1.hop tables flow = some found.2 := by
  induction rules generalizing target with
  | nil => cases decided
  | cons rule rest ih =>
    rw [resolve] at decided
    split at decided
    · exact ⟨mem_cons_of_mem _ (ih decided).1, (ih decided).2⟩
    · split at decided
      · rename_i hop sends
        cases decided
        exact ⟨mem_cons_self, sends⟩
      · exact ⟨mem_cons_of_mem _ (ih decided).1, (ih decided).2⟩

theorem resolve_here {hop : Hop} (sends : rule.hop tables flow = some hop) :
    resolve tables flow none (rule :: rest) = some (rule, hop) := by
  simp [resolve, sends]

/-- A rule that does not apply is passed over. -/
theorem resolve_skip (skips : rule.applies flow = false) :
    resolve tables flow none (rule :: rest) = resolve tables flow none rest := by
  have stays : rule.hop tables flow = none := by simp [Rule.hop, skips]
  have falls : rule.jump flow rest = none := by
    unfold Rule.jump
    split <;> simp [skips]
  simp [resolve, stays, falls]

/-- A lookup without usable route falls through. -/
theorem resolve_fall {table : Nat} (looks : rule.action = .lookup table)
    (stays : rule.hop tables flow = none) :
    resolve tables flow none (rule :: rest) = resolve tables flow none rest := by
  have falls : rule.jump flow rest = none := by simp [Rule.jump, looks]
  simp [resolve, stays, falls]

/-- A lookup decides or falls through. -/
theorem resolve_lookup {table : Nat} (looks : rule.action = .lookup table)
    (decided : resolve tables flow none (rule :: rest) = some found) :
    found.1 = rule ∨ resolve tables flow none rest = some found := by
  cases sends : rule.hop tables flow with
  | some hop =>
    rw [resolve_here sends] at decided
    exact .inl (congrArg Prod.fst (Option.some.inj decided)).symm
  | none =>
    rw [resolve_fall looks sends] at decided
    exact .inr decided

/-- A `goto` that applies skips to its target. -/
theorem resolve_goto {target : Nat} (jumps : rule.action = .goto target)
    (applies : rule.applies flow = true) {middle tail : List Rule} {next : Rule}
    (short : ∀ r ∈ middle, r.priority ≠ target) (lands : next.priority = target) :
    resolve tables flow none (rule :: (middle ++ next :: tail)) =
      resolve tables flow none (next :: tail) := by
  have stays : rule.hop tables flow = none := by simp [Rule.hop, jumps]
  have there : (middle ++ next :: tail).any (·.priority == target) = true := by
    simp [lands]
  have goes : rule.jump flow (middle ++ next :: tail) = some target := by
    rw [Rule.jump, jumps]
    simp only [applies, there, Bool.and_self, if_true]
  have skip : resolve tables flow (some target) (middle ++ next :: tail) =
      resolve tables flow (some target) (next :: tail) := by
    clear there goes
    induction middle with
    | nil => rfl
    | cons r middle ih =>
      have other : target ≠ r.priority := (short r mem_cons_self).symm
      rw [cons_append, resolve, if_pos (by simpa using other)]
      exact ih fun r member => short r (mem_cons_of_mem _ member)
  rw [resolve, stays]
  simp only [goes, skip]
  simp [resolve, lands]

end Walk

theorem insert_front {rule : Rule} {high : List Rule}
    (above : ∀ r ∈ high, rule.priority < r.priority) : insertRule rule high = rule :: high := by
  cases high with
  | nil => rfl
  | cons first rest => simp [insertRule, above first mem_cons_self]

theorem insert_append {rule : Rule} (below : ∀ r ∈ low, r.priority ≤ rule.priority)
    (high : List Rule) : insertRule rule (low ++ high) = low ++ insertRule rule high := by
  induction low with
  | nil => rfl
  | cons first low ih =>
    rw [cons_append, insertRule, if_pos (below first mem_cons_self),
      ih fun r member => below r (mem_cons_of_mem _ member)]
    rfl

/-- Rules of one priority keep their order. -/
theorem insert_level {level : Nat} {high : List Rule} (below : ∀ r ∈ low, r.priority ≤ level)
    (above : ∀ r ∈ high, level < r.priority) (same : ∀ r ∈ rules, r.priority = level) :
    rules.foldl (fun rs r => insertRule r rs) (low ++ high) = low ++ rules ++ high := by
  induction rules generalizing low with
  | nil => simp
  | cons rule rules ih =>
    have here := same rule mem_cons_self
    rw [foldl_cons, insert_append (here ▸ below), insert_front (here ▸ above), append_cons, ih]
    · simp
    · intro r member
      rcases mem_append.mp member with old | new
      · exact below r old
      · rw [mem_singleton.mp new, here]
    · exact fun r member => same r (mem_cons_of_mem _ member)

/-! ## Commands -/

/-- `strings.Fields`, for text without blanks outside ASCII. -/
def fields (s : Bytes) : List Bytes := (s.splitOnP isSpace).filter (· ≠ [])

/-- Text that is one field. -/
structure Solid (w : Bytes) : Prop where
  nonempty : w ≠ []
  plain : ∀ c ∈ w, isSpace c = false

/-- By evaluation. -/
theorem Solid.of_all (word : (w != [] && w.all fun c => !isSpace c) = true) : Solid w := by
  obtain ⟨nonempty, plain⟩ := and_eq_true_iff.mp word
  exact ⟨bne_iff_ne.mp nonempty, fun c member => by simpa using all_eq_true.mp plain c member⟩

/-- Two words with a byte between them. -/
theorem Solid.join {v : Bytes} (first : Solid v) (second : Solid w) (visible : isSpace c = false) :
    Solid (v ++ c :: w) := by
  refine ⟨by simp, fun d member => ?_⟩
  rcases mem_append.mp member with left | rest
  · exact first.plain d left
  · rcases mem_cons.mp rest with rfl | right
    · exact visible
    · exact second.plain d right

theorem fields_solid (solid : Solid w) : fields w = [w] := by
  simp [fields, splitOnP_eq_singleton solid.plain, solid.nonempty]

theorem fields_append (a b : Bytes) (space : isSpace c = true) :
    fields (a ++ c :: b) = fields a ++ fields b := by
  rw [fields, splitOnP_append_cons a b space, filter_append, fields, fields]

/-- The selectors of a command, as far as they are given. -/
structure Selectors where
  priority : Option Nat := none
  src : Option Prefix := none
  dst : Option Prefix := none
  iif : Option Bytes := none
  oif : Option Bytes := none
  uids : Option (Nat × Nat) := none
  ipproto : Option Nat := none
  dport : Option (Nat × Option Nat) := none
  table : Option Nat := none
  goto : Option Nat := none
  suppress : Option Nat := none
  protocol : Option Nat := none
  deriving DecidableEq

inductive Key where
  | src
  | dst
  | iif
  | oif
  | uids
  | ipproto
  | dport
  | table
  | goto
  | suppress
  | priority
  | protocol
  deriving DecidableEq

def readKey (w : Bytes) : Option Key :=
  if w = ascii "from" then some .src
  else if w = ascii "to" then some .dst
  else if w = ascii "iif" then some .iif
  else if w = ascii "oif" then some .oif
  else if w = ascii "uidrange" then some .uids
  else if w = ascii "ipproto" then some .ipproto
  else if w = ascii "dport" then some .dport
  else if w = ascii "lookup" ∨ w = ascii "table" then some .table
  else if w = ascii "goto" then some .goto
  else if w = ascii "suppress_prefixlength" then some .suppress
  else if w = ascii "priority" then some .priority
  else if w = ascii "protocol" then some .protocol
  else none

def word32 : Nat := 2 ^ 32 - 1

/-- A network of the family, or an address; `all` is every one. -/
def readSource (family : Family) (w : Bytes) : Option (Option Prefix) :=
  if w = ascii "all" then some none
  else (parseNetwork w).bind fun p => if p.ip.family = family then some (some p) else none

def readTableName (w : Bytes) : Option Nat :=
  if w = ascii "main" then some tableMain
  else if w = ascii "local" then some tableLocal
  else if w = ascii "default" then some tableDefault
  else readNumber word32 w

def readTransport (w : Bytes) : Option Nat :=
  if w = ascii "tcp" then some 6
  else if w = ascii "udp" then some 17
  else readNumber 255 w

def readRange (w : Bytes) : Option (Nat × Nat) :=
  match w.splitOn 45 with
  | [low, high] => do some (← readNumber word32 low, ← readNumber word32 high)
  | _ => none

/-- `0x` and at most four digits. -/
def readMask (w : Bytes) : Option Nat :=
  if w.take 2 = ascii "0x" then hexField (w.drop 2) else none

def readPort (w : Bytes) : Option (Nat × Option Nat) :=
  match w.splitOn 47 with
  | [port] => do some (← readNumber 65535 port, none)
  | [port, mask] => do some (← readNumber 65535 port, some (← readMask mask))
  | _ => none

def readSelector (family : Family) (s : Selectors) (key : Key) (w : Bytes) : Option Selectors :=
  match key with
  | .src => (readSource family w).map fun p => { s with src := p }
  | .dst => (readSource family w).map fun p => { s with dst := p }
  | .iif => some { s with iif := some w }
  | .oif => some { s with oif := some w }
  | .uids => (readRange w).map fun r => { s with uids := some r }
  | .ipproto => (readTransport w).map fun n => { s with ipproto := some n }
  | .dport => (readPort w).map fun p => { s with dport := some p }
  | .table => (readTableName w).map fun n => { s with table := some n }
  | .goto => (readNumber word32 w).map fun n => { s with goto := some n }
  | .suppress => (readNumber word32 w).map fun n => { s with suppress := some n }
  | .priority => (readNumber word32 w).map fun n => { s with priority := some n }
  | .protocol => (readNumber 255 w).map fun n => { s with protocol := some n }

def readSelectors (family : Family) (s : Selectors) : List Bytes → Option Selectors
  | [] => some s
  | key :: w :: rest =>
    (readKey key).bind fun key => (readSelector family s key w).bind fun s =>
      readSelectors family s rest
  | [_] => none

variable {s : Selectors}

theorem readSelectors_cons {family : Family} {s' : Selectors} {word : Bytes} {key : Key}
    (named : readKey word = some key) (read : readSelector family s key w = some s')
    (rest : List Bytes) :
    readSelectors family s (word :: w :: rest) = readSelectors family s' rest := by
  rw [readSelectors, named, bind_some, read, bind_some]

inductive Command where
  | ruleAdd (family : Family) (s : Selectors)
  | ruleDel (family : Family) (s : Selectors)
  | addrReplace (family : Family) (address : Prefix) (device : Bytes)
  | routeReplace (family : Family) (device : Bytes) (src : Prefix) (table : Nat)
  deriving DecidableEq

def readFamily (w : Bytes) : Option Family :=
  if w = ascii "-4" then some .v4 else if w = ascii "-6" then some .v6 else none

def readAddress (family : Family) (w : Bytes) : Option Prefix :=
  (parseNetwork w).filter (·.ip.family == family)

/-- `addr replace ADDRESS dev NAME`. -/
def readAddrReplace (family : Family) : List Bytes → Option Command
  | [address, dev, name] =>
    if dev = ascii "dev" then (readAddress family address).map (.addrReplace family · name) else none
  | _ => none

/-- `route replace default dev NAME src ADDRESS table TABLE`. -/
def readRouteReplace (family : Family) : List Bytes → Option Command
  | [target, dev, name, src, address, table, number] =>
    if target = ascii "default" ∧ dev = ascii "dev" ∧ src = ascii "src" ∧ table = ascii "table" then
      (readAddress family address).bind fun p =>
        (readTableName number).map (.routeReplace family name p ·)
    else none
  | _ => none

def readCommand : List Bytes → Option Command
  | flag :: object :: verb :: rest =>
    (readFamily flag).bind fun family =>
      if object = ascii "rule" ∧ verb = ascii "add" then
        (readSelectors family {} rest).map (.ruleAdd family)
      else if object = ascii "rule" ∧ verb = ascii "del" then
        (readSelectors family {} rest).map (.ruleDel family)
      else if object = ascii "addr" ∧ verb = ascii "replace" then readAddrReplace family rest
      else if object = ascii "route" ∧ verb = ascii "replace" then readRouteReplace family rest
      else none
  | _ => none

/-! ## The kernel -/

structure Kernel where
  rules : Family → List Rule
  tables : Family → Nat → List Route
  /-- The port mask that it reports. -/
  mask : Option Nat

/-- The rule a command adds.  A `goto` leads forward only. -/
def Selectors.rule (s : Selectors) (mask : Option Nat) : Option Rule := do
  let priority ← s.priority
  let action ← match s.goto with
    | some target => if priority < target then some (Action.goto target) else none
    | none => some (Action.lookup (s.table.getD tableMain))
  some
    { priority := priority
      src := s.src
      dst := s.dst
      iif := s.iif
      oif := s.oif
      uids := s.uids
      ipproto := s.ipproto
      dport := s.dport.map (·.1)
      dportMask := s.dport.bind fun d => d.2 <|> mask
      action := action
      suppress := s.suppress
      protocol := s.protocol.getD 0 }

/-- A rule agrees with every positive selector; zero and absent ones exclude nothing. -/
def Selectors.agrees (s : Selectors) (rule : Rule) : Bool :=
  s.priority.all (· == rule.priority) &&
  s.protocol.all (fun n => n == 0 || n == rule.protocol) &&
  s.src.all (fun p => rule.src == some p) &&
  s.dst.all (fun p => rule.dst == some p) &&
  s.iif.all (fun name => rule.iif == some name) &&
  s.oif.all (fun name => rule.oif == some name) &&
  s.uids.all (fun range => rule.uids == some range) &&
  s.ipproto.all (fun n => n == 0 || rule.ipproto == some n) &&
  s.dport.all (fun d => rule.dport == some d.1 && d.2.all fun mask => rule.dportMask == some mask) &&
  s.table.all (fun n => n == 0 || rule.action == .lookup n) &&
  s.goto.all (fun _ => match rule.action with | .goto _ => true | _ => false) &&
  s.suppress.all (fun n => rule.suppress == some n)

/-- The same, selector by selector. -/
structure Agreement (s : Selectors) (rule : Rule) : Prop where
  priority : ∀ n, s.priority = some n → rule.priority = n
  protocol : ∀ n, s.protocol = some n → n = 0 ∨ rule.protocol = n
  src : ∀ p, s.src = some p → rule.src = some p
  dst : ∀ p, s.dst = some p → rule.dst = some p
  iif : ∀ name, s.iif = some name → rule.iif = some name
  oif : ∀ name, s.oif = some name → rule.oif = some name
  uids : ∀ range, s.uids = some range → rule.uids = some range
  ipproto : ∀ n, s.ipproto = some n → n = 0 ∨ rule.ipproto = some n
  dport : ∀ d, s.dport = some d →
    rule.dport = some d.1 ∧ ∀ mask, d.2 = some mask → rule.dportMask = some mask
  table : ∀ n, s.table = some n → n = 0 ∨ rule.action = .lookup n
  goto : ∀ n, s.goto = some n → ∃ target, rule.action = .goto target
  suppress : ∀ n, s.suppress = some n → rule.suppress = some n

theorem Selectors.agrees_iff {rule : Rule} : s.agrees rule = true ↔ Agreement s rule := by
  have jumps : (match rule.action with | .goto _ => true | _ => false) = true ↔
      ∃ target, rule.action = .goto target := by
    cases rule.action <;> simp
  constructor
  · intro agrees
    simp only [Selectors.agrees, and_eq_true, Option.all_eq_true, beq_iff_eq, or_eq_true,
      jumps] at agrees
    obtain ⟨⟨⟨⟨⟨⟨⟨⟨⟨⟨⟨h₁, h₂⟩, h₃⟩, h₄⟩, h₅⟩, h₆⟩, h₇⟩, h₈⟩, h₉⟩, h₁₀⟩, h₁₁⟩, h₁₂⟩ := agrees
    exact ⟨fun n at_n => (h₁ n at_n).symm, fun n at_n => (h₂ n at_n).imp_right Eq.symm, h₃, h₄, h₅,
      h₆, h₇, h₈, h₉, h₁₀, h₁₁, h₁₂⟩
  · intro agrees
    simp only [Selectors.agrees, and_eq_true, Option.all_eq_true, beq_iff_eq, or_eq_true, jumps]
    exact ⟨⟨⟨⟨⟨⟨⟨⟨⟨⟨⟨fun n at_n => (agrees.priority n at_n).symm,
      fun n at_n => (agrees.protocol n at_n).imp_right Eq.symm⟩, agrees.src⟩, agrees.dst⟩,
      agrees.iif⟩, agrees.oif⟩, agrees.uids⟩, agrees.ipproto⟩, agrees.dport⟩, agrees.table⟩,
      agrees.goto⟩, agrees.suppress⟩

/-- The network of all addresses. -/
def anywhere (family : Family) : Prefix := ⟨⟨family, 0, Nat.two_pow_pos _⟩, 0, Nat.zero_le _⟩

/-- A command changes the rules of its family or a route; the same rule cannot be added
twice, and `del` removes the first rule that agrees.  Addresses are not part of this state. -/
def Kernel.execute (k : Kernel) : Command → Option Kernel
  | .ruleAdd family s => do
    let rule ← s.rule k.mask
    if rule ∈ k.rules family then none
    else some { k with
      rules := Function.update k.rules family (insertRule rule (k.rules family)) }
  | .ruleDel family s =>
    if (k.rules family).any s.agrees then
      some { k with
        rules := Function.update k.rules family ((k.rules family).eraseP s.agrees) }
    else none
  | .addrReplace _ _ _ => some k
  | .routeReplace family device _ table =>
    let others := (k.tables family table).filter (·.dst != anywhere family)
    some { k with
      tables := Function.update k.tables family
        (Function.update (k.tables family) table (⟨anywhere family, .via device⟩ :: others)) }

/-- The command line `ip` is given. -/
def Kernel.ip (k : Kernel) (args : Bytes) : Option Kernel :=
  (readCommand (fields args)).bind k.execute

/-- Command lines up to the first that fails. -/
def Kernel.run (k : Kernel) : List Bytes → Option Kernel
  | [] => some k
  | args :: rest => (k.ip args).bind (Kernel.run · rest)

def Command.adds (family : Family) (mask : Option Nat) : Command → Option Rule
  | .ruleAdd f s => if f = family then s.rule mask else none
  | _ => none

/-- A command that deletes nothing. -/
def Command.keeps : Command → Bool
  | .ruleDel _ _ => false
  | _ => true

theorem Kernel.execute_rules {k k' : Kernel} {c : Command} (keeps : c.keeps = true)
    (done : k.execute c = some k') (family : Family) :
    k'.mask = k.mask ∧ k'.rules family =
      ((c.adds family k.mask).toList).foldl (fun rs r => insertRule r rs) (k.rules family) := by
  cases c with
  | ruleAdd f s =>
    obtain ⟨rule, made, added⟩ := bind_eq_some_iff.mp done
    split at added
    · cases added
    · cases added
      by_cases here : f = family
      · subst here
        simp [Command.adds, made]
      · simp [Command.adds, here, Function.update_of_ne (Ne.symm here)]
  | ruleDel f s => cases keeps
  | addrReplace f address device | routeReplace f device src table =>
    cases done
    exact ⟨rfl, rfl⟩

/-- Command lines that add these rules to a family, in this order, and delete none. -/
inductive Adds (family : Family) (mask : Option Nat) : List Bytes → List Rule → Prop where
  | nil : Adds family mask [] []
  | cons {line : Bytes} {lines : List Bytes} {c : Command} {rules : List Rule}
      (read : readCommand (fields line) = some c) (keeps : c.keeps = true)
      (others : Adds family mask lines rules) :
    Adds family mask (line :: lines) ((c.adds family mask).toList ++ rules)

namespace Adds

variable {family : Family} {mask : Option Nat}

theorem append {a b : List Bytes} {rules' : List Rule} (first : Adds family mask a rules)
    (second : Adds family mask b rules') : Adds family mask (a ++ b) (rules ++ rules') := by
  induction first with
  | nil => exact second
  | cons read keeps _ ih =>
    rw [append_assoc]
    exact cons read keeps ih

theorem line {line : Bytes} {lines : List Bytes} {rules' : List Rule}
    (first : Adds family mask [line] rules) (others : Adds family mask lines rules') :
    Adds family mask (line :: lines) (rules ++ rules') :=
  first.append others

theorem flatMap {α : Type} {lines : α → List Bytes} {rules : α → List Rule} {xs : List α}
    (each : ∀ x ∈ xs, Adds family mask (lines x) (rules x)) :
    Adds family mask (xs.flatMap lines) (xs.flatMap rules) := by
  induction xs with
  | nil => exact nil
  | cons x xs ih =>
    exact (each x mem_cons_self).append (ih fun y member => each y (mem_cons_of_mem _ member))

theorem run_rules {lines : List Bytes} (adds : Adds family mask lines rules)
    {k k' : Kernel} (reports : k.mask = mask) (done : k.run lines = some k') :
    k'.rules family = rules.foldl (fun rs r => insertRule r rs) (k.rules family) := by
  induction adds generalizing k with
  | nil =>
    cases done
    rfl
  | cons read keeps _ ih =>
    obtain ⟨k₁, one, others⟩ := bind_eq_some_iff.mp done
    rw [Kernel.ip, read] at one
    obtain ⟨same, first⟩ := Kernel.execute_rules keeps one family
    rw [ih (same.trans reports) others, first, foldl_append, reports]

end Adds

end Sora.Lib.Route
