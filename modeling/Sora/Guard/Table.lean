import Sora.Guard.Nftables

/-!
# Installing and removing the kill-switch table

`Arm` and `Disarm` of the Linux guard against the tables in force.  A file that defines a table
adds to an existing one and deleting a missing table fails, so the guard replaces its rules
only where it finds no table, and removes the table only where it finds one.
-/

namespace Sora.Guard

open Sora.Lib Sora.Lib.Nft Option

/-! ## The guard -/

inductive FirewallError where
  | noUser
  | refused
  | panicked
  deriving DecidableEq

structure Nftables where
  uid : Int
  bypass : List Bytes
  armed : Bool := false
  blocked : List Prefix := []

/-- `NewNftables`. -/
def newNftables (uid : Int) (bypass : List Bytes) : Except FirewallError Nftables :=
  if uid < 0 then .error .noUser
  else .ok { uid := uid, bypass := if bypass.length = 0 then defaultBypassNetworks else bypass }

/-- The guard and the tables in force. -/
structure Host where
  guard : Nftables
  tables : Ruleset

/-- What `Arm` prints. -/
def Nftables.ruleset (n : Nftables) : Option Bytes := nftRuleset n.uid n.bypass n.blocked

namespace Host

/-- `SetBlockedNetworks`. -/
def setBlockedNetworks (networks : List Prefix) (h : Host) : Host :=
  { h with guard := { h.guard with blocked := networks } }

/-- `apply`, for an `nft` that can be run or not. -/
def apply (runs : Bool) (text : Bytes) (h : Host) : Except FirewallError Host :=
  match h.tables.load text with
  | some tables => if runs then .ok { h with tables := tables } else .error .refused
  | none => .error .refused

/-- `Arm`. -/
def arm (runs : Bool) (h : Host) : Except FirewallError Host :=
  match h.guard.ruleset with
  | none => .error .panicked
  | some text => do
    let h ← h.apply runs text
    .ok { h with guard := { h.guard with armed := true } }

/-- `Disarm`. -/
def disarm (runs : Bool) (h : Host) : Except FirewallError Host := do
  let h ← h.apply runs nftRemove
  .ok { h with guard := { h.guard with armed := false } }

end Host

/-! ## Runs -/

inductive FirewallCall where
  | setBlockedNetworks (networks : List Prefix)
  | arm (runs : Bool)
  | disarm (runs : Bool)

def FirewallCall.perform : FirewallCall → Host → Except FirewallError Host
  | .setBlockedNetworks networks, h => .ok (h.setBlockedNetworks networks)
  | .arm runs, h => h.arm runs
  | .disarm runs, h => h.disarm runs

/-- A call, where it was made and what came of it. -/
structure FirewallEntry where
  before : Host
  call : FirewallCall
  result : Except FirewallError Host

/-- A failed call leaves everything as it was. -/
def FirewallEntry.after (e : FirewallEntry) : Host :=
  match e.result with
  | .ok h => h
  | .error _ => e.before

/-- The calls made so far, the last one first, and where they have led. -/
inductive FirewallRun (start : Host) : List FirewallEntry → Host → Prop where
  | start : FirewallRun start [] start
  | call {entries : List FirewallEntry} {h : Host} (run : FirewallRun start entries h)
      (call : FirewallCall) :
    FirewallRun start (⟨h, call, call.perform h⟩ :: entries)
      (FirewallEntry.after ⟨h, call, call.perform h⟩)

/-- The table holds the rules of this text and nothing else. -/
def InForce (text : Bytes) (tables : Ruleset) : Prop :=
  ∃ chain, readTable text = some ⟨nftTable, nftChain, chain⟩ ∧
    tables nftTable = some (Function.update (fun _ => none) nftChain (some chain))

/-- The text of the last `Arm` that succeeded since the last `Disarm` that did, and whether
there was either. -/
def lastRuleset : List FirewallEntry → Option (Option Bytes)
  | [] => none
  | ⟨h, .arm _, .ok _⟩ :: _ => some h.guard.ruleset
  | ⟨_, .disarm _, .ok _⟩ :: _ => some none
  | _ :: entries => lastRuleset entries

/-- What the calls so far should have led to. -/
def Replaced (entries : List FirewallEntry) (h : Host) : Prop :=
  match lastRuleset entries with
  | some (some text) => InForce text h.tables
  | some none => h.tables nftTable = none
  | none => True

/-- `Arm` without a table, `Disarm` with one. -/
def FirewallEntry.Fits (e : FirewallEntry) : Prop :=
  match e.call with
  | .setBlockedNetworks _ => True
  | .arm _ => e.before.tables nftTable = none
  | .disarm _ => e.before.tables nftTable ≠ none

/-- `Disarm` succeeds whenever `nft` can be run. -/
def FirewallEntry.Succeeds (e : FirewallEntry) : Prop :=
  match e.call with
  | .disarm true => ∃ h, e.result = .ok h ∧ h.tables nftTable = none
  | _ => True

/-! ## One call -/

theorem areLines_openingLines : AreLines openingLines
    [[.word (ascii "table"), .word (ascii "inet"), .word nftTable, .punct 123],
      [.word (ascii "chain"), .word nftChain, .punct 123], hookLine (ascii "accept")] :=
  ⟨by decide, by decide⟩

variable {n : Nftables} {text : Bytes} {runs : Bool} {h h' : Host} {entries : List FirewallEntry}
    {start : Host}

theorem ruleset_opening (printed : n.ruleset = some text) :
    ∃ rest, text = openingLines ++ rest := by
  obtain ⟨uid, -, written⟩ := bind_eq_some_iff.mp printed
  exact ⟨_, (Option.some.inj written).symm⟩

/-- Whatever the networks are, the text defines the chain of the kill switch. -/
theorem readTable_ruleset {table : Table} (printed : n.ruleset = some text)
    (read : readTable text = some table) : table.name = nftTable ∧ table.chainName = nftChain := by
  obtain ⟨rest, rfl⟩ := ruleset_opening printed
  rw [areLines_openingLines.readTable_append] at read
  obtain ⟨tokens, -, read⟩ := bind_eq_some_iff.mp read
  simp only [List.cons_append, readLines, and_self, if_true] at read
  obtain ⟨policy, -, read⟩ := bind_eq_some_iff.mp read
  obtain ⟨rules, -, read⟩ := bind_eq_some_iff.mp read
  cases read
  exact ⟨rfl, rfl⟩

theorem readDelete_ruleset (printed : n.ruleset = some text) : readDelete text = none := by
  obtain ⟨rest, rfl⟩ := ruleset_opening printed
  rw [readDelete, areLines_openingLines.lexes.lex_append]
  cases lex rest with
  | none | some tokens => rfl

theorem load_nftRemove (tables : Ruleset) :
    tables.load nftRemove =
      if (tables nftTable).isSome then some (Function.update tables nftTable none) else none := by
  have noTable : readTable nftRemove = none := by decide
  have deletes : readDelete nftRemove = some nftTable := by decide
  rw [Ruleset.load, noTable, deletes]

/-- An `Arm` that succeeds has loaded its text. -/
theorem arm_ok (armed : h.arm runs = .ok h') :
    ∃ text, h.guard.ruleset = some text ∧ h.tables.load text = some h'.tables := by
  unfold Host.arm at armed
  split at armed
  · cases armed
  · rename_i text printed
    refine ⟨text, printed, ?_⟩
    unfold Host.apply at armed
    split at armed
    · rename_i tables loaded
      cases runs with
      | false => cases armed
      | true =>
        cases armed
        exact loaded
    · cases armed

/-- Where there is no table, `Arm` installs exactly its own rules. -/
theorem arm_inForce (absent : h.tables nftTable = none) (armed : h.arm runs = .ok h') :
    ∃ text, h.guard.ruleset = some text ∧ InForce text h'.tables := by
  obtain ⟨text, printed, loaded⟩ := arm_ok armed
  refine ⟨text, printed, ?_⟩
  rw [Ruleset.load, readDelete_ruleset printed] at loaded
  cases read : readTable text with
  | none =>
    rw [read] at loaded
    cases loaded
  | some table =>
    rw [read] at loaded
    obtain ⟨name, chainName⟩ := readTable_ruleset printed read
    obtain ⟨name', chainName', chain⟩ := table
    obtain rfl : name' = nftTable := name
    obtain rfl : chainName' = nftChain := chainName
    refine ⟨chain, read, ?_⟩
    rw [← Option.some.inj loaded]
    simp [Ruleset.add, absent]

/-- A `Disarm` that succeeds leaves no table. -/
theorem disarm_ok (disarmed : h.disarm runs = .ok h') : h'.tables nftTable = none := by
  simp only [Host.disarm, Host.apply, load_nftRemove] at disarmed
  cases present : (h.tables nftTable).isSome <;> cases runs <;>
    simp only [present] at disarmed <;> cases disarmed
  simp

/-- Where there is a table, `Disarm` succeeds if `nft` can be run. -/
theorem disarm_succeeds (present : h.tables nftTable ≠ none) : ∃ h', h.disarm true = .ok h' := by
  have some : (h.tables nftTable).isSome = true := isSome_iff_ne_none.mpr present
  simp only [Host.disarm, Host.apply, load_nftRemove, some]
  exact ⟨_, rfl⟩

/-! ## All calls -/

theorem FirewallRun.replaced (run : FirewallRun start entries h) (fit : ∀ e ∈ entries, e.Fits) :
    Replaced entries h := by
  induction run with
  | start => trivial
  | @call entries h run call ih =>
    have before := ih fun e member => fit e (List.mem_cons_of_mem _ member)
    have fits := fit _ List.mem_cons_self
    cases call with
    | setBlockedNetworks networks => exact before
    | arm runs =>
      simp only [FirewallCall.perform]
      cases armed : h.arm runs with
      | error e => exact before
      | ok h' =>
        obtain ⟨text, printed, inForce⟩ := arm_inForce fits armed
        simp only [Replaced, lastRuleset, printed]
        exact inForce
    | disarm runs =>
      simp only [FirewallCall.perform]
      cases disarmed : h.disarm runs with
      | error e => exact before
      | ok h' => exact disarm_ok disarmed

theorem FirewallRun.succeeds (run : FirewallRun start entries h) (fit : ∀ e ∈ entries, e.Fits) :
    ∀ e ∈ entries, e.Succeeds := by
  induction run with
  | start => exact fun e member => nomatch member
  | @call entries h run call ih =>
    have fits := fit _ List.mem_cons_self
    refine List.forall_mem_cons.mpr ⟨?_, ih fun e member => fit e (List.mem_cons_of_mem _ member)⟩
    cases call with
    | setBlockedNetworks networks | arm runs => trivial
    | disarm runs =>
      cases runs with
      | false => trivial
      | true =>
        obtain ⟨h', disarmed⟩ := disarm_succeeds fits
        exact ⟨h', disarmed, disarm_ok disarmed⟩

/-- From any tables and over any calls, each `Arm` made where there is no table and each
`Disarm` where there is one: the rules of the last `Arm` that succeeded are in force, exactly,
until a `Disarm` succeeds, which leaves no table, and every `Disarm` for which `nft` runs
succeeds. -/
theorem table_holds_last_ruleset (start h : Host) (entries : List FirewallEntry)
    (run : FirewallRun start entries h) (fit : ∀ e ∈ entries, e.Fits) :
    Replaced entries h ∧ ∀ e ∈ entries, e.Succeeds :=
  ⟨run.replaced fit, run.succeeds fit⟩

/-- With networks that can be read, `Arm` succeeds if `nft` can be run. -/
theorem arm_succeeds {uid : Nat} (bound : uid < 2 ^ 63) (bypass : List BypassNetwork)
    (user : h.guard.uid = uid) (networks : h.guard.bypass = bypass.map (·.text)) :
    ∃ h', h.arm true = .ok h' ∧ h'.tables = h.tables.add ⟨nftTable, nftChain, .accept,
      nftRules uid ((effectiveBypass bypass).map (·.network)) h.guard.blocked⟩ := by
  obtain ⟨text, printed, read⟩ :=
    bind_eq_some_iff.mp (readTable_nftRuleset bound bypass h.guard.blocked)
  have prints : h.guard.ruleset = some text := by rw [Nftables.ruleset, user, networks, printed]
  simp only [Host.arm, prints, Host.apply, Ruleset.load, read]
  exact ⟨_, rfl, rfl⟩

def newService (tables : Ruleset) : Host :=
  { guard := { uid := 0, bypass := defaultBypass.map (·.text) }, tables := tables }

/-- What a crashed service has left. -/
def leftover : Ruleset :=
  Ruleset.add (fun _ => none) ⟨nftTable, nftChain, .accept,
    nftRules 0 (defaultBypass.map (·.network)) []⟩

/-- `Arm` adds to the rules of a crashed service, and `Disarm` fails without a table. -/
theorem arm_keeps_leftover :
    (∃ h text, (newService leftover).arm true = .ok h ∧
      (newService leftover).guard.ruleset = some text ∧ ¬ InForce text h.tables) ∧
    (newService fun _ => none).disarm true = .error .refused := by
  refine ⟨?_, ?_⟩
  · obtain ⟨h, armed, tables⟩ := arm_succeeds (by decide) defaultBypass
      (rfl : (newService leftover).guard.uid = (0 : Nat)) rfl
    obtain ⟨text, printed, read⟩ :=
      bind_eq_some_iff.mp (readTable_nftRuleset (by decide : 0 < 2 ^ 63) defaultBypass [])
    refine ⟨h, text, armed, printed, ?_⟩
    rintro ⟨chain, reads, inForce⟩
    obtain rfl := congrArg Table.chain (Option.some.inj (read.symm.trans reads))
    rw [tables] at inForce
    -- the chain has the rules of both services, so it is longer than the text
    have rules := congrArg (fun chains => ((chains.bind (· nftChain)).elim [] Chain.rules).length)
      inForce
    simp [newService, leftover, Ruleset.add, nftRules] at rules
    omega
  · rfl

theorem FirewallRun.succeeded
    (run : FirewallRun start entries h) (call : FirewallCall) (ok : call.perform h = .ok h') :
    FirewallRun start (⟨h, call, .ok h'⟩ :: entries) h' := by
  have next := run.call call
  rw [ok] at next
  exact next

/-- Armed without a table, and disarmed. -/
theorem armed_then_disarmed :
    ∃ armed disarmed text, (newService fun _ => none).arm true = .ok armed ∧
      (newService fun _ => none).guard.ruleset = some text ∧ InForce text armed.tables ∧
      armed.disarm true = .ok disarmed ∧ disarmed.tables nftTable = none := by
  obtain ⟨armed, arms, -⟩ := arm_succeeds (by decide) defaultBypass
    (rfl : (newService fun _ => none).guard.uid = (0 : Nat)) rfl
  have absent : (newService fun _ => none).tables nftTable = none := rfl
  generalize newService (fun _ => none) = service at *
  obtain ⟨text, printed, chain, -, inForce⟩ := arm_inForce absent arms
  have present : armed.tables nftTable ≠ none := by simp [inForce]
  obtain ⟨disarmed, disarms⟩ := disarm_succeeds present
  have arming := FirewallRun.start.succeeded (.arm true) arms
  have disarming := arming.succeeded (.disarm true) disarms
  have fits : ∀ e ∈ [FirewallEntry.mk service (.arm true) (.ok armed)], e.Fits :=
    List.forall_mem_cons.mpr ⟨absent, List.forall_mem_nil _⟩
  obtain ⟨held, -⟩ := table_holds_last_ruleset service armed _ arming fits
  obtain ⟨gone, -⟩ := table_holds_last_ruleset service disarmed _ disarming
    (List.forall_mem_cons.mpr ⟨present, fits⟩)
  simp only [Replaced, lastRuleset, printed] at held
  exact ⟨armed, disarmed, text, arms, printed, held, disarms, gone⟩

end Sora.Guard
