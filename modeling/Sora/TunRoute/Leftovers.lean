import Sora.TunRoute.Cleanup
import Sora.TunRoute.Lookup

/-!
# Whose rules `unroute` removes

A recognised rule carries the owner protocol, is a rule of an earlier version or is the packet
engine's (`Recognised.owned`).  What `route` installs is recognised (`Recognised.of_standing`),
so it is deleted unless a rule before it resembles it (`Resembles`).
-/

namespace Sora.TunRoute

open Sora.Lib Sora.Lib.Route Sora.Engine List Function
open Option hiding or_assoc

/-! ## Recognised rules -/

/-- A rule that carries the owner protocol at a reserved priority. -/
def Marked (r : Rule) : Prop :=
  r.protocol = 242 ∧ 5333 ≤ r.priority ∧ r.priority ≤ 5339 ∧
    (r.action = .goto 5338 ∨ r.action = .lookup 5340 ∨ r.action = .lookup tableMain)

/-- The protocols that rules without owner have. -/
def Unowned (r : Rule) : Prop := r.protocol = 0 ∨ r.protocol = 2

/-- The packet engine's rule for its adapter, and nothing more. -/
def OfEngine (r : Rule) : Prop :=
  0 < r.priority ∧ Unowned r ∧ ∃ t, (t = 5340 ∨ t = 2022) ∧
    r = { priority := r.priority, oif := some tunDevice, action := .lookup t,
          protocol := r.protocol }

/-- The rules that earlier versions installed, and nothing more. -/
inductive Legacy (uid : Nat) : Rule → Prop where
  | bound (device : Bytes) (p : Nat) : Legacy uid
    { priority := 5333, oif := some device, action := .lookup tableMain, protocol := p }
  | foreign (source : IP) (p : Nat) : Legacy uid
    { priority := 5334, src := some (host source), action := .lookup tableMain, protocol := p }
  | reply (source : IP) (p : Nat) : Legacy uid
    { priority := 5335, src := some (host source), action := .lookup 5340, protocol := p }
  | engine (p : Nat) : Legacy uid
    { priority := 5336, uids := some (uid, uid), action := .lookup tableMain, protocol := p }
  | dns (mask : Option Nat) (p : Nat) : Legacy uid
    { priority := 5337, iif := some (ascii "lo"), ipproto := some 17, dport := some 53,
      dportMask := mask, action := .lookup 5340, protocol := p }
  | main (p : Nat) : Legacy uid
    { priority := 5338, iif := some (ascii "lo"), action := .lookup tableMain, suppress := some 0,
      protocol := p }
  | tunnel (p : Nat) : Legacy uid
    { priority := 5339, iif := some (ascii "lo"), action := .lookup 5340, protocol := p }

/-- What `unroute` takes for its own. -/
def Owned (uid : Nat) (r : Rule) : Prop :=
  Marked r ∨ OfEngine r ∨ Unowned r ∧ Legacy uid r

variable {n uid : Nat} {l : Listing} {r : Rule} {key : Attr} {family : Family} {keys : List Attr}

theorem atoi_numeral (fits : n < 2 ^ 63) : atoi (numeral 10 n) = some (n : Int) := by
  have digits : ∀ c ∈ numeral 10 n, isDigit 10 c = true :=
    isDigit_of_mem_numeral (by decide) (by decide)
  obtain ⟨c, rest, unfolded⟩ := exists_cons_of_ne_nil (numeral_ne_nil : numeral 10 n ≠ [])
  have first : isDigit 10 c = true := digits c (by simp [unfolded])
  have unsigned : c ≠ 45 ∧ c ≠ 43 := by
    constructor <;> rintro rfl <;> cases first
  have read : ((if numeral 10 n ≠ [] ∧ (numeral 10 n).all (isDigit 10) = true then
      some (numValue 10 (numeral 10 n)) else none).bind fun n =>
        if n < 2 ^ 63 then some (n : Int) else none) = some (n : Int) := by
    rw [if_pos ⟨numeral_ne_nil, all_eq_true.mpr digits⟩, bind_some,
      numValue_numeral (by decide) (by decide), if_pos fits]
  rw [unfolded] at read ⊢
  simpa [atoi, unsigned] using read

theorem atoi_priority (valid : Valid family r) :
    atoi (value (attributes l r) .priority) = some (r.priority : Int) := by
  rw [value_priority]
  exact atoi_numeral (Nat.lt_of_le_of_lt valid.priority (by decide))

/-- The value of a numeral attribute names its number. -/
theorem eq_some_of_numeral {o : Option Nat}
    (same : (o.map fun m => numeral 10 m).getD [] = numeral 10 n) : o = some n := by
  cases o with
  | none => exact absurd same.symm numeral_ne_nil
  | some m => rw [numeral_injective same]

theorem protocol_eq (same : value (attributes l r) .protocol = numeral 10 n) : r.protocol = n := by
  rw [value_protocol] at same
  split at same
  · exact absurd same.symm numeral_ne_nil
  · exact numeral_injective same

theorem unowned_of_value (named : value (attributes l r) .protocol = [] ∨ value (attributes l r)
    .protocol = ascii "0" ∨ value (attributes l r) .protocol = ascii "2") : Unowned r := by
  rcases named with hidden | zero | two
  · rw [value_protocol] at hidden
    split at hidden
    · rename_i unset
      exact .inl unset.1
    · exact absurd hidden numeral_ne_nil
  · exact .inl (protocol_eq zero)
  · exact .inr (protocol_eq two)

theorem src_eq_none (all : value (attributes l r) .src = ascii "all") : r.src = none := by
  rw [value_src] at all
  cases at_p : r.src with
  | none => rfl
  | some p =>
    rw [at_p] at all
    exact absurd all (formatIP_ne_all p.ip)

theorem entry_absent {allowed : List Attr} (only : ∀ a ∈ attributes l r, a.1 ∈ allowed)
    {raw : Option Bytes} (entry : (key, raw) ∈ entries l r) (outside : key ∉ allowed) :
    raw = none := by
  cases raw with
  | none => rfl
  | some text => exact absurd (only (key, text) (mem_attributes.mpr (.inl entry))) outside

theorem length_attributes (l : Listing) (r : Rule) : (attributes l r).length =
    ((entries l r).map fun e => e.2.isSome.toNat).sum + (further l r).length := by
  have listed : ∀ es : List (Attr × Option Bytes),
      (es.flatMap fun e => optional e.1 e.2).length = (es.map fun e => e.2.isSome.toNat).sum := by
    intro es
    induction es with
    | nil => rfl
    | cons e es ih =>
      obtain ⟨key, raw⟩ := e
      rw [flatMap_cons, length_append, ih]
      cases raw <;> simp [optional]
  rw [attributes, length_append, listed]

/-- A rule of the engine's kind has no further attributes. -/
theorem engine_owned (valid : Valid family r) (familiar : Familiar l r)
    (owned : engineOwned r.priority (attributes l r) = true) : OfEngine r := by
  simp only [engineOwned, Bool.and_eq_true, Bool.or_eq_true, beq_iff_eq, decide_eq_true_eq] at owned
  obtain ⟨⟨⟨⟨⟨positive, device⟩, all⟩, table⟩, named⟩, length⟩ := owned
  have src := src_eq_none all
  have oif : r.oif = some tunDevice := by
    rw [value_oif valid] at device
    cases at_name : r.oif with
    | none =>
      rw [at_name] at device
      exact absurd device.symm (by decide)
    | some name =>
      rw [at_name] at device
      exact congrArg some device
  have looks : ∃ t, (t = 5340 ∨ t = 2022) ∧ r.action = .lookup t := by
    rw [value_table] at table
    rcases table with own | shared
    · exact ⟨5340, .inl rfl, lookupTable_eq (eq_some_of_numeral own)⟩
    · exact ⟨2022, .inr rfl, lookupTable_eq (eq_some_of_numeral shared)⟩
  obtain ⟨t, which, looks⟩ := looks
  have unowned : Unowned r := unowned_of_value (by simpa only [or_assoc] using named)
  have detached : (attributes l r).lookup .oifDetached =
      if l.missing tunDevice = true then some null else none := by
    rw [attributes, lookup_entries (entries_distinct l r) (lookup_further (by simp) l r)]
    change (some ((r.oif.filter l.missing).map fun _ => null)).join = _
    cases lost : l.missing tunDevice <;> simp [oif, lost]
  -- the four attributes it has, the two it may have, and the rest
  have count : 4 + (if l.missing tunDevice = true then 1 else 0) +
      (if r.protocol = 0 ∧ l.zero = false then 0 else 1) + (r.dst.isSome.toNat +
      r.iif.isSome.toNat + r.uids.isSome.toNat + r.ipproto.isSome.toNat + r.dport.isSome.toNat +
      r.dportMask.isSome.toNat + r.suppress.isSome.toNat) ≤ (attributes l r).length := by
    rw [length_attributes]
    have lost : ((some tunDevice).filter l.missing).isSome.toNat =
        if l.missing tunDevice = true then 1 else 0 := by
      cases lost : l.missing tunDevice <;> simp [lost]
    have shown : (if r.protocol = 0 ∧ l.zero = false then none
        else some (quote (numeral 10 r.protocol))).isSome.toNat =
        if r.protocol = 0 ∧ l.zero = false then 0 else 1 := by
      split <;> rfl
    simp only [entries, map_cons, sum_cons, sum_nil, lost,
      isSome_map, oif, looks, lookupTable, isSome_some, Bool.toNat_true]
    omega
  have rest : r.dst.isSome.toNat + r.iif.isSome.toNat + r.uids.isSome.toNat +
      r.ipproto.isSome.toNat + r.dport.isSome.toNat + r.dportMask.isSome.toNat +
      r.suppress.isSome.toNat = 0 := by
    rw [value_protocol, detached] at length
    cases lost : l.missing tunDevice <;> by_cases hidden : r.protocol = 0 ∧ l.zero = false <;>
      simp [lost, hidden] at length count <;> omega
  have none_of : ∀ {α : Type} (o : Option α), o.isSome.toNat = 0 → o = none := by
    intro α o empty
    cases o with
    | none => rfl
    | some a => cases empty
  refine ⟨by omega, unowned, t, which, ?_⟩
  have dst := none_of r.dst (by omega)
  have iif := none_of r.iif (by omega)
  have uids := none_of r.uids (by omega)
  have ipproto := none_of r.ipproto (by omega)
  have dport := none_of r.dport (by omega)
  have dportMask := none_of r.dportMask (by omega)
  have suppress := none_of r.suppress (by omega)
  have other := familiar.other
  cases r
  subst src oif looks dst iif uids ipproto dport dportMask suppress other
  rfl

/-- What a rule of an earlier version has none of beside what its place allows. -/
structure Bare (keys : List Attr) (r : Rule) : Prop where
  dst : .dst ∉ keys → r.dst = none
  iif : .iif ∉ keys → r.iif = none
  oif : .oif ∉ keys → r.oif = none
  uids : .uidStart ∉ keys → r.uids = none
  ipproto : .ipproto ∉ keys → r.ipproto = none
  dport : .dport ∉ keys → r.dport = none
  dportMask : .dportMask ∉ keys → r.dportMask = none
  suppress : .suppressPrefixlen ∉ keys → r.suppress = none

theorem bare_of_only
    (only : ∀ a ∈ attributes l r, a.1 ∈ [.priority, .src, .table, .protocol] ++ keys) :
    Bare keys r := by
  have absent : ∀ {α : Type} {field : Option α} {key : Attr} {f : α → Bytes},
      (key, field.map f) ∈ entries l r → key ∉ [.priority, .src, .table, .protocol] →
      key ∉ keys → field = none := by
    intro α field key f entry fixed outside
    refine map_eq_none_iff.mp (entry_absent only entry fun member => ?_)
    exact (mem_append.mp member).elim fixed outside
  constructor
  · exact absent (f := fun p => quote (formatIP p.ip)) (by simp [entries]) (by decide)
  · exact absent (f := quote) (by simp [entries]) (by decide)
  · exact absent (f := quote) (by simp [entries]) (by decide)
  · exact absent (f := fun range => numeral 10 range.1) (by simp [entries]) (by decide)
  · exact absent (f := fun n => quote (ascii "ipproto-" ++ numeral 10 n)) (by simp [entries])
      (by decide)
  · exact absent (f := fun n => numeral 10 n) (by simp [entries]) (by decide)
  · exact absent (f := fun n => quote (ascii "0x" ++ numeral 16 n)) (by simp [entries])
      (by decide)
  · exact absent (f := fun n => numeral 10 n) (by simp [entries]) (by decide)

/-- Such a rule, with what its place allows. -/
theorem Bare.shape (bare : Bare keys r) (other : r.other = []) : r =
    { priority := r.priority
      src := r.src
      dst := if .dst ∈ keys then r.dst else none
      iif := if .iif ∈ keys then r.iif else none
      oif := if .oif ∈ keys then r.oif else none
      uids := if .uidStart ∈ keys then r.uids else none
      ipproto := if .ipproto ∈ keys then r.ipproto else none
      dport := if .dport ∈ keys then r.dport else none
      dportMask := if .dportMask ∈ keys then r.dportMask else none
      action := r.action
      suppress := if .suppressPrefixlen ∈ keys then r.suppress else none
      protocol := r.protocol } := by
  have held : ∀ {α : Type} {o : Option α} {key : Attr}, (key ∉ keys → o = none) →
      o = if key ∈ keys then o else none := by
    intro α o key absent
    split
    · rfl
    · exact absent ‹_›
  exact Rule.ext rfl rfl (held bare.dst) (held bare.iif) (held bare.oif) (held bare.uids)
    (held bare.ipproto) (held bare.dport) (held bare.dportMask) rfl (held bare.suppress) rfl other

theorem action_eq (named : value (attributes l r) .table = numeral 10 n) :
    r.action = .lookup n := by
  rw [value_table] at named
  exact lookupTable_eq (eq_some_of_numeral named)

theorem src_eq_host (familiar : Familiar l r)
    (sourced : value (attributes l r) .src ≠ ascii "all") :
    ∃ ip, r.src = some (host ip) := by
  rw [value_src] at sourced
  cases at_p : r.src with
  | none => exact absurd (by rw [at_p]; rfl) sourced
  | some p => exact ⟨p.ip, congrArg some (familiar.src p at_p)⟩

theorem legacy_owned (valid : Valid family r) (familiar : Familiar l r)
    (shape : legacyKeys uid r.priority (attributes l r) = some keys)
    (only : ∀ a ∈ attributes l r, a.1 ∈ [.priority, .src, .table, .protocol] ++ keys) :
    Legacy uid r := by
  have bare := bare_of_only only
  have other := familiar.other
  have toMain : value (attributes l r) .table = ascii "254" → r.action = .lookup tableMain :=
    action_eq (n := tableMain)
  have toTunnel : value (attributes l r) .table = table → r.action = .lookup 5340 :=
    action_eq (n := 5340)
  have loopback : value (attributes l r) .iif = ascii "lo" → r.iif = some (ascii "lo") := by
    rw [value_iif valid]
    cases r.iif with
    | none => exact (nomatch ·)
    | some name => exact congrArg some
  simp only [legacyKeys] at shape
  split at shape
  case isTrue first =>
    obtain ⟨at_5333, looks, all, device⟩ := first
    cases shape
    obtain ⟨name, oif⟩ : ∃ name, r.oif = some name := by
      rw [value_oif valid] at device
      exact ne_none_iff_exists'.mp fun unset => device (by rw [unset]; rfl)
    rw [bare.shape other, Int.ofNat.inj at_5333, src_eq_none all, oif, toMain looks]
    exact .bound name r.protocol
  split at shape
  case isTrue second =>
    obtain ⟨at_5334, looks, sourced, -⟩ := second
    cases shape
    obtain ⟨source, src⟩ := src_eq_host familiar sourced
    rw [bare.shape other, Int.ofNat.inj at_5334, src, toMain looks]
    exact .foreign source r.protocol
  split at shape
  case isTrue third =>
    obtain ⟨at_5335, looks, sourced, -⟩ := third
    cases shape
    obtain ⟨source, src⟩ := src_eq_host familiar sourced
    rw [bare.shape other, Int.ofNat.inj at_5335, src, toTunnel looks]
    exact .reply source r.protocol
  split at shape
  case isTrue fourth =>
    obtain ⟨at_5336, looks, all, first, last⟩ := fourth
    cases shape
    have uids : r.uids = some (uid, uid) := by
      rw [value_uidStart] at first
      rw [value_uidStart, value_uidEnd] at last
      cases owned : r.uids with
      | none =>
        rw [owned] at first
        exact absurd first.symm numeral_ne_nil
      | some range =>
        rw [owned] at first last
        have low : range.1 = uid := numeral_injective first
        have high : range.2 = range.1 := numeral_injective last
        rw [show range = (uid, uid) from Prod.ext low (high.trans low)]
    rw [bare.shape other, Int.ofNat.inj at_5336, src_eq_none all, uids, toMain looks]
    exact .engine r.protocol
  split at shape
  case isTrue fifth =>
    obtain ⟨at_5337, -, looks, all, lo, udp, port⟩ := fifth
    cases shape
    have ipproto : r.ipproto = some 17 := by
      rw [value_ipproto] at udp
      cases transport : r.ipproto with
      | none =>
        rw [transport] at udp
        cases udp
      | some n =>
        rw [transport] at udp
        exact congrArg some (numeral_injective (append_cancel_left udp))
    have dport : r.dport = some 53 := by
      rw [value_dport] at port
      exact eq_some_of_numeral port
    rw [bare.shape other, Int.ofNat.inj at_5337, src_eq_none all, loopback lo, ipproto, dport,
      toTunnel looks]
    exact .dns r.dportMask r.protocol
  split at shape
  case isTrue sixth =>
    obtain ⟨at_5338, looks, all, lo, zero⟩ := sixth
    cases shape
    have suppress : r.suppress = some 0 := by
      rw [value_suppress] at zero
      exact eq_some_of_numeral zero
    rw [bare.shape other, Int.ofNat.inj at_5338, src_eq_none all, loopback lo, toMain looks,
      suppress]
    exact .main r.protocol
  split at shape
  case isTrue seventh =>
    obtain ⟨at_5339, looks, all, lo⟩ := seventh
    cases shape
    rw [bare.shape other, Int.ofNat.inj at_5339, src_eq_none all, loopback lo, toTunnel looks]
    exact .tunnel r.protocol
  cases shape

/-- A recognised rule is one of those. -/
theorem Recognised.owned (recognised : Recognised uid l r) (valid : Valid family r) :
    Owned uid r := by
  have familiar := recognised.familiar
  simp only [Recognised, ownedRule, atoi_priority valid] at recognised
  split at recognised
  · exact absurd rfl recognised
  split at recognised
  · rename_i owned
    exact .inr (.inl (engine_owned valid familiar owned))
  split at recognised
  · exact absurd rfl recognised
  rename_i range
  have within : 5333 ≤ r.priority ∧ r.priority ≤ 5339 := by omega
  split at recognised
  · rename_i jumps
    refine .inl ⟨protocol_eq jumps.1, within.1, within.2, .inl ?_⟩
    have target := jumps.2.1
    rw [value_goto] at target
    exact gotoTarget_eq (eq_some_of_numeral target)
  split at recognised
  · rename_i looks
    refine .inl ⟨protocol_eq looks.1, within.1, within.2, .inr ?_⟩
    rw [value_table] at looks
    rcases looks.2 with own | main
    · exact .inl (lookupTable_eq (eq_some_of_numeral own))
    · exact .inr (lookupTable_eq (eq_some_of_numeral main))
  split at recognised
  · exact absurd rfl recognised
  rename_i named
  split at recognised
  · exact absurd rfl recognised
  rename_i keys shape
  split at recognised
  · exact absurd rfl recognised
  rename_i only
  have unowned : Unowned r := unowned_of_value (by
    by_contra other
    exact named (by simpa only [not_or] using other))
  refine .inr (.inr ⟨unowned, legacy_owned valid familiar shape fun a member => ?_⟩)
  by_contra outside
  exact only (any_eq_true.mpr ⟨a, member, by simpa using outside⟩)

/-! ## What `route` installs -/

/-- The converse of `familiar_of_known`. -/
theorem Familiar.known (familiar : Familiar l r) :
    (attributes l r).any (fun a => !knownKeys.contains a.1) = false := by
  have nothing : further l r = [] := by
    rw [further, familiar.other, map_nil, append_nil]
    rcases familiar.action with ⟨t, looks⟩ | ⟨t, jumps, there⟩
    · rw [looks]
      rfl
    · rw [jumps, actionAttrs, if_pos there]
  have whole : ∀ p : Prefix, p = host p.ip → listedLength p = none := by
    intro p single
    rw [single]
    exact if_pos rfl
  have src : r.src.bind listedLength = none :=
    bind_eq_none_iff.mpr fun p at_p => whole p (familiar.src p at_p)
  have dst : r.dst.bind listedLength = none :=
    bind_eq_none_iff.mpr fun p at_p => whole p (familiar.dst p at_p)
  refine any_eq_false.mpr fun a member => ?_
  rcases mem_attributes.mp member with entry | more
  · rw [entries, src, dst] at entry
    have key : a.1 ∈ knownKeys := by
      simp only [mem_cons, Prod.mk.injEq, reduceCtorEq, and_false, not_mem_nil, or_false,
        false_or] at entry
      rcases entry with ⟨same, -⟩ | ⟨same, -⟩ | ⟨same, -⟩ | ⟨same, -⟩ | ⟨same, -⟩ | ⟨same, -⟩ |
        ⟨same, -⟩ | ⟨same, -⟩ | ⟨same, -⟩ | ⟨same, -⟩ | ⟨same, -⟩ | ⟨same, -⟩ | ⟨same, -⟩ |
        ⟨same, -⟩ | ⟨same, -⟩ | ⟨same, -⟩ <;> rw [same] <;> decide
    simpa using key
  · rw [nothing] at more
    cases more

theorem Marked.recognised (marked : Marked r) (valid : Valid family r) (familiar : Familiar l r) :
    Recognised uid l r := by
  obtain ⟨owner, low, high, action⟩ := marked
  have named : value (attributes l r) .protocol = protocol := by
    rw [value_protocol, owner]
    rfl
  have text : ruleSelectors (attributes l r) ≠ [] := by
    intro empty
    have reads := reads_ruleSelectors valid familiar familiar.known
    rw [empty] at reads
    have priority := congrArg (Option.map Selectors.priority) reads
    cases priority
  rw [Recognised, ownedRule]
  simp only [atoi_priority valid, named, if_neg text, true_and]
  split
  · exact text
  rw [if_neg (by omega)]
  rcases action with jumps | looks
  · rw [value_goto, value_table, jumps, if_pos ⟨rfl, rfl⟩]
    exact text
  · split
    · exact text
    rw [value_table, if_pos]
    · exact text
    · rcases looks with own | main
      · exact .inl (by rw [own]; rfl)
      · exact .inr (by rw [main]; rfl)

/-- A rule that some call of `route` installs, with the target of its jump in place. -/
def Standing (family : Family) (rules : List Rule) (r : Rule) : Prop :=
  (∃ (i : Installation) (mask : Option Nat), r ∈ i.rules mask family) ∧
    ∀ t, r.action = .goto t → ∃ x ∈ rules, x.priority = t

/-- What the rules of `route` have in common. -/
theorem Installation.rules_shape {i : Installation} {mask : Option Nat}
    (installed : r ∈ i.rules mask family) :
    Marked r ∧ (∀ p, r.src = some p → p = host p.ip) ∧ r.dst = none ∧ r.other = [] := by
  rcases mem_append.mp installed with first | own
  · rcases mem_append.mp first with exempt | engine
    · obtain ⟨iface, -, exempt⟩ := mem_flatMap.mp exempt
      rcases mem_cons.mp exempt with rfl | source
      · simp [Marked]
      · obtain ⟨p, -, rfl⟩ := mem_map.mp source
        simp [Marked, host]
    · obtain rfl := mem_singleton.mp engine
      simp [Marked]
  · simp only [familyRules, mem_cons, not_mem_nil, or_false] at own
    rcases own with rfl | rfl | rfl | rfl | rfl | rfl | rfl <;> simp [Marked, host]

def listing (missing : Bytes → Bool) (zero : Bool) (rules : List Rule) : Listing :=
  { missing := missing, target := fun n => rules.any (·.priority == n), zero := zero }

theorem Recognised.of_standing {missing : Bytes → Bool} {zero : Bool} {rules : List Rule}
    (standing : Standing family rules r) (valid : Valid family r) :
    Recognised uid (listing missing zero rules) r := by
  obtain ⟨⟨i, mask, installed⟩, target⟩ := standing
  obtain ⟨marked, src, dst, other⟩ := Installation.rules_shape installed
  refine marked.recognised valid ⟨src, by simp [dst], ?_, other⟩
  rcases marked.2.2.2 with jumps | looks | looks
  · obtain ⟨x, member, here⟩ := target 5338 jumps
    exact .inr ⟨5338, jumps, any_eq_true.mpr ⟨x, member, beq_iff_eq.mpr here⟩⟩
  · exact .inl ⟨_, looks⟩
  · exact .inl ⟨_, looks⟩

/-! ## Rules that stand in the way -/

/-- `x` agrees with every selector of `r`.  Networks are compared by their address, jumps by
being jumps, and interfaces whose names read like no selector are not compared. -/
structure Resembles (r x : Rule) : Prop where
  priority : x.priority = r.priority
  protocol : r.protocol ≠ 0 → x.protocol = r.protocol
  src : ∀ p, r.src = some p → ∃ q, x.src = some q ∧ q.ip = p.ip
  dst : ∀ p, r.dst = some p → ∃ q, x.dst = some q ∧ q.ip = p.ip
  iif : ∀ name, r.iif = some name → name ≠ ascii "all" → name ≠ ascii "0" → x.iif = some name
  oif : ∀ name, r.oif = some name → name ≠ ascii "all" → name ≠ ascii "0" → x.oif = some name
  uids : ∀ range, r.uids = some range → x.uids = some range
  ipproto : ∀ n, r.ipproto = some n → x.ipproto = some n
  dport : ∀ n, r.dport = some n → x.dport = some n
  dportMask : ∀ n, r.dportMask = some n → x.dportMask = some n
  table : ∀ t, r.action = .lookup t → x.action = .lookup t
  goto : ∀ t, r.action = .goto t → ∃ t', x.action = .goto t'
  suppress : ∀ n, r.suppress = some n → x.suppress = some n

/-- The converse of `matches_option`. -/
theorem exists_of_matches {α : Type} {o o' : Option α} {f : α → Bytes} {a : α}
    (hit : (wildcard key ((o.map f).getD []) || (o.map f).getD [] == (o'.map f).getD []) = true)
    (at_a : o = some a) (positive : wildcard key (f a) = false) : ∃ b, o' = some b ∧ f b = f a := by
  rw [at_a, map_some, getD_some, positive, Bool.false_or, beq_iff_eq] at hit
  cases o' with
  | none =>
    rw [hit] at positive
    cases positive
  | some b => exact ⟨b, rfl, hit.symm⟩

theorem wildcard_eq_false {v : Bytes} (shown : v ≠ []) (some_ : v ≠ ascii "all")
    (positive : v ≠ ascii "0") : wildcard key v = false := by
  simp [wildcard, shown, some_, positive]

theorem wildcard_formatIP (key : Attr) (ip : IP) : wildcard key (formatIP ip) = false := by
  have reads := parseNetwork_formatIP ip
  refine wildcard_eq_false ?_ ?_ ?_ <;> intro same <;> rw [same] at reads <;> cases reads

theorem wildcard_numeral (positive : zeroKeys.contains key = true ∨ 0 < n) :
    wildcard key (numeral 10 n) = false := by
  have word : numeral 10 n ≠ ascii "all" := numeral_ne (c := 97) rfl (by decide) n
  rcases positive with zero | above
  · simp [wildcard, numeral_ne_nil, word, contains_iff_mem.mp zero]
  · refine wildcard_eq_false numeral_ne_nil word fun same => ?_
    have zero : n = 0 := numeral_injective same
    omega

theorem formatIP_inj {a b : IP} (same : formatIP a = formatIP b) : a = b := by
  have reads := parseNetwork_formatIP a
  rw [same, parseNetwork_formatIP] at reads
  exact (congrArg Prefix.ip (Option.some.inj reads)).symm

section Resembling

variable {x : Rule}

theorem resembles_of_shields (valid : Valid family r) (valid' : Valid family x)
    (shield : shields l r x = true) : Resembles r x := by
  obtain ⟨keys, jumps⟩ := Bool.and_eq_true_iff.mp shield
  have hit : ∀ key ∈ matchKeys, (wildcard key (value (attributes l r) key) ||
      value (attributes l r) key == value (attributes l x) key) = true := all_eq_true.mp keys
  have number : ∀ {o o' : Option Nat} {key : Attr} {n : Nat},
      (wildcard key ((o.map fun n => numeral 10 n).getD []) ||
        (o.map fun n => numeral 10 n).getD [] == (o'.map fun n => numeral 10 n).getD []) = true →
      o = some n → zeroKeys.contains key = true ∨ 0 < n → o' = some n := by
    intro o o' key n hit at_n positive
    obtain ⟨m, at_m, same⟩ := exists_of_matches hit at_n (wildcard_numeral positive)
    rw [at_m, numeral_injective same]
  have name : ∀ {o o' : Option Bytes} {key : Attr} {w : Bytes},
      (wildcard key ((o.map id).getD []) || (o.map id).getD [] == (o'.map id).getD []) = true →
      o = some w → Plain w → w ≠ ascii "all" → w ≠ ascii "0" → o' = some w := by
    intro o o' key w hit at_w plain some_ positive
    obtain ⟨v, at_v, same⟩ := exists_of_matches hit at_w (wildcard_eq_false plain.1.1 some_ positive)
    exact at_v.trans (congrArg some same)
  constructor
  case priority =>
    have same := hit .priority (by decide)
    rw [value_priority, value_priority, wildcard_numeral (.inl (by decide))] at same
    exact (numeral_injective (by simpa using same)).symm
  case protocol =>
    intro set
    have same := hit .protocol (by decide)
    rw [value_protocol, if_neg fun unset => set unset.1,
      wildcard_numeral (.inr (Nat.pos_of_ne_zero set)), Bool.false_or, beq_iff_eq] at same
    exact protocol_eq same.symm
  case src =>
    intro p at_p
    have same := hit .src (by decide)
    rw [value_src, value_src, at_p, elim_some, wildcard_formatIP, Bool.false_or, beq_iff_eq] at same
    cases at_q : x.src with
    | none =>
      rw [at_q] at same
      exact absurd same (formatIP_ne_all p.ip)
    | some q =>
      rw [at_q] at same
      exact ⟨q, rfl, (formatIP_inj same).symm⟩
  case dst =>
    intro p at_p
    have same := hit .dst (by decide)
    rw [value_dst, value_dst] at same
    obtain ⟨q, at_q, alike⟩ := exists_of_matches same at_p (wildcard_formatIP .dst p.ip)
    exact ⟨q, at_q, formatIP_inj alike⟩
  case iif =>
    intro w at_w
    have same := hit .iif (by decide)
    rw [value_iif valid, value_iif valid'] at same
    exact name same at_w (valid.iif w at_w)
  case oif =>
    intro w at_w
    have same := hit .oif (by decide)
    rw [value_oif valid, value_oif valid'] at same
    exact name same at_w (valid.oif w at_w)
  case uids =>
    intro range at_range
    have first := hit .uidStart (by decide)
    have last := hit .uidEnd (by decide)
    rw [value_uidStart, value_uidStart] at first
    rw [value_uidEnd, value_uidEnd] at last
    obtain ⟨range', at_first, low⟩ :=
      exists_of_matches first at_range (wildcard_numeral (.inl (by decide)))
    obtain ⟨range'', at_last, high⟩ :=
      exists_of_matches last at_range (wildcard_numeral (.inl (by decide)))
    cases at_first.symm.trans at_last
    rw [at_first, Prod.ext (numeral_injective low) (numeral_injective high)]
  case ipproto =>
    intro n at_n
    have same := hit .ipproto (by decide)
    rw [value_ipproto, value_ipproto] at same
    have positive : wildcard .ipproto (ascii "ipproto-" ++ numeral 10 n) = false :=
      wildcard_eq_false (nomatch ·) (nomatch ·) (nomatch ·)
    obtain ⟨m, at_m, alike⟩ := exists_of_matches same at_n positive
    rw [at_m, numeral_injective (append_cancel_left alike)]
  case dport =>
    intro n at_n
    have same := hit .dport (by decide)
    rw [value_dport, value_dport] at same
    exact number same at_n (.inr (valid.dport n at_n).1)
  case dportMask =>
    intro n at_n
    have same := hit .dportMask (by decide)
    rw [value_dportMask, value_dportMask] at same
    have positive : wildcard .dportMask (ascii "0x" ++ numeral 16 n) = false :=
      wildcard_eq_false (nomatch ·) (nomatch ·) (nomatch ·)
    obtain ⟨m, at_m, alike⟩ := exists_of_matches same at_n positive
    have digits := congrArg (numValue 16) (append_cancel_left alike)
    rw [numValue_numeral (by decide) (by decide), numValue_numeral (by decide) (by decide)] at digits
    rw [at_m, digits]
  case table =>
    intro t looks
    have same := hit .table (by decide)
    rw [value_table, value_table] at same
    exact lookupTable_eq (number same (by rw [looks]; rfl) (.inr (valid.table t looks).1))
  case goto =>
    intro t looks
    rw [value_goto, value_goto, looks] at jumps
    cases target : gotoTarget x.action with
    | none =>
      rw [target] at jumps
      simp [gotoTarget, numeral_ne_nil] at jumps
    | some t' => exact ⟨t', gotoTarget_eq target⟩
  case suppress =>
    intro n at_n
    have same := hit .suppressPrefixlen (by decide)
    rw [value_suppress, value_suppress] at same
    exact number same at_n (.inl (by decide))

end Resembling

/-! ## The cleanup -/

section Cleanup

variable (uid : Nat) (missing : Bytes → Bool) (zero : Bool)

/-- What the cleanup leaves of a family's rules. -/
def left (fails : Nat → Bool) (rules : List Rule) : List Rule :=
  remaining uid (listing missing zero rules) fails 0 [] rules

theorem unrouteFamily_rules (fails : Nat → Bool) {k : Kernel}
    (valid : ∀ r ∈ k.rules family, Valid family r) :
    (unrouteFamily uid missing zero fails family k).rules =
      update k.rules family (left uid missing zero fails (k.rules family)) :=
  unrouteRules_rules (k.rules family) 0 [] k valid rfl

theorem left_sublist (fails : Nat → Bool) (rules : List Rule) :
    (left uid missing zero fails rules).Sublist rules :=
  (remaining_spec rules 0 []).1

/-- Each family is cleaned once, or not at all if its rules cannot be read. -/
theorem unroute_rules (reads : Family → Bool) (fails : Family → Nat → Bool) (family : Family)
    (all : List Family) : ∀ k : Kernel, all.Nodup →
    (∀ family, ∀ r ∈ k.rules family, Valid family r) →
    (family ∉ all → (unroute uid missing zero reads fails all k).rules family = k.rules family) ∧
    ((unroute uid missing zero reads fails all k).rules family = k.rules family ∨
      (unroute uid missing zero reads fails all k).rules family =
        left uid missing zero (fails family) (k.rules family)) ∧
    (family ∈ all → (∀ f, reads f = true) →
      (unroute uid missing zero reads fails all k).rules family =
        left uid missing zero (fails family) (k.rules family)) := by
  induction all with
  | nil => exact fun k _ _ => ⟨fun _ => rfl, .inl rfl, (nomatch ·)⟩
  | cons f rest ih =>
    intro k nodup valid
    obtain ⟨fresh, nodup⟩ := nodup_cons.mp nodup
    rw [unroute]
    split
    case isFalse unread =>
      exact ⟨fun _ => rfl, .inl rfl, fun _ readable => absurd (readable f) unread⟩
    have after := unrouteFamily_rules uid missing zero (fails f) (valid f)
    have valid' : ∀ g, ∀ r ∈ (unrouteFamily uid missing zero (fails f) f k).rules g,
        Valid g r := by
      intro g r member
      rw [after] at member
      by_cases same : g = f
      · subst same
        rw [update_self] at member
        exact valid g r ((left_sublist uid missing zero _ _).subset member)
      · rw [update_of_ne same] at member
        exact valid g r member
    obtain ⟨outside, either, inside⟩ := ih _ nodup valid'
    by_cases same : family = f
    · subst same
      have once := outside fresh
      rw [after, update_self] at once
      exact ⟨fun absent => absurd mem_cons_self absent, .inr once, fun _ _ => once⟩
    · rw [after, update_of_ne same] at outside either inside
      refine ⟨fun absent => outside fun member => absent (mem_cons_of_mem f member), either,
        fun member => inside ((mem_cons.mp member).resolve_left same)⟩

/-- A rule that is not recognised is left as often as it was there. -/
theorem count_left (fails : Nat → Bool) {rules : List Rule}
    (foreign : ¬ Recognised uid (listing missing zero rules) r) :
    (left uid missing zero fails rules).count r = rules.count r := by
  have same : (left uid missing zero fails rules).filter _ = rules.filter _ :=
    (remaining_spec rules 0 []).2
  have counts := congrArg (count r) same
  rwa [count_filter (by simpa using foreign), count_filter (by simpa using foreign)]
    at counts

theorem count_unowned (fails : Nat → Bool) {rules : List Rule} (valid : ∀ x ∈ rules, Valid family x)
    (unowned : ¬ Owned uid r) : (left uid missing zero fails rules).count r = rules.count r := by
  by_cases member : r ∈ rules
  · exact count_left uid missing zero fails fun recognised => unowned (recognised.owned (valid r member))
  · rw [count_eq_zero_of_not_mem member,
      count_eq_zero_of_not_mem fun there => member ((left_sublist uid missing zero fails rules).subset there)]

/-- The cleanup removes only rules that bear the owner protocol, rules of earlier versions and
the packet engine's, whichever commands fail.  When none does, a rule of `route` is left only
behind a rule that resembles it and is none. -/
theorem unroute_removes_own_rules (inet6 : Bool) (reads : Family → Bool)
    (fails : Family → Nat → Bool) (k : Kernel)
    (valid : ∀ family, ∀ r ∈ k.rules family, Valid family r) (family : Family) :
    let k' := unroute uid missing zero reads fails (families inet6) k
    (k'.rules family).Sublist (k.rules family) ∧
    (∀ r, ¬ Owned uid r → (k'.rules family).count r = (k.rules family).count r) ∧
    (family ∈ families inet6 → (∀ f, reads f = true) → (∀ n, fails family n = false) →
      ∀ before r after, k'.rules family = before ++ r :: after →
        Standing family (k.rules family) r →
        ∃ x ∈ before, ¬ Standing family (k.rules family) x ∧ Resembles r x) := by
  have nodup : (families inet6).Nodup := by cases inet6 <;> decide
  obtain ⟨-, either, inside⟩ :=
    unroute_rules uid missing zero reads fails family (families inet6) k nodup valid
  refine ⟨?_, fun r unowned => ?_, fun member readable succeeds before r after split standing => ?_⟩
  · rcases either with same | cleaned
    · rw [same]
    · rw [cleaned]
      exact left_sublist uid missing zero _ _
  · rcases either with same | cleaned
    · rw [same]
    · rw [cleaned]
      exact count_unowned uid missing zero (fails family) (valid family) unowned
  · have cleaned := inside member readable
    rw [funext succeeds] at cleaned
    have shielded : Shielded uid (listing missing zero (k.rules family))
        (left uid missing zero (fun _ => false) (k.rules family)) :=
      remaining_shielded (k.rules family) 0 [] fun before r after split => by simp at split
    have members : ∀ x ∈ before ++ r :: after, Valid family x := fun x there =>
      valid family x ((left_sublist uid missing zero _ _).subset (by rw [← cleaned, split]; exact there))
    have valid_r : Valid family r := members r (by simp)
    obtain ⟨x, first, foreign, shield⟩ := shielded before r after (cleaned.symm.trans split)
      (.of_standing standing valid_r)
    have valid_x : Valid family x := members x (mem_append_left _ first)
    exact ⟨x, first, fun own => foreign (.of_standing own valid_x),
      resembles_of_shields valid_r valid_x shield⟩

end Cleanup

/-- The rule for traffic to the tunnel, restricted to a packet mark. -/
def selectiveRule : Rule := { tunnelRule with other := [(ascii "fwmark", quote (ascii "0x7"))] }

/-- A machine where that rule stands before the one that `route` installed. -/
def shieldedKernel : Kernel where
  rules family := if family = .v4 then [selectiveRule, tunnelRule] else []
  tables _ _ := []
  mask := none

theorem valid_tunnelRule (other : List (Bytes × Bytes)) (family : Family) :
    Valid family { tunnelRule with other := other } := by
  constructor
  case iif =>
    rintro name ⟨⟩
    exact ⟨.of_all rfl, by decide⟩
  all_goals simp [word32]

theorem shielded_rule_stays :
    (unroute 0 (fun _ => false) true (fun _ => true) (fun _ _ => false) (families true)
      shieldedKernel).rules .v4 = [selectiveRule] ++ tunnelRule :: [] ∧
    ∃ x ∈ [selectiveRule], ¬ Standing .v4 (shieldedKernel.rules .v4) x ∧ Resembles tunnelRule x := by
  have valid : ∀ family, ∀ r ∈ shieldedKernel.rules family, Valid family r := by
    intro family r member
    cases family with
    | v4 =>
      have either : r = selectiveRule ∨ r = tunnelRule := by simpa [shieldedKernel] using member
      rcases either with rfl | rfl
      · exact valid_tunnelRule _ .v4
      · exact valid_tunnelRule [] .v4
    | v6 => cases member
  have stays : (unroute 0 (fun _ => false) true (fun _ => true) (fun _ _ => false) (families true)
      shieldedKernel).rules .v4 = [selectiveRule] ++ tunnelRule :: [] := by decide
  have standing : Standing .v4 (shieldedKernel.rules .v4) tunnelRule :=
    ⟨⟨plainInstallation, none, by simp [Installation.rules, familyRules]⟩, fun t => (nomatch ·)⟩
  exact ⟨stays, (unroute_removes_own_rules 0 (fun _ => false) true true (fun _ => true)
    (fun _ _ => false) shieldedKernel valid .v4).2.2 (by decide) (fun _ => rfl) (fun _ => rfl)
    _ _ _ stays standing⟩

/-- A rule with the owner protocol that `route` never installs. -/
def strayRule : Rule :=
  { priority := 5335, src := some (host server4), action := .lookup tableMain, protocol := 242 }

def strayKernel : Kernel where
  rules family := if family = .v4 then [localRule, strayRule, lastMainRule] else []
  tables _ _ := []
  mask := none

/-- The owner protocol alone makes a rule at a reserved priority one to remove. -/
theorem stray_rule_is_removed :
    (∀ i mask family, strayRule ∉ Installation.rules i mask family) ∧ ¬ OfEngine strayRule ∧
    (∀ uid, ¬ Legacy uid strayRule) ∧ strayRule ∈ strayKernel.rules .v4 ∧
    (unroute 0 (fun _ => false) true (fun _ => true) (fun _ _ => false) (families true)
      strayKernel).rules .v4 = [localRule, lastMainRule] := by
  refine ⟨fun i mask family installed => ?_, ?_, fun uid legacy => ?_, by decide, by decide +kernel⟩
  · rcases mem_append.mp installed with first | own
    · rcases mem_append.mp first with exempt | engine
      · have level := i.exemptions_priority _ exempt
        cases level
      · simp [strayRule, engineRule] at engine
    · simp [familyRules, strayRule, returnRule, dnsRule, dnsBypassRule, mainRule, tunnelRule] at own
  · rintro ⟨-, -, t, -, same⟩
    cases congrArg Rule.src same
  · cases legacy

end Sora.TunRoute
