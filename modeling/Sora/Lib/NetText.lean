import Sora.Lib.Bytes
import Sora.Lib.NetIP

/-!
# The text of addresses and networks

Reading and printing of IPv4 and IPv6 addresses and networks as Go's `net/netip` does
it: dotted quads without leading zeros, hexadecimal groups with the longest run of two
or more zero groups written `::`, an IPv4-mapped address with a dotted tail, and a
network as an address, a slash and a prefix length.

* `parsePrefix_formatPrefix` and `parseAddr_formatIP`: what is printed is read back.
* `netByte_of_parsePrefix`, `netByte_of_parseAddr`: a text that is read as a network or an
  address consists of digits, dots, colons and slashes only, so it is one word wherever
  it is embedded.
-/

namespace Sora.Lib

open List Option

/-! ## Reading -/

/-- An unsigned decimal number of at most `bound`, without sign and leading zeros. -/
def readNumber (bound : Nat) (s : Bytes) : Option Nat :=
  if s ≠ [] ∧ s.all (isDigit 10) ∧ (s.head? = some 48 → s.length = 1) ∧ numValue 10 s ≤ bound then
    some (numValue 10 s)
  else none

/-- The value of a dotted quad. -/
def parseIPv4 (s : Bytes) : Option Nat :=
  match s.splitOn 46 with
  | [a, b, c, d] => do
    let a ← readNumber 255 a
    let b ← readNumber 255 b
    let c ← readNumber 255 c
    let d ← readNumber 255 d
    some (((a * 256 + b) * 256 + c) * 256 + d)
  | _ => none

/-- One group of an IPv6 address: one to four hexadecimal digits. -/
def hexField (s : Bytes) : Option Nat :=
  if s ≠ [] ∧ s.length ≤ 4 ∧ s.all (isDigit 16) then some (numValue 16 s) else none

/-- Colon-separated groups.  Where `tail` allows it the last one may be a dotted quad,
which stands for two groups. -/
def readFields (tail : Bool) : List Bytes → Option (List Nat)
  | [] => some []
  | [f] =>
    if tail ∧ 46 ∈ f then (parseIPv4 f).map fun v => [v / 65536, v % 65536]
    else (hexField f).map fun g => [g]
  | f :: fs => do
    let g ← hexField f
    let gs ← readFields tail fs
    some (g :: gs)

/-- The groups of one side of an address; an empty side has none. -/
def readSide (tail : Bool) (s : Bytes) : Option (List Nat) :=
  if s = [] then some [] else readFields tail (s.splitOn 58)

/-- Cuts at the first `::`. -/
def cutEllipsis : Bytes → Option (Bytes × Bytes)
  | [] => none
  | c :: s =>
    if c = 58 ∧ s.head? = some 58 then some ([], s.tail)
    else (cutEllipsis s).map fun cut => (c :: cut.1, cut.2)

/-- The number made of sixteen-bit groups. -/
def ofGroups (gs : List Nat) : Nat := gs.foldl (fun acc g => acc * 65536 + g) 0

/-- The eight groups of an IPv6 address.  `::` stands for at least one group. -/
def parseGroups (s : Bytes) : Option (List Nat) :=
  match cutEllipsis s with
  | none => do
    let gs ← readSide true s
    if gs.length = 8 then some gs else none
  | some (before, after) => do
    let l ← readSide false before
    let r ← readSide true after
    if l.length + r.length ≤ 7 then some (l ++ List.replicate (8 - l.length - r.length) 0 ++ r)
    else none

/-- The value of an IPv6 address without zone. -/
def parseIPv6 (s : Bytes) : Option Nat := (parseGroups s).map ofGroups

def IP.of (family : Family) (value : Nat) : Option IP :=
  if h : value < 2 ^ family.width then some ⟨family, value, h⟩ else none

/-- The first of `.`, `:` and `%`, which decides the family of an address text. -/
def familyMark (s : Bytes) : Option UInt8 := s.find? fun c => c == 46 || c == 58 || c == 37

/-- `netip.ParseAddr`: an address and its zone, empty when there is none. -/
def parseAddr (s : Bytes) : Option (IP × Bytes) :=
  match familyMark s with
  | some 46 => do
    let v ← parseIPv4 s
    let ip ← IP.of .v4 v
    some (ip, [])
  | some 58 =>
    let zone := s.dropWhile (· != 37)
    if zone.length = 1 then none
    else do
      let v ← parseIPv6 (s.takeWhile (· != 37))
      let ip ← IP.of .v6 v
      some (ip, zone.tail)
  | _ => none

/-- `netip.ParsePrefix`: an address without zone, a slash and a prefix length. -/
def parsePrefix (s : Bytes) : Option Prefix :=
  match s.splitOn 47 with
  | [addr, length] =>
    match parseAddr addr, readNumber 128 length with
    | some (ip, []), some bits => if h : bits ≤ ip.family.width then some ⟨ip, bits, h⟩ else none
    | _, _ => none
  | _ => none

/-- A network, or a single address without zone as the network of that address alone. -/
def parseNetwork (s : Bytes) : Option Prefix :=
  match parsePrefix s with
  | some p => some p
  | none =>
    match parseAddr s with
    | some (ip, []) => some (host ip)
    | _ => none

/-! ## Printing -/

def formatIPv4 (v : Nat) : Bytes :=
  [46].intercalate
    [numeral 10 (v / 2 ^ 24), numeral 10 (v / 2 ^ 16 % 256), numeral 10 (v / 2 ^ 8 % 256),
      numeral 10 (v % 256)]

/-- The eight sixteen-bit groups of an IPv6 value. -/
def groups (v : Nat) : List Nat :=
  [v / 2 ^ 112, v / 2 ^ 96 % 65536, v / 2 ^ 80 % 65536, v / 2 ^ 64 % 65536,
    v / 2 ^ 48 % 65536, v / 2 ^ 32 % 65536, v / 2 ^ 16 % 65536, v % 65536]

/-- Length of the run of zero groups that starts at `i`. -/
def zeroRun (gs : List Nat) (i : Nat) : Nat := ((gs.drop i).takeWhile (· == 0)).length

/-- Start and length of the first longest run of at least two zero groups; length zero
when there is no such run. -/
def longestZeros (gs : List Nat) : Nat × Nat :=
  (List.range gs.length).foldl
    (fun best i => if 2 ≤ zeroRun gs i ∧ best.2 < zeroRun gs i then (i, zeroRun gs i) else best)
    (0, 0)

/-- Groups in lower-case hexadecimal, separated by colons. -/
def joinGroups (gs : List Nat) : Bytes := [58].intercalate (gs.map (numeral 16))

def formatGroups (gs : List Nat) : Bytes :=
  let (start, length) := longestZeros gs
  if length = 0 then joinGroups gs
  else joinGroups (gs.take start) ++ 58 :: 58 :: joinGroups (gs.drop (start + length))

/-- `Addr.String` of an address without zone. -/
def formatIP (ip : IP) : Bytes :=
  match ip.family with
  | .v4 => formatIPv4 ip.value
  | .v6 =>
    if ip.value / 2 ^ 32 = 0xffff then ascii "::ffff:" ++ formatIPv4 (ip.value % 2 ^ 32)
    else formatGroups (groups ip.value)

/-- `Prefix.String`. -/
def formatPrefix (p : Prefix) : Bytes := formatIP p.ip ++ 47 :: numeral 10 p.bits

/-! ## What is printed is read back -/

variable {c : UInt8} {bound g n v : Nat} {gs : List Nat} {s : Bytes} {tail : Bool} {ip : IP}
    {p : Prefix}

theorem isDigit_mono {base base' : Nat} (le : base ≤ base') (digit : isDigit base c = true) :
    isDigit base' c = true := by
  unfold isDigit at digit ⊢
  cases value : digitValue c with
  | none => simp [value] at digit
  | some d =>
    have small : d < base := by simpa [value] using digit
    simpa using small.trans_le le

theorem readNumber_numeral (le : n ≤ bound) : readNumber bound (numeral 10 n) = some n := by
  have value : numValue 10 (numeral 10 n) = n := numValue_numeral (by decide) (by decide)
  have leading : (numeral 10 n).head? = some 48 → (numeral 10 n).length = 1 := by
    intro head
    by_cases zero : n = 0
    · subst zero; rfl
    · exact absurd head (head_numeral_ne_zero (by decide) (by decide) zero)
  unfold readNumber
  rw [value, if_pos]
  exact ⟨numeral_ne_nil, all_eq_true.mpr (isDigit_of_mem_numeral (by decide) (by decide)),
    leading, le⟩

theorem parseIPv4_formatIPv4 (lt : v < 2 ^ 32) : parseIPv4 (formatIPv4 v) = some v := by
  have split : (formatIPv4 v).splitOn 46 =
      [numeral 10 (v / 2 ^ 24), numeral 10 (v / 2 ^ 16 % 256), numeral 10 (v / 2 ^ 8 % 256),
        numeral 10 (v % 256)] := by
    refine splitOn_intercalate _ ?_ (cons_ne_nil _ _)
    intro octet member
    simp only [mem_cons, not_mem_nil, or_false] at member
    rcases member with rfl | rfl | rfl | rfl <;>
      exact notMem_numeral (by decide) (by decide) rfl
  unfold parseIPv4
  rw [split]
  simp only [readNumber_numeral (show v / 2 ^ 24 ≤ 255 by omega),
    readNumber_numeral (show v / 2 ^ 16 % 256 ≤ 255 by omega),
    readNumber_numeral (show v / 2 ^ 8 % 256 ≤ 255 by omega),
    readNumber_numeral (show v % 256 ≤ 255 by omega), bind_eq_bind, bind_some]
  congr 1
  omega

theorem hexField_numeral (lt : g < 65536) : hexField (numeral 16 g) = some g := by
  have value : numValue 16 (numeral 16 g) = g := numValue_numeral (by decide) (by decide)
  unfold hexField
  rw [value, if_pos]
  exact ⟨numeral_ne_nil, numeral_length_le (by decide) (by decide) (by omega),
    all_eq_true.mpr (isDigit_of_mem_numeral (by decide) (by decide))⟩

theorem readFields_numerals (tail : Bool) (bound : ∀ g ∈ gs, g < 65536) :
    readFields tail (gs.map (numeral 16)) = some gs := by
  induction gs with
  | nil => rfl
  | cons g gs ih =>
    have head : hexField (numeral 16 g) = some g := hexField_numeral (bound g mem_cons_self)
    have rest := ih fun x member => bound x (mem_cons_of_mem _ member)
    cases gs with
    | nil =>
      have dotless : 46 ∉ numeral 16 g :=
        notMem_numeral (by decide) (by decide) rfl
      simp [readFields, head, dotless]
    | cons g' gs => simp only [map_cons, readFields, head] at rest ⊢; simp [rest]

theorem readSide_joinGroups (tail : Bool) (bound : ∀ g ∈ gs, g < 65536) :
    readSide tail (joinGroups gs) = some gs := by
  cases gs with
  | nil => rfl
  | cons g gs =>
    have split : (joinGroups (g :: gs)).splitOn 58 = (g :: gs).map (numeral 16) := by
      refine splitOn_intercalate _ ?_ (cons_ne_nil _ _)
      intro field member
      obtain ⟨n, -, rfl⟩ := mem_map.mp member
      exact notMem_numeral (by decide) (by decide) rfl
    have nonempty : joinGroups (g :: gs) ≠ [] := by
      intro empty
      rw [empty] at split
      have := congrArg head? split
      simp [numeral_ne_nil.symm] at this
    unfold readSide
    rw [if_neg nonempty, split, readFields_numerals tail bound]

/-! ### The ellipsis -/

theorem cutEllipsis_append {f : Bytes} (free : 58 ∉ f) (s : Bytes) :
    cutEllipsis (f ++ s) = (cutEllipsis s).map fun cut => (f ++ cut.1, cut.2) := by
  induction f with
  | nil => simp
  | cons c f ih =>
    rw [mem_cons, not_or] at free
    rw [cons_append, cutEllipsis, if_neg fun colon => free.1 colon.1.symm, ih free.2,
      Option.map_map]
    rfl

theorem cutEllipsis_colon (single : s.head? ≠ some 58) :
    cutEllipsis (58 :: s) = (cutEllipsis s).map fun cut => (58 :: cut.1, cut.2) := by
  rw [cutEllipsis, if_neg fun colon => single colon.2]

theorem head_numeral_append (g : Nat) (s : Bytes) : (numeral 16 g ++ s).head? ≠ some 58 := by
  intro head
  have member : 58 ∈ numeral 16 g := by
    rw [head?_append_of_ne_nil _ numeral_ne_nil] at head
    exact mem_of_mem_head? head
  exact notMem_numeral (by decide) (by decide) rfl member

theorem joinGroups_cons_cons (g g' : Nat) (gs : List Nat) :
    joinGroups (g :: g' :: gs) = numeral 16 g ++ 58 :: joinGroups (g' :: gs) := by
  simp [joinGroups]

theorem head_joinGroups_append (g : Nat) (gs : List Nat) (s : Bytes) :
    (joinGroups (g :: gs) ++ s).head? ≠ some 58 := by
  cases gs with
  | nil => simpa [joinGroups] using head_numeral_append g s
  | cons g' gs =>
    rw [joinGroups_cons_cons, append_assoc]
    exact head_numeral_append g _

/-- Printed groups neither contain a `::` nor end in a colon. -/
theorem cutEllipsis_joinGroups_append (gs : List Nat) (s : Bytes) :
    cutEllipsis (joinGroups gs ++ s) =
      (cutEllipsis s).map fun cut => (joinGroups gs ++ cut.1, cut.2) := by
  have free : ∀ g, 58 ∉ numeral 16 g := fun g =>
    notMem_numeral (by decide) (by decide) rfl
  induction gs with
  | nil => simp [joinGroups]
  | cons g gs ih =>
    cases gs with
    | nil => simpa [joinGroups] using cutEllipsis_append (free g) s
    | cons g' gs =>
      rw [joinGroups_cons_cons, append_assoc, cons_append, cutEllipsis_append (free g),
        cutEllipsis_colon (head_joinGroups_append g' gs s), ih]
      simp [Function.comp_def]

theorem cutEllipsis_joinGroups (gs : List Nat) : cutEllipsis (joinGroups gs) = none := by
  simpa [cutEllipsis] using cutEllipsis_joinGroups_append gs []

/-- The chosen run, if there is one, consists of zero groups. -/
theorem longestZeros_spec (gs : List Nat) :
    (longestZeros gs).2 = 0 ∨
      2 ≤ (longestZeros gs).2 ∧
        gs.take (longestZeros gs).1 ++ replicate (longestZeros gs).2 0 ++
          gs.drop ((longestZeros gs).1 + (longestZeros gs).2) = gs := by
  -- the disjunction is an invariant of the scan over all starting points
  refine foldlRecOn (motive := fun best : Nat × Nat => best.2 = 0 ∨ 2 ≤ best.2 ∧
    gs.take best.1 ++ replicate best.2 0 ++ gs.drop (best.1 + best.2) = gs) _ _
    (.inl rfl) ?_
  intro best held i member
  split
  · rename_i better
    refine .inr ⟨better.1, ?_⟩
    have zeros : (gs.drop i).takeWhile (· == 0) = replicate (zeroRun gs i) 0 := by
      refine eq_replicate_iff.mpr ⟨rfl, fun g inRun => ?_⟩
      simpa using mem_takeWhile_imp inRun
    have rest : gs.drop (i + zeroRun gs i) = (gs.drop i).dropWhile (· == 0) := by
      rw [← drop_drop]
      conv_lhs => rw [← takeWhile_append_dropWhile (p := (· == 0)) (l := gs.drop i)]
      exact drop_left
    rw [rest, ← zeros, append_assoc, takeWhile_append_dropWhile, take_append_drop]
  · exact held

theorem parseGroups_formatGroups (eight : gs.length = 8) (bound : ∀ g ∈ gs, g < 65536) :
    parseGroups (formatGroups gs) = some gs := by
  unfold formatGroups
  rcases longestZeros_spec gs with none | ⟨two, whole⟩
  · simp [none, parseGroups, cutEllipsis_joinGroups, readSide_joinGroups true bound, eight]
  · generalize longestZeros gs = run at two whole ⊢
    obtain ⟨start, length⟩ := run
    have cut : cutEllipsis (joinGroups (gs.take start) ++
        58 :: 58 :: joinGroups (gs.drop (start + length))) =
        some (joinGroups (gs.take start), joinGroups (gs.drop (start + length))) := by
      rw [cutEllipsis_joinGroups_append]
      simp [cutEllipsis]
    have before : readSide false (joinGroups (gs.take start)) = some (gs.take start) :=
      readSide_joinGroups false fun g member => bound g (mem_of_mem_take member)
    have after : readSide true (joinGroups (gs.drop (start + length))) =
        some (gs.drop (start + length)) :=
      readSide_joinGroups true fun g member => bound g (mem_of_mem_drop member)
    have lengths := congrArg List.length whole
    simp only [length_append, length_replicate] at lengths
    have fill : 8 - (gs.take start).length - (gs.drop (start + length)).length = length := by
      omega
    simp only [if_neg (show ¬length = 0 by omega), parseGroups, cut, before, after,
      bind_eq_bind, bind_some, fill, whole]
    rw [if_pos (by omega)]

theorem ofGroups_groups (v : Nat) : ofGroups (groups v) = v := by
  simp only [ofGroups, groups, foldl_cons, foldl_nil]
  omega

theorem groups_lt (lt : v < 2 ^ 128) : ∀ g ∈ groups v, g < 65536 := by
  intro g member
  simp only [groups, mem_cons, not_mem_nil, or_false] at member
  omega

theorem parseIPv6_formatGroups (lt : v < 2 ^ 128) :
    parseIPv6 (formatGroups (groups v)) = some v := by
  rw [parseIPv6, parseGroups_formatGroups rfl (groups_lt lt), map_some, ofGroups_groups]

/-! ## The alphabet -/

/-- The bytes of an address without zone. -/
def addrByte (c : UInt8) : Bool := isDigit 16 c || c == 46 || c == 58

theorem addrByte_of_isDigit (base : Nat) (le : base ≤ 16) (digit : isDigit base c = true) :
    addrByte c = true := by
  simp [addrByte, isDigit_mono le digit]

/-- A byte of a text is the separator or lies in one of the separated parts. -/
theorem mem_splitOn {x : UInt8} (member : c ∈ s) : c = x ∨ ∃ part ∈ s.splitOn x, c ∈ part := by
  have joined : [x].intercalate (s.splitOn x) = s := intercalate_splitOn x
  rw [← joined] at member
  generalize s.splitOn x = parts at member ⊢
  induction parts with
  | nil => simp at member
  | cons part parts ih =>
    cases parts with
    | nil => exact .inr ⟨part, mem_cons_self, by simpa using member⟩
    | cons part' parts =>
      have parted : c ∈ part ∨ c = x ∨ c ∈ [x].intercalate (part' :: parts) := by
        simpa using member
      rcases parted with inHead | rfl | inTail
      · exact .inr ⟨part, mem_cons_self, inHead⟩
      · exact .inl rfl
      · rcases ih inTail with rfl | ⟨p, inParts, inPart⟩
        · exact .inl rfl
        · exact .inr ⟨p, mem_cons_of_mem _ inParts, inPart⟩

theorem length_splitOn (c : UInt8) (s : Bytes) : (s.splitOn c).length = s.count c + 1 := by
  rw [splitOn]
  induction s with
  | nil => rfl
  | cons x s ih =>
    rw [splitOnP_cons_eq_if_modifyHead, count_cons]
    split
    · rw [length_cons, ih]
    · rw [length_modifyHead, ih]

/-- A separated part has no separator. -/
theorem notMem_of_mem_splitOn (x : UInt8) (s : Bytes) : ∀ part ∈ s.splitOn x, x ∉ part := by
  induction s with
  | nil => simp
  | cons c s ih =>
    intro part member
    rw [splitOn, splitOnP_cons_eq_if_modifyHead] at member
    split at member
    · rcases mem_cons.mp member with rfl | later
      · exact not_mem_nil
      · exact ih part later
    · rename_i other
      change part ∈ (s.splitOn x).modifyHead (cons c) at member
      cases parts : s.splitOn x with
      | nil =>
        rw [parts] at member
        cases member
      | cons first rest =>
        rw [parts] at ih member
        rcases mem_cons.mp member with rfl | later
        · rintro (_ | ⟨_, inside⟩)
          · exact other (by simp)
          · exact ih first mem_cons_self inside
        · exact ih part (mem_cons_of_mem _ later)

theorem isDigit_of_readNumber (read : readNumber bound s = some n) :
    ∀ c ∈ s, isDigit 10 c = true := by
  unfold readNumber at read
  split at read
  · rename_i ok
    exact all_eq_true.mp ok.2.1
  · cases read

theorem isDigit_of_hexField (read : hexField s = some g) : ∀ c ∈ s, isDigit 16 c = true := by
  unfold hexField at read
  split at read
  · rename_i ok
    exact all_eq_true.mp ok.2.2
  · cases read

theorem isDigit_or_dot_of_parseIPv4 (read : parseIPv4 s = some v) :
    ∀ c ∈ s, isDigit 10 c = true ∨ c = 46 := by
  intro c member
  unfold parseIPv4 at read
  split at read
  · rename_i octet₁ octet₂ octet₃ octet₄ parts
    simp only [bind_eq_bind, bind_eq_some_iff] at read
    obtain ⟨_, read₁, _, read₂, _, read₃, _, read₄, -⟩ := read
    rcases mem_splitOn member with dot | ⟨part, inParts, inPart⟩
    · exact .inr dot
    · left
      rw [parts] at inParts
      simp only [mem_cons, not_mem_nil, or_false] at inParts
      rcases inParts with rfl | rfl | rfl | rfl
      · exact isDigit_of_readNumber read₁ c inPart
      · exact isDigit_of_readNumber read₂ c inPart
      · exact isDigit_of_readNumber read₃ c inPart
      · exact isDigit_of_readNumber read₄ c inPart
  · cases read

theorem addrByte_of_parseIPv4 (read : parseIPv4 s = some v) : ∀ c ∈ s, addrByte c = true := by
  intro c member
  rcases isDigit_or_dot_of_parseIPv4 read c member with digit | rfl
  · exact addrByte_of_isDigit 10 (by decide) digit
  · rfl

theorem addrByte_of_readFields {fields : List Bytes} (read : readFields tail fields = some gs) :
    ∀ f ∈ fields, ∀ c ∈ f, addrByte c = true := by
  induction fields generalizing gs with
  | nil => simp
  | cons f fields ih =>
    have hex : ∀ {g}, hexField f = some g → ∀ c ∈ f, addrByte c = true := fun field c member =>
      addrByte_of_isDigit 16 le_rfl (isDigit_of_hexField field c member)
    cases fields with
    | nil =>
      intro f' member
      rw [mem_singleton] at member
      subst member
      simp only [readFields] at read
      split at read
      · obtain ⟨v, quad, -⟩ := map_eq_some_iff.mp read
        exact addrByte_of_parseIPv4 quad
      · obtain ⟨g, field, -⟩ := map_eq_some_iff.mp read
        exact hex field
    | cons f' fields =>
      simp only [readFields, bind_eq_bind, bind_eq_some_iff] at read
      obtain ⟨g, field, gs', rest, -⟩ := read
      intro h member
      rcases mem_cons.mp member with rfl | inRest
      · exact hex field
      · exact ih rest h inRest

theorem addrByte_of_readSide (read : readSide tail s = some gs) : ∀ c ∈ s, addrByte c = true := by
  intro c member
  unfold readSide at read
  split at read
  · rename_i empty
    simp [empty] at member
  · rcases mem_splitOn (x := 58) member with rfl | ⟨part, inParts, inPart⟩
    · rfl
    · exact addrByte_of_readFields read part inParts c inPart

theorem cutEllipsis_eq {before after : Bytes} (cut : cutEllipsis s = some (before, after)) :
    s = before ++ 58 :: 58 :: after := by
  induction s generalizing before with
  | nil => cases cut
  | cons c s ih =>
    rw [cutEllipsis] at cut
    split at cut
    · rename_i colons
      cases cut
      obtain ⟨rfl, head⟩ := colons
      rw [← cons_head?_tail head]
      rfl
    · obtain ⟨⟨before', after'⟩, inner, same⟩ := map_eq_some_iff.mp cut
      cases same
      rw [ih inner, cons_append]

theorem addrByte_of_parseIPv6 (read : parseIPv6 s = some v) : ∀ c ∈ s, addrByte c = true := by
  obtain ⟨gs, groups, -⟩ := map_eq_some_iff.mp read
  unfold parseGroups at groups
  split at groups
  · simp only [bind_eq_bind, bind_eq_some_iff] at groups
    obtain ⟨_, side, -⟩ := groups
    exact addrByte_of_readSide side
  · rename_i before after cut
    simp only [bind_eq_bind, bind_eq_some_iff] at groups
    obtain ⟨_, left, _, right, -⟩ := groups
    rw [cutEllipsis_eq cut]
    intro c member
    simp only [mem_append, mem_cons] at member
    rcases member with inBefore | rfl | rfl | inAfter
    · exact addrByte_of_readSide left c inBefore
    · rfl
    · rfl
    · exact addrByte_of_readSide right c inAfter

/-! ## Addresses and networks -/

theorem familyMark_numeral_append (base n : Nat) (lower : 1 < base) (upper : base ≤ 16)
    (mark : c = 46 ∨ c = 58) (s : Bytes) : familyMark (numeral base n ++ c :: s) = some c := by
  have skip : (numeral base n).find? (fun c => c == 46 || c == 58 || c == 37) = none := by
    refine find?_eq_none.mpr fun d member => ?_
    have absent (x : UInt8) (mark : isDigit base x = false) : d ≠ x := fun same =>
      notMem_numeral lower upper mark (same ▸ member)
    simp [absent 46 rfl, absent 58 rfl, absent 37 rfl]
  rw [familyMark, find?_append, skip]
  rcases mark with rfl | rfl <;> rfl

theorem familyMark_joinGroups_append (gs : List Nat) (s : Bytes) :
    familyMark (joinGroups gs ++ 58 :: s) = some 58 := by
  match gs with
  | [] => rfl
  | [g] =>
    simpa [joinGroups] using familyMark_numeral_append 16 g (by decide) (by decide)
      (.inr rfl) s
  | g :: g' :: gs =>
    rw [joinGroups_cons_cons, append_assoc]
    exact familyMark_numeral_append _ _ (by decide) (by decide) (.inr rfl) _

theorem familyMark_formatGroups (v : Nat) : familyMark (formatGroups (groups v)) = some 58 := by
  simp only [formatGroups]
  split
  · exact familyMark_numeral_append _ _ (by decide) (by decide) (.inr rfl) _
  · exact familyMark_joinGroups_append _ _

theorem formatIPv4_eq (v : Nat) : formatIPv4 v = numeral 10 (v / 2 ^ 24) ++ 46 ::
    [46].intercalate [numeral 10 (v / 2 ^ 16 % 256), numeral 10 (v / 2 ^ 8 % 256),
      numeral 10 (v % 256)] := by
  simp [formatIPv4]

/-- The dotted tail of an IPv4-mapped address. -/
theorem readSide_mapped (lt : v < 2 ^ 32) :
    readSide true (ascii "ffff:" ++ formatIPv4 v) = some [0xffff, v / 65536, v % 65536] := by
  have dotted : 46 ∈ formatIPv4 v := by simp [formatIPv4_eq]
  have colonless : 58 ∉ formatIPv4 v := by
    intro member
    rcases isDigit_or_dot_of_parseIPv4 (parseIPv4_formatIPv4 lt) 58 member with digit | dot
    · cases digit
    · cases dot
  have fields : (ascii "ffff:" ++ formatIPv4 v).splitOn 58 = [ascii "ffff", formatIPv4 v] := by
    have tail : (formatIPv4 v).splitOn 58 = [formatIPv4 v] := splitOn_eq_singleton colonless
    have colonFree : 58 ∉ ascii "ffff" := by decide
    rw [← tail]
    exact splitOn_append_cons_self_of_not_mem colonFree _
  have prefixField : hexField (ascii "ffff") = some 0xffff := by decide
  rw [readSide, if_neg (append_ne_nil_of_left_ne_nil (by decide) _), fields]
  simp [readFields, prefixField, dotted, parseIPv4_formatIPv4 lt]

theorem parseIPv6_mapped (lt : v < 2 ^ 32) :
    parseIPv6 (ascii "::ffff:" ++ formatIPv4 v) = some (0xffff * 2 ^ 32 + v) := by
  have cut : cutEllipsis (ascii "::ffff:" ++ formatIPv4 v) =
      some ([], ascii "ffff:" ++ formatIPv4 v) := rfl
  rw [parseIPv6, parseGroups, cut]
  simp only [readSide_mapped lt]
  have value : ofGroups [0, 0, 0, 0, 0, 0xffff, v / 65536, v % 65536] = 0xffff * 2 ^ 32 + v := by
    simp only [ofGroups, foldl_cons, foldl_nil]
    omega
  exact congrArg some value

theorem IP.of_value (ip : IP) : IP.of ip.family ip.value = some ip := by
  simp [IP.of, ip.lt]

theorem parseAddr_of_parseIPv4 (mark : familyMark s = some 46) (four : ip.family = .v4)
    (read : parseIPv4 s = some ip.value) : parseAddr s = some (ip, []) := by
  have build : IP.of .v4 ip.value = some ip := four ▸ IP.of_value ip
  simp [parseAddr, mark, read, build]

theorem parseAddr_of_parseIPv6 (mark : familyMark s = some 58) (six : ip.family = .v6)
    (read : parseIPv6 s = some ip.value) : parseAddr s = some (ip, []) := by
  have build : IP.of .v6 ip.value = some ip := six ▸ IP.of_value ip
  -- an address that reads has no zone to cut off
  have zoneless : ∀ c ∈ s, (c != 37) = true := by
    intro c member
    have alphabet := addrByte_of_parseIPv6 read c member
    by_contra percent
    rw [bne_iff_ne, not_not] at percent
    subst percent
    exact absurd alphabet (by decide)
  have whole : s.takeWhile (· != 37) = s := takeWhile_eq_self_iff.mpr zoneless
  have rest : s.dropWhile (· != 37) = [] := dropWhile_eq_nil_iff.mpr zoneless
  simp [parseAddr, mark, whole, rest, read, build]

/-- A printed address is read back, without zone. -/
theorem parseAddr_formatIP (ip : IP) : parseAddr (formatIP ip) = some (ip, []) := by
  have fits := ip.lt
  unfold formatIP
  split
  · rename_i four
    rw [four] at fits
    refine parseAddr_of_parseIPv4 ?_ four (parseIPv4_formatIPv4 fits)
    exact familyMark_numeral_append _ _ (by decide) (by decide) (.inl rfl) _
  · rename_i six
    rw [six] at fits
    split
    · refine parseAddr_of_parseIPv6 rfl six ?_
      rw [parseIPv6_mapped (Nat.mod_lt _ (by decide))]
      congr 1
      omega
    · exact parseAddr_of_parseIPv6 (familyMark_formatGroups _) six (parseIPv6_formatGroups fits)

theorem addrByte_of_parseAddr (read : parseAddr s = some (ip, [])) :
    ∀ c ∈ s, addrByte c = true := by
  unfold parseAddr at read
  split at read
  · simp only [bind_eq_bind, bind_eq_some_iff] at read
    obtain ⟨v, four, -⟩ := read
    exact addrByte_of_parseIPv4 four
  · simp only [bind_eq_bind] at read
    split at read
    · cases read
    · rename_i longer
      simp only [bind_eq_some_iff, Option.some.injEq, Prod.mk.injEq] at read
      obtain ⟨v, six, -, -, -, noTail⟩ := read
      have noZone : s.dropWhile (· != 37) = [] := by
        cases zone : s.dropWhile (· != 37) with
        | nil => rfl
        | cons c rest =>
          rw [zone] at longer noTail
          exact absurd (by simpa using noTail) longer
      have whole : s.takeWhile (· != 37) = s :=
        takeWhile_eq_self_iff.mpr (dropWhile_eq_nil_iff.mp noZone)
      rw [whole] at six
      exact addrByte_of_parseIPv6 six
  · cases read

/-- A printed network is read back. -/
theorem parsePrefix_formatPrefix (p : Prefix) : parsePrefix (formatPrefix p) = some p := by
  have bits : readNumber 128 (numeral 10 p.bits) = some p.bits := by
    refine readNumber_numeral (p.le.trans ?_)
    cases p.ip.family <;> decide
  have slashless : 47 ∉ formatIP p.ip := fun member =>
    absurd (addrByte_of_parseAddr (parseAddr_formatIP p.ip) 47 member) (by decide)
  have parts : (formatPrefix p).splitOn 47 = [formatIP p.ip, numeral 10 p.bits] := by
    have tail : (numeral 10 p.bits).splitOn 47 = [numeral 10 p.bits] :=
      splitOn_eq_singleton (notMem_numeral (by decide) (by decide) rfl)
    rw [← tail]
    exact splitOn_append_cons_self_of_not_mem slashless _
  simp [parsePrefix, parts, parseAddr_formatIP, bits, p.le]

/-- The bytes of a network. -/
def netByte (c : UInt8) : Bool := addrByte c || c == 47

theorem netByte_visible : ∀ c, netByte c = true → isSpace c = false := forall_byte (by decide +kernel)

theorem netByte_of_addrByte (alphabet : addrByte c = true) : netByte c = true := by
  simp [netByte, alphabet]

theorem netByte_of_parseAddr (read : parseAddr s = some (ip, [])) :
    ∀ c ∈ s, netByte c = true := fun c member =>
  netByte_of_addrByte (addrByte_of_parseAddr read c member)

theorem netByte_of_parsePrefix (read : parsePrefix s = some p) : ∀ c ∈ s, netByte c = true := by
  intro c member
  unfold parsePrefix at read
  split at read
  · rename_i addr length parts
    split at read
    · rename_i ip bits readIP readBits
      rcases mem_splitOn (x := 47) member with rfl | ⟨part, inParts, inPart⟩
      · rfl
      · rw [parts] at inParts
        simp only [mem_cons, not_mem_nil, or_false] at inParts
        rcases inParts with rfl | rfl
        · exact netByte_of_parseAddr readIP c inPart
        · exact netByte_of_addrByte (addrByte_of_isDigit 10 (by decide)
            (isDigit_of_readNumber readBits c inPart))
    · cases read
  · cases read

/-- Only a percent sign opens a zone. -/
theorem percent_mem_of_zone {zone : Bytes} (read : parseAddr s = some (ip, zone))
    (zoned : zone ≠ []) : 37 ∈ s := by
  unfold parseAddr at read
  split at read
  · simp only [bind_eq_bind, bind_eq_some_iff] at read
    obtain ⟨-, -, -, -, -, rfl⟩ := read
    exact absurd rfl zoned
  · simp only [bind_eq_bind] at read
    split at read
    · cases read
    · simp only [bind_eq_some_iff] at read
      obtain ⟨-, -, -, -, -, rfl⟩ := read
      by_contra absent
      have whole : s.dropWhile (· != 37) = [] := by
        refine dropWhile_eq_nil_iff.mpr fun c member => ?_
        rw [bne_iff_ne]
        rintro rfl
        exact absent member
      simp [whole] at zoned
  · cases read

/-- A network is not an address. -/
theorem parseAddr_eq_none_of_parsePrefix (read : parsePrefix s = some p) : parseAddr s = none := by
  have slash : 47 ∈ s := by
    by_contra absent
    rw [parsePrefix, splitOn_eq_singleton absent] at read
    cases read
  cases addr : parseAddr s with
  | none => rfl
  | some found =>
    obtain ⟨ip, zone⟩ := found
    by_cases zoned : zone = []
    · subst zoned
      exact absurd (addrByte_of_parseAddr addr 47 slash) (by decide)
    · exact absurd (netByte_of_parsePrefix read 37 (percent_mem_of_zone addr zoned)) (by decide)

theorem netByte_of_parseNetwork (read : parseNetwork s = some p) : ∀ c ∈ s, netByte c = true := by
  unfold parseNetwork at read
  split at read
  · rename_i p' readPrefix
    exact netByte_of_parsePrefix readPrefix
  · split at read
    · rename_i ip readIP
      exact netByte_of_parseAddr readIP
    · cases read

theorem ne_nil_of_parseNetwork (read : parseNetwork s = some p) : s ≠ [] := by
  rintro rfl
  cases read

theorem parseNetwork_formatPrefix (p : Prefix) : parseNetwork (formatPrefix p) = some p := by
  rw [parseNetwork, parsePrefix_formatPrefix]

end Sora.Lib
