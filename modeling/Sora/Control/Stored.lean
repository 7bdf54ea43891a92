import Sora.Control.Entries
import Sora.Control.Links
import Sora.Control.Metadata

/-!
# The book and the vault

For every record the vault has the record's document, the credentials of its servers and the
chunks of its list, and it has no other entries of subscriptions, so that a core that starts with
the vault has the book again.  Every lock section of the book keeps this, whichever of its writes
fail, if what it stores can be read back: a text that is not UTF-8 cannot.
-/

namespace Sora.Control

open Sora.Lib Sora.Session List Function Book AList
open Option hiding all_eq_true mem_map

/-! ## Loading -/

/-- `loadList`. -/
def loadList (core : Core) (vault : Entries) (id : Bytes) (r : Record) : List OutboundSpec :=
  match (List.range r.listParts).mapM fun part => vault.lookup (listRef id part) with
  | none => []
  | some chunks => (core.wire.unmarshal chunks.flatten).getD []

/-- The body of the loop of `load`. -/
def loadRef (core : Core) (vault : Entries)
    (loaded : (AList fun _ : Bytes => Record) × (Bytes → List OutboundSpec)) (ref : Bytes) :
    (AList fun _ : Bytes => Record) × (Bytes → List OutboundSpec) :=
  if (ascii "u1_").isPrefixOf ref && (ascii "_rec").isSuffixOf ref then
    match (vault.lookup ref).bind (decodeRecord core.time) with
    | some (id, r) =>
      if id = [] then loaded
      else (loaded.1.insert id r, Function.update loaded.2 id (loadList core vault id r))
    | none => loaded
  else loaded

/-- `load`: the records and lists of a vault. -/
def load (core : Core) (vault : Entries) :
    (AList fun _ : Bytes => Record) × (Bytes → List OutboundSpec) :=
  (vault.keys.insertionSort (· ≤ ·)).foldl (loadRef core vault) (∅, fun _ => [])

/-! ## One record -/

variable {core : Core} {c : Choice} {b b' : Book} {vault vault' : Entries} {id link ref : Bytes}
    {r r' : Record} {fault : Option Err} {err : Err} {fetched : Fetched} {list : List OutboundSpec}

/-- What the vault has of a subscription. -/
structure Kept (core : Core) (vault : Entries) (id : Bytes) (r : Record)
    (list : List OutboundSpec) : Prop where
  named : isHex 16 id = true
  servers : ∀ ref ∈ r.servers, ∃ digest, isHex 24 digest = true ∧ serverRef id digest = ref
  utf8 : r.utf8 = true
  here : ∀ tail, (vault.lookup (reference id tail)).isSome = true ↔
    reference id tail ∈ Book.references id r
  read : (vault.lookup (recordRef id)).bind (decodeRecord core.time) = some (id, r)
  list : loadList core vault id r = list

theorem loadList_congr (parts : r'.listParts = r.listParts)
    (same : ∀ part, vault'.lookup (listRef id part) = vault.lookup (listRef id part)) :
    loadList core vault' id r' = loadList core vault id r := by
  unfold loadList
  rw [parts, mapM_congr fun part _ => same part]

theorem Kept.tail
    (kept : Kept core vault id r list) {tail : Bytes} (there : reference id tail ∈ references id r) :
    Tail tail := by
  rcases mem_references.mp there with same | inside | ⟨part, -, same⟩
  · exact reference_tail same ▸ .record
  · obtain ⟨digest, hex, same⟩ := kept.servers _ inside
    rw [serverRef_eq] at same
    exact reference_tail same ▸ .server hex
  · rw [listRef_eq] at same
    exact reference_tail same ▸ .chunk part

/-- Every reference of a record has its tail. -/
theorem Kept.shaped (kept : Kept core vault id r list)
    (there : ref ∈ references id r) : ∃ tail, ref = reference id tail := by
  rcases mem_references.mp there with same | inside | ⟨part, -, same⟩
  · exact ⟨_, same.trans (recordRef_eq id)⟩
  · obtain ⟨digest, -, same⟩ := kept.servers _ inside
    exact ⟨digest, same.symm.trans (serverRef_eq id digest)⟩
  · exact ⟨_, same.symm.trans (listRef_eq id part)⟩

/-- What the vault has of a subscription depends on its own references. -/
theorem Kept.frame (kept : Kept core vault id r list)
    (same : ∀ tail, vault'.lookup (reference id tail) = vault.lookup (reference id tail)) :
    Kept core vault' id r list := by
  refine ⟨kept.named, kept.servers, kept.utf8, fun tail => ?_, ?_, ?_⟩
  · rw [same, kept.here]
  · rw [recordRef_eq, same, ← recordRef_eq, kept.read]
  · rw [← kept.list]
    refine loadList_congr rfl fun part => ?_
    rw [listRef_eq, same]

/-- What is kept after a write, if its other entries and its list are right. -/
theorem kept_of_persist {puts : Entries} {deletes : List Bytes}
    (written : persist core.time fault id r puts deletes vault = .ok vault')
    (named : isHex 16 id = true) (utf8 : r.utf8 = true)
    (servers : ∀ ref ∈ r.servers, ∃ digest, isHex 24 digest = true ∧ serverRef id digest = ref)
    (others : ∀ tail, reference id tail ≠ recordRef id →
      ((vault'.lookup (reference id tail)).isSome = true ↔ reference id tail ∈ references id r))
    (loaded : loadList core vault' id r = list) : Kept core vault' id r list := by
  obtain ⟨times, here, -⟩ := persist_ok written
  refine ⟨named, servers, utf8, fun tail => ?_, ?_, loaded⟩
  · by_cases same : reference id tail = recordRef id
    · rw [same, here, mem_references]
      exact ⟨fun _ => .inl rfl, fun _ => rfl⟩
    · exact others tail same
  · rw [here, bind_some]
    exact decodeRecord_encodeRecord core.time (valid_of_isHex named) utf8 times

theorem lookup_of_persist (written : persist core.time fault id r ∅ [] vault = .ok vault')
    (other : ref ≠ recordRef id) : vault'.lookup ref = vault.lookup ref := by
  obtain ⟨-, -, others⟩ := persist_ok written
  rw [others ref other]
  simp

/-- A record is written again with other settings or another outcome. -/
theorem Kept.rewrite (kept : Kept core vault id r list)
    (utf8 : r'.utf8 = true) (servers : r'.servers = r.servers) (parts : r'.listParts = r.listParts)
    (written : persist core.time fault id r' ∅ [] vault = .ok vault') :
    Kept core vault' id r' list := by
  refine kept_of_persist written kept.named utf8 (servers ▸ kept.servers) (fun tail other => ?_) ?_
  · rw [mem_references, servers, parts, ← mem_references, lookup_of_persist written other, kept.here]
  · rw [← kept.list]
    exact loadList_congr parts fun part =>
      lookup_of_persist written (recordRef_ne_listRef id part).symm

/-- The first record of a subscription. -/
theorem kept_of_created (named : isHex 16 id = true) (utf8 : r.utf8 = true)
    (servers : r.servers = []) (parts : r.listParts = 0)
    (free : ∀ tail, vault.lookup (reference id tail) = none)
    (written : persist core.time fault id r ∅ [] vault = .ok vault') :
    Kept core vault' id r [] := by
  refine kept_of_persist written named utf8 (by simp [servers]) (fun tail other => ?_) ?_
  · rw [mem_references, servers, parts, lookup_of_persist written other]
    simp [free, other]
  · rw [loadList, parts]
    change (core.wire.unmarshal []).getD [] = []
    rw [← core.wire.marshal_nil, core.wire.unmarshal_marshal [] rfl, getD_some]

/-- The record and the entries of a successful update. -/
theorem Kept.update (kept : Kept core vault id r list) {info : Info}
    {servers : List Server} {now : Int} {raw : Bytes}
    (coded : core.wire.marshal (servers.map (·.spec)) = raw)
    (updated : updatedRecord id { r with lastAttempt := now } info servers
      (chunkCount raw.length) = r') (utf8 : r'.utf8 = true)
    (valid : (servers.map (·.spec)).all OutboundSpec.valid = true)
    (written : persist core.time fault id r' (updatePuts id servers raw)
      (updateDeletes id r servers (chunkCount raw.length)) vault = .ok vault') :
    Kept core vault' id r' (servers.map (·.spec)) := by
  subst updated
  obtain ⟨-, -, others⟩ := persist_ok written
  have chunks : ∀ part ∈ range (chunkCount raw.length),
      vault'.lookup (listRef id part) = some (chunk raw part) := by
    intro part within
    rw [others _ (recordRef_ne_listRef id part).symm,
      lookup_updatePuts_chunk id servers raw (mem_range.mp within), some_or]
  refine kept_of_persist written kept.named utf8 ?_ (fun tail same => ?_) ?_
  · intro ref inside
    rw [updatedRecord, mem_insertionSort, mem_map] at inside
    obtain ⟨s, -, same⟩ := inside
    exact ⟨s.digest, s.digest.2, same⟩
  · have sorted : ∀ ref, ref ∈ (servers.map fun s => serverRef id s.digest).insertionSort (· ≤ ·) ↔
        ∃ s ∈ servers, serverRef id s.digest = ref := by simp
    have stored := kept.here tail
    generalize reference id tail = ref at *
    rw [mem_references, others ref same, isSome_or, Bool.or_eq_true,
      lookup_updatePuts_isSome, or_iff_right same, updatedRecord, sorted]
    refine ⟨?_, .inl⟩
    rintro (put | left)
    · exact put
    · split at left
      · cases left
      · rename_i stays
        rw [mem_updateDeletes] at stays
        rcases mem_references.mp (stored.mp left) with own | server | ⟨part, within, part_eq⟩
        · exact absurd own same
        · by_contra gone
          exact stays (.inl ⟨server, fun s inside here => gone (.inl ⟨s, inside, here⟩)⟩)
        · refine .inr ⟨part, ?_, part_eq⟩
          by_contra beyond
          exact stays (.inr ⟨part, Nat.le_of_not_lt beyond, within, part_eq⟩)
  · rw [loadList]
    change (match (range (chunkCount raw.length)).mapM fun part =>
      vault'.lookup (listRef id part) with | none => _ | some chunks => _) = _
    rw [mapM_of_forall chunks]
    change (core.wire.unmarshal ((range (chunkCount raw.length)).flatMap (chunk raw))).getD [] = _
    rw [flatMap_chunk_chunkCount, ← coded, core.wire.unmarshal_marshal _ valid, getD_some]

/-! ## The whole book -/

/-- The book and the vault agree. -/
structure InStep (core : Core) (b : Book) : Prop where
  kept : ∀ id r, b.records.lookup id = some r → Kept core b.vault id r (b.lists id)
  owned : ∀ ref, (b.vault.lookup ref).isSome = true → ascii "u1_" <+: ref →
    ∃ id tail, ref = reference id tail ∧ (b.records.lookup id).isSome = true
  unlisted : ∀ id, b.records.lookup id = none → b.lists id = []
  distinct : ∀ id id' r r', b.records.lookup id = some r → b.records.lookup id' = some r' →
    r.url = r'.url → id = id'
  bounded : b.records.entries.length ≤ maxSubscriptions
  gone : ∀ id ∈ b.deleted, b.records.lookup id = none

theorem InStep.congr (inv : InStep core b) (records : b'.records = b.records)
    (lists : b'.lists = b.lists) (vault : b'.vault = b.vault) (deleted : b'.deleted = b.deleted) :
    InStep core b' := by
  refine ⟨?_, ?_, ?_, ?_, ?_, ?_⟩
  · rw [records, lists, vault]
    exact inv.kept
  · rw [records, vault]
    exact inv.owned
  · rw [records, lists]
    exact inv.unlisted
  · rw [records]
    exact inv.distinct
  · rw [records]
    exact inv.bounded
  · rw [records, deleted]
    exact inv.gone

/-- A subscription without a record has no entries. -/
theorem InStep.free (inv : InStep core b) (named : isHex 16 id = true)
    (none : b.records.lookup id = none) (tail : Bytes) :
    b.vault.lookup (reference id tail) = Option.none := by
  by_contra there
  obtain ⟨id', tail', same, recorded⟩ := inv.owned (reference id tail)
    (isSome_iff_ne_none.mpr there) (prefix_append _ _)
  obtain ⟨r, found⟩ := isSome_iff_exists.mp recorded
  obtain ⟨rfl, -⟩ := reference_inj named (inv.kept id' r found).named same
  rw [none] at found
  cases found

theorem length_entries (m : AList fun _ : Bytes => Record) : m.entries.length = m.keys.length :=
  (length_map _).symm

theorem length_insert_le (m : AList fun _ : Bytes => Record) (id : Bytes) (r : Record)
    (within : m.entries.length ≤ maxSubscriptions)
    (room : m.lookup id = none → m.entries.length < maxSubscriptions) :
    (m.insert id r).entries.length ≤ maxSubscriptions := by
  rw [length_entries, Secret.length_keys_insert, ← length_entries]
  split
  · rename_i none
    have := room (isNone_iff_eq_none.mp none)
    omega
  · exact within

/-- A section that writes the record of a subscription, and beside it only entries of its own. -/
theorem InStep.put (inv : InStep core b) (records : b'.records = b.records.insert id r)
    (lists : b'.lists = update b.lists id list) (deleted : b'.deleted = b.deleted)
    (kept : Kept core b'.vault id r list)
    (others : ∀ ref, (∀ tail, ref ≠ reference id tail) → b'.vault.lookup ref = b.vault.lookup ref)
    (only : ∀ id' r', b.records.lookup id' = some r' → r'.url = r.url → id' = id)
    (fresh : b.records.lookup id = none → b.records.entries.length < maxSubscriptions ∧
      id ∉ b.deleted) : InStep core b' := by
  have lookup : ∀ id', b'.records.lookup id' = if id' = id then some r else b.records.lookup id' := by
    intro id'
    split
    · rename_i here
      rw [records, here, lookup_insert]
    · rename_i other
      rw [records, lookup_insert_ne other]
  have cases {id' : Bytes} {r' : Record} (found : b'.records.lookup id' = some r') :
      id' = id ∧ r = r' ∨ id' ≠ id ∧ b.records.lookup id' = some r' := by
    rw [lookup] at found
    split at found
    · exact .inl ⟨‹_›, Option.some.inj found⟩
    · exact .inr ⟨‹_›, found⟩
  refine ⟨fun id' r' found => ?_, fun ref there begins => ?_, fun id' none => ?_,
    fun id₁ id₂ r₁ r₂ found₁ found₂ same => ?_, ?_, fun id' member => ?_⟩
  · rcases cases found with ⟨rfl, rfl⟩ | ⟨other, found⟩
    · rw [lists, update_self]
      exact kept
    · have before := inv.kept id' r' found
      rw [lists, update_of_ne other]
      refine before.frame fun tail => others _ fun tail' same => ?_
      exact other (reference_inj before.named kept.named same).1
  · by_cases own : ∃ tail, ref = reference id tail
    · obtain ⟨tail, rfl⟩ := own
      exact ⟨id, tail, rfl, by rw [lookup, if_pos rfl]; rfl⟩
    · rw [others ref fun tail same => own ⟨tail, same⟩] at there
      obtain ⟨id', tail, same, recorded⟩ := inv.owned ref there begins
      refine ⟨id', tail, same, ?_⟩
      rwa [lookup, if_neg]
      rintro rfl
      exact own ⟨tail, same⟩
  · rw [lookup] at none
    split at none
    · cases none
    · rename_i other
      rw [lists, update_of_ne other]
      exact inv.unlisted id' none
  · rcases cases found₁ with ⟨rfl, rfl⟩ | ⟨-, found₁⟩
    · rcases cases found₂ with ⟨rfl, -⟩ | ⟨-, found₂⟩
      · rfl
      · exact (only id₂ r₂ found₂ same.symm).symm
    · rcases cases found₂ with ⟨rfl, rfl⟩ | ⟨-, found₂⟩
      · exact only id₁ r₁ found₁ same
      · exact inv.distinct id₁ id₂ r₁ r₂ found₁ found₂ same
  · rw [records]
    exact length_insert_le _ _ _ inv.bounded fun none => (fresh none).1
  · rw [deleted] at member
    rw [lookup, if_neg]
    · exact inv.gone id' member
    · rintro rfl
      exact (fresh (inv.gone id' member)).2 member

/-- A record is written again, with its servers and its list. -/
theorem InStep.rewrite (inv : InStep core b) (found : b.records.lookup id = some r)
    (records : b'.records = b.records.insert id r') (lists : b'.lists = b.lists)
    (deleted : b'.deleted = b.deleted)
    (written : persist core.time fault id r' ∅ [] b.vault = .ok b'.vault) (utf8 : r'.utf8 = true)
    (servers : r'.servers = r.servers) (parts : r'.listParts = r.listParts)
    (only : ∀ id' r'', b.records.lookup id' = some r'' → r''.url = r'.url → id' = id) :
    InStep core b' := by
  refine inv.put records (lists.trans (update_eq_self id b.lists).symm) deleted
    ((inv.kept id r found).rewrite utf8 servers parts written) (fun ref other => ?_) only
    fun none => nomatch found.symm.trans none
  exact lookup_of_persist written fun same => other _ (same.trans (recordRef_eq id))

/-! ## The lock sections -/

/-- The texts of the settings are UTF-8, as those of every message are. -/
def Edit.utf8 (e : Edit) : Bool := [e.link, e.name, e.agent].all Json.valid

def Info.utf8 (i : Info) : Bool :=
  [i.title, i.webPageURL, i.supportURL, i.announce].all Json.valid

/-- The texts of the answer's metadata, and the key of its error, are UTF-8. -/
def Fetched.utf8 : Fetched → Bool
  | .failed e => Json.valid e.key
  | .answered info (.error e) => info.utf8 && Json.valid e.key
  | .answered info (.ok _) => info.utf8

/-- The identifier is one of `newSubscriptionID` that was never drawn before. -/
def Book.isNew (id : Bytes) (b : Book) : Bool :=
  isHex 16 id && (b.records.lookup id).isNone && !b.deleted.contains id

/-- The error texts of the environment are UTF-8. -/
def Choice.utf8 (c : Choice) : Bool :=
  Json.valid c.detail && c.applied.all fun e => Json.valid e.key

/-- The book with an environment whose error texts are UTF-8. -/
def legible (core : Core) : Machine Op Book where
  Choice := { c : Choice // c.utf8 = true }
  perform _ c op b := perform core c.1 op b

/-- The runs in which every text that comes into the book is UTF-8 and no identifier is drawn
twice. -/
def readable : Admission Op Book := fun _ op b answer _ =>
  match op, answer with
  | .save e, .ok saved => e.utf8 && (e.id != [] || b.isNew saved.id)
  | .finish _ _ fetched, _ => fetched.utf8
  | _, _ => true

variable {e : Edit}

theorem Edit.valid_link (settings : e.utf8 = true) : Json.valid e.link = true :=
  Bool.and_elim_left settings

theorem utf8_complete (settings : e.utf8 = true) (link : Json.valid r.url = true)
    (info : r.info.utf8 = true) (servers : r.servers.all Json.valid = true)
    (failure : r.lastError.all (fun e => Json.valid e.key && Json.valid e.detail) = true) :
    (e.complete r).utf8 = true := by
  simp only [Edit.utf8, Info.utf8, all_cons, Bool.and_eq_true] at settings info
  simp [Record.utf8, Edit.complete, settings, link, info, servers, failure]

/-- The texts of a record, by their origin. -/
theorem Record.utf8_iff : r.utf8 = true ↔
    Json.valid r.url = true ∧ Json.valid r.name = true ∧ Json.valid r.userAgent = true ∧
      r.info.utf8 = true ∧ r.servers.all Json.valid = true ∧
      r.lastError.all (fun e => Json.valid e.key && Json.valid e.detail) = true := by
  simp only [Record.utf8, Info.utf8, all_cons, Bool.and_eq_true]
  tauto

theorem InStep.save (inv : InStep core b) (e : Edit)
    (admitted : readable _ (.save e) b (b.save core c e).1 (b.save core c e).2 = true) :
    InStep core (b.save core c e).2 := by
  have how := save_cases core c e b
  revert admitted
  generalize b.save core c e = result at how
  intro admitted
  cases how with
  | refused err => exact inv
  | created id vault new link only room drawn written =>
    simp only [readable, Bool.and_eq_true, Bool.or_eq_true, bne_iff_ne, ne_eq, new,
      not_true_eq_false, false_or] at admitted
    obtain ⟨settings, fresh⟩ := admitted
    simp only [isNew, Bool.and_eq_true, isNone_iff_eq_none, Bool.not_eq_true',
      contains_eq_mem, decide_eq_false_iff_not] at fresh
    obtain ⟨⟨named, none⟩, alive⟩ := fresh
    have kept := kept_of_created named (utf8_complete settings (Edit.valid_link settings) rfl rfl
      rfl) rfl rfl (inv.free named none) written
    refine inv.put rfl ?_ rfl kept (fun ref other => ?_) (fun id' r' found same => ?_)
      fun _ => ⟨room, alive⟩
    · rw [← inv.unlisted id none, update_eq_self]
      rfl
    · exact lookup_of_persist written fun same => other _ (same.trans (recordRef_eq id))
    · -- every other record has a name, which the settings of a new one have not
      have unnamed := only id' r' found same
      have length := length_of_isHex (inv.kept id' r' found).named
      rw [unnamed, new] at length
      cases length
  | moved old vault found link only written =>
    obtain ⟨settings, -⟩ := Bool.and_eq_true_iff.mp admitted
    obtain ⟨-, -, -, info, servers, -⟩ := Record.utf8_iff.mp (inv.kept e.id old found).utf8
    exact inv.rewrite found rfl rfl rfl written
      (utf8_complete settings (Edit.valid_link settings) info servers rfl) rfl rfl only
  | kept old vault found written =>
    obtain ⟨settings, -⟩ := Bool.and_eq_true_iff.mp admitted
    obtain ⟨url, -, -, info, servers, failure⟩ :=
      Record.utf8_iff.mp (inv.kept e.id old found).utf8
    exact inv.rewrite found rfl rfl rfl written (utf8_complete settings url info servers failure)
      rfl rfl fun id' r' found' same => inv.distinct id' e.id r' old found' found same

theorem InStep.delete (inv : InStep core b) (c : Choice) (id : Bytes) :
    InStep core (b.delete c id).2 := by
  have how := delete_cases c id b
  generalize b.delete c id = result at how
  cases how with
  | refused err => exact inv
  | erased r vault found written =>
    have kept := inv.kept id r found
    have after : ∀ ref, vault.lookup ref =
        if ref ∈ references id r then none else b.vault.lookup ref := by
      intro ref
      rw [applyChange_ok written, lookup_empty, none_or]
    have lookup : ∀ id', id' ≠ id → (b.records.erase id).lookup id' = b.records.lookup id' :=
      fun id' other => lookup_erase_ne other
    have erased : (b.records.erase id).lookup id = none := lookup_erase _ _
    have left : ∀ {id' r'}, (b.records.erase id).lookup id' = some r' →
        id' ≠ id ∧ b.records.lookup id' = some r' := by
      intro id' r' found'
      have other : id' ≠ id := by
        rintro rfl
        rw [erased] at found'
        cases found'
      exact ⟨other, lookup id' other ▸ found'⟩
    refine ⟨fun id' r' found' => ?_, fun ref there begins => ?_, fun id' none => ?_,
      fun id₁ id₂ r₁ r₂ found₁ found₂ => ?_, ?_, fun id' member => ?_⟩
    · obtain ⟨other, found'⟩ := left found'
      have before := inv.kept id' r' found'
      change Kept core vault id' r' (update b.lists id [] id')
      rw [update_of_ne other]
      refine before.frame fun tail => ?_
      rw [after, if_neg]
      intro inside
      obtain ⟨tail', same⟩ := kept.shaped inside
      exact other (reference_inj before.named kept.named same).1
    · change (vault.lookup ref).isSome = true at there
      rw [after] at there
      split at there
      · cases there
      · rename_i outside
        obtain ⟨id', tail, rfl, recorded⟩ := inv.owned ref there begins
        have other : id' ≠ id := by
          rintro rfl
          exact outside ((kept.here tail).mp there)
        exact ⟨id', tail, rfl, (congrArg isSome (lookup id' other)).trans recorded⟩
    · change update b.lists id [] id' = []
      by_cases here : id' = id
      · rw [here, update_self]
      · rw [update_of_ne here]
        exact inv.unlisted id' ((lookup id' here).symm.trans none)
    · exact inv.distinct id₁ id₂ r₁ r₂ (left found₁).2 (left found₂).2
    · have fewer : (b.records.erase id).keys.length ≤ b.records.keys.length :=
        Secret.length_keys_erase_le _ _
      rw [← length_entries, ← length_entries] at fewer
      exact fewer.trans inv.bounded
    · change (b.records.erase id).lookup id' = none
      by_cases here : id' = id
      · rw [here, erased]
      · rw [lookup id' here]
        exact inv.gone id' ((mem_cons.mp member).resolve_left here)

theorem InStep.start (inv : InStep core b) (c : Choice) (id : Bytes) :
    InStep core (b.start core c id).2 := by
  have how := start_cases core c id b
  generalize b.start core c id = result at how
  cases how with
  | missing none | already r found busy | unable r found none => exact inv
  | started r found idle => exact inv.congr rfl rfl rfl rfl

/-- The key of an update's error is UTF-8: those of the vault are, and so is the answer's. -/
theorem valid_key_of_update (environment : c.utf8 = true) (answer : fetched.utf8 = true)
    (cause : b.update core c id r fetched = .error err) : Json.valid err.key = true := by
  have unavailable : Json.valid keySecretStoreUnavailable = true := by decide
  cases fetched with
  | failed e =>
    cases cause
    exact answer
  | answered info parsed =>
    cases parsed with
    | error e =>
      cases cause
      exact (Bool.and_eq_true_iff.mp answer).2
    | ok servers =>
      simp only [Book.update, Book.applyUpdate] at cause
      split at cause
      · cases cause
        exact unavailable
      · split at cause
        · rename_i e failure
          cases cause
          unfold persist applyChange at failure
          split at failure
          · cases failure
            exact unavailable
          · split at failure
            · cases failure
              unfold ofStore
              dsimp only
              split <;> decide
            · split at failure
              · cases failure
                exact unavailable
              · split at failure
                · rename_i e applied
                  cases failure
                  obtain ⟨-, keys⟩ := Bool.and_eq_true_iff.mp environment
                  rw [applied] at keys
                  exact keys
                · cases failure
        · cases cause

theorem InStep.finish (inv : InStep core b) (environment : c.utf8 = true)
    (answer : fetched.utf8 = true) : InStep core (b.finish core c id link fetched).2 := by
  have how := finish_cases core c id link fetched b
  generalize b.finish core c id link fetched = result at how
  cases how with
  | gone none | moved r found other | unrecorded r err found same => exact inv.congr rfl rfl rfl rfl
  | updated r info servers vault found same answered valid written =>
    have kept := inv.kept id r found
    obtain ⟨url, name, agent, -, -, -⟩ := Record.utf8_iff.mp kept.utf8
    have metadata : info.utf8 = true := by
      subst answered
      exact answer
    have servers_utf8 : ((servers.map fun s => serverRef id s.digest).insertionSort (· ≤ ·)).all
        Json.valid = true := by
      rw [all_eq_true]
      intro ref inside
      rw [mem_insertionSort, mem_map] at inside
      obtain ⟨s, -, rfl⟩ := inside
      exact valid_serverRef kept.named s.digest.2
    have kept' := kept.update rfl rfl (Record.utf8_iff.mpr
      ⟨url, name, agent, metadata, servers_utf8, rfl⟩) valid written
    refine inv.put rfl rfl rfl kept' (fun ref other => ?_)
      (fun id' r' found' same' => inv.distinct id' id r' r found' found same')
      fun none => nomatch found.symm.trans none
    obtain ⟨-, -, others⟩ := persist_ok written
    refine (others ref fun same => other _ (same.trans (recordRef_eq id))).trans ?_
    have unput : (updatePuts id servers
        (core.wire.marshal (servers.map (·.spec)))).lookup ref = none := by
      by_contra put
      rcases (lookup_updatePuts_isSome _ _ _ _).mp (isSome_iff_ne_none.mpr put) with
        ⟨s, -, rfl⟩ | ⟨part, -, rfl⟩
      · exact other _ (serverRef_eq id s.digest)
      · exact other _ (listRef_eq id part)
    rw [unput, none_or, if_neg]
    rw [mem_updateDeletes]
    rintro (⟨server, -⟩ | ⟨part, -, -, rfl⟩)
    · obtain ⟨digest, -, rfl⟩ := kept.servers ref server
      exact other _ (serverRef_eq id digest)
    · exact other _ (listRef_eq id part)
  | failed r err vault found same written cause =>
    obtain ⟨url, name, agent, before, servers, -⟩ :=
      Record.utf8_iff.mp (inv.kept id r found).utf8
    have key := valid_key_of_update environment answer cause
    obtain ⟨detail, -⟩ := Bool.and_eq_true_iff.mp environment
    have info : (failedRecord c fetched err { r with lastAttempt := c.now }).info.utf8 = true := by
      cases fetched with
      | failed e => exact before
      | answered info parsed =>
        cases parsed with
        | error e => exact (Bool.and_eq_true_iff.mp answer).1
        | ok servers => exact answer
    have utf8 : (failedRecord c fetched err { r with lastAttempt := c.now }).utf8 = true :=
      Record.utf8_iff.mpr ⟨url, name, agent, info, servers, by simp [failedRecord, key, detail]⟩
    exact inv.rewrite found rfl rfl rfl written utf8 rfl rfl
      fun id' r' found' same' => inv.distinct id' id r' r found' found same'

/-! ## Loading the vault -/

/-- What stands after the last occurrence of a byte. -/
theorem after_last {α : Type} {x : α} {p q s t : List α} (fresh : x ∉ s) (fresh' : x ∉ t)
    (same : p ++ x :: s = q ++ x :: t) : s = t := by
  rcases append_eq_append_iff.mp same with ⟨rest, -, tails⟩ | ⟨rest, -, tails⟩
  · cases rest with
    | nil => exact (cons.inj tails).2
    | cons y rest =>
      refine absurd ?_ fresh
      rw [(cons.inj tails).2]
      exact mem_append_right _ mem_cons_self
  · cases rest with
    | nil => exact (cons.inj tails).2.symm
    | cons y rest =>
      refine absurd ?_ fresh'
      rw [(cons.inj tails).2]
      exact mem_append_right _ mem_cons_self

theorem recordRef_begins (id : Bytes) : (ascii "u1_").isPrefixOf (recordRef id) = true := by
  rw [ isPrefixOf_iff_prefix]
  exact prefix_append _ _

theorem recordRef_ends (id : Bytes) : (ascii "_rec").isSuffixOf (recordRef id) = true := by
  rw [isSuffixOf_iff_suffix]
  exact suffix_append _ _

theorem rec_of_ends {tail : Bytes} (shape : Tail tail)
    (ends : (ascii "_rec").isSuffixOf (reference id tail) = true) : tail = ascii "rec" := by
  obtain ⟨rest, same⟩ := isSuffixOf_iff_suffix.mp ends
  have same : rest ++ 95 :: ascii "rec" = (ascii "u1_" ++ id) ++ 95 :: tail := by
    exact same
  exact (after_last (by decide) shape.underscore same).symm

/-- A reference of the vault is that of a record, which is loaded, or is passed over. -/
theorem InStep.loadRef (inv : InStep core b) (there : (b.vault.lookup ref).isSome = true)
    (loaded : (AList fun _ : Bytes => Record) × (Bytes → List OutboundSpec)) :
    (∃ id r, b.records.lookup id = some r ∧ ref = recordRef id ∧
        Control.loadRef core b.vault loaded ref =
          (loaded.1.insert id r, update loaded.2 id (b.lists id))) ∨
      ((∀ id, ref ≠ recordRef id) ∧ Control.loadRef core b.vault loaded ref = loaded) := by
  unfold Control.loadRef
  split
  · rename_i shape
    obtain ⟨begins, ends⟩ := Bool.and_eq_true_iff.mp shape
    obtain ⟨id, tail, rfl, recorded⟩ := inv.owned ref there ( isPrefixOf_iff_prefix.mp begins)
    obtain ⟨r, found⟩ := isSome_iff_exists.mp recorded
    have kept := inv.kept id r found
    obtain rfl := rec_of_ends (kept.tail ((kept.here tail).mp there)) ends
    rw [← recordRef_eq, kept.read]
    have named : id ≠ [] := by
      rintro rfl
      exact absurd kept.named (by decide)
    refine .inl ⟨id, r, found, rfl, ?_⟩
    change (if id = [] then _ else _) = _
    rw [if_neg named, kept.list]
  · rename_i shape
    refine .inr ⟨?_, rfl⟩
    rintro id rfl
    exact shape (Bool.and_eq_true_iff.mpr ⟨recordRef_begins id, recordRef_ends id⟩)

/-- The loop of `load` over some references of the vault. -/
theorem InStep.foldl_loadRef (inv : InStep core b) (id : Bytes) : ∀ (refs : List Bytes)
    (loaded : (AList fun _ : Bytes => Record) × (Bytes → List OutboundSpec)),
    (∀ ref ∈ refs, (b.vault.lookup ref).isSome = true) →
    ((refs.foldl (Control.loadRef core b.vault) loaded).1.lookup id,
        (refs.foldl (Control.loadRef core b.vault) loaded).2 id) =
      if (b.records.lookup id).isSome = true ∧ recordRef id ∈ refs
      then (b.records.lookup id, b.lists id) else (loaded.1.lookup id, loaded.2 id) := by
  intro refs
  induction refs with
  | nil => simp
  | cons ref refs ih =>
    intro loaded there
    rw [foldl_cons, ih _ fun ref inside => there ref (mem_cons_of_mem _ inside)]
    rcases inv.loadRef (there ref mem_cons_self) loaded with
      ⟨id', r, found, rfl, done⟩ | ⟨other, done⟩
    · rw [done]
      by_cases here : id = id'
      · subst here
        simp [found]
      · have apart : (b.records.lookup id).isSome = true → recordRef id ≠ recordRef id' := by
          intro recorded same
          obtain ⟨r', found'⟩ := isSome_iff_exists.mp recorded
          exact here (reference_inj (inv.kept id r' found').named (inv.kept id' r found).named
            same).1
        dsimp only
        rw [lookup_insert_ne here, update_of_ne here]
        refine if_congr (and_congr_right fun recorded => ?_) rfl rfl
        rw [mem_cons, or_iff_right (apart recorded)]
    · rw [done]
      refine if_congr (and_congr_right fun _ => ?_) rfl rfl
      rw [mem_cons, or_iff_right (other id).symm]

/-- Loading the vault gives the book's records and lists. -/
theorem InStep.load (inv : InStep core b) (id : Bytes) :
    ((Control.load core b.vault).1.lookup id, (Control.load core b.vault).2 id) =
      (b.records.lookup id, b.lists id) := by
  rw [Control.load, inv.foldl_loadRef id]
  · cases found : b.records.lookup id with
    | none => simp [inv.unlisted id found]
    | some r =>
      rw [if_pos]
      refine ⟨rfl, ?_⟩
      rw [mem_insertionSort, ← AList.mem_keys, ← AList.lookup_isSome, recordRef_eq,
        (inv.kept id r found).here, mem_references]
      exact .inl rfl
  · intro ref inside
    rw [mem_insertionSort] at inside
    exact lookup_isSome.mpr inside

/-- The entries under a subscription's name are exactly those of its record. -/
theorem InStep.references (inv : InStep core b) (id ref : Bytes)
    (begins : ascii "u1_" ++ id ++ ascii "_" <+: ref) :
    (b.vault.lookup ref).isSome = true ↔
      ∃ r, b.records.lookup id = some r ∧ ref ∈ references id r := by
  constructor
  · intro there
    have mark : ascii "u1_" <+: ref := by
      refine .trans ?_ begins
      exact prefix_append _ _
    obtain ⟨id', tail, rfl, recorded⟩ := inv.owned ref there mark
    obtain ⟨r, found⟩ := isSome_iff_exists.mp recorded
    have kept := inv.kept id' r found
    have inside := (kept.here tail).mp there
    obtain rfl := id_of_reference kept.named (kept.tail inside) begins
    exact ⟨r, found, inside⟩
  · rintro ⟨r, found, inside⟩
    have kept := inv.kept id r found
    obtain ⟨tail, rfl⟩ := kept.shaped inside
    exact (kept.here tail).mpr inside

/-! ## Runs -/

theorem inStep_step {β : Type} {op : Op β} {answer : β} (environment : c.utf8 = true)
    (inv : InStep core b) (step : perform core c op b = some (answer, b'))
    (admitted : readable β op b answer b' = true) : InStep core b' := by
  cases performed step with
  | save e => exact inv.save e admitted
  | delete id => exact inv.delete c id
  | start id => exact inv.start c id
  | finish => exact inv.finish environment admitted
  | _ => exact inv.congr rfl rfl rfl rfl

/-- A book without records agrees with a vault without entries of subscriptions. -/
theorem inStep_of_empty (records : b.records = ∅) (lists : ∀ id, b.lists id = [])
    (vault : ∀ ref, ascii "u1_" <+: ref → b.vault.lookup ref = none) : InStep core b := by
  have none : ∀ id, b.records.lookup id = .none := by
    intro id
    rw [records, lookup_empty]
  refine ⟨?_, ?_, fun id _ => lists id, ?_, ?_, fun id _ => none id⟩
  · intro id r found
    rw [none] at found
    cases found
  · intro ref there begins
    rw [vault ref begins] at there
    cases there
  · intro id id' r r' found
    rw [none] at found
    cases found
  · rw [records]
    exact Nat.zero_le _

/-- What an update that fails leaves: every list, and of the vault everything but the record. -/
theorem Book.finish_failed (failed : b.finish core c id link fetched = (some err, b')) :
    b'.lists = b.lists ∧
      (∀ id', (b'.records.lookup id').map (fun r => (r.servers, r.listParts)) =
        (b.records.lookup id').map fun r => (r.servers, r.listParts)) ∧
      ∀ ref, ref ≠ recordRef id → b'.vault.lookup ref = b.vault.lookup ref := by
  have how := finish_cases core c id link fetched b
  rw [failed] at how
  cases how with
  | gone none | moved r found other | unrecorded r err found same =>
    exact ⟨rfl, fun _ => rfl, fun _ _ => rfl⟩
  | failed r err vault found same written cause =>
    refine ⟨rfl, fun id' => ?_, fun ref other => ?_⟩
    · rw [announce_records]
      by_cases here : id' = id
      · subst here
        rw [lookup_insert, found]
        rfl
      · rw [lookup_insert_ne here]
        rfl
    · exact lookup_of_persist written other

/-- In every run in which the texts that come into the book are UTF-8 and no identifier is drawn
twice: the entries under the name of a subscription are its record, its servers and its list, and
there are none without a record; the vault gives the book's records and lists again; no two
records have a link in common, there are at most a hundred, and what was deleted stays so; and an
update that fails leaves the lists and the credentials. -/
theorem book_and_vault_in_step {b₀ : Book} (initial : InStep core b₀) {pool : Pool Op Book}
    (reach : Pool.Reach (legible core) (Call.program core) readable ⟨b₀, []⟩ pool) :
    (∀ id ref, ascii "u1_" ++ id ++ ascii "_" <+: ref →
      ((pool.world.vault.lookup ref).isSome = true ↔
        ∃ r, pool.world.records.lookup id = some r ∧ ref ∈ Book.references id r)) ∧
      (∀ id, ((load core pool.world.vault).1.lookup id, (load core pool.world.vault).2 id) =
        (pool.world.records.lookup id, pool.world.lists id)) ∧
      (∀ id id' r r', pool.world.records.lookup id = some r →
        pool.world.records.lookup id' = some r' → r.url = r'.url → id = id') ∧
      pool.world.records.entries.length ≤ maxSubscriptions ∧
      (∀ id ∈ pool.world.deleted, pool.world.records.lookup id = none) ∧
      ∀ c id link fetched err b', pool.world.finish core c id link fetched = (some err, b') →
        b'.lists = pool.world.lists ∧
          (∀ id', (b'.records.lookup id').map (fun r => (r.servers, r.listParts)) =
            (pool.world.records.lookup id').map fun r => (r.servers, r.listParts)) ∧
          ∀ ref, ref ≠ recordRef id → b'.vault.lookup ref = pool.world.vault.lookup ref := by
  have inv : InStep core pool.world := reach.keeps (InStep core) initial
    fun o b b' i c answer inv step admitted => inStep_step c.2 inv step admitted
  exact ⟨inv.references, inv.load, inv.distinct, inv.bounded, inv.gone,
    fun c id link fetched err b' failed => finish_failed failed⟩

/-! ## A page link that is no text -/

/-- A body whose first line names the provider's page. -/
def pageBody (link : Bytes) : Bytes := ascii "#profile-web-page-url: " ++ link

/-- The metadata of such a body. -/
def pageInfo (link : Bytes) : Info := parseInfo (fun _ => none) (fun _ => []) (pageBody link)

/-- A server that an answer names. -/
def someServer : Server where
  spec :=
    { id := ascii "trojan:s.example:443:0", displayName := ascii "s", protocol := ascii "trojan"
      displayProtocol := [], transport := ascii "tcp", security := ascii "tls"
      host := ascii "s.example", port := 443
      reference := ascii "u1_0123456789abcdef_0123456789abcdef01234567" }
  digest := ⟨ascii "0123456789abcdef01234567", by decide⟩
  document := ascii "\x7b\x7d"

/-- The subscription is created and updated, and the answer names that page. -/
def pageUpdate (link : Bytes) : List (Move Call { c : Choice // c.utf8 = true }) :=
  [.spawn (.save { url := oldLink }), .step 0 ⟨{ newID := .ok someID }, rfl⟩,
    .spawn .goroutine, .step 1 ⟨{}, rfl⟩, .step 1 ⟨{}, rfl⟩,
    .step 1 ⟨{ fetched := .answered (pageInfo link) (.ok [someServer]) }, rfl⟩, .step 1 ⟨{}, rfl⟩]

def plainPage : Bytes := ascii "https://panel.example/?"

def strayPage : Bytes := plainPage ++ [0xFF]

/-- The page in the book and in the book that the vault gives, and the server's list there. -/
def pageOutcome (pool : Pool Op Book) : Option Bytes × Option Bytes × Bool :=
  ((pool.world.records.lookup someID).map (·.info.webPageURL),
    ((load fetchingCore pool.world.vault).1.lookup someID).map (·.info.webPageURL),
    (load fetchingCore pool.world.vault).2 someID = [someServer.spec])

theorem stray_page_not_loaded :
    ∃ pool, Pool.Reach (legible fetchingCore) (Call.program fetchingCore) everything
        ⟨.loaded ∅, []⟩ pool ∧
      (load fetchingCore pool.world.vault).1.lookup someID ≠ pool.world.records.lookup someID := by
  obtain ⟨pool, ran, same⟩ := map_eq_some_iff.mp
    (show (Pool.exec (legible fetchingCore) (Call.program fetchingCore) everything
        ⟨.loaded ∅, []⟩ (pageUpdate strayPage)).map pageOutcome =
      some (some strayPage, some (plainPage ++ Json.replacement), true) by decide +kernel)
  simp only [pageOutcome, Prod.mk.injEq] at same
  refine ⟨pool, Pool.reach_of_exec .refl ran, fun equal => ?_⟩
  rw [equal, same.1] at same
  exact absurd same.2.1 (by decide)

theorem plain_page_loaded :
    ∃ pool, Pool.exec (legible fetchingCore) (Call.program fetchingCore) readable
        ⟨.loaded ∅, []⟩ (pageUpdate plainPage) = some pool ∧
      (load fetchingCore pool.world.vault).1.lookup someID = pool.world.records.lookup someID ∧
      (pool.world.records.lookup someID).map (·.info.webPageURL) = some plainPage := by
  obtain ⟨pool, ran, same⟩ := map_eq_some_iff.mp
    (show (Pool.exec (legible fetchingCore) (Call.program fetchingCore) readable
        ⟨.loaded ∅, []⟩ (pageUpdate plainPage)).map pageOutcome =
      some (some plainPage, some plainPage, true) by decide +kernel)
  obtain ⟨-, loads, -⟩ := book_and_vault_in_step
    (inStep_of_empty rfl (fun _ => rfl) fun _ _ => rfl) (Pool.reach_of_exec .refl ran)
  simp only [pageOutcome, Prod.mk.injEq] at same
  exact ⟨pool, ran, (Prod.mk.inj (loads someID)).1, same.1⟩

end Sora.Control
