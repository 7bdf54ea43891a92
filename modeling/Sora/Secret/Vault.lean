import Sora.Secret.Store

/-!
# Memory and vault in step

`Sound` says what a store's memory looks like, `Kept` that its directory holds the same map.
Both survive every call, whatever fails in it: a failed write leaves the vault as it was and
the call undoes its change in memory, and no wiped slice is one that the map still uses.
-/

namespace Sora.Secret

open Sora.Lib List Function Nat
open Option hiding map_map

/-! ## Slices -/

section Slices

variable {h : Heap} {a b : Nat} {bytes : Bytes}

@[simp] theorem alloc_snd : (h.alloc bytes).2 = h.next := rfl

@[simp] theorem alloc_next : (h.alloc bytes).1.next = h.next + 1 := rfl

@[simp] theorem alloc_cells_new : (h.alloc bytes).1.cells h.next = bytes := by simp [Heap.alloc]

theorem alloc_cells_old (old : a < h.next) : (h.alloc bytes).1.cells a = h.cells a := by
  simp [Heap.alloc, update_of_ne (Nat.ne_of_lt old)]

@[simp] theorem wipe_next : (h.wipe b).next = h.next := rfl

theorem wipe_cells_ne (other : a ≠ b) : (h.wipe b).cells a = h.cells a := by
  simp [Heap.wipe, update_of_ne other]

@[simp] theorem wipe_length : ((h.wipe b).cells a).length = (h.cells a).length := by
  by_cases same : a = b
  · subst same
    simp [Heap.wipe]
  · rw [wipe_cells_ne same]

end Slices

/-- What `insertAll` makes of a map: new addresses for the new values, the old ones untouched. -/
structure Inserted (values : List (Sigma fun _ : Bytes => Bytes)) (h : Heap) (m : Map Nat)
    (h' : Heap) (m' : Map Nat) : Prop where
  grows : h.next ≤ h'.next
  old : ∀ a < h.next, h'.cells a = h.cells a
  new : ∀ p ∈ values, ∃ a, m'.lookup p.1 = some a ∧ h.next ≤ a ∧ a < h'.next ∧ h'.cells a = p.2
  other : ∀ r, r ∉ values.keys → m'.lookup r = m.lookup r
  apart : ∀ r ∈ values.keys, ∀ r' ∈ values.keys, m'.lookup r = m'.lookup r' → r = r'

variable {m' : Map Nat} {h' : Heap}

theorem Inserted.cons {p : Sigma fun _ : Bytes => Bytes}
    {rest : List (Sigma fun _ : Bytes => Bytes)} {h : Heap} {m : Map Nat}
    (step : Inserted rest (h.alloc p.2).1 (m.insert p.1 (h.alloc p.2).2) h' m')
    (fresh : p.1 ∉ rest.keys) : Inserted (p :: rest) h m h' m' := by
  have grows : h.next + 1 ≤ h'.next := step.grows
  have first : m'.lookup p.1 = some h.next := by
    rw [step.other p.1 fresh, AList.lookup_insert]
    rfl
  have later : ∀ r ∈ rest.keys, ∃ a, m'.lookup r = some a ∧ h.next < a := by
    intro r listed
    obtain ⟨content, member⟩ := mem_keys.mp listed
    obtain ⟨a, found, above, -⟩ := step.new _ member
    exact ⟨a, found, above⟩
  refine ⟨by omega, fun a old => ?_, fun q member => ?_, fun r absent => ?_,
    fun r listed r' listed' same => ?_⟩
  · rw [step.old a (lt_succ_of_lt old), alloc_cells_old old]
  · rcases mem_cons.mp member with rfl | member
    · refine ⟨h.next, first, le_rfl, grows, ?_⟩
      rw [step.old h.next (lt_succ_self _), alloc_cells_new]
    · obtain ⟨a, found, above, below, content⟩ := step.new q member
      rw [alloc_next] at above
      exact ⟨a, found, by omega, below, content⟩
  · obtain ⟨differs, absent⟩ := not_or.mp fun either => absent (mem_cons.mpr either)
    rw [step.other r absent, AList.lookup_insert_ne differs]
  · rcases mem_cons.mp listed with rfl | listed <;>
      rcases mem_cons.mp listed' with rfl | listed'
    · rfl
    · obtain ⟨a, found, above⟩ := later r' listed'
      rw [first, found, Option.some.injEq] at same
      omega
    · obtain ⟨a, found, above⟩ := later r listed
      rw [first, found, Option.some.injEq] at same
      omega
    · exact step.apart r listed r' listed' same

theorem inserted_insertAll (values : List (Sigma fun _ : Bytes => Bytes)) :
    ∀ (h : Heap) (m : Map Nat), values.NodupKeys →
      Inserted values h m (insertAll values h m).1 (insertAll values h m).2 := by
  induction values with
  | nil =>
    intro h m _
    exact ⟨le_rfl, fun _ _ => rfl, fun _ => (nomatch ·), fun _ _ => rfl, fun _ => (nomatch ·)⟩
  | cons p rest ih =>
    intro h m distinct
    obtain ⟨fresh, distinct⟩ := nodupKeys_cons.mp distinct
    exact (ih (h.alloc p.2).1 (m.insert p.1 (h.alloc p.2).2) distinct).cons fresh

variable {values : List (Sigma fun _ : Bytes => Bytes)}

theorem Inserted.lookup_new {h : Heap} {m : Map Nat} (inserted : Inserted values h m h' m')
    {r : Bytes} {a : Nat} (listed : r ∈ values.keys) (found : m'.lookup r = some a) :
    h.next ≤ a ∧ a < h'.next ∧ ⟨r, h'.cells a⟩ ∈ values := by
  obtain ⟨content, member⟩ := mem_keys.mp listed
  obtain ⟨a', found', above, below, cells⟩ := inserted.new _ member
  obtain rfl : a = a' := Option.some.inj (found.symm.trans found')
  exact ⟨above, below, cells.symm ▸ member⟩

/-! ## Files -/

def storeFiles : List Bytes := [vaultFile, masterFile, idFile]

variable {name path : Bytes} {s : Store} {α ν : Type} {heap : Heap} {items next : Map Nat} {e : Err}
    {disk disk' : Disk}

/-- A temporary name is none of the store's. -/
theorem temp_ne (one : path ∈ storeFiles) (other : name ∈ storeFiles) (random : Bytes) :
    path ++ (ascii ".tmp-" ++ random) ≠ name := by
  intro same
  have front : path.isPrefixOf name = true :=
    isPrefixOf_iff_prefix.mpr ⟨ascii ".tmp-" ++ random, same⟩
  have long : path.length < name.length := by
    rw [← same, length_append, length_append]
    exact Nat.lt_add_of_pos_right (Nat.add_pos_left (by decide) _)
  have none : ∀ path ∈ storeFiles, ∀ name ∈ storeFiles, path.isPrefixOf name = true →
      ¬ path.length < name.length := by decide
  exact none path one name other front long

/-- An atomic write replaces its file or leaves it, and touches no other file of the store. -/
theorem writeFileAtomic_spec (f : WriteFaults) (one : path ∈ storeFiles) (data : Bytes)
    (disk : Disk) (other : name ∈ storeFiles) :
    (writeFileAtomic f path data disk).1 name =
      if name = path ∧ (writeFileAtomic f path data disk).2 = none then some data
      else disk name := by
  cases created : f.create with
  | none => simp [writeFileAtomic, created]
  | some random =>
  simp only [writeFileAtomic, created]
  have apart : name ≠ path ++ (ascii ".tmp-" ++ random) := (temp_ne one other random).symm
  generalize path ++ (ascii ".tmp-" ++ random) = tmp at apart
  have quiet : ∀ (content : Option Bytes) (disk : Disk),
      update disk tmp content name = disk name :=
    fun content disk => update_of_ne apart content disk
  have synced : syncDir f = none := by
    unfold syncDir
    repeat' split
    all_goals rfl
  split
  · simp
  iterate 5
    split
    · cases f.remove <;> simp [quiet]
  · by_cases same : name = path
    · subst same
      cases f.remove <;> simp [synced, quiet]
    · cases f.remove <;> simp [quiet, same]

/-! ## Sealing -/

theorem fix_reference {reference : Bytes} (valid : validateReference reference = none) :
    Json.fix reference = reference := by
  refine Json.fix_of_valid (Json.valid_of_ascii fun c member => ?_)
  have bytes : reference.all isReferenceByte = true := by
    by_contra other
    simp only [validateReference] at valid
    split at valid
    · cases valid
    · split at valid <;> cases valid
  have low : ∀ c, isReferenceByte c = true → c < 0x80 := forall_byte (by decide +kernel)
  exact low c (all_eq_true.mp bytes c member)

theorem fix_encode (content : Bytes) :
    Json.fix (Base64.encode Base64.std content) = Base64.encode Base64.std content := by
  refine Json.fix_of_valid (Json.valid_of_ascii fun c member => ?_)
  rcases Base64.mem_encode member with rfl | ⟨n, small, rfl⟩
  · decide
  · have low : ∀ n : Fin 64, Base64.std.char n < 0x80 := by decide
    exact low ⟨n, small⟩

theorem collect_spec (references : List Bytes) (content : Bytes → Bytes) : ∀ m : Map Bytes,
    ∃ m', collect m (references.map fun r => (r, Base64.encode Base64.std (content r))) = some m' ∧
      ∀ r, m'.lookup r = if r ∈ references then some (content r) else m.lookup r := by
  induction references with
  | nil => exact fun m => ⟨m, rfl, fun r => by simp⟩
  | cons reference rest ih =>
    intro m
    obtain ⟨m', made, found⟩ := ih (m.insert reference (content reference))
    refine ⟨m', ?_, fun r => ?_⟩
    · rw [map_cons, collect, Base64.decode_encode (.inl rfl), bind_some, made]
    · rw [found r]
      by_cases later : r ∈ rest
      · simp [later]
      · by_cases here : r = reference
        · subst here
          simp
        · simp [here]

/-- Reading the printed map gives the map. -/
theorem unmarshal_marshal (valid : ∀ r ∈ s.items.keys, validateReference r = none) :
    ∃ m, unmarshal s.marshal = some m ∧ ∀ r, m.lookup r = s.view r := by
  have listed : ∀ r, r ∈ s.items.keys.mergeSort ↔ r ∈ s.items.keys := fun r =>
    (mergeSort_perm _ _).mem_iff
  obtain ⟨m, made, found⟩ := collect_spec s.items.keys.mergeSort (fun r => (s.view r).getD []) ∅
  refine ⟨m, ?_, fun r => ?_⟩
  · rw [unmarshal, Store.marshal, Json.readObject_print, bind_some, map_map, ← made]
    congr 1
    refine map_congr_left fun r member => ?_
    exact Prod.ext (fix_reference (valid r ((listed r).mp member))) (fix_encode _)
  · rw [found r]
    by_cases member : r ∈ s.items.keys
    · obtain ⟨a, there⟩ := isSome_iff_exists.mp (AList.lookup_isSome.mpr member)
      simp [member, Store.view, there]
    · have absent : s.items.lookup r = none := AList.lookup_eq_none.mpr member
      simp [member, Store.view, absent]

/-- Opening a sealed vault gives the map that was sealed. -/
theorem unsealVault_sealVault (aead : AEAD) {f : SealFaults} {raw : Bytes}
    (valid : ∀ r ∈ s.items.keys, validateReference r = none)
    (sealed : s.sealVault aead f = .ok raw) :
    ∃ m, unsealVault aead s.key s.id raw = .ok m ∧ ∀ r, m.lookup r = s.view r := by
  obtain ⟨m, made, found⟩ := unmarshal_marshal valid
  refine ⟨m, ?_, found⟩
  unfold Store.sealVault at sealed
  iterate 3
    split at sealed
    · cases sealed
  rename_i drawn _
  cases sealed
  obtain ⟨nonce, width⟩ := drawn
  have full := aead.length_sealed s.key nonce s.marshal (aad s.id)
  have inverse := aead.opened_sealed s.key nonce s.marshal (aad s.id)
  generalize aead.sealed s.key nonce s.marshal (aad s.id) = text at full inverse
  have drawn : ((vaultHeader ++ nonce ++ text).drop vaultHeader.length).take nonceLen =
      nonce := by
    rw [append_assoc, drop_left, take_left' width]
  have rest : (vaultHeader ++ nonce ++ text).drop headerLen = text := by
    have length : headerLen = (vaultHeader ++ nonce).length := by
      rw [length_append, width]
      rfl
    rw [length, drop_left]
  have long : ¬ (vaultHeader ++ nonce ++ text).length < headerLen + aeadOverhead := by
    simp only [length_append, headerLen, aeadOverhead]
    omega
  have known : (m.keys.any fun r => (validateReference r).isSome) = false := by
    refine any_eq_false.mpr fun r member => ?_
    have there : (m.lookup r).isSome := AList.lookup_isSome.mpr member
    rw [found r, Store.view, isSome_map, AList.lookup_isSome] at there
    simp [valid r there]
  rw [unsealVault, if_neg long]
  simp only [drawn, rest, inverse, made, known]
  rfl

/-! ## What holds between calls -/

/-- The memory of a store: its slices are its own and within the limits. -/
structure Sound (s : Store) : Prop where
  unclosed : s.closed = false
  below : ∀ {r a}, s.items.lookup r = some a → a < s.heap.next
  apart : ∀ {r r' a}, s.items.lookup r = some a → s.items.lookup r' = some a → r = r'
  sized : ∀ {r a}, s.items.lookup r = some a →
    s.heap.cells a ≠ [] ∧ (s.heap.cells a).length ≤ maxSecretBytes
  valid : ∀ {r a}, s.items.lookup r = some a → validateReference r = none
  few : s.items.keys.length ≤ maxSecrets

/-- A vault file, or its absence, holds the map. -/
def Holds (aead : AEAD) (key id : Bytes) (file : Option Bytes) (view : Bytes → Option Bytes) :
    Prop :=
  match file with
  | none => ∀ r, view r = none
  | some raw => raw.length ≤ maxVaultBytes ∧
      ∃ m, unsealVault aead key id raw = .ok m ∧ ∀ r, m.lookup r = view r

/-- The directory of a store: what opening it again needs. -/
structure Kept (aead : AEAD) (prot : Protector) (w : World) : Prop where
  id : w.disk idFile = some w.store.id
  idLength : w.store.id.length = storeIDLen
  master : ∃ wrapped, w.disk masterFile = some (masterHeader ++ wrapped) ∧
    prot.unprotect wrapped = some w.store.key
  keyLength : w.store.key.length = keyLen
  vault : Holds aead w.store.key w.store.id (w.disk vaultFile) w.store.view

theorem Sound.keys_valid (sound : Sound s) : ∀ r ∈ s.items.keys, validateReference r = none := by
  intro r member
  obtain ⟨a, found⟩ := isSome_iff_exists.mp (AList.lookup_isSome.mpr member)
  exact sound.valid found

/-- Maps with the same references have the same size. -/
theorem length_keys_congr {μ : Type} {m : Map ν} {m' : Map μ}
    (same : ∀ r, (m.lookup r).isSome = (m'.lookup r).isSome) : m.keys.length = m'.keys.length := by
  refine ((perm_ext_iff_of_nodup m.keys_nodup m'.keys_nodup).mpr fun r => ?_).length_eq
  rw [← AList.mem_keys, ← AList.mem_keys, ← AList.lookup_isSome, ← AList.lookup_isSome, same]

/-- What `writeLocked` does to the files of the store. -/
structure Written (aead : AEAD) (s : Store) (disk disk' : Disk) (failure : Option Err) : Prop where
  id : disk' idFile = disk idFile
  master : disk' masterFile = disk masterFile
  failed : failure ≠ none → disk' vaultFile = disk vaultFile
  done : failure = none → Holds aead s.key s.id (disk' vaultFile) s.view

theorem written_writeLocked (aead : AEAD) (f : Faults)
    (valid : ∀ r ∈ s.items.keys, validateReference r = none) (disk : Disk) :
    Written aead s disk (writeLocked aead f s disk).1 (writeLocked aead f s disk).2 := by
  have vault : vaultFile ∈ storeFiles := by decide
  unfold writeLocked
  split
  · exact ⟨rfl, rfl, fun _ => rfl, (nomatch ·)⟩
  rename_i raw sealed
  split
  · exact ⟨rfl, rfl, fun _ => rfl, (nomatch ·)⟩
  rename_i fits
  have spec := fun name (member : name ∈ storeFiles) =>
    writeFileAtomic_spec f.write vault raw disk member
  refine ⟨?_, ?_, fun failed => ?_, fun done => ?_⟩
  · rw [spec idFile (by decide), if_neg fun both => absurd both.1 (by decide)]
  · rw [spec masterFile (by decide), if_neg fun both => absurd both.1 (by decide)]
  · rw [spec vaultFile vault, if_neg fun both => failed both.2]
  · rw [spec vaultFile vault, if_pos ⟨rfl, done⟩]
    exact ⟨Nat.le_of_not_lt fits, unsealVault_sealVault aead valid sealed⟩

/-- A call that undoes its change: the map as before, in memory that only grew. -/
theorem Sound.restore (sound : Sound s) (same : ∀ r, items.lookup r = s.items.lookup r)
    (grows : s.heap.next ≤ heap.next) (old : ∀ a < s.heap.next, heap.cells a = s.heap.cells a) :
    Sound { s with items := items, heap := heap } ∧
      Store.view { s with items := items, heap := heap } = s.view := by
  constructor
  · refine ⟨sound.unclosed, fun found => ?_, fun found found' => ?_, fun found => ?_,
      fun found => ?_, ?_⟩
    · rw [same] at found
      exact (sound.below found).trans_le grows
    · rw [same] at found found'
      exact sound.apart found found'
    · rw [same] at found
      rw [old _ (sound.below found)]
      exact sound.sized found
    · rw [same] at found
      exact sound.valid found
    · have size : items.keys.length = s.items.keys.length :=
        length_keys_congr fun r => by rw [same]
      exact size.trans_le sound.few
  · funext r
    rw [Store.view, Store.view, same]
    cases found : s.items.lookup r with
    | none => rfl
    | some a => exact congrArg some (old a (sound.below found))

theorem checkMaterial_none {reference material : Bytes}
    (checked : checkMaterial reference material = none) :
    validateReference reference = none ∧ material ≠ [] ∧ material.length ≤ maxSecretBytes := by
  unfold checkMaterial at checked
  split at checked
  · cases checked
  rename_i valid
  split at checked
  · cases checked
  rename_i nonempty
  split at checked
  · cases checked
  rename_i fits
  refine ⟨?_, nonempty, Nat.le_of_not_lt fits⟩
  cases named : validateReference reference with
  | none => rfl
  | some e => exact absurd named (valid e)

/-- A call that changes the map: copies of the values, none of the deleted references, and
memory in which only slices outside the new map were wiped. -/
theorem Sound.replace (sound : Sound s) {deletes : List Bytes} {erased : Map Nat} {h'' : Heap}
    (erases : ∀ r, erased.lookup r = if r ∈ deletes then none else s.items.lookup r)
    (inserted : Inserted values s.heap erased h' m')
    (checked : ∀ p ∈ values, checkMaterial p.1 p.2 = none) (few : m'.keys.length ≤ maxSecrets)
    (next : h''.next = h'.next) (used : ∀ r a, m'.lookup r = some a → h''.cells a = h'.cells a) :
    Sound { s with items := m', heap := h'' } ∧
      Store.view { s with items := m', heap := h'' } = Store.view { s with items := m', heap := h' } ∧
      (∀ p ∈ values, Store.view { s with items := m', heap := h'' } p.1 = some p.2) ∧
      ∀ r, r ∉ values.keys → Store.view { s with items := m', heap := h'' } r =
        if r ∈ deletes then none else s.view r := by
  have kept : ∀ {r a}, r ∉ values.keys → m'.lookup r = some a →
      r ∉ deletes ∧ s.items.lookup r = some a := by
    intro r a absent found
    rw [inserted.other r absent, erases] at found
    split at found
    · cases found
    · exact ⟨‹_›, found⟩
  refine ⟨⟨sound.unclosed, fun {r a} found => ?_, fun {r r' a} found found' => ?_,
    fun {r a} found => ?_, fun {r a} found => ?_, few⟩, ?_, fun p member => ?_, fun r absent => ?_⟩
  · rw [next]
    by_cases listed : r ∈ values.keys
    · exact (inserted.lookup_new listed found).2.1
    · exact (sound.below (kept listed found).2).trans_le inserted.grows
  · -- new addresses lie above the old ones
    by_cases listed : r ∈ values.keys <;> by_cases listed' : r' ∈ values.keys
    · exact inserted.apart r listed r' listed' (found.trans found'.symm)
    · exact absurd (sound.below (kept listed' found').2) (not_lt.mpr
        (inserted.lookup_new listed found).1)
    · exact absurd (sound.below (kept listed found).2) (not_lt.mpr
        (inserted.lookup_new listed' found').1)
    · exact sound.apart (kept listed found).2 (kept listed' found').2
  · rw [used r a found]
    by_cases listed : r ∈ values.keys
    · exact (checkMaterial_none (checked _ (inserted.lookup_new listed found).2.2)).2
    · obtain ⟨-, was⟩ := kept listed found
      rw [inserted.old a (sound.below was)]
      exact sound.sized was
  · by_cases listed : r ∈ values.keys
    · exact (checkMaterial_none (checked _ (inserted.lookup_new listed found).2.2)).1
    · exact sound.valid (kept listed found).2
  · funext r
    change (m'.lookup r).map h''.cells = (m'.lookup r).map h'.cells
    cases found : m'.lookup r with
    | none => rfl
    | some a => exact congrArg some (used r a found)
  · obtain ⟨a, found, -, -, cells⟩ := inserted.new p member
    change (m'.lookup p.1).map h''.cells = some p.2
    rw [found, map_some, used p.1 a found, cells]
  · change (m'.lookup r).map h''.cells = _
    cases found : m'.lookup r with
    | none =>
      rw [inserted.other r absent, erases] at found
      split
      · rfl
      · rename_i stays
        rw [if_neg stays] at found
        rw [Store.view, found]
        rfl
    | some a =>
      obtain ⟨stays, was⟩ := kept absent found
      rw [if_neg stays, Store.view, was, map_some, map_some, used r a found,
        inserted.old a (sound.below was)]

/-! ## The calls -/

inductive Call where
  | put (reference material : Bytes)
  | delete (reference : Bytes)
  | apply (puts : Map Bytes) (deletes : List Bytes)

variable {call : Call} {β : α → Type}

section Calls

variable (aead : AEAD) (prot : Protector) {w : World} {f : OpenFaults}

def Call.run (f : Faults) (w : World) : Call → World × Result
  | .put reference material => Secret.put aead f reference material w
  | .delete reference => Secret.delete aead f reference w
  | .apply puts deletes => Secret.apply aead f puts deletes w

/-- What a successful call makes of the map. -/
def Call.change (view : Bytes → Option Bytes) : Call → Bytes → Option Bytes
  | .put reference material => fun r => if r = reference then some material else view r
  | .delete reference => fun r => if r = reference then none else view r
  | .apply puts deletes => fun r => (puts.lookup r).or (if r ∈ deletes then none else view r)

/-- A call from a sound store with its directory. -/
structure Outcome (call : Call) (w w' : World) (result : Result) : Prop where
  sound : Sound w'.store
  kept : Kept aead prot w'
  steady : result ≠ .panicked
  failed : ∀ e, result = .error e →
    w'.store.view = w.store.view ∧ w'.disk vaultFile = w.disk vaultFile
  done : result = .ok → w'.store.view = call.change w.store.view

variable {aead prot}

/-- A call that stops before it changes anything. -/
theorem Outcome.refused (sound : Sound w.store) (kept : Kept aead prot w) :
    Outcome aead prot call w w (.error e) :=
  ⟨sound, kept, (nomatch ·), fun _ _ => ⟨rfl, rfl⟩, (nomatch ·)⟩

/-- A call whose write failed and that restored its map. -/
theorem Outcome.undone (sound : Sound w.store) (kept : Kept aead prot w)
    (written : Written aead s w.disk disk (some e))
    (same : ∀ r, items.lookup r = w.store.items.lookup r) (grows : w.store.heap.next ≤ heap.next)
    (old : ∀ a < w.store.heap.next, heap.cells a = w.store.heap.cells a) :
    Outcome aead prot call w ⟨{ w.store with items := items, heap := heap }, disk⟩ (.error e) := by
  obtain ⟨sound', view⟩ := sound.restore same grows old
  have unchanged := written.failed (some_ne_none e)
  refine ⟨sound', ⟨written.id.trans kept.id, kept.idLength, ?_, kept.keyLength, ?_⟩, (nomatch ·),
    fun _ _ => ⟨view, unchanged⟩, (nomatch ·)⟩
  · obtain ⟨wrapped, there, opens⟩ := kept.master
    exact ⟨wrapped, written.master.trans there, opens⟩
  · change Holds aead w.store.key w.store.id (disk vaultFile) _
    rw [view, unchanged]
    exact kept.vault

/-- A call whose write succeeded. -/
theorem Outcome.finished {s' : Store} (kept : Kept aead prot w) (sound' : Sound s')
    (written : Written aead s w.disk disk none) (key : s.key = w.store.key ∧ s.id = w.store.id)
    (key' : s'.key = w.store.key ∧ s'.id = w.store.id) (view : s'.view = s.view)
    (change : s'.view = call.change w.store.view) : Outcome aead prot call w ⟨s', disk⟩ .ok := by
  refine ⟨sound', ⟨?_, ?_, ?_, ?_, ?_⟩, (nomatch ·), fun _ => (nomatch ·), fun _ => change⟩
  · exact written.id.trans (kept.id.trans (congrArg some key'.2.symm))
  · exact (congrArg List.length key'.2).trans kept.idLength
  · obtain ⟨wrapped, there, opens⟩ := kept.master
    exact ⟨wrapped, written.master.trans there, opens.trans (congrArg some key'.1.symm)⟩
  · exact (congrArg List.length key'.1).trans kept.keyLength
  · rw [key'.1, key'.2, view, ← key.1, ← key.2]
    exact written.done rfl

theorem length_keys_insert [DecidableEq α] (m : AList β) (a : α) (b : β a) :
    (m.insert a b).keys.length =
      if (m.lookup a).isNone then m.keys.length + 1 else m.keys.length := by
  rw [AList.keys_insert, length_cons]
  by_cases there : a ∈ m
  · have positive : 0 < m.keys.length := length_pos_of_mem (AList.mem_keys.mp there)
    have found : (m.lookup a).isNone = false := by
      rw [isNone_eq_false_iff]
      exact AList.lookup_isSome.mpr there
    rw [length_erase_of_mem (AList.mem_keys.mp there), found]
    exact Nat.sub_add_cancel positive
  · have absent : (m.lookup a).isNone = true :=
      isNone_iff_eq_none.mpr (AList.lookup_eq_none.mpr there)
    rw [erase_of_not_mem (mt AList.mem_keys.mpr there), absent, if_pos rfl]

theorem length_keys_erase_le [DecidableEq α] (m : AList β) (a : α) :
    (m.erase a).keys.length ≤ m.keys.length := by
  rw [AList.keys_erase]
  exact length_erase_le

theorem lookup_foldl_erase (deletes : List Bytes) : ∀ (m : Map ν) (r : Bytes),
    (deletes.foldl (fun m r => m.erase r) m).lookup r =
      if r ∈ deletes then none else m.lookup r := by
  induction deletes with
  | nil => simp
  | cons reference rest ih =>
    intro m r
    rw [foldl_cons, ih]
    by_cases later : r ∈ rest
    · simp [later]
    · by_cases here : r = reference
      · subst here
        simp
      · simp [here]

/-- Wiping copies does not touch older slices. -/
theorem wipeCopies_spec {n : Nat} (references : List Bytes) : ∀ h : Heap,
    (∀ r ∈ references, ∀ a, next.lookup r = some a → n ≤ a) →
    (wipeCopies next references h).next = h.next ∧
      ∀ a < n, (wipeCopies next references h).cells a = h.cells a := by
  induction references with
  | nil => exact fun h _ => ⟨rfl, fun _ _ => rfl⟩
  | cons reference rest ih =>
    intro h above
    have later := ih (((next.lookup reference).map h.wipe).getD h)
      fun r member => above r (mem_cons_of_mem _ member)
    have unfolded : wipeCopies next (reference :: rest) h =
        wipeCopies next rest (((next.lookup reference).map h.wipe).getD h) := rfl
    rw [unfolded]
    cases found : next.lookup reference with
    | none =>
      rw [found] at later
      exact later
    | some b =>
      rw [found] at later
      refine ⟨later.1, fun a old => (later.2 a old).trans (wipe_cells_ne ?_)⟩
      have high := above reference mem_cons_self b found
      omega

/-- The last loop of `Apply` runs to its end and wipes no slice of the new map. -/
theorem wipeReplaced_spec (rest : List (Sigma fun _ : Bytes => Nat)) :
    ∀ h : Heap, (∀ p ∈ rest, h.cells p.2 ≠ []) → (∀ r a, next.lookup r = some a → h.cells a ≠ []) →
    (∀ p ∈ rest, ∀ r, next.lookup r = some p.2 → r = p.1) →
    ∃ h', wipeReplaced next rest h = some h' ∧ h'.next = h.next ∧
      ∀ r a, next.lookup r = some a → h'.cells a = h.cells a := by
  have nonempty : ∀ {h : Heap} {a b : Nat}, h.cells a ≠ [] → (h.wipe b).cells a ≠ [] := by
    intro h a b filled
    rw [← length_pos_iff, wipe_length]
    exact length_pos_iff.mpr filled
  induction rest with
  | nil => exact fun h _ _ _ => ⟨h, rfl, rfl, fun _ _ _ => rfl⟩
  | cons p rest ih =>
    obtain ⟨reference, material⟩ := p
    intro h old new owner
    have wiped : (∀ r, next.lookup r ≠ some material) →
        ∃ h', wipeReplaced next rest (h.wipe material) = some h' ∧ h'.next = h.next ∧
          ∀ r a, next.lookup r = some a → h'.cells a = h.cells a := by
      intro unused
      obtain ⟨h', ran, size, cells⟩ := ih (h.wipe material)
        (fun q member => nonempty (old q (mem_cons_of_mem _ member)))
        (fun r a found => nonempty (new r a found))
        (fun q member => owner q (mem_cons_of_mem _ member))
      refine ⟨h', ran, size, fun r a found => (cells r a found).trans (wipe_cells_ne ?_)⟩
      rintro rfl
      exact unused r found
    have mine := owner ⟨reference, material⟩ mem_cons_self
    rw [wipeReplaced]
    cases found : next.lookup reference with
    | none =>
      refine wiped fun r elsewhere => ?_
      rw [mine r elsewhere, found] at elsewhere
      cases elsewhere
    | some kept =>
      simp only [firstByte, if_neg (new reference kept found),
        if_neg (old ⟨reference, material⟩ mem_cons_self)]
      split
      · rename_i differs
        refine wiped fun r elsewhere => ?_
        rw [mine r elsewhere, found] at elsewhere
        exact differs (Option.some.inj elsewhere)
      · exact ih h (fun q member => old q (mem_cons_of_mem _ member)) new
          (fun q member => owner q (mem_cons_of_mem _ member))

section

variable (f : Faults) (sound : Sound w.store) (kept : Kept aead prot w)

include sound kept

theorem put_outcome (reference material : Bytes) :
    Outcome aead prot (.put reference material) w (put aead f reference material w).1
      (put aead f reference material w).2 := by
  unfold put
  split
  · exact .refused sound kept
  rename_i checked
  rw [if_neg (by simp [sound.unclosed])]
  split
  · exact .refused sound kept
  rename_i room
  have values : ∀ p ∈ [(⟨reference, material⟩ : Sigma fun _ : Bytes => Bytes)],
      checkMaterial p.1 p.2 = none := by simpa using checked
  have inserted : Inserted [⟨reference, material⟩] w.store.heap w.store.items
      (w.store.heap.alloc material).1 (w.store.items.insert reference w.store.heap.next) :=
    inserted_insertAll [⟨reference, material⟩] w.store.heap w.store.items (by simp)
  have erases : ∀ r, w.store.items.lookup r = if r ∈ ([] : List Bytes) then none
      else w.store.items.lookup r := by simp
  have few : (w.store.items.insert reference w.store.heap.next).keys.length ≤ maxSecrets := by
    rw [length_keys_insert]
    split
    · rename_i new
      exact Nat.lt_of_not_le fun full => room ⟨new, full⟩
    · exact sound.few
  -- the store while it is written, and after a replaced slice was wiped
  have replaced : ∀ h'' : Heap, h''.next = w.store.heap.next + 1 → (∀ r a,
      (w.store.items.insert reference w.store.heap.next).lookup r = some a →
      h''.cells a = (w.store.heap.alloc material).1.cells a) → _ := fun h'' next used =>
    sound.replace erases inserted values few next used
  obtain ⟨soundly, -, -, -⟩ := replaced (w.store.heap.alloc material).1 rfl fun _ _ _ => rfl
  have written := written_writeLocked aead f soundly.keys_valid w.disk
  have restored : ∀ a < w.store.heap.next,
      ((w.store.heap.alloc material).1.wipe w.store.heap.next).cells a = w.store.heap.cells a := by
    intro a old
    rw [wipe_cells_ne (Nat.ne_of_lt old), alloc_cells_old old]
  rw [show w.store.heap.alloc material = ((w.store.heap.alloc material).1, w.store.heap.next)
    from rfl]
  dsimp only
  split
  case h_1 disk e result =>
    rw [result] at written
    refine .undone sound kept written (fun r => ?_) (le_succ _) restored
    by_cases here : r = reference
    · subst here
      cases w.store.items.lookup r <;> simp
    · cases w.store.items.lookup reference with
      | none => simp [AList.lookup_erase_ne here, AList.lookup_insert_ne here]
      | some a => simp [AList.lookup_insert_ne here]
  case h_2 disk result =>
    rw [result] at written
    have wiped : ∀ a, w.store.items.lookup reference = some a → ∀ r b,
        (w.store.items.insert reference w.store.heap.next).lookup r = some b → b ≠ a := by
      rintro a previous r b found rfl
      by_cases here : r = reference
      · subst here
        rw [AList.lookup_insert, Option.some.injEq] at found
        exact absurd (sound.below previous) (by omega)
      · rw [AList.lookup_insert_ne here] at found
        exact here (sound.apart found previous)
    have done : ∀ h'' : Heap, h''.next = w.store.heap.next + 1 → (∀ r a,
        (w.store.items.insert reference w.store.heap.next).lookup r = some a →
        h''.cells a = (w.store.heap.alloc material).1.cells a) →
        Outcome aead prot (.put reference material) w ⟨{ w.store with
          items := w.store.items.insert reference w.store.heap.next, heap := h'' }, disk⟩ .ok := by
      intro h'' next used
      obtain ⟨sound', view, new, other⟩ := replaced h'' next used
      refine .finished kept sound' written ⟨rfl, rfl⟩ ⟨rfl, rfl⟩ view (funext fun r => ?_)
      by_cases here : r = reference
      · subst here
        exact (new ⟨r, material⟩ (by simp)).trans (by simp [Call.change])
      · exact (other r (by simpa using here)).trans (by simp [Call.change, here])
    split
    · rename_i previous
      exact done _ rfl fun r a found => wipe_cells_ne (wiped _ previous r a found)
    · exact done _ rfl fun _ _ _ => rfl

theorem delete_outcome (reference : Bytes) :
    Outcome aead prot (.delete reference) w (delete aead f reference w).1
      (delete aead f reference w).2 := by
  unfold delete
  split
  · exact .refused sound kept
  rw [if_neg (by simp [sound.unclosed])]
  split
  case h_1 absent =>
    refine ⟨sound, kept, (nomatch ·), fun _ => (nomatch ·), fun _ => funext fun r => ?_⟩
    by_cases here : r = reference
    · subst here
      simp [Call.change, Store.view, absent]
    · simp [Call.change, here]
  case h_2 previous there =>
    have erases : ∀ r, (w.store.items.erase reference).lookup r =
        if r ∈ [reference] then none else w.store.items.lookup r := by
      intro r
      by_cases here : r = reference
      · subst here
        simp
      · simp [here]
    have inserted : Inserted [] w.store.heap (w.store.items.erase reference) w.store.heap
        (w.store.items.erase reference) := inserted_insertAll [] _ _ (by simp)
    have few : (w.store.items.erase reference).keys.length ≤ maxSecrets := by
      exact (length_keys_erase_le _ _).trans sound.few
    obtain ⟨soundly, -, -, -⟩ := sound.replace erases inserted (by simp) few rfl fun _ _ _ => rfl
    have written := written_writeLocked aead f soundly.keys_valid w.disk
    dsimp only
    split
    case h_1 disk e result =>
      rw [result] at written
      refine .undone sound kept written (fun r => ?_) le_rfl fun _ _ => rfl
      by_cases here : r = reference
      · subst here
        rw [AList.lookup_insert, there]
      · rw [AList.lookup_insert_ne here, AList.lookup_erase_ne here]
    case h_2 disk result =>
      rw [result] at written
      have used : ∀ r a, (w.store.items.erase reference).lookup r = some a →
          (w.store.heap.wipe previous).cells a = w.store.heap.cells a := by
        intro r a found
        refine wipe_cells_ne ?_
        rintro rfl
        rw [erases] at found
        split at found
        · cases found
        · rename_i differs
          exact differs (mem_singleton.mpr (sound.apart found there))
      obtain ⟨sound', view, -, other⟩ :=
        sound.replace erases inserted (by simp) few (wipe_next : (w.store.heap.wipe previous).next = _)
          used
      refine .finished kept sound' written ⟨rfl, rfl⟩ ⟨rfl, rfl⟩ view (funext fun r => ?_)
      exact (other r (by simp)).trans (by simp [Call.change])

theorem apply_outcome (puts : Map Bytes) (deletes : List Bytes) :
    Outcome aead prot (.apply puts deletes) w (apply aead f puts deletes w).1
      (apply aead f puts deletes w).2 := by
  unfold apply
  split
  · exact .refused sound kept
  rename_i passed
  have checked : ∀ p ∈ puts.entries, checkMaterial p.1 p.2 = none :=
    findSome?_eq_none_iff.mp (or_eq_none_iff.mp passed).1
  rw [if_neg (by simp [sound.unclosed])]
  have erases := lookup_foldl_erase deletes w.store.items
  have inserted := inserted_insertAll puts.entries w.store.heap
    (deletes.foldl (fun m r => m.erase r) w.store.items) puts.nodupKeys
  generalize insertAll puts.entries w.store.heap
    (deletes.foldl (fun m r => m.erase r) w.store.items) = made at inserted
  obtain ⟨heap, next⟩ := made
  have copies := wipeCopies_spec puts.keys heap fun r listed a found =>
    (inserted.lookup_new listed found).1
  have grows : w.store.heap.next ≤ (wipeCopies next puts.keys heap).next :=
    copies.1.symm ▸ inserted.grows
  have restored : ∀ a < w.store.heap.next,
      (wipeCopies next puts.keys heap).cells a = w.store.heap.cells a :=
    fun a old => (copies.2 a old).trans (inserted.old a old)
  dsimp only
  split
  · have unwritten : Written aead w.store w.disk w.disk
        (some ⟨.resourceExhausted, .secretStoreUnavailable⟩) :=
      ⟨rfl, rfl, fun _ => rfl, (nomatch ·)⟩
    exact .undone sound kept unwritten (fun _ => rfl) grows restored
  rename_i room
  have few : next.keys.length ≤ maxSecrets := Nat.le_of_not_lt room
  obtain ⟨soundly, -, -, -⟩ := sound.replace erases inserted checked few rfl fun _ _ _ => rfl
  have written := written_writeLocked aead f soundly.keys_valid w.disk
  split
  case h_1 disk e result =>
    rw [result] at written
    exact .undone sound kept written (fun _ => rfl) grows restored
  case h_2 disk result =>
    rw [result] at written
    have listed : ∀ p ∈ w.store.items.entries, w.store.items.lookup p.1 = some p.2 :=
      fun p member => AList.mem_lookup_iff.mpr member
    obtain ⟨heap', ran, size, used⟩ := wipeReplaced_spec w.store.items.entries heap
      (fun p member => by
        rw [inserted.old p.2 (sound.below (listed p member))]
        exact (sound.sized (listed p member)).1)
      (fun r a found => (soundly.sized found).1)
      (fun p member r found => by
        have below := sound.below (listed p member)
        by_cases new : r ∈ puts.keys
        · exact absurd (inserted.lookup_new new found).1 (not_le.mpr below)
        · rw [inserted.other r new, erases] at found
          split at found
          · cases found
          · exact sound.apart found (listed p member))
    rw [ran]
    obtain ⟨sound', view, new, other⟩ := sound.replace erases inserted checked few size used
    refine .finished kept sound' written ⟨rfl, rfl⟩ ⟨rfl, rfl⟩ view (funext fun r => ?_)
    by_cases named : r ∈ puts.keys
    · obtain ⟨content, there⟩ := mem_keys.mp named
      have found : puts.lookup r = some content := AList.mem_lookup_iff.mpr there
      exact (new _ there).trans (by simp [Call.change, found])
    · have absent : puts.lookup r = none := AList.lookup_eq_none.mpr named
      exact (other r named).trans (by simp [Call.change, absent])

theorem run_outcome (call : Call) :
    Outcome aead prot call w (call.run aead f w).1 (call.run aead f w).2 := by
  cases call with
  | put reference material => exact put_outcome f sound kept reference material
  | delete reference => exact delete_outcome f sound kept reference
  | apply puts deletes => exact apply_outcome f sound kept puts deletes

end

/-! ## Opening again -/

/-- The directory is read without failures. -/
structure OpenFaults.Quiet (f : OpenFaults) : Prop where
  readID : f.readID = false
  readMaster : f.readMaster = false
  readVault : f.readVault = false

theorem loadOrCreateID_ok {id : Bytes} (loaded : loadOrCreateID f disk = (disk', .ok id)) :
    disk' idFile = some id ∧ id.length = storeIDLen ∧ disk' vaultFile = disk vaultFile ∧
      disk' masterFile = disk masterFile := by
  unfold loadOrCreateID at loaded
  split at loaded
  · cases loaded
  split at loaded
  · rename_i raw there
    obtain ⟨rfl, result⟩ := Prod.mk.inj loaded
    split at result
    · cases result
      exact ⟨there, ‹_›, rfl, rfl⟩
    · cases result
  split at loaded
  · cases loaded
  rename_i new _
  split at loaded
  · cases loaded
  rename_i disk₁ written
  obtain ⟨rfl, result⟩ := Prod.mk.inj loaded
  cases result
  have spec := fun name (member : name ∈ storeFiles) =>
    writeFileAtomic_spec f.writeID (show idFile ∈ storeFiles by decide) new.1 disk member
  rw [written] at spec
  refine ⟨(spec idFile (by decide)).trans (if_pos ⟨rfl, rfl⟩), new.2,
    (spec vaultFile (by decide)).trans (if_neg fun both => absurd both.1 (by decide)),
    (spec masterFile (by decide)).trans (if_neg fun both => absurd both.1 (by decide))⟩

theorem loadOrCreateMaster_ok {key : Bytes}
    (loaded : loadOrCreateMaster prot f disk = (disk', .ok key)) :
    (∃ wrapped, disk' masterFile = some (masterHeader ++ wrapped) ∧
      prot.unprotect wrapped = some key) ∧ key.length = keyLen ∧
      disk' vaultFile = disk vaultFile ∧ disk' idFile = disk idFile := by
  unfold loadOrCreateMaster at loaded
  split at loaded
  · cases loaded
  split at loaded
  · rename_i raw there
    obtain ⟨rfl, result⟩ := Prod.mk.inj loaded
    split at result
    · cases result
    rename_i header
    split at result
    · cases result
    rename_i key' opens
    split at result
    · cases result
      have whole : raw = masterHeader ++ raw.drop masterHeader.length := by
        have split := take_append_drop masterHeader.length raw
        rw [not_not.mp header] at split
        exact split.symm
      exact ⟨⟨raw.drop masterHeader.length, whole ▸ there, opens⟩, ‹_›, rfl, rfl⟩
    · cases result
  split at loaded
  · cases loaded
  rename_i new _
  split at loaded
  · cases loaded
  rename_i wrapped locked
  split at loaded
  · cases loaded
  rename_i disk₁ written
  obtain ⟨rfl, result⟩ := Prod.mk.inj loaded
  cases result
  have spec := fun name (member : name ∈ storeFiles) =>
    writeFileAtomic_spec f.writeMaster (show masterFile ∈ storeFiles by decide)
      (masterHeader ++ wrapped) disk member
  rw [written] at spec
  refine ⟨⟨wrapped, (spec masterFile (by decide)).trans (if_pos ⟨rfl, rfl⟩),
    prot.unprotect_protect _ _ locked⟩, new.2,
    (spec vaultFile (by decide)).trans (if_neg fun both => absurd both.1 (by decide)),
    (spec idFile (by decide)).trans (if_neg fun both => absurd both.1 (by decide))⟩

/-- A map within the limits. -/
structure Bounded (view : Bytes → Option Bytes) : Prop where
  few : ∃ references : List Bytes, references.length ≤ maxSecrets ∧
    ∀ r, (view r).isSome = true ↔ r ∈ references
  sized : ∀ r content, view r = some content →
    content ≠ [] ∧ content.length ≤ maxSecretBytes ∧ r.length ≤ maxReferenceLen

theorem Sound.bounded (sound : Sound s) : Bounded s.view := by
  refine ⟨⟨s.items.keys, sound.few, fun r => ?_⟩, fun r content there => ?_⟩
  · rw [Store.view, isSome_map, AList.lookup_isSome, AList.mem_keys]
  · obtain ⟨a, found, rfl⟩ := map_eq_some_iff.mp there
    obtain ⟨nonempty, fits⟩ := sound.sized found
    refine ⟨nonempty, fits, ?_⟩
    have valid := sound.valid found
    by_contra long
    simp only [validateReference, if_pos (Nat.lt_of_not_le long)] at valid
    split at valid <;> cases valid

theorem readVault_holds (readable : f.readVault = false) (sound : Sound s)
    (holds : Holds aead s.key s.id (disk vaultFile) s.view) :
    ∃ s', readVault aead f s.key s.id disk = .ok s' ∧ Sound s' ∧ s'.key = s.key ∧ s'.id = s.id ∧
      s'.view = s.view := by
  rw [readVault, if_neg (by simp [readable])]
  cases there : disk vaultFile with
  | none =>
    rw [there] at holds
    refine ⟨_, rfl, ⟨rfl, (nomatch ·), (nomatch ·), (nomatch ·), (nomatch ·), zero_le _⟩, rfl, rfl,
      funext fun r => (holds r).symm⟩
  | some raw =>
    rw [there] at holds
    obtain ⟨-, m, opened, found⟩ := holds
    have inserted := inserted_insertAll m.entries ⟨fun _ => [], 0⟩ ∅ m.nodupKeys
    simp only [opened, bind, Except.bind]
    generalize insertAll m.entries ⟨fun _ => [], 0⟩ ∅ = made at inserted
    obtain ⟨heap, items⟩ := made
    have lookup : ∀ {r a}, items.lookup r = some a → a < heap.next ∧ m.lookup r = some (heap.cells a) ∧
        r ∈ m.entries.keys := by
      intro r a read
      by_cases listed : r ∈ m.entries.keys
      · obtain ⟨-, below, member⟩ := inserted.lookup_new listed read
        exact ⟨below, AList.mem_lookup_iff.mpr member, listed⟩
      · rw [inserted.other r listed] at read
        cases read
    have same : ∀ r, (items.lookup r).map heap.cells = s.view r := by
      intro r
      rw [← found r]
      cases read : items.lookup r with
      | some a => exact (lookup read).2.1.symm
      | none =>
        symm
        refine AList.lookup_eq_none.mpr fun listed => ?_
        obtain ⟨content, member⟩ := mem_keys.mp (AList.mem_keys.mp listed)
        obtain ⟨a, read', -⟩ := inserted.new _ member
        rw [read] at read'
        cases read'
    have was : ∀ {r a}, items.lookup r = some a →
        ∃ b, s.items.lookup r = some b ∧ s.heap.cells b = heap.cells a := by
      intro r a read
      have there := same r
      rw [read] at there
      exact map_eq_some_iff.mp there.symm
    refine ⟨_, rfl, ⟨rfl, fun read => (lookup read).1, fun read read' => ?_, fun read => ?_,
      fun read => ?_, ?_⟩, rfl, rfl, funext same⟩
    · exact inserted.apart _ (lookup read).2.2 _ (lookup read').2.2 (read.trans read'.symm)
    · obtain ⟨b, there, cells⟩ := was read
      rw [← cells]
      exact sound.sized there
    · obtain ⟨b, there, -⟩ := was read
      exact sound.valid there
    · have size : items.keys.length = s.items.keys.length := by
        refine length_keys_congr fun r => ?_
        have there := congrArg isSome (same r)
        rwa [Store.view, isSome_map, isSome_map] at there
      exact size.trans_le sound.few

theorem loadOrCreateID_kept (kept : Kept aead prot w)
    (readable : f.readID = false) :
    loadOrCreateID f w.disk = (w.disk, .ok w.store.id) := by
  rw [loadOrCreateID, if_neg (by simp [readable]), kept.id]
  simp only [if_pos kept.idLength]

theorem loadOrCreateMaster_kept (kept : Kept aead prot w)
    (readable : f.readMaster = false) :
    loadOrCreateMaster prot f w.disk = (w.disk, .ok w.store.key) := by
  obtain ⟨wrapped, there, opens⟩ := kept.master
  rw [loadOrCreateMaster, if_neg (by simp [readable]), there]
  simp [opens, kept.keyLength]

/-- Opening the directory again gives the map held in memory, and again a sound store. -/
theorem openStore_kept (quiet : f.Quiet) (sound : Sound w.store)
    (kept : Kept aead prot w) :
    ∃ s', openStore aead prot f w.disk = (w.disk, .ok s') ∧ Sound s' ∧
      Kept aead prot ⟨s', w.disk⟩ ∧ s'.view = w.store.view := by
  obtain ⟨s', read, sound', key, id, view⟩ := readVault_holds quiet.readVault sound kept.vault
  refine ⟨s', ?_, sound', ⟨?_, ?_, ?_, ?_, ?_⟩, view⟩
  · rw [openStore, loadOrCreateID_kept kept quiet.readID]
    simp only [loadOrCreateMaster_kept kept quiet.readMaster, read]
  · exact kept.id.trans (congrArg some id.symm)
  · exact (congrArg List.length id).trans kept.idLength
  · obtain ⟨wrapped, there, opens⟩ := kept.master
    exact ⟨wrapped, there, opens.trans (congrArg some key.symm)⟩
  · exact (congrArg List.length key).trans kept.keyLength
  · rw [key, id, view]
    exact kept.vault

/-- An opening that succeeds read everything. -/
theorem quiet_of_openStore (opened : openStore aead prot f disk = (disk', .ok s)) : f.Quiet := by
  unfold openStore at opened
  split at opened
  · cases opened
  rename_i disk₁ id loadedID
  split at opened
  · cases opened
  rename_i disk₂ key loadedMaster
  have read := (Prod.mk.inj opened).2
  refine ⟨?_, ?_, ?_⟩
  · by_contra fails
    rw [loadOrCreateID, if_pos (by simpa using fails)] at loadedID
    cases loadedID
  · by_contra fails
    rw [loadOrCreateMaster, if_pos (by simpa using fails)] at loadedMaster
    cases loadedMaster
  · by_contra fails
    rw [readVault, if_pos (by simpa using fails)] at read
    cases read

/-- A new store, in a directory without a vault. -/
theorem openStore_fresh (fresh : disk vaultFile = none)
    (opened : openStore aead prot f disk = (disk', .ok s)) :
    Sound s ∧ Kept aead prot ⟨s, disk'⟩ := by
  have quiet := quiet_of_openStore opened
  unfold openStore at opened
  split at opened
  · cases opened
  rename_i disk₁ id loadedID
  split at opened
  · cases opened
  rename_i disk₂ key loadedMaster
  obtain ⟨rfl, read⟩ := Prod.mk.inj opened
  obtain ⟨thereID, idLength, vault₁, -⟩ := loadOrCreateID_ok loadedID
  obtain ⟨thereKey, keyLength, vault₂, id₂⟩ := loadOrCreateMaster_ok loadedMaster
  have empty : disk₂ vaultFile = none := vault₂.trans (vault₁.trans fresh)
  rw [readVault, if_neg (by simp [quiet.readVault]), empty] at read
  cases read
  refine ⟨⟨rfl, (nomatch ·), (nomatch ·), (nomatch ·), (nomatch ·), zero_le _⟩,
    ⟨id₂.trans thereID, idLength, thereKey, keyLength, ?_⟩⟩
  change Holds aead key id (disk₂ vaultFile) _
  rw [empty]
  exact fun _ => rfl

variable (aead prot)

/-- The life of a store's directory: it starts without a vault, and then calls and restarts
follow in any order. -/
inductive Reachable : World → Prop where
  | fresh {f : OpenFaults} {disk disk' : Disk} {s : Store} :
    disk vaultFile = none → openStore aead prot f disk = (disk', .ok s) → Reachable ⟨s, disk'⟩
  | call {w : World} (f : Faults) (call : Call) :
    Reachable w → Reachable (call.run aead f w).1
  | reopened {f : OpenFaults} {w : World} {disk' : Disk} {s : Store} :
    Reachable w → openStore aead prot f w.disk = (disk', .ok s) → Reachable ⟨s, disk'⟩

variable {aead prot}

theorem Reachable.invariant (reachable : Reachable aead prot w) :
    Sound w.store ∧ Kept aead prot w := by
  induction reachable with
  | fresh fresh opened => exact openStore_fresh fresh opened
  | call f call _ ih =>
    have outcome := run_outcome f ih.1 ih.2 call
    exact ⟨outcome.sound, outcome.kept⟩
  | reopened _ opened ih =>
    obtain ⟨s', opened', sound', kept', -⟩ := openStore_kept (quiet_of_openStore opened) ih.1 ih.2
    rw [opened'] at opened
    obtain ⟨rfl, result⟩ := Prod.mk.inj opened
    cases result
    exact ⟨sound', kept'⟩

/-- Whatever fails in a call, opening the directory afterwards gives the map in memory; a call
with an error changed neither, a successful one made its change, and the limits hold. -/
theorem vault_mirrors_memory (aead : AEAD) (prot : Protector) {w : World}
    (reachable : Reachable aead prot w) (f : Faults) (call : Call) :
    let w' := (call.run aead f w).1
    let result := (call.run aead f w).2
    (∀ f : OpenFaults, f.Quiet →
      ∃ s, openStore aead prot f w'.disk = (w'.disk, .ok s) ∧ s.view = w'.store.view) ∧
    (∀ e, result = .error e →
      w'.store.view = w.store.view ∧ w'.disk vaultFile = w.disk vaultFile) ∧
    (result = .ok → w'.store.view = call.change w.store.view) ∧ result ≠ .panicked ∧
    Bounded w'.store.view ∧ ∀ raw, w'.disk vaultFile = some raw → raw.length ≤ maxVaultBytes := by
  obtain ⟨sound, kept⟩ := reachable.invariant
  have outcome := run_outcome f sound kept call
  refine ⟨fun f quiet => ?_, outcome.failed, outcome.done, outcome.steady, outcome.sound.bounded,
    fun raw there => ?_⟩
  · obtain ⟨s, opened, -, -, view⟩ := openStore_kept quiet outcome.sound outcome.kept
    exact ⟨s, opened, view⟩
  · have holds := outcome.kept.vault
    rw [there] at holds
    exact holds.1

end Calls

/-- `FileProtector`. -/
def fileProtector : Protector where
  protect key := some key
  unprotect wrapped := some wrapped
  unprotect_protect := by
    rintro key wrapped ⟨⟩
    rfl

/-- No encryption, a tag of zeros. -/
def plainAEAD : AEAD where
  sealed _ _ payload _ := payload ++ List.replicate 16 0
  opened _ _ body _ := some (body.take (body.length - 16))
  opened_sealed := by simp
  length_sealed := by simp

def noWriteFaults : WriteFaults :=
  { create := some (ascii "1"), harden := false, write := none, sync := false, close := false,
    rename := false, remove := false, openDir := false, syncDir := false }

def firstOpening : OpenFaults :=
  { readID := false, readMaster := false, readVault := false,
    newID := some ⟨List.replicate 16 1, rfl⟩, newKey := some ⟨List.replicate 32 2, rfl⟩,
    writeID := noWriteFaults, writeMaster := noWriteFaults }

/-- A store opened in an empty directory. -/
def newStore : Store :=
  { key := List.replicate 32 2, id := List.replicate 16 1, items := ∅, heap := ⟨fun _ => [], 0⟩,
    closed := false }

/-- A first secret whose write fails at the rename. -/
theorem failed_rename_keeps_vault :
    let w : World := ⟨newStore, (openStore plainAEAD fileProtector firstOpening fun _ => none).1⟩
    let f : Faults := ⟨⟨false, false, some ⟨replicate 12 3, rfl⟩⟩,
      { noWriteFaults with rename := true }⟩
    Reachable plainAEAD fileProtector w ∧
    ∃ s, openStore plainAEAD fileProtector firstOpening
        ((Call.put (ascii "s1_keep") (ascii "kept")).run plainAEAD f w).1.disk =
        (((Call.put (ascii "s1_keep") (ascii "kept")).run plainAEAD f w).1.disk, .ok s) ∧
      s.view = ((Call.put (ascii "s1_keep") (ascii "kept")).run plainAEAD f w).1.store.view := by
  have reachable : Reachable plainAEAD fileProtector
      ⟨newStore, (openStore plainAEAD fileProtector firstOpening fun _ => none).1⟩ :=
    .fresh (show (fun _ : Bytes => (none : Option Bytes)) vaultFile = none from rfl)
      (show openStore plainAEAD fileProtector firstOpening (fun _ => none) = (_, .ok newStore) from
        Prod.ext rfl rfl)
  exact ⟨reachable, (vault_mirrors_memory plainAEAD fileProtector reachable _ _).1 firstOpening
    ⟨rfl, rfl, rfl⟩⟩

end Sora.Secret
