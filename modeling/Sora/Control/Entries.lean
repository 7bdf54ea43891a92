import Sora.Control.Book
import Sora.Secret.Vault

/-!
# What the book writes into the vault

References of subscriptions and how they are told apart, what `applyChange` makes of the entries
and that `Store.Apply` does the same to the store, and the entries that an update writes.
-/

namespace Sora.Control

open Sora.Lib Sora.Session List

/-! ## References -/

def reference (id tail : Bytes) : Bytes := ascii "u1_" ++ (id ++ (ascii "_" ++ tail))

theorem recordRef_eq (id : Bytes) : recordRef id = reference id (ascii "rec") := by
  rfl

theorem listRef_eq (id : Bytes) (part : Nat) :
    listRef id part = reference id (ascii "l" ++ numeral 10 part) := by
  rw [listRef, append_assoc]
  rfl

theorem serverRef_eq (id digest : Bytes) : serverRef id digest = reference id digest := by
  rw [serverRef, reference, append_assoc, append_assoc]

variable {n part part' : Nat} {digest id ref s tail : Bytes} {c : UInt8} {fault : Option Err}
    {puts vault vault' : Entries} {deletes : List Bytes} {r : Record}

theorem length_of_isHex (hex : isHex n s = true) : s.length = n := by
  simp only [isHex, Bool.and_eq_true, beq_iff_eq] at hex
  exact hex.1

/-- The digits of `hex.EncodeToString`. -/
theorem forall_isHex {P : UInt8 → Prop} (all : ∀ c ∈ ascii "0123456789abcdef", P c)
    (hex : isHex n s = true) : ∀ c ∈ s, P c := by
  intro c member
  simp only [isHex, Bool.and_eq_true, all_eq_true] at hex
  have digits : ∀ c : UInt8, (isDigit 10 c || (97 ≤ c && c ≤ 102)) = true →
      c ∈ ascii "0123456789abcdef" := forall_byte (by decide +kernel)
  exact all c (digits c (hex.2 c member))

theorem byte_of_isHex (hex : isHex n s = true) : ∀ c ∈ s, c < 0x80 ∧ c ≠ 95 ∧ c ≠ 108 :=
  forall_isHex (by decide +kernel) hex

theorem valid_of_isHex (hex : isHex n s = true) : Json.valid s = true :=
  Json.valid_of_ascii fun _ member => (byte_of_isHex hex _ member).1

variable {tail' id' : Bytes}

theorem reference_inj (hex : isHex 16 id = true) (hex' : isHex 16 id' = true)
    (same : reference id tail = reference id' tail') : id = id' ∧ tail = tail' := by
  have rest := append_cancel_left same
  obtain ⟨ids, rest⟩ := append_inj rest ((length_of_isHex hex).trans (length_of_isHex hex').symm)
  exact ⟨ids, append_cancel_left rest⟩

theorem reference_tail (same : reference id tail = reference id tail') : tail = tail' :=
  append_cancel_left (append_cancel_left (append_cancel_left same))

/-- The tail of a reference names what is stored: the record, a server or a chunk of the list. -/
inductive Tail : Bytes → Prop
  | record : Tail (ascii "rec")
  | server {digest : Bytes} (hex : isHex 24 digest = true) : Tail digest
  | chunk (part : Nat) : Tail (ascii "l" ++ numeral 10 part)

theorem digit_of_mem_numeral (member : c ∈ numeral 10 part) : c < 0x80 ∧ c ≠ 95 := by
  have digits : ∀ c, isDigit 10 c = true → c < 0x80 ∧ c ≠ 95 := forall_byte (by decide +kernel)
  exact digits c (isDigit_of_mem_numeral (by decide) (by decide) c member)

theorem Tail.underscore (shape : Tail tail) : (95 : UInt8) ∉ tail := by
  intro member
  cases shape with
  | record => exact absurd member (by decide)
  | server hex => exact (byte_of_isHex hex _ member).2.1 rfl
  | chunk part =>
    rcases mem_append.mp member with mark | digit
    · exact absurd mark (by decide)
    · exact (digit_of_mem_numeral digit).2 rfl

/-- Only its own subscription has a reference. -/
theorem id_of_reference (hex : isHex 16 id = true) (shape : Tail tail)
    (begins : ascii "u1_" ++ id' ++ ascii "_" <+: reference id tail) : id' = id := by
  obtain ⟨rest, same⟩ := begins
  rw [append_assoc, append_assoc] at same
  have same : id ++ 95 :: tail = id' ++ 95 :: rest := (append_cancel_left same).symm
  have whole := (append_cons_inj_of_notMem
    (fun member => (byte_of_isHex hex _ member).2.1 rfl) shape.underscore).mp same
  exact whole.1.symm

theorem rec_ne_server (hex : isHex 24 digest = true) : ascii "rec" ≠ digest := by
  rintro rfl
  exact absurd hex (by decide)

theorem chunk_ne_server (hex : isHex 24 digest = true) (part : Nat) :
    ascii "l" ++ numeral 10 part ≠ digest := by
  rintro rfl
  exact (byte_of_isHex hex _ (mem_append_left _ (by decide))).2.2 rfl

theorem rec_ne_chunk (part : Nat) : ascii "rec" ≠ ascii "l" ++ numeral 10 part := by
  intro same
  have first := congrArg head? same
  exact absurd first (by simp [show ascii "rec" = [114, 101, 99] from rfl,
    show ascii "l" = [108] from rfl])

theorem chunk_inj (same : ascii "l" ++ numeral 10 part = ascii "l" ++ numeral 10 part') :
    part = part' := by
  exact numeral_injective (append_cancel_left same)

theorem recordRef_ne_listRef (id : Bytes) (part : Nat) : recordRef id ≠ listRef id part := by
  rw [listRef_eq]
  exact fun same => rec_ne_chunk part (reference_tail same)

theorem recordRef_ne_serverRef (id : Bytes) (hex : isHex 24 digest = true) :
    recordRef id ≠ serverRef id digest := by
  rw [serverRef_eq]
  exact fun same => rec_ne_server hex (reference_tail same)

theorem listRef_ne_serverRef (id : Bytes) (part : Nat) (hex : isHex 24 digest = true) :
    listRef id part ≠ serverRef id digest := by
  rw [listRef_eq, serverRef_eq]
  exact fun same => chunk_ne_server hex part (reference_tail same)

theorem listRef_inj (same : listRef id part = listRef id part') : part = part' := by
  rw [listRef_eq, listRef_eq] at same
  exact chunk_inj (reference_tail same)

theorem low_of_all (all : (s.all fun c => decide (c < 0x80)) = true) (member : c ∈ s) : c < 0x80 :=
  of_decide_eq_true (all_eq_true.mp all c member)

theorem valid_serverRef (hex : isHex 16 id = true) (hex' : isHex 24 digest = true) :
    Json.valid (serverRef id digest) = true := by
  refine Json.valid_of_ascii fun c member => ?_
  simp only [serverRef, mem_append] at member
  rcases member with ((mark | here) | mark) | here
  · exact low_of_all (by decide) mark
  · exact (byte_of_isHex hex _ here).1
  · exact low_of_all (by decide) mark
  · exact (byte_of_isHex hex' _ here).1

/-! ## Changes -/

section Folding

variable {α : Type} (key value : α → Bytes) {l : List α}

/-- The last value that is inserted under a key stands. -/
theorem lookup_foldl_insert_last (l : List α) (m : Entries) (ref : Bytes) :
    (l.foldl (fun m x => m.insert (key x) (value x)) m).lookup ref =
      ((l.reverse.find? fun x => key x == ref).map value).or (m.lookup ref) := by
  induction l using reverseRecOn with
  | nil => rfl
  | append_singleton l x ih =>
    rw [foldl_append, foldl_cons, foldl_nil, reverse_append,
      reverse_singleton, singleton_append, find?_cons]
    by_cases here : key x = ref
    · rw [here, AList.lookup_insert, beq_self_eq_true]
      rfl
    · rw [AList.lookup_insert_ne (Ne.symm here), ih, beq_eq_false_iff_ne.mpr here]

theorem lookup_foldl_insert_of_ne (m : Entries) (other : ∀ x ∈ l, key x ≠ ref) :
    (l.foldl (fun m x => m.insert (key x) (value x)) m).lookup ref = m.lookup ref := by
  have none : (l.reverse.find? fun x => key x == ref) = none := by simpa using other
  rw [lookup_foldl_insert_last, none]
  rfl

theorem lookup_foldl_insert (m : Entries) (there : ∃ x ∈ l, key x = ref) :
    ∃ x ∈ l, key x = ref ∧
      (l.foldl (fun m x => m.insert (key x) (value x)) m).lookup ref = some (value x) := by
  have some : (l.reverse.find? fun x => key x == ref).isSome := by simpa using there
  obtain ⟨x, found⟩ := Option.isSome_iff_exists.mp some
  refine ⟨x, mem_reverse.mp (mem_of_find?_eq_some found), by simpa using find?_some found, ?_⟩
  rw [lookup_foldl_insert_last, found]
  rfl

end Folding

/-- A change removes first and then writes. -/
theorem lookup_changed (puts : Entries) (deletes : List Bytes) (vault : Entries) (ref : Bytes) :
    (changed puts deletes vault).lookup ref =
      (puts.lookup ref).or (if ref ∈ deletes then none else vault.lookup ref) := by
  rw [changed, ← Secret.lookup_foldl_erase]
  generalize deletes.foldl (fun m r => m.erase r) vault = rest
  cases found : puts.lookup ref with
  | none =>
    refine lookup_foldl_insert_of_ne (fun p : Sigma fun _ : Bytes => Bytes => p.1) (fun p => p.2) rest fun p inside named => ?_
    have there : puts.lookup p.1 = some p.2 := AList.mem_lookup_iff.mpr inside
    rw [named, found] at there
    cases there
  | some content =>
    have inside : (⟨ref, content⟩ : Sigma fun _ : Bytes => Bytes) ∈ puts.entries :=
      AList.mem_lookup_iff.mp found
    obtain ⟨p, there, named, now⟩ :=
      lookup_foldl_insert (fun p : Sigma fun _ : Bytes => Bytes => p.1) (fun p => p.2) rest ⟨⟨ref, content⟩, inside, rfl⟩
    have value : puts.lookup p.1 = some p.2 := AList.mem_lookup_iff.mpr there
    rw [named, found] at value
    rw [now, ← value, Option.some_or]

theorem applyChange_ok (done : applyChange fault puts deletes vault = .ok vault') (ref : Bytes) :
    vault'.lookup ref =
      (puts.lookup ref).or (if ref ∈ deletes then none else vault.lookup ref) := by
  unfold applyChange at done
  split at done
  · cases done
  · split at done
    · cases done
    · split at done
      · cases done
      · cases done
        exact lookup_changed puts deletes vault ref

/-- A record that was persisted can be marshalled and is in the vault; beside it there are the
entries of the change. -/
theorem persist_ok {time : TimeFormat}
    (done : persist time fault id r puts deletes vault = .ok vault') :
    r.printable = true ∧ vault'.lookup (recordRef id) = some (encodeRecord time id r) ∧
      ∀ ref, ref ≠ recordRef id → vault'.lookup ref =
        (puts.lookup ref).or (if ref ∈ deletes then none else vault.lookup ref) := by
  unfold persist at done
  split at done
  · cases done
  · rename_i raw coded
    rw [marshalRecord, Option.ite_none_right_eq_some, Option.some.injEq] at coded
    obtain ⟨times, rfl⟩ := coded
    refine ⟨times, ?_, fun ref other => ?_⟩
    · rw [applyChange_ok done, AList.lookup_insert, Option.some_or]
    · rw [applyChange_ok done, AList.lookup_insert_ne other]

theorem flatMap_chunk (raw : Bytes) (n : Nat) :
    (range n).flatMap (chunk raw) = raw.take (n * listChunkBytes) := by
  induction n with
  | zero => simp
  | succ n ih =>
    rw [range_succ, flatMap_append, ih, Nat.succ_mul, take_add]
    simp [chunk]

theorem le_chunkCount_mul (n : Nat) : n ≤ chunkCount n * listChunkBytes := by
  unfold chunkCount listChunkBytes
  omega

/-- The chunks of a list are the list. -/
theorem flatMap_chunk_chunkCount (raw : Bytes) :
    (range (chunkCount raw.length)).flatMap (chunk raw) = raw := by
  rw [flatMap_chunk]
  exact take_of_length_le (le_chunkCount_mul raw.length)

/-- An update writes the chunks of the list and the servers, and nothing else. -/
theorem lookup_updatePuts_chunk (id : Bytes) (servers : List Server) (raw : Bytes)
    (within : part < chunkCount raw.length) :
    (Book.updatePuts id servers raw).lookup (listRef id part) = some (chunk raw part) := by
  obtain ⟨part', -, same, found⟩ := lookup_foldl_insert (listRef id) (chunk raw)
    (servers.foldl (fun m s => m.insert (serverRef id s.digest) s.document) ∅)
    ⟨part, mem_range.mpr within, rfl⟩
  rw [Book.updatePuts, found, listRef_inj same]

theorem lookup_updatePuts_isSome (id : Bytes) (servers : List Server) (raw ref : Bytes) :
    ((Book.updatePuts id servers raw).lookup ref).isSome = true ↔
      (∃ s ∈ servers, serverRef id s.digest = ref) ∨
        ∃ part < chunkCount raw.length, listRef id part = ref := by
  by_cases listed : ∃ part ∈ range (chunkCount raw.length), listRef id part = ref
  · obtain ⟨part, within, rfl⟩ := listed
    rw [mem_range] at within
    rw [lookup_updatePuts_chunk id servers raw within]
    exact ⟨fun _ => .inr ⟨part, within, rfl⟩, fun _ => rfl⟩
  · rw [Book.updatePuts, lookup_foldl_insert_of_ne (listRef id) (chunk raw) _
      fun part within same => listed ⟨part, within, same⟩]
    simp only [mem_range] at listed
    rw [or_iff_left (fun ⟨part, within, same⟩ => listed ⟨part, within, same⟩)]
    by_cases known : ∃ s ∈ servers, serverRef id s.digest = ref
    · obtain ⟨s, -, -, found⟩ :=
        lookup_foldl_insert (fun s : Server => serverRef id s.digest) (fun s => s.document) ∅ known
      rw [found]
      exact ⟨fun _ => known, fun _ => rfl⟩
    · rw [lookup_foldl_insert_of_ne (fun s : Server => serverRef id s.digest) (fun s => s.document) ∅
        fun s inside same => known ⟨s, inside, same⟩]
      exact ⟨nofun, fun there => absurd there known⟩

theorem mem_updateDeletes {servers : List Server} {parts : Nat} :
    ref ∈ Book.updateDeletes id r servers parts ↔
      (ref ∈ r.servers ∧ ∀ s ∈ servers, serverRef id s.digest ≠ ref) ∨
        ∃ part, parts ≤ part ∧ part < r.listParts ∧ listRef id part = ref := by
  simp only [Book.updateDeletes, mem_append, mem_filter, mem_map,
    contains_eq_mem, Bool.not_eq_true', decide_eq_false_iff_not, not_exists, not_and,
    range_eq_range', drop_range', mem_range'_1]
  refine or_congr Iff.rfl (exists_congr fun part => ?_)
  constructor
  · rintro ⟨⟨low, high⟩, same⟩
    exact ⟨by omega, by omega, same⟩
  · rintro ⟨low, high, same⟩
    exact ⟨⟨by omega, by omega⟩, same⟩

theorem mem_references :
    ref ∈ Book.references id r ↔
      ref = recordRef id ∨ ref ∈ r.servers ∨ ∃ part < r.listParts, listRef id part = ref := by
  simp [Book.references]

end Sora.Control
