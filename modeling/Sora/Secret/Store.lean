import Sora.Lib.Base64
import Sora.Lib.Json
import Mathlib.Data.List.AList

/-!
# The secret store

The vault of credentials: a map from references to byte slices in memory, and a directory with
the store's identifier, its wrapped master key and the sealed map.  Slices are addresses into
memory, so that wiping a slice is seen through every map that shares it.  Every step that can
fail, of sealing or of writing a file, fails when the call's faults say so.
-/

namespace Sora.Secret

open Sora.Lib

/-! ## Errors and limits -/

inductive Code where
  | invalidArgument
  | resourceExhausted
  | internal
  | notFound
  deriving DecidableEq

inductive Key where
  | secretReferenceInvalid
  | secretTooLarge
  | secretStoreUnavailable
  | secretStoreCorrupt
  | secretNotFound
  deriving DecidableEq

structure Err where
  code : Code
  key : Key
  deriving DecidableEq

def unavailable : Err := ⟨.internal, .secretStoreUnavailable⟩

def corrupt : Err := ⟨.internal, .secretStoreCorrupt⟩

def maxSecretBytes : Nat := 64 * 2 ^ 10

def maxSecrets : Nat := 4096

def maxVaultBytes : Nat := 8 * 2 ^ 20

def maxReferenceLen : Nat := 64

def isReferenceByte (c : UInt8) : Bool :=
  97 ≤ c && c ≤ 122 || 65 ≤ c && c ≤ 90 || 48 ≤ c && c ≤ 57 || c == 45 || c == 95

/-- `ValidateReference`. -/
def validateReference (reference : Bytes) : Option Err :=
  if reference = [] then some ⟨.invalidArgument, .secretReferenceInvalid⟩
  else if maxReferenceLen < reference.length then some ⟨.invalidArgument, .secretReferenceInvalid⟩
  else if reference.all isReferenceByte then none
  else some ⟨.invalidArgument, .secretReferenceInvalid⟩

/-! ## Memory -/

/-- The slices that were ever allocated, by their addresses. -/
structure Heap where
  cells : Nat → Bytes
  next : Nat

def Heap.alloc (h : Heap) (bytes : Bytes) : Heap × Nat :=
  (⟨Function.update h.cells h.next bytes, h.next + 1⟩, h.next)

/-- `wipe`. -/
def Heap.wipe (h : Heap) (a : Nat) : Heap :=
  { h with cells := Function.update h.cells a (List.replicate (h.cells a).length 0) }

abbrev Map (ν : Type) := AList fun _ : Bytes => ν

structure Store where
  key : Bytes
  id : Bytes
  items : Map Nat
  heap : Heap
  closed : Bool

/-- The item map with its contents. -/
def Store.view (s : Store) (reference : Bytes) : Option Bytes :=
  (s.items.lookup reference).map s.heap.cells

/-- Copies of these values under their references. -/
def insertAll (values : List (Sigma fun _ : Bytes => Bytes)) (h : Heap) (m : Map Nat) :
    Heap × Map Nat :=
  values.foldl (fun (h, m) p => ((h.alloc p.2).1, m.insert p.1 (h.alloc p.2).2)) (h, m)

/-! ## Files -/

/-- The files of the store's directory. -/
abbrev Disk := Bytes → Option Bytes

def vaultFile : Bytes := ascii "secrets.vault"

def masterFile : Bytes := ascii "master.key"

def idFile : Bytes := ascii "store.id"

/-- What goes wrong in `writeFileAtomic`: the random part of the temporary name unless the file
cannot be created, the bytes written before a write fails, and the steps that fail. -/
structure WriteFaults where
  create : Option Bytes
  harden : Bool
  write : Option Nat
  sync : Bool
  close : Bool
  rename : Bool
  remove : Bool
  openDir : Bool
  syncDir : Bool

/-- `syncDir`: its errors are dropped. -/
def syncDir (f : WriteFaults) : Option Err :=
  if f.openDir then none
  else if f.syncDir then none
  else none

/-- `writeFileAtomic`. -/
def writeFileAtomic (f : WriteFaults) (path data : Bytes) (disk : Disk) : Disk × Option Err :=
  match f.create with
  | none => (disk, some unavailable)
  | some random =>
    let tmp := path ++ (ascii ".tmp-" ++ random)
    let set (content : Option Bytes) (disk : Disk) : Disk := Function.update disk tmp content
    let cleanup (disk : Disk) : Disk := if f.remove then disk else set none disk
    -- a name that is taken is not used
    if (disk tmp).isSome then (disk, some unavailable)
    else
      let disk := set (some []) disk
      if f.harden then (cleanup disk, some unavailable)
      else
        match f.write with
        | some n => (cleanup (set (some (data.take n)) disk), some unavailable)
        | none =>
          let disk := set (some data) disk
          if f.sync then (cleanup disk, some unavailable)
          else if f.close then (cleanup disk, some unavailable)
          else if f.rename then (cleanup disk, some unavailable)
          else
            let disk := Function.update (set none disk) path (some data)
            (cleanup disk, syncDir f)

/-! ## Sealing -/

/-- Authenticated encryption with a key, a nonce and associated data. -/
structure AEAD where
  sealed : (key nonce payload aad : Bytes) → Bytes
  opened : (key nonce body aad : Bytes) → Option Bytes
  opened_sealed : ∀ key nonce payload aad,
    opened key nonce (sealed key nonce payload aad) aad = some payload
  length_sealed : ∀ key nonce payload aad,
    (sealed key nonce payload aad).length = payload.length + 16

/-- The protection of the master key. -/
structure Protector where
  protect : Bytes → Option Bytes
  unprotect : Bytes → Option Bytes
  unprotect_protect : ∀ key wrapped, protect key = some wrapped → unprotect wrapped = some key

def vaultHeader : Bytes := ascii "SORAVLT\x01"

def nonceLen : Nat := 12

def aeadOverhead : Nat := 16

def headerLen : Nat := vaultHeader.length + nonceLen

def masterHeader : Bytes := ascii "SORAMST\x01"

def storeIDLen : Nat := 16

def keyLen : Nat := 32

structure SealFaults where
  marshal : Bool
  cipher : Bool
  nonce : Option { nonce : Bytes // nonce.length = nonceLen }

def aad (id : Bytes) : Bytes := ascii "sora.secret.v1" ++ id

/-- The map as `json.Marshal` prints it: references in order, contents in base64. -/
def Store.marshal (s : Store) : Bytes :=
  Json.printObject (s.items.keys.mergeSort.map fun reference =>
    (reference, Base64.encode Base64.std ((s.view reference).getD [])))

/-- The members of an object, the last of a name counting. -/
def collect (m : Map Bytes) : List (Bytes × Bytes) → Option (Map Bytes)
  | [] => some m
  | (name, text) :: rest =>
    (Base64.decode Base64.std true text).bind fun content => collect (m.insert name content) rest

/-- `json.Unmarshal` into a map. -/
def unmarshal (text : Bytes) : Option (Map Bytes) := (Json.readObject text).bind (collect ∅)

section Operations

variable (aead : AEAD) (prot : Protector)

/-- `seal`. -/
def Store.sealVault (s : Store) (f : SealFaults) : Except Err Bytes :=
  if f.marshal then .error unavailable
  else if f.cipher then .error unavailable
  else
    match f.nonce with
    | none => .error unavailable
    | some nonce => .ok (vaultHeader ++ nonce.1 ++ aead.sealed s.key nonce.1 s.marshal (aad s.id))

/-- `unseal`, on a machine where the cipher is available. -/
def unsealVault (key id raw : Bytes) : Except Err (Map Bytes) :=
  if raw.length < headerLen + aeadOverhead then .error corrupt
  else if raw.take vaultHeader.length ≠ vaultHeader then .error corrupt
  else
    let nonce := (raw.drop vaultHeader.length).take nonceLen
    match aead.opened key nonce (raw.drop headerLen) (aad id) with
    | none => .error corrupt
    | some plaintext =>
      match unmarshal plaintext with
      | none => .error corrupt
      | some items =>
        if items.keys.any fun reference => (validateReference reference).isSome then .error corrupt
        else .ok items

structure Faults where
  sealing : SealFaults
  write : WriteFaults

/-- `writeLocked`. -/
def writeLocked (f : Faults) (s : Store) (disk : Disk) : Disk × Option Err :=
  match s.sealVault aead f.sealing with
  | .error e => (disk, some e)
  | .ok sealed =>
    if maxVaultBytes < sealed.length then (disk, some ⟨.resourceExhausted, .secretTooLarge⟩)
    else writeFileAtomic f.write vaultFile sealed disk

/-! ## Operations -/

/-- A store and its directory. -/
structure World where
  store : Store
  disk : Disk

inductive Result where
  | ok
  | error (e : Err)
  | panicked
  deriving DecidableEq

def checkMaterial (reference material : Bytes) : Option Err :=
  if let some e := validateReference reference then some e
  else if material = [] then some ⟨.invalidArgument, .secretReferenceInvalid⟩
  else if maxSecretBytes < material.length then some ⟨.resourceExhausted, .secretTooLarge⟩
  else none

/-- `Put`. -/
def put (f : Faults) (reference material : Bytes) (w : World) : World × Result :=
  match checkMaterial reference material with
  | some e => (w, .error e)
  | none =>
    if w.store.closed then (w, .error unavailable)
    else if (w.store.items.lookup reference).isNone ∧ maxSecrets ≤ w.store.items.keys.length then
      (w, .error ⟨.resourceExhausted, .secretStoreUnavailable⟩)
    else
      let (heap, stored) := w.store.heap.alloc material
      let previous := w.store.items.lookup reference
      let store := { w.store with heap := heap, items := w.store.items.insert reference stored }
      match writeLocked aead f store w.disk with
      | (disk, some e) =>
        let items :=
          match previous with
          | some a => store.items.insert reference a
          | none => store.items.erase reference
        (⟨{ store with items := items, heap := heap.wipe stored }, disk⟩, .error e)
      | (disk, none) =>
        let heap :=
          match previous with
          | some a => heap.wipe a
          | none => heap
        (⟨{ store with heap := heap }, disk⟩, .ok)

/-- `Delete`. -/
def delete (f : Faults) (reference : Bytes) (w : World) : World × Result :=
  match validateReference reference with
  | some e => (w, .error e)
  | none =>
    if w.store.closed then (w, .error unavailable)
    else
      match w.store.items.lookup reference with
      | none => (w, .ok)
      | some previous =>
        let store := { w.store with items := w.store.items.erase reference }
        match writeLocked aead f store w.disk with
        | (disk, some e) =>
          (⟨{ store with items := store.items.insert reference previous }, disk⟩, .error e)
        | (disk, none) => (⟨{ store with heap := store.heap.wipe previous }, disk⟩, .ok)

/-- The first error in what `Apply` is given, puts before deletes. -/
def checkChange (puts : Map Bytes) (deletes : List Bytes) : Option Err :=
  (puts.entries.findSome? fun p => checkMaterial p.1 p.2).or (deletes.findSome? validateReference)

/-- The address of the first byte; a slice without bytes has none. -/
def firstByte (h : Heap) (a : Nat) : Option Nat := if h.cells a = [] then none else some a

/-- The last loop of `Apply`: values that the new map does not share are wiped. -/
def wipeReplaced (next : Map Nat) : List (Sigma fun _ : Bytes => Nat) → Heap → Option Heap
  | [], h => some h
  | ⟨reference, material⟩ :: rest, h =>
    match next.lookup reference with
    | none => wipeReplaced next rest (h.wipe material)
    | some kept =>
      match firstByte h kept, firstByte h material with
      | some here, some there =>
        wipeReplaced next rest (if here ≠ there then h.wipe material else h)
      | _, _ => none

/-- The copies that `Apply` made are wiped when it fails. -/
def wipeCopies (next : Map Nat) (references : List Bytes) (h : Heap) : Heap :=
  references.foldl (fun h reference => ((next.lookup reference).map h.wipe).getD h) h

/-- `Apply`. -/
def apply (f : Faults) (puts : Map Bytes) (deletes : List Bytes) (w : World) : World × Result :=
  match checkChange puts deletes with
  | some e => (w, .error e)
  | none =>
    if w.store.closed then (w, .error unavailable)
    else
      let (heap, next) :=
        insertAll puts.entries w.store.heap (deletes.foldl (fun m r => m.erase r) w.store.items)
      if maxSecrets < next.keys.length then
        (⟨{ w.store with heap := wipeCopies next puts.keys heap }, w.disk⟩,
          .error ⟨.resourceExhausted, .secretStoreUnavailable⟩)
      else
        let previous := w.store.items
        let store := { w.store with heap := heap, items := next }
        match writeLocked aead f store w.disk with
        | (disk, some e) =>
          (⟨{ store with items := previous, heap := wipeCopies next puts.keys heap }, disk⟩,
            .error e)
        | (disk, none) =>
          match wipeReplaced next previous.entries heap with
          | some heap => (⟨{ store with heap := heap }, disk⟩, .ok)
          | none => (⟨store, disk⟩, .panicked)

/-- `Get`. -/
def get (reference : Bytes) (w : World) : Except Err Bytes :=
  match validateReference reference with
  | some e => .error e
  | none =>
    if w.store.closed then .error unavailable
    else
      match w.store.view reference with
      | none => .error ⟨.notFound, .secretNotFound⟩
      | some material => .ok material

/-! ## Opening -/

/-- What `Open` draws and what fails: reading the files, drawing and writing the identifier and
the key. -/
structure OpenFaults where
  readID : Bool
  readMaster : Bool
  readVault : Bool
  newID : Option { id : Bytes // id.length = storeIDLen }
  newKey : Option { key : Bytes // key.length = keyLen }
  writeID : WriteFaults
  writeMaster : WriteFaults

/-- `loadOrCreateID`. -/
def loadOrCreateID (f : OpenFaults) (disk : Disk) : Disk × Except Err Bytes :=
  if f.readID then (disk, .error unavailable)
  else
    match disk idFile with
    | some raw => (disk, if raw.length = storeIDLen then .ok raw else .error corrupt)
    | none =>
      match f.newID with
      | none => (disk, .error unavailable)
      | some id =>
        match writeFileAtomic f.writeID idFile id.1 disk with
        | (disk, some e) => (disk, .error e)
        | (disk, none) => (disk, .ok id.1)

/-- The part of `loadOrCreateKey` after the identifier. -/
def loadOrCreateMaster (f : OpenFaults) (disk : Disk) : Disk × Except Err Bytes :=
  if f.readMaster then (disk, .error unavailable)
  else
    match disk masterFile with
    | some raw =>
      (disk,
        if raw.take masterHeader.length ≠ masterHeader then .error corrupt
        else
          match prot.unprotect (raw.drop masterHeader.length) with
          | none => .error unavailable
          | some key => if key.length = keyLen then .ok key else .error corrupt)
    | none =>
      match f.newKey with
      | none => (disk, .error unavailable)
      | some key =>
        match prot.protect key.1 with
        | none => (disk, .error unavailable)
        | some wrapped =>
          match writeFileAtomic f.writeMaster masterFile (masterHeader ++ wrapped) disk with
          | (disk, some e) => (disk, .error e)
          | (disk, none) => (disk, .ok key.1)

/-- `read`: the items of the vault, in fresh memory. -/
def readVault (f : OpenFaults) (key id : Bytes) (disk : Disk) : Except Err Store :=
  if f.readVault then .error unavailable
  else
    match disk vaultFile with
    | none =>
      .ok { key := key, id := id, items := ∅, heap := ⟨fun _ => [], 0⟩, closed := false }
    | some raw => do
      let items ← unsealVault aead key id raw
      let (heap, items) := insertAll items.entries ⟨fun _ => [], 0⟩ ∅
      .ok { key := key, id := id, items := items, heap := heap, closed := false }

/-- `Open`, for a directory that exists. -/
def openStore (f : OpenFaults) (disk : Disk) : Disk × Except Err Store :=
  match loadOrCreateID f disk with
  | (disk, .error e) => (disk, .error e)
  | (disk, .ok id) =>
    match loadOrCreateMaster prot f disk with
    | (disk, .error e) => (disk, .error e)
    | (disk, .ok key) => (disk, readVault aead f key id disk)

end Operations

example : validateReference (ascii "s1_keep") = none := by decide

example : validateReference (ascii "bad reference") =
    some ⟨.invalidArgument, .secretReferenceInvalid⟩ := by decide

end Sora.Secret
