import Sora.Lib.Prog
import Sora.Control.Record

/-!
# The subscription book

`save`, `delete`, `refresh`, the scheduler `run` and `WatchSubscriptions` as programs over the
lock sections of the book and the calls that a lock section does not cover.  A goroutine that a
`go` statement has started and that has not run yet waits in `started`.  Beside the fields of
the source the book keeps a log of the links that saves have stored and of the requests to
providers, the identifiers that were deleted, how many failed updates could not be recorded, and
what every watcher was handed.
-/

namespace Sora.Control

open Sora.Lib Sora.Session

def maxSubscriptions : Nat := 100

def parallelUpdates : Nat := 4

def maxUserAgent : Nat := 256

/-- The capacity of a watcher's channel. -/
def watchQueue : Nat := 64

/-! ## Sample formats -/

/-- Times as numbers. -/
def plainTime : TimeFormat where
  print := Json.intLiteral
  parse := Json.readInt
  valid_print t := by
    refine Json.valid_of_ascii fun c member => ?_
    have low : ∀ c, isDigit 10 c = true → c < 0x80 := forall_byte (by decide +kernel)
    rw [Json.intLiteral] at member
    split at member
    · rcases List.mem_cons.mp member with rfl | inside
      · decide
      · exact low c (isDigit_of_mem_numeral (by decide) (by decide) c inside)
    · exact low c (isDigit_of_mem_numeral (by decide) (by decide) c member)
  parse_print t _ := Json.readInt_intLiteral t

/-- A text as marked bytes with an end mark. -/
def putText (s : Bytes) : Bytes := s.flatMap (fun b => [1, b]) ++ [0]

def takeText : Bytes → Option (Bytes × Bytes)
  | 0 :: rest => some ([], rest)
  | 1 :: b :: rest => (takeText rest).map fun p => (b :: p.1, p.2)
  | _ => none

theorem takeText_putText (s rest : Bytes) : takeText (putText s ++ rest) = some (s, rest) := by
  induction s with
  | nil => rfl
  | cons b s ih =>
    change takeText (1 :: b :: (putText s ++ rest)) = _
    rw [takeText, ih, Option.map_some]

def takeTexts : Nat → Bytes → Option (List Bytes)
  | _, [] => some []
  | 0, _ => none
  | fuel + 1, s => do
    let (text, rest) ← takeText s
    (takeTexts fuel rest).map (text :: ·)

theorem takeTexts_putText (texts : List Bytes) : ∀ fuel, texts.length ≤ fuel →
    takeTexts fuel (texts.flatMap putText) = some texts := by
  induction texts with
  | nil =>
    intro fuel _
    cases fuel <;> rfl
  | cons s texts ih =>
    intro fuel enough
    obtain ⟨fuel, rfl⟩ := Nat.exists_eq_succ_of_ne_zero (Nat.ne_zero_of_lt enough)
    have more := ih fuel (Nat.le_of_succ_le_succ enough)
    have read := takeText_putText s (texts.flatMap putText)
    rw [List.flatMap_cons]
    cases coded : putText s ++ texts.flatMap putText with
    | nil => simp [putText] at coded
    | cons b rest =>
      rw [coded] at read
      rw [takeTexts, read]
      · simp [more]
      · nofun

def OutboundSpec.texts (s : OutboundSpec) : List Bytes :=
  [s.id, s.displayName, s.protocol, s.displayProtocol, s.transport, s.security, s.host,
    numeral 10 s.port, s.reference]

def readSpecs : List Bytes → Option (List OutboundSpec)
  | [] => some []
  | id :: name :: protocol :: shown :: transport :: security :: host :: port :: reference :: rest =>
    (readSpecs rest).map (⟨id, name, protocol, shown, transport, security, host, numValue 10 port,
      reference⟩ :: ·)
  | _ => none

theorem readSpecs_texts (l : List OutboundSpec) :
    readSpecs (l.flatMap OutboundSpec.texts) = some l := by
  induction l with
  | nil => rfl
  | cons s l ih =>
    have port : numValue 10 (numeral 10 s.port) = s.port :=
      numValue_numeral (by decide) (by decide)
    simp [OutboundSpec.texts, readSpecs, ih, port]

theorem length_le_flatMap_putText (texts : List Bytes) :
    texts.length ≤ (texts.flatMap putText).length := by
  induction texts with
  | nil => exact Nat.le_refl 0
  | cons s texts ih =>
    rw [List.flatMap_cons, List.length_append, List.length_cons]
    have one : 1 ≤ (putText s).length := by simp [putText]
    omega

/-- Server lists as marked texts. -/
def plainWire : Wire where
  marshal l := (l.flatMap OutboundSpec.texts).flatMap putText
  unmarshal raw := (takeTexts raw.length raw).bind readSpecs
  marshal_nil := rfl
  unmarshal_marshal l _ := by
    rw [takeTexts_putText _ _ (length_le_flatMap_putText _), Option.bind_some, readSpecs_texts]

/-! ## Settings -/

/-- `corev1.SubscriptionSettings`. -/
structure Settings where
  id : Bytes := []
  url : Bytes := []
  name : Bytes := []
  userAgent : Bytes := []
  autoUpdate : Bool := false
  updateInterval : Option Int := none

/-- What the book uses of its server and of libraries: whether there are a vault and a fetcher,
how a link is normalized and which host it names, and the formats of stored values. -/
structure Core where
  secrets : Bool
  fetcher : Bool
  normalizedLink : Bytes → Except Err Bytes
  hostname : Bytes → Bytes := fun _ => []
  time : TimeFormat := plainTime
  wire : Wire := plainWire

/-- The error of `UserAgentFor`. -/
def userAgentFor (asked : Bytes) : Except Err Unit :=
  let trimmed := trimSpace asked
  if trimmed = [] then pure ()
  else if maxUserAgent < trimmed.length then throw ⟨.invalidArgument, keySubscriptionScheme⟩
  else if trimmed.all fun c => 0x20 ≤ c && c ≤ 0x7e then pure ()
  else throw ⟨.invalidArgument, keySubscriptionScheme⟩

def checkInterval : Option Int → Except Err Int
  | none => pure 0
  | some v =>
    if v < minUpdateInterval ∨ maxUpdateInterval < v then
      throw ⟨.invalidArgument, keySubscriptionInterval⟩
    else pure v

/-- Settings that have passed the checks before the lock; an empty link keeps the old one. -/
structure Edit where
  id : Bytes
  link : Bytes
  name : Bytes
  agent : Bytes
  autoUpdate : Bool
  interval : Int

/-- The settings of a record after a save. -/
def Edit.complete (e : Edit) (r : Record) : Record :=
  { r with
    name := e.name
    userAgent := e.agent
    autoUpdate := e.autoUpdate
    interval := e.interval }

/-- The part of `save` before the lock. -/
def checkSettings (core : Core) (s : Settings) : Except Err Edit := do
  if !core.secrets then throw ⟨.failedPrecondition, keySecretStoreUnavailable⟩
  let agent := trimSpace s.userAgent
  userAgentFor agent
  let interval ← checkInterval s.updateInterval
  let link ← if trimSpace s.url = [] then pure [] else core.normalizedLink s.url
  return ⟨s.id, link, trimSpace s.name, agent, s.autoUpdate, interval⟩

/-! ## The vault -/

/-- The entries of the vault. -/
abbrev Entries := Secret.Map Bytes

/-- An error of the store as clients see it. -/
def ofStore (e : Secret.Err) : Err where
  code :=
    match e.code with
    | .invalidArgument => .invalidArgument
    | .resourceExhausted => .resourceExhausted
    | .internal => .internal
    | .notFound => .notFound
  key :=
    match e.key with
    | .secretReferenceInvalid => keySecretReferenceInvalid
    | .secretTooLarge => keySecretTooLarge
    | .secretStoreUnavailable => keySecretStoreUnavailable
    | .secretStoreCorrupt => keySecretStoreCorrupt
    | .secretNotFound => keySecretNotFound

def changed (puts : Entries) (deletes : List Bytes) (vault : Entries) : Entries :=
  puts.entries.foldl (fun m p => m.insert p.1 p.2) (deletes.foldl (fun m r => m.erase r) vault)

/-- `Store.Apply` on the entries; `fault` is the error of writing the vault. -/
def applyChange (fault : Option Err) (puts : Entries) (deletes : List Bytes) (vault : Entries) :
    Except Err Entries :=
  match Secret.checkChange puts deletes with
  | some e => .error (ofStore e)
  | none =>
    if Secret.maxSecrets < (changed puts deletes vault).keys.length then
      .error ⟨.resourceExhausted, keySecretStoreUnavailable⟩
    else
      match fault with
      | some e => .error e
      | none => .ok (changed puts deletes vault)

/-- `persistLocked`. -/
def persist (time : TimeFormat) (fault : Option Err) (id : Bytes) (r : Record) (puts : Entries)
    (deletes : List Bytes) (vault : Entries) : Except Err Entries :=
  match marshalRecord time id r with
  | none => .error ⟨.internal, keySecretStoreUnavailable⟩
  | some raw => applyChange fault (puts.insert (recordRef id) raw) deletes vault

/-! ## States and watchers -/

/-- `corev1.SubscriptionState`; the zero time stands for a missing one. -/
structure SubscriptionState where
  id : Bytes
  name : Bytes := []
  userAgent : Bytes := []
  autoUpdate : Bool := false
  interval : Int := 0
  info : Info := {}
  outbounds : List OutboundSpec := []
  lastUpdate : Int := 0
  nextUpdate : Int := 0
  lastError : Option StoredError := none
  updating : Bool := false
  deleted : Bool := false
  displayName : Bytes := []
  deriving DecidableEq

def displayName (core : Core) (id : Bytes) (r : Record) : Bytes :=
  if r.name ≠ [] then r.name
  else if r.info.title ≠ [] then r.info.title
  else if core.hostname r.url ≠ [] then core.hostname r.url
  else id

/-- The metadata of a state: a page that is the link itself is left out. -/
def shownInfo (core : Core) (r : Record) : Info :=
  match core.normalizedLink r.info.webPageURL with
  | .ok link => if link = r.url then { r.info with webPageURL := [] } else r.info
  | .error _ => r.info

/-- The notice of a deletion. -/
def deletedNotice (id : Bytes) : SubscriptionState := { id := id, deleted := true }

/-- A call of `WatchSubscriptions`: its channel, the states that it has taken from the book and
from the channel, and those that it has sent. -/
structure Watcher where
  registered : Bool := true
  queue : List SubscriptionState := []
  listed : Bool := false
  handed : List SubscriptionState := []
  sent : List SubscriptionState := []
  /-- Whether a notice found the channel full. -/
  dropped : Bool := false

/-- A notice for a watcher, which is lost if its channel is full. -/
def Watcher.offer (s : SubscriptionState) (w : Watcher) : Watcher :=
  if !w.registered then w
  else if w.queue.length < watchQueue then { w with queue := w.queue ++ [s] }
  else { w with dropped := true }

/-! ## The book -/

inductive Event where
  /-- A save has created the subscription with this link, or has changed its link to it. -/
  | stored (id link : Bytes)
  /-- The provider has been asked for the link. -/
  | requested (id link : Bytes)
  deriving DecidableEq

/-- A goroutine that `save` or the scheduler has started. -/
structure Launch where
  id : Bytes
  scheduled : Bool

structure Book where
  records : AList fun _ : Bytes => Record
  lists : Bytes → List OutboundSpec
  updating : Bytes → Bool
  watchers : List Watcher
  vault : Entries
  /-- Slots that the scheduler's updates occupy. -/
  slots : Nat
  started : List Launch
  log : List Event
  deleted : List Bytes
  unrecorded : Nat

/-- A book with records whose lists and entries are not looked at. -/
def Book.loaded (records : AList fun _ : Bytes => Record) : Book where
  records := records
  lists _ := []
  updating _ := false
  watchers := []
  vault := ∅
  slots := 0
  started := []
  log := []
  deleted := []
  unrecorded := 0

/-- The context of an update: only one that belongs to a caller or to the scheduler ends. -/
inductive Context where
  | background
  | cancellable

/-- The answer of a provider: `parsed` is the result of `parsePayload` on its body. -/
inductive Fetched where
  | failed (e : Err)
  | answered (info : Info) (parsed : Except Err (List Server))

/-- What the environment decides. -/
structure Choice where
  now : Int := 1
  /-- The answer of `newSubscriptionID`. -/
  newID : Except Err Bytes := .ok []
  /-- The error of writing the vault. -/
  persisted : Option Err := none
  /-- The error of writing the vault in `applyUpdateLocked`. -/
  applied : Option Err := none
  fetched : Fetched := .answered {} (.ok [])
  /-- The text of the error of an update. -/
  detail : Bytes := []
  /-- Whether the context has ended, and with which error. -/
  ended : Option Err := none
  /-- The delays of the backoff, which are drawn at random. -/
  retry : Bytes → Int → Nat → Int := fun _ _ _ => 0
  /-- The order in which the records are walked. -/
  order : List Bytes := []
  /-- The position of the goroutine that runs next. -/
  position : Nat := 0
  /-- Whether a state reaches the client. -/
  sent : Bool := true

/-- What a successful `save` has done. -/
structure Saved where
  id : Bytes
  fetchNow : Bool

inductive Started where
  | refused (e : Err)
  | already
  | fetch (link agent : Bytes)

inductive Op : Type → Type
  | save (e : Edit) : Op (Except Err Saved)
  | delete (id : Bytes) : Op (Option Err)
  | start (id : Bytes) : Op Started
  | fetch (ctx : Context) (id link agent : Bytes) : Op Fetched
  | finish (id link : Bytes) (fetched : Fetched) : Op (Option Err)
  | due : Op (List Bytes)
  | acquire : Op Bool
  | launch (id : Bytes) : Op Unit
  | take : Op Launch
  | release : Op Unit
  | watch : Op Nat
  | list (w : Nat) : Op (List SubscriptionState)
  | receive (w : Nat) : Op (Option SubscriptionState)
  | send (w : Nat) (s : SubscriptionState) : Op Bool
  | stop (w : Nat) : Op Unit

namespace Book

/-- `stateLocked`, for the subscription's record. -/
def state (core : Core) (retry : Bytes → Int → Nat → Int) (id : Bytes) (r : Record) (b : Book) :
    SubscriptionState where
  id := id
  name := r.name
  userAgent := r.userAgent
  autoUpdate := r.autoUpdate
  interval := r.interval
  info := shownInfo core r
  outbounds := b.lists id
  lastUpdate := r.lastSuccess
  nextUpdate := nextUpdate (retry id) r
  lastError := r.lastError
  updating := b.updating id
  displayName := displayName core id r

/-- `notifyLocked`. -/
@[simps]
def notify (s : SubscriptionState) (b : Book) : Book :=
  { b with watchers := b.watchers.map (Watcher.offer s) }

set_option linter.simpsNoConstructor false in
/-- A changed record is put into the book and announced. -/
@[simps lists updating vault started log deleted unrecorded]
def announce (core : Core) (c : Choice) (id : Bytes) (r : Record) (b : Book) : Book :=
  let b := { b with records := b.records.insert id r }
  b.notify (b.state core c.retry id r)

/-- The book after a save that has persisted the record. -/
def stored (core : Core) (c : Choice) (id : Bytes) (r : Record) (fetchNow : Bool) (vault : Entries)
    (b : Book) : Book :=
  announce core c id r { b with
    vault := vault
    started := if fetchNow then b.started ++ [⟨id, false⟩] else b.started
    log := if fetchNow then b.log ++ [.stored id r.url] else b.log }

/-- The end of `save`: the record is completed, persisted and stored. -/
def store (core : Core) (c : Choice) (e : Edit) (id : Bytes) (r : Record) (fetchNow : Bool)
    (b : Book) : Except Err Saved × Book :=
  match persist core.time c.persisted id (e.complete r) ∅ [] b.vault with
  | .error err => (.error err, b)
  | .ok vault => (.ok ⟨id, fetchNow⟩, b.stored core c id (e.complete r) fetchNow vault)

/-- The lock section of `save`. -/
def save (core : Core) (c : Choice) (e : Edit) (b : Book) : Except Err Saved × Book :=
  if e.link ≠ [] ∧ b.records.entries.any fun p => p.2.url == e.link && p.1 != e.id then
    (.error ⟨.invalidArgument, keySubscriptionDuplicate⟩, b)
  else if e.id = [] then
    if e.link = [] then (.error ⟨.invalidArgument, keySubscriptionScheme⟩, b)
    else if maxSubscriptions ≤ b.records.entries.length then
      (.error ⟨.resourceExhausted, keySubscriptionLimit⟩, b)
    else
      match c.newID with
      | .error err => (.error err, b)
      | .ok id => b.store core c e id { url := e.link, created := c.now } true
  else
    match b.records.lookup e.id with
    | none => (.error ⟨.notFound, keySubscriptionNotFound⟩, b)
    | some existing =>
      if e.link ≠ [] ∧ e.link ≠ existing.url then
        b.store core c e e.id { existing with url := e.link, failures := 0, lastError := none } true
      else b.store core c e e.id existing false

/-- What the vault holds for a subscription. -/
def references (id : Bytes) (r : Record) : List Bytes :=
  recordRef id :: (r.servers ++ (List.range r.listParts).map (listRef id))

/-- The book after a deletion. -/
def erased (id : Bytes) (vault : Entries) (b : Book) : Book :=
  notify (deletedNotice id) { b with
    vault := vault
    records := b.records.erase id
    lists := Function.update b.lists id []
    deleted := id :: b.deleted }

def delete (c : Choice) (id : Bytes) (b : Book) : Option Err × Book :=
  match b.records.lookup id with
  | none => (some ⟨.notFound, keySubscriptionNotFound⟩, b)
  | some r =>
    match applyChange c.persisted ∅ (references id r) b.vault with
    | .error err => (some err, b)
    | .ok vault => (none, b.erased id vault)

/-- Whether an update of the subscription runs. -/
def mark (id : Bytes) (running : Bool) (b : Book) : Book :=
  { b with updating := Function.update b.updating id running }

/-- The first lock section of `refresh`. -/
def start (core : Core) (c : Choice) (id : Bytes) (b : Book) : Started × Book :=
  match b.records.lookup id with
  | none => (.refused ⟨.notFound, keySubscriptionNotFound⟩, b)
  | some r =>
    if b.updating id then (.already, b)
    else if !core.fetcher then (.refused ⟨.unsupported, keySubscriptionFetch⟩, b)
    else
      let b := b.mark id true
      (.fetch r.url r.userAgent, b.notify (b.state core c.retry id r))

/-- What an update puts into the vault beside the record. -/
def updatePuts (id : Bytes) (servers : List Server) (raw : Bytes) : Entries :=
  (List.range (chunkCount raw.length)).foldl
    (fun m part => m.insert (listRef id part) (chunk raw part))
    (servers.foldl (fun m s => m.insert (serverRef id s.digest) s.document) ∅)

/-- What an update removes from the vault: servers that are gone and chunks of a longer list. -/
def updateDeletes (id : Bytes) (r : Record) (servers : List Server) (parts : Nat) : List Bytes :=
  r.servers.filter (fun ref => !(servers.map fun s => serverRef id s.digest).contains ref) ++
    ((List.range r.listParts).drop parts).map (listRef id)

def updatedRecord (id : Bytes) (r : Record) (info : Info) (servers : List Server) (parts : Nat) :
    Record :=
  { r with
    servers := (servers.map fun s => serverRef id s.digest).insertionSort (· ≤ ·)
    listParts := parts
    info := info
    lastSuccess := r.lastAttempt
    failures := 0
    lastError := none }

/-- `applyUpdateLocked`: the record and the entries of the vault after the update. -/
def applyUpdate (core : Core) (c : Choice) (id : Bytes) (r : Record) (info : Info)
    (servers : List Server) (b : Book) : Except Err (Record × Book) :=
  let list := servers.map (·.spec)
  if !list.all OutboundSpec.valid then .error ⟨.internal, keySecretStoreUnavailable⟩
  else
    let raw := core.wire.marshal list
    let parts := chunkCount raw.length
    match persist core.time c.applied id (updatedRecord id r info servers parts)
        (updatePuts id servers raw) (updateDeletes id r servers parts) b.vault with
    | .error e => .error e
    | .ok vault =>
      .ok (updatedRecord id r info servers parts,
        { b with vault := vault, lists := Function.update b.lists id list })

/-- The outcome of an update: the fetch, the parsing of its body and the application. -/
def update (core : Core) (c : Choice) (id : Bytes) (r : Record) (fetched : Fetched) (b : Book) :
    Except Err (Record × Book) :=
  match fetched with
  | .failed e => .error e
  | .answered _ (.error e) => .error e
  | .answered info (.ok servers) => b.applyUpdate core c id r info servers

/-- The record after a failed update; an answer keeps its metadata. -/
def failedRecord (c : Choice) (fetched : Fetched) (e : Err) (r : Record) : Record :=
  { r with
    failures := r.failures + 1
    info :=
      match fetched with
      | .failed _ => r.info
      | .answered info _ => info
    lastError := some ⟨e.code, e.key, c.detail⟩ }

/-- The second lock section of `refresh`. -/
def finish (core : Core) (c : Choice) (id link : Bytes) (fetched : Fetched) (b : Book) :
    Option Err × Book :=
  let b := b.mark id false
  match b.records.lookup id with
  | none => (some ⟨.notFound, keySubscriptionNotFound⟩, b)
  | some current =>
    if current.url ≠ link then (some ⟨.notFound, keySubscriptionNotFound⟩, b)
    else
      let next := { current with lastAttempt := c.now }
      match b.update core c id next fetched with
      | .ok (next, b) => (none, b.announce core c id next)
      | .error e =>
        let next := failedRecord c fetched e next
        match persist core.time c.persisted id next ∅ [] b.vault with
        | .error perr => (some perr, { b with unrecorded := b.unrecorded + 1 })
        | .ok vault => (some e, announce core c id next { b with vault := vault })

/-- `list`: the states in the order of creation. -/
def list (core : Core) (retry : Bytes → Int → Nat → Int) (b : Book) : List SubscriptionState :=
  (b.records.entries.insertionSort fun p q =>
    p.2.created < q.2.created ∨ p.2.created = q.2.created ∧ p.1 ≤ q.1).map fun p =>
      b.state core retry p.1 p.2

/-- The subscriptions that the scheduler finds due. -/
def due (c : Choice) (b : Book) : List Bytes :=
  (b.records.entries.filter fun p =>
    let next := nextUpdate (c.retry p.1) p.2
    next != 0 && !b.updating p.1 && decide (next ≤ c.now)).map (·.1)

def changeWatcher (w : Nat) (f : Watcher → Watcher) (b : Book) : Book :=
  { b with watchers := b.watchers.modify w f }

end Book

/-- One operation of a thread. -/
def perform (core : Core) {β : Type} (c : Choice) (op : Op β) (b : Book) : Option (β × Book) :=
  match op with
  | .save e => some (b.save core c e)
  | .delete id => some (b.delete c id)
  | .start id => some (b.start core c id)
  | .fetch ctx id link _ =>
    match ctx, c.ended with
    | .cancellable, some e => some (.failed e, b)
    | _, _ => some (c.fetched, { b with log := b.log ++ [.requested id link] })
  | .finish id link fetched => some (b.finish core c id link fetched)
  | .due => if c.order.isPerm (b.due c) then some (c.order, b) else none
  | .acquire =>
    if c.ended.isSome then some (false, b)
    else if b.slots < parallelUpdates then some (true, { b with slots := b.slots + 1 })
    else none
  | .launch id => some ((), { b with started := b.started ++ [⟨id, true⟩] })
  | .take =>
    match b.started[c.position]? with
    | none => none
    | some l => some (l, { b with started := b.started.eraseIdx c.position })
  | .release => some ((), { b with slots := b.slots - 1 })
  | .watch => some (b.watchers.length, { b with watchers := b.watchers ++ [{}] })
  | .list w =>
    let states := b.list core c.retry
    some (states, b.changeWatcher w fun watcher =>
      { watcher with listed := true, handed := watcher.handed ++ states })
  | .receive w =>
    if c.ended.isSome then some (none, b)
    else
      match (b.watchers[w]?).map (·.queue) with
      | some (s :: rest) =>
        some (some s, b.changeWatcher w fun watcher =>
          { watcher with queue := rest, handed := watcher.handed ++ [s] })
      | _ => none
  | .send w s =>
    if c.sent then
      some (true, b.changeWatcher w fun watcher => { watcher with sent := watcher.sent ++ [s] })
    else some (false, b)
  | .stop w => some ((), b.changeWatcher w fun watcher => { watcher with registered := false })

def machine (core : Core) : Machine Op Book where
  Choice := Choice
  perform _ c op b := perform core c op b

/-! ## Programs -/

def save (core : Core) (s : Settings) : Prog Op (Option Err) :=
  match checkSettings core s with
  | .error err => pure (some err)
  | .ok e => do
    match ← .op (.save e) with
    | .error err => pure (some err)
    | .ok _ => pure none

def refresh (ctx : Context) (id : Bytes) : Prog Op (Option Err) := do
  match ← .op (.start id) with
  | .refused e => pure (some e)
  | .already => pure none
  | .fetch link agent =>
    let fetched ← .op (.fetch ctx id link agent)
    .op (.finish id link fetched)

/-- The updates that one round of the scheduler starts: whether its context is still alive. -/
def launchAll : List Bytes → Prog Op Bool
  | [] => pure true
  | id :: rest => do
    if ← .op .acquire then
      .op (.launch id)
      launchAll rest
    else pure false

/-- The scheduler, for at most `n` rounds until its context ends. -/
def run : Nat → Prog Op Unit
  | 0 => pure ()
  | n + 1 => do
    let due ← .op .due
    if ← launchAll due then run n else pure ()

/-- The body of a started goroutine. -/
def goroutine : Prog Op Unit := do
  let l ← .op .take
  if l.scheduled then
    (refresh .cancellable l.id).ignore
    .op .release
  else (refresh .background l.id).ignore

/-- The states are sent one after the other: whether all of them have reached the client. -/
def sendAll (w : Nat) : List SubscriptionState → Prog Op Bool
  | [] => pure true
  | s :: rest => do
    if ← .op (.send w s) then sendAll w rest else pure false

/-- The loop of `WatchSubscriptions`, for at most `n` changes until its context ends. -/
def forward (w : Nat) : Nat → Prog Op Unit
  | 0 => pure ()
  | n + 1 => do
    match ← .op (.receive w) with
    | none => pure ()
    | some s => if ← .op (.send w s) then forward w n else pure ()

def watchSubscriptions (changes : Nat) : Prog Op Unit := do
  let w ← .op .watch
  let states ← .op (.list w)
  if ← sendAll w states then forward w changes else pure ()
  .op (.stop w)

inductive Call where
  | save (s : Settings)
  | delete (id : Bytes)
  | refresh (id : Bytes)
  | run (rounds : Nat)
  | goroutine
  | watch (changes : Nat)

def Call.program (core : Core) : Call → Prog Op Unit
  | .save s => (Control.save core s).ignore
  | .delete id => (Prog.op (.delete id)).ignore
  | .refresh id => (Control.refresh .cancellable id).ignore
  | .run rounds => Control.run rounds
  | .goroutine => Control.goroutine
  | .watch changes => watchSubscriptions changes

end Sora.Control
