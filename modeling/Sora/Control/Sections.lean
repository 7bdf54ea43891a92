import Sora.Control.Book

/-!
# What the lock sections do

One inversion per lock section of the book: `save_cases`, `delete_cases`, `start_cases` and
`finish_cases` name every way in which the section can end, with the book that it leaves and what
was true when it ended so; `performed` is the inversion of a step.  The invariants of the book are
derived from these.
-/

namespace Sora.Control

open Sora.Lib Sora.Session Book

namespace Book

section Fields

variable (core : Core) (c : Choice) (id : Bytes) (r : Record) (b : Book)

@[simp] theorem announce_records :
    (b.announce core c id r).records = b.records.insert id r := rfl

@[simp] theorem announce_watchers :
    (b.announce core c id r).watchers =
      b.watchers.map (Watcher.offer (b.state core c.retry id r)) := rfl

end Fields

variable {core : Core} {c : Choice} {b : Book}

/-- The lock section of `save`. -/
inductive Saving (core : Core) (c : Choice) (e : Edit) (b : Book) : Except Err Saved × Book → Prop
  | refused (err : Err) : Saving core c e b (.error err, b)
  | created (id : Bytes) (vault : Entries) (new : e.id = []) (link : e.link ≠ [])
      (only : ∀ id' r', b.records.lookup id' = some r' → r'.url = e.link → id' = e.id)
      (room : b.records.entries.length < maxSubscriptions) (drawn : c.newID = .ok id)
      (written : persist core.time c.persisted id (e.complete { url := e.link, created := c.now }) ∅
        [] b.vault = .ok vault) :
      Saving core c e b (.ok ⟨id, true⟩,
        b.stored core c id (e.complete { url := e.link, created := c.now }) true vault)
  | moved (old : Record) (vault : Entries) (found : b.records.lookup e.id = some old)
      (link : e.link ≠ [])
      (only : ∀ id' r', b.records.lookup id' = some r' → r'.url = e.link → id' = e.id)
      (written : persist core.time c.persisted e.id
        (e.complete { old with url := e.link, failures := 0, lastError := none }) ∅ [] b.vault =
          .ok vault) :
      Saving core c e b (.ok ⟨e.id, true⟩, b.stored core c e.id
        (e.complete { old with url := e.link, failures := 0, lastError := none }) true vault)
  | kept (old : Record) (vault : Entries) (found : b.records.lookup e.id = some old)
      (written : persist core.time c.persisted e.id (e.complete old) ∅ [] b.vault = .ok vault) :
      Saving core c e b (.ok ⟨e.id, false⟩, b.stored core c e.id (e.complete old) false vault)

theorem save_cases (core : Core) (c : Choice) (e : Edit) (b : Book) :
    Saving core c e b (b.save core c e) := by
  have store : ∀ id r fetchNow,
      (∀ vault, persist core.time c.persisted id (e.complete r) ∅ [] b.vault = .ok vault →
        Saving core c e b (.ok ⟨id, fetchNow⟩, b.stored core c id (e.complete r) fetchNow vault)) →
      Saving core c e b (b.store core c e id r fetchNow) := by
    intro id r fetchNow done
    unfold store
    split
    · exact .refused _
    · exact done _ ‹_›
  unfold save
  split
  · exact .refused _
  · rename_i free
    have only : e.link ≠ [] → ∀ id' r', b.records.lookup id' = some r' → r'.url = e.link →
        id' = e.id := by
      intro link id' r' found same
      by_contra other
      refine free ⟨link, List.any_eq_true.mpr ⟨⟨id', r'⟩, AList.mem_lookup_iff.mp found, ?_⟩⟩
      simp [same, other]
    split
    · rename_i new
      split
      · exact .refused _
      · rename_i link
        split
        · exact .refused _
        · rename_i full
          split
          · exact .refused _
          · rename_i id drawn
            exact store _ _ _ fun vault written =>
              .created id vault new link (only link) (Nat.lt_of_not_le full) drawn written
    · split
      · exact .refused _
      · rename_i old found
        split
        · rename_i change
          exact store _ _ _ fun vault written =>
            .moved old vault found change.1 (only change.1) written
        · exact store _ _ _ fun vault written => .kept old vault found written

/-- The lock section of `delete`. -/
inductive Deleting (c : Choice) (id : Bytes) (b : Book) : Option Err × Book → Prop
  | refused (err : Err) : Deleting c id b (some err, b)
  | erased (r : Record) (vault : Entries) (found : b.records.lookup id = some r)
      (written : applyChange c.persisted ∅ (references id r) b.vault = .ok vault) :
      Deleting c id b (none, b.erased id vault)

theorem delete_cases (c : Choice) (id : Bytes) (b : Book) : Deleting c id b (b.delete c id) := by
  unfold delete
  split
  · exact .refused _
  · rename_i r found
    split
    · exact .refused _
    · exact .erased r _ found ‹_›

/-- The first lock section of `refresh`. -/
inductive Starting (core : Core) (c : Choice) (id : Bytes) (b : Book) : Started × Book → Prop
  | missing (none : b.records.lookup id = none) :
      Starting core c id b (.refused ⟨.notFound, keySubscriptionNotFound⟩, b)
  | already (r : Record) (found : b.records.lookup id = some r) (busy : b.updating id = true) :
      Starting core c id b (.already, b)
  | unable (r : Record) (found : b.records.lookup id = some r) (none : core.fetcher = false) :
      Starting core c id b (.refused ⟨.unsupported, keySubscriptionFetch⟩, b)
  | started (r : Record) (found : b.records.lookup id = some r) (idle : b.updating id = false) :
      Starting core c id b (.fetch r.url r.userAgent,
        (b.mark id true).notify ((b.mark id true).state core c.retry id r))

theorem start_cases (core : Core) (c : Choice) (id : Bytes) (b : Book) :
    Starting core c id b (b.start core c id) := by
  unfold start
  split
  · exact .missing ‹_›
  · rename_i r found
    split
    · exact .already r found ‹_›
    · rename_i idle
      split
      · rename_i none
        exact .unable r found (by simpa using none)
      · exact .started r found (by simpa using idle)

/-- The second lock section of `refresh`. -/
inductive Finishing (core : Core) (c : Choice) (id link : Bytes) (fetched : Fetched) (b : Book) :
    Option Err × Book → Prop
  | gone (none : b.records.lookup id = none) :
      Finishing core c id link fetched b
        (some ⟨.notFound, keySubscriptionNotFound⟩, b.mark id false)
  | moved (r : Record) (found : b.records.lookup id = some r) (other : r.url ≠ link) :
      Finishing core c id link fetched b
        (some ⟨.notFound, keySubscriptionNotFound⟩, b.mark id false)
  | updated (r : Record) (info : Info) (servers : List Server) (vault : Entries)
      (found : b.records.lookup id = some r) (same : r.url = link)
      (answered : fetched = .answered info (.ok servers))
      (valid : (servers.map (·.spec)).all OutboundSpec.valid = true)
      (written : persist core.time c.applied id
        (updatedRecord id { r with lastAttempt := c.now } info servers
          (chunkCount (core.wire.marshal (servers.map (·.spec))).length))
        (updatePuts id servers (core.wire.marshal (servers.map (·.spec))))
        (updateDeletes id r servers (chunkCount (core.wire.marshal (servers.map (·.spec))).length))
        b.vault = .ok vault) :
      Finishing core c id link fetched b (none, announce core c id
        (updatedRecord id { r with lastAttempt := c.now } info servers
          (chunkCount (core.wire.marshal (servers.map (·.spec))).length))
        { b.mark id false with
          vault := vault
          lists := Function.update b.lists id (servers.map (·.spec)) })
  | failed (r : Record) (err : Err) (vault : Entries) (found : b.records.lookup id = some r)
      (same : r.url = link)
      (written : persist core.time c.persisted id
        (failedRecord c fetched err { r with lastAttempt := c.now }) ∅ [] b.vault = .ok vault)
      (cause : (b.mark id false).update core c id { r with lastAttempt := c.now } fetched =
        .error err) :
      Finishing core c id link fetched b (some err, announce core c id
        (failedRecord c fetched err { r with lastAttempt := c.now })
        { b.mark id false with vault := vault })
  | unrecorded (r : Record) (err : Err) (found : b.records.lookup id = some r)
      (same : r.url = link) :
      Finishing core c id link fetched b
        (some err, { b.mark id false with unrecorded := b.unrecorded + 1 })

theorem finish_cases (core : Core) (c : Choice) (id link : Bytes) (fetched : Fetched) (b : Book) :
    Finishing core c id link fetched b (b.finish core c id link fetched) := by
  unfold finish
  dsimp only
  split
  · exact .gone ‹_›
  · rename_i r found
    split
    · exact .moved r found ‹_›
    · rename_i same
      have same : r.url = link := not_not.mp same
      split
      · rename_i next b' done
        cases fetched with
        | failed e => cases done
        | answered info parsed =>
          cases parsed with
          | error e => cases done
          | ok servers =>
            simp only [update, applyUpdate] at done
            split at done
            · cases done
            · rename_i valid
              split at done
              · cases done
              · rename_i vault written
                cases done
                exact .updated r info servers vault found same rfl (by simpa using valid) written
      · rename_i err cause
        split
        · exact .unrecorded r _ found same
        · exact .failed r err _ found same ‹_› cause

end Book

/-- What an operation does to the book.  Only the first four are lock sections of its records. -/
inductive Performed (core : Core) (c : Choice) (b : Book) : {β : Type} → Op β → β → Book → Prop
  | save (e : Edit) : Performed core c b (.save e) (b.save core c e).1 (b.save core c e).2
  | delete (id : Bytes) : Performed core c b (.delete id) (b.delete c id).1 (b.delete c id).2
  | start (id : Bytes) :
      Performed core c b (.start id) (b.start core c id).1 (b.start core c id).2
  | finish (id link : Bytes) (fetched : Fetched) : Performed core c b (.finish id link fetched)
      (b.finish core c id link fetched).1 (b.finish core c id link fetched).2
  | fetch (ctx : Context) (id link agent : Bytes) (answer : Fetched) (log : List Event) :
      Performed core c b (.fetch ctx id link agent) answer { b with log := log }
  | due (ids : List Bytes) : Performed core c b .due ids b
  | acquire (answer : Bool) (slots : Nat) :
      Performed core c b .acquire answer { b with slots := slots }
  | launch (id : Bytes) :
      Performed core c b (.launch id) () { b with started := b.started ++ [⟨id, true⟩] }
  | take (l : Launch) (n : Nat) (there : b.started[n]? = some l) :
      Performed core c b .take l { b with started := b.started.eraseIdx n }
  | release : Performed core c b .release () { b with slots := b.slots - 1 }
  | watch : Performed core c b .watch b.watchers.length { b with watchers := b.watchers ++ [{}] }
  | list (w : Nat) : Performed core c b (.list w) (b.list core c.retry) (b.changeWatcher w fun w =>
      { w with listed := true, handed := w.handed ++ b.list core c.retry })
  | ended (w : Nat) : Performed core c b (.receive w) none b
  | receive (w : Nat) (s : SubscriptionState) (rest : List SubscriptionState)
      (queue : (b.watchers[w]?).map (·.queue) = some (s :: rest)) :
      Performed core c b (.receive w) (some s) (b.changeWatcher w fun w =>
        { w with queue := rest, handed := w.handed ++ [s] })
  | unsent (w : Nat) (s : SubscriptionState) : Performed core c b (.send w s) false b
  | send (w : Nat) (s : SubscriptionState) : Performed core c b (.send w s) true
      (b.changeWatcher w fun w => { w with sent := w.sent ++ [s] })
  | stop (w : Nat) : Performed core c b (.stop w) ()
      (b.changeWatcher w fun w => { w with registered := false })

theorem performed {core : Core} {c : Choice} {b b' : Book} {β : Type} {op : Op β} {answer : β}
    (step : perform core c op b = some (answer, b')) : Performed core c b op answer b' := by
  cases op with
  | due =>
    simp only [perform, Option.ite_none_right_eq_some] at step
    obtain ⟨-, rfl, rfl⟩ := step
    constructor
  | fetch | send =>
    simp only [perform] at step
    split at step <;> (cases step; constructor)
  | acquire =>
    simp only [perform] at step
    split at step
    · cases step
      exact .acquire false b.slots
    · split at step <;> cases step
      constructor
  | receive =>
    simp only [perform] at step
    split at step
    · cases step
      constructor
    · split at step <;> cases step
      exact .receive _ _ _ ‹_›
  | take =>
    simp only [perform] at step
    split at step <;> cases step
    exact .take _ _ ‹_›
  | _ =>
    obtain ⟨rfl, rfl⟩ := pair_of_some step
    constructor

end Sora.Control
