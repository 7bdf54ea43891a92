import Sora.Control.Sections

/-!
# Changed links are requested

A save that stores a new link starts a goroutine that refreshes the subscription.  The
goroutine does nothing if an update is running, and the running update throws its result away
if the link has changed under it: a link that is stored while an update runs may never be
requested.  If no link is stored while an update of its subscription runs, the stored link has
been requested once every goroutine has finished.
-/

namespace Sora.Control

open Sora.Lib Sora.Session List Book AList

/-! ## The log -/

/-- How an event changes the last stored link of a subscription and whether it has been
requested since. -/
def Event.mark (id : Bytes) (last : Option (Bytes × Bool)) : Event → Option (Bytes × Bool)
  | .stored id' link => if id' = id then some (link, false) else last
  | .requested id' link => last.map fun (l, asked) => (l, asked || (id' == id && link == l))

def standing (id : Bytes) (log : List Event) : Option (Bytes × Bool) :=
  log.foldl (Event.mark id) none

@[simp] theorem standing_snoc (id : Bytes) (log : List Event) (ev : Event) :
    standing id (log ++ [ev]) = ev.mark id (standing id log) := by
  simp [standing]

variable {id link : Bytes} {core : Core} {b b' : Book} {i : Nat}
    {records : AList fun _ : Bytes => Record} {pool : Pool Op Book}

theorem foldl_mark {after : List Event} {asked : Bool} (last : ∀ l, Event.stored id l ∉ after) :
    after.foldl (Event.mark id) (some (link, asked)) =
      some (link, asked || decide (Event.requested id link ∈ after)) := by
  induction after generalizing asked with
  | nil => simp
  | cons ev after ih =>
    have later : ∀ l, Event.stored id l ∉ after := fun l member =>
      last l (mem_cons_of_mem _ member)
    cases ev with
    | stored id' l =>
      have other : id' ≠ id := by
        rintro rfl
        exact last l mem_cons_self
      simp [Event.mark, other, ih later]
    | requested id' l =>
      by_cases same : id' = id ∧ l = link
      · obtain ⟨rfl, rfl⟩ := same
        simp [Event.mark, ih later]
      · have other : Event.requested id link ≠ .requested id' l := by
          rintro ⟨⟩
          exact same ⟨rfl, rfl⟩
        have unmarked : (id' == id && l == link) = false := by simpa using same
        simp [Event.mark, ih later, unmarked, other]

/-- What the log says about a subscription after the save that stored its link last. -/
theorem standing_of_last {before after : List Event} (last : ∀ l, Event.stored id l ∉ after) :
    standing id (before ++ .stored id link :: after) =
      some (link, decide (Event.requested id link ∈ after)) := by
  simp [standing, Event.mark, foldl_mark last]

/-! ## The phases of a thread -/

inductive Phase where
  | idle
  /-- A started goroutine that has still to begin its update. -/
  | about (id : Bytes)
  | running (id link : Bytes)
  | fetched (id link : Bytes)

@[simp] def Phase.allows {β : Type} : Phase → Op β → Prop
  | .idle, .fetch .. => False
  | .idle, .finish .. => False
  | .idle, _ => True
  | .about id, .start id' => id' = id
  | .running id link, .fetch _ id' link' _ => id' = id ∧ link' = link
  | .fetched id link, .finish id' link' _ => id' = id ∧ link' = link
  | _, _ => False

@[simp] def Phase.after {β : Type} (s : Phase) (op : Op β) (answer : β) : Phase :=
  match op, answer with
  | .start id, .fetch link _ => .running id link
  | .fetch _ id link _, _ => .fetched id link
  | .take, l => .about l.id
  | .launch _, _ => s
  | _, _ => .idle

@[simps] def updates : Discipline Op Phase where
  allowed := Phase.allows
  answers _ _ _ := True
  next := Phase.after

def Op.ofUpdate {β : Type} : Op β → Bool
  | .start _ | .fetch .. | .finish .. => true
  | _ => false

variable {β : Type}

/-- All other operations are those of an idle thread. -/
theorem Phase.allows.idle {op : Op β} {s : Phase} (ok : s.allows op) (plain : op.ofUpdate = false) :
    s = .idle := by
  cases s with
  | idle => rfl
  | about id | running id link | fetched id link =>
    cases op <;> first | exact ok.elim | cases plain

variable {Q : Bool → Phase → Prop} {s : Phase} {phases : List Phase}

theorem launchAll_updates (ids : List Bytes) (post : ∀ b, Q b .idle) :
    (launchAll ids).wp updates.transformer Q .idle := by
  induction ids with
  | nil => exact post true
  | cons id rest ih => simp [launchAll, ih, post]

theorem run_updates (rounds : Nat) : updates.Follows (· = .idle) .idle (run rounds) := by
  unfold Discipline.Follows
  induction rounds with
  | zero => rfl
  | succ n ih => simp [run, launchAll_updates, ih]

theorem refresh_updates (ctx : Context) (id : Bytes) (may : s = .idle ∨ s = .about id)
    {Q : Option Err → Phase → Prop} (post : ∀ e, Q e .idle) :
    (refresh ctx id).wp updates.transformer Q s := by
  have allowed : s.allows (.start id) := by rcases may with rfl | rfl <;> simp
  simp only [refresh, Prog.wp_bind, Prog.wp_op, Discipline.transformer_call, updates_allowed, allowed,
    true_and]
  intro answer _
  cases answer <;> simp [post]

theorem sendAll_updates (w : Nat) (states : List SubscriptionState) (post : ∀ b, Q b .idle) :
    (sendAll w states).wp updates.transformer Q .idle := by
  induction states with
  | nil => exact post true
  | cons s rest ih => simp [sendAll, ih, post]

theorem forward_updates (w n : Nat) {Q : Unit → Phase → Prop} (post : Q () .idle) :
    (forward w n).wp updates.transformer Q .idle := by
  induction n with
  | zero => exact post
  | succ n ih => simp [forward, Option.forall, ih, post]

theorem program_updates (core : Core) (call : Call) :
    updates.Follows (· = .idle) .idle (call.program core) := by
  cases call with
  | save s =>
    simp only [Call.program, Discipline.Follows, save]
    cases checkSettings core s with
    | error err => rfl
    | ok e => simp [forall_except]
  | delete id => simp [Call.program, Discipline.Follows]
  | refresh id => simp [Call.program, Discipline.Follows, refresh_updates]
  | run rounds => exact run_updates rounds
  | goroutine =>
    simp only [Call.program, Discipline.Follows, goroutine]
    simp [refresh_updates]
  | watch changes =>
    simp only [Call.program, Discipline.Follows, watchSubscriptions]
    simp [sendAll_updates, forward_updates]

/-! ## The invariant -/

/-- The runs in which no link is stored while an update of its subscription runs, and no
update ends before its request is sent. -/
def undisturbed : Admission Op Book := fun _ op b answer b' =>
  match op, answer with
  | .save _, .ok saved => !(saved.fetchNow && b.updating saved.id)
  | .fetch _ id link _, _ => b'.log = b.log ++ [.requested id link]
  | _, _ => true

/-- Somebody is going to request the link. -/
structure Pending (b : Book) (phases : List Phase) (id link : Bytes) : Prop where
  owner : (∃ l ∈ b.started, l.id = id) ∨ .about id ∈ phases ∨ .running id link ∈ phases
  /-- Who finds an update running finds one of the stored link. -/
  busy : b.updating id = true → .running id link ∈ phases

/-- A stored link is that of its record, and is requested or going to be requested. -/
def Remembered (b : Book) (phases : List Phase) : Prop :=
  ∀ id link asked r, standing id b.log = some (link, asked) → b.records.lookup id = some r →
    r.url = link ∧ (asked = false → Pending b phases id link)

theorem Pending.kept {s' : Phase} (pending : Pending b phases id link)
    (thread : phases[i]? = some s) (about : s ≠ .about id) (running : s ≠ .running id link)
    (started : ∀ l ∈ b.started, l ∈ b'.started)
    (updating : b'.updating id = true → b.updating id = true) :
    Pending b' (phases.set i s') id link where
  owner := by
    rcases pending.owner with ⟨l, member, same⟩ | waiting | sending
    · exact .inl ⟨l, started l member, same⟩
    · exact .inr (.inl (mem_set_of_ne thread waiting about.symm))
    · exact .inr (.inr (mem_set_of_ne thread sending running.symm))
  busy now := mem_set_of_ne thread (pending.busy (updating now)) running.symm

/-- A step that stores no link and requests none. -/
theorem Remembered.frame {phases' : List Phase} (inv : Remembered b phases) (log : b'.log = b.log)
    (records : ∀ id r', b'.records.lookup id = some r' → ∃ r, b.records.lookup id = some r ∧ r'.url
    = r.url) (pending : ∀ id link r, b.records.lookup id = some r → r.url = link → Pending b phases
    id link → Pending b' phases' id link) : Remembered b' phases' := by
  intro id link asked r' stands found'
  obtain ⟨r, found, same⟩ := records id r' found'
  rw [log] at stands
  obtain ⟨url, owed⟩ := inv id link asked r stands found
  exact ⟨same.trans url, fun unasked => pending id link r found url (owed unasked)⟩

/-! ## Steps -/

theorem url_kept (id : Bytes) (r : Record) (found : records.lookup id = some r) :
    ∃ r₀, records.lookup id = some r₀ ∧ r.url = r₀.url :=
  ⟨r, found, rfl⟩

/-- A step of a thread that runs no update, which stores no link. -/
theorem Remembered.idle (inv : Remembered b phases) (thread : phases[i]? = some .idle)
    (s' : Phase) (log : b'.log = b.log)
    (records : ∀ id r', b'.records.lookup id = some r' →
      ∃ r, b.records.lookup id = some r ∧ r'.url = r.url)
    (started : ∀ l ∈ b.started, l ∈ b'.started) (updating : b'.updating = b.updating) :
    Remembered b' (phases.set i s') :=
  inv.frame log records fun _ _ _ _ _ pending =>
    pending.kept thread nofun nofun started (updating ▸ fun now => now)

theorem Remembered.same (inv : Remembered b phases) (thread : phases[i]? = some .idle) :
    Remembered b (phases.set i .idle) :=
  inv.idle thread .idle rfl url_kept (fun _ member => member) rfl

/-- A record is replaced by one with the same link. -/
theorem url_of_insert {old new : Record} (found : records.lookup id = some old)
    (same : new.url = old.url) (id' : Bytes) (r' : Record)
    (found' : (records.insert id new).lookup id' = some r') :
    ∃ r, records.lookup id' = some r ∧ r'.url = r.url := by
  by_cases here : id' = id
  · subst here
    rw [lookup_insert] at found'
    obtain rfl := Option.some.inj found'
    exact ⟨old, found, same⟩
  · rw [lookup_insert_ne here] at found'
    exact ⟨r', found', rfl⟩

namespace Remembered

variable (inv : Remembered b phases)

include inv

section

variable (thread : phases[i]? = some .idle)

include thread

/-- A `save` that keeps the link. -/
theorem stored_kept (c : Choice) {old r : Record} (vault : Entries) (found : b.records.lookup id = some old)
    (same : r.url = old.url) : Remembered (b.stored core c id r false vault) (phases.set i .idle) :=
  inv.idle thread .idle rfl (url_of_insert found same) (fun _ member => member) rfl

/-- A `save` that stores a new link while no update runs. -/
theorem stored_new (c : Choice) (id : Bytes) (r : Record) (vault : Entries) (calm : b.updating id = false) :
    Remembered (b.stored core c id r true vault) (phases.set i .idle) := by
  intro id' link asked r' stands found
  by_cases here : id' = id
  · subst here
    obtain ⟨rfl, rfl⟩ : r.url = link ∧ false = asked := by
      simpa [stored, Event.mark] using stands
    obtain rfl : r = r' := by simpa [stored] using found
    refine ⟨rfl, fun _ => ⟨.inl ⟨⟨id', false⟩, by simp [stored], rfl⟩, fun now => ?_⟩⟩
    exact absurd (now.symm.trans calm) nofun
  · have stands : standing id' b.log = some (link, asked) := by
      simpa [stored, Event.mark, Ne.symm here] using stands
    have found : b.records.lookup id' = some r' := by
      simpa [stored, lookup_insert_ne here] using found
    obtain ⟨url, owed⟩ := inv id' link asked r' stands found
    refine ⟨url, fun unasked => (owed unasked).kept thread nofun nofun (fun l member => ?_)
      fun now => now⟩
    simp [stored, member]

theorem save (c : Choice) (e : Edit)
    (calm : ∀ saved, (b.save core c e).1 = .ok saved → saved.fetchNow = true →
      b.updating saved.id = false) :
    Remembered (b.save core c e).2 (phases.set i .idle) := by
  have how := save_cases core c e b
  revert calm
  generalize b.save core c e = result at how
  cases how with
  | refused err => exact fun _ => inv.same thread
  | created id vault =>
    exact fun calm => inv.stored_new thread c id _ vault (calm ⟨id, true⟩ rfl rfl)
  | moved old vault =>
    exact fun calm => inv.stored_new thread c e.id _ vault (calm ⟨e.id, true⟩ rfl rfl)
  | kept old vault found => exact fun _ => inv.stored_kept thread c vault found rfl

theorem delete (c : Choice) (id : Bytes) :
    Remembered (b.delete c id).2 (phases.set i .idle) := by
  have how := delete_cases c id b
  generalize b.delete c id = result at how
  cases how with
  | refused err => exact inv.same thread
  | erased r vault =>
    refine inv.idle thread .idle rfl (fun id' r found => ⟨r, ?_, rfl⟩) (fun _ member => member) rfl
    change (b.records.erase id).lookup id' = some r at found
    by_cases here : id' = id
    · subst here
      rw [lookup_erase] at found
      cases found
    · rwa [lookup_erase_ne here] at found

end

/-- The first lock section of an update, of a call or of a goroutine. -/
theorem start (c : Choice) (fetcher : core.fetcher = true) (thread : phases[i]? = some s)
    (may : s = .idle ∨ s = .about id) :
    Remembered (b.start core c id).2
      (phases.set i (s.after (.start id) (b.start core c id).1)) := by
  have about : ∀ {id'}, id' ≠ id → s ≠ .about id' := by
    intro id' other
    rcases may with rfl | rfl
    · nofun
    · exact fun same => other (Phase.about.inj same).symm
  have running : ∀ {id' link}, s ≠ .running id' link := by
    rcases may with rfl | rfl <;> nofun
  have how := start_cases core c id b
  generalize b.start core c id = result at how
  cases how with
  | missing none =>
    refine inv.frame rfl url_kept fun id' link r found' _ pending => ?_
    refine pending.kept thread (about ?_) running (fun _ member => member) fun now => now
    rintro rfl
    cases none.symm.trans found'
  | unable r found none => cases fetcher.symm.trans none
  | already r found busy =>
    -- whoever is updating is going to request the stored link
    refine inv.frame rfl url_kept fun id' link r' _ _ pending => ?_
    by_cases here : id' = id
    · subst here
      have sending : .running id' link ∈ phases.set i .idle :=
        mem_set_of_ne thread (pending.busy busy) running.symm
      exact ⟨.inr (.inr sending), fun _ => sending⟩
    · exact pending.kept thread (about here) running (fun _ member => member) fun now => now
  | started r found idle =>
    refine inv.frame rfl url_kept fun id' link r' found' url pending => ?_
    by_cases here : id' = id
    · subst here
      obtain rfl := Option.some.inj (found.symm.trans found')
      obtain ⟨bound, -⟩ := List.getElem?_eq_some_iff.mp thread
      have sending : .running id' link ∈ phases.set i (.running id' r.url) :=
        url ▸ mem_set bound _
      exact ⟨.inr (.inr sending), fun _ => sending⟩
    · refine pending.kept thread (about here) running (fun _ member => member) fun now => ?_
      exact (Function.update_of_ne here _ _).symm.trans now

/-- The request of an update: the link is requested, and no other link loses its update. -/
theorem fetch (thread : phases[i]? = some (.running id link))
    (log : b'.log = b.log ++ [.requested id link]) (records : b'.records = b.records)
    (started : b'.started = b.started) (updating : b'.updating = b.updating) :
    Remembered b' (phases.set i (.fetched id link)) := by
  intro id' link' asked r stands found
  rw [log, standing_snoc] at stands
  obtain ⟨⟨l, before⟩, stood, marked⟩ := Option.map_eq_some_iff.mp stands
  obtain ⟨rfl, rfl⟩ := Prod.mk.inj marked
  obtain ⟨url, owed⟩ := inv id' l before r stood (records ▸ found)
  refine ⟨url, fun unasked => ?_⟩
  obtain ⟨unasked, other⟩ := Bool.or_eq_false_iff.mp unasked
  refine (owed unasked).kept thread nofun ?_ (fun _ member => started ▸ member)
    (updating ▸ fun now => now)
  rintro ⟨⟩
  simp at other

theorem finish {fetched : Fetched} (thread : phases[i]? = some (.fetched id link)) (c : Choice) :
    Remembered (b.finish core c id link fetched).2 (phases.set i .idle) := by
  have ended : ∀ {b' : Book}, b'.log = b.log → b'.started = b.started →
      b'.updating = Function.update b.updating id false →
      (∀ id' r', b'.records.lookup id' = some r' →
        ∃ r, b.records.lookup id' = some r ∧ r'.url = r.url) →
      Remembered b' (phases.set i .idle) := by
    intro b' log started updating records
    refine inv.frame log records fun id' link' r _ _ pending => ?_
    refine pending.kept thread nofun nofun (fun _ member => started ▸ member) fun now => ?_
    by_cases here : id' = id
    · simp [updating, here] at now
    · rwa [updating, Function.update_of_ne here] at now
  have how := finish_cases core c id link fetched b
  generalize b.finish core c id link fetched = result at how
  cases how with
  | gone none | moved r found other | unrecorded r err found same => exact ended rfl rfl rfl url_kept
  | updated r info servers vault found | failed r err vault found =>
    exact ended rfl rfl rfl (url_of_insert found rfl)

theorem take (thread : phases[i]? = some .idle)
    {n : Nat} {l : Launch} (there : b.started[n]? = some l) :
    Remembered { b with started := b.started.eraseIdx n } (phases.set i (.about l.id)) := by
  refine inv.frame rfl url_kept fun id link r _ _ pending => ?_
  have sending : .running id link ∈ phases → .running id link ∈ phases.set i (.about l.id) :=
    fun member => mem_set_of_ne thread member nofun
  refine ⟨?_, fun now => sending (pending.busy now)⟩
  obtain ⟨bound, -⟩ := List.getElem?_eq_some_iff.mp thread
  rcases pending.owner with ⟨l', member, same⟩ | waiting | running
  · by_cases here : l.id = id
    · exact .inr (.inl (here ▸ mem_set bound _))
    · obtain ⟨m, there'⟩ := mem_iff_getElem?.mp member
      refine .inl ⟨l', mem_eraseIdx_iff_getElem?.mpr ⟨m, ?_, there'⟩, same⟩
      rintro rfl
      obtain rfl := Option.some.inj (there.symm.trans there')
      exact here same
  · exact .inr (.inl (mem_set_of_ne thread waiting nofun))
  · exact .inr (.inr (sending running))

end Remembered

theorem Remembered.step (fetcher : core.fetcher = true) (inv : Remembered b phases) {op : Op β}
    {answer : β} {c : Choice} (thread : phases[i]? = some s) (ok : s.allows op)
    (step : perform core c op b = some (answer, b'))
    (admitted : undisturbed β op b answer b' = true) :
    Remembered b' (phases.set i (s.after op answer)) := by
  have idle (plain : op.ofUpdate = false) : phases[i]? = some .idle := ok.idle plain ▸ thread
  cases performed step with
  | save e =>
    refine inv.save (idle rfl) c e fun saved stored fetchNow => ?_
    rw [stored] at admitted
    simpa [undisturbed, fetchNow] using admitted
  | delete id => exact inv.delete (idle rfl) c id
  | start id =>
    refine inv.start c fetcher thread ?_
    cases s <;> simp_all
  | fetch ctx id link agent answer log =>
    obtain rfl : s = .running id link := by cases s <;> simp_all
    exact inv.fetch thread (by simpa [undisturbed] using admitted) rfl rfl rfl
  | finish id link fetched =>
    obtain rfl : s = .fetched id link := by cases s <;> simp_all
    exact inv.finish thread c
  | launch id =>
    obtain rfl := ok.idle rfl
    exact inv.idle thread .idle rfl url_kept (fun l member => by simp [member]) rfl
  | take l n there => exact inv.take (idle rfl) there
  | _ => exact inv.idle (idle rfl) .idle rfl url_kept (fun _ member => member) rfl

/-! ## Runs -/

/-- Every thread has ended and no started goroutine is left. -/
def Finished (pool : Pool Op Book) : Prop :=
  pool.world.started = [] ∧ ∀ p ∈ pool.threads, p.ended = true

theorem remembered_of_reach (fetcher : core.fetcher = true)
    (reach : Pool.Reach (machine core) (Call.program core) undisturbed ⟨.loaded records, []⟩ pool) :
    ∃ phases, Remembered pool.world phases ∧
      List.Forall₂ (updates.Follows (· = .idle)) phases pool.threads := by
  refine Pool.invariant updates (· = .idle) .idle Remembered (program_updates core) ?_ ?_ ?_ .nil
    reach
  · intro b phases inv
    refine inv.frame rfl url_kept fun id link r _ _ pending => ?_
    refine ⟨pending.owner.imp_right ?_, fun now => mem_append_left _ (pending.busy now)⟩
    exact Or.imp (mem_append_left _) (mem_append_left _)
  · intro β op b b' phases i s c answer inv thread ok step admitted
    exact ⟨trivial, inv.step fetcher thread ok step admitted⟩
  · intro id link asked r stands
    cases stands

/-- Once every goroutine has finished, the link of a subscription is the one that the last save
with a new link stored, and it has been requested since. -/
theorem stored_link_requested (fetcher : core.fetcher = true)
    (records : AList fun _ : Bytes => Record) (pool : Pool Op Book)
    (reach : Pool.Reach (machine core) (Call.program core) undisturbed ⟨.loaded records, []⟩ pool)
    (finished : Finished pool) (id : Bytes) (r : Record)
    (found : pool.world.records.lookup id = some r) (link : Bytes) (before after : List Event)
    (stored : pool.world.log = before ++ .stored id link :: after)
    (last : ∀ l, Event.stored id l ∉ after) :
    r.url = link ∧ .requested id link ∈ after := by
  obtain ⟨phases, inv, follow⟩ := remembered_of_reach fetcher reach
  have stands : standing id (before ++ .stored id link :: after) = _ := standing_of_last last
  rw [← stored] at stands
  obtain ⟨url, owed⟩ := inv id link _ r stands found
  refine ⟨url, by_contra fun unasked => ?_⟩
  have ended : ∀ s ∈ phases, s = .idle := by
    intro s member
    obtain ⟨p, there, follows⟩ := exists_of_forall₂ follow member
    exact follows.final (finished.2 p there)
  rcases (owed (by simpa using unasked)).owner with ⟨l, member, -⟩ | waiting | running
  · rw [finished.1] at member
    cases member
  · cases ended _ waiting
  · cases ended _ running

/-! ## Two overlaps -/

/-- A core that can store and fetch subscriptions. -/
def fetchingCore : Core where
  secrets := true
  fetcher := true
  normalizedLink := .ok

def oldLink : Bytes := ascii "https://panel.example/old"

def newLink : Bytes := ascii "https://panel.example/new"

def someID : Bytes := ascii "0123456789abcdef"

/-- The subscription is created with the old link and its first update asks for it. -/
def firstRequest : List (Move Call Choice) :=
  [.spawn (.save { url := oldLink }), .step 0 { newID := .ok someID },
    .spawn .goroutine, .step 1 {}, .step 1 {}, .step 1 {}]

/-- The link changes before the answer comes; in the end the scheduler looks for due updates. -/
def changedWhileUpdating : List (Move Call Choice) :=
  firstRequest ++
    [.spawn (.save { id := someID, url := newLink }), .step 2 {},
      .spawn .goroutine, .step 3 {}, .step 3 {},
      .step 1 {}, .spawn (.run 1), .step 4 {}]

def changedAfterwards : List (Move Call Choice) :=
  firstRequest ++
    [.step 1 {}, .spawn (.save { id := someID, url := newLink }), .step 2 {},
      .spawn .goroutine, .step 3 {}, .step 3 {}, .step 3 {}, .step 3 {}]

/-- What the theorem is about: whether everything has ended, the stored link and the log. -/
def outcome (pool : Pool Op Book) : Bool × Option Bytes × List Event :=
  (pool.threads.all (·.ended) && pool.world.started.isEmpty,
    (pool.world.records.lookup someID).map (·.url), pool.world.log)

theorem finished_of_outcome {log : List Event} (same : outcome pool = (true, some link, log)) :
    Finished pool ∧ (∃ r, pool.world.records.lookup someID = some r ∧ r.url = link) ∧
      pool.world.log = log := by
  obtain ⟨ended, found, logged⟩ : _ ∧ _ ∧ _ := by
    simpa only [outcome, Prod.mk.injEq, Bool.and_eq_true] using same
  refine ⟨⟨isEmpty_iff.mp ended.2, fun p member => all_eq_true.mp ended.1 p member⟩, ?_,
    logged⟩
  exact Option.map_eq_some_iff.mp found

theorem changed_link_forgotten :
    ∃ pool, Pool.Reach (machine fetchingCore) (Call.program fetchingCore) everything
        ⟨.loaded ∅, []⟩ pool ∧
      Finished pool ∧ (∃ r, pool.world.records.lookup someID = some r ∧ r.url = newLink) ∧
      (∃ before, pool.world.log = before ++ [.stored someID newLink]) ∧
      .requested someID newLink ∉ pool.world.log := by
  obtain ⟨pool, ran, same⟩ := Option.map_eq_some_iff.mp
    (show (Pool.exec (machine fetchingCore) (Call.program fetchingCore) everything
        ⟨.loaded ∅, []⟩ changedWhileUpdating).map outcome =
      some (true, some newLink, [.stored someID oldLink, .requested someID oldLink,
        .stored someID newLink]) by decide +kernel)
  obtain ⟨finished, found, log⟩ := finished_of_outcome same
  refine ⟨pool, Pool.reach_of_exec .refl ran, finished, found,
    ⟨[.stored someID oldLink, .requested someID oldLink], log⟩, ?_⟩
  rw [log]
  decide

theorem changed_link_requested :
    ∃ pool, Pool.exec (machine fetchingCore) (Call.program fetchingCore) undisturbed
        ⟨.loaded ∅, []⟩ changedAfterwards = some pool ∧
      ∃ r, pool.world.records.lookup someID = some r ∧ r.url = newLink ∧
        .requested someID newLink ∈ pool.world.log := by
  obtain ⟨pool, ran, same⟩ := Option.map_eq_some_iff.mp
    (show (Pool.exec (machine fetchingCore) (Call.program fetchingCore) undisturbed
        ⟨.loaded ∅, []⟩ changedAfterwards).map outcome =
      some (true, some newLink, [.stored someID oldLink, .requested someID oldLink,
        .stored someID newLink, .requested someID newLink]) by decide +kernel)
  obtain ⟨finished, ⟨r, found, -⟩, log⟩ := finished_of_outcome same
  obtain ⟨url, requested⟩ := stored_link_requested rfl ∅ pool (Pool.reach_of_exec .refl ran) finished
    someID r found newLink [.stored someID oldLink, .requested someID oldLink]
    [.requested someID newLink] log (by simp)
  refine ⟨pool, ran, r, found, url, ?_⟩
  rw [log]
  exact mem_append_right [_, _, _] requested

end Sora.Control
