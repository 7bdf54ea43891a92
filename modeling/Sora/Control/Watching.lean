import Sora.Control.Links

/-!
# What watchers are shown

A watcher is sent the list of subscriptions and then every notice.  The lock sections of `save`,
`delete` and `refresh` announce what they change, with two exceptions at the end of an update: the
update of a link that was replaced meanwhile, and a failed update whose failure could not be
written.  In a run without these ends, and with retry delays that do not change from one reading
to the next, the last state that a watcher was sent for a subscription is the one in the list.
-/

namespace Sora.Control

open Sora.Lib Sora.Session List Function Book AList
open Option hiding map_eq_map mem_map

/-! ## The latest state -/

/-- The last state of a subscription among those sent. -/
def latest (id : Bytes) (states : List SubscriptionState) : Option SubscriptionState :=
  (states.filter fun s => s.id == id).getLast?

theorem latest_append (id : Bytes) (before after : List SubscriptionState) :
    latest id (before ++ after) = (latest id after).or (latest id before) := by
  rw [latest, filter_append, getLast?_append]
  rfl

theorem latest_singleton (id : Bytes) (s : SubscriptionState) :
    latest id [s] = if s.id = id then some s else none := by
  by_cases here : s.id = id <;> simp [latest]

variable {s : SubscriptionState} {states : List SubscriptionState} {id link : Bytes} {core : Core}
    {retry : Bytes → Int → Nat → Int} {b b' : Book} {r : Record} {phases : List Phase} {i : Nat}
    {c : Choice} {fetched : Fetched} {pool : Pool Op Book}

theorem mem_of_latest (last : latest id states = some s) : s ∈ states ∧ s.id = id := by
  have member := mem_of_getLast? last
  rw [mem_filter, beq_iff_eq] at member
  exact member

theorem latest_of_mem (member : s ∈ states) (here : s.id = id) :
    (latest id states).isSome = true := by
  rw [latest, getLast?_isSome]
  exact ne_nil_of_mem (mem_filter.mpr ⟨member, by simpa using here⟩)

/-! ## The list -/

/-- What is to be shown of a subscription: its state, or that it was deleted. -/
def Book.shown (core : Core) (retry : Bytes → Int → Nat → Int) (b : Book) (id : Bytes) :
    SubscriptionState :=
  match b.records.lookup id with
  | some r => b.state core retry id r
  | none => deletedNotice id

theorem Book.shown_id (id : Bytes) : (b.shown core retry id).id = id := by
  unfold shown
  split <;> rfl

theorem Book.shown_of_lookup (found : b.records.lookup id = some r) :
    b.shown core retry id = b.state core retry id r := by
  rw [shown, found]

theorem Book.shown_of_missing (none : b.records.lookup id = none) :
    b.shown core retry id = deletedNotice id := by
  rw [shown, none]

theorem Book.shown_congr (records : b'.records.lookup id = b.records.lookup id)
    (lists : b'.lists id = b.lists id) (updating : b'.updating id = b.updating id) :
    b'.shown core retry id = b.shown core retry id := by
  cases found : b.records.lookup id with
  | none => rw [shown_of_missing found, shown_of_missing (records.trans found)]
  | some r =>
    rw [shown_of_lookup found, shown_of_lookup (records.trans found)]
    simp only [state, lists, updating]

theorem Book.mem_list :
    s ∈ b.list core retry ↔ ∃ r, b.records.lookup s.id = some r ∧ s = b.state core retry s.id r := by
  simp only [list, mem_map, mem_insertionSort]
  constructor
  · rintro ⟨⟨id, r⟩, member, rfl⟩
    exact ⟨r, mem_lookup_iff.mpr member, rfl⟩
  · rintro ⟨r, found, same⟩
    exact ⟨⟨s.id, r⟩, mem_lookup_iff.mp found, same.symm⟩

/-! ## Informed watchers -/

/-- Whatever the watcher was handed or is going to be handed last is what is to be shown, and
after the list there is something for every subscription. -/
structure Informed (core : Core) (retry : Bytes → Int → Nat → Int) (b : Book) (w : Watcher) :
    Prop where
  current : ∀ id s, latest id (w.handed ++ w.queue) = some s → s = b.shown core retry id
  complete : w.listed = true → ∀ id, (b.records.lookup id).isSome = true →
    (latest id (w.handed ++ w.queue)).isSome = true

theorem Informed.frame {w : Watcher} (before : Informed core retry b w)
    (shown : ∀ id, b'.shown core retry id = b.shown core retry id)
    (records : b'.records = b.records) : Informed core retry b' w := by
  refine ⟨fun id s sent => (before.current id s sent).trans (shown id).symm, ?_⟩
  rw [records]
  exact before.complete

/-- Every watcher that still watches and has missed nothing is informed. -/
def AllInformed (core : Core) (retry : Bytes → Int → Nat → Int) (b : Book) : Prop :=
  ∀ w ∈ b.watchers, w.registered = true → w.dropped = false → Informed core retry b w

theorem Watcher.offer_cases (s : SubscriptionState) (w : Watcher)
    (registered : (w.offer s).registered = true) (kept : (w.offer s).dropped = false) :
    w.registered = true ∧ w.dropped = false ∧ w.offer s = { w with queue := w.queue ++ [s] } := by
  unfold Watcher.offer at *
  cases here : w.registered with
  | false => simp [here] at registered
  | true =>
    simp only [here, Bool.not_true, Bool.false_eq_true, if_false] at kept ⊢
    split at kept
    · rename_i room
      simp only [room, if_true, and_true, true_and]
      exact kept
    · cases kept

section

variable (inv : AllInformed core retry b)

include inv

/-- A step that changes what is to be shown of one subscription and announces it. -/
theorem AllInformed.announced (id : Bytes)
    (watchers : b'.watchers = b.watchers.map (Watcher.offer (b'.shown core retry id)))
    (others : ∀ id', id' ≠ id → b'.shown core retry id' = b.shown core retry id')
    (records : ∀ id', id' ≠ id → b'.records.lookup id' = b.records.lookup id') :
    AllInformed core retry b' := by
  intro w' member registered kept
  rw [watchers, mem_map] at member
  obtain ⟨w, member, rfl⟩ := member
  obtain ⟨registered, kept, same⟩ := w.offer_cases _ registered kept
  have before := inv w member registered kept
  have last : ∀ id', latest id' ((w.offer (b'.shown core retry id)).handed ++
      (w.offer (b'.shown core retry id)).queue) =
        if id = id' then some (b'.shown core retry id) else latest id' (w.handed ++ w.queue) := by
    intro id'
    rw [same]
    rw [← append_assoc, latest_append, latest_singleton, shown_id]
    split <;> rfl
  constructor
  · intro id' s sent
    rw [last] at sent
    split at sent
    · rename_i here
      rw [← Option.some.inj sent, here]
    · rename_i other
      rw [others id' (Ne.symm other)]
      exact before.current id' s sent
  · intro listed id' found
    rw [last]
    split
    · rfl
    · rename_i other
      rw [records id' (Ne.symm other)] at found
      rw [same] at listed
      exact before.complete listed id' found

/-- A step that changes nothing of what is to be shown. -/
theorem AllInformed.silent (watchers : b'.watchers = b.watchers)
    (shown : ∀ id, b'.shown core retry id = b.shown core retry id)
    (records : b'.records = b.records) : AllInformed core retry b' := by
  intro w member registered kept
  exact (inv w (watchers ▸ member) registered kept).frame shown records

theorem AllInformed.changeWatcher (n : Nat) (f : Watcher → Watcher)
    (step : ∀ w, b.watchers[n]? = some w → (f w).registered = true → (f w).dropped = false →
      Informed core retry b w → Informed core retry b (f w))
    (flags : ∀ w, (f w).registered = true → (f w).dropped = false →
      w.registered = true ∧ w.dropped = false) :
    AllInformed core retry (b.changeWatcher n f) := by
  intro w' member registered kept
  obtain ⟨m, there⟩ := mem_iff_getElem?.mp member
  change (b.watchers.modify n f)[m]? = some w' at there
  rw [getElem?_modify, Option.map_eq_map, map_eq_some_iff] at there
  obtain ⟨w, there, rfl⟩ := there
  have old := inv w (mem_of_getElem? there)
  have same : ∀ {w}, Informed core retry b w → Informed core retry (b.changeWatcher n f) w :=
    fun before => before.frame (fun _ => shown_congr rfl rfl rfl) rfl
  split at registered
  · rename_i here
    subst here
    simp only [if_true] at kept ⊢
    obtain ⟨was, unmissed⟩ := flags w registered kept
    exact same (step w there registered kept (old was unmissed))
  · rename_i other
    simp only [other] at kept ⊢
    exact same (old registered kept)

/-! ## Steps -/

/-- A record is put into the book and announced. -/
theorem AllInformed.announce (drawn : c.retry = retry)
    (watchers : b'.watchers = b.watchers) (records : b'.records = b.records)
    (lists : ∀ id', id' ≠ id → b'.lists id' = b.lists id')
    (updating : ∀ id', id' ≠ id → b'.updating id' = b.updating id') :
    AllInformed core retry (b'.announce core c id r) := by
  have here : (b'.announce core c id r).records.lookup id = some r := lookup_insert _
  have there : ∀ id', id' ≠ id →
      (b'.announce core c id r).records.lookup id' = b.records.lookup id' := by
    intro id' other
    rw [announce_records, lookup_insert_ne other, records]
  refine inv.announced id ?_ (fun id' other => shown_congr (there id' other) (lists id' other)
    (updating id' other)) there
  rw [shown_of_lookup here, announce_watchers, watchers, drawn]
  rfl

theorem AllInformed.save (drawn : c.retry = retry) (e : Edit) :
    AllInformed core retry (b.save core c e).2 := by
  have how := save_cases core c e b
  generalize b.save core c e = result at how
  cases how with
  | refused err => exact inv
  | created id vault | moved old vault | kept old vault =>
    exact inv.announce drawn rfl rfl (fun _ _ => rfl) fun _ _ => rfl

theorem AllInformed.delete (c : Choice) (id : Bytes) :
    AllInformed core retry (b.delete c id).2 := by
  have how := delete_cases c id b
  generalize b.delete c id = result at how
  cases how with
  | refused err => exact inv
  | erased r vault =>
    have here : (b.erased id vault).records.lookup id = none := lookup_erase _ _
    have there : ∀ id', id' ≠ id →
        (b.erased id vault).records.lookup id' = b.records.lookup id' := fun id' other =>
      lookup_erase_ne other
    refine inv.announced id ?_ (fun id' other => shown_congr (there id' other)
      (update_of_ne other _ _) rfl) there
    rw [shown_of_missing here]
    rfl

theorem AllInformed.start (drawn : c.retry = retry) (id : Bytes) :
    AllInformed core retry (b.start core c id).2 := by
  have how := start_cases core c id b
  generalize b.start core c id = result at how
  cases how with
  | missing none | already r found busy | unable r found none => exact inv
  | started r found idle =>
    have here : ((b.mark id true).notify ((b.mark id true).state core c.retry id r)).records.lookup
        id = some r := found
    refine inv.announced id ?_ (fun id' other => shown_congr rfl rfl
      (update_of_ne other _ _)) fun _ _ => rfl
    rw [shown_of_lookup here, drawn]
    rfl

/-- The runs in which every end of an update is announced: the link of the record is still the
one that was fetched, and the failure of a failed update could be written. -/
def announcing : Admission Op Book := fun _ op b _ b' =>
  match op with
  | .finish id link _ =>
    (b.records.lookup id).all (fun r => r.url == link) && b'.unrecorded == b.unrecorded
  | _ => true

theorem AllInformed.finish (drawn : c.retry = retry) (admitted :
    announcing (Option Err) (.finish id link fetched) b (b.finish core c id link fetched).1
    (b.finish core c id link fetched).2 = true) :
    AllInformed core retry (b.finish core c id link fetched).2 := by
  have how := finish_cases core c id link fetched b
  revert admitted
  generalize b.finish core c id link fetched = result at how
  intro admitted
  simp only [announcing, Bool.and_eq_true, beq_iff_eq] at admitted
  have ended : ∀ id', id' ≠ id → (b.mark id false).updating id' = b.updating id' :=
    fun id' other => update_of_ne other _ _
  cases how with
  | gone none =>
    refine inv.silent rfl (fun id' => ?_) rfl
    by_cases here : id' = id
    · subst here
      rw [shown_of_missing none, shown_of_missing]
      exact none
    · exact shown_congr rfl rfl (ended id' here)
  | moved r found other =>
    refine absurd ?_ other
    simpa [found] using admitted.1
  | unrecorded r err found same =>
    have grown : b.unrecorded + 1 = b.unrecorded := admitted.2
    omega
  | updated r info servers vault found =>
    exact inv.announce drawn rfl rfl (fun id' other => update_of_ne other _ _) ended
  | failed r err vault found => exact inv.announce drawn rfl rfl (fun _ _ => rfl) ended

/-- The book after the list was handed to a watcher. -/
theorem AllInformed.list (n : Nat) : AllInformed core retry (b.changeWatcher n fun w =>
      { w with listed := true, handed := w.handed ++ b.list core retry }) := by
  refine inv.changeWatcher n _ (fun w _ _ _ before => ?_) fun w registered kept => ⟨registered, kept⟩
  have listed : ∀ id s, latest id (b.list core retry) = some s → s = b.shown core retry id := by
    intro id s last
    obtain ⟨member, rfl⟩ := mem_of_latest last
    obtain ⟨r, found, same⟩ := mem_list.mp member
    rw [shown_of_lookup found]
    exact same
  have parts : ∀ id, latest id (w.handed ++ b.list core retry ++ w.queue) =
      (latest id w.queue).or ((latest id (b.list core retry)).or (latest id w.handed)) := by
    intro id
    rw [latest_append, latest_append]
  constructor
  · intro id s last
    rw [parts] at last
    cases queued : latest id w.queue with
    | some s' =>
      refine before.current id s ?_
      rw [latest_append, queued]
      rwa [queued] at last
    | none =>
      rw [queued] at last
      cases shown : latest id (b.list core retry) with
      | some s' =>
        rw [shown] at last
        exact listed id s (shown.trans last)
      | none =>
        refine before.current id s ?_
        rw [latest_append, queued]
        rwa [shown] at last
  · intro _ id found
    obtain ⟨r, found⟩ := isSome_iff_exists.mp found
    have there : (latest id (b.list core retry)).isSome = true :=
      latest_of_mem (s := b.state core retry id r) (mem_list.mpr ⟨r, found, rfl⟩) rfl
    rw [parts]
    simp [there]

theorem AllInformed.receive (n : Nat)
    {rest : List SubscriptionState} (queue : (b.watchers[n]?).map (·.queue) = some (s :: rest)) :
    AllInformed core retry (b.changeWatcher n fun w =>
      { w with queue := rest, handed := w.handed ++ [s] }) := by
  refine inv.changeWatcher n _ (fun w there _ _ before => ?_) fun w registered kept =>
    ⟨registered, kept⟩
  have same : w.queue = s :: rest := by simpa [there] using queue
  have joined : (w.handed ++ [s]) ++ rest = w.handed ++ w.queue := by simp [same]
  constructor
  · simpa only [joined] using before.current
  · simpa only [joined] using before.complete

end

/-- A running update has a thread. -/
def Busy (b : Book) (phases : List Phase) : Prop :=
  ∀ id, b.updating id = true → ∃ link, .running id link ∈ phases ∨ .fetched id link ∈ phases

/-- A step that starts no update, of a thread that runs none. -/
theorem Busy.kept (busy : Busy b phases) {s : Phase} (thread : phases[i]? = some s)
    (running : ∀ id link, s ≠ .running id link) (fetched : ∀ id link, s ≠ .fetched id link)
    (s' : Phase) (updating : b'.updating = b.updating) : Busy b' (phases.set i s') := by
  intro id now
  obtain ⟨link, there⟩ := busy id (updating ▸ now)
  refine ⟨link, there.imp (fun member => ?_) fun member => ?_⟩
  · exact mem_set_of_ne thread member (running id link).symm
  · exact mem_set_of_ne thread member (fetched id link).symm

theorem Busy.start (busy : Busy b phases) {s : Phase} (thread : phases[i]? = some s)
    (running : ∀ id link, s ≠ .running id link) (fetched : ∀ id link, s ≠ .fetched id link)
    (c : Choice) (id : Bytes) :
    Busy (b.start core c id).2 (phases.set i (s.after (.start id) (b.start core c id).1)) := by
  have how := start_cases core c id b
  generalize b.start core c id = result at how
  cases how with
  | missing none | already r found now | unable r found none =>
    exact busy.kept thread running fetched _ rfl
  | started r found idle =>
    intro id' now
    by_cases here : id' = id
    · subst here
      obtain ⟨bound, -⟩ := List.getElem?_eq_some_iff.mp thread
      exact ⟨r.url, .inl (mem_set bound _)⟩
    · have before : b.updating id' = true := (update_of_ne here _ _).symm.trans now
      exact busy.kept thread running fetched _ rfl id' before

theorem Busy.fetch (busy : Busy b phases) (thread : phases[i]? = some (.running id link))
    (updating : b'.updating = b.updating) : Busy b' (phases.set i (.fetched id link)) := by
  intro id' now
  obtain ⟨link', there⟩ := busy id' (updating ▸ now)
  obtain ⟨bound, -⟩ := List.getElem?_eq_some_iff.mp thread
  by_cases here : Phase.running id' link' = .running id link
  · obtain ⟨rfl, rfl⟩ := Phase.running.inj here
    exact ⟨link', .inr (mem_set bound _)⟩
  · refine ⟨link', there.imp (fun member => mem_set_of_ne thread member here) fun member => ?_⟩
    exact mem_set_of_ne thread member nofun

theorem Busy.finish (busy : Busy b phases) (thread : phases[i]? = some (.fetched id link))
    (c : Choice) : Busy (b.finish core c id link fetched).2 (phases.set i .idle) := by
  have ended : (b.finish core c id link fetched).2.updating =
      update b.updating id false := by
    have how := finish_cases core c id link fetched b
    generalize b.finish core c id link fetched = result at how
    cases how <;> rfl
  intro id' now
  rw [ended] at now
  by_cases here : id' = id
  · simp [here] at now
  · rw [update_of_ne here] at now
    obtain ⟨link', there⟩ := busy id' now
    refine ⟨link', there.imp (fun member => mem_set_of_ne thread member nofun) fun member => ?_⟩
    exact mem_set_of_ne thread member fun same => here (Phase.fetched.inj same).1

/-! ## Runs -/

/-- The machine whose backoff draws the same delays whenever they are read. -/
def steady (core : Core) (retry : Bytes → Int → Nat → Int) : Machine Op Book where
  Choice := Choice
  perform _ c op b := perform core { c with retry := retry } op b

theorem watching_step {β : Type} {op : Op β} {answer : β} {s : Phase} (drawn : c.retry = retry)
    (inv : AllInformed core retry b ∧ Busy b phases) (thread : phases[i]? = some s)
    (ok : s.allows op) (step : perform core c op b = some (answer, b'))
    (admitted : announcing β op b answer b' = true) :
    AllInformed core retry b' ∧ Busy b' (phases.set i (s.after op answer)) := by
  obtain ⟨informed, busy⟩ := inv
  -- a step of a thread that runs no update
  have calm (plain : op.ofUpdate = false) {b' : Book} (s' : Phase)
      (updating : b'.updating = b.updating) : Busy b' (phases.set i s') := by
    obtain rfl := ok.idle plain
    exact busy.kept thread nofun nofun s' updating
  have same : ∀ {b' : Book}, b'.watchers = b.watchers → b'.records = b.records →
      b'.lists = b.lists → b'.updating = b.updating → AllInformed core retry b' :=
    fun watchers records lists updating => informed.silent watchers
      (fun id => shown_congr (congrArg _ records) (congrFun lists id) (congrFun updating id))
      records
  cases performed step with
  | save e =>
    refine ⟨informed.save drawn e, calm rfl _ ?_⟩
    have how := save_cases core c e b
    generalize b.save core c e = result at how
    cases how <;> rfl
  | delete id =>
    refine ⟨informed.delete c id, calm rfl _ ?_⟩
    have how := delete_cases c id b
    generalize b.delete c id = result at how
    cases how <;> rfl
  | start id =>
    have may : s = .idle ∨ s = .about id := by cases s <;> simp_all
    refine ⟨informed.start drawn id, busy.start thread ?_ ?_ c id⟩
    · rcases may with rfl | rfl <;> nofun
    · rcases may with rfl | rfl <;> nofun
  | fetch ctx id link agent answer log =>
    obtain rfl : s = .running id link := by cases s <;> simp_all
    exact ⟨same rfl rfl rfl rfl, busy.fetch thread rfl⟩
  | finish id link fetched =>
    obtain rfl : s = .fetched id link := by cases s <;> simp_all
    exact ⟨informed.finish drawn admitted, busy.finish thread c⟩
  | due | acquire | launch | take | release | ended | unsent =>
    exact ⟨same rfl rfl rfl rfl, calm rfl _ rfl⟩
  | watch =>
    refine ⟨fun w member registered kept => ?_, calm rfl _ rfl⟩
    rcases mem_append.mp member with old | new
    · exact (informed w old registered kept).frame (fun _ => shown_congr rfl rfl rfl) rfl
    · obtain rfl := mem_singleton.mp new
      refine ⟨fun id s last => ?_, fun listed => ?_⟩
      · simp [latest] at last
      · cases listed
  | list w =>
    rw [drawn]
    exact ⟨informed.list w, calm rfl _ rfl⟩
  | receive w s rest queue => exact ⟨informed.receive w queue, calm rfl _ rfl⟩
  | send w state =>
    refine ⟨informed.changeWatcher w _ (fun _ _ _ _ before => ?_)
      fun _ registered kept => ⟨registered, kept⟩, calm rfl _ rfl⟩
    exact ⟨before.current, before.complete⟩
  | stop w =>
    refine ⟨informed.changeWatcher w _ (fun _ _ left => ?_) fun _ left => ?_, calm rfl _ rfl⟩
    · cases left
    · cases left

theorem watching_of_reach {b₀ : Book} (idle : ∀ id, b₀.updating id = false)
    (unwatched : b₀.watchers = [])
    (reach : Pool.Reach (steady core retry) (Call.program core) announcing ⟨b₀, []⟩ pool) :
    ∃ phases, (AllInformed core retry pool.world ∧ Busy pool.world phases) ∧
      List.Forall₂ (updates.Follows (· = .idle)) phases pool.threads := by
  refine Pool.invariant updates (· = .idle) .idle
    (fun b phases => AllInformed core retry b ∧ Busy b phases) (program_updates core) ?_ ?_ ?_ .nil
    reach
  · rintro b phases ⟨informed, busy⟩
    refine ⟨informed, fun id now => ?_⟩
    obtain ⟨link, there⟩ := busy id now
    exact ⟨link, there.imp (mem_append_left _) (mem_append_left _)⟩
  · intro β op b b' phases i s c answer inv thread ok step admitted
    exact ⟨trivial, watching_step rfl inv thread ok step admitted⟩
  · refine ⟨fun w member => ?_, fun id now => ?_⟩
    · rw [unwatched] at member
      cases member
    · cases (idle id).symm.trans now

/-- Whether the thread waits for the next change. -/
def receives : Prog Op Unit → Bool
  | .call op _ =>
    match op with
    | .receive _ => true
    | _ => false
  | .pure _ => false

/-- Every operation has ended: no goroutine is left to start, and every thread has ended or is a
watcher that waits for the next change. -/
def Quiet (pool : Pool Op Book) : Prop :=
  pool.world.started = [] ∧ ∀ p ∈ pool.threads, p.ended = true ∨ receives p = true

/-- The watcher still watches and has sent everything that it was handed. -/
structure Watcher.Drained (w : Watcher) : Prop where
  registered : w.registered = true
  listed : w.listed = true
  received : w.queue = []
  sent : w.sent = w.handed

/-- A thread that has ended or waits for a change runs no update. -/
theorem idle_of_quiet {p : Prog Op Unit} {s : Phase} (follows : updates.Follows (· = .idle) s p)
    (quiet : p.ended = true ∨ receives p = true) : s = .idle := by
  cases p with
  | pure a => exact follows
  | call op k =>
    rcases quiet with ended | waits
    · cases ended
    · cases op with
      | receive w =>
        have ok : s.allows (.receive w) := follows.1
        exact ok.idle rfl
      | _ => cases waits

/-- Once every operation has ended, a watcher that has missed nothing and has sent everything has
sent last, for each subscription, the state that the list has for it, or for one that is not in
the list the notice of its deletion or nothing; and no state it has sent last shows an update. -/
theorem watchers_converge {b₀ : Book} (idle : ∀ id, b₀.updating id = false)
    (unwatched : b₀.watchers = []) {pool : Pool Op Book}
    (reach : Pool.Reach (steady core retry) (Call.program core) announcing ⟨b₀, []⟩ pool)
    (quiet : Quiet pool) {w : Watcher} (member : w ∈ pool.world.watchers) (drained : w.Drained)
    (kept : w.dropped = false) :
    (∀ s ∈ pool.world.list core retry, latest s.id w.sent = some s) ∧
      (∀ id, (∀ s ∈ pool.world.list core retry, s.id ≠ id) →
        ∀ s, latest id w.sent = some s → s = deletedNotice id) ∧
      ∀ id s, latest id w.sent = some s → s.updating = false := by
  obtain ⟨phases, ⟨informed, busy⟩, follow⟩ := watching_of_reach idle unwatched reach
  have before := informed w member drained.registered kept
  have all : w.handed ++ w.queue = w.sent := by rw [drained.received, drained.sent, append_nil]
  have current : ∀ id s, latest id w.sent = some s → s = pool.world.shown core retry id := by
    intro id s last
    exact before.current id s (all ▸ last)
  have finished : ∀ id, pool.world.updating id = false := by
    intro id
    by_contra running
    obtain ⟨link, there⟩ := busy id (by simpa using running)
    have ended : ∀ s ∈ phases, s = .idle := by
      intro s inside
      obtain ⟨p, there, follows⟩ := exists_of_forall₂ follow inside
      exact idle_of_quiet follows (quiet.2 p there)
    rcases there with inside | inside
    · cases ended _ inside
    · cases ended _ inside
  refine ⟨fun s listed => ?_, fun id unlisted s last => ?_, fun id s last => ?_⟩
  · obtain ⟨r, found, same⟩ := mem_list.mp listed
    have there := before.complete drained.listed s.id (by rw [found]; rfl)
    rw [all] at there
    obtain ⟨s', last⟩ := isSome_iff_exists.mp there
    rw [last, current s.id s' last, shown_of_lookup found, ← same]
  · rw [current id s last]
    refine shown_of_missing (eq_none_iff_forall_ne_some.mpr fun r found => ?_)
    exact unlisted (pool.world.state core retry id r) (mem_list.mpr ⟨r, found, rfl⟩) rfl
  · rw [current id s last]
    unfold shown
    split
    · exact finished id
    · rfl

/-! ## A replaced link -/

/-- A watcher starts to watch; the subscription is created and its first update asks for the old
link; the link changes before the answer comes, and the goroutine of the change finds an update
running. -/
def watchedChange : List (Move Call Choice) :=
  [.spawn (.watch 9), .step 0 {}, .step 0 {},
    .spawn (.save { url := oldLink }), .step 1 { newID := .ok someID },
    .spawn .goroutine, .step 2 {}, .step 2 {}, .step 2 {},
    .spawn (.save { id := someID, url := newLink }), .step 3 {},
    .spawn .goroutine, .step 4 {}, .step 4 {}, .step 2 {},
    .step 0 {}, .step 0 {}, .step 0 {}, .step 0 {}, .step 0 {}, .step 0 {}]

/-- The same without the second save. -/
def watchedUpdate : List (Move Call Choice) :=
  [.spawn (.watch 9), .step 0 {}, .step 0 {},
    .spawn (.save { url := oldLink }), .step 1 { newID := .ok someID },
    .spawn .goroutine, .step 2 {}, .step 2 {}, .step 2 {}, .step 2 {},
    .step 0 {}, .step 0 {}, .step 0 {}, .step 0 {}, .step 0 {}, .step 0 {}]

/-- Whether every operation has ended, whether the first watcher has sent everything and has
missed nothing, whether an update is shown in the last state that it has sent, and in the list. -/
def watchOutcome (pool : Pool Op Book) : Bool × Option (Bool × Option Bool) × Option Bool :=
  (pool.world.started.isEmpty && pool.threads.all (fun p => p.ended || receives p),
    pool.world.watchers.head?.map fun w =>
      (w.registered && w.listed && w.queue.isEmpty && decide (w.sent = w.handed) && !w.dropped,
        (latest someID w.sent).map (·.updating)),
    (pool.world.records.lookup someID).map fun _ => pool.world.updating someID)

theorem drained_of_watchOutcome {last listed : Bool}
    (same : watchOutcome pool = (true, some (true, some last), some listed)) :
    Quiet pool ∧ ∃ w ∈ pool.world.watchers, w.Drained ∧ w.dropped = false ∧
      (∃ s, latest someID w.sent = some s ∧ s.updating = last) ∧
      ∃ r, pool.world.records.lookup someID = some r ∧ pool.world.updating someID = listed := by
  simp only [watchOutcome, Prod.mk.injEq, Bool.and_eq_true, List.isEmpty_iff, List.all_eq_true,
    Bool.or_eq_true, map_eq_some_iff] at same
  obtain ⟨quiet, ⟨w, first, flags, shown⟩, r, found, now⟩ := same
  refine ⟨quiet, w, List.mem_of_head? first, ?_, ?_, shown, r, found, now⟩
  · exact ⟨flags.1.1.1.1, flags.1.1.1.2, flags.1.1.2, of_decide_eq_true flags.1.2⟩
  · simpa using flags.2

theorem replaced_link_shown_updating :
    ∃ pool, Pool.Reach (machine fetchingCore) (Call.program fetchingCore) everything
        ⟨.loaded ∅, []⟩ pool ∧
      Quiet pool ∧ ∃ w ∈ pool.world.watchers, w.Drained ∧ w.dropped = false ∧
        (∃ s, latest someID w.sent = some s ∧ s.updating = true) ∧
        ∃ s ∈ pool.world.list fetchingCore fun _ _ _ => 0, s.id = someID ∧ s.updating = false := by
  obtain ⟨pool, ran, same⟩ := map_eq_some_iff.mp
    (show (Pool.exec (machine fetchingCore) (Call.program fetchingCore) everything
        ⟨.loaded ∅, []⟩ watchedChange).map watchOutcome =
      some (true, some (true, some true), some false) by decide +kernel)
  obtain ⟨quiet, w, member, drained, kept, shown, r, found, ended⟩ := drained_of_watchOutcome same
  refine ⟨pool, Pool.reach_of_exec .refl ran, quiet, w, member, drained, kept, shown, ?_⟩
  have listed : pool.world.state fetchingCore (fun _ _ _ => 0) someID r ∈ _ :=
    mem_list.mpr ⟨r, found, rfl⟩
  exact ⟨_, listed, rfl, ended⟩

theorem update_shown_ended :
    ∃ pool, Pool.exec (steady fetchingCore fun _ _ _ => 0) (Call.program fetchingCore) announcing
        ⟨.loaded ∅, []⟩ watchedUpdate = some pool ∧
      ∃ w ∈ pool.world.watchers, ∃ s ∈ pool.world.list fetchingCore fun _ _ _ => 0,
        s.id = someID ∧ latest someID w.sent = some s ∧ s.updating = false := by
  obtain ⟨pool, ran, same⟩ := map_eq_some_iff.mp
    (show (Pool.exec (steady fetchingCore fun _ _ _ => 0) (Call.program fetchingCore) announcing
        ⟨.loaded ∅, []⟩ watchedUpdate).map watchOutcome =
      some (true, some (true, some false), some false) by decide +kernel)
  obtain ⟨quiet, w, member, drained, kept, -, r, found, -⟩ := drained_of_watchOutcome same
  obtain ⟨all, -, ended⟩ := watchers_converge (fun _ => rfl) rfl (Pool.reach_of_exec .refl ran) quiet
    member drained kept
  have listed : pool.world.state fetchingCore (fun _ _ _ => 0) someID r ∈ _ :=
    mem_list.mpr ⟨r, found, rfl⟩
  exact ⟨pool, ran, w, member, _, listed, rfl, all _ listed, ended _ _ (all _ listed)⟩

end Sora.Control
