import Sora.Journal.Model
import Sora.Lib.Span

/-!
# Resuming an event stream

A stream subscribes, reads the head, replays the history up to it and then sends what it
receives above it.  As long as the `Append` calls publish one after another and nothing that
the replay needs is evicted before it is read, the stream sends what the client has not seen,
once and in order.
-/

namespace Sora.Journal

open Sora.Lib Sora.Session Function World Prod Pool
open List hiding isEmpty_iff span

/-! ## Programs -/

/-- Where a thread is: in an `Append` with the channels it has still to serve, in a stream
with the events it has still to send, or in another subscriber. -/
inductive FeedPhase where
  | idle
  | offering (ev : Stamped) (chs : List Nat)
  | counting (ev : Stamped) (ch : Nat) (chs : List Nat)
  | opened (ch after : Nat)
  | headed (ch after head : Nat)
  | sending (ch after head : Nat) (evs : List Stamped)
  | plain (ch : Nat)
  | leaving (ch : Nat)

namespace FeedPhase

@[simp] def allows {β : Type} : FeedPhase → Op β → Prop
  | .idle, .append _ => True
  | .idle, .subscribe _ _ => True
  | .offering ev chs, .offer ch ev' => ev' = ev ∧ chs.head? = some ch
  | .counting ev ch _, .countDrop ch' ev' => ch' = ch ∧ ev' = ev
  | .opened ch _, .latest ch' => ch' = ch
  | .headed ch after _, .since ch' after' limit => ch' = ch ∧ after' = after ∧ limit = 0
  | .sending ch _ _ evs, .send ch' ev => ch' = ch ∧ evs.head? = some ev
  | .sending ch _ _ evs, .receive ch' => ch' = ch ∧ evs = []
  | .sending ch _ _ _, .cancel ch' => ch' = ch
  | .plain ch, .receive ch' => ch' = ch
  | .plain ch, .cancel ch' => ch' = ch
  | .leaving ch, .cancel ch' => ch' = ch
  | _, _ => False

@[simp] def after {β : Type} : FeedPhase → Op β → β → FeedPhase
  | .idle, .append _ => fun b => .offering b.1 b.2
  | .idle, .subscribe _ cursor => fun ch => match cursor with
    | some after => .opened ch after
    | none => .plain ch
  | .offering ev chs, .offer ch _ => fun sent =>
    if sent then .offering ev chs.tail else .counting ev ch chs.tail
  | .counting ev _ chs, .countDrop _ _ => fun _ => .offering ev chs
  | .opened ch after, .latest _ => fun head => .headed ch after head
  | .headed ch after head, .since _ _ _ => fun events =>
    .sending ch after head (events.filter fun ev => decide (ev.sequence ≤ head))
  | .sending ch after head evs, .send _ _ => fun sent =>
    if sent then .sending ch after head evs.tail else .leaving ch
  | .sending ch after head _, .receive _ => fun received => match received with
    | some ev => .sending ch after head (if unsent head after ev then [ev] else [])
    | none => .leaving ch
  | .sending ch _ _ _, .cancel _ => fun _ => .leaving ch
  | phase, _ => fun _ => phase

end FeedPhase

@[simps] def feeding : Discipline Op FeedPhase where
  allowed := FeedPhase.allows
  answers _ _ _ := True
  next := FeedPhase.after

theorem publish_feeding (ev : Stamped) (chs : List Nat) :
    (publish ev chs).wp feeding.transformer (fun _ _ => True) (.offering ev chs) := by
  induction chs with
  | nil => trivial
  | cons ch rest ih => simp [publish, ih]

theorem sendAll_feeding (ch after head : Nat) (evs : List Stamped) {Q : Bool → FeedPhase → Prop}
    (done : Q true (.sending ch after head [])) (gone : Q false (.leaving ch)) :
    (sendAll ch evs).wp feeding.transformer Q (.sending ch after head evs) := by
  induction evs with
  | nil => exact done
  | cons ev rest ih => simp [sendAll, ih, gone]

variable {Q : Unit → FeedPhase → Prop} {w w' : World} {buffer ch head t : Nat} {c : Choice}
    {ev : Stamped} {f : Feed} {chs : List Nat} {phase phase' : FeedPhase} {b : Option Stamped}
    {cursor : Option Nat} {after : Nat}

theorem stream_feeding (ch after head turns : Nat) (done : Q () (.sending ch after head []))
    (gone : Q () (.leaving ch)) :
    (stream ch after head turns).wp feeding.transformer Q (.sending ch after head []) := by
  induction turns with
  | zero => exact done
  | succ n ih =>
    simp [stream, Option.forall, gone]
    intro ev
    constructor <;> intro wanted <;> simp [wanted, ih]

theorem drain_feeding (ch turns : Nat) (post : Q () (.plain ch)) :
    (drain ch turns).wp feeding.transformer Q (.plain ch) := by
  induction turns with
  | zero => exact post
  | succ n ih => simp [drain, Option.forall, ih, post]

theorem program_feeding (call : Call) : feeding.Follows (fun _ => True) .idle call.program := by
  unfold Discipline.Follows
  cases call with
  | append ev => simp [Call.program, append, publish_feeding]
  | watchEvents after turns =>
    simp [Call.program, watchEvents]
    intro ch head events
    exact sendAll_feeding ch after head _ (by simp [stream_feeding]) (by simp)
  | listen buffer turns => simp [Call.program, listen, drain_feeding]

/-! ## The journal -/

/-- The newest sequence that is not retained. -/
def World.floor (w : World) : Nat := w.next - w.history.length

/-- The history holds the last sequences without a gap. -/
structure Filed (w : World) : Prop where
  positive : 0 < w.capacity
  bounded : w.history.length ≤ w.capacity
  short : w.history.length ≤ w.next
  sequences : w.history.map (·.sequence) = span w.floor w.next

/-- The events that the next `Append` evicts. -/
def World.evicted (w : World) : List Stamped := w.history.take (w.history.length + 1 - w.capacity)

/-- The journal after an `Append` has taken its sequence. -/
structure Grown (w w' : World) : Prop where
  next : w'.next = w.next + 1
  history : ∃ ev : Event, w'.history = w.keep ⟨w.next + 1, ev⟩
  capacity : w'.capacity = w.capacity

theorem Grown.floor (grown : Grown w w') (filed : Filed w) :
    w'.floor = w.floor + (w.history.length + 1 - w.capacity) := by
  obtain ⟨next, ⟨ev, history⟩, -⟩ := grown
  have := filed.short
  simp only [World.floor, history, World.keep, length_drop, length_append, length_singleton]
  omega

theorem Grown.filed (grown : Grown w w') (filed : Filed w) : Filed w' := by
  have floor := grown.floor filed
  obtain ⟨next, ⟨ev, history⟩, capacity⟩ := grown
  have length : w'.history.length = w.history.length + 1 - (w.history.length + 1 - w.capacity) := by
    simp [history, keep]
  have := filed.short
  refine ⟨capacity ▸ filed.positive, by omega, by omega, ?_⟩
  have below : w.floor ≤ w.next := Nat.sub_le _ _
  rw [floor, next, ← drop_span, span_succ below, ← filed.sequences, history]
  simp [keep]

/-- An eviction that takes only what the client has seen leaves the rest. -/
theorem Grown.keeps (grown : Grown w w') (filed : Filed w) {floor : Nat}
    (seen : ∀ ev ∈ w.evicted, ev.sequence ≤ after) (kept : w.floor ≤ max after floor) :
    w'.floor ≤ max after floor := by
  rw [grown.floor filed]
  have := filed.bounded
  have := filed.positive
  rcases Nat.lt_or_ge w.history.length w.capacity with room | full
  · omega
  · have one : w.history.length + 1 - w.capacity = 1 := by omega
    obtain ⟨ev, rest, history⟩ : ∃ ev rest, w.history = ev :: rest :=
      exists_cons_of_length_pos (by omega)
    have first : ev.sequence = w.floor + 1 := by
      have sequences := filed.sequences
      have long : w.next - w.floor = rest.length + 1 := by
        have short := filed.short
        rw [history, length_cons] at short
        rw [World.floor, history, length_cons]
        omega
      rw [history, span, long] at sequences
      exact (cons.inj sequences).1
    have mem : ev ∈ w.evicted := by
      rw [evicted, one, history]
      simp
    have := seen ev mem
    omega

/-- The replay: what is retained above the cursor up to the head. -/
theorem Filed.replay (filed : Filed w) {floor : Nat} (below : head ≤ w.next)
    (lower : floor ≤ w.floor) (kept : w.floor ≤ max after floor) :
    ((retained w after 0).filter fun ev => decide (ev.sequence ≤ head)).map (·.sequence) =
      span (max after floor) head := by
  have all : retained w after 0 = w.history.filter fun ev => decide (after < ev.sequence) := by
    exact take_of_length_le (le_trans (length_filter_le _ _) filed.bounded)
  have sequences : ((retained w after 0).filter fun ev => decide (ev.sequence ≤ head)).map
      (·.sequence) = ((w.history.map (·.sequence)).filter fun s => decide (after < s)).filter
        fun s => decide (s ≤ head) := by
    rw [all, filter_map, filter_map]
    rfl
  rw [sequences, filed.sequences, filter_filter]
  rcases Nat.lt_or_ge head (max after floor) with empty | some
  · rw [span_eq_nil (Nat.le_of_lt empty), filter_eq_nil_iff]
    intro s mem
    have := mem_span.mp mem
    simp only [Bool.and_eq_true, decide_eq_true_eq]
    omega
  · refine filter_span _ _ _ (fun s above within => ?_) (by omega) below
    simp only [Bool.and_eq_true, decide_eq_true_eq]
    omega

/-! ## What the operations do -/

/-- A step that leaves the journal itself alone. -/
structure SameJournal (w w' : World) : Prop where
  next : w'.next = w.next
  capacity : w'.capacity = w.capacity
  history : w'.history = w.history
  subs : w'.subs = w.subs
  created : w'.created = w.created

theorem SameJournal.floor (same : SameJournal w w') : w'.floor = w.floor := by
  rw [World.floor, same.next, same.history, World.floor]

theorem Filed.of_same (filed : Filed w) (next : w'.next = w.next)
    (capacity : w'.capacity = w.capacity) (history : w'.history = w.history) : Filed w' := by
  refine ⟨capacity ▸ filed.positive, ?_, ?_, ?_⟩
  · rw [history, capacity]
    exact filed.bounded
  · rw [history, next]
    exact filed.short
  · rw [floor, history, next]
    exact filed.sequences

theorem SameJournal.filed (same : SameJournal w w') (filed : Filed w) : Filed w' :=
  filed.of_same same.next same.capacity same.history

/-- An `Append` that has taken its sequence and copied the channels. -/
structure Copies (t : Nat) (order : List Nat) (w w' : World) : Prop where
  grown : Grown w w'
  perm : order.Perm w.subs
  subs : w'.subs = w.subs
  created : w'.created = w.created
  feeds : w'.feeds = w.feeds
  chans : w'.chans = w.chans
  counting : w'.counting = w.counting
  offering : w'.offering = w.offering ++ order.map fun ch => (t, ch)

theorem append_inv {ev : Event} {b : Stamped × List Nat}
    (step : perform t c (.append ev) w = some (b, w')) :
    b.1.sequence = w'.next ∧ Copies t b.2 w w' := by
  simp only [perform] at step
  split at step
  · rename_i order
    cases step
    exact ⟨rfl, ⟨rfl, ⟨ev, rfl⟩, rfl⟩, isPerm_iff.mp order, rfl, rfl, rfl, rfl, rfl, rfl⟩
  · cases step

/-- The outcomes of an offer: the channel was closed, it had room, or it was full. -/
inductive Offered (t ch : Nat) (ev : Stamped) (w w' : World) : Bool → Prop
  | closed (closed : (w.chans ch).closed = true) (feeds : w'.feeds = w.feeds)
      (chans : w'.chans = w.chans) (counting : w'.counting = w.counting) : Offered t ch ev w w' true
  | queued (opened : (w.chans ch).closed = false) (feeds : w'.feeds = w.feeds)
      (chans : w'.chans = Function.update w.chans ch
        { w.chans ch with queue := (w.chans ch).queue ++ [ev] })
      (counting : w'.counting = w.counting) : Offered t ch ev w w' true
  | full (opened : (w.chans ch).closed = false)
      (feeds : w'.feeds = Function.update w.feeds ch
        { w.feeds ch with missed := (w.feeds ch).missed ++ [ev.sequence] })
      (chans : w'.chans = w.chans)
      (counting : w'.counting = w.counting ++ [(t, ch, ev.sequence)]) : Offered t ch ev w w' false

theorem offer_inv {b : Bool} (step : perform t c (.offer ch ev) w = some (b, w')) :
    SameJournal w w' ∧ w'.offering = w.offering.filter (· != (t, ch)) ∧
      Offered t ch ev w w' b := by
  simp only [perform] at step
  split at step
  · rename_i closed
    cases step
    exact ⟨⟨rfl, rfl, rfl, rfl, rfl⟩, rfl, .closed closed rfl rfl rfl⟩
  · rename_i opened
    have opened := Bool.eq_false_of_not_eq_true opened
    split at step <;> cases step
    · exact ⟨⟨rfl, rfl, rfl, rfl, rfl⟩, rfl, .queued opened rfl rfl rfl⟩
    · exact ⟨⟨rfl, rfl, rfl, rfl, rfl⟩, rfl, .full opened rfl rfl rfl⟩

theorem countDrop_inv {b : Unit} (step : perform t c (.countDrop ch ev) w = some (b, w')) :
    SameJournal w w' ∧ w'.offering = w.offering ∧ w'.chans = w.chans ∧
      w'.feeds = update w.feeds ch
        { w.feeds ch with counted := (w.feeds ch).counted ++ [ev.sequence] } ∧
      w'.counting = w.counting.filter (· != (t, ch, ev.sequence)) := by
  cases step
  exact ⟨⟨rfl, rfl, rfl, rfl, rfl⟩, rfl, rfl, rfl, rfl⟩

/-! ## The channels -/

/-- The sequence that an `Append` is about to offer to a channel. -/
def World.inflight (w : World) (ch : Nat) : List Nat :=
  if ch ∈ w.offering.map Prod.snd then [w.next] else []

/-- A stream before and after its replay. -/
structure Stream (w : World) (f : Feed) (after : Nat) : Prop where
  waiting : f.replayed = false →
    f.sent = [] ∧ f.todo = [] ∧ f.taken = [] ∧ w.floor ≤ max after f.floor
  head : ∀ h, f.head = some h → f.opened ≤ h ∧ h ≤ w.next
  replay : f.replayed = true → ∃ h, f.head = some h ∧ f.sent ++ f.todo =
    span (max after f.floor) h ++ f.taken.filter fun s => decide (h < s) && decide (after < s)

/-- A subscription: every sequence since it was opened has been received, is queued, is about
to be offered, or found the channel full. -/
structure ChanOk (w : World) (ch : Nat) : Prop where
  floor_le : (w.feeds ch).floor ≤ w.floor
  floor_opened : (w.feeds ch).floor ≤ (w.feeds ch).opened
  opened_le : (w.feeds ch).opened ≤ w.next
  missed_le : ∀ s ∈ (w.feeds ch).missed, s ≤ w.next
  missed : ∀ s ∈ (w.feeds ch).missed, s ∈ (w.feeds ch).counted ∨ ∃ t, (t, ch, s) ∈ w.counting
  closed : (w.chans ch).closed = false ↔ ch ∈ w.subs
  line : ch ∈ w.subs →
    (w.feeds ch).taken ++ (w.chans ch).queue.map (·.sequence) ++ w.inflight ch =
      (span (w.feeds ch).opened w.next).filter fun s => !(w.feeds ch).missed.contains s
  sorted : ((w.feeds ch).taken ++ (w.chans ch).queue.map (·.sequence)).Pairwise (· < ·)
  stream : ∀ after, (w.feeds ch).cursor = some after → Stream w (w.feeds ch) after

/-- The line of a channel is in order. -/
theorem sorted_of_line {taken rest : List Nat} {opened next : Nat} {p : Nat → Bool}
    (line : taken ++ rest = (span opened next).filter p) : taken.Pairwise (· < ·) := by
  have sorted := (span_sorted opened next).filter p
  rw [← line] at sorted
  exact (pairwise_append.mp sorted).1

/-- A step that leaves a channel and its feed alone. -/
structure SameChan (w w' : World) (ch : Nat) : Prop where
  next : w'.next = w.next
  history : w'.history = w.history
  feed : w'.feeds ch = w.feeds ch
  chan : w'.chans ch = w.chans ch
  subs : ch ∈ w'.subs ↔ ch ∈ w.subs
  inflight : ch ∈ w.subs → w'.inflight ch = w.inflight ch
  counting : ∀ t s, (t, ch, s) ∈ w.counting → s ∈ (w.feeds ch).counted ∨ (t, ch, s) ∈ w'.counting

theorem Stream.of_same (stream : Stream w f after) (next : w'.next = w.next)
    (history : w'.history = w.history) : Stream w' f after := by
  have floor : w'.floor = w.floor := by rw [floor, next, history, floor]
  refine ⟨fun waits => ?_, fun h at_h => ?_, stream.replay⟩
  · rw [floor]
    exact stream.waiting waits
  · rw [next]
    exact stream.head h at_h

/-- A step that leaves the numbers of the journal alone and gives the channel the feed `f`. -/
theorem ChanOk.move (ok : ChanOk w ch) (next : w'.next = w.next) (history : w'.history = w.history)
    (subs : ch ∈ w'.subs ↔ ch ∈ w.subs) (closed : (w'.chans ch).closed = (w.chans ch).closed)
    (feed : w'.feeds ch = f) (floor : f.floor = (w.feeds ch).floor)
    (opened : f.opened = (w.feeds ch).opened) (missed_le : ∀ s ∈ f.missed, s ≤ w.next)
    (missed : ∀ s ∈ f.missed, s ∈ f.counted ∨ ∃ t, (t, ch, s) ∈ w'.counting)
    (line : ch ∈ w.subs → f.taken ++ (w'.chans ch).queue.map (·.sequence) ++ w'.inflight ch =
      (span f.opened w.next).filter fun s => !f.missed.contains s)
    (sorted : (f.taken ++ (w'.chans ch).queue.map (·.sequence)).Pairwise (· < ·))
    (stream : ∀ after, f.cursor = some after → Stream w f after) : ChanOk w' ch := by
  subst feed
  have low : w'.floor = w.floor := by rw [World.floor, next, history, World.floor]
  refine ⟨?_, ?_, ?_, next ▸ missed_le, missed, ?_, ?_, sorted,
    fun after at_after => (stream after at_after).of_same next history⟩
  · rw [floor, low]
    exact ok.floor_le
  · rw [floor, opened]
    exact ok.floor_opened
  · rw [opened, next]
    exact ok.opened_le
  · rw [closed, subs]
    exact ok.closed
  · rw [subs, next]
    exact line

theorem ChanOk.of_same (ok : ChanOk w ch) (same : SameChan w w' ch) : ChanOk w' ch := by
  obtain ⟨next, history, feed, chan, subs, inflight, counting⟩ := same
  refine ok.move next history subs (by rw [chan]) feed rfl rfl ok.missed_le (fun s mem => ?_)
    (fun mem => ?_) ?_ ok.stream
  · rcases ok.missed s mem with counted | ⟨t, waits⟩
    · exact .inl counted
    · exact (counting t s waits).imp_right fun waits => ⟨t, waits⟩
  · rw [chan, inflight mem]
    exact ok.line mem
  · rw [chan]
    exact ok.sorted

/-! ## The threads -/

/-- The subscription of a stream of thread `t`. -/
structure Owns (w : World) (t ch : Nat) (cursor : Option Nat) : Prop where
  known : ch < w.created
  owner : (w.feeds ch).owner = t
  cursor : (w.feeds ch).cursor = cursor

/-- An `Append` of thread `t` with the channels it has still to serve. -/
structure Serves (w : World) (t : Nat) (ev : Stamped) (chs : List Nat) : Prop where
  distinct : chs.Nodup
  offering : ∀ ch ∈ chs, (t, ch) ∈ w.offering
  newest : chs ≠ [] → ev.sequence = w.next

def FeedPhase.Knows (w : World) (t : Nat) : FeedPhase → Prop
  | .idle => True
  | .offering ev chs => Serves w t ev chs
  | .counting ev ch chs => Serves w t ev chs ∧ (t, ch, ev.sequence) ∈ w.counting ∧ ch < w.created
  | .opened ch after => Owns w t ch (some after) ∧ (w.feeds ch).head = none
  | .headed ch after head => Owns w t ch (some after) ∧ (w.feeds ch).head = some head ∧
      (w.feeds ch).replayed = false
  | .sending ch after head evs => Owns w t ch (some after) ∧ (w.feeds ch).head = some head ∧
      (w.feeds ch).replayed = true ∧ (w.feeds ch).todo = evs.map (·.sequence)
  | .plain ch => Owns w t ch none
  | .leaving ch => ch < w.created

/-- What a step of thread `t` leaves to the other threads. -/
structure Leaves (t : Nat) (w w' : World) : Prop where
  created : w.created ≤ w'.created
  offering : ∀ j ch, j ≠ t → (j, ch) ∈ w.offering → (j, ch) ∈ w'.offering ∧ w'.next = w.next
  counting : ∀ j ch s, j ≠ t → (j, ch, s) ∈ w.counting → (j, ch, s) ∈ w'.counting
  feeds : ∀ ch, ch < w.created → (w.feeds ch).owner ≠ t → (w'.feeds ch).owner = (w.feeds ch).owner ∧
    (w'.feeds ch).cursor = (w.feeds ch).cursor ∧ (w'.feeds ch).head = (w.feeds ch).head ∧
    (w'.feeds ch).replayed = (w.feeds ch).replayed ∧ (w'.feeds ch).todo = (w.feeds ch).todo

variable {j : Nat}

theorem Serves.leave (serves : Serves w j ev chs) (leaves : Leaves t w w') (other : j ≠ t) :
    Serves w' j ev chs := by
  refine ⟨serves.distinct, fun ch mem => (leaves.offering j ch other (serves.offering ch mem)).1,
    fun some => ?_⟩
  obtain ⟨ch, rest, rfl⟩ := exists_cons_of_ne_nil some
  rw [(leaves.offering j ch other (serves.offering ch mem_cons_self)).2]
  exact serves.newest some

theorem FeedPhase.Knows.leave (knows : phase.Knows w j) (leaves : Leaves t w w') (other : j ≠ t) :
    phase.Knows w' j := by
  have owned (ch : Nat) (cursor : Option Nat) (owns : Owns w j ch cursor) :=
    leaves.feeds ch owns.known fun same => other (owns.owner.symm.trans same)
  have keeps (ch : Nat) (cursor : Option Nat) (owns : Owns w j ch cursor) :
      Owns w' j ch cursor := by
    obtain ⟨owner, at_cursor, -⟩ := owned ch cursor owns
    exact ⟨Nat.lt_of_lt_of_le owns.known leaves.created, owner.trans owns.owner,
      at_cursor.trans owns.cursor⟩
  cases phase with
  | idle => trivial
  | offering ev chs => exact Serves.leave knows leaves other
  | counting ev ch chs =>
    obtain ⟨serves, waits, known⟩ := knows
    exact ⟨serves.leave leaves other, leaves.counting j ch _ other waits,
      Nat.lt_of_lt_of_le known leaves.created⟩
  | opened ch after =>
    obtain ⟨owns, head⟩ := knows
    obtain ⟨-, -, same, -⟩ := owned ch _ owns
    exact ⟨keeps ch _ owns, same.trans head⟩
  | headed ch after h =>
    obtain ⟨owns, head, replayed⟩ := knows
    obtain ⟨-, -, same, same', -⟩ := owned ch _ owns
    exact ⟨keeps ch _ owns, same.trans head, same'.trans replayed⟩
  | sending ch after h evs =>
    obtain ⟨owns, head, replayed, todo⟩ := knows
    obtain ⟨-, -, same, same', same''⟩ := owned ch _ owns
    exact ⟨keeps ch _ owns, same.trans head, same'.trans replayed, same''.trans todo⟩
  | plain ch => exact keeps ch none knows
  | leaving ch => exact Nat.lt_of_lt_of_le knows leaves.created

/-- The invariant of the runs under consideration. -/
structure Delivering (w : World) (phases : List FeedPhase) : Prop where
  filed : Filed w
  distinct : w.subs.Nodup
  known : ∀ ch ∈ w.subs, ch < w.created
  single : (w.offering.map Prod.snd).Nodup
  copied : ∀ entry ∈ w.offering, entry.2 < w.created
  chans : ∀ ch < w.created, ChanOk w ch
  threads : ∀ (t : Nat) (phase : FeedPhase), phases[t]? = some phase → phase.Knows w t

namespace Delivering

variable {phases : List FeedPhase}

/-- A step that only moves the stream of a channel. -/
theorem chanOk_of_feed (ok : ChanOk w ch) (same : SameJournal w w')
    (offering : w'.offering = w.offering) (counting : w'.counting = w.counting)
    (feed : w'.feeds ch = f) (floor : f.floor = (w.feeds ch).floor)
    (opened : f.opened = (w.feeds ch).opened) (missed : f.missed = (w.feeds ch).missed)
    (counted : f.counted = (w.feeds ch).counted)
    (closed : (w'.chans ch).closed = (w.chans ch).closed) (line : f.taken ++ (w'.chans ch).queue.map
    (·.sequence) = (w.feeds ch).taken ++ (w.chans ch).queue.map (·.sequence))
    (stream : ∀ after, f.cursor = some after → Stream w f after) : ChanOk w' ch := by
  refine ok.move same.next same.history (by rw [same.subs]) closed feed floor opened
    (missed ▸ ok.missed_le) ?_ (fun mem => ?_) (line ▸ ok.sorted) stream
  · rw [missed, counted, counting]
    exact ok.missed
  · have flying : w'.inflight ch = w.inflight ch := by
      simp only [inflight, offering, same.next]
    rw [line, flying, opened, missed]
    exact ok.line mem

/-- What a receive does: nothing to be had, or the first event of the queue is taken. -/
inductive Received (ch : Nat) (w : World) : Option Stamped → World → Prop
  | none : Received ch w none w
  | some {ev : Stamped} {rest : List Stamped} (queue : (w.chans ch).queue = ev :: rest) :
    Received ch w (some ev)
      ((w.setChan ch { w.chans ch with queue := rest }).setFeed ch
        { w.feeds ch with
          taken := (w.feeds ch).taken ++ [ev.sequence]
          todo := if unsent ((w.feeds ch).head.getD 0) ((w.feeds ch).cursor.getD 0) ev then
            [ev.sequence] else [] })

theorem receive_inv (step : perform t c (.receive ch) w = some (b, w')) : Received ch w b w' := by
  simp only [perform] at step
  split at step
  · cases step
    exact .none
  · split at step
    · split at step
      · cases step
        exact .none
      · cases step
    · rename_i queue
      cases step
      exact .some queue

/-- What a subscription adds. -/
structure Subscribed (t : Nat) (cursor : Option Nat) (ch : Nat) (w w' : World) : Prop where
  fresh : ch = w.created
  next : w'.next = w.next
  capacity : w'.capacity = w.capacity
  history : w'.history = w.history
  subs : w'.subs = w.subs ++ [ch]
  created : w'.created = w.created + 1
  offering : w'.offering = w.offering
  counting : w'.counting = w.counting
  feed : w'.feeds ch = { owner := t, cursor := cursor, opened := w.next, floor := w.floor }
  queue : (w'.chans ch).queue = []
  closed : (w'.chans ch).closed = false
  others : ∀ k, k ≠ ch → w'.feeds k = w.feeds k ∧ w'.chans k = w.chans k

theorem subscribe_inv (step : perform t c (.subscribe buffer cursor) w = some (ch, w')) :
    Subscribed t cursor ch w w' := by
  cases step
  refine ⟨rfl, rfl, rfl, rfl, rfl, rfl, rfl, rfl, update_self .., ?_, ?_, fun k ne =>
    ⟨update_of_ne ne .., update_of_ne ne ..⟩⟩ <;>
    simp [setFeed, setChan]

variable (inv : Delivering w phases)

include inv

theorem spawn : Delivering w (phases ++ [.idle]) := by
  refine { inv with threads := fun j phase at_j => ?_ }
  rcases getElem?_snoc_cases at_j with old | rfl
  · exact inv.threads j phase old
  · trivial

theorem threads_of (leaves : Leaves t w w') (knows : phase'.Knows w' t)
    (j : Nat) (phase : FeedPhase) (at_j : (phases.set t phase')[j]? = some phase) :
    phase.Knows w' j := by
  rcases getElem?_set_cases at_j with ⟨rfl, rfl⟩ | ⟨other, old⟩
  · exact knows
  · exact (inv.threads j phase old).leave leaves other

/-- A step that leaves the journal alone, serves some of the waiting channels and touches none but
`ch`. -/
theorem rebuild (same : SameJournal w w') (offering : w'.offering.Sublist w.offering)
    (others : ∀ k, k ≠ ch → SameChan w w' k) (ok : ChanOk w' ch) (leaves : Leaves t w w')
    (knows : phase'.Knows w' t) : Delivering w' (phases.set t phase') := by
  refine ⟨same.filed inv.filed, same.subs ▸ inv.distinct, ?_, inv.single.sublist (offering.map _),
    fun entry mem => ?_, fun k below => ?_, inv.threads_of leaves knows⟩
  · rw [same.subs, same.created]
    exact inv.known
  · rw [same.created]
    exact inv.copied entry (offering.subset mem)
  · by_cases here : k = ch
    · exact here ▸ ok
    · exact (inv.chans k (same.created ▸ below)).of_same (others k here)

/-! ### `Append` -/

theorem append {order : List Nat} (calm : w.offering = []) (spares : ∀
    ch < w.created, ∀ after, (w.feeds ch).cursor = some after → (w.feeds ch).replayed = false → ∀ ev
    ∈ w.evicted, ev.sequence ≤ after) (newest : ev.sequence = w'.next)
    (copies : Copies t order w w') : Delivering w' (phases.set t (.offering ev order)) := by
  obtain ⟨grown, perm, subs, created, feeds, chans, counting, offering⟩ := copies
  rw [calm] at offering
  have next := grown.next
  have floor := grown.floor inv.filed
  have seconds : w'.offering.map snd = order := by simp [offering]
  have ordered : order.Nodup := perm.nodup_iff.mpr inv.distinct
  refine ⟨grown.filed inv.filed, subs ▸ inv.distinct, ?_, seconds ▸ ordered, ?_, ?_, ?_⟩
  · rw [subs, created]
    exact inv.known
  · intro entry mem
    rw [created]
    refine inv.known entry.2 (perm.mem_iff.mp ?_)
    rw [← seconds]
    exact mem_map_of_mem mem
  · intro ch below
    rw [created] at below
    have ok := inv.chans ch below
    refine ⟨?_, ?_, ?_, ?_, ?_, ?_, ?_, ?_, ?_⟩
    · rw [feeds, floor]
      exact Nat.le_trans ok.floor_le (Nat.le_add_right _ _)
    · rw [feeds]
      exact ok.floor_opened
    · rw [feeds, next]
      exact Nat.le_succ_of_le ok.opened_le
    · rw [feeds, next]
      exact fun s mem => Nat.le_succ_of_le (ok.missed_le s mem)
    · rw [feeds, counting]
      exact ok.missed
    · rw [chans, subs]
      exact ok.closed
    · rw [feeds, chans, next, subs]
      intro mem
      have line := ok.line mem
      have before : w.inflight ch = [] := by simp [inflight, calm]
      have after : w'.inflight ch = [w.next + 1] := by
        rw [inflight, seconds, if_pos (perm.mem_iff.mpr mem), next]
      have fresh : w.next + 1 ∉ (w.feeds ch).missed := fun missed =>
        Nat.not_succ_le_self _ (ok.missed_le _ missed)
      rw [before, append_nil] at line
      rw [after, line, span_succ ok.opened_le]
      simp [fresh]
    · rw [feeds, chans]
      exact ok.sorted
    · rw [feeds]
      intro after cursor
      have stream := ok.stream after cursor
      refine ⟨fun waits => ?_, fun h at_h => ?_, stream.replay⟩
      · obtain ⟨sent, todo, taken, kept⟩ := stream.waiting waits
        exact ⟨sent, todo, taken, grown.keeps inv.filed (spares ch below after cursor waits) kept⟩
      · obtain ⟨lower, upper⟩ := stream.head h at_h
        exact ⟨lower, next ▸ Nat.le_succ_of_le upper⟩
  · refine inv.threads_of ⟨Nat.le_of_eq created.symm, fun j ch _ mem => ?_,
      fun j ch s _ mem => counting ▸ mem, fun ch _ _ => by simp [feeds]⟩ ?_
    · rw [calm] at mem
      cases mem
    · refine ⟨ordered, fun ch mem => ?_, fun _ => newest⟩
      rw [offering]
      exact mem_map_of_mem mem

/-- The channels that are still to be served once `ch` has been. -/
theorem mem_offering (mem : (t, ch) ∈ w.offering) (k : Nat) :
    k ∈ (w.offering.filter (· != (t, ch))).map snd ↔ k ∈ w.offering.map snd ∧ k ≠ ch := by
  simp only [mem_map, mem_filter, bne_iff_ne]
  constructor
  · rintro ⟨⟨j, k⟩, ⟨at_j, other⟩, rfl⟩
    refine ⟨⟨(j, k), at_j, rfl⟩, fun here => other ?_⟩
    exact inj_on_of_nodup_map inv.single at_j mem here
  · rintro ⟨⟨⟨j, k⟩, at_j, rfl⟩, ne⟩
    exact ⟨(j, k), ⟨at_j, fun here => ne (congrArg snd here)⟩, rfl⟩

/-- The channel that has been offered its event. -/
theorem offered {b : Bool} (mem : (t, ch) ∈ w.offering)
    (newest : ev.sequence = w.next) (same : SameJournal w w')
    (offering : w'.offering = w.offering.filter (· != (t, ch))) (outcome : Offered t ch ev w w' b) :
    ChanOk w' ch := by
  have ok := inv.chans ch (inv.copied _ mem)
  have subs : ch ∈ w'.subs ↔ ch ∈ w.subs := by rw [same.subs]
  have flying : w.inflight ch = [w.next] := if_pos (mem_map.mpr ⟨(t, ch), mem, rfl⟩)
  have landed : w'.inflight ch = [] := by
    refine if_neg fun still => ?_
    rw [offering] at still
    exact ((inv.mem_offering mem ch).mp still).2 rfl
  cases outcome with
  | closed closed feeds chans counting =>
    refine ok.of_same ⟨same.next, same.history, by rw [feeds], by rw [chans], subs,
      fun at_ch => ?_, fun j s at_j => .inr (counting ▸ at_j)⟩
    rw [ok.closed.mpr at_ch] at closed
    cases closed
  | queued opened feeds chans counting =>
    have line := ok.line (ok.closed.mp opened)
    have chan : w'.chans ch = { w.chans ch with queue := (w.chans ch).queue ++ [ev] } := by
      rw [chans, update_self]
    have line' : (w.feeds ch).taken ++ (w'.chans ch).queue.map (·.sequence) ++ w'.inflight ch =
        (span (w.feeds ch).opened w.next).filter fun s => !(w.feeds ch).missed.contains s := by
      rw [landed, chan, ← line, flying]
      simp [newest]
    refine ok.move same.next same.history subs (by rw [chan]) (by rw [feeds]) rfl rfl ok.missed_le
      ?_ (fun _ => line') (sorted_of_line line') ok.stream
    rw [counting]
    exact ok.missed
  | full opened feeds chans counting =>
    have line := ok.line (ok.closed.mp opened)
    refine ok.move same.next same.history subs (by rw [chans])
      ((congrFun feeds ch).trans (update_self ..)) rfl rfl
      (fun s missed => ?_) (fun s missed => ?_) (fun _ => ?_) ?_ fun after cursor => ?_
    · rcases mem_append.mp missed with old | new
      · exact ok.missed_le s old
      · rw [mem_singleton.mp new, newest]
    · rw [counting]
      rcases mem_append.mp missed with old | new
      · rcases ok.missed s old with counted | ⟨j, waits⟩
        · exact .inl counted
        · exact .inr ⟨j, mem_append_left _ waits⟩
      · rw [mem_singleton.mp new]
        exact .inr ⟨t, mem_append_right _ (mem_singleton_self _)⟩
    · -- without its last number the line is what the channel holds
      rw [landed, chans, newest]
      have nodup : ((w.feeds ch).taken ++ (w.chans ch).queue.map (·.sequence) ++ [w.next]).Nodup := by
        rw [← flying, line]
        exact ((span_sorted _ _).imp Nat.ne_of_lt).filter _
      have last := (nodup_append.mp nodup).2.2
      have split : (span (w.feeds ch).opened w.next).filter
          (fun s => !((w.feeds ch).missed ++ [w.next]).contains s) =
          ((span (w.feeds ch).opened w.next).filter fun s => !(w.feeds ch).missed.contains s).filter
            fun s => s != w.next := by
        rw [filter_filter]
        congr 1
        funext s
        by_cases here : s = w.next <;> simp [here]
      rw [split, ← line, flying, filter_append]
      simp only [filter_cons, bne_self_eq_false, Bool.false_eq_true, if_false, filter_nil,
        append_nil]
      refine (filter_eq_self.mpr fun s at_s => ?_).symm
      simpa using last s at_s w.next (mem_singleton_self _)
    · rw [chans]
      exact ok.sorted
    · obtain ⟨waiting, head, replay⟩ := ok.stream after cursor
      exact ⟨waiting, head, replay⟩

theorem offer {b : Bool} (thread : phases[t]? = some (.offering ev chs))
    (first : chs.head? = some ch) (same : SameJournal w w')
    (offering : w'.offering = w.offering.filter (· != (t, ch))) (outcome : Offered t ch ev w w' b) :
    Delivering w' (phases.set t
      (if b then .offering ev chs.tail else .counting ev ch chs.tail)) := by
  obtain ⟨rest, rfl⟩ := head?_eq_some_iff.mp first
  have serves : Serves w t ev (ch :: rest) := inv.threads t _ thread
  have mem := serves.offering ch mem_cons_self
  have newest := serves.newest (cons_ne_nil _ _)
  obtain ⟨fresh, distinct⟩ := nodup_cons.mp serves.distinct
  have others (k : Nat) (ne : k ≠ ch) : w'.feeds k = w.feeds k ∧ w'.chans k = w.chans k := by
    cases outcome with
    | closed _ feeds chans _ => simp [feeds, chans]
    | queued _ feeds chans _ | full _ feeds chans _ => simp [feeds, chans, ne]
  have counting : ∀ entry ∈ w.counting, entry ∈ w'.counting := by
    intro entry at_entry
    cases outcome with
    | closed _ _ _ counting | queued _ _ _ counting => exact counting ▸ at_entry
    | full _ _ _ counting => exact counting ▸ mem_append_left _ at_entry
  have leaves : Leaves t w w' := by
    refine ⟨Nat.le_of_eq same.created.symm, fun j k other at_j => ⟨?_, same.next⟩,
      fun j k s _ at_j => counting _ at_j, fun k _ _ => ?_⟩
    · rw [offering]
      exact mem_filter.mpr ⟨at_j, by simp [other]⟩
    · by_cases here : k = ch
      · cases outcome with
        | closed _ feeds _ _ | queued _ feeds _ _ => simp [feeds]
        | full _ feeds _ _ => simp [feeds, here]
      · simp [(others k here).1]
  have serves' : Serves w' t ev rest := by
    refine ⟨distinct, fun k at_k => ?_, fun _ => newest.trans same.next.symm⟩
    rw [offering]
    refine mem_filter.mpr ⟨serves.offering k (mem_cons_of_mem _ at_k), ?_⟩
    have ne : k ≠ ch := fun here => fresh (here ▸ at_k)
    simpa using ne
  refine inv.rebuild same (offering ▸ filter_sublist) (fun k here => ?_)
    (inv.offered mem newest same offering outcome) leaves ?_
  · refine ⟨same.next, same.history, (others k here).1, (others k here).2, by rw [same.subs],
      fun _ => ?_, fun j s at_j => .inr (counting _ at_j)⟩
    have still := inv.mem_offering mem k
    rw [← offering] at still
    simp only [inflight, still, same.next, ne_eq, here, not_false_eq_true, and_true]
  · cases outcome with
    | closed | queued => exact serves'
    | full _ _ _ counting =>
      refine ⟨serves', ?_, same.created ▸ inv.copied _ mem⟩
      rw [counting]
      exact mem_append_right _ (mem_singleton_self _)

theorem countDrop {b : Unit} (thread : phases[t]? = some (.counting ev ch chs))
    (step : perform t c (.countDrop ch ev) w = some (b, w')) :
    Delivering w' (phases.set t (.offering ev chs)) := by
  obtain ⟨serves, -, known⟩ : Serves w t ev chs ∧ _ ∧ _ := inv.threads t _ thread
  obtain ⟨same, offering, chans, feeds, counting⟩ := countDrop_inv step
  have still (j k s : Nat) (at_j : (j, k, s) ∈ w.counting)
      (other : (j, k, s) ≠ (t, ch, ev.sequence)) : (j, k, s) ∈ w'.counting := by
    rw [counting]
    exact mem_filter.mpr ⟨at_j, by simpa using other⟩
  have flying (k : Nat) : w'.inflight k = w.inflight k := by
    simp only [inflight, offering, same.next]
  have ok := inv.chans ch known
  refine inv.rebuild same (offering ▸ .refl _) (fun k (here : k ≠ ch) => ?_) ?_
    ⟨Nat.le_of_eq same.created.symm, fun j k _ at_j => ⟨?_, same.next⟩, fun j k s other at_j => ?_,
      fun k _ _ => ?_⟩ ⟨serves.distinct, ?_, ?_⟩
  · refine ⟨same.next, same.history, ?_, by rw [chans], by rw [same.subs], fun _ => flying k,
      fun j s at_j => .inr (still j k s at_j fun eq => here ?_)⟩
    · rw [feeds, update_of_ne here]
    · exact congrArg (fun entry => entry.2.1) eq
  · refine ok.move same.next same.history (by rw [same.subs]) (by rw [chans])
      ((congrFun feeds ch).trans (update_self ..)) rfl rfl ok.missed_le (fun s missed => ?_) ?_ ?_
      fun after cursor => ?_
    · rcases ok.missed s missed with counted | ⟨j, waits⟩
      · exact .inl (mem_append_left _ counted)
      · by_cases last : (j, ch, s) = (t, ch, ev.sequence)
        · cases last
          exact .inl (mem_append_right _ (mem_singleton_self _))
        · exact .inr ⟨j, still j ch s waits last⟩
    · rw [chans, flying]
      exact ok.line
    · rw [chans]
      exact ok.sorted
    · obtain ⟨waiting, head, replay⟩ := ok.stream after cursor
      exact ⟨waiting, head, replay⟩
  · rw [offering]
    exact at_j
  · exact still j k s at_j fun eq => other (congrArg fst eq)
  · by_cases here : k = ch <;> simp [feeds, here]
  · rw [offering]
    exact serves.offering
  · rw [same.next]
    exact serves.newest

/-! ### The streams -/

/-- A step of the thread that owns the subscription `ch`. -/
theorem own (owner : (w.feeds ch).owner = t) (same : SameJournal w w')
    (offering : w'.offering = w.offering) (counting : w'.counting = w.counting)
    (others : ∀ k, k ≠ ch → w'.feeds k = w.feeds k ∧ w'.chans k = w.chans k) (ok : ChanOk w' ch)
    (knows : phase'.Knows w' t) : Delivering w' (phases.set t phase') := by
  refine inv.rebuild same (offering ▸ .refl _) (fun k here => ⟨same.next, same.history,
      (others k here).1, (others k here).2, by rw [same.subs],
      fun _ => by simp only [inflight, offering, same.next],
      fun j s at_j => .inr (counting ▸ at_j)⟩) ok ⟨Nat.le_of_eq same.created.symm,
    fun j k _ at_j => ⟨?_, same.next⟩, fun j k s _ at_j => counting ▸ at_j, fun k _ other => ?_⟩ knows
  · rw [offering]
    exact at_j
  · have ne : k ≠ ch := fun here => other (here ▸ owner)
    simp [(others k ne).1]

/-- A step in which the owner of a channel only moves its stream. -/
theorem restream {head : Option Nat} {replayed : Bool} {todo sent : List Nat}
    (owns : Owns w t ch (some after))
    (moved : f = { w.feeds ch with head := head, replayed := replayed, todo := todo, sent := sent })
    (stream : Stream w f after)
    (knows : ∀ w', Owns w' t ch (some after) → w'.feeds ch = f → phase'.Knows w' t) :
    Delivering (w.setFeed ch f) (phases.set t phase') := by
  have feed : (w.setFeed ch f).feeds ch = f := update_self ..
  subst moved
  refine inv.own owns.owner ⟨rfl, rfl, rfl, rfl, rfl⟩ rfl rfl
    (fun k ne => ⟨update_of_ne ne .., rfl⟩) ?_ (knows _ ⟨owns.known, ?_, ?_⟩ feed)
  · refine chanOk_of_feed (inv.chans ch owns.known) ⟨rfl, rfl, rfl, rfl, rfl⟩ rfl rfl feed rfl rfl rfl
      rfl rfl rfl fun after' cursor => ?_
    obtain rfl : after = after' := Option.some.inj (owns.cursor.symm.trans cursor)
    exact stream
  · rw [feed]
    exact owns.owner
  · rw [feed]
    exact owns.cursor

theorem latest (thread : phases[t]? = some (.opened ch after))
    (step : perform t c (.latest ch) w = some (head, w')) :
    Delivering w' (phases.set t (.headed ch after head)) := by
  obtain ⟨owns, headless⟩ : Owns w t ch (some after) ∧ _ := inv.threads t _ thread
  cases step
  have ok := inv.chans ch owns.known
  have stream := ok.stream after owns.cursor
  have unreplayed : (w.feeds ch).replayed = false := by
    cases replayed : (w.feeds ch).replayed with
    | false => rfl
    | true =>
      obtain ⟨h, headed, -⟩ := stream.replay replayed
      rw [headless] at headed
      cases headed
  refine inv.restream owns rfl ⟨stream.waiting, fun h at_h => ?_, fun replayed => ?_⟩
    fun w' owns feed => ⟨owns, ?_, ?_⟩
  · cases at_h
    exact ⟨ok.opened_le, Nat.le_refl _⟩
  · cases unreplayed.symm.trans replayed
  · rw [feed]
  · rw [feed]
    exact unreplayed

theorem since {events : List Stamped} (thread : phases[t]? = some (.headed ch after head))
    (step : perform t c (.since ch after 0) w = some (events, w')) :
    Delivering w' (phases.set t
      (.sending ch after head (events.filter fun ev => decide (ev.sequence ≤ head)))) := by
  obtain ⟨owns, headed, unreplayed⟩ : Owns w t ch (some after) ∧ _ ∧ _ := inv.threads t _ thread
  have read : perform t c (.since ch after 0) w = some (retained w after 0,
      w.setFeed ch { w.feeds ch with
        replayed := true
        todo := ((retained w after 0).filter fun ev =>
          decide (ev.sequence ≤ head)).map (·.sequence) }) := by
    simp [perform, headed]
  obtain ⟨rfl, rfl⟩ := mk.inj (Option.some.inj (read.symm.trans step))
  have ok := inv.chans ch owns.known
  have stream := ok.stream after owns.cursor
  obtain ⟨sent, -, taken, kept⟩ := stream.waiting unreplayed
  have replay := inv.filed.replay (stream.head head headed).2 ok.floor_le kept
  refine inv.restream owns rfl ⟨(nomatch ·), stream.head, fun _ => ⟨head, headed, ?_⟩⟩
    fun w' owns feed => ⟨owns, ?_, ?_, ?_⟩
  · simp [sent, taken, replay]
  · rw [feed, headed]
  · rw [feed]
  · rw [feed]

/-- A step that changes nothing but the thread's place. -/
theorem turn (thread : phases[t]? = some phase)
    (knows : phase.Knows w t → phase'.Knows w t) : Delivering w (phases.set t phase') := by
  refine { inv with threads := inv.threads_of ?_ (knows (inv.threads t _ thread)) }
  exact ⟨Nat.le_refl _, fun _ _ _ mem => ⟨mem, rfl⟩, fun _ _ _ _ mem => mem,
    fun _ _ _ => ⟨rfl, rfl, rfl, rfl, rfl⟩⟩

theorem send {evs : List Stamped} {b : Bool}
    (thread : phases[t]? = some (.sending ch after head evs)) (first : evs.head? = some ev)
    (step : perform t c (.send ch ev) w = some (b, w')) :
    Delivering w' (phases.set t
      (if b then .sending ch after head evs.tail else .leaving ch)) := by
  obtain ⟨owns, headed, replayed, todo⟩ : Owns w t ch (some after) ∧ _ ∧ _ ∧ _ :=
    inv.threads t _ thread
  obtain ⟨rest, rfl⟩ := head?_eq_some_iff.mp first
  simp only [perform] at step
  split at step <;> cases step
  · exact inv.turn thread fun knows => knows.1.known
  · have ok := inv.chans ch owns.known
    have stream := ok.stream after owns.cursor
    obtain ⟨h, headed', replay⟩ := stream.replay replayed
    refine inv.restream owns rfl ⟨fun waits => ?_, stream.head, fun _ => ⟨h, headed', ?_⟩⟩
      fun w' owns feed => ⟨owns, ?_, ?_, ?_⟩
    · cases replayed.symm.trans waits
    · rw [← replay, todo]
      simp
    · rw [feed, headed]
    · rw [feed, replayed]
    · simp [feed, todo]

/-- The owner of a subscription takes an event; if it is a stream, it has sent everything
before. -/
theorem take (owns : Owns w t ch cursor)
    (ready : ∀ after, cursor = some after → (w.feeds ch).replayed = true ∧ (w.feeds ch).todo = [])
    (received : Received ch w b w') (some : b = some ev) (knows : phase'.Knows w' t) :
    Delivering w' (phases.set t phase') := by
  cases received with
  | none => cases some
  | some queue =>
    have ok := inv.chans ch owns.known
    refine inv.own owns.owner ⟨rfl, rfl, rfl, rfl, rfl⟩ rfl rfl
      (fun k ne => ⟨update_of_ne ne .., update_of_ne ne ..⟩) ?_ knows
    refine chanOk_of_feed ok ⟨rfl, rfl, rfl, rfl, rfl⟩ rfl rfl (update_self ..)
      rfl rfl rfl rfl ?_ ?_ ?_
    · simp [setFeed, setChan]
    · simp [setFeed, setChan, queue]
    · intro after at_after
      obtain ⟨replayed, todo⟩ := ready after (owns.cursor.symm.trans at_after)
      have stream := ok.stream after at_after
      obtain ⟨h, headed, replay⟩ := stream.replay replayed
      refine ⟨fun waits => ?_, stream.head, fun _ => ⟨h, headed, ?_⟩⟩
      · cases replayed.symm.trans waits
      · rw [todo, append_nil] at replay
        rw [replay, headed, at_after]
        simp [unsent, filter_cons]

theorem receive (thread : phases[t]? = some (.sending ch after head []))
    (step : perform t c (.receive ch) w = some (b, w')) :
    Delivering w' (phases.set t
      ((FeedPhase.sending ch after head []).after (.receive ch) b)) := by
  obtain ⟨owns, headed, replayed, todo⟩ : Owns w t ch (some after) ∧ _ ∧ _ ∧ _ :=
    inv.threads t _ thread
  have received := receive_inv step
  cases received with
  | none => exact inv.turn thread fun knows => knows.1.known
  | some queue =>
    refine inv.take owns (fun _ _ => ⟨replayed, todo⟩) (.some queue) rfl ?_
    refine ⟨⟨owns.known, ?_, ?_⟩, ?_, ?_, ?_⟩ <;>
      simp only [setFeed, update_self]
    · exact owns.owner
    · exact owns.cursor
    · exact headed
    · exact replayed
    · simp only [headed, owns.cursor, Option.getD_some]
      split <;> rfl

theorem receive_plain (thread : phases[t]? = some (.plain ch))
    (step : perform t c (.receive ch) w = some (b, w')) :
    Delivering w' (phases.set t (.plain ch)) := by
  have owns : Owns w t ch none := inv.threads t _ thread
  have received := receive_inv step
  cases received with
  | none => exact inv.turn thread id
  | some queue =>
    refine inv.take owns (fun _ cursor => nomatch cursor) (.some queue) rfl ?_
    refine ⟨owns.known, ?_, ?_⟩ <;> simp only [setFeed, update_self]
    · exact owns.owner
    · exact owns.cursor

/-! ### Subscribing and cancelling -/

/-- A channel that nobody has seen an event for yet. -/
theorem chanOk_new (made : Subscribed t cursor ch w w') : ChanOk w' ch := by
  have floor : w'.floor = w.floor := by rw [floor, made.next, made.history, floor]
  have silent : w'.inflight ch = [] := by
    have unseen : ch ∉ w.offering.map snd := by
      intro mem
      obtain ⟨entry, copied, rfl⟩ := mem_map.mp mem
      exact Nat.lt_irrefl _ (made.fresh ▸ inv.copied entry copied)
    rw [inflight, made.offering, if_neg unseen]
  have member : ch ∈ w'.subs := by simp [made.subs]
  refine ⟨?_, ?_, ?_, ?_, ?_, by simp [made.closed, member], fun _ => ?_, ?_, ?_⟩ <;>
    rw [made.feed]
  · exact Nat.le_of_eq floor.symm
  · exact Nat.sub_le ..
  · exact Nat.le_of_eq made.next.symm
  · simp
  · simp
  · simp [made.queue, silent, made.next, span_eq_nil (Nat.le_refl w.next)]
  · simp [made.queue]
  · intro after _
    refine ⟨fun _ => ⟨rfl, rfl, rfl, ?_⟩, fun _ => (nomatch ·), (nomatch ·)⟩
    exact floor ▸ Nat.le_max_right ..

theorem subscribe (step : perform t c (.subscribe buffer cursor) w = some (ch, w')) :
    Delivering w' (phases.set t (FeedPhase.idle.after (.subscribe buffer cursor) ch)) := by
  have made := subscribe_inv step
  have fresh : ∀ k, k < w.created → k ≠ ch := fun k below => made.fresh ▸ Nat.ne_of_lt below
  have owns : Owns w' t ch cursor := by
    refine ⟨?_, ?_, ?_⟩
    · rw [made.created, made.fresh]
      exact Nat.lt_succ_self _
    · rw [made.feed]
    · rw [made.feed]
  refine ⟨?_, ?_, ?_, made.offering ▸ inv.single, ?_, fun k below => ?_, ?_⟩
  · exact inv.filed.of_same made.next made.capacity made.history
  · rw [made.subs]
    refine nodup_append.mpr ⟨inv.distinct, by simp, fun a mem b last => ?_⟩
    rw [mem_singleton.mp last]
    exact fresh a (inv.known a mem)
  · intro k mem
    rw [made.subs] at mem
    rcases mem_append.mp mem with old | last
    · exact made.created ▸ (inv.known k old).trans (Nat.lt_succ_self _)
    · rw [mem_singleton.mp last]
      exact owns.known
  · intro entry mem
    rw [made.offering] at mem
    exact made.created ▸ (inv.copied entry mem).trans (Nat.lt_succ_self _)
  · rw [made.created] at below
    rcases Nat.lt_succ_iff_lt_or_eq.mp below with old | rfl
    · have other := fresh k old
      refine (inv.chans k old).of_same ⟨made.next, made.history, (made.others k other).1,
        (made.others k other).2, ?_, fun _ => ?_, fun _ _ mem => .inr (made.counting ▸ mem)⟩
      · simp [made.subs, other]
      · simp only [inflight, made.offering, made.next]
    · exact made.fresh ▸ inv.chanOk_new made
  · refine inv.threads_of ⟨made.created ▸ Nat.le_succ _, fun j k _ mem => ⟨?_, made.next⟩,
      fun _ _ _ _ mem => made.counting ▸ mem, fun k below _ => ?_⟩ ?_
    · rw [made.offering]
      exact mem
    · rw [(made.others k (fresh k below)).1]
      exact ⟨rfl, rfl, rfl, rfl, rfl⟩
    · cases cursor with
      | none => exact owns
      | some after => exact ⟨owns, by rw [made.feed]⟩

theorem cancel (thread : phases[t]? = some phase)
    (known : phase.Knows w t → ch < w.created) (stays : ∀ v : World, v.feeds = w.feeds → v.created =
    w.created → phase.Knows w t → phase'.Knows v t)
    (step : perform t c (.cancel ch) w = some ((), w')) : Delivering w' (phases.set t phase') := by
  have knows := inv.threads t _ thread
  simp only [perform] at step
  split at step <;> obtain ⟨-, rfl⟩ := some_pair step
  case isFalse => exact inv.turn thread (stays w rfl rfl)
  refine ⟨inv.filed.of_same rfl rfl rfl, inv.distinct.erase ch,
    fun k mem => inv.known k (mem_of_mem_erase mem), inv.single, inv.copied,
    fun k below => ?_, ?_⟩
  · by_cases here : k = ch
    · subst here
      have ok := inv.chans k below
      have closed : k ∉ w.subs.erase k := inv.distinct.not_mem_erase
      refine ⟨ok.floor_le, ok.floor_opened, ok.opened_le, ok.missed_le, ok.missed, ?_,
        fun mem => absurd mem closed, ?_, fun after cursor => ?_⟩
      · simp [setChan, closed]
      · simpa [setChan] using ok.sorted
      · have stream := ok.stream after cursor
        exact ⟨stream.waiting, stream.head, stream.replay⟩
    · exact (inv.chans k below).of_same ⟨rfl, rfl, rfl, update_of_ne here ..,
        mem_erase_of_ne here, fun _ => rfl, fun _ _ mem => .inr mem⟩
  · exact inv.threads_of ⟨Nat.le_refl _, fun _ _ _ mem => ⟨mem, rfl⟩, fun _ _ _ _ mem => mem,
      fun _ _ _ => ⟨rfl, rfl, rfl, rfl, rfl⟩⟩ (stays _ rfl rfl knows)

end Delivering

/-- The runs in which an `Append` takes its sequence only when every other one has offered its
event to all it copied, and evicts nothing above the cursor of a stream that has not read the
history yet. -/
def orderly : Admission Op World := fun _ op w _ _ =>
  match op with
  | .append _ => w.offering.isEmpty && (List.range w.created).all fun ch =>
      match (w.feeds ch).cursor with
      | some after => (w.feeds ch).replayed || w.evicted.all fun ev => decide (ev.sequence ≤ after)
      | none => true
  | _ => true

theorem orderly_append {ev : Event} {b : Stamped × List Nat}
    (admitted : orderly _ (.append ev) w b w' = true) :
    w.offering = [] ∧ ∀ ch < w.created, ∀ after, (w.feeds ch).cursor = some after →
      (w.feeds ch).replayed = false → ∀ ev ∈ w.evicted, ev.sequence ≤ after := by
  simp only [orderly, Bool.and_eq_true, List.isEmpty_iff, all_eq_true, mem_range]
    at admitted
  refine ⟨admitted.1, fun ch below after cursor unread ev mem => ?_⟩
  have spared := admitted.2 ch below
  rw [cursor] at spared
  simp only [unread, Bool.false_or, all_eq_true, decide_eq_true_eq] at spared
  exact spared ev mem

namespace Delivering

variable {phases : List FeedPhase}

theorem step {β : Type} {op : Op β} {b : β} (inv : Delivering w phases)
    (thread : phases[t]? = some phase) (ok : phase.allows op)
    (step : perform t c op w = some (b, w')) (admitted : orderly β op w b w' = true) :
    Delivering w' (phases.set t (phase.after op b)) := by
  cases op with
  | append ev =>
    cases phase with
    | idle =>
      obtain ⟨calm, spares⟩ := orderly_append admitted
      obtain ⟨newest, copies⟩ := append_inv step
      exact inv.append calm spares newest copies
    | _ => exact False.elim ok
  | offer ch ev =>
    cases phase with
    | offering ev' chs =>
      obtain ⟨rfl, first⟩ := ok
      obtain ⟨same, offering, outcome⟩ := offer_inv step
      exact inv.offer thread first same offering outcome
    | _ => exact False.elim ok
  | countDrop ch ev =>
    cases phase with
    | counting ev' ch' chs =>
      obtain ⟨rfl, rfl⟩ := ok
      exact inv.countDrop thread step
    | _ => exact False.elim ok
  | latest ch =>
    cases phase with
    | opened ch' after =>
      obtain rfl : ch = ch' := ok
      exact inv.latest thread step
    | _ => exact False.elim ok
  | since ch after limit =>
    cases phase with
    | headed ch' after' head =>
      obtain ⟨rfl, rfl, rfl⟩ := ok
      exact inv.since thread step
    | _ => exact False.elim ok
  | subscribe buffer cursor =>
    cases phase with
    | idle => exact inv.subscribe step
    | _ => exact False.elim ok
  | cancel ch =>
    cases phase with
    | sending ch' after head evs =>
      obtain rfl : ch = ch' := ok
      exact inv.cancel thread (fun knows => knows.1.known)
        (fun v _ created knows => show ch < v.created from created ▸ knows.1.known) step
    | plain ch' =>
      obtain rfl : ch = ch' := ok
      exact inv.cancel thread (fun knows => knows.known) (fun v feeds created knows =>
        ⟨created.symm ▸ knows.known, feeds ▸ knows.owner, feeds ▸ knows.cursor⟩) step
    | leaving ch' =>
      obtain rfl : ch = ch' := ok
      exact inv.cancel thread id
        (fun v _ created knows => show ch < v.created from created ▸ knows) step
    | _ => exact False.elim ok
  | receive ch =>
    cases phase with
    | sending ch' after head evs =>
      obtain ⟨rfl, rfl⟩ := ok
      exact inv.receive thread step
    | plain ch' =>
      obtain rfl : ch = ch' := ok
      exact inv.receive_plain thread step
    | _ => exact False.elim ok
  | send ch ev =>
    cases phase with
    | sending ch' after head evs =>
      obtain ⟨rfl, first⟩ := ok
      exact inv.send thread first step
    | _ => exact False.elim ok

end Delivering

/-- What a stream has sent is in order. -/
theorem ChanOk.sent_sorted (ok : ChanOk w ch)
    (cursor : (w.feeds ch).cursor = some after) : (w.feeds ch).sent.Pairwise (· < ·) := by
  have stream := ok.stream after cursor
  cases replayed : (w.feeds ch).replayed with
  | false =>
    rw [(stream.waiting replayed).1]
    exact .nil
  | true =>
    obtain ⟨h, -, replay⟩ := stream.replay replayed
    have taken := (pairwise_append.mp ok.sorted).1
    have all : ((w.feeds ch).sent ++ (w.feeds ch).todo).Pairwise (· < ·) := by
      rw [replay]
      refine pairwise_append.mpr ⟨span_sorted .., taken.filter _, fun a low b live => ?_⟩
      have above := (mem_filter.mp live).2
      simp only [Bool.and_eq_true, decide_eq_true_eq] at above
      exact Nat.lt_of_le_of_lt (mem_span.mp low).2 above.1
    exact (pairwise_append.mp all).1

/-- A stream that has caught up: it is open, it has sent what it read, its channel is empty and
no `Append` has still to serve it. -/
structure CaughtUp (w : World) (ch : Nat) : Prop where
  subscribed : ch ∈ w.subs
  replayed : (w.feeds ch).replayed = true
  idle : (w.feeds ch).todo = []
  empty : (w.chans ch).queue = []
  served : ∀ entry ∈ w.offering, entry.2 ≠ ch
  tallied : ∀ entry ∈ w.counting, entry.2.1 ≠ ch

/-- What a stream that has caught up has sent. -/
theorem ChanOk.mem_sent {s : Nat} (ok : ChanOk w ch)
    (cursor : (w.feeds ch).cursor = some after) (done : CaughtUp w ch) (above : after < s)
    (due : (w.feeds ch).floor < s ∧ s ≤ w.next) (undropped : s ∉ (w.feeds ch).counted) :
    s ∈ (w.feeds ch).sent := by
  have stream := ok.stream after cursor
  obtain ⟨h, headed, replay⟩ := stream.replay done.replayed
  rw [done.idle, append_nil] at replay
  rw [replay, mem_append]
  by_cases early : s ≤ h
  · exact .inl (mem_span.mpr ⟨Nat.max_lt.mpr ⟨above, due.1⟩, early⟩)
  · have late : h < s := Nat.lt_of_not_le early
    have silent : w.inflight ch = [] := by
      refine if_neg fun mem => ?_
      obtain ⟨entry, copied, same⟩ := mem_map.mp mem
      exact done.served entry copied same
    have unmissed : s ∉ (w.feeds ch).missed := by
      intro missed
      rcases ok.missed s missed with counted | ⟨t, counting⟩
      · exact undropped counted
      · exact done.tallied _ counting rfl
    have line := ok.line done.subscribed
    rw [done.empty, silent, map_nil, append_nil, append_nil] at line
    have opened := (stream.head h headed).1
    refine .inr (mem_filter.mpr ⟨?_, by simp [late, above]⟩)
    rw [line]
    exact mem_filter.mpr ⟨mem_span.mpr ⟨Nat.lt_of_le_of_lt opened late, due.2⟩,
      by simpa using unmissed⟩

/-- Any number of writers, streams and other subscribers in any orderly run from any journal:
each stream sends increasing sequences, and one that has caught up has sent exactly once every
event above its cursor that was retained when it subscribed or appended later and not counted
as dropped. -/
theorem stream_resumes (capacity next : Nat) (history : List Stamped)
    (filed : Filed (.initial capacity next history)) (pool : Pool Op World)
    (reach : Pool.Reach machine Call.program orderly ⟨.initial capacity next history, []⟩ pool)
    (ch after : Nat) (known : ch < pool.world.created)
    (cursor : (pool.world.feeds ch).cursor = some after) :
    (pool.world.feeds ch).sent.Pairwise (· < ·) ∧
      (CaughtUp pool.world ch → ∀ s, after < s →
        (pool.world.feeds ch).floor < s ∧ s ≤ pool.world.next →
        s ∉ (pool.world.feeds ch).counted → (pool.world.feeds ch).sent.count s = 1) := by
  have init : Delivering (.initial capacity next history) [] :=
    ⟨filed, nodup_nil, forall_mem_nil _, nodup_nil, forall_mem_nil _,
      fun ch below => absurd below (Nat.not_lt_zero _), fun t phase at_t => by simp at at_t⟩
  obtain ⟨phases, inv, -⟩ := invariant feeding (fun _ => True) .idle Delivering
    program_feeding (fun w phases inv => inv.spawn)
    (fun op w w' phases t phase c b inv thread ok step admitted =>
      ⟨trivial, inv.step thread ok step admitted⟩) init .nil reach
  have ok := inv.chans ch known
  have sorted := ok.sent_sorted cursor
  refine ⟨sorted, fun done s above due undropped => ?_⟩
  have distinct : (pool.world.feeds ch).sent.Nodup := sorted.imp Nat.ne_of_lt
  exact count_eq_one_of_mem distinct (ok.mem_sent cursor done above due undropped)

/-- Two writers take their sequences in one order and publish in the other. -/
def overtakingRun : List (Move Call Choice) :=
  [.spawn (.watchEvents 0 2), .step 0 {}, .step 0 {}, .step 0 {},
    .spawn (.append { kind := .log }), .spawn (.append { kind := .log }),
    .step 1 { order := [0] }, .step 2 { order := [0] }, .step 2 {}, .step 1 {},
    .step 0 {}, .step 0 {}, .step 0 {}, .step 0 {}]

/-- A writer evicts the only retained event after a stream has subscribed and before it reads
the history. -/
def evictingRun : List (Move Call Choice) :=
  [.spawn (.append { kind := .log }), .step 0 {}, .spawn (.watchEvents 0 1), .step 1 {},
    .spawn (.append { kind := .log }), .step 2 { order := [0] }, .step 2 {}, .step 1 {},
    .step 1 {}, .step 1 {}, .step 1 {}]

/-- Without the condition a stream can send out of order, and it can leave out an event that
was retained when it opened and not dropped. -/
theorem overtaken_events_are_sent_late :
    (∃ pool, Pool.Reach machine Call.program everything ⟨.initial 512 0 [], []⟩ pool ∧
      (pool.world.feeds 0).sent = [2, 1]) ∧
    ∃ pool, Pool.Reach machine Call.program everything ⟨.initial 1 0 [], []⟩ pool ∧
      (pool.world.feeds 0).floor = 0 ∧ (pool.world.feeds 0).sent = [2] ∧
      (pool.world.feeds 0).counted = [] := by
  obtain ⟨late, overtook, sent⟩ := Option.map_eq_some_iff.mp
    (show (exec machine Call.program everything ⟨.initial 512 0 [], []⟩ overtakingRun).map
      (fun pool => (pool.world.feeds 0).sent) = some [2, 1] from rfl)
  obtain ⟨lost, evicted, lacks⟩ := Option.map_eq_some_iff.mp
    (show (exec machine Call.program everything ⟨.initial 1 0 [], []⟩ evictingRun).map
      (fun pool => ((pool.world.feeds 0).floor, (pool.world.feeds 0).sent,
        (pool.world.feeds 0).counted)) = some (0, [2], []) from rfl)
  simp only [Prod.mk.injEq] at lacks
  exact ⟨⟨late, reach_of_exec .refl overtook, sent⟩,
    lost, reach_of_exec .refl evicted, lacks⟩

/-- A journal of two events with room for two; the client has seen the first.  The stream
replays the second and then sends the third, which evicts the first. -/
def resumingRun : List (Move Call Choice) :=
  [.spawn (.watchEvents 1 1), .step 0 {}, .step 0 {}, .step 0 {}, .step 0 {},
    .spawn (.append { kind := .log }), .step 1 { order := [0] }, .step 1 {},
    .step 0 {}, .step 0 {}]

def resumed : World := .initial 2 2 [⟨1, { kind := .log }⟩, ⟨2, { kind := .log }⟩]

theorem resumed_stream_sends_the_rest :
    Filed resumed ∧ ∃ pool, Pool.exec machine Call.program orderly ⟨resumed, []⟩ resumingRun =
        some pool ∧
      CaughtUp pool.world 0 ∧ (pool.world.feeds 0).sent.count 2 = 1 ∧
      (pool.world.feeds 0).sent.count 3 = 1 := by
  have filed : Filed resumed := ⟨by decide, by decide, by decide, by decide⟩
  obtain ⟨pool, ran, shows⟩ := Option.map_eq_some_iff.mp
    (show (exec machine Call.program orderly ⟨resumed, []⟩ resumingRun).map
      (fun pool => (pool.world.created, pool.world.subs, (pool.world.feeds 0).replayed,
        (pool.world.feeds 0).todo, (pool.world.chans 0).queue, pool.world.offering,
        pool.world.counting, (pool.world.feeds 0).cursor, (pool.world.feeds 0).floor,
        pool.world.next, (pool.world.feeds 0).counted)) =
      some (1, [0], true, [], [], [], [], some 1, 0, 3, []) from rfl)
  simp only [Prod.mk.injEq] at shows
  obtain ⟨created, subs, replayed, todo, queue, offering, counting, cursor, floor, next,
    counted⟩ := shows
  have done : CaughtUp pool.world 0 :=
    ⟨by simp [subs], replayed, todo, queue, by simp [offering], by simp [counting]⟩
  obtain ⟨-, once⟩ := stream_resumes 2 2 _ filed pool (reach_of_exec .refl ran) 0 1
    (by simp [created]) cursor
  exact ⟨filed, pool, ran, done, once done 2 (by decide) (by simp [floor, next]) (by simp [counted]),
    once done 3 (by decide) (by simp [floor, next]) (by simp [counted])⟩

end Sora.Journal
