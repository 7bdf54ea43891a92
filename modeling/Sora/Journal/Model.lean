import Sora.Session.State
import Sora.Lib.Prog

/-!
# The journal and its subscribers

`Append`, `Subscribe` with its cancel function and `WatchEvents` as programs over the lock
sections of the journal and the operations on its channels.  Beside the fields of the source
the world keeps what a run has done so far: which channels a running `Append` has copied and
not offered its event to yet, and what each stream has received and sent.
-/

namespace Sora.Journal

open Sora.Lib Sora.Session

/-- An event with the sequence that the journal gave it. -/
structure Stamped where
  sequence : Nat
  event : Event

/-- A buffered channel. -/
structure Chan where
  buffer : Nat
  queue : List Stamped
  closed : Bool

/-- What has happened to one subscription. -/
structure Feed where
  /-- The thread that subscribed. -/
  owner : Nat
  /-- The sequence that the client of a stream named. -/
  cursor : Option Nat
  /-- The newest sequence at the subscription. -/
  opened : Nat
  /-- The newest sequence that was not retained at the subscription. -/
  floor : Nat
  head : Option Nat := none
  replayed : Bool := false
  /-- Sequences received from the channel, in this order. -/
  taken : List Nat := []
  /-- Sequences that the stream has still to send before it receives again. -/
  todo : List Nat := []
  sent : List Nat := []
  /-- Sequences that found the channel full, and those that were counted for it. -/
  missed : List Nat := []
  counted : List Nat := []

structure World where
  next : Nat
  capacity : Nat
  history : List Stamped
  subs : List Nat
  dropped : Nat
  chans : Nat → Chan
  created : Nat
  /-- Whether somebody sent on a closed channel. -/
  panicked : Bool
  feeds : Nat → Feed
  /-- The threads in `Append` with the channels they have still to offer their event to. -/
  offering : List (Nat × Nat)
  /-- The threads in `Append` that have still to count a drop, with the channel and sequence. -/
  counting : List (Nat × Nat × Nat)

/-- A journal without subscribers. -/
def World.initial (capacity next : Nat) (history : List Stamped) : World where
  next := next
  capacity := capacity
  history := history
  subs := []
  dropped := 0
  chans _ := ⟨0, [], false⟩
  created := 0
  panicked := false
  feeds _ := { owner := 0, cursor := none, opened := 0, floor := 0 }
  offering := []
  counting := []

/-- What the environment decides: the order in which a map is walked, whether the client has
gone away. -/
structure Choice where
  order : List Nat := []
  gone : Bool := false

/-- The atomic operations.  The channel in `latest` and `since` only names the subscription
for which the run is recorded. -/
inductive Op : Type → Type
  | append (ev : Event) : Op (Stamped × List Nat)
  | offer (ch : Nat) (ev : Stamped) : Op Bool
  | countDrop (ch : Nat) (ev : Stamped) : Op Unit
  | since (ch after limit : Nat) : Op (List Stamped)
  | latest (ch : Nat) : Op Nat
  | subscribe (buffer : Nat) (cursor : Option Nat) : Op Nat
  | cancel (ch : Nat) : Op Unit
  | receive (ch : Nat) : Op (Option Stamped)
  | send (ch : Nat) (ev : Stamped) : Op Bool

namespace World

def setChan (ch : Nat) (c : Chan) (w : World) : World :=
  { w with chans := Function.update w.chans ch c }

def setFeed (ch : Nat) (f : Feed) (w : World) : World :=
  { w with feeds := Function.update w.feeds ch f }

/-- History after an event, trimmed to the capacity. -/
def keep (w : World) (ev : Stamped) : List Stamped :=
  let history := w.history ++ [ev]
  history.drop (history.length - w.capacity)

end World

/-- `unsent`. -/
def unsent (head after : Nat) (ev : Stamped) : Bool :=
  decide (head < ev.sequence) && decide (after < ev.sequence)

/-- `Since` on a history. -/
def retained (w : World) (after limit : Nat) : List Stamped :=
  let limit := if limit = 0 ∨ w.capacity < limit then w.capacity else limit
  (w.history.filter fun ev => decide (after < ev.sequence)).take limit

open World in
/-- One operation of thread `t`. -/
def perform {β : Type} (t : Nat) (c : Choice) (op : Op β) (w : World) : Option (β × World) :=
  match op with
  | .append ev =>
    let stamped : Stamped := ⟨w.next + 1, ev⟩
    if c.order.isPerm w.subs then
      some ((stamped, c.order),
        { w with
          next := w.next + 1
          history := w.keep stamped
          offering := w.offering ++ c.order.map fun ch => (t, ch) })
    else none
  | .offer ch ev =>
    let chan := w.chans ch
    let w' := { w with offering := w.offering.filter (· != (t, ch)) }
    if chan.closed then some (true, { w' with panicked := true })
    else if chan.queue.length < chan.buffer then
      some (true, w'.setChan ch { chan with queue := chan.queue ++ [ev] })
    else
      let feed := w.feeds ch
      some (false, { w'.setFeed ch { feed with missed := feed.missed ++ [ev.sequence] } with
        counting := w.counting ++ [(t, ch, ev.sequence)] })
  | .countDrop ch ev =>
    let feed := w.feeds ch
    some ((), { w.setFeed ch { feed with counted := feed.counted ++ [ev.sequence] } with
      dropped := w.dropped + 1
      counting := w.counting.filter (· != (t, ch, ev.sequence)) })
  | .since ch after limit =>
    let events := retained w after limit
    let feed := w.feeds ch
    let replay := events.filter fun ev => decide (ev.sequence ≤ feed.head.getD 0)
    some (events, w.setFeed ch { feed with replayed := true, todo := replay.map (·.sequence) })
  | .latest ch => some (w.next, w.setFeed ch { w.feeds ch with head := some w.next })
  | .subscribe buffer cursor =>
    let ch := w.created
    some (ch,
      { (w.setChan ch ⟨if buffer = 0 then 64 else buffer, [], false⟩).setFeed ch
          { owner := t, cursor := cursor, opened := w.next,
            floor := w.next - w.history.length } with
        subs := w.subs ++ [ch]
        created := w.created + 1 })
  | .cancel ch =>
    if ch ∈ w.subs then
      some ((), { w.setChan ch { w.chans ch with closed := true } with subs := w.subs.erase ch })
    else some ((), w)
  | .receive ch =>
    if c.gone then some (none, w)
    else
      match (w.chans ch).queue with
      | [] => if (w.chans ch).closed then some (none, w) else none
      | ev :: rest =>
        let feed := w.feeds ch
        let todo :=
          if unsent (feed.head.getD 0) (feed.cursor.getD 0) ev then [ev.sequence] else []
        some (some ev, (w.setChan ch { w.chans ch with queue := rest }).setFeed ch
          { feed with taken := feed.taken ++ [ev.sequence], todo := todo })
  | .send ch ev =>
    if c.gone then some (false, w)
    else
      let feed := w.feeds ch
      some (true, w.setFeed ch
        { feed with sent := feed.sent ++ [ev.sequence], todo := feed.todo.tail })

def machine : Machine Op World where
  Choice := Choice
  perform := perform

/-! ## Programs -/

/-- The loop of `Append` over the channels it has copied. -/
def publish (ev : Stamped) : List Nat → Prog Op Unit
  | [] => pure ()
  | ch :: rest => do
    if ← .op (.offer ch ev) then publish ev rest
    else do
      .op (.countDrop ch ev)
      publish ev rest

/-- `Append`. -/
def append (ev : Event) : Prog Op Unit := do
  let (ev, subs) ← .op (.append ev)
  publish ev subs

/-- The replay of `WatchEvents`: whether the client took every event. -/
def sendAll (ch : Nat) : List Stamped → Prog Op Bool
  | [] => pure true
  | ev :: rest => do
    if ← .op (.send ch ev) then sendAll ch rest else pure false

/-- The live part of `WatchEvents`, for at most `n` turns of its loop. -/
def stream (ch after head : Nat) : Nat → Prog Op Unit
  | 0 => pure ()
  | n + 1 => do
    match ← .op (.receive ch) with
    | none => pure ()
    | some ev =>
      if unsent head after ev then
        if ← .op (.send ch ev) then stream ch after head n else pure ()
      else stream ch after head n

/-- `streamBuffer`. -/
def streamBuffer : Nat := 128

/-- `WatchEvents` with `newEventFeed`, `history` and `close`. -/
def watchEvents (after turns : Nat) : Prog Op Unit := do
  let ch ← .op (.subscribe streamBuffer (some after))
  let head ← .op (.latest ch)
  let events ← .op (.since ch after 0)
  if ← sendAll ch (events.filter fun ev => decide (ev.sequence ≤ head)) then
    stream ch after head turns
  else pure ()
  .op (.cancel ch)

/-- Receiving up to `n` events. -/
def drain (ch : Nat) : Nat → Prog Op Unit
  | 0 => pure ()
  | n + 1 => do
    match ← .op (.receive ch) with
    | none => pure ()
    | some _ => drain ch n

/-- Any other subscriber, which may cancel twice. -/
def listen (buffer turns : Nat) : Prog Op Unit := do
  let ch ← .op (.subscribe buffer none)
  drain ch turns
  .op (.cancel ch)
  .op (.cancel ch)

inductive Call where
  | append (ev : Event)
  | watchEvents (after turns : Nat)
  | listen (buffer turns : Nat)

def Call.program : Call → Prog Op Unit
  | .append ev => Journal.append ev
  | .watchEvents after turns => Journal.watchEvents after turns
  | .listen buffer turns => Journal.listen buffer turns

end Sora.Journal
