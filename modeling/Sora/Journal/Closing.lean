import Sora.Journal.Model

/-!
# Sending on closed channels

An `Append` copies the channels under the lock and sends after releasing it.  As long as no
cancel closes a channel between the two, no send reaches a closed channel.
-/

namespace Sora.Journal

open Sora.Lib Sora.Session List World

/-! ## Programs -/

/-- An `Append` with the channels that it has still to offer its event to, and any other
program. -/
inductive CopyPhase where
  | idle
  | offering (chs : List Nat)
  deriving DecidableEq

@[simp] def CopyPhase.allows {β : Type} : CopyPhase → Op β → Prop
  | .offering chs, .offer ch _ => chs.head? = some ch
  | .offering _, .countDrop _ _ => True
  | .idle, .offer _ _ => False
  | .idle, _ => True
  | _, _ => False

@[simp] def CopyPhase.after {β : Type} : CopyPhase → Op β → β → CopyPhase
  | .idle, .append _ => fun b => .offering b.2
  | .offering chs, .offer _ _ => fun _ => .offering chs.tail
  | phase, _ => fun _ => phase

@[simps] def copying : Discipline Op CopyPhase where
  allowed := CopyPhase.allows
  answers _ _ _ := True
  next := CopyPhase.after

theorem publish_copying (ev : Stamped) (chs : List Nat) :
    (publish ev chs).wp copying.transformer (fun _ _ => True) (.offering chs) := by
  induction chs with
  | nil => trivial
  | cons ch rest ih => simp [publish, ih]

theorem sendAll_copying (ch : Nat) (evs : List Stamped) {Q : Bool → CopyPhase → Prop}
    (post : ∀ b, Q b .idle) : (sendAll ch evs).wp copying.transformer Q .idle := by
  induction evs with
  | nil => exact post true
  | cons ev rest ih => simp [sendAll, ih, post]

variable {Q : Unit → CopyPhase → Prop} {phase : CopyPhase} {ch t : Nat} {c : Choice}

theorem stream_copying (ch after head turns : Nat) (post : Q () .idle) :
    (stream ch after head turns).wp copying.transformer Q .idle := by
  induction turns with
  | zero => exact post
  | succ n ih => simp [stream, Option.forall, ih, post]

theorem drain_copying (ch turns : Nat) (post : Q () .idle) :
    (drain ch turns).wp copying.transformer Q .idle := by
  induction turns with
  | zero => exact post
  | succ n ih => simp [drain, Option.forall, ih, post]

theorem program_copying (call : Call) :
    copying.Follows (fun _ => True) .idle call.program := by
  unfold Discipline.Follows
  cases call with
  | append ev => simp [Call.program, append, publish_copying]
  | watchEvents after turns =>
    simp [Call.program, watchEvents, sendAll_copying, stream_copying]
  | listen buffer turns => simp [Call.program, listen, drain_copying]

/-! ## The invariant -/

/-- The runs in which no cancel closes a channel that a running `Append` has copied and not
offered its event to yet. -/
def sparesCopied : Admission Op World := fun _ op w _ _ =>
  match op with
  | .cancel ch => w.offering.all fun entry => entry.2 != ch
  | _ => true

/-- Whoever may still be sent to is open. -/
structure Open (w : World) (phases : List CopyPhase) : Prop where
  calm : w.panicked = false
  distinct : w.subs.Nodup
  known : ∀ ch ∈ w.subs, ch < w.created
  subs : ∀ ch ∈ w.subs, (w.chans ch).closed = false
  copied : ∀ entry ∈ w.offering, (w.chans entry.2).closed = false
  threads : ∀ (t : Nat) (chs : List Nat), phases[t]? = some (.offering chs) →
    chs.Nodup ∧ ∀ ch ∈ chs, (t, ch) ∈ w.offering

namespace Open

variable {w w' : World} {phases : List CopyPhase}

section

variable (inv : Open w phases)

include inv

theorem spawn : Open w (phases ++ [.idle]) := by
  refine { inv with threads := fun t chs at_t => ?_ }
  rcases getElem?_snoc_cases at_t with old | new
  · exact inv.threads t chs old
  · cases new

/-- A step that neither closes a channel nor copies or offers. -/
theorem of_quiet (thread : phases[t]? = some phase)
    (calm : w'.panicked = w.panicked) (subs : w'.subs = w.subs) (created : w'.created = w.created)
    (offering : w'.offering = w.offering)
    (closed : ∀ ch, (w'.chans ch).closed = (w.chans ch).closed) : Open w' (phases.set t phase) := by
  refine ⟨calm ▸ inv.calm, subs ▸ inv.distinct, ?_, ?_, ?_, ?_⟩
  · rw [subs, created]
    exact inv.known
  · intro ch mem
    rw [closed]
    exact inv.subs ch (subs ▸ mem)
  · intro entry mem
    rw [closed]
    exact inv.copied entry (offering ▸ mem)
  · intro j chs at_j
    rw [offering]
    rcases getElem?_set_cases at_j with ⟨rfl, rfl⟩ | ⟨-, old⟩
    · exact inv.threads j chs thread
    · exact inv.threads j chs old

theorem append {ev : Event} {b : Stamped × List Nat}
    (step : perform t c (.append ev) w = some (b, w')) :
    Open w' (phases.set t (.offering b.2)) := by
  simp only [perform] at step
  split at step
  · rename_i order
    have perm := isPerm_iff.mp order
    cases step
    refine ⟨inv.calm, inv.distinct, inv.known, inv.subs, fun entry mem => ?_,
      fun j chs at_j => ?_⟩
    · rcases mem_append.mp mem with old | new
      · exact inv.copied entry old
      · obtain ⟨ch, copied, rfl⟩ := mem_map.mp new
        exact inv.subs ch (perm.mem_iff.mp copied)
    · rcases getElem?_set_cases at_j with ⟨rfl, same⟩ | ⟨-, old⟩
      · cases same
        refine ⟨perm.nodup_iff.mpr inv.distinct, fun ch mem => ?_⟩
        exact mem_append_right _ (mem_map_of_mem mem)
      · obtain ⟨distinct, copied⟩ := inv.threads j chs old
        exact ⟨distinct, fun ch mem => mem_append_left _ (copied ch mem)⟩
  · cases step

theorem offer {ev : Stamped} {b : Bool} {chs : List Nat}
    (thread : phases[t]? = some (.offering chs)) (first : chs.head? = some ch)
    (step : perform t c (.offer ch ev) w = some (b, w')) :
    Open w' (phases.set t (.offering chs.tail)) := by
  obtain ⟨distinct, copied⟩ := inv.threads t chs thread
  obtain ⟨rest, rfl⟩ : ∃ rest, chs = ch :: rest := by
    cases chs with
    | nil => cases first
    | cons head rest =>
      cases first
      exact ⟨rest, rfl⟩
  have opened := inv.copied _ (copied ch mem_cons_self)
  have offering : w'.offering = w.offering.filter (· != (t, ch)) ∧ w'.subs = w.subs ∧
      w'.created = w.created ∧ w'.panicked = w.panicked ∧
      ∀ k, (w'.chans k).closed = (w.chans k).closed := by
    simp only [perform] at step
    rw [if_neg (by simp [opened])] at step
    split at step <;> cases step
    · refine ⟨rfl, rfl, rfl, rfl, fun k => ?_⟩
      by_cases here : k = ch
      · simp [setChan, here]
      · simp [setChan, here]
    · exact ⟨rfl, rfl, rfl, rfl, fun _ => rfl⟩
  obtain ⟨offering, subs, created, calm, closed⟩ := offering
  refine ⟨calm ▸ inv.calm, subs ▸ inv.distinct, ?_, ?_, ?_, ?_⟩
  · rw [subs, created]
    exact inv.known
  · intro k mem
    rw [closed]
    exact inv.subs k (subs ▸ mem)
  · intro entry mem
    rw [closed]
    rw [offering] at mem
    exact inv.copied entry (mem_of_mem_filter mem)
  · intro j chs at_j
    rw [offering]
    rcases getElem?_set_cases at_j with ⟨rfl, same⟩ | ⟨other, old⟩
    · cases same
      obtain ⟨fresh, distinct⟩ := nodup_cons.mp distinct
      refine ⟨distinct, fun k mem => mem_filter.mpr ⟨copied k (mem_cons_of_mem _ mem), ?_⟩⟩
      have ne : k ≠ ch := fun here => fresh (here ▸ mem)
      simpa using ne
    · obtain ⟨distinct, copied⟩ := inv.threads j chs old
      refine ⟨distinct, fun k mem => mem_filter.mpr ⟨copied k mem, ?_⟩⟩
      simp [other]

theorem subscribe {buffer b : Nat} {cursor : Option Nat} (thread : phases[t]? = some phase)
    (step : perform t c (.subscribe buffer cursor) w = some (b, w')) :
    Open w' (phases.set t phase) := by
  cases step
  have new (k : Nat) (opened : k = w.created ∨ (w.chans k).closed = false) :
      (Function.update w.chans w.created ⟨if buffer = 0 then 64 else buffer, [], false⟩ k).closed =
        false := by
    by_cases here : k = w.created
    · simp [here]
    · simpa [here] using opened
  refine ⟨inv.calm, ?_, ?_, ?_, fun entry mem => new _ (.inr (inv.copied entry mem)), ?_⟩
  · refine nodup_append.mpr ⟨inv.distinct, nodup_singleton _, fun a old b at_b => ?_⟩
    rw [mem_singleton.mp at_b]
    exact Nat.ne_of_lt (inv.known a old)
  · intro ch mem
    rcases mem_append.mp mem with old | at_ch
    · exact Nat.lt_succ_of_lt (inv.known ch old)
    · exact mem_singleton.mp at_ch ▸ Nat.lt_succ_self _
  · intro ch mem
    rcases mem_append.mp mem with old | at_ch
    · exact new ch (.inr (inv.subs ch old))
    · exact new ch (.inl (mem_singleton.mp at_ch))
  · intro j chs at_j
    rcases getElem?_set_cases at_j with ⟨rfl, rfl⟩ | ⟨-, old⟩
    · exact inv.threads j chs thread
    · exact inv.threads j chs old

theorem cancel {b : Unit} (thread : phases[t]? = some phase)
    (spares : ∀ entry ∈ w.offering, entry.2 ≠ ch)
    (step : perform t c (.cancel ch) w = some (b, w')) :
    Open w' (phases.set t phase) := by
  simp only [perform] at step
  split at step <;> cases step
  · have other (k : Nat) (ne : k ≠ ch) :
        (Function.update w.chans ch { w.chans ch with closed := true } k).closed =
          (w.chans k).closed := by
      simp [ne]
    refine ⟨inv.calm, inv.distinct.erase ch, fun k mem => inv.known k (mem_of_mem_erase mem),
      fun k mem => ?_, fun entry mem => ?_, fun j chs at_j => ?_⟩
    · obtain ⟨ne, mem⟩ := inv.distinct.mem_erase_iff.mp mem
      exact (other k ne).trans (inv.subs k mem)
    · exact (other entry.2 (spares entry mem)).trans (inv.copied entry mem)
    · rcases getElem?_set_cases at_j with ⟨rfl, rfl⟩ | ⟨-, old⟩
      · exact inv.threads j chs thread
      · exact inv.threads j chs old
  · exact inv.of_quiet thread rfl rfl rfl rfl fun _ => rfl

theorem receive {b : Option Stamped} (thread : phases[t]? = some phase)
    (step : perform t c (.receive ch) w = some (b, w')) : Open w' (phases.set t phase) := by
  simp only [perform] at step
  split at step
  · cases step
    exact inv.of_quiet thread rfl rfl rfl rfl fun _ => rfl
  · split at step
    · split at step
      · cases step
        exact inv.of_quiet thread rfl rfl rfl rfl fun _ => rfl
      · cases step
    · cases step
      refine inv.of_quiet thread rfl rfl rfl rfl fun k => ?_
      by_cases here : k = ch
      · simp [setFeed, setChan, here]
      · simp [setFeed, setChan, here]

theorem step {β : Type} {op : Op β} {b : β} (thread : phases[t]? = some phase)
    (ok : phase.allows op) (step : perform t c op w = some (b, w'))
    (admitted : sparesCopied β op w b w' = true) :
    Open w' (phases.set t (phase.after op b)) := by
  cases op with
  | append ev =>
    cases phase with
    | idle => exact inv.append step
    | offering chs => exact False.elim ok
  | offer ch ev =>
    cases phase with
    | idle => exact False.elim ok
    | offering chs => exact inv.offer thread ok step
  | countDrop ch ev | since ch after limit | latest ch =>
    cases step
    cases phase <;> exact inv.of_quiet thread rfl rfl rfl rfl fun _ => rfl
  | subscribe buffer cursor => cases phase <;> exact inv.subscribe thread step
  | cancel ch =>
    have spares : ∀ entry ∈ w.offering, entry.2 ≠ ch := by
      simpa [sparesCopied] using admitted
    cases phase <;> exact inv.cancel thread spares step
  | receive ch => cases phase <;> exact inv.receive thread step
  | send ch ev =>
    simp only [perform] at step
    split at step <;> cases step <;> cases phase <;>
      exact inv.of_quiet thread rfl rfl rfl rfl fun _ => rfl

end

end Open

/-- With any number of writers, watchers and listeners in any order: if no cancel closes a
channel that a running `Append` has copied and not offered its event to yet, then no `Append`
sends on a closed channel. -/
theorem append_never_sends_on_closed (capacity next : Nat) (history : List Stamped)
    (pool : Pool Op World)
    (reach : Pool.Reach machine Call.program sparesCopied
      ⟨.initial capacity next history, []⟩ pool) : pool.world.panicked = false := by
  have init : Open (.initial capacity next history) [] :=
    ⟨rfl, nodup_nil, forall_mem_nil _, forall_mem_nil _, forall_mem_nil _,
      fun t chs at_t => by simp at at_t⟩
  obtain ⟨phases, inv, -⟩ := Pool.invariant copying (fun _ => True) .idle Open program_copying
    (fun w phases inv => inv.spawn)
    (fun op w w' phases t phase c b inv thread ok step admitted =>
      ⟨trivial, inv.step thread ok step admitted⟩) init .nil reach
  exact inv.calm

/-- A watcher leaves while an `Append` is about to send to it. -/
def leavingRun : List (Move Call Choice) :=
  [.spawn (.listen 1 0), .step 0 {}, .spawn (.append { kind := .log }),
    .step 1 { order := [0] }, .step 0 {}, .step 1 {}]

theorem late_cancel_panics :
    ∃ pool, Pool.Reach machine Call.program everything ⟨.initial 512 0 [], []⟩ pool ∧
      pool.world.panicked = true := by
  obtain ⟨pool, ran, panicked⟩ := Option.map_eq_some_iff.mp
    (show (Pool.exec machine Call.program everything ⟨.initial 512 0 [], []⟩ leavingRun).map
      (fun pool => pool.world.panicked) = some true from rfl)
  exact ⟨pool, Pool.reach_of_exec .refl ran, panicked⟩

/-- The same calls, with the send before the cancel. -/
def stayingRun : List (Move Call Choice) :=
  [.spawn (.listen 1 0), .step 0 {}, .spawn (.append { kind := .log }),
    .step 1 { order := [0] }, .step 1 {}, .step 0 {}]

theorem early_send_is_safe :
    ∃ pool, Pool.exec machine Call.program sparesCopied ⟨.initial 512 0 [], []⟩ stayingRun =
        some pool ∧
      (pool.world.chans 0).closed = true ∧ pool.world.panicked = false := by
  obtain ⟨pool, ran, closed⟩ := Option.map_eq_some_iff.mp
    (show (Pool.exec machine Call.program sparesCopied ⟨.initial 512 0 [], []⟩ stayingRun).map
      (fun pool => (pool.world.chans 0).closed) = some true from rfl)
  exact ⟨pool, ran, closed,
    append_never_sends_on_closed 512 0 [] pool (Pool.reach_of_exec .refl ran)⟩

end Sora.Journal
