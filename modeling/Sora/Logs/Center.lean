import Mathlib.Data.List.Range
import Sora.Lib.Json
import Sora.Lib.Run

/-!
# The log record

`logs.Center` keeps the newest entries, within a bound on their number and one on their bytes.  Every
call holds the mutex of the center, so a run is a list of calls.  Times are in nanoseconds, sequence
numbers do not wrap around, and `HideDestinations` is a parameter.  `center_bounded` is about every
run; `entries_encodable` is about the runs whose messages are cut between two characters.
-/

namespace Sora.Logs

open Sora.Lib List

/-- `Entry`. -/
structure Entry where
  seq : Nat
  time : Int
  level : Int
  source : Bytes
  message : Bytes
  repeats : Nat := 1
  deriving DecidableEq

/-- What a repeat leaves as it is. -/
def Entry.record (e : Entry) : Nat × Int × Bytes × Bytes := (e.seq, e.level, e.source, e.message)

def Entry.size (e : Entry) : Int := e.message.length + e.source.length + 48

/-- `Settings`. -/
structure Settings where
  captureLevel : Int := 2
  recordDestinations : Bool := true
  maxEntries : Int := 20000
  maxBytes : Int := 8 * 2 ^ 20

def Settings.normalized (s : Settings) : Settings :=
  { s with
    captureLevel := if 1 ≤ s.captureLevel ∧ s.captureLevel ≤ 4 then s.captureLevel else 2
    maxEntries := if s.maxEntries ≤ 0 then 20000 else s.maxEntries
    maxBytes := if s.maxBytes ≤ 0 then 8 * 2 ^ 20 else s.maxBytes }

theorem Settings.normalized_pos (s : Settings) :
    0 < s.normalized.maxEntries ∧ 0 < s.normalized.maxBytes := by
  simp only [normalized]
  constructor <;> split <;> omega

/-- `Center`, with the oldest entry first. -/
structure Center where
  settings : Settings
  entries : List Entry := []
  bytes : Int := 0
  next : Nat := 1
  dropped : Nat := 0

/-- What `Write` is given, and the time of the clock. -/
structure Message where
  time : Option Int := none
  now : Int := 0
  level : Int
  source : Bytes
  text : Bytes

inductive Call where
  | write (m : Message)
  | clear
  | setSettings (s : Settings)

def maxMessageBytes : Nat := 4096

def cutMark : Bytes := ascii " [cut]"

def foldWindow : Int := 30 * 10 ^ 9

/-- The text without the line breaks at its end. -/
def Message.line (m : Message) : Bytes := m.text.rdropWhile fun b => b == 13 || b == 10

/-- The text that is stored, under these settings. -/
def Message.stored (hide : Bytes → Bytes) (s : Settings) (m : Message) : Bytes :=
  let text := if maxMessageBytes < m.line.length then m.line.take maxMessageBytes ++ cutMark else m.line
  if !s.recordDestinations && m.source != ascii "core" && m.source != ascii "subscription" then
    hide text
  else text

namespace Center

def new (s : Settings) : Center := { settings := s.normalized }

/-- The loop of `evict`, on the entries that it has not dropped. -/
def evictFrom : List Entry → Center → Center
  | [], c => { c with entries := [] }
  | e :: rest, c =>
    if c.settings.maxEntries < (e :: rest).length ∨ c.settings.maxBytes < c.bytes then
      evictFrom rest { c with bytes := c.bytes - e.size, dropped := c.dropped + 1 }
    else { c with entries := e :: rest }

def evict (c : Center) : Center := evictFrom c.entries c

def append (e : Entry) (c : Center) : Center :=
  { c with entries := c.entries ++ [e], bytes := c.bytes + e.size, next := c.next + 1 }.evict

/-- `Write`, and the entry that it tells the watchers of. -/
def write (hide : Bytes → Bytes) (m : Message) (c : Center) : Center × Option Entry :=
  if m.line = [] ∨ m.level < c.settings.captureLevel then (c, none)
  else
    let text := m.stored hide c.settings
    let time := m.time.getD m.now
    match c.entries.getLast?.filter fun last => last.source = m.source ∧ last.level = m.level ∧
        last.message = text ∧ time - last.time < foldWindow with
    | some last =>
      let last := { last with repeats := (last.repeats + 1) % 2 ^ 32, time := time }
      ({ c with entries := c.entries.dropLast ++ [last] }, some last)
    | none =>
      let e := { seq := c.next, time := time, level := m.level, source := m.source, message := text }
      (c.append e, some e)

def step (hide : Bytes → Bytes) : Call → Center → Center × Option Entry
  | .write m, c => c.write hide m
  | .clear, c => ({ c with entries := [], bytes := 0 }, none)
  | .setSettings s, c => ({ c with settings := s.normalized }.evict, none)

def run (hide : Bytes → Bytes) (calls : List Call) (c : Center) : Center :=
  calls.foldl (fun c call => (c.step hide call).1) c

/-- How many entries the limits have removed in a call. -/
def removed (c : Center) : Call → Center → Nat
  | .clear, _ => 0
  | _, c' => c.entries.length + (c'.next - c.next) - c'.entries.length

def removedBy (hide : Bytes → Bytes) : List Call → Center → Nat
  | [], _ => 0
  | call :: calls, c => c.removed call (c.step hide call).1 + removedBy hide calls (c.step hide call).1

/-! ## One call -/

variable {hide : Bytes → Bytes} {c c' : Center} {call : Call} {told : Option Entry}

/-- What a call can do. -/
inductive Moved (hide : Bytes → Bytes) (c : Center) : Call → Center × Option Entry → Prop
  | same {m : Message} : Moved hide c (.write m) (c, none)
  | folded {m : Message} (front : List Entry) (last : Entry) (repeats : Nat) (time : Int)
      (entries : c.entries = front ++ [last]) : Moved hide c (.write m)
        ({ c with entries := front ++ [{ last with repeats := repeats, time := time }] },
          some { last with repeats := repeats, time := time })
  | stored {m : Message} (e : Entry) (seq : e.seq = c.next) (source : e.source = m.source)
      (message : e.message = m.stored hide c.settings) : Moved hide c (.write m) (c.append e, some e)
  | cleared : Moved hide c .clear ({ c with entries := [], bytes := 0 }, none)
  | limited (s : Settings) :
      Moved hide c (.setSettings s) ({ c with settings := s.normalized }.evict, none)

theorem moved (hide : Bytes → Bytes) (call : Call) (c : Center) :
    Moved hide c call (c.step hide call) := by
  cases call with
  | clear => exact .cleared
  | setSettings s => exact .limited s
  | write m =>
    simp only [step, write]
    split
    · exact .same
    · split
      · rename_i last found
        have there := (Option.filter_eq_some_iff.mp found).1
        exact .folded _ last _ _ (dropLast_append_getLast? last there).symm
      · exact .stored _ rfl rfl rfl

/-- The entries that `evict` leaves are the newest ones, and the counters fit them as before. -/
theorem evictFrom_spec (l : List Entry) (c : Center) :
    ∃ n ≤ l.length, evictFrom l c = { c with
        entries := l.drop n
        bytes := c.bytes - ((l.take n).map Entry.size).sum
        dropped := c.dropped + n } ∧
      (n = l.length ∨ ((l.drop n).length : Int) ≤ c.settings.maxEntries ∧
        c.bytes - ((l.take n).map Entry.size).sum ≤ c.settings.maxBytes) := by
  induction l generalizing c with
  | nil => exact ⟨0, le_rfl, by simp [evictFrom], .inl rfl⟩
  | cons e rest ih =>
    rw [evictFrom]
    split
    · obtain ⟨n, short, same, fits⟩ := ih { c with bytes := c.bytes - e.size, dropped := c.dropped + 1 }
      refine ⟨n + 1, by simpa using short, ?_, ?_⟩
      · rw [same]
        simp [sub_sub, Nat.add_assoc, Nat.add_comm 1]
      · simpa [sub_sub] using fits
    · rename_i within
      simpa using within

/-- The counters fit the entries, whose sequence numbers are the last ones given out. -/
structure Counted (c : Center) : Prop where
  positive : 0 < c.settings.maxEntries ∧ 0 < c.settings.maxBytes
  bytes : c.bytes = (c.entries.map Entry.size).sum
  room : c.entries.length < c.next
  spans : c.entries.map (·.seq) = range' (c.next - c.entries.length) c.entries.length

structure Sound (c : Center) : Prop extends Counted c where
  fits : c.entries.length ≤ c.settings.maxEntries ∧ c.bytes ≤ c.settings.maxBytes

theorem Counted.evict (ok : Counted c) : Sound c.evict := by
  obtain ⟨positive, bytes, room, spans⟩ := ok
  obtain ⟨n, short, same, fits⟩ := evictFrom_spec c.entries c
  have left : c.bytes - ((c.entries.take n).map Entry.size).sum =
      ((c.entries.drop n).map Entry.size).sum := by
    rw [bytes, ← sum_take_add_sum_drop (c.entries.map Entry.size) n, ← map_take, ← map_drop]
    ring
  rw [left] at same fits
  rw [Center.evict, same]
  refine ⟨⟨positive, rfl, ?_, ?_⟩, ?_⟩
  · simp only [length_drop]
    omega
  · have first : c.next - c.entries.length + n * 1 = c.next - (c.entries.length - n) := by omega
    simp only [map_drop, spans, drop_range', length_drop, first]
  · rcases fits with all | fits
    · simp only [all, drop_length]
      exact ⟨positive.1.le, positive.2.le⟩
    · exact fits

theorem Sound.step (ok : Sound c) (call : Call) : Sound (c.step hide call).1 := by
  have done := moved hide call c
  generalize c.step hide call = r at done
  obtain ⟨⟨positive, bytes, room, spans⟩, fits⟩ := ok
  cases done with
  | same => exact ⟨⟨positive, bytes, room, spans⟩, fits⟩
  | folded front last repeats time entries =>
    simp only [entries] at bytes room spans fits ⊢
    exact ⟨⟨positive, by simpa [Entry.size] using bytes, by simpa using room, by simpa using spans⟩,
      by simpa using fits⟩
  | stored e seq =>
    refine Counted.evict ⟨positive, ?_, ?_, ?_⟩
    · simp [bytes]
    · simpa using room
    · simp only [map_append, map_cons, length_append, length_cons, length_nil]
      rw [Nat.add_sub_add_right, range'_concat]
      congr 2
      omega
  | cleared =>
    refine ⟨⟨positive, rfl, ?_, rfl⟩, ?_⟩
    · exact Nat.zero_lt_of_lt room
    · exact ⟨positive.1.le, positive.2.le⟩
  | limited s => exact Counted.evict ⟨s.normalized_pos, bytes, room, spans⟩

/-- A call counts what the limits remove, and leaves nothing that was not there before, except for the
entry of its message. -/
theorem step_frame (hide : Bytes → Bytes) (call : Call) (c : Center) :
    c.next ≤ (c.step hide call).1.next ∧
      (c.step hide call).1.dropped = c.dropped + c.removed call (c.step hide call).1 ∧
      ∀ e ∈ (c.step hide call).1.entries, (∃ e' ∈ c.entries, e'.record = e.record) ∨
        c.next ≤ e.seq ∧ ∃ m, call = .write m ∧ e.source = m.source ∧
          e.message = m.stored hide c.settings := by
  have done := moved hide call c
  generalize c.step hide call = r at done
  cases done with
  | same => exact ⟨le_rfl, by simp [removed], fun e inside => .inl ⟨e, inside, rfl⟩⟩
  | folded front last repeats time entries =>
    refine ⟨le_rfl, by simp [removed, entries], fun e inside => .inl ?_⟩
    rw [entries]
    rcases mem_append.mp inside with old | new
    · exact ⟨e, mem_append_left _ old, rfl⟩
    · rw [mem_singleton.mp new]
      exact ⟨last, by simp, rfl⟩
  | stored e seq source message =>
    obtain ⟨n, short, same, -⟩ := evictFrom_spec (c.entries ++ [e])
      { c with entries := c.entries ++ [e], bytes := c.bytes + e.size, next := c.next + 1 }
    rw [length_append, length_singleton] at short
    simp only [append, evict, same, removed, length_drop, length_append, length_singleton]
    refine ⟨Nat.le_succ _, by omega, fun x inside => ?_⟩
    rcases mem_append.mp (mem_of_mem_drop inside) with old | new
    · exact .inl ⟨x, old, rfl⟩
    · rw [mem_singleton.mp new]
      exact .inr ⟨seq.ge, _, rfl, source, message⟩
  | cleared => exact ⟨le_rfl, rfl, nofun⟩
  | limited s =>
    obtain ⟨n, short, same, -⟩ := evictFrom_spec c.entries { c with settings := s.normalized }
    simp only [evict, same, removed, length_drop]
    exact ⟨le_rfl, by omega, fun e inside => .inl ⟨e, mem_of_mem_drop inside, rfl⟩⟩

/-! ## Runs -/

theorem Sound.new (s : Settings) : Sound (new s) :=
  Counted.evict (c := .new s) ⟨s.normalized_pos, rfl, Nat.one_pos, rfl⟩

theorem Sound.run (ok : Sound c) (calls : List Call) : Sound (c.run hide calls) := by
  induction calls generalizing c with
  | nil => exact ok
  | cons call calls ih => exact ih (ok.step call)

theorem run_frame (hide : Bytes → Bytes) (calls : List Call) (c : Center) :
    c.next ≤ (c.run hide calls).next ∧
      (c.run hide calls).dropped = c.dropped + c.removedBy hide calls ∧
      ∀ e ∈ (c.run hide calls).entries,
        (∃ e' ∈ c.entries, e'.record = e.record) ∨ c.next ≤ e.seq := by
  induction calls generalizing c with
  | nil => exact ⟨le_rfl, rfl, fun e inside => .inl ⟨e, inside, rfl⟩⟩
  | cons call calls ih =>
    obtain ⟨next, dropped, old⟩ := step_frame hide call c
    obtain ⟨next', dropped', old'⟩ := ih (c.step hide call).1
    refine ⟨next.trans next', ?_, fun e inside => ?_⟩
    · rw [removedBy, ← Nat.add_assoc, ← dropped]
      exact dropped'
    · rcases old' e inside with ⟨x, there, same⟩ | new
      · rw [← same, ← show x.seq = e.seq from congrArg Prod.fst same]
        exact (old x there).imp_right And.left
      · exact .inr (next.trans new)

theorem Counted.seqs (ok : Counted c) : (c.entries.map (·.seq)).Pairwise (· < ·) ∧
    ∀ e ∈ c.entries, 0 < e.seq ∧ e.seq < c.next := by
  obtain ⟨-, -, room, spans⟩ := ok
  refine ⟨by rw [spans]; exact pairwise_lt_range', fun e inside => ?_⟩
  have among := mem_map_of_mem (f := (·.seq)) inside
  rw [spans, mem_range'_1] at among
  omega

/-- After every list of calls: the counter of bytes is right, both limits are met, the sequence numbers
increase and have been given out, the counter of dropped entries is the number of those that the limits
removed, and whatever is stored later is a record of now or has a new number. -/
theorem center_bounded (hide : Bytes → Bytes) (s : Settings) (calls : List Call) :
    let c := (new s).run hide calls
    c.bytes = (c.entries.map Entry.size).sum ∧ c.entries.length ≤ c.settings.maxEntries ∧
      c.bytes ≤ c.settings.maxBytes ∧ (c.entries.map (·.seq)).Pairwise (· < ·) ∧
      (∀ e ∈ c.entries, e.seq < c.next) ∧ c.dropped = (new s).removedBy hide calls ∧
      ∀ later, ∀ e ∈ (c.run hide later).entries,
        (∃ e' ∈ c.entries, e'.record = e.record) ∨ c.next ≤ e.seq := by
  intro c
  have ok : Sound c := (Sound.new s).run calls
  have count := (run_frame hide calls (new s)).2.1
  refine ⟨ok.bytes, ok.fits.1, ok.fits.2, ok.seqs.1, fun e inside => (ok.seqs.2 e inside).2, ?_,
    fun later => (run_frame hide later c).2.2⟩
  rw [count]
  exact Nat.zero_add _

/-! ## Messages that a client can be sent -/

end Center

/-- The entry can be sent as protobuf, which has texts of UTF-8 only, and its message is no longer than
a message that was cut. -/
def Entry.Encodable (e : Entry) : Prop :=
  Json.valid e.source = true ∧ Json.valid e.message = true ∧
    e.message.length ≤ maxMessageBytes + cutMark.length

instance (e : Entry) : Decidable e.Encodable := inferInstanceAs (Decidable (_ ∧ _ ∧ _))

/-- The part of a message that is kept is UTF-8, and no destination of it is hidden. -/
def Call.Readable : Call → Center → Prop
  | .write m, c => Json.valid m.source = true ∧ Json.valid (m.line.take maxMessageBytes) = true ∧
      (c.settings.recordDestinations = true ∨ m.source = ascii "core" ∨
        m.source = ascii "subscription")
  | _, _ => True

theorem Message.stored_encodable {hide : Bytes → Bytes} {m : Message} {c : Center}
    (readable : (Call.write m).Readable c) : Json.valid (m.stored hide c.settings) = true ∧
      (m.stored hide c.settings).length ≤ maxMessageBytes + cutMark.length := by
  obtain ⟨-, utf8, open_⟩ := readable
  have shown : (!c.settings.recordDestinations && m.source != ascii "core" &&
      m.source != ascii "subscription") = false := by
    rcases open_ with same | same | same <;> simp [same]
  simp only [stored, shown, Bool.false_eq_true, if_false]
  split
  · refine ⟨((Json.whole_of_valid utf8).append (Json.whole_of_low (by decide +kernel))).valid, ?_⟩
    rw [length_append, length_take]
    omega
  · rw [take_of_length_le (by omega)] at utf8
    exact ⟨utf8, by omega⟩

/-- If the kept part of every message is UTF-8, and no destination is hidden, then every entry can be
sent to a client. -/
theorem entries_encodable {hide : Bytes → Bytes} {s : Settings} {c : Center}
    (run : Run (fun call c => some (c.step hide call).1) Call.Readable (.new s) c) :
    ∀ e ∈ c.entries, e.Encodable := by
  refine run.keeps (fun c => ∀ e ∈ c.entries, e.Encodable) nofun fun call c c' ok readable taken => ?_
  cases taken
  intro e inside
  rcases (Center.step_frame hide call c).2.2 e inside with ⟨e', there, same⟩ |
    ⟨-, m, rfl, source, message⟩
  · simp only [Entry.record, Prod.mk.injEq] at same
    have before := ok e' there
    rwa [Entry.Encodable, same.2.2.1, same.2.2.2] at before
  · rw [Entry.Encodable, source, message]
    exact ⟨readable.1, Message.stored_encodable readable⟩

/-- The record after a message of one byte that is no character. -/
theorem stray_message_stored : ¬∀ e ∈ ((Center.new {}).run id
    [.write { level := 2, source := ascii "xray", text := [0xFF] }]).entries, e.Encodable := by
  decide

/-- The record after a plain message. -/
theorem plain_message_encodable : ∃ c, Run (fun call c => some (Center.step id call c).1) Call.Readable
    (.new {}) c ∧ c.entries.map (·.message) = [ascii "up"] ∧ ∀ e ∈ c.entries, e.Encodable := by
  have run : Run (fun call c => some (Center.step id call c).1) Call.Readable (.new {}) _ :=
    Run.refl.next (.write { level := 2, source := ascii "core", text := ascii "up" })
      ⟨by decide, by decide, .inl rfl⟩ rfl
  exact ⟨_, run, by decide, entries_encodable run⟩

end Sora.Logs
