import Sora.Lib.Lists

/-!
# Programs, their runs and their interleavings

A program is a tree of atomic operations (`Prog`).  An operation stands for one lock
section or one call of an outside component; `Machine.perform` says what it does to the
world for each choice of the environment, and refuses when it has to wait.

* `Prog.wp` is the weakest precondition of a program over a transformer of its
  operations, with one rule per constructor and one for sequencing.
* `Runs` is a sequential run; `Runs.of_wp` reads a postcondition off it.
* `Pool` is a set of programs that take steps in any order.  `Pool.invariant` reduces a
  property of all interleavings to single operations: the programs are checked once
  against a `Discipline` (which operations are allowed in which phase), and the invariant
  speaks about the world and the phases of the threads.
-/

namespace Sora.Lib

open List

theorem forall_except {ε α : Type} {P : Except ε α → Prop} :
    (∀ r, P r) ↔ (∀ e, P (.error e)) ∧ ∀ a, P (.ok a) :=
  ⟨fun all => ⟨fun _ => all _, fun _ => all _⟩, fun both r => r.rec both.1 both.2⟩

theorem getElem?_snoc_cases {α : Type*} {as : List α} {a b : α} {j : Nat}
    (at_j : (as ++ [a])[j]? = some b) : as[j]? = some b ∨ b = a := by
  rcases Nat.lt_or_ge j as.length with old | new
  · exact .inl ((getElem?_append_left old).symm.trans at_j)
  · rw [getElem?_append_right new] at at_j
    exact .inr (mem_singleton.mp (mem_of_getElem? at_j))

theorem getElem?_set_cases {α : Type*} {as : List α} {a b : α} {i j : Nat}
    (at_j : (as.set i a)[j]? = some b) : j = i ∧ b = a ∨ j ≠ i ∧ as[j]? = some b := by
  rw [getElem?_set] at at_j
  split at at_j
  · rename_i same
    split at at_j
    · exact .inl ⟨same.symm, (Option.some.inj at_j).symm⟩
    · cases at_j
  · rename_i other
    exact .inr ⟨fun same => other same.symm, at_j⟩

theorem pair_of_some {α β : Type*} {p : α × β} {a : α} {b : β} (same : some p = some (a, b)) :
    a = p.1 ∧ b = p.2 := by
  cases same
  exact ⟨rfl, rfl⟩

theorem some_pair {α β : Type*} {a c : α} {b d : β} (same : some (a, b) = some (c, d)) :
    a = c ∧ b = d :=
  Prod.mk.inj (Option.some.inj same)

theorem mem_set_of_ne {α : Type*} {as : List α} {a b c : α} {i : Nat} (at_i : as[i]? = some a)
    (member : b ∈ as) (other : b ≠ a) : b ∈ as.set i c := by
  obtain ⟨j, at_j⟩ := mem_iff_getElem?.mp member
  have apart : i ≠ j := by
    rintro rfl
    exact other (Option.some.inj (at_j.symm.trans at_i))
  exact mem_iff_getElem?.mpr ⟨j, (getElem?_set_ne apart).trans at_j⟩

inductive Prog (Op : Type → Type) (α : Type) : Type 1 where
  | pure (a : α) : Prog Op α
  | call {β : Type} (op : Op β) (k : β → Prog Op α) : Prog Op α

namespace Prog

variable {Op : Type → Type} {α β σ : Type}

def bind : Prog Op α → (α → Prog Op β) → Prog Op β
  | .pure a, f => f a
  | .call op k, f => .call op fun b => (k b).bind f

instance : Monad (Prog Op) where
  pure := .pure
  bind := bind

/-- A single operation. -/
def op (o : Op α) : Prog Op α := .call o .pure

/-- Whether nothing is left to do. -/
def ended : Prog Op α → Bool
  | .pure _ => true
  | .call _ _ => false

/-- A program whose answer nobody reads. -/
def ignore (p : Prog Op α) : Prog Op Unit := p >>= fun _ => pure ()

/-! ## Weakest preconditions -/

/-- What has to hold of a state for an operation to be fine, given what is wanted of its
answer and the state after it. -/
structure Transformer (Op : Type → Type) (σ : Type) where
  call : {β : Type} → Op β → (β → σ → Prop) → σ → Prop
  mono : ∀ {β : Type} (o : Op β) {Q Q' : β → σ → Prop}, (∀ b s, Q b s → Q' b s) →
    ∀ s, call o Q s → call o Q' s

variable {T : Transformer Op σ}

def wp (T : Transformer Op σ) : Prog Op α → (α → σ → Prop) → σ → Prop
  | .pure a, Q => Q a
  | .call o k, Q => T.call o fun b => (k b).wp T Q

@[simp] theorem wp_pure (a : α) (Q : α → σ → Prop) : (Pure.pure a : Prog Op α).wp T Q = Q a := rfl

@[simp] theorem wp_op (o : Op α) (Q : α → σ → Prop) : (op o).wp T Q = T.call o Q := rfl

@[simp] theorem wp_bind (p : Prog Op α) (f : α → Prog Op β) (Q : β → σ → Prop) :
    (p >>= f).wp T Q = p.wp T fun a => (f a).wp T Q := by
  induction p with
  | pure a => rfl
  | call o k ih =>
    exact congrArg _ (funext fun b => ih b)

@[simp] theorem wp_ignore (p : Prog Op α) (Q : Unit → σ → Prop) :
    p.ignore.wp T Q = p.wp T fun _ => Q () := wp_bind p _ Q

@[simp] theorem wp_ite (c : Prop) [Decidable c] (p q : Prog Op α) (Q : α → σ → Prop) (s : σ) :
    (if c then p else q).wp T Q s ↔ (c → p.wp T Q s) ∧ (¬ c → q.wp T Q s) := by
  split <;> simp [*]

theorem wp_mono (p : Prog Op α) {Q Q' : α → σ → Prop} (le : ∀ a s, Q a s → Q' a s) {s : σ}
    (holds : p.wp T Q s) : p.wp T Q' s := by
  induction p generalizing s with
  | pure a => exact le a s holds
  | call o k ih => exact T.mono o (fun b s inner => ih b inner) s holds

end Prog

/-! ## Machines and sequential runs -/

/-- What operations do to the world.  The number tells the thread that takes the step;
`none` means that the operation has to wait. -/
structure Machine (Op : Type → Type) (World : Type) where
  Choice : Type
  perform : {β : Type} → Nat → Choice → Op β → World → Option (β × World)

/-- The machine whose environment makes only some of its choices. -/
def Machine.only {Op : Type → Type} {World : Type} (M : Machine Op World)
    (chooses : {β : Type} → M.Choice → Op β → World → Bool) : Machine Op World where
  Choice := M.Choice
  perform t c o w := if chooses c o w then M.perform t c o w else none

section Disciplines

variable {Op : Type → Type} {σ : Type}

/-- The phases a thread goes through: which operations are allowed in a phase, which
answers they can give there, and the phase after an answer.  A phase may also be a view of
the world that is small enough to compute with. -/
structure Discipline (Op : Type → Type) (σ : Type) where
  allowed : {β : Type} → σ → Op β → Prop
  answers : {β : Type} → σ → Op β → β → Prop
  next : {β : Type} → σ → Op β → β → σ

def Discipline.transformer (D : Discipline Op σ) : Prog.Transformer Op σ where
  call o Q s := D.allowed s o ∧ ∀ b, D.answers s o b → Q b (D.next s o b)
  mono _ _ _ le _ holds := ⟨holds.1, fun b answer => le b _ (holds.2 b answer)⟩

@[simp] theorem Discipline.transformer_call (D : Discipline Op σ) {β : Type} (o : Op β)
    (Q : β → σ → Prop) (s : σ) :
    D.transformer.call o Q s ↔ D.allowed s o ∧ ∀ b, D.answers s o b → Q b (D.next s o b) := Iff.rfl

end Disciplines

section Sequential

variable {Op : Type → Type} {World α : Type} {M : Machine Op World} {a : α}

/-- `p` runs alone from `w` to `w'` and answers `a`. -/
inductive Runs (M : Machine Op World) : {α : Type} → Prog Op α → World → α → World → Prop
  | pure {α : Type} {a : α} {w : World} : Runs M (.pure a) w a w
  | call {α β : Type} {o : Op β} {k : β → Prog Op α} {w w' w'' : World} {b : β} {a : α}
      (c : M.Choice) (step : M.perform 0 c o w = some (b, w')) (rest : Runs M (k b) w' a w'') :
      Runs M (.call o k) w a w''

/-- Every answer and world that an operation can lead to satisfies the postcondition. -/
def Machine.demonic (M : Machine Op World) : Prog.Transformer Op World where
  call o Q w := ∀ c b w', M.perform 0 c o w = some (b, w') → Q b w'
  mono _ _ _ le _ holds := fun c b w' step => le b w' (holds c b w' step)

variable {w : World} {Q : α → World → Prop} {p : Prog Op α} {w' : World}

theorem Runs.of_wp (run : Runs M p w a w') (holds : p.wp M.demonic Q w) : Q a w' := by
  induction run with
  | pure => exact holds
  | call c step rest ih => exact ih (holds c _ _ step)

theorem Prog.wp_of_runs (holds : ∀ a w', Runs M p w a w' → Q a w') : p.wp M.demonic Q w := by
  induction p generalizing w with
  | pure a => exact holds a w .pure
  | call o k ih =>
    intro c b w' step
    exact ih b fun a w'' rest => holds a w'' (.call c step rest)

/-- Programs may be checked on a view of the world if every allowed operation does to the
view what the discipline says. -/
theorem Prog.wp_of_view {σ : Type} (D : Discipline Op σ) {View : World → σ → Prop} (stepped : ∀ {β :
    Type} (o : Op β) (w w' : World) (s : σ) (c : M.Choice) (b : β), View w s → D.allowed s o →
    M.perform 0 c o w = some (b, w') → D.answers s o b ∧ View w' (D.next s o b)) (p : Prog Op α)
    {Q : α → σ → Prop} {s : σ} (view : View w s) (holds : p.wp D.transformer Q s) :
    p.wp M.demonic (fun a w' => ∃ s', View w' s' ∧ Q a s') w := by
  induction p generalizing w s with
  | pure a => exact ⟨s, view, holds⟩
  | call o k ih =>
    intro c b w' step
    obtain ⟨answer, view'⟩ := stepped o w w' s c b view holds.1 step
    exact ih b view' (holds.2 b answer)

/-- What holds after every run holds after the runs with some choices only. -/
theorem Prog.wp_only {chooses : {β : Type} → M.Choice → Op β → World → Bool} (p : Prog Op α)
    (holds : p.wp M.demonic Q w) : p.wp (M.only chooses).demonic Q w := by
  induction p generalizing w with
  | pure a => exact holds
  | call o k ih =>
    intro c b w' step
    simp only [Machine.only] at step
    split at step
    · exact ih b (holds c b w' step)
    · cases step

/-- The run in which the environment makes the given choices. -/
def Prog.eval (M : Machine Op World) : Prog Op α → List M.Choice → World → Option (α × World)
  | .pure a, _, w => some (a, w)
  | .call _ _, [], _ => none
  | .call o k, c :: cs, w =>
    match M.perform 0 c o w with
    | some (b, w') => (k b).eval M cs w'
    | none => none

theorem Runs.of_eval {cs : List M.Choice} (ran : p.eval M cs w = some (a, w')) :
    Runs M p w a w' := by
  induction p generalizing cs w with
  | pure a =>
    cases ran
    exact .pure
  | call o k ih =>
    cases cs with
    | nil => cases ran
    | cons c cs =>
      rw [Prog.eval] at ran
      split at ran
      · rename_i b w'' step
        exact .call c step (ih b ran)
      · cases ran

end Sequential

/-! ## Interleavings -/

/-- Threads that share a world. -/
structure Pool (Op : Type → Type) (World : Type) : Type 1 where
  world : World
  threads : List (Prog Op Unit)

section Interleaving

variable {Op : Type → Type} {World ε σ : Type} {M : Machine Op World} {program : ε → Prog Op Unit}
    {pool : Pool Op World} {phases₀ : List σ}

/-- Which steps the runs under consideration may take: the operation, the world before it,
its answer and the world after it. -/
abbrev Admission (Op : Type → Type) (World : Type) : Type 1 :=
  (β : Type) → Op β → World → β → World → Bool

/-- No run is left out. -/
def everything : Admission Op World := fun _ _ _ _ _ => true

/-- The start of a call as a new thread, or one operation of thread `i`. -/
inductive Pool.Step (M : Machine Op World) (program : ε → Prog Op Unit)
    (admits : Admission Op World) : Pool Op World → Pool Op World → Prop
  | spawn {pool : Pool Op World} (e : ε) :
      Step M program admits pool ⟨pool.world, pool.threads ++ [program e]⟩
  | op {pool : Pool Op World} {i : Nat} {β : Type} {o : Op β} {k : β → Prog Op Unit} {b : β}
      {w' : World} (thread : pool.threads[i]? = some (.call o k)) (c : M.Choice)
      (step : M.perform i c o pool.world = some (b, w')) (admitted : admits β o pool.world b w') :
      Step M program admits pool ⟨w', pool.threads.set i (k b)⟩

inductive Pool.Reach (M : Machine Op World) (program : ε → Prog Op Unit)
    (admits : Admission Op World) (start : Pool Op World) : Pool Op World → Prop
  | refl : Reach M program admits start start
  | step {pool pool' : Pool Op World} (before : Reach M program admits start pool)
      (next : Pool.Step M program admits pool pool') : Reach M program admits start pool'

/-! ### Running a schedule -/

/-- One entry of a schedule. -/
inductive Move (ε C : Type) where
  | spawn (e : ε)
  | step (i : Nat) (c : C)

def Pool.exec (M : Machine Op World) (program : ε → Prog Op Unit) (admits : Admission Op World)
    (pool : Pool Op World) : List (Move ε M.Choice) → Option (Pool Op World)
  | [] => some pool
  | .spawn e :: rest =>
    Pool.exec M program admits ⟨pool.world, pool.threads ++ [program e]⟩ rest
  | .step i c :: rest =>
    match pool.threads[i]? with
    | some (.call o k) =>
      match M.perform i c o pool.world with
      | some (b, w') =>
        if admits _ o pool.world b w' then
          Pool.exec M program admits ⟨w', pool.threads.set i (k b)⟩ rest
        else none
      | none => none
    | _ => none

variable {admits : Admission Op World} {start : Pool Op World}

/-- A schedule that can be run leads to a reachable pool. -/
theorem Pool.reach_of_exec {pool' : Pool Op World} {moves : List (Move ε M.Choice)}
    (before : Pool.Reach M program admits start pool)
    (ran : Pool.exec M program admits pool moves = some pool') :
    Pool.Reach M program admits start pool' := by
  induction moves generalizing pool with
  | nil =>
    cases ran
    exact before
  | cons move rest ih =>
    cases move with
    | spawn e => exact ih (before.step (.spawn e)) ran
    | step i c =>
      rw [Pool.exec] at ran
      split at ran
      · rename_i o k thread
        split at ran
        · rename_i b w' step
          split at ran
          · rename_i admitted
            exact ih (before.step (.op thread c step admitted)) ran
          · cases ran
        · cases ran
      · cases ran

/-- What every step keeps of the world holds along every interleaving. -/
theorem Pool.Reach.keeps (reach : Pool.Reach M program admits start pool)
    (Inv : World → Prop) (init : Inv start.world) (stepped : ∀ {β : Type} (o : Op β) (w w' : World)
    (i : Nat) (c : M.Choice) (b : β), Inv w → M.perform i c o w = some (b, w') → admits β o w b w' →
    Inv w') : Inv pool.world := by
  induction reach with
  | refl => exact init
  | step before next ih =>
    cases next with
    | spawn e => exact ih
    | op thread c step admitted => exact stepped _ _ _ _ c _ ih step admitted

/-- A thread in phase `s` keeps to the discipline until it ends in a phase of `final`. -/
abbrev Discipline.Follows (D : Discipline Op σ) (final : σ → Prop) (s : σ)
    (p : Prog Op Unit) : Prop :=
  p.wp D.transformer (fun _ => final) s

theorem Discipline.Follows.final {D : Discipline Op σ} {final : σ → Prop} {s : σ}
    {p : Prog Op Unit} (follows : D.Follows final s p) (ended : p.ended = true) : final s := by
  cases p with
  | pure a => exact follows
  | call o k => cases ended

/-- An invariant of the world and the phases of the threads holds along every
interleaving if it survives each allowed operation and each start of a program, and the
programs keep to the discipline. -/
theorem Pool.invariant (D : Discipline Op σ) (final : σ → Prop) (first : σ)
    (Inv : World → List σ → Prop) (programs : ∀ e, D.Follows final first (program e))
    (spawned : ∀ w phases, Inv w phases → Inv w (phases ++ [first])) (stepped : ∀ {β : Type} (o : Op
    β) (w w' : World) (phases : List σ) (i : Nat) (s : σ) (c : M.Choice) (b : β), Inv w phases →
    phases[i]? = some s → D.allowed s o → M.perform i c o w = some (b, w') → admits β o w b w' →
    D.answers s o b ∧ Inv w' (phases.set i (D.next s o b))) (init : Inv start.world phases₀)
    (threads₀ : List.Forall₂ (D.Follows final) phases₀ start.threads)
    (reach : Pool.Reach M program admits start pool) :
    ∃ phases, Inv pool.world phases ∧ List.Forall₂ (D.Follows final) phases pool.threads := by
  induction reach with
  | refl => exact ⟨phases₀, init, threads₀⟩
  | step before next ih =>
    obtain ⟨phases, inv, follow⟩ := ih
    cases next with
    | spawn e =>
      refine ⟨phases ++ [first], spawned _ _ inv, ?_⟩
      exact rel_append follow (.cons (programs e) .nil)
    | @op i β o k b w' thread c step admitted =>
      obtain ⟨s, phase, ok⟩ : ∃ s, phases[i]? = some s ∧ D.Follows final s (.call o k) := by
        obtain ⟨bound, thread⟩ := List.getElem?_eq_some_iff.mp thread
        have bound' : i < phases.length := follow.length_eq ▸ bound
        refine ⟨phases[i], getElem?_eq_getElem bound', ?_⟩
        exact thread ▸ follow.get bound' bound
      obtain ⟨answer, inv'⟩ := stepped o _ _ phases i s c b inv phase ok.1 step admitted
      refine ⟨_, inv', ?_⟩
      rw [forall₂_iff_get] at follow ⊢
      refine ⟨by simpa using follow.1, fun j bound bound' => ?_⟩
      simp only [get_eq_getElem, getElem_set]
      split
      · exact ok.2 b answer
      · exact follow.2 j (by simpa using bound) (by simpa using bound')

/-- The same for an invariant of the world and what each phase knows about it, when no step
takes knowledge away. -/
theorem Pool.knowledge (D : Discipline Op σ) (final : σ → Prop) (first : σ) (Inv : World → Prop)
    (Knows : World → σ → Prop) (programs : ∀ e, D.Follows final first (program e))
    (starts : ∀ w, Inv w → Knows w first) (stepped : ∀ {β : Type} (o : Op β) (w w' : World) (i :
    Nat) (s : σ) (c : M.Choice) (b : β), Inv w → Knows w s → D.allowed s o → M.perform i c o w =
    some (b, w') → admits β o w b w' → D.answers s o b ∧ Inv w' ∧ (∀ s', Knows w s' → Knows w' s') ∧
    Knows w' (D.next s o b)) (init : Inv start.world) (known₀ : ∀ s ∈ phases₀, Knows start.world s)
    (threads₀ : List.Forall₂ (D.Follows final) phases₀ start.threads)
    (reach : Pool.Reach M program admits start pool) :
    Inv pool.world ∧
      ∀ p ∈ pool.threads, ∃ s, Knows pool.world s ∧ D.Follows final s p := by
  obtain ⟨phases, ⟨inv, known⟩, follow⟩ :=
    Pool.invariant D final first (fun w phases => Inv w ∧ ∀ s ∈ phases, Knows w s) programs
      (fun w phases inv => ⟨inv.1, fun s member => by
        rcases mem_append.mp member with old | new
        · exact inv.2 s old
        · rw [mem_singleton.mp new]
          exact starts w inv.1⟩)
      (fun o w w' phases i s c b inv thread allowed step admitted => by
        have member := mem_iff_getElem?.mpr ⟨i, thread⟩
        obtain ⟨answers, inv', kept, knows⟩ :=
          stepped o w w' i s c b inv.1 (inv.2 s member) allowed step admitted
        refine ⟨answers, inv', fun other there => ?_⟩
        rcases mem_or_eq_of_mem_set there with old | rfl
        · exact kept other (inv.2 other old)
        · exact knows)
      ⟨init, known₀⟩ threads₀ reach
  refine ⟨inv, fun p member => ?_⟩
  obtain ⟨s, there, follows⟩ := exists_of_forall₂ follow.flip member
  exact ⟨s, known s there, follows⟩

end Interleaving

end Sora.Lib
