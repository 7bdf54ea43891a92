/-!
# Runs of a step function

A step function takes an action to the state after it, or refuses it.  A run is a sequence of
actions that are all accepted, each of them admitted in the state before it.  `Run.keeps` is the
induction over runs; `exec` computes the state after a list of actions.
-/

namespace Sora.Lib

section

variable {Act St : Type} (step : Act → St → Option St) (admits : Act → St → Prop)

/-- `t` is reached from `s` by admitted actions. -/
inductive Run (s : St) : St → Prop
  | refl : Run s s
  | next {t u : St} (before : Run s t) (a : Act) (admitted : admits a t) (taken : step a t = some u) :
      Run s u

/-- The state after a list of actions, if all of them are admitted and accepted. -/
def exec [∀ a s, Decidable (admits a s)] : List Act → St → Option St
  | [], s => some s
  | a :: rest, s => if admits a s then (step a s).bind (exec rest) else none

end

variable {Act St : Type} {step : Act → St → Option St} {admits : Act → St → Prop} {s t u : St}

/-- An invariant that every admitted step keeps holds along every run. -/
theorem Run.keeps (Inv : St → Prop) (run : Run step admits s t) (init : Inv s)
    (stepped : ∀ a s s', Inv s → admits a s → step a s = some s' → Inv s') : Inv t := by
  induction run with
  | refl => exact init
  | next before a admitted taken ih => exact stepped a _ _ ih admitted taken

theorem Run.trans (first : Run step admits s t) (second : Run step admits t u) :
    Run step admits s u := by
  induction second with
  | refl => exact first
  | next before a admitted taken ih => exact ih.next a admitted taken

theorem Run.of_exec [∀ a s, Decidable (admits a s)] {acts : List Act}
    (done : exec step admits acts s = some t) : Run step admits s t := by
  induction acts generalizing s with
  | nil =>
    cases done
    exact .refl
  | cons a rest ih =>
    rw [exec] at done
    split at done
    · rename_i admitted
      obtain ⟨u, taken, later⟩ := Option.bind_eq_some_iff.mp done
      exact (Run.refl.next a admitted taken).trans (ih later)
    · cases done

/-- Every sequence of steps that goes on as long as it can reaches `P`.  As long as it has not, one of
the steps in `own` is possible. -/
inductive Inevitably (next own : St → St → Prop) (P : St → Prop) : St → Prop
  | now {s : St} (reached : P s) : Inevitably next own P s
  | later {s : St} (possible : ∃ t, own s t) (all : ∀ t, next s t → Inevitably next own P t) :
      Inevitably next own P s

/-- Steps that make a weight smaller and that do not end before `P` lead to `P`. -/
theorem Inevitably.of_weight {next own : St → St → Prop} {P : St → Prop} (Inv : St → Prop)
    (weight : St → Nat) (keeps : ∀ s t, Inv s → next s t → Inv t)
    (less : ∀ s t, Inv s → next s t → weight t < weight s)
    (progress : ∀ s, Inv s → P s ∨ ∃ t, own s t) (init : Inv s) : Inevitably next own P s := by
  induction bound : weight s using Nat.strongRecOn generalizing s with
  | ind n ih =>
    rcases progress s init with reached | possible
    · exact .now reached
    · refine .later possible fun t taken => ?_
      have smaller := less s t init taken
      exact ih (weight t) (bound ▸ smaller) (keeps s t init taken) rfl

end Sora.Lib
