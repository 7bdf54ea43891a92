import Sora.Session.Manager

/-!
# Requests that name a session

`Disconnect`, `SetKillSwitch` and the requests about connections may name the session they are
meant for.  The handlers look the name up in one section of the manager and take the session to act
on from another one.  They are programs over the operations of the session service; the operations
after the check are marked with the session that the check found.
-/

namespace Sora.Control.Named

open Sora.Lib Sora.Session Sora.Engine Prod Pool Discipline

/-- An operation, or one on behalf of the session that was found under the name of a request. -/
inductive HandlerOp : Type → Type where
  | plain {β : Type} (o : Session.Op β) : HandlerOp β
  | onBehalf {β : Type} (j : Nat) (o : Session.Op β) : HandlerOp β

def HandlerOp.op {β : Type} : HandlerOp β → Session.Op β
  | .plain o | .onBehalf _ o => o

def handlers : Machine HandlerOp World where
  Choice := Session.Choice
  perform t c o w := Session.perform t c o.op w

/-- A program of the session service with its operations marked. -/
def marked {α : Type} (mark : {β : Type} → Session.Op β → HandlerOp β) :
    Prog Session.Op α → Prog HandlerOp α
  | .pure a => .pure a
  | .call o k => .call (mark o) fun b => marked mark (k b)

/-! ## The handlers -/

/-- The name check of `Disconnect` and `checkSession`: the session that was found, if the request
names one. -/
def check (named : Bytes) : Prog HandlerOp (Option (Option Nat)) :=
  let wanted := trimSpace named
  if wanted = [] then pure (some none)
  else do
    match ← .op (.plain .current) with
    | none => pure none
    | some j => do
      let plan ← .op (.plain (.readPlan j))
      pure (if plan.sessionID = wanted then some (some j) else none)

def disconnectNamed (named : Bytes) : Prog HandlerOp Unit := do
  match ← check named with
  | none => pure ()
  | some none => marked .plain disconnect.ignore
  | some (some j) => marked (.onBehalf j) disconnect.ignore

/-- `SetKillSwitch` takes the session first and checks the name afterwards. -/
def setKillSwitchNamed (named : Bytes) (enabled : Bool) : Prog HandlerOp Unit := do
  match ← .op (.plain .current) with
  | none => pure ()
  | some i =>
    let wanted := trimSpace named
    if wanted = [] then marked .plain (setKillSwitch i enabled).ignore
    else do
      match ← .op (.onBehalf i .current) with
      | none => pure ()
      | some j => do
        let plan ← .op (.plain (.readPlan j))
        if plan.sessionID = wanted then marked (.onBehalf j) (setKillSwitch i enabled).ignore
        else pure ()

/-- `CloseConnection`; `ListConnections` differs in what it asks the engine. -/
def closeConnectionNamed (named : Bytes) : Prog HandlerOp Unit := do
  match ← check named with
  | none => pure ()
  | some none => do
    match ← .op (.plain .current) with
    | none => pure ()
    | some i => (Prog.op (.plain (.closeConnections i))).ignore
  | some (some j) => do
    match ← .op (.onBehalf j .current) with
    | none => pure ()
    | some i => (Prog.op (.onBehalf j (.closeConnections i))).ignore

inductive Request where
  | connect (plan : Plan) (settings : Session.Settings)
  | disconnect (named : Bytes)
  | setKillSwitch (named : Bytes) (enabled : Bool)
  | closeConnection (named : Bytes)

def Request.program : Request → Prog HandlerOp Unit
  | .connect plan settings => marked .plain (Session.connect plan settings).ignore
  | .disconnect named => disconnectNamed named
  | .setKillSwitch named enabled => setKillSwitchNamed named enabled
  | .closeConnection named => closeConnectionNamed named

def readsCurrent {β : Type} : Session.Op β → Bool
  | .beginCall | .current => true
  | _ => false

/-- A session that was found under its name has not been replaced when the handler reads the
current session once more. -/
def unreplaced : Admission HandlerOp World := fun _ o w _ _ =>
  match o with
  | .plain _ => true
  | .onBehalf j o =>
    !readsCurrent o || decide (w.manager.current = none ∨ w.manager.current = some j)

/-! ## What the handlers act on -/

/-- Operations on behalf of session `j` are about that session, or about none. -/
@[simps] def acting (j : Nat) : Discipline Session.Op Unit where
  allowed _ o := o.session = none ∨ o.session = some j
  answers _ o := match o with
    | .beginCall => fun b => b = none ∨ b = some none ∨ b = some (some j)
    | .current => fun b => b = none ∨ b = some j
    | _ => fun _ => True
  next _ _ _ := ()

@[simps] def loyal : Discipline HandlerOp Unit where
  allowed _ o := match o with
    | .plain _ => True
    | .onBehalf j o => (acting j).allowed () o
  answers _ o b := match o with
    | .plain _ => True
    | .onBehalf j o => (acting j).answers () o b
  next _ _ _ := ()

variable {α : Type}

theorem wp_marked_plain (p : Prog Session.Op α) :
    (marked .plain p).wp loyal.transformer (fun _ _ => True) () := by
  induction p with
  | pure a => trivial
  | call o k ih => exact ⟨trivial, fun b _ => ih b⟩

theorem wp_marked_onBehalf (j : Nat) (p : Prog Session.Op α) {Q : α → Unit → Prop}
    (holds : p.wp (acting j).transformer Q ()) :
    (marked (.onBehalf j) p).wp loyal.transformer Q () := by
  induction p with
  | pure a => exact holds
  | call o k ih => exact ⟨holds.1, fun b answer => ih b (holds.2 b answer)⟩

theorem stop_acting (j : Nat) : (stop j).wp (acting j).transformer (fun _ _ => True) () := by
  simp [stop, stopFirst, stopAgain, restoreGuard, Option.forall]

theorem disconnect_acting (j : Nat) :
    disconnect.wp (acting j).transformer (fun _ _ => True) () := by
  simp only [disconnect, Prog.wp_bind, Prog.wp_op]
  refine ⟨.inl rfl, fun b found => ?_⟩
  rcases found with rfl | rfl | rfl
  · trivial
  · simp
  · simp only [Prog.wp_bind]
    refine Prog.wp_mono _ (fun err _ _ => ?_) (stop_acting j)
    simp

theorem setKillSwitch_acting (j : Nat) (enabled : Bool) :
    (setKillSwitch j enabled).wp (acting j).transformer (fun _ _ => True) () := by
  simp [setKillSwitch, forall_except, Option.forall]

theorem check_loyal (named : Bytes) {Q : Option (Option Nat) → Unit → Prop}
    (all : ∀ found, Q found ()) : (check named).wp loyal.transformer Q () := by
  unfold check
  simp only [Prog.wp_ite]
  refine ⟨fun _ => all _, fun _ => ⟨trivial, fun found _ => ?_⟩⟩
  cases found with
  | none => exact all _
  | some j =>
    exact ⟨trivial, fun plan _ => all _⟩

theorem request_loyal (request : Request) : loyal.Follows (fun _ => True) () request.program := by
  unfold Discipline.Follows
  cases request with
  | connect plan settings => exact wp_marked_plain _
  | disconnect named =>
    simp only [Request.program, disconnectNamed, Prog.wp_bind]
    refine check_loyal named fun found => ?_
    match found with
    | none => trivial
    | some none => exact wp_marked_plain _
    | some (some j) =>
      refine wp_marked_onBehalf j _ ?_
      rw [Prog.wp_ignore]
      exact disconnect_acting j
  | setKillSwitch named enabled =>
    simp only [Request.program, setKillSwitchNamed, Prog.wp_bind, Prog.wp_op]
    refine ⟨trivial, fun found _ => ?_⟩
    cases found with
    | none => trivial
    | some i =>
      simp only [Prog.wp_ite, Prog.wp_bind, Prog.wp_op]
      refine ⟨fun _ => wp_marked_plain _, fun _ => ⟨.inl rfl, fun again same => ?_⟩⟩
      rcases same with rfl | rfl
      · trivial
      · simp only [Prog.wp_bind, Prog.wp_op, transformer_call, Prog.wp_ite]
        refine ⟨trivial, fun plan _ => ⟨fun _ => ?_, fun _ => trivial⟩⟩
        refine wp_marked_onBehalf i _ ?_
        rw [Prog.wp_ignore]
        exact setKillSwitch_acting i enabled
  | closeConnection named =>
    simp only [Request.program, closeConnectionNamed, Prog.wp_bind]
    refine check_loyal named fun found => ?_
    match found with
    | none => trivial
    | some none =>
      refine ⟨trivial, fun again _ => ?_⟩
      cases again with
      | none => trivial
      | some i => exact ⟨trivial, fun _ _ => trivial⟩
    | some (some j) =>
      refine ⟨.inl rfl, fun again same => ?_⟩
      rcases same with rfl | rfl
      · trivial
      · exact ⟨.inr rfl, fun _ _ => trivial⟩

/-! ## Interleavings -/

theorem answers_unreplaced {β : Type} {t : Nat} {c : Session.Choice} {o : HandlerOp β}
    {w w' : World} {b : β} (done : handlers.perform t c o w = some (b, w'))
    (admitted : unreplaced β o w b w' = true) : loyal.answers () o b := by
  cases o with
  | plain o => trivial
  | onBehalf j o =>
    cases o with
    | beginCall =>
      simp only [unreplaced, readsCurrent, Bool.not_true, Bool.false_or, decide_eq_true_eq]
        at admitted
      cases done
      simp only [acting_answers]
      split
      · exact .inl rfl
      · rcases admitted with none' | same
        · exact .inr (.inl (congrArg some none'))
        · exact .inr (.inr (congrArg some same))
    | current =>
      simp only [unreplaced, readsCurrent, Bool.not_true, Bool.false_or, decide_eq_true_eq]
        at admitted
      cases done
      exact admitted
    | _ => trivial

/-- A connected session under the id `w`. -/
def runningWorld : World :=
  { World.idle .nftables .bare .empty with
    sessions := fun _ =>
      { Session.new { Plan.bare with sessionID := ascii "w" } .empty with
        state := .connected, guardApplied := true }
    engines := fun k => ⟨.singBox, .running, k == 0, some .bare⟩
    manager := ⟨some 0, .initial .empty, false⟩ }

/-- The session that the next operation of a thread is meant for, and the one it is about. -/
def aims : Prog HandlerOp Unit → Option (Nat × Option Nat)
  | .call (.onBehalf j o) _ => some (j, o.session)
  | _ => none

/-- `Disconnect` for `w` checks the name, another client connects as `v`, and `Disconnect` goes on
for `m` steps. -/
def racingRun (m : Nat) : List (Move Request Session.Choice) :=
  [.spawn (.disconnect (ascii "w")), .step 0 {}, .step 0 {},
    .spawn (.connect { Plan.bare with sessionID := ascii "v" } .empty)] ++
    List.replicate 29 (.step 1 {}) ++ List.replicate m (.step 0 {})

end Sora.Control.Named
