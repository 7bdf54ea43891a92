import Mathlib.Algebra.BigOperators.Group.Finset.Basic
import Mathlib.Algebra.GroupWithZero.Nat

/-!
# Searching a graph along its paths

A graph is given by the successors of each vertex.  `search` walks from a vertex along every path and
reports whether one comes back to itself; it remembers the path and nothing else.  `search_iff` says
that it finds exactly the loops that can be reached, given fuel for a path through all vertices;
`calls_eq_walks` says that without a loop it makes one call for each walk.
-/

namespace Sora.Lib.PathSearch

open Relation List Bool

variable {fuel n : Nat}

section Graph

variable {α : Type} (next : α → List α)

def Edge (x y : α) : Prop := y ∈ next x

/-- A vertex on a loop can be reached. -/
def Loops (x : α) : Prop := ∃ y, ReflTransGen (Edge next) x y ∧ TransGen (Edge next) y y

variable {next} {x y : α}

theorem Loops.of_edge (edge : Edge next x y) (loops : Loops next y) : Loops next x := by
  obtain ⟨z, reach, loop⟩ := loops
  exact ⟨z, .head edge reach, loop⟩

/-- Where every edge goes up, nothing loops. -/
theorem not_loops_of_rank {rank : α → Nat} (up : ∀ {x y}, Edge next x y → rank x < rank y) (x : α) :
    ¬Loops next x := by
  rintro ⟨y, -, loop⟩
  have rises : ∀ {z}, TransGen (Edge next) y z → rank y < rank z := by
    intro z walk
    induction walk with
    | single edge => exact up edge
    | tail _ edge ih => exact ih.trans (up edge)
  exact lt_irrefl _ (rises loop)

/-- Every vertex of the path leads to `x`. -/
def Leads (next : α → List α) (path : List α) (x : α) : Prop :=
  ∀ y ∈ path, TransGen (Edge next) y x

theorem Leads.step {path : List α} (leads : Leads next path x) (edge : Edge next x y) :
    Leads next (x :: path) y := by
  intro z inside
  rcases mem_cons.mp inside with rfl | earlier
  · exact .single edge
  · exact .tail (leads z earlier) edge

/-- A walk of `n` edges leads on from `x`. -/
inductive Walks (next : α → List α) : Nat → α → Prop
  | stop (x : α) : Walks next 0 x
  | step {n : Nat} {x y : α} (edge : Edge next x y) (rest : Walks next n y) : Walks next (n + 1) x

theorem Walks.of_reach (reach : ReflTransGen (Edge next) x y) (walks : Walks next n y) :
    ∃ m, n ≤ m ∧ Walks next m x := by
  induction reach using ReflTransGen.head_induction_on with
  | refl => exact ⟨n, le_rfl, walks⟩
  | head edge _ ih =>
    obtain ⟨m, more, rest⟩ := ih
    exact ⟨m + 1, by omega, .step edge rest⟩

theorem Walks.shorter {m : Nat} (walks : Walks next n x) (less : m ≤ n) : Walks next m x := by
  induction walks generalizing m with
  | stop x =>
    obtain rfl : m = 0 := by omega
    exact .stop x
  | step edge _ ih =>
    cases m with
    | zero => exact .stop _
    | succ m => exact .step edge (ih (by omega))

/-- On a loop one can walk for ever. -/
theorem Loops.walks (loops : Loops next x) (n : Nat) : Walks next n x := by
  obtain ⟨y, reach, loop⟩ := loops
  have around : Walks next n y := by
    induction n with
    | zero => exact .stop y
    | succ n ih =>
      obtain ⟨z, edge, back⟩ := TransGen.head'_iff.mp loop
      obtain ⟨m, more, walks⟩ := ih.of_reach back
      exact .step edge (walks.shorter more)
  obtain ⟨m, more, walks⟩ := around.of_reach reach
  exact walks.shorter more

/-! ## Counting -/

/-- The calls for a list of vertices up to the first that reports a loop. -/
def callsOver (found : α → Bool) (calls : α → Nat) : List α → Nat
  | [] => 0
  | y :: rest => calls y + if found y then 0 else callsOver found calls rest

theorem callsOver_of_none {found : α → Bool} {count : α → Nat} {l : List α}
    (none : ∀ y ∈ l, found y = false) : callsOver found count l = (l.map count).sum := by
  induction l with
  | nil => rfl
  | cons y rest ih =>
    rw [callsOver, none y mem_cons_self, if_neg Bool.false_ne_true,
      ih fun z later => none z (mem_cons_of_mem _ later), map_cons, sum_cons]

/-- The number of walks of `n` edges. -/
def walkCount (next : α → List α) : Nat → α → Nat
  | 0, _ => 1
  | n + 1, x => ((next x).map (walkCount next n)).sum

/-- The number of walks of less than `n` edges. -/
def walksBelow (next : α → List α) : Nat → α → Nat
  | 0, _ => 0
  | n + 1, x => 1 + ((next x).map (walksBelow next n)).sum

theorem walksBelow_eq (n : Nat) (x : α) :
    walksBelow next n x = ∑ k ∈ Finset.range n, walkCount next k x := by
  induction n generalizing x with
  | zero => rfl
  | succ n ih =>
    rw [walksBelow, Finset.sum_range_succ', Nat.add_comm]
    congr 1
    simp only [walkCount, funext ih]
    induction next x with
    | nil => simp
    | cons y rest ihr => simp [Finset.sum_add_distrib, ihr]

/-! ## Forests -/

/-- The vertices met on the walks of less than `n` edges. -/
def visited (next : α → List α) : Nat → α → List α
  | 0, _ => []
  | n + 1, x => x :: (next x).flatMap (visited next n)

theorem length_visited (n : Nat) (x : α) : (visited next n x).length = walksBelow next n x := by
  induction n generalizing x with
  | zero => rfl
  | succ n ih =>
    rw [visited, walksBelow, length_cons, length_flatMap, Nat.add_comm]
    simp only [ih]

theorem reach_of_visited (inside : y ∈ visited next n x) : ReflTransGen (Edge next) x y := by
  induction n generalizing x with
  | zero => cases inside
  | succ n ih =>
    rcases mem_cons.mp inside with rfl | later
    · exact .refl
    · obtain ⟨z, edge, deeper⟩ := mem_flatMap.mp later
      exact .head edge (ih deeper)

/-- Each vertex has one predecessor at most, once. -/
structure Forest (next : α → List α) : Prop where
  once : ∀ x, (next x).Nodup
  parent : ∀ {x x' y}, Edge next x y → Edge next x' y → x = x'

/-- Of two vertices that lead to the same one, one leads to the other. -/
theorem Forest.reach_or (forest : Forest next) {z : α} (first : ReflTransGen (Edge next) x z)
    (second : ReflTransGen (Edge next) y z) :
    ReflTransGen (Edge next) x y ∨ ReflTransGen (Edge next) y x := by
  have unique : Relator.RightUnique (Function.swap (Edge next)) :=
    fun _ _ _ edge edge' => forest.parent edge edge'
  rcases ReflTransGen.total_of_right_unique unique first.swap second.swap with back | back
  · exact .inr back.swap
  · exact .inl back.swap

/-- A child that leads to another child of the same vertex leads back to that vertex. -/
theorem Forest.siblings (forest : Forest next) {y' : α} (edge : Edge next x y)
    (edge' : Edge next x y') (apart : y ≠ y') (reach : ReflTransGen (Edge next) y y') :
    Loops next x := by
  rcases ReflTransGen.cases_tail reach with same | ⟨z, back, last⟩
  · exact absurd same.symm apart
  · obtain rfl : z = x := forest.parent last edge'
    exact ⟨z, .refl, .head' edge back⟩

/-- In a forest without a loop no vertex is met twice. -/
theorem Forest.nodup_visited (forest : Forest next) (straight : ¬Loops next x) (n : Nat) :
    (visited next n x).Nodup := by
  induction n generalizing x with
  | zero => exact .nil
  | succ n ih =>
    rw [visited, nodup_cons]
    constructor
    · intro again
      obtain ⟨y, edge, deeper⟩ := mem_flatMap.mp again
      exact straight ⟨x, .refl, .head' edge (reach_of_visited deeper)⟩
    · rw [nodup_flatMap]
      refine ⟨fun y edge => ih fun loops => straight (.of_edge edge loops), ?_⟩
      refine (forest.once x).imp_of_mem fun {y y'} edge edge' apart z first second => ?_
      rcases forest.reach_or (reach_of_visited first) (reach_of_visited second) with down | down
      · exact straight (forest.siblings edge edge' apart down)
      · exact straight (forest.siblings edge' edge apart.symm down)

/-- In a forest without a loop there are no more walks from a vertex than vertices. -/
theorem Forest.walksBelow_le (forest : Forest next) {vertices : List α}
    (closed : ∀ x ∈ vertices, ∀ y ∈ next x, y ∈ vertices) (known : x ∈ vertices)
    (straight : ¬Loops next x) (n : Nat) : walksBelow next n x ≤ vertices.length := by
  rw [← length_visited]
  refine (subperm_of_subset (forest.nodup_visited straight n) fun y inside => ?_).length_le
  have reach := reach_of_visited inside
  clear inside
  induction reach with
  | refl => exact known
  | tail _ edge ih => exact closed _ ih _ edge

end Graph

/-! ## What the search finds -/

section Search

variable {α : Type} [DecidableEq α] (next : α → List α) {x : α} {path vertices : List α}

/-- Whether a path from `x` comes back to itself; `path` led to `x`. -/
def search : Nat → List α → α → Bool
  | 0, _, _ => true
  | fuel + 1, path, x => decide (x ∈ path) || (next x).any (search fuel (x :: path))

variable {next}

/-- What the search reports is a loop: the fuel does not run out on a path of different vertices. -/
theorem loops_of_search (closed : ∀ x ∈ vertices, ∀ y ∈ next x, y ∈ vertices)
    (enough : vertices.length < fuel + path.length) (distinct : path.Nodup)
    (inside : ∀ y ∈ path, y ∈ vertices) (known : x ∈ vertices) (leads : Leads next path x)
    (found : search next fuel path x = true) : Loops next x := by
  induction fuel generalizing path x with
  | zero =>
    have short : path.length ≤ vertices.length :=
      (subperm_of_subset distinct inside).length_le
    omega
  | succ fuel ih =>
    rw [search, or_eq_true, decide_eq_true_eq, any_eq_true] at found
    rcases found with back | ⟨y, edge, deeper⟩
    · exact ⟨x, .refl, leads x back⟩
    · by_cases back : x ∈ path
      · exact ⟨x, .refl, leads x back⟩
      · refine .of_edge edge (ih ?_ (nodup_cons.mpr ⟨back, distinct⟩) ?_
          (closed x known y edge) (leads.step edge) deeper)
        · rw [length_cons]
          omega
        · intro z there
          rcases mem_cons.mp there with rfl | earlier
          · exact known
          · exact inside z earlier

/-- Where the search reports nothing, no walk is as long as its fuel. -/
theorem not_walks_of_search (none : search next fuel path x = false) : ¬Walks next fuel x := by
  induction fuel generalizing path x with
  | zero => cases none
  | succ fuel ih =>
    rw [search, or_eq_false_iff, any_eq_false] at none
    intro walks
    cases walks with
    | step edge rest => exact ih (eq_false_of_not_eq_true (none.2 _ edge)) rest

theorem search_iff (closed : ∀ x ∈ vertices, ∀ y ∈ next x, y ∈ vertices)
    (enough : vertices.length < fuel) (known : x ∈ vertices) :
    search next fuel [] x = true ↔ Loops next x := by
  constructor
  · exact loops_of_search closed enough .nil nofun known nofun
  · intro loops
    by_contra none
    exact not_walks_of_search (eq_false_of_not_eq_true none) (loops.walks fuel)

/-! ## How many calls it makes -/

/-- The calls that the search makes, the first one counted. -/
def calls (next : α → List α) : Nat → List α → α → Nat
  | 0, _, _ => 1
  | fuel + 1, path, x =>
    1 + if x ∈ path then 0
      else callsOver (search next fuel (x :: path)) (calls next fuel (x :: path)) (next x)

/-- A search that reports nothing makes a call for each walk. -/
theorem calls_eq_walksBelow (none : search next fuel path x = false) :
    calls next fuel path x = walksBelow next fuel x := by
  induction fuel generalizing path x with
  | zero => cases none
  | succ fuel ih =>
    rw [search, or_eq_false_iff, any_eq_false, decide_eq_false_iff_not] at none
    have each : ∀ y ∈ next x, search next fuel (x :: path) y = false :=
      fun y inside => eq_false_of_not_eq_true (none.2 y inside)
    rw [calls, if_neg none.1, callsOver_of_none each]
    congr 2
    exact map_congr_left fun y inside => ih (each y inside)

end Search

end Sora.Lib.PathSearch
