import Mathlib.Data.List.Basic
import Mathlib.Data.List.Pairwise
import Mathlib.Order.Defs.LinearOrder

/-!
# Arbitration by weight

Of the filters that hit, those of the highest weight decide, and a block among them outvotes
every permit.  `verdict_layers` is the rule for proofs: filters that fall into layers of one
weight and one action decide like a list of cases, the heaviest layer first, in whatever order
they were installed.
-/

namespace Sora.Lib.Arbitration

open List

inductive Action where
  | permit
  | block
  deriving DecidableEq, Repr

/-- Filters of type `R` over flows of type `F`. -/
structure Arbiter (R F : Type) where
  weight : R → Nat
  action : R → Action
  hits : R → F → Bool

variable {F R : Type} (a : Arbiter R F)

/-- What the filters decide; nothing if none hits. -/
def verdict (rules : List R) (flow : F) : Option Action :=
  let hits := rules.filter (a.hits · flow)
  (hits.map a.weight).max?.map fun top =>
    if hits.any fun r => a.weight r == top && a.action r == .block then .block else .permit

/-- Filters of one weight and one action. -/
structure Layer where
  rules : List R
  weight : Nat
  action : Action
  weighs : ∀ r ∈ rules, a.weight r = weight
  acts : ∀ r ∈ rules, a.action r = action

variable {a}

def Layer.hits (layer : Layer a) (flow : F) : Bool := layer.rules.any (a.hits · flow)

/-- Filters of one weight and one action that hit the flows with `P`, and no others. -/
structure Group (a : Arbiter R F) (weight : Nat) (action : Action) (P : F → Prop)
    (rules : List R) : Prop where
  weighs : ∀ r ∈ rules, a.weight r = weight
  acts : ∀ r ∈ rules, a.action r = action
  hits : ∀ flow, rules.any (a.hits · flow) = true ↔ P flow

namespace Group

variable {weight : Nat} {action : Action} {P Q : F → Prop} {rules rules' : List R}

def layer (g : Group a weight action P rules) : Layer a :=
  ⟨rules, weight, action, g.weighs, g.acts⟩

/-- The layers of groups are cases. -/
theorem find?_layer (g : Group a weight action P rules) (layers : List (Layer a)) (flow : F)
    [Decidable (P flow)] : ((g.layer :: layers).find? (·.hits flow)).map (·.action) =
      if P flow then some action else (layers.find? (·.hits flow)).map (·.action) := by
  have hit : g.layer.hits flow = true ↔ P flow := g.hits flow
  by_cases inside : P flow
  · rw [find?_cons, hit.mpr inside, if_pos inside]
    rfl
  · rw [find?_cons, Bool.eq_false_iff.mpr (mt hit.mp inside), if_neg inside]

theorem mono (g : Group a weight action P rules) (same : ∀ flow, P flow ↔ Q flow) :
    Group a weight action Q rules :=
  ⟨g.weighs, g.acts, fun flow => (g.hits flow).trans (same flow)⟩

theorem nil : Group a weight action (fun _ => False) [] :=
  ⟨by simp, by simp, by simp⟩

theorem append (g : Group a weight action P rules) (g' : Group a weight action Q rules') :
    Group a weight action (fun flow => P flow ∨ Q flow) (rules ++ rules') := by
  refine ⟨fun r member => ?_, fun r member => ?_, fun flow => ?_⟩
  · exact (mem_append.mp member).elim (g.weighs r) (g'.weighs r)
  · exact (mem_append.mp member).elim (g.acts r) (g'.acts r)
  · rw [any_append, Bool.or_eq_true, g.hits, g'.hits]

end Group

variable {flow : F}

/-- A hit that nothing outweighs decides if all hits of its weight agree with it. -/
theorem verdict_of_top {rules : List R} {r : R} (member : r ∈ rules) (hit : a.hits r flow = true)
    (top : ∀ s ∈ rules, a.hits s flow = true → a.weight s < a.weight r ∨ a.weight s = a.weight r ∧
    a.action s = a.action r) : verdict a rules flow = some (a.action r) := by
  have highest : ((rules.filter (a.hits · flow)).map a.weight).max? = some (a.weight r) := by
    rw [max?_eq_some_iff]
    constructor
    · exact mem_map_of_mem (mem_filter.mpr ⟨member, hit⟩)
    · intro n weighed
      obtain ⟨s, found, rfl⟩ := mem_map.mp weighed
      obtain ⟨inside, hit'⟩ := mem_filter.mp found
      rcases top s inside hit' with less | ⟨same, -⟩ <;> omega
  rw [verdict, highest, Option.map_some]
  cases kind : a.action r with
  | block =>
    have blocked : (rules.filter (a.hits · flow)).any
        (fun s => a.weight s == a.weight r && a.action s == .block) = true :=
      any_eq_true.mpr ⟨r, mem_filter.mpr ⟨member, hit⟩, by simp [kind]⟩
    rw [if_pos blocked]
  | permit =>
    have unblocked : (rules.filter (a.hits · flow)).any
        (fun s => a.weight s == a.weight r && a.action s == .block) = false := by
      refine any_eq_false.mpr fun s found => ?_
      obtain ⟨inside, hit'⟩ := mem_filter.mp found
      rcases top s inside hit' with less | ⟨-, same⟩
      · simp [Nat.ne_of_lt less]
      · simp [same, kind]
    rw [if_neg (by simp [unblocked])]

theorem verdict_eq_none {rules : List R} (misses : ∀ r ∈ rules, a.hits r flow = false) :
    verdict a rules flow = none := by
  have empty : rules.filter (a.hits · flow) = [] :=
    filter_eq_nil_iff.mpr fun r member => by simp [misses r member]
  rw [verdict, empty]
  rfl

/-- Layers of descending weight decide like a list of cases. -/
theorem verdict_layers {rules : List R} {layers : List (Layer a)} (flow : F)
    (covers : ∀ r, r ∈ rules ↔ ∃ layer ∈ layers, r ∈ layer.rules)
    (descending : layers.Pairwise fun heavy light => light.weight < heavy.weight) :
    verdict a rules flow = (layers.find? (·.hits flow)).map (·.action) := by
  cases found : layers.find? (·.hits flow) with
  | none =>
    refine verdict_eq_none fun r member => ?_
    obtain ⟨layer, listed, inside⟩ := (covers r).mp member
    have missed := find?_eq_none.mp found layer listed
    by_contra hit
    exact missed (any_eq_true.mpr ⟨r, inside, by simpa using hit⟩)
  | some layer =>
    obtain ⟨hit, heavier, lighter, rfl, missed⟩ := find?_eq_some_iff_append.mp found
    obtain ⟨r, inside, hit⟩ := any_eq_true.mp hit
    obtain ⟨-, below, -⟩ := pairwise_append.mp descending
    have member : r ∈ rules := (covers r).mpr ⟨layer, by simp, inside⟩
    rw [Option.map_some, ← layer.acts r inside]
    refine verdict_of_top member hit fun s listed hit' => ?_
    -- a hit of another layer comes from a lighter one
    obtain ⟨other, among, within⟩ := (covers s).mp listed
    rw [other.weighs s within, layer.weighs r inside, other.acts s within, layer.acts r inside]
    rcases mem_append.mp among with heavy | rest
    · have silent := missed other heavy
      have spoken : other.hits flow = true := any_eq_true.mpr ⟨s, within, hit'⟩
      rw [spoken] at silent
      cases silent
    · rcases mem_cons.mp rest with rfl | light
      · exact .inr ⟨rfl, rfl⟩
      · exact .inl ((pairwise_cons.mp below).1 other light)

end Sora.Lib.Arbitration
