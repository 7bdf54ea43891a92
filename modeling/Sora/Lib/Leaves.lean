import Mathlib.Logic.Relation

/-!
# Leaves of a graph

A vertex leads to the leaves at the ends of its paths.  Two graphs whose edges and leaves correspond
along a relation lead to the same leaves from related vertices.
-/

namespace Sora.Lib

open Relation

/-- A graph with leaves: where a vertex goes on, and what it ends in. -/
structure Network (ν : Type) (μ : Type) where
  next : ν → ν → Prop
  leaf : ν → μ → Prop

namespace Network

variable {μ ν ν' : Type} {G : Network ν μ} {H : Network ν' μ} {l : μ} {x : ν} {x' : ν'}
    {R : ν → ν' → Prop}

/-- A path from the vertex ends in the leaf. -/
def Leads (G : Network ν μ) (x : ν) (l : μ) : Prop := ∃ y, ReflTransGen G.next x y ∧ G.leaf y l

theorem Leads.of_leaf (here : G.leaf x l) : G.Leads x l := ⟨x, .refl, here⟩

theorem Leads.of_next {y : ν} (step : G.next x y) (leads : G.Leads y l) : G.Leads x l := by
  obtain ⟨z, path, here⟩ := leads
  exact ⟨z, .head step path, here⟩

theorem leads_iff : G.Leads x l ↔ G.leaf x l ∨ ∃ y, G.next x y ∧ G.Leads y l := by
  constructor
  · intro leads
    obtain ⟨z, path, here⟩ := leads
    rcases ReflTransGen.cases_head path with rfl | ⟨y, step, rest⟩
    · exact .inl here
    · exact .inr ⟨y, step, z, rest, here⟩
  · intro either
    rcases either with here | ⟨y, step, leads⟩
    · exact .of_leaf here
    · exact .of_next step leads

/-- Every step of the first graph is one of the second, between related vertices. -/
structure Simulates (G : Network ν μ) (H : Network ν' μ) (R : ν → ν' → Prop) : Prop where
  leaf : ∀ {x x' l}, R x x' → G.leaf x l → H.leaf x' l
  next : ∀ {x x' y}, R x x' → G.next x y → ∃ y', H.next x' y' ∧ R y y'

theorem Simulates.leads (simulates : G.Simulates H R) (related : R x x') (leads : G.Leads x l) :
    H.Leads x' l := by
  obtain ⟨z, path, here⟩ := leads
  induction path using ReflTransGen.head_induction_on generalizing x' with
  | refl => exact .of_leaf (simulates.leaf related here)
  | head step _ ih =>
    obtain ⟨y', step', related'⟩ := simulates.next related step
    exact .of_next step' (ih related')

/-- Graphs that simulate each other lead to the same leaves. -/
theorem leads_iff_of_simulates (forth : G.Simulates H R) (back : H.Simulates G (Function.swap R))
    (related : R x x') (l : μ) : G.Leads x l ↔ H.Leads x' l :=
  ⟨forth.leads related, back.leads related⟩

end Network

end Sora.Lib
