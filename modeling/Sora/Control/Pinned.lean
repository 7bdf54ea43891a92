import Sora.Control.SessionPlan

/-!
# A pinned engine

`Pin` restricts the service to one engine.  The registry keeps the pin as a preference of length
one, which `order` puts before what a request asks for.  The factory then replaces the order once
more, for plans that ask for private control and name no engines, and does not look at the pin
again.
-/

namespace Sora.Control

open Sora.Lib Sora.Contract List Registry

/-- `Registry.Pin`; the empty text pins nothing. -/
def Registry.pin (r : Registry) (kind : EngineKind) : Option Registry :=
  if kind = .other [] then some r
  else if kind ∈ drivers then some { r with preference := [kind] }
  else none

/-- `SelectEngine`, without the reasons for passing engines over. -/
def selectEngine (linux : Bool) (found : List Availability) (p : Plan)
    (preference : List EngineKind) : Option EngineKind :=
  if p.outbounds = [] then none
  else preference.find? fun kind => (consider linux found p kind).isOk

/-- The engines that `Registry.Measure` starts for the outbounds; one that none carries is an
orphan. -/
def Registry.measureWith (r : Registry) (engines : List EngineKind) (outbounds : List Outbound) :
    Option (List (Outbound × Option EngineKind)) :=
  (r.order engines).map fun order => outbounds.map fun o =>
    (o, selectEngine r.linux r.availability { sessionID := [], outbounds := [o] } order)

section

variable {pinned r : Registry} {k : EngineKind}

theorem pin_eq_some (named : k ≠ .other []) (done : r.pin k = some pinned) :
    k ∈ drivers ∧ pinned = { r with preference := [k] } := by
  rw [pin, if_neg named] at done
  split at done
  · rename_i known
    cases done
    exact ⟨known, rfl⟩
  · cases done

theorem order_pinned (single : pinned.preference = [k]) (requested : List EngineKind) :
    pinned.order requested = some [k] := by
  rw [order, if_pos (.inl (by rw [single]; rfl)), single]

theorem measure_pinned (single : pinned.preference = [k]) {engines : List EngineKind}
    {outbounds : List Outbound} {uses : List (Outbound × Option EngineKind)}
    (made : pinned.measureWith engines outbounds = some uses) :
    ∀ use ∈ uses, ∀ kind, use.2 = some kind → kind = k := by
  rw [measureWith, order_pinned single, Option.map_some, Option.some.injEq] at made
  subst made
  intro use inside kind found
  obtain ⟨o, -, rfl⟩ := mem_map.mp inside
  simp only [selectEngine, if_neg (cons_ne_nil o [])] at found
  exact mem_singleton.mp (mem_of_find?_eq_some found)

/-- The first kind of the private order that passes is `k`, or none is. -/
theorem find_private_iff (known : k ∈ drivers) (passes : EngineKind → Bool) :
    (∀ kind, privatePreference.find? passes = some kind → kind = k) ↔
      ∀ kind ∈ privatePreference, kind ≠ k → passes kind = true →
        passes k = true ∧ privatePreference.idxOf k < privatePreference.idxOf kind := by
  simp only [drivers, mem_cons, not_mem_nil, or_false] at known
  rcases known with rfl | rfl | rfl <;> cases sing : passes .singBox <;>
    cases mihomo : passes .mihomo <;> cases xray : passes .xray <;>
    simp [sing, mihomo, privatePreference]

/-- After a pin, measurements use the engine or none.  Plans do exactly if they name engines or do
not ask for private control, or if no other engine that carries them comes first in the private
order. -/
theorem pinned_only_iff (named : k ≠ .other []) (done : r.pin k = some pinned) :
    (∀ engines outbounds uses, pinned.measureWith engines outbounds = some uses →
      ∀ use ∈ uses, ∀ kind, use.2 = some kind → kind = k) ∧
    ∀ engines p, (∀ kind bridge, pinned.pick engines p = some (kind, bridge) →
        kind = k ∧ (bridge = true → kind = .xray)) ↔
      (engines = [] → p.privateControl = true → ∀ kind ∈ privatePreference, kind ≠ k →
        pinned.carries p kind = true → pinned.carries p k = true ∧
          privatePreference.idxOf k < privatePreference.idxOf kind) := by
  obtain ⟨known, rfl⟩ := pin_eq_some named done
  have single : ({ r with preference := [k] } : Registry).preference = [k] := rfl
  generalize ({ r with preference := [k] } : Registry) = pinned at single
  refine ⟨fun _ _ _ made => measure_pinned single made, fun engines p => ?_⟩
  have bridged : ∀ kind, needsBridge pinned.linux p kind = true → kind = .xray := by
    intro kind needed
    simp only [needsBridge, Bool.and_eq_true, beq_iff_eq] at needed
    exact needed.1.1
  have picked : ∀ kind bridge, pinned.pick engines p = some (kind, bridge) ↔
      (pinned.tried engines p).find? (pinned.carries p) = some kind ∧
        needsBridge pinned.linux p kind = bridge := by
    intro kind bridge
    rw [pick_eq, order_pinned single, Option.bind_some, Option.map_eq_some_iff]
    constructor
    · intro some
      obtain ⟨found, first, same⟩ := some
      cases same
      exact ⟨first, rfl⟩
    · intro both
      exact ⟨kind, both.1, by rw [both.2]⟩
  have reduced : (∀ kind bridge, pinned.pick engines p = some (kind, bridge) →
      kind = k ∧ (bridge = true → kind = .xray)) ↔
      ∀ kind, (pinned.tried engines p).find? (pinned.carries p) = some kind → kind = k := by
    constructor
    · intro all kind found
      exact (all kind _ ((picked kind _).mpr ⟨found, rfl⟩)).1
    · intro all kind bridge chosen
      obtain ⟨found, rfl⟩ := (picked kind bridge).mp chosen
      exact ⟨all kind found, bridged kind⟩
  rw [reduced, tried]
  by_cases loose : engines = [] ∧ p.privateControl = true
  · rw [if_pos loose, find_private_iff known]
    exact ⟨fun all _ _ => all, fun all => all loose.1 loose.2⟩
  · rw [if_neg loose, order_pinned single]
    refine ⟨fun _ unnamed private_ => absurd ⟨unnamed, private_⟩ loose, fun _ kind found => ?_⟩
    exact mem_singleton.mp (mem_of_find?_eq_some found)

end

/-- A registry with the three engines. -/
def stockedRegistry : Registry :=
  let found :=
    [{ kind := .singBox, version := { major := 1, minor := 12 }, usable := true },
      { kind := .xray, version := { major := 26, minor := 4 }, usable := true },
      { kind := .mihomo, version := { major := 1, minor := 20 }, usable := true }]
  { linux := true, binaries := found, availability := found }

def plainOutbound : Outbound :=
  { id := ascii "a", name := ascii "a", protocol := .socks5, server := ascii "a.example"
    port := 1080 }

/-- A plan that mihomo and Xray carry and that asks for private control. -/
def privatePlan : Plan :=
  { sessionID := ascii "s", privateControl := true, outbounds := [plainOutbound] }

/-- The engines of the plan for a registry pinned to `k`. -/
def pinnedPick (k : EngineKind) (engines : List EngineKind) : Option (EngineKind × Bool) :=
  (stockedRegistry.pin k).bind fun pinned => pinned.pick engines privatePlan

/-- A registry pinned to Xray starts mihomo for a plan with private control that Xray carries. -/
theorem pin_overridden : pinnedPick .xray [] = some (.mihomo, false) ∧
    pinnedPick .xray [.mihomo] = some (.xray, false) := by
  decide

def xrayRegistry : Registry := { stockedRegistry with preference := [.xray] }

/-- The pin holds for the same plan with engines of its own. -/
theorem pin_holds_named : stockedRegistry.pin .xray = some xrayRegistry ∧
    ∀ kind bridge, xrayRegistry.pick [.mihomo] privatePlan = some (kind, bridge) →
      kind = .xray ∧ (bridge = true → kind = .xray) := by
  have done : stockedRegistry.pin .xray = some xrayRegistry := rfl
  refine ⟨done, ((pinned_only_iff (by decide) done).2 [.mihomo] privatePlan).mpr ?_⟩
  intro unnamed
  cases unnamed

end Sora.Control
