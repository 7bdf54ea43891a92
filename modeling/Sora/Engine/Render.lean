import Sora.Engine.Tun

/-!
# The networks of a rendered configuration

What the renderers write about the adapter and the synthesized addresses, and that a plan
whose addresses are chosen keeps them however often it is prepared again.
-/

namespace Sora.Engine

open Sora.Lib

/-- The engines that a session can run; the bridge is Xray behind another engine's TUN. -/
inductive Kind where
  | mihomo
  | singBox
  | xray
  | xrayBridge
  deriving DecidableEq, Repr

/-- The addresses of the adapter and the pool of synthesized addresses, as texts. -/
structure Config where
  adapters : List Bytes
  fakePool : Option Bytes

def orDefault (text default : Bytes) : Bytes := if text = [] then default else text

/-- The adapter addresses of the plan as texts. -/
def Tun.texts (t : Tun) : List Bytes :=
  if t.enabled then (t.addresses.getD []).map formatPrefix else []

/-- sing-box: `tun` and `dns`. -/
def singBoxConfig (plan : Plan) : Config where
  adapters := plan.tun.texts
  fakePool :=
    if plan.dns.mode = .fakeIP then
      some (orDefault plan.dns.fakeIPRange (ascii "198.18.0.0/15"))
    else none

/-- mihomo: `buildTun` and `buildDNS`.  A tunnel without a resolver is refused. -/
def mihomoConfig (plan : Plan) : Option Config :=
  if plan.tun.enabled && !plan.dns.enabled then none
  else
    some
      { adapters := plan.tun.texts
        fakePool :=
          if plan.dns.enabled ∧ plan.dns.mode = .fakeIP then
            some (orDefault plan.dns.fakeIPRange (ascii "198.18.0.1/16"))
          else none }

/-- Xray takes the addresses of its adapter from the routes, and synthesizes none. -/
def xrayConfig (plan : Plan) : Config := ⟨plan.tun.texts, none⟩

/-- The configuration of each engine.  Behind the bridge mihomo carries adapter and names. -/
def render : Kind → Plan → Option Config
  | .mihomo, plan => mihomoConfig plan
  | .singBox, plan => some (singBoxConfig plan)
  | .xray, plan => some (xrayConfig plan)
  | .xrayBridge, plan => mihomoConfig plan

/-- The adapter is that of the plan, and so is the pool where there is one. -/
theorem render_spec {kind : Kind} {plan : Plan} {config : Config}
    (renders : render kind plan = some config) (chosen : plan.dns.fakeIPRange ≠ []) :
    config.adapters = plan.tun.texts ∧
      ∀ text, config.fakePool = some text → text = plan.dns.fakeIPRange := by
  have keeps (default : Bytes) : orDefault plan.dns.fakeIPRange default = plan.dns.fakeIPRange :=
    if_neg chosen
  have mihomo (config : Config) (renders : mihomoConfig plan = some config) :
      config.adapters = plan.tun.texts ∧
        ∀ text, config.fakePool = some text → text = plan.dns.fakeIPRange := by
    unfold mihomoConfig at renders
    split at renders
    · cases renders
    · cases renders
      refine ⟨rfl, fun text pool => ?_⟩
      simp only [keeps] at pool
      split at pool <;> cases pool
      rfl
  cases kind with
  | mihomo | xrayBridge => exact mihomo config renders
  | singBox =>
    cases renders
    refine ⟨rfl, fun text pool => ?_⟩
    simp only [singBoxConfig, keeps] at pool
    split at pool <;> cases pool
    rfl
  | xray =>
    cases renders
    exact ⟨rfl, fun text pool => by cases pool⟩

/-! ## Preparing again -/

/-- A plan whose addresses are chosen: preparing it again, with any interfaces and whether or
not that succeeds, leaves it as it is. -/
structure Chosen (plan : Plan) : Prop where
  stays : ∀ interfaces, (prepareTun plan interfaces).2 = plan
  pool : plan.tun.enabled = true → ∃ pool, parsePrefix plan.dns.fakeIPRange = some pool

theorem formatPrefix_ne_nil (p : Prefix) : formatPrefix p ≠ [] := by
  simp [formatPrefix]

/-- The plan after a successful choice stays as it is. -/
theorem prepareTun_chosen {plan : Plan} {a4 a6 fake : Prefix} (v4 : plan.tun.ipv4 = some a4)
    (v6 : plan.tun.ipv6 = some a6) (named : plan.tun.deviceName ≠ [])
    (pool : plan.dns.fakeIPRange = formatPrefix fake.masked) (interfaces : Option (List Prefix)) :
    (prepareTun plan interfaces).2 = plan := by
  have found (p : Prefix) (is : fakePool plan.dns = some p) : p = fake.masked := by
    unfold fakePool at is
    rw [pool, if_neg (formatPrefix_ne_nil _), parsePrefix_formatPrefix] at is
    simp only [Option.bind_eq_bind, Option.bind_some] at is
    split at is
    · exact (Option.some.inj is).symm
    · cases is
  obtain ⟨sessionID, ⟨ipv4, ipv6, enabled, device⟩, ⟨resolves, mode, range⟩, fallbacks⟩ := plan
  subst v4 v6
  unfold prepareTun
  split
  · rfl
  · split
    · rfl
    · split
      · rfl
      · rename_i p is
        split
        · rfl
        · simp only [keepOrChoose]
          split
          · rfl
          · split
            · rfl
            · simp only [found p is, Prefix.masked_masked, ← pool]

variable {requested : Plan}

/-- What a choice for an adapter in use comes to. -/
theorem prepareTun_eq_none {plan : Plan} {interfaces : List Prefix}
    (enabled : requested.tun.enabled = true) :
    prepareTun requested (some interfaces) = (none, plan) ↔
      ∃ fake a4 a6, fakePool requested.dns = some fake ∧ interfaces.any fake.overlaps = false ∧
        keepOrChoose requested.tun.ipv4 tunPools4 (interfaces ++ [fake]) = .ok a4 ∧
        keepOrChoose requested.tun.ipv6 tunPools6 (interfaces ++ [fake]) = .ok a6 ∧
        (a4.overlaps fake || a4.ip.family != .v4 || a6.ip.family != .v6 || a4.bits != 30 ||
          a6.bits != 126) = false ∧
        (!isGlobalUnicast a4.ip || isPrivate a4.ip || !isGlobalUnicast a6.ip ||
          isPrivate a6.ip) = false ∧
        { requested with
          tun := { requested.tun with
            ipv4 := some a4
            ipv6 := some a6
            deviceName :=
              if requested.tun.deviceName = [] then tunDevice else requested.tun.deviceName }
          dns.fakeIPRange := formatPrefix fake.masked } = plan := by
  unfold prepareTun
  rw [if_neg (by simp [enabled])]
  constructor
  · intro prepared
    -- of the outcomes only the last one is not an error
    simp only at prepared
    iterate 6
      split at prepared
      · cases prepared
    obtain ⟨-, rfl⟩ := Prod.mk.inj prepared
    rename_i pool free _ _ first _ _ second separate outside
    exact ⟨_, _, _, pool, Bool.eq_false_of_not_eq_true free, first, second,
      Bool.eq_false_of_not_eq_true separate, Bool.eq_false_of_not_eq_true outside, rfl⟩
  · intro outcome
    obtain ⟨fake, a4, a6, pool, free, first, second, separate, outside, rfl⟩ := outcome
    simp only [pool, free, first, second, separate, outside, Bool.false_eq_true, if_false]

theorem chosen_of_prepareTun {plan : Plan} {interfaces : Option (List Prefix)}
    (prepared : prepareTun requested interfaces = (none, plan)) : Chosen plan := by
  cases enabled : requested.tun.enabled with
  | false =>
    unfold prepareTun at prepared
    rw [if_pos (by simp [enabled])] at prepared
    obtain ⟨-, rfl⟩ := Prod.mk.inj prepared
    refine ⟨fun interfaces => ?_, fun on => ?_⟩
    · unfold prepareTun
      rw [if_pos (by simp [enabled])]
    · rw [enabled] at on
      cases on
  | true =>
    cases interfaces with
    | none => simp [prepareTun, enabled] at prepared
    | some interfaces =>
      obtain ⟨fake, a4, a6, -, -, -, -, -, -, rfl⟩ := (prepareTun_eq_none enabled).mp prepared
      refine ⟨prepareTun_chosen rfl rfl ?_ rfl, fun _ => ⟨_, parsePrefix_formatPrefix _⟩⟩
      simp only
      split
      · decide
      · assumption

end Sora.Engine
