import Sora.Engine.Render

/-!
# The addresses of a session

The adapter subnets and the pool for synthesized addresses are separate from each other, from every
interface and from the networks that the kill switch keeps reachable.  A restart prepares the plan
again while the adapter is up, and finds it as it is.
-/

namespace Sora.Engine

open Sora.Lib List

/-- Networks without a common address. -/
def Apart (p q : Prefix) : Prop := ∀ ip, ¬ (p.contains ip = true ∧ q.contains ip = true)

variable {p q : Prefix}

theorem apart_iff : Apart p q ↔ p.overlaps q = false := by
  rw [Bool.eq_false_iff, ne_eq, Prefix.overlaps_iff, not_exists]
  rfl

theorem Apart.symm (apart : Apart p q) : Apart q p :=
  fun ip both => apart ip both.symm

/-- No address of the network is private or link-local. -/
def Public (p : Prefix) : Prop :=
  ∀ ip, p.contains ip = true → isPrivate ip = false ∧ isLinkLocalUnicast ip = false

/-- The private and link-local networks, and the IPv4-mapped addresses. -/
def localNetworks : List String :=
  ["10.0.0.0/8", "172.16.0.0/12", "192.168.0.0/16", "fc00::/7", "169.254.0.0/16", "fe80::/10",
    "::ffff:0:0/96"]

theorem public_of_overlaps
    (free : ∀ network ∈ localNetworks, (parsePrefix (ascii network)).any p.overlaps = false) :
    Public p := by
  intro ip inside
  have away : ∀ network ∈ localNetworks, inNetwork network ip = false := by
    intro network listed
    have here := free network listed
    rw [inNetwork]
    cases read : parsePrefix (ascii network) with
    | none => rfl
    | some q =>
      rw [read] at here
      exact Bool.eq_false_of_not_eq_true fun common => apart_iff.mpr here ip ⟨inside, common⟩
  have mapped : unmap ip = ip := by
    refine if_neg fun both => ?_
    have outside := away "::ffff:0:0/96" (by simp [localNetworks])
    have read : parsePrefix (ascii "::ffff:0:0/96") =
        some ⟨⟨.v6, 0xffff * 2 ^ 32, by decide⟩, 96, by decide⟩ := by rfl
    rw [inNetwork, read] at outside
    simp only [Option.any_some, Prefix.contains, IP.top, Family.width, both.1, both.2] at outside
    exact absurd outside (by decide)
  simp only [localNetworks] at away
  simp [isPrivate, isLinkLocalUnicast, mapped, away]

/-! ## The candidates -/

theorem choose_spec {candidates : List Bytes} {used : List Prefix}
    (chosen : chooseTunPrefix candidates used = .ok p) :
    (∃ text ∈ candidates, parsePrefix text = some p) ∧ used.any p.overlaps = false := by
  induction candidates with
  | nil => cases chosen
  | cons text rest ih =>
    rw [chooseTunPrefix] at chosen
    split at chosen
    · cases chosen
    · rename_i q read
      split at chosen
      · obtain ⟨⟨text', listed, read'⟩, free⟩ := ih chosen
        exact ⟨⟨text', mem_cons_of_mem _ listed, read'⟩, free⟩
      · rename_i free
        cases chosen
        exact ⟨⟨text, mem_cons_self, read⟩, Bool.eq_false_of_not_eq_true free⟩

/-- Every candidate overlaps one of the networks. -/
def Taken (candidates : List Bytes) (used : List Prefix) : Prop :=
  ∀ text ∈ candidates, ∃ p, parsePrefix text = some p ∧ used.any p.overlaps = true

theorem choose_taken {candidates : List Bytes} {used : List Prefix}
    (failed : chooseTunPrefix candidates used = .error .poolsTaken) : Taken candidates used := by
  induction candidates with
  | nil => nofun
  | cons text rest ih =>
    rw [chooseTunPrefix] at failed
    split at failed
    · cases failed
    · rename_i p read
      split at failed
      · rename_i taken
        exact forall_mem_cons.mpr ⟨⟨p, read, taken⟩, ih failed⟩
      · cases failed

def pools : Family → List Bytes
  | .v4 => tunPools4
  | .v6 => tunPools6

/-- A candidate has room for two hosts, away from the local networks and from the range of
synthesized addresses. -/
structure Candidate (family : Family) (p : Prefix) : Prop where
  inFamily : p.ip.family = family
  bits : p.bits = family.width - 2
  away : Public p
  synthesized : p.overlaps benchmark = false

variable {family : Family}

theorem candidate {text : Bytes} (listed : text ∈ pools family) (read : parsePrefix text = some p) :
    Candidate family p := by
  have all : (pools family).all fun text => (parsePrefix text).all fun p =>
      p.ip.family == family && p.bits == family.width - 2 && !p.overlaps benchmark &&
        localNetworks.all fun network => !(parsePrefix (ascii network)).any p.overlaps := by
    cases family <;> decide +kernel
  have here := all_eq_true.mp all text listed
  simp only [read, Option.all_some, Bool.and_eq_true, beq_iff_eq, Bool.not_eq_true',
    all_eq_true] at here
  obtain ⟨⟨⟨family, bits⟩, synthesized⟩, away⟩ := here
  exact ⟨family, bits, public_of_overlaps away, synthesized⟩

variable {dns : DNS} {fake : Prefix}

theorem apart_families (other : p.ip.family ≠ q.ip.family) : Apart p q := by
  intro ip both
  obtain ⟨family, -⟩ := Prefix.contains_iff.mp both.1
  obtain ⟨family', -⟩ := Prefix.contains_iff.mp both.2
  exact other (family.trans family'.symm)

/-! ## The choice -/

/-- Two subnets for the adapter and a pool, apart from each other and from everything else. -/
structure Separate (interfaces : List Prefix) (a4 a6 fake : Prefix) : Prop where
  inet : a4.ip.family = .v4 ∧ a4.bits = 30
  inet6 : a6.ip.family = .v6 ∧ a6.bits = 126
  pairwise : [a4, a6, fake].Pairwise Apart
  interfaces : ∀ p ∈ [a4, a6, fake], ∀ q ∈ interfaces, Apart p q
  away : ∀ p ∈ [a4, a6, fake], Public p

variable {interfaces : List Prefix}

section

variable (pool : fakePool dns = some fake)

include pool

/-- The pool lies in the range of synthesized addresses. -/
theorem benchmark_of_fakePool :
    fake.ip.family = .v4 ∧ benchmark.bits ≤ fake.bits ∧ benchmark.contains fake.ip = true := by
  obtain ⟨p, -, within⟩ := Option.bind_eq_some_iff.mp pool
  split at within
  · rename_i conditions
    cases within
    exact conditions
  · cases within

theorem contains_benchmark {ip : IP} (inside : fake.contains ip = true) :
    benchmark.contains ip = true := by
  obtain ⟨-, longer, inner⟩ := benchmark_of_fakePool pool
  exact Prefix.contains_trans inner longer inside

theorem public_fake : Public fake := by
  have range : Public benchmark := by
    refine public_of_overlaps fun network listed => ?_
    have all : localNetworks.all fun network =>
        !(parsePrefix (ascii network)).any benchmark.overlaps := by
      decide +kernel
    simpa using all_eq_true.mp all network listed
  exact fun ip inside => range ip (contains_benchmark pool inside)

theorem apart_fake (of : Candidate family p) : Apart p fake :=
  fun ip both => apart_iff.mpr of.synthesized ip ⟨both.1, contains_benchmark pool both.2⟩

theorem choose_separate (chosen : chooseTunPrefix (pools family) (interfaces ++ [fake]) = .ok p) :
    Candidate family p ∧ Apart p fake ∧ ∀ q ∈ interfaces, Apart p q := by
  obtain ⟨⟨text, listed, read⟩, free⟩ := choose_spec chosen
  have of := candidate listed read
  refine ⟨of, apart_fake pool of, fun q inside => apart_iff.mpr ?_⟩
  exact Bool.eq_false_of_not_eq_true (any_eq_false.mp free q (mem_append_left _ inside))

theorem separate_of_choice {a4 a6 : Prefix} (free : interfaces.any fake.overlaps = false)
    (first : chooseTunPrefix tunPools4 (interfaces ++ [fake]) = .ok a4)
    (second : chooseTunPrefix tunPools6 (interfaces ++ [fake]) = .ok a6) :
    Separate interfaces a4 a6 fake.masked := by
  obtain ⟨of4, pool4, apart4⟩ := choose_separate pool
    (show chooseTunPrefix (pools .v4) (interfaces ++ [fake]) = .ok a4 from first)
  obtain ⟨of6, pool6, apart6⟩ := choose_separate pool
    (show chooseTunPrefix (pools .v6) (interfaces ++ [fake]) = .ok a6 from second)
  have fakes : ∀ q ∈ interfaces, Apart fake.masked q := by
    intro q inside
    rw [apart_iff, Prefix.overlaps_masked]
    exact Bool.eq_false_of_not_eq_true (any_eq_false.mp free q inside)
  have families : Apart a4 a6 := apart_families (by rw [of4.inFamily, of6.inFamily]; decide)
  refine ⟨⟨of4.inFamily, of4.bits⟩, ⟨of6.inFamily, of6.bits⟩, ?_, ?_, ?_⟩
  · simp only [pairwise_cons, forall_mem_cons, not_mem_nil, false_imp_iff,
      implies_true, List.Pairwise.nil, and_true, Apart, Prefix.contains_masked]
    exact ⟨⟨families, pool4⟩, pool6⟩
  · simp only [forall_mem_cons]
    exact ⟨apart4, apart6, fakes, nofun⟩
  · simp only [forall_mem_cons, Public, Prefix.contains_masked]
    exact ⟨of4.away, of6.away, public_fake pool, nofun⟩

/-- The pool that a prepared plan has is the one that was taken. -/
theorem fakePool_formatted :
    fakePool { dns with fakeIPRange := formatPrefix fake.masked } = some fake.masked := by
  obtain ⟨family, longer, inner⟩ := benchmark_of_fakePool pool
  have inner' : benchmark.contains fake.masked.ip = true := by
    obtain ⟨same, top⟩ := Prefix.contains_iff.mp inner
    exact Prefix.contains_iff.mpr ⟨same, top.trans (Prefix.top_masked fake longer).symm⟩
  simp only [fakePool, if_neg (formatPrefix_ne_nil _), parsePrefix_formatPrefix]
  exact if_pos ⟨family, longer, inner'⟩

end

theorem poolsTaken_spec {plan plan' : Plan}
    (failed : prepareTun plan (some interfaces) = (some .poolsTaken, plan')) :
    ∃ family, Taken (pools family) interfaces := by
  have taken (family : Family) {fake : Prefix} (pool : fakePool plan.dns = some fake)
      {kept : Option Prefix}
      (refused : keepOrChoose kept (pools family) (interfaces ++ [fake]) = .error .poolsTaken) :
      Taken (pools family) interfaces := by
    cases kept with
    | some p => cases refused
    | none =>
      intro text listed
      obtain ⟨p, read, overlap⟩ := choose_taken refused text listed
      rw [any_append, Bool.or_eq_true] at overlap
      refine ⟨p, read, overlap.resolve_right fun fakes => ?_⟩
      simp [apart_iff.mp (apart_fake pool (candidate listed read))] at fakes
  unfold prepareTun at failed
  split at failed
  · cases failed
  simp only at failed
  split at failed
  · cases failed
  rename_i fake pool
  split at failed
  · cases failed
  split at failed
  · rename_i e refused
    cases failed
    exact ⟨.v4, taken .v4 pool refused⟩
  split at failed
  · rename_i e refused
    cases failed
    exact ⟨.v6, taken .v6 pool refused⟩
  split at failed
  · cases failed
  split at failed
  · cases failed
  · cases failed

/-- The addresses that `PrepareTun` chooses are apart from each other, from the interfaces and from
local networks; once the adapter is up, a second call succeeds and changes nothing; and there are
too few addresses only if every candidate of a family overlaps an interface. -/
theorem tun_addresses_sound (plan plan' : Plan) (interfaces : List Prefix) :
    (plan.tun.ipv4 = none → plan.tun.ipv6 = none →
      prepareTun plan (some interfaces) = (none, plan') →
      (plan.tun.enabled = true → ∃ a4 a6 fake, plan'.tun.ipv4 = some a4 ∧ plan'.tun.ipv6 = some a6 ∧
        parsePrefix plan'.dns.fakeIPRange = some fake ∧ Separate interfaces a4 a6 fake) ∧
      ∀ later, (∀ q ∈ later, q ∈ interfaces ∨ plan'.tun.ipv4 = some q ∨ plan'.tun.ipv6 = some q) →
        prepareTun plan' (some later) = (none, plan')) ∧
    (prepareTun plan (some interfaces) = (some .poolsTaken, plan') →
      ∃ family, Taken (pools family) interfaces) := by
  refine ⟨fun new4 new6 done => ?_, poolsTaken_spec⟩
  have stays := (chosen_of_prepareTun done).stays
  cases enabled : plan.tun.enabled with
  | false =>
    simp only [prepareTun, enabled, Bool.not_false, if_true, Prod.mk.injEq, true_and] at done
    subst done
    exact ⟨by rintro ⟨⟩, fun later _ => by simp [prepareTun, enabled]⟩
  | true =>
    obtain ⟨fake, a4, a6, pool, free, first, second, separate, away, rfl⟩ :=
      (prepareTun_eq_none enabled).mp done
    rw [new4] at first
    rw [new6] at second
    have apart := separate_of_choice pool free first second
    refine ⟨fun _ => ⟨a4, a6, fake.masked, rfl, rfl, parsePrefix_formatPrefix _, apart⟩,
      fun later known => Prod.ext ?_ (stays _)⟩
    obtain ⟨⟨-, pool4⟩, pool6⟩ : (Apart a4 a6 ∧ Apart a4 fake.masked) ∧ Apart a6 fake.masked := by
      simpa using apart.pairwise
    -- the pool overlaps neither the interfaces of before nor the adapter
    have unused : later.any fake.masked.overlaps = false := by
      refine any_eq_false.mpr fun q inside => Bool.eq_false_iff.mp (apart_iff.mp ?_)
      rcases known q inside with before | same | same
      · exact apart.interfaces _ (by simp) q before
      · cases same
        exact pool4.symm
      · cases same
        exact pool6.symm
    have separate' : (a4.overlaps fake.masked || a4.ip.family != .v4 || a6.ip.family != .v6 ||
        a4.bits != 30 || a6.bits != 126) = false := by
      rw [apart_iff.mp pool4, apart.inet.1, apart.inet.2, apart.inet6.1, apart.inet6.2]
      rfl
    exact .trans (congrArg Prod.fst ((prepareTun_eq_none (by exact enabled)).mpr ⟨fake.masked, a4,
      a6, fakePool_formatted pool, unused, rfl, rfl, separate', away, rfl⟩)) rfl

/-- An adapter in use without prefixes of its own. -/
def freshPlan : Plan := { Plan.bare with tun := ⟨none, none, true, []⟩ }

/-- The first candidate of each family is taken. -/
def busyInterfaces : List Prefix :=
  (tunPools4.take 1 ++ tunPools6.take 1).filterMap parsePrefix

theorem fresh_plan_separate : ∃ plan, prepareTun freshPlan (some busyInterfaces) = (none, plan) ∧
    (∃ a4 a6 fake, plan.tun.ipv4 = some a4 ∧ plan.tun.ipv6 = some a6 ∧
      parsePrefix plan.dns.fakeIPRange = some fake ∧ Separate busyInterfaces a4 a6 fake) ∧
    prepareTun plan (some busyInterfaces) = (none, plan) := by
  have done : (prepareTun freshPlan (some busyInterfaces)).1 = none := by decide +kernel
  cases prepared : prepareTun freshPlan (some busyInterfaces) with
  | mk outcome plan =>
    obtain rfl : outcome = none := (congrArg Prod.fst prepared).symm.trans done
    obtain ⟨separate, again⟩ :=
      (tun_addresses_sound freshPlan plan busyInterfaces).1 rfl rfl prepared
    exact ⟨plan, rfl, separate rfl, again _ fun q inside => .inl inside⟩

end Sora.Engine
