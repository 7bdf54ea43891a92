import Sora.Lib.NetText

/-!
# The tunnel adapter

The part of a plan that describes the adapter and its synthesized addresses, and the
choice of addresses for a session (`prepareTun`).
-/

namespace Sora.Engine

open Sora.Lib

/-- `engine.TunDevice`. -/
def tunDevice : Bytes := ascii "sora0"

/-- How the engine answers name queries. -/
inductive DNSMode where
  | rule
  | redirHost
  | fakeIP
  deriving DecidableEq, Repr

structure DNS where
  enabled : Bool
  mode : DNSMode
  fakeIPRange : Bytes

/-- The adapter; an absent prefix is one that is not chosen yet. -/
structure Tun where
  ipv4 : Option Prefix
  ipv6 : Option Prefix
  enabled : Bool
  deviceName : Bytes

structure Plan where
  sessionID : Bytes
  tun : Tun
  dns : DNS
  /-- The names of the fallback groups. -/
  fallbacks : List Bytes

/-- A plan without adapter and names. -/
def Plan.bare : Plan := ⟨[], ⟨none, none, false, []⟩, ⟨false, .rule, []⟩, []⟩

/-! ## Address classes -/

/-- The IPv4 address inside an IPv4-mapped one. -/
def unmap (ip : IP) : IP :=
  if ip.family = .v6 ∧ ip.value / 2 ^ 32 = 0xffff then
    ⟨.v4, ip.value % 2 ^ 32, Nat.mod_lt _ (by decide)⟩
  else ip

/-- Membership in a network given by its text. -/
def inNetwork (network : String) (ip : IP) : Bool :=
  (parsePrefix (ascii network)).any (·.contains ip)

def isLoopback (ip : IP) : Bool :=
  inNetwork "127.0.0.0/8" (unmap ip) || inNetwork "::1/128" (unmap ip)

def isMulticast (ip : IP) : Bool :=
  inNetwork "224.0.0.0/4" (unmap ip) || inNetwork "ff00::/8" (unmap ip)

def isLinkLocalUnicast (ip : IP) : Bool :=
  inNetwork "169.254.0.0/16" (unmap ip) || inNetwork "fe80::/10" (unmap ip)

def isPrivate (ip : IP) : Bool :=
  inNetwork "10.0.0.0/8" (unmap ip) || inNetwork "172.16.0.0/12" (unmap ip) ||
    inNetwork "192.168.0.0/16" (unmap ip) || inNetwork "fc00::/7" (unmap ip)

def isGlobalUnicast (ip : IP) : Bool :=
  !(inNetwork "0.0.0.0/32" ip || inNetwork "255.255.255.255/32" ip || inNetwork "::/128" ip) &&
    !isLoopback ip && !isMulticast ip && !isLinkLocalUnicast ip

/-! ## Choosing addresses -/

def tunPools4 : List Bytes := [ascii "192.0.2.1/30", ascii "192.0.2.5/30", ascii "192.0.2.9/30"]

def tunPools6 : List Bytes :=
  [ascii "2001:db8:5340::1/126", ascii "2001:db8:5341::1/126", ascii "2001:db8:5342::1/126"]

inductive TunError where
  | readInterfaces
  | fakePool
  | fakeOverlap
  | invalidPool
  | poolsTaken
  | adapters
  | privateSubnet
  deriving DecidableEq, Repr

/-- The first candidate that overlaps no network in use. -/
def chooseTunPrefix : List Bytes → List Prefix → Except TunError Prefix
  | [], _ => .error .poolsTaken
  | candidate :: rest, used =>
    match parsePrefix candidate with
    | none => .error .invalidPool
    | some p => if used.any p.overlaps then chooseTunPrefix rest used else .ok p

/-- The benchmark range reserved for synthesized addresses: `198.18.0.0/15`. -/
def benchmark : Prefix := ⟨⟨.v4, 198 * 2 ^ 24 + 18 * 2 ^ 16, by decide⟩, 15, by decide⟩

def defaultFakePool : Bytes := ascii "198.18.0.0/16"

/-- The pool of the plan, if it lies within the benchmark range. -/
def fakePool (dns : DNS) : Option Prefix := do
  let p ← parsePrefix (if dns.fakeIPRange = [] then defaultFakePool else dns.fakeIPRange)
  if p.ip.family = .v4 ∧ benchmark.bits ≤ p.bits ∧ benchmark.contains p.ip then some p else none

/-- A prefix that the plan has already, or the first free candidate. -/
def keepOrChoose (chosen : Option Prefix) (candidates : List Bytes) (used : List Prefix) :
    Except TunError Prefix :=
  match chosen with
  | some p => .ok p
  | none => chooseTunPrefix candidates used

/-- `PrepareTun` on the interface prefixes it reads; `none` stands for interfaces that
cannot be read.  An error after the first choice leaves that choice in the plan. -/
def prepareTun (plan : Plan) (interfaces : Option (List Prefix)) : Option TunError × Plan :=
  if !plan.tun.enabled then (none, plan)
  else
    match interfaces with
    | none => (some .readInterfaces, plan)
    | some interfaces =>
      match fakePool plan.dns with
      | none => (some .fakePool, plan)
      | some fake =>
        if interfaces.any fake.overlaps then (some .fakeOverlap, plan)
        else
          match keepOrChoose plan.tun.ipv4 tunPools4 (interfaces ++ [fake]) with
          | .error e => (some e, plan)
          | .ok a4 =>
            let plan := { plan with tun := { plan.tun with ipv4 := some a4 } }
            match keepOrChoose plan.tun.ipv6 tunPools6 (interfaces ++ [fake]) with
            | .error e => (some e, plan)
            | .ok a6 =>
              let plan := { plan with tun := { plan.tun with ipv6 := some a6 } }
              if a4.overlaps fake || a4.ip.family != .v4 || a6.ip.family != .v6 ||
                  a4.bits != 30 || a6.bits != 126 then (some .adapters, plan)
              else if !isGlobalUnicast a4.ip || isPrivate a4.ip || !isGlobalUnicast a6.ip ||
                  isPrivate a6.ip then (some .privateSubnet, plan)
              else
                (none, { plan with
                  tun.deviceName :=
                    if plan.tun.deviceName = [] then tunDevice else plan.tun.deviceName
                  dns.fakeIPRange := formatPrefix fake.masked })

/-- `Tun.Addresses`: the adapter prefixes, with defaults for plans that are not prepared. -/
def Tun.addresses (t : Tun) : Option (List Prefix) := do
  let a4 ← t.ipv4.orElse fun _ => tunPools4.head?.bind parsePrefix
  let a6 ← t.ipv6.orElse fun _ => tunPools6.head?.bind parsePrefix
  some [a4, a6]

/-- `Tun.Networks`: the adapter subnets that the firewall knows. -/
def Tun.networks (t : Tun) : List Prefix :=
  if t.enabled then (t.addresses.getD []).map Prefix.masked else []

end Sora.Engine
