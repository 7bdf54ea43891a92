import Sora.Control.Record

/-!
# Failures on the wire

A failure has a code, a catalog key and a detail.  `transportStatus` makes a gRPC status of it whose
text is the code and the key; the app takes the key from the last word of that text.  Some handlers
return failures without `transportStatus`.  gRPC then sends the whole text of the failure, with its
detail, as a status of its own.
-/

namespace Sora.Control.Wire

open Sora.Lib List

/-- `errs.Error`, as far as statuses show it. -/
structure Failure extends Session.Err where
  detail : Bytes
  deriving DecidableEq

/-- A failure with the texts of the source. -/
def failure (code : Session.Code) (key detail : String) : Failure :=
  { code, key := ascii key, detail := ascii detail }

/-- The code and the key: what a status may say of a failure. -/
def Failure.label (e : Failure) : Bytes := codeText e.code ++ 32 :: e.key

/-- `Error.Error`. -/
def Failure.text (e : Failure) : Bytes :=
  if e.detail = [] then e.label else e.label ++ ascii ": " ++ e.detail

/-- The codes of gRPC that the core and the app tell apart. -/
inductive GrpcCode where
  | canceled
  | unknown
  | deadlineExceeded
  | permissionDenied
  | resourceExhausted
  | failedPrecondition
  | internal
  | unavailable
  | unauthenticated
  deriving DecidableEq

structure Status where
  code : GrpcCode
  message : Bytes
  deriving DecidableEq

def statusCodes : Session.Code → Option GrpcCode
  | .versionMismatch => some .failedPrecondition
  | .unauthenticated => some .unauthenticated
  | .permissionDenied => some .permissionDenied
  | .cancelled => some .canceled
  | .deadlineExceeded => some .deadlineExceeded
  | .timeout => some .deadlineExceeded
  | .internal => some .internal
  | _ => none

def transportOnly : List Session.Code := [.unauthenticated, .permissionDenied, .versionMismatch]

/-- A status for the failures of the transport, and success for all others. -/
def transportStatus (e : Failure) : Option Status :=
  if e.code ∈ transportOnly then some ⟨(statusCodes e.code).getD .unknown, e.label⟩ else none

/-- What gRPC makes of an error that is no status. -/
def Failure.raw (e : Failure) : Status := ⟨.unknown, e.text⟩

/-! ## The app -/

/-- `CoreFailure.from`: the key that the app shows for a status. -/
def coreFailureFrom (s : Status) : Session.Key :=
  let key := (s.message.splitOn 32).getLast?.getD []
  if (ascii "core.").isPrefixOf key then key
  else
    match s.code with
    | .unavailable | .deadlineExceeded | .canceled => ascii "app.core_unavailable"
    | .unauthenticated | .permissionDenied => ascii "core.auth.unauthenticated"
    | _ => ascii "core.internal.unexpected"

/-! ## The checks of the handlers -/

structure ApiVersion where
  major : Nat
  minor : Nat
  minSupportedMinor : Nat
  deriving DecidableEq

/-- `Negotiate`. -/
def negotiate (client server : ApiVersion) : Option Nat :=
  if client.major ≠ server.major then none
  else
    let low := max client.minSupportedMinor server.minSupportedMinor
    let high := min client.minor server.minor
    if high < low then none else some high

def tokenLen : Nat := 32

/-- What the handlers read of the core. -/
structure Front where
  version : ApiVersion
  token : Bytes
  /-- The id of the running session. -/
  current : Option Bytes := none
  keepsLogs : Bool := true
  deriving DecidableEq

/-- `checkVersion`. -/
def Front.checkVersion (core : Front) : Option ApiVersion → Except Failure Nat
  | none =>
    .error (failure .versionMismatch "core.api.version_mismatch"
      "control: the request carries no api version")
  | some client =>
    match negotiate client core.version with
    | some minor => .ok minor
    | none =>
      .error
        { code := .versionMismatch
          key := ascii "core.api.version_mismatch"
          detail :=
            ascii "control: the client speaks " ++ numeral 10 client.major ++ 46 ::
              numeral 10 client.minor ++ ascii ", the core speaks " ++
              numeral 10 core.version.major ++ 46 :: numeral 10 core.version.minor }

/-- `Authenticator.Check`. -/
def Front.check (core : Front) (presented : Bytes) : Except Failure Unit :=
  if presented.length = tokenLen ∧ core.token.length = tokenLen ∧ presented = core.token then .ok ()
  else
    .error (failure .unauthenticated "core.auth.unauthenticated"
      "control: the presented authenticator does not match")

/-- `authorize`, before `transportStatus`. -/
def Front.authorize (core : Front) (version : Option ApiVersion) (token : Bytes) :
    Except Failure Unit := do
  let _ ← core.checkVersion version
  core.check token

/-! ## The handlers -/

/-- The methods that return failures of their checks only; others are part of their responses. -/
inductive Method where
  | handshake
  | getAbout
  | getRoutingPresets
  | connect
  | disconnect
  | getStatus
  | setKillSwitch
  | getStats
  | parseImport
  | putSecret
  | deleteSecret
  | fetchSubscription
  | runDiagnostics
  /-- `ExportDiagnostics`, with a format of its own or not. -/
  | exportDiagnostics (native : Bool)
  | queryLogs
  | exportLogs
  | clearLogs
  | getLogSettings
  | setLogSettings
  | listConnections
  | closeConnection
  | saveSubscription
  | listSubscriptions
  | getSubscriptionLink
  | deleteSubscription
  | refreshSubscription
  | watchSubscriptions
  deriving DecidableEq

inductive Guard where
  | open
  | version
  | token
  deriving DecidableEq

def Method.guard : Method → Guard
  | .handshake => .open
  | .getAbout | .getRoutingPresets | .getStatus | .setKillSwitch | .getStats | .parseImport
  | .putSecret | .deleteSecret | .fetchSubscription | .runDiagnostics
  | .exportDiagnostics false => .version
  | _ => .token

/-- Why a probe request that passes its checks ends early. -/
inductive Obstacle where
  | noProber
  /-- The prober runs as many requests as it may. -/
  | proberBusy
  | noMeasurer
  | unknownEngine (name : Bytes)
  deriving DecidableEq

def Obstacle.failure : Obstacle → Failure
  | .noProber =>
    Wire.failure .unsupported "core.probe.invalid_endpoint"
      "control: this core cannot probe endpoints"
  | .proberBusy =>
    Wire.failure .resourceExhausted "core.probe.too_many"
      "probe: 4 measurements are already running, the limit is 4"
  | .noMeasurer =>
    Wire.failure .unsupported "core.probe.invalid_endpoint"
      "control: this core cannot measure through an engine"
  | .unknownEngine name =>
    { code := .internal
      key := ascii "core.internal.unexpected"
      detail := ascii "registry: unknown engine \"" ++ name ++ ascii "\"" }

def maxProbeEndpoints : Nat := 256

inductive Call where
  | plain (method : Method) (version : Option ApiVersion) (token : Bytes)
  | watchEvents (version : Option ApiVersion) (session : Bytes)
  /-- `total` counts the endpoints and the outbounds. -/
  | probeServers (version : Option ApiVersion) (total : Nat) (obstacle : Option Obstacle)
  /-- `lost` tells that entries were dropped while the client read. -/
  | watchLogs (version : Option ApiVersion) (token : Bytes) (filter lost : Bool)

/-- How a handler fails: through `transportStatus`, with a failure of its own or with a status. -/
inductive Return where
  | mapped (e : Failure)
  | returned (e : Failure)
  | status (s : Status)
  deriving DecidableEq

/-- What the client gets. -/
def Return.status? : Return → Option Status
  | .mapped e => transportStatus e
  | .returned e => some e.raw
  | .status s => some s

def Return.failure? : Return → Option Failure
  | .mapped e | .returned e => some e
  | .status _ => none

def failureOf {α : Type} : Except Failure α → Option Failure
  | .error e => some e
  | .ok _ => none

def noSession : Failure :=
  failure .failedPrecondition "core.session.required" "control: there is no session to watch"

def unknownSession : Failure :=
  failure .notFound "core.session.unknown"
    "control: the request names a session that is not running"

def noEndpoints : Failure :=
  failure .invalidArgument "core.probe.no_endpoints"
    "control: the probe request carries no endpoints"

def tooManyServers (total : Nat) : Failure :=
  { code := .resourceExhausted
    key := ascii "core.probe.too_many"
    detail :=
      ascii "control: the probe request carries " ++ numeral 10 total ++
        ascii " servers, the limit is " ++ numeral 10 maxProbeEndpoints }

def noLogs : Failure :=
  failure .unsupported "core.logs.unavailable" "control: this core keeps no log record"

def badFilter : Failure :=
  failure .invalidArgument "core.logs.filter_invalid"
    "control: the log filter expression is not usable"

def fellBehind : Status :=
  ⟨.resourceExhausted,
    ascii "control: the log watcher fell behind; resume from the last sequence"⟩

def Front.guarded (core : Front) (version : Option ApiVersion) (token : Bytes) :
    Guard → Option Failure
  | .open => none
  | .version => failureOf (core.checkVersion version)
  | .token => failureOf (core.authorize version token)

/-- The errors that handlers return. -/
def Front.answer (core : Front) : Call → Option Return
  | .plain method version token => (core.guarded version token method.guard).map .mapped
  | .watchEvents version session =>
    match core.checkVersion version with
    | .error e => some (.mapped e)
    | .ok _ =>
      match core.current with
      | none => some (.returned noSession)
      | some id =>
        let wanted := trimSpace session
        if wanted ≠ [] ∧ wanted ≠ id then some (.returned unknownSession) else none
  | .probeServers version total obstacle =>
    match core.checkVersion version with
    | .error e => some (.mapped e)
    | .ok _ =>
      if total = 0 then some (.returned noEndpoints)
      else if maxProbeEndpoints < total then some (.returned (tooManyServers total))
      else obstacle.map fun o => .mapped o.failure
  | .watchLogs version token filter lost =>
    match core.authorize version token with
    | .error e => some (.mapped e)
    | .ok _ =>
      if !core.keepsLogs then some (.mapped noLogs)
      else if !filter then some (.mapped badFilter)
      else if lost then some (.status fellBehind)
      else none

/-! ## What the app makes of the statuses -/

/-- The last word of a text that ends with a blank and a word. -/
theorem getLast?_splitOn_append (s : Bytes) {word : Bytes} (whole : 32 ∉ word) :
    ((s ++ 32 :: word).splitOn 32).getLast? = some word := by
  rw [splitOn_append_cons_self, splitOn_eq_singleton whole, getLast?_concat]

/-- A key of the core's catalog is one word that starts with `core.`. -/
def CoreKey (key : Session.Key) : Prop := (ascii "core.").isPrefixOf key = true ∧ 32 ∉ key

instance (key : Session.Key) : Decidable (CoreKey key) := by
  unfold CoreKey
  infer_instance

/-- A status tells the code and the key of its failure, and the app finds the key. -/
def Return.Faithful (r : Return) : Prop :=
  ∀ s, r.status? = some s →
    ∃ e, r.failure? = some e ∧ s.message = e.label ∧ coreFailureFrom s = e.key

variable {e : Failure}

theorem coreFailureFrom_label (core : CoreKey e.key) (code : GrpcCode) :
    coreFailureFrom ⟨code, e.label⟩ = e.key := by
  rw [coreFailureFrom]
  simp only [Failure.label, getLast?_splitOn_append _ core.2, Option.getD_some, core.1, if_true]

theorem Return.faithful_mapped (core : CoreKey e.key) : (Return.mapped e).Faithful := by
  intro s sent
  simp only [Return.status?, transportStatus] at sent
  split at sent
  · cases sent
    exact ⟨e, rfl, rfl, coreFailureFrom_label core _⟩
  · cases sent

/-- A failure that the transport does not report is not on the wire at all. -/
theorem Return.faithful_silent (domain : e.code ∉ transportOnly) : (Return.mapped e).Faithful := by
  intro s sent
  rw [Return.status?, transportStatus, if_neg domain] at sent
  cases sent

theorem Return.not_faithful_returned (detailed : e.detail ≠ []) :
    ¬ (Return.returned e).Faithful := by
  intro faithful
  obtain ⟨e', same, message, -⟩ := faithful e.raw rfl
  cases same
  have longer := congrArg List.length message
  rw [Failure.raw, Failure.text, if_neg detailed] at longer
  simp only [length_append] at longer
  have colon : (ascii ": ").length = 2 := rfl
  omega

theorem Return.not_faithful_status (s : Status) : ¬ (Return.status s).Faithful := by
  intro faithful
  obtain ⟨e, none', -⟩ := faithful s rfl
  cases none'

section

variable {core : Front} {version : Option ApiVersion} {token : Bytes} {e : Failure}

theorem checkVersion_error (refused : core.checkVersion version = .error e) : CoreKey e.key := by
  simp only [Front.checkVersion] at refused
  split at refused
  · cases refused
    decide
  · split at refused <;> cases refused
    change CoreKey (ascii "core.api.version_mismatch")
    decide

theorem check_error (refused : core.check token = .error e) : CoreKey e.key := by
  rw [Front.check] at refused
  split at refused <;> cases refused
  decide

theorem authorize_error (refused : core.authorize version token = .error e) : CoreKey e.key := by
  rw [Front.authorize] at refused
  cases checked : core.checkVersion version with
  | error e' =>
    rw [checked] at refused
    cases refused
    exact checkVersion_error checked
  | ok minor =>
    rw [checked] at refused
    exact check_error refused

theorem guarded_key {g : Guard} (refused : core.guarded version token g = some e) :
    CoreKey e.key := by
  cases g with
  | «open» => cases refused
  | version =>
    rw [Front.guarded] at refused
    cases checked : core.checkVersion version with
    | error e' =>
      rw [checked] at refused
      cases refused
      exact checkVersion_error checked
    | ok minor =>
      rw [checked] at refused
      cases refused
  | token =>
    rw [Front.guarded] at refused
    cases checked : core.authorize version token with
    | error e' =>
      rw [checked] at refused
      cases refused
      exact authorize_error checked
    | ok minor =>
      rw [checked] at refused
      cases refused

theorem Obstacle.silent (o : Obstacle) : o.failure.code ∉ transportOnly := by
  cases o with
  | unknownEngine name =>
    change Session.Code.internal ∉ transportOnly
    decide
  | _ => decide

end

/-- The client's request is one that its handler serves, or one that the checks refuse. -/
def Front.Serves (core : Front) : Call → Prop
  | .plain .. => True
  | .watchEvents version session =>
    ∀ minor, core.checkVersion version = .ok minor →
      ∃ id, core.current = some id ∧ (trimSpace session = [] ∨ trimSpace session = id)
  | .probeServers version total _ =>
    ∀ minor, core.checkVersion version = .ok minor → 0 < total ∧ total ≤ maxProbeEndpoints
  | .watchLogs version token filter lost =>
    core.authorize version token = .ok () → core.keepsLogs = true → filter = true → lost = false

theorem tooManyServers_detail (total : Nat) : (tooManyServers total).detail ≠ [] :=
  append_ne_nil_of_left_ne_nil (append_ne_nil_of_left_ne_nil
    (append_ne_nil_of_left_ne_nil (by decide) _) _) _

theorem all_answers {r : Return} : (∀ r', some r = some r' → r'.Faithful) ↔ r.Faithful := by simp

/-- A core without a session. -/
def idleFront : Front where
  version := { major := 1, minor := 6, minSupportedMinor := 0 }
  token := List.replicate 32 7

/-- What the app shows of a call. -/
def shown (core : Front) (call : Call) : Option (Session.Key × Option Session.Key) :=
  (core.answer call).bind fun r => r.status?.map fun s =>
    (coreFailureFrom s, r.failure?.map fun e => e.key)

end Sora.Control.Wire
