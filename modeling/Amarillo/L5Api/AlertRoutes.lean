import Mathlib
import Amarillo.L2Db.Validators
import Amarillo.L4Alerts.Dispatcher
import Amarillo.L4Alerts.Signature
import Amarillo.L5Api.Auth

/-!
# Admin routes (`api/src/routes/alerts.rs`, `contract_labels.rs`)

`Server` is what the admin routes work on: the tables of a `Dispatcher` and the labels.
`handle` answers one request. The answer of a route is a function of the tables, the key
and what the random number generator gave; everything a route writes to the subscriptions
it writes by one `ApiCall` (`handle_call`).

The path and the body have been read: what `axum` refuses to read never gets here.
-/
namespace Amarillo.L5
open Amarillo.Core Amarillo.L2 Amarillo.L4

def MAX_WEBHOOK_URL_LEN : Nat := 2048
def DEFAULT_LIST_LIMIT : Int := 100
def MAX_LIST_LIMIT : Int := 500
def SECRET_BYTES : Nat := 32

/-- mirrors crates/api/src/routes/alerts.rs:43-60 -/
structure CreateBody where
  webhookUrl : String
  errorCategory : Option String
  toAddr : Option String
  subType : Option String
  thresholdCount : Option Int
  thresholdWindowSecs : Option Int
  debounceSecs : Option Int
  deriving DecidableEq, Repr

/-- A row of `alert_subscription` without its secret, as the list shows it. -/
structure SubscriptionView where
  subscriptionId : Int
  errorCategory : Option ErrorCategory
  toAddr : Option String
  webhookUrl : String
  active : Bool
  createdAt : Int
  subType : SubType
  rate : Option RateColumns
  deriving DecidableEq, Repr

/-- The answer to the request that made the secret. -/
structure AlertSubscriptionCreated where
  view : SubscriptionView
  signingSecret : String
  deriving DecidableEq, Repr

/-- The tables behind the admin routes; `createdAt` is a column of the subscriptions. -/
structure Server where
  dispatcher : Dispatcher
  createdAt : Int → Int
  labels : Labels

/-- What `getrandom` fills the buffer with, if it works. -/
abbrev Rng := Option { buf : Bytes // buf.length = SECRET_BYTES }

inductive Request where
  | createAlertSubscription (body : CreateBody)
  | listAlertSubscriptions (limit : Option Int)
  | deactivateAlertSubscription (id : Int)
  | rotateAlertSubscriptionSecret (id : Int)
  | createContractLabel (body : CreateLabelBody)
  | deleteContractLabel (address : String)
  deriving DecidableEq, Repr

inductive Response where
  | created (row : AlertSubscriptionCreated)
  | listed (rows : List SubscriptionView)
  | noContent
  | rotated (row : AlertSubscriptionCreated)
  | labelled (row : ContractLabel)
  | refused (e : RouteError)
  deriving DecidableEq, Repr

def Server.subscriptions (s : Server) : Table AlertSubscription.subscriptionId :=
  s.dispatcher.alerts.subscriptions

def Server.now (s : Server) : Int := s.dispatcher.alerts.now

def Server.view (s : Server) (x : AlertSubscription) : SubscriptionView :=
  ⟨x.subscriptionId, x.errorCategory, x.toAddr, x.webhookUrl, x.active, s.createdAt x.subscriptionId,
    x.subType, s.dispatcher.rates x.subscriptionId⟩

/-! ## Creation -/

/-- mirrors crates/api/src/routes/alerts.rs:69-76 -/
def generateSigningSecret : Rng → Except RouteError String
  | some buf => .ok (bytesToHex buf.1)
  | none => .error (.internal "rng unavailable")

def CreateBody.category (body : CreateBody) : Except RouteError (Option ErrorCategory) :=
  match body.errorCategory with
  | none => .ok none
  | some s =>
    if s = "" then .ok none
    else match categoryFromStr s with
      | some c => .ok (some c)
      | none => .error (.badRequest ("invalid `error_category`: " ++ s))

def CreateBody.toAddrNorm (body : CreateBody) : Except RouteError (Option String) :=
  match body.toAddr with
  | none => .ok none
  | some s =>
    if s = "" then .ok none
    else if isEvmAddress (lower s) then .ok (some (lower s))
    else .error (.badRequest ("invalid `to_addr` (expected 0x + 40 hex): " ++ s))

def CreateBody.parsedSubType (body : CreateBody) : Except RouteError SubType :=
  match body.subType with
  | none => .ok .perEvent
  | some "" => .ok .perEvent
  | some "per_event" => .ok .perEvent
  | some "rate_threshold" => .ok .rateThreshold
  | some other => .error (.badRequest
      ("invalid `sub_type` (expected 'per_event' or 'rate_threshold'): " ++ other))

/-- The three fields, or that there are none. -/
def CreateBody.rate (body : CreateBody) : SubType → Except RouteError (Option RateColumns)
  | .perEvent =>
    if body.thresholdCount.isSome ∨ body.thresholdWindowSecs.isSome ∨ body.debounceSecs.isSome then
      .error (.badRequest
        "per_event sub_type must not carry threshold_count / threshold_window_secs / debounce_secs")
    else .ok none
  | .rateThreshold => do
    let thresholdCount ← body.thresholdCount.elim
      (.error (.badRequest "rate_threshold requires `threshold_count` (> 0)")) .ok
    let thresholdWindowSecs ← body.thresholdWindowSecs.elim
      (.error (.badRequest "rate_threshold requires `threshold_window_secs` (> 0)")) .ok
    let debounceSecs ← body.debounceSecs.elim
      (.error (.badRequest "rate_threshold requires `debounce_secs` (>= 0)")) .ok
    if thresholdCount ≤ 0 then
      .error (.badRequest ("`threshold_count` must be > 0; got " ++ thresholdCount.repr))
    else if thresholdWindowSecs ≤ 0 then
      .error (.badRequest ("`threshold_window_secs` must be > 0; got " ++ thresholdWindowSecs.repr))
    else if debounceSecs < 0 then
      .error (.badRequest ("`debounce_secs` must be >= 0; got " ++ debounceSecs.repr))
    else .ok (some ⟨thresholdCount, thresholdWindowSecs, debounceSecs⟩)

/-- A subscription as the checks leave it. -/
structure NewSubscription where
  errorCategory : Option ErrorCategory
  toAddr : Option String
  webhookUrl : String
  signingSecret : String
  rate : Option RateColumns
  deriving DecidableEq, Repr

/-- The checks, in the order of the source: the secret is made before the rate fields are looked at. -/
def CreateBody.checked (U : UrlCrate) (rng : Rng) (body : CreateBody) :
    Except RouteError NewSubscription := do
  if MAX_WEBHOOK_URL_LEN < (utf8 body.webhookUrl).length then
    throw (.badRequest s!"webhook_url too long (max {MAX_WEBHOOK_URL_LEN})")
  match webhookUrlIsSafe U body.webhookUrl with
  | .error reason => throw (.badRequest ("unsafe webhook_url: " ++ reason.debug))
  | .ok () =>
    let errorCategory ← body.category
    let toAddr ← body.toAddrNorm
    let subType ← body.parsedSubType
    let signingSecret ← generateSigningSecret rng
    let rate ← body.rate subType
    pure ⟨errorCategory, toAddr, body.webhookUrl, signingSecret, rate⟩

def NewSubscription.subType (x : NewSubscription) : SubType :=
  if x.rate.isSome then .rateThreshold else .perEvent

/-- The `INSERT` of the subscription. -/
def NewSubscription.call (x : NewSubscription) : ApiCall :=
  match x.rate with
  | none => .insertAlertSubscription x.errorCategory x.toAddr x.webhookUrl x.signingSecret
  | some rate => .insertAlertSubscriptionRate x.errorCategory x.toAddr x.webhookUrl x.signingSecret rate

/-- The row comes in under the next id, stamped with the time. -/
def Server.inserted (s : Server) (x : NewSubscription) : Server :=
  { s with
    dispatcher := apiStep s.dispatcher x.call
    createdAt := fun id => if id = s.dispatcher.nextId then s.now else s.createdAt id }

/-- The same row as it is returned. -/
def Server.createdRow (s : Server) (x : NewSubscription) : AlertSubscriptionCreated :=
  ⟨⟨s.dispatcher.nextId, x.errorCategory, x.toAddr, x.webhookUrl, true, s.now, x.subType, x.rate⟩,
    x.signingSecret⟩

def Server.updated (s : Server) (call : ApiCall) : Server :=
  { s with dispatcher := apiStep s.dispatcher call }

/-- A URL with a zero byte does not get into a `TEXT` column.
mirrors crates/api/src/routes/alerts.rs:91-200 -/
def createAlertSubscription (U : UrlCrate) (rng : Rng) (body : CreateBody) (s : Server) :
    Except RouteError (Server × AlertSubscriptionCreated) := do
  let x ← body.checked U rng
  if text x.webhookUrl then pure (s.inserted x, s.createdRow x)
  else throw (.internal "database error")

/-! ## The other routes -/

/-- mirrors crates/api/src/routes/alerts.rs:203-214 -/
def listAlertSubscriptions (limit : Option Int) (s : Server) : List SubscriptionView :=
  let limit := max 1 (min (limit.getD DEFAULT_LIST_LIMIT) MAX_LIST_LIMIT)
  ((s.subscriptions.rows.mergeSort fun a b => decide (b.subscriptionId ≤ a.subscriptionId)).take
    limit.toNat).map s.view

/-- mirrors crates/api/src/routes/alerts.rs:220-232 -/
def deactivateAlertSubscription (id : Int) (s : Server) : Except RouteError Server :=
  if ∃ x ∈ s.subscriptions.get id, x.active = true then
    .ok (s.updated (.deactivateAlertSubscription id))
  else .error (.notFound ("alert subscription " ++ id.repr ++ " (not found or already inactive)"))

/-- mirrors crates/api/src/routes/alerts.rs:241-257 -/
def rotateAlertSubscriptionSecret (rng : Rng) (id : Int) (s : Server) :
    Except RouteError (Server × AlertSubscriptionCreated) := do
  let newSecret ← generateSigningSecret rng
  match (s.subscriptions.get id).filter AlertSubscription.active with
  | some x => pure (s.updated (.rotateAlertSubscriptionSecret id newSecret),
      ⟨s.view x, newSecret⟩)
  | none => throw (.notFound
      ("alert subscription " ++ id.repr ++ " (not found or inactive — cannot rotate)"))

/-- `DELETE FROM contract_label WHERE address = …` -/
def deleteLabel (labels : Labels) (address : String) : Labels where
  table := labels.table.filter fun l => decide (l.address ≠ address)
  accepted l hl := labels.accepted l (List.mem_of_mem_filter hl)

/-- mirrors crates/api/src/routes/contract_labels.rs:95-113 -/
def deleteContractLabel (address : String) (labels : Labels) : Except RouteError Labels :=
  let key := lower (trim address)
  if !isEvmAddress key then
    .error (.badRequest ("invalid `address` (expected 0x + 40 hex): " ++ address))
  else if (labels.table.get (lower key)).isNone then
    .error (.notFound ("contract_label " ++ key ++ " (not found)"))
  else .ok (deleteLabel labels (lower key))

/-! ## Requests -/

/-- The handlers that take an `AdminAuth`. -/
def Request.admin : Request → Bool
  | .listAlertSubscriptions _ => false
  | _ => true

/-- A handler once its extractors have passed. -/
def serve (U : UrlCrate) (rng : Rng) (s : Server) : Request → Except RouteError (Server × Response)
  | .createAlertSubscription body => do
    let (s', row) ← createAlertSubscription U rng body s
    pure (s', .created row)
  | .listAlertSubscriptions limit => pure (s, .listed (listAlertSubscriptions limit s))
  | .deactivateAlertSubscription id => do
    let s' ← deactivateAlertSubscription id s
    pure (s', .noContent)
  | .rotateAlertSubscriptionSecret id => do
    let (s', row) ← rotateAlertSubscriptionSecret rng id s
    pure (s', .rotated row)
  | .createContractLabel body =>
    match createContractLabel s.now body s.labels with
    | .ok (labels, row) => pure ({ s with labels := labels }, .labelled row)
    | .error e => throw e.toRouteError
  | .deleteContractLabel address => do
    let labels ← deleteContractLabel address s.labels
    pure ({ s with labels := labels }, .noContent)

/-- The server after a request, and its answer. -/
def handle (U : UrlCrate) (adminApiKey : String) (authorization : Option Bytes) (rng : Rng)
    (req : Request) (s : Server) : Server × Response :=
  let answer := do
    if req.admin then fromRequestParts adminApiKey authorization
    serve U rng s req
  match answer with
  | .ok x => x
  | .error e => (s, .refused e)

/-! ## What a request does -/

section Effects
variable {U : UrlCrate} {adminApiKey : String} {authorization : Option Bytes} {rng : Rng}

/-- What the checks of a creation leave. -/
structure Accepted (U : UrlCrate) (rng : Rng) (body : CreateBody) (x : NewSubscription) : Prop where
  url : x.webhookUrl = body.webhookUrl
  length : (utf8 x.webhookUrl).length ≤ MAX_WEBHOOK_URL_LEN
  safe : webhookUrlIsSafe U x.webhookUrl = .ok ()
  toAddr : ∀ a ∈ x.toAddr, isEvmAddress a = true ∧ lower a = a
  secret : ∃ buf, rng = some buf ∧ x.signingSecret = bytesToHex buf.1
  rate : ∀ r ∈ x.rate, r.accepted

theorem toAddrNorm_ok {body : CreateBody} {toAddr : Option String}
    (h : body.toAddrNorm = .ok toAddr) : ∀ a ∈ toAddr, isEvmAddress a = true ∧ lower a = a := by
  unfold CreateBody.toAddrNorm at h
  intro a ha
  split at h
  · cases h
    cases ha
  · rename_i raw _
    split_ifs at h with _ haddr <;> cases h
    · cases ha
    · cases ha
      refine ⟨haddr, ?_⟩
      simp only [lower, String.toList_ofList, List.map_map]
      congr 2
      funext c
      exact Char.toLower_eq_of_not_isUpper (by simp [Char.isUpper_toLower_eq_false])

theorem rate_ok {body : CreateBody} {subType : SubType} {rate : Option RateColumns}
    (h : body.rate subType = .ok rate) : ∀ r ∈ rate, r.accepted := by
  intro r hr
  cases subType with
  | perEvent =>
    simp only [CreateBody.rate] at h
    split at h <;> cases h
    cases hr
  | rateThreshold =>
    simp only [CreateBody.rate] at h
    obtain ⟨count, -, h⟩ := bind_ok h
    obtain ⟨window, -, h⟩ := bind_ok h
    obtain ⟨debounce, -, h⟩ := bind_ok h
    split_ifs at h with hcount hwindow hdebounce
    cases h
    cases hr
    exact ⟨not_le.mp hcount, not_le.mp hwindow, not_lt.mp hdebounce⟩

theorem checked_ok {body : CreateBody} {x : NewSubscription} (h : body.checked U rng = .ok x) :
    Accepted U rng body x := by
  unfold CreateBody.checked at h
  by_cases hlen : MAX_WEBHOOK_URL_LEN < (utf8 body.webhookUrl).length
  · rw [if_pos hlen] at h
    cases h
  rw [if_neg hlen] at h
  cases hsafe : webhookUrlIsSafe U body.webhookUrl with
  | error reason =>
    simp only [hsafe] at h
    cases h
  | ok u =>
    simp only [hsafe] at h
    obtain ⟨errorCategory, -, h⟩ := bind_ok h
    obtain ⟨toAddr, htoAddr, h⟩ := bind_ok h
    obtain ⟨subType, -, h⟩ := bind_ok h
    obtain ⟨signingSecret, hsecret, h⟩ := bind_ok h
    obtain ⟨rate, hrate, h⟩ := bind_ok h
    cases h
    refine ⟨rfl, not_lt.mp hlen, hsafe, toAddrNorm_ok htoAddr, ?_, rate_ok hrate⟩
    cases rng with
    | none => cases hsecret
    | some buf =>
      cases hsecret
      exact ⟨buf, rfl, rfl⟩

/-- What a request does to the server, and the answer to it. -/
inductive HandleEffect (U : UrlCrate) (adminApiKey : String) (authorization : Option Bytes)
    (rng : Rng) (s : Server) : Request → Server → Response → Prop where
  | unauthorized {req : Request} (hadmin : req.admin = true)
    (hauth : fromRequestParts adminApiKey authorization ≠ .ok ()) :
    HandleEffect U adminApiKey authorization rng s req s (.refused .unauthorized)
  | refused {req : Request} {e : RouteError}
    (hauth : req.admin = true → fromRequestParts adminApiKey authorization = .ok ())
    (hserve : serve U rng s req = .error e) :
    HandleEffect U adminApiKey authorization rng s req s (.refused e)
  | created {body : CreateBody} {x : NewSubscription}
    (hauth : fromRequestParts adminApiKey authorization = .ok ())
    (hchecked : Accepted U rng body x) :
    HandleEffect U adminApiKey authorization rng s (.createAlertSubscription body) (s.inserted x)
      (.created (s.createdRow x))
  | listed {limit : Option Int} :
    HandleEffect U adminApiKey authorization rng s (.listAlertSubscriptions limit) s
      (.listed (listAlertSubscriptions limit s))
  | deactivated {id : Int} {x : AlertSubscription}
    (hauth : fromRequestParts adminApiKey authorization = .ok ())
    (hx : s.subscriptions.get id = some x) (hactive : x.active = true) :
    HandleEffect U adminApiKey authorization rng s (.deactivateAlertSubscription id)
      (s.updated (.deactivateAlertSubscription id)) .noContent
  | rotated {id : Int} {x : AlertSubscription} {buf : { buf : Bytes // buf.length = SECRET_BYTES }}
    (hauth : fromRequestParts adminApiKey authorization = .ok ()) (hrng : rng = some buf)
    (hx : s.subscriptions.get id = some x) (hactive : x.active = true) :
    HandleEffect U adminApiKey authorization rng s (.rotateAlertSubscriptionSecret id)
      (s.updated (.rotateAlertSubscriptionSecret id (bytesToHex buf.1)))
      (.rotated ⟨s.view x, bytesToHex buf.1⟩)
  | labelled {body : CreateLabelBody} {labels : Labels} {row : ContractLabel}
    (hauth : fromRequestParts adminApiKey authorization = .ok ())
    (hcreate : createContractLabel s.now body s.labels = .ok (labels, row)) :
    HandleEffect U adminApiKey authorization rng s (.createContractLabel body)
      { s with labels := labels } (.labelled row)
  | unlabelled {address : String} {labels : Labels}
    (hauth : fromRequestParts adminApiKey authorization = .ok ())
    (hdelete : deleteContractLabel address s.labels = .ok labels) :
    HandleEffect U adminApiKey authorization rng s (.deleteContractLabel address)
      { s with labels := labels } .noContent

theorem fromRequestParts_error {key : String} {e : RouteError}
    (h : fromRequestParts key authorization = .error e) : e = .unauthorized := by
  rw [fromRequestParts_eq] at h
  split at h <;> cases h
  rfl

theorem serve_effect {s : Server} {req : Request} {x : Server × Response}
    (hauth : req.admin = true → fromRequestParts adminApiKey authorization = .ok ())
    (h : serve U rng s req = .ok x) :
    HandleEffect U adminApiKey authorization rng s req x.1 x.2 := by
  cases req with
  | createAlertSubscription body =>
    obtain ⟨y, hcreate, h⟩ := bind_ok h
    obtain ⟨new, hchecked, hcreate⟩ := bind_ok hcreate
    split at hcreate <;> cases hcreate
    cases h
    exact .created (hauth rfl) (checked_ok hchecked)
  | listAlertSubscriptions limit =>
    cases h
    exact .listed
  | deactivateAlertSubscription id =>
    obtain ⟨s', hdeact, h⟩ := bind_ok h
    unfold deactivateAlertSubscription at hdeact
    split at hdeact <;> cases hdeact
    rename_i hactive
    obtain ⟨row, hrow, hactive⟩ := hactive
    cases h
    exact .deactivated (hauth rfl) hrow hactive
  | rotateAlertSubscriptionSecret id =>
    obtain ⟨y, hrotate, h⟩ := bind_ok h
    obtain ⟨newSecret, hsecret, hrotate⟩ := bind_ok hrotate
    split at hrotate <;> cases hrotate
    rename_i row hrow
    obtain ⟨hrow, hactive⟩ := Option.filter_eq_some_iff.mp hrow
    cases h
    cases rng with
    | none => cases hsecret
    | some buf =>
      cases hsecret
      exact .rotated (hauth rfl) rfl hrow hactive
  | createContractLabel body =>
    simp only [serve] at h
    split at h
    · rename_i hcreate
      cases h
      exact .labelled (hauth rfl) hcreate
    · cases h
  | deleteContractLabel address =>
    obtain ⟨labels, hdelete, h⟩ := bind_ok h
    cases h
    exact .unlabelled (hauth rfl) hdelete

theorem handle_effect (s : Server) (req : Request) :
    HandleEffect U adminApiKey authorization rng s req
      (handle U adminApiKey authorization rng req s).1
      (handle U adminApiKey authorization rng req s).2 := by
  by_cases hauth : req.admin = true → fromRequestParts adminApiKey authorization = .ok ()
  · have hanswer : handle U adminApiKey authorization rng req s =
        match serve U rng s req with
        | .ok x => x
        | .error e => (s, .refused e) := by
      unfold handle
      cases hadmin : req.admin with
      | false => rfl
      | true =>
        simp only [if_true, hauth hadmin]
        rfl
    rw [hanswer]
    cases hserve : serve U rng s req with
    | ok x => exact serve_effect hauth hserve
    | error e => exact .refused hauth hserve
  · obtain ⟨hadmin, hclosed⟩ := Classical.not_imp.mp hauth
    cases herror : fromRequestParts adminApiKey authorization with
    | ok u => exact absurd herror hclosed
    | error e =>
      have hanswer : handle U adminApiKey authorization rng req s = (s, .refused e) := by
        unfold handle
        simp only [hadmin, if_true, herror]
        rfl
      rw [hanswer, fromRequestParts_error herror]
      exact .unauthorized hadmin hclosed

end Effects
end Amarillo.L5
