import Amarillo.Core.Num
import Amarillo.L2Db.Validators
import Amarillo.L4Alerts.Dispatch
import Amarillo.L4Alerts.Rate

/-!
# Sending a webhook (`dispatch_item`, `dispatch_rate_item`)

Both functions check the URL and the secret, post, and record the outcome. They
are given here by their effects, in order; what the HTTP client, the resolver
and the receiver do is the environment (`Exchange`). The client connects to the
host itself if the URL names an address, and otherwise to what
`SafeDnsResolver` lets through: it follows no redirect and uses no proxy.

* `ssrf_guarded`: whatever the URL and the answers are, every connection goes to
  an address that `ip_is_safe` accepts; an unsafe URL or an unsafe answer ends
  in a recorded failure, without a connection.
* `dispatchItem_steps`: the checks are those of the step `sendStep`.
-/
namespace Amarillo.L4
open Amarillo.Core Amarillo.L2

/-! ## `redact_urls` -/

def isAsciiWhitespace (c : Char) : Bool := c ∈ [' ', '\t', '\n', Char.ofNat 12, '\r']

/-- `str::find` -/
def findText (pat : List Char) : List Char → Option Nat
  | [] => if pat = [] then some 0 else none
  | c :: s => if pat.isPrefixOf (c :: s) then some 0 else (findText pat s).map (· + 1)

/-- Where the first URL starts.
mirrors crates/indexer/src/alerts.rs:117-125 -/
def nextScheme (s : List Char) : Option Nat :=
  ["https://".toList, "http://".toList].foldl (fun next scheme =>
    match findText scheme s with
    | none => next
    | some p => some (next.elim p fun q => min q p)) none

/-- mirrors crates/indexer/src/alerts.rs:111-140 -/
def redactLoop : (fuel : Nat) → List Char → List Char
  | 0, rest => rest
  | fuel + 1, rest =>
    match nextScheme rest with
    | none => rest
    | some start => rest.take start ++ "<redacted-url>".toList ++
        redactLoop fuel ((rest.drop start).dropWhile fun c => !isAsciiWhitespace c)

def redactUrls (input : String) : List Char :=
  redactLoop (input.toList.length + 1) input.toList

/-! ## The client -/

/-- What happens to a request: the answer of the system resolver, the addresses the client
tries of those it has, which of them accept, and the HTTP status. -/
structure Exchange where
  lookup : String → Except String (List IpAddr)
  tried : List IpAddr → List IpAddr
  tried_subset : ∀ addrs, tried addrs ⊆ addrs
  accepts : IpAddr → Bool
  transportError : String
  status : Except String Nat

/-- Every resolved address is checked; one unsafe address refuses them all.
mirrors crates/indexer/src/alerts.rs:64-92 -/
def safeResolve (x : Exchange) (name : String) : Option (List IpAddr) :=
  match x.lookup name with
  | .error _ => none
  | .ok addrs => if addrs.all fun ip => (ipIsSafe ip).isOk then some addrs else none

inductive Effect where
  | connect (ip : IpAddr)
  | send (url signingSecret : String)
  | record (delivered : Bool) (lastError : Option String)
  deriving DecidableEq, Repr

section Send
variable (U : UrlCrate) (x : Exchange)

/-- The addresses the client may connect to. -/
def targetAddrs (url : String) : Option (List IpAddr) :=
  match (U.parse url).bind U.host with
  | none => none
  | some (.ipv4 a) => some [.v4 a]
  | some (.ipv6 a) => some [.v6 a]
  | some (.domain name) => safeResolve x name

/-- mirrors crates/indexer/src/alerts.rs:206-225 -/
def postSigned (url signingSecret : String) : List Effect × Except String Unit :=
  match targetAddrs U x url with
  | none => ([], .error ("http: " ++ x.transportError))
  | some addrs =>
    let connects := (x.tried addrs).map Effect.connect
    match (x.tried addrs).find? x.accepts with
    | none => (connects, .error ("http: " ++ x.transportError))
    | some _ => (connects ++ [.send url signingSecret],
        match x.status with
        | .error e => .error ("http: " ++ e)
        | .ok status =>
          if 200 ≤ status ∧ status < 300 then .ok ()
          else .error ("http status " ++ toString status))

/-- The text of a failed request, as it is recorded. -/
def recordedError (e : String) : String := String.ofList ((redactUrls e).take 500)

/-- Checks, request, record.
mirrors crates/indexer/src/alerts.rs:258-337 and 410-480 -/
def guardedPost (url signingSecret : String) : List Effect :=
  match webhookUrlIsSafe U url with
  | .error reason => [.record false (some ("unsafe url: " ++ reason.debug))]
  | .ok () =>
    match hexDecode signingSecret.toList with
    | none => [.record false (some "corrupt signing_secret (not hex)")]
    | some _ =>
      match postSigned U x url signingSecret with
      | (effects, .ok ()) => effects ++ [.record true none]
      | (effects, .error e) => effects ++ [.record false (some (recordedError e))]

/-- mirrors crates/indexer/src/alerts.rs:238-338 -/
def dispatchItem (claimed : Except DbError Bool) (item : AlertMatch) : List Effect :=
  match claimed with
  | .ok true => guardedPost U x item.webhookUrl item.signingSecret
  | .ok false => []
  | .error _ => []

/-- mirrors crates/indexer/src/alerts.rs:405-480 -/
def dispatchRateItem (item : RateAlertMatch) : List Effect :=
  guardedPost U x item.webhookUrl item.signingSecret

end Send

/-! ## The guard -/

/-- The name of the URL resolves to an unsafe address, among others perhaps. -/
def UnsafeAnswer (U : UrlCrate) (x : Exchange) (url : String) : Prop :=
  ∃ u name addrs, U.parse url = some u ∧ U.host u = some (.domain name) ∧
    x.lookup name = .ok addrs ∧ ∃ ip ∈ addrs, ipIsSafe ip ≠ .ok ()

section Guard
variable {U : UrlCrate} {x : Exchange} {url signingSecret : String}

theorem targetAddrs_safe (hU : U.Documented) (h : webhookUrlIsSafe U url = .ok ())
    {addrs : List IpAddr} (ha : targetAddrs U x url = some addrs) :
    ∀ ip ∈ addrs, ipIsSafe ip = .ok () := by
  unfold targetAddrs at ha
  cases hu : U.parse url with
  | none =>
    rw [hu] at ha
    cases ha
  | some u =>
    obtain ⟨h4, h6⟩ := webhookUrlIsSafe_ip hU hu h
    rw [hu, Option.bind_some] at ha
    split at ha
    · cases ha
    · rename_i a hhost
      cases ha
      simpa using h4 a hhost
    · rename_i a hhost
      cases ha
      simpa using h6 a hhost
    · rename_i name hhost
      unfold safeResolve at ha
      split at ha
      · cases ha
      · split at ha
        · rename_i addrs' hall
          cases ha
          intro ip hip
          have := List.all_eq_true.mp hall ip hip
          cases hsafe : ipIsSafe ip with
          | ok v => rfl
          | error e =>
            rw [hsafe] at this
            cases this
        · cases ha

theorem mem_postSigned_connect {ip : IpAddr} (h : .connect ip ∈ (postSigned U x url signingSecret).1) :
    ∃ addrs, targetAddrs U x url = some addrs ∧ ip ∈ addrs := by
  unfold postSigned at h
  split at h
  · cases h
  · rename_i addrs haddrs
    refine ⟨addrs, haddrs, x.tried_subset addrs ?_⟩
    split at h
    · obtain ⟨ip', hip, heq⟩ := List.mem_map.mp h
      cases heq
      exact hip
    · rcases List.mem_append.mp h with h | h
      · obtain ⟨ip', hip, heq⟩ := List.mem_map.mp h
        cases heq
        exact hip
      · cases List.mem_singleton.mp h

/-- A connection is made after the URL has passed, and to a target. -/
theorem mem_guardedPost_connect {ip : IpAddr} (h : .connect ip ∈ guardedPost U x url signingSecret) :
    webhookUrlIsSafe U url = .ok () ∧ ∃ addrs, targetAddrs U x url = some addrs ∧ ip ∈ addrs := by
  unfold guardedPost at h
  split at h
  · cases List.mem_singleton.mp h
  · rename_i hsafe
    refine ⟨hsafe, ?_⟩
    split at h
    · cases List.mem_singleton.mp h
    · split at h
      · rename_i effects heq
        rcases List.mem_append.mp h with h | h
        · exact mem_postSigned_connect (by rw [heq]; exact h)
        · cases List.mem_singleton.mp h
      · rename_i effects e heq
        rcases List.mem_append.mp h with h | h
        · exact mem_postSigned_connect (by rw [heq]; exact h)
        · cases List.mem_singleton.mp h

/-- An unsafe answer is an error of the resolver. -/
theorem targetAddrs_unsafe (h : UnsafeAnswer U x url) : targetAddrs U x url = none := by
  obtain ⟨u, name, addrs, hu, hhost, hlookup, ip, hip, hbad⟩ := h
  unfold targetAddrs
  rw [hu, Option.bind_some, hhost]
  simp only
  unfold safeResolve
  rw [hlookup]
  simp only
  rw [if_neg]
  intro hall
  have := List.all_eq_true.mp hall ip hip
  cases hsafe : ipIsSafe ip with
  | ok v => exact hbad hsafe
  | error e =>
    rw [hsafe] at this
    cases this

/-- An unsafe URL or answer leaves one effect, the record of a failure. -/
theorem guardedPost_refused (h : webhookUrlIsSafe U url ≠ .ok () ∨ UnsafeAnswer U x url) :
    ∃ e, guardedPost U x url signingSecret = [.record false (some e)] := by
  unfold guardedPost
  split
  · exact ⟨_, rfl⟩
  · rename_i hsafe
    have hanswer := h.resolve_left fun hn => hn hsafe
    split
    · exact ⟨_, rfl⟩
    · rw [postSigned, targetAddrs_unsafe hanswer]
      exact ⟨_, rfl⟩

end Guard

/-- The effects of a dispatch to `url`: connections to safe addresses only, and for an unsafe
URL or answer nothing but the record of a failure. -/
structure SsrfGuarded (U : UrlCrate) (x : Exchange) (url : String) (effects : List Effect) : Prop where
  safe : ∀ ip, .connect ip ∈ effects → ipIsSafe ip = .ok () ∧ ¬Forbidden ip
  refused : (webhookUrlIsSafe U url ≠ .ok () ∨ UnsafeAnswer U x url) →
    ∃ e, effects = [.record false (some e)]

theorem guardedPost_guarded {U : UrlCrate} (hU : U.Documented) (x : Exchange)
    (url signingSecret : String) : SsrfGuarded U x url (guardedPost U x url signingSecret) where
  safe ip h := by
    obtain ⟨hsafe, addrs, haddrs, hip⟩ := mem_guardedPost_connect h
    have := targetAddrs_safe hU hsafe haddrs ip hip
    exact ⟨this, (ipIsSafe_iff ip).mp this⟩
  refused := guardedPost_refused

/-- The checks are those of `sendStep`: it ends in the record that is written here, or goes
on to the request. -/
theorem dispatchItem_steps (U : UrlCrate) (x : Exchange) (item : AlertMatch) :
    dispatchItem U x (.ok true) item =
      match sendNext (fun url => match webhookUrlIsSafe U url with
        | .error reason => some reason.debug
        | .ok () => none) item with
      | .recording _ delivered error => [.record delivered error]
      | _ =>
        match postSigned U x item.webhookUrl item.signingSecret with
        | (effects, .ok ()) => effects ++ [.record true none]
        | (effects, .error e) => effects ++ [.record false (some (recordedError e))] := by
  simp only [dispatchItem, guardedPost, sendNext]
  cases webhookUrlIsSafe U item.webhookUrl with
  | error reason => rfl
  | ok u =>
    cases hexDecode item.signingSecret.toList with
    | none => rfl
    | some key => rfl

/-- **No request leaves for an unsafe address.** Whatever URL is stored and whatever the
resolver, the network and the receiver answer: a per-event and a rate dispatch connect only
to addresses that `ip_is_safe` accepts, which lie outside the forbidden blocks, also as mapped
IPv4 addresses. If the URL or one resolved address is unsafe, nothing is sent, and what is
recorded for the pair, or the subscription, is a failure. -/
theorem ssrf_guarded (U : UrlCrate) (hU : U.Documented) (x : Exchange) :
    (∀ item : AlertMatch, SsrfGuarded U x item.webhookUrl (dispatchItem U x (.ok true) item)) ∧
    (∀ item : RateAlertMatch, SsrfGuarded U x item.webhookUrl (dispatchRateItem U x item)) ∧
    (∀ claimed item, claimed ≠ .ok true → dispatchItem U x claimed item = []) ∧
    (∀ subscriptions now p e ledger ledger',
      recordAlertDelivery subscriptions now p false e ledger = .ok ledger' →
      ∃ d, ledger'.get p = some d ∧ d.status = .failed) ∧
    ∀ subscriptions now id count e dispatches dispatches',
      recordRateAlertDispatch subscriptions now id count false e dispatches = .ok dispatches' →
      ∃ d, dispatches' = dispatches ++ [d] ∧ d.subscriptionId = id ∧ d.status = .failed := by
  refine ⟨fun item => guardedPost_guarded hU x _ _, fun item => guardedPost_guarded hU x _ _,
    fun claimed item hc => ?_, fun subscriptions now p e ledger ledger' h => ?_,
    fun subscriptions now id count e dispatches dispatches' h => ?_⟩
  · unfold dispatchItem
    split
    · exact absurd rfl hc
    · rfl
    · rfl
  · rw [recordAlertDelivery_get h p, if_pos rfl]
    cases ledger.get p with
    | none => exact ⟨_, rfl, rfl⟩
    | some d => exact ⟨_, rfl, rfl⟩
  · unfold recordRateAlertDispatch at h
    split at h <;> cases h
    exact ⟨_, rfl, rfl, rfl⟩

/-- Two URLs: `https://hook.example/a`, and `https://[::ffff:127.0.0.1]/x`, which the crate
writes in hexadecimal. -/
def twoUrls : UrlCrate where
  Url := Bool
  parse s :=
    if s = "https://hook.example/a" then some false
    else if s = "https://[::ffff:127.0.0.1]/x" then some true
    else none
  scheme _ := "https"
  host
    | false => some (.domain "hook.example")
    | true => some (.ipv6 (.ofSegments [0, 0, 0, 0, 0, 0xffff, 0x7f00, 1]))
  hostStr
    | false => some "hook.example"
    | true => some "[::ffff:7f00:1]"

theorem twoUrls_documented : twoUrls.Documented where
  ipv4 u a h := by
    cases u <;> cases h
  ipv6 u a h := by
    cases u <;> cases h
    exact ⟨"::ffff:7f00:1", rfl, by decide +kernel⟩

/-- The name resolves to a public address and a private one. -/
def mixedAnswer : Exchange where
  lookup _ := .ok [.v4 (.ofOctets 93 184 216 34), .v4 (.ofOctets 10 0 0 1)]
  tried addrs := addrs
  tried_subset _ := List.Subset.refl _
  accepts _ := true
  transportError := "error sending request"
  status := .ok 200

theorem mixedAnswer_guarded :
    SsrfGuarded twoUrls mixedAnswer "https://hook.example/a"
      (dispatchItem twoUrls mixedAnswer (.ok true) hookMatch) ∧
    SsrfGuarded twoUrls mixedAnswer "https://[::ffff:127.0.0.1]/x"
      (dispatchRateItem twoUrls mixedAnswer ⟨1, "https://[::ffff:127.0.0.1]/x", "00", 3, 1, 300⟩) :=
  have h := ssrf_guarded twoUrls twoUrls_documented mixedAnswer
  ⟨h.1 hookMatch, h.2.1 ⟨1, "https://[::ffff:127.0.0.1]/x", "00", 3, 1, 300⟩⟩

end Amarillo.L4
