import Amarillo.Core.Num
import Amarillo.L4Alerts.Dispatch
import Amarillo.L4Alerts.Rate

/-!
# Dispatchers and the subscription API

Everything that can send a webhook, and everything that can change what is sent:
any number of dispatchers run `dispatch_once` and `dispatch_rate_once` on the
tables, while the API writes `alert_subscription` and the indexer writes the rest.

* A per-event task is one of `dispatch`, and takes its steps.
* A rate task belongs to a worker, whose cycle reads all its candidates with one
  query (`rateFindStep`) and starts over when they have all ended.
* A candidate carries the URL and the secret its query read.

`history` lists the requests in the order they began, and the rotations and
deactivations between them. No step reads it. The limit of
`MAX_CONCURRENT_POSTS` tasks at a time is left out: here a task may take its first
step at once.
-/
namespace Amarillo.L4
open Amarillo.Core Amarillo.L2

def dispatchBatch : Nat := 100

inductive RatePc where
  | spawned
  | posting
  | recording (delivered : Bool) (error : Option String)
  | ended
  deriving DecidableEq, Repr

structure RateTask where
  worker : Nat
  item : RateAlertMatch
  pc : RatePc
  deriving DecidableEq, Repr

/-- A request to a webhook; `worker` is that of a rate task. -/
structure Post where
  worker : Option Nat
  subscriptionId : Int
  signingSecret : String
  time : Int
  deriving DecidableEq, Repr

inductive Event where
  | post (p : Post)
  | rotated (id : Int) (newSecret : String)
  | deactivated (id : Int)
  deriving DecidableEq, Repr

structure Dispatcher where
  alerts : Alerts
  rates : Int → Option RateColumns
  nextId : Int
  dispatches : List RateDispatch
  rateTasks : List RateTask
  history : List Event

def Event.request : Event → Option Post
  | .post p => some p
  | _ => none

def Event.subscriptionId : Event → Int
  | .post p => p.subscriptionId
  | .rotated id _ => id
  | .deactivated id => id

def Dispatcher.posts (s : Dispatcher) : List Post := s.history.filterMap Event.request

inductive ApiCall where
  | insertAlertSubscription (errorCategory : Option ErrorCategory) (toAddr : Option String)
      (webhookUrl signingSecret : String)
  | insertAlertSubscriptionRate (errorCategory : Option ErrorCategory) (toAddr : Option String)
      (webhookUrl signingSecret : String) (rate : RateColumns)
  | rotateAlertSubscriptionSecret (id : Int) (newSecret : String)
  | deactivateAlertSubscription (id : Int)
  | deleteAlertSubscription (id : Int)
  deriving DecidableEq, Repr

inductive RateLabel where
  | find (worker : Nat)
  | send (i : Nat)
  | answer (i : Nat) (error : Option String)
  | record (i : Nat)
  | stop (i : Nat)

inductive DispatcherLabel where
  | api (call : ApiCall)
  | data (db : Db)
  | event (l : DispatchLabel)
  | rate (l : RateLabel)

/-! ## The API's writes -/

/-- mirrors crates/db/src/queries.rs:1086-1108 -/
def rotateSecret (id : Int) (newSecret : String) (s : AlertSubscription) : AlertSubscription :=
  if s.subscriptionId = id ∧ s.active = true then { s with signingSecret := newSecret } else s

/-- mirrors crates/db/src/queries.rs:980-992 -/
def deactivate (id : Int) (s : AlertSubscription) : AlertSubscription :=
  if s.subscriptionId = id ∧ s.active = true then { s with active := false } else s

theorem rotateSecret_id (id : Int) (newSecret : String) (s : AlertSubscription) :
    (rotateSecret id newSecret s).subscriptionId = s.subscriptionId := by
  unfold rotateSecret
  split <;> rfl

theorem deactivate_id (id : Int) (s : AlertSubscription) :
    (deactivate id s).subscriptionId = s.subscriptionId := by
  unfold deactivate
  split <;> rfl

def insertSubscription (s : Dispatcher) (errorCategory : Option ErrorCategory)
    (toAddr : Option String) (webhookUrl signingSecret : String) (subType : SubType)
    (rate : Option RateColumns) : Dispatcher :=
  { s with
    alerts := { s.alerts with
      subscriptions := s.alerts.subscriptions.insertNew
        [⟨s.nextId, errorCategory, toAddr, webhookUrl, signingSecret, true, subType⟩] }
    rates := fun id => if id = s.nextId then rate else s.rates id
    nextId := s.nextId + 1 }

/-- A refused insert changes nothing. A rotation finds active rows only. A deleted
subscription takes its rows in `alert_delivery` and `alert_rate_dispatch` along. -/
def apiStep (s : Dispatcher) : ApiCall → Dispatcher
  | .insertAlertSubscription errorCategory toAddr webhookUrl signingSecret =>
    insertSubscription s errorCategory toAddr webhookUrl signingSecret .perEvent none
  | .insertAlertSubscriptionRate errorCategory toAddr webhookUrl signingSecret rate =>
    if rate.accepted then
      insertSubscription s errorCategory toAddr webhookUrl signingSecret .rateThreshold (some rate)
    else s
  | .rotateAlertSubscriptionSecret id newSecret =>
    { s with
      alerts := { s.alerts with
        subscriptions := s.alerts.subscriptions.map (rotateSecret id newSecret)
          (rotateSecret_id id newSecret) }
      history := if ∃ x ∈ s.alerts.subscriptions.get id, x.active = true then
        s.history ++ [.rotated id newSecret] else s.history }
  | .deactivateAlertSubscription id =>
    { s with
      alerts := { s.alerts with
        subscriptions := s.alerts.subscriptions.map (deactivate id) (deactivate_id id) }
      history := if (s.alerts.subscriptions.get id).isSome then
        s.history ++ [.deactivated id] else s.history }
  | .deleteAlertSubscription id =>
    { s with
      alerts := { s.alerts with
        subscriptions := s.alerts.subscriptions.filter fun x => x.subscriptionId ≠ id
        ledger := s.alerts.ledger.filter fun d => d.subscriptionId ≠ id }
      dispatches := s.dispatches.filter fun d => d.subscriptionId ≠ id }

/-! ## Rate cycles -/

section System
variable (unsafeUrl : String → Option String)

def rateFindStep (s : Dispatcher) (worker : Nat) : Option Dispatcher :=
  if ∀ t ∈ s.rateTasks, t.worker = worker → t.pc = .ended then
    some { s with
      rateTasks := s.rateTasks ++ (findPendingRateAlertMatches s.alerts.db s.alerts.subscriptions
        s.rates s.dispatches s.alerts.now dispatchBatch).map fun item => ⟨worker, item, .spawned⟩ }
  else none

/-- mirrors crates/indexer/src/alerts.rs:410-443 -/
def rateSendNext (item : RateAlertMatch) : RatePc :=
  match unsafeUrl item.webhookUrl with
  | some reason => .recording false (some ("unsafe url: " ++ reason))
  | none =>
    match hexDecode item.signingSecret.toList with
    | none => .recording false (some "corrupt signing_secret (not hex)")
    | some _ => .posting

def rateSendStep (s : Dispatcher) (i : Nat) : Option Dispatcher :=
  match s.rateTasks[i]? with
  | some ⟨worker, item, .spawned⟩ => some
    { s with
      rateTasks := s.rateTasks.set i ⟨worker, item, rateSendNext unsafeUrl item⟩
      history := if rateSendNext unsafeUrl item = .posting then
        s.history ++ [.post ⟨some worker, item.subscriptionId, item.signingSecret, s.alerts.now⟩]
      else s.history }
  | _ => none

def rateAnswerStep (s : Dispatcher) (i : Nat) (error : Option String) : Option Dispatcher :=
  match s.rateTasks[i]? with
  | some ⟨worker, item, .posting⟩ => some
    { s with rateTasks := s.rateTasks.set i ⟨worker, item, .recording error.isNone error⟩ }
  | _ => none

/-- mirrors crates/indexer/src/alerts.rs:446-480 -/
def rateRecordStep (s : Dispatcher) (i : Nat) : Option Dispatcher :=
  match s.rateTasks[i]? with
  | some ⟨worker, item, .recording delivered error⟩ =>
    match recordRateAlertDispatch s.alerts.subscriptions s.alerts.now item.subscriptionId
        (asI32 item.matchCount) delivered error s.dispatches with
    | .ok dispatches => some
      { s with dispatches := dispatches, rateTasks := s.rateTasks.set i ⟨worker, item, .ended⟩ }
    | .error _ => some { s with rateTasks := s.rateTasks.set i ⟨worker, item, .ended⟩ }
  | _ => none

def rateStopStep (s : Dispatcher) (i : Nat) : Option Dispatcher :=
  match s.rateTasks[i]? with
  | some t => some { s with rateTasks := s.rateTasks.set i { t with pc := .ended } }
  | none => none

def rateStep (s : Dispatcher) : RateLabel → Option Dispatcher
  | .find worker => rateFindStep s worker
  | .send i => rateSendStep unsafeUrl s i
  | .answer i error => rateAnswerStep s i error
  | .record i => rateRecordStep s i
  | .stop i => rateStopStep s i

/-! ## All steps -/

/-- The request of a per-event task, once its checks have passed. -/
def eventPosts (s : Alerts) : DispatchLabel → List Post
  | .send i =>
    match s.tasks[i]? with
    | some ⟨item, .holding⟩ =>
      if sendNext unsafeUrl item = .posting then
        [⟨none, item.subscriptionId, item.signingSecret, s.now⟩] else []
    | _ => []
  | _ => []

/-- The tables change by the steps of this system only. -/
def eventStep (s : Dispatcher) : DispatchLabel → Option Dispatcher
  | .change _ _ => none
  | l => (dispatchStep unsafeUrl s.alerts l).map fun alerts =>
    { s with
      alerts := alerts, history := s.history ++ (eventPosts unsafeUrl s.alerts l).map Event.post }

def dispatcherStep (s : Dispatcher) : DispatcherLabel → Option Dispatcher
  | .api call => some (apiStep s call)
  | .data db => some { s with alerts := { s.alerts with db := db } }
  | .event l => eventStep unsafeUrl s l
  | .rate l => rateStep unsafeUrl s l

/-- No dispatcher is at work yet; the tables are as they may be. -/
structure DispatcherInit (s : Dispatcher) : Prop where
  tasks : s.alerts.tasks = []
  rateTasks : s.rateTasks = []
  history : s.history = []
  ids : ∀ x ∈ s.alerts.subscriptions.rows, x.subscriptionId < s.nextId
  checked : ∀ x ∈ s.alerts.subscriptions.rows, x.subType = .perEvent →
    s.rates x.subscriptionId = none

def dispatcher : LTS Dispatcher DispatcherLabel := .ofFn DispatcherInit (dispatcherStep unsafeUrl)

end System

/-! ## What a step does -/

/-- The request has not begun. -/
def DispatchPc.unsent : DispatchPc → Bool
  | .spawned => true
  | .holding => true
  | _ => false

section Steps
variable {unsafeUrl : String → Option String}

theorem Dispatcher.posts_append (s : Dispatcher) (es : List Event) :
    { s with history := s.history ++ es }.posts = s.posts ++ es.filterMap Event.request :=
  List.filterMap_append

/-- Only `change` writes the subscriptions, and time does not run back. -/
theorem dispatchStep_frame {s s' : Alerts} {l : DispatchLabel}
    (h : dispatchStep unsafeUrl s l = some s') (hl : ∀ db subs, l ≠ .change db subs) :
    s'.subscriptions = s.subscriptions ∧ s.now ≤ s'.now := by
  cases dispatchStep_effect h with
  | changed db subscriptions => exact absurd rfl (hl db subscriptions)
  | ticked d => exact ⟨rfl, by simp⟩
  | _ => exact ⟨rfl, le_rfl⟩

/-- A candidate that is not sent yet was there before, or a query has just read it. -/
def ItemFrom (s : Alerts) (t' : DispatchTask) : Prop :=
  (∃ t ∈ s.tasks, t.item = t'.item ∧ (t'.pc.unsent = true → t.pc.unsent = true)) ∨
  t'.item ∈ pendingAlertMatches s.db s.subscriptions s.ledger s.now claimStaleAfterSecs

theorem itemFrom_set {s s' : Alerts} {i : Nat} {t a t' : DispatchTask} (ht : s.tasks[i]? = some t)
    (h : t' ∈ s'.tasks) (hset : s'.tasks = s.tasks.set i a) (hitem : t.item = a.item)
    (hpc : a.pc.unsent = true → t.pc.unsent = true) : ItemFrom s t' := by
  rw [hset] at h
  rcases List.mem_or_eq_of_mem_set h with h | rfl
  · exact .inl ⟨t', h, rfl, id⟩
  · exact .inl ⟨t, List.mem_of_getElem? ht, hitem, hpc⟩

theorem dispatchStep_items {s s' : Alerts} {l : DispatchLabel}
    (h : dispatchStep unsafeUrl s l = some s') {t' : DispatchTask} (ht : t' ∈ s'.tasks) :
    ItemFrom s t' := by
  cases dispatchStep_effect h with
  | changed db subscriptions => exact .inl ⟨t', ht, rfl, id⟩
  | ticked d => exact .inl ⟨t', ht, rfl, id⟩
  | found hitem =>
    rcases List.mem_append.mp ht with ht | ht
    · exact .inl ⟨t', ht, rfl, id⟩
    · rw [List.mem_singleton.mp ht]
      exact .inr hitem
  | claimed htask hclaim => exact itemFrom_set htask ht rfl rfl fun _ => rfl
  | unclaimed htask hclaim => exact itemFrom_set htask ht rfl rfl fun _ => rfl
  | sent htask => exact itemFrom_set htask ht rfl rfl fun _ => rfl
  | answered error htask => exact itemFrom_set htask ht rfl rfl fun hn => by cases hn
  | recorded htask hrecord => exact itemFrom_set htask ht rfl rfl fun hn => by cases hn
  | unrecorded htask hrecord => exact itemFrom_set htask ht rfl rfl fun hn => by cases hn
  | stopped htask => exact itemFrom_set htask ht rfl rfl fun hn => by cases hn

/-- A per-event request is that of a task which had not sent it. -/
theorem mem_eventPosts {s : Alerts} {l : DispatchLabel} {p : Post}
    (h : p ∈ eventPosts unsafeUrl s l) :
    p.worker = none ∧ p.time = s.now ∧ ∃ t ∈ s.tasks, t.pc.unsent = true ∧
      p.subscriptionId = t.item.subscriptionId ∧ p.signingSecret = t.item.signingSecret := by
  unfold eventPosts at h
  split at h
  · split at h
    · rename_i item htask
      split at h
      · rw [List.mem_singleton.mp h]
        exact ⟨rfl, rfl, _, List.mem_of_getElem? htask, rfl, rfl, rfl⟩
      · cases h
    · cases h
  · cases h

theorem mem_pendingAlertMatches {db : Db} {subscriptions : Table AlertSubscription.subscriptionId}
    {ledger : Ledger} {now staleAfterSecs : Int} {m : AlertMatch}
    (h : m ∈ pendingAlertMatches db subscriptions ledger now staleAfterSecs) :
    ∃ x, subscriptions.get m.subscriptionId = some x ∧ m.signingSecret = x.signingSecret ∧
      x.active = true ∧ x.subType = .perEvent := by
  obtain ⟨x, hx, hm⟩ := List.mem_flatMap.mp h
  obtain ⟨f, -, hf⟩ := List.mem_filterMap.mp hm
  split at hf
  · rename_i hc
    cases hf
    exact ⟨x, Table.mem_iff_get.mp hx, rfl, hc.2.1, hc.2.2.1⟩
  · cases hf

/-- A per-event step in the whole system. -/
theorem eventStep_some {s s' : Dispatcher} {l : DispatchLabel}
    (h : eventStep unsafeUrl s l = some s') : ∃ alerts,
      dispatchStep unsafeUrl s.alerts l = some alerts ∧ (∀ db subs, l ≠ .change db subs) ∧
      s' = { s with
        alerts := alerts, history := s.history ++ (eventPosts unsafeUrl s.alerts l).map Event.post } := by
  unfold eventStep at h
  split at h
  · cases h
  · rename_i l hl
    obtain ⟨alerts, halerts, hs⟩ := Option.map_eq_some_iff.mp h
    exact ⟨alerts, halerts, fun db subs e => hl db subs e, hs.symm⟩

/-- A rate candidate that is not sent yet was there before, or a query has just
read it. -/
def RateItemFrom (s : Dispatcher) (t' : RateTask) : Prop :=
  (∃ t ∈ s.rateTasks, t.worker = t'.worker ∧ t.item = t'.item ∧
    (t'.pc = .spawned → t.pc = .spawned)) ∨
  t'.item ∈ findPendingRateAlertMatches s.alerts.db s.alerts.subscriptions s.rates s.dispatches
    s.alerts.now dispatchBatch

theorem rateItemFrom_set {s s' : Dispatcher} {i : Nat} {t a t' : RateTask}
    (ht : s.rateTasks[i]? = some t) (h : t' ∈ s'.rateTasks)
    (hset : s'.rateTasks = s.rateTasks.set i a) (hworker : t.worker = a.worker)
    (hitem : t.item = a.item) (hpc : a.pc = .spawned → t.pc = .spawned) : RateItemFrom s t' := by
  rw [hset] at h
  rcases List.mem_or_eq_of_mem_set h with h | rfl
  · exact .inl ⟨t', h, rfl, rfl, id⟩
  · exact .inl ⟨t, List.mem_of_getElem? ht, hworker, hitem, hpc⟩

theorem rateStep_items {s s' : Dispatcher} {l : RateLabel} (h : rateStep unsafeUrl s l = some s')
    {t' : RateTask} (ht : t' ∈ s'.rateTasks) : RateItemFrom s t' := by
  cases l with
  | find worker =>
    simp only [rateStep, rateFindStep] at h
    split at h <;> cases h
    rcases List.mem_append.mp ht with ht | ht
    · exact .inl ⟨t', ht, rfl, rfl, id⟩
    · obtain ⟨item, hitem, rfl⟩ := List.mem_map.mp ht
      exact .inr hitem
  | send i =>
    simp only [rateStep, rateSendStep] at h
    split at h
    · rename_i worker item htask
      cases h
      exact rateItemFrom_set htask ht rfl rfl rfl fun _ => rfl
    · cases h
  | answer i error =>
    simp only [rateStep, rateAnswerStep] at h
    split at h
    · rename_i worker item htask
      cases h
      exact rateItemFrom_set htask ht rfl rfl rfl fun hn => by cases hn
    · cases h
  | record i =>
    simp only [rateStep, rateRecordStep] at h
    split at h
    · rename_i worker item delivered error htask
      split at h <;> cases h <;>
        exact rateItemFrom_set htask ht rfl rfl rfl fun hn => by cases hn
    · cases h
  | stop i =>
    simp only [rateStep, rateStopStep] at h
    split at h
    · rename_i t htask
      cases h
      exact rateItemFrom_set htask ht rfl rfl rfl fun hn => by cases hn
    · cases h

/-- A rate step leaves the tables the API writes, and may send the candidate of a
task which had not sent it. -/
theorem rateStep_frame {s s' : Dispatcher} {l : RateLabel}
    (h : rateStep unsafeUrl s l = some s') :
    s'.alerts = s.alerts ∧ s'.rates = s.rates ∧ s'.nextId = s.nextId ∧
    (s'.history = s.history ∨ ∃ t ∈ s.rateTasks, t.pc = .spawned ∧ s'.history = s.history ++
      [.post ⟨some t.worker, t.item.subscriptionId, t.item.signingSecret, s.alerts.now⟩]) := by
  cases l with
  | find worker =>
    simp only [rateStep, rateFindStep] at h
    split at h <;> cases h
    exact ⟨rfl, rfl, rfl, .inl rfl⟩
  | send i =>
    simp only [rateStep, rateSendStep] at h
    split at h
    · rename_i worker item htask
      cases h
      refine ⟨rfl, rfl, rfl, ?_⟩
      simp only
      split
      · exact .inr ⟨_, List.mem_of_getElem? htask, rfl, rfl⟩
      · exact .inl rfl
    · cases h
  | answer i error =>
    simp only [rateStep, rateAnswerStep] at h
    split at h <;> cases h
    exact ⟨rfl, rfl, rfl, .inl rfl⟩
  | record i =>
    simp only [rateStep, rateRecordStep] at h
    split at h
    · split at h <;> cases h <;> exact ⟨rfl, rfl, rfl, .inl rfl⟩
    · cases h
  | stop i =>
    simp only [rateStep, rateStopStep] at h
    split at h <;> cases h
    exact ⟨rfl, rfl, rfl, .inl rfl⟩

end Steps

/-! ## Ids are not used twice -/

/-- All ids in use are below the next one, and per-event candidates are those of
per-event subscriptions. -/
structure Numbered (s : Dispatcher) : Prop where
  rows : ∀ x ∈ s.alerts.subscriptions.rows, x.subscriptionId < s.nextId
  checked : ∀ x ∈ s.alerts.subscriptions.rows, x.subType = .perEvent →
    s.rates x.subscriptionId = none
  tasks : ∀ t ∈ s.alerts.tasks, t.item.subscriptionId < s.nextId ∧
    s.rates t.item.subscriptionId = none
  rateTasks : ∀ t ∈ s.rateTasks, t.item.subscriptionId < s.nextId
  history : ∀ e ∈ s.history, e.subscriptionId < s.nextId

section Numbering
variable {unsafeUrl : String → Option String} {s s' : Dispatcher}

theorem Numbered.insert (hn : Numbered s) {errorCategory : Option ErrorCategory}
    {toAddr : Option String} {webhookUrl signingSecret : String} {subType : SubType}
    {rate : Option RateColumns} (hrate : subType = .perEvent → rate = none) :
    Numbered (insertSubscription s errorCategory toAddr webhookUrl signingSecret subType rate) := by
  have hrates : ∀ id, id < s.nextId → (if id = s.nextId then rate else s.rates id) = s.rates id :=
    fun id hid => if_neg (by omega)
  refine ⟨fun x hx => ?_, fun x hx hsub => ?_, fun t ht => ?_, fun t ht => ?_, fun e he => ?_⟩
  · rcases Table.mem_insertNew hx with hx | hx
    · exact Int.lt_trans (hn.rows x hx) (Int.lt_succ _)
    · rw [List.mem_singleton.mp hx]
      exact Int.lt_succ _
  · rcases Table.mem_insertNew hx with hx | hx
    · exact (hrates _ (hn.rows x hx)).trans (hn.checked x hx hsub)
    · rw [List.mem_singleton.mp hx] at hsub ⊢
      exact (if_pos rfl).trans (hrate hsub)
  · obtain ⟨hid, hnone⟩ := hn.tasks t ht
    exact ⟨Int.lt_trans hid (Int.lt_succ _), (hrates _ hid).trans hnone⟩
  · exact Int.lt_trans (hn.rateTasks t ht) (Int.lt_succ _)
  · exact Int.lt_trans (hn.history e he) (Int.lt_succ _)

/-- An update that keeps ids and kinds. -/
theorem Numbered.update (hn : Numbered s) {f : AlertSubscription → AlertSubscription}
    (hf : ∀ x, (f x).subscriptionId = x.subscriptionId) (hsub : ∀ x, (f x).subType = x.subType)
    {history : List Event} (hh : ∀ e ∈ history, e.subscriptionId < s.nextId) :
    Numbered { s with
      alerts := { s.alerts with subscriptions := s.alerts.subscriptions.map f hf }
      history := history } := by
  refine ⟨fun x hx => ?_, fun x hx hx' => ?_, hn.tasks, hn.rateTasks, hh⟩
  · obtain ⟨y, hy, rfl⟩ := List.mem_map.mp hx
    rw [hf]
    exact hn.rows y hy
  · obtain ⟨y, hy, rfl⟩ := List.mem_map.mp hx
    rw [hsub] at hx'
    rw [hf]
    exact hn.checked y hy hx'

theorem Numbered.append_event (hn : Numbered s) {P : Prop} [Decidable P] {e : Event}
    (hP : P → (s.alerts.subscriptions.get e.subscriptionId).isSome = true) :
    ∀ e' ∈ (if P then s.history ++ [e] else s.history), e'.subscriptionId < s.nextId := by
  intro e' he'
  split at he'
  · rename_i hp
    rcases List.mem_append.mp he' with he' | he'
    · exact hn.history e' he'
    · obtain ⟨x, hx, hid⟩ := Table.get_isSome.mp (hP hp)
      rw [List.mem_singleton.mp he', ← hid]
      exact hn.rows x hx
  · exact hn.history e' he'

theorem apiStep_numbered (hn : Numbered s) (call : ApiCall) : Numbered (apiStep s call) := by
  cases call with
  | insertAlertSubscription errorCategory toAddr webhookUrl signingSecret =>
    exact hn.insert fun _ => rfl
  | insertAlertSubscriptionRate errorCategory toAddr webhookUrl signingSecret rate =>
    simp only [apiStep]
    split
    · exact hn.insert nofun
    · exact hn
  | rotateAlertSubscriptionSecret id newSecret =>
    refine hn.update _ (fun x => ?_) (hn.append_event ?_)
    · unfold rotateSecret
      split <;> rfl
    · rintro ⟨x, hx, -⟩
      exact Option.isSome_iff_exists.mpr ⟨x, hx⟩
  | deactivateAlertSubscription id =>
    refine hn.update _ (fun x => ?_) (hn.append_event fun h => h)
    unfold deactivate
    split <;> rfl
  | deleteAlertSubscription id =>
    exact ⟨fun x hx => hn.rows x (List.mem_of_mem_filter hx),
      fun x hx => hn.checked x (List.mem_of_mem_filter hx), hn.tasks, hn.rateTasks, hn.history⟩

theorem eventStep_numbered (hn : Numbered s) {l : DispatchLabel}
    (h : eventStep unsafeUrl s l = some s') : Numbered s' := by
  obtain ⟨alerts, hstep, hl, rfl⟩ := eventStep_some h
  obtain ⟨hsubs, -⟩ := dispatchStep_frame hstep hl
  refine ⟨fun x hx => hn.rows x (hsubs ▸ hx), fun x hx => hn.checked x (hsubs ▸ hx),
    fun t ht => ?_, hn.rateTasks, fun e he => ?_⟩
  · rcases dispatchStep_items hstep ht with ⟨u, hu, hitem, -⟩ | hfound
    · rw [← hitem]
      exact hn.tasks u hu
    · obtain ⟨x, hx, -, -, hsub⟩ := mem_pendingAlertMatches hfound
      have hrow := Table.get_mem hx
      rw [← Table.get_key hx]
      exact ⟨hn.rows x hrow, hn.checked x hrow hsub⟩
  · rcases List.mem_append.mp he with he | he
    · exact hn.history e he
    · obtain ⟨p, hp, rfl⟩ := List.mem_map.mp he
      obtain ⟨-, -, t, ht, -, hid, -⟩ := mem_eventPosts hp
      rw [Event.subscriptionId, hid]
      exact (hn.tasks t ht).1

theorem rateStep_numbered (hn : Numbered s) {l : RateLabel}
    (h : rateStep unsafeUrl s l = some s') : Numbered s' := by
  obtain ⟨halerts, hrates, hnext, hhistory⟩ := rateStep_frame h
  refine ⟨by rw [halerts, hnext]; exact hn.rows, by rw [halerts, hrates]; exact hn.checked,
    by rw [halerts, hrates, hnext]; exact hn.tasks, fun t ht => ?_, fun e he => ?_⟩
  · rw [hnext]
    rcases rateStep_items h ht with ⟨u, hu, -, hitem, -⟩ | hfound
    · rw [← hitem]
      exact hn.rateTasks u hu
    · obtain ⟨x, hx, -⟩ := mem_findPendingRateAlertMatches hfound
      rw [← Table.get_key hx]
      exact hn.rows x (Table.get_mem hx)
  · rw [hnext]
    rcases hhistory with hsame | ⟨t, ht, -, hpost⟩
    · exact hn.history e (hsame ▸ he)
    · rw [hpost] at he
      rcases List.mem_append.mp he with he | he
      · exact hn.history e he
      · rw [List.mem_singleton.mp he]
        exact hn.rateTasks t ht

theorem numbered_inductive (unsafeUrl : String → Option String) :
    (dispatcher unsafeUrl).Inductive Numbered where
  init := by
    rintro s ⟨htasks, hrate, hhistory, hids, hchecked⟩
    refine ⟨hids, hchecked, ?_, ?_, ?_⟩ <;> simp [htasks, hrate, hhistory]
  step := by
    intro s l s' hn hs
    cases l with
    | api call =>
      cases hs
      exact apiStep_numbered hn call
    | data db =>
      cases hs
      exact ⟨hn.rows, hn.checked, hn.tasks, hn.rateTasks, hn.history⟩
    | event l => exact eventStep_numbered hn hs
    | rate l => exact rateStep_numbered hn hs

end Numbering
end Amarillo.L4
