import Amarillo.Core.History
import Amarillo.L4Alerts.Dispatcher
import Amarillo.L4Alerts.Lease

/-!
# Why a webhook was called

The way back from what the whole system did: from an entry of `history`, or a row
that has become delivered, to the query that returned the pair.

* `post_justified`: every request was made by a task whose item a query had returned;
  a per-event task had won the claim of its pair in between, and the URL and the secret
  had passed their checks.
* `delivered_story`: a row becomes delivered only by the whole protocol, in order:
  the query returned the pair, its claim won, the request went out, the answer was a
  success, and that task recorded it.

Both hold whatever the API, the indexer and the other workers did meanwhile, crashes
included.
-/
namespace Amarillo.L4
open Amarillo.Core Amarillo.L2

section Tasks
variable {unsafeUrl : String → Option String}

/-- The steps that give task `i` a new state `t'`. -/
inductive TaskStep (unsafeUrl : String → Option String) (s : Alerts) (i : Nat) :
    DispatchLabel → DispatchTask → Prop where
  | found {item : AlertMatch}
    (hitem : item ∈ pendingAlertMatches s.db s.subscriptions s.ledger s.now claimStaleAfterSecs) :
    TaskStep unsafeUrl s i (.find item) ⟨item, .spawned⟩
  | claimed {item : AlertMatch} {ledger : Ledger} (htask : s.tasks[i]? = some ⟨item, .spawned⟩)
    (hclaim : tryClaimAlertMatch s.subscriptions s.now item.pair claimStaleAfterSecs s.ledger =
      .ok (ledger, true)) :
    TaskStep unsafeUrl s i (.claim i) ⟨item, .holding⟩
  | sent {item : AlertMatch} (htask : s.tasks[i]? = some ⟨item, .holding⟩) :
    TaskStep unsafeUrl s i (.send i) ⟨item, sendNext unsafeUrl item⟩
  | answered {item : AlertMatch} (error : Option String)
    (htask : s.tasks[i]? = some ⟨item, .posting⟩) :
    TaskStep unsafeUrl s i (.answer i error) ⟨item, .recording true error.isNone error⟩
  | ended (l : DispatchLabel) (item : AlertMatch) (reached : Reached) :
    TaskStep unsafeUrl s i l ⟨item, .ended reached⟩

/-- A task is as it was, or the step gave it its state. -/
theorem dispatchStep_task {s s' : Alerts} {l : DispatchLabel}
    (h : dispatchStep unsafeUrl s l = some s') {i : Nat} {t' : DispatchTask}
    (ht : s'.tasks[i]? = some t') : s.tasks[i]? = some t' ∨ TaskStep unsafeUrl s i l t' := by
  cases dispatchStep_effect h with
  | changed db subscriptions => exact .inl ht
  | ticked d => exact .inl ht
  | found hitem =>
    rw [List.getElem?_append] at ht
    split at ht
    · exact .inl ht
    · rw [List.mem_singleton.mp (List.mem_of_getElem? ht)]
      exact .inr (.found hitem)
  | claimed htask hclaim =>
    rcases getElem?_set_cases ht with ⟨rfl, rfl⟩ | ⟨-, ht⟩
    · exact .inr (.claimed htask hclaim)
    · exact .inl ht
  | unclaimed htask hclaim =>
    rcases getElem?_set_cases ht with ⟨rfl, rfl⟩ | ⟨-, ht⟩
    · exact .inr (.ended _ _ _)
    · exact .inl ht
  | sent htask =>
    rcases getElem?_set_cases ht with ⟨rfl, rfl⟩ | ⟨-, ht⟩
    · exact .inr (.sent htask)
    · exact .inl ht
  | answered error htask =>
    rcases getElem?_set_cases ht with ⟨rfl, rfl⟩ | ⟨-, ht⟩
    · exact .inr (.answered error htask)
    · exact .inl ht
  | recorded htask hrecord =>
    rcases getElem?_set_cases ht with ⟨rfl, rfl⟩ | ⟨-, ht⟩
    · exact .inr (.ended _ _ _)
    · exact .inl ht
  | unrecorded htask hrecord =>
    rcases getElem?_set_cases ht with ⟨rfl, rfl⟩ | ⟨-, ht⟩
    · exact .inr (.ended _ _ _)
    · exact .inl ht
  | stopped htask =>
    rcases getElem?_set_cases ht with ⟨rfl, rfl⟩ | ⟨-, ht⟩
    · exact .inr (.ended _ _ _)
    · exact .inl ht

theorem apiStep_tasks (s : Dispatcher) (call : ApiCall) :
    (apiStep s call).alerts.tasks = s.alerts.tasks ∧ (apiStep s call).rateTasks = s.rateTasks := by
  cases call with
  | insertAlertSubscriptionRate errorCategory toAddr webhookUrl signingSecret rate =>
    simp only [apiStep]
    split <;> exact ⟨rfl, rfl⟩
  | _ => exact ⟨rfl, rfl⟩

/-- In the whole system only its own steps give a per-event task its state. -/
theorem dispatcherStep_task {s s' : Dispatcher} {l : DispatcherLabel}
    (h : dispatcherStep unsafeUrl s l = some s') {i : Nat} {t' : DispatchTask}
    (ht : s'.alerts.tasks[i]? = some t') :
    s.alerts.tasks[i]? = some t' ∨ ∃ k, l = .event k ∧ TaskStep unsafeUrl s.alerts i k t' := by
  cases l with
  | api call =>
    cases h
    rw [(apiStep_tasks s call).1] at ht
    exact .inl ht
  | data db =>
    cases h
    exact .inl ht
  | event k =>
    obtain ⟨alerts, hstep, -, rfl⟩ := eventStep_some h
    exact (dispatchStep_task hstep ht).imp_right fun htask => ⟨k, rfl, htask⟩
  | rate k =>
    rw [(rateStep_frame h).1] at ht
    exact .inl ht

/-- A rate task that has not begun its request was there before, or the query of its
worker has just returned its item. -/
theorem dispatcherStep_rateTask {s s' : Dispatcher} {l : DispatcherLabel}
    (h : dispatcherStep unsafeUrl s l = some s') {i worker : Nat} {item : RateAlertMatch}
    (ht : s'.rateTasks[i]? = some ⟨worker, item, .spawned⟩) :
    s.rateTasks[i]? = some ⟨worker, item, .spawned⟩ ∨ l = .rate (.find worker) ∧
      item ∈ findPendingRateAlertMatches s.alerts.db s.alerts.subscriptions s.rates s.dispatches
        s.alerts.now dispatchBatch := by
  -- a step that replaces a task leaves no `spawned` one in its place
  have hset : ∀ {j : Nat} {a : RateTask}, a.pc ≠ .spawned →
      (s.rateTasks.set j a)[i]? = some ⟨worker, item, .spawned⟩ →
      s.rateTasks[i]? = some ⟨worker, item, .spawned⟩ := by
    intro j a ha ht
    rcases getElem?_set_cases ht with ⟨-, rfl⟩ | ⟨-, ht⟩
    · exact absurd rfl ha
    · exact ht
  cases l with
  | api call =>
    cases h
    rw [(apiStep_tasks s call).2] at ht
    exact .inl ht
  | data db =>
    cases h
    exact .inl ht
  | event k =>
    obtain ⟨alerts, hstep, -, rfl⟩ := eventStep_some h
    exact .inl ht
  | rate k =>
    have h : rateStep unsafeUrl s k = some s' := h
    cases k with
    | find w =>
      simp only [rateStep, rateFindStep] at h
      split at h <;> cases h
      rw [List.getElem?_append] at ht
      split at ht
      · exact .inl ht
      · obtain ⟨found, hfound, he⟩ := List.mem_map.mp (List.mem_of_getElem? ht)
        cases he
        exact .inr ⟨rfl, hfound⟩
    | send j =>
      simp only [rateStep, rateSendStep] at h
      split at h
      · rename_i w found htask
        cases h
        refine .inl (hset ?_ ht)
        unfold rateSendNext
        split
        · exact fun hn => by cases hn
        · split <;> exact fun hn => by cases hn
      · cases h
    | answer j error =>
      simp only [rateStep, rateAnswerStep] at h
      split at h <;> cases h
      exact .inl (hset (fun hn => by cases hn) ht)
    | record j =>
      simp only [rateStep, rateRecordStep] at h
      split at h
      · split at h <;> cases h <;> exact .inl (hset (fun hn => by cases hn) ht)
      · cases h
    | stop j =>
      simp only [rateStep, rateStopStep] at h
      split at h <;> cases h
      exact .inl (hset (fun hn => by cases hn) ht)

end Tasks

/-! ## What a task went through -/

section Stages
variable {unsafeUrl : String → Option String} {s s' : Dispatcher} {ls : List DispatcherLabel}

/-- The pair was claimed, after a query had returned it. -/
def claimedAfter (item : AlertMatch) (i : Nat) : List (DispatcherLabel × (Dispatcher → Prop)) :=
  [(.event (.claim i), fun m => ∃ ledger, tryClaimAlertMatch m.alerts.subscriptions m.alerts.now
      item.pair claimStaleAfterSecs m.alerts.ledger = .ok (ledger, true)),
   (.event (.find item), fun m => item ∈ pendingAlertMatches m.alerts.db m.alerts.subscriptions
      m.alerts.ledger m.alerts.now claimStaleAfterSecs)]

/-- The request went out, and was answered with a success. -/
def deliveredAfter (item : AlertMatch) (i : Nat) :
    List (DispatcherLabel × (Dispatcher → Prop)) :=
  [(.event (.record i), fun m => m.alerts.tasks[i]? = some ⟨item, .recording true true none⟩),
   (.event (.answer i none), fun m => m.alerts.tasks[i]? = some ⟨item, .posting⟩),
   (.event (.send i), fun m => m.alerts.tasks[i]? = some ⟨item, .holding⟩)] ++ claimedAfter item i

theorem not_task_of_init (h0 : s.alerts.tasks = []) (i : Nat) (t : DispatchTask) :
    ¬s.alerts.tasks[i]? = some t := by
  rw [h0]
  exact fun hn => by cases hn

/-- The step at which a task came to be in its state. -/
theorem task_origin (hrun : (dispatcher unsafeUrl).Run s ls s') (h0 : s.alerts.tasks = []) {i : Nat}
    {t : DispatchTask} (ht : s'.alerts.tasks[i]? = some t) :
    ∃ before k m, before ++ [.event k] <+: ls ∧ (dispatcher unsafeUrl).Run s before m ∧
      TaskStep unsafeUrl m.alerts i k t := by
  obtain ⟨before, l, m, m', ho⟩ := hrun.origin (P := fun x => x.alerts.tasks[i]? = some t)
    (not_task_of_init h0 i t) ht
  rcases dispatcherStep_task ho.step ho.holds with hold | ⟨k, rfl, htask⟩
  · exact absurd hold ho.fresh
  · exact ⟨before, k, m, ho.labels, ho.run, htask⟩

theorem spawned_traced (hrun : (dispatcher unsafeUrl).Run s ls s') (h0 : s.alerts.tasks = [])
    {i : Nat} {item : AlertMatch} (ht : s'.alerts.tasks[i]? = some ⟨item, .spawned⟩) :
    (dispatcher unsafeUrl).Traced s [(.event (.find item), fun m => item ∈ pendingAlertMatches
      m.alerts.db m.alerts.subscriptions m.alerts.ledger m.alerts.now claimStaleAfterSecs)] ls := by
  obtain ⟨before, k, m, hl, hm, htask⟩ := task_origin hrun h0 ht
  generalize hpc : DispatchPc.spawned = pc at htask
  cases htask with
  | found hitem => exact .cons hl hm hitem trivial
  | sent _ =>
    unfold sendNext at hpc
    split at hpc
    · cases hpc
    · split at hpc <;> cases hpc
  | _ => cases hpc

theorem holding_traced (hrun : (dispatcher unsafeUrl).Run s ls s') (h0 : s.alerts.tasks = [])
    {i : Nat} {item : AlertMatch} (ht : s'.alerts.tasks[i]? = some ⟨item, .holding⟩) :
    (dispatcher unsafeUrl).Traced s (claimedAfter item i) ls := by
  obtain ⟨before, k, m, hl, hm, htask⟩ := task_origin hrun h0 ht
  generalize hpc : DispatchPc.holding = pc at htask
  cases htask with
  | claimed hspawned hclaim => exact .cons hl hm ⟨_, hclaim⟩ (spawned_traced hm h0 hspawned)
  | sent _ =>
    unfold sendNext at hpc
    split at hpc
    · cases hpc
    · split at hpc <;> cases hpc
  | _ => cases hpc

theorem posting_traced (hrun : (dispatcher unsafeUrl).Run s ls s') (h0 : s.alerts.tasks = [])
    {i : Nat} {item : AlertMatch} (ht : s'.alerts.tasks[i]? = some ⟨item, .posting⟩) :
    sendNext unsafeUrl item = .posting ∧ (dispatcher unsafeUrl).Traced s
      ((.event (.send i), fun m => m.alerts.tasks[i]? = some ⟨item, .holding⟩) ::
        claimedAfter item i) ls := by
  obtain ⟨before, k, m, hl, hm, htask⟩ := task_origin hrun h0 ht
  generalize hpc : DispatchPc.posting = pc at htask
  cases htask with
  | sent hholding => exact ⟨rfl, .cons hl hm hholding (holding_traced hm h0 hholding)⟩
  | _ => cases hpc

/-- A task is about to record a success: its request was answered with one. -/
theorem recording_traced (hrun : (dispatcher unsafeUrl).Run s ls s') (h0 : s.alerts.tasks = [])
    {i : Nat} {item : AlertMatch} {sent : Bool} {error : Option String}
    (ht : s'.alerts.tasks[i]? = some ⟨item, .recording sent true error⟩) :
    sent = true ∧ error = none ∧ sendNext unsafeUrl item = .posting ∧
      (dispatcher unsafeUrl).Traced s (deliveredAfter item i).tail ls := by
  obtain ⟨before, k, m, hl, hm, htask⟩ := task_origin hrun h0 ht
  generalize hpc : DispatchPc.recording sent true error = pc at htask
  cases htask with
  | answered error' hposting =>
    obtain ⟨hnext, htraced⟩ := posting_traced hm h0 hposting
    cases error' with
    | none =>
      cases hpc
      exact ⟨rfl, rfl, hnext, .cons hl hm hposting htraced⟩
    | some e => cases hpc
  | sent _ =>
    -- the checks before the request record failures only
    unfold sendNext at hpc
    split at hpc
    · cases hpc
    · split at hpc <;> cases hpc
  | _ => cases hpc

end Stages

/-! ## Requests -/

section Requests
variable {unsafeUrl : String → Option String}

/-- The step begins the request `p`. -/
def Begins (unsafeUrl : String → Option String) (s : Dispatcher) (l : DispatcherLabel) (p : Post) :
    Prop :=
  (∃ i item, l = .event (.send i) ∧ s.alerts.tasks[i]? = some ⟨item, .holding⟩ ∧
    sendNext unsafeUrl item = .posting ∧
    p = ⟨none, item.subscriptionId, item.signingSecret, s.alerts.now⟩) ∨
  ∃ i worker item, l = .rate (.send i) ∧ s.rateTasks[i]? = some ⟨worker, item, .spawned⟩ ∧
    rateSendNext unsafeUrl item = .posting ∧
    p = ⟨some worker, item.subscriptionId, item.signingSecret, s.alerts.now⟩

/-- A step adds to `history`, and requests only by sending. -/
def Extends (unsafeUrl : String → Option String) (s : Dispatcher) (l : DispatcherLabel)
    (history : List Event) : Prop :=
  ∃ es, history = s.history ++ es ∧ ∀ p, .post p ∈ es → Begins unsafeUrl s l p

theorem extends_refl (s : Dispatcher) (l : DispatcherLabel) : Extends unsafeUrl s l s.history :=
  ⟨[], (List.append_nil _).symm, fun _ hp => by cases hp⟩

theorem apiStep_history (s : Dispatcher) (call : ApiCall) :
    Extends unsafeUrl s (.api call) (apiStep s call).history := by
  -- an entry that is no request
  have hone : ∀ {P : Prop} [Decidable P] {e : Event}, (∀ p, e ≠ .post p) →
      Extends unsafeUrl s (.api call) (if P then s.history ++ [e] else s.history) := by
    intro P _ e he
    split
    · exact ⟨[e], rfl, fun p hp => absurd (List.mem_singleton.mp hp).symm (he p)⟩
    · exact extends_refl s _
  cases call with
  | insertAlertSubscriptionRate errorCategory toAddr webhookUrl signingSecret rate =>
    simp only [apiStep]
    split <;> exact extends_refl s _
  | rotateAlertSubscriptionSecret id newSecret => exact hone fun p hn => by cases hn
  | deactivateAlertSubscription id => exact hone fun p hn => by cases hn
  | _ => exact extends_refl s _

theorem dispatcherStep_history {s s' : Dispatcher} {l : DispatcherLabel}
    (h : dispatcherStep unsafeUrl s l = some s') : Extends unsafeUrl s l s'.history := by
  cases l with
  | api call =>
    cases h
    exact apiStep_history s call
  | data db =>
    cases h
    exact extends_refl s _
  | event k =>
    obtain ⟨alerts, hstep, -, rfl⟩ := eventStep_some h
    refine ⟨_, rfl, fun p hp => .inl ?_⟩
    obtain ⟨q, hq, he⟩ := List.mem_map.mp hp
    cases he
    unfold eventPosts at hq
    split at hq
    · split at hq
      · rename_i i _ item htask
        split at hq
        · rename_i hnext
          exact ⟨i, item, rfl, htask, hnext, List.mem_singleton.mp hq⟩
        · cases hq
      · cases hq
    · cases hq
  | rate k =>
    have h : rateStep unsafeUrl s k = some s' := h
    cases k with
    | send i =>
      simp only [rateStep, rateSendStep] at h
      split at h
      · rename_i worker item htask
        cases h
        simp only
        split
        · rename_i hnext
          refine ⟨_, rfl, fun p hp => .inr ⟨i, worker, item, rfl, htask, hnext, ?_⟩⟩
          cases List.mem_singleton.mp hp
          rfl
        · exact extends_refl s _
      · cases h
    | find w =>
      simp only [rateStep, rateFindStep] at h
      split at h <;> cases h
      exact extends_refl s _
    | answer i error =>
      simp only [rateStep, rateAnswerStep] at h
      split at h <;> cases h
      exact extends_refl s _
    | record i =>
      simp only [rateStep, rateRecordStep] at h
      split at h
      · split at h <;> cases h <;> exact extends_refl s _
      · cases h
    | stop i =>
      simp only [rateStep, rateStopStep] at h
      split at h <;> cases h
      exact extends_refl s _

/-- The step that wrote an entry of `history`. -/
theorem history_origin {s s' : Dispatcher} {ls : List DispatcherLabel}
    (hrun : (dispatcher unsafeUrl).Run s ls s') (h0 : s.history = []) {k : Nat} {p : Post}
    (hp : s'.history[k]? = some (.post p)) :
    ∃ before l m, before ++ [l] <+: ls ∧ (dispatcher unsafeUrl).Run s before m ∧
      Begins unsafeUrl m l p := by
  obtain ⟨before, l, m, m', ho⟩ := hrun.origin (P := fun x => x.history[k]? = some (.post p))
    (by rw [h0]; exact fun hn => by cases hn) hp
  obtain ⟨es, hes, hbegins⟩ := dispatcherStep_history ho.step
  refine ⟨before, l, m, ho.labels, ho.run, hbegins p ?_⟩
  have hentry := ho.holds
  rw [hes, List.getElem?_append] at hentry
  split at hentry
  · exact absurd hentry ho.fresh
  · exact List.mem_of_getElem? hentry

/-- The request of a per-event task: what it carries, and what came before it. -/
def EventRequest (unsafeUrl : String → Option String) (s : Dispatcher) (ls : List DispatcherLabel)
    (p : Post) : Prop :=
  ∃ i item, p.worker = none ∧ p.subscriptionId = item.subscriptionId ∧
    p.signingSecret = item.signingSecret ∧ sendNext unsafeUrl item = .posting ∧
    (dispatcher unsafeUrl).Traced s
      ((.event (.send i),
        fun m => m.alerts.tasks[i]? = some ⟨item, .holding⟩ ∧ m.alerts.now = p.time) ::
        claimedAfter item i) ls

/-- The request of a rate task. -/
def RateRequest (unsafeUrl : String → Option String) (s : Dispatcher) (ls : List DispatcherLabel)
    (p : Post) : Prop :=
  ∃ i worker item, p.worker = some worker ∧ p.subscriptionId = item.subscriptionId ∧
    p.signingSecret = item.signingSecret ∧ rateSendNext unsafeUrl item = .posting ∧
    (dispatcher unsafeUrl).Traced s
      [(.rate (.send i),
        fun m => m.rateTasks[i]? = some ⟨worker, item, .spawned⟩ ∧ m.alerts.now = p.time),
       (.rate (.find worker), fun m => item ∈ findPendingRateAlertMatches m.alerts.db
        m.alerts.subscriptions m.rates m.dispatches m.alerts.now dispatchBatch)] ls

end Requests

/-- **No request out of nowhere.** Every entry of `history` that is a request was sent by
one task: a per-event task whose pair a query had returned and whose claim had won, or a
rate task whose subscription the query of its worker had returned over its threshold.
What it carries is what that query read, and it passed the checks. -/
theorem post_justified (unsafeUrl : String → Option String) {s s' : Dispatcher}
    {ls : List DispatcherLabel} (h0 : DispatcherInit s) (hrun : (dispatcher unsafeUrl).Run s ls s')
    {k : Nat} {p : Post} (hp : s'.history[k]? = some (.post p)) :
    EventRequest unsafeUrl s ls p ∨ RateRequest unsafeUrl s ls p := by
  obtain ⟨before, l, m, hl, hm, hbegins⟩ := history_origin hrun h0.history hp
  rcases hbegins with ⟨i, item, rfl, htask, hnext, rfl⟩ | ⟨i, worker, item, rfl, htask, hnext, rfl⟩
  · exact .inl ⟨i, item, rfl, rfl, rfl, hnext,
      .cons hl hm ⟨htask, rfl⟩ (holding_traced hm h0.tasks htask)⟩
  · refine .inr ⟨i, worker, item, rfl, rfl, rfl, hnext, .cons hl hm ⟨htask, rfl⟩ ?_⟩
    obtain ⟨before', l', n, n', ho⟩ := hm.origin
      (P := fun x => x.rateTasks[i]? = some ⟨worker, item, .spawned⟩)
      (by rw [h0.rateTasks]; exact fun hn => by cases hn) htask
    rcases dispatcherStep_rateTask ho.step ho.holds with hold | ⟨rfl, hfound⟩
    · exact absurd hold ho.fresh
    · exact .cons ho.labels ho.run hfound trivial

/-- One pending pair, and no dispatcher at work yet. -/
def idleDispatcher : Dispatcher := ⟨pendingAlerts, fun _ => none, 2, [], [], []⟩

def storyLabels : List DispatcherLabel :=
  [.event (.find hookMatch), .event (.claim 0), .event (.send 0), .event (.tick 7),
   .event (.answer 0 none), .event (.record 0)]

/-- A task delivers the pair. -/
def storyRun : Option Dispatcher := LTS.exec (dispatcherStep fun _ => none) idleDispatcher storyLabels

theorem storyRun_run : (dispatcher fun _ => none).Run idleDispatcher storyLabels
    (storyRun.get (by decide +kernel)) :=
  LTS.run_of_exec (Option.some_get _).symm

theorem post_justified_hook :
    EventRequest (fun _ => none) idleDispatcher storyLabels ⟨none, 1, "00", 0⟩ ∨
      RateRequest (fun _ => none) idleDispatcher storyLabels ⟨none, 1, "00", 0⟩ :=
  post_justified (fun _ => none) (k := 0) ⟨rfl, rfl, rfl, by decide +kernel, by decide +kernel⟩
    storyRun_run (by decide +kernel)

/-! ## Rows -/

section Rows
variable {unsafeUrl : String → Option String}

theorem apiStep_ledger (s : Dispatcher) (call : ApiCall) (p : Pair) :
    (apiStep s call).alerts.ledger.get p = s.alerts.ledger.get p ∨
      (apiStep s call).alerts.ledger.get p = none := by
  cases call with
  | insertAlertSubscriptionRate errorCategory toAddr webhookUrl signingSecret rate =>
    simp only [apiStep]
    split <;> exact .inl rfl
  | deleteAlertSubscription id =>
    simp only [apiStep, Table.get_filter]
    cases s.alerts.ledger.get p with
    | none => exact .inr rfl
    | some d =>
      rw [Option.filter_some]
      split
      · exact .inl rfl
      · exact .inr rfl
  | _ => exact .inl rfl

/-- A row becomes delivered by a record of a success. -/
theorem dispatcherStep_delivers {s s' : Dispatcher} {l : DispatcherLabel}
    (h : dispatcherStep unsafeUrl s l = some s') {p : Pair}
    (hold : ¬∃ d, s.alerts.ledger.get p = some d ∧ d.status = .delivered) {d : AlertDelivery}
    (hd : s'.alerts.ledger.get p = some d) (hst : d.status = .delivered) :
    ∃ i item sent error, l = .event (.record i) ∧ item.pair = p ∧
      s.alerts.tasks[i]? = some ⟨item, .recording sent true error⟩ := by
  cases l with
  | api call =>
    cases h
    rcases apiStep_ledger s call p with hrow | hrow
    · exact absurd ⟨d, hrow ▸ hd, hst⟩ hold
    · rw [hrow] at hd
      cases hd
  | data db =>
    cases h
    exact absurd ⟨d, hd, hst⟩ hold
  | rate k =>
    rw [(rateStep_frame h).1] at hd
    exact absurd ⟨d, hd, hst⟩ hold
  | event k =>
    obtain ⟨alerts, hstep, -, rfl⟩ := eventStep_some h
    cases dispatchStep_effect hstep with
    | @claimed i item ledger htask hclaim =>
      rw [show Table.get ledger p = _ from tryClaimAlertMatch_get hclaim p] at hd
      split at hd
      · -- a claim leaves a claimed row
        rw [Option.some.injEq] at hd
        rw [← hd] at hst
        cases hrow : s.alerts.ledger.get p <;> rw [hrow] at hst <;> cases hst
      · exact absurd ⟨d, hd, hst⟩ hold
    | @recorded i item sent delivered error ledger htask hrecord =>
      rw [show Table.get ledger p = _ from recordAlertDelivery_get hrecord p] at hd
      split at hd
      · rename_i hp
        rw [Option.some.injEq] at hd
        rw [← hd] at hst
        cases delivered with
        | true => exact ⟨i, item, sent, error, rfl, hp, htask⟩
        | false => cases hrow : s.alerts.ledger.get p <;> rw [hrow] at hst <;> cases hst
      · exact absurd ⟨d, hd, hst⟩ hold
    | _ => exact absurd ⟨d, hd, hst⟩ hold

end Rows

/-- **A delivered row tells its story.** Whatever dispatchers, rate tasks, the API and
the indexer do, crashes included: a row that was not delivered when the dispatchers
started and is delivered now was recorded by a task whose request was answered with a
success, and that request went out, to a URL that passed the check and with a secret
that decodes, after its claim of the pair had won and a query had returned the pair. -/
theorem delivered_story (unsafeUrl : String → Option String) {s s' : Dispatcher}
    {ls : List DispatcherLabel} (h0 : s.alerts.tasks = [])
    (hrun : (dispatcher unsafeUrl).Run s ls s') {p : Pair} {d : AlertDelivery}
    (hold : ¬∃ d, s.alerts.ledger.get p = some d ∧ d.status = .delivered)
    (hd : s'.alerts.ledger.get p = some d) (hst : d.status = .delivered) :
    ∃ i item, item.pair = p ∧ unsafeUrl item.webhookUrl = none ∧
      (hexDecode item.signingSecret.toList).isSome = true ∧
      (dispatcher unsafeUrl).Traced s (deliveredAfter item i) ls := by
  obtain ⟨before, l, m, m', ho⟩ := hrun.origin
    (P := fun x => ∃ d, x.alerts.ledger.get p = some d ∧ d.status = .delivered) hold ⟨d, hd, hst⟩
  obtain ⟨d', hd', hst'⟩ := ho.holds
  obtain ⟨i, item, sent, error, rfl, hp, htask⟩ := dispatcherStep_delivers ho.step ho.fresh hd' hst'
  obtain ⟨rfl, rfl, hnext, htraced⟩ := recording_traced ho.run h0 htask
  refine ⟨i, item, hp, ?_, ?_, .cons ho.labels ho.run htask htraced⟩
  · unfold sendNext at hnext
    split at hnext
    · cases hnext
    · assumption
  · unfold sendNext at hnext
    split at hnext
    · cases hnext
    · split at hnext
      · cases hnext
      · rename_i bytes hbytes
        rw [hbytes]
        rfl

theorem delivered_story_hook :
    ∃ i item, item.pair = hookMatch.pair ∧ (fun _ => none : String → Option String) item.webhookUrl = none ∧
      (hexDecode item.signingSecret.toList).isSome = true ∧
      (dispatcher fun _ => none).Traced idleDispatcher (deliveredAfter item i) storyLabels :=
  delivered_story (fun _ => none) (d := ⟨1, "0xaa", .delivered, 2, none, some 7, 0⟩) rfl
    storyRun_run (by decide +kernel) (by decide +kernel) rfl

end Amarillo.L4
