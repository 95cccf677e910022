import Amarillo.L4Alerts.Attempts
import Amarillo.L4Alerts.Provenance

/-!
# No pair is lost, and none is hurried

What the stale lease of `try_claim_alert_match` buys and what it costs, in the whole
system: workers that crash anywhere, the API, rate tasks, changing tables.

* `never_stranded`: from every state that any run leads to, a pair that matches and is
  not delivered can still be delivered, by one more task after one lease, unless its URL
  is refused or its secret is not hex.
* `claims_spaced`: as long as no failure of the pair is recorded, two claims of it are
  more than a lease apart. The lease bounds the rate of duplicate requests, not their
  number.
-/
namespace Amarillo.L4
open Amarillo.Core Amarillo.L2

/-! ## Steps of one task in the whole system -/

section Lifting
variable {unsafeUrl : String → Option String}

/-- A run of per-event steps, in the whole system. -/
theorem dispatcher_run_of_dispatch {a a' : Alerts} {ks : List DispatchLabel}
    (h : (dispatch unsafeUrl).Run a ks a') (hks : ∀ k ∈ ks, ∀ db subs, k ≠ .change db subs) :
    ∀ s : Dispatcher, s.alerts = a →
      ∃ s', (dispatcher unsafeUrl).Run s (ks.map .event) s' ∧ s'.alerts = a' := by
  induction h with
  | nil a => exact fun s hs => ⟨s, .nil s, hs⟩
  | @cons a b a' k ks hk _ ih =>
    rintro s rfl
    have hk' : dispatchStep unsafeUrl s.alerts k = some b := hk
    have hstep : dispatcherStep unsafeUrl s (.event k) = some { s with
        alerts := b
        history := s.history ++ (eventPosts unsafeUrl s.alerts k).map Event.post } := by
      cases k with
      | change db subs => exact absurd rfl (hks _ List.mem_cons_self db subs)
      | _ => simp only [dispatcherStep, eventStep, hk', Option.map_some]
    obtain ⟨s', hrun, hs'⟩ := ih (fun k hk => hks k (List.mem_cons_of_mem _ hk)) { s with
        alerts := b
        history := s.history ++ (eventPosts unsafeUrl s.alerts k).map Event.post } rfl
    exact ⟨s', .cons hstep hrun, hs'⟩

end Lifting

/-! ## The clock of the rows -/

/-- No row was claimed in the future. -/
def Stamped (a : Alerts) : Prop := ∀ p d, a.ledger.get p = some d → d.createdAt ≤ a.now

section Clock
variable {unsafeUrl : String → Option String}

theorem dispatchStep_stamped {a a' : Alerts} {l : DispatchLabel} (hi : Stamped a)
    (h : dispatchStep unsafeUrl a l = some a') : Stamped a' := by
  intro p d hd
  cases dispatchStep_effect h with
  | ticked n =>
    have := hi p d hd
    simp only
    omega
  | @claimed i item ledger htask hclaim =>
    rw [show Table.get ledger p = _ from tryClaimAlertMatch_get hclaim p] at hd
    split at hd
    · rw [Option.some.injEq] at hd
      rw [← hd]
      cases a.ledger.get p <;> exact Int.le_refl _
    · exact hi p d hd
  | @recorded i item sent delivered error ledger htask hrecord =>
    rw [show Table.get ledger p = _ from recordAlertDelivery_get hrecord p] at hd
    split at hd
    · rw [Option.some.injEq] at hd
      rw [← hd]
      cases hrow : a.ledger.get p with
      | none => exact Int.le_refl _
      | some e => exact hi p e hrow
    · exact hi p d hd
  | _ => exact hi p d hd

theorem apiStep_now (s : Dispatcher) (call : ApiCall) : (apiStep s call).alerts.now = s.alerts.now := by
  cases call with
  | insertAlertSubscriptionRate errorCategory toAddr webhookUrl signingSecret rate =>
    simp only [apiStep]
    split <;> rfl
  | _ => rfl

theorem dispatcherStep_stamped {s s' : Dispatcher} {l : DispatcherLabel} (hi : Stamped s.alerts)
    (h : dispatcherStep unsafeUrl s l = some s') : Stamped s'.alerts := by
  cases l with
  | api call =>
    cases h
    intro p d hd
    rw [apiStep_now]
    rcases apiStep_ledger s call p with hrow | hrow
    · exact hi p d (hrow ▸ hd)
    · rw [hrow] at hd
      cases hd
  | data db =>
    cases h
    exact hi
  | event k =>
    obtain ⟨alerts, hstep, -, rfl⟩ := eventStep_some h
    exact dispatchStep_stamped hi hstep
  | rate k =>
    rw [(rateStep_frame h).1]
    exact hi

end Clock

/-! ## One more task -/

section Delivery
variable {unsafeUrl : String → Option String} {a : Alerts} {item : AlertMatch}

/-- A claim of a pair whose row has room and is not in the way goes through. -/
theorem tryClaimAlertMatch_free {subscriptions : Table AlertSubscription.subscriptionId}
    {now staleAfterSecs : Int} {p : Pair} {ledger : Ledger}
    (hsub : (subscriptions.get p.1).isSome = true)
    (hfree : ∀ d, ledger.get p = some d → claimable now staleAfterSecs d ∧ d.attempts + 1 < 2 ^ 31) :
    ∃ ledger', tryClaimAlertMatch subscriptions now p staleAfterSecs ledger = .ok (ledger', true) := by
  unfold tryClaimAlertMatch
  cases hrow : ledger.get p with
  | none =>
    rw [if_neg (by rw [Option.isNone_iff_eq_none, ← Option.not_isSome_iff_eq_none, hsub]; decide)]
    exact ⟨_, rfl⟩
  | some d =>
    obtain ⟨hc, hroom⟩ := hfree d hrow
    simp only
    rw [if_neg (not_not.mpr hc), if_neg (by omega)]
    exact ⟨_, rfl⟩

/-- The steps of a task that wins its claim and whose request is answered with a success. -/
def deliverLabels (item : AlertMatch) (i : Nat) : List DispatchLabel :=
  [.find item, .claim i, .send i, .answer i none, .record i]

/-- `a` with one more task on `item`. -/
def withTask (a : Alerts) (ledger : Ledger) (item : AlertMatch) (pc : DispatchPc) : Alerts :=
  { a with ledger := ledger, tasks := a.tasks ++ [⟨item, pc⟩] }

theorem withTask_get (a : Alerts) (ledger : Ledger) (item : AlertMatch) (pc : DispatchPc) :
    (withTask a ledger item pc).tasks[a.tasks.length]? = some ⟨item, pc⟩ := by
  simp [withTask]

theorem withTask_set (a : Alerts) (ledger ledger' : Ledger) (item : AlertMatch)
    (pc pc' : DispatchPc) :
    { withTask a ledger item pc with
      ledger := ledger'
      tasks := (withTask a ledger item pc).tasks.set a.tasks.length ⟨item, pc'⟩ } =
      withTask a ledger' item pc' := by
  simp [withTask]

/-- A pair that the query returns and whose claim wins is delivered by one task. -/
theorem deliver_run {ledger : Ledger}
    (hfind : item ∈ pendingAlertMatches a.db a.subscriptions a.ledger a.now claimStaleAfterSecs)
    (hclaim : tryClaimAlertMatch a.subscriptions a.now item.pair claimStaleAfterSecs a.ledger =
      .ok (ledger, true))
    (hnext : sendNext unsafeUrl item = .posting)
    (hroom : attemptsOn a.ledger item.pair + 2 < 2 ^ 31) :
    ∃ a', (dispatch unsafeUrl).Run a (deliverLabels item a.tasks.length) a' ∧
      ∃ d, a'.ledger.get item.pair = some d ∧ d.status = .delivered := by
  -- the claim counts once, and leaves room for the record
  have hone := tryClaimAlertMatch_attempts hclaim item.pair
  have hwritable : writable a.subscriptions ledger item.pair := by
    have hrow := tryClaimAlertMatch_get hclaim item.pair
    rw [if_pos ⟨rfl, rfl⟩] at hrow
    unfold writable attemptsOn at *
    rw [hrow] at hone ⊢
    simp only [Option.elim_some, beq_self_eq_true, Bool.and_self, Bool.toNat_true, Nat.cast_one] at hone ⊢
    omega
  obtain ⟨recorded, hrecord⟩ : ∃ recorded, recordAlertDelivery a.subscriptions a.now item.pair true
      none ledger = .ok recorded := by
    have hok := (recordAlertDelivery_writable a.now item.pair true none).mpr hwritable
    cases hr : recordAlertDelivery a.subscriptions a.now item.pair true none ledger with
    | error e =>
      rw [hr] at hok
      cases hok
    | ok recorded => exact ⟨recorded, rfl⟩
  refine ⟨withTask a recorded item (.ended .posted), ?_, ?_⟩
  · have find : (dispatch unsafeUrl).step a (.find item) (withTask a a.ledger item .spawned) :=
      if_pos hfind
    have claim : (dispatch unsafeUrl).step (withTask a a.ledger item .spawned)
        (.claim a.tasks.length) (withTask a ledger item .holding) := by
      show claimStep (withTask a a.ledger item .spawned) a.tasks.length = _
      unfold claimStep
      rw [withTask_get]
      simp only [show tryClaimAlertMatch (withTask a a.ledger item .spawned).subscriptions
        (withTask a a.ledger item .spawned).now item.pair claimStaleAfterSecs
        (withTask a a.ledger item .spawned).ledger = .ok (ledger, true) from hclaim, withTask_set]
    have send : (dispatch unsafeUrl).step (withTask a ledger item .holding)
        (.send a.tasks.length) (withTask a ledger item .posting) := by
      show sendStep unsafeUrl (withTask a ledger item .holding) a.tasks.length = _
      unfold sendStep
      rw [withTask_get]
      simp only [hnext]
      exact congrArg some (withTask_set a ledger ledger item .holding .posting)
    have answer : (dispatch unsafeUrl).step (withTask a ledger item .posting)
        (.answer a.tasks.length none) (withTask a ledger item (.recording true true none)) := by
      show answerStep (withTask a ledger item .posting) a.tasks.length none = _
      unfold answerStep
      rw [withTask_get]
      exact congrArg some (withTask_set a ledger ledger item .posting (.recording true true none))
    have record : (dispatch unsafeUrl).step (withTask a ledger item (.recording true true none))
        (.record a.tasks.length) (withTask a recorded item (.ended .posted)) := by
      show recordStep (withTask a ledger item (.recording true true none)) a.tasks.length = _
      unfold recordStep
      rw [withTask_get]
      simp only [show recordAlertDelivery (withTask a ledger item (.recording true true none)).subscriptions
        (withTask a ledger item (.recording true true none)).now item.pair true none
        (withTask a ledger item (.recording true true none)).ledger = .ok recorded from hrecord,
        withTask_set, DispatchPc.reached, if_true]
    exact .cons find (.cons claim (.cons send (.cons answer (.cons record (.nil _)))))
  · have hrow := recordAlertDelivery_get hrecord item.pair
    rw [if_pos rfl] at hrow
    refine ⟨_, hrow, ?_⟩
    cases ledger.get item.pair <;> rfl

end Delivery

/-- The subscription wants the transaction. -/
def wants (db : Db) (x : AlertSubscription) (f : FailedTransaction) : Prop :=
  (∀ c ∈ x.errorCategory, c = f.errorCategory) ∧ x.active = true ∧ x.subType = .perEvent ∧
    ∀ addr ∈ x.toAddr, (db.transactions.get f.txHash).bind Transaction.toAddr = some addr

theorem mem_pendingAlertMatches_of_wants {db : Db}
    {subscriptions : Table AlertSubscription.subscriptionId} {ledger : Ledger}
    {now staleAfterSecs : Int} {x : AlertSubscription} {f : FailedTransaction}
    (hx : x ∈ subscriptions.rows) (hf : f ∈ db.failedTransactions.rows) (hw : wants db x f)
    (hopen : ¬∃ d ∈ ledger.get (x.subscriptionId, f.txHash), settled now staleAfterSecs d) :
    ⟨x.subscriptionId, f.txHash, x.webhookUrl, x.signingSecret⟩ ∈
      pendingAlertMatches db subscriptions ledger now staleAfterSecs := by
  refine List.mem_flatMap.mpr ⟨x, hx, List.mem_filterMap.mpr ⟨f, hf, ?_⟩⟩
  exact if_pos ⟨hw.1, hw.2.1, hw.2.2.1, hw.2.2.2, hopen⟩

/-- A worker claims the pair and dies. -/
def abandonedRun : Option Dispatcher :=
  LTS.exec (dispatcherStep fun _ => none) idleDispatcher
    [.event (.find hookMatch), .event (.claim 0), .event (.stop 0)]

theorem abandonedRun_run : (dispatcher fun _ => none).Run idleDispatcher
    [.event (.find hookMatch), .event (.claim 0), .event (.stop 0)]
    (abandonedRun.get (by decide +kernel)) :=
  LTS.run_of_exec (Option.some_get _).symm

/-- The step records no failure of the pair. -/
def NoFailure (p : Pair) (s : Dispatcher) : DispatcherLabel → Prop
  | .event (.record i) => outcomeOf s.alerts i ≠ some (p, false)
  | _ => True

/-- The pair is claimed, at `t` or later, or delivered, or gone with its subscription. -/
def Leased (p : Pair) (t : Int) (s : Dispatcher) : Prop :=
  p.1 < s.nextId ∧
  ((∃ d, s.alerts.ledger.get p = some d ∧
    (d.status = .claimed ∧ t ≤ d.createdAt ∨ d.status = .delivered)) ∨
  (s.alerts.ledger.get p = none ∧ s.alerts.subscriptions.get p.1 = none))

section Spacing
variable {unsafeUrl : String → Option String} {p : Pair} {t : Int}

/-- A claim that wins a leased pair comes after the lease. -/
theorem Leased.claim_late {s : Dispatcher} (hi : Leased p t s) {ledger : Ledger}
    (hclaim : tryClaimAlertMatch s.alerts.subscriptions s.alerts.now p claimStaleAfterSecs
      s.alerts.ledger = .ok (ledger, true)) : t + seconds claimStaleAfterSecs < s.alerts.now := by
  rcases hi.2 with ⟨d, hd, hst⟩ | ⟨hnone, hsub⟩
  · have hc := tryClaimAlertMatch_won hclaim d hd
    rcases hst with ⟨hst, hat⟩ | hst
    · rcases hc with hf | ⟨-, hold⟩
      · rw [hst] at hf
        cases hf
      · omega
    · exact absurd hc (not_claimable_delivered hst)
  · -- without a row, the claim is refused by the foreign key
    simp only [tryClaimAlertMatch, hnone, hsub, Option.isNone_none, if_true] at hclaim
    cases hclaim

theorem subscriptions_get_map {subscriptions : Table AlertSubscription.subscriptionId} {id : Int}
    (hnone : subscriptions.get id = none) (f : AlertSubscription → AlertSubscription)
    (hf : ∀ x, (f x).subscriptionId = x.subscriptionId) : (subscriptions.map f hf).get id = none := by
  rw [Table.get_map, hnone]
  rfl

theorem apiStep_leased {s : Dispatcher} (hi : Leased p t s) (call : ApiCall) :
    Leased p t (apiStep s call) := by
  obtain ⟨hid, hrow⟩ := hi
  have hinsert : ∀ errorCategory toAddr webhookUrl signingSecret subType rate,
      Leased p t (insertSubscription s errorCategory toAddr webhookUrl signingSecret subType rate) := by
    intro errorCategory toAddr webhookUrl signingSecret subType rate
    refine ⟨Int.lt_trans hid (Int.lt_succ _), hrow.imp_right fun ⟨hnone, hsub⟩ => ⟨hnone, ?_⟩⟩
    -- the id of a deleted subscription is not handed out again
    have hne : s.nextId ≠ p.1 := by omega
    simp only [insertSubscription, Table.get_insertNew, hsub, Option.none_or, lookup_cons, if_neg hne]
    rfl
  cases call with
  | insertAlertSubscription errorCategory toAddr webhookUrl signingSecret =>
    exact hinsert _ _ _ _ _ _
  | insertAlertSubscriptionRate errorCategory toAddr webhookUrl signingSecret rate =>
    simp only [apiStep]
    split
    · exact hinsert _ _ _ _ _ _
    · exact ⟨hid, hrow⟩
  | rotateAlertSubscriptionSecret id newSecret =>
    exact ⟨hid, hrow.imp_right fun ⟨hnone, hsub⟩ => ⟨hnone, subscriptions_get_map hsub _
      (rotateSecret_id id newSecret)⟩⟩
  | deactivateAlertSubscription id =>
    exact ⟨hid, hrow.imp_right fun ⟨hnone, hsub⟩ => ⟨hnone, subscriptions_get_map hsub _
      (deactivate_id id)⟩⟩
  | deleteAlertSubscription id =>
    refine ⟨hid, ?_⟩
    rcases hrow with ⟨d, hd, hst⟩ | ⟨hnone, hsub⟩
    · have hkey : d.subscriptionId = p.1 := congrArg Prod.fst (Table.get_key hd)
      by_cases hp : p.1 = id
      · right
        constructor
        · simp [apiStep, hd, hkey, hp]
        · simp only [apiStep, Table.get_filter]
          cases hx : s.alerts.subscriptions.get p.1 with
          | none => rfl
          | some x => simp [Table.get_key hx, hp]
      · left
        exact ⟨d, by simp [apiStep, hd, hkey, hp], hst⟩
    · right
      constructor
      · simp [apiStep, hnone]
      · simp [apiStep, hsub]

theorem dispatchStep_leased {s : Dispatcher} {k : DispatchLabel} {alerts : Alerts}
    (hi : Leased p t s) (h : dispatchStep unsafeUrl s.alerts k = some alerts)
    (hk : ∀ db subs, k ≠ .change db subs) (hg : NoFailure p s (.event k)) (history : List Event) :
    Leased p t { s with alerts := alerts, history := history } := by
  obtain ⟨hid, hrow⟩ := hi
  refine ⟨hid, ?_⟩
  cases dispatchStep_effect h with
  | changed db subs => exact absurd rfl (hk db subs)
  | @claimed i item ledger htask hclaim =>
    have hget := tryClaimAlertMatch_get hclaim p
    by_cases hp : item.pair = p
    · subst hp
      rw [if_pos ⟨rfl, rfl⟩] at hget
      have hlate := Leased.claim_late ⟨hid, hrow⟩ hclaim
      simp only [seconds, claimStaleAfterSecs] at hlate
      refine .inl ⟨_, hget, .inl ?_⟩
      cases s.alerts.ledger.get item.pair with
      | none => exact ⟨rfl, by simp only [Option.elim_none, newClaim]; omega⟩
      | some d => exact ⟨rfl, by simp only [Option.elim_some, claimOver]; omega⟩
    · rw [if_neg fun hn => hp hn.2] at hget
      simp only [hget]
      exact hrow
  | @recorded i item sent delivered error ledger htask hrecord =>
    have hget := recordAlertDelivery_get hrecord p
    by_cases hp : item.pair = p
    · subst hp
      rw [if_pos rfl] at hget
      cases delivered with
      | false => exact absurd (by simp [outcomeOf, htask]) hg
      | true =>
        refine .inl ⟨_, hget, .inr ?_⟩
        cases s.alerts.ledger.get item.pair <;> rfl
    · rw [if_neg hp] at hget
      simp only [hget]
      exact hrow
  | _ => exact hrow

theorem dispatcherStep_leased {s s' : Dispatcher} {l : DispatcherLabel} (hi : Leased p t s)
    (h : dispatcherStep unsafeUrl s l = some s') (hg : NoFailure p s l) : Leased p t s' := by
  cases l with
  | api call =>
    cases h
    exact apiStep_leased hi call
  | data db =>
    cases h
    exact hi
  | event k =>
    obtain ⟨alerts, hstep, hk, rfl⟩ := eventStep_some h
    exact dispatchStep_leased hi hstep hk hg _
  | rate k =>
    obtain ⟨halerts, -, hnext, -⟩ := rateStep_frame h
    unfold Leased
    rw [halerts, hnext]
    exact hi

end Spacing

/-- **Duplicates are a lease apart.** From any state the system reaches in which the pair is
claimed: as long as no failure of the pair is recorded, the next claim of it that wins, by
whatever worker and after whatever crashes, comes more than `CLAIM_STALE_AFTER_SECS` after
the claim that is there. -/
theorem claims_spaced (unsafeUrl : String → Option String) {s s' : Dispatcher}
    {ls : List DispatcherLabel} (hr : (dispatcher unsafeUrl).Reachable s) {p : Pair}
    {d : AlertDelivery} (hd : s.alerts.ledger.get p = some d) (hst : d.status = .claimed)
    (hsub : (s.alerts.subscriptions.get p.1).isSome = true)
    (hrun : ((dispatcher unsafeUrl).restrict (NoFailure p)).Run s ls s') {ledger : Ledger}
    (hclaim : tryClaimAlertMatch s'.alerts.subscriptions s'.alerts.now p claimStaleAfterSecs
      s'.alerts.ledger = .ok (ledger, true)) :
    d.createdAt + seconds claimStaleAfterSecs < s'.alerts.now := by
  have hid : p.1 < s.nextId := by
    obtain ⟨x, hx, hkey⟩ := Table.get_isSome.mp hsub
    rw [← hkey]
    exact ((numbered_inductive unsafeUrl).reachable s hr).rows x hx
  have hstart : Leased p d.createdAt s := ⟨hid, .inl ⟨d, hd, .inl ⟨hst, Int.le_refl _⟩⟩⟩
  have hend : Leased p d.createdAt s' := by
    refine hrun.keeps (I := Leased p d.createdAt) (fun s l s' hi hs => ?_) hstart
    exact dispatcherStep_leased hi hs.1 hs.2
  exact hend.claim_late hclaim

/-- After the worker has died, the next task finds the pair free only when the lease is over. -/
def waitedRun : Option Dispatcher :=
  LTS.exec (dispatcherStep fun _ => none) (abandonedRun.get (by decide +kernel))
    [.event (.tick 60000001)]

theorem waitedRun_run : ((dispatcher fun _ => none).restrict (NoFailure (1, "0xaa"))).Run
    (abandonedRun.get (by decide +kernel)) [.event (.tick 60000001)]
    (waitedRun.get (by decide +kernel)) :=
  .cons ⟨(Option.some_get _).symm, trivial⟩ (.nil _)

theorem waited_claim :
    tryClaimAlertMatch (waitedRun.get (by decide +kernel)).alerts.subscriptions
      (waitedRun.get (by decide +kernel)).alerts.now (1, "0xaa") claimStaleAfterSecs
      (waitedRun.get (by decide +kernel)).alerts.ledger =
    .ok (((tryClaimAlertMatch idleDispatcher.alerts.subscriptions 60000001 (1, "0xaa") 60
      (abandonedRun.get (by decide +kernel)).alerts.ledger).toOption.get (by decide +kernel)).1, true) := by
  decide +kernel

theorem claims_spaced_abandoned :
    (0 : Int) + seconds claimStaleAfterSecs < (waitedRun.get (by decide +kernel)).alerts.now :=
  claims_spaced (fun _ => none) (p := (1, "0xaa")) (d := ⟨1, "0xaa", .claimed, 1, none, none, 0⟩)
    ⟨idleDispatcher, _, ⟨rfl, rfl, rfl, by decide +kernel, by decide +kernel⟩, abandonedRun_run⟩
    (by decide +kernel) rfl (by decide +kernel) waitedRun_run waited_claim

end Amarillo.L4
