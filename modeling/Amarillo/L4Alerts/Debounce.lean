import Amarillo.L4Alerts.Dispatcher

/-!
# The debounce of rate alerts

There is no claim, so two workers may both read a subscription before either has
recorded, and both send. One worker alone cannot: it reads again only when its
tasks have ended, and by then its last request is older than a recorded dispatch
(`covered`), which the query wants to be `debounce_secs` old (`waiting`). So the
requests of one worker to one subscription are `debounce_secs` apart (`apart`).

* `rate_debounced`: with `W` workers, an interval shorter than `debounce_secs`
  holds at most `W` requests to the subscription.
-/
namespace Amarillo.L4
open Amarillo.Core Amarillo.L2

/-- The request has begun and is not recorded. -/
def RatePc.sent : RatePc → Bool
  | .posting => true
  | .recording _ _ => true
  | _ => false

/-- The record of task `i` is not refused. -/
def RateRecorded (s : Dispatcher) (i : Nat) : Prop :=
  match s.rateTasks[i]? with
  | some ⟨_, item, .recording delivered error⟩ =>
    (recordRateAlertDispatch s.alerts.subscriptions s.alerts.now item.subscriptionId
      (asI32 item.matchCount) delivered error s.dispatches).isOk = true
  | _ => True

instance (s : Dispatcher) (i : Nat) : Decidable (RateRecorded s i) := by
  unfold RateRecorded
  split <;> infer_instance

/-- `W` workers, all of whose dispatches are recorded. -/
def Recording (W : Nat) (s : Dispatcher) : DispatcherLabel → Prop
  | .rate (.find worker) => worker < W
  | .rate (.record i) => RateRecorded s i
  | .rate (.stop i) => ∀ t ∈ s.rateTasks[i]?, t.pc.sent = false
  | _ => True

instance (W : Nat) (s : Dispatcher) : (l : DispatcherLabel) → Decidable (Recording W s l)
  | .rate (.find worker) => inferInstanceAs (Decidable (worker < W))
  | .rate (.record i) => inferInstanceAs (Decidable (RateRecorded s i))
  | .rate (.stop i) => inferInstanceAs (Decidable (∀ t ∈ s.rateTasks[i]?, t.pc.sent = false))
  | .rate (.send _) => instDecidableTrue
  | .rate (.answer _ _) => instDecidableTrue
  | .api _ => instDecidableTrue
  | .data _ => instDecidableTrue
  | .event _ => instDecidableTrue

/-! ## The invariant -/

/-- At most one of the two is at work on a candidate of the same worker and subscription. -/
def Exclusive (t u : RateTask) : Prop :=
  t.pc ≠ .ended → u.pc ≠ .ended → t.worker = u.worker →
    t.item.subscriptionId ≠ u.item.subscriptionId

instance : Std.Symm Exclusive := ⟨fun _ _ h hne hne' hw e => h hne' hne hw.symm e.symm⟩

/-- The task of the request is still open, or a dispatch is recorded after it, or the
subscription is deleted. -/
def Covered (s : Dispatcher) (worker : Nat) (p : Post) : Prop :=
  (∃ t ∈ s.rateTasks, t.worker = worker ∧ t.item.subscriptionId = p.subscriptionId ∧
    t.pc.sent = true) ∨
  (∃ d ∈ s.dispatches, d.subscriptionId = p.subscriptionId ∧ p.time ≤ d.dispatchedAt) ∨
  s.alerts.subscriptions.get p.subscriptionId = none

/-- `q` comes at least `debounce_secs` after `p`, if one worker sends both to one
subscription. -/
def Apart (rates : Int → Option RateColumns) (p q : Post) : Prop :=
  ∀ w, p.worker = some w → q.worker = some w → p.subscriptionId = q.subscriptionId →
    ∀ r, rates p.subscriptionId = some r → p.time + seconds r.debounceSecs ≤ q.time

structure DebounceInv (W : Nat) (s : Dispatcher) : Prop where
  workers : ∀ t ∈ s.rateTasks, t.worker < W
  past : ∀ p ∈ s.posts, p.time ≤ s.alerts.now
  senders : ∀ p ∈ s.posts, (∃ w < W, p.worker = some w) ∨
    (p.worker = none ∧ s.rates p.subscriptionId = none)
  single : s.rateTasks.Pairwise Exclusive
  covered : ∀ p ∈ s.posts, ∀ w, p.worker = some w → Covered s w p
  waiting : ∀ t ∈ s.rateTasks, t.pc = .spawned → ∀ p ∈ s.posts, p.worker = some t.worker →
    p.subscriptionId = t.item.subscriptionId → ∀ r, s.rates p.subscriptionId = some r →
      p.time + seconds r.debounceSecs ≤ s.alerts.now
  apart : s.posts.Pairwise (Apart s.rates)

/-- An entry that is replaced by one with the same relations. -/
theorem pairwise_set {α : Type*} {R : α → α → Prop} {t a : α} (hl : ∀ x, R x t → R x a)
    (hr : ∀ x, R t x → R a x) : ∀ {l : List α} {i : Nat}, l.Pairwise R → l[i]? = some t →
      (l.set i a).Pairwise R
  | [], _, h, _ => h
  | x :: l, 0, h, ht => by
    simp only [List.getElem?_cons_zero, Option.some.injEq] at ht
    subst ht
    obtain ⟨hx, h⟩ := List.pairwise_cons.mp h
    exact .cons (fun y hy => hr y (hx y hy)) h
  | x :: l, i + 1, h, ht => by
    rw [List.getElem?_cons_succ] at ht
    obtain ⟨hx, h⟩ := List.pairwise_cons.mp h
    refine .cons (fun y hy => ?_) (pairwise_set hl hr h ht)
    rcases List.mem_or_eq_of_mem_set hy with hy | rfl
    · exact hx y hy
    · exact hl x (hx t (List.mem_of_getElem? ht))

section Steps
variable {unsafeUrl : String → Option String} {W : Nat} {s s' : Dispatcher}

/-- What the other parties leave of the rate side: the columns of the ids in use, and a
dispatch as long as its subscription is there. Their requests are per-event ones. -/
structure Undisturbed (s s' : Dispatcher) : Prop where
  rateTasks : s'.rateTasks = s.rateTasks
  now : s.alerts.now ≤ s'.alerts.now
  rates : ∀ x, x < s.nextId → s'.rates x = s.rates x
  gone : ∀ x, x < s.nextId → s.alerts.subscriptions.get x = none →
    s'.alerts.subscriptions.get x = none
  dispatches : ∀ d ∈ s.dispatches, d ∈ s'.dispatches ∨
    s'.alerts.subscriptions.get d.subscriptionId = none
  posts : ∃ ps, s'.posts = s.posts ++ ps ∧ ∀ p ∈ ps, p.worker = none ∧
    p.time ≤ s'.alerts.now ∧ s'.rates p.subscriptionId = none

theorem mem_posts {p : Post} : p ∈ s.posts ↔ Event.post p ∈ s.history := by
  unfold Dispatcher.posts
  rw [List.mem_filterMap]
  constructor
  · rintro ⟨e, he, hp⟩
    cases e <;> cases hp
    exact he
  · exact fun h => ⟨_, h, rfl⟩

theorem DebounceInv.undisturbed (hi : DebounceInv W s) (hn : Numbered s) (h : Undisturbed s s') :
    DebounceInv W s' := by
  obtain ⟨ps, hps, hnone⟩ := h.posts
  have hid : ∀ p ∈ s.posts, p.subscriptionId < s.nextId := fun p hp =>
    hn.history _ (mem_posts.mp hp)
  -- a request of a worker was there before
  have hold : ∀ p ∈ s'.posts, ∀ w, p.worker = some w → p ∈ s.posts := by
    intro p hp w hw
    rw [hps] at hp
    rcases List.mem_append.mp hp with hp | hp
    · exact hp
    · rw [(hnone p hp).1] at hw
      cases hw
  refine ⟨h.rateTasks ▸ hi.workers, fun p hp => ?_, fun p hp => ?_, h.rateTasks ▸ hi.single,
    fun p hp w hw => ?_, fun t ht hpc p hp hw hsub r hr => ?_, ?_⟩
  · rw [hps] at hp
    rcases List.mem_append.mp hp with hp | hp
    · exact le_trans (hi.past p hp) h.now
    · exact (hnone p hp).2.1
  · rw [hps] at hp
    rcases List.mem_append.mp hp with hp | hp
    · rw [h.rates _ (hid p hp)]
      exact hi.senders p hp
    · exact .inr ⟨(hnone p hp).1, (hnone p hp).2.2⟩
  · have hp := hold p hp w hw
    rcases hi.covered p hp w hw with ht | ⟨d, hd, hsub, hle⟩ | hgone
    · exact .inl (by rwa [h.rateTasks])
    · rcases h.dispatches d hd with hd' | hnone
      · exact .inr (.inl ⟨d, hd', hsub, hle⟩)
      · exact .inr (.inr (hsub ▸ hnone))
    · exact .inr (.inr (h.gone _ (hid p hp) hgone))
  · have hp := hold p hp _ hw
    rw [h.rates _ (hid p hp)] at hr
    exact le_trans (hi.waiting t (h.rateTasks ▸ ht) hpc p hp hw hsub r hr) h.now
  · rw [hps]
    refine List.pairwise_append.mpr ⟨?_, ?_, fun p _ q hq w _ hw => ?_⟩
    · refine hi.apart.imp_of_mem fun {p q} hp _ hpq w hw hw' hsub r hr => ?_
      exact hpq w hw hw' hsub r (h.rates _ (hid p hp) ▸ hr)
    · refine List.pairwise_of_forall_mem_list fun p hp q _ w hw => ?_
      rw [(hnone p hp).1] at hw
      cases hw
    · rw [(hnone q hq).1] at hw
      cases hw

theorem insert_undisturbed {errorCategory : Option ErrorCategory} {toAddr : Option String}
    {webhookUrl signingSecret : String} {subType : SubType} {rate : Option RateColumns} :
    Undisturbed s (insertSubscription s errorCategory toAddr webhookUrl signingSecret subType rate) where
  rateTasks := rfl
  now := le_rfl
  rates x hx := if_neg (by omega)
  gone x hx hnone := by
    rw [insertSubscription, Table.get_insertNew, hnone, Option.none_or]
    simp only [lookup_eq_none, List.mem_singleton, forall_eq]
    omega
  dispatches d hd := .inl hd
  posts := ⟨[], (List.append_nil _).symm, List.forall_mem_nil _⟩

theorem apiStep_undisturbed (call : ApiCall) : Undisturbed s (apiStep s call) := by
  have hposts : ∀ (P : Prop) [Decidable P] (e : Event), e.request = none →
      (if P then s.history ++ [e] else s.history).filterMap Event.request = s.posts ++ [] := by
    intro P _ e he
    rw [List.append_nil]
    split
    · rw [List.filterMap_append, List.filterMap_cons, he]
      simp [Dispatcher.posts]
    · rfl
  cases call with
  | insertAlertSubscription errorCategory toAddr webhookUrl signingSecret =>
    exact insert_undisturbed
  | insertAlertSubscriptionRate errorCategory toAddr webhookUrl signingSecret rate =>
    simp only [apiStep]
    split
    · exact insert_undisturbed
    · exact ⟨rfl, le_rfl, fun _ _ => rfl, fun _ _ h => h, fun _ hd => .inl hd, [],
        (List.append_nil _).symm, List.forall_mem_nil _⟩
  | rotateAlertSubscriptionSecret id newSecret =>
    refine ⟨rfl, le_rfl, fun _ _ => rfl, fun x _ h => ?_, fun _ hd => .inl hd, [],
      hposts _ _ rfl, List.forall_mem_nil _⟩
    rw [apiStep, Table.get_map, h, Option.map_none]
  | deactivateAlertSubscription id =>
    refine ⟨rfl, le_rfl, fun _ _ => rfl, fun x _ h => ?_, fun _ hd => .inl hd, [],
      hposts _ _ rfl, List.forall_mem_nil _⟩
    rw [apiStep, Table.get_map, h, Option.map_none]
  | deleteAlertSubscription id =>
    refine ⟨rfl, le_rfl, fun _ _ => rfl, fun x _ h => ?_, fun d hd => ?_, [],
      (List.append_nil _).symm, List.forall_mem_nil _⟩
    · rw [apiStep, Table.get_filter, h, Option.filter_none]
    · by_cases hid : d.subscriptionId = id
      · right
        rw [apiStep, Table.get_filter, Option.filter_eq_none_iff]
        intro x hx
        simp [Table.get_key hx, hid]
      · exact .inl (List.mem_filter.mpr ⟨hd, by simpa using hid⟩)

theorem eventStep_undisturbed (hn : Numbered s) {l : DispatchLabel}
    (h : eventStep unsafeUrl s l = some s') : Undisturbed s s' := by
  obtain ⟨alerts, hstep, hl, rfl⟩ := eventStep_some h
  obtain ⟨hsubs, hnow⟩ := dispatchStep_frame hstep hl
  refine ⟨rfl, hnow, fun _ _ => rfl, fun x _ hx => ?_, fun _ hd => .inl hd,
    eventPosts unsafeUrl s.alerts l, ?_, fun p hp => ?_⟩
  · simpa only [hsubs] using hx
  · unfold Dispatcher.posts
    rw [List.filterMap_append, List.filterMap_map]
    exact congrArg _ List.filterMap_some
  · obtain ⟨hw, htime, t, ht, -, hid, -⟩ := mem_eventPosts hp
    exact ⟨hw, htime ▸ hnow, hid ▸ (hn.tasks t ht).2⟩

/-! ## Rate steps -/

/-- A task that moves on. Its request, if there was one, is still open or recorded. -/
theorem DebounceInv.moved (hi : DebounceInv W s) {i : Nat} {t a : RateTask}
    (ht : s.rateTasks[i]? = some t) (hworker : a.worker = t.worker) (hitem : a.item = t.item)
    (hended : t.pc = .ended → a.pc = .ended) (hspawned : a.pc ≠ .spawned)
    (hsent : t.pc.sent = true → a.pc.sent = true ∨ ∃ d ∈ s.dispatches,
      d.subscriptionId = t.item.subscriptionId ∧ s.alerts.now ≤ d.dispatchedAt) :
    DebounceInv W { s with rateTasks := s.rateTasks.set i a } := by
  have hlt : i < s.rateTasks.length := (List.getElem?_eq_some_iff.mp ht).1
  refine ⟨fun u hu => ?_, hi.past, hi.senders, pairwise_set ?_ ?_ hi.single ht,
    fun p hp w hw => ?_, fun u hu hpc => ?_, hi.apart⟩
  · rcases List.mem_or_eq_of_mem_set hu with hu | rfl
    · exact hi.workers u hu
    · rw [hworker]
      exact hi.workers t (List.mem_of_getElem? ht)
  · intro x hx hne hne' hw
    rw [hitem]
    exact hx hne (fun e => hne' (hended e)) (hw.trans hworker)
  · intro x hx hne hne' hw
    rw [hitem]
    exact hx (fun e => hne (hended e)) hne' (hworker.symm.trans hw)
  · rcases hi.covered p hp w hw with ⟨u, hu, huw, hsub, hus⟩ | hrest
    · obtain ⟨j, hj⟩ := List.mem_iff_getElem?.mp hu
      by_cases hij : i = j
      · subst hij
        rw [ht, Option.some.injEq] at hj
        subst hj
        rcases hsent hus with has | ⟨d, hd, hds, hle⟩
        · exact .inl ⟨a, List.mem_iff_getElem?.mpr ⟨i, List.getElem?_set_self hlt⟩,
            hworker.trans huw, by rw [hitem, hsub], has⟩
        · exact .inr (.inl ⟨d, hd, hds.trans hsub, le_trans (hi.past p hp) hle⟩)
      · exact .inl ⟨u, List.mem_iff_getElem?.mpr ⟨j, by rwa [List.getElem?_set_ne hij]⟩, huw, hsub,
          hus⟩
    · exact .inr hrest
  · rcases List.mem_or_eq_of_mem_set hu with hu | rfl
    · exact hi.waiting u hu hpc
    · exact absurd hpc hspawned

/-- A new request, `debounce_secs` after the last one of its worker. -/
theorem DebounceInv.posted (hi : DebounceInv W s) {t : RateTask} (ht : t ∈ s.rateTasks)
    (hpc : t.pc.sent = true)
    (hlast : ∀ p ∈ s.posts, p.worker = some t.worker → p.subscriptionId = t.item.subscriptionId →
      ∀ r, s.rates p.subscriptionId = some r →
        p.time + seconds r.debounceSecs ≤ s.alerts.now) :
    DebounceInv W { s with history := s.history ++
      [.post ⟨some t.worker, t.item.subscriptionId, t.item.signingSecret, s.alerts.now⟩] } := by
  have hposts : { s with history := s.history ++
      [Event.post ⟨some t.worker, t.item.subscriptionId, t.item.signingSecret, s.alerts.now⟩] }.posts =
      s.posts ++ [⟨some t.worker, t.item.subscriptionId, t.item.signingSecret, s.alerts.now⟩] :=
    s.posts_append _
  have hne : t.pc ≠ .ended := by
    intro e
    rw [e] at hpc
    cases hpc
  refine ⟨hi.workers, fun p hp => ?_, fun p hp => ?_, hi.single, fun p hp w hw => ?_,
    fun u hu hupc p hp hw hsub r hr => ?_, ?_⟩
  · rw [hposts] at hp
    rcases List.mem_append.mp hp with hp | hp
    · exact hi.past p hp
    · rw [List.mem_singleton.mp hp]
  · rw [hposts] at hp
    rcases List.mem_append.mp hp with hp | hp
    · exact hi.senders p hp
    · rw [List.mem_singleton.mp hp]
      exact .inl ⟨t.worker, hi.workers t ht, rfl⟩
  · rw [hposts] at hp
    rcases List.mem_append.mp hp with hp | hp
    · exact hi.covered p hp w hw
    · rw [List.mem_singleton.mp hp] at hw ⊢
      cases hw
      exact .inl ⟨t, ht, rfl, rfl, hpc⟩
  · rw [hposts] at hp
    rcases List.mem_append.mp hp with hp | hp
    · exact hi.waiting u hu hupc p hp hw hsub r hr
    · -- a second candidate of the worker does not exist
      rw [List.mem_singleton.mp hp] at hw hsub
      have hut : u ≠ t := by
        rintro rfl
        rw [hupc] at hpc
        cases hpc
      exact absurd hsub (hi.single.forall ht hu hut.symm hne (by rw [hupc]; nofun)
        (Option.some.inj hw))
  · rw [hposts]
    refine List.pairwise_append.mpr ⟨hi.apart, List.pairwise_singleton _ _, fun p hp q hq => ?_⟩
    rw [List.mem_singleton.mp hq]
    intro w hw hw' hsub r hr
    cases hw'
    exact hlast p hp hw hsub r hr

/-- A worker reads again when its tasks have ended: its requests are recorded, and the
query skips the subscriptions whose last record is too young. -/
theorem rateFind_inv (hi : DebounceInv W s) {worker : Nat} (hw : worker < W)
    (h : rateFindStep s worker = some s') : DebounceInv W s' := by
  unfold rateFindStep at h
  split at h
  · rename_i hended
    cases h
    have hnew : ∀ t ∈ (findPendingRateAlertMatches s.alerts.db s.alerts.subscriptions s.rates
        s.dispatches s.alerts.now dispatchBatch).map fun item => (⟨worker, item, .spawned⟩ : RateTask),
        t.worker = worker ∧ ∃ x, s.alerts.subscriptions.get t.item.subscriptionId = some x ∧
          ∃ r, s.rates t.item.subscriptionId = some r ∧ ∀ d ∈ s.dispatches,
            d.subscriptionId = t.item.subscriptionId →
              d.dispatchedAt + seconds r.debounceSecs ≤ s.alerts.now := by
      intro t ht
      obtain ⟨item, hitem, rfl⟩ := List.mem_map.mp ht
      obtain ⟨x, hx, -, -, hr⟩ := mem_findPendingRateAlertMatches hitem
      exact ⟨rfl, x, hx, hr⟩
    refine ⟨fun t ht => ?_, hi.past, hi.senders, ?_, fun p hp w hw => ?_,
      fun t ht hpc p hp hpw hsub r hr => ?_, hi.apart⟩
    · rcases List.mem_append.mp ht with ht | ht
      · exact hi.workers t ht
      · rwa [(hnew t ht).1]
    · refine List.pairwise_append.mpr ⟨hi.single, ?_, fun t ht u hu hne _ hwu => ?_⟩
      · refine List.pairwise_map.mpr ?_
        exact (List.pairwise_map.mp findPendingRateAlertMatches_nodup).imp fun hne _ _ _ => hne
      · rw [(hnew u hu).1] at hwu
        exact absurd (hended t ht hwu) hne
    · rcases hi.covered p hp w hw with ⟨t, ht, hrest⟩ | hrest
      · exact .inl ⟨t, List.mem_append_left _ ht, hrest⟩
      · exact .inr hrest
    · rcases List.mem_append.mp ht with ht | ht
      · exact hi.waiting t ht hpc p hp hpw hsub r hr
      · obtain ⟨htw, x, hx, r', hr', hyoung⟩ := hnew t ht
        rw [hsub, hr', Option.some.injEq] at hr
        subst hr
        rcases hi.covered p hp _ hpw with ⟨u, hu, huw, -, hus⟩ | ⟨d, hd, hds, hle⟩ | hgone
        · -- the task of the request would still be open
          rw [htw] at huw
          rw [hended u hu huw] at hus
          cases hus
        · exact le_trans (Int.add_le_add_right hle _) (hyoung d hd (hds.trans hsub))
        · rw [hsub, hx] at hgone
          cases hgone
  · cases h

theorem rateSend_inv (hi : DebounceInv W s) {i : Nat}
    (h : rateSendStep unsafeUrl s i = some s') : DebounceInv W s' := by
  unfold rateSendStep at h
  split at h
  · rename_i worker item htask
    cases h
    have hnext : rateSendNext unsafeUrl item ≠ .spawned := by
      unfold rateSendNext
      split
      · nofun
      · split <;> nofun
    have hmoved : DebounceInv W { s with
        rateTasks := s.rateTasks.set i ⟨worker, item, rateSendNext unsafeUrl item⟩ } :=
      hi.moved htask rfl rfl nofun hnext nofun
    split
    · rename_i hposting
      refine @DebounceInv.posted W _ hmoved ⟨worker, item, rateSendNext unsafeUrl item⟩ ?_ ?_ ?_
      · exact List.mem_iff_getElem?.mpr
          ⟨i, List.getElem?_set_self (List.getElem?_eq_some_iff.mp htask).1⟩
      · rw [hposting]
        rfl
      · exact hi.waiting ⟨worker, item, .spawned⟩ (List.mem_of_getElem? htask) rfl
    · exact hmoved
  · cases h

theorem rateRecord_inv (hi : DebounceInv W s) (hn : Numbered s) {i : Nat}
    (hg : RateRecorded s i) (h : rateRecordStep s i = some s') : DebounceInv W s' := by
  unfold RateRecorded at hg
  unfold rateRecordStep at h
  split at h
  · rename_i worker item delivered error htask
    simp only [htask] at hg
    split at h
    · rename_i dispatches hrecord
      cases h
      unfold recordRateAlertDispatch at hrecord
      split at hrecord <;> cases hrecord
      have hmore : DebounceInv W { s with dispatches := s.dispatches ++
          [⟨item.subscriptionId, s.alerts.now, asI32 item.matchCount, outcomeStatus delivered, error⟩] } :=
        hi.undisturbed hn ⟨rfl, le_rfl, fun _ _ => rfl, fun _ _ hx => hx,
          fun d hd => .inl (List.mem_append_left _ hd), [], (List.append_nil _).symm, List.forall_mem_nil _⟩
      refine hmore.moved htask rfl rfl nofun nofun fun _ => .inr ?_
      exact ⟨_, List.mem_append_right _ (List.mem_singleton_self _), rfl, le_rfl⟩
    · rename_i herr
      rw [herr] at hg
      cases hg
  · cases h

theorem rateStep_inv (hi : DebounceInv W s) (hn : Numbered s) {l : RateLabel}
    (hg : Recording W s (.rate l)) (h : rateStep unsafeUrl s l = some s') : DebounceInv W s' := by
  cases l with
  | find worker => exact rateFind_inv hi hg h
  | send i => exact rateSend_inv hi h
  | answer i error =>
    simp only [rateStep, rateAnswerStep] at h
    split at h
    · rename_i worker item htask
      cases h
      exact hi.moved htask rfl rfl (fun hs => by cases hs) (fun hs => by cases hs) fun _ => .inl rfl
    · cases h
  | record i => exact rateRecord_inv hi hn hg h
  | stop i =>
    simp only [rateStep, rateStopStep] at h
    split at h
    · rename_i t htask
      cases h
      refine hi.moved htask rfl rfl (fun _ => rfl) (fun hs => by cases hs) fun hs => ?_
      rw [hg t htask] at hs
      cases hs
    · cases h

end Steps

theorem debounceInv_inductive (unsafeUrl : String → Option String) (W : Nat) :
    ((dispatcher unsafeUrl).restrict (Recording W)).Inductive fun s =>
      Numbered s ∧ DebounceInv W s where
  init := by
    intro s hs
    refine ⟨(numbered_inductive unsafeUrl).init s hs, ?_⟩
    obtain ⟨htasks, hrate, hhistory, hids, hchecked⟩ := hs
    have hposts : s.posts = [] := by
      unfold Dispatcher.posts
      rw [hhistory]
      rfl
    constructor <;> simp [hrate, hposts]
  step := by
    rintro s l s' ⟨hn, hi⟩ ⟨hs, hg⟩
    refine ⟨(numbered_inductive unsafeUrl).step s l s' hn hs, ?_⟩
    cases l with
    | api call =>
      cases hs
      exact hi.undisturbed hn (apiStep_undisturbed call)
    | data db =>
      cases hs
      exact hi.undisturbed hn ⟨rfl, le_rfl, fun _ _ => rfl, fun _ _ hx => hx, fun _ hd => .inl hd, [],
        (List.append_nil _).symm, List.forall_mem_nil _⟩
    | event l => exact hi.undisturbed hn (eventStep_undisturbed hn hs)
    | rate l => exact rateStep_inv hi hn hg hs

/-- The requests to a subscription from `t` to `t + δ`. -/
def postsWithin (s : Dispatcher) (id t δ : Int) : List Post :=
  s.posts.filter fun p => p.subscriptionId = id ∧ t ≤ p.time ∧ p.time ≤ t + δ

/-- **Debounce with `W` workers.** In every interleaving of the steps of `W` workers with
the API's and the indexer's writes, if every dispatch is recorded: an interval shorter than
the `debounce_secs` of a `rate_threshold` subscription holds at most `W` requests to it. -/
theorem rate_debounced (unsafeUrl : String → Option String) (W : Nat) (s : Dispatcher)
    (h : ((dispatcher unsafeUrl).restrict (Recording W)).Reachable s) (id : Int) (r : RateColumns)
    (hr : s.rates id = some r) (t δ : Int) (hδ : δ < seconds r.debounceSecs) :
    (postsWithin s id t δ).length ≤ W := by
  obtain ⟨-, hi⟩ := (debounceInv_inductive unsafeUrl W).reachable s h
  have hsender : ∀ p ∈ postsWithin s id t δ, ∃ w < W, p.worker = some w := by
    intro p hp
    obtain ⟨hp, hc⟩ := List.mem_filter.mp hp
    obtain ⟨hid, -⟩ := of_decide_eq_true hc
    rcases hi.senders p hp with hw | ⟨-, hnone⟩
    · exact hw
    · rw [hid, hr] at hnone
      cases hnone
  -- two requests in the interval are not of one worker
  have hnodup : ((postsWithin s id t δ).map fun p => p.worker.getD 0).Nodup := by
    refine List.pairwise_map.mpr ?_
    refine (hi.apart.sublist List.filter_sublist).imp_of_mem fun {p q} hp hq hpq e => ?_
    obtain ⟨w, -, hpw⟩ := hsender p hp
    obtain ⟨w', -, hqw⟩ := hsender q hq
    obtain ⟨hpid, hpt, -⟩ := of_decide_eq_true (List.mem_filter.mp hp).2
    obtain ⟨hqid, -, hqt⟩ := of_decide_eq_true (List.mem_filter.mp hq).2
    rw [hpw, hqw, Option.getD_some, Option.getD_some] at e
    subst e
    have := hpq w hpw hqw (hpid.trans hqid.symm) r (hpid ▸ hr)
    omega
  have hbound : ((postsWithin s id t δ).map fun p => p.worker.getD 0) ⊆ List.range W := by
    intro w hw
    obtain ⟨p, hp, rfl⟩ := List.mem_map.mp hw
    obtain ⟨w, hlt, hpw⟩ := hsender p hp
    rw [hpw]
    exact List.mem_range.mpr hlt
  have := (hnodup.subperm hbound).length_le
  rwa [List.length_map, List.length_range] at this

/-- One failure, and one subscription that fires at the first one and then rests a minute. -/
def rateDispatcher : Dispatcher where
  alerts := { pendingAlerts with
    subscriptions := Table.empty.insertNew
      [⟨1, none, none, hookMatch.webhookUrl, hookMatch.signingSecret, true, .rateThreshold⟩] }
  rates id := if id = 1 then some ⟨1, 300, 60⟩ else none
  nextId := 2
  dispatches := []
  rateTasks := []
  history := []

/-- Both workers read the subscription before either records; a minute later one of them
sends again. -/
def doubledRun : Option Dispatcher :=
  LTS.exec (LTS.guarded (dispatcherStep fun _ => none) (Recording 2)) rateDispatcher
    [.rate (.find 0), .rate (.find 1), .rate (.send 0), .rate (.answer 0 none), .rate (.record 0),
     .event (.tick 20000000), .rate (.send 1), .rate (.answer 1 (some "http: timeout")),
     .rate (.record 1), .event (.tick 60000000), .rate (.find 0), .rate (.send 2)]

theorem doubled_debounced : (postsWithin (doubledRun.get (by decide +kernel)) 1 0 59999999).length ≤ 2 :=
  rate_debounced (fun _ => none) 2 _
    (LTS.reachable_of_guarded ⟨rfl, rfl, rfl, by decide +kernel, by decide +kernel⟩
      (Option.some_get _).symm) 1 ⟨1, 300, 60⟩ (by decide +kernel) 0 59999999 (by decide)

end Amarillo.L4
