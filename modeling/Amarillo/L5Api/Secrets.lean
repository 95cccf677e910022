import Amarillo.L5Api.Server

/-!
# What the dispatchers get from the API

A dispatcher checks a URL and a secret again before it posts, and signs with whatever its
query has read. In a system that started with no subscriptions everything it reads was
written by an accepted request.

* `checks_pass`: so the checks of the dispatchers never fail.
* `signed_with_shown`: and every request to a webhook is signed with a secret that one
  answer has shown, to somebody with the key, for this subscription.
-/
namespace Amarillo.L5
open Amarillo.Core Amarillo.L2 Amarillo.L4

/-- Every URL in the hands of the dispatchers meets `Q`, every secret meets `K` with the id
of its subscription. -/
structure Carried (Q : String → Prop) (K : Int → String → Prop) (d : Dispatcher) : Prop where
  rows : ∀ x ∈ d.alerts.subscriptions.rows, Q x.webhookUrl ∧ K x.subscriptionId x.signingSecret
  tasks : ∀ t ∈ d.alerts.tasks, Q t.item.webhookUrl ∧ K t.item.subscriptionId t.item.signingSecret
  rateTasks : ∀ t ∈ d.rateTasks, Q t.item.webhookUrl ∧ K t.item.subscriptionId t.item.signingSecret
  posts : ∀ p ∈ d.posts, K p.subscriptionId p.signingSecret

/-- The rows whose secret an answer shows. -/
def ServerLabel.shown : ServerLabel → List AlertSubscriptionCreated
  | .request _ _ _ (.created row) => [row]
  | .request _ _ _ (.rotated row) => [row]
  | _ => []

/-- What the random number generator has for a request that makes a secret. -/
def ServerLabel.drawn : ServerLabel → List Bytes
  | .request _ (some buf) (.createAlertSubscription _) _ => [buf.1]
  | .request _ (some buf) (.rotateAlertSubscriptionSecret _) _ => [buf.1]
  | _ => []

def shown (ls : List ServerLabel) : List AlertSubscriptionCreated := ls.flatMap ServerLabel.shown

def drawn (ls : List ServerLabel) : List Bytes := ls.flatMap ServerLabel.drawn

section Carrying
variable {U : UrlCrate} {adminApiKey : String} {Q : String → Prop} {K K' : Int → String → Prop}

theorem Carried.mono {d : Dispatcher} (h : Carried Q K d) (hK : ∀ id k, K id k → K' id k) :
    Carried Q K' d where
  rows x hx := ⟨(h.rows x hx).1, hK _ _ (h.rows x hx).2⟩
  tasks t ht := ⟨(h.tasks t ht).1, hK _ _ (h.tasks t ht).2⟩
  rateTasks t ht := ⟨(h.rateTasks t ht).1, hK _ _ (h.rateTasks t ht).2⟩
  posts p hp := hK _ _ (h.posts p hp)

/-- A candidate has the id, the URL and the secret of a row. -/
theorem pendingAlertMatches_row {db : Db} {subscriptions : Table AlertSubscription.subscriptionId}
    {ledger : Ledger} {now staleAfterSecs : Int} {m : AlertMatch}
    (h : m ∈ pendingAlertMatches db subscriptions ledger now staleAfterSecs) :
    ∃ x ∈ subscriptions.rows, m.subscriptionId = x.subscriptionId ∧ m.webhookUrl = x.webhookUrl ∧
      m.signingSecret = x.signingSecret := by
  obtain ⟨x, hx, hm⟩ := List.mem_flatMap.mp h
  obtain ⟨f, -, hf⟩ := List.mem_filterMap.mp hm
  split at hf <;> cases hf
  exact ⟨x, hx, rfl, rfl, rfl⟩

theorem findPendingRateAlertMatches_row {db : Db}
    {subscriptions : Table AlertSubscription.subscriptionId} {rates : Int → Option RateColumns}
    {dispatches : List RateDispatch} {now : Int} {limit : Nat} {m : RateAlertMatch}
    (h : m ∈ findPendingRateAlertMatches db subscriptions rates dispatches now limit) :
    ∃ x ∈ subscriptions.rows, m.subscriptionId = x.subscriptionId ∧ m.webhookUrl = x.webhookUrl ∧
      m.signingSecret = x.signingSecret := by
  have hsorted := List.mem_of_mem_take h
  rw [List.mem_insertionSort, List.mem_filterMap] at hsorted
  obtain ⟨x, hx, hm⟩ := hsorted
  unfold rateMatch at hm
  split at hm
  · cases hm
  · simp only at hm
    split at hm <;> cases hm
    exact ⟨x, hx, rfl, rfl, rfl⟩

/-- A task that a query has found carries what its row does. -/
theorem Carried.found {d : Dispatcher} (h : Carried Q K d) {id : Int} {url secret : String}
    (hrow : ∃ x ∈ d.alerts.subscriptions.rows, id = x.subscriptionId ∧ url = x.webhookUrl ∧
      secret = x.signingSecret) : Q url ∧ K id secret := by
  obtain ⟨x, hx, rfl, rfl, rfl⟩ := hrow
  exact h.rows x hx

theorem Carried.work {d d' : Dispatcher} (h : Carried Q K d) {l : DispatcherLabel}
    (hl : ∀ call, l ≠ .api call) (hstep : dispatcherStep (unsafeReason U) d l = some d') :
    Carried Q K d' := by
  cases l with
  | api call => exact absurd rfl (hl call)
  | data db =>
    cases hstep
    exact ⟨h.rows, h.tasks, h.rateTasks, h.posts⟩
  | event l =>
    obtain ⟨alerts, hevent, hchange, rfl⟩ := eventStep_some hstep
    have hsubs := (dispatchStep_frame hevent hchange).1
    refine ⟨hsubs ▸ h.rows, fun t ht => ?_, h.rateTasks, fun p hp => ?_⟩
    · rcases dispatchStep_items hevent ht with ⟨u, hu, hitem, -⟩ | hfound
      · rw [← hitem]
        exact h.tasks u hu
      · exact h.found (pendingAlertMatches_row hfound)
    · have hposts : p ∈ d.posts ∨ p ∈ eventPosts (unsafeReason U) d.alerts l := by
        rw [Dispatcher.posts, List.filterMap_append, List.mem_append, List.filterMap_map] at hp
        refine hp.imp id fun hp => ?_
        obtain ⟨q, hq, hqp⟩ := List.mem_filterMap.mp hp
        cases hqp
        exact hq
      rcases hposts with hp | hp
      · exact h.posts p hp
      · obtain ⟨-, -, t, ht, -, hid, hsecret⟩ := mem_eventPosts hp
        rw [hid, hsecret]
        exact (h.tasks t ht).2
  | rate l =>
    have hrate : rateStep (unsafeReason U) d l = some d' := hstep
    obtain ⟨halerts, -, -, hhistory⟩ := rateStep_frame hrate
    refine ⟨by rw [halerts]; exact h.rows, by rw [halerts]; exact h.tasks, fun t ht => ?_,
      fun p hp => ?_⟩
    · rcases rateStep_items hrate ht with ⟨u, hu, -, hitem, -⟩ | hfound
      · rw [← hitem]
        exact h.rateTasks u hu
      · exact h.found (findPendingRateAlertMatches_row hfound)
    · rcases hhistory with hsame | ⟨t, ht, -, hpost⟩
      · rw [Dispatcher.posts, hsame] at hp
        exact h.posts p hp
      · rw [Dispatcher.posts, hpost, List.filterMap_append, List.mem_append] at hp
        rcases hp with hp | hp
        · exact h.posts p hp
        · obtain rfl := List.mem_singleton.mp hp
          exact (h.rateTasks t ht).2

theorem Carried.inserted {s : Server} (h : Carried Q K s.dispatcher) {x : NewSubscription}
    (hrate : ∀ r ∈ x.rate, r.accepted) (hurl : Q x.webhookUrl)
    (hsecret : K s.dispatcher.nextId x.signingSecret) : Carried Q K (s.inserted x).dispatcher := by
  rw [inserted_dispatcher hrate]
  refine ⟨fun y hy => ?_, h.tasks, h.rateTasks, h.posts⟩
  rcases Table.mem_insertNew hy with hy | hy
  · exact h.rows y hy
  · obtain rfl := List.mem_singleton.mp hy
    exact ⟨hurl, hsecret⟩

/-- Rows change, and the events that come in are no requests. -/
theorem Carried.updated {s : Server} (h : Carried Q K s.dispatcher) {call : ApiCall}
    {f : AlertSubscription → AlertSubscription}
    (hrows : (apiStep s.dispatcher call).alerts.subscriptions.rows = s.subscriptions.rows.map f)
    (htasks : (apiStep s.dispatcher call).alerts.tasks = s.dispatcher.alerts.tasks)
    (hrate : (apiStep s.dispatcher call).rateTasks = s.dispatcher.rateTasks)
    (hposts : (apiStep s.dispatcher call).posts = s.dispatcher.posts)
    (hf : ∀ x ∈ s.subscriptions.rows, Q (f x).webhookUrl ∧ K (f x).subscriptionId (f x).signingSecret) :
    Carried Q K (s.updated call).dispatcher where
  rows y hy := by
    rw [show (s.updated call).dispatcher.alerts.subscriptions.rows = _ from hrows] at hy
    obtain ⟨x, hx, rfl⟩ := List.mem_map.mp hy
    exact hf x hx
  tasks t ht := h.tasks t (htasks ▸ ht)
  rateTasks t ht := h.rateTasks t (hrate ▸ ht)
  posts p hp := h.posts p (hposts ▸ hp)

/-- A step keeps what is carried, if a new subscription comes with a good URL and what the
answer shows is good. -/
theorem serverStep_carried {s s' : Server} {l : ServerLabel} (h : Carried Q K s.dispatcher)
    (hstep : serverStep U adminApiKey s l = some s') (hK : ∀ id k, K id k → K' id k)
    (hurl : ∀ url, webhookUrlIsSafe U url = .ok () → Q url)
    (hshown : ∀ row ∈ l.shown, K' row.view.subscriptionId row.signingSecret) :
    Carried Q K' s'.dispatcher := by
  have h' := h.mono hK
  cases l with
  | work l =>
    obtain ⟨hl, d, hd, rfl⟩ := serverStep_work hstep
    exact h'.work hl hd
  | request authorization rng req resp =>
    cases serverStep_request hstep with
    | unauthorized hadmin hauth => exact h'
    | refused hauth hserve => exact h'
    | listed => exact h'
    | labelled hauth hcreate => exact h'
    | unlabelled hauth hdelete => exact h'
    | created hauth hchecked =>
      exact h'.inserted hchecked.rate (hurl _ hchecked.safe) (hshown _ List.mem_cons_self)
    | @deactivated id x hauth hx hactive =>
      refine h'.updated (f := deactivate id) rfl rfl rfl ?_ fun y hy => ?_
      · simp only [apiStep, Dispatcher.posts]
        split
        · rw [List.filterMap_append]
          exact List.append_nil _
        · rfl
      · unfold deactivate
        split
        · exact h'.rows y hy
        · exact h'.rows y hy
    | @rotated id x buf hauth hrng hx hactive =>
      refine h'.updated (f := rotateSecret id (bytesToHex buf.1)) rfl rfl rfl ?_ fun y hy => ?_
      · simp only [apiStep, Dispatcher.posts]
        split
        · rw [List.filterMap_append]
          exact List.append_nil _
        · rfl
      · unfold rotateSecret
        split
        · rename_i hid
          have hnew : K' x.subscriptionId (bytesToHex buf.1) := hshown _ List.mem_cons_self
          rw [show x.subscriptionId = y.subscriptionId from (Table.get_key hx).trans hid.1.symm] at hnew
          exact ⟨(h'.rows y hy).1, hnew⟩
        · exact h'.rows y hy

/-- What the answers of a run show is what it carries at its end. -/
theorem run_carried {s s' : Server} {ls : List ServerLabel} (hrun : (server U adminApiKey).Run s ls s')
    (hurl : ∀ url, webhookUrlIsSafe U url = .ok () → Q url) (h : Carried Q K s.dispatcher) :
    Carried Q (fun id k => K id k ∨ ∃ row ∈ shown ls, row.view.subscriptionId = id ∧ row.signingSecret = k)
      s'.dispatcher := by
  induction hrun generalizing K with
  | nil s => exact h.mono fun id k hk => .inl hk
  | @cons s m s' l ls hs _ ih =>
    have hm : Carried Q (fun id k => K id k ∨ ∃ row ∈ l.shown, row.view.subscriptionId = id ∧
        row.signingSecret = k) m.dispatcher :=
      serverStep_carried h hs (fun id k hk => .inl hk) hurl fun row hrow => .inr ⟨row, hrow, rfl, rfl⟩
    refine (ih hm).mono ?_
    rintro id k ((hk | ⟨row, hrow, hid, hsecret⟩) | ⟨row, hrow, hid, hsecret⟩)
    · exact .inl hk
    · exact .inr ⟨row, List.mem_append_left _ hrow, hid, hsecret⟩
    · exact .inr ⟨row, List.mem_append_right _ hrow, hid, hsecret⟩

end Carrying

/-- There are no subscriptions yet, and no dispatcher is at work. -/
structure Unused (d : Dispatcher) : Prop extends DispatcherInit d where
  rows : d.alerts.subscriptions.rows = []

theorem Unused.carried {d : Dispatcher} (h : Unused d) (Q : String → Prop) (K : Int → String → Prop) :
    Carried Q K d where
  rows x hx := absurd (h.rows ▸ hx) List.not_mem_nil
  tasks t ht := absurd (h.tasks ▸ ht) List.not_mem_nil
  rateTasks t ht := absurd (h.rateTasks ▸ ht) List.not_mem_nil
  posts p hp := by
    rw [Dispatcher.posts, h.history] at hp
    cases hp

/-! ## Secrets are shown once -/

section Shown
variable {U : UrlCrate} {adminApiKey : String}

theorem step_shown {s s' : Server} {l : ServerLabel} (h : serverStep U adminApiKey s l = some s') :
    (l.shown.map AlertSubscriptionCreated.signingSecret).Sublist (l.drawn.map bytesToHex) := by
  cases l with
  | work l => exact List.nil_sublist _
  | request authorization rng req resp =>
    cases serverStep_request h with
    | unauthorized hadmin hauth => exact List.nil_sublist _
    | refused hauth hserve => exact List.nil_sublist _
    | listed => exact List.nil_sublist _
    | deactivated hauth hx hactive => exact List.nil_sublist _
    | labelled hauth hcreate => exact List.nil_sublist _
    | unlabelled hauth hdelete => exact List.nil_sublist _
    | created hauth hchecked =>
      obtain ⟨buf, rfl, hsecret⟩ := hchecked.secret
      simp only [ServerLabel.shown, ServerLabel.drawn, List.map_cons, List.map_nil,
        Server.createdRow, hsecret]
      exact List.Sublist.refl _
    | rotated hauth hrng hx hactive =>
      subst hrng
      exact List.Sublist.refl _

theorem run_shown {s s' : Server} {ls : List ServerLabel} (hrun : (server U adminApiKey).Run s ls s') :
    ((shown ls).map AlertSubscriptionCreated.signingSecret).Sublist ((drawn ls).map bytesToHex) := by
  induction hrun with
  | nil s => exact List.Sublist.refl _
  | cons hs _ ih =>
    simp only [shown, drawn, List.flatMap_cons, List.map_append] at ih ⊢
    exact (step_shown hs).append ih

theorem mem_shown_key {s s' : Server} {ls : List ServerLabel}
    (hrun : (server U adminApiKey).Run s ls s') {l : ServerLabel} (hl : l ∈ ls) (hshown : l.shown ≠ []) :
    outsider adminApiKey l = false := by
  induction hrun with
  | nil s => cases hl
  | @cons s m s' k ls hs _ ih =>
    rcases List.mem_cons.mp hl with rfl | hl
    · cases l with
      | work l => rfl
      | request authorization rng req resp =>
        refine decide_eq_false fun hout => hshown ?_
        cases serverStep_request hs with
        | created hauth hchecked => exact absurd hauth (closed_of_outsider hout)
        | rotated hauth hrng hx hactive => exact absurd hauth (closed_of_outsider hout)
        | _ => rfl
    · exact ih hl

/-- **Secrets.** In every run of a system that started without subscriptions: a request to a
webhook is signed with a secret that the answer to a creation or a rotation of this very
subscription has shown. Such an answer goes to somebody with the key, and if the
generator never repeats itself, no two answers show the same secret. -/
theorem signed_with_shown (U : UrlCrate) (adminApiKey : String) {s s' : Server} {ls : List ServerLabel}
    (hunused : Unused s.dispatcher) (hrun : (server U adminApiKey).Run s ls s') :
    (∀ p ∈ s'.dispatcher.posts, ∃ row ∈ shown ls, row.view.subscriptionId = p.subscriptionId ∧
      row.signingSecret = p.signingSecret) ∧
    (∀ l ∈ ls, l.shown ≠ [] → outsider adminApiKey l = false) ∧
    ((drawn ls).Nodup → ((shown ls).map AlertSubscriptionCreated.signingSecret).Nodup) := by
  refine ⟨fun p hp => ?_, fun l hl hshown => mem_shown_key hrun hl hshown, fun hdrawn => ?_⟩
  · have hend := run_carried hrun (Q := fun _ => True) (fun _ _ => trivial)
      (hunused.carried (fun _ => True) fun _ _ => False)
    exact (hend.posts p hp).resolve_left id
  · exact (run_shown hrun).nodup (hdrawn.map fun _ _ => bytesToHex_inj)

end Shown
/-! ## The checks of the dispatchers -/

/-- What a route has checked of a row. -/
structure CheckedRow (rates : Int → Option RateColumns) (x : AlertSubscription) : Prop where
  length : (utf8 x.webhookUrl).length ≤ MAX_WEBHOOK_URL_LEN
  toAddr : ∀ a ∈ x.toAddr, isEvmAddress a = true ∧ lower a = a
  perEvent : x.subType = .perEvent → rates x.subscriptionId = none
  rate : x.subType = .rateThreshold → ∃ r, rates x.subscriptionId = some r ∧ r.accepted

section Checks
variable {U : UrlCrate} {adminApiKey : String}

theorem NewSubscription.checkedRow {rng : Rng} {body : CreateBody} {x : NewSubscription} {s : Server}
    (h : Accepted U rng body x) : CheckedRow (s.inserted x).dispatcher.rates
      ⟨s.dispatcher.nextId, x.errorCategory, x.toAddr, x.webhookUrl, x.signingSecret, true, x.subType⟩ := by
  have hrates : (s.inserted x).dispatcher.rates s.dispatcher.nextId = x.rate := by
    rw [inserted_dispatcher h.rate]
    exact if_pos rfl
  refine ⟨h.length, h.toAddr, fun hsub => ?_, fun hsub => ?_⟩
  · rw [hrates]
    simp only [NewSubscription.subType] at hsub
    split at hsub
    · cases hsub
    · rename_i hnone
      simpa using hnone
  · rw [hrates]
    simp only [NewSubscription.subType] at hsub
    split at hsub
    · rename_i hsome
      obtain ⟨r, hr⟩ := Option.isSome_iff_exists.mp hsome
      exact ⟨r, hr, h.rate r hr⟩
    · cases hsub

theorem serverStep_checked {s s' : Server} {l : ServerLabel} (hn : Numbered s.dispatcher)
    (h : ∀ x ∈ s.subscriptions.rows, CheckedRow s.dispatcher.rates x)
    (hstep : serverStep U adminApiKey s l = some s') :
    ∀ x ∈ s'.subscriptions.rows, CheckedRow s'.dispatcher.rates x := by
  intro y hy
  cases l with
  | work l =>
    obtain ⟨hl, d, hd, rfl⟩ := serverStep_work hstep
    obtain ⟨hsubs, -, hrates⟩ := work_frame hl hd
    have hrow : y ∈ d.alerts.subscriptions.rows := hy
    rw [hsubs] at hrow
    show CheckedRow d.rates y
    rw [hrates]
    exact h y hrow
  | request authorization rng req resp =>
    cases serverStep_request hstep with
    | unauthorized hadmin hauth => exact h y hy
    | refused hauth hserve => exact h y hy
    | listed => exact h y hy
    | labelled hauth hcreate => exact h y hy
    | unlabelled hauth hdelete => exact h y hy
    | @created body x hauth hchecked =>
      rw [Server.subscriptions, inserted_dispatcher hchecked.rate] at hy
      rcases Table.mem_insertNew hy with hy | hy
      · have hold : (s.inserted x).dispatcher.rates y.subscriptionId =
            s.dispatcher.rates y.subscriptionId := by
          rw [inserted_dispatcher hchecked.rate]
          exact if_neg (hn.rows y hy).ne
        obtain ⟨hlength, htoAddr, hper, hrate⟩ := h y hy
        exact ⟨hlength, htoAddr, by rw [hold]; exact hper, by rw [hold]; exact hrate⟩
      · obtain rfl := List.mem_singleton.mp hy
        exact NewSubscription.checkedRow hchecked
    | @deactivated id x hauth hx hactive =>
      obtain ⟨z, hz, rfl⟩ := List.mem_map.mp hy
      unfold deactivate
      split
      · obtain ⟨hlength, htoAddr, hper, hrate⟩ := h z hz
        exact ⟨hlength, htoAddr, hper, hrate⟩
      · exact h z hz
    | @rotated id x buf hauth hrng hx hactive =>
      obtain ⟨z, hz, rfl⟩ := List.mem_map.mp hy
      unfold rotateSecret
      split
      · obtain ⟨hlength, htoAddr, hper, hrate⟩ := h z hz
        exact ⟨hlength, htoAddr, hper, hrate⟩
      · exact h z hz

theorem hexSecret_shown {buf : { buf : Bytes // buf.length = SECRET_BYTES }} :
    HexSecret (bytesToHex buf.1) := by
  have hdigit : ∀ c ∈ "0123456789abcdef".toList, isHexDigit c = true := by
    intro c hc
    fin_cases hc <;> rfl
  exact ⟨by rw [bytesToHex_length, buf.2]; rfl, fun c hc => hdigit c (mem_bytesToHex hc)⟩

theorem shown_hex {s s' : Server} {ls : List ServerLabel} (hrun : (server U adminApiKey).Run s ls s') :
    ∀ row ∈ shown ls, HexSecret row.signingSecret := by
  induction hrun with
  | nil s => exact fun row hrow => by cases hrow
  | @cons s m s' l ls hs _ ih =>
    intro row hrow
    rcases List.mem_append.mp hrow with hrow | hrow
    · cases l with
      | work l => cases hrow
      | request authorization rng req resp =>
        cases serverStep_request hs with
        | created hauth hchecked =>
          obtain rfl := List.mem_singleton.mp hrow
          obtain ⟨buf, -, hsecret⟩ := hchecked.secret
          rw [Server.createdRow, hsecret]
          exact hexSecret_shown
        | rotated hauth hrng hx hactive =>
          obtain rfl := List.mem_singleton.mp hrow
          exact hexSecret_shown
        | _ => cases hrow
    · exact ih row hrow

/-- **The second check never fails.** In every run of a system that started without
subscriptions: each row is one that the routes let in, with a safe URL, a lowercase
address or none, a secret of 64 hexadecimal digits and the rate columns of its kind; and
no task, of either kind, that has not posted yet will refuse to: not for its URL and
not for its secret. -/
theorem checks_pass (U : UrlCrate) (adminApiKey : String) {s s' : Server} {ls : List ServerLabel}
    (hunused : Unused s.dispatcher) (hrun : (server U adminApiKey).Run s ls s') :
    (∀ x ∈ s'.subscriptions.rows, CheckedRow s'.dispatcher.rates x ∧
      webhookUrlIsSafe U x.webhookUrl = .ok () ∧ HexSecret x.signingSecret) ∧
    (∀ t ∈ s'.dispatcher.alerts.tasks, sendNext (unsafeReason U) t.item = .posting) ∧
    ∀ t ∈ s'.dispatcher.rateTasks, rateSendNext (unsafeReason U) t.item = .posting := by
  have hcarried : Carried (fun url => webhookUrlIsSafe U url = .ok ()) (fun _ k => HexSecret k)
      s'.dispatcher := by
    have hend := run_carried hrun (Q := fun url => webhookUrlIsSafe U url = .ok ()) (fun _ h => h)
      (hunused.carried _ fun _ _ => False)
    refine hend.mono ?_
    rintro id k (hk | ⟨row, hrow, -, rfl⟩)
    · exact hk.elim
    · exact shown_hex hrun row hrow
  have hchecked : (∀ x ∈ s'.subscriptions.rows, CheckedRow s'.dispatcher.rates x) ∧
      (server U adminApiKey).Reachable s' := by
    refine hrun.keeps (I := fun s => (∀ x ∈ s.subscriptions.rows, CheckedRow s.dispatcher.rates x) ∧
      (server U adminApiKey).Reachable s) (fun s l s' hi hs => ?_) ⟨fun x hx => ?_, ?_⟩
    · exact ⟨serverStep_checked (server_numbered hi.2) hi.1 hs, hi.2.run (.cons hs (.nil s'))⟩
    · exact absurd (hunused.rows ▸ hx) List.not_mem_nil
    · exact ⟨s, [], hunused.toDispatcherInit, .nil s⟩
  refine ⟨fun x hx => ⟨hchecked.1 x hx, hcarried.rows x hx⟩, fun t ht => ?_, fun t ht => ?_⟩
  · obtain ⟨hsafe, hsecret⟩ := hcarried.tasks t ht
    obtain ⟨key, hkey, -⟩ := hexSecret_key hsecret
    simp only [sendNext, unsafeReason, hsafe, hkey]
  · obtain ⟨hsafe, hsecret⟩ := hcarried.rateTasks t ht
    obtain ⟨key, hkey, -⟩ := hexSecret_key hsecret
    simp only [rateSendNext, unsafeReason, hsafe, hkey]

end Checks
/-! ## A subscription at work -/

def hookRow : AlertSubscriptionCreated :=
  ⟨⟨1, none, none, hookBody.webhookUrl, true, 0, .perEvent, none⟩, zeroSecret⟩

/-- A subscription is made, a transaction fails, and a task posts. -/
def workLabels : List ServerLabel :=
  [.request adminHeader zeroRng (.createAlertSubscription hookBody) (.created hookRow),
   .work (.data pendingAlerts.db),
   .work (.event (.find ⟨1, "0xaa", hookBody.webhookUrl, zeroSecret⟩)),
   .work (.event (.claim 0)), .work (.event (.send 0))]

def workRun : Option Server := LTS.exec (serverStep twoUrls "k3y") emptyServer workLabels

theorem workRun_run : (server twoUrls "k3y").Run emptyServer workLabels
    (workRun.get (by decide +kernel)) :=
  LTS.run_of_exec (Option.some_get _).symm

theorem emptyServer_unused : Unused emptyServer.dispatcher where
  tasks := rfl
  rateTasks := rfl
  history := rfl
  ids _ hx := absurd hx List.not_mem_nil
  checked _ hx := absurd hx List.not_mem_nil
  rows := rfl

theorem signed_with_shown_hook :
    (∀ p ∈ (workRun.get (by decide +kernel)).dispatcher.posts, ∃ row ∈ shown workLabels,
      row.view.subscriptionId = p.subscriptionId ∧ row.signingSecret = p.signingSecret) ∧
    (∀ l ∈ workLabels, l.shown ≠ [] → outsider "k3y" l = false) ∧
    ((drawn workLabels).Nodup → ((shown workLabels).map AlertSubscriptionCreated.signingSecret).Nodup) :=
  signed_with_shown twoUrls "k3y" emptyServer_unused workRun_run

theorem checks_pass_hook :
    (∀ x ∈ (workRun.get (by decide +kernel)).subscriptions.rows,
      CheckedRow (workRun.get (by decide +kernel)).dispatcher.rates x ∧
        webhookUrlIsSafe twoUrls x.webhookUrl = .ok () ∧ HexSecret x.signingSecret) ∧
    (∀ t ∈ (workRun.get (by decide +kernel)).dispatcher.alerts.tasks,
      sendNext (unsafeReason twoUrls) t.item = .posting) ∧
    ∀ t ∈ (workRun.get (by decide +kernel)).dispatcher.rateTasks,
      rateSendNext (unsafeReason twoUrls) t.item = .posting :=
  checks_pass twoUrls "k3y" emptyServer_unused workRun_run

/-- The request goes out with the secret of the answer. -/
example : (workRun.get (by decide +kernel)).dispatcher.posts = [⟨none, 1, zeroSecret, 0⟩] := by
  decide +kernel

end Amarillo.L5
