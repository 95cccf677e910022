import Amarillo.L4Alerts.Dispatcher

/-!
# Rotated secrets and deactivated subscriptions

A candidate carries the secret its query read, and no later step reads the
subscription again. So a rotation or a deactivation reaches the candidates read
after it, and those alone.

* `in_force_of_quiet`: if a rotation finds no unsent candidate with another
  secret, and a deactivation none at all, every later request carries the newest
  secret, and none goes to a deactivated subscription.
* `stale_candidate_sent`: a candidate read before is sent after, with the old
  secret.
-/
namespace Amarillo.L4
open Amarillo.Core Amarillo.L2

/-- The secret of the newest rotation. -/
def lastSecret (id : Int) (history : List Event) : Option String :=
  history.foldl (fun newest e =>
    match e with
    | .rotated id' newSecret => if id' = id then some newSecret else newest
    | _ => newest) none

/-- After `history`, `secret` is the one to sign with, and a request may begin. -/
def Current (history : List Event) (id : Int) (secret : String) : Prop :=
  (∀ newest ∈ lastSecret id history, secret = newest) ∧ Event.deactivated id ∉ history

/-- Every request is signed with the newest secret, and begins before its subscription is
deactivated. -/
def InForce (history : List Event) : Prop :=
  ∀ before p after, history = before ++ Event.post p :: after →
    Current before p.subscriptionId p.signingSecret

/-- The candidates of the subscription that are not sent yet have a property. -/
def UnsentAll (s : Dispatcher) (id : Int) (P : String → Prop) : Prop :=
  (∀ t ∈ s.alerts.tasks, t.item.subscriptionId = id → t.pc.unsent = true →
    P t.item.signingSecret) ∧
  ∀ t ∈ s.rateTasks, t.item.subscriptionId = id → t.pc = .spawned → P t.item.signingSecret

/-- No dispatcher holds an unsent candidate that the call outdates. A call on an inactive
subscription changes nothing. -/
def Quiet (s : Dispatcher) : DispatcherLabel → Prop
  | .api (.rotateAlertSubscriptionSecret id newSecret) =>
    (∃ x ∈ s.alerts.subscriptions.get id, x.active = true) →
      UnsentAll s id fun secret => secret = newSecret
  | .api (.deactivateAlertSubscription id) =>
    (∃ x ∈ s.alerts.subscriptions.get id, x.active = true) → UnsentAll s id fun _ => False
  | _ => True

instance (s : Dispatcher) (id : Int) (P : String → Prop) [DecidablePred P] :
    Decidable (UnsentAll s id P) := inferInstanceAs (Decidable (_ ∧ _))

instance (s : Dispatcher) : (l : DispatcherLabel) → Decidable (Quiet s l)
  | .api (.rotateAlertSubscriptionSecret id newSecret) => inferInstanceAs (Decidable
      ((∃ x ∈ s.alerts.subscriptions.get id, x.active = true) →
        UnsentAll s id fun secret => secret = newSecret))
  | .api (.deactivateAlertSubscription id) => inferInstanceAs (Decidable
      ((∃ x ∈ s.alerts.subscriptions.get id, x.active = true) → UnsentAll s id fun _ => False))
  | .api (.insertAlertSubscription _ _ _ _) => instDecidableTrue
  | .api (.insertAlertSubscriptionRate _ _ _ _ _) => instDecidableTrue
  | .api (.deleteAlertSubscription _) => instDecidableTrue
  | .data _ => instDecidableTrue
  | .event _ => instDecidableTrue
  | .rate _ => instDecidableTrue

/-! ## The history -/

section History
variable {history : List Event} {id : Int} {secret : String}

theorem lastSecret_append (e : Event) : lastSecret id (history ++ [e]) =
    match e with
    | .rotated id' newSecret => if id' = id then some newSecret else lastSecret id history
    | _ => lastSecret id history := by
  rw [lastSecret, List.foldl_append]
  rfl

theorem inForce_append {e : Event} (h : InForce history)
    (he : ∀ p, e = .post p → Current history p.subscriptionId p.signingSecret) :
    InForce (history ++ [e]) := by
  intro before p after heq
  rcases List.eq_nil_or_concat after with rfl | ⟨after', e', rfl⟩
  · obtain ⟨rfl, hp⟩ := List.append_inj' heq rfl
    exact he p (List.singleton_inj.mp hp)
  · rw [List.concat_eq_append, ← List.cons_append, ← List.append_assoc] at heq
    exact h before p after' (List.append_inj' heq rfl).1

theorem Current.post (p : Post) (h : Current history id secret) :
    Current (history ++ [.post p]) id secret := by
  refine ⟨by rw [lastSecret_append]; exact h.1, fun hm => ?_⟩
  rcases List.mem_append.mp hm with hm | hm
  · exact h.2 hm
  · cases List.mem_singleton.mp hm

theorem Current.rotated {id' : Int} {newSecret : String} (h : Current history id secret)
    (hsecret : id' = id → secret = newSecret) :
    Current (history ++ [.rotated id' newSecret]) id secret := by
  refine ⟨fun newest hnewest => ?_, fun hm => ?_⟩
  · rw [lastSecret_append] at hnewest
    simp only at hnewest
    split at hnewest
    · rename_i hid
      cases hnewest
      exact hsecret hid
    · exact h.1 newest hnewest
  · rcases List.mem_append.mp hm with hm | hm
    · exact h.2 hm
    · cases List.mem_singleton.mp hm

theorem Current.deactivated {id' : Int} (h : Current history id secret) (hid : id' ≠ id) :
    Current (history ++ [.deactivated id']) id secret := by
  refine ⟨by rw [lastSecret_append]; exact h.1, fun hm => ?_⟩
  rcases List.mem_append.mp hm with hm | hm
  · exact h.2 hm
  · cases List.mem_singleton.mp hm
    exact hid rfl

/-- An id without events has no secret yet. -/
theorem current_of_unused (h : ∀ e ∈ history, e.subscriptionId ≠ id) :
    Current history id secret := by
  refine ⟨fun newest hnewest => ?_, fun hm => h _ hm rfl⟩
  induction history using List.reverseRecOn with
  | nil => cases hnewest
  | append_singleton es e ih =>
    rw [lastSecret_append] at hnewest
    have ih := ih fun e' he' => h e' (List.mem_append_left _ he')
    have he := h e (List.mem_append_right _ (List.mem_singleton_self _))
    cases e with
    | post p => exact ih hnewest
    | deactivated id' => exact ih hnewest
    | rotated id' newSecret =>
      simp only at hnewest
      rw [if_neg (show id' ≠ id from he)] at hnewest
      exact ih hnewest

end History

/-! ## The invariant -/

/-- A candidate that may be sent: it is up to date, and its subscription is not inactive. -/
structure Sendable (s : Dispatcher) (id : Int) (secret : String) : Prop where
  current : Current s.history id secret
  active : ∀ x ∈ s.alerts.subscriptions.get id, x.active = true

structure ForceInv (s : Dispatcher) : Prop where
  inForce : InForce s.history
  rows : ∀ x ∈ s.alerts.subscriptions.rows,
    (∀ newest ∈ lastSecret x.subscriptionId s.history, x.signingSecret = newest) ∧
    (x.active = true → Event.deactivated x.subscriptionId ∉ s.history)
  tasks : ∀ t ∈ s.alerts.tasks, t.pc.unsent = true →
    Sendable s t.item.subscriptionId t.item.signingSecret
  rateTasks : ∀ t ∈ s.rateTasks, t.pc = .spawned →
    Sendable s t.item.subscriptionId t.item.signingSecret

section Steps
variable {unsafeUrl : String → Option String} {s s' : Dispatcher}

/-- A query reads what is in force. -/
theorem ForceInv.found (hi : ForceInv s) {id : Int} {x : AlertSubscription}
    (hx : s.alerts.subscriptions.get id = some x) (hactive : x.active = true) :
    Sendable s id x.signingSecret := by
  have hid := Table.get_key hx
  obtain ⟨hsecret, hdeact⟩ := hi.rows x (Table.get_mem hx)
  rw [hid] at hsecret hdeact
  refine ⟨⟨hsecret, hdeact hactive⟩, fun y hy => ?_⟩
  rw [Option.mem_def.mp hy, Option.some.injEq] at hx
  rw [hx, hactive]

/-- A request of a candidate that may be sent. -/
theorem ForceInv.posted (hi : ForceInv s) {p : Post}
    (hp : Current s.history p.subscriptionId p.signingSecret) :
    ForceInv { s with history := s.history ++ [.post p] } := by
  have hrow : ∀ (id : Int) (secret : String), Sendable s id secret →
      Sendable { s with history := s.history ++ [.post p] } id secret := fun id secret h =>
    ⟨h.current.post p, h.active⟩
  refine ⟨inForce_append hi.inForce fun q hq => by cases hq; exact hp, fun x hx => ?_,
    fun t ht hpc => hrow _ _ (hi.tasks t ht hpc), fun t ht hpc => hrow _ _ (hi.rateTasks t ht hpc)⟩
  obtain ⟨hsecret, hdeact⟩ := hi.rows x hx
  refine ⟨by rw [lastSecret_append]; exact hsecret, fun hactive hm => ?_⟩
  rcases List.mem_append.mp hm with hm | hm
  · exact hdeact hactive hm
  · cases List.mem_singleton.mp hm

theorem eventStep_force (hi : ForceInv s) {l : DispatchLabel}
    (h : eventStep unsafeUrl s l = some s') : ForceInv s' := by
  obtain ⟨alerts, hstep, hl, rfl⟩ := eventStep_some h
  obtain ⟨hsubs, -⟩ := dispatchStep_frame hstep hl
  have hquiet : ForceInv { s with alerts := alerts } := by
    refine ⟨hi.inForce, hsubs ▸ hi.rows, fun t ht hpc => ?_, fun t ht hpc => ?_⟩
    · have hsendable : Sendable s t.item.subscriptionId t.item.signingSecret := by
        rcases dispatchStep_items hstep ht with ⟨u, hu, hitem, hunsent⟩ | hfound
        · rw [← hitem]
          exact hi.tasks u hu (hunsent hpc)
        · obtain ⟨x, hx, hsecret, hactive, -⟩ := mem_pendingAlertMatches hfound
          rw [hsecret]
          exact hi.found hx hactive
      exact ⟨hsendable.current, hsubs ▸ hsendable.active⟩
    · exact ⟨(hi.rateTasks t ht hpc).current, hsubs ▸ (hi.rateTasks t ht hpc).active⟩
  -- a step begins one request at most
  have hone : eventPosts unsafeUrl s.alerts l = [] ∨ ∃ p, eventPosts unsafeUrl s.alerts l = [p] := by
    unfold eventPosts
    split
    · split
      · split
        · exact .inr ⟨_, rfl⟩
        · exact .inl rfl
      · exact .inl rfl
    · exact .inl rfl
  rcases hone with hnone | ⟨p, hp⟩
  · rw [hnone]
    simpa only [List.map_nil, List.append_nil] using hquiet
  · rw [hp]
    obtain ⟨-, -, t, ht, hpc, hid, hsecret⟩ :=
      mem_eventPosts (hp ▸ List.mem_singleton_self p : p ∈ eventPosts unsafeUrl s.alerts l)
    refine hquiet.posted ?_
    rw [hid, hsecret]
    exact (hi.tasks t ht hpc).current

theorem rateStep_force (hi : ForceInv s) {l : RateLabel}
    (h : rateStep unsafeUrl s l = some s') : ForceInv s' := by
  obtain ⟨halerts, -, -, hhistory⟩ := rateStep_frame h
  have hquiet : ForceInv { s' with history := s.history } := by
    refine ⟨hi.inForce, by rw [halerts]; exact hi.rows, fun t ht hpc => ?_, fun t ht hpc => ?_⟩
    · rw [halerts] at ht
      exact ⟨(hi.tasks t ht hpc).current, by rw [halerts]; exact (hi.tasks t ht hpc).active⟩
    · have hsendable : Sendable s t.item.subscriptionId t.item.signingSecret := by
        rcases rateStep_items h ht with ⟨u, hu, -, hitem, hspawned⟩ | hfound
        · rw [← hitem]
          exact hi.rateTasks u hu (hspawned hpc)
        · obtain ⟨x, hx, hsecret, hactive, -⟩ := mem_findPendingRateAlertMatches hfound
          rw [hsecret]
          exact hi.found hx hactive
      exact ⟨hsendable.current, by rw [halerts]; exact hsendable.active⟩
  rcases hhistory with hsame | ⟨t, ht, hpc, hpost⟩
  · rw [← hsame] at hquiet
    exact hquiet
  · have := hquiet.posted (p := ⟨some t.worker, t.item.subscriptionId, t.item.signingSecret,
      s.alerts.now⟩) (hi.rateTasks t ht hpc).current
    rw [← hpost] at this
    exact this

/-- Candidates whose subscription is not touched. -/
theorem Sendable.frame {id : Int} {secret : String} (h : Sendable s id secret)
    (hcurrent : Current s'.history id secret)
    (hget : ∀ y ∈ s'.alerts.subscriptions.get id, ∃ x ∈ s.alerts.subscriptions.get id,
      y.active = x.active) : Sendable s' id secret := by
  refine ⟨hcurrent, fun y hy => ?_⟩
  obtain ⟨x, hx, hxy⟩ := hget y hy
  rw [hxy]
  exact h.active x hx

/-- A new subscription has a new id. -/
theorem insert_force (hi : ForceInv s) (hn : Numbered s) {errorCategory : Option ErrorCategory}
    {toAddr : Option String} {webhookUrl signingSecret : String} {subType : SubType}
    {rate : Option RateColumns} :
    ForceInv (insertSubscription s errorCategory toAddr webhookUrl signingSecret subType rate) := by
  have hold : ∀ (id : Int) (secret : String), id < s.nextId → Sendable s id secret → Sendable
      (insertSubscription s errorCategory toAddr webhookUrl signingSecret subType rate) id secret := by
    refine fun id secret hid h => h.frame h.current fun y hy => ⟨y, ?_, rfl⟩
    rw [insertSubscription, Option.mem_def, Table.get_insertNew] at hy
    have hnew : lookup AlertSubscription.subscriptionId id
        [⟨s.nextId, errorCategory, toAddr, webhookUrl, signingSecret, true, subType⟩] = none := by
      simp only [lookup_eq_none, List.mem_singleton, forall_eq]
      omega
    rwa [hnew, Option.or_none] at hy
  refine ⟨hi.inForce, fun x hx => ?_, fun t ht hpc => hold _ _ (hn.tasks t ht).1 (hi.tasks t ht hpc),
    fun t ht hpc => hold _ _ (hn.rateTasks t ht) (hi.rateTasks t ht hpc)⟩
  rcases Table.mem_insertNew hx with hx | hx
  · exact hi.rows x hx
  · have hunused : Current s.history x.subscriptionId x.signingSecret := by
      refine current_of_unused fun e he hid => ?_
      rw [List.mem_singleton.mp hx] at hid
      exact absurd (hn.history e he) (by rw [hid]; exact lt_irrefl _)
    exact ⟨hunused.1, fun _ => hunused.2⟩

theorem rotate_force (hi : ForceInv s) {id : Int} {newSecret : String}
    (hg : Quiet s (.api (.rotateAlertSubscriptionSecret id newSecret))) :
    ForceInv (apiStep s (.rotateAlertSubscriptionSecret id newSecret)) := by
  have hactive : ∀ x, (rotateSecret id newSecret x).active = x.active := by
    intro x
    unfold rotateSecret
    split <;> rfl
  -- a candidate has the new secret already, or another subscription
  have hold : ∀ (id' : Int) (secret : String), Sendable s id' secret →
      ((∃ x ∈ s.alerts.subscriptions.get id, x.active = true) → id = id' → secret = newSecret) →
      Sendable (apiStep s (.rotateAlertSubscriptionSecret id newSecret)) id' secret := by
    refine fun id' secret h hsecret => h.frame ?_ fun y hy => ?_
    · simp only [apiStep]
      split
      · rename_i hfound
        exact h.current.rotated (hsecret hfound)
      · exact h.current
    · rw [apiStep, Option.mem_def, Table.get_map] at hy
      obtain ⟨x, hx, rfl⟩ := Option.map_eq_some_iff.mp hy
      exact ⟨x, hx, hactive x⟩
  refine ⟨?_, fun y hy => ?_, fun t ht hpc => hold _ _ (hi.tasks t ht hpc) fun hfound hid =>
    (hg hfound).1 t ht hid.symm hpc, fun t ht hpc => hold _ _ (hi.rateTasks t ht hpc)
    fun hfound hid => (hg hfound).2 t ht hid.symm hpc⟩
  · simp only [apiStep]
    split
    · exact inForce_append hi.inForce fun p hp => by cases hp
    · exact hi.inForce
  · obtain ⟨x, hx, rfl⟩ := List.mem_map.mp hy
    obtain ⟨hsecret, hdeact⟩ := hi.rows x hx
    rw [rotateSecret_id, hactive]
    simp only [apiStep]
    constructor
    · intro newest hnewest
      split at hnewest
      · rw [lastSecret_append] at hnewest
        simp only at hnewest
        split at hnewest
        · -- the row of the rotation, which is active
          rename_i hfound hid
          obtain ⟨z, hz, hza⟩ := hfound
          rw [hid, Option.mem_def, Table.mem_iff_get.mp hx, Option.some.injEq] at hz
          subst hz
          rw [rotateSecret, if_pos ⟨hid.symm, hza⟩]
          exact Option.some.inj hnewest
        · rename_i hid
          rw [rotateSecret, if_neg fun hc => hid hc.1.symm]
          exact hsecret newest hnewest
      · rename_i hfound
        rw [rotateSecret, if_neg]
        · exact hsecret newest hnewest
        · rintro ⟨rfl, ha⟩
          exact hfound ⟨x, Table.mem_iff_get.mp hx, ha⟩
    · intro ha hm
      split at hm
      · rcases List.mem_append.mp hm with hm | hm
        · exact hdeact ha hm
        · cases List.mem_singleton.mp hm
      · exact hdeact ha hm

theorem deactivate_force (hi : ForceInv s) {id : Int}
    (hg : Quiet s (.api (.deactivateAlertSubscription id))) :
    ForceInv (apiStep s (.deactivateAlertSubscription id)) := by
  -- an unsent candidate has another subscription, or one that is deleted
  have hold : ∀ (id' : Int) (secret : String), Sendable s id' secret →
      ((∃ x ∈ s.alerts.subscriptions.get id, x.active = true) → id ≠ id') →
      Sendable (apiStep s (.deactivateAlertSubscription id)) id' secret := by
    intro id' secret h hother
    have hne : (s.alerts.subscriptions.get id).isSome = true → id ≠ id' := by
      rintro hsome rfl
      obtain ⟨x, hx⟩ := Option.isSome_iff_exists.mp hsome
      exact hother ⟨x, hx, h.active x hx⟩ rfl
    refine h.frame ?_ fun y hy => ?_
    · simp only [apiStep]
      split
      · rename_i hsome
        exact h.current.deactivated (hne hsome)
      · exact h.current
    · rw [apiStep, Option.mem_def, Table.get_map] at hy
      obtain ⟨x, hx, rfl⟩ := Option.map_eq_some_iff.mp hy
      refine ⟨x, hx, ?_⟩
      rw [deactivate, if_neg]
      rintro ⟨hid, -⟩
      rw [Table.get_key hx] at hid
      subst hid
      exact hne (by rw [hx]; rfl) rfl
  refine ⟨?_, fun y hy => ?_, fun t ht hpc => hold _ _ (hi.tasks t ht hpc) fun hfound hid =>
    (hg hfound).1 t ht hid.symm hpc, fun t ht hpc => hold _ _ (hi.rateTasks t ht hpc)
    fun hfound hid => (hg hfound).2 t ht hid.symm hpc⟩
  · simp only [apiStep]
    split
    · exact inForce_append hi.inForce fun p hp => by cases hp
    · exact hi.inForce
  · obtain ⟨x, hx, rfl⟩ := List.mem_map.mp hy
    obtain ⟨hsecret, hdeact⟩ := hi.rows x hx
    have hsame : (deactivate id x).signingSecret = x.signingSecret := by
      unfold deactivate
      split <;> rfl
    rw [deactivate_id, hsame]
    simp only [apiStep]
    constructor
    · intro newest hnewest
      split at hnewest
      · rw [lastSecret_append] at hnewest
        exact hsecret newest hnewest
      · exact hsecret newest hnewest
    · intro ha hm
      unfold deactivate at ha
      split at ha
      · cases ha
      · rename_i hne
        split at hm
        · rcases List.mem_append.mp hm with hm | hm
          · exact hdeact ha hm
          · have hid := Event.deactivated.inj (List.mem_singleton.mp hm)
            exact hne ⟨hid, ha⟩
        · exact hdeact ha hm

theorem apiStep_force (hi : ForceInv s) (hn : Numbered s) {call : ApiCall}
    (hg : Quiet s (.api call)) : ForceInv (apiStep s call) := by
  cases call with
  | insertAlertSubscription errorCategory toAddr webhookUrl signingSecret =>
    exact insert_force hi hn
  | insertAlertSubscriptionRate errorCategory toAddr webhookUrl signingSecret rate =>
    simp only [apiStep]
    split
    · exact insert_force hi hn
    · exact hi
  | rotateAlertSubscriptionSecret id newSecret => exact rotate_force hi hg
  | deactivateAlertSubscription id => exact deactivate_force hi hg
  | deleteAlertSubscription id =>
    have hold : ∀ (id' : Int) (secret : String), Sendable s id' secret →
        Sendable (apiStep s (.deleteAlertSubscription id)) id' secret := by
      refine fun id' secret h => h.frame h.current fun y hy => ⟨y, ?_, rfl⟩
      rw [apiStep, Option.mem_def, Table.get_filter] at hy
      exact (Option.filter_eq_some_iff.mp hy).1
    exact ⟨hi.inForce, fun x hx => hi.rows x (List.mem_of_mem_filter hx),
      fun t ht hpc => hold _ _ (hi.tasks t ht hpc), fun t ht hpc => hold _ _ (hi.rateTasks t ht hpc)⟩

end Steps

theorem forceInv_inductive (unsafeUrl : String → Option String) :
    ((dispatcher unsafeUrl).restrict Quiet).Inductive fun s => Numbered s ∧ ForceInv s where
  init := by
    intro s hs
    refine ⟨(numbered_inductive unsafeUrl).init s hs, ?_⟩
    obtain ⟨htasks, hrate, hhistory, -, -⟩ := hs
    refine ⟨fun before p after he => ?_, fun x hx => ?_, ?_, ?_⟩
    · rw [hhistory] at he
      cases before <;> cases he
    · rw [hhistory]
      exact ⟨nofun, fun _ => nofun⟩
    · simp [htasks]
    · simp [hrate]
  step := by
    rintro s l s' ⟨hn, hi⟩ ⟨hs, hg⟩
    refine ⟨(numbered_inductive unsafeUrl).step s l s' hn hs, ?_⟩
    cases l with
    | api call =>
      cases hs
      exact apiStep_force hi hn hg
    | data db =>
      cases hs
      exact ⟨hi.inForce, hi.rows, fun t ht hpc => ⟨(hi.tasks t ht hpc).current,
        (hi.tasks t ht hpc).active⟩, fun t ht hpc => ⟨(hi.rateTasks t ht hpc).current,
        (hi.rateTasks t ht hpc).active⟩⟩
    | event l => exact eventStep_force hi hs
    | rate l => exact rateStep_force hi hs

/-- **Writes that find no outdated candidate are in force at once.** In every run of any
number of dispatchers with the API, whose rotations and deactivations meet `Quiet`: every
request is signed with the newest secret of its subscription, and none begins after its
deactivation. -/
theorem in_force_of_quiet (unsafeUrl : String → Option String) (s : Dispatcher)
    (h : ((dispatcher unsafeUrl).restrict Quiet).Reachable s) : InForce s.history :=
  ((forceInv_inductive unsafeUrl).reachable s h).2.inForce

/-- One pending pair and one subscription to it. -/
def pendingDispatcher : Dispatcher := ⟨pendingAlerts, fun _ => none, 2, [], [], []⟩

def newHookMatch : AlertMatch := { hookMatch with signingSecret := "01" }

/-- The secret is rotated before the query, and the subscription deactivated after the
request. -/
def quietRun : Option Dispatcher :=
  LTS.exec (LTS.guarded (dispatcherStep fun _ => none) Quiet) pendingDispatcher
    [.api (.rotateAlertSubscriptionSecret 1 "01"), .event (.find newHookMatch), .event (.claim 0),
     .event (.send 0), .api (.deactivateAlertSubscription 1)]

theorem quiet_in_force : InForce (quietRun.get (by decide +kernel)).history :=
  in_force_of_quiet (fun _ => none) _ (LTS.reachable_of_guarded
    ⟨rfl, rfl, rfl, by decide +kernel, by decide +kernel⟩ (Option.some_get _).symm)

/-- A dispatcher reads the candidate; the secret is rotated and the subscription deactivated;
the dispatcher claims and sends. -/
def staleRun : Option Dispatcher :=
  LTS.exec (dispatcherStep fun _ => none) pendingDispatcher
    [.event (.find hookMatch), .api (.rotateAlertSubscriptionSecret 1 "01"),
     .api (.deactivateAlertSubscription 1), .event (.claim 0), .event (.send 0)]

/-- The request goes out all the same, with the old secret. -/
theorem stale_candidate_sent :
    ¬ ∀ (unsafeUrl : String → Option String) (s : Dispatcher), (dispatcher unsafeUrl).Reachable s →
      InForce s.history := by
  intro h
  have hrun : staleRun.map Dispatcher.history =
      some [.rotated 1 "01", .deactivated 1, .post ⟨none, 1, "00", 0⟩] := by
    decide +kernel
  obtain ⟨s, hexec, hs⟩ := Option.map_eq_some_iff.mp hrun
  have hforce := h (fun _ => none) s (LTS.reachable_of_exec
    ⟨rfl, rfl, rfl, by decide +kernel, by decide +kernel⟩ hexec)
  rw [hs] at hforce
  have hcurrent := hforce [.rotated 1 "01", .deactivated 1] ⟨none, 1, "00", 0⟩ [] rfl
  exact hcurrent.2 (by decide)

end Amarillo.L4
