import Amarillo.L4Alerts.Dispatch

/-!
# Exactly once, within the lease

`dispatch` with what the ledger does not keep: the time of each task's claim
and the pairs whose request was answered with success. A run is `WithinLease` if no task
rests between claim and record until its claim goes stale, none crashes, every
record goes through and no subscription is deleted.

`held` carries the proof: while a task is between claim and record, the row of
its pair is its own fresh claim, so that no other claim can win.

* `exactly_once`: at most one task of a pair is between claim and record, and at
  most one request for it is answered with success.
-/
namespace Amarillo.L4
open Amarillo.Core Amarillo.L2

/-- Between claim and record. -/
def DispatchPc.busy : DispatchPc → Bool
  | .holding => true
  | .posting => true
  | .recording _ _ _ => true
  | .spawned => false
  | .ended _ => false

structure Lease where
  alerts : Alerts
  claimedAt : Nat → Int
  succeeded : List Pair

/-- The pair of a request that is answered with success. -/
def succeedsNow (s : Alerts) : DispatchLabel → List Pair
  | .answer i none => (s.tasks[i]?.map fun t => t.item.pair).toList
  | _ => []

def claimTimes (s : Lease) : DispatchLabel → Nat → Int
  | .claim i => fun j => if j = i then s.alerts.now else s.claimedAt j
  | _ => s.claimedAt

section System
variable (unsafeUrl : String → Option String)

def leaseStep (s : Lease) (l : DispatchLabel) : Option Lease :=
  (dispatchStep unsafeUrl s.alerts l).map fun alerts =>
    ⟨alerts, claimTimes s l, s.succeeded ++ succeedsNow s.alerts l⟩

def lease : LTS Lease DispatchLabel :=
  .ofFn (fun s => s.alerts.tasks = [] ∧ s.succeeded = []) (leaseStep unsafeUrl)

end System

/-- The lease of a task runs longer than until `now`. -/
def Unexpired (s : Lease) (i : Nat) (now : Int) : Prop :=
  now < s.claimedAt i + seconds claimStaleAfterSecs

/-- The record of task `i` is not refused. -/
def Recorded (s : Alerts) (i : Nat) : Prop :=
  match s.tasks[i]? with
  | some ⟨item, .recording _ delivered error⟩ =>
    (recordAlertDelivery s.subscriptions s.now item.pair delivered error s.ledger).isOk = true
  | _ => True

instance (s : Alerts) (i : Nat) : Decidable (Recorded s i) := by
  unfold Recorded
  split <;> infer_instance

def WithinLease (s : Lease) : DispatchLabel → Prop
  | .tick d => ∀ i < s.alerts.tasks.length, ∀ t ∈ s.alerts.tasks[i]?, t.pc.busy = true →
      Unexpired s i (s.alerts.now + d)
  | .stop _ => False
  | .record i => Recorded s.alerts i
  | .change _ subscriptions => ∀ x ∈ s.alerts.subscriptions.rows,
      (subscriptions.get x.subscriptionId).isSome = true
  | _ => True

instance (s : Lease) (i : Nat) (now : Int) : Decidable (Unexpired s i now) :=
  inferInstanceAs (Decidable (_ < _))

instance (s : Lease) : (l : DispatchLabel) → Decidable (WithinLease s l)
  | .tick d => inferInstanceAs (Decidable (∀ i < s.alerts.tasks.length,
      ∀ t ∈ s.alerts.tasks[i]?, t.pc.busy = true → Unexpired s i (s.alerts.now + d)))
  | .stop _ => instDecidableFalse
  | .record i => inferInstanceAs (Decidable (Recorded s.alerts i))
  | .change _ subscriptions => inferInstanceAs (Decidable (∀ x ∈ s.alerts.subscriptions.rows,
      (subscriptions.get x.subscriptionId).isSome = true))
  | .find _ => instDecidableTrue
  | .claim _ => instDecidableTrue
  | .send _ => instDecidableTrue
  | .answer _ _ => instDecidableTrue

/-! ## The invariant -/

/-- The row of the pair is the claim of task `i`, and it is fresh. -/
structure Held (s : Lease) (i : Nat) (p : Pair) : Prop where
  fresh : Unexpired s i s.alerts.now
  row : ∃ d, s.alerts.ledger.get p = some d ∧ d.status = .claimed ∧ d.createdAt = s.claimedAt i

/-- A success is about to be recorded, or is. -/
def Answered (s : Lease) (p : Pair) : Prop :=
  (∃ (i : Nat) (item : AlertMatch) (sent : Bool) (error : Option String),
    s.alerts.tasks[i]? = some ⟨item, .recording sent true error⟩ ∧ item.pair = p) ∨
  ∃ d, s.alerts.ledger.get p = some d ∧ d.status = .delivered

structure LeaseInv (s : Lease) : Prop where
  held : ∀ (i : Nat) (t : DispatchTask), s.alerts.tasks[i]? = some t → t.pc.busy = true →
    Held s i t.item.pair
  unique : ∀ (i j : Nat) (t u : DispatchTask), s.alerts.tasks[i]? = some t →
    s.alerts.tasks[j]? = some u → t.pc.busy = true → u.pc.busy = true →
    t.item.pair = u.item.pair → i = j
  answered : ∀ p ∈ s.succeeded, Answered s p
  once : s.succeeded.Nodup

theorem getElem?_set_cases {α : Type*} {l : List α} {i j : Nat} {a t : α}
    (h : (l.set i a)[j]? = some t) : (j = i ∧ t = a) ∨ (j ≠ i ∧ l[j]? = some t) := by
  rw [List.getElem?_set] at h
  split at h
  · rename_i hij
    split at h
    · cases h
      exact .inl ⟨hij.symm, rfl⟩
    · cases h
  · rename_i hij
    exact .inr ⟨fun e => hij e.symm, h⟩

section Steps
variable {unsafeUrl : String → Option String} {s : Lease}

/-- While a task is between claim and record, no claim of its pair wins. -/
theorem claim_free (hi : LeaseInv s) {p : Pair} {ledger : Ledger}
    (hclaim : tryClaimAlertMatch s.alerts.subscriptions s.alerts.now p claimStaleAfterSecs
      s.alerts.ledger = .ok (ledger, true))
    {i : Nat} {t : DispatchTask} (ht : s.alerts.tasks[i]? = some t) (hb : t.pc.busy = true) :
    t.item.pair ≠ p := by
  rintro rfl
  obtain ⟨hfresh, d, hd, hst, hat⟩ := hi.held i t ht hb
  rcases tryClaimAlertMatch_won hclaim d hd with hf | ⟨-, hold⟩
  · rw [hst] at hf
    cases hf
  · unfold Unexpired at hfresh
    omega

/-- A task that moves on without a word to the ledger. -/
theorem LeaseInv.moved (hi : LeaseInv s) {i : Nat} {t a : DispatchTask} {claimedAt : Nat → Int}
    (ht : s.alerts.tasks[i]? = some t) (hitem : a.item = t.item)
    (hnot : ∀ sent delivered error, t.pc ≠ .recording sent delivered error)
    (hbusy : a.pc.busy = true → t.pc.busy = true ∧ claimedAt i = s.claimedAt i)
    (hother : ∀ j ≠ i, claimedAt j = s.claimedAt j) :
    LeaseInv ⟨{ s.alerts with tasks := s.alerts.tasks.set i a }, claimedAt, s.succeeded⟩ := by
  have hback : ∀ (j : Nat) (u : DispatchTask), (s.alerts.tasks.set i a)[j]? = some u →
      u.pc.busy = true → ∃ v, s.alerts.tasks[j]? = some v ∧ v.pc.busy = true ∧
        v.item = u.item ∧ claimedAt j = s.claimedAt j := by
    intro j u hu hb
    rcases getElem?_set_cases hu with ⟨rfl, rfl⟩ | ⟨hne, hu⟩
    · exact ⟨t, ht, (hbusy hb).1, hitem.symm, (hbusy hb).2⟩
    · exact ⟨u, hu, hb, rfl, hother j hne⟩
  refine ⟨fun j u hu hb => ?_, fun j k u v hu hv hbu hbv hp => ?_, fun p hp => ?_, hi.once⟩
  · obtain ⟨v, hv, hbv, hvi, hat⟩ := hback j u hu hb
    obtain ⟨hfresh, d, hd, hst, hcr⟩ := hi.held j v hv hbv
    rw [hvi] at hd
    refine ⟨?_, d, hd, hst, hcr.trans hat.symm⟩
    show s.alerts.now < claimedAt j + seconds claimStaleAfterSecs
    rwa [hat]
  · obtain ⟨u', hu', hbu', hui, -⟩ := hback j u hu hbu
    obtain ⟨v', hv', hbv', hvi, -⟩ := hback k v hv hbv
    exact hi.unique j k u' v' hu' hv' hbu' hbv' (by rw [hui, hvi, hp])
  · refine (hi.answered p hp).imp_left ?_
    rintro ⟨j, item, sent, error, hj, hjp⟩
    refine ⟨j, item, sent, error, ?_, hjp⟩
    have hne : i ≠ j := by
      rintro rfl
      rw [hj, Option.some.injEq] at ht
      exact hnot sent true error (by rw [← ht])
    rwa [List.getElem?_set_ne hne]

theorem claim_inv (hi : LeaseInv s) {i : Nat} {alerts : Alerts}
    (h : claimStep s.alerts i = some alerts) :
    LeaseInv ⟨alerts, claimTimes s (.claim i), s.succeeded⟩ := by
  have hother : ∀ j ≠ i, claimTimes s (.claim i) j = s.claimedAt j := fun j hj => if_neg hj
  have hself : claimTimes s (.claim i) i = s.alerts.now := if_pos rfl
  unfold claimStep at h
  split at h
  · rename_i item htask
    split at h
    · rename_i ledger hclaim
      cases h
      have hrow := tryClaimAlertMatch_get hclaim
      -- a task that was between claim and record has another pair
      have hfree : ∀ (j : Nat) (u : DispatchTask), s.alerts.tasks[j]? = some u →
          u.pc.busy = true → item.pair ≠ u.item.pair := fun j u hu hb e =>
        claim_free hi hclaim hu hb e.symm
      refine ⟨fun j u hu hb => ?_, fun j k u v hu hv hbu hbv hp => ?_, fun p hp => ?_, hi.once⟩
      · rcases getElem?_set_cases hu with ⟨rfl, rfl⟩ | ⟨hne, hu⟩
        · constructor
          · simp only [Unexpired, hself, seconds, claimStaleAfterSecs]
            omega
          · simp only [hrow, hself, and_self, if_true]
            cases s.alerts.ledger.get item.pair with
            | none => exact ⟨_, rfl, rfl, rfl⟩
            | some d => exact ⟨_, rfl, rfl, rfl⟩
        · obtain ⟨hfresh, d, hd, hst, hat⟩ := hi.held j u hu hb
          constructor
          · simpa only [Unexpired, hother j hne] using hfresh
          · refine ⟨d, ?_, hst, hat.trans (hother j hne).symm⟩
            simp only [hrow]
            rw [if_neg fun e => hfree j u hu hb e.2, hd]
      · rcases getElem?_set_cases hu with ⟨rfl, rfl⟩ | ⟨-, hu'⟩
        · rcases getElem?_set_cases hv with ⟨rfl, -⟩ | ⟨-, hv'⟩
          · rfl
          · exact absurd hp (hfree k v hv' hbv)
        · rcases getElem?_set_cases hv with ⟨rfl, rfl⟩ | ⟨-, hv'⟩
          · exact absurd hp.symm (hfree j u hu' hbu)
          · exact hi.unique j k u v hu' hv' hbu hbv hp
      · rcases hi.answered p hp with ⟨j, item', sent, error, hj, hjp⟩ | ⟨d, hd, hst⟩
        · have hne : i ≠ j := by
            rintro rfl
            rw [hj] at htask
            cases htask
          exact .inl ⟨j, item', sent, error, by rwa [List.getElem?_set_ne hne], hjp⟩
        · -- a delivered row is not claimable
          refine .inr ⟨d, ?_, hst⟩
          simp only [hrow]
          rw [if_neg, hd]
          rintro ⟨-, rfl⟩
          exact not_claimable_delivered hst (tryClaimAlertMatch_won hclaim d hd)
    · cases h
      exact hi.moved htask rfl (fun _ _ _ h => by cases h) (fun h => by cases h) hother
    · cases h
      exact hi.moved htask rfl (fun _ _ _ h => by cases h) (fun h => by cases h) hother
  · cases h

theorem send_inv (hi : LeaseInv s) {i : Nat} {alerts : Alerts}
    (h : sendStep unsafeUrl s.alerts i = some alerts) :
    LeaseInv ⟨alerts, s.claimedAt, s.succeeded⟩ := by
  unfold sendStep at h
  split at h
  · rename_i item htask
    cases h
    exact hi.moved htask rfl nofun (fun _ => ⟨rfl, rfl⟩) fun _ _ => rfl
  · cases h

/-- A success is new: the task is not recording yet, and its row is not delivered. -/
theorem answer_inv (hi : LeaseInv s) {i : Nat} {error : Option String} {alerts : Alerts}
    (h : answerStep s.alerts i error = some alerts) :
    LeaseInv ⟨alerts, s.claimedAt, s.succeeded ++ succeedsNow s.alerts (.answer i error)⟩ := by
  unfold answerStep at h
  split at h
  · rename_i item htask
    cases h
    have hmoved : LeaseInv
        ⟨{ s.alerts with
           tasks := s.alerts.tasks.set i ⟨item, .recording true error.isNone error⟩ },
          s.claimedAt, s.succeeded⟩ :=
      hi.moved htask rfl nofun (fun _ => ⟨rfl, rfl⟩) fun _ _ => rfl
    cases error with
    | some e => simpa only [succeedsNow, List.append_nil] using hmoved
    | none =>
      simp only [succeedsNow, htask, Option.map_some, Option.toList_some]
      have hlt : i < s.alerts.tasks.length := (List.getElem?_eq_some_iff.mp htask).1
      refine ⟨fun j u hu hb => ⟨(hmoved.held j u hu hb).fresh, (hmoved.held j u hu hb).row⟩,
        hmoved.unique, fun p hp => ?_, ?_⟩
      · rcases List.mem_append.mp hp with hp | hp
        · exact hmoved.answered p hp
        · rw [List.mem_singleton.mp hp]
          exact .inl ⟨i, item, true, none, List.getElem?_set_self hlt, rfl⟩
      · refine List.nodup_append.mpr ⟨hi.once, List.nodup_singleton _, ?_⟩
        rintro p hp q hq rfl
        rw [List.mem_singleton] at hq
        subst hq
        rcases hi.answered _ hp with ⟨j, item', sent, error, hj, hjp⟩ | ⟨d, hd, hst⟩
        · have := hi.unique i j _ _ htask hj rfl rfl hjp.symm
          subst this
          rw [hj] at htask
          cases htask
        · obtain ⟨-, d', hd', hst', -⟩ := hi.held i _ htask rfl
          rw [show Table.get _ item.pair = _ from hd', Option.some.injEq] at hd
          rw [← hd, hst'] at hst
          cases hst
  · cases h

theorem record_inv (hi : LeaseInv s) {i : Nat} {alerts : Alerts}
    (hg : Recorded s.alerts i) (h : recordStep s.alerts i = some alerts) :
    LeaseInv ⟨alerts, s.claimedAt, s.succeeded⟩ := by
  unfold Recorded at hg
  unfold recordStep at h
  split at h
  · rename_i item sent delivered error htask
    simp only [htask] at hg
    split at h
    · rename_i ledger hrecord
      cases h
      have hrow := recordAlertDelivery_get hrecord
      -- the other tasks have other pairs
      have hother : ∀ (j : Nat) (u : DispatchTask), (s.alerts.tasks.set i
          ⟨item, .ended (DispatchPc.recording sent delivered error).reached⟩)[j]? = some u →
          u.pc.busy = true → s.alerts.tasks[j]? = some u ∧ item.pair ≠ u.item.pair := by
        intro j u hu hb
        rcases getElem?_set_cases hu with ⟨rfl, rfl⟩ | ⟨hne, hu⟩
        · cases hb
        · exact ⟨hu, fun e => hne (hi.unique i j _ u htask hu rfl hb e).symm⟩
      refine ⟨fun j u hu hb => ?_, fun j k u v hu hv hbu hbv hp => ?_, fun p hp => ?_, hi.once⟩
      · obtain ⟨hu, hne⟩ := hother j u hu hb
        obtain ⟨hfresh, d, hd, hst, hat⟩ := hi.held j u hu hb
        refine ⟨hfresh, d, ?_, hst, hat⟩
        simp only [hrow]
        rw [if_neg hne, hd]
      · exact hi.unique j k u v (hother j u hu hbu).1 (hother k v hv hbv).1 hbu hbv hp
      · by_cases hp' : item.pair = p
        · subst hp'
          obtain ⟨-, d, hd, hst, -⟩ := hi.held i _ htask rfl
          rcases hi.answered _ hp with ⟨j, item', sent', error', hj, hjp⟩ | ⟨d', hd', hst'⟩
          · -- its own success
            have := hi.unique i j _ _ htask hj rfl rfl hjp.symm
            subst this
            rw [hj] at htask
            cases htask
            exact .inr ⟨outcomeOver s.alerts.now true error d,
              by simp only [hrow, if_true]; rw [show Table.get _ _ = _ from hd]; rfl, rfl⟩
          · rw [show Table.get _ item.pair = _ from hd, Option.some.injEq] at hd'
            rw [← hd', hst] at hst'
            cases hst'
        · rcases hi.answered p hp with ⟨j, item', sent', error', hj, hjp⟩ | ⟨d, hd, hst⟩
          · have hne : i ≠ j := by
              rintro rfl
              rw [hj] at htask
              cases htask
              exact hp' hjp
            exact .inl ⟨j, item', sent', error', by rwa [List.getElem?_set_ne hne], hjp⟩
          · refine .inr ⟨d, ?_, hst⟩
            simp only [hrow]
            rw [if_neg hp', hd]
    · rename_i herr
      rw [herr] at hg
      cases hg
  · cases h

end Steps

theorem leaseInv_inductive (unsafeUrl : String → Option String) :
    ((lease unsafeUrl).restrict WithinLease).Inductive LeaseInv where
  init := by
    rintro s ⟨htasks, hsucceeded⟩
    refine ⟨fun i t ht => ?_, fun i j t u ht => ?_, fun p hp => ?_, ?_⟩
    · rw [htasks] at ht
      cases ht
    · rw [htasks] at ht
      cases ht
    · rw [hsucceeded] at hp
      cases hp
    · rw [hsucceeded]
      exact List.nodup_nil
  step := by
    rintro s l s' hi ⟨hs, hg⟩
    obtain ⟨alerts, halerts, rfl⟩ := Option.map_eq_some_iff.mp hs
    cases l with
    | change db subscriptions =>
      cases halerts
      simp only [claimTimes, succeedsNow, List.append_nil]
      exact ⟨fun i t ht hb => ⟨(hi.held i t ht hb).fresh, (hi.held i t ht hb).row⟩, hi.unique,
        hi.answered, hi.once⟩
    | tick d =>
      cases halerts
      simp only [claimTimes, succeedsNow, List.append_nil]
      refine ⟨fun i t ht hb => ⟨?_, (hi.held i t ht hb).row⟩, hi.unique, hi.answered, hi.once⟩
      exact hg i (List.getElem?_eq_some_iff.mp ht).1 t ht hb
    | find item =>
      simp only [dispatchStep] at halerts
      split at halerts <;> cases halerts
      simp only [claimTimes, succeedsNow, List.append_nil]
      have hold : ∀ (j : Nat) (u : DispatchTask), (s.alerts.tasks ++ [⟨item, .spawned⟩])[j]? = some u →
          u.pc.busy = true → s.alerts.tasks[j]? = some u := by
        intro j u hu hb
        rw [List.getElem?_append] at hu
        split at hu
        · exact hu
        · rw [List.mem_singleton.mp (List.mem_of_getElem? hu)] at hb
          cases hb
      refine ⟨fun i t ht hb => ?_, fun i j t u ht hu hbt hbu hp => ?_, fun p hp => ?_, hi.once⟩
      · exact ⟨(hi.held i t (hold i t ht hb) hb).fresh, (hi.held i t (hold i t ht hb) hb).row⟩
      · exact hi.unique i j t u (hold i t ht hbt) (hold j u hu hbu) hbt hbu hp
      · refine (hi.answered p hp).imp_left ?_
        rintro ⟨j, item', sent, error, hj, hjp⟩
        have hlt : j < s.alerts.tasks.length := (List.getElem?_eq_some_iff.mp hj).1
        exact ⟨j, item', sent, error, by rwa [List.getElem?_append_left hlt], hjp⟩
    | claim i =>
      simp only [succeedsNow, List.append_nil]
      exact claim_inv hi halerts
    | send i =>
      simp only [claimTimes, succeedsNow, List.append_nil]
      exact send_inv hi halerts
    | answer i error => exact answer_inv hi halerts
    | record i =>
      simp only [claimTimes, succeedsNow, List.append_nil]
      exact record_inv hi hg halerts
    | stop i => exact hg.elim

/-- **Exactly once within the lease.** In every state that any number of workers
reach, in any interleaving of their steps, from any ledger: two tasks of one pair
are not both between claim and record, and at most one request for a pair has been
answered with success. -/
theorem exactly_once (unsafeUrl : String → Option String) (s : Lease)
    (h : ((lease unsafeUrl).restrict WithinLease).Reachable s) :
    (∀ (i j : Nat) (t u : DispatchTask), s.alerts.tasks[i]? = some t →
      s.alerts.tasks[j]? = some u → t.pc.busy = true → u.pc.busy = true →
      t.item.pair = u.item.pair → i = j) ∧
    s.succeeded.Nodup :=
  have hi := (leaseInv_inductive unsafeUrl).reachable s h
  ⟨hi.unique, hi.once⟩

/-- Two tasks find the pair. The second claims in vain; it claims once more after the
first request has failed, and delivers. -/
def racedRun : Option Lease :=
  LTS.exec (LTS.guarded (leaseStep fun _ => none) WithinLease) ⟨pendingAlerts, fun _ => 0, []⟩
    [.find hookMatch, .find hookMatch, .find hookMatch, .claim 0, .claim 1, .send 0,
     .tick 59000000, .answer 0 (some "http: timeout"), .record 0, .tick 5000000, .claim 2, .send 2,
     .answer 2 none, .record 2]

theorem raced_once :
    (∀ (i j : Nat) (t u : DispatchTask), (racedRun.get (by decide +kernel)).alerts.tasks[i]? = some t →
      (racedRun.get (by decide +kernel)).alerts.tasks[j]? = some u → t.pc.busy = true →
      u.pc.busy = true → t.item.pair = u.item.pair → i = j) ∧
    (racedRun.get (by decide +kernel)).succeeded.Nodup :=
  exactly_once (fun _ => none) _ (LTS.reachable_of_guarded ⟨rfl, rfl⟩ (Option.some_get _).symm)

end Amarillo.L4
