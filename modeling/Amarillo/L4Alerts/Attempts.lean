import Amarillo.Core.Tally
import Amarillo.L4Alerts.Lease

/-!
# What `attempts` counts

An attempt on a pair starts with a claim that wins and ends with at most one
record (`recorded_le_started`). Both statements add one to
`alert_delivery.attempts`, whether they insert the row or find it, so that the
column counts the claims and the records (`attempts_eq`): an attempt is counted
when it starts and, if it gets that far, again when its outcome is written.

* `attempts_exact_iff`: the column is the number of attempts started exactly as
  long as none of them has recorded its outcome.
* `attempts_bounds`: it is never less than that number, and never more than
  twice as much.
-/
namespace Amarillo.L4
open Amarillo.Core Amarillo.L2

/-- `alert_delivery.attempts` of the pair; no row yet is no attempt. -/
def attemptsOn (ledger : Ledger) (p : Pair) : Int := (ledger.get p).elim 0 AlertDelivery.attempts

/-- The step is a claim that wins the pair. -/
def startsAttempt (p : Pair) (s : Alerts) : DispatchLabel → Bool
  | .claim i =>
    match s.tasks[i]? with
    | some ⟨item, .spawned⟩ =>
      match tryClaimAlertMatch s.subscriptions s.now item.pair claimStaleAfterSecs s.ledger with
      | .ok (_, won) => won && item.pair == p
      | .error _ => false
    | _ => false
  | _ => false

/-- The step is a record of the pair that goes through. -/
def recordsAttempt (p : Pair) (s : Alerts) : DispatchLabel → Bool
  | .record i =>
    match s.tasks[i]? with
    | some ⟨item, .recording _ delivered error⟩ =>
      item.pair == p &&
        (recordAlertDelivery s.subscriptions s.now item.pair delivered error s.ledger).isOk
    | _ => false
  | _ => false

/-- A record of the pair goes through: there is room in the counter, or there is no row yet
and the subscription exists. -/
def writable (subscriptions : Table AlertSubscription.subscriptionId) (ledger : Ledger) (p : Pair) :
    Prop :=
  match ledger.get p with
  | none => (subscriptions.get p.1).isSome = true
  | some d => d.attempts + 1 < 2 ^ 31

/-- The step writes no outcome of the pair. -/
def Unrecorded (p : Pair) (s : Alerts) : DispatchLabel → Prop
  | .record i => ∀ o ∈ outcomeOf s i, o.1 = p → ¬writable s.subscriptions s.ledger p
  | _ => True

section Runs
variable (unsafeUrl : String → Option String)

/-- The attempts on the pair that the run starts. -/
def started (p : Pair) (s : Alerts) (ls : List DispatchLabel) : Nat :=
  LTS.tally (dispatchStep unsafeUrl) (fun s l => (startsAttempt p s l).toNat) s ls

/-- The outcomes of the pair that the run records. -/
def recorded (p : Pair) (s : Alerts) (ls : List DispatchLabel) : Nat :=
  LTS.tally (dispatchStep unsafeUrl) (fun s l => (recordsAttempt p s l).toNat) s ls

end Runs

/-! ## One statement -/

section Statements
variable {subscriptions : Table AlertSubscription.subscriptionId} {now staleAfterSecs : Int}
  {p : Pair} {ledger ledger' : Ledger}

theorem tryClaimAlertMatch_attempts {won : Bool}
    (h : tryClaimAlertMatch subscriptions now p staleAfterSecs ledger = .ok (ledger', won))
    (q : Pair) : attemptsOn ledger' q = attemptsOn ledger q + (won && p == q).toNat := by
  unfold attemptsOn
  rw [tryClaimAlertMatch_get h q]
  by_cases hq : won = true ∧ p = q
  · obtain ⟨rfl, rfl⟩ := hq
    cases ledger.get p <;> simp [newClaim, claimOver]
  · rw [if_neg hq]
    have : (won && p == q) = false := by simpa using hq
    simp [this]

theorem recordAlertDelivery_attempts {delivered : Bool} {lastError : Option String}
    (h : recordAlertDelivery subscriptions now p delivered lastError ledger = .ok ledger')
    (q : Pair) : attemptsOn ledger' q = attemptsOn ledger q + (p == q).toNat := by
  unfold attemptsOn
  rw [recordAlertDelivery_get h q]
  by_cases hq : p = q
  · subst hq
    cases ledger.get p <;> simp [newOutcome, outcomeOver]
  · simp [hq]

theorem recordAlertDelivery_writable (now : Int) (p : Pair) (delivered : Bool)
    (lastError : Option String) :
    (recordAlertDelivery subscriptions now p delivered lastError ledger).isOk = true ↔
      writable subscriptions ledger p := by
  unfold recordAlertDelivery writable
  cases ledger.get p with
  | none => cases subscriptions.get p.1 <;> simp [Except.isOk, Except.toBool]
  | some d =>
    simp only
    split
    · simp only [Except.isOk, Except.toBool, Bool.false_eq_true, false_iff]
      omega
    · simp only [Except.isOk, Except.toBool, true_iff]
      omega

end Statements

/-! ## One step -/

section Steps
variable {unsafeUrl : String → Option String} {s s' : Alerts} {l : DispatchLabel} {p : Pair}

theorem startsAttempt_lost {i : Nat} {item : AlertMatch} (htask : s.tasks[i]? = some ⟨item, .spawned⟩)
    (hclaim : ∀ ledger, tryClaimAlertMatch s.subscriptions s.now item.pair claimStaleAfterSecs
      s.ledger ≠ .ok (ledger, true)) : startsAttempt p s (.claim i) = false := by
  simp only [startsAttempt, htask]
  split
  · rename_i ledger won hwon
    cases won with
    | false => rfl
    | true => exact absurd hwon (hclaim ledger)
  · rfl

/-- Every step adds what it starts and what it records. -/
theorem dispatchStep_attempts (h : dispatchStep unsafeUrl s l = some s') :
    attemptsOn s'.ledger p =
      attemptsOn s.ledger p + ((startsAttempt p s l).toNat + (recordsAttempt p s l).toNat : Nat) := by
  cases dispatchStep_effect h with
  | claimed htask hclaim =>
    simp [startsAttempt, recordsAttempt, htask, hclaim, tryClaimAlertMatch_attempts hclaim p]
  | unclaimed htask hclaim => simp [startsAttempt_lost htask hclaim, recordsAttempt]
  | recorded htask hrecord =>
    simp [startsAttempt, recordsAttempt, htask, hrecord, Except.isOk, Except.toBool,
      recordAlertDelivery_attempts hrecord p]
  | unrecorded htask hrecord =>
    simp [startsAttempt, recordsAttempt, htask, hrecord, Except.isOk, Except.toBool]
  | _ => simp [startsAttempt, recordsAttempt]

/-- The task is between claim and record of the pair. -/
def attempting (p : Pair) (t : DispatchTask) : Bool := t.pc.busy && t.item.pair == p

def attemptsOpen (p : Pair) (s : Alerts) : Nat := s.tasks.countP (attempting p)

theorem countP_set_add {α : Type*} {q : α → Bool} {xs : List α} {i : Nat} {x a : α}
    (h : xs[i]? = some x) : (xs.set i a).countP q + (q x).toNat = xs.countP q + (q a).toNat := by
  obtain ⟨hi, rfl⟩ := List.getElem?_eq_some_iff.mp h
  have hpos : q xs[i] = true → 0 < xs.countP q := fun hq =>
    List.countP_pos_iff.mpr ⟨_, List.getElem_mem hi, hq⟩
  rw [List.countP_set hi]
  cases hx : q xs[i] <;> cases q a <;> simp
  all_goals have := hpos hx; omega

/-- A step that replaces one task, by what that does to the open attempts. -/
theorem attemptsOpen_set {i m n : Nat} {t a : DispatchTask} (ht : s.tasks[i]? = some t)
    (hs : s'.tasks = s.tasks.set i a)
    (h : (attempting p a).toNat + m ≤ (attempting p t).toNat + n) :
    attemptsOpen p s' + m ≤ attemptsOpen p s + n := by
  have hcount := countP_set_add (q := attempting p) (a := a) ht
  unfold attemptsOpen
  rw [hs]
  omega

theorem sendNext_busy (item : AlertMatch) : (sendNext unsafeUrl item).busy = true := by
  unfold sendNext
  split
  · rfl
  · split <;> rfl

/-- An attempt that records its outcome has been open, and one that opens starts. -/
theorem dispatchStep_open (h : dispatchStep unsafeUrl s l = some s') :
    attemptsOpen p s' + (recordsAttempt p s l).toNat ≤
      attemptsOpen p s + (startsAttempt p s l).toNat := by
  cases dispatchStep_effect h with
  | changed db subscriptions => simp [attemptsOpen, startsAttempt, recordsAttempt]
  | ticked d => simp [attemptsOpen, startsAttempt, recordsAttempt]
  | found hitem => simp [attemptsOpen, startsAttempt, recordsAttempt, attempting, DispatchPc.busy]
  | claimed htask hclaim =>
    refine attemptsOpen_set htask rfl ?_
    simp [startsAttempt, recordsAttempt, attempting, DispatchPc.busy, htask, hclaim]
  | unclaimed htask hclaim =>
    refine attemptsOpen_set htask rfl ?_
    simp [startsAttempt_lost htask hclaim, recordsAttempt, attempting, DispatchPc.busy]
  | sent htask =>
    refine attemptsOpen_set htask rfl ?_
    simp [startsAttempt, recordsAttempt, attempting, sendNext_busy,
      show DispatchPc.holding.busy = true from rfl]
  | answered error htask =>
    refine attemptsOpen_set htask rfl ?_
    simp [startsAttempt, recordsAttempt, attempting, DispatchPc.busy]
  | recorded htask hrecord =>
    refine attemptsOpen_set htask rfl ?_
    simp [startsAttempt, recordsAttempt, attempting, DispatchPc.busy, htask, hrecord, Except.isOk,
      Except.toBool]
  | unrecorded htask hrecord =>
    refine attemptsOpen_set htask rfl ?_
    simp [startsAttempt, recordsAttempt, attempting, DispatchPc.busy, htask, hrecord, Except.isOk,
      Except.toBool]
  | stopped htask =>
    refine attemptsOpen_set htask rfl ?_
    simp [startsAttempt, recordsAttempt, attempting, DispatchPc.busy]

end Steps

/-! ## Whole runs -/

section Runs
variable {unsafeUrl : String → Option String} {s s' : Alerts} {ls : List DispatchLabel}

theorem attempts_eq (hrun : (dispatch unsafeUrl).Run s ls s') (p : Pair) :
    attemptsOn s'.ledger p =
      attemptsOn s.ledger p + (started unsafeUrl p s ls + recorded unsafeUrl p s ls : Nat) := by
  have h := LTS.tally_eq (m := fun s => attemptsOn s.ledger p)
    (fun s l s' => dispatchStep_attempts (s := s) (l := l)) hrun
  rwa [LTS.tally_add hrun] at h

/-- Each attempt records its outcome at most once. -/
theorem recorded_le_started (h0 : (dispatch unsafeUrl).init s)
    (hrun : (dispatch unsafeUrl).Run s ls s') (p : Pair) :
    recorded unsafeUrl p s ls ≤ started unsafeUrl p s ls := by
  have h : attemptsOpen p s' + recorded unsafeUrl p s ls ≤
      attemptsOpen p s + started unsafeUrl p s ls :=
    LTS.tally_le (fun _ _ _ => dispatchStep_open) hrun
  have hnone : attemptsOpen p s = 0 := by
    rw [attemptsOpen, show s.tasks = [] from h0]
    rfl
  omega

/-- The whole history of a pair. -/
theorem attempts_of_new (hrun : (dispatch unsafeUrl).Run s ls s') {p : Pair}
    (hnew : s.ledger.get p = none) :
    attemptsOn s'.ledger p = (started unsafeUrl p s ls + recorded unsafeUrl p s ls : Nat) := by
  have hzero : attemptsOn s.ledger p = 0 := by simp [attemptsOn, hnew]
  rw [attempts_eq hrun p, hzero, zero_add]

/-- Counted once when they start and once more when they are recorded, the attempts are never
counted less than once or more than twice. -/
theorem attempts_bounds (h0 : (dispatch unsafeUrl).init s) {p : Pair} (hnew : s.ledger.get p = none)
    (hrun : (dispatch unsafeUrl).Run s ls s') :
    (started unsafeUrl p s ls : Int) ≤ attemptsOn s'.ledger p ∧
      attemptsOn s'.ledger p ≤ 2 * started unsafeUrl p s ls := by
  have h := attempts_of_new hrun hnew
  have hle := recorded_le_started h0 hrun p
  omega

theorem unrecorded_iff (p : Pair) (s : Alerts) (l : DispatchLabel) :
    (recordsAttempt p s l).toNat = 0 ↔ Unrecorded p s l := by
  cases l with
  | record i =>
    simp only [recordsAttempt, Unrecorded, outcomeOf]
    cases s.tasks[i]? with
    | none => simp
    | some t =>
      obtain ⟨item, pc⟩ := t
      cases pc with
      | recording sent delivered error =>
        simp only [Bool.toNat_eq_zero, Option.bind_some, Option.mem_def, Option.some.injEq,
          forall_eq', Bool.and_eq_false_imp, beq_iff_eq]
        refine forall_congr' fun hp => ?_
        rw [← hp, ← recordAlertDelivery_writable s.now item.pair delivered error, Bool.not_eq_true]
      | spawned => simp
      | holding => simp
      | posting => simp
      | ended reached => simp
  | change db subscriptions => simp [recordsAttempt, Unrecorded]
  | tick d => simp [recordsAttempt, Unrecorded]
  | find item => simp [recordsAttempt, Unrecorded]
  | claim i => simp [recordsAttempt, Unrecorded]
  | send i => simp [recordsAttempt, Unrecorded]
  | answer i error => simp [recordsAttempt, Unrecorded]
  | stop i => simp [recordsAttempt, Unrecorded]

theorem recorded_eq_zero_iff (hrun : (dispatch unsafeUrl).Run s ls s') (p : Pair) :
    recorded unsafeUrl p s ls = 0 ↔ ((dispatch unsafeUrl).restrict (Unrecorded p)).Run s ls s' := by
  have hguard : (fun s l => (recordsAttempt p s l).toNat = 0) = Unrecorded p := by
    funext s l
    exact propext (unrecorded_iff p s l)
  rw [← hguard]
  exact LTS.tally_eq_zero_iff hrun

end Runs

/-- The history of a pair, from before its first claim: `attempts` is the number of
attempts started on it exactly if none of them has recorded its outcome. -/
theorem attempts_exact_iff (unsafeUrl : String → Option String) {s s' : Alerts}
    {ls : List DispatchLabel} {p : Pair} (hnew : s.ledger.get p = none)
    (hrun : (dispatch unsafeUrl).Run s ls s') :
    attemptsOn s'.ledger p = started unsafeUrl p s ls ↔
      ((dispatch unsafeUrl).restrict (Unrecorded p)).Run s ls s' := by
  have h := attempts_of_new hrun hnew
  rw [← recorded_eq_zero_iff hrun p]
  omega

/-- A worker claims the pair and dies, and another claims it after the lease and
posts. -/
def reclaimedRun : Option Alerts :=
  LTS.exec openStep pendingAlerts
    [.find hookMatch, .find hookMatch, .claim 0, .stop 0, .tick 61000000, .claim 1, .send 1,
     .answer 1 none]

theorem attempts_exact_reclaimed :
    attemptsOn (reclaimedRun.get (by decide +kernel)).ledger hookMatch.pair =
        started (fun _ => none) hookMatch.pair pendingAlerts
          [.find hookMatch, .find hookMatch, .claim 0, .stop 0, .tick 61000000, .claim 1, .send 1,
           .answer 1 none] ↔
      ((dispatch fun _ => none).restrict (Unrecorded hookMatch.pair)).Run pendingAlerts
        [.find hookMatch, .find hookMatch, .claim 0, .stop 0, .tick 61000000, .claim 1, .send 1,
         .answer 1 none] (reclaimedRun.get (by decide +kernel)) :=
  attempts_exact_iff (fun _ => none) rfl (LTS.run_of_exec (Option.some_get _).symm)

/-- One delivery that succeeds at once is one attempt and counts as two. -/
theorem attempts_doubled :
    ¬ ∀ (unsafeUrl : String → Option String) (s s' : Alerts) (ls : List DispatchLabel) (p : Pair),
      (dispatch unsafeUrl).init s → s.ledger.get p = none → (dispatch unsafeUrl).Run s ls s' →
      attemptsOn s'.ledger p = started unsafeUrl p s ls := by
  intro h
  have hrun : (LTS.exec openStep pendingAlerts
      [.find hookMatch, .claim 0, .send 0, .answer 0 none, .record 0]).map
        (fun s => attemptsOn s.ledger hookMatch.pair) = some 2 := by
    decide +kernel
  have hone : started (fun _ => none) hookMatch.pair pendingAlerts
      [.find hookMatch, .claim 0, .send 0, .answer 0 none, .record 0] = 1 := by
    decide +kernel
  obtain ⟨s', hexec, hs⟩ := Option.map_eq_some_iff.mp hrun
  have heq := h (fun _ => none) pendingAlerts s' _ hookMatch.pair rfl rfl (LTS.run_of_exec hexec)
  rw [hs, hone] at heq
  cases heq

end Amarillo.L4
