import Amarillo.Core.LTS
import Amarillo.Core.Text
import Amarillo.L4Alerts.Ledger

/-!
# Dispatcher workers on one ledger (`indexer/src/alerts.rs`)

`dispatch_item` is a task: claim the pair, check the URL and the secret, post,
record the outcome. Tasks of any number of workers share the ledger; each
statement is atomic and a task may rest between any two (`dispatch`). A task is
there from the moment a query returned its pair, so its claim may come long
after. `change` is everything else that happens to the tables the query reads.

The claim is a lease of `claimStaleAfterSecs` without a token: a task whose
lease has run out does not learn of it, and its record goes over whatever the
next owner wrote.

* `delivered_absorbing`: as long as no record meets a delivered row (`Timely`),
  a delivered row stays as it is, and no claim on its pair succeeds any more.
* `late_record_undelivers`: a record of the first owner, after the second one
  delivered, makes the row `failed`.
-/
namespace Amarillo.L4
open Amarillo.Core Amarillo.L2

def claimStaleAfterSecs : Int := 60

/-- How far a task got with its pair. -/
inductive Reached where
  | unclaimed
  | claimed
  | posted
  deriving DecidableEq, Repr

inductive DispatchPc where
  | spawned
  | holding
  | posting
  | recording (sent delivered : Bool) (error : Option String)
  | ended (reached : Reached)
  deriving DecidableEq, Repr

def DispatchPc.reached : DispatchPc → Reached
  | .spawned => .unclaimed
  | .holding => .claimed
  | .posting => .posted
  | .recording sent _ _ => if sent then .posted else .claimed
  | .ended r => r

structure DispatchTask where
  item : AlertMatch
  pc : DispatchPc
  deriving DecidableEq, Repr

structure Alerts where
  db : Db
  subscriptions : Table AlertSubscription.subscriptionId
  ledger : Ledger
  now : Int
  tasks : List DispatchTask

inductive DispatchLabel where
  | change (db : Db) (subscriptions : Table AlertSubscription.subscriptionId)
  | tick (d : Nat)
  | find (item : AlertMatch)
  | claim (i : Nat)
  | send (i : Nat)
  | answer (i : Nat) (error : Option String)
  | record (i : Nat)
  | stop (i : Nat)

section System
-- `webhook_url_is_safe`: the reason it refuses a URL
variable (unsafeUrl : String → Option String)

/-- mirrors crates/indexer/src/alerts.rs:243-257 -/
def claimStep (s : Alerts) (i : Nat) : Option Alerts :=
  match s.tasks[i]? with
  | some ⟨item, .spawned⟩ =>
    match tryClaimAlertMatch s.subscriptions s.now item.pair claimStaleAfterSecs s.ledger with
    | .ok (ledger, true) => some
      { s with ledger := ledger, tasks := s.tasks.set i ⟨item, .holding⟩ }
    | .ok (_, false) => some { s with tasks := s.tasks.set i ⟨item, .ended .unclaimed⟩ }
    | .error _ => some { s with tasks := s.tasks.set i ⟨item, .ended .unclaimed⟩ }
  | _ => none

/-- The checks before the request goes out.
mirrors crates/indexer/src/alerts.rs:258-297 -/
def sendNext (item : AlertMatch) : DispatchPc :=
  match unsafeUrl item.webhookUrl with
  | some reason => .recording false false (some ("unsafe url: " ++ reason))
  | none =>
    match hexDecode item.signingSecret.toList with
    | none => .recording false false (some "corrupt signing_secret (not hex)")
    | some _ => .posting

def sendStep (s : Alerts) (i : Nat) : Option Alerts :=
  match s.tasks[i]? with
  | some ⟨item, .holding⟩ => some { s with tasks := s.tasks.set i ⟨item, sendNext unsafeUrl item⟩ }
  | _ => none

/-- The outcome of the request: `none`, or the text of the error. -/
def answerStep (s : Alerts) (i : Nat) (error : Option String) : Option Alerts :=
  match s.tasks[i]? with
  | some ⟨item, .posting⟩ => some
    { s with tasks := s.tasks.set i ⟨item, .recording true error.isNone error⟩ }
  | _ => none

/-- mirrors crates/indexer/src/alerts.rs:299-337 -/
def recordStep (s : Alerts) (i : Nat) : Option Alerts :=
  match s.tasks[i]? with
  | some ⟨item, .recording sent delivered error⟩ =>
    let ended : DispatchTask := ⟨item, .ended (DispatchPc.recording sent delivered error).reached⟩
    match recordAlertDelivery s.subscriptions s.now item.pair delivered error s.ledger with
    | .ok ledger => some { s with ledger := ledger, tasks := s.tasks.set i ended }
    | .error _ => some { s with tasks := s.tasks.set i ended }
  | _ => none

/-- A crash, a panic or a lost connection. -/
def stopStep (s : Alerts) (i : Nat) : Option Alerts :=
  match s.tasks[i]? with
  | some t => some { s with tasks := s.tasks.set i ⟨t.item, .ended t.pc.reached⟩ }
  | none => none

def dispatchStep (s : Alerts) : DispatchLabel → Option Alerts
  | .change db subscriptions => some { s with db := db, subscriptions := subscriptions }
  | .tick d => some { s with now := s.now + d }
  | .find item =>
    if item ∈ pendingAlertMatches s.db s.subscriptions s.ledger s.now claimStaleAfterSecs then
      some { s with tasks := s.tasks ++ [⟨item, .spawned⟩] }
    else none
  | .claim i => claimStep s i
  | .send i => sendStep unsafeUrl s i
  | .answer i error => answerStep s i error
  | .record i => recordStep s i
  | .stop i => stopStep s i

def dispatch : LTS Alerts DispatchLabel := .ofFn (fun s => s.tasks = []) (dispatchStep unsafeUrl)

/-- The pair and the outcome a task is about to record. -/
def outcomeOf (s : Alerts) (i : Nat) : Option (Pair × Bool) :=
  s.tasks[i]?.bind fun t =>
    match t.pc with
    | .recording _ delivered _ => some (t.item.pair, delivered)
    | _ => none

/-- A record does not meet a delivered row, unless it is a second success at
the very time of the first. -/
def Timely (s : Alerts) : DispatchLabel → Prop
  | .record i => ∀ o ∈ outcomeOf s i, ∀ d ∈ s.ledger.get o.1, d.status = .delivered →
      o.2 = true ∧ d.deliveredAt = some s.now
  | _ => True

instance (s : Alerts) : (l : DispatchLabel) → Decidable (Timely s l)
  | .record i => inferInstanceAs (Decidable (∀ o ∈ outcomeOf s i, ∀ d ∈ s.ledger.get o.1,
      d.status = .delivered → o.2 = true ∧ d.deliveredAt = some s.now))
  | .change _ _ => instDecidableTrue
  | .tick _ => instDecidableTrue
  | .find _ => instDecidableTrue
  | .claim _ => instDecidableTrue
  | .send _ => instDecidableTrue
  | .answer _ _ => instDecidableTrue
  | .stop _ => instDecidableTrue

end System

/-! ## What a step does -/

section Steps
variable {unsafeUrl : String → Option String} {s s' : Alerts} {l : DispatchLabel}

/-- All that a step can do, with what it found before. -/
inductive DispatchEffect (unsafeUrl : String → Option String) (s : Alerts) :
    DispatchLabel → Alerts → Prop where
  | changed (db : Db) (subscriptions : Table AlertSubscription.subscriptionId) :
    DispatchEffect unsafeUrl s (.change db subscriptions)
      { s with db := db, subscriptions := subscriptions }
  | ticked (d : Nat) : DispatchEffect unsafeUrl s (.tick d) { s with now := s.now + d }
  | found {item : AlertMatch}
    (hitem : item ∈ pendingAlertMatches s.db s.subscriptions s.ledger s.now claimStaleAfterSecs) :
    DispatchEffect unsafeUrl s (.find item) { s with tasks := s.tasks ++ [⟨item, .spawned⟩] }
  | claimed {i : Nat} {item : AlertMatch} {ledger : Ledger} (htask : s.tasks[i]? = some ⟨item, .spawned⟩)
    (hclaim : tryClaimAlertMatch s.subscriptions s.now item.pair claimStaleAfterSecs s.ledger =
      .ok (ledger, true)) :
    DispatchEffect unsafeUrl s (.claim i)
      { s with ledger := ledger, tasks := s.tasks.set i ⟨item, .holding⟩ }
  | unclaimed {i : Nat} {item : AlertMatch} (htask : s.tasks[i]? = some ⟨item, .spawned⟩)
    (hclaim : ∀ ledger, tryClaimAlertMatch s.subscriptions s.now item.pair claimStaleAfterSecs
      s.ledger ≠ .ok (ledger, true)) :
    DispatchEffect unsafeUrl s (.claim i) { s with tasks := s.tasks.set i ⟨item, .ended .unclaimed⟩ }
  | sent {i : Nat} {item : AlertMatch} (htask : s.tasks[i]? = some ⟨item, .holding⟩) :
    DispatchEffect unsafeUrl s (.send i)
      { s with tasks := s.tasks.set i ⟨item, sendNext unsafeUrl item⟩ }
  | answered {i : Nat} {item : AlertMatch} (error : Option String)
    (htask : s.tasks[i]? = some ⟨item, .posting⟩) :
    DispatchEffect unsafeUrl s (.answer i error)
      { s with tasks := s.tasks.set i ⟨item, .recording true error.isNone error⟩ }
  | recorded {i : Nat} {item : AlertMatch} {sent delivered : Bool} {error : Option String}
    {ledger : Ledger} (htask : s.tasks[i]? = some ⟨item, .recording sent delivered error⟩)
    (hrecord : recordAlertDelivery s.subscriptions s.now item.pair delivered error s.ledger =
      .ok ledger) :
    DispatchEffect unsafeUrl s (.record i)
      { s with
        ledger := ledger
        tasks := s.tasks.set i ⟨item, .ended (DispatchPc.recording sent delivered error).reached⟩ }
  | unrecorded {i : Nat} {item : AlertMatch} {sent delivered : Bool} {error : Option String}
    {e : DbError} (htask : s.tasks[i]? = some ⟨item, .recording sent delivered error⟩)
    (hrecord : recordAlertDelivery s.subscriptions s.now item.pair delivered error s.ledger =
      .error e) :
    DispatchEffect unsafeUrl s (.record i)
      { s with
        tasks := s.tasks.set i ⟨item, .ended (DispatchPc.recording sent delivered error).reached⟩ }
  | stopped {i : Nat} {t : DispatchTask} (htask : s.tasks[i]? = some t) :
    DispatchEffect unsafeUrl s (.stop i)
      { s with tasks := s.tasks.set i ⟨t.item, .ended t.pc.reached⟩ }

theorem dispatchStep_effect (h : dispatchStep unsafeUrl s l = some s') :
    DispatchEffect unsafeUrl s l s' := by
  cases l with
  | change db subscriptions =>
    cases h
    exact .changed db subscriptions
  | tick d =>
    cases h
    exact .ticked d
  | find item =>
    simp only [dispatchStep] at h
    split at h
    · rename_i hitem
      cases h
      exact .found hitem
    · cases h
  | claim i =>
    simp only [dispatchStep, claimStep] at h
    split at h
    · rename_i item htask
      split at h <;> rename_i hclaim <;> cases h
      · exact .claimed htask hclaim
      · refine .unclaimed htask fun ledger hwon => ?_
        rw [hclaim] at hwon
        cases hwon
      · refine .unclaimed htask fun ledger hwon => ?_
        rw [hclaim] at hwon
        cases hwon
    · cases h
  | send i =>
    simp only [dispatchStep, sendStep] at h
    split at h <;> cases h
    exact .sent ‹_›
  | answer i error =>
    simp only [dispatchStep, answerStep] at h
    split at h <;> cases h
    exact .answered error ‹_›
  | record i =>
    simp only [dispatchStep, recordStep] at h
    split at h
    · rename_i htask
      split at h <;> rename_i hrecord <;> cases h
      · exact .recorded htask hrecord
      · exact .unrecorded htask hrecord
    · cases h
  | stop i =>
    simp only [dispatchStep, stopStep] at h
    split at h <;> cases h
    exact .stopped ‹_›

/-- A task that holds a claim after a step held it before, or has just won it. -/
def ClaimFrom (s : Alerts) (l : DispatchLabel) (i : Nat) (t' : DispatchTask) : Prop :=
  (∃ t, s.tasks[i]? = some t ∧ t.item = t'.item ∧ t.pc.reached ≠ .unclaimed) ∨
  (l = .claim i ∧ ∃ ledger, tryClaimAlertMatch s.subscriptions s.now t'.item.pair
    claimStaleAfterSecs s.ledger = .ok (ledger, true))

/-- A step that replaces one task. -/
theorem claimFrom_set {i : Nat} {a : DispatchTask} (hset : s'.tasks = s.tasks.set i a)
    (ha : a.pc.reached ≠ .unclaimed → ClaimFrom s l i a) {j : Nat} {t' : DispatchTask}
    (ht : s'.tasks[j]? = some t') (hr : t'.pc.reached ≠ .unclaimed) : ClaimFrom s l j t' := by
  rw [hset, List.getElem?_set] at ht
  split at ht
  · rename_i hij
    subst hij
    split at ht
    · cases ht
      exact ha hr
    · cases ht
  · exact .inl ⟨t', ht, rfl, hr⟩

theorem dispatchStep_claims (h : dispatchStep unsafeUrl s l = some s') {j : Nat}
    {t' : DispatchTask} (ht : s'.tasks[j]? = some t') (hr : t'.pc.reached ≠ .unclaimed) :
    ClaimFrom s l j t' := by
  cases dispatchStep_effect h with
  | changed db subscriptions => exact .inl ⟨t', ht, rfl, hr⟩
  | ticked d => exact .inl ⟨t', ht, rfl, hr⟩
  | found hitem =>
    rw [List.getElem?_append] at ht
    split at ht
    · exact .inl ⟨t', ht, rfl, hr⟩
    · -- a task that has just been spawned
      rw [List.mem_singleton.mp (List.mem_of_getElem? ht)] at hr
      exact absurd rfl hr
  | claimed htask hclaim =>
    refine claimFrom_set rfl ?_ ht hr
    exact fun _ => .inr ⟨rfl, _, hclaim⟩
  | unclaimed htask hclaim =>
    refine claimFrom_set rfl ?_ ht hr
    exact fun hn => absurd rfl hn
  | sent htask =>
    refine claimFrom_set rfl ?_ ht hr
    exact fun _ => .inl ⟨_, htask, rfl, by simp [DispatchPc.reached]⟩
  | answered error htask =>
    refine claimFrom_set rfl ?_ ht hr
    exact fun _ => .inl ⟨_, htask, rfl, by simp [DispatchPc.reached]⟩
  | recorded htask hrecord =>
    refine claimFrom_set rfl ?_ ht hr
    exact fun hn => .inl ⟨_, htask, rfl, hn⟩
  | unrecorded htask hrecord =>
    refine claimFrom_set rfl ?_ ht hr
    exact fun hn => .inl ⟨_, htask, rfl, hn⟩
  | stopped htask =>
    refine claimFrom_set rfl ?_ ht hr
    exact fun hn => .inl ⟨_, htask, rfl, hn⟩

/-- A step leaves the row of a pair, or is a claim that wins it, or a record of
it. -/
theorem dispatchStep_row (h : dispatchStep unsafeUrl s l = some s') (p : Pair) :
    s'.ledger.get p = s.ledger.get p ∨
    (∃ ledger, tryClaimAlertMatch s.subscriptions s.now p claimStaleAfterSecs s.ledger =
      .ok (ledger, true)) ∨
    ∃ i delivered error, l = .record i ∧ outcomeOf s i = some (p, delivered) ∧
      s'.ledger.get p = some ((s.ledger.get p).elim (newOutcome s.now p delivered error)
        (outcomeOver s.now delivered error)) := by
  cases dispatchStep_effect h with
  | @claimed i item ledger htask hclaim =>
    by_cases hp : item.pair = p
    · subst hp
      exact .inr (.inl ⟨ledger, hclaim⟩)
    · left
      rw [show Table.get _ p = _ from tryClaimAlertMatch_get hclaim p, if_neg fun e => hp e.2]
  | @recorded i item sent delivered error ledger htask hrecord =>
    by_cases hp : item.pair = p
    · subst hp
      refine .inr (.inr ⟨i, delivered, error, rfl, by simp [outcomeOf, htask], ?_⟩)
      rw [show Table.get _ item.pair = _ from recordAlertDelivery_get hrecord item.pair, if_pos rfl]
    · left
      rw [show Table.get _ p = _ from recordAlertDelivery_get hrecord p, if_neg hp]
  | _ => exact .inl rfl

end Steps

/-! ## Delivered is final -/

theorem not_claimable_delivered {now staleAfterSecs : Int} {d : AlertDelivery}
    (h : d.status = .delivered) : ¬claimable now staleAfterSecs d := by
  rintro (hf | ⟨hc, -⟩)
  · rw [h] at hf
    cases hf
  · rw [h] at hc
    cases hc

/-- Between `s` and `s'` the delivered row `r` of the pair has kept its status
and time, and the tasks that hold a claim on the pair, or have posted for it,
held it in `s`. -/
structure Absorbed (p : Pair) (r : AlertDelivery) (s s' : Alerts) : Prop where
  row : ∃ d, s'.ledger.get p = some d ∧ d.status = .delivered ∧ d.deliveredAt = r.deliveredAt
  claims : ∀ (i : Nat) (t' : DispatchTask), s'.tasks[i]? = some t' → t'.item.pair = p → t'.pc.reached ≠ .unclaimed →
    ∃ t, s.tasks[i]? = some t ∧ t.item = t'.item ∧ t.pc.reached ≠ .unclaimed
  posts : ∀ (i : Nat) (t' : DispatchTask), s'.tasks[i]? = some t' → t'.item.pair = p → t'.pc.reached = .posted →
    ∃ t, s.tasks[i]? = some t ∧ t.item = t'.item ∧ t.pc.reached ≠ .unclaimed

/-- A row that is delivered is not taken over by a timely step. -/
theorem absorbed_step {unsafeUrl : String → Option String} {s s' : Alerts} {l : DispatchLabel}
    {p : Pair} {d : AlertDelivery} (h : dispatchStep unsafeUrl s l = some s') (hg : Timely s l)
    (hd : s.ledger.get p = some d) (hs : d.status = .delivered) :
    (∃ d', s'.ledger.get p = some d' ∧ d'.status = .delivered ∧ d'.deliveredAt = d.deliveredAt) ∧
    ∀ (i : Nat) (t' : DispatchTask), s'.tasks[i]? = some t' → t'.item.pair = p → t'.pc.reached ≠ .unclaimed →
      ∃ t, s.tasks[i]? = some t ∧ t.item = t'.item ∧ t.pc.reached ≠ .unclaimed := by
  have hnoclaim : ¬∃ ledger, tryClaimAlertMatch s.subscriptions s.now p claimStaleAfterSecs
      s.ledger = .ok (ledger, true) := fun ⟨_, hc⟩ =>
    not_claimable_delivered hs (tryClaimAlertMatch_won hc d hd)
  constructor
  · rcases dispatchStep_row h p with hrow | hclaim | ⟨i, delivered, error, rfl, ho, hrow⟩
    · exact ⟨d, hrow.trans hd, hs, rfl⟩
    · exact absurd hclaim hnoclaim
    · -- a second success at the very time of the first
      obtain ⟨hdel, hat⟩ := hg _ ho d hd hs
      have hdel : delivered = true := hdel
      subst hdel
      rw [hd] at hrow
      exact ⟨_, hrow, rfl, hat.symm⟩
  · intro i t' ht hp hr
    rcases dispatchStep_claims h ht hr with hheld | ⟨-, hclaim⟩
    · exact hheld
    · rw [hp] at hclaim
      exact absurd hclaim hnoclaim

/-- **Delivered is absorbing.** From any state, in every run whose records meet
no delivered row, except to write the same success at the same time: a
delivered row keeps its status and its time, no claim on its pair succeeds any
more, and every post for the pair comes from a claim made before. -/
theorem delivered_absorbing (unsafeUrl : String → Option String) {s s' : Alerts}
    {ls : List DispatchLabel}
    (hrun : ((dispatch unsafeUrl).restrict Timely).Run s ls s') {p : Pair} {r : AlertDelivery}
    (hr : s.ledger.get p = some r) (hd : r.status = .delivered) : Absorbed p r s s' := by
  have hstart : Absorbed p r s s :=
    ⟨⟨r, hr, hd, rfl⟩, fun i t ht _ hn => ⟨t, ht, rfl, hn⟩,
      fun i t ht _ hp => ⟨t, ht, rfl, by rw [hp]; decide⟩⟩
  refine hrun.keeps (I := Absorbed p r s) (fun s₁ l s₂ hi hstep => ?_) hstart
  obtain ⟨d, hd₁, hd₂, hd₃⟩ := hi.row
  obtain ⟨⟨d', hrow, hst, hat⟩, hclaims⟩ := absorbed_step hstep.1 hstep.2 hd₁ hd₂
  have hback : ∀ (i : Nat) (t' : DispatchTask), s₂.tasks[i]? = some t' → t'.item.pair = p → t'.pc.reached ≠ .unclaimed →
      ∃ t, s.tasks[i]? = some t ∧ t.item = t'.item ∧ t.pc.reached ≠ .unclaimed := by
    intro i t' ht hp hn
    obtain ⟨t₁, ht₁, hitem, hn₁⟩ := hclaims i t' ht hp hn
    obtain ⟨t, ht, hitem', hn'⟩ := hi.claims i t₁ ht₁ (by rw [hitem, hp]) hn₁
    exact ⟨t, ht, hitem'.trans hitem, hn'⟩
  exact ⟨⟨d', hrow, hst, hat.trans hd₃⟩, hback,
    fun i t' ht hp hpost => hback i t' ht hp (by rw [hpost]; decide)⟩

/-! ## Two owners of one pair -/

def hookMatch : AlertMatch := ⟨1, "0xaa", "https://hook.example/a", "00"⟩

/-- One failed transaction and one subscription to all of them. -/
def pendingAlerts : Alerts where
  db := { Db.empty with
    failedTransactions := Table.empty.insertNew [⟨"0xaa", .unknown, none, none, 50000, 0⟩] }
  subscriptions := Table.empty.insertNew
    [⟨1, none, none, hookMatch.webhookUrl, hookMatch.signingSecret, true, .perEvent⟩]
  ledger := .empty
  now := 0
  tasks := []

abbrev openStep : Alerts → DispatchLabel → Option Alerts := dispatchStep fun _ => none

/-- Three tasks find the pair. The first claims it and is slow; 61 seconds later
the second claims it again, posts and delivers. -/
def deliveredRun : Option Alerts :=
  LTS.exec openStep pendingAlerts
    [.find hookMatch, .find hookMatch, .find hookMatch, .claim 0, .send 0, .tick 61000000,
     .claim 1, .send 1, .answer 1 none, .record 1]

def deliveredAlerts : Alerts := deliveredRun.get (by decide +kernel)

def deliveredRow : AlertDelivery :=
  ⟨1, "0xaa", .delivered, 3, none, some 61000000, 61000000⟩

theorem deliveredAlerts_row : deliveredAlerts.ledger.get hookMatch.pair = some deliveredRow := by
  decide +kernel

/-- The third task claims in vain, the first dies. -/
def settledRun : Option Alerts :=
  LTS.exec (LTS.guarded openStep Timely) deliveredAlerts
    [.claim 2, .tick 5, .answer 0 (some "http: timeout"), .stop 0]

theorem settled_absorbed :
    Absorbed hookMatch.pair deliveredRow deliveredAlerts (settledRun.get (by decide +kernel)) :=
  delivered_absorbing (fun _ => none) (LTS.run_of_guarded (Option.some_get _).symm)
    deliveredAlerts_row rfl

/-- The first task's request times out and is recorded. -/
def lateRun : Option Alerts :=
  LTS.exec openStep deliveredAlerts [.answer 0 (some "http: timeout"), .record 0]

/-- The record of the first owner turns the delivered row into a failed one,
which the next query returns again. -/
theorem late_record_undelivers :
    ¬ ∀ (unsafeUrl : String → Option String) (s s' : Alerts) (ls : List DispatchLabel) (p : Pair)
      (r : AlertDelivery), (dispatch unsafeUrl).Reachable s → (dispatch unsafeUrl).Run s ls s' →
      s.ledger.get p = some r → r.status = .delivered → Absorbed p r s s' := by
  intro h
  have hlate : lateRun.map (fun s => (s.ledger.get hookMatch.pair).map AlertDelivery.status) =
      some (some .failed) := by
    decide +kernel
  obtain ⟨s', hexec, hs⟩ := Option.map_eq_some_iff.mp hlate
  have hreach : (dispatch fun _ => none).Reachable deliveredAlerts :=
    LTS.reachable_of_exec rfl (Option.some_get _).symm
  obtain ⟨d, hd, hst, -⟩ := (h (fun _ => none) deliveredAlerts s' _ hookMatch.pair deliveredRow
    hreach (LTS.run_of_exec hexec) deliveredAlerts_row rfl).row
  rw [hd, Option.map_some, Option.some.injEq, hst] at hs
  cases hs

end Amarillo.L4
