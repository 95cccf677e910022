import Amarillo.Core.Pool
import Amarillo.L4Alerts.Rate

/-!
# The counters of a dispatch cycle (`dispatch_once`, `dispatch_rate_once`)

Both functions work through the alerts their query returned with a pool of at most
`MAX_CONCURRENT_POSTS` tasks, a `JoinSet`. What a task does is left out: it ends with any
outcome or error, or panics. The counters are `u64`; an alert raises two of them by one.

* `dispatch_conserved`: each alert has one task, and is counted once when the cycle returns.
* `metrics_balanced`: so the totals that `dispatch_loop` logs add up.
-/
namespace Amarillo.L4
open Amarillo.Core

def MAX_CONCURRENT_POSTS : Nat := 10

inductive DispatchOutcome where
  | delivered
  | failed
  | unsafeUrl
  | claimSkipped
  deriving DecidableEq, Repr

/-- Why a task has no result. -/
inductive JoinError where
  | panicked
  | cancelled
  deriving DecidableEq, Repr

/-- What `join_next` returns for a task. -/
abbrev JoinResult := Except JoinError (Except String DispatchOutcome)

structure DispatchMetrics where
  cycles : Nat
  attempted : Nat
  delivered : Nat
  failed : Nat
  unsafeUrlSkipped : Nat
  claimSkipped : Nat
  rateAttempted : Nat
  rateDelivered : Nat
  rateFailed : Nat
  deriving DecidableEq, Repr

def DispatchMetrics.default : DispatchMetrics := ⟨0, 0, 0, 0, 0, 0, 0, 0, 0⟩

/-- mirrors crates/indexer/src/alerts.rs:369-387 -/
def countOutcome : JoinResult → DispatchMetrics → DispatchMetrics
  | .ok (.ok .delivered), m => { m with delivered := m.delivered + 1 }
  | .ok (.ok .failed), m => { m with failed := m.failed + 1 }
  | .ok (.ok .unsafeUrl), m => { m with unsafeUrlSkipped := m.unsafeUrlSkipped + 1 }
  | .ok (.ok .claimSkipped), m => { m with claimSkipped := m.claimSkipped + 1 }
  | .ok (.error _), m => { m with failed := m.failed + 1 }
  | .error _, m => { m with failed := m.failed + 1 }

/-- mirrors crates/indexer/src/alerts.rs:504-515 -/
def countRateOutcome : JoinResult → DispatchMetrics → DispatchMetrics
  | .ok (.ok .delivered), m => { m with rateDelivered := m.rateDelivered + 1 }
  | .ok (.ok _), m => { m with rateFailed := m.rateFailed + 1 }
  | .ok (.error _), m => { m with rateFailed := m.rateFailed + 1 }
  | .error _, m => { m with rateFailed := m.rateFailed + 1 }

def dispatchPool : PoolConfig JoinResult DispatchMetrics where
  limit := MAX_CONCURRENT_POSTS
  attempt m := { m with attempted := m.attempted + 1 }
  count := countOutcome

def ratePool : PoolConfig JoinResult DispatchMetrics where
  limit := MAX_CONCURRENT_POSTS
  attempt m := { m with rateAttempted := m.rateAttempted + 1 }
  count := countRateOutcome

/-- The loops behind the query.
mirrors crates/indexer/src/alerts.rs:347-397 -/
def dispatchOnce (metrics : DispatchMetrics) (pending : List AlertMatch) :
    LTS (Pool AlertMatch JoinResult DispatchMetrics) (PoolLabel JoinResult) :=
  poolOf dispatchPool metrics pending

/-- mirrors crates/indexer/src/alerts.rs:487-524 -/
def dispatchRateOnce (metrics : DispatchMetrics) (pending : List RateAlertMatch) :
    LTS (Pool RateAlertMatch JoinResult DispatchMetrics) (PoolLabel JoinResult) :=
  poolOf ratePool metrics pending

def DispatchMetrics.settled (m : DispatchMetrics) : Nat :=
  m.delivered + m.failed + m.unsafeUrlSkipped + m.claimSkipped

def DispatchMetrics.rateSettled (m : DispatchMetrics) : Nat := m.rateDelivered + m.rateFailed

/-! ## One result, one counter -/

theorem countOutcome_spec (r : JoinResult) (m : DispatchMetrics) :
    (countOutcome r m).settled = m.settled + 1 ∧ (countOutcome r m).attempted = m.attempted ∧
      (countOutcome r m).rateAttempted = m.rateAttempted ∧
      (countOutcome r m).rateSettled = m.rateSettled := by
  rcases r with e | e | outcome
  · exact ⟨by simp only [countOutcome, DispatchMetrics.settled]; omega, rfl, rfl, rfl⟩
  · exact ⟨by simp only [countOutcome, DispatchMetrics.settled]; omega, rfl, rfl, rfl⟩
  · cases outcome <;>
      exact ⟨by simp only [countOutcome, DispatchMetrics.settled]; omega, rfl, rfl, rfl⟩

theorem countRateOutcome_spec (r : JoinResult) (m : DispatchMetrics) :
    (countRateOutcome r m).rateSettled = m.rateSettled + 1 ∧
      (countRateOutcome r m).rateAttempted = m.rateAttempted ∧
      (countRateOutcome r m).attempted = m.attempted ∧ (countRateOutcome r m).settled = m.settled := by
  rcases r with e | e | outcome
  · exact ⟨by simp only [countRateOutcome, DispatchMetrics.rateSettled]; omega, rfl, rfl, rfl⟩
  · exact ⟨by simp only [countRateOutcome, DispatchMetrics.rateSettled]; omega, rfl, rfl, rfl⟩
  · cases outcome <;>
      exact ⟨by simp only [countRateOutcome, DispatchMetrics.rateSettled]; omega, rfl, rfl, rfl⟩

theorem dispatchPool_conserves (m : DispatchMetrics) (pending : List AlertMatch) :
    Conserves dispatchPool DispatchMetrics.attempted DispatchMetrics.settled m pending :=
  pool_conserves dispatchPool (by decide) (fun _ => ⟨rfl, rfl⟩)
    (fun r m => ⟨(countOutcome_spec r m).2.1, (countOutcome_spec r m).1⟩) m pending

theorem ratePool_conserves (m : DispatchMetrics) (pending : List RateAlertMatch) :
    Conserves ratePool DispatchMetrics.rateAttempted DispatchMetrics.rateSettled m pending :=
  pool_conserves ratePool (by decide) (fun _ => ⟨rfl, rfl⟩)
    (fun r m => ⟨(countRateOutcome_spec r m).2.1, (countRateOutcome_spec r m).1⟩) m pending

/-! ## The loop -/

def Balanced (m : DispatchMetrics) : Prop :=
  m.attempted = m.settled ∧ m.rateAttempted = m.rateSettled

section Cycles
variable {m : DispatchMetrics}

theorem dispatchOnce_balanced (hm : Balanced m) {pending : List AlertMatch}
    {s : Pool AlertMatch JoinResult DispatchMetrics} (hr : (dispatchOnce m pending).Reachable s)
    (hret : s.pc = .returned) : Balanced s.metrics := by
  obtain ⟨-, -, htried, hsettled⟩ := (dispatchPool_conserves m pending).returned s hr hret
  have hrate := pool_tally (f := DispatchMetrics.rateAttempted) (a := 0) (b := fun _ => 0) (fun _ => rfl)
    (fun r m => (countOutcome_spec r m).2.2.1) hr
  have hrate' := pool_tally (f := DispatchMetrics.rateSettled) (a := 0) (b := fun _ => 0) (fun _ => rfl)
    (fun r m => (countOutcome_spec r m).2.2.2) hr
  simp only [Nat.mul_zero, Nat.add_zero, List.map_const', List.sum_replicate, smul_eq_mul] at hrate hrate'
  exact ⟨by rw [htried, hsettled, hm.1], by rw [hrate, hrate', hm.2]⟩

theorem dispatchRateOnce_balanced (hm : Balanced m) {pending : List RateAlertMatch}
    {s : Pool RateAlertMatch JoinResult DispatchMetrics} (hr : (dispatchRateOnce m pending).Reachable s)
    (hret : s.pc = .returned) : Balanced s.metrics := by
  obtain ⟨-, -, htried, hsettled⟩ := (ratePool_conserves m pending).returned s hr hret
  have hevent := pool_tally (f := DispatchMetrics.attempted) (a := 0) (b := fun _ => 0) (fun _ => rfl)
    (fun r m => (countRateOutcome_spec r m).2.2.1) hr
  have hevent' := pool_tally (f := DispatchMetrics.settled) (a := 0) (b := fun _ => 0) (fun _ => rfl)
    (fun r m => (countRateOutcome_spec r m).2.2.2) hr
  simp only [Nat.mul_zero, Nat.add_zero, List.map_const', List.sum_replicate, smul_eq_mul] at hevent hevent'
  exact ⟨by rw [hevent, hevent', hm.1], by rw [htried, hsettled, hm.2]⟩

/-- A cycle with the alerts its two queries return.
mirrors crates/indexer/src/alerts.rs:540-545 -/
def dispatchLoop : LTS DispatchMetrics (List AlertMatch × List RateAlertMatch) where
  init m := m = .default
  step m l m' := ∃ s s', (dispatchOnce { m with cycles := m.cycles + 1 } l.1).Reachable s ∧
    s.pc = .returned ∧ (dispatchRateOnce s.metrics l.2).Reachable s' ∧ s'.pc = .returned ∧
    m' = s'.metrics

theorem metrics_balanced (hr : dispatchLoop.Reachable m) : Balanced m := by
  refine LTS.Inductive.reachable (T := dispatchLoop) ⟨?_, ?_⟩ m hr
  · rintro m rfl
    exact ⟨rfl, rfl⟩
  · rintro m l m' hm ⟨s, s', hs, hret, hs', hret', rfl⟩
    exact dispatchRateOnce_balanced (dispatchOnce_balanced (m := { m with cycles := m.cycles + 1 }) hm hs hret)
      hs' hret'

end Cycles

/-- **Each alert is tried and counted once.** Whatever the outcomes are and in whatever order the
tasks finish, a cycle spawns its alerts in order with at most ten tasks alive, and returns when
all have finished, with as many attempts and as many outcomes more as there were alerts. -/
theorem dispatch_conserved (m : DispatchMetrics) (pending : List AlertMatch)
    (ratePending : List RateAlertMatch) :
    Conserves dispatchPool DispatchMetrics.attempted
        (fun m => m.delivered + m.failed + m.unsafeUrlSkipped + m.claimSkipped) m pending ∧
      Conserves ratePool DispatchMetrics.rateAttempted (fun m => m.rateDelivered + m.rateFailed) m
        ratePending :=
  ⟨dispatchPool_conserves m pending, ratePool_conserves m ratePending⟩

-- a task that panics is counted, and the next alert takes its place
example (alert : AlertMatch) :
    (LTS.exec (poolStep { dispatchPool with limit := 1 }) (.start .default [alert, alert])
      [.spawn, .primed, .finish 0 (.error .panicked), .join 0, .finish 0 (.ok (.ok .delivered)), .join 0,
        .stop]).map (fun s => (s.metrics.attempted, s.metrics.failed, s.metrics.delivered)) =
    some (2, 1, 1) := rfl

end Amarillo.L4
