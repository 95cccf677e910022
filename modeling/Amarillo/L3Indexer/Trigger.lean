import Amarillo.Core.History
import Amarillo.Core.Tally
import Amarillo.L3Indexer.Coverage

/-!
# What wakes and what stops the follow loop (`indexer/src/worker.rs`)

`Follow` has the loop without its waits and its cancellation; here both are put round it.
After a cycle the loop looks at the cancel flag, which a task sets once Ctrl-C has come, and
then waits: for the poll interval, or, in subscribe mode, for a tick of the channel that
another task fills, one for each head that the node announces. The channel has room for one
tick; the task waits with the next one in hand. When the task has ended and the channel is
empty the loop falls back to polling. The wait has a listener for Ctrl-C of its own, which
does not hear what came before the wait.

A `Driver` is a process from its start on. `seen` and `served` count the announced heads
that the task has got, and those it had got when the loop last asked the node for its head;
no step reads them.

* `driverStep_follow`: a step of the driver is a step of `Follow` or leaves it alone.
* `wakeups_kept`: so a driver is a follow process, and whenever it waits for a tick with none
  on the way it has asked for the head since the last announcement, and the task is alive.
* `graceful_stop`: once the flag is set no chunk is begun, one may be finished; at most one
  wait is ended; and the next look at the flag ends the process.
-/
namespace Amarillo.L3
open Amarillo.Core Amarillo.L1 Amarillo.L2

/-- mirrors crates/indexer/src/worker.rs:839-848 -/
inductive TriggerMode where
  | polling
  | subscribe (url : String)
  deriving DecidableEq, Repr

/-- The task of the subscription. `holding`: it waits for room for a tick. -/
inductive Sender where
  | listening
  | holding
  | gone
  deriving DecidableEq, Repr

/-- The channel of ticks, and the task at its other end. -/
structure Ticks where
  buffered : Bool
  sender : Sender
  deriving DecidableEq, Repr

/-- `closing`: the cycle is done and the flag not yet looked at. -/
inductive DriverPc where
  | running
  | closing
  | waiting
  | ended
  deriving DecidableEq, Repr

structure Driver where
  loop : Follow
  pc : DriverPc
  ticks : Option Ticks
  signalled : Bool
  cancel : Bool
  /-- a Ctrl-C since the wait began -/
  interrupt : Bool
  seen : Nat
  served : Nat

/-- mirrors crates/indexer/src/worker.rs:128-131 -/
def TriggerMode.ticks : TriggerMode → Option Ticks
  | .polling => none
  | .subscribe _ => some ⟨false, .listening⟩

/-- A process whose `follow` has just begun. -/
def Driver.start (loop : Follow) (mode : TriggerMode) : Driver where
  loop := loop
  pc := .running
  ticks := mode.ticks
  signalled := false
  cancel := false
  interrupt := false
  seen := 0
  served := 0

inductive DriverLabel where
  | loop (l : FollowLabel)
  | check
  | tick
  | closed
  | timer
  | interrupted
  | notify
  | push
  | streamEnd
  | signal
  | watch

section System
variable (net : Network) (R : Runtime) (abi : Abi)

/-- The cycle is done when it would look for forks anew, except after a rollback. -/
def FollowPc.resumed : FollowPc → DriverPc
  | .stopped => .ended
  | .checking => .closing
  | _ => .running

/-- After a step of the cycle. -/
def Driver.advance (d : Driver) (loop : Follow) : Driver := { d with loop := loop, pc := loop.pc.resumed }

/-- Before a chunk `index_range` looks at the flag; it does not once the range is done.
mirrors crates/indexer/src/worker.rs:66-77 -/
def chunkOrCancel (d : Driver) : Option Driver :=
  match d.loop.pc with
  | .chunking _ next last =>
    if d.loop.config.batchSize ≠ 0 ∧ next ≤ last ∧ d.cancel = true then some { d with pc := .closing }
    else (followStep net R abi d.loop .chunk).map d.advance
  | _ => none

/-- A step of the cycle, of a task, or of the chain.
mirrors crates/indexer/src/worker.rs:133-184 -/
def loopStep (d : Driver) : FollowLabel → Option Driver
  | .reorg chain => (followStep net R abi d.loop (.reorg chain)).map fun loop => { d with loop := loop }
  | .start _ => none
  | .stop => some { d with loop := { d.loop with pc := .stopped }, pc := .ended }
  | .rollback =>
    if d.pc = .running then (followStep net R abi d.loop .rollback).map fun loop =>
      { d with loop := loop, pc := if loop.pc = .stopped then .ended else .running }
    else none
  | .head n =>
    if d.pc = .running then (followStep net R abi d.loop (.head n)).map fun loop =>
      { d with loop := loop, served := d.seen }
    else none
  | .chunk => if d.pc = .running then chunkOrCancel net R abi d else none
  | l => if d.pc = .running then (followStep net R abi d.loop l).map d.advance else none

def driverStep (d : Driver) : DriverLabel → Option Driver
  | .loop l => loopStep net R abi d l
  -- mirrors crates/indexer/src/worker.rs:186-190
  | .check =>
    if d.pc ≠ .closing then none
    else if d.cancel then some { d with loop := { d.loop with pc := .stopped }, pc := .ended }
    else some { d with pc := .waiting, interrupt := false }
  -- mirrors crates/indexer/src/worker.rs:213-241
  | .tick =>
    match d.pc, d.ticks with
    | .waiting, some ⟨true, sender⟩ => some { d with pc := .running, ticks := some ⟨false, sender⟩ }
    | _, _ => none
  | .closed =>
    match d.pc, d.ticks with
    | .waiting, some ⟨false, .gone⟩ => some { d with pc := .running, ticks := none }
    | _, _ => none
  | .timer =>
    match d.pc, d.ticks with
    | .waiting, none => some { d with pc := .running }
    | _, _ => none
  | .interrupted =>
    if d.pc = .waiting ∧ d.interrupt = true then
      some { d with loop := { d.loop with pc := .stopped }, pc := .ended }
    else none
  -- mirrors crates/indexer/src/worker.rs:898-916
  | .notify =>
    match d.ticks with
    | some ⟨b, .listening⟩ => some { d with ticks := some ⟨b, .holding⟩, seen := d.seen + 1 }
    | _ => none
  | .push =>
    match d.ticks with
    | some ⟨false, .holding⟩ => some { d with ticks := some ⟨true, .listening⟩ }
    | _ => none
  | .streamEnd =>
    match d.ticks with
    | some ⟨b, .listening⟩ => some { d with ticks := some ⟨b, .gone⟩ }
    | _ => none
  | .signal => some { d with signalled := true, interrupt := true }
  -- mirrors crates/indexer/src/worker.rs:118-124
  | .watch => if d.signalled then some { d with cancel := true } else none

/-- Processes of the follow mode, each on what earlier ones left. -/
def driver (Init : Db → Prop) : LTS Driver DriverLabel :=
  .ofFn (fun d => ∃ s config loop mode, (follow net R abi Init).Reachable s ∧
    followStep net R abi s (.start config) = some loop ∧ d = Driver.start loop mode)
    (driverStep net R abi)

end System

/-! ## Where the cycle is -/

/-- What a step of `Follow` does to where the cycle is. -/
inductive PcStep : FollowPc → FollowLabel → FollowPc → Prop where
  | reorg (pc : FollowPc) (chain : Chain) : PcStep pc (.reorg chain) pc
  | start (config : FollowConfig) : PcStep .stopped (.start config) .checking
  | fork (f : Nat) (hashAt : Nat → Option String) : PcStep .checking (.detect hashAt) (.rolling f)
  | noFork (hashAt : Nat → Option String) : PcStep .checking (.detect hashAt) .polling
  | rollback (f : Nat) : PcStep (.rolling f) .rollback .checking
  | head (n : Nat) : PcStep .polling (.head n) (.planning n)
  | plan (n first last : Nat) : PcStep (.planning n) .plan (.chunking first first last)
  | idle (n : Nat) : PcStep (.planning n) .plan .checking
  | chunk (first next stop last : Nat) (tasks : List Task) :
    PcStep (.chunking first next last) .chunk (.working first next stop last tasks)
  | done (first next last : Nat) : PcStep (.chunking first next last) .chunk .checking
  | fetch (first next stop last i : Nat) (a : Answers) (tasks tasks' : List Task) :
    PcStep (.working first next stop last tasks) (.fetch i a) (.working first next stop last tasks')
  | exec (first next stop last i : Nat) (env : Env) (tasks tasks' : List Task) :
    PcStep (.working first next stop last tasks) (.exec i env) (.working first next stop last tasks')
  | join (first next stop last : Nat) (tasks : List Task) :
    PcStep (.working first next stop last tasks) .join (.committing first next stop last)
  | commit (first next next' stop last : Nat) :
    PcStep (.committing first next stop last) .commit (.chunking first next' last)
  | fail (pc : FollowPc) (l : FollowLabel) (hl : l ≠ .commit) : PcStep pc l .stopped

section Steps
variable {net : Network} {R : Runtime} {abi : Abi}

theorem followStep_pc {s s' : Follow} {l : FollowLabel} (h : followStep net R abi s l = some s') :
    PcStep s.pc l s'.pc := by
  cases l with
  | reorg chain =>
    simp only [followStep] at h
    split at h <;> cases h
    exact .reorg _ _
  | start config =>
    simp only [followStep] at h
    split at h <;> rename_i hpc <;> cases h
    exact hpc ▸ .start config
  | stop =>
    cases h
    exact .fail _ _ (by simp)
  | detect hashAt =>
    simp only [followStep, detectStep] at h
    split at h
    · rename_i hpc
      rw [hpc]
      split at h <;> cases h
      · exact .fork _ _
      · exact .noFork _
    · cases h
  | rollback =>
    simp only [followStep, rollbackStep] at h
    split at h
    · rename_i hpc
      rw [hpc]
      split at h <;> cases h
      · exact .rollback _
      · exact .fail _ _ (by simp)
    · cases h
  | head n =>
    simp only [followStep] at h
    split at h <;> rename_i hpc <;> cases h
    exact hpc ▸ .head n
  | plan =>
    simp only [followStep, planStep] at h
    split at h
    · rename_i hpc
      rw [hpc]
      split at h <;> cases h
      · exact .plan _ _ _
      · exact .idle _
    · cases h
  | chunk =>
    simp only [followStep, chunkStep] at h
    split at h
    · rename_i hpc
      rw [hpc]
      split_ifs at h <;> cases h
      · exact .fail _ _ (by simp)
      · exact .done _ _ _
      · exact .chunk _ _ _ _ _
    · cases h
  | fetch i a =>
    simp only [followStep, fetchStep] at h
    split at h
    · rename_i hpc
      rw [hpc]
      split at h
      · split at h <;> cases h
        exact .fetch _ _ _ _ _ _ _ _
      · cases h
    · cases h
  | exec i env =>
    simp only [followStep, execStep] at h
    split at h
    · rename_i hpc
      rw [hpc]
      split at h
      · split at h <;> cases h
        · exact .exec _ _ _ _ _ _ _ _
        · exact .fail _ _ (by simp)
      · cases h
    · cases h
  | join =>
    simp only [followStep, joinStep] at h
    split at h
    · rename_i hpc
      rw [hpc]
      split at h <;> cases h
      exact .join _ _ _ _ _
    · cases h
  | commit =>
    simp only [followStep, commitStep] at h
    split at h <;> rename_i hpc <;> cases h
    exact hpc ▸ .commit _ _ _ _ _

/-- A step of the cycle is one of `Follow`, unless the flag stops the range. -/
theorem loopStep_follow {d d' : Driver} {l : FollowLabel} (h : loopStep net R abi d l = some d') :
    d'.loop = d.loop ∨ followStep net R abi d.loop l = some d'.loop := by
  have hmap {f : Follow → Driver} (hf : ∀ s, (f s).loop = s)
      (h : (followStep net R abi d.loop l).map f = some d') :
      followStep net R abi d.loop l = some d'.loop := by
    obtain ⟨s, hs, rfl⟩ := Option.map_eq_some_iff.mp h
    rw [hf, hs]
  cases l with
  | start config => cases h
  | stop =>
    cases h
    exact .inr rfl
  | reorg chain => exact .inr (hmap (fun _ => rfl) h)
  | rollback | head n | detect hashAt | plan | fetch i a | exec i env | join | commit =>
    simp only [loopStep] at h
    split at h
    · exact .inr (hmap (fun _ => rfl) h)
    · cases h
  | chunk =>
    simp only [loopStep, chunkOrCancel] at h
    split at h
    · split at h
      · split at h
        · cases h
          exact .inl rfl
        · exact .inr (hmap (fun _ => rfl) h)
      · cases h
    · cases h

theorem driverStep_follow {d d' : Driver} {l : DriverLabel} (h : driverStep net R abi d l = some d') :
    d'.loop = d.loop ∨ ∃ k, followStep net R abi d.loop k = some d'.loop := by
  have hstop : followStep net R abi d.loop .stop = some { d.loop with pc := .stopped } := rfl
  cases l with
  | loop l => exact (loopStep_follow h).imp_right fun h => ⟨l, h⟩
  | check =>
    simp only [driverStep] at h
    split_ifs at h <;> cases h
    · exact .inr ⟨.stop, hstop⟩
    · exact .inl rfl
  | interrupted =>
    simp only [driverStep] at h
    split_ifs at h
    cases h
    exact .inr ⟨.stop, hstop⟩
  | tick | closed | timer | notify | push | streamEnd =>
    left
    simp only [driverStep] at h
    split at h <;> cases h
    rfl
  | signal =>
    cases h
    exact .inl rfl
  | watch =>
    simp only [driverStep] at h
    split_ifs at h
    cases h
    exact .inl rfl

/-! ## Wake-ups -/

/-- The head has been asked for in this cycle. -/
def FollowPc.queried : FollowPc → Prop
  | .planning _ | .chunking .. | .working .. | .committing .. => True
  | _ => False

/-- The head has been asked for since the last wait. -/
def queriedAt : DriverPc → FollowPc → Prop
  | .running, p => p.queried
  | .closing, _ | .waiting, _ => True
  | .ended, _ => False

/-- Once the head has been asked for, an announcement that came later is on its way. -/
def Awake (d : Driver) : Prop :=
  queriedAt d.pc d.loop.pc →
    ∀ t ∈ d.ticks, d.served = d.seen ∨ t.buffered = true ∨ t.sender = .holding

theorem queried_resumed {p q : FollowPc} {l : FollowLabel} (h : PcStep p l q)
    (hl : l = .plan ∨ l = .chunk ∨ l = .join ∨ l = .commit ∨ (∃ hashAt, l = .detect hashAt) ∨
      (∃ i a, l = .fetch i a) ∨ ∃ i env, l = .exec i env) (hq : queriedAt q.resumed q) : p.queried := by
  cases h with
  | fork | noFork | fail => exact hq.elim
  | plan | idle | chunk | done | fetch | exec | join | commit => trivial
  | reorg | start | rollback | head => simp at hl

theorem awake_loop {d d' : Driver} {l : FollowLabel} (h : Awake d)
    (hstep : loopStep net R abi d l = some d') : Awake d' := by
  have hadvance {s : Follow} (hrun : d.pc = .running) (hs : followStep net R abi d.loop l = some s)
      (hl : l = .plan ∨ l = .chunk ∨ l = .join ∨ l = .commit ∨ (∃ hashAt, l = .detect hashAt) ∨
        (∃ i a, l = .fetch i a) ∨ ∃ i env, l = .exec i env) : Awake (d.advance s) := by
    intro hq
    have hbefore : queriedAt d.pc d.loop.pc := by
      rw [hrun]
      exact queried_resumed (followStep_pc hs) hl hq
    exact h hbefore
  cases l with
  | start config => cases hstep
  | stop =>
    cases hstep
    exact False.elim
  | reorg chain =>
    obtain ⟨s, hs, rfl⟩ := Option.map_eq_some_iff.mp hstep
    simp only [followStep] at hs
    split at hs <;> cases hs
    exact h
  | rollback =>
    simp only [loopStep] at hstep
    split at hstep
    · obtain ⟨s, hs, rfl⟩ := Option.map_eq_some_iff.mp hstep
      have hpc := followStep_pc hs
      intro hq
      dsimp only at hq
      generalize d.loop.pc = p at hpc
      generalize s.pc = q at hpc hq
      cases hpc <;> exact hq.elim
    · cases hstep
  | head n =>
    simp only [loopStep] at hstep
    split at hstep
    · obtain ⟨s, -, rfl⟩ := Option.map_eq_some_iff.mp hstep
      exact fun _ t _ => .inl rfl
    · cases hstep
  | chunk =>
    simp only [loopStep, chunkOrCancel] at hstep
    split at hstep
    · rename_i hrun
      split at hstep
      · rename_i hpc
        split at hstep
        · cases hstep
          refine fun _ => h ?_
          rw [hrun, hpc]
          trivial
        · obtain ⟨s, hs, rfl⟩ := Option.map_eq_some_iff.mp hstep
          exact hadvance hrun hs (by simp)
      · cases hstep
    · cases hstep
  | detect hashAt | plan | fetch i a | exec i env | join | commit =>
    simp only [loopStep] at hstep
    split at hstep
    · rename_i hrun
      obtain ⟨s, hs, rfl⟩ := Option.map_eq_some_iff.mp hstep
      exact hadvance hrun hs (by simp)
    · cases hstep

/-- A wait begins where the next cycle would, unless the flag has stopped the range. -/
structure Settled (d : Driver) : Prop where
  closing : d.pc = .closing → d.loop.pc = .checking ∨ d.cancel = true
  waiting : d.pc = .waiting → d.loop.pc = .checking

theorem settled_of_not {d : Driver} (hc : d.pc ≠ .closing) (hw : d.pc ≠ .waiting) : Settled d :=
  ⟨fun h => absurd h hc, fun h => absurd h hw⟩

theorem settled_start (loop : Follow) (mode : TriggerMode) : Settled (Driver.start loop mode) :=
  settled_of_not (by simp [Driver.start]) (by simp [Driver.start])

theorem settled_advance (d : Driver) (s : Follow) : Settled (d.advance s) := by
  refine ⟨fun h => .inl ?_, fun h => ?_⟩ <;>
    (simp only [Driver.advance] at h ⊢; unfold FollowPc.resumed at h; split at h <;> simp_all)

theorem settled_loop {d d' : Driver} {l : FollowLabel} (h : Settled d)
    (hstep : loopStep net R abi d l = some d') : Settled d' := by
  cases l with
  | start config => cases hstep
  | stop =>
    cases hstep
    exact settled_of_not (by simp) (by simp)
  | reorg chain =>
    obtain ⟨s, hs, rfl⟩ := Option.map_eq_some_iff.mp hstep
    simp only [followStep] at hs
    split at hs <;> cases hs
    exact ⟨h.closing, h.waiting⟩
  | rollback =>
    simp only [loopStep] at hstep
    split at hstep
    · obtain ⟨s, -, rfl⟩ := Option.map_eq_some_iff.mp hstep
      refine settled_of_not ?_ ?_ <;> (dsimp only; split <;> simp)
    · cases hstep
  | head n =>
    simp only [loopStep] at hstep
    split at hstep
    · rename_i hrun
      obtain ⟨s, -, rfl⟩ := Option.map_eq_some_iff.mp hstep
      exact settled_of_not (by simp [hrun]) (by simp [hrun])
    · cases hstep
  | chunk =>
    simp only [loopStep, chunkOrCancel] at hstep
    split at hstep
    · split at hstep
      · split at hstep
        · rename_i hcancel
          cases hstep
          exact ⟨fun _ => .inr hcancel.2.2, fun hpc => absurd hpc (by simp)⟩
        · obtain ⟨s, -, rfl⟩ := Option.map_eq_some_iff.mp hstep
          exact settled_advance d s
      · cases hstep
    · cases hstep
  | detect hashAt | plan | fetch i a | exec i env | join | commit =>
    simp only [loopStep] at hstep
    split at hstep
    · obtain ⟨s, -, rfl⟩ := Option.map_eq_some_iff.mp hstep
      exact settled_advance d s
    · cases hstep

theorem settled_step {d d' : Driver} {l : DriverLabel} (h : Settled d)
    (hstep : driverStep net R abi d l = some d') : Settled d' := by
  cases l with
  | loop l => exact settled_loop h hstep
  | check =>
    simp only [driverStep] at hstep
    split at hstep
    · cases hstep
    · rename_i hclosing
      split at hstep <;> rename_i hcancel <;> cases hstep
      · exact settled_of_not (by simp) (by simp)
      · refine ⟨fun hpc => absurd hpc (by simp), fun _ => ?_⟩
        exact (h.closing (not_not.mp hclosing)).resolve_right hcancel
  | interrupted =>
    simp only [driverStep] at hstep
    split_ifs at hstep
    cases hstep
    exact settled_of_not (by simp) (by simp)
  | tick | closed | timer =>
    simp only [driverStep] at hstep
    split at hstep <;> cases hstep
    exact settled_of_not (by simp) (by simp)
  | notify | push | streamEnd =>
    simp only [driverStep] at hstep
    split at hstep <;> cases hstep
    exact ⟨h.closing, h.waiting⟩
  | signal =>
    cases hstep
    exact ⟨h.closing, h.waiting⟩
  | watch =>
    simp only [driverStep] at hstep
    split_ifs at hstep
    cases hstep
    exact ⟨fun _ => .inr rfl, h.waiting⟩

theorem awake_step {d d' : Driver} {l : DriverLabel} (h : Awake d) (hset : Settled d)
    (hstep : driverStep net R abi d l = some d') : Awake d' := by
  cases l with
  | loop l => exact awake_loop h hstep
  | check =>
    simp only [driverStep] at hstep
    split at hstep
    · cases hstep
    · rename_i hclosing
      split at hstep <;> cases hstep
      · exact False.elim
      · refine fun _ => h ?_
        rw [not_not.mp hclosing]
        trivial
  | tick | closed | timer =>
    simp only [driverStep] at hstep
    split at hstep <;> rename_i hwait _ <;> cases hstep
    intro hq
    dsimp only at hq
    rw [hset.waiting hwait] at hq
    exact hq.elim
  | interrupted =>
    simp only [driverStep] at hstep
    split_ifs at hstep
    cases hstep
    exact False.elim
  | notify =>
    simp only [driverStep] at hstep
    split at hstep <;> cases hstep
    exact fun _ t ht => .inr (.inr (Option.some.inj ht ▸ rfl))
  | push =>
    simp only [driverStep] at hstep
    split at hstep <;> cases hstep
    exact fun _ t ht => .inr (.inl (Option.some.inj ht ▸ rfl))
  | streamEnd =>
    simp only [driverStep] at hstep
    split at hstep <;> rename_i hticks <;> cases hstep
    intro hq t ht
    obtain rfl := Option.some.inj ht
    exact (h hq _ hticks).imp_right fun hkept => hkept.imp_right fun he => by cases he
  | signal =>
    cases hstep
    exact h
  | watch =>
    simp only [driverStep] at hstep
    split_ifs at hstep
    cases hstep
    exact h

end Steps

/-! ## Processes -/

section Runs
variable {net : Network} {R : Runtime} {abi : Abi} {Init : Db → Prop}

/-- Where the announcements stand when the loop waits. -/
theorem Awake.waiting {d : Driver} (h : Awake d) (hwait : d.pc = .waiting) :
    (∃ l ∈ [DriverLabel.tick, .closed, .timer, .push], (driverStep net R abi d l).isSome = true) ∨
      d.ticks = some ⟨false, .listening⟩ ∧ d.served = d.seen := by
  cases hticks : d.ticks with
  | none => exact .inl ⟨.timer, by simp, by simp [driverStep, hwait, hticks]⟩
  | some t =>
    obtain ⟨buffered, sender⟩ := t
    cases buffered with
    | true => exact .inl ⟨.tick, by simp, by simp [driverStep, hwait, hticks]⟩
    | false =>
      cases sender with
      | holding => exact .inl ⟨.push, by simp, by simp [driverStep, hticks]⟩
      | gone => exact .inl ⟨.closed, by simp, by simp [driverStep, hwait, hticks]⟩
      | listening =>
        have hserved := h (by rw [hwait]; trivial) _ hticks
        exact .inr ⟨rfl, by simpa using hserved⟩

/-- **No wake-up is lost.** For every interleaving of the loop, the subscription's task, the
chain and Ctrl-C: what the process does to the database is what `Follow` does; and when it
waits, either something can end the wait or is on its way to (a tick, the end of the
channel, the poll interval, a tick that the task still holds), or the task is alive and the
head was asked for after the last announcement. -/
theorem wakeups_kept {d : Driver} (h : (driver net R abi Init).Reachable d) :
    (follow net R abi Init).Reachable d.loop ∧
    (d.pc = .waiting →
      (∃ l ∈ [DriverLabel.tick, .closed, .timer, .push], (driverStep net R abi d l).isSome = true) ∨
        d.ticks = some ⟨false, .listening⟩ ∧ d.served = d.seen) := by
  have key : (driver net R abi Init).Inductive fun d =>
      (follow net R abi Init).Reachable d.loop ∧ Settled d ∧ Awake d := by
    constructor
    · rintro _ ⟨s, config, loop, mode, hs, hstart, rfl⟩
      exact ⟨hs.run (.cons hstart (.nil _)), settled_start loop mode, fun _ _ _ => .inl rfl⟩
    · rintro d l d' ⟨hfollow, hset, hawake⟩ hstep
      refine ⟨?_, settled_step hset hstep, awake_step hawake hset hstep⟩
      rcases driverStep_follow hstep with hsame | ⟨k, hk⟩
      · exact hsame ▸ hfollow
      · exact hfollow.run (.cons hk (.nil _))
  obtain ⟨hfollow, -, hawake⟩ := key.reachable d h
  exact ⟨hfollow, hawake.waiting⟩

/-! ## After Ctrl-C -/

/-- One chunk may still be finished. -/
def Driver.chunksLeft (d : Driver) : Nat :=
  match d.pc, d.loop.pc with
  | .running, .working .. | .running, .committing .. => 1
  | _, _ => 0

/-- One wait may still be ended. -/
def Driver.wakesLeft (d : Driver) : Nat := if d.pc = .waiting then 1 else 0

def DriverLabel.commits : DriverLabel → Nat
  | .loop .commit => 1
  | _ => 0

def DriverLabel.wakes : DriverLabel → Nat
  | .tick | .closed | .timer => 1
  | _ => 0

theorem settled_inductive : (driver net R abi Init).Inductive Settled where
  init := by
    rintro _ ⟨-, -, loop, mode, -, -, rfl⟩
    exact settled_start loop mode
  step _ _ _ := settled_step

/-- What a step does once the flag is set. -/
structure Stopping (d : Driver) (l : DriverLabel) (d' : Driver) : Prop where
  cancel : d'.cancel = true
  chunks : d'.chunksLeft + l.commits ≤ d.chunksLeft
  wakes : d'.wakesLeft + l.wakes ≤ d.wakesLeft
  ended : d.pc = .ended ∨ l = .check → d'.pc = .ended

theorem chunksLeft_eq_zero {d : Driver} (h : d.pc ≠ .running) : d.chunksLeft = 0 := by
  simp only [Driver.chunksLeft]
  split <;> first | rfl | exact absurd ‹d.pc = .running› h

theorem wakesLeft_eq_zero {d : Driver} (h : d.pc ≠ .waiting) : d.wakesLeft = 0 := if_neg h

theorem resumed_ne_waiting (p : FollowPc) : p.resumed ≠ .waiting := by
  cases p <;> simp [FollowPc.resumed]

/-- What the loop, which runs, does on its own. -/
theorem stopping_of_running {d d' : Driver} {l : FollowLabel} (hrun : d.pc = .running)
    (hcancel : d'.cancel = true) (hwait : d'.pc ≠ .waiting)
    (hchunks : d'.chunksLeft + (DriverLabel.loop l).commits ≤ d.chunksLeft) :
    Stopping d (.loop l) d' where
  cancel := hcancel
  chunks := hchunks
  wakes := by simp [wakesLeft_eq_zero hwait, DriverLabel.wakes]
  ended := by
    rintro (hended | hcheck)
    · rw [hrun] at hended
      cases hended
    · cases hcheck

/-- No step of the cycle but `chunk` begins one. -/
theorem advance_chunksLeft {d : Driver} {s : Follow} {l : FollowLabel} (hrun : d.pc = .running)
    (h : PcStep d.loop.pc l s.pc) (hl : l ≠ .chunk) :
    (d.advance s).chunksLeft + (DriverLabel.loop l).commits ≤ d.chunksLeft := by
  simp only [Driver.chunksLeft, Driver.advance, hrun]
  generalize d.loop.pc = p at h
  generalize s.pc = q at h
  cases h with
  | chunk => exact absurd rfl hl
  | reorg => cases p <;> simp [FollowPc.resumed, DriverLabel.commits]
  | fail _ _ hcommit =>
    have hnone : (DriverLabel.loop l).commits = 0 := by
      cases l <;> first | rfl | exact absurd rfl hcommit
    simp [FollowPc.resumed, hnone]
  | _ => simp [FollowPc.resumed, DriverLabel.commits]

/-- Before the next chunk the range ends. -/
theorem stopping_chunk {d d' : Driver} (hcancel : d.cancel = true) (hrun : d.pc = .running)
    (hstep : chunkOrCancel net R abi d = some d') : Stopping d (.loop .chunk) d' := by
  have hidle {d' : Driver} (hc : d'.cancel = true) (hpc : d'.pc = .closing ∨ d'.pc = .ended) :
      Stopping d (.loop .chunk) d' := by
    have hne : d'.pc ≠ .running ∧ d'.pc ≠ .waiting := by
      rcases hpc with hpc | hpc <;> simp [hpc]
    refine stopping_of_running hrun hc hne.2 ?_
    rw [chunksLeft_eq_zero hne.1]
    exact Nat.zero_le _
  simp only [chunkOrCancel] at hstep
  split at hstep
  · rename_i first next last hpc
    split at hstep
    · cases hstep
      exact hidle hcancel (.inl rfl)
    · rename_i hrest
      obtain ⟨s, hs, rfl⟩ := Option.map_eq_some_iff.mp hstep
      simp only [followStep, chunkStep, hpc] at hs
      split_ifs at hs with hbatch hlast
      · cases hs
        exact hidle hcancel (.inr rfl)
      · cases hs
        exact hidle hcancel (.inl rfl)
      · exact absurd ⟨hbatch, Nat.not_lt.mp hlast, hcancel⟩ hrest
  · cases hstep

theorem stopping_loop {d d' : Driver} {l : FollowLabel} (hcancel : d.cancel = true)
    (hstep : loopStep net R abi d l = some d') : Stopping d (.loop l) d' := by
  have hadvance {s : Follow} (hrun : d.pc = .running) (hs : followStep net R abi d.loop l = some s)
      (hl : l ≠ .chunk) : Stopping d (.loop l) (d.advance s) :=
    stopping_of_running hrun hcancel (resumed_ne_waiting _)
      (advance_chunksLeft hrun (followStep_pc hs) hl)
  cases l with
  | start config => cases hstep
  | stop =>
    cases hstep
    refine ⟨hcancel, ?_, ?_, fun _ => rfl⟩
    · rw [chunksLeft_eq_zero (by simp)]
      exact Nat.zero_le _
    · rw [wakesLeft_eq_zero (by simp)]
      exact Nat.zero_le _
  | reorg chain =>
    obtain ⟨s, hs, rfl⟩ := Option.map_eq_some_iff.mp hstep
    simp only [followStep] at hs
    split at hs <;> cases hs
    exact ⟨hcancel, Nat.le_refl _, Nat.le_refl _, fun h => h.resolve_right (by simp)⟩
  | rollback =>
    simp only [loopStep] at hstep
    split at hstep
    · rename_i hrun
      obtain ⟨s, hs, rfl⟩ := Option.map_eq_some_iff.mp hstep
      refine stopping_of_running hrun hcancel (by dsimp only; split <;> simp) ?_
      have hpc := followStep_pc hs
      simp only [Driver.chunksLeft]
      generalize d.loop.pc = p at hpc
      generalize s.pc = q at hpc
      cases hpc <;> simp [DriverLabel.commits]
    · cases hstep
  | head n =>
    simp only [loopStep] at hstep
    split at hstep
    · rename_i hrun
      obtain ⟨s, hs, rfl⟩ := Option.map_eq_some_iff.mp hstep
      refine stopping_of_running hrun hcancel (by simp [hrun]) ?_
      have hpc := followStep_pc hs
      simp only [Driver.chunksLeft, hrun]
      generalize d.loop.pc = p at hpc
      generalize s.pc = q at hpc
      cases hpc <;> simp [DriverLabel.commits]
    · cases hstep
  | chunk =>
    simp only [loopStep] at hstep
    split at hstep
    · exact stopping_chunk hcancel ‹_› hstep
    · cases hstep
  | detect hashAt | plan | fetch i a | exec i env | join | commit =>
    simp only [loopStep] at hstep
    split at hstep
    · obtain ⟨s, hs, rfl⟩ := Option.map_eq_some_iff.mp hstep
      exact hadvance ‹_› hs (by simp)
    · cases hstep

theorem stopping_step {d d' : Driver} {l : DriverLabel} (hset : Settled d) (hcancel : d.cancel = true)
    (hstep : driverStep net R abi d l = some d') : Stopping d l d' := by
  have hother {d' : Driver} (hl : l.commits = 0 ∧ l.wakes = 0 ∧ l ≠ .check) (hc : d'.cancel = true)
      (hpc : d'.pc = d.pc) (hloop : d'.loop = d.loop) : Stopping d l d' := by
    obtain ⟨hcommits, hwakes, hcheck⟩ := hl
    refine ⟨hc, ?_, ?_, fun h => hpc.trans (h.resolve_right hcheck)⟩
    · simp [Driver.chunksLeft, hpc, hloop, hcommits]
    · simp [Driver.wakesLeft, hpc, hwakes]
  have hend {d' : Driver} (hl : l.commits = 0 ∧ l.wakes = 0) (hc : d'.cancel = true)
      (hpc : d'.pc = .ended) : Stopping d l d' := by
    refine ⟨hc, ?_, ?_, fun _ => hpc⟩
    · simp [chunksLeft_eq_zero (d := d') (by simp [hpc]), hl.1]
    · simp [wakesLeft_eq_zero (d := d') (by simp [hpc]), hl.2]
  cases l with
  | loop l => exact stopping_loop hcancel hstep
  | check =>
    simp only [driverStep] at hstep
    split_ifs at hstep
    cases hstep
    exact hend ⟨rfl, rfl⟩ hcancel rfl
  | interrupted =>
    simp only [driverStep] at hstep
    split_ifs at hstep
    cases hstep
    exact hend ⟨rfl, rfl⟩ hcancel rfl
  | tick | closed | timer =>
    simp only [driverStep] at hstep
    split at hstep <;> rename_i hwait _ <;> cases hstep
    refine ⟨hcancel, ?_, ?_, ?_⟩
    · simp [Driver.chunksLeft, hset.waiting hwait, DriverLabel.commits]
    · simp [Driver.wakesLeft, hwait, DriverLabel.wakes]
    · simp [hwait]
  | notify | push | streamEnd =>
    simp only [driverStep] at hstep
    split at hstep <;> cases hstep
    exact hother ⟨rfl, rfl, by simp⟩ hcancel rfl rfl
  | signal =>
    cases hstep
    exact hother ⟨rfl, rfl, by simp⟩ hcancel rfl rfl
  | watch =>
    simp only [driverStep] at hstep
    split_ifs at hstep
    cases hstep
    exact hother ⟨rfl, rfl, by simp⟩ rfl rfl rfl

/-- **What Ctrl-C leaves to be done.** From any state of a process whose flag is set, in every
run: the chunk at work may be finished, and no other is begun; a wait may be ended by a tick
or a timer, and no other is begun; and once the loop has looked at the flag after a cycle,
the process is over for good. -/
theorem graceful_stop {d d' : Driver} {ls : List DriverLabel}
    (hd : (driver net R abi Init).Reachable d) (hcancel : d.cancel = true)
    (h : (driver net R abi Init).Run d ls d') :
    d'.chunksLeft + (ls.map DriverLabel.commits).sum ≤ d.chunksLeft ∧
      d'.wakesLeft + (ls.map DriverLabel.wakes).sum ≤ d.wakesLeft ∧
      (.check ∈ ls → d'.pc = .ended) := by
  have hset : Settled d := settled_inductive.reachable d hd
  have hkeep (s : Driver) (l : DriverLabel) (s' : Driver) (hs : Settled s ∧ s.cancel = true)
      (hstep : (driver net R abi Init).step s l s') :
      (Settled s' ∧ s'.cancel = true) ∧ Stopping s l s' :=
    have hstop := stopping_step hs.1 hs.2 hstep
    ⟨⟨settled_step hs.1 hstep, hstop.cancel⟩, hstop⟩
  refine ⟨?_, ?_, ?_⟩
  · exact h.spends (fun s l s' hs hstep =>
      ⟨(hkeep s l s' hs hstep).1, (hkeep s l s' hs hstep).2.chunks⟩) ⟨hset, hcancel⟩
  · exact h.spends (fun s l s' hs hstep =>
      ⟨(hkeep s l s' hs hstep).1, (hkeep s l s' hs hstep).2.wakes⟩) ⟨hset, hcancel⟩
  · intro hcheck
    have hi : Settled d ∧ d.cancel = true := ⟨hset, hcancel⟩
    clear hd hset hcancel
    -- ended is where a check leads to, and nothing leads out of it
    have key : d.pc = .ended ∨ .check ∈ ls := .inr hcheck
    clear hcheck
    induction h with
    | nil s => exact key.resolve_right (by simp)
    | cons hstep _ ih =>
      obtain ⟨hi', hstop⟩ := hkeep _ _ _ hi hstep
      refine ih hi' ?_
      rcases key with hended | hmem
      · exact .inl (hstop.ended (.inl hended))
      · rcases List.mem_cons.mp hmem with rfl | hmem
        · exact .inl (hstop.ended (.inr rfl))
        · exact .inr hmem

end Runs

/-! ## Two processes on `emptyNet` -/

abbrev emptyDriver : Driver → DriverLabel → Option Driver :=
  driverStep emptyNet (.asciiOnly true) wordAbi

/-- A process that subscribes, on a fresh database; chunks are single blocks. -/
def freshDriver : Driver := .start ⟨chainA, Db.empty, ⟨0, 1⟩, none, .checking⟩ (.subscribe "ws://node")

theorem freshDriver_init : (driver emptyNet (.asciiOnly true) wordAbi fun _ => True).init freshDriver :=
  ⟨⟨chainA, Db.empty, ⟨0, 1⟩, none, .stopped⟩, ⟨0, 1⟩, _, .subscribe "ws://node",
    ⟨_, [], ⟨by decide +kernel, trivial, rfl, rfl⟩, .nil _⟩, rfl, rfl⟩

/-- A head is announced after the loop has asked for one; the loop comes to its wait. -/
def announcedRun : Option Driver :=
  LTS.exec emptyDriver freshDriver ((indexOne chainA 1 (blockHash 0xa1)).map .loop ++ [.notify, .check])

def announced : Driver := announcedRun.get (by decide +kernel)

theorem announced_reachable :
    (driver emptyNet (.asciiOnly true) wordAbi fun _ => True).Reachable announced :=
  LTS.reachable_of_exec freshDriver_init (Option.some_get _).symm

theorem wakeups_kept_announced :
    (∃ l ∈ [DriverLabel.tick, .closed, .timer, .push], (emptyDriver announced l).isSome = true) ∨
      announced.ticks = some ⟨false, .listening⟩ ∧ announced.served = announced.seen :=
  (wakeups_kept announced_reachable).2 (by decide +kernel)

/-- The tick comes; of the range 2–4, height 2 is at work when Ctrl-C comes. -/
def interruptedRun : Option Driver :=
  LTS.exec emptyDriver announced ([.push, .tick, .loop (.detect (hashOn chainA)), .loop (.head 4),
    .loop .plan, .loop .chunk, .signal, .watch])

def interrupted : Driver := interruptedRun.get (by decide +kernel)

/-- The chunk is finished, and the range is not gone on with. -/
def lastLabels : List DriverLabel :=
  [.loop (.fetch 0 (answered (blockHash 0xa2))), .loop (.exec 0 liveEnv), .loop .join, .loop .commit,
   .loop .chunk, .check]

def stoppedRun : Option Driver := LTS.exec emptyDriver interrupted lastLabels

def stopped : Driver := stoppedRun.get (by decide +kernel)

theorem graceful_stop_interrupted :
    stopped.chunksLeft + (lastLabels.map DriverLabel.commits).sum ≤ interrupted.chunksLeft ∧
      stopped.pc = .ended := by
  have hreach : (driver emptyNet (.asciiOnly true) wordAbi fun _ => True).Reachable interrupted :=
    announced_reachable.run (LTS.run_of_exec (Option.some_get _).symm)
  obtain ⟨hchunks, -, hended⟩ := graceful_stop hreach (by decide +kernel)
    (LTS.run_of_exec (show stoppedRun = some stopped from (Option.some_get _).symm))
  exact ⟨hchunks, hended (by simp [lastLabels])⟩

end Amarillo.L3
