import Amarillo.Core.LTS
import Amarillo.L3Indexer.Fork
import Amarillo.L3Indexer.Network

/-!
# The follow loop (`WorkerPool::follow`, `index_range`, `process_chunk`)

One process at a time runs the loop: reorg check and rollback, head, range,
chunks, checkpoint. The blocks of a chunk are tasks, each a `processBlock`
program whose statements interleave with those of the others. The system
(`follow`) has a step for each request, each statement and each decision, and

* `reorg` puts another linked chain in the place of the present one,
* `stop` ends the process anywhere (a crash, an error that `?` passes on, or
  Ctrl-C) and leaves the database as it is, `start` runs the next one.

Answers are free where the chain does not fix them: `detect` takes any partial
view of the hashes, `head` any number, and of a fetched block only the block
itself must be the one the chain has at that moment; receipts and traces may be
anything, since they can come from other moments.

`first` is the start of the first range of which a block was stored. No step
reads it.
-/
namespace Amarillo.L3
open Amarillo.Core Amarillo.L1 Amarillo.L2

structure FollowConfig where
  confirmations : Nat
  batchSize : Nat
  deriving DecidableEq, Repr

/-- A task of `process_chunk`; `prog` is what is left once the block is fetched. -/
structure Task where
  height : Nat
  prog : Option Program
  deriving DecidableEq

def Task.done (t : Task) : Prop := t.prog = some ⟨[], .ok⟩

instance (t : Task) : Decidable t.done := inferInstanceAs (Decidable (_ = _))

/-- Where the process is. `start` and `last` are the ends of the range of this
cycle, `next` is the start of the chunk. -/
inductive FollowPc where
  | stopped
  | checking
  | rolling (fork : Nat)
  | polling
  | planning (head : Nat)
  | chunking (start next last : Nat)
  | working (start next chunkEnd last : Nat) (tasks : List Task)
  | committing (start next chunkEnd last : Nat)
  deriving DecidableEq

structure Follow where
  chain : Chain
  db : Db
  config : FollowConfig
  first : Option Nat
  pc : FollowPc

inductive FollowLabel where
  | reorg (chain : Chain)
  | start (config : FollowConfig)
  | stop
  | detect (hashAt : Nat → Option String)
  | rollback
  | head (n : Nat)
  | plan
  | chunk
  | fetch (i : Nat) (a : Answers)
  | exec (i : Nat) (env : Env)
  | join
  | commit

/-- `db` has a row for the height. -/
def Stored (db : Db) (height : Nat) : Prop := (db.blocks.get (asI64 height)).isSome = true

instance (db : Db) (height : Nat) : Decidable (Stored db height) :=
  inferInstanceAs (Decidable (_ = _))

/-- mirrors crates/indexer/src/worker.rs:318-327 -/
def chunkTasks (first last : Nat) : List Task :=
  (List.range' first (last + 1 - first)).map fun height => ⟨height, none⟩

section System
variable (net : Network) (R : Runtime) (abi : Abi)

/-- mirrors crates/indexer/src/worker.rs:140-154 -/
def detectStep (s : Follow) (hashAt : Nat → Option String) : Option Follow :=
  match s.pc with
  | .checking =>
    match detectFork (recentBlocks s.db reorgScanCap) hashAt with
    | some fork => some { s with pc := .rolling fork }
    | none => some { s with pc := .polling }
  | _ => none

def rollbackStep (s : Follow) : Option Follow :=
  match s.pc with
  | .rolling fork =>
    match rollbackFromBlock (asI64 fork) s.db with
    | .ok (db, _) => some { s with db := db, pc := .checking }
    | .error _ => some { s with pc := .stopped }
  | _ => none

/-- mirrors crates/indexer/src/worker.rs:162-182 -/
def planStep (s : Follow) : Option Follow :=
  match s.pc with
  | .planning head =>
    match nextTarget head s.config.confirmations (getLastCheckpoint s.db) with
    | some (start, last) => some
      { s with pc := .chunking start start (capRangeTo start last followCycleBlockCap).2 }
    | none => some { s with pc := .checking }
  | _ => none

/-- The next chunk of the range; after the last one the loop starts over.
`step_by(0)` panics.
mirrors crates/indexer/src/worker.rs:66-77 -/
def chunkStep (s : Follow) : Option Follow :=
  match s.pc with
  | .chunking start next last =>
    if s.config.batchSize = 0 then some { s with pc := .stopped }
    else if last < next then some { s with pc := .checking }
    else
      let chunkEnd := chunkEnd next s.config.batchSize last
      some { s with pc := .working start next chunkEnd last (chunkTasks next chunkEnd) }
  | _ => none

/-- A task has its answers. Its block is the chain's, or could not be had. -/
def fetchStep (s : Follow) (i : Nat) (a : Answers) : Option Follow :=
  match s.pc with
  | .working start next chunkEnd last tasks =>
    match tasks[i]? with
    | some ⟨height, none⟩ =>
      if a.block = none ∨ a.block = (s.chain[height]?).map net.block then some
        { s with
          pc := .working start next chunkEnd last
            (tasks.set i ⟨height, some (processBlock R abi height a)⟩) }
      else none
    | _ => none
  | _ => none

/-- The next statement of a task. A refused one ends the process. -/
def execStep (s : Follow) (i : Nat) (env : Env) : Option Follow :=
  match s.pc with
  | .working start next chunkEnd last tasks =>
    match tasks[i]? with
    | some ⟨height, some ⟨stmt :: stmts, ending⟩⟩ =>
      match exec env stmt s.db with
      | .ok db => some
        { s with
          db := db
          first := if stmt.blockRows.isEmpty then s.first else some (s.first.getD start)
          pc := .working start next chunkEnd last (tasks.set i ⟨height, some ⟨stmts, ending⟩⟩) }
      | .error _ => some { s with pc := .stopped }
    | _ => none
  | _ => none

/-- mirrors crates/indexer/src/worker.rs:329-333 -/
def joinStep (s : Follow) : Option Follow :=
  match s.pc with
  | .working start next chunkEnd last tasks =>
    if ∀ t ∈ tasks, t.done then some { s with pc := .committing start next chunkEnd last } else none
  | _ => none

/-- mirrors crates/indexer/src/worker.rs:79-80 -/
def commitStep (s : Follow) : Option Follow :=
  match s.pc with
  | .committing start next chunkEnd last => some
    { s with
      db := updateCheckpoint (asI64 chunkEnd) s.db
      pc := .chunking start (next + s.config.batchSize) last }
  | _ => none

def followStep (s : Follow) : FollowLabel → Option Follow
  | .reorg chain => if net.Linked chain then some { s with chain := chain } else none
  | .start config =>
    match s.pc with
    | .stopped => some { s with config := config, pc := .checking }
    | _ => none
  | .stop => some { s with pc := .stopped }
  | .detect hashAt => detectStep s hashAt
  | .rollback => rollbackStep s
  | .head n =>
    match s.pc with
    | .polling => some { s with pc := .planning n }
    | _ => none
  | .plan => planStep s
  | .chunk => chunkStep s
  | .fetch i a => fetchStep net R abi s i a
  | .exec i env => execStep s i env
  | .join => joinStep s
  | .commit => commitStep s

/-- Follow processes, one after another, on a database in `Init`. -/
def follow (Init : Db → Prop) : LTS Follow FollowLabel :=
  .ofFn (fun s => net.Linked s.chain ∧ Init s.db ∧ s.first = none ∧ s.pc = .stopped)
    (followStep net R abi)

end System

/-! ## What a step does -/

/-- The tasks at work. -/
def FollowPc.tasks : FollowPc → List Task
  | .working _ _ _ _ tasks => tasks
  | _ => []

/-- What becomes of the database. -/
inductive FollowWrite (s : Follow) : FollowLabel → Db → Prop where
  | kept (l : FollowLabel) : FollowWrite s l s.db
  | exec {i height : Nat} {env : Env} {stmt : Stmt} {stmts : List Stmt} {ending : Ending} {db : Db}
    (htask : s.pc.tasks[i]? = some ⟨height, some ⟨stmt :: stmts, ending⟩⟩)
    (he : exec env stmt s.db = .ok db) : FollowWrite s (.exec i env) db
  | rollback {fork deleted : Nat} {db : Db} (hpc : s.pc = .rolling fork)
    (hr : rollbackFromBlock (asI64 fork) s.db = .ok (db, deleted)) : FollowWrite s .rollback db
  | commit (last : Int) : FollowWrite s .commit (updateCheckpoint last s.db)

/-- Where a task comes from. -/
inductive TaskFrom (R : Runtime) (abi : Abi) (s : Follow) : Task → Prop where
  | kept {t : Task} (ht : t ∈ s.pc.tasks) : TaskFrom R abi s t
  | spawned (height : Nat) : TaskFrom R abi s ⟨height, none⟩
  | fetched (height : Nat) (a : Answers) :
    TaskFrom R abi s ⟨height, some (processBlock R abi height a)⟩
  | ran {height : Nat} {stmt : Stmt} {stmts : List Stmt} {ending : Ending}
    (ht : ⟨height, some ⟨stmt :: stmts, ending⟩⟩ ∈ s.pc.tasks) :
    TaskFrom R abi s ⟨height, some ⟨stmts, ending⟩⟩

section Steps
variable {net : Network} {R : Runtime} {abi : Abi} {s s' : Follow} {l : FollowLabel}

theorem followStep_write (h : followStep net R abi s l = some s') : FollowWrite s l s'.db := by
  cases l with
  | reorg chain =>
    simp only [followStep] at h
    split at h <;> cases h
    exact .kept _
  | start config =>
    simp only [followStep] at h
    split at h <;> cases h
    exact .kept _
  | stop =>
    cases h
    exact .kept _
  | detect hashAt =>
    simp only [followStep, detectStep] at h
    split at h
    · split at h <;> cases h <;> exact .kept _
    · cases h
  | rollback =>
    simp only [followStep, rollbackStep] at h
    split at h
    · rename_i hpc
      split at h <;> rename_i hr <;> cases h
      · exact .rollback hpc hr
      · exact .kept _
    · cases h
  | head n =>
    simp only [followStep] at h
    split at h <;> cases h
    exact .kept _
  | plan =>
    simp only [followStep, planStep] at h
    split at h
    · split at h <;> cases h <;> exact .kept _
    · cases h
  | chunk =>
    simp only [followStep, chunkStep] at h
    split at h
    · split_ifs at h <;> cases h <;> exact .kept _
    · cases h
  | fetch i a =>
    simp only [followStep, fetchStep] at h
    split at h
    · split at h
      · split at h <;> cases h
        exact .kept _
      · cases h
    · cases h
  | exec i env =>
    simp only [followStep, execStep] at h
    split at h
    · rename_i start next chunkEnd last tasks hpc
      have htasks : tasks = s.pc.tasks := by rw [hpc]; rfl
      split at h
      · rename_i htask
        split at h <;> rename_i he <;> cases h
        · rw [htasks] at htask
          exact .exec htask he
        · exact .kept _
      · cases h
    · cases h
  | join =>
    simp only [followStep, joinStep] at h
    split at h
    · split at h <;> cases h
      exact .kept _
    · cases h
  | commit =>
    simp only [followStep, commitStep] at h
    split at h <;> cases h
    exact .commit _

theorem taskFrom_set {i : Nat} {t a : Task} (h : t ∈ s.pc.tasks.set i a) (ha : TaskFrom R abi s a) :
    TaskFrom R abi s t := by
  rcases List.mem_or_eq_of_mem_set h with h | rfl
  · exact .kept h
  · exact ha

theorem followStep_tasks (h : followStep net R abi s l = some s') {t : Task}
    (ht : t ∈ s'.pc.tasks) : TaskFrom R abi s t := by
  cases l with
  | reorg chain =>
    simp only [followStep] at h
    split at h <;> cases h
    exact .kept ht
  | start config =>
    simp only [followStep] at h
    split at h <;> cases h
    cases ht
  | stop =>
    cases h
    cases ht
  | detect hashAt =>
    simp only [followStep, detectStep] at h
    split at h
    · split at h <;> cases h <;> cases ht
    · cases h
  | rollback =>
    simp only [followStep, rollbackStep] at h
    split at h
    · split at h <;> cases h <;> cases ht
    · cases h
  | head n =>
    simp only [followStep] at h
    split at h <;> cases h
    cases ht
  | plan =>
    simp only [followStep, planStep] at h
    split at h
    · split at h <;> cases h <;> cases ht
    · cases h
  | chunk =>
    simp only [followStep, chunkStep] at h
    split at h
    · split_ifs at h <;> cases h
      · cases ht
      · cases ht
      · obtain ⟨height, -, rfl⟩ := List.mem_map.mp ht
        exact .spawned height
    · cases h
  | fetch i a =>
    simp only [followStep, fetchStep] at h
    split at h
    · rename_i start next chunkEnd last tasks hpc
      have htasks : tasks = s.pc.tasks := by rw [hpc]; rfl
      split at h
      · rename_i height htask
        split at h <;> cases h
        rw [htasks] at ht
        exact taskFrom_set ht (.fetched height a)
      · cases h
    · cases h
  | exec i env =>
    simp only [followStep, execStep] at h
    split at h
    · rename_i start next chunkEnd last tasks hpc
      have htasks : tasks = s.pc.tasks := by rw [hpc]; rfl
      split at h
      · rename_i htask
        split at h <;> cases h
        · rw [htasks] at ht htask
          exact taskFrom_set ht (.ran (List.mem_of_getElem? htask))
        · cases ht
      · cases h
    · cases h
  | join =>
    simp only [followStep, joinStep] at h
    split at h
    · split at h <;> cases h
      cases ht
    · cases h
  | commit =>
    simp only [followStep, commitStep] at h
    split at h <;> cases h
    cases ht

end Steps

/-! ## What a step does to the blocks -/

/-- A row stays: only a rollback deletes. -/
theorem Stored.exec {env : Env} {stmt : Stmt} {db db' : Db} {height : Nat} (h : Stored db height)
    (he : exec env stmt db = .ok db') : Stored db' height := by
  unfold Stored at h ⊢
  rw [(exec_applied he).blocks, Table.get_insertNew, Option.isSome_or, h, Bool.true_or]

theorem stored_inserted {env : Env} {db db' : Db} {height : Nat} {header : RpcHeader}
    (he : exec env (.insertBlocks [blockRow height header]) db = .ok db') : Stored db' height := by
  unfold Stored
  rw [(exec_applied he).blocks, Table.get_insertNew, Option.isSome_or]
  simp [lookup]

/-- A rollback keeps the rows below it. -/
theorem Stored.rollback {f : Int} {db db' : Db} {n height : Nat}
    (hr : rollbackFromBlock f db = .ok (db', n)) (h : Stored db height) (hf : asI64 height < f) :
    Stored db' height := by
  obtain ⟨b, hb⟩ := Option.isSome_iff_exists.mp h
  unfold Stored
  rw [(rollbackFromBlock_ok hr).1, Table.get_filter, hb, Option.filter_some, if_pos]
  · rfl
  · rw [Table.get_key hb]
    exact decide_eq_true hf

/-- A call that can return `Ok` stores its block first. -/
theorem processBlock_blockFirst (R : Runtime) {abi : Abi} {height : Nat} {a : Answers}
    (h : (processBlock R abi height a).ending = .ok) :
    ∃ header rest, (processBlock R abi height a).stmts =
      .insertBlocks [blockRow height header] :: rest := by
  obtain ⟨block, receipts, traces, failed, -, -, -, hs⟩ := processBlock_ok R h
  exact ⟨block.header, _, by rw [hs]; rfl⟩

end Amarillo.L3
