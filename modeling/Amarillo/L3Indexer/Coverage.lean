import Amarillo.L3Indexer.FailedStub
import Amarillo.L3Indexer.Follow

/-!
# Checkpoint coverage

The checkpoint is meant to say that everything up to it is stored, from the
first height the loop indexed. Chunks keep that: a chunk is checkpointed after
all its tasks stored their blocks. Two other moves need not:

* `rollback_from_block(f)` sets the checkpoint to `f - 1` and not to the lower
  of that and the old one. After an interrupted chunk left blocks above a gap,
  a fork among these moves it forward, over the gap. With `f = 0` it is set to
  `0`, whose block has just been deleted.
* without a checkpoint row the loop starts at the tip, also when a first chunk
  was interrupted before its checkpoint.

`Gapless` excludes these steps, and heights or batch sizes from `2 ^ 63` on.

* `checkpoint_covered`: in every run of `Gapless` steps everything from the
  first height to the checkpoint is stored.
* `rollback_skips`: without it, heights are skipped for good.
-/
namespace Amarillo.L3
open Amarillo.Core Amarillo.L1 Amarillo.L2

/-- Everything from the first height up to below `n` is stored. -/
abbrev StoredBelow (db : Db) (first : Option Nat) (n : Nat) : Prop :=
  ∀ f ∈ first, ∀ k < n, f ≤ k → Stored db k

/-- The claim of the checkpoint. -/
def Covered (s : Follow) : Prop :=
  ∀ c, s.db.checkpoint = some c → ∀ f, s.first = some f → ∀ k : Nat, f ≤ k → (k : Int) ≤ c →
    Stored s.db k

/-! ## Steps that may leave a gap -/

def FollowPc.fork : FollowPc → Option Nat
  | .rolling fork => some fork
  | _ => none

def FollowPc.head : FollowPc → Option Nat
  | .planning head => some head
  | _ => none

/-- Nothing is missing between the checkpoint and the fork, and the fork is not
at height 0 of a store that starts there. -/
abbrev RollbackGapless (s : Follow) (fork : Int) : Prop :=
  ∀ c ∈ s.db.checkpoint, ∀ f ∈ s.first,
    (0 < fork ∨ 0 < f) ∧ ∀ k < fork.toNat, f ≤ k → c < k → Stored s.db k

/-- Without a checkpoint, everything below the new start is stored. -/
abbrev PlanGapless (s : Follow) (head : Nat) : Prop :=
  s.db.checkpoint = none → StoredBelow s.db s.first (head - s.config.confirmations)

def Gapless (s : Follow) : FollowLabel → Prop
  | .head n => n < 2 ^ 63
  | .chunk => s.config.batchSize < 2 ^ 63
  | .rollback => ∀ fork ∈ s.pc.fork, RollbackGapless s (asI64 fork)
  | .plan => ∀ head ∈ s.pc.head, PlanGapless s head
  | _ => True

instance (s : Follow) : (l : FollowLabel) → Decidable (Gapless s l)
  | .head n => inferInstanceAs (Decidable (n < 2 ^ 63))
  | .chunk => inferInstanceAs (Decidable (s.config.batchSize < 2 ^ 63))
  | .rollback => inferInstanceAs (Decidable (∀ fork ∈ s.pc.fork, RollbackGapless s (asI64 fork)))
  | .plan => inferInstanceAs (Decidable (∀ head ∈ s.pc.head, PlanGapless s head))
  | .reorg _ => instDecidableTrue
  | .start _ => instDecidableTrue
  | .stop => instDecidableTrue
  | .detect _ => instDecidableTrue
  | .fetch _ _ => instDecidableTrue
  | .exec _ _ => instDecidableTrue
  | .join => instDecidableTrue
  | .commit => instDecidableTrue

/-! ## The invariant -/

/-- A task that can still succeed has its block insert ahead, or done. -/
def TaskInv (db : Db) (t : Task) : Prop :=
  ∀ p, t.prog = some p → p.ending = .ok →
    (∃ header rest, p.stmts = .insertBlocks [blockRow t.height header] :: rest) ∨ Stored db t.height

/-- The height from which on nothing may be missing: the first one indexed, or
what it will be once the range at hand stores a block. -/
def base (first : Option Nat) : FollowPc → Option Nat
  | .chunking start _ _ => some (first.getD start)
  | .working start _ _ _ _ => some (first.getD start)
  | .committing start _ _ _ => some (first.getD start)
  | _ => first

def PcInv (db : Db) (first : Option Nat) (batchSize : Nat) : FollowPc → Prop
  | .planning head => head < 2 ^ 63
  | .chunking start next last =>
    last < 2 ^ 63 ∧ StoredBelow db (some (first.getD start)) (min next (last + 1))
  | .working start next chunkEnd last tasks =>
    last < 2 ^ 63 ∧ min (next + batchSize) (last + 1) ≤ chunkEnd + 1 ∧ chunkEnd ≤ last ∧
      StoredBelow db (some (first.getD start)) next ∧
      (∀ k, next ≤ k → k ≤ chunkEnd → ∃ t ∈ tasks, t.height = k) ∧ ∀ t ∈ tasks, TaskInv db t
  | .committing start next chunkEnd last =>
    last < 2 ^ 63 ∧ min (next + batchSize) (last + 1) ≤ chunkEnd + 1 ∧ chunkEnd ≤ last ∧
      StoredBelow db (some (first.getD start)) (chunkEnd + 1)
  | _ => True

structure FollowInv (s : Follow) : Prop where
  covered : ∀ c, s.db.checkpoint = some c →
    StoredBelow s.db (base s.first s.pc) ((max c 0).toNat + 1)
  pc : PcInv s.db s.first s.config.batchSize s.pc

theorem base_first {first : Option Nat} {f : Nat} (h : f ∈ first) (pc : FollowPc) :
    f ∈ base first pc := by
  cases h
  cases pc <;> rfl

/-- A step that only goes on, with the same range or with none. -/
theorem FollowInv.idle {s : Follow} (h : FollowInv s) {pc : FollowPc}
    (hbase : base s.first pc = base s.first s.pc ∨ base s.first pc = s.first)
    (hpc : PcInv s.db s.first s.config.batchSize pc) : FollowInv { s with pc := pc } := by
  refine ⟨fun c hc f hf => h.covered c hc f ?_, hpc⟩
  rcases hbase with hb | hb
  · exact hb ▸ hf
  · exact base_first (hb ▸ hf) s.pc

theorem StoredBelow.exec {env : Env} {stmt : Stmt} {db db' : Db} {first : Option Nat} {n : Nat}
    (h : StoredBelow db first n) (he : exec env stmt db = .ok db') : StoredBelow db' first n :=
  fun f hf k hk hfk => (h f hf k hk hfk).exec he

theorem TaskInv.kept {env : Env} {stmt : Stmt} {db db' : Db} {t : Task} (h : TaskInv db t)
    (he : exec env stmt db = .ok db') : TaskInv db' t :=
  fun p hp hok => (h p hp hok).imp_right fun hs => hs.exec he

/-- The task that ran the statement. -/
theorem TaskInv.advance {env : Env} {stmt : Stmt} {stmts : List Stmt} {ending : Ending}
    {db db' : Db} {height : Nat} (h : TaskInv db ⟨height, some ⟨stmt :: stmts, ending⟩⟩)
    (he : exec env stmt db = .ok db') : TaskInv db' ⟨height, some ⟨stmts, ending⟩⟩ := by
  intro p hp hok
  cases hp
  right
  rcases h _ rfl hok with ⟨header, rest, hs⟩ | hs
  · simp only [List.cons.injEq] at hs
    rw [hs.1] at he
    exact stored_inserted he
  · exact hs.exec he

theorem forall_mem_set {α : Type} {P : α → Prop} {l : List α} {i : Nat} {a : α}
    (h : ∀ x ∈ l, P x) (ha : P a) : ∀ x ∈ l.set i a, P x :=
  fun x hx => (List.mem_or_eq_of_mem_set hx).elim (h x) fun e => e ▸ ha

/-- Replacing a task by one of the same height keeps the heights. -/
theorem heights_set {l : List Task} {i : Nat} {t t' : Task} (hi : l[i]? = some t)
    (hh : t'.height = t.height) {k : Nat} (h : ∃ x ∈ l, x.height = k) :
    ∃ x ∈ l.set i t', x.height = k := by
  have hmap : (l.set i t').map Task.height = l.map Task.height := by
    rw [List.map_set, hh]
    obtain ⟨hlt, rfl⟩ := List.getElem?_eq_some_iff.mp hi
    rw [← List.getElem_map Task.height (h := by simpa using hlt), List.set_getElem_self]
  rw [← List.mem_map, hmap]
  exact List.mem_map.mpr h

section Steps
variable {net : Network} {R : Runtime} {abi : Abi} {s s' : Follow}

theorem detectStep_inv {hashAt : Nat → Option String} (hi : FollowInv s)
    (h : detectStep s hashAt = some s') : FollowInv s' := by
  unfold detectStep at h
  split at h
  · split at h <;> cases h
    · exact hi.idle (.inr rfl) trivial
    · exact hi.idle (.inr rfl) trivial
  · cases h

/-- The checkpoint goes to `fork - 1`; the guard covers what it passes over. -/
theorem rollbackStep_inv (hi : FollowInv s) (hg : Gapless s .rollback)
    (h : rollbackStep s = some s') : FollowInv s' := by
  unfold rollbackStep at h
  split at h
  · rename_i fork hpc
    split at h
    · rename_i db n hr
      cases h
      refine ⟨?_, trivial⟩
      intro c' hc' f hf k hk hfk
      rw [(rollbackFromBlock_ok hr).2] at hc'
      obtain ⟨c, hc, rfl⟩ := Option.map_eq_some_iff.mp hc'
      obtain ⟨hpos, hgap⟩ := hg fork (by rw [hpc]; rfl) c hc f hf
      have hfork := asI64_lt fork
      have hlt : (k : Int) < asI64 fork := by omega
      have hkeep : asI64 k < asI64 fork := by
        rw [asI64_of_lt (n := k) (by omega)]
        exact hlt
      by_cases hck : (k : Int) ≤ max c 0
      · exact (hi.covered c hc f (base_first hf _) k (by omega) hfk).rollback hr hkeep
      · exact (hgap k (by omega) hfk (by omega)).rollback hr hkeep
    · cases h
      exact hi.idle (.inr rfl) trivial
  · cases h

/-- The range starts right after the checkpoint, or where the guard says. -/
theorem planStep_inv (hi : FollowInv s) (hg : Gapless s .plan) (h : planStep s = some s') :
    FollowInv s' := by
  unfold planStep at h
  split at h
  · rename_i head hpc
    have hhead : head < 2 ^ 63 := by
      have := hi.pc
      rwa [hpc] at this
    split at h
    · rename_i first last htarget
      cases h
      obtain ⟨hlast, hle, hfirst⟩ := nextTarget_some htarget
      have hlast63 : last < 2 ^ 63 := by omega
      have hcap := (@capRangeTo_le first last _ hlast63
        (show followCycleBlockCap < 2 ^ 63 by decide)).2
      -- what the new range starts from, for the first height that counts
      have hbelow : StoredBelow s.db (some (s.first.getD first)) first := by
        intro f hf k hk hfk
        cases hfirst' : s.first with
        | none =>
          rw [hfirst'] at hf
          cases hf
          exact absurd hk (Nat.not_lt.mpr hfk)
        | some f' =>
          rw [hfirst'] at hf
          cases hf
          cases hc : s.db.checkpoint with
          | none =>
            rw [getLastCheckpoint, hc] at hfirst
            exact hg head (by rw [hpc]; rfl) hc f' hfirst' k (by simpa [hfirst] using hk) hfk
          | some c =>
            rw [getLastCheckpoint, hc] at hfirst
            refine hi.covered c hc f' (base_first hfirst' _) k ?_ hfk
            simp only [Option.elim_some, satAdd, U64_MAX] at hfirst
            omega
      refine ⟨fun c hc f hf k hk hfk => ?_, by omega, fun f hf k hk hfk => ?_⟩
      · by_cases hkf : k < first
        · exact hbelow f hf k hkf hfk
        · cases hfirst' : s.first with
          | some f' =>
            rw [base, hfirst'] at hf
            cases hf
            exact hi.covered c hc f' (base_first hfirst' _) k hk hfk
          | none =>
            rw [base, hfirst'] at hf
            cases hf
            rw [getLastCheckpoint, show s.db.checkpoint = some c from hc] at hfirst
            simp only [Option.elim_some, satAdd, U64_MAX] at hfirst
            omega
      · exact hbelow f hf k (by omega) hfk
    · cases h
      exact hi.idle (.inr rfl) trivial
  · cases h

theorem chunkStep_inv (hi : FollowInv s) (hg : Gapless s .chunk) (h : chunkStep s = some s') :
    FollowInv s' := by
  unfold chunkStep at h
  split at h
  · rename_i start next last hpc
    obtain ⟨hlast, hbelow⟩ : PcInv s.db s.first s.config.batchSize (.chunking start next last) :=
      hpc ▸ hi.pc
    split at h
    · cases h
      exact hi.idle (.inr rfl) trivial
    · split at h
      · cases h
        exact hi.idle (.inr rfl) trivial
      · rename_i hbatch hle
        cases h
        have hend := @chunkEnd_eq next _ last (by omega) hg
        refine hi.idle (.inl (by rw [hpc]; rfl)) ⟨hlast, by omega, chunkEnd_le _ _ _, ?_, ?_, ?_⟩
        · exact fun f hf k hk hfk => hbelow f hf k (by omega) hfk
        · intro k hk hke
          refine ⟨⟨k, none⟩, List.mem_map.mpr ⟨k, ?_, rfl⟩, rfl⟩
          rw [List.mem_range'_1]
          omega
        · intro t ht p hp
          obtain ⟨_, -, rfl⟩ := List.mem_map.mp ht
          cases hp
  · cases h

theorem fetchStep_inv {i : Nat} {a : Answers} (hi : FollowInv s)
    (h : fetchStep net R abi s i a = some s') : FollowInv s' := by
  unfold fetchStep at h
  split at h
  · rename_i start next chunkEnd last tasks hpc
    obtain ⟨hlast, hnext, hend, hbelow, hheights, htasks⟩ :
      PcInv s.db s.first s.config.batchSize (.working start next chunkEnd last tasks) := hpc ▸ hi.pc
    split at h
    · rename_i height htask
      split at h
      · cases h
        refine hi.idle (.inl (by rw [hpc]; rfl)) ⟨hlast, hnext, hend, hbelow, ?_, forall_mem_set htasks ?_⟩
        · exact fun k hk hke => heights_set htask (by rfl) (hheights k hk hke)
        · intro p hp hok
          cases hp
          exact .inl (processBlock_blockFirst R hok)
      · cases h
    · cases h
  · cases h

theorem execStep_inv {i : Nat} {env : Env} (hi : FollowInv s) (h : execStep s i env = some s') :
    FollowInv s' := by
  unfold execStep at h
  split at h
  · rename_i start next chunkEnd last tasks hpc
    obtain ⟨hlast, hnext, hend, hbelow, hheights, htasks⟩ :
      PcInv s.db s.first s.config.batchSize (.working start next chunkEnd last tasks) := hpc ▸ hi.pc
    split at h
    · rename_i height stmt stmts ending htask
      split at h
      · rename_i db he
        cases h
        -- the base is the same, whether the statement sets `first` or not
        have hbase : ∀ b : Bool,
            (if b then s.first else some (s.first.getD start)).getD start = s.first.getD start := by
          intro b
          cases b <;> rfl
        refine ⟨fun c hc => ?_, hlast, hnext, hend, ?_, ?_, ?_⟩
        · rw [(exec_applied he).checkpoint] at hc
          have := (hi.covered c hc).exec he
          rw [hpc] at this
          simpa only [base, hbase] using this
        · simpa only [hbase] using hbelow.exec he
        · exact fun k hk hke => heights_set htask (by rfl) (hheights k hk hke)
        · exact forall_mem_set (fun t ht => (htasks t ht).kept he)
            ((htasks _ (List.mem_of_getElem? htask)).advance he)
      · cases h
        exact hi.idle (.inr rfl) trivial
    · cases h
  · cases h

/-- When all tasks are done, all heights of the chunk are stored. -/
theorem joinStep_inv (hi : FollowInv s) (h : joinStep s = some s') : FollowInv s' := by
  unfold joinStep at h
  split at h
  · rename_i start next chunkEnd last tasks hpc
    obtain ⟨hlast, hnext, hend, hbelow, hheights, htasks⟩ :
      PcInv s.db s.first s.config.batchSize (.working start next chunkEnd last tasks) := hpc ▸ hi.pc
    split at h
    · rename_i hdone
      cases h
      refine hi.idle (.inl (by rw [hpc]; rfl)) ⟨hlast, hnext, hend, fun f hf k hk hfk => ?_⟩
      by_cases hkn : k < next
      · exact hbelow f hf k hkn hfk
      · obtain ⟨t, ht, rfl⟩ := hheights k (by omega) (by omega)
        rcases htasks t ht _ (hdone t ht) rfl with ⟨_, _, hs⟩ | hs
        · cases hs
        · exact hs
    · cases h
  · cases h

theorem commitStep_inv (hi : FollowInv s) (h : commitStep s = some s') : FollowInv s' := by
  unfold commitStep at h
  split at h
  · rename_i start next chunkEnd last hpc
    obtain ⟨hlast, hnext, hend, hbelow⟩ :
      PcInv s.db s.first s.config.batchSize (.committing start next chunkEnd last) := hpc ▸ hi.pc
    cases h
    refine ⟨fun c hc f hf k hk hfk => ?_, hlast, fun f hf k hk hfk => ?_⟩
    · simp only [updateCheckpoint, Option.some.injEq] at hc
      rw [asI64_of_lt (by omega)] at hc
      exact hbelow f hf k (by omega) hfk
    · exact hbelow f hf k (by omega) hfk
  · cases h

end Steps

theorem followInv_inductive (net : Network) (R : Runtime) (abi : Abi) (Init : Db → Prop) :
    ((follow net R abi Init).restrict Gapless).Inductive FollowInv where
  init := by
    rintro s ⟨-, -, hfirst, hpc⟩
    refine ⟨fun c hc f hf => ?_, by rw [hpc]; trivial⟩
    rw [hfirst, hpc] at hf
    cases hf
  step := by
    rintro s l s' hi ⟨hs, hg⟩
    cases l with
    | reorg chain =>
      simp only [follow, LTS.ofFn, followStep] at hs
      split at hs <;> cases hs
      exact ⟨hi.covered, hi.pc⟩
    | start config =>
      simp only [follow, LTS.ofFn, followStep] at hs
      split at hs <;> cases hs
      exact ⟨fun c hc f hf => hi.covered c hc f (base_first hf _), trivial⟩
    | stop =>
      cases hs
      exact hi.idle (.inr rfl) trivial
    | detect hashAt => exact detectStep_inv hi hs
    | rollback => exact rollbackStep_inv hi hg hs
    | head n =>
      simp only [follow, LTS.ofFn, followStep] at hs
      split at hs <;> cases hs
      exact hi.idle (.inr rfl) hg
    | plan => exact planStep_inv hi hg hs
    | chunk => exact chunkStep_inv hi hg hs
    | fetch i a => exact fetchStep_inv hi hs
    | exec i env => exact execStep_inv hi hs
    | join => exact joinStep_inv hi hs
    | commit => exact commitStep_inv hi hs

/-- **Everything up to the checkpoint is stored.** In every state that any
number of follow processes reach by `Gapless` steps, with any reorgs, failures
and crashes, from any database: every height from the first one the loop
indexed up to the checkpoint has a block row. -/
theorem checkpoint_covered (net : Network) (R : Runtime) (abi : Abi) (s : Follow)
    (h : ((follow net R abi fun _ => True).restrict Gapless).Reachable s) : Covered s := by
  intro c hc f hf k hfk hkc
  exact ((followInv_inductive net R abi _).reachable s h).covered c hc f (base_first hf _) k
    (by omega) hfk

/-! ## Three forks of one chain -/

def blockHash (k : UInt8) : B256 := .repeatByte k

/-- Blocks without transactions. `0xa0…` is the genesis, `0xb1…` forks off it
and `0xc2…` off `0xa1…`; any other block follows the one numbered before. -/
def emptyNet : Network where
  block b := ⟨⟨b, if b = blockHash 0xb1 then blockHash 0xa0 else if b = blockHash 0xc2 then
    blockHash 0xa1 else blockHash (b.bytes.headD 0 - 1), 1700000000, 30000000⟩, []⟩
  receipts _ := []
  trace _ _ := .failed
  hash_eq _ := rfl
  aligned _ := rfl

def chainA : Chain := [blockHash 0xa0, blockHash 0xa1, blockHash 0xa2, blockHash 0xa3, blockHash 0xa4]
def chainB : Chain := [blockHash 0xa0, blockHash 0xb1, blockHash 0xb2]
def chainC : Chain := [blockHash 0xa0, blockHash 0xa1, blockHash 0xc2, blockHash 0xc3, blockHash 0xc4]

def answered (b : B256) : Answers := emptyNet.answers b

/-- A fresh process on a fresh database. -/
def freshFollow : Follow := ⟨chainA, Db.empty, ⟨0, 3⟩, none, .stopped⟩

abbrev emptyStep : Follow → FollowLabel → Option Follow := followStep emptyNet (.asciiOnly true) wordAbi

/-- One cycle that indexes the single height `head`, whose block is `b`. -/
def indexOne (view : Chain) (head : Nat) (b : B256) : List FollowLabel :=
  [.detect (hashOn view), .head head, .plan, .chunk, .fetch 0 (answered b),
   .exec 0 liveEnv, .join, .commit, .chunk]

/-- Heights 1 and 2 are indexed, then block 2 is replaced and rolled back. -/
def repairedRun : Option Follow :=
  LTS.exec (LTS.guarded emptyStep Gapless) freshFollow
    (.start ⟨0, 3⟩ :: (indexOne chainA 1 (blockHash 0xa1) ++ indexOne chainA 2 (blockHash 0xa2) ++
      [.reorg chainC, .detect (hashOn chainC), .rollback]))

theorem repaired_covered : Covered (repairedRun.get (by decide +kernel)) :=
  checkpoint_covered emptyNet (.asciiOnly true) wordAbi _
    (LTS.reachable_of_guarded (show _ ∧ _ from ⟨by decide +kernel, trivial, rfl, rfl⟩)
      (Option.some_get _).symm)

/-- Height 1 is indexed; of the chunk 2–4 only height 4 is stored before the
process dies; the next process finds block 4 replaced. -/
def skippingLabels : List FollowLabel :=
  .start ⟨0, 3⟩ :: (indexOne chainA 1 (blockHash 0xa1) ++
    [.detect (hashOn chainA), .head 4, .plan, .chunk, .fetch 2 (answered (blockHash 0xa4)),
     .exec 2 liveEnv, .stop, .reorg chainC, .start ⟨0, 3⟩, .detect (hashOn chainC),
     .rollback])

/-- The rollback moves the checkpoint from 1 to 3; height 2 is not stored. -/
theorem rollback_skips :
    ¬ ∀ (net : Network) (R : Runtime) (abi : Abi) (s : Follow),
      (follow net R abi fun _ => True).Reachable s → Covered s := by
  intro h
  have hrun : (LTS.exec emptyStep freshFollow skippingLabels).map (fun s =>
      (s.first, s.db.checkpoint, decide (Stored s.db 2))) = some (some 1, some 3, false) := by
    decide +kernel
  obtain ⟨s, hexec, hs⟩ := Option.map_eq_some_iff.mp hrun
  simp only [Prod.mk.injEq, decide_eq_false_iff_not] at hs
  obtain ⟨hfirst, hcheckpoint, hmissing⟩ := hs
  exact hmissing (h emptyNet (.asciiOnly true) wordAbi s
    (LTS.reachable_of_exec ⟨by decide +kernel, trivial, rfl, rfl⟩ hexec) 3 hcheckpoint 1 hfirst 2
    (by decide) (by decide))

end Amarillo.L3
