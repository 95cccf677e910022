import Amarillo.Core.Inevitable
import Amarillo.L3Indexer.Accepted

/-!
# A range gets indexed (`index_range`, `process_chunk`)

What other modules say of the loop is what it never does. This one says what a range comes to
when it is left alone (`Calm`): the chain stands still, the node answers for it in full, the
triggers are not installed, and the tasks of a chunk take their turns in any order.

* `chunk_completes`: a chunk at work comes to its checkpoint, with all its blocks stored.
* `range_completes`: so does a range, chunk after chunk, and the loop starts over.
-/
namespace Amarillo.L3
open Amarillo.Core Amarillo.L1 Amarillo.L2

/-- Nothing stops the process, the chain stands still, and the node answers for it. -/
def Calm (net : Network) (s : Follow) : FollowLabel → Prop
  | .reorg _ | .start _ | .stop => False
  | .detect hashAt => hashAt = hashOn s.chain
  | .head n => n + 1 = s.chain.length
  | .fetch i a => ∀ t ∈ s.pc.tasks[i]?, ∀ b ∈ s.chain[t.height]?, a = net.answers b
  | .exec _ env => env.triggers = false
  | .rollback | .plan | .chunk | .join | .commit => True

def calm (net : Network) (R : Runtime) (abi : Abi) : LTS Follow FollowLabel :=
  (follow net R abi fun _ => True).restrict (Calm net)

/-- The block of the height and its transactions are stored. -/
def Indexed (net : Network) (chain : Chain) (db : Db) (n : Nat) : Prop :=
  ∃ b, chain[n]? = some b ∧ Stored db n ∧
    ∀ tx ∈ (net.block b).transactions, db.hasTransaction tx.hash.hex = true

/-- The row is about the block that the chain has at its height. -/
def ChainRow (chain : Chain) (row : Block) : Prop :=
  ∃ (n : Nat) (b : B256), chain[n]? = some b ∧ row.blockNumber = n ∧ row.blockHash = some b.hex

/-- The blocks of the chain can be stored, and heights and batches are no wider than they
should be. -/
structure ChainFits (net : Network) (R : Runtime) (abi : Abi) (s : Follow) : Prop where
  short : s.chain.length ≤ 2 ^ 63
  batch : 0 < s.config.batchSize
  batchShort : s.config.batchSize ≤ 2 ^ 63
  blocks : ∀ n b, s.chain[n]? = some b → NothingRejected (processBlock R abi n (net.answers b))
  counters : s.db.CountersFit

/-- The same process on the same chain: no row of `block` is gone, those that are new are the
chain's, and what was indexed still is. -/
structure Onward (net : Network) (s s' : Follow) : Prop where
  chain : s'.chain = s.chain
  config : s'.config = s.config
  counters : s'.db.CountersFit
  blocks : s.db.blocks.rows ⊆ s'.db.blocks.rows
  fresh : ∀ row ∈ s'.db.blocks.rows, row ∈ s.db.blocks.rows ∨ ChainRow s.chain row
  indexed : ∀ n, Indexed net s.chain s.db n → Indexed net s.chain s'.db n

structure ChunkDone (net : Network) (s : Follow) (first next last : Nat) (s' : Follow) : Prop where
  onward : Onward net s s'
  pc : s'.pc = .chunking first (next + s.config.batchSize) last
  indexed : ∀ n, next ≤ n → n < next + s.config.batchSize → n ≤ last → Indexed net s.chain s'.db n
  checkpoint : s'.db.checkpoint = some (asI64 (min (next + s.config.batchSize - 1) last))

structure RangeDone (net : Network) (s : Follow) (next last : Nat) (s' : Follow) : Prop where
  onward : Onward net s s'
  pc : s'.pc = .checking
  indexed : ∀ n, next ≤ n → n ≤ last → Indexed net s.chain s'.db n
  checkpoint : s'.db.checkpoint = if next ≤ last then some (asI64 last) else s.db.checkpoint

section Onward
variable {net : Network} {R : Runtime} {abi : Abi} {s s' s'' : Follow} {env : Env} {stmt : Stmt}
  {db db' : Db} {last : Nat}

theorem Indexed.exec {chain : Chain} {n : Nat} (h : Indexed net chain db n)
    (he : exec env stmt db = .ok db') : Indexed net chain db' n := by
  obtain ⟨b, hb, hstored, htxs⟩ := h
  exact ⟨b, hb, hstored.exec he, fun tx htx => exec_hasTransaction he (htxs tx htx)⟩

/-- The counters are the trigger's. -/
theorem countersFit_exec (h : db.CountersFit) (ht : env.triggers = false)
    (he : exec env stmt db = .ok db') : db'.CountersFit := by
  intro p hp
  rw [exec_userProfiles he, if_neg (by simp [ht])] at hp
  exact h p hp

/-- A statement of a block of the chain only inserts that block. -/
theorem chainRow_exec {chain : Chain} (hshort : chain.length ≤ 2 ^ 63) {n : Nat} {b : B256}
    (hb : chain[n]? = some b) (hstmt : stmt ∈ (processBlock R abi n (net.answers b)).stmts)
    (he : exec env stmt db = .ok db') {row : Block} (hrow : row ∈ db'.blocks.rows) :
    row ∈ db.blocks.rows ∨ ChainRow chain row := by
  rw [(exec_applied he).blocks, Table.rows_insertNew] at hrow
  refine (List.mem_append.mp hrow).imp_right fun hrow => ?_
  obtain ⟨block, receipts, hblock, -, hsends⟩ := mem_processBlock R hstmt
  have hrow := mem_of_mem_news hrow
  cases hblock
  cases hsends with
  | blocks =>
    obtain rfl := List.mem_singleton.mp hrow
    have hlt : n < chain.length := (List.getElem?_eq_some_iff.mp hb).1
    refine ⟨n, b, hb, asI64_of_lt (by omega), ?_⟩
    simp only [blockRow, net.hash_eq]
  | _ => cases hrow

theorem Onward.refl (h : s.db.CountersFit) : Onward net s s :=
  ⟨rfl, rfl, h, fun _ => id, fun _ => .inl, fun _ => id⟩

/-- A decision leaves the database. -/
theorem Onward.goto (h : Onward net s s') (pc : FollowPc) : Onward net s { s' with pc := pc } :=
  ⟨h.chain, h.config, h.counters, h.blocks, h.fresh, h.indexed⟩

theorem Onward.trans (h : Onward net s s') (h' : Onward net s' s'') : Onward net s s'' where
  chain := h'.chain.trans h.chain
  config := h'.config.trans h.config
  counters := h'.counters
  blocks := fun _ hb => h'.blocks (h.blocks hb)
  fresh row hrow := by
    rcases h'.fresh row hrow with hrow | hrow
    · exact h.fresh row hrow
    · exact .inr (h.chain ▸ hrow)
  indexed n hn := by
    have hindexed := h'.indexed n
    rw [h.chain] at hindexed
    exact hindexed (h.indexed n hn)

/-- A statement of a block of the chain keeps what was there. -/
theorem Onward.exec (h : Onward net s s') (hshort : s.chain.length ≤ 2 ^ 63) {n : Nat} {b : B256}
    (hb : s.chain[n]? = some b) (hstmt : stmt ∈ (processBlock R abi n (net.answers b)).stmts)
    (ht : env.triggers = false) (he : exec env stmt s'.db = .ok db) (first : Option Nat)
    (pc : FollowPc) : Onward net s { s' with db := db, first := first, pc := pc } where
  chain := h.chain
  config := h.config
  counters := countersFit_exec h.counters ht he
  blocks row hrow := by
    simp only [(exec_applied he).blocks, Table.rows_insertNew]
    exact List.mem_append_left _ (h.blocks hrow)
  fresh row hrow := by
    rcases chainRow_exec hshort hb hstmt he hrow with hrow | hrow
    · exact h.fresh row hrow
    · exact .inr hrow
  indexed n hn := (h.indexed n hn).exec he

theorem ChainFits.onward (h : ChainFits net R abi s) (ho : Onward net s s') :
    ChainFits net R abi s' := by
  obtain ⟨hshort, hbatch, hbatchShort, hblocks, -⟩ := h
  rw [← ho.chain] at hshort hblocks
  rw [← ho.config] at hbatch hbatchShort
  exact ⟨hshort, hbatch, hbatchShort, hblocks, ho.counters⟩

end Onward

/-! ## Decisions -/

/-- The one label of a calm step, where there is one. -/
def FollowPc.turn (chain : Chain) : FollowPc → Option FollowLabel
  | .checking => some (.detect (hashOn chain))
  | .rolling _ => some .rollback
  | .polling => some (.head (chain.length - 1))
  | .planning _ => some .plan
  | .chunking .. => some .chunk
  | .committing .. => some .commit
  | .stopped | .working .. => none

section Turn
variable {net : Network} {R : Runtime} {abi : Abi} {s s' s₁ : Follow}

theorem calm_turn {l k : FollowLabel} (hl : s.pc.turn s.chain = some l)
    (h : (calm net R abi).step s k s') : k = l := by
  obtain ⟨hs, hk⟩ := h
  have hs : followStep net R abi s k = some s' := hs
  cases hpc : s.pc <;> rw [hpc] at hl <;> cases hl <;> cases k <;>
    simp_all [followStep, Calm, detectStep, rollbackStep, planStep, chunkStep, fetchStep, execStep,
      joinStep, commitStep]
  omega

/-- A step that is the only one. -/
theorem inevitable_turn {P : Follow → Prop} {l : FollowLabel} (hl : s.pc.turn s.chain = some l)
    (hcalm : Calm net s l) (hs : followStep net R abi s l = some s₁)
    (h : (calm net R abi).Inevitable P s₁) : (calm net R abi).Inevitable P s := by
  refine .of_only (l := l) ⟨hs, hcalm⟩ (fun k s' hk => ?_) h
  obtain rfl := calm_turn hl hk
  have hk' : followStep net R abi s k = some s' := hk.1
  rw [hs, Option.some.injEq] at hk'
  exact hk'.symm

end Turn

/-! ## A chunk at work -/

/-- The task is about a block of the chain that can be stored, and what it has run is in the
database. -/
def TaskOn (net : Network) (R : Runtime) (abi : Abi) (chain : Chain) (db : Db) (t : Task) : Prop :=
  ∃ b, chain[t.height]? = some b ∧ NothingRejected (processBlock R abi t.height (net.answers b)) ∧
    ∀ p ∈ t.prog, p.ending = .ok ∧ ∃ done,
      (processBlock R abi t.height (net.answers b)).stmts = done ++ p.stmts ∧ ∀ s ∈ done, s.Held db

/-- The steps that a task has before it. -/
def Task.cost (net : Network) (R : Runtime) (abi : Abi) (chain : Chain) (t : Task) : Nat :=
  match t.prog with
  | none => (chain[t.height]?.elim 0 fun b =>
      (processBlock R abi t.height (net.answers b)).stmts.length) + 1
  | some p => p.stmts.length

/-- The chunk from `next` to `stop` is at work since `s₀`. -/
structure AtWork (net : Network) (R : Runtime) (abi : Abi) (s₀ : Follow) (first next stop last : Nat)
    (s : Follow) : Prop where
  onward : Onward net s₀ s
  tasks : ∃ tasks, s.pc = .working first next stop last tasks ∧
    (∀ t ∈ tasks, TaskOn net R abi s₀.chain s.db t) ∧
    ∀ n, next ≤ n → n ≤ stop → n ∈ tasks.map Task.height

/-- All its tasks are done. -/
structure Joined (net : Network) (s₀ : Follow) (first next stop last : Nat) (s : Follow) : Prop where
  onward : Onward net s₀ s
  pc : s.pc = .committing first next stop last
  indexed : ∀ n, next ≤ n → n ≤ stop → Indexed net s₀.chain s.db n

section Work
variable {net : Network} {R : Runtime} {abi : Abi} {chain : Chain} {s₀ s s' : Follow}
  {first next stop last : Nat}

theorem TaskOn.exec {env : Env} {stmt : Stmt} {db db' : Db} {t : Task}
    (h : TaskOn net R abi chain db t) (he : exec env stmt db = .ok db') :
    TaskOn net R abi chain db' t := by
  obtain ⟨b, hb, hfit, hprog⟩ := h
  refine ⟨b, hb, hfit, fun p hp => ?_⟩
  obtain ⟨hok, done, hstmts, hheld⟩ := hprog p hp
  exact ⟨hok, done, hstmts, fun s hs => (hheld s hs).exec he⟩

theorem map_height_set {tasks : List Task} {i height : Nat} {prog prog' : Option Program}
    (h : tasks[i]? = some ⟨height, prog⟩) :
    (tasks.set i ⟨height, prog'⟩).map Task.height = tasks.map Task.height := by
  refine List.ext_getElem? fun j => ?_
  rw [List.getElem?_map, List.getElem?_map, List.getElem?_set]
  split
  · rename_i hij
    subst hij
    rw [h]
    split
    · rfl
    · rename_i hi
      rw [List.getElem?_eq_none (by omega)] at h
      cases h
  · rfl

/-- A call that is not refused ends well. -/
theorem ending_ok {n : Nat} {b : B256} (h : NothingRejected (processBlock R abi n (net.answers b))) :
    (processBlock R abi n (net.answers b)).ending = .ok := by
  have hpanic := h.2
  unfold processBlock Network.answers at hpanic ⊢
  simp only [Option.getD_some] at hpanic ⊢
  generalize processFailedTxs R _ _ _ = rows at hpanic ⊢
  cases rows with
  | ok rows => rfl
  | error e =>
    cases e
    exact absurd rfl hpanic

/-- Each step of the chunk joins it or brings it nearer to that. -/
theorem atWork_step (hshort : s₀.chain.length ≤ 2 ^ 63)
    (h : AtWork net R abi s₀ first next stop last s) {l : FollowLabel}
    (hs : (calm net R abi).step s l s') :
    Joined net s₀ first next stop last s' ∨
      AtWork net R abi s₀ first next stop last s' ∧
        (s'.pc.tasks.map (Task.cost net R abi s₀.chain)).sum <
          (s.pc.tasks.map (Task.cost net R abi s₀.chain)).sum := by
  obtain ⟨hs, hcalm⟩ := hs
  have hs : followStep net R abi s l = some s' := hs
  obtain ⟨hon, tasks, hpc, htasks, hcover⟩ := h
  have hpcTasks : s.pc.tasks = tasks := by rw [hpc]; rfl
  cases l with
  | reorg chain => exact hcalm.elim
  | start config => exact hcalm.elim
  | stop => exact hcalm.elim
  | detect hashAt => simp [followStep, detectStep, hpc] at hs
  | rollback => simp [followStep, rollbackStep, hpc] at hs
  | head n => simp [followStep, hpc] at hs
  | plan => simp [followStep, planStep, hpc] at hs
  | chunk => simp [followStep, chunkStep, hpc] at hs
  | commit => simp [followStep, commitStep, hpc] at hs
  | fetch i a =>
    simp only [followStep, fetchStep, hpc] at hs
    split at hs
    · rename_i height htask
      split at hs <;> cases hs
      obtain ⟨b, hb, hfit, -⟩ := htasks _ (List.mem_of_getElem? htask)
      have ha : a = net.answers b :=
        hcalm ⟨height, none⟩ (by rw [hpcTasks]; exact htask) b (by rw [hon.chain]; exact hb)
      subst ha
      refine .inr ⟨⟨hon.goto _, _, rfl, fun t ht => ?_, ?_⟩, ?_⟩
      · rcases List.mem_or_eq_of_mem_set ht with ht | rfl
        · exact htasks t ht
        · refine ⟨b, hb, hfit, fun p hp => ?_⟩
          cases hp
          exact ⟨ending_ok hfit, [], rfl, by simp⟩
      · rw [map_height_set htask]
        exact hcover
      · rw [hpcTasks]
        exact LTS.sum_map_set_lt _ htask (by simp [Task.cost, hb])
    · cases hs
  | exec i env =>
    simp only [followStep, execStep, hpc] at hs
    split at hs
    · rename_i height stmt stmts ending htask
      obtain ⟨b, hb, hfit, hprog⟩ := htasks _ (List.mem_of_getElem? htask)
      obtain ⟨hok, done, hstmts, hdone⟩ := hprog _ rfl
      obtain ⟨db, hdb⟩ := next_accepted (net.aligned b) hfit hstmts hdone hcalm hon.counters
      rw [hdb] at hs
      cases hs
      have hstmt : stmt ∈ (processBlock R abi height (net.answers b)).stmts :=
        hstmts ▸ List.mem_append_right done List.mem_cons_self
      refine .inr ⟨⟨hon.exec hshort hb hstmt hcalm hdb _ _, _, rfl, fun t ht => ?_, ?_⟩, ?_⟩
      · rcases List.mem_or_eq_of_mem_set ht with ht | rfl
        · exact (htasks t ht).exec hdb
        · refine ⟨b, hb, hfit, fun p hp => ?_⟩
          cases hp
          refine ⟨hok, done ++ [stmt], by simp [hstmts], fun x hx => ?_⟩
          rcases List.mem_append.mp hx with hx | hx
          · exact (hdone x hx).exec hdb
          · obtain rfl := List.mem_singleton.mp hx
            exact exec_held hdb
      · rw [map_height_set htask]
        exact hcover
      · rw [hpcTasks]
        exact LTS.sum_map_set_lt _ htask (by simp [Task.cost])
    · cases hs
  | join =>
    simp only [followStep, joinStep, hpc] at hs
    split_ifs at hs with hdone
    cases hs
    refine .inl ⟨hon.goto _, rfl, fun n hn hstop => ?_⟩
    obtain ⟨t, ht, rfl⟩ := List.mem_map.mp (hcover n hn hstop)
    obtain ⟨b, hb, -, hprog⟩ := htasks t ht
    obtain ⟨-, done, hstmts, hheld⟩ := hprog _ (hdone t ht)
    rw [List.append_nil] at hstmts
    exact ⟨b, hb, held_block (net.aligned b) (hstmts ▸ hheld)⟩

/-- There is always a step to take: a task that is not done has a request or a statement. -/
theorem atWork_on (h : AtWork net R abi s₀ first next stop last s) :
    ∃ l s', (calm net R abi).step s l s' := by
  obtain ⟨hon, tasks, hpc, htasks, -⟩ := h
  have hpcTasks : s.pc.tasks = tasks := by rw [hpc]; rfl
  have hstep {l : FollowLabel} (hs : ∃ s', followStep net R abi s l = some s')
      (hcalm : Calm net s l) : ∃ l s', (calm net R abi).step s l s' := by
    obtain ⟨s', hs⟩ := hs
    exact ⟨l, s', hs, hcalm⟩
  by_cases hdone : ∀ t ∈ tasks, t.done
  · refine hstep (l := .join) ?_ trivial
    simp only [followStep, joinStep, hpc]
    exact ⟨_, if_pos hdone⟩
  · push Not at hdone
    obtain ⟨⟨height, prog⟩, ht, hnot⟩ := hdone
    obtain ⟨i, hi⟩ := List.mem_iff_getElem?.mp ht
    obtain ⟨b, hb, hfit, hprog⟩ := htasks _ ht
    cases prog with
    | none =>
      refine hstep (l := .fetch i (net.answers b)) ?_ ?_
      · simp only [followStep, fetchStep, hpc, hi]
        exact ⟨_, if_pos (.inr (by rw [hon.chain, hb]; rfl))⟩
      · intro t ht b' hb'
        rw [hpcTasks, hi] at ht
        cases ht
        rw [hon.chain, hb] at hb'
        cases hb'
        rfl
    | some p =>
      obtain ⟨stmts, ending⟩ := p
      obtain ⟨hok, done, hstmts, hheld⟩ := hprog _ rfl
      cases hok
      cases stmts with
      | nil => exact absurd rfl hnot
      | cons stmt stmts =>
        have hquiet : (⟨false, 0⟩ : Env).triggers = false := rfl
        obtain ⟨db, hdb⟩ := next_accepted (net.aligned b) hfit hstmts hheld hquiet hon.counters
        refine hstep (l := .exec i ⟨false, 0⟩) ?_ rfl
        simp only [followStep, execStep, hpc, hi, hdb]
        exact ⟨_, rfl⟩

theorem chunk_joins (hshort : s₀.chain.length ≤ 2 ^ 63)
    (h : AtWork net R abi s₀ first next stop last s) :
    (calm net R abi).Inevitable (Joined net s₀ first next stop last) s :=
  LTS.inevitable_of_rank (fun _ hs => atWork_on hs) (fun _ _ _ hw hs => atWork_step hshort hw hs) h

/-- Its tasks stand for the heights of the chunk, one each. -/
theorem spawned_atWork (hfits : ChainFits net R abi s) (hstop : stop < s.chain.length) :
    AtWork net R abi s first next stop last
      { s with pc := .working first next stop last (chunkTasks next stop) } := by
  refine ⟨(Onward.refl hfits.counters).goto _, _, rfl, fun t ht => ?_, fun n hn hle => ?_⟩
  · obtain ⟨n, hn, rfl⟩ := List.mem_map.mp ht
    have hlt : n < s.chain.length := by
      have := List.mem_range'_1.mp hn
      omega
    have hb := List.getElem?_eq_getElem hlt
    exact ⟨_, hb, hfits.blocks n _ hb, by simp⟩
  · rw [chunkTasks, List.map_map]
    exact List.mem_map.mpr ⟨n, List.mem_range'_1.mpr (by omega), rfl⟩

end Work

/-! ## Chunk after chunk -/

section Range
variable {net : Network} {R : Runtime} {abi : Abi} {s : Follow} {first next last : Nat}

theorem chunk_completes (hpc : s.pc = .chunking first next last) (hle : next ≤ last)
    (hlast : last < s.chain.length) (hfits : ChainFits net R abi s) :
    (calm net R abi).Inevitable (ChunkDone net s first next last) s := by
  have hbatch := hfits.batch
  have hbatchShort := hfits.batchShort
  have hshort := hfits.short
  have hend : chunkEnd next s.config.batchSize last = min (next + s.config.batchSize - 1) last := by
    rw [chunkEnd, Nat.mod_eq_of_lt (by omega)]
  have hchunk : followStep net R abi s .chunk = some
      { s with pc := .working first next (min (next + s.config.batchSize - 1) last) last
                (chunkTasks next (min (next + s.config.batchSize - 1) last)) } := by
    simp only [followStep, chunkStep, hpc]
    rw [if_neg (by omega), if_neg (by omega), hend]
  refine inevitable_turn (l := .chunk) (by rw [hpc]; rfl) trivial hchunk ?_
  refine (chunk_joins hshort (spawned_atWork hfits (by omega))).trans fun s₁ hj => ?_
  obtain ⟨⟨hchain, hconfig, hcounters, hblocks, hfresh, hkept⟩, hpc₁, hindexed⟩ := hj
  have hcommit : followStep net R abi s₁ .commit = some
      { s₁ with
        db := updateCheckpoint (asI64 (min (next + s.config.batchSize - 1) last)) s₁.db
        pc := .chunking first (next + s₁.config.batchSize) last } := by
    simp only [followStep, commitStep, hpc₁]
  refine inevitable_turn (l := .commit) (by rw [hpc₁]; rfl) trivial hcommit (.now ?_)
  refine ⟨⟨hchain, hconfig, hcounters, hblocks, hfresh, hkept⟩, ?_, fun n hn hlt hlast => ?_, rfl⟩
  · simp only [hconfig]
  · exact hindexed n hn (by omega)

/-- **A range gets indexed.** From any state in which a range stands before the loop, whatever
the database holds: left alone, with blocks that can be stored, the process cannot help but come
to the end of it, however its tasks take their turns; then every block of the range is stored
with its transactions, the checkpoint is at its end, and what was indexed before still is. -/
theorem range_completes (hpc : s.pc = .chunking first next last)
    (hlast : last < s.chain.length) (hfits : ChainFits net R abi s) :
    (calm net R abi).Inevitable (RangeDone net s next last) s := by
  induction hm : last + 1 - next using Nat.strong_induction_on generalizing s next with
  | _ m ih =>
    by_cases hle : next ≤ last
    · refine (chunk_completes hpc hle hlast hfits).trans fun s₁ hdone => ?_
      have hbatch := hfits.batch
      refine (ih _ (by omega) hdone.pc (by rw [hdone.onward.chain]; exact hlast)
        (hfits.onward hdone.onward) rfl).mono fun s₂ hrange => ?_
      refine ⟨hdone.onward.trans hrange.onward, hrange.pc, fun n hn hlast => ?_, ?_⟩
      · have hchain := hdone.onward.chain
        by_cases hlt : n < next + s.config.batchSize
        · have hkept := hrange.onward.indexed n
          rw [hchain] at hkept
          exact hkept (hdone.indexed n hn hlt hlast)
        · rw [← hchain]
          exact hrange.indexed n (by omega) hlast
      · rw [hrange.checkpoint, hdone.checkpoint, if_pos hle]
        split
        · rfl
        · rw [Nat.min_eq_right (by omega)]
    · have hchunk : followStep net R abi s .chunk = some { s with pc := .checking } := by
        simp only [followStep, chunkStep, hpc]
        rw [if_neg (by have := hfits.batch; omega), if_pos (by omega)]
      refine inevitable_turn (l := .chunk) (by rw [hpc]; rfl) trivial hchunk (.now ?_)
      refine ⟨(Onward.refl hfits.counters).goto _, rfl, fun n hn hlast => by omega, ?_⟩
      rw [if_neg hle]

end Range

end Amarillo.L3
