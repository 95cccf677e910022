import Amarillo.Core.LTS
import Amarillo.L3Indexer.FailedStub
import Amarillo.L3Indexer.Network

/-!
# One height while the chain moves

`ProcessBlock` takes the answers of the node as given. Here they are asked one
by one of a chain that may be replaced between any two steps: the block and
the receipts of `process_block(n)` by number, in either order (`try_join!`),
the traces by transaction hash. The call is a transition system (`calls`) whose
steps are the requests, the statements and the reorgs.

Nothing in the call compares hashes: receipts of one block are paired with the
transactions of another, a block row that is there already keeps the hash of
an older block. `Stable` is what would have to be compared.

* `one_snapshot`: while `Stable` holds, a call that returns `Ok` stored rows of
  one block, the one whose hash is in its `block` row, each transaction row from
  one transaction.
* `stable_run`: on a chain that stands still the steps of a call are exactly the
  statements of `processBlock`, and `Stable` holds at each.
* `torn_row`: a reorg between the two fetches pairs the hash and the status of
  one transaction with the sender of another.
-/
namespace Amarillo.L3
open Amarillo.Core Amarillo.L1 Amarillo.L2

inductive Reply where
  | failed
  | null
  | full
  deriving DecidableEq

/-- Where a call is. `fetching` keeps what each half of the join has brought,
with `some none` for `null` receipts. -/
inductive Phase where
  | fetching (block : Option B256) (receipts : Option (Option B256))
  | storing (block : B256) (receipts : List RpcReceipt) (todo : List Stmt)
  | tracing (block : B256) (todo : List String) (rows : List TraceLog × List FailedTransaction)
  | recording (block : B256) (todo : List Stmt)
  | returned (ok : Bool)
  deriving DecidableEq

/-- `known` are the blocks that have been on the chain at some time. -/
structure Call where
  chain : Chain
  known : List B256
  db : Db
  phase : Phase

inductive CallLabel where
  | reorg (chain : Chain)
  | block (r : Reply)
  | receipts (r : Reply)
  | exec (env : Env)
  | trace (answered : Bool)
  | next

section System
variable (net : Network) (R : Runtime) (abi : Abi) (n : Nat)

/-- Both halves of the join are needed. -/
def joined : Option B256 → Option (Option B256) → Phase
  | some b, some r =>
    let receipts := (r.map net.receipts).getD []
    .storing b receipts (indexedStmts abi n (net.block b) receipts)
  | block, receipts => .fetching block receipts

/-- mirrors crates/indexer/src/worker.rs:352-361 -/
def fetchBlock (c : Call) : Reply → Option Call
  | .full =>
    match c.phase, c.chain[n]? with
    | .fetching none receipts, some b => some { c with phase := joined net abi n (some b) receipts }
    | _, _ => none
  | _ =>
    match c.phase with
    | .fetching none _ => some { c with phase := .returned false }
    | _ => none

/-- mirrors crates/indexer/src/worker.rs:362-369 -/
def fetchReceipts (c : Call) : Reply → Option Call
  | .full =>
    match c.phase, c.chain[n]? with
    | .fetching block none, some b => some { c with phase := joined net abi n block (some (some b)) }
    | _, _ => none
  | .null =>
    match c.phase with
    | .fetching block none => some { c with phase := joined net abi n block (some none) }
    | _ => none
  | .failed =>
    match c.phase with
    | .fetching _ none => some { c with phase := .returned false }
    | _ => none

/-- One statement, of either half. -/
def execNext (c : Call) (env : Env) : Option Call :=
  match c.phase with
  | .storing b receipts (s :: todo) =>
    match exec env s c.db with
    | .ok db => some { c with db := db, phase := .storing b receipts todo }
    | .error _ => some { c with phase := .returned false }
  | .recording b (s :: todo) =>
    match exec env s c.db with
    | .ok db => some { c with db := db, phase := .recording b todo }
    | .error _ => some { c with phase := .returned false }
  | _ => none

/-- One iteration of the loop of `process_failed_txs`. -/
def traceNext (c : Call) (answered : Bool) : Option Call :=
  match c.phase with
  | .tracing b (h :: todo) rows =>
    match processFailedTxs R (fun x => if answered then net.traceOn c.chain x else .failed)
        (net.timestamp b) [h] with
    | .ok new => some { c with phase := .tracing b todo (rows.1 ++ new.1, rows.2 ++ new.2) }
    | .error _ => some { c with phase := .returned false }
  | _ => none

def advance (c : Call) : Option Call :=
  match c.phase with
  | .storing b receipts [] => some { c with phase := .tracing b (failedHashes receipts) ([], []) }
  | .tracing b [] rows => some
    { c with
      phase := .recording b
        (batch .insertTraceLogs rows.1 ++ batch .insertFailedTransactions rows.2) }
  | .recording _ [] => some { c with phase := .returned true }
  | _ => none

def callStep (c : Call) : CallLabel → Option Call
  | .reorg chain => some { c with chain := chain, known := chain ++ c.known }
  | .block r => fetchBlock net abi n c r
  | .receipts r => fetchReceipts net abi n c r
  | .exec env => execNext c env
  | .trace answered => traceNext net R c answered
  | .next => advance c

/-- The calls for height `n` that start on the database `start`. -/
def calls (start : Db) : LTS Call CallLabel :=
  .ofFn (fun c => c.db = start ∧ c.known = c.chain ∧ c.phase = .fetching none none)
    (callStep net R abi n)

/-- Each request is answered from the block the call is about, and a block row
that is there already is that block's. -/
def Stable (c : Call) : CallLabel → Prop
  | .block .full =>
    match c.phase with
    | .fetching _ (some (some r)) => c.chain[n]? = some r
    | _ => True
  | .receipts .full =>
    match c.phase with
    | .fetching (some b) _ => c.chain[n]? = some b
    | _ => True
  | .exec _ =>
    match c.phase with
    | .storing b _ _ => ∀ row, c.db.blocks.get (asI64 n) = some row → row.blockHash = some b.hex
    | _ => True
  | .trace true =>
    match c.phase with
    | .tracing b (h :: _) _ => ∀ b', net.including c.chain h = some b' → b' = b
    | _ => True
  | _ => True

end System

/-! ## Rows of one block -/

section Rows
variable (net : Network) (R : Runtime) (abi : Abi) (n : Nat) (b : B256)

/-- A row built from one transaction of the block and its receipt. -/
def OneTransaction (t : Transaction) : Prop :=
  ∃ p ∈ (net.receipts b).zip (net.block b).transactions,
    p.1.transactionHash = p.2.hash ∧ t = transactionRow n p.1 p.2

def Network.events : List DecodedEvent := decodedEvents abi (net.timestamp b) (net.receipts b)

def TracedRow (t : TraceLog) : Prop :=
  ∃ h ∈ failedHashes (net.receipts b), t ∈ traceRowsOf R (net.trace b) h

def ClassifiedRow (f : FailedTransaction) : Prop :=
  ∃ h ∈ failedHashes (net.receipts b), recordOf R (net.trace b) (net.timestamp b) h = some f

/-- The block row of height `n` is the block's. -/
def HasBlock (db : Db) : Prop :=
  ∃ row, db.blocks.get (asI64 n) = some row ∧ row.blockHash = some b.hex

/-- A statement that carries rows of one block only. -/
structure Fits (s : Stmt) : Prop where
  blocks : ∀ r ∈ s.blockRows, r = blockRow n (net.block b).header
  transactions : ∀ t ∈ s.transactionRows, OneTransaction net n b t
  swapEvents : ∀ e ∈ s.swapRows, e ∈ swapEvents (net.events abi b)
  liquidityEvents : ∀ e ∈ s.liquidityRows, e ∈ liquidityEvents (net.events abi b)
  tokenTransfers : ∀ t ∈ s.transferRows, t ∈ tokenTransfers (net.events abi b)
  traceLogs : ∀ t ∈ s.traceRows, TracedRow net R b t
  failedTransactions : ∀ f ∈ s.failedRows, ClassifiedRow net R b f

/-- Every row that is not from `start` is from the block; a failure record may
be the stub the trigger makes of a transaction and the block row. -/
structure FromBlock (start db : Db) : Prop where
  blocks : ∀ r ∈ db.blocks.rows, r ∈ start.blocks.rows ∨ r = blockRow n (net.block b).header
  transactions : ∀ t ∈ db.transactions.rows,
    t ∈ start.transactions.rows ∨ OneTransaction net n b t
  swapEvents : ∀ e ∈ db.swapEvents.rows,
    e ∈ start.swapEvents.rows ∨ e ∈ swapEvents (net.events abi b)
  liquidityEvents : ∀ e ∈ db.liquidityEvents.rows,
    e ∈ start.liquidityEvents.rows ∨ e ∈ liquidityEvents (net.events abi b)
  tokenTransfers : ∀ t ∈ db.tokenTransfers.rows,
    t ∈ start.tokenTransfers.rows ∨ t ∈ tokenTransfers (net.events abi b)
  traceLogs : ∀ t ∈ db.traceLogs.rows, t ∈ start.traceLogs.rows ∨
    ∃ id l, TracedRow net R b l ∧ t = TraceLog.withId id l.stored
  failedTransactions : ∀ f ∈ db.failedTransactions.rows, f ∈ start.failedTransactions.rows ∨
    ClassifiedRow net R b f ∨
    ∃ t row, OneTransaction net n b t ∧ db.blocks.get (asI64 n) = some row ∧
      t.status = 0 ∧ f = { txHash := t.txHash, errorCategory := .unknown, revertReason := none
                           failingFunction := none, gasUsed := t.gasUsed
                           timestamp := row.timestamp }

/-- What a call may leave behind: nothing but rows of one block that has been
on the chain, and that block's row for the height. -/
def OneSnapshot (start : Db) (known : List B256) (db : Db) : Prop :=
  ∃ b ∈ known, HasBlock n b db ∧ FromBlock net R abi n b start db

variable {net R abi n b}

theorem oneTransaction_of_mem {t : Transaction}
    (h : t ∈ transactionRows n (net.receipts b) (net.block b).transactions) :
    OneTransaction net n b t := by
  rw [transactionRows, ← List.map_uncurry_zip_eq_zipWith] at h
  obtain ⟨p, hp, rfl⟩ := List.mem_map.mp h
  exact ⟨p, hp, net.zip_hash hp, rfl⟩

/-- What a call sends about one block fits it, with all receipts or with none. -/
theorem fits_of_sends {receipts : List RpcReceipt} {s : Stmt}
    (hr : receipts = [] ∨ receipts = net.receipts b)
    (h : Sends R abi n (net.answers b) (net.block b) receipts s) : Fits net R abi n b s := by
  have hevents : ∀ e ∈ decodedEvents abi (net.timestamp b) receipts, e ∈ net.events abi b := by
    rcases hr with rfl | rfl
    · exact fun e he => nomatch he
    · exact fun e he => he
  have hhashes : ∀ x ∈ failedHashes receipts, x ∈ failedHashes (net.receipts b) := by
    rcases hr with rfl | rfl
    · exact fun x hx => nomatch hx
    · exact fun x hx => hx
  cases h with
  | blocks =>
    constructor <;> try exact List.forall_mem_nil _
    exact fun r hr => List.mem_singleton.mp hr
  | transactions =>
    constructor <;> try exact List.forall_mem_nil _
    intro t ht
    rcases hr with rfl | rfl
    · cases ht
    · exact oneTransaction_of_mem ht
  | swaps he =>
    subst he
    constructor <;> try exact List.forall_mem_nil _
    exact fun e he => List.filterMap_subset _ hevents he
  | liquidity he =>
    subst he
    constructor <;> try exact List.forall_mem_nil _
    exact fun e he => List.filterMap_subset _ hevents he
  | transfers he =>
    subst he
    constructor <;> try exact List.forall_mem_nil _
    exact fun e he => List.filterMap_subset _ hevents he
  | traces hp =>
    constructor <;> try exact List.forall_mem_nil _
    intro t ht
    simp only [Stmt.traceRows, (processFailedTxs_ok R hp).1] at ht
    obtain ⟨x, hx, htx⟩ := List.mem_flatMap.mp ht
    exact ⟨x, hhashes x hx, htx⟩
  | failed hp =>
    constructor <;> try exact List.forall_mem_nil _
    intro f hf
    simp only [Stmt.failedRows, (processFailedTxs_ok R hp).2.1] at hf
    obtain ⟨x, hx, hfx⟩ := List.mem_filterMap.mp hf
    exact ⟨x, hhashes x hx, hfx⟩

theorem FromBlock.refl (start : Db) : FromBlock net R abi n b start start where
  blocks _ h := .inl h
  transactions _ h := .inl h
  swapEvents _ h := .inl h
  liquidityEvents _ h := .inl h
  tokenTransfers _ h := .inl h
  traceLogs _ h := .inl h
  failedTransactions _ h := .inl h

/-- A block row stays what it is. -/
theorem get_blocks_exec {env : Env} {s : Stmt} {db db' : Db} (h : exec env s db = .ok db')
    {k : Int} {row : Block} (hrow : db.blocks.get k = some row) : db'.blocks.get k = some row := by
  rw [(exec_applied h).blocks, Table.get_insertNew, hrow, Option.some_or]

theorem HasBlock.exec {env : Env} {s : Stmt} {db db' : Db} (hb : HasBlock n b db)
    (h : exec env s db = .ok db') : HasBlock n b db' := by
  obtain ⟨row, hrow, hhash⟩ := hb
  exact ⟨row, get_blocks_exec h hrow, hhash⟩

theorem FromBlock.exec {start : Db} {env : Env} {s : Stmt} {db db' : Db}
    (hf : FromBlock net R abi n b start db) (hs : Fits net R abi n b s)
    (h : exec env s db = .ok db') : FromBlock net R abi n b start db' := by
  have ha := exec_applied h
  constructor
  · intro r hr
    rw [ha.blocks] at hr
    exact (Table.mem_insertNew hr).elim (hf.blocks r) fun hr => .inr (hs.blocks r hr)
  · intro t ht
    rw [ha.transactions] at ht
    exact (Table.mem_insertNew ht).elim (hf.transactions t) fun ht => .inr (hs.transactions t ht)
  · intro e he
    rw [ha.swapEvents] at he
    exact (Table.mem_insertNew he).elim (hf.swapEvents e) fun he => .inr (hs.swapEvents e he)
  · intro e he
    rw [ha.liquidityEvents] at he
    exact (Table.mem_insertNew he).elim (hf.liquidityEvents e)
      fun he => .inr (hs.liquidityEvents e he)
  · intro t ht
    rw [ha.tokenTransfers] at ht
    exact (Table.mem_insertNew ht).elim (hf.tokenTransfers t)
      fun ht => .inr (hs.tokenTransfers t ht)
  · intro t ht
    rw [ha.traceLogs] at ht
    rcases Serial.mem_append ht with ht | ⟨id, l, hl, rfl⟩
    · exact hf.traceLogs t ht
    · obtain ⟨l', hl', rfl⟩ := List.mem_map.mp hl
      exact .inr ⟨id, l', hs.traceLogs l' hl', rfl⟩
  · intro f hfm
    rw [ha.failedTransactions] at hfm
    rcases Table.mem_insertNew hfm with hfm | hfm
    · rcases Table.mem_insertNew hfm with hfm | hfm
      · rcases hf.failedTransactions f hfm with h₀ | h₀ | ⟨t, row, ht, hrow, hst, he⟩
        · exact .inl h₀
        · exact .inr (.inl h₀)
        · exact .inr (.inr ⟨t, row, ht, get_blocks_exec h hrow, hst, he⟩)
      · -- the trigger: a stub of a new row of this very batch
        unfold Db.stubs at hfm
        split at hfm
        · obtain ⟨t, ht, hstub⟩ := List.mem_filterMap.mp hfm
          have htm := hs.transactions t (lookup_mem _ (Table.mem_news ht).2)
          unfold failedStub at hstub
          split at hstub
          · rename_i hst
            obtain ⟨row, hrow, rfl⟩ := Option.map_eq_some_iff.mp hstub
            obtain ⟨p, hp, hph, rfl⟩ := htm
            exact .inr (.inr ⟨_, row, ⟨p, hp, hph, rfl⟩, get_blocks_exec h hrow, hst, rfl⟩)
          · cases hstub
        · cases hfm
    · exact .inr (.inl (hs.failedTransactions f hfm))

/-- The first statement of a call puts the block row there, or finds it. -/
theorem hasBlock_inserted {env : Env} {db db' : Db}
    (hrow : ∀ row, db.blocks.get (asI64 n) = some row → row.blockHash = some b.hex)
    (h : exec env (.insertBlocks [blockRow n (net.block b).header]) db = .ok db') :
    HasBlock n b db' := by
  unfold HasBlock
  rw [(exec_applied h).blocks, Table.get_insertNew]
  cases hg : db.blocks.get (asI64 n) with
  | some row => exact ⟨row, rfl, hrow row hg⟩
  | none =>
    refine ⟨blockRow n (net.block b).header, ?_, by simp [blockRow, net.hash_eq]⟩
    simp [lookup]

end Rows

/-! ## The invariant -/

section Invariant
variable (net : Network) (R : Runtime) (abi : Abi) (n : Nat) (start : Db)

def PhaseInv (known : List B256) (db : Db) : Phase → Prop
  | .fetching block receipts =>
    db = start ∧ (∀ b, block = some b → b ∈ known) ∧
      ∀ b r, block = some b → receipts = some (some r) → r = b
  | .storing b receipts todo =>
    b ∈ known ∧ (receipts = [] ∨ receipts = net.receipts b) ∧ FromBlock net R abi n b start db ∧
      (∀ s ∈ todo, Fits net R abi n b s) ∧
      (HasBlock n b db ∨ ∃ rest, todo = .insertBlocks [blockRow n (net.block b).header] :: rest)
  | .tracing b todo rows =>
    b ∈ known ∧ HasBlock n b db ∧ FromBlock net R abi n b start db ∧
      (∀ h ∈ todo, h ∈ failedHashes (net.receipts b)) ∧
      (∀ t ∈ rows.1, TracedRow net R b t) ∧ ∀ f ∈ rows.2, ClassifiedRow net R b f
  | .recording b todo =>
    b ∈ known ∧ HasBlock n b db ∧ FromBlock net R abi n b start db ∧
      ∀ s ∈ todo, Fits net R abi n b s
  | .returned ok => ok = true → OneSnapshot net R abi n start known db

structure CallInv (c : Call) : Prop where
  onChain : ∀ b ∈ c.chain, b ∈ c.known
  phase : PhaseInv net R abi n start c.known c.db c.phase

variable {net R abi n start}

theorem PhaseInv.mono {known known' : List B256} {db : Db} {p : Phase} (hk : known ⊆ known')
    (h : PhaseInv net R abi n start known db p) : PhaseInv net R abi n start known' db p := by
  cases p with
  | fetching block receipts => exact ⟨h.1, fun b hb => hk (h.2.1 b hb), h.2.2⟩
  | storing b receipts todo => exact ⟨hk h.1, h.2⟩
  | tracing b todo rows => exact ⟨hk h.1, h.2⟩
  | recording b todo => exact ⟨hk h.1, h.2⟩
  | returned ok =>
    intro hok
    obtain ⟨b, hb, hrest⟩ := h hok
    exact ⟨b, hk hb, hrest⟩

theorem PhaseInv.joined {known : List B256} {db : Db} {block : Option B256}
    {receipts : Option (Option B256)}
    (h : PhaseInv net R abi n start known db (.fetching block receipts)) :
    PhaseInv net R abi n start known db (joined net abi n block receipts) := by
  cases block with
  | none => exact h
  | some b =>
    cases receipts with
    | none => exact h
    | some r =>
      obtain ⟨hdb, hb, hr⟩ := h
      have hr' : (r.map net.receipts).getD [] = [] ∨
          (r.map net.receipts).getD [] = net.receipts b := by
        cases r with
        | none => exact .inl rfl
        | some b' => exact .inr (by rw [hr b b' rfl rfl]; rfl)
      refine ⟨hb b rfl, hr', hdb ▸ FromBlock.refl db, ?_, .inr ⟨_, rfl⟩⟩
      exact fun s hs => fits_of_sends hr' (mem_indexedStmts R hs)

theorem fetchBlock_inv {c c' : Call} {r : Reply} (hi : CallInv net R abi n start c)
    (hg : Stable net n c (.block r)) (h : fetchBlock net abi n c r = some c') :
    CallInv net R abi n start c' := by
  obtain ⟨chain, known, db, phase⟩ := c
  obtain ⟨hchain, hp⟩ := hi
  unfold fetchBlock at h
  split at h
  · split at h
    · rename_i receipts b hph hb
      simp only at hph hb
      subst hph
      cases h
      refine ⟨hchain, PhaseInv.joined ⟨hp.1, ?_, ?_⟩⟩
      · intro b' hb'
        cases hb'
        exact hchain b (List.mem_of_getElem? hb)
      · intro b' r hb' hr
        cases hb'
        subst hr
        exact Option.some.inj (hg.symm.trans hb)
    · cases h
  · split at h
    · cases h
      exact ⟨hchain, nofun⟩
    · cases h

theorem fetchReceipts_inv {c c' : Call} {r : Reply} (hi : CallInv net R abi n start c)
    (hg : Stable net n c (.receipts r)) (h : fetchReceipts net abi n c r = some c') :
    CallInv net R abi n start c' := by
  obtain ⟨chain, known, db, phase⟩ := c
  obtain ⟨hchain, hp⟩ := hi
  unfold fetchReceipts at h
  split at h
  · split at h
    · rename_i hph hb
      simp only at hph hb
      subst hph
      cases h
      refine ⟨hchain, PhaseInv.joined ⟨hp.1, hp.2.1, ?_⟩⟩
      intro b' r hb' hr
      cases hr
      subst hb'
      exact Option.some.inj (hb.symm.trans hg)
    · cases h
  · split at h
    · rename_i hph
      simp only at hph
      subst hph
      cases h
      exact ⟨hchain, PhaseInv.joined ⟨hp.1, hp.2.1, nofun⟩⟩
    · cases h
  · split at h
    · cases h
      exact ⟨hchain, nofun⟩
    · cases h

theorem execNext_inv {c c' : Call} {env : Env} (hi : CallInv net R abi n start c)
    (hg : Stable net n c (.exec env)) (h : execNext c env = some c') :
    CallInv net R abi n start c' := by
  obtain ⟨chain, known, db, phase⟩ := c
  obtain ⟨hchain, hp⟩ := hi
  unfold execNext at h
  split at h
  · rename_i b receipts s todo hph
    simp only at hph
    subst hph
    split at h
    · rename_i m hm
      cases h
      obtain ⟨hb, hr, hf, hfits, hrow⟩ := hp
      refine ⟨hchain, hb, hr, hf.exec (hfits s List.mem_cons_self) hm,
        fun s' hs' => hfits s' (List.mem_cons_of_mem _ hs'), .inl ?_⟩
      rcases hrow with hrow | ⟨rest, hrest⟩
      · exact hrow.exec hm
      · cases hrest
        exact hasBlock_inserted hg hm
    · cases h
      exact ⟨hchain, nofun⟩
  · rename_i b s todo hph
    simp only at hph
    subst hph
    split at h
    · rename_i m hm
      cases h
      obtain ⟨hb, hrow, hf, hfits⟩ := hp
      exact ⟨hchain, hb, hrow.exec hm, hf.exec (hfits s List.mem_cons_self) hm,
        fun s' hs' => hfits s' (List.mem_cons_of_mem _ hs')⟩
    · cases h
      exact ⟨hchain, nofun⟩
  · cases h

/-- What one iteration adds when the answer, if there is one, is the block's. -/
theorem traced_rows {b : B256} {answer : TraceAnswer} {h : String}
    {new : List TraceLog × List FailedTransaction} (hh : h ∈ failedHashes (net.receipts b))
    (ha : answer = .failed ∨ answer = net.trace b h)
    (hnew : processFailedTxs R (fun _ => answer) (net.timestamp b) [h] = .ok new) :
    (∀ t ∈ new.1, TracedRow net R b t) ∧ ∀ f ∈ new.2, ClassifiedRow net R b f := by
  obtain ⟨h₁, h₂, -⟩ := processFailedTxs_ok R hnew
  rw [h₁, h₂]
  rcases ha with rfl | rfl
  · simp [traceRowsOf, recordOf, traceFrames]
  · constructor
    · intro t ht
      obtain ⟨x, hx, ht⟩ := List.mem_flatMap.mp ht
      rw [List.mem_singleton.mp hx] at ht
      exact ⟨h, hh, ht⟩
    · intro f hf
      obtain ⟨x, hx, hf⟩ := List.mem_filterMap.mp hf
      rw [List.mem_singleton.mp hx] at hf
      exact ⟨h, hh, hf⟩

theorem traceNext_inv {c c' : Call} {answered : Bool} (hi : CallInv net R abi n start c)
    (hg : Stable net n c (.trace answered)) (h : traceNext net R c answered = some c') :
    CallInv net R abi n start c' := by
  obtain ⟨chain, known, db, phase⟩ := c
  obtain ⟨hchain, hp⟩ := hi
  unfold traceNext at h
  split at h
  · rename_i b x todo rows hph
    simp only at hph
    subst hph
    split at h
    · rename_i new hnew
      cases h
      obtain ⟨hb, hrow, hf, htodo, htr, hfa⟩ := hp
      have hans : (if answered then net.traceOn chain x else .failed) = TraceAnswer.failed ∨
          (if answered then net.traceOn chain x else .failed) = net.trace b x := by
        cases answered with
        | false => exact .inl rfl
        | true =>
          simp only [if_true, Network.traceOn]
          cases hinc : net.including chain x with
          | none => exact .inl rfl
          | some b' => exact .inr (by rw [hg b' hinc])
      obtain ⟨h₁, h₂⟩ := traced_rows (htodo x List.mem_cons_self) hans hnew
      refine ⟨hchain, hb, hrow, hf, fun y hy => htodo y (List.mem_cons_of_mem _ hy), ?_, ?_⟩
      · exact fun t ht => (List.mem_append.mp ht).elim (htr t) (h₁ t)
      · exact fun f hf => (List.mem_append.mp hf).elim (hfa f) (h₂ f)
    · cases h
      exact ⟨hchain, nofun⟩
  · cases h

theorem advance_inv {c c' : Call} (hi : CallInv net R abi n start c) (h : advance c = some c') :
    CallInv net R abi n start c' := by
  obtain ⟨chain, known, db, phase⟩ := c
  obtain ⟨hchain, hp⟩ := hi
  unfold advance at h
  split at h
  · rename_i b receipts hph
    simp only at hph
    subst hph
    cases h
    obtain ⟨hb, hr, hf, -, hrow | ⟨rest, hrest⟩⟩ := hp
    · refine ⟨hchain, hb, hrow, hf, ?_, List.forall_mem_nil _, List.forall_mem_nil _⟩
      rcases hr with rfl | rfl
      · exact fun h hh => nomatch hh
      · exact fun h hh => hh
    · cases hrest
  · rename_i b rows hph
    simp only at hph
    subst hph
    cases h
    obtain ⟨hb, hrow, hf, -, htr, hfa⟩ := hp
    refine ⟨hchain, hb, hrow, hf, fun s hs => ?_⟩
    rcases List.mem_append.mp hs with hs | hs
    · rw [mem_batch hs]
      constructor <;> try exact List.forall_mem_nil _
      exact htr
    · rw [mem_batch hs]
      constructor <;> try exact List.forall_mem_nil _
      exact hfa
  · rename_i b hph
    simp only at hph
    subst hph
    cases h
    obtain ⟨hb, hrow, hf, -⟩ := hp
    exact ⟨hchain, fun _ => ⟨b, hb, hrow, hf⟩⟩
  · cases h

theorem callInv_inductive :
    ((calls net R abi n start).restrict (Stable net n)).Inductive (CallInv net R abi n start) where
  init := by
    rintro ⟨chain, known, db, phase⟩ ⟨hdb, hk, hp⟩
    simp only at hdb hk hp
    subst hk hp
    exact ⟨fun _ h => h, hdb, nofun, nofun⟩
  step := by
    rintro c l c' hi ⟨hs, hg⟩
    cases l with
    | reorg chain =>
      cases hs
      exact ⟨fun b hb => List.mem_append_left _ hb,
        hi.phase.mono (List.subset_append_right _ _)⟩
    | block r => exact fetchBlock_inv hi hg hs
    | receipts r => exact fetchReceipts_inv hi hg hs
    | exec env => exact execNext_inv hi hg hs
    | trace answered => exact traceNext_inv hi hg hs
    | next => exact advance_inv hi hs

/-- **One block while the chain is stable.** In every run whose requests are
answered from the block the call is about, and in which a block row that is
there already is that block's, a call that returned `Ok` stored rows of one
block only, the one its `block` row names. -/
theorem one_snapshot (c : Call)
    (h : ((calls net R abi n start).restrict (Stable net n)).Reachable c)
    (hok : c.phase = .returned true) : OneSnapshot net R abi n start c.known c.db := by
  have hi := callInv_inductive.reachable c h
  have hp := hi.phase
  rw [hok] at hp
  exact hp rfl

end Invariant

/-! ## A chain that stands still -/

section Still
variable {net : Network} {R : Runtime} {abi : Abi} {n : Nat} {start : Db} {b : B256}
  {chain : Chain} {known : List B256}

theorem rowIs_exec {env : Env} {s : Stmt} {db db' : Db} (hs : Fits net R abi n b s)
    (h : exec env s db = .ok db')
    (hrow : ∀ row, db.blocks.get (asI64 n) = some row → row.blockHash = some b.hex) :
    ∀ row, db'.blocks.get (asI64 n) = some row → row.blockHash = some b.hex := by
  intro row hget
  rw [(exec_applied h).blocks, Table.get_insertNew] at hget
  cases hg : db.blocks.get (asI64 n) with
  | some row' =>
    rw [hg] at hget
    cases hget
    exact hrow row hg
  | none =>
    rw [hg, Option.none_or] at hget
    rw [hs.blocks row (lookup_mem _ hget)]
    simp [blockRow, net.hash_eq]

theorem run_storing {env : Env} {receipts : List RpcReceipt} {todo : List Stmt} {db db' : Db}
    (hfits : ∀ s ∈ todo, Fits net R abi n b s)
    (hrow : ∀ row, db.blocks.get (asI64 n) = some row → row.blockHash = some b.hex)
    (h : execAll env todo db = (db', none)) :
    ∃ ls, ((calls net R abi n start).restrict (Stable net n)).Run
      ⟨chain, known, db, .storing b receipts todo⟩ ls
      ⟨chain, known, db', .storing b receipts []⟩ := by
  induction todo generalizing db with
  | nil =>
    cases h
    exact ⟨[], .nil _⟩
  | cons s todo ih =>
    obtain ⟨m, hm, h⟩ := execAll_cons.mp h
    obtain ⟨ls, hrun⟩ := ih (fun s' hs' => hfits s' (List.mem_cons_of_mem _ hs'))
      (rowIs_exec (hfits s List.mem_cons_self) hm hrow) h
    refine ⟨.exec env :: ls, .cons ⟨?_, hrow⟩ hrun⟩
    simp [calls, LTS.ofFn, callStep, execNext, hm]

theorem run_recording {env : Env} {todo : List Stmt} {db db' : Db}
    (h : execAll env todo db = (db', none)) :
    ∃ ls, ((calls net R abi n start).restrict (Stable net n)).Run
      ⟨chain, known, db, .recording b todo⟩ ls ⟨chain, known, db', .recording b []⟩ := by
  induction todo generalizing db with
  | nil =>
    cases h
    exact ⟨[], .nil _⟩
  | cons s todo ih =>
    obtain ⟨m, hm, h⟩ := execAll_cons.mp h
    obtain ⟨ls, hrun⟩ := ih h
    refine ⟨.exec env :: ls, .cons ⟨?_, trivial⟩ hrun⟩
    simp [calls, LTS.ofFn, callStep, execNext, hm]

theorem processFailedTxs_cons {trace : String → TraceAnswer} {ts : Int} {x : String}
    {hs : List String} {rows : List TraceLog × List FailedTransaction}
    (h : processFailedTxs R trace ts (x :: hs) = .ok rows) :
    ∃ r₁ r₂, processFailedTxs R trace ts [x] = .ok r₁ ∧ processFailedTxs R trace ts hs = .ok r₂ ∧
      rows = (r₁.1 ++ r₂.1, r₁.2 ++ r₂.2) := by
  rw [processFailedTxs] at h
  cases hx : traceFrames R trace x with
  | none =>
    rw [hx] at h
    exact ⟨([], []), rows, by simp [processFailedTxs, hx], h, rfl⟩
  | some frames =>
    simp only [hx, bind, Except.bind, pure, Except.pure] at h
    split at h
    · cases h
    · rename_i f hf
      split at h
      · cases h
      · rename_i rest hrest
        cases h
        exact ⟨(frames.map (toTraceLog x), [f]), rest,
          by simp [processFailedTxs, hx, hf, bind, Except.bind, pure, Except.pure], hrest, by simp⟩

theorem processFailedTxs_single_congr {t t' : String → TraceAnswer} {ts : Int} {x : String}
    (h : t x = t' x) : processFailedTxs R t ts [x] = processFailedTxs R t' ts [x] := by
  have hframes : traceFrames R t x = traceFrames R t' x := by
    unfold traceFrames
    rw [h]
  simp only [processFailedTxs, hframes]

theorem run_tracing {hs : List String} {rows acc : List TraceLog × List FailedTransaction} {db : Db}
    (hinc : ∀ x ∈ hs, net.including chain x = some b)
    (h : processFailedTxs R (net.trace b) (net.timestamp b) hs = .ok rows) :
    ∃ ls, ((calls net R abi n start).restrict (Stable net n)).Run
      ⟨chain, known, db, .tracing b hs acc⟩ ls
      ⟨chain, known, db, .tracing b [] (acc.1 ++ rows.1, acc.2 ++ rows.2)⟩ := by
  induction hs generalizing rows acc with
  | nil =>
    cases h
    exact ⟨[], by simpa using LTS.Run.nil _⟩
  | cons x hs ih =>
    obtain ⟨r₁, r₂, h₁, h₂, rfl⟩ := processFailedTxs_cons h
    obtain ⟨ls, hrun⟩ := @ih r₂ (acc.1 ++ r₁.1, acc.2 ++ r₁.2)
      (fun y hy => hinc y (List.mem_cons_of_mem _ hy)) h₂
    have hx := hinc x List.mem_cons_self
    refine ⟨.trace true :: ls, .cons ⟨?_, ?_⟩ (by simpa using hrun)⟩
    · have hanswer : processFailedTxs R (fun y => net.traceOn chain y) (net.timestamp b) [x] =
          .ok r₁ := by
        rw [← h₁]
        exact processFailedTxs_single_congr (by simp [Network.traceOn, hx])
      simp only [calls, LTS.ofFn, callStep, traceNext, if_true]
      rw [hanswer]
    · intro b' hb'
      exact Option.some.inj (hb'.symm.trans hx)

/-- On a chain that stands still a call goes through exactly the statements of
`processBlock` and meets `Stable` at every step. -/
theorem stable_run {env : Env} {db' : Db} (hb : chain[n]? = some b)
    (hinc : ∀ x ∈ failedHashes (net.receipts b), net.including chain x = some b)
    (hrow : ∀ row, start.blocks.get (asI64 n) = some row → row.blockHash = some b.hex)
    (hrun : (processBlock R abi n (net.answers b)).run env start = (db', true)) :
    ((calls net R abi n start).restrict (Stable net n)).Reachable
      ⟨chain, chain, db', .returned true⟩ := by
  obtain ⟨hall, hok⟩ := Program.run_ok hrun
  obtain ⟨block, receipts, traces, failed, hblock, hreceipts, hp, hstmts⟩ := processBlock_ok R hok
  cases hblock
  cases hreceipts
  rw [hstmts, fullStmts, List.append_assoc] at hall
  obtain ⟨m, hindexed, hrecorded⟩ := execAll_append.mp hall
  have hfits : ∀ s ∈ indexedStmts abi n (net.block b) (net.receipts b), Fits net R abi n b s :=
    fun s hs => fits_of_sends (.inr rfl) (mem_indexedStmts R hs)
  let S := (calls net R abi n start).restrict (Stable net n)
  let stmts := indexedStmts abi n (net.block b) (net.receipts b)
  have hstoring : ∃ ls, S.Run ⟨chain, chain, start, .storing b (net.receipts b) stmts⟩ ls
      ⟨chain, chain, m, .storing b (net.receipts b) []⟩ := run_storing hfits hrow hindexed
  have htracing : ∃ ls, S.Run ⟨chain, chain, m, .tracing b (failedHashes (net.receipts b)) ([], [])⟩
      ls ⟨chain, chain, m, .tracing b [] ([] ++ traces, [] ++ failed)⟩ := run_tracing hinc hp
  have hrecording : ∃ ls, S.Run ⟨chain, chain, m, .recording b (batch .insertTraceLogs traces ++
      batch .insertFailedTransactions failed)⟩ ls ⟨chain, chain, db', .recording b []⟩ :=
    run_recording hrecorded
  obtain ⟨ls₁, hrun₁⟩ := hstoring
  obtain ⟨ls₂, hrun₂⟩ := htracing
  obtain ⟨ls₃, hrun₃⟩ := hrecording
  refine ⟨⟨chain, chain, start, .fetching none none⟩,
    .block .full :: .receipts .full :: (ls₁ ++ .next :: (ls₂ ++ .next :: (ls₃ ++ [.next]))),
    ⟨rfl, rfl, rfl⟩, ?_⟩
  have hblock : (calls net R abi n start).step ⟨chain, chain, start, .fetching none none⟩
      (.block .full) ⟨chain, chain, start, .fetching (some b) none⟩ := by
    simp [calls, LTS.ofFn, callStep, fetchBlock, hb, joined]
  have hreceipts : (calls net R abi n start).step ⟨chain, chain, start, .fetching (some b) none⟩
      (.receipts .full) ⟨chain, chain, start, .storing b (net.receipts b)
        (indexedStmts abi n (net.block b) (net.receipts b))⟩ := by
    simp [calls, LTS.ofFn, callStep, fetchReceipts, hb, joined]
  exact .cons ⟨hblock, trivial⟩ (.cons ⟨hreceipts, hb⟩ (hrun₁.append (.cons ⟨rfl, trivial⟩
    (hrun₂.append (.cons ⟨rfl, trivial⟩ (hrun₃.append (.cons ⟨rfl, trivial⟩ (.nil _))))))))

end Still

/-! ## Two blocks for one height -/

def transferTx : RpcTx where
  hash := .repeatByte 0xbb
  fromAddr := .repeatByte 0x33
  toAddr := some (.repeatByte 0x44)
  value := 7
  input := []
  effectiveGasPrice := some 1000000000

def transferReceipt : RpcReceipt where
  transactionHash := .repeatByte 0xbb
  gasUsed := 21000
  status := true
  logs := []

/-- `0xb1…` holds the reverting transaction, `0xb2…` a plain transfer. -/
def forkNet : Network where
  block b :=
    if b = .repeatByte 0xb1 then revertBlock
    else if b = .repeatByte 0xb2 then ⟨⟨b, .repeatByte 0xb0, 1700000012, 30000000⟩, [transferTx]⟩
    else ⟨⟨b, .repeatByte 0, 1700000000, 30000000⟩, []⟩
  receipts b :=
    if b = .repeatByte 0xb1 then [revertReceipt]
    else if b = .repeatByte 0xb2 then [transferReceipt]
    else []
  trace _ := (revertAnswers customErrorTrace).trace
  hash_eq b := by
    split
    · rename_i h
      exact h.symm
    · split <;> rfl
  aligned b := by
    split
    · rfl
    · split <;> rfl

def mainChain : Chain := [.repeatByte 0xb0, .repeatByte 0xb1]
def sideChain : Chain := [.repeatByte 0xb0, .repeatByte 0xb2]

def forkRun : Db × Bool :=
  (processBlock (.asciiOnly true) wordAbi 1 (forkNet.answers (.repeatByte 0xb1))).run liveEnv Db.empty

theorem forkNet_answers : forkNet.answers (.repeatByte 0xb1) = revertAnswers customErrorTrace := by
  simp [Network.answers, forkNet, revertAnswers]

theorem forkRun_ok : forkRun = (forkRun.1, true) := by
  rw [forkRun, forkNet_answers]
  exact revertRun_ok

theorem mainChain_including : ∀ x ∈ failedHashes (forkNet.receipts (.repeatByte 0xb1)),
    forkNet.including mainChain x = some (.repeatByte 0xb1) := by
  have hreverted : forkNet.receipts (.repeatByte 0xb1) = [revertReceipt] := by
    unfold forkNet
    simp only
    exact if_pos trivial
  have hparent : forkNet.receipts (.repeatByte 0xb0) = [] := by
    unfold forkNet
    simp only
    rw [if_neg (by decide +kernel), if_neg (by decide +kernel)]
  intro x hx
  rw [hreverted] at hx
  obtain rfl : x = revertReceipt.transactionHash.hex := List.mem_singleton.mp hx
  rw [Network.including, mainChain, List.find?_cons_of_neg, List.find?_cons_of_pos]
  · rw [hreverted]
    simp
  · rw [hparent]
    exact Bool.false_ne_true

theorem forkRun_reachable : ((calls forkNet (.asciiOnly true) wordAbi 1 Db.empty).restrict
    (Stable forkNet 1)).Reachable ⟨mainChain, mainChain, forkRun.1, .returned true⟩ :=
  stable_run rfl mainChain_including (fun _ h => nomatch h) forkRun_ok

theorem still_snapshot :
    OneSnapshot forkNet (.asciiOnly true) wordAbi 1 Db.empty mainChain forkRun.1 := by
  -- for a variable in place of `forkRun.1`, which would be evaluated
  have key : ∀ db, ((calls forkNet (.asciiOnly true) wordAbi 1 Db.empty).restrict
      (Stable forkNet 1)).Reachable ⟨mainChain, mainChain, db, .returned true⟩ →
      OneSnapshot forkNet (.asciiOnly true) wordAbi 1 Db.empty mainChain db :=
    fun db h => one_snapshot ⟨mainChain, mainChain, db, .returned true⟩ h rfl
  exact key forkRun.1 forkRun_reachable

/-- The block is fetched from `mainChain`, the receipts from `sideChain`. -/
def tornLabels : List CallLabel :=
  [.block .full, .reorg sideChain, .receipts .full, .exec liveEnv, .exec liveEnv, .next, .next, .next]

/-- The stored transaction has the hash of the transfer and the sender of the
reverted call; the block row is `0xb1…`. -/
theorem torn_row :
    ¬ ∀ (net : Network) (R : Runtime) (abi : Abi) (n : Nat) (start : Db) (c : Call),
      (calls net R abi n start).Reachable c → c.phase = .returned true →
      OneSnapshot net R abi n start c.known c.db := by
  intro h
  have hrun : (LTS.exec (callStep forkNet (.asciiOnly true) wordAbi 1)
      ⟨mainChain, mainChain, Db.empty, .fetching none none⟩ tornLabels).map (fun c =>
        (c.phase, (c.db.blocks.get (asI64 1)).map Block.blockHash,
          c.db.transactions.rows.map Transaction.txHash)) =
      some (.returned true, some (some (FixedBytes.hex (.repeatByte 0xb1 : B256))),
        [FixedBytes.hex (.repeatByte 0xbb : B256)]) := by
    decide +kernel
  obtain ⟨c, hexec, hc⟩ := Option.map_eq_some_iff.mp hrun
  simp only [Prod.mk.injEq] at hc
  obtain ⟨hphase, hblock, htxs⟩ := hc
  obtain ⟨b, -, ⟨row, hrow, hhash⟩, hfrom⟩ := h forkNet (.asciiOnly true) wordAbi 1 Db.empty c
    (LTS.reachable_of_exec ⟨rfl, rfl, rfl⟩ hexec) hphase
  rw [hrow, Option.map_some, hhash, Option.some.injEq, Option.some.injEq] at hblock
  have hb := FixedBytes.hex_inj hblock
  subst hb
  obtain ⟨t, ht, hth⟩ := List.mem_map.mp (htxs ▸ List.mem_singleton_self _)
  obtain hstart | ⟨p, hp, -, rfl⟩ := hfrom.transactions t ht
  · cases hstart
  · have hp' : p = (revertReceipt, revertTx) := List.mem_singleton.mp hp
    rw [hp'] at hth
    exact absurd (FixedBytes.hex_inj hth) (by decide)

end Amarillo.L3
