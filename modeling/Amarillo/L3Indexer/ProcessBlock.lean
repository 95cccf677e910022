import Amarillo.L1Decoder.Events
import Amarillo.L2Db.Queries

/-!
# One block (`indexer/src/worker.rs`, `process_block` and `process_failed_txs`)

`processBlock` turns the answers of the node for one height into a `Program`:
the statements the call sends, in order, and how it ends when none of them is
refused. The statements depend on the answers only, never on the database, so
everything a run does to the tables is `execAll` over `Program.stmts`.

The calls `rpc_with_retry` wraps are seen after their retries. A missing block
is an error; `null` receipts are an empty list. A transaction is paired with
its receipt by position. A failing transaction whose trace cannot be had is
logged and left out (`traceOne`).

`Panic` is a task that dies: `decodeRevertReason` on a length word that wraps,
or a selector cut through a character.
-/
namespace Amarillo.L3
open Amarillo.Core Amarillo.L1 Amarillo.L2

inductive Panic where
  | panic
  deriving DecidableEq, Repr

/-! ## Answers of the node -/

structure RpcLog where
  address : Address
  topics : List B256
  data : Bytes
  logIndex : Option (BitVec 64)
  deriving DecidableEq

structure RpcReceipt where
  transactionHash : B256
  gasUsed : BitVec 64
  status : Bool
  logs : List RpcLog
  deriving DecidableEq

structure RpcTx where
  hash : B256
  fromAddr : Address
  toAddr : Option Address
  value : BitVec 256
  input : Bytes
  effectiveGasPrice : Option (BitVec 128)
  deriving DecidableEq

structure RpcHeader where
  hash : B256
  parentHash : B256
  timestamp : BitVec 64
  gasUsed : BitVec 64
  deriving DecidableEq

structure RpcBlock where
  header : RpcHeader
  transactions : List RpcTx
  deriving DecidableEq

/-- `debug_traceTransaction` with the call tracer: an error, a `GethTrace` of
another kind, or a frame as `serde_json::to_value` gives it. -/
inductive TraceAnswer where
  | failed
  | other
  | callTracer (json : Option Json)

/-- `none` for a call that failed after all retries; the inner `none` of
`receipts` is `null`. -/
structure Answers where
  block : Option RpcBlock
  receipts : Option (Option (List RpcReceipt))
  trace : String → TraceAnswer

/-! ## Rows -/

/-- `DateTime::from_timestamp(secs, 0).unwrap_or_default()`: years -262143 to 262142. -/
def fromTimestamp (secs : Int) : Int :=
  if -8334601228800 ≤ secs ∧ secs ≤ 8210266876799 then secs else 0

/-- mirrors crates/indexer/src/worker.rs:374-380 -/
def blockRow (blockNumber : Nat) (h : RpcHeader) : Block where
  blockNumber := asI64 blockNumber
  timestamp := fromTimestamp h.timestamp.toInt
  gasUsed := h.gasUsed.toInt
  blockHash := some h.hash.hex
  parentHash := some h.parentHash.hex

@[simp] theorem blockRow_blockNumber (blockNumber : Nat) (h : RpcHeader) :
    (blockRow blockNumber h).blockNumber = asI64 blockNumber := rfl

/-- mirrors crates/indexer/src/worker.rs:395-411 -/
def transactionRow (blockNumber : Nat) (receipt : RpcReceipt) (tx : RpcTx) : Transaction where
  txHash := receipt.transactionHash.hex
  fromAddr := tx.fromAddr.hex
  toAddr := tx.toAddr.map FixedBytes.hex
  blockNumber := asI64 blockNumber
  gasUsed := receipt.gasUsed.toInt
  gasPrice := (tx.effectiveGasPrice.getD 0).toNat
  value := tx.value.toNat
  status := if receipt.status then 1 else 0
  inputData := if tx.input.isEmpty then none else some ("0x" ++ bytesToHex tx.input)

/-- `block_txs.get(idx)` for the receipt at `idx`. -/
def transactionRows (blockNumber : Nat) (receipts : List RpcReceipt) (txs : List RpcTx) :
    List Transaction :=
  List.zipWith (transactionRow blockNumber) receipts txs

/-- `log_index.unwrap_or(0) as i32` -/
def RpcLog.index (l : RpcLog) : Int := ((l.logIndex.getD 0).setWidth 32).toInt

/-- mirrors crates/indexer/src/worker.rs:415-446 -/
def decodedEvents (abi : Abi) (timestamp : Int) (receipts : List RpcReceipt) : List DecodedEvent :=
  receipts.flatMap fun r => r.logs.filterMap fun l =>
    if l.topics.isEmpty then none
    else (decodeLog abi l.topics l.data
      ⟨l.address.hex, r.transactionHash.hex, l.index, timestamp⟩).toOption

/-- mirrors crates/indexer/src/worker.rs:622-639 -/
def toSwapModel (s : DecodedSwap) : SwapEvent where
  poolAddress := s.poolAddress
  txHash := s.txHash
  sender := s.sender
  recipient := s.recipient
  amount0 := s.amount0
  amount1 := s.amount1
  amountIn := s.amountIn
  amountOut := s.amountOut
  sqrtPriceX96 := s.sqrtPriceX96
  liquidity := s.liquidity
  tick := s.tick
  logIndex := s.logIndex
  timestamp := s.timestamp

/-- mirrors crates/indexer/src/worker.rs:642-661 -/
def toLiquidityModel (l : DecodedLiquidity) : LiquidityEvent where
  eventType := if l.eventType = "BURN" then .burn else .mint
  poolAddress := l.poolAddress
  txHash := l.txHash
  provider := l.provider
  token0Amount := l.token0Amount
  token1Amount := l.token1Amount
  tickLower := l.tickLower
  tickUpper := l.tickUpper
  liquidity := l.liquidity
  logIndex := l.logIndex
  timestamp := l.timestamp

/-- mirrors crates/indexer/src/worker.rs:664-675 -/
def toTransferModel (t : DecodedTransfer) : TokenTransfer where
  txHash := t.txHash
  tokenAddress := t.tokenAddress
  fromAddr := t.fromAddr
  toAddr := t.toAddr
  amount := t.amount
  logIndex := t.logIndex
  timestamp := t.timestamp

def swapEvents (es : List DecodedEvent) : List SwapEvent :=
  es.filterMap fun | .swap s => some (toSwapModel s) | .liquidity _ => none | .transfer _ => none

def liquidityEvents (es : List DecodedEvent) : List LiquidityEvent :=
  es.filterMap fun | .swap _ => none | .liquidity l => some (toLiquidityModel l) | .transfer _ => none

def tokenTransfers (es : List DecodedEvent) : List TokenTransfer :=
  es.filterMap fun | .swap _ => none | .liquidity _ => none | .transfer t => some (toTransferModel t)

/-! ## Failed transactions -/

variable (R : Runtime)

/-- mirrors crates/indexer/src/worker.rs:551-562 -/
def toTraceLog (txHash : String) (f : FlatFrame) : TraceLog where
  txHash := txHash
  callDepth := f.depth
  callType := f.callType
  fromAddr := f.fromAddr
  toAddr := f.toAddr
  value := f.value
  gasUsed := f.gasUsed
  input := f.input
  output := f.output
  error := f.error
  traceId := 0

/-- mirrors crates/indexer/src/worker.rs:567-574 -/
def revertReason (output : Option String) : Except Panic (Option String) :=
  match output.bind fun o => hexDecode (strip0x o.toList) with
  | none => .ok none
  | some bytes =>
    match decodeRevertReason R bytes with
    | .ok reason => .ok (some reason)
    | .error (.error _) => .ok none
    | .error .panic => .error .panic

/-- mirrors crates/indexer/src/worker.rs:576-579 -/
def reasonCategory (reason : Option String) : String :=
  (reason.map (classifyError R)).getD "UNKNOWN"

/-- mirrors crates/indexer/src/worker.rs:586-593 -/
def matchCategory (s : String) : ErrorCategory :=
  if s = "INSUFFICIENT_BALANCE" then .insufficientBalance
  else if s = "SLIPPAGE_EXCEEDED" then .slippageExceeded
  else if s = "DEADLINE_EXPIRED" then .deadlineExpired
  else if s = "UNAUTHORIZED" then .unauthorized
  else if s = "TRANSFER_FAILED" then .transferFailed
  else .unknown

def utf8Size (s : List Char) : Nat := (s.map fun c => c.utf8Size).sum

/-- `&s[..n]`, `none` when byte `n` lies inside a character. -/
def bytePrefix : Nat → List Char → Option (List Char)
  | 0, _ => some []
  | _ + 1, [] => none
  | n + 1, c :: cs => if c.utf8Size ≤ n + 1 then (bytePrefix (n + 1 - c.utf8Size) cs).map (c :: ·) else none

/-- The function selector of the root call.
mirrors crates/indexer/src/worker.rs:596-607 -/
def failingFunction (input : Option String) : Except Panic (Option String) :=
  match input with
  | none => .ok none
  | some i =>
    let hex := strip0x i.toList
    if 8 ≤ utf8Size hex then
      match bytePrefix 8 hex with
      | some p => .ok (some ("0x" ++ String.ofList p))
      | none => .error .panic
    else .ok none

/-- The decoded revert reason of the root frame. -/
def rootReason (root : Option FlatFrame) : Except Panic (Option String) :=
  match root with
  | some f => revertReason R f.output
  | none => .ok none

/-- What one traced transaction contributes.
mirrors crates/indexer/src/worker.rs:566-616 -/
def failedRecord (txHash : String) (timestamp : Int) (frames : List FlatFrame) :
    Except Panic FailedTransaction :=
  match rootReason R frames.head?, failingFunction (frames.head?.bind FlatFrame.input) with
  | .error e, _ => .error e
  | .ok _, .error e => .error e
  | .ok reason, .ok failing => .ok
    { txHash := txHash
      errorCategory := matchCategory (reasonCategory R reason)
      revertReason := reason
      failingFunction := failing
      gasUsed := (frames.head?.map FlatFrame.gasUsed).getD 0
      timestamp := timestamp }

theorem failedRecord_ok {txHash : String} {timestamp : Int} {frames : List FlatFrame}
    {f : FailedTransaction} (h : failedRecord R txHash timestamp frames = .ok f) :
    rootReason R frames.head? = .ok f.revertReason ∧
    failingFunction (frames.head?.bind FlatFrame.input) = .ok f.failingFunction ∧
    f.txHash = txHash ∧ f.timestamp = timestamp ∧
    f.errorCategory = matchCategory (reasonCategory R f.revertReason) ∧
    f.gasUsed = (frames.head?.map FlatFrame.gasUsed).getD 0 := by
  unfold failedRecord at h
  split at h
  · cases h
  · cases h
  · rename_i h₁ h₂
    cases h
    exact ⟨h₁, h₂, rfl, rfl, rfl, rfl⟩

/-- The parsed trace of one failing transaction, `none` where the loop goes on.
mirrors crates/indexer/src/worker.rs:513-546 -/
def traceFrames (trace : String → TraceAnswer) (txHash : String) : Option (List FlatFrame) :=
  match trace txHash with
  | .failed => none
  | .other => none
  | .callTracer none => none
  | .callTracer (some json) => ((parseTrace R txHash json).toOption).map FlattenedTrace.frames

/-- mirrors crates/indexer/src/worker.rs:503-620 -/
def processFailedTxs (trace : String → TraceAnswer) (timestamp : Int) :
    List String → Except Panic (List TraceLog × List FailedTransaction)
  | [] => .ok ([], [])
  | h :: hs => do
    match traceFrames R trace h with
    | none => processFailedTxs trace timestamp hs
    | some frames =>
      let f ← failedRecord R h timestamp frames
      let rest ← processFailedTxs trace timestamp hs
      return (frames.map (toTraceLog h) ++ rest.1, f :: rest.2)

/-- The trace rows of one transaction. -/
def traceRowsOf (trace : String → TraceAnswer) (txHash : String) : List TraceLog :=
  ((traceFrames R trace txHash).getD []).map (toTraceLog txHash)

/-- The record of one transaction, when its trace is had and nothing panics. -/
def recordOf (trace : String → TraceAnswer) (timestamp : Int) (txHash : String) :
    Option FailedTransaction :=
  (traceFrames R trace txHash).bind fun frames => (failedRecord R txHash timestamp frames).toOption

/-- What the loop collects when no task panics. -/
theorem processFailedTxs_ok {trace : String → TraceAnswer} {timestamp : Int} {hs : List String}
    {traces : List TraceLog} {failed : List FailedTransaction}
    (h : processFailedTxs R trace timestamp hs = .ok (traces, failed)) :
    traces = hs.flatMap (traceRowsOf R trace) ∧ failed = hs.filterMap (recordOf R trace timestamp) ∧
    ∀ x ∈ hs, (recordOf R trace timestamp x).isSome = (traceFrames R trace x).isSome := by
  induction hs generalizing traces failed with
  | nil =>
    cases h
    exact ⟨rfl, rfl, fun _ h => nomatch h⟩
  | cons x hs ih =>
    unfold processFailedTxs at h
    cases hx : traceFrames R trace x with
    | none =>
      rw [hx] at h
      obtain ⟨h₁, h₂, h₃⟩ := ih h
      refine ⟨?_, ?_, ?_⟩
      · simpa [traceRowsOf, hx] using h₁
      · simpa [recordOf, hx] using h₂
      · simpa [recordOf, hx] using h₃
    | some frames =>
      simp only [hx, bind, Except.bind, pure, Except.pure] at h
      split at h
      · cases h
      · rename_i f hf
        split at h
        · cases h
        · rename_i rest hrest
          cases h
          obtain ⟨h₁, h₂, h₃⟩ := ih hrest
          have hrec : recordOf R trace timestamp x = some f := by
            simp [recordOf, hx, hf, Except.toOption]
          refine ⟨?_, ?_, ?_⟩
          · simp [traceRowsOf, hx, h₁]
          · simp [hrec, h₂]
          · intro y hy
            rcases List.mem_cons.mp hy with rfl | hy
            · simp [hrec, hx]
            · exact h₃ y hy

theorem recordOf_txHash {trace : String → TraceAnswer} {timestamp : Int} {x : String}
    {f : FailedTransaction} (h : recordOf R trace timestamp x = some f) :
    f.txHash = x ∧ f.timestamp = timestamp := by
  obtain ⟨frames, -, h⟩ := Option.bind_eq_some_iff.mp h
  cases hf : failedRecord R x timestamp frames with
  | error e => simp [hf, Except.toOption] at h
  | ok g =>
    simp only [hf, Except.toOption, Option.some.injEq] at h
    subst h
    exact ⟨(failedRecord_ok R hf).2.2.1, (failedRecord_ok R hf).2.2.2.1⟩

/-! ## The block -/

/-- How a call ends when no statement is refused. -/
inductive Ending where
  | ok
  | rpcError
  | panic
  deriving DecidableEq, Repr

structure Program where
  stmts : List Stmt
  ending : Ending
  deriving DecidableEq

/-- A batch that is only sent when it has rows. -/
def batch {α : Type} (insert : List α → Stmt) (rows : List α) : List Stmt :=
  if rows.isEmpty then [] else [insert rows]

def failedHashes (receipts : List RpcReceipt) : List String :=
  (receipts.filter fun r => !r.status).map fun r => r.transactionHash.hex

def eventStmts (es : List DecodedEvent) : List Stmt :=
  batch .insertSwapEvents (swapEvents es) ++ batch .insertLiquidityEvents (liquidityEvents es) ++
  batch .insertTokenTransfers (tokenTransfers es)

/-- The statements before the traces are fetched.
mirrors crates/indexer/src/worker.rs:371-462 -/
def indexedStmts (abi : Abi) (blockNumber : Nat) (block : RpcBlock) (receipts : List RpcReceipt) :
    List Stmt :=
  .insertBlocks [blockRow blockNumber block.header] ::
    (batch .insertTransactions (transactionRows blockNumber receipts block.transactions) ++
      eventStmts (decodedEvents abi (fromTimestamp block.header.timestamp.toInt) receipts))

/-- mirrors crates/indexer/src/worker.rs:341-500 -/
def processBlock (abi : Abi) (blockNumber : Nat) (a : Answers) : Program :=
  match a.block, a.receipts with
  | some block, some receipts =>
    let receipts := receipts.getD []
    let stmts := indexedStmts abi blockNumber block receipts
    match processFailedTxs R a.trace (fromTimestamp block.header.timestamp.toInt)
        (failedHashes receipts) with
    | .ok (traces, failed) =>
      ⟨stmts ++ batch .insertTraceLogs traces ++ batch .insertFailedTransactions failed, .ok⟩
    | .error .panic => ⟨stmts, .panic⟩
  | _, _ => ⟨[], .rpcError⟩

theorem mem_batch {α : Type} {insert : List α → Stmt} {rows : List α} {s : Stmt}
    (h : s ∈ batch insert rows) : s = insert rows := by
  unfold batch at h
  split at h
  · cases h
  · exact List.mem_singleton.mp h

theorem execAll_batch {α : Type} {insert : List α → Stmt} {rows : List α} {env : Env} {db db' : Db}
    (h : execAll env (batch insert rows) db = (db', none)) :
    (rows = [] ∧ db' = db) ∨ exec env (insert rows) db = .ok db' := by
  unfold batch at h
  split at h
  · rename_i hr
    cases h
    exact .inl ⟨List.isEmpty_iff.mp hr, rfl⟩
  · obtain ⟨m, hm, hn⟩ := execAll_cons.mp h
    cases hn
    exact .inr hm

/-- The event batches touch neither transactions nor failure records. -/
theorem eventStmts_other (es : List DecodedEvent) : ∀ s ∈ eventStmts es,
    s.transactionRows = [] ∧ s.failedRows = [] := by
  intro s h
  simp only [eventStmts, List.mem_append] at h
  rcases h with (h | h) | h <;> rw [mem_batch h] <;> exact ⟨rfl, rfl⟩

/-- What the statements before the traces do to transactions and failure records. -/
theorem execAll_indexed {abi : Abi} {blockNumber : Nat} {block : RpcBlock}
    {receipts : List RpcReceipt} {env : Env} {db db' : Db}
    (h : execAll env (indexedStmts abi blockNumber block receipts) db = (db', none)) :
    let rows := transactionRows blockNumber receipts block.transactions
    let stored := { db with blocks := db.blocks.insertNew [blockRow blockNumber block.header] }
    db'.transactions = db.transactions.insertNew rows ∧
    db'.failedTransactions = db.failedTransactions.insertNew (stored.stubs env rows) := by
  obtain ⟨m, hm, h⟩ := execAll_cons.mp h
  obtain ⟨m', hm', h⟩ := execAll_append.mp h
  have hother := execAll_other env (eventStmts_other (decodedEvents abi
    (fromTimestamp block.header.timestamp.toInt) receipts)) m'
  rw [h] at hother
  have hblock := exec_applied hm
  have hmeq : m = { db with blocks := db.blocks.insertNew [blockRow blockNumber block.header] } := by
    simp only [exec, insertBlocks] at hm
    split at hm
    · cases hm
    · split at hm <;> cases hm
      rfl
  rw [hother.1, hother.2]
  rcases execAll_batch hm' with ⟨hrows, rfl⟩ | hx
  · rw [hrows, hmeq]
    simp
  · have ha := exec_applied hx
    rw [hmeq] at ha
    exact ⟨ha.transactions, ha.failedTransactions⟩

/-- The statements of a call that fetched everything it needs. -/
def fullStmts (abi : Abi) (blockNumber : Nat) (block : RpcBlock) (receipts : List RpcReceipt)
    (traces : List TraceLog) (failed : List FailedTransaction) : List Stmt :=
  indexedStmts abi blockNumber block receipts ++ batch .insertTraceLogs traces ++
  batch .insertFailedTransactions failed

/-- What all statements of a call do to transactions and failure records. -/
theorem execAll_full {abi : Abi} {blockNumber : Nat} {block : RpcBlock}
    {receipts : List RpcReceipt} {traces : List TraceLog} {failed : List FailedTransaction}
    {env : Env} {db db' : Db}
    (h : execAll env (fullStmts abi blockNumber block receipts traces failed) db = (db', none)) :
    let rows := transactionRows blockNumber receipts block.transactions
    let stored := { db with blocks := db.blocks.insertNew [blockRow blockNumber block.header] }
    let stubbed := db.failedTransactions.insertNew (stored.stubs env rows)
    db'.transactions = db.transactions.insertNew rows ∧
    db'.failedTransactions = stubbed.insertNew failed ∧
    ∀ f ∈ stubbed.news failed, db'.hasTransaction f.txHash = true := by
  obtain ⟨m₂, h₁₂, h₃⟩ := execAll_append.mp h
  obtain ⟨m₁, h₁, h₂⟩ := execAll_append.mp h₁₂
  obtain ⟨htx, hf⟩ := execAll_indexed h₁
  -- the trace batch leaves transactions and failure records alone
  have htraces : ∀ s ∈ batch .insertTraceLogs traces,
      s.transactionRows = [] ∧ s.failedRows = [] := fun s hs => by
    rw [mem_batch hs]
    exact ⟨rfl, rfl⟩
  have hother := execAll_other env htraces m₁
  rw [h₂] at hother
  rcases execAll_batch h₃ with ⟨rfl, rfl⟩ | hlast
  · exact ⟨hother.1.trans htx, hother.2.trans hf, by simp⟩
  · have ha := exec_applied hlast
    have htx' : db'.transactions = m₂.transactions := ha.transactions
    have hf' : db'.failedTransactions = m₂.failedTransactions.insertNew failed := by
      simpa using ha.failedTransactions
    refine ⟨htx'.trans (hother.1.trans htx), by rw [hf', hother.2, hf], fun f hfm => ?_⟩
    have := ha.failedTx f (by rw [hother.2, hf]; exact hfm)
    rwa [Db.hasTransaction, htx']

/-- A call that can return `Ok` fetched a block and receipts, and no trace panicked. -/
theorem processBlock_ok {abi : Abi} {blockNumber : Nat} {a : Answers}
    (h : (processBlock R abi blockNumber a).ending = .ok) :
    ∃ block receipts traces failed, a.block = some block ∧ a.receipts = some receipts ∧
      processFailedTxs R a.trace (fromTimestamp block.header.timestamp.toInt)
        (failedHashes (receipts.getD [])) = .ok (traces, failed) ∧
      (processBlock R abi blockNumber a).stmts =
        fullStmts abi blockNumber block (receipts.getD []) traces failed := by
  unfold processBlock at h ⊢
  split at h
  · rename_i block receipts hb hr
    simp only at h ⊢
    split at h
    · rename_i traces failed hp
      exact ⟨block, receipts, traces, failed, hb, hr, hp, rfl⟩
    · cases h
  · cases h

/-- A whole call: the database it leaves, and whether it returned `Ok(())`. -/
def Program.run (env : Env) (p : Program) (db : Db) : Db × Bool :=
  match execAll env p.stmts db with
  | (db', none) => (db', decide (p.ending = .ok))
  | (db', some _) => (db', false)

/-- The statements a call can send. -/
inductive Sends (abi : Abi) (blockNumber : Nat) (a : Answers) (block : RpcBlock)
    (receipts : List RpcReceipt) : Stmt → Prop where
  | blocks : Sends abi blockNumber a block receipts
      (.insertBlocks [blockRow blockNumber block.header])
  | transactions : Sends abi blockNumber a block receipts
      (.insertTransactions (transactionRows blockNumber receipts block.transactions))
  | swaps {es : List DecodedEvent} :
      es = decodedEvents abi (fromTimestamp block.header.timestamp.toInt) receipts →
      Sends abi blockNumber a block receipts (.insertSwapEvents (swapEvents es))
  | liquidity {es : List DecodedEvent} :
      es = decodedEvents abi (fromTimestamp block.header.timestamp.toInt) receipts →
      Sends abi blockNumber a block receipts (.insertLiquidityEvents (liquidityEvents es))
  | transfers {es : List DecodedEvent} :
      es = decodedEvents abi (fromTimestamp block.header.timestamp.toInt) receipts →
      Sends abi blockNumber a block receipts (.insertTokenTransfers (tokenTransfers es))
  | traces {rows : List TraceLog × List FailedTransaction} :
      processFailedTxs R a.trace (fromTimestamp block.header.timestamp.toInt)
        (failedHashes receipts) = .ok rows →
      Sends abi blockNumber a block receipts (.insertTraceLogs rows.1)
  | failed {rows : List TraceLog × List FailedTransaction} :
      processFailedTxs R a.trace (fromTimestamp block.header.timestamp.toInt)
        (failedHashes receipts) = .ok rows →
      Sends abi blockNumber a block receipts (.insertFailedTransactions rows.2)

theorem mem_indexedStmts {abi : Abi} {blockNumber : Nat} {a : Answers} {block : RpcBlock}
    {receipts : List RpcReceipt} {s : Stmt} (h : s ∈ indexedStmts abi blockNumber block receipts) :
    Sends R abi blockNumber a block receipts s := by
  simp only [indexedStmts, eventStmts, List.mem_cons, List.mem_append] at h
  rcases h with rfl | h | (h | h) | h
  · exact .blocks
  · exact mem_batch h ▸ .transactions
  · exact mem_batch h ▸ .swaps rfl
  · exact mem_batch h ▸ .liquidity rfl
  · exact mem_batch h ▸ .transfers rfl

/-- A call sends statements only for a block and receipts it fetched. -/
theorem mem_processBlock {abi : Abi} {blockNumber : Nat} {a : Answers} {s : Stmt}
    (h : s ∈ (processBlock R abi blockNumber a).stmts) :
    ∃ block receipts, a.block = some block ∧ a.receipts = some receipts ∧
      Sends R abi blockNumber a block (receipts.getD []) s := by
  unfold processBlock at h
  split at h
  · rename_i block receipts hb hr
    refine ⟨block, receipts, hb, hr, ?_⟩
    simp only at h
    split at h
    · rename_i traces failed hp
      rcases List.mem_append.mp h with h | h
      · rcases List.mem_append.mp h with h | h
        · exact mem_indexedStmts R h
        · exact mem_batch h ▸ .traces hp
      · exact mem_batch h ▸ .failed hp
    · exact mem_indexedStmts R h
  · cases h

theorem Program.run_ok {env : Env} {p : Program} {db db' : Db} (h : p.run env db = (db', true)) :
    execAll env p.stmts db = (db', none) ∧ p.ending = .ok := by
  unfold Program.run at h
  split at h
  · rename_i m hm
    simp only [Prod.mk.injEq, decide_eq_true_eq] at h
    rw [hm, h.1]
    exact ⟨rfl, h.2⟩
  · simp at h

/-- A row of the batch with a receipt's hash is built from that receipt. -/
theorem lookup_transactionRows {blockNumber : Nat} {receipts : List RpcReceipt} {txs : List RpcTx}
    (hnd : (receipts.map RpcReceipt.transactionHash).Nodup) {r : RpcReceipt} (hr : r ∈ receipts)
    {t : Transaction} (h : lookup Transaction.txHash r.transactionHash.hex
      (transactionRows blockNumber receipts txs) = some t) :
    ∃ tx ∈ txs, t = transactionRow blockNumber r tx := by
  have hkey := lookup_key Transaction.txHash h
  obtain ⟨i, hi, hit⟩ := List.getElem_of_mem (lookup_mem Transaction.txHash h)
  simp only [transactionRows, List.length_zipWith] at hi
  simp only [transactionRows, List.getElem_zipWith] at hit
  have hir : i < receipts.length := by omega
  have hit' : i < txs.length := by omega
  have hri : receipts[i] ∈ receipts := List.getElem_mem _
  rw [← hit] at hkey
  have hhash : receipts[i].transactionHash = r.transactionHash := FixedBytes.hex_inj hkey
  have := List.inj_on_of_nodup_map hnd hri hr hhash
  exact ⟨txs[i], List.getElem_mem _, by rw [← hit, this]⟩

end Amarillo.L3
