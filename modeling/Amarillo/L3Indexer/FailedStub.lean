import Amarillo.L3Indexer.RootCause

/-!
# Two writers of `failed_transaction`

`process_block` stores a transaction before its classified failure record,
because the record's foreign key needs it. With the triggers installed that
first insert already puts a stub with category `UNKNOWN` under the same key,
and the later batch is `ON CONFLICT DO NOTHING`: the stub stays.

* `failedTx_get`: after the statements, the row of a failing transaction is
  the stub, whatever was classified.
* `classified_stored_iff`: so the classified record is what is stored exactly
  when it is the stub.
-/
namespace Amarillo.L3
open Amarillo.Core Amarillo.L1 Amarillo.L2

variable (R : Runtime)

/-- The root output gives no reason: absent, not hex, or not decodable. -/
def NoReason (output : Option String) : Prop :=
  ∀ o ∈ output, ∀ bytes, hexDecode (strip0x o.toList) = some bytes →
    ∃ e, decodeRevertReason R bytes = .error (.error e)

/-- The root input has no selector: absent, or shorter than four bytes of hex. -/
def NoSelector (input : Option String) : Prop := ∀ i ∈ input, utf8Size (strip0x i.toList) < 8

theorem revertReason_none {output : Option String} :
    revertReason R output = .ok none ↔ NoReason R output := by
  unfold revertReason NoReason
  cases output with
  | none => simp
  | some o =>
    simp only [Option.bind_some, Option.mem_def, Option.some.injEq, forall_eq']
    cases hexDecode (strip0x o.toList) with
    | none => simp
    | some bytes =>
      simp only [Option.some.injEq, forall_eq']
      cases decodeRevertReason R bytes with
      | ok s => simp
      | error e => cases e <;> simp

theorem failingFunction_none {input : Option String} :
    failingFunction input = .ok none ↔ NoSelector input := by
  unfold failingFunction NoSelector
  cases input with
  | none => simp
  | some i =>
    simp only [Option.mem_def, Option.some.injEq, forall_eq']
    split
    · split <;> simp <;> omega
    · simp
      omega

/-- The record the trigger puts in for a failing transaction. -/
def stubRecord (r : RpcReceipt) (timestamp : Int) : FailedTransaction where
  txHash := r.transactionHash.hex
  errorCategory := .unknown
  revertReason := none
  failingFunction := none
  gasUsed := r.gasUsed.toInt
  timestamp := timestamp

/-- When a classified record is the trigger's stub, in terms of its root frame. -/
theorem failedRecord_eq_stub {r : RpcReceipt} {timestamp : Int} (ts : Int) {root : FlatFrame}
    {frames : List FlatFrame} {f : FailedTransaction} (hroot : frames.head? = some root)
    (h : failedRecord R r.transactionHash.hex timestamp frames = .ok f) :
    f = stubRecord r ts ↔ NoReason R root.output ∧ NoSelector root.input ∧
      root.gasUsed = r.gasUsed.toInt ∧ timestamp = ts := by
  obtain ⟨hr, hf, hh, ht, hc, hg⟩ := failedRecord_ok R h
  rw [hroot] at hr hf hg
  rw [← revertReason_none, ← failingFunction_none]
  simp only [rootReason, Option.bind_some, Option.map_some, Option.getD_some] at hr hf hg
  rw [hr, hf, ← ht, ← hg]
  constructor
  · rintro rfl
    exact ⟨rfl, rfl, rfl, rfl⟩
  · rintro ⟨h₁, h₂, h₃, h₄⟩
    simp only [Except.ok.injEq] at h₁ h₂
    rw [h₁] at hc
    cases f
    simp only at *
    subst h₁ h₂ h₃ h₄ hh hc
    rfl

/-- After a successful call the row of a failing transaction is the stub. -/
theorem failedTx_get {abi : Abi} {blockNumber : Nat} {env : Env} {db db' : Db} {block : RpcBlock}
    {receipts : List RpcReceipt} {traces : List TraceLog} {failed : List FailedTransaction}
    (htrig : env.triggers = true) (hnd : (receipts.map RpcReceipt.transactionHash).Nodup)
    (hfk : db.ForeignKeys)
    (hfresh : ∀ r ∈ receipts, db.hasTransaction r.transactionHash.hex = false)
    (hrun : execAll env (fullStmts abi blockNumber block receipts traces failed) db = (db', none))
    {r : RpcReceipt} (hr : r ∈ receipts) (hfail : r.status = false)
    (hrec : ∃ f ∈ failed, f.txHash = r.transactionHash.hex) :
    ∃ ts, ((db.blocks.get (asI64 blockNumber)).or
        (some (blockRow blockNumber block.header))).map Block.timestamp = some ts ∧
      db'.failedTransactions.get r.transactionHash.hex = some (stubRecord r ts) := by
  obtain ⟨htx, hfinal, hhas⟩ := execAll_full hrun
  have hnotx : db.hasTransaction r.transactionHash.hex = false := hfresh r hr
  have hnofailed : db.failedTransactions.get r.transactionHash.hex = none := by
    refine Table.get_eq_none.mpr fun f hfm e => ?_
    have := hfk.failedTx f hfm
    rw [e, hnotx] at this
    cases this
  generalize hstubs : db.failedTransactions.insertNew _ = stubbed at hfinal hhas
  have hstubbed : stubbed.get r.transactionHash.hex =
      (lookup Transaction.txHash r.transactionHash.hex
        (transactionRows blockNumber receipts block.transactions)).bind
          (failedStub (db.blocks.insertNew [blockRow blockNumber block.header])) := by
    rw [← hstubs, Table.get_insertNew, hnofailed, Option.none_or, lookup_stubs,
      if_pos ⟨htrig, hnotx⟩]
  -- the record's own foreign key: some row of the batch has the hash
  have hsome : (lookup Transaction.txHash r.transactionHash.hex
      (transactionRows blockNumber receipts block.transactions)).isSome = true := by
    cases hg : stubbed.get r.transactionHash.hex with
    | some g =>
      rw [hstubbed] at hg
      obtain ⟨t, ht, -⟩ := Option.bind_eq_some_iff.mp hg
      rw [ht]
      rfl
    | none =>
      have hnew : (lookup FailedTransaction.txHash r.transactionHash.hex
          (stubbed.news failed)).isSome = true := by
        rw [Table.lookup_news, hg]
        exact (lookup_isSome _).mpr hrec
      obtain ⟨f, hfm, hfx⟩ := (lookup_isSome _).mp hnew
      have := hhas f hfm
      rwa [hfx, Db.hasTransaction, htx, Table.get_insertNew,
        Db.hasTransaction_eq_false.mp hnotx, Option.none_or] at this
  obtain ⟨t, ht⟩ := Option.isSome_iff_exists.mp hsome
  obtain ⟨tx, -, rfl⟩ := lookup_transactionRows hnd hr ht
  obtain ⟨b, hb⟩ : ∃ b, (db.blocks.get (asI64 blockNumber)).or
      (some (blockRow blockNumber block.header)) = some b := by
    cases db.blocks.get (asI64 blockNumber) <;> exact ⟨_, rfl⟩
  have hblock : (db.blocks.insertNew [blockRow blockNumber block.header]).get
      (asI64 blockNumber) = some b := by
    rw [Table.get_insertNew, lookup_cons, blockRow_blockNumber, if_pos rfl, hb]
  refine ⟨b.timestamp, by rw [hb]; rfl, ?_⟩
  rw [hfinal, Table.get_insertNew, hstubbed, ht]
  simp [failedStub, transactionRow, hfail, hblock, stubRecord]

/-- **The classified record is stored only where it says nothing.** Triggers
installed, a database without the block's transactions, and a call that
returned `Ok`: the row of a traced failing transaction is the record that was
built for it if and only if its root frame has no decodable output and no
selector, used the gas the receipt says, and no other timestamp was stored for
the height before. -/
theorem classified_stored_iff {abi : Abi} {blockNumber : Nat} {a : Answers} {env : Env}
    {db db' : Db} {block : RpcBlock} {receipts : List RpcReceipt} (htrig : env.triggers = true)
    (hblock : a.block = some block) (hreceipts : a.receipts = some (some receipts))
    (hnd : (receipts.map RpcReceipt.transactionHash).Nodup) (hfk : db.ForeignKeys)
    (hfresh : ∀ r ∈ receipts, db.hasTransaction r.transactionHash.hex = false)
    (hrun : (processBlock R abi blockNumber a).run env db = (db', true))
    {r : RpcReceipt} (hr : r ∈ receipts) (hfail : r.status = false) {frames : List FlatFrame}
    {root : FlatFrame} (htrace : traceFrames R a.trace r.transactionHash.hex = some frames)
    (hroot : frames.head? = some root) :
    ∃ f, recordOf R a.trace (fromTimestamp block.header.timestamp.toInt) r.transactionHash.hex =
        some f ∧
      (db'.failedTransactions.get r.transactionHash.hex = some f ↔
        NoReason R root.output ∧ NoSelector root.input ∧ root.gasUsed = r.gasUsed.toInt ∧
        ∀ b, db.blocks.get (asI64 blockNumber) = some b →
          b.timestamp = fromTimestamp block.header.timestamp.toInt) := by
  obtain ⟨hrun, hend⟩ := Program.run_ok hrun
  obtain ⟨block', receipts', traces, failed, hb', hr', hp, hstmts⟩ := processBlock_ok R hend
  cases hblock.symm.trans hb'
  cases hreceipts.symm.trans hr'
  rw [hstmts] at hrun
  obtain ⟨-, hfailed, hsome⟩ := processFailedTxs_ok R hp
  have hx : r.transactionHash.hex ∈ failedHashes receipts :=
    List.mem_map.mpr ⟨r, List.mem_filter.mpr ⟨hr, by simp [hfail]⟩, rfl⟩
  obtain ⟨f, hf⟩ := Option.isSome_iff_exists.mp
    ((hsome _ hx).trans (by rw [htrace]; rfl))
  have hmem : f ∈ failed := hfailed ▸ List.mem_filterMap.mpr ⟨_, hx, hf⟩
  obtain ⟨ts, hts, hget⟩ := failedTx_get htrig hnd hfk hfresh hrun hr hfail
    ⟨f, hmem, (recordOf_txHash R hf).1⟩
  refine ⟨f, hf, ?_⟩
  obtain ⟨frames', hframes', hrec⟩ := Option.bind_eq_some_iff.mp hf
  cases htrace.symm.trans hframes'
  have hrec' : failedRecord R r.transactionHash.hex (fromTimestamp block.header.timestamp.toInt)
      frames = .ok f := by
    cases h : failedRecord R r.transactionHash.hex
        (fromTimestamp block.header.timestamp.toInt) frames with
    | error e => simp [h, Except.toOption] at hrec
    | ok g => simpa [h, Except.toOption] using hrec
  have hstub := failedRecord_eq_stub R ts hroot hrec'
  rw [hget, Option.some.injEq, eq_comm, hstub]
  refine and_congr_right fun _ => and_congr_right fun _ => and_congr_right fun _ => ?_
  cases hg : db.blocks.get (asI64 blockNumber) with
  | none =>
    rw [hg] at hts
    simp only [Option.none_or, Option.map_some, Option.some.injEq] at hts
    refine iff_of_true (by rw [← hts]; rfl) fun _ h => ?_
    cases h
  | some b =>
    rw [hg] at hts
    simp only [Option.some_or, Option.map_some, Option.some.injEq] at hts
    rw [← hts]
    constructor
    · intro h b' hb'
      cases hb'
      exact h.symm
    · exact fun h => (h b rfl).symm

/-- A block with one transaction that reverts with a custom error. -/
def revertTx : RpcTx where
  hash := .repeatByte 0xaa
  fromAddr := .repeatByte 0x11
  toAddr := some (.repeatByte 0x22)
  value := 0
  input := [0x38, 0xed, 0x17, 0x39]
  effectiveGasPrice := some 1000000000

def revertReceipt : RpcReceipt where
  transactionHash := .repeatByte 0xaa
  gasUsed := 50000
  status := false
  logs := []

def revertBlock : RpcBlock where
  header := ⟨.repeatByte 0xb1, .repeatByte 0xb0, 1700000000, 30000000⟩
  transactions := [revertTx]

def revertAnswers (json : Json) : Answers where
  block := some revertBlock
  receipts := some (some [revertReceipt])
  trace _ := .callTracer (some json)

/-- The trace of a call that reverts with the custom error `0x82b42900`. -/
def customErrorTrace : Json := .obj
  [("type", .str "CALL"), ("from", .str traderAddr), ("to", .str routerAddr),
   ("gasUsed", .str "0xc350"), ("input", .str "0x38ed1739"), ("output", .str "0x82b42900"),
   ("error", .str "execution reverted")]

def revertRun (json : Json) : Db × Bool :=
  (processBlock (.asciiOnly true) wordAbi 1 (revertAnswers json)).run liveEnv Db.empty

theorem empty_foreignKeys : Db.empty.ForeignKeys where
  transactionBlock _ h := nomatch h
  swapTx _ h := nomatch h
  liquidityTx _ h := nomatch h
  transferTx _ h := nomatch h
  traceTx _ h := nomatch h
  failedTx _ h := nomatch h

/-- The call succeeds, and what is stored of the failure is the trigger's stub. -/
theorem revertRun_stub : (revertRun customErrorTrace).2 = true ∧
    ((revertRun customErrorTrace).1.failedTransactions.get
      revertReceipt.transactionHash.hex).map FailedTransaction.revertReason = some none := by
  decide +kernel

theorem revertRun_ok : revertRun customErrorTrace = ((revertRun customErrorTrace).1, true) :=
  Prod.snd_eq_iff.mp revertRun_stub.1

def customErrorRoot : FlatFrame where
  depth := 0
  callType := "CALL"
  fromAddr := traderAddr
  toAddr := some routerAddr
  value := 0
  gasUsed := 50000
  input := some "0x38ed1739"
  output := some "0x82b42900"
  error := some "execution reverted"

theorem customError_stored_iff : ∃ f,
    recordOf (.asciiOnly true) (revertAnswers customErrorTrace).trace
      (fromTimestamp revertBlock.header.timestamp.toInt) revertReceipt.transactionHash.hex = some f ∧
    ((revertRun customErrorTrace).1.failedTransactions.get revertReceipt.transactionHash.hex = some f ↔
      NoReason (.asciiOnly true) customErrorRoot.output ∧ NoSelector customErrorRoot.input ∧
      customErrorRoot.gasUsed = revertReceipt.gasUsed.toInt ∧
      ∀ b, Db.empty.blocks.get (asI64 1) = some b →
        b.timestamp = fromTimestamp revertBlock.header.timestamp.toInt) :=
  classified_stored_iff (.asciiOnly true) rfl
    (show (revertAnswers customErrorTrace).block = some revertBlock from rfl)
    (show (revertAnswers customErrorTrace).receipts = some (some [revertReceipt]) from rfl)
    (List.nodup_singleton _) empty_foreignKeys (fun _ _ => rfl) revertRun_ok
    (List.mem_singleton_self _) rfl
    (show traceFrames _ _ _ = some [customErrorRoot] by decide +kernel) rfl

/-- The revert reason and the selector of the call are lost to the stub. -/
theorem customError_stub_wins :
    ¬ ∀ (R : Runtime) (abi : Abi) (blockNumber : Nat) (a : Answers) (env : Env) (db db' : Db)
      (block : RpcBlock) (receipts : List RpcReceipt), env.triggers = true →
      a.block = some block → a.receipts = some (some receipts) →
      (receipts.map RpcReceipt.transactionHash).Nodup → db.ForeignKeys →
      (∀ r ∈ receipts, db.hasTransaction r.transactionHash.hex = false) →
      (processBlock R abi blockNumber a).run env db = (db', true) →
      ∀ r ∈ receipts, r.status = false → ∀ f,
        recordOf R a.trace (fromTimestamp block.header.timestamp.toInt) r.transactionHash.hex = some f →
        db'.failedTransactions.get r.transactionHash.hex = some f := by
  intro h
  have hrec : (recordOf (.asciiOnly true) (revertAnswers customErrorTrace).trace
      (fromTimestamp revertBlock.header.timestamp.toInt) revertReceipt.transactionHash.hex).map
        FailedTransaction.revertReason = some (some "0x82b42900") := by decide +kernel
  obtain ⟨f, hf, hreason⟩ := Option.map_eq_some_iff.mp hrec
  have hget := h (.asciiOnly true) wordAbi 1 (revertAnswers customErrorTrace) liveEnv Db.empty
    (revertRun customErrorTrace).1 revertBlock [revertReceipt] rfl rfl rfl (List.nodup_singleton _)
    empty_foreignKeys (fun _ _ => rfl) revertRun_ok revertReceipt (List.mem_singleton_self _) rfl f hf
  have hstub := revertRun_stub.2
  rw [hget, Option.map_some, hreason] at hstub
  exact absurd hstub (by decide)

end Amarillo.L3
