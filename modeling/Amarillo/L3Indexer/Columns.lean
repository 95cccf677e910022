import Amarillo.L3Indexer.FailedStub

/-!
# Which block contents the tables take

Columns are narrower than the values that reach them: `uint256` amounts meet
`NUMERIC(38,0)`, equal ticks the tick range check, revert bytes a `TEXT`
without NUL, 64-bit gas figures a signed column with a sign check. One refused
row fails its block, and a length word that wraps kills the task.

`Storable` says on the inputs (header, transactions, words of decoded logs,
frames of the traces, revert bytes) what is needed, and
`nothing_rejected_iff` that it is exactly this. What always fits and is
therefore missing from it: hashes and addresses, `sqrt_price_x96`, ticks and
log indices, call depths, the gas of inner frames (its column has no check).
-/
namespace Amarillo.L3
open Amarillo.Core Amarillo.L1 Amarillo.L2

/-! ## Text that always fits -/

theorem text_append {a b : String} : text (a ++ b) ↔ text a ∧ text b := by
  simp [text, not_or]

theorem text_bytesToHex (bytes : Bytes) : text (bytesToHex bytes) := by
  intro h
  exact absurd (mem_bytesToHex h) (by decide)

theorem text_hex (bytes : Bytes) : text ("0x" ++ bytesToHex bytes) :=
  text_append.mpr ⟨by decide, text_bytesToHex bytes⟩

theorem varchar_hex {n : Nat} (b : FixedBytes n) : varchar (2 + 2 * n) b.hex :=
  varchar_of_le (text_hex b.bytes) (by rw [b.hex_length])

theorem varchar_hash (h : B256) : varchar 66 h.hex := varchar_hex h

theorem varchar_address (a : Address) : varchar 42 a.hex := varchar_hex a

/-! ## Headers and transactions -/

/-- Seconds that `from_timestamp` takes and `TIMESTAMPTZ` does not: years
before 4714 BC. Beyond `from_timestamp` the epoch is stored. -/
def HeaderFits (h : RpcHeader) : Prop :=
  (h.timestamp.toInt < -8334601228800 ∨ -210866803200 ≤ h.timestamp.toInt) ∧ 0 ≤ h.gasUsed.toInt

def TxFits (receipt : RpcReceipt) (tx : RpcTx) : Prop :=
  (tx.effectiveGasPrice.getD 0).toNat < 10 ^ 30 ∧ tx.value.toNat < 10 ^ 38 ∧ 0 ≤ receipt.gasUsed.toInt

theorem timestamptz_fromTimestamp (t : Int) :
    timestamptz (fromTimestamp t) ↔ t < -8334601228800 ∨ -210866803200 ≤ t := by
  unfold timestamptz fromTimestamp
  split <;> omega

theorem blockRow_accepted (blockNumber : Nat) (h : RpcHeader) :
    (blockRow blockNumber h).accepted ↔ HeaderFits h := by
  simp only [Block.accepted, blockRow, timestamptz_fromTimestamp, nullable_some, HeaderFits]
  constructor
  · rintro ⟨ht, -, -, hg⟩
    exact ⟨ht, hg⟩
  · rintro ⟨ht, hg⟩
    exact ⟨ht, text_hex _, text_hex _, hg⟩

theorem transactionRow_accepted (blockNumber : Nat) (receipt : RpcReceipt) (tx : RpcTx) :
    (transactionRow blockNumber receipt tx).accepted ↔ TxFits receipt tx := by
  have hto : nullable (varchar 42) (tx.toAddr.map FixedBytes.hex) := by
    intro x hx
    obtain ⟨a, -, rfl⟩ := Option.map_eq_some_iff.mp hx
    exact varchar_address a
  have hinput : nullable text (if tx.input.isEmpty then none else some ("0x" ++ bytesToHex tx.input)) := by
    split
    · exact nullable_none _
    · exact (nullable_some _ _).mpr (text_hex _)
  have hstatus : (if receipt.status then (1 : Int) else 0) = 0 ∨
      (if receipt.status then (1 : Int) else 0) = 1 := by
    cases receipt.status
    · exact .inl rfl
    · exact .inr rfl
  simp only [Transaction.accepted, transactionRow, TxFits, numeric, Int.natAbs_natCast]
  constructor
  · rintro ⟨-, -, -, hp, hv, -, -, hg⟩
    exact ⟨hp, hv, hg⟩
  · rintro ⟨hp, hv, hg⟩
    exact ⟨varchar_hash _, varchar_address _, hto, hp, hv, hinput, hstatus, hg⟩

/-! ## Logs -/

def SwapFits (d : SwapLog) : Prop :=
  d.amount0.toInt.natAbs < 10 ^ 38 ∧ d.amount1.toInt.natAbs < 10 ^ 38 ∧ d.liquidity.toNat < 10 ^ 38

def LiquidityFits (d : LiquidityLog) : Prop :=
  d.amount0.toNat < 10 ^ 38 ∧ d.amount1.toNat < 10 ^ 38 ∧ d.amount.toNat < 10 ^ 38 ∧
  d.tickLower.toInt < d.tickUpper.toInt

def TransferFits (d : TransferLog) : Prop := d.value.toNat < 10 ^ 38

/-- What the words of a log must satisfy, by the event its first topic names. -/
def LogFits (abi : Abi) (l : RpcLog) : Prop :=
  ∀ topic0 ∈ l.topics.head?,
    if topic0 = abi.swapSignature then ∀ d, abi.swap l.topics l.data = .ok d → SwapFits d
    else if topic0 = abi.mintSignature then ∀ d, abi.mint l.topics l.data = .ok d → LiquidityFits d
    else if topic0 = abi.burnSignature then ∀ d, abi.burn l.topics l.data = .ok d → LiquidityFits d
    else if topic0 = abi.transferSignature then
      ∀ d, abi.transfer l.topics l.data = .ok d → TransferFits d
    else True

/-- The row an event becomes is accepted. -/
def eventAccepted : DecodedEvent → Prop
  | .swap s => (toSwapModel s).accepted
  | .liquidity l => (toLiquidityModel l).accepted
  | .transfer t => (toTransferModel t).accepted

theorem swapDirection_fits {a b : Int} {n : Nat} (ha : a.natAbs < n) (hb : b.natAbs < n) :
    (swapDirection a b).1.natAbs < n ∧ (swapDirection a b).2.natAbs < n := by
  unfold swapDirection
  split
  · exact ⟨ha, by rwa [Int.natAbs_natCast]⟩
  · exact ⟨hb, by rwa [Int.natAbs_natCast]⟩

theorem sqrtPrice_fits (p : BitVec 160) : p.toNat < 10 ^ 60 :=
  p.isLt.trans (by decide)

section Log
variable {abi : Abi} {topics : List B256} {data : Bytes} {address : Address} {hash : B256}
  {logIndex timestamp : Int}

theorem decodeSwap_accepted (hts : timestamptz timestamp) :
    (∀ e, decodeSwap abi topics data ⟨address.hex, hash.hex, logIndex, timestamp⟩ = .ok e →
      eventAccepted e) ↔ ∀ d, abi.swap topics data = .ok d → SwapFits d := by
  unfold decodeSwap
  cases abi.swap topics data with
  | error m => simp
  | ok d =>
    simp only [Except.ok.injEq, forall_eq', eventAccepted, SwapEvent.accepted, toSwapModel, SwapFits,
      numeric, Int.natAbs_natCast]
    constructor
    · rintro ⟨-, -, -, -, h₀, h₁, -, -, -, hl, -⟩
      exact ⟨h₀, h₁, hl⟩
    · rintro ⟨h₀, h₁, hl⟩
      have hdir := swapDirection_fits h₀ h₁
      exact ⟨varchar_address _, varchar_hash _, varchar_address _, varchar_address _, h₀, h₁, hdir.1,
        hdir.2, sqrtPrice_fits _, hl, hts⟩

theorem liquidityEvent_accepted (hts : timestamptz timestamp) (eventType : String)
    (d : LiquidityLog) :
    eventAccepted (.liquidity (liquidityEvent eventType d
      ⟨address.hex, hash.hex, logIndex, timestamp⟩)) ↔ LiquidityFits d := by
  simp only [eventAccepted, LiquidityEvent.accepted, toLiquidityModel, liquidityEvent, LiquidityFits,
    numeric, Int.natAbs_natCast]
  constructor
  · rintro ⟨-, -, -, h₀, h₁, hl, -, ht⟩
    exact ⟨h₀, h₁, hl, ht⟩
  · rintro ⟨h₀, h₁, hl, ht⟩
    exact ⟨varchar_address _, varchar_hash _, varchar_address _, h₀, h₁, hl, hts, ht⟩

theorem decodeMint_accepted (hts : timestamptz timestamp) :
    (∀ e, decodeMint abi topics data ⟨address.hex, hash.hex, logIndex, timestamp⟩ = .ok e →
      eventAccepted e) ↔ ∀ d, abi.mint topics data = .ok d → LiquidityFits d := by
  unfold decodeMint
  cases abi.mint topics data with
  | error m => simp
  | ok d => simpa using liquidityEvent_accepted hts "MINT" d

theorem decodeBurn_accepted (hts : timestamptz timestamp) :
    (∀ e, decodeBurn abi topics data ⟨address.hex, hash.hex, logIndex, timestamp⟩ = .ok e →
      eventAccepted e) ↔ ∀ d, abi.burn topics data = .ok d → LiquidityFits d := by
  unfold decodeBurn
  cases abi.burn topics data with
  | error m => simp
  | ok d => simpa using liquidityEvent_accepted hts "BURN" d

theorem decodeTransfer_accepted (hts : timestamptz timestamp) :
    (∀ e, decodeTransfer abi topics data ⟨address.hex, hash.hex, logIndex, timestamp⟩ = .ok e →
      eventAccepted e) ↔ ∀ d, abi.transfer topics data = .ok d → TransferFits d := by
  unfold decodeTransfer
  cases abi.transfer topics data with
  | error m => simp
  | ok d =>
    simp only [Except.ok.injEq, forall_eq', eventAccepted, TokenTransfer.accepted, toTransferModel,
      TransferFits, numeric, Int.natAbs_natCast]
    constructor
    · rintro ⟨-, -, -, -, h, -, -⟩
      exact h
    · intro h
      exact ⟨varchar_hash _, varchar_address _, varchar_address _, varchar_address _, h, hts,
        Int.natCast_nonneg _⟩

theorem decodeLog_accepted (hts : timestamptz timestamp) (l : RpcLog) :
    (∀ e, decodeLog abi l.topics l.data ⟨address.hex, hash.hex, logIndex, timestamp⟩ = .ok e →
      eventAccepted e) ↔ LogFits abi l := by
  unfold decodeLog LogFits
  cases hl : l.topics with
  | nil => simp
  | cons topic0 rest =>
    simp only [List.head?_cons, Option.mem_def, Option.some.injEq, forall_eq']
    split
    · exact decodeSwap_accepted hts
    · split
      · exact decodeMint_accepted hts
      · split
        · exact decodeBurn_accepted hts
        · split
          · exact decodeTransfer_accepted hts
          · simp

end Log

/-- The events of a block become accepted rows exactly when its logs fit. -/
theorem decodedEvents_accepted {abi : Abi} {timestamp : Int} (hts : timestamptz timestamp)
    (receipts : List RpcReceipt) :
    (∀ e ∈ decodedEvents abi timestamp receipts, eventAccepted e) ↔
      ∀ r ∈ receipts, ∀ l ∈ r.logs, LogFits abi l := by
  have hmem : ∀ e, e ∈ decodedEvents abi timestamp receipts ↔ ∃ r ∈ receipts, ∃ l ∈ r.logs,
      decodeLog abi l.topics l.data ⟨l.address.hex, r.transactionHash.hex, l.index, timestamp⟩ =
        .ok e := by
    intro e
    simp only [decodedEvents, List.mem_flatMap, List.mem_filterMap]
    refine exists_congr fun r => and_congr_right fun _ => exists_congr fun l =>
      and_congr_right fun _ => ?_
    cases ht : l.topics with
    | nil => simp [decodeLog]
    | cons topic0 rest =>
      simp only [List.isEmpty_cons, Bool.false_eq_true, if_false]
      generalize decodeLog abi _ l.data _ = d
      cases d <;> simp [Except.toOption]
  constructor
  · intro h r hr l hl
    exact (decodeLog_accepted hts l).mp fun e he => h e ((hmem e).mpr ⟨r, hr, l, hl, he⟩)
  · intro h e he
    obtain ⟨r, hr, l, hl, he⟩ := (hmem e).mp he
    exact (decodeLog_accepted hts l).mpr (h r hr l hl) e he

/-- The three event batches together. -/
theorem eventRows_accepted (es : List DecodedEvent) :
    ((∀ e ∈ swapEvents es, e.accepted) ∧ (∀ e ∈ liquidityEvents es, e.accepted) ∧
      ∀ t ∈ tokenTransfers es, t.accepted) ↔ ∀ e ∈ es, eventAccepted e := by
  simp only [swapEvents, liquidityEvents, tokenTransfers, List.mem_filterMap]
  constructor
  · rintro ⟨hs, hl, ht⟩ e he
    cases e with
    | swap s => exact hs _ ⟨_, he, rfl⟩
    | liquidity l => exact hl _ ⟨_, he, rfl⟩
    | transfer t => exact ht _ ⟨_, he, rfl⟩
  · intro h
    refine ⟨?_, ?_, ?_⟩ <;> rintro row ⟨e, he, hrow⟩ <;> cases e <;> cases hrow <;> exact h _ he

/-! ## Traces -/

/-- What the fields of a call frame must satisfy. A value that is no `u128` is stored as 0. -/
def FrameFits (d : FrameData) : Prop :=
  varchar 20 d.callType ∧ varchar 42 d.fromAddr ∧ nullable (varchar 42) d.toAddr ∧
  (∀ v ∈ d.value, ∀ n, fromStrRadix16 (2 ^ 128) (strip0x v.toList) = some n → n < 10 ^ 38) ∧
  nullable text d.input ∧ nullable text d.output ∧ nullable text d.error

/-- The text of an `Error(string)` payload has no NUL, and its length word does not wrap. -/
def StringFits (data : Bytes) : Prop :=
  ¬WrapsLength data ∧
  (64 ≤ data.length → 64 + beNat ((data.drop 56).take 8) ≤ data.length →
    0 ∉ (data.take (64 + beNat ((data.drop 56).take 8))).drop 64)

def RevertFits (bytes : Bytes) : Prop :=
  4 ≤ bytes.length → bytes.take 4 = [0x08, 0xc3, 0x79, 0xa0] → StringFits (bytes.drop 4)

/-- The eighth byte of the input's hex text ends a character. -/
def SelectorFits (input : Option String) : Prop :=
  ∀ i ∈ input, 8 ≤ utf8Size (strip0x i.toList) → (bytePrefix 8 (strip0x i.toList)).isSome = true

/-- What the root frame must satisfy besides. -/
def RootFits (d : FrameData) : Prop :=
  (∀ o ∈ d.output, ∀ bytes, hexDecode (strip0x o.toList) = some bytes → RevertFits bytes) ∧
  SelectorFits d.input ∧ d.gasUsed < 2 ^ 63

variable (R : Runtime)

def TraceFits (answer : TraceAnswer) : Prop :=
  ∀ json, answer = .callTracer (some json) → ∀ root, parseCallFrame R json = .ok root →
    (∀ n ∈ nodes root, FrameFits n.data) ∧ RootFits root.data

theorem valueDecimal_fits (value : Option String) :
    valueDecimal value < 10 ^ 38 ↔
      ∀ v ∈ value, ∀ n, fromStrRadix16 (2 ^ 128) (strip0x v.toList) = some n → n < 10 ^ 38 := by
  unfold valueDecimal
  cases value with
  | none => simp
  | some v =>
    simp only [Option.bind_some, Option.mem_def, Option.some.injEq, forall_eq']
    cases fromStrRadix16 (2 ^ 128) (strip0x v.toList) with
    | none => simp
    | some n => simp

theorem toTraceLog_accepted (hash : B256) (d : FrameData) (depth : Int) (hd : 0 ≤ depth) :
    (toTraceLog hash.hex (flatFrame d depth)).accepted ↔ FrameFits d := by
  simp only [TraceLog.accepted, toTraceLog, flatFrame, FrameFits, numeric, Int.natAbs_natCast,
    valueDecimal_fits]
  constructor
  · rintro ⟨-, h₁, h₂, h₃, h₄, h₅, h₆, h₇, -⟩
    exact ⟨h₁, h₂, h₃, h₄, h₅, h₆, h₇⟩
  · rintro ⟨h₁, h₂, h₃, h₄, h₅, h₆, h₇⟩
    exact ⟨varchar_hash _, h₁, h₂, h₃, h₄, h₅, h₆, h₇, hd⟩

/-- A decoded reason that can be stored: text without NUL, or none; not a panic. -/
def reasonStored : Except (Fault DecodeError) String → Prop
  | .ok s => text s
  | .error (.error _) => True
  | .error .panic => False

theorem decodeAbiString_stored (data : Bytes) :
    reasonStored (decodeAbiString R data) ↔ StringFits data := by
  by_cases hw : WrapsLength data
  · rw [(decodeAbiString_panic_iff R data).mpr hw]
    exact iff_of_false id fun h => h.1 hw
  unfold StringFits
  rw [and_iff_right hw]
  unfold WrapsLength at hw
  unfold decodeAbiString
  simp only
  generalize beNat ((data.drop 56).take 8) = len at *
  by_cases h64 : data.length < 64
  · rw [if_pos h64]
    exact iff_of_true trivial fun h => absurd h64 (Nat.not_lt.mpr h)
  have hlen : 64 + len < 2 ^ 64 := by omega
  rw [if_neg h64, if_neg fun h => absurd h.1 (Nat.not_le.mpr hlen), Nat.mod_eq_of_lt hlen]
  by_cases hshort : data.length < 64 + len
  · rw [if_pos hshort]
    exact iff_of_true trivial fun _ h => absurd hshort (Nat.not_lt.mpr h)
  rw [if_neg hshort, if_neg (by omega)]
  simp only [reasonStored, text, String.toList_ofList, nul_mem_fromUtf8Lossy]
  exact ⟨fun h _ _ => h, fun h => h (Nat.le_of_not_lt h64) (Nat.le_of_not_lt hshort)⟩

theorem decodeRevertReason_stored (bytes : Bytes) :
    reasonStored (decodeRevertReason R bytes) ↔ RevertFits bytes := by
  unfold decodeRevertReason RevertFits
  split
  · rename_i hlt
    exact iff_of_true (text_hex bytes) fun h => absurd hlt (Nat.not_lt.mpr h)
  · rename_i hlt
    split
    · rename_i hsel
      rw [decodeAbiString_stored]
      exact ⟨fun h _ _ => h, fun h => h (Nat.le_of_not_lt hlt) hsel⟩
    · rename_i hsel
      refine iff_of_true ?_ fun _ h => absurd h hsel
      split
      · exact text_append.mpr ⟨text_append.mpr ⟨by decide, text_bytesToHex _⟩, by decide⟩
      · exact text_hex bytes

theorem revertReason_stored (output : Option String) :
    (∃ reason, revertReason R output = .ok reason ∧ nullable text reason) ↔
      ∀ o ∈ output, ∀ bytes, hexDecode (strip0x o.toList) = some bytes → RevertFits bytes := by
  unfold revertReason
  cases output with
  | none => simp
  | some o =>
    simp only [Option.bind_some, Option.mem_def, Option.some.injEq, forall_eq']
    cases hexDecode (strip0x o.toList) with
    | none => simp
    | some bytes =>
      simp only [Option.some.injEq, forall_eq']
      rw [← decodeRevertReason_stored R bytes]
      cases decodeRevertReason R bytes with
      | ok s => simp [reasonStored]
      | error e => cases e <;> simp [reasonStored]

/-! ### The selector -/

theorem bytePrefix_infix {n : Nat} {s p : List Char} (h : bytePrefix n s = some p) :
    p <+: s ∧ p.length ≤ n := by
  induction s generalizing n p with
  | nil =>
    cases n with
    | zero =>
      cases h
      exact ⟨List.nil_prefix, Nat.le_refl 0⟩
    | succ n => cases h
  | cons c cs ih =>
    cases n with
    | zero =>
      cases h
      exact ⟨List.nil_prefix, Nat.le_refl 0⟩
    | succ n =>
      rw [bytePrefix] at h
      split at h
      · obtain ⟨q, hq, rfl⟩ := Option.map_eq_some_iff.mp h
        obtain ⟨hpre, hlen⟩ := ih hq
        have := c.utf8Size_pos
        exact ⟨List.cons_prefix_cons.mpr ⟨rfl, hpre⟩, by rw [List.length_cons]; omega⟩
      · cases h

theorem mem_strip0x {s : List Char} {c : Char} (h : c ∈ strip0x s) : c ∈ s := by
  unfold strip0x at h
  split at h
  · exact List.mem_cons_of_mem _ (List.mem_cons_of_mem _ h)
  · exact h

theorem failingFunction_stored {input : Option String} (ht : nullable text input) :
    (∃ p, failingFunction input = .ok p ∧ nullable (varchar 100) p) ↔ SelectorFits input := by
  unfold failingFunction SelectorFits
  cases input with
  | none => simp
  | some i =>
    simp only [Option.mem_def, Option.some.injEq, forall_eq']
    split
    · rename_i h8
      cases hp : bytePrefix 8 (strip0x i.toList) with
      | none => simp [h8]
      | some p =>
        obtain ⟨hpre, hlen⟩ := bytePrefix_infix hp
        have htext : text (String.ofList p) := by
          intro h
          rw [String.toList_ofList] at h
          exact ht i rfl (mem_strip0x (hpre.subset h))
        have hvar : varchar 100 ("0x" ++ String.ofList p) := by
          refine varchar_of_le (text_append.mpr ⟨by decide, htext⟩) ?_
          simp only [String.toList_append, String.toList_ofList, List.length_append]
          have : "0x".toList.length = 2 := rfl
          omega
        simp [hvar]
    · rename_i h8
      simp [h8]

/-! ## Failing transactions -/

theorem failedRecord_stored {hash : B256} {timestamp : Int} (hts : timestamptz timestamp)
    {frames : List FlatFrame} {d : FrameData} (hroot : frames.head? = some (flatFrame d 0))
    (hgas : d.gasUsed < 2 ^ 64) (hinput : nullable text d.input) :
    (∃ f, failedRecord R hash.hex timestamp frames = .ok f ∧ f.accepted) ↔ RootFits d := by
  unfold RootFits
  rw [← revertReason_stored R d.output, ← failingFunction_stored hinput, ← asI64_nonneg_iff hgas]
  constructor
  · rintro ⟨f, hf, hacc⟩
    obtain ⟨hr, hs, -, -, -, hg⟩ := failedRecord_ok R hf
    rw [hroot] at hr hs hg
    obtain ⟨-, htext, hvar, -, hpos⟩ := hacc
    exact ⟨⟨_, hr, htext⟩, ⟨_, hs, hvar⟩, by rw [hg] at hpos; exact hpos⟩
  · rintro ⟨⟨reason, hr, htext⟩, ⟨failing, hs, hvar⟩, hpos⟩
    refine ⟨⟨hash.hex, matchCategory (reasonCategory R reason), reason, failing, asI64 d.gasUsed,
      timestamp⟩, ?_, varchar_hash hash, htext, hvar, hts, hpos⟩
    unfold failedRecord
    rw [hroot]
    simp only [rootReason, Option.bind_some, flatFrame, hr, hs]
    rfl

/-- The traced transactions of a block end without a panic, in accepted rows. -/
def TracesStored (trace : String → TraceAnswer) (timestamp : Int) (hs : List String) : Prop :=
  ∃ traces failed, processFailedTxs R trace timestamp hs = .ok (traces, failed) ∧
    (∀ t ∈ traces, t.accepted) ∧ ∀ f ∈ failed, f.accepted

theorem traceFrames_eq (trace : String → TraceAnswer) (x : String) :
    (traceFrames R trace x = none ∧ ∀ json, trace x = .callTracer (some json) →
        ∀ root, parseCallFrame R json ≠ .ok root) ∨
    ∃ json root, trace x = .callTracer (some json) ∧ parseCallFrame R json = .ok root ∧
      traceFrames R trace x = some (flattenCallFrame root 0) := by
  unfold traceFrames
  split
  · rename_i h
    exact .inl ⟨rfl, fun _ h' => by rw [h] at h'; cases h'⟩
  · rename_i h
    exact .inl ⟨rfl, fun _ h' => by rw [h] at h'; cases h'⟩
  · rename_i h
    exact .inl ⟨rfl, fun _ h' => by rw [h] at h'; cases h'⟩
  · rename_i json h
    cases hroot : parseCallFrame R json with
    | error e =>
      refine .inl ⟨by simp [parseTrace, hroot, Except.map, Except.toOption], fun j hj root hr => ?_⟩
      rw [h] at hj
      cases hj
      rw [hroot] at hr
      cases hr
    | ok root =>
      exact .inr ⟨json, root, h, hroot, by simp [parseTrace, hroot, Except.map, Except.toOption]⟩

theorem tracesStored_iff {trace : String → TraceAnswer} {timestamp : Int} (hts : timestamptz timestamp)
    (hashes : List B256) :
    TracesStored R trace timestamp (hashes.map FixedBytes.hex) ↔
      ∀ h ∈ hashes, TraceFits R (trace h.hex) := by
  induction hashes with
  | nil => exact iff_of_true ⟨[], [], rfl, by simp, by simp⟩ (by simp)
  | cons h hs ih =>
    rw [List.map_cons, List.forall_mem_cons, ← ih]
    unfold TracesStored
    rw [processFailedTxs]
    rcases traceFrames_eq R trace h.hex with ⟨hnone, hno⟩ | ⟨json, root, hjson, hroot, hsome⟩
    · rw [hnone]
      exact (and_iff_right fun j hj root hr => absurd hr (hno j hj root)).symm
    · rw [hsome]
      have hfits : TraceFits R (trace h.hex) ↔
          (∀ n ∈ nodes root, FrameFits n.data) ∧ RootFits root.data := by
        constructor
        · exact fun hf => hf json hjson root hroot
        · intro hf j hj r hr
          rw [hjson] at hj
          cases hj
          rw [hroot] at hr
          cases hr
          exact hf
      have hrows : (∀ t ∈ (flattenCallFrame root 0).map (toTraceLog h.hex), t.accepted) ↔
          ∀ n ∈ nodes root, FrameFits n.data := by
        rw [List.forall_mem_map]
        exact flattenCallFrame_forall (toTraceLog_accepted h) root
      have hrec : (∀ n ∈ nodes root, FrameFits n.data) →
          ((∃ f, failedRecord R h.hex timestamp (flattenCallFrame root 0) = .ok f ∧ f.accepted) ↔
            RootFits root.data) := fun hn =>
        failedRecord_stored R hts (flattenCallFrame_head root 0) (parseCallFrame_gasUsed R hroot)
          (hn root (by rw [nodes_eq]; exact List.mem_cons_self)).2.2.2.2.1
      rw [hfits]
      constructor
      · rintro ⟨traces, failed, hp, htr, hfa⟩
        simp only [bind, Except.bind] at hp
        split at hp
        · cases hp
        · rename_i f hf
          split at hp
          · cases hp
          · rename_i rest hrest
            cases hp
            have hn := hrows.mp fun t ht => htr t (List.mem_append_left _ ht)
            exact ⟨⟨hn, (hrec hn).mp ⟨f, hf, hfa f List.mem_cons_self⟩⟩, rest.1, rest.2, hrest,
              fun t ht => htr t (List.mem_append_right _ ht),
              fun g hg => hfa g (List.mem_cons_of_mem _ hg)⟩
      · rintro ⟨⟨hn, hr⟩, traces, failed, hp, htr, hfa⟩
        obtain ⟨f, hf, hacc⟩ := (hrec hn).mpr hr
        refine ⟨_, _, by simp only [bind, Except.bind, hf, hp]; rfl, ?_, ?_⟩
        · intro t ht
          rcases List.mem_append.mp ht with ht | ht
          · exact hrows.mpr hn t ht
          · exact htr t ht
        · intro g hg
          rcases List.mem_cons.mp hg with rfl | hg
          · exact hacc
          · exact hfa g hg

/-! ## The block -/

/-- No statement of the call is refused for its values, and no task panics. -/
def NothingRejected (p : Program) : Prop := (∀ s ∈ p.stmts, s.accepted) ∧ p.ending ≠ .panic

/-- What a block's content must satisfy to be stored. -/
def Storable (abi : Abi) (block : RpcBlock) (receipts : List RpcReceipt)
    (trace : String → TraceAnswer) : Prop :=
  HeaderFits block.header ∧ (∀ p ∈ receipts.zip block.transactions, TxFits p.1 p.2) ∧
  (∀ r ∈ receipts, ∀ l ∈ r.logs, LogFits abi l) ∧
  ∀ r ∈ receipts, r.status = false → TraceFits R (trace r.transactionHash.hex)

theorem batch_accepted {α : Type} (insert : List α → Stmt) {P : α → Prop}
    (h : ∀ rows, (insert rows).accepted ↔ ∀ r ∈ rows, P r) (rows : List α) :
    (∀ s ∈ batch insert rows, s.accepted) ↔ ∀ r ∈ rows, P r := by
  unfold batch
  split
  · rename_i he
    rw [List.isEmpty_iff.mp he]
    simp
  · simp [h]

theorem indexedStmts_accepted {abi : Abi} {blockNumber : Nat} {block : RpcBlock}
    {receipts : List RpcReceipt} :
    (∀ s ∈ indexedStmts abi blockNumber block receipts, s.accepted) ↔
      HeaderFits block.header ∧ (∀ p ∈ receipts.zip block.transactions, TxFits p.1 p.2) ∧
      ∀ r ∈ receipts, ∀ l ∈ r.logs, LogFits abi l := by
  unfold indexedStmts eventStmts
  simp only [List.forall_mem_cons, List.forall_mem_append]
  rw [batch_accepted .insertTransactions (fun _ => Iff.rfl),
    batch_accepted .insertSwapEvents (fun _ => Iff.rfl),
    batch_accepted .insertLiquidityEvents (fun _ => Iff.rfl),
    batch_accepted .insertTokenTransfers (fun _ => Iff.rfl), and_assoc, eventRows_accepted]
  have hblock : (Stmt.insertBlocks [blockRow blockNumber block.header]).accepted ↔
      HeaderFits block.header := by
    rw [← blockRow_accepted blockNumber]
    simp [Stmt.accepted]
  have htxs : (∀ t ∈ transactionRows blockNumber receipts block.transactions, t.accepted) ↔
      ∀ p ∈ receipts.zip block.transactions, TxFits p.1 p.2 := by
    unfold transactionRows
    rw [← List.map_uncurry_zip_eq_zipWith, List.forall_mem_map]
    exact forall₂_congr fun p _ => transactionRow_accepted blockNumber p.1 p.2
  rw [hblock, htxs]
  refine and_congr_right fun hh => and_congr_right fun _ => ?_
  exact decodedEvents_accepted ((timestamptz_fromTimestamp _).mpr hh.1) receipts

theorem nothingRejected_split (abi : Abi) (blockNumber : Nat) (block : RpcBlock)
    (receipts : List RpcReceipt) (trace : String → TraceAnswer) :
    NothingRejected (processBlock R abi blockNumber ⟨some block, some (some receipts), trace⟩) ↔
      (∀ s ∈ indexedStmts abi blockNumber block receipts, s.accepted) ∧
      TracesStored R trace (fromTimestamp block.header.timestamp.toInt) (failedHashes receipts) := by
  unfold NothingRejected processBlock TracesStored
  simp only [Option.getD_some]
  cases processFailedTxs R trace (fromTimestamp block.header.timestamp.toInt)
      (failedHashes receipts) with
  | error e => simp
  | ok rows =>
    simp only [ne_eq, reduceCtorEq, not_false_eq_true, and_true, List.forall_mem_append,
      batch_accepted .insertTraceLogs (fun _ => Iff.rfl),
      batch_accepted .insertFailedTransactions (fun _ => Iff.rfl), and_assoc,
      Except.ok.injEq]
    exact and_congr_right fun _ => ⟨fun h => ⟨rows.1, rows.2, rfl, h⟩, by rintro ⟨_, _, rfl, h⟩; exact h⟩

/-- **A block can be stored exactly when it is `Storable`.** For every content:
no row the call builds violates a column type or a check, and no task panics,
if and only if the header, the transactions, the decoded words of the logs and
the traces of the failing transactions fit. -/
theorem nothing_rejected_iff (abi : Abi) (blockNumber : Nat) (block : RpcBlock)
    (receipts : List RpcReceipt) (trace : String → TraceAnswer) :
    NothingRejected (processBlock R abi blockNumber ⟨some block, some (some receipts), trace⟩) ↔
      Storable R abi block receipts trace := by
  have hhashes : failedHashes receipts =
      ((receipts.filter fun r => !r.status).map RpcReceipt.transactionHash).map FixedBytes.hex := by
    simp [failedHashes]
  have htraces : HeaderFits block.header →
      (TracesStored R trace (fromTimestamp block.header.timestamp.toInt) (failedHashes receipts) ↔
        ∀ r ∈ receipts, r.status = false → TraceFits R (trace r.transactionHash.hex)) := by
    intro hh
    rw [hhashes, tracesStored_iff R ((timestamptz_fromTimestamp _).mpr hh.1)]
    simp only [List.forall_mem_map, List.mem_filter, Bool.not_eq_true', and_imp]
  rw [nothingRejected_split, indexedStmts_accepted]
  unfold Storable
  constructor
  · rintro ⟨⟨hh, ht, hl⟩, hs⟩
    exact ⟨hh, ht, hl, (htraces hh).mp hs⟩
  · rintro ⟨hh, ht, hl, hs⟩
    exact ⟨⟨hh, ht, hl⟩, (htraces hh).mpr hs⟩

/-- A `Transfer` of the largest `uint256`, as any contract can emit it. -/
def maxTransferLog : RpcLog where
  address := .repeatByte 0x33
  topics := [wordAbi.transferSignature, .repeatByte 0x11, .repeatByte 0x22]
  data := List.replicate 32 0xff
  logIndex := some 0

def maxTransferReceipt : RpcReceipt := { revertReceipt with status := true, logs := [maxTransferLog] }

theorem maxTransfer_not_fits : ¬LogFits wordAbi maxTransferLog := by
  intro h
  have h := h wordAbi.transferSignature rfl
  rw [if_neg (by decide), if_neg (by decide), if_neg (by decide), if_pos rfl] at h
  have hd : wordAbi.transfer maxTransferLog.topics maxTransferLog.data = .ok
      ⟨.ofWord (.repeatByte 0x11), .ofWord (.repeatByte 0x22), beWord 256 maxTransferLog.data⟩ := rfl
  have hvalue : ¬(beWord 256 maxTransferLog.data).toNat < 10 ^ 38 := by decide
  exact hvalue (h _ hd)

/-- One log stops the block that carries it. -/
theorem maxTransfer_rejected :
    ¬ ∀ (R : Runtime) (abi : Abi) (blockNumber : Nat) (block : RpcBlock)
      (receipts : List RpcReceipt) (trace : String → TraceAnswer),
      NothingRejected (processBlock R abi blockNumber ⟨some block, some (some receipts), trace⟩) := by
  intro h
  have hsplit := (nothingRejected_split (.asciiOnly true) wordAbi 1 revertBlock
    [maxTransferReceipt] (fun _ => .failed)).mp (h _ _ _ _ _ _)
  have hlogs := (indexedStmts_accepted.mp hsplit.1).2.2
  exact maxTransfer_not_fits (hlogs _ List.mem_cons_self _ List.mem_cons_self)

end Amarillo.L3
