import Mathlib
import Amarillo.Core.Keyed

/-!
# Tables of the indexer (`db/src/models.rs`, `migrations/`)

A row type holds the columns the indexer writes; the surrogate ids are left
out except `trace_id`, whose order the trace queries read. `BIGINT` and
`INTEGER` columns are bound from `i64` and `i32` values and always fit.

`accepted` says when Postgres takes a row's values: the column types that the
Rust types do not already imply (`NUMERIC` precision, `VARCHAR` width, `TEXT`
without NUL, the range of `TIMESTAMPTZ`) and the `CHECK` constraints. Foreign
keys are checked by the statements, not here.
-/
namespace Amarillo.L2
open Amarillo.Core

/-- mirrors crates/db/src/models.rs:10-30 -/
inductive ErrorCategory where
  | insufficientBalance
  | insufficientAllowance
  | slippageExceeded
  | slippageAmountOut
  | slippageAmountIn
  | slippagePriceImpact
  | deadlineExpired
  | unauthorized
  | transferFailed
  | unknown
  deriving DecidableEq, Repr

/-- mirrors crates/db/src/models.rs:60-73 -/
def ErrorCategory.asWire : ErrorCategory → String
  | .insufficientBalance => "INSUFFICIENT_BALANCE"
  | .insufficientAllowance => "INSUFFICIENT_ALLOWANCE"
  | .slippageExceeded => "SLIPPAGE_EXCEEDED"
  | .slippageAmountOut => "SLIPPAGE_AMOUNT_OUT"
  | .slippageAmountIn => "SLIPPAGE_AMOUNT_IN"
  | .slippagePriceImpact => "SLIPPAGE_PRICE_IMPACT"
  | .deadlineExpired => "DEADLINE_EXPIRED"
  | .unauthorized => "UNAUTHORIZED"
  | .transferFailed => "TRANSFER_FAILED"
  | .unknown => "UNKNOWN"

theorem ErrorCategory.asWire_inj {c c' : ErrorCategory} (h : c.asWire = c'.asWire) : c = c' := by
  cases c <;> cases c' <;> first | rfl | (exact absurd h (by decide))

inductive LiquidityEventType where
  | mint
  | burn
  deriving DecidableEq, Repr

structure Block where
  blockNumber : Int
  timestamp : Int
  gasUsed : Int
  blockHash : Option String
  parentHash : Option String
  deriving DecidableEq, Repr

structure Transaction where
  txHash : String
  fromAddr : String
  toAddr : Option String
  blockNumber : Int
  gasUsed : Int
  gasPrice : Int
  value : Int
  status : Int
  inputData : Option String
  deriving DecidableEq, Repr

structure SwapEvent where
  poolAddress : String
  txHash : String
  sender : String
  recipient : String
  amount0 : Int
  amount1 : Int
  amountIn : Int
  amountOut : Int
  sqrtPriceX96 : Int
  liquidity : Int
  tick : Int
  logIndex : Int
  timestamp : Int
  deriving DecidableEq, Repr

structure LiquidityEvent where
  eventType : LiquidityEventType
  poolAddress : String
  txHash : String
  provider : String
  token0Amount : Int
  token1Amount : Int
  tickLower : Int
  tickUpper : Int
  liquidity : Int
  logIndex : Int
  timestamp : Int
  deriving DecidableEq, Repr

structure TokenTransfer where
  txHash : String
  tokenAddress : String
  fromAddr : String
  toAddr : String
  amount : Int
  logIndex : Int
  timestamp : Int
  deriving DecidableEq, Repr

structure FailedTransaction where
  txHash : String
  errorCategory : ErrorCategory
  revertReason : Option String
  failingFunction : Option String
  gasUsed : Int
  timestamp : Int
  deriving DecidableEq, Repr

structure TraceLog where
  txHash : String
  callDepth : Int
  callType : String
  fromAddr : String
  toAddr : Option String
  value : Int
  gasUsed : Int
  input : Option String
  output : Option String
  error : Option String
  traceId : Nat
  deriving DecidableEq, Repr

/-- The columns the swap trigger writes. -/
structure UserProfile where
  userAddress : String
  firstSeen : Int
  lastSeen : Int
  totalSwaps : Int
  deriving DecidableEq, Repr

/-- A row the liquidity trigger writes; `record_id` is a surrogate id. -/
structure AuditLog where
  eventType : LiquidityEventType
  poolAddress : String
  provider : String
  liquidity : Int
  token0Amount : Int
  token1Amount : Int
  timestamp : Int
  deriving DecidableEq, Repr

/-! ## Column types -/

/-- `TEXT`: no NUL byte. -/
def text (s : String) : Prop := Char.ofNat 0 ∉ s.toList

/-- `VARCHAR(n)`: at most `n` characters, or only blanks after them. -/
def varchar (n : Nat) (s : String) : Prop := text s ∧ ∀ c ∈ s.toList.drop n, c = ' '

/-- What a `VARCHAR(n)` column keeps of a value it takes. -/
def cut (n : Nat) (s : String) : String := String.ofList (s.toList.take n)

/-- `NUMERIC(p, 0)` of an integer. -/
def numeric (p : Nat) (v : Int) : Prop := v.natAbs < 10 ^ p

/-- Seconds from 4714-11-24 BC to 294276-12-31 AD. -/
def timestamptz (t : Int) : Prop := -210866803200 ≤ t ∧ t < 9224318016000

def nullable {α : Type} (p : α → Prop) (v : Option α) : Prop := ∀ x ∈ v, p x

instance (s : String) : Decidable (text s) := inferInstanceAs (Decidable (¬ _ ∈ _))
instance (n : Nat) (s : String) : Decidable (varchar n s) :=
  @instDecidableAnd _ _ _ (List.decidableBAll (· = ' ') (s.toList.drop n))
instance (p : Nat) (v : Int) : Decidable (numeric p v) := inferInstanceAs (Decidable (_ < _))
instance (t : Int) : Decidable (timestamptz t) := inferInstanceAs (Decidable (_ ∧ _))
instance {α : Type} (p : α → Prop) [DecidablePred p] : ∀ v, Decidable (nullable p v)
  | none => .isTrue fun _ h => nomatch h
  | some x => decidable_of_iff (p x) ⟨fun h y hy => by cases hy; exact h, fun h => h x rfl⟩

theorem varchar_of_le {n : Nat} {s : String} (ht : text s) (h : s.toList.length ≤ n) :
    varchar n s := by
  refine ⟨ht, ?_⟩
  rw [List.drop_eq_nil_of_le h]
  simp

@[simp] theorem nullable_none {α : Type} (p : α → Prop) : nullable p none := fun _ h => nomatch h

@[simp] theorem nullable_some {α : Type} (p : α → Prop) (x : α) : nullable p (some x) ↔ p x := by
  simp [nullable]

/-! ## Rows -/

/-- mirrors migrations/20240101000001_initial_schema.sql:51-58,
20240103000001_add_block_hashes.sql -/
def Block.accepted (b : Block) : Prop :=
  timestamptz b.timestamp ∧ nullable text b.blockHash ∧ nullable text b.parentHash ∧ 0 ≤ b.gasUsed

/-- mirrors migrations/20240101000001_initial_schema.sql:71-87 -/
def Transaction.accepted (t : Transaction) : Prop :=
  varchar 66 t.txHash ∧ varchar 42 t.fromAddr ∧ nullable (varchar 42) t.toAddr ∧
  numeric 30 t.gasPrice ∧ numeric 38 t.value ∧ nullable text t.inputData ∧
  (t.status = 0 ∨ t.status = 1) ∧ 0 ≤ t.gasUsed

/-- mirrors migrations/20240101000001_initial_schema.sql:106-128 -/
def SwapEvent.accepted (e : SwapEvent) : Prop :=
  varchar 42 e.poolAddress ∧ varchar 66 e.txHash ∧ varchar 42 e.sender ∧ varchar 42 e.recipient ∧
  numeric 38 e.amount0 ∧ numeric 38 e.amount1 ∧ numeric 38 e.amountIn ∧ numeric 38 e.amountOut ∧
  numeric 60 e.sqrtPriceX96 ∧ numeric 38 e.liquidity ∧ timestamptz e.timestamp

/-- mirrors migrations/20240101000001_initial_schema.sql:130-151 -/
def LiquidityEvent.accepted (e : LiquidityEvent) : Prop :=
  varchar 42 e.poolAddress ∧ varchar 66 e.txHash ∧ varchar 42 e.provider ∧
  numeric 38 e.token0Amount ∧ numeric 38 e.token1Amount ∧ numeric 38 e.liquidity ∧
  timestamptz e.timestamp ∧ e.tickLower < e.tickUpper

/-- mirrors migrations/20240101000001_initial_schema.sql:153-170 -/
def TokenTransfer.accepted (t : TokenTransfer) : Prop :=
  varchar 66 t.txHash ∧ varchar 42 t.tokenAddress ∧ varchar 42 t.fromAddr ∧ varchar 42 t.toAddr ∧
  numeric 38 t.amount ∧ timestamptz t.timestamp ∧ 0 ≤ t.amount

/-- mirrors migrations/20240101000001_initial_schema.sql:172-184 -/
def FailedTransaction.accepted (f : FailedTransaction) : Prop :=
  varchar 66 f.txHash ∧ nullable text f.revertReason ∧ nullable (varchar 100) f.failingFunction ∧
  timestamptz f.timestamp ∧ 0 ≤ f.gasUsed

/-- There is no check on `gas_used` here.
mirrors migrations/20240101000001_initial_schema.sql:216-233 -/
def TraceLog.accepted (t : TraceLog) : Prop :=
  varchar 66 t.txHash ∧ varchar 20 t.callType ∧ varchar 42 t.fromAddr ∧
  nullable (varchar 42) t.toAddr ∧ numeric 38 t.value ∧ nullable text t.input ∧
  nullable text t.output ∧ nullable text t.error ∧ 0 ≤ t.callDepth

instance (b : Block) : Decidable b.accepted := inferInstanceAs (Decidable (_ ∧ _))
instance (t : Transaction) : Decidable t.accepted := inferInstanceAs (Decidable (_ ∧ _))
instance (e : SwapEvent) : Decidable e.accepted := inferInstanceAs (Decidable (_ ∧ _))
instance (e : LiquidityEvent) : Decidable e.accepted := inferInstanceAs (Decidable (_ ∧ _))
instance (t : TokenTransfer) : Decidable t.accepted := inferInstanceAs (Decidable (_ ∧ _))
instance (f : FailedTransaction) : Decidable f.accepted := inferInstanceAs (Decidable (_ ∧ _))
instance (t : TraceLog) : Decidable t.accepted := inferInstanceAs (Decidable (_ ∧ _))

/-- The values of a trace row as the columns keep them. -/
def TraceLog.stored (t : TraceLog) : TraceLog :=
  { t with callType := cut 20 t.callType, fromAddr := cut 42 t.fromAddr, toAddr := t.toAddr.map (cut 42) }

/-! ## Keys -/

abbrev logKey {α : Type} (txHash : α → String) (logIndex : α → Int) (e : α) : String × Int :=
  (txHash e, logIndex e)

abbrev SwapEvent.key : SwapEvent → String × Int := logKey SwapEvent.txHash SwapEvent.logIndex
abbrev LiquidityEvent.key : LiquidityEvent → String × Int :=
  logKey LiquidityEvent.txHash LiquidityEvent.logIndex
abbrev TokenTransfer.key : TokenTransfer → String × Int :=
  logKey TokenTransfer.txHash TokenTransfer.logIndex

/-- The tables of one database, each with its primary or unique key.
`checkpoint` is the `chain_id = 1` row of `indexer_checkpoint`. -/
structure Db where
  blocks : Table Block.blockNumber
  transactions : Table Transaction.txHash
  swapEvents : Table SwapEvent.key
  liquidityEvents : Table LiquidityEvent.key
  tokenTransfers : Table TokenTransfer.key
  traceLogs : Serial TraceLog.traceId
  failedTransactions : Table FailedTransaction.txHash
  userProfiles : Table UserProfile.userAddress
  auditLogs : List AuditLog
  checkpoint : Option Int
  deriving DecidableEq

def Db.empty : Db where
  blocks := .empty
  transactions := .empty
  swapEvents := .empty
  liquidityEvents := .empty
  tokenTransfers := .empty
  traceLogs := .empty
  failedTransactions := .empty
  userProfiles := .empty
  auditLogs := []
  checkpoint := none

end Amarillo.L2
