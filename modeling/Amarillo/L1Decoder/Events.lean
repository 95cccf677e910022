import Amarillo.L1Decoder.Trace

/-!
# Event logs (`decoder/src/events.rs`)

`decodeLog` picks a decoder by the first topic. What the `sol!` macro
generates (the signature hashes and `decode_raw_log` of each event) is a
parameter, `Abi`; its results are typed words, so a field carries the width
Solidity gives it and nothing else.

An `int256` or `uint256` becomes a decimal string and then a `BigDecimal`,
which loses nothing, so amounts are `Int` here; an `int24` printed in decimal
always parses as `i32`. Times are seconds since the epoch.
-/
namespace Amarillo.L1
open Amarillo.Core

structure FixedBytes (n : Nat) where
  bytes : Bytes
  len : bytes.length = n
  deriving DecidableEq

abbrev B256 := FixedBytes 32
abbrev Address := FixedBytes 20

/-- `format!("0x{:x}", h)`, and `format!("{}", a).to_lowercase()` of an address:
the checksum casing is undone again. -/
def FixedBytes.hex {n : Nat} (b : FixedBytes n) : String := "0x" ++ bytesToHex b.bytes

def FixedBytes.repeatByte {n : Nat} (b : UInt8) : FixedBytes n := ⟨List.replicate n b, List.length_replicate⟩

theorem FixedBytes.hex_inj {n : Nat} {a b : FixedBytes n} (h : a.hex = b.hex) : a = b := by
  obtain ⟨a, _⟩ := a
  obtain ⟨b, _⟩ := b
  have : bytesToHex a = bytesToHex b := by
    have := congrArg String.toList h
    simp only [FixedBytes.hex, String.toList_append, List.append_cancel_left_eq] at this
    exact String.toList_inj.mp this
  simp only [FixedBytes.mk.injEq]
  exact bytesToHex_inj this

theorem FixedBytes.hex_length {n : Nat} (b : FixedBytes n) : b.hex.toList.length = 2 + 2 * n := by
  simp only [FixedBytes.hex, String.toList_append, List.length_append, bytesToHex_length, b.len]
  rfl

/-! ## What `sol!` generates -/

structure SwapLog where
  sender : Address
  recipient : Address
  amount0 : BitVec 256
  amount1 : BitVec 256
  sqrtPriceX96 : BitVec 160
  liquidity : BitVec 128
  tick : BitVec 24
  deriving DecidableEq

/-- `Mint` and `Burn` decode to the same fields, `Mint`'s unused sender apart. -/
structure LiquidityLog where
  owner : Address
  tickLower : BitVec 24
  tickUpper : BitVec 24
  amount : BitVec 128
  amount0 : BitVec 256
  amount1 : BitVec 256
  deriving DecidableEq

structure TransferLog where
  fromAddr : Address
  toAddr : Address
  value : BitVec 256
  deriving DecidableEq

/-- The `sol!` events: signature hashes and `decode_raw_log`, whose error is
kept as its text. -/
structure Abi where
  swapSignature : B256
  mintSignature : B256
  burnSignature : B256
  transferSignature : B256
  swap : List B256 → Bytes → Except String SwapLog
  mint : List B256 → Bytes → Except String LiquidityLog
  burn : List B256 → Bytes → Except String LiquidityLog
  transfer : List B256 → Bytes → Except String TransferLog

/-! ### An instance

A decoder of well-formed logs: the right number of topics and words, each
word read in its low bits. -/

def Address.ofWord (w : B256) : Address := ⟨w.bytes.drop 12, by rw [List.length_drop, w.len]⟩

def beWord (w : Nat) (bytes : Bytes) : BitVec w := .ofNat w (beNat bytes)

/-- The `i`-th word of a log's data. -/
def dataWord (data : Bytes) (i : Nat) : Bytes := (data.drop (32 * i)).take 32

def liquidityWords (owner lower upper : B256) (words : Bytes) : LiquidityLog where
  owner := .ofWord owner
  tickLower := beWord 24 lower.bytes
  tickUpper := beWord 24 upper.bytes
  amount := beWord 128 (dataWord words 0)
  amount0 := beWord 256 (dataWord words 1)
  amount1 := beWord 256 (dataWord words 2)

def wordAbi : Abi where
  swapSignature := ⟨[0xc4, 0x20, 0x79, 0xf9, 0x4a, 0x63, 0x50, 0xd7, 0xe6, 0x23, 0x5f, 0x29, 0x17, 0x49, 0x24, 0xf9,
      0x28, 0xcc, 0x2a, 0xc8, 0x18, 0xeb, 0x64, 0xfe, 0xd8, 0x00, 0x4e, 0x11, 0x5f, 0xbc, 0xca, 0x67], rfl⟩
  mintSignature := ⟨[0x7a, 0x53, 0x08, 0x0b, 0xa4, 0x14, 0x15, 0x8b, 0xe7, 0xec, 0x69, 0xb9, 0x87, 0xb5, 0xfb, 0x7d,
      0x07, 0xde, 0xe1, 0x01, 0xfe, 0x85, 0x48, 0x8f, 0x08, 0x53, 0xae, 0x16, 0x23, 0x9d, 0x0b, 0xde], rfl⟩
  burnSignature := ⟨[0x0c, 0x39, 0x6c, 0xd9, 0x89, 0xa3, 0x9f, 0x44, 0x59, 0xb5, 0xfa, 0x1a, 0xed, 0x6a, 0x9a, 0x8d,
      0xcd, 0xbc, 0x45, 0x90, 0x8a, 0xcf, 0xd6, 0x7e, 0x02, 0x8c, 0xd5, 0x68, 0xda, 0x98, 0x98, 0x2c], rfl⟩
  transferSignature := ⟨[0xdd, 0xf2, 0x52, 0xad, 0x1b, 0xe2, 0xc8, 0x9b, 0x69, 0xc2, 0xb0, 0x68, 0xfc, 0x37, 0x8d, 0xaa,
      0x95, 0x2b, 0xa7, 0xf1, 0x63, 0xc4, 0xa1, 0x16, 0x28, 0xf5, 0x5a, 0x4d, 0xf5, 0x23, 0xb3, 0xef], rfl⟩
  swap
    | [_, sender, recipient], data =>
      if data.length = 160 then .ok
        { sender := .ofWord sender, recipient := .ofWord recipient
          amount0 := beWord 256 (dataWord data 0), amount1 := beWord 256 (dataWord data 1)
          sqrtPriceX96 := beWord 160 (dataWord data 2), liquidity := beWord 128 (dataWord data 3)
          tick := beWord 24 (dataWord data 4) }
      else .error "type check failed"
    | _, _ => .error "topic list length mismatch"
  mint
    | [_, owner, lower, upper], data =>
      if data.length = 128 then .ok (liquidityWords owner lower upper (data.drop 32))
      else .error "type check failed"
    | _, _ => .error "topic list length mismatch"
  burn
    | [_, owner, lower, upper], data =>
      if data.length = 96 then .ok (liquidityWords owner lower upper data)
      else .error "type check failed"
    | _, _ => .error "topic list length mismatch"
  transfer
    | [_, fromAddr, toAddr], data =>
      if data.length = 32 then .ok
        { fromAddr := .ofWord fromAddr, toAddr := .ofWord toAddr, value := beWord 256 data }
      else .error "type check failed"
    | _, _ => .error "topic list length mismatch"

/-! ## Decoders -/

/-- mirrors crates/decoder/src/events.rs:55-82 -/
structure DecodedSwap where
  poolAddress : String
  txHash : String
  sender : String
  recipient : String
  amount0 : Int
  amount1 : Int
  amountIn : Int
  amountOut : Int
  sqrtPriceX96 : Int
  liquidity : Int
  tick : Int
  logIndex : Int
  timestamp : Int
  deriving DecidableEq, Repr

/-- mirrors crates/decoder/src/events.rs:86-109 -/
structure DecodedLiquidity where
  eventType : String
  poolAddress : String
  txHash : String
  provider : String
  token0Amount : Int
  token1Amount : Int
  tickLower : Int
  tickUpper : Int
  liquidity : Int
  logIndex : Int
  timestamp : Int
  deriving DecidableEq, Repr

/-- mirrors crates/decoder/src/events.rs:113-128 -/
structure DecodedTransfer where
  txHash : String
  tokenAddress : String
  fromAddr : String
  toAddr : String
  amount : Int
  logIndex : Int
  timestamp : Int
  deriving DecidableEq, Repr

inductive DecodedEvent where
  | swap (s : DecodedSwap)
  | liquidity (l : DecodedLiquidity)
  | transfer (t : DecodedTransfer)
  deriving DecidableEq, Repr

def DecodedEvent.txHash : DecodedEvent → String
  | .swap s => s.txHash
  | .liquidity l => l.txHash
  | .transfer t => t.txHash

/-- The direction of a swap: what came in, and the size of what went out.
mirrors crates/decoder/src/events.rs:215-220 -/
def swapDirection (amount0 amount1 : Int) : Int × Int :=
  if 0 ≤ amount0 then (amount0, amount1.natAbs) else (amount1, amount0.natAbs)

/-- Where a log was emitted. -/
structure LogContext where
  address : String
  txHash : String
  logIndex : Int
  timestamp : Int
  deriving DecidableEq, Repr

/-- mirrors crates/decoder/src/events.rs:201-239 -/
def decodeSwap (abi : Abi) (topics : List B256) (data : Bytes) (c : LogContext) :
    Except DecodeError DecodedEvent :=
  match abi.swap topics data with
  | .error e => .error (.abiDecode e)
  | .ok d =>
    let dir := swapDirection d.amount0.toInt d.amount1.toInt
    .ok (.swap
      { poolAddress := c.address, txHash := c.txHash
        sender := d.sender.hex, recipient := d.recipient.hex
        amount0 := d.amount0.toInt, amount1 := d.amount1.toInt
        amountIn := dir.1, amountOut := dir.2
        sqrtPriceX96 := d.sqrtPriceX96.toNat, liquidity := d.liquidity.toNat
        tick := d.tick.toInt, logIndex := c.logIndex, timestamp := c.timestamp })

/-- The common body of `decode_mint` and `decode_burn`. -/
def liquidityEvent (eventType : String) (d : LiquidityLog) (c : LogContext) : DecodedLiquidity where
  eventType := eventType
  poolAddress := c.address
  txHash := c.txHash
  provider := d.owner.hex
  token0Amount := d.amount0.toNat
  token1Amount := d.amount1.toNat
  tickLower := d.tickLower.toInt
  tickUpper := d.tickUpper.toInt
  liquidity := d.amount.toNat
  logIndex := c.logIndex
  timestamp := c.timestamp

/-- mirrors crates/decoder/src/events.rs:242-267 -/
def decodeMint (abi : Abi) (topics : List B256) (data : Bytes) (c : LogContext) :
    Except DecodeError DecodedEvent :=
  match abi.mint topics data with
  | .error e => .error (.abiDecode e)
  | .ok d => .ok (.liquidity (liquidityEvent "MINT" d c))

/-- mirrors crates/decoder/src/events.rs:270-295 -/
def decodeBurn (abi : Abi) (topics : List B256) (data : Bytes) (c : LogContext) :
    Except DecodeError DecodedEvent :=
  match abi.burn topics data with
  | .error e => .error (.abiDecode e)
  | .ok d => .ok (.liquidity (liquidityEvent "BURN" d c))

/-- mirrors crates/decoder/src/events.rs:298-318 -/
def decodeTransfer (abi : Abi) (topics : List B256) (data : Bytes) (c : LogContext) :
    Except DecodeError DecodedEvent :=
  match abi.transfer topics data with
  | .error e => .error (.abiDecode e)
  | .ok d => .ok (.transfer
      { txHash := c.txHash, tokenAddress := c.address
        fromAddr := d.fromAddr.hex, toAddr := d.toAddr.hex, amount := d.value.toNat
        logIndex := c.logIndex, timestamp := c.timestamp })

/-- mirrors crates/decoder/src/events.rs:145-198 -/
def decodeLog (abi : Abi) (topics : List B256) (data : Bytes) (c : LogContext) :
    Except DecodeError DecodedEvent :=
  match topics with
  | [] => .error (.missingField "topic0")
  | topic0 :: _ =>
    if topic0 = abi.swapSignature then decodeSwap abi topics data c
    else if topic0 = abi.mintSignature then decodeMint abi topics data c
    else if topic0 = abi.burnSignature then decodeBurn abi topics data c
    else if topic0 = abi.transferSignature then decodeTransfer abi topics data c
    else .error (.unknownTopic topic0.hex)

/-- An event belongs to the transaction of its log. -/
theorem decodeLog_txHash {abi : Abi} {topics : List B256} {data : Bytes} {c : LogContext}
    {e : DecodedEvent} (h : (decodeLog abi topics data c).toOption = some e) :
    e.txHash = c.txHash := by
  unfold decodeLog decodeSwap decodeMint decodeBurn decodeTransfer at h
  repeat' split at h
  all_goals first
    | (cases h; rfl)
    | cases h

end Amarillo.L1
