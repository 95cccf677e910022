import Amarillo.L3Indexer.ProcessBlock

/-!
# The direction of a swap

The two amounts of a `Swap` log are the pool's deltas: what it was paid is positive, what it
paid out negative. `Directed` says what `amount_in` and `amount_out` of a row should be:
the delta that came in and the size of the one that went out. `decode_swap` looks at the sign
of `amount0` only, so a delta of 0 counts as paid in whatever the other one is.

* `directed_iff`: the split is right unless `amount0` is 0 and `amount1` positive.
* `swap_directed_iff`: so for the row of every `Swap` log whose deltas do not have one sign.
* `zero_delta_reversed`: a log that pays in 1 of token 1 is stored as paying it out.
-/
namespace Amarillo.L3
open Amarillo.Core Amarillo.L1 Amarillo.L2

/-- The amounts of a row against its deltas. -/
structure Directed (e : SwapEvent) : Prop where
  split : (e.amountIn = e.amount0 ∧ e.amount1 ≤ 0 ∧ e.amountOut = -e.amount1) ∨
    (e.amountIn = e.amount1 ∧ e.amount0 ≤ 0 ∧ e.amountOut = -e.amount0)
  paid0 : 0 < e.amount0 → e.amountIn = e.amount0
  paid1 : 0 < e.amount1 → e.amountIn = e.amount1
  nonneg : 0 ≤ e.amountIn ∧ 0 ≤ e.amountOut
  balance : e.amountIn - e.amountOut = e.amount0 + e.amount1

/-- Both positive, or both negative. -/
def SameSign (a b : Int) : Prop := (0 < a ∧ 0 < b) ∨ (a < 0 ∧ b < 0)

instance (a b : Int) : Decidable (SameSign a b) := inferInstanceAs (Decidable (_ ∨ _))

/-- The amounts are those `decode_swap` computes. -/
def Decoded (e : SwapEvent) : Prop := (e.amountIn, e.amountOut) = swapDirection e.amount0 e.amount1

theorem directed_iff {e : SwapEvent} (he : Decoded e) (hsign : ¬SameSign e.amount0 e.amount1) :
    Directed e ↔ ¬(e.amount0 = 0 ∧ 0 < e.amount1) := by
  unfold SameSign at hsign
  unfold Decoded swapDirection at he
  constructor
  · rintro h ⟨hzero, hpos⟩
    -- the sign of `amount0` alone says that it came in
    rw [if_pos (by omega)] at he
    obtain ⟨hin, -⟩ := Prod.mk.inj he
    have := h.paid1 hpos
    omega
  · intro h
    by_cases h0 : 0 ≤ e.amount0
    · rw [if_pos h0] at he
      obtain ⟨hin, hout⟩ := Prod.mk.inj he
      have h1 : e.amount1 ≤ 0 := by omega
      exact ⟨.inl ⟨hin, h1, by omega⟩, fun _ => hin, fun _ => by omega, by omega, by omega⟩
    · rw [if_neg h0] at he
      obtain ⟨hin, hout⟩ := Prod.mk.inj he
      exact ⟨.inr ⟨hin, by omega, by omega⟩, fun _ => by omega, fun _ => hin, by omega, by omega⟩

/-- What `decode_log` gives for a log that `sol!` reads as a swap. -/
theorem decodeLog_swap {abi : Abi} {topics : List B256} {data : Bytes} (c : LogContext) {d : SwapLog}
    (htopic : topics.head? = some abi.swapSignature) (hd : abi.swap topics data = .ok d) :
    ∃ s, decodeLog abi topics data c = .ok (.swap s) ∧ s.amount0 = d.amount0.toInt ∧
      s.amount1 = d.amount1.toInt ∧ Decoded (toSwapModel s) := by
  cases topics with
  | nil => cases htopic
  | cons topic0 topics =>
    cases htopic
    rw [decodeLog, if_pos rfl, decodeSwap, hd]
    exact ⟨_, rfl, rfl, rfl, rfl⟩

/-- **When the direction of a swap is right.** Every `Swap` log whose deltas are not both
positive and not both negative becomes a row with these deltas, and its `amount_in` is the
delta that came in, the positive one if there is one, its `amount_out` the size of the other,
both non-negative and with the deltas' sum as their difference, if and only if it is not so
that `amount0` is 0 and `amount1` positive. -/
theorem swap_directed_iff (abi : Abi) (topics : List B256) (data : Bytes) (c : LogContext)
    (d : SwapLog) (htopic : topics.head? = some abi.swapSignature)
    (hd : abi.swap topics data = .ok d) (hsign : ¬SameSign d.amount0.toInt d.amount1.toInt) :
    ∃ s, decodeLog abi topics data c = .ok (.swap s) ∧
      (toSwapModel s).amount0 = d.amount0.toInt ∧ (toSwapModel s).amount1 = d.amount1.toInt ∧
      (Directed (toSwapModel s) ↔ ¬(d.amount0.toInt = 0 ∧ 0 < d.amount1.toInt)) := by
  obtain ⟨s, hs, h0, h1, hdecoded⟩ := decodeLog_swap c htopic hd
  refine ⟨s, hs, h0, h1, ?_⟩
  rw [← h0, ← h1] at hsign ⊢
  exact directed_iff hdecoded hsign

/-! ## Two logs -/

/-- The data of a log, word by word. -/
def swapData (amount0 amount1 : Nat) : Bytes :=
  [amount0, amount1, 79228162514264337593543950336, 1000000, 0].flatMap fun n =>
    (List.range 32).map fun i => UInt8.ofNat (n / 256 ^ (31 - i))

def swapTopics : List B256 := [wordAbi.swapSignature, .repeatByte 0, .repeatByte 0]

def swapWords (amount0 amount1 : BitVec 256) : SwapLog :=
  ⟨.repeatByte 0, .repeatByte 0, amount0, amount1, 79228162514264337593543950336, 1000000, 0⟩

def swapContext : LogContext := ⟨"0xcc", "0xaa", 0, 0⟩

theorem swap_directed_five :
    ∃ s, decodeLog wordAbi swapTopics (swapData 5 0) swapContext = .ok (.swap s) ∧
      (toSwapModel s).amount0 = 5 ∧ (toSwapModel s).amount1 = 0 ∧
      (Directed (toSwapModel s) ↔ ¬((5 : Int) = 0 ∧ (0 : Int) < 0)) :=
  swap_directed_iff wordAbi swapTopics (swapData 5 0) swapContext (swapWords 5 0) rfl
    (by decide +kernel) (by decide +kernel)

/-- 1 of token 1 came in, and nothing of token 0. -/
theorem zero_delta_reversed :
    ∃ s, decodeLog wordAbi swapTopics (swapData 0 1) swapContext = .ok (.swap s) ∧
      (toSwapModel s).amount0 = 0 ∧ (toSwapModel s).amount1 = 1 ∧
      (toSwapModel s).amountIn = 0 ∧ (toSwapModel s).amountOut = 1 ∧ ¬Directed (toSwapModel s) := by
  have hd : wordAbi.swap swapTopics (swapData 0 1) = .ok (swapWords 0 1) := by decide +kernel
  obtain ⟨s, hs, h0, h1, hdecoded⟩ := decodeLog_swap swapContext rfl hd
  have h0 : (toSwapModel s).amount0 = 0 := h0
  have h1 : (toSwapModel s).amount1 = 1 := h1
  have hsplit := hdecoded
  rw [Decoded, h0, h1] at hsplit
  obtain ⟨hin, hout⟩ := Prod.mk.inj hsplit
  refine ⟨s, hs, h0, h1, hin, hout, ?_⟩
  rw [directed_iff hdecoded (by rw [h0, h1]; decide), h0, h1]
  decide

end Amarillo.L3
