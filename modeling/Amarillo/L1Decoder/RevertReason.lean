import Amarillo.L1Decoder.Trace

/-!
# Revert reasons against the ABI

`AbiString` and `ErrorEncoding` say what the contract ABI means by the
encoding of `Error(string)`: an offset word, a length word at that offset, the
bytes of the string behind it. `decodeRevertReason` is looser: it takes the
word behind the offset word for the length and uses its low 8 bytes only, and
of a panic code it uses the last byte.

`decodeRevertReasonChecked` is the decoder with every index, slice and sum
that the language checks at run time; it returns what `decodeRevertReason`
returns (`decodeRevertReasonChecked_eq`).

Results:
* `decodeRevertReasonChecked_panic_free_iff`: a call panics exactly on an
  `Error(string)` payload whose length, read so, is above `2 ^ 64 - 65`, in
  builds with and without overflow checks.
* `decodeRevertReason_abi`: canonical encodings decode to their string, panic
  codes to a text that determines them modulo 256, and a payload too short for
  the length read gives an `Err`.
* `decodeRevertReason_loose`: where the decoder departs from the ABI.
-/
namespace Amarillo.L1
open Amarillo.Core

/-! ## Words -/

theorem beNat_append (a b : Bytes) : beNat (a ++ b) = 256 ^ b.length * beNat a + beNat b := by
  unfold beNat
  rw [List.foldl_append]
  generalize List.foldl (fun acc b => 256 * acc + UInt8.toNat b) 0 a = x
  have aux : ∀ (l : Bytes) (x y : Nat),
      l.foldl (fun acc b => 256 * acc + b.toNat) (x + y) =
        256 ^ l.length * x + l.foldl (fun acc b => 256 * acc + b.toNat) y := by
    intro l
    induction l with
    | nil => intro x y; simp
    | cons b bs ih =>
      intro x y
      rw [List.foldl_cons, List.foldl_cons, Nat.mul_add, Nat.add_assoc, ih, List.length_cons,
        Nat.pow_succ, Nat.mul_assoc]
  exact aux b x 0

/-- The last `k` bytes of `n`, big-endian. -/
def beBytes : Nat → Nat → Bytes
  | 0, _ => []
  | k + 1, n => beBytes k (n / 256) ++ [UInt8.ofNat (n % 256)]

@[simp] theorem length_beBytes (k n : Nat) : (beBytes k n).length = k := by
  induction k generalizing n with
  | zero => rfl
  | succ k ih => rw [beBytes, List.length_append, ih]; rfl

/-- A `uint256`. -/
def abiWord (n : Nat) : Bytes := beBytes 32 n

@[simp] theorem length_abiWord (n : Nat) : (abiWord n).length = 32 := length_beBytes 32 n

/-- The word at byte `off`. -/
def wordAt (data : Bytes) (off : Nat) : Nat := beNat ((data.drop off).take 32)

/-- The low 8 bytes of a word. -/
theorem wordAt_mod {data : Bytes} {off : Nat} (h : off + 32 ≤ data.length) :
    wordAt data off % 2 ^ 64 = beNat ((data.drop (off + 24)).take 8) := by
  have hsplit : (data.drop off).take 32 =
      (data.drop off).take 24 ++ (data.drop (off + 24)).take 8 := by
    rw [show 32 = 24 + 8 by rfl, List.take_add, List.drop_drop]
  have hlen : ((data.drop (off + 24)).take 8).length = 8 := by
    rw [List.length_take, List.length_drop]; omega
  have hlt := beNat_lt ((data.drop (off + 24)).take 8)
  rw [hlen] at hlt
  rw [wordAt, hsplit, beNat_append, hlen]
  omega

/-! ## Bounds the language checks -/

section Checked
variable {E : Type}

/-- `&data[lo..hi]`. -/
def slice (data : Bytes) (lo hi : Nat) : Except (Fault E) Bytes :=
  if lo ≤ hi ∧ hi ≤ data.length then .ok ((data.take hi).drop lo) else .error .panic

/-- `data[i]`. -/
def index (data : Bytes) (i : Nat) : Except (Fault E) UInt8 :=
  if i < data.length then .ok (data.getD i 0) else .error .panic

/-- `a + b` on `usize`. -/
def Runtime.add (R : Runtime) (a b : Nat) : Except (Fault E) Nat :=
  if a + b < 2 ^ 64 then .ok (a + b)
  else if R.overflowChecks = true then .error .panic
  else .ok ((a + b) % 2 ^ 64)

theorem slice_ok {data : Bytes} {lo hi : Nat} (h : lo ≤ hi) (h' : hi ≤ data.length) :
    (slice data lo hi : Except (Fault E) Bytes) = .ok ((data.take hi).drop lo) :=
  if_pos ⟨h, h'⟩

theorem slice_panic {data : Bytes} {lo hi : Nat} (h : hi < lo) :
    (slice data lo hi : Except (Fault E) Bytes) = .error .panic :=
  if_neg fun hc => by omega

theorem index_ok {data : Bytes} {i : Nat} (h : i < data.length) :
    (index data i : Except (Fault E) UInt8) = .ok (data.getD i 0) :=
  if_pos h

end Checked

variable (R : Runtime)

/-- mirrors crates/decoder/src/trace.rs:205-227 -/
def decodeAbiStringChecked (data : Bytes) : Except (Fault DecodeError) String :=
  if data.length < 64 then .error (.error (.abiDecode "ABI string data too short"))
  else do
    let lenBuf ← slice data 56 64
    let len := beNat lenBuf
    let strEnd ← R.add 64 len
    if data.length < strEnd then .error (.error (.abiDecode "string length exceeds data"))
    else do
      let str ← slice data 64 strEnd
      return String.ofList (fromUtf8Lossy str)

/-- mirrors crates/decoder/src/trace.rs:79-99 -/
def decodeRevertReasonChecked (output : Bytes) : Except (Fault DecodeError) String :=
  if output.length < 4 then .ok ("0x" ++ bytesToHex output)
  else do
    let selector ← slice output 0 4
    if selector = [0x08, 0xc3, 0x79, 0xa0] then do
      let data ← slice output 4 output.length
      decodeAbiStringChecked R data
    else if selector = [0x4e, 0x48, 0x7b, 0x71] ∧ 36 ≤ output.length then do
      let panicCode ← index output 35
      return "Panic(0x" ++ bytesToHex [panicCode] ++ ")"
    else .ok ("0x" ++ bytesToHex output)

theorem decodeAbiStringChecked_eq (data : Bytes) :
    decodeAbiStringChecked R data = decodeAbiString R data := by
  have hlt := beNat_lt ((data.drop 56).take 8)
  have h8 : ((data.drop 56).take 8).length ≤ 8 := List.length_take_le 8 _
  have hpow : 256 ^ ((data.drop 56).take 8).length ≤ 256 ^ 8 := Nat.pow_le_pow_right (by decide) h8
  unfold decodeAbiStringChecked decodeAbiString
  by_cases h : data.length < 64
  · rw [if_pos h, if_pos h]
  rw [if_neg h, if_neg h, slice_ok (by decide) (by omega), List.drop_take]
  simp only [bind, Except.bind, Runtime.add, Nat.reduceSub]
  generalize beNat ((data.drop 56).take 8) = len at *
  by_cases hw : 64 + len < 2 ^ 64
  · rw [if_neg (show ¬ (2 ^ 64 ≤ 64 + len ∧ R.overflowChecks = true) by omega),
      Nat.mod_eq_of_lt hw]
    simp only [if_pos hw]
    by_cases hend : data.length < 64 + len
    · rw [if_pos hend, if_pos hend]
    · rw [if_neg hend, if_neg hend, if_neg (by omega), slice_ok (by omega) (by omega)]
      rfl
  by_cases hR : R.overflowChecks = true
  · rw [if_pos (show 2 ^ 64 ≤ 64 + len ∧ R.overflowChecks = true from ⟨by omega, hR⟩)]
    simp only [if_neg hw, if_pos hR]
  · -- the sum wrapped to less than 64, the bounds cross
    rw [if_neg (show ¬ (2 ^ 64 ≤ 64 + len ∧ R.overflowChecks = true) from fun hc => hR hc.2)]
    simp only [if_neg hw, if_neg hR]
    rw [if_neg (by omega), if_neg (by omega), if_pos (by omega), slice_panic (by omega)]

theorem decodeRevertReasonChecked_eq (output : Bytes) :
    decodeRevertReasonChecked R output = decodeRevertReason R output := by
  unfold decodeRevertReasonChecked decodeRevertReason
  by_cases h : output.length < 4
  · rw [if_pos h, if_pos h]
  rw [if_neg h, if_neg h, slice_ok (by decide) (by omega), slice_ok (by omega) (Nat.le_refl _),
    List.take_length, List.drop_zero]
  simp only [bind, Except.bind, decodeAbiStringChecked_eq]
  split
  · rfl
  split
  · rename_i hp
    rw [index_ok (by omega)]
    rfl
  · rfl

def errorSelector : Bytes := [0x08, 0xc3, 0x79, 0xa0]

def panicSelector : Bytes := [0x4e, 0x48, 0x7b, 0x71]

theorem decodeRevertReason_error {output : Bytes} (h : output.take 4 = errorSelector) :
    decodeRevertReason R output = decodeAbiString R (output.drop 4) := by
  have h4 : ¬ output.length < 4 := by
    have := congrArg List.length h
    rw [List.length_take] at this
    simp only [errorSelector, List.length_cons, List.length_nil] at this
    omega
  unfold decodeRevertReason
  rw [if_neg h4, if_pos (by exact h)]

theorem decodeRevertReason_other {output : Bytes} (h : output.take 4 ≠ errorSelector) :
    decodeRevertReason R output ≠ .error .panic := by
  unfold decodeRevertReason
  split
  · simp
  rw [if_neg (show ¬ output.take 4 = [0x08, 0xc3, 0x79, 0xa0] from h)]
  split
  · simp
  · simp

/-- A return data panics the decoder, in either build, exactly if it is an
`Error(string)` payload whose length word wraps the end of the string. -/
theorem decodeRevertReasonChecked_panic_free_iff (output : Bytes) :
    decodeRevertReasonChecked R output ≠ .error .panic ↔
      ¬ (output.take 4 = errorSelector ∧ WrapsLength (output.drop 4)) := by
  rw [decodeRevertReasonChecked_eq]
  by_cases h : output.take 4 = errorSelector
  · rw [decodeRevertReason_error R h, Ne, decodeAbiString_panic_iff, and_iff_right h]
  · exact iff_of_true (decodeRevertReason_other R h) fun hc => h hc.1

def hugeLength : Bytes := errorSelector ++ abiWord 32 ++ abiWord (2 ^ 64 - 1)

/-- A contract that reverts with this data stops the task that decodes it. -/
theorem hugeLength_panics :
    decodeRevertReasonChecked (.asciiOnly true) hugeLength = .error .panic ∧
      decodeRevertReasonChecked (.asciiOnly false) hugeLength = .error .panic :=
  ⟨rfl, rfl⟩

/-! ## Encodings -/

/-- `data` encodes the string `s`: an offset word, and at that offset a length
word followed by the bytes of `s`. Anything may stand elsewhere. -/
structure AbiString (data : Bytes) (s : String) : Prop where
  head : wordAt data 0 + 32 ≤ data.length
  length : wordAt data (wordAt data 0) = (utf8 s).length
  content : utf8 s <+: data.drop (wordAt data 0 + 32)

/-- `output` is an ABI encoding of `Error(s)`. -/
structure ErrorEncoding (output : Bytes) (s : String) : Prop where
  selector : output.take 4 = errorSelector
  args : AbiString (output.drop 4) s

/-- `output` is the ABI encoding of `Panic(code)`. -/
def panicEncoding (code : Nat) : Bytes := panicSelector ++ abiWord code

/-- The data ends before the string that the low 8 bytes of the length word
announce. -/
def TooShort (data : Bytes) : Prop :=
  data.length < 64 ∨ data.length < 64 + wordAt data 32 % 2 ^ 64

theorem decodeAbiString_tooShort_iff {data : Bytes} (hw : ¬ WrapsLength data) :
    (∃ msg, decodeAbiString R data = .error (.error (.abiDecode msg))) ↔ TooShort data := by
  unfold decodeAbiString TooShort
  by_cases h : data.length < 64
  · rw [if_pos h]
    exact iff_of_true ⟨_, rfl⟩ (.inl h)
  have hlen : 64 + beNat ((data.drop 56).take 8) < 2 ^ 64 := by
    by_contra hc
    exact hw ⟨by omega, by omega⟩
  rw [if_neg h, wordAt_mod (by omega)]
  simp only [Nat.reduceAdd]
  generalize beNat ((data.drop 56).take 8) = len at *
  rw [if_neg (by omega), Nat.mod_eq_of_lt hlen]
  by_cases hend : data.length < 64 + len
  · rw [if_pos hend]
    exact iff_of_true ⟨_, rfl⟩ (.inr hend)
  · rw [if_neg hend, if_neg (by omega)]
    refine iff_of_false ?_ (by omega)
    rintro ⟨msg, hmsg⟩
    cases hmsg

/-- What is returned when the string fits. -/
theorem decodeAbiString_ok {data : Bytes} (h : 64 + wordAt data 32 % 2 ^ 64 ≤ data.length)
    (hlt : data.length < 2 ^ 64) :
    decodeAbiString R data =
      .ok (String.ofList (fromUtf8Lossy ((data.drop 64).take (wordAt data 32 % 2 ^ 64)))) := by
  have hmod : wordAt data 32 % 2 ^ 64 = beNat ((data.drop 56).take 8) := wordAt_mod (by omega)
  unfold decodeAbiString
  rw [if_neg (by omega)]
  simp only [← hmod]
  generalize wordAt data 32 % 2 ^ 64 = len at *
  rw [if_neg (by omega), Nat.mod_eq_of_lt (by omega), if_neg (by omega), if_neg (by omega),
    List.drop_take, Nat.add_sub_cancel_left]

/-- A canonical encoding decodes to its string. A slice has less than `2 ^ 63`
bytes. -/
theorem decodeRevertReason_encoding {output : Bytes} {s : String} (h : ErrorEncoding output s)
    (hoff : wordAt (output.drop 4) 0 = 32) (hlt : output.length < 2 ^ 63) :
    decodeRevertReason R output = .ok s := by
  obtain ⟨hsel, hhead, hlength, hcontent⟩ := h
  rw [decodeRevertReason_error R hsel]
  have hdlt : (output.drop 4).length < 2 ^ 63 := by rw [List.length_drop]; omega
  generalize output.drop 4 = data at *
  rw [hoff] at hhead hlength hcontent
  obtain ⟨tail, htail⟩ := hcontent
  have hfit : 64 + (utf8 s).length ≤ data.length := by
    have := congrArg List.length htail
    rw [List.length_append, List.length_drop] at this
    omega
  have hmod : wordAt data 32 % 2 ^ 64 = (utf8 s).length := by
    rw [hlength, Nat.mod_eq_of_lt (by omega)]
  rw [decodeAbiString_ok R (by omega) (by omega), hmod, ← htail, List.take_left,
    fromUtf8Lossy_utf8, String.ofList_toList]

/-- The offset word is skipped. -/
theorem decodeAbiString_offset {a b : Bytes} (hlen : a.length = b.length)
    (h : a.drop 32 = b.drop 32) : decodeAbiString R a = decodeAbiString R b := by
  have h56 : a.drop 56 = b.drop 56 := by
    have := congrArg (List.drop 24) h
    rwa [List.drop_drop, List.drop_drop] at this
  have h64 (e : Nat) : (a.take e).drop 64 = (b.take e).drop 64 := by
    have := congrArg (List.drop 32) h
    rw [List.drop_drop, List.drop_drop] at this
    rw [List.drop_take, List.drop_take, this]
  unfold decodeAbiString
  simp only [hlen, h56, h64]

theorem decodeRevertReason_offset {a b : Bytes} (ha : a.take 4 = errorSelector)
    (hb : b.take 4 = errorSelector) (hlen : a.length = b.length) (h : a.drop 36 = b.drop 36) :
    decodeRevertReason R a = decodeRevertReason R b := by
  rw [decodeRevertReason_error R ha, decodeRevertReason_error R hb]
  refine decodeAbiString_offset R ?_ ?_
  · rw [List.length_drop, List.length_drop, hlen]
  · rw [List.drop_drop, List.drop_drop, h]

def panicText (code : Nat) : String := "Panic(0x" ++ bytesToHex [UInt8.ofNat (code % 256)] ++ ")"

theorem decodeRevertReason_panicEncoding (code : Nat) (tail : Bytes) :
    decodeRevertReason R (panicEncoding code ++ tail) = .ok (panicText code) := by
  have hword : abiWord code = beBytes 31 (code / 256) ++ [UInt8.ofNat (code % 256)] := rfl
  have hget : (panicEncoding code ++ tail).getD 35 0 = UInt8.ofNat (code % 256) := by
    have : panicEncoding code ++ tail =
        (panicSelector ++ beBytes 31 (code / 256)) ++ UInt8.ofNat (code % 256) :: tail := by
      rw [panicEncoding, hword]
      simp
    rw [this, List.getD_append_right _ _ _ _ (by simp [panicSelector])]
    simp [panicSelector]
  have hlen : (panicEncoding code ++ tail).length = 36 + tail.length := by
    simp [panicEncoding, panicSelector]
    omega
  have htake : (panicEncoding code ++ tail).take 4 = panicSelector := rfl
  unfold decodeRevertReason
  rw [if_neg (by omega), htake, if_neg (by decide), if_pos ⟨rfl, by omega⟩, hget]
  rfl

/-- The text of a panic code determines the code modulo 256. -/
theorem panicText_inj_iff (code code' : Nat) :
    panicText code = panicText code' ↔ code % 256 = code' % 256 := by
  constructor
  · intro h
    have hdigits := (String.append_right_inj _).mp ((String.append_left_inj _).mp h)
    have hbyte := congrArg UInt8.toNat (List.head_eq_of_cons_eq (bytesToHex_inj hdigits))
    simpa using hbyte
  · intro h
    rw [panicText, panicText, h]

/-! ## Round trip -/

/-- The decoder inverts canonical encodings of `Error(s)`, reads the last byte
of a panic code, and refuses data shorter than the length it reads. The offset
word and the high 24 bytes of the length word have no part in the result. -/
theorem decodeRevertReason_abi :
    (∀ s output, ErrorEncoding output s → wordAt (output.drop 4) 0 = 32 →
        output.length < 2 ^ 63 → decodeRevertReason R output = .ok s) ∧
      (∀ a b : Bytes, a.take 4 = errorSelector → b.take 4 = errorSelector →
        a.length = b.length → a.drop 36 = b.drop 36 →
        decodeRevertReason R a = decodeRevertReason R b) ∧
      (∀ code tail code' tail',
        decodeRevertReason R (panicEncoding code ++ tail) = .ok (panicText code) ∧
        (decodeRevertReason R (panicEncoding code ++ tail) =
            decodeRevertReason R (panicEncoding code' ++ tail') ↔ code % 256 = code' % 256)) ∧
      (∀ output : Bytes, output.take 4 = errorSelector → ¬ WrapsLength (output.drop 4) →
        ((∃ msg, decodeRevertReason R output = .error (.error (.abiDecode msg))) ↔
          TooShort (output.drop 4))) := by
  refine ⟨?_, ?_, ?_, ?_⟩
  · intro s output
    exact decodeRevertReason_encoding R
  · intro a b
    exact decodeRevertReason_offset R
  · intro code tail code' tail'
    rw [decodeRevertReason_panicEncoding, decodeRevertReason_panicEncoding]
    refine ⟨rfl, ?_⟩
    rw [Except.ok.injEq]
    exact panicText_inj_iff code code'
  · intro output hsel hw
    rw [decodeRevertReason_error R hsel]
    exact decodeAbiString_tooShort_iff R hw

/-- `Error("hi")` with its arguments laid out from offset `off`. -/
def hiAt (off : Nat) : Bytes :=
  errorSelector ++ abiWord off ++ List.replicate (off - 32) 0 ++ abiWord 2 ++ [0x68, 0x69] ++
    List.replicate 30 0

theorem decodeRevertReason_abi_hi :
    decodeRevertReason (.asciiOnly true) (hiAt 32) = .ok "hi" ∧
      (∃ msg, decodeRevertReason (.asciiOnly true) (errorSelector ++ abiWord 32 ++ abiWord 2) =
        .error (.error (.abiDecode msg))) := by
  obtain ⟨hstring, -, -, hshort⟩ := decodeRevertReason_abi (.asciiOnly true)
  refine ⟨hstring "hi" (hiAt 32) ⟨rfl, ?_⟩ (by decide +kernel) (by decide +kernel), ?_⟩
  · exact ⟨by decide +kernel, by decide +kernel, by decide +kernel⟩
  · refine (hshort _ rfl ?_).mpr (.inr (by decide +kernel))
    unfold WrapsLength
    decide +kernel

/-- The decoder is not the ABI's inverse: a shifted encoding of "hi" and a
length word of `2 ^ 64` without data read as the empty string, and panic codes
1 and 257 read alike. -/
theorem decodeRevertReason_loose :
    (ErrorEncoding (hiAt 64) "hi" ∧ decodeRevertReason (.asciiOnly true) (hiAt 64) = .ok "") ∧
      decodeRevertReason (.asciiOnly true) (panicEncoding 1) =
        decodeRevertReason (.asciiOnly true) (panicEncoding 257) ∧
      decodeRevertReason (.asciiOnly true) (errorSelector ++ abiWord 32 ++ abiWord (2 ^ 64)) =
        .ok "" := by
  refine ⟨⟨⟨rfl, ⟨by decide +kernel, by decide +kernel, by decide +kernel⟩⟩, ?_⟩, ?_⟩
  · decide +kernel
  · decide +kernel

end Amarillo.L1
