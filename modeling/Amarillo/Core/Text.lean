import Mathlib

/-!
# Bytes, hex digits and lossy UTF-8

`bytesToHex` writes two lowercase digits a byte and `hexDecode` reads them
back in either case (`hexDecode_bytesToHex`), so rendering a byte string is
injective. `fromStrRadix16` is an unsigned integer's hex parse: an optional
leading `+`, at least one digit, no overflow.

`fromUtf8Lossy` decodes UTF-8 and puts U+FFFD for every maximal part of an
ill-formed sequence. It produces a NUL exactly when the input holds a zero
byte (`nul_mem_fromUtf8Lossy`), and reads a string's own bytes back unchanged
(`fromUtf8Lossy_utf8`).
-/
namespace Amarillo.Core

abbrev Bytes := List UInt8

/-! ## Hex -/

def hexDigit (n : Nat) : Char :=
  ['0', '1', '2', '3', '4', '5', '6', '7', '8', '9', 'a', 'b', 'c', 'd', 'e', 'f'].getD n '0'

def hexByte (b : UInt8) : List Char := [hexDigit (b.toNat / 16), hexDigit (b.toNat % 16)]

def bytesToHex (bytes : Bytes) : String := String.ofList (bytes.flatMap hexByte)

def hexVal (c : Char) : Option Nat :=
  if '0' ≤ c ∧ c ≤ '9' then some (c.toNat - 48)
  else if 'a' ≤ c ∧ c ≤ 'f' then some (c.toNat - 87)
  else if 'A' ≤ c ∧ c ≤ 'F' then some (c.toNat - 55)
  else none

def hexDecode : List Char → Option Bytes
  | [] => some []
  | [_] => none
  | a :: b :: rest =>
    match hexVal a, hexVal b with
    | some x, some y => (hexDecode rest).map (UInt8.ofNat (16 * x + y) :: ·)
    | _, _ => none

theorem hexVal_hexDigit : ∀ n, n < 16 → hexVal (hexDigit n) = some n := by decide

theorem hexDecode_hexBytes (bytes : Bytes) : hexDecode (bytes.flatMap hexByte) = some bytes := by
  induction bytes with
  | nil => rfl
  | cons b bs ih =>
    have hb := b.toNat_lt
    have hi := hexVal_hexDigit (b.toNat / 16) (by omega)
    have lo := hexVal_hexDigit (b.toNat % 16) (by omega)
    have hj : 16 * (b.toNat / 16) + b.toNat % 16 = b.toNat := by omega
    simp [hexByte, hexDecode, hi, lo, hj, ih]

/-- Reading the digits of a byte string gives it back. -/
theorem hexDecode_bytesToHex (bytes : Bytes) : hexDecode (bytesToHex bytes).toList = some bytes := by
  rw [bytesToHex, String.toList_ofList, hexDecode_hexBytes]

theorem bytesToHex_inj {a b : Bytes} (h : bytesToHex a = bytesToHex b) : a = b := by
  have := hexDecode_bytesToHex a
  rw [h, hexDecode_bytesToHex, Option.some.injEq] at this
  exact this.symm

theorem bytesToHex_length (bytes : Bytes) : (bytesToHex bytes).toList.length = 2 * bytes.length := by
  rw [bytesToHex, String.toList_ofList]
  induction bytes with
  | nil => rfl
  | cons b bs ih => simp only [List.flatMap_cons, List.length_append, List.length_cons, ih, hexByte,
      List.length_nil]; omega

theorem hexDigit_ascii (n : Nat) : hexDigit n ∈ "0123456789abcdef".toList := by
  have key : ∀ n, n < 16 → hexDigit n ∈ "0123456789abcdef".toList := by decide
  by_cases h : n < 16
  · exact key n h
  · have : hexDigit n = '0' := by
      rw [hexDigit, List.getD_eq_getElem?_getD, List.getElem?_eq_none (by simp; omega)]; rfl
    rw [this]; decide

/-- A rendering holds lowercase hex digits only. -/
theorem mem_bytesToHex {bytes : Bytes} {c : Char} (h : c ∈ (bytesToHex bytes).toList) :
    c ∈ "0123456789abcdef".toList := by
  rw [bytesToHex, String.toList_ofList, List.mem_flatMap] at h
  obtain ⟨b, -, hc⟩ := h
  simp only [hexByte, List.mem_cons, List.not_mem_nil, or_false] at hc
  rcases hc with rfl | rfl <;> exact hexDigit_ascii _

/-- Value of a string of hex digits, `none` at the first other character. -/
def hexNat (s : List Char) : Option Nat :=
  s.foldlM (fun acc c => (hexVal c).map (16 * acc + ·)) 0

def stripPlus : List Char → List Char
  | '+' :: rest => rest
  | s => s

/-- `from_str_radix(s, 16)` of an unsigned type with `bound` values. -/
def fromStrRadix16 (bound : Nat) (s : List Char) : Option Nat :=
  if stripPlus s = [] then none
  else (hexNat (stripPlus s)).bind fun n => if n < bound then some n else none

theorem fromStrRadix16_lt {bound : Nat} {s : List Char} {n : Nat}
    (h : fromStrRadix16 bound s = some n) : n < bound := by
  unfold fromStrRadix16 at h
  split at h
  · cases h
  · obtain ⟨m, -, hm⟩ := Option.bind_eq_some_iff.mp h
    split at hm
    · cases hm; assumption
    · cases hm

/-- `s.strip_prefix("0x").unwrap_or(s)`. -/
def strip0x : List Char → List Char
  | '0' :: 'x' :: rest => rest
  | s => s

/-! ## Lossy UTF-8 -/

/-- U+FFFD REPLACEMENT CHARACTER. -/
def replacement : Char := Char.ofNat 0xFFFD

/-- A continuation byte. -/
def isCont (b : UInt8) : Bool := decide (0x80 ≤ b ∧ b ≤ 0xBF)

/-- The second byte a three-byte lead allows. -/
def second3 (b0 b1 : UInt8) : Bool :=
  if b0 = 0xE0 then decide (0xA0 ≤ b1 ∧ b1 ≤ 0xBF)
  else if b0 = 0xED then decide (0x80 ≤ b1 ∧ b1 ≤ 0x9F)
  else isCont b1

/-- The second byte a four-byte lead allows. -/
def second4 (b0 b1 : UInt8) : Bool :=
  if b0 = 0xF0 then decide (0x90 ≤ b1 ∧ b1 ≤ 0xBF)
  else if b0 = 0xF4 then decide (0x80 ≤ b1 ∧ b1 ≤ 0x8F)
  else isCont b1

def char2 (b0 b1 : UInt8) : Char := Char.ofNat ((b0.toNat - 0xC0) * 64 + (b1.toNat - 0x80))

def char3 (b0 b1 b2 : UInt8) : Char :=
  Char.ofNat ((b0.toNat - 0xE0) * 4096 + (b1.toNat - 0x80) * 64 + (b2.toNat - 0x80))

def char4 (b0 b1 b2 b3 : UInt8) : Char :=
  Char.ofNat ((b0.toNat - 0xF0) * 262144 + (b1.toNat - 0x80) * 4096 + (b2.toNat - 0x80) * 64 +
    (b3.toNat - 0x80))

/-- `String::from_utf8_lossy`. A sequence that breaks off is replaced as far
as it was well formed; the byte that broke it is read again. -/
def fromUtf8Lossy : Bytes → List Char
  | [] => []
  | b0 :: rest =>
    if b0 < 0x80 then Char.ofNat b0.toNat :: fromUtf8Lossy rest
    else if 0xC2 ≤ b0 ∧ b0 ≤ 0xDF then
      match rest with
      | [] => [replacement]
      | b1 :: r1 =>
        if isCont b1 then char2 b0 b1 :: fromUtf8Lossy r1
        else replacement :: fromUtf8Lossy (b1 :: r1)
    else if 0xE0 ≤ b0 ∧ b0 ≤ 0xEF then
      match rest with
      | [] => [replacement]
      | b1 :: r1 =>
        if second3 b0 b1 then
          match r1 with
          | [] => [replacement]
          | b2 :: r2 =>
            if isCont b2 then char3 b0 b1 b2 :: fromUtf8Lossy r2
            else replacement :: fromUtf8Lossy (b2 :: r2)
        else replacement :: fromUtf8Lossy (b1 :: r1)
    else if 0xF0 ≤ b0 ∧ b0 ≤ 0xF4 then
      match rest with
      | [] => [replacement]
      | b1 :: r1 =>
        if second4 b0 b1 then
          match r1 with
          | [] => [replacement]
          | b2 :: r2 =>
            if isCont b2 then
              match r2 with
              | [] => [replacement]
              | b3 :: r3 =>
                if isCont b3 then char4 b0 b1 b2 b3 :: fromUtf8Lossy r3
                else replacement :: fromUtf8Lossy (b3 :: r3)
            else replacement :: fromUtf8Lossy (b2 :: r2)
        else replacement :: fromUtf8Lossy (b1 :: r1)
    else replacement :: fromUtf8Lossy rest

theorem ofNat_ne_nul {n : Nat} (hv : n.isValidChar) (h0 : n ≠ 0) : Char.ofNat n ≠ Char.ofNat 0 := by
  intro h
  have e : (Char.ofNat n).toNat = n := by simp [Char.ofNat, hv, Char.toNat, Char.ofNatAux]
  rw [h] at e
  exact h0 e.symm

theorem replacement_ne_nul : replacement ≠ Char.ofNat 0 := by decide

theorem isCont_range {b : UInt8} (h : isCont b = true) : 0x80 ≤ b.toNat ∧ b.toNat ≤ 0xBF := by
  simpa [isCont, UInt8.le_iff_toNat_le] using h

theorem char2_ne_nul {b0 b1 : UInt8} (h0 : 0xC2 ≤ b0 ∧ b0 ≤ 0xDF) (h1 : isCont b1 = true) :
    char2 b0 b1 ≠ Char.ofNat 0 := by
  have h1 := isCont_range h1
  simp only [UInt8.le_iff_toNat_le, UInt8.reduceToNat] at h0
  exact ofNat_ne_nul (.inl (by omega)) (by omega)

theorem second3_range {b0 b1 : UInt8} (h : second3 b0 b1 = true) :
    0x80 ≤ b1.toNat ∧ b1.toNat ≤ 0xBF ∧ (b0.toNat = 0xE0 → 0xA0 ≤ b1.toNat) ∧
      (b0.toNat = 0xED → b1.toNat ≤ 0x9F) := by
  unfold second3 at h
  split at h
  · rename_i he
    simp [UInt8.le_iff_toNat_le] at h
    subst he
    simp; omega
  · rename_i he
    split at h
    · rename_i hd
      simp [UInt8.le_iff_toNat_le] at h
      subst hd
      simp; omega
    · rename_i hd
      rw [← UInt8.toNat_inj] at he hd
      have := isCont_range h
      simp at he hd
      omega

theorem char3_ne_nul {b0 b1 b2 : UInt8} (h0 : 0xE0 ≤ b0 ∧ b0 ≤ 0xEF) (h1 : second3 b0 b1 = true)
    (h2 : isCont b2 = true) : char3 b0 b1 b2 ≠ Char.ofNat 0 := by
  have h1 := second3_range h1
  have h2 := isCont_range h2
  simp only [UInt8.le_iff_toNat_le, UInt8.reduceToNat] at h0
  refine ofNat_ne_nul ?_ (by omega)
  by_cases h : b0.toNat ≤ 0xED
  · exact .inl (by omega)
  · exact .inr ⟨by omega, by omega⟩

theorem second4_range {b0 b1 : UInt8} (h : second4 b0 b1 = true) :
    0x80 ≤ b1.toNat ∧ b1.toNat ≤ 0xBF ∧ (b0.toNat = 0xF0 → 0x90 ≤ b1.toNat) ∧
      (b0.toNat = 0xF4 → b1.toNat ≤ 0x8F) := by
  unfold second4 at h
  split at h
  · rename_i he
    simp [UInt8.le_iff_toNat_le] at h
    subst he
    simp; omega
  · rename_i he
    split at h
    · rename_i hd
      simp [UInt8.le_iff_toNat_le] at h
      subst hd
      simp; omega
    · rename_i hd
      rw [← UInt8.toNat_inj] at he hd
      have := isCont_range h
      simp at he hd
      omega

theorem char4_ne_nul {b0 b1 b2 b3 : UInt8} (h0 : 0xF0 ≤ b0 ∧ b0 ≤ 0xF4)
    (h1 : second4 b0 b1 = true) (h2 : isCont b2 = true) (h3 : isCont b3 = true) :
    char4 b0 b1 b2 b3 ≠ Char.ofNat 0 := by
  have h1 := second4_range h1
  have h2 := isCont_range h2
  have h3 := isCont_range h3
  simp only [UInt8.le_iff_toNat_le, UInt8.reduceToNat] at h0
  exact ofNat_ne_nul (.inr ⟨by omega, by omega⟩) (by omega)

theorem ne_zero_of_lead {b : UInt8} (h : ¬ b < 0x80) : 0 ≠ b := by
  rintro rfl
  exact h (by decide)

theorem ne_zero_of_ge {b : UInt8} (h : 0x80 ≤ b.toNat) : 0 ≠ b := by
  rintro rfl
  exact absurd h (by decide)

/-- A zero byte is decoded as NUL and nothing else is. -/
theorem nul_mem_fromUtf8Lossy (bytes : Bytes) :
    Char.ofNat 0 ∈ fromUtf8Lossy bytes ↔ (0 : UInt8) ∈ bytes := by
  have hr := replacement_ne_nul.symm
  fun_induction fromUtf8Lossy bytes with
  | case1 => simp
  | case2 b0 rest h ih =>
    have key : Char.ofNat 0 = Char.ofNat b0.toNat ↔ 0 = b0 := by
      constructor
      · intro e
        by_contra hne
        refine ofNat_ne_nul (.inl ?_) (fun h0 => hne ?_) e.symm
        · have := b0.toNat_lt
          omega
        · exact UInt8.toNat_inj.mp h0.symm
      · rintro rfl
        rfl
    simp only [List.mem_cons, key, ih]
  | case3 b0 h => simp [hr, ne_zero_of_lead h]
  | case4 b0 h h0 b1 r1 h1 ih =>
    simp [(char2_ne_nul h0 h1).symm, ne_zero_of_lead h, ne_zero_of_ge (isCont_range h1).1, ih]
  | case5 b0 h h0 b1 r1 h1 ih => simp [hr, ne_zero_of_lead h, ih]
  | case6 b0 h => simp [hr, ne_zero_of_lead h]
  | case7 b0 h _ h0 b1 h1 =>
    simp [hr, ne_zero_of_lead h, ne_zero_of_ge (second3_range h1).1]
  | case8 b0 h _ h0 b1 h1 b2 r2 h2 ih =>
    simp [(char3_ne_nul h0 h1 h2).symm, ne_zero_of_lead h, ne_zero_of_ge (second3_range h1).1,
      ne_zero_of_ge (isCont_range h2).1, ih]
  | case9 b0 h _ h0 b1 h1 b2 r2 h2 ih =>
    simp [hr, ne_zero_of_lead h, ne_zero_of_ge (second3_range h1).1, ih]
  | case10 b0 h _ h0 b1 r1 h1 ih => simp [hr, ne_zero_of_lead h, ih]
  | case11 b0 h => simp [hr, ne_zero_of_lead h]
  | case12 b0 h _ _ h0 b1 h1 =>
    simp [hr, ne_zero_of_lead h, ne_zero_of_ge (second4_range h1).1]
  | case13 b0 h _ _ h0 b1 h1 b2 h2 =>
    simp [hr, ne_zero_of_lead h, ne_zero_of_ge (second4_range h1).1,
      ne_zero_of_ge (isCont_range h2).1]
  | case14 b0 h _ _ h0 b1 h1 b2 h2 b3 r3 h3 ih =>
    simp [(char4_ne_nul h0 h1 h2 h3).symm, ne_zero_of_lead h,
      ne_zero_of_ge (second4_range h1).1, ne_zero_of_ge (isCont_range h2).1,
      ne_zero_of_ge (isCont_range h3).1, ih]
  | case15 b0 h _ _ h0 b1 h1 b2 h2 b3 r3 h3 ih =>
    simp [hr, ne_zero_of_lead h, ne_zero_of_ge (second4_range h1).1,
      ne_zero_of_ge (isCont_range h2).1, ih]
  | case16 b0 h _ _ h0 b1 h1 b2 r2 h2 ih =>
    simp [hr, ne_zero_of_lead h, ne_zero_of_ge (second4_range h1).1, ih]
  | case17 b0 h _ _ h0 b1 r1 h1 ih => simp [hr, ne_zero_of_lead h, ih]
  | case18 b0 rest h _ _ _ ih => simp [hr, ne_zero_of_lead h, ih]

/-! ## Strings as UTF-8 -/

/-- The UTF-8 bytes of a string. -/
def utf8 (s : String) : Bytes := s.toList.flatMap String.utf8EncodeChar

/-- A marker with `n % m` below it does not overflow the byte. -/
theorem toNat_marked (n : Nat) {m k : Nat} (hm : 0 < m) (h : m + k ≤ 256) :
    (UInt8.ofNat (n % m + k)).toNat = n % m + k := by
  have := Nat.mod_lt n hm
  rw [UInt8.toNat_ofNat', Nat.mod_eq_of_lt (by omega)]

theorem toNat_tail (n : Nat) : (UInt8.ofNat (n % 0x40 + 0x80)).toNat = n % 0x40 + 0x80 :=
  toNat_marked n (by decide) (by decide)

theorem isCont_tail (n : Nat) : isCont (UInt8.ofNat (n % 0x40 + 0x80)) = true := by
  simp only [isCont, decide_eq_true_eq, UInt8.le_iff_toNat_le, toNat_tail, UInt8.reduceToNat]
  omega

/-- The second byte of a three-byte code that is no surrogate. -/
theorem second3_encoded {v : Nat} (h : 0x7ff < v) (h' : v ≤ 0xffff) (hs : v < 0xD800 ∨ 0xDFFF < v) :
    second3 (UInt8.ofNat (v / 4096 % 0x10 + 0xe0)) (UInt8.ofNat (v / 64 % 0x40 + 0x80)) = true := by
  have e := toNat_marked (v / 4096) (show 0 < 0x10 by decide) (show 0x10 + 0xe0 ≤ 256 by decide)
  simp only [second3, isCont, ← UInt8.toNat_inj, UInt8.le_iff_toNat_le, e, toNat_tail,
    UInt8.reduceToNat]
  split
  · rw [decide_eq_true_eq]; omega
  · split
    · rw [decide_eq_true_eq]; omega
    · rw [decide_eq_true_eq]; omega

theorem second4_encoded {v : Nat} (h : 0xffff < v) (h' : v < 0x110000) :
    second4 (UInt8.ofNat (v / 262144 % 0x08 + 0xf0)) (UInt8.ofNat (v / 4096 % 0x40 + 0x80)) =
      true := by
  have e := toNat_marked (v / 262144) (show 0 < 0x08 by decide) (show 0x08 + 0xf0 ≤ 256 by decide)
  simp only [second4, isCont, ← UInt8.toNat_inj, UInt8.le_iff_toNat_le, e, toNat_tail,
    UInt8.reduceToNat]
  split
  · rw [decide_eq_true_eq]; omega
  · split
    · rw [decide_eq_true_eq]; omega
    · rw [decide_eq_true_eq]; omega

/-- Decoding reads back the character that was encoded. -/
theorem fromUtf8Lossy_encodeChar (c : Char) (rest : Bytes) :
    fromUtf8Lossy (String.utf8EncodeChar c ++ rest) = c :: fromUtf8Lossy rest := by
  have hc : Char.ofNat c.val.toNat = c := Char.ofNat_toNat c
  have hvalid : c.val.toNat < 0xD800 ∨ 0xDFFF < c.val.toNat ∧ c.val.toNat < 0x110000 := c.valid
  unfold String.utf8EncodeChar
  simp only
  generalize c.val.toNat = v at hc hvalid
  by_cases h1 : v ≤ 0x7f
  · have e : (UInt8.ofNat v).toNat = v := by rw [UInt8.toNat_ofNat', Nat.mod_eq_of_lt (by omega)]
    rw [if_pos h1, List.singleton_append, fromUtf8Lossy.eq_def]
    simp only [UInt8.lt_iff_toNat_lt, e, UInt8.reduceToNat]
    rw [if_pos (by omega), hc]
  rw [if_neg h1]
  by_cases h2 : v ≤ 0x7ff
  · have e := toNat_marked (v / 64) (show 0 < 0x20 by decide) (show 0x20 + 0xc0 ≤ 256 by decide)
    have hv : (v / 64 % 0x20 + 0xc0 - 0xC0) * 64 + (v % 0x40 + 0x80 - 0x80) = v := by omega
    rw [if_pos h2, List.cons_append, List.singleton_append, fromUtf8Lossy.eq_def]
    simp only [UInt8.lt_iff_toNat_lt, UInt8.le_iff_toNat_le, e, UInt8.reduceToNat, isCont_tail,
      char2, toNat_tail, hv, hc]
    rw [if_neg (by omega), if_pos (by omega), if_pos trivial]
  rw [if_neg h2]
  by_cases h3 : v ≤ 0xffff
  · have e := toNat_marked (v / 4096) (show 0 < 0x10 by decide) (show 0x10 + 0xe0 ≤ 256 by decide)
    have hv : (v / 4096 % 0x10 + 0xe0 - 0xE0) * 4096 + (v / 64 % 0x40 + 0x80 - 0x80) * 64 +
        (v % 0x40 + 0x80 - 0x80) = v := by omega
    have hs := second3_encoded (v := v) (by omega) h3 (by omega)
    rw [if_pos h3, List.cons_append, List.cons_append, List.singleton_append, fromUtf8Lossy.eq_def]
    simp only [UInt8.lt_iff_toNat_lt, UInt8.le_iff_toNat_le, e, UInt8.reduceToNat, isCont_tail, hs,
      char3, toNat_tail, hv, hc]
    rw [if_neg (by omega), if_neg (by omega), if_pos (by omega), if_pos trivial, if_pos trivial]
  · have e := toNat_marked (v / 262144) (show 0 < 0x08 by decide) (show 0x08 + 0xf0 ≤ 256 by decide)
    have hv : (v / 262144 % 0x08 + 0xf0 - 0xF0) * 262144 + (v / 4096 % 0x40 + 0x80 - 0x80) * 4096 +
        (v / 64 % 0x40 + 0x80 - 0x80) * 64 + (v % 0x40 + 0x80 - 0x80) = v := by omega
    have hs := second4_encoded (v := v) (by omega) (by omega)
    rw [if_neg h3, List.cons_append, List.cons_append, List.cons_append, List.singleton_append,
      fromUtf8Lossy.eq_def]
    simp only [UInt8.lt_iff_toNat_lt, UInt8.le_iff_toNat_le, e, UInt8.reduceToNat, isCont_tail, hs,
      char4, toNat_tail, hv, hc]
    rw [if_neg (by omega), if_neg (by omega), if_neg (by omega), if_pos (by omega), if_pos trivial,
      if_pos trivial, if_pos trivial]

/-- Lossy decoding loses nothing of a string's own bytes. -/
theorem fromUtf8Lossy_utf8 (s : String) : fromUtf8Lossy (utf8 s) = s.toList := by
  unfold utf8
  induction s.toList with
  | nil => rfl
  | cons c cs ih => rw [List.flatMap_cons, fromUtf8Lossy_encodeChar, ih]

end Amarillo.Core
