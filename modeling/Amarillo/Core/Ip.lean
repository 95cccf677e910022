import Mathlib

/-!
# IP addresses

IPv4 and IPv6 addresses as 32-bit and 128-bit numbers, the classification of
`std::net` (by octets and bit masks), the CIDR blocks it stands for, and the
parser behind `IpAddr::from_str`.

A block is a prefix of the number's bits, so membership is a division, and each
predicate of `std::net` is membership in a block (`isLoopback_iff` and so on).
-/
namespace Amarillo.Core

structure Ipv4Addr where
  bits : Nat
  lt : bits < 2 ^ 32
  deriving DecidableEq, Repr

structure Ipv6Addr where
  bits : Nat
  lt : bits < 2 ^ 128
  deriving DecidableEq, Repr

inductive IpAddr where
  | v4 (a : Ipv4Addr)
  | v6 (a : Ipv6Addr)
  deriving DecidableEq, Repr

/-- The addresses of `width` bits that share the first `len` bits of `base`. -/
structure Cidr (width : Nat) where
  base : Nat
  len : Nat
  deriving DecidableEq, Repr

def Cidr.contains {width : Nat} (c : Cidr width) (bits : Nat) : Prop :=
  bits / 2 ^ (width - c.len) = c.base / 2 ^ (width - c.len)

instance {width : Nat} (c : Cidr width) (bits : Nat) : Decidable (c.contains bits) :=
  inferInstanceAs (Decidable (_ = _))

/-! ## `std::net::Ipv4Addr` -/

namespace Ipv4Addr

/-- The low 32 bits of a number. -/
def ofBits (n : Nat) : Ipv4Addr := ⟨n % 2 ^ 32, Nat.mod_lt _ (by decide)⟩

def ofOctets (a b c d : Nat) : Ipv4Addr := ofBits (((a * 256 + b) * 256 + c) * 256 + d)

def cidr (a b c d len : Nat) : Cidr 32 := ⟨(ofOctets a b c d).bits, len⟩

/-- Octet `i`, from the left. -/
def octet (x : Ipv4Addr) (i : Nat) : Nat := x.bits / 2 ^ (8 * (3 - i)) % 256

def isLoopback (x : Ipv4Addr) : Bool := x.octet 0 = 127

def isUnspecified (x : Ipv4Addr) : Bool := x.bits = 0

def isMulticast (x : Ipv4Addr) : Bool := 224 ≤ x.octet 0 && x.octet 0 ≤ 239

def isPrivate (x : Ipv4Addr) : Bool :=
  x.octet 0 = 10 || (x.octet 0 = 172 && 16 ≤ x.octet 1 && x.octet 1 ≤ 31) ||
    (x.octet 0 = 192 && x.octet 1 = 168)

def isLinkLocal (x : Ipv4Addr) : Bool := x.octet 0 = 169 && x.octet 1 = 254

def isBroadcast (x : Ipv4Addr) : Bool :=
  x.octet 0 = 255 && x.octet 1 = 255 && x.octet 2 = 255 && x.octet 3 = 255

section Blocks
variable (x : Ipv4Addr)

theorem isLoopback_iff : x.isLoopback = true ↔ (cidr 127 0 0 0 8).contains x.bits := by
  have := x.lt
  simp only [isLoopback, decide_eq_true_eq]
  simp only [octet, Cidr.contains, cidr, ofOctets, ofBits]
  omega

theorem isUnspecified_iff : x.isUnspecified = true ↔ (cidr 0 0 0 0 32).contains x.bits := by
  simp only [isUnspecified, decide_eq_true_eq, Cidr.contains, cidr, ofOctets, ofBits]
  omega

theorem isMulticast_iff : x.isMulticast = true ↔ (cidr 224 0 0 0 4).contains x.bits := by
  have := x.lt
  simp only [isMulticast, Bool.and_eq_true, decide_eq_true_eq]
  simp only [octet, Cidr.contains, cidr, ofOctets, ofBits]
  omega

theorem isPrivate_iff : x.isPrivate = true ↔ (cidr 10 0 0 0 8).contains x.bits ∨
    (cidr 172 16 0 0 12).contains x.bits ∨ (cidr 192 168 0 0 16).contains x.bits := by
  have := x.lt
  simp only [isPrivate, Bool.or_eq_true, Bool.and_eq_true, decide_eq_true_eq]
  simp only [octet, Cidr.contains, cidr, ofOctets, ofBits]
  omega

theorem isLinkLocal_iff : x.isLinkLocal = true ↔ (cidr 169 254 0 0 16).contains x.bits := by
  have := x.lt
  simp only [isLinkLocal, Bool.and_eq_true, decide_eq_true_eq]
  simp only [octet, Cidr.contains, cidr, ofOctets, ofBits]
  omega

theorem isBroadcast_iff : x.isBroadcast = true ↔ (cidr 255 255 255 255 32).contains x.bits := by
  have := x.lt
  simp only [isBroadcast, Bool.and_eq_true, decide_eq_true_eq]
  simp only [octet, Cidr.contains, cidr, ofOctets, ofBits]
  omega

end Blocks
end Ipv4Addr

/-! ## `std::net::Ipv6Addr` -/

namespace Ipv6Addr

def ofBits (n : Nat) : Ipv6Addr := ⟨n % 2 ^ 128, Nat.mod_lt _ (by decide)⟩

def ofSegments (segments : List Nat) : Ipv6Addr := ofBits (segments.foldl (fun n g => n * 65536 + g) 0)

/-- Segment `i`, from the left. -/
def segment (x : Ipv6Addr) (i : Nat) : Nat := x.bits / 2 ^ (16 * (7 - i)) % 65536

def isLoopback (x : Ipv6Addr) : Bool := x.bits = 1

def isUnspecified (x : Ipv6Addr) : Bool := x.bits = 0

def isMulticast (x : Ipv6Addr) : Bool := x.segment 0 &&& 0xff00 = 0xff00

/-- `::ffff:a.b.c.d` -/
def toIpv4Mapped (x : Ipv6Addr) : Option Ipv4Addr :=
  if x.bits / 2 ^ 32 = 0xffff then some (.ofBits x.bits) else none

/-- A mask of the bits above `k`, in a number of `k + n` bits. -/
theorem and_high {x k n : Nat} (hx : x < 2 ^ (k + n)) : x &&& ((2 ^ n - 1) <<< k) = x / 2 ^ k * 2 ^ k := by
  have hlt : x / 2 ^ k < 2 ^ n := Nat.div_lt_of_lt_mul (by rwa [← Nat.pow_add])
  have hshift : x &&& ((2 ^ n - 1) <<< k) = (x >>> k &&& 2 ^ n - 1) <<< k := by
    refine Nat.eq_of_testBit_eq fun i => ?_
    simp only [Nat.testBit_and, Nat.testBit_shiftLeft, Nat.testBit_shiftRight]
    by_cases hi : k ≤ i
    · simp [hi, Nat.add_sub_cancel' hi]
    · simp [hi]
  rw [hshift, Nat.and_two_pow_sub_one_eq_mod, Nat.shiftRight_eq_div_pow, Nat.shiftLeft_eq,
    Nat.mod_eq_of_lt hlt]

theorem segment_lt (x : Ipv6Addr) (i : Nat) : x.segment i < 2 ^ 16 := Nat.mod_lt _ (by decide)

/-- A masked first segment is a prefix of the address. -/
theorem segment_and {x : Ipv6Addr} {k n v : Nat} (hk : k + n = 16) :
    x.segment 0 &&& ((2 ^ n - 1) <<< k) = v / 2 ^ k * 2 ^ k ↔
      (⟨v * 2 ^ 112, n⟩ : Cidr 128).contains x.bits := by
  have hpow : 2 ^ (128 - n) = 2 ^ 112 * 2 ^ k := by rw [← Nat.pow_add]; congr 1; omega
  have hseg : x.segment 0 = x.bits / 2 ^ 112 := by
    have := x.lt
    unfold segment
    omega
  rw [and_high (by rw [hk]; exact x.segment_lt 0), Cidr.contains, hpow, ← Nat.div_div_eq_div_mul,
    ← Nat.div_div_eq_div_mul, hseg, Nat.mul_div_cancel _ (by decide)]
  exact Nat.mul_left_inj (by positivity)

section Blocks
variable (x : Ipv6Addr)

theorem isLoopback_iff : x.isLoopback = true ↔ (⟨1, 128⟩ : Cidr 128).contains x.bits := by
  simp [isLoopback, Cidr.contains]

theorem isUnspecified_iff : x.isUnspecified = true ↔ (⟨0, 128⟩ : Cidr 128).contains x.bits := by
  simp [isUnspecified, Cidr.contains]

theorem isMulticast_iff : x.isMulticast = true ↔ (⟨0xff00 * 2 ^ 112, 8⟩ : Cidr 128).contains x.bits := by
  rw [isMulticast, decide_eq_true_eq]
  exact @segment_and x 8 8 0xff00 rfl

end Blocks
end Ipv6Addr

/-! ## `IpAddr::from_str` -/

def charDigit (radix : Nat) (c : Char) : Option Nat :=
  let v :=
    if '0' ≤ c ∧ c ≤ '9' then c.toNat - '0'.toNat
    else if 'a' ≤ c ∧ c ≤ 'z' then c.toNat - 'a'.toNat + 10
    else if 'A' ≤ c ∧ c ≤ 'Z' then c.toNat - 'A'.toNat + 10
    else 36
  if v < radix then some v else none

/-- A number below `bound` of at most `maxDigits` digits, and what follows it. -/
def readNumber (radix maxDigits bound : Nat) (allowZeroPrefix : Bool) (s : List Char) :
    Option (Nat × List Char) :=
  let digits := s.takeWhile fun c => (charDigit radix c).isSome
  let value := digits.foldl (fun n c => n * radix + (charDigit radix c).getD 0) 0
  if digits = [] ∨ maxDigits < digits.length then none
  else if ¬allowZeroPrefix ∧ s.head? = some '0' ∧ 1 < digits.length then none
  else if value < bound then some (value, s.drop digits.length)
  else none

def readGivenChar (c : Char) : List Char → Option (List Char)
  | [] => none
  | x :: s => if x = c then some s else none

/-- A group is preceded by a separator, except the first. -/
def readSeparator {α : Type} (sep : Char) (index : Nat) (inner : List Char → Option α)
    (s : List Char) : Option α :=
  if 0 < index then (readGivenChar sep s).bind inner else inner s

def readIpv4Addr (s : List Char) : Option (Ipv4Addr × List Char) := do
  let octet := readNumber 10 3 256 false
  let (a, s) ← readSeparator '.' 0 octet s
  let (b, s) ← readSeparator '.' 1 octet s
  let (c, s) ← readSeparator '.' 2 octet s
  let (d, s) ← readSeparator '.' 3 octet s
  return (.ofOctets a b c d, s)

/-- Groups `i` to `i + n - 1`, at most. The flag says that an IPv4 address at the
end was read as two groups. -/
def readGroups : (n i : Nat) → List Char → List Nat × Bool × List Char
  | 0, _, s => ([], false, s)
  | n + 1, i, s =>
    match if n = 0 then none else readSeparator ':' i readIpv4Addr s with
    | some (v4, s) =>
      ([v4.octet 0 * 256 + v4.octet 1, v4.octet 2 * 256 + v4.octet 3], true, s)
    | none =>
      match readSeparator ':' i (readNumber 16 4 65536 true) s with
      | some (g, s) =>
        let (gs, v4, s) := readGroups n (i + 1) s
        (g :: gs, v4, s)
      | none => ([], false, s)

def readIpv6Addr (s : List Char) : Option (Ipv6Addr × List Char) :=
  let (head, headV4, s) := readGroups 8 0 s
  if head.length = 8 then some (.ofSegments head, s)
  else if headV4 then none
  else do
    let s ← readGivenChar ':' s
    let s ← readGivenChar ':' s
    let (tail, _, s) := readGroups (8 - (head.length + 1)) 0 s
    return (.ofSegments (head ++ List.replicate (8 - head.length - tail.length) 0 ++ tail), s)

def readIpAddr (s : List Char) : Option (IpAddr × List Char) :=
  match readIpv4Addr s with
  | some (a, s) => some (.v4 a, s)
  | none => (readIpv6Addr s).map fun p => (.v6 p.1, p.2)

def IpAddr.fromStr (s : List Char) : Option IpAddr :=
  match readIpAddr s with
  | some (ip, []) => some ip
  | _ => none

/-! ## What an address is written in -/

def AddressChar (c : Char) : Prop := (charDigit 16 c).isSome = true ∨ c = '.' ∨ c = ':'

/-- A reader has gone from `s` to `rest` over characters of an address. -/
def Consumed (s rest : List Char) : Prop := ∃ used, s = used ++ rest ∧ ∀ c ∈ used, AddressChar c

section Readers
variable {s t rest : List Char}

theorem Consumed.refl (s : List Char) : Consumed s s := ⟨[], rfl, List.forall_mem_nil _⟩

theorem Consumed.trans (h : Consumed s t) (h' : Consumed t rest) : Consumed s rest := by
  obtain ⟨a, rfl, ha⟩ := h
  obtain ⟨b, rfl, hb⟩ := h'
  refine ⟨a ++ b, by simp, fun c hc => ?_⟩
  rcases List.mem_append.mp hc with hc | hc
  · exact ha c hc
  · exact hb c hc

theorem charDigit_mono {radix radix' : Nat} (hr : radix ≤ radix') {c : Char}
    (h : (charDigit radix c).isSome = true) : (charDigit radix' c).isSome = true := by
  simp only [charDigit, Option.isSome_ite] at h ⊢
  exact lt_of_lt_of_le h hr

theorem readNumber_consumed {radix maxDigits bound value : Nat} {zero : Bool}
    (hradix : radix ≤ 16)
    (h : readNumber radix maxDigits bound zero s = some (value, rest)) : Consumed s rest := by
  unfold readNumber at h
  simp only at h
  split at h
  · cases h
  · split at h
    · cases h
    · split at h
      · cases h
        refine ⟨_, (List.prefix_iff_eq_append.mp (List.takeWhile_prefix _)).symm, fun c hc => ?_⟩
        have hdigit := List.mem_takeWhile_imp (p := fun c => (charDigit radix c).isSome) hc
        exact .inl (charDigit_mono hradix hdigit)
      · cases h

theorem readGivenChar_consumed {c : Char} (hc : AddressChar c)
    (h : readGivenChar c s = some rest) : Consumed s rest := by
  cases s with
  | nil => cases h
  | cons x s =>
    simp only [readGivenChar] at h
    split at h
    · rename_i hx
      cases h
      exact ⟨[x], rfl, by simpa [hx] using hc⟩
    · cases h

theorem readSeparator_consumed {α : Type} {sep : Char} {index : Nat} (hsep : AddressChar sep)
    {inner : List Char → Option (α × List Char)} {a : α}
    (hinner : ∀ {t rest a}, inner t = some (a, rest) → Consumed t rest)
    (h : readSeparator sep index inner s = some (a, rest)) : Consumed s rest := by
  unfold readSeparator at h
  split at h
  · obtain ⟨t, ht, h⟩ := Option.bind_eq_some_iff.mp h
    exact (readGivenChar_consumed hsep ht).trans (hinner h)
  · exact hinner h

theorem readIpv4Addr_consumed {a : Ipv4Addr} (h : readIpv4Addr s = some (a, rest)) :
    Consumed s rest := by
  have hoctet (i : Nat) {s rest : List Char} {n : Nat}
      (h : readSeparator '.' i (readNumber 10 3 256 false) s = some (n, rest)) : Consumed s rest :=
    readSeparator_consumed (.inr (.inl rfl))
      (fun h => readNumber_consumed (by decide) h) h
  simp only [readIpv4Addr, Option.bind_eq_bind, Option.bind_eq_some_iff, Prod.exists,
    Option.pure_def, Option.some.injEq, Prod.mk.injEq] at h
  obtain ⟨_, _, h₀, _, _, h₁, _, _, h₂, _, _, h₃, -, rfl⟩ := h
  exact (((hoctet 0 h₀).trans (hoctet 1 h₁)).trans (hoctet 2 h₂)).trans (hoctet 3 h₃)

theorem readGroups_consumed (n i : Nat) (s : List Char) : Consumed s (readGroups n i s).2.2 := by
  induction n generalizing i s with
  | zero => exact .refl s
  | succ n ih =>
    unfold readGroups
    split
    · rename_i v4 rest hv4
      split at hv4
      · cases hv4
      · exact readSeparator_consumed (.inr (.inr rfl)) readIpv4Addr_consumed hv4
    · split
      · rename_i g rest hg
        refine (readSeparator_consumed (.inr (.inr rfl))
          (fun h => readNumber_consumed le_rfl h) hg).trans ?_
        exact ih (i + 1) rest
      · exact .refl s

theorem readIpv6Addr_consumed {a : Ipv6Addr} (h : readIpv6Addr s = some (a, rest)) :
    Consumed s rest := by
  have hhead := readGroups_consumed 8 0 s
  unfold readIpv6Addr at h
  simp only at h
  split at h
  · cases h
    exact hhead
  · split at h
    · cases h
    · simp only [Option.bind_eq_bind, Option.bind_eq_some_iff, Option.pure_def,
        Option.some.injEq, Prod.mk.injEq] at h
      obtain ⟨t, ht, u, hu, -, rfl⟩ := h
      have hcolon : AddressChar ':' := .inr (.inr rfl)
      exact ((hhead.trans (readGivenChar_consumed hcolon ht)).trans
        (readGivenChar_consumed hcolon hu)).trans (readGroups_consumed _ 0 u)

/-- The text of an address has no other characters. -/
theorem IpAddr.fromStr_chars {ip : IpAddr} (h : IpAddr.fromStr s = some ip) :
    ∀ c ∈ s, AddressChar c := by
  have hread : Consumed s [] := by
    unfold IpAddr.fromStr readIpAddr at h
    cases hv4 : readIpv4Addr s with
    | some r =>
      obtain ⟨a, rest⟩ := r
      rw [hv4] at h
      cases rest with
      | nil => exact readIpv4Addr_consumed hv4
      | cons c rest => cases h
    | none =>
      rw [hv4] at h
      cases hv6 : readIpv6Addr s with
      | some r =>
        obtain ⟨a, rest⟩ := r
        rw [hv6] at h
        cases rest with
        | nil => exact readIpv6Addr_consumed hv6
        | cons c rest => cases h
      | none =>
        rw [hv6] at h
        cases h
  obtain ⟨used, rfl, hused⟩ := hread
  simpa using hused

end Readers
end Amarillo.Core
