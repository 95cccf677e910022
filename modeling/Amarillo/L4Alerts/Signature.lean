import Amarillo.Core.Text
import Mathlib

/-!
# Webhook signatures (`sign_payload`, `verifyAlertSignature`, `verify_alert_signature`)

The dispatcher signs the body with HMAC-SHA256 and sends `sha256=` and the
digits of the code; the shipped TypeScript and Python clients check the header.
HMAC-SHA256 is a parameter, any function to 32 bytes. Each verifier keeps the
hex decoder of its language: `Buffer.from(_, "hex")` stops at the first pair
that is not one and drops a single last digit, `bytes.fromhex` refuses it.

`Signed` is what a header should be: the prefix and 64 digits of the code.

Results, for a secret of 64 hex digits:
* `verifyAlertSignaturePy_iff`: the Python client accepts these headers.
* `verifyAlertSignatureTs_iff`: the TypeScript client also accepts a 65th
  digit.
* `verifiers_agree_iff`: that is the only difference.
-/
namespace Amarillo.L4
open Amarillo.Core

/-! ## Hex digits -/

def isHexDigit (c : Char) : Bool := (hexVal c).isSome

/-- Decoding takes pairs of digits and nothing else. -/
theorem hexDecode_digits {s : List Char} {bytes : Bytes} (h : hexDecode s = some bytes) :
    s.length = 2 * bytes.length ∧ ∀ c ∈ s, isHexDigit c = true := by
  fun_induction hexDecode s generalizing bytes with
  | case1 =>
    cases h
    exact ⟨rfl, List.forall_mem_nil _⟩
  | case2 c => cases h
  | case3 a b rest y x hy hx ih =>
    obtain ⟨bytes', hrest, rfl⟩ := Option.map_eq_some_iff.mp h
    obtain ⟨hlen, hall⟩ := ih hrest
    have ha : isHexDigit a = true := by rw [isHexDigit, hx]; rfl
    have hb : isHexDigit b = true := by rw [isHexDigit, hy]; rfl
    refine ⟨?_, List.forall_mem_cons.mpr ⟨ha, List.forall_mem_cons.mpr ⟨hb, hall⟩⟩⟩
    simp only [List.length_cons, hlen]
    omega
  | case4 => cases h

theorem hexDecode_of_digits {s : List Char} (h : ∀ c ∈ s, isHexDigit c = true)
    (heven : s.length % 2 = 0) : ∃ bytes, hexDecode s = some bytes := by
  fun_induction hexDecode s with
  | case1 => exact ⟨[], rfl⟩
  | case2 c => simp at heven
  | case3 a b rest x y hx hy ih =>
    obtain ⟨-, hrest⟩ := List.forall_mem_cons.mp h
    simp only [List.length_cons] at heven
    obtain ⟨bytes, hbytes⟩ := ih (List.forall_mem_cons.mp hrest).2 (by omega)
    exact ⟨_, by rw [hbytes]; rfl⟩
  | case4 a b rest hbad =>
    obtain ⟨ha, hrest⟩ := List.forall_mem_cons.mp h
    obtain ⟨x, hx⟩ := Option.isSome_iff_exists.mp ha
    obtain ⟨y, hy⟩ := Option.isSome_iff_exists.mp (List.forall_mem_cons.mp hrest).1
    exact absurd hy (hbad x y hx)

/-! ## The sender -/

/-- The output of HMAC-SHA256. -/
abbrev Digest := { bytes : Bytes // bytes.length = 32 }

variable (hmac : Bytes → Bytes → Digest)

/-- mirrors crates/indexer/src/alerts.rs:98-102 -/
def signPayload (secret body : Bytes) : String := bytesToHex (hmac secret body).1

/-- The header that `post_signed` sends.
mirrors crates/indexer/src/alerts.rs:215 -/
def signatureHeader (signatureHex : String) : String := "sha256=" ++ signatureHex

/-- The header for a stored secret, `none` if it is not hex.
mirrors crates/indexer/src/alerts.rs:274-297 -/
def sentHeader (signingSecret : String) (body : Bytes) : Option String :=
  (hexDecode signingSecret.toList).map fun key => signatureHeader (signPayload hmac key body)

/-! ## The receivers -/

/-- `/[0-9a-fA-F]/` -/
def hexClass (c : Char) : Bool :=
  decide ('0' ≤ c ∧ c ≤ '9') || decide ('a' ≤ c ∧ c ≤ 'f') || decide ('A' ≤ c ∧ c ≤ 'F')

/-- `Buffer.from(s, "hex")` -/
def bufferFromHex : List Char → Bytes
  | a :: b :: rest =>
    match hexVal a, hexVal b with
    | some x, some y => UInt8.ofNat (16 * x + y) :: bufferFromHex rest
    | _, _ => []
  | _ => []

/-- mirrors examples/typescript-client/client.ts:462-491 -/
def verifyAlertSignatureTs (rawBody : Bytes) (signatureHeader : Option String)
    (signingSecret : String) : Bool :=
  match signatureHeader with
  | none => false
  | some header =>
    if header = "" then false
    else if !("sha256=".toList.isPrefixOf header.toList) then false
    else
      let sigHex := header.toList.drop "sha256=".toList.length
      if !(sigHex ≠ [] && sigHex.all hexClass) then false
      else if !(signingSecret.toList.length = 64 && signingSecret.toList.all hexClass) then false
      else
        let key := bufferFromHex signingSecret.toList
        let expected := (hmac key rawBody).1
        let actual := bufferFromHex sigHex
        if actual.length ≠ expected.length then false
        else actual = expected

/-- `set("0123456789abcdefABCDEF")` -/
def hexChars : List Char :=
  ['0', '1', '2', '3', '4', '5', '6', '7', '8', '9', 'a', 'b', 'c', 'd', 'e', 'f',
    'A', 'B', 'C', 'D', 'E', 'F']

def isPySpace (c : Char) : Bool := c ∈ [' ', '\t', '\n', Char.ofNat 11, Char.ofNat 12, '\r']

/-- `bytes.fromhex`; `none` is a `ValueError`. Blanks between bytes are
skipped. -/
def bytesFromHex : List Char → Option Bytes
  | [] => some []
  | [a] => if isPySpace a then some [] else none
  | a :: b :: rest =>
    if isPySpace a then bytesFromHex (b :: rest)
    else
      match hexVal a, hexVal b with
      | some x, some y => (bytesFromHex rest).map (UInt8.ofNat (16 * x + y) :: ·)
      | _, _ => none

/-- mirrors examples/python-client/client.py:511-542 -/
def verifyAlertSignaturePy (rawBody : Bytes) (signatureHeader : Option String)
    (signingSecret : String) : Bool :=
  match signatureHeader with
  | none => false
  | some header =>
    if header = "" || !("sha256=".toList.isPrefixOf header.toList) then false
    else
      let sigHex := header.toList.drop "sha256=".toList.length
      if sigHex = [] || !(sigHex.all (· ∈ hexChars)) then false
      else if signingSecret.toList.length ≠ 64 || !(signingSecret.toList.all (· ∈ hexChars)) then
        false
      else
        match bytesFromHex signingSecret.toList, bytesFromHex sigHex with
        | some key, some actual =>
          let expected := (hmac key rawBody).1
          if actual.length ≠ expected.length then false
          else actual = expected
        | _, _ => false

/-! ## The decoders -/

theorem hexClass_eq (c : Char) : hexClass c = isHexDigit c := by
  unfold hexClass isHexDigit hexVal
  split
  · rename_i h
    simp [h]
  · rename_i h0
    split
    · rename_i h
      simp [h]
    · rename_i ha
      split
      · rename_i h
        simp [h]
      · rename_i hA
        simp [h0, ha, hA]

theorem toNat_of_isHexDigit {c : Char} (h : isHexDigit c = true) : c.toNat < 128 := by
  have hle : ∀ d : Char, d.toNat < 128 → c ≤ d → c.toNat < 128 := by
    intro d hd hcd
    rw [Char.le_def, UInt32.le_iff_toNat_le] at hcd
    exact Nat.lt_of_le_of_lt hcd hd
  rw [← hexClass_eq, hexClass, Bool.or_eq_true, Bool.or_eq_true, decide_eq_true_eq,
    decide_eq_true_eq, decide_eq_true_eq] at h
  rcases h with (⟨-, h⟩ | ⟨-, h⟩) | ⟨-, h⟩
  · exact hle '9' (by decide) h
  · exact hle 'f' (by decide) h
  · exact hle 'F' (by decide) h

theorem mem_hexChars (c : Char) : c ∈ hexChars ↔ isHexDigit c = true := by
  constructor
  · have key : hexChars.all isHexDigit = true := by decide
    exact List.all_eq_true.mp key c
  · intro h
    have key : ∀ n < 128, isHexDigit (Char.ofNat n) = true → Char.ofNat n ∈ hexChars := by
      decide +kernel
    have := key c.toNat (toNat_of_isHexDigit h)
    rw [Char.ofNat_toNat] at this
    exact this h

theorem isPySpace_of_isHexDigit {c : Char} (h : isHexDigit c = true) : isPySpace c = false := by
  have key : hexChars.all (fun c => !isPySpace c) = true := by decide
  have := List.all_eq_true.mp key c ((mem_hexChars c).mpr h)
  simpa using this

/-- On digits `bytes.fromhex` takes pairs, and nothing else. -/
theorem bytesFromHex_digits {s : List Char} (h : ∀ c ∈ s, isHexDigit c = true) :
    bytesFromHex s = hexDecode s := by
  fun_induction hexDecode s with
  | case1 => rfl
  | case2 a =>
    rw [bytesFromHex, isPySpace_of_isHexDigit (h a List.mem_cons_self)]
    rfl
  | case3 a b rest y x hy hx ih =>
    obtain ⟨ha, hrest⟩ := List.forall_mem_cons.mp h
    rw [bytesFromHex, isPySpace_of_isHexDigit ha, hx, hy, ih (List.forall_mem_cons.mp hrest).2]
    rfl
  | case4 a b rest hbad =>
    obtain ⟨ha, hrest⟩ := List.forall_mem_cons.mp h
    obtain ⟨x, hx⟩ := Option.isSome_iff_exists.mp ha
    obtain ⟨y, hy⟩ := Option.isSome_iff_exists.mp (List.forall_mem_cons.mp hrest).1
    exact absurd hy (hbad x y hx)

/-- On digits `Buffer.from` takes the pairs and drops a single last digit. -/
theorem bufferFromHex_digits {s : List Char} (h : ∀ c ∈ s, isHexDigit c = true) :
    hexDecode (s.take (2 * (s.length / 2))) = some (bufferFromHex s) := by
  fun_induction bufferFromHex s with
  | case1 a b rest y x hy hx ih =>
    obtain ⟨-, hrest⟩ := List.forall_mem_cons.mp h
    have hlen : 2 * ((a :: b :: rest).length / 2) = 2 * (rest.length / 2) + 1 + 1 := by
      simp only [List.length_cons]
      omega
    rw [hlen, List.take_succ_cons, List.take_succ_cons, hexDecode, hx, hy]
    simp only
    rw [ih (List.forall_mem_cons.mp hrest).2]
    rfl
  | case2 a b rest hbad =>
    obtain ⟨ha, hrest⟩ := List.forall_mem_cons.mp h
    obtain ⟨x, hx⟩ := Option.isSome_iff_exists.mp ha
    obtain ⟨y, hy⟩ := Option.isSome_iff_exists.mp (List.forall_mem_cons.mp hrest).1
    exact absurd hy (hbad x y hx)
  | case3 s hshort =>
    cases s with
    | nil => rfl
    | cons a rest =>
      cases rest with
      | nil => simp [hexDecode]
      | cons b rest => exact absurd rfl (hshort a b rest)

/-! ## What is accepted -/

/-- The header is the prefix and 64 digits of `mac`. -/
def Signed (mac : Digest) (header : String) : Prop :=
  ∃ sig, header.toList = "sha256=".toList ++ sig ∧ sig.length = 64 ∧ hexDecode sig = some mac.1

/-- The header is a signed one with another digit at its end. -/
def ExtraDigit (mac : Digest) (header : String) : Prop :=
  ∃ sig c, header.toList = "sha256=".toList ++ (sig ++ [c]) ∧ sig.length = 64 ∧
    hexDecode sig = some mac.1 ∧ isHexDigit c = true

/-- A secret as the API makes them. -/
def HexSecret (signingSecret : String) : Prop :=
  signingSecret.toList.length = 64 ∧ ∀ c ∈ signingSecret.toList, isHexDigit c = true

theorem hexSecret_key {signingSecret : String} (h : HexSecret signingSecret) :
    ∃ key, hexDecode signingSecret.toList = some key ∧
      bytesFromHex signingSecret.toList = some key ∧ bufferFromHex signingSecret.toList = key := by
  obtain ⟨hlen, hall⟩ := h
  obtain ⟨key, hkey⟩ := hexDecode_of_digits hall (by rw [hlen])
  have hbuffer := bufferFromHex_digits hall
  rw [hlen, List.take_of_length_le (by rw [hlen]), hkey] at hbuffer
  exact ⟨key, hkey, by rw [bytesFromHex_digits hall, hkey], (Option.some.inj hbuffer).symm⟩

theorem isPrefixOf_iff (header : List Char) :
    "sha256=".toList.isPrefixOf header = true ↔
      ∃ sig, header = "sha256=".toList ++ sig ∧ header.drop "sha256=".toList.length = sig := by
  rw [List.isPrefixOf_iff_prefix]
  constructor
  · rintro ⟨sig, rfl⟩
    exact ⟨sig, rfl, List.drop_left⟩
  · rintro ⟨sig, h, -⟩
    exact ⟨sig, h.symm⟩

theorem ne_empty_of_scheme {header : String} {sig : List Char}
    (h : header.toList = "sha256=".toList ++ sig) : header ≠ "" := by
  rintro rfl
  cases h

theorem isPrefixOf_false {header : String} (h : "sha256=".toList.isPrefixOf header.toList ≠ true)
    (sig : List Char) : header.toList ≠ "sha256=".toList ++ sig := by
  intro he
  exact h ((isPrefixOf_iff header.toList).mpr ⟨sig, he, by rw [he, List.drop_left]⟩)

theorem signed_iff {mac : Digest} {header : String} {sig : List Char}
    (h : header.toList = "sha256=".toList ++ sig) :
    Signed mac header ↔ hexDecode sig = some mac.1 := by
  constructor
  · rintro ⟨sig', h', -, hdec⟩
    rw [h] at h'
    rwa [List.append_cancel_left h']
  · intro hdec
    have hlen := (hexDecode_digits hdec).1
    rw [mac.2] at hlen
    exact ⟨sig, h, hlen, hdec⟩

theorem extraDigit_iff {mac : Digest} {header : String} {sig : List Char}
    (h : header.toList = "sha256=".toList ++ sig) :
    ExtraDigit mac header ↔
      sig.length = 65 ∧ (∀ c ∈ sig, isHexDigit c = true) ∧ hexDecode (sig.take 64) = some mac.1 := by
  constructor
  · rintro ⟨sig', c, h', hlen, hdec, hc⟩
    rw [h] at h'
    rw [List.append_cancel_left h']
    refine ⟨by simp [hlen], ?_, by rw [List.take_left' hlen, hdec]⟩
    exact List.forall_mem_append.mpr ⟨(hexDecode_digits hdec).2, by simpa using hc⟩
  · rintro ⟨hlen, hall, hdec⟩
    have hlast : (sig.drop 64).length = 1 := by rw [List.length_drop, hlen]
    obtain ⟨c, hc⟩ := List.length_eq_one_iff.mp hlast
    have hsplit : sig = sig.take 64 ++ [c] := by rw [← hc, List.take_append_drop]
    refine ⟨sig.take 64, c, by rw [h, ← hsplit], by simp [hlen], hdec, ?_⟩
    refine hall c (List.mem_of_mem_drop (i := 64) ?_)
    rw [hc]
    exact List.mem_singleton_self c

/-- Comparing lengths first changes nothing. -/
theorem compare_iff (actual : Bytes) (mac : Digest) :
    (if actual.length ≠ mac.1.length then false else decide (actual = mac.1)) = true ↔
      actual = mac.1 := by
  split
  · rename_i hne
    refine iff_of_false (by simp) fun e => hne (by rw [e])
  · exact decide_eq_true_iff

theorem all_hexChars {s : List Char} :
    (s.all (· ∈ hexChars)) = true ↔ ∀ c ∈ s, isHexDigit c = true := by
  rw [List.all_eq_true]
  refine forall₂_congr fun c _ => ?_
  rw [decide_eq_true_iff]
  exact mem_hexChars c

theorem all_hexClass {s : List Char} :
    s.all hexClass = true ↔ ∀ c ∈ s, isHexDigit c = true := by
  rw [List.all_eq_true]
  simp only [hexClass_eq]

/-- The Python client accepts signed headers only. -/
theorem verifyAlertSignaturePy_iff {signingSecret : String} {key : Bytes} (hs : HexSecret signingSecret)
    (hkey : hexDecode signingSecret.toList = some key) (body : Bytes) (header : String) :
    verifyAlertSignaturePy hmac body (some header) signingSecret = true ↔
      Signed (hmac key body) header := by
  have hpykey : bytesFromHex signingSecret.toList = some key := by
    rw [bytesFromHex_digits hs.2, hkey]
  unfold verifyAlertSignaturePy
  simp only [Bool.or_eq_true, decide_eq_true_eq, Bool.not_eq_true', ← Bool.not_eq_true]
  by_cases hp : "sha256=".toList.isPrefixOf header.toList = true
  · obtain ⟨sig, hsig, hdrop⟩ := (isPrefixOf_iff header.toList).mp hp
    rw [if_neg (not_or.mpr ⟨ne_empty_of_scheme hsig, not_not.mpr hp⟩), hdrop, signed_iff hsig]
    by_cases hhex : sig ≠ [] ∧ ∀ c ∈ sig, isHexDigit c = true
    · obtain ⟨hnil, hall⟩ := hhex
      rw [if_neg (not_or.mpr ⟨hnil, not_not.mpr (all_hexChars.mpr hall)⟩),
        if_neg (not_or.mpr ⟨not_not.mpr hs.1, not_not.mpr (all_hexChars.mpr hs.2)⟩), hpykey,
        bytesFromHex_digits hall]
      cases hdec : hexDecode sig with
      | none => simp
      | some actual =>
        rw [Option.some.injEq]
        exact compare_iff actual (hmac key body)
    · rw [if_pos]
      · refine iff_of_false (by simp) fun hdec => hhex ?_
        refine ⟨?_, (hexDecode_digits hdec).2⟩
        rintro rfl
        have := (hexDecode_digits hdec).1
        rw [(hmac key body).2] at this
        cases this
      · by_contra hc
        obtain ⟨hnil, hall⟩ := not_or.mp hc
        exact hhex ⟨hnil, all_hexChars.mp (not_not.mp hall)⟩
  · rw [if_pos (.inr hp)]
    refine iff_of_false (by simp) ?_
    rintro ⟨sig, hsig, -⟩
    exact isPrefixOf_false hp sig hsig

/-- What the pairs of a signature decode to: a signed header's 64 digits, or
these and one more. -/
theorem bufferFromHex_iff {mac : Digest} {header : String} {sig : List Char}
    (hsig : header.toList = "sha256=".toList ++ sig) (hall : ∀ c ∈ sig, isHexDigit c = true) :
    bufferFromHex sig = mac.1 ↔ Signed mac header ∨ ExtraDigit mac header := by
  have hdec := bufferFromHex_digits hall
  rw [signed_iff hsig, extraDigit_iff hsig]
  constructor
  · intro heq
    rw [heq] at hdec
    have hlen := (hexDecode_digits hdec).1
    rw [mac.2, List.length_take, min_eq_left (by omega)] at hlen
    rw [hlen] at hdec
    rcases Nat.lt_or_ge 64 sig.length with hlong | hshort
    · exact .inr ⟨by omega, hall, hdec⟩
    · rw [List.take_of_length_le hshort] at hdec
      exact .inl hdec
  · rintro (hfull | ⟨hlen, -, hfull⟩)
    · have hlen := (hexDecode_digits hfull).1
      rw [mac.2] at hlen
      rw [hlen, List.take_of_length_le (by omega), hfull] at hdec
      exact (Option.some.inj hdec).symm
    · rw [hlen] at hdec
      exact Option.some.inj (hdec.symm.trans hfull)

/-- The TypeScript client also accepts one digit more. -/
theorem verifyAlertSignatureTs_iff {signingSecret : String} {key : Bytes} (hs : HexSecret signingSecret)
    (hkey : hexDecode signingSecret.toList = some key) (body : Bytes) (header : String) :
    verifyAlertSignatureTs hmac body (some header) signingSecret = true ↔
      Signed (hmac key body) header ∨ ExtraDigit (hmac key body) header := by
  obtain ⟨key', hkey', -, htskey⟩ := hexSecret_key hs
  obtain rfl : key' = key := Option.some.inj (hkey'.symm.trans hkey)
  have hsecret : (decide (signingSecret.toList.length = 64) && signingSecret.toList.all hexClass) =
      true := by
    rw [Bool.and_eq_true, decide_eq_true_eq]
    exact ⟨hs.1, all_hexClass.mpr hs.2⟩
  unfold verifyAlertSignatureTs
  simp only
  by_cases hp : "sha256=".toList.isPrefixOf header.toList = true
  · obtain ⟨sig, hsig, hdrop⟩ := (isPrefixOf_iff header.toList).mp hp
    rw [if_neg (ne_empty_of_scheme hsig), hp, hdrop, hsecret, htskey]
    by_cases hhex : (decide (sig ≠ []) && sig.all hexClass) = true
    · have hall := all_hexClass.mp (Bool.and_eq_true_iff.mp hhex).2
      rw [hhex, ← bufferFromHex_iff hsig hall]
      exact compare_iff (bufferFromHex sig) (hmac key' body)
    · rw [Bool.not_eq_true] at hhex
      rw [hhex]
      refine iff_of_false (by simp) fun hc => ?_
      have hdigits : sig ≠ [] ∧ ∀ c ∈ sig, isHexDigit c = true := by
        rcases hc with hc | hc
        · have hdec := hexDecode_digits ((signed_iff hsig).mp hc)
          refine ⟨?_, hdec.2⟩
          rintro rfl
          have := hdec.1
          rw [(hmac key' body).2] at this
          cases this
        · obtain ⟨hlen, hall, -⟩ := (extraDigit_iff hsig).mp hc
          refine ⟨?_, hall⟩
          rintro rfl
          cases hlen
      have htrue : (decide (sig ≠ []) && sig.all hexClass) = true := by
        rw [Bool.and_eq_true, decide_eq_true_eq]
        exact ⟨hdigits.1, all_hexClass.mpr hdigits.2⟩
      rw [hhex] at htrue
      cases htrue
  · have hno := isPrefixOf_false hp
    rw [Bool.not_eq_true] at hp
    rw [hp]
    refine iff_of_false (by simp) ?_
    rintro (⟨sig, hsig, -⟩ | ⟨sig, c, hsig, -⟩)
    · exact hno sig hsig
    · exact hno (sig ++ [c]) hsig

/-! ## Agreement -/

theorem signed_sent {signingSecret : String} {key : Bytes} (body : Bytes)
    (hkey : hexDecode signingSecret.toList = some key) {sent : String}
    (h : sentHeader hmac signingSecret body = some sent) : Signed (hmac key body) sent := by
  rw [sentHeader, hkey, Option.map_some, Option.some.injEq] at h
  subst h
  refine ⟨(bytesToHex (hmac key body).1).toList, ?_, ?_, hexDecode_bytesToHex _⟩
  · rw [signatureHeader, String.toList_append]
    rfl
  · rw [bytesToHex_length, (hmac key body).2]

theorem signed_not_extraDigit {mac : Digest} {header : String} (h : Signed mac header)
    (hx : ExtraDigit mac header) : False := by
  obtain ⟨sig, hsig, hlen, -⟩ := h
  obtain ⟨hlen', -⟩ := (extraDigit_iff hsig).mp hx
  omega

/-- Both clients accept the signed headers and no others, what the dispatcher
sends among them, and they agree. -/
structure Agree (signingSecret : String) (key body : Bytes) (header : String) : Prop where
  ts : verifyAlertSignatureTs hmac body (some header) signingSecret = true ↔
    Signed (hmac key body) header
  py : verifyAlertSignaturePy hmac body (some header) signingSecret = true ↔
    Signed (hmac key body) header
  same : verifyAlertSignatureTs hmac body (some header) signingSecret =
    verifyAlertSignaturePy hmac body (some header) signingSecret
  sent : ∀ h, sentHeader hmac signingSecret body = some h →
    verifyAlertSignatureTs hmac body (some h) signingSecret = true ∧
      verifyAlertSignaturePy hmac body (some h) signingSecret = true

/-- They agree except on a signed header with another digit at its end. -/
theorem verifiers_agree_iff (signingSecret : String) (hs : HexSecret signingSecret) (body : Bytes)
    (header : String) :
    ∃ key, hexDecode signingSecret.toList = some key ∧
      (Agree hmac signingSecret key body header ↔ ¬ ExtraDigit (hmac key body) header) := by
  obtain ⟨key, hkey, -, -⟩ := hexSecret_key hs
  have hts := verifyAlertSignatureTs_iff hmac hs hkey body
  have hpy := verifyAlertSignaturePy_iff hmac hs hkey body
  refine ⟨key, hkey, ?_, ?_⟩
  · intro h hx
    exact signed_not_extraDigit (h.ts.mp ((hts header).mpr (.inr hx))) hx
  · intro hx
    have hts' : verifyAlertSignatureTs hmac body (some header) signingSecret = true ↔
        Signed (hmac key body) header := by
      rw [hts header, or_iff_left hx]
    refine ⟨hts', hpy header, ?_, ?_⟩
    · rw [Bool.eq_iff_iff, hts', hpy header]
    · intro h hsent
      have hsigned := signed_sent hmac body hkey hsent
      exact ⟨(hts h).mpr (.inl hsigned), (hpy h).mpr hsigned⟩

/-! ## One digit more -/

def zeroSecret : String := String.ofList (List.replicate 64 '0')

/-- HMAC-SHA256 of "{}" under 32 zero bytes. -/
def zeroDigest : Digest :=
  ⟨[0x22, 0xf8, 0xee, 0xa9, 0x09, 0x40, 0x0a, 0xf9, 0x8a, 0xdf, 0x36, 0x81, 0xa9, 0xf3, 0x19, 0x23,
    0xef, 0x6b, 0x7f, 0xcb, 0xa4, 0xab, 0xb5, 0x53, 0xd9, 0x28, 0x23, 0xa3, 0xe9, 0xd5, 0xc2, 0x5e],
    rfl⟩

def emptyObject : Bytes := [0x7b, 0x7d]

def sentZero : String := signatureHeader (bytesToHex zeroDigest.1)

theorem verifiers_agree_sent :
    ∃ key, hexDecode zeroSecret.toList = some key ∧
      Agree (fun _ _ => zeroDigest) zeroSecret key emptyObject sentZero := by
  have hs : HexSecret zeroSecret := by
    unfold HexSecret zeroSecret
    rw [String.toList_ofList]
    refine ⟨List.length_replicate, fun c hc => ?_⟩
    rw [List.eq_of_mem_replicate hc]
    rfl
  obtain ⟨key, hkey, hiff⟩ :=
    verifiers_agree_iff (fun _ _ => zeroDigest) zeroSecret hs emptyObject sentZero
  have hsent : sentHeader (fun _ _ => zeroDigest) zeroSecret emptyObject = some sentZero := by
    rw [sentHeader, hkey]
    rfl
  exact ⟨key, hkey, hiff.mpr (signed_not_extraDigit (signed_sent _ emptyObject hkey hsent))⟩

/-- The clients differ on the header of an alert with a digit appended. -/
theorem extraDigit_accepted :
    verifyAlertSignatureTs (fun _ _ => zeroDigest) emptyObject (some (sentZero ++ "0")) zeroSecret =
        true ∧
      verifyAlertSignaturePy (fun _ _ => zeroDigest) emptyObject (some (sentZero ++ "0")) zeroSecret =
        false := by
  decide +kernel

end Amarillo.L4
