import Amarillo.Core.Brackets
import Amarillo.L1Decoder.AbiValue
import Amarillo.L5Api.LabelRoutes

/-!
# The arguments of a call (`decode_args`, `decoder/src/abi.rs`)

`decodeArgs` reads the parameter list of a signature twice: `alloy` parses it, wrapped in
parentheses, to a tuple type and decodes the call data to one value for each component;
`splitTopLevel` cuts the same text at its top-level commas for the type names. The results are
zipped. What `alloy` does is a parameter (`Alloy`); `Alloy.Documented` says that it parses the wrapped
list of the signature at hand by the grammar of Solidity types (`TypeText`) and gives a tuple one
value per component. Of other texts nothing is asked: a comma before the closing parenthesis,
which some versions of `alloy` let pass, is not in the grammar.

* `typeText_balanced`: in the text of a type all commas are inside parentheses.
* `splitTopLevel_list`: so the text of a list is cut into the texts of its types.
* `decodeArgs_aligned`: values and type names line up.
-/
namespace Amarillo.L5
open Amarillo.Core Amarillo.L1

/-! ## The text of a type -/

/-- A number in decimal digits. -/
def Numeral (digits : List Char) (n : Nat) : Prop := digits ≠ [] ∧ decNat digits = some n

/-- The names of the types without components. -/
inductive Elementary : List Char → SolType → Prop
  | address : Elementary "address".toList .address
  | bool : Elementary "bool".toList .bool
  | bytes : Elementary "bytes".toList .bytes
  | string : Elementary "string".toList .string
  | function : Elementary "function".toList .function
  | uint {digits : List Char} {bits : Nat} (h : Numeral digits bits) :
    Elementary ("uint".toList ++ digits) (.uint bits)
  | int {digits : List Char} {bits : Nat} (h : Numeral digits bits) :
    Elementary ("int".toList ++ digits) (.int bits)
  | fixedBytes {digits : List Char} {size : Nat} (h : Numeral digits size) :
    Elementary ("bytes".toList ++ digits) (.fixedBytes size)
  | uint256 : Elementary "uint".toList (.uint 256)
  | int256 : Elementary "int".toList (.int 256)

def Spaces (s : List Char) : Prop := ∀ c ∈ s, isWhitespace c = true

mutual
/-- The grammar of types. Around the types of a list there may be space, and before it `tuple`. -/
inductive TypeText : List Char → SolType → Prop
  | elementary {s : List Char} {t : SolType} (h : Elementary s t) : TypeText s t
  | array {s : List Char} {t : SolType} (h : TypeText s t) : TypeText (s ++ ['[', ']']) (.array t)
  | fixedArray {s digits : List Char} {t : SolType} {size : Nat} (h : TypeText s t)
    (hsize : Numeral digits size) : TypeText (s ++ '[' :: (digits ++ [']'])) (.fixedArray t size)
  | tuple {s : List Char} {ts : List SolType} (h : ListText s ts) :
    TypeText ('(' :: (s ++ [')'])) (.tuple ts)
  | named {s : List Char} {ts : List SolType} (h : ListText s ts) :
    TypeText ("tuple".toList ++ '(' :: (s ++ [')'])) (.tuple ts)

inductive ListText : List Char → List SolType → Prop
  | empty {s : List Char} (h : Spaces s) : ListText s []
  | single {a s b : List Char} {t : SolType} (ha : Spaces a) (h : TypeText s t) (hb : Spaces b) :
    ListText (a ++ s ++ b) [t]
  | cons {a s b r : List Char} {t : SolType} {ts : List SolType} (ha : Spaces a)
    (h : TypeText s t) (hb : Spaces b) (hr : ListText r ts) (hne : ts ≠ []) :
    ListText (a ++ s ++ b ++ ',' :: r) (t :: ts)
end

/-! ## The functions -/

/-- What `decode_args` calls: `hex::decode`, `parse::<DynSolType>` and `abi_decode_params`,
with the texts of their errors. -/
structure Alloy where
  hexDecode : String → Except String Bytes
  parse : String → Except String SolType
  abiDecodeParams : SolType → Bytes → Except String DynSolValue

/-- mirrors crates/decoder/src/abi.rs:43-64 -/
inductive AbiDecodeError where
  | invalidSignature (signature : String)
  | invalidHex (e : String)
  | inputTooShort
  | decode (e : String)
  deriving DecidableEq, Repr

/-- mirrors crates/decoder/src/abi.rs:85-93 -/
structure DecodedArg where
  ty : String
  value : Json

def SELECTOR_BYTES : Nat := 4

/-- `str::rfind` of a character. -/
def rfind (c : Char) (s : List Char) : Option Nat :=
  (s.reverse.findIdx? (· = c)).map fun i => s.length - 1 - i

/-- mirrors crates/decoder/src/abi.rs:153-160 -/
def extractParamList (signature : List Char) : Option (List Char) :=
  match signature.findIdx? (· = '('), rfind ')' signature with
  | some first, some last =>
    if last ≤ first then none else some ((signature.take last).drop (first + 1))
  | _, _ => none

def parens : Brackets Char where
  opening := '('
  closing := ')'
  sep := ','
  closing_ne := by decide
  sep_ne_opening := by decide
  sep_ne_closing := by decide

/-- mirrors crates/decoder/src/abi.rs:169-189 -/
def splitTopLevel (types : List Char) : List String :=
  if types = [] then [] else (parens.cut 0 [] types).map fun piece => trim (String.ofList piece)

/-- mirrors crates/decoder/src/abi.rs:102-148 -/
def decodeArgs (A : Alloy) (signature inputHex : String) : Except AbiDecodeError (List DecodedArg) :=
  match extractParamList signature.toList with
  | none => .error (.invalidSignature signature)
  | some types =>
    match A.hexDecode (String.ofList (strip0x inputHex.toList)) with
    | .error e => .error (.invalidHex e)
    | .ok bytes =>
      if bytes.length < SELECTOR_BYTES then .error .inputTooShort
      else
        match A.parse (String.ofList ('(' :: (types ++ [')']))) with
        | .error e => .error (.decode ("signature parse: " ++ e))
        | .ok seqTy =>
          match A.abiDecodeParams seqTy (bytes.drop SELECTOR_BYTES) with
          | .error e => .error (.decode e)
          | .ok decoded =>
            let values := match decoded with
              | .tuple vs => vs
              | other => [other]
            .ok ((values.zip (splitTopLevel types)).map fun p => ⟨p.2, dynsolToJson p.1⟩)

/-- If the parameter list of the signature parses, it is a text of the type it parses to; and a
tuple decodes to a tuple of as many values. -/
structure Alloy.Documented (A : Alloy) (signature : String) : Prop where
  grammar : ∀ types t, extractParamList signature.toList = some types →
    A.parse (String.ofList ('(' :: (types ++ [')']))) = .ok t → TypeText ('(' :: (types ++ [')'])) t
  components : ∀ ts bytes v, A.abiDecodeParams (.tuple ts) bytes = .ok v →
    ∃ vs, v = .tuple vs ∧ vs.length = ts.length

/-- A signature is a name and its parameters in parentheses. -/
theorem extractParamList_signature {name : List Char} (types : List Char) (hname : '(' ∉ name) :
    extractParamList (name ++ '(' :: (types ++ [')'])) = some types := by
  have hfirst : (name ++ '(' :: (types ++ [')'])).findIdx? (· = '(') = some name.length := by
    rw [List.findIdx?_append, List.findIdx?_eq_none_iff.mpr ?_, List.findIdx?_cons]
    · simp
    · intro c hc
      rw [decide_eq_false_iff_not]
      rintro rfl
      exact hname hc
  have hlast : rfind ')' (name ++ '(' :: (types ++ [')'])) = some (name.length + types.length + 1) := by
    have hrev : (name ++ '(' :: (types ++ [')'])).reverse =
        ')' :: (name ++ '(' :: types).reverse := by simp
    rw [rfind, hrev, List.findIdx?_cons]
    simp only [decide_true, if_true, Option.map_some, List.length_append, List.length_cons,
      List.length_nil, Option.some.injEq]
    omega
  unfold extractParamList
  rw [hfirst, hlast]
  simp only
  have htake : (name ++ '(' :: (types ++ [')'])).take (name.length + types.length + 1) =
      (name ++ ['(']) ++ types := by
    have hsplit : name ++ '(' :: (types ++ [')']) = ((name ++ ['(']) ++ types) ++ [')'] := by simp
    rw [hsplit, List.take_append_of_le_length (by simp), List.take_of_length_le (by simp; omega)]
  have hdrop : ((name ++ ['(']) ++ types).drop (name.length + 1) = types := by
    rw [List.drop_append_of_le_length (by simp)]
    simp
  rw [if_neg (by omega), htake, hdrop]

/-! ## Characters of a type -/

theorem isWhitespace_alphanum {c : Char} (h : c.isAlphanum = true) : isWhitespace c = false := by
  simp only [Char.isAlphanum, Char.isAlpha, Char.isUpper, Char.isLower, Char.isDigit,
    Bool.or_eq_true, Bool.and_eq_true, decide_eq_true_eq, UInt32.le_iff_toNat_le, ge_iff_le] at h
  change ((65 ≤ c.toNat ∧ c.toNat ≤ 90) ∨ 97 ≤ c.toNat ∧ c.toNat ≤ 122) ∨
    48 ≤ c.toNat ∧ c.toNat ≤ 57 at h
  rw [isWhitespace, decide_eq_false_iff_not]
  omega

theorem plain_of_not_bracket {c : Char} (h : c ∉ ['(', ')', ',']) : parens.Plain c := by
  simp only [List.mem_cons, List.not_mem_nil, or_false, not_or] at h
  exact ⟨h.1, h.2.1, h.2.2⟩

theorem plain_of_alphanum {c : Char} (h : c.isAlphanum = true) : parens.Plain c := by
  have hbrackets : (['(', ')', ','].all fun c => !c.isAlphanum) = true := by decide
  refine plain_of_not_bracket fun hc => ?_
  have := List.all_eq_true.mp hbrackets c hc
  rw [h] at this
  cases this

theorem plain_of_whitespace {c : Char} (h : isWhitespace c = true) : parens.Plain c := by
  have hbrackets : (['(', ')', ','].all fun c => !isWhitespace c) = true := by decide
  refine plain_of_not_bracket fun hc => ?_
  have := List.all_eq_true.mp hbrackets c hc
  rw [h] at this
  cases this

theorem Numeral.chars {digits : List Char} {n : Nat} (h : Numeral digits n) :
    ∀ c ∈ digits, c.isAlphanum = true := by
  intro c hc
  rw [Char.isAlphanum, isDigit_of_decNat h.2 c hc, Bool.or_true]

theorem tupleWord : ∀ c ∈ "tuple".toList, c.isAlphanum = true := by
  have hall : "tuple".toList.all Char.isAlphanum = true := by decide
  exact List.all_eq_true.mp hall

theorem Elementary.chars {s : List Char} {t : SolType} (h : Elementary s t) :
    s ≠ [] ∧ ∀ c ∈ s, c.isAlphanum = true := by
  have hwords : (["address", "bool", "bytes", "string", "function", "uint", "int"].all fun w =>
      w.toList.all Char.isAlphanum && !w.toList.isEmpty) = true := by decide
  have hword : ∀ w ∈ ["address", "bool", "bytes", "string", "function", "uint", "int"],
      w.toList ≠ [] ∧ ∀ c ∈ w.toList, c.isAlphanum = true := by
    intro w hw
    have := List.all_eq_true.mp hwords w hw
    rw [Bool.and_eq_true, Bool.not_eq_true', List.isEmpty_eq_false_iff] at this
    exact ⟨this.2, List.all_eq_true.mp this.1⟩
  have hsized : ∀ w ∈ ["address", "bool", "bytes", "string", "function", "uint", "int"],
      ∀ {digits : List Char} {n : Nat}, Numeral digits n →
        w.toList ++ digits ≠ [] ∧ ∀ c ∈ w.toList ++ digits, c.isAlphanum = true := by
    intro w hw digits n hn
    exact ⟨fun hnil => (hword w hw).1 (List.append_eq_nil_iff.mp hnil).1,
      List.forall_mem_append.mpr ⟨(hword w hw).2, hn.chars⟩⟩
  cases h with
  | address => exact hword "address" (by decide)
  | bool => exact hword "bool" (by decide)
  | bytes => exact hword "bytes" (by decide)
  | string => exact hword "string" (by decide)
  | function => exact hword "function" (by decide)
  | uint h => exact hsized "uint" (by decide) h
  | int h => exact hsized "int" (by decide) h
  | fixedBytes h => exact hsized "bytes" (by decide) h
  | uint256 => exact hword "uint" (by decide)
  | int256 => exact hword "int" (by decide)

theorem Spaces.balanced {s : List Char} (h : Spaces s) (top : Bool) : parens.Balanced top s :=
  Brackets.balanced_of_plain top fun c hc => plain_of_whitespace (h c hc)

mutual
/-- In the text of a type all commas are inside parentheses. -/
theorem typeText_balanced : ∀ {s : List Char} {t : SolType}, TypeText s t → parens.Balanced true s
  | _, _, .elementary h =>
    Brackets.balanced_of_plain true fun c hc => plain_of_alphanum (h.chars.2 c hc)
  | _, _, .array h => (typeText_balanced h).append
    (Brackets.balanced_of_plain true fun c hc => plain_of_not_bracket (by
      simp only [List.mem_cons, List.not_mem_nil, or_false] at hc
      rcases hc with rfl | rfl <;> decide))
  | _, _, .fixedArray h hsize => (typeText_balanced h).append
    (.plain (plain_of_not_bracket (by decide))
      ((Brackets.balanced_of_plain true fun c hc => plain_of_alphanum (hsize.chars c hc)).append
        (.plain (plain_of_not_bracket (by decide)) (.nil true))))
  | _, _, .tuple h => .bracket true (listText_balanced h)
  | _, _, .named h =>
    (Brackets.balanced_of_plain true fun c hc => plain_of_alphanum (tupleWord c hc)).append
      (.bracket true (listText_balanced h))

theorem listText_balanced : ∀ {s : List Char} {ts : List SolType}, ListText s ts →
    parens.Balanced false s
  | _, _, .empty h => h.balanced false
  | _, _, .single ha h hb =>
    ((ha.balanced false).append (typeText_balanced h).inside).append (hb.balanced false)
  | _, _, .cons ha h hb hr _ =>
    (((ha.balanced false).append (typeText_balanced h).inside).append (hb.balanced false)).append
      (.sep (listText_balanced hr))
end

/-! ## Trimming -/

/-- No space at either end. -/
structure Solid (s : List Char) : Prop where
  head : ∃ c r, s = c :: r ∧ isWhitespace c = false
  last : ∃ r c, s = r ++ [c] ∧ isWhitespace c = false

theorem solid_append {s r : List Char} {c : Char} (h : Solid s) (hc : isWhitespace c = false) :
    Solid (s ++ (r ++ [c])) := by
  obtain ⟨d, m, rfl, hd⟩ := h.head
  exact ⟨⟨d, m ++ (r ++ [c]), rfl, hd⟩, ⟨d :: m ++ r, c, by simp, hc⟩⟩

theorem solid_elementary {s : List Char} {t : SolType} (h : Elementary s t) : Solid s := by
  obtain ⟨hne, hchars⟩ := h.chars
  refine ⟨?_, ?_⟩
  · obtain ⟨c, r, rfl⟩ := List.exists_cons_of_ne_nil hne
    exact ⟨c, r, rfl, isWhitespace_alphanum (hchars c List.mem_cons_self)⟩
  · exact ⟨_, _, (List.dropLast_append_getLast hne).symm,
      isWhitespace_alphanum (hchars _ (List.getLast_mem hne))⟩

theorem typeText_solid : ∀ {s : List Char} {t : SolType}, TypeText s t → Solid s
  | _, _, .elementary h => solid_elementary h
  | _, _, .array h => solid_append (r := ['[']) (typeText_solid h) (by decide)
  | _, _, .fixedArray h _ => solid_append (r := '[' :: _) (typeText_solid h) (by decide)
  | _, _, .tuple (s := s) _ =>
    ⟨⟨'(', s ++ [')'], rfl, by decide⟩, ⟨'(' :: s, ')', rfl, by decide⟩⟩
  | _, _, .named (s := s) _ =>
    ⟨⟨'t', "uple".toList ++ '(' :: (s ++ [')']), rfl, by decide⟩,
      ⟨"tuple".toList ++ '(' :: s, ')', by simp, by decide⟩⟩

theorem trim_padded {a s b : List Char} (ha : Spaces a) (hs : Solid s) (hb : Spaces b) :
    trim (String.ofList (a ++ s ++ b)) = String.ofList s := by
  obtain ⟨c, r, hcons, hc⟩ := hs.head
  obtain ⟨r', c', hsnoc, hc'⟩ := hs.last
  have hleft : (a ++ s ++ b).dropWhile isWhitespace = s ++ b := by
    rw [List.append_assoc, List.dropWhile_append_of_pos ha, hcons, List.cons_append,
      List.dropWhile_cons_of_neg (by rw [hc]; decide)]
  have hright : (s ++ b).rdropWhile isWhitespace = s := by
    have hback : ∀ x ∈ b.reverse, isWhitespace x = true := fun x hx => hb x (List.mem_reverse.mp hx)
    rw [List.rdropWhile, List.reverse_append, List.dropWhile_append_of_pos hback, hsnoc,
      List.reverse_append, List.reverse_singleton, List.singleton_append,
      List.dropWhile_cons_of_neg (by rw [hc']; decide), List.reverse_cons, List.reverse_reverse]
  rw [trim, String.toList_ofList, hleft, hright]

/-! ## Cutting the list -/

/-- The texts, joined by commas with space around them, give the list. -/
inductive Joined : List String → List Char → Prop
  | empty {s : List Char} (h : Spaces s) : Joined [] s
  | single {a b : List Char} (ty : String) (ha : Spaces a) (hb : Spaces b) :
    Joined [ty] (a ++ ty.toList ++ b)
  | cons {a b r : List Char} {tys : List String} (ty : String) (ha : Spaces a) (hb : Spaces b)
    (hr : Joined tys r) (hne : tys ≠ []) : Joined (ty :: tys) (a ++ ty.toList ++ b ++ ',' :: r)

theorem padded_balanced {a s b : List Char} {t : SolType} (ha : Spaces a) (h : TypeText s t)
    (hb : Spaces b) : parens.Balanced true (a ++ s ++ b) :=
  ((ha.balanced true).append (typeText_balanced h)).append (hb.balanced true)

theorem cut_list {s : List Char} {ts : List SolType} (h : ListText s ts) (hne : ts ≠ []) :
    let tys := (parens.cut 0 [] s).map fun piece => trim (String.ofList piece)
    List.Forall₂ (fun t ty => TypeText ty.toList t) ts tys ∧ Joined tys s := by
  induction ts generalizing s with
  | nil => exact absurd rfl hne
  | cons t ts ih =>
    cases h with
    | @single a s b t ha h hb =>
      intro tys
      have htys : tys = [String.ofList s] := by
        simp only [tys]
        rw [cut_word (padded_balanced ha h hb), List.map_singleton, trim_padded ha (typeText_solid h) hb]
      rw [htys]
      have htext : (String.ofList s).toList = s := String.toList_ofList
      refine ⟨.cons (by rw [htext]; exact h) .nil, ?_⟩
      have := Joined.single (String.ofList s) ha hb
      rwa [htext] at this
    | @cons a s b r t ts ha h hb hr hts =>
      obtain ⟨hall, hjoined⟩ := ih hr hts
      intro tys
      have htys : tys = String.ofList s ::
          (parens.cut 0 [] r).map fun piece => trim (String.ofList piece) := by
        have hcut : parens.cut 0 [] (a ++ s ++ b ++ ',' :: r) = (a ++ s ++ b) :: parens.cut 0 [] r :=
          cut_cons (padded_balanced ha h hb) r
        simp only [tys]
        rw [hcut, List.map_cons, trim_padded ha (typeText_solid h) hb]
      rw [htys]
      have htext : (String.ofList s).toList = s := String.toList_ofList
      refine ⟨.cons (by rw [htext]; exact h) hall, ?_⟩
      have hmore : ((parens.cut 0 [] r).map fun piece => trim (String.ofList piece)) ≠ [] := by
        intro hnil
        rw [hnil] at hall
        cases hall
        exact hts rfl
      have := Joined.cons (String.ofList s) ha hb hjoined hmore
      rwa [htext] at this

theorem listText_nil {ts : List SolType} (h : ListText [] ts) : ts = [] := by
  generalize hs : ([] : List Char) = s at h
  cases h with
  | empty => rfl
  | @single a s b t _ h _ =>
    obtain ⟨c, r, rfl, -⟩ := (typeText_solid h).head
    have := congrArg List.length hs
    simp at this
  | @cons a s b r t ts _ _ _ _ _ =>
    have := congrArg List.length hs
    simp at this

/-- A list of types is cut into the texts of its types. -/
theorem splitTopLevel_list {s : List Char} {ts : List SolType} (h : ListText s ts) (hne : ts ≠ []) :
    List.Forall₂ (fun t ty => TypeText ty.toList t) ts (splitTopLevel s) ∧
      Joined (splitTopLevel s) s := by
  have hs : s ≠ [] := by
    rintro rfl
    exact hne (listText_nil h)
  rw [splitTopLevel, if_neg hs]
  exact cut_list h hne

/-- What is in parentheses is a list of types. -/
theorem wrapped_tuple {types : List Char} {t : SolType} (h : TypeText ('(' :: (types ++ [')'])) t) :
    ∃ ts, t = .tuple ts ∧ ListText types ts := by
  generalize hs : '(' :: (types ++ [')']) = s at h
  have hlast : ∀ {r : List Char} {c : Char}, '(' :: (types ++ [')']) = r ++ [c] → ')' = c := by
    intro r c hrc
    rw [← List.cons_append] at hrc
    exact (List.cons.inj (List.append_inj' hrc rfl).2).1
  cases h with
  | elementary h =>
    have := h.chars.2 '(' (hs ▸ List.mem_cons_self)
    cases this
  | @array s t _ =>
    exact absurd (hlast (r := s ++ ['[']) (by rw [hs, List.append_assoc]; rfl)) (by decide)
  | @fixedArray s digits t size _ _ =>
    exact absurd (hlast (r := s ++ '[' :: digits) (by rw [hs, List.append_assoc]; rfl)) (by decide)
  | @tuple s ts h =>
    have hbody := List.append_cancel_right (List.cons.inj hs).2
    exact ⟨ts, rfl, hbody ▸ h⟩
  | @named s ts _ => exact absurd (List.cons.inj hs).1 (by decide)

/-- What a call that succeeds has gone through. -/
theorem decodeArgs_ok {A : Alloy} {signature inputHex : String} {args : List DecodedArg}
    (h : decodeArgs A signature inputHex = .ok args) :
    ∃ types bytes t v, extractParamList signature.toList = some types ∧
      A.hexDecode (String.ofList (strip0x inputHex.toList)) = .ok bytes ∧
      SELECTOR_BYTES ≤ bytes.length ∧ A.parse (String.ofList ('(' :: (types ++ [')']))) = .ok t ∧
      A.abiDecodeParams t (bytes.drop SELECTOR_BYTES) = .ok v ∧
      ∀ vs, v = .tuple vs →
        args = (vs.zip (splitTopLevel types)).map fun p => ⟨p.2, dynsolToJson p.1⟩ := by
  unfold decodeArgs at h
  split at h
  · cases h
  rename_i types htypes
  split at h
  · cases h
  rename_i bytes hbytes
  split at h
  · cases h
  rename_i hlen
  split at h
  · cases h
  rename_i t ht
  split at h
  · cases h
  rename_i v hv
  refine ⟨types, bytes, t, v, htypes, hbytes, Nat.le_of_not_lt hlen, ht, hv, ?_⟩
  rintro vs rfl
  exact (Except.ok.inj h).symm

/-- The arguments are the values of the components of the tuple type, each with the text of its
component. -/
structure Aligned (types : List Char) (ts : List SolType) (vs : List DynSolValue)
    (args : List DecodedArg) : Prop where
  count : args.length = ts.length
  values : args.map DecodedArg.value = vs.map dynsolToJson
  typed : List.Forall₂ (fun t arg => TypeText arg.ty.toList t) ts args
  joined : Joined (args.map DecodedArg.ty) types

theorem aligned_zip {types : List Char} {ts : List SolType} {vs : List DynSolValue}
    (h : ListText types ts) (hlen : vs.length = ts.length) :
    Aligned types ts vs ((vs.zip (splitTopLevel types)).map fun p => ⟨p.2, dynsolToJson p.1⟩) := by
  by_cases hne : ts = []
  · subst hne
    cases List.length_eq_zero_iff.mp hlen
    cases h with
    | empty hs => exact ⟨rfl, rfl, .nil, .empty hs⟩
  · obtain ⟨htyped, hjoined⟩ := splitTopLevel_list h hne
    have hcount := htyped.length_eq
    have hvalues : ((vs.zip (splitTopLevel types)).map fun p => (⟨p.2, dynsolToJson p.1⟩ : DecodedArg)).map
        DecodedArg.value = vs.map dynsolToJson := by
      calc _ = ((vs.zip (splitTopLevel types)).map Prod.fst).map dynsolToJson := by
            rw [List.map_map, List.map_map]
            rfl
        _ = vs.map dynsolToJson := by rw [List.map_fst_zip (by omega)]
    have htys : ((vs.zip (splitTopLevel types)).map fun p => (⟨p.2, dynsolToJson p.1⟩ : DecodedArg)).map
        DecodedArg.ty = splitTopLevel types := by
      rw [List.map_map]
      exact List.map_snd_zip (by omega)
    refine ⟨?_, hvalues, ?_, by rw [htys]; exact hjoined⟩
    · rw [List.length_map, List.length_zip]
      omega
    · rw [← htys] at htyped
      exact List.forall₂_map_right_iff.mp htyped

/-- **Types and values line up.** Where `alloy` parses the wrapped list by the grammar of Solidity
types and gives a tuple one value per component: if `decode_args` succeeds, there is exactly one argument
per top-level parameter, the i-th with the i-th value and the whole text of the i-th parameter
type, however nested, and the type names joined by commas are the parameter list up to space
around its top-level commas. -/
theorem decodeArgs_aligned (A : Alloy) (signature : String) (hA : A.Documented signature)
    (inputHex : String) (args : List DecodedArg) (h : decodeArgs A signature inputHex = .ok args) :
    ∃ types bytes ts vs, extractParamList signature.toList = some types ∧
      A.hexDecode (String.ofList (strip0x inputHex.toList)) = .ok bytes ∧
      A.parse (String.ofList ('(' :: (types ++ [')']))) = .ok (.tuple ts) ∧
      A.abiDecodeParams (.tuple ts) (bytes.drop SELECTOR_BYTES) = .ok (.tuple vs) ∧
      Aligned types ts vs args := by
  obtain ⟨types, bytes, t, v, htypes, hbytes, -, ht, hv, hargs⟩ := decodeArgs_ok h
  obtain ⟨ts, rfl, hlist⟩ := wrapped_tuple (hA.grammar types t htypes ht)
  obtain ⟨vs, rfl, hlen⟩ := hA.components _ _ _ hv
  refine ⟨types, bytes, ts, vs, htypes, hbytes, ht, hv, ?_⟩
  rw [hargs vs rfl]
  exact aligned_zip hlist hlen

/-! ## A transfer -/

def transferTypes : List SolType := [.address, .uint 256]

def transferValues : List DynSolValue := [.address (.repeatByte 0xab), .uint 42 256]

/-- The two words of `transfer(address,uint256)`. -/
def transferBody : Bytes :=
  List.replicate 12 0 ++ List.replicate 20 0xab ++ List.replicate 31 0 ++ [42]

def transferInput : String := "0xa9059cbb" ++ bytesToHex transferBody

def isTransfer : SolType → Bool
  | .tuple [.address, .uint 256] => true
  | _ => false

/-- What `alloy` does with this call. -/
def transferAlloy : Alloy where
  hexDecode s := match hexDecode s.toList with
    | some bytes => .ok bytes
    | none => .error "invalid hex"
  parse s := if s = "(address,uint256)" then .ok (.tuple transferTypes) else .error "parse"
  abiDecodeParams t bytes :=
    if isTransfer t = true ∧ bytes = transferBody then .ok (.tuple transferValues)
    else .error "type check failed"

theorem transfer_params :
    extractParamList "transfer(address,uint256)".toList = some "address,uint256".toList := by
  have hsignature : "transfer(address,uint256)".toList =
      "transfer".toList ++ '(' :: ("address,uint256".toList ++ [')']) := by decide +kernel
  rw [hsignature]
  exact extractParamList_signature _ (by decide)

theorem transferAlloy_documented : transferAlloy.Documented "transfer(address,uint256)" where
  grammar types t htypes h := by
    rw [transfer_params] at htypes
    obtain rfl := Option.some.inj htypes
    simp only [transferAlloy] at h
    split at h
    · cases h
      have h256 : Numeral "256".toList 256 := by
        unfold Numeral
        decide
      exact .tuple (s := "address,uint256".toList)
        (.cons (a := []) (b := []) (List.forall_mem_nil _) (.elementary .address)
          (List.forall_mem_nil _)
          (.single (a := []) (b := []) (List.forall_mem_nil _) (.elementary (.uint h256))
            (List.forall_mem_nil _)) (by decide))
    · cases h
  components ts bytes v h := by
    simp only [transferAlloy] at h
    split at h
    · rename_i hcond
      cases h
      refine ⟨transferValues, rfl, ?_⟩
      have htransfer := hcond.1
      unfold isTransfer at htransfer
      split at htransfer
      · rename_i hts
        cases hts
        rfl
      · cases htransfer
    · cases h

def transferArgs : List DecodedArg :=
  [⟨"address", .str "0xabababababababababababababababababababab"⟩, ⟨"uint256", .str "42"⟩]

theorem transferAlloy_hexDecode {s : List Char} {bytes : Bytes} (h : hexDecode s = some bytes) :
    transferAlloy.hexDecode (String.ofList s) = .ok bytes := by
  simp only [transferAlloy, String.toList_ofList, h]

/-- A call that goes through. -/
theorem decodeArgs_of_ok {A : Alloy} {signature inputHex : String} {types : List Char} {bytes : Bytes}
    {t : SolType} {vs : List DynSolValue} (htypes : extractParamList signature.toList = some types)
    (hbytes : A.hexDecode (String.ofList (strip0x inputHex.toList)) = .ok bytes)
    (hlen : SELECTOR_BYTES ≤ bytes.length) (ht : A.parse (String.ofList ('(' :: (types ++ [')']))) = .ok t)
    (hvs : A.abiDecodeParams t (bytes.drop SELECTOR_BYTES) = .ok (.tuple vs)) :
    decodeArgs A signature inputHex =
      .ok ((vs.zip (splitTopLevel types)).map fun p => ⟨p.2, dynsolToJson p.1⟩) := by
  simp only [decodeArgs, htypes, hbytes, ht, hvs, Nat.not_lt.mpr hlen, if_false]

theorem decodeArgs_transfer :
    decodeArgs transferAlloy "transfer(address,uint256)" transferInput = .ok transferArgs := by
  have hselector : "0xa9059cbb".toList = '0' :: 'x' :: ([0xa9, 0x05, 0x9c, 0xbb] : Bytes).flatMap hexByte := by
    decide +kernel
  have hstrip : strip0x transferInput.toList =
      ([0xa9, 0x05, 0x9c, 0xbb] ++ transferBody : Bytes).flatMap hexByte := by
    rw [transferInput, String.toList_append, hselector, bytesToHex, String.toList_ofList,
      List.cons_append, List.cons_append, strip0x, ← List.flatMap_append]
  have hhex : transferAlloy.hexDecode (String.ofList (strip0x transferInput.toList)) =
      .ok ([0xa9, 0x05, 0x9c, 0xbb] ++ transferBody) :=
    transferAlloy_hexDecode (by rw [hstrip, hexDecode_hexBytes])
  have hsplit : splitTopLevel "address,uint256".toList = ["address", "uint256"] := by decide +kernel
  have hwrapped : String.ofList ('(' :: ("address,uint256".toList ++ [')'])) = "(address,uint256)" := by
    decide +kernel
  have hto : dynsolToJson (.address (.repeatByte 0xab)) =
      .str "0xabababababababababababababababababababab" := by
    have htext : "0x" ++ bytesToHex (FixedBytes.repeatByte (n := 20) 0xab).bytes =
        "0xabababababababababababababababababababab" := by decide +kernel
    rw [dynsolToJson, htext]
  have hparse : transferAlloy.parse (String.ofList ('(' :: ("address,uint256".toList ++ [')']))) =
      .ok (.tuple transferTypes) := by
    rw [hwrapped]
    simp only [transferAlloy, if_true]
  have hdecode : transferAlloy.abiDecodeParams (.tuple transferTypes)
      (([0xa9, 0x05, 0x9c, 0xbb] ++ transferBody).drop SELECTOR_BYTES) = .ok (.tuple transferValues) := by
    have hbody : ([0xa9, 0x05, 0x9c, 0xbb] ++ transferBody).drop SELECTOR_BYTES = transferBody := rfl
    have htype : isTransfer (.tuple transferTypes) = true := rfl
    simp only [transferAlloy, hbody, htype, and_self, if_true]
  rw [decodeArgs_of_ok transfer_params hhex (by decide) hparse hdecode, hsplit]
  simp only [transferValues, List.zip_cons_cons, List.zip_nil_right, List.map_cons, List.map_nil, hto]
  rfl

theorem transfer_aligned :
    ∃ types bytes ts vs, extractParamList "transfer(address,uint256)".toList = some types ∧
      transferAlloy.hexDecode (String.ofList (strip0x transferInput.toList)) = .ok bytes ∧
      transferAlloy.parse (String.ofList ('(' :: (types ++ [')']))) = .ok (.tuple ts) ∧
      transferAlloy.abiDecodeParams (.tuple ts) (bytes.drop SELECTOR_BYTES) = .ok (.tuple vs) ∧
      Aligned types ts vs transferArgs :=
  decodeArgs_aligned transferAlloy "transfer(address,uint256)" transferAlloy_documented transferInput
    transferArgs decodeArgs_transfer

end Amarillo.L5
