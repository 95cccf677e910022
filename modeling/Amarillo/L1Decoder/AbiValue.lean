import Amarillo.Core.Decimal
import Amarillo.L1Decoder.Events

/-!
# Solidity values as JSON (`dynsol_to_json`, `decoder/src/abi.rs`)

`SolType` and `DynSolValue` are the types and values of `alloy::dyn_abi`; a `bytesN` is a
32-byte word with its size. `dynsolToJson` lowers a value to JSON, `Documented` says what the
rules on `DecodedArg` promise at every position, and `fromJson` reads a value back when its
type is known.

The size of a `bytesN` is not looked at: all 32 bytes are printed.

* `fromJson_dynsolToJson`: nothing is lost.
* `lowering_iff`: the documented form comes out exactly if every `bytesN` has all 32 bytes.
* `short_word_padded`: a `bytes4` printed with 64 digits.
-/
namespace Amarillo.L1
open Amarillo.Core

inductive SolType where
  | address
  | uint (bits : Nat)
  | int (bits : Nat)
  | bool
  | bytes
  | fixedBytes (size : Nat)
  | string
  | function
  | array (t : SolType)
  | fixedArray (t : SolType) (size : Nat)
  | tuple (ts : List SolType)

inductive DynSolValue where
  | bool (b : Bool)
  | int (n : BitVec 256) (bits : Nat)
  | uint (n : BitVec 256) (bits : Nat)
  | fixedBytes (word : B256) (size : Nat)
  | address (a : Address)
  | function (f : FixedBytes 24)
  | bytes (b : Bytes)
  | string (s : String)
  | array (items : List DynSolValue)
  | fixedArray (items : List DynSolValue)
  | tuple (items : List DynSolValue)
  | customStruct (name : String) (propNames : List String) (items : List DynSolValue)

/-! ## Values of a type -/

mutual
/-- The values of a type. A `function` has no documented form and is left out. -/
inductive HasType : SolType → DynSolValue → Prop
  | address (a : Address) : HasType .address (.address a)
  | uint {bits : Nat} {n : BitVec 256} (h : n.toNat < 2 ^ bits) : HasType (.uint bits) (.uint n bits)
  | int {bits : Nat} {n : BitVec 256} (h : -2 ^ (bits - 1) ≤ n.toInt) (h' : n.toInt < 2 ^ (bits - 1)) :
    HasType (.int bits) (.int n bits)
  | bool (b : Bool) : HasType .bool (.bool b)
  | bytes (b : Bytes) : HasType .bytes (.bytes b)
  | fixedBytes {size : Nat} (word : B256) (h : 1 ≤ size) (h' : size ≤ 32) :
    HasType (.fixedBytes size) (.fixedBytes word size)
  | string (s : String) : HasType .string (.string s)
  | array {t : SolType} {vs : List DynSolValue} (h : ∀ v ∈ vs, HasType t v) :
    HasType (.array t) (.array vs)
  | fixedArray {t : SolType} {vs : List DynSolValue} (h : ∀ v ∈ vs, HasType t v) :
    HasType (.fixedArray t vs.length) (.fixedArray vs)
  | tuple {ts : List SolType} {vs : List DynSolValue} (h : HasTypes ts vs) :
    HasType (.tuple ts) (.tuple vs)

inductive HasTypes : List SolType → List DynSolValue → Prop
  | nil : HasTypes [] []
  | cons {t : SolType} {ts : List SolType} {v : DynSolValue} {vs : List DynSolValue}
    (h : HasType t v) (h' : HasTypes ts vs) : HasTypes (t :: ts) (v :: vs)
end

/-! ## Lowering -/

mutual
/-- mirrors crates/decoder/src/abi.rs:193-213 -/
def dynsolToJson : DynSolValue → Json
  | .address a => .str ("0x" ++ bytesToHex a.bytes)
  | .uint n _ => .str n.toNat.repr
  | .int n _ => .str n.toInt.repr
  | .bool b => .bool b
  | .bytes b => .str ("0x" ++ bytesToHex b)
  | .fixedBytes w _ => .str ("0x" ++ bytesToHex w.bytes)
  | .string s => .str s
  | .array items => .arr (dynsolsToJson items)
  | .fixedArray items => .arr (dynsolsToJson items)
  | .tuple items => .arr (dynsolsToJson items)
  | .function _ => .null
  | .customStruct _ _ _ => .null

/-- `items.iter().map(dynsol_to_json)` -/
def dynsolsToJson : List DynSolValue → List Json
  | [] => []
  | v :: vs => dynsolToJson v :: dynsolsToJson vs
end

/-- `0x` and the hex digits of these bytes, two for each, in lowercase. -/
def HexText (bytes : Bytes) (j : Json) : Prop :=
  ∃ digits : String, j = .str ("0x" ++ digits) ∧ digits.toList.length = 2 * bytes.length ∧
    (∀ c ∈ digits.toList, c ∈ "0123456789abcdef".toList) ∧ hexDecode digits.toList = some bytes

mutual
/-- The documented form of a value. A `bytesN` has N bytes.
mirrors crates/decoder/src/abi.rs:66-93 -/
def Documented : DynSolValue → Json → Prop
  | .address a, j => HexText a.bytes j
  | .uint n _, j => j = .str n.toNat.repr
  | .int n _, j => j = .str n.toInt.repr
  | .bool b, j => j = .bool b
  | .bytes b, j => HexText b j
  | .fixedBytes w size, j => HexText (w.bytes.take size) j
  | .string s, j => j = .str s
  | .array items, j => ∃ js, j = .arr js ∧ DocumentedAll items js
  | .fixedArray items, j => ∃ js, j = .arr js ∧ DocumentedAll items js
  | .tuple items, j => ∃ js, j = .arr js ∧ DocumentedAll items js
  | .function _, _ => False
  | .customStruct _ _ _, _ => False

def DocumentedAll : List DynSolValue → List Json → Prop
  | [], js => js = []
  | v :: vs, js => ∃ j js', js = j :: js' ∧ Documented v j ∧ DocumentedAll vs js'
end

mutual
/-- Every `bytesN` in the value has N = 32. -/
def FullWords : DynSolValue → Prop
  | .fixedBytes _ size => size = 32
  | .array items => FullWordsAll items
  | .fixedArray items => FullWordsAll items
  | .tuple items => FullWordsAll items
  | .address _ => True
  | .uint _ _ => True
  | .int _ _ => True
  | .bool _ => True
  | .bytes _ => True
  | .string _ => True
  | .function _ => True
  | .customStruct _ _ _ => True

def FullWordsAll : List DynSolValue → Prop
  | [] => True
  | v :: vs => FullWords v ∧ FullWordsAll vs
end

/-! ## Reading a value back -/

/-- The bytes behind `0x`. -/
def readHex : Json → Option Bytes
  | .str s => if "0x".toList <+: s.toList then hexDecode (s.toList.drop 2) else none
  | _ => none

def FixedBytes.ofBytes? (n : Nat) (bytes : Bytes) : Option (FixedBytes n) :=
  if h : bytes.length = n then some ⟨bytes, h⟩ else none

mutual
def fromJson : SolType → Json → Option DynSolValue
  | .address, j => ((readHex j).bind (FixedBytes.ofBytes? 20)).map .address
  | .uint bits, .str s => (decNat s.toList).map fun n => .uint (.ofNat 256 n) bits
  | .int bits, .str s => (parseSigned s.toList).map fun n => .int (.ofInt 256 n) bits
  | .bool, .bool b => some (.bool b)
  | .bytes, j => (readHex j).map .bytes
  | .fixedBytes size, j => ((readHex j).bind (FixedBytes.ofBytes? 32)).map (.fixedBytes · size)
  | .string, .str s => some (.string s)
  | .array t, .arr js => (js.mapM fun j => fromJson t j).map .array
  | .fixedArray t size, .arr js =>
    if js.length = size then (js.mapM fun j => fromJson t j).map .fixedArray else none
  | .tuple ts, .arr js => (fromJsons ts js).map .tuple
  | _, _ => none

def fromJsons : List SolType → List Json → Option (List DynSolValue)
  | [], [] => some []
  | t :: ts, j :: js => (fromJson t j).bind fun v => (fromJsons ts js).map (v :: ·)
  | _, _ => none
end

theorem dynsolsToJson_eq (vs : List DynSolValue) : dynsolsToJson vs = vs.map dynsolToJson := by
  induction vs with
  | nil => rfl
  | cons v vs ih => rw [dynsolsToJson, ih, List.map_cons]

theorem readHex_hex (bytes : Bytes) : readHex (.str ("0x" ++ bytesToHex bytes)) = some bytes := by
  have htext : ("0x" ++ bytesToHex bytes).toList = "0x".toList ++ (bytesToHex bytes).toList :=
    String.toList_append
  have hdrop : ("0x".toList ++ (bytesToHex bytes).toList).drop 2 = (bytesToHex bytes).toList := rfl
  rw [readHex, htext, if_pos (List.prefix_append _ _), hdrop, hexDecode_bytesToHex]

theorem ofBytes?_bytes {n : Nat} (b : FixedBytes n) : FixedBytes.ofBytes? n b.bytes = some b :=
  dif_pos b.len

theorem mapM_fromJson {t : SolType} {vs : List DynSolValue}
    (h : ∀ v ∈ vs, fromJson t (dynsolToJson v) = some v) :
    ((dynsolsToJson vs).mapM fun j => fromJson t j) = some vs := by
  induction vs with
  | nil => rfl
  | cons v vs ih =>
    obtain ⟨hv, hvs⟩ := List.forall_mem_cons.mp h
    rw [dynsolsToJson, List.mapM_cons, hv, ih hvs]
    rfl

mutual
/-- The value can be read back from the JSON and its type. -/
theorem fromJson_dynsolToJson : ∀ {t : SolType} {v : DynSolValue}, HasType t v →
    fromJson t (dynsolToJson v) = some v
  | _, _, .address a => by
    rw [dynsolToJson, fromJson, readHex_hex, Option.bind_some, ofBytes?_bytes, Option.map_some]
  | _, _, .uint _ => by
    rw [dynsolToJson, fromJson, decNat_repr, Option.map_some, BitVec.ofNat_toNat, BitVec.setWidth_eq]
  | _, _, .int _ _ => by
    rw [dynsolToJson, fromJson, parseSigned_repr, Option.map_some, BitVec.ofInt_toInt]
  | _, _, .bool _ => rfl
  | _, _, .bytes b => by rw [dynsolToJson, fromJson, readHex_hex, Option.map_some]
  | _, _, .fixedBytes word _ _ => by
    rw [dynsolToJson, fromJson, readHex_hex, Option.bind_some, ofBytes?_bytes, Option.map_some]
  | _, _, .string _ => rfl
  | _, _, .array h => by
    rw [dynsolToJson, fromJson, mapM_fromJson fun v hv => fromJson_dynsolToJson (h v hv),
      Option.map_some]
  | _, _, .fixedArray h => by
    rw [dynsolToJson, fromJson, mapM_fromJson fun v hv => fromJson_dynsolToJson (h v hv),
      Option.map_some, dynsolsToJson_eq, List.length_map, if_pos rfl]
  | _, _, .tuple h => by
    rw [dynsolToJson, fromJson, fromJsons_dynsolsToJson h, Option.map_some]

theorem fromJsons_dynsolsToJson : ∀ {ts : List SolType} {vs : List DynSolValue}, HasTypes ts vs →
    fromJsons ts (dynsolsToJson vs) = some vs
  | _, _, .nil => rfl
  | _, _, .cons h h' => by
    rw [dynsolsToJson, fromJsons, fromJson_dynsolToJson h, fromJsons_dynsolsToJson h']
    rfl
end

/-! ## The documented form -/

theorem hexText_hex (bytes : Bytes) : HexText bytes (.str ("0x" ++ bytesToHex bytes)) :=
  ⟨bytesToHex bytes, rfl, bytesToHex_length bytes, fun _ hc => mem_bytesToHex hc,
    hexDecode_bytesToHex bytes⟩

/-- A word is printed as its first `size` bytes only if these are all. -/
theorem hexText_word {w : B256} {size : Nat} (h : size ≤ 32) :
    HexText (w.bytes.take size) (.str ("0x" ++ bytesToHex w.bytes)) ↔ size = 32 := by
  constructor
  · rintro ⟨digits, htext, hlength, -, -⟩
    have hdigits : "0x".toList ++ (bytesToHex w.bytes).toList = "0x".toList ++ digits.toList := by
      rw [← String.toList_append, ← String.toList_append, Json.str.inj htext]
    rw [← List.append_cancel_left hdigits, bytesToHex_length, List.length_take, w.len] at hlength
    omega
  · rintro rfl
    have htake : w.bytes.take 32 = w.bytes := List.take_of_length_le (Nat.le_of_eq w.len)
    rw [htake]
    exact hexText_hex w.bytes

theorem documented_arr {vs : List DynSolValue} :
    (∃ js, Json.arr (dynsolsToJson vs) = .arr js ∧ DocumentedAll vs js) ↔
      DocumentedAll vs (dynsolsToJson vs) := by
  constructor
  · rintro ⟨js, hjs, h⟩
    rw [Json.arr.inj hjs]
    exact h
  · exact fun h => ⟨_, rfl, h⟩

theorem documentedAll_cons (v : DynSolValue) (vs : List DynSolValue) :
    DocumentedAll (v :: vs) (dynsolsToJson (v :: vs)) ↔
      Documented v (dynsolToJson v) ∧ DocumentedAll vs (dynsolsToJson vs) := by
  rw [DocumentedAll, dynsolsToJson]
  constructor
  · rintro ⟨j, js, hjs, hj, hall⟩
    cases hjs
    exact ⟨hj, hall⟩
  · rintro ⟨hj, hall⟩
    exact ⟨_, _, rfl, hj, hall⟩

theorem documentedAll_iff {vs : List DynSolValue}
    (h : ∀ v ∈ vs, Documented v (dynsolToJson v) ↔ FullWords v) :
    DocumentedAll vs (dynsolsToJson vs) ↔ FullWordsAll vs := by
  induction vs with
  | nil => exact iff_of_true rfl trivial
  | cons v vs ih =>
    obtain ⟨hv, hvs⟩ := List.forall_mem_cons.mp h
    rw [documentedAll_cons, FullWordsAll, hv, ih hvs]

mutual
theorem documented_iff : ∀ {t : SolType} {v : DynSolValue}, HasType t v →
    (Documented v (dynsolToJson v) ↔ FullWords v)
  | _, _, .address a => iff_of_true (hexText_hex a.bytes) trivial
  | _, _, .uint _ => iff_of_true rfl trivial
  | _, _, .int _ _ => iff_of_true rfl trivial
  | _, _, .bool _ => iff_of_true rfl trivial
  | _, _, .bytes b => iff_of_true (hexText_hex b) trivial
  | _, _, .fixedBytes _ _ h' => hexText_word h'
  | _, _, .string _ => iff_of_true rfl trivial
  | _, _, .array h => by
    rw [Documented, dynsolToJson, FullWords, documented_arr]
    exact documentedAll_iff fun v hv => documented_iff (h v hv)
  | _, _, .fixedArray h => by
    rw [Documented, dynsolToJson, FullWords, documented_arr]
    exact documentedAll_iff fun v hv => documented_iff (h v hv)
  | _, _, .tuple h => by
    rw [Documented, dynsolToJson, FullWords, documented_arr]
    exact documented_tuple h

theorem documented_tuple : ∀ {ts : List SolType} {vs : List DynSolValue}, HasTypes ts vs →
    (DocumentedAll vs (dynsolsToJson vs) ↔ FullWordsAll vs)
  | _, _, .nil => iff_of_true rfl trivial
  | _, _, .cons h h' => by
    rw [documentedAll_cons, FullWordsAll, documented_iff h, documented_tuple h']
end

/-- **When the lowering follows its rules.** For every type built from addresses, sized
integers, booleans, byte strings and words, strings, tuples and arrays, and every value of it:
the JSON has the documented form at every position, in particular `0x` and 2N digits for a
`bytesN`, and gives the value back when its type is known, if and only if every `bytesN` in
the value has N = 32. -/
theorem lowering_iff (t : SolType) (v : DynSolValue) (h : HasType t v) :
    Documented v (dynsolToJson v) ∧ fromJson t (dynsolToJson v) = some v ↔ FullWords v := by
  rw [documented_iff h]
  exact and_iff_left (fromJson_dynsolToJson h)

/-- `[(true, -1)]` -/
def pairList : DynSolValue := .array [.tuple [.bool true, .int (.ofInt 256 (-1)) 24]]

theorem lowering_pairList :
    Documented pairList (dynsolToJson pairList) ∧
      fromJson (.array (.tuple [.bool, .int 24])) (dynsolToJson pairList) = some pairList ↔
    FullWords pairList :=
  lowering_iff (.array (.tuple [.bool, .int 24])) pairList (.array fun v hv => by
    rw [List.mem_singleton.mp hv]
    exact .tuple (.cons (.bool true) (.cons (.int (by decide) (by decide)) .nil)))

/-- A selector, `0xa9059cbb`, as a `bytes4`. -/
def selectorWord : B256 := ⟨[0xa9, 0x05, 0x9c, 0xbb] ++ List.replicate 28 0, rfl⟩

/-- It is printed with 64 digits. -/
theorem short_word_padded :
    HasType (.fixedBytes 4) (.fixedBytes selectorWord 4) ∧
    dynsolToJson (.fixedBytes selectorWord 4) =
      .str "0xa9059cbb00000000000000000000000000000000000000000000000000000000" ∧
    ¬Documented (.fixedBytes selectorWord 4) (dynsolToJson (.fixedBytes selectorWord 4)) := by
  have htype : HasType (.fixedBytes 4) (.fixedBytes selectorWord 4) :=
    .fixedBytes selectorWord (by decide) (by decide)
  refine ⟨htype, ?_, ?_⟩
  · have htext : "0x" ++ bytesToHex selectorWord.bytes =
        "0xa9059cbb00000000000000000000000000000000000000000000000000000000" := by decide +kernel
    rw [dynsolToJson, htext]
  · rw [documented_iff htype, FullWords]
    decide

end Amarillo.L1
