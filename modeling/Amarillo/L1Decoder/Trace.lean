import Mathlib
import Amarillo.Core.Num
import Amarillo.L1Decoder.Classifier

/-!
# Call traces and revert reasons (`decoder/src/trace.rs`)

`parseTrace` reads a `callTracer` JSON value into a tree of `CallFrame`s and
flattens it in pre-order, numbering depths from 0. A child that does not parse
is left out together with its subtree; only the root's failure is an error.
Hex numbers that do not fit (`gasUsed` in 64 bits, `value` in 128) become 0.

`decodeRevertReason` reads the return data of a failed call: the text of
`Error(string)`, the last byte of a `Panic(uint256)` code, the hex form of
anything else. `decodeAbiString` adds the length word to 64 in 64-bit
arithmetic: with overflow checks the addition panics, without them the wrapped
end lies before the start and the slice panics, so both builds panic on the
same length words (`decodeAbiString_panic_iff`).

* `nodes` lists the subtrees in pre-order; `flattenCallFrame_nodes` says the
  flat frames are their data, in the same positions.
-/
namespace Amarillo.L1
open Amarillo.Core

/-- `DecodeError`, the variants this crate's functions build.
mirrors crates/decoder/src/error.rs:4-29 -/
inductive DecodeError where
  | unknownTopic (topic : String)
  | abiDecode (msg : String)
  | missingField (field : String)
  | traceParse (msg : String)
  deriving DecidableEq, Repr

/-- How a call that returns `Result<_, E>` can fail to return `Ok`. -/
inductive Fault (E : Type) where
  | error (e : E)
  | panic
  deriving DecidableEq, Repr

/-- `serde_json::Value`; numbers keep their text. -/
inductive Json where
  | null
  | bool (b : Bool)
  | num (text : String)
  | str (s : String)
  | arr (xs : List Json)
  | obj (fields : List (String × Json))

def Json.get (name : String) : List (String × Json) → Option Json
  | [] => none
  | (k, v) :: rest => if k = name then some v else Json.get name rest

def Json.asStr : Json → Option String
  | .str s => some s
  | _ => none

/-- `json.get(name).and_then(|v| v.as_str())`. -/
def Json.getStr (name : String) (fields : List (String × Json)) : Option String :=
  (Json.get name fields).bind Json.asStr

/-! ## Frames -/

/-- The fields of a `CallFrame` other than its nested calls.
mirrors crates/decoder/src/trace.rs:5-25 -/
structure FrameData where
  callType : String
  fromAddr : String
  toAddr : Option String
  value : Option String
  gasUsed : Nat
  input : Option String
  output : Option String
  error : Option String
  deriving DecidableEq, Repr

inductive CallFrame where
  | mk (data : FrameData) (calls : List CallFrame)

def CallFrame.data : CallFrame → FrameData
  | .mk d _ => d

def CallFrame.calls : CallFrame → List CallFrame
  | .mk _ cs => cs

/-- A flattened frame. The source keeps `value` as a decimal string; here it is
the number that string denotes.
mirrors crates/decoder/src/trace.rs:37-57 -/
structure FlatFrame where
  depth : Int
  callType : String
  fromAddr : String
  toAddr : Option String
  value : Nat
  gasUsed : Int
  input : Option String
  output : Option String
  error : Option String
  deriving DecidableEq, Repr

variable (R : Runtime)

def Runtime.lowerString (s : String) : String := String.ofList (R.toLowercase s.toList)

def zeroAddress : String := "0x0000000000000000000000000000000000000000"

def missingType : DecodeError := .traceParse "missing 'type' field"

/-- The fields `parse_call_frame` reads, `none` without a string `type`.
mirrors crates/decoder/src/trace.rs:104-149 -/
def parseFields (fields : List (String × Json)) : Option FrameData :=
  (Json.getStr "type" fields).map fun callType =>
    { callType
      fromAddr := R.lowerString ((Json.getStr "from" fields).getD zeroAddress)
      toAddr := (Json.getStr "to" fields).map R.lowerString
      value := Json.getStr "value" fields
      gasUsed := ((Json.getStr "gasUsed" fields).bind fun s =>
        fromStrRadix16 (2 ^ 64) (strip0x s.toList)).getD 0
      input := Json.getStr "input" fields
      output := Json.getStr "output" fields
      error := Json.getStr "error" fields }

theorem parseFields_gasUsed {fields : List (String × Json)} {d : FrameData}
    (h : parseFields R fields = some d) : d.gasUsed < 2 ^ 64 := by
  obtain ⟨t, -, rfl⟩ := Option.map_eq_some_iff.mp h
  simp only
  cases hg : (Json.getStr "gasUsed" fields).bind fun s =>
    fromStrRadix16 (2 ^ 64) (strip0x s.toList) with
  | none => decide
  | some n =>
    obtain ⟨s, -, hs⟩ := Option.bind_eq_some_iff.mp hg
    exact fromStrRadix16_lt hs

mutual
/-- mirrors crates/decoder/src/trace.rs:104-172 -/
def parseCallFrame : Json → Except DecodeError CallFrame
  | .obj fields =>
    match parseFields R fields with
    | none => .error missingType
    | some d => .ok (.mk d (callsField fields))
  | .null => .error missingType
  | .bool _ => .error missingType
  | .num _ => .error missingType
  | .str _ => .error missingType
  | .arr _ => .error missingType

/-- The children: the elements of the first `calls` field, if it is an array. -/
def callsField : List (String × Json) → List CallFrame
  | [] => []
  | (k, v) :: rest => if k = "calls" then callsArray v else callsField rest

def callsArray : Json → List CallFrame
  | .arr xs => parseAll xs
  | .null => []
  | .bool _ => []
  | .num _ => []
  | .str _ => []
  | .obj _ => []

/-- `arr.iter().filter_map(|c| parse_call_frame(c).ok())`. -/
def parseAll : List Json → List CallFrame
  | [] => []
  | x :: xs =>
    match parseCallFrame x with
    | .ok f => f :: parseAll xs
    | .error _ => parseAll xs
end

theorem parseCallFrame_gasUsed {json : Json} {root : CallFrame}
    (h : parseCallFrame R json = .ok root) : root.data.gasUsed < 2 ^ 64 := by
  cases json with
  | obj fields =>
    rw [parseCallFrame] at h
    split at h
    · cases h
    · rename_i d hd
      cases h
      exact parseFields_gasUsed R hd
  | null => cases h
  | bool b => cases h
  | num t => cases h
  | str t => cases h
  | arr xs => cases h

/-- The decimal value: a `u128` in hex, 0 when absent or out of range.
mirrors crates/decoder/src/trace.rs:176-185 -/
def valueDecimal (value : Option String) : Nat :=
  (value.bind fun v => fromStrRadix16 (2 ^ 128) (strip0x v.toList)).getD 0

/-- mirrors crates/decoder/src/trace.rs:187-197 -/
def flatFrame (d : FrameData) (depth : Int) : FlatFrame where
  depth := depth
  callType := d.callType
  fromAddr := d.fromAddr
  toAddr := d.toAddr
  value := valueDecimal d.value
  gasUsed := asI64 d.gasUsed
  input := d.input
  output := d.output
  error := d.error

mutual
/-- The frames pushed to `out`. Depths stay far below `i32::MAX`.
mirrors crates/decoder/src/trace.rs:175-202 -/
def flattenCallFrame : CallFrame → Int → List FlatFrame
  | .mk d calls, depth => flatFrame d depth :: flattenCalls calls (depth + 1)

def flattenCalls : List CallFrame → Int → List FlatFrame
  | [], _ => []
  | c :: cs, depth => flattenCallFrame c depth ++ flattenCalls cs depth
end

/-- mirrors crates/decoder/src/trace.rs:28-34 -/
structure FlattenedTrace where
  txHash : String
  frames : List FlatFrame
  deriving DecidableEq, Repr

/-- mirrors crates/decoder/src/trace.rs:61-73 -/
def parseTrace (txHash : String) (traceJson : Json) : Except DecodeError FlattenedTrace :=
  (parseCallFrame R traceJson).map fun root =>
    { txHash, frames := flattenCallFrame root 0 }

/-! ## The tree behind the flat frames -/

mutual
/-- Every subtree of a frame, itself first, in pre-order. -/
def nodes : CallFrame → List CallFrame
  | .mk d calls => .mk d calls :: nodesAll calls

def nodesAll : List CallFrame → List CallFrame
  | [] => []
  | c :: cs => nodes c ++ nodesAll cs
end

/-- The frames below a frame. -/
def CallFrame.descendants (f : CallFrame) : List CallFrame := nodesAll f.calls

theorem nodes_eq (f : CallFrame) : nodes f = f :: f.descendants := by
  cases f
  rfl

/-- A flat frame shows the data of a frame. -/
def Shows (d : FrameData) (x : FlatFrame) : Prop := x = flatFrame d x.depth

mutual
/-- The flat frames are the frames of the tree in pre-order. -/
theorem flattenCallFrame_nodes : ∀ (f : CallFrame) (depth : Int),
    List.Forall₂ (fun n x => Shows n.data x) (nodes f) (flattenCallFrame f depth)
  | .mk _ calls, depth => .cons rfl (flattenCalls_nodes calls (depth + 1))

theorem flattenCalls_nodes : ∀ (cs : List CallFrame) (depth : Int),
    List.Forall₂ (fun n x => Shows n.data x) (nodesAll cs) (flattenCalls cs depth)
  | [], _ => .nil
  | c :: cs, depth =>
    List.rel_append (flattenCallFrame_nodes c depth) (flattenCalls_nodes cs depth)
end

mutual
theorem flattenCallFrame_depth : ∀ (f : CallFrame) (depth : Int),
    ∀ x ∈ flattenCallFrame f depth, depth ≤ x.depth
  | .mk d calls, depth, x, h => by
    rcases List.mem_cons.mp h with rfl | h
    · exact Int.le_refl _
    · have := flattenCalls_depth calls (depth + 1) x h
      omega

theorem flattenCalls_depth : ∀ (cs : List CallFrame) (depth : Int),
    ∀ x ∈ flattenCalls cs depth, depth ≤ x.depth
  | [], _, _, h => nomatch h
  | c :: cs, depth, x, h => by
    rcases List.mem_append.mp h with h | h
    · exact flattenCallFrame_depth c depth x h
    · exact flattenCalls_depth cs depth x h
end

/-- The first flat frame is the root. -/
theorem flattenCallFrame_head (f : CallFrame) (depth : Int) :
    (flattenCallFrame f depth).head? = some (flatFrame f.data depth) := by
  cases f
  rfl

/-- A property of the frames' data holds of the flat frames' data. -/
theorem flattenCallFrame_forall {P : FrameData → Prop} {Q : FlatFrame → Prop}
    (h : ∀ d depth, 0 ≤ depth → (Q (flatFrame d depth) ↔ P d)) (f : CallFrame) :
    (∀ x ∈ flattenCallFrame f 0, Q x) ↔ ∀ n ∈ nodes f, P n.data := by
  have hdepth := flattenCallFrame_depth f 0
  have hall := flattenCallFrame_nodes f 0
  generalize flattenCallFrame f 0 = xs at hdepth hall
  generalize nodes f = ns at hall
  induction hall with
  | nil => simp
  | cons hx _ ih =>
    obtain ⟨hhead, htail⟩ := List.forall_mem_cons.mp hdepth
    rw [List.forall_mem_cons, List.forall_mem_cons]
    refine and_congr ?_ (ih htail)
    rw [← h _ _ hhead, ← hx]

/-! ## Revert reasons -/

/-- A big-endian number. -/
def beNat (bytes : Bytes) : Nat := bytes.foldl (fun acc b => 256 * acc + b.toNat) 0

/-- mirrors crates/decoder/src/trace.rs:205-227 -/
def decodeAbiString (data : Bytes) : Except (Fault DecodeError) String :=
  if data.length < 64 then .error (.error (.abiDecode "ABI string data too short"))
  else
    -- only the last 8 bytes of the length word are read; the offset word is not
    let len := beNat ((data.drop 56).take 8)
    if 2 ^ 64 ≤ 64 + len ∧ R.overflowChecks = true then .error .panic
    else
      let strEnd := (64 + len) % 2 ^ 64
      if data.length < strEnd then .error (.error (.abiDecode "string length exceeds data"))
      else if strEnd < 64 then .error .panic
      else .ok (String.ofList (fromUtf8Lossy ((data.take strEnd).drop 64)))

/-- mirrors crates/decoder/src/trace.rs:79-99 -/
def decodeRevertReason (output : Bytes) : Except (Fault DecodeError) String :=
  if output.length < 4 then .ok ("0x" ++ bytesToHex output)
  else if output.take 4 = [0x08, 0xc3, 0x79, 0xa0] then decodeAbiString R (output.drop 4)
  else if output.take 4 = [0x4e, 0x48, 0x7b, 0x71] ∧ 36 ≤ output.length then
    .ok ("Panic(0x" ++ bytesToHex [output.getD 35 0] ++ ")")
  else .ok ("0x" ++ bytesToHex output)

theorem beNat_lt (bytes : Bytes) : beNat bytes < 256 ^ bytes.length := by
  have aux : ∀ (l : Bytes) (acc k : Nat), acc < 256 ^ k →
      l.foldl (fun acc b => 256 * acc + b.toNat) acc < 256 ^ (k + l.length) := by
    intro l
    induction l with
    | nil => intro acc k h; exact h
    | cons b bs ih =>
      intro acc k h
      have hb := b.toNat_lt
      have := ih (256 * acc + b.toNat) (k + 1) (by rw [Nat.pow_succ]; omega)
      rw [List.length_cons, show k + (bs.length + 1) = k + 1 + bs.length by omega]
      exact this
  have := aux bytes 0 0 (by decide)
  rwa [Nat.zero_add] at this

/-- A length word that wraps the end of the string around. -/
def WrapsLength (data : Bytes) : Prop :=
  64 ≤ data.length ∧ 2 ^ 64 ≤ 64 + beNat ((data.drop 56).take 8)

/-- Both builds panic on the same data. -/
theorem decodeAbiString_panic_iff (data : Bytes) :
    decodeAbiString R data = .error .panic ↔ WrapsLength data := by
  have hlt := beNat_lt ((data.drop 56).take 8)
  have h8 : ((data.drop 56).take 8).length ≤ 8 := List.length_take_le 8 _
  have hpow : 256 ^ ((data.drop 56).take 8).length ≤ 256 ^ 8 := Nat.pow_le_pow_right (by decide) h8
  unfold decodeAbiString WrapsLength
  simp only
  generalize beNat ((data.drop 56).take 8) = len at *
  by_cases h1 : data.length < 64
  · rw [if_pos h1]
    exact iff_of_false (by simp) (by omega)
  rw [if_neg h1]
  by_cases h2 : 2 ^ 64 ≤ 64 + len
  · refine iff_of_true ?_ ⟨by omega, h2⟩
    split
    · rfl
    · rw [if_neg (by omega), if_pos (by omega)]
  · rw [if_neg fun h => h2 h.1]
    refine iff_of_false ?_ fun h => h2 h.2
    split
    · simp
    · rw [if_neg (by omega)]
      simp

end Amarillo.L1
