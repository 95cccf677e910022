import Amarillo.Core.Decimal
import Amarillo.L3Indexer.ProcessBlock

/-!
# The numbers of a trace

`value` and `gasUsed` of a call frame are hexadecimal texts. On the way to a `trace_log` row
`value` is read as a `u128`, printed in decimal and read again as a `BigDecimal`; `gasUsed` is
read as a `u64` and cast to `i64`. Each step has its own fallback, and none of them fails.

`frameObjects` are the JSON objects that become frames, in pre-order, so that a row can be
compared with the texts it comes from.

* `traceRows_objects`: one row for each of these objects.
* `storedValue_eq`: the decimal text changes nothing.
* `trace_numbers_iff`: a row carries the numbers of its object exactly if the value is below
  `2 ^ 128` and the gas below `2 ^ 63`.
* `wide_call_lost`: a value that becomes 0 and gas that becomes negative.
-/
namespace Amarillo.L3
open Amarillo.Core Amarillo.L1 Amarillo.L2

/-! ## Hexadecimal texts -/

/-- `s` writes `n` in hexadecimal: digits of either case, `0x` or not in front. -/
def HexForm (s : String) (n : Nat) : Prop :=
  strip0x s.toList ≠ [] ∧ hexNat (strip0x s.toList) = some n

instance (s : String) (n : Nat) : Decidable (HexForm s n) := inferInstanceAs (Decidable (_ ∧ _))

/-- A digit is no sign. -/
theorem stripPlus_of_hexNat {s : List Char} {n : Nat} (h : hexNat s = some n) : stripPlus s = s := by
  unfold stripPlus
  split
  · have hplus : hexVal '+' = none := by decide
    rw [hexNat, List.foldlM_cons, hplus] at h
    cases h
  · rfl

theorem fromStrRadix16_hexForm {s : String} {n : Nat} (h : HexForm s n) (bound : Nat) :
    fromStrRadix16 bound (strip0x s.toList) = if n < bound then some n else none := by
  rw [fromStrRadix16, stripPlus_of_hexNat h.2, if_neg h.1, h.2]
  rfl

/-! ## The decimal text between -/

/-- The text `flatten_call_frame` stores.
mirrors crates/decoder/src/trace.rs:176-185 -/
def valueText (value : Option String) : String :=
  match value with
  | none => "0"
  | some v =>
    match fromStrRadix16 (2 ^ 128) (strip0x v.toList) with
    | some n => n.repr
    | none => "0"

/-- The text as a `BigDecimal`.
mirrors crates/indexer/src/worker.rs:556-557 -/
def storedValue (value : Option String) : Int := (parseSigned (valueText value).toList).getD 0

theorem valueText_eq (value : Option String) : valueText value = (valueDecimal value).repr := by
  unfold valueText valueDecimal
  cases value with
  | none => rfl
  | some v =>
    rw [Option.bind_some]
    simp only
    cases fromStrRadix16 (2 ^ 128) (strip0x v.toList) with
    | none => rfl
    | some n => rfl

theorem storedValue_eq (value : Option String) : storedValue value = valueDecimal value := by
  rw [storedValue, valueText_eq, parseSigned_nat]
  rfl

theorem toTraceLog_value (txHash : String) (d : FrameData) (depth : Int) :
    (toTraceLog txHash (flatFrame d depth)).value = storedValue d.value := (storedValue_eq d.value).symm

/-! ## The objects behind the rows -/

mutual
/-- The objects that become frames, in pre-order. -/
def frameObjects : Json → List (List (String × Json))
  | .obj fields =>
    if (Json.getStr "type" fields).isSome then fields :: callObjects fields else []
  | .null => []
  | .bool _ => []
  | .num _ => []
  | .str _ => []
  | .arr _ => []

def callObjects : List (String × Json) → List (List (String × Json))
  | [] => []
  | (k, v) :: rest => if k = "calls" then arrayObjects v else callObjects rest

def arrayObjects : Json → List (List (String × Json))
  | .arr xs => allObjects xs
  | .null => []
  | .bool _ => []
  | .num _ => []
  | .str _ => []
  | .obj _ => []

def allObjects : List Json → List (List (String × Json))
  | [] => []
  | x :: xs => frameObjects x ++ allObjects xs
end

/-- The objects of a traced transaction. -/
def TraceAnswer.objects : TraceAnswer → List (List (String × Json))
  | .callTracer (some json) => frameObjects json
  | _ => []

section Objects
variable (R : Runtime)

/-- A frame is read from an object. -/
def ReadFrom (fields : List (String × Json)) (f : CallFrame) : Prop := parseFields R fields = some f.data

theorem parseFields_isSome (fields : List (String × Json)) :
    (parseFields R fields).isSome = (Json.getStr "type" fields).isSome := by
  rw [parseFields, Option.isSome_map]

theorem parseCallFrame_obj (fields : List (String × Json)) :
    parseCallFrame R (.obj fields) = match parseFields R fields with
      | none => .error missingType
      | some d => .ok (.mk d (callsField R fields)) := rfl

mutual
theorem nodes_objects : ∀ (json : Json),
    List.Forall₂ (ReadFrom R) (frameObjects json)
      ((parseCallFrame R json).toOption.elim [] nodes)
  | .obj fields => by
    have htype := parseFields_isSome R fields
    rw [frameObjects, parseCallFrame_obj]
    cases hd : parseFields R fields with
    | none =>
      rw [hd] at htype
      rw [← htype]
      exact .nil
    | some d =>
      rw [hd] at htype
      rw [← htype]
      exact .cons hd (nodesAll_callObjects fields)
  | .null => .nil
  | .bool _ => .nil
  | .num _ => .nil
  | .str _ => .nil
  | .arr _ => .nil

theorem nodesAll_callObjects : ∀ (fields : List (String × Json)),
    List.Forall₂ (ReadFrom R) (callObjects fields) (nodesAll (callsField R fields))
  | [] => .nil
  | (k, v) :: rest => by
    rw [callObjects, callsField]
    by_cases hk : k = "calls"
    · rw [if_pos hk, if_pos hk]
      exact nodesAll_arrayObjects v
    · rw [if_neg hk, if_neg hk]
      exact nodesAll_callObjects rest

theorem nodesAll_arrayObjects : ∀ (json : Json),
    List.Forall₂ (ReadFrom R) (arrayObjects json) (nodesAll (callsArray R json))
  | .arr xs => nodesAll_allObjects xs
  | .null => .nil
  | .bool _ => .nil
  | .num _ => .nil
  | .str _ => .nil
  | .obj _ => .nil

theorem nodesAll_allObjects : ∀ (xs : List Json),
    List.Forall₂ (ReadFrom R) (allObjects xs) (nodesAll (parseAll R xs))
  | [] => .nil
  | x :: xs => by
    have hx := nodes_objects x
    have hxs := nodesAll_allObjects xs
    rw [allObjects, parseAll]
    cases hp : parseCallFrame R x with
    | ok f =>
      rw [hp] at hx
      exact List.rel_append hx hxs
    | error e =>
      rw [hp] at hx
      cases hobjects : frameObjects x with
      | nil => exact hxs
      | cons fields rest =>
        rw [hobjects] at hx
        cases hx
end

/-- The row is that of a frame read from the object. -/
def RowOf (txHash : String) (fields : List (String × Json)) (log : TraceLog) : Prop :=
  ∃ d depth, parseFields R fields = some d ∧ log = toTraceLog txHash (flatFrame d depth)

theorem rowOf_flatten (txHash : String) (json : Json) :
    List.Forall₂ (RowOf R txHash) (frameObjects json)
      (((parseCallFrame R json).toOption.elim [] (flattenCallFrame · 0)).map (toTraceLog txHash)) := by
  have hnodes := nodes_objects R json
  cases hp : parseCallFrame R json with
  | error e =>
    rw [hp] at hnodes
    cases hobjects : frameObjects json with
    | nil => exact .nil
    | cons fields rest =>
      rw [hobjects] at hnodes
      cases hnodes
  | ok root =>
    rw [hp] at hnodes
    have hflat := flattenCallFrame_nodes root 0
    simp only [Except.toOption, Option.elim_some] at hnodes ⊢
    generalize flattenCallFrame root 0 = flat at hflat
    generalize nodes root = ns at hnodes hflat
    generalize frameObjects json = objects at hnodes
    induction hnodes generalizing flat with
    | nil =>
      cases hflat
      exact .nil
    | cons hread _ ih =>
      cases hflat with
      | cons hshows hrest =>
        exact .cons ⟨_, _, hread, congrArg (toTraceLog txHash) hshows⟩ (ih _ hrest)

/-- The rows of a transaction are those of its objects. -/
theorem traceRows_objects (trace : String → TraceAnswer) (txHash : String) :
    List.Forall₂ (RowOf R txHash) (trace txHash).objects (traceRowsOf R trace txHash) := by
  unfold traceRowsOf traceFrames TraceAnswer.objects
  cases trace txHash with
  | failed => exact .nil
  | other => exact .nil
  | callTracer json =>
    cases json with
    | none => exact .nil
    | some json =>
      have hrows := rowOf_flatten R txHash json
      simp only [parseTrace]
      cases hp : parseCallFrame R json with
      | error e =>
        rw [hp] at hrows
        exact hrows
      | ok root =>
        rw [hp] at hrows
        exact hrows

end Objects

/-! ## The numbers -/

/-- The object states a 256-bit value and 64-bit gas. -/
structure States (fields : List (String × Json)) (value gasUsed : Nat) : Prop where
  value_lt : value < 2 ^ 256
  gasUsed_lt : gasUsed < 2 ^ 64
  value_text : ∃ s, Json.getStr "value" fields = some s ∧ HexForm s value
  gasUsed_text : ∃ s, Json.getStr "gasUsed" fields = some s ∧ HexForm s gasUsed

/-- The row carries the numbers that its object states. -/
def Faithful (log : TraceLog) (value gasUsed : Nat) : Prop :=
  log.value = value ∧ log.gasUsed = gasUsed

theorem asI64_eq_iff {n : Nat} (h : n < 2 ^ 64) : asI64 n = n ↔ n < 2 ^ 63 := by
  constructor
  · intro heq
    have := asI64_lt n
    omega
  · exact asI64_of_lt

theorem valueDecimal_eq_iff {s : String} {n : Nat} (h : HexForm s n) :
    valueDecimal (some s) = n ↔ n < 2 ^ 128 := by
  rw [valueDecimal, Option.bind_some, fromStrRadix16_hexForm h]
  split
  · rename_i hlt
    exact iff_of_true rfl hlt
  · rename_i hge
    refine iff_of_false ?_ hge
    rw [Option.getD_none]
    omega

theorem faithful_iff {R : Runtime} {txHash : String} {fields : List (String × Json)} {log : TraceLog}
    (hrow : RowOf R txHash fields log) {value gasUsed : Nat} (hs : States fields value gasUsed) :
    Faithful log value gasUsed ↔ value < 2 ^ 128 ∧ gasUsed < 2 ^ 63 := by
  obtain ⟨d, depth, hd, rfl⟩ := hrow
  obtain ⟨t, -, rfl⟩ := Option.map_eq_some_iff.mp hd
  obtain ⟨v, hv, hvalue⟩ := hs.value_text
  obtain ⟨g, hg, hgas⟩ := hs.gasUsed_text
  have hread : fromStrRadix16 (2 ^ 64) (strip0x g.toList) = some gasUsed := by
    rw [fromStrRadix16_hexForm hgas, if_pos hs.gasUsed_lt]
  unfold Faithful toTraceLog flatFrame
  simp only [hv, hg, Option.bind_some, hread, Option.getD_some]
  rw [Nat.cast_inj, valueDecimal_eq_iff hvalue, asI64_eq_iff hs.gasUsed_lt]

/-- **When trace numbers are stored faithfully.** For whatever the node answers, every object
of a trace that has a type becomes a row, in pre-order; no number makes the parse fail. A row
whose object states a 256-bit value and 64-bit gas carries these numbers, through the hex, the
cast and the decimal text, if and only if the value is below `2 ^ 128` and the gas below
`2 ^ 63`. -/
theorem trace_numbers_iff (R : Runtime) (trace : String → TraceAnswer) (txHash : String) :
    List.Forall₂ (fun fields log => log.value = storedValue (Json.getStr "value" fields) ∧
        ∀ value gasUsed, States fields value gasUsed →
          (Faithful log value gasUsed ↔ value < 2 ^ 128 ∧ gasUsed < 2 ^ 63))
      (trace txHash).objects (traceRowsOf R trace txHash) := by
  refine (traceRows_objects R trace txHash).imp fun fields log hrow => ⟨?_, fun value gasUsed hs => ?_⟩
  · obtain ⟨d, depth, hd, rfl⟩ := hrow
    obtain ⟨t, -, rfl⟩ := Option.map_eq_some_iff.mp hd
    exact toTraceLog_value txHash _ depth
  · exact faithful_iff hrow hs

/-- A call with `2 ^ 128` wei that used `2 ^ 63` gas. -/
def wideFields : List (String × Json) :=
  [("type", .str "CALL"), ("value", .str "0x100000000000000000000000000000000"),
    ("gasUsed", .str "0x8000000000000000")]

/-- Its row has the value 0 and negative gas. -/
theorem wide_call_lost :
    States wideFields (2 ^ 128) (2 ^ 63) ∧
    ∃ log, traceRowsOf (.asciiOnly true) (fun _ => .callTracer (some (.obj wideFields))) "0xaa" = [log] ∧
      log.value = 0 ∧ log.gasUsed = -2 ^ 63 ∧ ¬Faithful log (2 ^ 128) (2 ^ 63) := by
  refine ⟨⟨by decide, by decide, ⟨_, rfl, by decide +kernel⟩, ⟨_, rfl, by decide +kernel⟩⟩,
    _, rfl, by decide +kernel, by decide +kernel, ?_⟩
  intro h
  have hvalue : (0 : Int) = (2 ^ 128 : Nat) := h.1
  cases hvalue

end Amarillo.L3
