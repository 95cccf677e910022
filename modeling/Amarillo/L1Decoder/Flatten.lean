import Amarillo.Core.Rose
import Amarillo.L1Decoder.Trace

/-!
# What flattening keeps of a call tree

`callTree` is the tree of a `callTracer` value, read off the JSON alone: the
children of an object are the elements of its `calls` array, whether or not
they parse. `LosesNothing` says that the flat frames are this tree in
pre-order, that the tree can be rebuilt from them, and that an element which
does not parse makes the whole call fail.

Results:
* `losesNothing_iff`: it holds exactly of values whose root does not parse or
  whose elements all parse.
* `droppedCall_lost`: a nested call without a `type` disappears instead.
-/
namespace Amarillo.L1
open Amarillo.Core

/-! ## The tree of the JSON -/

mutual
def callTree : Json → Rose Json
  | .obj fields => .node (.obj fields) (fieldForest fields)
  | .null => .node .null []
  | .bool b => .node (.bool b) []
  | .num text => .node (.num text) []
  | .str s => .node (.str s) []
  | .arr xs => .node (.arr xs) []

def fieldForest : List (String × Json) → List (Rose Json)
  | [] => []
  | (k, v) :: rest => if k = "calls" then elementForest v else fieldForest rest

def elementForest : Json → List (Rose Json)
  | .arr xs => forest xs
  | .null => []
  | .bool _ => []
  | .num _ => []
  | .str _ => []
  | .obj _ => []

def forest : List Json → List (Rose Json)
  | [] => []
  | x :: xs => callTree x :: forest xs
end

variable (R : Runtime)

/-- What `parse_call_frame` reads of one frame, without its children. -/
def frameData : Json → Option FrameData
  | .obj fields => parseFields R fields
  | _ => none

theorem parseCallFrame_ok_iff (json : Json) :
    (∃ root, parseCallFrame R json = .ok root) ↔ (frameData R json).isSome = true := by
  cases json with
  | obj fields =>
    rw [parseCallFrame, frameData]
    cases parseFields R fields with
    | none => simp
    | some d => simp
  | null => simp [parseCallFrame, frameData]
  | bool b => simp [parseCallFrame, frameData]
  | num text => simp [parseCallFrame, frameData]
  | str s => simp [parseCallFrame, frameData]
  | arr xs => simp [parseCallFrame, frameData]

/-- The flat frame of one element at a depth. -/
def frameAt (depth : Nat) (json : Json) : Option FlatFrame :=
  (frameData R json).map fun d => flatFrame d depth

/-! ## Pre-order -/

/-- Every element listed parses. -/
def AllParse (elements : List (Nat × Json)) : Prop :=
  ∀ p ∈ elements, (frameData R p.2).isSome = true

theorem root_mem_preorder (json : Json) (depth : Nat) :
    (depth, json) ∈ (callTree json).preorder depth := by
  cases json with
  | obj fields => exact List.mem_cons_self
  | null => exact List.mem_cons_self
  | bool b => exact List.mem_cons_self
  | num text => exact List.mem_cons_self
  | str s => exact List.mem_cons_self
  | arr xs => exact List.mem_cons_self

mutual
/-- Where every element parses, the flat frames are the elements in pre-order. -/
theorem flatten_parse : ∀ (json : Json) (depth : Nat) (root : CallFrame),
    parseCallFrame R json = .ok root → AllParse R ((callTree json).preorder depth) →
      (flattenCallFrame root depth).map some =
        ((callTree json).preorder depth).map fun p => frameAt R p.1 p.2
  | .obj fields, depth, root, hroot, hall => by
    rw [parseCallFrame] at hroot
    rw [callTree, Rose.preorder] at hall ⊢
    obtain ⟨-, hrest⟩ := List.forall_mem_cons.mp hall
    cases hd : parseFields R fields with
    | none =>
      rw [hd] at hroot
      cases hroot
    | some d =>
      rw [hd] at hroot
      cases hroot
      have hfields := flatten_fields fields (depth + 1) hrest
      rw [flattenCallFrame, List.map_cons, List.map_cons, frameAt, frameData, hd]
      exact congrArg₂ _ rfl hfields
  | .null, _, _, hroot, _ => by cases hroot
  | .bool _, _, _, hroot, _ => by cases hroot
  | .num _, _, _, hroot, _ => by cases hroot
  | .str _, _, _, hroot, _ => by cases hroot
  | .arr _, _, _, hroot, _ => by cases hroot

theorem flatten_fields : ∀ (fields : List (String × Json)) (depth : Nat),
    AllParse R (Rose.preorderAll (fieldForest fields) depth) →
      (flattenCalls (callsField R fields) depth).map some =
        (Rose.preorderAll (fieldForest fields) depth).map fun p => frameAt R p.1 p.2
  | [], _, _ => rfl
  | (k, v) :: rest, depth, hall => by
    rw [fieldForest] at hall ⊢
    rw [callsField]
    by_cases hk : k = "calls"
    · rw [if_pos hk] at hall ⊢
      rw [if_pos hk]
      exact flatten_element v depth hall
    · rw [if_neg hk] at hall ⊢
      rw [if_neg hk]
      exact flatten_fields rest depth hall

theorem flatten_element : ∀ (v : Json) (depth : Nat),
    AllParse R (Rose.preorderAll (elementForest v) depth) →
      (flattenCalls (callsArray R v) depth).map some =
        (Rose.preorderAll (elementForest v) depth).map fun p => frameAt R p.1 p.2
  | .arr xs, depth, hall => flatten_all xs depth hall
  | .null, _, _ => rfl
  | .bool _, _, _ => rfl
  | .num _, _, _ => rfl
  | .str _, _, _ => rfl
  | .obj _, _, _ => rfl

theorem flatten_all : ∀ (xs : List Json) (depth : Nat),
    AllParse R (Rose.preorderAll (forest xs) depth) →
      (flattenCalls (parseAll R xs) depth).map some =
        (Rose.preorderAll (forest xs) depth).map fun p => frameAt R p.1 p.2
  | [], _, _ => rfl
  | x :: xs, depth, hall => by
    rw [forest, Rose.preorderAll] at hall ⊢
    obtain ⟨hx, hxs⟩ := List.forall_mem_append.mp hall
    obtain ⟨root, hroot⟩ := (parseCallFrame_ok_iff R x).mpr (hx _ (root_mem_preorder x depth))
    rw [parseAll, hroot]
    simp only
    rw [flattenCalls, List.map_append, List.map_append, flatten_parse x depth root hroot hx,
      flatten_all xs depth hxs]
end

/-! ## Nothing is lost -/

/-- Every element of every nested `calls` array, the root first. -/
def elements (json : Json) : List Json := ((callTree json).preorder 0).map Prod.snd

/-- A successful parse lists all elements in pre-order, the tree can be
rebuilt from the frames and their depths, and an element that does not parse
fails the call. -/
structure LosesNothing (json : Json) : Prop where
  frames : ∀ txHash trace, parseTrace R txHash json = .ok trace →
    trace.frames.map some = ((callTree json).preorder 0).map fun p => frameAt R p.1 p.2
  rebuilt : ∀ txHash trace, parseTrace R txHash json = .ok trace →
    Rose.rebuild (trace.frames.map fun x => (x.depth.toNat, some x)) =
      [(callTree json).mapDepth (frameAt R) 0]
  err : (∃ j ∈ elements json, frameData R j = none) →
    ∀ txHash, ∃ e, parseTrace R txHash json = .error e

theorem allParse_iff (json : Json) :
    AllParse R ((callTree json).preorder 0) ↔
      ∀ j ∈ elements json, (frameData R j).isSome = true := by
  rw [elements, List.forall_mem_map]
  exact Iff.rfl

theorem parseTrace_ok {txHash : String} {json : Json} {trace : FlattenedTrace}
    (h : parseTrace R txHash json = .ok trace) :
    ∃ root, parseCallFrame R json = .ok root ∧ trace.frames = flattenCallFrame root 0 := by
  unfold parseTrace at h
  cases hroot : parseCallFrame R json with
  | error e =>
    rw [hroot] at h
    cases h
  | ok root =>
    rw [hroot] at h
    cases h
    exact ⟨root, rfl, rfl⟩

theorem parseTrace_error {json : Json} (h : frameData R json = none) (txHash : String) :
    ∃ e, parseTrace R txHash json = .error e := by
  unfold parseTrace
  cases hroot : parseCallFrame R json with
  | error e => exact ⟨e, rfl⟩
  | ok root =>
    have := (parseCallFrame_ok_iff R json).mp ⟨root, hroot⟩
    rw [h] at this
    cases this

/-- Frames listed with their depths are the labels of the tree. -/
theorem rebuild_frames {frames : List FlatFrame} {json : Json}
    (hall : AllParse R ((callTree json).preorder 0))
    (h : frames.map some = ((callTree json).preorder 0).map fun p => frameAt R p.1 p.2) :
    Rose.rebuild (frames.map fun x => (x.depth.toNat, some x)) =
      [(callTree json).mapDepth (frameAt R) 0] := by
  have hdepth : ∀ p ∈ (callTree json).preorder 0,
      ((frameAt R p.1 p.2).elim 0 (·.depth.toNat), frameAt R p.1 p.2) =
        (p.1, frameAt R p.1 p.2) := by
    intro p hp
    obtain ⟨d, hd⟩ := Option.isSome_iff_exists.mp (hall p hp)
    rw [frameAt, hd]
    exact congrArg₂ _ (Int.toNat_natCast _) rfl
  have hlabels : frames.map (fun x => (x.depth.toNat, some x)) =
      ((callTree json).mapDepth (frameAt R) 0).preorder 0 := by
    calc frames.map (fun x => (x.depth.toNat, some x))
        = (frames.map some).map fun o => (o.elim 0 (·.depth.toNat), o) := by
          rw [List.map_map]
          rfl
      _ = ((callTree json).preorder 0).map fun p => (p.1, frameAt R p.1 p.2) := by
          rw [h, List.map_map]
          exact List.map_congr_left hdepth
      _ = ((callTree json).mapDepth (frameAt R) 0).preorder 0 :=
          (Rose.preorder_mapDepth _ _ _).symm
  rw [hlabels, Rose.rebuild_preorder]

/-- No call is lost exactly where the root does not parse or every nested
element does. -/
theorem losesNothing_iff (json : Json) :
    LosesNothing R json ↔
      frameData R json = none ∨ ∀ j ∈ elements json, (frameData R j).isSome = true := by
  constructor
  · intro h
    by_contra hc
    obtain ⟨hroot, helem⟩ := not_or.mp hc
    obtain ⟨root, hok⟩ := (parseCallFrame_ok_iff R json).mpr (Option.isSome_iff_ne_none.mpr hroot)
    -- the root parses, so the call does, whatever its elements are
    obtain ⟨j, hj, hbad⟩ : ∃ j ∈ elements json, frameData R j = none := by
      simpa using helem
    obtain ⟨e, he⟩ := h.err ⟨j, hj, hbad⟩ ""
    rw [parseTrace, hok] at he
    cases he
  · rintro (hroot | hall)
    · have habsurd : ∀ txHash trace, parseTrace R txHash json ≠ .ok trace := by
        intro txHash trace hok
        obtain ⟨e, he⟩ := parseTrace_error R hroot txHash
        rw [hok] at he
        cases he
      exact ⟨fun txHash trace hok => absurd hok (habsurd txHash trace),
        fun txHash trace hok => absurd hok (habsurd txHash trace),
        fun _ txHash => parseTrace_error R hroot txHash⟩
    · have hframes : ∀ txHash trace, parseTrace R txHash json = .ok trace →
          trace.frames.map some = ((callTree json).preorder 0).map fun p => frameAt R p.1 p.2 := by
        intro txHash trace hok
        obtain ⟨root, hroot, hframes⟩ := parseTrace_ok R hok
        rw [hframes]
        exact flatten_parse R json 0 root hroot ((allParse_iff R json).mpr hall)
      refine ⟨hframes, ?_, ?_⟩
      · intro txHash trace hok
        exact rebuild_frames R ((allParse_iff R json).mpr hall) (hframes txHash trace hok)
      · rintro ⟨j, hj, hbad⟩
        have := hall j hj
        rw [hbad] at this
        cases this

/-- A call whose nested call has no `type`. -/
def droppedCall : Json :=
  .obj [("type", .str "CALL"), ("calls", .arr [.obj [("from", .str "0x01")]])]

/-- The nested call vanishes and the parse succeeds. -/
theorem droppedCall_lost :
    (parseTrace (.asciiOnly true) "" droppedCall).map (·.frames.length) = .ok 1 ∧
      (elements droppedCall).length = 2 ∧ ¬ LosesNothing (.asciiOnly true) droppedCall := by
  refine ⟨rfl, rfl, ?_⟩
  intro h
  obtain ⟨e, he⟩ := h.err ⟨_, List.mem_cons_of_mem _ List.mem_cons_self, rfl⟩ ""
  cases he

end Amarillo.L1
