import Amarillo.L3Indexer.ProcessBlock

/-!
# The root cause of a revert (`get_first_error_frame`)

The trace rows of a transaction are numbered in pre-order, and
`get_first_error_frame` takes the errored row with the least number. A revert
that bubbles up marks every frame from its origin to the root, and of these
the root comes first in pre-order: the query names the outermost errored frame.

* `firstErrorFrame_root`: if errors bubble up and some frame is errored, the
  row returned is the root's.
* `firstErrorFrame_innermost_iff`: the frame named has no errored descendant
  exactly when no frame below the root is errored.
-/
namespace Amarillo.L3
open Amarillo.Core Amarillo.L1 Amarillo.L2

def errored (f : CallFrame) : Prop := f.data.error.isSome = true

instance (f : CallFrame) : Decidable (errored f) := inferInstanceAs (Decidable (_ = _))

/-- Every ancestor of an errored frame is errored. -/
def BubblesUp (root : CallFrame) : Prop :=
  ∀ n ∈ nodes root, (∃ m ∈ n.descendants, errored m) → errored n

instance (root : CallFrame) : Decidable (BubblesUp root) := List.decidableBAll _ _

/-- A frame above an errored one ends as one of its own calls did. -/
def NoReasonOfItsOwn (root : CallFrame) : Prop :=
  ∀ n ∈ nodes root, (∃ m ∈ n.descendants, errored m) →
    ∃ c ∈ n.calls, errored c ∧ c.data.error = n.data.error ∧ c.data.output = n.data.output

instance (root : CallFrame) : Decidable (NoReasonOfItsOwn root) := List.decidableBAll _ _

/-- An errored frame without an errored descendant: the revert began there. -/
def Innermost (n : CallFrame) : Prop := errored n ∧ ∀ m ∈ n.descendants, ¬errored m

instance (n : CallFrame) : Decidable (Innermost n) := inferInstanceAs (Decidable (_ ∧ _))

/-- The row `t` is the `i`-th of a batch numbered from `base`, and `n` the
`i`-th frame of the tree in pre-order. -/
def Names (base : Nat) (root : CallFrame) (t : TraceLog) (n : CallFrame) : Prop :=
  ∃ i, t.traceId = base + i ∧ (nodes root)[i]? = some n

theorem root_errored {root : CallFrame} (hb : BubblesUp root) (he : ∃ n ∈ nodes root, errored n) :
    errored root := by
  obtain ⟨n, hn, hne⟩ := he
  have hroot : root ∈ nodes root := by
    rw [nodes_eq]
    exact List.mem_cons_self
  rw [nodes_eq] at hn
  rcases List.mem_cons.mp hn with rfl | hn
  · exact hne
  · exact hb root hroot ⟨n, hn, hne⟩

/-- The row of a frame as the table keeps it. -/
def storedRow (txHash : String) (f : CallFrame) (id : Nat) : TraceLog :=
  ((toTraceLog txHash (flatFrame f.data 0)).stored).withId id

theorem flattenCallFrame_cons (f : CallFrame) :
    flattenCallFrame f 0 = flatFrame f.data 0 :: flattenCalls f.calls 1 := by
  cases f
  rfl

/-- The query returns the root's row: it is the first of the transaction's
rows and it is errored. -/
theorem firstErrorFrame_root {env : Env} {txHash : String} {root : CallFrame} {pre post : List TraceLog}
    {db db' : Db}
    (hrun : exec env (.insertTraceLogs
      (pre ++ (flattenCallFrame root 0).map (toTraceLog txHash) ++ post)) db = .ok db')
    (hfresh : ∀ t ∈ db.traceLogs.rows ++ pre, t.txHash ≠ txHash) (he : errored root) :
    getFirstErrorFrame db' txHash = some (storedRow txHash root (db.traceLogs.next + pre.length)) := by
  have hrows : db'.traceLogs.rows = db.traceLogs.rows ++ Serial.number TraceLog.withId
      db.traceLogs.next ((pre ++ (flattenCallFrame root 0).map (toTraceLog txHash) ++ post).map
        TraceLog.stored) := by
    rw [(exec_applied hrun).traceLogs]
    rfl
  have hskip : ∀ n, List.find? (fun t => t.txHash = txHash && t.error.isSome)
      (Serial.number TraceLog.withId n (pre.map TraceLog.stored)) = none := by
    intro n
    refine List.find?_eq_none.mpr fun t ht => ?_
    have hmap := Serial.number_eq_map TraceLog.withId TraceLog.txHash (fun _ _ => rfl) n
      (pre.map TraceLog.stored)
    have hmem : t.txHash ∈ (pre.map TraceLog.stored).map TraceLog.txHash :=
      hmap ▸ List.mem_map_of_mem ht
    simp only [List.map_map, List.mem_map, Function.comp_apply, TraceLog.stored] at hmem
    obtain ⟨p, hp, hpt⟩ := hmem
    simp [← hpt, hfresh p (List.mem_append_right _ hp)]
  have hold : List.find? (fun t => t.txHash = txHash && t.error.isSome) db.traceLogs.rows = none :=
    List.find?_eq_none.mpr fun t ht => by simp [hfresh t (List.mem_append_left _ ht)]
  rw [getFirstErrorFrame_eq, hrows, List.find?_append, hold, Option.none_or, List.map_append,
    List.map_append, Serial.number_append, Serial.number_append, List.append_assoc,
    List.find?_append, hskip, Option.none_or, List.length_map, flattenCallFrame_cons, List.map_cons,
    List.map_cons, Serial.number, List.cons_append, List.find?_cons_of_pos]
  · rfl
  · simpa [storedRow, TraceLog.stored, TraceLog.withId, toTraceLog, flatFrame] using show root.data.error.isSome = true from he

/-- **The query names the origin only of a revert that never bubbled.** The
trace of `txHash` is parsed, flattened and inserted in a batch (with other
transactions around it) into a table that has no row of `txHash`; errors
bubble up and some frame is errored. Then the frame named by
`get_first_error_frame` is errored without an errored descendant if and only
if no frame below the root is errored. -/
theorem firstErrorFrame_innermost_iff (R : Runtime) {env : Env} {txHash : String} {json : Json}
    {trace : FlattenedTrace} {pre post : List TraceLog} {db db' : Db}
    (hparse : parseTrace R txHash json = .ok trace)
    (hrun : exec env (.insertTraceLogs (pre ++ trace.frames.map (toTraceLog txHash) ++ post)) db =
      .ok db')
    (hfresh : ∀ t ∈ db.traceLogs.rows ++ pre, t.txHash ≠ txHash) :
    ∃ root, parseCallFrame R json = .ok root ∧
      (BubblesUp root → (∃ n ∈ nodes root, errored n) →
        ((∃ t n, getFirstErrorFrame db' txHash = some t ∧
            Names (db.traceLogs.next + pre.length) root t n ∧ Innermost n) ↔
          ∀ m ∈ root.descendants, ¬errored m)) := by
  unfold parseTrace at hparse
  cases hroot : parseCallFrame R json with
  | error e => simp [hroot, Except.map] at hparse
  | ok root =>
    simp only [hroot, Except.map, Except.ok.injEq] at hparse
    subst hparse
    refine ⟨root, rfl, fun hb he => ?_⟩
    have herr := root_errored hb he
    have hfirst := firstErrorFrame_root hrun hfresh herr
    constructor
    · rintro ⟨t, n, ht, ⟨i, hid, hn⟩, hin⟩
      rw [hfirst, Option.some.injEq] at ht
      subst ht
      have hi : i = 0 := by
        simp only [storedRow, TraceLog.withId] at hid
        omega
      rw [hi, nodes_eq, List.getElem?_cons_zero, Option.some.injEq] at hn
      rw [hn]
      exact hin.2
    · intro h
      exact ⟨_, root, hfirst, ⟨0, rfl, by rw [nodes_eq, List.getElem?_cons_zero]⟩, herr, h⟩

def frame (fromAddr toAddr input : String) (gasUsed : Nat) (error : Option String) : FrameData where
  callType := "CALL"
  fromAddr := fromAddr
  toAddr := some toAddr
  value := none
  gasUsed := gasUsed
  input := some input
  output := none
  error := error

def frameJson (fromAddr toAddr input gasUsed : String) (error : Option String) (calls : List Json) :
    Json := .obj
  [("type", .str "CALL"), ("from", .str fromAddr), ("to", .str toAddr), ("gasUsed", .str gasUsed),
   ("input", .str input), ("error", (error.map Json.str).getD .null), ("calls", .arr calls)]

def reverted : Option String := some "execution reverted"

def traderAddr : String := "0x1111111111111111111111111111111111111111"
def routerAddr : String := "0x2222222222222222222222222222222222222222"
def tokenAddr : String := "0x3333333333333333333333333333333333333333"

/-- A router call `0x38ed1739` whose inner call `0x23b872dd` reverts, and the
error bubbles up. -/
def bubbledTrace : Json :=
  frameJson traderAddr routerAddr "0x38ed1739" "0xc350" reverted
    [frameJson routerAddr tokenAddr "0x23b872dd" "0x5208" reverted []]

def bubbledRoot : CallFrame :=
  .mk (frame traderAddr routerAddr "0x38ed1739" 50000 reverted)
    [.mk (frame routerAddr tokenAddr "0x23b872dd" 21000 reverted) []]

/-- The router itself reverts after its inner call returned. -/
def directTrace : Json :=
  frameJson traderAddr routerAddr "0x38ed1739" "0xc350" reverted
    [frameJson routerAddr tokenAddr "0x23b872dd" "0x5208" none []]

def directRoot : CallFrame :=
  .mk (frame traderAddr routerAddr "0x38ed1739" 50000 reverted)
    [.mk (frame routerAddr tokenAddr "0x23b872dd" 21000 none) []]

/-- A database that holds the one failed transaction `0xaa` of block 1. -/
def failedTxDb : Db :=
  { Db.empty with
    blocks := Table.empty.insertNew [⟨1, 1700000000, 30000000, some "0xb1", some "0xb0"⟩]
    transactions := Table.empty.insertNew
      [⟨"0xaa", traderAddr, some routerAddr, 1, 50000, 1, 0, 0, none⟩] }

/-- `failedTxDb` with the rows of a trace. -/
def tracedDb (root : CallFrame) : Db :=
  { failedTxDb with
    traceLogs := Serial.empty.append TraceLog.withId TraceLog.withId_traceId
      (((flattenCallFrame root 0).map (toTraceLog "0xaa")).map TraceLog.stored) }

/-- Triggers installed, at the time of the block. -/
def liveEnv : Env := ⟨true, 1700000000⟩

theorem direct_inserted : exec liveEnv (.insertTraceLogs
    ([] ++ (flattenCallFrame directRoot 0).map (toTraceLog "0xaa") ++ [])) failedTxDb =
      .ok (tracedDb directRoot) := by
  decide +kernel

theorem direct_rootCause :
    (∃ t n, getFirstErrorFrame (tracedDb directRoot) "0xaa" = some t ∧ Names 1 directRoot t n ∧
      Innermost n) ↔ ∀ m ∈ directRoot.descendants, ¬errored m := by
  obtain ⟨root, hroot, hiff⟩ := firstErrorFrame_innermost_iff (.asciiOnly true)
    (show parseTrace _ "0xaa" directTrace = .ok ⟨"0xaa", flattenCallFrame directRoot 0⟩ from rfl)
    direct_inserted (fun _ h => nomatch h)
  have hparse : parseCallFrame (.asciiOnly true) directTrace = .ok directRoot := rfl
  cases hparse.symm.trans hroot
  exact hiff (by decide) ⟨directRoot, by simp [nodes_eq], by decide⟩

theorem bubbled_inserted : exec liveEnv (.insertTraceLogs
    ([] ++ (flattenCallFrame bubbledRoot 0).map (toTraceLog "0xaa") ++ [])) failedTxDb =
      .ok (tracedDb bubbledRoot) := by
  decide +kernel

/-- The inner call reverted first, and the query names the router's call. -/
theorem bubbled_names_root :
    ¬ ∀ (R : Runtime) (env : Env) (txHash : String) (json : Json) (trace : FlattenedTrace)
      (db db' : Db) (root : CallFrame),
      parseTrace R txHash json = .ok trace → parseCallFrame R json = .ok root →
      exec env (.insertTraceLogs (trace.frames.map (toTraceLog txHash))) db = .ok db' →
      (∀ t ∈ db.traceLogs.rows, t.txHash ≠ txHash) →
      BubblesUp root → NoReasonOfItsOwn root → (∃ n ∈ nodes root, errored n) →
      ∃ t n, getFirstErrorFrame db' txHash = some t ∧ Names db.traceLogs.next root t n ∧
        Innermost n := by
  intro h
  obtain ⟨t, n, ht, ⟨i, hid, hn⟩, hin⟩ := h (.asciiOnly true) liveEnv "0xaa" bubbledTrace
    ⟨"0xaa", flattenCallFrame bubbledRoot 0⟩ failedTxDb (tracedDb bubbledRoot) bubbledRoot rfl rfl
    (by simpa using bubbled_inserted) (fun _ h => nomatch h) (by decide) (by decide)
    ⟨bubbledRoot, by simp [nodes_eq], by decide⟩
  have hfirst := firstErrorFrame_root bubbled_inserted (fun _ h => nomatch h) (by decide)
  rw [hfirst, Option.some.injEq] at ht
  subst ht
  have hi : i = 0 := by
    simp only [storedRow, TraceLog.withId] at hid
    have : failedTxDb.traceLogs.next + ([] : List TraceLog).length = failedTxDb.traceLogs.next := rfl
    omega
  rw [hi, nodes_eq, List.getElem?_cons_zero, Option.some.injEq] at hn
  rw [← hn] at hin
  exact absurd hin (by decide)

end Amarillo.L3
