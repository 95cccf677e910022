import Mathlib
import Amarillo.Core.Text
import Amarillo.L2Db.ByLabel
import Amarillo.L5Api.ListRoutes

/-!
# Label routes (`api/src/routes/contract_labels.rs`, `failed_tx.rs`)

`createContractLabel` checks and normalises a body and puts the label in;
`failedTxByLabel` answers with the failures of one owner's contracts. A call has passed
`AdminAuth` when it gets here: who may call is not the owner the label is for.

`failedTxByLabel_top`: the answer is the owner's contracts with the most failures.
`labels_isolated_iff`: calls for one owner leave every answer to another owner as it was
iff none of them writes an address that the other had labelled and to which a failed
transaction was sent. `label_takeover` shows one that does: the address has one row, and
the row changes hands.
-/
namespace Amarillo.L5
open Amarillo.Core Amarillo.L2

def ADDR_HEX_LEN : Nat := 40
def MAX_LABEL_LEN : Nat := 100
def MAX_OWNER_ID_LEN : Nat := 100

/-- `char::is_whitespace` -/
def isWhitespace (c : Char) : Bool :=
  let n := c.toNat
  decide (9 ≤ n ∧ n ≤ 13 ∨ n = 0x20 ∨ n = 0x85 ∨ n = 0xA0 ∨ n = 0x1680 ∨ 0x2000 ≤ n ∧ n ≤ 0x200A ∨
    n = 0x2028 ∨ n = 0x2029 ∨ n = 0x202F ∨ n = 0x205F ∨ n = 0x3000)

/-- `str::trim` -/
def trim (s : String) : String :=
  String.ofList ((s.toList.dropWhile isWhitespace).rdropWhile isWhitespace)

structure CreateLabelBody where
  address : String
  label : String
  ownerId : Option String
  deriving DecidableEq, Repr

/-- A digit is one byte, so the length in bytes is the number of digits.
mirrors crates/api/src/routes/contract_labels.rs:38-43 -/
def isEvmAddress (lower : String) : Bool :=
  match lower.toList with
  | '0' :: 'x' :: hex => hex.length = ADDR_HEX_LEN && hex.all fun c => (hexVal c).isSome
  | _ => false

/-- A blank owner is no owner. -/
def CreateLabelBody.ownerIdNorm (body : CreateLabelBody) : Option String :=
  body.ownerId.bind fun s => if trim s = "" then none else some (trim s)

/-- The address, label and owner that go to the database. -/
def CreateLabelBody.normalised (body : CreateLabelBody) :
    Except ApiError (String × String × Option String) :=
  let address := lower (trim body.address)
  let label := trim body.label
  if !isEvmAddress address then
    .error (.badRequest ("invalid `address` (expected 0x + 40 hex): " ++ body.address))
  else if label = "" then .error (.badRequest "`label` must be non-empty")
  else if MAX_LABEL_LEN < (utf8 label).length then
    .error (.badRequest s!"`label` too long (max {MAX_LABEL_LEN} bytes)")
  else if ∃ o ∈ body.ownerIdNorm, MAX_OWNER_ID_LEN < (utf8 o).length then
    .error (.badRequest s!"`owner_id` too long (max {MAX_OWNER_ID_LEN} bytes)")
  else .ok (address, label, body.ownerIdNorm)

/-- mirrors crates/api/src/routes/contract_labels.rs:50-89 -/
def createContractLabel (now : Int) (body : CreateLabelBody) (labels : Labels) :
    Except ApiError (Labels × ContractLabel) := do
  let (address, label, ownerId) ← body.normalised
  match upsertContractLabel now address label ownerId labels with
  | .ok created => .ok created
  | .error _ => .error (.internal "database error")

structure FailedTxByLabelQuery where
  fromTs : Option String
  toTs : Option String
  owner : Option String
  limit : Option Int

/-- mirrors crates/api/src/routes/failed_tx.rs:243-255 -/
def failedTxByLabel (parseRfc3339 : String → Option Int) (order : MostFailures) (labels : Labels)
    (db : Db) (q : FailedTxByLabelQuery) : Except ApiError (List FailedTxByLabelPoint) := do
  let fromTs ← parseTs parseRfc3339 q.fromTs "from"
  let toTs ← parseTs parseRfc3339 q.toTs "to"
  let owner := q.owner.filter fun s => decide (s ≠ "")
  let limit := max 1 (min (q.limit.getD 50) 200)
  match failedTxByLabelAggregate order labels db owner (fromTs.map ceilSecond)
      (toTs.map floorSecond) limit with
  | .ok rows => .ok rows
  | .error _ => .error (.internal "database error")

/-- An answer has the contracts with the most failures in the window, among those of the owner
it is asked for, or of everybody. -/
theorem failedTxByLabel_top {parseRfc3339 : String → Option Int} {order : MostFailures}
    {labels : Labels} {db : Db} {q : FailedTxByLabelQuery} {points : List FailedTxByLabelPoint}
    (h : failedTxByLabel parseRfc3339 order labels db q = .ok points) :
    ∃ fromTs toTs, parseTs parseRfc3339 q.fromTs "from" = .ok fromTs ∧
      parseTs parseRfc3339 q.toTs "to" = .ok toTs ∧
      TopOf (groupCounts (labelledFailures
          (ownedLabels labels (q.owner.filter fun s => decide (s ≠ ""))) db
          (fromTs.map ceilSecond) (toTs.map floorSecond)))
        (max 1 (min (q.limit.getD 50) 200)).toNat points := by
  obtain ⟨fromTs, hfrom, h⟩ := bind_ok h
  obtain ⟨toTs, hto, h⟩ := bind_ok h
  refine ⟨fromTs, toTs, hfrom, hto, ?_⟩
  cases hrows : failedTxByLabelAggregate order labels db (q.owner.filter fun s => decide (s ≠ ""))
      (fromTs.map ceilSecond) (toTs.map floorSecond) (max 1 (min (q.limit.getD 50) 200)) with
  | error e =>
    simp only [hrows] at h
    cases h
  | ok rows =>
    simp only [hrows] at h
    cases h
    exact failedTxByLabelAggregate_top hrows (by omega)

/-! ## One call -/

/-- The address a call writes, if it is accepted. -/
def CreateLabelBody.writes (body : CreateLabelBody) : Option String :=
  match body.normalised with
  | .ok (address, label, ownerId) =>
    if (ContractLabel.mk (lower address) label ownerId 0).accepted then some (lower address) else none
  | .error _ => none

/-- The table after a call; a refused one leaves it alone. -/
def applyCall (labels : Labels) (call : Int × CreateLabelBody) : Labels :=
  match createContractLabel call.1 call.2 labels with
  | .ok (labels', _) => labels'
  | .error _ => labels

def applyCalls (labels : Labels) (calls : List (Int × CreateLabelBody)) : Labels :=
  calls.foldl applyCall labels

theorem normalised_owner {body : CreateLabelBody} {address label : String} {ownerId : Option String}
    (h : body.normalised = .ok (address, label, ownerId)) : ownerId = body.ownerIdNorm := by
  unfold CreateLabelBody.normalised at h
  simp only at h
  split_ifs at h
  simp only [Except.ok.injEq, Prod.mk.injEq] at h
  exact h.2.2.symm

/-- A call puts in one label, for the owner it names at the address it writes, or does nothing. -/
theorem applyCall_cases (labels : Labels) (call : Int × CreateLabelBody) :
    (∃ row hrow, applyCall labels call = labels.put row hrow ∧
      row.ownerId = call.2.ownerIdNorm ∧ call.2.writes = some row.address) ∨
    (applyCall labels call = labels ∧ call.2.writes = none) := by
  obtain ⟨now, body⟩ := call
  unfold applyCall createContractLabel CreateLabelBody.writes
  cases hn : body.normalised with
  | error e => exact .inr ⟨rfl, rfl⟩
  | ok checked =>
    obtain ⟨address, label, ownerId⟩ := checked
    have howner := normalised_owner hn
    simp only [bind, Except.bind, upsertContractLabel]
    by_cases hrow : (ContractLabel.mk (lower address) label ownerId now).accepted
    · refine .inl ⟨_, hrow, ?_, howner, ?_⟩
      · rw [dif_pos hrow]
      · exact if_pos hrow
    · refine .inr ⟨?_, if_neg hrow⟩
      rw [dif_neg hrow]

theorem ownedLabels_applyCall (labels : Labels) {call : Int × CreateLabelBody} {tenant : String}
    (h : call.2.ownerIdNorm ≠ some tenant) : ownedLabels (applyCall labels call) (some tenant) =
      (ownedLabels labels (some tenant)).filter fun l => decide (call.2.writes ≠ some l.address) := by
  rcases applyCall_cases labels call with ⟨row, hrow, happly, howner, hwrites⟩ | ⟨happly, hwrites⟩
  · rw [happly, ownedLabels_put labels hrow (howner ▸ h), hwrites]
    refine List.filter_congr fun l _ => ?_
    simp [eq_comm]
  · rw [happly, hwrites]
    simp

/-! ## A sequence of calls -/

/-- What is left of an owner's labels after calls for another one: those no call wrote. -/
theorem ownedLabels_applyCalls (calls : List (Int × CreateLabelBody)) (labels : Labels)
    {tenant : String} (h : ∀ c ∈ calls, c.2.ownerIdNorm ≠ some tenant) :
    ownedLabels (applyCalls labels calls) (some tenant) =
      (ownedLabels labels (some tenant)).filter fun l =>
        decide (∀ c ∈ calls, c.2.writes ≠ some l.address) := by
  induction calls generalizing labels with
  | nil => simp [applyCalls]
  | cons c calls ih =>
    have hstep := ownedLabels_applyCall labels (h c List.mem_cons_self)
    have hrest := ih (applyCall labels c) fun x hx => h x (List.mem_cons_of_mem _ hx)
    rw [applyCalls, List.foldl_cons, ← applyCalls, hrest, hstep, List.filter_filter]
    refine List.filter_congr fun l _ => ?_
    by_cases hw : c.2.writes = some l.address
    · simp [hw]
    · simp [hw]

/-- Calls that write none of an owner's labels with failures leave its aggregate alone. -/
theorem aggregate_kept {labels : Labels} {db : Db} {calls : List (Int × CreateLabelBody)}
    {tenant : String} (h : ∀ c ∈ calls, c.2.ownerIdNorm ≠ some tenant)
    (hwrites : ∀ c ∈ calls, ∀ l ∈ labels.table.rows, l.ownerId = some tenant →
      c.2.writes = some l.address → failuresTo db none none l.address = [])
    (order : MostFailures) (fromTs toTs : Option Int) (limit : Int) :
    failedTxByLabelAggregate order (applyCalls labels calls) db (some tenant) fromTs toTs limit =
      failedTxByLabelAggregate order labels db (some tenant) fromTs toTs limit := by
  refine failedTxByLabelAggregate_congr ?_ order limit
  rw [ownedLabels_applyCalls calls labels h]
  refine labelledFailures_filter fun l hl hp => ?_
  obtain ⟨hrow, hlowner⟩ := mem_ownedLabels.mp hl
  rw [decide_eq_false_iff_not] at hp
  push Not at hp
  obtain ⟨c, hc, hwrite⟩ := hp
  exact failuresTo_window (hwrites c hc l hrow hlowner hwrite) fromTs toTs

/-- And so the answers to that owner's requests. -/
theorem failedTxByLabel_kept {labels : Labels} {db : Db} {calls : List (Int × CreateLabelBody)}
    {tenant : String} (h : ∀ c ∈ calls, c.2.ownerIdNorm ≠ some tenant)
    (hwrites : ∀ c ∈ calls, ∀ l ∈ labels.table.rows, l.ownerId = some tenant →
      c.2.writes = some l.address → failuresTo db none none l.address = [])
    (parseRfc3339 : String → Option Int) (order : MostFailures) {q : FailedTxByLabelQuery}
    (hq : q.owner = some tenant) (htenant : tenant ≠ "") :
    failedTxByLabel parseRfc3339 order (applyCalls labels calls) db q =
      failedTxByLabel parseRfc3339 order labels db q := by
  have howner : q.owner.filter (fun s => decide (s ≠ "")) = some tenant := by
    rw [hq, Option.filter_some, if_pos (by simpa using htenant)]
  unfold failedTxByLabel
  simp only [howner, aggregate_kept h hwrites]

/-- **Isolation of labels.** Calls for one owner leave the aggregate of another as it was,
for every window, limit and order of ties, iff each address they write that the other had
labelled has no failed transaction. -/
theorem labels_isolated_iff (labels : Labels) (db : Db) (owner : Option String) (tenant : String)
    (hne : owner ≠ some tenant) (calls : List (Int × CreateLabelBody))
    (hcalls : ∀ c ∈ calls, c.2.ownerIdNorm = owner) :
    (∀ order fromTs toTs limit,
      failedTxByLabelAggregate order (applyCalls labels calls) db (some tenant) fromTs toTs limit =
        failedTxByLabelAggregate order labels db (some tenant) fromTs toTs limit) ↔
    ∀ c ∈ calls, ∀ l ∈ labels.table.rows, l.ownerId = some tenant →
      c.2.writes = some l.address → failuresTo db none none l.address = [] := by
  have hother : ∀ c ∈ calls, c.2.ownerIdNorm ≠ some tenant := fun c hc => hcalls c hc ▸ hne
  constructor
  · intro hsame c hc l hl hlowner hwrites
    by_contra hfail
    -- before the calls the address shows, after them it cannot
    have htext : nullable text (some tenant) := hlowner ▸ (labels.accepted l hl).2.2
    obtain ⟨points, hpoints⟩ : ∃ points, failedTxByLabelAggregate (OrderBy.stable _) labels db
        (some tenant) none none 0 = .ok points := ⟨_, if_pos htext⟩
    have hafter := hsame (OrderBy.stable _) none none 0
    rw [hpoints] at hafter
    have hshown := (mem_aggregate_address hpoints l.address).mpr
      ⟨⟨l, mem_ownedLabels.mpr ⟨hl, hlowner⟩, rfl⟩, hfail⟩
    obtain ⟨⟨l', hl', haddress⟩, -⟩ := (mem_aggregate_address hafter l.address).mp hshown
    rw [ownedLabels_applyCalls calls labels hother, List.mem_filter, decide_eq_true_eq] at hl'
    exact hl'.2 c hc (haddress ▸ hwrites)
  · exact fun hcond => aggregate_kept hother hcond

/-! ## An address with two claimants -/

def botAddress : String := "0xfeed000000000000000000000000000000000bee"

/-- One failed transaction to the bot's contract. -/
def botDb : Db :=
  (execAll ⟨false, 0⟩
    [.insertBlocks [⟨1, 5, 0, none, none⟩],
     .insertTransactions [⟨"0xa", "0x1", some botAddress, 1, 21000, 1, 0, 0, none⟩],
     .insertFailedTransactions [failedRow "0xa"]] Db.empty).1

def bobLabels : Labels := applyCalls .empty [(1, ⟨botAddress, "bob's bot", some "bob"⟩)]

/-- A label of Alice's at another address. -/
def aliceRouter : CreateLabelBody :=
  ⟨"0xE592427A0AEce92De3Edee1F18E0157C05861564", "router", some "alice"⟩

/-- It is put in, and changes nothing for Bob. -/
theorem alice_elsewhere : aliceRouter.writes = some "0xe592427a0aece92de3edee1f18e0157c05861564" ∧
    ∀ order fromTs toTs limit,
      failedTxByLabelAggregate order (applyCalls bobLabels [(2, aliceRouter)]) botDb (some "bob")
          fromTs toTs limit =
        failedTxByLabelAggregate order bobLabels botDb (some "bob") fromTs toTs limit := by
  have key : aliceRouter.writes = some "0xe592427a0aece92de3edee1f18e0157c05861564" ∧
      (∀ c ∈ [((2 : Int), aliceRouter)], c.2.ownerIdNorm = some "alice") ∧
      ∀ c ∈ [((2 : Int), aliceRouter)], ∀ l ∈ bobLabels.table.rows, l.ownerId = some "bob" →
        c.2.writes = some l.address → failuresTo botDb none none l.address = [] := by
    decide +kernel
  obtain ⟨hwrites, halice, hfree⟩ := key
  exact ⟨hwrites,
    (labels_isolated_iff bobLabels botDb (some "alice") "bob" (by decide) _ halice).mpr hfree⟩

/-- A label of Alice's at Bob's address takes the row over, and Bob's answer is empty. -/
theorem label_takeover : CreateLabelBody.ownerIdNorm ⟨botAddress, "mine", some "alice"⟩ = some "alice" ∧
    (failedTxByLabelAggregate (OrderBy.stable _) bobLabels botDb (some "bob") none none 50).map
      (·.map (·.address)) = .ok [botAddress] ∧
    failedTxByLabelAggregate (OrderBy.stable _) (applyCalls bobLabels
      [(2, ⟨botAddress, "mine", some "alice"⟩)]) botDb (some "bob") none none 50 = .ok [] := by
  decide +kernel

end Amarillo.L5
