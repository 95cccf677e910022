import Amarillo.Core.Batch
import Amarillo.Core.Paging
import Amarillo.L4Alerts.Dispatch

/-!
# Cycles of one dispatcher (`dispatch_once`)

A cycle takes the first `batch` pending pairs in the order of their transaction
hashes, which says nothing about pairs of one hash, and ends when its tasks have. A
pair that ends undelivered is pending again and stands where it stood.

* `all_attempted`: with `P` the pending pairs, `⌈|P| / L⌉` cycles attempt all of them
  if at most `⌈|P| / L⌉ * L - |P|` places of these batches are lost, on attempts that
  do not deliver before the last cycle, or on pairs that were not pending at first.
* `room_needed`: if no two pairs share a hash and every attempt is recorded, they
  attempt all of them only then.
* `starved`: a webhook that is down takes every place of a batch of one.
-/
namespace Amarillo.L4
open Amarillo.Core Amarillo.L2

variable {κ : Type} [LinearOrder κ]

def Alerts.pending (s : Alerts) : List AlertMatch :=
  pendingAlertMatches s.db s.subscriptions s.ledger s.now claimStaleAfterSecs

/-- `ORDER BY f.tx_hash`, in the collation of the database. -/
abbrev ByTxHash (collate : String → κ) := OrderBy fun m : AlertMatch => collate m.txHash

/-- mirrors crates/db/src/queries.rs:1000-1034 -/
def findPendingAlertMatches {collate : String → κ} (order : ByTxHash collate) (s : Alerts)
    (limit : Nat) : List AlertMatch :=
  limitOffset limit 0 (order.sort s.pending)

/-- The tasks take their steps, and time passes. -/
def Working (_ : Alerts) : DispatchLabel → Prop
  | .change _ _ => False
  | .find _ => False
  | _ => True

instance (s : Alerts) : (l : DispatchLabel) → Decidable (Working s l)
  | .change _ _ => instDecidableFalse
  | .find _ => instDecidableFalse
  | .tick _ => instDecidableTrue
  | .claim _ => instDecidableTrue
  | .send _ => instDecidableTrue
  | .answer _ _ => instDecidableTrue
  | .record _ => instDecidableTrue
  | .stop _ => instDecidableTrue

def DispatchTask.isEnded (t : DispatchTask) : Prop := t.pc = .ended t.pc.reached

instance (t : DispatchTask) : Decidable t.isEnded := inferInstanceAs (Decidable (_ = _))

/-- The cycle has found `items` and spawns a task for each. -/
def Alerts.spawn (s : Alerts) (items : List AlertMatch) : Alerts :=
  { s with tasks := items.map fun item => ⟨item, .spawned⟩ }

/-- mirrors crates/indexer/src/alerts.rs:348-397 -/
structure DispatchOnce (unsafeUrl : String → Option String) (collate : String → κ) (batch : Nat)
    (s : Alerts) (items : List AlertMatch) (s' : Alerts) : Prop where
  idle : ∀ t ∈ s.tasks, t.isEnded
  query : ∃ order : ByTxHash collate, items = findPendingAlertMatches order s batch
  work : ∃ ls, ((dispatch unsafeUrl).restrict Working).Run (s.spawn items) ls s'
  ended : ∀ t ∈ s'.tasks, t.isEnded

def pairsOf (items : List AlertMatch) : Finset Pair := (items.map AlertMatch.pair).toFinset

/-- The pair's row says so. -/
def Alerts.Delivered (s : Alerts) (p : Pair) : Prop :=
  ∃ d ∈ s.ledger.get p, d.status = .delivered

instance (s : Alerts) : DecidablePred s.Delivered := fun p =>
  inferInstanceAs (Decidable (∃ d ∈ s.ledger.get p, _))

/-! ## Pending pairs -/

/-- What the query asks of a pair, but for its row in the ledger. -/
def Matching (db : Db) (subscriptions : Table AlertSubscription.subscriptionId) (m : AlertMatch) :
    Prop :=
  ∃ x ∈ subscriptions.rows, ∃ f ∈ db.failedTransactions.rows,
    (∀ c ∈ x.errorCategory, c = f.errorCategory) ∧ x.active = true ∧ x.subType = .perEvent ∧
    (∀ a ∈ x.toAddr, (db.transactions.get f.txHash).bind Transaction.toAddr = some a) ∧
    m = ⟨x.subscriptionId, f.txHash, x.webhookUrl, x.signingSecret⟩

section Pending
variable {s s' : Alerts} {m : AlertMatch}

theorem mem_pending : m ∈ s.pending ↔ Matching s.db s.subscriptions m ∧
    ¬∃ d ∈ s.ledger.get m.pair, settled s.now claimStaleAfterSecs d := by
  unfold Alerts.pending pendingAlertMatches
  simp only [List.mem_flatMap, List.mem_filterMap]
  constructor
  · rintro ⟨x, hx, f, hf, hm⟩
    split at hm
    · rename_i hc
      obtain ⟨hcat, hactive, hsub, haddr, hopen⟩ := hc
      cases hm
      exact ⟨⟨x, hx, f, hf, hcat, hactive, hsub, haddr, rfl⟩, hopen⟩
    · cases hm
  · rintro ⟨⟨x, hx, f, hf, hcat, hactive, hsub, haddr, rfl⟩, hopen⟩
    exact ⟨x, hx, f, hf, if_pos ⟨hcat, hactive, hsub, haddr, hopen⟩⟩

theorem not_delivered_of_pending (h : m ∈ s.pending) : ¬s.Delivered m.pair := by
  rintro ⟨d, hd, hst⟩
  exact (mem_pending.mp h).2 ⟨d, hd, .inl hst⟩

/-- Each subscription finds each transaction once. -/
theorem nodup_pending (s : Alerts) : (s.pending.map AlertMatch.pair).Nodup := by
  unfold Alerts.pending pendingAlertMatches
  rw [List.Nodup, List.pairwise_map, List.pairwise_flatMap]
  refine ⟨fun x _ => ?_, ?_⟩
  · rw [List.pairwise_filterMap]
    refine (List.pairwise_map.mp s.db.failedTransactions.unique).imp ?_
    intro f g hne m hm m' hm'
    split at hm <;> cases hm
    split at hm' <;> cases hm'
    exact fun e => hne (congrArg Prod.snd e)
  · refine (List.pairwise_map.mp s.subscriptions.unique).imp ?_
    intro x y hne m hm m' hm'
    obtain ⟨f, -, hf⟩ := List.mem_filterMap.mp hm
    obtain ⟨g, -, hg⟩ := List.mem_filterMap.mp hm'
    split at hf <;> cases hf
    split at hg <;> cases hg
    exact fun e => hne (congrArg Prod.fst e)

end Pending

/-! ## What a cycle does -/

/-- From `s` to `s'` only the rows of `items` have changed. -/
structure Cycled (items : List AlertMatch) (s s' : Alerts) : Prop where
  db : s'.db = s.db
  subscriptions : s'.subscriptions = s.subscriptions
  now : s.now ≤ s'.now
  tasks : s'.tasks.map DispatchTask.item = items
  row : ∀ p ∉ pairsOf items, s'.ledger.get p = s.ledger.get p

section Cycle
variable {unsafeUrl : String → Option String} {collate : String → κ} {batch : Nat}
  {items : List AlertMatch} {s s' : Alerts} {l : DispatchLabel}

theorem map_item_set {i : Nat} {t a : DispatchTask} (ht : s.tasks[i]? = some t)
    (hitem : a.item = t.item) :
    (s.tasks.set i a).map DispatchTask.item = s.tasks.map DispatchTask.item := by
  obtain ⟨hi, rfl⟩ := List.getElem?_eq_some_iff.mp ht
  rw [List.map_set, hitem, ← List.getElem_map DispatchTask.item, List.set_getElem_self]
  simpa using hi

theorem mem_pairsOf {items : List AlertMatch} {p : Pair} :
    p ∈ pairsOf items ↔ ∃ m ∈ items, m.pair = p := by
  simp [pairsOf]

/-- A task writes the row of its own pair. -/
theorem row_of_task {i : Nat} {t : DispatchTask} (ht : s.tasks[i]? = some t) {p : Pair}
    (hp : p ∉ pairsOf (s.tasks.map DispatchTask.item)) : t.item.pair ≠ p := fun e =>
  hp (mem_pairsOf.mpr ⟨t.item, List.mem_map_of_mem (List.mem_of_getElem? ht), e⟩)

theorem working_step (h : dispatchStep unsafeUrl s l = some s') (hl : Working s l) :
    Cycled (s.tasks.map DispatchTask.item) s s' := by
  cases dispatchStep_effect h with
  | changed db subscriptions => exact hl.elim
  | found hitem => exact hl.elim
  | ticked d => exact ⟨rfl, rfl, by simp, rfl, fun _ _ => rfl⟩
  | claimed htask hclaim =>
    refine ⟨rfl, rfl, le_rfl, map_item_set htask rfl, fun p hp => ?_⟩
    have hne := row_of_task htask hp
    rw [show Table.get _ p = _ from tryClaimAlertMatch_get hclaim p, if_neg fun e => hne e.2]
  | recorded htask hrecord =>
    refine ⟨rfl, rfl, le_rfl, map_item_set htask rfl, fun p hp => ?_⟩
    have hne := row_of_task htask hp
    rw [show Table.get _ p = _ from recordAlertDelivery_get hrecord p, if_neg hne]
  | unclaimed htask hclaim => exact ⟨rfl, rfl, le_rfl, map_item_set htask rfl, fun _ _ => rfl⟩
  | sent htask => exact ⟨rfl, rfl, le_rfl, map_item_set htask rfl, fun _ _ => rfl⟩
  | answered error htask => exact ⟨rfl, rfl, le_rfl, map_item_set htask rfl, fun _ _ => rfl⟩
  | unrecorded htask hrecord => exact ⟨rfl, rfl, le_rfl, map_item_set htask rfl, fun _ _ => rfl⟩
  | stopped htask => exact ⟨rfl, rfl, le_rfl, map_item_set htask rfl, fun _ _ => rfl⟩

theorem Cycled.trans {s'' : Alerts} (h : Cycled items s s') (h' : Cycled items s' s'') :
    Cycled items s s'' :=
  ⟨h'.db.trans h.db, h'.subscriptions.trans h.subscriptions, h.now.trans h'.now, h'.tasks,
    fun p hp => (h'.row p hp).trans (h.row p hp)⟩

theorem DispatchOnce.cycled (h : DispatchOnce unsafeUrl collate batch s items s') :
    Cycled items s s' := by
  obtain ⟨ls, hrun⟩ := h.work
  have hstart : Cycled items (s.spawn items) (s.spawn items) := by
    refine ⟨rfl, rfl, le_rfl, ?_, fun _ _ => rfl⟩
    simp [Alerts.spawn, Function.comp_def]
  have hend : Cycled items (s.spawn items) s' :=
    hrun.keeps (I := Cycled items (s.spawn items)) (fun s₁ l s₂ hi hstep => by
      have := working_step hstep.1 hstep.2
      rw [hi.tasks] at this
      exact hi.trans this) hstart
  exact ⟨hend.db, hend.subscriptions, hend.now, hend.tasks, hend.row⟩

/-- An item that was not taken stays pending. -/
theorem Cycled.pending (h : Cycled items s s') {m : AlertMatch} (hm : m ∈ s.pending)
    (hnot : m.pair ∉ pairsOf items) : m ∈ s'.pending := by
  rw [mem_pending] at hm ⊢
  rw [h.db, h.subscriptions, h.row _ hnot]
  refine ⟨hm.1, ?_⟩
  rintro ⟨d, hd, hset⟩
  have hnow := h.now
  refine hm.2 ⟨d, hd, hset.imp id fun hc => ⟨hc.1, ?_⟩⟩
  have := hc.2
  omega

end Cycle

/-! ## Enough cycles -/

section Cycles
variable {unsafeUrl : String → Option String} {collate : String → κ} {batch N : Nat}
  {s : Nat → Alerts} {items : Nat → List AlertMatch}

theorem mem_findPending {order : ByTxHash collate} {s : Alerts} {m : AlertMatch}
    (h : m ∈ findPendingAlertMatches order s batch) : m ∈ s.pending :=
  (order.perm s.pending).mem_iff.mp (mem_of_mem_limitOffset h)

/-- The tasks of a cycle have different pairs. -/
theorem card_pairsOf_findPending (order : ByTxHash collate) (s : Alerts) :
    (pairsOf (findPendingAlertMatches order s batch)).card =
      (findPendingAlertMatches order s batch).length := by
  have hnodup : ((findPendingAlertMatches order s batch).map AlertMatch.pair).Nodup :=
    (((order.perm s.pending).map AlertMatch.pair).nodup_iff.mpr (nodup_pending s)).sublist
      ((limitOffset_sublist _ _ _).map AlertMatch.pair)
  rw [pairsOf, List.toFinset_card_of_nodup hnodup, List.length_map]

theorem DispatchOnce.found {s s' : Alerts} {items : List AlertMatch}
    (h : DispatchOnce unsafeUrl collate batch s items s') {m : AlertMatch} (hm : m ∈ items) :
    m ∈ s.pending := by
  obtain ⟨order, hq⟩ := h.query
  exact mem_findPending (hq ▸ hm)

theorem DispatchOnce.undelivered {s s' : Alerts} {items : List AlertMatch}
    (h : DispatchOnce unsafeUrl collate batch s items s') {p : Pair} (hp : p ∈ pairsOf items) :
    ¬s.Delivered p := by
  obtain ⟨m, hm, rfl⟩ := mem_pairsOf.mp hp
  exact not_delivered_of_pending (h.found hm)

theorem DispatchOnce.stays {s s' : Alerts} {items : List AlertMatch}
    (h : DispatchOnce unsafeUrl collate batch s items s') {p : Pair} (hp : s.Delivered p) :
    s'.Delivered p := by
  have hnot : p ∉ pairsOf items := fun hmem => h.undelivered hmem hp
  unfold Alerts.Delivered
  rw [h.cycled.row p hnot]
  exact hp

theorem pending_of_not_attempted
    (h : ∀ k < N, DispatchOnce unsafeUrl collate batch (s k) (items k) (s (k + 1))) {m : AlertMatch}
    (hm : m ∈ (s 0).pending) {k : Nat} (hk : k ≤ N) (hnot : ∀ j < k, m.pair ∉ pairsOf (items j)) :
    m ∈ (s k).pending := by
  induction k with
  | zero => exact hm
  | succ k ih =>
    have hbefore := ih (by omega) fun j hj => hnot j (by omega)
    exact (h k hk).cycled.pending hbefore (hnot k (Nat.lt_succ_self k))

theorem rounds_of_cycles
    (h : ∀ k < N, DispatchOnce unsafeUrl collate batch (s k) (items k) (s (k + 1))) :
    Rounds (pairsOf (s 0).pending) batch N (fun k => pairsOf (items k)) fun k => (s k).Delivered where
  undone k hk _ hp := (h k hk).undelivered hp
  stays k hk _ hp := (h k hk).stays hp
  full := by
    intro k hk p hp hnever
    obtain ⟨order, hq⟩ := (h k hk).query
    obtain ⟨m, hm, rfl⟩ := mem_pairsOf.mp hp
    have hpending := pending_of_not_attempted h hm hk.le fun j hj => hnever j hj.le
    have hout : m ∉ items k := fun hmem => hnever k le_rfl (mem_pairsOf.mpr ⟨m, hmem, rfl⟩)
    rw [hq] at hout ⊢
    rw [card_pairsOf_findPending]
    exact (length_firstPage_of_notMem order hpending hout).ge

end Cycles

/-! ## Undelivered pairs come again -/

/-- No claim is open: the pairs left out by the query are delivered. -/
def Alerts.Quiet (s : Alerts) : Prop :=
  ∀ p, ∀ d ∈ s.ledger.get p, settled s.now claimStaleAfterSecs d → d.status = .delivered

/-- The outcome of every task has reached the ledger. -/
def AllRecorded (items : List AlertMatch) (s' : Alerts) : Prop :=
  ∀ p ∈ pairsOf items, ∃ d ∈ s'.ledger.get p, d.status ≠ .claimed

section Again
variable {unsafeUrl : String → Option String} {collate : String → κ} {batch N : Nat}
  {items : List AlertMatch} {s s' : Alerts}

theorem Cycled.quiet (h : Cycled items s s') (hq : s.Quiet) (hrec : AllRecorded items s') :
    s'.Quiet := by
  intro p d hd hset
  by_cases hp : p ∈ pairsOf items
  · obtain ⟨d', hd', hne⟩ := hrec p hp
    cases hd.symm.trans hd'
    exact hset.resolve_right fun hc => hne hc.1
  · rw [h.row p hp] at hd
    have hnow := h.now
    refine hq p d hd (hset.imp id fun hc => ⟨hc.1, ?_⟩)
    have := hc.2
    omega

/-- A pair that is not delivered is pending again. -/
theorem Cycled.pending_again (h : Cycled items s s') (hq : s'.Quiet) {m : AlertMatch}
    (hm : m ∈ s.pending) (hnot : ¬s'.Delivered m.pair) : m ∈ s'.pending := by
  rw [mem_pending] at hm ⊢
  rw [h.db, h.subscriptions]
  refine ⟨hm.1, ?_⟩
  rintro ⟨d, hd, hset⟩
  exact hnot ⟨d, hd, hq _ d hd hset⟩

/-- No pair becomes pending. -/
theorem DispatchOnce.pending_subset (h : DispatchOnce unsafeUrl collate batch s items s')
    (hq : s.Quiet) : s'.pending ⊆ s.pending := by
  intro m hm
  have hcycled := h.cycled
  rw [mem_pending] at hm ⊢
  rw [hcycled.db, hcycled.subscriptions] at hm
  refine ⟨hm.1, ?_⟩
  rintro ⟨d, hd, hset⟩
  have hdelivered : s.Delivered m.pair := ⟨d, hd, hq _ d hd hset⟩
  obtain ⟨d', hd', hst⟩ := h.stays hdelivered
  exact hm.2 ⟨d', hd', .inl hst⟩

end Again

/-! ## Results -/

/-- `⌈|P| / L⌉` for the pairs `P` pending in `s`. -/
def sweep (L : Nat) (s : Alerts) : Nat := pageCount L (pairsOf s.pending).card

/-- The places of `N` batches lost to the pairs pending in `s 0`. -/
def lostPlaces (N : Nat) (s : Nat → Alerts) (items : Nat → List AlertMatch) : Nat :=
  ∑ k ∈ Finset.range N, (lost (pairsOf (s 0).pending) N (fun k => pairsOf (items k))
    (fun k => (s k).Delivered) k).card

/-- **No starvation while there is room.** In `⌈|P| / L⌉` cycles every pair of `P` is
attempted, if the places lost are no more than `⌈|P| / L⌉ * L - |P|`. -/
theorem all_attempted (unsafeUrl : String → Option String) (collate : String → κ) (L : Nat)
    (s : Nat → Alerts) (items : Nat → List AlertMatch)
    (h : ∀ k < sweep L (s 0), DispatchOnce unsafeUrl collate L (s k) (items k) (s (k + 1)))
    (hroom : (pairsOf (s 0).pending).card + lostPlaces (sweep L (s 0)) s items ≤
      sweep L (s 0) * L) :
    ∀ p ∈ pairsOf (s 0).pending, ∃ k < sweep L (s 0), p ∈ pairsOf (items k) :=
  fun _ hp => (rounds_of_cycles h).all_tried hroom hp

/-! ## Computed cycles -/

/-- The code point order. -/
abbrev byTxHash : ByTxHash String.toList := OrderBy.stable _

/-- The states between cycles that take `items k` and do `work k`. -/
def cycleRun (s : Alerts) (items : Nat → List AlertMatch) (work : Nat → List DispatchLabel) :
    Nat → Alerts
  | 0 => s
  | k + 1 => (LTS.exec (LTS.guarded openStep Working)
      ((cycleRun s items work k).spawn (items k)) (work k)).getD s

/-- Cycle `k` takes place as planned. -/
def Planned (batch : Nat) (s : Alerts) (items : Nat → List AlertMatch)
    (work : Nat → List DispatchLabel) (k : Nat) : Prop :=
  (∀ t ∈ (cycleRun s items work k).tasks, t.isEnded) ∧
  findPendingAlertMatches byTxHash (cycleRun s items work k) batch = items k ∧
  (LTS.exec (LTS.guarded openStep Working)
    ((cycleRun s items work k).spawn (items k)) (work k)).isSome = true ∧
  ∀ t ∈ (cycleRun s items work (k + 1)).tasks, t.isEnded

instance (batch : Nat) (s : Alerts) (items : Nat → List AlertMatch)
    (work : Nat → List DispatchLabel) (k : Nat) : Decidable (Planned batch s items work k) :=
  inferInstanceAs (Decidable (_ ∧ _ ∧ _ ∧ _))

theorem Planned.once {batch k : Nat} {s : Alerts} {items : Nat → List AlertMatch}
    {work : Nat → List DispatchLabel} (h : Planned batch s items work k) :
    DispatchOnce (fun _ => none) String.toList batch (cycleRun s items work k) (items k)
      (cycleRun s items work (k + 1)) := by
  obtain ⟨hidle, hquery, hexec, hended⟩ := h
  obtain ⟨s', hs'⟩ := Option.isSome_iff_exists.mp hexec
  have hnext : cycleRun s items work (k + 1) = s' := by
    rw [cycleRun, hs', Option.getD_some]
  refine ⟨hidle, ⟨byTxHash, hquery.symm⟩, ⟨work k, ?_⟩, hended⟩
  rw [hnext]
  exact LTS.run_of_guarded hs'

/-- Three failures for one webhook, which is down for the first. -/
def flakyAlerts : Alerts where
  db := { Db.empty with
    failedTransactions := Table.empty.insertNew
      [⟨"0xaa", .unknown, none, none, 50000, 0⟩, ⟨"0xbb", .unknown, none, none, 50000, 0⟩,
       ⟨"0xcc", .unknown, none, none, 50000, 0⟩] }
  subscriptions := pendingAlerts.subscriptions
  ledger := .empty
  now := 0
  tasks := []

def flakyItems : Nat → List AlertMatch
  | 0 => [hookMatch, { hookMatch with txHash := "0xbb" }]
  | _ => [hookMatch, { hookMatch with txHash := "0xcc" }]

def flakyWork (_ : Nat) : List DispatchLabel :=
  [.claim 0, .claim 1, .send 1, .send 0, .answer 1 none, .record 1,
   .answer 0 (some "http: connection refused"), .record 0, .tick 30000000]

theorem flaky_attempted : ∃ k < sweep 2 flakyAlerts, (1, "0xcc") ∈ pairsOf (flakyItems k) := by
  have hrun : ∀ k < sweep 2 flakyAlerts, Planned 2 flakyAlerts flakyItems flakyWork k := by
    decide +kernel
  exact all_attempted (fun _ => none) String.toList 2 (cycleRun flakyAlerts flakyItems flakyWork)
    flakyItems (fun k hk => (hrun k hk).once) (by decide +kernel) (1, "0xcc") (by decide +kernel)

/-- If no two pairs share a hash and every outcome is recorded, the room is needed. -/
theorem room_needed (unsafeUrl : String → Option String) (collate : String → κ) (L : Nat)
    (s : Nat → Alerts) (items : Nat → List AlertMatch)
    (h : ∀ k < sweep L (s 0), DispatchOnce unsafeUrl collate L (s k) (items k) (s (k + 1)))
    (hhash : ∀ m ∈ (s 0).pending, ∀ m' ∈ (s 0).pending,
      collate m.txHash = collate m'.txHash → m = m')
    (hquiet : (s 0).Quiet) (hrec : ∀ k < sweep L (s 0), AllRecorded (items k) (s (k + 1)))
    (hall : ∀ p ∈ pairsOf (s 0).pending, ∃ k < sweep L (s 0), p ∈ pairsOf (items k)) :
    (pairsOf (s 0).pending).card + lostPlaces (sweep L (s 0)) s items ≤ sweep L (s 0) * L := by
  have hquiets : ∀ k ≤ sweep L (s 0), (s k).Quiet := by
    intro k hk
    induction k with
    | zero => exact hquiet
    | succ k ih => exact (h k hk).cycled.quiet (ih (by omega)) (hrec k hk)
  have hsub : ∀ k ≤ sweep L (s 0), (s k).pending ⊆ (s 0).pending := by
    intro k hk
    induction k with
    | zero => exact List.Subset.refl _
    | succ k ih => exact List.Subset.trans ((h k hk).pending_subset (hquiets k (by omega))) (ih (by omega))
  refine room hall (fun k hk p hp => ?_) (fun k hk => ?_) fun k hk p hp hnot => ?_
  · obtain ⟨m, hm, rfl⟩ := mem_pairsOf.mp hp
    exact mem_pairsOf.mpr ⟨m, hsub k hk.le ((h k hk).found hm), rfl⟩
  · obtain ⟨order, hq⟩ := (h k hk).query
    rw [hq, card_pairsOf_findPending]
    exact List.length_take_le _ _
  · have hk' : k < sweep L (s 0) := by omega
    obtain ⟨m, hm, rfl⟩ := mem_pairsOf.mp hp
    obtain ⟨order, hq⟩ := (h k hk').query
    obtain ⟨order', hq'⟩ := (h (k + 1) hk).query
    have hagain := (h k hk').cycled.pending_again (hquiets (k + 1) hk.le)
      ((h k hk').found hm) hnot
    rw [hq] at hm
    refine mem_pairsOf.mpr ⟨m, ?_, rfl⟩
    rw [hq']
    refine mem_firstPage_of_subset order order' (nodup_pending _).of_map
      ((h k hk').pending_subset (hquiets k hk'.le)) (fun a ha b hb => ?_) hm hagain
    exact hhash a (hsub k hk'.le ha) b (hsub k hk'.le hb)

/-! ## A receiver that is down -/

def downMatch : AlertMatch := ⟨1, "0xaa", "https://down.example/hook", "00"⟩

def healthyMatch : AlertMatch := ⟨2, "0xbb", "https://hook.example/b", "00"⟩

/-- A failure for each of two subscriptions. -/
def downAlerts : Alerts where
  db := { Db.empty with
    failedTransactions := Table.empty.insertNew
      [⟨"0xaa", .deadlineExpired, none, none, 50000, 0⟩,
       ⟨"0xbb", .unauthorized, none, none, 50000, 0⟩] }
  subscriptions := Table.empty.insertNew
    [⟨1, some .deadlineExpired, none, downMatch.webhookUrl, downMatch.signingSecret, true, .perEvent⟩,
     ⟨2, some .unauthorized, none, healthyMatch.webhookUrl, healthyMatch.signingSecret, true,
      .perEvent⟩]
  ledger := .empty
  now := 0
  tasks := []

def downItems (_ : Nat) : List AlertMatch := [downMatch]

def downWork (_ : Nat) : List DispatchLabel :=
  [.claim 0, .send 0, .answer 0 (some "http: connection refused"), .record 0, .tick 30000000]

/-- With batches of one, the second subscription does not get its turn. -/
theorem starved :
    ¬ ∀ (unsafeUrl : String → Option String) (collate : String → List Char) (L : Nat)
      (s : Nat → Alerts) (items : Nat → List AlertMatch), 1 ≤ L → (s 0).ledger = .empty →
      (∀ k < sweep L (s 0), DispatchOnce unsafeUrl collate L (s k) (items k) (s (k + 1))) →
      ∀ p ∈ pairsOf (s 0).pending, ∃ k < sweep L (s 0), p ∈ pairsOf (items k) := by
  intro h
  have hrun : (∀ k < sweep 1 downAlerts, Planned 1 downAlerts downItems downWork k) ∧
      healthyMatch.pair ∈ pairsOf downAlerts.pending := by
    decide +kernel
  obtain ⟨k, -, hk⟩ := h (fun _ => none) String.toList 1 (cycleRun downAlerts downItems downWork)
    downItems le_rfl rfl (fun k hk => (hrun.1 k hk).once) healthyMatch.pair hrun.2
  exact absurd hk (show healthyMatch.pair ∉ pairsOf [downMatch] by decide +kernel)

end Amarillo.L4
