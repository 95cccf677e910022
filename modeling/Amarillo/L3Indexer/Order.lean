import Amarillo.L3Indexer.Derived

/-!
# Orders of a chunk (`process_chunk`)

Nobody controls in which order the parallel block tasks insert. The indexed tables
do not show it, and neither do `audit_log` and, of `user_profile`, `last_seen` and
`total_swaps`. But the trigger sets `first_seen` when it makes the profile and never
again, where `last_seen` is kept with `GREATEST`: a new address carries the time of the
swap that happened to be inserted first.

* `order_independent_iff`: two orders end with the same tables iff every address
  without a profile is seen first by swaps of one time.
* `first_seen_late`: two blocks, the later one stored first.
-/
namespace Amarillo.L3
open Amarillo.Core Amarillo.L1 Amarillo.L2

/-- The time of the first of the swaps that has `a` as sender or recipient. -/
def firstSeenBy (a : String) (es : List SwapEvent) : Option Int :=
  (es.find? fun e => decide (e.sender = a ∨ e.recipient = a)).map SwapEvent.timestamp

theorem head?_touches (a : String) (es : List SwapEvent) :
    ((es.filterMap (touch a)).head?).map Prod.fst = firstSeenBy a es := by
  unfold firstSeenBy
  induction es with
  | nil => rfl
  | cons e es ih =>
    rw [List.find?_cons]
    by_cases hs : e.sender = a
    · rw [List.filterMap_cons_some (show touch a e = some (e.timestamp, 1) from if_pos hs)]
      simp [hs]
    · by_cases hr : e.recipient = a
      · have ht : touch a e = some (e.timestamp, 0) := by
          rw [touch, if_neg hs, if_pos hr]
        rw [List.filterMap_cons_some ht]
        simp [hr]
      · have ht : touch a e = none := by
          rw [touch, if_neg hs, if_neg hr]
        rw [List.filterMap_cons_none ht, ih]
        simp [hs, hr]

section Runs
variable {R : Runtime} {abi : Abi} {c : Chunk} {env₁ env₂ : Env} {ss₁ ss₂ : List Stmt}
  {db₀ db₁ db₂ : Db}

theorem Partial.start (env : Env) (db : Db) : Partial R abi c env [] db db := ⟨⟨_, .stop _⟩, rfl⟩

/-- The indexed tables do not depend on the order. -/
theorem sameRows_ordered (hfk : db₀.ForeignKeys) (ht : env₂.triggers = env₁.triggers)
    (h₁ : Complete R abi c env₁ ss₁ db₀ db₁) (h₂ : Complete R abi c env₂ ss₂ db₀ db₂) :
    SameRows db₁ db₂ :=
  sameRows_replayed hfk rfl ht (Partial.start env₁ db₀) h₁ h₂ rfl

theorem newSwaps_perm (h₁ : execAll env₁ ss₁ db₀ = (db₁, none))
    (h₂ : execAll env₂ ss₂ db₀ = (db₂, none)) (h : SameRows db₁ db₂) :
    (newSwaps db₀ ss₁).Perm (newSwaps db₀ ss₂) := by
  have hswaps := h.swapEvents
  rw [execAll_insertNew Db.swapEvents Stmt.swapRows (fun _ _ _ _ he => (exec_applied he).swapEvents) h₁,
    execAll_insertNew Db.swapEvents Stmt.swapRows (fun _ _ _ _ he => (exec_applied he).swapEvents) h₂]
    at hswaps
  exact Table.news_perm hswaps

theorem newLiquidity_perm (h₁ : execAll env₁ ss₁ db₀ = (db₁, none))
    (h₂ : execAll env₂ ss₂ db₀ = (db₂, none)) (h : SameRows db₁ db₂) :
    (newLiquidity db₀ ss₁).Perm (newLiquidity db₀ ss₂) := by
  have hliq := h.liquidityEvents
  rw [execAll_insertNew Db.liquidityEvents Stmt.liquidityRows
      (fun _ _ _ _ he => (exec_applied he).liquidityEvents) h₁,
    execAll_insertNew Db.liquidityEvents Stmt.liquidityRows
      (fun _ _ _ _ he => (exec_applied he).liquidityEvents) h₂] at hliq
  exact Table.news_perm hliq

theorem auditLogs_ordered (ht : env₂.triggers = env₁.triggers)
    (h₁ : execAll env₁ ss₁ db₀ = (db₁, none)) (h₂ : execAll env₂ ss₂ db₀ = (db₂, none))
    (h : SameRows db₁ db₂) : db₁.auditLogs.Perm db₂.auditLogs := by
  rw [execAll_auditLogs h₁, execAll_auditLogs h₂, ht]
  split
  · exact ((newLiquidity_perm h₁ h₂ h).filterMap _).append_left _
  · exact .refl _

theorem userProfiles_ordered_iff (ht : env₂.triggers = env₁.triggers)
    (h₁ : execAll env₁ ss₁ db₀ = (db₁, none)) (h₂ : execAll env₂ ss₂ db₀ = (db₂, none))
    (h : SameRows db₁ db₂) : db₁.userProfiles.rows.Perm db₂.userProfiles.rows ↔
      (env₁.triggers = true → ∀ a, db₀.userProfiles.get a = none →
        firstSeenBy a (newSwaps db₀ ss₁) = firstSeenBy a (newSwaps db₀ ss₂)) := by
  rw [execAll_userProfiles h₁, execAll_userProfiles h₂, ht]
  split
  · rename_i htrig
    have hone (a : String) :
        ((newSwaps db₀ ss₁).foldl updateUserProfile db₀.userProfiles).get a =
          ((newSwaps db₀ ss₂).foldl updateUserProfile db₀.userProfiles).get a ↔
        (db₀.userProfiles.get a = none →
          firstSeenBy a (newSwaps db₀ ss₁) = firstSeenBy a (newSwaps db₀ ss₂)) := by
      rw [get_foldl_updateUserProfile, get_foldl_updateUserProfile,
        profileAfter_perm ((newSwaps_perm h₁ h₂ h).filterMap _), head?_touches, head?_touches]
    constructor
    · exact fun hp _ a => (hone a).mp (Table.get_of_perm hp a)
    · exact fun hall => Table.perm_of_get fun a => (hone a).mpr (hall htrig a)
  · rename_i htrig
    simp [htrig]

/-- Whatever the order, no profile violates its check. -/
theorem seenOrdered_kept (h : execAll env₁ ss₁ db₀ = (db₁, none))
    (h₀ : SeenOrdered db₀.userProfiles) : SeenOrdered db₁.userProfiles := by
  rw [execAll_userProfiles h]
  split
  · exact h₀.foldl _
  · exact h₀

/-- **Order independence of a chunk.** Any two complete runs of a chunk's tasks, from any
database, in any two interleavings, end with the same tables, surrogate ids apart, iff each
address that has no profile yet is seen first, in both, by new swaps of one time. -/
theorem order_independent_iff (hfk : db₀.ForeignKeys) (ht : env₂.triggers = env₁.triggers)
    (h₁ : Complete R abi c env₁ ss₁ db₀ db₁) (h₂ : Complete R abi c env₂ ss₂ db₀ db₂) :
    SameTables db₁ db₂ ∧ db₁.checkpoint = db₂.checkpoint ↔
      (env₁.triggers = true → ∀ a, db₀.userProfiles.get a = none →
        firstSeenBy a (newSwaps db₀ ss₁) = firstSeenBy a (newSwaps db₀ ss₂)) := by
  have hrows := sameRows_ordered hfk ht h₁ h₂
  have hcheckpoint : db₁.checkpoint = db₂.checkpoint := by
    rw [execAll_checkpoint h₁.2, execAll_checkpoint h₂.2]
  rw [← userProfiles_ordered_iff ht h₁.2 h₂.2 hrows]
  constructor
  · exact fun h => h.1.userProfiles
  · exact fun hp => ⟨⟨hrows, hp, auditLogs_ordered ht h₁.2 h₂.2 hrows⟩, hcheckpoint⟩

end Runs

/-- A swap of `0x11…11`, in a transaction of its own in each of the blocks 1 and 2. -/
def swapLog : RpcLog where
  address := .repeatByte 0x33
  topics := [wordAbi.swapSignature, .repeatByte 0x11, .repeatByte 0x11]
  data := List.replicate 31 0 ++ [1] ++ List.replicate 32 0xff ++ List.replicate 31 0 ++ [1] ++
    List.replicate 31 0 ++ [1] ++ List.replicate 32 0
  logIndex := some 0

def swapTxHash (n : Nat) : B256 := .repeatByte (if n = 1 then 0xa1 else 0xa2)

def swapChunk : Chunk where
  first := 1
  last := 2
  block n :=
    { header := ⟨.repeatByte (if n = 1 then 0xb1 else 0xb2), .repeatByte (if n = 1 then 0xb0 else 0xb1),
        if n = 1 then 1700000000 else 1700000012, 30000000⟩
      transactions := [{ revertTx with hash := swapTxHash n }] }
  receipts n := [⟨swapTxHash n, 50000, true, [swapLog]⟩]
  trace _ := .failed
  inU64 := by decide
  oneBlock n m hn hn' hm hm' hne r hr r' hr' := by
    rw [List.mem_singleton.mp hr, List.mem_singleton.mp hr']
    obtain ⟨rfl, rfl⟩ | ⟨rfl, rfl⟩ : (n = 1 ∧ m = 2) ∨ (n = 2 ∧ m = 1) := by omega
    · decide
    · decide

def swapStmts (n : Nat) : List Stmt :=
  (processBlock (.asciiOnly true) wordAbi n (swapChunk.answers n)).stmts

/-- The database after the statements. -/
def storedOn (db : Db) (ss : List Stmt) : Db := (execAll liveEnv ss db).1

theorem storedOn_run {db : Db} {ss : List Stmt} (h : (execAll liveEnv ss db).2 = none) :
    execAll liveEnv ss db = (storedOn db ss, none) := Prod.snd_eq_iff.mp h

/-- Both orders are stored, and the profile has the time of the block stored first. -/
theorem swapStmts_stored :
    (execAll liveEnv (swapStmts 1 ++ swapStmts 2) Db.empty).2 = none ∧
    (execAll liveEnv (swapStmts 2 ++ swapStmts 1) Db.empty).2 = none ∧
    (storedOn Db.empty (swapStmts 1 ++ swapStmts 2)).userProfiles.rows.map UserProfile.firstSeen =
      [1700000000] ∧
    (storedOn Db.empty (swapStmts 2 ++ swapStmts 1)).userProfiles.rows.map UserProfile.firstSeen =
      [1700000012] := by
  decide +kernel

theorem swapChunk_tasks :
    swapChunk.tasks (.asciiOnly true) wordAbi = [swapStmts 1, swapStmts 2] := rfl

theorem ascending_complete : Complete (.asciiOnly true) wordAbi swapChunk liveEnv
    (swapStmts 1 ++ swapStmts 2) Db.empty (storedOn Db.empty (swapStmts 1 ++ swapStmts 2)) := by
  refine ⟨⟨[[], []], ?_, rfl⟩, storedOn_run swapStmts_stored.1⟩
  rw [swapChunk_tasks]
  exact .firstThenSecond (swapStmts 1) (swapStmts 2)

theorem descending_complete : Complete (.asciiOnly true) wordAbi swapChunk liveEnv
    (swapStmts 2 ++ swapStmts 1) Db.empty (storedOn Db.empty (swapStmts 2 ++ swapStmts 1)) := by
  refine ⟨⟨[[], []], ?_, rfl⟩, storedOn_run swapStmts_stored.2.1⟩
  rw [swapChunk_tasks]
  exact .secondThenFirst (swapStmts 1) (swapStmts 2)

theorem bothOrders_iff : SameTables (storedOn Db.empty (swapStmts 1 ++ swapStmts 2))
      (storedOn Db.empty (swapStmts 2 ++ swapStmts 1)) ∧
    (storedOn Db.empty (swapStmts 1 ++ swapStmts 2)).checkpoint =
      (storedOn Db.empty (swapStmts 2 ++ swapStmts 1)).checkpoint ↔
    (liveEnv.triggers = true → ∀ a, Db.empty.userProfiles.get a = none →
      firstSeenBy a (newSwaps Db.empty (swapStmts 1 ++ swapStmts 2)) =
        firstSeenBy a (newSwaps Db.empty (swapStmts 2 ++ swapStmts 1))) :=
  order_independent_iff empty_foreignKeys rfl ascending_complete descending_complete

/-- Stored in descending order, the address is first seen at the time of block 2. -/
theorem first_seen_late :
    ¬ ∀ (R : Runtime) (abi : Abi) (c : Chunk) (env : Env) (ss₁ ss₂ : List Stmt) (db₀ db₁ db₂ : Db),
      db₀.ForeignKeys → Complete R abi c env ss₁ db₀ db₁ → Complete R abi c env ss₂ db₀ db₂ →
      SameTables db₁ db₂ := by
  intro h
  have hsame := h (.asciiOnly true) wordAbi swapChunk liveEnv _ _ Db.empty _ _ empty_foreignKeys
    ascending_complete descending_complete
  have htimes := hsame.userProfiles.map UserProfile.firstSeen
  rw [swapStmts_stored.2.2.1, swapStmts_stored.2.2.2] at htimes
  exact absurd htimes (by decide)

end Amarillo.L3
