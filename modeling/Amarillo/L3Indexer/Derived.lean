import Amarillo.L3Indexer.Replay

/-!
# Derived tables (`sql/triggers/001_triggers.sql`)

`user_profile` and `audit_log` are written by triggers, once for each inserted row.
Read at one address, the profile after a list of swaps is a fold over what each swap
says about it (`get_foldl_updateUserProfile`): `last_seen` and `total_swaps` do not
depend on the order, `first_seen` is the time of the first swap and never changes.
`execAll_userProfiles` and `execAll_auditLogs` carry this to lists of statements.
-/
namespace Amarillo.L3
open Amarillo.Core Amarillo.L1 Amarillo.L2

/-! ## One profile -/

/-- The time a swap saw an address, and the swaps it counts for it. -/
def touch (a : String) (e : SwapEvent) : Option (Int × Int) :=
  if e.sender = a then some (e.timestamp, 1)
  else if e.recipient = a then some (e.timestamp, 0)
  else none

def UserProfile.seen (p : UserProfile) (t : Int × Int) : UserProfile :=
  { p with lastSeen := max p.lastSeen t.1, totalSwaps := p.totalSwaps + t.2 }

instance : RightCommutative UserProfile.seen where
  right_comm p t u := by
    simp only [UserProfile.seen, UserProfile.mk.injEq, true_and]
    omega

/-- The profile of `a` after the touches `ts`. -/
def profileAfter (a : String) (p : Option UserProfile) (ts : List (Int × Int)) : Option UserProfile :=
  match ts with
  | [] => p
  | t :: _ => some (ts.foldl UserProfile.seen (p.getD ⟨a, t.1, t.1, 0⟩))

@[simp] theorem profileAfter_some (a : String) (p : UserProfile) (ts : List (Int × Int)) :
    profileAfter a (some p) ts = some (ts.foldl UserProfile.seen p) := by
  cases ts <;> rfl

theorem foldl_seen_firstSeen (ts : List (Int × Int)) (p : UserProfile) :
    (ts.foldl UserProfile.seen p).firstSeen = p.firstSeen := by
  induction ts generalizing p with
  | nil => rfl
  | cons t ts ih =>
    rw [List.foldl_cons, ih]
    rfl

theorem foldl_seen_totalSwaps (ts : List (Int × Int)) (p : UserProfile) :
    (ts.foldl UserProfile.seen p).totalSwaps = p.totalSwaps + (ts.map Prod.snd).sum := by
  induction ts generalizing p with
  | nil => simp
  | cons t ts ih =>
    rw [List.foldl_cons, ih, List.map_cons, List.sum_cons]
    simp only [UserProfile.seen]
    omega

theorem le_foldl_seen_lastSeen (ts : List (Int × Int)) (p : UserProfile) :
    p.lastSeen ≤ (ts.foldl UserProfile.seen p).lastSeen := by
  induction ts generalizing p with
  | nil => exact le_refl _
  | cons t ts ih => exact (le_max_left _ _).trans (ih _)

theorem get_touchProfile (address : String) (ts swaps : Int) (ps : Table UserProfile.userAddress)
    (a : String) : (touchProfile address ts swaps ps).get a =
      if address = a then profileAfter a (ps.get a) [(ts, swaps)] else ps.get a := by
  rw [touchProfile, Table.get_upsert]
  split
  · rename_i h
    subst h
    cases ps.get address <;> simp [profileAfter, UserProfile.seen]
  · rfl

theorem get_updateUserProfile (ps : Table UserProfile.userAddress) (e : SwapEvent) (a : String) :
    (updateUserProfile ps e).get a = profileAfter a (ps.get a) (touch a e).toList := by
  unfold updateUserProfile touch
  by_cases hs : e.sender = a
  · rw [if_pos hs]
    split
    · rename_i hr
      rw [get_touchProfile, if_neg (fun h => hr (h.trans hs.symm)), get_touchProfile, if_pos hs]
      rfl
    · rw [get_touchProfile, if_pos hs]
      rfl
  · rw [if_neg hs]
    split
    · rw [get_touchProfile, get_touchProfile, if_neg hs]
      split <;> rfl
    · rename_i hr
      rw [get_touchProfile, if_neg hs, if_neg (fun h => hs ((not_not.mp hr) ▸ h))]
      rfl

theorem get_foldl_updateUserProfile (es : List SwapEvent) (ps : Table UserProfile.userAddress)
    (a : String) :
    (es.foldl updateUserProfile ps).get a = profileAfter a (ps.get a) (es.filterMap (touch a)) := by
  induction es generalizing ps with
  | nil => rfl
  | cons e es ih =>
    rw [List.foldl_cons, ih, get_updateUserProfile]
    cases ht : touch a e with
    | none => rw [List.filterMap_cons_none ht, Option.toList_none, profileAfter]
    | some t =>
      rw [List.filterMap_cons_some ht, Option.toList_some]
      simp only [profileAfter, List.foldl_cons, List.foldl_nil]
      exact profileAfter_some _ _ _

/-- The order of the swaps shows in nothing but the first touch. -/
theorem profileAfter_perm {a : String} {p : Option UserProfile} {ts ts' : List (Int × Int)}
    (h : ts.Perm ts') : profileAfter a p ts = profileAfter a p ts' ↔
      (p = none → (ts.head?).map Prod.fst = (ts'.head?).map Prod.fst) := by
  cases p with
  | some p => simp [h.foldl_eq]
  | none =>
    cases ts with
    | nil => simp [h.nil_eq.symm]
    | cons t ts =>
      cases ts' with
      | nil => exact absurd h.symm.nil_eq (by simp)
      | cons t' ts' =>
        have hfold := h.foldl_eq (f := UserProfile.seen) (⟨a, t.1, t.1, 0⟩ : UserProfile)
        simp only [profileAfter, Option.getD_none, Option.some.injEq, List.head?_cons,
          Option.map_some, forall_const]
        constructor
        · intro he
          have := congrArg UserProfile.firstSeen he
          rwa [foldl_seen_firstSeen, foldl_seen_firstSeen] at this
        · intro ht
          rw [hfold, ht]

/-- `user_profile_seen_order_check` -/
def SeenOrdered (ps : Table UserProfile.userAddress) : Prop :=
  ∀ a p, ps.get a = some p → p.firstSeen ≤ p.lastSeen

/-- No order of the swaps violates the check of the table. -/
theorem SeenOrdered.foldl {ps : Table UserProfile.userAddress} (h : SeenOrdered ps)
    (es : List SwapEvent) : SeenOrdered (es.foldl updateUserProfile ps) := by
  intro a p hp
  rw [get_foldl_updateUserProfile] at hp
  unfold profileAfter at hp
  split at hp
  · exact h a p hp
  · cases hp
    rw [foldl_seen_firstSeen]
    refine le_trans ?_ (le_foldl_seen_lastSeen _ _)
    cases hget : ps.get a with
    | none => exact le_refl _
    | some q => exact h a q hget

/-! ## Statements -/

theorem exec_userProfiles {env : Env} {s : Stmt} {db db' : Db} (h : exec env s db = .ok db') :
    db'.userProfiles = if env.triggers then
      (db.swapEvents.news s.swapRows).foldl updateUserProfile db.userProfiles
    else db.userProfiles := by
  cases s with
  | insertSwapEvents rows =>
    simp only [exec, insertSwapEvents] at h
    generalize hps : (if env.triggers = true then _ else _ : Table UserProfile.userAddress) = ps at h
    split at h
    · cases h
    · split at h
      · cases h
      · split at h
        · cases h
        · cases h
          exact hps.symm
  | _ =>
    simp only [exec, insertBlocks, insertTransactions, insertLiquidityEvents, insertTokenTransfers,
      insertTraceLogs, insertFailedTransactions] at h
    repeat' split at h
    all_goals
      cases h
      try simp

theorem exec_auditLogs {env : Env} {s : Stmt} {db db' : Db} (h : exec env s db = .ok db') :
    db'.auditLogs = if env.triggers then
      db.auditLogs ++ (db.liquidityEvents.news s.liquidityRows).filterMap auditEvent
    else db.auditLogs := by
  cases s with
  | insertLiquidityEvents rows =>
    simp only [exec, insertLiquidityEvents] at h
    split at h
    · cases h
    · split at h
      · cases h
      · cases h
        rfl
  | _ =>
    simp only [exec, insertBlocks, insertTransactions, insertSwapEvents, insertTokenTransfers,
      insertTraceLogs, insertFailedTransactions] at h
    repeat' split at h
    all_goals
      cases h
      try simp

section Runs
variable {env : Env} {ss : List Stmt} {db db' : Db}

/-- A keyed table takes the rows of all statements, one statement after the other. -/
theorem execAll_insertNew {α κ : Type} [DecidableEq κ] {key : α → κ} (T : Db → Table key)
    (rows : Stmt → List α)
    (hstep : ∀ env s db db', exec env s db = .ok db' → T db' = (T db).insertNew (rows s))
    (h : execAll env ss db = (db', none)) : T db' = (T db).insertNew (ss.flatMap rows) := by
  induction ss generalizing db with
  | nil =>
    cases h
    rfl
  | cons s ss ih =>
    obtain ⟨m, hm, h⟩ := execAll_cons.mp h
    rw [ih h, hstep env s db m hm, List.flatMap_cons, Table.insertNew_append]

/-- The swaps that the statements insert. -/
def newSwaps (db : Db) (ss : List Stmt) : List SwapEvent :=
  db.swapEvents.news (ss.flatMap Stmt.swapRows)

def newLiquidity (db : Db) (ss : List Stmt) : List LiquidityEvent :=
  db.liquidityEvents.news (ss.flatMap Stmt.liquidityRows)

theorem execAll_userProfiles (h : execAll env ss db = (db', none)) :
    db'.userProfiles = if env.triggers then
      (newSwaps db ss).foldl updateUserProfile db.userProfiles else db.userProfiles := by
  unfold newSwaps
  induction ss generalizing db with
  | nil =>
    cases h
    simp
  | cons s ss ih =>
    obtain ⟨m, hm, h⟩ := execAll_cons.mp h
    rw [ih h, exec_userProfiles hm, (exec_applied hm).swapEvents, List.flatMap_cons,
      Table.news_append, List.foldl_append]
    split <;> rfl

theorem execAll_auditLogs (h : execAll env ss db = (db', none)) :
    db'.auditLogs = if env.triggers then
      db.auditLogs ++ (newLiquidity db ss).filterMap auditEvent else db.auditLogs := by
  unfold newLiquidity
  induction ss generalizing db with
  | nil =>
    cases h
    simp
  | cons s ss ih =>
    obtain ⟨m, hm, h⟩ := execAll_cons.mp h
    rw [ih h, exec_auditLogs hm, (exec_applied hm).liquidityEvents, List.flatMap_cons,
      Table.news_append, List.filterMap_append]
    split
    · rw [List.append_assoc]
    · rfl

theorem execAll_checkpoint (h : execAll env ss db = (db', none)) : db'.checkpoint = db.checkpoint := by
  induction ss generalizing db with
  | nil =>
    cases h
    rfl
  | cons s ss ih =>
    obtain ⟨m, hm, h⟩ := execAll_cons.mp h
    rw [ih h, (exec_applied hm).checkpoint]

end Runs

/-- All tables hold the same rows, surrogate ids apart. -/
structure SameTables (a b : Db) : Prop where
  indexed : SameRows a b
  userProfiles : a.userProfiles.rows.Perm b.userProfiles.rows
  auditLogs : a.auditLogs.Perm b.auditLogs

end Amarillo.L3
