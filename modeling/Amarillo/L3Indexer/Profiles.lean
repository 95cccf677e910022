import Amarillo.Core.History
import Amarillo.L3Indexer.Derived
import Amarillo.L3Indexer.Hashes
import Amarillo.L3Indexer.Order

/-!
# What the profiles count (`sql/triggers/001_triggers.sql`, `vw_top_traders`)

`user_profile` is written by the swap trigger alone, one insert at a time, and
`rollback_from_block` leaves it. Over a whole run of the indexer's writes, from an
empty database, it is a balance: `swapChanges` logs which swaps went in and which were
deleted.

* `profiles_account`: at any moment a profile counts the stored swaps its address sent
  and those a rollback has deleted, once each, and its `last_seen` is the latest time
  of all of them.
* `top_traders_flat`: the trigger never adds to `total_volume_usd`, so that all of
  `vw_top_traders` has volume 0 and rank 1: the ranking is the set of the addresses that
  ever sent a swap, in no order.
-/
namespace Amarillo.L3
open Amarillo.Core Amarillo.L1 Amarillo.L2

/-! ## The log -/

inductive SwapChange where
  | stored (e : SwapEvent)
  | deleted (e : SwapEvent)
  deriving DecidableEq, Repr

/-- The swaps a write puts in, in order, and those it deletes. -/
def swapChanges (db : Db) : Write → List SwapChange
  | .stmt _ _ _ s => (db.swapEvents.news s.swapRows).map .stored
  | .rollback fromBlock =>
    (db.swapEvents.rows.filter fun e => db.rolledBack fromBlock e.txHash).map .deleted
  | .checkpoint _ => []

def storedSwaps (log : List SwapChange) : List SwapEvent :=
  log.filterMap fun | .stored e => some e | .deleted _ => none

def deletedSwaps (log : List SwapChange) : List SwapEvent :=
  log.filterMap fun | .stored _ => none | .deleted e => some e

/-- The triggers are installed. -/
def Triggered (_ : Db) : Write → Prop
  | .stmt env _ _ _ => env.triggers = true
  | .rollback _ => True
  | .checkpoint _ => True

/-- The writes of the indexer with the log of its swaps. -/
def swapLedger (R : Runtime) (abi : Abi) : LTS (Db × List SwapChange) Write :=
  LTS.logged ((writes R abi).restrict Triggered) swapChanges

@[simp] theorem storedSwaps_append (a b : List SwapChange) :
    storedSwaps (a ++ b) = storedSwaps a ++ storedSwaps b := List.filterMap_append

@[simp] theorem deletedSwaps_append (a b : List SwapChange) :
    deletedSwaps (a ++ b) = deletedSwaps a ++ deletedSwaps b := List.filterMap_append

@[simp] theorem storedSwaps_stored (es : List SwapEvent) : storedSwaps (es.map .stored) = es := by
  simp [storedSwaps, List.filterMap_map]

@[simp] theorem deletedSwaps_stored (es : List SwapEvent) : deletedSwaps (es.map .stored) = [] := by
  simp [deletedSwaps, List.filterMap_map]

@[simp] theorem storedSwaps_deleted (es : List SwapEvent) : storedSwaps (es.map .deleted) = [] := by
  simp [storedSwaps, List.filterMap_map]

@[simp] theorem deletedSwaps_deleted (es : List SwapEvent) : deletedSwaps (es.map .deleted) = es := by
  simp [deletedSwaps, List.filterMap_map]

/-! ## The balance -/

/-- What went in is there or was deleted, and the profiles are the fold over what went in. -/
structure Balanced (x : Db × List SwapChange) : Prop where
  conserved : (storedSwaps x.2).Perm (x.1.swapEvents.rows ++ deletedSwaps x.2)
  profiles : x.1.userProfiles = (storedSwaps x.2).foldl updateUserProfile .empty

theorem balanced_inductive (R : Runtime) (abi : Abi) : (swapLedger R abi).Inductive Balanced where
  init := by
    rintro ⟨db, log⟩ ⟨rfl, rfl⟩
    exact ⟨.refl _, rfl⟩
  step := by
    rintro ⟨db, log⟩ w ⟨db', log'⟩ hi ⟨⟨hw, hg⟩, hlog⟩
    obtain rfl : log' = log ++ swapChanges db w := hlog
    cases w with
    | stmt env n a s =>
      have he := hw.2
      have hrows : db'.swapEvents.rows = db.swapEvents.rows ++ db.swapEvents.news s.swapRows := by
        rw [(exec_applied he).swapEvents, Table.rows_insertNew]
      constructor
      · simp only [swapChanges, storedSwaps_append, deletedSwaps_append, storedSwaps_stored,
          deletedSwaps_stored, List.append_nil, hrows]
        refine (hi.conserved.append_right _).trans ?_
        rw [List.append_assoc, List.append_assoc]
        exact List.perm_append_comm.append_left _
      · simp only [swapChanges, storedSwaps_append, storedSwaps_stored, List.foldl_append]
        rw [exec_userProfiles he, if_pos (show env.triggers = true from hg), hi.profiles]
    | rollback fromBlock =>
      obtain ⟨deleted, hr⟩ := hw
      obtain rfl := rollbackFromBlock_eq hr
      constructor
      · simp only [swapChanges, storedSwaps_append, deletedSwaps_append, storedSwaps_deleted,
          deletedSwaps_deleted, List.append_nil]
        have hsplit : db.swapEvents.rows.Perm ((db.rolledTo fromBlock).swapEvents.rows ++
            db.swapEvents.rows.filter fun e => db.rolledBack fromBlock e.txHash) :=
          ((List.filter_append_perm (fun e => db.rolledBack fromBlock e.txHash)
            db.swapEvents.rows).symm).trans List.perm_append_comm
        refine (hi.conserved.trans (hsplit.append_right _)).trans ?_
        rw [List.append_assoc]
        exact List.perm_append_comm.append_left _
      · simp only [swapChanges, storedSwaps_append, storedSwaps_deleted, List.append_nil]
        exact hi.profiles
    | checkpoint lastProcessedBlock =>
      cases hw
      simp only [swapChanges, List.append_nil]
      exact ⟨hi.conserved, hi.profiles⟩

/-! ## One address -/

/-- The swap has the address as sender or recipient. -/
def Involves (a : String) (e : SwapEvent) : Prop := e.sender = a ∨ e.recipient = a

/-- The profile of an address that the swaps `all` involve. -/
structure Accounts (a : String) (all : List SwapEvent) (p : UserProfile) : Prop where
  userAddress : p.userAddress = a
  totalSwaps : p.totalSwaps = (all.filter fun e => e.sender = a).length
  latest : ∃ e ∈ all, Involves a e ∧ e.timestamp = p.lastSeen
  bound : ∀ e ∈ all, Involves a e → p.firstSeen ≤ p.lastSeen ∧ e.timestamp ≤ p.lastSeen
  first : ∃ e ∈ all, Involves a e ∧ e.timestamp = p.firstSeen

/-- The profile of an address, or none, after the swaps `all`. -/
inductive Accounted (a : String) (all : List SwapEvent) : Option UserProfile → Prop where
  | unseen (h : ∀ e ∈ all, ¬Involves a e) : Accounted a all none
  | seen {p : UserProfile} (h : Accounts a all p) : Accounted a all (some p)

theorem touch_eq_some {a : String} {e : SwapEvent} {t : Int × Int} (h : touch a e = some t) :
    Involves a e ∧ t.1 = e.timestamp := by
  unfold touch at h
  split at h
  · cases h
    exact ⟨.inl ‹_›, rfl⟩
  · split at h
    · cases h
      exact ⟨.inr ‹_›, rfl⟩
    · cases h

theorem touch_eq_none {a : String} {e : SwapEvent} : touch a e = none ↔ ¬Involves a e := by
  unfold touch Involves
  split
  · rename_i hs
    simp [hs]
  · rename_i hs
    split
    · rename_i hr
      simp [hr]
    · rename_i hr
      simp [hs, hr]

/-- The swaps counted for an address are those it sent. -/
theorem sum_touch (a : String) (es : List SwapEvent) :
    ((es.filterMap (touch a)).map Prod.snd).sum = (es.filter fun e => e.sender = a).length := by
  induction es with
  | nil => rfl
  | cons e es ih =>
    by_cases hs : e.sender = a
    · have ht : touch a e = some (e.timestamp, 1) := if_pos hs
      rw [List.filterMap_cons_some ht, List.map_cons, List.sum_cons, ih,
        List.filter_cons_of_pos (by simpa using hs), List.length_cons]
      push_cast
      omega
    · rw [List.filter_cons_of_neg (by simpa using hs), ← ih]
      by_cases hr : e.recipient = a
      · have ht : touch a e = some (e.timestamp, 0) := by rw [touch, if_neg hs, if_pos hr]
        rw [List.filterMap_cons_some ht, List.map_cons, List.sum_cons, zero_add]
      · have ht : touch a e = none := by rw [touch, if_neg hs, if_neg hr]
        rw [List.filterMap_cons_none ht]

/-- `last_seen` is the latest of the times. -/
theorem foldl_seen_lastSeen (ts : List (Int × Int)) (p : UserProfile) :
    ((ts.foldl UserProfile.seen p).lastSeen = p.lastSeen ∨
      ∃ t ∈ ts, t.1 = (ts.foldl UserProfile.seen p).lastSeen) ∧
    ∀ t ∈ ts, t.1 ≤ (ts.foldl UserProfile.seen p).lastSeen := by
  induction ts generalizing p with
  | nil => exact ⟨.inl rfl, fun _ h => by cases h⟩
  | cons t ts ih =>
    obtain ⟨hfrom, hle⟩ := ih (UserProfile.seen p t)
    have hstart : (UserProfile.seen p t).lastSeen = max p.lastSeen t.1 := rfl
    constructor
    · rcases hfrom with heq | ⟨u, hu, heq⟩
      · rw [List.foldl_cons, heq, hstart]
        rcases max_choice p.lastSeen t.1 with hm | hm
        · exact .inl hm
        · exact .inr ⟨t, List.mem_cons_self, hm.symm⟩
      · exact .inr ⟨u, List.mem_cons_of_mem _ hu, heq⟩
    · intro u hu
      rcases List.mem_cons.mp hu with rfl | hu
      · exact le_trans (le_max_right _ _) (le_foldl_seen_lastSeen ts (UserProfile.seen p u))
      · exact hle u hu

/-- The fold over the swaps, at one address. -/
theorem foldl_accounts (a : String) (es : List SwapEvent) :
    Accounted a es ((es.foldl updateUserProfile .empty).get a) := by
  cases hget : (es.foldl updateUserProfile .empty).get a with
  | none =>
    rw [get_foldl_updateUserProfile, Table.get_empty] at hget
    refine .unseen fun e he hinv => ?_
    cases ht : touch a e with
    | none => exact touch_eq_none.mp ht hinv
    | some t =>
      have hmem := List.mem_filterMap.mpr ⟨e, he, ht⟩
      cases hts : es.filterMap (touch a) with
      | nil =>
        rw [hts] at hmem
        cases hmem
      | cons u us =>
        rw [hts] at hget
        cases hget
  | some p =>
    have hkey := Table.get_key hget
    rw [get_foldl_updateUserProfile, Table.get_empty] at hget
    cases hts : es.filterMap (touch a) with
    | nil =>
      rw [hts] at hget
      cases hget
    | cons t ts =>
      rw [hts, profileAfter, Option.getD_none, Option.some.injEq] at hget
      -- an involved swap is one of the touches, and the other way round
      have hin : ∀ e ∈ es, Involves a e → ∃ u ∈ t :: ts, u.1 = e.timestamp := by
        intro e he hinv
        cases hte : touch a e with
        | none => exact absurd hinv (touch_eq_none.mp hte)
        | some u =>
          refine ⟨u, ?_, (touch_eq_some hte).2⟩
          rw [← hts]
          exact List.mem_filterMap.mpr ⟨e, he, hte⟩
      have hout : ∀ u ∈ t :: ts, ∃ e ∈ es, Involves a e ∧ e.timestamp = u.1 := by
        intro u hu
        rw [← hts] at hu
        obtain ⟨e, he, hte⟩ := List.mem_filterMap.mp hu
        obtain ⟨hinv, htime⟩ := touch_eq_some hte
        exact ⟨e, he, hinv, htime.symm⟩
      obtain ⟨hfrom, hle⟩ := foldl_seen_lastSeen (t :: ts) ⟨a, t.1, t.1, 0⟩
      rw [hget] at hfrom hle
      have hfirst : p.firstSeen = t.1 := by rw [← hget, foldl_seen_firstSeen]
      refine .seen ⟨?_, ?_, ?_, ?_, ?_⟩
      · exact hkey
      · rw [← hget, foldl_seen_totalSwaps, ← hts, sum_touch]
        simp
      · rcases hfrom with heq | ⟨u, hu, heq⟩
        · obtain ⟨e, he, hinv, htime⟩ := hout t List.mem_cons_self
          exact ⟨e, he, hinv, htime.trans heq.symm⟩
        · obtain ⟨e, he, hinv, htime⟩ := hout u hu
          exact ⟨e, he, hinv, htime.trans heq⟩
      · intro e he hinv
        obtain ⟨u, hu, htime⟩ := hin e he hinv
        exact ⟨hfirst ▸ hle t List.mem_cons_self, htime ▸ hle u hu⟩
      · obtain ⟨e, he, hinv, htime⟩ := hout t List.mem_cons_self
        exact ⟨e, he, hinv, htime.trans hfirst.symm⟩

theorem Accounts.perm {a : String} {all all' : List SwapEvent} {p : UserProfile}
    (hp : Accounts a all p) (h : all.Perm all') : Accounts a all' p where
  userAddress := hp.userAddress
  totalSwaps := by rw [hp.totalSwaps, (h.filter _).length_eq]
  latest := by
    obtain ⟨e, he, hinv⟩ := hp.latest
    exact ⟨e, h.subset he, hinv⟩
  bound e he := hp.bound e (h.symm.subset he)
  first := by
    obtain ⟨e, he, hinv⟩ := hp.first
    exact ⟨e, h.subset he, hinv⟩

theorem Accounted.perm {a : String} {all all' : List SwapEvent} {p : Option UserProfile}
    (hp : Accounted a all p) (h : all.Perm all') : Accounted a all' p := by
  cases hp with
  | unseen hnone => exact .unseen fun e he => hnone e (h.symm.subset he)
  | seen hp => exact .seen (hp.perm h)

theorem Balanced.accounted {x : Db × List SwapChange} (h : Balanced x) (a : String) :
    Accounted a (x.1.swapEvents.rows ++ deletedSwaps x.2) (x.1.userProfiles.get a) := by
  rw [h.profiles]
  exact (foldl_accounts a (storedSwaps x.2)).perm h.conserved

/-- **The profiles balance.** After any writes of the indexer on an empty database, with the
triggers: an address has a profile exactly if a swap involves it that is stored or that a
rollback has deleted. The profile counts those it sent, and `last_seen` is the latest time
of those that involve it. -/
theorem profiles_account (R : Runtime) (abi : Abi) {x : Db × List SwapChange}
    (h : (swapLedger R abi).Reachable x) (a : String) :
    Accounted a (x.1.swapEvents.rows ++ deletedSwaps x.2) (x.1.userProfiles.get a) :=
  ((balanced_inductive R abi).reachable x h).accounted a

/-- No log is needed: every database the indexer writes has profiles that balance. -/
theorem writes_accounted (R : Runtime) (abi : Abi) {db : Db}
    (h : ((writes R abi).restrict Triggered).Reachable db) :
    ∃ deleted, ∀ a, Accounted a (db.swapEvents.rows ++ deleted) (db.userProfiles.get a) := by
  obtain ⟨log, hlog⟩ := LTS.logged_reachable_iff.mpr h
  exact ⟨deletedSwaps log, ((balanced_inductive R abi).reachable _ hlog).accounted⟩

/-! ## A rolled back swap stays counted -/

/-- The statements with their log, as far as they are not refused. -/
def ledgerExec (env : Env) : List Stmt → Db × List SwapChange → Db × List SwapChange
  | [], x => x
  | s :: ss, (db, log) =>
    match exec env s db with
    | .ok db' => ledgerExec env ss (db', log ++ (db.swapEvents.news s.swapRows).map .stored)
    | .error _ => (db, log)

def ledgerRollback (fromBlock : Int) (x : Db × List SwapChange) : Db × List SwapChange :=
  (x.1.rolledTo fromBlock,
    x.2 ++ (x.1.swapEvents.rows.filter fun e => x.1.rolledBack fromBlock e.txHash).map .deleted)

section Ledger
variable {R : Runtime} {abi : Abi}

theorem ledgerExec_reachable {env : Env} (ht : env.triggers = true) {n : Nat} {a : Answers}
    {ss : List Stmt} (hss : ∀ s ∈ ss, s ∈ (processBlock R abi n a).stmts) :
    ∀ {x : Db × List SwapChange}, (swapLedger R abi).Reachable x →
      (swapLedger R abi).Reachable (ledgerExec env ss x) := by
  induction ss with
  | nil => exact fun h => h
  | cons s ss ih =>
    rintro ⟨db, log⟩ h
    rw [ledgerExec]
    cases he : exec env s db with
    | error e => exact h
    | ok db' =>
      have hw : (swapLedger R abi).step (db, log) (.stmt env n a s)
          (db', log ++ (db.swapEvents.news s.swapRows).map .stored) :=
        ⟨⟨⟨hss s List.mem_cons_self, he⟩, ht⟩, rfl⟩
      exact ih (fun u hu => hss u (List.mem_cons_of_mem _ hu)) (h.run (.cons hw (.nil _)))

theorem ledgerRollback_reachable {x : Db × List SwapChange} (h : (swapLedger R abi).Reachable x)
    (fromBlock : Int) : (swapLedger R abi).Reachable (ledgerRollback fromBlock x) := by
  obtain ⟨db', deleted, hr⟩ := rollbackFromBlock_total fromBlock x.1
  have hw : (swapLedger R abi).step x (.rollback fromBlock) (ledgerRollback fromBlock x) := by
    refine ⟨⟨⟨deleted, ?_⟩, trivial⟩, rfl⟩
    rw [hr, rollbackFromBlock_eq hr]
    rfl
  exact h.run (.cons hw (.nil _))

end Ledger

/-- Two blocks with a swap each, and the second rolled back. -/
def rolledLedger : Db × List SwapChange :=
  ledgerRollback 2 (ledgerExec liveEnv (swapStmts 2) (ledgerExec liveEnv (swapStmts 1) (Db.empty, [])))

def swapSender : String := (FixedBytes.repeatByte 0x11 : Address).hex

theorem rolledLedger_reachable : (swapLedger (.asciiOnly true) wordAbi).Reachable rolledLedger := by
  refine ledgerRollback_reachable (ledgerExec_reachable (n := 2) rfl (fun _ hs => hs)
    (ledgerExec_reachable (n := 1) rfl (fun _ hs => hs) ?_)) 2
  exact ⟨(Db.empty, []), [], ⟨rfl, rfl⟩, .nil _⟩

theorem profiles_account_rolled :
    Accounted swapSender (rolledLedger.1.swapEvents.rows ++ deletedSwaps rolledLedger.2)
      (rolledLedger.1.userProfiles.get swapSender) :=
  profiles_account (.asciiOnly true) wordAbi rolledLedger_reachable swapSender

/-- One stored swap, two counted. -/
example : rolledLedger.1.swapEvents.rows.length = 1 ∧
    rolledLedger.1.userProfiles.rows.map UserProfile.totalSwaps = [2] := by
  decide +kernel

/-! ## The ranking -/

/-- A row of `user_profile` with the columns the trigger sets once and never changes. -/
structure RankedProfile where
  profile : UserProfile
  label : Option String
  totalVolumeUsd : Int
  deriving DecidableEq, Repr

def RankedProfile.userAddress (p : RankedProfile) : String := p.profile.userAddress

def RankedProfile.seen (ts swaps : Int) (p : RankedProfile) : RankedProfile :=
  { p with profile := UserProfile.seen p.profile (ts, swaps) }

theorem RankedProfile.seen_userAddress (ts swaps : Int) (p : RankedProfile) :
    (p.seen ts swaps).userAddress = p.userAddress := rfl

/-- mirrors sql/triggers/001_triggers.sql:26-41 -/
def touchRanked (address : String) (ts swaps : Int) (ps : Table RankedProfile.userAddress) :
    Table RankedProfile.userAddress :=
  ps.upsert ⟨⟨address, ts, ts, swaps⟩, none, 0⟩ (RankedProfile.seen ts swaps)
    (RankedProfile.seen_userAddress ts swaps)

def updateRanked (ps : Table RankedProfile.userAddress) (e : SwapEvent) :
    Table RankedProfile.userAddress :=
  let ps := touchRanked e.sender e.timestamp 1 ps
  if e.recipient ≠ e.sender then touchRanked e.recipient e.timestamp 0 ps else ps

/-- The whole rows of `user_profile` after the inserts. -/
def rankedProfiles (log : List SwapChange) : Table RankedProfile.userAddress :=
  (storedSwaps log).foldl updateRanked .empty

structure TopTrader where
  userAddress : String
  label : Option String
  totalSwaps : Int
  totalVolumeUsd : Int
  volumeRank : Nat
  deriving DecidableEq, Repr

/-- `DENSE_RANK() OVER (ORDER BY v DESC)`: one more than the number of distinct greater values. -/
def denseRank (vs : List Int) (v : Int) : Nat := ((vs.filter fun w => v < w).dedup).length + 1

theorem denseRank_eq_one {vs : List Int} {v : Int} (h : ∀ w ∈ vs, w ≤ v) : denseRank vs v = 1 := by
  have hnone : vs.filter (fun w => decide (v < w)) = [] :=
    List.filter_eq_nil_iff.mpr fun w hw => by simpa using h w hw
  rw [denseRank, hnone]
  rfl

/-- The rows of the view, before `ORDER BY volume_rank`.
mirrors sql/views/001_views.sql:26-35 -/
def topTraders (ps : Table RankedProfile.userAddress) : List TopTrader :=
  let active := ps.rows.filter fun p => 0 < p.profile.totalSwaps
  active.map fun p =>
    ⟨p.profile.userAddress, p.label, p.profile.totalSwaps, p.totalVolumeUsd,
      denseRank (active.map RankedProfile.totalVolumeUsd) p.totalVolumeUsd⟩

theorem get_touchRanked (address : String) (ts swaps : Int) (ps : Table RankedProfile.userAddress)
    (a : String) : ((touchRanked address ts swaps ps).get a).map RankedProfile.profile =
      if address = a then profileAfter a ((ps.get a).map RankedProfile.profile) [(ts, swaps)]
      else (ps.get a).map RankedProfile.profile := by
  have hkey : RankedProfile.userAddress ⟨⟨address, ts, ts, swaps⟩, none, 0⟩ = address := rfl
  rw [touchRanked, Table.get_upsert, hkey]
  split
  · rename_i h
    subst h
    cases ps.get address <;> simp [profileAfter, RankedProfile.seen, UserProfile.seen]
  · rfl

/-- Without the two columns it is the profile table. -/
theorem get_rankedProfiles (es : List SwapEvent) (a : String) :
    ((es.foldl updateRanked .empty).get a).map RankedProfile.profile =
      (es.foldl updateUserProfile .empty).get a := by
  have hstep : ∀ (ps : Table RankedProfile.userAddress) (qs : Table UserProfile.userAddress)
      (e : SwapEvent), (∀ a, (ps.get a).map RankedProfile.profile = qs.get a) →
      ∀ a, ((updateRanked ps e).get a).map RankedProfile.profile = (updateUserProfile qs e).get a := by
    intro ps qs e h a
    unfold updateRanked updateUserProfile
    split
    · rw [get_touchRanked, get_touchRanked, get_touchProfile, get_touchProfile, h a]
    · rw [get_touchRanked, get_touchProfile, h a]
  have hall : ∀ (es : List SwapEvent) (ps : Table RankedProfile.userAddress)
      (qs : Table UserProfile.userAddress), (∀ a, (ps.get a).map RankedProfile.profile = qs.get a) →
      ∀ a, ((es.foldl updateRanked ps).get a).map RankedProfile.profile =
        (es.foldl updateUserProfile qs).get a := by
    intro es
    induction es with
    | nil => exact fun ps qs h => h
    | cons e es ih => exact fun ps qs h => ih _ _ (hstep ps qs e h)
  exact hall es .empty .empty (fun _ => rfl) a

/-- The trigger leaves the volume at zero and the label empty. -/
theorem updateRanked_flat {ps : Table RankedProfile.userAddress}
    (h : ∀ p ∈ ps.rows, p.label = none ∧ p.totalVolumeUsd = 0) (e : SwapEvent) :
    ∀ p ∈ (updateRanked ps e).rows, p.label = none ∧ p.totalVolumeUsd = 0 := by
  have htouch : ∀ (address : String) (ts swaps : Int) (qs : Table RankedProfile.userAddress),
      (∀ p ∈ qs.rows, p.label = none ∧ p.totalVolumeUsd = 0) →
      ∀ p ∈ (touchRanked address ts swaps qs).rows, p.label = none ∧ p.totalVolumeUsd = 0 := by
    intro address ts swaps qs hqs p hp
    rcases Table.mem_upsert hp with rfl | hp | ⟨q, hq, rfl⟩
    · exact ⟨rfl, rfl⟩
    · exact hqs p hp
    · exact hqs q hq
  unfold updateRanked
  split
  · exact htouch _ _ _ _ (htouch _ _ _ _ h)
  · exact htouch _ _ _ _ h

theorem rankedProfiles_flat (log : List SwapChange) :
    ∀ p ∈ (rankedProfiles log).rows, p.label = none ∧ p.totalVolumeUsd = 0 := by
  have hall : ∀ (es : List SwapEvent) (ps : Table RankedProfile.userAddress),
      (∀ p ∈ ps.rows, p.label = none ∧ p.totalVolumeUsd = 0) →
      ∀ p ∈ (es.foldl updateRanked ps).rows, p.label = none ∧ p.totalVolumeUsd = 0 := by
    intro es
    induction es with
    | nil => exact fun ps h => h
    | cons e es ih => exact fun ps h => ih _ (updateRanked_flat h e)
  exact hall _ _ fun p hp => by cases hp

/-- **The ranking ranks nobody.** After any writes of the indexer on an empty database, with
the triggers: every row of `vw_top_traders` has no label, volume 0 and rank 1, and there is
a row for an address exactly if it sent a swap that is stored or was rolled back. -/
theorem top_traders_flat (R : Runtime) (abi : Abi) {x : Db × List SwapChange}
    (h : (swapLedger R abi).Reachable x) :
    (∀ r ∈ topTraders (rankedProfiles x.2), r.label = none ∧ r.totalVolumeUsd = 0 ∧ r.volumeRank = 1) ∧
    ∀ a, (∃ r ∈ topTraders (rankedProfiles x.2), r.userAddress = a) ↔
      ∃ e ∈ x.1.swapEvents.rows ++ deletedSwaps x.2, e.sender = a := by
  have hflat := rankedProfiles_flat x.2
  constructor
  · intro r hr
    obtain ⟨p, hp, rfl⟩ := List.mem_map.mp hr
    obtain ⟨hlabel, hvolume⟩ := hflat p (List.mem_of_mem_filter hp)
    refine ⟨hlabel, hvolume, denseRank_eq_one fun w hw => ?_⟩
    obtain ⟨q, hq, rfl⟩ := List.mem_map.mp hw
    rw [(hflat q (List.mem_of_mem_filter hq)).2, hvolume]
  · intro a
    have hbalanced := (balanced_inductive R abi).reachable x h
    have haccount := hbalanced.accounted a
    have hget := get_rankedProfiles (storedSwaps x.2) a
    rw [← hbalanced.profiles] at hget
    rw [← hget] at haccount
    constructor
    · rintro ⟨r, hr, rfl⟩
      obtain ⟨p, hp, rfl⟩ := List.mem_map.mp hr
      obtain ⟨hp, hpos⟩ := List.mem_filter.mp hp
      have hrow : ((storedSwaps x.2).foldl updateRanked .empty).get p.profile.userAddress = some p :=
        Table.mem_iff_get.mp hp
      simp only at haccount ⊢
      rw [hrow] at haccount
      cases haccount with | seen haccount =>
      have hcount := haccount.totalSwaps
      have hpos : 0 < p.profile.totalSwaps := of_decide_eq_true hpos
      rw [hcount] at hpos
      obtain ⟨e, he⟩ := List.exists_mem_of_length_pos (Int.natCast_pos.mp hpos)
      obtain ⟨he, hsender⟩ := List.mem_filter.mp he
      exact ⟨e, he, of_decide_eq_true hsender⟩
    · rintro ⟨e, he, hsender⟩
      cases hrow : ((storedSwaps x.2).foldl updateRanked .empty).get a with
      | none =>
        rw [hrow] at haccount
        cases haccount with | unseen hnone =>
        exact absurd (.inl hsender) (hnone e he)
      | some p =>
        rw [hrow] at haccount
        cases haccount with | seen haccount =>
        have hpos : 0 < ((x.1.swapEvents.rows ++ deletedSwaps x.2).filter
            fun e => decide (e.sender = a)).length :=
          List.length_pos_of_mem (List.mem_filter.mpr ⟨he, decide_eq_true hsender⟩)
        have hcount := haccount.totalSwaps
        have hkey : RankedProfile.userAddress p = a := Table.get_key hrow
        refine ⟨_, List.mem_map.mpr ⟨p, List.mem_filter.mpr ⟨Table.get_mem hrow, ?_⟩, rfl⟩, hkey⟩
        exact decide_eq_true (by omega)

theorem top_traders_flat_rolled :
    (∀ r ∈ topTraders (rankedProfiles rolledLedger.2),
      r.label = none ∧ r.totalVolumeUsd = 0 ∧ r.volumeRank = 1) ∧
    ∀ a, (∃ r ∈ topTraders (rankedProfiles rolledLedger.2), r.userAddress = a) ↔
      ∃ e ∈ rolledLedger.1.swapEvents.rows ++ deletedSwaps rolledLedger.2, e.sender = a :=
  top_traders_flat (.asciiOnly true) wordAbi rolledLedger_reachable

end Amarillo.L3
