import Amarillo.Core.LTS

/-!
# Bounded task pools

A caller works through a list with at most `limit` tasks at a time: it primes the pool, then
joins one finished task after the other, each replaced by the next item, and returns when the
pool is empty. Tasks finish in any order with any result, also while the pool is primed.

* `PoolInv`: items are spawned in their order, each has one task, and the pool is full as long
  as items remain.
* `pool_tally`: what a counter is worth, if it counts spawned items and results.
* `pool_bounded`, `pool_progress`: all runs end, and a caller waits only for running tasks.
* `Conserves`, `pool_conserves`: the results together, for two counters.
-/
namespace Amarillo.Core

universe u v w

/-- The counters `M` change when an item is spawned and when a result is joined. -/
structure PoolConfig (ρ : Type v) (M : Type w) where
  limit : Nat
  attempt : M → M
  count : ρ → M → M

structure PoolTask (ι : Type u) (ρ : Type v) where
  item : ι
  result : Option ρ

inductive PoolPc where
  | priming
  | draining
  | returned
  deriving DecidableEq, Repr

structure Pool (ι : Type u) (ρ : Type v) (M : Type w) where
  pc : PoolPc
  rest : List ι
  tasks : List (PoolTask ι ρ)
  metrics : M
  /-- ghost: the spawned items, in order -/
  spawned : List ι
  /-- ghost: the joined tasks, in order -/
  joined : List (ι × ρ)

inductive PoolLabel (ρ : Type v) where
  | spawn
  | primed
  | finish (k : Nat) (result : ρ)
  | join (k : Nat)
  | stop

variable {ι : Type u} {ρ : Type v} {M : Type w}

def Pool.start (m : M) (pending : List ι) : Pool ι ρ M := ⟨.priming, pending, [], m, [], []⟩

section Step
variable (C : PoolConfig ρ M)

@[simps] def Pool.spawn (s : Pool ι ρ M) (item : ι) (rest : List ι) : Pool ι ρ M :=
  { s with rest, tasks := s.tasks ++ [⟨item, none⟩], metrics := C.attempt s.metrics,
           spawned := s.spawned ++ [item] }

def Pool.refill (s : Pool ι ρ M) : Pool ι ρ M :=
  match s.rest with
  | [] => s
  | item :: rest => s.spawn C item rest

/-- Task `k` leaves the pool with its result. -/
@[simps] def Pool.take (s : Pool ι ρ M) (k : Nat) (item : ι) (result : ρ) : Pool ι ρ M :=
  { s with tasks := s.tasks.eraseIdx k, metrics := C.count result s.metrics,
           joined := s.joined ++ [(item, result)] }

def poolStep (s : Pool ι ρ M) : PoolLabel ρ → Option (Pool ι ρ M)
  | .spawn =>
    if s.pc = .priming ∧ s.tasks.length < C.limit then
      match s.rest with
      | [] => none
      | item :: rest => some (s.spawn C item rest)
    else none
  | .primed =>
    if s.pc = .priming ∧ (C.limit ≤ s.tasks.length ∨ s.rest.isEmpty) then some { s with pc := .draining }
    else none
  | .finish k result =>
    match s.tasks[k]? with
    | some ⟨item, none⟩ => some { s with tasks := s.tasks.set k ⟨item, some result⟩ }
    | _ => none
  | .join k =>
    if s.pc = .draining then
      match s.tasks[k]? with
      | some ⟨item, some result⟩ => some ((s.take C k item result).refill C)
      | _ => none
    else none
  | .stop => if s.pc = .draining ∧ s.tasks.isEmpty then some { s with pc := .returned } else none

def poolOf (m : M) (pending : List ι) : LTS (Pool ι ρ M) (PoolLabel ρ) :=
  .ofFn (· = .start m pending) (poolStep C)

end Step

/-! ## Steps -/

section Steps
variable {C : PoolConfig ρ M} {s s' : Pool ι ρ M} {l : PoolLabel ρ}

theorem poolStep_cases (h : poolStep C s l = some s') :
    (l = .spawn ∧ ∃ item rest, s.pc = .priming ∧ s.tasks.length < C.limit ∧ s.rest = item :: rest ∧
      s' = s.spawn C item rest) ∨
    (l = .primed ∧ s.pc = .priming ∧ (C.limit ≤ s.tasks.length ∨ s.rest = []) ∧
      s' = { s with pc := .draining }) ∨
    (∃ k item result, l = .finish k result ∧ s.tasks[k]? = some ⟨item, none⟩ ∧
      s' = { s with tasks := s.tasks.set k ⟨item, some result⟩ }) ∨
    (∃ k item result, l = .join k ∧ s.pc = .draining ∧ s.tasks[k]? = some ⟨item, some result⟩ ∧
      s' = (s.take C k item result).refill C) ∨
    (l = .stop ∧ s.pc = .draining ∧ s.tasks = [] ∧ s' = { s with pc := .returned }) := by
  cases l with
  | spawn =>
    simp only [poolStep] at h
    split at h
    · rename_i hg
      split at h
      · cases h
      · rename_i item rest hrest
        exact .inl ⟨rfl, item, rest, hg.1, hg.2, hrest, (Option.some.inj h).symm⟩
    · cases h
  | primed =>
    simp only [poolStep] at h
    split at h
    · rename_i hg
      rw [List.isEmpty_iff] at hg
      exact .inr (.inl ⟨rfl, hg.1, hg.2, (Option.some.inj h).symm⟩)
    · cases h
  | finish k result =>
    simp only [poolStep] at h
    split at h
    · rename_i item htask
      exact .inr (.inr (.inl ⟨k, item, result, rfl, htask, (Option.some.inj h).symm⟩))
    · cases h
  | join k =>
    simp only [poolStep] at h
    split at h
    · rename_i hpc
      split at h
      · rename_i item result htask
        exact .inr (.inr (.inr (.inl ⟨k, item, result, rfl, hpc, htask, (Option.some.inj h).symm⟩)))
      · cases h
    · cases h
  | stop =>
    simp only [poolStep] at h
    split at h
    · rename_i hg
      rw [List.isEmpty_iff] at hg
      exact .inr (.inr (.inr (.inr ⟨rfl, hg.1, hg.2, (Option.some.inj h).symm⟩)))
    · cases h

/-- A join, with and without an item to follow. -/
theorem Pool.refill_cases (s : Pool ι ρ M) :
    (s.rest = [] ∧ s.refill C = s) ∨
      ∃ item rest, s.rest = item :: rest ∧ s.refill C = s.spawn C item rest := by
  unfold Pool.refill
  cases hrest : s.rest with
  | nil => exact .inl ⟨rfl, rfl⟩
  | cons item rest => exact .inr ⟨item, rest, rfl, rfl⟩

/-! ## Invariants -/

structure PoolInv (C : PoolConfig ρ M) (pending : List ι) (s : Pool ι ρ M) : Prop where
  order : s.spawned ++ s.rest = pending
  bounded : s.tasks.length ≤ C.limit
  accounted : s.spawned.Perm (s.joined.map Prod.fst ++ s.tasks.map PoolTask.item)

/-- A pool with room has no items left, unless it is still primed. -/
structure PoolFull (C : PoolConfig ρ M) (s : Pool ι ρ M) : Prop where
  full : s.pc = .draining → s.rest ≠ [] → C.limit ≤ s.tasks.length
  ended : s.pc = .returned → s.tasks = [] ∧ s.rest = []

variable {pending : List ι} {k : Nat} {item : ι} {result : ρ}

theorem PoolInv.spawn (h : PoolInv C pending s) {rest : List ι} (hrest : s.rest = item :: rest)
    (hroom : s.tasks.length < C.limit) : PoolInv C pending (s.spawn C item rest) where
  order := by
    have horder := h.order
    rw [hrest, List.append_cons] at horder
    exact horder
  bounded := by
    rw [Pool.spawn_tasks, List.length_append]
    exact hroom
  accounted := by
    have hperm := h.accounted.append_right [item]
    rw [List.append_assoc] at hperm
    rw [Pool.spawn_tasks, List.map_append]
    exact hperm

/-- A task that leaves makes room for one. -/
theorem take_room (s : Pool ι ρ M) (htask : s.tasks[k]? = some ⟨item, some result⟩) :
    (s.take C k item result).tasks.length + 1 = s.tasks.length :=
  List.length_eraseIdx_add_one (List.getElem?_eq_some_iff.mp htask).1

/-- A task is one of the tasks of its pool. -/
theorem tasks_perm {tasks : List (PoolTask ι ρ)} {t : PoolTask ι ρ} (htask : tasks[k]? = some t) :
    tasks.Perm (t :: tasks.eraseIdx k) := by
  obtain ⟨hk, rfl⟩ := List.getElem?_eq_some_iff.mp htask
  exact (List.getElem_cons_eraseIdx_perm hk).symm

theorem set_perm {tasks : List (PoolTask ι ρ)} {t : PoolTask ι ρ} (htask : tasks[k]? = some t)
    (t' : PoolTask ι ρ) : (tasks.set k t').Perm (t' :: tasks.eraseIdx k) :=
  List.set_perm_cons_eraseIdx (List.getElem?_eq_some_iff.mp htask).1 t'

theorem PoolInv.take (h : PoolInv C pending s) (htask : s.tasks[k]? = some ⟨item, some result⟩) :
    PoolInv C pending (s.take C k item result) where
  order := h.order
  bounded := by
    have hroom := take_room (C := C) s htask
    have hbound := h.bounded
    omega
  accounted := by
    rw [Pool.take_joined, Pool.take_tasks, List.map_append, List.append_assoc]
    exact h.accounted.trans (((tasks_perm htask).map PoolTask.item).append_left _)

theorem PoolInv.step (h : PoolInv C pending s) (hs : poolStep C s l = some s') : PoolInv C pending s' := by
  rcases poolStep_cases hs with ⟨-, item, rest, -, hroom, hrest, rfl⟩ | ⟨-, -, -, rfl⟩ |
    ⟨k, item, result, -, htask, rfl⟩ | ⟨k, item, result, -, -, htask, rfl⟩ | ⟨-, -, -, rfl⟩
  · exact h.spawn hrest hroom
  · exact ⟨h.order, h.bounded, h.accounted⟩
  · have hset := (set_perm htask ⟨item, some result⟩).map PoolTask.item
    have hitems := (tasks_perm htask).map PoolTask.item
    exact ⟨h.order, by rw [List.length_set]; exact h.bounded,
      h.accounted.trans ((hitems.trans hset.symm).append_left _)⟩
  · have htake : PoolInv C pending (s.take C k item result) := h.take htask
    have hroom := take_room (C := C) s htask
    have hbound := h.bounded
    rcases (s.take C k item result).refill_cases (C := C) with ⟨-, heq⟩ | ⟨next, rest, hrest, heq⟩
    · rw [heq]
      exact htake
    · rw [heq]
      exact htake.spawn hrest (by omega)
  · exact ⟨h.order, h.bounded, h.accounted⟩

theorem PoolFull.of_priming (h : s.pc = .priming) : PoolFull C s := by
  refine ⟨fun hdr => ?_, fun hret => ?_⟩
  · rw [h] at hdr
    cases hdr
  · rw [h] at hret
    cases hret

theorem PoolFull.step (h : PoolFull C s) (hlimit : 0 < C.limit) (hs : poolStep C s l = some s') :
    PoolFull C s' := by
  rcases poolStep_cases hs with ⟨-, item, rest, hpc, -, -, rfl⟩ | ⟨-, -, hready, rfl⟩ |
    ⟨k, item, result, -, htask, rfl⟩ | ⟨k, item, result, -, hpc, htask, rfl⟩ | ⟨-, hpc, hempty, rfl⟩
  · exact .of_priming hpc
  · exact ⟨fun _ hne => hready.resolve_right hne, fun hret => by cases hret⟩
  · refine ⟨fun hdr hne => ?_, fun hret => ?_⟩
    · rw [List.length_set]
      exact h.full hdr hne
    · -- nothing finishes in a pool that has returned
      rw [(h.ended hret).1] at htask
      cases htask
  · have hroom := take_room (C := C) s htask
    rcases (s.take C k item result).refill_cases (C := C) with ⟨hnil, heq⟩ | ⟨next, rest, hrest, heq⟩
    · rw [heq]
      refine ⟨fun _ hne => absurd hnil hne, fun hret => ?_⟩
      rw [Pool.take_pc, hpc] at hret
      cases hret
    · rw [heq]
      have hrest : s.rest = next :: rest := hrest
      have hfull : C.limit ≤ s.tasks.length := h.full hpc (by rw [hrest]; exact List.cons_ne_nil _ _)
      refine ⟨fun _ _ => ?_, fun hret => ?_⟩
      · rw [Pool.spawn_tasks, List.length_append, List.length_singleton]
        omega
      · rw [Pool.spawn_pc, Pool.take_pc, hpc] at hret
        cases hret
  · have hnil : s.rest = [] := by
      by_contra hne
      have hfull := h.full hpc hne
      rw [hempty, List.length_nil] at hfull
      omega
    exact ⟨fun _ hne => absurd hnil hne, fun _ => ⟨hempty, hnil⟩⟩

end Steps

/-! ## Runs -/

section Runs
variable {C : PoolConfig ρ M} {pending : List ι} {m : M} {s s' : Pool ι ρ M}

theorem poolInv_reachable (hr : (poolOf C m pending).Reachable s) : PoolInv C pending s := by
  refine LTS.Inductive.reachable (T := poolOf C m pending) ⟨?_, fun _ _ _ h hs => h.step hs⟩ s hr
  rintro s rfl
  exact ⟨rfl, Nat.zero_le _, .nil⟩

theorem poolFull_reachable (hlimit : 0 < C.limit) (hr : (poolOf C m pending).Reachable s) :
    PoolFull C s := by
  refine LTS.Inductive.reachable (T := poolOf C m pending) ⟨?_, fun _ _ _ h hs => h.step hlimit hs⟩ s hr
  rintro s rfl
  exact .of_priming rfl

/-- A counter that goes up by `a` for an item and by `b` for a result. -/
theorem pool_tally {f : M → Nat} {a : Nat} {b : ρ → Nat} (hattempt : ∀ m, f (C.attempt m) = f m + a)
    (hcount : ∀ r m, f (C.count r m) = f m + b r) (hr : (poolOf C m pending).Reachable s) :
    f s.metrics = f m + s.spawned.length * a + (s.joined.map fun t => b t.2).sum := by
  refine LTS.Inductive.reachable (T := poolOf C m pending) (I := fun s => f s.metrics =
    f m + s.spawned.length * a + (s.joined.map fun t => b t.2).sum) ⟨?_, fun s l s' h hs => ?_⟩ s hr
  · rintro s rfl
    simp [Pool.start]
  · have hspawn : ∀ {s : Pool ι ρ M} {item rest},
        f s.metrics = f m + s.spawned.length * a + (s.joined.map fun t => b t.2).sum →
        f (s.spawn C item rest).metrics = f m + (s.spawn C item rest).spawned.length * a +
          ((s.spawn C item rest).joined.map fun t => b t.2).sum := fun {s item rest} h => by
      simp only [Pool.spawn_metrics, Pool.spawn_spawned, Pool.spawn_joined, hattempt, h,
        List.length_append, List.length_singleton, Nat.add_mul]
      omega
    rcases poolStep_cases hs with ⟨-, item, rest, -, -, -, rfl⟩ | ⟨-, -, -, rfl⟩ |
      ⟨k, item, result, -, -, rfl⟩ | ⟨k, item, result, -, -, -, rfl⟩ | ⟨-, -, -, rfl⟩
    · exact hspawn h
    · exact h
    · exact h
    · have htake : f (s.take C k item result).metrics = f m + (s.take C k item result).spawned.length * a +
          ((s.take C k item result).joined.map fun t => b t.2).sum := by
        simp only [Pool.take_metrics, Pool.take_spawned, Pool.take_joined, hcount, h, List.map_append,
          List.map_cons, List.map_nil, List.sum_append, List.sum_singleton]
        omega
      rcases (s.take C k item result).refill_cases (C := C) with ⟨-, heq⟩ | ⟨next, rest, -, heq⟩
      · rw [heq]
        exact htake
      · rw [heq]
        exact hspawn htake
    · exact h

/-! ## Termination -/

def PoolTask.work (t : PoolTask ι ρ) : Nat := if t.result.isSome then 1 else 2

def PoolPc.work : PoolPc → Nat
  | .priming => 2
  | .draining => 1
  | .returned => 0

/-- How many steps a pool can take. -/
def Pool.work (s : Pool ι ρ M) : Nat :=
  s.rest.length * 3 + (s.tasks.map PoolTask.work).sum + s.pc.work

theorem work_spawn {item : ι} {rest : List ι} (hrest : s.rest = item :: rest) :
    (s.spawn C item rest).work + 1 = s.work := by
  simp only [Pool.work, Pool.spawn_rest, Pool.spawn_tasks, Pool.spawn_pc, hrest, List.map_append,
    List.map_cons, List.map_nil, List.sum_append, List.sum_singleton, List.length_cons, PoolTask.work]
  simp only [Option.isSome_none, Bool.false_eq_true, if_false]
  omega

theorem work_take {k : Nat} {item : ι} {result : ρ} (htask : s.tasks[k]? = some ⟨item, some result⟩) :
    (s.take C k item result).work + 1 = s.work := by
  have hsum := ((tasks_perm htask).map PoolTask.work).sum_eq
  rw [List.map_cons, List.sum_cons] at hsum
  simp only [Pool.work, Pool.take_rest, Pool.take_tasks, Pool.take_pc, hsum, PoolTask.work,
    Option.isSome_some, if_true]
  omega

theorem work_step {l : PoolLabel ρ} (hs : poolStep C s l = some s') : s'.work < s.work := by
  rcases poolStep_cases hs with ⟨-, item, rest, -, -, hrest, rfl⟩ | ⟨-, hpc, -, rfl⟩ |
    ⟨k, item, result, -, htask, rfl⟩ | ⟨k, item, result, -, -, htask, rfl⟩ | ⟨-, hpc, -, rfl⟩
  · have := work_spawn (C := C) hrest
    omega
  · simp only [Pool.work, hpc, PoolPc.work]
    omega
  · have hset := ((set_perm htask ⟨item, some result⟩).map PoolTask.work).sum_eq
    have hsum := ((tasks_perm htask).map PoolTask.work).sum_eq
    rw [List.map_cons, List.sum_cons] at hset hsum
    simp only [Pool.work, hset, hsum, PoolTask.work, Option.isSome_some, Option.isSome_none,
      Bool.false_eq_true, if_true, if_false]
    omega
  · have htake := work_take (C := C) htask
    rcases (s.take C k item result).refill_cases (C := C) with ⟨-, heq⟩ | ⟨next, rest, hrest, heq⟩
    · rw [heq]
      omega
    · have := work_spawn (C := C) hrest
      rw [heq]
      omega
  · simp only [Pool.work, hpc, PoolPc.work]
    omega

/-- All runs end. -/
theorem pool_bounded {ls : List (PoolLabel ρ)} (hrun : (poolOf C m pending).Run s ls s') :
    ls.length + s'.work ≤ s.work := by
  induction hrun with
  | nil s => simp
  | cons hs _ ih =>
    have hless := work_step hs
    rw [List.length_cons]
    omega

/-- A caller that has not returned takes a step, or waits for a running task. -/
theorem pool_progress (C : PoolConfig ρ M) (h : s.pc ≠ .returned) :
    (∃ t ∈ s.tasks, t.result = none) ∨
      ∃ l s', poolStep C s l = some s' ∧ ∀ k result, l ≠ .finish k result := by
  cases hpc : s.pc with
  | returned => exact absurd hpc h
  | priming =>
    right
    by_cases hroom : s.tasks.length < C.limit
    · cases hrest : s.rest with
      | nil =>
        exact ⟨.primed, _, if_pos ⟨hpc, .inr (by rw [hrest]; rfl)⟩, fun k result => by simp⟩
      | cons item rest =>
        refine ⟨.spawn, s.spawn C item rest, ?_, fun k result => by simp⟩
        simp only [poolStep]
        rw [if_pos ⟨hpc, hroom⟩, hrest]
    · exact ⟨.primed, _, if_pos ⟨hpc, .inl (Nat.le_of_not_lt hroom)⟩, fun k result => by simp⟩
  | draining =>
    cases htasks : s.tasks with
    | nil =>
      right
      exact ⟨.stop, _, if_pos ⟨hpc, by rw [htasks]; rfl⟩, fun k result => by simp⟩
    | cons t ts =>
      obtain ⟨item, result⟩ := t
      cases result with
      | none => exact .inl ⟨_, List.mem_cons_self, rfl⟩
      | some result =>
        right
        refine ⟨.join 0, (s.take C 0 item result).refill C, ?_, fun k result => by simp⟩
        simp only [poolStep]
        rw [if_pos hpc, htasks]
        rfl

end Runs

/-! ## Conservation -/

/-- What a pool with these counters promises for a list of items. -/
structure Conserves (C : PoolConfig ρ M) (tried settled : M → Nat) (m : M) (pending : List ι) : Prop where
  /-- The items are spawned in order, each has one task, and at most `limit` tasks are alive. -/
  safe : ∀ s, (poolOf C m pending).Reachable s → s.spawned ++ s.rest = pending ∧
    s.spawned.Perm (s.joined.map Prod.fst ++ s.tasks.map PoolTask.item) ∧ s.tasks.length ≤ C.limit
  /-- On return all items were spawned, all tasks have finished, and both counters went up by one
  for each item. -/
  returned : ∀ s, (poolOf C m pending).Reachable s → s.pc = .returned →
    s.spawned = pending ∧ s.tasks = [] ∧ tried s.metrics = tried m + pending.length ∧
      settled s.metrics = settled m + pending.length
  /-- The pool does return, once its tasks finish. -/
  returns : ∀ ls s, (poolOf C m pending).Run (.start m pending) ls s →
    ls.length ≤ pending.length * 3 + 2 ∧ (s.pc ≠ .returned → (∃ t ∈ s.tasks, t.result = none) ∨
      ∃ l s', poolStep C s l = some s' ∧ ∀ k result, l ≠ .finish k result)

theorem pool_conserves (C : PoolConfig ρ M) (hlimit : 0 < C.limit) {tried settled : M → Nat}
    (hattempt : ∀ m, tried (C.attempt m) = tried m + 1 ∧ settled (C.attempt m) = settled m)
    (hcount : ∀ r m, tried (C.count r m) = tried m ∧ settled (C.count r m) = settled m + 1) (m : M)
    (pending : List ι) : Conserves C tried settled m pending where
  safe := fun s hr =>
    have h := poolInv_reachable hr
    ⟨h.order, h.accounted, h.bounded⟩
  returned := fun s hr hret => by
    have h := poolInv_reachable hr
    obtain ⟨htasks, hrest⟩ := (poolFull_reachable hlimit hr).ended hret
    have hspawned : s.spawned = pending := by
      have horder := h.order
      rwa [hrest, List.append_nil] at horder
    have hjoined : s.joined.length = pending.length := by
      have hlen := h.accounted.length_eq
      rw [htasks, List.map_nil, List.append_nil, List.length_map, hspawned] at hlen
      exact hlen.symm
    have htried := pool_tally (a := 1) (b := fun _ => 0) (fun m => (hattempt m).1) (fun r m => (hcount r m).1) hr
    have hsettled := pool_tally (a := 0) (b := fun _ => 1) (fun m => (hattempt m).2) (fun r m => (hcount r m).2) hr
    refine ⟨hspawned, htasks, ?_, ?_⟩
    · rw [htried, hspawned]
      simp
    · rw [hsettled]
      simp [hjoined]
  returns := fun ls s hrun => by
    have hbound := pool_bounded hrun
    have hwork : (Pool.start m pending : Pool ι ρ M).work = pending.length * 3 + 2 := rfl
    exact ⟨by omega, pool_progress C⟩

end Amarillo.Core
