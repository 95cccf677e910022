import Amarillo.L3Indexer.Fork

/-!
# The lazy fork scan (`WorkerPool::detect_fork`)

`forkScan` is the loop of `detect_fork` with the cache it keeps: a height is
asked for once, the heights asked for are listed, and the first one that is
not to be had ends the scan. On a fixed view of the chain it returns what
`detectFork` returns (`forkScan_detectFork`).

What it should return is `lowestStale`: the lowest block of the stale run that
starts at the tip. `forkScan_spec` collects the results for blocks in strictly
descending order:
* the loop ends;
* with every hash at hand it returns `lowestStale`, as one pass at full depth
  does;
* a height `f` that it returns has only stale blocks from `f` up, and the next
  block below, if any, is on the chain;
* a missing hash among those asked for means no rollback.
-/
namespace Amarillo.L3
open Amarillo.Core Amarillo.L2

/-! ## The loop with its cache -/

/-- Heights and their chain hashes, as fetched. -/
abbrev ChainCache := List (Nat × String)

/-- One window: the cache after it, unless a hash was missing, and the heights
asked for.
mirrors crates/indexer/src/worker.rs:270-288 -/
def fetchWindow (hashAt : Nat → Option String) :
    List (Nat × String) → ChainCache → Option ChainCache × List Nat
  | [], chain => (some chain, [])
  | (height, _) :: rest, chain =>
    if (chain.lookup height).isSome then fetchWindow hashAt rest chain
    else
      match hashAt height with
      | none => (none, [height])
      | some hash =>
        let r := fetchWindow hashAt rest ((height, hash) :: chain)
        (r.1, height :: r.2)

/-- The answer and the heights asked for; `none` without fuel.
mirrors crates/indexer/src/worker.rs:268-304 -/
def forkScanLoop (blocks : List (Nat × String)) (hashAt : Nat → Option String) :
    Nat → Nat → ChainCache → Option (Option Nat × List Nat)
  | 0, _, _ => none
  | fuel + 1, depth, chain =>
    match fetchWindow hashAt (blocks.take depth) chain with
    | (none, asked) => some (none, asked)
    | (some chain', asked) =>
      match classifyFork blocks (chain'.lookup ·) depth with
      | .noReorg => some (none, asked)
      | .inconclusive => some (none, asked)
      | .fork f => some (some f, asked)
      | .needDeeper =>
        let next := nextScanDepth depth blocks.length
        if next = depth then some (blocks.getLast?.map Prod.fst, asked)
        else (forkScanLoop blocks hashAt fuel next chain').map fun r => (r.1, asked ++ r.2)

/-- mirrors crates/indexer/src/worker.rs:256-305 -/
def forkScan (blocks : List (Nat × String)) (hashAt : Nat → Option String) :
    Option (Option Nat × List Nat) :=
  if blocks.isEmpty then some (none, []) else forkScanLoop blocks hashAt blocks.length 1 []

/-- What a scan rolls back to. -/
def ForkScan.toOption : ForkScan → Option Nat
  | .fork f => some f
  | _ => none

section
variable {blocks : List (Nat × String)} {hashAt : Nat → Option String}

/-! ## The cache is transparent -/

/-- The cache holds hashes of the chain only. -/
def ChainCache.Sound (hashAt : Nat → Option String) (chain : ChainCache) : Prop :=
  ∀ height hash, chain.lookup height = some hash → hashAt height = some hash

theorem sound_cons {chain : ChainCache} {height : Nat} {hash : String}
    (h : chain.Sound hashAt) (hh : hashAt height = some hash) :
    ChainCache.Sound hashAt ((height, hash) :: chain) := by
  intro x y hxy
  rw [List.lookup_cons] at hxy
  by_cases hx : x = height
  · rw [beq_iff_eq.mpr hx] at hxy
    cases hxy
    rw [hx, hh]
  · rw [beq_eq_false_iff_ne.mpr hx] at hxy
    exact h x y hxy

/-- A window that is complete extends the cache over its heights. -/
theorem fetchWindow_some {window : List (Nat × String)} {chain chain' : ChainCache}
    {asked : List Nat} (h : chain.Sound hashAt)
    (hf : fetchWindow hashAt window chain = (some chain', asked)) :
    chain'.Sound hashAt ∧ (∀ height, (chain.lookup height).isSome → (chain'.lookup height).isSome) ∧
      (∀ b ∈ window, (chain'.lookup b.1).isSome) ∧ ∀ height ∈ asked, hashAt height ≠ none := by
  induction window generalizing chain asked with
  | nil =>
    cases hf
    exact ⟨h, fun _ hx => hx, List.forall_mem_nil _, List.forall_mem_nil _⟩
  | cons b rest ih =>
    obtain ⟨height, stored⟩ := b
    rw [fetchWindow] at hf
    split at hf
    · rename_i hcached
      obtain ⟨hs, hmono, hwin, hasked⟩ := ih h hf
      exact ⟨hs, hmono, List.forall_mem_cons.mpr ⟨hmono _ hcached, hwin⟩, hasked⟩
    · split at hf
      · cases hf
      · rename_i hash hhash
        have hrest : (fetchWindow hashAt rest ((height, hash) :: chain)).1 = some chain' :=
          congrArg Prod.fst hf
        obtain ⟨hs, hmono, hwin, hasked⟩ := ih (sound_cons h hhash) (Prod.ext hrest rfl)
        have hlook : ∀ x, (chain.lookup x).isSome ∨ x = height → (chain'.lookup x).isSome := by
          intro x hx
          refine hmono x ?_
          rw [List.lookup_cons]
          split
          · rfl
          · rename_i hne
            exact hx.resolve_right fun e => by simp [e] at hne
        have hlog : asked = height :: (fetchWindow hashAt rest ((height, hash) :: chain)).2 :=
          (congrArg Prod.snd hf).symm
        refine ⟨hs, fun x hx => hlook x (.inl hx), ?_, ?_⟩
        · exact List.forall_mem_cons.mpr ⟨hlook height (.inr rfl), hwin⟩
        · rw [hlog, List.forall_mem_cons]
          exact ⟨by simp [hhash], hasked⟩

/-- A window breaks off at a height that cannot be had. -/
theorem fetchWindow_none {window : List (Nat × String)} {chain : ChainCache} {asked : List Nat}
    (hf : fetchWindow hashAt window chain = (none, asked)) :
    ∃ b ∈ window, hashAt b.1 = none := by
  induction window generalizing chain asked with
  | nil => cases hf
  | cons b rest ih =>
    obtain ⟨height, stored⟩ := b
    rw [fetchWindow] at hf
    split at hf
    · obtain ⟨x, hx, hnone⟩ := ih hf
      exact ⟨x, List.mem_cons_of_mem _ hx, hnone⟩
    · split at hf
      · rename_i hnone
        exact ⟨_, List.mem_cons_self, hnone⟩
      · rename_i hash hhash
        have hrest : (fetchWindow hashAt rest ((height, hash) :: chain)).1 = none :=
          congrArg Prod.fst hf
        obtain ⟨x, hx, hnone⟩ := ih (Prod.ext hrest rfl)
        exact ⟨x, List.mem_cons_of_mem _ hx, hnone⟩

theorem scanFork_congr {g : Nat → Option String} {deeper : Bool} {m : Option Nat}
    (h : ∀ b ∈ blocks, g b.1 = hashAt b.1) :
    scanFork g deeper m blocks = scanFork hashAt deeper m blocks := by
  induction blocks generalizing m with
  | nil => rfl
  | cons b rest ih =>
    obtain ⟨hb, hrest⟩ := List.forall_mem_cons.mp h
    rw [scanFork, scanFork, hb]
    split
    · rfl
    · split
      · rfl
      · exact ih hrest

theorem classifyFork_congr {g : Nat → Option String} {depth : Nat}
    (h : ∀ b ∈ blocks.take depth, g b.1 = hashAt b.1) :
    classifyFork blocks g depth = classifyFork blocks hashAt depth := by
  unfold classifyFork
  simp only
  split
  · rfl
  · refine scanFork_congr fun b hb => h b ?_
    rwa [← List.take_eq_take_min] at hb

/-- What the loop returns with a cache is what it returns without one. -/
theorem forkScanLoop_detectLoop {fuel depth : Nat} {chain : ChainCache} (h : chain.Sound hashAt) :
    (forkScanLoop blocks hashAt fuel depth chain).map Prod.fst =
      detectLoop blocks hashAt fuel depth := by
  induction fuel generalizing depth chain with
  | zero => rfl
  | succ fuel ih =>
    rw [forkScanLoop, detectLoop]
    cases hf : fetchWindow hashAt (blocks.take depth) chain with
    | mk fetched asked =>
      cases fetched with
      | none =>
        obtain ⟨b, hb, hnone⟩ := fetchWindow_none hf
        rw [if_neg]
        · rfl
        · intro hall
          have := List.all_eq_true.mp hall b hb
          rw [hnone] at this
          cases this
      | some chain' =>
        obtain ⟨hsound, -, hwin, -⟩ := fetchWindow_some h hf
        have hagree : ∀ b ∈ blocks.take depth, chain'.lookup b.1 = hashAt b.1 := by
          intro b hb
          obtain ⟨hash, hhash⟩ := Option.isSome_iff_exists.mp (hwin b hb)
          rw [hhash, hsound _ _ hhash]
        have hall : (blocks.take depth).all (fun b => (hashAt b.1).isSome) = true := by
          refine List.all_eq_true.mpr fun b hb => ?_
          rw [← hagree b hb]
          exact hwin b hb
        simp only
        rw [if_pos hall, classifyFork_congr hagree]
        cases classifyFork blocks hashAt depth with
        | noReorg => rfl
        | inconclusive => rfl
        | fork f => rfl
        | needDeeper =>
          simp only
          split
          · rfl
          · rw [← ih hsound, Option.map_map]
            rfl

theorem forkScan_detectFork (blocks : List (Nat × String)) (hashAt : Nat → Option String) :
    (forkScan blocks hashAt).map Prod.fst = some (detectFork blocks hashAt) := by
  unfold forkScan detectFork
  by_cases he : blocks.isEmpty = true
  · rw [if_pos he, if_pos he]
    rfl
  · have hpos : 0 < blocks.length := by
      cases blocks with
      | nil => exact absurd rfl he
      | cons b rest => exact Nat.succ_pos _
    have hsome : (detectLoop blocks hashAt blocks.length 1).isSome :=
      detectLoop_isSome (Nat.lt_succ_self blocks.length) hpos
    obtain ⟨r, hr⟩ := Option.isSome_iff_exists.mp hsome
    have hempty : ChainCache.Sound hashAt [] := by
      intro height hash hx
      cases hx
    rw [if_neg he, if_neg he, forkScanLoop_detectLoop hempty, hr]
    rfl

/-- A height that was asked for in vain leaves everything in place. -/
theorem forkScanLoop_missing {fuel depth : Nat} {chain : ChainCache} {r : Option Nat}
    {asked : List Nat} (h : chain.Sound hashAt)
    (hr : forkScanLoop blocks hashAt fuel depth chain = some (r, asked)) {height : Nat}
    (hasked : height ∈ asked) (hnone : hashAt height = none) : r = none := by
  induction fuel generalizing depth chain r asked with
  | zero => cases hr
  | succ fuel ih =>
    rw [forkScanLoop] at hr
    cases hf : fetchWindow hashAt (blocks.take depth) chain with
    | mk fetched log =>
      rw [hf] at hr
      cases fetched with
      | none =>
        cases hr
        rfl
      | some chain' =>
        obtain ⟨hsound, -, -, hlog⟩ := fetchWindow_some h hf
        simp only at hr
        cases hc : classifyFork blocks (chain'.lookup ·) depth with
        | noReorg =>
          rw [hc] at hr
          cases hr
          rfl
        | inconclusive =>
          rw [hc] at hr
          cases hr
          rfl
        | fork f =>
          rw [hc] at hr
          cases hr
          exact absurd hnone (hlog height hasked)
        | needDeeper =>
          rw [hc] at hr
          simp only at hr
          split at hr
          · cases hr
            exact absurd hnone (hlog height hasked)
          · obtain ⟨⟨r', log'⟩, hr', heq⟩ := Option.map_eq_some_iff.mp hr
            cases heq
            rcases List.mem_append.mp hasked with hmem | hmem
            · exact absurd hnone (hlog height hmem)
            · exact ih hsound hr' hmem

/-! ## The stale run at the tip -/

/-- The chain has another hash at the height of a block. -/
def isStale (hashAt : Nat → Option String) (b : Nat × String) : Bool :=
  (hashAt b.1).any (· ≠ b.2)

/-- The lowest block of the stale run that starts at the tip. -/
def lowestStale (hashAt : Nat → Option String) (blocks : List (Nat × String)) : Option Nat :=
  (blocks.takeWhile (isStale hashAt)).getLast?.map Prod.fst

theorem isStale_iff {b : Nat × String} :
    isStale hashAt b = true ↔ ∃ c, hashAt b.1 = some c ∧ c ≠ b.2 := by
  rw [isStale, Option.any_eq_true]
  simp

theorem mem_takeWhile_stale {b : Nat × String} (h : b ∈ blocks.takeWhile (isStale hashAt)) :
    ∃ c, hashAt b.1 = some c ∧ c ≠ b.2 :=
  isStale_iff.mp (List.mem_takeWhile_imp h)

theorem isStale_false {b : Nat × String} (hknown : (hashAt b.1).isSome)
    (h : isStale hashAt b = false) : hashAt b.1 = some b.2 := by
  obtain ⟨c, hc⟩ := Option.isSome_iff_exists.mp hknown
  by_contra hne
  have : isStale hashAt b = true := isStale_iff.mpr ⟨c, hc, fun e => hne (by rw [hc, e])⟩
  rw [h] at this
  cases this

/-- The head of what a `dropWhile` leaves fails the test. -/
theorem isStale_dropWhile {b : Nat × String} {rest : List (Nat × String)}
    (h : blocks.dropWhile (isStale hashAt) = b :: rest) : isStale hashAt b = false := by
  have := List.head?_dropWhile_not (isStale hashAt) blocks
  rw [h] at this
  simpa using this

/-- A scan answers at the first block below the stale run. -/
theorem scanFork_run (deeper : Bool) :
    scanFork hashAt deeper none blocks =
      match blocks.dropWhile (isStale hashAt) with
      | [] => if deeper then .needDeeper else matchedAt (lowestStale hashAt blocks)
      | b :: _ =>
        if (hashAt b.1).isSome then matchedAt (lowestStale hashAt blocks) else .inconclusive := by
  have hknown : ∀ b ∈ blocks.takeWhile (isStale hashAt), (hashAt b.1).isSome := by
    intro b hb
    obtain ⟨c, hc, -⟩ := mem_takeWhile_stale hb
    rw [hc]
    rfl
  have hne : ∀ b ∈ blocks.takeWhile (isStale hashAt), hashAt b.1 ≠ some b.2 := by
    intro b hb e
    obtain ⟨c, hc, hcne⟩ := mem_takeWhile_stale hb
    exact hcne (Option.some.inj (hc.symm.trans e))
  calc scanFork hashAt deeper none blocks
      = scanFork hashAt deeper none
          (blocks.takeWhile (isStale hashAt) ++ blocks.dropWhile (isStale hashAt)) := by
        rw [List.takeWhile_append_dropWhile]
    _ = scanFork hashAt deeper (lowestStale hashAt blocks)
          (blocks.dropWhile (isStale hashAt)) := by
        rw [scanFork_append hknown hne, Option.or_none]
        rfl
    _ = _ := by
        cases hd : blocks.dropWhile (isStale hashAt) with
        | nil => rfl
        | cons b rest =>
          have hb := isStale_dropWhile hd
          simp only
          split
          · rename_i hsome
            rw [scanFork_good (isStale_false hsome hb)]
          · rename_i hnone
            rw [scanFork]
            simp only [Option.not_isSome_iff_eq_none.mp hnone]

theorem matchedAt_toOption (low : Option Nat) : (matchedAt low).toOption = low := by
  cases low with
  | none => rfl
  | some f => rfl

/-- A window that reaches below the stale run shows all of it. -/
theorem run_of_window {n : Nat} {b : Nat × String} {rest : List (Nat × String)}
    (h : (blocks.take n).dropWhile (isStale hashAt) = b :: rest) :
    lowestStale hashAt blocks = lowestStale hashAt (blocks.take n) ∧
      (blocks.dropWhile (isStale hashAt)).head? = some b := by
  have hshort : ((blocks.take n).takeWhile (isStale hashAt)).length ≠ (blocks.take n).length := by
    have hsplit := congrArg List.length
      (List.takeWhile_append_dropWhile (p := isStale hashAt) (l := blocks.take n))
    rw [h, List.length_append, List.length_cons] at hsplit
    omega
  have htake : blocks.takeWhile (isStale hashAt) = (blocks.take n).takeWhile (isStale hashAt) := by
    conv_lhs => rw [← List.take_append_drop n blocks]
    rw [List.takeWhile_append, if_neg hshort]
  have hdrop : blocks.dropWhile (isStale hashAt) = b :: rest ++ blocks.drop n := by
    conv_lhs => rw [← List.take_append_drop n blocks]
    rw [List.dropWhile_append, h]
    rfl
  exact ⟨by rw [lowestStale, lowestStale, htake], by rw [hdrop]; rfl⟩

/-- A fork that a window names is the one of the whole list, and the block
below it is on the chain. -/
theorem classifyFork_fork {depth f : Nat} (h : classifyFork blocks hashAt depth = .fork f) :
    lowestStale hashAt blocks = some f ∧
      ∀ b ∈ (blocks.dropWhile (isStale hashAt)).head?, hashAt b.1 = some b.2 := by
  unfold classifyFork at h
  simp only at h
  split at h
  · cases h
  rw [scanFork_run] at h
  cases hd : (blocks.take (min depth blocks.length)).dropWhile (isStale hashAt) with
  | nil =>
    rw [hd] at h
    simp only at h
    split at h
    · cases h
    · -- the window is the whole list
      rename_i hdeep
      have hall : blocks.take (min depth blocks.length) = blocks := by
        refine List.take_of_length_le ?_
        simpa using hdeep
      rw [hall] at h hd
      have hlow := congrArg ForkScan.toOption h
      rw [matchedAt_toOption] at hlow
      exact ⟨hlow, by simp [hd]⟩
  | cons b rest =>
    rw [hd] at h
    simp only at h
    split at h
    · rename_i hknown
      have hlow := congrArg ForkScan.toOption h
      rw [matchedAt_toOption] at hlow
      obtain ⟨heq, hhead⟩ := run_of_window hd
      refine ⟨heq.trans hlow, ?_⟩
      rw [hhead]
      rintro x hx
      cases hx
      exact isStale_false hknown (isStale_dropWhile hd)
    · cases h

theorem detectLoop_fork {fuel depth f : Nat} (h : detectLoop blocks hashAt fuel depth = some (some f)) :
    lowestStale hashAt blocks = some f ∧
      ∀ b ∈ (blocks.dropWhile (isStale hashAt)).head?, hashAt b.1 = some b.2 := by
  induction fuel generalizing depth with
  | zero => cases h
  | succ fuel ih =>
    rw [detectLoop] at h
    split at h
    · cases hc : classifyFork blocks hashAt depth with
      | noReorg =>
        rw [hc] at h
        cases h
      | inconclusive =>
        rw [hc] at h
        cases h
      | fork g =>
        rw [hc] at h
        cases h
        exact classifyFork_fork hc
      | needDeeper =>
        have hgt := nextScanDepth_gt (classifyFork_needDeeper hc)
        rw [hc] at h
        simp only at h
        rw [if_neg (by omega)] at h
        exact ih h
    · cases h

theorem detectFork_fork {f : Nat} (h : detectFork blocks hashAt = some f) :
    lowestStale hashAt blocks = some f ∧
      ∀ b ∈ (blocks.dropWhile (isStale hashAt)).head?, hashAt b.1 = some b.2 := by
  unfold detectFork at h
  split at h
  · cases h
  · cases hr : detectLoop blocks hashAt blocks.length 1 with
    | none =>
      rw [hr] at h
      cases h
    | some r =>
      rw [hr, Option.getD_some] at h
      rw [h] at hr
      exact detectLoop_fork hr

/-! ## Every hash at hand -/

theorem detectFork_lowestStale (hall : ∀ b ∈ blocks, (hashAt b.1).isSome) :
    detectFork blocks hashAt = lowestStale hashAt blocks := by
  cases h : detectFork blocks hashAt with
  | some f => exact (detectFork_fork h).1.symm
  | none =>
    cases blocks with
    | nil => rfl
    | cons tip rest =>
      have htip := tip_of_detectFork hall h
      have hfalse : isStale hashAt tip = false := by simp [isStale, htip]
      rw [lowestStale, List.takeWhile_cons, hfalse]
      rfl

/-- One pass over all blocks names the same height. -/
theorem classifyFork_lowestStale (hall : ∀ b ∈ blocks, (hashAt b.1).isSome) :
    (classifyFork blocks hashAt blocks.length).toOption = lowestStale hashAt blocks := by
  unfold classifyFork
  simp only [Nat.min_self, List.take_length, Nat.lt_irrefl, decide_false]
  split
  · rename_i hnil
    rw [List.length_eq_zero_iff.mp hnil]
    rfl
  · rw [scanFork_run]
    cases hd : blocks.dropWhile (isStale hashAt) with
    | nil => exact matchedAt_toOption _
    | cons b rest =>
      have hb : b ∈ blocks := by
        refine (List.dropWhile_suffix (isStale hashAt)).mem ?_
        rw [hd]
        exact List.mem_cons_self
      simp only
      rw [if_pos (hall b hb)]
      exact matchedAt_toOption _

/-! ## Descending blocks -/

/-- In a descending list the run holds every block from its lowest on, and the
blocks after it are lower. -/
theorem run_bounds (hdesc : blocks.Pairwise fun a b => b.1 < a.1) {f : Nat}
    (hlow : lowestStale hashAt blocks = some f) :
    (∀ b ∈ blocks.takeWhile (isStale hashAt), f ≤ b.1) ∧
      ∀ b ∈ blocks.dropWhile (isStale hashAt), b.1 < f := by
  rw [← List.takeWhile_append_dropWhile (p := isStale hashAt) (l := blocks)] at hdesc
  obtain ⟨hrun, -, hcross⟩ := List.pairwise_append.mp hdesc
  obtain ⟨last, hlast, rfl⟩ := Option.map_eq_some_iff.mp hlow
  refine ⟨?_, fun b hb => hcross last (List.mem_of_getLast? hlast) b hb⟩
  obtain ⟨init, hinit⟩ := List.getLast?_eq_some_iff.mp hlast
  rw [hinit] at hrun ⊢
  intro b hb
  rcases List.mem_append.mp hb with hmem | hmem
  · exact Nat.le_of_lt ((List.pairwise_append.mp hrun).2.2 b hmem last List.mem_cons_self)
  · cases List.mem_singleton.mp hmem
    exact Nat.le_refl _

/-- The first block below the run is on the chain, so is the greatest height
below the fork. -/
theorem next_below (hdesc : blocks.Pairwise fun a b => b.1 < a.1) {f : Nat}
    (hlow : lowestStale hashAt blocks = some f)
    (hhead : ∀ b ∈ (blocks.dropWhile (isStale hashAt)).head?, hashAt b.1 = some b.2)
    {b : Nat × String} (hb : b ∈ blocks) (hlt : b.1 < f)
    (hmax : ∀ x ∈ blocks, x.1 < f → x.1 ≤ b.1) : hashAt b.1 = some b.2 := by
  obtain ⟨hrun, hrest⟩ := run_bounds hdesc hlow
  have hmem : b ∈ blocks.dropWhile (isStale hashAt) := by
    rw [← List.takeWhile_append_dropWhile (p := isStale hashAt) (l := blocks)] at hb
    refine (List.mem_append.mp hb).resolve_left fun hc => ?_
    have := hrun b hc
    omega
  rw [← List.takeWhile_append_dropWhile (p := isStale hashAt) (l := blocks)] at hdesc
  have hdesc' := (List.pairwise_append.mp hdesc).2.1
  have hsub : ∀ x ∈ blocks.dropWhile (isStale hashAt), x ∈ blocks := fun x hx =>
    (List.dropWhile_suffix _).mem hx
  cases hd : blocks.dropWhile (isStale hashAt) with
  | nil =>
    rw [hd] at hmem
    cases hmem
  | cons x rest =>
    rw [hd] at hmem hdesc' hhead hrest hsub
    rcases List.mem_cons.mp hmem with rfl | hin
    · exact hhead b rfl
    · have h1 := (List.pairwise_cons.mp hdesc').1 b hin
      have h2 := hmax x (hsub x List.mem_cons_self) (hrest x List.mem_cons_self)
      omega

end

/-- The lazy scan of blocks in descending order ends, is sound on any view of
the chain, and with every hash at hand names the lowest block of the stale
run. -/
theorem forkScan_spec (blocks : List (Nat × String)) (hashAt : Nat → Option String)
    (hdesc : blocks.Pairwise fun a b => b.1 < a.1) :
    ∃ r asked, forkScan blocks hashAt = some (r, asked) ∧
      ((∀ b ∈ blocks, (hashAt b.1).isSome) →
        r = (classifyFork blocks hashAt blocks.length).toOption ∧ r = lowestStale hashAt blocks) ∧
      (∀ f, r = some f →
        f ∈ blocks.map Prod.fst ∧
        (∀ b ∈ blocks, f ≤ b.1 → ∃ c, hashAt b.1 = some c ∧ c ≠ b.2) ∧
        ∀ b ∈ blocks, b.1 < f → (∀ x ∈ blocks, x.1 < f → x.1 ≤ b.1) → hashAt b.1 = some b.2) ∧
      ∀ height ∈ asked, hashAt height = none → r = none := by
  obtain ⟨⟨r, asked⟩, hscan, hr⟩ :=
    Option.map_eq_some_iff.mp (forkScan_detectFork blocks hashAt)
  simp only at hr
  refine ⟨r, asked, hscan, ?_, ?_, ?_⟩
  · intro hall
    rw [classifyFork_lowestStale hall, hr]
    exact ⟨detectFork_lowestStale hall, detectFork_lowestStale hall⟩
  · rintro f rfl
    obtain ⟨hlow, hhead⟩ := detectFork_fork hr.symm
    obtain ⟨last, hlast, hf⟩ := Option.map_eq_some_iff.mp hlow
    have hrunmem : ∀ b ∈ blocks.takeWhile (isStale hashAt), b ∈ blocks := fun b hb =>
      (List.takeWhile_prefix _).mem hb
    refine ⟨?_, ?_, ?_⟩
    · rw [← hf]
      exact List.mem_map_of_mem (hrunmem last (List.mem_of_getLast? hlast))
    · intro b hb hle
      rw [← List.takeWhile_append_dropWhile (p := isStale hashAt) (l := blocks)] at hb
      refine mem_takeWhile_stale ((List.mem_append.mp hb).resolve_right fun hc => ?_)
      have := (run_bounds hdesc hlow).2 b hc
      omega
    · intro b hb hlt hmax
      exact next_below hdesc hlow hhead hb hlt hmax
  · intro height hasked hnone
    unfold forkScan at hscan
    split at hscan
    · cases hscan
      rfl
    · refine forkScanLoop_missing ?_ hscan hasked hnone
      intro x y hxy
      cases hxy

/-- Two blocks, the higher one off the chain. -/
theorem forkScan_spec_two :
    ∃ r asked, forkScan [(8, "old"), (7, "a")] (fun n => some (if n = 8 then "new" else "a")) =
      some (r, asked) ∧ r = some 8 := by
  obtain ⟨r, asked, hscan, hall, -, -⟩ := forkScan_spec [(8, "old"), (7, "a")]
    (fun n => some (if n = 8 then "new" else "a")) (by simp)
  refine ⟨r, asked, hscan, ?_⟩
  rw [(hall (by simp)).2]
  decide

end Amarillo.L3
