import Amarillo.L4Alerts.Webhook

/-!
# What `redact_urls` keeps

`redactRun` is the loop of `redact_urls` with its two strings and its slices. `Segmented` says what the text
should be cut into: URL runs, from a scheme up to the next ASCII whitespace, and between them
text in which no URL starts. The output shows a marker for each run and the rest as it is.

The marker holds no `h`, so no scheme begins in it, and begins with `<`, so none runs into it:
a scheme in the output would be one of the kept text.

* `redactLoop_segments`, `redactRun_eq`: the loop ends, with the runs replaced.
* `shown_no_url`: no segmented text shows a URL.
* `redactUrls_safe`: so neither the output nor its first 500 characters have one, and a second
  pass changes nothing.
-/
namespace Amarillo.L4
open Amarillo.Core

def MARKER : List Char := "<redacted-url>".toList

def schemes : List (List Char) := ["https://".toList, "http://".toList]

/-- A URL starts here. -/
def StartsUrl (s : List Char) : Prop := ∃ scheme ∈ schemes, scheme <+: s

def HasUrl (s : List Char) : Prop := ∃ scheme ∈ schemes, scheme <:+: s

/-! ## Finding a scheme -/

theorem findText_none {pat s : List Char} (h : findText pat s = none) (i : Nat) : ¬pat <+: s.drop i := by
  induction s generalizing i with
  | nil =>
    unfold findText at h
    split at h
    · cases h
    · rename_i hne
      rw [List.drop_nil]
      exact fun hp => hne (List.prefix_nil.mp hp)
  | cons c s ih =>
    unfold findText at h
    split at h
    · cases h
    · rename_i hne
      rw [Option.map_eq_none_iff] at h
      cases i with
      | zero => exact fun hp => hne (List.isPrefixOf_iff_prefix.mpr hp)
      | succ i => exact ih h i

theorem findText_some {pat s : List Char} {p : Nat} (h : findText pat s = some p) :
    pat <+: s.drop p ∧ ∀ i < p, ¬pat <+: s.drop i := by
  induction s generalizing p with
  | nil =>
    unfold findText at h
    split at h
    · rename_i hpat
      cases h
      exact ⟨hpat ▸ List.nil_prefix, fun i hi => absurd hi (Nat.not_lt_zero i)⟩
    · cases h
  | cons c s ih =>
    unfold findText at h
    split at h
    · rename_i hprefix
      cases h
      exact ⟨List.isPrefixOf_iff_prefix.mp hprefix, fun i hi => absurd hi (Nat.not_lt_zero i)⟩
    · rename_i hne
      obtain ⟨q, hq, rfl⟩ := Option.map_eq_some_iff.mp h
      obtain ⟨hfound, hbefore⟩ := ih hq
      refine ⟨hfound, fun i hi => ?_⟩
      cases i with
      | zero => exact fun hp => hne (List.isPrefixOf_iff_prefix.mpr hp)
      | succ i => exact hbefore i (by omega)

theorem nextScheme_eq (s : List Char) : nextScheme s =
    match findText "https://".toList s, findText "http://".toList s with
    | none, none => none
    | some p, none => some p
    | none, some q => some q
    | some p, some q => some (min p q) := by
  unfold nextScheme
  rw [List.foldl_cons, List.foldl_cons, List.foldl_nil]
  cases findText "https://".toList s with
  | none =>
    cases findText "http://".toList s with
    | none => rfl
    | some q => rfl
  | some p =>
    cases findText "http://".toList s with
    | none => rfl
    | some q => rfl

theorem startsUrl_iff {s : List Char} :
    StartsUrl s ↔ "https://".toList <+: s ∨ "http://".toList <+: s := by
  simp only [StartsUrl, schemes, List.mem_cons, List.not_mem_nil, or_false, exists_eq_or_imp,
    exists_eq_left]

theorem nextScheme_none {s : List Char} (h : nextScheme s = none) (i : Nat) : ¬StartsUrl (s.drop i) := by
  rw [nextScheme_eq] at h
  rw [startsUrl_iff]
  split at h
  · rename_i hp hq
    rintro (hs | hs)
    · exact findText_none hp i hs
    · exact findText_none hq i hs
  · cases h
  · cases h
  · cases h

theorem nextScheme_some {s : List Char} {start : Nat} (h : nextScheme s = some start) :
    StartsUrl (s.drop start) ∧ ∀ i < start, ¬StartsUrl (s.drop i) := by
  rw [nextScheme_eq] at h
  simp only [startsUrl_iff, not_or]
  split at h
  · cases h
  · rename_i p hp hq
    cases h
    obtain ⟨hfound, hbefore⟩ := findText_some hp
    exact ⟨.inl hfound, fun i hi => ⟨hbefore i hi, findText_none hq i⟩⟩
  · rename_i q hp hq
    cases h
    obtain ⟨hfound, hbefore⟩ := findText_some hq
    exact ⟨.inr hfound, fun i hi => ⟨findText_none hp i, hbefore i hi⟩⟩
  · rename_i p q hp hq
    cases h
    obtain ⟨hfoundp, hbeforep⟩ := findText_some hp
    obtain ⟨hfoundq, hbeforeq⟩ := findText_some hq
    refine ⟨?_, fun i hi => ⟨hbeforep i (by omega), hbeforeq i (by omega)⟩⟩
    rcases Nat.le_total p q with hle | hle
    · rw [Nat.min_eq_left hle]
      exact .inl hfoundp
    · rw [Nat.min_eq_right hle]
      exact .inr hfoundq

/-! ## Segments -/

inductive Segment where
  | kept (text : List Char)
  | url (run : List Char)
  deriving DecidableEq, Repr

def Segment.raw : Segment → List Char
  | .kept text => text
  | .url run => run

def Segment.shown : Segment → List Char
  | .kept text => text
  | .url _ => MARKER

/-- URL runs, each from a scheme up to the next whitespace, and text where none starts. -/
def Segmented : List Segment → Prop
  | [] => True
  | .kept text :: rest =>
    (∀ i < text.length, ¬StartsUrl ((text ++ rest.flatMap Segment.raw).drop i)) ∧ Segmented rest
  | .url run :: rest =>
    StartsUrl run ∧ (∀ c ∈ run, isAsciiWhitespace c = false) ∧
      (∀ c ∈ (rest.flatMap Segment.raw).head?, isAsciiWhitespace c = true) ∧ Segmented rest

/-! ## The loop

Offsets are byte offsets, as `str::find` returns them; a slice that is not between two characters
panics. -/

def byteLen (s : List Char) : Nat := (s.map Char.utf8Size).sum

/-- `s[..offset]` and `s[offset..]` -/
def splitAtByte : (offset : Nat) → (s : List Char) → Option (List Char × List Char)
  | 0, s => some ([], s)
  | _ + 1, [] => none
  | offset + 1, c :: s =>
    if c.utf8Size ≤ offset + 1 then
      (splitAtByte (offset + 1 - c.utf8Size) s).map fun (before, after) => (c :: before, after)
    else none
termination_by _ s => s.length

/-- `str::find`, as a byte offset. -/
def findByte (scheme s : List Char) : Option Nat := (findText scheme s).map fun p => byteLen (s.take p)

/-- `after.find(is_ascii_whitespace)`, or the length. -/
def urlEnd (after : List Char) : Nat :=
  ((after.findIdx? isAsciiWhitespace).map fun p => byteLen (after.take p)).getD (byteLen after)

/-- mirrors crates/indexer/src/alerts.rs:117-125 -/
def nextByte (rest : List Char) : Option Nat :=
  schemes.foldl (fun next scheme =>
    match findByte scheme rest with
    | none => next
    | some p => some (next.elim p fun q => min q p)) none

/-- The loop with `out` and `rest`: `none` if a slice panics, or if it has not ended when the
fuel is used up.
mirrors crates/indexer/src/alerts.rs:116-138 -/
def redactRun : (fuel : Nat) → (out rest : List Char) → Option (List Char)
  | 0, _, _ => none
  | fuel + 1, out, rest =>
    match nextByte rest with
    | none => some (out ++ rest)
    | some start =>
      match splitAtByte start rest with
      | none => none
      | some (before, after) =>
        match splitAtByte (urlEnd after) after with
        | none => none
        | some (_, left) => redactRun fuel (out ++ before ++ MARKER) left

theorem byteLen_append (a b : List Char) : byteLen (a ++ b) = byteLen a + byteLen b := by
  rw [byteLen, List.map_append, List.sum_append]
  rfl

theorem byteLen_take_mono (s : List Char) {p q : Nat} (h : p ≤ q) :
    byteLen (s.take p) ≤ byteLen (s.take q) := by
  obtain ⟨t, ht⟩ := List.take_prefix_take_left h (l := s)
  rw [← ht, byteLen_append]
  omega

/-- A slice between two characters. -/
theorem splitAtByte_append (a b : List Char) : splitAtByte (byteLen a) (a ++ b) = some (a, b) := by
  induction a with
  | nil => rw [show byteLen [] = 0 from rfl, splitAtByte, List.nil_append]
  | cons c a ih =>
    have hsize := c.utf8Size_pos
    obtain ⟨n, hn⟩ : ∃ n, byteLen (c :: a) = n + 1 := ⟨c.utf8Size - 1 + byteLen a, by
      rw [byteLen, List.map_cons, List.sum_cons, ← byteLen]
      omega⟩
    have hrest : n + 1 - c.utf8Size = byteLen a := by
      rw [← hn, byteLen, List.map_cons, List.sum_cons, ← byteLen]
      omega
    have hle : c.utf8Size ≤ n + 1 := by
      rw [← hn, byteLen, List.map_cons, List.sum_cons]
      omega
    rw [hn, List.cons_append, splitAtByte, if_pos hle, hrest, ih]
    rfl

theorem scheme_solid : ∀ scheme ∈ schemes, scheme ≠ [] ∧
    ∀ c ∈ scheme, isAsciiWhitespace c = false ∧ c ≠ '<' := by
  have hall : (schemes.all fun scheme => !scheme.isEmpty &&
      scheme.all fun c => decide (isAsciiWhitespace c = false ∧ c ≠ '<')) = true := by decide
  intro scheme hscheme
  have := List.all_eq_true.mp hall scheme hscheme
  rw [Bool.and_eq_true, Bool.not_eq_true', List.isEmpty_eq_false_iff] at this
  exact ⟨this.1, fun c hc => of_decide_eq_true (List.all_eq_true.mp this.2 c hc)⟩

theorem StartsUrl.ne_nil {s : List Char} (h : StartsUrl s) : s ≠ [] := by
  obtain ⟨scheme, hscheme, hprefix⟩ := h
  rintro rfl
  exact (scheme_solid scheme hscheme).1 (List.prefix_nil.mp hprefix)

/-- The run of a URL: its scheme is part of it. -/
theorem startsUrl_takeWhile {s : List Char} (h : StartsUrl s) :
    StartsUrl (s.takeWhile fun c => !isAsciiWhitespace c) := by
  obtain ⟨scheme, hscheme, t, rfl⟩ := h
  have hsolid := (scheme_solid scheme hscheme).2
  refine ⟨scheme, hscheme, t.takeWhile fun c => !isAsciiWhitespace c, ?_⟩
  rw [List.takeWhile_append_of_pos fun c hc => by rw [(hsolid c hc).1]; rfl]

/-- What is left behind the URL at `start`. -/
def afterUrl (rest : List Char) (start : Nat) : List Char :=
  (rest.drop start).dropWhile fun c => !isAsciiWhitespace c

section Loop
variable {fuel start : Nat} {rest : List Char}

theorem nextByte_eq (rest : List Char) :
    nextByte rest = (nextScheme rest).map fun p => byteLen (rest.take p) := by
  rw [nextScheme_eq, nextByte, schemes, List.foldl_cons, List.foldl_cons, List.foldl_nil, findByte,
    findByte]
  cases findText "https://".toList rest with
  | none =>
    cases findText "http://".toList rest with
    | none => rfl
    | some q => rfl
  | some p =>
    cases findText "http://".toList rest with
    | none => rfl
    | some q =>
      -- the offsets are ordered as the positions are
      refine congrArg some ?_
      rcases Nat.le_total p q with hle | hle
      · rw [Nat.min_eq_left hle]
        exact Nat.min_eq_left (byteLen_take_mono rest hle)
      · rw [Nat.min_eq_right hle]
        exact Nat.min_eq_right (byteLen_take_mono rest hle)

theorem urlEnd_eq (after : List Char) :
    urlEnd after = byteLen (after.takeWhile fun c => !isAsciiWhitespace c) := by
  rw [urlEnd, List.takeWhile_eq_take_findIdx_not]
  simp only [Bool.not_not]
  cases hfind : after.findIdx? isAsciiWhitespace with
  | none =>
    rw [List.findIdx?_eq_none_iff_findIdx_eq.mp hfind, List.take_length]
    rfl
  | some p =>
    rw [(List.findIdx?_eq_some_iff_findIdx_eq.mp hfind).2]
    rfl

/-- Both slices are between characters. -/
theorem redactRun_next (h : nextScheme rest = some start) (out : List Char) :
    redactRun (fuel + 1) out rest =
      redactRun fuel (out ++ rest.take start ++ MARKER) (afterUrl rest start) := by
  have hbefore : splitAtByte (byteLen (rest.take start)) rest = some (rest.take start, rest.drop start) := by
    have := splitAtByte_append (rest.take start) (rest.drop start)
    rwa [List.take_append_drop] at this
  have hrun := splitAtByte_append ((rest.drop start).takeWhile fun c => !isAsciiWhitespace c)
    (afterUrl rest start)
  rw [afterUrl, List.takeWhile_append_dropWhile, ← afterUrl] at hrun
  rw [redactRun, nextByte_eq, h]
  simp only [Option.map_some]
  rw [hbefore]
  simp only
  rw [urlEnd_eq, hrun]

theorem redactLoop_end (h : nextScheme rest = none) : redactLoop (fuel + 1) rest = rest := by
  rw [redactLoop, h]

theorem redactLoop_next (h : nextScheme rest = some start) :
    redactLoop (fuel + 1) rest = rest.take start ++ MARKER ++ redactLoop fuel (afterUrl rest start) := by
  rw [redactLoop, h]
  rfl

/-- The URL and what is left behind it. -/
theorem urlRun_append (rest : List Char) (start : Nat) :
    ((rest.drop start).takeWhile fun c => !isAsciiWhitespace c) ++ afterUrl rest start =
      rest.drop start := List.takeWhile_append_dropWhile

/-- An iteration leaves less. -/
theorem afterUrl_shorter (h : nextScheme rest = some start) :
    (afterUrl rest start).length < rest.length := by
  have hrun := List.length_pos_iff.mpr (startsUrl_takeWhile (nextScheme_some h).1).ne_nil
  have hsplit := congrArg List.length (urlRun_append rest start)
  rw [List.length_append, List.length_drop] at hsplit
  omega

/-- The loop ends. -/
theorem redactRun_eq (h : rest.length < fuel) (out : List Char) :
    redactRun fuel out rest = some (out ++ redactLoop fuel rest) := by
  induction fuel generalizing rest out with
  | zero => exact absurd h (Nat.not_lt_zero _)
  | succ fuel ih =>
    cases hnext : nextScheme rest with
    | none =>
      rw [redactRun, nextByte_eq, hnext, redactLoop_end hnext]
      rfl
    | some start =>
      have hless := afterUrl_shorter hnext
      rw [redactRun_next hnext, redactLoop_next hnext, ih (by omega), List.append_assoc,
        List.append_assoc, List.append_assoc]

/-- More fuel changes nothing. -/
theorem redactLoop_fuel {fuel' : Nat} (h : rest.length < fuel) (h' : rest.length < fuel') :
    redactLoop fuel rest = redactLoop fuel' rest := by
  induction fuel generalizing rest fuel' with
  | zero => exact absurd h (Nat.not_lt_zero _)
  | succ fuel ih =>
    obtain ⟨fuel', rfl⟩ := Nat.exists_eq_succ_of_ne_zero (Nat.ne_of_gt (Nat.zero_lt_of_lt h'))
    cases hnext : nextScheme rest with
    | none => rw [redactLoop_end hnext, redactLoop_end hnext]
    | some start =>
      have hless := afterUrl_shorter hnext
      have hsame : redactLoop fuel (afterUrl rest start) = redactLoop fuel' (afterUrl rest start) :=
        ih (by omega) (by omega)
      rw [redactLoop_next hnext, redactLoop_next hnext, hsame]

/-- The loop replaces the runs. -/
theorem redactLoop_segments (h : rest.length < fuel) :
    ∃ segs : List Segment, segs.flatMap Segment.raw = rest ∧ Segmented segs ∧
      redactLoop fuel rest = segs.flatMap Segment.shown := by
  induction fuel generalizing rest with
  | zero => exact absurd h (Nat.not_lt_zero _)
  | succ fuel ih =>
    cases hnext : nextScheme rest with
    | none =>
      refine ⟨[.kept rest], List.append_nil rest, ⟨fun i _ => ?_, trivial⟩, ?_⟩
      · rw [List.flatMap_nil, List.append_nil]
        exact nextScheme_none hnext i
      · rw [redactLoop_end hnext]
        exact (List.append_nil rest).symm
    | some start =>
      obtain ⟨hstart, hbefore⟩ := nextScheme_some hnext
      have hless := afterUrl_shorter hnext
      have hfuel : (afterUrl rest start).length < fuel := by omega
      obtain ⟨segs, hraw, hsegs, hshown⟩ := ih hfuel
      have hall : rest.take start ++ (((rest.drop start).takeWhile fun c => !isAsciiWhitespace c) ++
          segs.flatMap Segment.raw) = rest := by
        rw [hraw, urlRun_append, List.take_append_drop]
      refine ⟨.kept (rest.take start) ::
        .url ((rest.drop start).takeWhile fun c => !isAsciiWhitespace c) :: segs,
        hall, ⟨fun i hi => ?_, startsUrl_takeWhile hstart, fun c hc => ?_, fun c hc => ?_, hsegs⟩, ?_⟩
      · rw [List.length_take] at hi
        have hi' : ¬StartsUrl (rest.drop i) := hbefore i (by omega)
        rwa [← hall] at hi'
      · have := List.mem_takeWhile_imp hc
        rwa [Bool.not_eq_true'] at this
      · rw [hraw] at hc
        have := List.head?_dropWhile_not (fun c => !isAsciiWhitespace c) (rest.drop start)
        rw [← afterUrl, Option.mem_def.mp hc] at this
        simpa using this
      · rw [redactLoop_next hnext, hshown, List.flatMap_cons, List.flatMap_cons, List.append_assoc]
        rfl

end Loop

/-! ## Nothing is shown -/

theorem prefix_append_cases {w a b : List Char} (h : w <+: a ++ b) :
    w <+: a ∨ ∃ w', w = a ++ w' ∧ w' <+: b := by
  rcases List.prefix_or_prefix_of_prefix h (List.prefix_append a b) with hshort | ⟨w', rfl⟩
  · exact .inl hshort
  · exact .inr ⟨w', rfl, (List.prefix_append_right_inj a).mp h⟩

/-- What is shown begins like the text itself, up to the first marker. -/
theorem prefix_shown {w : List Char} (hw : ∀ c ∈ w, c ≠ '<') {segs : List Segment}
    (h : w <+: segs.flatMap Segment.shown) : w <+: segs.flatMap Segment.raw := by
  induction segs generalizing w with
  | nil => exact h
  | cons seg segs ih =>
    rw [List.flatMap_cons] at h ⊢
    cases seg with
    | kept text =>
      rcases prefix_append_cases h with hshort | ⟨w', rfl, hrest⟩
      · exact hshort.trans (List.prefix_append _ _)
      · exact (List.prefix_append_right_inj text).mpr
          (ih (fun c hc => hw c (List.mem_append_right text hc)) hrest)
    | url run =>
      cases w with
      | nil => exact List.nil_prefix
      | cons c w =>
        -- the marker begins with the character that `w` has not
        exact absurd (List.cons_prefix_cons.mp h).1 (hw c List.mem_cons_self)

/-- No scheme begins in the marker. -/
theorem marker_no_scheme {scheme : List Char} (hscheme : scheme ∈ schemes) {i : Nat}
    (hi : i < MARKER.length) (t : List Char) : ¬scheme <+: (MARKER ++ t).drop i := by
  have hheads : ∀ scheme ∈ schemes, scheme.head? = some 'h' := by decide
  have hmarker : 'h' ∉ MARKER := by decide
  intro hprefix
  obtain ⟨r, hr⟩ := hprefix
  have hhead := congrArg List.head? hr
  rw [List.drop_append_of_le_length (Nat.le_of_lt hi), List.head?_append, hheads scheme hscheme,
    List.drop_eq_getElem_cons hi] at hhead
  exact hmarker (Option.some.inj hhead ▸ List.getElem_mem hi)

theorem hasUrl_iff {s : List Char} : HasUrl s ↔ ∃ i, StartsUrl (s.drop i) := by
  constructor
  · rintro ⟨scheme, hscheme, a, b, rfl⟩
    refine ⟨a.length, scheme, hscheme, b, ?_⟩
    rw [List.append_assoc, List.drop_left]
  · rintro ⟨i, scheme, hscheme, hprefix⟩
    exact ⟨scheme, hscheme, hprefix.isInfix.trans (List.drop_suffix i s).isInfix⟩

/-- A segmented text shows no URL. -/
theorem shown_no_url {segs : List Segment} (h : Segmented segs) (i : Nat) :
    ¬StartsUrl ((segs.flatMap Segment.shown).drop i) := by
  induction segs generalizing i with
  | nil =>
    rw [List.flatMap_nil, List.drop_nil]
    exact fun hs => hs.ne_nil rfl
  | cons seg segs ih =>
    have hlater : Segmented segs → seg.shown.length ≤ i →
        ¬StartsUrl (((seg :: segs).flatMap Segment.shown).drop i) := fun hsegs hi => by
      rw [List.flatMap_cons, List.drop_append, List.drop_of_length_le hi, List.nil_append]
      exact ih hsegs _
    cases seg with
    | kept text =>
      obtain ⟨htext, hrest⟩ := h
      by_cases hi : i < text.length
      · -- it would start in the text itself
        rintro ⟨scheme, hscheme, hprefix⟩
        rw [List.flatMap_cons, show (Segment.kept text).shown = text from rfl,
          List.drop_append_of_le_length (Nat.le_of_lt hi)] at hprefix
        have hraw := prefix_shown (fun c hc => ((scheme_solid scheme hscheme).2 c hc).2)
          (show scheme <+: (Segment.kept (text.drop i) :: segs).flatMap Segment.shown from hprefix)
        refine htext i hi ⟨scheme, hscheme, ?_⟩
        rwa [List.drop_append_of_le_length (Nat.le_of_lt hi)]
      · exact hlater hrest (Nat.le_of_not_lt hi)
    | url run =>
      obtain ⟨-, -, -, hrest⟩ := h
      by_cases hi : i < MARKER.length
      · rintro ⟨scheme, hscheme, hprefix⟩
        exact marker_no_scheme hscheme hi _ hprefix
      · exact hlater hrest (Nat.le_of_not_lt hi)

/-! ## `redact_urls` -/

theorem redactUrls_no_url (input : String) : ¬HasUrl (redactUrls input) := by
  obtain ⟨segs, -, hsegs, hshown⟩ := redactLoop_segments (Nat.lt_succ_self input.toList.length)
  rw [hasUrl_iff, redactUrls, hshown]
  rintro ⟨i, hi⟩
  exact shown_no_url hsegs i hi

/-- A text without a URL is kept. -/
theorem redactLoop_clean {s : List Char} (h : ¬HasUrl s) (fuel : Nat) : redactLoop (fuel + 1) s = s := by
  cases hnext : nextScheme s with
  | none => exact redactLoop_end hnext
  | some start => exact absurd (hasUrl_iff.mpr ⟨start, (nextScheme_some hnext).1⟩) h

/-- **No URL is stored.** Whatever the message is, the loop ends, no slice panics, and the
output is the message with a marker for each URL run. Neither it nor its first 500 characters
have a URL, and a second pass changes nothing. -/
theorem redactUrls_safe (input : String) :
    (∀ fuel, input.toList.length < fuel → redactRun fuel [] input.toList = some (redactUrls input)) ∧
    ¬HasUrl (redactUrls input) ∧
    (∃ segs : List Segment, segs.flatMap Segment.raw = input.toList ∧ Segmented segs ∧
      redactUrls input = segs.flatMap Segment.shown) ∧
    redactUrls (String.ofList (redactUrls input)) = redactUrls input ∧
    ¬HasUrl (recordedError input).toList := by
  have hclean := redactUrls_no_url input
  refine ⟨fun fuel hfuel => ?_, hclean, redactLoop_segments (Nat.lt_succ_self _), ?_, ?_⟩
  · rw [redactRun_eq hfuel, List.nil_append, redactUrls, redactLoop_fuel hfuel (Nat.lt_succ_self _)]
  · rw [redactUrls, String.toList_ofList]
    exact redactLoop_clean hclean _
  · rw [recordedError, String.toList_ofList]
    rintro ⟨scheme, hscheme, hinside⟩
    exact hclean ⟨scheme, hscheme, hinside.trans (List.take_prefix 500 _).isInfix⟩

example : redactUrls "get https://a/b?k=1 via http://c" =
    "get <redacted-url> via <redacted-url>".toList := by decide

end Amarillo.L4
