import Amarillo.L2Db.Validators

/-!
# Local names (`db/src/validators.rs`)

`webhook_url_is_safe` refuses `localhost`, names under `.localhost` and names under
`.local` by their text. A domain name may end with the dot of the root, which is no part
of the name (`DenotesLocal`) and stays in the text the `url` crate gives: then none of the
three comparisons holds, and `https://localhost./` passes.

* `webhookUrlIsSafe_local`: a local name is refused exactly if it is written without that
  dot.
* `localRejected_iff`: together with the addresses, for every URL.
-/
namespace Amarillo.L2
open Amarillo.Core

/-- The text of a domain host is the domain. -/
def UrlCrate.DomainText (U : UrlCrate) : Prop :=
  ∀ u d, U.host u = some (.domain d) → U.hostStr u = some d

/-! ## Names -/

/-- A name without the dot of the root. -/
def dropRoot (host : List Char) : List Char :=
  if host.getLast? = some '.' then host.dropLast else host

/-- `localhost`, or a name under `.localhost` or `.local`, in any case. -/
def DenotesLocal (host : List Char) : Prop :=
  let name := (dropRoot host).map Char.toLower
  name = "localhost".toList ∨ (∃ sub, name = sub ++ ".localhost".toList) ∨
    ∃ sub, name = sub ++ ".local".toList

/-- The comparisons of the code, on the text as it is. -/
def localText (hostLower : List Char) : Prop :=
  hostLower = "localhost".toList ∨ ".localhost".toList <:+ hostLower ∨ ".local".toList <:+ hostLower

section Names
variable {host : List Char}

theorem localText_last {s : List Char} (h : localText s) : ∃ t c, s = t ++ [c] ∧ (c = 't' ∨ c = 'l') := by
  rcases h with rfl | ⟨t, rfl⟩ | ⟨t, rfl⟩
  · exact ⟨"localhos".toList, 't', by decide, .inl rfl⟩
  · exact ⟨t ++ ".localhos".toList, 't', by simp, .inl rfl⟩
  · exact ⟨t ++ ".loca".toList, 'l', by simp, .inr rfl⟩

theorem denotesLocal_iff : DenotesLocal host ↔ localText ((dropRoot host).map Char.toLower) := by
  unfold DenotesLocal localText List.IsSuffix
  simp only [eq_comm]

theorem ascii_of_addressChar {c : Char} (h : AddressChar c) : c.toNat < 128 := by
  rcases h with h | rfl | rfl
  · simp only [charDigit, Option.isSome_ite] at h
    split at h
    · rename_i hc
      exact lt_of_le_of_lt (show c.toNat ≤ '9'.toNat from hc.2) (by decide)
    · split at h
      · rename_i hc
        exact lt_of_le_of_lt (show c.toNat ≤ 'z'.toNat from hc.2) (by decide)
      · split at h
        · rename_i hc
          exact lt_of_le_of_lt (show c.toNat ≤ 'Z'.toNat from hc.2) (by decide)
        · omega
  · decide
  · decide

theorem toLower_of_addressChar {c : Char} (h : AddressChar c) : c.toLower ≠ 'l' := by
  have hall : ∀ n < 128, (charDigit 16 (Char.ofNat n)).isSome = true ∨ Char.ofNat n = '.' ∨
      Char.ofNat n = ':' → (Char.ofNat n).toLower ≠ 'l' := by
    decide
  have hc := hall c.toNat (ascii_of_addressChar h)
  rw [Char.ofNat_toNat] at hc
  exact hc h

theorem mem_of_mem_dropRoot {c : Char} (h : c ∈ dropRoot host) : c ∈ host := by
  unfold dropRoot at h
  split at h
  · exact List.mem_of_mem_dropLast h
  · exact h

/-- No local name is an address: it has an `l`. -/
theorem fromStr_of_denotesLocal (h : DenotesLocal host) : IpAddr.fromStr host = none := by
  have hl : 'l' ∈ (dropRoot host).map Char.toLower := by
    rcases h with h | ⟨sub, h⟩ | ⟨sub, h⟩ <;> rw [h] <;> simp
  obtain ⟨c, hc, hlower⟩ := List.mem_map.mp hl
  cases hip : IpAddr.fromStr host with
  | none => rfl
  | some ip =>
    have hchar := IpAddr.fromStr_chars hip c (mem_of_mem_dropRoot hc)
    exact absurd hlower (toLower_of_addressChar hchar)

/-- The dot of the root is what keeps the text from looking local. -/
theorem localText_iff (h : DenotesLocal host) :
    localText (host.map Char.toLower) ↔ host.getLast? ≠ some '.' := by
  rw [denotesLocal_iff] at h
  unfold dropRoot at h
  split at h
  · rename_i hroot
    simp only [hroot, ne_eq, not_true_eq_false, iff_false]
    intro htext
    obtain ⟨t, c, ht, hc⟩ := localText_last htext
    have hlast : (host.map Char.toLower).getLast? = some '.' := by
      rw [List.getLast?_map, hroot]
      rfl
    rw [ht, List.getLast?_concat, Option.some.injEq] at hlast
    subst hlast
    rcases hc with hc | hc <;> cases hc
  · rename_i hroot
    exact ⟨fun _ => hroot, fun _ => h⟩

theorem last_of_denotesLocal (h : DenotesLocal host) : host.getLast? ≠ some ']' := by
  intro hlast
  have htext := (localText_iff h).mpr (by simp [hlast])
  obtain ⟨t, c, ht, hc⟩ := localText_last htext
  have hlower : (host.map Char.toLower).getLast? = some ']' := by
    rw [List.getLast?_map, hlast]
    rfl
  rw [ht, List.getLast?_concat, Option.some.injEq] at hlower
  subst hlower
  rcases hc with hc | hc <;> cases hc

/-- A local name does not stand in brackets. -/
theorem unbracket_of_denotesLocal (h : DenotesLocal host) : unbracket host = host := by
  have hlast := last_of_denotesLocal h
  unfold unbracket
  split
  · rename_i s
    rw [if_neg]
    intro hs
    cases s with
    | nil => cases hs
    | cons c s => exact hlast (by rw [List.getLast?_cons_cons, hs])
  · rfl

end Names

/-! ## URLs -/

section Urls
variable {U : UrlCrate} {input : String} {u : U.Url} {d : String}

/-- A local name is refused exactly if it is written without the dot of the root. -/
theorem webhookUrlIsSafe_local (hD : U.DomainText) (hu : U.parse input = some u)
    (hscheme : U.scheme u = "https") (hhost : U.host u = some (.domain d))
    (hlocal : DenotesLocal d.toList) :
    webhookUrlIsSafe U input =
      if d.toList.getLast? = some '.' then .ok () else .error .mdnsHost := by
  have hne : d ≠ "" := by
    rintro rfl
    rcases hlocal with h | ⟨sub, h⟩ | ⟨sub, h⟩ <;> simp [dropRoot] at h
  unfold webhookUrlIsSafe
  simp only [hu, hscheme, hD u d hhost, if_neg hne, ne_eq, not_true_eq_false, if_false,
    unbracket_of_denotesLocal hlocal, fromStr_of_denotesLocal hlocal]
  have htext := localText_iff hlocal
  unfold localText at htext
  by_cases hroot : d.toList.getLast? = some '.'
  · rw [if_neg (by rw [htext]; exact not_not.mpr hroot), if_pos hroot]
  · rw [if_pos (htext.mpr hroot), if_neg hroot]

end Urls

/-- No URL passes whose host is a local name, or an address of a refused range. -/
structure LocalRejected (U : UrlCrate) (input : String) : Prop where
  names : ∀ u d, U.parse input = some u → U.scheme u = "https" → U.host u = some (.domain d) →
    DenotesLocal d.toList → ∃ reason, webhookUrlIsSafe U input = .error reason
  ipv4 : ∀ u a reason, U.parse input = some u → U.host u = some (.ipv4 a) →
    ipIsSafe (.v4 a) = .error reason → webhookUrlIsSafe U input ≠ .ok ()
  ipv6 : ∀ u a reason, U.parse input = some u → U.host u = some (.ipv6 a) →
    ipIsSafe (.v6 a) = .error reason → webhookUrlIsSafe U input ≠ .ok ()

/-- For every URL: it is refused as it should be, exactly if its host is not a local name that
ends in the dot of the root. -/
theorem localRejected_iff {U : UrlCrate} (hU : U.Documented) (hD : U.DomainText) (input : String) :
    LocalRejected U input ↔ ∀ u d, U.parse input = some u → U.scheme u = "https" →
      U.host u = some (.domain d) → DenotesLocal d.toList → d.toList.getLast? ≠ some '.' := by
  constructor
  · intro h u d hu hscheme hhost hlocal hroot
    obtain ⟨reason, hreason⟩ := h.names u d hu hscheme hhost hlocal
    rw [webhookUrlIsSafe_local hD hu hscheme hhost hlocal, if_pos hroot] at hreason
    cases hreason
  · intro h
    refine ⟨fun u d hu hscheme hhost hlocal => ⟨.mdnsHost, ?_⟩, fun u a reason hu ha hreason hok => ?_,
      fun u a reason hu ha hreason hok => ?_⟩
    · rw [webhookUrlIsSafe_local hD hu hscheme hhost hlocal,
        if_neg (h u d hu hscheme hhost hlocal)]
    · have hsafe := (webhookUrlIsSafe_ip hU hu hok).1 a ha
      rw [hreason] at hsafe
      cases hsafe
    · have hsafe := (webhookUrlIsSafe_ip hU hu hok).2 a ha
      rw [hreason] at hsafe
      cases hsafe

/-- Two URLs of the local host: `https://LocalHost:8443/x` and `https://localhost./x`. -/
def localUrls : UrlCrate where
  Url := Bool
  parse s :=
    if s = "https://LocalHost:8443/x" then some false
    else if s = "https://localhost./x" then some true
    else none
  scheme _ := "https"
  host
    | false => some (.domain "localhost")
    | true => some (.domain "localhost.")
  hostStr
    | false => some "localhost"
    | true => some "localhost."

theorem localUrls_documented : localUrls.Documented where
  ipv4 u a h := by
    cases u <;> cases h
  ipv6 u a h := by
    cases u <;> cases h

theorem localUrls_domainText : localUrls.DomainText := by
  intro u d h
  cases u <;> cases h <;> rfl

theorem localhost_rejected : LocalRejected localUrls "https://LocalHost:8443/x" ↔
    ∀ u d, localUrls.parse "https://LocalHost:8443/x" = some u → localUrls.scheme u = "https" →
      localUrls.host u = some (.domain d) → DenotesLocal d.toList →
      d.toList.getLast? ≠ some '.' :=
  localRejected_iff localUrls_documented localUrls_domainText _

theorem rooted_localhost_passes : ¬ ∀ (U : UrlCrate) (input : String), U.Documented →
    U.DomainText → LocalRejected U input := by
  intro h
  have hrejected := h localUrls "https://localhost./x" localUrls_documented localUrls_domainText
  obtain ⟨reason, hreason⟩ := hrejected.names true "localhost." (by simp [localUrls]) rfl rfl
    (.inl (by decide))
  have hok : webhookUrlIsSafe localUrls "https://localhost./x" = .ok () := by decide +kernel
  rw [hok] at hreason
  cases hreason

end Amarillo.L2
