import Amarillo.Core.Ip

/-!
# Webhook targets (`db/src/validators.rs`)

`ip_is_safe` classifies an address, `webhook_url_is_safe` a URL. The `url` crate
is a parameter (`UrlCrate`); what is used of its documentation is `Documented`:
the text of an IP host is one that `IpAddr::from_str` reads as that address, in
brackets if it is IPv6.

* `ipIsSafe_iff`: an address passes iff it lies outside the blocks of
  `Forbidden`, as it stands or as a mapped IPv4 address.
* `webhookUrlIsSafe_ip`: a URL that passes has no other IP host.
-/
namespace Amarillo.L2
open Amarillo.Core

inductive UnsafeUrlReason where
  | invalidUrl
  | nonHttps
  | noHost
  | loopbackHost
  | privateIp
  | linkLocalIp
  | unspecifiedIp
  | multicastIp
  | broadcastIp
  | uniqueLocalIp
  | mdnsHost
  deriving DecidableEq, Repr

/-- `{reason:?}` -/
def UnsafeUrlReason.debug : UnsafeUrlReason → String
  | .invalidUrl => "InvalidUrl"
  | .nonHttps => "NonHttps"
  | .noHost => "NoHost"
  | .loopbackHost => "LoopbackHost"
  | .privateIp => "PrivateIp"
  | .linkLocalIp => "LinkLocalIp"
  | .unspecifiedIp => "UnspecifiedIp"
  | .multicastIp => "MulticastIp"
  | .broadcastIp => "BroadcastIp"
  | .uniqueLocalIp => "UniqueLocalIp"
  | .mdnsHost => "MdnsHost"

/-! ## Addresses -/

/-- mirrors crates/db/src/validators.rs:48-68 -/
def ipv4IsSafe (v4 : Ipv4Addr) : Except UnsafeUrlReason Unit :=
  if v4.isLoopback then .error .loopbackHost
  else if v4.isUnspecified then .error .unspecifiedIp
  else if v4.isMulticast then .error .multicastIp
  else if v4.isPrivate then .error .privateIp
  else if v4.isLinkLocal then .error .linkLocalIp
  else if v4.isBroadcast then .error .broadcastIp
  else .ok ()

/-- mirrors crates/db/src/validators.rs:69-88 -/
def ipv6IsSafe (v6 : Ipv6Addr) : Except UnsafeUrlReason Unit :=
  if v6.isLoopback then .error .loopbackHost
  else if v6.isUnspecified then .error .unspecifiedIp
  else if v6.isMulticast then .error .multicastIp
  else if v6.segment 0 &&& 0xfe00 = 0xfc00 then .error .uniqueLocalIp
  else if v6.segment 0 &&& 0xffc0 = 0xfe80 then .error .linkLocalIp
  else .ok ()

/-- mirrors crates/db/src/validators.rs:42-89 -/
def ipIsSafe : IpAddr → Except UnsafeUrlReason Unit
  | .v4 v4 => ipv4IsSafe v4
  | .v6 v6 =>
    match v6.toIpv4Mapped with
    | some v4 => ipv4IsSafe v4
    | none => ipv6IsSafe v6

/-- Loopback, unspecified, multicast, RFC 1918, link-local, broadcast. -/
def forbidden4 : List (Cidr 32) :=
  [Ipv4Addr.cidr 127 0 0 0 8, Ipv4Addr.cidr 0 0 0 0 32, Ipv4Addr.cidr 224 0 0 0 4,
   Ipv4Addr.cidr 10 0 0 0 8, Ipv4Addr.cidr 172 16 0 0 12, Ipv4Addr.cidr 192 168 0 0 16,
   Ipv4Addr.cidr 169 254 0 0 16, Ipv4Addr.cidr 255 255 255 255 32]

/-- `::1`, `::`, `ff00::/8`, `fc00::/7`, `fe80::/10`. -/
def forbidden6 : List (Cidr 128) :=
  [⟨1, 128⟩, ⟨0, 128⟩, ⟨0xff00 * 2 ^ 112, 8⟩, ⟨0xfc00 * 2 ^ 112, 7⟩, ⟨0xfe80 * 2 ^ 112, 10⟩]

/-- `::ffff:0:0/96` -/
def mapped6 : Cidr 128 := ⟨0xffff * 2 ^ 32, 96⟩

def Forbidden : IpAddr → Prop
  | .v4 v4 => ∃ c ∈ forbidden4, c.contains v4.bits
  | .v6 v6 => (∃ c ∈ forbidden6, c.contains v6.bits) ∨
      (mapped6.contains v6.bits ∧ ∃ c ∈ forbidden4, c.contains (v6.bits % 2 ^ 32))

/-- One check of a classifier. -/
theorem ite_error_eq_ok {ε : Type} {c : Prop} [Decidable c] {e : ε} {x : Except ε Unit} :
    (if c then .error e else x) = .ok () ↔ ¬c ∧ x = .ok () := by
  by_cases hc : c
  · rw [if_pos hc]
    exact ⟨nofun, fun h => absurd hc h.1⟩
  · rw [if_neg hc]
    exact ⟨fun h => ⟨hc, h⟩, fun h => h.2⟩

theorem ipv4IsSafe_iff (v4 : Ipv4Addr) :
    ipv4IsSafe v4 = .ok () ↔ ¬∃ c ∈ forbidden4, c.contains v4.bits := by
  unfold ipv4IsSafe
  simp only [ite_error_eq_ok, v4.isLoopback_iff, v4.isUnspecified_iff, v4.isMulticast_iff,
    v4.isPrivate_iff, v4.isLinkLocal_iff, v4.isBroadcast_iff, forbidden4, List.mem_cons,
    List.not_mem_nil, or_false, exists_eq_or_imp, exists_eq_left]
  tauto

theorem ipv6IsSafe_iff (v6 : Ipv6Addr) :
    ipv6IsSafe v6 = .ok () ↔ ¬∃ c ∈ forbidden6, c.contains v6.bits := by
  have hlocal : v6.segment 0 &&& 0xfe00 = 0xfc00 ↔ (⟨0xfc00 * 2 ^ 112, 7⟩ : Cidr 128).contains v6.bits :=
    @Ipv6Addr.segment_and v6 9 7 0xfc00 rfl
  have hlink : v6.segment 0 &&& 0xffc0 = 0xfe80 ↔ (⟨0xfe80 * 2 ^ 112, 10⟩ : Cidr 128).contains v6.bits :=
    @Ipv6Addr.segment_and v6 6 10 0xfe80 rfl
  unfold ipv6IsSafe
  simp only [ite_error_eq_ok, v6.isLoopback_iff, v6.isUnspecified_iff, v6.isMulticast_iff, hlocal,
    hlink, forbidden6, List.mem_cons, List.not_mem_nil, or_false, exists_eq_or_imp, exists_eq_left]
  tauto

/-- A mapped address is in none of the IPv6 blocks. -/
theorem not_forbidden6_of_mapped {bits : Nat} (h : mapped6.contains bits) :
    ¬∃ c ∈ forbidden6, c.contains bits := by
  simp only [mapped6, Cidr.contains] at h
  simp only [forbidden6, List.mem_cons, List.not_mem_nil, or_false, exists_eq_or_imp, exists_eq_left,
    Cidr.contains]
  omega

/-- **The classifier is exact.** -/
theorem ipIsSafe_iff (ip : IpAddr) : ipIsSafe ip = .ok () ↔ ¬Forbidden ip := by
  cases ip with
  | v4 v4 => exact ipv4IsSafe_iff v4
  | v6 v6 =>
    have hmapped : v6.bits / 2 ^ 32 = 0xffff ↔ mapped6.contains v6.bits := by
      simp only [mapped6, Cidr.contains]
      omega
    simp only [ipIsSafe, Ipv6Addr.toIpv4Mapped, Forbidden]
    by_cases hm : v6.bits / 2 ^ 32 = 0xffff
    · rw [if_pos hm]
      have hno := not_forbidden6_of_mapped (hmapped.mp hm)
      simp only [ipv4IsSafe_iff, Ipv4Addr.ofBits, hmapped.mp hm, hno, false_or, true_and]
    · rw [if_neg hm]
      have hno : ¬mapped6.contains v6.bits := fun h => hm (hmapped.mpr h)
      simp only [ipv6IsSafe_iff, hno, false_and, or_false]

/-! ## URLs -/

inductive UrlHost where
  | domain (name : String)
  | ipv4 (a : Ipv4Addr)
  | ipv6 (a : Ipv6Addr)
  deriving DecidableEq, Repr

/-- The `url` crate. -/
structure UrlCrate where
  Url : Type
  parse : String → Option Url
  scheme : Url → String
  host : Url → Option UrlHost
  hostStr : Url → Option String

/-- The text of an IP host can be read back. -/
structure UrlCrate.Documented (U : UrlCrate) : Prop where
  ipv4 : ∀ u a, U.host u = some (.ipv4 a) →
    ∃ t, U.hostStr u = some t ∧ IpAddr.fromStr t.toList = some (.v4 a)
  ipv6 : ∀ u a, U.host u = some (.ipv6 a) →
    ∃ t, U.hostStr u = some ("[" ++ t ++ "]") ∧ IpAddr.fromStr t.toList = some (.v6 a)

/-- `strip_prefix('[')`, then `strip_suffix(']')`; without both the text stays. -/
def unbracket : List Char → List Char
  | '[' :: s => if s.getLast? = some ']' then s.dropLast else '[' :: s
  | s => s

/-- mirrors crates/db/src/validators.rs:102-129 -/
def webhookUrlIsSafe (U : UrlCrate) (input : String) : Except UnsafeUrlReason Unit :=
  match U.parse input with
  | none => .error .invalidUrl
  | some parsed =>
    if U.scheme parsed ≠ "https" then .error .nonHttps
    else
      match U.hostStr parsed with
      | none => .error .noHost
      | some hostRaw =>
        if hostRaw = "" then .error .noHost
        else
          let host := unbracket hostRaw.toList
          match IpAddr.fromStr host with
          | some ip => ipIsSafe ip
          | none =>
            let hostLower := host.map Char.toLower
            if hostLower = "localhost".toList ∨ ".localhost".toList <:+ hostLower ∨
                ".local".toList <:+ hostLower then .error .mdnsHost
            else .ok ()

theorem fromStr_bracket (s : List Char) : IpAddr.fromStr ('[' :: s) = none := by
  have hdigit : ∀ radix, radix ≤ 36 → charDigit radix '[' = none := by
    intro radix hr
    simp [charDigit]
    omega
  have hnumber : ∀ radix maxDigits bound zero, radix ≤ 36 →
      readNumber radix maxDigits bound zero ('[' :: s) = none := by
    intro radix maxDigits bound zero hr
    simp [readNumber, hdigit radix hr]
  simp [IpAddr.fromStr, readIpAddr, readIpv4Addr, readIpv6Addr, readGroups, readSeparator,
    readGivenChar, hnumber]

theorem unbracket_fromStr {t : List Char} {ip : IpAddr} (h : IpAddr.fromStr t = some ip) :
    unbracket t = t := by
  cases t with
  | nil => rfl
  | cons c s =>
    by_cases hc : c = '['
    · subst hc
      rw [fromStr_bracket] at h
      cases h
    · unfold unbracket
      split
      · rename_i heq
        cases heq
        exact absurd rfl hc
      · rfl

theorem unbracket_brackets (t : String) : unbracket ("[" ++ t ++ "]").toList = t.toList := by
  simp [unbracket]

/-- The host of a URL that passes, if it is an address, passes itself. -/
theorem webhookUrlIsSafe_ip {U : UrlCrate} (hU : U.Documented) {input : String} {u : U.Url}
    (hu : U.parse input = some u) (h : webhookUrlIsSafe U input = .ok ()) :
    (∀ a, U.host u = some (.ipv4 a) → ipIsSafe (.v4 a) = .ok ()) ∧
    ∀ a, U.host u = some (.ipv6 a) → ipIsSafe (.v6 a) = .ok () := by
  have hhost : ∀ (text : String) (t : List Char) (ip : IpAddr), U.hostStr u = some text →
      unbracket text.toList = t → IpAddr.fromStr t = some ip → ipIsSafe ip = .ok () := by
    intro text t ip htext ht hip
    unfold webhookUrlIsSafe at h
    rw [hu] at h
    simp only at h
    split at h
    · cases h
    · rw [htext] at h
      simp only at h
      split at h
      · cases h
      · rw [ht, hip] at h
        exact h
  constructor
  · intro a ha
    obtain ⟨t, ht, hip⟩ := hU.ipv4 u a ha
    exact hhost t _ _ ht (unbracket_fromStr hip) hip
  · intro a ha
    obtain ⟨t, ht, hip⟩ := hU.ipv6 u a ha
    exact hhost _ _ _ ht (unbracket_brackets t) hip

end Amarillo.L2
