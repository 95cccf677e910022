import Amarillo.Core.Decimal
import Amarillo.L5Api.LabelRoutes

/-!
# The admin key (`api/src/auth.rs`, `config.rs`, `tui/src/config.rs`, `client.rs`)

Server and client read the key from the same variable and trim it. The client sends it in
the `Authorization` header, the server compares the rest of the header after `Bearer `
with its own.

* `toStr_eq_some`: `HeaderValue::to_str` undoes UTF-8 where it succeeds.
* `admin_gate`: one header value opens the protected routes, and a key with anything but
  visible ASCII and tabs opens them to nobody.
-/
namespace Amarillo.L5
open Amarillo.Core

/-- mirrors crates/api/src/error.rs:9-26 -/
inductive RouteError where
  | notFound (msg : String)
  | badRequest (msg : String)
  | unauthorized
  | internal (msg : String)
  deriving DecidableEq, Repr

/-- The errors of the routes that never answer 401 or 404. -/
def ApiError.toRouteError : ApiError → RouteError
  | .badRequest msg => .badRequest msg
  | .internal msg => .internal msg

/-! ## Configuration -/

/-- The warning for a key under 32 bytes is left out: it changes nothing. -/
structure ApiConfig where
  databaseUrl : String
  host : String
  port : Nat
  maxDbConnections : Nat
  adminApiKey : String
  deriving DecidableEq, Repr

/-- mirrors crates/api/src/config.rs:49-84 -/
def ApiConfig.fromEnvWith (get : String → Option String) : Except String ApiConfig :=
  match (get "DATABASE_URL").filter fun s => decide (trim s ≠ "") with
  | none => .error "DATABASE_URL environment variable is required"
  | some databaseUrl =>
    match (get "AMARILLO_ADMIN_API_KEY").filter fun s => decide (trim s ≠ "") with
    | none => .error
      "AMARILLO_ADMIN_API_KEY environment variable is required (S16/M006/D023, no silent default)"
    | some v => .ok
      { databaseUrl := databaseUrl
        host := (get "API_HOST").getD "0.0.0.0"
        port := ((get "API_PORT").bind fun v => parseUnsigned (2 ^ 16) v.toList).getD 3000
        maxDbConnections :=
          ((get "MAX_DB_CONNECTIONS").bind fun v => parseUnsigned (2 ^ 32) v.toList).getD 10
        adminApiKey := trim v }

structure TuiConfig where
  apiUrl : String
  adminApiKey : Option String
  refreshIntervalSecs : Nat
  requestTimeoutSecs : Nat
  logDir : String
  logFilter : String
  deriving DecidableEq, Repr

/-- A variable, trimmed; a blank one counts as unset. -/
def trimmedVar (get : String → Option String) (k : String) : Option String :=
  ((get k).map trim).filter fun s => decide (s ≠ "")

/-- A positive `u64`. -/
def positiveVar (get : String → Option String) (k : String) : Option Nat :=
  ((get k).bind fun v => parseUnsigned (2 ^ 64) (trim v).toList).filter fun n => decide (0 < n)

/-- mirrors crates/tui/src/config.rs:48-92 -/
def TuiConfig.fromEnvWith (get : String → Option String) : TuiConfig where
  apiUrl := (((get "AMARILLO_API_URL").map fun s =>
      String.ofList ((trim s).toList.rdropWhile fun c => c = '/')).filter fun s =>
        decide (s ≠ "")).getD "http://127.0.0.1:3000"
  adminApiKey := trimmedVar get "AMARILLO_ADMIN_API_KEY"
  refreshIntervalSecs := (positiveVar get "AMARILLO_TUI_REFRESH_SECS").getD 10
  requestTimeoutSecs := (positiveVar get "AMARILLO_TUI_TIMEOUT_SECS").getD 15
  logDir := (trimmedVar get "AMARILLO_TUI_LOG_DIR").getD "."
  logFilter := (trimmedVar get "RUST_LOG").getD "info"

/-! ## The header -/

/-- `HeaderValue::to_str` takes visible ASCII and tabs only. -/
def visible (b : UInt8) : Bool := decide (0x20 ≤ b ∧ b < 0x7f ∨ b = 0x09)

def toStr (value : Bytes) : Option (List Char) :=
  if value.all visible then some (value.map fun b => Char.ofNat b.toNat) else none

def BEARER_PREFIX : String := "Bearer "

/-- `subtle::ConstantTimeEq` of two slices: of one length, and equal byte by byte. -/
def ctEq (a b : Bytes) : Bool :=
  a.length = b.length && (a.zip b).all fun p => p.1 = p.2

/-- The value of the request's first `Authorization` header, if it has one, against the key.
mirrors crates/api/src/auth.rs:42-69 -/
def fromRequestParts (adminApiKey : String) (authorization : Option Bytes) : Except RouteError Unit :=
  match authorization with
  | none => .error .unauthorized
  | some header =>
    match toStr header with
    | none => .error .unauthorized
    | some value =>
      if BEARER_PREFIX.toList.isPrefixOf value then
        let token := value.drop BEARER_PREFIX.toList.length
        if ctEq (utf8 (String.ofList token)) (utf8 adminApiKey) then .ok () else .error .unauthorized
      else .error .unauthorized

/-- `RequestBuilder::bearer_auth`: no request is sent when the bytes make no header value. -/
def bearerAuth (key : String) : Option Bytes :=
  let value := utf8 (BEARER_PREFIX ++ key)
  if value.all fun b => decide (0x20 ≤ b ∧ b ≠ 0x7f ∨ b = 0x09) then some value else none

def isBlank (b : UInt8) : Bool := decide (b = 0x20 ∨ b = 0x09)

/-- A header value as it arrives: without the blanks around it. -/
def fieldValue (value : Bytes) : Bytes := (value.dropWhile isBlank).rdropWhile isBlank

/-! ## Text and bytes -/

/-- The key consists of characters that `to_str` lets through. -/
def Visible (key : String) : Prop := ∀ c ∈ key.toList, 0x20 ≤ c.toNat ∧ c.toNat < 0x7f ∨ c.toNat = 9

instance (key : String) : Decidable (Visible key) :=
  inferInstanceAs (Decidable (∀ _ ∈ _, _))

theorem utf8_inj {s t : String} (h : utf8 s = utf8 t) : s = t := by
  rw [← String.toList_inj, ← fromUtf8Lossy_utf8 s, h, fromUtf8Lossy_utf8]

/-- A character up to 127 is one byte. -/
theorem encode_ascii {c : Char} (h : c.toNat < 128) :
    String.utf8EncodeChar c = [UInt8.ofNat c.toNat] := by
  have hv : c.val.toNat ≤ 0x7f := by
    show c.toNat ≤ 127
    omega
  unfold String.utf8EncodeChar
  simp only [hv, if_true]
  rfl

theorem visible_iff (b : UInt8) : visible b = true ↔ 0x20 ≤ b.toNat ∧ b.toNat < 0x7f ∨ b.toNat = 9 := by
  simp [visible, UInt8.le_iff_toNat_le, UInt8.lt_iff_toNat_lt, ← UInt8.toNat_inj]

theorem utf8_visible {s : String} (h : Visible s) :
    utf8 s = s.toList.map fun c => UInt8.ofNat c.toNat := by
  have hbyte : ∀ c ∈ s.toList, String.utf8EncodeChar c = (pure ∘ fun c => UInt8.ofNat c.toNat) c :=
    fun c hc => encode_ascii (by have := h c hc; omega)
  rw [utf8, List.flatMap_congr hbyte]
  exact List.flatMap_pure_eq_map _ _

theorem toNat_visible {b : UInt8} (h : visible b = true) : (Char.ofNat b.toNat).toNat = b.toNat := by
  rw [visible_iff] at h
  have hvalid : b.toNat.isValidChar := .inl (by omega)
  simp [Char.ofNat, hvalid, Char.toNat, Char.ofNatAux]

theorem visible_ofNat {c : Char} (h : 0x20 ≤ c.toNat ∧ c.toNat < 0x7f ∨ c.toNat = 9) :
    visible (UInt8.ofNat c.toNat) = true ∧ Char.ofNat (UInt8.ofNat c.toNat).toNat = c := by
  have hsmall : (UInt8.ofNat c.toNat).toNat = c.toNat := by
    rw [UInt8.toNat_ofNat', Nat.mod_eq_of_lt (by omega)]
  rw [visible_iff, hsmall]
  exact ⟨h, Char.ofNat_toNat c⟩

theorem toStr_eq_some {v : Bytes} {cs : List Char} :
    toStr v = some cs ↔ v = utf8 (String.ofList cs) ∧ Visible (String.ofList cs) := by
  unfold toStr
  constructor
  · intro h
    split at h
    · rename_i hall
      rw [List.all_eq_true] at hall
      cases h
      have hvis : Visible (String.ofList (v.map fun b => Char.ofNat b.toNat)) := by
        intro c hc
        rw [String.toList_ofList] at hc
        obtain ⟨b, hb, rfl⟩ := List.mem_map.mp hc
        rw [toNat_visible (hall b hb)]
        exact (visible_iff b).mp (hall b hb)
      refine ⟨?_, hvis⟩
      rw [utf8_visible hvis, String.toList_ofList, List.map_map]
      refine ((List.map_congr_left fun b hb => ?_).trans (List.map_id v)).symm
      rw [Function.comp, toNat_visible (hall b hb), UInt8.ofNat_toNat, id]
    · cases h
  · rintro ⟨rfl, hvis⟩
    rw [utf8_visible hvis]
    rw [Visible, String.toList_ofList] at hvis
    rw [String.toList_ofList, if_pos, List.map_map]
    · refine congrArg some ((List.map_congr_left fun c hc => ?_).trans (List.map_id cs))
      exact (visible_ofNat (hvis c hc)).2
    · rw [List.all_eq_true]
      intro b hb
      obtain ⟨c, hc, rfl⟩ := List.mem_map.mp hb
      exact (visible_ofNat (hvis c hc)).1

theorem ctEq_iff {a b : Bytes} : ctEq a b = true ↔ a = b := by
  unfold ctEq
  induction a generalizing b with
  | nil => cases b <;> simp
  | cons x a ih =>
    cases b with
    | nil => simp
    | cons y b =>
      have hrest := @ih b
      simp only [Bool.and_eq_true, decide_eq_true_eq] at hrest
      simp only [List.length_cons, List.zip_cons_cons, List.all_cons, Bool.and_eq_true,
        decide_eq_true_eq, List.cons.injEq, ← hrest, Nat.add_right_cancel_iff]
      tauto

/-! ## The gate -/

theorem visible_append {s t : String} : Visible (s ++ t) ↔ Visible s ∧ Visible t := by
  simp only [Visible, String.toList_append, List.mem_append, or_imp, forall_and]

theorem visible_bearer {key : String} (h : Visible key) : Visible (BEARER_PREFIX ++ key) := by
  refine visible_append.mpr ⟨fun c hc => ?_, h⟩
  fin_cases hc <;> decide

/-- Only the one header value passes, and every other request gets the same answer. -/
theorem fromRequestParts_eq (key : String) (authorization : Option Bytes) :
    fromRequestParts key authorization =
      if authorization = some (utf8 (BEARER_PREFIX ++ key)) ∧ Visible key then .ok ()
      else .error .unauthorized := by
  by_cases hopen : authorization = some (utf8 (BEARER_PREFIX ++ key)) ∧ Visible key
  · obtain ⟨rfl, hkey⟩ := hopen
    have hread : toStr (utf8 (BEARER_PREFIX ++ key)) = some (BEARER_PREFIX ++ key).toList :=
      toStr_eq_some.mpr ⟨by rw [String.ofList_toList],
        by rw [String.ofList_toList]; exact visible_bearer hkey⟩
    have hstarts : BEARER_PREFIX.toList.isPrefixOf (BEARER_PREFIX ++ key).toList = true := by
      rw [String.toList_append, List.isPrefixOf_iff_prefix]
      exact List.prefix_append _ _
    have htoken : (BEARER_PREFIX ++ key).toList.drop BEARER_PREFIX.toList.length = key.toList := by
      rw [String.toList_append, List.drop_left]
    have hsame : ctEq (utf8 key) (utf8 key) = true := ctEq_iff.mpr rfl
    rw [if_pos ⟨rfl, hkey⟩]
    simp only [fromRequestParts, hread, hstarts, htoken, if_true, String.ofList_toList, hsame]
  · rw [if_neg hopen]
    unfold fromRequestParts
    split
    · rfl
    · rename_i header
      split
      · rfl
      · rename_i value hread
        split
        · rename_i hstarts
          obtain ⟨token, rfl⟩ := List.isPrefixOf_iff_prefix.mp hstarts
          obtain ⟨hheader, hvis⟩ := toStr_eq_some.mp hread
          rw [if_neg]
          intro hsame
          rw [List.drop_left] at hsame
          have hkey : String.ofList token = key := utf8_inj (ctEq_iff.mp hsame)
          have hvalue : String.ofList (BEARER_PREFIX.toList ++ token) = BEARER_PREFIX ++ key := by
            rw [String.ofList_append, String.ofList_toList, hkey]
          rw [hvalue] at hheader hvis
          exact hopen ⟨congrArg some hheader, (visible_append.mp hvis).2⟩
        · rfl

/-! ## Both ends -/

theorem fromEnvWith_key {get : String → Option String} {cfg : ApiConfig}
    (h : ApiConfig.fromEnvWith get = .ok cfg) :
    (TuiConfig.fromEnvWith get).adminApiKey = some cfg.adminApiKey ∧
      ∃ v, cfg.adminApiKey = trim v ∧ trim v ≠ "" := by
  unfold ApiConfig.fromEnvWith at h
  split at h
  · cases h
  · split at h
    · cases h
    · rename_i v hv
      cases h
      obtain ⟨hget, hne⟩ := Option.filter_eq_some_iff.mp hv
      refine ⟨?_, v, rfl, of_decide_eq_true hne⟩
      simp only [TuiConfig.fromEnvWith, trimmedVar, hget, Option.map_some, Option.filter_some, hne,
        if_true]

/-- A trimmed text that is not empty ends in a character that is no whitespace. -/
theorem trim_last {v : String} (h : trim v ≠ "") :
    ∃ s c, (trim v).toList = s ++ [c] ∧ isWhitespace c = false := by
  have hne : (trim v).toList ≠ [] := fun hnil => h (String.toList_eq_nil_iff.mp hnil)
  refine ⟨_, _, (List.dropLast_append_getLast hne).symm, ?_⟩
  have hlast : (v.toList.dropWhile isWhitespace).rdropWhile isWhitespace ≠ [] := by
    rwa [trim, String.toList_ofList] at hne
  have := List.rdropWhile_last_not isWhitespace _ hlast
  simpa [trim] using this

/-- What the client sends arrives as it is. -/
theorem fieldValue_bearer {key : String} {s : List Char} {c : Char} (hkey : key.toList = s ++ [c])
    (hc : isWhitespace c = false) (hvis : Visible key) :
    fieldValue (utf8 (BEARER_PREFIX ++ key)) = utf8 (BEARER_PREFIX ++ key) := by
  have hbytes := utf8_visible (visible_bearer hvis)
  rw [String.toList_append, hkey, ← List.append_assoc, List.map_append, List.map_singleton] at hbytes
  have hlast : ¬isBlank (UInt8.ofNat c.toNat) = true := by
    have hcvis := hvis c (by rw [hkey]; exact List.mem_append_right _ List.mem_cons_self)
    have hsmall : (UInt8.ofNat c.toNat).toNat = c.toNat := by
      rw [UInt8.toNat_ofNat', Nat.mod_eq_of_lt (by omega)]
    have hspace : c.toNat ≠ 0x20 ∧ c.toNat ≠ 9 := by
      unfold isWhitespace at hc
      rw [decide_eq_false_iff_not] at hc
      omega
    rw [isBlank, decide_eq_true_eq, ← UInt8.toNat_inj, ← UInt8.toNat_inj, hsmall]
    exact not_or.mpr hspace
  have hfirst : BEARER_PREFIX.toList = 'B' :: "earer ".toList := rfl
  unfold fieldValue
  rw [hbytes, hfirst, List.cons_append, List.map_cons, List.cons_append,
    List.dropWhile_cons_of_neg (by decide), ← List.cons_append, List.rdropWhile_concat_neg _ _ _ hlast]

/-- **The gate of the admin routes.** Where the API starts: the one header value that opens
the protected routes is `Bearer ` and the trimmed key, and every other request is answered
with the same 401. A client with the same environment gets in, unless the key has a character
other than visible ASCII and tabs: then nobody does. -/
theorem admin_gate (get : String → Option String) (cfg : ApiConfig)
    (h : ApiConfig.fromEnvWith get = .ok cfg) :
    (∀ authorization, fromRequestParts cfg.adminApiKey authorization =
      if authorization = some (utf8 (BEARER_PREFIX ++ cfg.adminApiKey)) ∧ Visible cfg.adminApiKey
      then .ok () else .error .unauthorized) ∧
    (Visible cfg.adminApiKey ↔
      ∃ v, (TuiConfig.fromEnvWith get).adminApiKey.bind bearerAuth = some v ∧
        fromRequestParts cfg.adminApiKey (some (fieldValue v)) = .ok ()) := by
  obtain ⟨hclient, raw, hraw, hne⟩ := fromEnvWith_key h
  refine ⟨fromRequestParts_eq cfg.adminApiKey, fun hvis => ?_, ?_⟩
  · obtain ⟨s, c, hlast, hc⟩ := trim_last hne
    rw [← hraw] at hlast
    refine ⟨utf8 (BEARER_PREFIX ++ cfg.adminApiKey), ?_, ?_⟩
    · rw [hclient, Option.bind_some, bearerAuth, if_pos]
      rw [List.all_eq_true, utf8_visible (visible_bearer hvis)]
      intro b hb
      obtain ⟨x, hx, rfl⟩ := List.mem_map.mp hb
      have hb := (visible_ofNat (visible_bearer hvis x hx)).1
      rw [visible_iff] at hb
      simp only [UInt8.le_iff_toNat_le, ne_eq, ← UInt8.toNat_inj, decide_eq_true_eq, UInt8.reduceToNat]
      omega
    · rw [fieldValue_bearer hlast hc hvis, fromRequestParts_eq, if_pos ⟨rfl, hvis⟩]
  · rintro ⟨v, -, hok⟩
    rw [fromRequestParts_eq] at hok
    split at hok
    · rename_i hopen
      exact hopen.2
    · cases hok

/-- The environment of a server with a padded key. -/
def paddedEnv : String → Option String
  | "DATABASE_URL" => some "postgres://db"
  | "AMARILLO_ADMIN_API_KEY" => some " k3y\n"
  | _ => none

theorem admin_gate_padded :
    (∀ authorization, fromRequestParts "k3y" authorization =
      if authorization = some (utf8 (BEARER_PREFIX ++ "k3y")) ∧ Visible "k3y"
      then .ok () else .error .unauthorized) ∧
    (Visible "k3y" ↔
      ∃ v, (TuiConfig.fromEnvWith paddedEnv).adminApiKey.bind bearerAuth = some v ∧
        fromRequestParts "k3y" (some (fieldValue v)) = .ok ()) :=
  admin_gate paddedEnv ⟨"postgres://db", "0.0.0.0", 3000, 10, "k3y"⟩ (by decide +kernel)

end Amarillo.L5
