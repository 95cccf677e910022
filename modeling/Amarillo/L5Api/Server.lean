import Amarillo.Core.History
import Amarillo.L4Alerts.Webhook
import Amarillo.L5Api.AlertRoutes

/-!
# The admin API and the dispatchers as one system

Requests of anybody, in any order, between the steps of any number of dispatchers on the
same tables. A label of a request carries the answer to it, so that a run is also what the
clients have seen.

* `server_simulates`: the dispatchers' side of a run is a run of `dispatcher`.
* `lifecycle_refined`: to a client every subscription is a machine of three phases. The
  answers it has seen decide the phase, and the phase decides the next answer.
* `labels_refined`: the same for a label, whose machine is a register.
-/
namespace Amarillo.L5
open Amarillo.Core Amarillo.L2 Amarillo.L4

inductive ServerLabel where
  | request (authorization : Option Bytes) (rng : Rng) (req : Request) (resp : Response)
  | work (l : DispatcherLabel)

/-- The URL check that the dispatchers make again. -/
def unsafeReason (U : UrlCrate) (url : String) : Option String :=
  match webhookUrlIsSafe U url with
  | .ok () => none
  | .error reason => some reason.debug

section System
variable (U : UrlCrate) (adminApiKey : String)

/-- Subscriptions are written by requests only. -/
def serverStep (s : Server) : ServerLabel → Option Server
  | .request authorization rng req resp =>
    let answer := handle U adminApiKey authorization rng req s
    if answer.2 = resp then some answer.1 else none
  | .work (.api _) => none
  | .work l => (dispatcherStep (unsafeReason U) s.dispatcher l).map fun d => { s with dispatcher := d }

def server : LTS Server ServerLabel := .ofFn (fun s => DispatcherInit s.dispatcher) (serverStep U adminApiKey)

end System

section Steps
variable {U : UrlCrate} {adminApiKey : String} {s s' : Server}

theorem serverStep_request {authorization : Option Bytes} {rng : Rng} {req : Request} {resp : Response}
    (h : serverStep U adminApiKey s (.request authorization rng req resp) = some s') :
    HandleEffect U adminApiKey authorization rng s req s' resp := by
  simp only [serverStep] at h
  split at h
  · rename_i hresp
    cases h
    rw [← hresp]
    exact handle_effect s req
  · cases h

theorem serverStep_work {l : DispatcherLabel} (h : serverStep U adminApiKey s (.work l) = some s') :
    (∀ call, l ≠ .api call) ∧ ∃ d, dispatcherStep (unsafeReason U) s.dispatcher l = some d ∧
      s' = { s with dispatcher := d } := by
  unfold serverStep at h
  split at h
  · rename_i heq
    cases heq
  · cases h
  · rename_i hl heq
    cases heq
    obtain ⟨d, hd, rfl⟩ := Option.map_eq_some_iff.mp h
    exact ⟨fun call e => hl call e, d, hd, rfl⟩

/-- Between requests the dispatchers leave the subscriptions and their ids alone. -/
theorem work_frame {d d' : Dispatcher} {l : DispatcherLabel} (hl : ∀ call, l ≠ .api call)
    (h : dispatcherStep (unsafeReason U) d l = some d') :
    d'.alerts.subscriptions = d.alerts.subscriptions ∧ d'.nextId = d.nextId ∧ d'.rates = d.rates := by
  cases l with
  | api call => exact absurd rfl (hl call)
  | data db =>
    cases h
    exact ⟨rfl, rfl, rfl⟩
  | event l =>
    obtain ⟨alerts, hstep, hchange, rfl⟩ := eventStep_some h
    exact ⟨(dispatchStep_frame hstep hchange).1, rfl, rfl⟩
  | rate l =>
    obtain ⟨halerts, hrates, hnext, -⟩ := rateStep_frame h
    exact ⟨by rw [halerts], hnext, hrates⟩

/-- An accepted subscription is inserted. -/
theorem inserted_dispatcher {x : NewSubscription} (h : ∀ r ∈ x.rate, r.accepted) :
    (s.inserted x).dispatcher = insertSubscription s.dispatcher x.errorCategory x.toAddr x.webhookUrl
      x.signingSecret x.subType x.rate := by
  unfold Server.inserted NewSubscription.call NewSubscription.subType
  cases hrate : x.rate with
  | none => rfl
  | some r => exact if_pos (h r hrate)

end Steps

/-! ## The dispatchers' side -/

theorem server_simulates (U : UrlCrate) (adminApiKey : String) :
    (server U adminApiKey).Simulates (dispatcher (unsafeReason U)) fun s d => s.dispatcher = d where
  init s h := ⟨s.dispatcher, h, rfl⟩
  step := by
    rintro s l s' d rfl h
    have hnone : s'.dispatcher = s.dispatcher → ∃ ks d', (dispatcher (unsafeReason U)).Run s.dispatcher
        ks d' ∧ s'.dispatcher = d' := fun h => ⟨[], _, .nil _, h⟩
    have hone : ∀ k, dispatcherStep (unsafeReason U) s.dispatcher k = some s'.dispatcher →
        ∃ ks d', (dispatcher (unsafeReason U)).Run s.dispatcher ks d' ∧ s'.dispatcher = d' :=
      fun k hk => ⟨[k], _, .cons hk (.nil _), rfl⟩
    cases l with
    | request authorization rng req resp =>
      cases serverStep_request h with
      | unauthorized hadmin hauth => exact hnone rfl
      | refused hauth hserve => exact hnone rfl
      | created hauth hchecked => exact hone (.api _) rfl
      | listed => exact hnone rfl
      | deactivated hauth hx hactive => exact hone (.api (.deactivateAlertSubscription _)) rfl
      | rotated hauth hrng hx hactive => exact hone (.api (.rotateAlertSubscriptionSecret _ _)) rfl
      | labelled hauth hcreate => exact hnone rfl
      | unlabelled hauth hdelete => exact hnone rfl
    | work l =>
      obtain ⟨-, d, hd, rfl⟩ := serverStep_work h
      exact hone l hd

theorem server_numbered {U : UrlCrate} {adminApiKey : String} {s : Server}
    (h : (server U adminApiKey).Reachable s) : Numbered s.dispatcher := by
  obtain ⟨d, hd, rfl⟩ := (server_simulates U adminApiKey).reachable h
  exact (numbered_inductive (unsafeReason U)).reachable s.dispatcher hd

/-! ## The life of a subscription -/

inductive Phase where
  | fresh
  | active
  | closed
  deriving DecidableEq, Repr

def Server.phase (s : Server) (id : Int) : Phase :=
  match s.subscriptions.get id with
  | some x => if x.active = true then .active else .closed
  | none => if s.dispatcher.nextId ≤ id then .fresh else .closed

def inactiveError (id : Int) : RouteError :=
  .notFound ("alert subscription " ++ id.repr ++ " (not found or already inactive)")

def unrotatableError (id : Int) : RouteError :=
  .notFound ("alert subscription " ++ id.repr ++ " (not found or inactive — cannot rotate)")

/-- An admin route answers 401 to a request without the key. All other answers are as
`answers` says. -/
def guarded (adminApiKey : String) (answers : Rng → Request → Response → Prop) : ServerLabel → Prop
  | .request authorization rng req resp =>
    match if req.admin then fromRequestParts adminApiKey authorization else .ok () with
    | .error _ => resp = .refused .unauthorized
    | .ok () => answers rng req resp
  | .work _ => True

/-- The answers that a phase of the subscription `id` allows. -/
def Phase.answers (id : Int) (p : Phase) (rng : Rng) : Request → Response → Prop
  | .createAlertSubscription _, .created row =>
    (∃ buf, rng = some buf ∧ row.signingSecret = bytesToHex buf.1) ∧
      (row.view.subscriptionId = id → p = .fresh ∧ row.view.active = true)
  | .createAlertSubscription _, .refused _ => True
  | .listAlertSubscriptions _, .listed rows => ∀ v ∈ rows, v.subscriptionId = id →
    p = if v.active = true then .active else .closed
  | .deactivateAlertSubscription i, resp => i = id →
    resp = if p = .active then .noContent else .refused (inactiveError id)
  | .rotateAlertSubscriptionSecret i, resp => i = id →
    match rng with
    | none => resp = .refused (.internal "rng unavailable")
    | some buf =>
      if p = .active then ∃ view, resp = .rotated ⟨view, bytesToHex buf.1⟩ ∧ view.subscriptionId = id ∧
        view.active = true
      else resp = .refused (unrotatableError id)
  | .createContractLabel _, _ => True
  | .deleteContractLabel _, _ => True
  | _, _ => False

/-- What an answer says about the subscription `id`. -/
def Phase.after (id : Int) (p : Phase) : ServerLabel → Phase
  | .request _ _ _ (.created row) => if row.view.subscriptionId = id then .active else p
  | .request _ _ (.deactivateAlertSubscription i) .noContent => if i = id then .closed else p
  | _ => p

/-- The machine of one subscription, as a client sees it. -/
def lifecycle (adminApiKey : String) (id : Int) : LTS Phase ServerLabel where
  init _ := True
  step p l p' := guarded adminApiKey (p.answers id) l ∧ p' = p.after id l

section Guarded
variable {adminApiKey : String} {answers : Rng → Request → Response → Prop}
  {authorization : Option Bytes} {rng : Rng} {req : Request}

theorem guarded_closed (hadmin : req.admin = true)
    (hauth : fromRequestParts adminApiKey authorization ≠ .ok ()) :
    guarded adminApiKey answers (.request authorization rng req (.refused .unauthorized)) := by
  simp only [guarded, hadmin, if_true]
  split
  · trivial
  · exact absurd ‹_› hauth

theorem guarded_open {resp : Response}
    (hauth : req.admin = true → fromRequestParts adminApiKey authorization = .ok ())
    (h : answers rng req resp) :
    guarded adminApiKey answers (.request authorization rng req resp) := by
  have hopen : (if req.admin then fromRequestParts adminApiKey authorization else .ok ()) = .ok () := by
    split
    · exact hauth ‹_›
    · rfl
  simp only [guarded, hopen]
  exact h

end Guarded

section Lifecycle
variable {U : UrlCrate} {adminApiKey : String} {s s' : Server} {id : Int}

theorem phase_eq_active {x : AlertSubscription} (hx : s.subscriptions.get id = some x)
    (hactive : x.active = true) : s.phase id = .active := by
  simp only [Server.phase, hx, hactive, if_true]

theorem active_of_phase (h : s.phase id = .active) :
    ∃ x ∈ s.subscriptions.get id, x.active = true := by
  unfold Server.phase at h
  split at h
  · rename_i x hx
    split at h
    · exact ⟨x, hx, by assumption⟩
    · cases h
  · split at h <;> cases h

theorem phase_congr (hget : s'.subscriptions.get id = s.subscriptions.get id)
    (hnext : s'.dispatcher.nextId = s.dispatcher.nextId) : s'.phase id = s.phase id := by
  simp only [Server.phase, hget, hnext]

theorem phase_inserted {x : NewSubscription} (hx : ∀ r ∈ x.rate, r.accepted)
    (hn : Numbered s.dispatcher) : (s.inserted x).phase id =
      if s.dispatcher.nextId = id then .active else s.phase id := by
  have hget : (s.inserted x).subscriptions.get id = (s.subscriptions.get id).or
      (lookup AlertSubscription.subscriptionId id [⟨s.dispatcher.nextId, x.errorCategory, x.toAddr,
        x.webhookUrl, x.signingSecret, true, x.subType⟩]) := by
    rw [Server.subscriptions, inserted_dispatcher hx]
    exact Table.get_insertNew _ _ _
  have hnext : (s.inserted x).dispatcher.nextId = s.dispatcher.nextId + 1 := by
    rw [inserted_dispatcher hx]
    rfl
  by_cases hid : s.dispatcher.nextId = id
  · subst hid
    have hnew : s.subscriptions.get s.dispatcher.nextId = none :=
      Table.get_eq_none.mpr fun y hy => (hn.rows y hy).ne
    rw [hnew, Option.none_or, lookup_cons, if_pos rfl] at hget
    rw [if_pos rfl]
    exact phase_eq_active hget rfl
  · have hnone : lookup AlertSubscription.subscriptionId id [⟨s.dispatcher.nextId, x.errorCategory,
        x.toAddr, x.webhookUrl, x.signingSecret, true, x.subType⟩] = none := by
      simp [lookup_eq_none, hid]
    rw [hnone, Option.or_none] at hget
    have hle : s.dispatcher.nextId + 1 ≤ id ↔ s.dispatcher.nextId ≤ id := by omega
    rw [if_neg hid]
    simp only [Server.phase, hget, hnext, hle]

theorem phase_deactivated {i : Int} {x : AlertSubscription} (hx : s.subscriptions.get i = some x)
    (hactive : x.active = true) : (s.updated (.deactivateAlertSubscription i)).phase id =
      if i = id then .closed else s.phase id := by
  have hget : (s.updated (.deactivateAlertSubscription i)).subscriptions.get id =
      (s.subscriptions.get id).map (deactivate i) := Table.get_map _ _ (deactivate_id i) _
  by_cases hid : i = id
  · subst hid
    rw [hx, Option.map_some, deactivate, if_pos ⟨Table.get_key hx, hactive⟩] at hget
    rw [if_pos rfl]
    simp [Server.phase, hget]
  · rw [if_neg hid]
    refine phase_congr (hget.trans ?_) rfl
    cases hy : s.subscriptions.get id with
    | none => rfl
    | some y => rw [Option.map_some, deactivate, if_neg fun h => hid (h.1.symm.trans (Table.get_key hy))]

theorem phase_rotated (i : Int) (secret : String) :
    (s.updated (.rotateAlertSubscriptionSecret i secret)).phase id = s.phase id := by
  have hget : (s.updated (.rotateAlertSubscriptionSecret i secret)).subscriptions.get id =
      (s.subscriptions.get id).map (rotateSecret i secret) :=
    Table.get_map _ _ (rotateSecret_id i secret) _
  have hkeep : ∀ x, (rotateSecret i secret x).active = x.active := by
    intro x
    unfold rotateSecret
    split <;> rfl
  unfold Server.phase
  rw [hget]
  cases s.subscriptions.get id with
  | none => rfl
  | some x => simp only [Option.map_some, hkeep]

theorem deactivate_error {e : RouteError} (h : deactivateAlertSubscription id s = .error e) :
    s.phase id ≠ .active ∧ e = inactiveError id := by
  unfold deactivateAlertSubscription at h
  split at h
  · cases h
  · rename_i hno
    cases h
    exact ⟨fun hp => hno (active_of_phase hp), rfl⟩

theorem rotate_error {e : RouteError} {buf : { buf : Bytes // buf.length = SECRET_BYTES }}
    (h : rotateAlertSubscriptionSecret (some buf) id s = .error e) :
    s.phase id ≠ .active ∧ e = unrotatableError id := by
  simp only [rotateAlertSubscriptionSecret, generateSigningSecret, bind, Except.bind] at h
  split at h
  · cases h
  · rename_i hno
    cases h
    refine ⟨fun hp => ?_, rfl⟩
    obtain ⟨x, hx, hactive⟩ := active_of_phase hp
    rw [Option.mem_def.mp hx, Option.filter_some, if_pos hactive] at hno
    cases hno

/-- A refusal that is not for the key. -/
theorem refused_answers {rng : Rng} {req : Request} {e : RouteError}
    (hserve : serve U rng s req = .error e) : (s.phase id).answers id rng req (.refused e) := by
  cases req with
  | listAlertSubscriptions limit => cases hserve
  | deactivateAlertSubscription i =>
    rintro rfl
    cases hd : deactivateAlertSubscription i s with
    | error e' =>
      obtain ⟨hphase, he⟩ := deactivate_error hd
      simp only [serve, hd] at hserve
      cases hserve
      rw [if_neg hphase, he]
    | ok s' =>
      simp only [serve, hd] at hserve
      cases hserve
  | rotateAlertSubscriptionSecret i =>
    rintro rfl
    cases rng with
    | none =>
      cases hserve
      rfl
    | some buf =>
      cases hr : rotateAlertSubscriptionSecret (some buf) i s with
      | error e' =>
        obtain ⟨hphase, he⟩ := rotate_error hr
        simp only [serve, hr] at hserve
        cases hserve
        simp only [if_neg hphase, he]
      | ok x =>
        simp only [serve, hr] at hserve
        cases hserve
  | _ => trivial

theorem listed_admitted {v : SubscriptionView} {limit : Option Int}
    (hv : v ∈ listAlertSubscriptions limit s) :
    s.phase v.subscriptionId = if v.active = true then .active else .closed := by
  obtain ⟨x, hx, rfl⟩ := List.mem_map.mp hv
  have hrow : x ∈ s.subscriptions.rows := List.mem_mergeSort.mp (List.mem_of_mem_take hx)
  have hget : s.subscriptions.get x.subscriptionId = some x := Table.mem_iff_get.mp hrow
  simp only [Server.phase, Server.view, hget]
  rfl

theorem serverStep_phase (hn : Numbered s.dispatcher) {l : ServerLabel}
    (h : serverStep U adminApiKey s l = some s') :
    (lifecycle adminApiKey id).step (s.phase id) l (s'.phase id) := by
  cases l with
  | work l =>
    obtain ⟨hl, d, hd, rfl⟩ := serverStep_work h
    obtain ⟨hsubs, hnext, -⟩ := work_frame hl hd
    exact ⟨trivial, phase_congr (by rw [Server.subscriptions, hsubs]; rfl) hnext⟩
  | request authorization rng req resp =>
    cases serverStep_request h with
    | unauthorized hadmin hauth =>
      refine ⟨guarded_closed hadmin hauth, ?_⟩
      cases req <;> rfl
    | refused hauth hserve =>
      refine ⟨guarded_open hauth (refused_answers hserve), ?_⟩
      cases req <;> rfl
    | @created body x hauth hchecked =>
      refine ⟨guarded_open (fun _ => hauth) ⟨hchecked.secret, fun hid => ⟨?_, rfl⟩⟩,
        phase_inserted hchecked.rate hn⟩
      have hnew : s.subscriptions.get s.dispatcher.nextId = none :=
        Table.get_eq_none.mpr fun y hy => (hn.rows y hy).ne
      rw [← show s.dispatcher.nextId = id from hid]
      simp only [Server.phase, hnew, le_refl, if_true]
    | listed =>
      refine ⟨guarded_open (by rintro ⟨⟩) ?_, rfl⟩
      rintro v hv rfl
      exact listed_admitted hv
    | @deactivated i x hauth hx hactive =>
      refine ⟨guarded_open (fun _ => hauth) ?_, phase_deactivated hx hactive⟩
      rintro rfl
      rw [if_pos (phase_eq_active hx hactive)]
    | @rotated i x buf hauth hrng hx hactive =>
      refine ⟨guarded_open (fun _ => hauth) ?_, phase_rotated i _⟩
      rintro rfl
      have hid : x.subscriptionId = i := Table.get_key hx
      simp only [hrng, if_pos (phase_eq_active hx hactive)]
      exact ⟨s.view x, rfl, hid, hactive⟩
    | labelled hauth hcreate => exact ⟨guarded_open (fun _ => hauth) trivial, rfl⟩
    | unlabelled hauth hdelete => exact ⟨guarded_open (fun _ => hauth) trivial, rfl⟩

/-- **The life of a subscription.** Whatever requests and dispatcher steps make up a run, the
answers in it are those of a machine that is created once under an id never used before,
rotated only while it is active, and deactivated at most once: between them the answers
say in which phase it is, and the phase says what the next answer is. Without the key it is 401,
whatever the phase; and while the generator fails nothing is created or rotated. -/
theorem lifecycle_refined (U : UrlCrate) (adminApiKey : String) {s s' : Server} {ls : List ServerLabel}
    (hs : (server U adminApiKey).Reachable s) (hrun : (server U adminApiKey).Run s ls s') (id : Int) :
    (lifecycle adminApiKey id).Run (s.phase id) ls (s'.phase id) := by
  refine LTS.Run.map (I := (server U adminApiKey).Reachable) (f := fun s => s.phase id)
    (fun s l s' hr hstep => ⟨?_, ?_⟩) hrun hs
  · exact hr.run (.cons hstep (.nil s'))
  · exact serverStep_phase (server_numbered hr) hstep

end Lifecycle

/-! ## The labels -/

/-- The answers that the row at `address` allows. -/
def labelAnswers (address : String) (p : Option ContractLabel) (_ : Rng) : Request → Response → Prop
  | .createContractLabel body, .labelled row =>
    row.address = lower (trim body.address) ∧ row.label = trim body.label ∧
      row.ownerId = body.ownerIdNorm ∧ (row.address = address → ∀ l ∈ p, row.createdAt = l.createdAt)
  | .createContractLabel _, .refused _ => True
  | .createContractLabel _, _ => False
  | .deleteContractLabel raw, resp => lower (trim raw) = address →
    resp =
      if isEvmAddress address = false then
        .refused (.badRequest ("invalid `address` (expected 0x + 40 hex): " ++ raw))
      else if p.isSome then .noContent
      else .refused (.notFound ("contract_label " ++ address ++ " (not found)"))
  | _, _ => True

/-- What an answer says about the label at `address`. -/
def labelAfter (address : String) (p : Option ContractLabel) : ServerLabel → Option ContractLabel
  | .request _ _ _ (.labelled row) => if row.address = address then some row else p
  | .request _ _ (.deleteContractLabel raw) .noContent => if lower (trim raw) = address then none else p
  | _ => p

/-- The label at `address` as a register that clients write and clear. -/
def labelRegister (adminApiKey : String) (address : String) : LTS (Option ContractLabel) ServerLabel where
  init _ := True
  step p l p' := guarded adminApiKey (labelAnswers address p) l ∧ p' = labelAfter address p l

section Register
variable {U : UrlCrate} {adminApiKey : String} {s s' : Server}

theorem lower_lower (x : String) : lower (lower x) = lower x := by
  rw [lower_eq_self_iff, lower, String.toList_ofList]
  intro c hc
  obtain ⟨d, -, rfl⟩ := List.mem_map.mp hc
  exact Char.isUpper_toLower_eq_false d

theorem normalised_ok {body : CreateLabelBody} {address label : String} {ownerId : Option String}
    (h : body.normalised = .ok (address, label, ownerId)) :
    address = lower (trim body.address) ∧ label = trim body.label ∧ ownerId = body.ownerIdNorm := by
  unfold CreateLabelBody.normalised at h
  simp only at h
  split_ifs at h
  simp only [Except.ok.injEq, Prod.mk.injEq] at h
  exact ⟨h.1.symm, h.2.1.symm, h.2.2.symm⟩

/-- An upsert changes one address, and keeps the date of a row that is there. -/
theorem upsertContractLabel_get {now : Int} {address label : String} {ownerId : Option String}
    {labels labels' : Labels} {row : ContractLabel}
    (h : upsertContractLabel now address label ownerId labels = .ok (labels', row)) :
    (∀ a, labels'.table.get a = if row.address = a then some row else labels.table.get a) ∧
      ∀ l ∈ labels.table.get row.address, row.createdAt = l.createdAt := by
  obtain ⟨hrow, haddress, -⟩ := upsertContractLabel_returns h
  unfold upsertContractLabel at h
  simp only at h
  split at h <;> cases h
  rw [haddress, Labels.put]
  rw [Labels.put] at hrow
  simp only [Table.get_upsert, if_pos] at hrow ⊢
  refine ⟨fun a => ?_, fun l hl => ?_⟩
  · split
    · rename_i ha
      subst ha
      rfl
    · rfl
  · rw [Option.mem_def.mp hl]
    rfl

theorem deleteContractLabel_get {address : String} {labels labels' : Labels}
    (h : deleteContractLabel address labels = .ok labels') :
    isEvmAddress (lower (trim address)) = true ∧
      (labels.table.get (lower (trim address))).isSome = true ∧
      ∀ a, labels'.table.get a = if lower (trim address) = a then none else labels.table.get a := by
  unfold deleteContractLabel at h
  simp only [lower_lower] at h
  split_ifs at h with haddress hnone
  cases h
  refine ⟨by simpa using haddress, by simpa [Option.isSome_iff_ne_none] using hnone, fun a => ?_⟩
  rw [deleteLabel, Table.get_filter]
  cases hl : labels.table.get a with
  | none => split <;> rfl
  | some l =>
    have haddr : l.address = a := Table.get_key hl
    by_cases ha : lower (trim address) = a
    · rw [if_pos ha, Option.filter_some, if_neg (by simp [haddr, ha])]
    · rw [if_neg ha, Option.filter_some, if_pos (by simp [haddr, Ne.symm ha])]

theorem deleteContractLabel_error {address : String} {labels : Labels} {e : RouteError}
    (h : deleteContractLabel address labels = .error e) :
    (isEvmAddress (lower (trim address)) = false ∧
      e = .badRequest ("invalid `address` (expected 0x + 40 hex): " ++ address)) ∨
    (isEvmAddress (lower (trim address)) = true ∧ labels.table.get (lower (trim address)) = none ∧
      e = .notFound ("contract_label " ++ lower (trim address) ++ " (not found)")) := by
  simp only [deleteContractLabel, lower_lower] at h
  split_ifs at h with hinvalid hnone
  · cases h
    exact .inl ⟨by simpa using hinvalid, rfl⟩
  · cases h
    exact .inr ⟨by simpa using hinvalid, Option.isNone_iff_eq_none.mp hnone, rfl⟩

theorem serverStep_label {l : ServerLabel} (address : String)
    (h : serverStep U adminApiKey s l = some s') :
    (labelRegister adminApiKey address).step (s.labels.table.get address) l
      (s'.labels.table.get address) := by
  cases l with
  | work l =>
    obtain ⟨-, d, -, rfl⟩ := serverStep_work h
    exact ⟨trivial, rfl⟩
  | request authorization rng req resp =>
    cases serverStep_request h with
    | unauthorized hadmin hauth =>
      refine ⟨guarded_closed hadmin hauth, ?_⟩
      cases req <;> rfl
    | @refused req e hauth hserve =>
      refine ⟨guarded_open hauth ?_, by cases req <;> rfl⟩
      cases req with
      | deleteContractLabel raw =>
        rintro rfl
        cases hd : deleteContractLabel raw s.labels with
        | error e' =>
          simp only [serve, hd] at hserve
          cases hserve
          rcases deleteContractLabel_error hd with ⟨hinvalid, he⟩ | ⟨hvalid, hnone, he⟩
          · rw [if_pos hinvalid, he]
          · rw [if_neg (by rw [hvalid]; decide), hnone, he]
            rfl
        | ok labels =>
          simp only [serve, hd] at hserve
          cases hserve
      | _ => trivial
    | created hauth hchecked => exact ⟨guarded_open (fun _ => hauth) trivial, rfl⟩
    | listed => exact ⟨guarded_open (by rintro ⟨⟩) trivial, rfl⟩
    | deactivated hauth hx hactive => exact ⟨guarded_open (fun _ => hauth) trivial, rfl⟩
    | rotated hauth hrng hx hactive => exact ⟨guarded_open (fun _ => hauth) trivial, rfl⟩
    | @labelled body labels row hauth hcreate =>
      obtain ⟨⟨a, label, ownerId⟩, hn, hcreate⟩ := bind_ok hcreate
      obtain ⟨rfl, rfl, rfl⟩ := normalised_ok hn
      cases hupsert : upsertContractLabel s.now (lower (trim body.address)) (trim body.label)
          body.ownerIdNorm s.labels with
      | error e =>
        simp only [hupsert] at hcreate
        cases hcreate
      | ok created =>
        simp only [hupsert] at hcreate
        cases hcreate
        obtain ⟨-, haddress, hlabel, howner⟩ := upsertContractLabel_returns hupsert
        rw [lower_lower] at haddress
        obtain ⟨hget, hdate⟩ := upsertContractLabel_get hupsert
        refine ⟨guarded_open (fun _ => hauth) ⟨haddress, hlabel, howner, ?_⟩, hget address⟩
        rintro rfl
        exact hdate
    | @unlabelled raw labels hauth hdelete =>
      obtain ⟨hvalid, hthere, hget⟩ := deleteContractLabel_get hdelete
      refine ⟨guarded_open (fun _ => hauth) ?_, hget address⟩
      rintro rfl
      rw [if_neg (by rw [hvalid]; decide), if_pos hthere]

/-- **Labels are registers.** In every run, the label at an address is the last one that a
client was told it wrote there, unless a deletion answered 204 came after it; a repeated
write keeps the date of the first, and a deletion with the key and a well-formed address answers
404 exactly if there is none. -/
theorem labels_refined (U : UrlCrate) (adminApiKey : String) {s s' : Server} {ls : List ServerLabel}
    (hrun : (server U adminApiKey).Run s ls s') (address : String) :
    (labelRegister adminApiKey address).Run (s.labels.table.get address) ls
      (s'.labels.table.get address) :=
  hrun.map (I := fun _ => True) (f := fun s => s.labels.table.get address)
    (fun _ _ _ _ hstep => ⟨trivial, serverStep_label address hstep⟩) trivial

end Register
/-! ## Requests without the key -/

/-- The header of the request is not the one that opens the admin routes. -/
def outsider (adminApiKey : String) : ServerLabel → Bool
  | .request authorization _ _ _ => decide (authorization ≠ some (utf8 (BEARER_PREFIX ++ adminApiKey)))
  | .work _ => false

theorem closed_of_outsider {adminApiKey : String} {authorization : Option Bytes}
    (h : authorization ≠ some (utf8 (BEARER_PREFIX ++ adminApiKey))) :
    fromRequestParts adminApiKey authorization ≠ .ok () := by
  rw [fromRequestParts_eq, if_neg fun hopen => h hopen.1]
  rintro ⟨⟩

/-- An outsider's request changes nothing, and is refused unless it asks for the list. -/
theorem outsider_step {U : UrlCrate} {adminApiKey : String} {s s' : Server} {authorization : Option Bytes}
    {rng : Rng} {req : Request} {resp : Response}
    (h : serverStep U adminApiKey s (.request authorization rng req resp) = some s')
    (hout : authorization ≠ some (utf8 (BEARER_PREFIX ++ adminApiKey))) :
    s' = s ∧ (req.admin = true → resp = .refused .unauthorized) := by
  have hclosed := closed_of_outsider hout
  cases serverStep_request h with
  | unauthorized hadmin hauth => exact ⟨rfl, fun _ => rfl⟩
  | refused hauth hserve => exact ⟨rfl, fun hadmin => absurd (hauth hadmin) hclosed⟩
  | listed => exact ⟨rfl, fun hadmin => by cases hadmin⟩
  | created hauth hchecked => exact absurd hauth hclosed
  | deactivated hauth hx hactive => exact absurd hauth hclosed
  | rotated hauth hrng hx hactive => exact absurd hauth hclosed
  | labelled hauth hcreate => exact absurd hauth hclosed
  | unlabelled hauth hdelete => exact absurd hauth hclosed

/-- **Outsiders leave no trace.** Take out of any run every request that does not bring the
key: what is left is a run from the same state to the same state, with the same answers
to everybody else. Those taken out were all answered with the same 401, or asked for the list. -/
theorem outsiders_erased (U : UrlCrate) (adminApiKey : String) {s s' : Server} {ls : List ServerLabel}
    (hrun : (server U adminApiKey).Run s ls s') :
    (server U adminApiKey).Run s (ls.filter fun l => !outsider adminApiKey l) s' ∧
    ∀ authorization rng req resp, .request authorization rng req resp ∈ ls → req.admin = true →
      authorization ≠ some (utf8 (BEARER_PREFIX ++ adminApiKey)) → resp = .refused .unauthorized := by
  induction hrun with
  | nil s => exact ⟨.nil s, fun _ _ _ _ hm => by cases hm⟩
  | @cons s m s' l ls hs _ ih =>
    obtain ⟨hrest, hanswers⟩ := ih
    constructor
    · cases hout : outsider adminApiKey l with
      | false =>
        rw [List.filter_cons_of_pos (by rw [hout]; rfl)]
        exact .cons hs hrest
      | true =>
        rw [List.filter_cons_of_neg (by rw [hout]; decide)]
        cases l with
        | work l => cases hout
        | request authorization rng req resp =>
          rw [← (outsider_step hs (of_decide_eq_true hout)).1]
          exact hrest
    · intro authorization rng req resp hm hadmin hout
      rcases List.mem_cons.mp hm with rfl | hm
      · exact (outsider_step hs hout).2 hadmin
      · exact hanswers authorization rng req resp hm hadmin hout

/-! ## A session -/

/-- The labels of a sequence of requests, and where it ends. -/
def answered (U : UrlCrate) (adminApiKey : String) :
    Server → List (Option Bytes × Rng × Request) → List ServerLabel × Server
  | s, [] => ([], s)
  | s, (authorization, rng, req) :: rest =>
    let answer := handle U adminApiKey authorization rng req s
    let (ls, s') := answered U adminApiKey answer.1 rest
    (.request authorization rng req answer.2 :: ls, s')

theorem answered_run (U : UrlCrate) (adminApiKey : String) :
    ∀ (reqs : List (Option Bytes × Rng × Request)) (s : Server), (server U adminApiKey).Run s
      (answered U adminApiKey s reqs).1 (answered U adminApiKey s reqs).2
  | [], s => .nil s
  | (authorization, rng, req) :: reqs, s =>
    .cons (if_pos rfl) (answered_run U adminApiKey reqs (handle U adminApiKey authorization rng req s).1)

def emptyServer : Server :=
  ⟨⟨⟨Db.empty, .empty, .empty, 0, []⟩, fun _ => none, 1, [], [], []⟩, fun _ => 0, .empty⟩

theorem emptyServer_reachable (U : UrlCrate) (adminApiKey : String) :
    (server U adminApiKey).Reachable emptyServer :=
  ⟨emptyServer, [], ⟨rfl, rfl, rfl, fun _ hx => absurd hx List.not_mem_nil,
    fun _ hx => absurd hx List.not_mem_nil⟩, .nil _⟩

def adminHeader : Option Bytes := some (utf8 "Bearer k3y")

def zeroRng : Rng := some ⟨List.replicate 32 0, by decide⟩

def hookBody : CreateBody := ⟨"https://hook.example/a", none, none, none, none, none, none⟩

/-- A subscription is made, rotated and twice deactivated, with somebody trying without the key;
then a label is put up, renamed and twice taken down. -/
def session : List (Option Bytes × Rng × Request) :=
  [(adminHeader, zeroRng, .createAlertSubscription hookBody),
   (none, none, .deactivateAlertSubscription 1),
   (adminHeader, zeroRng, .rotateAlertSubscriptionSecret 1),
   (adminHeader, none, .deactivateAlertSubscription 1),
   (adminHeader, none, .deactivateAlertSubscription 1),
   (adminHeader, none, .createContractLabel ⟨botAddress, "bot", none⟩),
   (adminHeader, none, .createContractLabel ⟨botAddress, "robot", none⟩),
   (adminHeader, none, .deleteContractLabel botAddress),
   (adminHeader, none, .deleteContractLabel botAddress)]

def sessionLabels : List ServerLabel := (answered twoUrls "k3y" emptyServer session).1
def sessionEnd : Server := (answered twoUrls "k3y" emptyServer session).2

theorem lifecycle_refined_session :
    (lifecycle "k3y" 1).Run (emptyServer.phase 1) sessionLabels (sessionEnd.phase 1) :=
  lifecycle_refined twoUrls "k3y" (emptyServer_reachable _ _) (answered_run twoUrls "k3y" session emptyServer) 1

theorem labels_refined_session :
    (labelRegister "k3y" botAddress).Run (emptyServer.labels.table.get botAddress) sessionLabels
      (sessionEnd.labels.table.get botAddress) :=
  labels_refined twoUrls "k3y" (answered_run twoUrls "k3y" session emptyServer) botAddress

theorem outsiders_erased_session :
    (server twoUrls "k3y").Run emptyServer (sessionLabels.filter fun l => !outsider "k3y" l) sessionEnd ∧
    ∀ authorization rng req resp, .request authorization rng req resp ∈ sessionLabels →
      req.admin = true → authorization ≠ some (utf8 (BEARER_PREFIX ++ "k3y")) →
      resp = .refused .unauthorized :=
  outsiders_erased twoUrls "k3y" (answered_run twoUrls "k3y" session emptyServer)

/-- The subscription is closed; the second deactivation and the outsider were refused. -/
example : emptyServer.phase 1 = .fresh ∧ sessionEnd.phase 1 = .closed ∧
    sessionLabels.map (fun l => match l with
      | .request _ _ _ (.refused e) => some e
      | _ => none) =
    [none, some .unauthorized, none, none, some (inactiveError 1), none, none, none,
      some (.notFound ("contract_label " ++ botAddress ++ " (not found)"))] := by
  decide +kernel

end Amarillo.L5
