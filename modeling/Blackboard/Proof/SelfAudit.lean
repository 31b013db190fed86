import Blackboard.Proof.CallLedger
import Blackboard.Proof.Parsing
import Blackboard.Proof.Sweep

/-!
# What the server's own audits find

The audits question what any database may hold. Of everything this server writes, over
whichever transport and among whatever other calls, they find fault with one thing only:
intents that were written by `GET /w`. A navigation write reserves an intent and leaves no
authority on record for it, and no later execution makes up for that, because an
execution that finds the intent reserved replays it.
-/

namespace Blackboard

open Relational (Table mem_orderBy)

/-! ## What executions say -/

/-- An execution that names its channel and says where its delivery came from. -/
structure MessageExecutionRequest.Presentable (request : MessageExecutionRequest) : Prop where
  ingress : Presented request.ingress
  channel : Text.isBlank request.channel = false

theorem not_isWhitespace_of_validName {c : Char}
    (h : (Text.isAsciiAlphanumeric c || ['-', '_', '.', ':'].contains c) = true) :
    Text.isWhitespace c = false := by
  rcases (Bool.or_eq_true _ _).mp h with h | h
  · exact Text.not_isWhitespace_of_isAsciiAlphanumeric h
  · simp only [List.contains_iff_mem, List.mem_cons, List.not_mem_nil, or_false] at h
    rcases h with rfl | rfl | rfl | rfl
    · rfl
    · rfl
    · rfl
    · rfl

theorem Oidc.not_isBlank_of_validName {value : String} (h : Oidc.validName value = true) :
    Text.isBlank value = false := by
  unfold Oidc.validName at h
  obtain ⟨hsize, hall⟩ := (Bool.and_eq_true _ _).mp h
  rw [decide_eq_true_eq] at hsize
  cases hs : value.toList with
  | nil => exact absurd (String.toList_eq_nil_iff.mp hs) hsize.1
  | cons c cs =>
      have hc : c ∈ value.toList := by rw [hs]; exact List.mem_cons_self
      exact Text.not_isBlank_of_mem hc
        (not_isWhitespace_of_validName (List.all_eq_true.mp hall c hc))

/-- What a text with a mark in front goes on with does not matter. -/
theorem not_isBlank_append {s : String} (h : Text.isBlank s = false) (t : String) :
    Text.isBlank (s ++ t) = false := by
  rw [Bool.eq_false_iff] at h ⊢
  intro hblank
  refine h (Text.isBlank_iff.mpr fun c hc => Text.isBlank_iff.mp hblank c ?_)
  rw [String.toList_append]
  exact List.mem_append_left _ hc

section Adapters

variable [Sha256]

theorem presentable_messageExecution {principal : Principal}
    {mechanism transport deliveryId : String} {w : Http.WritePayload}
    (hdelivery : Text.isBlank deliveryId = false) (htransport : Text.isBlank transport = false)
    (hnonce : Text.isBlank w.nonce = false) (hchannel : Text.isBlank w.channel = false) :
    (Http.messageExecution principal mechanism transport deliveryId w).Presentable :=
  ⟨⟨hdelivery, htransport, hnonce⟩, hchannel⟩

omit [Sha256] in
theorem CheckedWrite.not_blank {w : Http.WritePayload} (h : CheckedWrite w) :
    Text.isBlank w.nonce = false ∧ Text.isBlank w.channel = false :=
  ⟨Text.not_isBlank_of_isToken h.nonce, Text.not_isBlank_of_isToken h.channel⟩

theorem presentable_signedExecution {w : Http.WritePayload} (h : CheckedWrite w) :
    (Http.signedExecution w).Presentable := by
  have hscheme : Text.isBlank "rest-hmac:" = false := by decide
  have hrest : Text.isBlank "rest" = false := by decide
  obtain ⟨hnonce, hchannel⟩ := h.not_blank
  refine presentable_messageExecution ?_ hrest hnonce hchannel
  exact not_isBlank_append (not_isBlank_append (not_isBlank_append hscheme _) _) _

theorem presentable_toolExecution {w : Http.WritePayload} (h : CheckedWrite w)
    (principal : Option Principal) : (Mcp.execution principal w).Presentable := by
  have hbearer : Text.isBlank "mcp-bearer:" = false := by decide
  have hhmac : Text.isBlank "mcp-hmac:" = false := by decide
  have hmcp : Text.isBlank "mcp" = false := by decide
  obtain ⟨hnonce, hchannel⟩ := h.not_blank
  cases principal with
  | some principal =>
      refine presentable_messageExecution ?_ hmcp hnonce hchannel
      exact not_isBlank_append (not_isBlank_append (not_isBlank_append hbearer _) _) _
  | none =>
      refine presentable_messageExecution ?_ hmcp hnonce hchannel
      exact not_isBlank_append (not_isBlank_append (not_isBlank_append hhmac _) _) _

theorem presentable_oidcExecution {object : Json.Object} {fields : Http.MessageFields}
    {intentId : String} (h : Oidc.parseMessage object = .ok (fields, intentId))
    (principal : Principal) (participantId : String) :
    (Oidc.execution principal { fields with participantId, nonce := intentId }).Presentable := by
  have hscheme : Text.isBlank "oidc:" = false := by decide
  have htransport : Text.isBlank "oidc-http" = false := by decide
  have hchannel := Oidc.not_isBlank_of_validName (Oidc.parseMessage_channel h)
  obtain ⟨raw, hnormal⟩ := Oidc.parseMessage_intentId h
  refine presentable_messageExecution ?_ htransport (not_isBlank_of_normalizeText hnormal) hchannel
  exact not_isBlank_append (not_isBlank_append (not_isBlank_append (not_isBlank_append
    (not_isBlank_append hscheme _) _) _) _) _

theorem presentable_githubExecution [Hmac] [JsonParser] {settings : GithubWebhook.Settings}
    {headers : Headers} {body : Bytes} {d : GithubWebhook.IssueDelivery}
    (h : GithubWebhook.parseDelivery settings headers body = .ok d) :
    (GithubWebhook.execution d).Presentable := by
  have hscheme : Text.isBlank "github:" = false := by decide
  have htransport : Text.isBlank "github-webhook" = false := by decide
  obtain ⟨event, intent, -, hcheck⟩ := GithubWebhook.parseDelivery_checkIntent h
  have hdelivery : Text.isBlank d.deliveryId = false := by
    rw [GithubWebhook.checkIntent_deliveryId hcheck]
    exact not_isBlank_append (not_isBlank_append (not_isBlank_append hscheme _) _) _
  exact ⟨⟨hdelivery, htransport, hdelivery⟩,
    Text.not_isBlank_of_isToken (GithubWebhook.checkIntent_channel hcheck)⟩

variable [Hmac] [Base64Url] [JsonParser]

omit [Base64Url] in
/-- **Whatever a call executes, it presents.** -/
theorem Runtime.Call.May.presentable {settings : Settings} {c : Runtime.Call} {writer : Identity}
    {request : MessageExecutionRequest} (hmay : c.May settings (.execute writer request)) :
    request.Presentable := by
  have htool : ToolEffect (.execute writer request) → request.Presentable := by
    intro h
    rcases h with h | ⟨arguments, w, writer', principal, hparse, -, h⟩
    · cases h
    · obtain ⟨-, rfl⟩ := Effect.execute.inj h
      exact presentable_toolExecution (Mcp.parseWrite_checked hparse) principal
  cases c with
  | board r =>
      cases r with
      | postMessage headers body =>
          rcases hmay with h | ⟨object, -, hsigned | hplain⟩
          · cases h
          · rcases hsigned with h | ⟨write, writer', hparse, -, h | h⟩
            · cases h
            · cases h
            · obtain ⟨-, rfl⟩ := Effect.execute.inj h
              exact presentable_signedExecution (Http.parseSignedMessage_checked hparse)
          · rcases hplain with h | ⟨identity, fields, -, h | h⟩
            · cases h
            · cases h
            · cases h
      | mcp headers tool arguments =>
          rcases hmay with h | ⟨w, writer', principal, hparse, -, h⟩
          · cases h
          · obtain ⟨-, rfl⟩ := Effect.execute.inj h
            exact presentable_toolExecution (Mcp.parseWrite_checked hparse) principal
      | oidc participantId headers body =>
          rcases hmay with h | ⟨fields, intentId, participantId, principal, writer', hparse, -, h⟩
          · cases h
          · obtain ⟨-, rfl⟩ := Effect.execute.inj h
            obtain ⟨object, -, hmessage⟩ := Except.of_bind_eq_ok hparse
            exact presentable_oidcExecution hmessage principal participantId
      | github headers body =>
          rcases hmay with h | ⟨d, writer', hparse, -, h⟩
          · cases h
          · obtain ⟨-, rfl⟩ := Effect.execute.inj h
            exact presentable_githubExecution hparse
      | navigationWrite participantId query' =>
          rcases hmay with h | ⟨write, writer', -, -, h | h⟩
          · cases h
          · cases h
          · cases h
      | authTotp body =>
          rcases hmay with h | ⟨participantId, code, now, h⟩
          · cases h
          · cases h
      | _ => cases hmay
  | access headers requestTarget route =>
      rcases hmay with h | ⟨caller, participantId, op, -, -, h⟩
      · cases h
      · cases h
  | admin headers route =>
      rcases hmay with h | ⟨admin, op, -, h⟩
      · cases h
      · cases h
  | whoami headers => cases hmay
  | authGuest => cases hmay
  | mcp headers body => exact htool hmay
  | stdio lines => exact htool hmay

end Adapters

/-! ## What is on record -/

/-- Deliveries and authority are recorded with all their texts. -/
structure RecordsInv (db : Database) : Prop where
  ingress : ∀ i ∈ db.ingress, ingressMetadataInvalid i = false
  provenance : ∀ a ∈ db.provenance, ∀ resource, a.resource = some resource →
    Text.isBlank resource = false

theorem recordsInv_initial : RecordsInv Database.initial :=
  ⟨fun _ h => absurd h (Table.not_mem_empty _), fun _ h => absurd h (Table.not_mem_empty _)⟩

/-- The authority for the intent is on record. -/
def Vouched (db : Database) (p : Pair) : Prop := ∃ a ∈ db.provenance, a.pair = p

theorem RecordsInv.audited_iff {db : Database} (h : RecordsInv db) (participantId intentId : String) :
    Audited db participantId intentId ↔ Vouched db (participantId, intentId) := by
  constructor
  · intro haud
    obtain ⟨a, ha, hpair, -⟩ := haud.authority
    exact ⟨a, ha, hpair⟩
  · intro hvouched
    obtain ⟨a, ha, hpair⟩ := hvouched
    exact ⟨⟨a, ha, hpair, h.provenance a ha⟩, fun i hi _ _ => h.ingress i hi⟩

section Executions

variable [Sha256] {now : Int} {identity : Identity} {request : MessageExecutionRequest}
  {db db' : Database} {m : Message}

theorem Accepted.recordsInv_ingress (h : Accepted now identity request db db') (hi : StoreInv db)
    (hp : request.Presentable) {receipt : ExecutionReceipt}
    (hing : IngressRecorded (ingressRow now request.ingress receipt) db.ingress db'.ingress)
    (hr : RecordsInv db) : ∀ i ∈ db'.ingress, ingressMetadataInvalid i = false := by
  intro i hmem
  rcases h.deliveries hi hp.ingress receipt hing i hmem with hold | hok
  · exact hr.ingress i hold
  · exact hok

theorem FirstExecuted.recordsInv (hf : FirstExecuted now identity request db m db')
    (h : StoreInv db) (hp : request.Presentable) (hr : RecordsInv db) : RecordsInv db' := by
  refine ⟨hf.toAccepted.recordsInv_ingress h hp hf.effects.ingress hr, fun a ha resource hres => ?_⟩
  rcases (hf.mem_provenance a).mp ha with hold | rfl
  · exact hr.provenance a hold resource hres
  · have hresource : request.intent.resource = request.channel :=
      hf.toAccepted.consistent.2.2.2.2.1
    obtain rfl := Option.some.inj hres
    rw [hresource]
    exact hp.channel

theorem Replayed.recordsInv (hr : Replayed now identity request db m db') (h : StoreInv db)
    (hp : request.Presentable) (hi : RecordsInv db) : RecordsInv db' := by
  refine ⟨hr.toAccepted.recordsInv_ingress h hp hr.ingress hi, ?_⟩
  rw [hr.frame]
  exact hi.provenance

/-- A first execution vouches for its intent. -/
theorem FirstExecuted.vouched (hf : FirstExecuted now identity request db m db') :
    Vouched db' (executionPair identity request) :=
  ⟨_, (hf.mem_provenance _).mpr (Or.inr rfl), hf.toAccepted.pair m.id⟩

end Executions

section Effects

variable [Sha256] [Hmac] [Base64Url]

theorem Effect.recordsInv (e : Effect) (w : World) (h : StoreInv w.db)
    (hp : ∀ writer request, e = .execute writer request → request.Presentable)
    (hr : RecordsInv w.db) : RecordsInv (e.apply w).db := by
  rcases e.cases_trail w with hq | ⟨_, _, _, -, hw⟩ | ⟨_, _, _, he, hf⟩ | ⟨_, _, _, he, hf⟩
  · refine ⟨?_, ?_⟩
    · rw [hq.ingress]
      exact hr.ingress
    · rw [hq.provenance]
      exact hr.provenance
  · rw [hw.frame]
    exact ⟨hr.ingress, hr.provenance⟩
  · exact hf.recordsInv h (hp _ _ he) hr
  · exact hf.recordsInv h (hp _ _ he) hr

/-- **An effect that reserves an intent** is an execution that vouches for it, or a navigation
write, which does not. -/
theorem Effect.reserves (e : Effect) (w : World) (h : StoreInv w.db) {p : Pair}
    (hfree : w.db.navigationWrites.find p = none)
    (hsome : ((e.apply w).db.navigationWrites.find p).isSome) :
    (∃ writer payload, e = .navigate writer payload ∧ ¬ Vouched (e.apply w).db p)
    ∨ (∃ writer request, e = .execute writer request) ∧ Vouched (e.apply w).db p := by
  have hsame : (e.apply w).db.navigationWrites = w.db.navigationWrites → False := by
    intro heq
    rw [heq, hfree] at hsome
    exact absurd hsome (by simp)
  rcases e.cases_trail w with hq | ⟨writer, payload, m, he, hw⟩ | ⟨writer, request, m, he, hf⟩
    | ⟨_, _, _, -, hr⟩
  · exact absurd hq.navigation hsame
  · refine Or.inl ⟨writer, payload, he, fun hvouched => ?_⟩
    -- authority on record before would have had a reservation
    obtain ⟨a, ha, hpair⟩ := hvouched
    rw [hw.frame] at ha
    obtain ⟨n, _, _, hacc⟩ := h.ledger.provenance a ha
    have hn := Table.find_of_mem hacc.navigation.1
    rw [show n.pair = p from hacc.navigation.2.1.trans hpair, hfree] at hn
    exact absurd hn (by simp)
  · refine Or.inr ⟨⟨writer, request, he⟩, ?_⟩
    have hpair : executionPair writer request = p := by
      by_contra hne
      rw [hf.navigation, if_neg hne, hfree] at hsome
      exact absurd hsome (by simp)
    rw [← hpair]
    exact hf.vouched
  · refine absurd ?_ hsame
    rw [hr.frame]

variable [JsonParser]

omit [Base64Url] in
/-- Only `GET /w` writes by navigation, and it does nothing but navigation. -/
theorem Runtime.Call.May.navigation {settings : Settings} {c : Runtime.Call} {e : Effect}
    (hmay : c.May settings e) :
    ((∃ writer payload, e = .navigate writer payload) →
      ∃ participantId query', c = .board (.navigationWrite participantId query'))
    ∧ ((∃ writer request, e = .execute writer request) →
      ¬ ∃ participantId query', c = .board (.navigationWrite participantId query')) := by
  refine ⟨fun hnavigate => ?_, fun hexecute hcall => ?_⟩
  · obtain ⟨writer, payload, rfl⟩ := hnavigate
    cases c with
    | board r =>
        obtain ⟨participantId, query', rfl⟩ := Request.May.origin hmay
        exact ⟨participantId, query', rfl⟩
    | access headers requestTarget route =>
        rcases hmay with h | ⟨caller, participantId, op, -, -, h⟩
        · cases h
        · cases h
    | admin headers route =>
        rcases hmay with h | ⟨admin, op, -, h⟩
        · cases h
        · cases h
    | whoami headers => cases hmay
    | authGuest => cases hmay
    | mcp headers body =>
        rcases hmay with h | ⟨arguments, w, writer', principal, -, -, h⟩
        · cases h
        · cases h
    | stdio lines =>
        rcases hmay with h | ⟨arguments, w, writer', principal, -, -, h⟩
        · cases h
        · cases h
  · obtain ⟨writer, request, rfl⟩ := hexecute
    obtain ⟨participantId, query', rfl⟩ := hcall
    rcases hmay with h | ⟨write, writer', -, -, h | h⟩
    · cases h
    · cases h
    · cases h

variable [Base64Standard] [Jwt] [Mcp.UrlParser]

/-! ## Runs -/

/-- At the event the intent is reserved. -/
def Reserves (p : Pair) (e : Runtime.CallEvent) : Prop :=
  e.before.store.db.navigationWrites.find p = none
    ∧ (e.after.store.db.navigationWrites.find p).isSome

/-- At the event a navigation write reserves the intent. -/
def ReservedByNavigation (p : Pair) (e : Runtime.CallEvent) : Prop :=
  Reserves p e
    ∧ ∃ participantId query', e.out = some (.board (.navigationWrite participantId query'))

/-- What the audits find in a store, told by the events that led to it. -/
structure AccusesNavigation (events : List Runtime.CallEvent) (db : Database) : Prop where
  /-- The sweep is clean as long as nobody has written by navigation. -/
  sweep : (sweepExecutionAuditIntegrity db).valid = true
    ↔ ∀ e ∈ events, ∀ p, ¬ ReservedByNavigation p e
  /-- An execution is, unless its intent had been written by navigation. -/
  execution : ∀ r ∈ db.receipts,
    (verifyExecutionAuditIntegrity db r.participantId r.intentId).valid = true
      ↔ ∀ e ∈ events, ¬ ReservedByNavigation r.pair e
  /-- Evidence that belongs to no execution is a navigation write's reservation. -/
  orphans : ∀ o ∈ (sweepExecutionAuditIntegrity db).orphanEvidence,
    o.kind = "orphan_navigation_reservation" ∧ ∃ participantId, o.participantId = some participantId
      ∧ ∃ e ∈ events, ReservedByNavigation (participantId, o.intentId) e

section Runs

variable {settings : Settings} {now : Int} {moves : List (Concurrent.Move Runtime.Call)}

/-- Receipts, reservations and authority on record stay. -/
theorem grows_to_end {w : World} {e : Runtime.CallEvent}
    (he : e ∈ Runtime.history settings w moves) :
    Grows e.after.store.db (Runtime.config settings w moves).store.db := by
  let R := fun c c' : Concurrent.Config Runtime.Call World Runtime.Reply =>
    Grows c.store.db c'.store.db
  exact Transition.rel_history_of_mem (R := R) (fun c => Grows.refl c.store.db)
    (fun h h' => h.trans h') (fun e he => event_grows he) he

omit [Sha256] [Hmac] [Base64Url] [JsonParser] [Base64Standard] [Jwt] [Mcp.UrlParser] in
theorem Grows.reserved {db db' : Database} (h : Grows db db') {p : Pair}
    (hp : (db.navigationWrites.find p).isSome) : (db'.navigationWrites.find p).isSome := by
  obtain ⟨n, hn⟩ := Option.isSome_iff_exists.mp hp
  have hmem := h.navigation n (Table.mem_of_find hn)
  have hpair : n.pair = p := Table.key_of_find hn
  rw [← hpair, Table.find_of_mem hmem]
  rfl

/-- An intent is reserved once. -/
theorem reserves_unique {w : World} {p : Pair} {e e' : Runtime.CallEvent}
    (he : e ∈ Runtime.history settings w moves) (he' : e' ∈ Runtime.history settings w moves)
    (h : Reserves p e) (h' : Reserves p e') : e = e' := by
  have horder := Concurrent.order_history (fun w : World => Grows.refl w.db)
    (fun h h' => h.trans h') (calls_grow settings) w moves
  have hpair : (Runtime.history settings w moves).Pairwise fun e e' =>
      Reserves p e → Reserves p e' → e = e' := by
    refine horder.imp fun {e e'} hgrows h h' => ?_
    -- what the first has reserved is not free for the second
    have hsome := hgrows.reserved h.2
    rw [h'.1] at hsome
    exact absurd hsome (by simp)
  have hsymm : Std.Symm fun e e' : Runtime.CallEvent => Reserves p e → Reserves p e' → e = e' :=
    ⟨fun _ _ hboth h' h => (hboth h h').symm⟩
  exact hpair.forall_of_forall (fun _ _ _ _ => rfl) he he' h h'

/-- The event that reserves an intent vouches for it, or it is a navigation write. -/
theorem vouched_of_reserves {e : Runtime.CallEvent}
    (he : e ∈ Runtime.history settings ⟨Database.initial, now⟩ moves) {p : Pair}
    (h : Reserves p e) : ReservedByNavigation p e ↔ ¬ Vouched e.after.store.db p := by
  have hinv := (booksInv_history settings now moves).1 e he
  rcases effect_of_event he with ⟨c, effect, hout, hmay, hstore⟩ | ⟨-, hstore⟩
  · have hsome := h.2
    rw [hstore] at hsome ⊢
    rcases effect.reserves e.before.store hinv.1.store h.1 hsome with
      ⟨writer, payload, heff, hno⟩ | ⟨hexecute, hvouched⟩
    · obtain ⟨participantId, query', rfl⟩ := hmay.navigation.1 ⟨writer, payload, heff⟩
      exact ⟨fun _ => hno, fun _ => ⟨h, participantId, query', hout⟩⟩
    · refine ⟨fun hnav => ?_, fun hno => absurd hvouched hno⟩
      obtain ⟨-, participantId, query', hout'⟩ := hnav
      obtain rfl := Option.some.inj (hout.symm.trans hout')
      exact absurd ⟨participantId, query', rfl⟩ (hmay.navigation.2 hexecute)
  · have hsome := h.2
    rw [hstore, h.1] at hsome
    exact absurd hsome (by simp)

/-- Authority comes on record with the reservation of its intent. -/
theorem reserves_of_vouched {e : Runtime.CallEvent}
    (he : e ∈ Runtime.history settings ⟨Database.initial, now⟩ moves) {p : Pair}
    (hno : ¬ Vouched e.before.store.db p) (h : Vouched e.after.store.db p) : Reserves p e := by
  rcases effect_of_event he with ⟨c, effect, -, -, hstore⟩ | ⟨-, hstore⟩
  swap
  · rw [hstore] at h
    exact absurd h hno
  have hsame : e.after.store.db.provenance = e.before.store.db.provenance → False := by
    intro heq
    refine hno ?_
    obtain ⟨a, ha, hpair⟩ := h
    rw [heq] at ha
    exact ⟨a, ha, hpair⟩
  rcases effect.cases_trail e.before.store with hq | ⟨_, _, _, -, hw⟩
    | ⟨writer, request, m, -, hf⟩ | ⟨_, _, _, -, hr⟩
  · refine absurd ?_ hsame
    rw [hstore, hq.provenance]
  · refine absurd ?_ hsame
    rw [hstore, hw.frame]
  · rw [← hstore] at hf
    obtain ⟨a, ha, hpair⟩ := h
    have hp : executionPair writer request = p := by
      rcases (hf.mem_provenance a).mp ha with hold | rfl
      · exact absurd ⟨a, hold, hpair⟩ hno
      · exact (hf.toAccepted.pair m.id).symm.trans hpair
    refine ⟨?_, ?_⟩
    · rw [← hp]
      exact hf.free
    · rw [hf.navigation, if_pos hp]
      rfl
  · refine absurd ?_ hsame
    rw [hstore, hr.frame]

/-- **A reserved intent has its authority on record unless a navigation write reserved it.** -/
theorem vouched_iff {p : Pair}
    (hp : ((Runtime.config settings ⟨Database.initial, now⟩ moves).store.db.navigationWrites.find
      p).isSome) :
    Vouched (Runtime.config settings ⟨Database.initial, now⟩ moves).store.db p
      ↔ ∀ e ∈ Runtime.history settings ⟨Database.initial, now⟩ moves,
        ¬ ReservedByNavigation p e := by
  constructor
  · intro hvouched e he hnav
    obtain ⟨e', he', hbefore, hafter⟩ := Transition.exists_event
      (P := fun c : Concurrent.Config Runtime.Call World Runtime.Reply => Vouched c.store.db p)
      (fun h => by obtain ⟨a, ha, -⟩ := h; exact Table.not_mem_empty _ ha) hvouched
    obtain rfl := reserves_unique he he' hnav.1 (reserves_of_vouched he' hbefore hafter)
    exact (vouched_of_reserves he hnav.1).mp hnav hafter
  · intro hno
    obtain ⟨e, he, hbefore, hafter⟩ := Transition.exists_event
      (P := fun c : Concurrent.Config Runtime.Call World Runtime.Reply =>
        (c.store.db.navigationWrites.find p).isSome)
      (fun h => by
        obtain ⟨n, hn⟩ := Option.isSome_iff_exists.mp h
        exact Table.not_mem_empty _ (Table.mem_of_find hn)) hp
    have hreserves : Reserves p e := ⟨by simpa using hbefore, hafter⟩
    have hvouched : Vouched e.after.store.db p := by
      by_contra hcontra
      exact hno e he ((vouched_of_reserves he hreserves).mpr hcontra)
    obtain ⟨a, ha, hpair⟩ := hvouched
    exact ⟨a, (grows_to_end he).provenance a ha, hpair⟩

theorem recordsInv_config (settings : Settings) (now : Int)
    (moves : List (Concurrent.Move Runtime.Call)) :
    RecordsInv (Runtime.config settings ⟨Database.initial, now⟩ moves).store.db := by
  have hkept : ∀ c e w, Runtime.Call.May settings c e → StoreInv w.db ∧ RecordsInv w.db →
      StoreInv (e.apply w).db ∧ RecordsInv (e.apply w).db := by
    intro c e w hmay h
    refine ⟨e.storeInv w h.1, e.recordsInv w h.1 (fun writer request he => ?_) h.2⟩
    subst he
    exact hmay.presentable
  have hstart : StoreInv Database.initial ∧ RecordsInv Database.initial :=
    ⟨storeInv_initial, recordsInv_initial⟩
  have hboth : StoreInv (Runtime.config settings ⟨Database.initial, now⟩ moves).store.db
      ∧ RecordsInv (Runtime.config settings ⟨Database.initial, now⟩ moves).store.db :=
    (store_inv (I := fun db => StoreInv db ∧ RecordsInv db) hstart hkept).2
  exact hboth.2

end Runs

/-- **The server's audits find fault with navigation writes and with nothing else**, whatever calls
arrive and however their transactions interleave. -/
theorem audits_accuse_navigation (settings : Settings) (now : Int)
    (moves : List (Concurrent.Move Runtime.Call)) :
    AccusesNavigation (Runtime.history settings ⟨Database.initial, now⟩ moves)
      (Runtime.config settings ⟨Database.initial, now⟩ moves).store.db := by
  have hrecords := recordsInv_config settings now moves
  have hstore := (booksInv_history settings now moves).2.store
  generalize hdb : (Runtime.config settings ⟨Database.initial, now⟩ moves).store.db = db
    at hrecords hstore ⊢
  have hreserved : ∀ n ∈ db.navigationWrites, (db.navigationWrites.find n.pair).isSome := by
    intro n hn
    rw [Table.find_of_mem hn]
    rfl
  have hvouched : ∀ p, (db.navigationWrites.find p).isSome →
      (Vouched db p ↔ ∀ e ∈ Runtime.history settings ⟨Database.initial, now⟩ moves,
        ¬ ReservedByNavigation p e) := by
    rw [← hdb]
    exact fun p hp => vouched_iff hp
  have hvalid : ∀ r ∈ db.receipts,
      ((verifyExecutionAuditIntegrity db r.participantId r.intentId).valid = true
        ↔ Vouched db r.pair) :=
    fun r hr => (valid_iff_audited hstore hr).trans (hrecords.audited_iff _ _)
  have hreceipt : ∀ r ∈ db.receipts, (db.navigationWrites.find r.pair).isSome := by
    intro r hr
    obtain ⟨-, -, ⟨n, hn, hpair, -⟩, -⟩ := hstore.ledger.receipts r hr
    rw [← hpair]
    exact hreserved n hn
  refine ⟨⟨fun hclean e he p hnav => ?_, fun hno => ?_⟩, fun r hr => ?_, fun o ho => ?_⟩
  · -- the reservation has a receipt, and the receipt its authority
    have hp : (db.navigationWrites.find p).isSome := by
      rw [← hdb]
      exact (grows_to_end he).reserved hnav.1.2
    obtain ⟨n, hn⟩ := Option.isSome_iff_exists.mp hp
    have haccounted := sweep_valid_iff.mp hclean
    obtain ⟨r, hr, hpair⟩ := haccounted.navigation n (Table.mem_of_find hn)
    have hv := (hvalid r hr).mp (haccounted.receipts r hr)
    rw [hpair, show n.pair = p from Table.key_of_find hn] at hv
    exact (hvouched p hp).mp hv e he hnav
  · refine (sweep_clean hstore (fun r hr => ?_) fun n hn => ?_).1
    · exact (hrecords.audited_iff _ _).mpr
        ((hvouched r.pair (hreceipt r hr)).mpr fun e he => hno e he r.pair)
    · exact (hvouched n.pair (hreserved n hn)).mpr fun e he => hno e he n.pair
  · exact (hvalid r hr).trans (hvouched r.pair (hreceipt r hr))
  · rw [orphanEvidence_eq, mem_orderBy] at ho
    obtain ⟨row, hoffence⟩ := mem_orphans.mp ho
    cases hoffence with
    | provenance hmem horphan =>
        obtain ⟨n, r, m, hacc⟩ := hstore.ledger.provenance _ hmem
        exact absurd hacc.receipt.2.1 (horphan r hacc.receipt.1)
    | unbound hmem hunbound =>
        obtain ⟨-, p, hp, hblank, -⟩ := hstore.ledger.ingress _ hmem
        rw [hunbound p hp] at hblank
        exact absurd hblank (by simp)
    | ingress hmem hbound hblank horphan =>
        obtain ⟨-, p, hp, -, r, hr, hpair⟩ := hstore.ledger.ingress _ hmem
        obtain rfl := Option.some.inj (hbound.symm.trans hp)
        exact absurd hpair (horphan r hr)
    | navigation hmem horphan =>
        rename_i n
        refine ⟨rfl, n.inst, rfl, ?_⟩
        by_contra hno
        -- with its authority on record the reservation would have a receipt
        obtain ⟨a, ha, hpair⟩ := (hvouched n.pair (hreserved n hmem)).mpr
          fun e he hnav => hno ⟨e, he, hnav⟩
        obtain ⟨_, r, _, hacc⟩ := hstore.ledger.provenance a ha
        exact horphan r hacc.receipt.1 (hacc.receipt.2.1.trans hpair)

end Effects

end Blackboard
