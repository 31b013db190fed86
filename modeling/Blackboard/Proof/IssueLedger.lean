import Blackboard.Proof.Effects
import Blackboard.Proof.Parsing

/-!
# One issue, one message

The delivery id of an issue is the issue. Whatever its author changes, the delivery that
creates the issue's message records it under this id together with its participant and its
intent, and the record stays. A later delivery of the same participant and intent finds the
intent reserved; any other does not match the record, and its transaction, message and all,
is undone.
-/

namespace Blackboard

open Relational (Table)
open Concurrent (Program answer)

/-! ## Deliveries -/

namespace GithubWebhook

/-- A delivery that is not accepted reports no message. -/
theorem reported_of_rejected (d : IssueDelivery) {result : Except SqlError MessageExecutionResult}
    (h : ∀ m, result ≠ .ok (.created m) ∧ result ≠ .ok (.existing m)) :
    (response d result).reported = none := by
  cases result with
  | error e => cases e <;> rfl
  | ok result =>
      cases result with
      | created m => exact absurd rfl (h m).1
      | existing m => exact absurd rfl (h m).2
      | _ => rfl

end GithubWebhook

/-! ## Transactions of a delivery -/

section Server

variable [Sha256] [Hmac] [Base64Url] [JsonParser] [Jwt]

/-- What a transaction of a delivery does and what is reported after it: nothing, or the issue's
message was created, or it was found. -/
def IssueTransaction (settings : Settings) (headers : Headers) (body : Bytes) (w w' : World)
    (a : Option Response) : Prop :=
  w' = w ∧ a.bind Response.reported = none
  ∨ ∃ d writer m, GithubWebhook.parseDelivery settings.github headers body = .ok d
      ∧ (a.bind Response.reported = some (false, m.id)
          ∧ FirstExecuted w.now writer (GithubWebhook.execution d) w.db m w'.db
        ∨ a.bind Response.reported = some (true, m.id)
          ∧ Replayed w.now writer (GithubWebhook.execution d) w.db m w'.db)

omit [Base64Url] [Jwt] in
theorem transacts_githubIssueWebhook (settings : Settings) (headers : Headers) (body : Bytes) :
    (GithubWebhook.githubIssueWebhook settings.github headers body).Transacts
      (IssueTransaction settings headers body) := by
  unfold GithubWebhook.githubIssueWebhook
  cases hparse : GithubWebhook.parseDelivery settings.github headers body with
  | error e => trivial
  | ok d =>
      intro w
      dsimp only
      cases getWebParticipant w.db d.participantId with
      | none => exact ⟨Or.inl ⟨rfl, rfl⟩, trivial⟩
      | some writer =>
          refine ⟨Or.inl ⟨rfl, rfl⟩, fun w => ⟨?_, trivial⟩⟩
          let result := (executeMessageIntent w.now writer (GithubWebhook.execution d) w.db).1
          rcases executeMessageIntent_cases w.now writer (GithubWebhook.execution d) w.db with
            ⟨m, hresult, hf⟩ | ⟨m, hresult, hr⟩ | ⟨hsame, hno⟩
          · have hcreated : (GithubWebhook.response d result).reported = some (false, m.id) := by
              simp only [result, hresult]
              rfl
            exact Or.inr ⟨d, writer, m, hparse, Or.inl ⟨hcreated, hf⟩⟩
          · have hfound : (GithubWebhook.response d result).reported = some (true, m.id) := by
              simp only [result, hresult]
              rfl
            exact Or.inr ⟨d, writer, m, hparse, Or.inr ⟨hfound, hr⟩⟩
          · have hnone := GithubWebhook.reported_of_rejected d hno
            refine Or.inl ⟨?_, hnone⟩
            show ({ w with
              db := (executeMessageIntent w.now writer (GithubWebhook.execution d) w.db).2 } : World)
                = w
            rw [hsame]

/-! ## Deliveries of one issue -/

/-- A delivery of this issue of this repository. -/
structure DeliveryOf (settings : Settings) (repositoryId : Nat) (number : Int) (headers : Headers)
    (body : Bytes) (d : GithubWebhook.IssueDelivery) : Prop where
  parsed : GithubWebhook.parseDelivery settings.github headers body = .ok d
  issue : ∃ event, (JsonParser.parse body).bind GithubWebhook.parseEvent = some event
    ∧ event.repositoryId = repositoryId ∧ event.issue.number = number

/-- The event executes a transaction of a delivery of this issue. -/
def Delivers (settings : Settings) (repositoryId : Nat) (number : Int) (e : ServerEvent)
    (d : GithubWebhook.IssueDelivery) : Prop :=
  ∃ headers body, e.out = some (.github headers body)
    ∧ DeliveryOf settings repositoryId number headers body d

/-- What a delivery reports at an event: whether the issue's message was there before, and its
id. -/
def reported (e : ServerEvent) : Option (Bool × Int) := (answer e).bind Response.reported

/-- The event creates the message of this issue. -/
def CreatesMessageOf (settings : Settings) (repositoryId : Nat) (number : Int) (e : ServerEvent) :
    Prop :=
  ∃ d id, Delivers settings repositoryId number e d ∧ reported e = some (false, id)

omit [Sha256] [Base64Url] [Jwt] in
theorem DeliveryOf.deliveryId {settings : Settings} {repositoryId : Nat} {number : Int}
    {headers : Headers} {body : Bytes} {d : GithubWebhook.IssueDelivery}
    (h : DeliveryOf settings repositoryId number headers body d) :
    d.deliveryId = githubDeliveryId repositoryId number := by
  obtain ⟨event, hevent, rfl, rfl⟩ := h.issue
  exact GithubWebhook.parseDelivery_deliveryId h.parsed hevent

section Run

variable {settings : Settings} {w : World} {moves : List Move} {e : ServerEvent}
  {d : GithubWebhook.IssueDelivery} {repositoryId : Nat} {number : Int}

/-- **What an event of a delivery does.** -/
theorem delivery_cases (he : e ∈ serverHistory settings w moves)
    (hd : Delivers settings repositoryId number e d) :
    e.after.store = e.before.store ∧ reported e = none
    ∨ ∃ writer m,
        reported e = some (false, m.id)
          ∧ FirstExecuted e.before.store.now writer (GithubWebhook.execution d) e.before.store.db m
            e.after.store.db
        ∨ reported e = some (true, m.id)
          ∧ Replayed e.before.store.now writer (GithubWebhook.execution d) e.before.store.db m
            e.after.store.db := by
  let R := fun (r : Request) (w w' : World) (a : Option Response) =>
    ∀ headers body, r = .github headers body → IssueTransaction settings headers body w w' a
  have hall : ∀ r, (serve settings r).Transacts (R r) := by
    intro r
    by_cases hgithub : ∃ headers body, r = .github headers body
    · obtain ⟨headers, body, rfl⟩ := hgithub
      refine (transacts_githubIssueWebhook settings headers body).mono fun w w' a h => ?_
      intro headers' body' heq
      obtain ⟨rfl, rfl⟩ := Request.github.inj heq
      exact h
    · refine Program.transacts_of_forall (fun w w' a headers body heq => ?_) _
      exact absurd ⟨headers, body, heq⟩ hgithub
  obtain ⟨headers, body, hout, hof⟩ := hd
  rcases Concurrent.transacts_history hall he with ⟨r, hr, h⟩ | ⟨hnone, -, -⟩
  · rw [hout, Option.some.injEq] at hr
    rcases h headers body hr.symm with hsame | ⟨d', writer, m, hparse, h⟩
    · exact Or.inl hsame
    · obtain rfl := Except.ok.inj (hof.parsed.symm.trans hparse)
      exact Or.inr ⟨writer, m, h⟩
  · rw [hout] at hnone
    exact absurd hnone (by simp)

/-- An accepted delivery is on record. -/
theorem recorded_of_reported (he : e ∈ serverHistory settings w moves)
    (hd : Delivers settings repositoryId number e d) (hr : reported e ≠ none) :
    ∃ i ∈ e.after.store.db.ingress, i.deliveryId = githubDeliveryId repositoryId number
      ∧ i.participantId = some d.participantId ∧ i.intentId = d.nonce := by
  have hid : d.deliveryId = githubDeliveryId repositoryId number := by
    obtain ⟨headers, body, -, hof⟩ := hd
    exact hof.deliveryId
  have key : ∀ messageId, IngressRecorded (ingressRow e.before.store.now
      (GithubWebhook.execution d).ingress (executionReceipt (GithubWebhook.execution d) messageId))
        e.before.store.db.ingress e.after.store.db.ingress →
      ∃ i ∈ e.after.store.db.ingress, i.deliveryId = githubDeliveryId repositoryId number
        ∧ i.participantId = some d.participantId ∧ i.intentId = d.nonce := by
    intro messageId h
    obtain ⟨i, hi, hkey, hsame⟩ := h.present
    exact ⟨i, hi, hkey.trans hid, hsame.1, hsame.2.1⟩
  rcases delivery_cases he hd with ⟨-, hnone⟩ | ⟨writer, m, ⟨-, hf⟩ | ⟨-, hrep⟩⟩
  · exact absurd hnone hr
  · exact key _ hf.effects.ingress
  · exact key _ hrep.ingress

/-- An accepted delivery is the one on record, if the issue has one. -/
theorem matches_record (he : e ∈ serverHistory settings w moves)
    (hd : Delivers settings repositoryId number e d) (hr : reported e ≠ none) {i : Ingress}
    (hi : i ∈ e.before.store.db.ingress) (hid : i.deliveryId = githubDeliveryId repositoryId number) :
    i.participantId = some d.participantId ∧ i.intentId = d.nonce := by
  obtain ⟨i', hi', hid', hp, hn⟩ := recorded_of_reported he hd hr
  have hkept : i ∈ e.after.store.db.ingress := by
    rcases delivery_cases he hd with ⟨-, hnone⟩ | ⟨writer, m, ⟨-, hf⟩ | ⟨-, hrep⟩⟩
    · exact absurd hnone hr
    · exact hf.effects.ingress.kept i hi
    · exact hrep.ingress.kept i hi
  have heq : i = i' := Table.eq_of_key hkept hi' (hid.trans hid'.symm)
  rw [heq]
  exact ⟨hp, hn⟩

/-- What an accepted delivery leaves: a later one is accepted only for the same participant and
intent. -/
theorem same_of_kept {e' : ServerEvent} {d' : GithubWebhook.IssueDelivery}
    (he : e ∈ serverHistory settings w moves) (he' : e' ∈ serverHistory settings w moves)
    (hd : Delivers settings repositoryId number e d)
    (hd' : Delivers settings repositoryId number e' d')
    (hkept : RecordsKept e.after.store e'.before.store) (hr : reported e ≠ none)
    (hr' : reported e' ≠ none) : d'.participantId = d.participantId ∧ d'.nonce = d.nonce := by
  obtain ⟨i, hi, hid, hp, hn⟩ := recorded_of_reported he hd hr
  obtain ⟨hp', hn'⟩ := matches_record he' hd' hr' (hkept.ingress i hi) hid
  exact ⟨Option.some.inj (hp'.symm.trans hp), hn'.symm.trans hn⟩

omit [Hmac] [Base64Url] [JsonParser] [Jwt] in
/-- The pair a delivery reserves. -/
theorem executionPair_delivery {writer : Identity} {now : Int} {db db' : Database}
    (h : Accepted now writer (GithubWebhook.execution d) db db') :
    executionPair writer (GithubWebhook.execution d) = (d.participantId, d.nonce) := by
  have hinst : writer.inst = d.participantId := h.consistent.2.2.1
  unfold executionPair
  rw [hinst]
  rfl

end Run

/-! ## Elsewhere -/

omit [Sha256] [Hmac] [Base64Url] [JsonParser] [Jwt] in
/-- An id that starts with another letter is no issue's. -/
theorem githubDeliveryId_ne {scheme rest : String} (h : scheme.toList.head?.any (· ≠ 'g') = true)
    (repositoryId : Nat) (number : Int) :
    githubDeliveryId repositoryId number ≠ scheme ++ rest := by
  intro heq
  have hhead : (githubDeliveryId repositoryId number).toList.head? = some 'g' := by
    simp [githubDeliveryId]
  rw [heq, String.toList_append] at hhead
  cases hs : scheme.toList with
  | nil =>
      rw [hs] at h
      exact absurd h (by simp)
  | cons c cs =>
      rw [hs] at h hhead
      have hc : c = 'g' := by simpa using hhead
      rw [hc] at h
      exact absurd h (by simp)

omit [Base64Url] [Jwt] in
/-- The deliveries of other transports have names of their own. -/
theorem githubDeliveryId_ne_of_may {settings : Settings} {r : Request}
    (hr : ∀ headers body, r ≠ .github headers body) {writer : Identity}
    {request : MessageExecutionRequest} (hmay : r.May settings (.execute writer request))
    (repositoryId : Nat) (number : Int) :
    githubDeliveryId repositoryId number ≠ request.ingress.deliveryId := by
  have hscheme : ∀ scheme : String, scheme.toList.head?.any (· ≠ 'g') = true → ∀ name nonce,
      githubDeliveryId repositoryId number ≠ scheme ++ name ++ ":" ++ nonce := by
    intro scheme h name nonce
    rw [String.append_assoc, String.append_assoc]
    exact githubDeliveryId_ne h repositoryId number
  cases r with
  | github headers body => exact absurd rfl (hr headers body)
  | postMessage headers body =>
      rcases hmay with h | ⟨object, -, (h | ⟨write, writer', -, -, h | h⟩)
        | (h | ⟨identity, fields, -, h | h⟩)⟩
      · exact Effect.noConfusion h
      · exact Effect.noConfusion h
      · exact Effect.noConfusion h
      · obtain ⟨-, rfl⟩ := Effect.execute.inj h
        exact hscheme "rest-hmac:" (by decide) _ _
      · exact Effect.noConfusion h
      · exact Effect.noConfusion h
      · exact Effect.noConfusion h
  | mcp headers tool arguments =>
      rcases hmay with h | ⟨write, writer', principal, -, -, h⟩
      · exact Effect.noConfusion h
      · obtain ⟨-, rfl⟩ := Effect.execute.inj h
        cases principal with
        | some principal => exact hscheme "mcp-bearer:" (by decide) _ _
        | none => exact hscheme "mcp-hmac:" (by decide) _ _
  | oidc participantId headers body =>
      rcases hmay with h | ⟨fields, intentId, participantId, principal, writer', -, -, h⟩
      · exact Effect.noConfusion h
      · obtain ⟨-, rfl⟩ := Effect.execute.inj h
        have hname := hscheme "oidc:" (by decide)
          (principal.subject ++ ":" ++ participantId) intentId
        simp only [String.append_assoc] at hname
        show githubDeliveryId repositoryId number
          ≠ "oidc:" ++ principal.subject ++ ":" ++ participantId ++ ":" ++ intentId
        simp only [String.append_assoc]
        exact hname
  | navigationWrite participantId query =>
      rcases hmay with h | ⟨write, writer', -, -, h | h⟩
      · exact Effect.noConfusion h
      · exact Effect.noConfusion h
      · exact Effect.noConfusion h
  | authTotp body =>
      rcases hmay with h | ⟨participantId, code, now, h⟩
      · exact Effect.noConfusion h
      · exact Effect.noConfusion h
  | navigationRead channel query => exact Effect.noConfusion hmay
  | messages headers requestTarget query => exact Effect.noConfusion hmay
  | channels headers requestTarget query => exact Effect.noConfusion hmay
  | messageWindow headers requestTarget q => exact Effect.noConfusion hmay
  | grant op => exact Effect.noConfusion hmay
  | participant op => exact Effect.noConfusion hmay
  | channel op => exact Effect.noConfusion hmay
  | credential op => exact Effect.noConfusion hmay
  | tick now => exact Effect.noConfusion hmay

omit [Jwt] in
theorem find_ingress_of_may {settings : Settings} {r : Request}
    (hr : ∀ headers body, r ≠ .github headers body) {effect : Effect}
    (hmay : r.May settings effect) (w : World) (repositoryId : Nat) (number : Int) :
    (effect.apply w).db.ingress.find (githubDeliveryId repositoryId number)
      = w.db.ingress.find (githubDeliveryId repositoryId number) := by
  rcases effect.cases_ledger w with
    hsame | ⟨identity, fields, rfl⟩ | ⟨writer, payload, m, rfl, hw, -⟩
      | ⟨writer, request, m, rfl, hf⟩ | ⟨writer, request, m, rfl, hrep⟩
  · rw [hsame.ingress]
  · rfl
  · rw [hw.frame]
  · exact hf.effects.ingress.find_of_ne
      (githubDeliveryId_ne_of_may hr hmay repositoryId number).symm
  · exact hrep.ingress.find_of_ne (githubDeliveryId_ne_of_may hr hmay repositoryId number).symm

/-! ## The ledger of issues -/

/-- What the deliveries of issues leave over a run of the server. -/
structure IssueLedger (settings : Settings) (events : List ServerEvent) : Prop where
  /-- A delivery appends the message it reports to have created and no other. -/
  appends : ∀ e ∈ events, ∀ repositoryId number d, Delivers settings repositoryId number e d →
    (∃ m, reported e = some (false, m.id)
      ∧ e.after.store.db.messages.rows = e.before.store.db.messages.rows ++ [m])
    ∨ (∀ id, reported e ≠ some (false, id))
      ∧ e.after.store.db.messages = e.before.store.db.messages
  /-- An issue is the ingress of at most one created message. -/
  once : ∀ repositoryId number, events.Pairwise fun e e' =>
    CreatesMessageOf settings repositoryId number e →
      ¬ CreatesMessageOf settings repositoryId number e'
  /-- After an accepted delivery, one for another participant or intent changes nothing. -/
  settled : ∀ repositoryId number, events.Pairwise fun e e' =>
    ∀ d d', Delivers settings repositoryId number e d → Delivers settings repositoryId number e' d' →
      reported e ≠ none → (d'.participantId ≠ d.participantId ∨ d'.nonce ≠ d.nonce) →
      e'.after.store.db = e'.before.store.db
  /-- No other request is recorded as the delivery of an issue. -/
  elsewhere : ∀ e ∈ events, (∀ headers body, e.out ≠ some (.github headers body)) →
    ∀ repositoryId number,
      e.after.store.db.ingress.find (githubDeliveryId repositoryId number)
        = e.before.store.db.ingress.find (githubDeliveryId repositoryId number)

end Server

end Blackboard
