import Blackboard.Proof.Admission
import Blackboard.Proof.Requests

/-!
# What a rejected write leaves behind

`GET /w` and a signed `POST /api/messages` make sure of the channel in a statement of its
own, before the transaction that may still turn the write down. A write to a channel that
exists leaves nothing behind when it is rejected; one that names a new channel leaves the
channel, unless it is accepted.
-/

namespace Blackboard

open Relational (Table)
open Concurrent (Program)

/-- `StatusCode::is_success`. -/
def Response.isSuccess (r : Response) : Bool := decide (200 ≤ r.status ∧ r.status < 300)

/-- If the request is rejected, the database is as it was. -/
def LeavesNoTrace (p : Program World Response) (w : World) : Prop :=
  (p.run w).1.isSuccess = false → (p.run w).2.db = w.db

theorem LeavesNoTrace.done (r : Response) (w : World) : LeavesNoTrace (.done r) w := fun _ => rfl

theorem leavesNoTrace_congr {p q : Program World Response} {w : World} (h : p.run w = q.run w) :
    LeavesNoTrace p w ↔ LeavesNoTrace q w := by
  unfold LeavesNoTrace
  rw [h]

/-! ## A channel, then a transaction -/

section Core

variable {α : Type} {channel : String} {createdBy : Option String}
  {op : Int → Database → Except SqlError α × Database} {reply : Except SqlError α → Response}
  {archived : Response} {w : World} {admitted : Prop}

/-- What both routes do with a write whose proof is good. -/
def ensureThen (channel : String) (createdBy : Option String)
    (op : Int → Database → Except SqlError α × Database) (reply : Except SqlError α → Response)
    (archived : Response) : Program World Response := do
  if ← ensureChannelForWrite channel createdBy then
    let result ← statement op
    return reply result
  else return archived

theorem run_ensureThen :
    (ensureThen channel createdBy op reply archived).run w
      = if channelIsActive (ensureChannel w.now channel createdBy w.db) channel then
          (reply (op w.now (ensureChannel w.now channel createdBy w.db)).1,
            { w with db := (op w.now (ensureChannel w.now channel createdBy w.db)).2 })
        else (archived, { w with db := ensureChannel w.now channel createdBy w.db }) := by
  unfold ensureThen ensureChannelForWrite
  simp only [Program.run_bind, run_statement, run_query]
  split
  · rfl
  · rfl

/-- Only the channel is left behind: if there was none, and the transaction was not accepted. -/
theorem leavesNoTrace_ensureThen
    (hrejected : ∀ db, (reply (op w.now db).1).isSuccess = false → (op w.now db).2 = db)
    (haccepted : channelIsActive (ensureChannel w.now channel createdBy w.db) channel = true →
      ((reply (op w.now (ensureChannel w.now channel createdBy w.db)).1).isSuccess = true
        ↔ admitted)) :
    LeavesNoTrace (ensureThen channel createdBy op reply archived) w
      ↔ (w.db.channels.find channel).isSome ∨ admitted := by
  unfold LeavesNoTrace
  rw [run_ensureThen]
  cases hchannel : w.db.channels.find channel with
  | some row =>
      rw [ensureChannel_of_some hchannel]
      refine iff_of_true ?_ (Or.inl rfl)
      by_cases hactive : channelIsActive w.db channel = true
      · rw [if_pos hactive]
        exact hrejected w.db
      · rw [if_neg hactive]
        exact fun _ => rfl
  | none =>
      have hactive : channelIsActive (ensureChannel w.now channel createdBy w.db) channel = true :=
        channelIsActive_ensureChannel_of_none hchannel
      rw [if_pos hactive]
      have hiff := haccepted hactive
      by_cases hadm : admitted
      · refine iff_of_true (fun hno => ?_) (Or.inr hadm)
        rw [hiff.mpr hadm] at hno
        exact absurd hno (by simp)
      · have hno : (reply (op w.now (ensureChannel w.now channel createdBy w.db)).1).isSuccess
            = false := by
          rw [← Bool.not_eq_true]
          exact fun h => hadm (hiff.mp h)
        refine iff_of_false (fun hsame => ?_) (by simp [hadm])
        -- the transaction was undone, the channel stays
        have hdb : ensureChannel w.now channel createdBy w.db = w.db :=
          (hrejected _ hno).symm.trans (hsame hno)
        have hsome := find_ensureChannel_isSome w.now channel createdBy w.db
        rw [hdb, hchannel] at hsome
        exact absurd hsome (by simp)

end Core

section Writes

/-! ## The two transactions -/

theorem isSuccess_navigationResponse (now : Int) (identity : Identity)
    (input : NavigationMessageInput) (db : Database) :
    (Http.navigationResponse (appendNavigationMessage now identity input db).1).isSuccess = true
      ↔ NavigationAccepted now identity input db := by
  unfold NavigationAccepted
  rcases (appendNavigationMessage now identity input db).1 with e | result
  · exact iff_of_false Bool.false_ne_true (by simp)
  · cases result with
    | created m => exact iff_of_true rfl ⟨m, Or.inl rfl⟩
    | existing m => exact iff_of_true rfl ⟨m, Or.inr rfl⟩
    | nonceConflict => exact iff_of_false Bool.false_ne_true (by simp)
    | replyTargetNotFound => exact iff_of_false Bool.false_ne_true (by simp)

variable [Sha256]

theorem isSuccess_signedResponse (now : Int) (identity : Identity)
    (request : MessageExecutionRequest) (db : Database) :
    (Http.signedResponse (executeMessageIntent now identity request db).1).isSuccess = true
      ↔ ExecutionAccepted now identity request db := by
  unfold ExecutionAccepted
  rcases (executeMessageIntent now identity request db).1 with e | result
  · exact iff_of_false Bool.false_ne_true (by simp)
  · cases result with
    | created m => exact iff_of_true rfl ⟨m, Or.inl rfl⟩
    | existing m => exact iff_of_true rfl ⟨m, Or.inr rfl⟩
    | intentConflict => exact iff_of_false Bool.false_ne_true (by simp)
    | replyTargetNotFound => exact iff_of_false Bool.false_ne_true (by simp)
    | channelArchived => exact iff_of_false Bool.false_ne_true (by simp)
    | authorizationDenied => exact iff_of_false Bool.false_ne_true (by simp)

theorem leavesNoTrace_navigation (write : Http.SignedWrite) (writer : Identity) (w : World) :
    LeavesNoTrace (ensureThen write.payload.channel (some writer.inst)
        (fun now db => appendNavigationMessage now writer write.payload.navigationInput db)
        Http.navigationResponse (ApiError.response ⟨409, "channel_archived"⟩)) w
      ↔ (w.db.channels.find write.payload.channel).isSome
        ∨ NavigationAdmitted writer write.payload.navigationInput w.db := by
  refine leavesNoTrace_ensureThen (fun db hno => ?_) fun _ => ?_
  · rcases appendNavigationMessage_cases w.now writer write.payload.navigationInput db with
      ⟨m, hout, -⟩ | ⟨-, -, -, hdb⟩ | ⟨hdb, -⟩
    · rw [hout] at hno
      exact absurd hno (by simp [Http.navigationResponse, Response.isSuccess])
    · exact hdb
    · exact hdb
  · rw [isSuccess_navigationResponse, navigationAccepted_iff, navigationAdmitted_ensureChannel]

variable [Hmac] [Base64Url]

theorem requestConsistent_signedExecution {db : Database} {write : Http.SignedWrite}
    {writer : Identity} (h : Http.signedWriter db write = some writer) :
    requestConsistent writer (Http.signedExecution write.payload) :=
  ⟨rfl, rfl, signedWriter_inst h, rfl, rfl, rfl⟩

theorem leavesNoTrace_signed {write : Http.SignedWrite} {writer : Identity} {w : World}
    (hwriter : Http.signedWriter w.db write = some writer) :
    LeavesNoTrace (ensureThen write.payload.channel (some writer.inst)
        (fun now db => executeMessageIntent now writer (Http.signedExecution write.payload) db)
        Http.signedResponse (ApiError.response ⟨409, "channel_archived"⟩)) w
      ↔ (w.db.channels.find write.payload.channel).isSome
        ∨ ExecutionAdmitted w.now writer (Http.signedExecution write.payload) w.db := by
  refine leavesNoTrace_ensureThen (fun db hno => ?_) fun hactive => ?_
  · rcases executeMessageIntent_cases w.now writer (Http.signedExecution write.payload) db with
      ⟨m, hout, -⟩ | ⟨m, hout, -⟩ | ⟨hdb, -⟩
    · rw [hout] at hno
      exact absurd hno (by simp [Http.signedResponse, Response.isSuccess])
    · rw [hout] at hno
      exact absurd hno (by simp [Http.signedResponse, Response.isSuccess])
    · exact hdb
  · have hactive' : channelIsActive (ensureChannel w.now (Http.signedExecution write.payload).channel
        (some writer.inst) (ensureChannel w.now write.payload.channel (some writer.inst) w.db))
        (Http.signedExecution write.payload).channel = true := by
      have hchannel : (Http.signedExecution write.payload).channel = write.payload.channel := rfl
      rw [hchannel, ensureChannel_ensureChannel]
      exact hactive
    rw [isSuccess_signedResponse,
      executionAccepted_iff (requestConsistent_signedExecution hwriter) hactive',
      executionAdmitted_ensureChannel]

/-! ## The two routes -/

variable [JsonParser]

/-- A request of one of the two routes. A POST is a signed one if its body says so. -/
inductive WriteRequest where
  | navigation (participantId : String) (query : Http.Query)
  | signedPost (headers : Headers) (body : Bytes) (object : Json.Object)
      (parsed : Http.readJsonObject body = .ok object) (signed : Http.isSigned object = true)

namespace WriteRequest

/-- What the server, with this session key, does with it. -/
def program (key : Bytes) : WriteRequest → Program World Response
  | navigation participantId query => Http.navigationWrite participantId query
  | signedPost headers body _ _ _ => Http.postMessage key headers body

/-- The signed write it asks for, if it is well formed and no guest asks. -/
def write (key : Bytes) (now : Int) : WriteRequest → Option Http.SignedWrite
  | navigation participantId query => (Http.parseNavigationWrite participantId query).toOption
  | signedPost headers _ object _ _ =>
      if (sessionAt key headers now).any fun session => decide (session.sessionType = .guest) then
        none
      else if object.containsKey "source" ∨ object.containsKey "instance" then none
      else (Http.parseSignedMessage object).toOption

/-- The tables admit the write. -/
def Admitted (now : Int) (db : Database) (writer : Identity) (payload : Http.WritePayload) :
    WriteRequest → Prop
  | navigation _ _ => NavigationAdmitted writer payload.navigationInput db
  | signedPost .. => ExecutionAdmitted now writer (Http.signedExecution payload) db

end WriteRequest

theorem run_postMessage_signed {key : Bytes} {headers : Headers} {body : Bytes}
    {object : Json.Object} (parsed : Http.readJsonObject body = .ok object)
    (signed : Http.isSigned object = true) (w : World) :
    (Http.postMessage key headers body).run w
      = if (sessionAt key headers w.now).any fun session =>
            decide (session.sessionType = .guest) then (ApiError.forbidden.response, w)
        else if object.containsKey "source" ∨ object.containsKey "instance" then
          ((ApiError.badRequest "identity_is_server_resolved").response, w)
        else (Http.postSignedMessage object).run w := by
  unfold Http.postMessage
  rw [Program.run_bind, run_verifiedWebSession]
  dsimp only
  split
  · rfl
  · rw [parsed]
    dsimp only
    split
    · rfl
    · rfl

/-- A well-formed write, once its proof was looked at. -/
theorem leavesNoTrace_of_write {key : Bytes} {r : WriteRequest} {w : World}
    {write : Http.SignedWrite} (hwrite : r.write key w.now = some write)
    (hrun : (r.program key).run w = match Http.signedWriter w.db write with
      | none => (ApiError.unauthorized.response, w)
      | some writer =>
          match r with
          | .navigation .. => (ensureThen write.payload.channel (some writer.inst)
              (fun now db => appendNavigationMessage now writer write.payload.navigationInput db)
              Http.navigationResponse (ApiError.response ⟨409, "channel_archived"⟩)).run w
          | .signedPost .. => (ensureThen write.payload.channel (some writer.inst)
              (fun now db => executeMessageIntent now writer (Http.signedExecution write.payload) db)
              Http.signedResponse (ApiError.response ⟨409, "channel_archived"⟩)).run w) :
    LeavesNoTrace (r.program key) w
      ↔ ∀ write writer, r.write key w.now = some write →
          Http.signedWriter w.db write = some writer →
            (w.db.channels.find write.payload.channel).isSome
              ∨ r.Admitted w.now w.db writer write.payload := by
  cases hwriter : Http.signedWriter w.db write with
  | none =>
      rw [hwriter] at hrun
      refine iff_of_true ?_ fun write' writer hwrite' hwriter' => ?_
      · have hdone : (r.program key).run w
            = (Program.done ApiError.unauthorized.response).run w := hrun
        rw [leavesNoTrace_congr hdone]
        exact .done _ w
      · rw [hwrite, Option.some.injEq] at hwrite'
        rw [← hwrite', hwriter] at hwriter'
        exact absurd hwriter' (by simp)
  | some writer =>
      rw [hwriter] at hrun
      have hone : (∀ write' writer', r.write key w.now = some write' →
          Http.signedWriter w.db write' = some writer' →
            (w.db.channels.find write'.payload.channel).isSome
              ∨ r.Admitted w.now w.db writer' write'.payload)
          ↔ (w.db.channels.find write.payload.channel).isSome
            ∨ r.Admitted w.now w.db writer write.payload := by
        refine ⟨fun h => h write writer hwrite hwriter, fun h write' writer' hw hs => ?_⟩
        rw [hwrite, Option.some.injEq] at hw
        subst hw
        rw [hwriter, Option.some.injEq] at hs
        subst hs
        exact h
      rw [hone]
      cases r with
      | navigation participantId query =>
          rw [leavesNoTrace_congr hrun]
          exact leavesNoTrace_navigation write writer w
      | signedPost headers body object parsed signed =>
          rw [leavesNoTrace_congr hrun]
          exact leavesNoTrace_signed hwriter

/-- **A rejected write leaves no trace exactly when** it names no participant whose proof it has, or
its channel exists, or it is not rejected. -/
theorem rejected_writes_leave_no_trace_iff (key : Bytes) (r : WriteRequest) (w : World) :
    LeavesNoTrace (r.program key) w
      ↔ ∀ write writer, r.write key w.now = some write →
          Http.signedWriter w.db write = some writer →
            (w.db.channels.find write.payload.channel).isSome
              ∨ r.Admitted w.now w.db writer write.payload := by
  have hmalformed : ∀ response : Response, r.write key w.now = none →
      (r.program key).run w = (response, w) → (LeavesNoTrace (r.program key) w
        ↔ ∀ write writer, r.write key w.now = some write →
          Http.signedWriter w.db write = some writer →
            (w.db.channels.find write.payload.channel).isSome
              ∨ r.Admitted w.now w.db writer write.payload) := by
    intro response hnone hrun
    refine iff_of_true ?_ fun write writer h => absurd (hnone.symm.trans h) (by simp)
    have hdone : (r.program key).run w = (Program.done response).run w := hrun
    rw [leavesNoTrace_congr hdone]
    exact .done _ w
  cases r with
  | navigation participantId query =>
      cases hparse : Http.parseNavigationWrite participantId query with
      | error e =>
          refine hmalformed e.response (by simp [WriteRequest.write, hparse, Except.toOption]) ?_
          simp only [WriteRequest.program, Http.navigationWrite, hparse]
          rfl
      | ok write =>
          have hwrite : (WriteRequest.navigation participantId query).write key w.now
              = some write := by simp [WriteRequest.write, hparse, Except.toOption]
          refine leavesNoTrace_of_write hwrite ?_
          simp only [WriteRequest.program, Http.navigationWrite, hparse]
          rw [Program.run_bind, run_query]
          cases Http.signedWriter w.db write with
          | none => rfl
          | some writer => rfl
  | signedPost headers body object parsed signed =>
      have hpost : (Http.postMessage key headers body).run w = _ :=
        run_postMessage_signed parsed signed w
      by_cases hguest : ((sessionAt key headers w.now).any fun session =>
          decide (session.sessionType = .guest)) = true
      · rw [if_pos hguest] at hpost
        exact hmalformed _ (if_pos hguest) hpost
      · rw [if_neg hguest] at hpost
        by_cases hidentity : object.containsKey "source" = true
            ∨ object.containsKey "instance" = true
        · rw [if_pos hidentity] at hpost
          exact hmalformed _ ((if_neg hguest).trans (if_pos hidentity)) hpost
        · rw [if_neg hidentity] at hpost
          have hwrite : (WriteRequest.signedPost headers body object parsed signed).write key w.now
              = (Http.parseSignedMessage object).toOption :=
            (if_neg hguest).trans (if_neg hidentity)
          cases hparse : Http.parseSignedMessage object with
          | error e =>
              rw [hparse] at hwrite
              refine hmalformed e.response hwrite (hpost.trans ?_)
              simp only [Http.postSignedMessage, hparse]
              rfl
          | ok write =>
              rw [hparse] at hwrite
              refine leavesNoTrace_of_write hwrite (hpost.trans ?_)
              simp only [Http.postSignedMessage, hparse]
              rw [Program.run_bind, run_query]
              cases Http.signedWriter w.db write with
              | none => rfl
              | some writer => rfl

end Writes

section Sample

attribute [local instance] sampleHmac sampleBase64Url

@[reducible] private def replySha256 : Sha256 := .ofTable
  [(Text.utf8 (navigationRequestText "general" "message" "hello" (some 7)),
      [40, 171, 10, 239, 228, 122, 134, 168, 110, 89, 222, 43, 8, 61, 245, 170, 77, 42, 40, 169, 86,
        173, 46, 19, 79, 72, 124, 233, 36, 2, 10, 228])]

attribute [local instance] replySha256

/-- Alice's `GET /w` replies to a message that does not exist. The channel she names does not exist
either; it does afterwards. -/
theorem missing_reply_target_leaves_channel :
    ¬ LeavesNoTrace (Http.navigationWrite "alice" (sampleQuery (some "7") sampleReplyProof))
      ⟨sampleStore, 1⟩ := by
  intro h
  have hrejected : ((Http.navigationWrite "alice" (sampleQuery (some "7") sampleReplyProof)).run
      ⟨sampleStore, 1⟩).1.isSuccess = false := by decide +kernel
  have hfound : (((Http.navigationWrite "alice" (sampleQuery (some "7") sampleReplyProof)).run
      ⟨sampleStore, 1⟩).2.db.channels.find "general").isSome = true := by decide +kernel
  rw [h hrejected] at hfound
  exact absurd hfound (by decide +kernel)

end Sample

end Blackboard
