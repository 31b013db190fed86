import Blackboard.Model.Runtime
import Blackboard.Proof.Transactions

/-!
# What a call's transactions can do

The calls the whole server adds to the requests read, change grants for a remote
administrator, change channels for a human one, or execute an intent for a tool. So the
effects of requests are the effects of calls.
-/

namespace Blackboard

open Concurrent (Program)

/-! ## The operations routes ask for -/

/-- The change of grants a route is for, made by this caller. -/
def AccessApi.Route.grantOp (caller : Principal) (participantId : String) :
    AccessApi.Route → Option GrantOp
  | createDurableAuthorizationGrant body =>
      some (.createDurableAuthorized adminSurface caller participantId body)
  | createDelegatedAuthorizationGrant body =>
      some (.createDelegatedAuthorized adminSurface caller participantId body)
  | deactivateDurableAuthorizationGrant grantId =>
      some (.deactivateDurableAuthorized adminSurface caller participantId grantId)
  | deactivateDelegatedAuthorizationGrant grantId =>
      some (.deactivateDelegatedAuthorized adminSurface caller participantId grantId)
  | _ => none

section Effects

variable [Sha256] [Hmac] [Base64Url] [JsonParser]

omit [Sha256] [Hmac] [Base64Url] in
/-- The change of channels a route is for, made for this administrator. -/
def Http.AdminRoute.channelOp (admin : Identity) : Http.AdminRoute → Option ChannelOp
  | adminChannels _ => none
  | adminCreateChannel body =>
      match (readJsonObject body).bind parseCreateChannel with
      | .ok (channel, visibility) => some (.create channel visibility (some admin.inst))
      | .error _ => none
  | adminUpdateChannel channel body =>
      if nameRe channel = false then none
      else
        match (readJsonObject body).bind parseUpdateChannel with
        | .ok (visibility, status) => some (.update channel visibility status)
        | .error _ => none

/-- The execution of a tool's call. -/
def ToolEffect (e : Effect) : Prop :=
  e = .nothing ∨ ∃ arguments w writer principal, Mcp.parseWrite arguments = .ok w
    ∧ writer.inst = w.participantId ∧ e = .execute writer (Mcp.execution principal w)

/-- The effects a call may have. -/
def Runtime.Call.May (settings : Settings) : Runtime.Call → Effect → Prop
  | board r, e => r.May settings e
  | access _ _ route, e => e = .nothing ∨ ∃ caller participantId op,
      caller.provider ≠ "participant-hmac" ∧ route.grantOp caller participantId = some op
        ∧ e = .grant op
  | admin _ route, e => e = .nothing ∨ ∃ admin op, route.channelOp admin = some op
      ∧ e = .channel op
  | whoami _, e | authGuest, e => e = .nothing
  | mcp _ _, e | stdio _, e => ToolEffect e

/-! ## The access API -/

section Access

variable {may : Effect → Prop}

omit [JsonParser] in
theorem steps_authorizedReport (h : may .nothing) (principal : Principal)
    (participantId capability : String) (resource : Option String)
    (report : Int → Database → Except ApiError Mcp.Report) :
    (AccessApi.authorizedReport principal participantId capability resource report).Steps
      (Does may) := by
  unfold AccessApi.authorizedReport
  refine Program.steps_bind (steps_statement h fun _ => rfl) fun allowed => ?_
  split
  · exact steps_statement h fun _ => rfl
  · trivial

omit [JsonParser] in
theorem steps_withIntent (intentId : String) {route : String → Program World AccessApi.Answer}
    (hroute : ∀ intentId, (route intentId).Steps (Does may)) :
    (AccessApi.withIntent intentId route).Steps (Does may) := by
  unfold AccessApi.withIntent
  cases normalizeIntentId intentId with
  | none => trivial
  | some intentId => exact hroute intentId

omit [JsonParser] in
/-- A remote administrator's operation, unless the caller is a participant that signs. -/
theorem steps_administration (op : GrantOp) {α : Type}
    {operation : Int → Principal → String → Administration α} {answer : α → AccessApi.Answer}
    {resolved : Identity} {principal : Principal}
    (happly : ∀ now db, op.apply now db = (operation now principal resolved.inst db).2)
    (hgrant : principal.provider ≠ "participant-hmac" → may (.grant op)) :
    (AccessApi.administration operation answer resolved principal).Steps (Does may) := by
  unfold AccessApi.administration
  split
  · trivial
  · rename_i hprovider
    refine steps_statement (hgrant hprovider) fun w => ?_
    simp only [Effect.apply, happly]

omit [JsonParser] in
theorem steps_handle (hnothing : may .nothing) (route : AccessApi.Route) (resolved : Identity)
    (principal : Principal)
    (hgrant : ∀ op, principal.provider ≠ "participant-hmac" →
      route.grantOp principal resolved.inst = some op → may (.grant op)) :
    (route.handle resolved principal).Steps (Does may) := by
  cases route with
  | accessContext =>
      refine Program.steps_bind (steps_query hnothing _) fun role => ?_
      dsimp only
      split
      · exact Program.steps_bind (steps_statement hnothing fun _ => rfl) fun _ => trivial
      · trivial
  | executionReceipt intentId => exact steps_withIntent intentId fun _ => steps_query hnothing _
  | executionAudit intentId =>
      exact steps_withIntent intentId fun _ => steps_authorizedReport hnothing _ _ _ _ _
  | executionAuditIntegrity intentId =>
      exact steps_withIntent intentId fun _ => steps_authorizedReport hnothing _ _ _ _ _
  | executionAuditSweep => exact steps_authorizedReport hnothing _ _ _ _ _
  | authorizationDecisionExplain q =>
      unfold AccessApi.Route.handle AccessApi.authorizationDecisionExplain
      dsimp only
      split
      · trivial
      · exact steps_authorizedReport hnothing _ _ _ _ _
  | authorizationPolicy q =>
      unfold AccessApi.Route.handle AccessApi.authorizationPolicy
      dsimp only
      split
      · trivial
      · split
        · trivial
        · exact steps_authorizedReport hnothing _ _ _ _ _
  | authorizationPolicyIntegrity => exact steps_authorizedReport hnothing _ _ _ _ _
  | authorizationAdministrationHistory q =>
      unfold AccessApi.Route.handle AccessApi.authorizationAdministrationHistory
      dsimp only
      split
      · trivial
      · split
        · trivial
        · exact steps_authorizedReport hnothing _ _ _ _ _
  | createDurableAuthorizationGrant body =>
      unfold AccessApi.Route.handle AccessApi.createDurableAuthorizationGrant
      refine steps_administration
        (.createDurableAuthorized AccessApi.adminSurface principal resolved.inst body)
        (fun now db => ?_) fun hprovider => hgrant _ hprovider rfl
      rfl
  | createDelegatedAuthorizationGrant body =>
      unfold AccessApi.Route.handle AccessApi.createDelegatedAuthorizationGrant
      refine steps_administration
        (.createDelegatedAuthorized AccessApi.adminSurface principal resolved.inst body)
        (fun now db => ?_) fun hprovider => hgrant _ hprovider rfl
      rfl
  | deactivateDurableAuthorizationGrant grantId =>
      unfold AccessApi.Route.handle AccessApi.deactivateDurableAuthorizationGrant
      refine steps_administration
        (.deactivateDurableAuthorized AccessApi.adminSurface principal resolved.inst grantId)
        (fun now db => ?_) fun hprovider => hgrant _ hprovider rfl
      rfl
  | deactivateDelegatedAuthorizationGrant grantId =>
      unfold AccessApi.Route.handle AccessApi.deactivateDelegatedAuthorizationGrant
      refine steps_administration
        (.deactivateDelegatedAuthorized AccessApi.adminSurface principal resolved.inst grantId)
        (fun now db => ?_) fun hprovider => hgrant _ hprovider rfl
      rfl

theorem steps_requireIdentityForTarget (h : may .nothing) (key : Bytes) (headers : Headers)
    (method requestTarget : String) :
    (AccessApi.requireIdentityForTarget key headers method requestTarget).Steps (Does may) := by
  unfold AccessApi.requireIdentityForTarget
  refine Program.steps_bind
    (steps_resolveRequestIdentityForTarget h key headers method requestTarget) fun identity => ?_
  cases identity with
  | none => trivial
  | some identity => trivial

theorem steps_serveRoute (hnothing : may .nothing) (key : Bytes) (headers : Headers)
    (requestTarget : String) (route : AccessApi.Route)
    (hgrant : ∀ caller participantId op, caller.provider ≠ "participant-hmac" →
      route.grantOp caller participantId = some op → may (.grant op)) :
    (AccessApi.serveRoute key headers requestTarget route).Steps (Does may) := by
  unfold AccessApi.serveRoute
  refine Program.steps_bind
    (steps_requireIdentityForTarget hnothing key headers route.method requestTarget) fun who => ?_
  cases who with
  | error e => trivial
  | ok resolved =>
      exact steps_handle hnothing route resolved _ fun op hprovider hop =>
        hgrant _ resolved.inst op hprovider hop

end Access

/-! ## Administrators -/

section Admin

variable {may : Effect → Prop}

theorem steps_requireHumanAdmin (h : may .nothing) (key : Bytes) (headers : Headers) :
    (Http.requireHumanAdmin key headers).Steps (Does may) := by
  unfold Http.requireHumanAdmin
  refine Program.steps_bind (steps_verifiedWebSession h key headers) fun session => ?_
  cases session with
  | none => trivial
  | some session =>
      dsimp only
      split
      · trivial
      · refine Program.steps_bind (steps_query h _) fun identity => ?_
        refine Program.steps_bind (steps_query h _) fun role => ?_
        cases identity with
        | none => trivial
        | some identity =>
            dsimp only
            split
            · trivial
            · trivial

theorem steps_whoami (h : may .nothing) (key : Bytes) (headers : Headers) :
    (Http.whoami key headers).Steps (Does may) := by
  unfold Http.whoami
  refine Program.steps_bind (steps_verifiedWebSession h key headers) fun session => ?_
  cases session with
  | none =>
      dsimp only [Http.requireIdentity]
      refine Program.steps_bind (Program.steps_bind (steps_resolveRequestIdentity h key headers)
        fun identity => ?_) fun who => ?_
      · cases identity with
        | none => trivial
        | some identity => trivial
      · cases who with
        | error e => trivial
        | ok identity => trivial
  | some session =>
      dsimp only
      split
      · trivial
      · refine Program.steps_bind (steps_query h _) fun identity => ?_
        refine Program.steps_bind (steps_query h _) fun role => ?_
        cases identity with
        | none => trivial
        | some identity => trivial

omit [Sha256] [Hmac] [Base64Url] [JsonParser] in
theorem steps_changedChannel [Sha256] [Hmac] [Base64Url] (hnothing : may .nothing)
    {change : Int → Statement Bool} {channel : String} {status : Nat} {unchanged : ApiError}
    {op : ChannelOp} (happly : ∀ now db, op.apply now db = (change now db).2)
    (hchannel : may (.channel op)) :
    (Http.changedChannel change channel status unchanged).Steps (Does may) := by
  unfold Http.changedChannel
  refine Program.steps_bind (steps_statement hchannel fun w => ?_) fun changed => ?_
  · simp only [Effect.apply, happly]
  · cases changed with
    | error e => trivial
    | ok changed =>
        cases changed with
        | false => trivial
        | true =>
            refine Program.steps_bind (steps_query hnothing _) fun row => ?_
            cases row with
            | none => trivial
            | some row => trivial

theorem steps_adminHandle (hnothing : may .nothing) (admin : Identity) (route : Http.AdminRoute)
    (hchannel : ∀ op, route.channelOp admin = some op → may (.channel op)) :
    (route.handle admin).Steps (Does may) := by
  cases route with
  | adminChannels query' =>
      unfold Http.AdminRoute.handle Http.adminChannels
      dsimp only
      split
      · trivial
      · trivial
      · refine Program.steps_bind (steps_query hnothing _) fun window => ?_
        cases window with
        | error e => trivial
        | ok window => trivial
  | adminCreateChannel body =>
      unfold Http.AdminRoute.handle Http.adminCreateChannel
      unfold Http.AdminRoute.channelOp at hchannel
      dsimp only at hchannel ⊢
      cases hparse : (Http.readJsonObject body).bind Http.parseCreateChannel with
      | error e => trivial
      | ok parsed =>
          rw [hparse] at hchannel
          exact steps_changedChannel hnothing (fun _ _ => rfl) (hchannel _ rfl)
  | adminUpdateChannel channel body =>
      unfold Http.AdminRoute.handle Http.adminUpdateChannel
      unfold Http.AdminRoute.channelOp at hchannel
      dsimp only at hchannel ⊢
      split
      · trivial
      · rename_i hname
        rw [if_neg hname] at hchannel
        cases hparse : (Http.readJsonObject body).bind Http.parseUpdateChannel with
        | error e => trivial
        | ok parsed =>
            rw [hparse] at hchannel
            exact steps_changedChannel hnothing (fun _ _ => rfl) (hchannel _ rfl)

theorem steps_serveAdmin (hnothing : may .nothing) (key : Bytes) (headers : Headers)
    (route : Http.AdminRoute)
    (hchannel : ∀ admin op, route.channelOp admin = some op → may (.channel op)) :
    (Http.serveAdmin key headers route).Steps (Does may) := by
  unfold Http.serveAdmin
  refine Program.steps_bind (steps_requireHumanAdmin hnothing key headers) fun who => ?_
  cases who with
  | error e => trivial
  | ok admin => exact steps_adminHandle hnothing admin route (hchannel admin)

end Admin

/-! ## Tools -/

section Tools

variable {may : Effect → Prop}

omit [JsonParser] in
theorem steps_callerPrincipal (participantId : String) (principal : Option Principal)
    {identity : Program World (Except String Identity)} (hidentity : identity.Steps (Does may)) :
    (Mcp.callerPrincipal participantId principal identity).Steps (Does may) := by
  unfold Mcp.callerPrincipal
  cases principal with
  | some principal => trivial
  | none =>
      refine Program.steps_bind hidentity fun who => ?_
      cases who with
      | error code => trivial
      | ok identity => trivial

omit [JsonParser] in
theorem steps_resolveSignedIdentity (h : may .nothing) (arguments : Json.Object)
    (participantId : String) (verify : String → String → Bool) :
    (Mcp.resolveSignedIdentity arguments participantId verify).Steps (Does may) := by
  unfold Mcp.resolveSignedIdentity
  cases Mcp.parseAuth arguments with
  | error code => trivial
  | ok proof =>
      refine Program.steps_bind (steps_query h _) fun auth => ?_
      cases auth with
      | none => trivial
      | some auth =>
          dsimp only
          split
          · trivial
          · split
            · trivial
            · trivial

omit [JsonParser] in
theorem steps_resolveCapabilityPrincipal (h : may .nothing) (arguments : Json.Object)
    (participantId capability : String) (resource : Option String)
    (principal : Option Principal) :
    (Mcp.resolveCapabilityPrincipal arguments participantId capability resource principal).Steps
      (Does may) := by
  unfold Mcp.resolveCapabilityPrincipal
  cases principal with
  | some principal =>
      refine Program.steps_bind (steps_statement h fun _ => rfl) fun allowed => ?_
      split
      · trivial
      · trivial
  | none =>
      exact steps_callerPrincipal participantId none
        (steps_resolveSignedIdentity h arguments participantId _)

omit [JsonParser] in
theorem steps_mcpAuthorizedReport (h : may .nothing)
    {caller : Program World (Except String Principal)} (hcaller : caller.Steps (Does may))
    (participantId capability : String) (resource : Option String) (denied : String)
    (report : Database → Option Mcp.Report) :
    (Mcp.authorizedReport caller participantId capability resource denied report).Steps
      (Does may) := by
  unfold Mcp.authorizedReport
  refine Program.steps_bind hcaller fun who => ?_
  cases who with
  | error code => trivial
  | ok principal => exact steps_statement h fun _ => rfl

omit [JsonParser] in
theorem steps_explainedReport (h : may .nothing)
    {caller : Program World (Except String Principal)} (hcaller : caller.Steps (Does may))
    (participantId capability resource : String)
    (report : Int → Database → Except SqlError Mcp.Report) :
    (Mcp.explainedReport caller participantId capability resource report).Steps (Does may) := by
  unfold Mcp.explainedReport
  refine Program.steps_bind hcaller fun who => ?_
  cases who with
  | error code => trivial
  | ok principal => exact steps_statement h fun _ => rfl

omit [JsonParser] in
theorem steps_executionReport (h : may .nothing) (arguments : Json.Object)
    (capability denied : String) (report : Database → Mcp.ExecutionArguments → Option Mcp.Report)
    (principal : Option Principal) :
    (Mcp.executionReport arguments capability denied report principal).Steps (Does may) := by
  unfold Mcp.executionReport
  cases Mcp.parseExecution arguments with
  | error code => trivial
  | ok a =>
      exact steps_mcpAuthorizedReport h
        (steps_resolveCapabilityPrincipal h arguments _ _ _ principal) _ _ _ _ _

omit [JsonParser] in
theorem steps_storeReport (h : may .nothing) (arguments : Json.Object)
    (capability resource : String) (report : Database → Mcp.Report)
    (principal : Option Principal) :
    (Mcp.storeReport arguments capability resource report principal).Steps (Does may) := by
  unfold Mcp.storeReport
  cases Mcp.parseParticipant arguments with
  | error code => trivial
  | ok participantId =>
      exact steps_mcpAuthorizedReport h
        (steps_resolveCapabilityPrincipal h arguments _ _ _ principal) _ _ _ _ _

omit [JsonParser] in
theorem steps_blackboardAccessContext (h : may .nothing) (arguments : Json.Object)
    (principal : Option Principal) :
    (Mcp.blackboardAccessContext arguments principal).Steps (Does may) := by
  unfold Mcp.blackboardAccessContext
  cases Mcp.parseParticipant arguments with
  | error code => trivial
  | ok participantId =>
      refine Program.steps_bind (steps_callerPrincipal participantId principal
        (steps_resolveSignedIdentity h arguments participantId _)) fun who => ?_
      cases who with
      | error code => trivial
      | ok caller =>
          refine Program.steps_bind (steps_statement h fun _ => rfl) fun grants => ?_
          split
          · trivial
          · trivial

omit [JsonParser] in
/-- **A tool that reports only reads.** -/
theorem steps_reportingTool (h : may .nothing) {name : String}
    {tool : Json.Object → Option Principal → Program World (Except String Mcp.Report)}
    (htool : Mcp.reportingTool name = some tool) (arguments : Json.Object)
    (principal : Option Principal) : (tool arguments principal).Steps (Does may) := by
  unfold Mcp.reportingTool at htool
  split at htool
  · obtain rfl := Option.some.inj htool
    exact steps_blackboardAccessContext h arguments principal
  · obtain rfl := Option.some.inj htool
    exact steps_executionReport h arguments _ _ _ principal
  · obtain rfl := Option.some.inj htool
    exact steps_executionReport h arguments _ _ _ principal
  · obtain rfl := Option.some.inj htool
    exact steps_executionReport h arguments _ _ _ principal
  · obtain rfl := Option.some.inj htool
    exact steps_storeReport h arguments _ _ _ principal
  · obtain rfl := Option.some.inj htool
    exact steps_storeReport h arguments _ _ _ principal
  · obtain rfl := Option.some.inj htool
    unfold Mcp.blackboardAuthorizationPolicy
    cases Mcp.parsePolicy arguments with
    | error code => trivial
    | ok a =>
        exact steps_explainedReport h (steps_callerPrincipal _ principal
          (steps_resolveSignedIdentity h arguments _ _)) _ _ _ _
  · obtain rfl := Option.some.inj htool
    unfold Mcp.blackboardAuthorizationAdministrationHistory
    cases Mcp.parseHistory arguments with
    | error code => trivial
    | ok a =>
        exact steps_explainedReport h (steps_callerPrincipal _ principal
          (steps_resolveSignedIdentity h arguments _ _)) _ _ _ _
  · obtain rfl := Option.some.inj htool
    unfold Mcp.blackboardAuthorizationDecision
    cases Mcp.parseDecision arguments with
    | error code => trivial
    | ok a =>
        exact steps_explainedReport h (steps_callerPrincipal _ principal
          (steps_resolveSignedIdentity h arguments _ _)) _ _ _ _
  · exact absurd htool (by simp)

omit [JsonParser] in
/-- **A call of a tool** executes an intent or only reads. -/
theorem steps_toolCallResult (object : Json.Object) (principal : Option Principal) :
    (Mcp.toolCallResult object principal).Steps (Does ToolEffect) := by
  have hnothing : ToolEffect .nothing := Or.inl rfl
  unfold Mcp.toolCallResult
  cases Mcp.toolCall object with
  | error code => trivial
  | ok call =>
      obtain ⟨name, given⟩ := call
      dsimp only
      split
      · exact Program.steps_bind (steps_blackboardRead hnothing _ principal) fun _ => trivial
      · split
        · refine Program.steps_bind (steps_blackboardWrite hnothing
            fun w writer hparse hwriter => ?_) fun _ => trivial
          exact Or.inr ⟨_, w, writer, principal, hparse, hwriter, rfl⟩
        · split
          · rename_i tool htool
            exact Program.steps_bind (steps_reportingTool hnothing htool _ principal)
              fun _ => trivial
          · trivial

end Tools

/-! ## JSON-RPC -/

section Rpc

omit [JsonParser] in
theorem steps_stdioMethod (object : Json.Object) (method : String) :
    (Mcp.stdioMethod object method).Steps (Does ToolEffect) := by
  unfold Mcp.stdioMethod
  split
  · trivial
  · trivial
  · trivial
  · trivial
  · refine Program.steps_bind (steps_toolCallResult object none) fun result => ?_
    cases result with
    | error message => trivial
    | ok result => trivial
  · trivial

omit [JsonParser] in
theorem steps_stdioDispatch (value : Json.Value) :
    (Mcp.stdioDispatch value).Steps (Does ToolEffect) := by
  unfold Mcp.stdioDispatch
  split
  · trivial
  · dsimp only
    split
    · trivial
    · split
      · split
        · trivial
        · trivial
      · split
        · trivial
        · exact Program.steps_bind (steps_stdioMethod _ _) fun _ => trivial

theorem steps_serveStdio (lines : List String) :
    (Mcp.serveStdio lines).Steps (Does ToolEffect) := by
  induction lines with
  | nil => trivial
  | cons line lines ih =>
      unfold Mcp.serveStdio
      split
      · exact ih
      · cases JsonParser.parse (Text.utf8 line) with
        | none => exact Program.steps_bind ih fun _ => trivial
        | some value =>
            exact Program.steps_bind (steps_stdioDispatch value) fun _ =>
              Program.steps_bind ih fun _ => trivial

variable [Base64Standard] [Jwt]

omit [JsonParser] [Jwt] in
theorem steps_dispatch (bearerCapable : Bool) (headers : Headers) (object : Json.Object)
    (method : String) (principal : Option Principal) :
    (Mcp.dispatch bearerCapable headers object method principal).Steps (Does ToolEffect) := by
  unfold Mcp.dispatch
  dsimp only
  split
  · split
    · trivial
    · trivial
    · split
      · trivial
      · split
        · trivial
        · unfold Mcp.modernMethod
          dsimp only
          split
          · trivial
          · trivial
          · refine Program.steps_bind (steps_toolCallResult object principal) fun result => ?_
            cases result with
            | error message => trivial
            | ok result => trivial
          · trivial
  · split
    · trivial
    · split
      · trivial
      · unfold Mcp.legacyMethod
        dsimp only
        split
        · trivial
        · trivial
        · trivial
        · refine Program.steps_bind (steps_toolCallResult object principal) fun result => ?_
          cases result with
          | error message => trivial
          | ok result => trivial
        · trivial

omit [JsonParser] [Base64Standard] [Jwt] in
theorem steps_httpToolCallBodyRequiresAuth {may : Effect → Prop} (h : may .nothing)
    (object : Json.Object) : (Mcp.httpToolCallBodyRequiresAuth object).Steps (Does may) := by
  have hnamed : ∀ name given, (Mcp.namedToolRequiresAuth name given).Steps (Does may) := by
    intro name given
    unfold Mcp.namedToolRequiresAuth Mcp.readRequiresAuth
    split
    · trivial
    · split
      · trivial
      · split
        · split
          · trivial
          · split
            · trivial
            · split
              · trivial
              · split
                · trivial
                · exact steps_query h _
        · trivial
  unfold Mcp.httpToolCallBodyRequiresAuth
  split
  · trivial
  · split
    · trivial
    · split
      · trivial
      · split
        · exact hnamed _ _
        · exact hnamed _ _
        · trivial

theorem steps_post [Mcp.UrlParser] (verifier : Option OidcVerifier) (headers : Headers)
    (body : Bytes) : (Mcp.post verifier headers body).Steps (Does ToolEffect) := by
  have hnothing : ToolEffect .nothing := Or.inl rfl
  unfold Mcp.post
  split
  · trivial
  · split
    · trivial
    · split
      · trivial
      · split
        · trivial
        · dsimp only
          split
          · trivial
          · split
            · split
              · trivial
              · trivial
            · unfold Mcp.postMethod
              refine Program.steps_bind_of_within
                (within_resolveHttpBearerPrincipal hnothing verifier headers) fun principal _ => ?_
              cases principal with
              | error e => trivial
              | ok principal =>
                  dsimp only
                  refine Program.steps_bind ?_ fun gated => ?_
                  · split
                    · exact steps_httpToolCallBodyRequiresAuth hnothing _
                    · trivial
                  · split
                    · trivial
                    · exact steps_dispatch _ headers _ _ principal

end Rpc

/-! ## Calls -/

variable [Base64Standard] [Jwt] [Mcp.UrlParser]

/-- **Every transaction of a call has one of the effects the call may have.** -/
theorem call_steps (settings : Settings) (c : Runtime.Call) :
    (Runtime.serve settings c).Steps (Does (c.May settings)) := by
  cases c with
  | board r => exact Program.steps_bind (serve_steps settings r) fun _ => trivial
  | access headers requestTarget route =>
      refine Program.steps_bind (steps_serveRoute (Or.inl rfl) _ headers requestTarget route
        fun caller participantId op hprovider hop => ?_) fun _ => trivial
      exact Or.inr ⟨caller, participantId, op, hprovider, hop, rfl⟩
  | admin headers route =>
      refine Program.steps_bind (steps_serveAdmin (Or.inl rfl) _ headers route
        fun admin op hop => ?_) fun _ => trivial
      exact Or.inr ⟨admin, op, hop, rfl⟩
  | whoami headers =>
      have hnothing : (Runtime.Call.whoami headers).May settings .nothing := rfl
      exact Program.steps_bind (steps_whoami hnothing _ headers) fun _ => trivial
  | authGuest =>
      have hnothing : Runtime.Call.authGuest.May settings .nothing := rfl
      exact Program.steps_bind (steps_currentUnixTime hnothing) fun _ => trivial
  | mcp headers body =>
      exact Program.steps_bind (steps_post settings.oidcVerifier headers body) fun _ => trivial
  | stdio lines => exact Program.steps_bind (steps_serveStdio lines) fun _ => trivial

end Effects

end Blackboard
