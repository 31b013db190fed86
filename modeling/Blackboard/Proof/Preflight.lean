import Blackboard.Model.McpTools
import Blackboard.Model.System
import Blackboard.Proof.Requests

/-!
# The preflight and the tools

The preflight tells a client without a token to come back with one when the tool would turn
it away. Every tool but the read turns away whoever carries no proof, so there the two agree.
A read names its participant by a text or not at all, and there they part: the preflight
asks whether `participant_id` is there, the read whether it is a text.
-/

namespace Blackboard

open Concurrent (Program)

namespace Mcp

variable {object arguments : Json.Object} {given : Option Json.Object} {name : String}
  {w : World}

/-! ## Tools without a proof -/

theorem get_eq_none_of_containsKey {key : String} (h : arguments.containsKey key = false) :
    arguments.get key = none := by
  simpa [Json.Object.containsKey] using h

theorem parseAuth_of_no_auth (hauth : arguments.containsKey "auth" = false) :
    parseAuth arguments = .error "invalid_auth" := by
  unfold parseAuth
  rw [get_eq_none_of_containsKey hauth]
  rfl

/-- A program that asks the store nothing and answers with an error. -/
def Refuses {α : Type} (p : Program World (Except String α)) : Prop :=
  ∃ code, p = .done (.error code)

section Tools

variable [Hmac] [Base64Url]

omit [Hmac] [Base64Url] in
theorem resolveSignedIdentity_of_no_auth (hauth : arguments.containsKey "auth" = false)
    (participantId : String) (verify : String → String → Bool) :
    resolveSignedIdentity arguments participantId verify = .done (.error "invalid_auth") := by
  unfold resolveSignedIdentity
  rw [parseAuth_of_no_auth hauth]

omit [Hmac] [Base64Url] in
theorem callerPrincipal_of_no_auth (hauth : arguments.containsKey "auth" = false)
    (participantId : String) (verify : String → String → Bool) :
    callerPrincipal participantId none (resolveSignedIdentity arguments participantId verify)
      = .done (.error "invalid_auth") := by
  rw [resolveSignedIdentity_of_no_auth hauth]
  rfl

theorem resolveCapabilityPrincipal_of_no_auth (hauth : arguments.containsKey "auth" = false)
    (participantId capability : String) (resource : Option String) :
    resolveCapabilityPrincipal arguments participantId capability resource none
      = .done (.error "invalid_auth") :=
  callerPrincipal_of_no_auth hauth participantId _

omit [Hmac] [Base64Url] in
theorem refuses_authorizedReport {code : String} (participantId capability : String)
    (resource : Option String) (denied : String) (report : Database → Option Report) :
    Refuses (authorizedReport (.done (.error code)) participantId capability resource denied
      report) :=
  ⟨code, rfl⟩

omit [Hmac] [Base64Url] in
theorem refuses_explainedReport {code : String} (participantId capability resource : String)
    (report : Int → Database → Except SqlError Report) :
    Refuses (explainedReport (.done (.error code)) participantId capability resource report) :=
  ⟨code, rfl⟩

theorem refuses_accessContext (hauth : arguments.containsKey "auth" = false) :
    Refuses (blackboardAccessContext arguments none) := by
  unfold blackboardAccessContext
  cases parseParticipant arguments with
  | error code => exact ⟨code, rfl⟩
  | ok participantId =>
      dsimp only
      unfold resolveCapabilityIdentity
      rw [callerPrincipal_of_no_auth hauth]
      exact ⟨"invalid_auth", rfl⟩

theorem refuses_executionReport (hauth : arguments.containsKey "auth" = false)
    (capability denied : String) (report : Database → ExecutionArguments → Option Report) :
    Refuses (executionReport arguments capability denied report none) := by
  unfold executionReport
  cases parseExecution arguments with
  | error code => exact ⟨code, rfl⟩
  | ok a =>
      dsimp only
      rw [resolveCapabilityPrincipal_of_no_auth hauth]
      exact refuses_authorizedReport _ _ _ _ _

theorem refuses_storeReport (hauth : arguments.containsKey "auth" = false)
    (capability resource : String) (report : Database → Report) :
    Refuses (storeReport arguments capability resource report none) := by
  unfold storeReport
  cases parseParticipant arguments with
  | error code => exact ⟨code, rfl⟩
  | ok participantId =>
      dsimp only
      rw [resolveCapabilityPrincipal_of_no_auth hauth]
      exact refuses_authorizedReport _ _ _ _ _

theorem refuses_decision (hauth : arguments.containsKey "auth" = false) :
    Refuses (blackboardAuthorizationDecision arguments none) := by
  unfold blackboardAuthorizationDecision
  cases parseDecision arguments with
  | error code => exact ⟨code, rfl⟩
  | ok a =>
      dsimp only
      unfold resolveDecisionIdentity
      rw [callerPrincipal_of_no_auth hauth]
      exact refuses_explainedReport _ _ _ _

theorem refuses_history (hauth : arguments.containsKey "auth" = false) :
    Refuses (blackboardAuthorizationAdministrationHistory arguments none) := by
  unfold blackboardAuthorizationAdministrationHistory
  cases parseHistory arguments with
  | error code => exact ⟨code, rfl⟩
  | ok a =>
      dsimp only
      unfold resolveCapabilityIdentity
      rw [callerPrincipal_of_no_auth hauth]
      exact refuses_explainedReport _ _ _ _

theorem refuses_policy (hauth : arguments.containsKey "auth" = false) :
    Refuses (blackboardAuthorizationPolicy arguments none) := by
  unfold blackboardAuthorizationPolicy
  cases parsePolicy arguments with
  | error code => exact ⟨code, rfl⟩
  | ok a =>
      dsimp only
      unfold resolveCapabilityIdentity
      rw [callerPrincipal_of_no_auth hauth]
      exact refuses_explainedReport _ _ _ _

variable [Sha256]

/-- **No report without a proof**: every tool that reports refuses before it asks the store. -/
theorem reportingTool_refuses
    {tool : Json.Object → Option Principal → Program World (Except String Report)}
    (h : reportingTool name = some tool) (hauth : arguments.containsKey "auth" = false) :
    Refuses (tool arguments none) := by
  unfold reportingTool at h
  split at h
  case h_1 => cases h; exact refuses_accessContext hauth
  case h_2 => cases h; exact refuses_executionReport hauth _ _ _
  case h_3 => cases h; exact refuses_executionReport hauth _ _ _
  case h_4 => cases h; exact refuses_executionReport hauth _ _ _
  case h_5 => cases h; exact refuses_storeReport hauth _ _ _
  case h_6 => cases h; exact refuses_storeReport hauth _ _ _
  case h_7 => cases h; exact refuses_policy hauth
  case h_8 => cases h; exact refuses_history hauth
  case h_9 => cases h; exact refuses_decision hauth
  case h_10 => exact absurd h (by simp)

theorem blackboardWrite_refuses (hauth : arguments.containsKey "auth" = false) :
    ∃ code, blackboardWrite arguments none = .done (toolError code) := by
  unfold blackboardWrite
  cases parseWrite arguments with
  | error code => exact ⟨code, rfl⟩
  | ok w =>
      dsimp only
      unfold resolveWriteIdentity
      dsimp only
      rw [parseAuth_of_no_auth hauth]
      exact ⟨"invalid_auth", rfl⟩

end Tools

/-! ## Reading without a proof -/

theorem parseRead_channel {a : ReadArguments} (h : parseRead arguments = .ok a) :
    (arguments.get "channel").bind Json.Value.asStr = some a.channel
      ∧ Http.nameRe a.channel = true := by
  unfold parseRead at h
  dsimp only [bind, Except.bind] at h
  split at h
  · exact absurd h (by simp)
  · cases hchannel : ((arguments.get "channel").bind Json.Value.asStr).filter Http.nameRe with
    | none =>
        rw [hchannel] at h
        exact absurd h (by simp)
    | some channel =>
        rw [hchannel] at h
        dsimp only at h
        obtain ⟨htext, hname⟩ := Option.filter_eq_some_iff.mp hchannel
        -- neither the cursor nor the limit changes the channel
        have hsame : a.channel = channel := by
          repeat' split at h
          all_goals first
            | exact absurd h (by simp)
            | (have ha := Except.ok.inj h
               rw [← ha])
        rw [hsame]
        exact ⟨htext, hname⟩

theorem parseRead_code {code : String} (h : parseRead arguments = .error code) :
    code ≠ "forbidden" := by
  unfold parseRead at h
  dsimp only [bind, Except.bind] at h
  repeat' split at h
  all_goals
    cases h
    try decide

/-- A read that names its participant by a text. -/
def namesParticipant (arguments : Json.Object) : Bool :=
  ((arguments.get "participant_id").bind Json.Value.asStr).isSome

section Read

variable [Hmac] [Base64Url] {a : ReadArguments}

theorem run_blackboardRead_of_error {code : String} (hparse : parseRead arguments = .error code)
    (w : World) : ((blackboardRead arguments none).run w).1 = toolError code := by
  unfold blackboardRead
  rw [hparse]
  rfl

/-- Who is named has to prove it. -/
theorem run_blackboardRead_of_named (hparse : parseRead arguments = .ok a)
    (hnamed : namesParticipant arguments = true)
    (hauth : arguments.containsKey "auth" = false) (w : World) :
    ((blackboardRead arguments none).run w).1 = toolError "invalid_participant_id"
      ∨ ((blackboardRead arguments none).run w).1 = toolError "invalid_auth" := by
  have hsome : ((arguments.get "participant_id").bind Json.Value.asStr).isSome = true := hnamed
  unfold blackboardRead
  rw [hparse]
  dsimp only
  rw [if_pos (Or.inl hsome)]
  cases ((arguments.get "participant_id").bind Json.Value.asStr).bind validateParticipantId with
  | none => exact Or.inl rfl
  | some participantId =>
      dsimp only
      rw [parseAuth_of_no_auth hauth]
      exact Or.inr rfl

/-- Who is not named reads public channels. -/
theorem run_blackboardRead_of_unnamed (hparse : parseRead arguments = .ok a)
    (hunnamed : namesParticipant arguments = false)
    (hauth : arguments.containsKey "auth" = false) (w : World) :
    ((blackboardRead arguments none).run w).1
      = if channelIsPublicActive w.db a.channel = true then ((listPage a).run w).1
        else toolError "forbidden" := by
  have hcond : ¬ (((arguments.get "participant_id").bind Json.Value.asStr).isSome = true
      ∨ arguments.containsKey "auth" = true) := by
    have hnone : ((arguments.get "participant_id").bind Json.Value.asStr).isSome = false :=
      hunnamed
    rintro (h | h)
    · rw [hnone] at h
      exact Bool.noConfusion h
    · rw [hauth] at h
      exact Bool.noConfusion h
  unfold blackboardRead
  rw [hparse]
  dsimp only
  rw [if_neg hcond, Program.run_bind, run_query]
  by_cases hpublic : channelIsPublicActive w.db a.channel = true
  · simp only [hpublic, if_true]
  · simp only [hpublic]
    rfl

end Read

/-! ## The preflight of a body -/

/-- The preflight reads of a body what the call reads. -/
theorem httpToolCallBodyRequiresAuth_eq
    (hmethod : (object.get "method").bind Json.Value.asStr = some "tools/call") :
    httpToolCallBodyRequiresAuth object
      = match toolCall object with
        | .error _ => .done false
        | .ok (name, given) => namedToolRequiresAuth name given := by
  unfold httpToolCallBodyRequiresAuth toolCall
  rw [if_neg (by simp [hmethod])]
  cases (object.get "params").bind Json.Value.asObject with
  | none => rfl
  | some params =>
      dsimp only [required, bind, Except.bind]
      cases (Json.Object.get params "name").bind Json.Value.asStr with
      | none => rfl
      | some name =>
          dsimp only
          cases Json.Object.get params "arguments" with
          | none => rfl
          | some value => cases value <;> rfl

/-- A body without arguments is a body with no members in them. -/
theorem containsKey_getD (key : String) :
    given.any (Json.Object.containsKey · key) = Json.Object.containsKey (given.getD []) key := by
  cases given with
  | none => rfl
  | some arguments => rfl

/-- The gate of the server is this preflight, for the two tools the server is modelled with. -/
theorem namedToolRequiresAuth_name (tool : Tool) :
    namedToolRequiresAuth tool.name (some arguments) = httpToolCallRequiresAuth tool arguments := by
  unfold namedToolRequiresAuth httpToolCallRequiresAuth
  by_cases hauth : arguments.containsKey "auth" = true
  · rw [if_pos (by simpa using hauth), if_pos hauth]
  · rw [if_neg (by simpa using hauth), if_neg hauth]
    cases tool with
    | blackboardWrite => rfl
    | blackboardRead =>
        rw [if_neg (by decide), if_pos (by rfl)]
        dsimp only [readRequiresAuth]
        by_cases hid : arguments.containsKey "participant_id" = true
        · rw [if_pos hid]
          exact if_pos hid
        · rw [if_neg hid]
          refine (if_neg hid).trans ?_
          cases (arguments.get "channel").bind Json.Value.asStr with
          | none => rfl
          | some channel =>
              dsimp only
              by_cases hname : Http.nameRe channel = true
              · rw [if_neg (by simp [hname]), Option.filter_some, if_pos hname]
              · rw [if_pos (by simpa using hname), Option.filter_some, if_neg hname]

/-- What the preflight asks of a read. -/
theorem run_readRequiresAuth_iff (w : World) :
    ((readRequiresAuth given).run w).1 = true ↔
      Json.Object.containsKey (given.getD []) "participant_id" = true
        ∨ ∃ channel, ((given.getD []).get "channel").bind Json.Value.asStr = some channel
          ∧ Http.nameRe channel = true ∧ channelIsPublicActive w.db channel = false := by
  cases given with
  | none =>
      constructor
      · intro h
        exact absurd h (by simp [readRequiresAuth])
      · rintro (h | ⟨channel, h, -⟩)
        · exact absurd h (by decide)
        · exact absurd h (by simp [Json.Object.get])
  | some arguments =>
      dsimp only [readRequiresAuth, Option.getD_some]
      by_cases hid : (arguments.get "participant_id").isSome = true
      · rw [if_pos hid]
        exact ⟨fun _ => Or.inl hid, fun _ => rfl⟩
      · rw [if_neg hid]
        have hkey : ¬ arguments.containsKey "participant_id" = true := hid
        cases hchannel : (arguments.get "channel").bind Json.Value.asStr with
        | none => simp [hkey]
        | some channel =>
            dsimp only
            by_cases hname : Http.nameRe channel = true
            · rw [if_neg (by simp [hname])]
              simp [hkey, hname]
            · rw [if_pos (by simpa using hname)]
              simp [hkey, hname]

/-! ## Agreement -/

section Agreement

variable [Sha256] [Hmac] [Base64Url]

/-- The names the preflight knows belong to the write and to the tools that report. -/
theorem of_authenticated (h : authenticatedTools.contains name = true) :
    name = "blackboard_write" ∨ ∃ tool, reportingTool name = some tool := by
  have hmem : name ∈ authenticatedTools := by simpa using h
  simp only [authenticatedTools, List.mem_cons, List.not_mem_nil, or_false] at hmem
  rcases hmem with rfl | rfl | rfl | rfl | rfl | rfl | rfl | rfl | rfl | rfl
  · exact Or.inl rfl
  all_goals exact Or.inr ⟨_, rfl⟩

/-- A call that answers, and with no error. -/
def Succeeds (answer : Except String ToolResult) : Prop :=
  ∃ result, answer = .ok result ∧ result.code = none

/-- **Agreement of the preflight with the call it stands before**: who is told to authenticate
would get nothing without a principal, and a read that is let through and names nobody is
not forbidden. -/
structure PreflightAgrees (object : Json.Object) (w : World) : Prop where
  refused : ((httpToolCallBodyRequiresAuth object).run w).1 = true →
    ¬ Succeeds ((toolCallResult object none).run w).1
  admitted : ∀ arguments channel, toolCall object = .ok ("blackboard_read", some arguments) →
    (arguments.get "channel").bind Json.Value.asStr = some channel →
    Http.nameRe channel = true → arguments.containsKey "participant_id" = false →
    arguments.containsKey "auth" = false →
    ((httpToolCallBodyRequiresAuth object).run w).1 = false →
    ∀ result, ((toolCallResult object none).run w).1 = .ok result →
      result.code ≠ some "forbidden"

/-- A read of a public channel, fit to be answered, that names its participant by something that
is no text. -/
def MistypedPublicRead (object : Json.Object) (w : World) : Prop :=
  ∃ arguments a, toolCall object = .ok ("blackboard_read", some arguments)
    ∧ arguments.containsKey "auth" = false ∧ arguments.containsKey "participant_id" = true
    ∧ namesParticipant arguments = false ∧ parseRead arguments = .ok a
    ∧ channelIsPublicActive w.db a.channel = true

/-- A call of an authenticated tool without a proof is never answered. -/
theorem not_succeeds_of_authenticated (hcall : toolCall object = .ok (name, given))
    (hname : authenticatedTools.contains name = true)
    (hauth : Json.Object.containsKey (given.getD []) "auth" = false) (w : World) :
    ¬ Succeeds ((toolCallResult object none).run w).1 := by
  have hread : name ≠ "blackboard_read" := by
    rintro rfl
    exact absurd hname (by decide)
  unfold toolCallResult
  rw [hcall]
  dsimp only
  rw [if_neg hread]
  rcases of_authenticated hname with hwrite | ⟨tool, htool⟩
  · obtain ⟨code, hcode⟩ := blackboardWrite_refuses hauth
    rw [if_pos hwrite, hcode]
    rintro ⟨result, hresult, hnone⟩
    cases hresult
    exact absurd hnone (by simp [toolError, ToolResult.code])
  · have hwrite : name ≠ "blackboard_write" := by
      rintro rfl
      exact absurd htool (by simp [reportingTool])
    obtain ⟨code, hcode⟩ := reportingTool_refuses htool hauth
    rw [if_neg hwrite, htool]
    dsimp only
    rw [hcode]
    rintro ⟨result, hresult, hnone⟩
    cases hresult
    exact absurd hnone (by simp [ToolResult.code])

theorem toolCallResult_of_read (hcall : toolCall object = .ok ("blackboard_read", given))
    (w : World) :
    ((toolCallResult object none).run w).1
      = .ok (.message ((blackboardRead (given.getD []) none).run w).1) := by
  unfold toolCallResult
  rw [hcall]
  dsimp only
  rw [if_pos rfl, Program.run_bind]
  rfl

/-- A read without a proof succeeds when it is fit to be answered, names nobody and its channel is
public. -/
theorem read_succeeds_iff (hcall : toolCall object = .ok ("blackboard_read", given))
    (hauth : Json.Object.containsKey (given.getD []) "auth" = false) (w : World) :
    Succeeds ((toolCallResult object none).run w).1 ↔
      ∃ a, parseRead (given.getD []) = .ok a ∧ namesParticipant (given.getD []) = false
        ∧ channelIsPublicActive w.db a.channel = true := by
  rw [toolCallResult_of_read hcall]
  have hcode : Succeeds (.ok (.message ((blackboardRead (given.getD []) none).run w).1))
      ↔ (ToolResult.message ((blackboardRead (given.getD []) none).run w).1).code = none := by
    constructor
    · rintro ⟨result, hresult, hnone⟩
      cases hresult
      exact hnone
    · intro h
      exact ⟨_, rfl, h⟩
  rw [hcode]
  cases hparse : parseRead (given.getD []) with
  | error code =>
      rw [run_blackboardRead_of_error hparse]
      simp [toolError, ToolResult.code]
  | ok a =>
      by_cases hnamed : namesParticipant (given.getD []) = true
      · rcases run_blackboardRead_of_named hparse hnamed hauth w with h | h
        · rw [h]
          simp [toolError, ToolResult.code, hnamed]
        · rw [h]
          simp [toolError, ToolResult.code, hnamed]
      · have hunnamed : namesParticipant (given.getD []) = false := by simpa using hnamed
        rw [run_blackboardRead_of_unnamed hparse hunnamed hauth]
        by_cases hpublic : channelIsPublicActive w.db a.channel = true
        · rw [if_pos hpublic]
          refine ⟨fun _ => ⟨a, rfl, hunnamed, hpublic⟩, fun _ => rfl⟩
        · rw [if_neg hpublic]
          constructor
          · intro h
            exact absurd h (by simp [toolError, ToolResult.code])
          · rintro ⟨b, hb, -, hopen⟩
            cases hb
            exact absurd hopen hpublic

/-- **Exactly on the mistyped public read** the preflight and the read part. -/
theorem preflightAgrees_iff
    (hmethod : (object.get "method").bind Json.Value.asStr = some "tools/call") (w : World) :
    PreflightAgrees object w ↔ ¬ MistypedPublicRead object w := by
  have hpreflight := httpToolCallBodyRequiresAuth_eq hmethod
  constructor
  · -- such a read is refused, and would have been answered
    rintro h ⟨arguments, a, hcall, hauth, hkey, hunnamed, hparse, hpublic⟩
    refine h.refused ?_ ((read_succeeds_iff hcall hauth w).mpr ⟨a, hparse, hunnamed, hpublic⟩)
    rw [hpreflight, hcall]
    have hrequires := (@run_readRequiresAuth_iff (some arguments) w).mpr (Or.inl hkey)
    simpa [namedToolRequiresAuth, hauth, authenticatedTools] using hrequires
  · intro hnone
    constructor
    · intro hrequires
      rw [hpreflight] at hrequires
      cases hcall : toolCall object with
      | error code =>
          rw [hcall] at hrequires
          exact absurd hrequires (by simp)
      | ok call =>
          obtain ⟨name, given⟩ := call
          rw [hcall] at hrequires
          dsimp only [namedToolRequiresAuth] at hrequires
          by_cases hauth : given.any (Json.Object.containsKey · "auth") = true
          · rw [if_pos hauth] at hrequires
            exact absurd hrequires (by simp)
          · rw [if_neg hauth] at hrequires
            have hsigned : Json.Object.containsKey (given.getD []) "auth" = false := by
              rw [← containsKey_getD]
              simpa using hauth
            by_cases hname : authenticatedTools.contains name = true
            · exact not_succeeds_of_authenticated hcall hname hsigned w
            · rw [if_neg hname] at hrequires
              by_cases hread : name = "blackboard_read"
              · subst hread
                rw [if_pos rfl] at hrequires
                rw [read_succeeds_iff hcall hsigned]
                rintro ⟨a, hparse, hunnamed, hpublic⟩
                rcases (run_readRequiresAuth_iff w).mp hrequires with
                  hkey | ⟨channel, hchannel, -, hclosed⟩
                · cases given with
                  | none => exact absurd hkey (by decide)
                  | some arguments =>
                      exact hnone ⟨arguments, a, hcall, hsigned, hkey, hunnamed, hparse, hpublic⟩
                · -- both look at the same channel
                  have hsame := (parseRead_channel hparse).1
                  rw [hchannel] at hsame
                  rw [← Option.some.inj hsame, hclosed] at hpublic
                  exact Bool.noConfusion hpublic
              · rw [if_neg hread] at hrequires
                exact absurd hrequires (by simp)
    · intro arguments channel hcall hchannel hname hkey hauth hpasses result hresult
      rw [hpreflight, hcall] at hpasses
      have hpasses' : ((readRequiresAuth (some arguments)).run w).1 = false := by
        simpa [namedToolRequiresAuth, hauth, authenticatedTools] using hpasses
      have hpublic : channelIsPublicActive w.db channel = true := by
        by_contra hclosed
        have hrequires := (@run_readRequiresAuth_iff (some arguments) w).mpr
          (Or.inr ⟨channel, hchannel, hname, by simpa using hclosed⟩)
        rw [hpasses'] at hrequires
        exact Bool.noConfusion hrequires
      rw [toolCallResult_of_read hcall] at hresult
      cases hresult
      dsimp only [Option.getD_some]
      cases hparse : parseRead arguments with
      | error code =>
          rw [run_blackboardRead_of_error hparse]
          intro hcode
          exact parseRead_code hparse (Option.some.inj hcode)
      | ok a =>
          have hunnamed : namesParticipant arguments = false := by
            simp [namesParticipant, get_eq_none_of_containsKey hkey]
          have hsame := (parseRead_channel hparse).1
          rw [hchannel] at hsame
          rw [run_blackboardRead_of_unnamed hparse hunnamed hauth,
            if_pos (by rw [← Option.some.inj hsame]; exact hpublic)]
          intro hcode
          exact absurd hcode (by simp [listPage, Program.run_bind, ToolResult.code])

end Agreement

/-! ## A participant that is null -/

section Sample

attribute [local instance] sampleSha256 sampleHmac sampleBase64Url

private def openGeneral : World :=
  ⟨stateAfter [⟨0, .channel (.create "general" "public" none)⟩], 0⟩

private def readBody (arguments : Json.Object) : Json.Object :=
  [("method", .string "tools/call"),
    ("params", .object [("name", .string "blackboard_read"), ("arguments", .object arguments)])]

private def plainRead : Json.Object := [("channel", .string "general")]

private def nullRead : Json.Object := [("channel", .string "general"), ("participant_id", .null)]

theorem plainRead_agrees : PreflightAgrees (readBody plainRead) openGeneral := by
  refine (preflightAgrees_iff rfl _).mpr ?_
  rintro ⟨arguments, a, hcall, -, hkey, -⟩
  cases hcall
  exact absurd hkey (by decide)

/-- The read would answer; the preflight asks for a token. -/
theorem nullRead_refused : ¬ PreflightAgrees (readBody nullRead) openGeneral := by
  intro h
  have hanswered : Succeeds ((toolCallResult (readBody nullRead) none).run openGeneral).1 :=
    (read_succeeds_iff rfl (by decide) _).mpr ⟨⟨"general", 0, 50⟩, rfl, by decide, by decide +kernel⟩
  exact h.refused (by decide +kernel) hanswered

end Sample

end Mcp

end Blackboard
