import Blackboard.Model.Server

/-!
# What a parsed request has checked

Every route that writes parses its request first. The parsers differ in what they let
through; here is what the parts of a request satisfy once it is parsed.
-/

namespace Blackboard

/-- What was asked for passed its test. -/
theorem test_of_filter {α : Type} {o : Option α} {p : α → Bool} {a : α} (h : o.filter p = some a) :
    p a = true := (Option.filter_eq_some_iff.mp h).2

theorem not_error_bind {ε α β : Type} {e : ε} {f : α → Except ε β} {b : β} :
    (Except.error e >>= f) ≠ .ok b := nofun

/-- What a parsed write of a participant has. -/
structure CheckedWrite (w : Http.WritePayload) : Prop where
  channel : Http.nameRe w.channel = true
  nonce : Http.nonceRe w.nonce = true

namespace Http

theorem messageFields_channel {validName validKind : String → Bool} {object : Json.Object}
    {fields : MessageFields} (h : messageFields validName validKind object = .ok fields) :
    validName fields.channel = true := by
  unfold messageFields at h
  dsimp only [bind, Except.bind] at h
  repeat' split at h
  -- of all ways through the parser only those that end well are left
  all_goals first
    | exact absurd h (by simp)
    | obtain rfl := Except.ok.inj h
      exact test_of_filter ‹Option.filter validName _ = some _›

theorem parseNavigationWrite_checked {participantId : String} {query' : Query}
    {write : SignedWrite} (h : parseNavigationWrite participantId query' = .ok write) :
    CheckedWrite write.payload := by
  unfold parseNavigationWrite at h
  dsimp only [bind, Except.bind] at h
  repeat' split at h
  all_goals first
    | exact absurd h (by simp)
    | obtain rfl := Except.ok.inj h
      exact ⟨test_of_filter ‹Option.filter nameRe _ = some _›,
        test_of_filter ‹Option.filter nonceRe _ = some _›⟩

theorem parseSignedMessage_checked {object : Json.Object} {write : SignedWrite}
    (h : parseSignedMessage object = .ok write) : CheckedWrite write.payload := by
  unfold parseSignedMessage at h
  dsimp only [bind, Except.bind] at h
  repeat' split at h
  all_goals first
    | exact absurd h (by simp)
    | obtain rfl := Except.ok.inj h
      exact ⟨messageFields_channel ‹messageFields nameRe kindRe object = .ok _›,
        test_of_filter ‹Option.filter nonceRe _ = some _›⟩

end Http

theorem Mcp.parseWrite_checked {arguments : Json.Object} {w : Http.WritePayload}
    (h : Mcp.parseWrite arguments = .ok w) : CheckedWrite w := by
  unfold Mcp.parseWrite at h
  -- check by check, as taking all ways apart at once makes too many
  extract_lets afterParticipant afterKeys afterIdentity at h
  split at h
  · exact absurd h not_error_bind
  dsimp -zeta only [afterIdentity] at h
  split at h
  · exact absurd h not_error_bind
  dsimp -zeta only [afterKeys] at h
  obtain ⟨participantId, h⟩ : ∃ participantId, afterParticipant participantId = .ok w := by
    split at h
    · exact ⟨_, h⟩
    · exact absurd h not_error_bind
  dsimp -zeta only [afterParticipant] at h
  extract_lets afterChannel at h
  obtain ⟨channel, hchannel, h⟩ :
      ∃ channel, Http.nameRe channel = true ∧ afterChannel channel = .ok w := by
    split at h
    · exact ⟨_, test_of_filter ‹_›, h⟩
    · exact absurd h not_error_bind
  dsimp -zeta only [afterChannel] at h
  extract_lets afterKind at h
  obtain ⟨kind, h⟩ : ∃ kind, afterKind kind = .ok w := by
    split at h
    · exact ⟨_, h⟩
    · split at h
      · exact ⟨_, h⟩
      · exact absurd h not_error_bind
  dsimp -zeta only [afterKind] at h
  extract_lets afterBody at h
  obtain ⟨body, h⟩ : ∃ body, afterBody body = .ok w := by
    split at h
    · exact ⟨_, h⟩
    · exact absurd h not_error_bind
  dsimp -zeta only [afterBody] at h
  extract_lets afterReplyTo at h
  obtain ⟨replyTo, h⟩ : ∃ replyTo, afterReplyTo replyTo = .ok w := by
    split at h
    · exact ⟨_, h⟩
    · exact ⟨_, h⟩
    · split at h
      · exact ⟨_, h⟩
      · exact absurd h not_error_bind
  dsimp -zeta only [afterReplyTo] at h
  split at h
  · obtain rfl := Except.ok.inj h
    exact ⟨hchannel, test_of_filter ‹_›⟩
  · exact absurd h not_error_bind
theorem Oidc.parseMessage_channel {object : Json.Object} {fields : Http.MessageFields}
    {intentId : String} (h : Oidc.parseMessage object = .ok (fields, intentId)) :
    Oidc.validName fields.channel = true := by
  unfold Oidc.parseMessage at h
  dsimp only [bind, Except.bind] at h
  repeat' split at h
  all_goals first
    | exact absurd h (by simp)
    | obtain ⟨rfl, rfl⟩ := Prod.mk.inj (Except.ok.inj h)
      exact Http.messageFields_channel
        ‹Http.messageFields Oidc.validName Oidc.validKind object = .ok _›

theorem Oidc.parseMessage_intentId {object : Json.Object} {fields : Http.MessageFields}
    {intentId : String} (h : Oidc.parseMessage object = .ok (fields, intentId)) :
    ∃ raw, normalizeIntentId raw = some intentId := by
  unfold Oidc.parseMessage at h
  dsimp only [bind, Except.bind] at h
  repeat' split at h
  all_goals first
    | exact absurd h (by simp)
    | obtain ⟨rfl, rfl⟩ := Prod.mk.inj (Except.ok.inj h)
      obtain ⟨raw, -, hnormal⟩ := Option.bind_eq_some_iff.mp ‹Option.bind _ normalizeIntentId = _›
      exact ⟨raw, hnormal⟩

namespace GithubWebhook

theorem checkIntent_channel {event : GithubIssueEvent} {intent : BlackboardIssueIntent}
    {d : IssueDelivery} (h : checkIntent event intent = some d) : channelRe d.channel = true := by
  unfold checkIntent at h
  dsimp only at h
  split at h
  · exact absurd h (by simp)
  · rename_i hchecks
    split at h
    · exact absurd h (by simp)
    · split at h
      · exact absurd h (by simp)
      · obtain ⟨conversationRef, -, h⟩ := Option.bind_eq_some_iff.mp h
        obtain ⟨intentId, -, h⟩ := Option.bind_eq_some_iff.mp h
        rw [← Option.some.inj h]
        push Not at hchecks
        simpa using hchecks.2.1

theorem parseDelivery_checkIntent [Hmac] [JsonParser] {settings : Settings} {headers : Headers}
    {body : Bytes} {d : IssueDelivery} (h : parseDelivery settings headers body = .ok d) :
    ∃ event intent, (JsonParser.parse body).bind parseEvent = some event
      ∧ checkIntent event intent = some d := by
  unfold parseDelivery at h
  dsimp only [bind, Except.bind] at h
  repeat' split at h
  all_goals first
    | contradiction
    | rename_i event _ _ _ _ _ _ hintent
      obtain ⟨intent, -, hcheck⟩ := Option.bind_eq_some_iff.mp hintent
      rw [← Except.ok.inj h]
      exact ⟨event, intent, ‹_›, hcheck⟩

/-- An issue is delivered under an id of its own, whatever else it says. -/
theorem checkIntent_deliveryId {event : GithubIssueEvent} {intent : BlackboardIssueIntent}
    {d : IssueDelivery} (h : checkIntent event intent = some d) :
    d.deliveryId = githubDeliveryId event.repositoryId event.issue.number := by
  unfold checkIntent at h
  dsimp only at h
  split at h
  · exact absurd h (by simp)
  · split at h
    · exact absurd h (by simp)
    · split at h
      · exact absurd h (by simp)
      · obtain ⟨conversationRef, -, h⟩ := Option.bind_eq_some_iff.mp h
        obtain ⟨intentId, -, h⟩ := Option.bind_eq_some_iff.mp h
        rw [← Option.some.inj h]

theorem parseDelivery_deliveryId [Hmac] [JsonParser] {settings : Settings} {headers : Headers}
    {body : Bytes} {d : IssueDelivery} {event : GithubIssueEvent}
    (h : parseDelivery settings headers body = .ok d)
    (hevent : (JsonParser.parse body).bind parseEvent = some event) :
    d.deliveryId = githubDeliveryId event.repositoryId event.issue.number := by
  obtain ⟨event', intent, hevent', hcheck⟩ := parseDelivery_checkIntent h
  obtain rfl := Option.some.inj (hevent'.symm.trans hevent)
  exact checkIntent_deliveryId hcheck

end GithubWebhook

end Blackboard
