import Blackboard.Proof.Requests
import Blackboard.Spec.Guest

/-!
# Guests see the part for everybody

The answer to a guest is a function of the clock and of the part of the store that is for
everybody. Each read route is gone through once: who it takes the reader for does not
depend on the store, the check of the channel and the listing depend on its public part.
-/

namespace Blackboard

open Relational (Table orderBy)
open Concurrent (Program)

/-! ## Sessions -/

section Sessions

/-- What a token says about the kind of its session. -/
def claimedSessionType (value : Json.Value) : Option WebAuth.WebSessionKind :=
  match value.get "session_type" with
  | none => some .humanWeb
  | some value => value.asStr.bind WebAuth.WebSessionKind.parse

/-- What has been checked of a session. -/
theorem sessionClaims_eq_some {value : Json.Value} {token : String} {now : Nat}
    {session : WebAuth.WebSession} (h : WebAuth.sessionClaims value token now = some session) :
    claimedSessionType value = some session.sessionType ∧ now ≤ session.expiresAt
      ∧ (session.sessionType = .guest → session.participantId = WebAuth.guestParticipantId) := by
  have hfinish : ∀ (participantId : String) (expiresAt : Nat) (sessionType : WebAuth.WebSessionKind),
      (if participantId = "" ∨ participantId.utf8ByteSize > 64 ∨ expiresAt < now then none
        else if sessionType = .guest ∧ participantId ≠ WebAuth.guestParticipantId then none
        else some (WebAuth.WebSession.mk participantId sessionType expiresAt token)) = some session →
      session.sessionType = sessionType ∧ now ≤ session.expiresAt
        ∧ (session.sessionType = .guest → session.participantId = WebAuth.guestParticipantId) := by
    intro participantId expiresAt sessionType h
    split at h
    · exact absurd h (by simp)
    · rename_i hfields
      split at h
      · exact absurd h (by simp)
      · rename_i hguest
        push Not at hfields hguest
        rw [← Option.some.inj h]
        exact ⟨rfl, hfields.2.2, hguest⟩
  unfold WebAuth.sessionClaims at h
  obtain ⟨_, -, h⟩ := Option.bind_eq_some_iff.mp h
  obtain ⟨version, -, h⟩ := Option.bind_eq_some_iff.mp h
  obtain ⟨_, -, h⟩ := Option.bind_eq_some_iff.mp h
  obtain ⟨purpose, -, h⟩ := Option.bind_eq_some_iff.mp h
  dsimp only at h
  by_cases hpurpose : version ≠ WebAuth.webSessionPrefix ∨ purpose ≠ WebAuth.webSessionPurpose
  · rw [if_pos hpurpose] at h
    exact absurd h (by simp)
  · rw [if_neg hpurpose] at h
    obtain ⟨_, -, h⟩ := Option.bind_eq_some_iff.mp h
    obtain ⟨participantId, -, h⟩ := Option.bind_eq_some_iff.mp h
    obtain ⟨_, -, h⟩ := Option.bind_eq_some_iff.mp h
    obtain ⟨expiresAt, -, h⟩ := Option.bind_eq_some_iff.mp h
    unfold claimedSessionType
    cases htype : value.get "session_type" with
    | none =>
        rw [htype] at h
        obtain ⟨hkind, hrest⟩ := hfinish participantId expiresAt .humanWeb h
        refine ⟨?_, hrest⟩
        rw [hkind]
    | some member =>
        rw [htype] at h
        obtain ⟨sessionType, hparse, h⟩ := Option.bind_eq_some_iff.mp h
        obtain ⟨hkind, hrest⟩ := hfinish participantId expiresAt sessionType h
        refine ⟨?_, hrest⟩
        rw [hkind]
        exact hparse

variable [Hmac] [Base64Url] [JsonParser]

/-- The clock decides whether a token is good, not what it claims. -/
theorem verifyWebSessionAt_claims (key : Bytes) (token : String) :
    ∃ claims : Option Json.Value, ∀ now, WebAuth.verifyWebSessionAt key token now
      = claims.bind fun value => WebAuth.sessionClaims value token now := by
  unfold WebAuth.verifyWebSessionAt
  split
  · split
    · exact ⟨none, fun _ => rfl⟩
    · split
      · split
        · exact ⟨_, fun _ => rfl⟩
        · exact ⟨none, fun _ => rfl⟩
      · exact ⟨none, fun _ => rfl⟩
  · exact ⟨none, fun _ => rfl⟩

theorem sessionType_of_verified {key : Bytes} {token : String} {now now' : Nat}
    {session session' : WebAuth.WebSession}
    (h : WebAuth.verifyWebSessionAt key token now = some session)
    (h' : WebAuth.verifyWebSessionAt key token now' = some session') :
    session'.sessionType = session.sessionType := by
  obtain ⟨claims, hclaims⟩ := verifyWebSessionAt_claims key token
  rw [hclaims] at h h'
  obtain ⟨value, hvalue, hs⟩ := Option.bind_eq_some_iff.mp h
  obtain ⟨value', hvalue', hs'⟩ := Option.bind_eq_some_iff.mp h'
  obtain rfl := Option.some.inj (hvalue.symm.trans hvalue')
  exact Option.some.inj ((sessionClaims_eq_some hs').1.symm.trans (sessionClaims_eq_some hs).1)

end Sessions

/-! ## Who a guest is taken for -/

section Headers

variable {headers : Headers} {name : String}

theorem text_of_containsKey_false (h : headers.containsKey name = false) :
    headers.text name = none := by
  have hget : headers.get name = none := by simpa [Headers.containsKey] using h
  simp [Headers.text, Headers.toStr, hget]

theorem containsKey_of_text {value : String} (h : headers.text name = some value) :
    headers.containsKey name = true := by
  cases hc : headers.containsKey name with
  | true => rfl
  | false =>
      rw [text_of_containsKey_false hc] at h
      exact absurd h (by simp)

theorem bearerToken_of_containsKey_false (h : headers.containsKey "authorization" = false) :
    headers.bearerToken = none := by
  have hget : headers.get "authorization" = none := by simpa [Headers.containsKey] using h
  simp [Headers.bearerToken, Headers.toStr, hget]

end Headers

section Guests

variable [Hmac] [Base64Url] [JsonParser] {key : Bytes} {headers : Headers}

/-- A guest's headers make a guest or nobody. -/
theorem sessionType_of_guest (h : headers.OfGuest key) {now : Int} {session : WebAuth.WebSession}
    (hs : sessionAt key headers now = some session) : session.sessionType = .guest := by
  obtain ⟨token, htoken, hverify⟩ := Option.bind_eq_some_iff.mp hs
  rcases h with ⟨token', now', session', htoken', hverify', hguest⟩ | h
  · obtain rfl := Option.some.inj (htoken.symm.trans htoken')
    rw [sessionType_of_verified hverify' hverify]
    exact hguest
  · have hnone := text_of_containsKey_false h.session
    rw [htoken] at hnone
    exact absurd hnone (by simp)

variable [Sha256]

/-- Nobody stands behind a guest's headers when the session is not good. -/
theorem run_resolveRequestIdentityForTarget_of_guest (h : headers.OfGuest key) {w : World}
    (hs : sessionAt key headers w.now = none) (method requestTarget : String) :
    (RequestAuth.resolveRequestIdentityForTarget key headers method requestTarget).run w
      = (none, w) := by
  unfold RequestAuth.resolveRequestIdentityForTarget
  rcases h with ⟨token, -, -, htoken, -, -⟩ | h
  · have hsession := containsKey_of_text htoken
    by_cases hproof : headers.containsKey RequestAuth.authProofHeader = true
        ∨ headers.containsKey RequestAuth.authSchemeHeader = true
    · rw [if_neg (not_not.mpr hproof), if_pos hsession]
      rfl
    · rw [if_pos hproof]
      unfold RequestAuth.resolveRequestIdentity
      rw [if_pos hsession, Program.run_bind, run_verifiedWebSession, hs]
      rfl
  · rw [if_pos (by simp [h.proof, h.scheme])]
    unfold RequestAuth.resolveRequestIdentity
    rw [if_neg (by simp [h.session]), if_neg (by simp [h.participantId, h.proof, h.scheme]),
      bearerToken_of_containsKey_false h.bearer]
    rfl

/-- How far a guest's headers get it. -/
def guestAccess (key : Bytes) (headers : Headers) (now : Int) : Except ApiError Http.ReadAccess :=
  if (sessionAt key headers now).isSome then .ok .guest else .error .unauthorized

theorem run_requireReadAccessForTarget_of_guest (h : headers.OfGuest key) (w : World)
    (method requestTarget : String) :
    (Http.requireReadAccessForTarget key headers method requestTarget).run w
      = (guestAccess key headers w.now, w) := by
  unfold Http.requireReadAccessForTarget guestAccess
  rw [Program.run_bind, run_verifiedWebSession]
  cases hs : sessionAt key headers w.now with
  | none =>
      dsimp only
      rw [Program.run_bind, run_resolveRequestIdentityForTarget_of_guest h hs]
      rfl
  | some session =>
      have hguest := sessionType_of_guest h hs
      dsimp only
      rw [hguest]
      rfl

end Guests

/-! ## The part for everybody -/

theorem channelIsPublicActive_iff {db : Database} {channel : String} :
    channelIsPublicActive db channel = true
      ↔ ∃ row ∈ db.channels, row.IsPublic ∧ row.name = channel := by
  unfold channelIsPublicActive channelMetadata
  constructor
  · intro h
    cases hfind : db.channels.find channel with
    | none =>
        rw [hfind] at h
        exact absurd h (by simp)
    | some row =>
        rw [hfind] at h
        have hpublic : row.IsPublic := of_decide_eq_true h
        exact ⟨row, Table.mem_of_find hfind, hpublic, Table.key_of_find hfind⟩
  · intro ⟨row, hrow, hpublic, hname⟩
    rw [← hname, Table.find_of_mem hrow]
    exact decide_eq_true hpublic

/-- What the directory selects for a guest is public. -/
theorem public_of_selected {row : Channel} {q : Bool}
    (h : ((!true || decide (row.visibility = "public" ∧ row.status = activeStatus)) && q) = true) :
    row.IsPublic := by
  rw [Bool.and_eq_true, Bool.or_eq_true] at h
  rcases h.1 with hfalse | hpublic
  · exact absurd hfalse (by simp)
  · exact of_decide_eq_true hpublic

section Public

variable {db db' : Database} (h : db.guestView = db'.guestView)

include h

theorem mem_channels_iff {row : Channel} (hrow : row.IsPublic) :
    row ∈ db.channels ↔ row ∈ db'.channels := by
  have hmem : row ∈ db.guestView.channels ↔ row ∈ db'.guestView.channels := by rw [h]
  constructor
  · intro hin
    exact (hmem.mp ⟨hin, hrow⟩).1
  · intro hin
    exact (hmem.mpr ⟨hin, hrow⟩).1

theorem channelIsPublicActive_congr (channel : String) :
    channelIsPublicActive db channel = channelIsPublicActive db' channel := by
  rw [Bool.eq_iff_iff, channelIsPublicActive_iff, channelIsPublicActive_iff]
  constructor
  · intro ⟨row, hrow, hpublic, hname⟩
    exact ⟨row, (mem_channels_iff h hpublic).mp hrow, hpublic, hname⟩
  · intro ⟨row, hrow, hpublic, hname⟩
    exact ⟨row, (mem_channels_iff h hpublic).mpr hrow, hpublic, hname⟩

section Channel

variable {channel : String} (hpublic : channelIsPublicActive db channel = true)

include hpublic

theorem mem_messages_iff {m : Message} (hm : m.channel = channel) :
    m ∈ db.messages ↔ m ∈ db'.messages := by
  have hview : m ∈ db.guestView.messages ↔ m ∈ db'.guestView.messages := by rw [h]
  have hpublic' := (channelIsPublicActive_congr h channel).symm.trans hpublic
  rw [← hm, channelIsPublicActive_iff] at hpublic hpublic'
  constructor
  · intro hin
    exact (hview.mp ⟨hin, hpublic⟩).1
  · intro hin
    exact (hview.mpr ⟨hin, hpublic'⟩).1

/-- Selecting messages of the channel selects the same in both stores. -/
theorem selected_messages_iff (p : Message → Bool) (m : Message) :
    m ∈ db.messages ∧ (decide (m.channel = channel) && p m) = true
      ↔ m ∈ db'.messages ∧ (decide (m.channel = channel) && p m) = true := by
  constructor
  · intro ⟨hin, hsel⟩
    have hm : m.channel = channel := by
      rw [Bool.and_eq_true, decide_eq_true_eq] at hsel
      exact hsel.1
    exact ⟨(mem_messages_iff h hpublic hm).mp hin, hsel⟩
  · intro ⟨hin, hsel⟩
    have hm : m.channel = channel := by
      rw [Bool.and_eq_true, decide_eq_true_eq] at hsel
      exact hsel.1
    exact ⟨(mem_messages_iff h hpublic hm).mpr hin, hsel⟩

theorem listMessagesAfter_congr (after : Int) (limit : Nat) :
    listMessagesAfter db after (some channel) limit
      = listMessagesAfter db' after (some channel) limit := by
  unfold listMessagesAfter
  congr 1
  refine Relational.orderBy_filter_eq (fun a b => Int.le_total a.id b.id)
    (fun a b c => Int.le_trans) (fun a b => Int.le_antisymm) fun m => ?_
  exact selected_messages_iff h hpublic (fun m => decide (m.id > after)) m

theorem listMessageWindow_congr (order : History.MessageOrder) (before after : Option Int)
    (limit : Nat) :
    History.listMessageWindow db channel order before after limit
      = History.listMessageWindow db' channel order before after limit := by
  unfold History.listMessageWindow
  cases order with
  | desc =>
      dsimp only
      congr 1
      refine Relational.orderBy_filter_eq (fun a b => Int.le_total b.id a.id)
        (fun a b c hab hbc => Int.le_trans hbc hab) (fun a b hab hba => Int.le_antisymm hba hab)
        fun m => ?_
      exact selected_messages_iff h hpublic
        (fun m => before.all fun before => decide (m.id < before)) m
  | asc =>
      dsimp only
      congr 1
      refine Relational.orderBy_filter_eq (fun a b => Int.le_total a.id b.id)
        (fun a b c => Int.le_trans) (fun a b => Int.le_antisymm) fun m => ?_
      exact selected_messages_iff h hpublic
        (fun m => after.all fun after => decide (m.id > after)) m

theorem any_messages_congr (p : Message → Prop) [DecidablePred p] :
    (db.messages.rows.any fun m => decide (m.channel = channel ∧ p m))
      = db'.messages.rows.any fun m => decide (m.channel = channel ∧ p m) := by
  rw [Bool.eq_iff_iff, List.any_eq_true, List.any_eq_true]
  constructor
  · intro ⟨m, hm, hp⟩
    have hchannel := (of_decide_eq_true hp).1
    exact ⟨m, (mem_messages_iff h hpublic hchannel).mp hm, hp⟩
  · intro ⟨m, hm, hp⟩
    have hchannel := (of_decide_eq_true hp).1
    exact ⟨m, (mem_messages_iff h hpublic hchannel).mpr hm, hp⟩

theorem hasMore_congr (order : History.MessageOrder) (id : Int) :
    History.hasMore db channel order id = History.hasMore db' channel order id := by
  cases order with
  | desc => exact any_messages_congr h hpublic fun m => m.id < id
  | asc => exact any_messages_congr h hpublic fun m => m.id > id

end Channel

theorem channelSummary_congr {row : Channel} (hrow : row ∈ db.channels) (hpublic : row.IsPublic) :
    channelSummary db row = channelSummary db' row := by
  have hactive : channelIsPublicActive db row.name = true :=
    channelIsPublicActive_iff.mpr ⟨row, hrow, hpublic, rfl⟩
  have hperm : ((db.messages.rows.filter fun m => decide (m.channel = row.name)).map Message.id).Perm
      ((db'.messages.rows.filter fun m => decide (m.channel = row.name)).map Message.id) := by
    refine List.Perm.map _ (Relational.filter_perm fun m => ?_)
    have hsel := selected_messages_iff h hactive (fun _ => true) m
    simpa using hsel
  unfold channelSummary
  dsimp only
  rw [hperm.length_eq, Relational.max?_of_perm hperm]

theorem readChannelDirectoryRows_congr (afterName : Option String) (fetchLimit : Nat) :
    readChannelDirectoryRows db true afterName fetchLimit
      = readChannelDirectoryRows db' true afterName fetchLimit := by
  have hrows : orderBy (fun a b : Channel => a.name ≤ b.name)
        (db.channels.rows.filter fun row =>
          (!true || decide (row.visibility = "public" ∧ row.status = activeStatus))
            && afterName.all fun after => decide (row.name > after))
      = orderBy (fun a b : Channel => a.name ≤ b.name)
        (db'.channels.rows.filter fun row =>
          (!true || decide (row.visibility = "public" ∧ row.status = activeStatus))
            && afterName.all fun after => decide (row.name > after)) := by
    refine Relational.orderBy_filter_eq (fun a b => String.le_total a.name b.name)
      (fun a b c => String.le_trans) (fun a b => String.le_antisymm) fun row => ?_
    constructor
    · intro ⟨hrow, hsel⟩
      have hpublic : row.IsPublic := public_of_selected hsel
      exact ⟨(mem_channels_iff h hpublic).mp hrow, hsel⟩
    · intro ⟨hrow, hsel⟩
      have hpublic : row.IsPublic := public_of_selected hsel
      exact ⟨(mem_channels_iff h hpublic).mpr hrow, hsel⟩
  unfold readChannelDirectoryRows
  rw [hrows]
  refine List.map_congr_left fun row hrow => ?_
  have hsel := Relational.mem_orderBy.mp (List.mem_of_mem_take hrow)
  obtain ⟨hin, hpub⟩ := List.mem_filter.mp hsel
  have hpublic : row.IsPublic := public_of_selected hpub
  exact channelSummary_congr h ((mem_channels_iff h hpublic).mpr hin) hpublic

theorem readChannelDirectoryWindow_congr (afterName : Option String) (limit : Option Nat) :
    readChannelDirectoryWindow db ⟨afterName, limit, true⟩
      = readChannelDirectoryWindow db' ⟨afterName, limit, true⟩ := by
  unfold readChannelDirectoryWindow
  simp only [readChannelDirectoryRows_congr h]

end Public

/-! ## The routes -/

/-- The same clock and the same part for everybody. -/
structure SameGuestView (w w' : World) : Prop where
  now : w.now = w'.now
  view : w.db.guestView = w'.db.guestView

section Routes

theorem readsAlike_query {α : Type} {w w' : World} {q : Database → α} (hq : q w.db = q w'.db) :
    (query q).ReadsAlike w w' := Program.readsAlike_read hq

variable {w w' : World} (h : SameGuestView w w')

include h

/-- The check of a channel, and what the reader gets if it is for everybody. -/
theorem readsAlike_ifPublic {channel : String} {p q : Program World Response}
    (hp : channelIsPublicActive w.db channel = true → p.ReadsAlike w w') (hq : q.ReadsAlike w w') :
    (query (fun db => channelIsPublicActive db channel) >>= fun isPublic =>
      if isPublic = true then p else q).ReadsAlike w w' := by
  refine (readsAlike_query (channelIsPublicActive_congr h.view channel)).bind ?_
  rw [run_query]
  by_cases hpublic : channelIsPublicActive w.db channel = true
  · rw [if_pos hpublic]
    exact hp hpublic
  · rw [if_neg hpublic]
    exact hq

theorem readsAlike_navigationRead (channel : String) (query' : Http.Query) :
    (Http.navigationRead channel query').ReadsAlike w w' := by
  unfold Http.navigationRead
  split
  · exact Program.readsAlike_done _
  · split
    · refine readsAlike_ifPublic h (fun hpublic => ?_) (Program.readsAlike_done _)
      refine (readsAlike_query (listMessagesAfter_congr h.view hpublic _ _)).bind ?_
      exact Program.readsAlike_done _
    · exact Program.readsAlike_done _

theorem readsAlike_readWindow {channel : String}
    (hpublic : channelIsPublicActive w.db channel = true) (order : History.MessageOrder)
    (before after : Option Int) (limit : Nat) :
    (History.readWindow channel order before after limit).ReadsAlike w w' := by
  unfold History.readWindow
  refine (readsAlike_query
    (listMessageWindow_congr h.view hpublic order before after limit)).bind ?_
  split
  · rename_i last _
    refine (readsAlike_query (hasMore_congr h.view hpublic order last.id)).bind ?_
    exact Program.readsAlike_done _
  · exact Program.readsAlike_done _

section Sessions

variable [Sha256] [Hmac] [Base64Url] [JsonParser] {key : Bytes} {headers : Headers}
  (hguest : headers.OfGuest key)

omit [Sha256] in
theorem readsAlike_verifiedWebSession :
    (RequestAuth.verifiedWebSession key headers).ReadsAlike w w' := by
  refine ⟨?_, ?_, ?_⟩
  · rw [run_verifiedWebSession, run_verifiedWebSession, h.now]
  · rw [run_verifiedWebSession]
  · rw [run_verifiedWebSession]

include hguest

theorem readsAlike_requireReadAccessForTarget (method requestTarget : String) :
    (Http.requireReadAccessForTarget key headers method requestTarget).ReadsAlike w w' := by
  have hrun := run_requireReadAccessForTarget_of_guest hguest
  refine ⟨?_, ?_, ?_⟩
  · rw [hrun, hrun, h.now]
  · rw [hrun]
  · rw [hrun]

theorem readsAlike_messages (requestTarget : String) (query' : Http.Query) :
    (Http.messages key headers requestTarget query').ReadsAlike w w' := by
  unfold Http.messages
  refine (readsAlike_requireReadAccessForTarget h hguest "GET" requestTarget).bind ?_
  rw [run_requireReadAccessForTarget_of_guest hguest]
  unfold guestAccess
  by_cases hsession : (sessionAt key headers w.now).isSome = true
  · rw [if_pos hsession]
    dsimp only
    cases Http.parseMessages query' with
    | error e => exact Program.readsAlike_done _
    | ok q =>
        obtain ⟨after, limit, channel⟩ := q
        cases channel with
        | none => exact Program.readsAlike_done _
        | some channel =>
            refine readsAlike_ifPublic h (fun hpublic => ?_) (Program.readsAlike_done _)
            refine (readsAlike_query (listMessagesAfter_congr h.view hpublic after limit)).bind ?_
            exact Program.readsAlike_done _
  · rw [if_neg hsession]
    exact Program.readsAlike_done _

theorem readsAlike_channels (requestTarget : String) (query' : Http.Query) :
    (Http.channels key headers requestTarget query').ReadsAlike w w' := by
  unfold Http.channels
  refine (readsAlike_requireReadAccessForTarget h hguest "GET" requestTarget).bind ?_
  rw [run_requireReadAccessForTarget_of_guest hguest]
  unfold guestAccess
  by_cases hsession : (sessionAt key headers w.now).isSome = true
  · rw [if_pos hsession]
    dsimp only
    split
    · exact Program.readsAlike_done _
    · exact Program.readsAlike_done _
    · refine (readsAlike_query (readChannelDirectoryWindow_congr h.view _ _)).bind ?_
      exact Program.readsAlike_done _
  · rw [if_neg hsession]
    exact Program.readsAlike_done _

theorem readsAlike_messageWindow (requestTarget : String) (q : History.MessageWindowQuery) :
    (History.messageWindow key headers requestTarget q).ReadsAlike w w' := by
  unfold History.messageWindow
  cases History.parseWindow q with
  | error e => exact Program.readsAlike_done _
  | ok window =>
      obtain ⟨order, limit⟩ := window
      refine (readsAlike_verifiedWebSession h).bind ?_
      rw [run_verifiedWebSession]
      cases hs : sessionAt key headers w.now with
      | some session =>
          have hsome : (some session).any (fun session => decide (session.sessionType = .guest))
              = true := decide_eq_true (sessionType_of_guest hguest hs)
          rw [if_pos hsome]
          refine readsAlike_ifPublic h (fun hpublic => ?_) (Program.readsAlike_done _)
          refine (readsAlike_readWindow h hpublic order q.before q.after limit).bind ?_
          exact Program.readsAlike_done _
      | none =>
          have hs' : sessionAt key headers w'.now = none := by rw [← h.now, hs]
          have hnone := run_resolveRequestIdentityForTarget_of_guest hguest hs "GET" requestTarget
          have hnone' := run_resolveRequestIdentityForTarget_of_guest hguest hs' "GET" requestTarget
          have hresolve : (RequestAuth.resolveRequestIdentityForTarget key headers "GET"
              requestTarget).ReadsAlike w w' := ⟨by rw [hnone, hnone'], by rw [hnone], by rw [hnone']⟩
          rw [if_neg (by simp)]
          refine hresolve.bind ?_
          rw [hnone]
          exact Program.readsAlike_done _

end Sessions

/-! ## Calls without a name -/

section Calls

variable {headers : Headers} {arguments : Json.Object}
  (hbearer : headers.containsKey "authorization" = false)
  (hparticipant : arguments.containsKey "participant_id" = false)
  (hauth : arguments.containsKey "auth" = false)

theorem readsAlike_listPage {a : Mcp.ReadArguments}
    (hpublic : channelIsPublicActive w.db a.channel = true) :
    (Mcp.listPage a).ReadsAlike w w' :=
  (readsAlike_query (listMessagesAfter_congr h.view hpublic a.after a.limit)).bind
    (Program.readsAlike_done _)

variable [Sha256] [Hmac] [Base64Url]

include hparticipant hauth

omit [Sha256] in
theorem readsAlike_blackboardRead : (Mcp.blackboardRead arguments none).ReadsAlike w w' := by
  unfold Mcp.blackboardRead
  cases Mcp.parseRead arguments with
  | error code => exact Program.readsAlike_done _
  | ok a =>
      have hnone : arguments.get "participant_id" = none := by
        simpa [Json.Object.containsKey] using hparticipant
      dsimp only
      rw [hnone, if_neg (by simp [hauth])]
      exact readsAlike_ifPublic h (readsAlike_listPage h) (Program.readsAlike_done _)

omit [Sha256] [Hmac] [Base64Url] in
theorem readsAlike_httpToolCallRequiresAuth :
    (Mcp.httpToolCallRequiresAuth .blackboardRead arguments).ReadsAlike w w' := by
  unfold Mcp.httpToolCallRequiresAuth
  rw [if_neg (by simp [hauth])]
  dsimp only
  rw [if_neg (by simp [hparticipant])]
  split
  · exact Program.readsAlike_done _
  · refine readsAlike_query ?_
    rw [channelIsPublicActive_congr h.view]

variable [JsonParser] [Jwt]

include hbearer

omit [JsonParser] in
theorem readsAlike_mcpPost (verifier : Option OidcVerifier) :
    (Mcp.mcpPost verifier headers .blackboardRead arguments).ReadsAlike w w' := by
  unfold Mcp.mcpPost Mcp.resolveHttpBearerPrincipal
  rw [if_pos hbearer]
  refine Program.ReadsAlike.bind (Program.readsAlike_done _) ?_
  dsimp only [Program.run_done]
  have hgate : (if verifier.isSome = true ∧ (none : Option Principal).isNone = true then
      Mcp.httpToolCallRequiresAuth .blackboardRead arguments else .done false).ReadsAlike w w' := by
    split
    · exact readsAlike_httpToolCallRequiresAuth h hparticipant hauth
    · exact Program.readsAlike_done _
  refine hgate.bind ?_
  generalize (Program.run _ w).1 = refuse
  cases refuse with
  | true => exact Program.readsAlike_done _
  | false => exact readsAlike_blackboardRead h hparticipant hauth

end Calls

end Routes

/-! ## Noninterference -/

section Server

variable [Sha256] [Hmac] [Base64Url] [JsonParser] [Jwt]

theorem readsAlike_of_guestRead {settings : Settings} {r : Request}
    (hr : r.GuestRead settings.sessionKey) {w w' : World} (h : SameGuestView w w') :
    (serve settings r).ReadsAlike w w' := by
  cases r with
  | navigationRead channel query' => exact readsAlike_navigationRead h channel query'
  | messages headers requestTarget query' => exact readsAlike_messages h hr requestTarget query'
  | channels headers requestTarget query' => exact readsAlike_channels h hr requestTarget query'
  | messageWindow headers requestTarget q => exact readsAlike_messageWindow h hr requestTarget q
  | mcp headers tool arguments =>
      obtain ⟨rfl, hbearer, hparticipant, hauth⟩ := hr
      exact readsAlike_mcpPost h hbearer hparticipant hauth settings.oidcVerifier
  | _ => exact False.elim hr

omit [Sha256] [Hmac] [Base64Url] [JsonParser] [Jwt] in
/-- A channel that is not for everybody is no part of what guests see. -/
theorem guestView_without {db : Database} {channel : String}
    (h : channelIsPublicActive db channel = false) :
    db.guestView = (db.without channel).guestView := by
  have hname : ∀ row ∈ db.channels, row.IsPublic → row.name ≠ channel := by
    intro row hrow hpublic hname
    have hshown := channelIsPublicActive_iff.mpr ⟨row, hrow, hpublic, hname⟩
    rw [h] at hshown
    exact absurd hshown (by simp)
  have hkept : ∀ row : Channel, row.IsPublic →
      (row ∈ db.channels ↔ row ∈ (db.without channel).channels) := by
    intro row hpublic
    constructor
    · intro hrow
      exact Table.mem_keep.mpr ⟨hrow, decide_eq_true (hname row hrow hpublic)⟩
    · intro hrow
      exact (Table.mem_keep.mp hrow).1
  unfold Database.guestView
  congr 1
  · ext row
    constructor
    · intro ⟨hrow, hpublic⟩
      exact ⟨(hkept row hpublic).mp hrow, hpublic⟩
    · intro ⟨hrow, hpublic⟩
      exact ⟨(hkept row hpublic).mpr hrow, hpublic⟩
  · ext m
    constructor
    · intro ⟨hm, row, hrow, hpublic, hchannel⟩
      have hm' : m.channel ≠ channel := hchannel ▸ hname row hrow hpublic
      exact ⟨Table.mem_keep.mpr ⟨hm, decide_eq_true hm'⟩, row, (hkept row hpublic).mp hrow,
        hpublic, hchannel⟩
    · intro ⟨hm, row, hrow, hpublic, hchannel⟩
      exact ⟨(Table.mem_keep.mp hm).1, row, (hkept row hpublic).mpr hrow, hpublic, hchannel⟩

/-- What a guest can learn. -/
structure GuestNoninterference (settings : Settings) : Prop where
  /-- Stores with the same part for everybody give a guest the same answer. -/
  sameView : ∀ r w w', r.GuestRead settings.sessionKey → SameGuestView w w' →
    ((serve settings r).run w).1 = ((serve settings r).run w').1
  /-- A channel that is private or archived is answered for as if it did not exist. -/
  hidden : ∀ r w channel, r.GuestRead settings.sessionKey →
    channelIsPublicActive w.db channel = false →
    ((serve settings r).run w).1 = ((serve settings r).run { w with db := w.db.without channel }).1
  /-- Reading leaves the store as it is. -/
  unchanged : ∀ r w, r.GuestRead settings.sessionKey → ((serve settings r).run w).2 = w

/-- **Guests learn nothing but the part for everybody.** -/
theorem guest_noninterference (settings : Settings) : GuestNoninterference settings := by
  refine ⟨fun r w w' hr h => ?_, fun r w channel hr hhidden => ?_, fun r w hr => ?_⟩
  · exact (readsAlike_of_guestRead hr h).answer
  · have h : SameGuestView w { w with db := w.db.without channel } :=
      ⟨rfl, guestView_without hhidden⟩
    exact (readsAlike_of_guestRead hr h).answer
  · have h : SameGuestView w w := ⟨rfl, rfl⟩
    exact (readsAlike_of_guestRead hr h).left

end Server

end Blackboard
