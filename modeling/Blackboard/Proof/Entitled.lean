import Blackboard.Proof.Authentic

/-!
# Who may change the board itself

Grants, channels and accounts are not for everybody to change. A grant changes at the
machine, or for a caller who is known by a session or a token and whom the kernel allows
to manage the policy at the very moment; then it is in the log under that caller's name. A
channel that exists changes at the machine or for a human administrator. Accounts change
at the machine; all that a stranger can do to one is to fail to log in.
-/

namespace Blackboard

open Relational (Table)

/-! ## Grants -/

section Names

variable [Sha256] [Hmac] [Base64Url]

omit [Sha256] [Hmac] [Base64Url] in
theorem CredentialsEdited.namesTrimmed {db db' : Database} (h : CredentialsEdited db db')
    (hnames : NamesTrimmed db) : NamesTrimmed db' := by
  have hfind := @h.find
  rw [h.frame] at hfind ⊢
  refine ⟨hnames.durable, fun p' hp' => ?_⟩
  obtain ⟨p, hp, heq⟩ := hfind (Table.find_of_mem hp')
  have hid : p'.withoutCredentials.participantId = p.withoutCredentials.participantId := by
    rw [heq]
  rw [show p'.participantId = p.participantId from hid]
  exact hnames.participants p (Table.mem_of_find hp)

/-- **Names stay trimmed**, whatever the effect. -/
theorem Effect.namesTrimmed (e : Effect) (w : World) (hi : LogInv w.db)
    (h : NamesTrimmed w.db) : NamesTrimmed (e.apply w).db := by
  cases hop : e.grantOp with
  | some op =>
      cases e with
      | grant op' => exact (op'.effect hi.grants w.now).namesTrimmed h
      | _ => exact absurd hop (by simp [Effect.grantOp])
  | none =>
      have hdurable := (e.ungranted w hop).durable
      rcases e.cases_participants w with hsame | ⟨_, _, _, rfl⟩ | ⟨op, rfl⟩ | ⟨op, rfl⟩
      · refine ⟨?_, ?_⟩
        · rw [hdurable]
          exact h.durable
        · rw [hsame]
          exact h.participants
      · exact (credentialsEdited_login _ _ _ w.db).namesTrimmed h
      · exact op.namesTrimmed h
      · exact (credentialsEdited_credentialOp op w.db).namesTrimmed h

end Names

section Grants

variable {now : Int} {db : Database} {caller : Principal} {participantId : String}

/-- A caller of the access API, as the log knows it. -/
def remoteCaller (caller : Principal) (participantId : String) : Caller :=
  ⟨AccessApi.adminSurface, caller, participantId⟩

/-- A change of grants the kernel allows the caller to make, recorded under the caller's name. -/
structure ManagedBy (caller : Principal) (participantId : String) (now : Int)
    (db db' : Database) : Prop where
  allowed : ((remoteCaller caller participantId).access.decision now db).allowed = true
  /-- Authority to manage the policy is not delegated. -/
  source : ((remoteCaller caller participantId).access.decision now db).source = .principalGrants
    ∨ ((remoteCaller caller participantId).access.decision now db).source = .implicitAuthority
  recorded : RecordedBy ⟨AccessApi.adminSurface, some caller.provider, some caller.subject,
    some participantId⟩ db db'

theorem Administered.managedBy {db' : Database}
    (h : Administered (remoteCaller caller participantId) now db db') (hnames : NamesTrimmed db) :
    ManagedBy caller participantId now db db' := by
  have hsurface : Text.trim AccessApi.adminSurface = AccessApi.adminSurface := by decide +kernel
  have hactor : (remoteCaller caller participantId).actor
      = ⟨AccessApi.adminSurface, some caller.provider, some caller.subject, some participantId⟩ := by
    rw [h.verbatim hnames]
    show (⟨Text.trim AccessApi.adminSurface, _, _, _⟩ : NormalizedActor) = _
    rw [hsurface]
    rfl
  refine ⟨h.allowed, h.source, ?_⟩
  rw [← hactor]
  exact h.recorded

/-- **A route's operation** changes nothing, or it is the caller's to make. -/
theorem administered_of_route {route : AccessApi.Route} {op : GrantOp}
    (hop : route.grantOp caller participantId = some op) :
    op.apply now db = db
    ∨ Administered (remoteCaller caller participantId) now db (op.apply now db) := by
  cases haccepted : op.accepted now db with
  | false => exact Or.inl (GrantOp.apply_of_rejected haccepted)
  | true =>
      refine Or.inr ?_
      cases route with
      | createDurableAuthorizationGrant body =>
          obtain rfl := Option.some.inj hop
          simp only [GrantOp.accepted, GrantOp.apply, createDurableGrantAuthorized]
            at haccepted ⊢
          -- the actor and the request have been normalized
          split at haccepted
          · exact absurd haccepted (by simp [Except.isOk, Except.toBool])
          · exact absurd haccepted (by simp [Except.isOk, Except.toBool])
          · exact administered_of_body (c := remoteCaller caller participantId)
              (fun _ _ hend => createDurableGrantInTx_recorded hend) haccepted
      | createDelegatedAuthorizationGrant body =>
          obtain rfl := Option.some.inj hop
          simp only [GrantOp.accepted, GrantOp.apply, createDelegatedGrantAuthorized]
            at haccepted ⊢
          split at haccepted
          · exact absurd haccepted (by simp [Except.isOk, Except.toBool])
          · exact absurd haccepted (by simp [Except.isOk, Except.toBool])
          · exact administered_of_body (c := remoteCaller caller participantId)
              (fun _ _ hend => createDelegatedGrantInTx_recorded hend) haccepted
      | deactivateDurableAuthorizationGrant grantId =>
          obtain rfl := Option.some.inj hop
          exact administered_of_body (c := remoteCaller caller participantId)
            (fun _ _ hend => deactivateDurableGrantInTx_recorded hend) haccepted
      | deactivateDelegatedAuthorizationGrant grantId =>
          obtain rfl := Option.some.inj hop
          exact administered_of_body (c := remoteCaller caller participantId)
            (fun _ _ hend => deactivateDelegatedGrantInTx_recorded hend) haccepted
      | _ => exact absurd hop (by simp [AccessApi.Route.grantOp])

end Grants

/-! ## Accounts -/

/-- The same accounts, but for counters, and the same clients. -/
structure SameAccounts (db db' : Database) : Prop where
  participants : ∀ id, (db'.webParticipants.find id).map WebParticipant.withoutCounters
    = (db.webParticipants.find id).map WebParticipant.withoutCounters
  identities : db'.identities = db.identities

theorem SameAccounts.of_eq {db db' : Database} (hp : db'.webParticipants = db.webParticipants)
    (hi : db'.identities = db.identities) : SameAccounts db db' :=
  ⟨fun id => by rw [hp], hi⟩

theorem sameAccounts_update (participantId : String) {set : WebParticipant → WebParticipant}
    (hset : ∀ row, (set row).participantId = row.participantId)
    (h : ∀ row, (set row).withoutCounters = row.withoutCounters) (db : Database) :
    SameAccounts db (updateWebParticipant participantId set hset db) := by
  refine ⟨fun id => ?_, rfl⟩
  simp only [updateWebParticipant, Table.find_update]
  cases db.webParticipants.find id with
  | none => rfl
  | some row =>
      simp only [Option.map_some]
      split
      · rw [h]
      · rfl

/-- **A login changes counters.** -/
theorem sameAccounts_login [Hmac] (participantId code : String) (now : Nat) (db : Database) :
    SameAccounts db (authenticateWebTotp participantId code now db).2 := by
  rcases counted_login participantId code now db with hsame | ⟨set, hset, hcounters, hdb⟩
  · rw [hsame]
    exact .of_eq rfl rfl
  · rw [hdb]
    exact sameAccounts_update participantId hset hcounters db

/-! ## Ordinary changes -/

/-- Channels may be created, active and as visible as their name makes them; none is changed. -/
structure ChannelsAdded (db db' : Database) : Prop where
  kept : ∀ name row, db.channels.find name = some row → db'.channels.find name = some row
  new : ∀ name row, db.channels.find name = none → db'.channels.find name = some row →
    row.visibility = defaultVisibility name ∧ row.status = activeStatus

theorem ChannelsAdded.of_eq {db db' : Database} (h : db'.channels = db.channels) :
    ChannelsAdded db db' := by
  refine ⟨fun name row hrow => ?_, fun name row hnone hrow => ?_⟩
  · rw [h]
    exact hrow
  · rw [h, hnone] at hrow
    exact absurd hrow (by simp)

theorem channelsAdded_of_ensureChannel {db db' : Database} {now : Int} {channel : String}
    {createdBy : Option String}
    (h : db'.channels = (ensureChannel now channel createdBy db).channels) :
    ChannelsAdded db db' := by
  refine ⟨fun name row hrow => ?_, fun name row hnone hrow => ?_⟩
  · rw [h]
    exact find_ensureChannel_of_some hrow
  · rw [h, find_ensureChannel, hnone, Option.none_or] at hrow
    split at hrow
    · rename_i heq
      subst heq
      obtain rfl := Option.some.inj hrow
      exact ⟨rfl, rfl⟩
    · exact absurd hrow (by simp)

/-- What anybody's request may change of the board: it may spend a one-shot grant it was given,
create a channel, and count a login. -/
structure Ordinary (db db' : Database) : Prop where
  grants : Ungranted db db'
  channels : ChannelsAdded db db'
  accounts : SameAccounts db db'

/-- The effects of anybody's requests. -/
def Effect.isOrdinary : Effect → Bool
  | grant _ | participant _ | channel _ | credential _ => false
  | _ => true

section Effects

variable [Sha256] [Hmac] [Base64Url]

theorem Effect.sameAccounts (e : Effect) (w : World) (h : e.isOrdinary = true) :
    SameAccounts w.db (e.apply w).db := by
  cases e with
  | nothing => exact .of_eq rfl rfl
  | ensureChannel name createdBy =>
      obtain ⟨channels, hens⟩ := ensureChannel_frame w.now name createdBy w.db
      simp only [Effect.apply, hens]
      exact .of_eq rfl rfl
  | insert identity fields => exact .of_eq rfl rfl
  | navigate writer payload =>
      simp only [Effect.apply]
      rcases appendNavigationMessage_cases w.now writer payload.navigationInput w.db with
        ⟨m, -, hw⟩ | ⟨m, -, -, hdb⟩ | ⟨hdb, -⟩
      · rw [hw.frame]
        exact .of_eq rfl rfl
      · rw [hdb]
        exact .of_eq rfl rfl
      · rw [hdb]
        exact .of_eq rfl rfl
  | execute writer request =>
      simp only [Effect.apply]
      rcases executeMessageIntent_cases w.now writer request w.db with
        ⟨m, -, hf⟩ | ⟨m, -, hr⟩ | ⟨hdb, -⟩
      · rw [hf.frame]
        exact .of_eq rfl rfl
      · rw [hr.frame]
        exact .of_eq rfl rfl
      · rw [hdb]
        exact .of_eq rfl rfl
  | login participantId code now => exact sameAccounts_login participantId code now w.db
  | tick now => exact .of_eq rfl rfl
  | grant op => exact absurd h (by simp [Effect.isOrdinary])
  | participant op => exact absurd h (by simp [Effect.isOrdinary])
  | channel op => exact absurd h (by simp [Effect.isOrdinary])
  | credential op => exact absurd h (by simp [Effect.isOrdinary])

/-- **An ordinary effect makes ordinary changes.** -/
theorem Effect.ordinary (e : Effect) (w : World) (h : e.isOrdinary = true) :
    Ordinary w.db (e.apply w).db := by
  refine ⟨e.ungranted w ?_, ?_, e.sameAccounts w h⟩
  · cases e with
    | grant op => exact absurd h (by simp [Effect.isOrdinary])
    | _ => rfl
  · rcases e.cases_channels w with hsame | ⟨now, name, createdBy, -, hens⟩ | ⟨op, rfl⟩
    · exact .of_eq hsame
    · exact channelsAdded_of_ensureChannel hens
    · exact absurd h (by simp [Effect.isOrdinary])

end Effects

/-! ## Entitled changes -/

/-- What an operator asks for at the machine. -/
def Request.atMachine : Request → Bool
  | grant _ | participant _ | channel _ | credential _ => true
  | _ => false

section Entitled

variable [Sha256] [Hmac] [Base64Url] [JsonParser] [Base64Standard] [Jwt]

/-- **Whoever makes a change may make it.** -/
inductive Entitled (settings : Settings) (past : List World) (w w' : World) : Runtime.Call → Prop
  | ordinary {c : Runtime.Call} : Ordinary w.db w'.db → Entitled settings past w w' c
  | machine {r : Request} : r.atMachine = true → Entitled settings past w w' (.board r)
  /-- An administrator of grants, by session or token. -/
  | access {headers : Headers} {requestTarget : String} {route : AccessApi.Route} {who : Identity}
      {caller : Principal} {op : GrantOp} :
      Administrator settings.sessionKey headers past who caller →
      route.grantOp caller who.inst = some op → w'.db = op.apply w.now w.db →
      ManagedBy caller who.inst w.now w.db w'.db →
      Entitled settings past w w' (.access headers requestTarget route)
  /-- A human administrator of channels. -/
  | admin {headers : Headers} {route : Http.AdminRoute} {who : Identity} {op : ChannelOp} :
      SessionSeen settings.sessionKey headers past who →
      (Seen past fun s => getWebParticipantRole s.db who.inst = some "admin") →
      route.channelOp who = some op → w'.db = op.apply w.now w.db →
      Entitled settings past w w' (.admin headers route)

variable {settings : Settings} {past : List World} {w : World} {e : Effect}

omit [Base64Standard] in
/-- **A warranted effect** makes a change its call is entitled to. -/
theorem entitled_of_warrants {c : Runtime.Call} (h : Runtime.Call.Warrants settings past c e)
    (hnames : NamesTrimmed w.db) : Entitled settings past w (e.apply w) c := by
  by_cases hordinary : e.isOrdinary = true
  · exact .ordinary (e.ordinary w hordinary)
  cases c with
  | board r =>
      by_cases hmachine : r.atMachine = true
      · exact .machine hmachine
      refine absurd ?_ hordinary
      cases r with
      | navigationWrite participantId query' =>
          rcases h with rfl | ⟨write, writer, -, -, rfl | rfl⟩
          · rfl
          · rfl
          · rfl
      | postMessage headers body =>
          obtain ⟨object, rfl | ⟨-, hsigned | hplain⟩⟩ := h
          · rfl
          · rcases hsigned with rfl | ⟨write, writer, -, -, rfl | rfl⟩
            · rfl
            · rfl
            · rfl
          · rcases hplain with rfl | ⟨who, fields, -, -, rfl | rfl⟩
            · rfl
            · rfl
            · rfl
      | mcp headers tool arguments =>
          obtain ⟨principal, -, rfl | ⟨_, _, _, -, -, -, rfl⟩⟩ := h
          · rfl
          · rfl
      | oidc participantId headers body =>
          rcases h with rfl | ⟨_, _, _, _, _, -, -, -, -, rfl⟩
          · rfl
          · rfl
      | github headers body =>
          rcases h with rfl | ⟨_, _, -, -, rfl⟩
          · rfl
          · rfl
      | authTotp body =>
          rcases h with rfl | ⟨participantId, code, now, rfl⟩
          · rfl
          · rfl
      | grant op => exact absurd rfl hmachine
      | participant op => exact absurd rfl hmachine
      | channel op => exact absurd rfl hmachine
      | credential op => exact absurd rfl hmachine
      | _ =>
          rw [show e = _ from h]
          rfl
  | access headers requestTarget route =>
      rcases h with rfl | ⟨who, caller, op, hadministrator, hop, rfl⟩
      · exact absurd rfl hordinary
      · have hroute : op.apply w.now w.db = w.db
            ∨ Administered (remoteCaller caller who.inst) w.now w.db (op.apply w.now w.db) :=
          administered_of_route hop
        rcases hroute with hsame | hadministered
        · -- the operation was refused
          refine .ordinary ?_
          simp only [Effect.apply, hsame]
          exact Effect.nothing.ordinary w rfl
        · exact .access hadministrator hop rfl (hadministered.managedBy hnames)
  | admin headers route =>
      rcases h with rfl | ⟨who, op, hsession, hrole, hop, rfl⟩
      · exact absurd rfl hordinary
      · exact .admin hsession hrole hop rfl
  | whoami headers =>
      rw [show e = _ from h] at hordinary
      exact absurd rfl hordinary
  | authGuest =>
      rw [show e = _ from h] at hordinary
      exact absurd rfl hordinary
  | mcp headers body =>
      obtain ⟨principal, -, rfl | ⟨_, _, _, -, -, -, rfl⟩⟩ := h
      · exact absurd rfl hordinary
      · exact absurd rfl hordinary
  | stdio lines =>
      obtain ⟨line, -, rfl | ⟨_, _, _, -, -, -, rfl⟩⟩ := h
      · exact absurd rfl hordinary
      · exact absurd rfl hordinary

variable [Mcp.UrlParser]

end Entitled

/-! ## A participant is provisioned -/

section Sample
attribute [local instance] sampleSha256 sampleHmac sampleBase64Url Base64Standard.padded
  sampleJsonParser sampleJwt sampleUrlParser

private def startProvision : Concurrent.Move Runtime.Call :=
  .start (.board (.participant (.provision "alice" "chatgpt" none)))

private def provisioning : Concurrent.Config Runtime.Call World Runtime.Reply :=
  Runtime.config sampleSettings ⟨Database.initial, 0⟩ [startProvision]

/-- Alice is provisioned. -/
def provisioned : Runtime.CallEvent :=
  ⟨provisioning, .advance 0,
    (Concurrent.step (Runtime.serve sampleSettings) (.advance 0) provisioning).1,
    (Concurrent.step (Runtime.serve sampleSettings) (.advance 0) provisioning).2⟩

def provisionMoves : List (Concurrent.Move Runtime.Call) := [startProvision, .advance 0]

end Sample

end Blackboard
