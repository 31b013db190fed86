import Blackboard.Proof.GuestReads
import Blackboard.Proof.Transactions

/-!
# What a guest is shown while channels change

A guest read checks the channel in one statement and lists its messages in the next. As long
as no channel is hidden between the two, every message a guest is answered with was listed
while its channel was public and active. Nothing keeps the two together: a channel that
becomes private in between is still listed, with what was posted since.
-/

namespace Blackboard

open Relational (Table)
open Concurrent (Program answer Binds)

instance : Nonempty World := ⟨⟨Database.initial, 0⟩⟩

/-! ## The course of a guest read -/

/-- What is left of a guest read that has passed the check of this channel: list, and answer. -/
inductive AtListing (channel : String) : Program World Response → Prop where
  | page (after : Int) (limit : Nat) :
      AtListing channel (Http.listMessages ⟨after, limit, some channel⟩)
  | window (order : History.MessageOrder) (before after : Option Int) (limit : Nat) :
      AtListing channel (do
        let page ← History.readWindow channel order before after limit
        return History.windowResponse order page)

/-- What is left of one that has not: it reads, and either ends without a message or passes the
check of a channel in a state in which the channel is public and active. -/
def Checking : Program World Response → Prop
  | .done a => a.messages = []
  | .step tx next => (∀ w, tx w = w) ∧ ∀ w, Checking (next w)
      ∨ ∃ channel, AtListing channel (next w) ∧ channelIsPublicActive w.db channel = true

theorem mem_listMessagesAfter {db : Database} {after : Int} {channel : String} {limit : Nat}
    {m : Message} (h : m ∈ listMessagesAfter db after (some channel) limit) :
    m ∈ db.messages ∧ m.channel = channel := by
  have hsel := Relational.mem_orderBy.mp (List.mem_of_mem_take h)
  obtain ⟨hm, hp⟩ := List.mem_filter.mp hsel
  rw [Bool.and_eq_true] at hp
  exact ⟨hm, of_decide_eq_true hp.1⟩

theorem mem_listMessageWindow {db : Database} {channel : String} {order : History.MessageOrder}
    {before after : Option Int} {limit : Nat} {m : Message}
    (h : m ∈ History.listMessageWindow db channel order before after limit) :
    m ∈ db.messages ∧ m.channel = channel := by
  cases order with
  | desc =>
      have hsel := Relational.mem_orderBy.mp (List.mem_of_mem_take h)
      obtain ⟨hm, hp⟩ := List.mem_filter.mp hsel
      rw [Bool.and_eq_true] at hp
      exact ⟨hm, of_decide_eq_true hp.1⟩
  | asc =>
      have hsel := Relational.mem_orderBy.mp (List.mem_of_mem_take h)
      obtain ⟨hm, hp⟩ := List.mem_filter.mp hsel
      rw [Bool.and_eq_true] at hp
      exact ⟨hm, of_decide_eq_true hp.1⟩

/-- **What a listing finds becomes the messages of the answer**, and all of them are of the
channel. -/
theorem AtListing.cases {channel : String} {p : Program World Response} (h : AtListing channel p) :
    ∃ next, p = .step (fun w => w) next ∧ ∀ w, ∃ ms : List Message,
      (next w).Bound (fun a => a.messages = ms)
      ∧ ∀ m ∈ ms, m ∈ w.db.messages ∧ m.channel = channel := by
  cases h with
  | page after limit =>
      refine ⟨_, rfl, fun w => ⟨_, rfl, fun m hm => ?_⟩⟩
      exact mem_listMessagesAfter hm
  | window order before after limit =>
      refine ⟨_, rfl, fun w => ⟨History.listMessageWindow w.db channel order before after limit, ?_,
        fun m hm => mem_listMessageWindow hm⟩⟩
      dsimp only [bind, Program.bind]
      cases (History.listMessageWindow w.db channel order before after limit).getLast? with
      | none => exact rfl
      | some last => exact fun w => rfl

/-- A listing is bound to no message before it lists. -/
theorem AtListing.not_bound {channel : String} {p : Program World Response}
    (h : AtListing channel p) (m : Message) : ¬ p.Bound fun a => m ∈ a.messages := by
  obtain ⟨next, rfl, hnext⟩ := h.cases
  intro hbound
  obtain ⟨ms, hms, hmem⟩ := hnext ⟨Database.initial, 0⟩
  obtain ⟨a, ha, hmessages⟩ := Program.exists_of_bound (hbound ⟨Database.initial, 0⟩) hms
  rw [hmessages] at ha
  exact absurd (hmem m ha).1 (Table.not_mem_empty m)

theorem Checking.not_bound {p : Program World Response} (h : Checking p) (m : Message) :
    ¬ p.Bound fun a => m ∈ a.messages := by
  induction p with
  | done a =>
      intro hbound
      have hm : m ∈ a.messages := hbound
      have hnone : a.messages = [] := h
      rw [hnone] at hm
      exact absurd hm List.not_mem_nil
  | step tx next ih =>
      intro hbound
      let w : World := ⟨Database.initial, 0⟩
      rcases h.2 w with hnext | ⟨channel, hlisting, -⟩
      · exact ih w hnext (hbound w)
      · exact hlisting.not_bound m (hbound w)

/-! ### The checks of the routes -/

theorem checking_refusal (e : ApiError) : Checking (.done e.response) := rfl

/-- A look-up that ends the same way for every guest, and what comes after it. -/
theorem checking_bind {α : Type} {Q : α → Prop} {p : Program World α}
    {k : α → Program World Response} (hp : p.Within (fun _ => True) (fun w w' => w' = w) Q)
    (hk : ∀ a, Q a → Checking (k a)) : Checking (p >>= k) := by
  induction p with
  | done a => exact hk a hp
  | step tx next ih =>
      refine ⟨fun w => (hp w trivial).1, fun w => Or.inl ?_⟩
      exact ih w (hp w trivial).2

theorem checking_ifPublic {channel : String} {p q : Program World Response}
    (hp : AtListing channel p) (hq : Checking q) :
    Checking (query (fun db => channelIsPublicActive db channel) >>= fun isPublic =>
      if isPublic = true then p else q) := by
  refine ⟨fun w => rfl, fun w => ?_⟩
  show Checking (if channelIsPublicActive w.db channel = true then p else q)
    ∨ ∃ name, AtListing name (if channelIsPublicActive w.db channel = true then p else q)
      ∧ channelIsPublicActive w.db name = true
  by_cases hpublic : channelIsPublicActive w.db channel = true
  · rw [if_pos hpublic]
    exact Or.inr ⟨channel, hp, hpublic⟩
  · rw [if_neg hpublic]
    exact Or.inl hq

theorem messages_directoryResponse (window : Except SqlError (List ChannelSummary × Bool)) :
    (Http.directoryResponse window).messages = [] := by
  cases window with
  | error e => rfl
  | ok window => rfl

theorem checking_navigationRead (channel : String) (query' : Http.Query) :
    Checking (Http.navigationRead channel query') := by
  unfold Http.navigationRead
  split
  · exact checking_refusal _
  · split
    · rename_i after limit _ _
      exact checking_ifPublic (.page after limit) (checking_refusal _)
    · exact checking_refusal _

section Sessions

variable [Sha256] [Hmac] [Base64Url] [JsonParser] {key : Bytes} {headers : Headers}
  (hguest : headers.OfGuest key)

include hguest

omit [Sha256] in
/-- Whenever it is looked at, a guest's session is a guest's. -/
theorem within_verifiedWebSession_of_guest :
    (RequestAuth.verifiedWebSession key headers).Within (fun _ => True) (fun w w' => w' = w)
      fun session => ∀ s, session = some s → s.sessionType = .guest := by
  unfold RequestAuth.verifiedWebSession
  cases htoken : headers.text WebAuth.webSessionHeader with
  | none => exact fun s hs => absurd hs (by simp)
  | some token =>
      refine fun w _ => ⟨rfl, fun s hs => ?_⟩
      have hsession : sessionAt key headers w.now = some s := by
        unfold sessionAt
        rw [htoken]
        exact hs
      exact sessionType_of_guest hguest hsession

/-- Nobody else is behind a guest's headers. -/
theorem within_resolveRequestIdentityForTarget_of_guest (method requestTarget : String) :
    (RequestAuth.resolveRequestIdentityForTarget key headers method requestTarget).Within
      (fun _ => True) (fun w w' => w' = w) fun who => who = none := by
  unfold RequestAuth.resolveRequestIdentityForTarget
  have hsession := within_verifiedWebSession_of_guest hguest
  rcases hguest with ⟨token, -, -, htoken, -, -⟩ | h
  · have hkey := containsKey_of_text htoken
    by_cases hproof : headers.containsKey RequestAuth.authProofHeader = true
        ∨ headers.containsKey RequestAuth.authSchemeHeader = true
    · rw [if_neg (not_not.mpr hproof), if_pos hkey]
      exact rfl
    · rw [if_pos hproof]
      unfold RequestAuth.resolveRequestIdentity
      rw [if_pos hkey]
      refine Program.within_bind hsession fun session hs => ?_
      cases session with
      | none => exact rfl
      | some session =>
          have hguest' : session.sessionType ≠ .humanWeb := by
            rw [hs session rfl]
            decide
          dsimp only
          rw [if_pos hguest']
          exact rfl
  · rw [if_pos (by simp [h.proof, h.scheme])]
    unfold RequestAuth.resolveRequestIdentity
    rw [if_neg (by simp [h.session]), if_neg (by simp [h.participantId, h.proof, h.scheme]),
      bearerToken_of_containsKey_false h.bearer]
    exact rfl

theorem within_requireReadAccessForTarget_of_guest (method requestTarget : String) :
    (Http.requireReadAccessForTarget key headers method requestTarget).Within
      (fun _ => True) (fun w w' => w' = w)
      fun access => access = .ok .guest ∨ access = .error .unauthorized := by
  unfold Http.requireReadAccessForTarget
  refine Program.within_bind (within_verifiedWebSession_of_guest hguest) fun session hs => ?_
  cases session with
  | none =>
      refine Program.within_bind
        (within_resolveRequestIdentityForTarget_of_guest hguest method requestTarget)
        fun who hwho => ?_
      rw [hwho]
      exact Or.inr rfl
  | some session =>
      dsimp only
      rw [hs session rfl]
      exact Or.inl rfl

theorem checking_messages (requestTarget : String) (query' : Http.Query) :
    Checking (Http.messages key headers requestTarget query') := by
  unfold Http.messages
  refine checking_bind (within_requireReadAccessForTarget_of_guest hguest "GET" requestTarget)
    fun access haccess => ?_
  rcases haccess with rfl | rfl
  · dsimp only
    cases Http.parseMessages query' with
    | error e => exact checking_refusal _
    | ok q =>
        obtain ⟨after, limit, channel⟩ := q
        cases channel with
        | none => exact checking_refusal _
        | some channel => exact checking_ifPublic (.page after limit) (checking_refusal _)
  · exact checking_refusal _

theorem checking_channels (requestTarget : String) (query' : Http.Query) :
    Checking (Http.channels key headers requestTarget query') := by
  unfold Http.channels
  refine checking_bind (within_requireReadAccessForTarget_of_guest hguest "GET" requestTarget)
    fun access haccess => ?_
  rcases haccess with rfl | rfl
  · dsimp only
    split
    · exact checking_refusal _
    · exact checking_refusal _
    · exact ⟨fun w => rfl, fun w => Or.inl (messages_directoryResponse _)⟩
  · exact checking_refusal _

theorem checking_messageWindow (requestTarget : String) (q : History.MessageWindowQuery) :
    Checking (History.messageWindow key headers requestTarget q) := by
  unfold History.messageWindow
  cases History.parseWindow q with
  | error e => exact checking_refusal _
  | ok window =>
      obtain ⟨order, limit⟩ := window
      refine checking_bind (within_verifiedWebSession_of_guest hguest) fun session hs => ?_
      cases session with
      | some session =>
          have hsome : (some session).any (fun session => decide (session.sessionType = .guest))
              = true := decide_eq_true (hs session rfl)
          rw [if_pos hsome]
          exact checking_ifPublic (.window order q.before q.after limit) (checking_refusal _)
      | none =>
          rw [if_neg (by simp)]
          refine checking_bind
            (within_resolveRequestIdentityForTarget_of_guest hguest "GET" requestTarget)
            fun who hwho => ?_
          rw [hwho]
          exact checking_refusal _

end Sessions

section Calls

variable {headers : Headers} {arguments : Json.Object}
  (hbearer : headers.containsKey "authorization" = false)
  (hparticipant : arguments.containsKey "participant_id" = false)
  (hauth : arguments.containsKey "auth" = false)

variable [Sha256] [Hmac] [Base64Url] [JsonParser] [Jwt]

include hbearer hparticipant hauth

omit [JsonParser] in
theorem checking_mcpPost (verifier : Option OidcVerifier) :
    Checking (Mcp.mcpPost verifier headers .blackboardRead arguments) := by
  have hread : Checking (Mcp.blackboardRead arguments none) := by
    unfold Mcp.blackboardRead
    cases Mcp.parseRead arguments with
    | error code => exact rfl
    | ok a =>
        have hnone : arguments.get "participant_id" = none := by
          simpa [Json.Object.containsKey] using hparticipant
        dsimp only
        rw [hnone, if_neg (by simp [hauth])]
        exact checking_ifPublic (.page a.after a.limit) rfl
  have hgate : (Mcp.httpToolCallRequiresAuth .blackboardRead arguments).Within (fun _ => True)
      (fun w w' => w' = w) fun _ => True := by
    unfold Mcp.httpToolCallRequiresAuth
    rw [if_neg (by simp [hauth])]
    dsimp only
    rw [if_neg (by simp [hparticipant])]
    split
    · trivial
    · exact fun w _ => ⟨rfl, trivial⟩
  unfold Mcp.mcpPost Mcp.resolveHttpBearerPrincipal
  rw [if_pos hbearer]
  have hask : (if verifier.isSome = true ∧ (none : Option Principal).isNone = true then
      Mcp.httpToolCallRequiresAuth .blackboardRead arguments else .done false).Within
      (fun _ => True) (fun w w' => w' = w) fun _ => True := by
    split
    · exact hgate
    · trivial
  have hnobody : (Program.done (.ok none) : Program World (Except Unit (Option Principal))).Within
      (fun _ => True) (fun w w' => w' = w) fun principal => principal = .ok none := rfl
  refine checking_bind hnobody fun principal hp => ?_
  rw [hp]
  refine checking_bind hask fun refuse _ => ?_
  cases refuse with
  | true => exact checking_refusal _
  | false => exact hread

end Calls

/-! ## Interleavings -/

section Server

variable [Sha256] [Hmac] [Base64Url] [JsonParser] [Jwt]

theorem checking_of_guestRead {settings : Settings} {r : Request}
    (hr : r.GuestRead settings.sessionKey) : Checking (serve settings r) := by
  cases r with
  | navigationRead channel query' => exact checking_navigationRead channel query'
  | messages headers requestTarget query' => exact checking_messages hr requestTarget query'
  | channels headers requestTarget query' => exact checking_channels hr requestTarget query'
  | messageWindow headers requestTarget q => exact checking_messageWindow hr requestTarget q
  | mcp headers tool arguments =>
      obtain ⟨rfl, hbearer, hparticipant, hauth⟩ := hr
      exact checking_mcpPost hbearer hparticipant hauth settings.oidcVerifier
  | _ => exact False.elim hr

/-- What is left of a guest read: it still checks, it lists a channel that is public and active, or
it has listed and its messages are settled. -/
def GuestRest (w : World) (p : Program World Response) : Prop :=
  Checking p
  ∨ (∃ channel, AtListing channel p ∧ channelIsPublicActive w.db channel = true)
  ∨ ∃ ms : List Message, p.Bound fun a => a.messages = ms

omit [Sha256] [Hmac] [Base64Url] [JsonParser] [Jwt] in
theorem GuestRest.step {w : World} {tx : World → World} {next : World → Program World Response}
    (h : GuestRest w (.step tx next)) : GuestRest (tx w) (next w) := by
  rcases h with ⟨hquiet, hnext⟩ | ⟨channel, hlisting, -⟩ | ⟨ms, hms⟩
  · rw [hquiet]
    rcases hnext w with hchecking | hlisting
    · exact Or.inl hchecking
    · exact Or.inr (Or.inl hlisting)
  · obtain ⟨next', heq, hnext⟩ := hlisting.cases
    obtain ⟨-, rfl⟩ := Program.step.inj heq
    obtain ⟨ms, hms, -⟩ := hnext w
    exact Or.inr (Or.inr ⟨ms, hms⟩)
  · exact Or.inr (Or.inr ⟨ms, hms w⟩)

omit [Sha256] [Hmac] [Base64Url] [JsonParser] [Jwt] in
/-- The message is settled by listing it. -/
theorem GuestRest.public_of_binds {w : World} {tx : World → World}
    {next : World → Program World Response} {m : Message} (h : GuestRest w (.step tx next))
    (hbefore : ¬ (Program.step tx next).Bound fun a => m ∈ a.messages)
    (hafter : (next w).Bound fun a => m ∈ a.messages) :
    channelIsPublicActive w.db m.channel = true := by
  rcases h with ⟨-, hnext⟩ | ⟨channel, hlisting, hpublic⟩ | ⟨ms, hms⟩
  · rcases hnext w with hchecking | ⟨channel, hlisting, -⟩
    · exact absurd hafter (hchecking.not_bound m)
    · exact absurd hafter (hlisting.not_bound m)
  · obtain ⟨next', heq, hnext⟩ := hlisting.cases
    obtain ⟨-, rfl⟩ := Program.step.inj heq
    obtain ⟨ms, hms, hmem⟩ := hnext w
    obtain ⟨a, ha, rfl⟩ := Program.exists_of_bound hafter hms
    rw [(hmem m ha).2]
    exact hpublic
  · obtain ⟨a, ha, rfl⟩ := Program.exists_of_bound hafter (hms w)
    -- it had been settled before
    exact absurd (hms.mono fun b hb => hb ▸ ha) hbefore

/-- A move hides no channel that a guest read has checked and not yet listed. -/
def HidesNoListing (settings : Settings) (c : Concurrent.Config Request World Response)
    (move : Move) : Prop :=
  ∀ channel, channelIsPublicActive c.store.db channel = true →
    channelIsPublicActive (Concurrent.step (serve settings) move c).2.store.db channel = false →
    ∀ t ∈ c.pool, t.request.GuestRead settings.sessionKey → ¬ AtListing channel t.rest

/-- The event lists the message for the request at this place: from here on its answer contains the
message, whatever else it meets. -/
def Lists (place : Nat) (m : Message) (e : ServerEvent) : Prop :=
  Binds (fun a : Response => m ∈ a.messages) place e

/-- Every message a guest is answered with was listed in a state in which its channel was public
and active. -/
def GuestsAreShownPublic (settings : Settings) (events : List ServerEvent) : Prop :=
  ∀ e ∈ events, ∀ place r a, e.act = .advance place → e.out = some r →
    r.GuestRead settings.sessionKey → answer e = some a → ∀ m ∈ a.messages,
      ∃ e' ∈ events, Lists place m e' ∧ channelIsPublicActive e'.before.store.db m.channel = true

/-- **Guests are shown public channels only**, as long as no channel is hidden under a reader. -/
theorem guests_are_shown_public (settings : Settings) (w : World) (moves : List Move)
    (h : ∀ e ∈ serverHistory settings w moves, HidesNoListing settings e.before e.act) :
    GuestsAreShownPublic settings (serverHistory settings w moves) := by
  let J := fun (w : World) (r : Request) (p : Program World Response) =>
    r.GuestRead settings.sessionKey → GuestRest w p
  have hall : ∀ e ∈ serverHistory settings w moves, Concurrent.Asserted J e.before := by
    refine Concurrent.pool_history (G := HidesNoListing settings) ?_ ?_ ?_ h
    · exact fun c r _ _ hr => Or.inl (checking_of_guestRead hr)
    · exact fun w r tx next hj hr => (hj hr).step
    · intro c i r tx next hc hi hhides t ht hr
      rcases hc t ht hr with hchecking | ⟨channel, hlisting, hpublic⟩ | hsettled
      · exact Or.inl hchecking
      · refine Or.inr (Or.inl ⟨channel, hlisting, ?_⟩)
        by_contra hhidden
        rw [Bool.not_eq_true] at hhidden
        refine hhides channel hpublic ?_ t ht hr hlisting
        simp only [Concurrent.step, hi]
        exact hhidden
      · exact Or.inr (Or.inr hsettled)
  intro e he place r a hact hout hr ha m hm
  have hstart : ¬ (serve settings r).Bound fun a => m ∈ a.messages :=
    (checking_of_guestRead hr).not_bound m
  obtain ⟨e', he', hout', hbinds⟩ := Concurrent.exists_binds he hact hout ha hm hstart
  refine ⟨e', he', hbinds, ?_⟩
  obtain ⟨tx, next, hin, hbefore, hafter⟩ := hbinds.transaction he' hout'
  exact (hall e' he' _ hin hr).public_of_binds hbefore hafter

end Server

/-! ## A channel hidden under a reader -/

section Sample

attribute [local instance] sampleSha256 sampleHmac sampleBase64Url sampleJsonParser sampleJwt

def publicWelcome : Message :=
  ⟨1, 0, "general", "chatgpt", "alice", none, "message", "welcome", none⟩

/-- Alice's account and the public channel `general` with a message. -/
def samplePublicWorld : World where
  db := { sampleStore with
    channels := Table.empty.insertOrIgnore ⟨"general", "public", activeStatus, 0, 0, none⟩
    messages := Table.empty.insertOrIgnore publicWelcome }
  now := 1

/-- A reader nobody comes in between. -/
theorem guests_are_shown_public_undisturbed :
    (∀ e ∈ serverHistory sampleSettings samplePublicWorld
      [.start (.navigationRead "general" []), .advance 0, .advance 0],
      HidesNoListing sampleSettings e.before e.act)
    ∧ GuestsAreShownPublic sampleSettings (serverHistory sampleSettings samplePublicWorld
      [.start (.navigationRead "general" []), .advance 0, .advance 0]) := by
  have hquiet : ∀ e ∈ serverHistory sampleSettings samplePublicWorld
      [.start (.navigationRead "general" []), .advance 0, .advance 0],
      HidesNoListing sampleSettings e.before e.act := by
    intro e he channel hpublic hhidden
    obtain ⟨n, hn, hrun⟩ := Transition.before_eq_run_take he
    have hsame : (Concurrent.step (serve sampleSettings) e.act e.before).2.store
        = e.before.store := by
      rw [hrun]
      rcases n with _ | _ | _ | n
      · rw [← Option.some.inj hn]
        rfl
      · rw [← Option.some.inj hn]
        rfl
      · rw [← Option.some.inj hn]
        rfl
      · exact absurd hn (by simp)
    rw [hsame, hpublic] at hhidden
    exact absurd hhidden (by simp)
  exact ⟨hquiet, guests_are_shown_public sampleSettings samplePublicWorld _ hquiet⟩

/-- Somebody looks into `general`. Between the check and the listing the channel becomes private
and Alice says hello in it. -/
def hiddenUnderReader : List Move :=
  [.start (.navigationRead "general" []), .advance 0,
    .start (.channel (.update "general" (some "private") none)), .advance 1,
    .start (.navigationWrite "alice" (sampleQuery none sampleProof)), .advance 2, .advance 2,
    .advance 2, .advance 2, .advance 0]

def privateHello : Message :=
  ⟨2, 1, "general", "chatgpt", "alice", none, "message", "hello", none⟩

/-- Before the reader lists. -/
private def beforeListing : Concurrent.Config Request World Response :=
  Transition.run (Concurrent.step (serve sampleSettings)) ⟨samplePublicWorld, []⟩
    (hiddenUnderReader.take 9)

private def listing : ServerEvent :=
  ⟨beforeListing, .advance 0, (Concurrent.step (serve sampleSettings) (.advance 0) beforeListing).1,
    (Concurrent.step (serve sampleSettings) (.advance 0) beforeListing).2⟩

theorem hidden_channel_is_shown :
    ¬ GuestsAreShownPublic sampleSettings
      (serverHistory sampleSettings samplePublicWorld hiddenUnderReader) := by
  intro h
  have hlast : listing ∈ serverHistory sampleSettings samplePublicWorld hiddenUnderReader :=
    Transition.last_mem_history _ _ _ _
  have hanswer : answer listing = some ⟨200, .page [publicWelcome, privateHello] 2⟩ := by
    decide +kernel
  have hreader : (listing.out.any fun r => match r with
      | .navigationRead .. => true
      | _ => false) = true := by decide +kernel
  have hhidden : channelIsPublicActive beforeListing.store.db privateHello.channel = false := by
    decide +kernel
  obtain ⟨r, hout, hr⟩ := (Option.any_eq_true _ _).mp hreader
  have hguest : r.GuestRead sampleSettings.sessionKey := by
    cases r with
    | navigationRead channel query => trivial
    | _ => exact absurd hr (by simp)
  obtain ⟨e, he, hlists, hpublic⟩ := h listing hlast 0 r _ rfl hout hguest hanswer privateHello
    (by decide)
  obtain ⟨t, t', hact, ht, ht', hbefore, hafter⟩ := hlists
  obtain ⟨n, hn, hrun⟩ := Transition.before_eq_run_take he
  rw [hact] at hn
  have hplace : n = 1 ∨ n = 9 := by
    have hlt : n < 10 := (List.getElem?_eq_some_iff.mp hn).1
    interval_cases n <;> simp_all [hiddenUnderReader]
  rcases hplace with rfl | rfl
  · -- the check settles nothing
    have hrest : t'.rest = Http.listMessages ⟨0, 50, some "general"⟩ := by
      rw [Transition.after_of_mem he, hact, hrun] at ht'
      rw [← Option.some.inj ht']
      rfl
    rw [hrest] at hafter
    exact (AtListing.page 0 50).not_bound privateHello hafter
  · have heq : e.before = beforeListing := hrun
    rw [heq, hhidden] at hpublic
    exact absurd hpublic (by simp)

end Sample

end Blackboard
