import Blackboard.Proof.Channels
import Blackboard.Proof.Effects
import Blackboard.Proof.Parsing

/-!
# Which names channels get, and which can be read

Every route that writes checks the name of the channel it writes to, and creates the
channel if it is missing. The routes that read, and the cursor of the directory, check names
again. All the checks but one want an ASCII letter or digit first; the OpenID route lets a
name start with a mark.
-/

namespace Blackboard

open Relational (Table)

/-- The first character of a name is an ASCII letter or digit. -/
def StartsAlphanumeric (name : String) : Prop :=
  ∃ c cs, name.toList = c :: cs ∧ Text.isAsciiAlphanumeric c = true

/-- A channel of this name can be read, and a client of the directory can go on from it. -/
structure Readable (name : String) : Prop where
  /-- `name_re`, in `http.rs`, `mcp.rs` and `history.rs`. -/
  read : Http.nameRe name = true
  cursor : ∀ query' : Http.Query, Http.firstQueryValue query' "after_name" = some name →
    Http.parseChannelAfterName query' = .ok (some name)

/-! ## The grammars -/

theorem readable_iff {name : String} : Readable name ↔ Http.nameRe name = true := by
  constructor
  · exact Readable.read
  · intro h
    refine ⟨h, fun query' hquery => ?_⟩
    unfold Http.parseChannelAfterName
    rw [hquery]
    exact if_pos h

theorem startsAlphanumeric_of_isToken {marks : List Char} {bound : Nat} {name : String}
    (h : Text.isToken marks bound name = true) : StartsAlphanumeric name := by
  unfold Text.isToken at h
  split at h
  · exact absurd h (by simp)
  · rename_i c cs hname
    rw [Bool.and_eq_true, Bool.and_eq_true] at h
    exact ⟨c, cs, hname, h.1.1⟩

theorem nameMarks_of_github {c : Char} (h : c ∈ ['.', '_', ':', '-']) :
    c ∈ ['.', '_', ':', '/', '-'] := by
  simp only [List.mem_cons, List.not_mem_nil, or_false] at h
  rcases h with rfl | rfl | rfl | rfl <;> simp

theorem nameMarks_of_oidc {c : Char} (h : c ∈ ['-', '_', '.', ':']) :
    c ∈ ['.', '_', ':', '/', '-'] := by
  simp only [List.mem_cons, List.not_mem_nil, or_false] at h
  rcases h with rfl | rfl | rfl | rfl <;> simp

/-- The webhook's names lack one mark of the others. -/
theorem nameRe_of_channelRe {name : String} (h : GithubWebhook.channelRe name = true) :
    Http.nameRe name = true := by
  unfold GithubWebhook.channelRe Text.isToken at h
  unfold Http.nameRe Text.isToken
  split at h
  · exact absurd h (by simp)
  · simp only [Bool.and_eq_true, List.all_eq_true, Bool.or_eq_true] at h ⊢
    refine ⟨h.1, fun c hc => ?_⟩
    rcases h.2 c hc with hc | hc
    · exact Or.inl hc
    · exact Or.inr (List.contains_iff_mem.mpr (nameMarks_of_github (List.contains_iff_mem.mp hc)))

theorem ascii_of_alphanumeric_or_mark {c : Char} {marks : List Char}
    (hmarks : ∀ d ∈ marks, d.toNat < 128)
    (h : (Text.isAsciiAlphanumeric c || marks.contains c) = true) : c.toNat < 128 := by
  rw [Bool.or_eq_true] at h
  rcases h with h | h
  · simp only [Text.isAsciiAlphanumeric, decide_eq_true_eq] at h
    omega
  · exact hmarks c (List.contains_iff_mem.mp h)

/-- **The OpenID route's names** are the others' when they start like them. -/
theorem nameRe_iff_of_validName {name : String} (h : Oidc.validName name = true) :
    Http.nameRe name = true ↔ StartsAlphanumeric name := by
  constructor
  · exact startsAlphanumeric_of_isToken
  · rintro ⟨c, cs, hname, hc⟩
    unfold Oidc.validName at h
    rw [Bool.and_eq_true, decide_eq_true_eq, List.all_eq_true] at h
    have hmarks : ∀ d ∈ ['-', '_', '.', ':'], d.toNat < 128 := by simp
    have hascii : ∀ d ∈ name.toList, d.toNat < 128 := fun d hd =>
      ascii_of_alphanumeric_or_mark hmarks (h.2 d hd)
    -- in ASCII the bound on the bytes is one on the characters
    have hlength : name.toList.length ≤ 128 := by
      have hsize : (Text.utf8 name).length = name.utf8ByteSize := rfl
      rw [Text.utf8_of_ascii hascii, List.length_map] at hsize
      rw [hsize]
      exact h.1.2
    rw [hname] at hlength h
    unfold Http.nameRe Text.isToken
    rw [hname]
    simp only [Bool.and_eq_true, decide_eq_true_eq, List.all_eq_true, Bool.or_eq_true]
    rw [List.length_cons] at hlength
    refine ⟨⟨hc, by omega⟩, fun d hd => ?_⟩
    have hd' := h.2 d (List.mem_cons_of_mem c hd)
    rw [Bool.or_eq_true] at hd'
    rcases hd' with hd' | hd'
    · exact Or.inl hd'
    · exact Or.inr (List.contains_iff_mem.mpr (nameMarks_of_oidc (List.contains_iff_mem.mp hd')))

/-! ## Requests -/

section Server

variable [Sha256] [Hmac] [Base64Url] [JsonParser] [Jwt]

/-- The routes that write messages. -/
def Request.IsWrite : Request → Prop
  | .navigationWrite .. | .postMessage .. | .mcp .. | .oidc .. | .github .. => True
  | _ => False

def Request.IsOidc : Request → Prop
  | .oidc .. => True
  | _ => False

omit [Base64Url] [Jwt] in
/-- What a request makes sure of has passed the check of its route. -/
theorem Request.May.channelName {settings : Settings} {r : Request} {e : Effect}
    (h : r.May settings e) {name : String} (hname : e.channelName = some name) :
    Http.nameRe name = true ∨ r.IsOidc ∧ Oidc.validName name = true := by
  cases r with
  | navigationWrite participantId query' =>
      rcases h with rfl | ⟨write, writer, hparse, -, rfl | rfl⟩
      · exact absurd hname (by simp [Effect.channelName])
      · obtain rfl := Option.some.inj hname
        exact Or.inl (Http.parseNavigationWrite_checked hparse).channel
      · obtain rfl := Option.some.inj hname
        exact Or.inl (Http.parseNavigationWrite_checked hparse).channel
  | authTotp body =>
      rcases h with rfl | ⟨participantId, code, now, rfl⟩
      · exact absurd hname (by simp [Effect.channelName])
      · exact absurd hname (by simp [Effect.channelName])
  | postMessage headers body =>
      rcases h with rfl | ⟨object, -, (rfl | ⟨write, writer, hparse, -, rfl | rfl⟩)
        | (rfl | ⟨identity, fields, hfields, rfl | rfl⟩)⟩
      · exact absurd hname (by simp [Effect.channelName])
      · exact absurd hname (by simp [Effect.channelName])
      · obtain rfl := Option.some.inj hname
        exact Or.inl (Http.parseSignedMessage_checked hparse).channel
      · obtain rfl := Option.some.inj hname
        exact Or.inl (Http.parseSignedMessage_checked hparse).channel
      · exact absurd hname (by simp [Effect.channelName])
      · obtain rfl := Option.some.inj hname
        exact Or.inl (Http.messageFields_channel hfields)
      · exact absurd hname (by simp [Effect.channelName])
  | mcp headers tool arguments =>
      rcases h with rfl | ⟨w, writer, principal, hparse, -, rfl⟩
      · exact absurd hname (by simp [Effect.channelName])
      · obtain rfl := Option.some.inj hname
        refine Or.inl ?_
        have hchannel := (Mcp.parseWrite_checked hparse).channel
        cases principal <;> exact hchannel
  | oidc participantId headers body =>
      rcases h with rfl | ⟨fields, intentId, named, principal, writer, hparse, -, rfl⟩
      · exact absurd hname (by simp [Effect.channelName])
      · obtain rfl := Option.some.inj hname
        obtain ⟨object, -, hmessage⟩ := Except.of_bind_eq_ok hparse
        exact Or.inr ⟨trivial, Oidc.parseMessage_channel hmessage⟩
  | github headers body =>
      rcases h with rfl | ⟨d, writer, hparse, -, rfl⟩
      · exact absurd hname (by simp [Effect.channelName])
      · obtain rfl := Option.some.inj hname
        obtain ⟨event, intent, -, hcheck⟩ := GithubWebhook.parseDelivery_checkIntent hparse
        exact Or.inl (nameRe_of_channelRe (GithubWebhook.checkIntent_channel hcheck))
  | grant op =>
      rw [show e = .grant op from h] at hname
      exact absurd hname (by simp [Effect.channelName])
  | participant op =>
      rw [show e = .participant op from h] at hname
      exact absurd hname (by simp [Effect.channelName])
  | channel op =>
      rw [show e = .channel op from h] at hname
      exact absurd hname (by simp [Effect.channelName])
  | credential op =>
      rw [show e = .credential op from h] at hname
      exact absurd hname (by simp [Effect.channelName])
  | tick now =>
      rw [show e = .tick now from h] at hname
      exact absurd hname (by simp [Effect.channelName])
  | _ =>
      rw [show e = .nothing from h] at hname
      exact absurd hname (by simp [Effect.channelName])

/-- The channel is there. -/
def Stored (db : Database) (name : String) : Prop := (db.channels.find name).isSome

omit [Sha256] [Hmac] [Base64Url] [JsonParser] [Jwt] in
/-- An administrator creates the channel it names and no other. -/
theorem ChannelOp.created {op : ChannelOp} {now : Int} {db : Database} {name : String}
    (hnew : ¬ Stored db name) (h : Stored (op.apply now db) name) :
    ∃ visibility createdBy, op = .create name visibility createdBy := by
  unfold Stored at hnew h
  cases op with
  | create channel visibility createdBy =>
      by_cases heq : channel = name
      · exact ⟨visibility, createdBy, by rw [heq]⟩
      · simp only [ChannelOp.apply, createChannel, insertChannel] at h
        split at h
        · dsimp only at h
          rw [Table.find_insertOrIgnore, if_neg heq, Option.or_none] at h
          exact absurd h hnew
        · exact absurd h hnew
  | update channel visibility status =>
      simp only [ChannelOp.apply, updateChannel] at h
      split at h
      · exact absurd h hnew
      · split at h
        · exact absurd h hnew
        · split at h
          · exact absurd h hnew
          · dsimp only at h
            rw [Table.find_update, Option.isSome_map] at h
            exact absurd h hnew

omit [JsonParser] [Jwt] in
/-- A channel that was not there before is the one the effect makes sure of, or an administrator
created it. -/
theorem Effect.created {e : Effect} {w : World} {name : String} (hnew : ¬ Stored w.db name)
    (h : Stored (e.apply w).db name) :
    e.channelName = some name
      ∨ ∃ visibility createdBy, e = .channel (.create name visibility createdBy) := by
  rcases e.cases_channels w with hsame | ⟨now, named, createdBy, hname, hens⟩ | ⟨op, rfl⟩
  · unfold Stored at hnew h
    rw [hsame] at h
    exact absurd h hnew
  · unfold Stored at hnew h
    rw [hens, find_ensureChannel] at h
    by_cases heq : named = name
    · rw [← heq]
      exact Or.inl hname
    · rw [if_neg heq, Option.or_none] at h
      exact absurd h hnew
  · obtain ⟨visibility, createdBy, rfl⟩ := ChannelOp.created hnew h
    exact Or.inr ⟨visibility, createdBy, rfl⟩

/-- The request names no channel that could be created and not be read: the name an OpenID body
gives starts with a letter or digit, and an administrator creates only readable channels. -/
def Request.NamesReadable : Request → Prop
  | .oidc _ _ body => ∀ fields intentId,
      (Oidc.readJsonObject body).bind Oidc.parseMessage = .ok (fields, intentId) →
        StartsAlphanumeric fields.channel
  | .channel (.create name _ _) => Readable name
  | _ => True

omit [Jwt] in
/-- What a request creates, and when it can be read. -/
theorem readable_of_created {settings : Settings} {r : Request} {e : Effect} {w : World}
    {name : String} (hmay : r.May settings e) (hnew : ¬ Stored w.db name)
    (h : Stored (e.apply w).db name) (hwrite : r.IsWrite) :
    Readable name ↔ (r.IsOidc → StartsAlphanumeric name) := by
  rw [readable_iff]
  rcases Effect.created hnew h with hname | ⟨visibility, createdBy, rfl⟩
  · rcases hmay.channelName hname with hread | ⟨hoidc, hvalid⟩
    · exact ⟨fun _ _ => startsAlphanumeric_of_isToken hread, fun _ => hread⟩
    · rw [nameRe_iff_of_validName hvalid]
      exact ⟨fun hstart _ => hstart, fun hstart => hstart hoidc⟩
  · have hfrom : r = .channel (.create name visibility createdBy) := hmay.origin
    rw [hfrom] at hwrite
    exact absurd hwrite id

omit [Base64Url] [Jwt] in
theorem Request.May.oidc_channel {settings : Settings} {participantId : String} {headers : Headers}
    {body : Bytes} {e : Effect} {name : String}
    (h : Request.May settings (.oidc participantId headers body) e)
    (hname : e.channelName = some name) :
    ∃ fields intentId, (Oidc.readJsonObject body).bind Oidc.parseMessage = .ok (fields, intentId)
      ∧ fields.channel = name := by
  rcases h with rfl | ⟨fields, intentId, named, principal, writer, hparse, -, rfl⟩
  · exact absurd hname (by simp [Effect.channelName])
  · exact ⟨fields, intentId, hparse, Option.some.inj hname⟩

omit [Jwt] in
/-- A request that names readable channels only creates no other. -/
theorem readable_of_namesReadable {settings : Settings} {r : Request} {e : Effect} {w : World}
    {name : String} (hmay : r.May settings e) (hnew : ¬ Stored w.db name)
    (h : Stored (e.apply w).db name) (hnames : r.NamesReadable) : Readable name := by
  rcases Effect.created hnew h with hname | ⟨visibility, createdBy, rfl⟩
  · rcases hmay.channelName hname with hread | ⟨hoidc, hvalid⟩
    · exact readable_iff.mpr hread
    · rw [readable_iff, nameRe_iff_of_validName hvalid]
      cases r with
      | oidc participantId headers body =>
          obtain ⟨fields, intentId, hparse, rfl⟩ := hmay.oidc_channel hname
          exact hnames fields intentId hparse
      | _ => exact absurd hoidc id
  · have hfrom : r = .channel (.create name visibility createdBy) := hmay.origin
    rw [hfrom] at hnames
    exact hnames

/-- **Channels that can be read.** A channel a write creates can be read exactly if the write is not
the OpenID route's, or the name starts with a letter or digit. Where no request names another,
every channel of every state can be read. -/
theorem created_channels_readable (settings : Settings) (s : World) (moves : List Move) :
    (∀ e ∈ serverHistory settings s moves, ∀ r name, e.out = some r → r.IsWrite →
      ¬ Stored e.before.store.db name → Stored e.after.store.db name →
        (Readable name ↔ (r.IsOidc → StartsAlphanumeric name)))
    ∧ ((∀ name, Stored s.db name → Readable name) →
      (∀ e ∈ serverHistory settings s moves, ∀ r, e.out = some r → r.NamesReadable) →
        ∀ e ∈ serverHistory settings s moves, ∀ name, Stored e.after.store.db name →
          Readable name) := by
  constructor
  · intro e he r name hout hwrite hnew hstored
    rcases Concurrent.steps_history (fun r => serve_steps settings r) he with
      ⟨r', hout', effect, hmay, hafter⟩ | ⟨-, hsame⟩
    · obtain rfl := Option.some.inj (hout'.symm.trans hout)
      rw [hafter] at hstored
      exact readable_of_created hmay hnew hstored hwrite
    · rw [hsame] at hstored
      exact absurd hstored hnew
  · intro hstart hnames e he
    refine (Concurrent.store_history (I := fun w : World => ∀ name, Stored w.db name → Readable name)
      hstart (fun e he hbefore name hstored => ?_) e he).2
    by_cases hold : Stored e.before.store.db name
    · exact hbefore name hold
    · rcases Concurrent.steps_history (fun r => serve_steps settings r) he with
        ⟨r, hout, effect, hmay, hafter⟩ | ⟨-, hsame⟩
      · rw [hafter] at hstored
        exact readable_of_namesReadable hmay hold hstored (hnames e he r hout)
      · rw [hsame] at hstored
        exact absurd hstored hold

end Server

/-! ## A channel no one can read -/

section Sample

private def opsText : String :=
  "\x7b\"channel\":\"-ops\",\"body\":\"hello\",\"intent_id\":\"post-1\"\x7d"

@[reducible] private def opsSha256 : Sha256 := .ofTable
  [(Text.utf8 (messageRequestText "-ops" "message" "hello" none none),
    [30, 119, 118, 45, 133, 142, 22, 163, 120, 19, 219, 215, 105, 7, 206, 41, 212, 161, 133, 224,
      41, 25, 82, 19, 181, 57, 253, 61, 241, 47, 149, 86])]

@[reducible] private def opsJsonParser : JsonParser where
  parse body := [(Text.utf8 opsText, .object [("channel", .string "-ops"),
    ("body", .string "hello"), ("intent_id", .string "post-1")])].lookup body

attribute [local instance] opsSha256 sampleHmac sampleBase64Url opsJsonParser sampleProviderJwt

private def opsSettings : Settings := ⟨[], ⟨none, none⟩, some sampleProvider⟩

private def opsStore : Database :=
  { sampleStore with principalGrants := Table.empty.insertOrIgnore sampleGrant }

private def opsPost : Request := .oidc "alice" (sampleBearer "carol-token") (Text.utf8 opsText)

/-- Carol posts as Alice in a channel she calls `-ops`. -/
def postToOps : List Move := [.start opsPost, .advance 0, .advance 0, .advance 0]

private def beforeOps : Concurrent.Config Request World Response :=
  Transition.run (Concurrent.step (serve opsSettings)) ⟨⟨opsStore, 0⟩, []⟩ (postToOps.take 3)

private def opsPosted : ServerEvent :=
  ⟨beforeOps, .advance 0, (Concurrent.step (serve opsSettings) (.advance 0) beforeOps).1,
    (Concurrent.step (serve opsSettings) (.advance 0) beforeOps).2⟩

private def Request.toOidc : Request → Option (String × Headers × Bytes)
  | .oidc participantId headers body => some (participantId, headers, body)
  | _ => none

private theorem out_opsPosted : opsPosted.out = some opsPost := by
  have h : opsPosted.out.bind Request.toOidc
      = some ("alice", sampleBearer "carol-token", Text.utf8 opsText) := by
    decide +kernel
  obtain ⟨r, hr, hoidc⟩ := Option.bind_eq_some_iff.mp h
  rw [hr]
  cases r with
  | oidc participantId headers body =>
      obtain ⟨rfl, hrest⟩ := Prod.mk.inj (Option.some.inj hoidc)
      obtain ⟨rfl, rfl⟩ := Prod.mk.inj hrest
      rfl
  | _ => exact absurd hoidc (by simp [Request.toOidc])

/-- The channel is created, and its name is refused by whoever would read it. -/
theorem ops_not_readable :
    ¬ ∀ e ∈ serverHistory opsSettings ⟨opsStore, 0⟩ postToOps, ∀ r name, e.out = some r →
      r.IsWrite → ¬ Stored e.before.store.db name → Stored e.after.store.db name →
        Readable name := by
  intro h
  have hlast : opsPosted ∈ serverHistory opsSettings ⟨opsStore, 0⟩ postToOps :=
    Transition.last_mem_history _ _ _ _
  have hnew : (opsPosted.before.store.db.channels.find "-ops").isSome = false := by decide +kernel
  have hstored : (opsPosted.after.store.db.channels.find "-ops").isSome = true := by
    decide +kernel
  have hread := h opsPosted hlast opsPost "-ops" out_opsPosted trivial
    (fun h => absurd (hnew.symm.trans h) (by simp)) hstored
  have hrefused : Http.nameRe "-ops" = false := by decide +kernel
  exact absurd (hrefused.symm.trans hread.read) (by simp)

end Sample

end Blackboard
