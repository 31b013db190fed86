import Blackboard.Proof.StoreInv

/-!
# Channels are created by need and never go

A write makes sure of its channel before it appends, so every message is in a channel that
exists, and no step takes a channel away.
-/

namespace Blackboard

open Relational (Table)

/-! ## Making sure of a channel -/

/-- The row a write creates. -/
def newChannel (now : Int) (channel : String) (createdBy : Option String) : Channel :=
  ⟨channel, defaultVisibility channel, activeStatus, now, now, createdBy⟩

theorem ensureChannel_eq (now : Int) (channel : String) (createdBy : Option String)
    (db : Database) :
    ensureChannel now channel createdBy db
      = { db with channels := db.channels.insertOrIgnore (newChannel now channel createdBy) } := by
  unfold ensureChannel insertChannel
  rw [if_pos]
  · rfl
  · unfold defaultVisibility
    split
    · exact Or.inl rfl
    · exact Or.inr rfl

/-- A channel that exists is left as it is. -/
theorem ensureChannel_of_some {now : Int} {channel : String} {createdBy : Option String}
    {db : Database} {row : Channel} (h : db.channels.find channel = some row) :
    ensureChannel now channel createdBy db = db := by
  have hrow : db.channels.insertOrIgnore (newChannel now channel createdBy) = db.channels :=
    Table.insertOrIgnore_of_some h
  rw [ensureChannel_eq, hrow]

theorem find_ensureChannel (now : Int) (channel : String) (createdBy : Option String)
    (db : Database) (name : String) :
    (ensureChannel now channel createdBy db).channels.find name
      = (db.channels.find name).or
          (if channel = name then some (newChannel now channel createdBy) else none) := by
  rw [ensureChannel_eq]
  exact Table.find_insertOrIgnore name

/-- What a channel holds, it holds after another one was made sure of. -/
theorem find_ensureChannel_of_some {now : Int} {channel name : String} {createdBy : Option String}
    {db : Database} {row : Channel} (h : db.channels.find name = some row) :
    (ensureChannel now channel createdBy db).channels.find name = some row := by
  rw [find_ensureChannel, h, Option.some_or]

theorem find_ensureChannel_isSome (now : Int) (channel : String) (createdBy : Option String)
    (db : Database) : ((ensureChannel now channel createdBy db).channels.find channel).isSome := by
  rw [find_ensureChannel]
  cases db.channels.find channel with
  | none => simp
  | some row => rfl

/-- To make sure of a channel twice is to make sure of it once. -/
theorem ensureChannel_ensureChannel {now : Int} {channel : String} {createdBy : Option String}
    {db : Database} : ensureChannel now channel createdBy (ensureChannel now channel createdBy db)
      = ensureChannel now channel createdBy db := by
  obtain ⟨row, hrow⟩ := Option.isSome_iff_exists.mp
    (find_ensureChannel_isSome now channel createdBy db)
  exact ensureChannel_of_some hrow

/-- A channel that has just been created is active. -/
theorem channelIsActive_ensureChannel_of_none {now : Int} {channel : String}
    {createdBy : Option String} {db : Database} (h : db.channels.find channel = none) :
    channelIsActive (ensureChannel now channel createdBy db) channel = true := by
  unfold channelIsActive channelMetadata
  rw [find_ensureChannel, h, if_pos rfl]
  rfl

/-! ## Keeping channels -/

/-- No channel is taken away. -/
def ChannelsKept (db db' : Database) : Prop :=
  ∀ name, (db.channels.find name).isSome → (db'.channels.find name).isSome

theorem ChannelsKept.of_eq {db db' : Database} (h : db'.channels = db.channels) :
    ChannelsKept db db' := by
  intro name hname
  rw [h]
  exact hname

theorem channelsKept_ensureChannel (now : Int) (channel : String) (createdBy : Option String)
    (db : Database) : ChannelsKept db (ensureChannel now channel createdBy db) := by
  intro name hname
  obtain ⟨row, hrow⟩ := Option.isSome_iff_exists.mp hname
  rw [find_ensureChannel_of_some hrow]
  rfl

theorem ChannelOp.channelsKept (now : Int) (op : ChannelOp) (db : Database) :
    ChannelsKept db (op.apply now db) := by
  intro name hname
  obtain ⟨row, hrow⟩ := Option.isSome_iff_exists.mp hname
  cases op with
  | create channel visibility createdBy =>
      simp only [ChannelOp.apply, createChannel, insertChannel]
      split
      · dsimp only
        rw [Table.find_insertOrIgnore_of_some hrow]
        rfl
      · exact hname
  | update channel visibility status =>
      simp only [ChannelOp.apply, updateChannel]
      split
      · exact hname
      · split
        · exact hname
        · split
          · exact hname
          · dsimp only
            rw [Table.find_update, hrow]
            rfl

/-- Every message is in a channel that exists. -/
def ChanneledInv (db : Database) : Prop :=
  ∀ m ∈ db.messages, (db.channels.find m.channel).isSome

/-- A step keeps the channels, and the messages it adds are in channels that exist then. -/
structure Channeled (db db' : Database) : Prop where
  kept : ChannelsKept db db'
  messages : ∀ m ∈ db'.messages, m ∈ db.messages ∨ (db'.channels.find m.channel).isSome

theorem Channeled.of_eq {db db' : Database} (hm : db'.messages = db.messages)
    (hc : ChannelsKept db db') : Channeled db db' :=
  ⟨hc, fun m h => Or.inl (by rw [← hm]; exact h)⟩

theorem Channeled.inv {db db' : Database} (h : Channeled db db') (hi : ChanneledInv db) :
    ChanneledInv db' := by
  intro m hm
  rcases h.messages m hm with hold | hnew
  · exact h.kept _ (hi m hold)
  · exact hnew

/-- One message more, in a channel the step has made sure of. -/
theorem channeled_of_append {now now' : Int} {identity : Identity} {channel kind body : String}
    {conversationRef createdBy : Option String} {replyTo : Option Int} {db db' : Database}
    (hm : db'.messages = db.messages.append
      (messageRow now identity channel conversationRef kind body replyTo)
      (messageRow_id now identity channel conversationRef kind body replyTo))
    (hc : db'.channels = (ensureChannel now' channel createdBy db).channels) :
    Channeled db db' := by
  refine ⟨fun name hname => ?_, fun m hmem => ?_⟩
  · rw [hc]
    exact channelsKept_ensureChannel now' channel createdBy db name hname
  · rw [hm] at hmem
    rcases mem_append_messageRow.mp hmem with hold | rfl
    · exact Or.inl hold
    · refine Or.inr ?_
      rw [hc]
      exact find_ensureChannel_isSome now' channel createdBy db

section Steps

variable [Sha256] {now : Int} {identity : Identity} {db db' : Database} {m : Message}

omit [Sha256] in
theorem NavigationWritten.channeled {input : NavigationMessageInput}
    (h : NavigationWritten now identity input db m db') : Channeled db db' :=
  channeled_of_append h.messages h.channels

variable {request : MessageExecutionRequest}

theorem FirstExecuted.channeled (h : FirstExecuted now identity request db m db') :
    Channeled db db' :=
  channeled_of_append h.effects.messages h.toAccepted.channels

theorem Replayed.channeled (h : Replayed now identity request db m db') : Channeled db db' := by
  refine Channeled.of_eq (by rw [h.frame]) fun name hname => ?_
  rw [h.toAccepted.channels]
  exact channelsKept_ensureChannel now request.channel _ db name hname

omit [Sha256] in
theorem appendMessage_channeled (now : Int) (identity : Identity) (channel kind body : String)
    (replyTo : Option Int) (db : Database) :
    Channeled db ((appendMessage identity channel kind body replyTo).run ⟨db, now⟩).2.db := by
  have hrun : ((appendMessage identity channel kind body replyTo).run ⟨db, now⟩).2.db
      = (insertMessage now identity channel none kind body replyTo
          (ensureChannel now channel (some identity.inst) db)).2 := rfl
  rw [hrun]
  have hmessages : (insertMessage now identity channel none kind body replyTo
      (ensureChannel now channel (some identity.inst) db)).2.messages
        = db.messages.append (messageRow now identity channel none kind body replyTo)
          (messageRow_id now identity channel none kind body replyTo) := by
    simp only [insertMessage, ensureChannel_eq]
  exact channeled_of_append hmessages rfl

/-- **Every step** keeps the channels and puts its messages into channels that exist. -/
theorem Action.channeled (a : Action) (db : Database) : Channeled db (a.step db).2 := by
  obtain ⟨now, op⟩ := a
  cases op with
  | grant op =>
      have hm : (op.apply now db).messages = db.messages := by rw [(op.edited now db).frame]
      have hc : (op.apply now db).channels = db.channels := by rw [(op.edited now db).frame]
      exact Channeled.of_eq hm (.of_eq hc)
  | participant op =>
      have hm : (op.apply db).messages = db.messages := by rw [(op.edited db).frame]
      have hc : (op.apply db).channels = db.channels := by rw [(op.edited db).frame]
      exact Channeled.of_eq hm (.of_eq hc)
  | channel op =>
      obtain ⟨channels, hch⟩ := op.edited now db
      have hm : (op.apply now db).messages = db.messages := by rw [hch]
      exact Channeled.of_eq hm (op.channelsKept now db)
  | append identity channel kind body replyTo =>
      exact appendMessage_channeled now identity channel kind body replyTo db
  | navigate participantId channel kind body replyTo nonce =>
      simp only [Action.step]
      cases getWebParticipant db participantId with
      | none => exact .of_eq rfl (.of_eq rfl)
      | some identity =>
          simp only
          rcases appendNavigationMessage_cases now identity
              (navigationInput channel kind body replyTo nonce) db with
            ⟨m, -, hw⟩ | ⟨m, -, -, hs⟩ | ⟨hs, -⟩
          · exact hw.channeled
          · rw [hs]
            exact .of_eq rfl (.of_eq rfl)
          · rw [hs]
            exact .of_eq rfl (.of_eq rfl)
  | execute participantId request =>
      simp only [Action.step]
      cases getWebParticipant db participantId with
      | none => exact .of_eq rfl (.of_eq rfl)
      | some identity =>
          simp only
          rcases executeMessageIntent_cases now identity request db with
            ⟨m, -, hf⟩ | ⟨m, -, hr⟩ | ⟨hs, -⟩
          · exact hf.channeled
          · exact hr.channeled
          · rw [hs]
            exact .of_eq rfl (.of_eq rfl)

/-- **After every run** every message is in a channel that exists. -/
theorem channeledInv_stateAfter (actions : List Action) : ChanneledInv (stateAfter actions) :=
  Transition.inv_run_of_forall (P := fun _ => True) (fun db a h _ => (a.channeled db).inv h)
    (fun _ h => absurd h (Table.not_mem_empty _)) fun _ _ => trivial

end Steps

end Blackboard
