import Blackboard.Lib.Concurrent
import Blackboard.Model.Identity

/-!
# Channels and messages (`db.rs`)

The statements the write paths are made of, and the functions over them. A function that
the source runs as one transaction is a `Statement`; one whose statements commit one by
one is a `Program`, so that other requests may come in between.
-/

namespace Blackboard

open Relational (Table TxEnd transaction orderBy)
open Concurrent (Program)

/-! ## Requests in progress -/

/-- What requests share: the database, and the clock `unixepoch()` reads. -/
structure World where
  db : Database
  now : Int

/-- One autocommitted statement or one transaction of a request. -/
def statement {α : Type} (op : Int → Database → α × Database) : Program World α :=
  .atomic fun w => ((op w.now w.db).1, { w with db := (op w.now w.db).2 })

/-- One query of a request. -/
def query {α : Type} (q : Database → α) : Program World α := .read fun w => q w.db

/-! ## Statements -/

def activeStatus : String := "active"

/-- The visibility a channel gets when a write creates it. -/
def defaultVisibility (channel : String) : String :=
  if channel = "blackboard-lounge" then "public" else "private"

/-- `INSERT OR IGNORE INTO channels (name, visibility, status, created_by)`. The checks of the
table drop a row with an unknown visibility as well. -/
def insertChannel (now : Int) (channel visibility : String) (createdBy : Option String)
    (db : Database) : Database :=
  if visibility = "public" ∨ visibility = "private" then
    { db with
      channels := db.channels.insertOrIgnore
        ⟨channel, visibility, activeStatus, now, now, createdBy⟩ }
  else db

/-- The row `INSERT INTO messages` makes for the id it is given. -/
def messageRow (now : Int) (identity : Identity) (channel : String)
    (conversationRef : Option String) (kind body : String) (replyTo : Option Int) (id : Int) :
    Message :=
  ⟨id, now, channel, identity.source, identity.inst, conversationRef, kind, body, replyTo⟩

@[simp] theorem messageRow_id (now : Int) (identity : Identity) (channel : String)
    (conversationRef : Option String) (kind body : String) (replyTo : Option Int) (id : Int) :
    (messageRow now identity channel conversationRef kind body replyTo id).id = id := rfl

/-- `INSERT INTO messages`, and the row id it was given. -/
def insertMessage (now : Int) (identity : Identity) (channel : String)
    (conversationRef : Option String) (kind body : String) (replyTo : Option Int)
    (db : Database) : Int × Database :=
  (db.messages.nextId,
    { db with
      messages := db.messages.append
        (messageRow now identity channel conversationRef kind body replyTo)
        (messageRow_id now identity channel conversationRef kind body replyTo) })

/-- `INSERT OR IGNORE INTO navigation_writes`, and whether it inserted. -/
def reserveNavigation (now : Int) (inst nonce requestHash : String) (db : Database) :
    Bool × Database :=
  ((db.navigationWrites.find (inst, nonce)).isNone,
    { db with
      navigationWrites := db.navigationWrites.insertOrIgnore ⟨inst, nonce, requestHash, 0, now⟩ })

/-- `UPDATE navigation_writes SET message_id = ? WHERE instance = ? AND nonce = ?`. -/
def setNavigationMessage (inst nonce : String) (messageId : Int) (db : Database) : Database :=
  { db with
    navigationWrites := db.navigationWrites.update
      (fun row => decide (row.pair = (inst, nonce))) (NavigationWrite.setMessage messageId)
      (NavigationWrite.pair_setMessage messageId) }

def messageExists (db : Database) (id : Int) : Bool := (db.messages.find id).isSome

/-- A reply target is asked for and there is no such message. -/
def replyTargetMissing (db : Database) (replyTo : Option Int) : Bool :=
  replyTo.any fun target => !messageExists db target

def messageById (db : Database) (id : Int) : Except SqlError Message :=
  match db.messages.find id with
  | some message => .ok message
  | none => .error .queryReturnedNoRows

/-! ## Channels -/

def channelMetadata (db : Database) (channel : String) : Option Channel := db.channels.find channel

/-- The channel exists and its status is `active`. -/
def channelIsActive (db : Database) (channel : String) : Bool :=
  (channelMetadata db channel).any fun row => decide (row.status = activeStatus)

def channelIsPublicActive (db : Database) (channel : String) : Bool :=
  (channelMetadata db channel).any fun row =>
    decide (row.visibility = "public" ∧ row.status = activeStatus)

def ensureChannel (now : Int) (channel : String) (createdBy : Option String) (db : Database) :
    Database :=
  insertChannel now channel (defaultVisibility channel) createdBy db

/-- Two statements: the channel is created if it is missing, then its status is read. -/
def ensureChannelForWrite (channel : String) (createdBy : Option String) : Program World Bool := do
  statement fun now db => ((), ensureChannel now channel createdBy db)
  query fun db => channelIsActive db channel

def createChannel (now : Int) (channel visibility : String) (createdBy : Option String) :
    Statement Bool := fun db =>
  let db' := insertChannel now channel visibility createdBy db
  (.ok (decide (db'.channels.rows.length ≠ db.channels.rows.length)), db')

/-- The values the checks of `channels` admit. -/
def channelCheck (visibility status : Option String) : Bool :=
  visibility.all (fun v => decide (v = "public" ∨ v = "private"))
    && status.all fun s => decide (s = activeStatus ∨ s = "archived")

def updateChannel (now : Int) (channel : String) (visibility status : Option String) :
    Statement Bool := fun db =>
  if visibility = none ∧ status = none then (.ok false, db)
  else
    match db.channels.find channel with
    | none => (.ok false, db)
    | some _ =>
        if channelCheck visibility status = false then (.error .constraintViolation, db)
        else
          (.ok true,
            { db with
              channels := db.channels.update (fun row => decide (row.name = channel))
                (fun row => { row with
                  visibility := visibility.getD row.visibility
                  status := status.getD row.status
                  updatedAt := now })
                fun _ => rfl })

/-! ## The channel directory -/

def maxChannelDirectoryWindowSize : Nat := 200
def defaultChannelDirectoryWindowSize : Nat := 20

/-- A channel as the directory shows it. -/
structure ChannelSummary where
  channel : String
  messageCount : Nat
  lastId : Int
  visibility : String
  status : String
  createdAt : Int
  updatedAt : Int
  createdBy : Option String
  deriving DecidableEq, Repr

/-- The group of a channel in `channels LEFT JOIN messages`: `COUNT(m.id)` and
`COALESCE(MAX(m.id), 0)`. -/
def channelSummary (db : Database) (row : Channel) : ChannelSummary :=
  let ids := (db.messages.rows.filter fun m => decide (m.channel = row.name)).map Message.id
  ⟨row.name, ids.length, ids.max?.getD 0, row.visibility, row.status, row.createdAt,
    row.updatedAt, row.createdBy⟩

structure ChannelDirectoryWindowRequest where
  afterName : Option String
  limit : Option Nat
  publicOnly : Bool

def readChannelDirectoryRows (db : Database) (publicOnly : Bool) (afterName : Option String)
    (fetchLimit : Nat) : List ChannelSummary :=
  ((orderBy (fun a b : Channel => a.name ≤ b.name)
    (db.channels.rows.filter fun row =>
      (!publicOnly || decide (row.visibility = "public" ∧ row.status = activeStatus))
        && afterName.all fun after => decide (row.name > after))).take fetchLimit).map
    (channelSummary db)

/-- The channels of a page, and whether there are more: one row beyond the page tells. -/
def readChannelDirectoryWindow (db : Database) (request : ChannelDirectoryWindowRequest) :
    Except SqlError (List ChannelSummary × Bool) :=
  if request.afterName = some "" then .error .invalidQuery
  else
    let limit := request.limit.getD defaultChannelDirectoryWindowSize
    if ¬ (1 ≤ limit ∧ limit ≤ maxChannelDirectoryWindowSize) then .error .invalidQuery
    else
      let channels := readChannelDirectoryRows db request.publicOnly request.afterName (limit + 1)
      .ok (channels.take limit, decide (channels.length > limit))

/-! ## Messages -/

def listMessagesAfter (db : Database) (after : Int) (channel : Option String) (limit : Nat) :
    List Message :=
  (orderBy (fun a b : Message => a.id ≤ b.id)
    (db.messages.rows.filter fun m => channel.all (fun c => decide (m.channel = c))
      && decide (m.id > after))).take limit

/-- Three statements: create the channel, insert the message, read it back. -/
def appendMessage (identity : Identity) (channel kind body : String) (replyTo : Option Int) :
    Program World (Except SqlError Message) := do
  statement fun now db => ((), ensureChannel now channel (some identity.inst) db)
  let id ← statement fun now db => insertMessage now identity channel none kind body replyTo db
  query fun db => messageById db id

inductive NavigationAppendResult where
  | created (message : Message)
  | existing (message : Message)
  | nonceConflict
  | replyTargetNotFound
  deriving DecidableEq, Repr

structure NavigationMessageInput where
  channel : String
  kind : String
  body : String
  replyTo : Option Int
  nonce : String
  requestHash : String

/-- The nonce is taken: the stored hash decides between the stored message and a conflict.
Either way the transaction is dropped. -/
def existingNavigation (db : Database) (inst nonce requestHash : String) :
    Except SqlError (TxEnd Database NavigationAppendResult) :=
  match db.navigationWrites.find (inst, nonce) with
  | none => .error .queryReturnedNoRows
  | some stored =>
      if stored.requestHash ≠ requestHash then .ok (.rollback .nonceConflict)
      else
        match messageById db stored.messageId with
        | .error e => .error e
        | .ok message => .ok (.rollback (.existing message))

/-- The nonce was free and is now reserved: insert the message and point the reservation at it. -/
def insertReservedMessage (now : Int) (identity : Identity) (channel : String)
    (conversationRef : Option String) (kind body : String) (replyTo : Option Int) (nonce : String)
    (db : Database) : Except SqlError (Message × Database) :=
  let (messageId, db) := insertMessage now identity channel conversationRef kind body replyTo db
  let db := setNavigationMessage identity.inst nonce messageId db
  match messageById db messageId with
  | .error e => .error e
  | .ok message => .ok (message, db)

/-- The body of the transaction. -/
def appendNavigationMessageInTx (now : Int) (identity : Identity)
    (input : NavigationMessageInput) (conversationRef : Option String) (db : Database) :
    Except SqlError (TxEnd Database NavigationAppendResult) :=
  let db := ensureChannel now input.channel (some identity.inst) db
  let (reserved, db) := reserveNavigation now identity.inst input.nonce input.requestHash db
  if reserved = false then existingNavigation db identity.inst input.nonce input.requestHash
  else if replyTargetMissing db input.replyTo then .ok (.rollback .replyTargetNotFound)
  else
    match insertReservedMessage now identity input.channel conversationRef input.kind input.body
        input.replyTo input.nonce db with
    | .error e => .error e
    | .ok (message, db) => .ok (.commit (.created message) db)

def appendNavigationMessageWithConversation (now : Int) (identity : Identity)
    (input : NavigationMessageInput) (conversationRef : Option String) :
    Statement NavigationAppendResult :=
  transaction (appendNavigationMessageInTx now identity input conversationRef)

def appendNavigationMessage (now : Int) (identity : Identity) (input : NavigationMessageInput) :
    Statement NavigationAppendResult :=
  appendNavigationMessageWithConversation now identity input none

end Blackboard
