import Blackboard.Model.Http

/-!
# Message windows (`history.rs`)

`GET /api/messages/window` pages through a channel in either direction. A page takes two
queries, one for its rows and one for what lies beyond them, and other requests may come
in between.
-/

namespace Blackboard

open Relational (orderBy)
open Concurrent (Program)

namespace History

def defaultWindowSize : Nat := 20
def maxWindowSize : Nat := 200

structure MessageWindowQuery where
  channel : String
  before : Option Int
  after : Option Int
  limit : Option Nat
  order : Option String

inductive MessageOrder where
  | desc
  | asc
  deriving DecidableEq, Repr

namespace MessageOrder

def parse (value : Option String) : Option MessageOrder :=
  match value.getD "desc" with
  | "desc" => some desc
  | "asc" => some asc
  | _ => none

def asStr : MessageOrder → String
  | desc => "desc"
  | asc => "asc"

end MessageOrder

/-! ## Queries -/

def listMessageWindow (db : Database) (channel : String) (order : MessageOrder)
    (before after : Option Int) (limit : Nat) : List Message :=
  match order with
  | .desc =>
      (orderBy (fun a b : Message => b.id ≤ a.id)
        (db.messages.rows.filter fun m => decide (m.channel = channel)
          && before.all fun before => decide (m.id < before))).take limit
  | .asc =>
      (orderBy (fun a b : Message => a.id ≤ b.id)
        (db.messages.rows.filter fun m => decide (m.channel = channel)
          && after.all fun after => decide (m.id > after))).take limit

def hasMessageBefore (db : Database) (channel : String) (id : Int) : Bool :=
  db.messages.rows.any fun m => decide (m.channel = channel ∧ m.id < id)

def hasMessageAfter (db : Database) (channel : String) (id : Int) : Bool :=
  db.messages.rows.any fun m => decide (m.channel = channel ∧ m.id > id)

/-- The query for what lies beyond the last row of a page. -/
def hasMore (db : Database) (channel : String) (order : MessageOrder) (id : Int) : Bool :=
  match order with
  | .desc => hasMessageBefore db channel id
  | .asc => hasMessageAfter db channel id

/-- The two queries of a page. An empty page has nothing beyond it. -/
def readWindow (channel : String) (order : MessageOrder) (before after : Option Int)
    (limit : Nat) : Program World (List Message × Bool) := do
  let rows ← query fun db => listMessageWindow db channel order before after limit
  match rows.getLast? with
  | some last =>
      let more ← query fun db => hasMore db channel order last.id
      return (rows, more)
  | none => return (rows, false)

/-! ## The route -/

def parseWindow (q : MessageWindowQuery) : Except ApiError (MessageOrder × Nat) := do
  if Http.nameRe q.channel = false then .error (.badRequest "invalid_channel")
  if (q.before.any fun value => decide (value ≤ 0))
      ∨ (q.after.any fun value => decide (value ≤ 0)) then
    .error (.badRequest "invalid_query")
  let order ← match MessageOrder.parse q.order with
    | some order => .ok order
    | none => .error (.badRequest "invalid_order")
  if q.before.isSome ∧ q.after.isSome then .error (.badRequest "invalid_query")
  if order = .desc ∧ q.after.isSome ∨ order = .asc ∧ q.before.isSome then
    .error (.badRequest "invalid_query")
  let limit := q.limit.getD defaultWindowSize
  if ¬ (1 ≤ limit ∧ limit ≤ maxWindowSize) then .error (.badRequest "invalid_query")
  return (order, limit)

def windowResponse (order : MessageOrder) (page : List Message × Bool) : Response :=
  ⟨200, .window page.1 order.asStr page.2⟩

variable [Sha256] [Hmac] [Base64Url] [JsonParser]

/-- `message_window`. -/
def messageWindow (key : Bytes) (headers : Headers) (requestTarget : String)
    (q : MessageWindowQuery) : Program World Response :=
  match parseWindow q with
  | .error e => .done e.response
  | .ok (order, limit) => do
      let session ← RequestAuth.verifiedWebSession key headers
      if session.any fun session => decide (session.sessionType = .guest) then
        if ← query fun db => channelIsPublicActive db q.channel then
          let page ← readWindow q.channel order q.before q.after limit
          return windowResponse order page
        else return ApiError.forbidden.response
      else
        match ← RequestAuth.resolveRequestIdentityForTarget key headers "GET" requestTarget with
        | none => return ApiError.unauthorized.response
        | some _ =>
            let page ← readWindow q.channel order q.before q.after limit
            return windowResponse order page

end History

end Blackboard
