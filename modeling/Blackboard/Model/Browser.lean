import Blackboard.Model.Server

/-!
# The browser (`web/app.js`)

The page shows one channel at a time. What the user does and the poll timer send requests
to the server, and the page goes on when the answer is there. Between the two anything may
happen: each `await` is a point where other handlers run, and they share one state.

Here the page is a client of the whole server. Its requests join the pool of all requests in
flight, and an answer may be received at any time after it was given.

Left out are the parts of the page that show no messages: the channel directory, the control
panel, the composer and the login.
-/

namespace Blackboard

open History (MessageOrder)

namespace Browser

def historyPageSize : Nat := 20
def pollLimit : Nat := 200

/-- The largest number up to which every integer has its own double. -/
def maxSafeInteger : Int := 2 ^ 53 - 1

/-- The part of `state` the timeline has to do with, and the messages the timeline shows from top
to bottom. -/
structure State where
  sessionToken : String
  channel : String
  lastId : Int
  oldestId : Int
  hasOlder : Bool
  followLatest : Bool
  historyTargetId : Option Int
  order : MessageOrder
  timeline : List Message

/-! ## Requests -/

/-- `encodeURIComponent` leaves letters, digits and these alone. -/
def unreserved (c : Char) : Bool :=
  c.isAlphanum || ['-', '_', '.', '!', '~', '*', Char.ofNat 39, '(', ')'].contains c

def percentEncode (byte : UInt8) : List Char :=
  ['%', (Text.hexDigit (byte.toNat / 16)).toUpper, (Text.hexDigit (byte.toNat % 16)).toUpper]

def encodeURIComponent (s : String) : String :=
  String.ofList (s.toList.flatMap fun c =>
    if unreserved c then [c] else (Text.utf8 (String.singleton c)).flatMap percentEncode)

/-- Which handler waits for an answer. -/
inductive Waiting where
  | loadLatestHistory
  | loadOlderHistory
  | jumpToMessage (id : Int)
  | poll
  deriving DecidableEq, Repr

/-- A request of the page: the handler, and what it wrote into the address. -/
structure Fetch where
  waiting : Waiting
  channel : String
  order : MessageOrder
  cursor : Option Int
  deriving DecidableEq, Repr

namespace Fetch

/-- `before` goes down, `after` goes up. -/
def before (f : Fetch) : Option Int :=
  match f.order with
  | .desc => f.cursor
  | .asc => none

def after (f : Fetch) : Option Int :=
  match f.order with
  | .desc => none
  | .asc => f.cursor

def windowPath (f : Fetch) : String :=
  "/api/messages/window?channel=" ++ encodeURIComponent f.channel ++ "&order=" ++ f.order.asStr
    ++ ((f.before.map fun id => "&before=" ++ toString id).getD "")
    ++ ((f.after.map fun id => "&after=" ++ toString id).getD "")
    ++ "&limit=" ++ toString historyPageSize

def pollPath (f : Fetch) : String :=
  "/api/messages?channel=" ++ encodeURIComponent f.channel ++ "&after="
    ++ toString (f.cursor.getD 0) ++ "&limit=" ++ toString pollLimit

/-- The headers `api` sets. -/
def headers (sessionToken : String) : Headers :=
  ("accept", some "application/json")
    :: if sessionToken = "" then [] else [(WebAuth.webSessionHeader, some sessionToken)]

/-- The request as it reaches the server. -/
def request (sessionToken : String) (f : Fetch) : Request :=
  match f.waiting with
  | .poll =>
      .messages (headers sessionToken) f.pollPath
        [("channel", f.channel), ("after", toString (f.cursor.getD 0)),
          ("limit", toString pollLimit)]
  | _ =>
      .messageWindow (headers sessionToken) f.windowPath
        { channel := f.channel
          before := f.before
          after := f.after
          limit := some historyPageSize
          order := some f.order.asStr }

end Fetch

/-! ## The timeline -/

def resetHistory (s : State) : State :=
  { s with lastId := 0, oldestId := 0, hasOlder := false, timeline := [] }

inductive Placement where
  | append
  | prepend
  deriving DecidableEq, Repr

def place (placement : Placement) (message : Message) (timeline : List Message) : List Message :=
  match placement with
  | .append => timeline ++ [message]
  | .prepend => message :: timeline

/-- A message that is shown is not shown again. -/
def appendMessage (placement : Placement) (s : State) (message : Message) : State :=
  if s.timeline.any fun shown => decide (shown.id = message.id) then s
  else
    { s with
      lastId := max s.lastId message.id
      oldestId := if s.oldestId ≠ 0 then min s.oldestId message.id else message.id
      timeline := place placement message s.timeline }

/-- `for (const message of messages) appendMessage(message, placement)`. -/
def appendMessages (placement : Placement) (messages : List Message) (s : State) : State :=
  messages.foldl (appendMessage placement) s

/-! ## Handlers up to their request -/

def loadLatestHistory (s : State) : State × Option Fetch :=
  if s.channel = "" then (s, none)
  else
    (resetHistory { s with followLatest := decide (s.order = .desc), historyTargetId := none },
      some ⟨.loadLatestHistory, s.channel, s.order, none⟩)

def selectChannel (channel : String) (s : State) : State × Option Fetch :=
  loadLatestHistory (resetHistory
    { s with channel, followLatest := decide (s.order = .desc), historyTargetId := none })

def loadOlderHistory (s : State) : State × Option Fetch :=
  if s.channel = "" ∨ s.hasOlder = false then (s, none)
  else
    match s.order with
    | .desc =>
        if s.oldestId = 0 then (s, none)
        else (s, some ⟨.loadOlderHistory, s.channel, .desc, some s.oldestId⟩)
    | .asc =>
        if s.lastId = 0 then (s, none)
        else (s, some ⟨.loadOlderHistory, s.channel, .asc, some s.lastId⟩)

/-- The window around a message: it ends in it, or starts with it. -/
def jumpCursor (order : MessageOrder) (id : Int) : Option Int :=
  match order with
  | .desc => some (id + 1)
  | .asc => if id > 1 then some (id - 1) else none

def jumpToMessage (id : Int) (s : State) : State × Option Fetch :=
  if s.channel = "" then (s, none)
  else if id ≤ 0 ∨ id ≥ maxSafeInteger then (s, none)
  else if s.timeline.any fun shown => decide (shown.id = id) then (s, none)
  else (s, some ⟨.jumpToMessage id, s.channel, s.order, jumpCursor s.order id⟩)

def poll (s : State) : State × Option Fetch :=
  if s.sessionToken = "" ∨ s.channel = "" ∨ s.followLatest = false ∨ s.order ≠ .desc then (s, none)
  else (s, some ⟨.poll, s.channel, .asc, some s.lastId⟩)

/-- The channel is created when the first message is posted; until then it is only selected. -/
def createEphemeralChannel (channel : String) (s : State) : State × Option Fetch :=
  if Http.nameRe channel = false then (s, none)
  else (resetHistory { s with channel }, none)

/-- The button `Refresh`. -/
def refresh (s : State) : State × Option Fetch :=
  match s.historyTargetId with
  | some target => jumpToMessage target (resetHistory s)
  | none => loadLatestHistory s

/-- The button `Back to latest`. -/
def backToLatest (s : State) : State × Option Fetch := loadLatestHistory { s with order := .desc }

def changeOrder (order : MessageOrder) (s : State) : State × Option Fetch :=
  loadLatestHistory { s with order }

/-! ## Handlers from their answer on -/

/-- `clearSession`. -/
def disconnect (s : State) : State :=
  resetHistory { s with
    sessionToken := ""
    channel := ""
    order := .desc
    followLatest := true
    historyTargetId := none }

/-- `data.has_more`. -/
def hasMore (r : Response) : Bool :=
  match r.payload with
  | .window _ _ more => more
  | _ => false

/-- What the handler does with the messages of an answer. -/
def accept (waiting : Waiting) (r : Response) (s : State) : State :=
  match waiting with
  | .loadLatestHistory => { appendMessages .append r.messages s with hasOlder := hasMore r }
  | .loadOlderHistory => { appendMessages .append r.messages s with hasOlder := hasMore r }
  | .jumpToMessage id =>
      if r.messages.any fun message => decide (message.id = id) then
        { appendMessages .append r.messages
            (resetHistory { s with followLatest := false, historyTargetId := some id }) with
          hasOlder := hasMore r }
      else s
  | .poll => appendMessages .prepend r.messages s

/-- `response.ok`. -/
def ok (r : Response) : Bool := decide (200 ≤ r.status ∧ r.status < 300)

/-- An answer that is an error changes nothing, unless the session is at its end. -/
def receive (waiting : Waiting) (r : Response) (s : State) : State :=
  if ok r then accept waiting r s
  else if r.status = 401 then disconnect s
  else s

/-! ## The page and the server -/

/-- What makes the page act: the user, the poll timer, and the end of a post. -/
inductive Input where
  | selectChannel (channel : String)
  | createEphemeralChannel (channel : String)
  | changeOrder (order : MessageOrder)
  | backToLatest
  | refresh
  | posted
  | loadOlderHistory
  | jumpToMessage (id : Int)
  | poll

def Input.handle : Input → State → State × Option Fetch
  | selectChannel channel => Browser.selectChannel channel
  | createEphemeralChannel channel => Browser.createEphemeralChannel channel
  | changeOrder order => Browser.changeOrder order
  | backToLatest => Browser.backToLatest
  | refresh => Browser.refresh
  | posted => loadLatestHistory
  | loadOlderHistory => Browser.loadOlderHistory
  | jumpToMessage id => Browser.jumpToMessage id
  | poll => Browser.poll

/-- A request the page waits for, and its place among the requests in flight. -/
structure Pending where
  fetch : Fetch
  place : Nat

structure Tab where
  state : State
  pending : List Pending
  server : Concurrent.Config Request World Response

/-- What happens next: something at the page, something at the server, an answer that arrives, or
one that never will. -/
inductive TabMove where
  | input (input : Input)
  | server (move : Move)
  | receive (index : Nat)
  | lose (index : Nat)

/-- The answer the server has given to a request of the page, if it has. -/
def answered (server : Concurrent.Config Request World Response) (p : Pending) : Option Response :=
  (server.pool[p.place]?).bind fun thread => thread.rest.result?

section Steps

variable [Sha256] [Hmac] [Base64Url] [JsonParser] [Jwt]

/-- The page starts a request. -/
def send (settings : Settings) (sessionToken : String) (fetch : Option Fetch) (t : Tab) : Tab :=
  match fetch with
  | none => t
  | some fetch =>
      { t with
        pending := t.pending ++ [⟨fetch, t.server.pool.length⟩]
        server := (Concurrent.step (serve settings) (.start (fetch.request sessionToken))
          t.server).2 }

/-- One step of the page and the server. It reports the answer that was received. -/
def step (settings : Settings) (m : TabMove) (t : Tab) : Option (Fetch × Response) × Tab :=
  match m with
  | .input input =>
      let (state, fetch) := input.handle t.state
      (none, send settings t.state.sessionToken fetch { t with state })
  | .server move => (none, { t with server := (Concurrent.step (serve settings) move t.server).2 })
  | .receive index =>
      match t.pending[index]? with
      | none => (none, t)
      | some p =>
          match answered t.server p with
          | none => (none, t)
          | some response =>
              (some (p.fetch, response),
                { t with
                  state := Browser.receive p.fetch.waiting response t.state
                  pending := t.pending.eraseIdx index })
  | .lose index => (none, { t with pending := t.pending.eraseIdx index })

/-- The page after a login, on a store that any operations may have filled. -/
def opened (sessionToken : String) (actions : List Action) (now : Int) : Tab where
  state :=
    { sessionToken
      channel := ""
      lastId := 0
      oldestId := 0
      hasOlder := false
      followLatest := true
      historyTargetId := none
      order := .desc
      timeline := [] }
  pending := []
  server := ⟨⟨stateAfter actions, now⟩, []⟩

/-- A run of the page, the server and everybody else. -/
abbrev TabEvent := Transition.Event Tab TabMove (Option (Fetch × Response))

def tabHistory (settings : Settings) (t : Tab) (moves : List TabMove) : List TabEvent :=
  Transition.history (step settings) t moves

end Steps

end Browser

end Blackboard
