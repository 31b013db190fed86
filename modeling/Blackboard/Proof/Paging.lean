import Blackboard.Lib.Paging
import Blackboard.Model.History
import Blackboard.Proof.Ledger

/-!
# Paging through a channel

A client reads a channel page by page while others append. Polling goes up from the last
message received, walking goes down window by window until a window says that there is no
more. Both are clients of the queries the routes run, with appends allowed before every
query, and both come down to the page rule of the library: going up, what was received
covers the table of the last page; going down, the table of the first.
-/

namespace Blackboard

open Relational (Table orderBy page Ahead Covers cursorAfter)
open Concurrent (Program)
open History (MessageOrder listMessageWindow readWindow)

/-- What others do between two queries: messages come in under larger ids, and stay. -/
def OthersAppend (w w' : World) : Prop := w.db.messages.Extends w'.db.messages

/-! ## The operations append -/

section Operations

variable [Sha256]

/-- What an operation does to the messages: nothing, or one more. -/
theorem Action.cases_messages (a : Action) (db : Database) :
    (a.step db).2.messages = db.messages
    ∨ ∃ (mk : Int → Message) (hmk : ∀ i, (mk i).id = i),
        (a.step db).2.messages = db.messages.append mk hmk := by
  obtain ⟨now, op⟩ := a
  cases op with
  | grant op =>
      have hm : (op.apply now db).messages = db.messages := by rw [(op.edited now db).frame]
      exact Or.inl hm
  | participant op =>
      have hm : (op.apply db).messages = db.messages := by rw [(op.edited db).frame]
      exact Or.inl hm
  | channel op =>
      obtain ⟨channels, hch⟩ := op.edited now db
      have hm : (op.apply now db).messages = db.messages := by rw [hch]
      exact Or.inl hm
  | append identity channel kind body replyTo =>
      obtain ⟨channels, hrun⟩ := appendMessage_run now identity channel kind body replyTo db
      simp only [Action.step]
      rw [hrun]
      exact Or.inr ⟨_, messageRow_id now identity channel none kind body replyTo, rfl⟩
  | navigate participantId channel kind body replyTo nonce =>
      simp only [Action.step]
      cases getWebParticipant db participantId with
      | none => exact Or.inl rfl
      | some identity =>
          simp only
          rcases appendNavigationMessage_cases now identity
              (navigationInput channel kind body replyTo nonce) db with
            ⟨m, -, hw⟩ | ⟨m, -, -, hs⟩ | ⟨hs, -⟩
          · exact Or.inr ⟨_, messageRow_id _ _ _ _ _ _ _, hw.messages⟩
          · exact Or.inl (by rw [hs])
          · exact Or.inl (by rw [hs])
  | execute participantId request =>
      simp only [Action.step]
      cases getWebParticipant db participantId with
      | none => exact Or.inl rfl
      | some identity =>
          simp only
          rcases executeMessageIntent_cases now identity request db with
            ⟨m, -, hf⟩ | ⟨m, -, hr⟩ | ⟨hs, -⟩
          · exact Or.inr ⟨_, messageRow_id _ _ _ _ _ _ _, hf.effects.messages⟩
          · exact Or.inl (by rw [hr.frame])
          · exact Or.inl (by rw [hs])

/-- **Every operation** of the store appends messages or leaves them alone. -/
theorem Action.extends (a : Action) (db : Database) :
    db.messages.Extends (a.step db).2.messages := by
  rcases a.cases_messages db with hsame | ⟨mk, hmk, happ⟩
  · exact .of_eq hsame
  · rw [happ]
    exact Table.extends_append _ mk hmk

/-- Whatever others do to the store, they append. -/
theorem othersAppend_of_run (w : World) (actions : List Action) (now : Int) :
    OthersAppend w ⟨Transition.run Action.step w.db actions, now⟩ :=
  Transition.rel_run (R := fun db db' : Database => db.messages.Extends db'.messages)
    (fun db => .refl db.messages) (fun h h' => h.trans h') (fun db a => a.extends db) w.db actions

end Operations

/-! ## Clients -/

/-- A page a client was given, and how many rows it had asked for. -/
structure Page where
  limit : Nat
  rows : List Message

def received (pages : List Page) : List Message := pages.flatMap Page.rows

def lastId (pages : List Page) : Option Int := (received pages).getLast?.map Message.id

/-- A client that polls a channel: it asks for what comes after the last id it received. -/
inductive Polls (channel : String) (start : Option Int) : List Page → World → Prop
  | start (w : World) : Polls channel start [] w
  | window {pages : List Page} {w w' : World} {limit : Nat} {rows : List Message} {more : Bool}
      (polled : Polls channel start pages w)
      (answered : (readWindow channel .asc none ((lastId pages).or start) limit).Answers
        OthersAppend w (rows, more) w') :
      Polls channel start (pages ++ [⟨limit, rows⟩]) w'
  | list {pages : List Page} {w w' : World} {limit : Nat} {rows : List Message} {after : Int}
      (polled : Polls channel start pages w) (cursor : (lastId pages).or start = some after)
      (answered : (query fun db => listMessagesAfter db after (some channel) limit).Answers
        OthersAppend w rows w') :
      Polls channel start (pages ++ [⟨limit, rows⟩]) w'

/-- A client that walks a channel down: it asks for what comes before the last id of the page it
has, as long as that page says that there is more. -/
inductive Walks (channel : String) (start : Option Int) : List Page → Bool → World → Prop
  | first {w w' : World} {limit : Nat} {rows : List Message} {more : Bool} (positive : 0 < limit)
      (answered : (readWindow channel .desc start none limit).Answers OthersAppend w
        (rows, more) w') :
      Walks channel start [⟨limit, rows⟩] more w'
  | next {pages : List Page} {w w' : World} {limit : Nat} {rows : List Message} {more : Bool}
      (walked : Walks channel start pages true w) (positive : 0 < limit)
      (answered : (readWindow channel .desc (lastId pages) none limit).Answers OthersAppend w
        (rows, more) w') :
      Walks channel start (pages ++ [⟨limit, rows⟩]) more w'

/-! ## One page -/

theorem received_snoc (pages : List Page) (p : Page) :
    received (pages ++ [p]) = received pages ++ p.rows := by
  simp [received]

theorem readWindow_answers {E : World → World → Prop} {channel : String} {order : MessageOrder}
    {before after : Option Int} {limit : Nat} {w w' : World} {rows : List Message} {more : Bool}
    (h : (readWindow channel order before after limit).Answers E w (rows, more) w') :
    ∃ snapshot : World, E w snapshot
      ∧ rows = listMessageWindow snapshot.db channel order before after limit
      ∧ ((rows = [] ∧ more = false ∧ w' = snapshot)
        ∨ ∃ last, rows.getLast? = some last ∧ E snapshot w'
          ∧ more = History.hasMore w'.db channel order last.id) := by
  obtain ⟨snapshot, hothers, h⟩ := Program.answers_read_bind.mp h
  cases hlast : (listMessageWindow snapshot.db channel order before after limit).getLast? with
  | none =>
      rw [hlast] at h
      obtain ⟨heq, hw⟩ := Program.answers_done.mp h
      obtain ⟨hrows, hmore⟩ := Prod.mk.inj heq
      refine ⟨snapshot, hothers, hrows, Or.inl ⟨?_, hmore, hw⟩⟩
      rw [hrows]
      exact List.getLast?_eq_none_iff.mp hlast
  | some last =>
      rw [hlast] at h
      obtain ⟨finish, hlater, h⟩ := Program.answers_read_bind.mp h
      obtain ⟨heq, hw⟩ := Program.answers_done.mp h
      obtain ⟨hrows, hmore⟩ := Prod.mk.inj heq
      refine ⟨snapshot, hothers, hrows, Or.inr ⟨last, ?_, ?_, ?_⟩⟩
      · rw [hrows]
        exact hlast
      · rw [hw]
        exact hlater
      · rw [hw]
        exact hmore

/-- A message lies beyond a row in the direction of the page. -/
def BeyondRow (order : MessageOrder) (id last : Int) : Prop :=
  match order with
  | .desc => id < last
  | .asc => last < id

theorem hasMore_iff {db : Database} {channel : String} {order : MessageOrder} {last : Int} :
    History.hasMore db channel order last = true
      ↔ ∃ m ∈ db.messages, m.channel = channel ∧ BeyondRow order m.id last := by
  cases order with
  | desc =>
      simp only [History.hasMore, History.hasMessageBefore, List.any_eq_true, decide_eq_true_eq]
      exact Iff.rfl
  | asc =>
      simp only [History.hasMore, History.hasMessageAfter, List.any_eq_true, decide_eq_true_eq]
      exact Iff.rfl

/-- **`has_more`** is exact in the state it is asked in. -/
theorem readWindow_hasMore {E : World → World → Prop} {channel : String} {order : MessageOrder}
    {before after : Option Int} {limit : Nat} {w w' : World} {rows : List Message} {more : Bool}
    (h : (readWindow channel order before after limit).Answers E w (rows, more) w') :
    more = true ↔ ∃ last, rows.getLast? = some last
      ∧ ∃ m ∈ w'.db.messages, m.channel = channel ∧ BeyondRow order m.id last.id := by
  obtain ⟨snapshot, -, -, ⟨hnil, hmore, -⟩ | ⟨last, hlast, -, hmore⟩⟩ := readWindow_answers h
  · rw [hnil, hmore]
    simp
  · rw [hmore, hasMore_iff, hlast]
    constructor
    · intro hbeyond
      exact ⟨last, rfl, hbeyond⟩
    · intro hbeyond
      obtain ⟨last', heq, hm⟩ := hbeyond
      rw [Option.some.inj heq]
      exact hm

/-! ## Pages as the library has them -/

def inChannel (channel : String) (m : Message) : Bool := decide (m.channel = channel)

theorem listMessageWindow_asc (db : Database) (channel : String) (before after : Option Int)
    (limit : Nat) :
    listMessageWindow db channel .asc before after limit
      = page Message.id db.messages.rows (inChannel channel) after limit := rfl

theorem listMessagesAfter_eq (db : Database) (channel : String) (after : Int) (limit : Nat) :
    listMessagesAfter db after (some channel) limit
      = page Message.id db.messages.rows (inChannel channel) (some after) limit := rfl

/-- Going down, a message stands at minus its id. -/
def depth (m : Message) : Int := -m.id

theorem listMessageWindow_desc (db : Database) (channel : String) (before after : Option Int)
    (limit : Nat) :
    listMessageWindow db channel .desc before after limit
      = page depth db.messages.rows (inChannel channel) (before.map Neg.neg) limit := by
  have hselected : ∀ m : Message,
      (decide (m.channel = channel) && before.all fun before => decide (m.id < before))
        = (inChannel channel m && (before.map Neg.neg).all fun c => decide (c < depth m)) := by
    intro m
    unfold inChannel depth
    cases before with
    | none => rfl
    | some before => simp
  unfold listMessageWindow page
  dsimp only
  rw [List.filter_congr fun m _ => hselected m]
  congr 1
  refine Relational.orderBy_congr (fun a b => ?_) _
  unfold depth
  omega

theorem depth_nodup (db : Database) : (db.messages.rows.map depth).Nodup := by
  have hmap : db.messages.rows.map depth = (db.messages.rows.map Message.id).map Neg.neg := by
    rw [List.map_map]
    rfl
  rw [hmap]
  exact db.messages.nodup.map neg_injective

/-! ## Polling -/

/-- A message of the channel that comes after the start. -/
def After (channel : String) (start : Option Int) (db : Database) (m : Message) : Prop :=
  m ∈ db.messages ∧ m.channel = channel ∧ ∀ c, start = some c → c < m.id

theorem ahead_iff_after {channel : String} {start : Option Int} {db : Database} {m : Message} :
    Ahead Message.id db.messages.rows (inChannel channel) start m ↔ After channel start db m := by
  constructor
  · intro h
    exact ⟨h.mem, of_decide_eq_true h.selected, h.beyond⟩
  · intro h
    exact ⟨h.1, decide_eq_true h.2.1, h.2.2⟩

/-- What a polling client has received, in terms of the state its last page was taken from. -/
structure PolledExactly (channel : String) (start : Option Int) (pages : List Page)
    (snapshot : Database) : Prop where
  /-- The last page was taken from this state. -/
  lastPage : ∀ front p, pages = front ++ [p] →
    p.rows = listMessageWindow snapshot channel .asc none ((lastId front).or start) p.limit
  increasing : (received pages).Pairwise fun a b => a.id < b.id
  /-- No message was left out, and none given that is not the channel's. -/
  exact : ∀ m, m ∈ received pages
    ↔ After channel start snapshot m ∧ ∃ last, lastId pages = some last ∧ m.id ≤ last
  /-- A last page that is not full leaves nothing for later. -/
  complete : ∀ front p, pages = front ++ [p] → p.rows.length < p.limit →
    ∀ m, After channel start snapshot m → m ∈ received pages

theorem PolledExactly.covers {channel : String} {start : Option Int} {pages : List Page}
    {snapshot : Database} (h : PolledExactly channel start pages snapshot) :
    Covers Message.id snapshot.messages.rows (inChannel channel) start (received pages) := by
  refine ⟨h.increasing, fun m => (h.exact m).trans ?_⟩
  rw [ahead_iff_after]
  unfold lastId
  simp only [Option.map_eq_some_iff]
  constructor
  · rintro ⟨hm, last, ⟨row, hrow, rfl⟩, hle⟩
    exact ⟨hm, row, hrow, hle⟩
  · rintro ⟨hm, row, hrow, hle⟩
    exact ⟨hm, row.id, ⟨row, hrow, rfl⟩, hle⟩

theorem polledExactly_start (channel : String) (start : Option Int) (db : Database) :
    PolledExactly channel start [] db :=
  ⟨fun front p h => absurd h (by simp), List.Pairwise.nil, fun m => by simp [received, lastId],
    fun front p h => absurd h (by simp)⟩

/-- **One page more**, taken from any state that others may have appended to. -/
theorem PolledExactly.snoc {channel : String} {start : Option Int} {pages : List Page}
    {earlier snapshot : Database} (h : PolledExactly channel start pages earlier)
    (hlater : earlier.messages.Extends snapshot.messages) (limit : Nat) :
    PolledExactly channel start (pages ++ [⟨limit,
      page Message.id snapshot.messages.rows (inChannel channel) ((lastId pages).or start) limit⟩])
      snapshot := by
  have hagree : Covers Message.id snapshot.messages.rows (inChannel channel) start
      (received pages) := by
    refine h.covers.of_agree fun m last hlast hle => ?_
    exact hlater.mem_iff_of_le
      ((h.covers.exact last).mp (List.mem_of_getLast? hlast)).1.mem hle
  have hcovers := hagree.page snapshot.messages.nodup limit
  refine ⟨fun front p hp => ?_, ?_, fun m => ?_, fun front p hp hfull m hm => ?_⟩
  · obtain ⟨rfl, hlast⟩ := List.append_inj' hp rfl
    rw [← List.singleton_inj.mp hlast]
    rfl
  · rw [received_snoc]
    exact hcovers.increasing
  · unfold lastId
    rw [received_snoc, ← ahead_iff_after]
    refine (hcovers.exact m).trans ?_
    simp only [Option.map_eq_some_iff]
    constructor
    · rintro ⟨hm, row, hrow, hle⟩
      exact ⟨hm, row.id, ⟨row, hrow, rfl⟩, hle⟩
    · rintro ⟨hm, last, ⟨row, hrow, rfl⟩, hle⟩
      exact ⟨hm, row, hrow, hle⟩
  · obtain ⟨rfl, hlast⟩ := List.append_inj' hp rfl
    rw [← List.singleton_inj.mp hlast] at hfull
    rw [received_snoc]
    by_cases hgiven : m ∈ received pages
    · exact List.mem_append_left _ hgiven
    · refine List.mem_append_right _ (Relational.mem_page_of_not_full hfull ?_)
      exact hagree.ahead_iff.mpr ⟨ahead_iff_after.mpr hm, hgiven⟩

/-- **Polling** receives every message once and in order, whatever is appended in between. -/
theorem polls_exact {channel : String} {start : Option Int} {pages : List Page} {w : World}
    (h : Polls channel start pages w) :
    ∃ snapshot : Database, snapshot.messages.Extends w.db.messages
      ∧ PolledExactly channel start pages snapshot := by
  induction h with
  | start w => exact ⟨w.db, .refl _, polledExactly_start channel start w.db⟩
  | window polled answered ih =>
      obtain ⟨earlier, hearlier, hexact⟩ := ih
      obtain ⟨snapshot, hothers, hrows, hfinish⟩ := readWindow_answers answered
      have hlater : earlier.messages.Extends snapshot.db.messages := hearlier.trans hothers
      rw [listMessageWindow_asc] at hrows
      refine ⟨snapshot.db, ?_, by rw [hrows]; exact hexact.snoc hlater _⟩
      rcases hfinish with ⟨-, -, rfl⟩ | ⟨last, -, hmore, -⟩
      · exact .refl _
      · exact hmore
  | list polled cursor answered ih =>
      obtain ⟨earlier, hearlier, hexact⟩ := ih
      obtain ⟨snapshot, hothers, hdone⟩ := Program.answers_step.mp answered
      obtain ⟨hrows, hw⟩ := Program.answers_done.mp hdone
      have hlater : earlier.messages.Extends snapshot.db.messages := hearlier.trans hothers
      dsimp only at hrows hw
      rw [listMessagesAfter_eq, ← cursor] at hrows
      refine ⟨snapshot.db, by rw [hw]; exact .refl _, ?_⟩
      rw [hrows]
      exact hexact.snoc hlater _

/-! ## Walking down -/

/-- A message of the channel that comes before the start. -/
def Before (channel : String) (start : Option Int) (db : Database) (m : Message) : Prop :=
  m ∈ db.messages ∧ m.channel = channel ∧ ∀ c, start = some c → m.id < c

theorem ahead_iff_before {channel : String} {start : Option Int} {db : Database} {m : Message} :
    Ahead depth db.messages.rows (inChannel channel) (start.map Neg.neg) m
      ↔ Before channel start db m := by
  constructor
  · intro h
    refine ⟨h.mem, of_decide_eq_true h.selected, fun c hc => ?_⟩
    have hbeyond := h.beyond (-c) (by rw [hc]; rfl)
    unfold depth at hbeyond
    omega
  · intro h
    refine ⟨h.1, decide_eq_true h.2.1, fun c hc => ?_⟩
    obtain ⟨b, hb, rfl⟩ := Option.map_eq_some_iff.mp hc
    have hlt := h.2.2 b hb
    unfold depth
    omega

/-- What a walking client has received, in terms of the state its first page was taken from. -/
structure WalkedExactly (channel : String) (start : Option Int) (pages : List Page) (more : Bool)
    (origin : Database) : Prop where
  /-- The first page was taken from this state. -/
  firstPage : ∃ p rest, pages = p :: rest
    ∧ p.rows = listMessageWindow origin channel .desc start none p.limit
  decreasing : (received pages).Pairwise fun a b => b.id < a.id
  /-- No message was left out down to the last one received, and none given that was not there. -/
  exact : ∀ m, m ∈ received pages
    ↔ Before channel start origin m ∧ ∃ last, lastId pages = some last ∧ last ≤ m.id
  /-- When a page says that there is no more, there is none. -/
  complete : more = false → ∀ m, Before channel start origin m → m ∈ received pages
  /-- The walk ends: every page but the last one has messages of this state on it. -/
  bounded : pages.length ≤ (origin.messages.rows.filter (inChannel channel)).length + 1

/-- The walk as the library has it, and how the pages go on. -/
structure Walking (channel : String) (start : Option Int) (pages : List Page) (more : Bool)
    (origin now : Database) : Prop where
  firstPage : ∃ p rest, pages = p :: rest
    ∧ p.rows = listMessageWindow origin channel .desc start none p.limit
  covers : Covers depth origin.messages.rows (inChannel channel) (start.map Neg.neg)
    (received pages)
  later : origin.messages.Extends now.messages
  /-- There is more exactly if something lies below the last message received. -/
  more_iff : more = true ↔ ∃ last, (received pages).getLast? = some last
    ∧ ∃ m ∈ origin.messages, m.channel = channel ∧ m.id < last.id
  empty : received pages = [] → ∀ m, ¬ Before channel start origin m
  length : pages.length ≤ (received pages).length + if more then 0 else 1

section Walk

variable {channel : String} {start : Option Int} {pages : List Page} {more : Bool}
  {origin : Database}

/-- What was appended after the first page lies above everything the walk has received. -/
theorem exists_below_iff {db db' : Database} (hlater : db.messages.Extends db'.messages)
    {last : Message} (hlast : last ∈ db.messages) :
    (∃ m ∈ db'.messages, m.channel = channel ∧ m.id < last.id)
      ↔ ∃ m ∈ db.messages, m.channel = channel ∧ m.id < last.id := by
  constructor
  · rintro ⟨m, hm, hch, hlt⟩
    exact ⟨m, (hlater.mem_iff_of_le hlast (Int.le_of_lt hlt)).mpr hm, hch, hlt⟩
  · rintro ⟨m, hm, hch, hlt⟩
    exact ⟨m, hlater.kept m hm, hch, hlt⟩

theorem Walking.exact (h : Walking channel start pages more origin now) :
    WalkedExactly channel start pages more origin := by
  refine ⟨h.firstPage, h.covers.increasing.imp fun hab => ?_, fun m => ?_, fun hmore m hm => ?_, ?_⟩
  · unfold depth at hab
    omega
  · refine (h.covers.exact m).trans ?_
    rw [ahead_iff_before]
    unfold lastId depth
    simp only [Option.map_eq_some_iff]
    constructor
    · rintro ⟨hm, last, hlast, hle⟩
      exact ⟨hm, last.id, ⟨last, hlast, rfl⟩, by omega⟩
    · rintro ⟨hm, last, ⟨row, hrow, rfl⟩, hle⟩
      exact ⟨hm, row, hrow, by omega⟩
  · cases hlast : (received pages).getLast? with
    | none => exact absurd hm (h.empty (List.getLast?_eq_none_iff.mp hlast) m)
    | some last =>
        refine (h.covers.exact m).mpr ⟨ahead_iff_before.mpr hm, last, hlast, ?_⟩
        by_contra hbelow
        have htrue := h.more_iff.mpr ⟨last, hlast, m, hm.1, hm.2.1, by unfold depth at hbelow; omega⟩
        rw [hmore] at htrue
        exact absurd htrue (by simp)
  · have hlength := h.length
    have hle := h.covers.length_le
    split at hlength <;> omega

/-- What a page of the walk says about more, in terms of the first page's state. -/
theorem more_iff_of_answers {E : World → World → Prop} {before : Option Int} {limit : Nat}
    {w w' : World} {rows : List Message}
    (h : (readWindow channel .desc before none limit).Answers E w (rows, more) w')
    (hlater : origin.messages.Extends w'.db.messages) (hrows : ∀ m ∈ rows, m ∈ origin.messages) :
    more = true ↔ ∃ last, rows.getLast? = some last
      ∧ ∃ m ∈ origin.messages, m.channel = channel ∧ m.id < last.id := by
  rw [readWindow_hasMore h]
  constructor
  · rintro ⟨last, hlast, hm⟩
    exact ⟨last, hlast,
      (exists_below_iff hlater (hrows last (List.mem_of_getLast? hlast))).mp hm⟩
  · rintro ⟨last, hlast, hm⟩
    exact ⟨last, hlast,
      (exists_below_iff hlater (hrows last (List.mem_of_getLast? hlast))).mpr hm⟩

theorem mem_of_mem_window {db : Database} {order : MessageOrder} {before after : Option Int}
    {limit : Nat} {m : Message} (h : m ∈ listMessageWindow db channel order before after limit) :
    m ∈ db.messages := by
  cases order with
  | desc =>
      rw [listMessageWindow_desc] at h
      exact (Relational.ahead_of_mem_page h).mem
  | asc =>
      rw [listMessageWindow_asc] at h
      exact (Relational.ahead_of_mem_page h).mem

/-- An empty page of positive length had nothing to show. -/
theorem page_ne_nil {db : Database} {cursor : Option Int} {limit : Nat} (positive : 0 < limit)
    {m : Message} (hm : Ahead depth db.messages.rows (inChannel channel) cursor m) :
    page depth db.messages.rows (inChannel channel) cursor limit ≠ [] := by
  intro hnil
  have hshort : (page depth db.messages.rows (inChannel channel) cursor limit).length < limit := by
    rw [hnil]
    exact positive
  have hmem := Relational.mem_page_of_not_full hshort hm
  rw [hnil] at hmem
  exact absurd hmem List.not_mem_nil

/-- The first page. -/
theorem walking_first {w w' : World} {limit : Nat} {rows : List Message} (positive : 0 < limit)
    (h : (readWindow channel .desc start none limit).Answers OthersAppend w (rows, more) w') :
    ∃ origin, Walking channel start [⟨limit, rows⟩] more origin w'.db := by
  obtain ⟨snapshot, -, hrows, hfinish⟩ := readWindow_answers h
  have hlater : snapshot.db.messages.Extends w'.db.messages := by
    rcases hfinish with ⟨-, -, rfl⟩ | ⟨last, -, hmore, -⟩
    · exact .refl _
    · exact hmore
  have hreceived : received [⟨limit, rows⟩] = rows := by simp [received]
  have hmem : ∀ m ∈ rows, m ∈ snapshot.db.messages := by
    intro m hm
    rw [hrows] at hm
    exact mem_of_mem_window hm
  have hmoreiff := more_iff_of_answers h hlater hmem
  have hpage := hrows
  rw [listMessageWindow_desc] at hpage
  refine ⟨snapshot.db, ⟨⟨limit, rows⟩, [], rfl, hrows⟩, ?_, hlater, ?_, ?_, ?_⟩
  · have hstart : Relational.Covers depth snapshot.db.messages.rows (inChannel channel)
        (start.map Neg.neg) [] := Relational.covers_nil
    have hcovers := hstart.page (depth_nodup snapshot.db) limit
    rw [hreceived, hpage]
    exact hcovers
  · rw [hreceived]
    exact hmoreiff
  · intro hnil m hm
    rw [hreceived, hpage] at hnil
    exact page_ne_nil positive (ahead_iff_before.mpr hm) hnil
  · rw [hreceived]
    cases more with
    | false => simp
    | true =>
        obtain ⟨last, hlast, -⟩ := hmoreiff.mp rfl
        have hpos := List.length_pos_of_mem (List.mem_of_getLast? hlast)
        simp only [List.length_singleton, if_true]
        omega

/-- **One page more**, when the last one said that there is. -/
theorem Walking.next {db : Database} (hw : Walking channel start pages true origin db)
    {w w' : World} {limit : Nat} {rows : List Message} (hdb : w.db = db) (positive : 0 < limit)
    (h : (readWindow channel .desc (lastId pages) none limit).Answers OthersAppend w
      (rows, more) w') :
    Walking channel start (pages ++ [⟨limit, rows⟩]) more origin w'.db := by
  obtain ⟨snapshot, hothers, hrows, hfinish⟩ := readWindow_answers h
  have hsnapshot : origin.messages.Extends snapshot.db.messages := by
    rw [← hdb] at hw
    exact hw.later.trans hothers
  have hlater : origin.messages.Extends w'.db.messages := by
    rcases hfinish with ⟨-, -, rfl⟩ | ⟨last, -, hmore, -⟩
    · exact hsnapshot
    · exact hsnapshot.trans hmore
  obtain ⟨last, hlast, below, hbelow, hchannel, hlt⟩ := hw.more_iff.mp rfl
  have hlastmem := ((hw.covers.exact last).mp (List.mem_of_getLast? hlast)).1.mem
  have hcursor : (lastId pages).map Neg.neg
      = cursorAfter depth (start.map Neg.neg) (received pages) := by
    unfold lastId cursorAfter
    rw [hlast]
    rfl
  -- below the last message received the first page's state is still what it was
  have hsame : rows = page depth origin.messages.rows (inChannel channel)
      (cursorAfter depth (start.map Neg.neg) (received pages)) limit := by
    rw [hrows, listMessageWindow_desc, hcursor]
    refine Relational.page_congr (depth_nodup snapshot.db) (depth_nodup origin) fun m => ?_
    have hmem : depth last < depth m → (m ∈ origin.messages ↔ m ∈ snapshot.db.messages) := by
      intro hdeeper
      unfold depth at hdeeper
      exact hsnapshot.mem_iff_of_le hlastmem (by omega)
    have hbeyond : cursorAfter depth (start.map Neg.neg) (received pages) = some (depth last) := by
      unfold cursorAfter
      rw [hlast]
      rfl
    constructor
    · intro hahead
      exact ⟨(hmem (hahead.beyond _ hbeyond)).mpr hahead.mem, hahead.selected, hahead.beyond⟩
    · intro hahead
      exact ⟨(hmem (hahead.beyond _ hbeyond)).mp hahead.mem, hahead.selected, hahead.beyond⟩
  have hmem : ∀ m ∈ rows, m ∈ origin.messages := by
    intro m hm
    rw [hsame] at hm
    exact (Relational.ahead_of_mem_page hm).mem
  have hmoreiff := more_iff_of_answers h hlater hmem
  have hne : rows ≠ [] := by
    rw [hsame]
    refine page_ne_nil positive (m := below) ⟨hbelow, decide_eq_true hchannel, fun c hc => ?_⟩
    unfold cursorAfter at hc
    rw [hlast, Option.map_some, Option.some_or, Option.some.injEq] at hc
    rw [← hc]
    unfold depth
    omega
  obtain ⟨bottom, hbottom⟩ := Option.isSome_iff_exists.mp (List.getLast?_isSome.mpr hne)
  refine ⟨?_, ?_, hlater, ?_, ?_, ?_⟩
  · obtain ⟨p, rest, hpages, hp⟩ := hw.firstPage
    exact ⟨p, rest ++ [⟨limit, rows⟩], by rw [hpages]; rfl, hp⟩
  · rw [received_snoc, hsame]
    exact hw.covers.page (depth_nodup origin) limit
  · rw [received_snoc, List.getLast?_append, hmoreiff, hbottom]
    rfl
  · intro hnil
    rw [received_snoc, List.append_eq_nil_iff] at hnil
    exact absurd hnil.2 hne
  · have hlength := hw.length
    have hpos := List.length_pos_of_ne_nil hne
    rw [received_snoc, List.length_append, List.length_append, List.length_singleton]
    simp only [if_true] at hlength
    dsimp only
    omega

/-- **Walking** receives every message that was there once and in order, and ends. -/
theorem walks_exact {w : World} (h : Walks channel start pages more w) :
    ∃ origin, Walking channel start pages more origin w.db := by
  induction h with
  | first positive answered => exact walking_first positive answered
  | next walked positive answered ih =>
      obtain ⟨origin, hw⟩ := ih
      exact ⟨origin, hw.next rfl positive answered⟩

end Walk

/-! ## Nothing lost, nothing twice -/

/-- What paging through a channel comes down to. -/
structure PagingExact (channel : String) : Prop where
  polling : ∀ start pages w, Polls channel start pages w →
    ∃ snapshot : Database, snapshot.messages.Extends w.db.messages
      ∧ PolledExactly channel start pages snapshot
  walking : ∀ start pages more w, Walks channel start pages more w →
    ∃ origin : Database, origin.messages.Extends w.db.messages
      ∧ WalkedExactly channel start pages more origin
  /-- Whatever others do between the two queries of a page. -/
  hasMore : ∀ (E : World → World → Prop) order before after limit w rows more w',
    (readWindow channel order before after limit).Answers E w (rows, more) w' →
    (more = true ↔ ∃ last, rows.getLast? = some last
      ∧ ∃ m ∈ w'.db.messages, m.channel = channel ∧ BeyondRow order m.id last.id)

/-- **No message is lost or given twice by paging.** -/
theorem paging_exact (channel : String) : PagingExact channel where
  polling := fun _ _ _ h => polls_exact h
  walking := by
    intro start pages more w h
    obtain ⟨origin, hw⟩ := walks_exact h
    exact ⟨origin, hw.later, hw.exact⟩
  hasMore := fun _ _ _ _ _ _ _ _ _ h => readWindow_hasMore h

end Blackboard
