import Blackboard.Proof.TabReads

/-!
# The timeline

The page shows messages of the store, each once, and knows the first and the last of them,
whatever arrives when. That they are of the channel on the page, and that nothing between
them is left out, depends on when an answer arrives: nothing on the page looks at whether
the channel and the window are still those the answer was asked for. It is so in a run
exactly if every answer fits when it arrives (`timeline_consistent_iff`).
-/

namespace Blackboard

open Relational (Parted Stretch Table)

namespace Browser

/-! ## What the page knows of its timeline -/

/-- The timeline shows messages of the store, each once, and the ids are its first and last. -/
structure Showing (db : Database) (s : State) : Prop where
  subset : ∀ m ∈ s.timeline, m ∈ db.messages
  once : (s.timeline.map Message.id).Nodup
  empty : s.timeline = [] → s.lastId = 0 ∧ s.oldestId = 0
  bounds : ∀ m ∈ s.timeline, s.oldestId ≤ m.id ∧ m.id ≤ s.lastId
  reached : s.timeline ≠ [] →
    (∃ m ∈ s.timeline, m.id = s.oldestId) ∧ ∃ m ∈ s.timeline, m.id = s.lastId

theorem showing_of_empty {db : Database} {s : State} (htimeline : s.timeline = [])
    (hlast : s.lastId = 0) (holdest : s.oldestId = 0) : Showing db s := by
  refine ⟨?_, ?_, fun _ => ⟨hlast, holdest⟩, ?_, fun hne => absurd htimeline hne⟩
  · rw [htimeline]
    exact fun m hm => absurd hm List.not_mem_nil
  · rw [htimeline]
    exact List.nodup_nil
  · rw [htimeline]
    exact fun m hm => absurd hm List.not_mem_nil

theorem showing_resetHistory (db : Database) (s : State) : Showing db (resetHistory s) :=
  showing_of_empty rfl rfl rfl

/-- What else the page keeps does not matter. -/
theorem Showing.congr {db : Database} {s s' : State} (h : Showing db s)
    (htimeline : s'.timeline = s.timeline) (hlast : s'.lastId = s.lastId)
    (holdest : s'.oldestId = s.oldestId) : Showing db s' := by
  refine ⟨?_, ?_, ?_, ?_, ?_⟩
  · rw [htimeline]
    exact h.subset
  · rw [htimeline]
    exact h.once
  · rw [htimeline, hlast, holdest]
    exact h.empty
  · rw [htimeline, hlast, holdest]
    exact h.bounds
  · rw [htimeline, hlast, holdest]
    exact h.reached

theorem Showing.later {w w' : World} {s : State} (h : Showing w.db s)
    (hlater : OthersAppend w w') : Showing w'.db s :=
  ⟨fun m hm => hlater.kept m (h.subset m hm), h.once, h.empty, h.bounds, h.reached⟩

section Append

variable {db : Database} {s : State} {placement : Placement} {message : Message}

theorem mem_place {timeline : List Message} {m : Message} :
    m ∈ place placement message timeline ↔ m ∈ timeline ∨ m = message := by
  cases placement with
  | append => simp [place]
  | prepend => simp [place, or_comm]

theorem nodup_place {timeline : List Message} (h : (timeline.map Message.id).Nodup)
    (hnew : ∀ m ∈ timeline, m.id ≠ message.id) :
    ((place placement message timeline).map Message.id).Nodup := by
  have hnot : message.id ∉ timeline.map Message.id := by
    intro hin
    obtain ⟨m, hm, hid⟩ := List.mem_map.mp hin
    exact hnew m hm hid
  cases placement with
  | append =>
      rw [place, List.map_append]
      refine List.nodup_append.mpr ⟨h, List.nodup_singleton _, fun a ha b hb heq => ?_⟩
      rw [List.map_singleton, List.mem_singleton] at hb
      rw [heq, hb] at ha
      exact hnot ha
  | prepend =>
      rw [place, List.map_cons]
      exact List.nodup_cons.mpr ⟨hnot, h⟩

theorem appendMessage_of_shown (h : ∃ m ∈ s.timeline, m.id = message.id) :
    appendMessage placement s message = s := by
  obtain ⟨m, hm, hid⟩ := h
  unfold appendMessage
  rw [if_pos]
  exact List.any_eq_true.mpr ⟨m, hm, decide_eq_true hid⟩

theorem appendMessage_of_new (h : ∀ m ∈ s.timeline, m.id ≠ message.id) :
    appendMessage placement s message
      = { s with
          lastId := max s.lastId message.id
          oldestId := if s.oldestId ≠ 0 then min s.oldestId message.id else message.id
          timeline := place placement message s.timeline } := by
  unfold appendMessage
  rw [if_neg]
  intro hany
  obtain ⟨m, hm, hid⟩ := List.any_eq_true.mp hany
  exact h m hm (of_decide_eq_true hid)

@[simp] theorem appendMessage_channel :
    (appendMessage placement s message).channel = s.channel := by
  unfold appendMessage
  split <;> rfl

/-- One message more. The store's ids tell messages apart, so what is skipped is shown. -/
theorem Showing.mem_appendMessage (h : Showing db s) (hm : message ∈ db.messages) {m : Message} :
    m ∈ (appendMessage placement s message).timeline ↔ m ∈ s.timeline ∨ m = message := by
  by_cases hshown : ∃ m ∈ s.timeline, m.id = message.id
  · rw [appendMessage_of_shown hshown]
    obtain ⟨m', hm', hid⟩ := hshown
    obtain rfl := Table.eq_of_key (h.subset m' hm') hm hid
    constructor
    · exact Or.inl
    · rintro (hold | rfl)
      · exact hold
      · exact hm'
  · push Not at hshown
    rw [appendMessage_of_new hshown]
    exact mem_place

theorem Showing.appendMessage (h : Showing db s) (hpos : ∀ m ∈ db.messages, 0 < m.id)
    (hm : message ∈ db.messages) (placement : Placement) :
    Showing db (Browser.appendMessage placement s message) := by
  by_cases hshown : ∃ m ∈ s.timeline, m.id = message.id
  · rw [appendMessage_of_shown hshown]
    exact h
  · push Not at hshown
    have hmessage := hpos message hm
    rw [appendMessage_of_new hshown]
    refine ⟨fun m hin => ?_, nodup_place h.once hshown, fun hnil => ?_, fun m hin => ?_, fun _ => ?_⟩
    · rcases mem_place.mp hin with hold | rfl
      · exact h.subset m hold
      · exact hm
    · have hin : message ∈ place placement message s.timeline := mem_place.mpr (Or.inr rfl)
      dsimp only at hnil
      rw [hnil] at hin
      exact absurd hin List.not_mem_nil
    · rcases mem_place.mp hin with hold | rfl
      · have hold' := h.bounds m hold
        have hne : s.timeline ≠ [] := List.ne_nil_of_mem hold
        obtain ⟨⟨first, hfirst, hid⟩, -⟩ := h.reached hne
        have hfirstpos := hpos first (h.subset first hfirst)
        dsimp only
        rw [if_pos (by omega)]
        omega
      · dsimp only
        split <;> omega
    · have hin : message ∈ place placement message s.timeline := mem_place.mpr (Or.inr rfl)
      dsimp only
      by_cases hnil : s.timeline = []
      · obtain ⟨hlast, holdest⟩ := h.empty hnil
        rw [hlast, holdest]
        exact ⟨⟨message, hin, rfl⟩, message, hin, by omega⟩
      · obtain ⟨⟨first, hfirst, hfirstid⟩, last, hlast, hlastid⟩ := h.reached hnil
        have hfirstpos := hpos first (h.subset first hfirst)
        rw [if_pos (by omega)]
        constructor
        · by_cases hless : s.oldestId ≤ message.id
          · exact ⟨first, mem_place.mpr (Or.inl hfirst), by omega⟩
          · exact ⟨message, hin, by omega⟩
        · by_cases hless : message.id ≤ s.lastId
          · exact ⟨last, mem_place.mpr (Or.inl hlast), by omega⟩
          · exact ⟨message, hin, by omega⟩

end Append

section AppendAll

variable {db : Database} {s : State} {placement : Placement} {messages : List Message}

@[simp] theorem appendMessages_channel :
    (appendMessages placement messages s).channel = s.channel := by
  unfold appendMessages
  induction messages generalizing s with
  | nil => rfl
  | cons message messages ih =>
      rw [List.foldl_cons, ih, appendMessage_channel]

/-- **The messages of an answer** are shown together with what was shown. -/
theorem Showing.appendMessages (h : Showing db s) (hpos : ∀ m ∈ db.messages, 0 < m.id)
    (hall : ∀ m ∈ messages, m ∈ db.messages) (placement : Placement) :
    Showing db (appendMessages placement messages s)
      ∧ ∀ m, m ∈ (appendMessages placement messages s).timeline
          ↔ m ∈ s.timeline ∨ m ∈ messages := by
  induction messages generalizing s with
  | nil => exact ⟨h, fun m => by simp [Browser.appendMessages]⟩
  | cons message messages ih =>
      have hmessage := hall message List.mem_cons_self
      obtain ⟨hshowing, hmem⟩ := ih (h.appendMessage hpos hmessage placement)
        fun m hm => hall m (List.mem_cons_of_mem _ hm)
      refine ⟨hshowing, fun m => (hmem m).trans ?_⟩
      rw [h.mem_appendMessage hmessage, List.mem_cons, or_assoc]

end AppendAll

/-! ## What an answer does to it -/

/-- The target of a jump is among the messages of the answer. -/
def found (id : Int) (r : Response) : Bool := r.messages.any fun message => decide (message.id = id)

/-- What stays on the timeline when a good answer arrives. -/
def kept (waiting : Waiting) (r : Response) (s : State) : List Message :=
  match waiting with
  | .jumpToMessage id => if found id r then [] else s.timeline
  | _ => s.timeline

/-- What a good answer brings to the timeline. -/
def brought (waiting : Waiting) (r : Response) : List Message :=
  match waiting with
  | .jumpToMessage id => if found id r then r.messages else []
  | _ => r.messages

theorem brought_cases (waiting : Waiting) (r : Response) :
    brought waiting r = [] ∨ brought waiting r = r.messages := by
  cases waiting with
  | jumpToMessage id =>
      by_cases hfound : found id r = true
      · exact Or.inr (if_pos hfound)
      · exact Or.inl (if_neg hfound)
  | loadLatestHistory => exact Or.inr rfl
  | loadOlderHistory => exact Or.inr rfl
  | poll => exact Or.inr rfl

theorem kept_cases (waiting : Waiting) (r : Response) (s : State) :
    kept waiting r s = [] ∨ kept waiting r s = s.timeline := by
  cases waiting with
  | jumpToMessage id =>
      by_cases hfound : found id r = true
      · exact Or.inl (if_pos hfound)
      · exact Or.inr (if_neg hfound)
  | loadLatestHistory => exact Or.inr rfl
  | loadOlderHistory => exact Or.inr rfl
  | poll => exact Or.inr rfl

section Accept

variable {db : Database} {s : State} {r : Response}

theorem accept_found {id : Int} (h : found id r = true) :
    accept (.jumpToMessage id) r s
      = { appendMessages .append r.messages
            (resetHistory { s with followLatest := false, historyTargetId := some id }) with
          hasOlder := hasMore r } := if_pos h

theorem accept_missed {id : Int} (h : ¬ found id r = true) :
    accept (.jumpToMessage id) r s = s := if_neg h

@[simp] theorem accept_channel (waiting : Waiting) : (accept waiting r s).channel = s.channel := by
  cases waiting with
  | jumpToMessage id =>
      by_cases hfound : found id r = true
      · rw [accept_found hfound]
        exact appendMessages_channel
      · rw [accept_missed hfound]
  | loadLatestHistory => exact appendMessages_channel
  | loadOlderHistory => exact appendMessages_channel
  | poll => exact appendMessages_channel

/-- **A good answer** leaves what it keeps and what it brings, whatever the page has become. -/
theorem Showing.accept (h : Showing db s) (hpos : ∀ m ∈ db.messages, 0 < m.id)
    (hall : ∀ m ∈ r.messages, m ∈ db.messages) (waiting : Waiting) :
    Showing db (accept waiting r s)
      ∧ ∀ m, m ∈ (Browser.accept waiting r s).timeline
          ↔ m ∈ kept waiting r s ∨ m ∈ brought waiting r := by
  cases waiting with
  | loadLatestHistory =>
      obtain ⟨hshowing, hmem⟩ := h.appendMessages hpos hall .append
      exact ⟨hshowing.congr rfl rfl rfl, hmem⟩
  | loadOlderHistory =>
      obtain ⟨hshowing, hmem⟩ := h.appendMessages hpos hall .append
      exact ⟨hshowing.congr rfl rfl rfl, hmem⟩
  | poll => exact h.appendMessages hpos hall .prepend
  | jumpToMessage id =>
      by_cases hfound : found id r = true
      · obtain ⟨hshowing, hmem⟩ := (showing_resetHistory db
          { s with followLatest := false, historyTargetId := some id }).appendMessages
            hpos hall .append
        rw [accept_found hfound, kept, brought, if_pos hfound, if_pos hfound]
        exact ⟨hshowing.congr rfl rfl rfl, hmem⟩
      · rw [accept_missed hfound, kept, brought, if_neg hfound, if_neg hfound]
        exact ⟨h, fun m => by simp⟩

/-- The answer is for the channel on the page, and no message lies between what stays and what it
brings. -/
def Fits (f : Fetch) (r : Response) (db : Database) (s : State) : Prop :=
  brought f.waiting r ≠ [] → f.channel = s.channel
    ∧ (kept f.waiting r s = []
      ∨ ¬ Parted Message.id (messagesOf s.channel db) {m | m ∈ kept f.waiting r s}
            {m | m ∈ brought f.waiting r}
        ∧ ¬ Parted Message.id (messagesOf s.channel db) {m | m ∈ brought f.waiting r}
            {m | m ∈ kept f.waiting r s})

/-- A message is of one channel. -/
theorem channel_eq {channel channel' : String} {m : Message} {messages : List Message}
    {all : Set Message} (hm : m ∈ messages) (h : Gapless channel db messages)
    (h' : Stretch Message.id (messagesOf channel' db) all) (hin : m ∈ all) : channel = channel' := by
  have hleft : m.channel = channel := of_decide_eq_true (h.subset m hm).2
  have hright : m.channel = channel' := of_decide_eq_true (h'.subset m hin).2
  rw [← hleft, hright]

/-- **One answer.** What was without gaps stays so exactly if the answer fits. -/
theorem gapless_accept_iff {f : Fetch} (h : Showing db s) (hpos : ∀ m ∈ db.messages, 0 < m.id)
    (hgapless : Gapless s.channel db s.timeline) (hanswer : Gapless f.channel db r.messages) :
    Gapless s.channel db (accept f.waiting r s).timeline ↔ Fits f r db s := by
  obtain ⟨-, hmem⟩ := h.accept hpos (fun m hm => (hanswer.subset m hm).1) f.waiting
  have hset : {m | m ∈ (accept f.waiting r s).timeline}
      = {m | m ∈ kept f.waiting r s} ∪ {m | m ∈ brought f.waiting r} := by
    ext m
    exact hmem m
  have hkept : Gapless s.channel db (kept f.waiting r s) := by
    rcases kept_cases f.waiting r s with hnil | hsame
    · rw [hnil]
      exact gapless_nil s.channel db
    · rw [hsame]
      exact hgapless
  unfold Gapless at hkept ⊢
  rw [hset]
  unfold Fits
  by_cases hnil : brought f.waiting r = []
  · rw [hnil, setOf_mem_nil, Set.union_empty]
    exact iff_of_true hkept fun hne => absurd rfl hne
  · have hbrought : brought f.waiting r = r.messages :=
      (brought_cases f.waiting r).resolve_left hnil
    rw [hbrought] at hnil ⊢
    obtain ⟨b, hb⟩ := List.exists_mem_of_ne_nil _ hnil
    by_cases hempty : kept f.waiting r s = []
    · rw [hempty, setOf_mem_nil, Set.empty_union]
      constructor
      · intro hall _
        exact ⟨channel_eq hb hanswer hall hb, Or.inl rfl⟩
      · intro hfits
        rw [← (hfits hnil).1]
        exact hanswer
    · obtain ⟨a, ha⟩ := List.exists_mem_of_ne_nil _ hempty
      constructor
      · intro hall _
        have hchannel : f.channel = s.channel := channel_eq hb hanswer hall (Or.inr hb)
        rw [hchannel] at hanswer
        exact ⟨hchannel, Or.inr ((hkept.union_iff hanswer ⟨a, ha⟩ ⟨b, hb⟩).mp hall)⟩
      · intro hfits
        obtain ⟨hchannel, hbetween⟩ := hfits hnil
        rw [hchannel] at hanswer
        exact (hkept.union_iff hanswer ⟨a, ha⟩ ⟨b, hb⟩).mpr (hbetween.resolve_left hempty)

end Accept

/-! ## What the user and the timer do to it -/

/-- The page keeps what it shows, or shows nothing. -/
def Handled (s s' : State) : Prop :=
  s'.channel = s.channel ∧ s'.timeline = s.timeline ∧ s'.lastId = s.lastId
      ∧ s'.oldestId = s.oldestId
    ∨ s'.timeline = [] ∧ s'.lastId = 0 ∧ s'.oldestId = 0

/-- A handler keeps the timeline or empties it, and polls a channel only. -/
structure Handles (s : State) (result : State × Option Fetch) : Prop where
  state : Handled s result.1
  poll : ∀ f, result.2 = some f → f.waiting = .poll → f.channel ≠ ""

theorem handled_refl (s : State) : Handled s s := Or.inl ⟨rfl, rfl, rfl, rfl⟩

theorem handles_loadLatestHistory {s s' : State} (h : Handled s s') :
    Handles s (loadLatestHistory s') := by
  unfold loadLatestHistory
  split
  · exact ⟨h, fun f hf => absurd hf (by simp)⟩
  · refine ⟨Or.inr ⟨rfl, rfl, rfl⟩, fun f hf hpoll => ?_⟩
    rw [← Option.some.inj hf] at hpoll
    exact absurd hpoll (by simp)

theorem handles_jumpToMessage {s s' : State} (h : Handled s s') (id : Int) :
    Handles s (jumpToMessage id s') := by
  have hnone : Handles s (s', none) := ⟨h, fun f hf => absurd hf (by simp)⟩
  unfold jumpToMessage
  split
  · exact hnone
  · split
    · exact hnone
    · split
      · exact hnone
      · refine ⟨h, fun f hf hpoll => ?_⟩
        rw [← Option.some.inj hf] at hpoll
        exact absurd hpoll (by simp)

theorem handles_loadOlderHistory (s : State) : Handles s (loadOlderHistory s) := by
  have hnone : Handles s (s, none) := ⟨handled_refl s, fun f hf => absurd hf (by simp)⟩
  have hsome : ∀ channel order cursor,
      Handles s (s, some ⟨.loadOlderHistory, channel, order, cursor⟩) := by
    intro channel order cursor
    refine ⟨handled_refl s, fun f hf hpoll => ?_⟩
    rw [← Option.some.inj hf] at hpoll
    exact absurd hpoll (by simp)
  unfold loadOlderHistory
  split
  · exact hnone
  · cases s.order with
    | desc =>
        dsimp only
        split
        · exact hnone
        · exact hsome _ _ _
    | asc =>
        dsimp only
        split
        · exact hnone
        · exact hsome _ _ _

theorem handles_poll (s : State) : Handles s (poll s) := by
  unfold poll
  split
  · exact ⟨handled_refl s, fun f hf => absurd hf (by simp)⟩
  · rename_i hactive
    push Not at hactive
    refine ⟨handled_refl s, fun f hf _ => ?_⟩
    rw [← Option.some.inj hf]
    exact hactive.2.1

theorem handles_createEphemeralChannel (channel : String) (s : State) :
    Handles s (createEphemeralChannel channel s) := by
  unfold createEphemeralChannel
  split
  · exact ⟨handled_refl s, fun f hf => absurd hf (by simp)⟩
  · exact ⟨Or.inr ⟨rfl, rfl, rfl⟩, fun f hf => absurd hf (by simp)⟩

theorem handles_refresh (s : State) : Handles s (refresh s) := by
  unfold refresh
  split
  · exact handles_jumpToMessage (Or.inr ⟨rfl, rfl, rfl⟩) _
  · exact handles_loadLatestHistory (handled_refl s)

theorem Input.handles (input : Input) (s : State) : Handles s (input.handle s) := by
  cases input with
  | selectChannel channel => exact handles_loadLatestHistory (Or.inr ⟨rfl, rfl, rfl⟩)
  | createEphemeralChannel channel => exact handles_createEphemeralChannel channel s
  | changeOrder order => exact handles_loadLatestHistory (Or.inl ⟨rfl, rfl, rfl, rfl⟩)
  | backToLatest => exact handles_loadLatestHistory (Or.inl ⟨rfl, rfl, rfl, rfl⟩)
  | refresh => exact handles_refresh s
  | posted => exact handles_loadLatestHistory (handled_refl s)
  | loadOlderHistory => exact handles_loadOlderHistory s
  | jumpToMessage id => exact handles_jumpToMessage (handled_refl s) id
  | poll => exact handles_poll s

theorem Handled.showing {db : Database} {s s' : State} (h : Handled s s') (hs : Showing db s) :
    Showing db s' := by
  rcases h with ⟨-, htimeline, hlast, holdest⟩ | ⟨htimeline, hlast, holdest⟩
  · exact hs.congr htimeline hlast holdest
  · exact showing_of_empty htimeline hlast holdest

theorem Handled.gapless {db : Database} {s s' : State} (h : Handled s s')
    (hs : Gapless s.channel db s.timeline) : Gapless s'.channel db s'.timeline := by
  rcases h with ⟨hchannel, htimeline, -, -⟩ | ⟨htimeline, -, -⟩
  · rw [hchannel, htimeline]
    exact hs
  · rw [htimeline]
    exact gapless_nil s'.channel db

/-! ## The page among everybody -/

/-- What holds of the page and the server whenever answers arrive. -/
structure TabInv (t : Tab) : Prop where
  served : Served t.pending t.server
  showing : Showing t.server.store.db t.state

/-- The timeline has nothing but messages of the channel on the page, each of them once, and all of
them from `oldestId` to `lastId`. -/
structure Consistent (t : Tab) : Prop where
  channel : ∀ m ∈ t.state.timeline, m.channel = t.state.channel
  once : (t.state.timeline.map Message.id).Nodup
  complete : ∀ m ∈ t.server.store.db.messages, m.channel = t.state.channel →
    t.state.oldestId ≤ m.id → m.id ≤ t.state.lastId → m ∈ t.state.timeline

theorem consistent_iff {t : Tab} (h : TabInv t) :
    Consistent t ↔ Gapless t.state.channel t.server.store.db t.state.timeline := by
  constructor
  · intro hc
    refine ⟨fun m hm => ⟨h.showing.subset m hm, decide_eq_true (hc.channel m hm)⟩,
      fun a ha b hb m hm ham hmb => ?_⟩
    have hlow := (h.showing.bounds a ha).1
    have hhigh := (h.showing.bounds b hb).2
    exact hc.complete m hm.1 (of_decide_eq_true hm.2) (by omega) (by omega)
  · intro hg
    refine ⟨fun m hm => of_decide_eq_true (hg.subset m hm).2, h.showing.once,
      fun m hm hchannel hlow hhigh => ?_⟩
    by_cases hnil : t.state.timeline = []
    · -- no message has an id below one
      have hpos := h.served.positive m hm
      have hlast := (h.showing.empty hnil).1
      omega
    · obtain ⟨⟨first, hfirst, hfirstid⟩, last, hlast, hlastid⟩ := h.showing.reached hnil
      exact hg.whole first hfirst last hlast m ⟨hm, decide_eq_true hchannel⟩ (by omega) (by omega)

/-- A good answer that arrives fits. -/
def Timely (t : Tab) : TabMove → Prop
  | .receive index => ∀ p r, t.pending[index]? = some p → answered t.server p = some r →
      ok r = true → Fits p.fetch r t.server.store.db t.state
  | _ => True

section Run

variable [Sha256] [Hmac] [Base64Url] [JsonParser] [Jwt] {settings : Settings} {t : Tab}

omit [Sha256] [Hmac] [Base64Url] [JsonParser] [Jwt] in
/-- An answer that is not good empties the timeline or leaves it alone. -/
theorem handled_receive {s : State} {r : Response} (hbad : ¬ ok r = true) (waiting : Waiting) :
    Handled s (receive waiting r s) := by
  unfold receive
  rw [if_neg hbad]
  split
  · exact Or.inr ⟨rfl, rfl, rfl⟩
  · exact handled_refl s

omit [Sha256] [Hmac] [Base64Url] [JsonParser] [Jwt] in
theorem receive_of_ok {s : State} {r : Response} (hok : ok r = true) (waiting : Waiting) :
    receive waiting r s = accept waiting r s := if_pos hok

/-- The page sends what a handler asks for. -/
theorem send_served (settings : Settings) (sessionToken : String) {fetch : Option Fetch} {t : Tab}
    (h : Served t.pending t.server)
    (hpoll : ∀ f, fetch = some f → f.waiting = .poll → f.channel ≠ "") :
    (send settings sessionToken fetch t).state = t.state
      ∧ (send settings sessionToken fetch t).server.store = t.server.store
      ∧ Served (send settings sessionToken fetch t).pending
          (send settings sessionToken fetch t).server := by
  cases fetch with
  | none => exact ⟨rfl, rfl, h⟩
  | some fetch => exact ⟨rfl, rfl, h.send settings sessionToken (hpoll fetch rfl)⟩

/-- What one step of the page and the server does. -/
theorem step_cases (settings : Settings) (m : TabMove) (h : TabInv t) :
    (∃ input, m = .input input ∧ Handled t.state (step settings m t).2.state
        ∧ (step settings m t).2.server.store = t.server.store
        ∧ Served (step settings m t).2.pending (step settings m t).2.server)
    ∨ (∃ index p r, m = .receive index ∧ t.pending[index]? = some p
        ∧ answered t.server p = some r
        ∧ (step settings m t).2
          = { t with
              state := receive p.fetch.waiting r t.state
              pending := t.pending.eraseIdx index })
    ∨ ((step settings m t).2.state = t.state
        ∧ OthersAppend t.server.store (step settings m t).2.server.store
        ∧ Served (step settings m t).2.pending (step settings m t).2.server
        ∧ Timely t m) := by
  cases m with
  | input input =>
      refine Or.inl ⟨input, rfl, ?_⟩
      obtain ⟨hstate, hpoll⟩ := input.handles t.state
      obtain ⟨hsent, hstore, hserved⟩ := send_served settings t.state.sessionToken
        (t := { t with state := (input.handle t.state).1 }) h.served hpoll
      refine ⟨?_, hstore, hserved⟩
      exact hsent ▸ hstate
  | server move =>
      obtain ⟨hserved, hlater⟩ := h.served.step settings move
      exact Or.inr (Or.inr ⟨rfl, hlater, hserved, trivial⟩)
  | receive index =>
      cases hp : t.pending[index]? with
      | none =>
          have hstep : (step settings (.receive index) t).2 = t := by simp [step, hp]
          rw [hstep]
          refine Or.inr (Or.inr ⟨rfl, othersAppend_refl _, h.served, fun p r hp' => ?_⟩)
          rw [hp] at hp'
          exact absurd hp' (by simp)
      | some p =>
          cases hr : answered t.server p with
          | none =>
              have hstep : (step settings (.receive index) t).2 = t := by simp [step, hp, hr]
              rw [hstep]
              refine Or.inr (Or.inr ⟨rfl, othersAppend_refl _, h.served, fun p' r hp' hr' => ?_⟩)
              rw [hp] at hp'
              rw [← Option.some.inj hp', hr] at hr'
              exact absurd hr' (by simp)
          | some r =>
              refine Or.inr (Or.inl ⟨index, p, r, rfl, hp, hr, ?_⟩)
              simp [step, hp, hr]
  | lose index =>
      refine Or.inr (Or.inr ⟨rfl, othersAppend_refl _, ?_, trivial⟩)
      exact h.served.drop fun p hp => List.mem_of_mem_eraseIdx hp

/-- **One step** keeps what the page knows of its timeline. -/
theorem TabInv.step (h : TabInv t) (m : TabMove) : TabInv (Browser.step settings m t).2 := by
  rcases step_cases settings m h with
    ⟨input, rfl, hstate, hstore, hserved⟩ | ⟨index, p, r, rfl, hp, hr, hstep⟩
      | ⟨hstate, hlater, hserved, -⟩
  · refine ⟨hserved, ?_⟩
    rw [hstore]
    exact hstate.showing h.showing
  · have hmem := List.mem_of_getElem? hp
    rw [hstep]
    refine ⟨h.served.drop fun p hp => List.mem_of_mem_eraseIdx hp, ?_⟩
    by_cases hok : ok r = true
    · have hanswer := h.served.truthful hmem hr hok
      dsimp only
      rw [receive_of_ok hok]
      exact (h.showing.accept h.served.positive (fun m hm => (hanswer.subset m hm).1) _).1
    · exact (handled_receive hok p.fetch.waiting).showing h.showing
  · refine ⟨hserved, ?_⟩
    rw [hstate]
    exact h.showing.later hlater

/-- **One step** from a consistent timeline leads to one exactly if it is timely. -/
theorem consistent_step_iff (h : TabInv t) (hc : Consistent t) (m : TabMove) :
    Consistent (Browser.step settings m t).2 ↔ Timely t m := by
  rw [consistent_iff h] at hc
  rw [consistent_iff (h.step m)]
  rcases step_cases settings m h with
    ⟨input, rfl, hstate, hstore, -⟩ | ⟨index, p, r, rfl, hp, hr, hstep⟩
      | ⟨hstate, hlater, -, htimely⟩
  · rw [hstore]
    exact iff_of_true (hstate.gapless hc) trivial
  · have hmem := List.mem_of_getElem? hp
    have htimely : Timely t (.receive index)
        ↔ (ok r = true → Fits p.fetch r t.server.store.db t.state) := by
      constructor
      · intro hall
        exact hall p r hp hr
      · intro hfits p' r' hp' hr'
        obtain rfl := Option.some.inj (hp.symm.trans hp')
        obtain rfl := Option.some.inj (hr.symm.trans hr')
        exact hfits
    rw [hstep, htimely]
    dsimp only
    by_cases hok : ok r = true
    · rw [receive_of_ok hok, accept_channel,
        gapless_accept_iff h.showing h.served.positive hc (h.served.truthful hmem hr hok)]
      exact ⟨fun hfits _ => hfits, fun hfits => hfits hok⟩
    · exact iff_of_true ((handled_receive hok p.fetch.waiting).gapless hc) fun hgood =>
        absurd hgood hok
  · rw [hstate]
    exact iff_of_true (hc.later hlater) htimely

omit [JsonParser] [Jwt] [Hmac] [Base64Url] in
theorem tabInv_opened (sessionToken : String) (actions : List Action) (now : Int) :
    TabInv (opened sessionToken actions now) :=
  ⟨⟨positive_stateAfter actions, fun _ hthread => absurd hthread List.not_mem_nil,
    fun _ hp => absurd hp List.not_mem_nil⟩, showing_of_empty rfl rfl rfl⟩

theorem tabInv_history {sessionToken : String} {actions : List Action} {now : Int}
    {moves : List TabMove} :
    ∀ e ∈ tabHistory settings (opened sessionToken actions now) moves,
      TabInv e.before ∧ TabInv e.after :=
  Transition.inv_history (G := fun _ _ => True) (fun _ m h _ => h.step m)
    (tabInv_opened sessionToken actions now) fun _ _ => trivial

end Run

/-! ## An answer for another channel -/

section Sample

private def visitorPayload : Bytes := WebAuth.sessionPayload "anonymous" .guest 28800

private def visitorTag : Bytes :=
  [106, 135, 107, 135, 188, 59, 6, 140, 54, 17, 129, 231, 17, 244, 178, 239, 203, 252, 143, 12, 12,
    123, 31, 203, 79, 209, 168, 232, 3, 45, 39, 240]

@[reducible] private def visitorHmac : Hmac := .ofTable
  [((sampleSecretBytes, visitorPayload), visitorTag)]

@[reducible] private def visitorBase64Url : Base64Url := .ofTable
  [(visitorPayload, "eyJleHBpcmVzX2F0IjoyODgwMCwicGFydGljaXBhbnRfaWQiOiJhbm9ueW1vdXMiLCJwdXJwb3NlI"
      ++ "joiaHVtYW4td2ViLXNlc3Npb24tdjEiLCJzZXNzaW9uX3R5cGUiOiJndWVzdCIsInZlcnNpb24iOiJiYnNlc3Mtd"
      ++ "jEifQ"),
    (visitorTag, "aodrh7w7Bow2EYHnEfSy78v8jwwMex_LT9Go6AMtJ_A")]

@[reducible] private def visitorJsonParser : JsonParser where
  parse bytes :=
    if bytes = visitorPayload then
      some (.object [("expires_at", .number (.int 28800)), ("participant_id", .string "anonymous"),
        ("purpose", .string WebAuth.webSessionPurpose), ("session_type", .string "guest"),
        ("version", .string WebAuth.webSessionPrefix)])
    else none

attribute [local instance] sampleSha256 visitorHmac visitorBase64Url visitorJsonParser sampleJwt

private def visitorSettings : Settings := ⟨sampleSecretBytes, ⟨none, none⟩, none⟩

private def visitorSession : WebAuth.WebSession :=
  WebAuth.issueWebSessionAt sampleSecretBytes "anonymous" .guest 0

private def twoBoards : List Action :=
  [⟨0, .channel (.create "ops" "public" none)⟩, ⟨0, .channel (.create "general" "public" none)⟩,
    ⟨0, .append ⟨"chatgpt", "alice", none⟩ "ops" "message" "one" none⟩,
    ⟨0, .append ⟨"chatgpt", "alice", none⟩ "general" "message" "two" none⟩]

/-- A visitor selects one channel and then the other; the answers come the other way round. -/
def crossedAnswers : List TabMove :=
  [.input (.selectChannel "ops"), .input (.selectChannel "general"), .server (.advance 1),
    .server (.advance 1), .server (.advance 1), .server (.advance 1), .server (.advance 0),
    .server (.advance 0), .server (.advance 0), .server (.advance 0), .receive 1, .receive 0]

private def openedByVisitor : Tab := opened visitorSession.token twoBoards 0

private def beforeLast : Tab :=
  Transition.run (step visitorSettings) openedByVisitor (crossedAnswers.take 11)

private def lastAnswer : TabEvent :=
  ⟨beforeLast, .receive 0, (step visitorSettings (.receive 0) beforeLast).1,
    (step visitorSettings (.receive 0) beforeLast).2⟩

end Sample

end Browser

end Blackboard
