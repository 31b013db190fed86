import Blackboard.Lib.Paging
import Blackboard.Model.PolicyWindow
import Blackboard.Proof.PolicyIntegrity

/-!
# Listing the policy and its history

The grants and the administration events are read window by window, in either order. Each
window is one of the library's, over the rows the listing keeps: a client that follows the
cursor is given every one of them, once and in order, and then told that there is no more.
-/

namespace Blackboard

open Relational (Table page window Ahead Covers Follows cursorAfter)

namespace WindowOrder

/-- The cursor of a request in this order. -/
def before : WindowOrder → Option Int → Option Int
  | desc, cursor => cursor
  | asc, _ => none

def after : WindowOrder → Option Int → Option Int
  | desc, _ => none
  | asc, cursor => cursor

/-- Where an id stands in this order. -/
def place : WindowOrder → Int → Int
  | desc, i => -i
  | asc, i => i

/-- An id comes before another one in this order. -/
def Precedes (order : WindowOrder) (i j : Int) : Prop :=
  match order with
  | desc => j < i
  | asc => i < j

theorem place_lt_iff {order : WindowOrder} {i j : Int} :
    order.place i < order.place j ↔ order.Precedes i j := by
  cases order with
  | desc =>
      show -i < -j ↔ j < i
      omega
  | asc => exact Iff.rfl

theorem place_inj {order : WindowOrder} {i j : Int} (h : order.place i = order.place j) : i = j := by
  cases order with
  | desc => exact Int.neg_inj.mp h
  | asc => exact h

end WindowOrder

/-! ## Requests -/

/-- A request in one order has that order's cursor only, which has to be positive. -/
theorem cursor_checks (order : WindowOrder) (cursor : Option Int) :
    ((order.before cursor).any (fun value => decide (value ≤ 0))
      || (order.after cursor).any (fun value => decide (value ≤ 0))
      || ((order.before cursor).isSome && (order.after cursor).isSome)
      || (decide (order = .desc) && (order.after cursor).isSome)
      || (decide (order = .asc) && (order.before cursor).isSome)) = true
      ↔ ¬ ∀ c, cursor = some c → 0 < c := by
  cases cursor with
  | none => cases order <;> simp [WindowOrder.before, WindowOrder.after]
  | some c => cases order <;> simp [WindowOrder.before, WindowOrder.after]

/-- What the checks of a window admit. -/
theorem validateWindow_iff {order order' : WindowOrder} {cursor : Option Int} {limit : Option Nat}
    {text : Option String} {default max n : Nat} (htext : WindowOrder.parse text = some order) :
    validateWindow (order.before cursor) (order.after cursor) limit text default max
        = .ok (order', n)
      ↔ order' = order ∧ n = limit.getD default ∧ (∀ c, cursor = some c → 0 < c)
        ∧ 1 ≤ limit.getD default ∧ limit.getD default ≤ max := by
  unfold validateWindow
  rw [htext]
  dsimp only
  by_cases hcursor : ∀ c, cursor = some c → 0 < c
  · rw [if_neg fun h => (cursor_checks order cursor).mp h hcursor]
    by_cases hlimit : 1 ≤ limit.getD default ∧ limit.getD default ≤ max
    · rw [if_neg (not_not_intro hlimit)]
      constructor
      · intro h
        obtain ⟨horder, hn⟩ := Prod.mk.inj (Except.ok.inj h)
        exact ⟨horder.symm, hn.symm, hcursor, hlimit⟩
      · rintro ⟨rfl, rfl, -⟩
        rfl
    · rw [if_pos hlimit]
      exact ⟨fun h => absurd h (by simp), fun h => absurd h.2.2.2 hlimit⟩
  · rw [if_pos ((cursor_checks order cursor).mpr hcursor)]
    exact ⟨fun h => absurd h (by simp), fun h => absurd h.2.2.1 hcursor⟩

/-- The rows a window fetches are a page of the library. -/
theorem fetchWindow_eq_page {ρ : Type} (id : ρ → Int) (rows : List ρ) (keep : ρ → Bool)
    (order : WindowOrder) (cursor : Option Int) (limit : Nat) :
    fetchWindow id rows keep order (order.before cursor) (order.after cursor) limit
      = page (fun r => order.place (id r)) rows keep (cursor.map order.place) limit := by
  cases order with
  | desc =>
      have hselected : ∀ r : ρ,
          (keep r && cursor.all fun before => decide (id r < before))
            = (keep r && (cursor.map Neg.neg).all fun c => decide (c < -id r)) := by
        intro r
        cases cursor with
        | none => rfl
        | some c => simp
      unfold fetchWindow page WindowOrder.before WindowOrder.place
      dsimp only
      rw [List.filter_congr fun r _ => hselected r]
      congr 1
      refine Relational.orderBy_congr (fun a b => ?_) _
      omega
  | asc =>
      have hcursor : cursor.map (WindowOrder.place .asc) = cursor := by
        cases cursor <;> rfl
      rw [hcursor]
      rfl

/-! ## Following the cursor -/

section Client

variable {ρ ν : Type}

/-- A client that follows the cursor of a listing: it asks for what lies beyond the last entry it
was given, as long as it is told that there is more. What is asked with a limit from a cursor is
answered by some entries and by whether there is more. -/
inductive Traverses (answers : Option Nat → Option Int → List ν → Bool → Prop) (id : ν → Int)
    (start : Option Int) : List ν → Bool → Nat → Prop
  | start : Traverses answers id start [] true 0
  | next {given entries : List ν} {more : Bool} {windows : Nat} {limit : Option Nat}
      (followed : Traverses answers id start given true windows)
      (answered : answers limit ((given.getLast?.map id).or start) entries more) :
      Traverses answers id start (given ++ entries) more (windows + 1)

/-- What a client that follows the cursor gets, of the entries there are to be shown. -/
structure ListsAll (answers : Option Nat → Option Int → List ν → Bool → Prop) (order : WindowOrder)
    (id : ν → Int) (shown : List ν) (start : Option Int) (given : List ν) (more : Bool)
    (windows : Nat) : Prop where
  /-- In the order asked for, so none of them twice. -/
  ordered : given.Pairwise fun a b => order.Precedes (id a) (id b)
  /-- Only entries of the listing, beyond the start. -/
  sound : ∀ v ∈ given, v ∈ shown ∧ ∀ c, start = some c → order.Precedes c (id v)
  /-- No entry is skipped: what is left comes after everything given. -/
  noGap : ∀ v ∈ shown, (∀ c, start = some c → order.Precedes c (id v)) →
    v ∈ given ∨ ∀ u ∈ given, order.Precedes (id u) (id v)
  /-- **`has_more`** says whether an entry is left. -/
  more_iff : 0 < windows →
    (more = true ↔ ∃ v ∈ shown, (∀ c, start = some c → order.Precedes c (id v)) ∧ v ∉ given)
  /-- There are not more windows than entries, and one. -/
  finite : windows ≤ shown.length + 1
  /-- A client that is told that there is more can go on, with any limit that is admitted. -/
  goesOn : more = true → (∀ v ∈ shown, 0 < id v) → (∀ c, start = some c → 0 < c) →
    ∀ limit : Option Nat, 1 ≤ limit.getD 20 → limit.getD 20 ≤ 200 →
      ∃ entries more', answers limit ((given.getLast?.map id).or start) entries more'

/-- A listing answers with the windows of a table. -/
def AnswersWindows (answers : Option Nat → Option Int → List ν → Bool → Prop) (order : WindowOrder)
    (id : ρ → Int) (rows : List ρ) (keep : ρ → Bool) (view : ρ → ν) : Prop :=
  ∀ limit cursor entries more, answers limit cursor entries more
    ↔ ((∀ c, cursor = some c → 0 < c) ∧ 1 ≤ limit.getD 20 ∧ limit.getD 20 ≤ 200)
      ∧ entries = (window (fun r => order.place (id r)) rows keep (cursor.map order.place)
          (limit.getD 20)).1.map view
      ∧ more = (window (fun r => order.place (id r)) rows keep (cursor.map order.place)
          (limit.getD 20)).2

variable {answers : Option Nat → Option Int → List ν → Bool → Prop} {order : WindowOrder}
  {id : ρ → Int} {rows : List ρ} {keep : ρ → Bool} {view : ρ → ν} {viewId : ν → Int}
  {start : Option Int} {given : List ν} {more : Bool} {windows : Nat}

/-- The client is one of the library's. -/
theorem Traverses.follows (hanswers : AnswersWindows answers order id rows keep view)
    (hid : ∀ r, viewId (view r) = id r) (h : Traverses answers viewId start given more windows) :
    ∃ rowsGiven, given = rowsGiven.map view
      ∧ Follows (fun r => order.place (id r)) rows keep (start.map order.place) rowsGiven more
        windows := by
  induction h with
  | start => exact ⟨[], rfl, .start⟩
  | @next given entries more windows limit followed answered ih =>
      obtain ⟨rowsGiven, rfl, hfollows⟩ := ih
      obtain ⟨⟨-, hpos, -⟩, hentries, hmore⟩ := (hanswers _ _ _ _).mp answered
      have hcursor : (((rowsGiven.map view).getLast?.map viewId).or start).map order.place
          = cursorAfter (fun r => order.place (id r)) (start.map order.place) rowsGiven := by
        unfold cursorAfter
        rw [List.getLast?_map]
        cases rowsGiven.getLast? with
        | none => rfl
        | some last =>
            show some (order.place (viewId (view last))) = some (order.place (id last))
            rw [hid]
      rw [hcursor] at hentries hmore
      refine ⟨_, ?_, hmore ▸ hfollows.next hpos⟩
      rw [List.map_append, hentries]

/-- Where the rows lie that a client has yet to be given. -/
theorem beyond_start_iff {r : ρ} :
    Ahead (fun r => order.place (id r)) rows keep (start.map order.place) r
      ↔ (r ∈ rows ∧ keep r = true) ∧ ∀ c, start = some c → order.Precedes c (id r) := by
  constructor
  · intro h
    refine ⟨⟨h.mem, h.selected⟩, fun c hc => WindowOrder.place_lt_iff.mp ?_⟩
    exact h.beyond _ (by rw [hc]; rfl)
  · rintro ⟨⟨hmem, hkeep⟩, hbeyond⟩
    refine ⟨hmem, hkeep, fun c hc => ?_⟩
    obtain ⟨c', hc', rfl⟩ := Option.map_eq_some_iff.mp hc
    exact WindowOrder.place_lt_iff.mpr (hbeyond c' hc')

/-- **Following the cursor** lists everything. -/
theorem Traverses.listsAll (hanswers : AnswersWindows answers order id rows keep view)
    (hid : ∀ r, viewId (view r) = id r) (hnodup : (rows.map id).Nodup)
    (h : Traverses answers viewId start given more windows) :
    ListsAll answers order viewId ((rows.filter keep).map view) start given more windows := by
  obtain ⟨rowsGiven, rfl, hfollows⟩ := h.follows hanswers hid
  have hn : (rows.map fun r => order.place (id r)).Nodup := by
    have hmap : (rows.map fun r => order.place (id r)) = (rows.map id).map order.place := by
      rw [List.map_map]
      rfl
    rw [hmap]
    exact hnodup.map fun i j hij => WindowOrder.place_inj hij
  have hcovers := hfollows.covers hn
  -- an entry is shown as often as its row is there, and a row is told from others by its id
  have hinj : ∀ r ∈ rows, ∀ r' ∈ rows, view r = view r' → r = r' := by
    intro r hr r' hr' hview
    refine List.inj_on_of_nodup_map hnodup hr hr' ?_
    rw [← hid r, ← hid r', hview]
  have hmem : ∀ r ∈ rows, view r ∈ rowsGiven.map view → r ∈ rowsGiven := by
    intro r hr hview
    obtain ⟨r', hr', heq⟩ := List.mem_map.mp hview
    have hrow' := ((hcovers.exact r').mp hr').1.mem
    rw [hinj r hr r' hrow' heq.symm]
    exact hr'
  refine ⟨?_, ?_, ?_, ?_, ?_, ?_⟩
  · refine List.pairwise_map.mpr (hcovers.increasing.imp fun {a b} hab => ?_)
    rw [hid, hid]
    exact WindowOrder.place_lt_iff.mp hab
  · intro v hv
    obtain ⟨r, hr, rfl⟩ := List.mem_map.mp hv
    obtain ⟨hkept, hbeyond⟩ := beyond_start_iff.mp ((hcovers.exact r).mp hr).1
    refine ⟨List.mem_map_of_mem (List.mem_filter.mpr hkept), ?_⟩
    rw [hid]
    exact hbeyond
  · intro v hv hbeyond
    obtain ⟨r, hr, rfl⟩ := List.mem_map.mp hv
    rw [hid] at hbeyond ⊢
    by_cases hgiven : r ∈ rowsGiven
    · exact Or.inl (List.mem_map_of_mem hgiven)
    · refine Or.inr fun u hu => ?_
      obtain ⟨r', hr', rfl⟩ := List.mem_map.mp hu
      rw [hid]
      have hahead := hcovers.ahead_iff.mpr
        ⟨beyond_start_iff.mpr ⟨List.mem_filter.mp hr, hbeyond⟩, hgiven⟩
      obtain ⟨-, last, hlast, hle⟩ := (hcovers.exact r').mp hr'
      have hlt := hahead.beyond (order.place (id last)) (by simp [cursorAfter, hlast])
      exact WindowOrder.place_lt_iff.mp (lt_of_le_of_lt hle hlt)
  · intro hwindows
    rw [hfollows.more_iff hn hwindows]
    constructor
    · rintro ⟨r, hahead, hnot⟩
      obtain ⟨hkept, hbeyond⟩ := beyond_start_iff.mp hahead
      refine ⟨view r, List.mem_map_of_mem (List.mem_filter.mpr hkept), ?_, ?_⟩
      · rw [hid]
        exact hbeyond
      · exact fun hview => hnot (hmem r hkept.1 hview)
    · rintro ⟨v, hv, hbeyond, hnot⟩
      obtain ⟨r, hr, rfl⟩ := List.mem_map.mp hv
      rw [hid] at hbeyond
      refine ⟨r, beyond_start_iff.mpr ⟨List.mem_filter.mp hr, hbeyond⟩, ?_⟩
      exact fun hgiven => hnot (List.mem_map_of_mem hgiven)
  · have hwindows := hfollows.windows_le hn
    have hlength := hcovers.length_le
    rw [List.length_map]
    split at hwindows <;> omega
  · intro hmore hpositive hstart limit hone hmax
    refine ⟨_, _, (hanswers limit _ _ _).mpr ⟨⟨fun c hc => ?_, hone, hmax⟩, rfl, rfl⟩⟩
    -- the cursor is the id of an entry, or the start
    cases hlast : (rowsGiven.map view).getLast? with
    | none =>
        rw [hlast] at hc
        exact hstart c hc
    | some last =>
        rw [hlast] at hc
        obtain rfl := Option.some.inj hc
        obtain ⟨r, hr, rfl⟩ := List.mem_map.mp (List.mem_of_getLast? hlast)
        have hkept := (beyond_start_iff.mp ((hcovers.exact r).mp hr).1).1
        exact hpositive _ (List.mem_map_of_mem (List.mem_filter.mpr hkept))

end Client

/-! ## The three listings -/

theorem WindowOrder.parse_asStr (order : WindowOrder) : parse (some order.asStr) = some order := by
  cases order <;> rfl

/-- What a request for a window of the durable grants is answered with. -/
def DurableAnswers (db : Database) (order : WindowOrder) (limit : Option Nat) (cursor : Option Int)
    (entries : List DurableGrantSnapshot) (more : Bool) : Prop :=
  ∃ text answer, WindowOrder.parse text = some order
    ∧ readAuthorizationPolicyWindow db
        ⟨"durable", order.before cursor, order.after cursor, limit, text⟩ = .ok answer
    ∧ answer.durableGrants = entries ∧ answer.hasMore = more

def DelegatedAnswers (db : Database) (order : WindowOrder) (limit : Option Nat)
    (cursor : Option Int) (entries : List DelegatedGrantSnapshot) (more : Bool) : Prop :=
  ∃ text answer, WindowOrder.parse text = some order
    ∧ readAuthorizationPolicyWindow db
        ⟨"delegated", order.before cursor, order.after cursor, limit, text⟩ = .ok answer
    ∧ answer.delegatedGrants = entries ∧ answer.hasMore = more

/-- What a request for a window of the history is answered with, under a participant filter. -/
def EventAnswers (db : Database) (participantId : Option String) (order : WindowOrder)
    (limit : Option Nat) (cursor : Option Int) (entries : List AdministrationEventSnapshot)
    (more : Bool) : Prop :=
  ∃ text answer, WindowOrder.parse text = some order
    ∧ readAdministrationEventWindow db
        ⟨participantId, order.before cursor, order.after cursor, limit, text⟩ = .ok answer
    ∧ answer.events = entries ∧ answer.hasMore = more

/-- The events a filter keeps. -/
def keepsEvent (participant : Option String) (event : AuthorizationAdministrationEvent) : Bool :=
  participant.all fun participantId => decide (event.participantId = participantId)

section Answers

variable {ρ ν : Type} {id : ρ → Int} {rows : List ρ} {keep : ρ → Bool} {view : ρ → ν}
  {order : WindowOrder} {cursor : Option Int}

/-- What is fetched, cut to the limit and shown, is the window. -/
theorem shown_eq_window (limit : Nat) :
    ((fetchWindow id rows keep order (order.before cursor) (order.after cursor)
        (limit + 1)).map view).take limit
      = (window (fun r => order.place (id r)) rows keep (cursor.map order.place)
          limit).1.map view := by
  rw [fetchWindow_eq_page, ← List.map_take]
  rfl

theorem more_eq_window (limit : Nat) :
    decide (((fetchWindow id rows keep order (order.before cursor) (order.after cursor)
        (limit + 1)).map view).length > limit)
      = (window (fun r => order.place (id r)) rows keep (cursor.map order.place) limit).2 := by
  rw [fetchWindow_eq_page, List.length_map]
  rfl

/-- A reader that checks its request as a window does, and shows what it fetches, answers with
windows. -/
theorem answersWindows_of_checked (default max : Nat) (hdefault : default = 20) (hmax : max = 200)
    {answers : Option Nat → Option Int → List ν → Bool → Prop}
    (h : ∀ limit cursor entries more, answers limit cursor entries more ↔
      ∃ text n, WindowOrder.parse text = some order
        ∧ validateWindow (order.before cursor) (order.after cursor) limit text default max
          = .ok (order, n)
        ∧ entries = ((fetchWindow id rows keep order (order.before cursor) (order.after cursor)
            (n + 1)).map view).take n
        ∧ more = decide (((fetchWindow id rows keep order (order.before cursor)
            (order.after cursor) (n + 1)).map view).length > n)) :
    AnswersWindows answers order id rows keep view := by
  subst hdefault hmax
  intro limit cursor entries more
  rw [h]
  constructor
  · rintro ⟨text, n, htext, hvalid, hentries, hmore⟩
    obtain ⟨-, rfl, hcursor, hlimit⟩ := (validateWindow_iff htext).mp hvalid
    rw [shown_eq_window] at hentries
    rw [more_eq_window] at hmore
    exact ⟨⟨hcursor, hlimit⟩, hentries, hmore⟩
  · rintro ⟨⟨hcursor, hlimit⟩, hentries, hmore⟩
    refine ⟨some order.asStr, limit.getD 20, order.parse_asStr, ?_, ?_, ?_⟩
    · exact (validateWindow_iff order.parse_asStr).mpr ⟨rfl, rfl, hcursor, hlimit⟩
    · rw [shown_eq_window]
      exact hentries
    · rw [more_eq_window]
      exact hmore

/-- The order a checked request names is the one its text is parsed to. -/
theorem order_of_validateWindow {before after : Option Int} {limit : Option Nat}
    {text : Option String} {default max n : Nat} {order' : WindowOrder}
    (htext : WindowOrder.parse text = some order)
    (h : validateWindow before after limit text default max = .ok (order', n)) : order' = order := by
  unfold validateWindow at h
  rw [htext] at h
  dsimp only at h
  split at h
  · exact absurd h (by simp)
  · split at h
    · exact absurd h (by simp)
    · exact (Prod.mk.inj (Except.ok.inj h)).1.symm

end Answers

/-- A request for durable grants is checked as a window and answered with what is fetched. -/
theorem readDurable_eq (db : Database) (before after : Option Int) (limit : Option Nat)
    (text : Option String) :
    readAuthorizationPolicyWindow db ⟨"durable", before, after, limit, text⟩
      = (validateWindow before after limit text defaultAuthorizationPolicyWindowSize
          maxAuthorizationPolicyWindowSize).map fun checked =>
        let grants := readDurableGrantWindow db checked.1 before after (checked.2 + 1)
        ⟨"durable", grants.take checked.2, [], checked.1.asStr,
          decide (grants.length > checked.2)⟩ := by
  unfold readAuthorizationPolicyWindow validatePolicyWindowRequest
  dsimp only
  cases validateWindow before after limit text defaultAuthorizationPolicyWindowSize
    maxAuthorizationPolicyWindowSize <;> rfl

theorem readDelegated_eq (db : Database) (before after : Option Int) (limit : Option Nat)
    (text : Option String) :
    readAuthorizationPolicyWindow db ⟨"delegated", before, after, limit, text⟩
      = (validateWindow before after limit text defaultAuthorizationPolicyWindowSize
          maxAuthorizationPolicyWindowSize).map fun checked =>
        let grants := readDelegatedGrantWindow db checked.1 before after (checked.2 + 1)
        ⟨"delegated", [], grants.take checked.2, checked.1.asStr,
          decide (grants.length > checked.2)⟩ := by
  unfold readAuthorizationPolicyWindow validatePolicyWindowRequest
  dsimp only
  cases validateWindow before after limit text defaultAuthorizationPolicyWindowSize
    maxAuthorizationPolicyWindowSize <;> rfl

/-- A request for events under a filter that names a participant, or none. -/
theorem readEvents_eq (db : Database) {filter participant : Option String}
    (hfilter : historyParticipant filter = .ok participant) (before after : Option Int)
    (limit : Option Nat) (text : Option String) :
    readAdministrationEventWindow db ⟨filter, before, after, limit, text⟩
      = (validateWindow before after limit text defaultAdministrationHistoryWindowSize
          maxAdministrationHistoryWindowSize).map fun checked =>
        let events := (fetchWindow AuthorizationAdministrationEvent.id db.adminEvents.rows
          (keepsEvent participant) checked.1 before after
          (checked.2 + 1)).map administrationEventSnapshot
        ⟨events.take checked.2, checked.1.asStr, decide (events.length > checked.2)⟩ := by
  unfold readAdministrationEventWindow
  dsimp only
  rw [hfilter]
  cases validateWindow before after limit text defaultAdministrationHistoryWindowSize
    maxAdministrationHistoryWindowSize <;> rfl

/-- What was answered comes from a request that passed its checks. -/
theorem checked_of_map {α : Type} {order : WindowOrder} {before after : Option Int}
    {limit : Option Nat} {text : Option String} {default max : Nat}
    {f : WindowOrder × Nat → α} {answer : α} (htext : WindowOrder.parse text = some order)
    (h : (validateWindow before after limit text default max).map f = .ok answer) :
    ∃ n, validateWindow before after limit text default max = .ok (order, n)
      ∧ answer = f (order, n) := by
  cases hvalid : validateWindow before after limit text default max with
  | error e =>
      rw [hvalid] at h
      exact absurd h (by simp [Except.map])
  | ok checked =>
      obtain ⟨order', n⟩ := checked
      obtain rfl := order_of_validateWindow htext hvalid
      rw [hvalid] at h
      exact ⟨n, rfl, (Except.ok.inj h).symm⟩

theorem durableAnswers_windows (db : Database) (order : WindowOrder) :
    AnswersWindows (DurableAnswers db order) order DurableGrant.id db.principalGrants.rows
      (fun _ => true) fun g => g := by
  refine answersWindows_of_checked defaultAuthorizationPolicyWindowSize
    maxAuthorizationPolicyWindowSize rfl rfl fun limit cursor entries more => ?_
  simp only [DurableAnswers, readDurable_eq, List.map_id']
  constructor
  · rintro ⟨text, answer, htext, hread, rfl, rfl⟩
    obtain ⟨n, hvalid, rfl⟩ := checked_of_map htext hread
    exact ⟨text, n, htext, hvalid, rfl, rfl⟩
  · rintro ⟨text, n, htext, hvalid, rfl, rfl⟩
    exact ⟨text, _, htext, by rw [hvalid]; rfl, rfl, rfl⟩

theorem delegatedAnswers_windows (db : Database) (order : WindowOrder) :
    AnswersWindows (DelegatedAnswers db order) order DelegatedGrant.id db.delegatedGrants.rows
      (fun _ => true) delegatedGrantSnapshot := by
  refine answersWindows_of_checked defaultAuthorizationPolicyWindowSize
    maxAuthorizationPolicyWindowSize rfl rfl fun limit cursor entries more => ?_
  simp only [DelegatedAnswers, readDelegated_eq]
  constructor
  · rintro ⟨text, answer, htext, hread, rfl, rfl⟩
    obtain ⟨n, hvalid, rfl⟩ := checked_of_map htext hread
    exact ⟨text, n, htext, hvalid, rfl, rfl⟩
  · rintro ⟨text, n, htext, hvalid, rfl, rfl⟩
    exact ⟨text, _, htext, by rw [hvalid]; rfl, rfl, rfl⟩

theorem eventAnswers_windows (db : Database) {filter participant : Option String}
    (hfilter : historyParticipant filter = .ok participant) (order : WindowOrder) :
    AnswersWindows (EventAnswers db filter order) order AuthorizationAdministrationEvent.id
      db.adminEvents.rows (keepsEvent participant) administrationEventSnapshot := by
  refine answersWindows_of_checked defaultAdministrationHistoryWindowSize
    maxAdministrationHistoryWindowSize rfl rfl fun limit cursor entries more => ?_
  simp only [EventAnswers, readEvents_eq db hfilter]
  constructor
  · rintro ⟨text, answer, htext, hread, rfl, rfl⟩
    obtain ⟨n, hvalid, rfl⟩ := checked_of_map htext hread
    exact ⟨text, n, htext, hvalid, rfl, rfl⟩
  · rintro ⟨text, n, htext, hvalid, rfl, rfl⟩
    exact ⟨text, _, htext, by rw [hvalid]; rfl, rfl, rfl⟩

/-- **The policy and its history are listed completely**, in either order, from any cursor, with
any limits, whatever the store holds. -/
theorem listings_complete (db : Database) (order : WindowOrder) (start : Option Int) :
    (∀ given more windows,
      Traverses (DurableAnswers db order) DurableGrant.id start given more windows →
        ListsAll (DurableAnswers db order) order DurableGrant.id db.principalGrants.rows start
          given more windows)
    ∧ (∀ given more windows,
      Traverses (DelegatedAnswers db order) DelegatedGrantSnapshot.id start given more windows →
        ListsAll (DelegatedAnswers db order) order DelegatedGrantSnapshot.id
          (db.delegatedGrants.rows.map delegatedGrantSnapshot) start given more windows)
    ∧ (∀ filter participant, historyParticipant filter = .ok participant →
      ∀ given more windows,
        Traverses (EventAnswers db filter order) AdministrationEventSnapshot.id start given more
          windows →
        ListsAll (EventAnswers db filter order) order AdministrationEventSnapshot.id
          ((db.adminEvents.rows.filter (keepsEvent participant)).map administrationEventSnapshot)
          start given more windows) := by
  refine ⟨?_, ?_, ?_⟩
  · intro given more windows h
    have hlists := h.listsAll (durableAnswers_windows db order) (fun _ => rfl)
      db.principalGrants.nodup
    rw [List.filter_true, List.map_id'] at hlists
    exact hlists
  · intro given more windows h
    have hlists := h.listsAll (delegatedAnswers_windows db order) (fun _ => rfl)
      db.delegatedGrants.nodup
    rw [List.filter_true] at hlists
    exact hlists
  · intro filter participant hfilter given more windows h
    exact h.listsAll (eventAnswers_windows db hfilter order) (fun _ => rfl) db.adminEvents.nodup

/-! ## Ids are positive -/

/-- The ids of the policy and its history, as the tables give them out. -/
structure PositiveIds (db : Database) : Prop where
  durable : ∀ g ∈ db.principalGrants, 0 < g.id
  delegated : ∀ g ∈ db.delegatedGrants, 0 < g.id
  events : ∀ e ∈ db.adminEvents, 0 < e.id

namespace PositiveIds

variable {now : Int} {db db' : Database}

theorem recordEvent (h : PositiveIds db) (now : Int) (actor : NormalizedActor)
    (event : AdministrationEvent) : PositiveIds (recordEvent now actor event db) := by
  refine ⟨h.durable, h.delegated, fun e he => ?_⟩
  rcases Table.mem_append.mp he with he | rfl
  · exact h.events e he
  · exact Table.nextId_pos db.adminEvents

theorem setDurableStatus (h : PositiveIds db) (now id : Int) (status : String) :
    PositiveIds (setDurableStatus now id status db) := by
  refine ⟨fun g hg => ?_, h.delegated, h.events⟩
  unfold Blackboard.setDurableStatus at hg
  rw [Table.mem_update] at hg
  obtain ⟨row, hrow, rfl⟩ := hg
  split
  · exact h.durable row hrow
  · exact h.durable row hrow

theorem setDelegatedInactive (h : PositiveIds db) (id : Int) :
    PositiveIds (setDelegatedInactive id db) := by
  refine ⟨h.durable, fun g hg => ?_, h.events⟩
  unfold Blackboard.setDelegatedInactive at hg
  rw [Table.mem_update] at hg
  obtain ⟨row, hrow, rfl⟩ := hg
  split
  · exact h.delegated row hrow
  · exact h.delegated row hrow

theorem insertDurableGrant (h : PositiveIds db) (now : Int) (request : DurableGrantCreateRequest) :
    PositiveIds (insertDurableGrant now request db).2 := by
  refine ⟨fun g hg => ?_, h.delegated, h.events⟩
  rcases Table.mem_append.mp hg with hg | rfl
  · exact h.durable g hg
  · exact Table.nextId_pos db.principalGrants

theorem insertDelegatedGrant (h : PositiveIds db) (request : DelegatedGrantCreateRequest) :
    PositiveIds (insertDelegatedGrant request db).2 := by
  refine ⟨h.durable, fun g hg => ?_, h.events⟩
  rcases Table.mem_append.mp hg with hg | rfl
  · exact h.delegated g hg
  · exact Table.nextId_pos db.delegatedGrants

theorem of_grantEffect {creation : Option DelegatedGrantCreateRequest} (h : PositiveIds db)
    (heffect : GrantEffect now db creation db') : PositiveIds db' := by
  cases heffect with
  | nothing => exact h
  | createDurable actor raw request normal participant fresh =>
      exact (h.insertDurableGrant now request).recordEvent now actor _
  | reactivate actor g mem inactive =>
      exact (h.setDurableStatus now g.id "active").recordEvent now actor _
  | deactivateDurable actor g mem active =>
      exact (h.setDurableStatus now g.id "inactive").recordEvent now actor _
  | createDelegated actor raw request asked normal participant =>
      exact (h.insertDelegatedGrant request).recordEvent now actor _
  | deactivateDelegated actor g mem active =>
      exact (h.setDelegatedInactive g.id).recordEvent now actor _

theorem of_ungranted (h : PositiveIds db) (hu : Ungranted db db') : PositiveIds db' := by
  refine ⟨?_, fun g' hg' => ?_, ?_⟩
  · rw [hu.durable]
    exact h.durable
  · rcases hu.delegated with hsame | ⟨now, consumed, intentId, hconsumed, -⟩
    · rw [hsame] at hg'
      exact h.delegated g' hg'
    · obtain ⟨g, hg, rfl⟩ := (hconsumed.mem g').mp hg'
      split
      · exact h.delegated g hg
      · exact h.delegated g hg
  · rw [hu.events]
    exact h.events

/-- In the states of a run every cursor a listing gives is one it takes. -/
theorem of_run [Sha256] (actions : List Action) :
    PositiveIds (Transition.run Action.step Database.initial actions) := by
  have hstep : ∀ db a, LogInv db ∧ PositiveIds db → True →
      LogInv (Action.step a db).2 ∧ PositiveIds (Action.step a db).2 := by
    intro db a hdb _
    refine ⟨logInv_step db a hdb.1, ?_⟩
    cases hop : a.grantOp with
    | none => exact hdb.2.of_ungranted (a.ungranted db hop)
    | some op =>
        rw [Action.step_of_grantOp hop]
        exact hdb.2.of_grantEffect (op.effect hdb.1.grants a.now)
  have hinitial : PositiveIds Database.initial :=
    ⟨fun _ hg => absurd hg (Table.not_mem_empty _), fun _ hg => absurd hg (Table.not_mem_empty _),
      fun _ he => absurd he (Table.not_mem_empty _)⟩
  exact (Transition.inv_run (G := fun _ _ => True) hstep ⟨logInv_initial, hinitial⟩
    fun _ _ => trivial).2

end PositiveIds

end Blackboard
