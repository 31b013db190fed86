import Mathlib.Data.String.Basic
import Blackboard.Lib.Paging
import Blackboard.Model.System

/-!
# Paging through the channel directory

The directory is keyed by name and each page is read from its own snapshot, with anything
in between: channels come in, their visibility flips, messages are appended. A page is a
window of the library over the names, so the counts a row carries have no part in it, and
a client is given, once and in order, every channel that was there to be seen whenever a
page was read.
-/

namespace Blackboard

open Relational (page window Ahead Selected Tours cursorAfter)
open Concurrent (Program)

/-- The channels a directory shows. -/
def inDirectory (publicOnly : Bool) (row : Channel) : Bool :=
  !publicOnly || decide (row.visibility = "public" ∧ row.status = activeStatus)

/-- A channel of this name is shown. -/
def VisibleIn (publicOnly : Bool) (db : Database) (name : String) : Prop :=
  ∃ row ∈ db.channels, inDirectory publicOnly row = true ∧ row.name = name

/-! ## One page -/

theorem readChannelDirectoryRows_eq (db : Database) (publicOnly : Bool) (afterName : Option String)
    (limit : Nat) :
    readChannelDirectoryRows db publicOnly afterName limit
      = (page Channel.name db.channels.rows (inDirectory publicOnly) afterName limit).map
          (channelSummary db) := by
  unfold readChannelDirectoryRows page
  have hselected : ∀ row : Channel,
      ((!publicOnly || decide (row.visibility = "public" ∧ row.status = activeStatus))
          && afterName.all fun after => decide (row.name > after))
        = (inDirectory publicOnly row && afterName.all fun c => decide (c < row.name)) := by
    intro row
    cases afterName with
    | none => rfl
    | some after =>
        simp only [Option.all_some]
        congr 1
  rw [List.filter_congr fun row _ => hselected row]

/-- A request that is admitted is answered with a window of the names. -/
theorem readChannelDirectoryWindow_ok {db : Database} {request : ChannelDirectoryWindowRequest}
    {channels : List ChannelSummary} {more : Bool} :
    readChannelDirectoryWindow db request = .ok (channels, more)
      ↔ (request.afterName ≠ some ""
          ∧ 1 ≤ request.limit.getD 20 ∧ request.limit.getD 20 ≤ 200)
        ∧ channels = (window Channel.name db.channels.rows (inDirectory request.publicOnly)
            request.afterName (request.limit.getD 20)).1.map (channelSummary db)
        ∧ more = (window Channel.name db.channels.rows (inDirectory request.publicOnly)
            request.afterName (request.limit.getD 20)).2 := by
  have hanswer : ∀ limit : Nat,
      ((readChannelDirectoryRows db request.publicOnly request.afterName (limit + 1)).take limit,
        decide ((readChannelDirectoryRows db request.publicOnly request.afterName
          (limit + 1)).length > limit))
      = ((window Channel.name db.channels.rows (inDirectory request.publicOnly)
            request.afterName limit).1.map (channelSummary db),
          (window Channel.name db.channels.rows (inDirectory request.publicOnly)
            request.afterName limit).2) := by
    intro limit
    rw [readChannelDirectoryRows_eq, ← List.map_take, List.length_map]
    rfl
  unfold readChannelDirectoryWindow defaultChannelDirectoryWindowSize
    maxChannelDirectoryWindowSize
  by_cases hname : request.afterName = some ""
  · rw [if_pos hname]
    exact ⟨fun h => absurd h (by simp), fun h => absurd hname h.1.1⟩
  · rw [if_neg hname]
    dsimp only
    by_cases hlimit : 1 ≤ request.limit.getD 20 ∧ request.limit.getD 20 ≤ 200
    · rw [if_neg (not_not_intro hlimit), hanswer]
      constructor
      · intro h
        obtain ⟨hchannels, hmore⟩ := Prod.mk.inj (Except.ok.inj h)
        exact ⟨⟨hname, hlimit⟩, hchannels.symm, hmore.symm⟩
      · rintro ⟨-, rfl, rfl⟩
        rfl
    · rw [if_pos hlimit]
      exact ⟨fun h => absurd h (by simp), fun h => absurd h.1.2 hlimit⟩

/-! ## A client -/

/-- A page of the directory, the state it was read from and how many rows were asked for. -/
structure DirectoryPage where
  snapshot : Database
  limit : Option Nat
  channels : List ChannelSummary
  hasMore : Bool

/-- The channels a client has been given. -/
def listed (pages : List DirectoryPage) : List ChannelSummary := pages.flatMap DirectoryPage.channels

/-- The names a client has been given. -/
def listedNames (pages : List DirectoryPage) : List String :=
  (listed pages).map ChannelSummary.channel

section Browsing

variable [Sha256]

/-- Between two pages others run any operations of the store. -/
def OthersRun (w w' : World) : Prop :=
  ∃ actions : List Action, w'.db = Transition.run Action.step w.db actions

/-- A client that pages through the directory: it asks for what comes after the last name it was
given. -/
inductive Browses (publicOnly : Bool) (start : Option String) : List DirectoryPage → World → Prop
  | start (w : World) : Browses publicOnly start [] w
  | next {pages : List DirectoryPage} {w w' : World} {limit : Option Nat}
      {channels : List ChannelSummary} {more : Bool}
      (browsed : Browses publicOnly start pages w)
      (answered : (query fun db => readChannelDirectoryWindow db
        ⟨(listedNames pages).getLast?.or start, limit, publicOnly⟩).Answers OthersRun w
          (.ok (channels, more)) w') :
      Browses publicOnly start (pages ++ [⟨w'.db, limit, channels, more⟩]) w'

/-- What a client that pages through the directory gets. -/
structure BrowsedExactly (publicOnly : Bool) (start : Option String) (pages : List DirectoryPage) :
    Prop where
  /-- The names go up, so none comes twice. -/
  increasing : (listedNames pages).Pairwise fun a b => a < b
  /-- Every entry is a channel of its page's snapshot, shown as it was there. -/
  sound : ∀ p ∈ pages, ∀ entry ∈ p.channels, ∃ row ∈ p.snapshot.channels,
    inDirectory publicOnly row = true ∧ entry = channelSummary p.snapshot row
      ∧ ∀ c, start = some c → c < row.name
  /-- Whatever could be seen whenever a page was read, and lies before the last name, was given. -/
  noGap : ∀ name, (∀ p ∈ pages, VisibleIn publicOnly p.snapshot name) →
    (∀ c, start = some c → c < name) → (∃ last ∈ listedNames pages, name ≤ last) →
    name ∈ listedNames pages
  /-- **`has_more`** says whether a channel beyond the last name could be seen. -/
  more_iff : ∀ front p, pages = front ++ [p] → (p.hasMore = true
    ↔ ∃ name, VisibleIn publicOnly p.snapshot name ∧ (∀ c, start = some c → c < name)
        ∧ ∀ given ∈ listedNames pages, given < name)
  /-- A client that is told that there is no more was given all that could be seen throughout. -/
  complete : ∀ front p, pages = front ++ [p] → p.hasMore = false →
    ∀ name, (∀ q ∈ pages, VisibleIn publicOnly q.snapshot name) →
      (∀ c, start = some c → c < name) → name ∈ listedNames pages
  /-- A client can go on, with any limit that is admitted and whatever has become of the store, as
  long as no channel has an empty name. -/
  goesOn : (∀ p ∈ pages, ∀ row ∈ p.snapshot.channels, row.name ≠ "") → start ≠ some "" →
    ∀ (db : Database) (limit : Option Nat), 1 ≤ limit.getD 20 → limit.getD 20 ≤ 200 →
      ∃ answer, readChannelDirectoryWindow db
        ⟨(listedNames pages).getLast?.or start, limit, publicOnly⟩ = .ok answer

/-- What the library says of such a client. -/
structure Browsed (publicOnly : Bool) (start : Option String) (pages : List DirectoryPage)
    (rows : List Channel) : Prop where
  names : listedNames pages = rows.map Channel.name
  tours : Tours Channel.name
    (pages.map fun p => (p.snapshot.channels.rows, inDirectory publicOnly)) start rows
  sound : ∀ p ∈ pages, ∀ entry ∈ p.channels, ∃ row ∈ p.snapshot.channels,
    inDirectory publicOnly row = true ∧ entry = channelSummary p.snapshot row
      ∧ ∀ c, start = some c → c < row.name

omit [Sha256] in
theorem listed_snoc (pages : List DirectoryPage) (p : DirectoryPage) :
    listedNames (pages ++ [p]) = listedNames pages ++ p.channels.map ChannelSummary.channel := by
  simp [listedNames, listed]

section

variable {publicOnly : Bool} {start : Option String} {pages : List DirectoryPage}
  {rows : List Channel}

omit [Sha256] in
theorem Browsed.cursor (h : Browsed publicOnly start pages rows) :
    (listedNames pages).getLast?.or start = cursorAfter Channel.name start rows := by
  rw [h.names, List.getLast?_map]
  rfl

omit [Sha256] in
/-- **One page more**, from whatever the store has become. -/
theorem Browsed.next (h : Browsed publicOnly start pages rows) (db : Database)
    (limit : Option Nat) (channels : List ChannelSummary) (more : Bool)
    (hread : readChannelDirectoryWindow db
      ⟨(listedNames pages).getLast?.or start, limit, publicOnly⟩ = .ok (channels, more)) :
    Browsed publicOnly start (pages ++ [⟨db, limit, channels, more⟩])
      (rows ++ page Channel.name db.channels.rows (inDirectory publicOnly)
        (cursorAfter Channel.name start rows) (limit.getD 20)) := by
  obtain ⟨-, hchannels, -⟩ := readChannelDirectoryWindow_ok.mp hread
  dsimp only at hchannels
  rw [h.cursor, Relational.window_rows] at hchannels
  refine ⟨?_, ?_, ?_⟩
  · rw [listed_snoc, h.names, hchannels, List.map_append, List.map_map]
    rfl
  · rw [List.map_append]
    exact h.tours.page db.channels.nodup _
  · intro p hp entry hentry
    rcases List.mem_append.mp hp with hp | hp
    · exact h.sound p hp entry hentry
    · obtain rfl := List.mem_singleton.mp hp
      rw [hchannels] at hentry
      obtain ⟨row, hrow, rfl⟩ := List.mem_map.mp hentry
      have hahead := Relational.ahead_of_mem_page hrow
      exact ⟨row, hahead.mem, hahead.selected, rfl, (h.tours.beyond_cursor hahead.beyond).2⟩

theorem Browses.browsed {w : World} (h : Browses publicOnly start pages w) :
    ∃ rows, Browsed publicOnly start pages rows := by
  induction h with
  | start w => exact ⟨[], rfl, Relational.tours_nil, fun p hp => absurd hp List.not_mem_nil⟩
  | next browsed answered ih =>
      obtain ⟨rows, hrows⟩ := ih
      obtain ⟨snapshot, -, hdone⟩ := Program.answers_step.mp answered
      obtain ⟨hread, rfl⟩ := Program.answers_done.mp hdone
      exact ⟨_, hrows.next _ _ _ _ hread.symm⟩

/-- The last page of a client. -/
theorem Browses.last {w : World} {front : List DirectoryPage} {p : DirectoryPage}
    (h : Browses publicOnly start (front ++ [p]) w) :
    ∃ rows, Browsed publicOnly start front rows
      ∧ readChannelDirectoryWindow p.snapshot
          ⟨(listedNames front).getLast?.or start, p.limit, publicOnly⟩
        = .ok (p.channels, p.hasMore) := by
  generalize hpages : front ++ [p] = pages at h
  cases h with
  | start w => exact absurd hpages (by simp)
  | @next pages w w' limit channels more browsed answered =>
      obtain ⟨rfl, hp⟩ := List.append_inj' hpages rfl
      obtain rfl := List.singleton_inj.mp hp
      obtain ⟨rows, hrows⟩ := browsed.browsed
      obtain ⟨snapshot, -, hdone⟩ := Program.answers_step.mp answered
      obtain ⟨hread, rfl⟩ := Program.answers_done.mp hdone
      exact ⟨rows, hrows, hread.symm⟩

omit [Sha256] in
theorem selected_iff {db : Database} {name : String} :
    Selected Channel.name (db.channels.rows, inDirectory publicOnly) name
      ↔ VisibleIn publicOnly db name := Iff.rfl

/-- **Paging through the directory** while anything happens to the store. -/
theorem directory_paging {w : World} (h : Browses publicOnly start pages w) :
    BrowsedExactly publicOnly start pages := by
  obtain ⟨rows, hrows⟩ := h.browsed
  have hselected : ∀ {name : String} {pages : List DirectoryPage},
      (∀ p ∈ pages, VisibleIn publicOnly p.snapshot name) →
      ∀ s ∈ pages.map (fun p => (p.snapshot.channels.rows, inDirectory publicOnly)),
        Selected Channel.name s name := by
    intro name pages hvisible s hs
    obtain ⟨p, hp, rfl⟩ := List.mem_map.mp hs
    exact selected_iff.mpr (hvisible p hp)
  refine ⟨?_, hrows.sound, ?_, ?_, ?_, ?_⟩
  · rw [hrows.names]
    exact List.pairwise_map.mpr hrows.tours.increasing
  · intro name hvisible hstart hlast
    rw [hrows.names] at hlast ⊢
    obtain ⟨last, hlast, hle⟩ := hlast
    obtain ⟨row, hrow, rfl⟩ := List.mem_map.mp hlast
    obtain ⟨r, hr, heq⟩ := hrows.tours.noGap name (hselected hvisible) hstart ⟨row, hrow, hle⟩
    exact List.mem_map.mpr ⟨r, hr, heq⟩
  · intro front p hpages
    subst hpages
    obtain ⟨before, hbefore, hread⟩ := h.last
    obtain ⟨-, hchannels, hmore⟩ := readChannelDirectoryWindow_ok.mp hread
    dsimp only at hchannels hmore
    rw [hbefore.cursor] at hchannels hmore
    rw [hmore, Relational.window_more_iff p.snapshot.channels.nodup]
    have hnext := hbefore.next p.snapshot p.limit p.channels p.hasMore hread
    constructor
    · rintro ⟨row, hahead, hnot⟩
      obtain ⟨hgiven, hstart⟩ := hbefore.tours.beyond_cursor hahead.beyond
      refine ⟨row.name, ⟨row, hahead.mem, hahead.selected, rfl⟩, hstart, ?_⟩
      rw [hnext.names]
      intro given hmem
      obtain ⟨r, hr, rfl⟩ := List.mem_map.mp hmem
      rcases List.mem_append.mp hr with hr | hr
      · exact hgiven r hr
      · -- a row that is not on the page comes after the rows that are
        by_contra hle
        exact hnot (Relational.mem_page_of_le p.snapshot.channels.nodup hahead hr (not_lt.mp hle))
    · rintro ⟨name, ⟨row, hrow, hvisible, rfl⟩, hstart, hgiven⟩
      rw [hnext.names] at hgiven
      refine ⟨row, ⟨hrow, hvisible, fun c hc => ?_⟩, fun hmem => ?_⟩
      · rw [← hbefore.cursor] at hc
        cases hlast : (listedNames front).getLast? with
        | none =>
            rw [hlast] at hc
            exact hstart c hc
        | some last =>
            rw [hlast] at hc
            obtain rfl := Option.some.inj hc
            refine hgiven last ?_
            have hmem := List.mem_of_getLast? hlast
            rw [hbefore.names] at hmem
            rw [List.map_append]
            exact List.mem_append_left _ hmem
      · exact lt_irrefl _ (hgiven _ (List.mem_map_of_mem (List.mem_append_right _ hmem)))
  · intro front p hpages hmore name hvisible hstart
    subst hpages
    obtain ⟨before, hbefore, hread⟩ := h.last
    obtain ⟨-, hchannels, hwindow⟩ := readChannelDirectoryWindow_ok.mp hread
    dsimp only at hchannels hwindow
    rw [hbefore.cursor] at hwindow
    have hnext := hbefore.next p.snapshot p.limit p.channels p.hasMore hread
    rw [hwindow] at hmore
    have hall := hselected hvisible
    rw [List.map_append] at hall
    obtain ⟨r, hr, rfl⟩ :=
      hbefore.tours.complete p.snapshot.channels.nodup hmore hall hstart
    rw [hnext.names]
    exact List.mem_map_of_mem hr
  · intro hnames hstart db limit hone hmax
    refine ⟨_, readChannelDirectoryWindow_ok.mpr ⟨⟨?_, hone, hmax⟩, rfl, rfl⟩⟩
    dsimp only
    cases hlast : (listedNames pages).getLast? with
    | none =>
        rw [Option.none_or]
        exact hstart
    | some last =>
        rw [Option.some_or]
        intro hempty
        obtain rfl := Option.some.inj hempty
        obtain ⟨entry, hentry, hname⟩ := List.mem_map.mp (List.mem_of_getLast? hlast)
        obtain ⟨p, hp, hentry⟩ := List.mem_flatMap.mp hentry
        obtain ⟨row, hrow, -, rfl, -⟩ := hrows.sound p hp entry hentry
        exact hnames p hp row hrow hname

end

end Browsing

section Sample

attribute [local instance] sampleSha256

private def createPublic (name : String) : Action := ⟨0, .channel (.create name "public" none)⟩

private def twoChannels : Database := stateAfter [createPublic "alpha", createPublic "gamma"]

private def threeChannels : Database :=
  Transition.run Action.step twoChannels [createPublic "beta"]

private def summary (name : String) : ChannelSummary := ⟨name, 0, 0, "public", "active", 0, 0, none⟩

/-- A channel that is created ahead of the cursor is met. -/
theorem directory_while_created :
    BrowsedExactly true none [⟨twoChannels, some 1, [summary "alpha"], true⟩,
      ⟨threeChannels, none, [summary "beta", summary "gamma"], false⟩] :=
  directory_paging
    (@Browses.next _ true none [⟨twoChannels, some 1, [summary "alpha"], true⟩] ⟨twoChannels, 0⟩
      ⟨threeChannels, 0⟩ none [summary "beta", summary "gamma"] false
      (@Browses.next _ true none [] ⟨Database.initial, 0⟩ ⟨twoChannels, 0⟩ (some 1)
        [summary "alpha"] true (.start _)
        (Program.answers_step.mpr ⟨⟨twoChannels, 0⟩, ⟨_, rfl⟩,
          Program.answers_done.mpr ⟨by decide +kernel, rfl⟩⟩))
      (Program.answers_step.mpr ⟨⟨threeChannels, 0⟩, ⟨[createPublic "beta"], rfl⟩,
        Program.answers_done.mpr ⟨by decide +kernel, rfl⟩⟩))

end Sample

end Blackboard
