import Blackboard.Lib.Table

/-!
# Pages of a table

A client reads a table page by page: each page holds the first few selected rows ahead of
a cursor, and the last row of a page is the cursor for the next one. A row's rank says
where it stands: an id, a name, or minus the id for a client that goes down a table.

`Covers` says that a client has been given, in order and once each, the selected rows up
to the last one it was given. A page read from the cursor keeps it (`Covers.page`). The
rest is about what may happen to the table in between: rows come in under larger ids
(`Table.Extends`), which a client that goes up meets later and one that goes down never.
-/

namespace Relational

section Page

variable {ρ κ : Type} [LinearOrder κ]

/-- `WHERE p AND rank > cursor ORDER BY rank LIMIT limit`. -/
def page (rank : ρ → κ) (rows : List ρ) (p : ρ → Bool) (cursor : Option κ) (limit : Nat) :
    List ρ :=
  (orderBy (fun a b => rank a ≤ rank b)
    (rows.filter fun r => p r && cursor.all fun c => decide (c < rank r))).take limit

/-- A selected row the cursor has not passed. -/
structure Ahead (rank : ρ → κ) (rows : List ρ) (p : ρ → Bool) (cursor : Option κ) (r : ρ) :
    Prop where
  mem : r ∈ rows
  selected : p r = true
  beyond : ∀ c, cursor = some c → c < rank r

variable {rank : ρ → κ} {rows rows' : List ρ} {p : ρ → Bool} {cursor start : Option κ}
  {limit : Nat}

theorem mem_ahead {r : ρ} :
    r ∈ rows.filter (fun r => p r && cursor.all fun c => decide (c < rank r))
      ↔ Ahead rank rows p cursor r := by
  rw [List.mem_filter, Bool.and_eq_true, Option.all_eq_true]
  constructor
  · intro h
    exact ⟨h.1, h.2.1, fun c hc => of_decide_eq_true (h.2.2 c hc)⟩
  · intro h
    exact ⟨h.mem, h.selected, fun c hc => decide_eq_true (h.beyond c hc)⟩

/-- Ranks that occur once put the selected rows into one order. -/
theorem ahead_increasing (hn : (rows.map rank).Nodup) :
    (orderBy (fun a b => rank a ≤ rank b)
      (rows.filter fun r => p r && cursor.all fun c => decide (c < rank r))).Pairwise
        fun a b => rank a < rank b := by
  have hle := List.pairwise_insertionSort (fun a b => rank a ≤ rank b)
    (rows.filter fun r => p r && cursor.all fun c => decide (c < rank r))
  have hne : (orderBy (fun a b => rank a ≤ rank b)
      (rows.filter fun r => p r && cursor.all fun c => decide (c < rank r))).Pairwise
        fun a b => rank a ≠ rank b := by
    have hperm := List.perm_insertionSort (fun a b : ρ => rank a ≤ rank b)
      (rows.filter fun r => p r && cursor.all fun c => decide (c < rank r))
    have hsub := (List.filter_sublist (l := rows)
      (p := fun r => p r && cursor.all fun c => decide (c < rank r))).map rank
    exact List.pairwise_map.mp ((hperm.map rank).nodup_iff.mpr (hn.sublist hsub))
  exact hle.imp₂ (fun a b hab hne => lt_of_le_of_ne hab hne) hne

theorem page_increasing (hn : (rows.map rank).Nodup) :
    (page rank rows p cursor limit).Pairwise fun a b => rank a < rank b :=
  (ahead_increasing hn).sublist (List.take_sublist _ _)

theorem ahead_of_mem_page {r : ρ} (h : r ∈ page rank rows p cursor limit) :
    Ahead rank rows p cursor r :=
  mem_ahead.mp (mem_orderBy.mp (List.mem_of_mem_take h))

/-- A page has every row ahead that does not come after one of its own. -/
theorem mem_page_of_le (hn : (rows.map rank).Nodup) {r last : ρ}
    (hr : Ahead rank rows p cursor r) (hlast : last ∈ page rank rows p cursor limit)
    (hle : rank r ≤ rank last) : r ∈ page rank rows p cursor limit := by
  have hsorted : (orderBy (fun a b => rank a ≤ rank b)
      (rows.filter fun r => p r && cursor.all fun c => decide (c < rank r))).Pairwise
        fun a b => rank a < rank b := ahead_increasing hn
  have hmem : r ∈ orderBy (fun a b => rank a ≤ rank b)
      (rows.filter fun r => p r && cursor.all fun c => decide (c < rank r)) :=
    mem_orderBy.mpr (mem_ahead.mpr hr)
  rw [← List.take_append_drop limit (orderBy _ _)] at hsorted hmem
  rcases List.mem_append.mp hmem with htake | hdrop
  · exact htake
  · -- what was cut off comes after everything on the page
    have hlt := (List.pairwise_append.mp hsorted).2.2 last hlast r hdrop
    exact absurd hlt (not_lt_of_ge hle)

/-- A page that is not full has every row ahead. -/
theorem mem_page_of_not_full (h : (page rank rows p cursor limit).length < limit) {r : ρ}
    (hr : Ahead rank rows p cursor r) : r ∈ page rank rows p cursor limit := by
  unfold page at h ⊢
  rw [List.length_take] at h
  rw [List.take_of_length_le (by omega)]
  exact mem_orderBy.mpr (mem_ahead.mpr hr)

/-- Tables that agree on the rows ahead have the same pages. -/
theorem page_congr (hn : (rows.map rank).Nodup) (hn' : (rows'.map rank).Nodup)
    (h : ∀ r, Ahead rank rows p cursor r ↔ Ahead rank rows' p cursor r) :
    page rank rows p cursor limit = page rank rows' p cursor limit := by
  unfold page
  congr 1
  have hirrefl : Std.Irrefl fun a b : ρ => rank a < rank b := ⟨fun a => lt_irrefl (rank a)⟩
  have hasymm : Std.Asymm fun a b : ρ => rank a < rank b := ⟨fun a b => lt_asymm⟩
  refine List.Pairwise.eq_of_mem_iff (ahead_increasing hn) (ahead_increasing hn') fun r => ?_
  rw [mem_orderBy, mem_orderBy, mem_ahead, mem_ahead]
  exact h r

/-! ## What a client has been given -/

/-- Where a client stands that has been given these rows. -/
def cursorAfter (rank : ρ → κ) (start : Option κ) (given : List ρ) : Option κ :=
  (given.getLast?.map rank).or start

/-- The client was given the selected rows from its start to the last one it was given, each once
and in order. -/
structure Covers (rank : ρ → κ) (rows : List ρ) (p : ρ → Bool) (start : Option κ)
    (given : List ρ) : Prop where
  increasing : given.Pairwise fun a b => rank a < rank b
  exact : ∀ r, r ∈ given
    ↔ Ahead rank rows p start r ∧ ∃ last, given.getLast? = some last ∧ rank r ≤ rank last

theorem covers_nil : Covers rank rows p start [] :=
  ⟨List.Pairwise.nil, fun r => by simp⟩

theorem Covers.le_last {given : List ρ} (h : Covers rank rows p start given) {r last : ρ}
    (hr : r ∈ given) (hlast : given.getLast? = some last) : rank r ≤ rank last := by
  obtain ⟨-, last', hlast', hle⟩ := (h.exact r).mp hr
  rw [hlast, Option.some.injEq] at hlast'
  rw [hlast']
  exact hle

/-- What is ahead of the client is what was ahead of its start and it has not been given. -/
theorem Covers.ahead_iff {given : List ρ} (h : Covers rank rows p start given) {r : ρ} :
    Ahead rank rows p (cursorAfter rank start given) r
      ↔ Ahead rank rows p start r ∧ r ∉ given := by
  unfold cursorAfter
  cases hlast : given.getLast? with
  | none =>
      rw [List.getLast?_eq_none_iff] at hlast
      subst hlast
      simp
  | some last =>
      rw [Option.map_some, Option.some_or]
      have hmem := List.mem_of_getLast? hlast
      have hahead := ((h.exact last).mp hmem).1
      constructor
      · intro hr
        have hlt := hr.beyond _ rfl
        refine ⟨⟨hr.mem, hr.selected, fun c hc => ?_⟩, fun hgiven => ?_⟩
        · exact (hahead.beyond c hc).trans hlt
        · have hle := h.le_last hgiven hlast
          exact absurd hlt (not_lt_of_ge hle)
      · intro hr
        refine ⟨hr.1.mem, hr.1.selected, fun c hc => ?_⟩
        obtain rfl := Option.some.inj hc
        by_contra hnot
        exact hr.2 ((h.exact r).mpr ⟨hr.1, last, hlast, not_lt.mp hnot⟩)

/-- **Page rule.** The page at its cursor continues what a client was given. -/
theorem Covers.page {given : List ρ} (h : Covers rank rows p start given)
    (hn : (rows.map rank).Nodup) (limit : Nat) :
    Covers rank rows p start
      (given ++ page rank rows p (cursorAfter rank start given) limit) := by
  have hafter : ∀ a ∈ given,
      ∀ b ∈ Relational.page rank rows p (cursorAfter rank start given) limit, rank a < rank b := by
    intro a ha b hb
    obtain ⟨-, last, hlast, hle⟩ := (h.exact a).mp ha
    have hbeyond := (ahead_of_mem_page hb).beyond (rank last) (by simp [cursorAfter, hlast])
    exact lt_of_le_of_lt hle hbeyond
  refine ⟨List.pairwise_append.mpr ⟨h.increasing, page_increasing hn, hafter⟩, fun r => ?_⟩
  rw [List.mem_append, List.getLast?_append]
  constructor
  · intro hr
    rcases hr with hold | hnew
    · obtain ⟨hahead, last, hlast, hle⟩ := (h.exact r).mp hold
      refine ⟨hahead, ?_⟩
      cases hpage : (Relational.page rank rows p (cursorAfter rank start given) limit).getLast? with
      | none => exact ⟨last, by rw [hlast]; rfl, hle⟩
      | some last' =>
          have hlt := hafter r hold last' (List.mem_of_getLast? hpage)
          exact ⟨last', rfl, hlt.le⟩
    · refine ⟨(h.ahead_iff.mp (ahead_of_mem_page hnew)).1, ?_⟩
      cases hpage : (Relational.page rank rows p (cursorAfter rank start given) limit).getLast? with
      | none =>
          rw [List.getLast?_eq_none_iff] at hpage
          rw [hpage] at hnew
          exact absurd hnew List.not_mem_nil
      | some last' =>
          refine ⟨last', rfl, ?_⟩
          rcases List.getLast?_eq_some_iff.mp hpage with ⟨front, hfront⟩
          have hsorted : (Relational.page rank rows p (cursorAfter rank start given)
              limit).Pairwise fun a b => rank a < rank b := page_increasing hn
          rw [hfront] at hnew hsorted
          rcases List.mem_append.mp hnew with hfst | hlst
          · exact ((List.pairwise_append.mp hsorted).2.2 r hfst last' List.mem_cons_self).le
          · rw [List.mem_singleton.mp hlst]
  · intro hr
    obtain ⟨hahead, last, hlast, hle⟩ := hr
    by_cases hgiven : r ∈ given
    · exact Or.inl hgiven
    · refine Or.inr ?_
      have hr' := h.ahead_iff.mpr ⟨hahead, hgiven⟩
      cases hpage : (Relational.page rank rows p (cursorAfter rank start given) limit).getLast? with
      | none =>
          rw [hpage, Option.none_or] at hlast
          exact absurd ((h.exact r).mpr ⟨hahead, last, hlast, hle⟩) hgiven
      | some last' =>
          rw [hpage, Option.some_or, Option.some.injEq] at hlast
          subst hlast
          exact mem_page_of_le hn hr' (List.mem_of_getLast? hpage) hle

/-- The same rows up to the last one given: what was given covers this table as well. -/
theorem Covers.of_agree {given : List ρ} (h : Covers rank rows p start given)
    (hagree : ∀ r, ∀ last, given.getLast? = some last → rank r ≤ rank last →
      (r ∈ rows ↔ r ∈ rows')) : Covers rank rows' p start given := by
  refine ⟨h.increasing, fun r => (h.exact r).trans ?_⟩
  constructor
  · intro hr
    obtain ⟨hahead, last, hlast, hle⟩ := hr
    exact ⟨⟨(hagree r last hlast hle).mp hahead.mem, hahead.selected, hahead.beyond⟩,
      last, hlast, hle⟩
  · intro hr
    obtain ⟨hahead, last, hlast, hle⟩ := hr
    exact ⟨⟨(hagree r last hlast hle).mpr hahead.mem, hahead.selected, hahead.beyond⟩,
      last, hlast, hle⟩

/-- A client was given no more rows than there are to give. -/
theorem Covers.length_le {given : List ρ} (h : Covers rank rows p start given) :
    given.length ≤ (rows.filter p).length := by
  have hnodup : given.Nodup := h.increasing.imp fun hab heq => by
    rw [heq] at hab
    exact lt_irrefl _ hab
  have hsub : given ⊆ rows.filter p := by
    intro r hr
    have hahead := ((h.exact r).mp hr).1
    exact List.mem_filter.mpr ⟨hahead.mem, hahead.selected⟩
  exact (List.subperm_of_subset hnodup hsub).length_le

/-! ## Windows -/

/-- A page and whether there is more: one row is fetched beyond the page to tell. -/
def window (rank : ρ → κ) (rows : List ρ) (p : ρ → Bool) (cursor : Option κ) (limit : Nat) :
    List ρ × Bool :=
  let fetched := page rank rows p cursor (limit + 1)
  (fetched.take limit, decide (fetched.length > limit))

theorem window_rows : (window rank rows p cursor limit).1 = page rank rows p cursor limit := by
  show (page rank rows p cursor (limit + 1)).take limit = _
  unfold page
  rw [List.take_take, Nat.min_eq_left (Nat.le_succ limit)]

/-- **`has_more`** is exact: it says whether a row ahead is not on the page. -/
theorem window_more_iff (hn : (rows.map rank).Nodup) :
    (window rank rows p cursor limit).2 = true
      ↔ ∃ r, Ahead rank rows p cursor r ∧ r ∉ page rank rows p cursor limit := by
  have hmore : (window rank rows p cursor limit).2
      = decide ((page rank rows p cursor (limit + 1)).length > limit) := rfl
  have hpage : (page rank rows p cursor (limit + 1)).take limit = page rank rows p cursor limit :=
    window_rows
  rw [hmore, decide_eq_true_eq]
  constructor
  · intro hlen
    -- the row fetched beyond the page comes after every row of it
    refine ⟨(page rank rows p cursor (limit + 1))[limit], ?_, ?_⟩
    · exact ahead_of_mem_page (List.getElem_mem hlen)
    · intro hmem
      rw [← hpage] at hmem
      have hsorted : (page rank rows p cursor (limit + 1)).Pairwise fun a b => rank a < rank b :=
        page_increasing hn
      obtain ⟨i, hi, heq⟩ := List.mem_take_iff_getElem.mp hmem
      have hlt := List.pairwise_iff_getElem.mp hsorted i limit (by omega) hlen (by omega)
      rw [heq] at hlt
      exact lt_irrefl _ hlt
  · rintro ⟨r, hahead, hnot⟩
    by_contra hle
    have hfull : page rank rows p cursor limit = page rank rows p cursor (limit + 1) := by
      rw [← hpage]
      exact List.take_of_length_le (by omega)
    rw [hfull] at hnot
    exact hnot (mem_page_of_not_full (by omega) hahead)

/-- A client that follows the cursor through a table, window by window, until one says that there
is no more: the rows it was given, what the last window said, and the number of windows. -/
inductive Follows (rank : ρ → κ) (rows : List ρ) (p : ρ → Bool) (start : Option κ) :
    List ρ → Bool → Nat → Prop
  | start : Follows rank rows p start [] true 0
  | next {given : List ρ} {windows limit : Nat}
      (followed : Follows rank rows p start given true windows) (positive : 0 < limit) :
      Follows rank rows p start
        (given ++ (window rank rows p (cursorAfter rank start given) limit).1)
        (window rank rows p (cursorAfter rank start given) limit).2 (windows + 1)

namespace Follows

variable {given : List ρ} {more : Bool} {windows : Nat}

theorem covers (h : Follows rank rows p start given more windows) (hn : (rows.map rank).Nodup) :
    Covers rank rows p start given := by
  induction h with
  | start => exact covers_nil
  | next followed positive ih =>
      rw [window_rows]
      exact ih.page hn _

/-- There is more as long as a row has not been given. -/
theorem more_iff (h : Follows rank rows p start given more windows) (hn : (rows.map rank).Nodup)
    (hwindows : 0 < windows) : more = true ↔ ∃ r, Ahead rank rows p start r ∧ r ∉ given := by
  cases h with
  | start => exact absurd hwindows (Nat.lt_irrefl 0)
  | next followed positive =>
      rw [window_more_iff hn, window_rows]
      constructor
      · rintro ⟨r, hahead, hnot⟩
        obtain ⟨hstart, hgiven⟩ := (followed.covers hn).ahead_iff.mp hahead
        exact ⟨r, hstart, fun hmem => (List.mem_append.mp hmem).elim hgiven hnot⟩
      · rintro ⟨r, hstart, hnot⟩
        rw [List.mem_append, not_or] at hnot
        exact ⟨r, (followed.covers hn).ahead_iff.mpr ⟨hstart, hnot.1⟩, hnot.2⟩

/-- Every window but the last one has rows on it. -/
theorem windows_le (h : Follows rank rows p start given more windows)
    (hn : (rows.map rank).Nodup) : windows ≤ given.length + if more then 0 else 1 := by
  induction h with
  | start => simp
  | @next given windows limit followed positive ih =>
      rw [if_pos rfl, Nat.add_zero] at ih
      rw [List.length_append, window_rows]
      split
      · rename_i hmore
        obtain ⟨r, hahead, hnot⟩ := (window_more_iff hn).mp hmore
        have hfull : ¬ (page rank rows p (cursorAfter rank start given) limit).length < limit :=
          fun hlt => hnot (mem_page_of_not_full hlt hahead)
        omega
      · omega

end Follows

/-! ## Tables that change -/

/-- A row of this rank is selected. -/
def Selected (rank : ρ → κ) (snapshot : List ρ × (ρ → Bool)) (k : κ) : Prop :=
  ∃ r ∈ snapshot.1, snapshot.2 r = true ∧ rank r = k

/-- What a client was given that read every page from another state of the table: the ranks go up,
and no rank was skipped that was selected whenever a page was read. -/
structure Tours (rank : ρ → κ) (snapshots : List (List ρ × (ρ → Bool))) (start : Option κ)
    (given : List ρ) : Prop where
  increasing : given.Pairwise fun a b => rank a < rank b
  beyond : ∀ r ∈ given, ∀ c, start = some c → c < rank r
  noGap : ∀ k, (∀ s ∈ snapshots, Selected rank s k) → (∀ c, start = some c → c < k) →
    (∃ last ∈ given, k ≤ rank last) → ∃ r ∈ given, rank r = k

theorem tours_nil : Tours rank [] start [] where
  increasing := List.Pairwise.nil
  beyond _ hr := absurd hr List.not_mem_nil
  noGap _ _ _ hlast := by
    obtain ⟨last, hlast, -⟩ := hlast
    exact absurd hlast List.not_mem_nil

namespace Tours

variable {snapshots : List (List ρ × (ρ → Bool))} {given : List ρ}

/-- What comes after the cursor comes after everything given, and after the start. -/
theorem beyond_cursor (h : Tours rank snapshots start given) {k : κ}
    (hk : ∀ c, cursorAfter rank start given = some c → c < k) :
    (∀ r ∈ given, rank r < k) ∧ ∀ c, start = some c → c < k := by
  unfold cursorAfter at hk
  cases hlast : given.getLast? with
  | none =>
      rw [List.getLast?_eq_none_iff] at hlast
      subst hlast
      exact ⟨fun r hr => absurd hr List.not_mem_nil, fun c hc => hk c (by simpa using hc)⟩
  | some last =>
      have hlt : rank last < k := hk _ (by rw [hlast]; rfl)
      have hle : ∀ r ∈ given, rank r ≤ rank last := by
        obtain ⟨front, rfl⟩ := List.getLast?_eq_some_iff.mp hlast
        intro r hr
        rcases List.mem_append.mp hr with hfront | hr
        · exact ((List.pairwise_append.mp h.increasing).2.2 r hfront last List.mem_cons_self).le
        · rw [List.mem_singleton.mp hr]
      refine ⟨fun r hr => lt_of_le_of_lt (hle r hr) hlt, fun c hc => ?_⟩
      exact (h.beyond last (List.mem_of_getLast? hlast) c hc).trans hlt

/-- What is selected throughout and has not been given is ahead. -/
theorem ahead_of_not_given (h : Tours rank snapshots start given) {k : κ}
    (hselected : ∀ s ∈ snapshots, Selected rank s k) (hstart : ∀ c, start = some c → c < k)
    (hnot : ¬ ∃ r ∈ given, rank r = k) : ∀ c, cursorAfter rank start given = some c → c < k := by
  intro c hc
  by_contra hle
  unfold cursorAfter at hc
  cases hlast : given.getLast? with
  | none =>
      rw [hlast] at hc
      exact hle (hstart c hc)
  | some last =>
      rw [hlast] at hc
      obtain rfl := Option.some.inj hc
      exact hnot (h.noGap k hselected hstart
        ⟨last, List.mem_of_getLast? hlast, not_lt.mp hle⟩)

/-- **Page rule** for a table that changes: the next page, from whatever the table has become. -/
theorem page (h : Tours rank snapshots start given) (hn : (rows.map rank).Nodup) (limit : Nat) :
    Tours rank (snapshots ++ [(rows, p)]) start
      (given ++ Relational.page rank rows p (cursorAfter rank start given) limit) := by
  have hpage : ∀ b ∈ Relational.page rank rows p (cursorAfter rank start given) limit,
      (∀ r ∈ given, rank r < rank b) ∧ ∀ c, start = some c → c < rank b :=
    fun b hb => h.beyond_cursor (ahead_of_mem_page hb).beyond
  refine ⟨?_, ?_, ?_⟩
  · exact List.pairwise_append.mpr
      ⟨h.increasing, page_increasing hn, fun a ha b hb => (hpage b hb).1 a ha⟩
  · intro r hr
    rcases List.mem_append.mp hr with hr | hr
    · exact h.beyond r hr
    · exact (hpage r hr).2
  · intro k hselected hstart hlast
    have hbefore : ∀ s ∈ snapshots, Selected rank s k :=
      fun s hs => hselected s (List.mem_append_left _ hs)
    by_cases hgiven : ∃ r ∈ given, rank r = k
    · obtain ⟨r, hr, heq⟩ := hgiven
      exact ⟨r, List.mem_append_left _ hr, heq⟩
    · -- then it is ahead of the page, and not after a row of the page
      have hbeyond := h.ahead_of_not_given hbefore hstart hgiven
      obtain ⟨r, hmem, hp, rfl⟩ := hselected _ (List.mem_append_right _ List.mem_cons_self)
      obtain ⟨last, hlast, hle⟩ := hlast
      rcases List.mem_append.mp hlast with hold | hnew
      · exact absurd ((h.beyond_cursor hbeyond).1 last hold) (not_lt_of_ge hle)
      · exact ⟨r, List.mem_append_right _ (mem_page_of_le hn ⟨hmem, hp, hbeyond⟩ hnew hle), rfl⟩

/-- When the last page says that there is no more, whatever was selected throughout was given. -/
theorem complete (h : Tours rank snapshots start given) (hn : (rows.map rank).Nodup) {limit : Nat}
    (hmore : (window rank rows p (cursorAfter rank start given) limit).2 = false) {k : κ}
    (hselected : ∀ s ∈ snapshots ++ [(rows, p)], Selected rank s k)
    (hstart : ∀ c, start = some c → c < k) :
    ∃ r ∈ given ++ Relational.page rank rows p (cursorAfter rank start given) limit,
      rank r = k := by
  by_cases hgiven : ∃ r ∈ given, rank r = k
  · obtain ⟨r, hr, heq⟩ := hgiven
    exact ⟨r, List.mem_append_left _ hr, heq⟩
  · have hbeyond := h.ahead_of_not_given
      (fun s hs => hselected s (List.mem_append_left _ hs)) hstart hgiven
    obtain ⟨r, hmem, hp, rfl⟩ := hselected _ (List.mem_append_right _ List.mem_cons_self)
    refine ⟨r, List.mem_append_right _ ?_, rfl⟩
    by_contra hnot
    have htrue := (window_more_iff hn).mpr ⟨r, ⟨hmem, hp, hbeyond⟩, hnot⟩
    rw [hmore] at htrue
    exact absurd htrue (by simp)

end Tours

end Page

/-! ## Tables that grow -/

namespace Table

variable {ρ : Type} {key : ρ → Int}

/-- Every row is still there as it was, and the new ones came in under larger ids. -/
structure Extends (t t' : Table key) : Prop where
  kept : ∀ r ∈ t, r ∈ t'
  larger : ∀ r ∈ t', r ∈ t ∨ ∀ s ∈ t, key s < key r

theorem Extends.refl (t : Table key) : Extends t t := ⟨fun _ h => h, fun _ h => Or.inl h⟩

theorem Extends.of_eq {t t' : Table key} (h : t' = t) : Extends t t' := h ▸ Extends.refl t

theorem Extends.trans {t₁ t₂ t₃ : Table key} (h : Extends t₁ t₂) (h' : Extends t₂ t₃) :
    Extends t₁ t₃ := by
  refine ⟨fun r hr => h'.kept r (h.kept r hr), fun r hr => ?_⟩
  rcases h'.larger r hr with hr₂ | hnew
  · exact h.larger r hr₂
  · exact Or.inr fun s hs => hnew s (h.kept s hs)

theorem extends_append (t : Table key) (mk : Int → ρ) (hmk : ∀ i, key (mk i) = i) :
    Extends t (t.append mk hmk) := by
  refine ⟨fun r hr => mem_append.mpr (Or.inl hr), fun r hr => ?_⟩
  rcases mem_append.mp hr with hr | rfl
  · exact Or.inl hr
  · refine Or.inr fun s hs => ?_
    rw [hmk]
    exact lt_nextId hs

/-- Up to a row that was there nothing has changed. -/
theorem Extends.mem_iff_of_le {t t' : Table key} (h : Extends t t') {r last : ρ} (hlast : last ∈ t)
    (hle : key r ≤ key last) : r ∈ t ↔ r ∈ t' := by
  refine ⟨h.kept r, fun hr => ?_⟩
  rcases h.larger r hr with hr | hnew
  · exact hr
  · have hlt := hnew last hlast
    omega

end Table

end Relational
