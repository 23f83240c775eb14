import QuizBackend.Lib.CursorOrder
import QuizBackend.Ranking.RankViews
import Mathlib.Data.Prod.Lex
import Mathlib.Data.String.Basic

/-!
# The leaderboard by cursor (`leaderboard.service.ts`, `leaderboard.repository.ts`)

A page of `getGlobalLeaderboardCursor` is a page of `getLeaderboardKeyset`, and its cursor is made of the
last entry. The repository selects the account's `createdAt` for it and leaves it out of the rows it
returns, so the service takes the time of the request instead. What comes next is then what is past that
time, among those with the XP of the last entry. The ranks of a page are ranks among the users past its
cursor.

Names and pictures are left out, and so are the user's own position and the number of participants, which
come from caches beside the page. All pages see the same tables, each at a time of its own.
-/

namespace QuizBackend.Ranking.CursorLeaderboard

open Lib
open Ranking.Recalculation (RankingPeriod RankedUser rankedAhead)
open Ranking.Leaderboard (Database participants getLeaderboard getTotalParticipants LeaderboardEntry
  transformLeaderboardEntries)
open Ranking.RankViews
open List (drop_length flatMap_cons flatMap_singleton length_append length_drop length_take map_cons
  map_map mem_of_getElem? range' range'_succ take_append_drop take_nil take_of_length_le)

/-! ## Pages -/

structure Cursor where
  xp : Int
  createdAt : Int
  userId : String

def pastCursor (c : Cursor) (u : String × Int × Int) : Bool :=
  u.2.1 < c.xp || (u.2.1 = c.xp && c.createdAt < u.2.2) ||
    (u.2.1 = c.xp && u.2.2 = c.createdAt && c.userId < u.1)

/-- `ORDER BY xp DESC, created_at ASC, user_id ASC`, as one descending key. -/
def keysetKey (u : String × Int × Int) : Int ×ₗ Int ×ₗ Stringᵒᵈ :=
  toLex (u.2.1, toLex (-u.2.2, OrderDual.toDual u.1))

section

variable (db : Database)

section

variable (period : RankingPeriod)

def keysetRows (cursor : Option Cursor) :
    List (String × Int × Int) :=
  (participants db period).filter fun u => cursor.all (pastCursor · u)

/-- `getLeaderboardKeyset`; without a cursor it is `getLeaderboardCursorFirstPage`. -/
def getLeaderboardKeyset (limit : Nat)
    (cursor : Option Cursor) : List RankedUser :=
  let rows := keysetRows db period cursor
  ((descending keysetKey rows).map (rankRow rows)).take limit

/-- `getGlobalLeaderboardCursor` at a time: the entries and the next cursor, if there is one. -/
def getGlobalLeaderboardCursor (limit : Nat)
    (cursor : Option Cursor) (now : Int) : List LeaderboardEntry × Option Cursor :=
  let entries := getLeaderboardKeyset db period limit cursor
  let nextCursor :=
    if entries.length = limit then
      entries.getLast?.map fun lastEntry => ⟨lastEntry.xp, now, lastEntry.userId⟩
    else none
  (transformLeaderboardEntries none entries, nextCursor)

/-- All entries of the pages, asked for at these times, when the last one has no more. -/
def listed (limit : Nat) (times : List Int) :
    Option (List LeaderboardEntry) :=
  follow (ε := Empty) (fun now (_ : Unit) cursor =>
    (.ok (getGlobalLeaderboardCursor db period limit cursor now), ())) times () none

/-! ## What the pages should list -/

/-- Every participant once, by XP and then by the age of the account, with the ranks of the full
leaderboard. -/
def Lists (items : List LeaderboardEntry) : Prop :=
  (∃ us : List (String × Int × Int), us.Perm (participants db period) ∧ us.Pairwise (fun u v => rankedAhead v u = false) ∧
      items.map (·.userId) = us.map (·.1)) ∧
    ∀ e ∈ items, ∃ r ∈ getLeaderboard db period (getTotalParticipants db period) 0,
      r.userId = e.userId ∧ r.rank = e.rank ∧ r.denseRank = e.denseRank

/-- There is one page; or all fit the first one and the request comes after the last account; or they
tie, every request that leaves some of them comes at the very time of all accounts, and one for a full last
page no earlier. -/
def Upheld (limit : Nat) (times : Nat → Int) : Prop :=
  (participants db period).length < limit ∨
    ((participants db period).length = limit ∧
      ∀ u ∈ participants db period, (∀ v ∈ participants db period, u.2.1 ≤ v.2.1) → u.2.2 ≤ times 0) ∨
    (limit < (participants db period).length ∧ ∃ xp createdAt,
      (∀ u ∈ participants db period, u.2 = (xp, createdAt)) ∧
      (∀ k, (k + 1) * limit < (participants db period).length → times k = createdAt) ∧
      (∀ k, (k + 1) * limit = (participants db period).length → createdAt ≤ times k))

end

end

/-! ## The order -/

variable {db : Database} {period : RankingPeriod} {limit : Nat}

variable {u border : String × Int × Int} {cursors : List (Option Cursor)} {k : Nat}

theorem keysetKey_lt_iff {v : String × Int × Int} :
    keysetKey v < keysetKey u ↔ rankedAhead u v ∨ u.2 = v.2 ∧ u.1 < v.1 := by
  rw [keysetKey, keysetKey, Prod.Lex.toLex_lt_toLex, rankedAhead_iff]
  simp only [Prod.Lex.toLex_lt_toLex, OrderDual.toDual_lt_toDual, Prod.ext_iff]
  constructor
  · rintro (h | ⟨hxp, h | ⟨htime, hid⟩⟩)
    · exact .inl (.inl h)
    · exact .inl (.inr ⟨hxp.symm, by omega⟩)
    · exact .inr ⟨⟨hxp.symm, by omega⟩, hid⟩
  · rintro ((h | ⟨hxp, htime⟩) | ⟨⟨hxp, htime⟩, hid⟩)
    · exact .inl h
    · exact .inr ⟨hxp.symm, .inl (by omega)⟩
    · exact .inr ⟨hxp.symm, .inr ⟨by omega, hid⟩⟩

theorem nodup_keys : ((participants db period).map keysetKey).Nodup := by
  refine List.Nodup.map ?_ participants_nodup
  intro u v h
  have hpair := toLex_inj.mp h
  have hrest := toLex_inj.mp (Prod.ext_iff.mp hpair).2
  obtain ⟨htime, hid⟩ := Prod.ext_iff.mp hrest
  exact Prod.ext (OrderDual.toDual_inj.mp hid) (Prod.ext (Prod.ext_iff.mp hpair).1 (neg_inj.mp htime))

def sorted (db : Database) (period : RankingPeriod) : List (String × Int × Int) :=
  descending keysetKey (participants db period)

theorem sorted_perm : (sorted db period).Perm (participants db period) := descending_perm _ _

theorem sorted_nodup : (sorted db period).Nodup := sorted_perm.nodup_iff.mpr participants_nodup

theorem mem_sorted : u ∈ sorted db period ↔ u ∈ participants db period :=
  sorted_perm.mem_iff

theorem pairwise_sorted :
    (sorted db period).Pairwise fun u v => rankedAhead u v ∨ u.2 = v.2 ∧ u.1 < v.1 :=
  (strict_descending nodup_keys).imp keysetKey_lt_iff.mp

theorem descending_keysetRows (cursor : Option Cursor) :
    descending keysetKey (keysetRows db period cursor) =
      (sorted db period).filter fun u => cursor.all (pastCursor · u) :=
  descending_filter nodup_keys _

/-! ## From page to page -/

def pageUsers (db : Database) (period : RankingPeriod) (limit : Nat) (cursor : Option Cursor) :
    List (String × Int × Int) :=
  ((sorted db period).filter fun u => cursor.all (pastCursor · u)).take limit

def pageEntries (db : Database) (period : RankingPeriod) (limit : Nat) (cursor : Option Cursor) :
    List LeaderboardEntry :=
  transformLeaderboardEntries none
    ((pageUsers db period limit cursor).map (rankRow (keysetRows db period cursor)))

def nextCursor (db : Database) (period : RankingPeriod) (limit : Nat) (cursor : Option Cursor)
    (now : Int) : Option Cursor :=
  if (pageUsers db period limit cursor).length = limit then
    (pageUsers db period limit cursor).getLast?.map fun u => ⟨u.2.1, now, u.1⟩
  else none

def visited (db : Database) (period : RankingPeriod) (limit : Nat) :
    List Int → Option Cursor → Option (List (Option Cursor))
  | [], _ => none
  | now :: times, cursor =>
    match nextCursor db period limit cursor now with
    | none => some [cursor]
    | some c => (visited db period limit times (some c)).map (cursor :: ·)

theorem getGlobalLeaderboardCursor_eq (cursor : Option Cursor) (now : Int) :
    getGlobalLeaderboardCursor db period limit cursor now =
      (pageEntries db period limit cursor, nextCursor db period limit cursor now) := by
  have hpage : getLeaderboardKeyset db period limit cursor =
      (pageUsers db period limit cursor).map (rankRow (keysetRows db period cursor)) := by
    rw [getLeaderboardKeyset, descending_keysetRows, pageUsers, List.map_take]
  rw [getGlobalLeaderboardCursor, hpage, pageEntries, nextCursor, List.length_map,
    List.getLast?_map, Option.map_map]
  rfl

theorem listed_from (times : List Int) (cursor : Option Cursor) :
    follow (ε := Empty) (fun now (_ : Unit) cursor =>
        (.ok (getGlobalLeaderboardCursor db period limit cursor now), ())) times () cursor =
      (visited db period limit times cursor).map (·.flatMap (pageEntries db period limit)) := by
  induction times generalizing cursor with
  | nil => rfl
  | cons now times ih =>
    rw [follow, visited, getGlobalLeaderboardCursor_eq]
    cases hnext : nextCursor db period limit cursor now with
    | none => simp
    | some c =>
      show Option.map _ (follow _ times () (some c)) = _
      rw [ih, Option.map_map, Option.map_map]
      rfl

theorem map_userId_transform (prev : Option Int) (entries : List RankedUser) :
    (transformLeaderboardEntries prev entries).map (fun e => (e.userId, e.rank, e.denseRank)) =
      entries.map fun r => (r.userId, r.rank, r.denseRank) := by
  induction entries generalizing prev with
  | nil => rfl
  | cons entry rest ih =>
    rw [transformLeaderboardEntries, map_cons, map_cons, ih]

/-! ## Lists of users -/

/-- What the pages should come to, in terms of users: the users of the pages are the participants in
order, and the ranks among those past a cursor are the ones among all. -/
structure Right (db : Database) (period : RankingPeriod) (limit : Nat)
    (cursors : List (Option Cursor)) : Prop where
  perm : (cursors.flatMap (pageUsers db period limit)).Perm (participants db period)
  ordered : (cursors.flatMap (pageUsers db period limit)).Pairwise fun u v => rankedAhead v u = false
  ranks : ∀ cursor ∈ cursors, ∀ u ∈ pageUsers db period limit cursor,
    (rankRow (keysetRows db period cursor) u).rank = (rankRow (participants db period) u).rank ∧
      (rankRow (keysetRows db period cursor) u).denseRank =
        (rankRow (participants db period) u).denseRank

theorem mem_of_mem_pageUsers {cursor : Option Cursor} (h : u ∈ pageUsers db period limit cursor) :
    u ∈ participants db period ∧ cursor.all (pastCursor · u) = true := by
  obtain ⟨hu, hpast⟩ := List.mem_filter.mp (List.mem_of_mem_take h)
  exact ⟨mem_sorted.mp hu, hpast⟩

theorem eq_of_map_fst_eq {us vs : List (String × Int × Int)}
    (hus : ∀ u ∈ us, u ∈ participants db period) (hvs : ∀ v ∈ vs, v ∈ participants db period)
    (h : us.map (·.1) = vs.map (·.1)) : us = vs := by
  rw [← targetUsers_map_fst fun u hu => mem_participants.mp (hus u hu), h,
    targetUsers_map_fst fun v hv => mem_participants.mp (hvs v hv)]

theorem map_pageEntries (cursor : Option Cursor) :
    (pageEntries db period limit cursor).map (fun e => (e.userId, e.rank, e.denseRank)) =
      (pageUsers db period limit cursor).map fun u =>
        (u.1, (rankRow (keysetRows db period cursor) u).rank,
          (rankRow (keysetRows db period cursor) u).denseRank) := by
  rw [pageEntries, map_userId_transform, map_map]
  rfl

theorem map_userId_flatMap (cursors : List (Option Cursor)) :
    (cursors.flatMap (pageEntries db period limit)).map (·.userId) =
      (cursors.flatMap (pageUsers db period limit)).map (·.1) := by
  rw [List.map_flatMap, List.map_flatMap]
  refine List.flatMap_congr fun cursor _ => ?_
  have hshown := congrArg (List.map Prod.fst) (@map_pageEntries db period limit cursor)
  rwa [map_map, map_map] at hshown

theorem mem_getLeaderboard {r : RankedUser} :
    r ∈ getLeaderboard db period (getTotalParticipants db period) 0 ↔
      ∃ u ∈ participants db period, rankRow (participants db period) u = r := by
  have hall : ((ordered db period).map (rankRow (participants db period))).length ≤
      getTotalParticipants db period := by
    rw [List.length_map, ordered_perm.length_eq]
    exact Nat.le_refl _
  rw [getLeaderboard_eq, List.drop_zero, take_of_length_le hall, List.mem_map]
  exact exists_congr fun u => and_congr_left fun _ => ordered_perm.mem_iff

theorem ranks_iff {cursor : Option Cursor} :
    (∀ e ∈ pageEntries db period limit cursor,
      ∃ r ∈ getLeaderboard db period (getTotalParticipants db period) 0,
        r.userId = e.userId ∧ r.rank = e.rank ∧ r.denseRank = e.denseRank) ↔
      ∀ u ∈ pageUsers db period limit cursor,
        (rankRow (keysetRows db period cursor) u).rank = (rankRow (participants db period) u).rank ∧
          (rankRow (keysetRows db period cursor) u).denseRank =
            (rankRow (participants db period) u).denseRank := by
  have hshown := @map_pageEntries db period limit cursor
  constructor
  · intro h u hu
    have hmem := List.mem_map_of_mem (f := fun u => (u.1, (rankRow (keysetRows db period cursor) u).rank,
      (rankRow (keysetRows db period cursor) u).denseRank)) hu
    rw [← hshown] at hmem
    obtain ⟨e, he, heq⟩ := List.mem_map.mp hmem
    obtain ⟨r, hr, hid, hrank, hdense⟩ := h e he
    obtain ⟨v, hv, rfl⟩ := mem_getLeaderboard.mp hr
    simp only [Prod.mk.injEq] at heq
    obtain rfl := eq_of_fst_eq hv (mem_of_mem_pageUsers hu).1 (hid.trans heq.1)
    exact ⟨heq.2.1.symm.trans hrank.symm, heq.2.2.symm.trans hdense.symm⟩
  · intro h e he
    have hmem := List.mem_map_of_mem (f := fun e : LeaderboardEntry => (e.userId, e.rank, e.denseRank)) he
    rw [hshown] at hmem
    obtain ⟨u, hu, heq⟩ := List.mem_map.mp hmem
    simp only [Prod.mk.injEq] at heq
    refine ⟨_, mem_getLeaderboard.mpr ⟨u, (mem_of_mem_pageUsers hu).1, rfl⟩, heq.1, ?_, ?_⟩
    · rw [← (h u hu).1, heq.2.1]
    · rw [← (h u hu).2, heq.2.2]

theorem lists_iff_right (cursors : List (Option Cursor)) :
    Lists db period (cursors.flatMap (pageEntries db period limit)) ↔ Right db period limit cursors := by
  have hall : ∀ u ∈ cursors.flatMap (pageUsers db period limit), u ∈ participants db period := by
    intro u hu
    obtain ⟨cursor, -, hu⟩ := List.mem_flatMap.mp hu
    exact (mem_of_mem_pageUsers hu).1
  constructor
  · rintro ⟨⟨us, hperm, hordered, hids⟩, hranks⟩
    rw [map_userId_flatMap] at hids
    obtain rfl := eq_of_map_fst_eq hall (fun u hu => hperm.mem_iff.mp hu) hids
    exact ⟨hperm, hordered, fun cursor hcursor => ranks_iff.mp fun e he =>
      hranks e (List.mem_flatMap.mpr ⟨cursor, hcursor, he⟩)⟩
  · rintro ⟨hperm, hordered, hranks⟩
    refine ⟨⟨_, hperm, hordered, map_userId_flatMap cursors⟩, ?_⟩
    intro e he
    obtain ⟨cursor, hcursor, he⟩ := List.mem_flatMap.mp he
    exact ranks_iff.mpr (hranks cursor hcursor) e he

/-! ## One page after the other -/

theorem pageUsers_none : pageUsers db period limit none = (sorted db period).take limit := by
  exact congrArg (List.take limit) (List.filter_eq_self.mpr fun _ _ => rfl)

theorem head_visited {times : List Int} {cursor : Option Cursor}
    (h : visited db period limit times cursor = some cursors) :
    ∃ others, cursors = cursor :: others := by
  cases times with
  | nil => cases h
  | cons now times =>
    rw [visited] at h
    cases hnext : nextCursor db period limit cursor now with
    | none =>
      rw [hnext, Option.some.injEq] at h
      exact ⟨[], h.symm⟩
    | some c =>
      rw [hnext] at h
      obtain ⟨others, -, h⟩ := Option.map_eq_some_iff.mp h
      exact ⟨others, h.symm⟩

section Steps

variable {cursor : Option Cursor} {m : Nat} {now : Int} {times : List Int}

theorem visited_last
    (hleft : (sorted db period).filter (fun u => cursor.all (pastCursor · u)) = (sorted db period).drop m)
    (hshort : (sorted db period).length < m + limit) (hm : m ≤ (sorted db period).length) :
    visited db period limit (now :: times) cursor = some [cursor] := by
  have hpage : (pageUsers db period limit cursor).length ≠ limit := by
    rw [pageUsers, hleft, length_take, length_drop]
    omega
  rw [visited, nextCursor, if_neg hpage]

theorem visited_more (hlimit : 0 < limit)
    (hleft : (sorted db period).filter (fun u => cursor.all (pastCursor · u)) = (sorted db period).drop m)
    (hlong : m + limit ≤ (sorted db period).length) :
    ∃ border, (sorted db period)[m + limit - 1]? = some border ∧
      visited db period limit (now :: times) cursor =
        (visited db period limit times (some ⟨border.2.1, now, border.1⟩)).map (cursor :: ·) := by
  have hlength : (pageUsers db period limit cursor).length = limit := by
    rw [pageUsers, hleft, length_take, length_drop]
    omega
  have hindex : m + limit - 1 < (sorted db period).length := by omega
  have hlast : (pageUsers db period limit cursor).getLast? = (sorted db period)[m + limit - 1]? := by
    rw [List.getLast?_eq_getElem?, hlength, pageUsers, hleft,
      List.getElem?_take_of_lt (Nat.sub_one_lt_of_lt hlimit), List.getElem?_drop]
    exact congrArg (fun i => (sorted db period)[i]?) (by omega)
  refine ⟨(sorted db period)[m + limit - 1], List.getElem?_eq_getElem hindex, ?_⟩
  rw [visited, nextCursor, if_pos hlength, hlast, List.getElem?_eq_getElem hindex]
  rfl

end Steps

theorem not_past_of_page_nil (hlimit : 0 < limit) {c : Cursor}
    (h : pageUsers db period limit (some c) = []) (hu : u ∈ participants db period) :
    pastCursor c u = false := by
  rcases List.take_eq_nil_iff.mp h with rfl | hnil
  · exact absurd hlimit (lt_irrefl 0)
  · exact Bool.eq_false_iff.mpr (List.filter_eq_nil_iff.mp hnil u (mem_sorted.mpr hu))

theorem last_sorted {b : String × Int × Int}
    (hb : (sorted db period)[(sorted db period).length - 1]? = some b)
    (hu : u ∈ participants db period) : u = b ∨ rankedAhead u b ∨ u.2 = b.2 ∧ u.1 < b.1 := by
  rw [← List.getLast?_eq_getElem?, List.getLast?_eq_some_iff] at hb
  obtain ⟨before, hb⟩ := hb
  have hmem := mem_sorted.mpr hu
  have hsorted : (sorted db period).Pairwise _ := pairwise_sorted
  rw [hb] at hmem hsorted
  rcases List.mem_append.mp hmem with hbefore | hlast
  · exact .inr ((List.pairwise_append.mp hsorted).2.2 u hbefore b (List.mem_singleton_self b))
  · exact .inl (List.mem_singleton.mp hlast)

/-! ## Everybody tied -/

section Tied

variable {xp createdAt : Int} (htied : ∀ u ∈ participants db period, u.2 = (xp, createdAt))

include htied

theorem past_tied {b : String × Int × Int} (hb : b ∈ participants db period)
    (hu : u ∈ participants db period) (now : Int) :
    pastCursor ⟨b.2.1, now, b.1⟩ u = true ↔ now < createdAt ∨ createdAt = now ∧ b.1 < u.1 := by
  simp only [pastCursor, htied b hb, htied u hu, lt_irrefl, decide_false, Bool.false_or, decide_true,
    Bool.true_and, Bool.or_eq_true, Bool.and_eq_true, decide_eq_true_eq]

theorem filter_tied (hlimit : 0 < limit)
    (hborder : (sorted db period)[k * limit + limit - 1]? = some border)
    (hlong : k * limit + limit < (sorted db period).length) :
    (sorted db period).filter (pastCursor ⟨border.2.1, createdAt, border.1⟩) =
      (sorted db period).drop (k * limit + limit) := by
  refine (bordersAgree_of_pairwise hlimit ?_ ?_ : BordersAgree pastCursor
    (fun u : String × Int × Int => ⟨u.2.1, createdAt, u.1⟩) limit (sorted db period))
    k hlong border hborder
  · intro u hu
    have hmem := mem_sorted.mp hu
    rw [← Bool.not_eq_true, past_tied htied hmem hmem]
    rintro (h | ⟨-, h⟩)
    · exact lt_irrefl _ h
    · exact lt_irrefl _ h
  · refine List.Pairwise.imp_of_mem ?_ pairwise_sorted
    intro u v hu hv hbefore
    have humem := mem_sorted.mp hu
    have hvmem := mem_sorted.mp hv
    have hids : u.1 < v.1 := by
      rcases hbefore with hahead | ⟨-, hid⟩
      · rw [rankedAhead_iff, htied u humem, htied v hvmem] at hahead
        omega
      · exact hid
    rw [← Bool.not_eq_true, past_tied htied humem hvmem, past_tied htied hvmem humem]
    refine ⟨.inr ⟨rfl, hids⟩, ?_⟩
    rintro (h | ⟨-, h⟩)
    · exact lt_irrefl _ h
    · exact lt_asymm hids h

theorem filter_tied_last {now : Int} (hnow : createdAt ≤ now)
    (hborder : (sorted db period)[(sorted db period).length - 1]? = some border) :
    (sorted db period).filter (pastCursor ⟨border.2.1, now, border.1⟩) = [] := by
  refine List.filter_eq_nil_iff.mpr fun u hu => ?_
  have hmem := mem_sorted.mp hu
  have hb := mem_sorted.mp (mem_of_getElem? hborder)
  rw [past_tied htied hb hmem]
  rintro (hlate | ⟨-, hid⟩)
  · omega
  · rcases last_sorted hborder hmem with rfl | hahead | ⟨-, hid'⟩
    · exact lt_irrefl _ hid
    · rw [rankedAhead_iff, htied u hmem, htied border hb] at hahead
      omega
    · exact lt_asymm hid hid'

/-- **With the time of all accounts at every border, the pages hold what is left.** -/
theorem exists_visited (hlimit : 0 < limit) {times : Nat → Int}
    (hon : ∀ k, (k + 1) * limit < (sorted db period).length → times k = createdAt)
    (hend : ∀ k, (k + 1) * limit = (sorted db period).length → createdAt ≤ times k) {n : Nat}
    {cursor : Option Cursor} (hn : (sorted db period).length ≤ k * limit + n)
    (hk : k * limit ≤ (sorted db period).length)
    (hleft : (sorted db period).filter (fun u => cursor.all (pastCursor · u)) = (sorted db period).drop (k * limit)) :
    ∃ cursors, visited db period limit ((range' k (n + 1)).map times) cursor = some cursors ∧
      cursors.flatMap (pageUsers db period limit) = (sorted db period).drop (k * limit) := by
  induction n generalizing k cursor with
  | zero =>
    rw [range'_succ, map_cons]
    refine ⟨[cursor], visited_last hleft (by omega) hk, ?_⟩
    rw [flatMap_singleton, pageUsers, hleft, List.drop_eq_nil_of_le (by omega)]
    exact take_nil
  | succ n ih =>
    rw [range'_succ, map_cons]
    by_cases hfull : k * limit + limit ≤ (sorted db period).length
    · obtain ⟨border, hborder, hvisited⟩ :=
        @visited_more db period limit cursor (k * limit) (times k)
          ((range' (k + 1) (n + 1)).map times) hlimit hleft hfull
      have hsucc : (k + 1) * limit = k * limit + limit := Nat.succ_mul k limit
      have hnext : (sorted db period).filter (fun u =>
          (some (⟨border.2.1, times k, border.1⟩ : Cursor)).all (pastCursor · u)) =
            (sorted db period).drop ((k + 1) * limit) := by
        rcases Nat.lt_or_eq_of_le hfull with hlong | hexact
        · rw [hon k (hsucc ▸ hlong), hsucc]
          exact filter_tied htied hlimit hborder hlong
        · rw [hexact] at hborder
          rw [hsucc, hexact, drop_length]
          exact filter_tied_last htied (hend k (hsucc ▸ hexact)) hborder
      obtain ⟨cursors, hcursors, hpages⟩ := ih (by omega) (by omega) hnext
      refine ⟨cursor :: cursors, ?_, ?_⟩
      · rw [hvisited, hcursors, Option.map_some]
      · rw [flatMap_cons, hpages, pageUsers, hleft, hsucc, ← List.drop_drop, take_append_drop]
    · refine ⟨[cursor], visited_last hleft (by omega) hk, ?_⟩
      rw [flatMap_singleton, pageUsers, hleft, take_of_length_le]
      rw [length_drop]
      omega

theorem not_early {m : Nat} {now : Int} (hlimit : 0 < limit) (hm : 0 < m)
    (hm' : m ≤ (sorted db period).length) (hb : border ∈ participants db period)
    (hpage : some ⟨border.2.1, now, border.1⟩ ∈ cursors)
    (hpages : (cursors.flatMap (pageUsers db period limit)).Perm ((sorted db period).drop m)) :
    createdAt ≤ now := by
  by_contra hearly
  have hpos : 0 < (sorted db period).length := by omega
  have hall : (sorted db period).filter (pastCursor ⟨border.2.1, now, border.1⟩) = sorted db period :=
    List.filter_eq_self.mpr fun u hu => (past_tied htied hb (mem_sorted.mp hu) now).mpr (.inl (by omega))
  -- the first user of all is on the page again
  have hfirst : (sorted db period)[0] ∈ pageUsers db period limit (some ⟨border.2.1, now, border.1⟩) := by
    show _ ∈ ((sorted db period).filter (pastCursor ⟨border.2.1, now, border.1⟩)).take limit
    rw [hall]
    exact List.mem_take_iff_getElem.mpr ⟨0, by omega, rfl⟩
  have hlater := hpages.mem_iff.mp (List.mem_flatMap.mpr ⟨_, hpage, hfirst⟩)
  have hbefore : (sorted db period)[0] ∈ (sorted db period).take m :=
    List.mem_take_iff_getElem.mpr ⟨0, by omega, rfl⟩
  have hnodup := @sorted_nodup db period
  rw [← take_append_drop m (sorted db period)] at hnodup
  exact (List.nodup_append.mp hnodup).2.2 _ hbefore _ hlater rfl

theorem not_late {now : Int} {times : List Int} (hlimit : 0 < limit)
    (hb : border ∈ participants db period)
    (hvisited : visited db period limit times (some ⟨border.2.1, now, border.1⟩) = some cursors)
    (hsome : cursors.flatMap (pageUsers db period limit) ≠ []) : now ≤ createdAt := by
  by_contra hlate
  have hnone : (sorted db period).filter (pastCursor ⟨border.2.1, now, border.1⟩) = [] := by
    refine List.filter_eq_nil_iff.mpr fun u hu => ?_
    rw [past_tied htied hb (mem_sorted.mp hu)]
    omega
  cases times with
  | nil => cases hvisited
  | cons t times =>
    have hleft : (sorted db period).filter (fun u =>
        (some (⟨border.2.1, now, border.1⟩ : Cursor)).all (pastCursor · u)) =
          (sorted db period).drop (sorted db period).length := by
      rw [drop_length]
      exact hnone
    rw [visited_last hleft (by omega) (Nat.le_refl _), Option.some.injEq] at hvisited
    refine hsome ?_
    rw [← hvisited, flatMap_singleton, pageUsers, hleft, drop_length, take_nil]

/-- **And they do not with any other time.** -/
theorem times_of_visited (hlimit : 0 < limit) {times : Nat → Int} {n : Nat} {cursor : Option Cursor}
    (hk : k * limit ≤ (sorted db period).length)
    (hleft : (sorted db period).filter (fun u => cursor.all (pastCursor · u)) = (sorted db period).drop (k * limit))
    (hvisited : visited db period limit ((range' k n).map times) cursor = some cursors)
    (hpages : (cursors.flatMap (pageUsers db period limit)).Perm ((sorted db period).drop (k * limit))) :
    (∀ j, k ≤ j → (j + 1) * limit < (sorted db period).length → times j = createdAt) ∧
      ∀ j, k ≤ j → (j + 1) * limit = (sorted db period).length → createdAt ≤ times j := by
  induction n generalizing k cursor cursors with
  | zero => cases hvisited
  | succ n ih =>
    rw [range'_succ, map_cons] at hvisited
    have hsucc : (k + 1) * limit = k * limit + limit := Nat.succ_mul k limit
    have hfrom : ∀ j, k ≤ j → (k + 1) * limit ≤ (j + 1) * limit := fun j hj =>
      Nat.mul_le_mul_right limit (Nat.succ_le_succ hj)
    by_cases hfull : k * limit + limit ≤ (sorted db period).length
    · obtain ⟨border, hborder, hmore⟩ := @visited_more db period limit cursor (k * limit) (times k)
        ((range' (k + 1) n).map times) hlimit hleft hfull
      rw [hmore] at hvisited
      obtain ⟨later, hlater, rfl⟩ := Option.map_eq_some_iff.mp hvisited
      obtain ⟨others, hothers⟩ := head_visited hlater
      have hb := mem_sorted.mp (mem_of_getElem? hborder)
      -- the later pages hold what comes after the page
      have hrest : (later.flatMap (pageUsers db period limit)).Perm
          ((sorted db period).drop (k * limit + limit)) := by
        rw [flatMap_cons, pageUsers, hleft] at hpages
        refine (List.perm_append_left_iff (((sorted db period).drop (k * limit)).take limit)).mp ?_
        rw [← List.drop_drop, take_append_drop]
        exact hpages
      have hearly := not_early htied hlimit (by omega) hfull hb (hothers ▸ List.mem_cons_self) hrest
      rcases Nat.lt_or_eq_of_le hfull with hlong | hexact
      · have hnow : times k = createdAt := by
          refine le_antisymm (not_late htied hlimit hb hlater ?_) hearly
          intro hnil
          rw [hnil] at hrest
          have hnone := hrest.length_eq
          rw [List.length_nil, length_drop] at hnone
          omega
        rw [hnow] at hlater
        rw [← hsucc] at hrest
        have hnext : (sorted db period).filter (fun u =>
            (some (⟨border.2.1, createdAt, border.1⟩ : Cursor)).all (pastCursor · u)) =
              (sorted db period).drop ((k + 1) * limit) := by
          rw [hsucc]
          exact filter_tied htied hlimit hborder hlong
        obtain ⟨hon, hend⟩ := ih (by omega) hnext hlater hrest
        constructor
        · intro j hj hlt
          rcases Nat.eq_or_lt_of_le hj with rfl | hj
          · exact hnow
          · exact hon j hj hlt
        · intro j hj heq
          rcases Nat.eq_or_lt_of_le hj with rfl | hj
          · omega
          · exact hend j hj heq
      · constructor
        · intro j hj hlt
          have := hfrom j hj
          omega
        · intro j hj heq
          have hjk : j + 1 = k + 1 := Nat.eq_of_mul_eq_mul_right hlimit (by omega)
          rw [Nat.succ.inj hjk]
          exact hearly
    · constructor
      · intro j hj hlt
        have := hfrom j hj
        omega
      · intro j hj heq
        have := hfrom j hj
        omega

theorem rankRow_tied {us : List (String × Int × Int)} (hus : ∀ v ∈ us, v ∈ participants db period)
    (hu : u ∈ participants db period) :
    rankRow us u = { userId := u.1, xp := u.2.1, rank := 1, denseRank := 1 } := by
  have hahead : us.filter (rankedAhead · u) = [] := by
    refine List.filter_eq_nil_iff.mpr fun v hv => ?_
    rw [rankedAhead_iff, htied u hu, htied v (hus v hv)]
    omega
  unfold rankRow
  rw [hahead]
  rfl

end Tied

/-! ## Who ties -/

theorem mem_pageUsers_of_ahead {cursor : Option Cursor} {v : String × Int × Int}
    (hu : u ∈ pageUsers db period limit cursor) (hv : v ∈ participants db period)
    (hpast : cursor.all (pastCursor · v) = true) (hahead : rankedAhead v u = true) :
    v ∈ pageUsers db period limit cursor := by
  have hmem : v ∈ (sorted db period).filter fun u => cursor.all (pastCursor · u) :=
    List.mem_filter.mpr ⟨mem_sorted.mpr hv, hpast⟩
  have hsorted := List.Pairwise.sublist
    (List.filter_sublist (p := fun u => cursor.all (pastCursor · u))) (@pairwise_sorted db period)
  rw [← take_append_drop limit ((sorted db period).filter _)] at hmem hsorted
  rcases List.mem_append.mp hmem with htake | hdrop
  · exact htake
  · -- it would be after `u`
    rcases (List.pairwise_append.mp hsorted).2.2 u hu v hdrop with hahead' | ⟨htied, -⟩
    · rw [rankedAhead_iff] at hahead hahead'
      omega
    · rw [rankedAhead_iff, htied] at hahead
      omega

/-- **Where a page follows the first one, everybody ties**: nobody on it has the rank that the users
before it take from it. -/
theorem tied_of_right (hlimit : 0 < limit) (hlong : limit < (sorted db period).length)
    {later : List (Option Cursor)} (h : Right db period limit (none :: later)) :
    ∃ xp createdAt, ∀ u ∈ participants db period, u.2 = (xp, createdAt) := by
  obtain ⟨hperm, hordered, hranks⟩ := h
  rw [flatMap_cons] at hperm hordered
  have hnodup := hperm.nodup_iff.mpr participants_nodup
  have hboth : ∀ a ∈ pageUsers db period limit none, ∀ e ∈ later.flatMap (pageUsers db period limit),
      a.2 = e.2 := by
    intro a ha e he
    obtain ⟨cursor, hcursor, hpage⟩ := List.mem_flatMap.mp he
    have hbefore := (List.pairwise_append.mp hordered).2.2 a ha e he
    have hafter : rankedAhead a e = false := by
      refine Bool.eq_false_iff.mpr fun hahead => ?_
      have hrank := (hranks cursor (List.mem_cons_of_mem _ hcursor) e hpage).1
      rw [rank_rankRow, rank_rankRow, keysetRows, rank_filter_iff] at hrank
      have hmem := (mem_of_mem_pageUsers ha).1
      have hagain := mem_pageUsers_of_ahead hpage hmem (hrank a hmem hahead) hahead
      exact (List.nodup_append.mp hnodup).2.2 a ha a (List.mem_flatMap.mpr ⟨cursor, hcursor, hagain⟩) rfl
    rw [← Bool.not_eq_true, rankedAhead_iff] at hbefore hafter
    exact Prod.ext (by omega) (by omega)
  obtain ⟨a, ha⟩ : ∃ a, a ∈ pageUsers db period limit none := by
    refine List.exists_mem_of_length_pos ?_
    rw [pageUsers_none, length_take]
    omega
  obtain ⟨e, he⟩ : ∃ e, e ∈ later.flatMap (pageUsers db period limit) := by
    refine List.exists_mem_of_length_pos ?_
    have hlength := hperm.length_eq
    rw [length_append, pageUsers_none, length_take, ← sorted_perm.length_eq] at hlength
    omega
  refine ⟨a.2.1, a.2.2, fun u hu => ?_⟩
  rcases List.mem_append.mp (hperm.mem_iff.mpr hu) with hfirst | hlater
  · exact (hboth u hfirst e he).trans (hboth a ha e he).symm
  · exact (hboth a ha u hlater).symm

/-! ## The exact condition -/

theorem left_none : (sorted db period).filter (fun u => (none : Option Cursor).all (pastCursor · u)) =
    (sorted db period).drop 0 := List.filter_eq_self.mpr fun _ _ => rfl

theorem keysetRows_none : keysetRows db period none = participants db period :=
  List.filter_eq_self.mpr fun _ _ => rfl

theorem right_of_sorted (hpages : cursors.flatMap (pageUsers db period limit) = sorted db period)
    (hranks : ∀ cursor ∈ cursors, ∀ u ∈ pageUsers db period limit cursor,
      rankRow (keysetRows db period cursor) u = rankRow (participants db period) u) :
    Right db period limit cursors where
  perm := hpages ▸ sorted_perm
  ordered := by
    rw [hpages]
    refine pairwise_sorted.imp fun {u v} hbefore => ?_
    rw [← Bool.not_eq_true, rankedAhead_iff]
    rcases hbefore with hahead | ⟨htied, -⟩
    · rw [rankedAhead_iff] at hahead
      omega
    · rw [htied]
      omega
  ranks cursor hcursor u hu := by
    rw [hranks cursor hcursor u hu]
    exact ⟨rfl, rfl⟩

theorem right_of_short (hshort : (sorted db period).length < limit) (times : Nat → Int) :
    ∃ n cursors, visited db period limit ((List.range n).map times) none = some cursors ∧
      Right db period limit cursors := by
  refine ⟨1, [none], visited_last left_none (by omega) (Nat.zero_le _), right_of_sorted ?_ ?_⟩
  · rw [flatMap_singleton, pageUsers_none, take_of_length_le (Nat.le_of_lt hshort)]
  · intro cursor hcursor u _
    rw [List.mem_singleton.mp hcursor, keysetRows_none]

theorem right_iff_of_full (hlimit : 0 < limit) (hexact : (sorted db period).length = limit)
    (times : Nat → Int) :
    (∃ n cursors, visited db period limit ((List.range n).map times) none = some cursors ∧
      Right db period limit cursors) ↔
      ∀ u ∈ participants db period, (∀ v ∈ participants db period, u.2.1 ≤ v.2.1) →
        u.2.2 ≤ times 0 := by
  have hfirst : pageUsers db period limit none = sorted db period := by
    rw [pageUsers_none, take_of_length_le (Nat.le_of_eq hexact)]
  constructor
  · rintro ⟨n, cursors, hvisited, hright⟩ u hu hleast
    rw [List.range_eq_range'] at hvisited
    cases n with
    | zero => cases hvisited
    | succ n =>
      rw [range'_succ, map_cons] at hvisited
      obtain ⟨border, hborder, hmore⟩ := @visited_more db period limit none 0 (times 0)
        ((range' (0 + 1) n).map times) hlimit left_none (by omega)
      rw [hmore] at hvisited
      obtain ⟨later, hlater, rfl⟩ := Option.map_eq_some_iff.mp hvisited
      obtain ⟨others, rfl⟩ := head_visited hlater
      -- nobody is left for the second page
      have hlength := hright.perm.length_eq
      rw [flatMap_cons, hfirst, length_append, ← sorted_perm.length_eq, flatMap_cons,
        length_append] at hlength
      have hnil : pageUsers db period limit (some ⟨border.2.1, times 0, border.1⟩) = [] :=
        List.eq_nil_of_length_eq_zero (by omega)
      have hpast := not_past_of_page_nil hlimit hnil hu
      have hb := mem_sorted.mp (mem_of_getElem? hborder)
      rw [Nat.zero_add, ← hexact] at hborder
      have hxp : u.2.1 = border.2.1 := by
        have hle := hleast border hb
        rcases last_sorted hborder hu with rfl | hahead | ⟨htied, -⟩
        · rfl
        · rw [rankedAhead_iff] at hahead
          omega
        · rw [htied]
      rw [pastCursor, Bool.or_eq_false_iff, Bool.or_eq_false_iff, Bool.and_eq_false_iff] at hpast
      rcases hpast.1.2 with hne | hearly
      · exact absurd hxp (of_decide_eq_false hne)
      · exact Int.not_lt.mp (of_decide_eq_false hearly)
  · intro hcond
    obtain ⟨border, hborder, hmore⟩ := @visited_more db period limit none 0 (times 0)
      [times 1] hlimit left_none (by omega)
    have hb := mem_sorted.mp (mem_of_getElem? hborder)
    rw [Nat.zero_add, ← hexact] at hborder
    have hleast : ∀ v ∈ participants db period, border.2.1 ≤ v.2.1 := by
      intro v hv
      rcases last_sorted hborder hv with rfl | hahead | ⟨htied, -⟩
      · exact le_refl _
      · rw [rankedAhead_iff] at hahead
        omega
      · rw [htied]
    have hnone : (sorted db period).filter (pastCursor ⟨border.2.1, times 0, border.1⟩) = [] := by
      refine List.filter_eq_nil_iff.mpr fun u hu => ?_
      have hmem := mem_sorted.mp hu
      rw [pastCursor, Bool.or_eq_true, Bool.or_eq_true, Bool.and_eq_true, Bool.and_eq_true,
        Bool.and_eq_true]
      simp only [decide_eq_true_eq]
      rintro ((hless | ⟨hxp, hlate⟩) | ⟨⟨hxp, hsame⟩, hid⟩)
      · exact absurd hless (not_lt_of_ge (hleast u hmem))
      · have := hcond u hmem fun v hv => hxp ▸ hleast v hv
        omega
      · -- `u` would be the last one
        have hcreated := hcond border hb hleast
        rcases last_sorted hborder hmem with rfl | hahead | ⟨-, hid'⟩
        · exact lt_irrefl _ hid
        · rw [rankedAhead_iff] at hahead
          omega
        · exact lt_asymm hid hid'
    have hleft : (sorted db period).filter (fun u =>
        (some (⟨border.2.1, times 0, border.1⟩ : Cursor)).all (pastCursor · u)) =
          (sorted db period).drop (sorted db period).length := by
      rw [drop_length]
      exact hnone
    have hempty : pageUsers db period limit (some ⟨border.2.1, times 0, border.1⟩) = [] := by
      rw [pageUsers, hleft, drop_length, take_nil]
    refine ⟨2, [none, some ⟨border.2.1, times 0, border.1⟩], ?_, right_of_sorted ?_ ?_⟩
    · show visited db period limit [times 0, times 1] none = _
      rw [hmore, visited_last hleft (by omega) (Nat.le_refl _)]
      rfl
    · rw [flatMap_cons, flatMap_singleton, hempty, List.append_nil, hfirst]
    · intro cursor hcursor u hu
      rcases List.mem_cons.mp hcursor with rfl | hcursor
      · rw [keysetRows_none]
      · rw [List.mem_singleton.mp hcursor, hempty] at hu
        cases hu

theorem right_iff_of_long (hlimit : 0 < limit) (hlong : limit < (sorted db period).length)
    (times : Nat → Int) :
    (∃ n cursors, visited db period limit ((List.range n).map times) none = some cursors ∧
      Right db period limit cursors) ↔
      ∃ xp createdAt, (∀ u ∈ participants db period, u.2 = (xp, createdAt)) ∧
        (∀ k, (k + 1) * limit < (sorted db period).length → times k = createdAt) ∧
        ∀ k, (k + 1) * limit = (sorted db period).length → createdAt ≤ times k := by
  have hzero : (sorted db period).drop (0 * limit) = sorted db period := by
    rw [Nat.zero_mul, List.drop_zero]
  have hleft : (sorted db period).filter (fun u => (none : Option Cursor).all (pastCursor · u)) =
      (sorted db period).drop (0 * limit) := left_none.trans (by rw [Nat.zero_mul])
  constructor
  · rintro ⟨n, cursors, hvisited, hright⟩
    obtain ⟨later, rfl⟩ := head_visited hvisited
    obtain ⟨xp, createdAt, htied⟩ := tied_of_right hlimit hlong hright
    rw [List.range_eq_range'] at hvisited
    obtain ⟨hon, hend⟩ := times_of_visited htied hlimit (by omega) hleft hvisited
      ((hright.perm.trans sorted_perm.symm).trans (.of_eq hzero.symm))
    exact ⟨xp, createdAt, htied, fun k => hon k (Nat.zero_le k), fun k => hend k (Nat.zero_le k)⟩
  · rintro ⟨xp, createdAt, htied, hon, hend⟩
    obtain ⟨cursors, hvisited, hpages⟩ := exists_visited htied hlimit hon hend
      (n := (sorted db period).length) (k := 0) (by omega) (by omega) hleft
    refine ⟨(sorted db period).length + 1, cursors, ?_, right_of_sorted (hpages.trans hzero) ?_⟩
    · rw [List.range_eq_range']
      exact hvisited
    · intro cursor _ u hu
      have hmem := (mem_of_mem_pageUsers hu).1
      exact (rankRow_tied htied (fun v hv => List.mem_of_mem_filter hv) hmem).trans
        (rankRow_tied htied (fun _ hv => hv) hmem).symm

theorem exists_listed_iff {times : Nat → Int} :
    (∃ n items, listed db period limit ((List.range n).map times) = some items ∧ Lists db period items) ↔
      ∃ n cursors, visited db period limit ((List.range n).map times) none = some cursors ∧
        Right db period limit cursors := by
  refine exists_congr fun n => ?_
  rw [listed, listed_from]
  constructor
  · rintro ⟨items, hitems, hlists⟩
    obtain ⟨cursors, hcursors, rfl⟩ := Option.map_eq_some_iff.mp hitems
    exact ⟨cursors, hcursors, (lists_iff_right cursors).mp hlists⟩
  · rintro ⟨cursors, hcursors, hright⟩
    exact ⟨_, by rw [hcursors]; rfl, (lists_iff_right cursors).mpr hright⟩

/-- **When the cursors lead through the full leaderboard**: when there is one page; when the first one is
full, is all there is, and is asked for after the last account was created; or when all participants have
the same XP and the same account creation, and every request that leaves some of them comes at that very
time. -/
theorem cursor_lists_iff (db : Database) (period : RankingPeriod) (limit : Nat) (hlimit : 1 ≤ limit)
    (times : Nat → Int) :
    (∃ n items, listed db period limit ((List.range n).map times) = some items ∧ Lists db period items) ↔
      Upheld db period limit times := by
  rw [exists_listed_iff, Upheld, ← sorted_perm.length_eq]
  rcases Nat.lt_trichotomy (sorted db period).length limit with hshort | hexact | hlong
  · exact iff_of_true (right_of_short hshort times) (.inl hshort)
  · rw [right_iff_of_full hlimit hexact]
    refine ⟨fun h => .inr (.inl ⟨hexact, h⟩), ?_⟩
    rintro (hshort | ⟨-, h⟩ | ⟨hlong, -⟩)
    · omega
    · exact h
    · omega
  · rw [right_iff_of_long hlimit hlong]
    refine ⟨fun h => .inr (.inr ⟨hlong, h⟩), ?_⟩
    rintro (hshort | ⟨hexact, -⟩ | ⟨-, h⟩)
    · omega
    · omega
    · exact h

/-- Two players on one page of ten. -/
theorem cursor_lists_two : ∃ n items,
    listed (twoPlayers 20 10) .allTime 10 ((List.range n).map fun _ => 5) = some items ∧
      Lists (twoPlayers 20 10) .allTime items :=
  (cursor_lists_iff (twoPlayers 20 10) .allTime 10 (by decide) fun _ => 5).mpr
    (.inl (by decide +kernel))

/-- **Pages of one do not list two who are tied**: no account is younger than the request, so nobody is
past the first page's cursor. -/
theorem younger_tied_skipped : ¬ ∃ n items,
    listed (twoPlayers 10 10) .allTime 1 ((List.range n).map fun _ => 5) = some items ∧
      Lists (twoPlayers 10 10) .allTime items := by
  rw [exists_listed_iff]
  rintro ⟨n, cursors, hvisited, hright⟩
  obtain ⟨later, rfl⟩ := head_visited hvisited
  obtain ⟨xp, createdAt, htied⟩ := tied_of_right (by decide) (by decide +kernel) hright
  have holder := htied ("a", 10, 1) (by decide +kernel)
  have hyounger := htied ("b", 10, 2) (by decide +kernel)
  exact absurd (holder.trans hyounger.symm) (by decide)

end QuizBackend.Ranking.CursorLeaderboard
