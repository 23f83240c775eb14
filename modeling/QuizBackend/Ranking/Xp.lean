import QuizBackend.Lib.Run
import QuizBackend.Lib.Table
import QuizBackend.Lib.Calendar
import Mathlib.Algebra.BigOperators.Group.List.Basic
import Mathlib.Algebra.Order.BigOperators.Group.List
import Mathlib.Algebra.Order.Ring.Int

/-!
# XP counters (`user-ranking.repository.ts`)

A row of `user_ranking` carries four counters — all time, week, month, day — and three reset
clocks. `_updateXpCore` makes sure the row is there and then rewrites all of it in one `UPDATE`,
each counter with a `CASE` on its own clock. `NOW()` is the start of the transaction, which is
the processing time of the event.

The `CASE`s write `0` where the period has turned over and add the amount where it has not, so
**the event that turns a period over is not counted in the new period**. (The batched sibling
`processXpEventsBatch` writes the amount there.) What holds is stated at the end: the counters
are the sums over their periods for exactly those histories in which no period turns over.

The session runs in UTC, so a `timestamptz` column and `date_trunc(…, NOW() AT TIME ZONE 'UTC')`
compare as instants. Of the row's columns those are modelled that `_updateXpCore` writes.
-/

namespace QuizBackend.Ranking

open Lib Table

structure UserRankingRow where
  userId : String
  allTimeXp : Int
  weeklyXp : Int
  monthlyXp : Int
  dailyXp : Int
  lastWeeklyResetAt : Option Int
  lastMonthlyResetAt : Option Int
  lastDailyResetAt : Option Int
  lastActivityAt : Option Int
  updatedAt : Int
  isDirty : Bool

structure XpEvent where
  userId : String
  amount : Int
  now : Int

abbrev UserRanking := Table String UserRankingRow (·.userId)

/-- `column < instant`; not true of a `NULL` column. -/
def before : Option Int → Int → Bool
  | none, _ => false
  | some s, t => s < t

def insertValues (userId : String) (now : Int) : UserRankingRow :=
  { userId, allTimeXp := 0, weeklyXp := 0, monthlyXp := 0, dailyXp := 0
    lastWeeklyResetAt := some (dateTruncWeek now)
    lastMonthlyResetAt := some (dateTruncMonth now)
    lastDailyResetAt := some (dateTruncDay now)
    lastActivityAt := some now, updatedAt := now, isDirty := false }

def setXp (row : UserRankingRow) (amount now : Int) : UserRankingRow :=
  let week := before row.lastWeeklyResetAt (dateTruncWeek now)
    || before row.lastMonthlyResetAt (dateTruncMonth now)
  let month := before row.lastMonthlyResetAt (dateTruncMonth now)
  let day := before row.lastDailyResetAt (dateTruncDay now)
  { row with
    allTimeXp := row.allTimeXp + amount
    weeklyXp := if week then 0 else row.weeklyXp + amount
    monthlyXp := if month then 0 else row.monthlyXp + amount
    dailyXp := if day then 0 else row.dailyXp + amount
    lastWeeklyResetAt := if week then some (dateTruncWeek now) else row.lastWeeklyResetAt
    lastMonthlyResetAt := if month then some (dateTruncMonth now) else row.lastMonthlyResetAt
    lastDailyResetAt := if day then some (dateTruncDay now) else row.lastDailyResetAt
    lastActivityAt := some now, updatedAt := now, isDirty := true }

theorem setXp_userId (amount now : Int) (row : UserRankingRow) :
    (setXp row amount now).userId = row.userId := rfl

def FitsColumns (row : UserRankingRow) : Prop :=
  IsInt4 row.allTimeXp ∧ IsInt4 row.weeklyXp ∧ IsInt4 row.monthlyXp ∧
    IsInt4 row.dailyXp

instance (row : UserRankingRow) : Decidable (FitsColumns row) :=
  inferInstanceAs (Decidable (_ ∧ _))

section

variable (t : UserRanking)

/-- `_updateXpCore`: the row it returns and the table it leaves. -/
def updateXpCore (e : XpEvent) : Except String (UserRankingRow × UserRanking) :=
  -- `INSERT … ON CONFLICT DO NOTHING`, and `findFirst` when it inserted nothing
  let inserted := t.insert? (insertValues e.userId e.now)
  let t₁ := inserted.getD t
  match t₁.find? e.userId with
  | none => .error "Failed to upsert user ranking record"
  | some row =>
    if ¬ IsInt4 e.amount ∨ ¬ FitsColumns (setXp row e.amount e.now) then
      .error "integer out of range"
    else
      .ok (setXp row e.amount e.now,
        t₁.modify e.userId (setXp · e.amount e.now) (setXp_userId e.amount e.now))

/-- One applied event; none when the transaction fails. -/
def xpStep (e : XpEvent) : Option UserRanking :=
  match updateXpCore t e with
  | .ok (_, t') => some t'
  | .error _ => none

/-! ## What an event does -/

def rowBefore (e : XpEvent) : UserRankingRow :=
  (t.find? e.userId).getD (insertValues e.userId e.now)

/-- **`_updateXpCore`** fails exactly on an integer out of range, and else rewrites the user's
row and no other. -/
theorem xpStep_spec (e : XpEvent) :
    if IsInt4 e.amount ∧ FitsColumns (setXp (rowBefore t e) e.amount e.now) then
      ∃ t', xpStep t e = some t' ∧
        t'.find? e.userId = some (setXp (rowBefore t e) e.amount e.now) ∧
        ∀ u, u ≠ e.userId → t'.find? u = t.find? u
    else xpStep t e = none := by
  obtain ⟨t₁, ht₁, hrow, hframe⟩ : ∃ t₁ : UserRanking,
      (t.insert? (insertValues e.userId e.now)).getD t = t₁ ∧
      t₁.find? e.userId = some (rowBefore t e) ∧
      ∀ u, u ≠ e.userId → t₁.find? u = t.find? u := by
    cases hins : t.insert? (insertValues e.userId e.now) with
    | none =>
      cases hfind : t.find? e.userId with
      | none =>
        obtain ⟨t', ht'⟩ := insert?_isSome (r := insertValues e.userId e.now) hfind
        rw [hins] at ht'
        cases ht'
      | some row => exact ⟨t, rfl, by rw [rowBefore, hfind]; rfl, fun _ _ => rfl⟩
    | some t' =>
      have hnone : t.find? e.userId = none := find?_of_insert? hins
      refine ⟨t', rfl, ?_, ?_⟩
      · have hkey : (insertValues e.userId e.now).userId = e.userId := rfl
        rw [find?_insert? hins, if_pos hkey, rowBefore, hnone]
        rfl
      · intro u hu
        rw [find?_insert? hins, if_neg fun he => hu he.symm]
  have hcore : updateXpCore t e =
      if ¬ IsInt4 e.amount ∨ ¬ FitsColumns (setXp (rowBefore t e) e.amount e.now) then
        .error "integer out of range"
      else .ok (setXp (rowBefore t e) e.amount e.now,
        t₁.modify e.userId (setXp · e.amount e.now) (setXp_userId e.amount e.now)) := by
    simp only [updateXpCore, ht₁, hrow]
  by_cases hfit : IsInt4 e.amount ∧ FitsColumns (setXp (rowBefore t e) e.amount e.now)
  · rw [if_neg (by tauto)] at hcore
    rw [if_pos hfit]
    refine ⟨_, by rw [xpStep, hcore], find?_modify_self hrow, fun u hu => ?_⟩
    rw [find?_modify_ne hu, hframe u hu]
  · rw [if_pos (by tauto)] at hcore
    rw [if_neg hfit, xpStep, hcore]

end

/-! ## Sums over a history -/

section

variable (p : XpEvent → Bool)

def xpSum (events : List XpEvent) : Int :=
  ((events.filter p).map (·.amount)).sum

theorem xpSum_append (es fs : List XpEvent) :
    xpSum p (es ++ fs) = xpSum p es + xpSum p fs := by
  rw [xpSum, List.filter_append, List.map_append, List.sum_append, xpSum, xpSum]

theorem xpSum_snoc (events : List XpEvent) (e : XpEvent) :
    xpSum p (events ++ [e]) = xpSum p events + (if p e then e.amount else 0) := by
  rw [xpSum_append]
  cases hp : p e <;> simp [xpSum, hp]

end

theorem xpSum_nonneg {p : XpEvent → Bool} {events : List XpEvent}
    (h : ∀ e ∈ events, 0 < e.amount) : 0 ≤ xpSum p events := by
  refine List.sum_nonneg ?_
  intro x hx
  obtain ⟨e, he, rfl⟩ := List.mem_map.mp hx
  exact Int.le_of_lt (h e (List.mem_of_mem_filter he))

theorem xpSum_congr {p q : XpEvent → Bool} {events : List XpEvent}
    (h : ∀ e ∈ events, p e = q e) : xpSum p events = xpSum q events := by
  rw [xpSum, List.filter_congr h, xpSum]

/-- The counters of the user of `e`, right after `e`, are the sums over the periods `e` is
processed in. -/
structure CountersExact (events : List XpEvent) (e : XpEvent) (row : UserRankingRow) : Prop where
  allTime : row.allTimeXp = xpSum (fun a => a.userId = e.userId) events
  daily : row.dailyXp = xpSum (fun a => a.userId = e.userId ∧
    utcDay a.now = utcDay e.now) events
  weekly : row.weeklyXp = xpSum (fun a => a.userId = e.userId ∧
    weekStart (utcDay a.now) = weekStart (utcDay e.now)) events
  monthly : row.monthlyXp = xpSum (fun a => a.userId = e.userId ∧
    monthStart (utcDay a.now) = monthStart (utcDay e.now)) events

def OneDay (events : List XpEvent) : Prop :=
  ∀ a ∈ events, ∀ b ∈ events, a.userId = b.userId → utcDay a.now = utcDay b.now

def TotalsFit (events : List XpEvent) : Prop :=
  ∀ a ∈ events, xpSum (fun b => b.userId = a.userId) events ≤ 2147483647

/-! ## Histories that turn no period over -/

/-- The row stands at `total` in every counter, with its clocks in the periods of `now`. -/
structure Stands (row : UserRankingRow) (total now : Int) : Prop where
  allTime : row.allTimeXp = total
  weekly : row.weeklyXp = total
  monthly : row.monthlyXp = total
  daily : row.dailyXp = total
  dayClock : row.lastDailyResetAt = some (dateTruncDay now)
  weekClock : row.lastWeeklyResetAt = some (dateTruncWeek now)
  monthClock : row.lastMonthlyResetAt = some (dateTruncMonth now)

variable {row : UserRankingRow} {t : UserRanking} {e : XpEvent}

theorem Stands.of_utcDay {total s t : Int} (h : Stands row total s) (hday : utcDay s = utcDay t) :
    Stands row total t := by
  refine ⟨h.allTime, h.weekly, h.monthly, h.daily, ?_, ?_, ?_⟩
  · rw [h.dayClock, dateTruncDay, hday, dateTruncDay]
  · rw [h.weekClock, dateTruncWeek, hday, dateTruncWeek]
  · rw [h.monthClock, dateTruncMonth, hday, dateTruncMonth]

theorem before_self (t : Int) : before (some t) t = false := by
  simp [before]

theorem Stands.setXp {total now : Int} (h : Stands row total now) (amount : Int) :
    Stands (setXp row amount now) (total + amount) now := by
  refine ⟨?_, ?_, ?_, ?_, ?_, ?_, ?_⟩ <;>
    simp only [Ranking.setXp, h.allTime, h.weekly, h.monthly, h.daily, h.dayClock, h.weekClock,
      h.monthClock, before_self, Bool.or_false, Bool.false_eq_true, if_false]

structure Tracks (t : UserRanking) (events : List XpEvent) : Prop where
  absent : ∀ u, (∀ a ∈ events, a.userId ≠ u) → t.find? u = none
  present : ∀ a ∈ events, ∃ row, t.find? a.userId = some row ∧
    Stands row (xpSum (fun b => b.userId = a.userId) events) a.now

theorem Tracks.rowBefore {events : List XpEvent} (h : Tracks t events)
    (hday : ∀ a ∈ events, a.userId = e.userId → utcDay a.now = utcDay e.now) :
    Stands (rowBefore t e) (xpSum (fun b => b.userId = e.userId) events) e.now := by
  by_cases hold : ∃ a ∈ events, a.userId = e.userId
  · obtain ⟨a, ha, hu⟩ := hold
    obtain ⟨row, hrow, hstands⟩ := h.present a ha
    rw [hu] at hrow hstands
    rw [Ranking.rowBefore, hrow]
    exact hstands.of_utcDay (hday a ha hu)
  · have hnone := h.absent e.userId fun a ha hu => hold ⟨a, ha, hu⟩
    have hzero : xpSum (fun b => b.userId = e.userId) events = 0 := by
      rw [xpSum, List.filter_eq_nil_iff.mpr fun a ha => by simpa using fun hu => hold ⟨a, ha, hu⟩]
      rfl
    rw [Ranking.rowBefore, hnone, hzero]
    exact ⟨rfl, rfl, rfl, rfl, rfl, rfl, rfl⟩

/-- **One more event of the day**: it is applied and every counter takes it in. -/
theorem Tracks.step {events : List XpEvent} (h : Tracks t events)
    (hpos : ∀ a ∈ events ++ [e], 0 < a.amount)
    (hday : ∀ a ∈ events, a.userId = e.userId → utcDay a.now = utcDay e.now)
    (hfit : xpSum (fun b => b.userId = e.userId) (events ++ [e]) ≤ 2147483647) :
    ∃ t', xpStep t e = some t' ∧ Tracks t' (events ++ [e]) := by
  have hsum : xpSum (fun b => b.userId = e.userId) (events ++ [e])
      = xpSum (fun b => b.userId = e.userId) events + e.amount := by
    rw [xpSum_snoc]
    simp
  have hamount : 0 < e.amount := hpos e (by simp)
  have hnn : 0 ≤ xpSum (fun b => b.userId = e.userId) events :=
    xpSum_nonneg fun a ha => hpos a (List.mem_append_left _ ha)
  have hafter := (h.rowBefore hday).setXp e.amount
  rw [← hsum] at hafter
  have hcols : FitsColumns (Ranking.setXp (Ranking.rowBefore t e) e.amount e.now) := by
    unfold FitsColumns IsInt4
    rw [hafter.allTime, hafter.weekly, hafter.monthly, hafter.daily]
    omega
  have hspec := xpStep_spec t e
  rw [if_pos ⟨⟨by omega, by omega⟩, hcols⟩] at hspec
  obtain ⟨t', hstep, hrow, hframe⟩ := hspec
  refine ⟨t', hstep, ?_, ?_⟩
  · intro u hu
    have hue : u ≠ e.userId := fun he => hu e (by simp) he.symm
    rw [hframe u hue]
    exact h.absent u fun a ha => hu a (List.mem_append_left _ ha)
  · intro a ha
    by_cases hu : a.userId = e.userId
    · rw [hu]
      refine ⟨_, hrow, hafter.of_utcDay ?_⟩
      rcases List.mem_append.mp ha with ha | ha
      · exact (hday a ha hu).symm
      · rw [List.mem_singleton.mp ha]
    · have ha' : a ∈ events := by
        rcases List.mem_append.mp ha with ha | ha
        · exact ha
        · exact absurd (congrArg XpEvent.userId (List.mem_singleton.mp ha)) hu
      obtain ⟨row, hold, hstands⟩ := h.present a ha'
      refine ⟨row, by rw [hframe _ hu, hold], ?_⟩
      rw [xpSum_snoc, if_neg (by simpa using fun he => hu he.symm), Int.add_zero]
      exact hstands

theorem tracks_of_oneDay {events : List XpEvent} (hpos : ∀ a ∈ events, 0 < a.amount)
    (hday : OneDay events) (hfit : TotalsFit events) :
    ∃ t, exec xpStep (empty _) events = some t ∧ Tracks t events := by
  induction events using List.reverseRecOn with
  | nil => exact ⟨_, rfl, fun _ _ => rfl, fun a ha => absurd ha List.not_mem_nil⟩
  | append_singleton es e ih =>
    have hfit' : TotalsFit es := fun a ha => by
      have hle := hfit a (List.mem_append_left _ ha)
      have hamount := hpos e (by simp)
      rw [xpSum_snoc] at hle
      split at hle <;> omega
    obtain ⟨t, hexec, htracks⟩ := ih (fun a ha => hpos a (List.mem_append_left _ ha))
      (fun a ha b hb => hday a (List.mem_append_left _ ha) b (List.mem_append_left _ hb)) hfit'
    obtain ⟨t', hstep, htracks'⟩ := htracks.step hpos
      (fun a ha => hday a (List.mem_append_left _ ha) e (by simp)) (hfit e (by simp))
    exact ⟨t', exec_snoc.mpr ⟨t, hexec, hstep⟩, htracks'⟩

/-! ## The counters -/

/-- After every event the counters of its user are exact. -/
def XpSound (events : List XpEvent) : Prop :=
  ∀ pre e, pre ++ [e] <+: events → ∃ t row, exec xpStep (empty _) (pre ++ [e]) = some t ∧
    t.find? e.userId = some row ∧ CountersExact (pre ++ [e]) e row

theorem XpSound.of_prefix {es events : List XpEvent} (h : XpSound events) (hp : es <+: events) :
    XpSound es := fun pre e hpe => h pre e (hpe.trans hp)

theorem TotalsFit.of_prefix {es events : List XpEvent} (h : TotalsFit events)
    (hpos : ∀ e ∈ events, 0 < e.amount) (hp : es <+: events) : TotalsFit es := by
  obtain ⟨rest, rfl⟩ := hp
  intro a ha
  have hle := h a (List.mem_append_left _ ha)
  have hrest : 0 ≤ xpSum (fun b => b.userId = a.userId) rest :=
    xpSum_nonneg fun b hb => hpos b (List.mem_append_right _ hb)
  rw [xpSum_append] at hle
  omega

theorem Stands.countersExact {events : List XpEvent}
    (h : Stands row (xpSum (fun b => b.userId = e.userId) events) e.now)
    (hday : ∀ a ∈ events, a.userId = e.userId → utcDay a.now = utcDay e.now) :
    CountersExact events e row := by
  have hcongr : ∀ f : Int → Int, xpSum (fun b => b.userId = e.userId) events
      = xpSum (fun a => a.userId = e.userId ∧ f (utcDay a.now) = f (utcDay e.now)) events := by
    refine fun f => xpSum_congr ?_
    intro a ha
    by_cases hu : a.userId = e.userId
    · simp [hu, hday a ha hu]
    · simp [hu]
  exact ⟨h.allTime, h.daily.trans (hcongr id), h.weekly.trans (hcongr weekStart),
    h.monthly.trans (hcongr monthStart)⟩

theorem dailyXp_of_rollover {events : List XpEvent} (h : Tracks t events) {a : XpEvent}
    (ha : a ∈ events) (hu : a.userId = e.userId) (hlt : utcDay a.now < utcDay e.now) :
    (setXp (rowBefore t e) e.amount e.now).dailyXp = 0 := by
  obtain ⟨row, hrow, hstands⟩ := h.present a ha
  have hover : before row.lastDailyResetAt (dateTruncDay e.now) = true := by
    rw [hstands.dayClock]
    exact decide_eq_true (dateTruncDay_lt_iff.mpr hlt)
  rw [rowBefore, ← hu, hrow]
  simp only [setXp, Option.getD_some, hover, if_true]

theorem oneDay_of_xpSound {events : List XpEvent} (hpos : ∀ e ∈ events, 0 < e.amount)
    (hmono : events.Pairwise fun a b => a.now ≤ b.now) (h : XpSound events) :
    OneDay events ∧ TotalsFit events := by
  induction events using List.reverseRecOn with
  | nil => exact ⟨fun a ha => absurd ha List.not_mem_nil, fun a ha => absurd ha List.not_mem_nil⟩
  | append_singleton es e ih =>
    obtain ⟨hmono', -, hle⟩ := List.pairwise_append.mp hmono
    have hpos' : ∀ a ∈ es, 0 < a.amount := fun a ha => hpos a (List.mem_append_left _ ha)
    obtain ⟨hday, hfit⟩ := ih hpos' hmono' (h.of_prefix (List.prefix_append es [e]))
    obtain ⟨t, hexec, htracks⟩ := tracks_of_oneDay hpos' hday hfit
    -- what the last event did
    obtain ⟨t', row, hexec', hrow, hexact⟩ := h es e (List.prefix_refl _)
    obtain ⟨m, hm, hstep⟩ := exec_snoc.mp hexec'
    rw [hexec, Option.some.injEq] at hm
    subst hm
    have hspec := xpStep_spec t e
    split at hspec
    swap
    · rw [hspec] at hstep
      cases hstep
    rename_i hcols
    obtain ⟨t'', hstep', hrow', -⟩ := hspec
    rw [hstep, Option.some.injEq] at hstep'
    rw [← hstep', hrow, Option.some.injEq] at hrow'
    have hamount : 0 < e.amount := hpos e (by simp)
    have hsame : ∀ a ∈ es, a.userId = e.userId → utcDay a.now = utcDay e.now := by
      intro a ha hu
      by_contra hne
      have hdays := utcDay_mono (hle a ha e (by simp))
      have hzero := dailyXp_of_rollover htracks ha hu (by omega)
      have hdaily := hexact.daily
      rw [hrow', hzero, xpSum_snoc, if_pos (by simp)] at hdaily
      have := xpSum_nonneg (p := fun a => a.userId = e.userId ∧ utcDay a.now = utcDay e.now) hpos'
      omega
    refine ⟨?_, ?_⟩
    · intro a ha b hb hu
      rcases List.mem_append.mp ha with ha | ha <;> rcases List.mem_append.mp hb with hb | hb
      · exact hday a ha b hb hu
      · rw [List.mem_singleton.mp hb] at hu ⊢
        exact hsame a ha hu
      · rw [List.mem_singleton.mp ha] at hu ⊢
        exact (hsame b hb hu.symm).symm
      · rw [List.mem_singleton.mp ha, List.mem_singleton.mp hb]
    · intro a ha
      by_cases hu : a.userId = e.userId
      · have hall := hexact.allTime
        rw [hrow'] at hall
        have hint : IsInt4 (setXp (rowBefore t e) e.amount e.now).allTimeXp := hcols.2.1
        rw [hall] at hint
        rw [hu]
        exact hint.2
      · rw [xpSum_snoc, if_neg (by simpa using fun he => hu he.symm), Int.add_zero]
        rcases List.mem_append.mp ha with ha | ha
        · exact hfit a ha
        · exact absurd (congrArg XpEvent.userId (List.mem_singleton.mp ha)) hu

/-- **XP period counters** are exact after every event of a history of positive amounts in
non-decreasing time exactly when no user's events cross midnight UTC (and no total overflows its
column). -/
theorem xpSound_iff (events : List XpEvent) (hpos : ∀ e ∈ events, 0 < e.amount)
    (hmono : events.Pairwise fun a b => a.now ≤ b.now) :
    XpSound events ↔ OneDay events ∧ TotalsFit events := by
  refine ⟨oneDay_of_xpSound hpos hmono, fun ⟨hday, hfit⟩ pre e hp => ?_⟩
  have hday' : OneDay (pre ++ [e]) := fun a ha b hb => hday a (hp.subset ha) b (hp.subset hb)
  obtain ⟨t, hexec, htracks⟩ := tracks_of_oneDay (fun a ha => hpos a (hp.subset ha)) hday'
    (hfit.of_prefix hpos hp)
  obtain ⟨row, hrow, hstands⟩ := htracks.present e (by simp)
  exact ⟨t, row, hexec, hrow, hstands.countersExact fun a ha => hday' a ha e (by simp)⟩

theorem xpSound_within_a_day : XpSound
    [⟨"01900000-0000-7000-8000-000000000001", 10, 0⟩,
     ⟨"01900000-0000-7000-8000-000000000002", 7, 1000⟩,
     ⟨"01900000-0000-7000-8000-000000000001", 5, 86399999⟩] :=
  (xpSound_iff _ (by decide) (by decide)).mpr (by unfold OneDay TotalsFit; decide)

def acrossMidnight : List XpEvent :=
  [⟨"01900000-0000-7000-8000-000000000001", 10, 0⟩,
   ⟨"01900000-0000-7000-8000-000000000001", 5, 86400000⟩]

/-- The daily counter reads zero after the second event. -/
theorem xp_lost_at_midnight :
    (∀ e ∈ acrossMidnight, 0 < e.amount) ∧
      (acrossMidnight.Pairwise fun a b => a.now ≤ b.now) ∧ ¬ XpSound acrossMidnight := by
  refine ⟨by decide, by decide, ?_⟩
  intro h
  obtain ⟨t, row, hexec, hrow, hexact⟩ := h [⟨"01900000-0000-7000-8000-000000000001", 10, 0⟩]
    ⟨"01900000-0000-7000-8000-000000000001", 5, 86400000⟩ (List.prefix_refl _)
  cases hexec
  cases hrow
  exact absurd hexact.daily (by decide)

end QuizBackend.Ranking
