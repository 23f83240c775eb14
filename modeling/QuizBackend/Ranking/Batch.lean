import QuizBackend.Ranking.Xp

/-!
# Batched XP ingestion (`processXpEventsBatch`)

The batch is one `UPDATE user_ranking … FROM unnest(userIds, amounts)`. Against applying
`_updateXpCore` event by event it differs in four ways, each of which a line of the statement
shows:

* a target row joins with at most one source row, so of several events for one user only one is
  applied — which one is the executor's choice (`pick`);
* a user without a row is skipped, where `_updateXpCore` inserts the row first;
* a counter whose period has turned over becomes the amount, where `_updateXpCore` writes `0`;
* the reset clocks are not written at all.

`batch_same_iff` says that nothing else sets the two apart: they leave the same counters and clocks
exactly when every user named has one event and a row with current clocks. The second half of its
condition is the case in which both statements leave the table alone because a total does not fit
its column.
-/

namespace QuizBackend.Ranking

open Lib Table
open Option (getD_none getD_some map_some some_ne_none)

/-- An event that `bulkProcessXpEvents` has let through: a user and a positive amount. -/
structure ValidXpEvent where
  userId : String
  amount : Int
  userId_ne : userId ≠ ""
  amount_pos : 0 < amount

def ValidXpEvent.at (e : ValidXpEvent) (now : Int) : XpEvent :=
  { userId := e.userId, amount := e.amount, now }

def amounts (events : List ValidXpEvent) (userId : String) : List Int :=
  (events.filter (·.userId = userId)).map (·.amount)

/-- The source row the executor applies to the row of a user, of those that match it. -/
def picked (pick : String → Nat) (events : List ValidXpEvent) (userId : String) : Option Int :=
  let matching := amounts events userId
  matching[pick userId % matching.length]?

def batchSet (row : UserRankingRow) (amount now : Int) : UserRankingRow :=
  let week := before row.lastWeeklyResetAt (dateTruncWeek now)
    || before row.lastMonthlyResetAt (dateTruncMonth now)
  let month := before row.lastMonthlyResetAt (dateTruncMonth now)
  let day := before row.lastDailyResetAt (dateTruncDay now)
  { row with
    allTimeXp := row.allTimeXp + amount
    weeklyXp := if week then amount else row.weeklyXp + amount
    monthlyXp := if month then amount else row.monthlyXp + amount
    dailyXp := if day then amount else row.dailyXp + amount
    lastActivityAt := some now, updatedAt := now, isDirty := true }

section

variable (pick : String → Nat)

def batchRow (events : List ValidXpEvent) (now : Int)
    (row : UserRankingRow) : UserRankingRow :=
  match picked pick events row.userId with
  | some amount => batchSet row amount now
  | none => row

theorem batchRow_userId (events : List ValidXpEvent) (now : Int)
    (row : UserRankingRow) : (batchRow pick events now row).userId = row.userId := by
  unfold batchRow
  split <;> rfl

/-- The sums fit the columns. -/
def BatchFits (t : UserRanking) (events : List ValidXpEvent) (now : Int) :
    Prop :=
  ∀ row ∈ t.rows, ∀ amount ∈ picked pick events row.userId, FitsColumns (batchSet row amount now)

end

instance (pick : String → Nat) (t : UserRanking) (events : List ValidXpEvent) (now : Int) :
    Decidable (BatchFits pick t events now) := inferInstanceAs (Decidable (∀ _ ∈ _, _))

/-- `processXpEventsBatch`; none when the statement fails. -/
def processXpEventsBatch (pick : String → Nat) (t : UserRanking) (events : List ValidXpEvent)
    (now : Int) : Option UserRanking :=
  if events.isEmpty then some t
  else if BatchFits pick t events now then
    some (t.update (batchRow pick events now) (batchRow_userId pick events now))
  else none

/-- `_updateXpCore` on the events one after the other, in one transaction. -/
def updateXpEach (t : UserRanking) (events : List ValidXpEvent) (now : Int) : Option UserRanking :=
  exec xpStep t (events.map (·.at now))

def xpColumns (row : UserRankingRow) :
    (Int × Int × Int × Int) × Option Int × Option Int × Option Int :=
  ((row.allTimeXp, row.weeklyXp, row.monthlyXp, row.dailyXp),
    row.lastWeeklyResetAt, row.lastMonthlyResetAt, row.lastDailyResetAt)

variable {row : UserRankingRow} {as : List Int} {a : Int} {u : String} {e : ValidXpEvent}
  {t' : UserRanking}

theorem allTimeXp_of_xpColumns {row' : UserRankingRow} (h : xpColumns row = xpColumns row') :
    row.allTimeXp = row'.allTimeXp := congrArg (·.1.1) h

/-- Everybody has the same experience in both. -/
def SameXp (t t' : UserRanking) : Prop :=
  ∀ u, (t.find? u).map xpColumns = (t'.find? u).map xpColumns

structure NonNeg (row : UserRankingRow) : Prop where
  allTime : 0 ≤ row.allTimeXp
  weekly : 0 ≤ row.weeklyXp
  monthly : 0 ≤ row.monthlyXp
  daily : 0 ≤ row.dailyXp

def ChecksHold (t : UserRanking) : Prop := ∀ row ∈ t.rows, NonNeg row

/-! ## Rows with current clocks -/

structure Current (row : UserRankingRow) (now : Int) : Prop where
  week : before row.lastWeeklyResetAt (dateTruncWeek now) = false
  month : before row.lastMonthlyResetAt (dateTruncMonth now) = false
  day : before row.lastDailyResetAt (dateTruncDay now) = false

theorem setXp_current (row : UserRankingRow) (amount now : Int) :
    Current (setXp row amount now) now := by
  refine ⟨?_, ?_, ?_⟩
  · simp only [setXp]
    split
    · exact before_self _
    · next h =>
      simp only [Bool.or_eq_true, not_or, Bool.not_eq_true] at h
      exact h.1
  · simp only [setXp]
    split
    · exact before_self _
    · next h => simpa using h
  · simp only [setXp]
    split
    · exact before_self _
    · next h => simpa using h

theorem NonNeg.setXp (h : NonNeg row) {amount : Int} (ha : 0 < amount) (now : Int) :
    NonNeg (setXp row amount now) := by
  obtain ⟨hall, hweek, hmonth, hday⟩ := h
  refine ⟨?_, ?_, ?_, ?_⟩
  · simp only [Ranking.setXp]
    omega
  · simp only [Ranking.setXp]
    split <;> omega
  · simp only [Ranking.setXp]
    split <;> omega
  · simp only [Ranking.setXp]
    split <;> omega

theorem Current.xpColumns_setXp {now : Int} (h : Current row now) (amount : Int) :
    xpColumns (setXp row amount now) =
      ((row.allTimeXp + amount, row.weeklyXp + amount, row.monthlyXp + amount,
        row.dailyXp + amount), row.lastWeeklyResetAt, row.lastMonthlyResetAt,
        row.lastDailyResetAt) := by
  simp only [xpColumns, setXp, h.week, h.month, h.day, Bool.or_self, Bool.false_eq_true, if_false]

theorem Current.xpColumns_batchSet {now : Int} (h : Current row now) (amount : Int) :
    xpColumns (batchSet row amount now) = xpColumns (setXp row amount now) := by
  rw [h.xpColumns_setXp]
  simp only [xpColumns, batchSet, h.week, h.month, h.day, Bool.or_self, Bool.false_eq_true,
    if_false]

/-- On a row that is not current the batch counts the event in the new period, and
`_updateXpCore` does not. -/
theorem current_of_xpColumns_batchSet {amount now : Int} (ha : 0 < amount)
    (h : xpColumns (batchSet row amount now) = xpColumns (setXp row amount now)) :
    Current row now := by
  simp only [xpColumns, batchSet, setXp, Prod.mk.injEq] at h
  obtain ⟨⟨-, hweek, hmonth, hday⟩, -⟩ := h
  have hflag : ∀ {b : Bool} {x : Int}, (if b then amount else x) = (if b then 0 else x) →
      b = false := by
    intro b x he
    cases b with
    | false => rfl
    | true =>
      simp only [if_true] at he
      omega
  have hw := hflag hweek
  rw [Bool.or_eq_false_iff] at hw
  exact ⟨hw.1, hw.2, hflag hday⟩

theorem fitsColumns_congr {row' : UserRankingRow} (h : xpColumns row = xpColumns row') :
    FitsColumns row ↔ FitsColumns row' := by
  simp only [xpColumns, Prod.mk.injEq] at h
  obtain ⟨⟨hall, hweek, hmonth, hday⟩, -⟩ := h
  rw [FitsColumns, FitsColumns, hall, hweek, hmonth, hday]

/-! ## One user's events in turn -/

/-- The row after one user's amounts, one `_updateXpCore` each. -/
def applied (row : UserRankingRow) (as : List Int) (now : Int) : UserRankingRow :=
  as.foldl (fun row amount => setXp row amount now) row

def startRow (t : UserRanking) (userId : String) (now : Int) : UserRankingRow :=
  (t.find? userId).getD (insertValues userId now)

theorem Current.xpColumns_applied {now : Int} (h : Current row now) (as : List Int) :
    xpColumns (applied row as now) =
      ((row.allTimeXp + as.sum, row.weeklyXp + as.sum, row.monthlyXp + as.sum,
        row.dailyXp + as.sum), row.lastWeeklyResetAt, row.lastMonthlyResetAt,
        row.lastDailyResetAt) := by
  induction as generalizing row with
  | nil => simp [applied, xpColumns]
  | cons a as ih =>
    have hstep := h.xpColumns_setXp a
    have hrest := ih (setXp_current row a now)
    simp only [xpColumns, Prod.mk.injEq] at hstep
    obtain ⟨⟨hall, hweek, hmonth, hday⟩, hwc, hmc, hdc⟩ := hstep
    rw [applied, List.foldl_cons]
    rw [applied, hall, hweek, hmonth, hday, hwc, hmc, hdc] at hrest
    rw [hrest, List.sum_cons]
    simp only [Int.add_assoc]

theorem applied_allTimeXp (row : UserRankingRow) (as : List Int) (now : Int) :
    (applied row as now).allTimeXp = row.allTimeXp + as.sum := by
  induction as generalizing row with
  | nil => simp [applied]
  | cons a as ih =>
    have hrest := ih (setXp row a now)
    rw [applied, List.foldl_cons]
    rw [applied] at hrest
    rw [hrest, List.sum_cons, ← Int.add_assoc]
    rfl

theorem sum_nonneg_of_pos (h : ∀ a ∈ as, 0 < a) : 0 ≤ as.sum :=
  List.sum_nonneg fun a ha => Int.le_of_lt (h a ha)

/-- **Totals only grow**: a user's last total fits its columns only if the first one did. -/
theorem fitsColumns_setXp_of_applied (hnn : NonNeg row) {now : Int} (ha : 0 < a)
    (has : ∀ b ∈ as, 0 < b) (h : FitsColumns (applied row (a :: as) now)) :
    FitsColumns (setXp row a now) := by
  have hsum := sum_nonneg_of_pos has
  have hcols := (setXp_current row a now).xpColumns_applied as
  have hnn' := hnn.setXp ha now
  simp only [xpColumns, Prod.mk.injEq] at hcols
  obtain ⟨⟨hall, hweek, hmonth, hday⟩, -⟩ := hcols
  rw [applied, List.foldl_cons] at h
  rw [applied] at hall hweek hmonth hday
  rw [FitsColumns, hall, hweek, hmonth, hday] at h
  obtain ⟨h1, h2, h3, h4⟩ := hnn'
  unfold IsInt4 at h
  unfold FitsColumns IsInt4
  omega

/-! ## The events one by one -/

def EachFits (t : UserRanking) (events : List ValidXpEvent) (now : Int) : Prop :=
  ∀ e ∈ events, IsInt4 e.amount ∧
    FitsColumns (applied (startRow t e.userId now) (amounts events e.userId) now)

theorem amounts_cons (e : ValidXpEvent) (es : List ValidXpEvent) (u : String) :
    amounts (e :: es) u = if e.userId = u then e.amount :: amounts es u else amounts es u := by
  unfold amounts
  by_cases hu : e.userId = u
  · simp [hu]
  · simp [hu]

theorem amounts_pos {events : List ValidXpEvent} : ∀ a ∈ amounts events u, 0 < a := by
  intro a ha
  obtain ⟨e, -, rfl⟩ := List.mem_map.mp ha
  exact e.amount_pos

theorem amounts_eq_nil_iff {events : List ValidXpEvent} :
    amounts events u = [] ↔ ∀ e ∈ events, e.userId ≠ u := by
  simp [amounts, List.filter_eq_nil_iff]

theorem exists_of_amounts_ne_nil {events : List ValidXpEvent} (h : amounts events u ≠ []) :
    ∃ e ∈ events, e.userId = u := by
  by_contra hno
  exact h (amounts_eq_nil_iff.mpr fun e he hu => hno ⟨e, he, hu⟩)

theorem amounts_ne_nil {events : List ValidXpEvent} (he : e ∈ events) :
    amounts events e.userId ≠ [] := by
  intro hnil
  exact amounts_eq_nil_iff.mp hnil e he rfl

theorem startRow_nonNeg {t : UserRanking} (hc : ChecksHold t) (u : String) (now : Int) :
    NonNeg (startRow t u now) := by
  unfold startRow
  cases hrow : t.find? u with
  | none => exact ⟨Int.le_refl 0, Int.le_refl 0, Int.le_refl 0, Int.le_refl 0⟩
  | some row => exact hc row (mem_of_find? hrow)

structure FirstApplied (t t' : UserRanking) (e : ValidXpEvent) (now : Int) : Prop where
  self : t'.find? e.userId = some (setXp (startRow t e.userId now) e.amount now)
  other : ∀ u, u ≠ e.userId → t'.find? u = t.find? u

theorem xpStep_at (t : UserRanking) (e : ValidXpEvent) (now : Int) :
    if IsInt4 e.amount ∧ FitsColumns (setXp (startRow t e.userId now) e.amount now) then
      ∃ t', xpStep t (e.at now) = some t' ∧ FirstApplied t t' e now
    else xpStep t (e.at now) = none := by
  have hspec := xpStep_spec t (e.at now)
  change if IsInt4 e.amount ∧ FitsColumns (setXp (startRow t e.userId now) e.amount now) then _
    else _ at hspec
  split at hspec
  next hfit =>
    obtain ⟨t', hstep, hself, hother⟩ := hspec
    rw [if_pos hfit]
    exact ⟨t', hstep, hself, hother⟩
  next hfit =>
    rw [if_neg hfit]
    exact hspec

theorem FirstApplied.checksHold {t : UserRanking} {now : Int} (h : FirstApplied t t' e now)
    (hc : ChecksHold t) : ChecksHold t' := by
  intro row hmem
  have hfind : t'.find? row.userId = some row := find?_of_mem hmem
  by_cases hu : row.userId = e.userId
  · rw [hu, h.self, Option.some.injEq] at hfind
    have hnn := (startRow_nonNeg hc e.userId now).setXp e.amount_pos now
    rw [hfind] at hnn
    exact hnn
  · rw [h.other _ hu] at hfind
    exact hc row (mem_of_find? hfind)

theorem FirstApplied.applied_startRow {t : UserRanking} {now : Int} (h : FirstApplied t t' e now)
    (es : List ValidXpEvent) (u : String) :
    applied (startRow t' u now) (amounts es u) now =
      applied (startRow t u now) (amounts (e :: es) u) now := by
  rw [amounts_cons]
  by_cases hu : e.userId = u
  · subst hu
    rw [if_pos rfl, startRow, h.self, getD_some, applied, applied, List.foldl_cons]
  · rw [if_neg hu, startRow, h.other u fun he => hu he.symm, startRow]

theorem FirstApplied.eachFits_iff {t : UserRanking} {now : Int} (h : FirstApplied t t' e now)
    (hfit : IsInt4 e.amount ∧ FitsColumns (setXp (startRow t e.userId now) e.amount now))
    (es : List ValidXpEvent) : EachFits t (e :: es) now ↔ EachFits t' es now := by
  constructor
  · intro hall f hf
    obtain ⟨hint, hcols⟩ := hall f (List.mem_cons_of_mem e hf)
    rw [h.applied_startRow]
    exact ⟨hint, hcols⟩
  · intro hall f hf
    rcases List.mem_cons.mp hf with rfl | hf
    · refine ⟨hfit.1, ?_⟩
      by_cases hagain : ∃ g ∈ es, g.userId = f.userId
      · obtain ⟨g, hg, hu⟩ := hagain
        have hcols := (hall g hg).2
        rw [h.applied_startRow, hu] at hcols
        exact hcols
      · -- its user has no other event, so this total is the last one
        have hnil : amounts es f.userId = [] :=
          amounts_eq_nil_iff.mpr fun g hg hu => hagain ⟨g, hg, hu⟩
        rw [amounts_cons, if_pos rfl, hnil]
        exact hfit.2
    · obtain ⟨hint, hcols⟩ := hall f hf
      rw [h.applied_startRow] at hcols
      exact ⟨hint, hcols⟩

/-- **`_updateXpCore` event by event** goes through exactly when every total fits, and then leaves
each user named with the row its amounts lead to. -/
theorem updateXpEach_spec (t : UserRanking) (hc : ChecksHold t) (events : List ValidXpEvent)
    (now : Int) :
    (EachFits t events now → ∃ t', updateXpEach t events now = some t' ∧
      ∀ u, t'.find? u = if amounts events u = [] then t.find? u
        else some (applied (startRow t u now) (amounts events u) now)) ∧
    (¬ EachFits t events now → updateXpEach t events now = none) := by
  induction events generalizing t with
  | nil =>
    refine ⟨fun _ => ⟨t, rfl, fun u => rfl⟩, ?_⟩
    intro hfit
    exact absurd (fun e he => by cases he) hfit
  | cons e es ih =>
    have hstep := xpStep_at t e now
    rw [updateXpEach, List.map_cons, exec_cons]
    split at hstep
    next hfit =>
      obtain ⟨t₁, ht₁, hfirst⟩ := hstep
      obtain ⟨hgo, hstop⟩ := ih t₁ (hfirst.checksHold hc)
      rw [ht₁, Option.bind_some, hfirst.eachFits_iff hfit]
      refine ⟨?_, hstop⟩
      intro hall
      obtain ⟨t', ht', hrows⟩ := hgo hall
      refine ⟨t', ht', ?_⟩
      intro u
      rw [hrows u, hfirst.applied_startRow, amounts_cons]
      by_cases hu : e.userId = u
      · subst hu
        rw [if_pos rfl, if_neg (List.cons_ne_nil _ _)]
        split
        next hnil => rw [hfirst.self, hnil]; rfl
        · rfl
      · rw [if_neg hu, hfirst.other u fun he => hu he.symm]
    next hfit =>
      rw [hstep, Option.bind_none]
      refine ⟨?_, fun _ => rfl⟩
      intro hall
      obtain ⟨hint, hcols⟩ := hall e List.mem_cons_self
      rw [amounts_cons, if_pos rfl] at hcols
      exact absurd ⟨hint, fitsColumns_setXp_of_applied (startRow_nonNeg hc e.userId now)
        e.amount_pos amounts_pos hcols⟩ hfit

/-! ## The batch -/

theorem picked_eq_none_iff {pick : String → Nat} {events : List ValidXpEvent} :
    picked pick events u = none ↔ amounts events u = [] := by
  unfold picked
  rw [List.getElem?_eq_none_iff]
  constructor
  · intro hle
    cases hlist : amounts events u with
    | nil => rfl
    | cons a as =>
      have hlt := Nat.mod_lt (pick u) (List.length_pos_iff.mpr (hlist ▸ List.cons_ne_nil a as))
      omega
  · intro hnil
    rw [hnil]
    exact Nat.zero_le _

theorem mem_of_picked {pick : String → Nat} {events : List ValidXpEvent}
    (h : picked pick events u = some a) : a ∈ amounts events u :=
  List.mem_of_getElem? h

theorem find?_batch {pick : String → Nat} {t : UserRanking} {events : List ValidXpEvent} {now : Int}
    (h : processXpEventsBatch pick t events now = some t') (u : String) :
    t'.find? u = (t.find? u).map (batchRow pick events now) := by
  unfold processXpEventsBatch at h
  split at h
  next hempty =>
    cases h
    rw [List.isEmpty_iff] at hempty
    subst hempty
    have hid : batchRow pick [] now = id := by
      funext row
      simp [batchRow, picked, amounts]
    rw [hid, Option.map_id, id]
  · split at h
    · cases h
      exact find?_update t u
    · cases h

theorem find?_batch_of_unnamed {pick : String → Nat} {t : UserRanking} {events : List ValidXpEvent}
    {now : Int} (h : processXpEventsBatch pick t events now = some t')
    (hnil : amounts events u = []) : t'.find? u = t.find? u := by
  rw [find?_batch h]
  cases hrow : t.find? u with
  | none => rfl
  | some row =>
    have hkey : row.userId = u := key_of_find? hrow
    rw [map_some, batchRow, hkey, picked_eq_none_iff.mpr hnil]

theorem batch_eq_none_iff {pick : String → Nat} {t : UserRanking} {events : List ValidXpEvent}
    {now : Int} :
    processXpEventsBatch pick t events now = none ↔ ¬ BatchFits pick t events now := by
  unfold processXpEventsBatch
  split
  next hempty =>
    rw [List.isEmpty_iff] at hempty
    subst hempty
    refine iff_of_false (some_ne_none t) ?_
    intro hfit
    exact hfit fun row _ amount hmem => by simp [picked, amounts] at hmem
  · split
    next hfit => exact iff_of_false (some_ne_none _) (fun hn => hn hfit)
    next hfit => exact iff_of_true rfl hfit

theorem lt_batchRow_allTimeXp (pick : String → Nat) {events : List ValidXpEvent} (now : Int)
    (h : amounts events row.userId ≠ []) :
    row.allTimeXp < (batchRow pick events now row).allTimeXp := by
  unfold batchRow
  cases hp : picked pick events row.userId with
  | none => exact absurd (picked_eq_none_iff.mp hp) h
  | some a =>
    have hpos := amounts_pos a (mem_of_picked hp)
    simp only [batchSet]
    omega

/-! ## When they agree -/

/-- Every user named has one event, and a row none of whose periods has turned over. -/
def OnceAndCurrent (t : UserRanking) (events : List ValidXpEvent) (now : Int) : Prop :=
  ∀ e ∈ events, amounts events e.userId = [e.amount] ∧
    ∃ row, t.find? e.userId = some row ∧ Current row now

def NoRows (t : UserRanking) (events : List ValidXpEvent) : Prop :=
  ∀ e ∈ events, t.find? e.userId = none

theorem le_sum_of_mem (hpos : ∀ b ∈ as, 0 < b) (ha : a ∈ as) : a ≤ as.sum := by
  obtain ⟨l, r, rfl⟩ := List.append_of_mem ha
  have hl := sum_nonneg_of_pos fun b hb => hpos b (List.mem_append_left _ hb)
  have hr := sum_nonneg_of_pos fun b hb => hpos b (List.mem_append_right _ (.tail a hb))
  rw [List.sum_append, List.sum_cons]
  omega

theorem eq_singleton_of_sum_eq (hpos : ∀ b ∈ as, 0 < b) (ha : a ∈ as) (hsum : as.sum = a) :
    as = [a] := by
  obtain ⟨l, r, rfl⟩ := List.append_of_mem ha
  have hl := sum_nonneg_of_pos fun b hb => hpos b (List.mem_append_left _ hb)
  have hr := sum_nonneg_of_pos fun b hb => hpos b (List.mem_append_right _ (.tail a hb))
  rw [List.sum_append, List.sum_cons] at hsum
  have hnil : ∀ {bs : List Int}, (∀ b ∈ bs, 0 < b) → bs.sum = 0 → bs = [] := by
    intro bs hbs hzero
    refine List.eq_nil_iff_forall_not_mem.mpr ?_
    intro b hb
    have hpos := hbs b hb
    have hle := le_sum_of_mem hbs hb
    omega
  rw [hnil (fun b hb => hpos b (List.mem_append_left _ hb)) (by omega),
    hnil (fun b hb => hpos b (List.mem_append_right _ (.tail a hb))) (by omega)]
  rfl

theorem picked_of_singleton {pick : String → Nat} {events : List ValidXpEvent}
    (h : amounts events u = [a]) : picked pick events u = some a := by
  simp [picked, h, Nat.mod_one]

theorem OnceAndCurrent.xpColumns_batchRow {t : UserRanking} {events : List ValidXpEvent} {now : Int}
    (h : OnceAndCurrent t events now) (pick : String → Nat) (he : e ∈ events)
    (hrow : t.find? e.userId = some row) :
    batchRow pick events now row = batchSet row e.amount now ∧
      xpColumns (batchSet row e.amount now) =
        xpColumns (applied (startRow t e.userId now) (amounts events e.userId) now) := by
  obtain ⟨hone, row', hrow', hcur⟩ := h e he
  rw [hrow, Option.some.injEq] at hrow'
  subst hrow'
  have hkey : row.userId = e.userId := key_of_find? hrow
  refine ⟨?_, ?_⟩
  · rw [batchRow, hkey, picked_of_singleton hone]
  · rw [hcur.xpColumns_batchSet, startRow, hrow, hone]
    rfl

/-- Where both apply every event once, one of them overflows a column exactly when the other
does. -/
theorem OnceAndCurrent.eachFits_iff {t : UserRanking} (hc : ChecksHold t)
    {events : List ValidXpEvent} {now : Int} (h : OnceAndCurrent t events now)
    (pick : String → Nat) : EachFits t events now ↔ BatchFits pick t events now := by
  constructor
  · intro hall row hmem amount hpicked
    obtain ⟨e, he, hu⟩ := exists_of_amounts_ne_nil (List.ne_nil_of_mem (mem_of_picked hpicked))
    have hrow : t.find? e.userId = some row := hu ▸ find?_of_mem hmem
    obtain ⟨-, hcols⟩ := h.xpColumns_batchRow pick he hrow
    rw [← hu, picked_of_singleton (h e he).1, Option.mem_some] at hpicked
    rw [← hpicked]
    exact (fitsColumns_congr hcols).mpr (hall e he).2
  · intro hbatch e he
    obtain ⟨hone, row, hrow, -⟩ := h e he
    obtain ⟨-, hcols⟩ := h.xpColumns_batchRow pick he hrow
    have hkey : row.userId = e.userId := key_of_find? hrow
    have hfit := hbatch row (mem_of_find? hrow) e.amount
      (hkey ▸ picked_of_singleton hone)
    refine ⟨?_, (fitsColumns_congr hcols).mp hfit⟩
    -- the amount is at most the total it leads to
    have hall := (hc row (mem_of_find? hrow)).allTime
    have hpos := e.amount_pos
    have htotal : row.allTimeXp + e.amount ≤ 2147483647 := hfit.1.2
    unfold IsInt4
    omega

/-- If the batch and the single events leave the same columns of a user named, it has one event and
a current row. -/
theorem onceAndCurrent_of_same (pick : String → Nat) {t b : UserRanking}
    {events : List ValidXpEvent} {now : Int} (he : e ∈ events)
    (hb : b = t ∨ processXpEventsBatch pick t events now = some b)
    (hsame : (b.find? e.userId).map xpColumns = some (xpColumns (applied
      (startRow t e.userId now) (amounts events e.userId) now))) :
    amounts events e.userId = [e.amount] ∧
      ∃ row, t.find? e.userId = some row ∧ Current row now := by
  have hmem : e.amount ∈ amounts events e.userId :=
    List.mem_map_of_mem (List.mem_filter.mpr ⟨he, by simp⟩)
  have hpos : ∀ a ∈ amounts events e.userId, 0 < a := amounts_pos
  have hsum : 0 < (amounts events e.userId).sum :=
    Int.lt_of_lt_of_le e.amount_pos (le_sum_of_mem hpos hmem)
  have htotal := applied_allTimeXp (startRow t e.userId now) (amounts events e.userId) now
  cases hrow : t.find? e.userId with
  | none =>
    -- a user without a row has none after the batch either
    rcases hb with rfl | hb
    · rw [hrow] at hsame
      cases hsame
    · rw [find?_batch hb, hrow] at hsame
      cases hsame
  | some row =>
    have hstart : startRow t e.userId now = row := by rw [startRow, hrow]; rfl
    have hkey : row.userId = e.userId := key_of_find? hrow
    rw [hstart] at hsame htotal
    rcases hb with rfl | hb
    · -- the batch failed: the total has not moved
      rw [hrow, map_some, Option.some.injEq] at hsame
      have hall := allTimeXp_of_xpColumns hsame
      omega
    · rw [find?_batch hb, hrow, map_some, map_some, Option.some.injEq, batchRow,
        hkey] at hsame
      cases hp : picked pick events e.userId with
      | none => exact absurd (picked_eq_none_iff.mp hp) (amounts_ne_nil he)
      | some a =>
        rw [hp] at hsame
        have hall : row.allTimeXp + a = _ := allTimeXp_of_xpColumns hsame
        have hone := eq_singleton_of_sum_eq hpos (mem_of_picked hp) (by omega)
        rw [hone, List.mem_singleton] at hmem
        rw [hone] at hsame
        refine ⟨by rw [hone, hmem], row, rfl, ?_⟩
        exact current_of_xpColumns_batchSet (hpos a (mem_of_picked hp)) hsame

section Agreement

variable {pick : String → Nat} {t : UserRanking} {events : List ValidXpEvent} {now : Int}

theorem same_iff_of_eachFits (hc : ChecksHold t) (hfit : EachFits t events now) :
    SameXp ((processXpEventsBatch pick t events now).getD t)
      ((updateXpEach t events now).getD t) ↔ OnceAndCurrent t events now := by
  obtain ⟨t', ht', hrows⟩ := (updateXpEach_spec t hc events now).1 hfit
  rw [ht', getD_some]
  constructor
  · intro hsame e he
    have hu := hsame e.userId
    rw [hrows, if_neg (amounts_ne_nil he), map_some] at hu
    cases hb : processXpEventsBatch pick t events now with
    | none =>
      rw [hb, getD_none] at hu
      exact onceAndCurrent_of_same pick he (.inl rfl) hu
    | some b =>
      rw [hb, getD_some] at hu
      exact onceAndCurrent_of_same pick he (.inr hb) hu
  · intro honce
    have hbatch := (honce.eachFits_iff hc pick).mp hfit
    cases hb : processXpEventsBatch pick t events now with
    | none => exact absurd hbatch (batch_eq_none_iff.mp hb)
    | some b =>
      intro u
      rw [getD_some, hrows]
      by_cases hnil : amounts events u = []
      · rw [if_pos hnil, find?_batch_of_unnamed hb hnil]
      · obtain ⟨e, he, rfl⟩ := exists_of_amounts_ne_nil hnil
        obtain ⟨-, row, hrow, -⟩ := honce e he
        obtain ⟨hset, hcols⟩ := honce.xpColumns_batchRow pick he hrow
        rw [if_neg hnil, find?_batch hb, hrow, map_some, map_some, map_some,
          hset, hcols]

/-- Single events that fail leave the table alone; so does the batch if it fails or finds no row. -/
theorem same_iff_of_not_eachFits (hc : ChecksHold t) (hfit : ¬ EachFits t events now) :
    SameXp ((processXpEventsBatch pick t events now).getD t)
      ((updateXpEach t events now).getD t) ↔
      ¬ BatchFits pick t events now ∨ NoRows t events := by
  rw [(updateXpEach_spec t hc events now).2 hfit, getD_none]
  constructor
  · intro hsame
    cases hb : processXpEventsBatch pick t events now with
    | none => exact .inl (batch_eq_none_iff.mp hb)
    | some b =>
      refine .inr ?_
      intro e he
      cases hrow : t.find? e.userId with
      | none => rfl
      | some row =>
        have hkey : row.userId = e.userId := key_of_find? hrow
        have hu := hsame e.userId
        rw [hb, getD_some, find?_batch hb, hrow, map_some, map_some,
          map_some, Option.some.injEq] at hu
        have hall := allTimeXp_of_xpColumns hu
        have hnamed : amounts events row.userId ≠ [] := hkey ▸ amounts_ne_nil he
        have hlt := lt_batchRow_allTimeXp pick now hnamed
        omega
  · intro hcond
    cases hb : processXpEventsBatch pick t events now with
    | none => exact fun u => rfl
    | some b =>
      intro u
      rw [getD_some]
      rcases hcond with hno | hnorows
      · rw [batch_eq_none_iff.mpr hno] at hb
        cases hb
      · by_cases hnil : amounts events u = []
        · rw [find?_batch_of_unnamed hb hnil]
        · obtain ⟨e, he, rfl⟩ := exists_of_amounts_ne_nil hnil
          rw [find?_batch hb, hnorows e he]
          rfl

end Agreement

/-- **The batch against one by one, exactly.** Whichever of several matching source rows the
executor applies, the batch leaves every user's counters and clocks as the events one after the
other do, if and only if every user named has one event and a row whose periods are current — or
the single events fail on a total out of range, and the batch changes nothing either because it
fails too or because no user named has a row. -/
theorem batch_same_iff (pick : String → Nat) (t : UserRanking) (hc : ChecksHold t)
    (events : List ValidXpEvent) (now : Int) :
    SameXp ((processXpEventsBatch pick t events now).getD t) ((updateXpEach t events now).getD t) ↔
      OnceAndCurrent t events now ∨
        (¬ EachFits t events now ∧ (¬ BatchFits pick t events now ∨ NoRows t events)) := by
  by_cases hfit : EachFits t events now
  · rw [same_iff_of_eachFits hc hfit]
    refine (or_iff_left ?_).symm
    rintro ⟨hnot, -⟩
    exact hnot hfit
  · rw [same_iff_of_not_eachFits hc hfit, and_iff_right hfit]
    refine (or_iff_right_of_imp ?_).symm
    intro honce
    exact .inl fun hbatch => hfit ((honce.eachFits_iff hc pick).mpr hbatch)

/-- One user, with fifty XP earned on the day of `now = 0`. -/
def fiftyToday : UserRanking :=
  { rows :=
      [{ userId := "01900000-0000-7000-8000-000000000001"
         allTimeXp := 50, weeklyXp := 50, monthlyXp := 50, dailyXp := 50
         lastWeeklyResetAt := some (dateTruncWeek 0), lastMonthlyResetAt := some (dateTruncMonth 0)
         lastDailyResetAt := some (dateTruncDay 0)
         lastActivityAt := some 0, updatedAt := 0, isDirty := false }]
    nodup := by decide }

def earn (amount : Int) (h : 0 < amount) : ValidXpEvent :=
  { userId := "01900000-0000-7000-8000-000000000001", amount, userId_ne := by decide
    amount_pos := h }

theorem checksHold_fiftyToday : ChecksHold fiftyToday := by
  intro row hmem
  rw [fiftyToday, List.mem_singleton] at hmem
  subst hmem
  exact ⟨by decide, by decide, by decide, by decide⟩

theorem batch_same_for_one_event :
    SameXp ((processXpEventsBatch (fun _ => 0) fiftyToday [earn 10 (by decide)] 60000).getD
        fiftyToday)
      ((updateXpEach fiftyToday [earn 10 (by decide)] 60000).getD fiftyToday) := by
  refine (batch_same_iff (fun _ => 0) fiftyToday checksHold_fiftyToday _ 60000).mpr (.inl ?_)
  intro e he
  rw [List.mem_singleton] at he
  subst he
  exact ⟨rfl, _, rfl, by decide, by decide, by decide⟩

/-- Of two events for one user the batch applies one: 60 XP where one by one there are 65. -/
theorem batch_drops_second_event :
    ¬ SameXp ((processXpEventsBatch (fun _ => 0) fiftyToday
        [earn 10 (by decide), earn 5 (by decide)] 60000).getD fiftyToday)
      ((updateXpEach fiftyToday [earn 10 (by decide), earn 5 (by decide)] 60000).getD
        fiftyToday) := by
  intro hsame
  have hcols := hsame "01900000-0000-7000-8000-000000000001"
  revert hcols
  decide +kernel

end QuizBackend.Ranking
