import QuizBackend.Ranking.AtMostOnce

/-!
# The announcement of XP (`ranking-outbox.adapter.ts`)

`applyXpEvent` updates the counters and schedules an `xp.added` event in one transaction, so that
the two are there together or not at all. The insert is `ON CONFLICT (idempotency_key) DO NOTHING`,
and the index behind it is one for all aggregates: every unprocessed row keeps its key, whatever it
announces. The completion of an attempt has written its `attempt.xp_to_publish` row under the very
key the XP event has. As long as that row has not been processed, and for ever if it has been
dead-lettered, the counters are updated and the announcement is dropped.

Nothing else can go wrong, so the announcements of a run are complete exactly when every transaction
that commits finds its key free.
-/

namespace QuizBackend.Ranking

open Lib Outbox

/-! ## The property and its condition -/

/-- The row says what the event has added. -/
structure Announces (event : ExternalXpEarnedEvent) (totals : UserRankingRow) (row : OutboxRow) :
    Prop where
  aggregateType : row.aggregateType = "ranking"
  eventType : row.eventType = "xp.added"
  userId : row.field "userId" = some (.str event.userId)
  amount : row.field "amount" = some (.num event.amount)
  newAllTimeXp : row.field "newAllTimeXp" = some (.num totals.allTimeXp)
  newWeeklyXp : row.field "newWeeklyXp" = some (.num totals.weeklyXp)
  newMonthlyXp : row.field "newMonthlyXp" = some (.num totals.monthlyXp)
  newDailyXp : row.field "newDailyXp" = some (.num totals.dailyXp)

/-- A transaction that has committed has inserted one outbox row, and it announces the totals the
transaction has written. -/
def XpAnnounced (s : XpSystem) (a : XpAction) (s' : XpSystem) : Prop :=
  match a with
  | .transact i _ _ _ => ∀ d ∈ s.deliveries[i]?, s'.credits = s.credits ++ [d.event] →
    ∃ row totals, s'.ranking.find? d.event.userId = some totals ∧
      s'.outbox.events.rows = s.outbox.events.rows ++ [row] ∧ Announces d.event totals row
  | _ => True

/-- No unprocessed row holds the key. -/
def KeyFree (s : XpSystem) : XpAction → Prop
  | .transact i now _ fails => ∀ d ∈ s.deliveries[i]?, fails = false →
    (xpStep s.ranking ⟨d.event.userId, d.event.amount, now⟩).isSome →
      keyTaken s.outbox.events (some d.event.idempotencyKey) = false
  | _ => True

/-! ## The transaction -/

section Transaction

variable {ranking ranking' : UserRanking} {events events' : OutboxEvents}
  {event : ExternalXpEarnedEvent} {now : Int} {drawn : XpDrawn} {fails : Bool}

theorem announces_xpAddedEvent (event : ExternalXpEarnedEvent) (totals : UserRankingRow) (now : Int)
    (drawn : XpDrawn) : Announces event totals (xpAddedEvent event totals now drawn).row := by
  constructor <;> rfl

theorem applyXpEvent_isOk_iff :
    (∃ x, applyXpEvent ranking events event now drawn fails = .ok x) ↔
      fails = false ∧ (xpStep ranking ⟨event.userId, event.amount, now⟩).isSome := by
  unfold applyXpEvent xpStep
  cases fails with
  | true =>
    constructor
    · rintro ⟨x, hx⟩
      cases hx
    · rintro ⟨h, -⟩
      cases h
  | false =>
    cases h : updateXpCore ranking ⟨event.userId, event.amount, now⟩ with
    | error e =>
      constructor
      · rintro ⟨x, hx⟩
        cases hx
      · rintro ⟨-, hsome⟩
        cases hsome
    | ok x =>
      constructor
      · intro _
        exact ⟨rfl, rfl⟩
      · intro _
        exact ⟨_, rfl⟩

theorem insertEvent_of_taken {e : NewEvent} (h : keyTaken events e.idempotencyKey = true) :
    insertEvent events e = events := by
  unfold insertEvent
  rw [if_pos h]

theorem rows_insertEvent_of_free {e : NewEvent} (h : keyTaken events e.idempotencyKey = false)
    (hid : events.find? e.eventId = none) : (insertEvent events e).rows = events.rows ++ [e.row] := by
  obtain ⟨t, ht⟩ := Table.insert?_isSome (t := events) (r := e.row) hid
  unfold insertEvent
  rw [if_neg (by rw [h]; decide), ht, Option.getD_some]
  exact Table.rows_of_insert? ht

theorem announced_iff (hid : events.find? drawn.eventId = none)
    (h : applyXpEvent ranking events event now drawn fails = .ok (ranking', events')) :
    (∃ row totals, ranking'.find? event.userId = some totals ∧
        events'.rows = events.rows ++ [row] ∧ Announces event totals row) ↔
      keyTaken events (some event.idempotencyKey) = false := by
  obtain ⟨totals, htotals, -, rfl⟩ := applyXpEvent_ok h
  constructor
  · rintro ⟨row, -, -, hrows, -⟩
    cases htaken : keyTaken events (some event.idempotencyKey) with
    | false => rfl
    | true =>
      have hsame := insertEvent_of_taken (e := xpAddedEvent event totals now drawn) htaken
      have hlength := congrArg List.length hrows
      rw [hsame, List.length_append] at hlength
      simp at hlength
  · intro hfree
    refine ⟨_, totals, htotals, rows_insertEvent_of_free ?_ hid, announces_xpAddedEvent ..⟩
    exact hfree

end Transaction

/-! ## Every run -/

theorem keyFree_iff {config : OutboxConfig} {s s' : XpSystem} {a : XpAction}
    (h : s.step config a = some s') : KeyFree s a ↔ XpAnnounced s a s' := by
  rcases XpSystem.step_cases h with ⟨hbackground, -⟩ | ⟨i, reply, d, rfl, -⟩ |
    ⟨i, now, drawn, fails, d, rfl, hd, -, hid, ⟨ranking, events, happly, rfl⟩ | ⟨e, happly, rfl⟩⟩ |
    ⟨i, reply, d, rfl, -⟩
  · cases a with
    | complete | outbox | deliver => exact Iff.rfl
    | claim | transact | release => exact hbackground.elim
  · exact Iff.rfl
  · have hannounced := announced_iff hid happly
    obtain ⟨hfails, hfits⟩ := applyXpEvent_isOk_iff.mp ⟨_, happly⟩
    constructor
    · intro hfree x hx _
      rw [hd, Option.mem_some_iff] at hx
      subst hx
      exact hannounced.mpr (hfree d hd hfails hfits)
    · intro hrow x hx _ _
      rw [hd, Option.mem_some_iff] at hx
      subst hx
      exact hannounced.mp (hrow d hd rfl)
  · -- a transaction that has thrown has nothing to announce
    constructor
    · intro _ x _ hcredits
      have hlength := congrArg List.length hcredits
      simp at hlength
    · intro _ x hx hfails hfits
      rw [hd, Option.mem_some_iff] at hx
      subst hx
      obtain ⟨y, hy⟩ := applyXpEvent_isOk_iff.mpr ⟨hfails, hfits⟩
      rw [happly] at hy
      cases hy
  · exact Iff.rfl

/-- **Every applied XP event leaves its `xp.added` row exactly when its key is free.** From any
state, along any run: each committed transaction inserts one row that announces the totals it has
written if and only if each finds no unprocessed outbox row under its key. -/
theorem xp_announced_iff_keys_free (config : OutboxConfig) (start s : XpSystem)
    (acts : List XpAction) (h : exec (XpSystem.step config) start acts = some s) :
    EachStep (XpSystem.step config) XpAnnounced start acts ↔
      Along (XpSystem.step config) KeyFree start acts :=
  along_iff_eachStep (I := fun _ => True) (fun _ _ _ _ _ => trivial)
    (fun _ _ _ _ hstep => keyFree_iff hstep) h trivial

instance (s : XpSystem) (a : XpAction) : Decidable (KeyFree s a) :=
  match a with
  | .transact i now _ fails => inferInstanceAs (Decidable (∀ d ∈ s.deliveries[i]?, fails = false →
      (xpStep s.ranking ⟨d.event.userId, d.event.amount, now⟩).isSome →
        keyTaken s.outbox.events (some d.event.idempotencyKey) = false))
  | .complete .. => .isTrue trivial
  | .outbox .. => .isTrue trivial
  | .deliver .. => .isTrue trivial
  | .claim .. => .isTrue trivial
  | .release .. => .isTrue trivial

/-- Both deliveries of an event whose outbox row is gone. -/
theorem xp_announced_iff_keys_free_delivered :
    (∃ s, exec (XpSystem.step plainConfig) XpSystem.start (bothDeliveries .answered) = some s) ∧
      EachStep (XpSystem.step plainConfig) XpAnnounced XpSystem.start (bothDeliveries .answered) := by
  obtain ⟨s, hs⟩ : ∃ s, exec (XpSystem.step plainConfig) XpSystem.start (bothDeliveries .answered)
      = some s := Option.isSome_iff_exists.mp (by decide +kernel)
  refine ⟨⟨s, hs⟩, ?_⟩
  refine (xp_announced_iff_keys_free plainConfig XpSystem.start s (bothDeliveries .answered) hs).mpr ?_
  decide +kernel

def fiftyXpCompletion : Attempt.CompletionParams :=
  { attemptId := 11, scorePercent := 10000, correctCount := 5, timeTakenMs := 60000, xpEarned := 50,
    nowIso := 0, quizId := 21, userId := 1,
    xpOutbox := some ⟨Attempt.xpIdempotencyKey 1 11, "c1"⟩, quizVersionId := 31, totalAnswers := 5 }

def completionDrawn : Attempt.Drawn := ⟨41, 42, "e0", "c1", 0⟩

/-- An attempt is completed, and its event is processed inside the process before the outbox
processor has come round. -/
def completedAndDelivered : List XpAction :=
  [.complete completionDrawn fiftyXpCompletion, .deliver fiftyXp .inProc, .claim 0 .answered]

/-- The transaction that follows commits fifty XP and leaves the outbox as it was. -/
theorem xp_added_row_dropped :
    ∃ s s', exec (XpSystem.step plainConfig) XpSystem.start completedAndDelivered = some s ∧
      s.step plainConfig (.transact 0 1 ⟨"e1", 1⟩ false) = some s' ∧ s'.credits = [fiftyXp] ∧
      s'.outbox.events.rows.map (·.eventType) = ["attempt.xp_to_publish"] ∧
      ¬ XpAnnounced s (.transact 0 1 ⟨"e1", 1⟩ false) s' := by
  obtain ⟨s', hs', hread'⟩ : ∃ s', exec (XpSystem.step plainConfig) XpSystem.start
      (completedAndDelivered ++ [.transact 0 1 ⟨"e1", 1⟩ false]) = some s' ∧
      (s'.credits, s'.outbox.events.rows.map (·.eventType))
        = ([fiftyXp], ["attempt.xp_to_publish"]) := Option.map_eq_some_iff.mp (by decide +kernel)
  obtain ⟨s, hs, hread⟩ : ∃ s, exec (XpSystem.step plainConfig) XpSystem.start completedAndDelivered
      = some s ∧ (s.credits, s.deliveries, s.outbox.events.rows.length)
        = ([], [⟨fiftyXp, .inProc, .claimed⟩], 1) := Option.map_eq_some_iff.mp (by decide +kernel)
  simp only [Prod.mk.injEq] at hread hread'
  obtain ⟨hcredits', htypes⟩ := hread'
  obtain ⟨hcredits, hdeliveries, hlength⟩ := hread
  obtain ⟨m, hm, hs'⟩ := exec_snoc.mp hs'
  rw [hs, Option.some.injEq] at hm
  subst hm
  refine ⟨s, s', hs, hs', hcredits', htypes, ?_⟩
  intro hannounced
  obtain ⟨row, totals, -, hrows, -⟩ := hannounced ⟨fiftyXp, .inProc, .claimed⟩
    (by rw [hdeliveries]; rfl) (by rw [hcredits', hcredits]; rfl)
  have hlength' := congrArg List.length htypes
  rw [List.length_map, hrows, List.length_append, hlength] at hlength'
  simp at hlength'

end QuizBackend.Ranking
