import QuizBackend.Attempt.Invariant

/-!
# An attempt ends once

The status of an attempt is guarded by the `WHERE status = 'started'` of two `UPDATE` statements;
everything a completion does elsewhere (the audit row, the statistics of the quiz, the XP event)
hangs on that guard alone, because the checks of the service before it read rows that others may
change. `Accounted` says what the guard is worth: in every state a run can reach, the three other
tables record each completed attempt exactly once and nothing else. `attempt_terminality` adds that
an attempt that has ended keeps its row for ever, and that a request that does not get through
leaves no trace.
-/

namespace QuizBackend.Attempt

open Lib Outbox Table State

/-! ## The four tables -/

/-- The `'attempt.completed'` audit rows of an attempt. -/
def Db.auditRows (db : Db) (a : Uuid) : Nat :=
  db.quizAttemptEvents.countP fun row => row.attemptId = a ∧ row.event.isCompleted

/-- `quiz_stats.total_attempts` of a quiz; 0 without a row. -/
def Db.totalAttempts (db : Db) (quizId : Uuid) : Nat :=
  ((db.quizStats.find? quizId).map (·.totalAttempts)).getD 0

/-- The outbox row is an `'attempt.xp_to_publish'` of this attempt. -/
def isXpRowOf (a : Uuid) (row : OutboxRow) : Bool :=
  row.aggregateType = "attempt" ∧ row.eventType = "attempt.xp_to_publish" ∧
    row.field "attemptId" = some (.str a.text)

def Db.xpRows (db : Db) (a : Uuid) : Nat := db.outboxEvents.rows.countP (isXpRowOf a)

def Db.completedOn (db : Db) (cat : Catalog) (quizId : Uuid) : Nat :=
  db.quizAttempts.rows.countP fun row =>
    row.status = .completed ∧ (cat.version row.quizVersionId).map (·.quizId) = some quizId

/-- Audit row, statistics and XP row are there once for each completion. -/
structure Accounted (cat : Catalog) (db : Db) : Prop where
  audit : ∀ a, db.auditRows a = if db.status a = some .completed then 1 else 0
  stats : ∀ quizId, db.totalAttempts quizId = db.completedOn cat quizId
  xp : ∀ a, db.xpRows a = if (db.completedRow a).any (0 < ·.xpEarned) then 1 else 0

def KeysCompleted (db : Db) : Prop :=
  ∀ row ∈ db.outboxEvents.rows, ∃ userId a,
    row.idempotencyKey = some (xpIdempotencyKey userId a) ∧ (db.completedRow a).isSome

variable {row : AttemptRow}

section Tables

variable {db : Db} {w : Write} {d : Drawn} {p : CompletionParams}

theorem status_completed_iff (db : Db) (a : Uuid) :
    db.status a = some .completed ↔ (db.completedRow a).isSome := by
  cases h : db.quizAttempts.find? a with
  | none => simp [Db.status, Db.completedRow, h]
  | some row =>
    by_cases hc : row.status = .completed <;>
      simp [Db.status, Db.completedRow, h, hc, Option.filter_some]

theorem completedRow_of_started {a : Uuid} (hrow : db.quizAttempts.find? a = some row)
    (hst : row.status = .started) : db.completedRow a = none := by
  simp [Db.completedRow, hrow, hst, Option.filter_some]

theorem auditRows_apply (db : Db) (w : Write) (a : Uuid) :
    (db.apply w).auditRows a = db.auditRows a + if w.completes = some a then 1 else 0 := by
  cases w with
  | submitAnswer d p =>
    simp [Db.auditRows, Db.apply, Db.submitAnswer, Write.completes, AttemptEvent.isCompleted]
  | abandonAttempt d p =>
    simp [Db.auditRows, Db.apply, Db.abandonAttempt, Write.completes, AttemptEvent.isCompleted]
  | completeAttempt d p =>
    simp [Db.auditRows, Db.apply, Db.completeAttemptAndSideEffects, Write.completes,
      AttemptEvent.isCompleted, List.countP_singleton]
  | _ => rfl

theorem find?_upsertQuizStats (stats : Table Uuid QuizStatsRow QuizStatsRow.quizId)
    (p : CompletionParams) (quizId : Uuid) :
    (((upsertQuizStats stats p).find? quizId).map (·.totalAttempts)).getD 0
      = ((stats.find? quizId).map (·.totalAttempts)).getD 0
        + if p.quizId = quizId then 1 else 0 := by
  unfold upsertQuizStats
  split
  · rename_i inserted h
    have hfree := find?_of_insert? h
    rw [find?_insert? h]
    by_cases hq : p.quizId = quizId
    · subst hq
      simp [hfree]
    · simp [hq]
  · rename_i h
    obtain ⟨row, hrow⟩ := find?_of_insert?_none h
    rw [find?_modify]
    by_cases hq : p.quizId = quizId
    · subst hq
      simp [hrow, bumpStats]
    · rw [if_neg (Ne.symm hq), if_neg hq, Nat.add_zero]

theorem totalAttempts_apply_other (hw : w.completes = none) (quizId : Uuid) :
    (db.apply w).totalAttempts quizId = db.totalAttempts quizId := by
  cases w with
  | completeAttempt => cases hw
  | _ => rfl

/-! ## The outbox -/

theorem rows_insertEvent {events : OutboxEvents} {e : NewEvent}
    (hkey : keyTaken events e.idempotencyKey = false) (hid : events.find? e.eventId = none) :
    (insertEvent events e).rows = events.rows ++ [e.row] := by
  obtain ⟨t, ht⟩ := insert?_isSome (r := e.row) hid
  rw [insertEvent, hkey, ht]
  exact rows_of_insert? ht

theorem xpIdempotencyKey_injective {u v a b : Uuid}
    (h : xpIdempotencyKey u a = xpIdempotencyKey v b) : a = b :=
  Uuid.text_injective h

theorem KeysCompleted.keyTaken (h : KeysCompleted db) {userId a : Uuid}
    (ha : db.completedRow a = none) :
    keyTaken db.outboxEvents (some (xpIdempotencyKey userId a)) = false := by
  by_contra htaken
  simp only [Outbox.keyTaken, Bool.not_eq_false, List.any_eq_true, Bool.and_eq_true,
    beq_iff_eq] at htaken
  obtain ⟨row, hrow, -, hkey⟩ := htaken
  obtain ⟨v, b, hb, hcompleted⟩ := h row hrow
  rw [hkey, Option.some.injEq] at hb
  rw [← xpIdempotencyKey_injective hb, ha] at hcompleted
  cases hcompleted

theorem rows_publishXp (hkeys : KeysCompleted db) (hxp : XpKeyed p)
    (ha : db.completedRow p.attemptId = none) (hid : db.outboxEvents.find? d.eventId = none) :
    (0 < p.xpEarned ∧ ∃ correlationId, (publishXp db.outboxEvents d p).rows
        = db.outboxEvents.rows ++
          [(xpEvent d p ⟨xpIdempotencyKey p.userId p.attemptId, correlationId⟩).row]) ∨
      (¬ 0 < p.xpEarned ∧ publishXp db.outboxEvents d p = db.outboxEvents) := by
  by_cases hpos : 0 < p.xpEarned
  · obtain ⟨correlationId, hout⟩ := hxp hpos
    refine .inl ⟨hpos, correlationId, ?_⟩
    rw [publishXp, hout]
    simp only [hpos, if_true]
    exact rows_insertEvent (hkeys.keyTaken ha) hid
  · refine .inr ⟨hpos, ?_⟩
    rw [publishXp]
    split
    · rw [if_neg hpos]
    · rfl

end Tables

/-! ## One step -/

section Steps

variable {cat : Catalog} {s s' : State} {a : Action} {w : Write} {es : List DomainEvent}

theorem xpRows_apply_other {db : Db} (hw : w.completes = none) (b : Uuid) :
    (db.apply w).xpRows b = db.xpRows b := by
  cases w with
  | completeAttempt => cases hw
  | writeBack eventId c =>
    show (db.outboxEvents.modify eventId c.set c.set_eventId).rows.countP (isXpRowOf b) = _
    exact countP_modify_of_eq _ _ fun _ => rfl
  | _ => rfl

theorem Accounted.apply_other (hacc : Accounted cat s.db) (hinv : Inv cat s)
    (hlic : Licensed cat s a w es) (hw : w.completes = none) : Accounted cat (s.db.apply w) := by
  have hrow := hinv.completedRow_apply hlic hw
  refine ⟨?_, ?_, ?_⟩
  · intro b
    simp only [auditRows_apply, hacc.audit b, status_completed_iff, hrow b, hw, reduceCtorEq,
      if_false, Nat.add_zero]
  · intro quizId
    rw [totalAttempts_apply_other hw, hacc.stats quizId]
    exact (hinv.countP_apply hlic hw fun row hq => (of_decide_eq_true hq).1).symm
  · intro b
    rw [xpRows_apply_other hw, hacc.xp b, hrow b]

theorem KeysCompleted.apply_other (hkeys : KeysCompleted s.db) (hinv : Inv cat s)
    (hlic : Licensed cat s a w es) (hw : w.completes = none) :
    KeysCompleted (s.db.apply w) := by
  intro row hmem
  have hold : ∃ old ∈ s.db.outboxEvents.rows, old.idempotencyKey = row.idempotencyKey := by
    cases w with
    | completeAttempt => cases hw
    | writeBack eventId c =>
      have hmem : row ∈ (s.db.outboxEvents.modify eventId c.set c.set_eventId).rows := hmem
      obtain ⟨old, hold, rfl⟩ := mem_modify.mp hmem
      refine ⟨old, hold, ?_⟩
      split <;> rfl
    | _ => exact ⟨row, hmem, rfl⟩
  obtain ⟨old, hmem, hkey⟩ := hold
  obtain ⟨userId, b, hb, hcompleted⟩ := hkeys old hmem
  exact ⟨userId, b, by rw [← hkey, hb], by rw [hinv.completedRow_apply hlic hw]; exact hcompleted⟩

theorem isXpRowOf_xpEvent (d : Drawn) (p : CompletionParams) (xp : XpOutbox) (b : Uuid) :
    isXpRowOf b (xpEvent d p xp).row = decide (p.attemptId = b) := by
  simp [isXpRowOf, OutboxRow.field, NewEvent.row, xpEvent, List.lookup_cons, Uuid.text_inj]

theorem totalAttempts_complete (db : Db) (d : Drawn) (p : CompletionParams) (quizId : Uuid) :
    (db.apply (.completeAttempt d p)).totalAttempts quizId
      = db.totalAttempts quizId + if p.quizId = quizId then 1 else 0 := by
  simp only [Db.totalAttempts, Db.apply, Db.completeAttemptAndSideEffects]
  exact find?_upsertQuizStats db.quizStats p quizId

theorem completedOn_complete {db : Db} {d : Drawn} {p : CompletionParams} {quizId : Uuid}
    (hquiz : (cat.version row.quizVersionId).map (·.quizId) = some p.quizId)
    (hrow : db.quizAttempts.find? p.attemptId = some row) (hst : row.status = .started) :
    (db.apply (.completeAttempt d p)).completedOn cat quizId
      = db.completedOn cat quizId + if p.quizId = quizId then 1 else 0 := by
  rw [Db.completedOn, countP_complete (fun row hq => (of_decide_eq_true hq).1) hrow hst,
    Db.completedOn]
  simp [setCompleted, hquiz]

theorem xpRows_complete {db : Db} {d : Drawn} {p : CompletionParams} {b : Uuid}
    (hkeys : KeysCompleted db) (hxp : XpKeyed p) (hnone : db.completedRow p.attemptId = none)
    (hid : db.outboxEvents.find? d.eventId = none) :
    (db.apply (.completeAttempt d p)).xpRows b
      = db.xpRows b + if 0 < p.xpEarned ∧ p.attemptId = b then 1 else 0 := by
  show (publishXp db.outboxEvents d p).rows.countP (isXpRowOf b) = _
  rcases rows_publishXp hkeys hxp hnone hid with ⟨hpos, c, h⟩ | ⟨hpos, h⟩
  · rw [h, List.countP_append, List.countP_singleton, isXpRowOf_xpEvent]
    simp [hpos, Db.xpRows]
  · rw [h]
    simp [hpos, Db.xpRows]

theorem Accounted.apply_complete {d : Drawn} {p : CompletionParams} (hacc : Accounted cat s.db)
    (hkeys : KeysCompleted s.db) (hrow : s.db.quizAttempts.find? p.attemptId = some row)
    (hst : row.status = .started)
    (hquiz : (cat.version row.quizVersionId).map (·.quizId) = some p.quizId) (hxp : XpKeyed p)
    (hid : s.db.outboxEvents.find? d.eventId = none) :
    Accounted cat (s.db.apply (.completeAttempt d p)) := by
  have hnone := completedRow_of_started hrow hst
  refine ⟨?_, ?_, ?_⟩
  · intro b
    rw [auditRows_apply, hacc.audit b]
    simp only [status_completed_iff, completedRow_complete hrow, Write.completes,
      Option.some.injEq]
    by_cases hb : b = p.attemptId
    · subst hb
      simp [hnone]
    · simp [hb, Ne.symm hb]
  · intro quizId
    rw [totalAttempts_complete, completedOn_complete hquiz hrow hst, hacc.stats quizId]
  · intro b
    rw [completedRow_complete hrow, xpRows_complete hkeys hxp hnone hid, hacc.xp b]
    by_cases hb : b = p.attemptId
    · subst hb
      simp [hnone, setCompleted]
    · simp [hb, Ne.symm hb]

theorem KeysCompleted.apply_complete {d : Drawn} {p : CompletionParams} (hkeys : KeysCompleted s.db)
    (hrow : s.db.quizAttempts.find? p.attemptId = some row) (hst : row.status = .started)
    (hxp : XpKeyed p) (hid : s.db.outboxEvents.find? d.eventId = none) :
    KeysCompleted (s.db.apply (.completeAttempt d p)) := by
  have hstill : ∀ b, (s.db.completedRow b).isSome →
      ((s.db.apply (.completeAttempt d p)).completedRow b).isSome := by
    intro b hb
    rw [completedRow_complete hrow]
    split
    · rfl
    · exact hb
  intro r hmem
  have hmem : r ∈ (publishXp s.db.outboxEvents d p).rows := hmem
  have hfrom : r ∈ s.db.outboxEvents.rows ∨
      r.idempotencyKey = some (xpIdempotencyKey p.userId p.attemptId) := by
    rcases rows_publishXp hkeys hxp (completedRow_of_started hrow hst) hid with
      ⟨-, c, h⟩ | ⟨-, h⟩
    · rw [h, List.mem_append, List.mem_singleton] at hmem
      rcases hmem with hold | rfl
      · exact .inl hold
      · exact .inr rfl
    · rw [h] at hmem
      exact .inl hmem
  rcases hfrom with hold | hkey
  · obtain ⟨u, b, hb, hc⟩ := hkeys r hold
    exact ⟨u, b, hb, hstill b hc⟩
  · refine ⟨p.userId, p.attemptId, hkey, ?_⟩
    rw [completedRow_complete hrow, if_pos rfl]
    rfl

theorem accounted_step (h : step cat s a = some s')
    (hi : Inv cat s ∧ Accounted cat s.db ∧ KeysCompleted s.db) :
    Inv cat s' ∧ Accounted cat s'.db ∧ KeysCompleted s'.db := by
  obtain ⟨hinv, hacc, hkeys⟩ := hi
  obtain ⟨hdb, es, -, hlic⟩ := step_licensed h
  refine ⟨hinv.next h, ?_⟩
  rw [hdb]
  generalize s.writes cat a = w at hlic
  cases hw : w.completes with
  | none => exact ⟨hacc.apply_other hinv hlic hw, hkeys.apply_other hinv hlic hw⟩
  | some b =>
    cases hlic with
    | completeAttempt request fresh =>
      obtain ⟨row, hrow, hst, -, hquiz, hxp⟩ := hinv.completing request
      exact ⟨hacc.apply_complete hkeys hrow hst hquiz hxp fresh,
        hkeys.apply_complete hrow hst hxp fresh⟩
    | _ => cases hw

def Action.request : Action → Option Nat
  | .advance i _ => some i
  | .abort i => some i
  | _ => none

theorem db_of_not_done {i : Nat} (h : step cat s a = some s') (ha : a.request = some i)
    (hi : s'.requests[i]? ≠ some .done) : s'.db = s.db := by
  obtain ⟨o, ho, rfl⟩ := Option.map_eq_some_iff.mp h
  cases a with
  | arrive | writeBack => cases ha
  | abort j =>
    simp only [outcome] at ho
    split at ho
    · split at ho <;> cases ho
      rfl
    · cases ho
  | advance j d =>
    cases ha
    simp only [outcome] at ho
    split at ho
    · rename_i r hr
      split at ho <;> cases ho
      rename_i g hg
      by_cases hw : g.write = .nothing
      · rw [hw]
        rfl
      · have hlt := (List.getElem?_eq_some_iff.mp hr).1
        exact absurd (by rw [List.getElem?_set_self hlt, next_done hg hw]) hi
    · cases ho

theorem step_of_isOver {i : Nat} {r : Request} (hr : s.requests[i]? = some r)
    (hover : r.isOver = true) (ha : a.request = some i) : step cat s a = none := by
  cases a with
  | arrive | writeBack => cases ha
  | abort j =>
    cases ha
    simp [step, outcome, hr, hover]
  | advance j d =>
    cases ha
    cases r with
    | done => simp [step, outcome, hr, Request.next]
    | failed e => simp [step, outcome, hr, Request.next]
    | _ => cases hover

end Steps

/-! ## Whole runs -/

section Runs

variable (cat : Catalog) (users : Table Uuid Streak.UserRow Streak.UserRow.userId)
  (roundParticipants : Table (Uuid × Uuid) RoundParticipantRow RoundParticipantRow.key)

theorem accounted_initial : Accounted cat (initial users roundParticipants).db :=
  ⟨fun _ => rfl, fun _ => rfl, fun _ => rfl⟩

theorem keysCompleted_initial : KeysCompleted (initial users roundParticipants).db := by
  intro row hrow
  cases hrow

/-- **An attempt ends once.** In every run of any requests from a database without attempts:
each completed attempt has one `'attempt.completed'` audit row, counts once in the statistics of
its quiz, and has an XP event exactly when it earned XP (`Accounted`); the row of an attempt that
has left `started` at any point of the run is the one it has at its end; and whenever a request
takes a step that does not end it well — as every step of a request that loses a race is — no table
changes, a request that is over taking no step at all. -/
theorem attempt_terminality (as : List Action) (s : State)
    (h : exec (step cat) (State.initial users roundParticipants) as = some s) :
    Accounted cat s.db ∧
    (∀ pre t a row, pre <+: as →
      exec (step cat) (State.initial users roundParticipants) pre = some t →
      t.db.quizAttempts.find? a = some row → row.status ≠ .started →
      s.db.quizAttempts.find? a = some row) ∧
    (∀ a i s', a.request = some i → step cat s a = some s' →
      (∀ r, s.requests[i]? = some r → r.isOver = false) ∧
      (s'.requests[i]? ≠ some .done → s'.db = s.db)) := by
  have hrun := exec_invariant
    (I := fun s => Inv cat s ∧ Accounted cat s.db ∧ KeysCompleted s.db)
    (fun _ _ _ hi hs => accounted_step hs hi) h
    ⟨Inv.initial cat _ _, accounted_initial cat users roundParticipants,
      keysCompleted_initial users roundParticipants⟩
  refine ⟨hrun.2.1, ?_, ?_⟩
  · rintro pre t a row ⟨suf, rfl⟩ ht hrow hst
    rw [exec_append, ht, Option.bind_some] at h
    -- from the moment it is terminal on, the row stays
    have hstay := exec_invariant
      (I := fun s => Inv cat s ∧ s.db.quizAttempts.find? a = some row)
      (fun _ _ _ hi hs => ⟨hi.1.next hs, hi.1.terminal hs hi.2 hst⟩) h ⟨Inv.run ht, hrow⟩
    exact hstay.2
  · intro a i s' ha hs
    refine ⟨?_, db_of_not_done hs ha⟩
    intro r hr
    by_contra hover
    rw [step_of_isOver hr (by simpa using hover) ha] at hs
    cases hs

end Runs

/-- The player answers right; then an admin and the player complete the attempt while the player
also abandons it. All three have read it as `started`, and the admin's `UPDATE` is the first. -/
def threeEndings : List Action :=
  Action.arrive (.start 1 player .solo none 0) :: runs 0 2 0 ++
  Action.arrive (.submit player ⟨attemptNo 0, 3, some 4, 5, none⟩) :: runs 1 3 1 ++
  [Action.arrive (.complete (attemptNo 0) ⟨8, .admin⟩ 10), .arrive (.complete (attemptNo 0) player 11),
    .arrive (.abandon (attemptNo 0) player 12)] ++
  runs 2 3 2 ++ runs 3 3 3 ++ runs 4 1 4 ++ runs 2 2 2 ++ runs 3 1 3 ++ runs 4 1 4

theorem attempt_terminality_of_three_endings : ∃ s,
    exec (step oneQuiz) lobby threeEndings = some s ∧
      s.requests.drop 2 = [.done, .failed (.notActive attemptNotStartedOrFinishedMessage),
        .failed (.notFound attemptNotFoundMessage)] ∧
      s.db.auditRows (attemptNo 0) = 1 ∧ s.db.totalAttempts 1 = 1 ∧
      s.db.xpRows (attemptNo 0) = 1 := by
  refine exists_of_read
    (fun s => (s.requests.drop 2, s.db.status (attemptNo 0), s.db.completedOn oneQuiz 1,
      (s.db.completedRow (attemptNo 0)).any (0 < ·.xpEarned)))
    ([.done, .failed (.notActive attemptNotStartedOrFinishedMessage),
      .failed (.notFound attemptNotFoundMessage)], some .completed, 1, true)
    (by decide +kernel) fun s hs hread => ?_
  simp only [Prod.mk.injEq] at hread
  obtain ⟨hrequests, hstatus, hon, hxp⟩ := hread
  obtain ⟨hacc, -⟩ := attempt_terminality oneQuiz _ _ threeEndings s hs
  refine ⟨hrequests, ?_, ?_, ?_⟩
  · rw [hacc.audit, if_pos hstatus]
  · rw [hacc.stats, hon]
  · rw [hacc.xp, if_pos hxp]

end QuizBackend.Attempt
