import QuizBackend.Attempt.Requests

/-!
# What a step can do

Every result about the attempt module is about whole runs, and every one of them looks at the
database after a step. So that no such proof opens the request programs again, this module says
once what a step can commit and what it must have checked before (`Licensed`), and what each write
does to the attempts (`find?_apply_open`, `find?_apply_close`, `quizAttempts_apply`).
-/

namespace QuizBackend.Attempt

open Lib Outbox Request State

/-! ## Writes and the attempts -/

def Write.closes : Write → Option Uuid
  | .abandonAttempt _ p => some p.attemptId
  | .completeAttempt _ p => some p.attemptId
  | _ => none

def Write.closed : Write → AttemptRow → AttemptRow
  | .abandonAttempt _ p => setAbandoned p.nowIso
  | .completeAttempt _ p => setCompleted p
  | _ => id

def Write.opens : Write → Option AttemptRow
  | .createAttempt attemptId p => some (p.row attemptId)
  | .startRoundAttempt d p => some (p.start.row d.id)
  | _ => none

/-- A new attempt has a new id. -/
def Write.Fresh (db : Db) (w : Write) : Prop :=
  ∀ row, w.opens = some row → db.quizAttempts.find? row.attemptId = none

section Attempts

variable {db : Db} {w : Write} {row : AttemptRow} {a b : Uuid}

theorem Write.opens_status (h : w.opens = some row) : row.status = .started := by
  cases w <;> cases h <;> rfl

theorem insert?_apply_open (ho : w.opens = some row)
    (hf : db.quizAttempts.find? row.attemptId = none) :
    db.quizAttempts.insert? row = some (db.apply w).quizAttempts := by
  obtain ⟨t, ht⟩ := Table.insert?_isSome hf
  cases w with
  | createAttempt attemptId p =>
    cases ho
    simp [Db.apply, Db.createAttempt, ht]
  | startRoundAttempt d p =>
    cases ho
    simp [Db.apply, Db.startRoundAttemptTx, Db.createAttempt, ht]
  | _ => cases ho

theorem find?_apply_open (ho : w.opens = some row)
    (hf : db.quizAttempts.find? row.attemptId = none) (b : Uuid) :
    (db.apply w).quizAttempts.find? b
      = if row.attemptId = b then some row else db.quizAttempts.find? b :=
  Table.find?_insert? (insert?_apply_open ho hf) b

theorem Write.closed_attemptId (w : Write) (row : AttemptRow) :
    (w.closed row).attemptId = row.attemptId := by
  cases w <;> rfl

theorem quizAttempts_apply_close (hc : w.closes = some a) :
    (db.apply w).quizAttempts = db.quizAttempts.modify a w.closed w.closed_attemptId := by
  cases w <;> cases hc <;> rfl

theorem find?_apply_close (hc : w.closes = some a) (b : Uuid) :
    (db.apply w).quizAttempts.find? b
      = if b = a then (db.quizAttempts.find? a).map w.closed else db.quizAttempts.find? b := by
  rw [quizAttempts_apply_close hc, Table.find?_modify]

theorem quizAttempts_apply (ho : w.opens = none) (hc : w.closes = none) :
    (db.apply w).quizAttempts = db.quizAttempts := by
  cases w with
  | createAttempt | startRoundAttempt => cases ho
  | abandonAttempt | completeAttempt => cases hc
  | _ => rfl

theorem find?_apply_of_ne (hf : w.Fresh db) (hc : w.closes ≠ some a)
    (h : db.quizAttempts.find? a = some row) : (db.apply w).quizAttempts.find? a = some row := by
  cases ho : w.opens with
  | some new =>
    have hne : new.attemptId ≠ a := by
      rintro rfl
      rw [hf new ho] at h
      cases h
    rw [find?_apply_open ho (hf new ho), if_neg hne, h]
  | none =>
    cases hb : w.closes with
    | none => rw [quizAttempts_apply ho hb, h]
    | some b =>
      have hne : a ≠ b := by
        rintro rfl
        exact hc hb
      rw [find?_apply_close hb, if_neg hne, h]

end Attempts

def Db.status (db : Db) (a : Uuid) : Option AttemptStatus :=
  (db.quizAttempts.find? a).map (·.status)

def Db.owner (db : Db) (a : Uuid) : Option (Uuid × Uuid) :=
  (db.quizAttempts.find? a).map fun row => (row.userId, row.quizVersionId)

section Columns

variable {db : Db} {w : Write} {a : Uuid}

theorem status_apply_of_ne {st : AttemptStatus} (hf : w.Fresh db) (hc : w.closes ≠ some a)
    (h : db.status a = some st) : (db.apply w).status a = some st := by
  obtain ⟨row, hrow, rfl⟩ := Option.map_eq_some_iff.mp h
  rw [Db.status, find?_apply_of_ne hf hc hrow, Option.map_some]

theorem owner_apply {o : Uuid × Uuid} (hf : w.Fresh db) (h : db.owner a = some o) :
    (db.apply w).owner a = some o := by
  obtain ⟨row, hrow, rfl⟩ := Option.map_eq_some_iff.mp h
  by_cases hc : w.closes = some a
  · rw [Db.owner, find?_apply_close hc, if_pos rfl, hrow]
    cases w <;> rfl
  · rw [Db.owner, find?_apply_of_ne hf hc hrow, Option.map_some]

end Columns

/-! ## What a step must have checked -/

inductive Licensed (cat : Catalog) (s : State) : Action → Write → List DomainEvent → Prop
  | nothing (a : Action) : Licensed cat s a .nothing []
  | createAttempt {i : Nat} {d : Drawn} {p : StartParams}
      (request : s.requests[i]? = some (.startInsert p))
      (fresh : s.db.quizAttempts.find? d.id = none) :
      Licensed cat s (.advance i d) (.createAttempt d.id p) []
  | startRoundAttempt {i : Nat} {d : Drawn} {p : RoundParams}
      (request : s.requests[i]? = some (.startRound p))
      (fresh : s.db.quizAttempts.find? d.id = none) :
      Licensed cat s (.advance i d) (.startRoundAttempt d p) []
  | submitAnswer {i : Nat} {d : Drawn} {p : AnswerParams}
      (request : s.requests[i]? = some (.submitInsert p))
      (free : s.db.quizAttemptAnswers.find? (p.attemptId, p.questionId) = none) :
      Licensed cat s (.advance i d) (.submitAnswer d p) []
  | deleteAnswer {i : Nat} {d : Drawn} {attemptId questionId : Uuid}
      (request : s.requests[i]? = some (.withdrawDelete attemptId questionId)) :
      Licensed cat s (.advance i d) (.deleteAnswer attemptId questionId) []
  | abandonAttempt {i : Nat} {d : Drawn} {p : AbandonParams}
      (request : s.requests[i]? = some (.abandonCommit p)) :
      Licensed cat s (.advance i d) (.abandonAttempt d p) []
  | completeAttempt {i : Nat} {d : Drawn} {p : CompletionParams} {n : Nat}
      (request : s.requests[i]? = some (.completeCommit p n))
      (fresh : s.db.outboxEvents.find? d.eventId = none) :
      Licensed cat s (.advance i d) (.completeAttempt d p) (completionEvents p n)
  | writeBack (eventId : String) (c : DeliveryColumns) :
      Licensed cat s (.writeBack eventId c) (.writeBack eventId c) []

variable {d : Drawn} {es : List DomainEvent}

section Steps

variable {cat : Catalog} {s s' : State} {a : Action}

theorem next_licensed {i : Nat} {r : Request} {g : Progress} (hr : s.requests[i]? = some r)
    (h : r.next cat s.db s.locked d = some g) :
    Licensed cat s (.advance i d) g.write g.emitted := by
  cases r with
  | start | submit | withdraw | abandon | complete | completeScore | completeTx =>
    simp only [next, Option.some.injEq] at h
    subst h
    exact .nothing _
  | startInsert p =>
    simp only [next] at h
    split at h
    · cases h
    · rename_i hfree
      split at h <;> cases h
      · exact .createAttempt hr (by simpa using hfree)
      · exact .nothing _
  | startRound p =>
    simp only [next] at h
    split at h
    · cases h; exact .nothing _
    · split at h
      · cases h
      · rename_i hfree
        split at h <;> cases h
        · exact .startRoundAttempt hr (by simpa using hfree)
        · exact .nothing _
  | submitTx p =>
    simp only [next] at h
    split at h
    · split at h <;> cases h <;> exact .nothing _
    · cases h; exact .nothing _
  | submitInsert p =>
    simp only [next] at h
    split at h
    · cases h; exact .nothing _
    · split at h
      · cases h; exact .nothing _
      · rename_i hfree
        cases h
        exact .submitAnswer hr (by simpa using hfree)
  | withdrawFind attemptId questionId =>
    simp only [next] at h
    split at h <;> cases h <;> exact .nothing _
  | withdrawDelete attemptId questionId =>
    simp only [next, Option.some.injEq] at h
    subst h
    exact .deleteAnswer hr
  | abandonTx p =>
    simp only [next] at h
    split at h
    · cases h
    · split at h
      · split at h <;> cases h <;> exact .nothing _
      · cases h; exact .nothing _
  | abandonCommit p =>
    simp only [next, Option.some.injEq] at h
    subst h
    exact .abandonAttempt hr
  | completeUpdate p n =>
    simp only [next] at h
    split at h
    · cases h; exact .nothing _
    · split at h
      · cases h
      · split at h
        · split at h <;> cases h <;> exact .nothing _
        · cases h; exact .nothing _
  | completeCommit p n =>
    simp only [next] at h
    split at h
    · cases h
    · rename_i hfree
      cases h
      exact .completeAttempt hr (by simpa using hfree)
  | done => cases h
  | failed e => cases h

/-- **What a step can do** to the database and to the events. -/
theorem step_licensed (h : step cat s a = some s') :
    s'.db = s.db.apply (s.writes cat a) ∧
      ∃ es, s'.emitted = s.emitted ++ es ∧ Licensed cat s a (s.writes cat a) es := by
  obtain ⟨o, ho, rfl⟩ := Option.map_eq_some_iff.mp h
  have hw : s.writes cat a = o.write := by rw [writes, ho]
  rw [hw]
  refine ⟨rfl, o.emitted, rfl, ?_⟩
  cases a with
  | arrive r =>
    simp only [outcome] at ho
    split at ho <;> cases ho
    exact .nothing _
  | advance i d =>
    simp only [outcome] at ho
    split at ho
    · rename_i r hr
      split at ho <;> cases ho
      rename_i g hg
      exact next_licensed hr hg
    · cases ho
  | abort i =>
    simp only [outcome] at ho
    split at ho
    · split at ho <;> cases ho
      exact .nothing _
    · cases ho
  | writeBack eventId c =>
    simp only [outcome, Option.some.injEq] at ho
    subst ho
    exact .writeBack eventId c

theorem Licensed.fresh {w : Write} (h : Licensed cat s a w es) : w.Fresh s.db := by
  intro row ho
  cases h with
  | createAttempt _ fresh => cases ho; exact fresh
  | startRoundAttempt _ fresh => cases ho; exact fresh
  | _ => cases ho

theorem Licensed.locks {w : Write} {b : Uuid} (h : Licensed cat s a w es) (hc : w.closes = some b) :
    ∃ i d r, a = .advance i d ∧ s.requests[i]? = some r ∧ r.locks = some b := by
  cases h with
  | abandonAttempt request => exact ⟨_, _, _, rfl, request, hc⟩
  | completeAttempt request => exact ⟨_, _, _, rfl, request, hc⟩
  | _ => cases hc

/-- The completion, with the count its transaction has read, that the action is about to commit. -/
def Request.completion : Request → Option (CompletionParams × Nat)
  | .completeCommit p n => some (p, n)
  | _ => none

def State.commits (s : State) : Action → Option (CompletionParams × Nat)
  | .advance i _ => (s.requests[i]?).bind completion
  | _ => none

theorem commits_eq_some_iff {c : CompletionParams × Nat} :
    s.commits a = some c ↔
      ∃ i d, a = .advance i d ∧ s.requests[i]? = some (.completeCommit c.1 c.2) := by
  constructor
  · intro h
    cases a with
    | advance i d =>
      obtain ⟨r, hr, hc⟩ := Option.bind_eq_some_iff.mp h
      cases r with
      | completeCommit p n => cases hc; exact ⟨i, d, rfl, hr⟩
      | _ => cases hc
    | _ => cases h
  · rintro ⟨i, d, rfl, hr⟩
    simp [commits, hr, completion]

theorem step_commit {i n : Nat} {p : CompletionParams}
    (hr : s.requests[i]? = some (.completeCommit p n)) (h : step cat s (.advance i d) = some s') :
    s'.db = s.db.apply (.completeAttempt d p) ∧ s'.emitted = s.emitted ++ completionEvents p n := by
  obtain ⟨o, ho, rfl⟩ := Option.map_eq_some_iff.mp h
  simp only [outcome, hr, next] at ho
  split at ho
  · rename_i g hg
    split at hg <;> cases hg
    cases ho
    exact ⟨rfl, rfl⟩
  · cases ho

theorem Licensed.no_commit {w : Write} (h : Licensed cat s a w es) (hc : s.commits a = none) :
    es = [] ∧ ∀ d p, w ≠ .completeAttempt d p := by
  cases h with
  | completeAttempt request =>
    rw [commits_eq_some_iff (c := (_, _)) |>.mpr ⟨_, _, rfl, request⟩] at hc
    cases hc
  | _ =>
    refine ⟨rfl, ?_⟩
    intro d p hw
    cases hw

theorem next_done {db : Db} {locked : Uuid → Bool} {r : Request} {g : Progress}
    (h : r.next cat db locked d = some g) (hw : g.write ≠ .nothing) : g.request = .done := by
  cases r <;> simp only [next] at h <;> (repeat' split at h) <;>
    cases h <;> first | rfl | exact absurd rfl hw

end Steps

end QuizBackend.Attempt
