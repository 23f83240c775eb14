import QuizBackend.Attempt.Effects

/-!
# What holds of the requests

The invariant of the attempt module's runs (`Inv`), whatever requests they are made of:

* no two requests hold the row lock of one attempt;
* an attempt whose row is locked is still `started`;
* a request that is completing an attempt has its user, version and quiz right, and the key of
  its XP event is the attempt's own.

From it follows that an attempt is closed once (`Inv.terminal`) and what each write does to the
completed attempts and to every count of them.
-/

namespace QuizBackend.Attempt

open Lib Outbox Request State Db
open Option (some.injEq)

/-! ## Knowledge and locks -/

/-- The attempt exists, with this user and version, and the version is of this quiz. -/
def Identifies (cat : Catalog) (db : Db) (attemptId userId quizVersionId quizId : Uuid) : Prop :=
  db.owner attemptId = some (userId, quizVersionId) ∧
    (cat.version quizVersionId).map (·.quizId) = some quizId

def XpKeyed (p : CompletionParams) : Prop :=
  0 < p.xpEarned → ∃ correlationId,
    p.xpOutbox = some ⟨xpIdempotencyKey p.userId p.attemptId, correlationId⟩

def RequestOk (cat : Catalog) (db : Db) : Request → Prop
  | .abandonCommit p => db.status p.attemptId = some .started
  | .completeScore detail _ =>
    Identifies cat db detail.attemptId detail.userId detail.quizVersionId detail.quizId
  | .completeTx p | .completeUpdate p _ =>
    Identifies cat db p.attemptId p.userId p.quizVersionId p.quizId ∧ XpKeyed p
  | .completeCommit p _ =>
    (Identifies cat db p.attemptId p.userId p.quizVersionId p.quizId ∧ XpKeyed p) ∧
      db.status p.attemptId = some .started
  | _ => True

/-- The points at which a request knows nothing of an attempt that has to stay true, and has no
lock. -/
def Request.plain : Request → Bool
  | .abandonCommit _ | .completeScore .. | .completeTx _ | .completeUpdate .. => false
  | .completeCommit .. => false
  | _ => true

/-- Locks exclude, and what requests know is true. -/
structure Inv (cat : Catalog) (s : State) : Prop where
  exclusive : ∀ (i j : Nat) (ri rj : Request) (b : Uuid), s.requests[i]? = some ri →
    s.requests[j]? = some rj → ri.locks = some b → rj.locks = some b → i = j
  ok : ∀ (i : Nat) (r : Request), s.requests[i]? = some r → RequestOk cat s.db r

variable {r : Request} {b attemptId : Uuid} {d : Drawn} {row : AttemptRow} {p : CompletionParams}

section Invariant

variable {cat : Catalog} {s s' : State} {a : Action}

theorem RequestOk.started {db : Db} (h : RequestOk cat db r) (hl : r.locks = some b) :
    db.status b = some .started := by
  cases r with
  | abandonCommit p => cases hl; exact h
  | completeCommit p n => cases hl; exact h.2
  | _ => cases hl

theorem Identifies.apply {db : Db} {w : Write} {userId quizVersionId quizId : Uuid}
    (hf : w.Fresh db) (h : Identifies cat db attemptId userId quizVersionId quizId) :
    Identifies cat (db.apply w) attemptId userId quizVersionId quizId :=
  ⟨owner_apply hf h.1, h.2⟩

/-- A write leaves what a request knows true, unless it closes the attempt the request has
locked. -/
theorem RequestOk.apply {db : Db} {w : Write} (hf : w.Fresh db)
    (hc : ∀ b, r.locks = some b → w.closes ≠ some b) (h : RequestOk cat db r) :
    RequestOk cat (db.apply w) r := by
  cases r with
  | abandonCommit p => exact status_apply_of_ne hf (hc _ rfl) h
  | completeScore detail now => exact Identifies.apply hf h
  | completeTx p => exact ⟨h.1.apply hf, h.2⟩
  | completeUpdate p n => exact ⟨h.1.apply hf, h.2⟩
  | completeCommit p n =>
    exact ⟨⟨h.1.1.apply hf, h.1.2⟩, status_apply_of_ne hf (hc _ rfl) h.2⟩
  | _ => trivial

theorem identifies_of_detail {db : Db} {detail : AttemptDetail}
    (h : getAttemptDetailById cat db attemptId = some detail) :
    Identifies cat db detail.attemptId detail.userId detail.quizVersionId detail.quizId := by
  simp only [getAttemptDetailById, Option.bind_eq_some_iff] at h
  obtain ⟨row, hrow, version, hversion, h⟩ := h
  split at h <;> cases h
  refine ⟨?_, by simp [hversion]⟩
  simp only [owner, Table.key_of_find? hrow, hrow, Option.map_some]

theorem detail_of_transition {db : Db} {user : JwtPayload} {st : AttemptStatus}
    {detail : AttemptDetail} (h : transitionOf cat db attemptId user st = .ok detail) :
    getAttemptDetailById cat db attemptId = some detail := by
  simp only [transitionOf] at h
  split at h
  · cases h
  · rename_i found hfound
    split at h
    · cases h
    · cases ht : assertAttemptTransition found.status st with
      | error e => rw [ht] at h; cases h
      | ok _ => rw [ht] at h; cases h; exact hfound

theorem xpKeyed_completionParams (detail : AttemptDetail) (scoring : ScoringData) (nowIso : Int)
    (correlationId : String) : XpKeyed (completionParams detail scoring nowIso correlationId) := by
  intro hpos
  exact ⟨correlationId, if_pos hpos⟩

/-- What a statement leaves of its request: true knowledge, and a row lock only where there was
none. -/
def Lawful (cat : Catalog) (db : Db) (locked : Uuid → Bool) (r : Request) : Prop :=
  RequestOk cat db r ∧ ∀ b, r.locks = some b → locked b = false

theorem Request.locks_of_plain (h : r.plain = true) : r.locks = none := by
  cases r with
  | abandonCommit | completeCommit => cases h
  | _ => rfl

theorem RequestOk.of_plain {db : Db} (h : r.plain = true) : RequestOk cat db r := by
  cases r with
  | abandonCommit | completeScore | completeTx | completeUpdate | completeCommit => cases h
  | _ => trivial

theorem Lawful.of_plain {db : Db} {locked : Uuid → Bool} (h : r.plain = true) :
    Lawful cat db locked r := by
  refine ⟨RequestOk.of_plain h, ?_⟩
  intro b hl
  rw [locks_of_plain h] at hl
  cases hl

theorem completeAttempt_lawful {db : Db} {locked : Uuid → Bool} {user : JwtPayload} {nowIso : Int} :
    Lawful cat db locked (completeAttempt cat db attemptId user nowIso) := by
  simp only [completeAttempt]
  split
  · exact .of_plain rfl
  · rename_i detail h
    refine ⟨identifies_of_detail (detail_of_transition h), ?_⟩
    intro b hl
    cases hl

theorem startAttempt_plain (db : Db) (quizId : Uuid) (user : JwtPayload)
    (contextType : AttemptContextType) (contextRefId : Option Uuid) (nowIso : Int) :
    (startAttempt cat db quizId user contextType contextRefId nowIso).plain = true := by
  unfold startAttempt
  repeat' split
  all_goals rfl

theorem submitAnswer_plain (db : Db) (user : JwtPayload) (p : AnswerParams) :
    (submitAnswer cat db user p).plain = true := by
  unfold submitAnswer
  repeat' split
  all_goals rfl

theorem withdrawAnswer_plain (db : Db) (attemptId questionId : Uuid) (user : JwtPayload) :
    (withdrawAnswer db attemptId questionId user).plain = true := by
  unfold withdrawAnswer
  split <;> rfl

theorem abandonAttempt_plain (db : Db) (attemptId : Uuid) (user : JwtPayload) (nowIso : Int) :
    (abandonAttempt cat db attemptId user nowIso).plain = true := by
  unfold abandonAttempt
  split <;> rfl

theorem next_lawful {db : Db} {locked : Uuid → Bool} {g : Progress}
    (h : r.next cat db locked d = some g) (hr : RequestOk cat db r) :
    Lawful cat db locked g.request := by
  cases r with
  | complete attemptId user nowIso =>
    simp only [next, some.injEq] at h
    subst h
    exact completeAttempt_lawful
  | completeScore detail nowIso =>
    simp only [next, some.injEq] at h
    subst h
    refine ⟨⟨hr, xpKeyed_completionParams _ _ _ _⟩, ?_⟩
    intro b hl
    cases hl
  | completeTx p =>
    simp only [next, some.injEq] at h
    subst h
    refine ⟨hr, ?_⟩
    intro b hl
    cases hl
  | completeUpdate p n =>
    simp only [next] at h
    split at h
    · cases h; exact .of_plain rfl
    split at h
    · cases h
    rename_i hfree
    split at h
    · rename_i attempt hfound
      split at h <;> cases h
      · rename_i hstarted
        refine ⟨⟨hr, by rw [status, hfound, Option.map_some, hstarted]⟩, ?_⟩
        rintro _ ⟨⟩
        simpa using hfree
      · exact .of_plain rfl
    · cases h; exact .of_plain rfl
  | abandonTx p =>
    simp only [next] at h
    split at h
    · cases h
    rename_i hfree
    split at h
    · rename_i attempt hfound
      split at h <;> cases h
      · rename_i hstarted
        refine ⟨?_, ?_⟩
        · show db.status p.attemptId = some .started
          rw [status, hfound, Option.map_some, hstarted.2]
        · rintro _ ⟨⟩
          simpa using hfree
      · exact .of_plain rfl
    · cases h; exact .of_plain rfl
  | start quizId user contextType contextRefId nowIso =>
    simp only [next, some.injEq] at h
    subst h
    exact .of_plain (startAttempt_plain _ _ _ _ _ _)
  | submit user p =>
    simp only [next, some.injEq] at h
    subst h
    exact .of_plain (submitAnswer_plain _ _ _)
  | withdraw attemptId questionId user =>
    simp only [next, some.injEq] at h
    subst h
    exact .of_plain (withdrawAnswer_plain _ _ _ _)
  | abandon attemptId user nowIso =>
    simp only [next, some.injEq] at h
    subst h
    exact .of_plain (abandonAttempt_plain _ _ _ _)
  | startInsert | startRound | submitTx | submitInsert | withdrawFind | withdrawDelete
  | abandonCommit | completeCommit =>
    simp only [next] at h
    (repeat' split at h) <;> cases h <;> exact .of_plain rfl
  | done => cases h
  | failed e => cases h

theorem Request.plain_of_isNew (h : r.isNew = true) : r.plain = true := by
  cases r with
  | start | startRound | submit | withdraw | abandon | complete => rfl
  | _ => cases h

/-- A request that knows nothing: it has just arrived, or the database has failed it. -/
def Request.Blank (r : Request) : Prop := r.isNew = true ∨ r = .failed .database

theorem Request.Blank.plain (h : r.Blank) : r.plain = true := by
  rcases h with hnew | rfl
  · exact plain_of_isNew hnew
  · rfl

/-- A request after a step: not the one that moved, one that knows nothing, or one that ran its
next statement. -/
theorem request_step (h : step cat s a = some s') {j : Nat} {r' : Request}
    (hj : s'.requests[j]? = some r') :
    (s.requests[j]? = some r' ∧ ∀ d, a ≠ .advance j d) ∨ r'.Blank ∨
      ∃ d r g, a = .advance j d ∧ s.requests[j]? = some r ∧
        r.next cat s.db s.locked d = some g ∧ s.writes cat a = g.write ∧ r' = g.request := by
  obtain ⟨o, ho, rfl⟩ := Option.map_eq_some_iff.mp h
  have hw : s.writes cat a = o.write := by rw [writes, ho]
  rw [hw]
  cases a with
  | arrive r =>
    simp only [outcome] at ho
    split at ho <;> cases ho
    rename_i hnew
    rcases Nat.lt_trichotomy j s.requests.length with hlt | rfl | hlt
    · left
      rw [List.getElem?_append_left hlt] at hj
      refine ⟨hj, ?_⟩
      intro d hd
      cases hd
    · right; left
      rw [List.getElem?_append_right (Nat.le_refl _)] at hj
      simp only [Nat.sub_self, List.getElem?_cons_zero, some.injEq] at hj
      exact .inl (hj ▸ hnew)
    · rw [List.getElem?_eq_none (by simp; omega)] at hj
      cases hj
  | advance i d =>
    simp only [outcome] at ho
    split at ho
    · rename_i r hr
      split at ho <;> cases ho
      rename_i g hg
      by_cases hij : i = j
      · subst hij
        right; right
        have hlt := (List.getElem?_eq_some_iff.mp hr).1
        rw [List.getElem?_set_self hlt, some.injEq] at hj
        exact ⟨d, r, g, rfl, hr, hg, rfl, hj.symm⟩
      · left
        rw [List.getElem?_set_ne hij] at hj
        refine ⟨hj, ?_⟩
        rintro d' ⟨⟩
        exact hij rfl
    · cases ho
  | abort i =>
    simp only [outcome] at ho
    split at ho
    · rename_i r hr
      split at ho <;> cases ho
      by_cases hij : i = j
      · subst hij
        right; left
        have hlt := (List.getElem?_eq_some_iff.mp hr).1
        rw [List.getElem?_set_self hlt, some.injEq] at hj
        exact .inr hj.symm
      · left
        rw [List.getElem?_set_ne hij] at hj
        refine ⟨hj, ?_⟩
        intro d hd
        cases hd
    · cases ho
  | writeBack eventId c =>
    simp only [outcome, some.injEq] at ho
    subst ho
    left
    refine ⟨hj, ?_⟩
    intro d hd
    cases hd

theorem Inv.initial (cat : Catalog) (users : Table Uuid Streak.UserRow Streak.UserRow.userId)
    (roundParticipants : Table (Uuid × Uuid) RoundParticipantRow RoundParticipantRow.key) :
    Inv cat (initial users roundParticipants) :=
  ⟨fun i j ri rj b hi => by simp [State.initial] at hi, fun i r hi => by
    simp [State.initial] at hi⟩

theorem State.locked_of_locks {j : Nat} (hj : s.requests[j]? = some r) (hl : r.locks = some b) :
    s.locked b = true :=
  List.any_eq_true.mpr ⟨r, List.mem_of_getElem? hj, by simpa using hl⟩

/-- **The invariant of the requests** is kept by every step. -/
theorem Inv.next (hinv : Inv cat s) (h : step cat s a = some s') : Inv cat s' := by
  obtain ⟨hdb, es, -, hlic⟩ := step_licensed h
  constructor
  · intro i j ri rj b hi hj hli hlj
    -- the lock of a request that moved was free; that of one that did not was taken
    rcases request_step h hi with ⟨hi, -⟩ | hblank | ⟨d, r, g, hai, hri, hgi, -, rfl⟩
    · rcases request_step h hj with ⟨hj, -⟩ | hblank | ⟨d, r, g, haj, hrj, hgj, -, rfl⟩
      · exact hinv.exclusive i j ri rj b hi hj hli hlj
      · rw [locks_of_plain hblank.plain] at hlj; cases hlj
      · have hfree := (next_lawful hgj (hinv.ok j r hrj)).2 b hlj
        rw [locked_of_locks hi hli] at hfree
        cases hfree
    · rw [locks_of_plain hblank.plain] at hli; cases hli
    · rcases request_step h hj with ⟨hj, -⟩ | hblank | ⟨d', r', g', haj, -⟩
      · have hfree := (next_lawful hgi (hinv.ok i r hri)).2 b hli
        rw [locked_of_locks hj hlj] at hfree
        cases hfree
      · rw [locks_of_plain hblank.plain] at hlj; cases hlj
      · rw [hai] at haj
        cases haj
        rfl
  · intro j r' hj
    rcases request_step h hj with ⟨hj, hne⟩ | hblank | ⟨d, r, g, -, hr, hg, hw, rfl⟩
    · rw [hdb]
      refine RequestOk.apply hlic.fresh ?_ (hinv.ok j r' hj)
      intro b hlb hclose
      obtain ⟨i, d, r, ha, hi, hli⟩ := hlic.locks hclose
      cases hinv.exclusive i j r r' b hi hj hli hlb
      exact hne d ha
    · exact RequestOk.of_plain hblank.plain
    · by_cases hnone : g.write = .nothing
      · rw [hdb, hw, hnone]
        exact (next_lawful hg (hinv.ok j r hr)).1
      · rw [next_done hg hnone]
        trivial

theorem Inv.run {as : List Action} {users : Table Uuid Streak.UserRow Streak.UserRow.userId}
    {roundParticipants : Table (Uuid × Uuid) RoundParticipantRow RoundParticipantRow.key}
    (h : exec (step cat) (State.initial users roundParticipants) as = some s) : Inv cat s :=
  exec_invariant (I := Inv cat) (fun _ _ _ hi hs => hi.next hs) h (Inv.initial cat _ _)

theorem Inv.closes_started (hinv : Inv cat s) {w : Write} {es : List DomainEvent}
    (hlic : Licensed cat s a w es) (hc : w.closes = some b) : s.db.status b = some .started := by
  obtain ⟨i, d, r, -, hi, hl⟩ := hlic.locks hc
  exact (hinv.ok i r hi).started hl

/-- **Terminal attempts are frozen**: no step changes the row of an attempt that has left
`started`. -/
theorem Inv.terminal (hinv : Inv cat s) (h : step cat s a = some s')
    (hrow : s.db.quizAttempts.find? b = some row) (hst : row.status ≠ .started) :
    s'.db.quizAttempts.find? b = some row := by
  obtain ⟨hdb, es, -, hlic⟩ := step_licensed h
  rw [hdb]
  refine find?_apply_of_ne hlic.fresh (fun hc => hst ?_) hrow
  have hstarted := hinv.closes_started hlic hc
  rw [status, hrow, Option.map_some, some.injEq] at hstarted
  exact hstarted

end Invariant

/-! ## Completed attempts -/

def Write.completes : Write → Option Uuid
  | .completeAttempt _ p => some p.attemptId
  | _ => none

def Db.completedRow (db : Db) (a : Uuid) : Option AttemptRow :=
  (db.quizAttempts.find? a).filter fun row => row.status = .completed

section Completed

variable {cat : Catalog} {s : State} {a : Action} {w : Write} {es : List DomainEvent}

theorem Inv.closes_row (hinv : Inv cat s) (hlic : Licensed cat s a w es) (hc : w.closes = some b) :
    ∃ row, s.db.quizAttempts.find? b = some row ∧ row.status = .started :=
  Option.map_eq_some_iff.mp (hinv.closes_started hlic hc)

theorem Write.closed_status (hw : w.completes = none) (h : row.status ≠ .completed) :
    (w.closed row).status ≠ .completed := by
  cases w with
  | abandonAttempt =>
    intro hst
    cases hst
  | completeAttempt => cases hw
  | _ => exact h

theorem Inv.completedRow_apply (hinv : Inv cat s) (hlic : Licensed cat s a w es)
    (hw : w.completes = none) (b : Uuid) : (s.db.apply w).completedRow b = s.db.completedRow b := by
  cases ho : w.opens with
  | some row =>
    have hfree := hlic.fresh row ho
    rw [completedRow, completedRow, find?_apply_open ho hfree]
    by_cases hb : row.attemptId = b
    · subst hb
      simp [hfree, Write.opens_status ho]
    · rw [if_neg hb]
  | none =>
    cases hc : w.closes with
    | none => rw [completedRow, completedRow, quizAttempts_apply ho hc]
    | some c =>
      obtain ⟨row, hrow, hst⟩ := hinv.closes_row hlic hc
      rw [completedRow, completedRow, find?_apply_close hc]
      by_cases hb : b = c
      · subst hb
        have hne : row.status ≠ .completed := by simp [hst]
        rw [if_pos rfl, hrow, Option.map_some,
          Option.filter_some_neg (by simpa using Write.closed_status hw hne),
          Option.filter_some_neg (by simpa using hne)]
      · rw [if_neg hb]

theorem Inv.countP_apply (hinv : Inv cat s) (hlic : Licensed cat s a w es)
    (hw : w.completes = none) {q : AttemptRow → Bool}
    (hq : ∀ row, q row = true → row.status = .completed) :
    (s.db.apply w).quizAttempts.rows.countP q = s.db.quizAttempts.rows.countP q := by
  have hout : ∀ row : AttemptRow, row.status ≠ .completed → q row = false := fun row hne => by
    cases hqr : q row with
    | false => rfl
    | true => exact absurd (hq row hqr) hne
  cases ho : w.opens with
  | some row =>
    have hne : row.status ≠ .completed := by simp [Write.opens_status ho]
    rw [Table.countP_insert? q (insert?_apply_open ho (hlic.fresh row ho)), hout row hne]
    simp
  | none =>
    cases hc : w.closes with
    | none => rw [quizAttempts_apply ho hc]
    | some c =>
      obtain ⟨row, hrow, hst⟩ := hinv.closes_row hlic hc
      have hne : row.status ≠ .completed := by simp [hst]
      have hcount : (s.db.apply w).quizAttempts.rows.countP q + (if q row then 1 else 0)
          = s.db.quizAttempts.rows.countP q + (if q (w.closed row) then 1 else 0) := by
        rw [quizAttempts_apply_close hc]
        exact Table.countP_modify q hrow
      rw [hout _ hne, hout _ (Write.closed_status hw hne)] at hcount
      simpa using hcount

theorem Inv.completing (hinv : Inv cat s) {i n : Nat}
    (hr : s.requests[i]? = some (.completeCommit p n)) :
    ∃ row, s.db.quizAttempts.find? p.attemptId = some row ∧ row.status = .started ∧
      row.userId = p.userId ∧ (cat.version row.quizVersionId).map (·.quizId) = some p.quizId ∧
      XpKeyed p := by
  obtain ⟨⟨⟨howner, hquiz⟩, hxp⟩, hst⟩ := hinv.ok i _ hr
  obtain ⟨row, hrow, hpair⟩ := Option.map_eq_some_iff.mp howner
  simp only [status, hrow, Option.map_some, some.injEq] at hst
  obtain ⟨huser, hversion⟩ := Prod.mk.inj hpair
  exact ⟨row, hrow, hst, huser, by rw [hversion]; exact hquiz, hxp⟩

theorem completedRow_complete {db : Db} (hrow : db.quizAttempts.find? p.attemptId = some row)
    (b : Uuid) :
    (db.apply (.completeAttempt d p)).completedRow b
      = if b = p.attemptId then some (setCompleted p row) else db.completedRow b := by
  rw [completedRow, find?_apply_close rfl]
  by_cases hb : b = p.attemptId
  · rw [if_pos hb, if_pos hb, hrow]
    rfl
  · rw [if_neg hb, if_neg hb, completedRow]

theorem countP_complete {db : Db} {q : AttemptRow → Bool}
    (hq : ∀ row, q row = true → row.status = .completed)
    (hrow : db.quizAttempts.find? p.attemptId = some row) (hst : row.status = .started) :
    (db.apply (.completeAttempt d p)).quizAttempts.rows.countP q
      = db.quizAttempts.rows.countP q + if q (setCompleted p row) then 1 else 0 := by
  have hnot : q row = false := by
    cases hqr : q row with
    | false => rfl
    | true => simp [hq row hqr] at hst
  have hcount : (db.apply (.completeAttempt d p)).quizAttempts.rows.countP q
      + (if q row then 1 else 0)
        = db.quizAttempts.rows.countP q + (if q (setCompleted p row) then 1 else 0) := by
    rw [quizAttempts_apply_close rfl]
    exact Table.countP_modify q hrow
  rw [hnot] at hcount
  exact hcount

end Completed

/-! ## A quiz to run on

Quiz 1 has the published version 2, with one question that counts, 3, whose options 4 and 5 are
right and wrong; passing it earns 20 XP. Concrete runs below are on this quiz. -/

def oneQuiz : Catalog :=
  { publishedVersionId := fun quizId => if quizId = 1 then some 2 else none
    version := fun id => if id = 2 then some ⟨1, 50, 20⟩ else none
    quizDeleted := fun _ => false
    questionCount := fun _ => 5
    questionVersionId := fun questionId => if questionId = 3 then some 2 else none
    option := fun id => if id = 4 then some ⟨3, true⟩ else if id = 5 then some ⟨3, false⟩ else none
    tournamentExists := fun _ => true }

def player : JwtPayload := ⟨7, .user⟩

def lobby : State :=
  initial ⟨[⟨player.sub, .initial, none⟩], by simp⟩ (Table.empty _)

def attemptNo (k : Nat) : Uuid := ⟨BitVec.ofNat 128 (100 + k)⟩

/-- Request number `i` runs `n` statements, drawing the ids number `k`. -/
def runs (i n k : Nat) : List Action :=
  List.replicate n (.advance i ⟨attemptNo k, attemptNo k, "event", "correlation", 0⟩)

/-- The player starts attempt `k` and completes it, in the requests number `2 * k` and
`2 * k + 1`. -/
def played (k : Nat) : List Action :=
  .arrive (.start 1 player .solo none 0) :: runs (2 * k) 2 k ++
  .arrive (.complete (attemptNo k) player 1) :: runs (2 * k + 1) 5 k

end QuizBackend.Attempt
