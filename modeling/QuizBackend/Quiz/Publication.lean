import QuizBackend.Quiz.Numbers

/-!
# One published version

The transaction of `publishQuizVersionAndSetQuiz` holds the row of its quiz, *so the final state has
exactly one published version per quiz*. It archives the other published versions first. Then it
publishes its target if that is a draft, and if it is not, it returns `null` and commits what it has
archived.

A target that is not a draft any more has been published since the request read it. While it is the
published version, nothing is archived. When it has been superseded, its successor is archived and
nothing takes its place: the quiz is left without a published version, and its pointer on an archived
one. At most one version is ever published, and a quiz with a version that has left `draft` has a
pointer, in any case.
-/

namespace QuizBackend.Quiz

open Lib Quiz.Action
open Attempt (JwtPayload)
open Option (filter_some map_none map_some)

/-! ## Statements -/

def Db.statusIn (db : Db) (quizId quizVersionId : Uuid) : Option QuizVersionStatus :=
  ((db.quizVersions.find? quizVersionId).filter fun row => row.quizId = quizId).map (·.status)

def Db.publishedVersionId (db : Db) (quizId : Uuid) : Option Uuid :=
  (db.quizzes.find? quizId).bind (·.publishedVersionId)

/-- No quiz has two published versions. -/
def Db.AtMostOnePublished (db : Db) : Prop :=
  ∀ quizId v v', db.statusIn quizId v = some .published → db.statusIn quizId v' = some .published →
    v = v'

/-- The pointer of a quiz is on a published version. -/
def Db.PointsToPublished (db : Db) : Prop :=
  ∀ quizId v, db.publishedVersionId quizId = some v → db.statusIn quizId v = some .published

/-- A quiz that has a published version keeps having one. -/
def KeepsPublished (as : List Action) : Prop :=
  Between step (fun s s' => ∀ quizId, (∃ v, s.db.statusIn quizId v = some .published) →
    ∃! v, s'.db.statusIn quizId v = some .published) .initial as

def Request.findsArchived (db : Db) : Request → Bool
  | .publishTx quizId quizVersionId _ => db.statusIn quizId quizVersionId = some .archived
  | _ => false

def Upheld (s : State) : Action → Prop
  | .advance i _ => (s.requests[i]?.any (·.findsArchived s.db)) = false
  | _ => True

instance (s : State) : (a : Action) → Decidable (Upheld s a)
  | .advance _ _ => inferInstanceAs (Decidable (_ = false))
  | .arrive _ | .abort _ | .setFlags .. => .isTrue trivial

/-! ## Status and pointer after a write -/

variable {v quizVersionId : Uuid} {nowIso : Int}

section Apply

variable {db : Db} {w : Write}

def Write.publishes : Write → Option (Uuid × Uuid)
  | .publishQuizVersionAndSetQuiz quizId quizVersionId _ => some (quizId, quizVersionId)
  | _ => none

theorem statusIn_of_find? {quizId : Uuid} {row : QuizVersionRow}
    (h : db.quizVersions.find? v = some row) (hquiz : row.quizId = quizId) :
    db.statusIn quizId v = some row.status := by
  rw [Db.statusIn, h, filter_some, if_pos (decide_eq_true hquiz), map_some]

theorem statusIn_eq_some_iff {quizId : Uuid} {status : QuizVersionStatus} :
    db.statusIn quizId v = some status ↔
      ∃ row, db.quizVersions.find? v = some row ∧ row.quizId = quizId ∧ row.status = status := by
  constructor
  · intro h
    obtain ⟨row, hrow, hstatus⟩ := Option.map_eq_some_iff.mp h
    obtain ⟨hfind, hquiz⟩ := Option.filter_eq_some_iff.mp hrow
    exact ⟨row, hfind, of_decide_eq_true hquiz, hstatus⟩
  · rintro ⟨row, hfind, hquiz, rfl⟩
    exact statusIn_of_find? hfind hquiz

theorem editsVersion_status (hw : w.publishes = none) (row : QuizVersionRow) :
    (w.editsVersion row).status = row.status := by
  cases w with
  | updateQuizVersion quizVersionId settings nowIso =>
    simp only [Write.editsVersion]
    split <;> rfl
  | publishQuizVersionAndSetQuiz quizId quizVersionId nowIso => cases hw
  | _ => rfl

/-- Another write than a publication changes no status; the versions it adds are drafts. -/
theorem statusIn_apply (h : Licensed db w) (hw : w.publishes = none) {quizId : Uuid}
    {status : QuizVersionStatus} (hstatus : status ≠ .draft) :
    (db.apply w).statusIn quizId v = some status ↔ db.statusIn quizId v = some status := by
  rw [statusIn_eq_some_iff, statusIn_eq_some_iff, find?_quizVersions_apply h]
  have hdraft : ∀ row : QuizVersionRow, w.newVersion = some row →
      row.status = .draft ∧ db.quizVersions.find? row.quizVersionId = none := by
    intro row hrow
    cases w with
    | createQuizWithInitialVersion quiz version =>
      cases hrow
      exact ⟨h.2.2.2.2.1, h.2.1⟩
    | insertVersion version =>
      cases hrow
      exact ⟨h.2.2.2, h.1⟩
    | _ => cases hrow
  cases hnew : w.newVersion with
  | some new =>
    obtain ⟨hnewStatus, hfresh⟩ := hdraft new hnew
    by_cases hv : new.quizVersionId = v
    · simp only [hv, if_true, Option.some.injEq]
      constructor
      · rintro ⟨row, rfl, -, hrow⟩
        exact absurd (hrow.symm.trans hnewStatus) hstatus
      · rintro ⟨row, hrow, -⟩
        rw [hv, hrow] at hfresh
        cases hfresh
    · simp only [hv, if_false]
  | none =>
    constructor
    · rintro ⟨row, hrow, hquiz, rfl⟩
      obtain ⟨old, hold, rfl⟩ := Option.map_eq_some_iff.mp hrow
      exact ⟨old, hold, (editsVersion_identity w old).2.1.symm.trans hquiz,
        (editsVersion_status hw old).symm⟩
    · rintro ⟨old, hold, hquiz, rfl⟩
      refine ⟨w.editsVersion old, ?_, (editsVersion_identity w old).2.1.trans hquiz,
        editsVersion_status hw old⟩
      exact congrArg (Option.map _) hold

theorem statusIn_publish {quizId : Uuid} (h : db.VersionOf quizVersionId quizId) (q v : Uuid) :
    (db.apply (.publishQuizVersionAndSetQuiz quizId quizVersionId nowIso)).statusIn q v
      = (db.statusIn q v).map fun status =>
          if v = quizVersionId then (if status = .draft then .published else status)
          else if q = quizId ∧ status = .published then .archived
          else status := by
  unfold Db.statusIn
  rw [find?_quizVersions_apply (w := .publishQuizVersionAndSetQuiz quizId quizVersionId nowIso) h]
  simp only [Write.newVersion]
  cases hrow : db.quizVersions.find? v with
  | none => rfl
  | some row =>
    have hid : row.quizVersionId = v := Table.key_of_find? hrow
    have hsame := editsVersion_identity (.publishQuizVersionAndSetQuiz quizId quizVersionId nowIso) row
    rw [map_some, filter_some, filter_some, hsame.2.1]
    by_cases hq : row.quizId = q
    · subst hq
      simp only [decide_true, if_true, map_some, Option.some.injEq, editsVersion_publish,
        QuizVersionRow.archiveOther, hid]
      by_cases hv : v = quizVersionId
      · simp only [hv, true_and, if_true, ne_eq, not_true, and_false, if_false]
        split <;> rfl
      · simp only [hv, false_and, if_false, ne_eq, not_false_iff, and_true]
        split <;> rfl
    · simp only [hq, decide_false, Bool.false_eq_true, if_false, map_none]

theorem publishedVersionId_apply (h : Licensed db w) (hw : w.publishes = none) (quizId : Uuid) :
    (db.apply w).publishedVersionId quizId = db.publishedVersionId quizId := by
  unfold Db.publishedVersionId
  rw [find?_quizzes_apply h]
  cases w with
  | createQuizWithInitialVersion quiz version =>
    show (if quiz.quizId = quizId then some quiz else db.quizzes.find? quizId).bind _ = _
    by_cases hquiz : quiz.quizId = quizId
    · have hnone := h.1
      rw [hquiz] at hnone
      rw [if_pos hquiz, hnone]
      exact h.2.2.2.2.2
    · rw [if_neg hquiz]
  | publishQuizVersionAndSetQuiz quizId quizVersionId nowIso => cases hw
  | setFlags flagged flags =>
    show ((db.quizzes.find? quizId).map _).bind _ = _
    cases db.quizzes.find? quizId with
    | none => rfl
    | some quiz =>
      show QuizRow.publishedVersionId (if quiz.quizId = flagged then quiz.setFlags flags else quiz) = _
      split <;> rfl
  | _ =>
    show ((db.quizzes.find? quizId).map _).bind _ = _
    cases db.quizzes.find? quizId <;> rfl

theorem publishedVersionId_publish {quizId : Uuid} (howned : db.Owned)
    (h : db.VersionOf quizVersionId quizId) (q : Uuid) :
    (db.apply (.publishQuizVersionAndSetQuiz quizId quizVersionId nowIso)).publishedVersionId q
      = if q = quizId ∧ db.statusIn quizId quizVersionId = some .draft then some quizVersionId
        else db.publishedVersionId q := by
  obtain ⟨target, htarget, hof⟩ := id h
  obtain ⟨quiz, hquiz⟩ := Option.isSome_iff_exists.mp (howned target (Table.mem_of_find? htarget))
  unfold Db.publishedVersionId
  rw [find?_quizzes_apply (w := .publishQuizVersionAndSetQuiz quizId quizVersionId nowIso) h,
    statusIn_of_find? htarget hof]
  simp only [Option.some.injEq]
  cases hfind : db.quizzes.find? q with
  | none =>
    -- the quiz of the target is there
    have hne : q ≠ quizId := by
      rintro rfl
      rw [hof, hfind] at hquiz
      cases hquiz
    simp only [hne, false_and, if_false]
    rfl
  | some row =>
    have hid : row.quizId = q := Table.key_of_find? hfind
    simp only [map_some, Option.bind_some, Write.editsQuiz, htarget, hid, Option.some.injEq]
    split <;> rfl

end Apply

/-! ## What holds in any case -/

structure Pointed (db : Db) : Prop where
  owned : db.Owned
  atMostOne : db.AtMostOnePublished
  pointer : ∀ quizId v status, status ≠ .draft → db.statusIn quizId v = some status →
    ∃ p, db.publishedVersionId quizId = some p

theorem pointed_empty : Pointed .empty where
  owned := by
    intro row hrow
    cases hrow
  atMostOne := by
    intro quizId v v' hv
    cases hv
  pointer := by
    intro quizId v status _ hv
    cases hv

section Steps

variable {db : Db} {w : Write}

/-- What is published after a publication: its target, unless that is archived, and what is published
in other quizzes. -/
theorem published_publish {quizId : Uuid} (h : db.VersionOf quizVersionId quizId) {q : Uuid} :
    (db.apply (.publishQuizVersionAndSetQuiz quizId quizVersionId nowIso)).statusIn q v
        = some .published ↔
      if q = quizId then v = quizVersionId ∧ db.statusIn quizId quizVersionId ≠ some .archived
      else db.statusIn q v = some .published := by
  obtain ⟨target, htarget, hof⟩ := id h
  rw [statusIn_publish h]
  by_cases hv : v = quizVersionId
  · subst hv
    by_cases hq : q = quizId
    · subst hq
      rw [statusIn_of_find? htarget hof]
      simp only [if_true, true_and, map_some, Option.some.injEq]
      cases target.status <;> simp
    · have hnone : db.statusIn q v = none := by
        rw [Db.statusIn, htarget, filter_some,
          if_neg (by simpa using fun hc => hq (hc.symm.trans hof)), map_none]
      simp only [hnone, hq, if_false, map_none]
  · simp only [hv, if_false, false_and]
    by_cases hq : q = quizId
    · simp only [hq, true_and, if_true]
      cases db.statusIn quizId v with
      | none => simp
      | some status => cases status <;> simp
    · simp only [hq, false_and, if_false]
      simp

theorem Pointed.apply (hp : Pointed db) (h : Licensed db w) : Pointed (db.apply w) where
  owned := hp.owned.apply h
  atMostOne := by
    intro q v v' hv hv'
    cases hw : w.publishes with
    | none =>
      rw [statusIn_apply h hw (by decide)] at hv hv'
      exact hp.atMostOne q v v' hv hv'
    | some target =>
      cases w with
      | publishQuizVersionAndSetQuiz quizId quizVersionId nowIso =>
        rw [published_publish h] at hv hv'
        split at hv
        · rename_i hq
          rw [if_pos hq] at hv'
          exact hv.1.trans hv'.1.symm
        · rename_i hq
          rw [if_neg hq] at hv'
          exact hp.atMostOne q v v' hv hv'
      | _ => cases hw
  pointer := by
    intro q v status hstatus hv
    cases hw : w.publishes with
    | none =>
      rw [statusIn_apply h hw hstatus] at hv
      rw [publishedVersionId_apply h hw]
      exact hp.pointer q v status hstatus hv
    | some target =>
      cases w with
      | publishQuizVersionAndSetQuiz quizId quizVersionId nowIso =>
        rw [publishedVersionId_publish hp.owned h]
        split
        · exact ⟨_, rfl⟩
        · rename_i hno
          rw [statusIn_publish h] at hv
          obtain ⟨old, hold, hnew⟩ := Option.map_eq_some_iff.mp hv
          -- the version had left `draft`, or it is the target and was a draft
          refine hp.pointer q v old ?_ hold
          rintro rfl
          split at hnew
          · rename_i hvt
            subst hvt
            obtain ⟨row, hrow, hquiz⟩ := h
            obtain ⟨row', hrow', hquiz', hdraft⟩ := statusIn_eq_some_iff.mp hold
            rw [hrow] at hrow'
            cases hrow'
            refine hno ⟨hquiz'.symm.trans hquiz, ?_⟩
            rw [statusIn_of_find? hrow hquiz, hdraft]
          · split at hnew
            · rename_i hc
              cases hc.2
            · exact hstatus hnew.symm
      | _ => cases hw

/-- **A publication leaves the pointers on published versions exactly when its target is not
archived.** -/
theorem pointsToPublished_publish {quizId : Uuid} (hp : Pointed db) (hpub : db.PointsToPublished)
    (h : db.VersionOf quizVersionId quizId) :
    (db.apply (.publishQuizVersionAndSetQuiz quizId quizVersionId nowIso)).PointsToPublished ↔
      db.statusIn quizId quizVersionId ≠ some .archived := by
  constructor
  · intro hpub' harchived
    -- the pointer stays where it is, on a version that is archived with the others
    obtain ⟨p, hpointer⟩ := hp.pointer quizId quizVersionId _ (by decide) harchived
    have hpointer' := hpub' quizId p
    rw [publishedVersionId_publish hp.owned h, harchived, if_neg (by simp),
      published_publish h, if_pos rfl] at hpointer'
    exact (hpointer' hpointer).2 harchived
  · intro hupheld q v hv
    rw [publishedVersionId_publish hp.owned h] at hv
    rw [published_publish h]
    split at hv
    · rename_i hc
      cases hv
      rw [if_pos hc.1]
      exact ⟨rfl, hupheld⟩
    · rename_i hno
      have hold := hpub q v hv
      split
      · rename_i hq
        subst hq
        refine ⟨?_, hupheld⟩
        -- the target is published, and so it is the version the pointer is on
        obtain ⟨row, hrow, hquiz⟩ := h
        rw [statusIn_of_find? hrow hquiz] at hupheld hno
        refine hp.atMostOne q v quizVersionId hold ?_
        rw [statusIn_of_find? hrow hquiz]
        cases hstatus : row.status with
        | draft => exact absurd ⟨rfl, congrArg some hstatus⟩ hno
        | published => rfl
        | archived => exact absurd (congrArg some hstatus) hupheld
      · exact hold

theorem pointsToPublished_apply (h : Licensed db w) (hw : w.publishes = none)
    (hpub : db.PointsToPublished) : (db.apply w).PointsToPublished := by
  intro q v hv
  rw [publishedVersionId_apply h hw] at hv
  rw [statusIn_apply h hw (by decide)]
  exact hpub q v hv

end Steps

/-! ## Runs -/

structure PointedRun (s : State) : Prop where
  ok : Inv s
  pointed : Pointed s.db

theorem pointedRun_initial : PointedRun .initial := ⟨inv_initial, pointed_empty⟩

section Run

variable {s s' : State} {a : Action}

theorem PointedRun.step (h : PointedRun s) (hstep : step s a = some s') : PointedRun s' := by
  refine ⟨h.ok.step hstep, ?_⟩
  rw [db_of_step hstep]
  exact h.pointed.apply (licensed_writes h.ok hstep)

/-- **A step leaves the pointers on published versions exactly when it is upheld.** -/
theorem upheld_iff (h : PointedRun s) (hpub : s.db.PointsToPublished) (hstep : step s a = some s') :
    Upheld s a ↔ s'.db.PointsToPublished := by
  have hl := licensed_writes h.ok hstep
  have hother : (s.writes a).publishes = none → s'.db.PointsToPublished := by
    intro hw
    rw [db_of_step hstep]
    exact pointsToPublished_apply hl hw hpub
  rcases step_cases hstep with ⟨r, rfl, -, hw, -⟩ | ⟨i, d, r, p, rfl, hr, hp, hw, -⟩ |
    ⟨i, r, rfl, -, -, hw, -⟩ | ⟨quizId, flags, rfl, hw, -⟩
  · exact iff_of_true trivial (hother (hw ▸ rfl))
  · simp only [Upheld, hr, Option.any_some]
    have hmakes := makes_of_next hp
    cases hpublishes : p.write.publishes with
    | none =>
      refine iff_of_true ?_ (hother (hw ▸ hpublishes))
      cases r with
      | publishTx quizId quizVersionId nowIso =>
        cases hp
        cases hpublishes
      | _ => rfl
    | some target =>
      cases hwrite : p.write with
      | publishQuizVersionAndSetQuiz quizId quizVersionId nowIso =>
        rw [hwrite] at hmakes hw
        cases hmakes
        rw [hw] at hl
        rw [db_of_step hstep, hw, pointsToPublished_publish h.pointed hpub hl]
        exact decide_eq_false_iff_not
      | _ =>
        rw [hwrite] at hpublishes
        cases hpublishes
  · exact iff_of_true trivial (hother (hw ▸ rfl))
  · exact iff_of_true trivial (hother (hw ▸ rfl))

theorem leftDraft_of_step {quizId : Uuid} (h : Inv s) (hstep : step s a = some s')
    (hleft : ∃ status, status ≠ .draft ∧ s.db.statusIn quizId v = some status) :
    ∃ status, status ≠ .draft ∧ s'.db.statusIn quizId v = some status := by
  have hl := licensed_writes h hstep
  obtain ⟨status, hstatus, hv⟩ := hleft
  obtain ⟨row, hrow, hquiz, rfl⟩ := statusIn_eq_some_iff.mp hv
  refine ⟨((s.writes a).editsVersion row).status, fun hdraft => hstatus (editsVersion_draft hdraft), ?_⟩
  rw [db_of_step hstep]
  exact statusIn_of_find? (find?_quizVersions_of_find? hl hrow)
    ((editsVersion_identity _ row).2.1.trans hquiz)

end Run

theorem keepsPublished_of_always {as : List Action}
    (h : Always step (·.db.PointsToPublished) .initial as) : KeepsPublished as := by
  rintro pre _ m m' ⟨rest, rfl⟩ hpre' hm hm' quizId hpublished
  obtain ⟨v, hv⟩ := hpublished
  have hrun : exec step m rest = some m' := by
    rw [exec_append, hm] at hm'
    exact hm'
  have hinv : PointedRun m :=
    exec_invariant (fun _ _ _ hi hstep => hi.step hstep) hm pointedRun_initial
  have hlater : PointedRun m' ∧
      ∃ status, status ≠ .draft ∧ m'.db.statusIn quizId v = some status := by
    refine exec_invariant (I := fun s => PointedRun s ∧
      ∃ status, status ≠ .draft ∧ s.db.statusIn quizId v = some status) ?_ hrun
      ⟨hinv, .published, by decide, hv⟩
    intro s a s' hs hstep
    exact ⟨hs.1.step hstep, leftDraft_of_step hs.1.ok hstep hs.2⟩
  obtain ⟨hinv', status, hstatus, hv'⟩ := hlater
  obtain ⟨p, hp⟩ := hinv'.pointed.pointer quizId v status hstatus hv'
  have hpublished' := h _ m' hpre' hm' quizId p hp
  exact ⟨p, hpublished', fun p' hp' => hinv'.pointed.atMostOne quizId p' p hp' hpublished'⟩

/-- **Exactly one published version, exactly.** In a run of authoring requests no quiz ever has two
published versions, every pointer is on a published one and a quiz that has a published version keeps
having exactly one, if and only if no transaction of `publishQuizVersionAndSetQuiz` finds its target
archived. -/
theorem onePublished_iff (as : List Action) (s : State) (h : exec step .initial as = some s) :
    (Always step (fun s => s.db.AtMostOnePublished ∧ s.db.PointsToPublished) .initial as ∧
      KeepsPublished as) ↔ Along step Upheld .initial as := by
  have hiff : Always step (·.db.PointsToPublished) .initial as ↔ Along step Upheld .initial as := by
    refine along_iff_always (I := PointedRun) (fun _ _ _ hi hstep => hi.step hstep)
      (fun _ _ _ hi hpub hstep => upheld_iff hi hpub hstep) h pointedRun_initial ?_
    intro quizId v hv
    cases hv
  rw [← hiff]
  constructor
  · rintro ⟨halways, -⟩ pre m hpre hm
    exact (halways pre m hpre hm).2
  · intro halways
    refine ⟨?_, keepsPublished_of_always halways⟩
    intro pre m hpre hm
    have hinv : PointedRun m :=
      exec_invariant (fun _ _ _ hi hstep => hi.step hstep) hm pointedRun_initial
    exact ⟨hinv.pointed.atMostOne, halways pre m hpre hm⟩

/-! Two publications of the first version of a quiz, and one of the second. -/

def fiveQuestions : List QuestionCommand :=
  [1, 2, 3, 4, 5].map fun position =>
    ⟨position, "?", none, [⟨1, "yes", true⟩, ⟨2, "no", false⟩]⟩

/-- The steps of request number `i` with the ids from `n` on. -/
def runs (i k n : Nat) : List Action := (List.range k).map fun j => .advance i (drawn (n + j))

def fiveQuestionQuiz : List Action :=
  createsQuiz ++ [.setFlags 1 { isVerified := true },
    .arrive (.createQuestions 1 1 author fiveQuestions 1)] ++ runs 1 7 10

def secondVersion : List Action :=
  [arrive (.createVersion 1 author ⟨shortQuiz, none⟩ 2)] ++ runs 2 2 2 ++
  [advance 2 (drawn 2)] ++
  [arrive (.createQuestions 1 2 author fiveQuestions 2)] ++ runs 3 7 20

def publishedInTurn : List Action :=
  fiveQuestionQuiz ++ secondVersion ++
  [arrive (.publish 1 1 author 3)] ++ runs 4 3 30 ++
  [arrive (.publish 1 2 author 4)] ++ runs 5 3 30

def publishedLate : List Action :=
  fiveQuestionQuiz ++ secondVersion ++
  [arrive (.publish 1 1 author 3), .arrive (.publish 1 1 author 3)] ++
  runs 4 2 30 ++ runs 5 3 30 ++
  [arrive (.publish 1 2 author 4)] ++ runs 6 3 30 ++ runs 4 1 30

def State.published (s : State) : Option Uuid × List QuizVersionStatus :=
  (s.db.publishedVersionId 1, s.db.quizVersions.rows.map (·.status))

theorem onePublished_publishedInTurn : ∃ s,
    exec step .initial publishedInTurn = some s ∧
      s.published = (some 2, [.archived, .published]) ∧
      Always step (fun s => s.db.AtMostOnePublished ∧ s.db.PointsToPublished) .initial
        publishedInTurn ∧ KeepsPublished publishedInTurn := by
  refine exists_of_read (fun s => s.published) (some 2, [.archived, .published]) (by decide +kernel)
    fun s hs hread => ?_
  exact ⟨hread, (onePublished_iff publishedInTurn s hs).mpr (by decide +kernel)⟩

/-- **The late transaction archives the published version and publishes nothing.** -/
theorem no_published_version : ∃ s,
    exec step .initial publishedLate = some s ∧
      s.published = (some 2, [.archived, .archived]) ∧ ¬ s.db.PointsToPublished := by
  refine exists_of_read (fun s => (s.published, s.db.statusIn 1 2))
    ((some 2, [.archived, .archived]), some .archived) (by decide +kernel) fun s hs hread => ?_
  obtain ⟨hpublished, hstatus⟩ := Prod.mk.inj hread
  refine ⟨hpublished, ?_⟩
  intro hpub
  have hpublished₂ := hpub 1 2 (congrArg Prod.fst hpublished)
  rw [hstatus] at hpublished₂
  cases hpublished₂

end QuizBackend.Quiz
