import QuizBackend.Lib.Paging
import QuizBackend.Lib.Run
import QuizBackend.Tournament.Effects

/-!
# Jobs that work off what is due

`openDueRounds`, `closeDueRounds` and `finalizeDueTournaments` have one shape: they page through a
query, a hundred rows at a time, and move each row on. Run alone, a job is a sweep of its worklist
(`PagedJob.ends_iff`), and each should leave nothing due. None does.

* The two round jobs take each row they visit out of the query, so the offset of the second page
  skips rows: they drain a single page (`rounds_drained_iff`).
* `finalizeDueTournaments` asks `listCompletedTournaments`, which selects `'finished'` tournaments,
  for what it is to move from `'ongoing'` to `'finished'`. It never moves any
  (`finalized_iff`).
-/

namespace QuizBackend.Tournament

open Lib Outbox Cron Worklist

/-! ## A job that runs alone -/

structure JobState where
  db : Db
  next : Next Cron
  advanced : Nat

def noLocks : Locks := ⟨fun _ => false, fun _ => false, fun _ => false⟩

def JobState.after (s : JobState) (g : Progress Cron) : JobState :=
  { db := s.db.apply g.write, next := g.next
    advanced := if g.write = .nothing then s.advanced else s.advanced + 1 }

def jobStep (cat : Catalog) (s : JobState) (d : Drawn) : Option JobState :=
  match s.next with
  | .goto r => (r.step cat s.db noLocks d).map s.after
  | .done => none
  | .failed _ => none

def Ends (cat : Catalog) (s t : JobState) : Prop :=
  ∃ ds, exec (jobStep cat) s ds = some t ∧ t.next = .done

def JobState.at_ (s : Db × Nat) (r : Cron) : JobState := ⟨s.1, .goto r, s.2⟩

def JobState.done (s : Db × Nat) : JobState := ⟨s.1, .done, s.2⟩

section Ends

variable {cat : Catalog} {s : Db × Nat} {t : JobState}

theorem ends_done : Ends cat (.done s) t ↔ t = .done s := by
  constructor
  · rintro ⟨ds, hrun, -⟩
    cases ds with
    | nil => exact (Option.some.inj hrun).symm
    | cons d ds => cases hrun
  · rintro rfl
    exact ⟨[], rfl, rfl⟩

theorem ends_at {r : Cron} {g : Progress Cron} (h : ∀ d, r.step cat s.1 noLocks d = some g) :
    Ends cat (.at_ s r) t ↔ Ends cat ((JobState.at_ s r).after g) t := by
  have hstep : ∀ d, jobStep cat (.at_ s r) d = some ((JobState.at_ s r).after g) := by
    intro d
    change (r.step cat s.1 noLocks d).map _ = _
    rw [h, Option.map_some]
  constructor
  · rintro ⟨ds, hrun, hdone⟩
    cases ds with
    | nil =>
      obtain rfl := Option.some.inj hrun
      cases hdone
    | cons d ds =>
      rw [exec_cons, hstep] at hrun
      exact ⟨ds, hrun, hdone⟩
  · rintro ⟨ds, hrun, hdone⟩
    refine ⟨⟨⟨0⟩, [], none, 0⟩ :: ds, ?_, hdone⟩
    rw [exec_cons, hstep]
    exact hrun

end Ends

/-! ## Paging jobs -/

/-- A job that lists its rows page by page and visits each. Its worklist is over the database and
the counter. -/
structure PagedJob (cat : Catalog) (ι : Type) where
  list : Nat → Cron
  visiting : List ι → Option Nat → Cron
  work : Worklist (Db × Nat) ι
  ready : Db × Nat → ι → Prop
  ready_of_due : ∀ s, ∀ a ∈ work.due s, ready s a
  ready_visit : ∀ s a b, ready s a → ready s b → ready (work.visit s a) b
  step_list : ∀ s k d, (list k).step cat s.1 noLocks d = some (.goto (.goto
    (visiting (work.page pageSize k s) (nextPage (work.page pageSize k s) k))))
  step_last : ∀ db d, (visiting [] none).step cat db noLocks d = some (.goto .done)
  step_next : ∀ db k d, (visiting [] (some k)).step cat db noLocks d = some (.goto (.goto (list k)))
  step_visit : ∀ s a items next, ready s a → ∃ w,
    (∀ d, (visiting (a :: items) next).step cat s.1 noLocks d =
        some (.commit w (.goto (visiting items next)))) ∧
      work.visit s a = (s.1.apply w, if w = .nothing then s.2 else s.2 + 1)

namespace PagedJob

variable {cat : Catalog} {ι : Type} (job : PagedJob cat ι)

theorem ends_visiting {s : Db × Nat} {items : List ι} {next : Option Nat} {t : JobState}
    (hready : ∀ a ∈ items, job.ready s a) :
    Ends cat (.at_ s (job.visiting items next)) t ↔
      Ends cat (.at_ (job.work.visitAll s items) (job.visiting [] next)) t := by
  induction items generalizing s with
  | nil => exact Iff.rfl
  | cons a items ih =>
    have ha := hready a List.mem_cons_self
    obtain ⟨w, hstep, hvisit⟩ := job.step_visit s a items next ha
    have hrest : ∀ b ∈ items, job.ready (job.work.visit s a) b := by
      intro b hb
      exact job.ready_visit s a b ha (hready b (List.mem_cons_of_mem a hb))
    rw [ends_at hstep, visitAll, List.foldl_cons]
    refine Iff.trans ?_ (ih hrest)
    rw [hvisit]
    rfl

/-- **A job that runs alone is a sweep.** -/
theorem ends_iff {s u : Db × Nat} {k : Nat} (h : job.work.Sweep pageSize k s u) {t : JobState} :
    Ends cat (.at_ s (job.list k)) t ↔ t = .done u := by
  have hready : ∀ s k, ∀ a ∈ job.work.page pageSize k s, job.ready s a :=
    fun s k a ha => job.ready_of_due s a (page_sublist.mem ha)
  -- the induction is on the pages
  induction h with
  | @last k s hlast =>
    rw [ends_at (job.step_list s k)]
    refine (job.ends_visiting (hready s k)).trans ?_
    rw [nextPage, if_pos hlast, ends_at (job.step_last _)]
    exact ends_done
  | @more k s u hfull _ ih =>
    rw [ends_at (job.step_list s k)]
    refine (job.ends_visiting (hready s k)).trans ?_
    rw [nextPage, if_neg hfull, ends_at (job.step_next _ _)]
    exact ih

theorem drained_iff [DecidableEq ι] (hw : job.work.TakesOut) (s : Db × Nat) :
    (∀ t, Ends cat (.at_ s (job.list 1)) t → job.work.due (t.db, t.advanced) = []) ↔
      (job.work.due s).length ≤ pageSize := by
  have hpos : 0 < pageSize := by decide
  obtain ⟨u, hu⟩ := hw.exists_sweep hpos s
  rw [← hw.drained_iff hpos hu]
  constructor
  · intro h
    exact h (.done u) ((job.ends_iff hu).mpr rfl)
  · intro h t ht
    obtain rfl := (job.ends_iff hu).mp ht
    exact h

end PagedJob

/-! ## The rounds that are due -/

def Db.dueOpen (db : Db) (nowIso : Int) (r : RoundRow) : Bool :=
  r.status = .pending ∧ (r.startAt.any (· ≤ nowIso)) = true ∧
    ((db.getTournamentById r.tournamentId).any (·.status = .ongoing)) = true

def Db.dueClose (_ : Db) (nowIso : Int) (r : RoundRow) : Bool :=
  r.status = .open_ ∧ (r.endAt.any (· ≤ nowIso)) = true

def Before {ρ : Type} (at_ : ρ → Int) (id : ρ → Nat) (r q : ρ) : Prop :=
  at_ r < at_ q ∨ (at_ r = at_ q ∧ id r ≤ id q)

section Before

variable {ρ : Type} {at_ : ρ → Int} {id : ρ → Nat}

instance : DecidableRel (Before at_ id) := fun _ _ => inferInstanceAs (Decidable (_ ∨ _))

instance : Std.Total (Before at_ id) where
  total r q := by
    unfold Before
    omega

instance : IsTrans ρ (Before at_ id) where
  trans r q s := by
    unfold Before
    omega

end Before

/-- The worklist of a round job: it moves the rounds that are due from one status to the next. -/
def roundWork (due : Db → RoundRow → Bool) (at_ : RoundRow → Int)
    (fromStatus toStatus : RoundStatus) (nowIso : Int) : Worklist (Db × Nat) RoundRow where
  due s := (s.1.rounds.rows.filter (due s.1)).insertionSort (Before at_ (·.roundId.bits.toNat))
  visit s r :=
    if roundMarkable s.1 r.roundId fromStatus then
      (s.1.markRoundStatus r.roundId toStatus nowIso, s.2 + 1)
    else s

def openWork (nowIso : Int) : Worklist (Db × Nat) RoundRow :=
  roundWork (·.dueOpen nowIso) (·.startAt.getD 0) .pending .open_ nowIso

def closeWork (nowIso : Int) : Worklist (Db × Nat) RoundRow :=
  roundWork (·.dueClose nowIso) (·.endAt.getD 0) .open_ .finished nowIso

section RoundWork

variable {due : Db → RoundRow → Bool} {at_ : RoundRow → Int} {fromStatus toStatus : RoundStatus}
  {nowIso : Int}

theorem mem_roundWork_due {s : Db × Nat} {r : RoundRow} :
    r ∈ (roundWork due at_ fromStatus toStatus nowIso).due s ↔
      r ∈ s.1.rounds.rows ∧ due s.1 r = true :=
  (List.mem_insertionSort _).trans List.mem_filter

theorem filter_due_markRoundStatus (hstatus : ∀ db r, due db r = true → r.status = fromStatus)
    (hne : toStatus ≠ fromStatus)
    (hsame : ∀ db roundId r, due (db.markRoundStatus roundId toStatus nowIso) r = due db r)
    {db : Db} {a : RoundRow} (ha : a ∈ db.rounds.rows) :
    (db.markRoundStatus a.roundId toStatus nowIso).rounds.rows.filter
        (due (db.markRoundStatus a.roundId toStatus nowIso)) =
      (db.rounds.rows.filter (due db)).filter (· ≠ a) := by
  let set := fun r : RoundRow =>
    if r.roundId = a.roundId then setRoundStatus toStatus nowIso r else r
  change (db.rounds.rows.map set).filter _ = _
  rw [List.filter_map, List.filter_filter]
  -- the round that is moved on is no longer due, and the others are as they were
  have hset : ∀ r ∈ db.rounds.rows, r ≠ a → set r = r := by
    intro r hr hra
    exact if_neg fun hid => hra (Table.eq_of_key_eq hr ha hid)
  have hdue : ∀ r ∈ db.rounds.rows,
      (due (db.markRoundStatus a.roundId toStatus nowIso) ∘ set) r =
        (decide (r ≠ a) && due db r) := by
    intro r hr
    rw [Function.comp_apply, hsame]
    by_cases hra : r = a
    · have hmoved : (set r).status = toStatus := by
        change (if _ then _ else _ : RoundRow).status = _
        rw [if_pos (congrArg _ hra)]
        rfl
      rw [decide_eq_false (by simpa using hra), Bool.false_and]
      cases hd : due db (set r) with
      | false => rfl
      | true => exact absurd (hmoved.symm.trans (hstatus db _ hd)) hne
    · rw [hset r hr hra, decide_eq_true hra, Bool.true_and]
  rw [List.filter_congr hdue]
  refine (List.map_congr_left ?_).trans (List.map_id _)
  intro r hr
  obtain ⟨hmem, hcond⟩ := List.mem_filter.mp hr
  rw [Bool.and_eq_true] at hcond
  exact hset r hmem (of_decide_eq_true hcond.1)

theorem roundWork_takesOut (hstatus : ∀ db r, due db r = true → r.status = fromStatus)
    (hne : toStatus ≠ fromStatus)
    (hsame : ∀ db roundId r, due (db.markRoundStatus roundId toStatus nowIso) r = due db r) :
    (roundWork due at_ fromStatus toStatus nowIso).TakesOut where
  nodup s := (List.perm_insertionSort _ _).nodup_iff.mpr
    (s.1.rounds.nodup.of_map.sublist List.filter_sublist)
  due_visit s a ha := by
    obtain ⟨hmem, hdue⟩ := mem_roundWork_due.mp ha
    have hfind : s.1.rounds.find? a.roundId = some a := Table.find?_of_mem hmem
    have hmark : roundMarkable s.1 a.roundId fromStatus = true := by
      rw [roundMarkable, hfind]
      exact decide_eq_true (hstatus _ _ hdue)
    have hvisit : (roundWork due at_ fromStatus toStatus nowIso).visit s a =
        (s.1.markRoundStatus a.roundId toStatus nowIso, s.2 + 1) := if_pos hmark
    rw [hvisit]
    change List.insertionSort _ (List.filter _ _) = List.filter _ (List.insertionSort _ _)
    rw [filter_due_markRoundStatus hstatus hne hsame hmem, filter_insertionSort]

end RoundWork

theorem openWork_takesOut (nowIso : Int) : (openWork nowIso).TakesOut := by
  refine roundWork_takesOut ?_ nofun fun _ _ _ => rfl
  intro db r h
  exact (of_decide_eq_true h).1

theorem closeWork_takesOut (nowIso : Int) : (closeWork nowIso).TakesOut := by
  refine roundWork_takesOut ?_ nofun fun _ _ _ => rfl
  intro db r h
  exact (of_decide_eq_true h).1

def openJob (cat : Catalog) (nowIso : Int) : PagedJob cat RoundRow where
  list := .openRounds nowIso
  visiting items next := .opening items nowIso next
  work := openWork nowIso
  ready _ _ := True
  ready_of_due _ _ _ := trivial
  ready_visit _ _ _ _ _ := trivial
  step_list _ _ _ := rfl
  step_last _ _ := rfl
  step_next _ _ _ := rfl
  step_visit s r items next _ := by
    cases hmark : roundMarkable s.1 r.roundId .pending with
    | true =>
      refine ⟨.markRoundStatus r.roundId .open_ nowIso, fun _ => if_pos hmark, ?_⟩
      exact if_pos hmark
    | false =>
      refine ⟨.nothing, fun _ => if_neg (by rw [hmark]; exact Bool.false_ne_true), ?_⟩
      exact if_neg (by rw [hmark]; exact Bool.false_ne_true)

def closeJob (cat : Catalog) (nowIso : Int) : PagedJob cat RoundRow where
  list := .closeRounds nowIso
  visiting items next := .closing items nowIso next
  work := closeWork nowIso
  ready _ _ := True
  ready_of_due _ _ _ := trivial
  ready_visit _ _ _ _ _ := trivial
  step_list _ _ _ := rfl
  step_last _ _ := rfl
  step_next _ _ _ := rfl
  step_visit s r items next _ := by
    cases hmark : roundMarkable s.1 r.roundId .open_ with
    | true =>
      refine ⟨.markRoundStatus r.roundId .finished nowIso, fun _ => if_pos hmark, ?_⟩
      exact if_pos hmark
    | false =>
      refine ⟨.nothing, fun _ => if_neg (by rw [hmark]; exact Bool.false_ne_true), ?_⟩
      exact if_neg (by rw [hmark]; exact Bool.false_ne_true)

theorem due_eq_nil_iff {due : Db → RoundRow → Bool} {at_ : RoundRow → Int}
    {fromStatus toStatus : RoundStatus} {nowIso : Int} {s : Db × Nat} :
    (roundWork due at_ fromStatus toStatus nowIso).due s = [] ↔
      ∀ r ∈ s.1.rounds.rows, due s.1 r = false := by
  rw [List.eq_nil_iff_forall_not_mem]
  simp only [mem_roundWork_due, not_and, Bool.not_eq_true]

theorem length_due {due : Db → RoundRow → Bool} {at_ : RoundRow → Int}
    {fromStatus toStatus : RoundStatus} {nowIso : Int} {s : Db × Nat} :
    ((roundWork due at_ fromStatus toStatus nowIso).due s).length =
      s.1.rounds.rows.countP (due s.1) := by
  change (List.insertionSort _ _).length = _
  rw [List.length_insertionSort, List.countP_eq_length_filter]

theorem opened_iff (cat : Catalog) (db : Db) (nowIso : Int) :
    (∀ t, Ends cat (.at_ (db, 0) (.openRounds nowIso 1)) t →
        ∀ r ∈ t.db.rounds.rows, t.db.dueOpen nowIso r = false) ↔
      db.rounds.rows.countP (db.dueOpen nowIso) ≤ pageSize := by
  have h := (openJob cat nowIso).drained_iff (openWork_takesOut nowIso) (db, 0)
  simp only [openJob, openWork, due_eq_nil_iff, length_due] at h
  exact h

theorem closed_iff (cat : Catalog) (db : Db) (nowIso : Int) :
    (∀ t, Ends cat (.at_ (db, 0) (.closeRounds nowIso 1)) t →
        ∀ r ∈ t.db.rounds.rows, t.db.dueClose nowIso r = false) ↔
      db.rounds.rows.countP (db.dueClose nowIso) ≤ pageSize := by
  have h := (closeJob cat nowIso).drained_iff (closeWork_takesOut nowIso) (db, 0)
  simp only [closeJob, closeWork, due_eq_nil_iff, length_due] at h
  exact h

/-- **When the round jobs drain what is due.** Run alone, each leaves no due round behind exactly
when the due rounds fit one page. -/
theorem rounds_drained_iff (cat : Catalog) (db : Db) (nowIso : Int) :
    ((∀ t, Ends cat (.at_ (db, 0) (.openRounds nowIso 1)) t →
        ∀ r ∈ t.db.rounds.rows, t.db.dueOpen nowIso r = false) ↔
      db.rounds.rows.countP (db.dueOpen nowIso) ≤ pageSize) ∧
    ((∀ t, Ends cat (.at_ (db, 0) (.closeRounds nowIso 1)) t →
        ∀ r ∈ t.db.rounds.rows, t.db.dueClose nowIso r = false) ↔
      db.rounds.rows.countP (db.dueClose nowIso) ≤ pageSize) :=
  ⟨opened_iff cat db nowIso, closed_iff cat db nowIso⟩

def pendingRounds (n : Nat) : List RoundRow :=
  (List.range n).map fun i =>
    { cupRound (Attempt.attemptNo i) (i + 1) with status := .pending, startAt := some 1000 }

def longCup : Db :=
  { cupDb (cup .ongoing none) (Table.empty _) with
    rounds := ⟨pendingRounds 101, by decide +kernel⟩ }

/-- Of a hundred and one rounds that are due the job opens a hundred. -/
theorem one_round_stays_pending : ¬ ∀ t,
    Ends cupCatalog (.at_ (longCup, 0) (.openRounds 1000 1)) t →
      ∀ r ∈ t.db.rounds.rows, t.db.dueOpen 1000 r = false := by
  rw [opened_iff]
  decide +kernel

/-! ## The tournaments that are due -/

/-- What `finalizeDueTournaments` visits: the ids of the tournaments it lists. A visit finds none of
them to be finalised. -/
def finalizeWork (nowIso : Int) : Worklist (Db × Nat) Uuid where
  due s := ((s.1.tournaments.rows.filter fun t =>
      t.deletedAt.isNone ∧ t.status = .finished ∧ t.endAt < nowIso).insertionSort fun t u =>
    u.endAt < t.endAt ∨
      (t.endAt = u.endAt ∧ u.tournamentId.bits.toNat ≤ t.tournamentId.bits.toNat)).map
    (·.tournamentId)
  visit s _ := s

theorem not_markable_of_due {s : Db × Nat} {nowIso : Int} {tournamentId : Uuid}
    (h : tournamentId ∈ (finalizeWork nowIso).due s) :
    markable s.1 tournamentId .ongoing = none := by
  obtain ⟨t, ht, rfl⟩ := List.mem_map.mp h
  obtain ⟨hmem, hcond⟩ := List.mem_filter.mp ((List.mem_insertionSort _).mp ht)
  obtain ⟨-, hstatus, -⟩ := of_decide_eq_true hcond
  have hfind : s.1.tournaments.find? t.tournamentId = some t := Table.find?_of_mem hmem
  rw [markable, Db.getTournamentById, hfind]
  simp [hstatus]

def finalizeJob (cat : Catalog) (nowIso : Int) : PagedJob cat Uuid where
  list := .finalize nowIso
  visiting items next := .finalizing items nowIso next
  work := finalizeWork nowIso
  ready s tournamentId := markable s.1 tournamentId .ongoing = none
  ready_of_due _ _ h := not_markable_of_due h
  ready_visit _ _ _ _ h := h
  step_list s k d := by
    have hpage : (finalizeWork nowIso).page pageSize k s =
        (s.1.listCompletedTournaments nowIso k).map (·.tournamentId) := by
      rw [page, finalizeWork, ← List.map_drop, ← List.map_take]
      rfl
    rw [hpage, nextPage, List.length_map]
    rfl
  step_last _ _ := rfl
  step_next _ _ _ := rfl
  step_visit s tournamentId items next h := by
    refine ⟨.nothing, ?_, rfl⟩
    intro d
    change (match markable s.1 tournamentId .ongoing with | none => _ | some _ => _) = _
    rw [h]
    rfl

def Moved (db db' : Db) (tournamentId : Uuid) : Prop :=
  db.status tournamentId = some .ongoing ∧ db'.status tournamentId = some .finished

instance (db db' : Db) (tournamentId : Uuid) : Decidable (Moved db db' tournamentId) :=
  inferInstanceAs (Decidable (_ ∧ _))

def TournamentRow.IsDue (t : TournamentRow) (nowIso : Int) : Prop :=
  t.deletedAt = none ∧ t.status = .ongoing ∧ t.endAt < nowIso

/-- What is asked of `finalizeDueTournaments`: nothing is left, whoever took part in a tournament it
moved has a rank and an event, and it returns how many it moved. -/
structure Finalized (cat : Catalog) (db : Db) (nowIso : Int) (s : JobState) : Prop where
  drained : ∀ t ∈ s.db.tournaments.rows, ¬ t.IsDue nowIso
  results : ∀ tournamentId, Moved db s.db tournamentId → ∀ p ∈ s.db.participants.rows,
    p.tournamentId = tournamentId → p.withdrawnAt = none → cat.userDeleted p.userId = false →
      p.rankFinal ≠ none ∧ ∃ row ∈ s.db.attempt.outboxEvents.rows,
        row.eventType = "tournament.completed" ∧ row.idempotencyKey =
          some ("tournament:completed:" ++ tournamentId.text ++ ":" ++ p.userId.text)
  returned : s.advanced = db.tournaments.rows.countP fun t => Moved db s.db t.tournamentId

theorem ends_finalize_iff (cat : Catalog) (db : Db) (nowIso : Int) (t : JobState) :
    Ends cat (.at_ (db, 0) (.finalize nowIso 1)) t ↔ t = .done (db, 0) := by
  have hpos : 0 < pageSize := by decide
  obtain ⟨u, hu⟩ := exists_sweep (w := finalizeWork nowIso) hpos
    (fun s k => by rw [visitAll_of_idle fun _ _ => rfl]) 1 Nat.one_pos (db, 0)
  have hidle : u = (db, 0) := hu.eq_of_idle fun _ _ => rfl
  subst hidle
  exact (finalizeJob cat nowIso).ends_iff hu

theorem not_moved (db : Db) (tournamentId : Uuid) : ¬ Moved db db tournamentId := by
  rintro ⟨hongoing, hfinished⟩
  rw [hongoing] at hfinished
  cases hfinished

/-- **When `finalizeDueTournaments` does what is asked of it**: when there is nothing to do. -/
theorem finalized_iff (cat : Catalog) (db : Db) (nowIso : Int) :
    (∀ s, Ends cat (.at_ (db, 0) (.finalize nowIso 1)) s → Finalized cat db nowIso s) ↔
      ∀ t ∈ db.tournaments.rows, ¬ t.IsDue nowIso := by
  constructor
  · intro h
    exact (h _ ((ends_finalize_iff cat db nowIso _).mpr rfl)).drained
  · intro hnone s hs
    obtain rfl := (ends_finalize_iff cat db nowIso s).mp hs
    refine ⟨hnone, ?_, ?_⟩
    · intro tournamentId hmoved
      exact absurd hmoved (not_moved db tournamentId)
    · refine (List.countP_eq_zero.mpr ?_).symm
      intro t _ hmoved
      exact not_moved db t.tournamentId (of_decide_eq_true hmoved)

/-- The cup is over, and is under way for good. -/
theorem cup_never_finalized : ¬ ∀ s,
    Ends cupCatalog (.at_ (cupDb (cup .ongoing none) (Table.empty _), 0) (.finalize (3 * kickOff) 1)) s →
      Finalized cupCatalog (cupDb (cup .ongoing none) (Table.empty _)) (3 * kickOff) s := by
  intro h
  have hdrained := (h _ ((ends_finalize_iff ..).mpr rfl)).drained
  exact hdrained (cup .ongoing none) (List.mem_singleton.mpr rfl) ⟨rfl, rfl, by decide⟩

end QuizBackend.Tournament
