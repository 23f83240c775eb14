import QuizBackend.Attempt.Effects
import QuizBackend.Lib.Exclusive
import QuizBackend.Tournament.Effects

/-!
# The rows of the rounds

`tournament_round_participants` is written from two sides: a started round attempt adds a row
without points, or links an attempt to a row that is there (`Extends`), and the listener for
completed attempts sets the points of one row. Here is what either does to the sums over the rows
of a participant, and what a step of the attempt module can do to the table at all
(`extends_of_attemptStep`).
-/

namespace QuizBackend.Tournament

open Lib Outbox RoundScore
open Attempt (RoundParticipantRow RoundParams linkAttempt)

/-! ## Sums -/

section Sums

variable {rows : List RoundParticipantRow} {q : Uuid}

theorem roundTotals_cons (r : RoundParticipantRow) (rows : List RoundParticipantRow) (q : Uuid) :
    roundTotals (r :: rows) q =
      if r.participantId = q then
        ⟨r.roundScore + (roundTotals rows q).totalScore,
          r.roundTimeMs + (roundTotals rows q).totalTimeMs⟩
      else roundTotals rows q := by
  by_cases h : r.participantId = q <;> simp [roundTotals, h]

theorem roundTotals_map_congr {f g : RoundParticipantRow → RoundParticipantRow}
    (hf : ∀ r, (f r).participantId = r.participantId)
    (hg : ∀ r, (g r).participantId = r.participantId)
    (h : ∀ r, r.participantId = q →
      (f r).roundScore = (g r).roundScore ∧ (f r).roundTimeMs = (g r).roundTimeMs) :
    roundTotals (rows.map f) q = roundTotals (rows.map g) q := by
  induction rows with
  | nil => rfl
  | cons r rows ih =>
    simp only [List.map_cons, roundTotals_cons, hf, hg, ih]
    split
    · rename_i hq
      obtain ⟨hscore, htime⟩ := h r hq
      rw [hscore, htime]
    · rfl

theorem roundTotals_of_absent (h : ∀ r ∈ rows, r.participantId ≠ q) :
    roundTotals rows q = ⟨0, 0⟩ := by
  have hnone : rows.filter (fun r => r.participantId = q) = [] := by
    rw [List.filter_eq_nil_iff]
    intro r hr
    simpa using h r hr
  simp [roundTotals, hnone]

theorem roundTotals_append_zero {new : List RoundParticipantRow}
    (h : ∀ r ∈ new, r.roundScore = 0 ∧ r.roundTimeMs = 0) :
    roundTotals (rows ++ new) q = roundTotals rows q := by
  induction rows with
  | nil =>
    induction new with
    | nil => rfl
    | cons r new ih =>
      obtain ⟨hscore, htime⟩ := h r List.mem_cons_self
      have hrest := ih fun r hr => h r (List.mem_cons_of_mem _ hr)
      rw [List.nil_append] at hrest ⊢
      rw [roundTotals_cons, hrest, hscore, htime]
      simp [roundTotals]
  | cons r rows ih => rw [List.cons_append, roundTotals_cons, roundTotals_cons, ih]

end Sums

/-! ## Scoring a row -/

def RoundScore.edit (score : RoundScore) (r : RoundParticipantRow) : RoundParticipantRow :=
  if r.key = score.key then score.set r else r

section Scores

variable {score other : RoundScore} {rp : RoundParticipants} {q : Uuid}

theorem rows_apply (score : RoundScore) (rp : RoundParticipants) :
    (score.apply rp).rows = rp.rows.map score.edit := rfl

theorem RoundScore.edit_participantId (score : RoundScore) (r : RoundParticipantRow) :
    (score.edit r).participantId = r.participantId := by
  unfold edit
  split <;> rfl

theorem RoundScore.edit_of_ne {r : RoundParticipantRow}
    (h : r.participantId ≠ score.participantId) : score.edit r = r :=
  if_neg fun hkey => h (congrArg Prod.snd hkey)

theorem roundTotals_apply_of_ne (h : score.participantId ≠ q) :
    roundTotals (score.apply rp).rows q = roundTotals rp.rows q := by
  have hmap : roundTotals (rp.rows.map score.edit) q = roundTotals (rp.rows.map id) q := by
    refine roundTotals_map_congr score.edit_participantId (fun _ => rfl) ?_
    rintro r rfl
    rw [edit_of_ne (Ne.symm h)]
    exact ⟨rfl, rfl⟩
  rwa [List.map_id] at hmap

theorem roundTotals_apply_apply_of_ne (h : other.participantId ≠ score.participantId) :
    roundTotals (score.apply (other.apply rp)).rows score.participantId =
      roundTotals (score.apply rp).rows score.participantId := by
  rw [rows_apply, rows_apply, rows_apply, List.map_map]
  refine roundTotals_map_congr ?_ score.edit_participantId ?_
  · intro r
    rw [Function.comp_apply, edit_participantId, edit_participantId]
  · intro r hr
    rw [Function.comp_apply, edit_of_ne (hr.trans_ne h.symm)]
    exact ⟨rfl, rfl⟩

theorem isSome_find?_apply {key : Uuid × Uuid} (h : (rp.find? key).isSome = true) :
    ((score.apply rp).find? key).isSome = true := by
  rw [apply, Table.find?_modify]
  split
  · rename_i hkey
    rw [← hkey, Option.isSome_map]
    exact h
  · exact h

end Scores

/-! ## Starting a round -/

/-- The rows are the old ones, with their points, and new ones of newcomers, without any. -/
def Extends (rp rp' : RoundParticipants) (isNewcomer : Uuid → Prop) : Prop :=
  ∃ (edit : RoundParticipantRow → RoundParticipantRow) (new : List RoundParticipantRow),
    rp'.rows = rp.rows.map edit ++ new ∧
    (∀ r, (edit r).key = r.key ∧ (edit r).roundScore = r.roundScore ∧
      (edit r).roundTimeMs = r.roundTimeMs) ∧
    ∀ r ∈ new, r.roundScore = 0 ∧ r.roundTimeMs = 0 ∧ isNewcomer r.participantId ∧
      rp.find? r.key = none

section Starts

variable {rp rp' : RoundParticipants} {isNewcomer : Uuid → Prop} {score : RoundScore}

section

variable (h : Extends rp rp' isNewcomer)
include h

theorem Extends.totals_eq (q : Uuid) :
    roundTotals rp'.rows q = roundTotals rp.rows q := by
  obtain ⟨edit, new, hrows, hedit, hnew⟩ := h
  rw [hrows, roundTotals_append_zero fun r hr => ⟨(hnew r hr).1, (hnew r hr).2.1⟩]
  have hmap : roundTotals (rp.rows.map edit) q = roundTotals (rp.rows.map id) q := by
    refine roundTotals_map_congr ?_ (fun _ => rfl) fun r _ => (hedit r).2
    intro r
    exact congrArg Prod.snd (hedit r).1
  rwa [List.map_id] at hmap

theorem Extends.totals_apply_eq (hold : (rp.find? score.key).isSome = true) (q : Uuid) :
    roundTotals (score.apply rp').rows q = roundTotals (score.apply rp).rows q := by
  obtain ⟨edit, new, hrows, hedit, hnew⟩ := h
  have hsame : new.map score.edit = new := by
    refine (List.map_congr_left ?_).trans (List.map_id new)
    intro r hr
    refine if_neg ?_
    intro hkey
    rw [← hkey, (hnew r hr).2.2.2] at hold
    cases hold
  rw [rows_apply, rows_apply, hrows, List.map_append, hsame, List.map_map,
    roundTotals_append_zero fun r hr => ⟨(hnew r hr).1, (hnew r hr).2.1⟩]
  refine roundTotals_map_congr ?_ score.edit_participantId ?_
  · intro r
    rw [Function.comp_apply, score.edit_participantId]
    exact congrArg Prod.snd (hedit r).1
  · intro r _
    simp only [Function.comp_apply, RoundScore.edit, (hedit r).1]
    split
    · exact ⟨rfl, rfl⟩
    · exact (hedit r).2

theorem Extends.find? {key : Uuid × Uuid} {r : RoundParticipantRow}
    (hr : rp.find? key = some r) : ∃ r', rp'.find? key = some r' ∧
      r'.roundScore = r.roundScore ∧ r'.roundTimeMs = r.roundTimeMs := by
  obtain ⟨edit, new, hrows, hedit, -⟩ := h
  obtain ⟨hkey, hpoints⟩ := hedit r
  have hmem : edit r ∈ rp'.rows := by
    rw [hrows]
    exact List.mem_append_left _ (List.mem_map_of_mem (Table.mem_of_find? hr))
  refine ⟨edit r, ?_, hpoints⟩
  rw [← Table.key_of_find? hr, ← hkey]
  exact Table.find?_of_mem hmem

theorem Extends.mem {r' : RoundParticipantRow}
    (hr : r' ∈ rp'.rows) :
    isNewcomer r'.participantId ∨ ∃ r ∈ rp.rows, r'.participantId = r.participantId := by
  obtain ⟨edit, new, hrows, hedit, hnew⟩ := h
  rw [hrows] at hr
  rcases List.mem_append.mp hr with hr | hr
  · obtain ⟨r, hmem, rfl⟩ := List.mem_map.mp hr
    exact .inr ⟨r, hmem, congrArg Prod.snd (hedit r).1⟩
  · exact .inl (hnew r' hr).2.2.1

end

theorem Extends.refl (rp : RoundParticipants) : Extends rp rp isNewcomer := by
  refine ⟨id, [], by simp, fun r => ⟨rfl, rfl, rfl⟩, ?_⟩
  intro r hr
  cases hr

theorem startRound_extends (db : Attempt.Db) (d : Attempt.Drawn) {p : RoundParams}
    (hp : isNewcomer p.participantId) :
    Extends db.roundParticipants (db.startRoundAttemptTx d p).roundParticipants isNewcomer := by
  let link : RoundParticipantRow → RoundParticipantRow := fun r =>
    if r.key = (p.roundId, p.participantId) then linkAttempt d.id p.nowIso r else r
  have hlink : ∀ r, (link r).key = r.key ∧ (link r).roundScore = r.roundScore ∧
      (link r).roundTimeMs = r.roundTimeMs := by
    intro r
    simp only [link]
    split <;> exact ⟨rfl, rfl, rfl⟩
  cases hins : db.roundParticipants.insert? (p.participant d.roundParticipantId) with
  | none =>
    refine ⟨link, [], ?_, hlink, ?_⟩
    · simp only [Attempt.Db.startRoundAttemptTx, hins, Option.getD_none, List.append_nil]
      rfl
    · intro r hr
      cases hr
  | some joined =>
    refine ⟨link, [link (p.participant d.roundParticipantId)], ?_, hlink, ?_⟩
    · simp only [Attempt.Db.startRoundAttemptTx, hins, Option.getD_some]
      change joined.rows.map link = _
      rw [Table.rows_of_insert? hins, List.map_append, List.map_singleton]
    · intro r hr
      obtain rfl := List.mem_singleton.mp hr
      obtain ⟨hkey, hscore, htime⟩ := hlink (p.participant d.roundParticipantId)
      have hid : (link (p.participant d.roundParticipantId)).participantId = p.participantId :=
        congrArg Prod.snd hkey
      refine ⟨hscore, htime, hid ▸ hp, ?_⟩
      rw [hkey]
      exact Table.find?_of_insert? hins

end Starts

/-! ## Steps of the attempt module -/

section AttemptSteps

variable {cat : Attempt.Catalog} {s t : Attempt.State} {a : Attempt.Action}

/-- All a step of the attempt module does to the rows of the rounds is to start rounds that were
asked for. -/
theorem extends_of_attemptStep (h : Attempt.step cat s a = some t) :
    Extends s.db.roundParticipants t.db.roundParticipants fun q =>
      ∃ p, .startRound p ∈ s.requests ∧ p.participantId = q := by
  obtain ⟨hdb, es, -, hlic⟩ := Attempt.step_licensed h
  rw [hdb]
  generalize s.writes cat a = w at hlic ⊢
  cases hlic with
  | @startRoundAttempt i d p request fresh =>
    exact startRound_extends s.db d ⟨p, List.mem_of_getElem? request, rfl⟩
  | _ => exact Extends.refl _

theorem ne_startRound_of_next {db : Attempt.Db} {locked : Uuid → Bool} {d : Attempt.Drawn}
    {r : Attempt.Request} {g : Attempt.Progress} (h : r.next cat db locked d = some g)
    (p : RoundParams) : g.request ≠ .startRound p := by
  cases r with
  | start quizId user contextType contextRefId nowIso =>
    cases h
    simp only [Attempt.Progress.goto, Attempt.startAttempt]
    repeat' split
    all_goals exact Attempt.Request.noConfusion
  | submit user params =>
    cases h
    simp only [Attempt.Progress.goto, Attempt.submitAnswer]
    repeat' split
    all_goals exact Attempt.Request.noConfusion
  | withdraw attemptId questionId user =>
    cases h
    simp only [Attempt.Progress.goto, Attempt.withdrawAnswer]
    split <;> exact Attempt.Request.noConfusion
  | abandon attemptId user nowIso =>
    cases h
    simp only [Attempt.Progress.goto, Attempt.abandonAttempt]
    split <;> exact Attempt.Request.noConfusion
  | complete attemptId user nowIso =>
    cases h
    simp only [Attempt.Progress.goto, Attempt.completeAttempt]
    split <;> exact Attempt.Request.noConfusion
  | completeScore | completeTx =>
    cases h
    exact Attempt.Request.noConfusion
  | startInsert | startRound | submitTx | submitInsert | withdrawFind | withdrawDelete
  | abandonTx | abandonCommit | completeUpdate | completeCommit =>
    simp only [Attempt.Request.next] at h
    (repeat' split at h) <;> cases h <;> exact Attempt.Request.noConfusion
  | done | failed => cases h

theorem startRound_of_attemptStep (h : Attempt.step cat s a = some t) (own : isOwnAction a = true)
    {p : RoundParams} (hp : .startRound p ∈ t.requests) : .startRound p ∈ s.requests := by
  obtain ⟨o, ho, rfl⟩ := Option.map_eq_some_iff.mp h
  cases a with
  | arrive r =>
    simp only [Attempt.State.outcome] at ho
    split at ho <;> cases ho
    rcases List.mem_append.mp hp with hp | hp
    · exact hp
    · rw [← List.mem_singleton.mp hp] at own
      cases own
  | advance i d =>
    simp only [Attempt.State.outcome] at ho
    split at ho
    · split at ho <;> cases ho
      rename_i g hg
      rcases mem_set_cases hp with hp | ⟨j, -, hj⟩
      · exact absurd hp.symm (ne_startRound_of_next hg p)
      · exact List.mem_of_getElem? hj
    · cases ho
  | abort i =>
    simp only [Attempt.State.outcome] at ho
    split at ho
    · split at ho <;> cases ho
      rcases mem_set_cases hp with hp | ⟨j, -, hj⟩
      · cases hp
      · exact List.mem_of_getElem? hj
    · cases ho
  | writeBack eventId c =>
    simp only [Attempt.State.outcome, Option.some.injEq] at ho
    subst ho
    exact hp

end AttemptSteps

end QuizBackend.Tournament
