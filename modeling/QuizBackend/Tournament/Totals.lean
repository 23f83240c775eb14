import QuizBackend.Tournament.Rounds

/-!
# Totals of a participant

`total_score` and `total_time_ms` are a projection: the sums over the participant's rows in the
rounds. The listener for completed attempts keeps them so, one transaction for each completed
round. Two transactions of one participant work on different rows, so neither waits for the other
before it has computed its sums; the one that comes second to the participant's row then writes
sums that lack the points of the first (`lost_round`).

`TotalsMatch` holds in every state of a run in which no listener commits while another one of the
same participant is between its sums and its commit (`totalsMatch_of_alone`). What carries the
induction is `Tracked`: the sums a listener holds are still those it would compute now.
-/

namespace QuizBackend.Tournament

open Lib Outbox Attempt Table

def Db.sums (db : Db) (participantId : Uuid) : Totals :=
  roundTotals db.attempt.roundParticipants.rows participantId

/-- The totals of everybody are the sums over their rounds. -/
def Db.TotalsMatch (db : Db) : Prop :=
  ∀ p ∈ db.participants.rows, p.totals = db.sums p.participantId

instance (db : Db) : Decidable db.TotalsMatch := inferInstanceAs (Decidable (∀ p ∈ _, _))

/-- The foreign key of `tournament_round_participants`. -/
def Db.RoundsRegistered (db : Db) : Prop :=
  ∀ row ∈ db.attempt.roundParticipants.rows,
    (db.participants.find? row.participantId).isSome = true

instance (db : Db) : Decidable db.RoundsRegistered := inferInstanceAs (Decidable (∀ row ∈ _, _))

def Request.recalculating : Request → Option RoundScore
  | .play (.scoreLock score _) => some score
  | .play (.scoreCommit score _) => some score
  | _ => none

/-- A request other than number `i` is recalculating the participant. -/
def State.othersRecalculate (s : State) (i : Nat) (participantId : Uuid) : Prop :=
  ∃ j < s.requests.length, j ≠ i ∧
    (s.requests[j]?.bind Request.recalculating).map (·.participantId) = some participantId

instance (s : State) (i : Nat) (participantId : Uuid) :
    Decidable (s.othersRecalculate i participantId) :=
  inferInstanceAs (Decidable (∃ j < _, _))

/-- The round row that request number `i` is about to commit the points of. -/
def State.committing (s : State) (i : Nat) : Option RoundScore :=
  match s.requests[i]? with
  | some (.play (.scoreCommit score _)) => some score
  | _ => none

/-- Nobody else recalculates the same totals meanwhile. -/
def CommitsAlone (s : State) : Action → Prop
  | .advance i _ => ∀ score ∈ s.committing i, ¬ s.othersRecalculate i score.participantId
  | _ => True

instance (s : State) (a : Action) : Decidable (CommitsAlone s a) :=
  match a with
  | .advance .. => inferInstanceAs (Decidable (∀ score ∈ _, _))
  | .arrive _ | .abort _ | .attempt _ => .isTrue trivial

/-! ## What the listeners know -/

/-- The row a listener scores is there, and the sums it holds are those it would compute now. -/
def Request.Tracks (db : Db) : Request → Prop
  | .play (.scoreUpdate score) | .play (.scoreRecalculate score) =>
    (db.attempt.roundParticipants.find? score.key).isSome = true
  | .play (.scoreLock score totals) | .play (.scoreCommit score (some totals)) =>
    (db.attempt.roundParticipants.find? score.key).isSome = true ∧
      totals = Play.aggregate db score
  | .play (.scoreCommit score none) =>
    (db.attempt.roundParticipants.find? score.key).isSome = true ∧
      ∀ p, db.participants.find? score.participantId = some p → p.totals = Play.aggregate db score
  | _ => True

structure Tracked (s : State) : Prop where
  registered : s.db.RoundsRegistered
  asked : ∀ p, .startRound p ∈ s.attemptRequests →
    (s.db.participants.find? p.participantId).isSome = true
  tracks : ∀ r ∈ s.requests, r.Tracks s.db

section Knowledge

variable {cat : Catalog} {s : State} {r : Request} {db db' : Db}

/-- What a listener knows stays true when its row stays and, once it has its sums, neither these
nor the participant's totals change. -/
theorem Request.Tracks.keep (h : r.Tracks db)
    (hrow : ∀ key, (db.attempt.roundParticipants.find? key).isSome = true →
      (db'.attempt.roundParticipants.find? key).isSome = true)
    (hkeep : ∀ score, r.recalculating = some score →
      (db.attempt.roundParticipants.find? score.key).isSome = true →
      Play.aggregate db' score = Play.aggregate db score ∧
        ∀ p', db'.participants.find? score.participantId = some p' →
          ∃ p, db.participants.find? score.participantId = some p ∧ p'.totals = p.totals) :
    r.Tracks db' := by
  cases r with
  | play r =>
    cases r with
    | scoreUpdate score | scoreRecalculate score => exact hrow _ h
    | scoreLock score totals =>
      obtain ⟨hfound, htotals⟩ := h
      exact ⟨hrow _ hfound, htotals.trans (hkeep score rfl hfound).1.symm⟩
    | scoreCommit score totals =>
      cases totals with
      | some totals =>
        obtain ⟨hfound, htotals⟩ := h
        exact ⟨hrow _ hfound, htotals.trans (hkeep score rfl hfound).1.symm⟩
      | none =>
        obtain ⟨hfound, htotals⟩ := h
        obtain ⟨haggregate, hparticipant⟩ := hkeep score rfl hfound
        refine ⟨hrow _ hfound, ?_⟩
        intro p' hp'
        obtain ⟨p, hp, hsame⟩ := hparticipant p' hp'
        rw [hsame, haggregate]
        exact htotals p hp
    | _ => trivial
  | _ => trivial

theorem totals_of_not_distinct {score : RoundScore} {totals : Totals}
    (h : Play.isDistinct db score totals = false) {p : ParticipantRow}
    (hp : db.participants.find? score.participantId = some p) : p.totals = totals := by
  rw [Play.isDistinct, hp] at h
  simpa using h

theorem Reaches.tracks {r' : Request} (h : Reaches cat s r r') (hr : r.Tracks s.db) :
    r'.Tracks s.db := by
  cases h with
  | @play r r' h =>
    cases h with
    | startRound hlock hscore =>
      cases r' with
      | scoreUpdate score => exact absurd rfl (hscore score)
      | scoreRecalculate | scoreLock | scoreCommit => cases hlock
      | _ => trivial
    | @scoreUpdate event score row found key =>
      show (s.db.attempt.roundParticipants.find? score.key).isSome = true
      rw [key, find?_of_mem found]
      rfl
    | scoreRecalculate free => exact hr
    | scoreLock distinct => exact ⟨hr, rfl⟩
    | settled same => exact ⟨hr, fun _ => totals_of_not_distinct same⟩
    | scoreCommit free => exact hr
    | overtaken same =>
      refine ⟨hr.1, ?_⟩
      intro p hp
      exact (totals_of_not_distinct same hp).trans hr.2
  | _ => trivial

end Knowledge

/-! ## Commits that leave the points alone -/

section Others

variable {s : State} {r r' : Request} {w : Write} {q : Uuid}

theorem Licensed.fresh_participant (h : Licensed s r w) (row : ParticipantRow)
    (hw : w.registers = some row) : s.db.participants.find? row.participantId = none :=
  (h.registered hw).1

theorem isSome_participants_apply (hlic : Licensed s r w)
    (h : (s.db.participants.find? q).isSome = true) :
    ((s.db.apply w).participants.find? q).isSome = true := by
  obtain ⟨p, hp⟩ := Option.isSome_iff_exists.mp h
  rw [find?_participants_apply_of_find? hlic.fresh_participant hp]
  rfl

theorem registered_apply (hlic : Licensed s r w) (hw : w.scores = none)
    (h : s.db.RoundsRegistered) : (s.db.apply w).RoundsRegistered := by
  intro row hrow
  rw [roundParticipants_apply hw] at hrow
  exact isSome_participants_apply hlic (h row hrow)

theorem Db.RoundsRegistered.of_find? {db : Db} (h : db.RoundsRegistered) {key : Uuid × Uuid}
    (hkey : (db.attempt.roundParticipants.find? key).isSome = true) :
    (db.participants.find? key.2).isSome = true := by
  obtain ⟨row, hrow⟩ := Option.isSome_iff_exists.mp hkey
  rw [← key_of_find? hrow]
  exact h row (mem_of_find? hrow)

theorem Db.RoundsRegistered.sums_eq {db : Db} (h : db.RoundsRegistered)
    (hq : db.participants.find? q = none) : db.sums q = ⟨0, 0⟩ := by
  refine roundTotals_of_absent ?_
  rintro row hrow rfl
  have hsome := h row hrow
  rw [hq] at hsome
  cases hsome

theorem tracks_apply (hlic : Licensed s r w) (hw : w.scores = none) (h : s.db.RoundsRegistered)
    (hr' : r'.Tracks s.db) : r'.Tracks (s.db.apply w) := by
  refine hr'.keep ?_ ?_
  · intro key hkey
    rw [roundParticipants_apply hw]
    exact hkey
  · intro score _ hrow
    refine ⟨by rw [Play.aggregate, Play.aggregate, roundParticipants_apply hw], ?_⟩
    intro p' hp'
    rcases find?_participants_of_apply hlic.fresh_participant hp' with ⟨p, hp, rfl⟩ | ⟨hnone, -⟩
    · exact ⟨p, hp, Write.editsParticipant_totals hw p⟩
    · -- a newcomer has no row to score
      have hsome := h.of_find? hrow
      rw [RoundScore.key, hnone] at hsome
      cases hsome

theorem totalsMatch_apply (hlic : Licensed s r w) (hw : w.scores = none)
    (h : s.db.RoundsRegistered) (hmatch : s.db.TotalsMatch) : (s.db.apply w).TotalsMatch := by
  intro p' hp'
  rw [Db.sums, roundParticipants_apply hw]
  rcases find?_participants_of_apply hlic.fresh_participant (find?_of_mem hp') with
    ⟨p, hp, rfl⟩ | ⟨hnone, hnew⟩
  · rw [Write.editsParticipant_totals hw, Write.editsParticipant_participantId]
    exact hmatch p (mem_of_find? hp)
  · rw [(hlic.newcomer hnew).1]
    exact (h.sums_eq hnone).symm

end Others

/-! ## The commit of a listener -/

section Score

variable {db : Db} {score : RoundScore} {totals : Option Totals} {now : Int} {r : Request}

theorem roundParticipants_scoreRound (db : Db) (score : RoundScore) (totals : Option Totals)
    (now : Int) : (db.scoreRound score totals now).attempt.roundParticipants =
      score.apply db.attempt.roundParticipants := rfl

theorem find?_scoreRound_of_ne {q : Uuid} (h : q ≠ score.participantId) :
    (db.scoreRound score totals now).participants.find? q = db.participants.find? q := by
  cases totals with
  | none => rfl
  | some totals =>
    rw [Db.scoreRound, find?_modify, if_neg h]

theorem find?_scoreRound_some {totals : Totals} {p : ParticipantRow}
    (h : (db.scoreRound score (some totals) now).participants.find? score.participantId = some p) :
    p.totals = totals := by
  rw [Db.scoreRound, find?_modify, if_pos rfl] at h
  obtain ⟨old, -, rfl⟩ := Option.map_eq_some_iff.mp h
  rfl

theorem registered_scoreRound (h : db.RoundsRegistered) :
    (db.scoreRound score totals now).RoundsRegistered := by
  intro row hrow
  rw [roundParticipants_scoreRound, rows_apply] at hrow
  obtain ⟨old, hold, rfl⟩ := List.mem_map.mp hrow
  rw [RoundScore.edit_participantId]
  have hsome := h old hold
  by_cases hq : old.participantId = score.participantId
  · cases totals with
    | none => exact hsome
    | some totals =>
      rw [Db.scoreRound, find?_modify, if_pos hq, Option.isSome_map, ← hq]
      exact hsome
  · rw [find?_scoreRound_of_ne hq]
    exact hsome

theorem tracks_scoreRound (hr : r.Tracks db)
    (hne : ∀ other, r.recalculating = some other → other.participantId ≠ score.participantId) :
    r.Tracks (db.scoreRound score totals now) := by
  refine hr.keep ?_ ?_
  · intro key hkey
    exact isSome_find?_apply hkey
  · intro other hother _
    have hid := hne other hother
    refine ⟨roundTotals_apply_apply_of_ne hid.symm, ?_⟩
    intro p' hp'
    rw [find?_scoreRound_of_ne hid] at hp'
    exact ⟨p', hp', rfl⟩

theorem totalsMatch_scoreRound (hmatch : db.TotalsMatch)
    (hr : (Request.play (.scoreCommit score totals)).Tracks db) :
    (db.scoreRound score totals now).TotalsMatch := by
  intro p' hp'
  have hfind := find?_of_mem hp'
  by_cases hq : p'.participantId = score.participantId
  · rw [hq] at hfind ⊢
    cases totals with
    | some totals => exact (find?_scoreRound_some hfind).trans hr.2
    | none => exact hr.2 p' hfind
  · rw [find?_scoreRound_of_ne hq] at hfind
    rw [hmatch p' (mem_of_find? hfind)]
    exact (roundTotals_apply_of_ne (Ne.symm hq)).symm

end Score

/-! ## Runs -/

section Runs

variable {cat : Catalog} {s s' : State} {i : Nat} {d : Drawn} {r : Request} {g : Advance}

theorem Licensed.scores_cases {w : Write} {score : RoundScore} (h : Licensed s r w)
    (hw : w.scores = some score) :
    ∃ totals now, r = .play (.scoreCommit score totals) ∧ w = .scoreRound score totals now := by
  cases h with
  | scoreRound =>
    cases hw
    exact ⟨_, _, rfl, rfl⟩
  | _ => cases hw

theorem CommitsAlone.others {score : RoundScore} {totals : Option Totals}
    (h : CommitsAlone s (.advance i d))
    (hi : s.requests[i]? = some (.play (.scoreCommit score totals))) {j : Nat} {r' : Request}
    (hij : j ≠ i) (hj : s.requests[j]? = some r') (other : RoundScore)
    (hother : r'.recalculating = some other) : other.participantId ≠ score.participantId := by
  intro hid
  have hcommitting : s.committing i = some score := by
    rw [State.committing, hi]
  refine h score hcommitting ⟨j, (List.getElem?_eq_some_iff.mp hj).1, hij, ?_⟩
  rw [hj, Option.bind_some, hother, Option.map_some, hid]

theorem request_scoreCommit {score : RoundScore} {totals : Option Totals}
    (h : (Request.play (.scoreCommit score totals)).step cat s.db s.locks d = some g) :
    g.request = .done := by
  cases h
  rfl

theorem Tracked.asked_after (ht : Tracked s) (h : r.step cat s.db s.locks d = some g)
    (p : RoundParams) (hp : .startRound p ∈ (s.after i g).attemptRequests) :
    ((s.after i g).db.participants.find? p.participantId).isSome = true := by
  have hlic := request_licensed h
  rcases List.mem_append.mp hp with hp | hp
  · exact isSome_participants_apply hlic (ht.asked p hp)
  · rw [Option.mem_toList, Option.map_eq_some_iff] at hp
    obtain ⟨p, hstarts, ⟨⟩⟩ := hp
    exact isSome_participants_apply hlic (registered_of_starts h hstarts)

theorem Tracked.advance (ht : Tracked s) (hi : s.requests[i]? = some r)
    (h : r.step cat s.db s.locks d = some g) (halone : CommitsAlone s (.advance i d)) :
    Tracked (s.after i g) := by
  have hlic := request_licensed h
  cases hw : g.write.scores with
  | none =>
    refine ⟨registered_apply hlic hw ht.registered, ht.asked_after h, ?_⟩
    have hself := (request_reaches h).tracks (ht.tracks r (List.mem_of_getElem? hi))
    intro r' hr'
    exact tracks_apply hlic hw ht.registered (forall_mem_set ht.tracks hself r' hr')
  | some score =>
    obtain ⟨totals, now, rfl, hwrite⟩ := hlic.scores_cases hw
    have hdb : (s.after i g).db = s.db.scoreRound score totals now := by
      rw [State.after, hwrite, Db.apply]
    refine ⟨?_, ht.asked_after h, ?_⟩
    · rw [hdb]
      exact registered_scoreRound ht.registered
    · intro r' hr'
      rcases mem_set_cases hr' with rfl | ⟨j, hij, hj⟩
      · rw [request_scoreCommit h]
        trivial
      · rw [hdb]
        exact tracks_scoreRound (ht.tracks r' (List.mem_of_getElem? hj))
          (halone.others hi hij hj)

theorem totalsMatch_advance (ht : Tracked s) (hmatch : s.db.TotalsMatch)
    (hi : s.requests[i]? = some r) (h : r.step cat s.db s.locks d = some g) :
    (s.after i g).db.TotalsMatch := by
  have hlic := request_licensed h
  cases hw : g.write.scores with
  | none => exact totalsMatch_apply hlic hw ht.registered hmatch
  | some score =>
    obtain ⟨totals, now, rfl, hwrite⟩ := hlic.scores_cases hw
    rw [State.after, hwrite, Db.apply]
    exact totalsMatch_scoreRound hmatch (ht.tracks _ (List.mem_of_getElem? hi))

theorem Tracked.attempt {a : Attempt.Action} {t : Attempt.State} (ht : Tracked s)
    (own : isOwnAction a = true)
    (h : Attempt.step (s.attemptCatalog cat) s.attempt a = some t) :
    Tracked (s.withAttempt t) ∧ ∀ q, (s.withAttempt t).db.sums q = s.db.sums q := by
  have hext : Extends s.db.attempt.roundParticipants t.db.roundParticipants _ :=
    extends_of_attemptStep h
  refine ⟨⟨?_, ?_, ?_⟩, hext.totals_eq⟩
  · intro row hrow
    rcases hext.mem hrow with ⟨p, hp, hid⟩ | ⟨old, hold, hid⟩
    · rw [← hid]
      exact ht.asked p hp
    · rw [hid]
      exact ht.registered old hold
  · intro p hp
    exact ht.asked p (startRound_of_attemptStep h own hp)
  · intro r hr
    refine (ht.tracks r hr).keep ?_ ?_
    · intro key hkey
      obtain ⟨old, hold⟩ := Option.isSome_iff_exists.mp hkey
      obtain ⟨new, hnew, -⟩ := hext.find? hold
      exact Option.isSome_iff_exists.mpr ⟨new, hnew⟩
    · intro score _ hrow
      exact ⟨hext.totals_apply_eq hrow _, fun p' hp' => ⟨p', hp', rfl⟩⟩

theorem tracked_step {a : Action} (ht : Tracked s) (halone : CommitsAlone s a)
    (h : step cat s a = some s') : Tracked s' := by
  cases stepped_of_step h with
  | @arrive r may =>
    refine ⟨ht.registered, ht.asked, forall_mem_join ht.tracks ?_⟩
    cases r with
    | play r =>
      cases r with
      | scoreUpdate | scoreRecalculate | scoreLock | scoreCommit => cases may
      | _ => trivial
    | _ => trivial
  | advance request next => exact ht.advance request next halone
  | abort request => exact ⟨ht.registered, ht.asked, forall_mem_set ht.tracks trivial⟩
  | attempt own next => exact (ht.attempt own next).1

theorem totalsMatch_step {a : Action} (ht : Tracked s) (hmatch : s.db.TotalsMatch)
    (h : step cat s a = some s') : s'.db.TotalsMatch := by
  cases stepped_of_step h with
  | arrive | abort => exact hmatch
  | advance request next => exact totalsMatch_advance ht hmatch request next
  | attempt own next =>
    intro p hp
    rw [(ht.attempt own next).2]
    exact hmatch p hp

theorem tracked_initial {db : Db} (h : db.RoundsRegistered) : Tracked (.initial db) := by
  refine ⟨h, ?_, ?_⟩
  · intro p hp
    cases hp
  · intro r hr
    cases hr

end Runs

/-- **Totals are not lost while listeners take turns.** When no listener commits while another one
of the same participant is between its sums and its commit, everybody's totals are the sums over
the rounds in every state of the run. -/
theorem totalsMatch_of_alone {cat : Catalog} {db : Db} {as : List Action}
    (hregistered : db.RoundsRegistered) (hmatch : db.TotalsMatch)
    (halone : Along (step cat) CommitsAlone (.initial db) as) :
    Always (step cat) (fun s => s.db.TotalsMatch) (.initial db) as := by
  intro pre s hpre hs
  have hinv : Tracked s ∧ s.db.TotalsMatch :=
    (halone.of_prefix hpre).invariant (I := fun s => Tracked s ∧ s.db.TotalsMatch)
      (fun _ _ _ ⟨ht, hm⟩ hc hstep => ⟨tracked_step ht hc hstep, totalsMatch_step ht hm hstep⟩)
      hs ⟨tracked_initial hregistered, hmatch⟩
  exact hinv.2

/-! ## Two rounds of one player -/

/-- The attempt module runs `n` statements of its request number `i`, drawing the ids number
`k`. -/
def plays (i n k : Nat) (eventId : String) : List Action :=
  List.replicate n (.attempt (.advance i
    ⟨attemptNo k, attemptNo k, eventId, "correlation", 0⟩))

def rightAnswer (k : Nat) : AnswerParams :=
  { attemptId := attemptNo k, questionId := 3, selectedOptionId := some 4, nowIso := kickOff,
    timeTakenMs := none }

/-- What the attempt module says when attempt `k`, started at the kick-off, is completed. -/
def roundWon (k : Nat) (nowIso : Int) : CompletionParams :=
  { attemptId := attemptNo k, scorePercent := 10000, correctCount := 1,
    timeTakenMs := nowIso - kickOff, xpEarned := 20, nowIso, quizId := 1,
    userId := player.sub,
    xpOutbox := some ⟨xpIdempotencyKey player.sub (attemptNo k),
      "correlation"⟩,
    quizVersionId := 2, totalAnswers := 1 }

/-- A player registers, the tournament starts, and the player starts attempt 2 in the first round
and attempt 3 in the second one, and answers in both. -/
def inTwoRounds : List Action :=
  .arrive (.enrol (.register 30 player 0)) :: runs 0 2 1 ++
  .arrive (.cron (.start kickOff)) :: runs 1 3 1 ++
  .arrive (.play (.startRound 30 41 player kickOff)) :: runs 2 4 1 ++ plays 0 1 2 "" ++
  .arrive (.play (.startRound 30 42 player kickOff)) :: runs 3 4 1 ++ plays 1 1 3 "" ++
  .attempt (.arrive (.submit player (rightAnswer 2))) :: plays 2 3 2 "" ++
  .attempt (.arrive (.submit player (rightAnswer 3))) :: plays 3 3 3 ""

def twoRoundsPlayed : List Action :=
  inTwoRounds ++
  .attempt (.arrive (.complete (attemptNo 2) player (kickOff + 100))) :: plays 4 5 2 "xp-2" ++
  .attempt (.arrive (.complete (attemptNo 3) player (kickOff + 200))) :: plays 5 5 3 "xp-3"

def oneByOne : List Action :=
  .arrive (.play (.attemptCompleted (roundWon 2 (kickOff + 100)))) :: runs 4 5 1 ++
  .arrive (.play (.attemptCompleted (roundWon 3 (kickOff + 200)))) :: runs 5 5 1

theorem totalsMatch_oneByOne :
    Always (step cupCatalog) (fun s => s.db.TotalsMatch) (.initial openCup)
      (twoRoundsPlayed ++ oneByOne) ∧
    ∃ s, exec (step cupCatalog) (.initial openCup) (twoRoundsPlayed ++ oneByOne) = some s ∧
      s.db.participants.rows.map (·.totals) = [⟨200, 300⟩] :=
  ⟨totalsMatch_of_alone (by decide) (by decide) (by decide +kernel),
    Option.map_eq_some_iff.mp (by decide +kernel)⟩

def bothAtOnce : List Action :=
  .arrive (.play (.attemptCompleted (roundWon 2 (kickOff + 100)))) :: runs 4 3 1 ++
  .arrive (.play (.attemptCompleted (roundWon 3 (kickOff + 200)))) :: runs 5 3 1 ++ runs 4 2 1 ++ runs 5 2 1

/-- Everything has committed, and the points of the first round are not in the totals. -/
theorem lost_round : ∃ s,
    exec (step cupCatalog) (.initial openCup) (twoRoundsPlayed ++ bothAtOnce) = some s ∧
      s.requests.all Request.isOver = true ∧ s.db.sums (Attempt.attemptNo 1) = ⟨200, 300⟩ ∧
      s.db.participants.rows.map (fun p => (p.participantId, p.totals))
        = [(Attempt.attemptNo 1, ⟨100, 200⟩)] ∧
      ¬ s.db.TotalsMatch := by
  refine exists_of_read
    (fun s => (s.requests.all Request.isOver, s.db.sums (Attempt.attemptNo 1),
      s.db.participants.rows.map fun p => (p.participantId, p.totals)))
    (true, ⟨200, 300⟩, [(Attempt.attemptNo 1, ⟨100, 200⟩)]) (by decide +kernel) fun s hs hread => ?_
  obtain ⟨hover, hrest⟩ := Prod.mk.inj hread
  obtain ⟨hsums, hrows⟩ := Prod.mk.inj hrest
  refine ⟨hover, hsums, hrows, ?_⟩
  intro hmatch
  have hmem : (Attempt.attemptNo 1, (⟨100, 200⟩ : Totals)) ∈
      s.db.participants.rows.map fun p => (p.participantId, p.totals) := by
    rw [hrows]
    exact List.mem_singleton_self _
  obtain ⟨p, hp, hpair⟩ := List.mem_map.mp hmem
  obtain ⟨hid, htotals⟩ := Prod.mk.inj hpair
  have hfalse := hmatch p hp
  rw [htotals, hid, hsums] at hfalse
  cases hfalse

end QuizBackend.Tournament
