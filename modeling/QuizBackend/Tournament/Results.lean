import QuizBackend.Tournament.Totals
import QuizBackend.Tournament.Windows

/-!
# Final results

`finalizeSingleTournament` ranks the participants by the sums over their rounds and makes the
tournament `finished`. The leaderboard ranks them by their totals, whenever it is asked. The two
should never disagree after that, and nothing the ranking was made from should change.

Nobody tells the listener, though: an attempt started in an open round can be completed at any
later time, and its points are then added to a tournament that is over (`scored_after_finish`).
`final_of_settled` is for runs in which listeners do not: no listener commits for a tournament that
is finished or whose ranking has been made (`SettlesInTime`). The ranks then agree with the totals
(`RanksSettled`) in every state, which needs that the totals are the sums when the ranking is made.
-/

namespace QuizBackend.Tournament

open Lib Outbox Table Totals Write Contender

/-! ## What stays and what agrees -/

/-- Totals, ranks and round scores are the same in both. -/
structure SameResults (db db' : Db) (tournamentId : Uuid) : Prop where
  participants : ∀ p ∈ db.participants.rows, p.tournamentId = tournamentId →
    ∃ p', db'.participants.find? p.participantId = some p' ∧ p'.tournamentId = tournamentId ∧
      p'.totals = p.totals ∧ p'.rankFinal = p.rankFinal
  rounds : ∀ p ∈ db.participants.rows, p.tournamentId = tournamentId →
    ∀ row ∈ db.attempt.roundParticipants.rows, row.participantId = p.participantId →
      ∃ row', db'.attempt.roundParticipants.find? row.key = some row' ∧
        row'.roundScore = row.roundScore ∧ row'.roundTimeMs = row.roundTimeMs

/-- On participants with different totals, the leaderboard and the final ranks have the same
order. -/
def Db.OrderAgrees (db : Db) (tournamentId : Uuid) : Prop :=
  ∀ e ∈ db.getLeaderboard tournamentId, ∀ f ∈ db.getLeaderboard tournamentId,
    ∀ i j, e.1.rankFinal = some i → f.1.rankFinal = some j → e.1.totals ≠ f.1.totals →
      (e.2 < f.2 ↔ i < j)

structure Db.RanksSettled (db : Db) : Prop where
  finished : ∀ p ∈ db.participants.rows, p.rankFinal ≠ none →
    db.status p.tournamentId = some .finished
  agree : ∀ p ∈ db.participants.rows, ∀ q ∈ db.participants.rows,
    p.tournamentId = q.tournamentId → ∀ i j, p.rankFinal = some i → q.rankFinal = some j →
      p.totals.Beats q.totals → i < j

def Request.finalizes : Request → Option Uuid
  | .cron (.finalizeCommit t _ _ _ _) => some t.tournamentId
  | _ => none

/-- The tournament that request number `i` is about to cancel. -/
def State.cancelling (s : State) (i : Nat) : Option Uuid :=
  match s.requests[i]? with
  | some (.manage (.cancelWrite tournamentId _)) => some tournamentId
  | _ => none

/-- A listener commits before the ranking is made, and a tournament is not cancelled after it is
finished. -/
def SettlesInTime (s : State) : Action → Prop
  | .advance i _ =>
    (∀ score ∈ s.committing i, ∀ p ∈ s.db.participants.find? score.participantId,
      s.db.status p.tournamentId ≠ some .finished ∧
        ∀ r ∈ s.requests, r.finalizes ≠ some p.tournamentId) ∧
    ∀ tournamentId ∈ s.cancelling i, s.db.status tournamentId ≠ some .finished
  | _ => True

instance (s : State) (a : Action) : Decidable (SettlesInTime s a) :=
  match a with
  | .advance .. => inferInstanceAs (Decidable (_ ∧ _))
  | .arrive _ | .abort _ | .attempt _ => .isTrue trivial

/-! ## The two orders -/

section Orders

variable {a b c : Totals}

theorem Totals.beats_trans (hab : a.Beats b) (hbc : b.Beats c) : a.Beats c := by
  simp only [Beats] at *
  omega

theorem Totals.not_beats_self (a : Totals) : ¬ a.Beats a := by
  simp only [Beats]
  omega

theorem Totals.beats_or_beats (h : a ≠ b) : a.Beats b ∨ b.Beats a := by
  obtain ⟨as, at_⟩ := a
  obtain ⟨bs, bt⟩ := b
  simp only [Beats]
  have hne : ¬ (as = bs ∧ at_ = bt) := by
    rintro ⟨rfl, rfl⟩
    exact h rfl
  omega

theorem Contender.not_le_of_beats {x y : Contender} (h : x.totals.Beats y.totals) : ¬ y.le x := by
  rintro (hyx | ⟨heq, -⟩)
  · exact not_beats_self _ (beats_trans h hyx)
  · rw [heq] at h
    exact not_beats_self _ h

instance : Std.Total le where
  total x y := by
    by_cases h : x.totals = y.totals
    · rcases Nat.le_total x.participantId.bits.toNat y.participantId.bits.toNat with hle | hle
      · exact .inl (.inr ⟨h, hle⟩)
      · exact .inr (.inr ⟨h.symm, hle⟩)
    · rcases beats_or_beats h with hbeats | hbeats
      · exact .inl (.inl hbeats)
      · exact .inr (.inl hbeats)

instance : IsTrans Contender le where
  trans x y z hxy hyz := by
    rcases hxy with hxy | ⟨hxy, hle⟩ <;> rcases hyz with hyz | ⟨hyz, hle'⟩
    · exact .inl (beats_trans hxy hyz)
    · exact .inl (hyz ▸ hxy)
    · exact .inl (hxy ▸ hyz)
    · exact .inr ⟨hxy.trans hyz, hle.trans hle'⟩

instance : IsTrans ParticipantRow fun p q => p.totals.Beats q.totals where
  trans _ _ _ := beats_trans

instance : Std.Irrefl fun p q : ParticipantRow => p.totals.Beats q.totals where
  irrefl p := not_beats_self p.totals

theorem leaderboard_lt {db : Db} {tournamentId : Uuid} {e f : ParticipantRow × Nat}
    (he : e ∈ db.getLeaderboard tournamentId) (hf : f ∈ db.getLeaderboard tournamentId)
    (h : e.1.totals.Beats f.1.totals) : e.2 < f.2 := by
  obtain ⟨p, hp, rfl⟩ := List.mem_map.mp he
  obtain ⟨q, hq, rfl⟩ := List.mem_map.mp hf
  exact rank_lt_rank (r := fun p q : ParticipantRow => p.totals.Beats q.totals) hp h

theorem mem_of_mem_leaderboard {db : Db} {tournamentId : Uuid} {e : ParticipantRow × Nat}
    (he : e ∈ db.getLeaderboard tournamentId) :
    e.1 ∈ db.participants.rows ∧ e.1.tournamentId = tournamentId := by
  obtain ⟨p, hp, rfl⟩ := List.mem_map.mp he
  obtain ⟨hmem, hp⟩ := List.mem_filter.mp ((List.mem_insertionSort _).mp hp)
  exact ⟨hmem, (of_decide_eq_true hp).1⟩

theorem Db.RanksSettled.orderAgrees {db : Db} (h : db.RanksSettled) (tournamentId : Uuid) :
    db.OrderAgrees tournamentId := by
  intro e he f hf i j hi hj hne
  obtain ⟨hp, hpt⟩ := mem_of_mem_leaderboard he
  obtain ⟨hq, hqt⟩ := mem_of_mem_leaderboard hf
  rcases beats_or_beats hne with hbeats | hbeats
  · have hrank := leaderboard_lt he hf hbeats
    have hfinal := h.agree _ hp _ hq (hpt.trans hqt.symm) i j hi hj hbeats
    omega
  · have hrank := leaderboard_lt hf he hbeats
    have hfinal := h.agree _ hq _ hp (hqt.trans hpt.symm) j i hj hi hbeats
    omega

end Orders

/-! ## What a finalisation knows -/

/-- The standings that are about to be committed are by the totals the participants have. -/
def Request.Ranks (db : Db) : Request → Prop
  | .cron (.finalizeCommit t standings _ _ _) =>
    (∃ contenders, standings = rowNumber le contenders) ∧
      ∀ c rank, (c, rank) ∈ standings →
        ∃ p, db.participants.find? c.participantId = some p ∧ p.tournamentId = t.tournamentId ∧
          p.totals = c.totals
  | _ => True

structure Settling (s : State) : Prop where
  guarded : Guarded s
  tracked : Tracked s
  totals : s.db.TotalsMatch
  ranks : s.db.RanksSettled
  standings : ∀ r ∈ s.requests, r.Ranks s.db

section Ranking

variable {cat : Catalog} {s : State} {r r' : Request} {w : Write}

theorem ranks_ranked {db : Db} (h : db.TotalsMatch) (t : TournamentRow) (items : List Uuid)
    (nowIso : Int) (next : Option Nat) :
    (Request.cron (.finalizeCommit t (db.ranked cat t.tournamentId) items nowIso next)).Ranks
      db := by
  refine ⟨⟨_, rfl⟩, ?_⟩
  intro c rank hc
  obtain ⟨p, hp, rfl⟩ := List.mem_map.mp (mem_of_mem_rowNumber _ hc)
  obtain ⟨hmem, hp⟩ := List.mem_filter.mp hp
  exact ⟨p, find?_of_mem hmem, (of_decide_eq_true hp).1, h p hmem⟩

theorem Request.Ranks.apply (h : r'.Ranks s.db) (hlic : Licensed s r w)
    (hscore : ∀ score, w.scores = some score → ∀ p,
      s.db.participants.find? score.participantId = some p →
        r'.finalizes ≠ some p.tournamentId) : r'.Ranks (s.db.apply w) := by
  cases r' with
  | cron r' =>
    cases r' with
    | finalizeCommit t standings items nowIso next =>
      refine ⟨h.1, ?_⟩
      intro c rank hc
      obtain ⟨p, hp, htournament, htotals⟩ := h.2 c rank hc
      refine ⟨w.editsParticipant p,
        find?_participants_apply_of_find? hlic.fresh_participant hp,
        (w.editsParticipant_tournamentId p).trans htournament, ?_⟩
      rw [editsParticipant_totals_of_ne, htotals]
      intro score hw hid
      rw [key_of_find? hp] at hid
      rw [hid] at hp
      exact hscore score hw p hp (congrArg some htournament.symm)
    | _ => trivial
  | _ => trivial

theorem Reaches.ranks (h : Reaches cat s r r') (htotals : s.db.TotalsMatch) :
    r'.Ranks s.db := by
  cases h with
  | @cron r r' h =>
    cases h with
    | plain hplain =>
      cases r' with
      | finalizeCommit => cases hplain
      | _ => trivial
    | dispatchMark | finalizeRank => trivial
    | finalizeCommit => exact ranks_ranked htotals _ _ _ _
  | _ => trivial

end Ranking

/-! ## One step -/

section Commits

variable {cat : Catalog} {s : State} {i : Nat} {d : Drawn} {r : Request} {w : Write}

theorem SettlesInTime.scored {score : RoundScore} (h : SettlesInTime s (.advance i d))
    (hi : s.requests[i]? = some r) (hlic : Licensed s r w) (hw : w.scores = some score)
    {p : ParticipantRow} (hp : s.db.participants.find? score.participantId = some p) :
    s.db.status p.tournamentId ≠ some .finished ∧
      ∀ r' ∈ s.requests, r'.finalizes ≠ some p.tournamentId := by
  obtain ⟨totals, now, rfl, -⟩ := hlic.scores_cases hw
  exact h.1 score (by rw [State.committing, hi]; rfl) p hp

theorem SettlesInTime.cancel (h : SettlesInTime s (.advance i d)) (hi : s.requests[i]? = some r)
    (tournamentId : Uuid) (nowIso : Int) (hr : r = .manage (.cancelWrite tournamentId nowIso)) :
    s.db.status tournamentId ≠ some .finished := by
  subst hr
  exact h.2 tournamentId (by rw [State.cancelling, hi]; rfl)

section

variable (hs : Settling s)
include hs

theorem Settling.finished_apply (h : SettlesInTime s (.advance i d))
    (hi : s.requests[i]? = some r) (hlic : Licensed s r w) {tournamentId : Uuid}
    (hfin : s.db.status tournamentId = some .finished) :
    (s.db.apply w).status tournamentId = some .finished :=
  hs.guarded.terminal (List.mem_of_getElem? hi) hlic (h.cancel hi) tournamentId _ hfin (.inl rfl)

theorem Settling.ranked_cases (hi : s.requests[i]? = some r)
    (hlic : Licensed s r w) {p : ParticipantRow} (hp : p ∈ s.db.participants.rows) {k : Nat}
    (hk : rankIn w.standings p.participantId = some k) :
    s.db.status p.tournamentId = some .ongoing ∧ w.sets = some (p.tournamentId, .finished) ∧
      w.scores = none ∧ ∃ contenders c, w.standings = rowNumber le contenders ∧
        (c, k) ∈ w.standings ∧ c.totals = p.totals := by
  obtain ⟨c, hid, hc⟩ := mem_of_rankIn hk
  have hr := List.mem_of_getElem? hi
  cases hlic with
  | finalizeTournament =>
    obtain ⟨⟨contenders, hstandings⟩, hknown⟩ := hs.standings _ hr
    obtain ⟨q, hq, htournament, htotals⟩ := hknown c k hc
    rw [hid, find?_of_mem hp, Option.some.injEq] at hq
    subst hq
    rw [htournament]
    exact ⟨hs.guarded.locked _ hr _ rfl, rfl, rfl, contenders, c, hstandings, hc, htotals.symm⟩
  | _ => cases hc

theorem Settling.sameResults_apply (h : SettlesInTime s (.advance i d))
    (hi : s.requests[i]? = some r) (hlic : Licensed s r w) {tournamentId : Uuid}
    (hfin : s.db.status tournamentId = some .finished) :
    SameResults s.db (s.db.apply w) tournamentId := by
  -- nobody of a finished tournament is scored
  have hne : ∀ p ∈ s.db.participants.rows, p.tournamentId = tournamentId →
      ∀ score, w.scores = some score → p.participantId ≠ score.participantId := by
    rintro p hp rfl score hw hid
    have hfind := find?_of_mem hp
    rw [hid] at hfind
    exact (h.scored hi hlic hw hfind).1 hfin
  refine ⟨?_, ?_⟩
  · intro p hp htournament
    refine ⟨w.editsParticipant p,
      find?_participants_apply_of_find? hlic.fresh_participant (find?_of_mem hp),
      (w.editsParticipant_tournamentId p).trans htournament,
      editsParticipant_totals_of_ne (hne p hp htournament), ?_⟩
    rw [editsParticipant_rankFinal]
    cases hk : rankIn w.standings p.participantId with
    | none => rfl
    | some k =>
      have hongoing := (hs.ranked_cases hi hlic hp hk).1
      rw [htournament, hfin] at hongoing
      cases hongoing
  · intro p hp htournament row hrow hid
    refine ⟨row, ?_, rfl, rfl⟩
    cases hw : w.scores with
    | none =>
      rw [roundParticipants_apply hw]
      exact find?_of_mem hrow
    | some score =>
      obtain ⟨totals, now, -, rfl⟩ := hlic.scores_cases hw
      have hkey : row.key ≠ score.key := by
        intro hkey
        exact hne p hp htournament score hw (hid.symm.trans (congrArg Prod.snd hkey))
      rw [Db.apply, roundParticipants_scoreRound, RoundScore.apply, find?_modify, if_neg hkey]
      exact find?_of_mem hrow

theorem Settling.rank_cases (hlic : Licensed s r w) {p' : ParticipantRow}
    (hp' : p' ∈ (s.db.apply w).participants.rows) {k : Nat} (hk : p'.rankFinal = some k) :
    ∃ p ∈ s.db.participants.rows, p' = w.editsParticipant p ∧
      (rankIn w.standings p.participantId = some k ∨
        (s.db.status p.tournamentId = some .finished ∧ p.rankFinal = some k)) := by
  rcases find?_participants_of_apply hlic.fresh_participant (find?_of_mem hp') with
    ⟨p, hp, rfl⟩ | ⟨-, hnew⟩
  · have hmem := mem_of_find? hp
    rw [editsParticipant_rankFinal] at hk
    refine ⟨p, hmem, rfl, ?_⟩
    cases hrank : rankIn w.standings p.participantId with
    | some k' =>
      rw [hrank, Option.some_or] at hk
      exact .inl hk
    | none =>
      rw [hrank, Option.none_or] at hk
      refine .inr ⟨hs.ranks.finished p hmem ?_, hk⟩
      rw [hk]
      exact Option.some_ne_none k
  · rw [(hlic.newcomer hnew).2] at hk
    cases hk

theorem Settling.ranks_apply (h : SettlesInTime s (.advance i d))
    (hi : s.requests[i]? = some r) (hlic : Licensed s r w) : (s.db.apply w).RanksSettled := by
  refine ⟨?_, ?_⟩
  · intro p' hp' hrank
    obtain ⟨k, hk⟩ := Option.ne_none_iff_exists'.mp hrank
    obtain ⟨p, hp, rfl, hcase⟩ := hs.rank_cases hlic hp' hk
    rw [editsParticipant_tournamentId]
    rcases hcase with hranked | ⟨hfin, -⟩
    · obtain ⟨hongoing, hset, -⟩ := hs.ranked_cases hi hlic hp hranked
      rw [status_apply_sets hset, if_pos rfl, hongoing, Option.map_some]
    · exact hs.finished_apply h hi hlic hfin
  · intro p' hp' q' hq' htournament i' j' hi' hj' hbeats
    obtain ⟨p, hp, rfl, hpcase⟩ := hs.rank_cases hlic hp' hi'
    obtain ⟨q, hq, rfl, hqcase⟩ := hs.rank_cases hlic hq' hj'
    rw [editsParticipant_tournamentId, editsParticipant_tournamentId] at htournament
    rcases hpcase with hpranked | ⟨hpfin, hprank⟩ <;> rcases hqcase with hqranked | ⟨hqfin, hqrank⟩
    · -- both are ranked now, by one ranking
      obtain ⟨-, -, hw, contenders, c, hstandings, hc, hctotals⟩ :=
        hs.ranked_cases hi hlic hp hpranked
      obtain ⟨-, -, -, -, e, -, he, hetotals⟩ := hs.ranked_cases hi hlic hq hqranked
      rw [editsParticipant_totals hw, editsParticipant_totals hw, ← hctotals,
        ← hetotals] at hbeats
      rw [hstandings] at hc he
      exact lt_of_mem_rowNumber hc he (not_le_of_beats hbeats)
    · have hongoing := (hs.ranked_cases hi hlic hp hpranked).1
      rw [htournament, hqfin] at hongoing
      cases hongoing
    · have hongoing := (hs.ranked_cases hi hlic hq hqranked).1
      rw [← htournament, hpfin] at hongoing
      cases hongoing
    · -- both were ranked before
      have htotals : ∀ x ∈ s.db.participants.rows, s.db.status x.tournamentId = some .finished →
          (w.editsParticipant x).totals = x.totals := by
        intro x hx hfin
        obtain ⟨x', hx', -, hsame, -⟩ :=
          (hs.sameResults_apply h hi hlic hfin).participants x hx rfl
        rw [find?_participants_apply_of_find? hlic.fresh_participant (find?_of_mem hx),
          Option.some.injEq] at hx'
        rw [hx', hsame]
      rw [htotals p hp hpfin, htotals q hq hqfin] at hbeats
      exact hs.ranks.agree p hp q hq htournament i' j' hprank hqrank hbeats

end

end Commits

section Runs

variable {cat : Catalog} {s s' : State} {a : Action} {tournamentId : Uuid}

theorem Settling.advance {i : Nat} {d : Drawn} {r : Request} {g : Advance} (hs : Settling s)
    (halone : CommitsAlone s (.advance i d)) (h : SettlesInTime s (.advance i d))
    (hi : s.requests[i]? = some r) (hg : r.step cat s.db s.locks d = some g) :
    Settling (s.after i g) := by
  have hlic := request_licensed hg
  refine ⟨hs.guarded.advance hi hg, hs.tracked.advance hi hg halone,
    totalsMatch_advance hs.tracked hs.totals hi hg, hs.ranks_apply h hi hlic, ?_⟩
  intro r' hr'
  rcases mem_set_cases hr' with rfl | ⟨j, -, hj⟩
  · refine ((request_reaches hg).ranks hs.totals).apply hlic ?_
    intro score hw p hp
    obtain ⟨totals, now, rfl, -⟩ := hlic.scores_cases hw
    rw [request_scoreCommit hg]
    exact (Option.some_ne_none _).symm
  · have hmem := List.mem_of_getElem? hj
    refine (hs.standings r' hmem).apply hlic ?_
    intro score hw p hp
    exact (h.scored hi hlic hw hp).2 r' hmem

theorem settling_step (hs : Settling s) (halone : CommitsAlone s a) (hin : SettlesInTime s a)
    (h : step cat s a = some s') : Settling s' := by
  have hguarded := guarded_step hs.guarded h
  have htracked := tracked_step hs.tracked halone h
  have htotals := totalsMatch_step hs.tracked hs.totals h
  cases stepped_of_step h with
  | @arrive r may =>
    refine ⟨hguarded, htracked, htotals, hs.ranks, forall_mem_join hs.standings ?_⟩
    cases r with
    | cron r =>
      cases r with
      | finalizeCommit => cases may
      | _ => trivial
    | _ => trivial
  | advance request next => exact hs.advance halone hin request next
  | abort request =>
    exact ⟨hguarded, htracked, htotals, hs.ranks, forall_mem_set hs.standings trivial⟩
  | attempt own next =>
    exact ⟨hguarded, htracked, htotals, ⟨hs.ranks.finished, hs.ranks.agree⟩, hs.standings⟩

theorem SameResults.refl (db : Db) (tournamentId : Uuid) : SameResults db db tournamentId := by
  refine ⟨?_, ?_⟩
  · intro p hp htournament
    exact ⟨p, find?_of_mem hp, htournament, rfl, rfl⟩
  · intro p _ _ row hrow _
    exact ⟨row, find?_of_mem hrow, rfl, rfl⟩

theorem SameResults.trans {db db' db'' : Db} (h : SameResults db db' tournamentId)
    (h' : SameResults db' db'' tournamentId) : SameResults db db'' tournamentId := by
  refine ⟨?_, ?_⟩
  · intro p hp htournament
    obtain ⟨p', hp', htournament', htotals, hrank⟩ := h.participants p hp htournament
    obtain ⟨p'', hp'', htournament'', htotals', hrank'⟩ :=
      h'.participants p' (mem_of_find? hp') htournament'
    rw [key_of_find? hp'] at hp''
    exact ⟨p'', hp'', htournament'', htotals'.trans htotals, hrank'.trans hrank⟩
  · intro p hp htournament row hrow hid
    obtain ⟨p', hp', htournament', -, -⟩ := h.participants p hp htournament
    obtain ⟨row', hrow', hscore, htime⟩ := h.rounds p hp htournament row hrow hid
    have hkey := key_of_find? hrow'
    have hid' : row'.participantId = p'.participantId := by
      rw [key_of_find? hp', ← hid]
      exact congrArg Prod.snd hkey
    obtain ⟨row'', hrow'', hscore', htime'⟩ :=
      h'.rounds p' (mem_of_find? hp') htournament' row' (mem_of_find? hrow') hid'
    rw [hkey] at hrow''
    exact ⟨row'', hrow'', hscore'.trans hscore, htime'.trans htime⟩

theorem sameResults_step (hs : Settling s) (hin : SettlesInTime s a)
    (h : step cat s a = some s') (hfin : s.db.status tournamentId = some .finished) :
    s'.db.status tournamentId = some .finished ∧ SameResults s.db s'.db tournamentId := by
  cases stepped_of_step h with
  | arrive | abort => exact ⟨hfin, .refl _ _⟩
  | advance request next =>
    have hlic := request_licensed next
    exact ⟨hs.finished_apply hin request hlic hfin, hs.sameResults_apply hin request hlic hfin⟩
  | @attempt _ t own next =>
    have hext : Extends s.db.attempt.roundParticipants t.db.roundParticipants _ :=
      extends_of_attemptStep next
    refine ⟨hfin, ?_, ?_⟩
    · intro p hp htournament
      exact ⟨p, find?_of_mem hp, htournament, rfl, rfl⟩
    · intro p _ _ row hrow _
      exact hext.find? (find?_of_mem hrow)

end Runs

/-- A database to start from: the foreign key of the rounds, totals that are the sums, and ranks
that agree with them. -/
structure Db.Consistent (db : Db) : Prop where
  registered : db.RoundsRegistered
  totals : db.TotalsMatch
  ranks : db.RanksSettled

theorem settling_initial {db : Db} (h : db.Consistent) : Settling (.initial db) := by
  refine ⟨guarded_initial db, tracked_initial h.registered, h.totals, h.ranks, ?_⟩
  intro r hr
  cases hr

/-- **Results are final when the listeners are in time.** Once a tournament is finished it stays
so, with the points, totals and ranks of its participants, and the leaderboard has the order of the
ranks. -/
theorem final_of_settled {cat : Catalog} {db : Db} {as bs : List Action} {s s' : State}
    {tournamentId : Uuid} (hdb : db.Consistent)
    (hc : Along (step cat) (fun s a => CommitsAlone s a ∧ SettlesInTime s a) (.initial db)
      (as ++ bs))
    (h : exec (step cat) (.initial db) as = some s) (h' : exec (step cat) s bs = some s')
    (hfin : s.db.status tournamentId = some .finished) :
    s'.db.status tournamentId = some .finished ∧ SameResults s.db s'.db tournamentId ∧
      s'.db.OrderAgrees tournamentId := by
  have hsettling : Settling s :=
    (hc.of_prefix (List.prefix_append as bs)).invariant
      (fun _ _ _ hs ⟨halone, hin⟩ hstep => settling_step hs halone hin hstep) h
      (settling_initial hdb)
  obtain ⟨hsettling', hfin', hsame⟩ := (hc.append_right h).invariant
    (I := fun m => Settling m ∧ m.db.status tournamentId = some .finished ∧
      SameResults s.db m.db tournamentId)
    (fun _ _ _ ⟨hs, hf, hr⟩ ⟨halone, hin⟩ hstep =>
      have hkeep := sameResults_step hs hin hstep hf
      ⟨settling_step hs halone hin hstep, hkeep.1, hr.trans hkeep.2⟩)
    h' ⟨hsettling, hfin, .refl _ _⟩
  exact ⟨hfin', hsame, hsettling'.ranks.orderAgrees tournamentId⟩

/-! ## An attempt that outlives its tournament -/

/-- The rival and the player register, the tournament starts, and the player starts attempt 3 in
the first round and answers. -/
def inOneRound : List Action :=
  .arrive (.enrol (.register 30 rival 0)) :: runs 0 2 1 ++
  .arrive (.enrol (.register 30 Attempt.player 0)) :: runs 1 2 2 ++
  .arrive (.cron (.start kickOff)) :: runs 2 3 1 ++
  .arrive (.play (.startRound 30 41 Attempt.player kickOff)) :: runs 3 4 1 ++ plays 0 1 3 "" ++
  .attempt (.arrive (.submit Attempt.player (rightAnswer 3))) :: plays 1 3 3 ""

/-- The attempt is completed, and its listener is request number `i`. -/
def roundScored (i : Nat) : List Action :=
  .attempt (.arrive (.complete (Attempt.attemptNo 3) Attempt.player (kickOff + 100))) :: plays 2 5 3 "xp-3" ++
  .arrive (.play (.attemptCompleted (roundWon 3 (kickOff + 100)))) :: runs i 5 1

/-- The tournament is finalised, by request number `i`. -/
def finalized (i : Nat) : List Action :=
  .arrive (.cron (.finalizing [30] (2 * kickOff) none)) :: runs i 2 1 ++
  [.advance i ⟨0, ["completed-1", "won", "completed-2"], none, 0⟩]

def afterwards : List Action :=
  .arrive (.play (.startRound 30 42 rival (2 * kickOff + 1))) :: runs 6 4 1 ++
  .arrive (.cron (.closeRounds (2 * kickOff + 2) 1)) :: runs 7 2 1

theorem consistent_openCup : openCup.Consistent := by
  refine ⟨by decide, by decide, ?_, ?_⟩
  · intro p hp
    cases hp
  · intro p hp
    cases hp

def Db.standing (db : Db) (tournamentId : Uuid) : List (Option Nat × Totals × Nat) :=
  (db.getLeaderboard tournamentId).map fun e => (e.1.rankFinal, e.1.totals, e.2)

theorem final_when_scored_before : ∃ s s',
    exec (step cupCatalog) (.initial openCup) (inOneRound ++ roundScored 4 ++ finalized 5)
      = some s ∧ s.db.status 30 = some .finished ∧
    exec (step cupCatalog) s afterwards = some s' ∧
    s'.db.standing 30 = [(some 1, ⟨100, 100⟩, 1), (some 2, ⟨0, 0⟩, 2)] ∧
    SameResults s.db s'.db 30 ∧ s'.db.OrderAgrees 30 := by
  obtain ⟨s, hs, hfin⟩ : ∃ s, exec (step cupCatalog) (.initial openCup)
      (inOneRound ++ roundScored 4 ++ finalized 5) = some s ∧ s.db.status 30 = some .finished :=
    Option.map_eq_some_iff.mp (by decide +kernel)
  obtain ⟨s', hs', hstanding⟩ : ∃ s', exec (step cupCatalog) (.initial openCup)
      (inOneRound ++ roundScored 4 ++ finalized 5 ++ afterwards) = some s' ∧
        s'.db.standing 30 = [(some 1, ⟨100, 100⟩, 1), (some 2, ⟨0, 0⟩, 2)] :=
    Option.map_eq_some_iff.mp (by decide +kernel)
  rw [exec_append, hs, Option.bind_some] at hs'
  obtain ⟨-, hsame, hagrees⟩ :=
    final_of_settled consistent_openCup (by decide +kernel) hs hs' hfin
  exact ⟨s, s', hs, hfin, hs', hstanding, hsame, hagrees⟩

/-- The attempt is completed only after the tournament is finished: the player, ranked second,
comes first on the leaderboard. -/
theorem scored_after_finish : ∃ s s',
    exec (step cupCatalog) (.initial openCup) (inOneRound ++ finalized 4) = some s ∧
    s.db.status 30 = some .finished ∧
    s.db.standing 30 = [(some 1, ⟨0, 0⟩, 1), (some 2, ⟨0, 0⟩, 1)] ∧
    exec (step cupCatalog) s (roundScored 5) = some s' ∧ s'.db.status 30 = some .finished ∧
    s'.db.standing 30 = [(some 2, ⟨100, 100⟩, 1), (some 1, ⟨0, 0⟩, 2)] ∧
    ¬ SameResults s.db s'.db 30 ∧ ¬ s'.db.OrderAgrees 30 := by
  obtain ⟨s, hs, hread⟩ : ∃ s,
      exec (step cupCatalog) (.initial openCup) (inOneRound ++ finalized 4) = some s ∧
        (s.db.status 30, s.db.standing 30)
          = (some .finished, [(some 1, ⟨0, 0⟩, 1), (some 2, ⟨0, 0⟩, 1)]) :=
    Option.map_eq_some_iff.mp (by decide +kernel)
  have hplayer : ((exec (step cupCatalog) (.initial openCup) (inOneRound ++ finalized 4)).bind
      fun s => s.db.participants.find? (Attempt.attemptNo 2)).map
        (fun p => (p.tournamentId, p.totals)) = some (30, ⟨0, 0⟩) := by decide +kernel
  obtain ⟨s', hs', hread'⟩ : ∃ s', exec (step cupCatalog) (.initial openCup)
      (inOneRound ++ finalized 4 ++ roundScored 5) = some s' ∧
        (s'.db.status 30, s'.db.standing 30)
          = (some .finished, [(some 2, ⟨100, 100⟩, 1), (some 1, ⟨0, 0⟩, 2)]) :=
    Option.map_eq_some_iff.mp (by decide +kernel)
  have hplayer' : ((exec (step cupCatalog) (.initial openCup)
      (inOneRound ++ finalized 4 ++ roundScored 5)).bind
      fun s => s.db.participants.find? (Attempt.attemptNo 2)).map (·.totals)
        = some ⟨100, 100⟩ := by decide +kernel
  rw [hs, Option.bind_some] at hplayer
  rw [hs', Option.bind_some] at hplayer'
  rw [exec_append, hs, Option.bind_some] at hs'
  obtain ⟨hfin, hstanding⟩ := Prod.mk.inj hread
  obtain ⟨hfin', hstanding'⟩ := Prod.mk.inj hread'
  refine ⟨s, s', hs, hfin, hstanding, hs', hfin', hstanding', ?_, ?_⟩
  · intro hsame
    obtain ⟨p, hp, hpair⟩ := Option.map_eq_some_iff.mp hplayer
    obtain ⟨htournament, htotals⟩ := Prod.mk.inj hpair
    obtain ⟨p', hp', -, hkept, -⟩ :=
      hsame.participants p (Table.mem_of_find? hp) htournament
    rw [Table.key_of_find? hp] at hp'
    rw [hp', Option.map_some, hkept, htotals] at hplayer'
    cases hplayer'
  · intro hagrees
    have hfirst : (some 2, (⟨100, 100⟩ : Totals), 1) ∈ s'.db.standing 30 := by
      rw [hstanding']
      exact List.mem_cons_self
    have hsecond : (some 1, (⟨0, 0⟩ : Totals), 2) ∈ s'.db.standing 30 := by
      rw [hstanding']
      exact List.mem_cons_of_mem _ List.mem_cons_self
    obtain ⟨e, he, hee⟩ := List.mem_map.mp hfirst
    obtain ⟨f, hf, hff⟩ := List.mem_map.mp hsecond
    simp only [Prod.mk.injEq] at hee hff
    obtain ⟨herank, hetotals, hplace⟩ := hee
    obtain ⟨hfrank, hftotals, hplace'⟩ := hff
    have hiff := hagrees e he f hf 2 1 herank hfrank (by rw [hetotals, hftotals]; decide)
    omega

end QuizBackend.Tournament
