import Mathlib.Data.List.Dedup
import QuizBackend.Lib.Paging
import QuizBackend.Tournament.Results

/-!
# The final ranking (`finalizeTournament` of `tournament-stats.repository.ts`)

One transaction counts the participants, sums their rounds, ranks them, writes the ranks in batches
of a thousand, refreshes the statistics and returns the standings. Its queries carry the same filter
in four places (`ParticipantRow.Contends`), and the sums of a participant without rounds are
`COALESCE`d to 0; so they all speak about the same participants and the same totals
(`rankedQuery_eq`), and the batches write what one update would (`foldlM_updateRanks`).

Three casts can fail, and with them the whole transaction: a sum that is no `int`, a rank that is no
`smallint`, and an average score that does not fit `numeric(10, 2)` (`finalizeTournament_spec`).
-/

namespace QuizBackend.Tournament

open Lib Outbox
open List (map_congr_left map_map mem_map mem_map_of_mem range')

/-! ## The queries -/

/-- `tp.tournament_id = … AND tp.withdrawn_at IS NULL AND u.deleted_at IS NULL`. -/
def ParticipantRow.Contends (cat : Catalog) (tournamentId : Uuid) (p : ParticipantRow) : Prop :=
  p.tournamentId = tournamentId ∧ p.withdrawnAt = none ∧ cat.userDeleted p.userId = false

instance (cat : Catalog) (tournamentId : Uuid) (p : ParticipantRow) :
    Decidable (p.Contends cat tournamentId) := inferInstanceAs (Decidable (_ ∧ _))

namespace Db

variable (db : Db) (cat : Catalog) (tournamentId : Uuid)

def contending : List ParticipantRow :=
  db.participants.rows.filter fun p => p.Contends cat tournamentId

def totalParticipants : Nat := db.participants.rows.countP fun p => p.Contends cat tournamentId

/-- The sums over the rounds, `GROUP BY trp.participant_id`. -/
def roundTotalsQuery : List (Uuid × Totals) :=
  let contending := (db.contending cat tournamentId).map (·.participantId)
  let rows := db.attempt.roundParticipants.rows.filter fun row => row.participantId ∈ contending
  (rows.map (·.participantId)).dedup.map fun participantId =>
    (participantId, roundTotals rows participantId)

/-- `COALESCE(rt.total_score, 0), COALESCE(rt.total_time_ms, 0)` of the left join. -/
def joinedTotals (participantId : Uuid) : Totals :=
  (((db.roundTotalsQuery cat tournamentId).find? fun g => g.1 = participantId).map (·.2)).getD
    ⟨0, 0⟩

def rankedQuery : List (Contender × Nat) :=
  rowNumber Contender.le <| (db.contending cat tournamentId).map fun p =>
    { participantId := p.participantId, userId := p.userId
      totals := db.joinedTotals cat tournamentId p.participantId }

end Db

/-! ## The writes -/

structure Standing where
  userId : Uuid
  rank : Nat
  totalParticipants : Nat

/-- One `UPDATE … FROM (VALUES …)`; `none` when a rank is no `smallint`. -/
def updateRanks (nowIso : Int) (participants : Participants) (batch : List (Contender × Nat)) :
    Option Participants :=
  if batch.any fun s => 32767 < s.2 then none
  else some (participants.update (setFinal batch nowIso) (setFinal_participantId batch nowIso))

/-- `ROUND(AVG(total_score), 2)`, in hundredths and without its sign. -/
def averageScore (scores : List Int) : Nat :=
  (200 * scores.sum.natAbs + scores.length) / (2 * scores.length)

/-- The `average_score` that `refreshTournamentStats` writes fits `numeric(10, 2)`. -/
def averageFits (participants : Participants) (tournamentId : Uuid) : Bool :=
  averageScore ((participants.rows.filter fun p =>
    p.tournamentId = tournamentId && p.rankFinal.isSome).map (·.totalScore)) < 10 ^ 10

def batchSize : Nat := 1000

/-- `finalizeTournament`: the standings it returns and the participants it leaves; `none` when it
fails. -/
def finalizeTournament (cat : Catalog) (db : Db) (tournamentId : Uuid) (nowIso : Int) :
    Option (List Standing × Participants) :=
  let totalParticipants := db.totalParticipants cat tournamentId
  if (db.roundTotalsQuery cat tournamentId).all fun g => g.2.IsInt4 then
    let ranked := db.rankedQuery cat tournamentId
    match (batches batchSize ranked).foldlM (updateRanks nowIso) db.participants with
    | none => none
    | some participants =>
      if averageFits participants tournamentId then
        some (ranked.map fun s =>
          { userId := s.1.userId, rank := s.2, totalParticipants }, participants)
      else none
  else none

/-! ## What is asked of it -/

def finalRank (participants : Participants) (p : ParticipantRow) : Option Nat :=
  (participants.find? p.participantId).bind (·.rankFinal)

/-- Everybody who contended has a rank, as the totals say. -/
structure FinalRanking (cat : Catalog) (db : Db) (tournamentId : Uuid) (standings : List Standing)
    (participants : Participants) : Prop where
  assigned : ∀ p ∈ db.contending cat tournamentId, ∃ p' rank,
    participants.find? p.participantId = some p' ∧ p'.rankFinal = some rank ∧
      p'.status = .completed
  others : ∀ p ∈ db.participants.rows, ¬ p.Contends cat tournamentId →
    participants.find? p.participantId = some p
  ranks : ((db.contending cat tournamentId).map (finalRank participants)).Perm
    ((range' 1 (db.contending cat tournamentId).length).map some)
  order : ∀ p ∈ db.contending cat tournamentId, ∀ q ∈ db.contending cat tournamentId,
    (roundTotals db.attempt.roundParticipants.rows p.participantId).Beats
      (roundTotals db.attempt.roundParticipants.rows q.participantId) →
    ∀ i j, finalRank participants p = some i → finalRank participants q = some j → i < j
  standings : standings.Perm ((db.contending cat tournamentId).filterMap fun p =>
    (finalRank participants p).map fun rank =>
      { userId := p.userId, rank
        totalParticipants := (db.contending cat tournamentId).length })

/-! ## The queries agree -/

variable {participantId : Uuid} {p : ParticipantRow}

section Queries

variable {db : Db} {cat : Catalog} {tournamentId : Uuid}

theorem totalParticipants_eq :
    db.totalParticipants cat tournamentId = (db.contending cat tournamentId).length := by
  rw [Db.totalParticipants, List.countP_eq_length_filter]
  rfl

theorem roundTotals_filter {rows : List Attempt.RoundParticipantRow} {ids : List Uuid}
    (h : participantId ∈ ids) :
    roundTotals (rows.filter fun row => row.participantId ∈ ids) participantId =
      roundTotals rows participantId := by
  have hown : (rows.filter fun row => row.participantId ∈ ids).filter
      (fun row => row.participantId = participantId) =
        rows.filter fun row => row.participantId = participantId := by
    rw [List.filter_filter]
    refine List.filter_congr ?_
    intro row _
    by_cases hid : row.participantId = participantId
    · simp [hid, h]
    · simp [hid]
  rw [roundTotals, roundTotals, hown]

theorem roundTotals_of_not_mem {rows : List Attempt.RoundParticipantRow}
    (h : participantId ∉ rows.map (·.participantId)) : roundTotals rows participantId = ⟨0, 0⟩ := by
  have hnone : rows.filter (fun row => row.participantId = participantId) = [] := by
    refine List.filter_eq_nil_iff.mpr ?_
    intro row hrow hid
    exact h (mem_map.mpr ⟨row, hrow, of_decide_eq_true hid⟩)
  rw [roundTotals, hnone]
  rfl

theorem mem_roundTotalsQuery {g : Uuid × Totals} (h : g ∈ db.roundTotalsQuery cat tournamentId) :
    g.1 ∈ (db.contending cat tournamentId).map (·.participantId) ∧
      g.2 = roundTotals db.attempt.roundParticipants.rows g.1 := by
  obtain ⟨participantId, hmem, rfl⟩ := mem_map.mp h
  obtain ⟨row, hrow, rfl⟩ := mem_map.mp (List.mem_dedup.mp hmem)
  have hin := of_decide_eq_true (List.mem_filter.mp hrow).2
  exact ⟨hin, roundTotals_filter hin⟩

/-- **The left join finds the sums of every contender.** -/
theorem joinedTotals_eq (hp : p ∈ db.contending cat tournamentId) :
    db.joinedTotals cat tournamentId p.participantId =
      roundTotals db.attempt.roundParticipants.rows p.participantId := by
  have hin : p.participantId ∈ (db.contending cat tournamentId).map (·.participantId) :=
    mem_map_of_mem hp
  rw [Db.joinedTotals]
  cases hfind : (db.roundTotalsQuery cat tournamentId).find? fun g => g.1 = p.participantId with
  | some g =>
    obtain ⟨-, htotals⟩ := mem_roundTotalsQuery (List.mem_of_find?_eq_some hfind)
    have hid : g.1 = p.participantId := by simpa using List.find?_some hfind
    rw [Option.map_some, Option.getD_some, htotals, hid]
  | none =>
    -- no group: the participant has no rows
    rw [Option.map_none, Option.getD_none]
    refine (roundTotals_of_not_mem ?_).symm
    intro hmem
    obtain ⟨row, hrow, hid⟩ := mem_map.mp hmem
    refine List.find?_eq_none.mp hfind
      (p.participantId, _) (mem_map.mpr ⟨p.participantId, ?_, rfl⟩) (decide_eq_true rfl)
    refine List.mem_dedup.mpr (mem_map.mpr ⟨row, List.mem_filter.mpr ⟨hrow, ?_⟩, hid⟩)
    exact decide_eq_true (hid ▸ hin)

/-- **The ranking query** ranks the contenders by their sums. -/
theorem rankedQuery_eq : db.rankedQuery cat tournamentId = db.ranked cat tournamentId := by
  rw [Db.rankedQuery, Db.ranked]
  refine congrArg _ (map_congr_left ?_)
  intro p hp
  rw [joinedTotals_eq hp]

end Queries

/-! ## The batches -/

section Batches

variable {standings rest : List (Contender × Nat)} {nowIso : Int}

theorem rankIn_append (participantId : Uuid) :
    rankIn (standings ++ rest) participantId =
      (rankIn standings participantId).or (rankIn rest participantId) := by
  rw [rankIn, List.find?_append, rankIn, rankIn]
  cases standings.find? _ <;> rfl

theorem rankIn_of_mem (hnodup : (standings.map (·.1.participantId)).Nodup) {s : Contender × Nat}
    (hs : s ∈ standings) : rankIn standings s.1.participantId = some s.2 := by
  cases hfind : rankIn standings s.1.participantId with
  | none =>
    rw [rankIn, Option.map_eq_none_iff, List.find?_eq_none] at hfind
    exact absurd (decide_eq_true rfl) (hfind s hs)
  | some k =>
    obtain ⟨c, hid, hc⟩ := mem_of_rankIn hfind
    have hsame := List.inj_on_of_nodup_map hnodup hc hs hid
    rw [← hsame]

theorem rankIn_eq_none_iff :
    rankIn standings participantId = none ↔
      participantId ∉ standings.map (·.1.participantId) := by
  simp [rankIn, List.find?_eq_none, mem_map]

theorem setFinal_setFinal (hnodup : ((standings ++ rest).map (·.1.participantId)).Nodup)
    (p : ParticipantRow) :
    setFinal rest nowIso (setFinal standings nowIso p) = setFinal (standings ++ rest) nowIso p := by
  rw [setFinal, setFinal_participantId, setFinal, setFinal, rankIn_append]
  cases hrank : rankIn standings p.participantId with
  | none => rw [Option.none_or]
  | some k =>
    have hrest : rankIn rest p.participantId = none := by
      obtain ⟨c, hid, hc⟩ := mem_of_rankIn hrank
      rw [List.map_append] at hnodup
      refine rankIn_eq_none_iff.mpr ?_
      intro hmem
      exact (List.nodup_append.mp hnodup).2.2 _ (hid ▸ mem_map_of_mem hc) _ hmem rfl
    rw [hrest, Option.some_or]

/-- **The batches write what one update would**, if every rank is a `smallint`. -/
theorem foldlM_updateRanks (bs : List (List (Contender × Nat)))
    (hnodup : (bs.flatten.map (·.1.participantId)).Nodup) (participants : Participants) :
    if ∀ s ∈ bs.flatten, s.2 ≤ 32767 then
      ∃ ps, bs.foldlM (updateRanks nowIso) participants = some ps ∧
        ps.rows = participants.rows.map (setFinal bs.flatten nowIso)
    else bs.foldlM (updateRanks nowIso) participants = none := by
  induction bs generalizing participants with
  | nil =>
    rw [if_pos (by simp)]
    refine ⟨participants, rfl, ?_⟩
    exact (List.map_id _).symm
  | cons batch bs ih =>
    rw [List.flatten_cons] at hnodup ⊢
    have hrest : (bs.flatten.map (·.1.participantId)).Nodup := by
      rw [List.map_append] at hnodup
      exact (List.nodup_append.mp hnodup).2.1
    rw [List.foldlM_cons]
    by_cases hbatch : ∀ s ∈ batch, s.2 ≤ 32767
    · have hupdate : updateRanks nowIso participants batch =
          some (participants.update (setFinal batch nowIso)
            (setFinal_participantId batch nowIso)) := by
        refine if_neg ?_
        simpa using hbatch
      have hih := ih hrest (participants.update (setFinal batch nowIso)
        (setFinal_participantId batch nowIso))
      rw [hupdate, Option.bind_eq_bind, Option.bind_some]
      by_cases hall : ∀ s ∈ bs.flatten, s.2 ≤ 32767
      · rw [if_pos hall] at hih
        obtain ⟨ps, hps, hrows⟩ := hih
        rw [if_pos (List.forall_mem_append.mpr ⟨hbatch, hall⟩)]
        refine ⟨ps, hps, hrows.trans ?_⟩
        change (participants.rows.map _).map _ = _
        rw [map_map]
        refine map_congr_left ?_
        intro p _
        exact setFinal_setFinal hnodup p
      · rw [if_neg hall] at hih
        rw [if_neg fun h => hall (List.forall_mem_append.mp h).2]
        exact hih
    · have hupdate : updateRanks nowIso participants batch = none := by
        refine if_pos ?_
        simpa using hbatch
      rw [hupdate, if_neg fun h => hbatch (List.forall_mem_append.mp h).1]
      rfl

end Batches

/-! ## What is written -/

section Ranks

variable {db : Db} {cat : Catalog} {tournamentId : Uuid} {nowIso : Int}

theorem map_fst_ranked_perm : ((db.ranked cat tournamentId).map (·.1.participantId)).Perm
    ((db.contending cat tournamentId).map (·.participantId)) := by
  have hperm := (map_fst_rowNumber_perm Contender.le (db.contenders cat tournamentId)).map
    (·.participantId)
  rw [map_map, Db.contenders, map_map] at hperm
  exact hperm

theorem nodup_ranked : ((db.ranked cat tournamentId).map (·.1.participantId)).Nodup :=
  map_fst_ranked_perm.nodup_iff.mpr
    (db.participants.nodup.sublist (List.filter_sublist.map _))

theorem map_snd_ranked : (db.ranked cat tournamentId).map Prod.snd =
    range' 1 (db.contending cat tournamentId).length := by
  rw [Db.ranked, map_snd_rowNumber, Db.contenders, List.length_map]
  rfl

theorem contends_of_mem (hp : p ∈ db.contending cat tournamentId) :
    p ∈ db.participants.rows ∧ p.Contends cat tournamentId := by
  obtain ⟨hmem, hcontends⟩ := List.mem_filter.mp hp
  exact ⟨hmem, of_decide_eq_true hcontends⟩

theorem rankIn_ranked_eq_none_iff (hp : p ∈ db.participants.rows) :
    rankIn (db.ranked cat tournamentId) p.participantId = none ↔
      ¬ p.Contends cat tournamentId := by
  rw [rankIn_eq_none_iff, map_fst_ranked_perm.mem_iff, not_iff_not]
  constructor
  · intro hmem
    obtain ⟨q, hq, hid⟩ := mem_map.mp hmem
    obtain ⟨hqmem, hcontends⟩ := contends_of_mem hq
    exact Table.eq_of_key_eq hqmem hp hid ▸ hcontends
  · intro hcontends
    exact mem_map_of_mem (List.mem_filter.mpr ⟨hp, decide_eq_true hcontends⟩)

theorem mem_ranked_of_rankIn (hp : p ∈ db.contending cat tournamentId) {k : Nat}
    (hk : rankIn (db.ranked cat tournamentId) p.participantId = some k) :
    (({ participantId := p.participantId, userId := p.userId,
        totals := roundTotals db.attempt.roundParticipants.rows p.participantId } : Contender), k) ∈
      db.ranked cat tournamentId := by
  obtain ⟨c, hid, hc⟩ := mem_of_rankIn hk
  obtain ⟨q, hq, rfl⟩ := mem_map.mp (mem_of_mem_rowNumber _ hc)
  have hqp : q = p :=
    Table.eq_of_key_eq (contends_of_mem hq).1 (contends_of_mem hp).1 hid
  exact hqp ▸ hc

end Ranks

section Final

variable {db : Db} {cat : Catalog} {tournamentId : Uuid} {nowIso : Int} {ps : Participants}

section

variable (hrows : ps.rows = db.participants.rows.map (setFinal (db.ranked cat tournamentId) nowIso))
include hrows

theorem find?_of_rows (hp : p ∈ db.participants.rows) :
    ps.find? p.participantId = some (setFinal (db.ranked cat tournamentId) nowIso p) := by
  have hmem : setFinal (db.ranked cat tournamentId) nowIso p ∈ ps.rows := by
    rw [hrows]
    exact mem_map_of_mem hp
  have hfind := Table.find?_of_mem hmem
  rwa [setFinal_participantId] at hfind

theorem finalRank_of_rows (hp : p ∈ db.contending cat tournamentId) :
    ∃ k, rankIn (db.ranked cat tournamentId) p.participantId = some k ∧
      finalRank ps p = some k := by
  obtain ⟨hmem, hcontends⟩ := contends_of_mem hp
  cases hk : rankIn (db.ranked cat tournamentId) p.participantId with
  | none => exact absurd hcontends ((rankIn_ranked_eq_none_iff hmem).mp hk)
  | some k =>
    refine ⟨k, rfl, ?_⟩
    rw [finalRank, find?_of_rows hrows hmem, Option.bind_some, setFinal, hk]

theorem finalRanking_of_rows :
    FinalRanking cat db tournamentId ((db.ranked cat tournamentId).map fun s =>
      { userId := s.1.userId, rank := s.2
        totalParticipants := (db.contending cat tournamentId).length }) ps := by
  have hfinal : ∀ p ∈ db.contending cat tournamentId,
      finalRank ps p = rankIn (db.ranked cat tournamentId) p.participantId := by
    intro p hp
    obtain ⟨k, hk, hrank⟩ := finalRank_of_rows hrows hp
    rw [hrank, hk]
  refine ⟨?_, ?_, ?_, ?_, ?_⟩
  · intro p hp
    obtain ⟨k, hk, -⟩ := finalRank_of_rows hrows hp
    refine ⟨_, k, find?_of_rows hrows (contends_of_mem hp).1, ?_, ?_⟩
    · rw [setFinal, hk]
    · rw [setFinal, hk]
  · intro p hp hnot
    rw [find?_of_rows hrows hp, setFinal, (rankIn_ranked_eq_none_iff hp).mpr hnot]
  · -- the ranks of the contenders are the numbers of the ranking, in another order
    have hranks : (db.contending cat tournamentId).map (finalRank ps) =
        ((db.contending cat tournamentId).map (·.participantId)).map
          (rankIn (db.ranked cat tournamentId)) := by
      rw [map_map]
      exact map_congr_left hfinal
    have hnumbers : ((db.ranked cat tournamentId).map (·.1.participantId)).map
        (rankIn (db.ranked cat tournamentId)) =
          (range' 1 (db.contending cat tournamentId).length).map some := by
      rw [map_map, ← map_snd_ranked, map_map]
      exact map_congr_left fun s hs => rankIn_of_mem nodup_ranked hs
    rw [hranks, ← hnumbers]
    exact (map_fst_ranked_perm.map _).symm
  · intro p hp q hq hbeats i j hi hj
    rw [hfinal p hp] at hi
    rw [hfinal q hq] at hj
    exact lt_of_mem_rowNumber (mem_ranked_of_rankIn hp hi) (mem_ranked_of_rankIn hq hj)
      (Contender.not_le_of_beats hbeats)
  · let standing := fun c : Contender =>
      (rankIn (db.ranked cat tournamentId) c.participantId).map fun rank : Nat =>
        ({ userId := c.userId, rank
           totalParticipants := (db.contending cat tournamentId).length } : Standing)
    have hreturned : (db.ranked cat tournamentId).map (fun s =>
        ({ userId := s.1.userId, rank := s.2
           totalParticipants := (db.contending cat tournamentId).length } : Standing)) =
          ((db.ranked cat tournamentId).map Prod.fst).filterMap standing := by
      rw [List.filterMap_map, ← List.filterMap_eq_map]
      refine List.filterMap_congr ?_
      intro s hs
      simp only [standing, Function.comp_apply, rankIn_of_mem nodup_ranked hs, Option.map_some]
    have hcontenders : (db.contending cat tournamentId).filterMap (fun p =>
        (finalRank ps p).map fun rank =>
          ({ userId := p.userId, rank
             totalParticipants := (db.contending cat tournamentId).length } : Standing)) =
          (db.contenders cat tournamentId).filterMap standing := by
      rw [Db.contenders, List.filterMap_map]
      refine List.filterMap_congr ?_
      intro p hp
      rw [hfinal p hp]
      rfl
    rw [hreturned, hcontenders]
    exact (map_fst_rowNumber_perm Contender.le _).filterMap _

end

end Final

/-! ## When it goes through -/

def RankingFits (cat : Catalog) (db : Db) (tournamentId : Uuid) : Prop :=
  (∀ p ∈ db.contending cat tournamentId,
    (roundTotals db.attempt.roundParticipants.rows p.participantId).IsInt4) ∧
  (db.contending cat tournamentId).length ≤ 32767 ∧
  averageScore ((db.participants.rows.filter fun p =>
    p.tournamentId = tournamentId ∧ (p.Contends cat tournamentId ∨ p.rankFinal ≠ none)).map
      (·.totalScore)) < 10 ^ 10

section Fits

variable {db : Db} {cat : Catalog} {tournamentId : Uuid} {nowIso : Int} {ps : Participants}

theorem sumsFit_iff : ((db.roundTotalsQuery cat tournamentId).all fun g => g.2.IsInt4) = true ↔
    ∀ p ∈ db.contending cat tournamentId,
      (roundTotals db.attempt.roundParticipants.rows p.participantId).IsInt4 := by
  rw [List.all_eq_true]
  constructor
  · intro h p hp
    rw [← joinedTotals_eq hp, Db.joinedTotals]
    cases hfind : (db.roundTotalsQuery cat tournamentId).find? fun g => g.1 = p.participantId with
    | some g => exact of_decide_eq_true (h g (List.mem_of_find?_eq_some hfind))
    | none => exact ⟨by decide, by decide⟩
  · intro h g hg
    obtain ⟨hin, htotals⟩ := mem_roundTotalsQuery hg
    obtain ⟨p, hp, hid⟩ := mem_map.mp hin
    exact decide_eq_true (htotals ▸ hid ▸ h p hp)

theorem ranksFit_iff : (∀ s ∈ db.ranked cat tournamentId, s.2 ≤ 32767) ↔
    (db.contending cat tournamentId).length ≤ 32767 := by
  have hmem : ∀ k, (∃ s ∈ db.ranked cat tournamentId, s.2 = k) ↔
      1 ≤ k ∧ k < 1 + (db.contending cat tournamentId).length := by
    intro k
    rw [← List.mem_range'_1, ← map_snd_ranked, mem_map]
  constructor
  · intro h
    by_contra hlong
    obtain ⟨s, hs, hk⟩ := (hmem (db.contending cat tournamentId).length).mpr (by omega)
    have hle := h s hs
    omega
  · intro h s hs
    have hbounds := (hmem s.2).mp ⟨s, hs, rfl⟩
    omega

theorem setFinal_frame (standings : List (Contender × Nat)) (nowIso : Int) (p : ParticipantRow) :
    (setFinal standings nowIso p).tournamentId = p.tournamentId ∧
      (setFinal standings nowIso p).totalScore = p.totalScore := by
  unfold setFinal
  split <;> exact ⟨rfl, rfl⟩

theorem isSome_rankFinal_setFinal (hp : p ∈ db.participants.rows) :
    (setFinal (db.ranked cat tournamentId) nowIso p).rankFinal.isSome =
      decide (p.Contends cat tournamentId ∨ p.rankFinal ≠ none) := by
  cases hk : rankIn (db.ranked cat tournamentId) p.participantId with
  | some k =>
    have hcontends : p.Contends cat tournamentId := by
      by_contra hnot
      rw [(rankIn_ranked_eq_none_iff hp).mpr hnot] at hk
      cases hk
    rw [decide_eq_true (.inl hcontends), setFinal, hk]
    rfl
  | none =>
    have hnot := (rankIn_ranked_eq_none_iff hp).mp hk
    rw [setFinal, hk]
    cases p.rankFinal <;> simp [hnot]

theorem averageFits_iff (hrows : ps.rows = db.participants.rows.map
      (setFinal (db.ranked cat tournamentId) nowIso)) :
    averageFits ps tournamentId = true ↔
      averageScore ((db.participants.rows.filter fun p => p.tournamentId = tournamentId ∧
        (p.Contends cat tournamentId ∨ p.rankFinal ≠ none)).map (·.totalScore)) < 10 ^ 10 := by
  have hranked : ∀ p ∈ db.participants.rows,
      ((fun p : ParticipantRow => decide (p.tournamentId = tournamentId) && p.rankFinal.isSome) ∘
        setFinal (db.ranked cat tournamentId) nowIso) p =
      decide (p.tournamentId = tournamentId ∧
        (p.Contends cat tournamentId ∨ p.rankFinal ≠ none)) := by
    intro p hp
    rw [Function.comp_apply, (setFinal_frame _ _ p).1, isSome_rankFinal_setFinal hp,
      Bool.decide_and]
  have hscores : (ps.rows.filter fun p =>
      p.tournamentId = tournamentId && p.rankFinal.isSome).map (·.totalScore) =
        (db.participants.rows.filter fun p => p.tournamentId = tournamentId ∧
          (p.Contends cat tournamentId ∨ p.rankFinal ≠ none)).map (·.totalScore) := by
    rw [hrows, List.filter_map, map_map, List.filter_congr hranked]
    exact map_congr_left fun p _ => (setFinal_frame _ _ p).2
  rw [averageFits, hscores, decide_eq_true_iff]

theorem finalizeTournament_of_sumsFit
    (hsums : ((db.roundTotalsQuery cat tournamentId).all fun g => g.2.IsInt4) = true) :
    (∃ ps : Participants, (db.contending cat tournamentId).length ≤ 32767 ∧
      ps.rows = db.participants.rows.map (setFinal (db.ranked cat tournamentId) nowIso) ∧
      finalizeTournament cat db tournamentId nowIso =
        if averageFits ps tournamentId then
          some ((db.ranked cat tournamentId).map fun s =>
            { userId := s.1.userId, rank := s.2
              totalParticipants := (db.contending cat tournamentId).length }, ps)
        else none) ∨
    (¬ (db.contending cat tournamentId).length ≤ 32767 ∧
      finalizeTournament cat db tournamentId nowIso = none) := by
  have hbatches := @foldlM_updateRanks nowIso (batches batchSize (db.ranked cat tournamentId))
    (by rw [flatten_batches (by decide)]; exact nodup_ranked) db.participants
  rw [flatten_batches (by decide)] at hbatches
  rw [finalizeTournament, rankedQuery_eq, totalParticipants_eq]
  by_cases hranks : ∀ s ∈ db.ranked cat tournamentId, s.2 ≤ 32767
  · rw [if_pos hranks] at hbatches
    obtain ⟨ps, hps, hrows⟩ := hbatches
    refine .inl ⟨ps, ranksFit_iff.mp hranks, hrows, ?_⟩
    simp only [hsums, hps, if_true]
  · rw [if_neg hranks] at hbatches
    refine .inr ⟨fun hle => hranks (ranksFit_iff.mpr hle), ?_⟩
    simp only [hsums, hbatches, if_true]

theorem sumsFit_of_finalizeTournament {standings : List Standing}
    (h : finalizeTournament cat db tournamentId nowIso = some (standings, ps)) :
    ((db.roundTotalsQuery cat tournamentId).all fun g => g.2.IsInt4) = true := by
  by_contra hsums
  rw [finalizeTournament] at h
  simp only [hsums] at h
  cases h

theorem of_finalizeTournament {standings : List Standing}
    (h : finalizeTournament cat db tournamentId nowIso = some (standings, ps)) :
    RankingFits cat db tournamentId ∧ FinalRanking cat db tournamentId standings ps := by
  have hsums := sumsFit_of_finalizeTournament h
  rcases @finalizeTournament_of_sumsFit db cat tournamentId nowIso hsums with
    ⟨ps', hranks, hrows, hcall⟩ | ⟨-, hcall⟩
  · rw [h] at hcall
    split at hcall
    · next haverage =>
      obtain ⟨rfl, rfl⟩ := Prod.mk.inj (Option.some.inj hcall)
      exact ⟨⟨sumsFit_iff.mp hsums, hranks, (averageFits_iff hrows).mp haverage⟩,
        finalRanking_of_rows hrows⟩
    · cases hcall
  · rw [h] at hcall
    cases hcall

theorem not_rankingFits_of_none (h : finalizeTournament cat db tournamentId nowIso = none) :
    ¬ RankingFits cat db tournamentId := by
  rintro ⟨hsums, hranks, haverage⟩
  rcases @finalizeTournament_of_sumsFit db cat tournamentId nowIso (sumsFit_iff.mpr hsums) with
    ⟨ps, -, hrows, hcall⟩ | ⟨hnot, -⟩
  · rw [h, if_pos ((averageFits_iff hrows).mpr haverage)] at hcall
    cases hcall
  · exact hnot hranks

end Fits

/-- **The final ranking.** If the sums, the ranks and the average score fit their columns, the call
ranks the contenders, and nobody else, from 1 to `n` by their sums, and returns these ranks; if one
does not, the call fails. -/
theorem finalizeTournament_spec (cat : Catalog) (db : Db) (tournamentId : Uuid) (nowIso : Int) :
    match finalizeTournament cat db tournamentId nowIso with
    | some (standings, participants) => RankingFits cat db tournamentId ∧
        FinalRanking cat db tournamentId standings participants
    | none => ¬ RankingFits cat db tournamentId := by
  cases hcall : finalizeTournament cat db tournamentId nowIso with
  | some result => exact of_finalizeTournament hcall
  | none => exact not_rankingFits_of_none hcall

def crowd (n : Nat) : List ParticipantRow :=
  (List.range n).map fun i => newParticipant (Attempt.attemptNo i) 30 (Attempt.attemptNo i) 0

theorem crowd_nodup : ((crowd 32768).map (·.participantId)).Nodup := by
  rw [crowd, map_map]
  refine List.nodup_range.map_on ?_
  intro i hi j hj heq
  rw [List.mem_range] at hi hj
  have hbits : BitVec.ofNat 128 (100 + i) = BitVec.ofNat 128 (100 + j) := congrArg Uuid.bits heq
  have hnat := congrArg BitVec.toNat hbits
  rw [BitVec.toNat_ofNat, BitVec.toNat_ofNat] at hnat
  omega

theorem contending_crowd (t : TournamentRow) (n : Nat)
    (h : ((crowd n).map ParticipantRow.participantId).Nodup) :
    (cupDb t ⟨crowd n, h⟩).contending cupCatalog 30 = crowd n := by
  refine List.filter_eq_self.mpr ?_
  intro p hp
  obtain ⟨i, -, rfl⟩ := mem_map.mp hp
  exact decide_eq_true ⟨rfl, rfl, rfl⟩

/-- The cup with one player more than a `smallint` counts. -/
def crowdedCup : Db := cupDb (cup .finished none) ⟨crowd 32768, crowd_nodup⟩

theorem crowd_is_not_ranked : ¬ ∃ standings participants,
    finalizeTournament cupCatalog crowdedCup 30 3000 = some (standings, participants) ∧
      FinalRanking cupCatalog crowdedCup 30 standings participants := by
  rintro ⟨standings, participants, hcall, -⟩
  have hranks := (of_finalizeTournament hcall).1.2.1
  rw [crowdedCup, contending_crowd, crowd, List.length_map, List.length_range] at hranks
  omega

end QuizBackend.Tournament
