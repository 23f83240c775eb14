import QuizBackend.Tournament.Tables

/-!
# What a write does to the tables

Each of the thirteen writes touches a few columns. The results about runs are each about a few
columns, too, so the writes are described here once from the side of what is read: the status of a
tournament, its capacity, the participants, their points and their ranks.
-/

namespace QuizBackend.Tournament

open Lib Outbox Db Table

/-! ## The status of a tournament -/

def Db.status (db : Db) (tournamentId : Uuid) : Option TournamentStatus :=
  (db.tournaments.find? tournamentId).map (·.status)

theorem find?_of_getTournamentById {db : Db} {tournamentId : Uuid} {t : TournamentRow}
    (h : db.getTournamentById tournamentId = some t) : db.tournaments.find? tournamentId = some t :=
  (Option.filter_eq_some_iff.mp h).1

theorem status_of_getTournamentById {db : Db} {tournamentId : Uuid} {t : TournamentRow}
    (h : db.getTournamentById tournamentId = some t) : db.status tournamentId = some t.status := by
  rw [status, find?_of_getTournamentById h, Option.map_some]

def Write.sets : Write → Option (Uuid × TournamentStatus)
  | .setTournamentStatus tournamentId status _ => some (tournamentId, status)
  | .finalizeTournament tournamentId _ _ _ => some (tournamentId, .finished)
  | _ => none

variable {b participantId : Uuid} {p : ParticipantRow}

section Status

variable {db : Db} {w : Write} {tournamentId : Uuid} {status : TournamentStatus}

theorem status_apply_sets (h : w.sets = some (tournamentId, status)) (b : Uuid) :
    (db.apply w).status b =
      if b = tournamentId then (db.status tournamentId).map fun _ => status else db.status b := by
  cases w with
  | setTournamentStatus id st nowIso =>
    cases h
    rw [Db.status, Db.apply, Db.setTournamentStatus, find?_modify]
    split <;> simp [Db.status, Function.comp_def, setStatus]
  | finalizeTournament id standings nowIso events =>
    cases h
    rw [status, apply, finalizeTournament, schedule, setTournamentStatus,
      find?_modify]
    split <;> simp [status, Function.comp_def, setStatus]
  | _ => cases h

theorem status_apply_createTournament {row : TournamentRow}
    (fresh : db.tournaments.find? row.tournamentId = none) (b : Uuid) :
    (db.apply (.createTournament row)).status b =
      if row.tournamentId = b then some row.status else db.status b := by
  obtain ⟨ts, hts⟩ := insert?_isSome fresh
  rw [status, apply, createTournament, hts, Option.getD_some, find?_insert? hts]
  split <;> simp [status]

theorem status_apply_other (h : w.sets = none) (hc : ∀ row, w ≠ .createTournament row) (b : Uuid) :
    (db.apply w).status b = db.status b := by
  cases w with
  | createTournament row => exact absurd rfl (hc row)
  | setTournamentStatus | finalizeTournament => cases h
  | updateTournament id dto nowIso =>
    rw [status, apply, updateTournament, find?_modify]
    split
    · rename_i hb
      simp [status, hb, Function.comp_def, UpdateTournamentDto.set]
    · rfl
  | softDeleteTournament id nowIso =>
    rw [status, apply, softDeleteTournament, find?_modify]
    split
    · rename_i hb
      simp [status, hb, Function.comp_def, setDeleted]
    · rfl
  | _ => rfl

section

variable (fresh : ∀ row, w = .createTournament row → db.tournaments.find? row.tournamentId = none)
include fresh

theorem status_of_apply (h : (db.apply w).status b = some status) :
    db.status b = some status ∨ w.sets = some (b, status) ∨
      ∃ row, w = .createTournament row ∧ row.status = status := by
  cases hset : w.sets with
  | some change =>
    obtain ⟨id, st⟩ := change
    rw [status_apply_sets hset] at h
    split at h
    · rename_i hb
      obtain ⟨old, -, rfl⟩ := Option.map_eq_some_iff.mp h
      exact .inr (.inl (by rw [hb]))
    · exact .inl h
  | none =>
    by_cases hc : ∃ row, w = .createTournament row
    · obtain ⟨row, rfl⟩ := hc
      rw [status_apply_createTournament (fresh row rfl)] at h
      split at h
      · exact .inr (.inr ⟨row, rfl, Option.some.inj h⟩)
      · exact .inl h
    · rw [status_apply_other hset fun row hrow => hc ⟨row, hrow⟩] at h
      exact .inl h

theorem status_apply_of_ne (hne : ∀ st, w.sets ≠ some (b, st)) (h : db.status b = some status) :
    (db.apply w).status b = some status := by
  cases hset : w.sets with
  | some change =>
    obtain ⟨id, st⟩ := change
    have hb : b ≠ id := by
      rintro rfl
      exact hne st hset
    rw [status_apply_sets hset, if_neg hb, h]
  | none =>
    by_cases hc : ∃ row, w = .createTournament row
    · obtain ⟨row, rfl⟩ := hc
      have hb : row.tournamentId ≠ b := by
        rintro rfl
        rw [Db.status, fresh row rfl] at h
        cases h
      rw [status_apply_createTournament (fresh row rfl), if_neg hb, h]
    · rw [status_apply_other hset fun row hrow => hc ⟨row, hrow⟩, h]

theorem status_isSome_apply (h : (db.status b).isSome = true) : ((db.apply w).status b).isSome = true := by
  obtain ⟨st, hst⟩ := Option.isSome_iff_exists.mp h
  by_cases hset : ∃ new, w.sets = some (b, new)
  · obtain ⟨new, hset⟩ := hset
    rw [status_apply_sets hset, if_pos rfl, hst]
    rfl
  · rw [status_apply_of_ne fresh (fun new hnew => hset ⟨new, hnew⟩) hst]
    rfl

end

end Status

/-! ## The capacity of a tournament -/

/-- `max_participants`; `none` also when there is no such tournament. -/
def Db.capacity (db : Db) (tournamentId : Uuid) : Option Int :=
  (db.tournaments.find? tournamentId).bind (·.maxParticipants)

section Capacity

variable {db : Db} {w : Write}

theorem capacity_apply_updateTournament (db : Db) (tournamentId : Uuid)
    (dto : UpdateTournamentDto) (nowIso : Int) (b : Uuid) :
    (db.apply (.updateTournament tournamentId dto nowIso)).capacity b =
      if b = tournamentId then (db.tournaments.find? tournamentId).bind fun t =>
        dto.maxParticipants.getD t.maxParticipants
      else db.capacity b := by
  rw [capacity, apply, updateTournament, find?_modify]
  split
  · cases db.tournaments.find? tournamentId <;> rfl
  · rfl

theorem capacity_apply_createTournament {row : TournamentRow}
    (fresh : db.tournaments.find? row.tournamentId = none) (b : Uuid) :
    (db.apply (.createTournament row)).capacity b =
      if row.tournamentId = b then row.maxParticipants else db.capacity b := by
  obtain ⟨ts, hts⟩ := insert?_isSome fresh
  rw [capacity, apply, createTournament, hts, Option.getD_some, find?_insert? hts]
  split <;> rfl

theorem capacity_apply_other (hu : ∀ tournamentId dto nowIso,
      w ≠ .updateTournament tournamentId dto nowIso)
    (hc : ∀ row, w ≠ .createTournament row) (b : Uuid) :
    (db.apply w).capacity b = db.capacity b := by
  cases w with
  | createTournament row => exact absurd rfl (hc row)
  | updateTournament tournamentId dto nowIso => exact absurd rfl (hu tournamentId dto nowIso)
  | softDeleteTournament tournamentId nowIso =>
    rw [capacity, apply, softDeleteTournament, find?_modify]
    split
    · rename_i hb
      rw [hb, capacity]
      cases db.tournaments.find? tournamentId <;> rfl
    · rfl
  | setTournamentStatus tournamentId status nowIso =>
    rw [capacity, apply, setTournamentStatus, find?_modify]
    split
    · rename_i hb
      rw [hb, capacity]
      cases db.tournaments.find? tournamentId <;> rfl
    · rfl
  | finalizeTournament tournamentId standings nowIso events =>
    rw [capacity, apply, finalizeTournament, schedule, setTournamentStatus,
      find?_modify]
    split
    · rename_i hb
      rw [hb, capacity]
      cases db.tournaments.find? tournamentId <;> rfl
    · rfl
  | _ => rfl

end Capacity

/-! ## Participants -/

/-- The `UPDATE` of `tournament_participants` in a write. -/
def Write.editsParticipant : Write → ParticipantRow → ParticipantRow
  | .reactivateParticipant participantId nowIso, p =>
    if p.participantId = participantId then setReactivated nowIso p else p
  | .withdrawParticipant participantId nowIso _, p =>
    if p.participantId = participantId then setWithdrawn nowIso p else p
  | .finalizeTournament _ standings nowIso _, p => setFinal standings nowIso p
  | .scoreRound score (some totals) now, p =>
    if p.participantId = score.participantId then setTotals totals now p else p
  | _, p => p

def Write.registers : Write → Option ParticipantRow
  | .insertParticipant row _ => some row
  | _ => none

section Participants

variable {db : Db} {w : Write}

theorem of_getParticipantByUserAndTournament {userId tournamentId : Uuid}
    (h : db.getParticipantByUserAndTournament userId tournamentId = some p) :
    db.participants.find? p.participantId = some p ∧ p.tournamentId = tournamentId := by
  have hp : p.tournamentId = tournamentId ∧ p.userId = userId := by
    simpa using List.find?_some h
  exact ⟨find?_of_mem (List.mem_of_find?_eq_some h), hp.1⟩

theorem Write.editsParticipant_participantId (w : Write) (p : ParticipantRow) :
    (w.editsParticipant p).participantId = p.participantId := by
  cases w with
  | reactivateParticipant | withdrawParticipant =>
    simp only [Write.editsParticipant]
    split <;> rfl
  | finalizeTournament tournamentId standings nowIso events =>
    exact setFinal_participantId standings nowIso p
  | scoreRound score totals now =>
    cases totals with
    | none => rfl
    | some totals =>
      simp only [Write.editsParticipant]
      split <;> rfl
  | _ => rfl

theorem Write.editsParticipant_tournamentId (w : Write) (p : ParticipantRow) :
    (w.editsParticipant p).tournamentId = p.tournamentId := by
  cases w with
  | reactivateParticipant | withdrawParticipant =>
    simp only [Write.editsParticipant]
    split <;> rfl
  | finalizeTournament =>
    simp only [Write.editsParticipant, setFinal]
    split <;> rfl
  | scoreRound score totals now =>
    cases totals with
    | none => rfl
    | some totals =>
      simp only [Write.editsParticipant]
      split <;> rfl
  | _ => rfl

theorem rows_participants_apply (h : w.registers = none) :
    (db.apply w).participants.rows = db.participants.rows.map w.editsParticipant := by
  cases w with
  | insertParticipant => cases h
  | reactivateParticipant | withdrawParticipant | finalizeTournament => rfl
  | scoreRound score totals now =>
    cases totals with
    | none => exact (List.map_id _).symm
    | some totals => rfl
  | _ => exact (List.map_id _).symm

theorem insert?_participants_apply {row : ParticipantRow} (h : w.registers = some row)
    (fresh : db.participants.find? row.participantId = none) :
    db.participants.insert? row = some (db.apply w).participants := by
  cases w with
  | insertParticipant new events =>
    cases h
    obtain ⟨ps, hps⟩ := insert?_isSome fresh
    simp [apply, insertParticipant, hps]
  | _ => cases h

theorem find?_participants_apply (h : w.registers = none) (participantId : Uuid) :
    (db.apply w).participants.find? participantId =
      (db.participants.find? participantId).map w.editsParticipant := by
  rw [find?, find?, rows_participants_apply h, List.find?_map]
  congr 2
  funext p
  simp only [Function.comp_apply, w.editsParticipant_participantId]

theorem find?_participants_apply_of_find?
    (fresh : ∀ row, w.registers = some row → db.participants.find? row.participantId = none)
    (h : db.participants.find? participantId = some p) :
    (db.apply w).participants.find? participantId = some (w.editsParticipant p) := by
  cases hreg : w.registers with
  | none => rw [find?_participants_apply hreg, h, Option.map_some]
  | some row =>
    have hne : row.participantId ≠ participantId := by
      rintro rfl
      rw [fresh row hreg] at h
      cases h
    rw [find?_insert? (insert?_participants_apply hreg (fresh row hreg)), if_neg hne, h]
    cases w with
    | insertParticipant => rfl
    | _ => cases hreg

theorem find?_participants_of_apply {p' : ParticipantRow}
    (fresh : ∀ row, w.registers = some row → db.participants.find? row.participantId = none)
    (h : (db.apply w).participants.find? participantId = some p') :
    (∃ p, db.participants.find? participantId = some p ∧ p' = w.editsParticipant p) ∨
      (db.participants.find? participantId = none ∧ w.registers = some p') := by
  cases hfound : db.participants.find? participantId with
  | some p =>
    rw [find?_participants_apply_of_find? fresh hfound] at h
    exact .inl ⟨p, rfl, (Option.some.inj h).symm⟩
  | none =>
    cases hreg : w.registers with
    | none =>
      rw [find?_participants_apply hreg, hfound] at h
      cases h
    | some row =>
      rw [find?_insert? (insert?_participants_apply hreg (fresh row hreg)), hfound] at h
      split at h
      · exact .inr ⟨rfl, h⟩
      · cases h

end Participants

/-! ## Points -/

def Write.scores : Write → Option RoundScore
  | .scoreRound score _ _ => some score
  | _ => none

section Points

variable {db : Db} {w : Write}

theorem roundParticipants_apply (h : w.scores = none) :
    (db.apply w).attempt.roundParticipants = db.attempt.roundParticipants := by
  cases w with
  | scoreRound => cases h
  | _ => rfl

theorem Write.editsParticipant_totals_of_ne
    (h : ∀ score, w.scores = some score → p.participantId ≠ score.participantId) :
    (w.editsParticipant p).totals = p.totals := by
  cases w with
  | scoreRound score totals now =>
    cases totals with
    | none => rfl
    | some totals => rw [Write.editsParticipant, if_neg (h score rfl)]
  | reactivateParticipant | withdrawParticipant =>
    simp only [Write.editsParticipant]
    split <;> rfl
  | finalizeTournament =>
    simp only [Write.editsParticipant, setFinal]
    split <;> rfl
  | _ => rfl

theorem Write.editsParticipant_totals (h : w.scores = none) (p : ParticipantRow) :
    (w.editsParticipant p).totals = p.totals := by
  refine Write.editsParticipant_totals_of_ne ?_
  intro score hscore
  rw [h] at hscore
  cases hscore

end Points

/-! ## Ranks -/

def Write.standings : Write → List (Contender × Nat)
  | .finalizeTournament _ standings _ _ => standings
  | _ => []

theorem Write.editsParticipant_rankFinal (w : Write) (p : ParticipantRow) :
    (w.editsParticipant p).rankFinal = (rankIn w.standings p.participantId).or p.rankFinal := by
  cases w with
  | finalizeTournament id standings nowIso events =>
    simp only [Write.editsParticipant, setFinal, Write.standings]
    cases rankIn standings p.participantId <;> rfl
  | reactivateParticipant | withdrawParticipant =>
    simp only [Write.editsParticipant]
    split <;> rfl
  | scoreRound score totals now =>
    cases totals with
    | none => rfl
    | some totals =>
      simp only [Write.editsParticipant]
      split <;> rfl
  | _ => rfl

theorem mem_of_rankIn {standings : List (Contender × Nat)} {rank : Nat}
    (h : rankIn standings participantId = some rank) :
    ∃ c, c.participantId = participantId ∧ (c, rank) ∈ standings := by
  obtain ⟨⟨c, k⟩, hfound, rfl⟩ := Option.map_eq_some_iff.mp h
  have hid : c.participantId = participantId := by simpa using List.find?_some hfound
  exact ⟨c, hid, List.mem_of_find?_eq_some hfound⟩

end QuizBackend.Tournament
