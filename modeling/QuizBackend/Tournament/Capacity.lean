import QuizBackend.Tournament.Effects

/-!
# The capacity of a tournament

`atomicRegister` counts the active participants under the row lock of the tournament, and every
change of that number happens under the same lock, so no interleaving of registrations and
withdrawals overfills a tournament. The capacity itself is changed by `updateTournament`, which
compares the new value with the old one, read in an earlier statement, and never with the number of
participants; an unlimited tournament has no old value to compare with.

`withinCapacity_iff` says that this is the only way to overfill a tournament: a run keeps within
capacity exactly when each update of a capacity finds no more active participants than the new one
admits.
-/

namespace QuizBackend.Tournament

open Lib Outbox ParticipantRow Write Table

/-- No tournament has more active participants than it takes. -/
def Db.WithinCapacity (db : Db) : Prop :=
  ∀ t ∈ db.tournaments.rows, ∀ max ∈ t.maxParticipants,
    (db.countParticipants t.tournamentId : Int) ≤ max

def Db.Registered (db : Db) : Prop :=
  ∀ p ∈ db.participants.rows, (db.status p.tournamentId).isSome = true

instance (db : Db) : Decidable db.WithinCapacity :=
  inferInstanceAs (Decidable (∀ _ ∈ _, ∀ _ ∈ _, _))

instance (db : Db) : Decidable db.Registered := inferInstanceAs (Decidable (∀ _ ∈ _, _))

def Write.KeepsRoom (db : Db) : Write → Prop
  | .updateTournament tournamentId dto _ =>
    match dto.maxParticipants with
    | some (some max) => (db.countParticipants tournamentId : Int) ≤ max
    | _ => True
  | _ => True

instance (db : Db) (w : Write) : Decidable (w.KeepsRoom db) := by
  unfold KeepsRoom
  split
  · split <;> infer_instance
  · infer_instance

variable {nowIso : Int} {p : ParticipantRow} {tournamentId : Uuid}

section Counting

variable {db : Db} {w : Write} {b : Uuid}

theorem withinCapacity_iff_capacity : db.WithinCapacity ↔
    ∀ tournamentId max, db.capacity tournamentId = some max →
      (db.countParticipants tournamentId : Int) ≤ max := by
  constructor
  · intro h tournamentId max hmax
    obtain ⟨t, ht, hmax⟩ := Option.bind_eq_some_iff.mp hmax
    have := h t (mem_of_find? ht) max hmax
    rwa [key_of_find? ht] at this
  · intro h t ht max hmax
    refine h _ _ ?_
    rw [Db.capacity, find?_of_mem ht]
    exact hmax

theorem countParticipants_apply_le (h : w.registers = none)
    (hact : ∀ p, (w.editsParticipant p).isActiveIn b = true → p.isActiveIn b = true) :
    (db.apply w).countParticipants b ≤ db.countParticipants b := by
  rw [Db.countParticipants, rows_participants_apply h, List.countP_map]
  exact List.countP_mono_left fun p _ hp => hact p hp

theorem isActiveIn_of_withdrawn {participantId : Uuid} {events : List NewEvent}
    (h : ((withdrawParticipant participantId nowIso events).editsParticipant p).isActiveIn b = true) :
    p.isActiveIn b = true := by
  simp only [editsParticipant] at h
  split at h
  · simp [isActiveIn, setWithdrawn] at h
  · exact h

theorem isActiveIn_of_final {standings : List (Contender × Nat)} {events : List NewEvent}
    (h : ((finalizeTournament tournamentId standings nowIso events).editsParticipant p).isActiveIn b = true) :
    p.isActiveIn b = true := by
  simp only [editsParticipant, setFinal] at h
  split at h
  · simp [isActiveIn] at h
  · exact h

theorem isActiveIn_of_scored {score : RoundScore} {totals : Option Totals} {now : Int}
    (h : ((scoreRound score totals now).editsParticipant p).isActiveIn b = true) :
    p.isActiveIn b = true := by
  cases totals with
  | none => exact h
  | some totals =>
    simp only [editsParticipant] at h
    split at h <;> exact h

theorem countParticipants_insert {row : ParticipantRow} {events : List NewEvent}
    (fresh : db.participants.find? row.participantId = none) (hactive : row.status = .active) :
    (db.apply (.insertParticipant row events)).countParticipants b =
      db.countParticipants b + if row.tournamentId = b then 1 else 0 := by
  rw [Db.countParticipants, countP_insert? _ (insert?_participants_apply rfl fresh)]
  simp [Db.countParticipants, isActiveIn, hactive]

theorem countParticipants_reactivate (hp : db.participants.find? p.participantId = some p)
    (hw : p.status = .withdrawn) :
    (db.apply (.reactivateParticipant p.participantId nowIso)).countParticipants b =
      db.countParticipants b + if p.tournamentId = b then 1 else 0 := by
  have hcount : (db.apply (.reactivateParticipant p.participantId nowIso)).countParticipants b +
      (if p.isActiveIn b then 1 else 0) =
        db.countParticipants b + (if (setReactivated nowIso p).isActiveIn b then 1 else 0) := by
    change (db.participants.modify p.participantId (setReactivated nowIso)
      (setReactivated_participantId nowIso)).rows.countP (isActiveIn b) + _ = _
    exact countP_modify (isActiveIn b) hp
  have hold : p.isActiveIn b = false := by simp [isActiveIn, hw]
  rw [hold] at hcount
  simpa [isActiveIn, setReactivated] using hcount

end Counting

/-! ## One commit -/

section Commits

variable {s : State} {r : Request} {w : Write}

theorem Db.WithinCapacity.apply_of_le {db : Db} (hin : db.WithinCapacity)
    (hcap : ∀ b, (db.apply w).capacity b = db.capacity b)
    (hcount : ∀ b, (db.apply w).countParticipants b ≤ db.countParticipants b) :
    (db.apply w).WithinCapacity := by
  rw [withinCapacity_iff_capacity] at hin ⊢
  intro b max hmax
  rw [hcap b] at hmax
  have := hin b max hmax
  have := hcount b
  omega

theorem Db.WithinCapacity.apply_of_room {db : Db} {locked : TournamentRow} (hin : db.WithinCapacity)
    (found : db.getTournamentById tournamentId = some locked)
    (room : Enrol.isFull db locked = false) (hcap : ∀ b, (db.apply w).capacity b = db.capacity b)
    (hcount : ∀ b, (db.apply w).countParticipants b = db.countParticipants b + if tournamentId = b then 1 else 0) :
    (db.apply w).WithinCapacity := by
  have hfind := find?_of_getTournamentById found
  rw [withinCapacity_iff_capacity] at hin ⊢
  intro b max hmax
  rw [hcap b] at hmax
  rw [hcount b]
  by_cases hb : tournamentId = b
  · subst hb
    have hmax' : locked.maxParticipants = some max := by
      rwa [Db.capacity, hfind] at hmax
    have hroom : (db.countParticipants tournamentId : Int) < max := by
      rw [Enrol.isFull, hmax', key_of_find? hfind] at room
      simpa using room
    rw [if_pos rfl]
    push_cast
    omega
  · have := hin b max hmax
    rw [if_neg hb]
    simpa using this

theorem countParticipants_eq_zero {db : Db} (hreg : db.Registered)
    (hnone : db.tournaments.find? tournamentId = none) : db.countParticipants tournamentId = 0 := by
  refine List.countP_eq_zero.mpr ?_
  intro p hp hact
  have htid : p.tournamentId = tournamentId := (of_decide_eq_true hact).1
  have hsome := hreg p hp
  rw [htid, Db.status, hnone] at hsome
  cases hsome

theorem Db.WithinCapacity.apply_createTournament {db : Db} {row : TournamentRow}
    (hin : db.WithinCapacity) (hreg : db.Registered)
    (fresh : db.tournaments.find? row.tournamentId = none) (checks : row.passesChecks = true) :
    (db.apply (.createTournament row)).WithinCapacity := by
  rw [withinCapacity_iff_capacity] at hin ⊢
  intro b max hmax
  change (db.countParticipants b : Int) ≤ max
  rw [capacity_apply_createTournament fresh] at hmax
  split at hmax
  · rename_i hb
    subst hb
    have hpos : 0 < max := by
      simp only [TournamentRow.passesChecks, hmax, Bool.and_eq_true, Option.all_some,
        decide_eq_true_eq] at checks
      exact checks.2
    rw [countParticipants_eq_zero hreg fresh]
    omega
  · exact hin b max hmax

theorem apply_updateTournament_iff {db : Db} {dto : UpdateTournamentDto} {t : TournamentRow}
    (hin : db.WithinCapacity) (hfind : db.tournaments.find? tournamentId = some t) :
    (updateTournament tournamentId dto nowIso).KeepsRoom db ↔
      (db.apply (.updateTournament tournamentId dto nowIso)).WithinCapacity := by
  rw [withinCapacity_iff_capacity] at hin ⊢
  simp only [capacity_apply_updateTournament, hfind, Option.bind_some]
  change _ ↔ ∀ b max, _ → (db.countParticipants b : Int) ≤ max
  constructor
  · intro hroom b max hmax
    split at hmax
    · rename_i hb
      subst hb
      cases hdto : dto.maxParticipants with
      | none =>
        rw [hdto, Option.getD_none] at hmax
        exact hin b max (by rw [Db.capacity, hfind]; exact hmax)
      | some new =>
        rw [hdto, Option.getD_some] at hmax
        subst hmax
        simpa only [KeepsRoom, hdto] using hroom
    · exact hin b max hmax
  · intro h
    simp only [KeepsRoom]
    split
    · rename_i max hdto
      exact h tournamentId max (by rw [if_pos rfl, hdto, Option.getD_some])
    · trivial

theorem keepsRoom_iff (hreg : s.db.Registered) (hin : s.db.WithinCapacity)
    (hlic : Licensed s r w) : w.KeepsRoom s.db ↔ (s.db.apply w).WithinCapacity := by
  have hother : ∀ w : Write, (∀ tournamentId dto nowIso,
      w ≠ .updateTournament tournamentId dto nowIso) → (∀ row, w ≠ .createTournament row) →
        ∀ b, (s.db.apply w).capacity b = s.db.capacity b :=
    fun w hu hc b => capacity_apply_other hu hc b
  cases hlic with
  | updateTournament free found =>
    exact apply_updateTournament_iff hin (find?_of_getTournamentById found)
  | createTournament fresh upcoming checks =>
    exact iff_of_true trivial (hin.apply_createTournament hreg fresh checks)
  | insertParticipant free found room absent fresh =>
    refine iff_of_true trivial (hin.apply_of_room found room ?_ ?_)
    · exact hother _ (by simp) (by simp)
    · exact fun b => countParticipants_insert fresh rfl
  | reactivateParticipant free found room present withdrawn =>
    obtain ⟨hp, htid⟩ := of_getParticipantByUserAndTournament present
    refine iff_of_true trivial (hin.apply_of_room found room ?_ ?_)
    · exact hother _ (by simp) (by simp)
    · intro b
      rw [countParticipants_reactivate hp withdrawn, htid]
  | withdrawParticipant =>
    refine iff_of_true trivial (hin.apply_of_le (hother _ (by simp) (by simp)) ?_)
    exact fun b => countParticipants_apply_le rfl fun p => isActiveIn_of_withdrawn
  | finalizeTournament =>
    refine iff_of_true trivial (hin.apply_of_le (hother _ (by simp) (by simp)) ?_)
    exact fun b => countParticipants_apply_le rfl fun p => isActiveIn_of_final
  | scoreRound =>
    refine iff_of_true trivial (hin.apply_of_le (hother _ (by simp) (by simp)) ?_)
    exact fun b => countParticipants_apply_le rfl fun p => isActiveIn_of_scored
  | _ =>
    refine iff_of_true trivial (hin.apply_of_le (hother _ (by simp) (by simp)) ?_)
    exact fun b => countParticipants_apply_le rfl fun p hp => hp

end Commits

/-! ## Whole runs -/

section Runs

variable {cat : Catalog} {s s' : State} {a : Action}

theorem registered_step (h : s.db.Registered) (hs : step cat s a = some s') :
    s'.db.Registered := by
  cases stepped_of_step hs with
  | arrive | abort | attempt => exact h
  | @advance i d r g request next =>
    have hlic := request_licensed next
    have hkeep : ∀ b, (s.db.status b).isSome = true →
        ((s.db.apply g.write).status b).isSome = true :=
      fun b hb => status_isSome_apply hlic.fresh hb
    intro p hp
    change p ∈ (s.db.apply g.write).participants.rows at hp
    cases hreg : g.write.registers with
    | none =>
      rw [rows_participants_apply hreg] at hp
      obtain ⟨old, hold, rfl⟩ := List.mem_map.mp hp
      rw [g.write.editsParticipant_tournamentId]
      exact hkeep _ (h old hold)
    | some row =>
      obtain ⟨hfresh, hsome, -⟩ := hlic.registered hreg
      rw [rows_of_insert? (insert?_participants_apply hreg hfresh)] at hp
      rcases List.mem_append.mp hp with hp | hp
      · exact hkeep _ (h p hp)
      · rw [List.mem_singleton.mp hp]
        exact hkeep _ hsome

theorem keepsRoom_step_iff (hreg : s.db.Registered) (hin : s.db.WithinCapacity)
    (hs : step cat s a = some s') : (s.writes cat a).KeepsRoom s.db ↔ s'.db.WithinCapacity := by
  cases stepped_of_step hs with
  | arrive | abort | attempt => exact iff_of_true trivial hin
  | advance request next =>
    rw [writes_advance request next]
    exact keepsRoom_iff hreg hin (request_licensed next)

end Runs

/-- **Capacity.** From any consistent database, a run keeps every tournament within its capacity
just when each update that sets one admits the active participants of that moment. -/
theorem withinCapacity_iff {cat : Catalog} {db : Db} {as : List Action} {s : State}
    (hreg : db.Registered) (hin : db.WithinCapacity)
    (h : exec (step cat) (.initial db) as = some s) :
    Always (step cat) (·.db.WithinCapacity) (.initial db) as ↔
      Along (step cat) (fun s a => (s.writes cat a).KeepsRoom s.db) (.initial db) as :=
  along_iff_always (fun _ _ _ hI hstep => registered_step hI hstep)
    (fun _ _ _ hI hP hstep => keepsRoom_step_iff hI hP hstep) h hreg hin

/-- The capacity of an unlimited cup is set to 2 while one participant is active; the second is
admitted, and the third is not. -/
def limited : List Action :=
  .arrive (.manage (.update 30 organiser
    { title := none, description := none, difficulty := none, prize := none, startAt := none,
      endAt := none, maxParticipants := some (some 2), categoryId := none } 0)) ::
  .arrive (.enrol (.register 30 Attempt.player 0)) ::
  .arrive (.enrol (.register 30 rival 0)) ::
  .arrive (.enrol (.register 30 organiser 0)) ::
  (runs 1 2 1 ++ runs 0 2 0 ++ runs 2 2 2 ++ runs 3 2 3)

theorem withinCapacity_limited :
    Always (step cupCatalog) (·.db.WithinCapacity) (.initial openCup) limited := by
  obtain ⟨s, hs⟩ : ∃ s, exec (step cupCatalog) (.initial openCup) limited = some s :=
    Option.isSome_iff_exists.mp (by decide +kernel)
  exact (withinCapacity_iff (by decide +kernel) (by decide +kernel) hs).mpr (by decide +kernel)

def limitedTooLate : List Action :=
  .arrive (.manage (.update 30 organiser
    { title := none, description := none, difficulty := none, prize := none, startAt := none,
      endAt := none, maxParticipants := some (some 2), categoryId := none } 0)) ::
  .arrive (.enrol (.register 30 Attempt.player 0)) ::
  .arrive (.enrol (.register 30 rival 0)) ::
  .arrive (.enrol (.register 30 organiser 0)) ::
  (runs 1 2 1 ++ runs 2 2 2 ++ runs 3 2 3 ++ runs 0 2 0)

theorem three_active_of_two : openCup.Registered ∧ openCup.WithinCapacity ∧ ∃ s,
    exec (step cupCatalog) (.initial openCup) limitedTooLate = some s ∧
      s.db.capacity 30 = some 2 ∧ s.db.countParticipants 30 = 3 ∧ ¬ s.db.WithinCapacity := by
  refine ⟨by decide +kernel, by decide +kernel, ?_⟩
  refine exists_of_read
    (fun s => (s.db.capacity 30, s.db.countParticipants 30, decide s.db.WithinCapacity))
    (some 2, 3, false) (by decide +kernel) fun s hs hread => ?_
  obtain ⟨hcap, hrest⟩ := Prod.mk.inj hread
  obtain ⟨hcount, hin⟩ := Prod.mk.inj hrest
  exact ⟨hcap, hcount, of_decide_eq_false hin⟩

end QuizBackend.Tournament
