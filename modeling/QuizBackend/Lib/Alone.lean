import QuizBackend.Lib.ReadCommitted

/-!
# A request that runs alone

With no other request under way a program has one run. `Program.alone` computes how it ends, and
`TxSystem.answered_iff` says that this is how the system gets on with it. What a request can wait for
then is a lock of its own: a statement on the plain handle that locks what the transaction has locked.
It waits until it is cancelled (`TxSystem.run_of_waiting`).
-/

namespace QuizBackend.Lib

open Program

/-- How a request that runs alone ends: it returns or throws, a statement is refused, or it waits. -/
inductive Outcome (E : Engine) (ε α : Type) : Type where
  | result (r : Except ε α) (store : E.Store)
  | rejected
  | waits

variable {E : Engine} {ε α R O : Type} [DecidableEq E.Lock]

/-- The run of a program from a store, with what its transaction has locked and written. -/
def Program.alone : Program E ε α → List E.Lock → List E.Write → E.Store → Outcome E ε α
  | .done r, _, _, s => .result r s
  | .commit k, _, writes, s => k.alone [] [] (E.writes s writes)
  | .perform .tx q k, locks, writes, s =>
    match E.exec (E.writes s writes) q with
    | none => .rejected
    | some e => (k e.reply).alone (locks ++ e.locks) (writes ++ e.writes) s
  | .perform .db q k, locks, writes, s =>
    match E.exec s q with
    | none => .rejected
    | some e =>
      if e.locks.any fun l => decide (l ∈ locks) then .waits
      else (k e.reply).alone locks writes (E.writes s e.writes)

namespace Program

omit [DecidableEq E.Lock] in
theorem bind_assoc {β γ : Type} (p : Program E ε α) (f : α → Program E ε β)
    (g : β → Program E ε γ) : (p.bind f).bind g = p.bind fun a => (f a).bind g := by
  induction p with
  | done r =>
    cases r with
    | ok a => rfl
    | error e => rfl
  | perform handle q k ih => exact congrArg (perform handle q) (funext ih)
  | commit k ih => exact congrArg commit ih

variable (writes : List E.Write) (s : E.Store) {q : E.Ask} {k : E.Reply q → Program E ε α}
  {locks : List E.Lock} {e : Effect E.Lock E.Write (E.Reply q)}

theorem alone_tx (he : E.exec (E.writes s writes) q = some e) :
    (perform .tx q k).alone locks writes s
      = (k e.reply).alone (locks ++ e.locks) (writes ++ e.writes) s := by
  rw [alone, he]

theorem alone_tx_rejected (he : E.exec (E.writes s writes) q = none) :
    (perform .tx q k).alone locks writes s = .rejected := by
  rw [alone, he]

end Program

variable {sessionId : String}

namespace TxSystem

variable {program : R → Program E ε α} {outside : O → E.Store → E.Store} {σ σ' : TxSystem E ε α}
  {c : Session E ε α}

theorem step_proceed_of_single (h : σ.sessions.rows = [c]) :
    σ.step program outside (.proceed c.sessionId : TxAction R O) = σ.proceed c := by
  have hfind : σ.sessions.find? c.sessionId = some c :=
    Table.find?_of_mem (h ▸ List.mem_singleton.mpr rfl)
  rw [step, hfind, Option.bind_some]

theorem step_proceed_of_idle (h : σ.sessions.rows = []) (sessionId : String) :
    σ.step program outside (.proceed sessionId : TxAction R O) = none := by
  have hfind : σ.sessions.find? sessionId = none := by
    rw [Table.find?, h, List.find?_nil]
  rw [step, hfind, Option.bind_none]

omit [DecidableEq E.Lock] in
theorem rows_finish_of_single (h : σ.sessions.rows = [c]) (ending : Ending ε α) :
    (σ.finish c.sessionId ending).sessions.rows = [] := by
  show (σ.sessions.rows.filter _) = []
  rw [h, List.filter_singleton]
  simp

omit [DecidableEq E.Lock] in
theorem rows_advance_of_single (h : σ.sessions.rows = [c]) (locks : List E.Lock)
    (writes : List E.Write) (p : Program E ε α) :
    (σ.advance c.sessionId locks writes p).sessions.rows
      = [⟨c.sessionId, locks, writes, p⟩] := by
  show (σ.sessions.rows.map _) = _
  rw [h, List.map_singleton, if_pos rfl]

theorem lockedByOther_of_single (h : σ.sessions.rows = [c]) (locks : List E.Lock) :
    σ.lockedByOther c.sessionId locks = false := by
  simp [lockedByOther, h]

theorem locked_of_single (h : σ.sessions.rows = [c]) (locks : List E.Lock) :
    σ.locked locks = locks.any fun l => decide (l ∈ c.locks) := by
  simp [locked, h]

theorem proceed_tx (σ : TxSystem E ε α) (sessionId : String) (locks : List E.Lock)
    (writes : List E.Write) (q : E.Ask) (k : E.Reply q → Program E ε α) :
    σ.proceed ⟨sessionId, locks, writes, .perform .tx q k⟩ =
      match E.exec (E.writes σ.store writes) q with
      | none => some (σ.finish sessionId .rejected)
      | some e =>
        if σ.lockedByOther sessionId e.locks then none
        else some (σ.advance sessionId (locks ++ e.locks) (writes ++ e.writes) (k e.reply)) := rfl

theorem proceed_db (σ : TxSystem E ε α) (sessionId : String) (locks : List E.Lock)
    (writes : List E.Write) (q : E.Ask) (k : E.Reply q → Program E ε α) :
    σ.proceed ⟨sessionId, locks, writes, .perform .db q k⟩ =
      match E.exec σ.store q with
      | none => some (σ.finish sessionId .rejected)
      | some e =>
        if σ.locked e.locks then none
        else some { σ.advance sessionId locks writes (k e.reply) with
          store := E.writes σ.store e.writes } := rfl

section

variable {locks : List E.Lock} {writes : List E.Write} {q : E.Ask} {k : E.Reply q → Program E ε α}
  {e : Effect E.Lock E.Write (E.Reply q)}

/-- A statement of the transaction finds its rows free. -/
theorem step_tx_of_single (h : σ.sessions.rows = [⟨sessionId, locks, writes, .perform .tx q k⟩])
    (he : E.exec (E.writes σ.store writes) q = some e) :
    σ.step program outside (.proceed sessionId : TxAction R O) =
      some (σ.advance sessionId (locks ++ e.locks) (writes ++ e.writes) (k e.reply)) := by
  rw [step_proceed_of_single h, proceed_tx, he]
  exact if_neg (by rw [lockedByOther_of_single h]; exact Bool.false_ne_true)

/-- A statement on the plain handle does not, if it locks what the transaction has locked. -/
theorem step_db_of_own_lock
    (h : σ.sessions.rows = [⟨sessionId, locks, writes, .perform .db q k⟩])
    (he : E.exec σ.store q = some e) (hown : e.locks.any (fun l => decide (l ∈ locks)) = true) :
    σ.step program outside (.proceed sessionId : TxAction R O) = none := by
  rw [step_proceed_of_single h, proceed_db, he]
  exact if_pos ((locked_of_single h e.locks).trans hown)

end

theorem start_begin (program : R → Program E ε α)
    (outside : O → E.Store → E.Store) (store : E.Store) (sessionId : String) (request : R) :
    ∃ σ : TxSystem E ε α, (start store).step program outside (.begin sessionId request) = some σ ∧
      σ.store = store ∧ σ.sessions.rows = [⟨sessionId, [], [], program request⟩] :=
  ⟨⟨store, ⟨[⟨sessionId, [], [], program request⟩], List.nodup_singleton _⟩, []⟩, rfl, rfl, rfl⟩

/-- The request of session `sessionId` goes on until it ends by `r`, with `store` committed. -/
def Answered (program : R → Program E ε α) (outside : O → E.Store → E.Store)
    (σ : TxSystem E ε α) (sessionId : String) (r : Except ε α) (store : E.Store) : Prop :=
  ∃ n σ', exec (step program outside) σ (List.replicate n (.proceed sessionId)) = some σ' ∧
    σ'.ended = σ.ended ++ [(sessionId, .result r)] ∧ σ'.store = store

theorem answered_iff_step (sessionId : String) (r : Except ε α) (store : E.Store) :
    Answered program outside σ sessionId r store ↔
      ∃ σ₁, σ.step program outside (.proceed sessionId) = some σ₁ ∧
        ∃ n σ', exec (step program outside) σ₁ (List.replicate n (.proceed sessionId)) = some σ' ∧
          σ'.ended = σ.ended ++ [(sessionId, .result r)] ∧ σ'.store = store := by
  constructor
  · rintro ⟨n, σ', hrun, hended, hstore⟩
    cases n with
    | zero =>
      obtain rfl := Option.some.inj hrun
      exact absurd hended.symm (by simp)
    | succ n =>
      rw [List.replicate_succ, exec_cons] at hrun
      obtain ⟨σ₁, hstep, hrest⟩ := Option.bind_eq_some_iff.mp hrun
      exact ⟨σ₁, hstep, n, σ', hrest, hended, hstore⟩
  · rintro ⟨σ₁, hstep, n, σ', hrest, hended, hstore⟩
    refine ⟨n + 1, σ', ?_, hended, hstore⟩
    rw [List.replicate_succ, exec_cons, hstep]
    exact hrest

theorem step_fail_of_single (h : σ.sessions.rows = [c]) :
    σ.step program outside (.fail c.sessionId : TxAction R O) =
      some (σ.finish c.sessionId .rejected) := by
  have hfind : σ.sessions.find? c.sessionId = some c :=
    Table.find?_of_mem (h ▸ List.mem_singleton.mpr rfl)
  rw [step, hfind, Option.map_some]

theorem step_fail_of_idle (h : σ.sessions.rows = []) (sessionId : String) :
    σ.step program outside (.fail sessionId : TxAction R O) = none := by
  have hfind : σ.sessions.find? sessionId = none := by
    rw [Table.find?, h, List.find?_nil]
  rw [step, hfind, Option.map_none]

/-- A session goes on or is cancelled, and nobody else does anything. -/
def Own (sessionId : String) (actions : List (TxAction R O)) : Prop :=
  ∀ a ∈ actions, a = .proceed sessionId ∨ a = .fail sessionId

theorem run_of_idle (h : σ.sessions.rows = []) {actions : List (TxAction R O)}
    (hown : Own sessionId actions) (hrun : exec (step program outside) σ actions = some σ') :
    σ' = σ := by
  cases actions with
  | nil => exact (Option.some.inj hrun).symm
  | cons a actions =>
    rcases hown a List.mem_cons_self with rfl | rfl
    · rw [exec_cons, step_proceed_of_idle h] at hrun
      cases hrun
    · rw [exec_cons, step_fail_of_idle h] at hrun
      cases hrun

/-- **Whoever waits for a lock of its own waits until it is cancelled.** -/
theorem run_of_waiting (h : σ.sessions.rows = [c])
    (hwaits : σ.step program outside (.proceed c.sessionId) = none) {actions : List (TxAction R O)}
    (hown : Own c.sessionId actions) (hrun : exec (step program outside) σ actions = some σ') :
    σ' = σ ∨ σ' = σ.finish c.sessionId .rejected := by
  cases actions with
  | nil => exact .inl (Option.some.inj hrun).symm
  | cons a actions =>
    rcases hown a List.mem_cons_self with rfl | rfl
    · rw [exec_cons, hwaits] at hrun
      cases hrun
    · rw [exec_cons, step_fail_of_single h] at hrun
      have hrest : Own c.sessionId actions := fun b hb => hown b (List.mem_cons_of_mem _ hb)
      exact .inr (run_of_idle (rows_finish_of_single h _) hrest hrun)

theorem answered_of_step {σ₁ : TxSystem E ε α}
    (hstep : σ.step program outside (.proceed sessionId) = some σ₁) (hended : σ₁.ended = σ.ended)
    (r : Except ε α) (store : E.Store) :
    Answered program outside σ sessionId r store
      ↔ Answered program outside σ₁ sessionId r store := by
  rw [answered_iff_step]
  constructor
  · rintro ⟨σ₂, hstep₂, hrest⟩
    obtain rfl := Option.some.inj (hstep.symm.trans hstep₂)
    rw [← hended] at hrest
    exact hrest
  · intro hrest
    rw [Answered, hended] at hrest
    exact ⟨σ₁, hstep, hrest⟩

theorem answered_of_finish {ending : Ending ε α}
    (hstep : σ.step program outside (.proceed sessionId) = some (σ.finish sessionId ending))
    (hidle : (σ.finish sessionId ending).sessions.rows = []) (r : Except ε α) (store : E.Store) :
    Answered program outside σ sessionId r store ↔ ending = .result r ∧ σ.store = store := by
  rw [answered_iff_step]
  constructor
  · rintro ⟨σ₁, hstep₁, n, σ', hrun, hended, hstore⟩
    obtain rfl := Option.some.inj (hstep.symm.trans hstep₁)
    have hown : Own sessionId (List.replicate n (.proceed sessionId : TxAction R O)) :=
      fun a ha => .inl (List.eq_of_mem_replicate ha)
    obtain rfl := run_of_idle hidle hown hrun
    have hlast := List.append_cancel_left hended
    exact ⟨congrArg Prod.snd (List.singleton_inj.mp hlast), hstore⟩
  · rintro ⟨rfl, rfl⟩
    exact ⟨_, hstep, 0, _, rfl, rfl, rfl⟩

theorem not_answered_of_waits (hstep : σ.step program outside (.proceed sessionId) = none)
    (r : Except ε α) (store : E.Store) : ¬ Answered program outside σ sessionId r store := by
  rw [answered_iff_step]
  rintro ⟨σ₁, hstep₁, -⟩
  exact absurd (hstep.symm.trans hstep₁) nofun

/-- **Alone in the system a request ends as `Program.alone` says.** -/
theorem answered_iff {locks : List E.Lock} {writes : List E.Write} {p : Program E ε α}
    (h : σ.sessions.rows = [⟨sessionId, locks, writes, p⟩]) (r : Except ε α) (store : E.Store) :
    Answered program outside σ sessionId r store
      ↔ p.alone locks writes σ.store = .result r store := by
  -- the induction is on what is left of the program; each statement is one step of the system
  induction p generalizing σ locks writes with
  | done r' =>
    rw [answered_of_finish (step_proceed_of_single h) (rows_finish_of_single h _), alone]
    simp
  | perform handle q k ih =>
    cases handle with
    | tx =>
      cases he : E.exec (E.writes σ.store writes) q with
      | none =>
        have hstep : σ.step program outside (.proceed sessionId)
            = some (σ.finish sessionId .rejected) := by
          rw [step_proceed_of_single h, proceed_tx, he]
        rw [answered_of_finish hstep (rows_finish_of_single h _), alone, he]
        simp
      | some e =>
        rw [answered_of_step (step_tx_of_single h he) rfl, alone, he]
        exact ih e.reply (rows_advance_of_single h _ _ _)
    | db =>
      cases he : E.exec σ.store q with
      | none =>
        have hstep : σ.step program outside (.proceed sessionId)
            = some (σ.finish sessionId .rejected) := by
          rw [step_proceed_of_single h, proceed_db, he]
        rw [answered_of_finish hstep (rows_finish_of_single h _), alone, he]
        simp
      | some e =>
        have hlocked := locked_of_single h e.locks
        have halone : (perform .db q k).alone locks writes σ.store
            = if e.locks.any fun l => decide (l ∈ locks) then .waits
              else (k e.reply).alone locks writes (E.writes σ.store e.writes) := by
          rw [alone, he]
        cases hfree : e.locks.any fun l => decide (l ∈ locks) with
        | true =>
          rw [halone, hfree, if_pos rfl]
          exact iff_of_false (not_answered_of_waits (step_db_of_own_lock h he hfree) r store) nofun
        | false =>
          have hstep : σ.step program outside (.proceed sessionId)
              = some { σ.advance sessionId locks writes (k e.reply) with
                store := E.writes σ.store e.writes } := by
            rw [step_proceed_of_single h, proceed_db, he]
            exact if_neg (by rw [hlocked, hfree]; exact Bool.false_ne_true)
          rw [halone, hfree, if_neg Bool.false_ne_true, answered_of_step hstep rfl]
          exact ih e.reply (rows_advance_of_single h _ _ _)
  | commit k ih =>
    have hstep : σ.step program outside (.proceed sessionId)
        = some { σ.advance sessionId [] [] k with store := E.writes σ.store writes } :=
      step_proceed_of_single h
    rw [answered_of_step hstep rfl, alone]
    exact ih (rows_advance_of_single h _ _ _)

end TxSystem

end QuizBackend.Lib
