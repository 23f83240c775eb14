import QuizBackend.Lib.Run
import QuizBackend.Lib.Table

/-!
# Transactions with row locks

A request is a `Program`: it asks for statements one after another, each on the handle of its
transaction or on the plain handle of the pool, commits, and goes on by the replies. Requests run
interleaved under READ COMMITTED. A statement sees what is committed and what its own transaction has
written; what it locks must be free of other transactions and stays locked until its own ends; a
statement on the plain handle is a transaction of its own, so it waits even for the transaction of the
request that issues it. What a transaction has written is committed all at once.

`Contract.wp` is the rule for proving that every such run keeps an invariant. A program is looked at
statement by statement, and between two statements the other requests may do anything that keeps the
invariant and leaves the locked slices of the database as they are. When a program commits, it owes the
same to the others. `Contract.Inv.exec` puts the programs together.
-/

namespace QuizBackend.Lib

open Table

structure Effect (Lock Write R : Type) where
  reply : R
  locks : List Lock
  writes : List Write

/-- A database and its statements. `exec` is a statement on the rows it sees; `none` is a statement
that is refused. -/
structure Engine where
  Store : Type
  Write : Type
  Lock : Type
  Ask : Type
  Reply : Ask → Type
  write : Store → Write → Store
  exec : Store → (q : Ask) → Option (Effect Lock Write (Reply q))

/-- A statement runs in the transaction or on another connection of the pool. -/
inductive Handle where
  | tx
  | db

/-- A request, from the statement it has come to on. A result that is an error leaves a transaction
that has not committed without effect. -/
inductive Program (E : Engine) (ε α : Type) : Type where
  | done (r : Except ε α)
  | perform (handle : Handle) (q : E.Ask) (k : E.Reply q → Program E ε α)
  | commit (k : Program E ε α)

namespace Program

variable {E : Engine} {ε α β : Type}

def bind : Program E ε α → (α → Program E ε β) → Program E ε β
  | .done (.ok a), f => f a
  | .done (.error e), _ => .done (.error e)
  | .perform handle q k, f => .perform handle q fun r => (k r).bind f
  | .commit k, f => .commit (k.bind f)

instance : Monad (Program E ε) where
  pure a := .done (.ok a)
  bind := bind

def fail (e : ε) : Program E ε α := .done (.error e)

def ask (handle : Handle) (q : E.Ask) : Program E ε (E.Reply q) :=
  .perform handle q fun r => .done (.ok r)

def require (b : Bool) (e : ε) : Program E ε Unit := if b then pure () else fail e

def orThrow (o : Option α) (e : ε) : Program E ε α :=
  match o with
  | some a => pure a
  | none => fail e

def transactionally (body : Program E ε α) : Program E ε α := do
  let a ← body
  .commit (pure a)

end Program

def Engine.writes (E : Engine) (s : E.Store) (ws : List E.Write) : E.Store := ws.foldl E.write s

/-! ## Running together -/

/-- A request in progress: its locks, its uncommitted writes, what is left of it. -/
structure Session (E : Engine) (ε α : Type) where
  sessionId : String
  locks : List E.Lock
  writes : List E.Write
  program : Program E ε α

/-- How a request ends. -/
inductive Ending (ε α : Type) where
  | result (r : Except ε α)
  | rejected

/-- The committed store, the requests in progress, and what has ended. -/
structure TxSystem (E : Engine) (ε α : Type) where
  store : E.Store
  sessions : Table String (Session E ε α) (·.sessionId)
  ended : List (String × Ending ε α)

inductive TxAction (R O : Type) where
  | begin (sessionId : String) (request : R)
  | proceed (sessionId : String)
  | fail (sessionId : String)
  | outside (o : O)

namespace TxSystem

variable {E : Engine} {ε α R O : Type}

def start (store : E.Store) : TxSystem E ε α := ⟨store, empty _, []⟩

variable (s : TxSystem E ε α)

def finish (sessionId : String) (ending : Ending ε α) : TxSystem E ε α :=
  { s with
    sessions := s.sessions.erase sessionId
    ended := s.ended ++ [(sessionId, ending)] }

def advance (sessionId : String) (locks : List E.Lock) (writes : List E.Write)
    (program : Program E ε α) : TxSystem E ε α :=
  { s with
    sessions := s.sessions.modify sessionId
      (fun c => { c with locks, writes, program }) fun _ => rfl }

variable [DecidableEq E.Lock]

/-- Locks are compared by their decidable equality. -/
instance lawfulBEq_lock : LawfulBEq E.Lock := inferInstance

def lockedByOther (sessionId : String) (locks : List E.Lock) : Bool :=
  s.sessions.rows.any fun c =>
    decide (c.sessionId ≠ sessionId) && locks.any fun l => decide (l ∈ c.locks)

def locked (locks : List E.Lock) : Bool :=
  s.sessions.rows.any fun c => locks.any fun l => decide (l ∈ c.locks)

/-- The next statement of a request; `none` while it waits for a lock. -/
def proceed (c : Session E ε α) : Option (TxSystem E ε α) :=
  match c.program with
  | .done r => some (s.finish c.sessionId (.result r))
  | .commit k => some { s.advance c.sessionId [] [] k with store := E.writes s.store c.writes }
  | .perform .tx q k =>
    match E.exec (E.writes s.store c.writes) q with
    | none => some (s.finish c.sessionId .rejected)
    | some e =>
      if s.lockedByOther c.sessionId e.locks then none
      else some (s.advance c.sessionId (c.locks ++ e.locks) (c.writes ++ e.writes) (k e.reply))
  | .perform .db q k =>
    match E.exec s.store q with
    | none => some (s.finish c.sessionId .rejected)
    | some e =>
      if s.locked e.locks then none
      else some { s.advance c.sessionId c.locks c.writes (k e.reply) with
        store := E.writes s.store e.writes }

def step (program : R → Program E ε α) (outside : O → E.Store → E.Store) (s : TxSystem E ε α) :
    TxAction R O → Option (TxSystem E ε α)
  | .begin sessionId request =>
    (s.sessions.insert? ⟨sessionId, [], [], program request⟩).map fun sessions =>
      { s with sessions }
  | .proceed sessionId => (s.sessions.find? sessionId).bind s.proceed
  | .fail sessionId => (s.sessions.find? sessionId).map fun c => s.finish c.sessionId .rejected
  | .outside o => some { s with store := outside o s.store }

end TxSystem

/-! ## The rule -/

/-- What all requests keep: an invariant of what is committed, what each statement may rely on where
it is executed, and the slice of the database a lock protects. -/
structure Contract (E : Engine) where
  Slice : Type
  slice : E.Lock → E.Store → Slice
  inv : E.Store → Prop
  due : E.Ask → E.Store → Prop

namespace Contract

variable {E : Engine} {ε α β : Type} (C : Contract E)

/-- What these locks guard is the same in both. -/
def Agree (locks : List E.Lock) (s s' : E.Store) : Prop :=
  ∀ l ∈ locks, C.slice l s' = C.slice l s

/-- The invariant is kept, and so is what other locks guard. -/
def Keeps (locks : List E.Lock) (s s' : E.Store) : Prop :=
  C.inv s' ∧ ∀ l, l ∉ locks → C.slice l s' = C.slice l s

/-- The program keeps the contract from here on, and what it returns satisfies `Q`. -/
def wp : Program E ε α → (α → List E.Lock → List E.Write → E.Store → Prop) → List E.Lock →
    List E.Write → E.Store → Prop
  | .done (.ok a), Q, locks, writes, s => Q a locks writes s
  | .done (.error _), _, _, _, _ => True
  | .perform .tx q k, Q, locks, writes, s => ∀ s', C.Agree locks s s' → C.inv s' →
      C.due q (E.writes s' writes) ∧ ∀ e, E.exec (E.writes s' writes) q = some e →
        wp (k e.reply) Q (locks ++ e.locks) (writes ++ e.writes) s'
  | .perform .db q k, Q, locks, writes, s => ∀ s', C.Agree locks s s' → C.inv s' →
      C.due q s' ∧ ∀ e, E.exec s' q = some e → (∀ l ∈ e.locks, l ∉ locks) →
        C.Keeps e.locks s' (E.writes s' e.writes) ∧
          wp (k e.reply) Q locks writes (E.writes s' e.writes)
  | .commit k, Q, locks, writes, s => ∀ s', C.Agree locks s s' → C.inv s' →
      C.Keeps locks s' (E.writes s' writes) ∧ wp k Q [] [] (E.writes s' writes)

/-- The program keeps the contract, whatever others do meanwhile. -/
def Safe (p : Program E ε α) (locks : List E.Lock) (writes : List E.Write) (s : E.Store) : Prop :=
  C.wp p (fun _ _ _ _ => True) locks writes s

variable {C} {Q : β → List E.Lock → List E.Write → E.Store → Prop} {locks : List E.Lock}
  {writes : List E.Write} {s : E.Store}

theorem Agree.refl (locks : List E.Lock) (s : E.Store) : C.Agree locks s s := fun _ _ => rfl

theorem Agree.trans {s' s'' : E.Store} (h : C.Agree locks s s') (h' : C.Agree locks s' s'') :
    C.Agree locks s s'' := fun l hl => (h' l hl).trans (h l hl)

theorem wp_bind {p : Program E ε α} {f : α → Program E ε β} :
    C.wp (p >>= f) Q locks writes s ↔
      C.wp p (fun a locks writes s => C.wp (f a) Q locks writes s) locks writes s := by
  show C.wp (p.bind f) Q locks writes s ↔ _
  induction p generalizing locks writes s with
  | done r =>
    cases r with
    | ok a => exact Iff.rfl
    | error e => exact Iff.rfl
  | perform handle q k ih =>
    cases handle with
    | tx =>
      refine forall_congr' fun s' => imp_congr_right fun _ => imp_congr_right fun _ => ?_
      exact and_congr_right fun _ => forall_congr' fun e => imp_congr_right fun _ => ih e.reply
    | db =>
      refine forall_congr' fun s' => imp_congr_right fun _ => imp_congr_right fun _ => ?_
      refine and_congr_right fun _ => forall_congr' fun e => imp_congr_right fun _ => ?_
      exact imp_congr_right fun _ => and_congr_right fun _ => ih e.reply
  | commit k ih =>
    refine forall_congr' fun s' => imp_congr_right fun _ => imp_congr_right fun _ => ?_
    exact and_congr_right fun _ => ih

theorem wp_require {b : Bool} {e : ε} {Q : Unit → List E.Lock → List E.Write → E.Store → Prop} :
    C.wp (Program.require b e) Q locks writes s ↔ (b = true → Q () locks writes s) := by
  cases b with
  | true => exact ⟨fun h _ => h, fun h => h rfl⟩
  | false => exact ⟨fun _ h => (nomatch h), fun _ => trivial⟩

theorem wp_orThrow {o : Option β} {e : ε} :
    C.wp (Program.orThrow o e) Q locks writes s ↔ ∀ a, o = some a → Q a locks writes s := by
  cases o with
  | none => exact ⟨fun _ _ h => (by cases h), fun _ => trivial⟩
  | some a => exact ⟨fun h b hb => Option.some.inj hb ▸ h, fun h => h a rfl⟩

variable (C) in
/-- What a transaction owes when its body has returned `a`, and what holds after it. -/
def Settles (Q : β → List E.Lock → List E.Write → E.Store → Prop) (a : β) (locks : List E.Lock)
    (writes : List E.Write) (s : E.Store) : Prop :=
  ∀ s', C.Agree locks s s' → C.inv s' →
    C.Keeps locks s' (E.writes s' writes) ∧ Q a [] [] (E.writes s' writes)

theorem Settles.of_agree {a : β} {s' : E.Store} (h : C.Settles Q a locks writes s)
    (hagree : C.Agree locks s s') : C.Settles Q a locks writes s' :=
  fun t ht => h t (hagree.trans ht)

theorem wp_transactionally {body : Program E ε β} :
    C.wp body.transactionally Q locks writes s ↔ C.wp body (C.Settles Q) locks writes s :=
  wp_bind

theorem Keeps.refl (hinv : C.inv s) : C.Keeps locks s s := ⟨hinv, fun _ _ => rfl⟩

theorem Keeps.trans {s' s'' : E.Store} (h : C.Keeps locks s s') (h' : C.Keeps locks s' s'') :
    C.Keeps locks s s'' := ⟨h'.1, fun l hl => (h'.2 l hl).trans (h.2 l hl)⟩

theorem Settles.of_reads {a : β} (hQ : ∀ s, Q a [] [] s) : C.Settles Q a locks [] s :=
  fun _ _ hinv => ⟨.refl hinv, hQ _⟩

theorem Safe.of_agree {p : Program E ε α} {s' : E.Store} (h : C.Safe p locks writes s)
    (hagree : C.Agree locks s s') : C.Safe p locks writes s' := by
  cases p with
  | done r =>
    cases r with
    | ok a => trivial
    | error e => trivial
  | perform handle q k =>
    cases handle with
    | tx | db => exact fun t ht hinv => h t (hagree.trans ht) hinv
  | commit k => exact fun t ht hinv => h t (hagree.trans ht) hinv

/-! ## All requests together -/

variable (C)

structure Inv (s : TxSystem E ε α) : Prop where
  inv : C.inv s.store
  apart : ∀ c ∈ s.sessions.rows, ∀ d ∈ s.sessions.rows, c.sessionId ≠ d.sessionId →
    ∀ l ∈ c.locks, l ∉ d.locks
  safe : ∀ c ∈ s.sessions.rows, C.Safe c.program c.locks c.writes s.store

/-- Every request and everything from outside keeps the contract. -/
structure Kept {R O : Type} (program : R → Program E ε α) (outside : O → E.Store → E.Store) :
    Prop where
  program : ∀ r s, C.inv s → C.Safe (program r) [] [] s
  outside : ∀ o s, C.inv s → C.Keeps [] s (outside o s)

variable {C} {σ σ' : TxSystem E ε α}

theorem Inv.start {store : E.Store} (h : C.inv store) :
    C.Inv (TxSystem.start store : TxSystem E ε α) :=
  ⟨h, fun _ hc => absurd hc List.not_mem_nil, fun _ hc => absurd hc List.not_mem_nil⟩

theorem mem_advance {c x : Session E ε α} (hc : σ.sessions.find? c.sessionId = some c)
    {locks : List E.Lock} {writes : List E.Write} {program : Program E ε α}
    (hx : x ∈ (σ.advance c.sessionId locks writes program).sessions.rows) :
    x = { c with locks, writes, program } ∨
      (x ∈ σ.sessions.rows ∧ x.sessionId ≠ c.sessionId) := by
  have hmodified : x ∈ (σ.sessions.modify c.sessionId
      (fun c => { c with locks, writes, program }) fun _ => rfl).rows := hx
  exact mem_modify_cases hc hmodified

theorem Inv.finish (h : C.Inv σ) (sessionId : String) (ending : Ending ε α) :
    C.Inv (σ.finish sessionId ending) :=
  ⟨h.inv, fun c hc d hd => h.apart c (mem_erase.mp hc).1 d (mem_erase.mp hd).1,
    fun c hc => h.safe c (mem_erase.mp hc).1⟩

/-- A request goes on, and with it the store: what it holds now nobody else holds, and the others have
kept what they hold. -/
theorem Inv.advance (h : C.Inv σ) {c : Session E ε α}
    (hc : σ.sessions.find? c.sessionId = some c) {locks : List E.Lock} {writes : List E.Write}
    {program : Program E ε α} {store : E.Store} (hinv : C.inv store)
    (hfree : ∀ d ∈ σ.sessions.rows, d.sessionId ≠ c.sessionId → ∀ l ∈ locks, l ∉ d.locks)
    (hsafe : C.Safe program locks writes store)
    (hothers : ∀ d ∈ σ.sessions.rows, d.sessionId ≠ c.sessionId → C.Agree d.locks σ.store store) :
    C.Inv { σ.advance c.sessionId locks writes program with store } := by
  refine ⟨hinv, ?_, ?_⟩
  · intro x hx y hy hne l hl
    rcases mem_advance hc hx with rfl | ⟨hx, hxne⟩
    · rcases mem_advance hc hy with rfl | ⟨hy, hyne⟩
      · exact absurd rfl hne
      · exact hfree y hy hyne l hl
    · rcases mem_advance hc hy with rfl | ⟨hy, -⟩
      · exact fun hmem => hfree x hx hxne l hmem hl
      · exact h.apart x hx y hy hne l hl
  · intro x hx
    rcases mem_advance hc hx with rfl | ⟨hx, hne⟩
    · exact hsafe
    · exact (h.safe x hx).of_agree (hothers x hx hne)

variable [DecidableEq E.Lock]

theorem lockedByOther_eq_false {sessionId : String} {locks : List E.Lock} :
    σ.lockedByOther sessionId locks = false ↔
      ∀ d ∈ σ.sessions.rows, d.sessionId ≠ sessionId → ∀ l ∈ locks, l ∉ d.locks := by
  simp [TxSystem.lockedByOther]

theorem locked_eq_false {locks : List E.Lock} :
    σ.locked locks = false ↔ ∀ d ∈ σ.sessions.rows, ∀ l ∈ locks, l ∉ d.locks := by
  simp [TxSystem.locked]

theorem Inv.proceed (h : C.Inv σ) {c : Session E ε α}
    (hc : σ.sessions.find? c.sessionId = some c) (hstep : σ.proceed c = some σ') : C.Inv σ' := by
  have hmem := mem_of_find? hc
  have hsafe := h.safe c hmem
  have hapart : ∀ d ∈ σ.sessions.rows, d.sessionId ≠ c.sessionId → ∀ l ∈ c.locks, l ∉ d.locks :=
    fun d hd hne => h.apart c hmem d hd (Ne.symm hne)
  unfold TxSystem.proceed at hstep
  split at hstep
  · cases hstep
    exact h.finish c.sessionId _
  · next k hprogram =>
    cases hstep
    rw [hprogram] at hsafe
    obtain ⟨⟨hinv, hkeeps⟩, hnext⟩ := hsafe σ.store (.refl _ _) h.inv
    refine h.advance hc hinv (fun _ _ _ l hl => absurd hl List.not_mem_nil) hnext ?_
    intro d hd hne l hl
    exact hkeeps l fun hmine => hapart d hd hne l hmine hl
  · next q k hprogram =>
    rw [hprogram] at hsafe
    have hnext := (hsafe σ.store (.refl _ _) h.inv).2
    split at hstep
    · cases hstep
      exact h.finish c.sessionId _
    · next e he =>
      split at hstep
      · cases hstep
      · next hfree =>
        cases hstep
        have hfree := lockedByOther_eq_false.mp (Bool.eq_false_iff.mpr hfree)
        refine h.advance hc h.inv ?_ (hnext e he) fun _ _ _ => .refl _ _
        intro d hd hne l hl
        rcases List.mem_append.mp hl with hl | hl
        · exact hapart d hd hne l hl
        · exact hfree d hd hne l hl
  · next q k hprogram =>
    rw [hprogram] at hsafe
    have hnext := (hsafe σ.store (.refl _ _) h.inv).2
    split at hstep
    · cases hstep
      exact h.finish c.sessionId _
    · next e he =>
      split at hstep
      · cases hstep
      · next hfree =>
        cases hstep
        have hfree := locked_eq_false.mp (Bool.eq_false_iff.mpr hfree)
        obtain ⟨⟨hinv, hkeeps⟩, hrest⟩ := hnext e he (hfree c hmem)
        refine h.advance hc hinv hapart hrest ?_
        intro d hd _ l hl
        exact hkeeps l fun hmine => hfree d hd l hmine hl

section Run

variable {R O : Type} {program : R → Program E ε α} {outside : O → E.Store → E.Store}

theorem Inv.step (hkept : C.Kept program outside) (h : C.Inv σ) {a : TxAction R O}
    (hstep : σ.step program outside a = some σ') : C.Inv σ' := by
  cases a with
  | begin sessionId request =>
    obtain ⟨sessions, hsessions, rfl⟩ := Option.map_eq_some_iff.mp hstep
    have hcases : ∀ x ∈ sessions.rows, x ∈ σ.sessions.rows ∨
        x = ⟨sessionId, [], [], program request⟩ := by
      intro x hx
      rw [rows_of_insert? hsessions, List.mem_append, List.mem_singleton] at hx
      exact hx
    refine ⟨h.inv, ?_, ?_⟩
    · intro x hx y hy hne l hl
      rcases hcases x hx with hx | rfl
      · rcases hcases y hy with hy | rfl
        · exact h.apart x hx y hy hne l hl
        · exact List.not_mem_nil
      · exact absurd hl List.not_mem_nil
    · intro x hx
      rcases hcases x hx with hx | rfl
      · exact h.safe x hx
      · exact hkept.program request σ.store h.inv
  | proceed sessionId =>
    obtain ⟨c, hc, hnext⟩ := Option.bind_eq_some_iff.mp hstep
    exact h.proceed (key_of_find? hc ▸ hc) hnext
  | fail sessionId =>
    obtain ⟨c, -, rfl⟩ := Option.map_eq_some_iff.mp hstep
    exact h.finish c.sessionId .rejected
  | outside o =>
    cases hstep
    obtain ⟨hinv, hkeeps⟩ := hkept.outside o σ.store h.inv
    exact ⟨hinv, h.apart, fun c hc =>
      (h.safe c hc).of_agree fun l _ => hkeeps l List.not_mem_nil⟩

/-- **Requests that keep a contract keep it together.** -/
theorem Inv.exec (hkept : C.Kept program outside) (h : C.Inv σ) {as : List (TxAction R O)}
    (hrun : Lib.exec (TxSystem.step program outside) σ as = some σ') : C.Inv σ' :=
  exec_invariant (fun _ _ _ hs hstep => hs.step hkept hstep) hrun h

omit [DecidableEq E.Lock] in
theorem Inv.due (h : C.Inv σ) {c : Session E ε α} (hc : c ∈ σ.sessions.rows) {q : E.Ask}
    {k : E.Reply q → Program E ε α} (hprogram : c.program = .perform .tx q k) :
    C.due q (E.writes σ.store c.writes) := by
  have hsafe := h.safe c hc
  rw [hprogram] at hsafe
  exact (hsafe σ.store (.refl _ _) h.inv).1

end Run

end Contract

end QuizBackend.Lib
