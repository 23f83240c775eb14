import QuizBackend.Lib.Alone

/-!
# More statements on a database

A database that is reasoned about with one set of statements gets another, for jobs that run beside its
requests. The requests are carried over (`Program.lift`); what has been proved of them by the rule of
`Contract` holds with the new statements, too (`Contract.wp_lift`), so what is left to prove is that the
jobs keep the same contract.
-/

namespace QuizBackend.Lib

structure Extension (E : Engine) where
  Ask : Type
  Reply : Ask → Type
  exec : E.Store → (q : Ask) → Option (Effect E.Lock E.Write (Reply q))

abbrev Engine.extend (E : Engine) (X : Extension E) : Engine where
  Store := E.Store
  Write := E.Write
  Lock := E.Lock
  Ask := E.Ask ⊕ X.Ask
  Reply
    | .inl q => E.Reply q
    | .inr q => X.Reply q
  write := E.write
  exec
    | s, .inl q => E.exec s q
    | s, .inr q => X.exec s q

variable {E : Engine} {X : Extension E} {ε α β : Type}

def Program.lift (X : Extension E) : Program E ε α → Program (E.extend X) ε α
  | .done r => .done r
  | .perform handle q k => .perform (E := E.extend X) handle (.inl q) fun r => (k r).lift X
  | .commit k => .commit (k.lift X)

def Program.askMore (X : Extension E) (handle : Handle) (q : X.Ask) :
    Program (E.extend X) ε (X.Reply q) :=
  Program.ask (E := E.extend X) handle (.inr q)

def Contract.extend (C : Contract E) (X : Extension E) : Contract (E.extend X) where
  Slice := C.Slice
  slice := C.slice
  inv := C.inv
  due
    | .inl q, s => C.due q s
    | .inr _, _ => True

namespace Contract

variable {C : Contract E} {Q : α → List E.Lock → List E.Write → E.Store → Prop}
  {locks : List E.Lock} {writes : List E.Write} {s : E.Store}

/-- **What keeps the contract keeps it with more statements.** -/
theorem wp_lift {p : Program E ε α} :
    (C.extend X).wp (p.lift X) Q locks writes s ↔ C.wp p Q locks writes s := by
  induction p generalizing locks writes s with
  | done r =>
    cases r with
    | ok a => exact Iff.rfl
    | error e => exact Iff.rfl
  | perform handle q k ih =>
    cases handle with
    | tx =>
      refine forall_congr' fun s' => imp_congr_right fun _ => imp_congr_right fun _ => ?_
      exact and_congr_right fun _ => forall_congr' fun e => imp_congr_right fun _ => ih e.reply
    | db =>
      refine forall_congr' fun s' => imp_congr_right fun _ => imp_congr_right fun _ => ?_
      refine and_congr_right fun _ => forall_congr' fun e => imp_congr_right fun _ => ?_
      exact imp_congr_right fun _ => and_congr_right fun _ => ih e.reply
  | commit k ih =>
    refine forall_congr' fun s' => imp_congr_right fun _ => imp_congr_right fun _ => ?_
    exact and_congr_right fun _ => ih

theorem wp_askMore {q : X.Ask} {Q : X.Reply q → List E.Lock → List E.Write → E.Store → Prop} :
    (C.extend X).wp (Program.askMore (ε := ε) X .tx q) Q locks writes s ↔
      ∀ s' : E.Store, C.Agree locks s s' → C.inv s' →
        ∀ e, X.exec (E.writes s' writes) q = some e →
          Q e.reply (locks ++ e.locks) (writes ++ e.writes) s' := by
  refine forall_congr' fun s' => imp_congr_right fun _ => imp_congr_right fun _ => ?_
  exact ⟨fun h => h.2, fun h => ⟨trivial, h⟩⟩

end Contract

end QuizBackend.Lib
