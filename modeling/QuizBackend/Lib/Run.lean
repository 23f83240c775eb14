import Mathlib.Data.List.Basic
import Mathlib.Data.List.Infix
import Mathlib.Logic.Basic
import Mathlib.Tactic.Common

/-!
# Runs of a partial step function

A system is a step function `σ → α → Option σ`: the action either is enabled and has one
successor, or it is not enabled. Non-determinism lives in the list of actions, so an
interleaving *is* a list and "for every interleaving" is a quantifier over lists.

Two notions carry every result about runs in this development:

* `exec step s as` — the state after the actions `as`, or `none` when one of them was not
  enabled;
* `Along step C s as` — every action of the run was taken in a state in which `C` held of it.
  A property that only holds of some schedules is stated with the schedules' own condition `C`,
  read off the state *before* each step.

`exec_invariant` and `Along.invariant` are the two induction rules; `along_iff_good` turns what one
step needs into what a whole run needs, `between_iff_eachStep` what one step keeps into what lasts.
Everything else here is the prefix bookkeeping they need. A step that may throw is a `do` block in
`Except`, taken apart by the rules at the end.
-/

namespace QuizBackend.Lib

open Option (some.injEq)

variable {σ α : Type*}

/-- The state a run leads to, if every action of it is enabled. -/
def exec (step : σ → α → Option σ) : σ → List α → Option σ
  | s, [] => some s
  | s, a :: as =>
    match step s a with
    | some s' => exec step s' as
    | none => none

/-- Every action of the run from `s` meets `C` in the state it is taken in. -/
def Along (step : σ → α → Option σ) (C : σ → α → Prop) : σ → List α → Prop
  | _, [] => True
  | s, a :: as => C s a ∧ ∀ s', step s a = some s' → Along step C s' as

variable {step : σ → α → Option σ}

@[simp] theorem exec_nil (s : σ) : exec step s [] = some s := rfl

theorem exec_cons (s : σ) (a : α) (as : List α) :
    exec step s (a :: as) = (step s a).bind fun s' => exec step s' as := by
  cases h : step s a <;> simp [exec, h]

theorem exec_append (s : σ) (as bs : List α) :
    exec step s (as ++ bs) = (exec step s as).bind fun t => exec step t bs := by
  induction as generalizing s with
  | nil => rfl
  | cons a as ih =>
    rw [List.cons_append, exec_cons, exec_cons]
    cases step s a with
    | none => rfl
    | some s' => exact ih s'

/-- A run that goes through goes through step by step: its last action is taken in the state
the actions before it reach. -/
theorem exec_snoc {s t : σ} {as : List α} {a : α} :
    exec step s (as ++ [a]) = some t ↔ ∃ m, exec step s as = some m ∧ step m a = some t := by
  rw [exec_append]
  cases h : exec step s as with
  | none => simp
  | some m =>
    simp only [Option.bind_some, exec_cons, exec_nil, Option.bind_fun_some, some.injEq,
      exists_eq_left']

/-- Where every action is enabled, every run goes through. -/
theorem exec_of_enabled (h : ∀ s a, ∃ s', step s a = some s') (s : σ) (as : List α) :
    ∃ t, exec step s as = some t := by
  induction as generalizing s with
  | nil => exact ⟨s, rfl⟩
  | cons a as ih =>
    obtain ⟨s', hs'⟩ := h s a
    obtain ⟨t, ht⟩ := ih s'
    exact ⟨t, by rw [exec_cons, hs', Option.bind_some, ht]⟩

/-- A part of a run goes through if the whole does. -/
theorem exec_of_prefix {s t : σ} {as bs : List α} (h : exec step s bs = some t)
    (hp : as <+: bs) : ∃ m, exec step s as = some m := by
  obtain ⟨cs, rfl⟩ := hp
  rw [exec_append] at h
  cases hm : exec step s as with
  | none => rw [hm] at h; cases h
  | some m => exact ⟨m, rfl⟩

/-- **Induction over a run.** What the start has and every step keeps, the end has. -/
theorem exec_invariant {I : σ → Prop} (hstep : ∀ s a s', I s → step s a = some s' → I s')
    {s t : σ} {as : List α} (h : exec step s as = some t) (hs : I s) : I t := by
  induction as generalizing s with
  | nil => rw [exec_nil, some.injEq] at h; exact h ▸ hs
  | cons a as ih =>
    rw [exec_cons] at h
    cases hsa : step s a with
    | none => rw [hsa] at h; cases h
    | some s' => rw [hsa] at h; exact ih h (hstep s a s' hs hsa)

/-- **Induction over a run whose steps meet a condition.** The step case may use the
condition at the step. -/
theorem Along.invariant {C : σ → α → Prop} {I : σ → Prop}
    (hstep : ∀ s a s', I s → C s a → step s a = some s' → I s')
    {s t : σ} {as : List α} (hc : Along step C s as) (h : exec step s as = some t)
    (hs : I s) : I t := by
  induction as generalizing s with
  | nil => rw [exec_nil, some.injEq] at h; exact h ▸ hs
  | cons a as ih =>
    rw [exec_cons] at h
    cases hsa : step s a with
    | none => rw [hsa] at h; cases h
    | some s' =>
      rw [hsa] at h
      exact ih (hc.2 s' hsa) h (hstep s a s' hs hc.1 hsa)

/-- A condition along a run holds along its parts. -/
theorem Along.of_prefix {C : σ → α → Prop} {s : σ} {as bs : List α}
    (h : Along step C s bs) (hp : as <+: bs) : Along step C s as := by
  obtain ⟨cs, rfl⟩ := hp
  induction as generalizing s with
  | nil => trivial
  | cons a as ih => exact ⟨h.1, fun s' hs' => ih (h.2 s' hs')⟩

theorem Along.and_forall {C : σ → α → Prop} {Q : α → Prop} {s : σ} {as : List α}
    (h : Along step C s as) (hq : ∀ a ∈ as, Q a) : Along step (fun s a => C s a ∧ Q a) s as := by
  induction as generalizing s with
  | nil => trivial
  | cons a as ih =>
    refine ⟨⟨h.1, hq a (List.mem_cons_self ..)⟩, ?_⟩
    intro s' hs'
    exact ih (h.2 s' hs') fun b hb => hq b (List.mem_cons_of_mem a hb)

/-- A condition along a run holds along its rest. -/
theorem Along.append_right {C : σ → α → Prop} {s t : σ} {as bs : List α}
    (h : Along step C s (as ++ bs)) (ht : exec step s as = some t) : Along step C t bs := by
  induction as generalizing s with
  | nil =>
    rw [exec_nil, some.injEq] at ht
    exact ht ▸ h
  | cons a as ih =>
    rw [exec_cons] at ht
    obtain ⟨s', hs', ht⟩ := Option.bind_eq_some_iff.mp ht
    exact ih (h.2 s' hs') ht

theorem along_snoc {C : σ → α → Prop} {s : σ} {as : List α} {a : α} :
    Along step C s (as ++ [a]) ↔
      Along step C s as ∧ ∀ m, exec step s as = some m → C m a := by
  induction as generalizing s with
  | nil => simp [Along]
  | cons b as ih =>
    simp only [List.cons_append, Along, exec_cons]
    constructor
    · rintro ⟨hb, hrest⟩
      refine ⟨⟨hb, fun s' hs' => (ih.mp (hrest s' hs')).1⟩, ?_⟩
      intro m hm
      cases hs' : step s b with
      | none => rw [hs'] at hm; cases hm
      | some s' => rw [hs'] at hm; exact (ih.mp (hrest s' hs')).2 m hm
    · rintro ⟨⟨hb, hrest⟩, hlast⟩
      refine ⟨hb, fun s' hs' => ih.mpr ⟨hrest s' hs', fun m hm => hlast m ?_⟩⟩
      rw [hs']; exact hm

/-- `Along` position by position: the condition holds at every action of the run, in the
state the actions before it reach. -/
theorem along_iff {C : σ → α → Prop} {s : σ} {as : List α} :
    Along step C s as ↔
      ∀ pre a, pre ++ [a] <+: as → ∀ m, exec step s pre = some m → C m a := by
  constructor
  · intro h pre a hp m hm
    exact (along_snoc.mp (h.of_prefix hp)).2 m hm
  · induction as using List.reverseRecOn with
    | nil => intro _; trivial
    | append_singleton as a ih =>
      intro h
      refine along_snoc.mpr ⟨ih fun pre b hp => h pre b (hp.trans (List.prefix_append as [a])), ?_⟩
      exact h as a (List.prefix_refl _)

instance Along.decidable (step : σ → α → Option σ) (C : σ → α → Prop)
    [∀ s a, Decidable (C s a)] : ∀ (s : σ) (as : List α), Decidable (Along step C s as)
  | _, [] => .isTrue trivial
  | s, a :: as =>
    match h : step s a with
    | none =>
      decidable_of_iff (C s a) ⟨fun hc => ⟨hc, fun s' hs' => by simp [h] at hs'⟩, And.left⟩
    | some s' =>
      let _ := Along.decidable step C s' as
      decidable_of_iff (C s a ∧ Along step C s' as)
        ⟨fun hc => ⟨hc.1, fun t ht => by
          rw [h, some.injEq] at ht
          exact ht ▸ hc.2⟩, fun hc => ⟨hc.1, hc.2 s' h⟩⟩

/-! ## The last step that counts -/

variable {β : Type*}

/-- What `f` says of the last step of the run that it says anything of. -/
def latest (step : σ → α → Option σ) (f : σ → α → Option β) : σ → List α → Option β
  | _, [] => none
  | s, a :: as =>
    match step s a with
    | some s' => (latest step f s' as).or (f s a)
    | none => none

/-- **Induction over a run with its last step that counts.** -/
theorem latest_invariant {f : σ → α → Option β} {J : σ → Option β → Prop}
    (hstep : ∀ s a s' o, J s o → step s a = some s' → J s' ((f s a).or o)) {s t : σ}
    {as : List α} (h : exec step s as = some t) {o : Option β} (hs : J s o) :
    J t ((latest step f s as).or o) := by
  induction as generalizing s o with
  | nil =>
    rw [exec_nil, some.injEq] at h
    exact h ▸ hs
  | cons a as ih =>
    rw [exec_cons] at h
    obtain ⟨s', hs', ht⟩ := Option.bind_eq_some_iff.mp h
    rw [latest, hs', Option.or_assoc]
    exact ih ht (hstep s a s' o hs hs')

/-! ## What holds all the way

A property that a run can lose again at a later step is stated of every state it passes through,
and, where it is about a change, of every step it takes. -/

/-- `P` holds in every state of the run. -/
def Always (step : σ → α → Option σ) (P : σ → Prop) (s : σ) (as : List α) : Prop :=
  ∀ pre m, pre <+: as → exec step s pre = some m → P m

/-- `Q` holds of every step of the run. -/
def EachStep (step : σ → α → Option σ) (Q : σ → α → σ → Prop) (s : σ) (as : List α) : Prop :=
  ∀ pre a m m', pre ++ [a] <+: as → exec step s pre = some m → step m a = some m' → Q m a m'

/-- **A property of every step**: from a good state each step is good and leads to a good state, so
every run is good all the way. -/
theorem good_of_step {P : σ → Prop} {Q : σ → α → σ → Prop}
    (hstep : ∀ s a s', P s → step s a = some s' → P s' ∧ Q s a s') {s : σ} (hp : P s)
    (as : List α) : Always step P s as ∧ EachStep step Q s as := by
  have hkeep : ∀ pre m, exec step s pre = some m → P m := fun pre m hm =>
    exec_invariant (fun s a s' hs h => (hstep s a s' hs h).1) hm hp
  exact ⟨fun pre m _ hm => hkeep pre m hm, fun pre a m m' _ hm h => (hstep m a m' (hkeep pre m hm) h).2⟩

/-- **When a property is exactly a condition on the schedule.** If from a good state a step is
good and leads to a good state just when `C` holds of it, then a run is good all the way just when
`C` holds all along it. -/
theorem along_iff_good {C : σ → α → Prop} {I P : σ → Prop} {Q : σ → α → σ → Prop}
    (hI : ∀ s a s', I s → step s a = some s' → I s')
    (hC : ∀ s a s', I s → P s → step s a = some s' → (C s a ↔ P s' ∧ Q s a s'))
    {s t : σ} {as : List α} (h : exec step s as = some t) (hi : I s) (hp : P s) :
    (Always step P s as ∧ EachStep step Q s as) ↔ Along step C s as := by
  constructor
  · rintro ⟨hP, hQ⟩
    refine along_iff.mpr ?_
    intro pre a hpre m hm
    obtain ⟨m', hm'⟩ := exec_of_prefix h hpre
    obtain ⟨n, hn, hstep⟩ := exec_snoc.mp hm'
    rw [hm, some.injEq] at hn
    subst hn
    have hPm := hP pre m ((List.prefix_append pre [a]).trans hpre) hm
    exact (hC m a m' (exec_invariant hI hm hi) hPm hstep).mpr
      ⟨hP _ m' hpre hm', hQ pre a m m' hpre hm hstep⟩
  · intro hc
    have hkeep : ∀ pre m, pre <+: as → exec step s pre = some m → I m ∧ P m :=
      fun pre m hpre hm => (hc.of_prefix hpre).invariant (I := fun s => I s ∧ P s)
        (fun s a s' hs hcs hstep =>
          ⟨hI s a s' hs.1 hstep, ((hC s a s' hs.1 hs.2 hstep).mp hcs).1⟩) hm ⟨hi, hp⟩
    refine ⟨fun pre m hpre hm => (hkeep pre m hpre hm).2, ?_⟩
    intro pre a m m' hpre hm hstep
    obtain ⟨him, hpm⟩ := hkeep pre m ((List.prefix_append pre [a]).trans hpre) hm
    exact ((hC m a m' him hpm hstep).mp (along_iff.mp hc pre a hpre m hm)).2

/-- The case of states only. -/
theorem along_iff_always {C : σ → α → Prop} {I P : σ → Prop}
    (hI : ∀ s a s', I s → step s a = some s' → I s')
    (hC : ∀ s a s', I s → P s → step s a = some s' → (C s a ↔ P s'))
    {s t : σ} {as : List α} (h : exec step s as = some t) (hi : I s) (hp : P s) :
    Always step P s as ↔ Along step C s as := by
  have hgood := along_iff_good (Q := fun _ _ _ => True) hI
    (fun s a s' hs hps hstep => by simpa using hC s a s' hs hps hstep) h hi hp
  exact (and_iff_left fun _ _ _ _ _ _ _ => trivial).symm.trans hgood

/-- The case of steps only. -/
theorem along_iff_eachStep {C : σ → α → Prop} {I : σ → Prop} {Q : σ → α → σ → Prop}
    (hI : ∀ s a s', I s → step s a = some s' → I s')
    (hC : ∀ s a s', I s → step s a = some s' → (C s a ↔ Q s a s'))
    {s t : σ} {as : List α} (h : exec step s as = some t) (hi : I s) :
    EachStep step Q s as ↔ Along step C s as := by
  have hgood := along_iff_good (P := fun _ => True) hI
    (fun s a s' hs _ hstep => by simpa using hC s a s' hs hstep) h hi trivial
  exact (and_iff_right fun _ _ _ _ => trivial).symm.trans hgood

/-! What is known of a run by evaluating it: what is read, with `f`, in the state it ends in. -/

variable {γ : Type*} {s : σ} {as bs : List α}

/-- What is read off a concrete run. -/
theorem exists_of_read {r : Option σ} {P : σ → Prop} (f : σ → β) (x : β) (h : r.map f = some x)
    (hread : ∀ t, r = some t → f t = x → P t) : ∃ t, r = some t ∧ P t := by
  obtain ⟨t, ht, hx⟩ := Option.map_eq_some_iff.mp h
  exact ⟨t, ht, hread t ht hx⟩

/-- A state property, read off the end of a concrete run. -/
theorem Always.read {P : σ → Prop} (h : Always step P s as) (f : σ → β) (x : β)
    (hend : (exec step s as).map f = some x) : ∃ t, P t ∧ f t = x := by
  obtain ⟨t, ht, hx⟩ := Option.map_eq_some_iff.mp hend
  exact ⟨t, h as t (List.prefix_refl _) ht, hx⟩

/-- A step property, read off a concrete step. -/
theorem EachStep.read {Q : σ → α → σ → Prop} (h : EachStep step Q s bs) (as : List α) (a : α)
    (hpre : as ++ [a] <+: bs) (f : σ → β) (x : β) (g : σ → γ) (y : γ)
    (hbefore : (exec step s as).map f = some x) (hend : (exec step s (as ++ [a])).map g = some y) :
    ∃ m t, Q m a t ∧ f m = x ∧ g t = y := by
  obtain ⟨t, ht, hy⟩ := Option.map_eq_some_iff.mp hend
  obtain ⟨m, hm, hstep⟩ := exec_snoc.mp ht
  obtain ⟨m', hm', hx⟩ := Option.map_eq_some_iff.mp hbefore
  obtain rfl : m = m' := Option.some.inj (hm.symm.trans hm')
  exact ⟨m, t, h as a m t hpre hm hstep, hx, hy⟩

/-- `R` holds between every state of the run and every later one. -/
def Between (step : σ → α → Option σ) (R : σ → σ → Prop) (s : σ) (as : List α) : Prop :=
  ∀ pre pre' m m', pre <+: pre' → pre' <+: as → exec step s pre = some m →
    exec step s pre' = some m' → R m m'

/-- **A preorder holds between all states** just where it holds of each step. -/
theorem between_iff_eachStep {R : σ → σ → Prop} (hrefl : ∀ s, R s s)
    (htrans : ∀ s t u, R s t → R t u → R s u) {s : σ} {as : List α} :
    Between step R s as ↔ EachStep step (fun s _ s' => R s s') s as := by
  constructor
  · intro h pre a m m' hpre hm hstep
    exact h pre _ m m' (List.prefix_append pre [a]) hpre hm (exec_snoc.mpr ⟨m, hm, hstep⟩)
  · rintro h pre _ m m' ⟨rest, rfl⟩ hpre' hm hm'
    -- from the earlier state on, step by step
    induction rest using List.reverseRecOn generalizing m' with
    | nil =>
      rw [List.append_nil, hm, some.injEq] at hm'
      exact hm' ▸ hrefl m
    | append_singleton rest a ih =>
      rw [← List.append_assoc] at hpre' hm'
      obtain ⟨n, hn, hstep⟩ := exec_snoc.mp hm'
      have hbefore := ih n ((List.prefix_append _ [a]).trans hpre') hn
      exact htrans m n m' hbefore (h _ a n m' hpre' hn hstep)

/-! ## Code that may throw

A service checks its input and returns or throws. What matters about such a block afterwards is what
must have held for it to return: a step that came before another has returned itself, a guard that
throws was not entered, and what is returned is what was meant. -/

section Guards

variable {ε α β : Type}

/-- A sequence succeeds when both parts do. -/
theorem bind_eq_ok {x : Except ε α} {f : α → Except ε β} {b : β} :
    x >>= f = .ok b ↔ ∃ a, x = .ok a ∧ f a = .ok b := by
  cases x with
  | error e => simp [bind, Except.bind]
  | ok a => simp [bind, Except.bind]

theorem throw_ne_ok {e : ε} {a : α} : (throw e : Except ε α) ≠ .ok a := by
  intro h
  cases h

theorem pure_eq_ok {a b : α} : (pure a : Except ε α) = .ok b ↔ a = b := by
  simp [pure, Except.pure]

theorem map_eq_ok {x : Except ε α} {f : α → β} {b : β} :
    x.map f = .ok b ↔ ∃ a, x = .ok a ∧ f a = b := by
  cases x with
  | error e => simp [Except.map]
  | ok a => simp [Except.map]

/-- A guarded body succeeds when the guard lets it through. -/
theorem guard_eq_ok {p : Prop} [Decidable p] {e : ε} {f : PUnit → Except ε β}
    {y : Except ε β} {b : β} :
    (if p then throw e >>= f else y) = .ok b ↔ ¬ p ∧ y = .ok b := by
  by_cases hp : p
  · simp only [hp, if_true, bind_eq_ok, throw_ne_ok, false_and, exists_false, not_true_eq_false]
  · simp only [hp, if_false, not_false_eq_true, true_and]

end Guards

end QuizBackend.Lib
