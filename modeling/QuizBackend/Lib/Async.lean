import Mathlib.Order.Basic

/-!
# Asynchronous programs over a shared store

A program that awaits is a tree: it has its result, or it sends a command and goes on with the
reply, or it waits for two programs whose commands come in any order (`Promise.all`). Between two
commands of a program anything may happen to the store, so a program says nothing about states: it
is run by somebody who has many of them in hand and decides at every step which one sends its next
command (`next`), the path of a step picking the side at each `both`.

What a program does is reasoned about with a `Protocol`: what one may send (`may`), which replies
one may count on (`sees`), and what one knows after a reply (`learns`), all relative to what is
known so far. Knowledge is ordered and never lost, whoever sends the next command. `Safe` is the
precondition of a whole program for a postcondition on its result; `Safe.bind`, `Safe.send` and
`Safe.all` build it along the text of the program, and `Safe.next` and `Safe.of_done` are what the
owner of the store uses at each step. So the owner proves one thing for each command, and each
program is proved once, without a state.
-/

namespace QuizBackend.Lib

/-- A program of commands, two of which may be in flight at a time. -/
inductive Async (Cmd : Type) (Reply : Cmd → Type) : Type → Type 1
  | ret {α : Type} (a : α) : Async Cmd Reply α
  | call {α : Type} (c : Cmd) (k : Reply c → Async Cmd Reply α) : Async Cmd Reply α
  | both {α β γ : Type} (l : Async Cmd Reply β) (r : Async Cmd Reply γ)
      (k : β → γ → Async Cmd Reply α) : Async Cmd Reply α

namespace Async

variable {Cmd : Type} {Reply : Cmd → Type} {α β : Type}

protected def bind : {α β : Type} → Async Cmd Reply α → (α → Async Cmd Reply β) →
    Async Cmd Reply β
  | _, _, .ret a, f => f a
  | _, _, .call c k, f => .call c fun reply => (k reply).bind f
  | _, _, .both l r k, f => .both l r fun a b => (k a b).bind f

instance : Monad (Async Cmd Reply) where
  pure := .ret
  bind := Async.bind

def send (c : Cmd) : Async Cmd Reply (Reply c) := .call c .ret

def all (l : Async Cmd Reply α) (r : Async Cmd Reply β) : Async Cmd Reply (α × β) :=
  .both l r fun a b => .ret (a, b)

def done? : {α : Type} → Async Cmd Reply α → Option α
  | _, .ret a => some a
  | _, .call _ _ => none
  | _, .both l r k =>
    match l.done?, r.done? with
    | some a, some b => (k a b).done?
    | _, _ => none

def next : {α : Type} → Async Cmd Reply α → List Bool →
    Option ((c : Cmd) × (Reply c → Async Cmd Reply α))
  | _, .ret _, _ => none
  | _, .call c k, _ => some ⟨c, k⟩
  | _, .both l r k, path =>
    match l.done?, r.done? with
    | some a, some b => (k a b).next path
    | _, _ =>
      match path with
      | [] => none
      | false :: path => (l.next path).map fun x => ⟨x.1, fun reply => .both (x.2 reply) r k⟩
      | true :: path => (r.next path).map fun x => ⟨x.1, fun reply => .both l (x.2 reply) k⟩

theorem next_of_done {m : Async Cmd Reply α} {a : α} (h : m.done? = some a) (path : List Bool) :
    m.next path = none := by
  induction m generalizing path with
  | ret b => rfl
  | call c k _ => cases h
  | both l r k _ _ ih =>
    unfold done? at h
    unfold next
    split at h
    · exact ih _ _ h path
    · cases h

end Async

structure Protocol (Cmd : Type) (Reply : Cmd → Type) (κ : Type) [Preorder κ] where
  may : κ → Cmd → Prop
  sees : κ → (c : Cmd) → Reply c → Prop
  learns : κ → (c : Cmd) → Reply c → κ
  may_mono : ∀ {k k' c}, k ≤ k' → may k c → may k' c
  sees_anti : ∀ {k k' c r}, k ≤ k' → sees k' c r → sees k c r
  learns_mono : ∀ {k k' c r}, k ≤ k' → learns k c r ≤ learns k' c r
  le_learns : ∀ {k c r}, sees k c r → k ≤ learns k c r

variable {Cmd : Type} {Reply : Cmd → Type} {κ : Type} [Preorder κ]

/-- A program that knows `k` keeps to the protocol and ends with a result that satisfies `Q`. -/
def Safe (P : Protocol Cmd Reply κ) :
    {α : Type} → κ → Async Cmd Reply α → (α → Prop) → Prop
  | _, _, .ret a, Q => Q a
  | _, k, .call c next, Q => P.may k c ∧ ∀ r, P.sees k c r → Safe P (P.learns k c r) (next r) Q
  | _, k, .both l r next, Q =>
    ∃ L R, Safe P k l L ∧ Safe P k r R ∧
      ∀ a b, L a → R b → ∀ k', k ≤ k' → Safe P k' (next a b) Q

namespace Safe

variable {P : Protocol Cmd Reply κ} {α β : Type}

theorem mono {m : Async Cmd Reply α} {k k' : κ} {Q : α → Prop} (hle : k ≤ k')
    (h : Safe P k m Q) : Safe P k' m Q := by
  induction m generalizing k k' with
  | ret a => exact h
  | call c next ih =>
    refine ⟨P.may_mono hle h.1, fun r hr => ?_⟩
    exact ih r (P.learns_mono hle) (h.2 r (P.sees_anti hle hr))
  | both l r next ihl ihr ih =>
    obtain ⟨L, R, hl, hr, hnext⟩ := h
    exact ⟨L, R, ihl hle hl, ihr hle hr,
      fun a b ha hb k₁ hk₁ => hnext a b ha hb k₁ (le_trans hle hk₁)⟩

/-- The postcondition of the first of two programs is the precondition of the second, whatever
has been learnt in between. -/
theorem bind {m : Async Cmd Reply α} {f : α → Async Cmd Reply β} {k : κ} {Q : β → Prop}
    (h : Safe P k m fun a => ∀ k', k ≤ k' → Safe P k' (f a) Q) : Safe P k (m >>= f) Q := by
  suffices hgen : ∀ {k₀}, k₀ ≤ k → Safe P k m (fun a => ∀ k', k₀ ≤ k' → Safe P k' (f a) Q) →
      Safe P k (m.bind f) Q from hgen (le_refl k) h
  clear h
  intro k₀ hle h
  induction m generalizing k with
  | ret a => exact h k hle
  | call c next ih =>
    refine ⟨h.1, fun r hr => ?_⟩
    exact ih r (le_trans hle (P.le_learns hr)) (h.2 r hr)
  | both l r next _ _ ih =>
    obtain ⟨L, R, hl, hr, hnext⟩ := h
    exact ⟨L, R, hl, hr, fun a b ha hb k' hk' =>
      ih a b (le_trans hle hk') (hnext a b ha hb k' hk')⟩

theorem imp {m : Async Cmd Reply α} {k : κ} {Q Q' : α → Prop} (h : Safe P k m Q)
    (hQ : ∀ a, Q a → Q' a) : Safe P k m Q' := by
  induction m generalizing k with
  | ret a => exact hQ a h
  | call c next ih => exact ⟨h.1, fun r hr => ih r (h.2 r hr) hQ⟩
  | both l r next _ _ ih =>
    obtain ⟨L, R, hl, hr, hnext⟩ := h
    exact ⟨L, R, hl, hr, fun a b ha hb k' hk' => ih a b (hnext a b ha hb k' hk') hQ⟩

theorem send {c : Cmd} {k : κ} {Q : Reply c → Prop} (hmay : P.may k c)
    (h : ∀ r, P.sees k c r → Q r) : Safe P k (Async.send c) Q := ⟨hmay, h⟩

theorem send_bind {c : Cmd} {f : Reply c → Async Cmd Reply β} {k : κ} {Q : β → Prop}
    (hmay : P.may k c) (h : ∀ r, P.sees k c r → Safe P (P.learns k c r) (f r) Q) :
    Safe P k (Async.send c >>= f) Q := ⟨hmay, h⟩

theorem all {l : Async Cmd Reply α} {r : Async Cmd Reply β} {k : κ} {L : α → Prop} {R : β → Prop}
    (hl : Safe P k l L) (hr : Safe P k r R) :
    Safe P k (Async.all l r) fun x => L x.1 ∧ R x.2 :=
  ⟨L, R, hl, hr, fun _ _ ha hb _ _ => ⟨ha, hb⟩⟩

/-- **The result of a program that was safe to the end.** -/
theorem of_done {m : Async Cmd Reply α} {k : κ} {Q : α → Prop} {a : α} (h : Safe P k m Q)
    (hdone : m.done? = some a) : Q a := by
  induction m generalizing k with
  | ret b =>
    cases hdone
    exact h
  | call c next _ => cases hdone
  | both l r next ihl ihr ih =>
    obtain ⟨L, R, hl, hr, hnext⟩ := h
    simp only [Async.done?] at hdone
    split at hdone
    · rename_i b c hb hc
      exact ih b c (hnext b c (ihl hl hb) (ihr hr hc) k (le_refl k)) hdone
    · cases hdone

/-- **One command of a safe program**: it may be sent, and after a reply that was to be expected
the rest is safe. -/
theorem next {m : Async Cmd Reply α} {k : κ} {Q : α → Prop} {path : List Bool} {c : Cmd}
    {rest : Reply c → Async Cmd Reply α} (h : Safe P k m Q) (hnext : m.next path = some ⟨c, rest⟩) :
    P.may k c ∧ ∀ r, P.sees k c r → Safe P (P.learns k c r) (rest r) Q := by
  induction m generalizing k path with
  | ret a => cases hnext
  | call c' next' _ =>
    cases hnext
    exact h
  | both l r cont ihl ihr ih =>
    obtain ⟨L, R, hl, hr, hcont⟩ := h
    unfold Async.next at hnext
    split at hnext
    · rename_i a b ha hb
      exact ih a b (hcont a b (hl.of_done ha) (hr.of_done hb) k (le_refl k)) hnext
    · -- one side goes on; the other knows what it learns
      split at hnext
      · cases hnext
      · obtain ⟨x, hx, hxc⟩ := Option.map_eq_some_iff.mp hnext
        cases hxc
        obtain ⟨hmay, hrest⟩ := ihl hl hx
        refine ⟨hmay, fun reply hreply => ?_⟩
        have hle := P.le_learns hreply
        exact ⟨L, R, hrest reply hreply, hr.mono hle,
          fun a b ha hb k' hk' => hcont a b ha hb k' (le_trans hle hk')⟩
      · obtain ⟨x, hx, hxc⟩ := Option.map_eq_some_iff.mp hnext
        cases hxc
        obtain ⟨hmay, hrest⟩ := ihr hr hx
        refine ⟨hmay, fun reply hreply => ?_⟩
        have hle := P.le_learns hreply
        exact ⟨L, R, hl.mono hle, hrest reply hreply,
          fun a b ha hb k' hk' => hcont a b ha hb k' (le_trans hle hk')⟩

end Safe

end QuizBackend.Lib
