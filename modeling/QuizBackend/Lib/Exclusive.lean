import Mathlib.Data.List.Basic
import Mathlib.Data.List.Perm.Basic

/-!
# Mutual exclusion

Parties of a system hold keys: locks, tokens, the right to be in a critical section. `Exclusive`
says that no key has two holders. The system keeps its parties in a list and changes one of them at
a time, so what is needed is how a new party and a changed one keep what holds of all of them, and
how they keep the keys exclusive.
-/

namespace QuizBackend.Lib

variable {ρ κ : Type} {f : ρ → Option κ} {xs : List ρ}

variable {n : Nat}

/-- Who is there after a change is the changed party or another one. -/
theorem mem_set_cases {new y : ρ} (h : y ∈ xs.set n new) :
    y = new ∨ ∃ j, j ≠ n ∧ xs[j]? = some y := by
  obtain ⟨j, hj⟩ := List.mem_iff_getElem?.mp h
  by_cases hn : n = j
  · subst hn
    refine .inl ?_
    have hlt : n < xs.length := by
      have := (List.getElem?_eq_some_iff.mp hj).1
      rwa [List.length_set] at this
    rw [List.getElem?_set_self hlt, Option.some.injEq] at hj
    exact hj.symm
  · rw [List.getElem?_set_ne hn] at hj
    exact .inr ⟨j, Ne.symm hn, hj⟩

/-- What holds of all parties, of a changed one too, holds after the change. -/
theorem forall_mem_set {P : ρ → Prop} (h : ∀ x ∈ xs, P x) {new : ρ} (hnew : P new) :
    ∀ x ∈ xs.set n new, P x := by
  intro x hx
  rcases List.mem_or_eq_of_mem_set hx with hx | rfl
  · exact h x hx
  · exact hnew

/-- What holds of all parties and of a new one holds when it has joined. -/
theorem forall_mem_join {P : ρ → Prop} (h : ∀ x ∈ xs, P x) {new : ρ} (hnew : P new) :
    ∀ x ∈ xs ++ [new], P x :=
  List.forall_mem_append.mpr ⟨h, List.forall_mem_singleton.mpr hnew⟩

/-- The other parties stay. -/
theorem mem_set_of_ne {j : Nat} {new y : ρ} (hj : xs[j]? = some y) (hne : j ≠ n) :
    y ∈ xs.set n new := by
  refine List.mem_iff_getElem?.mpr ⟨j, ?_⟩
  rw [List.getElem?_set_ne (Ne.symm hne), hj]

/-- The changed party is there. -/
theorem mem_set_self {old new : ρ} (hold : xs[n]? = some old) : new ∈ xs.set n new := by
  refine List.mem_iff_getElem?.mpr ⟨n, ?_⟩
  rw [List.getElem?_set_self (List.getElem?_eq_some_iff.mp hold).1]

/-- A witness among the parties survives, unless it is the one that changes. -/
theorem exists_mem_set {P : ρ → Prop} {old y : ρ} (hold : xs[n]? = some old) (h : ∃ x ∈ xs, P x) :
    P old ∨ ∃ x ∈ xs.set n y, P x := by
  obtain ⟨x, hx, hP⟩ := h
  obtain ⟨j, hj⟩ := List.mem_iff_getElem?.mp hx
  by_cases hjn : j = n
  · rw [hjn, hold, Option.some.injEq] at hj
    exact .inl (hj ▸ hP)
  · exact .inr ⟨x, mem_set_of_ne hj hjn, hP⟩

/-- A count without one party. -/
theorem countP_eraseIdx_add {p : ρ → Bool} {old : ρ} (hold : xs[n]? = some old) :
    (xs.eraseIdx n).countP p + (if p old then 1 else 0) = xs.countP p := by
  obtain ⟨hlt, rfl⟩ := List.getElem?_eq_some_iff.mp hold
  rw [← (List.getElem_cons_eraseIdx_perm hlt).countP_eq p, List.countP_cons]

/-- A count after one party has changed. -/
theorem countP_set_add {p : ρ → Bool} {old y : ρ} (hold : xs[n]? = some old) :
    (xs.set n y).countP p + (if p old then 1 else 0) = xs.countP p + (if p y then 1 else 0) := by
  obtain ⟨hlt, rfl⟩ := List.getElem?_eq_some_iff.mp hold
  have hle : (if p xs[n] then 1 else 0) ≤ xs.countP p := List.boole_getElem_le_countP hlt
  rw [List.countP_set hlt]
  omega

/-- The other parties stay when one leaves. -/
theorem mem_eraseIdx_of_ne {j : Nat} {y : ρ} (hj : xs[j]? = some y) (hne : j ≠ n) :
    y ∈ xs.eraseIdx n :=
  List.mem_eraseIdx_iff_getElem?.mpr ⟨j, hne, hj⟩

/-- A witness among the parties survives, unless it is the one that leaves. -/
theorem exists_mem_eraseIdx {P : ρ → Prop} {old : ρ} (hold : xs[n]? = some old) (h : ∃ x ∈ xs, P x) :
    P old ∨ ∃ x ∈ xs.eraseIdx n, P x := by
  obtain ⟨x, hx, hP⟩ := h
  obtain ⟨j, hj⟩ := List.mem_iff_getElem?.mp hx
  by_cases hjn : j = n
  · rw [hjn, hold, Option.some.injEq] at hj
    exact .inl (hj ▸ hP)
  · exact .inr ⟨x, mem_eraseIdx_of_ne hj hjn, hP⟩

/-- No key has two holders. A party that holds none has the key `none`. -/
def Exclusive (f : ρ → Option κ) (xs : List ρ) : Prop :=
  ∀ (i j : Nat) (x y : ρ) (k : κ), xs[i]? = some x → xs[j]? = some y →
    f x = some k → f y = some k → i = j

/-- Nobody shares a key with nobody. -/
theorem exclusive_nil : Exclusive f [] := by
  intro i j x y k hx
  cases hx

/-- A party alone shares no key. -/
theorem exclusive_singleton (z : ρ) : Exclusive f [z] := by
  intro i j x y k hx hy _ _
  have hi := (List.getElem?_eq_some_iff.mp hx).1
  have hj := (List.getElem?_eq_some_iff.mp hy).1
  rw [List.length_singleton] at hi hj
  omega

/-- Who joins without a key shares none. -/
theorem Exclusive.append (h : Exclusive f xs) {z : ρ} (hz : f z = none) :
    Exclusive f (xs ++ [z]) := by
  have hold : ∀ (i : Nat) (x : ρ) (k : κ), (xs ++ [z])[i]? = some x → f x = some k →
      xs[i]? = some x := by
    intro i x k hx hk
    rcases Nat.lt_or_ge i xs.length with hi | hi
    · rwa [List.getElem?_append_left hi] at hx
    · rw [List.getElem?_append_right hi] at hx
      obtain rfl := List.mem_singleton.mp (List.mem_of_getElem? hx)
      rw [hz] at hk
      cases hk
  intro i j x y k hx hy hxk hyk
  exact h i j x y k (hold i x k hx hxk) (hold j y k hy hyk) hxk hyk

/-- Parties may join that share no key, neither with each other nor with those there. -/
theorem Exclusive.append_list (h : Exclusive f xs) {ys : List ρ} (hys : Exclusive f ys)
    (hfree : ∀ y ∈ ys, ∀ k, f y = some k → ∀ x ∈ xs, f x ≠ some k) : Exclusive f (xs ++ ys) := by
  intro i j x y k hx hy hxk hyk
  rcases Nat.lt_or_ge i xs.length with hi | hi
  · rw [List.getElem?_append_left hi] at hx
    rcases Nat.lt_or_ge j xs.length with hj | hj
    · rw [List.getElem?_append_left hj] at hy
      exact h i j x y k hx hy hxk hyk
    · rw [List.getElem?_append_right hj] at hy
      exact absurd hxk (hfree y (List.mem_of_getElem? hy) k hyk x (List.mem_of_getElem? hx))
  · rw [List.getElem?_append_right hi] at hx
    rcases Nat.lt_or_ge j xs.length with hj | hj
    · rw [List.getElem?_append_left hj] at hy
      exact absurd hyk (hfree x (List.mem_of_getElem? hx) k hxk y (List.mem_of_getElem? hy))
    · rw [List.getElem?_append_right hj] at hy
      have hij := hys _ _ x y k hx hy hxk hyk
      omega

/-- Parties with distinct keys. -/
theorem exclusive_map {τ : Type} {ys : List τ} {g : τ → ρ} {key : τ → κ}
    (hkey : ∀ y, f (g y) = some (key y)) (h : (ys.map key).Nodup) : Exclusive f (ys.map g) := by
  have hplace : ∀ (i : Nat) (x : ρ) (k : κ), (ys.map g)[i]? = some x → f x = some k →
      (ys.map key)[i]? = some k := by
    intro i x k hx hxk
    rw [List.getElem?_map] at hx
    obtain ⟨y, hy, rfl⟩ := Option.map_eq_some_iff.mp hx
    rw [List.getElem?_map, hy, Option.map_some, ← hkey, hxk]
  intro i j x y k hx hy hxk hyk
  have hi := hplace i x k hx hxk
  exact (List.getElem?_inj (List.getElem?_eq_some_iff.mp hi).1 h).mp
    (hi.trans (hplace j y k hy hyk).symm)

/-- **A changed party** may keep its key, drop it, or take one that nobody holds. -/
theorem Exclusive.set (h : Exclusive f xs) {old new : ρ} (hold : xs[n]? = some old)
    (hnew : ∀ k, f new = some k → f old = some k ∨ ∀ x ∈ xs, f x ≠ some k) :
    Exclusive f (xs.set n new) := by
  have hother : ∀ i x, i ≠ n → (xs.set n new)[i]? = some x → xs[i]? = some x := by
    intro i x hi hx
    rwa [List.getElem?_set_ne (Ne.symm hi)] at hx
  have hself : ∀ x, (xs.set n new)[n]? = some x → x = new := by
    intro x hx
    rw [List.getElem?_set_self (List.getElem?_eq_some_iff.mp hold).1, Option.some.injEq] at hx
    exact hx.symm
  -- the changed party and another one do not share a key
  have hcross : ∀ j y k, j ≠ n → f new = some k → (xs.set n new)[j]? = some y →
      f y ≠ some k := by
    intro j y k hj hk hy hyk
    have hy := hother j y hj hy
    rcases hnew k hk with hk | hfree
    · exact hj (h j n y old k hy hold hyk hk)
    · exact hfree y (List.mem_of_getElem? hy) hyk
  intro i j x y k hx hy hxk hyk
  by_cases hi : i = n <;> by_cases hj : j = n
  · rw [hi, hj]
  · subst hi
    rw [hself x hx] at hxk
    exact absurd hyk (hcross j y k hj hxk hy)
  · subst hj
    rw [hself y hy] at hyk
    exact absurd hxk (hcross i x k hi hyk hx)
  · exact h i j x y k (hother i x hi hx) (hother j y hj hy) hxk hyk

end QuizBackend.Lib
