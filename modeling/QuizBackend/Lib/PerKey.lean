import Mathlib.Data.List.Count
import Mathlib.Logic.Function.Basic

/-!
# The first rows of every key

A list of rows with keys is gone through twice. The first time the rows of each key are counted, up to a
limit (`tally`); the second time a row is taken as long as its key has some of that number left
(`countdown`). So each key gets its first rows, as many as were counted (`filter_countdown`), however
the keys are mixed.
-/

namespace QuizBackend.Lib

open Function (update update_of_ne update_self)

variable {ρ κ : Type} [DecidableEq κ] {key : ρ → Option κ}

def tallyRow (key : ρ → Option κ) (limit : Nat) (counts : κ → Nat) (r : ρ) : κ → Nat :=
  match key r with
  | none => counts
  | some k => if limit ≤ counts k then counts else update counts k (counts k + 1)

def tally (key : ρ → Option κ) (limit : Nat) (rows : List ρ) : κ → Nat :=
  rows.foldl (tallyRow key limit) fun _ => 0

def counted (key : ρ → Option κ) (limit : Nat) : (κ → Nat) → List ρ → List ρ
  | _, [] => []
  | counts, r :: rows =>
    match key r with
    | none => counted key limit counts rows
    | some k =>
      if limit ≤ counts k then counted key limit counts rows
      else r :: counted key limit (update counts k (counts k + 1)) rows

def countdown (key : ρ → Option κ) : (κ → Nat) → List ρ → List ρ
  | _, [] => []
  | counts, r :: rows =>
    match key r with
    | none => countdown key counts rows
    | some k =>
      if counts k = 0 then countdown key counts rows
      else r :: countdown key (update counts k (counts k - 1)) rows

section Tally

variable {limit : Nat} {counts : κ → Nat} {r : ρ} {k : κ}

theorem tallyRow_of_none (h : key r = none) : tallyRow key limit counts r = counts := by
  rw [tallyRow, h]

theorem tallyRow_of_some (h : key r = some k) : tallyRow key limit counts r =
    if limit ≤ counts k then counts else update counts k (counts k + 1) := by
  rw [tallyRow, h]

theorem tallyRow_of_ne (h : key r ≠ some k) : tallyRow key limit counts r k = counts k := by
  cases hkey : key r with
  | none => rw [tallyRow_of_none hkey]
  | some k' =>
    have hne : k ≠ k' := fun heq => h (heq ▸ hkey)
    rw [tallyRow_of_some hkey]
    split
    · rfl
    · exact update_of_ne hne _ _

theorem tallyRow_self (h : key r = some k) (hk : counts k ≤ limit) :
    tallyRow key limit counts r k = min limit (counts k + 1) := by
  rw [tallyRow_of_some h]
  split
  · omega
  · rw [update_self]
    omega

theorem foldl_tallyRow (rows : List ρ) (hk : counts k ≤ limit) :
    rows.foldl (tallyRow key limit) counts k =
      min limit (counts k + rows.countP fun r => key r = some k) := by
  induction rows generalizing counts with
  | nil =>
    rw [List.foldl_nil, List.countP_nil]
    omega
  | cons r rows ih =>
    rw [List.foldl_cons, List.countP_cons]
    by_cases hkey : key r = some k
    · have hstep := tallyRow_self hkey hk
      rw [ih (by omega), hstep, decide_eq_true hkey, if_pos rfl]
      omega
    · have hstep : tallyRow key limit counts r k = counts k := tallyRow_of_ne hkey
      rw [ih (by omega), hstep, decide_eq_false hkey, if_neg Bool.false_ne_true, Nat.add_zero]

theorem tally_eq (limit : Nat) (rows : List ρ) (k : κ) :
    tally key limit rows k = min limit (rows.countP fun r => key r = some k) := by
  have hcounted : rows.foldl (tallyRow key limit) (fun _ => 0) k =
      min limit (0 + rows.countP fun r => key r = some k) := foldl_tallyRow rows (Nat.zero_le limit)
  rwa [Nat.zero_add] at hcounted

end Tally

/-- **What is taken of a key are its first rows.** -/
theorem filter_countdown (counts : κ → Nat) (rows : List ρ) (k : κ) :
    (countdown key counts rows).filter (fun r => key r = some k) =
      (rows.filter fun r => key r = some k).take (counts k) := by
  induction rows generalizing counts with
  | nil => simp [countdown]
  | cons r rows ih =>
    rw [countdown]
    cases hkey : key r with
    | none => simp [hkey, ih]
    | some k' =>
      by_cases hsame : k' = k
      · subst hsame
        by_cases hleft : counts k' = 0
        · simp [hleft, ih]
        · obtain ⟨n, hn⟩ := Nat.exists_eq_succ_of_ne_zero hleft
          simp [hkey, hn, ih]
      · have hother : update counts k' (counts k' - 1) k = counts k :=
          update_of_ne (Ne.symm hsame) _ _
        by_cases hleft : counts k' = 0
        · simp [hleft, hkey, hsame, ih]
        · simp [hleft, hkey, hsame, ih, hother]

theorem countdown_eq_counted (limit : Nat) (rows : List ρ) {counts left : κ → Nat}
    (hleft : ∀ k, left k = min limit (counts k + rows.countP fun r => key r = some k) - counts k) :
    countdown key left rows = counted key limit counts rows := by
  induction rows generalizing counts left with
  | nil => rfl
  | cons r rows ih =>
    rw [countdown, counted]
    cases hkey : key r with
    | none => exact ih fun k => by rw [hleft k, List.countP_cons_of_neg (by simp [hkey])]
    | some k =>
      have hk := hleft k
      have hother : ∀ k' ≠ k, left k' =
          min limit (counts k' + rows.countP fun r => key r = some k') - counts k' := by
        intro k' hne
        rw [hleft k', List.countP_cons_of_neg (by simpa [hkey] using Ne.symm hne)]
      rw [List.countP_cons_of_pos (by simp [hkey])] at hk
      by_cases hfull : limit ≤ counts k
      · simp only [if_pos hfull, if_pos (show left k = 0 by omega)]
        refine ih fun k' => ?_
        by_cases hsame : k' = k
        · subst hsame
          omega
        · exact hother k' hsame
      · simp only [if_neg hfull, if_neg (show left k ≠ 0 by omega)]
        refine congrArg (r :: ·) (ih fun k' => ?_)
        by_cases hsame : k' = k
        · subst hsame
          rw [update_self, update_self]
          omega
        · rw [update_of_ne hsame, update_of_ne hsame]
          exact hother k' hsame

theorem countdown_tally (limit : Nat) (rows : List ρ) :
    countdown key (tally key limit rows) rows = counted key limit (fun _ => 0) rows :=
  countdown_eq_counted limit rows fun k => by rw [tally_eq, Nat.zero_add, Nat.sub_zero]

theorem filter_countdown_tally (limit : Nat) (rows : List ρ) (k : κ) :
    (countdown key (tally key limit rows) rows).filter (fun r => key r = some k) =
      (rows.filter fun r => key r = some k).take limit := by
  rw [filter_countdown, tally_eq, List.countP_eq_length_filter]
  exact List.take_eq_take_min.symm

end QuizBackend.Lib
