import Mathlib.Data.List.Sort

/-!
# Working off a query page by page

A job that works off what a query finds may ask for it in pages: it visits the rows of page `k`,
asks for page `k + 1`, and stops at the first page that is not full. `Sweep` is that loop, over any
state, query (`due`) and visit.

Pages are counted in rows of the *present* result. If a visit takes its row out of the result
(`TakesOut`), the rows behind it move up, and a later page starts behind rows that have not been
visited. `Sweep.drained_iff` says what that comes to: the loop leaves nothing due exactly when
everything that was due fits one page.
-/

namespace QuizBackend.Lib

variable {σ α : Type}

/-- What is due in a state, and a visit to one item. -/
structure Worklist (σ α : Type) where
  due : σ → List α
  visit : σ → α → σ

namespace Worklist

/-- Page `k` of the query, `n` rows to the page; pages are counted from 1. -/
def page (w : Worklist σ α) (n k : Nat) (s : σ) : List α := ((w.due s).drop ((k - 1) * n)).take n

def visitAll (w : Worklist σ α) (s : σ) (rows : List α) : σ := rows.foldl w.visit s

inductive Sweep (w : Worklist σ α) (n : Nat) : Nat → σ → σ → Prop
  | last {k : Nat} {s : σ} (h : (w.page n k s).length < n) :
      Sweep w n k s (w.visitAll s (w.page n k s))
  | more {k : Nat} {s t : σ} (h : ¬ (w.page n k s).length < n)
      (rest : Sweep w n (k + 1) (w.visitAll s (w.page n k s)) t) : Sweep w n k s t

variable {w : Worklist σ α} {n k : Nat} {s t : σ}

theorem page_sublist : (w.page n k s).Sublist (w.due s) :=
  (List.take_sublist _ _).trans (List.drop_sublist _ _)

theorem le_length_of_full (hn : 0 < n) (h : ¬ (w.page n k s).length < n) :
    (k - 1) * n + n ≤ (w.due s).length := by
  rw [page, List.length_take, List.length_drop] at h
  omega

/-- **The loop ends**, unless the visits find it more to do. -/
theorem exists_sweep (hn : 0 < n)
    (hless : ∀ s k, (w.due (w.visitAll s (w.page n k s))).length ≤ (w.due s).length)
    (k : Nat) (hk : 0 < k) (s : σ) : ∃ t, Sweep w n k s t := by
  -- with each full page the offset gets closer to the end
  generalize hm : (w.due s).length - (k - 1) * n = m
  induction m using Nat.strongRecOn generalizing k s with
  | ind m ih =>
    by_cases hlast : (w.page n k s).length < n
    · exact ⟨_, .last hlast⟩
    · have hfull := le_length_of_full hn hlast
      have hnext := hless s k
      have hoffset : (k + 1 - 1) * n = (k - 1) * n + n := by
        rw [← Nat.succ_mul, Nat.add_sub_cancel, Nat.succ_eq_add_one, Nat.sub_add_cancel hk]
      obtain ⟨t, ht⟩ := ih _ (by omega) (k + 1) (Nat.succ_pos k)
        (w.visitAll s (w.page n k s)) rfl
      exact ⟨t, .more hlast ht⟩

theorem visitAll_of_idle (h : ∀ s a, w.visit s a = s) (s : σ) (rows : List α) :
    w.visitAll s rows = s := by
  induction rows with
  | nil => rfl
  | cons a rows ih =>
    rw [visitAll, List.foldl_cons, h]
    exact ih

theorem Sweep.eq_of_idle (h : Sweep w n k s t) (hidle : ∀ s a, w.visit s a = s) : t = s := by
  induction h with
  | last => exact visitAll_of_idle hidle _ _
  | more _ _ ih => rw [ih, visitAll_of_idle hidle]

/-! ## Visits that take their row out of the result -/

variable [DecidableEq α]

/-- A visit takes its own item out and leaves the others due. -/
structure TakesOut (w : Worklist σ α) : Prop where
  nodup : ∀ s, (w.due s).Nodup
  due_visit : ∀ s, ∀ a ∈ w.due s, w.due (w.visit s a) = (w.due s).filter (· ≠ a)

namespace TakesOut

variable (hw : w.TakesOut)

include hw

theorem due_visitAll {rows : List α} (hsub : ∀ a ∈ rows, a ∈ w.due s) (hnodup : rows.Nodup) :
    w.due (w.visitAll s rows) = (w.due s).filter (· ∉ rows) := by
  induction rows generalizing s with
  | nil => simp [visitAll]
  | cons a rows ih =>
    obtain ⟨ha, hrest⟩ := List.nodup_cons.mp hnodup
    have hdue := hw.due_visit s a (hsub a List.mem_cons_self)
    have hsub' : ∀ b ∈ rows, b ∈ w.due (w.visit s a) := by
      intro b hb
      rw [hdue]
      refine List.mem_filter.mpr ⟨hsub b (List.mem_cons_of_mem a hb), decide_eq_true ?_⟩
      rintro rfl
      exact ha hb
    rw [visitAll, List.foldl_cons]
    refine (ih hsub' hrest).trans ?_
    rw [hdue, List.filter_filter]
    refine List.filter_congr ?_
    intro b _
    simp only [List.mem_cons, not_or, Bool.decide_and, Bool.and_comm]

theorem due_visitAll_page : w.due (w.visitAll s (w.page n k s)) =
    (w.due s).filter (· ∉ w.page n k s) :=
  hw.due_visitAll (fun _ ha => page_sublist.mem ha) ((hw.nodup s).sublist page_sublist)

theorem exists_sweep (hn : 0 < n) (s : σ) : ∃ t, Sweep w n 1 s t := by
  refine Worklist.exists_sweep hn ?_ 1 Nat.one_pos s
  intro s k
  rw [hw.due_visitAll_page]
  exact List.length_filter_le _ _

theorem head?_of_sweep (hn : 0 < n) (h : Sweep w n k s t) (hk : 2 ≤ k) {a : α}
    (ha : (w.due s).head? = some a) : (w.due t).head? = some a := by
  have hstays : ∀ k s, 2 ≤ k → (w.due s).head? = some a →
      (w.due (w.visitAll s (w.page n k s))).head? = some a := by
    intro k s hk ha
    obtain ⟨rest, hrest⟩ : ∃ rest, w.due s = a :: rest := List.head?_eq_some_iff.mp ha
    have hnodup : a ∉ rest := (List.nodup_cons.mp (hrest ▸ hw.nodup s)).1
    have hpage : a ∉ w.page n k s := by
      have hoffset : 1 ≤ (k - 1) * n := Nat.mul_pos (by omega) hn
      obtain ⟨o, ho⟩ := Nat.exists_eq_add_of_le hoffset
      intro hmem
      rw [page, hrest, ho, Nat.add_comm, List.drop_succ_cons] at hmem
      exact hnodup (List.mem_of_mem_drop (List.mem_of_mem_take hmem))
    have hdue := hw.due_visitAll_page (s := s) (n := n) (k := k)
    rw [hdue, hrest, List.filter_cons_of_pos (by simpa using hpage), List.head?_cons]
  induction h with
  | last => exact hstays _ _ hk ha
  | more _ _ ih => exact ih (Nat.le_succ_of_le hk) (hstays _ _ hk ha)

theorem due_first_eq_nil_iff : w.due (w.visitAll s (w.page n 1 s)) = [] ↔
    (w.due s).length ≤ n := by
  have hpage : w.page n 1 s = (w.due s).take n := by
    rw [page, Nat.sub_self, Nat.zero_mul, List.drop_zero]
  rw [hw.due_visitAll_page, hpage, List.filter_eq_nil_iff]
  constructor
  · intro h
    by_contra hlong
    -- the row behind the page has not been visited
    have hlt : n < (w.due s).length := Nat.lt_of_not_le hlong
    refine h _ (List.getElem_mem hlt) (decide_eq_true ?_)
    intro hmem
    obtain ⟨i, hi, heq⟩ := List.mem_take_iff_getElem.mp hmem
    have hin := (List.Nodup.getElem_inj_iff (hw.nodup s)).mp heq
    omega
  · intro h a ha hout
    rw [List.take_of_length_le h] at hout
    exact of_decide_eq_true hout ha

/-- **The loop leaves nothing due exactly when one page was due.** -/
theorem drained_iff (hn : 0 < n) (h : Sweep w n 1 s t) :
    w.due t = [] ↔ (w.due s).length ≤ n := by
  rw [← hw.due_first_eq_nil_iff (s := s) (n := n)]
  cases h with
  | last => exact Iff.rfl
  | more _ rest =>
    constructor
    · intro hnil
      cases hhead : (w.due (w.visitAll s (w.page n 1 s))).head? with
      | none => exact List.head?_eq_none_iff.mp hhead
      | some a =>
        have hstays := hw.head?_of_sweep hn rest (Nat.le_refl 2) hhead
        rw [hnil] at hstays
        cases hstays
    · intro hnil
      -- nothing is left for the second page
      have hpage : w.page n 2 (w.visitAll s (w.page n 1 s)) = [] := by
        rw [page, hnil, List.drop_nil, List.take_nil]
      cases rest with
      | last => rw [hpage, visitAll, List.foldl_nil, hnil]
      | more hfull _ => exact absurd (by rw [hpage]; exact hn) hfull

end TakesOut

end Worklist

/-! ## Batches -/

/-- `for (let i = 0; i < xs.length; i += size) xs.slice(i, i + size)`. -/
def batches (size : Nat) (xs : List α) : List (List α) :=
  (List.range ((xs.length + size - 1) / size)).map fun i => (xs.drop (i * size)).take size

theorem flatten_batches {size : Nat} (hsize : 0 < size) (xs : List α) :
    (batches size xs).flatten = xs := by
  have hprefix : ∀ m, ((List.range m).map fun i => (xs.drop (i * size)).take size).flatten =
      xs.take (m * size) := by
    intro m
    induction m with
    | zero => rw [Nat.zero_mul]; rfl
    | succ m ih =>
      rw [List.range_succ, List.map_append, List.flatten_append, ih, List.map_singleton,
        List.flatten_singleton, Nat.succ_mul, List.take_add]
  have hdiv := Nat.div_add_mod (xs.length + size - 1) size
  have hmod := Nat.mod_lt (xs.length + size - 1) hsize
  rw [batches, hprefix, List.take_of_length_le]
  rw [Nat.mul_comm]
  omega

/-! ## Sorted results -/

theorem filter_insertionSort {r : α → α → Prop} [DecidableRel r] [Std.Total r] [IsTrans α r]
    (p : α → Bool) (rows : List α) :
    (rows.insertionSort r).filter p = (rows.filter p).insertionSort r := by
  have hinsert : ∀ (a : α) (l : List α), l.Pairwise r →
      (l.orderedInsert r a).filter p =
        if p a then (l.filter p).orderedInsert r a else l.filter p := by
    intro a l hl
    induction l with
    | nil => cases hp : p a <;> simp [hp]
    | cons b l ih =>
      obtain ⟨hb, hl⟩ := List.pairwise_cons.mp hl
      by_cases hab : r a b
      · -- `a` goes in front of `b` and of what is left of the list without it
        rw [List.orderedInsert_cons_of_le _ _ hab]
        cases hp : p a with
        | false => rw [List.filter_cons_of_neg (by simp [hp]), if_neg (by simp)]
        | true =>
          rw [List.filter_cons_of_pos hp, if_pos rfl]
          have hall : ∀ c ∈ (b :: l).filter p, r a c := by
            intro c hc
            rcases List.mem_cons.mp (List.mem_of_mem_filter hc) with rfl | hc
            · exact hab
            · exact IsTrans.trans a b c hab (hb c hc)
          cases hrest : (b :: l).filter p with
          | nil => rw [List.orderedInsert_nil]
          | cons c rest =>
            rw [List.orderedInsert_cons_of_le _ _ (hall c (hrest ▸ List.mem_cons_self))]
      · rw [List.orderedInsert_of_not_le _ _ hab]
        cases hpb : p b with
        | false => 
          rw [List.filter_cons_of_neg (by simp [hpb]), List.filter_cons_of_neg (by simp [hpb])]
          exact ih hl
        | true =>
          rw [List.filter_cons_of_pos hpb, List.filter_cons_of_pos hpb, ih hl]
          split
          · rw [List.orderedInsert_of_not_le _ _ hab]
          · rfl
  induction rows with
  | nil => rfl
  | cons a rows ih =>
    rw [List.insertionSort_cons, hinsert a _ (List.pairwise_insertionSort r rows), ih]
    cases hp : p a with
    | false => rw [List.filter_cons_of_neg (by simp [hp]), if_neg (by simp)]
    | true => rw [List.filter_cons_of_pos hp, if_pos rfl, List.insertionSort_cons]

end QuizBackend.Lib
