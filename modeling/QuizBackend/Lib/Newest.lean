import Mathlib.Data.List.Pairwise
import Mathlib.Data.List.Sort

/-!
# Newest first

A list in the order of its time stamps, the newest first, as `ORDER BY … DESC` gives it. Rows with
equal stamps may come in any order in a database; here they come in the order of the list.

Where no two stamps are equal there is one order only (`newestFirst_eq`), and the two things that a
window over the newest rows does to it are simple: a row that is newer than all comes first
(`newestFirst_append`), and deleting what is behind the first `n` leaves these
(`newestFirst_filter_notMem_drop`).
-/

namespace QuizBackend.Lib

variable {ρ κ : Type*}

/-- `ORDER BY stamp DESC`, stable. -/
def newestFirst (stamp : ρ → Int) (rows : List ρ) : List ρ :=
  rows.insertionSort fun r other => stamp other ≤ stamp r

variable {stamp : ρ → Int} {rows : List ρ}

/-- Sorting loses no row and repeats none. -/
theorem newestFirst_perm (stamp : ρ → Int) (rows : List ρ) : (newestFirst stamp rows).Perm rows :=
  List.perm_insertionSort _ rows

/-- The rows are those of the list. -/
theorem mem_newestFirst {r : ρ} : r ∈ newestFirst stamp rows ↔ r ∈ rows :=
  List.mem_insertionSort _

/-- No row comes before a newer one. -/
theorem pairwise_newestFirst (stamp : ρ → Int) (rows : List ρ) :
    (newestFirst stamp rows).Pairwise fun r other => stamp other ≤ stamp r := by
  have : Std.Total fun r other : ρ => stamp other ≤ stamp r :=
    ⟨fun r other => Int.le_total (stamp other) (stamp r)⟩
  have : IsTrans ρ fun r other => stamp other ≤ stamp r := ⟨fun _ _ _ h h' => Int.le_trans h' h⟩
  exact List.pairwise_insertionSort _ rows

/-- Where no two stamps are equal, each row is newer than those after it. -/
theorem newestFirst_strict (hnodup : rows.Nodup)
    (hstamps : ∀ r ∈ rows, ∀ other ∈ rows, stamp r = stamp other → r = other) :
    (newestFirst stamp rows).Pairwise fun r other => stamp other < stamp r := by
  have hne : (newestFirst stamp rows).Nodup := (newestFirst_perm stamp rows).nodup_iff.mpr hnodup
  have hboth := (pairwise_newestFirst stamp rows).and hne
  refine hboth.imp_of_mem ?_
  intro r other hr hother h
  refine Int.lt_iff_le_and_ne.mpr ⟨h.1, fun hsame => h.2 ?_⟩
  exact hstamps r (mem_newestFirst.mp hr) other (mem_newestFirst.mp hother) hsame.symm

/-- **The order is the only one** there is, where no two stamps are equal. -/
theorem newestFirst_eq {sorted : List ρ} (hperm : sorted.Perm rows)
    (hsorted : sorted.Pairwise fun r other => stamp other < stamp r) :
    newestFirst stamp rows = sorted := by
  have hdistinct : ∀ r ∈ sorted, ∀ other ∈ sorted, stamp r = stamp other → r = other := by
    have : Std.Symm fun r other : ρ => stamp r = stamp other → r = other :=
      ⟨fun _ _ h hsame => (h hsame.symm).symm⟩
    have hpair : sorted.Pairwise fun r other => stamp r = stamp other → r = other :=
      hsorted.imp fun hlt hsame => absurd hsame.symm (Int.ne_of_lt hlt)
    exact fun r hr other hother => hpair.forall_of_forall (fun _ _ _ => rfl) hr hother
  refine List.Perm.eq_of_pairwise ?_ (pairwise_newestFirst stamp rows)
    (hsorted.imp Int.le_of_lt) ((newestFirst_perm stamp rows).trans hperm.symm)
  intro r other hr hother hle hle'
  exact hdistinct r (hperm.mem_iff.mpr (mem_newestFirst.mp hr)) other hother
    (Int.le_antisymm hle' hle)

/-- A row that is newer than all comes first. -/
theorem newestFirst_append {r : ρ}
    (hrows : (newestFirst stamp rows).Pairwise fun r other => stamp other < stamp r)
    (hnewer : ∀ other ∈ rows, stamp other < stamp r) :
    newestFirst stamp (rows ++ [r]) = r :: newestFirst stamp rows := by
  refine newestFirst_eq ?_ (List.pairwise_cons.mpr ⟨?_, hrows⟩)
  · exact ((newestFirst_perm stamp rows).cons r).trans (List.perm_append_singleton r rows).symm
  · intro other hother
    exact hnewer other (mem_newestFirst.mp hother)

/-- A window over a new first row and a window. -/
theorem take_cons_take (r : ρ) (l : List ρ) (n : Nat) :
    (r :: l.take n).take n = (r :: l).take n := by
  cases n with
  | zero => rfl
  | succ n => rw [List.take_succ_cons, List.take_succ_cons, List.take_take,
      Nat.min_eq_left (Nat.le_succ n)]

/-- Deleting what is behind the first `n` leaves these. -/
theorem filter_notMem_drop [DecidableEq κ] {key : ρ → κ} {l : List ρ} (hkeys : (l.map key).Nodup)
    (n : Nat) : (l.filter fun r => decide (key r ∉ (l.drop n).map key)) = l.take n := by
  have hsplit : (l.take n).map key ++ (l.drop n).map key = l.map key := by
    rw [← List.map_append, List.take_append_drop]
  have happart := (List.nodup_append'.mp (hsplit ▸ hkeys)).2.2
  have hfirst : ((l.take n).filter fun r => decide (key r ∉ (l.drop n).map key)) = l.take n := by
    refine List.filter_eq_self.mpr fun r hr => decide_eq_true ?_
    exact happart (List.mem_map_of_mem hr)
  have hrest : ((l.drop n).filter fun r => decide (key r ∉ (l.drop n).map key)) = [] := by
    refine List.filter_eq_nil_iff.mpr fun r hr => ?_
    simpa only [decide_eq_true_eq, not_not] using List.mem_map_of_mem hr
  calc (l.filter fun r => decide (key r ∉ (l.drop n).map key))
      = ((l.take n ++ l.drop n).filter fun r => decide (key r ∉ (l.drop n).map key)) := by
        rw [List.take_append_drop]
    _ = l.take n := by rw [List.filter_append, hfirst, hrest, List.append_nil]

/-- **A window over the newest rows** is what a deletion of all others leaves. -/
theorem newestFirst_filter_notMem_drop [DecidableEq κ] {key : ρ → κ}
    (hkeys : (rows.map key).Nodup)
    (hrows : (newestFirst stamp rows).Pairwise fun r other => stamp other < stamp r) (n : Nat) :
    newestFirst stamp
        (rows.filter fun r => decide (key r ∉ ((newestFirst stamp rows).drop n).map key)) =
      (newestFirst stamp rows).take n := by
  have hsorted := newestFirst_perm stamp rows
  have hkeys' : ((newestFirst stamp rows).map key).Nodup :=
    (hsorted.map key).nodup_iff.mpr hkeys
  refine newestFirst_eq ?_ (hrows.sublist (List.take_sublist n _))
  have hfilter := hsorted.filter fun r =>
    decide (key r ∉ ((newestFirst stamp rows).drop n).map key)
  rw [filter_notMem_drop hkeys'] at hfilter
  exact hfilter

end QuizBackend.Lib
