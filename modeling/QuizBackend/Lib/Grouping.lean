import Mathlib.Data.List.Basic
import Mathlib.Data.List.Induction
import Mathlib.Data.List.Perm.Basic
import Mathlib.Data.List.Nodup

/-!
# Grouping the rows of a left join

A `LEFT JOIN` returns a row for each match of a left row, and one without a match for a left row that
has none. Programs put such rows back together with an ordered map: a group for each key, in the order
in which the keys are first seen, to which the matches are pushed as they come. If no two left rows
have one key, the groups are the left rows with their matches, whatever the order of the rows
(`group_perm`), and they stand in that order (`group_sublist`).
-/

namespace QuizBackend.Lib

open List (append_nil filterMap_nil map_append map_singleton mem_map mem_map_of_mem nil_append
  reverseRecOn)

variable {α β κ : Type} [DecidableEq κ]

/-- `l LEFT JOIN …`, where `matching a` are the right rows for `a`. -/
def leftJoin (matching : α → List β) (l : List α) : List (α × Option β) :=
  l.flatMap fun a => if (matching a).isEmpty then [(a, none)] else (matching a).map fun b => (a, some b)

/-- One round of the loop: a new group if there is none with the key, and a push. -/
def addRow (key : α → κ) (groups : List (α × List β)) (row : α × Option β) : List (α × List β) :=
  (if groups.any (fun g => key g.1 = key row.1) then groups else groups ++ [(row.1, [])]).map fun g =>
    if key g.1 = key row.1 then (g.1, g.2 ++ row.2.toList) else g

/-- The right sides collected under each left key, in order of appearance. -/
def group (key : α → κ) (rows : List (α × Option β)) : List (α × List β) :=
  rows.foldl (addRow key) []

def seenWith (key : α → κ) (k : κ) (rows : List (α × Option β)) : List β :=
  rows.filterMap fun row => if key row.1 = k then row.2 else none

variable {key : α → κ} {rows : List (α × Option β)}

theorem group_snoc (row : α × Option β) :
    group key (rows ++ [row]) = addRow key (group key rows) row := by
  rw [group, List.foldl_append]
  rfl

theorem map_fst_addRow (groups : List (α × List β)) (row : α × Option β) :
    (addRow key groups row).map Prod.fst
      = groups.map Prod.fst ++ if groups.any (fun g => key g.1 = key row.1) then [] else [row.1] := by
  have hpush : ∀ gs : List (α × List β), (gs.map fun g =>
      if key g.1 = key row.1 then (g.1, g.2 ++ row.2.toList) else g).map Prod.fst
        = gs.map Prod.fst := by
    intro gs
    rw [List.map_map]
    refine List.map_congr_left fun g _ => ?_
    rw [Function.comp_apply]
    split <;> rfl
  rw [addRow, hpush]
  split
  · rw [append_nil]
  · rw [map_append, map_singleton]

theorem group_sublist : ((group key rows).map Prod.fst).Sublist (rows.map Prod.fst) := by
  induction rows using reverseRecOn with
  | nil => exact List.Sublist.slnil
  | append_singleton rows row ih =>
    rw [group_snoc, map_fst_addRow, map_append]
    refine ih.append ?_
    split
    · exact List.nil_sublist _
    · exact List.Sublist.refl _

theorem exists_group {row : α × Option β} (h : row ∈ rows) :
    ∃ g ∈ group key rows, key g.1 = key row.1 := by
  suffices hfst : ∃ a ∈ (group key rows).map Prod.fst, key a = key row.1 by
    obtain ⟨a, ha, hk⟩ := hfst
    obtain ⟨g, hg, rfl⟩ := mem_map.mp ha
    exact ⟨g, hg, hk⟩
  induction rows using reverseRecOn with
  | nil => cases h
  | append_singleton rows last ih =>
    rw [group_snoc, map_fst_addRow]
    rcases List.mem_append.mp h with hold | hnew
    · obtain ⟨a, ha, hk⟩ := ih hold
      exact ⟨a, List.mem_append_left _ ha, hk⟩
    · cases List.mem_singleton.mp hnew
      split
      · rename_i hany
        obtain ⟨g, hg, hk⟩ := List.any_eq_true.mp hany
        exact ⟨g.1, List.mem_append_left _ (mem_map_of_mem hg), of_decide_eq_true hk⟩
      · exact ⟨row.1, List.mem_append_right _ (List.mem_singleton_self _), rfl⟩

theorem group_nodup : (((group key rows).map Prod.fst).map key).Nodup := by
  induction rows using reverseRecOn with
  | nil => exact List.nodup_nil
  | append_singleton rows row ih =>
    rw [group_snoc, map_fst_addRow, map_append]
    split
    · rw [List.map_nil, append_nil]
      exact ih
    · rename_i hany
      refine List.nodup_append'.mpr ⟨ih, List.nodup_singleton _, ?_⟩
      rw [map_singleton, List.disjoint_singleton]
      intro hmem
      obtain ⟨a, ha, hk⟩ := mem_map.mp hmem
      obtain ⟨g, hg, rfl⟩ := mem_map.mp ha
      exact hany (List.any_eq_true.mpr ⟨g, hg, decide_eq_true hk⟩)

theorem seenWith_snoc (k : κ) (row : α × Option β) :
    seenWith key k (rows ++ [row])
      = seenWith key k rows ++ if key row.1 = k then row.2.toList else [] := by
  rw [seenWith, List.filterMap_append]
  congr 1
  rw [List.filterMap_cons, filterMap_nil]
  split
  · rename_i hnone
    split at hnone
    · rw [if_pos ‹_›, hnone]
      rfl
    · rw [if_neg ‹_›]
  · rename_i b hsome
    split at hsome
    · rw [if_pos ‹_›, hsome]
      rfl
    · cases hsome

theorem snd_of_mem_group {g : α × List β} (h : g ∈ group key rows) :
    g.2 = seenWith key (key g.1) rows := by
  induction rows using reverseRecOn generalizing g with
  | nil => cases h
  | append_singleton rows row ih =>
    rw [group_snoc, addRow] at h
    obtain ⟨g', hg', rfl⟩ := mem_map.mp h
    -- the group before the push: an old one, or the new one, with a key not seen before
    have hbefore : g'.2 = seenWith key (key g'.1) rows := by
      split at hg'
      · exact ih hg'
      · rename_i hany
        rcases List.mem_append.mp hg' with hg' | hg'
        · exact ih hg'
        · cases List.mem_singleton.mp hg'
          refine (List.filterMap_eq_nil_iff.mpr fun r hr => if_neg fun hk => ?_).symm
          obtain ⟨g, hg, hgk⟩ : ∃ g ∈ group key rows, key g.1 = key r.1 := exists_group hr
          exact hany (List.any_eq_true.mpr ⟨g, hg, decide_eq_true (hgk.trans hk)⟩)
    rw [seenWith_snoc]
    split
    · rename_i hk
      rw [if_pos hk.symm, hbefore]
    · rename_i hk
      rw [if_neg (Ne.symm hk), append_nil]
      exact hbefore

theorem group_of_nodup (h : (rows.map fun row => key row.1).Nodup) :
    group key rows = rows.map fun row => (row.1, row.2.toList) := by
  induction rows using reverseRecOn with
  | nil => rfl
  | append_singleton rows row ih =>
    rw [map_append, map_singleton, List.nodup_append'] at h
    obtain ⟨hrows, -, hnew⟩ := h
    rw [List.disjoint_singleton] at hnew
    have hother : ∀ g ∈ group key rows, key g.1 ≠ key row.1 := by
      intro g hg hk
      rw [ih hrows] at hg
      obtain ⟨r, hr, rfl⟩ := mem_map.mp hg
      exact hnew (mem_map.mpr ⟨r, hr, hk⟩)
    have hany : (group key rows).any (fun g => key g.1 = key row.1) = false :=
      List.any_eq_false.mpr fun g hg hk => hother g hg (of_decide_eq_true hk)
    have hstay : (group key rows).map (fun g => if key g.1 = key row.1 then (g.1, g.2 ++ row.2.toList) else g)
        = group key rows := by
      refine (List.map_congr_left fun g hg => ?_).trans (List.map_id _)
      exact if_neg (hother g hg)
    rw [group_snoc, addRow, hany, if_neg Bool.false_ne_true, map_append, hstay, ih hrows,
      map_singleton, if_pos rfl, nil_append, map_append, map_singleton]

theorem group_of_forall_eq {a : α} (hne : rows ≠ []) (h : ∀ row ∈ rows, row.1 = a) :
    group key rows = [(a, rows.filterMap Prod.snd)] := by
  induction rows using reverseRecOn with
  | nil => exact absurd rfl hne
  | append_singleton rows row ih =>
    have hrow : row.1 = a := h row (List.mem_append_right _ (List.mem_singleton_self row))
    have hlast : [row].filterMap Prod.snd = row.2.toList := by
      cases hsnd : row.2 with
      | none => rw [List.filterMap_cons_none hsnd, filterMap_nil, Option.toList_none]
      | some b => rw [List.filterMap_cons_some hsnd, filterMap_nil, Option.toList_some]
    rw [group_snoc, List.filterMap_append, hlast]
    by_cases hrows : rows = []
    · subst hrows
      rw [group, List.foldl_nil, addRow, List.any_nil, if_neg Bool.false_ne_true, nil_append,
        map_singleton, if_pos rfl, hrow, filterMap_nil]
    · rw [ih hrows fun r hr => h r (List.mem_append_left _ hr), addRow, hrow, List.any_cons,
        decide_eq_true rfl, Bool.true_or, if_pos rfl, map_singleton, if_pos rfl]

/-! ## Left joins -/

section Join

variable {matching : α → List β} {l : List α}

theorem mem_leftJoin_fst {a : α} : (∃ b, (a, b) ∈ leftJoin matching l) ↔ a ∈ l := by
  constructor
  · rintro ⟨b, hb⟩
    obtain ⟨a', ha', hb⟩ := List.mem_flatMap.mp hb
    split at hb
    · cases List.mem_singleton.mp hb
      exact ha'
    · obtain ⟨b', -, he⟩ := mem_map.mp hb
      cases he
      exact ha'
  · intro ha
    cases hm : matching a with
    | nil => exact ⟨none, List.mem_flatMap.mpr ⟨a, ha, by simp [hm]⟩⟩
    | cons b bs => exact ⟨some b, List.mem_flatMap.mpr ⟨a, ha, by simp [hm]⟩⟩

theorem seenWith_joined (a : α) (k : κ) :
    seenWith key k
        (if (matching a).isEmpty then [(a, none)] else (matching a).map fun b => (a, some b))
      = if key a = k then matching a else [] := by
  unfold seenWith
  by_cases hk : key a = k
  · cases hm : matching a with
    | nil => simp [hk]
    | cons b bs => simp [hk, List.filterMap_map]
  · cases hm : matching a with
    | nil => simp [hk]
    | cons b bs => simp [hk, List.filterMap_map]

theorem seenWith_leftJoin_of_not_mem {k : κ} (h : k ∉ l.map key) :
    seenWith key k (leftJoin matching l) = [] := by
  refine List.filterMap_eq_nil_iff.mpr fun row hrow => if_neg fun hk => h ?_
  exact mem_map.mpr ⟨row.1, mem_leftJoin_fst.mp ⟨row.2, hrow⟩, hk⟩

theorem seenWith_leftJoin {a : α} (h : (l.map key).Nodup) (ha : a ∈ l) :
    seenWith key (key a) (leftJoin matching l) = matching a := by
  induction l with
  | nil => cases ha
  | cons x l ih =>
    rw [List.map_cons, List.nodup_cons] at h
    have hcons : seenWith key (key a) (leftJoin matching (x :: l))
        = (if key x = key a then matching x else []) ++ seenWith key (key a) (leftJoin matching l) := by
      rw [leftJoin, List.flatMap_cons, seenWith, List.filterMap_append]
      exact congrArg (· ++ _) (seenWith_joined x (key a))
    rw [hcons]
    rcases List.mem_cons.mp ha with rfl | ha
    · rw [if_pos rfl, seenWith_leftJoin_of_not_mem h.1, append_nil]
    · have hne : key x ≠ key a := fun he => h.1 (he ▸ mem_map_of_mem ha)
      rw [if_neg hne, nil_append]
      exact ih h.2 ha

/-- **The groups are the left rows**, each with its matches. -/
theorem group_perm (hrows : rows.Perm (leftJoin matching l)) (hl : (l.map key).Nodup) :
    ((group key rows).map Prod.fst).Perm l ∧
      ∀ g ∈ group key rows, g.2.Perm (matching g.1) := by
  have hleft : ∀ a ∈ (group key rows).map Prod.fst, a ∈ l := by
    intro a ha
    obtain ⟨row, hrow, rfl⟩ := mem_map.mp (group_sublist.subset ha)
    exact mem_leftJoin_fst.mp ⟨row.2, hrows.subset hrow⟩
  have hmem : ∀ a, a ∈ (group key rows).map Prod.fst ↔ a ∈ l := by
    intro a
    constructor
    · exact hleft a
    · intro ha
      obtain ⟨b, hb⟩ : ∃ b, (a, b) ∈ leftJoin matching l := mem_leftJoin_fst.mpr ha
      obtain ⟨g, hg, hk⟩ : ∃ g ∈ group key rows, key g.1 = key a :=
        exists_group (hrows.symm.subset hb)
      -- a left row with the key of `a` is `a`
      have hsame : g.1 = a :=
        List.inj_on_of_nodup_map hl (hleft g.1 (mem_map_of_mem hg)) ha hk
      exact hsame ▸ mem_map_of_mem hg
  refine ⟨(List.perm_ext_iff_of_nodup group_nodup.of_map hl.of_map).mpr hmem, ?_⟩
  intro g hg
  have hgl := hleft g.1 (mem_map_of_mem hg)
  have hmatching : seenWith key (key g.1) (leftJoin matching l) = matching g.1 :=
    seenWith_leftJoin hl hgl
  rw [snd_of_mem_group hg, ← hmatching]
  exact hrows.filterMap _

end Join

end QuizBackend.Lib
