import Mathlib.Data.List.Nodup
import Mathlib.Data.List.Basic

/-!
# Tables with a partial unique index

A table often has, beside its primary key, a unique index over some of its rows:
`UNIQUE (a, b) WHERE p`. `index r` is the entry of a row in it, `none` for a row the index leaves
out. As with the primary key, a table that breaks the index cannot be built.

A statement writes its rows and the constraints are checked: `ofRows?` is that check, and `insert?`
and `update?` go through it. Whether they are refused can be read off the index alone
(`insert?_isSome_iff`, `update?_isSome_iff`). A `DELETE` and an `UPDATE` that only takes rows out of
the index (`update`) are never refused.
-/

namespace QuizBackend.Lib

/-- Rows with a second key, a partial unique index. -/
structure UniqueTable (κ ι ρ : Type) (key : ρ → κ) (index : ρ → Option ι) where
  rows : List ρ
  nodup : (rows.map key).Nodup
  unique : (rows.filterMap index).Nodup

namespace UniqueTable

variable {κ ι ρ : Type} {key : ρ → κ} {index : ρ → Option ι}

def empty (key : ρ → κ) (index : ρ → Option ι) : UniqueTable κ ι ρ key index :=
  ⟨[], List.nodup_nil, List.nodup_nil⟩

theorem eq_of_key_eq {t : UniqueTable κ ι ρ key index} {r r' : ρ} (hr : r ∈ t.rows)
    (hr' : r' ∈ t.rows) (h : key r = key r') : r = r' := List.inj_on_of_nodup_map t.nodup hr hr' h

theorem rows_nodup (t : UniqueTable κ ι ρ key index) : t.rows.Nodup := List.Nodup.of_map key t.nodup

theorem eq_of_mem_filterMap {l : List ρ} (h : (l.filterMap index).Nodup) {i : ι} {r r' : ρ}
    (hr : r ∈ l) (hr' : r' ∈ l) (hi : index r = some i) (hi' : index r' = some i) : r = r' := by
  induction l with
  | nil => cases hr
  | cons x xs ih =>
    rcases List.mem_cons.mp hr with rfl | hxs
    · rcases List.mem_cons.mp hr' with rfl | hxs'
      · rfl
      · rw [List.filterMap_cons_some hi, List.nodup_cons] at h
        exact absurd (List.mem_filterMap.mpr ⟨r', hxs', hi'⟩) h.1
    · rcases List.mem_cons.mp hr' with rfl | hxs'
      · rw [List.filterMap_cons_some hi', List.nodup_cons] at h
        exact absurd (List.mem_filterMap.mpr ⟨r, hxs, hi⟩) h.1
      · exact ih (h.sublist ((List.sublist_cons_self x xs).filterMap index)) hxs hxs'

/-- **The unique index**: an entry determines the row. -/
theorem eq_of_index_eq {t : UniqueTable κ ι ρ key index} {i : ι} {r r' : ρ} (hr : r ∈ t.rows)
    (hr' : r' ∈ t.rows) (hi : index r = some i) (hi' : index r' = some i) : r = r' :=
  eq_of_mem_filterMap t.unique hr hr' hi hi'

theorem nodup_map_filter {δ : Type} {t : UniqueTable κ ι ρ key index} {p : ρ → Bool} {f : ρ → δ}
    {entry : δ → ι} (h : ∀ r ∈ t.rows, p r = true → index r = some (entry (f r))) :
    ((t.rows.filter p).map f).Nodup := by
  refine List.Nodup.map_on ?_ (t.rows_nodup.filter p)
  intro r hr r' hr' heq
  obtain ⟨hmem, hp⟩ := List.mem_filter.mp hr
  obtain ⟨hmem', hp'⟩ := List.mem_filter.mp hr'
  exact eq_of_index_eq hmem hmem' (h r hmem hp) (heq ▸ h r' hmem' hp')

variable [DecidableEq κ] [DecidableEq ι]

def ofRows? (rows : List ρ) : Option (UniqueTable κ ι ρ key index) :=
  if h : (rows.map key).Nodup ∧ (rows.filterMap index).Nodup then some ⟨rows, h.1, h.2⟩ else none

theorem rows_of_ofRows? {rows : List ρ} {t : UniqueTable κ ι ρ key index}
    (h : ofRows? rows = some t) : t.rows = rows := by
  unfold ofRows? at h
  split at h
  · cases h; rfl
  · cases h

theorem ofRows?_isSome_iff {rows : List ρ} :
    (∃ t, (ofRows? rows : Option (UniqueTable κ ι ρ key index)) = some t) ↔
      (rows.map key).Nodup ∧ (rows.filterMap index).Nodup := by
  unfold ofRows?
  split
  · next h => exact iff_of_true ⟨_, rfl⟩ h
  · next h => exact iff_of_false (fun ⟨_, he⟩ => nomatch he) h

def find? (t : UniqueTable κ ι ρ key index) (k : κ) : Option ρ := t.rows.find? fun r => key r = k

omit [DecidableEq ι] in
theorem find?_eq_none_iff {t : UniqueTable κ ι ρ key index} {k : κ} :
    t.find? k = none ↔ ∀ r ∈ t.rows, key r ≠ k := by
  simp [find?]

/-! ## `INSERT` -/

/-- `INSERT`: refused when the key or the entry in the index is taken. -/
def insert? (t : UniqueTable κ ι ρ key index) (r : ρ) : Option (UniqueTable κ ι ρ key index) :=
  ofRows? (t.rows ++ [r])

theorem rows_of_insert? {t t' : UniqueTable κ ι ρ key index} {r : ρ} (h : t.insert? r = some t') :
    t'.rows = t.rows ++ [r] := rows_of_ofRows? h

theorem insert?_isSome_iff {t : UniqueTable κ ι ρ key index} {r : ρ}
    (hk : ∀ x ∈ t.rows, key x ≠ key r) :
    (∃ t', t.insert? r = some t') ↔ ∀ x ∈ t.rows, ∀ i, index r = some i → index x ≠ some i := by
  unfold insert?
  rw [ofRows?_isSome_iff, List.map_append, List.filterMap_append]
  have hkeys : (t.rows.map key ++ [r].map key).Nodup := by
    refine List.nodup_append.mpr ⟨t.nodup, by simp, ?_⟩
    intro a ha b hb
    obtain ⟨x, hx, rfl⟩ := List.mem_map.mp ha
    rw [List.map_singleton, List.mem_singleton] at hb
    exact hb ▸ hk x hx
  rw [and_iff_right hkeys]
  cases hr : index r with
  | none =>
    rw [List.filterMap_cons_none hr, List.filterMap_nil, List.append_nil]
    refine iff_of_true t.unique ?_
    intro _ _ _ h
    cases h
  | some i =>
    rw [List.filterMap_cons_some hr, List.filterMap_nil]
    constructor
    · intro h x hx j hj hi
      cases hj
      exact (List.nodup_append.mp h).2.2 i (List.mem_filterMap.mpr ⟨x, hx, hi⟩) i
        (List.mem_singleton_self i) rfl
    · intro h
      refine List.nodup_append.mpr ⟨t.unique, by simp, ?_⟩
      intro a ha b hb hab
      obtain ⟨x, hx, hi⟩ := List.mem_filterMap.mp ha
      rw [List.mem_singleton] at hb
      exact h x hx i rfl (by rw [hi, hab, hb])

theorem index_ne_of_insert? {t t' : UniqueTable κ ι ρ key index} {r : ρ}
    (h : t.insert? r = some t') {i : ι} (hi : index r = some i) {x : ρ} (hx : x ∈ t.rows) :
    index x ≠ some i := by
  intro hxi
  have hrows := rows_of_insert? h
  have hsame : x = r := by
    refine eq_of_index_eq (t := t') ?_ ?_ hxi hi
    · rw [hrows]
      exact List.mem_append_left _ hx
    · rw [hrows]
      exact List.mem_append_right _ (List.mem_singleton.mpr rfl)
  have hnodup := t'.rows_nodup
  rw [hrows, List.nodup_append] at hnodup
  exact hnodup.2.2 x hx r (List.mem_singleton.mpr rfl) hsame

/-! ## `UPDATE` and `DELETE` -/

/-- `UPDATE` of every row by `f`: refused when two rows end up with one entry in the index. -/
def update? (t : UniqueTable κ ι ρ key index) (f : ρ → ρ) :
    Option (UniqueTable κ ι ρ key index) := ofRows? (t.rows.map f)

theorem rows_of_update? {t t' : UniqueTable κ ι ρ key index} {f : ρ → ρ}
    (h : t.update? f = some t') : t'.rows = t.rows.map f := rows_of_ofRows? h

theorem update?_isSome_iff {t : UniqueTable κ ι ρ key index} {f : ρ → ρ}
    (hf : ∀ r, key (f r) = key r) :
    (∃ t', t.update? f = some t') ↔
      ∀ r ∈ t.rows, ∀ r' ∈ t.rows, ∀ i, index (f r) = some i → index (f r') = some i →
        r = r' := by
  unfold update?
  have hkeys : ((t.rows.map f).map key) = t.rows.map key := by
    rw [List.map_map]
    exact List.map_congr_left fun r _ => hf r
  rw [ofRows?_isSome_iff, hkeys, and_iff_right t.nodup, List.filterMap_map]
  constructor
  · intro h r hr r' hr' i hi hi'
    exact eq_of_mem_filterMap h hr hr' hi hi'
  · intro h
    refine List.pairwise_filterMap.mpr (t.rows_nodup.imp_of_mem ?_)
    rintro r r' hr hr' hne i hi j hj rfl
    exact hne (h r hr r' hr' i hi hj)

theorem update?_isSome {t : UniqueTable κ ι ρ key index} {f : ρ → ρ}
    (hf : ∀ r, key (f r) = key r) (hi : ∀ r i, index (f r) = some i → index r = some i) :
    ∃ t', t.update? f = some t' :=
  (update?_isSome_iff hf).mpr fun _ hr _ hr' i h h' => eq_of_index_eq hr hr' (hi _ i h) (hi _ i h')

omit [DecidableEq κ] [DecidableEq ι] in
def update (t : UniqueTable κ ι ρ key index) (f : ρ → ρ) (hf : ∀ r, key (f r) = key r)
    (hi : ∀ r i, index (f r) = some i → index r = some i) : UniqueTable κ ι ρ key index where
  rows := t.rows.map f
  nodup := by
    rw [List.map_map]
    exact (List.map_congr_left fun r _ => hf r : t.rows.map (key ∘ f) = t.rows.map key) ▸ t.nodup
  unique := by
    rw [List.filterMap_map]
    refine List.pairwise_filterMap.mpr (t.rows_nodup.imp_of_mem ?_)
    rintro r r' hr hr' hne i h j h' rfl
    exact hne (eq_of_index_eq hr hr' (hi r i h) (hi r' i h'))

omit [DecidableEq κ] [DecidableEq ι] in
theorem mem_update {t : UniqueTable κ ι ρ key index} {f : ρ → ρ} {hf : ∀ r, key (f r) = key r}
    {hi : ∀ r i, index (f r) = some i → index r = some i} {r : ρ} :
    r ∈ (t.update f hf hi).rows ↔ ∃ x ∈ t.rows, f x = r := List.mem_map

omit [DecidableEq κ] [DecidableEq ι] in
def updateWhere (t : UniqueTable κ ι ρ key index) (p : ρ → Bool) (g : ρ → ρ)
    (hg : ∀ r, key (g r) = key r) (hi : ∀ r i, index (g r) = some i → index r = some i) :
    UniqueTable κ ι ρ key index :=
  t.update (fun r => if p r then g r else r)
    (fun r => by
      split
      · exact hg r
      · rfl)
    (fun r i h => by
      split at h
      · exact hi r i h
      · exact h)

omit [DecidableEq κ] [DecidableEq ι] in
theorem mem_updateWhere {t : UniqueTable κ ι ρ key index} {p : ρ → Bool} {g : ρ → ρ}
    {hg : ∀ r, key (g r) = key r} {hi : ∀ r i, index (g r) = some i → index r = some i} {r : ρ} :
    r ∈ (t.updateWhere p g hg hi).rows ↔
      (∃ x ∈ t.rows, p x = true ∧ g x = r) ∨ (r ∈ t.rows ∧ p r = false) := by
  rw [updateWhere, mem_update]
  constructor
  · rintro ⟨x, hx, rfl⟩
    split
    · next hp => exact .inl ⟨x, hx, hp, rfl⟩
    · next hp => exact .inr ⟨hx, Bool.not_eq_true _ ▸ hp⟩
  · rintro (⟨x, hx, hp, rfl⟩ | ⟨hr, hp⟩)
    · exact ⟨x, hx, if_pos hp⟩
    · exact ⟨r, hr, if_neg (by rw [hp]; exact Bool.false_ne_true)⟩

omit [DecidableEq κ] [DecidableEq ι] in
def deleteWhere (t : UniqueTable κ ι ρ key index) (p : ρ → Bool) : UniqueTable κ ι ρ key index :=
  ⟨t.rows.filter fun r => !p r, (List.filter_sublist.map key).nodup t.nodup,
    (List.filter_sublist.filterMap index).nodup t.unique⟩

omit [DecidableEq κ] [DecidableEq ι] in
theorem mem_deleteWhere {t : UniqueTable κ ι ρ key index} {p : ρ → Bool} {r : ρ} :
    r ∈ (t.deleteWhere p).rows ↔ r ∈ t.rows ∧ p r = false := by
  simp [deleteWhere, List.mem_filter]

end UniqueTable

end QuizBackend.Lib
