import Mathlib.Data.List.Nodup
import Mathlib.Data.List.Count

/-!
# Tables with a primary key

A relational table is a list of rows together with the proof that no two of them share a key,
so a table that breaks its primary key cannot be built. The list order is the physical order
of the rows: nothing below depends on it, and a `SELECT` without `ORDER BY` may.

The operations are the ones a transaction body is written with: `find?` (a lookup by key),
`insert?` and `insertAll?` (an `INSERT` of one row or several, refused on a key conflict),
`insertMissing` (one that skips conflicts), `modify` (an `UPDATE … WHERE key = k`, by a function that
leaves the key alone), `update` (one of every row), `modifyEach` (one by key for each of a list),
`erase` (a `DELETE … WHERE key = k`), `deleteWhere`, and the `upsert` of a key-value store. Their
lemmas say what each does to the rows, to every lookup and to every `count(*)`; with them no proof
about a transaction opens the list.
-/

namespace QuizBackend.Lib

open List (countP_append countP_cons find?_some map_congr_left map_cons map_map mem_map
  mem_map_of_mem)

/-- The range of a four-byte `integer` column; a value outside it is an error. -/
def IsInt4 (n : Int) : Prop := -2147483648 ≤ n ∧ n ≤ 2147483647

instance (n : Int) : Decidable (IsInt4 n) := inferInstanceAs (Decidable (_ ∧ _))

/-- Rows of which no two have the same key. -/
structure Table (κ ρ : Type) (key : ρ → κ) where
  rows : List ρ
  nodup : (rows.map key).Nodup

namespace Table

variable {κ ρ : Type} {key : ρ → κ} [DecidableEq κ]

def empty (key : ρ → κ) : Table κ ρ key := ⟨[], List.nodup_nil⟩

/-- The row with this key. -/
def find? (t : Table κ ρ key) (k : κ) : Option ρ := t.rows.find? fun r => key r = k

theorem find?_eq_none_iff {t : Table κ ρ key} {k : κ} :
    t.find? k = none ↔ k ∉ t.rows.map key := by
  simp [find?, mem_map]

theorem key_of_find? {t : Table κ ρ key} {k : κ} {r : ρ} (h : t.find? k = some r) :
    key r = k := by simpa using find?_some h

theorem mem_of_find? {t : Table κ ρ key} {k : κ} {r : ρ} (h : t.find? k = some r) :
    r ∈ t.rows := List.mem_of_find?_eq_some h

omit [DecidableEq κ] in
theorem eq_of_key_eq {t : Table κ ρ key} {r r' : ρ} (hr : r ∈ t.rows) (hr' : r' ∈ t.rows)
    (h : key r = key r') : r = r' := List.inj_on_of_nodup_map t.nodup hr hr' h

/-- **The primary key**: a row of the table is the row its key finds. -/
theorem find?_of_mem {t : Table κ ρ key} {r : ρ} (hr : r ∈ t.rows) :
    t.find? (key r) = some r := by
  cases h : t.find? (key r) with
  | none => exact absurd (mem_map_of_mem hr) (find?_eq_none_iff.mp h)
  | some x =>
    rw [eq_of_key_eq (mem_of_find? h) hr (key_of_find? h)]

theorem filter_key_eq (t : Table κ ρ key) (k : κ) :
    t.rows.filter (fun r => key r = k) = (t.find? k).toList := by
  obtain ⟨rows, hnodup⟩ := t
  simp only [find?]
  induction rows with
  | nil => rfl
  | cons r rows ih =>
    rw [map_cons, List.nodup_cons] at hnodup
    by_cases hr : key r = k
    · have hrest : rows.filter (fun r' => key r' = k) = [] := by
        refine List.filter_eq_nil_iff.mpr fun r' hr' heq => hnodup.1 ?_
        rw [hr, ← of_decide_eq_true heq]
        exact mem_map_of_mem hr'
      simp [hr, hrest]
    · simp only [hr, decide_false, Bool.false_eq_true, not_false_eq_true, List.filter_cons_of_neg,
        List.find?_cons_of_neg]
      exact ih hnodup.2

theorem filter_bind_find?_eq_some_iff {t : Table κ ρ key} {p : ρ → Bool} {r : ρ} (hr : r ∈ t.rows)
    (hp : p r = true) {k : Option κ} : (k.bind t.find?).filter p = some r ↔ k = some (key r) := by
  constructor
  · intro h
    obtain ⟨k', rfl, hfind⟩ := Option.bind_eq_some_iff.mp (Option.filter_eq_some_iff.mp h).1
    rw [key_of_find? hfind]
  · rintro rfl
    rw [Option.bind_some, find?_of_mem hr, Option.filter_some_pos hp]

theorem of_filter_bind_find? {t : Table κ ρ key} {p : ρ → Bool} {r : ρ} {k : Option κ}
    (h : (k.bind t.find?).filter p = some r) : r ∈ t.rows ∧ p r = true := by
  obtain ⟨hbind, hp⟩ := Option.filter_eq_some_iff.mp h
  obtain ⟨k', rfl, hfind⟩ := Option.bind_eq_some_iff.mp hbind
  exact ⟨mem_of_find? hfind, hp⟩

/-! ## `INSERT` -/

/-- `INSERT` of a row whose key is free. -/
def insertNew (t : Table κ ρ key) (r : ρ) (h : key r ∉ t.rows.map key) : Table κ ρ key :=
  ⟨t.rows ++ [r], by
    rw [List.map_append, List.map_singleton]
    exact List.nodup_append.mpr ⟨t.nodup, by simp, fun a ha b hb => by
      rw [List.mem_singleton.mp hb]
      exact fun he => h (he ▸ ha)⟩⟩

/-- `INSERT`; `none` is the violation of the key. -/
def insert? (t : Table κ ρ key) (r : ρ) : Option (Table κ ρ key) :=
  if h : key r ∉ t.rows.map key then some (t.insertNew r h) else none

theorem rows_of_insert? {t t' : Table κ ρ key} {r : ρ} (h : t.insert? r = some t') :
    t'.rows = t.rows ++ [r] := by
  unfold insert? at h
  split at h
  · cases h; rfl
  · cases h

theorem insert?_isSome {t : Table κ ρ key} {r : ρ} (h : t.find? (key r) = none) :
    ∃ t', t.insert? r = some t' :=
  ⟨_, dif_pos (find?_eq_none_iff.mp h)⟩

theorem find?_of_insert? {t t' : Table κ ρ key} {r : ρ} (h : t.insert? r = some t') :
    t.find? (key r) = none := by
  unfold insert? at h
  split at h
  · exact find?_eq_none_iff.mpr ‹_›
  · cases h

theorem find?_of_insert?_none {t : Table κ ρ key} {r : ρ} (h : t.insert? r = none) :
    ∃ x, t.find? (key r) = some x := by
  cases hx : t.find? (key r) with
  | some x => exact ⟨x, rfl⟩
  | none =>
    obtain ⟨t', ht'⟩ := insert?_isSome hx
    rw [h] at ht'
    cases ht'

theorem find?_insert? {t t' : Table κ ρ key} {r : ρ} (h : t.insert? r = some t') (k : κ) :
    t'.find? k = if key r = k then some r else t.find? k := by
  have hfree := find?_of_insert? h
  by_cases hk : key r = k
  · subst hk
    have hold : t.rows.find? (fun x => key x = key r) = none := hfree
    simp [find?, rows_of_insert? h, List.find?_append, hold]
  · rw [if_neg hk]
    simp [find?, rows_of_insert? h, List.find?_append, hk]

/-- `INSERT` of several rows: refused when one of them is. -/
def insertAll? (t : Table κ ρ key) : List ρ → Option (Table κ ρ key)
  | [] => some t
  | r :: rs => (t.insert? r).bind fun t => t.insertAll? rs

theorem rows_of_insertAll? {t t' : Table κ ρ key} {rs : List ρ} (h : t.insertAll? rs = some t') :
    t'.rows = t.rows ++ rs := by
  induction rs generalizing t with
  | nil =>
    cases h
    rw [List.append_nil]
  | cons r rs ih =>
    obtain ⟨t₁, ht₁, hrest⟩ := Option.bind_eq_some_iff.mp h
    rw [ih hrest, rows_of_insert? ht₁, List.append_assoc, List.singleton_append]

/-- `INSERT … ON CONFLICT DO NOTHING` of several rows: a row whose key is taken is left out. -/
def insertMissing (t : Table κ ρ key) : List ρ → Table κ ρ key
  | [] => t
  | r :: rs => ((t.insert? r).getD t).insertMissing rs

theorem find?_getD_insert? (t : Table κ ρ key) (r : ρ) (k : κ) :
    ((t.insert? r).getD t).find? k =
      if key r = k then (t.find? k).or (some r) else t.find? k := by
  cases h : t.insert? r with
  | some t' =>
    rw [Option.getD_some, find?_insert? h]
    by_cases hk : key r = k
    · rw [if_pos hk, if_pos hk, ← hk, find?_of_insert? h, Option.none_or]
    · rw [if_neg hk, if_neg hk]
  | none =>
    obtain ⟨x, hx⟩ := find?_of_insert?_none h
    rw [Option.getD_none]
    by_cases hk : key r = k
    · rw [if_pos hk, ← hk, hx, Option.some_or]
    · rw [if_neg hk]

/-- **What an insert that skips conflicts finds**: the row that was there, or else the first new
one with the key. -/
theorem find?_insertMissing (t : Table κ ρ key) (rs : List ρ) (k : κ) :
    (t.insertMissing rs).find? k = (t.find? k).or (rs.find? fun r => key r = k) := by
  induction rs generalizing t with
  | nil => rw [insertMissing, List.find?_nil, Option.or_none]
  | cons r rs ih =>
    rw [insertMissing, ih, find?_getD_insert?]
    by_cases hk : key r = k
    · rw [if_pos hk, List.find?_cons_of_pos (by simpa using hk), Option.or_assoc, Option.some_or]
    · rw [if_neg hk, List.find?_cons_of_neg (by simpa using hk)]

/-! ## `UPDATE` -/

/-- `UPDATE … WHERE key = k` by a function that leaves the key alone. -/
def modify (t : Table κ ρ key) (k : κ) (f : ρ → ρ) (hf : ∀ r, key (f r) = key r) :
    Table κ ρ key :=
  ⟨t.rows.map fun r => if key r = k then f r else r, by
    have hkeys : (t.rows.map fun r => if key r = k then f r else r).map key = t.rows.map key := by
      rw [map_map]
      refine map_congr_left ?_
      intro r _
      by_cases hk : key r = k
      · rw [Function.comp_apply, if_pos hk, hf]
      · rw [Function.comp_apply, if_neg hk]
    rw [hkeys]
    exact t.nodup⟩

variable {f : ρ → ρ} {hf : ∀ r, key (f r) = key r}

theorem mem_modify {t : Table κ ρ key} {k : κ} {r : ρ} :
    r ∈ (t.modify k f hf).rows ↔ ∃ x ∈ t.rows, (if key x = k then f x else x) = r :=
  mem_map

theorem map_key_modify (t : Table κ ρ key) (k : κ) :
    (t.modify k f hf).rows.map key = t.rows.map key := by
  rw [modify, map_map]
  refine map_congr_left fun r _ => ?_
  rw [Function.comp_apply]
  split
  · exact hf r
  · rfl

theorem find?_modify (t : Table κ ρ key) (k j : κ) :
    (t.modify k f hf).find? j = if j = k then (t.find? k).map f else t.find? j := by
  have hstep : ∀ r, key (if key r = k then f r else r) = key r := fun r => by
    split
    · exact hf r
    · rfl
  simp only [find?, modify, List.find?_map]
  rw [show ((fun r => decide (key r = j)) ∘ fun r => if key r = k then f r else r)
      = fun r => decide (key r = j) from funext fun r => by simp only [Function.comp_apply, hstep]]
  by_cases hj : j = k
  · subst hj
    rw [if_pos rfl]
    cases hfind : t.rows.find? (fun r => decide (key r = j)) with
    | none => rfl
    | some r => simp [show key r = j by simpa using find?_some hfind]
  · rw [if_neg hj]
    cases hfind : t.rows.find? (fun r => decide (key r = j)) with
    | none => rfl
    | some r =>
      have hr : key r = j := by simpa using find?_some hfind
      simp [hr, hj]

theorem find?_modify_map (t : Table κ ρ key) (k j : κ) :
    (t.modify k f hf).find? j = (t.find? j).map fun r => if key r = k then f r else r := by
  rw [find?_modify]
  cases h : t.find? j with
  | none =>
    split
    · rename_i hk
      rw [← hk, h, Option.map_none, Option.map_none]
    · rfl
  | some r =>
    rw [Option.map_some, key_of_find? h]
    split
    · rename_i hk
      rw [← hk, h, Option.map_some]
    · rfl

theorem find?_modify_self {t : Table κ ρ key} {k : κ} {r : ρ} (h : t.find? k = some r) :
    (t.modify k f hf).find? k = some (f r) := by
  rw [find?_modify, if_pos rfl, h, Option.map_some]

theorem find?_modify_ne {t : Table κ ρ key} {k j : κ} (h : j ≠ k) :
    (t.modify k f hf).find? j = t.find? j := by
  rw [find?_modify, if_neg h]

theorem mem_modify_self {t : Table κ ρ key} {k : κ} {r : ρ} (f : ρ → ρ)
    (hf : ∀ r, key (f r) = key r) (h : t.find? k = some r) : f r ∈ (t.modify k f hf).rows :=
  mem_modify.mpr ⟨r, mem_of_find? h, if_pos (key_of_find? h)⟩

theorem mem_modify_of_ne {t : Table κ ρ key} {k : κ} {x : ρ} (f : ρ → ρ)
    (hf : ∀ r, key (f r) = key r) (hx : x ∈ t.rows) (hne : key x ≠ k) :
    x ∈ (t.modify k f hf).rows :=
  mem_modify.mpr ⟨x, hx, if_neg hne⟩

theorem mem_modify_cases {t : Table κ ρ key} {k : κ} {r x : ρ} (h : t.find? k = some r)
    (hx : x ∈ (t.modify k f hf).rows) : x = f r ∨ (x ∈ t.rows ∧ key x ≠ k) := by
  obtain ⟨y, hy, hyx⟩ := mem_modify.mp hx
  split at hyx
  · next hk =>
    rw [eq_of_key_eq hy (mem_of_find? h) (hk.trans (key_of_find? h).symm)] at hyx
    exact .inl hyx.symm
  · next hk =>
    subst hyx
    exact .inr ⟨hy, hk⟩

/-- One `UPDATE … WHERE key = k x` after another, for the items `x` of a list. -/
def modifyEach {τ : Type} (t : Table κ ρ key) (items : List τ) (k : τ → κ) (g : τ → ρ → ρ)
    (hg : ∀ x r, key (g x r) = key r) : Table κ ρ key :=
  items.foldl (fun t x => t.modify (k x) (g x) (hg x)) t

section ModifyEach

variable {τ : Type} {k : τ → κ} {g : τ → ρ → ρ} {hg : ∀ x r, key (g x r) = key r}

theorem modifyEach_append (t : Table κ ρ key) (xs ys : List τ) :
    t.modifyEach (xs ++ ys) k g hg = (t.modifyEach xs k g hg).modifyEach ys k g hg :=
  List.foldl_append

theorem find?_modifyEach_of_forall_ne {t : Table κ ρ key} {items : List τ} {j : κ}
    (h : ∀ x ∈ items, k x ≠ j) : (t.modifyEach items k g hg).find? j = t.find? j := by
  induction items generalizing t with
  | nil => rfl
  | cons x xs ih =>
    have hx : j ≠ k x := fun he => h x (List.mem_cons_self ..) he.symm
    show ((t.modify (k x) (g x) (hg x)).modifyEach xs k g hg).find? j = t.find? j
    rw [ih fun y hy => h y (List.mem_cons_of_mem x hy), find?_modify_ne hx]

theorem find?_modifyEach_of_mem {t : Table κ ρ key} {items : List τ}
    (hn : (items.map k).Nodup) {x : τ} (hx : x ∈ items) :
    (t.modifyEach items k g hg).find? (k x) = (t.find? (k x)).map (g x) := by
  induction items generalizing t with
  | nil => cases hx
  | cons y ys ih =>
    obtain ⟨hy, hys⟩ := List.nodup_cons.mp hn
    show ((t.modify (k y) (g y) (hg y)).modifyEach ys k g hg).find? (k x) = _
    rcases List.mem_cons.mp hx with rfl | hmem
    · have hrest : ∀ z ∈ ys, k z ≠ k x := fun z hz he => hy (List.mem_map.mpr ⟨z, hz, he⟩)
      rw [find?_modifyEach_of_forall_ne hrest, find?_modify, if_pos rfl]
    · have hne : k x ≠ k y := fun he => hy (List.mem_map.mpr ⟨x, hmem, he⟩)
      rw [ih hys hmem, find?_modify_ne hne]

def modifiedBy (key : ρ → κ) (items : List τ) (k : τ → κ) (g : τ → ρ → ρ) (r : ρ) : ρ :=
  items.foldl (fun r x => if key r = k x then g x r else r) r

theorem rows_modifyEach (t : Table κ ρ key) (items : List τ) :
    (t.modifyEach items k g hg).rows = t.rows.map (modifiedBy key items k g) := by
  induction items generalizing t with
  | nil => exact (List.map_id' t.rows).symm
  | cons x xs ih =>
    show ((t.modify (k x) (g x) (hg x)).modifyEach xs k g hg).rows = _
    rw [ih, modify, map_map]
    rfl

theorem modifiedBy_of_forall_ne {items : List τ} {r : ρ} (h : ∀ x ∈ items, k x ≠ key r) :
    modifiedBy key items k g r = r := by
  induction items with
  | nil => rfl
  | cons x xs ih =>
    rw [modifiedBy, List.foldl_cons, if_neg (h x (List.mem_cons_self ..)).symm]
    exact ih fun y hy => h y (List.mem_cons_of_mem x hy)

theorem modifiedBy_eq {α : Type} (φ : ρ → α) (hφ : ∀ x r, φ (g x r) = φ r) (items : List τ)
    (r : ρ) : φ (modifiedBy key items k g r) = φ r := by
  induction items generalizing r with
  | nil => rfl
  | cons x xs ih =>
    rw [modifiedBy, List.foldl_cons]
    show φ (modifiedBy key xs k g _) = φ r
    rw [ih]
    split
    · exact hφ x r
    · rfl

end ModifyEach

/-- `UPDATE` of every row, by a function that leaves the key alone. -/
def update (t : Table κ ρ key) (f : ρ → ρ) (hf : ∀ r, key (f r) = key r) : Table κ ρ key :=
  ⟨t.rows.map f, by
    have hkeys : (t.rows.map f).map key = t.rows.map key := by
      rw [map_map]
      exact map_congr_left fun r _ => hf r
    rw [hkeys]
    exact t.nodup⟩

theorem find?_update (t : Table κ ρ key) (k : κ) :
    (t.update f hf).find? k = (t.find? k).map f := by
  simp only [find?, update, List.find?_map]
  rw [show ((fun r => decide (key r = k)) ∘ f) = fun r => decide (key r = k) from
    funext fun r => by simp only [Function.comp_apply, hf]]

private theorem countP_map_ite {l : List ρ} {k : κ} {r : ρ} (p : ρ → Bool)
    (hn : (l.map key).Nodup) (hr : r ∈ l) (hk : key r = k) :
    (l.map fun x => if key x = k then f x else x).countP p + (if p r then 1 else 0)
      = l.countP p + (if p (f r) then 1 else 0) := by
  induction l with
  | nil => cases hr
  | cons x xs ih =>
    obtain ⟨hx, hxs⟩ := List.nodup_cons.mp hn
    rcases List.mem_cons.mp hr with rfl | hr
    · -- the row is the head: no later row carries its key
      have hid : (xs.map fun y => if key y = k then f y else y) = xs := by
        refine (map_congr_left ?_).trans (List.map_id xs)
        intro y hy
        exact if_neg fun (he : key y = k) => hx ((he.trans hk.symm) ▸ mem_map_of_mem hy)
      rw [map_cons, if_pos hk, countP_cons, countP_cons, hid]
      omega
    · have hne : key x ≠ k := fun he => hx ((he.trans hk.symm) ▸ mem_map_of_mem hr)
      rw [map_cons, if_neg hne, countP_cons, countP_cons]
      have := ih hxs hr
      omega

/-- **`count(*)` after an update** of one row: the row leaves the count with its old value and
enters it with its new one. -/
theorem countP_modify {t : Table κ ρ key} {k : κ} {r : ρ} (p : ρ → Bool)
    (h : t.find? k = some r) :
    (t.modify k f hf).rows.countP p + (if p r then 1 else 0)
      = t.rows.countP p + (if p (f r) then 1 else 0) :=
  countP_map_ite p t.nodup (mem_of_find? h) (key_of_find? h)

theorem countP_modify_of_eq (t : Table κ ρ key) (k : κ) {p : ρ → Bool}
    (h : ∀ r, p (f r) = p r) : (t.modify k f hf).rows.countP p = t.rows.countP p := by
  rw [modify, List.countP_map]
  refine List.countP_congr ?_
  intro r _
  by_cases hk : key r = k
  · simp [hk, h]
  · simp [hk]

theorem countP_insert? {t t' : Table κ ρ key} {r : ρ} (p : ρ → Bool)
    (h : t.insert? r = some t') :
    t'.rows.countP p = t.rows.countP p + (if p r then 1 else 0) := by
  rw [rows_of_insert? h, countP_append, List.countP_singleton]

/-! ## `DELETE` -/

/-- `DELETE` of the row with this key. -/
def erase (t : Table κ ρ key) (k : κ) : Table κ ρ key :=
  ⟨t.rows.filter fun r => key r ≠ k, (List.filter_sublist.map key).nodup t.nodup⟩

theorem mem_erase {t : Table κ ρ key} {k : κ} {r : ρ} :
    r ∈ (t.erase k).rows ↔ r ∈ t.rows ∧ key r ≠ k := by
  simp [erase, List.mem_filter]

theorem find?_eq_some_iff {t : Table κ ρ key} {k : κ} {r : ρ} :
    t.find? k = some r ↔ r ∈ t.rows ∧ key r = k := by
  refine ⟨fun h => ⟨mem_of_find? h, key_of_find? h⟩, ?_⟩
  rintro ⟨hr, rfl⟩
  exact find?_of_mem hr

theorem find?_erase (t : Table κ ρ key) (k j : κ) :
    (t.erase k).find? j = if j = k then none else t.find? j := by
  ext r
  rw [find?_eq_some_iff, mem_erase]
  split
  · next hj =>
    simp only [reduceCtorEq, iff_false]
    rintro ⟨⟨-, hne⟩, hk⟩
    exact hne (hk.trans hj)
  · next hj =>
    rw [find?_eq_some_iff]
    refine ⟨fun h => ⟨h.1.1, h.2⟩, ?_⟩
    rintro ⟨hr, rfl⟩
    exact ⟨⟨hr, hj⟩, rfl⟩

private theorem countP_filter_key_ne {l : List ρ} {r : ρ} (p : ρ → Bool)
    (hn : (l.map key).Nodup) (hr : r ∈ l) :
    (l.filter fun x => key x ≠ key r).countP p + (if p r then 1 else 0) = l.countP p := by
  induction l with
  | nil => cases hr
  | cons x xs ih =>
    obtain ⟨hfresh, hn⟩ := List.nodup_cons.mp hn
    rcases List.mem_cons.mp hr with rfl | hr
    · have hkeep : (xs.filter fun x => key x ≠ key r) = xs := by
        refine List.filter_eq_self.mpr ?_
        intro y hy
        exact decide_eq_true fun heq => hfresh (heq ▸ mem_map_of_mem hy)
      rw [List.filter_cons_of_neg (by simp), hkeep, countP_cons]
    · have hne : key x ≠ key r := fun heq => hfresh (heq ▸ mem_map_of_mem hr)
      rw [List.filter_cons_of_pos (by simpa using hne), countP_cons, countP_cons,
        ← ih hn hr]
      exact Nat.add_right_comm ..

theorem countP_erase {t : Table κ ρ key} {k : κ} {r : ρ} (p : ρ → Bool)
    (h : t.find? k = some r) :
    (t.erase k).rows.countP p + (if p r then 1 else 0) = t.rows.countP p := by
  rw [← key_of_find? h]
  exact countP_filter_key_ne p t.nodup (mem_of_find? h)

theorem of_find?_bind {τ : Type*} {t : Table κ ρ key} {k : κ} {f : ρ → Option τ} {x : τ}
    (h : (t.find? k).bind f = some x) : ∃ r, t.find? k = some r ∧ key r = k ∧ f r = some x := by
  obtain ⟨r, hr, hf⟩ := Option.bind_eq_some_iff.mp h
  exact ⟨r, hr, key_of_find? hr, hf⟩

/-! What is done to a row that has just been inserted. -/

theorem find?_insertNew {t : Table κ ρ key} {r : ρ} (h : key r ∉ t.rows.map key) :
    (t.insertNew r h).find? (key r) = some r :=
  find?_of_mem (List.mem_append_right _ (List.mem_singleton.mpr rfl))

theorem modify_insertNew {t : Table κ ρ key} {r : ρ} (h : key r ∉ t.rows.map key) :
    (t.insertNew r h).modify (key r) f hf = t.insertNew (f r) (by rwa [hf]) := by
  have hkeep : (t.rows.map fun x => if key x = key r then f x else x) = t.rows := by
    refine (map_congr_left fun x hx => if_neg ?_).trans (List.map_id _)
    intro heq
    exact h (heq ▸ mem_map_of_mem hx)
  simp [insertNew, modify, hkeep]

theorem erase_insertNew {t : Table κ ρ key} {r : ρ} (h : key r ∉ t.rows.map key) :
    (t.insertNew r h).erase (key r) = t := by
  have hkeep : (t.rows.filter fun x => key x ≠ key r) = t.rows := by
    refine List.filter_eq_self.mpr fun x hx => decide_eq_true fun heq => ?_
    exact h (heq ▸ mem_map_of_mem hx)
  simp only [insertNew, erase, List.filter_append, hkeep]
  simp

/-- A write under a key, whether or not it is taken: the `SET` and `ZADD` of a key-value store. -/
def upsert (t : Table κ ρ key) (r : ρ) : Table κ ρ key :=
  (t.erase (key r)).insertNew r fun h => by
    obtain ⟨x, hx, hk⟩ := List.mem_map.mp h
    exact (mem_erase.mp hx).2 hk

theorem mem_upsert {t : Table κ ρ key} {r x : ρ} :
    x ∈ (t.upsert r).rows ↔ x = r ∨ (x ∈ t.rows ∧ key x ≠ key r) := by
  show x ∈ (t.erase (key r)).rows ++ [r] ↔ _
  rw [List.mem_append, mem_erase, List.mem_singleton, or_comm]

theorem find?_upsert (t : Table κ ρ key) (r : ρ) (k : κ) :
    (t.upsert r).find? k = if k = key r then some r else t.find? k := by
  ext x
  rw [find?_eq_some_iff, mem_upsert]
  split
  · next hk =>
    rw [Option.some.injEq]
    constructor
    · rintro ⟨rfl | ⟨-, hne⟩, hx⟩
      · rfl
      · exact absurd (hx.trans hk) hne
    · rintro rfl
      exact ⟨.inl rfl, hk.symm⟩
  · next hk =>
    rw [find?_eq_some_iff]
    constructor
    · rintro ⟨rfl | ⟨hr, -⟩, rfl⟩
      · exact absurd rfl hk
      · exact ⟨hr, rfl⟩
    · rintro ⟨hr, rfl⟩
      exact ⟨.inr ⟨hr, hk⟩, rfl⟩

theorem rows_upsert (t : Table κ ρ key) (r : ρ) :
    (t.upsert r).rows = (t.erase (key r)).rows ++ [r] := rfl

theorem erase_of_find?_none {t : Table κ ρ key} {k : κ} (h : t.find? k = none) :
    (t.erase k).rows = t.rows := by
  refine List.filter_eq_self.mpr fun r hr => decide_eq_true fun hk => ?_
  exact find?_eq_none_iff.mp h (List.mem_map.mpr ⟨r, hr, hk⟩)

theorem countP_upsert_of_none {t : Table κ ρ key} {r : ρ} (p : ρ → Bool)
    (h : t.find? (key r) = none) :
    (t.upsert r).rows.countP p = t.rows.countP p + if p r then 1 else 0 := by
  rw [rows_upsert, erase_of_find?_none h, countP_append, List.countP_singleton]

theorem countP_upsert_of_some {t : Table κ ρ key} {r old : ρ} (p : ρ → Bool)
    (h : t.find? (key r) = some old) :
    (t.upsert r).rows.countP p + (if p old then 1 else 0)
      = t.rows.countP p + if p r then 1 else 0 := by
  rw [rows_upsert, countP_append, List.countP_singleton, Nat.add_right_comm, countP_erase p h]

/-- `DELETE … WHERE`. -/
def deleteWhere (t : Table κ ρ key) (p : ρ → Bool) : Table κ ρ key :=
  ⟨t.rows.filter fun r => !p r, (List.filter_sublist.map key).nodup t.nodup⟩

omit [DecidableEq κ] in
theorem mem_deleteWhere {t : Table κ ρ key} {p : ρ → Bool} {r : ρ} :
    r ∈ (t.deleteWhere p).rows ↔ r ∈ t.rows ∧ p r = false := by
  simp [deleteWhere, List.mem_filter]

theorem find?_deleteWhere (t : Table κ ρ key) (p : ρ → Bool) (k : κ) :
    (t.deleteWhere p).find? k = (t.find? k).filter fun r => !p r := by
  ext r
  rw [find?_eq_some_iff, mem_deleteWhere, Option.filter_eq_some_iff, find?_eq_some_iff,
    Bool.not_eq_true']
  exact and_right_comm

end Table

/-- A property of the row that was found, if any, can be decided. -/
def decidableOfFind {α : Type} (found : Option α) (p : α → Prop) [∀ a, Decidable (p a)] :
    Decidable (∀ a, found = some a → p a) :=
  match found with
  | none => .isTrue fun _ h => nomatch h
  | some a => decidable_of_iff (p a) ⟨fun h _ he => Option.some.inj he ▸ h, fun h => h a rfl⟩

end QuizBackend.Lib
