import QuizBackend.Lib.Table
import Mathlib.Data.Set.Insert

/-!
# Rows that several write

What is known of a row while others write to it. A transaction that has locked it is alone with it
(`Table.Exclusive`); a writer that compares versions writes the row that was read, or nothing (`AsOf`);
and an `UPDATE` leaves the columns alone that it does not set (`AgreesOff`).
-/

namespace QuizBackend.Lib

/-! ## Locks

Transactions under way are the rows of a table, and `f` says which lock a transaction holds, if any.
That no two hold the same one is kept when a transaction ends, when one without a lock begins, and
when one goes on that newly locks only what is free. -/

namespace Table

variable {κ ρ ι : Type} {key : ρ → κ} {f : ρ → Option ι}

/-- No two transactions hold the same lock. -/
def Exclusive (f : ρ → Option ι) (t : Table κ ρ key) : Prop :=
  ∀ x ∈ t.rows, ∀ y ∈ t.rows, ∀ i, f x = some i → f y = some i → x = y

theorem Exclusive.of_cases {t t' : Table κ ρ key} (h : t.Exclusive f)
    (hcases : ∀ x ∈ t'.rows, f x = none ∨ x ∈ t.rows) : t'.Exclusive f := by
  have hold : ∀ x ∈ t'.rows, ∀ i, f x = some i → x ∈ t.rows := by
    intro x hx i hi
    refine (hcases x hx).resolve_left ?_
    rw [hi]
    exact Option.some_ne_none i
  intro x hx y hy i hxi hyi
  exact h x (hold x hx i hxi) y (hold y hy i hyi) i hxi hyi

theorem exclusive_empty : (Table.empty key).Exclusive f :=
  fun _ hx => absurd hx List.not_mem_nil

variable [DecidableEq κ]

theorem Exclusive.erase {t : Table κ ρ key} (h : t.Exclusive f) (k : κ) :
    (t.erase k).Exclusive f :=
  h.of_cases fun _ hx => .inr (mem_erase.mp hx).1

theorem Exclusive.insert? {t t' : Table κ ρ key} {r : ρ} (h : t.Exclusive f)
    (hr : f r = none) (ht : t.insert? r = some t') : t'.Exclusive f := by
  refine h.of_cases ?_
  intro x hx
  rw [rows_of_insert? ht, List.mem_append, List.mem_singleton] at hx
  rcases hx with hx | rfl
  · exact .inr hx
  · exact .inl hr

theorem Exclusive.modify {t : Table κ ρ key} (h : t.Exclusive f) {k : κ} {r : ρ} (g : ρ → ρ)
    (hg : ∀ r, key (g r) = key r) (hr : t.find? k = some r)
    (hnew : ∀ i, f (g r) = some i → f r = some i ∨ ∀ x ∈ t.rows, key x ≠ k → f x ≠ some i) :
    (t.modify k g hg).Exclusive f := by
  have hfree : ∀ x ∈ t.rows, key x ≠ k → ∀ i, f (g r) = some i → f x ≠ some i := by
    intro x hx hne i hi hxi
    rcases hnew i hi with hold | hfree
    · have hsame := h x hx r (mem_of_find? hr) i hxi hold
      exact hne (hsame ▸ key_of_find? hr)
    · exact hfree x hx hne hxi
  intro x hx y hy i hxi hyi
  rcases mem_modify_cases hr hx with rfl | ⟨hx, hxne⟩
  · rcases mem_modify_cases hr hy with rfl | ⟨hy, hyne⟩
    · rfl
    · exact absurd hyi (hfree y hy hyne i hxi)
  · rcases mem_modify_cases hr hy with rfl | ⟨hy, -⟩
    · exact absurd hxi (hfree x hx hxne i hyi)
    · exact h x hx y hy i hxi hyi

end Table

/-! ## Versions

Optimistic locking: whoever has read a row writes it only if its version is still the one that was
read, and every write raises the version. Then what was true of the row that was read is true of the
row that is written, however much time lies between. `AsOf` says that of a table: a writer may rely on
it (`AsOf.holds`), and no write of anybody breaks it (`AsOf.modify`). -/

section Versions

variable {κ ρ : Type} {key : ρ → κ} [DecidableEq κ]

/-- What was read at version `v` is true while the row is at that version; it can only be later. -/
def AsOf (version : ρ → Int) (t : Table κ ρ key) (k : κ) (v : Int) (P : ρ → Prop) : Prop :=
  ∃ row, t.find? k = some row ∧ v ≤ version row ∧ (version row = v → P row)

namespace AsOf

variable {version : ρ → Int} {t t' : Table κ ρ key} {k : κ} {v : Int} {P Q : ρ → Prop} {row : ρ}

theorem of_find? (h : t.find? k = some row) (hP : P row) : AsOf version t k (version row) P :=
  ⟨row, h, Int.le_refl _, fun _ => hP⟩

section

variable (h : AsOf version t k v P)
include h

theorem holds (hrow : t.find? k = some row) (hv : version row = v) :
    P row := by
  obtain ⟨row', hrow', -, hP⟩ := h
  rw [hrow, Option.some.injEq] at hrow'
  subst hrow'
  exact hP hv

theorem mono (hPQ : ∀ row, P row → Q row) : AsOf version t k v Q := by
  obtain ⟨row, hrow, hv, hP⟩ := h
  exact ⟨row, hrow, hv, fun he => hPQ row (hP he)⟩

theorem modify {f : ρ → ρ} (hf : ∀ r, key (f r) = key r)
    (hversion : ∀ r, version (f r) = version r + 1) (j : κ) :
    AsOf version (t.modify j f hf) k v P := by
  obtain ⟨row, hrow, hv, hP⟩ := h
  rw [AsOf, Table.find?_modify_map, hrow]
  refine ⟨_, rfl, ?_⟩
  dsimp only
  split
  · have hraised := hversion row
    exact ⟨by omega, fun he => absurd he (by omega)⟩
  · exact ⟨hv, hP⟩

theorem insert? {new : ρ} (ht : t.insert? new = some t') :
    AsOf version t' k v P := by
  obtain ⟨row, hrow, hrest⟩ := h
  refine ⟨row, ?_, hrest⟩
  rw [Table.find?_insert? ht, if_neg, hrow]
  intro he
  have hfresh := Table.find?_of_insert? ht
  rw [he, hrow] at hfresh
  cases hfresh

end

end AsOf

end Versions

/-! ## Columns

A row is read through its columns, `cell c r` being what stands in column `c` of `r`. The rows before
and after an `UPDATE` agree off the set of its columns. Updates in a row agree off the union of their
sets (`AgreesOff.trans`), and whether they have kept a smaller frame can be read off the columns in
between (`agreesOff_iff_of_insert`). -/

section Columns

variable {γ ρ : Type*} {β : γ → Type*} {cell : (c : γ) → ρ → β c} {S T : Set γ} {r r' r'' : ρ}

/-- The rows have the same in every column that is not in `S`. -/
def AgreesOff (cell : (c : γ) → ρ → β c) (S : Set γ) (r r' : ρ) : Prop :=
  ∀ c, c ∉ S → cell c r' = cell c r

theorem AgreesOff.refl (S : Set γ) (r : ρ) : AgreesOff cell S r r := fun _ _ => rfl

theorem AgreesOff.mono (hsub : S ⊆ T) (h : AgreesOff cell S r r') : AgreesOff cell T r r' :=
  fun c hc => h c fun hs => hc (hsub hs)

/-- **Two updates** touch what the one or the other touches. -/
theorem AgreesOff.trans (h : AgreesOff cell S r r') (h' : AgreesOff cell T r' r'') :
    AgreesOff cell (S ∪ T) r r'' := by
  intro c hc
  rw [Set.mem_union, not_or] at hc
  exact (h' c hc.2).trans (h c hc.1)

/-- An update that may have touched one column more has kept the frame where that column is as it
was. -/
theorem agreesOff_iff_of_insert {c : γ} (h : AgreesOff cell (insert c S) r r') :
    AgreesOff cell S r r' ↔ c ∈ S ∨ cell c r' = cell c r := by
  constructor
  · intro hkept
    by_cases hc : c ∈ S
    · exact .inl hc
    · exact .inr (hkept c hc)
  · rintro (hc | hsame)
    · rwa [Set.insert_eq_of_mem hc] at h
    · intro d hd
      by_cases hdc : d = c
      · subst hdc
        exact hsame
      · exact h d fun hmem => (Set.mem_insert_iff.mp hmem).elim hdc hd

end Columns

end QuizBackend.Lib
