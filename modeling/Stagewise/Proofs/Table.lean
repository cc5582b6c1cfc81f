import Mathlib.Data.List.Perm.Basic
import Mathlib.Tactic.Tauto
import Stagewise.Table
/-!
# Rows of tables

A table is known by its rows: what is under a key is the row with that key, and putting a value in
leaves the rows with smaller keys before it and those with greater keys behind it.
-/

namespace Stagewise.Table

variable {κ α : Type} [LT κ] [DecidableLT κ] [DecidableEq κ] {key : κ} {value : α}

/-! ### Rows in a list -/

section

variable {rows : List (κ × α)}

theorem filter_insertRow_of_false (p : κ → Bool) (key : κ) (h : p key = false) (value : α)
    (rows : List (κ × α)) :
    (insertRow key value rows).filter (fun row => p row.1) = rows.filter fun row => p row.1 := by
  induction rows with
  | nil => simp [insertRow, h]
  | cons row rows ih =>
    rw [insertRow]
    split
    · simp [h]
    · split
      · rename_i heq
        simp [h, ← heq]
      · simp only [List.filter_cons, ih]

theorem insertRow_of_lt (h : ∀ row ∈ rows, key < row.1) (value : α) :
    insertRow key value rows = (key, value) :: rows := by
  cases rows with
  | nil => rfl
  | cons row rows => exact if_pos (h row List.mem_cons_self)

variable [Ordered κ]

/-- A row comes to stand between those with smaller and those with greater keys. -/
theorem insertRow_eq (h : rows.Pairwise fun r s => r.1 < s.1) (key : κ) (value : α) :
    insertRow key value rows =
      rows.filter (fun row => row.1 < key) ++
        (key, value) :: rows.filter fun row => key < row.1 := by
  induction rows with
  | nil => rfl
  | cons row rows ih =>
    obtain ⟨hrow, hrows⟩ := List.pairwise_cons.1 h
    have hnone : ∀ k, (k < row.1 ∨ k = row.1) →
        rows.filter (fun r => decide (r.1 < k)) = [] ∧
          rows.filter (fun r => decide (k < r.1)) = rows := by
      intro k hk
      have hless : ∀ r ∈ rows, k < r.1 := fun r hr =>
        hk.elim (fun hlt => Ordered.trans hlt (hrow r hr)) fun heq => heq ▸ hrow r hr
      constructor
      · exact List.filter_eq_nil_iff.2 fun r hr => by simpa using Ordered.asymm (hless r hr)
      · exact List.filter_eq_self.2 fun r hr => by simpa using hless r hr
    rw [insertRow]
    split
    · rename_i hlt
      simp [hlt, Ordered.asymm hlt, hnone key (.inl hlt)]
    · split
      · rename_i hnot heq
        simp [heq, Ordered.irrefl row.1, hnone row.1 (.inr rfl)]
      · rename_i hnot hne
        have hless : row.1 < key :=
          ((Ordered.trichotomous key row.1).resolve_left hnot).resolve_left hne
        simp [hless, hnot, ih hrows]

omit [DecidableLT κ] in
theorem lookup_eq_some_iff (h : rows.Pairwise fun r s => r.1 < s.1) :
    rows.lookup key = some value ↔ (key, value) ∈ rows := by
  induction rows with
  | nil => simp
  | cons row rows ih =>
    obtain ⟨hrow, hrows⟩ := List.pairwise_cons.1 h
    rw [List.lookup_cons, List.mem_cons]
    by_cases heq : key = row.1
    · obtain rfl : row.1 = key := heq.symm
      have hnot : (row.1, value) ∉ rows := fun hmem =>
        Ordered.irrefl row.1 (hrow (row.1, value) hmem)
      simp [hnot, Prod.ext_iff, eq_comm]
    · simp [beq_false_of_ne heq, ih hrows, Prod.ext_iff, heq]

end

/-! ### Tables -/

variable [Ordered κ] {t u : Table κ α}

omit [DecidableLT κ] [DecidableEq κ] in
/-- Tables with the same rows are one table. -/
theorem ext_mem (h : ∀ row, row ∈ t.rows ↔ row ∈ u.rows) : t = u := by
  have hnodup (t : Table κ α) : t.rows.Nodup :=
    t.sorted.imp fun {r s} hlt (heq : r = s) => Ordered.irrefl s.1 (heq ▸ hlt)
  exact Table.ext <| ((List.perm_ext_iff_of_nodup (hnodup t) (hnodup u)).2 h).eq_of_pairwise
    (fun _ _ _ _ hlt hgt => absurd hgt (Ordered.asymm hlt)) t.sorted u.sorted

omit [DecidableLT κ] in
theorem get?_eq_some_iff : t.get? key = some value ↔ (key, value) ∈ t.rows :=
  lookup_eq_some_iff t.sorted

omit [DecidableLT κ] in
theorem get?_eq_none (h : ∀ row ∈ t.rows, key < row.1) : t.get? key = none := by
  refine Option.eq_none_iff_forall_ne_some.2 fun value hvalue => ?_
  exact Ordered.irrefl key (h _ (get?_eq_some_iff.1 hvalue))

theorem rows_insert (key : κ) (value : α) (t : Table κ α) :
    (t.insert key value).rows =
      t.rows.filter (fun row => row.1 < key) ++
        (key, value) :: t.rows.filter fun row => key < row.1 :=
  insertRow_eq t.sorted key value

theorem mem_insert {row : κ × α} :
    row ∈ (t.insert key value).rows ↔ row = (key, value) ∨ row ∈ t.rows ∧ row.1 ≠ key := by
  have hne : row.1 ≠ key ↔ row.1 < key ∨ key < row.1 := by
    constructor
    · intro hne
      exact (Ordered.trichotomous row.1 key).imp_right fun h => h.resolve_left hne
    · rintro (hlt | hlt) heq
      · exact Ordered.irrefl key (heq ▸ hlt)
      · exact Ordered.irrefl key (heq ▸ hlt)
  rw [rows_insert, hne]
  simp only [List.mem_append, List.mem_filter, List.mem_cons, decide_eq_true_eq]
  tauto

theorem mem_insert_self (key : κ) (value : α) (t : Table κ α) :
    (key, value) ∈ (t.insert key value).rows :=
  mem_insert.2 (.inl rfl)

theorem get?_insert_self (key : κ) (value : α) (t : Table κ α) :
    (t.insert key value).get? key = some value :=
  get?_eq_some_iff.2 (mem_insert_self key value t)

theorem get?_insert_of_ne {other : κ} (h : other ≠ key) (value : α) (t : Table κ α) :
    (t.insert key value).get? other = t.get? other := by
  refine Option.ext fun v => ?_
  rw [get?_eq_some_iff, get?_eq_some_iff, mem_insert]
  simp [h]

/-- Values under two keys may be put in either order. -/
theorem insert_comm {other : κ} (hne : key ≠ other) (value value' : α) (t : Table κ α) :
    (t.insert key value).insert other value' = (t.insert other value').insert key value := by
  refine ext_mem fun row => ?_
  simp only [mem_insert]
  grind

/-- The row with the greatest of the keys that a test selects is the last of those selected. -/
theorem filter_insert (t : Table κ α) (p : κ → Bool) (key : κ) (hkey : p key = true)
    (hlast : ∀ row ∈ t.rows, p row.1 = true → row.1 < key) (value : α) :
    (t.insert key value).rows.filter (fun row => p row.1) =
      t.rows.filter (fun row => p row.1) ++ [(key, value)] := by
  have hbefore : (t.rows.filter fun row => row.1 < key).filter (fun row => p row.1) =
      t.rows.filter fun row => p row.1 := by
    rw [List.filter_filter]
    refine List.filter_congr fun row hrow => ?_
    cases hp : p row.1 with
    | false => rfl
    | true => simpa using hlast row hrow hp
  have hafter : (t.rows.filter fun row => key < row.1).filter (fun row => p row.1) = [] := by
    refine List.filter_eq_nil_iff.2 fun row hrow hp => ?_
    obtain ⟨hmem, hgreater⟩ := List.mem_filter.1 hrow
    exact Ordered.asymm (hlast row hmem hp) (by simpa using hgreater)
  rw [rows_insert, List.filter_append, hbefore, List.filter_cons, if_pos hkey, hafter]

/-- Rows that are put in one after another in their order come to stand in it. -/
theorem ofList_rows (t : Table κ α) : ofList t.rows = t := by
  suffices ∀ (rows : List (κ × α)) (taken : Table κ α),
      ((taken.rows ++ rows).Pairwise fun r s => r.1 < s.1) →
        (rows.foldl (fun t e => t.insert e.1 e.2) taken).rows = taken.rows ++ rows from
    Table.ext (this t.rows .empty t.sorted)
  intro rows
  induction rows with
  | nil => exact fun taken _ => (List.append_nil taken.rows).symm
  | cons row rows ih =>
    intro taken htaken
    have hlast : ∀ r ∈ taken.rows, r.1 < row.1 := fun r hr =>
      (List.pairwise_append.1 htaken).2.2 r hr row List.mem_cons_self
    have hinsert : (taken.insert row.1 row.2).rows = taken.rows ++ [row] := by
      simpa using taken.filter_insert (fun _ => true) row.1 rfl (fun r hr _ => hlast r hr) row.2
    rw [List.foldl_cons, ih, hinsert, List.append_assoc, List.singleton_append]
    rwa [hinsert, List.append_assoc, List.singleton_append]

end Stagewise.Table
