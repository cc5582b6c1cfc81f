/-!
# Tables

Rows sorted by key, each key once, as the tables of an ordered database hold them. Values by name
are such tables; names are compared by code points.
-/

namespace Stagewise

/-- Of two keys that differ, one comes before the other. -/
class Ordered (κ : Type) [LT κ] : Prop where
  irrefl (a : κ) : ¬ a < a
  trans {a b c : κ} : a < b → b < c → a < c
  trichotomous (a b : κ) : a < b ∨ a = b ∨ b < a

instance : Ordered String where
  irrefl := String.lt_irrefl
  trans := String.lt_trans
  trichotomous a b := by
    by_cases hlt : a < b
    · exact .inl hlt
    by_cases hgt : b < a
    · exact .inr (.inr hgt)
    · exact .inr (.inl (String.le_antisymm (String.not_lt.1 hgt) (String.not_lt.1 hlt)))

theorem Ordered.asymm {κ : Type} [LT κ] [Ordered κ] {a b : κ} (h : a < b) : ¬ b < a :=
  fun h' => irrefl a (trans h h')

/-- Rows in the order of their keys. -/
@[ext]
structure Table (κ α : Type) [LT κ] where
  rows : List (κ × α)
  sorted : rows.Pairwise fun r s => r.1 < s.1
  deriving Repr

abbrev Named (α : Type) := Table String α

namespace Table

variable {κ α : Type} [LT κ]

def empty : Table κ α := ⟨[], .nil⟩

instance : Inhabited (Table κ α) := ⟨.empty⟩

section

variable [DecidableEq κ]

def get? (key : κ) (t : Table κ α) : Option α := t.rows.lookup key

variable [DecidableLT κ]

/-- The rows with a value in its place by key, in the stead of one under the same key. -/
def insertRow (key : κ) (value : α) : List (κ × α) → List (κ × α)
  | [] => [(key, value)]
  | (k, v) :: rest =>
    if key < k then (key, value) :: (k, v) :: rest
    else if key = k then (key, value) :: rest
    else (k, v) :: insertRow key value rest

theorem mem_insertRow {key : κ} {value : α} {rows : List (κ × α)} {row : κ × α}
    (h : row ∈ insertRow key value rows) : row = (key, value) ∨ row ∈ rows := by
  induction rows with
  | nil => exact .inl (List.mem_singleton.1 h)
  | cons r rest ih =>
    rw [insertRow] at h
    split at h
    · exact List.mem_cons.1 h
    split at h
    · exact (List.mem_cons.1 h).imp_right (List.mem_cons_of_mem r)
    · rcases List.mem_cons.1 h with rfl | h
      · exact .inr List.mem_cons_self
      · exact (ih h).imp_right (List.mem_cons_of_mem r)

variable [Ordered κ]

theorem sorted_insertRow (key : κ) (value : α) {rows : List (κ × α)}
    (h : rows.Pairwise fun r s => r.1 < s.1) :
    (insertRow key value rows).Pairwise fun r s => r.1 < s.1 := by
  induction rows with
  | nil => exact List.pairwise_singleton ..
  | cons r rest ih =>
    obtain ⟨hr, hrest⟩ := List.pairwise_cons.1 h
    rw [insertRow]
    split
    · next hlt =>
      refine .cons (List.forall_mem_cons.2 ⟨hlt, fun s hs => ?_⟩) h
      exact Ordered.trans hlt (hr s hs)
    split
    · next heq => exact .cons (fun s hs => heq ▸ hr s hs) hrest
    · next hnot hne =>
      refine .cons (fun s hs => ?_) (ih hrest)
      rcases mem_insertRow hs with rfl | hs
      · exact ((Ordered.trichotomous key r.1).resolve_left hnot).resolve_left hne
      · exact hr s hs

/-- Puts a value in its place by key, in the stead of one under the same key. -/
def insert (key : κ) (value : α) (t : Table κ α) : Table κ α :=
  ⟨insertRow key value t.rows, sorted_insertRow key value t.sorted⟩

/-- The values of a list by key, the last under each key. -/
def ofList (entries : List (κ × α)) : Table κ α :=
  entries.foldl (fun t e => t.insert e.1 e.2) .empty

end

end Table

end Stagewise
