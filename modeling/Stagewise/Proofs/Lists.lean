import Mathlib.Data.List.Nodup
/-!
# Lists

What several parts of the theory need about lists: the entries of an association list, and lists
from which repeated items are taken.
-/

namespace Stagewise

variable {α β : Type} [BEq α] [LawfulBEq α]

theorem lookup_cons_eq_ite [DecidableEq α] (k : α) (f : α × β) (fs : List (α × β)) :
    (f :: fs).lookup k = if k = f.1 then some f.2 else fs.lookup k := by
  obtain ⟨l, b⟩ := f
  rw [List.lookup_cons]
  by_cases h : k = l
  · simp [h]
  · have hne : (k == l) = false := beq_false_of_ne h
    simp [hne, h]

/-- Taking out all entries of one key leaves those of the others. -/
theorem lookup_filter_ne [DecidableEq α] (k l : α) (fs : List (α × β)) :
    (fs.filter (·.1 != l)).lookup k = if k = l then none else fs.lookup k := by
  induction fs with
  | nil => simp
  | cons f fs ih =>
    by_cases hf : f.1 = l
    · rw [List.filter_cons_of_neg (by simp [hf]), ih, lookup_cons_eq_ite]
      split <;> simp_all
    · rw [List.filter_cons_of_pos (by simp [hf]), lookup_cons_eq_ite, ih, lookup_cons_eq_ite]
      split <;> simp_all

/-- An entry is found when no other has its key. -/
theorem lookup_of_mem [DecidableEq α] {fs : List (α × β)} (hnodup : (fs.map Prod.fst).Nodup)
    {k : α} {b : β} (h : (k, b) ∈ fs) : fs.lookup k = some b := by
  induction fs with
  | nil => simp at h
  | cons f fs ih =>
    obtain ⟨hf, hnodup⟩ := List.nodup_cons.1 hnodup
    rw [lookup_cons_eq_ite]
    rcases List.mem_cons.1 h with rfl | h
    · rw [if_pos rfl]
    · rw [if_neg, ih hnodup h]
      rintro rfl
      exact hf (List.mem_map.2 ⟨_, h, rfl⟩)

theorem nodup_eraseDups (items : List α) : items.eraseDups.Nodup := by
  cases items with
  | nil => simp
  | cons a rest =>
    rw [List.eraseDups_cons, List.nodup_cons, List.mem_eraseDups]
    exact ⟨by simp, nodup_eraseDups _⟩
termination_by items.length
decreasing_by exact Nat.lt_succ_of_le (List.length_filter_le _ _)

end Stagewise
