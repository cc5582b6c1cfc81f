import Mathlib.Data.String.Basic
/-!
# Texts split at a mark

A text that is split at one character falls into the runs of characters between the marks, as its
list of characters does.
-/

namespace Stagewise

open String

/-- Splitting goes on behind what is taken: `l` is done with, `m` stands between the last mark and
the place that is looked at, `r` is still to come. -/
theorem splitOnAux_singleton (mark : Char) (l m r : List Char) (taken : List String) :
    splitOnAux (ofList (l ++ m ++ r)) (singleton mark) ⟨utf8Len l⟩ ⟨utf8Len l + utf8Len m⟩ 0 taken =
      taken.reverse ++ (List.splitOnPPrepend (· == mark) r m.reverse).map ofList := by
  have hfirst : Pos.Raw.get (singleton mark) 0 = mark := get_of_valid [] [mark]
  have hnext : Pos.Raw.next (singleton mark) 0 = ⟨mark.utf8Size⟩ := by
    simpa using next_of_valid [] mark []
  have hlast : Pos.Raw.atEnd (singleton mark) ⟨mark.utf8Size⟩ = true := by
    simpa using (atEnd_of_valid [mark] []).2 rfl
  induction r generalizing l m taken with
  | nil =>
    have hend : Pos.Raw.atEnd (ofList (l ++ m ++ [])) ⟨utf8Len l + utf8Len m⟩ = true := by
      simpa using (atEnd_of_valid (l ++ m) []).2 rfl
    rw [splitOnAux, if_pos hend]
    simp only [extract_of_valid, List.reverse_cons, List.splitOnPPrepend_nil, List.reverse_reverse,
      List.map_singleton]
  | cons c r ih =>
    have hend : ¬ Pos.Raw.atEnd (ofList (l ++ m ++ c :: r)) ⟨utf8Len l + utf8Len m⟩ = true := by
      rw [← utf8Len_append, atEnd_of_valid]
      nofun
    have hget : Pos.Raw.get (ofList (l ++ m ++ c :: r)) ⟨utf8Len l + utf8Len m⟩ = c := by
      rw [← utf8Len_append, get_of_valid, List.headD_cons]
    have hstep : Pos.Raw.next (ofList (l ++ m ++ c :: r)) ⟨utf8Len l + utf8Len m⟩ =
        ⟨utf8Len l + utf8Len m + c.utf8Size⟩ := by
      rw [← utf8Len_append, next_of_valid]
    rw [splitOnAux, if_neg hend, hget, hfirst]
    by_cases hmark : c = mark
    · subst hmark
      have hback : (Pos.Raw.mk (utf8Len l + utf8Len m + c.utf8Size)).unoffsetBy ⟨c.utf8Size⟩ =
          ⟨utf8Len l + utf8Len m⟩ := by
        simp [Pos.Raw.unoffsetBy]
      have hrest := ih (l ++ m ++ [c]) [] (ofList m :: taken)
      simp only [utf8Len_append, utf8Len_cons, utf8Len_nil, Nat.zero_add, Nat.add_zero,
        List.append_nil, List.append_assoc, List.singleton_append] at hrest
      simp only [beq_self_eq_true, if_true, hstep, hnext, hlast, hback, extract_of_valid]
      rw [List.append_assoc, Nat.add_assoc, hrest]
      simp [List.splitOnPPrepend_cons_eq_if]
    · have hother : (c == mark) = false := beq_false_of_ne hmark
      have hback : (Pos.Raw.mk (utf8Len l + utf8Len m)).unoffsetBy 0 = ⟨utf8Len l + utf8Len m⟩ :=
        rfl
      have hrest := ih l (m ++ [c]) taken
      simp only [utf8Len_append, utf8Len_cons, utf8Len_nil, Nat.zero_add, ← Nat.add_assoc,
        List.append_assoc, List.singleton_append] at hrest
      simp only [hother, Bool.false_eq_true, if_false, hback, hstep]
      rw [List.append_assoc, hrest, List.splitOnPPrepend_cons_eq_if]
      simp [hother]

/-- A text split at a mark is the runs of characters between the marks. -/
theorem splitOn_singleton (s : String) (mark : Char) :
    s.splitOn (singleton mark) = (s.toList.splitOnP (· == mark)).map ofList := by
  have hne : (singleton mark == "") = false := by simp
  have hsplit := splitOnAux_singleton mark [] [] s.toList []
  simp only [utf8Len_nil, List.nil_append, List.reverse_nil, ofList_toList] at hsplit
  rw [splitOn, hne, if_neg Bool.false_ne_true]
  exact hsplit

end Stagewise
