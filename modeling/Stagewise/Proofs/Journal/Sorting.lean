import Mathlib.Data.List.Induction
import Stagewise.Journal.Basic
/-!
# Events sorted by time

Sorting puts the earlier events before the later ones and leaves those of one time in the order in
which they were given. This fixes the result.
-/

namespace Stagewise

namespace Timestamp

theorem before_iff {a b : Timestamp} : a.before b = true ↔
    a.seconds < b.seconds ∨ a.seconds = b.seconds ∧ a.nanos < b.nanos := by
  simp [before]

theorem notAfter_iff {a b : Timestamp} : a.notAfter b = true ↔
    a.seconds < b.seconds ∨ a.seconds = b.seconds ∧ a.nanos ≤ b.nanos := by
  rw [notAfter, Bool.not_eq_true', ← Bool.not_eq_true, before_iff]
  omega

theorem notAfter_of_not_before {a b : Timestamp} (h : a.before b = false) :
    b.notAfter a = true := by
  simp [notAfter, h]

theorem notAfter_of_before {a b : Timestamp} (h : a.before b = true) : a.notAfter b = true := by
  rw [before_iff] at h
  rw [notAfter_iff]
  omega

theorem notAfter_trans {a b c : Timestamp} (hab : a.notAfter b = true) (hbc : b.notAfter c = true) :
    a.notAfter c = true := by
  rw [notAfter_iff] at hab hbc ⊢
  omega

theorem eq_of_notAfter {a b : Timestamp} (hab : a.notAfter b = true) (hba : b.notAfter a = true) :
    a = b := by
  rw [notAfter_iff] at hab hba
  obtain ⟨s, n⟩ := a
  obtain ⟨s', n'⟩ := b
  dsimp only at hab hba
  simp only [Timestamp.mk.injEq]
  omega

theorem ne_of_before {a b : Timestamp} (h : a.before b = true) : a ≠ b := by
  rintro rfl
  rw [before_iff] at h
  omega

end Timestamp

namespace Journal

/-- No event stands behind a later one. -/
def Chronological (events : List Event) : Prop :=
  events.Pairwise fun e f => e.timestamp.notAfter f.timestamp = true

/-- The events of one point in time, in their order. -/
def atTime (t : Timestamp) (events : List Event) : List Event :=
  events.filter (·.timestamp = t)

/-- The given events, each as often as it was given, the earlier before the later and those of one
time in the order in which they were given. -/
structure SortedFrom (given sorted : List Event) : Prop where
  perm : sorted.Perm given
  chronological : Chronological sorted
  stable : ∀ t, atTime t sorted = atTime t given

@[simp] theorem atTime_nil (t : Timestamp) : atTime t [] = [] := rfl

theorem atTime_cons (t : Timestamp) (e : Event) (events : List Event) :
    atTime t (e :: events) = if e.timestamp = t then e :: atTime t events else atTime t events := by
  simp [atTime, List.filter_cons]

@[simp] theorem atTime_append (t : Timestamp) (es fs : List Event) :
    atTime t (es ++ fs) = atTime t es ++ atTime t fs := by
  simp [atTime]

theorem perm_of_atTime {es fs : List Event} (h : ∀ t, atTime t es = atTime t fs) : es.Perm fs := by
  rw [List.perm_iff_count]
  intro e
  have hcount : ∀ gs : List Event, (atTime e.timestamp gs).count e = gs.count e := fun gs =>
    List.count_filter (by simp)
  rw [← hcount es, h, hcount]

theorem mem_insertByTime {e f : Event} {events : List Event} :
    f ∈ insertByTime e events ↔ f = e ∨ f ∈ events := by
  induction events with
  | nil => simp [insertByTime]
  | cons g events ih =>
    rw [insertByTime]
    split
    · simp
    · simp only [List.mem_cons, ih, or_left_comm]

theorem chronological_insertByTime (e : Event) {events : List Event} (h : Chronological events) :
    Chronological (insertByTime e events) := by
  induction events with
  | nil => simp [insertByTime, Chronological]
  | cons f events ih =>
    obtain ⟨hf, hrest⟩ := List.pairwise_cons.1 h
    rw [insertByTime]
    split
    next hbefore =>
      have hef := Timestamp.notAfter_of_before hbefore
      refine List.pairwise_cons.2 ⟨fun g hg => ?_, h⟩
      rcases List.mem_cons.1 hg with rfl | hg
      · exact hef
      · exact Timestamp.notAfter_trans hef (hf g hg)
    next hnot =>
      refine List.pairwise_cons.2 ⟨fun g hg => ?_, ih hrest⟩
      rcases mem_insertByTime.1 hg with rfl | hg
      · exact Timestamp.notAfter_of_not_before (by simpa using hnot)
      · exact hf g hg

theorem atTime_insertByTime (t : Timestamp) (e : Event) {events : List Event}
    (h : Chronological events) :
    atTime t (insertByTime e events) = atTime t events ++ atTime t [e] := by
  induction events with
  | nil => simp [insertByTime]
  | cons f events ih =>
    obtain ⟨hf, hrest⟩ := List.pairwise_cons.1 h
    rw [insertByTime]
    split
    next hbefore =>
      -- Nothing at or behind the place of the event is of its time.
      have hlater : ∀ g ∈ f :: events, g.timestamp ≠ e.timestamp := by
        intro g hg heq
        have hfg : f.timestamp.notAfter g.timestamp = true := by
          rcases List.mem_cons.1 hg with rfl | hg
          · simp [Timestamp.notAfter_iff]
          · exact hf g hg
        rw [heq] at hfg
        exact Timestamp.ne_of_before hbefore
          (Timestamp.eq_of_notAfter (Timestamp.notAfter_of_before hbefore) hfg)
      by_cases het : e.timestamp = t
      · have hnone : atTime t (f :: events) = [] := by
          subst het
          simpa [atTime] using hlater
        simp [atTime_cons t e, het, hnone]
      · simp [atTime_cons t e, het]
    next => simp [atTime_cons t f, ih hrest, apply_ite (· ++ atTime t [e])]

theorem sortByTime_concat (events : List Event) (e : Event) :
    sortByTime (events ++ [e]) = insertByTime e (sortByTime events) := by
  simp [sortByTime]

theorem sortedFrom_sortByTime (events : List Event) : SortedFrom events (sortByTime events) := by
  suffices Chronological (sortByTime events) ∧
      ∀ t, atTime t (sortByTime events) = atTime t events from
    ⟨perm_of_atTime this.2, this.1, this.2⟩
  induction events using List.reverseRecOn with
  | nil => exact ⟨List.Pairwise.nil, fun t => rfl⟩
  | append_singleton events e ih =>
    rw [sortByTime_concat]
    refine ⟨chronological_insertByTime e ih.1, fun t => ?_⟩
    rw [atTime_insertByTime t e ih.1, ih.2 t, atTime_append]

/-- Sorting looks only at which events there are at each time, and in which order. -/
theorem SortedFrom.of_atTime {given given' sorted : List Event} (h : SortedFrom given sorted)
    (hsame : ∀ t, atTime t given = atTime t given') : SortedFrom given' sorted :=
  ⟨h.perm.trans (perm_of_atTime hsame), h.chronological, fun t => (h.stable t).trans (hsame t)⟩

theorem eq_of_chronological {es fs : List Event} (hes : Chronological es) (hfs : Chronological fs)
    (h : ∀ t, atTime t es = atTime t fs) : es = fs := by
  induction es generalizing fs with
  | nil => exact (perm_of_atTime h).nil_eq
  | cons e es ih =>
    have hperm := perm_of_atTime h
    obtain ⟨f, fs, rfl⟩ := List.exists_cons_of_ne_nil (l := fs) (by rintro rfl; simp at hperm)
    obtain ⟨he, hes'⟩ := List.pairwise_cons.1 hes
    obtain ⟨hf, hfs'⟩ := List.pairwise_cons.1 hfs
    have hfirst : ∀ {g : Event} {gs : List Event},
        (∀ k ∈ gs, g.timestamp.notAfter k.timestamp = true) →
          ∀ k ∈ g :: gs, g.timestamp.notAfter k.timestamp = true := by
      intro g gs hgs k hk
      rcases List.mem_cons.1 hk with rfl | hk
      · simp [Timestamp.notAfter_iff]
      · exact hgs k hk
    -- Each of the two heads stands in the other list, so neither is later than the other.
    have htime : e.timestamp = f.timestamp := Timestamp.eq_of_notAfter
      (hfirst he f (hperm.mem_iff.2 (by simp))) (hfirst hf e (hperm.mem_iff.1 (by simp)))
    have hhead := h e.timestamp
    rw [atTime_cons, if_pos rfl, atTime_cons, if_pos htime.symm, List.cons.injEq] at hhead
    obtain ⟨rfl, -⟩ := hhead
    congr 1
    refine ih hes' hfs' fun t => ?_
    have := h t
    rw [atTime_cons, atTime_cons] at this
    split at this
    · exact (List.cons.inj this).2
    · exact this

/-- There is one way to sort events. -/
theorem SortedFrom.unique {given es fs : List Event} (hes : SortedFrom given es)
    (hfs : SortedFrom given fs) : es = fs :=
  eq_of_chronological hes.chronological hfs.chronological fun t =>
    (hes.stable t).trans (hfs.stable t).symm

end Journal

end Stagewise
