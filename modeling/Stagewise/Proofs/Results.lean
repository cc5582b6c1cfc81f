import Mathlib.Data.List.Forall2
/-!
# Chains of results

What follows from a chain of computations that may fail when it comes to an end, and when one of
them fails.
-/

namespace Stagewise

variable {ε α β : Type}

/-- What comes of one thing after another came of the first. -/
theorem bind_eq_ok {x : Except ε α} {f : α → Except ε β} {b : β} (h : (x >>= f) = .ok b) :
    ∃ a, x = .ok a ∧ f a = .ok b := by
  cases x with
  | error e => cases h
  | ok a => exact ⟨a, rfl, h⟩

theorem mapM_eq_ok_iff {f : α → Except ε β} {l : List α} {made : List β} :
    l.mapM f = .ok made ↔ List.Forall₂ (fun a b => f a = .ok b) l made := by
  constructor
  · intro h
    induction l generalizing made with
    | nil =>
      obtain rfl := Except.ok.inj h
      exact .nil
    | cons a rest ih =>
      rw [List.mapM_cons] at h
      obtain ⟨b, hb, h⟩ := bind_eq_ok h
      obtain ⟨bs, hbs, h⟩ := bind_eq_ok h
      obtain rfl := Except.ok.inj h
      exact .cons hb (ih hbs)
  · intro h
    induction h with
    | nil => rfl
    | cons hab _ ih =>
      rw [List.mapM_cons, hab, ih]
      rfl

/-- What is made of items and their numbers is made of the items. -/
theorem forall₂_of_mapM_zipIdx {f : α × Nat → Except ε β} {l : List α} {made : List β}
    (h : l.zipIdx.mapM f = .ok made) {R : α → β → Prop} (hR : ∀ a i b, f (a, i) = .ok b → R a b) :
    List.Forall₂ R l made := by
  rw [← List.zipIdx_map_fst 0 l, List.forall₂_map_left_iff]
  exact (mapM_eq_ok_iff.1 h).imp fun p b hp => hR p.1 p.2 b hp

/-- Lists whose items correspond have a property of all items in common. -/
theorem forall_mem_iff_of_forall₂ {R : α → β → Prop} {P : α → Prop} {Q : β → Prop} {l : List α}
    {made : List β} (h : List.Forall₂ R l made) (hPQ : ∀ a b, R a b → (P a ↔ Q b)) :
    (∀ a ∈ l, P a) ↔ ∀ b ∈ made, Q b := by
  induction h with
  | nil => simp
  | cons hab _ ih => rw [List.forall_mem_cons, List.forall_mem_cons, hPQ _ _ hab, ih]

/-- Whatever is made of a list is made of one of its items. -/
theorem exists_of_mem_mapM {f : α → Except ε β} {l : List α} {made : List β}
    (h : l.mapM f = .ok made) {b : β} (hb : b ∈ made) : ∃ a ∈ l, f a = .ok b := by
  induction mapM_eq_ok_iff.1 h with
  | nil => exact absurd hb List.not_mem_nil
  | cons hab hrest ih =>
    rcases List.mem_cons.1 hb with rfl | hb
    · exact ⟨_, List.mem_cons_self, hab⟩
    · obtain ⟨a, ha, hab⟩ := ih (mapM_eq_ok_iff.2 hrest) hb
      exact ⟨a, List.mem_cons_of_mem _ ha, hab⟩

theorem ok_of_mem_mapM {f : α → Except ε β} {l : List α} {made : List β} (h : l.mapM f = .ok made)
    {a : α} (ha : a ∈ l) : ∃ b ∈ made, f a = .ok b := by
  induction mapM_eq_ok_iff.1 h with
  | nil => exact absurd ha List.not_mem_nil
  | cons hab hrest ih =>
    rcases List.mem_cons.1 ha with rfl | ha
    · exact ⟨_, List.mem_cons_self, hab⟩
    · obtain ⟨b, hb, hab⟩ := ih (mapM_eq_ok_iff.2 hrest) ha
      exact ⟨b, List.mem_cons_of_mem _ hb, hab⟩

theorem exists_mapM_eq_ok {f : α → Except ε β} {l : List α} (h : ∀ a ∈ l, ∃ b, f a = .ok b) :
    ∃ made, l.mapM f = .ok made := by
  induction l with
  | nil => exact ⟨[], rfl⟩
  | cons a rest ih =>
    obtain ⟨⟨b, hb⟩, hrest⟩ := List.forall_mem_cons.1 h
    obtain ⟨bs, hbs⟩ := ih hrest
    exact ⟨b :: bs, mapM_eq_ok_iff.2 (.cons hb (mapM_eq_ok_iff.1 hbs))⟩

theorem mapM_error_of_mem {f : α → Except ε β} {l : List α} {a : α} (ha : a ∈ l) {failure : ε}
    (h : f a = .error failure) : ∃ failure', l.mapM f = .error failure' := by
  cases hl : l.mapM f with
  | error failure' => exact ⟨failure', rfl⟩
  | ok made =>
    obtain ⟨b, -, hb⟩ := ok_of_mem_mapM hl ha
    rw [h] at hb
    cases hb

/-- What a computation fails with, if it fails. -/
def failure? : Except ε α → Option ε
  | .ok _ => none
  | .error failure => some failure

theorem failure?_eq_some_iff {x : Except ε α} {failure : ε} :
    failure? x = some failure ↔ x = .error failure := by
  cases x <;> simp [failure?]

theorem failure?_eq_none_iff {x : Except ε α} : failure? x = none ↔ ∃ a, x = .ok a := by
  cases x <;> simp [failure?]

theorem failure?_bind (x : Except ε α) (f : α → Except ε β) :
    failure? (x >>= f) = match x with
      | .ok a => failure? (f a)
      | .error failure => some failure := by
  cases x <;> rfl

/-- A list fails with the first failure among its items. -/
theorem failure?_mapM (f : α → Except ε β) (l : List α) :
    failure? (l.mapM f) = l.findSome? fun a => failure? (f a) := by
  induction l with
  | nil => rfl
  | cons a rest ih =>
    rw [List.mapM_cons, failure?_bind, List.findSome?_cons, ← ih]
    cases f a with
    | error failure => rfl
    | ok b => cases rest.mapM f <;> rfl

/-- A list fails the way one of its items does. -/
theorem exists_of_mapM_error {f : α → Except ε β} {l : List α} {failure : ε}
    (h : l.mapM f = .error failure) : ∃ a ∈ l, f a = .error failure := by
  induction l with
  | nil => cases h
  | cons a rest ih =>
    rw [List.mapM_cons] at h
    cases ha : f a with
    | error e =>
      rw [ha] at h
      exact ⟨a, List.mem_cons_self, ha.trans (congrArg Except.error (Except.error.inj h))⟩
    | ok b =>
      rw [ha] at h
      cases hrest : rest.mapM f with
      | error e =>
        rw [hrest] at h
        obtain ⟨c, hc, hfails⟩ := ih (hrest.trans (congrArg Except.error (Except.error.inj h)))
        exact ⟨c, List.mem_cons_of_mem a hc, hfails⟩
      | ok bs =>
        rw [hrest] at h
        cases h

end Stagewise
