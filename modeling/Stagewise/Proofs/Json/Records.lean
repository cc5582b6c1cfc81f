import Stagewise.Json.Decode
import Stagewise.Proofs.Json.ReadBack
/-!
# Records read back

A value whose document stands for it is read back from the text of that document. An object with
every field of a record once gives the record its fields; words, texts and named cases are read as
they are written.
-/

namespace Stagewise

theorem Document.readText?_text {α : Type} [Document α] {a : α}
    (h : Document.ofJson (toJson a) = .ok a) (hexact : (toJson a).isExact = true)
    (hdepth : (toJson a).depth ≤ Json.depthLimit) :
    (Document.readText? (Document.text a) : Option α) = some a := by
  simp [Document.readText?, Document.text, Json.read?_compact hexact hdepth, h, Except.toOption]

theorem Document.exists_of_readText? {α : Type} [Document α] {s : String} {a : α}
    (h : Document.readText? s = some a) :
    ∃ j, Json.read? s = some j ∧ Document.ofJson j = .ok a := by
  obtain ⟨j, hread, hdecoded⟩ := Option.bind_eq_some_iff.1 h
  refine ⟨j, hread, ?_⟩
  cases hj : (Document.ofJson j : Decoded α) with
  | error e =>
    rw [hj] at hdecoded
    cases hdecoded
  | ok b =>
    rw [hj] at hdecoded
    rw [← Option.some.inj hdecoded]

namespace Decode

@[simp] theorem ok_bind {α β : Type} (a : α) (f : α → Decoded β) : (Except.ok a >>= f) = f a := rfl

@[simp] theorem map_ok {α β : Type} (f : α → β) (a : α) :
    f <$> (Except.ok a : Decoded α) = .ok (f a) := rfl

@[simp] theorem ok_map {α β : Type} (f : α → β) (a : α) :
    Except.map f (Except.ok a : Decoded α) = .ok (f a) := rfl

@[simp] theorem text_text (s : String) : text (.text s) = .ok s := rfl

theorem filter_fst_eq {members : List (String × Json)} (h : (members.map Prod.fst).Nodup)
    {k : String} {v : Json} (hmem : (k, v) ∈ members) :
    members.filter (·.1 == k) = [(k, v)] := by
  induction members with
  | nil => simp at hmem
  | cons m members ih =>
    obtain ⟨hm, hmembers⟩ := List.nodup_cons.1 h
    rcases List.mem_cons.1 hmem with rfl | hmem
    · have hnone : members.filter (·.1 == k) = [] := List.filter_eq_nil_iff.2 fun n hn hk =>
        hm (List.mem_map.2 ⟨n, hn, eq_of_beq hk⟩)
      simp [hnone]
    · have hne : m.1 ≠ k := fun hk => hm (List.mem_map.2 ⟨(k, v), hmem, hk.symm⟩)
      simp [hne, ih hmembers hmem]

/-- The members of an object that holds every field of a record once. -/
theorem membersNamed_map_fst {members : List (String × Json)}
    (h : (members.map Prod.fst).Nodup) :
    membersNamed (members.map Prod.fst) members = .ok (members.map fun m => (m.1, some m.2)) := by
  suffices ∀ ms ⊆ members,
      membersNamed (ms.map Prod.fst) members = .ok (ms.map fun m => (m.1, some m.2)) from
    this members fun _ => id
  intro ms hms
  induction ms with
  | nil => rfl
  | cons m ms ih =>
    obtain ⟨hm, hrest⟩ := List.cons_subset.1 hms
    have hrest := ih hrest
    simp only [membersNamed] at hrest
    simp only [membersNamed, List.map_cons, List.mapM_cons, filter_fst_eq h hm, hrest]
    rfl

theorem record_object {α : Type} {name : String} {names : List String} {build : Given → Decoded α}
    {members : List (String × Json)} (hnames : members.map Prod.fst = names)
    (hnodup : names.Nodup) :
    record name names build (.object members) =
      build ⟨name, members.map fun m => (m.1, some m.2), false⟩ := by
  subst hnames
  simp only [record, membersNamed_map_fst hnodup]
  rfl

theorem unsigned_ofNat {bits n : Nat} (h : n < 2 ^ bits) : unsigned bits (.int n) = .ok n := by
  have hbound : (0 : Int) ≤ n ∧ (n : Int) ≤ ((Nat.pow 2 bits : Nat) : Int) - 1 := by
    have : n < Nat.pow 2 bits := h
    omega
  simp only [unsigned, word, if_pos hbound, Except.map, Int.toNat_natCast]

end Decode

end Stagewise
