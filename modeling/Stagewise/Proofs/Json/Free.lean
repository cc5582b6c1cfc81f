import Stagewise.Proofs.Json.Records
import Stagewise.Proofs.Results
import Stagewise.Proofs.Table
/-!
# Free values read back

A free value is kept with the members of every object sorted by name. Such a value is read as it is
written, and so are named values of one kind.
-/

namespace Stagewise

namespace Json

mutual

/-- Whether the members of every object are sorted by name, each name once. -/
def isSorted : Json → Bool
  | .list items => isSortedList items
  | .object members => isSortedMembers members
  | _ => true

def isSortedList : List Json → Bool
  | [] => true
  | j :: rest => isSorted j && isSortedList rest

def isSortedMembers : List (String × Json) → Bool
  | [] => true
  | (k, v) :: rest => (rest.all fun m => k < m.1) && isSorted v && isSortedMembers rest

end

theorem isSortedMembers_cons {k : String} {v : Json} {rest : List (String × Json)} :
    isSortedMembers ((k, v) :: rest) = true ↔
      (∀ m ∈ rest, k < m.1) ∧ v.isSorted = true ∧ isSortedMembers rest = true := by
  simp [isSortedMembers, and_assoc]

mutual

theorem normalize_of_isSorted (j : Json) (h : j.isSorted = true) : j.normalize = j := by
  match j with
  | .null | .bool _ | .int _ | .real _ | .text _ | .unreadable => rfl
  | .list items => rw [normalize, normalizeList_of_isSorted items h]
  | .object members => rw [normalize, normalizeMembers_of_isSorted members h]

theorem normalizeList_of_isSorted (items : List Json) (h : isSortedList items = true) :
    normalizeList items = items := by
  match items with
  | [] => rfl
  | j :: rest =>
    obtain ⟨hj, hrest⟩ := Bool.and_eq_true_iff.1 h
    rw [normalizeList, normalize_of_isSorted j hj, normalizeList_of_isSorted rest hrest]

theorem normalizeMembers_of_isSorted (members : List (String × Json))
    (h : isSortedMembers members = true) : (normalizeMembers members).rows = members := by
  match members with
  | [] => rfl
  | (k, v) :: rest =>
    obtain ⟨hk, hv, hrest⟩ := isSortedMembers_cons.1 h
    have hrows := normalizeMembers_of_isSorted rest hrest
    have hnone : (normalizeMembers rest).get? k = none := Table.get?_eq_none (by rwa [hrows])
    simp only [normalizeMembers, normalize_of_isSorted v hv, hnone, Table.insert, hrows,
      Table.insertRow_of_lt hk]

end

theorem isSortedMembers_iff {members : List (String × Json)} :
    isSortedMembers members = true ↔
      (members.Pairwise fun m n => m.1 < n.1) ∧ ∀ m ∈ members, m.2.isSorted = true := by
  induction members with
  | nil => simp [isSortedMembers]
  | cons m members ih =>
    rw [isSortedMembers_cons, ih, List.pairwise_cons, List.forall_mem_cons]
    tauto

mutual

/-- The form in which a free value is kept is sorted. -/
theorem isSorted_normalize (j : Json) : j.normalize.isSorted = true := by
  match j with
  | .null | .bool _ | .int _ | .real _ | .text _ | .unreadable => rfl
  | .list items => exact isSortedList_normalize items
  | .object members => exact isSortedMembers_normalize members

theorem isSortedList_normalize (items : List Json) :
    isSortedList (normalizeList items) = true := by
  match items with
  | [] => rfl
  | j :: rest =>
    rw [normalizeList, isSortedList, isSorted_normalize j, isSortedList_normalize rest,
      Bool.and_self]

theorem isSortedMembers_normalize (members : List (String × Json)) :
    isSortedMembers (normalizeMembers members).rows = true := by
  match members with
  | [] => rfl
  | (k, v) :: rest =>
    have hrest := isSortedMembers_normalize rest
    simp only [normalizeMembers]
    split
    · exact hrest
    · refine isSortedMembers_iff.2 ⟨Table.sorted _, fun m hm => ?_⟩
      rcases Table.mem_insert.1 hm with rfl | ⟨hm, -⟩
      · exact isSorted_normalize v
      · exact (isSortedMembers_iff.1 hrest).2 m hm

end

mutual

theorem isReadable_of_isExact (j : Json) (h : j.isExact = true) : j.isReadable = true := by
  match j with
  | .null | .bool _ | .int _ | .text _ => rfl
  | .list items => exact isReadableList_of_isExact items h
  | .object members => exact isReadableMembers_of_isExact members h

theorem isReadableList_of_isExact (items : List Json) (h : isExactList items = true) :
    isReadableList items = true := by
  match items with
  | [] => rfl
  | j :: rest =>
    obtain ⟨hj, hrest⟩ := Bool.and_eq_true_iff.1 h
    rw [isReadableList, isReadable_of_isExact j hj, isReadableList_of_isExact rest hrest,
      Bool.and_self]

theorem isReadableMembers_of_isExact (members : List (String × Json))
    (h : isExactMembers members = true) : isReadableMembers members = true := by
  match members with
  | [] => rfl
  | (_, v) :: rest =>
    obtain ⟨hv, hrest⟩ := Bool.and_eq_true_iff.1 h
    rw [isReadableMembers, isReadable_of_isExact v hv, isReadableMembers_of_isExact rest hrest,
      Bool.and_self]

end

theorem isExactList_iff {items : List Json} :
    isExactList items = true ↔ ∀ j ∈ items, j.isExact = true := by
  induction items with
  | nil => simp [isExactList]
  | cons j items ih => simp [isExactList, ih]

theorem isExactMembers_iff {members : List (String × Json)} :
    isExactMembers members = true ↔ ∀ m ∈ members, m.2.isExact = true := by
  induction members with
  | nil => simp [isExactMembers]
  | cons m members ih => simp [isExactMembers, ih]

end Json

/-- Free fields as a record keeps them: sorted all the way down, without fractions, with integers of
64 bits. -/
structure Fields.Plain (fs : Fields) : Prop where
  sorted : ∀ m ∈ fs.rows, m.2.isSorted = true
  exact : Json.isExactMembers fs.rows = true

theorem Fields.Plain.empty : Fields.Plain .empty := ⟨nofun, rfl⟩

namespace Decode

theorem fields_object {fs : Fields} (h : fs.Plain) : fields (.object fs.rows) = .ok fs := by
  have hreadable : (Json.object fs.rows).isReadable = true :=
    Json.isReadableMembers_of_isExact fs.rows h.exact
  have hsorted := Json.isSortedMembers_iff.2 ⟨fs.sorted, h.sorted⟩
  have hsame : Json.normalizeMembers fs.rows = fs :=
    Table.ext (Json.normalizeMembers_of_isSorted fs.rows hsorted)
  simp only [fields, hreadable, if_true, hsame]

section

variable {α : Type} {read : Json → Decoded α} {write : α → Json}

theorem list_map {as : List α} (h : ∀ a ∈ as, read (write a) = .ok a) :
    list read (.list (as.map write)) = .ok as := by
  apply mapM_eq_ok_iff.2
  rw [List.forall₂_map_left_iff]
  exact List.forall₂_same.2 h

theorem table_map {fs : Named α} (h : ∀ e ∈ fs.rows, read (write e.2) = .ok e.2) :
    table read (.object (fs.rows.map fun (k, a) => (k, write a))) = .ok fs := by
  have hentries : (fs.rows.map fun (k, a) => (k, write a)).mapM
      (fun m => (read m.2).map fun a => (m.1, a)) = .ok fs.rows := by
    apply mapM_eq_ok_iff.2
    rw [List.forall₂_map_left_iff]
    exact List.forall₂_same.2 fun e he => by simp only [h e he, ok_map]
  simp only [table, hentries, ok_bind, Table.ofList_rows]
  rfl

theorem optional_ofOption {a? : Option α} (h : ∀ a ∈ a?, read (write a) = .ok a)
    (hnull : ∀ a, write a ≠ .null) : optional read (Json.ofOption write a?) = .ok a? := by
  cases a? with
  | none => rfl
  | some a =>
    rw [Json.ofOption, optional, h a rfl, ok_map]
    exact hnull a

end

end Decode

end Stagewise
