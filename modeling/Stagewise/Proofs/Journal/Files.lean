import Mathlib.Tactic.ByContra
import Stagewise.Journal.Basic
import Stagewise.Proofs.Document.Event
import Stagewise.Proofs.Lists
/-!
# Files of a journal

The events written to a file are read from it as they are, one from each line. The files of
different dags or days have different paths, so writing one leaves the others as they are.
-/

namespace Stagewise

/-! ### Lines -/

namespace Text

theorem linesFrom_append {cs : List Char} (h : Json.Printable cs) (taken rest : List Char)
    (htaken : Json.Printable taken) :
    linesFrom taken (cs ++ '\n' :: rest) =
      String.ofList (taken.reverse ++ cs) :: linesFrom [] rest := by
  induction cs generalizing taken with
  | nil =>
    have hreturn : withoutReturn taken = taken := by
      unfold withoutReturn
      split
      next c _ => exact absurd (htaken '\r' (by simp)) (by decide)
      next => rfl
    simp [linesFrom, hreturn]
  | cons c cs ih =>
    obtain ⟨hc, hcs⟩ := Json.printable_cons.1 h
    have hne : c ≠ '\n' := by
      rintro rfl
      exact absurd hc (by decide)
    rw [List.cons_append, linesFrom, if_neg hne, ih hcs _ (Json.printable_cons.2 ⟨hc, htaken⟩)]
    simp

end Text

namespace Journal

theorem toList_textOfEvents (events : List Event) :
    (textOfEvents events).toList =
      events.flatMap fun e => (Document.text e).toList ++ ['\n'] := by
  simp [textOfEvents, String.toList_join, List.flatMap_map]

theorem text_ne_empty (e : Event) : Document.text e ≠ "" := by
  intro h
  have := congrArg String.toList h
  simp [Document.text, Json.compact, toJson, Document.toJson, Json.written] at this

theorem lines_textOfEvents {events : List Event} (h : ∀ e ∈ events, e.Valid) :
    Text.lines (textOfEvents events) = events.map Document.text := by
  rw [Text.lines, toList_textOfEvents]
  induction events with
  | nil => rfl
  | cons e events ih =>
    obtain ⟨he, hevents⟩ := List.forall_mem_cons.1 h
    rw [List.flatMap_cons, List.append_assoc, List.singleton_append,
      Text.linesFrom_append he.printable_text [] _ Json.printable_nil, ih hevents]
    simp

/-- The events of a file are read as they were written, whatever their texts hold. -/
theorem eventsOfText_textOfEvents {events : List Event} (h : ∀ e ∈ events, e.Valid) :
    eventsOfText (textOfEvents events) = .ok events := by
  have hfilter : (events.map Document.text).filter (!·.isEmpty) = events.map Document.text :=
    List.filter_eq_self.2 fun s hs => by
      obtain ⟨e, -, rfl⟩ := List.mem_map.1 hs
      simp [text_ne_empty]
  rw [eventsOfText, lines_textOfEvents h, hfilter, List.mapM_map]
  clear hfilter
  induction events with
  | nil => rfl
  | cons e events ih =>
    obtain ⟨he, hevents⟩ := List.forall_mem_cons.1 h
    simp only [List.mapM_cons, ih hevents, Function.comp_apply, he.readText?_text]
    rfl

/-! ### Paths -/

theorem yearName_injective : Function.Injective yearName := by
  -- A minus is no digit, so the two forms of a year are told apart by their first characters.
  have hminus : ∀ m n, Text.padded 4 m ≠ '-' :: Text.padded 3 n := fun m n h => by
    have := Text.isDigit_of_mem_padded (h ▸ List.mem_cons_self : '-' ∈ Text.padded 4 m)
    simp at this
  intro y z h
  simp only [yearName, String.ofList_inj] at h
  split at h <;> split at h
  · have := Text.padded_injective 3 (List.cons.inj h).2
    omega
  · exact absurd h.symm (hminus _ _)
  · exact absurd h (hminus _ _)
  · have := Text.padded_injective 4 h
    omega

theorem fileName_injective : Function.Injective fileName := by
  intro d e h
  have htext : d.uuid.text = e.uuid.text := by
    simpa [fileName, toString, String.ext_iff] using h
  have := Uuid.text_injective htext
  cases d
  cases e
  simp_all

theorem path_injective {dag dag' : DagId} {day day' : Day} (h : path dag day = path dag' day') :
    dag = dag' ∧ day = day' := by
  simp only [path, List.cons.injEq, true_and, and_true, String.ofList_inj] at h
  obtain ⟨hyear, hmonth, hday, hname⟩ := h
  have hyear := yearName_injective hyear
  have hmonth := Text.padded_injective 2 hmonth
  have hday := Text.padded_injective 2 hday
  refine ⟨fileName_injective hname, ?_⟩
  cases day
  cases day'
  simp_all

end Journal

/-! ### Writing files -/

namespace Volume

theorem get?_write_self (v : Volume) (p : FilePath) (c : FileContent) :
    (v.write p c).get? p = some c := by
  simp only [write, get?]
  induction v.files with
  | nil => simp [put]
  | cons f files ih =>
    rw [put]
    split
    next => rw [lookup_cons_eq_ite, if_pos rfl]
    next h => rw [lookup_cons_eq_ite, if_neg h, ih]

theorem get?_write_of_ne {v : Volume} {p q : FilePath} (h : q ≠ p) (c : FileContent) :
    (v.write p c).get? q = v.get? q := by
  simp only [write, get?]
  induction v.files with
  | nil => rw [put, lookup_cons_eq_ite, if_neg h]
  | cons f files ih =>
    rw [put]
    split
    next heq => rw [lookup_cons_eq_ite, lookup_cons_eq_ite, ← heq, if_neg h, if_neg h]
    next => rw [lookup_cons_eq_ite, lookup_cons_eq_ite, ih]

theorem mem_files_write {v : Volume} {p : FilePath} {c : FileContent} {f : FilePath × FileContent}
    (h : f ∈ (v.write p c).files) : f = (p, c) ∨ f ∈ v.files := by
  simp only [write] at h
  generalize v.files = files at h ⊢
  induction files with
  | nil => exact .inl (List.mem_singleton.1 h)
  | cons g files ih =>
    rw [put] at h
    split at h
    · rcases List.mem_cons.1 h with rfl | h
      · exact .inl rfl
      · exact .inr (List.mem_cons_of_mem _ h)
    · rcases List.mem_cons.1 h with rfl | h
      · exact .inr List.mem_cons_self
      · exact (ih h).imp_right (List.mem_cons_of_mem _)

theorem map_fst_put (p : FilePath) (c : FileContent) (files : List (FilePath × FileContent)) :
    (put p c files).map Prod.fst =
      if p ∈ files.map Prod.fst then files.map Prod.fst else files.map Prod.fst ++ [p] := by
  induction files with
  | nil => simp [put]
  | cons f files ih =>
    rw [put]
    split
    next heq => simp [heq]
    next h =>
      rw [List.map_cons, ih]
      by_cases hmem : p ∈ files.map Prod.fst
      · simp [hmem]
      · rw [if_neg hmem, if_neg]
        · rfl
        · rw [List.map_cons, List.mem_cons]
          exact not_or.2 ⟨h, hmem⟩

theorem nodup_write {v : Volume} (h : (v.files.map Prod.fst).Nodup) (p : FilePath)
    (c : FileContent) : ((v.write p c).files.map Prod.fst).Nodup := by
  rw [write, map_fst_put]
  split
  next => exact h
  next hp => exact List.Nodup.append h (List.nodup_singleton p) (by simpa using hp)

end Volume

namespace Journal

/-- A volume on which nothing was written but events, each file at the path of its dag and day. -/
structure Sound (v : Volume) : Prop where
  paths : (v.files.map Prod.fst).Nodup
  files : ∀ f ∈ v.files, ∃ dag day es, f = (path dag day, .packed (textOfEvents es)) ∧
    ∀ e ∈ es, e.Valid

/-- The events in the file of a dag and a day. -/
def eventsAt (v : Volume) (dag : DagId) (day : Day) : List Event :=
  (readPath v (path dag day)).toOption.getD []

theorem sound_empty : Sound .empty := ⟨List.nodup_nil, by simp [Volume.empty]⟩

namespace Sound

variable {v : Volume} (h : Sound v)
include h

theorem length_path {f : FilePath × FileContent} (hf : f ∈ v.files) : f.1.length = 5 := by
  obtain ⟨dag, day, es, rfl, -⟩ := h.files f hf
  rfl

/-- No file lies where a directory is needed. -/
theorem canHold (dag : DagId) (day : Day) : v.canHold (path dag day) = true := by
  simp only [Volume.canHold, List.all_eq_true, List.mem_range, Option.isNone_iff_eq_none]
  intro n hn
  refine List.lookup_eq_none_iff.2 fun f hf => ?_
  have hlength := h.length_path hf
  have hshort : ((path dag day).take n).length < 5 := by
    rw [List.length_take]
    exact Nat.lt_of_le_of_lt (Nat.min_le_left ..) hn
  simp only [bne_iff_ne, ne_eq]
  rintro heq
  rw [heq] at hshort
  omega

theorem isDirectory (dag : DagId) (day : Day) : v.isDirectory (path dag day) = false := by
  rw [Volume.isDirectory, List.any_eq_false]
  intro f hf
  have hlength := h.length_path hf
  have : (path dag day).length = 5 := rfl
  simp only [Bool.and_eq_true, decide_eq_true_eq]
  omega

/-- Every file of a dag and a day can be read, and what is not there is read as no events. -/
theorem readPath_eq (dag : DagId) (day : Day) :
    readPath v (path dag day) = .ok (eventsAt v dag day) ∧ ∀ e ∈ eventsAt v dag day, e.Valid := by
  suffices ∃ es, readPath v (path dag day) = .ok es ∧ ∀ e ∈ es, e.Valid by
    obtain ⟨es, hread, hes⟩ := this
    have : eventsAt v dag day = es := by simp [eventsAt, hread, Except.toOption]
    exact this ▸ ⟨hread, hes⟩
  rw [readPath]
  cases hget : v.get? (path dag day) with
  | none => exact ⟨[], by simp [h.isDirectory dag day], by simp⟩
  | some c =>
    obtain ⟨f, hf, -, rfl⟩ : ∃ f ∈ v.files, f.1 = path dag day ∧ f.2 = c := by
      obtain ⟨l₁, l₂, hfiles, -⟩ := List.lookup_eq_some_iff.1 hget
      exact ⟨(path dag day, c), by simp [hfiles], rfl, rfl⟩
    obtain ⟨_, _, es, rfl, hes⟩ := h.files f hf
    exact ⟨es, eventsOfText_textOfEvents hes, hes⟩

theorem readFile_of_mem {f : FilePath × FileContent} (hf : f ∈ v.files) {dag : DagId} {day : Day}
    (hpath : f.1 = path dag day) : readFile f.2 = .ok (eventsAt v dag day) := by
  obtain ⟨_, _, es, rfl, hes⟩ := h.files f hf
  have hget : v.get? (path dag day) = some (.packed (textOfEvents es)) :=
    lookup_of_mem h.paths (hpath ▸ hf)
  simp [eventsAt, readPath, hget, readFile, eventsOfText_textOfEvents hes, Except.toOption]

theorem exists_mem_of_eventsAt {dag : DagId} {day : Day} (hne : eventsAt v dag day ≠ []) :
    ∃ f ∈ v.files, f.1 = path dag day := by
  by_contra! hnone
  have hget : v.get? (path dag day) = none := List.lookup_eq_none_iff.2 fun f hf => by
    simpa using (hnone f hf).symm
  exact hne (by simp [eventsAt, readPath, hget, h.isDirectory dag day, Except.toOption])

theorem addToDay_eq (dag : DagId) (day : Day) (es : List Event) : Journal.addToDay v dag day es =
    .ok (v.write (path dag day) (.packed (textOfEvents (eventsAt v dag day ++ es)))) := by
  simp [Journal.addToDay, h.canHold dag day, (h.readPath_eq dag day).1]

variable (dag : DagId) (day : Day) {es : List Event} (hes : ∀ e ∈ es, e.Valid)
include hes

theorem write : Sound (v.write (path dag day) (.packed (textOfEvents es))) := by
  refine ⟨Volume.nodup_write h.paths _ _, fun f hf => ?_⟩
  rcases Volume.mem_files_write hf with rfl | hf
  · exact ⟨dag, day, es, rfl, hes⟩
  · exact h.files f hf

/-- What is written is what is read there, and all other files are as they were. -/
theorem eventsAt_write (d : DagId) (t : Day) :
    eventsAt (v.write (path dag day) (.packed (textOfEvents es))) d t =
      if d = dag ∧ t = day then es else eventsAt v d t := by
  split
  next heq =>
    obtain ⟨rfl, rfl⟩ := heq
    simp [eventsAt, readPath, Volume.get?_write_self, readFile, eventsOfText_textOfEvents hes,
      Except.toOption]
  next hne =>
    have hpath : path d t ≠ path dag day := fun heq => hne (path_injective heq)
    simp only [eventsAt, readPath, Volume.get?_write_of_ne hpath, h.isDirectory d t,
      (h.write dag day hes).isDirectory d t]

theorem addToDay :
    ∃ v', Journal.addToDay v dag day es = .ok v' ∧ Sound v' ∧ ∀ d t, eventsAt v' d t =
      eventsAt v d t ++ if d = dag ∧ t = day then es else [] := by
  have hall : ∀ e ∈ eventsAt v dag day ++ es, e.Valid :=
    List.forall_mem_append.2 ⟨(h.readPath_eq dag day).2, hes⟩
  refine ⟨_, h.addToDay_eq dag day es, h.write dag day hall, fun d t => ?_⟩
  rw [h.eventsAt_write dag day hall]
  split
  next heq => rw [heq.1, heq.2]
  next => simp

end Sound

/-- Adding events day by day puts behind the events of each of the days those that fall on it. -/
theorem Sound.addByDay {v : Volume} (h : Sound v) (dag : DagId) {events : List Event}
    (hevents : ∀ e ∈ events, e.Valid) {days : List Day} (hdays : days.Nodup) :
    ∃ v', Journal.addByDay dag events days v = (v', .ok ()) ∧ Sound v' ∧ ∀ d t, eventsAt v' d t =
      eventsAt v d t ++
        if d = dag ∧ t ∈ days then events.filter (·.timestamp.day == t) else [] := by
  induction days generalizing v with
  | nil => exact ⟨v, rfl, h, by simp⟩
  | cons day days ih =>
    obtain ⟨hday, hdays⟩ := List.nodup_cons.1 hdays
    have hthen : ∀ e ∈ events.filter (·.timestamp.day == day), e.Valid := fun e he =>
      hevents e (List.mem_filter.1 he).1
    obtain ⟨v₁, hadd, hv₁, hat₁⟩ := h.addToDay dag day hthen
    obtain ⟨v₂, hrest, hv₂, hat₂⟩ := ih hv₁ hdays
    refine ⟨v₂, by simp [Journal.addByDay, hadd, hrest], hv₂, fun d t => ?_⟩
    rw [hat₂, hat₁, List.append_assoc]
    congr 1
    by_cases hd : d = dag
    · by_cases ht : t = day
      · subst ht
        simp [hd, hday]
      · simp [hd, ht]
    · simp [hd]

end Journal

end Stagewise
