import Stagewise.Proofs.Document.ReadEvents
import Stagewise.Proofs.Journal.Calls
/-!
# Writing that fails

The days on which events of a dag wait are written one after another, and each of them can fail: its
directory cannot be made, its file cannot be read or holds something else, the write is refused or
cut short. The days before it are written. Its events and those of the days after it are in no file
and wait no longer, so writing loses events whenever it fails.
-/

namespace Stagewise.Journal

/-! ### Files of any volume -/

theorem valid_of_eventsOfText {text : String} {es : List Event} (h : eventsOfText text = .ok es) :
    ∀ e ∈ es, e.Valid := by
  intro e he
  obtain ⟨line, -, hline⟩ := exists_of_mem_mapM h he
  split at hline
  next e' hread =>
    obtain rfl := Except.ok.inj hline
    exact Event.valid_of_readText? hread
  next => cases hline

theorem valid_of_readPath {v : Volume} {p : FilePath} {es : List Event}
    (h : readPath v p = .ok es) : ∀ e ∈ es, e.Valid := by
  unfold readPath at h
  split at h
  next content _ =>
    cases content with
    | packed text => exact valid_of_eventsOfText h
    | plain => cases h
  next =>
    split at h
    · cases h
    · obtain rfl := Except.ok.inj h
      simp

theorem readPath_write_self {v : Volume} {p : FilePath} {es : List Event}
    (hes : ∀ e ∈ es, e.Valid) : readPath (v.write p (.packed (textOfEvents es))) p = .ok es := by
  rw [readPath, Volume.get?_write_self]
  exact eventsOfText_textOfEvents hes

/-- All files that are written lie equally deep, so none of them makes the path of another a
directory. -/
theorem isDirectory_write (v : Volume) (dag d : DagId) (day t : Day) (content : FileContent) :
    (v.write (path dag day) content).isDirectory (path d t) = v.isDirectory (path d t) := by
  have hpaths : ∀ w : Volume, w.isDirectory (path d t) = (w.files.map Prod.fst).any fun p =>
      (path d t).length < p.length && p.take (path d t).length == path d t := by
    intro w
    rw [List.any_map]
    rfl
  rw [hpaths, hpaths, Volume.write, Volume.map_fst_put]
  split
  · rfl
  · have hdeep : decide ((path d t).length < (path dag day).length) = false := rfl
    rw [List.any_append, List.any_cons, hdeep]
    simp

/-! ### One day -/

/-- What adding events to the file of a dag and a day can do. What is left behind by a write that is
cut short cannot be read. -/
inductive Adds (v : Volume) (dag : DagId) (day : Day) (events : List Event) :
    Volume → Except Failure Unit → Prop
  | added {old : List Event} (hhold : v.canHold (path dag day) = true)
      (hread : readPath v (path dag day) = .ok old) :
      Adds v dag day events (v.write (path dag day) (.packed (textOfEvents (old ++ events))))
        (.ok ())
  | refused (e : Failure) : Adds v dag day events v (.error e)
  | cut {content : FileContent} (e : Failure) (hcut : ∀ es, readFile content ≠ .ok es) :
      Adds v dag day events (v.write (path dag day) content) (.error e)

/-- What adding events to the files of their days can do, up to the first failure. -/
inductive AddsByDay (dag : DagId) (events : List Event) :
    List Day → Volume → Volume → Except Failure Unit → Prop
  | done (v : Volume) : AddsByDay dag events [] v v (.ok ())
  | next {day : Day} {days : List Day} {v v₁ v₂ : Volume} {r : Except Failure Unit}
      (hday : Adds v dag day (onDay day events) v₁ (.ok ()))
      (hdays : AddsByDay dag events days v₁ v₂ r) : AddsByDay dag events (day :: days) v v₂ r
  | failed {day : Day} {days : List Day} {v v₁ : Volume} {e : Failure}
      (hday : Adds v dag day (onDay day events) v₁ (.error e)) :
      AddsByDay dag events (day :: days) v v₁ (.error e)

/-- What writing the waiting events of a dag can do, whatever the order in which their days are
taken and wherever it fails. -/
inductive Writes (j : Journal) (dag : DagId) : Journal → Except Failure Unit → Prop
  | idle (hnone : j.waitingFor dag = []) : Writes j dag j (.ok ())
  | writing {order : List Day} {v : Volume} {r : Except Failure Unit}
      (horder : order.Perm (days (j.waitingFor dag)))
      (hadds : AddsByDay dag (j.waitingFor dag) order j.volume v r) :
      Writes j dag ⟨j.waiting.filter (·.1 != dag), v⟩ r

theorem adds_addToDay (v : Volume) (dag : DagId) (day : Day) (events : List Event) :
    (∃ v', addToDay v dag day events = .ok v' ∧ Adds v dag day events v' (.ok ())) ∨
      ∃ e, addToDay v dag day events = .error e := by
  cases hhold : v.canHold (path dag day) with
  | false =>
    right
    simp [addToDay, hhold, throw, throwThe, MonadExceptOf.throw, bind, Except.bind]
  | true =>
    cases hread : readPath v (path dag day) with
    | error e =>
      right
      simp [addToDay, hhold, hread, bind, Except.bind]
    | ok old =>
      left
      refine ⟨_, ?_, .added hhold hread⟩
      simp [addToDay, hhold, hread]

theorem addsByDay_addByDay (dag : DagId) (events : List Event) (days : List Day) (v : Volume) :
    AddsByDay dag events days v (addByDay dag events days v).1 (addByDay dag events days v).2 := by
  induction days generalizing v with
  | nil => exact .done v
  | cons day days ih =>
    rw [addByDay]
    rcases adds_addToDay v dag day (onDay day events) with ⟨v', hadd, hadds⟩ | ⟨e, hadd⟩
    · rw [onDay] at hadd
      rw [hadd]
      exact .next hadds (ih v')
    · rw [onDay] at hadd
      rw [hadd]
      exact .failed (.refused e)

/-- What a journal does is one of the things that it can do. -/
theorem writes_flush (j : Journal) (dag : DagId) :
    Writes j dag (j.flush dag).1 (j.flush dag).2 := by
  simp only [flush]
  split
  next h => exact .idle (List.isEmpty_iff.1 h)
  next => exact .writing .rfl (addsByDay_addByDay ..)

/-! ### What is written and what is left -/

theorem Adds.isDirectory {v v' : Volume} {dag d : DagId} {day t : Day} {events : List Event}
    {r : Except Failure Unit} (h : Adds v dag day events v' r) :
    v'.isDirectory (path d t) = v.isDirectory (path d t) := by
  cases h with
  | added | cut => apply isDirectory_write
  | refused => rfl

theorem Adds.get?_of_ne {v v' : Volume} {dag : DagId} {day : Day} {events : List Event}
    {r : Except Failure Unit} (h : Adds v dag day events v' r) {p : FilePath}
    (hp : p ≠ path dag day) : v'.get? p = v.get? p := by
  cases h with
  | added | cut => exact Volume.get?_write_of_ne hp _
  | refused => rfl

theorem Adds.readPath_of_ne {v v' : Volume} {dag d : DagId} {day t : Day} {events : List Event}
    {r : Except Failure Unit} (h : Adds v dag day events v' r) (hne : path d t ≠ path dag day) :
    readPath v' (path d t) = readPath v (path d t) := by
  rw [readPath, readPath, h.get?_of_ne hne, h.isDirectory]

/-- A day that fails gets no event, whether it was begun or not. -/
theorem Adds.ok_of_ok {v v' : Volume} {dag : DagId} {day : Day} {events es : List Event}
    {e : Failure} (h : Adds v dag day events v' (.error e))
    (hread : readPath v' (path dag day) = .ok es) : readPath v (path dag day) = .ok es := by
  cases h with
  | refused => exact hread
  | cut e hcut =>
    rw [readPath, Volume.get?_write_self] at hread
    exact absurd hread (hcut es)

/-- The days that were written, each with its events behind those that its file held, and the days
that are left. Of those only the first may have been begun, and no file got an event of theirs. -/
structure Split (dag : DagId) (events : List Event) (v v' : Volume) (written left : List Day) :
    Prop where
  added : ∀ t ∈ written, ∃ old, readPath v (path dag t) = .ok old ∧
    readPath v' (path dag t) = .ok (old ++ onDay t events)
  lost : ∀ t ∈ left, ∀ es, readPath v' (path dag t) = .ok es → readPath v (path dag t) = .ok es
  elsewhere : ∀ p, (∀ t ∈ written ++ left.take 1, p ≠ path dag t) → v'.get? p = v.get? p

theorem path_ne {dag : DagId} {day t : Day} (h : t ≠ day) : path dag t ≠ path dag day := fun heq =>
  h (path_injective heq).2

namespace Split

variable {dag : DagId} {events : List Event} {day : Day} {days written left : List Day}
  {v v₁ v' : Volume}

theorem nil (dag : DagId) (events : List Event) (v : Volume) : Split dag events v v [] [] :=
  ⟨by simp, by simp, fun _ _ => rfl⟩

/-- The first day fails. -/
theorem failed {e : Failure} (hday : Adds v dag day (onDay day events) v' (.error e))
    (hnot : day ∉ days) : Split dag events v v' [] (day :: days) where
  added := by simp
  lost t ht es hread := by
    rcases List.mem_cons.1 ht with rfl | ht
    · exact hday.ok_of_ok hread
    · have hne : t ≠ day := fun heq => hnot (heq ▸ ht)
      rwa [hday.readPath_of_ne (path_ne hne)] at hread
  elsewhere p hp := hday.get?_of_ne (hp day (by simp))

/-- The first day is written, and then the others as far as they are. -/
theorem next (hevents : ∀ e ∈ events, e.Valid)
    (hday : Adds v dag day (onDay day events) v₁ (.ok ()))
    (hread : ∀ t, t ∉ written ++ left → readPath v' (path dag t) = readPath v₁ (path dag t))
    (h : Split dag events v₁ v' written left) (hnot : day ∉ written ++ left) :
    Split dag events v v' (day :: written) left := by
  have hne : ∀ t ∈ written ++ left, t ≠ day := fun t ht heq => hnot (heq ▸ ht)
  refine ⟨fun t ht => ?_, fun t ht es hes => ?_, fun p hp => ?_⟩
  · rcases List.mem_cons.1 ht with rfl | ht
    · rw [hread t hnot]
      cases hday with
      | @added old _ hold =>
        have hvalid : ∀ e ∈ old ++ onDay t events, e.Valid := List.forall_mem_append.2
          ⟨valid_of_readPath hold, fun e he => hevents e (List.mem_filter.1 he).1⟩
        exact ⟨old, hold, readPath_write_self hvalid⟩
    · obtain ⟨old, hold, hnew⟩ := h.added t ht
      rw [hday.readPath_of_ne (path_ne (hne t (List.mem_append_left _ ht)))] at hold
      exact ⟨old, hold, hnew⟩
  · have hold := h.lost t ht es hes
    rwa [hday.readPath_of_ne (path_ne (hne t (List.mem_append_right _ ht)))] at hold
  · obtain ⟨hfirst, hothers⟩ := List.forall_mem_cons.1 hp
    rw [h.elsewhere p hothers, hday.get?_of_ne hfirst]

end Split

namespace AddsByDay

variable {dag : DagId} {events : List Event} {days : List Day} {v v' : Volume}
  {r : Except Failure Unit}

theorem readPath_of_not_mem (h : AddsByDay dag events days v v' r) {t : Day} (ht : t ∉ days) :
    readPath v' (path dag t) = readPath v (path dag t) := by
  induction h with
  | done => rfl
  | next hday _ ih =>
    obtain ⟨hne, ht⟩ := not_or.1 (mt List.mem_cons.2 ht)
    rw [ih ht, hday.readPath_of_ne (path_ne hne)]
  | failed hday =>
    obtain ⟨hne, -⟩ := not_or.1 (mt List.mem_cons.2 ht)
    exact hday.readPath_of_ne (path_ne hne)

/-- The days up to the first failure are written and the others are left, none of them exactly when
there is no failure. -/
theorem split (h : AddsByDay dag events days v v' r) (hevents : ∀ e ∈ events, e.Valid)
    (hdays : days.Nodup) :
    ∃ written left, days = written ++ left ∧ Split dag events v v' written left ∧
      (r = .ok () ↔ left = []) := by
  induction h with
  | done v => exact ⟨[], [], rfl, .nil dag events v, by simp⟩
  | next hday hrest ih =>
    obtain ⟨hnot, hdays⟩ := List.nodup_cons.1 hdays
    obtain ⟨written, left, rfl, hsplit, hiff⟩ := ih hdays
    refine ⟨_ :: written, left, rfl, ?_, hiff⟩
    exact hsplit.next hevents hday (fun t => hrest.readPath_of_not_mem) hnot
  | failed hday =>
    obtain ⟨hnot, -⟩ := List.nodup_cons.1 hdays
    exact ⟨[], _, rfl, .failed hday hnot, by simp⟩

end AddsByDay

/-- What writing the waiting events of a dag keeps: those of the days that it wrote are in the files
of their days, once and behind what was there. Those of the days that are left are neither in a file
nor do they wait. -/
structure Keeps (j : Journal) (dag : DagId) (j' : Journal) (written left : List Day) : Prop where
  days : (written ++ left).Perm (days (j.waitingFor dag))
  split : Split dag (j.waitingFor dag) j.volume j'.volume written left
  waiting : ∀ d, j'.waitingFor d = if d = dag then [] else j.waitingFor d

theorem Writes.of_idle {j j' : Journal} {dag : DagId} {r : Except Failure Unit}
    (h : Writes j dag j' r) (hnone : j.waitingFor dag = []) :
    r = .ok () ∧ j'.volume = j.volume := by
  cases h with
  | idle => exact ⟨rfl, rfl⟩
  | writing horder hadds =>
    rw [hnone] at horder
    obtain rfl := horder.eq_nil
    cases hadds
    exact ⟨rfl, rfl⟩

theorem Writes.keeps {j j' : Journal} {dag : DagId} {r : Except Failure Unit}
    (h : Writes j dag j' r) (hvalid : ∀ e ∈ j.waitingFor dag, e.Valid) :
    ∃ written left, Keeps j dag j' written left ∧ (r = .ok () ↔ left = []) := by
  cases h with
  | idle hnone =>
    refine ⟨[], [], ⟨?_, .nil dag _ _, fun d => ?_⟩, by simp⟩
    · rw [hnone]
      exact .nil
    · split
      next hd => rw [hd, hnone]
      next => rfl
  | writing horder hadds =>
    have hnodup := horder.nodup_iff.2 (nodup_eraseDups _)
    obtain ⟨written, left, rfl, hsplit, hiff⟩ := hadds.split hvalid hnodup
    exact ⟨written, left, ⟨horder, hsplit, waitingFor_filter_ne _ _ _ dag⟩, hiff⟩

/-- Writing the waiting events of a dag keeps those of some days and loses those of the others. It
loses none exactly when it succeeds, and what it has lost is not brought back by writing again. -/
theorem loses_iff_fails {j j' : Journal} {dag : DagId} {r : Except Failure Unit}
    (hvalid : ∀ e ∈ j.waitingFor dag, e.Valid) (h : Writes j dag j' r) :
    ∃ written left, Keeps j dag j' written left ∧
      (∀ t ∈ left, onDay t (j.waitingFor dag) ≠ []) ∧ (r = .ok () ↔ left = []) ∧
      ∀ j'' r', Writes j' dag j'' r' → r' = .ok () ∧ j''.volume = j'.volume := by
  obtain ⟨written, left, hkeeps, hiff⟩ := h.keeps hvalid
  refine ⟨written, left, hkeeps, fun t ht => ?_, hiff, fun j'' r' hagain => ?_⟩
  · apply mem_days.1
    exact hkeeps.days.mem_iff.1 (List.mem_append_right _ ht)
  · apply hagain.of_idle
    rw [hkeeps.waiting, if_pos rfl]

namespace Sample

/-- Two events of different days wait; where the file of the later one belongs lies another file. -/
def obstructed : Journal :=
  ⟨[(dag, [early, late])], ⟨[(path dag late.timestamp.day, .plain "junk")]⟩⟩

end Sample

/-- The earlier event is written and the later one is lost. -/
theorem loses_iff_fails_obstructed :
    let j := Sample.obstructed
    let j' := (j.flush Sample.dag).1
    (j.flush Sample.dag).2 ≠ .ok () ∧ j'.waitingFor Sample.dag = [] ∧
      ∃ written left, Keeps j Sample.dag j' written left ∧ left ≠ [] := by
  intro j j'
  have hvalid : ∀ e ∈ j.waitingFor Sample.dag, e.Valid := by
    have hearly : Sample.early.Valid := ⟨⟨by decide, by decide, by decide⟩, by decide⟩
    have hlate : Sample.late.Valid := ⟨⟨by decide, by decide, by decide⟩, by decide⟩
    intro e he
    rcases List.mem_cons.1 he with rfl | he
    · exact hearly
    · rwa [List.mem_singleton.1 he]
  have hfails : (j.flush Sample.dag).2 ≠ .ok () := by decide +kernel
  obtain ⟨written, left, hkeeps, -, hiff, -⟩ := loses_iff_fails hvalid (writes_flush j Sample.dag)
  refine ⟨hfails, ?_, written, left, hkeeps, mt hiff.2 hfails⟩
  rw [hkeeps.waiting, if_pos rfl]

end Stagewise.Journal
