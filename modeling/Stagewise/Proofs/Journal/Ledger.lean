import Stagewise.Proofs.Journal.Files
import Stagewise.Proofs.Journal.Sorting
/-!
# What a journal holds

A journal holds every event that was appended, in the file of its day or in the buffer: for each dag
and day the file and then the buffer hold the events appended for them, in the order in which they
were appended. Waiting, writing in any order of the days and of the dags, and reading in any order
of the files all keep this, and reading gives the events sorted by time.
-/

namespace Stagewise.Journal

/-- The events of a dag, in their order. -/
def ofDag (dag : DagId) (events : List Event) : List Event := events.filter (·.dagId = dag)

/-- The events of a day, in their order. -/
def onDay (day : Day) (events : List Event) : List Event := events.filter (·.timestamp.day == day)

@[simp] theorem ofDag_append (dag : DagId) (es fs : List Event) :
    ofDag dag (es ++ fs) = ofDag dag es ++ ofDag dag fs := List.filter_append ..

@[simp] theorem onDay_append (day : Day) (es fs : List Event) :
    onDay day (es ++ fs) = onDay day es ++ onDay day fs := List.filter_append ..

@[simp] theorem onDay_nil (day : Day) : onDay day [] = [] := rfl

theorem atTime_onDay (t : Timestamp) (events : List Event) :
    atTime t (onDay t.day events) = atTime t events := by
  rw [atTime, onDay, List.filter_filter]
  refine List.filter_congr fun e _ => ?_
  by_cases h : e.timestamp = t <;> simp [h]

/-- A journal that holds the events of `log`, each where it belongs. -/
structure Holds (log : List Event) (j : Journal) : Prop where
  valid : ∀ e ∈ log, e.Valid
  sound : Sound j.volume
  kept : ∀ dag day, eventsAt j.volume dag day ++ onDay day (j.waitingFor dag) =
    onDay day (ofDag dag log)

theorem holds_empty : Holds [] .empty := ⟨by simp, sound_empty, fun _ _ => rfl⟩

/-! ### Waiting -/

theorem waitingFor_wait (e : Event) (j : Journal) (dag : DagId) :
    ({ j with waiting := wait e j.waiting } : Journal).waitingFor dag =
      j.waitingFor dag ++ ofDag dag [e] := by
  simp only [waitingFor]
  induction j.waiting with
  | nil =>
    rw [wait, lookup_cons_eq_ite]
    by_cases hdag : dag = e.dagId
    · simp [ofDag, hdag]
    · simp [ofDag, hdag, Ne.symm hdag]
  | cons w waiting ih =>
    rw [wait]
    by_cases hw : w.1 = e.dagId
    · rw [if_pos hw, lookup_cons_eq_ite, lookup_cons_eq_ite]
      by_cases hdag : dag = w.1
      · simp [ofDag, hdag, hw]
      · have hne : e.dagId ≠ dag := by rwa [← hw, ne_comm]
        simp [ofDag, hdag, hne]
    · rw [if_neg hw, lookup_cons_eq_ite, lookup_cons_eq_ite]
      by_cases hdag : dag = w.1
      · have hne : e.dagId ≠ dag := by rwa [hdag, ne_comm]
        simp [ofDag, hdag, hdag ▸ hne]
      · rw [if_neg hdag, if_neg hdag, ih]

namespace Holds

variable {log : List Event} {j : Journal} (h : Holds log j)
include h

theorem of_waiting {dag : DagId} {e : Event} (he : e ∈ j.waitingFor dag) :
    e ∈ log ∧ e.dagId = dag := by
  have : e ∈ onDay e.timestamp.day (ofDag dag log) := by
    rw [← h.kept]
    simp [onDay, he]
  simpa [onDay, ofDag] using this

theorem day_of_eventsAt {dag : DagId} {day : Day} {e : Event}
    (he : e ∈ eventsAt j.volume dag day) : e.timestamp.day = day := by
  have : e ∈ onDay day (ofDag dag log) := by
    rw [← h.kept]
    exact List.mem_append_left _ he
  simpa [onDay] using (List.mem_filter.1 this).2

theorem wait {e : Event} (he : e.Valid) :
    Holds (log ++ [e]) { j with waiting := Journal.wait e j.waiting } where
  valid := List.forall_mem_append.2 ⟨h.valid, by simpa using he⟩
  sound := h.sound
  kept dag day := by
    rw [waitingFor_wait, onDay_append, ← List.append_assoc, h.kept, ofDag_append, onDay_append]

end Holds

/-! ### Writing -/

/-- What writing the waiting events of a dag can do, whatever the order in which their days are
taken. -/
inductive Flushes (j : Journal) (dag : DagId) : Journal → Except Failure Unit → Prop
  | idle (h : j.waitingFor dag = []) : Flushes j dag j (.ok ())
  | writing {order : List Day} {v : Volume} {r : Except Failure Unit}
      (horder : order.Perm (days (j.waitingFor dag)))
      (hadd : addByDay dag (j.waitingFor dag) order j.volume = (v, r)) :
      Flushes j dag ⟨j.waiting.filter (·.1 != dag), v⟩ r

theorem flushes_flush (j : Journal) (dag : DagId) :
    Flushes j dag (j.flush dag).1 (j.flush dag).2 := by
  simp only [flush]
  split
  next h => exact .idle (List.isEmpty_iff.1 h)
  next => exact .writing .rfl rfl

/-- What writing the waiting events of dag after dag can do, up to the first failure. -/
inductive FlushesEach : List DagId → Journal → Journal → Except Failure Unit → Prop
  | done (j : Journal) : FlushesEach [] j j (.ok ())
  | next {dag : DagId} {dags : List DagId} {j j₁ j₂ : Journal} {r : Except Failure Unit}
      (hfirst : Flushes j dag j₁ (.ok ())) (hrest : FlushesEach dags j₁ j₂ r) :
      FlushesEach (dag :: dags) j j₂ r
  | failed {dag : DagId} {dags : List DagId} {j j₁ : Journal} {e : Failure}
      (hfirst : Flushes j dag j₁ (.error e)) : FlushesEach (dag :: dags) j j₁ (.error e)

/-- What writing all waiting events can do, whatever the order in which the dags are taken. -/
def FlushesAll (j j' : Journal) (r : Except Failure Unit) : Prop :=
  ∃ dags : List DagId, dags.Perm (j.waiting.map Prod.fst) ∧ FlushesEach dags j j' r

theorem flushesEach_flushEach (dags : List DagId) (j : Journal) :
    FlushesEach dags j (flushEach dags j).1 (flushEach dags j).2 := by
  induction dags generalizing j with
  | nil => exact .done j
  | cons dag dags ih =>
    have hfirst := flushes_flush j dag
    rw [flushEach]
    split
    next j₁ heq =>
      rw [heq] at hfirst
      exact .next hfirst (ih j₁)
    next j₁ e heq =>
      rw [heq] at hfirst
      exact .failed hfirst

theorem flushesAll_flushAll (j : Journal) : FlushesAll j j.flushAll.1 j.flushAll.2 :=
  ⟨_, .rfl, flushesEach_flushEach _ j⟩

theorem waitingFor_filter_ne (waiting : List (DagId × List Event)) (v v' : Volume)
    (dag d : DagId) : (⟨waiting.filter (·.1 != dag), v'⟩ : Journal).waitingFor d =
      if d = dag then [] else (⟨waiting, v⟩ : Journal).waitingFor d := by
  simp only [waitingFor, lookup_filter_ne]
  split <;> rfl

theorem mem_days {events : List Event} {day : Day} :
    day ∈ days events ↔ onDay day events ≠ [] := by
  simp only [days, List.mem_eraseDups, List.mem_map, onDay, ne_eq, List.filter_eq_nil_iff,
    beq_iff_eq, not_forall, not_not, exists_prop]

namespace Holds

variable {log : List Event} {j j' : Journal} {r : Except Failure Unit}

/-- Writing succeeds and moves the waiting events of the dag into the files, in any order of their
days. -/
theorem flushes (h : Holds log j) {dag : DagId} (hf : Flushes j dag j' r) :
    r = .ok () ∧ Holds log j' ∧ ∀ d, j'.waitingFor d = if d = dag then [] else j.waitingFor d := by
  cases hf with
  | idle hnone =>
    refine ⟨rfl, h, fun d => ?_⟩
    split
    next hd => rw [hd, hnone]
    next => rfl
  | @writing order v r horder hadd =>
    have hvalid : ∀ e ∈ j.waitingFor dag, e.Valid := fun e he => h.valid e (h.of_waiting he).1
    obtain ⟨v', hv', hsound, hat⟩ := h.sound.addByDay dag hvalid
      (horder.nodup_iff.2 (nodup_eraseDups _))
    obtain ⟨rfl, rfl⟩ := Prod.mk.inj (hadd.symm.trans hv')
    have hwaiting := waitingFor_filter_ne j.waiting j.volume v dag
    refine ⟨rfl, ⟨h.valid, hsound, fun d day => ?_⟩, hwaiting⟩
    rw [← h.kept, hat, hwaiting]
    by_cases hd : d = dag
    · -- A day on which nothing waits is not written, and would get nothing.
      have hday : (if day ∈ order then onDay day (j.waitingFor dag) else []) =
          onDay day (j.waitingFor dag) := by
        split
        next => rfl
        next hnot =>
          rw [horder.mem_iff, mem_days, not_not] at hnot
          exact hnot.symm
      simp only [hd, true_and, if_true, onDay_nil, List.append_nil]
      rw [← hday]
      rfl
    · simp [hd]

theorem flushesEach (h : Holds log j) {dags : List DagId} (hf : FlushesEach dags j j' r) :
    r = .ok () ∧ Holds log j' ∧ ∀ d, j'.waitingFor d = if d ∈ dags then [] else j.waitingFor d := by
  induction hf with
  | done j => exact ⟨rfl, h, by simp⟩
  | @next dag dags j j₁ j₂ r hfirst _ ih =>
    obtain ⟨-, h₁, hwaiting₁⟩ := h.flushes hfirst
    obtain ⟨hr, h₂, hwaiting₂⟩ := ih h₁
    refine ⟨hr, h₂, fun d => ?_⟩
    rw [hwaiting₂, hwaiting₁]
    by_cases hdag : d = dag
    · simp [hdag]
    · by_cases hdags : d ∈ dags <;> simp [hdag, hdags]
  | failed hfirst => exact absurd (h.flushes hfirst).1 (by simp)

/-- Writing all waiting events succeeds and leaves none of them waiting. -/
theorem flushesAll (h : Holds log j) (hf : FlushesAll j j' r) :
    r = .ok () ∧ Holds log j' ∧ ∀ d, j'.waitingFor d = [] := by
  obtain ⟨dags, hperm, hf⟩ := hf
  obtain ⟨hr, h', hwaiting⟩ := h.flushesEach hf
  refine ⟨hr, h', fun d => ?_⟩
  rw [hwaiting]
  split
  next => rfl
  next hd =>
    have hnone : j.waiting.lookup d = none := List.lookup_eq_none_iff.2 fun w hw => by
      have : w.1 ∈ dags := hperm.mem_iff.2 (List.mem_map_of_mem hw)
      simp only [bne_iff_ne, ne_eq]
      rintro rfl
      exact hd this
    simp [waitingFor, hnone]

end Holds

/-! ### Reading -/

/-- What asking for the events of a dag can do, whatever the order in which its files are listed. -/
inductive Reads (j : Journal) (dag : DagId) : Journal → Except Failure (List Event) → Prop
  | failed {j' : Journal} {e : Failure} (hflush : Flushes j dag j' (.error e)) :
      Reads j dag j' (.error e)
  | listed {j' : Journal} {listing : List (FilePath × FileContent)}
      (hflush : Flushes j dag j' (.ok ())) (hlisting : listing.Perm (filesOf j'.volume dag)) :
      Reads j dag j' ((listing.mapM fun f => readFile f.2).map fun ls => sortByTime ls.flatten)

theorem reads_eventsOf (j : Journal) (dag : DagId) :
    Reads j dag (j.eventsOf dag).1 (j.eventsOf dag).2 := by
  have hflush := flushes_flush j dag
  rw [eventsOf]
  split
  next j' e heq =>
    rw [heq] at hflush
    exact .failed hflush
  next j' heq =>
    rw [heq] at hflush
    exact .listed hflush .rfl

/-- The files of a dag are those at its paths. -/
theorem Sound.mem_filesOf {v : Volume} (h : Sound v) {dag : DagId} {f : FilePath × FileContent} :
    f ∈ filesOf v dag ↔ f ∈ v.files ∧ ∃ day, f.1 = path dag day := by
  rw [filesOf, List.mem_filter]
  refine and_congr_right fun hf => ?_
  obtain ⟨d, day, es, rfl, -⟩ := h.files f hf
  constructor
  · intro hname
    have hname : fileName d = fileName dag := by simpa [path] using hname
    exact ⟨day, by rw [fileName_injective hname]⟩
  · rintro ⟨t, hpath⟩
    obtain ⟨rfl, rfl⟩ := path_injective hpath
    simp [path]

namespace Holds

variable {log : List Event} {j j' : Journal}

/-- Of the events of a time, those are read whose day has its file among the files read. -/
theorem mapM_readFile (h : Holds log j) {dag : DagId} {listing : List (FilePath × FileContent)}
    (hlisting : ∀ f ∈ listing,
      ∃ day, f.1 = path dag day ∧ readFile f.2 = .ok (eventsAt j.volume dag day))
    (hnodup : (listing.map Prod.fst).Nodup) :
    ∃ ls, listing.mapM (fun f => readFile f.2) = .ok ls ∧ ∀ t, atTime t ls.flatten =
      if path dag t.day ∈ listing.map Prod.fst then atTime t (eventsAt j.volume dag t.day)
      else [] := by
  induction listing with
  | nil => exact ⟨[], rfl, fun t => rfl⟩
  | cons f listing ih =>
    obtain ⟨⟨day, hpath, hread⟩, hlisting⟩ := List.forall_mem_cons.1 hlisting
    obtain ⟨hf, hnodup⟩ := List.nodup_cons.1 hnodup
    obtain ⟨ls, hls, hat⟩ := ih hlisting hnodup
    refine ⟨eventsAt j.volume dag day :: ls, by simp [List.mapM_cons, hread, hls]; rfl, fun t => ?_⟩
    rw [List.flatten_cons, atTime_append, hat]
    by_cases hday : t.day = day
    · rw [if_neg (by rwa [hday, ← hpath]), List.append_nil, hday, if_pos]
      exact List.mem_cons.2 (.inl hpath.symm)
    · -- The file of another day holds nothing of this time.
      have hnone : atTime t (eventsAt j.volume dag day) = [] :=
        List.filter_eq_nil_iff.2 fun e he ht => by
          have : e.timestamp = t := by simpa using ht
          exact hday (this ▸ h.day_of_eventsAt he)
      have hother : path dag t.day ≠ f.1 := fun heq => hday (path_injective (heq.trans hpath)).2
      simp only [hnone, List.nil_append, List.map_cons, List.mem_cons, hother, false_or]

/-- Asking for the events of a dag gives all of them, sorted by time. -/
theorem reads (h : Holds log j) {dag : DagId} {r : Except Failure (List Event)}
    (hr : Reads j dag j' r) :
    (∃ es, r = .ok es ∧ SortedFrom (ofDag dag log) es) ∧ Holds log j' ∧
      ∀ d, j'.waitingFor d = if d = dag then [] else j.waitingFor d := by
  cases hr with
  | failed hflush => exact absurd (h.flushes hflush).1 (by simp)
  | @listed listing hflush hlisting =>
    obtain ⟨-, h', hwaiting⟩ := h.flushes hflush
    refine ⟨?_, h', hwaiting⟩
    have hfile : ∀ f ∈ listing, ∃ day, f.1 = path dag day ∧
        readFile f.2 = .ok (eventsAt j'.volume dag day) := by
      intro f hf
      obtain ⟨hmem, day, hpath⟩ := h'.sound.mem_filesOf.1 (hlisting.mem_iff.1 hf)
      exact ⟨day, hpath, h'.sound.readFile_of_mem hmem hpath⟩
    have hnodup : (listing.map Prod.fst).Nodup :=
      (hlisting.map _).nodup_iff.2 (h'.sound.paths.sublist (List.filter_sublist.map _))
    obtain ⟨ls, hls, hat⟩ := h'.mapM_readFile hfile hnodup
    -- What is read may stand in any order of the days; of one time it is what was appended.
    refine ⟨sortByTime ls.flatten, by rw [hls]; rfl,
      (sortedFrom_sortByTime _).of_atTime fun t => ?_⟩
    have hkept : eventsAt j'.volume dag t.day = onDay t.day (ofDag dag log) := by
      simpa [hwaiting] using h'.kept dag t.day
    have hall : (if path dag t.day ∈ listing.map Prod.fst
        then atTime t (eventsAt j'.volume dag t.day) else []) =
          atTime t (eventsAt j'.volume dag t.day) := by
      split
      next => rfl
      next hnot =>
        by_contra hne
        obtain ⟨f, hf, hpath⟩ := h'.sound.exists_mem_of_eventsAt
          (fun heq : eventsAt j'.volume dag t.day = [] => hne (by rw [heq]; rfl))
        exact hnot (hpath ▸ List.mem_map_of_mem
          (hlisting.mem_iff.2 (h'.sound.mem_filesOf.2 ⟨hf, t.day, hpath⟩)))
    rw [hat, hall, hkept, atTime_onDay]

end Holds

end Stagewise.Journal
