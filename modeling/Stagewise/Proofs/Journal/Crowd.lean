import Mathlib.Data.Multiset.OrderedMonoid
import Stagewise.Proofs.Journal.Calls
/-!
# Many calls on one dag

Any number of calls on one dag, each of which takes the buffer at one time, reads the file of a day
at another and writes it at a third, while the others do the same. The tally says where the events
are: no event is ever doubled, and events of a day are missing exactly when a write to its file
found there something else than its call had read.
-/

namespace Stagewise.Journal

/-- Where a call stands: before it takes the buffer; with the events it has taken and the days whose
files it still has to write; with the events it has read from the file of a day; at its end. -/
inductive Place where
  | flushing
  | writing (events : List Event) (days : List Day)
  | adding (events : List Event) (day : Day) (days : List Day) (old : List Event)
  | returned

/-- A journal and the calls on one dag, in the order in which they began. -/
structure Crowd where
  journal : Journal
  calls : List Place

/-- The file of a day is replaced. -/
def replaced (j : Journal) (dag : DagId) (day : Day) (es : List Event) : Journal :=
  ⟨j.waiting, j.volume.write (path dag day) (.packed (textOfEvents es))⟩

@[simp] theorem waitingFor_replaced (j : Journal) (dag d : DagId) (day : Day) (es : List Event) :
    (j.replaced dag day es).waitingFor d = j.waitingFor d := rfl

theorem eventsAt_replaced {j : Journal} (h : Sound j.volume) {dag : DagId} {day : Day}
    {es : List Event} (hes : ∀ e ∈ es, e.Valid) (d : Day) :
    eventsAt (j.replaced dag day es).volume dag d =
      if d = day then es else eventsAt j.volume dag d := by
  rw [replaced, h.eventsAt_write dag day hes]
  simp

/-- What happens: an event is put into the buffer, another call begins, or a call goes on. A write
tells what its call had read in the file and what the file holds when it is replaced. -/
inductive Act where
  | append (e : Event)
  | call
  | take
  | read (day : Day)
  | write (day : Day) (old found : List Event)
  | leave

/-- One step of one call. A call that asks for the events writes those that wait and then reads the
files, which changes nothing. -/
inductive Move (dag : DagId) : Crowd → Act → Crowd → Prop
  | append {j : Journal} {calls : List Place} {e : Event} (hdag : e.dagId = dag) :
      Move dag ⟨j, calls⟩ (.append e) ⟨received j e, calls ++
        [if flushThreshold ≤ ((received j e).waitingFor dag).length then .flushing
          else .returned]⟩
  | flush {j : Journal} {calls : List Place} : Move dag ⟨j, calls⟩ .call ⟨j, calls ++ [.flushing]⟩
  | flushAll {j : Journal} {calls : List Place} :
      Move dag ⟨j, calls⟩ .call ⟨j, calls ++
        [if dag ∈ j.waiting.map Prod.fst then .flushing else .returned]⟩
  | idle {j : Journal} {before after : List Place} (hnone : j.waitingFor dag = []) :
      Move dag ⟨j, before ++ .flushing :: after⟩ .take ⟨j, before ++ .returned :: after⟩
  | take {j : Journal} {before after : List Place} {order : List Day}
      (hsome : j.waitingFor dag ≠ []) (horder : order.Perm (days (j.waitingFor dag))) :
      Move dag ⟨j, before ++ .flushing :: after⟩ .take
        ⟨⟨j.waiting.filter (·.1 != dag), j.volume⟩,
          before ++ .writing (j.waitingFor dag) order :: after⟩
  | read {j : Journal} {before after : List Place} {events old : List Event} {day : Day}
      {days : List Day} (hread : readPath j.volume (path dag day) = .ok old) :
      Move dag ⟨j, before ++ .writing events (day :: days) :: after⟩ (.read day)
        ⟨j, before ++ .adding events day days old :: after⟩
  | write {j : Journal} {before after : List Place} {events old : List Event} {day : Day}
      {days : List Day} :
      Move dag ⟨j, before ++ .adding events day days old :: after⟩
        (.write day old (eventsAt j.volume dag day))
        ⟨j.replaced dag day (old ++ onDay day events), before ++ .writing events days :: after⟩
  | leave {j : Journal} {before after : List Place} {events : List Event} :
      Move dag ⟨j, before ++ .writing events [] :: after⟩ .leave
        ⟨j, before ++ .returned :: after⟩

inductive Moves (dag : DagId) (c : Crowd) : List Act → Crowd → Prop
  | none : Moves dag c [] c
  | step {acts : List Act} {c₁ c₂ : Crowd} {a : Act} (hmoves : Moves dag c acts c₁)
      (hmove : Move dag c₁ a c₂) : Moves dag c (acts ++ [a]) c₂

def appendedBy (acts : List Act) : List Event :=
  acts.filterMap fun
    | .append e => some e
    | _ => none

@[simp] theorem appendedBy_append (acts more : List Act) :
    appendedBy (acts ++ more) = appendedBy acts ++ appendedBy more := List.filterMap_append ..

/-- Whether a write to the file of a day found there something else than its call had read. -/
def overwrote (acts : List Act) (day : Day) : Prop :=
  ∃ old found, .write day old found ∈ acts ∧ old ≠ found

theorem overwrote_append {acts more : List Act} {day : Day} :
    overwrote (acts ++ more) day ↔ overwrote acts day ∨ overwrote more day := by
  simp only [overwrote, List.mem_append, or_and_right, exists_or]

theorem overwrote_write {day d : Day} {old found : List Event} :
    overwrote [.write day old found] d ↔ d = day ∧ old ≠ found := by
  constructor
  · rintro ⟨old', found', hmem, hne⟩
    obtain ⟨rfl, rfl, rfl⟩ := Act.write.inj (List.mem_singleton.1 hmem)
    exact ⟨rfl, hne⟩
  · rintro ⟨rfl, hne⟩
    exact ⟨old, found, List.mem_singleton_self _, hne⟩

theorem not_overwrote_singleton {a : Act} (h : ∀ day old found, a ≠ .write day old found)
    (day : Day) : ¬ overwrote [a] day := by
  rintro ⟨old, found, hmem, -⟩
  exact h day old found (List.mem_singleton.1 hmem).symm

/-! ### Events on their way -/

namespace Place

/-- The events that a call still has to write to the file of a day. -/
def held (day : Day) : Place → List Event
  | .writing events days => if day ∈ days then onDay day events else []
  | .adding events d days _ => if day ∈ d :: days then onDay day events else []
  | _ => []

/-- The days that a call still has to write: each once, and each with an event. -/
def Orderly : Place → Prop
  | .writing events days => days.Nodup ∧ ∀ day ∈ days, onDay day events ≠ []
  | .adding events d days _ => (d :: days).Nodup ∧ ∀ day ∈ d :: days, onDay day events ≠ []
  | _ => True

/-- A write takes the events of its day off the hands of a call and leaves it those of the days to
come. -/
theorem held_adding {events old : List Event} {day : Day} {days : List Day} (h : day ∉ days)
    (d : Day) : (adding events day days old).held d =
      (writing events days).held d ++ if d = day then onDay day events else [] := by
  simp only [held, List.mem_cons]
  by_cases hd : d = day
  · simp [hd, h]
  · simp [hd]

end Place

namespace Crowd

/-- The events of a day in its file and in the buffer. -/
def present (dag : DagId) (day : Day) (c : Crowd) : List Event :=
  eventsAt c.journal.volume dag day ++ onDay day (c.journal.waitingFor dag)

/-- The events of a day that wait or are in the hands of a call. -/
def unwritten (dag : DagId) (day : Day) (c : Crowd) : Multiset Event :=
  (c.calls.flatMap (Place.held day) : List Event) +
    (onDay day (c.journal.waitingFor dag) : List Event)

/-- The events of a day, wherever they are. -/
def total (dag : DagId) (day : Day) (c : Crowd) : Multiset Event :=
  (eventsAt c.journal.volume dag day : List Event) + c.unwritten dag day

variable {dag : DagId}

theorem unwritten_split (j : Journal) (before after : List Place) (p : Place) (day : Day) :
    unwritten dag day ⟨j, before ++ p :: after⟩ =
      (p.held day : List Event) + unwritten dag day ⟨j, before ++ after⟩ := by
  simp only [unwritten, List.flatMap_append, List.flatMap_cons, ← Multiset.coe_add]
  rw [add_left_comm, add_assoc]

theorem unwritten_congr {j : Journal} {before after : List Place} {p q : Place} {day : Day}
    (h : p.held day = q.held day) :
    unwritten dag day ⟨j, before ++ p :: after⟩ = unwritten dag day ⟨j, before ++ q :: after⟩ := by
  rw [unwritten_split, unwritten_split, h]

theorem unwritten_concat {j : Journal} {calls : List Place} {p : Place} {day : Day}
    (h : p.held day = []) :
    unwritten dag day ⟨j, calls ++ [p]⟩ = unwritten dag day ⟨j, calls⟩ := by
  rw [unwritten_split, h, List.append_nil, Multiset.coe_nil, zero_add]

/-- A write takes the events of its day off the hands of its call. -/
theorem unwritten_adding {j : Journal} {before after : List Place} {events old es : List Event}
    {day : Day} {days : List Day} (hday : day ∉ days) (d : Day) :
    unwritten dag d ⟨j, before ++ .adding events day days old :: after⟩ =
      unwritten dag d ⟨j.replaced dag day es, before ++ .writing events days :: after⟩ +
        if d = day then (onDay day events : Multiset Event) else 0 := by
  have hheld : ((Place.adding events day days old).held d : Multiset Event) =
      ((Place.writing events days).held d : List Event) +
        if d = day then (onDay day events : Multiset Event) else 0 := by
    rw [Place.held_adding hday, ← Multiset.coe_add]
    split <;> rfl
  rw [unwritten_split, hheld, unwritten_split, add_right_comm]
  rfl

/-- After a write there is of its day what its call had read, and what was on its way. -/
theorem total_replaced {j : Journal} (hj : Sound j.volume) {before after : List Place}
    {events old : List Event} {day : Day} {days : List Day} (hday : day ∉ days)
    (hvalid : ∀ e ∈ old ++ onDay day events, e.Valid) (d : Day) :
    total dag d ⟨j.replaced dag day (old ++ onDay day events),
        before ++ .writing events days :: after⟩ =
      if d = day then
        (old : Multiset Event) + unwritten dag d ⟨j, before ++ .adding events day days old :: after⟩
      else total dag d ⟨j, before ++ .adding events day days old :: after⟩ := by
  rw [total, total, unwritten_adding hday, eventsAt_replaced hj hvalid]
  split
  next hd => rw [← Multiset.coe_add, add_assoc, add_comm (onDay day events : Multiset Event)]
  next hd => rw [add_zero]

/-- Once all calls have returned, what is anywhere is in the file or in the buffer. -/
theorem total_of_returned {c : Crowd} (h : ∀ p ∈ c.calls, p = .returned) (day : Day) :
    c.total dag day = (c.present dag day : Multiset Event) := by
  have hheld : c.calls.flatMap (Place.held day) = [] := by
    apply List.flatMap_eq_nil_iff.2
    intro p hp
    rw [h p hp]
    rfl
  rw [total, unwritten, hheld, Multiset.coe_nil, zero_add, Multiset.coe_add, present]

end Crowd

/-- Nothing is doubled, and something of a day is missing exactly when its file was overwritten.
What a call has read is what the file holds, or something will be missing once the call writes. -/
structure Tallied (dag : DagId) (log : List Event) (acts : List Act) (c : Crowd) : Prop where
  valid : ∀ e ∈ log, e.Valid
  sound : Sound c.journal.volume
  orderly : ∀ p ∈ c.calls, p.Orderly
  total_le : ∀ day, c.total dag day ≤ (onDay day log : List Event)
  overwrote_iff : ∀ day, overwrote acts day ↔ c.total dag day < (onDay day log : List Event)
  base : ∀ events day days old, .adding events day days old ∈ c.calls →
    (old : List Event) + c.unwritten dag day ≤ (onDay day log : List Event) ∧
      (old = eventsAt c.journal.volume dag day ∨
        (old : List Event) + c.unwritten dag day < (onDay day log : List Event))

theorem Holds.tallied {log : List Event} {j : Journal} (h : Holds log j) (dag : DagId) :
    Tallied dag (ofDag dag log) [] ⟨j, []⟩ := by
  have htotal : ∀ day, Crowd.total dag day ⟨j, []⟩ = (onDay day (ofDag dag log) : List Event) := by
    intro day
    rw [Crowd.total_of_returned (by simp), Crowd.present, h.kept]
  refine ⟨fun e he => h.valid e (List.mem_filter.1 he).1, h.sound, by simp, ?_, ?_, by simp⟩
  · intro day
    exact (htotal day).le
  · intro day
    rw [htotal]
    simp [overwrote]

namespace Tallied

variable {dag : DagId} {log : List Event} {acts : List Act} {c c' : Crowd} {a : Act}

theorem valid_of_unwritten (h : Tallied dag log acts c) {e : Event} {day : Day}
    (he : e ∈ c.unwritten dag day) : e.Valid := by
  apply h.valid
  have hmem : e ∈ c.total dag day := Multiset.mem_add.2 (.inr he)
  exact (List.mem_filter.1 (Multiset.mem_of_le (h.total_le day) hmem)).1

theorem valid_of_waiting (h : Tallied dag log acts c) {e : Event}
    (he : e ∈ c.journal.waitingFor dag) : e.Valid := by
  apply h.valid_of_unwritten
  apply Multiset.mem_add.2
  right
  exact List.mem_filter.2 ⟨he, beq_self_eq_true _⟩

theorem valid_of_held (h : Tallied dag log acts c) {p : Place} (hp : p ∈ c.calls) {e : Event}
    {day : Day} (he : e ∈ p.held day) : e.Valid := by
  apply h.valid_of_unwritten
  apply Multiset.mem_add.2
  left
  exact List.mem_flatMap.2 ⟨p, hp, he⟩

/-- A step that writes nothing: the events stay where they are, are taken in hand, or are new. -/
theorem keep (h : Tallied dag log acts c) (hvalid : ∀ e ∈ appendedBy [a], e.Valid)
    (hwrite : ∀ day old found, a ≠ .write day old found)
    (hvolume : c'.journal.volume = c.journal.volume)
    (hunwritten : ∀ day,
      c'.unwritten dag day = c.unwritten dag day + (onDay day (appendedBy [a]) : List Event))
    (hcalls : ∀ p ∈ c'.calls, p ∈ c.calls ∨ p.Orderly ∧ ∀ events day days old,
      p = .adding events day days old → old = eventsAt c.journal.volume dag day) :
    Tallied dag (log ++ appendedBy [a]) (acts ++ [a]) c' := by
  have hlog : ∀ day, (onDay day (log ++ appendedBy [a]) : Multiset Event) =
      (onDay day log : List Event) + (onDay day (appendedBy [a]) : List Event) := by
    intro day
    rw [onDay_append, Multiset.coe_add]
  have htotal : ∀ day, c'.total dag day =
      c.total dag day + (onDay day (appendedBy [a]) : List Event) := by
    intro day
    rw [Crowd.total, Crowd.total, hvolume, hunwritten, add_assoc]
  refine ⟨List.forall_mem_append.2 ⟨h.valid, hvalid⟩, hvolume ▸ h.sound, ?_, ?_, ?_, ?_⟩
  · intro p hp
    exact (hcalls p hp).elim (h.orderly p) And.left
  · intro day
    rw [hlog, htotal]
    exact add_le_add (h.total_le day) le_rfl
  · intro day
    rw [hlog, htotal, add_lt_add_iff_right, ← h.overwrote_iff, overwrote_append]
    exact or_iff_left (not_overwrote_singleton hwrite day)
  · intro events day days old hp
    rw [hlog, hunwritten, hvolume, ← add_assoc, add_le_add_iff_right, add_lt_add_iff_right]
    rcases hcalls _ hp with hp | ⟨-, hread⟩
    · exact h.base events day days old hp
    · obtain rfl := hread events day days old rfl
      exact ⟨h.total_le day, .inl rfl⟩

section

variable {j : Journal} {before after : List Place} {events old : List Event} {day : Day}
  {days : List Day} (h : Tallied dag log acts ⟨j, before ++ .adding events day days old :: after⟩)
include h

theorem valid_added : ∀ e ∈ old ++ onDay day events, e.Valid := by
  intro e he
  have hcall : .adding events day days old ∈ before ++ .adding events day days old :: after := by
    simp
  rcases List.mem_append.1 he with he | he
  · have hle := (h.base events day days old hcall).1
    have hmem := Multiset.mem_of_le hle (Multiset.mem_add.2 (.inl he))
    exact h.valid e (List.mem_filter.1 hmem).1
  · apply h.valid_of_held hcall
    rwa [Place.held, if_pos List.mem_cons_self]

/-- After a write, what any other call has read of the same file is out of date: once it is written
back, the events written here will be missing. -/
theorem base_write {events' old' : List Event} {d : Day} {days' : List Day}
    (hp : .adding events' d days' old' ∈ before ++ .writing events days :: after) :
    let c' : Crowd := ⟨j.replaced dag day (old ++ onDay day events),
      before ++ .writing events days :: after⟩
    (old' : List Event) + c'.unwritten dag d ≤ (onDay d log : List Event) ∧
      (old' = eventsAt c'.journal.volume dag d ∨
        (old' : List Event) + c'.unwritten dag d < (onDay d log : List Event)) := by
  intro c'
  have hcall : .adding events day days old ∈ before ++ .adding events day days old :: after := by
    simp
  obtain ⟨hnodup, hsome⟩ := h.orderly _ hcall
  have hother : .adding events' d days' old' ∈ before ++ .adding events day days old :: after := by
    simp only [List.mem_append, List.mem_cons, reduceCtorEq, false_or] at hp ⊢
    exact hp.imp_right Or.inr
  obtain ⟨hbase, hread⟩ := h.base events' d days' old' hother
  rw [Crowd.unwritten_adding (List.nodup_cons.1 hnodup).1, ← add_assoc] at hbase hread
  rw [eventsAt_replaced h.sound h.valid_added]
  by_cases hd : d = day
  · have hmine : (0 : Multiset Event) < (onDay day events : List Event) := by
      apply pos_of_ne_zero
      rw [Ne, Multiset.coe_eq_zero]
      exact hsome day List.mem_cons_self
    rw [if_pos hd] at hbase
    have hless := (lt_add_of_pos_right _ hmine).trans_le hbase
    exact ⟨hless.le, .inr hless⟩
  · rw [if_neg hd, add_zero] at hbase hread
    rw [if_neg hd]
    exact ⟨hbase, hread⟩

theorem write : Tallied dag log (acts ++ [.write day old (eventsAt j.volume dag day)])
    ⟨j.replaced dag day (old ++ onDay day events), before ++ .writing events days :: after⟩ := by
  have hcall : .adding events day days old ∈ before ++ .adding events day days old :: after := by
    simp
  obtain ⟨hnodup, hsome⟩ := h.orderly _ hcall
  obtain ⟨hday, hnodup⟩ := List.nodup_cons.1 hnodup
  obtain ⟨hbase, hread⟩ := h.base events day days old hcall
  refine ⟨h.valid, h.sound.write dag day h.valid_added, ?_, ?_, ?_, fun _ _ _ _ => h.base_write⟩
  · intro p hp
    rcases List.mem_append.1 hp with hp | hp
    · exact h.orderly p (List.mem_append_left _ hp)
    · rcases List.mem_cons.1 hp with rfl | hp
      · exact ⟨hnodup, fun d hd => hsome d (List.mem_cons_of_mem _ hd)⟩
      · exact h.orderly p (List.mem_append_right _ (List.mem_cons_of_mem _ hp))
  · intro d
    rw [Crowd.total_replaced h.sound hday h.valid_added]
    split
    next hd => exact hd ▸ hbase
    next => exact h.total_le d
  · intro d
    rw [Crowd.total_replaced h.sound hday h.valid_added, overwrote_append, overwrote_write,
      h.overwrote_iff]
    by_cases hd : d = day
    · subst hd
      rw [if_pos rfl]
      by_cases hsame : old = eventsAt j.volume dag d
      · -- Nobody wrote in between, and the file gets only what the call had in hand.
        rw [and_iff_right rfl, or_iff_left (not_not_intro hsame), Crowd.total, hsame]
      · have hlost := hread.resolve_left hsame
        exact iff_of_true (.inr ⟨rfl, hsame⟩) hlost
    · rw [if_neg hd, or_iff_left (not_and_of_not_left _ hd)]

end

/-- A call that goes on, writes nothing and keeps what it has in hand. -/
theorem goOn {j : Journal} {before after : List Place} {p q : Place}
    (h : Tallied dag log acts ⟨j, before ++ p :: after⟩) (hnone : appendedBy [a] = [])
    (hwrite : ∀ day old found, a ≠ .write day old found)
    (hheld : ∀ day, q.held day = p.held day) (horderly : q.Orderly)
    (hread : ∀ events day days old, q = .adding events day days old →
      old = eventsAt j.volume dag day) :
    Tallied dag (log ++ appendedBy [a]) (acts ++ [a]) ⟨j, before ++ q :: after⟩ := by
  refine h.keep (by simp [hnone]) hwrite rfl (fun day => ?_) fun p' hp' => ?_
  · rw [hnone, onDay_nil, Multiset.coe_nil, add_zero, Crowd.unwritten_congr (hheld day)]
  · rcases List.mem_append.1 hp' with hp' | hp'
    · exact .inl (List.mem_append_left _ hp')
    · rcases List.mem_cons.1 hp' with rfl | hp'
      · exact .inr ⟨horderly, hread⟩
      · exact .inl (List.mem_append_right _ (List.mem_cons_of_mem _ hp'))

/-- A call begins with nothing in hand; it may have put an event into the buffer. -/
theorem begin {j j' : Journal} {calls : List Place} {p : Place}
    (h : Tallied dag log acts ⟨j, calls⟩) (hp : p = .flushing ∨ p = .returned)
    (hvalid : ∀ e ∈ appendedBy [a], e.Valid) (hwrite : ∀ day old found, a ≠ .write day old found)
    (hvolume : j'.volume = j.volume)
    (hwaiting : j'.waitingFor dag = j.waitingFor dag ++ appendedBy [a]) :
    Tallied dag (log ++ appendedBy [a]) (acts ++ [a]) ⟨j', calls ++ [p]⟩ := by
  have hheld : ∀ day, p.held day = [] := by
    rcases hp with rfl | rfl <;> exact fun _ => rfl
  refine h.keep hvalid hwrite hvolume (fun day => ?_) fun q hq => ?_
  · rw [Crowd.unwritten_concat (hheld day), Crowd.unwritten, Crowd.unwritten, hwaiting,
      onDay_append, ← Multiset.coe_add, add_assoc]
  · rcases List.mem_append.1 hq with hq | hq
    · exact .inl hq
    · obtain rfl := List.mem_singleton.1 hq
      right
      rcases hp with rfl | rfl <;> exact ⟨trivial, by simp⟩

theorem take {j : Journal} {before after : List Place} {order : List Day}
    (h : Tallied dag log acts ⟨j, before ++ .flushing :: after⟩)
    (horder : order.Perm (days (j.waitingFor dag))) :
    Tallied dag (log ++ appendedBy [.take]) (acts ++ [.take])
      ⟨⟨j.waiting.filter (·.1 != dag), j.volume⟩,
        before ++ .writing (j.waitingFor dag) order :: after⟩ := by
  have hmem : ∀ day, day ∈ order ↔ onDay day (j.waitingFor dag) ≠ [] := by
    intro day
    rw [horder.mem_iff, mem_days]
  have hheld : ∀ day,
      (Place.writing (j.waitingFor dag) order).held day = onDay day (j.waitingFor dag) := by
    intro day
    rw [Place.held]
    split
    next => rfl
    next hnot =>
      rw [hmem, not_not] at hnot
      exact hnot.symm
  have hnone : (⟨j.waiting.filter (·.1 != dag), j.volume⟩ : Journal).waitingFor dag = [] := by
    simp [waitingFor, lookup_filter_ne]
  refine h.keep (by simp [appendedBy]) (by simp) rfl (fun day => ?_) fun p hp => ?_
  · rw [Crowd.unwritten_split, Crowd.unwritten_split, hheld, Crowd.unwritten, Crowd.unwritten,
      hnone]
    simp only [Place.held, appendedBy, List.filterMap_cons_none, List.filterMap_nil, onDay_nil,
      Multiset.coe_nil, add_zero, zero_add]
    rw [add_comm]
  · rcases List.mem_append.1 hp with hp | hp
    · exact .inl (List.mem_append_left _ hp)
    · rcases List.mem_cons.1 hp with rfl | hp
      · refine .inr ⟨⟨?_, fun day hday => (hmem day).1 hday⟩, by simp⟩
        rw [horder.nodup_iff]
        exact nodup_eraseDups _
      · exact .inl (List.mem_append_right _ (List.mem_cons_of_mem _ hp))

/-- One step of one call keeps the tally. -/
theorem move (h : Tallied dag log acts c) (hvalid : ∀ e ∈ appendedBy [a], e.Valid)
    (hmove : Move dag c a c') : Tallied dag (log ++ appendedBy [a]) (acts ++ [a]) c' := by
  cases hmove with
  | @append j calls e hdag =>
    have hwaiting : (received j e).waitingFor dag = j.waitingFor dag ++ [e] := by
      rw [received, waitingFor_wait]
      simp [ofDag, hdag]
    refine h.begin ?_ hvalid (by simp) rfl hwaiting
    split
    · exact .inl rfl
    · exact .inr rfl
  | flush => exact h.begin (.inl rfl) hvalid (by simp) rfl (List.append_nil _).symm
  | flushAll =>
    refine h.begin ?_ hvalid (by simp) rfl (List.append_nil _).symm
    split
    · exact .inl rfl
    · exact .inr rfl
  | idle hnone =>
    exact h.goOn rfl (by simp) (fun _ => rfl) trivial (by simp)
  | take hsome horder => exact h.take horder
  | @read j before after events old day days hread =>
    have horderly : (Place.adding events day days old).Orderly :=
      h.orderly (.writing events (day :: days)) (by simp)
    refine h.goOn rfl (by simp) (fun _ => rfl) horderly ?_
    intro events' day' days' old' heq
    obtain ⟨rfl, rfl, rfl, rfl⟩ := Place.adding.inj heq
    exact (Except.ok.inj ((h.sound.readPath_eq dag day).1.symm.trans hread)).symm
  | write => simpa [appendedBy] using h.write
  | leave =>
    exact h.goOn rfl (by simp) (fun _ => by simp [Place.held]) trivial (by simp)

end Tallied

theorem Moves.tallied {dag : DagId} {log : List Event} {acts more : List Act} {c c' : Crowd}
    (hmoves : Moves dag c more c') (h : Tallied dag log acts c)
    (hvalid : ∀ e ∈ appendedBy more, e.Valid) :
    Tallied dag (log ++ appendedBy more) (acts ++ more) c' := by
  induction hmoves with
  | none => simpa [appendedBy] using h
  | @step more c₁ c₂ a _ hmove ih =>
    rw [appendedBy_append, List.forall_mem_append] at hvalid
    rw [appendedBy_append, ← List.append_assoc, ← List.append_assoc]
    exact (ih hvalid.1).move hvalid.2 hmove

end Stagewise.Journal
