import Stagewise.Proofs.Journal.Crowd
/-!
# Calls that overlap

A file that was written since a call read it is replaced by what was read before, and the events
written to it in the meantime are gone. Once all calls have returned, the events of a day are all in
the buffer or in the file of the day exactly when every write found in the file what its call had
read there. So it is when at no time two calls have a file in hand, and a call that is left alone
does what writing the waiting events does.
-/

namespace Stagewise.Journal

/-! ### Calls that are left alone -/

theorem Move.moves {dag : DagId} {c c' : Crowd} {a : Act} (h : Move dag c a c') :
    Moves dag c [a] c' := .step .none h

theorem Moves.trans {dag : DagId} {c c₁ c₂ : Crowd} {acts more : List Act}
    (h : Moves dag c acts c₁) (hmore : Moves dag c₁ more c₂) : Moves dag c (acts ++ more) c₂ := by
  induction hmore with
  | none => simpa using h
  | step _ hmove ih =>
    rw [← List.append_assoc]
    exact ih.step hmove

/-- Steps that append nothing and overwrite nothing. -/
def Quiet (acts : List Act) : Prop := appendedBy acts = [] ∧ ∀ day, ¬ overwrote acts day

theorem Quiet.append {acts more : List Act} (h : Quiet acts) (hmore : Quiet more) :
    Quiet (acts ++ more) := by
  constructor
  · rw [appendedBy_append, h.1, hmore.1, List.append_nil]
  · intro day
    rw [overwrote_append, not_or]
    exact ⟨h.2 day, hmore.2 day⟩

theorem Quiet.singleton {a : Act} (hnone : appendedBy [a] = [])
    (hsame : ∀ day old found, a = .write day old found → old = found) : Quiet [a] := by
  refine ⟨hnone, fun day => ?_⟩
  rintro ⟨old, found, hmem, hne⟩
  exact hne (hsame day old found (List.mem_singleton.1 hmem).symm)

section

variable {dag : DagId} {before after : List Place}

theorem exists_moves_addByDay {waiting : List (DagId × List Event)} {v : Volume} (hv : Sound v)
    {events : List Event} {days : List Day}
    (hevents : ∀ day ∈ days, ∀ e ∈ onDay day events, e.Valid) :
    ∃ acts, Quiet acts ∧ Moves dag ⟨⟨waiting, v⟩, before ++ .writing events days :: after⟩ acts
      ⟨⟨waiting, (addByDay dag events days v).1⟩, before ++ .returned :: after⟩ := by
  induction days generalizing v with
  | nil => exact ⟨_, .singleton rfl (by simp), Move.leave.moves⟩
  | cons day days ih =>
    obtain ⟨hday, hdays⟩ := List.forall_mem_cons.1 hevents
    obtain ⟨hread, hold⟩ := hv.readPath_eq dag day
    have hwrite := hv.write dag day (List.forall_mem_append.2 ⟨hold, hday⟩)
    obtain ⟨acts, hquiet, hmoves⟩ := ih hwrite hdays
    have hadd : addByDay dag events (day :: days) v = addByDay dag events days
        (v.write (path dag day)
          (.packed (textOfEvents (eventsAt v dag day ++ onDay day events)))) := by
      rw [addByDay, hv.addToDay_eq dag day]
      rfl
    refine ⟨[.read day] ++ ([.write day (eventsAt v dag day) (eventsAt v dag day)] ++ acts), ?_, ?_⟩
    · apply Quiet.append (.singleton rfl (by simp))
      exact .append (.singleton rfl (by simp)) hquiet
    · rw [hadd]
      exact (Move.read hread).moves.trans (Move.write.moves.trans hmoves)

/-- A call that is left alone does what writing the waiting events does. -/
theorem exists_moves_flush {j : Journal} (hj : Sound j.volume)
    (hvalid : ∀ e ∈ j.waitingFor dag, e.Valid) :
    ∃ acts, Quiet acts ∧ Moves dag ⟨j, before ++ .flushing :: after⟩ acts
      ⟨(j.flush dag).1, before ++ .returned :: after⟩ := by
  by_cases hnone : j.waitingFor dag = []
  · refine ⟨[.take], .singleton rfl (by simp), ?_⟩
    rw [flush, if_pos (List.isEmpty_iff.2 hnone)]
    exact (Move.idle hnone).moves
  · have hflush : (j.flush dag).1 = ⟨j.waiting.filter (·.1 != dag),
        (addByDay dag (j.waitingFor dag) (days (j.waitingFor dag)) j.volume).1⟩ := by
      rw [flush, if_neg (by rwa [List.isEmpty_iff])]
    have hdays : ∀ day ∈ days (j.waitingFor dag), ∀ e ∈ onDay day (j.waitingFor dag), e.Valid :=
      fun _ _ e he => hvalid e (List.mem_filter.1 he).1
    obtain ⟨acts, hquiet, hmoves⟩ := exists_moves_addByDay hj hdays
    refine ⟨[.take] ++ acts, .append (.singleton rfl (by simp)) hquiet, ?_⟩
    rw [hflush]
    exact (Move.take hnone .rfl).moves.trans hmoves

end

namespace Tallied

variable {dag : DagId} {log : List Event} {acts : List Act} {c : Crowd}

theorem exists_moves_return {j : Journal} {before after : List Place} {p : Place}
    (h : Tallied dag log acts ⟨j, before ++ p :: after⟩) :
    ∃ more j', appendedBy more = [] ∧
      Moves dag ⟨j, before ++ p :: after⟩ more ⟨j', before ++ .returned :: after⟩ := by
  have hp : p ∈ before ++ p :: after := by simp
  cases p with
  | flushing =>
    obtain ⟨more, hquiet, hmoves⟩ := exists_moves_flush h.sound fun e he => h.valid_of_waiting he
    exact ⟨more, _, hquiet.1, hmoves⟩
  | writing events days =>
    have hevents : ∀ day ∈ days, ∀ e ∈ onDay day events, e.Valid := by
      intro day hday e he
      apply h.valid_of_held hp
      rwa [Place.held, if_pos hday]
    obtain ⟨more, hquiet, hmoves⟩ := exists_moves_addByDay h.sound hevents
    exact ⟨more, _, hquiet.1, hmoves⟩
  | adding events day days old =>
    have hevents : ∀ d ∈ days, ∀ e ∈ onDay d events, e.Valid := by
      intro d hd e he
      apply h.valid_of_held hp
      rwa [Place.held, if_pos (List.mem_cons_of_mem _ hd)]
    obtain ⟨more, hquiet, hmoves⟩ := exists_moves_addByDay h.write.sound hevents
    exact ⟨_, _, by rw [appendedBy_append, hquiet.1]; rfl, Move.write.moves.trans hmoves⟩
  | returned => exact ⟨[], j, rfl, .none⟩

/-- Any calls can go on until all of them have returned. -/
theorem exists_moves_returned (h : Tallied dag log acts c) :
    ∃ more c', appendedBy more = [] ∧ Moves dag c more c' ∧ ∀ p ∈ c'.calls, p = .returned := by
  obtain ⟨j, calls⟩ := c
  -- The calls return one after another; those in `before` have returned.
  suffices ∀ after before j acts, (∀ p ∈ before, p = .returned) →
      Tallied dag log acts ⟨j, before ++ after⟩ → ∃ more c', appendedBy more = [] ∧
        Moves dag ⟨j, before ++ after⟩ more c' ∧ ∀ p ∈ c'.calls, p = .returned from
    this calls [] j acts (by simp) h
  intro after
  induction after with
  | nil =>
    intro before j acts hbefore _
    exact ⟨[], _, rfl, .none, by simpa using hbefore⟩
  | cons p after ih =>
    intro before j acts hbefore h
    obtain ⟨more, j', hnone, hmoves⟩ := h.exists_moves_return
    have h' := hmoves.tallied h (by simp [hnone])
    rw [hnone, List.append_nil, List.append_cons before .returned after] at h'
    have hbefore' : ∀ q ∈ before ++ [.returned], q = .returned :=
      List.forall_mem_append.2 ⟨hbefore, by simp⟩
    obtain ⟨rest, c', hnone', hmoves', hreturned⟩ := ih _ j' _ hbefore' h'
    rw [← List.append_cons] at hmoves'
    exact ⟨more ++ rest, c', by rw [appendedBy_append, hnone, hnone']; rfl, hmoves.trans hmoves',
      hreturned⟩

end Tallied

theorem Tallied.perm_iff {dag : DagId} {log : List Event} {acts : List Act} {c : Crowd}
    (h : Tallied dag log acts c) (hreturned : ∀ p ∈ c.calls, p = .returned) (day : Day) :
    (c.present dag day).Subperm (onDay day log) ∧
      ((c.present dag day).Perm (onDay day log) ↔ ¬ overwrote acts day) := by
  have hle := h.total_le day
  have hlost := h.overwrote_iff day
  rw [Crowd.total_of_returned hreturned] at hle hlost
  rw [hle.lt_iff_ne] at hlost
  refine ⟨Multiset.coe_le.1 hle, ?_⟩
  rw [hlost, ← Multiset.coe_eq_coe, not_not]

/-! ### One file in hand at a time -/

/-- Whether a call has read a file that it is going to write. -/
def Place.isAdding : Place → Bool
  | .adding .. => true
  | _ => false

namespace Crowd

def Exclusive (c : Crowd) : Prop := c.calls.countP Place.isAdding ≤ 1

/-- What a call has read of a file is what the file holds. -/
def UpToDate (dag : DagId) (c : Crowd) : Prop :=
  ∀ events day days old, .adding events day days old ∈ c.calls →
    old = eventsAt c.journal.volume dag day

variable {dag : DagId} {j : Journal} {before after : List Place} {p q : Place}

theorem Exclusive.not_adding (h : Exclusive ⟨j, before ++ p :: after⟩) (hp : p.isAdding = true) :
    ∀ q ∈ before ++ after, q.isAdding = false := by
  have hcount : (before ++ after).countP Place.isAdding = 0 := by
    rw [Exclusive, List.countP_append, List.countP_cons_of_pos hp] at h
    rw [List.countP_append]
    omega
  intro q hq
  exact Bool.eq_false_iff.2 (List.countP_eq_zero.1 hcount q hq)

theorem UpToDate.goOn (h : UpToDate dag ⟨j, before ++ p :: after⟩)
    (hq : ∀ events day days old, q = .adding events day days old →
      old = eventsAt j.volume dag day) : UpToDate dag ⟨j, before ++ q :: after⟩ := by
  intro events day days old hmem
  rcases List.mem_append.1 hmem with hmem | hmem
  · exact h events day days old (List.mem_append_left _ hmem)
  · rcases List.mem_cons.1 hmem with hmem | hmem
    · exact hq events day days old hmem.symm
    · exact h events day days old (List.mem_append_right _ (List.mem_cons_of_mem _ hmem))

theorem UpToDate.begin {j' : Journal} {calls : List Place} (h : UpToDate dag ⟨j, calls⟩)
    (hvolume : j'.volume = j.volume) (hp : p = .flushing ∨ p = .returned) :
    UpToDate dag ⟨j', calls ++ [p]⟩ := by
  intro events day days old hmem
  rw [hvolume]
  rcases List.mem_append.1 hmem with hmem | hmem
  · exact h events day days old hmem
  · rcases hp with rfl | rfl <;> cases List.mem_singleton.1 hmem

/-- A call that writes while no other has a file in hand finds what it had read there. -/
theorem UpToDate.move {c c' : Crowd} {a : Act} (h : c.UpToDate dag) (hexclusive : c.Exclusive)
    (hmove : Move dag c a c') : c'.UpToDate dag ∧ ∀ day, ¬ overwrote [a] day := by
  cases hmove with
  | append hdag =>
    refine ⟨h.begin rfl ?_, not_overwrote_singleton (by simp)⟩
    split
    · exact .inl rfl
    · exact .inr rfl
  | flush => exact ⟨h.begin rfl (.inl rfl), not_overwrote_singleton (by simp)⟩
  | flushAll =>
    refine ⟨h.begin rfl ?_, not_overwrote_singleton (by simp)⟩
    split
    · exact .inl rfl
    · exact .inr rfl
  | idle hnone => exact ⟨h.goOn (by simp), not_overwrote_singleton (by simp)⟩
  | take hsome horder => exact ⟨h.goOn (by simp), not_overwrote_singleton (by simp)⟩
  | @read j before after events old day days hread =>
    refine ⟨h.goOn ?_, not_overwrote_singleton (by simp)⟩
    intro events' day' days' old' heq
    obtain ⟨rfl, rfl, rfl, rfl⟩ := Place.adding.inj heq
    rw [eventsAt, hread]
    rfl
  | @write j before after events old day days =>
    constructor
    · intro events' day' days' old' hmem
      have hother : .adding events' day' days' old' ∈ before ++ after := by
        simpa using hmem
      cases hexclusive.not_adding rfl _ hother
    · intro d
      rw [overwrote_write]
      rintro ⟨-, hne⟩
      exact hne (h events day days old (by simp))
  | leave => exact ⟨h.goOn (by simp), not_overwrote_singleton (by simp)⟩

end Crowd

/-- If at no time two calls have a file in hand, nothing is overwritten. -/
theorem Moves.upToDate {dag : DagId} {j : Journal} {acts : List Act} {c : Crowd}
    (h : Moves dag ⟨j, []⟩ acts c) (hexclusive : ∀ first rest c₁, acts = first ++ rest →
      Moves dag ⟨j, []⟩ first c₁ → Moves dag c₁ rest c → c₁.Exclusive) :
    c.UpToDate dag ∧ ∀ day, ¬ overwrote acts day := by
  induction h with
  | none => exact ⟨by simp [Crowd.UpToDate], by simp [overwrote]⟩
  | @step acts c₁ c₂ a hmoves hmove ih =>
    have hbefore := ih fun first rest c' hacts hfirst hrest =>
      hexclusive first (rest ++ [a]) c' (by rw [hacts, List.append_assoc]) hfirst
        (hrest.step hmove)
    have hafter := hbefore.1.move (hexclusive acts [a] c₁ rfl hmoves hmove.moves) hmove
    refine ⟨hafter.1, fun day => ?_⟩
    rw [overwrote_append, not_or]
    exact ⟨hbefore.2 day, hafter.2 day⟩

/-- Nothing is lost if at no time two calls have a file in hand, as it would be if a call kept the
buffer locked until it has written. -/
theorem present_perm_of_exclusive {dag : DagId} {log : List Event} {j : Journal} {acts : List Act}
    {c : Crowd} (h : Moves dag ⟨j, []⟩ acts c) (hj : Holds log j)
    (hvalid : ∀ e ∈ appendedBy acts, e.Valid) (hreturned : ∀ p ∈ c.calls, p = .returned)
    (hexclusive : ∀ first rest c₁, acts = first ++ rest →
      Moves dag ⟨j, []⟩ first c₁ → Moves dag c₁ rest c → c₁.Exclusive) (day : Day) :
    (c.present dag day).Perm (onDay day (ofDag dag log ++ appendedBy acts)) := by
  have htally := h.tallied (hj.tallied dag) hvalid
  exact (htally.perm_iff hreturned day).2.2 ((h.upToDate hexclusive).2 day)

/-! ### Two files in hand -/

/-- Of any two events of one dag and day one can be lost: while a call that has the first in hand is
between reading and writing the file, the second is appended and written. -/
theorem exists_overwrote {e f : Event} (hf : f.Valid) (hdag : f.dagId = e.dagId)
    (hday : f.timestamp.day = e.timestamp.day) :
    ∃ acts c, Moves e.dagId ⟨received .empty e, []⟩ acts c ∧ (∀ p ∈ c.calls, p = .returned) ∧
      appendedBy acts = [f] ∧ overwrote acts e.timestamp.day := by
  set dag := e.dagId with hdag'
  set day := e.timestamp.day with hday'
  have hwaiting : ∀ g : Event, g.dagId = dag → (received .empty g).waitingFor dag = [g] := by
    intro g hg
    rw [received, waitingFor_wait]
    simp [ofDag, hg, waitingFor, empty]
  -- A call takes the first event and reads the file, in which there is nothing.
  have htake : Moves dag ⟨received .empty e, []⟩ ([.call] ++ ([.take] ++ [.read day]))
      ⟨.empty, [.adding [e] day [] []]⟩ := by
    have hgone : (received .empty e).waiting.filter (·.1 != dag) = [] := by
      simp [received, empty, wait, hdag']
    have hmove : Move dag ⟨received .empty e, [] ++ .flushing :: []⟩ .take
        ⟨⟨(received .empty e).waiting.filter (·.1 != dag), .empty⟩,
          [] ++ .writing ((received .empty e).waitingFor dag) [day] :: []⟩ := by
      apply Move.take
      · simp [hwaiting e rfl]
      · rw [hwaiting e rfl]
        exact .rfl
    rw [hwaiting e rfl, hgone] at hmove
    exact Move.flush.moves.trans (hmove.moves.trans (Move.read rfl).moves)
  have happend : Moves dag ⟨.empty, [.adding [e] day [] []]⟩ ([.append f] ++ [.call])
      ⟨received .empty f, [.adding [e] day [] [], .returned, .flushing]⟩ := by
    have hmove : Move dag ⟨.empty, [.adding [e] day [] []]⟩ (.append f) ⟨received .empty f,
        [.adding [e] day [] []] ++ [if flushThreshold ≤ ((received .empty f).waitingFor dag).length
          then .flushing else .returned]⟩ := .append hdag
    rw [hwaiting f hdag, if_neg (by simp [flushThreshold])] at hmove
    exact hmove.moves.trans Move.flush.moves
  -- The second call is left alone and writes the second event.
  have hholds : Holds [f] (received .empty f) := holds_empty.wait hf
  set j := ((received .empty f).flush dag).1
  obtain ⟨acts, hquiet, hflush⟩ : ∃ acts, Quiet acts ∧ Moves dag
      ⟨received .empty f, [.adding [e] day [] [], .returned] ++ .flushing :: []⟩ acts
      ⟨j, [.adding [e] day [] [], .returned] ++ .returned :: []⟩ :=
    exists_moves_flush hholds.sound fun g hg => hholds.valid g (hholds.of_waiting hg).1
  have hfound : eventsAt j.volume dag day = [f] := by
    obtain ⟨-, hholds', hnone⟩ := hholds.flushes (flushes_flush _ dag)
    have hkept := hholds'.kept dag day
    simpa [hnone, ofDag, onDay, hdag, hday] using hkept
  -- Then the first call goes on as if nothing were in the file.
  have hwrite : Move dag ⟨j, [] ++ .adding [e] day [] [] :: [.returned, .returned]⟩
      (.write day [] (eventsAt j.volume dag day)) ⟨_, [] ++ .writing [e] [] :: _⟩ := .write
  refine ⟨_, _, htake.trans (happend.trans (hflush.trans (hwrite.moves.trans Move.leave.moves))),
    by simp, ?_, [], [f], ?_, by simp⟩
  · simp only [appendedBy_append, hquiet.1]
    rfl
  · simp [hfound]

/-- An event of the sample's dag, a second after `late`. -/
def Sample.later : Event := ⟨"later", dag, ⟨86401, 0⟩, .dagSucceeded⟩

/-- For any interleaving of any calls that have all returned, each event of a day is at most as
often in the file or the buffer as it was appended, and all of them are there exactly when every
write to the file found in it what its call had read. -/
theorem present_perm_iff {dag : DagId} {log : List Event} {j : Journal} {acts : List Act}
    {c : Crowd} (h : Moves dag ⟨j, []⟩ acts c) (hj : Holds log j)
    (hvalid : ∀ e ∈ appendedBy acts, e.Valid)
    (hreturned : ∀ p ∈ c.calls, p = .returned) (day : Day) :
    (c.present dag day).Subperm (onDay day (ofDag dag log ++ appendedBy acts)) ∧
      ((c.present dag day).Perm (onDay day (ofDag dag log ++ appendedBy acts)) ↔
        ∀ old found, .write day old found ∈ acts → old = found) := by
  have htally := h.tallied (hj.tallied dag) hvalid
  obtain ⟨hsub, hperm⟩ := htally.perm_iff hreturned day
  refine ⟨hsub, hperm.trans ?_⟩
  constructor
  · intro hkept old found hwrite
    by_contra hne
    exact hkept ⟨old, found, hwrite, hne⟩
  · rintro hsame ⟨old, found, hwrite, hne⟩
    exact hne (hsame old found hwrite)

/-- One of two events appended to an empty journal can be in no file and not in the buffer once all
calls have returned. -/
theorem present_perm_iff_lost : ∃ acts c,
    Moves Sample.dag ⟨received .empty Sample.late, []⟩ acts c ∧ (∀ p ∈ c.calls, p = .returned) ∧
      appendedBy acts = [Sample.later] ∧
      ¬ (c.present Sample.dag Sample.late.timestamp.day).Perm [Sample.late, Sample.later] := by
  have hlate : Sample.late.Valid := ⟨⟨by decide, by decide, by decide⟩, by decide⟩
  have hlater : Sample.later.Valid := ⟨⟨by decide, by decide, by decide⟩, by decide⟩
  have hday : Sample.later.timestamp.day = Sample.late.timestamp.day := by decide
  obtain ⟨acts, c, hmoves, hreturned, hacts, hlost⟩ :=
    exists_overwrote (e := Sample.late) hlater rfl hday
  refine ⟨acts, c, hmoves, hreturned, hacts, fun hall => ?_⟩
  obtain ⟨old, found, hwrite, hne⟩ := hlost
  have hkept := present_perm_iff hmoves (holds_empty.wait hlate)
    (by simpa [hacts] using hlater) hreturned Sample.late.timestamp.day
  refine hne (hkept.2.1 ?_ old found hwrite)
  have hlog : onDay Sample.late.timestamp.day
      (ofDag Sample.dag [Sample.late] ++ appendedBy acts) = [Sample.late, Sample.later] := by
    rw [hacts]
    decide
  exact hlog ▸ hall

end Stagewise.Journal
