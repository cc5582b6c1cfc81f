import Mathlib.Data.List.Induction
import Stagewise.Proofs.Journal.Ledger
/-!
# A journal is the list of its events

Whatever calls a journal gets, one after another, asking for the events of a dag answers with
exactly the events appended for it, sorted by time. When the events were written, on which days they
fall, in which order days, dags and files are taken, and what their texts hold makes no difference,
and neither does making the journal anew on its directory once everything is written.
-/

namespace Stagewise.Journal

/-- A call of a journal; `reopen` makes the journal anew on its directory. -/
inductive Call where
  | append (e : Event)
  | flush (dag : DagId)
  | flushAll
  | eventsOf (dag : DagId)
  | eventsBetween (dag : DagId) (first last : Timestamp)
  | reopen

/-- What a call returns. A call that asks for nothing returns no events. -/
abbrev Answer := Except Failure (List Event)

/-- The events between two points in time, both included. -/
def between (first last : Timestamp) (events : List Event) : List Event :=
  events.filter fun e => first.notAfter e.timestamp && e.timestamp.notAfter last

/-- An event is put into the buffer. -/
def received (j : Journal) (e : Event) : Journal := { j with waiting := wait e j.waiting }

/-- What a call can answer, and what the journal can be then. -/
inductive Step (j : Journal) : Call → Answer → Journal → Prop
  | append {e : Event} (hfew : ((received j e).waitingFor e.dagId).length < flushThreshold) :
      Step j (.append e) (.ok []) (received j e)
  | appendFull {e : Event} {j' : Journal} {r : Except Failure Unit}
      (hmany : flushThreshold ≤ ((received j e).waitingFor e.dagId).length)
      (hflush : Flushes (received j e) e.dagId j' r) :
      Step j (.append e) (r.map fun _ => []) j'
  | flush {dag : DagId} {j' : Journal} {r : Except Failure Unit} (hflush : Flushes j dag j' r) :
      Step j (.flush dag) (r.map fun _ => []) j'
  | flushAll {j' : Journal} {r : Except Failure Unit} (hflush : FlushesAll j j' r) :
      Step j .flushAll (r.map fun _ => []) j'
  | eventsOf {dag : DagId} {j' : Journal} {r : Answer} (hread : Reads j dag j' r) :
      Step j (.eventsOf dag) r j'
  | eventsBetween {dag : DagId} {first last : Timestamp} {j' : Journal} {r : Answer}
      (hread : Reads j dag j' r) :
      Step j (.eventsBetween dag first last) (r.map (between first last)) j'
  | reopen : Step j .reopen (.ok []) ⟨[], j.volume⟩

/-- The journal carries a call out. -/
def perform (j : Journal) : Call → Journal × Answer
  | .append e => (j.append e).map id (·.map fun _ => [])
  | .flush dag => (j.flush dag).map id (·.map fun _ => [])
  | .flushAll => j.flushAll.map id (·.map fun _ => [])
  | .eventsOf dag => j.eventsOf dag
  | .eventsBetween dag first last => j.eventsBetween dag first last
  | .reopen => (⟨[], j.volume⟩, .ok [])

/-- What the journal does is one of the things that it can do. -/
theorem step_perform (j : Journal) (c : Call) : Step j c (j.perform c).2 (j.perform c).1 := by
  cases c with
  | append e =>
    simp only [perform, append]
    split
    next hmany => exact .appendFull hmany (flushes_flush _ _)
    next hfew => exact .append (Nat.lt_of_not_le hfew)
  | flush dag => exact .flush (flushes_flush j dag)
  | flushAll => exact .flushAll (flushesAll_flushAll j)
  | eventsOf dag => exact .eventsOf (reads_eventsOf j dag)
  | eventsBetween dag first last => exact .eventsBetween (reads_eventsOf j dag)
  | reopen => exact .reopen

/-! ### Runs -/

/-- The events that calls append. -/
def appended (calls : List Call) : List Event :=
  calls.filterMap fun
    | .append e => some e
    | _ => none

/-- Whether everything is written since the last event was appended. -/
def written (calls : List Call) : Bool :=
  calls.foldl (fun done call => match call with
    | .append _ => false
    | .flushAll => true
    | _ => done) true

/-- The calls of a journal that begins on an empty directory, each with its answer. The journal is
made anew only when everything is written. -/
inductive Run : List (Call × Answer) → Journal → Prop
  | start : Run [] .empty
  | call {calls : List (Call × Answer)} {j j' : Journal} {c : Call} {r : Answer}
      (hrun : Run calls j) (hwritten : c = .reopen → written (calls.map Prod.fst) = true)
      (hstep : Step j c r j') : Run (calls ++ [(c, r)]) j'

/-- What a call has to answer after the calls before it. -/
def Answers (past : List Call) : Call → Answer → Prop
  | .eventsOf dag, r => ∃ es, r = .ok es ∧ SortedFrom (ofDag dag (appended past)) es
  | .eventsBetween dag first last, r =>
    ∃ es, r = .ok (between first last es) ∧ SortedFrom (ofDag dag (appended past)) es
  | _, r => r = .ok []

@[simp] theorem appended_concat (calls : List Call) (c : Call) :
    appended (calls ++ [c]) = appended calls ++ appended [c] := List.filterMap_append ..

theorem written_concat (calls : List Call) (c : Call) :
    written (calls ++ [c]) = match c with
      | .append _ => false
      | .flushAll => true
      | _ => written calls := by
  simp only [written, List.foldl_append, List.foldl_cons, List.foldl_nil]

/-- A journal that holds the events appended so far, none of them waiting when all are written. -/
structure Current (calls : List Call) (j : Journal) : Prop where
  holds : Holds (appended calls) j
  settled : written calls = true → ∀ dag, j.waitingFor dag = []

namespace Current

variable {calls : List Call} {j j' : Journal} {c : Call} {r : Answer}

/-- A call that appends nothing and leaves nothing waiting that did not wait keeps the journal
current. -/
theorem quiet (h : Current calls j) (hnone : appended [c] = [])
    (hsame : written (calls ++ [c]) = written calls) (hholds : Holds (appended calls) j')
    (hwaiting : ∀ dag, j.waitingFor dag = [] → j'.waitingFor dag = []) :
    Current (calls ++ [c]) j' where
  holds := by rwa [appended_concat, hnone, List.append_nil]
  settled hw dag := hwaiting dag (h.settled (hsame ▸ hw) dag)

/-- Writing the events of one dag leaves nothing waiting that did not wait. -/
theorem waitingFor_eq_nil {dag : DagId}
    (hwaiting : ∀ d, j'.waitingFor d = if d = dag then [] else j.waitingFor d) (d : DagId)
    (hd : j.waitingFor d = []) : j'.waitingFor d = [] := by
  rw [hwaiting]
  split
  · rfl
  · exact hd

/-- One call answers as it has to and keeps the journal current. -/
theorem step (h : Current calls j) (hvalid : ∀ e ∈ appended [c], e.Valid)
    (hwritten : c = .reopen → written calls = true) (hstep : Step j c r j') :
    Answers calls c r ∧ Current (calls ++ [c]) j' := by
  cases hstep with
  | @append e hfew =>
    have hreceived := h.holds.wait (hvalid e (by simp [appended]))
    exact ⟨rfl, by rwa [appended_concat], by simp [written_concat]⟩
  | @appendFull e j' r hmany hflush =>
    have hreceived := h.holds.wait (hvalid e (by simp [appended]))
    obtain ⟨rfl, hholds, -⟩ := hreceived.flushes hflush
    exact ⟨rfl, by rwa [appended_concat], by simp [written_concat]⟩
  | flush hflush =>
    obtain ⟨rfl, hholds, hwaiting⟩ := h.holds.flushes hflush
    exact ⟨rfl, h.quiet rfl (by simp [written_concat]) hholds (waitingFor_eq_nil hwaiting)⟩
  | flushAll hflush =>
    obtain ⟨rfl, hholds, hnone⟩ := h.holds.flushesAll hflush
    exact ⟨rfl, by rw [appended_concat]; simpa [appended] using hholds, fun _ => hnone⟩
  | eventsOf hread =>
    obtain ⟨hanswer, hholds, hwaiting⟩ := h.holds.reads hread
    exact ⟨hanswer, h.quiet rfl (by simp [written_concat]) hholds (waitingFor_eq_nil hwaiting)⟩
  | eventsBetween hread =>
    obtain ⟨⟨es, rfl, hsorted⟩, hholds, hwaiting⟩ := h.holds.reads hread
    exact ⟨⟨es, rfl, hsorted⟩,
      h.quiet rfl (by simp [written_concat]) hholds (waitingFor_eq_nil hwaiting)⟩
  | reopen =>
    -- Nothing waits, so the buffer that is lost holds nothing.
    have hnone := h.settled (hwritten rfl)
    refine ⟨rfl, h.quiet rfl (by simp [written_concat])
      ⟨h.holds.valid, h.holds.sound, fun dag day => ?_⟩ fun _ _ => rfl⟩
    have := h.holds.kept dag day
    rwa [hnone] at this

end Current

/-- Along a run every call answers as it has to, and the journal stays current. -/
theorem Run.current {calls : List (Call × Answer)} {j : Journal} (h : Run calls j)
    (hvalid : ∀ e ∈ appended (calls.map Prod.fst), e.Valid) :
    Current (calls.map Prod.fst) j ∧ ∀ past c r rest, calls = past ++ (c, r) :: rest →
      Answers (past.map Prod.fst) c r := by
  induction h with
  | start => exact ⟨⟨holds_empty, fun _ _ => rfl⟩, by simp⟩
  | @call calls j j' c r _ hwritten hstep ih =>
    rw [List.map_append, List.map_singleton, appended_concat, List.forall_mem_append] at hvalid
    obtain ⟨hcurrent, hanswers⟩ := ih hvalid.1
    obtain ⟨hanswer, hcurrent'⟩ := hcurrent.step hvalid.2 hwritten hstep
    refine ⟨by rwa [List.map_append], fun past c' r' rest heq => ?_⟩
    rcases List.eq_nil_or_concat rest with rfl | ⟨rest, last, rfl⟩
    · obtain ⟨rfl, hlast⟩ := List.append_inj' heq rfl
      obtain ⟨rfl, rfl⟩ := Prod.mk.inj (List.cons.inj hlast).1
      exact hanswer
    · have heq : calls ++ [(c, r)] = (past ++ (c', r') :: rest) ++ [last] := by simpa using heq
      exact hanswers past c' r' rest (List.append_inj' heq rfl).1

/-- All calls can be carried out, in any order in which the journal is made anew only when
everything is written. -/
theorem exists_run {calls : List Call}
    (hreopen : ∀ past rest, calls = past ++ .reopen :: rest → written past = true) :
    ∃ answered j, answered.map Prod.fst = calls ∧ Run answered j := by
  induction calls using List.reverseRecOn with
  | nil => exact ⟨[], .empty, rfl, .start⟩
  | append_singleton calls c ih =>
    obtain ⟨answered, j, rfl, hrun⟩ := ih fun past rest heq =>
      hreopen past (rest ++ [c]) (by simp [heq])
    refine ⟨answered ++ [(c, (j.perform c).2)], (j.perform c).1, by simp,
      .call hrun ?_ (step_perform j c)⟩
    rintro rfl
    exact hreopen _ [] rfl

/-- Every call of every run answers as it has to: asking for the events of a dag gives the events
appended for it, each as often as it was appended, sorted by time, those of one time in the order in
which they were appended. -/
theorem answers_of_run {calls : List (Call × Answer)} {j : Journal} (h : Run calls j)
    (hvalid : ∀ e ∈ appended (calls.map Prod.fst), e.Valid) {past rest : List (Call × Answer)}
    {c : Call} {r : Answer} (hcalls : calls = past ++ (c, r) :: rest) :
    Answers (past.map Prod.fst) c r :=
  (h.current hvalid).2 past c r rest hcalls

namespace Sample

/-- A dag for which two events are appended, the later one first, with a line break in its text. -/
def dag : DagId := ⟨⟨1⟩⟩

def late : Event := ⟨"late", dag, ⟨86400, 0⟩, .dagFailed 1 "first line\nsecond line"⟩

def early : Event := ⟨"early", dag, ⟨86399, 999999999⟩, .stageStarted 1 "first"⟩

def calls : List Call := [.append late, .append early, .flushAll, .reopen, .eventsOf dag]

end Sample

/-- Two events of different days are found sorted by time in a journal made anew. -/
theorem answers_of_run_reopened : ∃ answered j r, answered.map Prod.fst = Sample.calls ∧
    Run answered j ∧ (∃ past, answered = past ++ [(.eventsOf Sample.dag, r)]) ∧
    r = .ok [Sample.early, Sample.late] := by
  have hreopen : ∀ past rest, Sample.calls = past ++ .reopen :: rest → written past = true := by
    intro past rest heq
    rcases past with _ | ⟨a, _ | ⟨b, _ | ⟨c, _ | ⟨d, _ | ⟨e, past⟩⟩⟩⟩⟩ <;>
      simp_all [Sample.calls]
    obtain ⟨rfl, rfl, rfl, rfl⟩ := heq
    rfl
  obtain ⟨answered, j, hcalls, hrun⟩ := exists_run hreopen
  have hvalid : ∀ e ∈ appended (answered.map Prod.fst), e.Valid := by
    rw [hcalls]
    have hlate : Sample.late.Valid := ⟨⟨by decide, by decide, by decide⟩, by decide⟩
    have hearly : Sample.early.Valid := ⟨⟨by decide, by decide, by decide⟩, by decide⟩
    simpa [appended, Sample.calls] using ⟨hlate, hearly⟩
  obtain ⟨past, ⟨c, r⟩, rfl⟩ : ∃ past last, answered = past ++ [last] := by
    rcases List.eq_nil_or_concat answered with rfl | h
    · simp [Sample.calls] at hcalls
    · simpa using h
  have hsplit : past.map Prod.fst ++ [c] =
      [.append Sample.late, .append Sample.early, .flushAll, .reopen] ++
        [.eventsOf Sample.dag] := by
    rw [List.map_append] at hcalls
    exact hcalls
  obtain ⟨hpast, hlast⟩ := List.append_inj' hsplit rfl
  obtain rfl : c = .eventsOf Sample.dag := by simpa using hlast
  obtain ⟨es, rfl, hsorted⟩ := answers_of_run hrun hvalid rfl
  refine ⟨_, j, _, hcalls, hrun, ⟨past, rfl⟩, ?_⟩
  rw [hpast] at hsorted
  have hexpected := sortedFrom_sortByTime (ofDag Sample.dag [Sample.late, Sample.early])
  rw [hsorted.unique hexpected]
  rfl

end Stagewise.Journal
