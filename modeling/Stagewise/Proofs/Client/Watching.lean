import Stagewise.Proofs.Arena.Rewriting
import Stagewise.Proofs.Client.Requests
import Stagewise.Proofs.Document.Message
/-!
# What a watch tells

A watch makes one poll after another until a record is final, a poll fails, or it gives up. It tells
of the stages one, two and so on, each once and as soon as a record reaches it, however the stages
of the records jump; and of the end of the dag once, after them, exactly when a final record came
in.
-/

namespace Stagewise

variable {σ : Type}

namespace Observer

/-- What is done in a part of a state. -/
def within {α : Type} (x : StateM σ α) : StateM (σ × List Milestone) α :=
  fun s => ((x.run s.1).1, (x.run s.1).2, s.2)

/-- The same observer, with a list kept of the milestones that it is told of. -/
def listening (o : Observer (StateM σ)) : Observer (StateM (σ × List Milestone)) where
  exchange url r timeoutMs := within (o.exchange url r timeoutMs)
  pause ms := within (o.pause ms)
  tell milestone := fun s =>
    (((o.tell milestone).run s.1).1, ((o.tell milestone).run s.1).2, s.2 ++ [milestone])
  isCancelled := within o.isCancelled
  raise := within o.raise
  rest ms := within (o.rest ms)

/-- The observer can be told of every milestone that can be shown. -/
def Attentive (o : Observer (StateM σ)) : Prop :=
  ∀ (milestone : Milestone) (s : σ), milestone.lines?.isSome = true →
    ((o.tell milestone).run s).1 = true

variable {α β : Type}

theorem within_pure (a : α) : (within (pure a : StateM σ α)) = pure a := rfl

theorem within_bind (x : StateM σ α) (f : α → StateM σ β) :
    within (x >>= f) = within x >>= fun a => within (f a) := rfl

theorem run_within (x : StateM σ α) (s : σ) (told : List Milestone) :
    (within x).run (s, told) = ((x.run s).1, (x.run s).2, told) := rfl

theorem run_isCancelled_listening (o : Observer (StateM σ)) (s : σ) (told : List Milestone) :
    o.listening.isCancelled.run (s, told) =
      ((o.isCancelled.run s).1, (o.isCancelled.run s).2, told) := rfl

theorem run_tell_listening (o : Observer (StateM σ)) (milestone : Milestone) (s : σ)
    (told : List Milestone) :
    (o.listening.tell milestone).run (s, told) =
      (((o.tell milestone).run s).1, ((o.tell milestone).run s).2, told ++ [milestone]) := rfl

end Observer

open Observer

variable {o : Observer (StateM σ)}

/-! ## Nothing is told while a record is fetched -/

theorem Client.send_listening (c : Client) (url : Http.Url) (r : Http.Request) :
    c.send o.listening.toWire url r = within (c.send o.toWire url r) := rfl

theorem Client.sendRepeatedly_listening (c : Client) (url : Http.Url) (r : Http.Request)
    (left : Nat) :
    c.sendRepeatedly o.listening.toWire url r left =
      within (c.sendRepeatedly o.toWire url r left) := by
  induction left with
  | zero => rfl
  | succ left ih =>
    simp only [sendRepeatedly, send_listening, within_bind]
    refine congrArg _ (funext fun result => ?_)
    cases result with
    | ok response => rfl
    | error e =>
      cases hmends : e.isRetryable with
      | false => simp only [hmends, Bool.false_eq_true, if_false, within_pure]
      | true =>
        simp only [hmends, if_true, ih, within_bind]
        rfl

theorem Client.perform_listening {α : Type} (c : Client) (call : ApiCall α) :
    c.perform o.listening.toWire call = within (c.perform o.toWire call) := by
  simp only [perform]
  cases c.requestFor call with
  | error e => rfl
  | ok sending =>
    cases hread : call.isRead with
    | true =>
      simp only [if_true, sendRepeatedly_listening, within_bind, within_pure]
    | false =>
      simp only [Bool.false_eq_true, if_false, send_listening, within_bind, within_pure]

namespace Handle

theorem fetchOnce_listening (h : Handle) :
    h.fetchOnce o.listening.toWire = within (h.fetchOnce o.toWire) := by
  simp only [fetchOnce]
  cases h.upgrade with
  | false => simp only [Bool.false_eq_true, if_false, Client.perform_listening]
  | true =>
    simp only [if_true, Client.perform_listening, within_bind]
    refine congrArg _ (funext fun result => ?_)
    split <;> rfl

theorem fetchRepeatedly_listening (h : Handle) (left : Nat) :
    h.fetchRepeatedly o.listening.toWire left = within (h.fetchRepeatedly o.toWire left) := by
  induction left with
  | zero => exact h.fetchOnce_listening
  | succ left ih =>
    simp only [fetchRepeatedly, fetchOnce_listening, within_bind]
    refine congrArg _ (funext fun result => ?_)
    cases result with
    | ok d => rfl
    | error e =>
      cases hmends : e.isRetryable with
      | false => simp only [hmends, Bool.false_eq_true, if_false, within_pure]
      | true =>
        simp only [hmends, if_true, ih, within_bind]
        rfl

theorem fetch_listening (h : Handle) : h.fetch o.listening.toWire = within (h.fetch o.toWire) :=
  h.fetchRepeatedly_listening h.retryTimes

theorem logsOf_listening (h : Handle) (d : Dag) (task : Option Task) :
    h.logsOf o.listening.toWire d task = within (h.logsOf o.toWire d task) := by
  cases task with
  | none => rfl
  | some t =>
    simp only [logsOf, Client.perform_listening, within_bind]
    refine congrArg _ (funext fun result => ?_)
    cases result <;> rfl

/-! ## One look -/

/-- How a final record is told of, and what the watch comes to. -/
inductive Closing (d : Dag) : Milestone → Except ClientError Dag → Prop
  | succeeded (status : d.status = .succeeded) : Closing d (.succeeded d) (.ok d)
  | cancelled (status : d.status = .cancelled) : Closing d (.cancelled d) (.ok d)
  | rolledBack (status : d.status = .failed) (undone : d.isRolledBack? = some true) :
      Closing d (.rolledBack d) (.ok d)
  | task {node : Node} {task : Task} {logs : List LogEntry} (status : d.status = .failed)
      (left : d.isRolledBack? = some false) (failed : d.failedTask? = some (some (node, task))) :
      Closing d (.failed d node.name (some task) logs)
        (.error (.dagFailed d.name node.name (some task.name)))
  | stage {node : Node} (status : d.status = .failed) (left : d.isRolledBack? = some false)
      (failed : d.failedTask? = some none) (current : d.currentNode? = some node) :
      Closing d (.failed d node.name none []) (.error (.dagFailed d.name node.name none))

/-- What a watch makes of a poll, and the milestones that it tells of at this. -/
inductive Looked (w : Watch) :
    Except ClientError Dag → Watch ⊕ Watched → List Milestone → Prop
  | lost (e : ClientError) : Looked w (.error e) (.inr (.ended (.error e))) []
  | closed {d : Dag} {milestone : Milestone} {result : Except ClientError Dag}
      (finished : d.isFinished = true) (closing : Closing d milestone result) :
      Looked w (.ok d) (.inr (.ended result))
        ((w.newStages d).map (.stageStarted d) ++ [milestone])
  | gaveUp {d : Dag} (text : String) (unfinished : d.isFinished = false) :
      Looked w (.ok d) (.inr (.ended (.error (.waitTimeout text))))
        ((w.newStages d).map (.stageStarted d))
  | goesOn {d : Dag} {w' : Watch} (unfinished : d.isFinished = false)
      (reported : w'.reported = max w.reported d.stage) :
      Looked w (.ok d) (.inl w') ((w.newStages d).map (.stageStarted d))

/-- A final record ended well or badly, and is told of in that way. -/
theorem closing_of_finished {d : Dag} (staged : d.Staged) (finished : d.isFinished = true) :
    (∃ milestone, d.verdict? = some (.well milestone) ∧ milestone.lines?.isSome = true ∧
      Closing d milestone (.ok d)) ∨
    ∃ node task, d.verdict? = some (.badly node task) ∧
      ∀ logs, (task = none → logs = []) → Closing d (.failed d node task logs)
        (.error (.dagFailed d.name node (task.map (·.name)))) := by
  obtain ⟨n, hn⟩ := staged.currentNode
  obtain ⟨found, hfound⟩ := staged.failedTask
  obtain ⟨answer, hanswer⟩ := staged.rolledBack
  cases hstatus : d.status with
  | running => rw [Dag.isFinished, hstatus] at finished; cases finished
  | succeeded =>
    refine .inl ⟨.succeeded d, by rw [Dag.verdict?, hstatus], ?_, .succeeded hstatus⟩
    rw [Milestone.lines?, hn]
    rfl
  | cancelled => exact .inl ⟨.cancelled d, by rw [Dag.verdict?, hstatus], rfl, .cancelled hstatus⟩
  | failed =>
    cases answer with
    | true =>
      refine .inl ⟨.rolledBack d, ?_, rfl, .rolledBack hstatus hanswer⟩
      simp only [Dag.verdict?, hstatus, hanswer]
      rfl
    | false =>
      refine .inr ?_
      cases found with
      | some place =>
        obtain ⟨node, task⟩ := place
        refine ⟨node.name, some task, ?_, fun logs _ => .task hstatus hanswer hfound⟩
        simp only [Dag.verdict?, hstatus, hanswer, hfound]
        rfl
      | none =>
        refine ⟨n.name, none, ?_, fun logs hlogs => ?_⟩
        · simp only [Dag.verdict?, hstatus, hanswer, hfound, hn]
          rfl
        · rw [hlogs rfl]
          exact .stage hstatus hanswer hfound hn

theorem run_finish (hattentive : o.Attentive) (h : Handle) {d : Dag} (staged : d.Staged)
    (finished : d.isFinished = true) (s : σ) :
    ∃ milestone result, Closing d milestone result ∧
      ((h.finish o d).run s).1 = .ended result ∧
      ∀ told, (h.finish o.listening d).run (s, told) =
        (((h.finish o d).run s).1, ((h.finish o d).run s).2, told ++ [milestone]) := by
  rcases closing_of_finished staged finished with
    ⟨milestone, hverdict, hlines, hclosing⟩ | ⟨node, task, hverdict, hclosing⟩
  · refine ⟨milestone, .ok d, hclosing, ?_⟩
    have htold := hattentive milestone s hlines
    simp only [finish, hverdict, run_bind, run_tell_listening, htold, if_true]
    exact ⟨rfl, fun told => rfl⟩
  · have hlogs : task = none → ((h.logsOf o.toWire d task).run s).1 = [] := by
      rintro rfl
      rfl
    have htold := hattentive (.failed d node task ((h.logsOf o.toWire d task).run s).1)
      ((h.logsOf o.toWire d task).run s).2 rfl
    refine ⟨_, _, hclosing _ hlogs, ?_⟩
    simp only [finish, hverdict, run_bind, logsOf_listening, run_within, run_tell_listening, htold,
      if_true]
    exact ⟨rfl, fun told => rfl⟩

theorem run_tellStages (d : Dag) (stages : List Nat) (s : σ) :
    ∃ s', (forIn stages PUnit.unit fun stage _ => do
          let _ ← o.tell (.stageStarted d stage)
          pure (ForInStep.yield PUnit.unit) : StateM σ PUnit).run s = (PUnit.unit, s') ∧
      ∀ told, (forIn stages PUnit.unit fun stage _ => do
          let _ ← o.listening.tell (.stageStarted d stage)
          pure (ForInStep.yield PUnit.unit) : StateM (σ × List Milestone) PUnit).run (s, told) =
        (PUnit.unit, s', told ++ stages.map (.stageStarted d)) := by
  induction stages generalizing s with
  | nil => exact ⟨s, rfl, fun told => by rw [List.map_nil, List.append_nil]; rfl⟩
  | cons stage stages ih =>
    obtain ⟨s', hrun, htold⟩ := ih ((o.tell (.stageStarted d stage)).run s).2
    refine ⟨s', ?_, fun told => ?_⟩
    · rw [List.forIn_cons, run_bind, run_bind]
      exact hrun
    · rw [List.forIn_cons, run_bind, run_bind, run_tell_listening]
      refine (htold _).trans ?_
      rw [List.map_cons, List.append_assoc, List.singleton_append]

/-- What a watch does after a record: it ends with a final one, and else remembers its stage or
gives up. -/
theorem next_cases (w : Watch) (cancelled : Bool) (d : Dag) :
    (d.isFinished = true ∧ w.next cancelled d = .finish) ∨
      d.isFinished = false ∧ (w.next cancelled d = .giveUp ∨
        ∃ w' : Watch, w'.reported = max w.reported d.stage ∧
          (w.next cancelled d = .check w' ∨ w.next cancelled d = .poll w')) := by
  cases hfinished : d.isFinished with
  | true => exact .inl ⟨rfl, by rw [Watch.next, hfinished, if_pos rfl]⟩
  | false =>
    refine .inr ⟨rfl, ?_⟩
    simp only [Watch.next, hfinished, Bool.false_eq_true, if_false]
    cases cancelled with
    | false => exact .inr ⟨_, rfl, .inr rfl⟩
    | true =>
      cases w.checksLeft with
      | zero => exact .inl rfl
      | succ left => exact .inr ⟨⟨_, left⟩, rfl, .inl rfl⟩

/-- What a look makes of its poll, with someone listening or not. -/
theorem run_look (hattentive : o.Attentive) (h : Handle) (w : Watch) (s : σ)
    (hstaged : ∀ d, ((h.fetch o.toWire).run s).1 = .ok d → d.Staged) :
    ∃ milestones, Looked w ((h.fetch o.toWire).run s).1 ((h.look o w).run s).1 milestones ∧
      ∀ told, (h.look o.listening w).run (s, told) =
        (((h.look o w).run s).1, ((h.look o w).run s).2, told ++ milestones) := by
  simp only [look, run_bind, fetch_listening, run_within]
  cases hpoll : ((h.fetch o.toWire).run s).1 with
  | error e => exact ⟨[], .lost e, fun told => by rw [List.append_nil]; rfl⟩
  | ok d =>
    obtain ⟨s', hstages, htold⟩ :=
      run_tellStages (o := o) d (w.newStages d) ((h.fetch o.toWire).run s).2
    simp only [run_bind, hstages, htold, run_isCancelled_listening]
    rcases next_cases w (o.isCancelled.run s').1 d with
      ⟨finished, hnext⟩ | ⟨unfinished, hnext | ⟨w', hreported, hnext | hnext⟩⟩
    · obtain ⟨milestone, result, hclosing, hended, hheard⟩ :=
        run_finish hattentive h (hstaged d hpoll) finished (o.isCancelled.run s').2
      simp only [hnext, run_bind, hheard, hended, List.append_assoc]
      exact ⟨_, .closed finished hclosing, fun told => rfl⟩
    · simp only [hnext]
      exact ⟨_, .gaveUp _ unfinished, fun told => rfl⟩
    · simp only [hnext]
      exact ⟨_, .goesOn unfinished hreported, fun told => rfl⟩
    · simp only [hnext]
      exact ⟨_, .goesOn unfinished hreported, fun told => rfl⟩

/-! ## The whole watch -/

/-- The polls of a watch with so many looks. -/
def polls (o : Observer (StateM σ)) (h : Handle) :
    (looks : Nat) → Watch → σ → List (Except ClientError Dag)
  | 0, _, _ => []
  | looks + 1, w, s =>
    ((h.fetch o.toWire).run s).1 ::
      match (h.look o w).run s with
      | (.inl w, s) => polls o h looks w s
      | (.inr _, _) => []

theorem forall_polls {h : Handle} {P : Except ClientError Dag → Prop}
    (hfetch : ∀ s, P ((h.fetch o.toWire).run s).1) (looks : Nat) (w : Watch) (s : σ) :
    ∀ poll ∈ polls o h looks w s, P poll := by
  induction looks generalizing w s with
  | zero => exact fun poll hpoll => absurd hpoll List.not_mem_nil
  | succ looks ih =>
    rw [polls]
    refine List.forall_mem_cons.2 ⟨hfetch s, ?_⟩
    split
    · exact ih _ _
    · exact fun poll hpoll => absurd hpoll List.not_mem_nil

/-- What a watch makes of one poll after another, and the milestones that it tells of. -/
inductive Watching :
    Watch → List (Except ClientError Dag) → Option Watched → List Milestone → Prop
  | resting (w : Watch) : Watching w [] none []
  | ended {w : Watch} {poll : Except ClientError Dag} {result : Watched}
      {milestones : List Milestone} (hlook : Looked w poll (.inr result) milestones) :
      Watching w [poll] (some result) milestones
  | on {w w' : Watch} {poll : Except ClientError Dag} {rest : List (Except ClientError Dag)}
      {result : Option Watched} {milestones later : List Milestone}
      (hlook : Looked w poll (.inl w') milestones) (hrest : Watching w' rest result later) :
      Watching w (poll :: rest) result (milestones ++ later)

theorem run_watchFrom (hattentive : o.Attentive) (h : Handle) (looks : Nat) (w : Watch) (s : σ)
    (hstaged : ∀ d, .ok d ∈ polls o h looks w s → d.Staged) (told : List Milestone) :
    ∃ s' milestones, (h.watchFrom o.listening looks w).run (s, told) =
        (((h.watchFrom o looks w).run s).1, s', told ++ milestones) ∧
      Watching w (polls o h looks w s) ((h.watchFrom o looks w).run s).1 milestones := by
  induction looks generalizing w s told with
  | zero => exact ⟨s, [], by rw [List.append_nil]; rfl, .resting w⟩
  | succ looks ih =>
    obtain ⟨milestones, hlooked, hheard⟩ := run_look hattentive h w s
      fun d hd => hstaged d (List.mem_cons.2 (.inl hd.symm))
    simp only [watchFrom, run_bind, hheard]
    simp only [polls] at hstaged ⊢
    cases hlook : (h.look o w).run s with
    | mk next s' =>
      simp only [hlook] at hstaged hlooked ⊢
      cases next with
      | inr result => exact ⟨s', milestones, rfl, .ended hlooked⟩
      | inl w' =>
        obtain ⟨s'', later, hrun, hwatching⟩ := ih w' s'
          (fun d hd => hstaged d (List.mem_cons_of_mem _ hd)) (told ++ milestones)
        exact ⟨s'', milestones ++ later, by rw [hrun, List.append_assoc], .on hlooked hwatching⟩

/-- The records that came in, in the order in which they came. -/
def snapshots (polls : List (Except ClientError Dag)) : List Dag := polls.filterMap Except.toOption

/-- The largest stage of the records that came in. -/
def topStage (polls : List (Except ClientError Dag)) : Nat :=
  (snapshots polls).foldr (fun d top => max d.stage top) 0

/-- The milestone tells of the stage, with the first record that reaches it. -/
def TellsOf (polls : List (Except ClientError Dag)) (stage : Nat) (milestone : Milestone) : Prop :=
  ∃ d, (snapshots polls).find? (stage ≤ ·.stage) = some d ∧ milestone = .stageStarted d stage

/-- How a watch stands after its polls: over with a final record or a failed poll as the last one,
or given up or going on after polls that brought unfinished records only. -/
inductive Standing (polls : List (Except ClientError Dag)) :
    Option Watched → List Milestone → Prop
  | closed (earlier : List Dag) {d : Dag} {milestone : Milestone} {result : Except ClientError Dag}
      (hpolls : polls = earlier.map .ok ++ [.ok d]) (hearlier : ∀ e ∈ earlier, e.isFinished = false)
      (finished : d.isFinished = true) (closing : Closing d milestone result) :
      Standing polls (some (.ended result)) [milestone]
  | lost (earlier : List Dag) {e : ClientError} (hpolls : polls = earlier.map .ok ++ [.error e])
      (hearlier : ∀ d ∈ earlier, d.isFinished = false) :
      Standing polls (some (.ended (.error e))) []
  | gaveUp (earlier : List Dag) (text : String) (hpolls : polls = earlier.map .ok)
      (hearlier : ∀ d ∈ earlier, d.isFinished = false) :
      Standing polls (some (.ended (.error (.waitTimeout text)))) []
  | goingOn (earlier : List Dag) (hpolls : polls = earlier.map .ok)
      (hearlier : ∀ d ∈ earlier, d.isFinished = false) : Standing polls none []

theorem snapshots_ok_cons (d : Dag) (polls : List (Except ClientError Dag)) :
    snapshots (.ok d :: polls) = d :: snapshots polls := rfl

theorem topStage_ok_cons (d : Dag) (polls : List (Except ClientError Dag)) :
    topStage (.ok d :: polls) = max d.stage (topStage polls) := rfl

/-- The first record is told of with the stages up to its own. -/
theorem forall₂_newStages (w : Watch) (d : Dag) (polls : List (Except ClientError Dag)) :
    List.Forall₂ (TellsOf (.ok d :: polls)) (w.newStages d)
      ((w.newStages d).map (.stageStarted d)) := by
  rw [List.forall₂_map_right_iff, List.forall₂_same]
  intro stage hstage
  rw [Watch.newStages, List.mem_range'_1] at hstage
  have hle : stage ≤ d.stage := by omega
  exact ⟨d, by rw [snapshots_ok_cons, List.find?_cons_of_pos (by simpa using hle)], rfl⟩

/-- A stage that the first record does not reach is told of as if that record had not come in. -/
theorem TellsOf.cons {polls : List (Except ClientError Dag)} {stage : Nat} {milestone : Milestone}
    (htells : TellsOf polls stage milestone) {d : Dag} (hlt : d.stage < stage) :
    TellsOf (.ok d :: polls) stage milestone := by
  obtain ⟨first, hfirst, hmilestone⟩ := htells
  refine ⟨first, ?_, hmilestone⟩
  rw [snapshots_ok_cons, List.find?_cons_of_neg (by simpa using hlt), hfirst]

theorem Standing.cons {polls : List (Except ClientError Dag)} {result : Option Watched}
    {final : List Milestone} (hstanding : Standing polls result final) {d : Dag}
    (unfinished : d.isFinished = false) : Standing (.ok d :: polls) result final := by
  have hearlier' {earlier : List Dag} (hearlier : ∀ e ∈ earlier, e.isFinished = false) :
      ∀ e ∈ d :: earlier, e.isFinished = false :=
    List.forall_mem_cons.2 ⟨unfinished, hearlier⟩
  cases hstanding with
  | closed earlier hpolls hearlier finished closing =>
    exact .closed (d :: earlier) (by rw [hpolls]; rfl) (hearlier' hearlier) finished
      closing
  | lost earlier hpolls hearlier =>
    exact .lost (d :: earlier) (by rw [hpolls]; rfl) (hearlier' hearlier)
  | gaveUp earlier text hpolls hearlier =>
    exact .gaveUp (d :: earlier) text (by rw [hpolls]; rfl) (hearlier' hearlier)
  | goingOn earlier hpolls hearlier =>
    exact .goingOn (d :: earlier) (by rw [hpolls]; rfl) (hearlier' hearlier)

/-- The stages after those told of, up to the largest one: first those up to the stage of the first
record. -/
theorem range'_reported (r stage top : Nat) :
    List.range' (r + 1) (max stage top - r) =
      List.range' (r + 1) (stage - r) ++
        List.range' (max r stage + 1) (top - max r stage) := by
  rcases Nat.le_total stage r with hle | hle
  · rw [Nat.sub_eq_zero_of_le hle, List.range'_zero, List.nil_append, Nat.max_eq_left hle]
    congr 1
    omega
  · have hstart : max r stage + 1 = r + 1 + (stage - r) := by omega
    rw [hstart, List.range'_append_1]
    congr 1
    omega

/-- A watch tells of the stages after those that it has told of, each with the first record that
reaches it, and then of the end. -/
theorem Watching.reports {w : Watch} {polls : List (Except ClientError Dag)}
    {result : Option Watched} {milestones : List Milestone}
    (hwatching : Watching w polls result milestones) :
    ∃ stages final, milestones = stages ++ final ∧
      List.Forall₂ (TellsOf polls)
        (List.range' (w.reported + 1) (topStage polls - w.reported)) stages ∧
      Standing polls result final := by
  induction hwatching with
  | resting w =>
    refine ⟨[], [], rfl, ?_, .goingOn [] rfl (by simp)⟩
    rw [show topStage [] = 0 from rfl, Nat.zero_sub]
    exact .nil
  | @ended w _ _ _ hlook =>
    cases hlook with
    | lost e =>
      refine ⟨[], [], rfl, ?_, .lost [] rfl (by simp)⟩
      rw [show topStage [.error e] = 0 from rfl, Nat.zero_sub]
      exact .nil
    | @closed d milestone result finished closing =>
      refine ⟨_, [milestone], rfl, ?_, .closed [] rfl (by simp) finished closing⟩
      rw [topStage_ok_cons, show topStage [] = 0 from rfl, Nat.max_zero]
      exact forall₂_newStages w d []
    | @gaveUp d text unfinished =>
      refine ⟨_, [], (List.append_nil _).symm, ?_,
        .gaveUp [d] text rfl (by simpa using unfinished)⟩
      rw [topStage_ok_cons, show topStage [] = 0 from rfl, Nat.max_zero]
      exact forall₂_newStages w d []
  | @on w w' _ rest _ _ _ hlook _ ih =>
    obtain ⟨stages, final, rfl, hstages, hstanding⟩ := ih
    cases hlook with
    | @goesOn d _ unfinished hreported =>
      refine ⟨_, final, (List.append_assoc _ _ _).symm, ?_, hstanding.cons unfinished⟩
      rw [topStage_ok_cons, range'_reported, ← hreported]
      have hbeyond : ∀ stage ∈ List.range' (w'.reported + 1) (topStage rest - w'.reported),
          d.stage < stage := by
        intro stage hstage
        rw [List.mem_range'_1] at hstage
        omega
      exact List.rel_append (forall₂_newStages w d rest)
        (((List.forall₂_and_left _ _).2 ⟨hbeyond, hstages⟩).imp fun stage milestone htells =>
          htells.2.cons htells.1)

/-- A watch tells of the stages one, two and so on up to the largest that came in, each once and
with the first record that reaches it, and then of the end, once, when a final record came in. It
comes to what that record says, or to the failure of its last poll. -/
theorem watch_reports (hattentive : o.Attentive) (h : Handle) (looks : Nat) (s : σ)
    (hstaged : ∀ d, .ok d ∈ polls o h looks {} s → d.Staged) :
    ∃ s' stages final,
      (h.watchFrom o.listening looks {}).run (s, []) =
          (((h.watchFrom o looks {}).run s).1, s', stages ++ final) ∧
        List.Forall₂ (TellsOf (polls o h looks {} s))
          (List.range' 1 (topStage (polls o h looks {} s))) stages ∧
        Standing (polls o h looks {} s) ((h.watchFrom o looks {}).run s).1 final := by
  obtain ⟨s', milestones, hrun, hwatching⟩ := run_watchFrom hattentive h looks {} s hstaged []
  obtain ⟨stages, final, rfl, hstages, hstanding⟩ := hwatching.reports
  exact ⟨s', stages, final, hrun, hstages, hstanding⟩

end Handle

namespace Sample

/-- It is at its second stage when it is seen first, and over. -/
def watchedDag : Dag := { finishedDag with stage := 2, maxStage := 2 }

theorem survives_watchedDag : Document.Survives watchedDag := by
  have hvalid : watchedDag.Valid :=
    { valid_finishedDag with stage := by decide, maxStage := by decide }
  exact hvalid.faithful.survives (by decide)

/-- Every request is answered with the same reply, and every milestone is heard. -/
def steadyObserver (reply : Reply) : Observer (StateM Unit) where
  exchange _ _ _ := pure reply
  pause _ := pure ()
  tell _ := pure true
  isCancelled := pure false
  raise := pure ()
  rest _ := pure ()

def steadyHandle : Handle :=
  .new ⟨⟨"http", "", "", some (.ipv4 2130706433), some 2886, .segments [""], none, none⟩, none,
    30000, .standard⟩ watchedDag.id

def watchedReply : Reply := .arrived ⟨200, Document.text watchedDag⟩

def watchedObserver : Observer (StateM Unit) := steadyObserver watchedReply

theorem fetchOnce_steady (reply : Reply) :
    ∃ url, steadyHandle.fetchOnce (steadyObserver reply).toWire =
      pure ((Client.received url reply).bind (Client.answerIn (.dag watchedDag.id))) := by
  have hpath : steadyHandle.client.base.path = .segments [""] := rfl
  obtain ⟨url, r, hrequest⟩ := Client.exists_requestFor hpath (.dag watchedDag.id)
  refine ⟨url, ?_⟩
  have honce : steadyHandle.fetchOnce (steadyObserver reply).toWire =
      steadyHandle.client.perform (steadyObserver reply).toWire (.dag watchedDag.id) := rfl
  rw [honce, Client.perform, hrequest]
  rfl

theorem fetch_watched : steadyHandle.fetch watchedObserver.toWire = pure (.ok watchedDag) := by
  obtain ⟨url, honce⟩ := fetchOnce_steady watchedReply
  have hanswer : (Client.received url watchedReply).bind (Client.answerIn (.dag watchedDag.id)) =
      .ok watchedDag := by
    rw [watchedReply, Client.received, if_pos (by rfl), Except.bind]
    exact Client.answerIn_text survives_watchedDag rfl 200
  rw [hanswer] at honce
  have hrepeatedly (left : Nat) :
      steadyHandle.fetchRepeatedly watchedObserver.toWire left = pure (.ok watchedDag) := by
    cases left with
    | zero => exact honce
    | succ left =>
      rw [Handle.fetchRepeatedly, watchedObserver, honce]
      rfl
  exact hrepeatedly steadyHandle.retryTimes

end Sample

theorem Handle.watch_reports_finished :
    Sample.watchedObserver.Attentive ∧
      (∀ d, .ok d ∈ polls Sample.watchedObserver Sample.steadyHandle 5 {} () → d.Staged) ∧
      ∃ s' stages final,
        (Sample.steadyHandle.watchFrom Sample.watchedObserver.listening 5 {}).run ((), []) =
            (((Sample.steadyHandle.watchFrom Sample.watchedObserver 5 {}).run ()).1, s',
              stages ++ final) ∧
          List.Forall₂ (TellsOf (polls Sample.watchedObserver Sample.steadyHandle 5 {} ()))
            (List.range' 1 (topStage (polls Sample.watchedObserver Sample.steadyHandle 5 {} ())))
            stages ∧
          Standing (polls Sample.watchedObserver Sample.steadyHandle 5 {} ())
            ((Sample.steadyHandle.watchFrom Sample.watchedObserver 5 {}).run ()).1 final := by
  have hattentive : Sample.watchedObserver.Attentive := fun _ _ _ => rfl
  have hstaged :
      ∀ d, .ok d ∈ polls Sample.watchedObserver Sample.steadyHandle 5 {} () → d.Staged := by
    intro d hd
    have hsame : Except.ok d = .ok Sample.watchedDag :=
      forall_polls (P := (· = .ok Sample.watchedDag))
        (fun s => by rw [Sample.fetch_watched]; rfl) 5 {} () _ hd
    rw [Except.ok.inj hsame]
    exact ⟨by decide, by decide, rfl⟩
  exact ⟨hattentive, hstaged, watch_reports hattentive Sample.steadyHandle 5 () hstaged⟩

end Stagewise
