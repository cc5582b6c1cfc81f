import Stagewise.Proofs.Dag.Commands
/-!
# When commands are accepted

The condition under which each command is accepted and the record that it asks for, read off the
places of the tasks. A command is answered by that record exactly when its condition holds, and by
an error otherwise, never by a stage that points at no node.
-/

namespace Stagewise.Dag

/-- The stage points at one of the nodes, which are as many as the dag was made with. -/
structure Staged (d : Dag) : Prop where
  pos : 1 ≤ d.stage
  le : d.stage ≤ d.maxStage
  whole : d.maxStage = d.nodes.length

/-- The dag is parked on its way forward at a stage with failed tasks, and all of these may be dealt
with in that way. -/
structure Parked (d : Dag) (may : Capabilities → Bool) : Prop where
  failed : d.status = .failed
  forward : d.operator ≠ .rollback
  broken : ∃ i t, d.TaskAt i t ∧ i + 1 = d.stage ∧ t.status = .failed
  permitted : ∀ i t, d.TaskAt i t → i + 1 = d.stage → t.status = .failed → may t.capabilities

/-- The dag has failed, and whatever has run in the nodes up to its stage may be rolled back. -/
structure Revocable (d : Dag) : Prop where
  failed : d.status = .failed
  permitted : ∀ i t, d.TaskAt i t → i + 1 ≤ d.stage →
    t.status = .running ∨ t.status = .succeeded ∨ t.status = .failed → t.capabilities.canRollback

/-- The dag has come to no other end than to fail, and whatever runs may be cancelled. -/
structure Cancellable (d : Dag) : Prop where
  unfinished : d.status = .running ∨ d.status = .failed
  permitted : ∀ i t, d.TaskAt i t → t.status = .running → t.capabilities.canCancel

/-- The condition under which a command is accepted. -/
def Admits (d : Dag) : Operator → Prop
  | .run => False
  | .retry => d.Parked (·.canRetry)
  | .pass => d.Parked (·.canPass)
  | .rollback => d.Revocable
  | .cancel => d.Cancellable

/-- Changes the failed tasks of the node at work. -/
def mendWith (d : Dag) (f : Task → Task) : Dag :=
  d.mapAt fun i t => if i + 1 = d.stage ∧ t.status = .failed then f t else t

/-- The record that an accepted command asks for. -/
def obeying (d : Dag) (operator : Operator) (now : Timestamp) : Dag :=
  match operator with
  | .run => d
  | .retry =>
    { d.mendWith fun t => { t with
        status := .pending, startedAt := none, finishedAt := none, agentResults := .empty } with
      status := .running, operator := .retry }
  | .pass =>
    { d.mendWith fun t => { t with status := .succeeded, finishedAt := some now } with
      status := .running, operator := .pass }
  | .rollback => { d with status := .running, operator := .rollback }
  | .cancel =>
    { d.mapTasks fun t =>
        if t.status = .running then { t with status := .failed, finishedAt := some now }
        else if t.status = .pending then { t with status := .skipped, finishedAt := some now }
        else t with
      status := .cancelled, operator := .cancel }

variable {d d' : Dag} {operator : Operator} {now : Timestamp} {lines : LogLines}

theorem Staged.currentNode (h : d.Staged) : ∃ n, d.currentNode? = some n := by
  have hlt : d.stage - 1 < d.nodes.length := by
    have hpos := h.pos
    have hle := h.le
    have hwhole := h.whole
    omega
  exact ⟨_, currentNode?_eq_some_iff.mpr ⟨h.pos, List.getElem?_eq_getElem hlt⟩⟩

theorem Staged.reached (h : d.Staged) : d.reached? = some (d.nodes.take d.stage) :=
  if_pos (h.whole ▸ h.le)

theorem mapAt_congr {g g' : Nat → Task → Task} (h : ∀ i t, d.TaskAt i t → g i t = g' i t) :
    d.mapAt g = d.mapAt g' := by
  simp only [mapAt]
  congr 1
  refine List.ext_getElem? fun i => ?_
  rw [List.getElem?_mapIdx, List.getElem?_mapIdx]
  cases hn : d.nodes[i]? with
  | none => rfl
  | some n =>
    have hsame : n.tasks.map (g i) = n.tasks.map (g' i) :=
      List.map_congr_left fun t ht => h i t ⟨n, hn, ht⟩
    rw [Option.map_some, Option.map_some, hsame]

theorem modifyTasks_eq_mendWith (h : d.Distinct) {n : Node} (hn : d.currentNode? = some n)
    {f : Task → Task} (hf : ∀ t, (f t).id = t.id) :
    d.modifyTasks (n.failedTasks.map (·.id)) f = d.mendWith f := by
  rw [modifyTasks_failedTasks h hn hf, mapTasks_eq_mapAt, mendWith]
  refine mapAt_congr fun i t ht => ?_
  simp only [mem_failedTasks_ids_iff h hn ht]

theorem mem_failedTasks_iff {n : Node} (hn : d.currentNode? = some n) {t : Task} :
    t ∈ n.failedTasks ↔ ∃ i, d.TaskAt i t ∧ i + 1 = d.stage ∧ t.status = .failed := by
  rw [Node.failedTasks, List.mem_filter, mem_currentNode_iff hn, beq_iff_eq]
  constructor
  · rintro ⟨⟨i, hi, ht⟩, hs⟩
    exact ⟨i, ht, hi, hs⟩
  · rintro ⟨i, ht, hi, hs⟩
    exact ⟨⟨i, hi, ht⟩, hs⟩

theorem mem_reached_iff {nodes : List Node} (h : d.reached? = some nodes) {t : Task} :
    t ∈ nodes.flatMap (·.tasks) ↔ ∃ i, d.TaskAt i t ∧ i + 1 ≤ d.stage := by
  constructor
  · simp only [reached?, Option.ite_none_right_eq_some, Option.some.injEq] at h
    obtain ⟨-, rfl⟩ := h
    intro ht
    obtain ⟨n, hn, hmem⟩ := List.mem_flatMap.mp ht
    obtain ⟨i, hi⟩ := List.mem_iff_getElem?.mp hn
    have hlt : i < d.stage := by
      have hlen := (List.getElem?_eq_some_iff.mp hi).1
      rw [List.length_take] at hlen
      omega
    rw [List.getElem?_take_of_lt hlt] at hi
    exact ⟨i, ⟨n, hi, hmem⟩, hlt⟩
  · rintro ⟨i, ht, hi⟩
    exact mem_reached h ht hi

theorem stopped_eq (now : Timestamp) (t : Task) :
    stopped now t =
      if t.status = .running then { t with status := .failed, finishedAt := some now }
      else if t.status = .pending then { t with status := .skipped, finishedAt := some now }
      else t := by
  rw [stopped]
  cases t.status <;> rfl

/-! ## The accepted commands -/

theorem parked_iff {n : Node} (hn : d.currentNode? = some n) (may : Capabilities → Bool) :
    d.Parked may ↔ d.status = .failed ∧ d.operator ≠ .rollback ∧ n.failedTasks ≠ [] ∧
      ∀ t ∈ n.failedTasks, may t.capabilities := by
  have hsome : n.failedTasks ≠ [] ↔
      ∃ i t, d.TaskAt i t ∧ i + 1 = d.stage ∧ t.status = .failed := by
    rw [exists_comm]
    constructor
    · intro hne
      obtain ⟨t, ht⟩ := List.exists_mem_of_ne_nil _ hne
      exact ⟨t, (mem_failedTasks_iff hn).mp ht⟩
    · rintro ⟨t, ht⟩
      exact List.ne_nil_of_mem ((mem_failedTasks_iff hn).mpr ht)
  constructor
  · intro h
    refine ⟨h.failed, h.forward, hsome.mpr h.broken, fun t ht => ?_⟩
    obtain ⟨i, hat, hi, hs⟩ := (mem_failedTasks_iff hn).mp ht
    exact h.permitted i t hat hi hs
  · rintro ⟨hfailed, hforward, hbroken, hall⟩
    exact ⟨hfailed, hforward, hsome.mp hbroken, fun i t hat hi hs =>
      hall t ((mem_failedTasks_iff hn).mpr ⟨i, hat, hi, hs⟩)⟩

/-- A command does what it asks for, and only when its condition holds. -/
theorem Commanded.admitted (h : d.Commanded now operator d' lines) (hdistinct : d.Distinct) :
    d.Admits operator ∧ d' = d.obeying operator now := by
  cases h with
  | retry failed forward node nonempty permitted =>
    refine ⟨(parked_iff node _).mpr ⟨failed, forward, nonempty, permitted⟩, ?_⟩
    rw [modifyTasks_eq_mendWith hdistinct node (f := again) fun _ => rfl]
    rfl
  | pass failed forward node nonempty permitted =>
    refine ⟨(parked_iff node _).mpr ⟨failed, forward, nonempty, permitted⟩, ?_⟩
    have hmended := modifyTasks_eq_mendWith hdistinct node
      (f := fun t => { t with status := .succeeded, finishedAt := some now }) fun _ => rfl
    rw [hmended]
    rfl
  | rollback failed reached permitted =>
    refine ⟨⟨failed, fun i t ht hi hs => ?_⟩, rfl⟩
    exact permitted t ((mem_reached_iff reached).mpr ⟨i, ht, hi⟩) (TaskStatus.isExecuted_iff.mpr hs)
  | cancel unfinished permitted =>
    refine ⟨⟨unfinished, fun i t ht => permitted t ht.mem_tasks⟩, ?_⟩
    simp only [obeying, funext (stopped_eq now)]

theorem commanded_of_admits (staged : d.Staged) (now : Timestamp) (h : d.Admits operator) :
    ∃ d' lines, d.Commanded now operator d' lines := by
  obtain ⟨n, hn⟩ := staged.currentNode
  cases operator with
  | run => exact h.elim
  | retry =>
    obtain ⟨hfailed, hforward, hbroken, hall⟩ := (parked_iff hn _).mp h
    exact ⟨_, _, .retry hfailed hforward hn hbroken hall⟩
  | pass =>
    obtain ⟨hfailed, hforward, hbroken, hall⟩ := (parked_iff hn _).mp h
    exact ⟨_, _, .pass hfailed hforward hn hbroken hall⟩
  | rollback =>
    refine ⟨_, _, .rollback h.failed staged.reached fun t ht hexecuted => ?_⟩
    obtain ⟨i, hat, hi⟩ := (mem_reached_iff staged.reached).mp ht
    exact h.permitted i t hat hi (TaskStatus.isExecuted_iff.mp hexecuted)
  | cancel =>
    refine ⟨_, _, .cancel h.unfinished fun t ht hs => ?_⟩
    obtain ⟨i, hat⟩ := mem_tasks_iff.mp ht
    exact h.permitted i t hat hs

theorem failedTasksPermitting_eq_ok {n : Node} (command : Operator) (failed : d.status = .failed)
    (forward : d.operator ≠ .rollback) (node : d.currentNode? = some n)
    (nonempty : n.failedTasks ≠ [])
    (permitted : ∀ t ∈ n.failedTasks, t.capabilities.permits command) :
    d.failedTasksPermitting command = .ok (n.failedTasks.map (·.id)) := by
  have hstate : (!d.isFailed || d.operator == .rollback) = false := by
    simp [isFailed, failed, forward]
  have hempty : n.failedTasks.isEmpty = false := by simpa using nonempty
  have hdemand : demand command n.failedTasks = .ok () := demand_eq_ok_iff.mpr permitted
  simp [failedTasksPermitting, hstate, current_eq_ok_iff.mpr node, hempty, hdemand, bind,
    Except.bind, pure, Except.pure]

/-- The other direction of `command_cases`. -/
theorem Commanded.command_eq_ok (h : d.Commanded now operator d' lines) :
    d.command operator now = .ok (d', lines) := by
  cases h with
  | retry failed forward node nonempty permitted =>
    have hids := failedTasksPermitting_eq_ok .retry failed forward node nonempty permitted
    simp [command, Dag.retry, hids, bind, Except.bind, pure, Except.pure]
  | pass failed forward node nonempty permitted =>
    have hids := failedTasksPermitting_eq_ok .pass failed forward node nonempty permitted
    simp [command, Dag.pass, hids, bind, Except.bind, pure, Except.pure]
  | @rollback nodes failed reached permitted =>
    have hdemand : demand .rollback ((nodes.flatMap (·.tasks)).filter (·.status.isExecuted))
        = .ok () := by
      refine demand_eq_ok_iff.mpr fun t ht => ?_
      obtain ⟨hmem, hexecuted⟩ := List.mem_filter.mp ht
      exact permitted t hmem hexecuted
    have hfailed : (!d.isFailed) = false := by simp [isFailed, failed]
    simp [command, Dag.rollback, hfailed, reached, hdemand, bind, Except.bind, pure, Except.pure]
  | cancel unfinished permitted =>
    have hdemand : demand .cancel (d.tasks.filter (·.status == .running)) = .ok () := by
      refine demand_eq_ok_iff.mpr fun t ht => ?_
      obtain ⟨hmem, hs⟩ := List.mem_filter.mp ht
      exact permitted t hmem (beq_iff_eq.mp hs)
    have hopen : (!(d.isRunning || d.isFailed)) = false := by
      rcases unfinished with hs | hs <;> simp [isRunning, isFailed, hs]
    simp [command, Dag.cancel, hopen, hdemand, bind, Except.bind, pure, Except.pure]

theorem command_of_admits (staged : d.Staged) (distinct : d.Distinct) (now : Timestamp)
    (h : d.Admits operator) :
    ∃ lines, d.command operator now = .ok (d.obeying operator now, lines) := by
  obtain ⟨d', lines, hcommanded⟩ := commanded_of_admits staged now h
  obtain ⟨-, rfl⟩ := hcommanded.admitted distinct
  exact ⟨lines, hcommanded.command_eq_ok⟩

/-! ## The refused commands -/

theorem bind_error {ε α β : Type} {x : Except ε α} {f : α → Except ε β} {err : ε}
    (h : (x >>= f) = .error err) : x = .error err ∨ ∃ a, x = .ok a ∧ f a = .error err := by
  cases x with
  | error e => exact .inl (congrArg _ (Except.error.inj h))
  | ok a => exact .inr ⟨a, rfl, h⟩

theorem demand_cases {command : Operator} {tasks : List Task} {x : Fault}
    (h : demand command tasks = .error x) :
    ∃ t ∈ tasks, t.capabilities.permits command = false ∧
      x = .error (.notPermitted command t.name) := by
  rw [demand] at h
  split at h
  · next t hfind =>
    have hrefused := List.find?_some hfind
    exact ⟨t, List.mem_of_find?_eq_some hfind, by simpa using hrefused, (Except.error.inj h).symm⟩
  · cases h

theorem demand_error {command : Operator} {tasks : List Task} {x : Fault}
    (h : demand command tasks = .error x) : ∃ err, x = .error err := by
  obtain ⟨t, -, -, rfl⟩ := demand_cases h
  exact ⟨_, rfl⟩

/-- The commands that deal with the failed tasks of a stage are refused when these are. -/
theorem command_refused_by_tasks (mends : operator = .retry ∨ operator = .pass) {x : Fault}
    (h : d.command operator now = .error x) : d.failedTasksPermitting operator = .error x := by
  rcases mends with rfl | rfl
  · rcases bind_error h with h | ⟨made, -, h⟩
    · rcases bind_error h with h | ⟨ids, -, h⟩
      · exact h
      · cases h
    · cases h
  · rcases bind_error h with h | ⟨made, -, h⟩
    · rcases bind_error h with h | ⟨ids, -, h⟩
      · exact h
      · cases h
    · cases h

theorem Staged.failedTasksPermitting_error (staged : d.Staged) {x : Fault}
    (h : d.failedTasksPermitting operator = .error x) : ∃ err, x = .error err := by
  obtain ⟨n, hn⟩ := staged.currentNode
  simp only [failedTasksPermitting] at h
  split at h
  · exact ⟨_, (Except.error.inj h).symm⟩
  · rw [current_eq_ok_iff.mpr hn] at h
    rcases bind_error h with h | ⟨_, -, h⟩
    · cases h
    · split at h
      · exact ⟨_, (Except.error.inj h).symm⟩
      · rcases bind_error h with h | ⟨_, -, h⟩
        · exact demand_error h
        · cases h

theorem Staged.rollback_error (staged : d.Staged) {x : Fault} (h : d.rollback = .error x) :
    ∃ err, x = .error err := by
  simp only [rollback, staged.reached] at h
  split at h
  · exact ⟨_, (Except.error.inj h).symm⟩
  · rcases bind_error h with h | ⟨_, -, h⟩
    · exact demand_error h
    · cases h

theorem cancel_error {x : Fault} (h : d.cancel now = .error x) : ∃ err, x = .error err := by
  simp only [cancel] at h
  split at h
  · exact ⟨_, (Except.error.inj h).symm⟩
  · rcases bind_error h with h | ⟨_, -, h⟩
    · exact demand_error h
    · cases h

/-- A command never meets a stage that points at no node. -/
theorem Staged.command_error (staged : d.Staged) {x : Fault}
    (h : d.command operator now = .error x) : ∃ err, x = .error err := by
  cases operator with
  | run => exact ⟨_, (Except.error.inj h).symm⟩
  | retry => exact staged.failedTasksPermitting_error (command_refused_by_tasks (.inl rfl) h)
  | pass => exact staged.failedTasksPermitting_error (command_refused_by_tasks (.inr rfl) h)
  | rollback =>
    rcases bind_error h with h | ⟨_, -, h⟩
    · exact staged.rollback_error h
    · cases h
  | cancel =>
    rcases bind_error h with h | ⟨_, -, h⟩
    · exact cancel_error h
    · cases h

theorem command_of_not_admits (staged : d.Staged) (distinct : d.Distinct) (now : Timestamp)
    (h : ¬ d.Admits operator) : ∃ err, d.command operator now = .error (.error err) := by
  cases hcommand : d.command operator now with
  | ok made => exact absurd ((command_cases hcommand).admitted distinct).1 h
  | error x =>
    obtain ⟨err, rfl⟩ := staged.command_error hcommand
    exact ⟨err, rfl⟩

end Stagewise.Dag
