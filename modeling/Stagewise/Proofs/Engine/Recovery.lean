import Mathlib.Data.List.Lattice
import Mathlib.Data.List.Pairwise
import Stagewise.Proofs.Course.Play
import Stagewise.Proofs.Dag.Place
import Stagewise.Proofs.Engine.Frame
import Stagewise.Proofs.Store.Books
/-!
# Recovery after a restart

What an engine that has nothing at work makes of its store when it recovers. It goes by a list taken
before the first write, and writes once for every task that was running: the record of the dag with
the new status, and a line behind the log of the task. Nothing else is written, every dag that was
running gets a drive loop, and recovering once more writes nothing.
-/

namespace Stagewise

/-- What becomes of a task: it runs again if its type is known and it may go on, and fails
otherwise. A task that was not running stays as it is. -/
def Task.afterRestart (registry : Registry) (time : Timestamp) (t : Task) : Task :=
  if t.status = .running then
    if registry.contains t.typeName ∧ t.capabilities.canContinue then
      { t with status := .pending, finishedAt := none }
    else { t with status := .failed, finishedAt := some time }
  else t

/-- What becomes of a dag: every write for one of its tasks has raised its version. -/
def Dag.afterRestart (registry : Registry) (time : TaskId → Timestamp) (updatedAt : Timestamp)
    (d : Dag) : Dag :=
  { d.mapTasks fun t => t.afterRestart registry (time t.id) with
    version := d.version + d.interrupted.length, updatedAt }

/-- The text of the dag keeps it, and keeps what so many changes of the statuses of its tasks make
of it. -/
def Dag.Lasting : Nat → Dag → Prop
  | 0, d => Document.Survives d
  | n + 1, d => Document.Survives d ∧
      ∀ (task : TaskId) (status : TaskStatus) (now : Timestamp), now.Valid →
        Lasting n (d.restated task status now)

/-- The next so many readings of the clock are times that can be written. -/
def Clock.Lasts (c : Clock) (n : Nat) : Prop :=
  ∀ k < n, ({ c with readings := c.readings + k } : Clock).now.Valid

/-- The dags that are running. -/
def runningOf (ds : List Dag) : List Dag := ds.filter (·.isRunning)

/-- The readings of the clock while the dags are brought back: one for every write, and one for
every event. -/
def readingsFor (running : List Dag) : Nat := (running.map fun d => d.interrupted.length + 1).sum

variable {registry : Registry} {d : Dag} {t : Task} {time : Timestamp}

theorem Task.withStatus_recovered (hrunning : t.status = .running) :
    Store.withStatus (registry.recovered t).1 time t = t.afterRestart registry time := by
  rw [afterRestart, if_pos hrunning, Registry.recovered, Registry.find, Registry.contains]
  cases hget : registry.get? t.typeName with
  | none => simp [Store.withStatus, TaskStatus.isTerminal]
  | some operation =>
    cases hcontinue : t.capabilities.canContinue <;> simp [Store.withStatus, TaskStatus.isTerminal]

theorem Task.afterRestart_status_ne (registry : Registry) (time : Timestamp) (t : Task) :
    (t.afterRestart registry time).status ≠ .running := by
  rw [afterRestart]
  split
  · split <;> simp
  · assumption

theorem Dag.interrupted_afterRestart (registry : Registry) (time : TaskId → Timestamp)
    (updatedAt : Timestamp) (d : Dag) :
    (d.afterRestart registry time updatedAt).interrupted = [] := by
  refine List.filter_eq_nil_iff.2 fun t ht => ?_
  have ht : t ∈ (d.mapTasks fun t => t.afterRestart registry (time t.id)).tasks := ht
  rw [mapTasks_tasks, List.mem_map] at ht
  obtain ⟨u, -, rfl⟩ := ht
  simpa using u.afterRestart_status_ne registry (time u.id)

theorem Dag.Lasting.survives {n : Nat} (h : d.Lasting n) : Document.Survives d := by
  cases n with
  | zero => exact h
  | succ n => exact h.1

/-- A dag that can be written lasts as long as there is room for its version. -/
theorem Dag.Valid.lasting {n : Nat} (h : d.Valid)
    (hdepth : (toJson d).depth ≤ Json.depthLimit) (hroom : d.version + n < 2 ^ 64) :
    d.Lasting n := by
  induction n generalizing d with
  | zero => exact h.faithful.survives hdepth
  | succ n ih =>
    refine ⟨h.faithful.survives hdepth, fun task status now hnow => ?_⟩
    have hversion : d.version + 1 < 2 ^ 64 := by omega
    refine ih (h.restated hversion hnow task status) (depth_restated_le hdepth task status now) ?_
    change d.version + 1 + n < 2 ^ 64
    omega

theorem Dag.tasks_restated (distinct : d.Distinct) (task : TaskId) (status : TaskStatus)
    (now : Timestamp) :
    (d.restated task status now).tasks =
      d.tasks.map fun t => if t.id = task then Store.withStatus status now t else t := by
  change (d.modifyTask task (Store.withStatus status now)).tasks = _
  rw [modifyTask_eq_mapTasks distinct, mapTasks_tasks]

theorem Dag.Distinct.restated (distinct : d.Distinct) (task : TaskId) (status : TaskStatus)
    (now : Timestamp) : (d.restated task status now).Distinct := by
  have hids : (d.restated task status now).tasks.map (·.id) = d.tasks.map (·.id) := by
    rw [tasks_restated distinct, List.map_map]
    refine List.map_congr_left fun t _ => ?_
    rw [Function.comp_apply]
    split <;> rfl
  rwa [Distinct, hids]

theorem Dag.mem_tasks_restated (distinct : d.Distinct) {task : TaskId} {status : TaskStatus}
    {now : Timestamp} (ht : t ∈ d.tasks) (hother : t.id ≠ task) :
    t ∈ (d.restated task status now).tasks := by
  rw [tasks_restated distinct]
  exact List.mem_map.2 ⟨t, ht, if_neg hother⟩

theorem LogEntry.survives {time : Timestamp} (h : time.Valid) (message : String) :
    Document.Survives (⟨time, message⟩ : LogEntry) :=
  LogEntry.Valid.faithful ⟨h⟩ |>.survives (Nat.le_of_ble_eq_true rfl)

theorem Clock.Lasts.later {c : Clock} {m n : Nat} (h : c.Lasts (m + n)) :
    ({ c with readings := c.readings + m } : Clock).Lasts n := by
  intro k hk
  have hvalid := h (m + k) (Nat.add_lt_add_left hk m)
  rwa [← Nat.add_assoc] at hvalid

namespace Engine

variable {σ : Type} {env : Surroundings σ} {e : Engine σ} {b : Books}

/-! ## One task -/

/-- Brings one interrupted task back. -/
def bringBack (dag : DagId) (t : Task) : EngineM σ Unit := do
  let (status, line) := (← get).registry.recovered t
  let time ← now
  let store ← stored ((← get).store.saveTaskStatus dag t.id status [⟨time, line⟩] time)
  modify fun e => { e with store }

theorem resume_eq (d : Dag) :
    (resume d : EngineM σ Unit) = (do
      d.interrupted.forM (bringBack d.id)
      record d.id (.dagRecovered d.stage)
      spawn d.id) := rfl

/-- The record of the dag and the log of the task are written in one go. -/
theorem perform_bringBack (holds : e.store.Holds b) (held : b.dags d.id = some d)
    (ht : t ∈ d.tasks) :
    perform env (bringBack d.id t) e = (.ok (), { e with
      clock := e.clock.tick
      store := (e.store.save (d.restated t.id (e.registry.recovered t).1 e.clock.now)).appendLogs
        t.id [⟨e.clock.now, (e.registry.recovered t).2⟩] }) := by
  have hfound : (d.task? t.id).isSome = true := by
    rw [Dag.task?, List.find?_isSome]
    exact ⟨t, ht, beq_self_eq_true _⟩
  simp only [bringBack, perform_bind, perform_get, perform_now, holds.saveTaskStatus_eq, held,
    hfound, if_true, stored, perform_pure, perform_modify]

end Engine

/-! ## The interrupted tasks of a dag -/

/-- The record of a dag after so many of its interrupted tasks have been brought back. -/
def Dag.broughtBack (registry : Registry) (time : TaskId → Timestamp) (updatedAt : Timestamp)
    (left : List Task) (d : Dag) : Dag :=
  { d.mapTasks fun t =>
      if t.id ∈ left.map (·.id) then Store.withStatus (registry.recovered t).1 (time t.id) t else t
    with version := d.version + left.length, updatedAt }

/-- The lines that the log of a task gets when interrupted tasks are brought back. -/
def recoveryLines (registry : Registry) (time : TaskId → Timestamp) (left : List Task)
    (id : TaskId) : List LogEntry :=
  (left.filter (·.id == id)).map fun t => ⟨time t.id, (registry.recovered t).2⟩

theorem Dag.broughtBack_nil (registry : Registry) (time : TaskId → Timestamp) (d : Dag) :
    d.broughtBack registry time d.updatedAt [] = d := by
  simp only [broughtBack, List.map_nil, List.not_mem_nil, if_false, mapTasks_self]
  rfl

/-- Bringing one task back and then others is bringing them all back. -/
theorem Dag.broughtBack_restated (distinct : d.Distinct) (ht : t ∈ d.tasks) {left : List Task}
    (hapart : t.id ∉ left.map (·.id)) (registry : Registry) (time : Timestamp)
    (later : TaskId → Timestamp) (updatedAt : Timestamp) :
    (d.restated t.id (registry.recovered t).1 time).broughtBack registry later updatedAt left =
      d.broughtBack registry (fun id => if id = t.id then time else later id) updatedAt
        (t :: left) := by
  have hnodes : (d.modifyTask t.id (Store.withStatus (registry.recovered t).1 time)).mapTasks
        (fun u =>
          if u.id ∈ left.map (·.id) then Store.withStatus (registry.recovered u).1 (later u.id) u
          else u) =
      d.mapTasks fun u =>
        if u.id ∈ (t :: left).map (·.id) then
          Store.withStatus (registry.recovered u).1 (if u.id = t.id then time else later u.id) u
        else u := by
    rw [modifyTask_eq_mapTasks distinct, mapTasks_mapTasks]
    refine mapTasks_congr fun u hu => ?_
    by_cases hid : u.id = t.id
    · obtain rfl : u = t := List.inj_on_of_nodup_map distinct hu ht hid
      have hapart : (Store.withStatus (registry.recovered u).1 time u).id ∉ left.map (·.id) :=
        hapart
      simp only [Function.comp_apply, if_true, if_neg hapart, List.map_cons, List.mem_cons, true_or]
    · simp only [Function.comp_apply, List.map_cons, List.mem_cons, hid, false_or, if_false]
  have hversion : d.version + 1 + left.length = d.version + (t :: left).length := by
    rw [List.length_cons]
    omega
  rw [broughtBack, broughtBack, ← hnodes, ← hversion]
  rfl

/-- Once all of its interrupted tasks are brought back, a dag is what a restart makes of it. -/
theorem Dag.broughtBack_interrupted (distinct : d.Distinct) (registry : Registry)
    (time : TaskId → Timestamp) (updatedAt : Timestamp) :
    d.broughtBack registry time updatedAt d.interrupted =
      d.afterRestart registry time updatedAt := by
  have hnodes : d.mapTasks (fun t =>
        if t.id ∈ d.interrupted.map (·.id) then
          Store.withStatus (registry.recovered t).1 (time t.id) t
        else t) =
      d.mapTasks fun t => t.afterRestart registry (time t.id) := by
    refine mapTasks_congr fun t ht => ?_
    by_cases hrunning : t.status = .running
    · have hmem : t ∈ d.interrupted := List.mem_filter.2 ⟨ht, beq_iff_eq.2 hrunning⟩
      rw [if_pos (List.mem_map_of_mem hmem), Task.withStatus_recovered hrunning]
    · rw [if_neg, Task.afterRestart, if_neg hrunning]
      intro hid
      obtain ⟨u, hu, hid⟩ := List.mem_map.1 hid
      obtain ⟨hmem, hstatus⟩ := List.mem_filter.1 hu
      obtain rfl : u = t := List.inj_on_of_nodup_map distinct hmem ht hid
      exact hrunning (beq_iff_eq.1 hstatus)
  rw [broughtBack, hnodes, afterRestart]

theorem filter_id_eq_nil {left : List Task} {id : TaskId} (hapart : id ∉ left.map (·.id)) :
    left.filter (·.id == id) = [] :=
  List.filter_eq_nil_iff.2 fun u hu hid => hapart (List.mem_map.2 ⟨u, hu, beq_iff_eq.1 hid⟩)

theorem recoveryLines_eq_nil {left : List Task} {id : TaskId} (hapart : id ∉ left.map (·.id))
    (registry : Registry) (time : TaskId → Timestamp) :
    recoveryLines registry time left id = [] := by
  rw [recoveryLines, filter_id_eq_nil hapart, List.map_nil]

theorem recoveryLines_cons {left : List Task} (hapart : t.id ∉ left.map (·.id))
    (registry : Registry) (time : Timestamp) (later : TaskId → Timestamp) (id : TaskId) :
    recoveryLines registry (fun id => if id = t.id then time else later id) (t :: left) id =
      if id = t.id then [⟨time, (registry.recovered t).2⟩]
      else recoveryLines registry later left id := by
  have hrest : recoveryLines registry (fun id => if id = t.id then time else later id) left id =
      recoveryLines registry later left id := by
    refine List.map_congr_left fun u hu => ?_
    have hid : u.id ≠ t.id := fun hid =>
      hapart (List.mem_map.2 ⟨u, (List.mem_filter.1 hu).1, hid⟩)
    simp only [if_neg hid]
  by_cases hid : id = t.id
  · subst hid
    rw [if_pos rfl, recoveryLines, List.filter_cons_of_pos (by simp), filter_id_eq_nil hapart,
      List.map_singleton, if_pos rfl]
  · rw [if_neg hid, ← hrest, recoveryLines, List.filter_cons_of_neg (by simpa using Ne.symm hid),
      recoveryLines]

theorem recoveryLines_eq_singleton {left : List Task} (once : (left.map (·.id)).Nodup)
    (ht : t ∈ left) (registry : Registry) (time : TaskId → Timestamp) :
    recoveryLines registry time left t.id = [⟨time t.id, (registry.recovered t).2⟩] := by
  induction left with
  | nil => exact absurd ht List.not_mem_nil
  | cons u left ih =>
    obtain ⟨hapart, once⟩ := List.nodup_cons.1 once
    rcases List.mem_cons.1 ht with rfl | ht
    · rw [recoveryLines, List.filter_cons_of_pos (by simp), filter_id_eq_nil hapart,
        List.map_singleton]
    · have hid : u.id ≠ t.id := fun hid => hapart (List.mem_map.2 ⟨t, ht, hid.symm⟩)
      rw [← ih once ht, recoveryLines, List.filter_cons_of_neg (by simpa using hid), recoveryLines]

/-- What the maps of the store have become once these running dags are resumed: their records and
the logs of their interrupted tasks are the only ones that changed. -/
structure Books.Resumed (b b' : Books) (registry : Registry) (running : List Dag) : Prop where
  kept : ∀ id, id ∉ running.map (·.id) → b'.dags id = b.dags id
  brought : ∀ d ∈ running, ∃ time updatedAt,
    b'.dags d.id = some (d.afterRestart registry time updatedAt) ∧
      (d.interrupted = [] → updatedAt = d.updatedAt)
  logged : ∀ d ∈ running, ∀ t ∈ d.interrupted, ∃ time,
    b'.logs t.id = b.logs t.id ++ [⟨time, (registry.recovered t).2⟩]
  silent : ∀ id, (∀ d ∈ running, ∀ t ∈ d.interrupted, t.id ≠ id) → b'.logs id = b.logs id

theorem Books.Resumed.nil (b : Books) (registry : Registry) : b.Resumed b registry [] where
  kept _ _ := rfl
  brought _ := nofun
  logged _ := nofun
  silent _ _ := rfl

theorem Books.Resumed.cons {b b₁ b₂ : Books} {rest : List Dag} (hfirst : b.Resumed b₁ registry [d])
    (hrest : b₁.Resumed b₂ registry rest) (hid : d.id ∉ rest.map (·.id))
    (hapart : ∀ t ∈ d.interrupted, ∀ d' ∈ rest, ∀ t' ∈ d'.interrupted, t'.id ≠ t.id) :
    b.Resumed b₂ registry (d :: rest) where
  kept id h := by
    rw [List.map_cons, List.mem_cons, not_or] at h
    rw [hrest.kept id h.2, hfirst.kept id (by simpa using h.1)]
  brought := by
    refine List.forall_mem_cons.2 ⟨?_, hrest.brought⟩
    obtain ⟨time, updatedAt, hdag, hupdated⟩ := hfirst.brought d List.mem_cons_self
    exact ⟨time, updatedAt, by rw [hrest.kept d.id hid, hdag], hupdated⟩
  logged := by
    refine List.forall_mem_cons.2 ⟨fun t ht => ?_, fun d' hd' t' ht' => ?_⟩
    · obtain ⟨time, hlog⟩ := hfirst.logged d List.mem_cons_self t ht
      exact ⟨time, by rw [hrest.silent t.id (hapart t ht), hlog]⟩
    · obtain ⟨time, hlog⟩ := hrest.logged d' hd' t' ht'
      have hother : ∀ c ∈ [d], ∀ t ∈ c.interrupted, t.id ≠ t'.id :=
        List.forall_mem_singleton.2 fun t ht hid' => hapart t ht d' hd' t' ht' hid'.symm
      exact ⟨time, by rw [hlog, hfirst.silent t'.id hother]⟩
  silent id h := by
    obtain ⟨hd, hothers⟩ := List.forall_mem_cons.1 h
    rw [hrest.silent id hothers, hfirst.silent id (List.forall_mem_singleton.2 hd)]

namespace Engine

variable {σ : Type} {env : Surroundings σ} {e : Engine σ} {b : Books}

/-- The engine with another store, after so many more readings of its clock. -/
def rewritten (e : Engine σ) (store : Store) (readings : Nat) : Engine σ :=
  { e with store, clock := { e.clock with readings := e.clock.readings + readings } }

theorem rewritten_rewritten (e : Engine σ) (store store' : Store) (m n : Nat) :
    (e.rewritten store m).rewritten store' n = e.rewritten store' (m + n) := by
  simp only [rewritten, Nat.add_assoc]

/-- Interrupted tasks are brought back one after another, each with a write and a line of its
own. -/
theorem perform_bringBack_forM (env : Surroundings σ) (left : List Task)
    (holds : e.store.Holds b) (held : b.dags d.id = some d) (distinct : d.Distinct)
    (once : (left.map (·.id)).Nodup)
    (hleft : ∀ t ∈ left, t ∈ d.tasks) (lasting : d.Lasting left.length)
    (clock : e.clock.Lasts left.length) :
    ∃ time updatedAt store b',
      perform env (left.forM (bringBack d.id)) e = (.ok (), e.rewritten store left.length) ∧
      store.Holds b' ∧
      b'.dags = Function.update b.dags d.id
        (some (d.broughtBack e.registry time updatedAt left)) ∧
      (left = [] → updatedAt = d.updatedAt) ∧
      ∀ id, b'.logs id = b.logs id ++ recoveryLines e.registry time left id := by
  induction left generalizing e b d with
  | nil =>
    refine ⟨fun _ => d.updatedAt, d.updatedAt, e.store, b, rfl, holds, ?_, fun _ => rfl,
      fun id => (List.append_nil _).symm⟩
    rw [Dag.broughtBack_nil, ← held, Function.update_eq_self]
  | cons t left ih =>
    obtain ⟨hapart, once⟩ := List.nodup_cons.1 once
    have ht := hleft t List.mem_cons_self
    rw [List.length_cons, Nat.add_comm] at clock
    have hnow : e.clock.now.Valid := clock 0 (by omega)
    -- the record and the log after the first write
    let d₁ := d.restated t.id (e.registry.recovered t).1 e.clock.now
    let entry : LogEntry := ⟨e.clock.now, (e.registry.recovered t).2⟩
    let b₁ := (b.enter d₁).append t.id [entry]
    let e₁ := e.rewritten ((e.store.save d₁).appendLogs t.id [entry]) 1
    have hlasting : d₁.Lasting left.length := lasting.2 t.id _ _ hnow
    have holds₁ : e₁.store.Holds b₁ :=
      (holds.enter hlasting.survives).append t.id
        (List.forall_mem_singleton.2 (LogEntry.survives hnow _))
    have held₁ : b₁.dags d₁.id = some d₁ := Function.update_self ..
    have hleft₁ : ∀ u ∈ left, u ∈ d₁.tasks := fun u hu =>
      Dag.mem_tasks_restated distinct (hleft u (List.mem_cons_of_mem t hu)) fun hid =>
        hapart (List.mem_map.2 ⟨u, hu, hid⟩)
    obtain ⟨later, updatedAt, store, b', hperform, hholds, hdags, -, hlogs⟩ :=
      ih holds₁ held₁ (distinct.restated ..) once hleft₁ hlasting clock.later
    refine ⟨fun id => if id = t.id then e.clock.now else later id, updatedAt, store, b', ?_, hholds,
      ?_, nofun, fun id => ?_⟩
    · have hfirst : perform env (bringBack d.id t) e = (.ok (), e₁) :=
        perform_bringBack holds held ht
      rw [List.forM_eq_forM, List.forM_cons, perform_bind, hfirst]
      rw [rewritten_rewritten, Nat.add_comm] at hperform
      exact hperform
    · rw [hdags, ← Dag.broughtBack_restated distinct ht hapart]
      exact Function.update_idem ..
    · have hlogs := hlogs id
      rw [Books.append_logs] at hlogs
      rw [hlogs, recoveryLines_cons hapart]
      split
      · rename_i hid
        subst hid
        rw [recoveryLines_eq_nil hapart, List.append_nil]
        rfl
      · rfl

/-! ## One dag -/

/-- The engine with another journal, after one more reading of its clock. -/
def journaled (e : Engine σ) (journal : Journal) : Engine σ :=
  { e with journal, clock := e.clock.tick }

/-- The engine with one more drive loop. -/
def enlisted (e : Engine σ) (dag : DagId) : Engine σ :=
  { e with
    active := e.active ++ [(dag, e.generations)]
    generations := e.generations + 1
    loops := e.loops ++ [⟨dag, e.generations, .ready⟩] }

theorem perform_record (env : Surroundings σ) (e : Engine σ) (dag : DagId) (type : EventType) :
    ∃ journal, perform env (record dag type) e = (.ok (), e.journaled journal) := by
  simp only [record, perform_bind, perform_now, perform_modify]
  split
  · exact ⟨e.journal, rfl⟩
  · exact ⟨_, rfl⟩

theorem perform_spawn (env : Surroundings σ) {dag : DagId} (idle : e.active.lookup dag = none) :
    perform env (spawn dag) e = (.ok (), e.enlisted dag) := by
  rw [spawn, perform_modify, if_neg (by simp [isActive, idle]), enlisted]

/-- The engine after dags were resumed: each of them has a drive loop that is about to take its
first step. -/
def resumed (e : Engine σ) (store : Store) (journal : Journal) (readings : Nat)
    (dags : List DagId) : Engine σ :=
  { e.rewritten store readings with
    journal
    active := e.active ++ dags.zipIdx e.generations
    generations := e.generations + dags.length
    loops := e.loops ++ (dags.zipIdx e.generations).map fun p => ⟨p.1, p.2, .ready⟩ }

theorem resumed_resumed (e : Engine σ) (store store' : Store) (journal journal' : Journal)
    (m n : Nat) (dags dags' : List DagId) :
    (e.resumed store journal m dags).resumed store' journal' n dags' =
      e.resumed store' journal' (m + n) (dags ++ dags') := by
  simp only [resumed, rewritten, Nat.add_assoc, List.append_assoc, List.zipIdx_append,
    List.map_append, List.length_append]

theorem perform_resume (env : Surroundings σ) (holds : e.store.Holds b)
    (held : b.dags d.id = some d) (distinct : d.Distinct) (lasting : d.Lasting d.interrupted.length)
    (clock : e.clock.Lasts d.interrupted.length) (idle : e.active.lookup d.id = none) :
    ∃ store journal b',
      perform env (resume d) e =
        (.ok (), e.resumed store journal (d.interrupted.length + 1) [d.id]) ∧
      store.Holds b' ∧ b.Resumed b' e.registry [d] := by
  have once : (d.interrupted.map (·.id)).Nodup := distinct.sublist (List.filter_sublist.map _)
  obtain ⟨time, updatedAt, store, b', hperform, hholds, hdags, hupdated, hlogs⟩ :=
    perform_bringBack_forM env d.interrupted holds held distinct once
      (fun t ht => List.mem_of_mem_filter ht) lasting clock
  obtain ⟨journal, hrecord⟩ :=
    perform_record env (e.rewritten store d.interrupted.length) d.id (.dagRecovered d.stage)
  have hspawn :=
    perform_spawn env (e := (e.rewritten store d.interrupted.length).journaled journal) idle
  refine ⟨store, journal, b', ?_, hholds, ?_⟩
  · simp only [resume_eq, perform_bind, hperform, hrecord, hspawn]
    rfl
  · rw [Dag.broughtBack_interrupted distinct] at hdags
    refine ⟨fun id hid => ?_, List.forall_mem_singleton.2 ⟨time, updatedAt, ?_, hupdated⟩,
      List.forall_mem_singleton.2 fun t ht => ⟨time t.id, ?_⟩, fun id hid => ?_⟩
    · rw [hdags, Function.update_of_ne (by simpa using hid)]
    · rw [hdags, Function.update_self]
    · rw [hlogs, recoveryLines_eq_singleton once ht]
    · rw [hlogs, recoveryLines_eq_nil, List.append_nil]
      intro hmem
      obtain ⟨t, ht, rfl⟩ := List.mem_map.1 hmem
      exact hid d List.mem_cons_self t ht rfl

/-! ## One dag after another -/

theorem perform_resume_forM (env : Surroundings σ) (running : List Dag)
    (holds : e.store.Holds b) (held : ∀ d ∈ running, b.dags d.id = some d)
    (ids : (running.map (·.id)).Nodup)
    (once : ((running.flatMap Dag.tasks).map (·.id)).Nodup)
    (lasting : ∀ d ∈ running, d.Lasting d.interrupted.length)
    (clock : e.clock.Lasts (readingsFor running))
    (idle : ∀ d ∈ running, e.active.lookup d.id = none) :
    ∃ store journal b',
      perform env (running.forM resume) e =
        (.ok (), e.resumed store journal (readingsFor running) (running.map (·.id))) ∧
      store.Holds b' ∧ b.Resumed b' e.registry running := by
  induction running generalizing e b with
  | nil =>
    refine ⟨e.store, e.journal, b, ?_, holds, .nil b e.registry⟩
    simp [resumed, rewritten, readingsFor]
  | cons d rest ih =>
    obtain ⟨hid, ids⟩ := List.nodup_cons.1 ids
    rw [List.flatMap_cons, List.map_append, List.nodup_append] at once
    obtain ⟨distinct, once, hapart⟩ := once
    have hreadings : readingsFor (d :: rest) = d.interrupted.length + 1 + readingsFor rest := by
      rw [readingsFor, List.map_cons, List.sum_cons, readingsFor]
    rw [hreadings] at clock
    have hclock : e.clock.Lasts d.interrupted.length := fun k hk => clock k (by omega)
    obtain ⟨held, helds⟩ := List.forall_mem_cons.1 held
    obtain ⟨lasting, lastings⟩ := List.forall_mem_cons.1 lasting
    obtain ⟨idle, idles⟩ := List.forall_mem_cons.1 idle
    obtain ⟨store₁, journal₁, b₁, hfirst, holds₁, hresumed⟩ :=
      perform_resume env holds held distinct lasting hclock idle
    have hother : ∀ d' ∈ rest, d'.id ≠ d.id := fun d' hd' heq =>
      hid (List.mem_map.2 ⟨d', hd', heq⟩)
    obtain ⟨store, journal, b', hrest, hholds, hresumeds⟩ := ih
      (e := e.resumed store₁ journal₁ (d.interrupted.length + 1) [d.id]) holds₁
      (fun d' hd' => by
        rw [hresumed.kept d'.id (by simpa using hother d' hd'), helds d' hd'])
      ids once lastings clock.later
      (fun d' hd' => by
        have hne : (d'.id == d.id) = false := beq_false_of_ne (hother d' hd')
        simp [resumed, List.lookup_append, idles d' hd', List.lookup_cons, hne])
    refine ⟨store, journal, b', ?_, hholds, hresumed.cons hresumeds hid ?_⟩
    · rw [List.forM_eq_forM, List.forM_cons, perform_bind, hfirst]
      rw [resumed_resumed, ← hreadings] at hrest
      exact hrest
    · intro t ht d' hd' t' ht' heq
      refine hapart _ (List.mem_map_of_mem (List.mem_of_mem_filter ht)) _
        (List.mem_map_of_mem (List.mem_flatMap.2 ⟨d', hd', List.mem_of_mem_filter ht'⟩)) heq.symm

theorem perform_resume_uninterrupted (env : Surroundings σ) (e : Engine σ)
    (hnone : d.interrupted = []) :
    ∃ e', perform env (resume d) e = (.ok (), e') ∧ e'.store = e.store := by
  obtain ⟨journal, hrecord⟩ := perform_record env e d.id (.dagRecovered d.stage)
  have hnothing : perform env (([] : List Task).forM (bringBack d.id)) e = (.ok (), e) := rfl
  simp only [resume_eq, hnone, perform_bind, hnothing, hrecord, spawn, perform_modify]
  refine ⟨_, rfl, ?_⟩
  split <;> rfl

theorem perform_resume_forM_uninterrupted (env : Surroundings σ) (running : List Dag)
    (e : Engine σ) (hnone : ∀ d ∈ running, d.interrupted = []) :
    ∃ e', perform env (running.forM resume) e = (.ok (), e') ∧ e'.store = e.store := by
  induction running generalizing e with
  | nil => exact ⟨e, rfl, rfl⟩
  | cons d rest ih =>
    obtain ⟨hd, hrest⟩ := List.forall_mem_cons.1 hnone
    obtain ⟨e₁, hfirst, hstore⟩ := perform_resume_uninterrupted env e hd
    obtain ⟨e', hothers, hstore'⟩ := ih e₁ hrest
    refine ⟨e', ?_, hstore'.trans hstore⟩
    rw [List.forM_eq_forM, List.forM_cons, perform_bind, hfirst]
    exact hothers

theorem perform_list {ds : List Dag} (works : e.outages.list = none)
    (hlist : e.store.list = .ok ds) : perform env list e = (.ok ds, e) := by
  simp only [list, perform_bind, perform_get, works, hlist, stored, perform_pure]

end Engine

/-- The tasks of one dag are none of those of another. -/
theorem Task.id_ne_of_apart {ds : List Dag} (once : ((ds.flatMap Dag.tasks).map (·.id)).Nodup)
    {d d' : Dag} (hd : d ∈ ds) (hd' : d' ∈ ds) (hne : d' ≠ d) {t t' : Task} (ht : t ∈ d.tasks)
    (ht' : t' ∈ d'.tasks) : t'.id ≠ t.id := by
  rw [List.map_flatMap, List.nodup_flatMap] at once
  have : Std.Symm (Function.onFun List.Disjoint fun d : Dag => d.tasks.map (·.id)) :=
    ⟨fun _ _ h => List.Disjoint.symm h⟩
  intro hid
  exact once.2.forall hd' hd hne (List.mem_map_of_mem ht') (hid ▸ List.mem_map_of_mem ht)

theorem mem_runningOf_iff {ds : List Dag} : d ∈ runningOf ds ↔ d ∈ ds ∧ d.isRunning :=
  List.mem_filter

namespace Books

variable {b b' : Books} {ds : List Dag}

theorem Lists.eq_of_id (lists : b.Lists ds) {d' : Dag} (hd : d ∈ ds) (hd' : d' ∈ ds)
    (hid : d'.id = d.id) : d' = d := by
  have hstored := (lists.all d').1 hd'
  rw [hid, (lists.all d).1 hd] at hstored
  exact (Option.some.inj hstored).symm

theorem Lists.nodup_running_ids (lists : b.Lists ds) : ((runningOf ds).map (·.id)).Nodup :=
  (lists.nodup.filter _).map_on fun _ hd _ hd' hid =>
    lists.eq_of_id (mem_runningOf_iff.1 hd').1 (mem_runningOf_iff.1 hd).1 hid

/-- No dag that is running has an interrupted task any more. -/
theorem Resumed.interrupted_eq_nil (hresumed : b.Resumed b' registry (runningOf ds))
    (lists : b.Lists ds) (hd : b'.dags d.id = some d) (running : d.isRunning) :
    d.interrupted = [] := by
  -- Either the dag was brought back, or it is as it was and was not among the running ones.
  by_cases hid : d.id ∈ (runningOf ds).map (·.id)
  · obtain ⟨c, hc, hid⟩ := List.mem_map.1 hid
    obtain ⟨time, updatedAt, hstored, -⟩ := hresumed.brought c hc
    rw [hid, hd] at hstored
    rw [Option.some.inj hstored]
    exact c.interrupted_afterRestart ..
  · have hkept := hresumed.kept d.id hid
    rw [hd] at hkept
    have hmem : d ∈ runningOf ds := mem_runningOf_iff.2 ⟨(lists.all d).2 hkept.symm, running⟩
    exact absurd (List.mem_map_of_mem hmem) hid

/-- A dag that was not running is what it was, and so are the logs of its tasks. -/
theorem Resumed.untouched (hresumed : b.Resumed b' registry (runningOf ds)) (lists : b.Lists ds)
    (once : ((ds.flatMap Dag.tasks).map (·.id)).Nodup) (hd : d ∈ ds) (still : d.isRunning = false) :
    b'.dags d.id = some d ∧ ∀ t ∈ d.tasks, b'.logs t.id = b.logs t.id := by
  have hother {c : Dag} (hc : c ∈ runningOf ds) : c ≠ d := by
    rintro rfl
    rw [(mem_runningOf_iff.1 hc).2] at still
    cases still
  refine ⟨?_, fun t ht => hresumed.silent t.id fun c hc u hu => ?_⟩
  · rw [hresumed.kept d.id, (lists.all d).1 hd]
    intro hid
    obtain ⟨c, hc, hid⟩ := List.mem_map.1 hid
    exact hother hc (lists.eq_of_id hd (mem_runningOf_iff.1 hc).1 hid)
  · exact Task.id_ne_of_apart once hd (mem_runningOf_iff.1 hc).1 (hother hc) ht
      (List.mem_of_mem_filter hu)

end Books

namespace Engine

variable {σ : Type} {e : Engine σ} {b : Books}

theorem perform_recover {env : Surroundings σ} {e' : Engine σ} {ds : List Dag}
    (works : e.outages.list = none) (hlist : e.store.list = .ok ds)
    (hresume : perform env ((runningOf ds).forM resume) e = (.ok (), e')) :
    perform env recover e = (.ok (runningOf ds).length, e') := by
  rw [runningOf] at hresume
  rw [recover, perform_bind, perform_list works hlist]
  simp only [perform_bind, hresume, perform_pure, runningOf]

theorem perform_recover_uninterrupted (env : Surroundings σ) (holds : e.store.Holds b)
    (works : e.outages.list = none)
    (hnone : ∀ d, b.dags d.id = some d → d.isRunning → d.interrupted = []) :
    ∃ n e', perform env recover e = (.ok n, e') ∧ e'.store = e.store := by
  obtain ⟨ds, hlist, lists⟩ := holds.list_eq
  obtain ⟨e', hresume, hstore⟩ := perform_resume_forM_uninterrupted env (runningOf ds) e
    fun d hd => hnone d ((lists.all d).1 (mem_runningOf_iff.1 hd).1) (mem_runningOf_iff.1 hd).2
  exact ⟨(runningOf ds).length, e', perform_recover works hlist hresume, hstore⟩

/-- An engine that recovers with nothing at work changes the records of the running dags and the
logs of their interrupted tasks, and nothing else. It counts the running dags, each of which has a
drive loop then. To recover once more changes no record and no log. -/
theorem recover_resumes (env : Surroundings σ) (holds : e.store.Holds b)
    (works : e.outages.list = none) (idle : e.active = []) (atRest : e.loops = []) {ds : List Dag}
    (hlist : e.store.list = .ok ds) (once : ((ds.flatMap Dag.tasks).map (·.id)).Nodup)
    (lasting : ∀ d ∈ ds, d.isRunning → d.Lasting d.interrupted.length)
    (clock : e.clock.Lasts (readingsFor (runningOf ds))) :
    ∃ e' b', perform env recover e = (.ok (runningOf ds).length, e') ∧ e'.store.Holds b' ∧
      b.Resumed b' e.registry (runningOf ds) ∧
      (∀ d ∈ ds, d.isRunning = false →
        b'.dags d.id = some d ∧ ∀ t ∈ d.tasks, b'.logs t.id = b.logs t.id) ∧
      (∀ d, b'.dags d.id = some d → d.isRunning → d.interrupted = []) ∧
      e'.active = ((runningOf ds).map (·.id)).zipIdx e.generations ∧
      e'.loops = e'.active.map (fun p => ⟨p.1, p.2, .ready⟩) ∧
      ∀ env', ∃ n e'', perform env' recover e' = (.ok n, e'') ∧ e''.store = e'.store := by
  obtain ⟨ds', hlist', lists⟩ := holds.list_eq
  obtain rfl : ds = ds' := Except.ok.inj (hlist.symm.trans hlist')
  have held : ∀ d ∈ runningOf ds, b.dags d.id = some d :=
    fun d hd => (lists.all d).1 (mem_runningOf_iff.1 hd).1
  have onceRunning : (((runningOf ds).flatMap Dag.tasks).map (·.id)).Nodup := by
    rw [List.map_flatMap, List.nodup_flatMap] at once ⊢
    exact ⟨fun d hd => once.1 d (mem_runningOf_iff.1 hd).1, once.2.filter _⟩
  have lastingRunning : ∀ d ∈ runningOf ds, d.Lasting d.interrupted.length :=
    fun d hd => lasting d (mem_runningOf_iff.1 hd).1 (mem_runningOf_iff.1 hd).2
  obtain ⟨store, journal, b', hperform, hholds, hresumed⟩ :=
    perform_resume_forM env (runningOf ds) holds held lists.nodup_running_ids onceRunning
      lastingRunning clock fun d _ => by rw [idle]; rfl
  have hnone : ∀ d, b'.dags d.id = some d → d.isRunning → d.interrupted = [] :=
    fun d hd running => hresumed.interrupted_eq_nil lists hd running
  refine ⟨e.resumed store journal (readingsFor (runningOf ds)) ((runningOf ds).map (·.id)), b',
    perform_recover works hlist hperform, hholds, hresumed,
    fun d hd still => hresumed.untouched lists once hd still, hnone, ?_, ?_, fun env' =>
      perform_recover_uninterrupted env' hholds works hnone⟩
  · rw [resumed, idle, List.nil_append]
  · simp only [resumed, idle, atRest, List.nil_append]

end Engine

namespace Sample

/-- The process stops while both tasks of the first stage are running. The second of them cannot go
on. -/
def halted : Dag :=
  { dag with
    nodes :=
      [⟨"first", [], [⟨ids.task 0 0, "a", "steady", .new worker, .all, .running, .empty, none,
          none⟩, ⟨ids.task 0 1, "b", "brittle", .new worker,
            { Capabilities.all with canContinue := false }, .running, .empty, none, none⟩]⟩,
        ⟨"second", [], [⟨ids.task 1 0, "c", "steady", .new worker, .all, .pending, .empty,
          none, none⟩]⟩] }

theorem valid_halted : halted.Valid where
  nodes := by
    have hvalid (t : Task) (hcontext : t.context = .new worker) (hstarted : t.startedAt = none)
        (hfinished : t.finishedAt = none) : t.Valid := by
      refine ⟨hcontext ▸ ⟨.empty, .empty⟩, ?_, ?_⟩
      · rw [hstarted]
        nofun
      · rw [hfinished]
        nofun
    refine List.forall_mem_cons.2 ⟨⟨?_⟩, List.forall_mem_singleton.2 ⟨?_⟩⟩
    · exact List.forall_mem_cons.2 ⟨hvalid _ rfl rfl rfl,
        List.forall_mem_singleton.2 (hvalid _ rfl rfl rfl)⟩
    · exact List.forall_mem_singleton.2 (hvalid _ rfl rfl rfl)
  stage := by decide
  maxStage := by decide
  version := by decide
  createdAt := ⟨by decide, by decide, by decide⟩
  updatedAt := ⟨by decide, by decide, by decide⟩

theorem lasting_halted : halted.Lasting halted.interrupted.length :=
  valid_halted.lasting (by decide) (by decide)

/-- The engine that comes up after that. -/
def restarted : Engine Unit :=
  { Engine.new Sample.registry dawn () with store := Store.empty.save halted }

def vicinity : Surroundings Unit := ⟨fun _ _ _ _ => (.inProcess, ()), fun _ => ids⟩

theorem lists_halted : (Books.empty.enter halted).Lists [halted] where
  all d := by
    rw [List.mem_singleton, Books.enter_dags_iff]
    constructor
    · rintro rfl
      exact .inl ⟨rfl, rfl⟩
    · rintro (⟨-, hd⟩ | ⟨-, hnone⟩)
      · exact hd
      · cases hnone
  ordered := List.pairwise_singleton _ _

end Sample

theorem Engine.recover_resumes_halted :
    ∃ e' b', perform Sample.vicinity recover Sample.restarted = (.ok 1, e') ∧
      e'.store.Holds b' ∧ ∃ time updatedAt, b'.dags Sample.halted.id =
        some (Sample.halted.afterRestart Sample.registry time updatedAt) := by
  have holds : Sample.restarted.store.Holds (Books.empty.enter Sample.halted) :=
    Store.holds_empty.enter Sample.lasting_halted.survives
  obtain ⟨ds, hlist, hlists⟩ := holds.list_eq
  obtain rfl := hlists.unique Sample.lists_halted
  have clock : Sample.restarted.clock.Lasts (readingsFor (runningOf [Sample.halted])) := by
    intro k hk
    have hlt : k < 3 := hk
    interval_cases k <;> exact ⟨by decide, by decide, by decide⟩
  obtain ⟨e', b', hperform, hholds, hresumed, -⟩ :=
    recover_resumes Sample.vicinity holds rfl rfl rfl hlist (by decide)
      (List.forall_mem_singleton.2 fun _ => Sample.lasting_halted) clock
  obtain ⟨time, updatedAt, hstored, -⟩ := hresumed.brought Sample.halted (.head [])
  exact ⟨e', b', hperform, hholds, time, updatedAt, hstored⟩

end Stagewise
