import Stagewise.Proofs.Course.Turn
/-!
# The histories of courses

A history grows by requests that go out of a stage and by records that follow the one before. From
this come two ways of showing something of every course: one for what a history and its latest
record have in common, and one for what holds while a stage is out, where nothing happens but that
its requests go out or the dag is cancelled.
-/

namespace Stagewise.Course

/-- The record that was stored last. -/
def latest? : List Occurrence → Option Dag
  | [] => none
  | .wrote _ d :: _ => some d
  | .sent .. :: earlier => latest? earlier

/-- The record that the drive loop stored last when it took a step. -/
def stepped? : List Occurrence → Option Dag
  | [] => none
  | .wrote .step d :: _ => some d
  | _ :: earlier => stepped? earlier

/-- A rollback was commanded and accepted. -/
def RollbackGiven (history : List Occurrence) : Prop :=
  ∃ d, .wrote (.operator .rollback) d ∈ history

@[simp] theorem rollbackGiven_sent {history : List Occurrence} {a : Agent} {q : DispatchRequest} :
    RollbackGiven (.sent a q :: history) ↔ RollbackGiven history := by
  simp [RollbackGiven]

@[simp] theorem rollbackGiven_wrote {history : List Occurrence} {author : Author} {d : Dag} :
    RollbackGiven (.wrote author d :: history) ↔ author = .operator .rollback ∨
      RollbackGiven history := by
  simp only [RollbackGiven, List.mem_cons, Occurrence.wrote.injEq]
  constructor
  · rintro ⟨d', ⟨rfl, rfl⟩ | hd⟩
    · exact .inl rfl
    · exact .inr ⟨d', hd⟩
  · rintro (rfl | ⟨d', hd⟩)
    · exact ⟨d, .inl ⟨rfl, rfl⟩⟩
    · exact ⟨d', .inr hd⟩

variable {s : Course}

/-- Every request that went out did so at a moment of the course, with just this before it. -/
theorem Lived.moment_of_sent (h : s.Lived) {a : Agent} {q : DispatchRequest}
    {earlier : List Occurrence} (hsent : .sent a q :: earlier <:+ s.history) :
    ∃ (s₀ : Course) (b : Barrier) (rest : List (Agent × DispatchRequest)),
      s₀.Lived ∧ s₀.history = earlier ∧ s₀.loop = .barrier b ∧ b.rest = (a, q) :: rest := by
  induction h with
  | submitted fresh built =>
    rcases List.suffix_cons_iff.mp hsent with heq | hnil
    · cases heq
    · simp at hnil
  | @next s₁ s' lived step ih =>
    cases lived.held.turn step with
    | quiet record history => exact ih (history ▸ hsent)
    | @sent b agent request rest sending next record history =>
      rw [history] at hsent
      rcases List.suffix_cons_iff.mp hsent with heq | hearlier
      · obtain ⟨hfirst, rfl⟩ := List.cons.inj heq
        obtain ⟨rfl, rfl⟩ := Occurrence.sent.inj hfirst
        exact ⟨s₁, b, rest, lived, rfl, sending, next⟩
      · exact ih hearlier
    | wrote origin history follows =>
      rw [history] at hsent
      rcases List.suffix_cons_iff.mp hsent with heq | hearlier
      · cases heq
      · exact ih hearlier

/-- What holds when a dag is submitted, and again after each request that goes out and each record
that follows, holds of every course. -/
theorem Lived.history_induction {P : List Occurrence → Dag → Prop} (h : s.Lived)
    (submitted : ∀ d : Dag, d.Sound → (∀ i t, d.TaskAt i t → t.status = .pending) →
      d.operator = .run → P [.wrote .submission d] d)
    (sent : ∀ (s : Course) (b : Barrier) (a : Agent) (q : DispatchRequest)
      (rest : List (Agent × DispatchRequest)), s.Lived → s.loop = .barrier b →
        b.rest = (a, q) :: rest → P s.history s.record → P (.sent a q :: s.history) s.record)
    (wrote : ∀ (s : Course) (author : Author) (d : Dag), s.Lived → author.Origin s d →
      s.record.Follows author d → d.Sound → P s.history s.record →
        P (.wrote author d :: s.history) d) :
    P s.history s.record := by
  induction h with
  | submitted fresh built =>
    obtain ⟨-, -, -, -, hoperator, -⟩ := DagSpec.build_eq_ok built
    exact submitted _ (DagSpec.build_sound fresh built)
      (fun _ _ ht => DagSpec.build_pending built ht) hoperator
  | @next s s' lived step ih =>
    cases lived.held.turn step with
    | quiet record history => rwa [record, history]
    | sent sending next record history =>
      rw [record, history]
      exact sent s _ _ _ _ lived sending next ih
    | wrote origin history follows =>
      rw [history]
      exact wrote s _ _ lived origin follows (Lived.next lived step).held.sound ih

/-- What holds of every dag that is built, and again of what any author makes of it, holds of every
record that is stored. -/
theorem Lived.record_induction {P : Dag → Prop} (h : s.Lived)
    (submitted : ∀ (registry : Registry) (ids : FreshIds) (spec : DagSpec) (now : Timestamp)
      (d : Dag), spec.build registry ids now = .ok d → P d)
    (wrote : ∀ (d : Dag) (author : Author) (d' : Dag), d.Handles author d' → d.Follows author d' →
      P d → P d') {author : Author} {d : Dag} (hd : .wrote author d ∈ s.history) : P d := by
  suffices hall : P s.record ∧ ∀ author d, .wrote author d ∈ s.history → P d from hall.2 _ _ hd
  clear hd
  induction h with
  | submitted fresh built =>
    have hbuilt := submitted _ _ _ _ _ built
    refine ⟨hbuilt, fun author d hd => ?_⟩
    obtain ⟨-, rfl⟩ := Occurrence.wrote.inj (List.mem_singleton.mp hd)
    exact hbuilt
  | next lived step ih =>
    obtain ⟨hlatest, hall⟩ := ih
    cases lived.held.turn step with
    | quiet record history =>
      rw [record, history]
      exact ⟨hlatest, hall⟩
    | sent sending next record history =>
      rw [record, history]
      refine ⟨hlatest, fun author d hd => hall author d ?_⟩
      exact (List.mem_cons.mp hd).resolve_left (by simp)
    | wrote origin history follows =>
      have hmade := wrote _ _ _ (lived.held.handles step history) follows hlatest
      refine ⟨hmade, fun author d hd => ?_⟩
      rw [history] at hd
      rcases List.mem_cons.mp hd with heq | hearlier
      · obtain ⟨-, rfl⟩ := Occurrence.wrote.inj heq
        exact hmade
      · exact hall author d hearlier

theorem Lived.latest (h : s.Lived) : latest? s.history = some s.record :=
  h.history_induction (P := fun history record => latest? history = some record)
    (fun _ _ _ _ => rfl) (fun _ _ _ _ _ _ _ _ hs => hs) (fun _ _ _ _ _ _ _ _ => rfl)

/-- Every record is what its author makes of the one before. -/
theorem Lived.handles_of_wrote (h : s.Lived) {author : Author} {d d' : Dag}
    {earlier : List Occurrence} (hd : .wrote author d' :: earlier <:+ s.history)
    (hbefore : latest? earlier = some d) : d.Handles author d' := by
  induction h with
  | submitted fresh built =>
    rcases List.suffix_cons_iff.mp hd with heq | hnil
    · obtain ⟨-, rfl⟩ := List.cons.inj heq
      cases hbefore
    · simp at hnil
  | next lived step ih =>
    cases lived.held.turn step with
    | quiet record history => exact ih (history ▸ hd)
    | sent sending next record history =>
      rw [history] at hd
      rcases List.suffix_cons_iff.mp hd with heq | hearlier
      · cases heq
      · exact ih hearlier
    | wrote origin history follows =>
      have hhandles := lived.held.handles step history
      rw [history] at hd
      rcases List.suffix_cons_iff.mp hd with heq | hearlier
      · obtain ⟨hfirst, rfl⟩ := List.cons.inj heq
        obtain ⟨rfl, rfl⟩ := Occurrence.wrote.inj hfirst
        rw [lived.latest] at hbefore
        exact Option.some.inj hbefore ▸ hhandles
      · exact ih hearlier

theorem mem_of_latest {history : List Occurrence} {d : Dag} (h : latest? history = some d) :
    ∃ author, .wrote author d ∈ history := by
  induction history with
  | nil => cases h
  | cons o earlier ih =>
    cases o with
    | wrote author d' =>
      obtain rfl := Option.some.inj h
      exact ⟨author, List.mem_cons_self ..⟩
    | sent a q =>
      obtain ⟨author, hmem⟩ := ih h
      exact ⟨author, List.mem_cons_of_mem _ hmem⟩

/-- Unless it is cancelled, a dag is under rollback just when a rollback was commanded. -/
theorem Lived.rollback_iff (h : s.Lived) (hs : s.record.status ≠ .cancelled) :
    s.record.operator = .rollback ↔ RollbackGiven s.history := by
  refine h.history_induction
    (P := fun history d => d.status ≠ .cancelled → (d.operator = .rollback ↔ RollbackGiven history))
      ?_ ?_ ?_ hs
  · intro d _ _ hoperator _
    simp [hoperator, RollbackGiven]
  · intro s b a q rest _ _ _ ih hs
    rw [rollbackGiven_sent]
    exact ih hs
  · intro s author d _ _ hfollows _ ih hs
    have hcancelled := mt hfollows.cancelled.mpr hs
    rw [not_or] at hcancelled
    have hmay := hfollows.may
    rw [hfollows.operator, rollbackGiven_wrote, ← ih hcancelled.1]
    cases author with
    | submission => exact absurd hmay id
    | operator command =>
      cases command with
      | run => exact absurd hmay id
      | retry => simpa [Author.operatorAfter] using hmay.2
      | pass => simpa [Author.operatorAfter] using hmay.2
      | rollback => simp [Author.operatorAfter]
      | cancel => exact absurd rfl hcancelled.2
    | _ => simp [Author.operatorAfter]

/-- A task that was once shown as rolled back stays so. -/
theorem Lived.rolledBack_stays (h : s.Lived) {author : Author} {d : Dag}
    (hd : .wrote author d ∈ s.history) {id : TaskId} (hs : d.Shows id .rolledBack) :
    s.record.Shows id .rolledBack := by
  refine h.history_induction (P := fun history record => .wrote author d ∈ history →
    record.Shows id .rolledBack)
    ?_ ?_ ?_ hd
  · intro d' _ _ _ hmem
    obtain ⟨rfl, rfl⟩ := Occurrence.wrote.inj (List.mem_singleton.mp hmem)
    exact hs
  · intro s b a q rest _ _ _ ih hmem
    exact ih ((List.mem_cons.mp hmem).resolve_left (by simp))
  · intro s author' d' _ _ hfollows _ ih hmem
    rcases List.mem_cons.mp hmem with heq | hearlier
    · obtain ⟨rfl, rfl⟩ := Occurrence.wrote.inj heq
      exact hs
    · obtain ⟨after, hafter, hmoved⟩ := hfollows.shownAfter (ih hearlier)
      exact hmoved.of_rolledBack rfl ▸ hafter

/-- A task that was once shown as succeeded stays so until a rollback is commanded. -/
theorem Lived.succeeded_stays (h : s.Lived) (hforward : ¬ RollbackGiven s.history)
    {author : Author} {d : Dag} (hd : .wrote author d ∈ s.history) {id : TaskId}
    (hs : d.Shows id .succeeded) : s.record.Shows id .succeeded := by
  refine h.history_induction
    (P := fun history record => ¬ RollbackGiven history → .wrote author d ∈ history →
      record.Shows id .succeeded)
    ?_ ?_ ?_ hforward hd
  · intro d' _ _ _ _ hmem
    obtain ⟨rfl, rfl⟩ := Occurrence.wrote.inj (List.mem_singleton.mp hmem)
    exact hs
  · intro s b a q rest _ _ _ ih hforward hmem
    exact ih (mt rollbackGiven_sent.mpr hforward) ((List.mem_cons.mp hmem).resolve_left (by simp))
  · intro s author' d' hlived _ hfollows _ ih hforward hmem
    rw [rollbackGiven_wrote, not_or] at hforward
    rcases List.mem_cons.mp hmem with heq | hearlier
    · obtain ⟨rfl, rfl⟩ := Occurrence.wrote.inj heq
      exact hs
    · obtain ⟨after, hafter, hmoved⟩ := hfollows.shownAfter (ih hforward.2 hearlier)
      rcases hmoved.of_succeeded rfl with hsame | ⟨reports, rfl⟩
      · exact hsame ▸ hafter
      · obtain ⟨hrunning, hdirection⟩ := hfollows.may
        have hback := Dag.direction_eq_rollback_iff.mp hdirection
        exact absurd ((hlived.rollback_iff (by simp [hrunning])).mp hback) hforward.2

end Stagewise.Course
