import Stagewise.Proofs.Arena.Play
import Stagewise.Proofs.Arena.Shutdown
import Stagewise.Proofs.Course.Settling
/-!
# A drive loop that is left alone settles its dag

Nobody gives a command, nothing is shut down, and every request is answered, in whatever way. Then
the loop of a running dag begins no more steps than the stages before it allow, the dag has
succeeded or failed, and the next step is the last one.
-/

namespace Stagewise

/-- How agents answer requests. -/
abbrev Answers := Agent → DispatchRequest → EngineResult Outcome → Prop

/-- The most steps that a drive loop takes until the dag has ended. -/
def Dag.allowance (d : Dag) : Nat :=
  if d.operator = .rollback then 2 * d.stage else 2 * (d.maxStage - d.stage + 1)

/-- A reply that comes in is one that the agent may give. -/
def Post.Served (answers : Answers) : Post → Post → Prop
  | .waiting b replies, .waiting _ replies' =>
    ∀ (i : Nat) (a : Agent) (q : DispatchRequest) (result : EngineResult Outcome),
      b.sent[i]? = some (a, q) → replies[i]? = some none → replies'[i]? = some (some result) →
        answers a q result
  | _, _ => True

/-- A drive loop acts, and nobody else does. -/
def Works (answers : Answers) (g : Nat) (x y : Common × Post) : Prop :=
  Act (.loop g) x.1 x.2 y.1 y.2 ∧ x.2.Served answers y.2

/-- The step that is begun by coming to this post. -/
def Post.begun : Post → Nat
  | .entering => 1
  | _ => 0

/-- What a drive loop does that is left alone, and how many steps it begins. -/
inductive Drives (answers : Answers) (g : Nat) (x : Common × Post) :
    Nat → Common × Post → Prop where
  | refl : Drives answers g x 0 x
  | tail {n : Nat} {y z : Common × Post} (drives : Drives answers g x n y)
      (works : Works answers g y z) : Drives answers g x (n + z.2.begun) z

/-- The next step of the loop writes nothing and is its last one. -/
def Stops (answers : Answers) (g : Nat) (c : Common) : Prop :=
  ∀ n y, Drives answers g (c, .checking) n y →
    y.1.record = c.record ∧ n ≤ 1 ∧ (y.2 = .checking → n = 0)

variable {answers : Answers} {g n : Nat} {c c' : Common} {post post' : Post} {x y : Common × Post}

theorem Post.served_any (post post' : Post) : post.Served (fun _ _ _ => True) post' := by
  cases post with
  | waiting =>
    cases post' with
    | waiting => exact fun _ _ _ _ _ _ _ => trivial
    | _ => trivial
  | _ => trivial

/-- What a drive loop does when no other comes in, it does when it may be answered anything. -/
theorem acts_iff_drives : Acts (.loop g) c post c' post' ↔
    ∃ n, Drives (fun _ _ _ => True) g (c, post) n (c', post') := by
  rw [Acts]
  generalize (c', post') = y
  constructor
  · intro acts
    induction acts with
    | refl => exact ⟨0, .refl⟩
    | tail _ act ih =>
      obtain ⟨n, drives⟩ := ih
      exact ⟨_, .tail drives ⟨act, Post.served_any _ _⟩⟩
  · rintro ⟨n, drives⟩
    induction drives with
    | refl => exact .refl
    | tail _ works ih => exact .tail ih works.1

/-! ## What the loop knows -/

/-- The barrier is that of the stage at which the dag runs. -/
structure Barrier.Current (b : Barrier) (d : Dag) : Prop where
  running : d.isRunning
  stage : d.stage = b.stage
  direction : d.direction = b.action

/-- What a drive loop that is left alone knows at its post. -/
def Post.Knows (g : Nat) (c : Common) : Post → Prop
  | .checking | .entering | .stepping => True
  | .moving read move =>
    read = c.record ∧ c.record.isRunning ∧ ∃ now, c.record.step now = .ok move
  | .waiting b replies =>
    b.Current c.record ∧ c.record.Asked (b.sent ++ b.rest) ∧ replies.length = b.sent.length
  | .returning b reports | .reading b reports => b.Current c.record ∧ c.record.Answered reports
  | .folded read record =>
    read = c.record ∧ c.record.isRunning ∧ record.Driven ∧
      (record.isRunning → record.stepsLeft < 2 * c.record.stagesLeft + 2)
  | .leaving | .deciding | .considering | .departing => ¬ c.record.isRunning
  | .gone => ¬ c.record.isRunning ∧ c.entry ≠ some g
  | _ => False

/-- The steps that the loop has still to begin. -/
def Post.owed (c : Common) : Post → Nat
  | .checking => if c.record.isRunning then c.record.stepsLeft + 1 else 1
  | .entering | .stepping | .moving .. => if c.record.isRunning then c.record.stepsLeft else 0
  | .waiting .. | .returning .. | .reading .. | .folded .. => 2 * c.record.stagesLeft + 2
  | _ => 0

/-- A drive loop on its way. -/
structure OnCourse (g : Nat) (c : Common) (post : Post) : Prop where
  live : g ∉ c.cancelled
  driven : c.record.Driven
  knows : post.Knows g c

@[simp] theorem Post.begun_after (record : Dag) (batch : Option Batch) :
    (Post.after record batch).begun = 0 := by
  cases batch with
  | none => rfl
  | some batch => rfl

theorem Dag.Asked.answered {d : Dag} {b : Barrier} {reports : List Report}
    (h : d.Asked (b.sent ++ b.rest)) (answered : b.Answered reports) : d.Answered reports :=
  fun i t ht hi hunsettled => answered.reported_iff.mpr (h i t ht hi hunsettled)

theorem owed_write {record : Dag} {k : Nat} (hpos : 0 < k)
    (fewer : record.isRunning → record.stepsLeft < k) (later : Timestamp) :
    Post.checking.owed (c.write (.loop g) record later) ≤ k := by
  show (if record.isRunning then record.stepsLeft + 1 else 1) ≤ k
  split
  · next hrunning => exact fewer hrunning
  · exact hpos

theorem OnCourse.write {read record : Dag} {move : Move} (h : OnCourse g c (.moving read move))
    (hwrite : move.write = some record) (later : Timestamp) :
    OnCourse g (c.write (.loop g) record later) (.after (record.raised later) move.batch) ∧
      (Post.after (record.raised later) move.batch).owed (c.write (.loop g) record later)
        ≤ (Post.moving read move).owed c := by
  obtain ⟨-, running, now, hstep⟩ := h.knows
  have howed : (Post.moving read move).owed c = c.record.stepsLeft := if_pos running
  rw [howed]
  cases h.driven.onward running hstep with
  | nearer driven fewer =>
    cases hwrite
    have hpos : 0 < c.record.stepsLeft := Nat.zero_lt_of_lt c.record.lt_stepsLeft
    exact ⟨⟨h.live, driven.raised later, trivial⟩, owed_write hpos fewer later⟩
  | sendsOut driven running' enough asked =>
    cases hwrite
    exact ⟨⟨h.live, driven.raised later, ⟨running', rfl, rfl⟩, asked _ _, rfl⟩, enough⟩

theorem OnCourse.pass {read : Dag} {move : Move} (h : OnCourse g c (.moving read move))
    (nothing : move.write = none) :
    OnCourse g c (.after read move.batch) ∧
      (Post.after read move.batch).owed c ≤ (Post.moving read move).owed c := by
  obtain ⟨rfl, running, now, hstep⟩ := h.knows
  have howed : (Post.moving c.record move).owed c = c.record.stepsLeft := if_pos running
  rw [howed]
  cases h.driven.onward running hstep with
  | nearer driven fewer => cases nothing
  | sendsOut driven running' enough asked =>
    cases nothing
    exact ⟨⟨h.live, h.driven, ⟨running, rfl, rfl⟩, asked _ _, rfl⟩, enough⟩

/-- Whatever the loop does, it stays on its way, and no step is begun that it does not owe. -/
theorem OnCourse.act (h : OnCourse g c post) (act : Act (.loop g) c post c' post') :
    OnCourse g c' post' ∧ post'.begun + post'.owed c' ≤ post.owed c := by
  have hlive := h.live
  have hdriven := h.driven
  have hknows := h.knows
  cases act with
  | goOn live =>
    refine ⟨⟨hlive, hdriven, trivial⟩, ?_⟩
    simp only [Post.begun, Post.owed]
    split <;> omega
  | giveUp cancelled => exact absurd cancelled hlive
  | enter => exact ⟨⟨hlive, hdriven, trivial⟩, Nat.le_of_eq (Nat.zero_add _)⟩
  | rest ended => exact ⟨⟨hlive, hdriven, ended⟩, Nat.zero_le _⟩
  | choose now running step =>
    exact ⟨⟨hlive, hdriven, rfl, running, now, step⟩, Nat.le_of_eq (Nat.zero_add _)⟩
  | breakOff now running step =>
    -- The stage is that of a node, so there is a next move.
    obtain ⟨n, hn⟩ := hdriven.staged.currentNode
    obtain ⟨move, hmove⟩ := Dag.exists_step hn now
    simp [hmove] at step
  | @write _ _ read record move later write same =>
    obtain ⟨hcourse, howed⟩ := h.write write later
    exact ⟨hcourse, by simpa using howed⟩
  | @pass _ _ read move nothing =>
    obtain ⟨hcourse, howed⟩ := h.pass nothing
    exact ⟨hcourse, by simpa using howed⟩
  -- Nobody else writes, so the version that was read is still the stored one.
  | miss write other => exact absurd (congrArg Dag.version hknows.1.symm) other
  | @send _ _ b replies p rest next =>
    obtain ⟨hcurrent, hasked, hmatched⟩ := hknows
    refine ⟨⟨hlive, hdriven, ⟨hcurrent.running, hcurrent.stage, hcurrent.direction⟩, ?_, ?_⟩, ?_⟩
    · rw [next] at hasked
      simpa using hasked
    · simp [hmatched]
    · exact Nat.le_of_eq (Nat.zero_add _)
  | reply result due =>
    obtain ⟨hcurrent, hasked, hmatched⟩ := hknows
    refine ⟨⟨hlive, hdriven, hcurrent, hasked, ?_⟩, Nat.le_of_eq (Nat.zero_add _)⟩
    rw [List.length_set, hmatched]
  | collect out all =>
    obtain ⟨hcurrent, hasked, hmatched⟩ := hknows
    have hanswered := hasked.answered (Barrier.answered_reports out hmatched all)
    exact ⟨⟨hlive, hdriven, hcurrent, hanswered⟩, Nat.le_of_eq (Nat.zero_add _)⟩
  | interrupt cancelled => exact absurd cancelled hlive
  | reenter => exact ⟨⟨hlive, hdriven, hknows⟩, Nat.le_of_eq (Nat.zero_add _)⟩
  | drop changed => exact absurd ⟨hknows.1.running, hknows.1.stage⟩ changed
  | @fold _ _ b reports now running stage =>
    obtain ⟨hcurrent, hanswered⟩ := hknows
    have hsettled := hdriven.settle hanswered now
    rw [hcurrent.direction] at hsettled
    exact ⟨⟨hlive, hdriven, rfl, running, hsettled⟩, Nat.le_of_eq (Nat.zero_add _)⟩
  | @settle _ _ read record later same =>
    obtain ⟨-, -, hrecord, hfewer⟩ := hknows
    have howed : Post.checking.owed (c.write (.loop g) record later)
        ≤ 2 * c.record.stagesLeft + 2 := owed_write (Nat.succ_pos _) hfewer later
    refine ⟨⟨hlive, hrecord.raised later, trivial⟩, ?_⟩
    exact Nat.le_trans (Nat.le_of_eq (Nat.zero_add _)) howed
  | missFold other => exact absurd (congrArg Dag.version hknows.1.symm) other
  | leave => exact ⟨⟨hlive, hdriven, hknows⟩, Nat.le_refl _⟩
  | confirm cancelled => exact absurd cancelled hlive
  | consider live => exact ⟨⟨hlive, hdriven, hknows⟩, Nat.le_refl _⟩
  | again running => exact absurd running hknows
  | quit ended => exact ⟨⟨hlive, hdriven, hknows⟩, Nat.le_refl _⟩
  | depart =>
    refine ⟨⟨hlive, hdriven, hknows, ?_⟩, Nat.le_refl _⟩
    simp only [Common.deregister]
    split
    · intro hnone
      cases hnone
    · assumption

theorem OnCourse.drives (h : OnCourse g x.1 x.2) (drives : Drives answers g x n y) :
    OnCourse g y.1 y.2 ∧ n + y.2.owed y.1 ≤ x.2.owed x.1 := by
  induction drives with
  | refl => exact ⟨h, Nat.le_of_eq (Nat.zero_add _)⟩
  | tail _ works ih =>
    obtain ⟨hcourse, hle⟩ := ih
    obtain ⟨hcourse', hle'⟩ := hcourse.act works.1
    exact ⟨hcourse', by omega⟩

theorem OnCourse.drives_of_ended (h : OnCourse g x.1 x.2) (ended : ¬ x.1.record.isRunning)
    (drives : Drives answers g x n y) : y.1.record = x.1.record := by
  induction drives with
  | refl => rfl
  | @tail n y z drives works ih =>
    have hknows := (h.drives drives).1.knows
    rw [← ih] at ended ⊢
    obtain ⟨c, post⟩ := y
    obtain ⟨c', post'⟩ := z
    cases works.1 with
    | write | settle => exact absurd hknows.2.1 ended
    | _ => rfl

theorem OnCourse.stops (h : OnCourse g c .checking) (ended : ¬ c.record.isRunning) :
    Stops answers g c := by
  intro n y drives
  have hrecord : y.1.record = c.record := h.drives_of_ended ended drives
  obtain ⟨-, hle⟩ := h.drives drives
  have howed : Post.checking.owed c = 1 := if_neg ended
  have hended : ¬ y.1.record.isRunning := hrecord ▸ ended
  rw [howed] at hle
  refine ⟨hrecord, by omega, fun hchecking => ?_⟩
  have howed' : y.2.owed y.1 = 1 := by
    rw [hchecking]
    exact if_neg hended
  omega

theorem OnCourse.owed_pos (h : OnCourse g c post) (running : c.record.isRunning) :
    1 ≤ post.owed c ∧ (post = .checking → 2 ≤ post.owed c) := by
  have hlt := c.record.lt_stepsLeft
  have hknows := h.knows
  cases post with
  | checking =>
    have howed : Post.checking.owed c = c.record.stepsLeft + 1 := if_pos running
    exact ⟨by omega, fun _ => by omega⟩
  | entering | stepping | moving =>
    refine ⟨?_, nofun⟩
    simp only [Post.owed, if_pos running]
    omega
  | waiting | returning | reading | folded => exact ⟨Nat.succ_pos _, nofun⟩
  | leaving | deciding | considering | departing => exact absurd running hknows
  | gone => exact absurd running hknows.1
  | _ => exact hknows.elim

/-! ## The loop does not go on forever -/

/-- How far the loop is from the end of its step. -/
def Post.place : Post → Nat
  | .entering => 8
  | .stepping => 7
  | .moving .. => 6
  | .waiting .. => 5
  | .returning .. | .leaving => 4
  | .reading .. | .deciding => 3
  | .folded .. | .considering => 2
  | .checking | .departing => 1
  | _ => 0

/-- What is still to be sent out and to come in of a stage. -/
def Post.outstanding : Post → Nat
  | .waiting b replies => 2 * b.rest.length + replies.countP Option.isNone
  | _ => 0

theorem Post.place_after (record : Dag) (batch : Option Batch) :
    (Post.after record batch).place < 6 := by
  cases batch with
  | none => exact Nat.one_lt_succ_succ 4
  | some batch => exact Nat.lt_succ_self 5

theorem countP_set_lt {replies : List (Option (EngineResult Outcome))} {i : Nat}
    (due : replies[i]? = some none) (result : EngineResult Outcome) :
    (replies.set i (some result)).countP Option.isNone < replies.countP Option.isNone := by
  obtain ⟨hi, hnone⟩ := List.getElem?_eq_some_iff.mp due
  have hpos : 0 < replies.countP Option.isNone :=
    List.countP_pos_iff.mpr ⟨none, List.mem_of_getElem? due, rfl⟩
  rw [List.countP_set hi, hnone, Option.isNone_none, Option.isNone_some, if_pos rfl,
    if_neg Bool.false_ne_true]
  exact Nat.sub_lt hpos Nat.one_pos

/-- The loop comes closer to the end of its step, or begins the next one. -/
theorem Act.nears (act : Act (.loop g) c post c' post') (live : g ∉ c.cancelled) :
    post'.begun = 1 ∨ post'.place < post.place ∨
      post'.place = post.place ∧ post'.outstanding < post.outstanding := by
  cases act with
  | goOn => exact .inl rfl
  | giveUp cancelled => exact absurd cancelled live
  | write | pass => exact .inr (.inl (Post.place_after _ _))
  | @send _ _ b replies p rest next =>
    have hcount : (replies ++ [none]).countP Option.isNone = replies.countP Option.isNone + 1 :=
      List.countP_append
    refine .inr (.inr ⟨rfl, ?_⟩)
    simp only [Post.outstanding, next, List.length_cons, hcount]
    omega
  | @reply _ _ b replies i result due =>
    exact .inr (.inr ⟨rfl, Nat.add_lt_add_left (countP_set_lt due result) _⟩)
  | _ => exact .inr (.inl (by simp [Post.place]))

/-- A drive loop that is left alone ends, whatever it is answered. -/
theorem OnCourse.acc {c : Common} {post : Post} (h : OnCourse g c post) :
    Acc (fun y x => Works answers g x y) (c, post) := by
  apply Acc.intro
  rintro ⟨c', post'⟩ ⟨act, -⟩
  exact (h.act act).1.acc
termination_by (post.owed c, post.place, post.outstanding)
-- Of two acts in a row the second owes less, or is nearer to the end of its step, or has less of the
-- stage outstanding.
decreasing_by
  have howed : post'.begun + post'.owed c' ≤ post.owed c := (h.act act).2
  have hle : post'.owed c' ≤ post.owed c := by omega
  have hnears : post'.begun = 1 ∨ post'.place < post.place ∨
      post'.place = post.place ∧ post'.outstanding < post.outstanding := act.nears h.live
  rcases hnears with hbegun | hnearer | ⟨hsame, hless⟩
  · exact Prod.Lex.left _ _ (by omega)
  · exact Prod.Lex.right' _ hle (Prod.Lex.left _ _ hnearer)
  · exact Prod.Lex.right' _ hle (Prod.Lex.right' _ (Nat.le_of_eq hsame) hless)

/-! ## The loop never waits for anything but an answer -/

theorem Act.works (act : Act (.loop g) c post c' post') (served : post.Served answers post') :
    ∃ y, Works answers g (c, post) y := ⟨(c', post'), act, served⟩

theorem exists_works_waiting {b : Barrier} {replies : List (Option (EngineResult Outcome))}
    (matched : replies.length = b.sent.length) (total : ∀ a q, ∃ result, answers a q result) :
    ∃ y, Works answers g (c, .waiting b replies) y := by
  cases hrest : b.rest with
  | cons p rest =>
    apply (Act.send hrest).works
    rintro i a q result - hnone hsome
    obtain ⟨hi, -⟩ := List.getElem?_eq_some_iff.mp hnone
    rw [List.getElem?_append_left hi, hnone] at hsome
    cases hsome
  | nil =>
    by_cases hall : ∀ r ∈ replies, r.isSome
    · exact (Act.collect hrest hall).works trivial
    · have hnone : none ∈ replies := by simpa using hall
      obtain ⟨i, hdue⟩ := List.mem_iff_getElem?.mp hnone
      obtain ⟨hi, -⟩ := List.getElem?_eq_some_iff.mp hdue
      have hsent : b.sent[i]? = some b.sent[i] := List.getElem?_eq_getElem (matched ▸ hi)
      obtain ⟨result, hresult⟩ := total b.sent[i].1 b.sent[i].2
      apply (Act.reply result hdue).works
      intro j a q result' hasked hnone hsome
      by_cases hj : i = j
      · subst hj
        rw [hsent] at hasked
        rw [List.getElem?_set_self hi] at hsome
        cases hsome
        rwa [Option.some.inj hasked] at hresult
      · rw [List.getElem?_set_ne hj, hnone] at hsome
        cases hsome

theorem OnCourse.goesOn (h : OnCourse g c post) (total : ∀ a q, ∃ result, answers a q result) :
    post = .gone ∨ ∃ y, Works answers g (c, post) y := by
  have hknows := h.knows
  cases post with
  | checking => exact .inr ((Act.goOn h.live).works trivial)
  | entering => exact .inr (Act.enter.works trivial)
  | stepping =>
    by_cases hrunning : c.record.isRunning
    · obtain ⟨n, hn⟩ := h.driven.staged.currentNode
      obtain ⟨move, hmove⟩ := Dag.exists_step hn ⟨0, 0⟩
      exact .inr ((Act.choose _ hrunning hmove).works trivial)
    · exact .inr ((Act.rest hrunning).works trivial)
  | moving read move =>
    cases hwrite : move.write with
    | none => exact .inr ((Act.pass hwrite).works trivial)
    | some record =>
      have hsame : c.record.version = read.version := congrArg Dag.version hknows.1.symm
      exact .inr ((Act.write ⟨0, 0⟩ hwrite hsame).works trivial)
  | waiting b replies => exact .inr (exists_works_waiting hknows.2.2 total)
  | returning b reports => exact .inr (Act.reenter.works trivial)
  | reading b reports =>
    obtain ⟨hcurrent, -⟩ := hknows
    exact .inr ((Act.fold ⟨0, 0⟩ hcurrent.running hcurrent.stage).works trivial)
  | folded read record =>
    have hsame : c.record.version = read.version := congrArg Dag.version hknows.1.symm
    exact .inr ((Act.settle ⟨0, 0⟩ hsame).works trivial)
  | leaving => exact .inr (Act.leave.works trivial)
  | deciding => exact .inr ((Act.consider h.live).works trivial)
  | considering => exact .inr ((Act.quit hknows).works trivial)
  | departing => exact .inr (Act.depart.works trivial)
  | gone => exact .inl rfl
  | _ => exact hknows.elim

/-! ## The bound -/

theorem Dag.Staged.stepsLeft_le_allowance {d : Dag} (h : d.Staged) : d.stepsLeft ≤ d.allowance := by
  have hle := d.stepsLeft_le
  have hpos := h.pos
  rw [Dag.allowance]
  split
  · next hbackward =>
    rw [Dag.stagesLeft_backward hbackward] at hle
    omega
  · next hforward =>
    rw [Dag.stagesLeft_forward hforward] at hle
    omega

/-- A drive loop that is left alone with a running dag settles it. It comes to an end whatever it is
answered, and until then never waits for anything but an answer. As long as the dag runs, the loop
has begun no more steps than the allowance, and less between two steps; then the dag has succeeded
or failed, the next step is the last one, and the loop is off the register in the end. -/
theorem drive_settles (total : ∀ a q, ∃ result, answers a q result) (live : g ∉ c.cancelled)
    (running : c.record.isRunning) (distinct : c.record.Distinct) (staged : c.record.Staged) :
    Acc (fun y x => Works answers g x y) (c, .checking) ∧
    ∀ n c' post, Drives answers g (c, .checking) n (c', post) →
      (post = .gone ∨ ∃ y, Works answers g (c', post) y) ∧
      (c'.record.isRunning →
        n ≤ c.record.allowance ∧ (post = .checking → n < c.record.allowance)) ∧
      (¬ c'.record.isRunning →
        (c'.record.status = .succeeded ∨ c'.record.status = .failed) ∧
          n ≤ c.record.allowance + 1 ∧
          (post = .checking → n ≤ c.record.allowance ∧ Stops answers g c')) ∧
      (post = .gone → ¬ c'.record.isRunning ∧ c'.entry ≠ some g) := by
  have hstatus : c.record.status ≠ .cancelled := by simp [Dag.isRunning_iff.mp running]
  have hstart : OnCourse g c .checking := ⟨live, ⟨distinct, staged, hstatus⟩, trivial⟩
  have hallowed : Post.checking.owed c ≤ c.record.allowance + 1 := by
    have hsteps := staged.stepsLeft_le_allowance
    have howed : Post.checking.owed c = c.record.stepsLeft + 1 := if_pos running
    omega
  refine ⟨hstart.acc, fun n c' post drives => ?_⟩
  obtain ⟨hcourse, hle⟩ := hstart.drives drives
  have hbound : n + post.owed c' ≤ c.record.allowance + 1 := Nat.le_trans hle hallowed
  refine ⟨hcourse.goesOn total, fun hrunning => ?_, fun hended => ?_, ?_⟩
  · have howed : 1 ≤ post.owed c' ∧ (post = .checking → 2 ≤ post.owed c') :=
      hcourse.owed_pos hrunning
    refine ⟨by omega, fun hpost => ?_⟩
    have htwo := howed.2 hpost
    omega
  · refine ⟨hcourse.driven.ended hended, by omega, ?_⟩
    rintro rfl
    have howed : Post.checking.owed c' = 1 := if_neg hended
    exact ⟨by omega, hcourse.stops hended⟩
  · rintro rfl
    exact hcourse.knows

namespace Sample

/-- The sample dag with its loop registered. -/
def registered : Common := ⟨dag, some 0, 1, [0], [], true, false, []⟩

/-- The first task fails, and the others succeed. -/
def mixed : Answers := fun _ q result =>
  result = answer q.task.id (if q.task.id = ids.task 0 0 then .failed else .succeeded)

end Sample

theorem drive_settles_mixed :
    (∀ a q, ∃ result, Sample.mixed a q result) ∧ 0 ∉ Sample.registered.cancelled ∧
      Sample.registered.record.isRunning ∧ Sample.registered.record.Distinct ∧
      Sample.registered.record.Staged ∧
      Acc (fun y x => Works Sample.mixed 0 x y) (Sample.registered, .checking) ∧
      ∀ n c' post, Drives Sample.mixed 0 (Sample.registered, .checking) n (c', post) → n ≤ 5 := by
  have htotal : ∀ a q, ∃ result, Sample.mixed a q result := fun _ _ => ⟨_, rfl⟩
  have hlive : 0 ∉ Sample.registered.cancelled := List.not_mem_nil
  have hrunning : Sample.registered.record.isRunning := rfl
  have hdistinct : Sample.registered.record.Distinct := by
    rw [Dag.Distinct]
    decide +kernel
  have hstaged : Sample.registered.record.Staged := ⟨by decide, by decide, rfl⟩
  obtain ⟨hacc, hdrives⟩ := drive_settles htotal hlive hrunning hdistinct hstaged
  refine ⟨htotal, hlive, hrunning, hdistinct, hstaged, hacc, fun n c' post drives => ?_⟩
  have hallowance : Sample.registered.record.allowance = 4 := rfl
  obtain ⟨-, hwhile, hafter, -⟩ := hdrives n c' post drives
  by_cases hended : c'.record.isRunning
  · have hle := (hwhile hended).1
    omega
  · have hle := (hafter hended).2.1
    omega

end Stagewise
