import Stagewise.Proofs.Arena.Order
import Stagewise.Proofs.Arena.Records
import Stagewise.Proofs.Dag.Account
/-!
# A dag and its journal

Whoever changes a dag tells the journal afterwards, event by event, and keeps the lock until all is
told. A submission and the requests of a stage are told outside of the lock, at any moment. Whenever
the lock is free, the journal accounts for the record that is stored.
-/

namespace Stagewise

open Relation (ReflTransGen)
open Account

/-- The record that a process has read and decided upon. -/
def Post.basis? : Post → Option Dag
  | .moving read _ | .folded read _ | .prepared _ read _ => some read
  | _ => none

/-- On the way from one post to another, something comes up that is to be told. -/
def Post.raises : Post → Post → Bool
  | .stepping, .moving .. | .reading .., .folded .. | .commanded _, .prepared ..
  | .idle, .found _ | .restoring [], _ | .revoking _, _ => true
  | .waiting b _, .waiting b' _ => b.sent.length != b'.sent.length
  | _, _ => false

theorem Post.inside_of_decided {post : Post} {read : Dag} (decided : post.basis? = some read) :
    post.inside = true := by
  cases post with
  | moving | folded | prepared => rfl
  | _ => cases decided

/-- What a process does next, together with what it plans to tell once it has written, and what it
is due to tell at once. -/
inductive Telling (p : Process) (c : Common) (plan : List EventType) (c' : Common) :
    Post → Post → List EventType → List EventType → Prop where
  | choose {read : Dag} {move : Move} (act : Act p c .stepping c' (.moving read move)) :
      Telling p c plan c' .stepping (.moving read move) move.events []
  | fold {b : Barrier} {reports : List Report} {read : Dag} (now : Timestamp)
      (act : Act p c (.reading b reports) c'
        (.folded read (read.settle reports b.action now).dag)) :
      Telling p c plan c' (.reading b reports)
        (.folded read (read.settle reports b.action now).dag)
        (read.settle reports b.action now).events []
  | prepare {operator : Operator} {read record : Dag}
      (act : Act p c (.commanded operator) c' (.prepared operator read record)) :
      Telling p c plan c' (.commanded operator) (.prepared operator read record)
        [.operatorCommand operator] []
  | find {left : List Task} (act : Act p c .idle c' (.found left)) :
      Telling p c plan c' .idle (.found left) [.dagRecovered c.record.stage] []
  /-- The write is done, or there was nothing to write. -/
  | written {post post' : Post} {read : Dag} (act : Act p c post c' post')
      (decided : post.basis? = some read) (same : c.record.version = read.version) :
      Telling p c plan c' post post' [] plan
  /-- The write is lost, and nothing is told. -/
  | lost {post post' : Post} {read : Dag} (act : Act p c post c' post')
      (decided : post.basis? = some read) (other : c.record.version ≠ read.version) :
      Telling p c plan c' post post' [] []
  | restored {post' : Post} (act : Act p c (.restoring []) c' post') :
      Telling p c plan c' (.restoring []) post' [] plan
  | cancel {post' : Post} {o : Option Nat} (act : Act p c (.revoking o) c' post') :
      Telling p c plan c' (.revoking o) post' plan [.dagCancelled]
  | send {b : Barrier} {replies replies' : List (Option (EngineResult Outcome))} {agent : Agent}
      {request : DispatchRequest} {rest : List (Agent × DispatchRequest)}
      (act : Act p c (.waiting b replies) c'
        (.waiting { b with sent := b.sent ++ [(agent, request)], rest } replies')) :
      Telling p c plan c' (.waiting b replies)
        (.waiting { b with sent := b.sent ++ [(agent, request)], rest } replies') plan
        [.taskDispatched request.task.id agent request.action]
  | quiet {post post' : Post} (act : Act p c post c' post') (undecided : post.basis? = none)
      (quiet : post.raises post' = false) : Telling p c plan c' post post' plan []

/-- A dag, everyone at work on it, and its journal: who has the lock, what everyone plans to tell
and is due to tell, and what has been told so far. -/
structure Chronicle where
  arena : Arena
  lock : Option Process
  plan : Process → List EventType
  due : Process → List EventType
  trail : List EventType

namespace Chronicle

/-- A dag has just been stored, and its submission is due to be told. -/
def submission (d : Dag) : Chronicle where
  arena := .submission d
  lock := none
  plan _ := []
  due := Function.update (fun _ => []) (.caller 0) [.dagSubmitted d.name d.maxStage]
  trail := []

def owing (k : Chronicle) (p : Process) (due : List EventType) : Chronicle :=
  { k with due := Function.update k.due p due }

/-- A process comes to another post, and has the lock if it is inside then. -/
def acted (k : Chronicle) (p : Process) (common : Common) (post : Post)
    (plan due : List EventType) : Chronicle where
  arena := k.arena.moved p common post
  lock := if post.inside then some p else k.lock
  plan := Function.update k.plan p plan
  due := Function.update k.due p due
  trail := k.trail

/-- One thing that can happen while the process of the system goes on. -/
inductive Step : Chronicle → Chronicle → Prop where
  /-- A process acts. It has told what it was due to tell, and has the lock only if it is inside. -/
  | act {k : Chronicle} {p : Process} {common : Common} {post : Post} {plan due : List EventType}
      (present : k.arena.Present p)
      (telling : Telling p k.arena.common (k.plan p) common (k.arena.posts p) post plan due)
      (told : k.due p = []) (out : (k.arena.posts p).inside = false → k.lock ≠ some p)
      (free : (k.arena.posts p).inside = false → post.inside = true → k.lock = none) :
      Step k (k.acted p common post plan due)
  /-- A process tells the next event. -/
  | tell {k : Chronicle} {p : Process} {e : EventType} {rest : List EventType}
      (next : k.due p = e :: rest) :
      Step k { k.owing p rest with trail := k.trail ++ [e] }
  /-- A process that has told everything gives the lock back. -/
  | release {k : Chronicle} {p : Process} (holds : k.lock = some p)
      (outside : (k.arena.posts p).inside = false) (told : k.due p = []) :
      Step k { k with lock := none }
  /-- A loop that is told to stop forgets about the requests that it was about to send. -/
  | forget {k : Chronicle} {p : Process} (out : k.lock ≠ some p) : Step k (k.owing p [])
  | elsewhere {k : Chronicle} :
      Step k { k with arena.common.next := k.arena.common.next + 1 }
  | shutdown {k : Chronicle} : Step k { k with arena.common := k.arena.common.shutdown }

end Chronicle

/-! ## What is told -/

variable {p q : Process} {c c' : Common} {post post' : Post} {plan plan' due : List EventType}

/-- What is planned accounts for what is going to be written. -/
def Post.Plans (plan : List EventType) : Post → Prop
  | .moving read move => read.account.enterAll plan = some (move.write.getD read).account
  | .folded read record => read.account.enterAll plan = some record.account
  | .prepared _ read record => read.account.enterAll plan = some record.account
  | .found _ | .restoring _ => ∀ e ∈ plan, Silent e
  | _ => True

theorem Post.plans_after (record : Dag) (batch : Option Batch) (plan : List EventType) :
    (Post.after record batch).Plans plan := by
  cases batch with
  | none => trivial
  | some batch => trivial

namespace Act

theorem account_eq (act : Act p c post c' post') (undecided : post.basis? = none) :
    c'.record.account = c.record.account := by
  cases act with
  | write | settle | commit => cases undecided
  | start | serve =>
    simp only [Common.spawn]
    split <;> rfl
  | _ => rfl

theorem account_of_decided (act : Act p c post c' post') {read : Dag}
    (decided : post.basis? = some read) (fits : post.Fits c p) (planned : post.Plans plan) :
    c.record.version = read.version ∧ c.record.account.enterAll plan = some c'.record.account := by
  cases act with
  | write later write same =>
    obtain ⟨rfl, -⟩ := fits
    cases decided
    rw [Post.Plans, write] at planned
    exact ⟨rfl, planned⟩
  | pass nothing =>
    obtain ⟨rfl, -⟩ := fits
    cases decided
    rw [Post.Plans, nothing] at planned
    exact ⟨rfl, planned⟩
  | settle later same | commit later same =>
    obtain ⟨rfl, -⟩ := fits
    cases decided
    exact ⟨rfl, planned⟩
  | miss _ other | missFold other | missCommand other =>
    obtain ⟨rfl, -⟩ := fits
    exact absurd rfl other
  | _ => cases decided

theorem plans_of_decided (act : Act p c post c' post') {read : Dag}
    (decided : post.basis? = some read) : post'.Plans plan := by
  cases act with
  | write | pass => exact Post.plans_after ..
  | miss | settle | missFold | commit | missCommand => trivial
  | _ => cases decided

end Act

namespace Telling

theorem act (h : Telling p c plan c' post post' plan' due) : Act p c post c' post' := by
  cases h <;> assumption

theorem exists_of_act (act : Act p c post c' post') (plan : List EventType) :
    ∃ plan' due, Telling p c plan c' post post' plan' due := by
  have hdecided {read : Dag} (decided : post.basis? = some read) :
      ∃ plan' due, Telling p c plan c' post post' plan' due := by
    by_cases hsame : c.record.version = read.version
    · exact ⟨_, _, .written act decided hsame⟩
    · exact ⟨_, _, .lost act decided hsame⟩
  cases hact : act with
  | choose => exact ⟨_, _, .choose act⟩
  | fold now => exact ⟨_, _, .fold now act⟩
  | prepare => exact ⟨_, _, .prepare act⟩
  | find => exact ⟨_, _, .find act⟩
  | write | pass | miss | settle | missFold | commit | missCommand => exact hdecided rfl
  | restored => exact ⟨_, _, .restored act⟩
  | cancel | release => exact ⟨_, _, .cancel act⟩
  | send => exact ⟨_, _, .send act⟩
  | reply => exact ⟨_, _, .quiet act rfl (by simp [Post.raises])⟩
  | _ => exact ⟨_, _, .quiet act rfl rfl⟩

/-- What is due accounts for what has been written. -/
theorem account (h : Telling p c plan c' post post' plan' due) (fits : post.Fits c p)
    (planned : post.Plans plan) : c.record.account.enterAll due = some c'.record.account := by
  cases h with
  | choose act | prepare act | find act | fold now act => rw [enterAll_nil, act.account_eq rfl]
  | restored act => rw [act.account_eq rfl, enterAll_of_silent planned]
  | cancel act => rw [act.account_eq rfl]; rfl
  | send act => rw [act.account_eq rfl]; rfl
  | written act decided same => exact (act.account_of_decided decided fits planned).2
  | lost act decided other =>
    exact absurd (act.account_of_decided decided fits planned).1 other
  | quiet act undecided quiet => rw [enterAll_nil, act.account_eq undecided]

theorem planned (h : Telling p c plan c' post post' plan' due) (shaped : c.record.Shaped)
    (planned : post.Plans plan) : post'.Plans plan' := by
  cases h with
  | choose act =>
    cases act with
    | choose now running step => exact shaped.account_step step
  | fold now act => exact Dag.account_settle ..
  | prepare act =>
    cases act with
    | prepare now accepted => exact (Dag.command_cases accepted).account
  | find act =>
    refine fun e he => ?_
    rw [List.mem_singleton.mp he]
    exact fun _ => rfl
  | written act decided same => exact act.plans_of_decided decided
  | lost act decided other => exact act.plans_of_decided decided
  | restored act =>
    cases act
    trivial
  | cancel act => cases act <;> trivial
  | send act => trivial
  | quiet act undecided quiet =>
    cases act with
    | restore | recover => exact planned
    | write | pass => cases undecided
    | choose | fold | prepare | find => cases quiet
    | _ => trivial

/-- What is told outside of the lock accounts for nothing. -/
theorem silent (h : Telling p c plan c' post post' plan' due) (before : post.inside = false) :
    ∀ e ∈ due, Silent e := by
  cases h with
  | written act decided same => simp [Post.inside_of_decided decided] at before
  | restored | cancel => cases before
  | send act =>
    intro e he
    rw [List.mem_singleton.mp he]
    exact fun _ => rfl
  | _ => nofun

end Telling

namespace Chronicle

variable {k k' : Chronicle} {common : Common}

@[simp] theorem owing_due_self : (k.owing p due).due p = due := Function.update_self ..

theorem owing_due_of_ne (h : q ≠ p) : (k.owing p due).due q = k.due q := Function.update_of_ne h ..

@[simp] theorem acted_plan_self : (k.acted p common post plan due).plan p = plan :=
  Function.update_self ..

theorem acted_plan_of_ne (h : q ≠ p) : (k.acted p common post plan due).plan q = k.plan q :=
  Function.update_of_ne h ..

@[simp] theorem acted_due_self : (k.acted p common post plan due).due p = due :=
  Function.update_self ..

theorem acted_due_of_ne (h : q ≠ p) : (k.acted p common post plan due).due q = k.due q :=
  Function.update_of_ne h ..

theorem acted_lock_of_inside (h : post.inside = true) :
    (k.acted p common post plan due).lock = some p := if_pos h

theorem acted_lock_of_outside (h : post.inside = false) :
    (k.acted p common post plan due).lock = k.lock := if_neg (by simp [h])

/-- The journal accounts for the record as far as the one who has the lock has told it, and nobody
else is due to tell anything that counts. -/
structure Faithful (k : Chronicle) : Prop where
  orderly : k.arena.Orderly
  locked : ∀ p, k.arena.lock = some p → k.lock = some p
  planned : ∀ p, (k.arena.posts p).Plans (k.plan p)
  silent : ∀ p, k.lock ≠ some p → ∀ e ∈ k.due p, Silent e
  account : ∃ a, opening.enterAll k.trail = some a ∧
    (k.lock = none → a = k.arena.common.record.account) ∧
      ∀ p, k.lock = some p → a.enterAll (k.due p) = some k.arena.common.record.account

theorem faithful_submission {d : Dag} (shaped : d.Shaped) (account : d.account = opening) :
    (submission d).Faithful := by
  refine ⟨.of_outside (Arena.submission_inside d) rfl shaped, nofun, fun p => ?planned,
    fun p _ => ?silent, opening, rfl, fun _ => account.symm, nofun⟩
  case planned =>
    by_cases hp : p = .caller 0
    · subst hp
      trivial
    · have hother : (Arena.submission d).posts p = Arena.unmoved p := Function.update_of_ne hp ..
      change ((Arena.submission d).posts p).Plans []
      rw [hother]
      cases p <;> trivial
  case silent =>
    by_cases hp : p = .caller 0
    · subst hp
      intro e he
      obtain rfl : e = .dagSubmitted d.name d.maxStage := List.mem_singleton.mp he
      exact fun _ => rfl
    · have hnone : (submission d).due p = [] := by simp [submission, hp]
      rw [hnone]
      nofun

/-- The trail, as far as it has been told, accounts for the record, once whoever has the lock has
told everything. -/
theorem Faithful.told (h : k.Faithful) (told : k.due p = [])
    (mine : k.lock = none ∨ k.lock = some p) :
    opening.enterAll k.trail = some k.arena.common.record.account := by
  obtain ⟨a, htrail, hfree, hheld⟩ := h.account
  rw [htrail]
  rcases mine with hnone | hmine
  · rw [hfree hnone]
  · have hentered := hheld p hmine
    rwa [told] at hentered

theorem Faithful.holds (h : k.Faithful) (inside : (k.arena.posts p).inside = true) :
    k.lock = some p := h.locked p ((h.orderly.exclusive p).mp inside)

/-- Whoever has the lock after the act is the one that acted, or that one is outside and has written
nothing. -/
theorem Faithful.account_act (h : k.Faithful)
    (telling : Telling p k.arena.common (k.plan p) common (k.arena.posts p) post plan due)
    (told : k.due p = [])
    (free : (k.arena.posts p).inside = false → post.inside = true → k.lock = none)
    (acted : k' = k.acted p common post plan due) :
    ∃ a, opening.enterAll k'.trail = some a ∧
      (k'.lock = none → a = k'.arena.common.record.account) ∧
        ∀ q, k'.lock = some q → a.enterAll (k'.due q) = some k'.arena.common.record.account := by
  subst acted
  have haccount := telling.account (h.orderly.fits p) (h.planned p)
  by_cases hmine : (k.acted p common post plan due).lock = some p
  · have hbefore : k.lock = none ∨ k.lock = some p := by
      cases hinside : (k.arena.posts p).inside with
      | true => exact .inr (h.holds hinside)
      | false =>
        cases hafter : post.inside with
        | true => exact .inl (free hinside hafter)
        | false => exact .inr ((acted_lock_of_outside hafter).symm.trans hmine)
    refine ⟨_, h.told told hbefore, fun hnone => ?_, fun q hq => ?_⟩
    · rw [hmine] at hnone
      cases hnone
    · obtain rfl : p = q := Option.some.inj (hmine.symm.trans hq)
      rw [acted_due_self]
      exact haccount
  · have hafter : post.inside = false :=
      Bool.eq_false_iff.mpr fun hinside => hmine (acted_lock_of_inside hinside)
    have hbefore : (k.arena.posts p).inside = false := Bool.eq_false_iff.mpr fun hinside =>
      hmine ((acted_lock_of_outside hafter).trans (h.holds hinside))
    have hsame : common.record = k.arena.common.record := by
      rcases telling.act.common_of_outside hbefore with hsame | ⟨hsame, -⟩
      · rw [hsame]
      · rw [hsame]
    obtain ⟨a, htrail, hnone, hheld⟩ := h.account
    rw [acted_lock_of_outside hafter] at hmine ⊢
    refine ⟨a, htrail, fun hlock => ?_, fun q hq => ?_⟩
    · rw [hnone hlock, Chronicle.acted, Arena.moved_common, hsame]
    · have hqp : q ≠ p := by
        rintro rfl
        exact hmine hq
      rw [acted_due_of_ne hqp, hheld q hq, Chronicle.acted, Arena.moved_common, hsame]

theorem Faithful.act (h : k.Faithful) (present : k.arena.Present p)
    (telling : Telling p k.arena.common (k.plan p) common (k.arena.posts p) post plan due)
    (told : k.due p = [])
    (free : (k.arena.posts p).inside = false → post.inside = true → k.lock = none) :
    (k.acted p common post plan due).Faithful := by
  have hfree : (k.arena.posts p).inside = false → post.inside = true → k.arena.lock = none := by
    intro hbefore hafter
    refine Option.eq_none_iff_forall_ne_some.mpr fun q hq => ?_
    have hlock := h.locked q hq
    rw [free hbefore hafter] at hlock
    cases hlock
  refine ⟨h.orderly.goes (.act present telling.act hfree), fun q hq => ?locked, fun q => ?planned,
    fun q hq => ?silent, h.account_act telling told free rfl⟩
  case locked =>
    cases hafter : post.inside with
    | true =>
      rw [acted_lock_of_inside hafter]
      simpa [acted, Arena.moved, hafter] using hq
    | false =>
      rw [acted_lock_of_outside hafter]
      cases hbefore : (k.arena.posts p).inside with
      | true => simp [acted, Arena.moved, hafter, hbefore] at hq
      | false => exact h.locked q (by simpa [acted, Arena.moved, hafter, hbefore] using hq)
  case planned =>
    by_cases hqp : q = p
    · subst hqp
      rw [acted_plan_self, acted, Arena.moved_posts_self]
      exact telling.planned h.orderly.shaped (h.planned q)
    · rw [acted_plan_of_ne hqp, acted, Arena.moved_posts_of_ne hqp]
      exact h.planned q
  case silent =>
    by_cases hqp : q = p
    · subst hqp
      rw [acted_due_self]
      refine telling.silent (Bool.eq_false_iff.mpr fun hbefore => hq ?_)
      rw [acted, h.holds hbefore, ite_self]
    · rw [acted_due_of_ne hqp]
      refine h.silent q fun hlock => ?_
      cases hafter : post.inside with
      | false => exact hq ((acted_lock_of_outside hafter).trans hlock)
      | true =>
        cases hbefore : (k.arena.posts p).inside with
        | false => simp [free hbefore hafter] at hlock
        | true => exact hqp (Option.some.inj (hlock.symm.trans (h.holds hbefore)))

theorem Faithful.tell (h : k.Faithful) {e : EventType} {rest : List EventType}
    (next : k.due p = e :: rest) :
    Faithful { k.owing p rest with trail := k.trail ++ [e] } := by
  obtain ⟨a, htrail, hfree, hheld⟩ := h.account
  refine ⟨h.orderly, h.locked, h.planned, fun q hq => ?silent, ?account⟩
  case silent =>
    have hbefore := h.silent q hq
    by_cases hqp : q = p
    · subst hqp
      rw [next] at hbefore
      dsimp only
      rw [owing_due_self]
      exact fun e' he' => hbefore e' (List.mem_cons_of_mem _ he')
    · dsimp only
      rwa [owing_due_of_ne hqp]
  case account =>
    have hfurther := enterAll_append htrail [e]
    rw [enterAll_cons] at hfurther
    by_cases hmine : k.lock = some p
    · have hentered := hheld p hmine
      rw [next, enterAll_cons] at hentered
      obtain ⟨a', ha', hrest⟩ := Option.bind_eq_some_iff.mp hentered
      rw [ha'] at hfurther
      refine ⟨a', hfurther, fun hnone => ?_, fun q hq => ?_⟩
      · exact absurd (hmine.symm.trans hnone) nofun
      · obtain rfl : p = q := Option.some.inj (hmine.symm.trans hq)
        dsimp only
        rw [owing_due_self]
        exact hrest
    · have hsilent := h.silent p hmine e (by rw [next]; exact List.mem_cons_self)
      rw [hsilent a] at hfurther
      refine ⟨a, hfurther, hfree, fun q hq => ?_⟩
      have hqp : q ≠ p := by
        rintro rfl
        exact hmine hq
      dsimp only
      rw [owing_due_of_ne hqp]
      exact hheld q hq

theorem Faithful.release (h : k.Faithful) (holds : k.lock = some p)
    (outside : (k.arena.posts p).inside = false) (told : k.due p = []) :
    Faithful { k with lock := none } := by
  refine ⟨h.orderly, fun q hq => ?_, h.planned, fun q _ => ?_,
    ⟨_, h.told told (.inr holds), fun _ => rfl, nofun⟩⟩
  · obtain rfl : p = q := Option.some.inj (holds.symm.trans (h.locked q hq))
    rw [(h.orderly.exclusive p).mpr hq] at outside
    cases outside
  · by_cases hqp : q = p
    · rw [hqp, told]
      nofun
    · exact h.silent q fun hq => hqp (Option.some.inj (hq.symm.trans holds))

theorem Faithful.forget (h : k.Faithful) (out : k.lock ≠ some p) : (k.owing p []).Faithful := by
  obtain ⟨a, htrail, hfree, hheld⟩ := h.account
  refine ⟨h.orderly, h.locked, h.planned, fun q hq => ?_, a, htrail, hfree, fun q hq => ?_⟩
  · by_cases hqp : q = p
    · rw [hqp, owing_due_self]
      nofun
    · rw [owing_due_of_ne hqp]
      exact h.silent q hq
  · have hqp : q ≠ p := by
      rintro rfl
      exact out hq
    rw [owing_due_of_ne hqp]
    exact hheld q hq

theorem Faithful.step (h : k.Faithful) (step : Step k k') : k'.Faithful := by
  cases step with
  | act present telling told _ free => exact h.act present telling told free
  | tell next => exact h.tell next
  | release holds outside told => exact h.release holds outside told
  | forget out => exact h.forget out
  | elsewhere => exact ⟨h.orderly.goes .elsewhere, h.locked, h.planned, h.silent, h.account⟩
  | shutdown => exact ⟨h.orderly.goes .shutdown, h.locked, h.planned, h.silent, h.account⟩

theorem faithful_of_run {registry : Registry} {ids : FreshIds} {spec : DagSpec} {now : Timestamp}
    {d : Dag} (fresh : ids.DistinctFor spec) (built : spec.build registry ids now = .ok d)
    (run : ReflTransGen Step (submission d) k) : k.Faithful := by
  induction run with
  | refl =>
    have hshaped := (DagSpec.build_sound fresh built).shaped
    exact faithful_submission hshaped (Dag.account_of_build built)
  | tail _ step ih => exact ih.step step

/-- The journal is a faithful account: whenever the lock of a dag is free, the events that have been
told so far, one after another from the submission on, contradict nothing and tell just the stage,
the status and the operator that are stored. -/
theorem account_of_run {registry : Registry} {ids : FreshIds} {spec : DagSpec} {now : Timestamp}
    {d : Dag} (fresh : ids.DistinctFor spec) (built : spec.build registry ids now = .ok d)
    (run : ReflTransGen Step (submission d) k) (free : k.lock = none) :
    opening.enterAll k.trail = some k.arena.common.record.account := by
  obtain ⟨a, htrail, haccount, -⟩ := (faithful_of_run fresh built run).account
  rw [htrail, haccount free]

/-! ## Everything that happens can be told -/

/-- Nobody is due to tell anything, and the lock is given back if it can be. -/
structure Settled (k : Chronicle) : Prop where
  told : ∀ p, k.due p = []
  lock : k.lock = k.arena.lock

theorem exists_told (k : Chronicle) (p : Process) :
    ∃ k', ReflTransGen Step k k' ∧ k'.arena = k.arena ∧ k'.lock = k.lock ∧
      k'.due = Function.update k.due p [] := by
  generalize hdue : k.due p = due
  induction due generalizing k with
  | nil => exact ⟨k, .refl, rfl, rfl, by rw [← hdue, Function.update_eq_self]⟩
  | cons e rest ih =>
    obtain ⟨k', hrun, harena, hlock, hrest⟩ :=
      ih { k.owing p rest with trail := k.trail ++ [e] } owing_due_self
    refine ⟨k', .head (.tell hdue) hrun, harena, hlock, ?_⟩
    rw [hrest, owing, Function.update_idem]

/-- Whatever happens in the arena can happen while the journal is kept. -/
theorem Settled.exists_of_goes (h : k.Settled) (orderly : k.arena.Orderly) {s : Arena}
    (goes : Arena.Goes k.arena s) : ∃ k', ReflTransGen Step k k' ∧ k'.arena = s ∧ k'.Settled := by
  cases goes with
  | @act p common post present act free =>
    obtain ⟨plan, due, telling⟩ := Telling.exists_of_act act (k.plan p)
    have hout : (k.arena.posts p).inside = false → k.lock ≠ some p := by
      intro hbefore hlock
      rw [(orderly.exclusive p).mpr (h.lock ▸ hlock)] at hbefore
      cases hbefore
    have hact : Step k (k.acted p common post plan due) :=
      .act present telling (h.told p) hout fun hbefore hafter => h.lock.trans (free hbefore hafter)
    obtain ⟨k', hrun, harena, hlock, hdue⟩ := exists_told (k.acted p common post plan due) p
    have htold (q : Process) : k'.due q = [] := by
      rw [hdue]
      by_cases hqp : q = p
      · rw [hqp, Function.update_self]
      · rw [Function.update_of_ne hqp, acted_due_of_ne hqp, h.told q]
    by_cases hleaves : (k.arena.posts p).inside = true ∧ post.inside = false
    · obtain ⟨hbefore, hafter⟩ := hleaves
      have hmine : k'.lock = some p := by
        rw [hlock, acted_lock_of_outside hafter, h.lock]
        exact (orderly.exclusive p).mp hbefore
      have houtside : (k'.arena.posts p).inside = false := by
        rw [harena, acted, Arena.moved_posts_self]
        exact hafter
      refine ⟨{ k' with lock := none }, .head hact (.tail hrun ?_), harena, htold, ?_⟩
      · exact .release hmine houtside (htold p)
      · rw [harena]
        simp [acted, Arena.moved, hbefore, hafter]
    · refine ⟨k', .head hact hrun, harena, htold, ?_⟩
      rw [hlock, harena, acted, Arena.moved, h.lock]
      cases hafter : post.inside with
      | true => rfl
      | false =>
        have hbefore : (k.arena.posts p).inside = false :=
          Bool.eq_false_iff.mpr fun hinside => hleaves ⟨hinside, hafter⟩
        simp [hbefore]
  | elsewhere => exact ⟨_, .single .elsewhere, rfl, h.told, h.lock⟩
  | shutdown => exact ⟨_, .single .shutdown, rfl, h.told, h.lock⟩

/-- Every run of the arena is the run of a chronicle in which, in the end, all is told. -/
theorem exists_of_run {registry : Registry} {ids : FreshIds} {spec : DagSpec} {now : Timestamp}
    {d : Dag} (fresh : ids.DistinctFor spec) (built : spec.build registry ids now = .ok d)
    {s : Arena} (run : ReflTransGen Arena.Goes (Arena.submission d) s) :
    ∃ k, ReflTransGen Step (submission d) k ∧ k.arena = s ∧ k.Settled := by
  induction run with
  | refl =>
    obtain ⟨k, hrun, harena, hlock, hdue⟩ := exists_told (submission d) (.caller 0)
    refine ⟨k, hrun, harena, fun p => ?_, ?_⟩
    · rw [hdue, submission, Function.update_idem]
      exact congrFun (Function.update_eq_self ..) p
    · rw [hlock, harena]
      rfl
  | tail _ goes ih =>
    obtain ⟨k, hrun, rfl, hsettled⟩ := ih
    have horderly := (faithful_of_run fresh built hrun).orderly
    obtain ⟨k', hfurther, harena, hsettled'⟩ := hsettled.exists_of_goes horderly goes
    exact ⟨k', hrun.trans hfurther, harena, hsettled'⟩

end Chronicle

namespace Sample

def called : List Arena.Turn := advanced ++ [go (.caller 1), go (.caller 1)]

end Sample

namespace Chronicle

theorem account_of_run_called :
    ∃ k, ReflTransGen Step (submission Sample.dag) k ∧ k.arena = Sample.arena Sample.called ∧
      k.lock = none ∧ opening.enterAll k.trail = some ⟨2, .cancelled, .cancel⟩ := by
  have built : Sample.spec.build Sample.registry Sample.ids Sample.dawn = .ok Sample.dag := rfl
  have hplay : (Arena.submission Sample.dag).play? Sample.called
    = some (Sample.arena Sample.called) := rfl
  have hgoes := Arena.goes_of_play hplay (by simp [Sample.called, Sample.advanced, Sample.launched,
    Sample.go])
  obtain ⟨k, hrun, harena, hsettled⟩ := exists_of_run Sample.fresh built hgoes
  have hfree : k.lock = none := by
    rw [hsettled.lock, harena]
    rfl
  refine ⟨k, hrun, harena, hfree, ?_⟩
  rw [account_of_run Sample.fresh built hrun hfree, harena]
  rfl

end Chronicle

end Stagewise
