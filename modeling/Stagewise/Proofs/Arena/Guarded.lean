import Stagewise.Proofs.Arena.Exclusion
import Stagewise.Proofs.Arena.Records
/-!
# A dag under a lock that comes and goes

The processes at work on a dag, each of which gets at the mutex of the dag by itself: it asks for a
reference to it, waits for it, gives it back, drops the reference, and may forget the mutex
afterwards, each in a step of its own, among everyone who does the same for other dags. The store
may fail, and a caller may be gone at any moment. Still no two of them are inside the lock of the
dag at once, so whoever writes a record has read the one that it replaces, and no write is ever
refused for its version.
-/

namespace Stagewise

/-- The process waits for the lock of the dag. -/
def Post.asks : Post → Bool
  | .entering | .leaving | .commanding _ | .submitted | .found _ => true
  | _ => false

/-- The process has nothing more to do with the dag. -/
def Post.rests : Post → Bool
  | .gone | .idle => true
  | _ => false

/-- What a process at this post has of the lock. A loop keeps its reference while a stage is out. -/
def Post.grip (post : Post) : Grip :=
  if post.inside then .mutex
  else match post with
    | .waiting .. | .returning .. => .reference
    | _ => .nothing

/-- A process at this post is about to write a record that it has made of that one. -/
inductive Process.Commits : Process → Post → Dag → Prop where
  | move {n : Nat} {read record : Dag} {move : Move} (write : move.write = some record) :
      Commits (.loop n) (.moving read move) read
  | fold {n : Nat} {read record : Dag} : Commits (.loop n) (.folded read record) read
  | command {n : Nat} {operator : Operator} {read record : Dag} :
      Commits (.caller n) (.prepared operator read record) read

/-- A dag, everyone at work on it, and the locks of all dags. -/
structure Guarded where
  dag : DagId
  common : Common
  posts : Process → Post
  locks : Locks DagId Process

namespace Guarded

variable {g g' : Guarded} {p q : Process}

/-- The dag and everyone at work on it, with the lock in the hands of the one who holds its
mutex. -/
def arena (g : Guarded) : Arena where
  common := g.common
  lock := (g.locks.entries g.dag).bind fun a => (g.locks.mutexes a).holder.map (·.2)
  posts := g.posts

/-- A process comes to another post and does something about the lock. -/
def moved (g : Guarded) (p : Process) (common : Common) (post : Post)
    (locks : Locks DagId Process) : Guarded :=
  ⟨g.dag, common, Function.update g.posts p post, locks⟩

/-- One thing that can happen while the store does its work and nobody is gone. -/
inductive Works (g : Guarded) : Guarded → Prop where
  /-- A process acts. -/
  | act {p : Process} {common : Common} {post : Post} {locks : Locks DagId Process}
      (present : g.arena.Present p) (act : Act p g.common (g.posts p) common post)
      (grips : g.locks.Grips (g.dag, p) (g.posts p).grip post.grip locks) :
      Works g (g.moved p common post locks)
  /-- A process comes closer to the lock, or further away from it. -/
  | handle {p : Process} {locks : Locks DagId Process}
      (handles : g.locks.Handles (g.dag, p) locks)
      (asks : locks.stands (g.dag, p) = .asking → (g.posts p).asks = true)
      (prunes : locks.stands (g.dag, p) = .pruning → (g.posts p).rests = true) :
      Works g { g with locks }
  /-- Someone does something about the lock of another dag. -/
  | aside {x : DagId × Process} {locks : Locks DagId Process} (other : x.1 ≠ g.dag)
      (step : Locks.Step x g.locks locks) : Works g { g with locks }
  | elsewhere : Works g { g with common.next := g.common.next + 1 }
  | shutdown : Works g { g with common := g.common.shutdown }
  /-- The process of the system stops, and begins again with what is stored. -/
  | halt : Works g ⟨g.dag, g.common.halt, Arena.unmoved, .empty⟩

/-- One of those at work is failed by the store, or is gone. -/
inductive Fails (g : Guarded) : Guarded → Prop where
  /-- The store fails a loop, which leaves the lock in order to stop. -/
  | fail {n : Nat} {locks : Locks DagId Process} (inside : (g.posts (.loop n)).inside = true)
      (grips : g.locks.Grips (g.dag, .loop n) .mutex .nothing locks) :
      Fails g (g.moved (.loop n) g.common .leaving locks)
  /-- A loop that stops because the store has failed takes itself off the register. -/
  | forsake {n : Nat} {locks : Locks DagId Process} (deciding : g.posts (.loop n) = .deciding)
      (grips : g.locks.Grips (g.dag, .loop n) .mutex .nothing locks) :
      Fails g (g.moved (.loop n) (g.common.deregister n) .gone locks)
  /-- The store fails a caller, or a caller is gone. -/
  | abandon {n : Nat} {grip : Grip} {locks : Locks DagId Process}
      (grips : g.locks.Grips (g.dag, .caller n) grip .nothing locks) :
      Fails g (g.moved (.caller n) g.common .idle locks)

/-- One thing that can happen. -/
inductive Step (g g' : Guarded) : Prop where
  | works (works : g.Works g')
  | fails (fails : g.Fails g')

/-- What can come of the submission of a dag, whatever the locks of other dags are like then. -/
inductive Reached : Guarded → Prop where
  | submission {registry : Registry} {ids : FreshIds} {spec : DagSpec} {now : Timestamp} {d : Dag}
      (fresh : ids.DistinctFor spec) (built : spec.build registry ids now = .ok d)
      {locks : Locks DagId Process} (reached : locks.Reached)
      (away : ∀ p, locks.stands (d.id, p) = .away) :
      Reached ⟨d.id, (Arena.submission d).common, (Arena.submission d).posts, locks⟩
  | next {g g' : Guarded} (reached : Reached g) (step : g.Step g') : Reached g'

end Guarded

theorem Post.grip_eq_mutex_iff {post : Post} : post.grip = .mutex ↔ post.inside = true := by
  cases post <;> simp [grip, inside]

namespace Guarded

variable {g g' : Guarded} {p q : Process} {common : Common} {post : Post}
  {locks : Locks DagId Process}

@[simp] theorem moved_posts_self : (g.moved p common post locks).posts p = post :=
  Function.update_self ..

theorem moved_posts_of_ne (h : q ≠ p) : (g.moved p common post locks).posts q = g.posts q :=
  Function.update_of_ne h ..

/-- What holds at every moment. -/
structure Grounded (g : Guarded) : Prop where
  locks : g.locks.Sound
  inside : ∀ p, (g.posts p).grip = .mutex ↔ ∃ a, g.locks.stands (g.dag, p) = .inside a
  keeping : ∀ p, (g.posts p).grip = .reference → ∃ a, g.locks.stands (g.dag, p) = .keeping a
  fits : ∀ p, (g.posts p).Fits g.common p
  shaped : g.common.record.Shaped

theorem Grounded.inside_iff (h : g.Grounded) (p : Process) :
    (g.posts p).inside = true ↔ ∃ a, g.locks.stands (g.dag, p) = .inside a :=
  Post.grip_eq_mutex_iff.symm.trans (h.inside p)

theorem Grounded.orderly (h : g.Grounded) : g.arena.Orderly where
  exclusive := by
    intro p
    refine (h.inside_iff p).trans ?_
    simp only [arena, Option.bind_eq_some_iff, Option.map_eq_some_iff]
    constructor
    · rintro ⟨a, ha⟩
      have hentry := h.locks.entry_of_inside ha
      exact ⟨a, hentry, (g.dag, p), (h.locks.held _ a _ hentry).mpr ha, rfl⟩
    · rintro ⟨a, hentry, x, hholder, rfl⟩
      have hx := (h.locks.held _ a x hentry).mp hholder
      have hdag := h.locks.apart _ _ a (h.locks.entry_of_inside hx) hentry
      exact ⟨a, hdag ▸ hx⟩
  fits := h.fits
  shaped := h.shaped

/-- Nobody is inside when one comes to hold the mutex. -/
theorem Grounded.lock_free (h : g.Grounded) {before : Grip}
    (grips : g.locks.Grips (g.dag, p) before .mutex locks) (without : before ≠ .mutex) :
    g.arena.lock = none := by
  obtain ⟨a, hentry, hfree⟩ := grips.free without h.locks
  simp only [arena, hentry, Option.bind_some]
  rw [hfree]
  rfl

theorem Grounded.moved (h : g.Grounded) {before : Grip}
    (grips : g.locks.Grips (g.dag, p) before post.grip locks)
    (inside : post.grip = .mutex ↔ ∃ a, locks.stands (g.dag, p) = .inside a)
    (keeping : post.grip = .reference → ∃ a, locks.stands (g.dag, p) = .keeping a)
    (fits : ∀ q, ((g.moved p common post locks).posts q).Fits common q)
    (shaped : common.record.Shaped) : (g.moved p common post locks).Grounded where
  locks := h.locks.grips grips
  inside := by
    intro q
    by_cases hq : q = p
    · subst hq
      rw [moved_posts_self]
      exact inside
    · rw [moved_posts_of_ne hq]
      have hstands : locks.stands (g.dag, q) = g.locks.stands (g.dag, q) :=
        grips.stands_of_ne fun he => hq (Prod.mk.inj he).2
      refine (h.inside q).trans ?_
      exact iff_of_eq (congrArg (fun s => ∃ a, s = Stand.inside a) hstands.symm)
  keeping := by
    intro q hgrip
    by_cases hq : q = p
    · subst hq
      rw [moved_posts_self] at hgrip
      exact keeping hgrip
    · rw [moved_posts_of_ne hq] at hgrip
      have hstands : locks.stands (g.dag, q) = g.locks.stands (g.dag, q) :=
        grips.stands_of_ne fun he => hq (Prod.mk.inj he).2
      obtain ⟨a, ha⟩ := h.keeping q hgrip
      exact ⟨a, hstands.trans ha⟩
  fits := fits
  shaped := shaped

/-- A process loses whatever it had in hand. -/
theorem Grounded.dismissed (h : g.Grounded) {before : Grip}
    (grips : g.locks.Grips (g.dag, p) before .nothing locks) (nothing : post.grip = .nothing)
    (fits : ∀ q, q ≠ p → (g.posts q).Fits common q) (shaped : common.record.Shaped) :
    (g.moved p common post locks).Grounded := by
  have houtside : post.inside = false := by
    cases hinside : post.inside with
    | false => rfl
    | true => cases nothing.symm.trans (Post.grip_eq_mutex_iff.mpr hinside)
  refine h.moved (nothing ▸ grips) ?_ ?_ (fun q => ?_) shaped
  · rw [nothing]
    exact iff_of_false nofun fun ⟨a, ha⟩ => grips.gone ha
  · rw [nothing]
    exact nofun
  · by_cases hq : q = p
    · subst hq
      rw [moved_posts_self]
      exact Post.fits_of_outside houtside _ _
    · rw [moved_posts_of_ne hq]
      exact fits q hq

/-- What a process does under the locks, it does in the arena. -/
theorem Grounded.goes (h : g.Grounded) (present : g.arena.Present p)
    (act : Act p g.common (g.posts p) common post)
    (grips : g.locks.Grips (g.dag, p) (g.posts p).grip post.grip locks) :
    Arena.Goes g.arena (g.arena.moved p common post) := by
  refine .act present act fun hout hin => ?_
  rw [Post.grip_eq_mutex_iff.mpr hin] at grips
  refine h.lock_free grips fun hgrip => ?_
  cases hout.symm.trans (Post.grip_eq_mutex_iff.mp hgrip)

theorem Grounded.act (h : g.Grounded) (present : g.arena.Present p)
    (act : Act p g.common (g.posts p) common post)
    (grips : g.locks.Grips (g.dag, p) (g.posts p).grip post.grip locks) :
    (g.moved p common post locks).Grounded := by
  have hnext := h.orderly.goes (h.goes present act grips)
  exact h.moved grips (grips.inside_iff (h.inside p)) (grips.keeping (h.keeping p)) hnext.fits
    hnext.shaped

/-- What is done about the locks moves nobody, as long as it leaves those alone who are inside or
have a reference to keep. -/
theorem Grounded.withLocks (h : g.Grounded) (sound : locks.Sound)
    (inside : ∀ p a, locks.stands (g.dag, p) = .inside a ↔ g.locks.stands (g.dag, p) = .inside a)
    (keeping : ∀ p a, g.locks.stands (g.dag, p) = .keeping a →
      locks.stands (g.dag, p) = .keeping a) : { g with locks }.Grounded where
  locks := sound
  inside := fun p => (h.inside p).trans (exists_congr fun a => (inside p a).symm)
  keeping := fun p hgrip => (h.keeping p hgrip).imp fun a ha => keeping p a ha
  fits := h.fits
  shaped := h.shaped

theorem Grounded.handle (h : g.Grounded) (handles : g.locks.Handles (g.dag, p) locks) :
    { g with locks }.Grounded := by
  have hother {q : Process} (hq : q ≠ p) :
      locks.stands (g.dag, q) = g.locks.stands (g.dag, q) :=
    handles.stands_of_ne fun he => hq (Prod.mk.inj he).2
  refine h.withLocks (h.locks.handles handles) (fun q a => ?_) fun q a hkeeping => ?_
  · by_cases hq : q = p
    · subst hq
      exact iff_of_false handles.outside.2 handles.outside.1
    · rw [hother hq]
  · by_cases hq : q = p
    · subst hq
      exact absurd hkeeping handles.not_keeping
    · rwa [hother hq]

theorem Grounded.aside (h : g.Grounded) {x : DagId × Process} (other : x.1 ≠ g.dag)
    (step : Locks.Step x g.locks locks) : { g with locks }.Grounded := by
  have hsame (q : Process) : locks.stands (g.dag, q) = g.locks.stands (g.dag, q) :=
    step.stands_of_ne fun he => other (congrArg Prod.fst he).symm
  exact h.withLocks (h.locks.step step) (fun q a => by rw [hsame]) fun q a ha => by rwa [hsame]

theorem Grounded.of_outside {d : DagId} {posts : Process → Post}
    (outside : ∀ p, (posts p).grip = .nothing) (sound : locks.Sound)
    (away : ∀ p a, locks.stands (d, p) ≠ .inside a) (shaped : common.record.Shaped) :
    Grounded ⟨d, common, posts, locks⟩ where
  locks := sound
  inside := fun p => iff_of_false (by simp [outside]) fun ⟨a, ha⟩ => away p a ha
  keeping := fun p hgrip => by simp [outside] at hgrip
  fits := by
    intro p
    refine Post.fits_of_outside ?_ _ _
    cases hinside : (posts p).inside with
    | false => rfl
    | true => cases (outside p).symm.trans (Post.grip_eq_mutex_iff.mpr hinside)
  shaped := shaped

theorem Grounded.works (h : g.Grounded) (works : g.Works g') : g'.Grounded := by
  cases works with
  | act present act grips => exact h.act present act grips
  | handle handles asks prunes => exact h.handle handles
  | aside other step => exact h.aside other step
  | elsewhere => exact ⟨h.locks, h.inside, h.keeping, fun p => (h.fits p).elsewhere, h.shaped⟩
  | shutdown => exact ⟨h.locks, h.inside, h.keeping, fun p => (h.fits p).shutdown, h.shaped⟩
  | halt => exact .of_outside (fun p => by cases p <;> rfl) Locks.sound_empty nofun h.shaped

theorem Grounded.fails (h : g.Grounded) (fails : g.Fails g') : g'.Grounded := by
  cases fails with
  | fail inside grips => exact h.dismissed grips rfl (fun q _ => h.fits q) h.shaped
  | @forsake n locks deciding grips =>
    refine h.dismissed grips rfl (fun q hq => ?_) h.shaped
    -- The loop is inside, so nobody else is, and the register is nothing to those outside.
    cases hinside : (g.posts q).inside with
    | false => exact Post.fits_of_outside hinside _ _
    | true =>
      have hdeciding : (g.posts (.loop n)).inside = true := by rw [deciding]; rfl
      exact absurd (h.orderly.exclusive.unique hinside hdeciding) hq
  | abandon grips => exact h.dismissed grips rfl (fun q _ => h.fits q) h.shaped

theorem Grounded.step (h : g.Grounded) (step : g.Step g') : g'.Grounded := by
  cases step with
  | works works => exact h.works works
  | fails fails => exact h.fails fails

theorem submission_grip (d : Dag) (p : Process) :
    ((Arena.submission d).posts p).grip = .nothing := by
  by_cases hp : p = .caller 0
  · rw [hp]
    rfl
  · have hother : (Arena.submission d).posts p = Arena.unmoved p := Function.update_of_ne hp ..
    rw [hother]
    cases p <;> rfl

theorem Reached.grounded (h : g.Reached) : g.Grounded := by
  induction h with
  | submission fresh built reached away =>
    refine .of_outside (submission_grip _) reached.sound (fun p a => ?_)
      (DagSpec.build_sound fresh built).shaped
    simp [away]
  | next _ step ih => exact ih.step step

end Guarded

end Stagewise
