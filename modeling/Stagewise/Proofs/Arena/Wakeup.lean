import Stagewise.Proofs.Arena.Order
import Stagewise.Proofs.Arena.Play
/-!
# No wake-up is lost

A dag that runs has a drive loop that will see to it. A loop that has found nothing to do may be on
its way out when a command makes the dag run again, and the command then starts no other, because
that one is still registered; but the loop takes itself off the register only behind the lock, and
only after it has looked at the record once more.
-/

namespace Stagewise.Arena

variable {s s' : Arena} {c c' : Common} {p q : Process} {post post' : Post}

/-- What holds of the register at every moment. -/
structure Manned (s : Arena) : Prop where
  fresh : ∀ g ∈ s.common.started, g < s.common.next
  stale : ∀ g ∈ s.common.cancelled, g < s.common.next
  revoked : ∀ n g, s.posts (.caller n) = .revoking (some g) → g < s.common.next
  unstarted : ∀ g, g ∉ s.common.started → s.posts (.loop g) = .checking
  registered : ∀ g, s.common.entry = some g → s.Driving g
  sole : ∀ g, s.Driving g → s.common.entry = some g ∨
    ∃ n, s.posts (.caller n) = .revoking (some g)

/-- While the dag runs it has a drive loop, or is just being given one. -/
def Served (s : Arena) : Prop :=
  s.common.attended = true → s.common.shut = false → s.common.record.isRunning →
    s.common.entry ≠ none ∨ ∃ n operator, s.posts (.caller n) = .committed operator

structure SameRegister (c c' : Common) : Prop where
  entry : c'.entry = c.entry
  next : c'.next = c.next
  started : c'.started = c.started
  cancelled : c'.cancelled = c.cancelled

theorem SameRegister.refl (c : Common) : SameRegister c c := ⟨rfl, rfl, rfl, rfl⟩

theorem driving_moved_of_ne {g : Nat} (h : Process.loop g ≠ p)
    (started : c.started = s.common.started) (cancelled : c.cancelled = s.common.cancelled) :
    (s.moved p c post).Driving g ↔ s.Driving g := by
  simp only [Driving, AtWork, moved_common, moved_posts_of_ne h, started, cancelled]

/-- One who neither ends nor cancels a loop leaves the register in order. -/
theorem Manned.moved (h : s.Manned) (present : s.Present p) (same : SameRegister s.common c)
    (stays : post ≠ .gone) (alive : s.posts p ≠ .gone) (quiet : ∀ o, post ≠ .revoking o)
    (nothing : ∀ o, s.posts p ≠ .revoking o) :
    (s.moved p c post).Manned := by
  have hdriving (g : Nat) : (s.moved p c post).Driving g ↔ s.Driving g := by
    by_cases hp : Process.loop g = p
    · subst hp
      simp only [Driving, AtWork, moved_common, moved_posts_self, same.started, same.cancelled,
        ne_eq, stays, alive, not_false_eq_true, and_true]
    · exact driving_moved_of_ne hp same.started same.cancelled
  constructor
  case fresh =>
    rw [moved_common, same.started, same.next]
    exact h.fresh
  case stale =>
    rw [moved_common, same.cancelled, same.next]
    exact h.stale
  case revoked =>
    intro n g hn
    rw [moved_common, same.next]
    by_cases hp : Process.caller n = p
    · subst hp
      rw [moved_posts_self] at hn
      exact absurd hn (quiet _)
    · rw [moved_posts_of_ne hp] at hn
      exact h.revoked n g hn
  case unstarted =>
    intro g hg
    rw [moved_common, same.started] at hg
    have hne : Process.loop g ≠ p := by
      rintro rfl
      exact hg present
    rw [moved_posts_of_ne hne]
    exact h.unstarted g hg
  case registered =>
    intro g hg
    rw [moved_common, same.entry] at hg
    exact (hdriving g).mpr (h.registered g hg)
  case sole =>
    intro g hg
    rw [moved_common, same.entry]
    refine (h.sole g ((hdriving g).mp hg)).imp id ?_
    rintro ⟨n, hn⟩
    have hne : Process.caller n ≠ p := by
      rintro rfl
      exact nothing _ hn
    exact ⟨n, by rw [moved_posts_of_ne hne, hn]⟩

/-- The dag stays served while it does not begin to run, and no loop is still to be started. -/
theorem Served.moved (h : s.Served) (entry : c.entry = s.common.entry)
    (attended : c.attended = true → s.common.attended = true ∨ ¬ c.record.isRunning)
    (shut : c.shut = s.common.shut) (running : c.record.isRunning → s.common.record.isRunning)
    (done : ∀ operator, s.posts p ≠ .committed operator) : (s.moved p c post).Served := by
  intro hattended hshut hrunning
  rw [moved_common] at hattended hshut hrunning
  rw [moved_common, entry]
  have hbefore : s.common.attended = true :=
    (attended hattended).resolve_right fun hn => hn hrunning
  refine (h hbefore (shut ▸ hshut) (running hrunning)).imp id ?_
  rintro ⟨n, operator, hn⟩
  have hne : Process.caller n ≠ p := by
    rintro rfl
    exact done _ hn
  exact ⟨n, operator, by rw [moved_posts_of_ne hne, hn]⟩

/-- While another one is inside, no cancellation is under way. -/
theorem Exclusive.not_revoking (h : s.Exclusive) (hp : (s.posts p).inside = true)
    (other : ∀ o, s.posts p ≠ .revoking o) (n : Nat) (o : Option Nat) :
    s.posts (.caller n) ≠ .revoking o := by
  intro hn
  have hsame : p = .caller n := h.unique hp (by rw [hn]; rfl)
  subst hsame
  exact other o hn

theorem Exclusive.not_committed (h : s.Exclusive) (hp : (s.posts p).inside = true)
    (other : ∀ operator, s.posts p ≠ .committed operator) (n : Nat) (operator : Operator) :
    s.posts (.caller n) ≠ .committed operator := by
  intro hn
  have hsame : p = .caller n := h.unique hp (by rw [hn]; rfl)
  subst hsame
  exact other operator hn

theorem spawn_entry (c : Common) : c.spawn.entry ≠ none := by
  rw [Common.spawn]
  split
  · simp [*]
  · simp

theorem spawn_attended (c : Common) : { c.spawn with attended := c.attended } = c.spawn := by
  rw [Common.spawn]
  split <;> rfl

theorem Manned.spawned (h : s.Manned) {n : Nat} (exclusive : s.Exclusive)
    (inside : (s.posts (.caller n)).inside = true)
    (other : ∀ o, s.posts (.caller n) ≠ .revoking o) (attended : Bool) :
    (s.moved (.caller n) { s.common.spawn with attended } .idle).Manned := by
  have hposts (g : Nat) : (s.moved (.caller n) { s.common.spawn with attended } .idle).posts
      (.loop g) = s.posts (.loop g) := moved_posts_of_ne (by simp)
  have hsole (g : Nat) (hg : s.Driving g) : s.common.entry = some g :=
    (h.sole g hg).resolve_right fun ⟨m, hm⟩ => exclusive.not_revoking inside other m _ hm
  have hcallers (m g : Nat) (hm : (s.moved (.caller n) { s.common.spawn with attended } .idle).posts
      (.caller m) = .revoking (some g)) : s.posts (.caller m) = .revoking (some g) := by
    by_cases hmn : Process.caller m = .caller n
    · rw [hmn, moved_posts_self] at hm
      cases hm
    · rwa [moved_posts_of_ne hmn] at hm
  cases hentry : s.common.entry with
  | some g =>
    have hspawn : s.common.spawn = s.common := by rw [Common.spawn, hentry]
    have hdriving (g' : Nat) :
        (s.moved (.caller n) { s.common with attended } .idle).Driving g' ↔ s.Driving g' :=
      driving_moved_of_ne (by simp) rfl rfl
    rw [hspawn] at hposts hcallers ⊢
    exact ⟨h.fresh, h.stale, fun m g' hm => h.revoked m g' (hcallers m g' hm),
      fun g' hg' => (hposts g').trans (h.unstarted g' hg'),
      fun g' hg' => (hdriving g').mpr (h.registered g' hg'),
      fun g' hg' => .inl (hsole g' ((hdriving g').mp hg'))⟩
  | none =>
    have hspawn : s.common.spawn = { s.common with
        entry := some s.common.next, next := s.common.next + 1,
        started := s.common.next :: s.common.started } := by rw [Common.spawn, hentry]
    have hnew : s.common.next ∉ s.common.started := fun hm => Nat.lt_irrefl _ (h.fresh _ hm)
    rw [hspawn] at hposts hcallers ⊢
    constructor
    case fresh =>
      intro g hg
      rcases List.mem_cons.mp hg with rfl | hg
      · exact Nat.lt_succ_self _
      · exact Nat.lt_succ_of_lt (h.fresh g hg)
    case stale => exact fun g hg => Nat.lt_succ_of_lt (h.stale g hg)
    case revoked => exact fun m g hm => Nat.lt_succ_of_lt (h.revoked m g (hcallers m g hm))
    case unstarted =>
      intro g hg
      rw [hposts]
      exact h.unstarted g fun hm => hg (List.mem_cons_of_mem _ hm)
    case registered =>
      intro g hg
      obtain rfl : s.common.next = g := Option.some.inj hg
      refine ⟨⟨List.mem_cons_self, ?_⟩, fun hc => Nat.lt_irrefl _ (h.stale _ hc)⟩
      rw [hposts, h.unstarted _ hnew]
      simp
    case sole =>
      rintro g ⟨⟨hg, hpost⟩, hlive⟩
      rw [hposts] at hpost
      rcases List.mem_cons.mp hg with rfl | hg
      · exact .inl rfl
      · have hbefore := hsole g ⟨⟨hg, hpost⟩, hlive⟩
        simp [hentry] at hbefore

/-- A loop that ends takes itself off the register, and no other. -/
theorem Manned.departed (h : s.Manned) {g : Nat} (present : s.Present (.loop g)) :
    (s.moved (.loop g) (s.common.deregister g) .gone).Manned := by
  have hne {g' : Nat} (hg : (s.moved (.loop g) (s.common.deregister g) .gone).Driving g') :
      g' ≠ g := by
    rintro rfl
    exact hg.1.2 moved_posts_self
  have hdriving {g' : Nat} (hg : g' ≠ g) :
      (s.moved (.loop g) (s.common.deregister g) .gone).Driving g' ↔ s.Driving g' :=
    driving_moved_of_ne (by simpa using hg) rfl rfl
  constructor
  case fresh => exact h.fresh
  case stale => exact h.stale
  case revoked =>
    intro n g' hn
    rw [moved_posts_of_ne (by simp)] at hn
    exact h.revoked n g' hn
  case unstarted =>
    intro g' hg'
    have hother : Process.loop g' ≠ Process.loop g := by
      rintro ⟨⟩
      exact hg' present
    rw [moved_posts_of_ne hother]
    exact h.unstarted g' hg'
  case registered =>
    intro g' hg'
    rw [moved_common, Common.deregister] at hg'
    by_cases hentry : s.common.entry = some g
    · simp [hentry] at hg'
    · rw [if_neg hentry] at hg'
      have hother : g' ≠ g := by
        rintro rfl
        exact hentry hg'
      exact (hdriving hother).mpr (h.registered g' hg')
  case sole =>
    intro g' hg'
    have hother := hne hg'
    refine (h.sole g' ((hdriving hother).mp hg')).imp (fun hentry => ?_) ?_
    · rw [moved_common, Common.deregister, if_neg (by simpa [hentry] using hother), hentry]
    · rintro ⟨n, hn⟩
      exact ⟨n, by rw [moved_posts_of_ne (by simp), hn]⟩

/-- A cancellation takes the loop off the register, and is about to cancel its token. -/
theorem Manned.taken (h : s.Manned) (exclusive : s.Exclusive) {n : Nat} {operator : Operator}
    (hpost : s.posts (.caller n) = .committed operator) :
    (s.moved (.caller n) { s.common with entry := none } (.revoking s.common.entry)).Manned := by
  have hdriving (g : Nat) :
      (s.moved (.caller n) { s.common with entry := none } (.revoking s.common.entry)).Driving g
        ↔ s.Driving g := driving_moved_of_ne (by simp) rfl rfl
  constructor
  case fresh => exact h.fresh
  case stale => exact h.stale
  case revoked =>
    intro m g hm
    by_cases hmn : Process.caller m = .caller n
    · rw [hmn, moved_posts_self] at hm
      exact h.fresh g (h.registered g (Post.revoking.inj hm)).1.1
    · rw [moved_posts_of_ne hmn] at hm
      exact h.revoked m g hm
  case unstarted =>
    intro g hg
    rw [moved_posts_of_ne (by simp)]
    exact h.unstarted g hg
  case registered => exact fun g hg => by cases hg
  case sole =>
    intro g hg
    rcases h.sole g ((hdriving g).mp hg) with hentry | ⟨m, hm⟩
    · exact .inr ⟨n, by rw [moved_posts_self, hentry]⟩
    · have hinside : (s.posts (.caller n)).inside = true := by rw [hpost]; rfl
      exact absurd hm (exclusive.not_revoking hinside (by simp [hpost]) m _)

/-- Once its token is cancelled, the loop that was taken off the register is told to end. -/
theorem Manned.released (h : s.Manned) (exclusive : s.Exclusive) {n : Nat} {o : Option Nat}
    (hpost : s.posts (.caller n) = .revoking o) (entry : s.common.entry = none) :
    (s.moved (.caller n) { s.common with cancelled := o.toList ++ s.common.cancelled }
      .idle).Manned := by
  constructor
  case fresh => exact h.fresh
  case stale =>
    intro g hg
    rcases List.mem_append.mp hg with hg | hg
    · obtain rfl := Option.mem_toList.mp hg
      exact h.revoked n g hpost
    · exact h.stale g hg
  case revoked =>
    intro m g hm
    by_cases hmn : Process.caller m = .caller n
    · rw [hmn, moved_posts_self] at hm
      cases hm
    · rw [moved_posts_of_ne hmn] at hm
      exact h.revoked m g hm
  case unstarted =>
    intro g hg
    rw [moved_posts_of_ne (by simp)]
    exact h.unstarted g hg
  case registered =>
    intro g hg
    rw [moved_common, entry] at hg
    cases hg
  case sole =>
    rintro g ⟨⟨hg, hgone⟩, hlive⟩
    rw [moved_posts_of_ne (by simp)] at hgone
    have hbefore : s.Driving g :=
      ⟨⟨hg, hgone⟩, fun hc => hlive (List.mem_append_right _ hc)⟩
    rcases h.sole g hbefore with hentry | ⟨m, hm⟩
    · simp [entry] at hentry
    · have hsame : Process.caller m = .caller n :=
        exclusive.unique (by rw [hm]; rfl) (by rw [hpost]; rfl)
      rw [hsame, hpost] at hm
      obtain rfl := Post.revoking.inj hm
      exact absurd (List.mem_append_left _ (Option.mem_toList.mpr rfl)) hlive

theorem after_ne_gone (record : Dag) (batch : Option Batch) : Post.after record batch ≠ .gone := by
  cases batch with
  | none => nofun
  | some batch => nofun

theorem after_ne_revoking (record : Dag) (batch : Option Batch) (o : Option Nat) :
    Post.after record batch ≠ .revoking o := by
  cases batch with
  | none => nofun
  | some batch => nofun

/-- Whoever acts leaves the register in order. -/
theorem Manned.act (h : s.Manned) (orderly : s.Orderly) (present : s.Present p)
    (act : Act p s.common (s.posts p) c post) : (s.moved p c post).Manned := by
  have hfits := orderly.fits p
  generalize hpost : s.posts p = before at act hfits
  cases act with
  | write =>
    exact h.moved present ⟨rfl, rfl, rfl, rfl⟩ (after_ne_gone _ _) (by simp [hpost])
      (after_ne_revoking _ _) (by simp [hpost])
  | pass =>
    exact h.moved present ⟨rfl, rfl, rfl, rfl⟩ (after_ne_gone _ _) (by simp [hpost])
      (after_ne_revoking _ _) (by simp [hpost])
  -- The record has the right shape, so that the loop always has a next move.
  | breakOff now running step => exact absurd step (orderly.shaped.step_ne_error now _)
  | depart => exact h.departed present
  | start =>
    rw [← spawn_attended]
    exact h.spawned orderly.exclusive (by rw [hpost]; rfl) (by simp [hpost]) _
  | serve => exact h.spawned orderly.exclusive (by rw [hpost]; rfl) (by simp [hpost]) true
  | revoke => exact h.taken orderly.exclusive hpost
  | cancel => exact h.released orderly.exclusive hpost hfits.1
  | release => exact h.released orderly.exclusive hpost hfits.1
  | _ => exact h.moved present ⟨rfl, rfl, rfl, rfl⟩ nofun (by simp [hpost]) nofun (by simp [hpost])

/-- Whoever acts leaves the dag served: one that begins to run is given a loop before the lock is
free, and a loop does not leave one that runs. -/
theorem Served.act (h : s.Served) (manned : s.Manned) (orderly : s.Orderly)
    (act : Act p s.common (s.posts p) c post) : (s.moved p c post).Served := by
  have hfits := orderly.fits p
  generalize hpost : s.posts p = before at act hfits
  cases act with
  | write later write same =>
    exact h.moved rfl .inl rfl (fun _ => hfits.2.1) (by simp [hpost])
  | settle later same => exact h.moved rfl .inl rfl (fun _ => hfits.2.1) (by simp [hpost])
  | commit later same => exact fun _ _ _ => .inr ⟨_, _, moved_posts_self⟩
  | skip ended => exact h.moved rfl (fun _ => .inr ended) rfl id (by simp [hpost])
  | start => exact fun _ _ _ => .inl (spawn_entry s.common)
  | serve => exact fun _ _ _ => .inl (spawn_entry s.common)
  | revoke =>
    intro _ _ hrunning
    have hcancelled : s.common.record.status = .cancelled := hfits rfl
    simp [Dag.isRunning, hcancelled] at hrunning
  | cancel =>
    intro _ _ hrunning
    have hcancelled : s.common.record.status = .cancelled := hfits.2
    simp [Dag.isRunning, Common.cancel, hcancelled] at hrunning
  | release =>
    intro _ _ hrunning
    have hcancelled : s.common.record.status = .cancelled := hfits.2
    simp [Dag.isRunning, hcancelled] at hrunning
  | @depart g =>
    intro hattended hshut hrunning
    have hinside : (s.posts (.loop g)).inside = true := by rw [hpost]; rfl
    have hnone := orderly.exclusive.not_committed hinside (by simp [hpost])
    have hentry : s.common.entry ≠ none := by
      refine (h hattended hshut hrunning).resolve_right ?_
      rintro ⟨n, operator, hn⟩
      exact hnone n operator hn
    have hother : s.common.entry ≠ some g := by
      intro hg
      have hlive := (manned.registered g hg).2
      exact hfits.elim hlive fun hn => hn hrunning
    left
    rw [moved_common, Common.deregister, if_neg hother]
    exact hentry
  | _ => exact h.moved rfl .inl rfl id (by simp [hpost])

/-! ## Every step -/

/-- What holds at every moment. -/
structure Tended (s : Arena) : Prop where
  orderly : s.Orderly
  manned : s.Manned
  served : s.Served

theorem Manned.shutdown (h : s.Manned) : Manned { s with common := s.common.shutdown } := by
  constructor
  case fresh => exact h.fresh
  case stale =>
    intro g hg
    rcases List.mem_append.mp hg with hg | hg
    · exact h.fresh g (h.registered g (Option.mem_toList.mp hg)).1.1
    · exact h.stale g hg
  case revoked => exact h.revoked
  case unstarted => exact h.unstarted
  case registered => exact fun g hg => by cases hg
  case sole =>
    rintro g ⟨hwork, hlive⟩
    have hbefore : s.Driving g := ⟨hwork, fun hc => hlive (List.mem_append_right _ hc)⟩
    refine .inr ((h.sole g hbefore).resolve_left fun hentry => ?_)
    exact hlive (List.mem_append_left _ (Option.mem_toList.mpr hentry))

theorem Manned.of_none (started : s.common.started = []) (cancelled : s.common.cancelled = [])
    (entry : s.common.entry = none) (posts : ∀ g, s.posts (.loop g) = .checking)
    (quiet : ∀ n o, s.posts (.caller n) ≠ .revoking o) : s.Manned where
  fresh g hg := by simp [started] at hg
  stale g hg := by simp [cancelled] at hg
  revoked n g hn := absurd hn (quiet n _)
  unstarted g _ := posts g
  registered g hg := by simp [entry] at hg
  sole g hg := by
    have hstarted := hg.1.1
    simp [started] at hstarted

theorem submission_tended {d : Dag} (shaped : d.Shaped) : (submission d).Tended where
  orderly := .of_outside (submission_inside _) rfl shaped
  manned := by
    refine .of_none rfl rfl rfl (fun g => ?_) fun n o hn => ?_
    · have hother : Process.loop g ≠ .caller 0 := by simp
      exact Function.update_of_ne hother Post.submitted unmoved
    · have hinside := submission_inside d (.caller n)
      rw [hn] at hinside
      cases hinside
  served hattended := by cases hattended

theorem Manned.goes (h : s.Manned) (orderly : s.Orderly) (hgoes : Goes s s') : s'.Manned := by
  cases hgoes with
  | act present act => exact h.act orderly present act
  | elsewhere =>
    exact ⟨fun g hg => Nat.lt_succ_of_lt (h.fresh g hg),
      fun g hg => Nat.lt_succ_of_lt (h.stale g hg),
      fun n g hn => Nat.lt_succ_of_lt (h.revoked n g hn), h.unstarted, h.registered, h.sole⟩
  | shutdown => exact h.shutdown

theorem Served.goes (h : s.Served) (manned : s.Manned) (orderly : s.Orderly) (hgoes : Goes s s') :
    s'.Served := by
  cases hgoes with
  | act present act => exact h.act manned orderly act
  | elsewhere => exact h
  | shutdown => exact fun _ hshut => by cases hshut

theorem Tended.step (h : s.Tended) (hstep : Step s s') : s'.Tended := by
  refine ⟨h.orderly.step hstep, ?manned, ?served⟩
  case manned =>
    cases hstep with
    | goes hgoes => exact h.manned.goes h.orderly hgoes
    | halt => exact .of_none rfl rfl rfl (fun _ => rfl) (fun _ _ => nofun)
  case served =>
    cases hstep with
    | goes hgoes => exact h.served.goes h.manned h.orderly hgoes
    | halt => exact fun hattended => by cases hattended

theorem Reached.tended (h : s.Reached) : s.Tended := by
  induction h with
  | submission fresh built => exact submission_tended (DagSpec.build_sound fresh built).shaped
  | next _ hstep ih => exact ih.step hstep

theorem Tended.driving_unique (h : s.Tended) {g g' : Nat} (hg : s.Driving g) (hg' : s.Driving g') :
    g = g' := by
  rcases h.manned.sole g hg with hentry | ⟨n, hn⟩
  · rcases h.manned.sole g' hg' with hentry' | ⟨n, hn⟩
    · rw [hentry] at hentry'
      exact Option.some.inj hentry'
    · have hfits := h.orderly.fits (.caller n)
      rw [hn] at hfits
      exact absurd hfits.1 (by simp [hentry])
  · have hfits := h.orderly.fits (.caller n)
    rw [hn] at hfits
    rcases h.manned.sole g' hg' with hentry' | ⟨m, hm⟩
    · exact absurd hfits.1 (by simp [hentry'])
    · have hsame : Process.caller n = .caller m :=
        h.orderly.exclusive.unique (by rw [hn]; rfl) (by rw [hm]; rfl)
      rw [hsame, hm] at hn
      exact (Option.some.inj (Post.revoking.inj hn)).symm

/-- No wake-up is lost: whenever the lock is free, a dag that has been submitted or recovered and
runs has a registered drive loop, which has not ended and whose token is not cancelled. There is
never more than one such loop. -/
theorem driven_of_running (h : s.Reached) :
    (s.lock = none → s.common.attended = true → s.common.shut = false →
        s.common.record.isRunning → ∃ g, s.common.entry = some g ∧ s.Driving g) ∧
      ∀ g g', s.Driving g → s.Driving g' → g = g' := by
  have htended := h.tended
  refine ⟨fun hfree hattended hshut hrunning => ?_, fun g g' => htended.driving_unique⟩
  rcases htended.served hattended hshut hrunning with hentry | ⟨n, operator, hn⟩
  · obtain ⟨g, hg⟩ := Option.ne_none_iff_exists'.mp hentry
    exact ⟨g, hg, htended.manned.registered g hg⟩
  · have hlock : s.lock = some (.caller n) :=
      (htended.orderly.exclusive _).mp (by rw [hn]; rfl)
    simp [hfree] at hlock

/-- The command starts no loop, because the one that is about to leave is still registered. -/
theorem driven_of_running_retried :
    (Sample.arena Sample.retried).lock = none ∧
      (Sample.arena Sample.retried).common.attended = true ∧
      (Sample.arena Sample.retried).common.shut = false ∧
      (Sample.arena Sample.retried).common.record.isRunning ∧
      (Sample.arena Sample.retried).posts (.loop 0) = .leaving ∧
      ∃ g, (Sample.arena Sample.retried).common.entry = some g ∧
        (Sample.arena Sample.retried).Driving g := by
  have hfree : (Sample.arena Sample.retried).lock = none := by decide
  have hattended : (Sample.arena Sample.retried).common.attended = true := by decide
  have hshut : (Sample.arena Sample.retried).common.shut = false := by decide
  have hrunning : (Sample.arena Sample.retried).common.record.isRunning = true := by decide
  exact ⟨hfree, hattended, hshut, hrunning, rfl,
    (driven_of_running (Sample.reached Sample.retried)).1 hfree hattended hshut hrunning⟩

end Stagewise.Arena
