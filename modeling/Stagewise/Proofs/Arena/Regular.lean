import Stagewise.Proofs.Arena.Final
import Stagewise.Proofs.Arena.Wakeup
/-!
# One drive loop at a time

An agent recovers its dags before it serves anyone, and is shut down after it has served everyone.
Then a dag that is not cancelled never has two drive loops at work: one that is told to end, and may
still have something out, is given no successor.
-/

namespace Stagewise

open Relation (ReflTransGen)

variable {c c' : Common} {p : Process} {post post' : Post}

/-- A caller here is about to start a loop, unless it has cancelled the dag. -/
def Post.opens : Post → Bool
  | .submitted | .committed _ | .starting => true
  | _ => false

namespace Act

theorem alive (act : Act p c post c' post') : post ≠ .gone := by
  cases act <;> nofun

theorem shut (act : Act p c post c' post') : c'.shut = c.shut := by
  cases act with
  | start | serve =>
    simp only [Common.spawn]
    split <;> rfl
  | _ => rfl

theorem started (act : Act p c post c' post') :
    c'.started = c.started ∨
      c.entry = none ∧ c'.started = c.next :: c.started ∧ post.opens = true ∧
        ∃ n, p = .caller n := by
  cases act with
  | start | serve =>
    simp only [Common.spawn]
    split
    · exact .inl rfl
    · next none => exact .inr ⟨none, rfl, rfl, _, rfl⟩
  | _ => exact .inl rfl

/-- Only a cancellation of the dag cancels a token. -/
theorem cancelled (act : Act p c post c' post') (fits : post.Fits c p)
    (live : c.record.status ≠ .cancelled) : c'.cancelled = c.cancelled := by
  cases act with
  | cancel => exact absurd fits.2 live
  | start | serve =>
    simp only [Common.spawn]
    split <;> rfl
  | _ => rfl

/-- A dag that is cancelled stays so. -/
theorem live (act : Act p c post c' post') (fits : post.Fits c p)
    (after : c'.record.status ≠ .cancelled) : c.record.status ≠ .cancelled := by
  intro hcancelled
  apply after
  cases hrecovers : post.recovers with
  | false => rw [(act.unwritten fits (.inl hcancelled) hrecovers).1, hcancelled]
  | true => rw [act.status_of_recovers hrecovers, hcancelled]

/-- A recovery begins when the dag runs. -/
theorem running_of_recovers (act : Act p c post c' post') (recovers : post'.recovers = true)
    (before : post.recovers = true → c.record.status = .running) :
    c'.record.status = .running := by
  cases act with
  | find running => exact Dag.isRunning_iff.mp running
  | restore | recover => exact before rfl
  | write | pass =>
    rw [Post.after_recovers] at recovers
    cases recovers
  | _ => cases recovers

theorem written_of_idle (act : Act p c .idle c' post') : c'.written = c.written := by
  cases act <;> rfl

end Act

namespace Arena

variable {s s' : Arena}

/-- While someone recovers the dag, a record of it is stored only to recover it: no drive loop of it
is at work, and no command is accepted. So it is when an agent recovers what it has stored before it
serves anyone. -/
def Undisturbed (s s' : Arena) : Prop :=
  ∀ n, (s.posts (.caller n)).recovers = true →
    ∀ p d, s'.common.written = (p, d) :: s.common.written → (s.posts p).recovers = true

/-- Whoever recovers the dag finds it running still. -/
structure Calm (s : Arena) : Prop where
  orderly : s.Orderly
  running : ∀ n, (s.posts (.caller n)).recovers = true → s.common.record.status = .running

theorem submission_recovers (d : Dag) (p : Process) :
    ((submission d).posts p).recovers = false := by
  by_cases hp : p = .caller 0
  · rw [hp]
    rfl
  · have hother : (submission d).posts p = unmoved p := Function.update_of_ne hp ..
    rw [hother, unmoved_recovers]

theorem Calm.running_goes (h : s.Calm) (goes : Goes s s') (undisturbed : s.Undisturbed s') (n : Nat)
    (recovers : (s'.posts (.caller n)).recovers = true) : s'.common.record.status = .running := by
  cases goes with
  | @act p common post present act free =>
    by_cases hp : Process.caller n = p
    · subst hp
      rw [moved_posts_self] at recovers
      exact act.running_of_recovers recovers (h.running n)
    · rw [moved_posts_of_ne hp] at recovers
      have hrunning := h.running n recovers
      rcases act.wrote with ⟨hkept, -⟩ | hwrote
      · rwa [moved_common, hkept]
      · have hother := undisturbed n recovers p _ hwrote
        rwa [moved_common, act.status_of_recovers hother]
  | elsewhere => exact h.running n recovers
  | shutdown => exact h.running n recovers

theorem Calm.step (h : s.Calm) (step : Step s s') (undisturbed : s.Undisturbed s') : s'.Calm := by
  refine ⟨h.orderly.step step, fun n recovers => ?_⟩
  cases step with
  | goes goes => exact h.running_goes goes undisturbed n recovers
  | halt =>
    rw [unmoved_recovers] at recovers
    cases recovers

theorem calm_submission {d : Dag} (shaped : d.Shaped) : (submission d).Calm := by
  refine ⟨.of_outside (submission_inside _) rfl shaped, fun n recovers => ?_⟩
  rw [submission_recovers] at recovers
  cases recovers

/-- The process has nothing to do with the dag. -/
def Away (s : Arena) : Process → Prop
  | .loop g => ¬ s.AtWork g
  | .caller n => s.posts (.caller n) = .idle

/-- Whoever recovers the dag is alone with it, and nobody calls on a system that is shut down. -/
structure Regular (s : Arena) : Prop where
  alone : ∀ n, (s.posts (.caller n)).recovers = true → ∀ p, p ≠ .caller n → s.Away p
  closed : s.common.shut = true → ∀ n, s.posts (.caller n) = .idle

/-- One thing that can happen to a dag as long as all is regular. -/
def Abides (s s' : Arena) : Prop := Step s s' ∧ s'.Regular

theorem Regular.shut_of_busy (h : s.Regular) {n : Nat} (busy : s.posts (.caller n) ≠ .idle) :
    s.common.shut = false := by
  cases hshut : s.common.shut with
  | false => rfl
  | true => exact absurd (h.closed hshut n) busy

theorem atWork_of_act {g : Nat} (present : s.Present (.loop g))
    (act : Act (.loop g) s.common (s.posts (.loop g)) c post) : s.AtWork g :=
  ⟨present, act.alive⟩

/-- Nobody writes beside a recovery. -/
theorem Regular.undisturbed (h : s.Regular) (step : Step s s') : s.Undisturbed s' := by
  intro n recovers q d hwritten
  cases step with
  | halt => exact absurd hwritten (List.cons_ne_self _ _).symm
  | goes goes =>
    cases goes with
    | elsewhere | shutdown => exact absurd hwritten (List.cons_ne_self _ _).symm
    | @act p common post present act free =>
      rw [moved_common] at hwritten
      by_cases hp : p = .caller n
      · rcases act.wrote with ⟨-, hkept⟩ | hmine
        · rw [hkept] at hwritten
          exact absurd hwritten (List.cons_ne_self _ _).symm
        · rw [hmine, List.cons.injEq, Prod.mk.injEq] at hwritten
          rw [← hwritten.1.1, hp]
          exact recovers
      · have haway := h.alone n recovers p hp
        cases p with
        | loop g => exact absurd (atWork_of_act present act) haway
        | caller m =>
          have hidle : s.posts (.caller m) = .idle := haway
          rw [hidle] at act
          rw [act.written_of_idle] at hwritten
          exact absurd hwritten (List.cons_ne_self _ _).symm

/-- No token is cancelled before the system is shut down, and one loop at most is at work. -/
structure Sole (s : Arena) : Prop where
  untold : s.common.shut = false → s.common.cancelled = []
  unique : ∀ g g', s.AtWork g → s.AtWork g' → g = g'

/-- While no loop is registered, none is at work that is not told to end. -/
theorem Sole.none_atWork (h : s.Sole) (tended : s.Tended)
    (live : s.common.record.status ≠ .cancelled) (shut : s.common.shut = false)
    (entry : s.common.entry = none) (g : Nat) : ¬ s.AtWork g := by
  intro hwork
  have hdriving : s.Driving g := ⟨hwork, by simp [h.untold shut]⟩
  rcases tended.manned.sole g hdriving with hentry | ⟨n, hn⟩
  · simp [entry] at hentry
  · have hfits := tended.orderly.fits (.caller n)
    rw [hn] at hfits
    exact live hfits.2

theorem Sole.act (h : s.Sole) (tended : s.Tended) (regular : s.Regular)
    (live : s.common.record.status ≠ .cancelled) (present : s.Present p)
    (act : Act p s.common (s.posts p) c post) : (s.moved p c post).Sole := by
  constructor
  case untold =>
    rw [moved_common, act.shut, act.cancelled (tended.orderly.fits p) live]
    exact h.untold
  case unique =>
    rcases act.started with hsame | ⟨hentry, hspawned, hopens, n, rfl⟩
    · have hbefore {g : Nat} (hg : (s.moved p c post).AtWork g) : s.AtWork g := by
        obtain ⟨hstarted, halive⟩ := hg
        rw [moved_common, hsame] at hstarted
        by_cases hp : Process.loop g = p
        · subst hp
          exact atWork_of_act present act
        · rw [moved_posts_of_ne hp] at halive
          exact ⟨hstarted, halive⟩
      exact fun g g' hg hg' => h.unique g g' (hbefore hg) (hbefore hg')
    · have hbusy : s.posts (.caller n) ≠ .idle := by
        intro hidle
        rw [hidle] at hopens
        cases hopens
      have hnone := h.none_atWork tended live (regular.shut_of_busy hbusy) hentry
      have hnew {g : Nat} (hg : (s.moved (.caller n) c post).AtWork g) : g = s.common.next := by
        obtain ⟨hstarted, halive⟩ := hg
        rw [moved_common, hspawned] at hstarted
        rw [moved_posts_of_ne (by simp)] at halive
        rcases List.mem_cons.mp hstarted with hfresh | hold
        · exact hfresh
        · exact absurd ⟨hold, halive⟩ (hnone g)
      exact fun g g' hg hg' => (hnew hg).trans (hnew hg').symm

/-- What holds at every moment, as long as all is regular. -/
structure Ruled (s : Arena) : Prop where
  regular : s.Regular
  calm : s.Calm
  tended : s.Tended
  sole : s.common.record.status ≠ .cancelled → s.Sole

theorem Ruled.sole_step (h : s.Ruled) (step : Step s s')
    (live : s'.common.record.status ≠ .cancelled) : s'.Sole := by
  cases step with
  | halt => exact ⟨fun _ => rfl, fun g _ hg => by cases hg.1⟩
  | goes goes =>
    cases goes with
    | @act p common post present act free =>
      have hlive := act.live (h.tended.orderly.fits p) live
      exact (h.sole hlive).act h.tended h.regular hlive present act
    | elsewhere => exact ⟨(h.sole live).untold, (h.sole live).unique⟩
    | shutdown => exact ⟨nofun, (h.sole live).unique⟩

theorem Ruled.abides (h : s.Ruled) (abides : s.Abides s') : s'.Ruled where
  regular := abides.2
  calm := h.calm.step abides.1 (h.regular.undisturbed abides.1)
  tended := h.tended.step abides.1
  sole := h.sole_step abides.1

theorem regular_of_open (aside : ∀ p, (s.posts p).recovers = false)
    (serving : s.common.shut = false) : s.Regular where
  alone n recovers := by simp [aside] at recovers
  closed shut := by simp [serving] at shut

theorem ruled_submission {d : Dag} (shaped : d.Shaped) : (submission d).Ruled where
  regular := regular_of_open (submission_recovers d) rfl
  calm := calm_submission shaped
  tended := submission_tended shaped
  sole _ := ⟨fun _ => rfl, fun g _ hg => by cases hg.1⟩

theorem Ruled.run (h : s.Ruled) (run : ReflTransGen Abides s s') : s'.Ruled := by
  induction run with
  | refl => exact h
  | tail _ abides ih => exact ih.abides abides

end Arena

end Stagewise
