import Stagewise.Proofs.Arena.Basic
import Stagewise.Proofs.Course.Sound
/-!
# Order in an arena

Only one process at a time stands inside the lock, and what it has read there is still what is
stored when it writes. So no write is ever refused for its version, and every record that is written
has the shape with which the dag began.
-/

namespace Stagewise

variable {c c' : Common} {p q : Process} {post post' : Post}

namespace Dag.Shaped

variable {d record : Dag} {now : Timestamp} {move : Move}

/-- A dag of the right shape always has a next move. -/
theorem step_ne_error (h : d.Shaped) (now : Timestamp) (x : Fault) : d.step now ≠ .error x := by
  obtain ⟨n, hn⟩ := h.currentNode
  obtain ⟨move, hmove⟩ := exists_step hn now
  simp [hmove]

theorem step (h : d.Shaped) (hstep : d.step now = .ok move) (hwrite : move.write = some record) :
    record.Shaped := by
  obtain ⟨n, hn⟩ := h.currentNode
  have hlaunched : (d.modifyCurrent fun _ => launched n now).Shaped := by
    rw [launched_eq_mapAt hn]
    exact h.mapAt fun i t => by split <;> simp
  rw [Dag.step] at hstep
  cases hdirection : d.direction with
  | execute =>
    simp only [hdirection] at hstep
    cases forward_cases hn hstep with
    | advance done more =>
      cases hwrite
      exact h.withStage (Nat.succ_pos _) more
    | finish done last =>
      cases hwrite
      exact h.withStatus .succeeded
    | park failed =>
      cases hwrite
      exact h.withStatus .failed
    | stuck sound left idle message =>
      cases hwrite
      exact hlaunched.withStatus .failed
    | launch sound left busy =>
      cases hwrite
      exact hlaunched
  | rollback =>
    simp only [hdirection] at hstep
    cases unwind_cases hn hstep with
    | compensate busy => cases hwrite
    | stepBack idle more =>
      cases hwrite
      have hle : d.stage - 1 ≤ d.maxStage := Nat.le_trans (Nat.sub_le ..) h.stage_le
      exact h.withStage (by omega) hle
    | finish idle last =>
      cases hwrite
      exact h.withStatus .failed

theorem command (h : d.Shaped) {operator : Operator} {lines : LogLines}
    (hmade : d.Commanded now operator record lines) : record.Shaped := by
  cases hmade with
  | retry failed forward node nonempty permitted =>
    exact ((h.modifyTasks node (f := again) fun _ => rfl).withStatus .running).withOperator .retry
  | pass failed forward node nonempty permitted =>
    let passed (t : Task) : Task := { t with status := .succeeded, finishedAt := some now }
    exact ((h.modifyTasks node (f := passed) fun _ => rfl).withStatus .running).withOperator .pass
  | rollback failed reached permitted => exact (h.withStatus .running).withOperator .rollback
  | cancel unfinished permitted =>
    have hstopped := h.mapTasks fun t => Task.id_eq_of_identity (stopped_identity now t)
    exact (hstopped.withStatus .cancelled).withOperator .cancel

end Dag.Shaped

/-! ## The lock -/

/-- One who acts without holding the lock changes nothing that is shared, but may note that there is
nothing to recover. -/
theorem Act.common_of_outside (act : Act p c post c' post') (outside : post.inside = false) :
    c' = c ∨ c' = { c with attended := true } ∧ ¬ c.record.isRunning := by
  cases act with
  | skip ended => exact .inr ⟨rfl, ended⟩
  | _ => first | exact .inl rfl | cases outside

namespace Arena

variable {s s' : Arena} {common : Common}

/-- Whoever is inside holds the lock. -/
def Exclusive (s : Arena) : Prop := ∀ p, (s.posts p).inside = true ↔ s.lock = some p

@[simp] theorem moved_common : (s.moved p common post).common = common := rfl

@[simp] theorem moved_posts_self : (s.moved p common post).posts p = post :=
  Function.update_self ..

theorem moved_posts_of_ne (h : q ≠ p) : (s.moved p common post).posts q = s.posts q :=
  Function.update_of_ne h ..

theorem Exclusive.unique (h : s.Exclusive) (hp : (s.posts p).inside = true)
    (hq : (s.posts q).inside = true) : p = q := by
  have hlock := (h p).mp hp
  rw [(h q).mp hq] at hlock
  exact (Option.some.inj hlock).symm

theorem Exclusive.moved (h : s.Exclusive)
    (free : (s.posts p).inside = false → post.inside = true → s.lock = none) :
    (s.moved p common post).Exclusive := by
  intro q
  by_cases hq : q = p
  · subst hq
    rw [moved_posts_self, Arena.moved]
    cases hpost : post.inside with
    | true => simp
    | false =>
      cases hbefore : (s.posts q).inside with
      | true => simp
      | false =>
        have hlock : s.lock ≠ some q := fun hl => by simp [(h q).mpr hl] at hbefore
        simp [hlock]
  · rw [moved_posts_of_ne hq, h q, Arena.moved]
    have hother : some p ≠ some q := fun he => hq (Option.some.inj he).symm
    cases hbefore : (s.posts p).inside with
    | true =>
      have hlock : s.lock = some p := (h p).mp hbefore
      cases hpost : post.inside with
      | true => simp [hlock]
      | false => simp [hlock, hother]
    | false =>
      cases hpost : post.inside with
      | true => simp [free hbefore hpost, hother]
      | false => simp

end Arena

/-! ## What those inside know -/

/-- What a process knows of what is shared, from what it did since it took the lock. -/
def Post.Fits (c : Common) : Process → Post → Prop
  | .loop _, .moving read move =>
    read = c.record ∧ c.record.isRunning ∧ ∃ now, c.record.step now = .ok move
  | .loop _, .folded read record =>
    read = c.record ∧ c.record.isRunning ∧
      ∃ (b : Barrier) (reports : List Report) (now : Timestamp), c.record.stage = b.stage ∧
        record = (c.record.settle reports b.action now).dag
  | .loop g, .departing => g ∈ c.cancelled ∨ ¬ c.record.isRunning
  | .caller _, .prepared operator read record =>
    read = c.record ∧ ∃ now lines, c.record.command operator now = .ok (record, lines)
  | .caller _, .committed operator => operator = .cancel → c.record.status = .cancelled
  | .caller _, .revoking _ => c.entry = none ∧ c.record.status = .cancelled
  | _, _ => True

theorem Post.fits_of_outside (outside : post.inside = false) (c : Common) (p : Process) :
    post.Fits c p := by
  cases post with
  | moving | folded | departing | prepared | committed | revoking => cases outside
  | _ => cases p <;> trivial

theorem Post.after_inside (record : Dag) (batch : Option Batch) :
    (Post.after record batch).inside = false := by
  cases batch with
  | none => rfl
  | some batch => rfl

theorem Dag.status_of_cancel {d record : Dag} {now : Timestamp} {lines : LogLines}
    (h : d.command .cancel now = .ok (record, lines)) : record.status = .cancelled := by
  cases Dag.command_cases h with
  | cancel => rfl

/-- Whatever a process does, it knows afterwards what its new post says. -/
theorem Act.fits (act : Act p c post c' post') (fits : post.Fits c p) : post'.Fits c' p := by
  cases act with
  | choose now running step => exact ⟨rfl, running, now, step⟩
  | write => exact Post.fits_of_outside (Post.after_inside ..) _ _
  | pass => exact Post.fits_of_outside (Post.after_inside ..) _ _
  | @fold g c b reports now running stage => exact ⟨rfl, running, b, reports, now, stage, rfl⟩
  | confirm cancelled => exact .inl cancelled
  | quit ended => exact .inr ended
  | @prepare n c operator record lines now accepted => exact ⟨rfl, now, lines, accepted⟩
  | commit later same =>
    obtain ⟨-, now, lines, accepted⟩ := fits
    rintro rfl
    have hcancelled := Dag.status_of_cancel accepted
    exact hcancelled
  | revoke => exact ⟨rfl, fits rfl⟩
  | _ => trivial

theorem Post.Fits.shutdown (fits : post.Fits c p) : post.Fits c.shutdown p := by
  cases p with
  | loop g =>
    cases post with
    | departing => exact fits.imp (List.mem_append_right _) id
    | _ => exact fits
  | caller n =>
    cases post with
    | revoking => exact ⟨rfl, fits.2⟩
    | _ => exact fits

theorem Post.Fits.elsewhere (fits : post.Fits c p) :
    post.Fits { c with next := c.next + 1 } p := by
  cases p with
  | loop g => cases post <;> exact fits
  | caller n => cases post <;> exact fits

/-- The shape of the record is never lost. -/
theorem Act.shaped (act : Act p c post c' post') (fits : post.Fits c p) (shaped : c.record.Shaped) :
    c'.record.Shaped := by
  cases act with
  | write later write same =>
    obtain ⟨rfl, -, now, hstep⟩ := fits
    exact (shaped.step hstep write).raised later
  | settle later same =>
    obtain ⟨rfl, -, b, reports, now, -, rfl⟩ := fits
    exact (shaped.settle reports b.action now).raised later
  | commit later same =>
    obtain ⟨rfl, now, lines, haccepted⟩ := fits
    exact (shaped.command (Dag.command_cases haccepted)).raised later
  | @recover n c t left registry now =>
    let restored := Store.withStatus (registry.recovered t).1 now
    exact (shaped.modifyTask t.id (f := restored) fun _ => rfl).raised now
  | start | serve =>
    simp only [Common.spawn]
    split <;> exact shaped
  | _ => exact shaped

namespace Arena

variable {s s' : Arena}

/-- What holds of the lock and the record at every moment. -/
structure Orderly (s : Arena) : Prop where
  exclusive : s.Exclusive
  fits : ∀ p, (s.posts p).Fits s.common p
  shaped : s.common.record.Shaped

theorem unmoved_inside (p : Process) : (unmoved p).inside = false := by
  cases p <;> rfl

theorem submission_inside (d : Dag) (p : Process) :
    ((submission d).posts p).inside = false := by
  by_cases hp : p = .caller 0
  · rw [hp]
    rfl
  · have hother : (submission d).posts p = unmoved p := Function.update_of_ne hp ..
    rw [hother, unmoved_inside]

theorem Orderly.of_outside (outside : ∀ p, (s.posts p).inside = false) (free : s.lock = none)
    (shaped : s.common.record.Shaped) : s.Orderly where
  exclusive p := by simp [outside, free]
  fits p := Post.fits_of_outside (outside p) _ _
  shaped := shaped

theorem Orderly.goes (h : s.Orderly) (hgoes : Goes s s') : s'.Orderly := by
  cases hgoes with
  | @act p common post present act free =>
    refine ⟨h.exclusive.moved free, fun q => ?_, act.shaped (h.fits p) h.shaped⟩
    by_cases hq : q = p
    · subst hq
      rw [moved_posts_self]
      exact act.fits (h.fits q)
    · rw [moved_posts_of_ne hq]
      -- Another one inside sees nothing change, because the one that acts is outside.
      cases hinside : (s.posts q).inside with
      | false => exact Post.fits_of_outside hinside _ _
      | true =>
        have houtside : (s.posts p).inside = false := by
          cases hp : (s.posts p).inside with
          | false => rfl
          | true => exact absurd (h.exclusive.unique hinside hp) hq
        rcases act.common_of_outside houtside with hsame | ⟨hsame, -⟩
        · subst hsame
          exact h.fits q
        · subst hsame
          have hfits := h.fits q
          revert hfits
          cases q <;> cases s.posts _ <;> exact id
  | elsewhere => exact ⟨h.exclusive, fun p => (h.fits p).elsewhere, h.shaped⟩
  | shutdown => exact ⟨h.exclusive, fun p => (h.fits p).shutdown, h.shaped⟩

theorem Orderly.step (h : s.Orderly) (hstep : Step s s') : s'.Orderly := by
  cases hstep with
  | goes hgoes => exact h.goes hgoes
  | halt => exact .of_outside unmoved_inside rfl h.shaped

theorem Reached.orderly (h : s.Reached) : s.Orderly := by
  induction h with
  | submission fresh built =>
    exact .of_outside (submission_inside _) rfl (DagSpec.build_sound fresh built).shaped
  | next _ hstep ih => exact ih.step hstep

end Arena

end Stagewise
