import Stagewise.Proofs.Arena.Rounds
/-!
# One at a time

Those who work on a dag write its record one at a time, and each has read the record that it
replaces.
-/

namespace Stagewise

variable {c c' : Common} {p : Process} {post post' : Post} {read : Dag}

/-- Whoever is about to write knows the stored record. -/
theorem Post.Fits.read_eq (fits : post.Fits c p) (commits : p.Commits post read) :
    read = c.record := by
  cases commits with
  | move | fold | command => exact fits.1

/-- Whoever is about to write does, if the version is the one that was read. -/
theorem Act.written_of_commits (act : Act p c post c' post') (commits : p.Commits post read)
    (same : c.record.version = read.version) : c'.written = (p, c'.record) :: c.written := by
  cases commits with
  | move write =>
    cases act with
    | write => rfl
    | pass nothing => cases write.symm.trans nothing
    | miss write other => exact absurd same other
  | fold =>
    cases act with
    | settle => rfl
    | missFold other => exact absurd same other
  | command =>
    cases act with
    | commit => rfl
    | missCommand other => exact absurd same other

/-- Nothing is stored, or something is by one who is inside and was about to do so. -/
theorem Act.commits_of_wrote (act : Act p c post c' post') :
    c'.record = c.record ∧ c'.written = c.written ∨
      c'.written = (p, c'.record) :: c.written ∧ post.inside = true ∧
        ((∃ read, p.Commits post read) ∨ ∃ left, post = .restoring left) := by
  cases act with
  | write later write same => exact .inr ⟨rfl, rfl, .inl ⟨_, .move write⟩⟩
  | settle => exact .inr ⟨rfl, rfl, .inl ⟨_, .fold⟩⟩
  | commit => exact .inr ⟨rfl, rfl, .inl ⟨_, .command⟩⟩
  | recover => exact .inr ⟨rfl, rfl, .inr ⟨_, rfl⟩⟩
  | start | serve =>
    simp only [Common.spawn]
    split <;> exact .inl ⟨rfl, rfl⟩
  | _ => exact .inl ⟨rfl, rfl⟩

namespace Guarded

variable {g g' : Guarded}

/-- What a step stores is stored by one who is inside, over the record that he has read. -/
theorem Grounded.stored (h : g.Grounded) (step : g.Step g') :
    g'.common.record = g.common.record ∧ g'.common.written = g.common.written ∨
      ∃ p, g'.common.written = (p, g'.common.record) :: g.common.written ∧
        (g.posts p).inside = true ∧ g'.common.record.version = g.common.record.version + 1 ∧
        (p.Commits (g.posts p) g.common.record ∨ ∃ left, g.posts p = .restoring left) := by
  cases step with
  | works works =>
    cases works with
    | @act p common post locks present act grips =>
      rcases act.commits_of_wrote with hkept | ⟨hwritten, hinside, hcommits⟩
      · exact .inl hkept
      · refine .inr ⟨p, hwritten, hinside, ?_, ?_⟩
        · rcases act.rewritten (h.fits p) h.shaped with ⟨-, hkept⟩ | ⟨-, hrewritten⟩
          · have hlength := congrArg List.length (hwritten.symm.trans hkept)
            rw [List.length_cons] at hlength
            omega
          · exact hrewritten.version
        · rcases hcommits with ⟨read, hread⟩ | hrestoring
          · exact .inl ((h.fits p).read_eq hread ▸ hread)
          · exact .inr hrestoring
    | handle | aside | elsewhere | shutdown | halt => exact .inl ⟨rfl, rfl⟩
  | fails fails => cases fails <;> exact .inl ⟨rfl, rfl⟩

/-- At most one is inside the lock of each dag. Those who are inside are those whose acts need the
lock; whoever is about to write has read the stored record, so that no write is refused for its
version; and whatever is stored is stored by one of them, over the record that he has read, or, when
tasks are recovered, in one go with reading it. -/
theorem serialized (h : g.Reached) :
    (∀ x y a b, g.locks.stands x = .inside a → g.locks.stands y = .inside b → x.1 = y.1 → x = y) ∧
      (∀ p, (g.posts p).inside = true ↔ ∃ a, g.locks.stands (g.dag, p) = .inside a) ∧
      (∀ p read, p.Commits (g.posts p) read → read = g.common.record ∧
        ∀ common post, Act p g.common (g.posts p) common post →
          common.written = (p, common.record) :: g.common.written) ∧
      ∀ g', g.Step g' →
        g'.common.record = g.common.record ∧ g'.common.written = g.common.written ∨
          ∃ p, g'.common.written = (p, g'.common.record) :: g.common.written ∧
            (g.posts p).inside = true ∧
            g'.common.record.version = g.common.record.version + 1 ∧
            (p.Commits (g.posts p) g.common.record ∨ ∃ left, g.posts p = .restoring left) := by
  have hgrounded := h.grounded
  refine ⟨fun x y a b hx hy hsame => hgrounded.locks.exclusive hx hy hsame, hgrounded.inside_iff,
    fun p read hcommits => ?_, fun g' step => hgrounded.stored step⟩
  have hread := (hgrounded.fits p).read_eq hcommits
  refine ⟨hread, fun common post act => act.written_of_commits hcommits ?_⟩
  rw [hread]

/-- The loop is about to write, under the second mutex that was made for the dag, for which a
command waits. -/
theorem serialized_remade :
    Sample.remade.Reached ∧ Sample.remade.locks.entries Sample.dag.id = some 1 ∧
      Sample.remade.locks.stands (Sample.dag.id, .caller 1) = .keeping 1 ∧
      (∀ y b, Sample.remade.locks.stands y = .inside b → Sample.dag.id = y.1 →
        (Sample.dag.id, .loop 0) = y) ∧
      Sample.dag = Sample.remade.common.record ∧
      ∀ common post,
        Act (.loop 0) Sample.remade.common (Sample.remade.posts (.loop 0)) common post →
          common.written = [(.loop 0, common.record)] := by
  obtain ⟨hexclusive, -, hread, -⟩ := serialized Sample.reached_remade
  have hinside : Sample.remade.locks.stands (Sample.dag.id, .loop 0) = .inside 1 := rfl
  have hcommits : (Process.loop 0).Commits (Sample.remade.posts (.loop 0)) Sample.dag :=
    .move rfl
  obtain ⟨hsame, hwrites⟩ := hread _ _ hcommits
  exact ⟨Sample.reached_remade, rfl, rfl, fun y b hy => hexclusive _ y 1 b hinside hy, hsame,
    hwrites⟩

end Guarded

end Stagewise
