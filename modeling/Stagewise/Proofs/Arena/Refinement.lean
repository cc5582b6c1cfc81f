import Stagewise.Proofs.Arena.Guarded
/-!
# Locks that come and go are a lock

Under the locks of all dags, those who work on one dag go on as they do in an arena, where the dag
has a lock that is always there. Whatever one does to come by the lock, or to give up a reference to
it, changes nothing there. So what holds of all arenas holds of a dag whose mutex is forgotten and
made again.
-/

namespace Stagewise

open Relation (ReflTransGen)

/-- Who holds the lock is settled by where everyone stands. -/
theorem Arena.Exclusive.lock_eq {s s' : Arena} (h : s.Exclusive) (h' : s'.Exclusive)
    (posts : s'.posts = s.posts) : s'.lock = s.lock := by
  apply Option.ext
  intro p
  rw [← h p, ← h' p, posts]

namespace Guarded

variable {g g' : Guarded} {p : Process} {common : Common} {post : Post}
  {locks : Locks DagId Process}

theorem Grounded.arena_eq (h : g.Grounded) {s : Arena} (exclusive : s.Exclusive)
    (common : g.common = s.common) (posts : g.posts = s.posts) : g.arena = s := by
  have hlock : g.arena.lock = s.lock := exclusive.lock_eq h.orderly.exclusive posts
  obtain ⟨c, lock, f⟩ := s
  obtain rfl : g.common = c := common
  obtain rfl : g.posts = f := posts
  obtain rfl : g.arena.lock = lock := hlock
  rfl

/-- Whatever happens is a step of the arena, or nothing at all to it. -/
theorem Grounded.simulated (h : g.Grounded) (works : g.Works g') :
    g'.arena = g.arena ∨ Arena.Step g.arena g'.arena := by
  have hnext := h.works works
  cases works with
  | act present act grips =>
    have hgoes := h.goes present act grips
    have harena := hnext.arena_eq (h.orderly.goes hgoes).exclusive rfl rfl
    rw [harena]
    exact .inr (.goes hgoes)
  | handle | aside => exact .inl (hnext.arena_eq h.orderly.exclusive rfl rfl)
  | elsewhere => exact .inr (.goes .elsewhere)
  | shutdown => exact .inr (.goes .shutdown)
  | halt => exact .inr .halt

theorem Grounded.run_simulated (h : g.Grounded) (run : ReflTransGen Works g g') :
    g'.Grounded ∧ ReflTransGen Arena.Step g.arena g'.arena := by
  induction run with
  | refl => exact ⟨h, .refl⟩
  | tail _ works ih =>
    obtain ⟨hgrounded, hrun⟩ := ih
    refine ⟨hgrounded.works works, ?_⟩
    rcases hgrounded.simulated works with hsame | hstep
    · rw [hsame]
      exact hrun
    · exact .tail hrun hstep

/-- What comes of a submission under the locks of all dags comes of it in an arena. -/
theorem run_of_works {registry : Registry} {ids : FreshIds} {spec : DagSpec} {now : Timestamp}
    {d : Dag} (fresh : ids.DistinctFor spec) (built : spec.build registry ids now = .ok d)
    (reached : locks.Reached) (away : ∀ p, locks.stands (d.id, p) = .away)
    (run : ReflTransGen Works
      ⟨d.id, (Arena.submission d).common, (Arena.submission d).posts, locks⟩ g) :
    ReflTransGen Arena.Step (Arena.submission d) g.arena := by
  have hshaped := (DagSpec.build_sound fresh built).shaped
  have hgrounded := (Reached.submission fresh built reached away).grounded
  have horderly : (Arena.submission d).Orderly :=
    .of_outside (Arena.submission_inside d) rfl hshaped
  have hstart := hgrounded.arena_eq horderly.exclusive rfl rfl
  have hrun := (hgrounded.run_simulated run).2
  rwa [hstart] at hrun

end Guarded

end Stagewise
