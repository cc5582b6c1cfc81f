import Mathlib.Data.List.Chain
import Stagewise.Proofs.Arena.Alone
import Stagewise.Proofs.Arena.Play
import Stagewise.Proofs.Arena.Rewriting
/-!
# The records of a dag

All that was ever stored for a dag, whoever wrote it and whatever happened in between: each record
is written over the one before, and the stage of none of them points beyond the nodes.
-/

namespace Stagewise

open Relation (ReflTransGen)

variable {c c' : Common} {p : Process} {post post' : Post}

/-- Whoever writes has read the record that is stored, and writes another of its plan. -/
theorem Act.rewritten (act : Act p c post c' post') (fits : post.Fits c p)
    (shaped : c.record.Shaped) :
    c'.record = c.record ∧ c'.written = c.written ∨
      c'.written = (p, c'.record) :: c.written ∧ c.record.Rewritten c'.record := by
  cases act with
  | write later write same =>
    obtain ⟨rfl, -, now, hstep⟩ := fits
    exact .inr ⟨rfl, Dag.rewritten_step hstep write later⟩
  | settle later same =>
    obtain ⟨rfl, -, b, reports, now, -, rfl⟩ := fits
    exact .inr ⟨rfl, Dag.rewritten_settle shaped.distinct reports b.action now later⟩
  | commit later same =>
    obtain ⟨rfl, now, lines, haccepted⟩ := fits
    exact .inr ⟨rfl, (Dag.command_cases haccepted).rewritten shaped.distinct later⟩
  | @recover n c t left registry now =>
    have hrestored := Dag.rewritten_modifyTask shaped.distinct t.id
      (f := Store.withStatus (registry.recovered t).1 now) (fun _ => rfl) now
    exact .inr ⟨rfl, hrestored⟩
  | start | serve =>
    simp only [Common.spawn]
    split <;> exact .inl ⟨rfl, rfl⟩
  | _ => exact .inl ⟨rfl, rfl⟩

namespace Arena

variable {s s' : Arena} {d : Dag}

/-- All that was stored for a dag since its submission, the latest first. -/
def records (s : Arena) (d : Dag) : List Dag := s.common.written.map (·.2) ++ [d]

/-- What holds of all that was stored so far. -/
structure Kept (d : Dag) (s : Arena) : Prop where
  orderly : s.Orderly
  latest : (s.records d).head? = some s.common.record
  chain : (s.records d).IsChain fun after before => before.Rewritten after
  shaped : ∀ r ∈ s.records d, r.Shaped

theorem Kept.of_same (h : Kept d s) (orderly : s'.Orderly)
    (record : s'.common.record = s.common.record) (written : s'.common.written = s.common.written) :
    Kept d s' := by
  have hrecords : s'.records d = s.records d := by rw [records, records, written]
  refine ⟨orderly, ?_, ?_, ?_⟩
  · rw [hrecords, record]
    exact h.latest
  · rw [hrecords]
    exact h.chain
  · rw [hrecords]
    exact h.shaped

theorem Kept.of_written (h : Kept d s) (orderly : s'.Orderly)
    (written : s'.common.written = (p, s'.common.record) :: s.common.written)
    (rewritten : s.common.record.Rewritten s'.common.record) : Kept d s' := by
  have hrecords : s'.records d = s'.common.record :: s.records d := by
    rw [records, written]
    rfl
  refine ⟨orderly, ?_, ?_, fun r hr => ?_⟩
  · rw [hrecords]
    rfl
  · rw [hrecords, List.isChain_cons]
    refine ⟨fun before hbefore => ?_, h.chain⟩
    rw [h.latest] at hbefore
    obtain rfl := Option.some.inj hbefore
    exact rewritten
  · rw [hrecords] at hr
    rcases List.mem_cons.mp hr with rfl | hr
    · exact orderly.shaped
    · exact h.shaped r hr

theorem kept_submission (shaped : d.Shaped) : Kept d (submission d) := by
  have horderly : (submission d).Orderly := .of_outside (submission_inside _) rfl shaped
  refine ⟨horderly, rfl, List.isChain_singleton d, fun r hr => ?_⟩
  obtain rfl := List.mem_singleton.mp hr
  exact shaped

theorem Kept.step (h : Kept d s) (step : Step s s') : Kept d s' := by
  have horderly := h.orderly.step step
  cases step with
  | goes goes =>
    cases goes with
    | @act p common post present act free =>
      rcases act.rewritten (h.orderly.fits p) h.orderly.shaped with ⟨hrecord, hwritten⟩ | hwrote
      · exact h.of_same horderly hrecord hwritten
      · exact h.of_written horderly hwrote.1 hwrote.2
    | elsewhere => exact h.of_same horderly rfl rfl
    | shutdown => exact h.of_same horderly rfl rfl
  | halt => exact h.of_same horderly rfl rfl

/-- Of all that was ever stored for a dag, each record is written over the one before, the last one
is the one that is stored, and the stage of each is that of one of its nodes. -/
theorem records_of_run {registry : Registry} {ids : FreshIds} {spec : DagSpec} {now : Timestamp}
    (fresh : ids.DistinctFor spec) (built : spec.build registry ids now = .ok d)
    (run : ReflTransGen Step (submission d) s) :
    (s.records d).head? = some s.common.record ∧
      ((s.records d).IsChain fun after before => before.Rewritten after) ∧
      ∀ r ∈ s.records d, 1 ≤ r.stage ∧ r.stage ≤ r.maxStage ∧ r.maxStage = r.nodes.length ∧
        r.Navigable := by
  have hkept : Kept d s := by
    induction run with
    | refl => exact kept_submission (DagSpec.build_sound fresh built).shaped
    | tail _ step ih => exact ih.step step
  refine ⟨hkept.latest, hkept.chain, fun r hr => ?_⟩
  have hshaped := hkept.shaped r hr
  exact ⟨hshaped.stage_pos, hshaped.stage_le, hshaped.maxStage_eq, hshaped.navigable⟩

end Arena

namespace Sample

/-- The first stage ends well, the dag goes on to the next, and is cancelled there. -/
def advanced : List Arena.Turn :=
  launched ++
    [.act (.loop 0) (.reply 0 (answer (ids.task 0 0) .succeeded)),
     .act (.loop 0) (.reply 1 (answer (ids.task 0 1) .succeeded)), go (.loop 0), go (.loop 0),
     go (.loop 0), go (.loop 0), go (.loop 0), go (.loop 0), go (.loop 0), go (.loop 0),
     .act (.caller 1) (.call .cancel), go (.caller 1), go (.caller 1), go (.caller 1)]

end Sample

namespace Arena

theorem records_of_run_advanced :
    ((Sample.arena Sample.advanced).records Sample.dag).map (fun r => (r.version, r.stage))
        = [(4, 2), (3, 2), (2, 1), (1, 1), (0, 1)] ∧
      (((Sample.arena Sample.advanced).records Sample.dag).IsChain
        fun after before => before.Rewritten after) ∧
      ∀ r ∈ (Sample.arena Sample.advanced).records Sample.dag, r.Navigable := by
  have built : Sample.spec.build Sample.registry Sample.ids Sample.dawn = .ok Sample.dag := rfl
  have hplay : (submission Sample.dag).play? Sample.advanced
    = some (Sample.arena Sample.advanced) := rfl
  obtain ⟨-, hchain, hall⟩ := records_of_run Sample.fresh built (run_of_play hplay)
  exact ⟨rfl, hchain, fun r hr => (hall r hr).2.2.2⟩

end Arena

end Stagewise
