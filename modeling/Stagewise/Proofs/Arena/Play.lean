import Stagewise.Proofs.Arena.Basic
import Stagewise.Proofs.Course.Play
/-!
# Playing arenas

The steps of an arena as a function of who acts and of what is decided outside, so that a course of
events can be computed. What is played is a step.
-/

namespace Stagewise

open Relation (ReflTransGen)

/-- What is left open about the next act of a process. -/
inductive Cue where
  /-- The process goes on, at this time, and with this registry if it recovers. -/
  | on (now : Timestamp) (registry : Registry)
  | send
  | reply (i : Nat) (result : EngineResult Outcome)
  | interrupt
  | call (operator : Operator)

namespace Arena

/-- Writes a record in the stead of one that was read, if that is still stored. -/
def swap (c : Common) (p : Process) (read record : Dag) (now : Timestamp) (won lost : Post) :
    Common × Post :=
  if c.record.version = read.version then (c.write p record now, won) else (c, lost)

/-- What a drive loop does next. -/
def loopNext? (g : Nat) (c : Common) : Post → Cue → Option (Common × Post)
  | .checking, .on .. => some (c, if g ∈ c.cancelled then .leaving else .entering)
  | .entering, .on .. => some (c, .stepping)
  | .stepping, .on now _ =>
    if c.record.isRunning then
      match c.record.step now with
      | .ok move => some (c, .moving c.record move)
      | .error _ => some (c, .gone)
    else some (c, .leaving)
  | .moving read move, .on later _ =>
    match move.write with
    | some record =>
      some (swap c (.loop g) read record later (.after (record.raised later) move.batch) .checking)
    | none => some (c, .after read move.batch)
  | .waiting b replies, .send =>
    match b.rest with
    | p :: rest =>
      some (c, .waiting { b with sent := b.sent ++ [p], rest := rest } (replies ++ [none]))
    | [] => none
  | .waiting b replies, .reply i result =>
    if replies[i]?.map Option.isNone = some true then
      some (c, .waiting b (replies.set i (some result)))
    else none
  | .waiting b replies, .on .. =>
    if b.rest.isEmpty ∧ replies.all Option.isSome then some (c, .returning b (b.reports replies))
    else none
  | .waiting .., .interrupt => if g ∈ c.cancelled then some (c, .leaving) else none
  | .returning b reports, .on .. => some (c, .reading b reports)
  | .reading b reports, .on now _ =>
    if c.record.isRunning ∧ c.record.stage = b.stage then
      some (c, .folded c.record (c.record.settle reports b.action now).dag)
    else some (c, .checking)
  | .folded read record, .on later _ =>
    some (swap c (.loop g) read record later .checking .checking)
  | .leaving, .on .. => some (c, .deciding)
  | .deciding, .on .. => some (c, if g ∈ c.cancelled then .departing else .considering)
  | .considering, .on .. => some (c, if c.record.isRunning then .checking else .departing)
  | .departing, .on .. => some (c.deregister g, .gone)
  | _, _ => none

/-- What a caller does next. -/
def callerNext? (n : Nat) (c : Common) : Post → Cue → Option (Common × Post)
  | .idle, .call operator => some (c, .commanding operator)
  | .idle, .on .. =>
    if c.record.isRunning then some (c, .found c.record.interrupted)
    else some ({ c with attended := true }, .idle)
  | .commanding operator, .on .. => some (c, .commanded operator)
  | .commanded operator, .on now _ =>
    match c.record.command operator now with
    | .ok (record, _) => some (c, .prepared operator c.record record)
    | .error _ => some (c, .idle)
  | .prepared operator read record, .on later _ =>
    some (swap c (.caller n) read record later (.committed operator) .idle)
  | .committed .cancel, .on .. => some ({ c with entry := none }, .revoking c.entry)
  | .committed _, .on .. => some (c.spawn, .idle)
  | .revoking (some g), .on .. => some (c.cancel g, .idle)
  | .revoking none, .on .. => some (c, .idle)
  | .submitted, .on .. => some (c, .starting)
  | .found left, .on .. => some (c, .restoring left)
  | .restoring (t :: left), .on now registry =>
    some (c.write (.caller n)
      (c.record.modifyTask t.id (Store.withStatus (registry.recovered t).1 now)) now,
      .restoring left)
  | .restoring [], .on .. => some (c, .starting)
  | .starting, .on .. => some ({ c.spawn with attended := true }, .idle)
  | _, _ => none

def next? (c : Common) : Process → Post → Cue → Option (Common × Post)
  | .loop g => loopNext? g c
  | .caller n => callerNext? n c

variable {c c' : Common} {p : Process} {post post' : Post} {cue : Cue}

theorem act_of_loopNext {g : Nat} (h : loopNext? g c post cue = some (c', post')) :
    Act (.loop g) c post c' post' := by
  cases post with
  | checking =>
    cases cue with
    | on =>
      cases h
      split
      · exact .giveUp ‹_›
      · exact .goOn ‹_›
    | _ => cases h
  | entering =>
    cases cue with
    | on =>
      cases h
      exact .enter
    | _ => cases h
  | stepping =>
    cases cue with
    | on now =>
      simp only [loopNext?] at h
      split at h
      · next running =>
        split at h
        · next step =>
          cases h
          exact .choose now running step
        · next step =>
          cases h
          exact .breakOff now running step
      · next ended =>
        cases h
        exact .rest ended
    | _ => cases h
  | moving read move =>
    cases cue with
    | on later =>
      simp only [loopNext?] at h
      split at h
      · next write =>
        simp only [swap] at h
        split at h
        · next same =>
          cases h
          exact .write later write same
        · next other =>
          cases h
          exact .miss write other
      · next nothing =>
        cases h
        exact .pass nothing
    | _ => cases h
  | waiting b replies =>
    cases cue with
    | on =>
      simp only [loopNext?] at h
      split at h
      · next all =>
        cases h
        exact .collect (List.isEmpty_iff.mp all.1) (List.all_eq_true.mp all.2)
      · cases h
    | send =>
      simp only [loopNext?] at h
      split at h
      · next next =>
        cases h
        exact .send next
      · cases h
    | reply i result =>
      simp only [loopNext?] at h
      split at h
      · next due =>
        cases h
        refine .reply result ?_
        obtain ⟨r, hr, hnone⟩ := Option.map_eq_some_iff.mp due
        rw [hr, Option.isNone_iff_eq_none.mp hnone]
      · cases h
    | interrupt =>
      simp only [loopNext?] at h
      split at h
      · next cancelled =>
        cases h
        exact .interrupt cancelled
      · cases h
    | call => cases h
  | returning b reports =>
    cases cue with
    | on =>
      cases h
      exact .reenter
    | _ => cases h
  | reading b reports =>
    cases cue with
    | on now =>
      simp only [loopNext?] at h
      split at h
      · next goes =>
        cases h
        exact .fold now goes.1 goes.2
      · next changed =>
        cases h
        exact .drop changed
    | _ => cases h
  | folded read record =>
    cases cue with
    | on later =>
      simp only [loopNext?, swap] at h
      split at h
      · next same =>
        cases h
        exact .settle later same
      · next other =>
        cases h
        exact .missFold other
    | _ => cases h
  | leaving =>
    cases cue with
    | on =>
      cases h
      exact .leave
    | _ => cases h
  | deciding =>
    cases cue with
    | on =>
      cases h
      split
      · exact .confirm ‹_›
      · exact .consider ‹_›
    | _ => cases h
  | considering =>
    cases cue with
    | on =>
      cases h
      split
      · exact .again ‹_›
      · exact .quit ‹_›
    | _ => cases h
  | departing =>
    cases cue with
    | on =>
      cases h
      exact .depart
    | _ => cases h
  | _ => cases h

theorem act_of_callerNext {n : Nat} (h : callerNext? n c post cue = some (c', post')) :
    Act (.caller n) c post c' post' := by
  cases post with
  | idle =>
    cases cue with
    | on =>
      simp only [callerNext?] at h
      split at h
      · next running =>
        cases h
        exact .find running
      · next ended =>
        cases h
        exact .skip ended
    | call operator =>
      cases h
      exact .call operator
    | _ => cases h
  | commanding operator =>
    cases cue with
    | on =>
      cases h
      exact .attend
    | _ => cases h
  | commanded operator =>
    cases cue with
    | on now =>
      simp only [callerNext?] at h
      split at h
      · next accepted =>
        cases h
        exact .prepare now accepted
      · next refused =>
        cases h
        exact .refuse now refused
    | _ => cases h
  | prepared operator read record =>
    cases cue with
    | on later =>
      simp only [callerNext?, swap] at h
      split at h
      · next same =>
        cases h
        exact .commit later same
      · next other =>
        cases h
        exact .missCommand other
    | _ => cases h
  | committed operator =>
    cases cue with
    | on =>
      cases operator with
      | cancel =>
        cases h
        exact .revoke
      | _ =>
        cases h
        exact .start (by simp)
    | _ => cases operator <;> cases h
  | revoking o =>
    cases cue with
    | on =>
      cases o with
      | none =>
        cases h
        exact .release
      | some g =>
        cases h
        exact .cancel
    | _ => cases o <;> cases h
  | submitted =>
    cases cue with
    | on =>
      cases h
      exact .begin
    | _ => cases h
  | found left =>
    cases cue with
    | on =>
      cases h
      exact .restore
    | _ => cases h
  | restoring left =>
    cases cue with
    | on now registry =>
      cases left with
      | nil =>
        cases h
        exact .restored
      | cons t left =>
        cases h
        exact .recover registry now
    | _ => cases left <;> cases h
  | starting =>
    cases cue with
    | on =>
      cases h
      exact .serve
    | _ => cases h
  | _ => cases h

theorem act_of_next (h : next? c p post cue = some (c', post')) : Act p c post c' post' := by
  cases p with
  | loop g => exact act_of_loopNext h
  | caller n => exact act_of_callerNext h

/-- What happens next: a process acts, or something happens to all of them. -/
inductive Turn where
  | act (p : Process) (cue : Cue)
  | elsewhere
  | shutdown
  | halt

instance (s : Arena) (p : Process) : Decidable (s.Present p) :=
  match p with
  | .loop g => inferInstanceAs (Decidable (g ∈ s.common.started))
  | .caller _ => isTrue trivial

/-- The arena after a turn, if that can happen now. -/
def after? (s : Arena) : Turn → Option Arena
  | .act p cue =>
    match next? s.common p (s.posts p) cue with
    | some (c, post) =>
      if s.Present p ∧ ((s.posts p).inside = true ∨ post.inside = false ∨ s.lock = none) then
        some (s.moved p c post)
      else none
    | none => none
  | .elsewhere => some { s with common.next := s.common.next + 1 }
  | .shutdown => some { s with common := s.common.shutdown }
  | .halt => some ⟨s.common.halt, none, unmoved⟩

def play? (s : Arena) (turns : List Turn) : Option Arena := turns.foldlM after? s

variable {s s' : Arena}

theorem goes_of_after {turn : Turn} (h : s.after? turn = some s') (goesOn : turn ≠ .halt) :
    Goes s s' := by
  cases turn with
  | act p cue =>
    simp only [after?] at h
    split at h
    · next next =>
      split at h
      · next may =>
        obtain rfl := Option.some.inj h
        refine .act may.1 (act_of_next next) fun hout hin => ?_
        rcases may.2 with hinside | houtside | hfree
        · rw [hout] at hinside
          cases hinside
        · rw [hin] at houtside
          cases houtside
        · exact hfree
      · cases h
    · cases h
  | elsewhere =>
    obtain rfl := Option.some.inj h
    exact .elsewhere
  | shutdown =>
    obtain rfl := Option.some.inj h
    exact .shutdown
  | halt => exact absurd rfl goesOn

theorem step_of_after {turn : Turn} (h : s.after? turn = some s') : Step s s' := by
  cases turn with
  | halt =>
    obtain rfl := Option.some.inj h
    exact .halt
  | _ => exact .goes (goes_of_after h nofun)

theorem run_of_play {turns : List Turn} (hplay : s.play? turns = some s') :
    ReflTransGen Step s s' :=
  holds_of_foldlM (fun _ _ _ run hafter => .tail run (step_of_after hafter)) .refl hplay

/-- What is played is a run of the process of the system, unless that stops. -/
theorem goes_of_play {turns : List Turn} (hplay : s.play? turns = some s')
    (goesOn : ∀ turn ∈ turns, turn ≠ .halt) : ReflTransGen Goes s s' := by
  induction turns generalizing s with
  | nil =>
    obtain rfl := Option.some.inj hplay
    exact .refl
  | cons turn turns ih =>
    rw [play?, List.foldlM_cons] at hplay
    obtain ⟨s₁, hafter, hrest⟩ := Option.bind_eq_some_iff.mp hplay
    have hgoes := goes_of_after hafter (goesOn turn List.mem_cons_self)
    exact .head hgoes (ih hrest fun turn hturn => goesOn turn (List.mem_cons_of_mem _ hturn))

theorem Reached.run (h : s.Reached) (run : ReflTransGen Step s s') : s'.Reached := by
  induction run with
  | refl => exact h
  | tail _ step ih => exact .next ih step

/-- What is played on from what can come of a submission can come of it as well. -/
theorem Reached.play (h : s.Reached) {turns : List Turn} (hplay : s.play? turns = some s') :
    s'.Reached := h.run (run_of_play hplay)

end Arena

namespace Sample

/-- The arena that is played from the submission on, or the submission alone if it cannot be
played. -/
def arena (turns : List Arena.Turn) : Arena :=
  ((Arena.submission dag).play? turns).getD (Arena.submission dag)

theorem reached (turns : List Arena.Turn) : (arena turns).Reached := by
  have built : spec.build registry ids dawn = .ok dag := rfl
  have hstart : (Arena.submission dag).Reached := .submission fresh built
  rw [arena]
  cases hplay : (Arena.submission dag).play? turns with
  | none => exact hstart
  | some s => exact hstart.play hplay

def go (p : Process) : Arena.Turn := .act p (.on dawn registry)

def answer (id : TaskId) (status : TaskStatus) : EngineResult Outcome :=
  .ok ⟨id, worker, status, none, TaskContext.new worker, []⟩

/-- The dag is submitted, and its first stage is sent out. -/
def launched : List Arena.Turn :=
  [go (.caller 0), go (.caller 0), go (.loop 0), go (.loop 0), go (.loop 0), go (.loop 0),
   .act (.loop 0) .send, .act (.loop 0) .send]

/-- One of the tasks fails, so that the dag is parked and its loop is about to leave. -/
def parked : List Arena.Turn :=
  launched ++
    [.act (.loop 0) (.reply 0 (answer (ids.task 0 0) .failed)),
     .act (.loop 0) (.reply 1 (answer (ids.task 0 1) .succeeded)), go (.loop 0), go (.loop 0),
     go (.loop 0), go (.loop 0), go (.loop 0), go (.loop 0), go (.loop 0), go (.loop 0),
     go (.loop 0), go (.loop 0), go (.loop 0)]

/-- An operator gets ahead of the loop and retries. -/
def retried : List Arena.Turn :=
  parked ++ [.act (.caller 1) (.call .retry), go (.caller 1), go (.caller 1), go (.caller 1),
    go (.caller 1)]

end Sample

end Stagewise
