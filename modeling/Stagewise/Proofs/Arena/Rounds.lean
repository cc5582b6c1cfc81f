import Stagewise.Proofs.Arena.Guarded
import Stagewise.Proofs.Arena.Play
/-!
# Playing dags with their locks

The steps of those who work on a dag under its lock, as a function of who takes one. What is played
is a step. A run is played in which the mutex of the dag is forgotten and another one made.
-/

namespace Stagewise

namespace Locks

variable {κ π : Type} [DecidableEq κ] [DecidableEq π]

/-- What one does next about a reference. One who is away comes to ask for one, or to forget the
mutex. -/
def handle? (l : Locks κ π) (x : κ × π) (prune : Bool) : Option (Locks κ π) :=
  match l.stands x with
  | .away => some (l.stand x (if prune then .pruning else .asking))
  | .asking => if l.map.isNone then some { l.stand x .fetching with map := some x } else none
  | .fetching =>
    match l.entries x.1 with
    | some a => some ((l.refer a ((l.mutexes a).references + 1)).stand x (.handing a))
    | none => some ((l.make x.1).stand x (.handing l.next))
  | .handing a => some { l.stand x (.keeping a) with map := none }
  | .spent a => some ((l.refer a ((l.mutexes a).references - 1)).stand x .away)
  | .pruning => if l.map.isNone then some { l.stand x .looking with map := some x } else none
  | .looking =>
    match l.entries x.1 with
    | some a =>
      some (l.stand x (if (l.mutexes a).references = 1 then .removing else .closing))
    | none => some (l.stand x .closing)
  | .removing =>
    match l.entries x.1 with
    | some a => some (((l.refer a ((l.mutexes a).references - 1)).forget x.1).stand x .closing)
    | none => none
  | .closing => some { l.stand x .away with map := none }
  | .keeping _ | .inside _ => none

/-- What one does with a reference to have this much in hand afterwards. -/
def grip? (l : Locks κ π) (x : κ × π) (before after : Grip) : Option (Locks κ π) :=
  match before, after, l.stands x with
  | .mutex, .mutex, _ | .reference, .reference, _ | .nothing, .nothing, .away => some l
  | .mutex, .reference, .inside a => some ((l.hold a none).stand x (.keeping a))
  | .mutex, .nothing, .inside a => some ((l.hold a none).stand x (.spent a))
  | .reference, .nothing, .keeping a => some (l.stand x (.spent a))
  | .reference, .mutex, .keeping a | .nothing, .mutex, .keeping a =>
    if (l.mutexes a).holder.isNone then some ((l.hold a (some x)).stand x (.inside a)) else none
  | _, _, _ => none

variable {l l' : Locks κ π} {x : κ × π} {prune : Bool} {before after : Grip}

theorem handles_of_handle (h : l.handle? x prune = some l') : Handles x l l' := by
  cases hstand : l.stands x with
  | away =>
    simp only [handle?, hstand] at h
    cases h
    split
    · exact .prune hstand
    · exact .ask hstand
  | asking =>
    simp only [handle?, hstand] at h
    split at h
    · next free =>
      cases h
      exact .take hstand (Option.isNone_iff_eq_none.mp free)
    · cases h
  | fetching =>
    simp only [handle?, hstand] at h
    split at h
    · next entry =>
      cases h
      exact .find hstand entry
    · next missing =>
      cases h
      exact .make hstand missing
  | handing a =>
    simp only [handle?, hstand] at h
    cases h
    exact .hand hstand
  | spent a =>
    simp only [handle?, hstand] at h
    cases h
    exact .drop hstand
  | pruning =>
    simp only [handle?, hstand] at h
    split at h
    · next free =>
      cases h
      exact .look hstand (Option.isNone_iff_eq_none.mp free)
    · cases h
  | looking =>
    simp only [handle?, hstand] at h
    split at h
    · next entry =>
      cases h
      split
      · next last => exact .condemn hstand entry last
      · next needed =>
        refine .spare hstand fun b hb => ?_
        obtain rfl := Option.some.inj (entry.symm.trans hb)
        exact needed
    · next missing =>
      cases h
      refine .spare hstand fun b hb => ?_
      cases missing.symm.trans hb
  | removing =>
    simp only [handle?, hstand] at h
    split at h
    · next entry =>
      cases h
      exact .remove hstand entry
    · cases h
  | closing =>
    simp only [handle?, hstand] at h
    cases h
    exact .close hstand
  | keeping a | inside a =>
    simp only [handle?, hstand] at h
    cases h

theorem grips_of_grip (h : l.grip? x before after = some l') : Grips x l before after l' := by
  unfold grip? at h
  split at h
  · cases h
    exact .stay
  · cases h
    exact .keep
  · next away =>
    cases h
    exact .rest away
  · next inside =>
    cases h
    exact .pause inside
  · next inside =>
    cases h
    exact .leave inside
  · next keeping =>
    cases h
    exact .discard keeping
  · next keeping =>
    split at h
    · next free =>
      cases h
      exact .enter nofun keeping (Option.isNone_iff_eq_none.mp free)
    · cases h
  · next keeping =>
    split at h
    · next free =>
      cases h
      exact .enter nofun keeping (Option.isNone_iff_eq_none.mp free)
    · cases h
  · cases h

end Locks

namespace Guarded

/-- A process acts, or does something about its reference to the mutex. -/
inductive Turn where
  | act (p : Process) (cue : Cue)
  | handle (p : Process) (prune : Bool)

/-- What comes of a turn, if it can be taken now. -/
def after? (g : Guarded) : Turn → Option Guarded
  | .act p cue =>
    match Arena.next? g.common p (g.posts p) cue with
    | some (c, post) =>
      if g.arena.Present p then
        (g.locks.grip? (g.dag, p) (g.posts p).grip post.grip).map (g.moved p c post)
      else none
    | none => none
  | .handle p prune =>
    match g.locks.handle? (g.dag, p) prune with
    | some locks =>
      if (locks.stands (g.dag, p) = .asking → (g.posts p).asks = true) ∧
          (locks.stands (g.dag, p) = .pruning → (g.posts p).rests = true) then
        some { g with locks }
      else none
    | none => none

def play? (g : Guarded) (turns : List Turn) : Option Guarded := turns.foldlM after? g

variable {g g' : Guarded}

theorem step_of_after {turn : Turn} (h : g.after? turn = some g') : g.Step g' := by
  cases turn with
  | act p cue =>
    simp only [after?] at h
    split at h
    · next next =>
      split at h
      · next present =>
        obtain ⟨locks, hgrip, rfl⟩ := Option.map_eq_some_iff.mp h
        exact .works (.act present (Arena.act_of_next next) (Locks.grips_of_grip hgrip))
      · cases h
    · cases h
  | handle p prune =>
    simp only [after?] at h
    split at h
    · next handle =>
      split at h
      · next may =>
        cases h
        exact .works (.handle (Locks.handles_of_handle handle) may.1 may.2)
      · cases h
    · cases h

/-- What is played on from what can come of a submission can come of it as well. -/
theorem Reached.play (h : g.Reached) {turns : List Turn} (hplay : g.play? turns = some g') :
    g'.Reached :=
  holds_of_foldlM (fun _ _ _ h hafter => .next h (step_of_after hafter)) h hplay

end Guarded

namespace Sample

/-- The dag is stored, and there are no locks. -/
def stored : Guarded :=
  ⟨dag.id, (Arena.submission dag).common, (Arena.submission dag).posts, .empty⟩

def seek (p : Process) : List Guarded.Turn := List.replicate 4 (.handle p false)

/-- The submission starts a loop and drops its lock, a caller has that forgotten, and both the loop
and a command ask for the lock of the dag again. The loop gets it and makes up its mind. -/
def remaking : List Guarded.Turn :=
  seek (.caller 0) ++
    [.act (.caller 0) (.on dawn registry), .act (.caller 0) (.on dawn registry),
     .handle (.caller 0) false] ++
    List.replicate 5 (.handle (.caller 1) true) ++
    [.act (.loop 0) (.on dawn registry), .act (.caller 1) (.call .cancel)] ++
    seek (.loop 0) ++ seek (.caller 1) ++
    [.act (.loop 0) (.on dawn registry), .act (.loop 0) (.on dawn registry)]

def remade : Guarded := (stored.play? remaking).getD stored

theorem reached_remade : remade.Reached := by
  have built : spec.build registry ids dawn = .ok dag := rfl
  have hstart : stored.Reached := .submission fresh built .empty fun _ => rfl
  have hplay : stored.play? remaking = some remade := rfl
  exact hstart.play hplay

end Sample

end Stagewise
