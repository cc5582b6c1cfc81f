import Stagewise.Proofs.Arena.Order
/-!
# What one process does while no other comes in

Several acts of one process in a row are a run of the arena, as long as nobody stands in its way. In
such a run nobody else writes. A drive loop that is alone sends its stage out and takes the answers
one after another.
-/

namespace Stagewise

open Relation (ReflTransGen)

/-- What a process does in several acts. -/
def Acts (p : Process) (c : Common) (post : Post) (c' : Common) (post' : Post) : Prop :=
  ReflTransGen (fun x y : Common × Post => Act p x.1 x.2 y.1 y.2) (c, post) (c', post')

namespace Acts

variable {p : Process} {c c₁ c' : Common} {post post₁ post' : Post}

theorem refl : Acts p c post c post := ReflTransGen.refl

theorem head (h : Act p c post c₁ post₁) (rest : Acts p c₁ post₁ c' post') :
    Acts p c post c' post' := ReflTransGen.head (b := (c₁, post₁)) h rest

theorem trans (h : Acts p c post c₁ post₁) (rest : Acts p c₁ post₁ c' post') :
    Acts p c post c' post' := ReflTransGen.trans h rest

theorem single (h : Act p c post c' post') : Acts p c post c' post' := head h refl

end Acts

namespace Act

variable {p : Process} {c c' : Common} {post post' : Post}

theorem started_mono (act : Act p c post c' post') {g : Nat} (h : g ∈ c.started) :
    g ∈ c'.started := by
  cases act with
  | start | serve =>
    simp only [Common.spawn]
    split
    · exact h
    · exact List.mem_cons_of_mem _ h
  | _ => exact h

theorem cancelled_mono (act : Act p c post c' post') {g : Nat} (h : g ∈ c.cancelled) :
    g ∈ c'.cancelled := by
  cases act with
  | start | serve =>
    simp only [Common.spawn]
    split <;> exact h
  | cancel => exact List.mem_cons_of_mem _ h
  | _ => exact h

/-- A process leaves the record as it is, or it is down as the one who wrote it. -/
theorem wrote (act : Act p c post c' post') :
    c'.record = c.record ∧ c'.written = c.written ∨
      c'.written = (p, c'.record) :: c.written := by
  cases act with
  | start | serve =>
    simp only [Common.spawn]
    split <;> exact .inl ⟨rfl, rfl⟩
  | write | settle | commit | recover => exact .inr rfl
  | _ => exact .inl ⟨rfl, rfl⟩

end Act

namespace Arena

variable {s s' : Arena}

/-- Something happens, and nobody but this process writes. -/
def WritesOnly (p : Process) (s s' : Arena) : Prop :=
  Goes s s' ∧ (s'.common.record = s.common.record ∧ s'.common.written = s.common.written ∨
    s'.common.written = (p, s'.common.record) :: s.common.written)

/-- What a process does while no other comes in is a run of the arena. -/
theorem run_of_acts {p : Process} {c : Common} {post : Post} (present : s.Present p)
    (lock : s.lock = if (s.posts p).inside then some p else none)
    (acts : Acts p s.common (s.posts p) c post) :
    ∃ s', ReflTransGen (WritesOnly p) s s' ∧ s'.common = c ∧
      s'.posts = Function.update s.posts p post := by
  generalize hstart : (s.common, s.posts p) = start at acts
  generalize hfinish : (c, post) = finish at acts
  rw [Acts, hstart, hfinish] at acts
  induction acts using ReflTransGen.head_induction_on generalizing s with
  | refl =>
    obtain ⟨rfl, rfl⟩ := Prod.mk.inj (hstart.trans hfinish.symm)
    exact ⟨s, .refl, rfl, (Function.update_eq_self ..).symm⟩
  | @head before after act _ ih =>
    obtain ⟨c₁, post₁⟩ := after
    subst hstart
    have hlock : (s.moved p c₁ post₁).lock
        = if ((s.moved p c₁ post₁).posts p).inside then some p else none := by
      rw [moved_posts_self, moved, lock]
      cases post₁.inside <;> cases (s.posts p).inside <;> rfl
    have hpresent : (s.moved p c₁ post₁).Present p := by
      cases p with
      | loop g => exact act.started_mono present
      | caller n => trivial
    have hgoes : Goes s (s.moved p c₁ post₁) := .act present act fun hout _ => by simp [lock, hout]
    obtain ⟨s', hrun, hcommon, hposts⟩ := ih hpresent hlock (by rw [moved_posts_self]; rfl)
    refine ⟨s', .head ⟨hgoes, act.wrote⟩ hrun, hcommon, ?_⟩
    rw [hposts, moved, Function.update_idem]

end Arena

/-! ## A drive loop sees a stage through -/

variable (c : Common) (g : Nat) (b : Barrier)

theorem send_acts (action : Action) (stage : Nat) (sent rest : List (Agent × DispatchRequest)) :
    Acts (.loop g) c (.waiting ⟨action, stage, sent, rest⟩ (sent.map fun _ => none)) c
      (.waiting ⟨action, stage, sent ++ rest, []⟩ ((sent ++ rest).map fun _ => none)) := by
  induction rest generalizing sent with
  | nil =>
    rw [List.append_nil]
    exact .refl
  | cons p rest ih =>
    have hnext := ih (sent ++ [p])
    rw [List.append_assoc, List.singleton_append] at hnext
    refine .head ?_ hnext
    rw [List.map_append, List.map_singleton]
    exact .send rfl

/-- A reply is the result, or may still come to be it. -/
def MayBecome (reply : Option (EngineResult Outcome)) (result : EngineResult Outcome) : Prop :=
  reply = none ∨ reply = some result

theorem reply_acts {replies : List (Option (EngineResult Outcome))}
    {results : List (EngineResult Outcome)} (may : List.Forall₂ MayBecome replies results)
    (had : List (Option (EngineResult Outcome))) :
    Acts (.loop g) c (.waiting b (had ++ replies)) c
      (.waiting b (had ++ results.map some)) := by
  induction may generalizing had with
  | nil => exact .refl
  | @cons reply result replies results hreply _ ih =>
    have hnext := ih (had ++ [some result])
    rw [List.append_assoc, List.append_assoc, List.singleton_append, List.singleton_append] at hnext
    rcases hreply with rfl | rfl
    · have hdue : (had ++ none :: replies)[had.length]? = some none := by simp
      have hset : (had ++ none :: replies).set had.length (some result)
          = had ++ some result :: replies := by simp
      refine .head ?_ hnext
      rw [← hset]
      exact .reply result hdue
    · exact hnext

/-- A drive loop that is alone takes the answers of its stage and has the reports. -/
theorem collect_acts {replies : List (Option (EngineResult Outcome))}
    {results : List (EngineResult Outcome)} (out : b.rest = [])
    (may : List.Forall₂ MayBecome replies results) :
    Acts (.loop g) c (.waiting b replies) c (.returning b (b.reports (results.map some))) :=
  (reply_acts c g b may []).trans (.single (.collect out (by simp)))

end Stagewise
