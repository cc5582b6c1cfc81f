import Stagewise.Proofs.Arena.Regular
import Stagewise.Proofs.Arena.Shutdown
/-!
# Arenas trace courses

What everyone does to a dag, step by step and in any order, comes to a course of the dag: the steps
of its one drive loop, the commands and the recoveries follow one another, and the stage that a loop
has out is the one that the course has out. So whatever holds of all courses holds of a dag on which
many are at work.
-/

namespace Stagewise

open Relation (ReflTransGen)

variable {c c' : Common} {p : Process} {post post' : Post} {b : Barrier}

/-- The stage that a loop has out or is about to fold in. -/
inductive Post.Holds (b : Barrier) : Post → Prop where
  | waiting {replies : List (Option (EngineResult Outcome))}
      (matched : replies.length = b.sent.length) : Holds b (.waiting b replies)
  | returning {reports : List Report} (answered : b.Answered reports) :
      Holds b (.returning b reports)
  | reading {reports : List Report} (answered : b.Answered reports) : Holds b (.reading b reports)
  | folded {read : Dag} {reports : List Report} (now : Timestamp) (answered : b.Answered reports)
      (stage : read.stage = b.stage) :
      Holds b (.folded read (read.settle reports b.action now).dag)

/-- The loop has a stage out or is about to fold it in. -/
def Post.holding : Post → Bool
  | .waiting .. | .returning .. | .reading .. | .folded .. => true
  | _ => false

theorem Post.Holds.holding (h : post.Holds b) : post.holding = true := by
  cases h <;> rfl

/-- A caller at this post is not going to start a loop or to recover the dag. -/
def Post.harmless (post : Post) : Bool := !post.opens && !post.recovers

theorem Post.harmless_iff : post.harmless = true ↔ post.opens = false ∧ post.recovers = false := by
  rw [harmless, Bool.and_eq_true, Bool.not_eq_true', Bool.not_eq_true']

namespace Arena

variable {s s' : Arena} {g : Nat}

/-- Every loop that is at work has been told to end and writes nothing any more. -/
def Ending (s : Arena) : Prop :=
  s.common.shut = true ∧ ∀ g, s.AtWork g → Ends (s.posts (.loop g)) ∧ g ∈ s.common.cancelled

/-- Everyone stands where the standing of the course has them. A stage stays out in the course when
its loop gave it up. -/
def Stands (s : Arena) : Standing → Prop
  | .idle => (∀ g, ¬ s.AtWork g) ∧ ∀ n, (s.posts (.caller n)).harmless = true
  | .recovering left =>
    ∃ n, s.posts (.caller n) = .found left ∨ s.posts (.caller n) = .restoring left
  | .ready => (∀ g, s.AtWork g → (s.posts (.loop g)).holding = false) ∧
      ∀ n, (s.posts (.caller n)).recovers = false
  | .barrier b => (∃ g, s.AtWork g ∧ (s.posts (.loop g)).Holds b) ∨ s.Ending

/-- The course comes to the same as what everyone has done. -/
structure Traces (s : Arena) (t : Course) : Prop where
  lived : t.Lived
  record : t.record = s.common.record
  stands : s.common.record.status ≠ .cancelled → s.Stands t.loop

variable {t : Course} {loop : Standing} {n : Nat}

theorem Traces.kept (h : s.Traces t) (record : s'.common.record = s.common.record)
    (stands : s.common.record.status ≠ .cancelled → s'.Stands t.loop) : s'.Traces t where
  lived := h.lived
  record := h.record.trans record.symm
  stands live := stands (record ▸ live)

theorem Traces.next {t' : Course} (h : s.Traces t) (step : Course.Step t t')
    (record : t'.record = s'.common.record) (stands : s'.Stands t'.loop) : s'.Traces t' where
  lived := .next h.lived step
  record := record
  stands _ := stands

/-! ## What a drive loop does -/

theorem Ruled.none_recovers (h : s.Ruled) (work : s.AtWork g) (n : Nat) :
    (s.posts (.caller n)).recovers = false := by
  cases hrecovers : (s.posts (.caller n)).recovers with
  | false => rfl
  | true => exact absurd work (h.regular.alone n hrecovers (.loop g) (by simp))

/-- How the course stands while a loop is at work. -/
theorem Ruled.standing (h : s.Ruled) (live : s.common.record.status ≠ .cancelled)
    (stands : s.Stands loop) (work : s.AtWork g) :
    loop = .ready ∧ (s.posts (.loop g)).holding = false ∨
      ∃ b, loop = .barrier b ∧ ((s.posts (.loop g)).Holds b ∨ s.Ending) := by
  cases loop with
  | idle => exact absurd work (stands.1 g)
  | recovering left =>
    obtain ⟨n, hn⟩ := stands
    have hrecovers := h.none_recovers work n
    rcases hn with hn | hn <;> rw [hn] at hrecovers <;> cases hrecovers
  | ready => exact .inl ⟨rfl, stands.1 g work⟩
  | barrier b =>
    refine .inr ⟨b, rfl, stands.imp ?_ id⟩
    rintro ⟨g', hwork, holds⟩
    rwa [(h.sole live).unique g g' work hwork]

theorem atWork_of_moved {g' : Nat} (work : s.AtWork g) (started : c.started = s.common.started)
    (h : (s.moved (.loop g) c post).AtWork g') : s.AtWork g' := by
  by_cases hg : g' = g
  · rwa [hg]
  · obtain ⟨hstarted, halive⟩ := h
    rw [moved_posts_of_ne (by simpa using hg)] at halive
    exact ⟨started ▸ hstarted, halive⟩

theorem Ruled.stands_ready (h : s.Ruled) (live : s.common.record.status ≠ .cancelled)
    (work : s.AtWork g) (started : c.started = s.common.started) (free : post.holding = false) :
    (s.moved (.loop g) c post).Stands .ready := by
  refine ⟨fun g' hwork => ?_, fun n => ?_⟩
  · rw [(h.sole live).unique g' g (atWork_of_moved work started hwork) work, moved_posts_self]
    exact free
  · rw [moved_posts_of_ne (by simp)]
    exact h.none_recovers work n

theorem stands_barrier (work : s.AtWork g) (started : c.started = s.common.started)
    (holds : post.Holds b) : (s.moved (.loop g) c post).Stands (.barrier b) := by
  refine .inl ⟨g, ⟨started ▸ work.1, ?_⟩, ?_⟩
  · rw [moved_posts_self]
    rintro rfl
    cases holds
  · rw [moved_posts_self]
    exact holds

theorem Ruled.stands_after (h : s.Ruled) (live : s.common.record.status ≠ .cancelled)
    (work : s.AtWork g) (started : c.started = s.common.started) (record : Dag)
    (batch : Option Batch) :
    (s.moved (.loop g) c (.after record batch)).Stands (Course.standingAfter record batch) := by
  cases batch with
  | none => exact h.stands_ready live work started rfl
  | some batch => exact stands_barrier work started (.waiting rfl)

theorem Ruled.stands_ending (h : s.Ruled) (live : s.common.record.status ≠ .cancelled)
    (work : s.AtWork g) (shut : s.common.shut = true) (told : g ∈ s.common.cancelled)
    (started : c.started = s.common.started) (kept : c.shut = s.common.shut)
    (cancelled : c.cancelled = s.common.cancelled) (ends : Ends post) :
    (s.moved (.loop g) c post).Stands (.barrier b) := by
  refine .inr ⟨kept.trans shut, fun g' hwork => ?_⟩
  rw [(h.sole live).unique g' g (atWork_of_moved work started hwork) work, moved_posts_self,
    moved_common, cancelled]
  exact ⟨ends, told⟩

/-- A loop that has nothing out makes a move, or goes from one post to the next. -/
theorem Traces.act_of_ready (h : s.Traces t) (ruled : s.Ruled)
    (live : s.common.record.status ≠ .cancelled) (work : s.AtWork g) (ready : t.loop = .ready)
    (free : (s.posts (.loop g)).holding = false)
    (act : Act (.loop g) s.common (s.posts (.loop g)) c post) :
    ∃ t', (s.moved (.loop g) c post).Traces t' := by
  have hfits := ruled.tended.orderly.fits (.loop g)
  generalize s.posts (.loop g) = before at act free hfits
  cases act with
  | @write _ _ read record move later write same =>
    obtain ⟨rfl, running, now, hstep⟩ := hfits
    rw [← h.record] at running hstep
    refine ⟨t.proceed move later, h.next (.proceed now later ready running hstep) ?_ ?_⟩
    · rw [Course.proceed, write]
      rfl
    · rw [Course.proceed, write]
      exact ruled.stands_after live work rfl _ _
  | @pass _ _ read move nothing =>
    obtain ⟨rfl, running, now, hstep⟩ := hfits
    rw [← h.record] at running hstep
    refine ⟨t.proceed move now, h.next (.proceed now now ready running hstep) ?_ ?_⟩
    · rw [Course.proceed, nothing]
      exact h.record
    · rw [Course.proceed, nothing, ← h.record]
      exact ruled.stands_after live work rfl _ _
  | breakOff now running step => exact absurd step (ruled.tended.orderly.shaped.step_ne_error now _)
  | send | reply | collect | interrupt | reenter | drop | fold | settle | missFold => cases free
  | _ => exact ⟨t, h.kept rfl fun _ => ready ▸ ruled.stands_ready live work rfl rfl⟩

/-- A loop that has a stage out goes on with it, folds it in, or gives it up when it is told to. -/
theorem Traces.act_of_holds (h : s.Traces t) (ruled : s.Ruled)
    (live : s.common.record.status ≠ .cancelled) (work : s.AtWork g) (out : t.loop = .barrier b)
    (holds : (s.posts (.loop g)).Holds b)
    (act : Act (.loop g) s.common (s.posts (.loop g)) c post) :
    ∃ t', (s.moved (.loop g) c post).Traces t' := by
  have hfits := ruled.tended.orderly.fits (.loop g)
  have hout : s.common.record.SentOut b := by
    have hlive : t.record.status ≠ .cancelled := h.record ▸ live
    exact h.record ▸ h.lived.held.sentOut out hlive
  have hstay {post : Post} (holds : post.Holds b) :
      ∃ t', (s.moved (.loop g) s.common post).Traces t' :=
    ⟨t, h.kept rfl fun _ => out ▸ stands_barrier work rfl holds⟩
  generalize s.posts (.loop g) = before at act holds hfits
  cases holds with
  | waiting matched =>
    cases act with
    | @send _ _ _ _ p rest next =>
      refine ⟨_, h.next (.send out next) h.record ?_⟩
      exact stands_barrier work rfl (.waiting (by simpa using matched))
    | reply result due => exact hstay (.waiting (by simpa using matched))
    | collect out all => exact hstay (.returning (Barrier.answered_reports out matched all))
    | interrupt told =>
      have hshut : s.common.shut = true := by
        cases hshut : s.common.shut with
        | true => rfl
        | false => simp [(ruled.sole live).untold hshut] at told
      refine ⟨t, h.kept rfl fun _ => out ▸ ?_⟩
      exact ruled.stands_ending live work hshut told rfl rfl rfl trivial
  | returning answered =>
    cases act with
    | reenter => exact hstay (.reading answered)
  | reading answered =>
    cases act with
    | drop changed => exact absurd ⟨Dag.isRunning_iff.mpr hout.running, hout.stage⟩ changed
    | fold now running stage => exact hstay (.folded now answered stage)
  | @folded read reports now answered stage =>
    obtain ⟨rfl, running, -⟩ := hfits
    cases act with
    | settle later same =>
      rw [← h.record] at running stage
      refine ⟨_, h.next (.fold now later out answered running stage) ?_ ?_⟩
      · rw [Course.write_record, h.record]
        rfl
      · exact ruled.stands_ready live work rfl rfl
    | missFold other => exact absurd rfl other

theorem Traces.act_of_ending (h : s.Traces t) (ruled : s.Ruled)
    (live : s.common.record.status ≠ .cancelled) (work : s.AtWork g) (out : t.loop = .barrier b)
    (ending : s.Ending) (act : Act (.loop g) s.common (s.posts (.loop g)) c post) :
    ∃ t', (s.moved (.loop g) c post).Traces t' := by
  obtain ⟨hends, htold⟩ := ending.2 g work
  generalize s.posts (.loop g) = before at act hends
  cases act with
  | goOn untold => exact absurd htold untold
  | consider untold => exact absurd htold untold
  | giveUp | leave | confirm | depart =>
    refine ⟨t, h.kept rfl fun _ => out ▸ ?_⟩
    exact ruled.stands_ending live work ending.1 htold rfl rfl rfl trivial
  | _ => exact hends.elim

theorem Traces.loop_act (h : s.Traces t) (ruled : s.Ruled)
    (live : s.common.record.status ≠ .cancelled) (present : s.Present (.loop g))
    (act : Act (.loop g) s.common (s.posts (.loop g)) c post) :
    ∃ t', (s.moved (.loop g) c post).Traces t' := by
  have hwork := atWork_of_act present act
  rcases ruled.standing live (h.stands live) hwork with ⟨ready, free⟩ | ⟨b, out, holds | ending⟩
  · exact h.act_of_ready ruled live hwork ready free act
  · exact h.act_of_holds ruled live hwork out holds act
  · exact h.act_of_ending ruled live hwork out ending act

/-! ## What a caller does -/

theorem atWork_moved_caller (started : c.started = s.common.started) :
    (s.moved (.caller n) c post).AtWork g ↔ s.AtWork g := by
  rw [AtWork, AtWork, moved_common, started, moved_posts_of_ne (by simp)]

/-- A caller who recovers nothing and opens nothing more than before leaves everyone as they
stand. -/
theorem Stands.moved_caller (h : s.Stands loop) (started : c.started = s.common.started)
    (shut : c.shut = s.common.shut) (cancelled : c.cancelled = s.common.cancelled)
    (before : (s.posts (.caller n)).recovers = false) (after : post.recovers = false)
    (opens : post.opens = true → (s.posts (.caller n)).opens = true) :
    (s.moved (.caller n) c post).Stands loop := by
  have hloop (g : Nat) : (s.moved (.caller n) c post).posts (.loop g) = s.posts (.loop g) :=
    moved_posts_of_ne (by simp)
  have hwork (g : Nat) : (s.moved (.caller n) c post).AtWork g ↔ s.AtWork g :=
    atWork_moved_caller started
  cases loop with
  | idle =>
    refine ⟨fun g hg => h.1 g ((hwork g).mp hg), fun m => ?_⟩
    by_cases hm : m = n
    · subst hm
      have hharmless := Post.harmless_iff.mp (h.2 m)
      rw [moved_posts_self, Post.harmless_iff]
      exact ⟨Bool.eq_false_iff.mpr fun ho => by simp [opens ho] at hharmless, after⟩
    · rw [moved_posts_of_ne (by simpa using hm)]
      exact h.2 m
  | recovering left =>
    obtain ⟨m, hm⟩ := h
    have hne : m ≠ n := by
      rintro rfl
      rcases hm with hm | hm <;> rw [hm] at before <;> cases before
    exact ⟨m, by rwa [moved_posts_of_ne (by simpa using hne)]⟩
  | ready =>
    refine ⟨fun g hg => ?_, fun m => ?_⟩
    · rw [hloop]
      exact h.1 g ((hwork g).mp hg)
    · by_cases hm : m = n
      · subst hm
        rwa [moved_posts_self]
      · rw [moved_posts_of_ne (by simpa using hm)]
        exact h.2 m
  | barrier b =>
    rcases h with ⟨g, hg, holds⟩ | ⟨hshut, hending⟩
    · exact .inl ⟨g, (hwork g).mpr hg, by rwa [hloop]⟩
    · refine .inr ⟨shut.trans hshut, fun g hg => ?_⟩
      rw [hloop, moved_common, cancelled]
      exact hending g ((hwork g).mp hg)

theorem Ruled.stands_spawned (h : s.Ruled) (stands : s.Stands loop)
    (opens : (s.posts (.caller n)).opens = true) (attended : Bool) :
    (s.moved (.caller n) { s.common.spawn with attended } .idle).Stands loop := by
  have hnot : (s.posts (.caller n)).recovers = false := by
    cases hpost : s.posts (.caller n) <;> rw [hpost] at opens <;> first | rfl | cases opens
  have hbusy : s.posts (.caller n) ≠ .idle := by
    intro hidle
    rw [hidle] at opens
    cases opens
  cases hentry : s.common.entry with
  | some g =>
    have hspawn : s.common.spawn = s.common := by rw [Common.spawn, hentry]
    rw [hspawn]
    exact stands.moved_caller rfl rfl rfl hnot rfl fun hopens => by cases hopens
  | none =>
    have hspawn : s.common.spawn = { s.common with
        entry := some s.common.next, next := s.common.next + 1,
        started := s.common.next :: s.common.started } := by rw [Common.spawn, hentry]
    have hnew : s.common.next ∉ s.common.started :=
      fun hm => Nat.lt_irrefl _ (h.tended.manned.fresh _ hm)
    have hposts (g : Nat) : (s.moved (.caller n) { s.common.spawn with attended } .idle).posts
        (.loop g) = s.posts (.loop g) := moved_posts_of_ne (by simp)
    rw [hspawn] at hposts ⊢
    -- The new loop has not begun, so it has nothing out and keeps nobody from what they stand for.
    cases loop with
    | idle => simp [Post.harmless_iff.mp (stands.2 n)] at opens
    | recovering left =>
      obtain ⟨m, hm⟩ := stands
      have hrecovers : (s.posts (.caller m)).recovers = true := by
        rcases hm with hm | hm <;> rw [hm] <;> rfl
      have hne : m ≠ n := by
        rintro rfl
        simp [hnot] at hrecovers
      exact absurd (h.regular.alone m hrecovers (.caller n) (by simpa using hne.symm)) hbusy
    | ready =>
      refine ⟨fun g hg => ?_, fun m => ?_⟩
      · rw [hposts]
        rcases List.mem_cons.mp hg.1 with rfl | hold
        · rw [h.tended.manned.unstarted _ hnew]
          rfl
        · exact stands.1 g ⟨hold, hposts g ▸ hg.2⟩
      · by_cases hm : m = n
        · subst hm
          rw [moved_posts_self]
          rfl
        · rw [moved_posts_of_ne (by simpa using hm)]
          exact stands.2 m
    | barrier b =>
      rcases stands with ⟨g, hg, holds⟩ | ⟨hshut, -⟩
      · refine .inl ⟨g, ⟨List.mem_cons_of_mem _ hg.1, ?_⟩, by rwa [hposts]⟩
        rw [hposts]
        exact hg.2
      · simp [h.regular.shut_of_busy hbusy] at hshut

theorem Ruled.recovering (h : s.Ruled) (stands : s.Stands loop) {left : List Task}
    (recovers : s.posts (.caller n) = .found left ∨ s.posts (.caller n) = .restoring left) :
    loop = .recovering left := by
  have hrecovers : (s.posts (.caller n)).recovers = true := by
    rcases recovers with hn | hn <;> rw [hn] <;> rfl
  have hbusy : s.posts (.caller n) ≠ .idle := by
    intro hidle
    rw [hidle] at hrecovers
    cases hrecovers
  -- Nobody recovers beside a loop at work, and nobody recovers beside another.
  cases loop with
  | idle => simp [Post.harmless_iff.mp (stands.2 n)] at hrecovers
  | ready => simp [stands.2 n] at hrecovers
  | barrier b =>
    rcases stands with ⟨g, hg, -⟩ | ⟨hshut, -⟩
    · simp [h.none_recovers hg n] at hrecovers
    · simp [h.regular.shut_of_busy hbusy] at hshut
  | recovering left' =>
    obtain ⟨m, hm⟩ := stands
    obtain rfl : m = n := by
      by_contra hne
      have haway : s.posts (.caller m) = .idle :=
        h.regular.alone n hrecovers (.caller m) (by simpa using hne)
      rw [haway] at hm
      rcases hm with hm | hm <;> cases hm
    rcases hm with hm | hm <;> rcases recovers with hn | hn <;> rw [hm] at hn <;> cases hn <;> rfl

theorem Ruled.stands_resumed (h : s.Ruled)
    (recovers : (s.posts (.caller n)).recovers = true) :
    (s.moved (.caller n) s.common .starting).Stands .ready := by
  have haway := h.regular.alone n recovers
  refine ⟨fun g hg => ?_, fun m => ?_⟩
  · exact absurd ((atWork_moved_caller rfl).mp hg) (haway (.loop g) (by simp))
  · by_cases hm : m = n
    · subst hm
      rw [moved_posts_self]
      rfl
    · have hidle : s.posts (.caller m) = .idle := haway (.caller m) (by simpa using hm)
      rw [moved_posts_of_ne (by simpa using hm), hidle]
      rfl

theorem Traces.commit (h : s.Traces t) (live : s.common.record.status ≠ .cancelled)
    {operator : Operator} {record : Dag} {now : Timestamp} {lines : LogLines}
    (accepted : s.common.record.command operator now = .ok (record, lines))
    (later : Timestamp) :
    ∃ t', (s.moved (.caller n) (s.common.write (.caller n) record later)
      (.committed operator)).Traces t' := by
  rw [← h.record] at accepted
  have hstep := Course.Step.command now later accepted
  by_cases hcancel : operator = .cancel
  · subst hcancel
    refine ⟨_, .next h.lived hstep, rfl, fun hlive => ?_⟩
    exact absurd (Dag.status_of_cancel accepted) hlive
  · rw [if_neg hcancel] at hstep
    have hwake := h.lived.held.wake_of_failed ((Dag.command_cases accepted).failed hcancel)
    rw [hwake] at hstep
    refine ⟨_, h.next hstep rfl ?_⟩
    have hstands := h.stands live
    have hready : s.Stands .ready := by
      cases hloop : t.loop with
      | idle =>
        rw [hloop] at hstands
        exact ⟨fun g hg => absurd hg (hstands.1 g),
          fun m => (Post.harmless_iff.mp (hstands.2 m)).2⟩
      | ready => rwa [hloop] at hstands
      | recovering | barrier =>
        rw [hloop] at hwake
        cases hwake
    refine ⟨fun g hg => ?_, fun m => ?_⟩
    · rw [moved_posts_of_ne (by simp)]
      exact hready.1 g ((atWork_moved_caller rfl).mp hg)
    · by_cases hm : m = n
      · subst hm
        rw [moved_posts_self]
        rfl
      · rw [moved_posts_of_ne (by simpa using hm)]
        exact hready.2 m

theorem Traces.caller_act (h : s.Traces t) (ruled : s.Ruled)
    (live : s.common.record.status ≠ .cancelled)
    (act : Act (.caller n) s.common (s.posts (.caller n)) c post) :
    ∃ t', (s.moved (.caller n) c post).Traces t' := by
  have hfits := ruled.tended.orderly.fits (.caller n)
  have hstands := h.stands live
  generalize hpost : s.posts (.caller n) = before at act hfits
  cases act with
  | commit later same =>
    obtain ⟨rfl, now, lines, accepted⟩ := hfits
    exact h.commit live accepted later
  | missCommand other => exact absurd (congrArg Dag.version hfits.1).symm other
  | start hstart =>
    rw [← spawn_attended]
    refine ⟨t, h.kept ?_ fun _ => ruled.stands_spawned hstands (by rw [hpost]; rfl) _⟩
    rw [moved_common, Common.spawn]
    split <;> rfl
  | serve =>
    refine ⟨t, h.kept ?_ fun _ => ruled.stands_spawned hstands (by rw [hpost]; rfl) true⟩
    rw [moved_common, Common.spawn]
    split <;> rfl
  | revoke => exact absurd (hfits rfl) live
  | cancel => exact absurd hfits.2 live
  | release => exact absurd hfits.2 live
  | find running =>
    rw [← h.record] at running
    have hfind : Course.Step { t with loop := .idle }
        { t with loop := .recovering t.record.interrupted } := .find rfl running
    refine ⟨_, ⟨.next (.next h.lived .halt) hfind, h.record, fun _ => ⟨n, .inl ?_⟩⟩⟩
    rw [moved_posts_self, h.record]
  | restore =>
    have hleft := ruled.recovering hstands (.inl hpost)
    refine ⟨t, h.kept rfl fun _ => ?_⟩
    rw [hleft]
    exact ⟨n, .inr moved_posts_self⟩
  | @recover _ _ task left registry now =>
    have hleft := ruled.recovering hstands (.inr hpost)
    refine ⟨_, h.next (.recover registry now hleft) ?_ ⟨n, .inr moved_posts_self⟩⟩
    rw [Course.write_record, h.record]
    rfl
  | restored =>
    have hleft := ruled.recovering hstands (.inr hpost)
    exact ⟨_, h.next (.resume hleft) h.record (ruled.stands_resumed (by rw [hpost]; rfl))⟩
  | «begin» =>
    exact ⟨t, h.kept rfl fun _ =>
      hstands.moved_caller rfl rfl rfl (by rw [hpost]; rfl) rfl fun _ => by rw [hpost]; rfl⟩
  | _ =>
    exact ⟨t, h.kept rfl fun _ =>
      hstands.moved_caller rfl rfl rfl (by rw [hpost]; rfl) rfl fun hopens => by cases hopens⟩

/-! ## Whole runs -/

/-- Nobody writes the record of a dag that is cancelled. -/
theorem Traces.act_of_cancelled (h : s.Traces t) (ruled : s.Ruled)
    (cancelled : s.common.record.status = .cancelled) (act : Act p s.common (s.posts p) c post) :
    (s.moved p c post).Traces t := by
  have haside : (s.posts p).recovers = false := by
    cases p with
    | loop g => exact act.not_recovers
    | caller n =>
      refine Bool.eq_false_iff.mpr fun hrecovers => ?_
      simp [ruled.calm.running n hrecovers] at cancelled
  have hkept := (act.unwritten (ruled.tended.orderly.fits p) (.inl cancelled) haside).1
  exact h.kept hkept fun live => absurd cancelled live

theorem Traces.abides (h : s.Traces t) (ruled : s.Ruled) (abides : s.Abides s') :
    ∃ t', s'.Traces t' := by
  obtain ⟨step, -⟩ := abides
  cases step with
  | halt =>
    refine ⟨_, .next h.lived .halt, h.record, fun _ => ⟨fun g hg => ?_, fun _ => rfl⟩⟩
    cases hg.1
  | goes goes =>
    cases goes with
    | @act p common post present act free =>
      by_cases hcancelled : s.common.record.status = .cancelled
      · exact ⟨t, h.act_of_cancelled ruled hcancelled act⟩
      · cases p with
        | loop g => exact h.loop_act ruled hcancelled present act
        | caller n => exact h.caller_act ruled hcancelled act
    | elsewhere => exact ⟨t, h.kept rfl h.stands⟩
    | shutdown =>
      refine ⟨t, h.kept rfl fun live => ?_⟩
      have hstands := h.stands live
      cases hloop : t.loop with
      | barrier b =>
        rw [hloop] at hstands
        refine hstands.imp id fun ⟨_, hending⟩ => ⟨rfl, fun g hg => ?_⟩
        obtain ⟨hends, htold⟩ := hending g hg
        exact ⟨hends, List.mem_append_right _ htold⟩
      | _ => rwa [hloop] at hstands

theorem traces_submission {d : Dag} {registry : Registry} {ids : FreshIds} {spec : DagSpec}
    {now : Timestamp} (fresh : ids.DistinctFor spec) (built : spec.build registry ids now = .ok d) :
    (submission d).Traces (Course.start d) :=
  ⟨.submitted fresh built, rfl, fun _ =>
    ⟨fun g hg => (by cases hg.1), fun n => submission_recovers d (.caller n)⟩⟩

/-- Whatever everyone does to a dag comes to a course of it. -/
theorem traces_of_run {d : Dag} {registry : Registry} {ids : FreshIds} {spec : DagSpec}
    {now : Timestamp} (fresh : ids.DistinctFor spec) (built : spec.build registry ids now = .ok d)
    (run : ReflTransGen Abides (submission d) s) : s.Ruled ∧ ∃ t, s.Traces t := by
  induction run with
  | refl =>
    exact ⟨ruled_submission (DagSpec.build_sound fresh built).shaped, _,
      traces_submission fresh built⟩
  | tail _ abides ih =>
    obtain ⟨hruled, t, htraces⟩ := ih
    exact ⟨hruled.abides abides, htraces.abides hruled abides⟩

end Arena

end Stagewise
