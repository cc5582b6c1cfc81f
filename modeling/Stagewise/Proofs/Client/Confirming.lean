import Stagewise.Proofs.Client.Watching
/-!
# A watch after a cancellation

However an agent answers and whenever the flag of a watch is raised, the watch comes to its end: it
checks at most thirty times more, each time after the same short pause, and then looks once more. It
gives up only when none of these fetches failed and none brought a final record. The flag is not
raised when the agent refuses to cancel.
-/

namespace Stagewise

namespace Handle

/-! ### What is done -/

/-- What a handle does, one thing after another. -/
inductive Act where
  | sent (url : Http.Url) (r : Http.Request)
  | paused (ms : Nat)
  | told (milestone : Milestone)
  | rested (ms : Nat)
  | raised

def Act.isSent : Act → Bool
  | .sent _ _ => true
  | _ => false

def Act.isRaised : Act → Bool
  | .raised => true
  | _ => false

/-- All that a watch has no hand in: what is replied and who hears of milestones, which may hang on
everything that was done before, and after how many acts the flag is raised by others. -/
structure Outside where
  reply : List Act → Http.Url → Http.Request → Reply
  hears : List Act → Milestone → Bool
  moment : Nat

namespace Outside

/-- Whether the flag is up. -/
def isUp (W : Outside) (done : List Act) : Bool :=
  W.moment ≤ done.length || done.any Act.isRaised

/-- The observer that keeps what is done. -/
def observer (W : Outside) : Observer (StateM (List Act)) where
  exchange url r _ := fun done => (W.reply done url r, done ++ [.sent url r])
  pause ms := fun done => ((), done ++ [.paused ms])
  tell milestone := fun done => (W.hears done milestone, done ++ [.told milestone])
  isCancelled := fun done => (W.isUp done, done)
  raise := fun done => ((), done ++ [.raised])
  rest ms := fun done => ((), done ++ [.rested ms])

variable {W : Outside} {done : List Act}

/-- A flag that is up stays up. -/
theorem isUp_append (hup : W.isUp done = true) (acts : List Act) :
    W.isUp (done ++ acts) = true := by
  simp only [isUp, Bool.or_eq_true, decide_eq_true_eq, List.length_append, List.any_append]
    at hup ⊢
  rcases hup with hmoment | hraised
  · exact .inl (by omega)
  · exact .inr (.inl hraised)

theorem run_pause (ms : Nat) : (W.observer.pause ms).run done = ((), done ++ [.paused ms]) := rfl

theorem run_raise : W.observer.raise.run done = ((), done ++ [.raised]) := rfl

theorem run_isCancelled : W.observer.isCancelled.run done = (W.isUp done, done) := rfl

theorem run_tell (milestone : Milestone) : (W.observer.tell milestone).run done =
    (W.hears done milestone, done ++ [.told milestone]) := rfl

end Outside

variable {W : Outside} {h : Handle} {done acts more : List Act} {r : Except ClientError Dag}

/-! ### One fetch -/

theorem received_ne_waitTimeout {α : Type} (url : Http.Url) (reply : Reply) (call : ApiCall α)
    (text : String) :
    (Client.received url reply).bind (Client.answerIn call) ≠ .error (.waitTimeout text) := by
  have hunread (response : Http.Response) :
      Client.answerIn call response ≠ .error (.waitTimeout text) := by
    unfold Client.answerIn
    split <;> simp
  cases reply with
  | unreachable | late => simp [Client.received, Except.bind]
  | arrived response =>
    simp only [Client.received]
    split
    · exact hunread response
    · unfold ClientError.ofResponse
      split <;> simp [Except.bind]

theorem requestFor_ne_waitTimeout {α : Type} (c : Client) (call : ApiCall α) (text : String) :
    c.requestFor call ≠ .error (.waitTimeout text) := by
  intro hrequest
  unfold Client.requestFor Client.address at hrequest
  cases hplace : c.base.at' call.path with
  | error e => simp [hplace, Except.mapError, bind, Except.bind] at hrequest
  | ok place => simp [hplace, Except.mapError, bind, Except.bind, pure, Except.pure] at hrequest

/-- A call of a client that repeats nothing sends one request, or none when it cannot be
addressed. -/
theorem exists_run_perform {α : Type} {c : Client} (hnever : c.retries = .never)
    (call : ApiCall α) (done : List Act) :
    ∃ acts result, (c.perform W.observer.toWire call).run done = (result, done ++ acts) ∧
      acts.length ≤ 1 ∧ (∀ a ∈ acts, a.isSent = true) ∧
      ∀ text, result ≠ .error (.waitTimeout text) := by
  cases hrequest : c.requestFor call with
  | error e =>
    refine ⟨[], .error e, ?_, by simp, by simp, fun text htext => ?_⟩
    · rw [Client.perform, hrequest, List.append_nil]
      rfl
    · apply requestFor_ne_waitTimeout c call text
      rw [hrequest, Except.error.inj htext]
  | ok sending =>
    obtain ⟨url, request⟩ := sending
    have hzero : c.retries.maxRetries = 0 := by rw [hnever]; rfl
    refine ⟨[.sent url request], _, ?_, by simp, by simp [Act.isSent],
      received_ne_waitTimeout url (W.reply done url request) call⟩
    simp only [Client.perform, hrequest, hzero, Client.sendRepeatedly]
    split <;> rfl

/-- One attempt to fetch the record: one request, or a second one when there is no upgrade. -/
structure Attempted (W : Outside) (h : Handle) (done acts : List Act)
    (r : Except ClientError Dag) : Prop where
  ran : (h.fetchOnce W.observer.toWire).run done = (r, done ++ acts)
  few : acts.length ≤ 2
  sends : ∀ a ∈ acts, a.isSent = true
  timely : ∀ text, r ≠ .error (.waitTimeout text)

theorem exists_attempted (hnever : h.client.retries = .never) (W : Outside) (done : List Act) :
    ∃ acts r, Attempted W h done acts r := by
  obtain ⟨plain, r, hplain, hfew, hsends, htimely⟩ :=
    exists_run_perform (W := W) hnever (.dag h.dag) done
  by_cases hupgrade : h.upgrade = true
  · obtain ⟨first, r₁, hfirst, hfew₁, hsends₁, htimely₁⟩ :=
      exists_run_perform (W := W) hnever (.upgradeDag h.dag) done
    by_cases hmissing : ∃ text, r₁ = .error (.notFound text)
    · obtain ⟨text, rfl⟩ := hmissing
      obtain ⟨second, r₂, hsecond, hfew₂, hsends₂, htimely₂⟩ :=
        exists_run_perform (W := W) hnever (.dag h.dag) (done ++ first)
      refine ⟨first ++ second, r₂, ?_, ?_, ?_, htimely₂⟩
      · simp only [fetchOnce, hupgrade, if_true, run_bind, hfirst, hsecond, List.append_assoc]
      · rw [List.length_append]
        omega
      · exact List.forall_mem_append.2 ⟨hsends₁, hsends₂⟩
    · refine ⟨first, r₁, ?_, by omega, hsends₁, htimely₁⟩
      simp only [fetchOnce, hupgrade, if_true, run_bind, hfirst]
      split
      next text => exact absurd ⟨text, rfl⟩ hmissing
      next => rfl
  · refine ⟨plain, r, ?_, by omega, hsends, htimely⟩
    rw [fetchOnce, if_neg hupgrade, hplain]

/-- The attempts of a fetch that may be repeated so many times, what is done at them, and what comes
of the last one: of one that succeeds, whose failure will not mend, or that is the last allowed. -/
inductive Tries (W : Outside) (h : Handle) :
    (left : Nat) → (done : List Act) → (attempts : Nat) → (acts : List Act) →
      Except ClientError Dag → Prop
  | last {left : Nat} {done acts : List Act} {r : Except ClientError Dag}
      (hattempt : Attempted W h done acts r)
      (hlast : left = 0 ∨ ∀ e, r = .error e → e.isRetryable = false) :
      Tries W h left done 1 acts r
  | again {left attempts : Nat} {done acts more : List Act} {e : ClientError}
      {r : Except ClientError Dag} (hattempt : Attempted W h done acts (.error e))
      (hmends : e.isRetryable = true)
      (hrest : Tries W h left (done ++ (acts ++ [.paused h.backoffMs])) attempts more r) :
      Tries W h (left + 1) done (attempts + 1) (acts ++ [.paused h.backoffMs] ++ more) r

namespace Tries

variable {left attempts : Nat}

theorem attempts_le (htries : Tries W h left done attempts acts r) : attempts ≤ left + 1 := by
  induction htries with
  | last => omega
  | again _ _ _ ih => omega

theorem timely (htries : Tries W h left done attempts acts r) (text : String) :
    r ≠ .error (.waitTimeout text) := by
  induction htries with
  | last hattempt => exact hattempt.timely text
  | again _ _ _ ih => exact ih

end Tries

theorem exists_tries (hnever : h.client.retries = .never) (W : Outside) (left : Nat)
    (done : List Act) :
    ∃ attempts acts r, (h.fetchRepeatedly W.observer.toWire left).run done = (r, done ++ acts) ∧
      Tries W h left done attempts acts r := by
  induction left generalizing done with
  | zero =>
    obtain ⟨acts, r, hattempt⟩ := exists_attempted hnever W done
    exact ⟨1, acts, r, hattempt.ran, .last hattempt (.inl rfl)⟩
  | succ left ih =>
    obtain ⟨acts, r, hattempt⟩ := exists_attempted hnever W done
    simp only [fetchRepeatedly, run_bind, hattempt.ran]
    cases r with
    | ok d => exact ⟨1, acts, .ok d, rfl, .last hattempt (.inr fun e he => by cases he)⟩
    | error e =>
      cases hmends : e.isRetryable with
      | false =>
        refine ⟨1, acts, .error e, ?_, .last hattempt (.inr fun e' he => ?_)⟩
        · simp only [hmends, Bool.false_eq_true, if_false, run_pure]
        · rwa [← Except.error.inj he]
      | true =>
        obtain ⟨attempts, more, r, hrun, hrest⟩ := ih (done ++ (acts ++ [.paused h.backoffMs]))
        refine ⟨attempts + 1, acts ++ [.paused h.backoffMs] ++ more, r, ?_,
          .again hattempt hmends hrest⟩
        simp only [hmends, if_true, run_bind, Outside.run_pause, List.append_assoc] at hrun ⊢
        exact hrun

/-! ### One look -/

/-- The new stages of a record are told of. -/
def announced (reported : Nat) (d : Dag) : List Act :=
  (Watch.newStages ⟨reported, 0⟩ d).map fun stage => .told (.stageStarted d stage)

/-- A fetch brings a record, and its new stages are told of. -/
def Brings (W : Outside) (h : Handle) (done : List Act) (reported : Nat) (d : Dag)
    (acts : List Act) : Prop :=
  ∃ attempts fetch, attempts ≤ h.retryTimes + 1 ∧
    Tries W h h.retryTimes done attempts fetch (.ok d) ∧ acts = fetch ++ announced reported d

theorem run_announce (d : Dag) (stages : List Nat) (done : List Act) :
    (forIn stages PUnit.unit fun stage _ => do
        let _ ← W.observer.tell (.stageStarted d stage)
        pure (ForInStep.yield PUnit.unit) : StateM (List Act) PUnit).run done =
      (PUnit.unit, done ++ stages.map fun stage => .told (.stageStarted d stage)) := by
  induction stages generalizing done with
  | nil => rw [List.map_nil, List.append_nil]; rfl
  | cons stage stages ih =>
    rw [List.forIn_cons, run_bind, run_bind, Outside.run_tell]
    refine (ih _).trans ?_
    rw [run_pure, List.map_cons, List.append_assoc, List.singleton_append]

/-- A look fails with its fetch, or makes of the record that it brings what the watch and the flag
call for. -/
theorem run_look_cases (hnever : h.client.retries = .never) (W : Outside) (w : Watch)
    (done : List Act) :
    (∃ attempts acts e, attempts ≤ h.retryTimes + 1 ∧
      Tries W h h.retryTimes done attempts acts (.error e) ∧
      (h.look W.observer w).run done = (.inr (.ended (.error e)), done ++ acts)) ∨
    ∃ d acts, Brings W h done w.reported d acts ∧
      (h.look W.observer w).run done = match w.next (W.isUp (done ++ acts)) d with
        | .finish => (.inr ((h.finish W.observer d).run (done ++ acts)).1,
            ((h.finish W.observer d).run (done ++ acts)).2)
        | .giveUp => (.inr (.ended (.error (.waitTimeout (Watch.gaveUpMessage d)))), done ++ acts)
        | .check w' => (.inl w', done ++ acts ++ [.paused Watch.checkMs])
        | .poll w' => (.inl w', done ++ acts ++ [.rested h.pollMs]) := by
  obtain ⟨attempts, acts, r, hrun, htries⟩ := exists_tries hnever W h.retryTimes done
  have hfetch : (h.fetch W.observer.toWire).run done = (r, done ++ acts) := hrun
  simp only [look, run_bind, hfetch]
  cases r with
  | error e => exact .inl ⟨attempts, acts, e, htries.attempts_le, htries, rfl⟩
  | ok d =>
    refine .inr ⟨d, acts ++ announced w.reported d,
      ⟨attempts, acts, htries.attempts_le, htries, rfl⟩, ?_⟩
    simp only [run_bind, run_announce, Outside.run_isCancelled]
    rw [← List.append_assoc]
    have hannounced : announced w.reported d =
      (w.newStages d).map fun stage => Act.told (.stageStarted d stage) := rfl
    rw [hannounced]
    generalize w.next _ d = next
    cases next <;> rfl

/-- What a watch does after a record: it ends with a final one, polls on while the flag is down, and
else checks again as often as it still may, and then gives up. -/
theorem next_spec (w : Watch) (up : Bool) (d : Dag) :
    match w.next up d with
    | .finish => d.isFinished = true
    | .giveUp => d.isFinished = false ∧ up = true ∧ w.checksLeft = 0
    | .check w' => d.isFinished = false ∧ up = true ∧ w.checksLeft = w'.checksLeft + 1 ∧
        w'.reported = max w.reported d.stage
    | .poll w' => d.isFinished = false ∧ up = false ∧
        w' = ⟨max w.reported d.stage, w.checksLeft⟩ := by
  cases hfinished : d.isFinished with
  | true => simp only [Watch.next, hfinished, if_true]
  | false =>
    cases up with
    | false => simp [Watch.next, hfinished]
    | true =>
      obtain ⟨reported, checksLeft⟩ := w
      cases checksLeft <;> simp [Watch.next, hfinished]

/-! ### The whole watch -/

/-- What a watch does between two looks. -/
def Act.between (h : Handle) (up : Bool) : Act :=
  if up then .paused Watch.checkMs else .rested h.pollMs

/-- Looks after which a watch goes on: each brings an unfinished record and finds the flag as it is
said to be. -/
inductive Rounds (W : Outside) (h : Handle) (up : Bool) :
    (reported : Nat) → (done : List Act) → List Dag → (reported' : Nat) → (done' : List Act) → Prop
  | none (reported : Nat) (done : List Act) : Rounds W h up reported done [] reported done
  | next {reported reported' : Nat} {done acts done' : List Act} {d : Dag} {ds : List Dag}
      (hbrings : Brings W h done reported d acts) (unfinished : d.isFinished = false)
      (hflag : W.isUp (done ++ acts) = up)
      (hrest : Rounds W h up (max reported d.stage) (done ++ acts ++ [.between h up]) ds reported'
        done') :
      Rounds W h up reported done (d :: ds) reported' done'

/-- How a watch ends that may still check so many times, what its last fetch came to, and what the
watch comes to: it has used up its looks, its last fetch failed or brought a final record, or it
gives up. -/
inductive Ending (W : Outside) (h : Handle) (reported : Nat) (done : List Act) :
    (left : Nat) → Option (Except ClientError Dag) → Option Watched → (done' : List Act) → Prop
  | spent (left : Nat) : Ending W h reported done left none none done
  | failed {left attempts : Nat} {acts : List Act} {e : ClientError}
      (hfew : attempts ≤ h.retryTimes + 1)
      (htries : Tries W h h.retryTimes done attempts acts (.error e)) :
      Ending W h reported done left (some (.error e)) (some (.ended (.error e))) (done ++ acts)
  | closed {left : Nat} {acts : List Act} {d : Dag} (hbrings : Brings W h done reported d acts)
      (finished : d.isFinished = true) :
      Ending W h reported done left (some (.ok d))
        (some ((h.finish W.observer d).run (done ++ acts)).1)
        ((h.finish W.observer d).run (done ++ acts)).2
  | gaveUp {acts : List Act} {d : Dag} (hbrings : Brings W h done reported d acts)
      (unfinished : d.isFinished = false) (hup : W.isUp (done ++ acts) = true) :
      Ending W h reported done 0 (some (.ok d))
        (some (.ended (.error (.waitTimeout (Watch.gaveUpMessage d))))) (done ++ acts)

/-- A watch polls while the flag is down, checks while it is up, and ends. -/
inductive Account (W : Outside) (h : Handle) (w : Watch) (looks : Nat) (done : List Act)
    (polled checked : List Dag) (last : Option (Except ClientError Dag)) (result : Option Watched)
    (done' : List Act) : Prop
  | mk {raisedAt endedAt : List Act} {reported reported' : Nat}
      (hpolled : Rounds W h false w.reported done polled reported raisedAt)
      (hchecked : Rounds W h true reported raisedAt checked reported' endedAt)
      (hfew : checked.length ≤ w.checksLeft)
      (hending : Ending W h reported' endedAt (w.checksLeft - checked.length) last result done')
      (hlooks : result = none → looks = polled.length + checked.length)

namespace Rounds

variable {up : Bool} {reported reported' : Nat} {done' : List Act} {ds : List Dag}

theorem unfinished (hrounds : Rounds W h up reported done ds reported' done') :
    ∀ d ∈ ds, d.isFinished = false := by
  induction hrounds with
  | none => simp
  | next _ unfinished _ _ ih => exact List.forall_mem_cons.2 ⟨unfinished, ih⟩

/-- There is no polling once the flag is up. -/
theorem eq_none (hrounds : Rounds W h false reported done ds reported' done')
    (hup : W.isUp done = true) : ds = [] ∧ reported' = reported ∧ done' = done := by
  cases hrounds with
  | none => exact ⟨rfl, rfl, rfl⟩
  | @next _ _ _ acts _ _ _ _ _ hflag =>
    rw [Outside.isUp_append hup acts] at hflag
    cases hflag

/-- Something is done in each round, so the flag is raised before there are more of them. -/
theorem length_le (hrounds : Rounds W h false reported done ds reported' done') :
    ds.length ≤ W.moment - done.length := by
  induction hrounds with
  | none => exact Nat.zero_le _
  | next _ _ hflag _ ih =>
    simp only [Outside.isUp, Bool.or_eq_false_iff, decide_eq_false_iff_not, List.length_append]
      at hflag
    simp only [List.length_append, List.length_cons, List.length_nil] at ih ⊢
    omega

end Rounds

namespace Account

variable {w w' : Watch} {looks : Nat} {d : Dag} {polled checked : List Dag}
  {last : Option (Except ClientError Dag)} {result : Option Watched} {done' : List Act}

/-- The first look is the last one. -/
theorem ended {watched : Watched}
    (hending : Ending W h w.reported done w.checksLeft last (some watched) done') :
    Account W h w (looks + 1) done [] [] last (some watched) done' :=
  .mk (.none _ _) (.none _ _) (Nat.zero_le _) hending (by simp)

/-- The flag is down at the first look. -/
theorem poll (hbrings : Brings W h done w.reported d acts) (unfinished : d.isFinished = false)
    (hdown : W.isUp (done ++ acts) = false)
    (haccount : Account W h ⟨max w.reported d.stage, w.checksLeft⟩ looks
      (done ++ acts ++ [.rested h.pollMs]) polled checked last result done') :
    Account W h w (looks + 1) done (d :: polled) checked last result done' := by
  obtain ⟨hpolled, hchecked, hfew, hending, hlooks⟩ := haccount
  refine .mk (.next hbrings unfinished hdown hpolled) hchecked hfew hending fun hnone => ?_
  have := hlooks hnone
  rw [List.length_cons]
  omega

/-- The flag is up at the first look, so all that follows is checking. -/
theorem check (hbrings : Brings W h done w.reported d acts) (unfinished : d.isFinished = false)
    (hup : W.isUp (done ++ acts) = true) (hleft : w.checksLeft = w'.checksLeft + 1)
    (hreported : w'.reported = max w.reported d.stage)
    (haccount : Account W h w' looks (done ++ acts ++ [.paused Watch.checkMs]) polled checked last
      result done') :
    Account W h w (looks + 1) done [] (d :: checked) last result done' := by
  obtain ⟨hpolled, hchecked, hfew, hending, hlooks⟩ := haccount
  obtain ⟨rfl, rfl, rfl⟩ := hpolled.eq_none (Outside.isUp_append hup _)
  rw [hreported] at hchecked
  have hsame : w.checksLeft - (d :: checked).length = w'.checksLeft - checked.length := by
    rw [List.length_cons]
    omega
  rw [← hsame] at hending
  refine .mk (.none _ _) (.next hbrings unfinished hup hchecked) ?_ hending fun hnone => ?_
  · rw [List.length_cons]
    omega
  · have := hlooks hnone
    simp only [List.length_nil, List.length_cons] at this ⊢
    omega

end Account

theorem exists_account (hnever : h.client.retries = .never) (W : Outside) (looks : Nat) (w : Watch)
    (done : List Act) :
    ∃ polled checked last result done',
      (h.watchFrom W.observer looks w).run done = (result, done') ∧
        Account W h w looks done polled checked last result done' := by
  induction looks generalizing w done with
  | zero =>
    exact ⟨[], [], none, none, done, rfl, .mk (.none _ _) (.none _ _) (Nat.zero_le _) (.spent _)
      fun _ => rfl⟩
  | succ looks ih =>
    simp only [watchFrom, run_bind]
    rcases run_look_cases hnever W w done with
      ⟨attempts, acts, e, hfew, htries, hlook⟩ | ⟨d, acts, hbrings, hlook⟩
    · simp only [hlook]
      exact ⟨[], [], _, _, _, rfl, .ended (.failed hfew htries)⟩
    · have hnext := next_spec w (W.isUp (done ++ acts)) d
      cases hcase : w.next (W.isUp (done ++ acts)) d with
      | finish =>
        simp only [hcase] at hnext hlook
        simp only [hlook]
        exact ⟨[], [], _, _, _, rfl, .ended (.closed hbrings hnext)⟩
      | giveUp =>
        simp only [hcase] at hnext hlook
        obtain ⟨unfinished, hup, hleft⟩ := hnext
        simp only [hlook]
        refine ⟨[], [], some (.ok d), _, _, rfl, .ended ?_⟩
        rw [hleft]
        exact .gaveUp hbrings unfinished hup
      | check w' =>
        simp only [hcase] at hnext hlook
        obtain ⟨unfinished, hup, hleft, hreported⟩ := hnext
        simp only [hlook]
        obtain ⟨polled, checked, last, result, done', hrun, haccount⟩ :=
          ih w' (done ++ acts ++ [.paused Watch.checkMs])
        exact ⟨[], d :: checked, last, result, done', hrun,
          haccount.check hbrings unfinished hup hleft hreported⟩
      | poll w' =>
        simp only [hcase] at hnext hlook
        obtain ⟨unfinished, hdown, rfl⟩ := hnext
        simp only [hlook]
        obtain ⟨polled, checked, last, result, done', hrun, haccount⟩ :=
          ih ⟨max w.reported d.stage, w.checksLeft⟩ (done ++ acts ++ [.rested h.pollMs])
        exact ⟨d :: polled, checked, last, result, done', hrun,
          haccount.poll hbrings unfinished hdown⟩

theorem finish_ne_waitTimeout (W : Outside) (h : Handle) (d : Dag) (done : List Act)
    (text : String) :
    ((h.finish W.observer d).run done).1 ≠ .ended (.error (.waitTimeout text)) := by
  unfold finish
  split
  · rw [run_pure]
    exact nofun
  · rw [run_bind]
    split <;> exact nofun
  · rw [run_bind, run_bind]
    split <;> exact nofun

namespace Ending

variable {reported left : Nat} {done' : List Act} {last : Option (Except ClientError Dag)}
  {result : Option Watched}

/-- A watch gives up exactly when its last fetch brought an unfinished record. -/
theorem waitTimeout_iff (hending : Ending W h reported done left last result done')
    (hover : result ≠ none) :
    (∃ text, result = some (.ended (.error (.waitTimeout text)))) ↔
      ∀ r ∈ last.toList, ∃ d, r = .ok d ∧ d.isFinished = false := by
  cases hending with
  | spent => exact absurd rfl hover
  | @failed _ _ _ e _ htries =>
    have hno : ∀ text, e ≠ .waitTimeout text := fun text heq =>
      htries.timely text (congrArg Except.error heq)
    simpa using hno
  | @closed _ acts d _ finished =>
    have hno := finish_ne_waitTimeout W h d (done ++ acts)
    simpa [finished] using hno
  | gaveUp _ unfinished => simpa using unfinished

theorem closing (hending : Ending W h reported done left last result done')
    (hattentive : W.observer.Attentive) {d : Dag} (hlast : last = some (.ok d))
    (finished : d.isFinished = true) (staged : d.Staged) :
    ∃ milestone r, Closing d milestone r ∧ result = some (.ended r) := by
  cases hending with
  | spent | failed => cases hlast
  | closed =>
    obtain rfl := Except.ok.inj (Option.some.inj hlast)
    obtain ⟨milestone, r, hclosing, hended, -⟩ := run_finish hattentive h staged finished _
    exact ⟨milestone, r, hclosing, congrArg some hended⟩
  | gaveUp _ unfinished =>
    obtain rfl := Except.ok.inj (Option.some.inj hlast)
    rw [finished] at unfinished
    cases unfinished

theorem lost (hending : Ending W h reported done left last result done') {e : ClientError}
    (hlast : last = some (.error e)) : result = some (.ended (.error e)) := by
  cases hending with
  | failed =>
    obtain rfl := Except.error.inj (Option.some.inj hlast)
    rfl
  | spent | closed | gaveUp => cases hlast

end Ending

theorem exists_run_cancel (hnever : h.client.retries = .never) (W : Outside) (done : List Act) :
    ∃ r acts, (h.cancel W.observer).run done = (r, done ++ acts) ∧
      (acts.any Act.isRaised = true ↔ ∃ d, r = .ok d) := by
  obtain ⟨acts, r, hrun, -, hsends, -⟩ :=
    exists_run_perform (W := W) hnever (.operate h.dag .cancel) done
  have hquiet : acts.any Act.isRaised = false := by
    refine List.any_eq_false.2 fun a ha => ?_
    have hsent := hsends a ha
    cases a <;> simp_all [Act.isSent, Act.isRaised]
  have hcommand : (h.command W.observer.toWire .cancel).run done = (r, done ++ acts) := hrun
  cases r with
  | ok d =>
    refine ⟨.ok d, acts ++ [.raised], ?_, by simp [Act.isRaised]⟩
    simp only [cancel, run_bind, hcommand, Outside.run_raise, List.append_assoc]
    rfl
  | error e =>
    refine ⟨.error e, acts, ?_, by simp [hquiet]⟩
    simp only [cancel, run_bind, hcommand]
    rfl

/-- A watch polls while its flag is down, checks at most thirty times while it is up, a short pause
after each check, and looks once more, with so many attempts at each fetch as the handle bears. So
it is over some time after the flag is raised: with what the first final record says, with the
failure of a fetch, or, exactly when every fetch since then brought an unfinished record, by giving
up. Cancelling raises the flag exactly when the agent accepts it. -/
theorem watch_confirms {c : Client} {dag : DagId} {settings : List Setting}
    (hmade : made c dag settings = .ok h) (W : Outside) (done : List Act) :
    (∀ looks, ∃ polled checked last result done',
      (h.watchFrom W.observer looks {}).run done = (result, done') ∧
      Account W h {} looks done polled checked last result done' ∧
      checked.length ≤ 30 ∧ checked.length + last.toList.length ≤ 31 ∧
      (W.isUp done = true → polled = []) ∧ (W.moment + 31 ≤ looks → result ≠ none) ∧
      (result ≠ none → ((∃ text, result = some (.ended (.error (.waitTimeout text)))) ↔
        ∀ r ∈ checked.map .ok ++ last.toList, ∃ d, r = .ok d ∧ d.isFinished = false)) ∧
      (W.observer.Attentive → ∀ d, last = some (.ok d) → d.isFinished = true → d.Staged →
        ∃ milestone r, Closing d milestone r ∧ result = some (.ended r)) ∧
      ∀ e, last = some (.error e) → result = some (.ended (.error e))) ∧
    ∃ r acts, (h.cancel W.observer).run done = (r, done ++ acts) ∧
      (acts.any Act.isRaised = true ↔ ∃ d, r = .ok d) := by
  have hnever := never_of_made hmade
  refine ⟨fun looks => ?_, exists_run_cancel hnever W done⟩
  obtain ⟨polled, checked, last, result, done', hrun, haccount⟩ :=
    exists_account hnever W looks {} done
  have hkept := haccount
  obtain ⟨hpolled, hchecked, hfew, hending, hlooks⟩ := haccount
  have hthirty : checked.length ≤ 30 := hfew
  refine ⟨polled, checked, last, result, done', hrun, hkept, hthirty, ?_, fun hup => ?_,
    fun hlong hnone => ?_, fun hover => ?_, fun hattentive d hlast finished staged => ?_,
    fun e hlast => hending.lost hlast⟩
  · have hone : last.toList.length ≤ 1 := by cases last <;> simp
    omega
  · exact (hpolled.eq_none hup).1
  · have := hlooks hnone
    have := hpolled.length_le
    omega
  · have hunfinished : ∀ r ∈ checked.map (Except.ok (ε := ClientError)),
        ∃ d, r = .ok d ∧ d.isFinished = false := by
      intro r hr
      obtain ⟨d, hd, rfl⟩ := List.mem_map.1 hr
      exact ⟨d, rfl, hchecked.unfinished d hd⟩
    rw [List.forall_mem_append, and_iff_right hunfinished]
    exact hending.waitTimeout_iff hover
  · exact hending.closing hattentive hlast finished staged

end Handle

namespace Sample

/-- It runs on, whatever is asked of it. -/
def lingeringDag : Dag := { finishedDag with status := .running }

theorem survives_lingeringDag : Document.Survives lingeringDag := by
  have hvalid : lingeringDag.Valid := { valid_finishedDag with }
  exact hvalid.faithful.survives (by decide)

/-- The flag is up from the start, and the record never becomes final. -/
def lingering : Handle.Outside :=
  ⟨fun _ _ _ => .arrived ⟨200, Document.text lingeringDag⟩, fun _ _ => true, 0⟩

theorem exists_fetchOnce_steady (W : Handle.Outside) (done : List Handle.Act) :
    ∃ url request, ((steadyHandle.fetchOnce W.observer.toWire).run done).1 =
      (Client.received url (W.reply done url request)).bind
        (Client.answerIn (.dag watchedDag.id)) := by
  have hpath : steadyHandle.client.base.path = .segments [""] := rfl
  obtain ⟨url, request, hrequest⟩ := Client.exists_requestFor hpath (.dag watchedDag.id)
  have hperform : steadyHandle.fetchOnce W.observer.toWire =
      steadyHandle.client.perform W.observer.toWire (.dag watchedDag.id) := rfl
  refine ⟨url, request, ?_⟩
  rw [hperform, Client.perform, hrequest]
  rfl

theorem eq_lingeringDag {left attempts : Nat} {done acts : List Handle.Act}
    {r : Except ClientError Dag}
    (htries : Handle.Tries lingering steadyHandle left done attempts acts r) :
    r = .ok lingeringDag := by
  have honce (done : List Handle.Act) :
      ((steadyHandle.fetchOnce lingering.observer.toWire).run done).1 = .ok lingeringDag := by
    obtain ⟨url, request, hrun⟩ := exists_fetchOnce_steady lingering done
    rw [hrun, lingering, Client.received, if_pos (by rfl), Except.bind]
    exact Client.answerIn_text survives_lingeringDag rfl 200
  cases htries with
  | last hattempt =>
    have := honce done
    rwa [hattempt.ran] at this
  | again hattempt =>
    have := honce done
    rw [hattempt.ran] at this
    cases this

end Sample

/-- The watch of a dag that lingers gives up. -/
theorem Handle.watch_confirms_lingering :
    made Sample.steadyHandle.client Sample.watchedDag.id [] = .ok Sample.steadyHandle ∧
      ∃ text, ((Sample.steadyHandle.watchFrom Sample.lingering.observer 31 {}).run []).1 =
        some (.ended (.error (.waitTimeout text))) := by
  have hmade : made Sample.steadyHandle.client Sample.watchedDag.id [] =
      .ok Sample.steadyHandle := rfl
  refine ⟨hmade, ?_⟩
  obtain ⟨polled, checked, last, result, done', hrun, haccount, -, -, -, hover, htimeout, -⟩ :=
    (watch_confirms hmade Sample.lingering []).1 31
  have hover := hover (by decide)
  rw [hrun]
  refine (htimeout hover).2 (List.forall_mem_append.2 ⟨?_, fun r hr => ?_⟩)
  · obtain ⟨-, hchecked, -⟩ := haccount
    intro r hr
    obtain ⟨d, hd, rfl⟩ := List.mem_map.1 hr
    exact ⟨d, rfl, hchecked.unfinished d hd⟩
  · suffices r = .ok Sample.lingeringDag from ⟨Sample.lingeringDag, this, rfl⟩
    obtain ⟨-, -, -, hending, -⟩ := haccount
    generalize ({} : Watch).checksLeft - checked.length = left at hending
    cases hending with
    | spent => exact absurd rfl hover
    | failed _ htries => exact absurd (Sample.eq_lingeringDag htries) nofun
    | closed hbrings | gaveUp hbrings =>
      obtain ⟨_, _, -, htries, -⟩ := hbrings
      obtain rfl : r = _ := by simpa using hr
      exact Sample.eq_lingeringDag htries

end Stagewise
