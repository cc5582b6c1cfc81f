import Stagewise.Proofs.Document.Message
import Stagewise.Proofs.Server.Exchange
/-!
# In this process or on the web

A task comes to the same whether its agent is the one that runs the dag or another one. What the
agent runs in its own process is logged line by line; what comes back from another agent is logged
at once. The outcomes differ in their times only, and the log of the task gets the same lines. A
task whose text is longer than an agent reads is run in the process, and refused on the web.
-/

namespace Stagewise

variable {σ ρ τ : Type} {a self : Agent} {q : DispatchRequest}

/-- Two outcomes differ at most in the times of their lines. -/
def Outcome.Matches (o o' : Outcome) : Prop :=
  ({ o with logs := [] } : Outcome) = { o' with logs := [] } ∧
    o.logs.map (·.message) = o'.logs.map (·.message)

/-- Where an operation does the same on two agents, a dispatch under the same name comes to
matching outcomes. -/
theorem Engine.matches_outcomeOf {e : Engine σ} {e' : Engine τ}
    (alike : e.behaviour q = e'.behaviour q) (a : Agent) :
    e.courseOf a q = e'.courseOf a q ∧ (e.outcomeOf a q).Matches (e'.outcomeOf a q) := by
  have hcourse : e.courseOf a q = e'.courseOf a q := Runner.timeline_congr alike a .never
  refine ⟨hcourse, ?_, ?_⟩
  · simp only [outcomeOf, Runner.outcome, hcourse]
  · rw [messages_outcomeOf, messages_outcomeOf, hcourse]

namespace Server

variable {seat : Seat τ} {s : Server τ} {e : Engine ρ} {peers : Client} {web : Web ρ}

/-- An exchange with another agent completes: the dispatch can be addressed, the agent lets the
request in, and its answer comes back before the client stops waiting. -/
def Web.Completes (web : Web ρ) (peers : Client) (e : Engine ρ) (a : Agent) (q : DispatchRequest)
    (seat : Seat τ) (s : Server τ) : Prop :=
  ∃ url r ms outside,
    ((peers.forAgent a).bind fun c => c.requestFor (ApiCall.dispatch q)) = .ok (url, r) ∧
    isAuthorized seat.token r.headers = true ∧
    web.exchange e.outside e.clock url r =
      ((some ms, .arrived (respond r seat s).1.sent), outside) ∧
    ms < peers.timeoutMs

/-- What is told of a dispatch that completes is what the answer of the agent says. -/
theorem Web.Completes.reach_eq (completes : web.Completes peers e a q seat s) (other : a ≠ self) :
    ∃ url r ms, r.Asks q ∧ isAuthorized seat.token r.headers = true ∧
      (reach self peers web e.outside e.clock a q).1 =
        .settles (some ms) (((Client.received url (.arrived (respond r seat s).1.sent)).bind
          (Client.answerIn (ApiCall.dispatch q))).mapError (dispatchError a)) true := by
  obtain ⟨url, r, ms, outside, hrequest, authorized, hexchange, htime⟩ := completes
  obtain ⟨c, -, hasks⟩ := bind_eq_ok hrequest
  refine ⟨url, r, ms, .of_requestFor hasks, authorized, ?_⟩
  simp only [reach, if_neg other, hrequest, hexchange, withinTimeout, if_pos htime]

/-- An outcome that an agent answers with is what the dispatch comes to. -/
theorem Web.Completes.settles (completes : web.Completes peers e a q seat s) (other : a ≠ self)
    (survives : Document.Survives q) (short : (Document.text q).utf8ByteSize ≤ bodyLimit)
    {o : Outcome} (answers : (takePart q seat s).1 = .ok o) (returns : Document.Survives o) :
    ∃ ms, (reach self peers web e.outside e.clock a q).1 = .settles (some ms) (.ok o) true := by
  obtain ⟨url, r, ms, hasks, authorized, hreach⟩ := completes.reach_eq other
  refine ⟨ms, ?_⟩
  have hanswer : Client.answerIn (ApiCall.dispatch q) ⟨200, Document.text o⟩ = .ok o :=
    Client.answerIn_text returns rfl 200
  have hreceived : Client.received url (.arrived (Answer.ok o).sent) = .ok ⟨200, Document.text o⟩ :=
    rfl
  rw [hreach, hasks.respond_of_short authorized survives short, answers, hreceived]
  simp only [Except.bind, hanswer, Except.mapError]

/-- A dispatch whose text is longer than an agent reads comes to an error. -/
theorem Web.Completes.settles_of_long (completes : web.Completes peers e a q seat s)
    (other : a ≠ self) (survives : Document.Survives q)
    (long : bodyLimit < (Document.text q).utf8ByteSize) :
    ∃ ms error, (reach self peers web e.outside e.clock a q).1 =
      .settles (some ms) (.error error) true := by
  obtain ⟨url, r, ms, hasks, authorized, hreach⟩ := completes.reach_eq other
  refine ⟨ms, dispatchError a (.ofResponse ⟨413, ""⟩), ?_⟩
  rw [hreach, hasks.respond_of_long authorized survives long]
  rfl

theorem reach_self (peers : Client) (web : Web σ) (outside : σ) (clock : Clock) (a : Agent)
    (q : DispatchRequest) : (reach a peers web outside clock a q).1 = .inProcess := by
  rw [reach, if_pos rfl]

/-- A task whose run ends comes to the same, and its log gets the same lines, whether it is run in
this process or by another agent of that name whose operation does the same. -/
theorem dispatch_agrees {here : Engine σ} {far : Engine ρ} (nearby : Client) (nearbyWeb : Web σ)
    (freshIds freshIds' : Nat → FreshIds) (identity : seat.self = a) (other : a ≠ self)
    (running : s.isStopping = false) (alike : here.behaviour q = s.engine.behaviour q)
    (ends : (here.courseOf a q).1.ending.isSome) (valid : q.Valid)
    (nested : (toJson q).depth ≤ Json.depthLimit) (validOutcome : (s.engine.outcomeOf a q).Valid)
    (nestedOutcome : (toJson (s.engine.outcomeOf a q)).depth ≤ Json.depthLimit)
    (short : (Document.text q).utf8ByteSize ≤ bodyLimit)
    (completes : web.Completes peers far a q seat s) (works : here.outages.append = none)
    (worksFar : far.outages.append = none) :
    ∃ outcome outcome', Engine.Delivers ⟨reach a nearby nearbyWeb, freshIds⟩ here a q outcome ∧
      Engine.Delivers ⟨reach self peers web, freshIds'⟩ far a q outcome' ∧
      outcome.Matches outcome' := by
  obtain ⟨x, hends⟩ := Option.isSome_iff_exists.1 ends
  obtain ⟨hcourse, hmatches⟩ := Engine.matches_outcomeOf alike a
  have hanswer : (takePart q seat s).1 = .ok (s.engine.outcomeOf a q) := by
    subst identity
    exact takePart_eq running (hcourse ▸ hends)
  obtain ⟨ms, hreach⟩ := completes.settles other (valid.faithful.survives nested)
    short hanswer (validOutcome.faithful.survives nestedOutcome)
  have hhere : (reach a nearby nearbyWeb here.outside here.clock a q).1 = .inProcess :=
    reach_self ..
  exact ⟨here.outcomeOf a q, s.engine.outcomeOf a q, Engine.delivers_here hhere works hends,
    Engine.delivers_of_settles hreach worksFar, hmatches⟩

/-! ## A request that is too long -/

/-- A task whose text is longer than an agent reads is run in this process, and comes to no outcome
when it is sent to another agent. -/
theorem dispatch_divides {here : Engine σ} {far : Engine ρ} (nearby : Client) (nearbyWeb : Web σ)
    (freshIds freshIds' : Nat → FreshIds) (other : a ≠ self)
    (ends : (here.courseOf a q).1.ending.isSome) (survives : Document.Survives q)
    (long : bodyLimit < (Document.text q).utf8ByteSize)
    (completes : web.Completes peers far a q seat s) (works : here.outages.append = none)
    (worksFar : far.outages.append = none) :
    (∃ outcome, Engine.Delivers ⟨reach a nearby nearbyWeb, freshIds⟩ here a q outcome) ∧
      ∀ outcome, ¬ Engine.Delivers ⟨reach self peers web, freshIds'⟩ far a q outcome := by
  obtain ⟨x, hends⟩ := Option.isSome_iff_exists.1 ends
  obtain ⟨ms, error, hreach⟩ := completes.settles_of_long other survives long
  have hhere : (reach a nearby nearbyWeb here.outside here.clock a q).1 = .inProcess :=
    reach_self ..
  exact ⟨⟨here.outcomeOf a q, Engine.delivers_here hhere works hends⟩,
    fun outcome => Engine.not_delivers_of_settles hreach worksFar⟩

end Server

namespace Json

theorem length_toList_le (s : String) : s.toList.length ≤ (written (.text s)).length := by
  have hescaped (c : Char) : 1 ≤ (escaped c).length := by
    unfold escaped
    repeat' split
    all_goals simp
  have hflat (cs : List Char) : cs.length ≤ (cs.flatMap escaped).length := by
    induction cs with
    | nil => exact Nat.le_refl 0
    | cons c cs ih =>
      have := hescaped c
      rw [List.flatMap_cons, List.length_append, List.length_cons]
      omega
  have := hflat s.toList
  simp only [written, quoted, List.length_cons, List.length_append]
  omega

theorem length_written_le_members {members : List (String × Json)} {k : String} {v : Json}
    (h : (k, v) ∈ members) : v.written.length ≤ (writtenMembers members).length := by
  induction members with
  | nil => exact absurd h List.not_mem_nil
  | cons m rest ih =>
    rcases List.mem_cons.1 h with rfl | h
    · cases rest <;> simp only [writtenMembers, List.length_append, List.length_cons] <;> omega
    · obtain _ | ⟨m', rest⟩ := rest
      · exact absurd h List.not_mem_nil
      · have := ih h
        simp only [writtenMembers, List.length_append, List.length_cons] at this ⊢
        omega

theorem length_written_le_object {members : List (String × Json)} {k : String} {v : Json}
    (h : (k, v) ∈ members) : v.written.length ≤ (written (.object members)).length := by
  have := length_written_le_members h
  rw [written, List.length_cons]
  omega

theorem length_written_le_compact (j : Json) : j.written.length ≤ j.compact.utf8ByteSize := by
  have hsize (cs : List Char) : cs.length ≤ String.utf8Len cs := by
    induction cs with
    | nil => exact Nat.le_refl 0
    | cons c cs ih =>
      have := c.utf8Size_pos
      rw [String.utf8Len_cons, List.length_cons]
      omega
  rw [compact, String.utf8ByteSize_ofList]
  exact hsize _

end Json

theorem DispatchRequest.length_name_le (q : DispatchRequest) :
    q.task.name.toList.length ≤ (Document.text q).utf8ByteSize :=
  calc q.task.name.toList.length
      ≤ (Json.written (.text q.task.name)).length := Json.length_toList_le _
    _ ≤ (toJson q.task).written.length := Json.length_written_le_object (.tail _ (.head _))
    _ ≤ (toJson q).written.length := Json.length_written_le_object (.tail _ (.head _))
    _ ≤ (Document.text q).utf8ByteSize := Json.length_written_le_compact _

/-! ## An errand -/

namespace Sample

/-- An operation that takes its time, keeps a result and logs two lines. -/
def measure : Operation :=
  ⟨"measure", .all, fun _ => .log "started" (.pause 5 (.setResult "rows" (.int 3)
    (.log "done" .done))), none⟩

/-- A task for the worker, under any name. -/
def errand (name : String) : DispatchRequest :=
  ⟨⟨⟨0⟩⟩, ⟨ids.task 0 0, name, "measure", .new worker, .all, .running, .empty, none, none⟩,
    .execute⟩

/-- An agent that knows the operation: the worker itself, or the one that sends the errand. -/
def measurer : Engine Unit := .new (.ofSorted [measure] (List.pairwise_singleton ..)) dawn ()

def workplace : Seat Unit := ⟨worker, none, ⟨fun _ _ _ _ => (.inProcess, ()), fun _ => ids⟩⟩

def atWork : Server Unit := ⟨measurer, false⟩

/-- A client whose own address is another one. -/
def errands : Client := ⟨⟨"http", "", "", some (.ipv4 2130706433), some 2886, .segments [""], none,
  none⟩, none, 30000, .never⟩

/-- Whatever is sent reaches the worker, whose answer is back seven milliseconds later. -/
def web : Server.Web Unit :=
  ⟨fun _ _ _ r => ((some 7, .arrived (Server.respond r workplace atWork).1.sent), ())⟩

theorem host_worker : Http.Host.parse "worker" = .ok (.domain "worker") := by
  have hlabels : "worker".splitOn "." = ["worker"] := splitOn_singleton _ '.'
  have hname : (Http.lossyText (Http.percentDecoded "worker".toList)).toList.filter
      (!Http.Host.isIgnored ·) = "worker".toList := by decide +kernel
  have hfolded : "worker".toList.map Http.Host.folded = "worker".toList := by decide +kernel
  have htext : Http.Host.domainText "worker" = .ok "worker" := by
    have hsound : Http.Host.isSound "worker" = true := by decide +kernel
    have hencoded : Http.Host.encodedLabel "worker" = "worker" := by decide +kernel
    have hallowed : ("worker".toList.any fun c => c.toNat < 32 || Http.Host.forbidden.contains c ||
        Http.Host.isRefused c) = false := by decide +kernel
    simp only [Http.Host.domainText, hname, hfolded, String.ofList_toList, hlabels, hallowed,
      List.all_cons, hsound, List.map_cons, hencoded]
    rfl
  have hbracket : "worker".startsWith "[" = false := by simp
  have hnumber : Http.Host.endsInNumber "worker" = false := by
    simp only [Http.Host.endsInNumber, Http.Host.labels, hlabels]
    decide
  rw [Http.Host.parse, htext, hbracket]
  simp only [Except.bind, bind, hnumber]
  rfl

theorem parse_worker : Http.Url.parse worker.baseUrl =
    .ok ⟨"http", "", "", some (.domain "worker"), some 7000, .segments [""], none, none⟩ := by
  have hbase : worker.baseUrl = "http://worker:7000" := by decide +kernel
  have hscheme : Http.Url.splitScheme? (Http.Url.trimmed "http://worker:7000") =
      some ("http", "//worker:7000".toList) := by decide +kernel
  have hslashes : "//worker:7000".toList.dropWhile (Http.Url.isSlash true) =
      "worker:7000".toList := by decide +kernel
  have hspecial : Http.Url.isSpecial "http" = true := by decide
  have hfile : ("http" == "file") = false := by decide
  have hcut : Http.Url.cutAt (fun c => Http.Url.isSlash true c || c == '?' || c == '#')
      "worker:7000".toList = ("worker:7000".toList, []) := by decide +kernel
  have huser : Http.Url.splitUserinfo "worker:7000".toList = (none, "worker:7000".toList) := by
    decide +kernel
  have hsplit : Http.Url.splitPort false "worker:7000".toList =
      ("worker".toList, some "7000".toList) := by decide +kernel
  have hport : Http.Url.portOf "http" "7000".toList = .ok (some 7000) := by rfl
  rw [hbase, Http.Url.parse, hscheme]
  simp only [hfile, hspecial, hslashes, if_true, Bool.false_eq_true, if_false, Http.Url.ofAuthority,
    hcut, huser, hsplit, String.ofList_toList, host_worker, Option.getD_some, hport, bind,
    Except.bind]
  rfl

theorem completes_errand (name : String) :
    web.Completes errands measurer worker (errand name) workplace atWork := by
  have hagent : errands.forAgent worker = .ok { errands with base :=
      ⟨"http", "", "", some (.domain "worker"), some 7000, .segments [""], none, none⟩ } := by
    simp only [Client.forAgent, parse_worker, Client.address, Except.mapError, bind, Except.bind]
    rfl
  obtain ⟨url, r, hrequest⟩ := Client.exists_requestFor (c := { errands with base :=
    ⟨"http", "", "", some (.domain "worker"), some 7000, .segments [""], none, none⟩ }) rfl
    (ApiCall.dispatch (errand name))
  refine ⟨url, r, 7, (), ?_, rfl, rfl, by decide⟩
  rw [hagent]
  exact hrequest

theorem valid_errand (name : String) : (errand name).Valid where
  task :=
    { context := ⟨.empty, .empty⟩, startedAt := nofun
      finishedAt := nofun }

theorem depth_errand (name : String) : (toJson (errand name)).depth ≤ Json.depthLimit :=
  Nat.le_of_ble_eq_true rfl

theorem course_errand (name : String) : measurer.courseOf worker (errand name) =
    (⟨[⟨0, 0, .line "started"⟩,
        ⟨0, 5, .context ((TaskContext.new worker).setResult "rows" (.int 3))⟩,
        ⟨0, 5, .line "done"⟩],
      some ⟨0, 5, .ok ()⟩⟩, none) := rfl

theorem valid_outcome_errand (name : String) : (measurer.outcomeOf worker (errand name)).Valid where
  context := ⟨.empty, ⟨List.forall_mem_singleton.2 rfl, rfl⟩⟩
  logs := by
    have hlogs : (measurer.outcomeOf worker (errand name)).logs =
        [⟨measurer.clock.after 0, "started"⟩, ⟨measurer.clock.after 5, "done"⟩] := rfl
    rw [hlogs]
    exact List.forall_mem_cons.2 ⟨⟨by decide, by decide, by decide⟩,
      List.forall_mem_singleton.2 ⟨by decide, by decide, by decide⟩⟩

theorem depth_outcome_errand (name : String) :
    (toJson (measurer.outcomeOf worker (errand name))).depth ≤ Json.depthLimit :=
  Nat.le_of_ble_eq_true rfl

theorem short_errand : (Document.text (errand "copy")).utf8ByteSize ≤ Server.bodyLimit := by
  rw [Document.text, Json.compact, String.utf8ByteSize_ofList]
  decide +kernel

/-- The agent that sends the errand when it does not run it itself. -/
def sender : Agent := ⟨"127.0.0.1", 2886⟩

/-- The surroundings of an agent under a name. -/
def around (self : Agent) : Surroundings Unit := ⟨Server.reach self errands web, fun _ => ids⟩

/-- A name of so many letters. -/
def letters (n : Nat) : String := String.ofList (List.replicate n 'a')

theorem length_letters (n : Nat) : (letters n).toList.length = n := by
  rw [letters, String.toList_ofList, List.length_replicate]

theorem divided_errand {name : String} (long : Server.bodyLimit < name.toList.length) :
    (∃ outcome, Engine.Delivers (around worker) measurer worker (errand name) outcome) ∧
      ∀ outcome, ¬ Engine.Delivers (around sender) measurer worker (errand name) outcome := by
  have other : worker ≠ sender := by decide
  have ends : (measurer.courseOf worker (errand name)).1.ending.isSome := by
    rw [course_errand]
    rfl
  have survives : Document.Survives (errand name) :=
    (valid_errand name).faithful.survives (depth_errand name)
  have works : measurer.outages.append = none := rfl
  exact Server.dispatch_divides errands web (fun _ => ids) (fun _ => ids) other ends survives
    (Nat.lt_of_lt_of_le long (errand name).length_name_le) (completes_errand name) works works

end Sample

/-- The worker measures for itself what it measures for others. -/
theorem Server.dispatch_agrees_errand :
    ∃ outcome outcome',
      Engine.Delivers (Sample.around Sample.worker) Sample.measurer Sample.worker
        (Sample.errand "copy") outcome ∧
      Engine.Delivers (Sample.around Sample.sender) Sample.measurer Sample.worker
        (Sample.errand "copy") outcome' ∧
      outcome.Matches outcome' := by
  have identity : Sample.workplace.self = Sample.worker := rfl
  have other : Sample.worker ≠ Sample.sender := by decide
  have running : Sample.atWork.isStopping = false := rfl
  have alike : Sample.measurer.behaviour (Sample.errand "copy") =
    Sample.atWork.engine.behaviour (Sample.errand "copy") := rfl
  have ends : (Sample.measurer.courseOf Sample.worker (Sample.errand "copy")).1.ending.isSome := by
    rw [Sample.course_errand]
    rfl
  have works : Sample.measurer.outages.append = none := rfl
  exact dispatch_agrees Sample.errands Sample.web (fun _ => Sample.ids) (fun _ => Sample.ids)
    identity other running alike ends (Sample.valid_errand "copy") (Sample.depth_errand "copy")
    (Sample.valid_outcome_errand "copy") (Sample.depth_outcome_errand "copy") Sample.short_errand
    (Sample.completes_errand "copy") works works

/-- A task with a very long name is run by the worker itself, and refused by the worker when it is
sent over the web, although nothing else about it is amiss. -/
theorem Server.dispatch_disagrees_long :
    (Sample.errand (Sample.letters 2097153)).Valid ∧
    (toJson (Sample.errand (Sample.letters 2097153))).depth ≤ Json.depthLimit ∧
    (Sample.measurer.outcomeOf Sample.worker (Sample.errand (Sample.letters 2097153))).Valid ∧
    (toJson (Sample.measurer.outcomeOf Sample.worker
      (Sample.errand (Sample.letters 2097153)))).depth ≤ Json.depthLimit ∧
    Sample.web.Completes Sample.errands Sample.measurer Sample.worker
      (Sample.errand (Sample.letters 2097153)) Sample.workplace Sample.atWork ∧
    (∃ outcome, Engine.Delivers (Sample.around Sample.worker) Sample.measurer Sample.worker
      (Sample.errand (Sample.letters 2097153)) outcome) ∧
    ∀ outcome, ¬ Engine.Delivers (Sample.around Sample.sender) Sample.measurer Sample.worker
      (Sample.errand (Sample.letters 2097153)) outcome := by
  have hlong (n : Nat) (hn : Server.bodyLimit < n) :
      Server.bodyLimit < (Sample.letters n).toList.length := by rwa [Sample.length_letters]
  exact ⟨Sample.valid_errand _, Sample.depth_errand _, Sample.valid_outcome_errand _,
    Sample.depth_outcome_errand _, Sample.completes_errand _,
    Sample.divided_errand (hlong 2097153 (by decide))⟩

end Stagewise
