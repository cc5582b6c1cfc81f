import Stagewise.Proofs.Client.Requests
import Stagewise.Proofs.Engine.Dispatch
import Stagewise.Proofs.Engine.InProcess
import Stagewise.Proofs.Server.Admission
import Stagewise.Proofs.Text.Splitting
/-!
# A dispatch on the web

The request that carries a task to another agent, and what that agent makes of it: the same run as
within its process, under its own name, unless the text of the request is longer than an agent
reads.
-/

namespace Stagewise

/-- The response that an answer is sent as. -/
def Answer.sent (a : Answer) : Http.Response := ⟨a.status, (a.body.map Json.compact).getD ""⟩

/-- A request that asks an agent to take part in a task. -/
structure Http.Request.Asks (r : Http.Request) (q : DispatchRequest) : Prop where
  method : r.method = "POST"
  path : Server.Route.ofPath? r.path = some .dispatch
  typed : r.headers.first? "content-type" = some "application/json"
  body : r.body = Document.text q

namespace Server

theorem Route.ofPath?_dispatch : Route.ofPath? "/api/v1/agent/dispatch" = some .dispatch := by
  have hparts : "/api/v1/agent/dispatch".splitOn "/" = ["", "api", "v1", "agent", "dispatch"] :=
    splitOn_singleton _ '/'
  rw [Route.ofPath?, hparts]
  rfl

theorem isDocumentType_json : isDocumentType "application/json" = true := by
  have hessence : String.ofList (((("application/json".toList.takeWhile (· != ';')).map
      Char.toLower).reverse.dropWhile (· == ' ')).reverse) = "application/json" := by decide
  have hparts : "application/json".splitOn "/" = ["application", "json"] := splitOn_singleton _ '/'
  have hkinds : "json".splitOn "+" = ["json"] := splitOn_singleton _ '+'
  simp only [isDocumentType, hessence, hparts, hkinds]
  decide

end Server

theorem Http.Url.pathText_dispatch (u : Http.Url)
    (h : u.path = .segments (pathOf (isSpecial u.scheme) "/api/v1/agent/dispatch".toList)) :
    u.pathText = "/api/v1/agent/dispatch" := by
  have hparts (special : Bool) :
      pathOf special "/api/v1/agent/dispatch".toList = ["api", "v1", "agent", "dispatch"] := by
    cases special <;> decide +kernel
  have hhead : (["api", "v1", "agent", "dispatch"].head? == some "") = false := by decide
  have hjoined : String.join (["api", "v1", "agent", "dispatch"].map ("/" ++ ·)) =
      "/api/v1/agent/dispatch" := by decide
  rw [pathText, h, hparts]
  simp only [hhead, Bool.and_false, Bool.false_and, Bool.false_eq_true, if_false, hjoined]

theorem Client.first?_contentType (shown : Option String) :
    Http.Headers.first? (shown.toList.map (fun value => ("authorization", value)) ++
      [("content-type", "application/json")]) "content-type" = some "application/json" := by
  have hother : (Http.lowered "authorization" == Http.lowered "content-type") = false := by decide
  cases shown with
  | none => rfl
  | some value =>
    simp only [Http.Headers.first?, Option.toList_some, List.map_cons, List.map_nil,
      List.cons_append, List.nil_append, List.find?_cons, hother]
    rfl

namespace Http.Request.Asks

variable {r : Http.Request} {q : DispatchRequest} {σ : Type} {seat : Seat σ} {s : Server σ}

/-- What a client sends for a dispatch asks for it, whatever the address. -/
theorem of_requestFor {c : Client} {url : Http.Url}
    (h : c.requestFor (ApiCall.dispatch q) = .ok (url, r)) : r.Asks q := by
  have hread : (ApiCall.dispatch q).isRead = false := rfl
  have hmethod := Client.method_of_requestFor h
  simp only [Client.requestFor, Http.Url.at'] at h
  split at h
  · cases h
  · simp only [Client.address, Except.mapError, bind, Except.bind, pure, Except.pure, hread,
      Bool.false_eq_true, if_false, Except.ok.injEq, Prod.mk.injEq] at h
    obtain ⟨-, rfl⟩ := h
    refine ⟨hmethod, ?_, Client.first?_contentType _, rfl⟩
    simp only
    rw [Http.Url.pathText_dispatch _ rfl]
    exact Server.Route.ofPath?_dispatch

/-- A request that is let in comes to what its body asks for. -/
theorem respond_eq (h : r.Asks q) (authorized : Server.isAuthorized seat.token r.headers = true) :
    (Server.respond r seat s).1 = (Server.withBody r Server.takePart seat s).1 := by
  have hasking : r.method ≠ "OPTIONS" := by rw [h.method]; decide
  have hhead : r.method ≠ "HEAD" := by rw [h.method]; decide
  have hmethods : Server.Route.dispatch.methods.contains r.method = true := by
    rw [h.method]
    decide
  rw [Server.respond_of_route hasking h.path, authorized, hmethods]
  simp only [hhead, Bool.not_true, Bool.and_false, Bool.false_eq_true, if_false]
  rfl

/-- The body is read as the dispatch that it was written for, unless it is longer than an agent
reads. -/
theorem bodyOf_eq (h : r.Asks q) (survives : Document.Survives q) :
    Server.bodyOf DispatchRequest r =
      if Server.bodyLimit < (Document.text q).utf8ByteSize then .error (.bare 413) else .ok q := by
  have hplain : Http.isPlainValue "application/json" = true := by decide
  obtain ⟨j, hread, hdecoded⟩ := survives.read
  rw [Server.bodyOf, h.typed, h.body]
  simp only [hplain, Server.isDocumentType_json, Bool.and_self, Bool.not_true, Bool.false_eq_true,
    if_false, hread, hdecoded]

theorem respond_of_short (h : r.Asks q)
    (authorized : Server.isAuthorized seat.token r.headers = true) (survives : Document.Survives q)
    (short : (Document.text q).utf8ByteSize ≤ Server.bodyLimit) :
    (Server.respond r seat s).1 = (Server.takePart q seat s).1 := by
  rw [h.respond_eq authorized, Server.withBody, h.bodyOf_eq survives, if_neg (Nat.not_lt.2 short)]

theorem respond_of_long (h : r.Asks q)
    (authorized : Server.isAuthorized seat.token r.headers = true) (survives : Document.Survives q)
    (long : Server.bodyLimit < (Document.text q).utf8ByteSize) :
    (Server.respond r seat s).1 = .bare 413 := by
  rw [h.respond_eq authorized, Server.withBody, h.bodyOf_eq survives, if_pos long]
  rfl

end Http.Request.Asks

namespace Server

variable {σ : Type} {seat : Seat σ} {s : Server σ} {q : DispatchRequest}

/-- An agent that takes part in a task of another one makes the same of it as in its own process,
under its own name. -/
theorem takePart_eq (running : s.isStopping = false) {x : Ending}
    (hends : (s.engine.courseOf seat.self q).1.ending = some x) :
    (takePart q seat s).1 = .ok (s.engine.outcomeOf seat.self q) := by
  have hrun (nth : Nat) (hnth : Runner.timeline s.engine.registry seat.self q nth .never =
      s.engine.courseOf seat.self q) (s' : Server σ) :
      (answerTo seat s q nth seat s').1 = .ok (s.engine.outcomeOf seat.self q) := by
    have hmade : Runner.run s.engine.registry seat.self q nth .never s.engine.clock.after =
        some (s.engine.outcomeOf seat.self q, x.at') := by
      rw [Runner.run, hnth]
      simp only [hends, Option.map_some]
      rfl
    rw [answerTo, running, if_neg Bool.false_ne_true, hmade]
    rfl
  obtain ⟨e', hcounted, -⟩ := Engine.perform_countCall seat.surroundings s.engine q.task.typeName
    q.action
  change ((if Runner.calls s.engine.registry seat.self q then _ else _ : ServerM σ Answer) seat s).1
    = _
  cases hcalls : Runner.calls s.engine.registry seat.self q with
  | true =>
    let counted := perform (Engine.countCall q.task.typeName q.action) seat s
    have hnth : counted.1 = .ok (s.engine.callsOf q.task.typeName q.action) :=
      congrArg Prod.fst hcounted
    change (answerTo seat s q (counted.1.toOption.getD 0) seat counted.2).1 = _
    rw [hnth]
    exact hrun _ rfl _
  | false => exact hrun 0 (Runner.timeline_of_not_calls hcalls 0 _ _) s

end Server

end Stagewise
