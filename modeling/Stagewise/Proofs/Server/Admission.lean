import Stagewise.Proofs.Engine.Command
import Stagewise.Proofs.Text.Splitting
import Stagewise.Server.Basic
/-!
# Who is let in

A stranger is whoever does not show the token that an agent asks for. All that is said to one
follows from the request and the address of the agent: a stranger's request neither reads anything
that the agent keeps nor leaves a trace in it, at whatever moment it comes.
-/

namespace Stagewise

/-- Whether a request shows a token: its first authorization header holds just that. -/
def Http.Request.Shows (r : Http.Request) (token : String) : Prop :=
  r.headers.first? "Authorization" = some ("Bearer " ++ token)

instance (r : Http.Request) (token : String) : Decidable (r.Shows token) :=
  inferInstanceAs (Decidable (_ = _))

namespace Server

variable {σ : Type} {seat : Seat σ} {r : Http.Request} {token : String}

theorem withoutHead?_eq_some_iff {head s rest : String} :
    withoutHead? head s = some rest ↔ s = head ++ rest := by
  simp only [withoutHead?, Option.ite_none_right_eq_some, Option.some.injEq]
  constructor
  · rintro ⟨hhead, rfl⟩
    obtain ⟨l, hl⟩ := List.isPrefixOf_iff_prefix.1 hhead
    apply String.toList_injective
    rw [String.toList_append, String.toList_ofList, ← hl, ← String.length_toList, List.drop_left]
  · rintro rfl
    rw [String.toList_append, ← String.length_toList, List.drop_left, String.ofList_toList]
    exact ⟨List.isPrefixOf_iff_prefix.2 (List.prefix_append _ _), rfl⟩

/-- Whoever shows the token is let in, if it can be read, and nobody else. -/
theorem isAuthorized_iff :
    isAuthorized (some token) r.headers = true ↔
      r.Shows token ∧ Http.isPlainValue token = true := by
  have hplain : Http.isPlainValue ("Bearer " ++ token) = Http.isPlainValue token := by
    have hhead : "Bearer ".toList.all Http.isPlainChar = true := by decide
    rw [Http.isPlainValue, String.toList_append, List.all_append, hhead, Bool.true_and,
      Http.isPlainValue]
  simp only [isAuthorized, beq_iff_eq, bearer?, Option.bind_eq_bind, Option.bind_eq_some_iff,
    Option.ite_none_right_eq_some, withoutHead?_eq_some_iff, Http.Request.Shows]
  constructor
  · rintro ⟨value, hvalue, hread, rfl⟩
    exact ⟨hvalue, hplain ▸ hread⟩
  · rintro ⟨hshows, hread⟩
    exact ⟨_, hshows, hplain ▸ hread, rfl⟩

/-! ## The way of a request -/

/-- On a route, a request is served by one of its methods once it is let in. -/
theorem respond_of_route {route : Route} (asking : r.method ≠ "OPTIONS")
    (leads : Route.ofPath? r.path = some route) (s : Server σ) :
    respond r seat s =
      if !route.isOpen && !isAuthorized seat.token r.headers then (.bare 401, s)
      else if !route.methods.contains r.method then (.bare 405, s)
      else (serve route r seat s).map
        (fun answer => if r.method = "HEAD" then .bare answer.status else answer) id := by
  unfold respond
  rw [if_neg asking, leads]
  change (if !route.isOpen && !isAuthorized seat.token r.headers then pure (.bare 401)
    else if !route.methods.contains r.method then pure (.bare 405)
    else do
      let answer ← serve route r
      return if r.method = "HEAD" then .bare answer.status else answer :
    ServerM σ Answer) seat s = _
  split
  · rfl
  · split <;> rfl

/-- What an agent tells everyone about itself. -/
def health (self : Agent) : Answer :=
  ⟨200, some (.object [("status", .text "ok"), ("agent", .text self.text),
    ("version", .text version)])⟩

/-- What an agent that asks for a token answers to a stranger. -/
def toStranger (self : Agent) (r : Http.Request) : Answer :=
  if r.method = "OPTIONS" then .bare 200
  else
    match Route.ofPath? r.path with
    | none => .bare 404
    | some route =>
      if !route.isOpen then .bare 401
      else if !route.methods.contains r.method then .bare 405
      else if r.method = "HEAD" then .bare 200
      else health self

/-- Nothing but an agent's health is served openly. -/
theorem serve_open {route : Route} (h : route.isOpen = true) (s : Server σ) :
    serve route r seat s = (health seat.self, s) := by
  obtain rfl : route = .health := beq_iff_eq.1 h
  rfl

theorem respond_stranger (asks : seat.token = some token) (strange : ¬ r.Shows token)
    (s : Server σ) : respond r seat s = (toStranger seat.self r, s) := by
  have hrefused : isAuthorized seat.token r.headers = false := by
    rw [asks]
    exact Bool.eq_false_iff.2 fun h => strange (isAuthorized_iff.1 h).1
  unfold toStranger
  by_cases hoptions : r.method = "OPTIONS"
  · unfold respond
    rw [if_pos hoptions, if_pos hoptions]
    rfl
  · rw [if_neg hoptions]
    cases hroute : Route.ofPath? r.path with
    | none =>
      unfold respond
      rw [if_neg hoptions, hroute]
      rfl
    | some route =>
      rw [respond_of_route hoptions hroute, hrefused, Bool.not_false, Bool.and_true]
      dsimp only
      -- The token is asked for before anyone looks at the method.
      cases hopen : route.isOpen with
      | false => rfl
      | true =>
        rw [serve_open hopen, Prod.map]
        simp only [Bool.not_true, Bool.false_eq_true, if_false]
        split
        · rfl
        · rfl

/-- Whatever a stranger asks for, the answer is the same whatever the agent keeps, since the request
and the address of the agent decide it, and the agent stays as it is. -/
theorem strangers_learn_nothing (asks : seat.token = some token) (strange : ¬ r.Shows token)
    (s s' : Server σ) :
    (respond r seat s).1 = (respond r seat s').1 ∧ (respond r seat s).2 = s ∧
      (respond r seat s).1 = toStranger seat.self r := by
  rw [respond_stranger asks strange s, respond_stranger asks strange s']
  exact ⟨rfl, rfl, rfl⟩

end Server

namespace Sample

/-- An agent that asks for a token. -/
def guarded : Seat Unit := ⟨worker, some "agent-secret", surroundings⟩

/-- A request for the dags of an agent, by someone who does not know its token. -/
def guess : Http.Request := ⟨"GET", "/api/v1/dags", none, [("authorization", "Bearer guess")], ""⟩

theorem toStranger_guess : Server.toStranger worker guess = .bare 401 := by
  have hparts : "/api/v1/dags".splitOn "/" = ["", "api", "v1", "dags"] := splitOn_singleton _ '/'
  have hroute : Server.Route.ofPath? guess.path = some .dags := by
    rw [guess, Server.Route.ofPath?, hparts]
    rfl
  rw [Server.toStranger, hroute]
  rfl

end Sample

namespace Server

/-- An agent that keeps a dag and one that keeps none refuse the request alike. -/
theorem strangers_learn_nothing_guess :
    Sample.guarded.token = some "agent-secret" ∧ ¬ Sample.guess.Shows "agent-secret" ∧
      (respond Sample.guess Sample.guarded ⟨Sample.engine, false⟩).1
        = (respond Sample.guess Sample.guarded ⟨.new Sample.registry Sample.dawn (), false⟩).1 ∧
      (respond Sample.guess Sample.guarded ⟨Sample.engine, false⟩).2 = ⟨Sample.engine, false⟩ ∧
      (respond Sample.guess Sample.guarded ⟨Sample.engine, false⟩).1 = .bare 401 := by
  have hasks : Sample.guarded.token = some "agent-secret" := rfl
  have hstrange : ¬ Sample.guess.Shows "agent-secret" := by decide +kernel
  obtain ⟨hsame, hstays, hanswer⟩ := strangers_learn_nothing hasks hstrange
    ⟨Sample.engine, false⟩ ⟨.new Sample.registry Sample.dawn (), false⟩
  exact ⟨hasks, hstrange, hsame, hstays, hanswer.trans Sample.toStranger_guess⟩

/-! ## Strangers among others -/

/-- What happens to an agent while it is up: it is asked, or does something by itself. -/
inductive Moment (σ : Type) where
  | asked (r : Http.Request)
  | alone (work : Server σ → Server σ)

namespace Moment

/-- The request of a stranger, if that is what happens. -/
def stranger? (token : String) : Moment σ → Option Http.Request
  | .asked r => if r.Shows token then none else some r
  | .alone _ => none

@[simp] theorem stranger?_of_shows (h : r.Shows token) :
    (asked r : Moment σ).stranger? token = none := if_pos h

@[simp] theorem stranger?_of_not_shows (h : ¬ r.Shows token) :
    (asked r : Moment σ).stranger? token = some r := if_neg h

end Moment

/-- What an agent is asked and answers from one moment to the next, and what becomes of it. -/
def exchanges (seat : Seat σ) :
    List (Moment σ) → Server σ → List (Http.Request × Answer) × Server σ
  | [], s => ([], s)
  | .asked r :: moments, s =>
    let told := respond r seat s
    (exchanges seat moments told.2).map ((r, told.1) :: ·) id
  | .alone work :: moments, s => exchanges seat moments (work s)

theorem exchanges_stranger (asks : seat.token = some token) (strange : ¬ r.Shows token)
    (moments : List (Moment σ)) (s : Server σ) :
    exchanges seat (.asked r :: moments) s
      = (exchanges seat moments s).map ((r, toStranger seat.self r) :: ·) id := by
  simp only [exchanges, respond_stranger asks strange s]

/-- Strangers are told the same whatever happens between their requests. -/
theorem exchanges_strangers (asks : seat.token = some token) (moments : List (Moment σ))
    (s : Server σ) :
    (exchanges seat moments s).1.filter (fun x => ¬ x.1.Shows token)
      = (moments.filterMap (·.stranger? token)).map fun r => (r, toStranger seat.self r) := by
  induction moments generalizing s with
  | nil => rfl
  | cons moment moments ih =>
    cases moment with
    | alone work => exact ih (work s)
    | asked r =>
      by_cases hshows : r.Shows token
      · simpa [exchanges, hshows] using ih (respond r seat s).2
      · simpa [exchanges_stranger asks hshows, hshows] using ih s

/-- Without its strangers, an agent would answer the others as it does and come to be the same. -/
theorem exchanges_without_strangers (asks : seat.token = some token) (moments : List (Moment σ))
    (s : Server σ) :
    exchanges seat (moments.filter fun m => (m.stranger? token).isNone) s
      = (exchanges seat moments s).map (·.filter fun x => x.1.Shows token) id := by
  induction moments generalizing s with
  | nil => rfl
  | cons moment moments ih =>
    cases moment with
    | alone work => exact ih (work s)
    | asked r =>
      by_cases hshows : r.Shows token
      · simp [exchanges, hshows, ih, Prod.map]
      · simpa [exchanges_stranger asks hshows, hshows, Prod.map] using ih s

end Server

end Stagewise
