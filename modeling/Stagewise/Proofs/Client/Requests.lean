import Stagewise.Client.Handle
import Stagewise.Proofs.Document.Dag
import Stagewise.Proofs.Results
/-!
# How often requests go out

What a client sends while one answer after another comes in. A read goes out again as long as the
answers may mend and its policy allows it; every other call goes out once. A handle has switched the
repetition of its client off, whatever its settings are and in whatever order they were made, and
repeats whole fetches instead.
-/

namespace Stagewise

theorem run_bind {σ α β : Type} (x : StateM σ α) (f : α → StateM σ β) (s : σ) :
    (x >>= f).run s = (f (x.run s).1).run (x.run s).2 := rfl

theorem run_pure {σ α : Type} (a : α) (s : σ) : (pure a : StateM σ α).run s = (a, s) := rfl

/-- A request, and the address that it was sent to. -/
abbrev Sent := Http.Url × Http.Request

/-- A wire that keeps what is sent over it and brings one answer after another. -/
def Wire.answering (answers : Nat → Reply) : Wire (StateM (List Sent)) where
  exchange url r _ := fun sent => (answers sent.length, sent ++ [(url, r)])
  pause _ := pure ()

theorem run_pause_answering (answers : Nat → Reply) (ms : Nat) (sent : List Sent) :
    ((Wire.answering answers).pause ms).run sent = ((), sent) := rfl

/-- Whether a reply says that there is no such thing. -/
def Reply.isMissing : Reply → Bool
  | .arrived response => response.status == 404
  | _ => false

namespace Client

variable {α : Type} {answers : Nat → Reply} {sent : List Sent} {c : Client} {call : ApiCall α}
  {url : Http.Url} {r : Http.Request}

/-- Whether a reply ends a read: a success, or a failure that will not mend. -/
def settles (url : Http.Url) (reply : Reply) : Bool :=
  match received url reply with
  | .ok _ => true
  | .error e => !e.isRetryable

/-- The requests of a read that may be repeated so many times: up to the first answer that ends it,
and at most one more than the repetitions. -/
def attempts (url : Http.Url) (repetitions : Nat) (answers : Nat → Reply) : Nat :=
  ((List.range repetitions).findIdx fun i => settles url (answers i)) + 1

@[simp] theorem attempts_zero : attempts url 0 answers = 1 := rfl

theorem attempts_succ (repetitions : Nat) :
    attempts url (repetitions + 1) answers =
      if settles url (answers 0) then 1
      else attempts url repetitions (fun i => answers (i + 1)) + 1 := by
  rw [attempts, List.range_succ_eq_map, List.findIdx_cons, List.findIdx_map]
  cases settles url (answers 0) <;> rfl

theorem run_send_answering :
    (send (.answering answers) c url r).run sent =
      (received url (answers sent.length), sent ++ [(url, r)]) := rfl

/-- A request that may be repeated goes out until an answer ends it, and what comes of it is what
the last answer comes to. -/
theorem run_sendRepeatedly_answering (repetitions : Nat) :
    (sendRepeatedly (.answering answers) c url r repetitions).run sent =
      let k := attempts url repetitions fun i => answers (sent.length + i)
      (received url (answers (sent.length + (k - 1))), sent ++ List.replicate k (url, r)) := by
  induction repetitions generalizing sent with
  | zero => rfl
  | succ repetitions ih =>
    rw [sendRepeatedly, run_bind, run_send_answering, attempts_succ, Nat.add_zero]
    have hsettles : settles url (answers sent.length) =
      match received url (answers sent.length) with
      | .ok _ => true
      | .error e => !e.isRetryable := rfl
    cases hreceived : received url (answers sent.length) with
    | ok response =>
      simp only [hreceived] at hsettles
      simp only [hsettles, if_true, Nat.sub_self, Nat.add_zero, hreceived, List.replicate_one,
        run_pure]
    | error e =>
      simp only [hreceived] at hsettles
      cases hmends : e.isRetryable with
      | false =>
        simp only [hsettles, hmends, Bool.not_false, if_true, Bool.false_eq_true, if_false,
          Nat.sub_self, Nat.add_zero, hreceived, List.replicate_one, run_pure]
      | true =>
        -- the request is the first of those that the repetitions after it would have made
        have hshift : (fun i => answers (sent.length + 1 + i)) =
            fun i => answers (sent.length + (i + 1)) := by
          funext i
          rw [Nat.add_assoc, Nat.add_comm 1 i]
        have hpos : 0 < attempts url repetitions fun i => answers (sent.length + (i + 1)) :=
          Nat.succ_pos _
        simp only [hsettles, hmends, Bool.not_true, Bool.false_eq_true, if_true, if_false,
          run_bind, run_pause_answering, ih, List.length_append, List.length_singleton, hshift,
          Nat.add_sub_cancel, List.append_assoc, List.singleton_append, ← List.replicate_succ]
        have hlast : sent.length + 1 +
            ((attempts url repetitions fun i => answers (sent.length + (i + 1))) - 1) =
            sent.length + attempts url repetitions fun i => answers (sent.length + (i + 1)) := by
          omega
        rw [hlast]

/-- How often the request of a call goes out. -/
def requestsOf (c : Client) (call : ApiCall α) (url : Http.Url) (answers : Nat → Reply) : Nat :=
  if call.isRead then attempts url c.retries.maxRetries answers else 1

/-- A call sends the same request until it has gone out as often as it should, and returns what the
last answer says. A call whose address cannot be formed sends nothing. -/
theorem run_perform_answering (c : Client) (call : ApiCall α) :
    (c.perform (.answering answers) call).run sent =
      match c.requestFor call with
      | .error e => (.error e, sent)
      | .ok (url, r) =>
        let k := c.requestsOf call url fun i => answers (sent.length + i)
        ((received url (answers (sent.length + (k - 1)))).bind (answerIn call),
          sent ++ List.replicate k (url, r)) := by
  cases hrequest : c.requestFor call with
  | error e => simp only [perform, hrequest, run_pure]
  | ok sending =>
    cases hread : call.isRead with
    | true =>
      simp only [perform, hrequest, hread, requestsOf, if_true, run_bind,
        run_sendRepeatedly_answering, run_pure]
    | false =>
      simp only [perform, hrequest, hread, requestsOf, Bool.false_eq_true, if_false, run_bind,
        run_send_answering, run_pure, Nat.sub_self, Nat.add_zero, List.replicate_one]

theorem method_of_requestFor (hrequest : c.requestFor call = .ok (url, r)) :
    r.method = if call.isRead then "GET" else "POST" := by
  simp only [requestFor] at hrequest
  cases hplace : address (c.base.at' call.path) with
  | error e => simp [hplace, bind, Except.bind] at hrequest
  | ok place =>
    simp only [hplace, bind, Except.bind, pure, Except.pure, Except.ok.injEq,
      Prod.mk.injEq] at hrequest
    rw [← hrequest.2]

theorem exists_requestFor {names : List String} (hpath : c.base.path = .segments names)
    (call : ApiCall α) : ∃ url r, c.requestFor call = .ok (url, r) := by
  simp only [requestFor, Http.Url.at', hpath]
  exact ⟨_, _, rfl⟩

theorem answerIn_text [Document α] {a : α} (hsurvives : Document.Survives a)
    (hdecode : call.decode = Document.ofJson) (status : Nat) :
    answerIn call ⟨status, Document.text a⟩ = .ok a := by
  obtain ⟨j, hread, hdecoded⟩ := hsurvives.read
  simp only [answerIn, hread, hdecode, Option.map_some, hdecoded]

theorem eq_of_check {c' : Client} (hcheck : c.check = .ok c') : c' = c := by
  unfold check at hcheck
  split at hcheck
  · split at hcheck
    · exact (Except.ok.inj hcheck).symm
    · cases hcheck
  · exact (Except.ok.inj hcheck).symm

theorem retries_of_forAgent {c' : Client} {a : Agent} (hagent : c.forAgent a = .ok c') :
    c'.retries = c.retries := by
  obtain ⟨base, -, hcheck⟩ := bind_eq_ok hagent
  rw [eq_of_check hcheck]

end Client

namespace Handle

/-- What a handle can be told before it is used. -/
inductive Setting where
  | agent (a : Agent)
  | retryTimes (times : Nat)
  | upgrade (on : Bool)
  | pollMs (ms : Nat)
  | backoffMs (ms : Nat)
  | logTail (lines : Nat)

def Setting.apply (h : Handle) : Setting → Except ClientError Handle
  | .agent a => h.withAgent a
  | .retryTimes times => .ok { h with retryTimes := times }
  | .upgrade on => .ok { h with upgrade := on }
  | .pollMs ms => .ok { h with pollMs := ms }
  | .backoffMs ms => .ok { h with backoffMs := ms }
  | .logTail lines => .ok { h with logTail := lines }

/-- A handle made of a client, told one thing after another. -/
def made (c : Client) (dag : DagId) (settings : List Setting) : Except ClientError Handle :=
  settings.foldlM Setting.apply (new c dag)

variable {h h' : Handle} {c : Client} {dag : DagId} {answers : Nat → Reply} {sent : List Sent}

theorem retries_of_apply {setting : Setting} (happly : setting.apply h = .ok h') :
    h'.client.retries = h.client.retries := by
  cases setting with
  | agent a =>
    obtain ⟨client, hclient, happly⟩ := bind_eq_ok happly
    cases happly
    exact Client.retries_of_forAgent hclient
  | retryTimes times => cases happly; rfl
  | upgrade on => cases happly; rfl
  | pollMs ms => cases happly; rfl
  | backoffMs ms => cases happly; rfl
  | logTail lines => cases happly; rfl

/-- A handle does not let its client repeat reads, whatever it was told. -/
theorem never_of_made {settings : List Setting} (hmade : made c dag settings = .ok h) :
    h.client.retries = .never := by
  have hkept : ∀ (settings : List Setting) (first : Handle),
      settings.foldlM Setting.apply first = .ok h → h.client.retries = first.client.retries := by
    intro settings
    induction settings with
    | nil =>
      intro first hfold
      rw [← Except.ok.inj hfold]
    | cons setting settings ih =>
      intro first hfold
      obtain ⟨next, happly, hfold⟩ := bind_eq_ok hfold
      rw [ih next hfold, retries_of_apply happly]
  exact hkept settings (new c dag) hmade

/-- What a handle sends for a record, and what comes of it, when the answers from the given one on
are these: one request, or two when the first one asks for an upgrade and there is none. -/
inductive Fetched (h : Handle) (answers : Nat → Reply) :
    (position : Nat) → List Sent → Except ClientError Dag → Prop
  | unaddressed {position : Nat} {e : ClientError}
      (hrequest : h.client.requestFor (.dag h.dag) = .error e) :
      Fetched h answers position [] (.error e)
  | plain {position : Nat} {url : Http.Url} {r : Http.Request} (hplain : h.upgrade = false)
      (hrequest : h.client.requestFor (.dag h.dag) = .ok (url, r)) :
      Fetched h answers position [(url, r)]
        ((Client.received url (answers position)).bind (Client.answerIn (.dag h.dag)))
  | upgrade {position : Nat} {url : Http.Url} {r : Http.Request} (hupgrade : h.upgrade = true)
      (hrequest : h.client.requestFor (.upgradeDag h.dag) = .ok (url, r))
      (hthere : (answers position).isMissing = false) :
      Fetched h answers position [(url, r)]
        ((Client.received url (answers position)).bind (Client.answerIn (.upgradeDag h.dag)))
  | missing {position : Nat} {url url' : Http.Url} {r r' : Http.Request}
      (hupgrade : h.upgrade = true)
      (hrequest : h.client.requestFor (.upgradeDag h.dag) = .ok (url, r))
      (hmissing : (answers position).isMissing = true)
      (hrequest' : h.client.requestFor (.dag h.dag) = .ok (url', r')) :
      Fetched h answers position [(url, r), (url', r')]
        ((Client.received url' (answers (position + 1))).bind (Client.answerIn (.dag h.dag)))

/-- The fetches of a handle that may still repeat so many, and what comes of the last one: a fetch
is the last one when it succeeds, when its failure will not mend, or when none is left. -/
inductive Fetching (h : Handle) (answers : Nat → Reply) :
    (left position : Nat) → List (List Sent) → Except ClientError Dag → Prop
  | found {left position : Nat} {fetch : List Sent} {d : Dag}
      (hfetch : h.Fetched answers position fetch (.ok d)) :
      Fetching h answers left position [fetch] (.ok d)
  | lost {left position : Nat} {fetch : List Sent} {e : ClientError}
      (hfetch : h.Fetched answers position fetch (.error e)) (hlasting : e.isRetryable = false) :
      Fetching h answers left position [fetch] (.error e)
  | spent {position : Nat} {fetch : List Sent} {e : ClientError}
      (hfetch : h.Fetched answers position fetch (.error e)) :
      Fetching h answers 0 position [fetch] (.error e)
  | again {left position : Nat} {fetch : List Sent} {fetches : List (List Sent)} {e : ClientError}
      {result : Except ClientError Dag}
      (hfetch : h.Fetched answers position fetch (.error e)) (hmends : e.isRetryable = true)
      (hrest : Fetching h answers left (position + fetch.length) fetches result) :
      Fetching h answers (left + 1) position (fetch :: fetches) result

theorem Fetched.method {position : Nat} {fetch : List Sent} {result : Except ClientError Dag}
    (hfetched : h.Fetched answers position fetch result) : ∀ s ∈ fetch, s.2.method = "GET" := by
  cases hfetched with
  | unaddressed => simp
  | plain _ hrequest => simpa using (Client.method_of_requestFor hrequest).trans (if_pos rfl)
  | upgrade _ hrequest => simpa using (Client.method_of_requestFor hrequest).trans (if_pos rfl)
  | missing _ hrequest _ hrequest' =>
    simpa using ⟨(Client.method_of_requestFor hrequest).trans (if_pos rfl),
      (Client.method_of_requestFor hrequest').trans (if_pos rfl)⟩

theorem Fetching.method {left position : Nat} {fetches : List (List Sent)}
    {result : Except ClientError Dag}
    (hfetching : h.Fetching answers left position fetches result) :
    ∀ s ∈ fetches.flatten, s.2.method = "GET" := by
  induction hfetching with
  | found hfetch => simpa using hfetch.method
  | lost hfetch => simpa using hfetch.method
  | spent hfetch => simpa using hfetch.method
  | again hfetch _ _ ih =>
    intro s hs
    rw [List.flatten_cons, List.mem_append] at hs
    exact hs.elim (hfetch.method s) (ih s)

theorem Fetching.length_le {left position : Nat} {fetches : List (List Sent)}
    {result : Except ClientError Dag}
    (hfetching : h.Fetching answers left position fetches result) :
    fetches.length ≤ left + 1 := by
  induction hfetching with
  | found | lost | spent => simp
  | again _ _ _ ih => simpa using ih

end Handle

end Stagewise
