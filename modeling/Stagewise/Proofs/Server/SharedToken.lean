import Stagewise.Proofs.Client.Requests
import Stagewise.Proofs.Server.Admission
/-!
# A token that is shared

What a client accepts as a token and what an agent takes for one differ: a client sends every
character but controls, and an agent reads the first 128 only. Who shows a token that both have been
given is let in exactly when it holds no other characters.
-/

namespace Stagewise

namespace Http

theorem isValueChar_iff {c : Char} :
    isValueChar c = true ↔ c = '\t' ∨ 32 ≤ c.toNat ∧ c.toNat ≠ 127 := by
  simp only [isValueChar, Bool.or_eq_true, beq_iff_eq, Bool.and_eq_true, decide_eq_true_eq,
    bne_iff_ne]

theorem isPlainChar_iff {c : Char} :
    isPlainChar c = true ↔ isValueChar c = true ∧ c.toNat < 128 := by
  have htab : '\t'.toNat < 128 := by decide
  rw [isValueChar_iff]
  simp only [isPlainChar, Bool.or_eq_true, beq_iff_eq, Bool.and_eq_true, decide_eq_true_eq]
  constructor
  · rintro (rfl | ⟨hlow, hhigh⟩)
    · exact ⟨.inl rfl, htab⟩
    · exact ⟨.inr ⟨hlow, by omega⟩, by omega⟩
  · rintro ⟨rfl | ⟨hlow, hdelete⟩, hhigh⟩
    · exact .inl rfl
    · exact .inr ⟨hlow, by omega⟩

/-- A value that can be sent can be read when it keeps to the first 128 characters. -/
theorem isPlainValue_iff {s : String} (hvalue : isHeaderValue s = true) :
    isPlainValue s = true ↔ ∀ c ∈ s.toList, c.toNat < 128 := by
  simp only [isHeaderValue, List.all_eq_true] at hvalue
  simp only [isPlainValue, List.all_eq_true, isPlainChar_iff]
  exact ⟨fun h c hc => (h c hc).2, fun h c hc => ⟨hvalue c hc, h c hc⟩⟩

end Http

namespace Client

variable {c : Client} {token : String}

theorem isHeaderValue_authorization :
    Http.isHeaderValue (authorization token) = Http.isHeaderValue token := by
  have hhead : "Bearer ".toList.all Http.isValueChar = true := by decide
  rw [Http.isHeaderValue, authorization, String.toList_append, List.all_append, hhead,
    Bool.true_and, Http.isHeaderValue]

/-- A client accepts exactly the tokens that can be sent. -/
theorem check_eq_ok_iff (htoken : c.token = some token) :
    c.check = .ok c ↔ Http.isHeaderValue token = true := by
  rw [check, htoken]
  simp only [isHeaderValue_authorization]
  cases Http.isHeaderValue token <;> simp

theorem first?_authorization (htoken : c.token = some token) {α : Type} {call : ApiCall α}
    {url : Http.Url} {r : Http.Request} (hrequest : c.requestFor call = .ok (url, r))
    (hbare : url.authorization? = none) :
    r.headers.first? "Authorization" = some (authorization token) := by
  simp only [requestFor] at hrequest
  cases hplace : address (c.base.at' call.path) with
  | error e => simp [hplace, bind, Except.bind] at hrequest
  | ok place =>
    simp only [hplace, bind, Except.bind, pure, Except.pure, Except.ok.injEq,
      Prod.mk.injEq] at hrequest
    obtain ⟨rfl, rfl⟩ := hrequest
    -- the query of an address has no part in its credentials
    have hplain : place.authorization? = none := hbare
    have hshown : (place.authorization? <|> c.token.map authorization) =
        some (authorization token) := by
      rw [hplain, htoken]
      rfl
    have hname : (Http.lowered "authorization" == Http.lowered "Authorization") = true := by decide
    simp only [hshown, Option.toList_some, List.map_cons, List.map_nil, List.cons_append,
      List.nil_append, Http.Headers.first?, List.find?_cons, hname, Option.map_some]

end Client

namespace Server

/-- Whoever shows the token that an agent asks for, as a client with that token does in every
request to an address without credentials, is let in exactly when the token keeps to the first 128
characters. -/
theorem lets_in_iff {c : Client} {token : String} (haccepted : c.check = .ok c)
    (htoken : c.token = some token) :
    (∀ headers : Http.Headers,
      headers.first? "Authorization" = some (Client.authorization token) →
      (isAuthorized (some token) headers = true ↔ ∀ char ∈ token.toList, char.toNat < 128)) ∧
    ∀ {α : Type} (call : ApiCall α) (url : Http.Url) (r : Http.Request),
      c.requestFor call = .ok (url, r) → url.authorization? = none →
      (isAuthorized (some token) r.headers = true ↔ ∀ char ∈ token.toList, char.toNat < 128) := by
  have hshown : ∀ headers : Http.Headers,
      headers.first? "Authorization" = some (Client.authorization token) →
      (isAuthorized (some token) headers = true ↔
        ∀ char ∈ token.toList, char.toNat < 128) := by
    intro headers hfirst
    have hshows : (⟨"", "", none, headers, ""⟩ : Http.Request).Shows token := hfirst
    have hvalue := (Client.check_eq_ok_iff htoken).1 haccepted
    rw [← Http.isPlainValue_iff hvalue]
    exact isAuthorized_iff.trans (and_iff_right hshows)
  exact ⟨hshown, fun call url r hrequest hbare =>
    hshown r.headers (Client.first?_authorization htoken hrequest hbare)⟩

/-- A client that shares the token `schlüssel` with an agent is not let in. -/
theorem lets_in_iff_umlaut :
    let c : Client := ⟨⟨"http", "", "", some (.ipv4 2130706433), some 2886, .segments [""], none,
      none⟩, some "schlüssel", 30000, .standard⟩
    c.check = .ok c ∧ c.token = some "schlüssel" ∧
      isAuthorized (some "schlüssel") [("authorization", "Bearer schlüssel")] = false := by
  intro c
  have haccepted : c.check = .ok c := by decide +kernel
  have hshown := (lets_in_iff haccepted rfl).1 [("authorization", "Bearer schlüssel")] (by decide)
  refine ⟨haccepted, rfl, Bool.eq_false_iff.2 fun hauthorized => ?_⟩
  have hplain := hshown.1 hauthorized 'ü' (by decide)
  exact absurd hplain (by decide)

end Server

end Stagewise
