import Stagewise.Proofs.Json.Tokens
/-!
# Values read back

The compact text of a value is read as the value itself, members in their order and repeated names
kept. Values that a text cannot keep are left out; what is nested deeper than can be read becomes
unreadable, and nothing else does.
-/

namespace Stagewise.Json

/-! ### Too deep -/

mutual

/-- The value with the lists and objects that lie deeper than `n` made unreadable. -/
def prune (n : Nat) : Json → Json
  | .list items => if n = 0 then .unreadable else .list (pruneList (n - 1) items)
  | .object members => if n = 0 then .unreadable else .object (pruneMembers (n - 1) members)
  | j => j

def pruneList (n : Nat) : List Json → List Json
  | [] => []
  | j :: rest => prune n j :: pruneList n rest

def pruneMembers (n : Nat) : List (String × Json) → List (String × Json)
  | [] => []
  | (k, v) :: rest => (k, prune n v) :: pruneMembers n rest

end

mutual

theorem prune_of_depth_le (j : Json) {n : Nat} (h : j.depth ≤ n) : prune n j = j := by
  match j with
  | .null | .bool _ | .int _ | .real _ | .text _ | .unreadable => rfl
  | .list items =>
    rw [depth] at h
    rw [prune, if_neg (by omega), pruneList_of_depth_le items (by omega)]
  | .object members =>
    rw [depth] at h
    rw [prune, if_neg (by omega), pruneMembers_of_depth_le members (by omega)]

theorem pruneList_of_depth_le (items : List Json) {n : Nat} (h : depthList items ≤ n) :
    pruneList n items = items := by
  match items with
  | [] => rfl
  | j :: rest =>
    obtain ⟨hj, hrest⟩ := Nat.max_le.1 h
    rw [pruneList, prune_of_depth_le j hj, pruneList_of_depth_le rest hrest]

theorem pruneMembers_of_depth_le (members : List (String × Json)) {n : Nat}
    (h : depthMembers members ≤ n) : pruneMembers n members = members := by
  match members with
  | [] => rfl
  | (k, v) :: rest =>
    obtain ⟨hv, hrest⟩ := Nat.max_le.1 h
    rw [pruneMembers, prune_of_depth_le v hv, pruneMembers_of_depth_le rest hrest]

end

/-! ### Putting tokens together -/

/-- A point at which a value may come next. -/
def Assembly.Open (a : Assembly) (frames : List Frame) : Prop :=
  a = ⟨frames, .value, none⟩ ∨ a = ⟨frames, .valueOrClose, none⟩

/-- Closing a list or object below some others is the same as cutting it. -/
theorem close_eq_prune (outer : List Frame) :
    (∀ items, close outer (.list (pruneList (depthLimit - (outer.length + 1)) items)) =
      prune (depthLimit - outer.length) (.list items)) ∧
    ∀ members, close outer (.object (pruneMembers (depthLimit - (outer.length + 1)) members)) =
      prune (depthLimit - outer.length) (.object members) := by
  have hnext : depthLimit - (outer.length + 1) = depthLimit - outer.length - 1 := by omega
  have hzero : depthLimit - outer.length = 0 ↔ ¬ outer.length < depthLimit := by omega
  constructor <;> intro _ <;> rw [hnext, close, prune] <;> simp only [hzero, ite_not]

mutual

/-- Where a value may come next, its tokens put it into the innermost open list or object, pruned
where it lies too deep. -/
theorem foldlM_tokens (j : Json) (h : j.isExact = true) (frames : List Frame) {a : Assembly}
    (ha : a.Open frames) :
    j.tokens.foldlM Assembly.step? a
      = some (.accept frames (prune (depthLimit - frames.length) j)) := by
  match j with
  | .null | .bool _ | .int _ | .text _ => rcases ha with rfl | rfl <;> rfl
  | .list items =>
    have hstep : a.step? .openList = some ⟨.list [] :: frames, .valueOrClose, none⟩ := by
      rcases ha with rfl | rfl <;> rfl
    rw [tokens, List.foldlM_cons, hstep]
    rw [← (close_eq_prune frames).1]
    cases items with
    | nil => simp [tokensList, Assembly.step?, pruneList]
    | cons j items => exact foldlM_tokensList (j :: items) (by simp) [] h frames (.inr rfl)
  | .object members =>
    have hstep :
        a.step? .openObject = some ⟨.member (some []) none :: frames, .keyOrClose, none⟩ := by
      rcases ha with rfl | rfl <;> rfl
    rw [tokens, List.foldlM_cons, hstep]
    rw [← (close_eq_prune frames).2]
    cases members with
    | nil => simp [tokensMembers, Assembly.step?, pruneMembers]
    | cons m members => exact foldlM_tokensMembers (m :: members) (by simp) [] h frames (.inr rfl)

-- The items in `taken` have been put in already, the last of them first.
theorem foldlM_tokensList (items : List Json) (hne : items ≠ []) (taken : List Json)
    (h : isExactList items = true) (frames : List Frame) {a : Assembly}
    (ha : a.Open (.list taken :: frames)) :
    (tokensList items).foldlM Assembly.step? a = some (.accept frames (close frames
      (.list (taken.reverse ++ pruneList (depthLimit - (frames.length + 1)) items)))) := by
  match items with
  | [] => exact absurd rfl hne
  | [j] =>
    have hj : j.isExact = true := by simpa [isExactList] using h
    have hvalue := foldlM_tokens j hj _ ha
    rw [tokensList, List.foldlM_append, hvalue]
    simp [Assembly.accept, Assembly.step?, pruneList]
  | j :: k :: items =>
    obtain ⟨hj, hrest⟩ : j.isExact = true ∧ isExactList (k :: items) = true := by
      simpa [isExactList] using h
    have hvalue := foldlM_tokens j hj _ ha
    have hnext := foldlM_tokensList (k :: items) (by simp)
      (prune (depthLimit - (frames.length + 1)) j :: taken) hrest frames (.inl rfl)
    rw [tokensList, List.foldlM_append, hvalue]
    simpa [Assembly.accept, Assembly.step?, pruneList] using hnext

theorem foldlM_tokensMembers (members : List (String × Json)) (hne : members ≠ [])
    (taken : List (String × Json)) (h : isExactMembers members = true)
    (frames : List Frame) {a : Assembly}
    (ha : a = ⟨.member (some taken) none :: frames, .key, none⟩ ∨
      a = ⟨.member (some taken) none :: frames, .keyOrClose, none⟩) :
    (tokensMembers members).foldlM Assembly.step? a = some (.accept frames (close frames
      (.object (taken.reverse ++ pruneMembers (depthLimit - (frames.length + 1)) members)))) := by
  have hkey : ∀ k, a.step? (.text (some k)) =
      some ⟨.member (some taken) (some k) :: frames, .colon, none⟩ := by
    intro k
    rcases ha with rfl | rfl <;> rfl
  match members with
  | [] => exact absurd rfl hne
  | [(k, v)] =>
    have hv : v.isExact = true := by simpa [isExactMembers] using h
    have hvalue := foldlM_tokens v hv (.member (some taken) (some k) :: frames) (.inl rfl)
    rw [tokensMembers, List.foldlM_cons, hkey]
    simp only [Option.bind_eq_bind, Option.bind_some, List.foldlM_cons, Assembly.step?,
      List.foldlM_append, hvalue]
    simp [Assembly.accept, objectOf, pruneMembers]
  | (k, v) :: m :: members =>
    obtain ⟨hv, hrest⟩ : v.isExact = true ∧ isExactMembers (m :: members) = true := by
      simpa [isExactMembers] using h
    have hvalue := foldlM_tokens v hv (.member (some taken) (some k) :: frames) (.inl rfl)
    have hnext := foldlM_tokensMembers (m :: members) (by simp)
      ((k, prune (depthLimit - (frames.length + 1)) v) :: taken) hrest frames (.inl rfl)
    rw [tokensMembers, List.foldlM_cons, hkey]
    simp only [Option.bind_eq_bind, Option.bind_some, List.foldlM_cons, Assembly.step?,
      List.foldlM_append, hvalue]
    simpa [Assembly.accept, Assembly.step?, pruneMembers] using hnext

end

/-- What is written is read as far as it is not nested too deeply. -/
theorem read?_compact_eq {j : Json} (h : j.isExact = true) :
    read? j.compact = some (prune depthLimit j) := by
  have := foldlM_tokens j h [] (a := .start) (.inl rfl)
  simp [read?, tokensFrom?_compact h, ofTokens?, this, Assembly.accept]

/-- What is written is read back. -/
theorem read?_compact {j : Json} (h : j.isExact = true) (hdepth : j.depth ≤ depthLimit) :
    read? j.compact = some j := by
  rw [read?_compact_eq h, prune_of_depth_le j hdepth]

/-! ### One line -/

/-- No control characters, so neither line feeds nor carriage returns. -/
def Printable (cs : List Char) : Prop := ∀ c ∈ cs, 0x20 ≤ c.toNat

@[simp] theorem printable_nil : Printable [] := by simp [Printable]

theorem printable_cons {c : Char} {cs : List Char} :
    Printable (c :: cs) ↔ 0x20 ≤ c.toNat ∧ Printable cs := List.forall_mem_cons

theorem printable_append {cs ds : List Char} :
    Printable (cs ++ ds) ↔ Printable cs ∧ Printable ds := List.forall_mem_append

theorem printable_of_isDigit {cs : List Char} (h : ∀ c ∈ cs, c.isDigit = true) : Printable cs := by
  intro c hc
  have : '0' ≤ c := (Text.isDigit_iff.1 (h c hc)).1
  have : '0'.toNat ≤ c.toNat := this
  exact Nat.le_trans (by decide) this

theorem printable_escaped (c : Char) : Printable (escaped c) := by
  have hdigit : ∀ n, 0x20 ≤ (Text.hexDigit n).toNat := by
    have : ∀ m < 16, 0x20 ≤ (Nat.digitChar m).toNat := by decide
    exact fun n => this _ (Nat.mod_lt n (by omega))
  unfold escaped
  iterate 7
    split
    next => simp [Printable]
  split
  next =>
    simp only [printable_cons]
    refine ⟨by decide, by decide, fun d hd => ?_⟩
    obtain ⟨n, rfl⟩ := Text.exists_hexDigit_of_mem hd
    exact hdigit n
  next h => simpa [Printable] using h

theorem printable_quoted (s : String) : Printable (quoted s) := by
  simp only [quoted, printable_cons, printable_append]
  refine ⟨by decide, fun c hc => ?_, by decide, printable_nil⟩
  obtain ⟨d, -, hd⟩ := List.mem_flatMap.1 hc
  exact printable_escaped d c hd

theorem printable_ofInt (n : Int) : Printable (Text.ofInt n).toList := by
  have hdigits : Printable (Nat.toDigits 10 n.natAbs) := printable_of_isDigit fun c =>
    Nat.isDigit_of_mem_toDigits (by omega) (by omega)
  by_cases hn : n < 0
  · simpa [Text.ofInt, hn, Nat.toString_eq_repr, Nat.toList_repr, printable_cons] using hdigits
  · simpa [Text.ofInt, hn, Nat.toString_eq_repr, Nat.toList_repr] using hdigits

mutual

/-- Line breaks inside texts are escaped, so a written value stands on one line. -/
theorem printable_written (j : Json) (h : j.isExact = true) : Printable j.written := by
  match j with
  | .null | .bool true | .bool false => simp [written, printable_cons]
  | .int n => exact printable_ofInt n
  | .text s => exact printable_quoted s
  | .list items =>
    rw [written, printable_cons]
    exact ⟨by decide, printable_writtenList items h⟩
  | .object members =>
    rw [written, printable_cons]
    exact ⟨by decide, printable_writtenMembers members h⟩

theorem printable_writtenList (items : List Json) (h : isExactList items = true) :
    Printable (writtenList items) := by
  match items with
  | [] => simp [writtenList, printable_cons]
  | [j] =>
    have hj := printable_written j (by simpa [isExactList] using h)
    simp [writtenList, printable_append, printable_cons, hj]
  | j :: k :: items =>
    obtain ⟨hj, hrest⟩ : j.isExact = true ∧ isExactList (k :: items) = true := by
      simpa [isExactList] using h
    simp [writtenList, printable_append, printable_cons, printable_written j hj,
      printable_writtenList (k :: items) hrest]

theorem printable_writtenMembers (members : List (String × Json))
    (h : isExactMembers members = true) : Printable (writtenMembers members) := by
  match members with
  | [] => simp [writtenMembers, printable_cons]
  | [(k, v)] =>
    have hv := printable_written v (by simpa [isExactMembers] using h)
    simp [writtenMembers, printable_append, printable_cons, printable_quoted k, hv]
  | (k, v) :: m :: members =>
    obtain ⟨hv, hrest⟩ : v.isExact = true ∧ isExactMembers (m :: members) = true := by
      simpa [isExactMembers] using h
    simp [writtenMembers, printable_append, printable_cons, printable_quoted k,
      printable_written v hv, printable_writtenMembers (m :: members) hrest]

end

end Stagewise.Json
