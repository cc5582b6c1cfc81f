import Mathlib.Data.List.TakeWhile
import Mathlib.Data.Option.Basic
import Stagewise.Json.Reader
import Stagewise.Json.Writer
import Stagewise.Proofs.Text.Digits
/-!
# Cutting a written text

The compact text of a value is cut into exactly the tokens of the value, whatever follows it. This
holds for values that a text can keep: no fractions, no integers beyond 64 bits, nothing unreadable.
-/

namespace Stagewise.Json

/-! ### Values and their tokens -/

mutual

/-- Whether a text can keep the value: integers of 64 bits, no fractions, nothing unreadable. -/
def isExact : Json → Bool
  | .real _ | .unreadable => false
  | .int n => isWord n
  | .list items => isExactList items
  | .object members => isExactMembers members
  | _ => true

def isExactList : List Json → Bool
  | [] => true
  | j :: rest => isExact j && isExactList rest

def isExactMembers : List (String × Json) → Bool
  | [] => true
  | (_, v) :: rest => isExact v && isExactMembers rest

end

mutual

/-- The pieces that the text of a value consists of. -/
def tokens : Json → List Token
  | .list items => .openList :: tokensList items
  | .object members => .openObject :: tokensMembers members
  | .text s => [.text (some s)]
  | j => [.scalar j]

def tokensList : List Json → List Token
  | [] => [.closeList]
  | [j] => tokens j ++ [.closeList]
  | j :: k :: rest => tokens j ++ .comma :: tokensList (k :: rest)

def tokensMembers : List (String × Json) → List Token
  | [] => [.closeObject]
  | [(k, v)] => .text (some k) :: .colon :: (tokens v ++ [.closeObject])
  | (k, v) :: m :: rest =>
    .text (some k) :: .colon :: (tokens v ++ .comma :: tokensMembers (m :: rest))

end

/-! ### One character -/

theorem tokensFrom?_cons {at' : Cutting} {c : Char} (ts : List Token) (next : Cutting)
    (h : cut? at' c = some (ts, next)) (rest : List Char) :
    tokensFrom? at' (c :: rest) = (tokensFrom? next rest).map (ts ++ ·) := by
  simp only [tokensFrom?, h, Option.bind_eq_bind, Option.bind_some]
  cases tokensFrom? next rest <;> rfl

/-- A character that completes no token. -/
theorem tokensFrom?_cons_inside {at' : Cutting} {c : Char} (next : Cutting)
    (h : cut? at' c = some ([], next)) (rest : List Char) :
    tokensFrom? at' (c :: rest) = tokensFrom? next rest := by
  rw [tokensFrom?_cons [] next h]
  exact Option.map_id' ..

theorem tokensFrom?_begin {c : Char} (next : Cutting) (h : begin? c = some ([], next))
    (rest : List Char) : tokensFrom? .between (c :: rest) = tokensFrom? next rest :=
  tokensFrom?_cons_inside next (show cut? .between c = _ from h) rest

theorem tokensFrom?_mark {c : Char} {t : Token} (h : begin? c = some ([t], .between))
    (rest : List Char) :
    tokensFrom? .between (c :: rest) = (tokensFrom? .between rest).map (t :: ·) :=
  tokensFrom?_cons [t] .between (show cut? .between c = _ from h) rest

/-! ### Numbers and words -/

/-- What may follow a value: nothing, or a comma or closing bracket and whatever comes then. -/
def Ends (rest : List Char) : Prop := ∀ c ∈ rest.head?, c = ',' ∨ c = ']' ∨ c = '\x7d'

theorem Ends.nil : Ends [] := by simp [Ends]

theorem Ends.comma (rest : List Char) : Ends (',' :: rest) := by simp [Ends]

theorem Ends.closeList (rest : List Char) : Ends (']' :: rest) := by simp [Ends]

theorem Ends.closeObject (rest : List Char) : Ends ('\x7d' :: rest) := by simp [Ends]

/-- What ends a value is a token by itself, and no part of a number or of a word. -/
theorem Ends.begin? {c : Char} {rest : List Char} (h : Ends (c :: rest)) :
    ∃ t, begin? c = some ([t], .between) ∧ isNumberChar c = false ∧ c.isAlphanum = false := by
  rcases h c rfl with rfl | rfl | rfl
  · exact ⟨.comma, rfl, by decide, by decide⟩
  · exact ⟨.closeList, rfl, by decide, by decide⟩
  · exact ⟨.closeObject, rfl, by decide, by decide⟩

theorem tokensFrom?_number {ds : List Char} (h : ∀ c ∈ ds, isNumberChar c = true)
    (taken rest : List Char) :
    tokensFrom? (.number taken) (ds ++ rest) =
      tokensFrom? (.number (ds.reverse ++ taken)) rest := by
  induction ds generalizing taken with
  | nil => rfl
  | cons c ds ih =>
    obtain ⟨hc, hds⟩ := List.forall_mem_cons.1 h
    rw [List.cons_append, tokensFrom?_cons_inside (.number (c :: taken)) (by simp [cut?, hc]),
      ih hds, List.reverse_cons, List.append_assoc, List.singleton_append]

theorem tokensFrom?_number_end {taken rest : List Char} {j : Json} (hend : Ends rest)
    (h : numberOfChars? taken.reverse = some j) :
    tokensFrom? (.number taken) rest = (tokensFrom? .between rest).map (.scalar j :: ·) := by
  cases rest with
  | nil => simp [tokensFrom?, Cutting.finish?, h]
  | cons c rest =>
    obtain ⟨t, hbegin, hout, -⟩ := hend.begin?
    rw [tokensFrom?_cons [.scalar j, t] .between (by simp [cut?, hout, h, hbegin]),
      tokensFrom?_mark hbegin, Option.map_map]
    rfl

theorem tokensFrom?_word {cs : List Char} (h : ∀ c ∈ cs, c.isAlphanum = true)
    (taken rest : List Char) :
    tokensFrom? (.word taken) (cs ++ rest) = tokensFrom? (.word (cs.reverse ++ taken)) rest := by
  induction cs generalizing taken with
  | nil => rfl
  | cons c cs ih =>
    obtain ⟨hc, hcs⟩ := List.forall_mem_cons.1 h
    rw [List.cons_append, tokensFrom?_cons_inside (.word (c :: taken)) (by simp [cut?, hc]),
      ih hcs, List.reverse_cons, List.append_assoc, List.singleton_append]

theorem tokensFrom?_word_end {taken rest : List Char} {j : Json} (hend : Ends rest)
    (h : wordOfChars? taken.reverse = some j) :
    tokensFrom? (.word taken) rest = (tokensFrom? .between rest).map (.scalar j :: ·) := by
  cases rest with
  | nil => simp [tokensFrom?, Cutting.finish?, h]
  | cons c rest =>
    obtain ⟨t, hbegin, -, hout⟩ := hend.begin?
    rw [tokensFrom?_cons [.scalar j, t] .between (by simp [cut?, hout, h, hbegin]),
      tokensFrom?_mark hbegin, Option.map_map]
    rfl

/-- Digits, a zero in front only when it is alone, stand for an integer of 64 bits, with or without
a sign; zero has none. -/
theorem magnitudeOfChars?_of_isDigit {ds : List Char} {m : Nat} {negative : Bool}
    (hdigit : ∀ c ∈ ds, c.isDigit = true) (hvalue : Text.natOfDigits? ds = some m)
    (hzero : ds.length = 1 ∨ ds.head? ≠ some '0') (hsign : negative = true → 0 < m)
    (hword : isWord (if negative then -(m : Int) else m) = true) :
    magnitudeOfChars? negative ds = some (.int (if negative then -(m : Int) else m)) := by
  have htake : ds.takeWhile Char.isDigit = ds := List.takeWhile_eq_self_iff.2 hdigit
  have hdrop : ds.dropWhile Char.isDigit = [] := List.dropWhile_eq_nil_iff.2 hdigit
  have hlead : (!ds.isEmpty && (ds.length == 1 || ds.head? != some '0')) = true := by
    have hne : ds ≠ [] := by rintro rfl; simp [Text.natOfDigits?] at hvalue
    simpa [hne] using hzero
  have hm : (negative && m == 0) = false := by
    cases negative with
    | false => rfl
    | true => simpa using (hsign rfl).ne'
  unfold magnitudeOfChars?
  simp only [htake, hdrop, hlead, hvalue, guard_true, Option.bind_eq_bind, List.append_nil,
    Option.bind_some]
  simp [hword, hm]

theorem numberOfChars?_ofInt {n : Int} (h : isWord n = true) :
    numberOfChars? (Text.ofInt n).toList = some (.int n) := by
  have hdigit : ∀ c ∈ Nat.toDigits 10 n.natAbs, c.isDigit = true := fun c =>
    Nat.isDigit_of_mem_toDigits (by omega) (by omega)
  have hzero : (Nat.toDigits 10 n.natAbs).length = 1 ∨
      (Nat.toDigits 10 n.natAbs).head? ≠ some '0' := by
    rcases Nat.eq_zero_or_pos n.natAbs with hn | hn
    · exact .inl (by rw [hn]; rfl)
    · exact .inr (Text.head?_toDigits hn)
  have hmagnitude := @magnitudeOfChars?_of_isDigit _ _ (decide (n < 0)) hdigit
    (Text.natOfDigits?_toDigits n.natAbs) hzero
  have hvalue : (if decide (n < 0) then -(n.natAbs : Int) else n.natAbs) = n := by
    by_cases hn : n < 0
    · rw [if_pos (decide_eq_true hn)]
      omega
    · rw [if_neg (by simpa using hn)]
      omega
  rw [hvalue] at hmagnitude
  by_cases hn : n < 0
  · simpa [Text.ofInt, hn, Nat.toString_eq_repr, Nat.toList_repr, numberOfChars?] using
      hmagnitude (by simp; omega) h
  · have hfront : ∀ r, Nat.toDigits 10 n.natAbs = '-' :: r → False := fun r hr => by
      simpa using hdigit '-' (by simp [hr])
    have htext : (Text.ofInt n).toList = Nat.toDigits 10 n.natAbs := by
      simp [Text.ofInt, hn, Nat.toString_eq_repr, Nat.toList_repr]
    rw [htext, numberOfChars?.eq_2 _ hfront]
    simpa [hn] using hmagnitude (by simp [hn]) h

theorem begin?_of_number {c : Char} (h : c = '-' ∨ c.isDigit = true) :
    begin? c = some ([], .number [c]) := by
  unfold begin?
  split <;> simp_all

theorem tokensFrom?_ofInt {n : Int} (h : isWord n = true) {rest : List Char} (hend : Ends rest) :
    tokensFrom? .between ((Text.ofInt n).toList ++ rest) =
      (tokensFrom? .between rest).map (.scalar (.int n) :: ·) := by
  obtain ⟨c, cs, hcs, hc, hrest⟩ : ∃ c cs, (Text.ofInt n).toList = c :: cs ∧
      (c = '-' ∨ c.isDigit = true) ∧ ∀ d ∈ cs, isNumberChar d = true := by
    have hdigit : ∀ c ∈ Nat.toDigits 10 n.natAbs, c.isDigit = true := fun c =>
      Nat.isDigit_of_mem_toDigits (by omega) (by omega)
    have hnumber : ∀ c : Char, c.isDigit = true → isNumberChar c = true := fun c hc => by
      simp [isNumberChar, hc]
    by_cases hn : n < 0
    · exact ⟨'-', Nat.toDigits 10 n.natAbs,
        by simp [Text.ofInt, hn, Nat.toString_eq_repr, Nat.toList_repr], .inl rfl,
        fun d hd => hnumber d (hdigit d hd)⟩
    · obtain ⟨c, cs, hcs⟩ := List.exists_cons_of_ne_nil
        (Nat.toDigits_ne_nil (n := n.natAbs) (b := 10))
      rw [hcs] at hdigit
      exact ⟨c, cs, by simpa [Text.ofInt, hn, Nat.toString_eq_repr, Nat.toList_repr] using hcs,
        .inr (hdigit c (by simp)), fun d hd => hnumber d (hdigit d (by simp [hd]))⟩
  rw [hcs, List.cons_append, tokensFrom?_begin _ (begin?_of_number hc), tokensFrom?_number hrest]
  exact tokensFrom?_number_end hend (by simpa [← hcs] using numberOfChars?_ofInt h)

theorem tokensFrom?_scalar {c : Char} (cs : List Char) {j : Json}
    (hbegin : begin? c = some ([], .word [c])) (hcs : cs.all Char.isAlphanum = true)
    (h : wordOfChars? (c :: cs) = some j) {rest : List Char} (hend : Ends rest) :
    tokensFrom? .between (c :: (cs ++ rest)) =
      (tokensFrom? .between rest).map (.scalar j :: ·) := by
  rw [tokensFrom?_begin _ hbegin, tokensFrom?_word (List.all_eq_true.1 hcs)]
  exact tokensFrom?_word_end hend (by simpa using h)

/-! ### Texts -/

theorem tokensFrom?_code (n : Nat) (taken rest : List Char) (usable : Bool) (high : Option Nat) :
    tokensFrom? (.code taken usable [] high) (Text.hexDigits 4 n ++ rest) =
      tokensFrom? (closeCode taken usable (n % 16 ^ 4) high) rest := by
  have hvalue := Text.natOfHex?_hexDigits 4 n
  simp only [Text.hexDigits, List.nil_append, List.cons_append] at hvalue ⊢
  iterate 3
    rw [tokensFrom?_cons_inside _ (by simp [cut?, Text.hexDigit?_hexDigit]; rfl)]
  exact tokensFrom?_cons_inside _ (by simp [cut?, Text.hexDigit?_hexDigit, hvalue]) rest

/-- The escape of a character stands for that character. -/
theorem tokensFrom?_escaped (c : Char) (taken rest : List Char) (usable : Bool) :
    tokensFrom? (.inText taken usable) (escaped c ++ rest) =
      tokensFrom? (.inText (c :: taken) usable) rest := by
  -- An escape of one letter goes through two points of the cutting.
  have hletter : ∀ d : Char, d ≠ 'u' → unescape? d = some c →
      tokensFrom? (.inText taken usable) ('\\' :: d :: rest) =
        tokensFrom? (.inText (c :: taken) usable) rest := by
    intro d hu hd
    rw [tokensFrom?_cons_inside (.escape taken usable) (by rfl),
      tokensFrom?_cons_inside (.inText (c :: taken) usable) (by simp [cut?, hu, hd])]
  unfold escaped
  iterate 7
    split
    next h => subst h; exact hletter _ (by decide) rfl
  split
  next h =>
    have hunit : c.toNat % 16 ^ 4 = c.toNat := Nat.mod_eq_of_lt (by omega)
    rw [List.cons_append, List.cons_append,
      tokensFrom?_cons_inside (.escape taken usable) (by rfl),
      tokensFrom?_cons_inside (.code taken usable [] none) (by rfl), tokensFrom?_code, hunit,
      closeCode, if_neg (by omega), if_neg (by omega), Char.ofNat_toNat]
  next h1 h2 _ _ _ _ _ h3 =>
    exact tokensFrom?_cons_inside _ (by simp [cut?, textStep?, h1, h2, h3]) rest

theorem tokensFrom?_flatMap_escaped (cs taken rest : List Char) (usable : Bool) :
    tokensFrom? (.inText taken usable) (cs.flatMap escaped ++ rest) =
      tokensFrom? (.inText (cs.reverse ++ taken) usable) rest := by
  induction cs generalizing taken with
  | nil => rfl
  | cons c cs ih =>
    rw [List.flatMap_cons, List.append_assoc, tokensFrom?_escaped, ih, List.reverse_cons,
      List.append_assoc, List.singleton_append]

theorem tokensFrom?_quoted (s : String) (rest : List Char) :
    tokensFrom? .between (quoted s ++ rest) =
      (tokensFrom? .between rest).map (.text (some s) :: ·) := by
  rw [quoted, List.cons_append, tokensFrom?_begin (.inText [] true) rfl, List.append_assoc,
    tokensFrom?_flatMap_escaped, List.singleton_append,
    tokensFrom?_cons [.text (some s)] .between (by simp [cut?, textStep?])]
  rfl

/-! ### Whole values -/

mutual

/-- A written value is cut into its tokens, whatever comes behind its end. -/
theorem tokensFrom?_written (j : Json) (h : j.isExact = true) {rest : List Char}
    (hend : Ends rest) :
    tokensFrom? .between (j.written ++ rest) = (tokensFrom? .between rest).map (j.tokens ++ ·) := by
  match j with
  | .null => exact tokensFrom?_scalar ['u', 'l', 'l'] rfl rfl rfl hend
  | .bool true => exact tokensFrom?_scalar ['r', 'u', 'e'] rfl rfl rfl hend
  | .bool false => exact tokensFrom?_scalar ['a', 'l', 's', 'e'] rfl rfl rfl hend
  | .int n => exact tokensFrom?_ofInt h hend
  | .text s => exact tokensFrom?_quoted s rest
  | .list items =>
    rw [written, List.cons_append, tokensFrom?_mark rfl, tokensFrom?_writtenList items h,
      Option.map_map]
    rfl
  | .object members =>
    rw [written, List.cons_append, tokensFrom?_mark rfl, tokensFrom?_writtenMembers members h,
      Option.map_map]
    rfl

theorem tokensFrom?_writtenList (items : List Json) (h : isExactList items = true)
    (rest : List Char) :
    tokensFrom? .between (writtenList items ++ rest) =
      (tokensFrom? .between rest).map (tokensList items ++ ·) := by
  match items with
  | [] => exact tokensFrom?_mark rfl rest
  | [j] =>
    have hj : j.isExact = true := by simpa [isExactList] using h
    simp only [writtenList, List.append_assoc, List.singleton_append]
    rw [tokensFrom?_written j hj (.closeList _), tokensFrom?_mark rfl, Option.map_map]
    simp [tokensList, Function.comp_def]
  | j :: k :: items =>
    obtain ⟨hj, hrest⟩ : j.isExact = true ∧ isExactList (k :: items) = true := by
      simpa [isExactList] using h
    simp only [writtenList, List.append_assoc, List.cons_append]
    rw [tokensFrom?_written j hj (.comma _), tokensFrom?_mark rfl,
      tokensFrom?_writtenList (k :: items) hrest, Option.map_map, Option.map_map]
    simp [tokensList, Function.comp_def]

theorem tokensFrom?_writtenMembers (members : List (String × Json))
    (h : isExactMembers members = true) (rest : List Char) :
    tokensFrom? .between (writtenMembers members ++ rest) =
      (tokensFrom? .between rest).map (tokensMembers members ++ ·) := by
  match members with
  | [] => exact tokensFrom?_mark rfl rest
  | [(k, v)] =>
    have hv : v.isExact = true := by simpa [isExactMembers] using h
    simp only [writtenMembers, List.append_assoc, List.cons_append, List.nil_append]
    rw [tokensFrom?_quoted, tokensFrom?_mark rfl, tokensFrom?_written v hv (.closeObject _),
      tokensFrom?_mark rfl, Option.map_map, Option.map_map, Option.map_map]
    simp [tokensMembers, Function.comp_def]
  | (k, v) :: m :: members =>
    obtain ⟨hv, hrest⟩ : v.isExact = true ∧ isExactMembers (m :: members) = true := by
      simpa [isExactMembers] using h
    simp only [writtenMembers, List.append_assoc, List.cons_append]
    rw [tokensFrom?_quoted, tokensFrom?_mark rfl, tokensFrom?_written v hv (.comma _),
      tokensFrom?_mark rfl, tokensFrom?_writtenMembers (m :: members) hrest, Option.map_map,
      Option.map_map, Option.map_map, Option.map_map]
    simp [tokensMembers, Function.comp_def]

end

theorem tokensFrom?_compact {j : Json} (h : j.isExact = true) :
    tokensFrom? .between j.compact.toList = some j.tokens := by
  have := tokensFrom?_written j h .nil
  simpa [compact, tokensFrom?, Cutting.finish?] using this

end Stagewise.Json
