import Mathlib.Data.List.TakeWhile
import Stagewise.Proofs.Document.Calendar
import Stagewise.Proofs.Json.Records
/-!
# Points in time read back

The text of a point in time is read as that point in time, with every nanosecond and with leap
seconds, in all years that points in time can lie in.
-/

namespace Stagewise

namespace Text

theorem isBlank_of_isDigit {c : Char} (h : c.isDigit = true) : isBlank c = false := by
  obtain ⟨h₀, h₁⟩ := isDigit_iff.1 h
  have h₀ : 48 ≤ c.toNat := h₀
  have h₁ : c.toNat ≤ 57 := h₁
  simp only [isBlank, Bool.or_eq_false_iff, Bool.and_eq_false_iff, decide_eq_false_iff_not,
    beq_eq_false_iff_ne]
  omega

theorem dropBlanks_cons {c : Char} (h : isBlank c = false) (cs : List Char) :
    dropBlanks (c :: cs) = c :: cs := by
  simp [dropBlanks, h]

theorem dropBlanks_digits {ds : List Char} (hne : ds ≠ []) (h : ∀ c ∈ ds, c.isDigit = true)
    (rest : List Char) : dropBlanks (ds ++ rest) = ds ++ rest := by
  obtain ⟨c, ds, rfl⟩ := List.exists_cons_of_ne_nil hne
  exact dropBlanks_cons (isBlank_of_isDigit (h c (by simp))) _

end Text

namespace Timestamp

open Text (padded)

/-! ### Numbers, marks, years -/

/-- Digits are taken as one number if no more may be taken or none follows. -/
theorem takeNumber?_append {max n : Nat} {ds rest : List Char}
    (hdigit : ∀ c ∈ ds, c.isDigit = true) (hvalue : Text.natOfDigits? ds = some n)
    (hlength : ds.length ≤ max)
    (hstop : ds.length = max ∨ ∀ c ∈ rest.head?, c.isDigit = false) :
    takeNumber? max (ds ++ rest) = some (n, rest) := by
  have htake : ((ds ++ rest).take max).takeWhile Char.isDigit = ds := by
    rw [List.take_append, List.take_of_length_le hlength, List.takeWhile_append_of_pos hdigit]
    suffices (rest.take (max - ds.length)).takeWhile Char.isDigit = [] by simp [this]
    rcases hstop with h | h
    · simp [h]
    · cases rest with
      | nil => simp
      | cons c rest =>
        cases max - ds.length with
        | zero => rfl
        | succ k => simp [h c rfl]
  simp [takeNumber?, htake, hvalue]

theorem takeSpaced?_padded {width n : Nat} (hwidth : 0 < width) (h : n < 10 ^ width)
    (rest : List Char) : takeSpaced? width (padded width n ++ rest) = some (n, rest) := by
  have hlength := Text.length_padded hwidth h
  rw [takeSpaced?,
    Text.dropBlanks_digits (Text.padded_ne_nil _ _) fun c => Text.isDigit_of_mem_padded]
  exact takeNumber?_append (fun c => Text.isDigit_of_mem_padded) (Text.natOfDigits?_padded _ _)
    hlength.le (.inl hlength)

theorem takeMark?_self {c : Char} (h : Text.isBlank c = false) (rest : List Char) :
    takeMark? c (c :: rest) = some rest := by
  simp [takeMark?, Text.dropBlanks_cons h]

theorem takeYear?_yearText (year : Int) (rest : List Char) :
    takeYear? (Day.yearText year ++ '-' :: rest) = some (year, '-' :: rest) := by
  have hsigned : ∀ n : Nat,
      takeNumber? (padded 4 n ++ '-' :: rest).length (padded 4 n ++ '-' :: rest) =
        some (n, '-' :: rest) := fun n =>
    takeNumber?_append (fun c => Text.isDigit_of_mem_padded) (Text.natOfDigits?_padded _ _)
      (by simp) (.inr (by simp))
  unfold Day.yearText
  split
  next h =>
    have hnumber : takeNumber? 4 (padded 4 year.toNat ++ '-' :: rest) =
        some (year.toNat, '-' :: rest) := by
      have hlength : (padded 4 year.toNat).length = 4 := Text.length_padded (by omega) (by omega)
      exact takeNumber?_append (fun c => Text.isDigit_of_mem_padded) (Text.natOfDigits?_padded _ _)
        hlength.le (.inl hlength)
    have hdigit : ∀ c ∈ padded 4 year.toNat, c.isDigit = true := fun c => Text.isDigit_of_mem_padded
    -- A year of four digits has no sign.
    have hplain : ∀ c r, c.isDigit = false →
        padded 4 year.toNat ++ '-' :: rest = c :: r → False := by
      intro c r hc hcs
      obtain ⟨d, ds, hds⟩ := List.exists_cons_of_ne_nil (Text.padded_ne_nil 4 year.toNat)
      rw [hds] at hdigit hcs
      obtain ⟨rfl, -⟩ := List.cons.inj hcs
      simp [hdigit d (by simp)] at hc
    unfold takeYear?
    rw [Text.dropBlanks_digits (Text.padded_ne_nil _ _) hdigit]
    split
    next heq => exact (hplain '-' _ (by decide) heq).elim
    next heq => exact (hplain '+' _ (by decide) heq).elim
    next => simp only [hnumber, Option.map_some, Int.toNat_of_nonneg h.1]
  next h =>
    split
    next hneg =>
      have : -(year.natAbs : Int) = year := by omega
      simp only [takeYear?, List.cons_append, Text.dropBlanks_cons (c := '-') (by decide), hsigned,
        Option.map_some, this]
    next hpos =>
      have : (year.natAbs : Int) = year := by omega
      simp only [takeYear?, List.cons_append, Text.dropBlanks_cons (c := '+') (by decide), hsigned,
        Option.map_some, this]

/-! ### Fractions -/

theorem takeFraction?_padded {width n : Nat} (h₀ : 0 < width) (h₁ : width ≤ 9)
    (h : n < 10 ^ width) :
    takeFraction? ('.' :: padded width n ++ ['Z']) = some (n * 10 ^ (9 - width), ['Z']) := by
  have hdigit : ∀ c ∈ padded width n, c.isDigit = true := fun c => Text.isDigit_of_mem_padded
  have hlength := Text.length_padded h₀ h
  have htake : (padded width n ++ ['Z']).takeWhile Char.isDigit = padded width n := by
    simp [List.takeWhile_append_of_pos hdigit]
  have hdrop : (padded width n ++ ['Z']).dropWhile Char.isDigit = ['Z'] := by
    simp [List.dropWhile_append_of_pos hdigit]
  have hnine : (padded width n).take 9 = padded width n := List.take_of_length_le (by omega)
  simp [takeFraction?, htake, hdrop, hnine, Text.natOfDigits?_padded, hlength]

theorem takeFraction?_fraction (t : Timestamp) :
    takeFraction? (t.fraction ++ ['Z']) = some (t.nanos % 1000000000, ['Z']) := by
  simp only [fraction]
  have hlt : t.nanos % 1000000000 < 1000000000 := Nat.mod_lt _ (by omega)
  generalize t.nanos % 1000000000 = n at hlt ⊢
  split
  next h => rw [h]; rfl
  split
  next h =>
    rw [takeFraction?_padded (by omega) (by omega) (by omega)]
    norm_num
    omega
  split
  next h =>
    rw [takeFraction?_padded (by omega) (by omega) (by omega)]
    norm_num
    omega
  next =>
    rw [takeFraction?_padded (by omega) (by omega) (by omega)]
    norm_num

/-! ### Whole texts -/

/-- What a point in time is: a second in the years that can be represented, and less than a second
of nanoseconds, or less than two where the minute ends with a leap second. -/
structure Valid (t : Timestamp) : Prop where
  first : secondRange.1 ≤ t.seconds
  last : t.seconds ≤ secondRange.2
  nanos : t.nanos < 1000000000 ∨ t.nanos < 2000000000 ∧ t.seconds % 60 = 59

namespace Valid

variable {t : Timestamp} (h : t.Valid)
include h

theorem exists?_day : t.day.exists? = true := by
  have h₀ : secondRange.1 = Day.number ⟨-262143, 1, 1⟩ * 86400 := rfl
  have h₁ : secondRange.2 = Day.number ⟨262142, 12, 31⟩ * 86400 + 86399 := rfl
  have hfirst := h.first
  have hlast := h.last
  exact Day.exists?_ofNumber (by omega) (by omega)

theorem parse?_text : parse? t.text = some t := by
  have hday := h.exists?_day
  have hmonth : t.day.month < 10 ^ 2 ∧ t.day.day < 10 ^ 2 := by
    simp only [Day.exists?, Bool.and_eq_true, decide_eq_true_eq] at hday
    have : t.day.day ≤ 31 := hday.2.trans (by unfold Day.daysIn; split <;> split <;> omega)
    omega
  set s := (t.seconds % 86400).toNat with hs
  set second := s % 60 + (if 1000000000 ≤ t.nanos then 1 else 0) with hsecond
  have htext : t.text.toList = Day.yearText t.day.year ++ '-' :: (padded 2 t.day.month ++ '-' ::
      (padded 2 t.day.day ++ 'T' :: (padded 2 (s / 3600) ++ ':' :: (padded 2 (s / 60 % 60) ++ ':' ::
        (padded 2 second ++ (t.fraction ++ ['Z'])))))) := by
    simp [text, Day.text, clock, hs, hsecond]
  have hsecond' : second < 10 ^ 2 := by split at hsecond <;> omega
  unfold parse?
  rw [htext]
  refine Option.bind_eq_some_iff.2 ⟨_, takeYear?_yearText _ _, ?_⟩
  refine Option.bind_eq_some_iff.2 ⟨_, takeMark?_self (by decide) _, ?_⟩
  refine Option.bind_eq_some_iff.2 ⟨_, takeSpaced?_padded (by omega) hmonth.1 _, ?_⟩
  refine Option.bind_eq_some_iff.2 ⟨_, takeMark?_self (by decide) _, ?_⟩
  refine Option.bind_eq_some_iff.2 ⟨_, takeSpaced?_padded (by omega) hmonth.2 _, ?_⟩
  refine Option.bind_eq_some_iff.2 ⟨_, rfl, ?_⟩
  refine Option.bind_eq_some_iff.2 ⟨_, takeSpaced?_padded (by omega) (by omega) _, ?_⟩
  refine Option.bind_eq_some_iff.2 ⟨_, takeMark?_self (by decide) _, ?_⟩
  refine Option.bind_eq_some_iff.2 ⟨_, takeSpaced?_padded (by omega) (by omega) _, ?_⟩
  refine Option.bind_eq_some_iff.2 ⟨_, takeMark?_self (by decide) _, ?_⟩
  refine Option.bind_eq_some_iff.2 ⟨_, takeSpaced?_padded (by omega) hsecond' _, ?_⟩
  refine Option.bind_eq_some_iff.2 ⟨_, takeFraction?_fraction t, ?_⟩
  refine Option.bind_eq_some_iff.2 ⟨(0, []), by decide, ?_⟩
  -- What is left are the checks, and putting the second and the nanoseconds together again.
  have hnanos := h.nanos
  have hleap : second = 60 ↔ 1000000000 ≤ t.nanos := by
    split at hsecond <;> omega
  have hseconds : t.day.number * 86400 + ((s / 3600 : Nat) * 3600 + (s / 60 % 60 : Nat) * 60 +
      (if second = 60 then 59 else second : Nat)) - 0 = t.seconds := by
    rw [day, Day.number_ofNumber]
    split <;> split at hsecond <;> omega
  have hfraction : (if second = 60 then t.nanos % 1000000000 + 1000000000
      else t.nanos % 1000000000) = t.nanos := by
    split <;> omega
  have heta : (⟨t.day.year, t.day.month, t.day.day⟩ : Day) = t.day := rfl
  have hclock : s / 3600 < 24 ∧ s / 60 % 60 < 60 ∧ second ≤ 60 := by
    split at hsecond <;> omega
  simp only [heta, hseconds, hfraction, hday, hclock, h.first, h.last, Text.dropBlanks,
    List.dropWhile_nil, List.isEmpty_nil, decide_true, Bool.and_self, guard_true,
    Option.bind_eq_bind, Int.natAbs_zero]
  rfl

theorem ofJson_toJson : Document.ofJson (toJson t) = .ok t := by
  simp only [Document.ofJson, toJson, Document.toJson, Decode.text, Decode.ok_bind, h.parse?_text]
  rfl

end Valid

end Timestamp

end Stagewise
