import Mathlib.Algebra.Group.Nat.Defs
import Mathlib.Data.List.Basic
import Stagewise.Text.Digits
/-!
# Digits read back

Numbers written with digits are read back as themselves, whatever zeros stand in front of them, and
what is written for them holds digits only.
-/

namespace Stagewise.Text

/-! ### Decimal digits -/

theorem isDigit_iff {c : Char} : c.isDigit = true ↔ '0' ≤ c ∧ c ≤ '9' := by
  simp only [Char.isDigit, Bool.and_eq_true, decide_eq_true_eq]
  rfl

theorem digit?_of_isDigit {c : Char} (h : c.isDigit = true) : digit? c = some (c.toNat - 48) := by
  simp only [digit?, if_pos (isDigit_iff.1 h)]
  rfl

/-- Over digits the reader does what the library's reader does. -/
theorem foldlM_digit? {cs : List Char} (h : ∀ c ∈ cs, c.isDigit = true) (n : Nat) :
    cs.foldlM (fun n c => (digit? c).map (10 * n + ·)) n = some (Nat.ofDigitChars 10 cs n) := by
  induction cs generalizing n with
  | nil => simp
  | cons c cs ih =>
    obtain ⟨hc, hcs⟩ := List.forall_mem_cons.1 h
    simp [digit?_of_isDigit hc, ih hcs, Nat.ofDigitChars_cons]

theorem natOfDigits?_of_isDigit {cs : List Char} (hne : cs ≠ []) (h : ∀ c ∈ cs, c.isDigit = true) :
    natOfDigits? cs = some (Nat.ofDigitChars 10 cs 0) := by
  simp [natOfDigits?, hne, foldlM_digit? h]

theorem isDigit_of_mem_padded {width n : Nat} {c : Char} (h : c ∈ padded width n) :
    c.isDigit = true := by
  rcases List.mem_append.1 h with h | h
  · rw [List.eq_of_mem_replicate h]
    decide
  · exact Nat.isDigit_of_mem_toDigits (by omega) (by omega) h

theorem padded_ne_nil (width n : Nat) : padded width n ≠ [] := by
  simp [padded, Nat.toDigits_ne_nil]

theorem natOfDigits?_padded (width n : Nat) : natOfDigits? (padded width n) = some n := by
  rw [natOfDigits?_of_isDigit (padded_ne_nil width n) fun c => isDigit_of_mem_padded]
  simp [padded, Nat.ofDigitChars_append, Nat.ofDigitChars_replicate_zero]

theorem natOfDigits?_toDigits (n : Nat) : natOfDigits? (Nat.toDigits 10 n) = some n := by
  simpa [padded] using natOfDigits?_padded 0 n

/-- Only zero is written with a zero in front. -/
theorem head?_toDigits {n : Nat} (h : 0 < n) : (Nat.toDigits 10 n).head? ≠ some '0' := by
  induction n using Nat.strongRecOn with
  | ind n ih =>
    by_cases hn : n < 10
    · rw [Nat.toDigits_of_lt_base hn]
      simpa using Nat.ne_of_gt h
    · rw [Nat.toDigits_of_base_le (by omega) (by omega),
        List.head?_append_of_ne_nil _ Nat.toDigits_ne_nil]
      exact ih (n / 10) (by omega) (by omega)

/-- Zeros in front do not change which number is written. -/
theorem padded_injective (width : Nat) : Function.Injective (padded width) := by
  intro m n h
  have := congrArg natOfDigits? h
  simpa only [natOfDigits?_padded, Option.some_inj] using this

theorem length_padded {width n : Nat} (hw : 0 < width) (h : n < 10 ^ width) :
    (padded width n).length = width := by
  have : (Nat.toDigits 10 n).length ≤ width := (Nat.length_toDigits_le_iff (by omega) hw).2 h
  simp only [padded, List.length_append, List.length_replicate]
  omega

/-! ### Hexadecimal digits -/

theorem hexDigit?_hexDigit (n : Nat) : hexDigit? (hexDigit n) = some (n % 16) := by
  have h : ∀ m < 16, hexDigit? (Nat.digitChar m) = some m := by decide
  exact h _ (Nat.mod_lt n (by omega))

@[simp] theorem length_hexDigits (count n : Nat) : (hexDigits count n).length = count := by
  induction count generalizing n with
  | zero => rfl
  | succ count ih => simp [hexDigits, ih]

theorem natOfHex?_append (cs : List Char) (c : Char) :
    natOfHex? (cs ++ [c]) =
      (natOfHex? cs).bind fun n => (hexDigit? c).map (16 * n + ·) := by
  simp [natOfHex?, List.foldlM_append]

/-- As many digits as are written give the number back up to what does not fit into them. -/
theorem natOfHex?_hexDigits (count n : Nat) :
    natOfHex? (hexDigits count n) = some (n % 16 ^ count) := by
  induction count generalizing n with
  | zero => simp [hexDigits, natOfHex?, Nat.mod_one]
  | succ count ih =>
    rw [hexDigits, natOfHex?_append, ih, Option.bind_some, hexDigit?_hexDigit, Option.map_some,
      Nat.pow_succ', Nat.mod_mul, Nat.add_comm]

theorem exists_hexDigit_of_mem {count n : Nat} {c : Char} (h : c ∈ hexDigits count n) :
    ∃ k, c = hexDigit k := by
  induction count generalizing n with
  | zero => simp [hexDigits] at h
  | succ count ih =>
    rcases List.mem_append.1 h with h | h
    · exact ih h
    · exact ⟨n, List.mem_singleton.1 h⟩

end Stagewise.Text
