import Stagewise.Proofs.Json.Records
import Stagewise.Uuid
/-!
# Identifiers read back

The text of an identifier is read as the identifier.
-/

namespace Stagewise.Uuid

@[simp] theorem length_digits (u : Uuid) : u.digits.length = 32 := Text.length_hexDigits _ _

theorem ofDigits?_digits (u : Uuid) : ofDigits? u.digits = some u := by
  have hlt : u.bits.toNat % 16 ^ 32 = u.bits.toNat := Nat.mod_eq_of_lt (by simpa using u.bits.isLt)
  rw [ofDigits?, if_pos u.length_digits, digits, Text.natOfHex?_hexDigits, hlt]
  simp

theorem ofHyphenated?_hyphenated {cs : List Char} (h : cs.length = 32) :
    ofHyphenated? (hyphenated cs) = ofDigits? cs := by
  have h8 : (cs.take 8).length = 8 := by simp [h]
  have h12 : ((cs.drop 8).take 4).length = 4 := by simp [h]
  have h16 : ((cs.drop 12).take 4).length = 4 := by simp [h]
  have h20 : ((cs.drop 16).take 4).length = 4 := by simp [h]
  have hcs : cs.take 8 ++ ((cs.drop 8).take 4 ++ ((cs.drop 12).take 4 ++
      ((cs.drop 16).take 4 ++ cs.drop 20))) = cs := by
    have hnext : ∀ n, (cs.drop n).take 4 ++ cs.drop (n + 4) = cs.drop n := fun n => by
      rw [← List.drop_drop, List.take_append_drop]
    rw [hnext 16, hnext 12, hnext 8, List.take_append_drop]
  unfold hyphenated
  generalize cs.take 8 = a at *
  generalize (cs.drop 8).take 4 = b at *
  generalize (cs.drop 12).take 4 = c at *
  generalize (cs.drop 16).take 4 = d at *
  generalize cs.drop 20 = e at *
  subst hcs
  simp [ofHyphenated?, List.getElem?_append, h8, h12, h16, h20, List.take_append,
    List.drop_append] at h ⊢
  have he : e.length = 12 := by omega
  simp (disch := omega) only [he, List.drop_of_length_le, List.take_nil, List.nil_append]
  exact if_pos trivial

theorem length_hyphenated {cs : List Char} (h : cs.length = 32) : (hyphenated cs).length = 36 := by
  simp [hyphenated, h]

theorem parse?_text (u : Uuid) : parse? u.text = some u := by
  have hlength := length_hyphenated u.length_digits
  simp [parse?, text, hlength, ofHyphenated?_hyphenated u.length_digits, ofDigits?_digits]

theorem text_injective : Function.Injective text := by
  intro u v h
  have := congrArg parse? h
  simpa only [parse?_text, Option.some_inj] using this

theorem ofJson_toJson (u : Uuid) : Document.ofJson (toJson u) = .ok u := by
  simp only [Document.ofJson, toJson, Document.toJson, Decode.text, Decode.ok_bind, parse?_text]
  rfl

end Stagewise.Uuid
