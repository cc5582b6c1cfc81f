import Stagewise.Proofs.Document.Accepted
import Stagewise.Proofs.Document.Event
/-!
# Events that are read

A text is read as an event only if that event could have been written: its time is a point in time
that can be represented, and the stages that it names are words.
-/

namespace Stagewise

/-! ### Digits -/

namespace Text

theorem digit?_lt {c : Char} {n : Nat} (h : digit? c = some n) : n < 10 := by
  unfold digit? at h
  split at h
  next hc =>
    have hlow : '0'.toNat = 48 := by decide
    have hhigh : c.toNat ≤ 57 := hc.2
    have hn := Option.some.inj h
    omega
  next => cases h

theorem foldlM_digit?_lt {cs : List Char} {m n : Nat}
    (h : cs.foldlM (fun n c => (digit? c).map (10 * n + ·)) m = some n) :
    n < (m + 1) * 10 ^ cs.length := by
  induction cs generalizing m with
  | nil =>
    obtain rfl : m = n := Option.some.inj h
    simp
  | cons c cs ih =>
    rw [List.foldlM_cons] at h
    obtain ⟨k, hk, h⟩ := Option.bind_eq_some_iff.1 h
    obtain ⟨d, hd, rfl⟩ := Option.map_eq_some_iff.1 hk
    have hdigit := digit?_lt hd
    calc n < (10 * m + d + 1) * 10 ^ cs.length := ih h
      _ ≤ ((m + 1) * 10) * 10 ^ cs.length := Nat.mul_le_mul_right _ (by omega)
      _ = (m + 1) * 10 ^ (c :: cs).length := by rw [List.length_cons, pow_succ', Nat.mul_assoc]

theorem natOfDigits?_lt {cs : List Char} {n : Nat} (h : natOfDigits? cs = some n) :
    n < 10 ^ cs.length := by
  unfold natOfDigits? at h
  split at h
  next => cases h
  next => simpa using foldlM_digit?_lt h

end Text

/-! ### Points in time -/

namespace Timestamp

theorem takeFraction?_lt {cs rest : List Char} {n : Nat} (h : takeFraction? cs = some (n, rest)) :
    n < 1000000000 := by
  unfold takeFraction? at h
  split at h
  next digits =>
    obtain ⟨k, hk, h⟩ := Option.bind_eq_some_iff.1 h
    obtain ⟨rfl, -⟩ := Prod.mk.inj (Option.some.inj h)
    set ds := (digits.takeWhile Char.isDigit).take 9
    have hlength : ds.length ≤ 9 := List.length_take_le ..
    calc k * Nat.pow 10 (9 - ds.length) < 10 ^ ds.length * 10 ^ (9 - ds.length) :=
          Nat.mul_lt_mul_of_pos_right (Text.natOfDigits?_lt hk) (Nat.pow_pos (by omega))
      _ = 10 ^ 9 := by rw [← pow_add, Nat.add_sub_cancel' hlength]
  next =>
    obtain ⟨rfl, -⟩ := Prod.mk.inj (Option.some.inj h)
    omega

/-- Offsets are whole minutes. -/
theorem takeOffset?_emod {cs rest : List Char} {offset : Int}
    (h : takeOffset? cs = some (offset, rest)) : offset % 60 = 0 := by
  have hsigned : ∀ {negative : Bool} {hours minutes : Nat} {r : List Char},
      ((if negative then -((hours : Int) * 3600 + minutes * 60)
        else (hours : Int) * 3600 + minutes * 60), r) = (offset, rest) → offset % 60 = 0 := by
    intro negative hours minutes r heq
    obtain ⟨rfl, -⟩ := Prod.mk.inj heq
    split <;> omega
  unfold takeOffset? at h
  split at h
  case h_6 =>
    split at h
    · obtain ⟨rfl, -⟩ := Prod.mk.inj (Option.some.inj h)
      rfl
    · cases h
  case h_7 => cases h
  case h_1 | h_2 =>
    obtain ⟨rfl, -⟩ := Prod.mk.inj (Option.some.inj h)
    rfl
  all_goals
    obtain ⟨⟨hours, r⟩, -, h⟩ := Option.bind_eq_some_iff.1 h
    obtain ⟨⟨minutes, r⟩, -, h⟩ := Option.bind_eq_some_iff.1 h
    obtain ⟨-, -, h⟩ := Option.bind_eq_some_iff.1 h
    exact hsigned (Option.some.inj h)

theorem valid_of_parse? {s : String} {t : Timestamp} (h : parse? s = some t) : t.Valid := by
  unfold parse? at h
  obtain ⟨⟨year, cs⟩, -, h⟩ := Option.bind_eq_some_iff.1 h
  obtain ⟨cs, -, h⟩ := Option.bind_eq_some_iff.1 h
  obtain ⟨⟨month, cs⟩, -, h⟩ := Option.bind_eq_some_iff.1 h
  obtain ⟨cs, -, h⟩ := Option.bind_eq_some_iff.1 h
  obtain ⟨⟨day, cs⟩, -, h⟩ := Option.bind_eq_some_iff.1 h
  dsimp only at h
  split at h
  case h_4 => cases h
  all_goals
    obtain ⟨cs, -, h⟩ := Option.bind_eq_some_iff.1 h
    obtain ⟨⟨hour, cs⟩, -, h⟩ := Option.bind_eq_some_iff.1 h
    obtain ⟨cs, -, h⟩ := Option.bind_eq_some_iff.1 h
    obtain ⟨⟨minute, cs⟩, -, h⟩ := Option.bind_eq_some_iff.1 h
    obtain ⟨cs, -, h⟩ := Option.bind_eq_some_iff.1 h
    obtain ⟨⟨second, cs⟩, -, h⟩ := Option.bind_eq_some_iff.1 h
    obtain ⟨⟨nanos, cs⟩, hnanos, h⟩ := Option.bind_eq_some_iff.1 h
    obtain ⟨⟨offset, cs⟩, hoffset, h⟩ := Option.bind_eq_some_iff.1 h
    obtain ⟨-, -, h⟩ := Option.bind_eq_some_iff.1 h
    obtain ⟨-, -, h⟩ := Option.bind_eq_some_iff.1 h
    obtain ⟨_, hrange, h⟩ := Option.bind_eq_some_iff.1 h
    obtain rfl := Option.some.inj h
    have hnanos := takeFraction?_lt hnanos
    have hoffset := takeOffset?_emod hoffset
    simp only [Option.guard_eq_some', Bool.and_eq_true, decide_eq_true_eq] at hrange
    refine ⟨hrange.1, hrange.2, ?_⟩
    -- a leap second ends a minute of UTC, since days, hours and offsets are whole minutes
    by_cases hleap : second = 60
    · right
      simp only [hleap, if_true]
      omega
    · left
      simpa only [hleap, decide_false, Bool.false_eq_true, if_false] using hnanos

theorem valid_of_ofJson {j : Json} {t : Timestamp} (h : Document.ofJson j = .ok t) : t.Valid := by
  obtain ⟨s, -, h⟩ := bind_eq_ok h
  split at h
  next t' hparse =>
    obtain rfl := Except.ok.inj h
    exact valid_of_parse? hparse
  next => cases h

end Timestamp

/-! ### Events -/

theorem Decode.unsigned_lt {bits n : Nat} {j : Json} (h : unsigned bits j = .ok n) :
    n < 2 ^ bits := by
  cases j with
  | int k =>
    simp only [unsigned, word] at h
    split at h
    next hk =>
      obtain rfl := Except.ok.inj h
      have hpow : (0 : Int) < ((Nat.pow 2 bits : Nat) : Int) := by
        exact_mod_cast Nat.pow_pos (by omega)
      have : k.toNat < Nat.pow 2 bits := by omega
      exact this
    next => cases h
  | null | bool | real | text | list | object | unreadable => cases h

theorem Decode.exists_given {α : Type} {name : String} {names : List String}
    {build : Given → Decoded α} {j : Json} {a : α} (h : record name names build j = .ok a) :
    ∃ g, build g = .ok a := by
  cases j with
  | object members =>
    obtain ⟨values, -, h⟩ := bind_eq_ok h
    exact ⟨_, h⟩
  | list items =>
    obtain ⟨b, hb, h⟩ := bind_eq_ok h
    split at h
    · cases h
    · exact ⟨_, hb.trans h⟩
  | null | bool | int | real | text | unreadable => cases h

theorem Decode.Given.required_unsigned_lt {g : Given} {name : String} {bits n : Nat}
    (h : g.required name (unsigned bits) = .ok n) : n < 2 ^ bits := by
  obtain ⟨j, -, h⟩ := required_eq_ok h
  exact unsigned_lt h

namespace EventType

theorem plain_eq_ok {e e' : EventType} {j : Json} (h : plain e j = .ok e') : e' = e := by
  unfold plain at h
  split at h
  · cases h
  · exact (Except.ok.inj h).symm

theorem stages_lt_of_ofNamed {name : String} {body : Json} {e : EventType}
    (h : ofNamed name body = .ok e) : ∀ n ∈ e.stages, n < 2 ^ 64 := by
  unfold ofNamed at h
  split at h
  case h_15 => cases h
  case h_2 | h_4 | h_5 =>
    obtain rfl := plain_eq_ok h
    simp [stages]
  case h_6 =>
    obtain ⟨g, h⟩ := Decode.exists_given h
    obtain ⟨n, hn, h⟩ := bind_eq_ok h
    obtain rfl := Except.ok.inj h
    simpa [stages] using Decode.Given.required_unsigned_lt hn
  case h_8 =>
    obtain ⟨g, h⟩ := Decode.exists_given h
    obtain ⟨m, hm, h⟩ := bind_eq_ok h
    obtain ⟨n, hn, h⟩ := bind_eq_ok h
    obtain rfl := Except.ok.inj h
    simpa [stages] using
      ⟨Decode.Given.required_unsigned_lt hm, Decode.Given.required_unsigned_lt hn⟩
  case h_3 | h_7 | h_9 =>
    obtain ⟨g, h⟩ := Decode.exists_given h
    obtain ⟨n, hn, h⟩ := bind_eq_ok h
    obtain ⟨text, -, h⟩ := bind_eq_ok h
    obtain rfl := Except.ok.inj h
    simpa [stages] using Decode.Given.required_unsigned_lt hn
  case h_1 =>
    obtain ⟨g, h⟩ := Decode.exists_given h
    obtain ⟨name, -, h⟩ := bind_eq_ok h
    obtain ⟨n, hn, h⟩ := bind_eq_ok h
    obtain rfl := Except.ok.inj h
    simpa [stages] using Decode.Given.required_unsigned_lt hn
  case h_10 =>
    obtain ⟨g, h⟩ := Decode.exists_given h
    obtain ⟨task, -, h⟩ := bind_eq_ok h
    obtain ⟨agent, -, h⟩ := bind_eq_ok h
    obtain ⟨action, -, h⟩ := bind_eq_ok h
    obtain rfl := Except.ok.inj h
    simp [stages]
  case h_12 =>
    obtain ⟨g, h⟩ := Decode.exists_given h
    obtain ⟨task, -, h⟩ := bind_eq_ok h
    obtain ⟨text, -, h⟩ := bind_eq_ok h
    obtain rfl := Except.ok.inj h
    simp [stages]
  case h_11 | h_13 | h_14 =>
    obtain ⟨g, h⟩ := Decode.exists_given h
    obtain ⟨only, -, h⟩ := bind_eq_ok h
    obtain rfl := Except.ok.inj h
    simp [stages]

theorem stages_lt_of_ofJson {j : Json} {e : EventType} (h : Document.ofJson j = .ok e) :
    ∀ n ∈ e.stages, n < 2 ^ 64 := by
  change ofJson j = .ok e at h
  unfold ofJson at h
  split at h
  next =>
    split at h
    · split at h
      next => exact stages_lt_of_ofNamed h
      all_goals cases h
    · exact stages_lt_of_ofNamed h
    all_goals cases h
  next => cases h

end EventType

/-- An event that is read can be written. -/
theorem Event.valid_of_readText? {text : String} {e : Event}
    (h : Document.readText? text = some e) : e.Valid := by
  obtain ⟨j, -, h⟩ := Document.exists_of_readText? h
  obtain ⟨g, h⟩ := Decode.exists_given h
  obtain ⟨id, -, h⟩ := bind_eq_ok h
  obtain ⟨dag, -, h⟩ := bind_eq_ok h
  obtain ⟨timestamp, htime, h⟩ := bind_eq_ok h
  obtain ⟨type, htype, h⟩ := bind_eq_ok h
  obtain rfl := Except.ok.inj h
  obtain ⟨_, -, htime⟩ := Decode.Given.required_eq_ok htime
  obtain ⟨_, -, htype⟩ := Decode.Given.required_eq_ok htype
  exact ⟨Timestamp.valid_of_ofJson htime, EventType.stages_lt_of_ofJson htype⟩

end Stagewise
