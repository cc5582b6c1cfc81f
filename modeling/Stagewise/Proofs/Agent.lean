import Mathlib.Data.List.DropRight
import Stagewise.Engine.Report
import Stagewise.Proofs.Table
import Stagewise.Proofs.Text.Digits
/-!
# The addresses of agents

An address is written without brackets, and its port begins behind its last colon, so that no two
agents are written alike. What is written is read back, unless reading would find a bracket to take
off the ip; and what reading makes of any spelling of an address is never such an ip.
-/

namespace Stagewise

theorem Text.boundedNat?_toString {max n : Nat} (h : n ≤ max) :
    boundedNat? max (toString n) = some n := by
  have hdigits : (toString n).toList = Nat.toDigits 10 n := by
    rw [Nat.toString_eq_repr, Nat.repr, String.toList_ofList]
  rw [boundedNat?, hdigits]
  split
  · next r hplus =>
    have hdigit : '+'.isDigit = true :=
      Nat.isDigit_of_mem_toDigits (by omega) (by omega) (hplus ▸ List.mem_cons_self)
    cases hdigit
  · rw [natOfDigits?_toDigits]
    exact if_pos h

theorem Text.le_of_boundedNat? {max n : Nat} {s : String} (h : boundedNat? max s = some n) :
    n ≤ max := by
  rw [boundedNat?] at h
  obtain ⟨m, -, hm⟩ := Option.bind_eq_some_iff.1 h
  rw [Option.ite_none_right_eq_some] at hm
  exact Option.some.inj hm.2 ▸ hm.1

namespace Agent

variable {a b : Agent} {cs host port : List Char}

/-- Reading leaves the ip as it is: there is one, and no bracket is to be taken off its ends. -/
structure Plain (a : Agent) : Prop where
  nonempty : a.ip ≠ ""
  opening : a.ip.toList.head? ≠ some '['
  closing : a.ip.toList.getLast? ≠ some ']'

/-! ### Splitting and brackets -/

theorem splitLastColon?_eq_some_iff :
    splitLastColon? cs = some (host, port) ↔ cs = host ++ ':' :: port ∧ ':' ∉ port := by
  constructor
  · intro h
    rw [splitLastColon?] at h
    split at h
    · next c rest hrest =>
      obtain ⟨rfl, rfl⟩ := Prod.mk.inj (Option.some.inj h)
      have hcolon : c = ':' := by
        have hc := List.head?_dropWhile_not (· != ':') cs.reverse
        rw [hrest] at hc
        simpa using hc
      have hsplit := List.takeWhile_append_dropWhile (p := (· != ':')) (l := cs.reverse)
      rw [hrest, hcolon] at hsplit
      constructor
      · simpa using (congrArg List.reverse hsplit).symm
      · rw [List.mem_reverse]
        exact fun hmem => absurd (List.mem_takeWhile_imp hmem) (by decide)
    · cases h
  · rintro ⟨rfl, hport⟩
    have hall : ∀ c ∈ port.reverse, (c != ':') = true := fun c hc => by
      simpa using ne_of_mem_of_not_mem (List.mem_reverse.1 hc) hport
    have hreverse : (host ++ ':' :: port).reverse = port.reverse ++ ':' :: host.reverse := by simp
    simp only [splitLastColon?, hreverse, List.takeWhile_append_of_pos hall,
      List.dropWhile_append_of_pos hall]
    simp

theorem withoutBrackets_eq (cs : List Char) :
    withoutBrackets cs = (cs.dropWhile (· == '[')).rdropWhile (· == ']') := rfl

theorem withoutBrackets_eq_self (opening : cs.head? ≠ some '[')
    (closing : cs.getLast? ≠ some ']') : withoutBrackets cs = cs := by
  have hfront : cs.dropWhile (· == '[') = cs := by
    cases cs with
    | nil => rfl
    | cons c cs => exact List.dropWhile_cons_of_neg (by simpa using opening)
  rw [withoutBrackets_eq, hfront, List.rdropWhile_eq_self_iff]
  intro hne hlast
  rw [List.getLast?_eq_some_getLast hne, eq_of_beq hlast] at closing
  exact closing rfl

theorem head?_withoutBrackets (cs : List Char) : (withoutBrackets cs).head? ≠ some '[' := by
  intro h
  have hprefix : withoutBrackets cs <+: cs.dropWhile (· == '[') := List.rdropWhile_prefix _ _
  obtain ⟨rest, hrest⟩ := hprefix
  have hfront := List.head?_dropWhile_not (· == '[') cs
  rw [← hrest, List.head?_append, h] at hfront
  cases hfront

theorem getLast?_withoutBrackets (cs : List Char) :
    (withoutBrackets cs).getLast? ≠ some ']' := by
  intro h
  rw [withoutBrackets_eq] at h
  have hne : (cs.dropWhile (· == '[')).rdropWhile (· == ']') ≠ [] := by
    intro hnil
    rw [hnil] at h
    cases h
  rw [List.getLast?_eq_some_getLast hne] at h
  exact List.rdropWhile_last_not _ _ hne (by rw [Option.some.inj h]; rfl)

/-! ### Writing and reading -/

theorem toList_text (a : Agent) :
    a.text.toList = a.ip.toList ++ ':' :: (toString a.port.toNat).toList := by
  simp [text]

theorem colon_notMem_toString (n : Nat) : ':' ∉ (toString n).toList := by
  intro hmem
  rw [Nat.toString_eq_repr, Nat.repr, String.toList_ofList] at hmem
  have hdigit : ':'.isDigit = true := Nat.isDigit_of_mem_toDigits (by omega) (by omega) hmem
  cases hdigit

theorem splitLastColon?_text (a : Agent) :
    splitLastColon? a.text.toList = some (a.ip.toList, (toString a.port.toNat).toList) :=
  splitLastColon?_eq_some_iff.2 ⟨a.toList_text, colon_notMem_toString _⟩

theorem boundedNat?_port (port : UInt16) :
    Text.boundedNat? 65535 (toString port.toNat) = some port.toNat :=
  Text.boundedNat?_toString (Nat.le_of_lt_succ port.toNat_lt)

/-- No two agents are written alike. -/
theorem text_injective : Function.Injective text := by
  rintro ⟨ip, port⟩ ⟨ip', port'⟩ h
  have hsplit := splitLastColon?_text ⟨ip, port⟩
  rw [h, splitLastColon?_text] at hsplit
  obtain ⟨hip, hport⟩ := Prod.mk.inj (Option.some.inj hsplit)
  have hnumber := boundedNat?_port port
  rw [← String.toList_inj.1 hport, boundedNat?_port] at hnumber
  obtain rfl : ip' = ip := String.toList_inj.1 hip
  obtain rfl : port' = port := UInt16.toNat_inj.1 (Option.some.inj hnumber)
  rfl

/-- What a text is read as: the part before its last colon without its brackets, and the number
behind it. -/
theorem parse?_eq_some_iff {s : String} :
    parse? s = some a ↔ ∃ host port, s.toList = host ++ ':' :: port ∧ ':' ∉ port ∧
      a.ip.toList = withoutBrackets host ∧ a.ip ≠ "" ∧
        Text.boundedNat? 65535 (String.ofList port) = some a.port.toNat := by
  have hempty (cs : List Char) : String.ofList cs ≠ "" ↔ (!cs.isEmpty) = true := by
    simp
  obtain ⟨ip, number⟩ := a
  constructor
  · intro h
    obtain ⟨⟨host, port⟩, hsplit, h⟩ := Option.bind_eq_some_iff.1 h
    obtain ⟨⟨⟩, hguard, h⟩ := Option.bind_eq_some_iff.1 h
    obtain ⟨n, hn, h⟩ := Option.bind_eq_some_iff.1 h
    obtain ⟨rfl, rfl⟩ := Agent.mk.inj (Option.some.inj h)
    obtain ⟨hs, hcolon⟩ := splitLastColon?_eq_some_iff.1 hsplit
    refine ⟨host, port, hs, hcolon, String.toList_ofList, ?_, ?_⟩
    · exact (hempty _).2 (Option.ite_none_right_eq_some.1 hguard).1
    · have hfits : n < UInt16.size := Nat.lt_succ_of_le (Text.le_of_boundedNat? hn)
      rw [hn, UInt16.toNat_ofNat_of_lt' hfits]
  · rintro ⟨host, port, hs, hcolon, hip, hne, hnumber⟩
    obtain rfl : String.ofList (withoutBrackets host) = ip := by rw [← hip, String.ofList_toList]
    rw [hempty] at hne
    refine Option.bind_eq_some_iff.2 ⟨_, splitLastColon?_eq_some_iff.2 ⟨hs, hcolon⟩, ?_⟩
    refine Option.bind_eq_some_iff.2 ⟨(), if_pos hne, ?_⟩
    refine Option.bind_eq_some_iff.2 ⟨_, hnumber, ?_⟩
    rw [UInt16.ofNat_toNat]
    rfl

theorem plain_of_parse? {s : String} (h : parse? s = some a) : a.Plain := by
  obtain ⟨host, port, -, -, hip, hne, -⟩ := parse?_eq_some_iff.1 h
  exact ⟨hne, hip ▸ head?_withoutBrackets host, hip ▸ getLast?_withoutBrackets host⟩

theorem parse?_text_iff : parse? a.text = some a ↔ a.Plain := by
  refine ⟨plain_of_parse?, fun h => parse?_eq_some_iff.2 ?_⟩
  refine ⟨a.ip.toList, (toString a.port.toNat).toList, a.toList_text, colon_notMem_toString _,
    (withoutBrackets_eq_self h.opening h.closing).symm, h.nonempty, ?_⟩
  rw [String.ofList_toList]
  exact boundedNat?_port a.port

/-- The results that a task keeps under the addresses of agents are kept apart. -/
theorem get?_enter (f : Folding) (a b : Agent) (status : TaskStatus) :
    (f.enter a status).task.agentResults.get? b.text
      = if b = a then some status else f.task.agentResults.get? b.text := by
  split
  · next hsame => rw [hsame, Folding.enter, Table.get?_insert_self]
  · next hother => rw [Folding.enter, Table.get?_insert_of_ne (text_injective.ne hother)]

/-- Addresses tell agents apart, also where results are kept under them. The address of an agent is
read back just when its ip is plain, and whatever a text is read as has a plain ip, so that the
address of an agent that was read is read as the same agent again. -/
theorem addresses_normal :
    Function.Injective text ∧
      (∀ (f : Folding) (a b : Agent) (status : TaskStatus),
        (f.enter a status).task.agentResults.get? b.text
          = if b = a then some status else f.task.agentResults.get? b.text) ∧
      (∀ a : Agent, parse? a.text = some a ↔ a.Plain) ∧
      ∀ (s : String) (a : Agent), parse? s = some a → a.Plain ∧ parse? a.text = some a :=
  ⟨text_injective, get?_enter, fun _ => parse?_text_iff,
    fun _ _ h => ⟨plain_of_parse? h, parse?_text_iff.2 (plain_of_parse? h)⟩⟩

/-- Brackets and spellings of the port are gone after reading, and the colons of the ip stay. -/
theorem addresses_normal_brackets :
    parse? "[[::1]]:+02886" = some ⟨"::1", 2886⟩ ∧ (⟨"::1", 2886⟩ : Agent).text = "::1:2886" ∧
      parse? "::1:2886" = some ⟨"::1", 2886⟩ := by
  have hread : parse? "[[::1]]:+02886" = some ⟨"::1", 2886⟩ := by decide
  have hwritten : (⟨"::1", 2886⟩ : Agent).text = "::1:2886" := by decide
  obtain ⟨-, -, -, hnormal⟩ := addresses_normal
  exact ⟨hread, hwritten, hwritten ▸ (hnormal _ _ hread).2⟩

end Agent

end Stagewise
