import Stagewise.Proofs.Json.Free
/-!
# What a value is made of

The leaves of a value are what is neither a list nor an object. Whether a value can be used, and
whether a text keeps it, depends on its leaves alone; every integer that is read is a word of 64
bits.
-/

namespace Stagewise.Json

mutual

/-- The parts of a value that are neither lists nor objects. -/
def leaves : Json → List Json
  | .list items => leavesList items
  | .object members => leavesMembers members
  | j => [j]

def leavesList : List Json → List Json
  | [] => []
  | j :: rest => leaves j ++ leavesList rest

def leavesMembers : List (String × Json) → List Json
  | [] => []
  | (_, v) :: rest => leaves v ++ leavesMembers rest

end

theorem mem_leavesList {l : Json} {items : List Json} :
    l ∈ leavesList items ↔ ∃ j ∈ items, l ∈ j.leaves := by
  induction items with
  | nil => simp [leavesList]
  | cons j items ih => simp [leavesList, ih]

theorem mem_leavesMembers {l : Json} {members : List (String × Json)} :
    l ∈ leavesMembers members ↔ ∃ m ∈ members, l ∈ m.2.leaves := by
  induction members with
  | nil => simp [leavesMembers]
  | cons m members ih => simp [leavesMembers, ih]

/-! ### What the leaves decide -/

mutual

theorem isReadable_iff (j : Json) : j.isReadable = true ↔ .unreadable ∉ j.leaves := by
  match j with
  | .null | .bool _ | .int _ | .real _ | .text _ | .unreadable => simp [isReadable, leaves]
  | .list items => exact isReadableList_iff items
  | .object members => exact isReadableMembers_iff members

theorem isReadableList_iff (items : List Json) :
    isReadableList items = true ↔ .unreadable ∉ leavesList items := by
  match items with
  | [] => simp [isReadableList, leavesList]
  | j :: rest =>
    simp [isReadableList, leavesList, isReadable_iff j, isReadableList_iff rest]

theorem isReadableMembers_iff (members : List (String × Json)) :
    isReadableMembers members = true ↔ .unreadable ∉ leavesMembers members := by
  match members with
  | [] => simp [isReadableMembers, leavesMembers]
  | (_, v) :: rest =>
    simp [isReadableMembers, leavesMembers, isReadable_iff v, isReadableMembers_iff rest]

end

/-- Leaves that a text keeps. -/
structure Keepable (ls : List Json) : Prop where
  words : ∀ n, .int n ∈ ls → isWord n = true
  whole : ∀ x, .real x ∉ ls
  readable : .unreadable ∉ ls

theorem Keepable.mono {ls ls' : List Json} (h : Keepable ls) (hsub : ls' ⊆ ls) : Keepable ls' :=
  ⟨fun n hn => h.words n (hsub hn), fun x hx => h.whole x (hsub hx), fun hu => h.readable (hsub hu)⟩

mutual

/-- A text keeps a value whose leaves it keeps. -/
theorem isExact_of_leaves (j : Json) (h : Keepable j.leaves) : j.isExact = true := by
  match j with
  | .null | .bool _ | .text _ => rfl
  | .int n => exact h.words n List.mem_cons_self
  | .real x => exact absurd List.mem_cons_self (h.whole x)
  | .unreadable => exact absurd List.mem_cons_self h.readable
  | .list items => exact isExactList_of_leaves items h
  | .object members => exact isExactMembers_of_leaves members h

theorem isExactList_of_leaves (items : List Json) (h : Keepable (leavesList items)) :
    isExactList items = true := by
  match items with
  | [] => rfl
  | j :: rest =>
    have hj := isExact_of_leaves j (h.mono (List.subset_append_left _ _))
    have hrest := isExactList_of_leaves rest (h.mono (List.subset_append_right _ _))
    rw [isExactList, hj, hrest, Bool.and_self]

theorem isExactMembers_of_leaves (members : List (String × Json))
    (h : Keepable (leavesMembers members)) : isExactMembers members = true := by
  match members with
  | [] => rfl
  | (_, v) :: rest =>
    have hv := isExact_of_leaves v (h.mono (List.subset_append_left _ _))
    have hrest := isExactMembers_of_leaves rest (h.mono (List.subset_append_right _ _))
    rw [isExactMembers, hv, hrest, Bool.and_self]

end

mutual

theorem leaves_normalize_subset (j : Json) : j.normalize.leaves ⊆ j.leaves := by
  match j with
  | .null | .bool _ | .int _ | .real _ | .text _ | .unreadable => exact List.Subset.refl _
  | .list items => exact leavesList_normalize_subset items
  | .object members => exact leavesMembers_normalize_subset members

theorem leavesList_normalize_subset (items : List Json) :
    leavesList (normalizeList items) ⊆ leavesList items := by
  match items with
  | [] => exact List.Subset.refl _
  | j :: rest =>
    rw [normalizeList, leavesList, leavesList]
    exact List.append_subset.2
      ⟨List.subset_append_of_subset_left _ (leaves_normalize_subset j),
        List.subset_append_of_subset_right _ (leavesList_normalize_subset rest)⟩

theorem leavesMembers_normalize_subset (members : List (String × Json)) :
    leavesMembers (normalizeMembers members).rows ⊆ leavesMembers members := by
  match members with
  | [] => exact List.Subset.refl _
  | (k, v) :: rest =>
    have hrest := leavesMembers_normalize_subset rest
    intro l hl
    rw [leavesMembers, List.mem_append]
    simp only [normalizeMembers] at hl
    split at hl
    · exact .inr (hrest hl)
    · obtain ⟨m, hm, hl⟩ := mem_leavesMembers.1 hl
      rcases Table.mem_insert.1 hm with rfl | ⟨hm, -⟩
      · exact .inl (leaves_normalize_subset v hl)
      · exact .inr (hrest (mem_leavesMembers.2 ⟨m, hm, hl⟩))

end

/-! ### What is read -/

/-- Every integer in the value is a word of 64 bits. -/
def Worded (j : Json) : Prop := ∀ n, .int n ∈ j.leaves → isWord n = true

theorem worded_list {items : List Json} (h : ∀ j ∈ items, j.Worded) : (Json.list items).Worded := by
  intro n hn
  obtain ⟨j, hj, hn⟩ := mem_leavesList.1 hn
  exact h j hj n hn

theorem worded_object {members : List (String × Json)} (h : ∀ m ∈ members, m.2.Worded) :
    (Json.object members).Worded := by
  intro n hn
  obtain ⟨m, hm, hn⟩ := mem_leavesMembers.1 hn
  exact h m hm n hn

/-- A number is an integer only when it is a word. -/
theorem worded_of_digits {digits? : Option Nat} {whole : Bool} {zero : Nat → Bool}
    {exact : Nat → Int} {scaled : Nat → Option Decimal} {j : Json}
    (h : (digits?.bind fun digits =>
      if (whole && isWord (exact digits) && !zero digits) = true then
        pure (Json.int (exact digits))
      else pure (match scaled digits with
        | some x => .real x
        | none => .unreadable)) = some j) : j.Worded := by
  obtain ⟨digits, -, h⟩ := Option.bind_eq_some_iff.1 h
  split at h
  · rename_i hword
    simp only [Bool.and_eq_true] at hword
    obtain rfl := Option.some.inj h
    intro n hn
    obtain rfl := Json.int.inj (List.mem_singleton.1 hn)
    exact hword.1.2
  · obtain rfl := Option.some.inj h
    split <;> simp [Worded, leaves]

theorem magnitudeOfChars?_worded {negative : Bool} {cs : List Char} {j : Json}
    (h : magnitudeOfChars? negative cs = some j) : j.Worded := by
  unfold magnitudeOfChars? at h
  obtain ⟨_, -, h⟩ := Option.bind_eq_some_iff.1 h
  -- Whatever the fraction and the rest are that the digits are cut into.
  split at h
  simp only [Option.bind_eq_bind, Option.bind_eq_some_iff] at h
  obtain ⟨_, -, h⟩ := h
  split at h
  · exact worded_of_digits h
  · split at h
    · obtain ⟨_, -, h⟩ := Option.bind_eq_some_iff.1 h
      exact worded_of_digits h
    · cases h

theorem numberOfChars?_worded {cs : List Char} {j : Json} (h : numberOfChars? cs = some j) :
    j.Worded := by
  unfold numberOfChars? at h
  split at h
  · exact magnitudeOfChars?_worded h
  · exact magnitudeOfChars?_worded h

theorem wordOfChars?_worded {cs : List Char} {j : Json} (h : wordOfChars? cs = some j) :
    j.Worded := by
  unfold wordOfChars? at h
  split at h
  · obtain rfl := Option.some.inj h
    simp [Worded, leaves]
  · obtain rfl := Option.some.inj h
    simp [Worded, leaves]
  · obtain rfl := Option.some.inj h
    simp [Worded, leaves]
  · cases h

/-- The value of a token has words only. -/
def Token.Worded : Token → Prop
  | .scalar j => j.Worded
  | _ => True

theorem begin?_worded {c : Char} {ts : List Token} {next : Cutting}
    (h : begin? c = some (ts, next)) : ∀ t ∈ ts, t.Worded := by
  unfold begin? at h
  split at h
  case h_12 =>
    split at h
    · cases h
      nofun
    · split at h
      · cases h
        nofun
      · cases h
  all_goals
    cases h
    simp [Token.Worded]

theorem textStep?_worded {taken : List Char} {usable : Bool} {c : Char} {ts : List Token}
    {next : Cutting} (h : textStep? taken usable c = some (ts, next)) : ∀ t ∈ ts, t.Worded := by
  unfold textStep? at h
  split at h
  · cases h
    simp [Token.Worded]
  split at h
  · cases h
    nofun
  split at h
  · cases h
  · cases h
    nofun

theorem cut?_worded {at' next : Cutting} {c : Char} {ts : List Token}
    (h : cut? at' c = some (ts, next)) : ∀ t ∈ ts, t.Worded := by
  have hscalar : ∀ {j : Json}, j.Worded →
      ((begin? c).bind fun p => some (Token.scalar j :: p.1, p.2)) = some (ts, next) →
        ∀ t ∈ ts, t.Worded := by
    intro j hj h
    obtain ⟨p, hp, h⟩ := Option.bind_eq_some_iff.1 h
    cases h
    exact List.forall_mem_cons.2 ⟨hj, begin?_worded hp⟩
  cases at' with
  | between => exact begin?_worded h
  | number taken =>
    rw [cut?] at h
    split at h
    · cases h
      exact List.forall_mem_nil _
    · obtain ⟨j, hj, h⟩ := Option.bind_eq_some_iff.1 h
      exact hscalar (numberOfChars?_worded hj) h
  | word taken =>
    rw [cut?] at h
    split at h
    · cases h
      exact List.forall_mem_nil _
    · obtain ⟨j, hj, h⟩ := Option.bind_eq_some_iff.1 h
      exact hscalar (wordOfChars?_worded hj) h
  | inText => exact textStep?_worded h
  | escape =>
    rw [cut?] at h
    split at h
    · cases h
      exact List.forall_mem_nil _
    · obtain ⟨_, -, h⟩ := Option.map_eq_some_iff.1 h
      cases h
      exact List.forall_mem_nil _
  | code taken usable digits high =>
    obtain ⟨_, -, h⟩ := Option.bind_eq_some_iff.1 h
    split at h
    · obtain ⟨_, -, h⟩ := Option.bind_eq_some_iff.1 h
      cases h
      exact List.forall_mem_nil _
    · cases h
      exact List.forall_mem_nil _
  | afterHigh =>
    rw [cut?] at h
    split at h
    · cases h
      exact List.forall_mem_nil _
    · exact textStep?_worded h
  | lowEscape =>
    rw [cut?] at h
    split at h
    · cases h
      exact List.forall_mem_nil _
    · obtain ⟨_, -, h⟩ := Option.map_eq_some_iff.1 h
      cases h
      exact List.forall_mem_nil _

theorem finish?_worded {at' : Cutting} {ts : List Token} (h : at'.finish? = some ts) :
    ∀ t ∈ ts, t.Worded := by
  cases at' with
  | between =>
    cases h
    nofun
  | number taken =>
    obtain ⟨j, hj, rfl⟩ := Option.map_eq_some_iff.1 h
    exact List.forall_mem_singleton.2 (numberOfChars?_worded hj)
  | word taken =>
    obtain ⟨j, hj, rfl⟩ := Option.map_eq_some_iff.1 h
    exact List.forall_mem_singleton.2 (wordOfChars?_worded hj)
  | inText | escape | code | afterHigh | lowEscape => cases h

theorem tokensFrom?_worded {at' : Cutting} {cs : List Char} {ts : List Token}
    (h : tokensFrom? at' cs = some ts) : ∀ t ∈ ts, t.Worded := by
  induction cs generalizing at' ts with
  | nil => exact finish?_worded h
  | cons c cs ih =>
    obtain ⟨⟨us, next⟩, hcut, h⟩ := Option.bind_eq_some_iff.1 h
    obtain ⟨vs, hrest, h⟩ := Option.bind_eq_some_iff.1 h
    obtain rfl := Option.some.inj h
    exact List.forall_mem_append.2 ⟨cut?_worded hcut, ih hrest⟩

/-- The values in an open list or object have words only. -/
def Frame.Worded : Frame → Prop
  | .list items => ∀ j ∈ items, j.Worded
  | .member members _ => ∀ ms ∈ members, ∀ m ∈ ms, m.2.Worded

/-- Everything that has been put together so far has words only. -/
structure Assembly.Worded (a : Assembly) : Prop where
  frames : ∀ f ∈ a.frames, f.Worded
  result : ∀ j ∈ a.result, j.Worded

theorem close_worded {j : Json} (hj : j.Worded) (outer : List Frame) : (close outer j).Worded := by
  rw [close]
  split
  · exact hj
  · simp [Worded, leaves]

theorem objectOf_worded {members : Option (List (String × Json))}
    (h : ∀ ms ∈ members, ∀ m ∈ ms, m.2.Worded) : (objectOf members).Worded := by
  cases members with
  | none => simp [objectOf, Worded, leaves]
  | some ms => exact worded_object fun m hm => h ms rfl m (List.mem_reverse.1 hm)

namespace Assembly

variable {j : Json} {frames : List Frame}

theorem accept_worded (h : ∀ f ∈ frames, f.Worded) (hj : j.Worded) :
    (accept frames j).Worded := by
  cases frames with
  | nil => exact ⟨nofun, fun k hk => Option.some.inj hk ▸ hj⟩
  | cons frame outer =>
    obtain ⟨hframe, houter⟩ := List.forall_mem_cons.1 h
    cases frame with
    | list items =>
      have hitems : Frame.Worded (.list (j :: items)) := List.forall_mem_cons.2 ⟨hj, hframe⟩
      exact ⟨List.forall_mem_cons.2 ⟨hitems, houter⟩, nofun⟩
    | member members key =>
      refine ⟨List.forall_mem_cons.2 ⟨fun ms hms => ?_, houter⟩, nofun⟩
      obtain ⟨ms, hmembers, hms⟩ := Option.bind_eq_some_iff.1 hms
      obtain ⟨k, -, rfl⟩ := Option.map_eq_some_iff.1 hms
      exact List.forall_mem_cons.2 ⟨hj, hframe ms hmembers⟩

/-- As long as there is no result, the open lists and objects are all that there is. -/
theorem worded_unread {expecting : Expecting} (h : ∀ f ∈ frames, f.Worded) :
    Worded ⟨frames, expecting, none⟩ :=
  ⟨h, nofun⟩

theorem Worded.step {a a' : Assembly} {t : Token} (h : a.Worded) (ht : t.Worded)
    (hstep : a.step? t = some a') : a'.Worded := by
  obtain ⟨frames, expecting, result⟩ := a
  have hframes := h.frames
  simp only [step?] at hstep
  split at hstep
  case h_18 => cases hstep
  all_goals obtain rfl := Option.some.inj hstep
  case h_1 | h_2 =>
    exact worded_unread (List.forall_mem_cons.2 ⟨List.forall_mem_nil _, hframes⟩)
  case h_3 | h_4 =>
    refine worded_unread (List.forall_mem_cons.2 ⟨fun ms hms => ?_, hframes⟩)
    obtain rfl := Option.some.inj hms
    exact List.forall_mem_nil _
  case h_5 | h_6 => exact accept_worded hframes ht
  case h_7 | h_8 =>
    apply accept_worded hframes
    split <;> simp [Json.Worded, leaves]
  case h_13 | h_14 | h_15 => exact worded_unread hframes
  all_goals obtain ⟨hframe, houter⟩ := List.forall_mem_cons.1 hframes
  case h_9 => exact accept_worded houter (close_worded (worded_list (List.forall_mem_nil _)) _)
  case h_10 => exact accept_worded houter (close_worded (worded_object (List.forall_mem_nil _)) _)
  case h_11 | h_12 => exact worded_unread (List.forall_mem_cons.2 ⟨hframe, houter⟩)
  case h_16 =>
    apply accept_worded houter
    exact close_worded (worded_list fun j hj => hframe j (List.mem_reverse.1 hj)) _
  case h_17 => exact accept_worded houter (close_worded (objectOf_worded hframe) _)

end Assembly

/-- Every integer that is read is a word of 64 bits. -/
theorem read?_worded {s : String} {j : Json} (h : read? s = some j) : j.Worded := by
  obtain ⟨ts, hts, h⟩ := Option.bind_eq_some_iff.1 h
  obtain ⟨a, ha, hresult⟩ := Option.bind_eq_some_iff.1 h
  have hall := tokensFrom?_worded hts
  suffices ∀ b : Assembly, b.Worded → ts.foldlM Assembly.step? b = some a → a.Worded from
    (this .start ⟨nofun, nofun⟩ ha).result j hresult
  clear ha hts h
  induction ts with
  | nil =>
    intro b hb ha
    obtain rfl := Option.some.inj ha
    exact hb
  | cons t ts ih =>
    obtain ⟨ht, hall⟩ := List.forall_mem_cons.1 hall
    intro b hb ha
    rw [List.foldlM_cons] at ha
    obtain ⟨c, hc, ha⟩ := Option.bind_eq_some_iff.1 ha
    exact ih hall c (hb.step ht hc) ha

end Stagewise.Json
