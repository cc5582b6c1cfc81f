import Mathlib.Data.Finset.Card
import Stagewise.Proofs.Arena.Locks
/-!
# One lock for each dag

However often the mutex of a dag is forgotten and another one made, at most one is inside at a time.
None can be made while another is still in use: references to a mutex are only handed out by those
who have the map, so once someone who has it sees that only the map refers to a mutex, that stays
so until it is removed.
-/

namespace Stagewise

namespace Locks

variable {κ π : Type}

/-- The references to a mutex are those of its owners and that of the map. -/
def Counts (l : Locks κ π) (a : Nat) : Prop :=
  ∃ owners : Finset (κ × π), (∀ x, x ∈ owners ↔ (l.stands x).reference = some a) ∧
    (l.mutexes a).references = owners.card + 1

/-- What holds at every moment. A mutex is in the map as long as someone refers to it, and its
references are counted. Whoever holds it stands inside, and who is about to remove it has seen that
nobody refers to it. -/
structure Sound (l : Locks κ π) : Prop where
  named : ∀ k a, l.entries k = some a → a < l.next
  apart : ∀ k k' a, l.entries k = some a → l.entries k' = some a → k = k'
  mapped : ∀ x a, (l.stands x).reference = some a → l.entries x.1 = some a
  counted : ∀ k a, l.entries k = some a → l.Counts a
  held : ∀ k a x, l.entries k = some a →
    ((l.mutexes a).holder = some x ↔ l.stands x = .inside a)
  map : ∀ x, (l.stands x).hasMap = true ↔ l.map = some x
  removing : ∀ x, l.stands x = .removing →
    ∃ a, l.entries x.1 = some a ∧ (l.mutexes a).references = 1

variable {l l' : Locks κ π} {x y : κ × π} {a b : Nat} {s : Stand}

theorem Sound.entry_of_inside (h : l.Sound) (hx : l.stands x = .inside a) :
    l.entries x.1 = some a :=
  h.mapped x a (by rw [hx]; rfl)

/-- At most one is inside the mutex of a dag. -/
theorem Sound.exclusive (h : l.Sound) (hx : l.stands x = .inside a) (hy : l.stands y = .inside b)
    (same : x.1 = y.1) : x = y := by
  have hentry := h.entry_of_inside hx
  have hsame := h.entry_of_inside hy
  rw [← same, hentry] at hsame
  obtain rfl := Option.some.inj hsame
  have hholder := (h.held _ a x hentry).mpr hx
  rw [(h.held _ a y hentry).mpr hy] at hholder
  exact (Option.some.inj hholder).symm

/-- Only one at a time has the map. -/
theorem Sound.map_unique (h : l.Sound) (hx : (l.stands x).hasMap = true)
    (hy : (l.stands y).hasMap = true) : y = x := by
  have hmap := (h.map x).mp hx
  rw [(h.map y).mp hy] at hmap
  exact Option.some.inj hmap

/-- When there is one reference to a mutex, it is that of the map. -/
theorem Sound.unreferenced (h : l.Sound) {k : κ} (entry : l.entries k = some a)
    (last : (l.mutexes a).references = 1) (x : κ × π) : (l.stands x).reference ≠ some a := by
  obtain ⟨owners, howners, hcount⟩ := h.counted k a entry
  have hnone : owners = ∅ := Finset.card_eq_zero.mp (by omega)
  intro hx
  have hmem := (howners x).mpr hx
  rw [hnone] at hmem
  exact Finset.notMem_empty x hmem

/-- To a mutex that has not been made yet, nobody refers. -/
theorem Sound.reference_lt (h : l.Sound) (hx : (l.stands x).reference = some a) : a < l.next :=
  h.named x.1 a (h.mapped x a hx)

theorem sound_empty : (empty : Locks κ π).Sound where
  named := nofun
  apart := nofun
  mapped := nofun
  counted := nofun
  held := nofun
  map := fun _ => ⟨nofun, nofun⟩
  removing := nofun

variable [DecidableEq κ] [DecidableEq π]

/-! ## One comes to another stand -/

theorem Counts.stand (h : l.Counts a) (stands : l'.stands = (l.stand x s).stands)
    (references : (l'.mutexes a).references = (l.mutexes a).references)
    (same : s.reference = some a ↔ (l.stands x).reference = some a) : l'.Counts a := by
  obtain ⟨owners, howners, hcount⟩ := h
  refine ⟨owners, fun y => (howners y).trans ?_, references.trans hcount⟩
  rw [stands]
  exact (stand_iff (P := fun t => t.reference = some a) same y).symm

theorem Counts.taken (h : l.Counts a) (stands : l'.stands = (l.stand x s).stands)
    (before : (l.stands x).reference ≠ some a) (after : s.reference = some a)
    (references : (l'.mutexes a).references = (l.mutexes a).references + 1) : l'.Counts a := by
  obtain ⟨owners, howners, hcount⟩ := h
  have hnew : x ∉ owners := fun hx => before ((howners x).mp hx)
  refine ⟨insert x owners, ?_, ?_⟩
  · rw [stands]
    refine forall_stand (P := fun y t => y ∈ insert x owners ↔ t.reference = some a) ?_ ?_
    · exact iff_of_true (Finset.mem_insert_self x owners) after
    · intro y hy
      rw [Finset.mem_insert, howners y]
      exact or_iff_right hy
  · rw [Finset.card_insert_of_notMem hnew, references, hcount]

theorem Counts.dropped (h : l.Counts a) (stands : l'.stands = (l.stand x s).stands)
    (before : (l.stands x).reference = some a) (after : s.reference ≠ some a)
    (references : (l'.mutexes a).references = (l.mutexes a).references - 1) : l'.Counts a := by
  obtain ⟨owners, howners, hcount⟩ := h
  have hold : x ∈ owners := (howners x).mpr before
  refine ⟨owners.erase x, ?_, ?_⟩
  · rw [stands]
    refine forall_stand (P := fun y t => y ∈ owners.erase x ↔ t.reference = some a) ?_ ?_
    · exact iff_of_false (Finset.notMem_erase x owners) after
    · intro y hy
      rw [Finset.mem_erase, howners y]
      exact and_iff_right hy
  · have hcard := Finset.card_erase_add_one hold
    omega

theorem Sound.mapped_stand (h : l.Sound)
    (here : ∀ a, s.reference = some a → l.entries x.1 = some a) (y : κ × π) (a : Nat) :
    ((l.stand x s).stands y).reference = some a → l.entries y.1 = some a :=
  forall_stand (P := fun y t => t.reference = some a → l.entries y.1 = some a) (here a)
    (fun y _ => h.mapped y a) y

theorem Sound.held_stand (h : l.Sound) {k : κ} (entry : l.entries k = some a)
    (stands : l'.stands = (l.stand x s).stands)
    (holder : (l'.mutexes a).holder = (l.mutexes a).holder)
    (same : s = .inside a ↔ l.stands x = .inside a) :
    (l'.mutexes a).holder = some y ↔ l'.stands y = .inside a := by
  rw [holder, h.held k a y entry, stands]
  exact (stand_iff (P := (· = .inside a)) same y).symm

theorem Sound.map_same (h : l.Sound) (same : s.hasMap = (l.stands x).hasMap) (y : κ × π) :
    ((l.stand x s).stands y).hasMap = true ↔ l.map = some y :=
  (stand_iff (P := (·.hasMap = true)) (by rw [same]) y).trans (h.map y)

theorem Sound.map_taken (h : l.Sound) (free : l.map = none) (has : s.hasMap = true) :
    ∀ y, ((l.stand x s).stands y).hasMap = true ↔ some x = some y := by
  refine forall_stand (P := fun y t => t.hasMap = true ↔ some x = some y) (iff_of_true has rfl) ?_
  intro y hy
  rw [h.map y, free]
  exact iff_of_false nofun fun hxy => hy (Option.some.inj hxy).symm

theorem Sound.map_given (h : l.Sound) (had : (l.stands x).hasMap = true)
    (hasNot : s.hasMap = false) :
    ∀ y, ((l.stand x s).stands y).hasMap = true ↔ none = some y := by
  refine forall_stand (P := fun y t => t.hasMap = true ↔ none = some y) ?_ ?_
  · rw [hasNot]
    exact iff_of_false nofun nofun
  · intro y hy
    exact iff_of_false (fun hhas => hy (h.map_unique had hhas)) nofun

theorem Sound.removing_stand (h : l.Sound)
    (here : s = .removing → ∃ a, l.entries x.1 = some a ∧ (l.mutexes a).references = 1)
    (y : κ × π) : (l.stand x s).stands y = .removing →
      ∃ a, l.entries y.1 = some a ∧ (l.mutexes a).references = 1 :=
  forall_stand
    (P := fun y t => t = .removing → ∃ a, l.entries y.1 = some a ∧ (l.mutexes a).references = 1)
    here (fun y _ => h.removing y) y

/-- Nobody removes a mutex while another has the map. -/
theorem Sound.no_removing (h : l.Sound) (had : (l.stands x).hasMap = true) (hs : s ≠ .removing) :
    ∀ y, (l.stand x s).stands y ≠ .removing := by
  refine forall_stand (P := fun _ t => t ≠ .removing) hs ?_
  intro y hyx hy
  exact hyx (h.map_unique had (by rw [hy]; rfl))

/-! ## Steps that leave the mutexes alone -/

/-- A step that takes or drops no reference and neither enters nor leaves a mutex. -/
theorem Sound.stand (h : l.Sound) {map : Option (κ × π)}
    (reference : s.reference = (l.stands x).reference)
    (inside : ∀ a, s = .inside a ↔ l.stands x = .inside a)
    (hasMap : ∀ y, ((l.stand x s).stands y).hasMap = true ↔ map = some y)
    (removing : s = .removing → ∃ a, l.entries x.1 = some a ∧ (l.mutexes a).references = 1) :
    { l.stand x s with map := map }.Sound where
  named := h.named
  apart := h.apart
  mapped := h.mapped_stand fun a hs => h.mapped x a (reference ▸ hs)
  counted := fun k a entry => (h.counted k a entry).stand rfl rfl (by rw [reference])
  held := fun k a y entry => h.held_stand entry rfl rfl (inside a)
  map := hasMap
  removing := h.removing_stand removing

/-! ## Steps that change a mutex -/

theorem Sound.find (h : l.Sound) (fetching : l.stands x = .fetching)
    (entry : l.entries x.1 = some a) :
    ((l.refer a ((l.mutexes a).references + 1)).stand x (.handing a)).Sound where
  named := h.named
  apart := h.apart
  mapped := h.mapped_stand fun b hb => Option.some.inj hb ▸ entry
  counted := by
    intro k b hb
    have hnone : (l.stands x).reference = none := by rw [fetching]; rfl
    by_cases hba : b = a
    · subst hba
      refine (h.counted k b hb).taken (x := x) rfl ?_ rfl (refer_references _)
      simp [hnone]
    · refine (h.counted k b hb).stand (x := x) rfl ?_ ?_
      · exact congrArg Mutex.references (refer_mutexes_of_ne hba _)
      · exact iff_of_false (by simp [Stand.reference, Ne.symm hba]) (by simp [hnone])
  held := by
    intro k b y hb
    exact h.held_stand hb rfl (refer_holder _) (by simp [fetching])
  map := h.map_same (by rw [fetching]; rfl)
  removing := fun y hy => absurd hy (h.no_removing (by rw [fetching]; rfl) (by simp) y)

theorem Sound.make (h : l.Sound) (fetching : l.stands x = .fetching)
    (missing : l.entries x.1 = none) : ((l.make x.1).stand x (.handing l.next)).Sound where
  named := by
    intro k a hk
    rcases make_entries_cases hk with ⟨-, rfl⟩ | ⟨-, hk⟩
    · exact Nat.lt_succ_self _
    · exact Nat.lt_succ_of_lt (h.named k a hk)
  apart := by
    intro k k' a hk hk'
    rcases make_entries_cases hk with ⟨rfl, rfl⟩ | ⟨-, hk⟩
    · rcases make_entries_cases hk' with ⟨rfl, -⟩ | ⟨-, hk'⟩
      · rfl
      · exact absurd (h.named k' _ hk') (Nat.lt_irrefl _)
    · rcases make_entries_cases hk' with ⟨-, rfl⟩ | ⟨-, hk'⟩
      · exact absurd (h.named k _ hk) (Nat.lt_irrefl _)
      · exact h.apart k k' a hk hk'
  mapped := by
    intro y a
    refine forall_stand
      (P := fun y t => t.reference = some a → (l.make x.1).entries y.1 = some a) ?_ ?_ y
    · intro hx
      obtain rfl := Option.some.inj hx
      exact Function.update_self ..
    · intro y _ hy
      have hentry := h.mapped y a hy
      have hother : y.1 ≠ x.1 := by
        intro hsame
        rw [hsame, missing] at hentry
        cases hentry
      exact (Function.update_of_ne hother ..).trans hentry
  counted := by
    intro k a hk
    rcases make_entries_cases hk with ⟨rfl, rfl⟩ | ⟨-, hk⟩
    · refine ⟨{x}, ?_, congrArg Mutex.references (make_mutexes_next x.1)⟩
      refine forall_stand (P := fun y t => y ∈ ({x} : Finset _) ↔ t.reference = some l.next) ?_ ?_
      · exact iff_of_true (Finset.mem_singleton_self x) rfl
      · intro y hyx
        rw [Finset.mem_singleton]
        exact iff_of_false hyx fun hy => Nat.lt_irrefl _ (h.reference_lt hy)
    · have hne : a ≠ l.next := Nat.ne_of_lt (h.named k a hk)
      refine (h.counted k a hk).stand (x := x) rfl ?_ ?_
      · exact congrArg Mutex.references (make_mutexes_of_ne hne x.1)
      · simp [fetching, Stand.reference, Ne.symm hne]
  held := by
    intro k a y hk
    rcases make_entries_cases hk with ⟨rfl, rfl⟩ | ⟨-, hk⟩
    · have hfree : ((l.make x.1).mutexes l.next).holder = none :=
        congrArg Mutex.holder (make_mutexes_next x.1)
      refine iff_of_false (fun hholder => ?_) fun hy => ?_
      · cases hfree.symm.trans hholder
      · have hsame := stand_iff (l := l) (x := x) (s := .handing l.next)
          (P := (· = .inside l.next)) (by simp [fetching]) y
        have hbefore := hsame.mp hy
        exact Nat.lt_irrefl _ (h.reference_lt (by rw [hbefore]; rfl))
    · have hne : a ≠ l.next := Nat.ne_of_lt (h.named k a hk)
      have hmutex := make_mutexes_of_ne hne x.1
      exact h.held_stand hk rfl (congrArg Mutex.holder hmutex) (by simp [fetching])
  map := h.map_same (by rw [fetching]; rfl)
  removing := fun y hy => absurd hy (h.no_removing (by rw [fetching]; rfl) (by simp) y)

theorem Sound.drop (h : l.Sound) (spent : l.stands x = .spent a) :
    ((l.refer a ((l.mutexes a).references - 1)).stand x .away).Sound where
  named := h.named
  apart := h.apart
  mapped := h.mapped_stand nofun
  counted := by
    intro k b hb
    have hreference : (l.stands x).reference = some a := by rw [spent]; rfl
    by_cases hba : b = a
    · subst hba
      exact (h.counted k b hb).dropped rfl hreference nofun (refer_references _)
    · refine (h.counted k b hb).stand (x := x) rfl ?_ ?_
      · exact congrArg Mutex.references (refer_mutexes_of_ne hba _)
      · exact iff_of_false nofun (by simp [hreference, Ne.symm hba])
  held := by
    intro k b y hb
    exact h.held_stand hb rfl (refer_holder _) (by simp [spent])
  map := h.map_same (by rw [spent]; rfl)
  removing := by
    intro y hy
    obtain ⟨b, hb, hlast⟩ := h.removing_stand (s := .away) nofun y hy
    refine ⟨b, hb, ?_⟩
    -- The mutex that is about to be removed is another, because nobody refers to that one.
    have hba : b ≠ a := by
      rintro rfl
      exact h.unreferenced hb hlast x (by rw [spent]; rfl)
    exact (congrArg Mutex.references (refer_mutexes_of_ne hba _)).trans hlast

theorem Sound.remove (h : l.Sound) (removing : l.stands x = .removing)
    (entry : l.entries x.1 = some a) :
    (((l.refer a ((l.mutexes a).references - 1)).forget x.1).stand x .closing).Sound := by
  obtain ⟨a', hentry, hlast⟩ := h.removing x removing
  obtain rfl := Option.some.inj (entry.symm.trans hentry)
  have hfree := h.unreferenced entry hlast
  constructor
  case named => exact fun k b hk => h.named k b (forget_entries_iff.mp hk).2
  case apart =>
    exact fun k k' b hk hk' =>
      h.apart k k' b (forget_entries_iff.mp hk).2 (forget_entries_iff.mp hk').2
  case mapped =>
    intro y b
    refine forall_stand (P := fun y t => t.reference = some b → (l.forget x.1).entries y.1 = some b)
      ?_ ?_ y
    · exact nofun
    · intro y _ hy
      have hb := h.mapped y b hy
      -- To the mutex of this dag, which is removed, nobody refers.
      refine forget_entries_iff.mpr ⟨fun hsame => ?_, hb⟩
      rw [hsame, entry] at hb
      obtain rfl := Option.some.inj hb
      exact hfree y hy
  case counted =>
    intro k b hk
    obtain ⟨hother, hb⟩ := forget_entries_iff.mp hk
    have hba : b ≠ a := by
      rintro rfl
      exact hother (h.apart k x.1 b hb entry)
    refine (h.counted k b hb).stand (x := x) rfl ?_ ?_
    · exact congrArg Mutex.references (refer_mutexes_of_ne hba _)
    · simp [removing, Stand.reference]
  case held =>
    intro k b y hk
    have hb := (forget_entries_iff.mp hk).2
    exact h.held_stand hb rfl (refer_holder _) (by simp [removing])
  case map => exact h.map_same (by rw [removing]; rfl)
  case removing =>
    exact fun y hy => absurd hy (h.no_removing (by rw [removing]; rfl) (by simp) y)

theorem Sound.enter (h : l.Sound) (keeping : l.stands x = .keeping a)
    (free : (l.mutexes a).holder = none) : ((l.hold a (some x)).stand x (.inside a)).Sound where
  named := h.named
  apart := h.apart
  mapped := h.mapped_stand fun b hb => h.mapped x b (by rw [keeping]; exact hb)
  counted := by
    intro k b hb
    exact (h.counted k b hb).stand (x := x) rfl (hold_references _) (by rw [keeping]; rfl)
  held := by
    intro k b y hb
    by_cases hba : b = a
    · subst hba
      refine (iff_of_eq (congrArg (· = some y) (hold_holder _))).trans ?_
      refine forall_stand (P := fun y t => some x = some y ↔ t = .inside b)
        (iff_of_true rfl rfl) ?_ y
      intro y hyx
      refine iff_of_false (fun hxy => hyx (Option.some.inj hxy).symm) fun hy => ?_
      cases free.symm.trans ((h.held k b y hb).mpr hy)
    · have hmutex := hold_mutexes_of_ne (l := l) hba (some x)
      refine h.held_stand hb rfl (congrArg Mutex.holder hmutex) ?_
      simp [keeping, Ne.symm hba]
  map := h.map_same (by rw [keeping]; rfl)
  removing := by
    intro y hy
    obtain ⟨b, hb, hlast⟩ := h.removing_stand (s := .inside a) nofun y hy
    exact ⟨b, hb, (hold_references _).trans hlast⟩

/-- A mutex is given back, but the reference to it kept for now. -/
theorem Sound.leave (h : l.Sound) (inside : l.stands x = .inside a)
    (reference : s.reference = some a) (outside : ∀ b, s ≠ .inside b) (hasMap : s.hasMap = false)
    (notRemoving : s ≠ .removing) : ((l.hold a none).stand x s).Sound where
  named := h.named
  apart := h.apart
  mapped := h.mapped_stand fun b hb => h.mapped x b (by rw [inside, ← hb, reference]; rfl)
  counted := by
    intro k b hb
    refine (h.counted k b hb).stand (x := x) rfl (hold_references _) ?_
    rw [inside, reference]
    rfl
  held := by
    intro k b y hb
    by_cases hba : b = a
    · subst hba
      refine (iff_of_eq (congrArg (· = some y) (hold_holder _))).trans ?_
      refine forall_stand (P := fun y t => none = some y ↔ t = .inside b)
        (iff_of_false nofun (outside b)) ?_ y
      -- Nobody else was inside this mutex.
      intro y hyx
      refine iff_of_false nofun fun hy => ?_
      have hsame := h.apart y.1 x.1 b (h.entry_of_inside hy) (h.entry_of_inside inside)
      exact hyx (h.exclusive hy inside hsame)
    · have hmutex := hold_mutexes_of_ne (l := l) hba none
      refine h.held_stand hb rfl (congrArg Mutex.holder hmutex) ?_
      exact iff_of_false (outside b) (by simp [inside, Ne.symm hba])
  map := h.map_same (by rw [hasMap, inside]; rfl)
  removing := by
    intro y hy
    obtain ⟨b, hb, hlast⟩ := h.removing_stand (fun hs => absurd hs notRemoving) y hy
    exact ⟨b, hb, (hold_references _).trans hlast⟩

/-! ## Whatever is done -/

theorem Sound.handles (h : l.Sound) (handles : Handles x l l') : l'.Sound := by
  cases handles with
  | ask away =>
    have hmap := h.map_same (x := x) (s := .asking) (by rw [away]; rfl)
    exact h.stand (by rw [away]; rfl) (by simp [away]) hmap nofun
  | forgo asking =>
    have hmap := h.map_same (x := x) (s := .away) (by rw [asking]; rfl)
    exact h.stand (by rw [asking]; rfl) (by simp [asking]) hmap nofun
  | take asking free =>
    have hmap := h.map_taken (x := x) (s := .fetching) free rfl
    exact h.stand (by rw [asking]; rfl) (by simp [asking]) hmap nofun
  | find fetching entry => exact h.find fetching entry
  | make fetching missing => exact h.make fetching missing
  | @hand a handing =>
    have hmap := h.map_given (s := .keeping a) (by rw [handing]; rfl) rfl
    exact h.stand (by rw [handing]; rfl) (by simp [handing]) hmap nofun
  | drop spent => exact h.drop spent
  | prune away =>
    have hmap := h.map_same (x := x) (s := .pruning) (by rw [away]; rfl)
    exact h.stand (by rw [away]; rfl) (by simp [away]) hmap nofun
  | relent pruning =>
    have hmap := h.map_same (x := x) (s := .away) (by rw [pruning]; rfl)
    exact h.stand (by rw [pruning]; rfl) (by simp [pruning]) hmap nofun
  | look pruning free =>
    have hmap := h.map_taken (x := x) (s := .looking) free rfl
    exact h.stand (by rw [pruning]; rfl) (by simp [pruning]) hmap nofun
  | @condemn a looking entry last =>
    have hmap := h.map_same (x := x) (s := .removing) (by rw [looking]; rfl)
    exact h.stand (by rw [looking]; rfl) (by simp [looking]) hmap fun _ => ⟨a, entry, last⟩
  | spare looking needed =>
    have hmap := h.map_same (x := x) (s := .closing) (by rw [looking]; rfl)
    exact h.stand (by rw [looking]; rfl) (by simp [looking]) hmap nofun
  | remove removing entry => exact h.remove removing entry
  | close closing =>
    have hmap := h.map_given (s := .away) (by rw [closing]; rfl) rfl
    exact h.stand (by rw [closing]; rfl) (by simp [closing]) hmap nofun

theorem Sound.grips (h : l.Sound) {before after : Grip} (grips : Grips x l before after l') :
    l'.Sound := by
  cases grips with
  | enter without keeping free => exact h.enter keeping free
  | stay => exact h
  | pause inside => exact h.leave inside rfl nofun rfl nofun
  | leave inside => exact h.leave inside rfl nofun rfl nofun
  | keep => exact h
  | @discard a keeping =>
    have hmap := h.map_same (x := x) (s := .spent a) (by rw [keeping]; rfl)
    exact h.stand (by rw [keeping]; rfl) (by simp [keeping]) hmap nofun
  | rest => exact h

theorem Sound.step (h : l.Sound) (step : Step x l l') : l'.Sound := by
  rcases step with hhandles | ⟨before, after, hgrips⟩
  · exact h.handles hhandles
  · exact h.grips hgrips

theorem Reached.sound (h : l.Reached) : l.Sound := by
  induction h with
  | empty => exact sound_empty
  | step _ step ih => exact ih.step step

/-- One comes to hold a mutex only when nobody holds it. -/
theorem Grips.free (h : Grips x l before .mutex l') (without : before ≠ .mutex)
    (hsound : l.Sound) : ∃ a, l.entries x.1 = some a ∧ (l.mutexes a).holder = none := by
  cases h with
  | @enter _ a _ keeping free => exact ⟨a, hsound.mapped x a (by rw [keeping]; rfl), free⟩
  | stay => exact absurd rfl without

end Locks

end Stagewise
