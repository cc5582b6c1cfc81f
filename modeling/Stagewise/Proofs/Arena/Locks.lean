import Mathlib.Logic.Function.Basic
/-!
# Locks that come and go

Every dag that is worked on has a mutex of its own, which is made when it is first asked for and
forgotten when nobody refers to it any more. The mutexes are found in a map that has a lock of its
own. Whoever has that lock may take a reference to a mutex; one is given up without it. A mutex to
which only the map refers is forgotten by someone who has seen that while having the lock of the
map.
-/

namespace Stagewise

/-- A mutex that is shared: how many references there are to it, that of the map included, and who
holds it. -/
structure Mutex (τ : Type) where
  references : Nat
  holder : Option τ

/-- How one who works on a dag stands to its mutex. -/
inductive Stand where
  | away
  /-- Waits for the map to get a reference. -/
  | asking
  /-- Has the map. -/
  | fetching
  /-- Has a reference, and has still to give the map back. -/
  | handing (address : Nat)
  /-- Has a reference, and may be waiting for the mutex. -/
  | keeping (address : Nat)
  /-- Holds the mutex. -/
  | inside (address : Nat)
  /-- Is about to drop a reference. -/
  | spent (address : Nat)
  /-- Waits for the map to forget the mutex. -/
  | pruning
  /-- Has the map. -/
  | looking
  /-- Has seen that only the map refers to the mutex. -/
  | removing
  /-- Has still to give the map back. -/
  | closing
  deriving DecidableEq

namespace Stand

/-- The mutex to which one has a reference. -/
def reference : Stand → Option Nat
  | .handing a | .keeping a | .inside a | .spent a => some a
  | _ => none

def hasMap : Stand → Bool
  | .fetching | .handing _ | .looking | .removing | .closing => true
  | _ => false

end Stand

/-- The mutexes of all dags, and everyone who works on a dag: `κ` are the dags, and `π` those who
may work on them. -/
structure Locks (κ π : Type) where
  entries : κ → Option Nat
  mutexes : Nat → Mutex (κ × π)
  next : Nat
  map : Option (κ × π)
  stands : κ × π → Stand

/-- What someone has in hand. -/
inductive Grip where
  | nothing | reference | mutex
  deriving DecidableEq

namespace Locks

variable {κ π : Type}

/-- There are no mutexes yet. -/
def empty : Locks κ π := ⟨fun _ => none, fun _ => ⟨0, none⟩, 0, none, fun _ => .away⟩

def refer (l : Locks κ π) (a references : Nat) : Locks κ π :=
  { l with mutexes := Function.update l.mutexes a { l.mutexes a with references } }

def hold (l : Locks κ π) (a : Nat) (holder : Option (κ × π)) : Locks κ π :=
  { l with mutexes := Function.update l.mutexes a { l.mutexes a with holder } }

variable {l l' : Locks κ π} {x y : κ × π} {a b : Nat} {s : Stand} {before after : Grip}

/-! ## References and holders -/

@[simp] theorem refer_references (n : Nat) : ((l.refer a n).mutexes a).references = n := by
  simp [refer]

theorem refer_mutexes_of_ne (h : b ≠ a) (n : Nat) : (l.refer a n).mutexes b = l.mutexes b :=
  Function.update_of_ne h ..

@[simp] theorem refer_holder (n : Nat) :
    ((l.refer a n).mutexes b).holder = (l.mutexes b).holder := by
  by_cases h : b = a
  · simp [refer, h]
  · rw [refer_mutexes_of_ne h]

@[simp] theorem hold_holder (holder : Option (κ × π)) :
    ((l.hold a holder).mutexes a).holder = holder := by
  simp [hold]

theorem hold_mutexes_of_ne (h : b ≠ a) (holder : Option (κ × π)) :
    (l.hold a holder).mutexes b = l.mutexes b :=
  Function.update_of_ne h ..

@[simp] theorem hold_references (holder : Option (κ × π)) :
    ((l.hold a holder).mutexes b).references = (l.mutexes b).references := by
  by_cases h : b = a
  · simp [hold, h]
  · rw [hold_mutexes_of_ne h]

/-! ## Entries of the map -/

variable [DecidableEq κ]

/-- Makes a mutex for a dag, to which the map and one other refer. -/
def make (l : Locks κ π) (k : κ) : Locks κ π :=
  { l with
    entries := Function.update l.entries k (some l.next)
    mutexes := Function.update l.mutexes l.next ⟨2, none⟩
    next := l.next + 1 }

def forget (l : Locks κ π) (k : κ) : Locks κ π :=
  { l with entries := Function.update l.entries k none }

theorem make_entries_cases {k k' : κ} (h : (l.make k).entries k' = some a) :
    (k' = k ∧ a = l.next) ∨ (k' ≠ k ∧ l.entries k' = some a) := by
  by_cases hk : k' = k
  · subst hk
    have hself : (l.make k').entries k' = some l.next := Function.update_self ..
    exact .inl ⟨rfl, (Option.some.inj (hself.symm.trans h)).symm⟩
  · have hother : (l.make k).entries k' = l.entries k' := Function.update_of_ne hk ..
    exact .inr ⟨hk, hother.symm.trans h⟩

@[simp] theorem make_mutexes_next (k : κ) : (l.make k).mutexes l.next = ⟨2, none⟩ :=
  Function.update_self ..

theorem make_mutexes_of_ne (h : a ≠ l.next) (k : κ) : (l.make k).mutexes a = l.mutexes a :=
  Function.update_of_ne h ..

theorem forget_entries_iff {k k' : κ} :
    (l.forget k).entries k' = some a ↔ k' ≠ k ∧ l.entries k' = some a := by
  by_cases hk : k' = k
  · subst hk
    have hself : (l.forget k').entries k' = none := Function.update_self ..
    simp [hself]
  · have hother : (l.forget k).entries k' = l.entries k' := Function.update_of_ne hk ..
    simp [hother, hk]

/-! ## What one may do -/

variable [DecidableEq π]

def stand (l : Locks κ π) (x : κ × π) (stand : Stand) : Locks κ π :=
  { l with stands := Function.update l.stands x stand }

/-- What one does to come by a reference, to drop one, and to forget a mutex. -/
inductive Handles (x : κ × π) (l : Locks κ π) : Locks κ π → Prop where
  | ask (away : l.stands x = .away) : Handles x l (l.stand x .asking)
  | forgo (asking : l.stands x = .asking) : Handles x l (l.stand x .away)
  | take (asking : l.stands x = .asking) (free : l.map = none) :
      Handles x l { l.stand x .fetching with map := some x }
  | find {a : Nat} (fetching : l.stands x = .fetching) (entry : l.entries x.1 = some a) :
      Handles x l ((l.refer a ((l.mutexes a).references + 1)).stand x (.handing a))
  | make (fetching : l.stands x = .fetching) (missing : l.entries x.1 = none) :
      Handles x l ((l.make x.1).stand x (.handing l.next))
  | hand {a : Nat} (handing : l.stands x = .handing a) :
      Handles x l { l.stand x (.keeping a) with map := none }
  | drop {a : Nat} (spent : l.stands x = .spent a) :
      Handles x l ((l.refer a ((l.mutexes a).references - 1)).stand x .away)
  | prune (away : l.stands x = .away) : Handles x l (l.stand x .pruning)
  | relent (pruning : l.stands x = .pruning) : Handles x l (l.stand x .away)
  | look (pruning : l.stands x = .pruning) (free : l.map = none) :
      Handles x l { l.stand x .looking with map := some x }
  | condemn {a : Nat} (looking : l.stands x = .looking) (entry : l.entries x.1 = some a)
      (last : (l.mutexes a).references = 1) : Handles x l (l.stand x .removing)
  | spare (looking : l.stands x = .looking)
      (needed : ∀ a, l.entries x.1 = some a → (l.mutexes a).references ≠ 1) :
      Handles x l (l.stand x .closing)
  | remove {a : Nat} (removing : l.stands x = .removing) (entry : l.entries x.1 = some a) :
      Handles x l (((l.refer a ((l.mutexes a).references - 1)).forget x.1).stand x .closing)
  | close (closing : l.stands x = .closing) :
      Handles x l { l.stand x .away with map := none }

/-- What one does with a reference: how much one has in hand before and after. -/
inductive Grips (x : κ × π) (l : Locks κ π) : Grip → Grip → Locks κ π → Prop where
  | enter {grip : Grip} {a : Nat} (without : grip ≠ .mutex) (keeping : l.stands x = .keeping a)
      (free : (l.mutexes a).holder = none) :
      Grips x l grip .mutex ((l.hold a (some x)).stand x (.inside a))
  | stay : Grips x l .mutex .mutex l
  | pause {a : Nat} (inside : l.stands x = .inside a) :
      Grips x l .mutex .reference ((l.hold a none).stand x (.keeping a))
  | leave {a : Nat} (inside : l.stands x = .inside a) :
      Grips x l .mutex .nothing ((l.hold a none).stand x (.spent a))
  | keep : Grips x l .reference .reference l
  | discard {a : Nat} (keeping : l.stands x = .keeping a) :
      Grips x l .reference .nothing (l.stand x (.spent a))
  | rest (away : l.stands x = .away) : Grips x l .nothing .nothing l

/-- Someone does something. -/
def Step (x : κ × π) (l l' : Locks κ π) : Prop :=
  Handles x l l' ∨ ∃ before after, Grips x l before after l'

/-- What can come of there being no mutexes. -/
inductive Reached : Locks κ π → Prop where
  | empty : Reached empty
  | step {l l' : Locks κ π} {x : κ × π} (reached : Reached l) (step : Step x l l') : Reached l'

@[simp] theorem stand_stands_self : (l.stand x s).stands x = s := Function.update_self ..

theorem stand_stands_of_ne (h : y ≠ x) : (l.stand x s).stands y = l.stands y :=
  Function.update_of_ne h ..

/-- What holds of everyone else, and of the one who comes to another stand there, holds of all. -/
theorem forall_stand {P : κ × π → Stand → Prop} (here : P x s)
    (there : ∀ y, y ≠ x → P y (l.stands y)) (y : κ × π) : P y ((l.stand x s).stands y) :=
  (Function.forall_update_iff l.stands P).mpr ⟨here, there⟩ y

/-- Nothing changes for a property that one has at the new stand just if one had it before. -/
theorem stand_iff {P : Stand → Prop} (same : P s ↔ P (l.stands x)) (y : κ × π) :
    P ((l.stand x s).stands y) ↔ P (l.stands y) :=
  forall_stand (P := fun y t => P t ↔ P (l.stands y)) same (fun _ _ => Iff.rfl) y

/-! ## What is done to others -/

theorem Handles.stands_of_ne (h : Handles x l l') (hy : y ≠ x) : l'.stands y = l.stands y := by
  cases h <;> exact stand_stands_of_ne hy

theorem Grips.stands_of_ne (h : Grips x l before after l') (hy : y ≠ x) :
    l'.stands y = l.stands y := by
  cases h with
  | stay | keep | rest => rfl
  | _ => exact stand_stands_of_ne hy

theorem Step.stands_of_ne (h : Step x l l') (hy : y ≠ x) : l'.stands y = l.stands y := by
  rcases h with hhandles | ⟨before, after, hgrips⟩
  · exact hhandles.stands_of_ne hy
  · exact hgrips.stands_of_ne hy

/-- Who handles references holds no mutex. -/
theorem Handles.outside (h : Handles x l l') :
    l.stands x ≠ .inside a ∧ l'.stands x ≠ .inside a := by
  cases h with
  | ask h | forgo h | take h | find h | make h | hand h | drop h | prune h | relent h | look h
  | condemn h | spare h | remove h | close h => exact ⟨by simp [h], by simp [stand]⟩

/-- Who waits for a mutex, or keeps a reference for later, does not handle it. -/
theorem Handles.not_keeping (h : Handles x l l') : l.stands x ≠ .keeping a := by
  cases h with
  | ask h | forgo h | take h | find h | make h | hand h | drop h | prune h | relent h | look h
  | condemn h | spare h | remove h | close h => simp [h]

theorem Grips.inside_iff (h : Grips x l before after l')
    (hbefore : before = .mutex ↔ ∃ a, l.stands x = .inside a) :
    after = .mutex ↔ ∃ a, l'.stands x = .inside a := by
  cases h with
  | @enter _ a => exact iff_of_true rfl ⟨a, stand_stands_self⟩
  | stay | keep | rest => exact hbefore
  | pause | leave | discard =>
    refine iff_of_false nofun ?_
    rintro ⟨a, ha⟩
    rw [stand_stands_self] at ha
    cases ha

theorem Grips.keeping (h : Grips x l before after l')
    (hbefore : before = .reference → ∃ a, l.stands x = .keeping a) (hafter : after = .reference) :
    ∃ a, l'.stands x = .keeping a := by
  cases h with
  | @pause a => exact ⟨a, stand_stands_self⟩
  | keep => exact hbefore rfl
  | _ => cases hafter

/-- Whoever has nothing in hand any more is out of the lock. -/
theorem Grips.gone (h : Grips x l before .nothing l') : l'.stands x ≠ .inside a := by
  cases h with
  | leave | discard => simp
  | rest away => simp [away]

end Locks

end Stagewise
