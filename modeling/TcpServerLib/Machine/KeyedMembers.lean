import Mathlib.Data.List.Basic

/-! # Members under keys

Members join a list and leave it while a queue of pending changes is worked through. The keys of
the list stay distinct if every change is posted with its key free among the members that the
changes before it are going to leave. A member without a key is one that is gone.
-/

namespace TcpServerLib.Machine

inductive Change (α : Type*) where
  | join (a : α)
  | leave (a : α)
  | other
deriving DecidableEq

section

variable {α κ : Type*}

def Change.joining : Change α → Option α
  | .join a => some a
  | _ => none

/-- Who is about to join. -/
def joiners (changes : List (Change α)) : List α := changes.filterMap Change.joining

def Change.apply [DecidableEq α] (members : List α) : Change α → List α
  | .join a => a :: members
  | .leave a => members.filter (· ≠ a)
  | .other => members

/-- The members once every change has been made. -/
def settled [DecidableEq α] (members : List α) (changes : List (Change α)) : List α :=
  changes.foldl Change.apply members

def Free (key : α → Option κ) (k : κ) (members : List α) : Prop := ∀ a ∈ members, key a ≠ some k

/-- Whoever joins finds its key free. -/
def Enters (key : α → Option κ) (members : List α) (change : Change α) : Prop :=
  ∀ a ∈ change.joining, ∀ k ∈ key a, Free key k members

variable [DecidableEq α]

/-- Every change of a queue is possible when it is its turn. -/
def Admits (key : α → Option κ) : List α → List (Change α) → Prop
  | _, [] => True
  | members, change :: rest => Enters key members change ∧ Admits key (change.apply members) rest

structure KeyedMembers (key : α → Option κ) (members : List α) (changes : List (Change α)) : Prop where
  distinct : ∀ a ∈ members, ∀ b ∈ members, ∀ k, key a = some k → key b = some k → a = b
  admits : Admits key members changes

variable {key key' : α → Option κ} {members fewer : List α} {change : Change α}
  {changes rest : List (Change α)}

theorem apply_subset (change : Change α) (subset : fewer ⊆ members) :
    change.apply fewer ⊆ change.apply members := by
  intro a member
  cases change with
  | join b =>
    rcases List.mem_cons.mp member with rfl | earlier
    · exact List.mem_cons_self
    · exact List.mem_cons_of_mem _ (subset earlier)
  | leave b =>
    obtain ⟨earlier, other⟩ := List.mem_filter.mp member
    exact List.mem_filter.mpr ⟨subset earlier, other⟩
  | other => exact subset member

theorem apply_subset_append (change : Change α) (rest : List (Change α)) :
    change.apply members ++ joiners rest ⊆ members ++ joiners (change :: rest) := by
  intro a member
  cases change with
  | join b =>
    rcases List.mem_append.mp member with inside | later
    · rcases List.mem_cons.mp inside with rfl | earlier
      · exact List.mem_append_right _ List.mem_cons_self
      · exact List.mem_append_left _ earlier
    · exact List.mem_append_right _ (List.mem_cons_of_mem _ later)
  | leave b =>
    rcases List.mem_append.mp member with inside | later
    · exact List.mem_append_left _ (List.mem_filter.mp inside).1
    · exact List.mem_append_right _ later
  | other => exact member

theorem settled_subset (members : List α) (changes : List (Change α)) :
    settled members changes ⊆ members ++ joiners changes := by
  induction changes generalizing members with
  | nil =>
    intro a member
    exact List.mem_append_left _ member
  | cons change rest ih =>
    intro a member
    exact apply_subset_append change rest (ih (change.apply members) member)

omit [DecidableEq α] in
theorem Free.narrow {k : κ} (free : Free key k members) (subset : fewer ⊆ members)
    (keys : ∀ a ∈ fewer, key' a = none ∨ key' a = key a) : Free key' k fewer := by
  intro a member found
  rcases keys a member with gone | same
  · exact absurd (gone.symm.trans found) (by simp)
  · exact free a (subset member) (same.symm.trans found)

theorem Admits.narrow (admits : Admits key members changes) (subset : fewer ⊆ members)
    (keys : ∀ a ∈ fewer ++ joiners changes, key' a = none ∨ key' a = key a) :
    Admits key' fewer changes := by
  induction changes generalizing members fewer with
  | nil => trivial
  | cons change rest ih =>
    obtain ⟨enters, later⟩ := admits
    refine ⟨?_, ih later (apply_subset change subset) fun a member =>
      keys a (apply_subset_append change rest member)⟩
    intro a joins k found
    have joined : a ∈ joiners (change :: rest) := List.mem_filterMap.mpr ⟨change, List.mem_cons_self, joins⟩
    have kept : key a = some k := by
      rcases keys a (List.mem_append_right _ joined) with gone | same
      · exact absurd (gone.symm.trans found) (by simp)
      · exact same.symm.trans found
    exact (enters a joins k kept).narrow subset fun b member => keys b (List.mem_append_left _ member)

theorem KeyedMembers.narrow (keyed : KeyedMembers key members changes) (subset : fewer ⊆ members)
    (keys : ∀ a ∈ fewer ++ joiners changes, key' a = none ∨ key' a = key a) :
    KeyedMembers key' fewer changes where
  distinct a member b member' k found found' := by
    have before {c : α} (member : c ∈ fewer) (found : key' c = some k) : key c = some k := by
      rcases keys c (List.mem_append_left _ member) with gone | same
      · exact absurd (gone.symm.trans found) (by simp)
      · exact same.symm.trans found
    exact keyed.distinct a (subset member) b (subset member') k (before member found) (before member' found')
  admits := keyed.admits.narrow subset keys

theorem KeyedMembers.take (keyed : KeyedMembers key members (change :: changes)) :
    KeyedMembers key (change.apply members) changes where
  distinct a member b member' k found found' := by
    obtain ⟨enters, _⟩ := keyed.admits
    cases change with
    | join c =>
      rcases List.mem_cons.mp member with rfl | earlier
      · rcases List.mem_cons.mp member' with rfl | earlier'
        · rfl
        · exact absurd found' (enters a rfl k found b earlier')
      · rcases List.mem_cons.mp member' with rfl | earlier'
        · exact absurd found (enters b rfl k found' a earlier)
        · exact keyed.distinct a earlier b earlier' k found found'
    | leave c =>
      exact keyed.distinct a (List.mem_filter.mp member).1 b (List.mem_filter.mp member').1 k found found'
    | other => exact keyed.distinct a member b member' k found found'
  admits := keyed.admits.2

theorem Admits.post (admits : Admits key members changes) (enters : Enters key (settled members changes) change) :
    Admits key members (changes ++ [change]) := by
  induction changes generalizing members with
  | nil => exact ⟨enters, trivial⟩
  | cons first rest ih => exact ⟨admits.1, ih admits.2 enters⟩

theorem KeyedMembers.post (keyed : KeyedMembers key members changes)
    (enters : Enters key (settled members changes) change) : KeyedMembers key members (changes ++ [change]) :=
  ⟨keyed.distinct, keyed.admits.post enters⟩

/-- Whoever leaves may do so before everything that is pending. -/
theorem KeyedMembers.leaveFirst (keyed : KeyedMembers key members changes) (a : α) :
    KeyedMembers key members (.leave a :: changes) := by
  refine ⟨keyed.distinct, nofun, keyed.admits.narrow ?_ fun _ _ => .inr rfl⟩
  exact fun _ member => (List.mem_filter.mp member).1

/-- A member may join at once under a key that nobody has or is about to bring. -/
theorem Admits.joinNow {a : α} (admits : Admits key members changes)
    (free : ∀ k ∈ key a, Free key k (joiners changes)) : Admits key (a :: members) changes := by
  induction changes generalizing members with
  | nil => trivial
  | cons change rest ih =>
    obtain ⟨enters, later⟩ := admits
    have others : ∀ k ∈ key a, Free key k (joiners rest) := by
      intro k found b joins
      obtain ⟨change', member, joined⟩ := List.mem_filterMap.mp joins
      exact free k found b (List.mem_filterMap.mpr ⟨change', List.mem_cons_of_mem _ member, joined⟩)
    refine ⟨?_, (ih later others).narrow ?_ fun _ _ => .inr rfl⟩
    · intro b joins k found c member
      rcases List.mem_cons.mp member with rfl | earlier
      · have joined : b ∈ joiners (change :: rest) :=
          List.mem_filterMap.mpr ⟨change, List.mem_cons_self, joins⟩
        exact fun same => free k same b joined found
      · exact enters b joins k found c earlier
    · intro b member
      cases change with
      | join c =>
        rcases List.mem_cons.mp member with rfl | inside
        · exact List.mem_cons_of_mem _ List.mem_cons_self
        · rcases List.mem_cons.mp inside with rfl | earlier
          · exact List.mem_cons_self
          · exact List.mem_cons_of_mem _ (List.mem_cons_of_mem _ earlier)
      | leave c =>
        obtain ⟨inside, other⟩ := List.mem_filter.mp member
        rcases List.mem_cons.mp inside with rfl | earlier
        · exact List.mem_cons_self
        · exact List.mem_cons_of_mem _ (List.mem_filter.mpr ⟨earlier, other⟩)
      | other => exact member

theorem KeyedMembers.joinNow {a : α} (keyed : KeyedMembers key members changes)
    (free : ∀ k ∈ key a, Free key k (members ++ joiners changes)) :
    KeyedMembers key (a :: members) changes where
  distinct b member c member' k found found' := by
    rcases List.mem_cons.mp member with rfl | earlier
    · rcases List.mem_cons.mp member' with rfl | earlier'
      · rfl
      · exact absurd found' (free k found c (List.mem_append_left _ earlier'))
    · rcases List.mem_cons.mp member' with rfl | earlier'
      · exact absurd found (free k found' b (List.mem_append_left _ earlier))
      · exact keyed.distinct b earlier c earlier' k found found'
  admits := keyed.admits.joinNow fun k found b joins => free k found b (List.mem_append_right _ joins)

end

end TcpServerLib.Machine
