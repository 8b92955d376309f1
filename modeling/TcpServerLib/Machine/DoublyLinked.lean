import Mathlib.Data.List.Chain
import Mathlib.Data.List.Nodup
import Mathlib.Logic.Function.Basic

/-! # Doubly linked lists

Nodes that name each other to the left and to the right form a path, if the two at its ends name
nobody beyond. Putting a node behind one of a path, or taking it out of there again, is one relation
between the links without the node and with it. A family of lists has a head for each, and every path
begins at its head.
-/

namespace TcpServerLib.Machine

structure Links (ι : Type*) where
  left : ι → Option ι
  right : ι → Option ι

namespace Links

variable {ι : Type*} {links links' : Links ι} {path before behind : List ι} {a x y : ι}

/-- Two neighbours. -/
def Joined (links : Links ι) (x y : ι) : Prop := links.right x = some y ∧ links.left y = some x

structure IsPath (links : Links ι) (path : List ι) : Prop where
  first : ∀ x ∈ path.head?, links.left x = none
  joined : path.IsChain links.Joined
  last : ∀ x ∈ path.getLast?, links.right x = none

theorem IsPath.right (isPath : links.IsPath (before ++ x :: behind)) : links.right x = behind.head? := by
  cases behind with
  | nil => exact isPath.last x (by rw [List.getLast?_concat]; rfl)
  | cons y behind => exact (List.isChain_append_cons_cons.mp isPath.joined).2.1.1

theorem IsPath.left (isPath : links.IsPath (before ++ x :: behind)) : links.left x = before.getLast? := by
  rcases List.eq_nil_or_concat' before with rfl | ⟨before, y, rfl⟩
  · exact isPath.first x rfl
  · have joined := isPath.joined
    rw [List.append_assoc, List.singleton_append] at joined
    rw [List.getLast?_concat]
    exact (List.isChain_append_cons_cons.mp joined).2.1.2

/-- A node that came twice would have two neighbours that came twice as well, all the way to the first one. -/
theorem IsPath.not_twice {between : List ι}
    (isPath : links.IsPath (before ++ x :: (between ++ x :: behind))) : False := by
  induction before using List.reverseRecOn generalizing x between behind with
  | nil =>
    have first : links.left x = none := isPath.left
    have again : links.left x = (x :: between).getLast? := by
      have isPath' : links.IsPath ((x :: between) ++ x :: behind) := by simpa using isPath
      exact isPath'.left
    simp [first, List.getLast?_cons] at again
  | append_singleton before z ih =>
    have first : links.left x = some z := by
      rw [isPath.left, List.getLast?_concat]
    have again : links.left x = (x :: between).getLast? := by
      have isPath' : links.IsPath ((before ++ z :: x :: between) ++ x :: behind) := by simpa using isPath
      rw [isPath'.left]
      simp [List.getLast?_cons]
    obtain ⟨rest, split⟩ := List.getLast?_eq_some_iff.mp (again.symm.trans first)
    have ahead : x :: (between ++ x :: behind) = rest ++ z :: x :: behind := by
      rw [← List.cons_append, split]
      simp
    rw [ahead] at isPath
    have isPath' : links.IsPath (before ++ z :: (rest ++ z :: x :: behind)) := by simpa using isPath
    exact ih isPath'

theorem IsPath.nodup (isPath : links.IsPath path) : path.Nodup := by
  refine List.nodup_iff_sublist.mpr fun x twice => ?_
  obtain ⟨first, second, rfl, here, again⟩ := List.cons_sublist_iff.mp twice
  obtain ⟨before, between, rfl⟩ := List.append_of_mem here
  obtain ⟨between', behind, rfl⟩ := List.append_of_mem (List.singleton_sublist.mp again)
  have isPath' : links.IsPath (before ++ x :: ((between ++ between') ++ x :: behind)) := by simpa using isPath
  exact isPath'.not_twice

/-- The links of a path are those of its nodes. -/
theorem IsPath.congr (isPath : links.IsPath path)
    (same : ∀ x ∈ path, links'.left x = links.left x ∧ links'.right x = links.right x) :
    links'.IsPath path := by
  constructor
  · intro x head
    rw [(same x (List.mem_of_mem_head? head)).1]
    exact isPath.first x head
  · refine isPath.joined.imp_of_mem_imp fun x y here there joined => ?_
    exact ⟨(same x here).2.trans joined.1, (same y there).1.trans joined.2⟩
  · intro x last
    rw [(same x (List.mem_of_mem_getLast? last)).2]
    exact isPath.last x last

/-- The second links have `x` behind `a`, and are the first but for the neighbours of the place. -/
structure Inserted (a x : ι) (links links' : Links ι) : Prop where
  before : links'.Joined a x
  behind : links'.right x = links.right a
  next : ∀ y, links.right a = some y → links.left y = some a ∧ links'.left y = some x
  right : ∀ y, y ≠ a → y ≠ x → links'.right y = links.right y
  left : ∀ y, y ≠ x → links.right a ≠ some y → links'.left y = links.left y

/-- With the node, or without it: the rest of the path stays joined. -/
theorem Inserted.isPath_iff (inserted : Inserted a x links links') (next : links.right a = behind.head?)
    (nodup : (before ++ a :: x :: behind).Nodup) :
    links'.IsPath (before ++ a :: x :: behind) ↔ links.IsPath (before ++ a :: behind) := by
  obtain ⟨_, nodupBehind, disjoint⟩ := List.nodup_append.mp nodup
  obtain ⟨absent, nodupBehind⟩ := List.nodup_cons.mp nodupBehind
  obtain ⟨absent', nodupBehind⟩ := List.nodup_cons.mp nodupBehind
  -- a node up to `a` is neither the new one nor the one behind it
  have upTo {y : ι} (member : y ∈ before ++ [a]) : y ≠ x ∧ links.right a ≠ some y := by
    have fresh : y ∉ x :: behind := by
      rcases List.mem_append.mp member with member | member
      · exact fun other => disjoint y member y (List.mem_cons_of_mem a other) rfl
      · rw [List.mem_singleton.mp member]
        exact absent
    refine ⟨List.ne_of_not_mem_cons fresh, fun same => List.not_mem_of_not_mem_cons fresh ?_⟩
    exact List.mem_of_mem_head? (next.symm.trans same)
  have beyond {y : ι} (member : y ∈ behind) : links'.right y = links.right y :=
    inserted.right y (fun same => absent (List.mem_cons_of_mem x (same ▸ member))) fun same =>
      absent' (same ▸ member)
  have joinedBefore : (before ++ [a]).IsChain links'.Joined ↔ (before ++ [a]).IsChain links.Joined := by
    refine List.IsChain.iff_of_mem_imp fun y z here there => ?_
    by_cases same : y = a
    · subst same
      refine iff_of_false (fun joined => (upTo there).1 ?_) fun joined => (upTo there).2 joined.1
      exact Option.some.inj (joined.1.symm.trans inserted.before.1)
    · rw [Joined, Joined, inserted.right y same (upTo here).1, inserted.left z (upTo there).1 (upTo there).2]
  have joinedBehind : (x :: behind).IsChain links'.Joined ↔ (a :: behind).IsChain links.Joined := by
    cases behind with
    | nil => exact iff_of_true (.singleton x) (.singleton a)
    | cons b behind =>
      obtain ⟨left, left'⟩ := inserted.next b next
      rw [List.isChain_cons_cons, List.isChain_cons_cons]
      refine and_congr (iff_of_true ⟨inserted.behind.trans next, left'⟩ ⟨next, left⟩) ?_
      refine List.IsChain.iff_of_mem_tail_imp fun y z here there => ?_
      have other : links.right a ≠ some z := by
        rw [next]
        rintro ⟨⟩
        exact (List.nodup_cons.mp nodupBehind).1 there
      rw [Joined, Joined, beyond here,
        inserted.left z (fun same => absent' (same ▸ List.mem_cons_of_mem b there)) other]
  have joined : (before ++ a :: x :: behind).IsChain links'.Joined ↔
      (before ++ a :: behind).IsChain links.Joined := by
    rw [List.isChain_append_cons_cons, and_iff_right inserted.before, joinedBefore, joinedBehind,
      ← List.isChain_split]
  have first : (∀ y ∈ (before ++ a :: x :: behind).head?, links'.left y = none) ↔
      ∀ y ∈ (before ++ a :: behind).head?, links.left y = none := by
    have head (rest : List ι) : (before ++ a :: rest).head? = (before ++ [a]).head? := by cases before <;> rfl
    rw [head (x :: behind), head behind]
    refine forall₂_congr fun y member => ?_
    have early := upTo (List.mem_of_mem_head? member)
    rw [inserted.left y early.1 early.2]
  have last : (∀ y ∈ (before ++ a :: x :: behind).getLast?, links'.right y = none) ↔
      ∀ y ∈ (before ++ a :: behind).getLast?, links.right y = none := by
    cases behind with
    | nil => simp [inserted.behind]
    | cons b behind =>
      have same : (before ++ a :: x :: b :: behind).getLast? =
          (b :: behind).getLast? := by simp [List.getLast?_cons]
      have same' : (before ++ a :: b :: behind).getLast? = (b :: behind).getLast? := by simp [List.getLast?_cons]
      rw [same, same']
      refine forall₂_congr fun y member => ?_
      rw [beyond (List.mem_of_mem_getLast? member)]
  exact ⟨fun isPath => ⟨first.mp isPath.first, joined.mp isPath.joined, last.mp isPath.last⟩,
    fun isPath => ⟨first.mpr isPath.first, joined.mpr isPath.joined, last.mpr isPath.last⟩⟩

/-- Away from the path nothing changes. -/
theorem Inserted.elsewhere (inserted : Inserted a x links links') (next : links.right a = behind.head?)
    (other : y ≠ x)
    (away : y ∉ before ++ a :: behind) : links'.left y = links.left y ∧ links'.right y = links.right y := by
  refine ⟨inserted.left y other fun same => away ?_, inserted.right y (fun same => away ?_) other⟩
  · exact List.mem_append_right _ (List.mem_cons_of_mem a (List.mem_of_mem_head? (next.symm.trans same)))
  · exact List.mem_append_right _ (same ▸ List.mem_cons_self)

/-- No two heads share a node. -/
structure Separate (heads : ι → Prop) (lists : ι → List ι) : Prop where
  nodup : ∀ h, heads h → (h :: lists h).Nodup
  apart : ∀ {h k x}, heads h → heads k → x ∈ h :: lists h → x ∈ k :: lists k → h = k

/-- Every head begins a path through the nodes of its list, and a node in no list names nobody. -/
structure Represents (heads : ι → Prop) (lists : ι → List ι) (links : Links ι) :
    Prop extends Separate heads lists where
  isPath : ∀ h, heads h → links.IsPath (h :: lists h)
  unlinked : ∀ x, (∀ h, heads h → x ∉ h :: lists h) → links.left x = none ∧ links.right x = none

/-- Only the lists of the heads count. -/
theorem Represents.of_agree {heads : ι → Prop} {lists lists' : ι → List ι}
    (rep : Represents heads lists links)
    (agree : ∀ h, heads h → lists' h = lists h) : Represents heads lists' links := by
  constructor
  · constructor
    · intro h head
      rw [agree h head]
      exact rep.nodup h head
    · intro h k x headH headK inH inK
      rw [agree h headH] at inH
      rw [agree k headK] at inK
      exact rep.apart headH headK inH inK
  · intro h head
    rw [agree h head]
    exact rep.isPath h head
  · exact fun x nowhere => rep.unlinked x fun h head => agree h head ▸ nowhere h head

section

variable [DecidableEq ι] {heads : ι → Prop} {lists : ι → List ι} {h : ι} {list : List ι}

theorem Separate.of_sublist (separate : Separate heads lists) (fewer : list.Sublist (lists h)) :
    Separate heads (Function.update lists h list) := by
  have sublist (k : ι) : (k :: Function.update lists h list k).Sublist (k :: lists k) := by
    rw [Function.update_apply]
    split_ifs with same
    · subst same
      exact fewer.cons_cons k
    · exact List.Sublist.refl _
  constructor
  · exact fun k head => (separate.nodup k head).sublist (sublist k)
  · exact fun headH headK inH inK => separate.apart headH headK ((sublist _).subset inH) ((sublist _).subset inK)

/-- A node that is in no list may come into one. -/
theorem Separate.of_fresh (separate : Separate heads lists) (head : heads h)
    (fresh : ∀ k, heads k → x ∉ k :: lists k)
    (more : (h :: list).Perm (x :: h :: lists h)) : Separate heads (Function.update lists h list) := by
  have members {k y : ι} (head' : heads k) (member : y ∈ k :: Function.update lists h list k) :
      y = x ∧ k = h ∨ y ≠ x ∧ y ∈ k :: lists k := by
    rw [Function.update_apply] at member
    split_ifs at member with same
    · subst same
      rcases List.mem_cons.mp (more.mem_iff.mp member) with rfl | member
      · exact .inl ⟨rfl, rfl⟩
      · exact .inr ⟨fun same => fresh k head' (same ▸ member), member⟩
    · exact .inr ⟨fun same => fresh k head' (same ▸ member), member⟩
  constructor
  · intro k head'
    rw [Function.update_apply]
    split_ifs with same
    · subst same
      exact more.nodup_iff.mpr (List.nodup_cons.mpr ⟨fresh k head', separate.nodup k head'⟩)
    · exact separate.nodup k head'
  · intro k l y headK headL inK inL
    rcases members headK inK with ⟨rfl, rfl⟩ | ⟨other, inK⟩ <;> rcases members headL
      inL with ⟨same, rfl⟩ | ⟨other', inL⟩
    · rfl
    · exact absurd rfl other'
    · exact absurd same other
    · exact separate.apart headK headL inK inL

variable {more fewer : List ι}

/-- The node in its list, or alone. -/
theorem Inserted.represents_iff (inserted : Inserted a x links links')
    (separate : Separate heads (Function.update lists h more))
    (head : heads h) (next : links.right a = behind.head?) (alone : links.left x = none ∧ links.right x = none)
    (withNode : h :: more = before ++ a :: x :: behind) (without : h :: fewer = before ++ a :: behind) :
    Represents heads (Function.update lists h more) links' ↔
    Represents heads (Function.update lists h fewer) links := by
  have nodup := separate.nodup h head
  have here {k y : ι} (headK : heads k) (inH : y ∈ h :: more)
      (inK : y ∈ k :: Function.update lists h more k) : k = h := by
    rw [← Function.update_self h more lists] at inH
    exact separate.apart headK head inK inH
  rw [Function.update_self] at nodup
  have members {y : ι} : y ∈ h :: more ↔ y = x ∨ y ∈ h :: fewer := by
    rw [withNode, without]
    simp only [List.mem_append, List.mem_cons]
    tauto
  have sublist : fewer.Sublist more := by
    rw [← List.cons_sublist_cons (a := h), withNode, without]
    exact ((List.sublist_cons_self x behind).cons_cons a).append_left before
  have away {y : ι} (outside : y ∉ h :: more) : links'.left y = links.left y ∧
      links'.right y = links.right y := by
    rw [members, not_or] at outside
    exact inserted.elsewhere next outside.1 (without ▸ outside.2)
  have paths : (∀ k, heads k → links'.IsPath (k :: Function.update lists h more k)) ↔
      ∀ k, heads k → links.IsPath (k :: Function.update lists h fewer k) := by
    refine forall₂_congr fun k head' => ?_
    by_cases same : k = h
    · subst same
      rw [Function.update_self, Function.update_self, withNode, without]
      exact inserted.isPath_iff next (withNode ▸ nodup)
    · have away {y : ι} (member : y ∈ k :: lists k) : links'.left y = links.left y ∧
          links'.right y = links.right y := by
        refine away fun inH => same (here head' inH ?_)
        rwa [Function.update_of_ne same]
      rw [Function.update_of_ne same, Function.update_of_ne same]
      exact ⟨fun isPath => isPath.congr fun y member => ⟨(away member).1.symm, (away member).2.symm⟩,
        fun isPath => isPath.congr fun y member => away member⟩
  have unlinked : (∀ y, (∀ k, heads k → y ∉ k :: Function.update lists h more k) →
      links'.left y = none ∧ links'.right y = none) ↔
      ∀ y, (∀ k, heads k → y ∉ k :: Function.update lists h fewer k) → links.left y = none ∧
      links.right y = none := by
    refine forall_congr' fun y => ?_
    by_cases same : y = x
    · subst same
      refine iff_of_true (fun nowhere => absurd ?_ (nowhere h head)) fun _ => alone
      rw [Function.update_self]
      exact members.mpr (.inl rfl)
    · have nowhere : (∀ k, heads k → y ∉ k :: Function.update lists h more k) ↔
          ∀ k, heads k → y ∉ k :: Function.update lists h fewer k := by
        refine forall₂_congr fun k _ => not_congr ?_
        rw [Function.update_apply, Function.update_apply]
        split_ifs with here
        · subst here
          exact members.trans (or_iff_right same)
        · rfl
      rw [nowhere]
      refine forall_congr' fun outside => ?_
      have gone := nowhere.mpr outside h head
      rw [Function.update_self] at gone
      rw [(away gone).1, (away gone).2]
  have fewerSeparate : Separate heads (Function.update lists h fewer) := by
    have cut := separate.of_sublist
        (show fewer.Sublist (Function.update lists h more h) by rwa [Function.update_self])
    rwa [Function.update_idem] at cut
  exact ⟨fun rep => ⟨fewerSeparate, paths.mp rep.isPath, unlinked.mp rep.unlinked⟩,
    fun rep => ⟨separate, paths.mpr rep.isPath, unlinked.mpr rep.unlinked⟩⟩

/-- A node that is in no list comes into one. -/
theorem Represents.insert (rep : Represents heads lists links) (inserted : Inserted a x links links')
    (head : heads h)
    (fresh : ∀ k, heads k → x ∉ k :: lists k) (without : h :: lists h = before ++ a :: behind)
    (withNode : h :: more = before ++ a :: x :: behind) :
    Represents heads (Function.update lists h more) links' := by
  have isPath := rep.isPath h head
  rw [without] at isPath
  have perm : (h :: more).Perm (x :: h :: lists h) := by
    rw [withNode, without]
    have middle : (before ++ [a] ++ x :: behind).Perm (x :: (before ++ [a] ++ behind)) := List.perm_middle
    simpa using middle
  refine (inserted.represents_iff (rep.toSeparate.of_fresh head fresh perm) head isPath.right
    (rep.unlinked x fresh) withNode
    without).mpr ?_
  rwa [Function.update_eq_self]

/-- A node leaves its list. -/
theorem Represents.remove (rep : Represents heads lists links') (inserted : Inserted a x links links')
    (head : heads h)
    (alone : links.left x = none ∧ links.right x = none) (withNode : h :: lists h = before ++ a :: x :: behind)
    (without : h :: fewer = before ++ a :: behind) : Represents heads (Function.update lists h fewer) links := by
  have isPath := rep.isPath h head
  rw [withNode, ← List.singleton_append, ← List.append_assoc] at isPath
  have next : links.right a = behind.head? := inserted.behind.symm.trans isPath.right
  have same : Function.update lists h (lists h) = lists := Function.update_eq_self h lists
  refine (inserted.represents_iff (by rw [same]; exact rep.toSeparate) head next alone withNode without).mp ?_
  rwa [same]

end

/-- The lists determine the links of their nodes. -/
theorem IsPath.determined (isPath : links.IsPath path) (isPath' : links'.IsPath path) (member : x ∈ path) :
    links'.left x = links.left x ∧ links'.right x = links.right x := by
  obtain ⟨before, behind, rfl⟩ := List.append_of_mem member
  exact ⟨isPath'.left.trans isPath.left.symm, isPath'.right.trans isPath.right.symm⟩

theorem Represents.unique {heads : ι → Prop} {lists : ι → List ι} (rep : Represents heads lists links)
    (rep' : Represents heads lists links') : links' = links := by
  have same (x : ι) : links'.left x = links.left x ∧ links'.right x = links.right x := by
    by_cases linked : ∃ h, heads h ∧ x ∈ h :: lists h
    · obtain ⟨h, head, member⟩ := linked
      exact (rep.isPath h head).determined (rep'.isPath h head) member
    · have nowhere (h : ι) (head : heads h) : x ∉ h :: lists h := fun member => linked ⟨h, head, member⟩
      have alone := rep.unlinked x nowhere
      have alone' := rep'.unlinked x nowhere
      exact ⟨alone'.1.trans alone.1.symm, alone'.2.trans alone.2.symm⟩
  obtain ⟨left, right⟩ := links
  obtain ⟨left', right'⟩ := links'
  rw [Links.mk.injEq]
  exact ⟨funext fun x => (same x).1, funext fun x => (same x).2⟩

end Links

end TcpServerLib.Machine
