import TcpServerLib.Model.Glthread
import TcpServerLib.Model.GlthreadLinks

/-! # What the functions on glue threads do to lists

Each function puts one node behind another, or takes one out, where the links represent lists.
-/

namespace TcpServerLib.Refinement

open Machine

namespace GlthreadLinks

open Model.GlthreadLinks Links

variable {ι : Type*} {heads : ι → Prop} {lists : ι → List ι} {links : Links ι} {h a curr new temp : ι}
  {before behind list : List ι}

/-- A node of a list has one before it, which may be the head. -/
theorem exists_split (member : curr ∈ list) : ∃ before a behind, h :: list =
    before ++ a :: curr :: behind := by
  obtain ⟨before, behind, rfl⟩ := List.append_of_mem member
  rcases List.eq_nil_or_concat' before with rfl | ⟨before, a, rfl⟩
  · exact ⟨[], h, behind, rfl⟩
  · exact ⟨h :: before, a, behind, by simp⟩

section

variable (rep : Links.Represents heads lists links) (head : heads h)
include rep head

/-- Neighbours in a list are joined both ways. -/
theorem joined_of_split (split : h :: lists h = before ++ a :: curr :: behind) : links.Joined a curr := by
  have isPath := rep.isPath h head
  rw [split] at isPath
  exact (List.isChain_append_cons_cons.mp isPath.joined).2.1

/-- The right link of a node is the next one of its list. -/
theorem right_of_split (split : h :: lists h = before ++ curr :: behind) : links.right curr = behind.head? := by
  have isPath := rep.isPath h head
  rw [split] at isPath
  exact isPath.right

/-- The right link of a head is the first node. -/
theorem right_of_head : links.right h = (lists h).head? :=
  right_of_split rep head (List.nil_append (h :: lists h)).symm

/-- The next node is in the list and links back. -/
theorem next_of_split (split : h :: lists h = before ++ curr :: behind) (named : links.right curr = some temp) :
    temp ∈ behind ∧ links.left temp = some curr := by
  cases behind with
  | nil => cases (right_of_split rep head split).symm.trans named
  | cons b behind =>
    obtain rfl := Option.some.inj ((right_of_split rep head split).symm.trans named)
    exact ⟨List.mem_cons_self, (joined_of_split rep head split).2⟩

end

variable [DecidableEq ι]

/-- The node is linked in behind `curr`. -/
theorem glthreadAddNext_inserted (other : curr ≠ new) (alone : links.right new = none)
    (next : ∀ temp, links.right curr = some temp → temp ≠ new ∧ links.left temp = some curr) :
    Inserted curr new links (glthreadAddNext links curr new) := by
  rw [glthreadAddNext]
  cases right : links.right curr with
  | none =>
    constructor
    · exact ⟨Function.update_self .., Function.update_self ..⟩
    · exact (Function.update_of_ne other.symm ..).trans (alone.trans right.symm)
    · intro y named
      cases right.symm.trans named
    · exact fun y notCurr _ => Function.update_of_ne notCurr ..
    · exact fun y notNew _ => Function.update_of_ne notNew ..
  | some temp =>
    obtain ⟨notNew, left⟩ := next temp right
    constructor
    · exact ⟨(Function.update_of_ne other ..).trans (Function.update_self ..),
        (Function.update_of_ne notNew.symm ..).trans (Function.update_self ..)⟩
    · exact (Function.update_self ..).trans right.symm
    · intro y named
      obtain rfl := Option.some.inj (right.symm.trans named)
      exact ⟨left, Function.update_self ..⟩
    · exact fun y notCurr notNew => (Function.update_of_ne notNew ..).trans (Function.update_of_ne notCurr ..)
    · intro y notNew notNamed
      have notTemp : y ≠ temp := fun same => notNamed (same ▸ right)
      exact (Function.update_of_ne notTemp ..).trans (Function.update_of_ne notNew ..)

/-- The node is linked in before `curr`. -/
theorem glthreadAddBefore_inserted (joined : links.Joined temp curr) (other : new ≠ temp)
    (other' : new ≠ curr) :
    Inserted temp new links (glthreadAddBefore links curr new) := by
  rw [glthreadAddBefore, joined.2]
  constructor
  · exact ⟨(Function.update_of_ne other.symm ..).trans (Function.update_self ..),
      (Function.update_of_ne other' ..).trans (Function.update_self ..)⟩
  · exact (Function.update_self ..).trans joined.1.symm
  · intro y named
    obtain rfl := Option.some.inj (joined.1.symm.trans named)
    exact ⟨joined.2, Function.update_self ..⟩
  · exact fun y notTemp notNew => (Function.update_of_ne notNew ..).trans (Function.update_of_ne notTemp ..)
  · intro y notNew notNamed
    have notCurr : y ≠ curr := fun same => notNamed (same ▸ joined.1)
    exact (Function.update_of_ne notCurr ..).trans (Function.update_of_ne notNew ..)

/-- Taking a node out undoes linking it in, and clears its own links. -/
theorem removeGlthread_inserted (joined : links.Joined a curr) (other : a ≠ curr)
    (next : ∀ b, links.right curr = some b → b ≠ curr ∧ links.left b = some curr) :
    Inserted a curr (removeGlthread links curr) links ∧ (removeGlthread links curr).left curr = none ∧
      (removeGlthread links curr).right curr = none := by
  rw [removeGlthread, joined.2]
  cases right : links.right curr with
  | none =>
    have behind : (setLeft (setRight links a none) curr none).right a = none := Function.update_self ..
    refine ⟨⟨joined, right.trans behind.symm, fun y named => ?_, fun y notA _ => ?_, fun y notCurr _ =>
      ?_⟩, ?_, ?_⟩
    · cases behind.symm.trans named
    · exact (Function.update_of_ne notA ..).symm
    · exact (Function.update_of_ne notCurr ..).symm
    · exact Function.update_self ..
    · exact (Function.update_of_ne other.symm ..).trans right
  | some b =>
    obtain ⟨notCurr, left⟩ := next b right
    have behind : (setRight (setLeft (setLeft (setRight links a (some b)) b (some a)) curr none)
        curr none).right a = some b :=
      (Function.update_of_ne other ..).trans (Function.update_self ..)
    refine ⟨⟨joined, right.trans behind.symm, fun y named => ?_, fun y notA notCurr =>
      ?_, fun y notCurr notNamed => ?_⟩, ?_, ?_⟩
    · obtain rfl := Option.some.inj (behind.symm.trans named)
      exact ⟨(Function.update_of_ne notCurr ..).trans (Function.update_self ..), left⟩
    · exact ((Function.update_of_ne notCurr ..).trans (Function.update_of_ne notA ..)).symm
    · have notB : y ≠ b := fun same => notNamed (same ▸ behind)
      exact ((Function.update_of_ne notCurr ..).trans (Function.update_of_ne notB ..)).symm
    · exact Function.update_self ..
    · exact Function.update_self ..

section

variable (rep : Links.Represents heads lists links) (head : heads h)
include rep head

/-- The list gains the node behind `curr`, and the other lists stay. -/
theorem represents_addNext (split : h :: lists h = before ++ curr :: behind)
    (fresh : ∀ k, heads k → new ∉ k :: lists k)
    (becomes : h :: list = before ++ curr :: new :: behind) :
    Links.Represents heads (Function.update lists h list) (glthreadAddNext links curr new) := by
  have absent : new ∉ before ++ curr :: behind := split ▸ fresh h head
  have inserted : Inserted curr new links (glthreadAddNext links curr new) := by
    apply glthreadAddNext_inserted
    · exact fun same => absent (same ▸ List.mem_append_right before List.mem_cons_self)
    · exact (rep.unlinked new fresh).2
    · intro temp named
      obtain ⟨member, left⟩ := next_of_split rep head split named
      exact ⟨fun same => absent (same ▸ List.mem_append_right before (List.mem_cons_of_mem curr member)),
        left⟩
  exact rep.insert inserted head fresh split becomes

/-- The list gains the node before `curr`. -/
theorem represents_addBefore (split : h :: lists h = before ++ temp :: curr :: behind)
    (fresh : ∀ k, heads k → new ∉ k :: lists k)
    (becomes : h :: list = before ++ temp :: new :: curr :: behind) :
    Links.Represents heads (Function.update lists h list) (glthreadAddBefore links curr new) := by
  have absent : new ∉ before ++ temp :: curr :: behind := split ▸ fresh h head
  have inserted : Inserted temp new links (glthreadAddBefore links curr new) := by
    apply glthreadAddBefore_inserted (joined_of_split rep head split)
    · exact fun same => absent (same ▸ List.mem_append_right before List.mem_cons_self)
    · exact fun same => absent
        (same ▸ List.mem_append_right before (List.mem_cons_of_mem temp List.mem_cons_self))
  exact rep.insert inserted head fresh split becomes

/-- The list loses the node. -/
theorem represents_remove (split : h :: lists h = before ++ a :: curr :: behind)
    (becomes : h :: list = before ++ a :: behind) :
    Links.Represents heads (Function.update lists h list) (removeGlthread links curr) := by
  have nodup := rep.nodup h head
  rw [split] at nodup
  obtain ⟨absent, nodup⟩ := List.nodup_cons.mp (List.nodup_append.mp nodup).2.1
  have next (b : ι) (named : links.right curr = some b) : b ≠ curr ∧ links.left b = some curr := by
    rw [← List.singleton_append (l := curr :: behind), ← List.append_assoc] at split
    obtain ⟨member, left⟩ := next_of_split rep head split named
    exact ⟨fun same => (List.nodup_cons.mp nodup).1 (same ▸ member), left⟩
  obtain ⟨inserted, alone⟩ :=
    removeGlthread_inserted (joined_of_split rep head split) (List.ne_of_not_mem_cons absent) next
  exact rep.remove inserted head alone split becomes

end

/-- A node without links stays as it is. -/
theorem removeGlthread_alone (alone : links.left curr = none ∧ links.right curr = none) :
    removeGlthread links curr = links := by
  rw [removeGlthread, alone.1, alone.2]

/-- A node that is no head leaves the list it is in, if it is in one. -/
theorem represents_erase (rep : Links.Represents heads lists links) (node : ¬ heads curr) :
    Links.Represents heads (fun h => (lists h).erase curr) (removeGlthread links curr) := by
  by_cases linked : ∃ h, heads h ∧ curr ∈ lists h
  · obtain ⟨h, head, member⟩ := linked
    obtain ⟨before, a, behind, split⟩ := exists_split (h := h) member
    have becomes : h :: (lists h).erase curr = before ++ a :: behind := by
      have notHead : h ≠ curr := fun same => node (same ▸ head)
      have nodup := rep.nodup h head
      have erased : (h :: lists h).erase curr = h :: (lists h).erase curr :=
        List.erase_cons_tail (by simpa using notHead)
      have ahead : before ++ a :: curr :: behind = (before ++ [a]) ++ curr :: behind := by simp
      rw [split, ahead] at nodup
      have absent : curr ∉ before ++ [a] :=
        fun there => (List.nodup_append.mp nodup).2.2 curr there curr List.mem_cons_self rfl
      rw [← erased, split, ahead, List.erase_append_right _ absent, List.erase_cons_head]
      simp
    refine (represents_remove rep head split becomes).of_agree fun k head' => ?_
    by_cases same : k = h
    · subst same
      rw [Function.update_self]
    · rw [Function.update_of_ne same]
      refine List.erase_of_not_mem fun there => same ?_
      exact rep.apart head' head (List.mem_cons_of_mem k there) (List.mem_cons_of_mem h member)
  · have nowhere (h : ι) (head : heads h) : curr ∉ h :: lists h := by
      intro there
      rcases List.mem_cons.mp there with rfl | there
      · exact node head
      · exact linked ⟨h, head, there⟩
    rw [removeGlthread_alone (rep.unlinked curr nowhere)]
    exact rep.of_agree fun h head => List.erase_of_not_mem fun there =>
      nowhere h head (List.mem_cons_of_mem h there)

omit [DecidableEq ι] in
/-- A walk over a list comes to its nodes in their order. -/
theorem iterateGlthread_list {σ : Type*} {body : σ → ι → σ} (rep : Links.Represents heads lists links)
    (head : heads h) {steps : ℕ}
    {s : σ} (split : h :: lists h = before ++ curr :: behind) (enough : behind.length ≤ steps) :
    iterateGlthread (fun _ => links.right) body steps (links.right curr) s = some (behind.foldl body s) := by
  induction behind generalizing before curr s steps with
  | nil =>
    rw [right_of_split rep head split]
    cases steps <;> rfl
  | cons b behind ih =>
    rw [right_of_split rep head split]
    cases steps with
    | zero => cases enough
    | succ steps =>
      rw [List.head?_cons, iterateGlthread, List.foldl_cons]
      have further : h :: lists h = (before ++ [curr]) ++ b :: behind := by rw [split, List.append_assoc]; rfl
      exact ih further (Nat.le_of_succ_le_succ enough)

/-- A walk that takes each node out, with the next one read before. -/
theorem deleteGlthreadList_represents (rep : Links.Represents heads lists links) (head : heads h) {steps : ℕ}
    (enough : (lists h).length ≤ steps) : ∃ links', deleteGlthreadList steps links h = some links' ∧
      Links.Represents heads (Function.update lists h []) links' := by
  rw [deleteGlthreadList, right_of_head rep head]
  generalize list : lists h = rest at enough
  induction rest generalizing lists links steps with
  | nil =>
    refine ⟨links, by cases steps <;> rfl, ?_⟩
    rwa [← list, Function.update_eq_self]
  | cons x rest ih =>
    cases steps with
    | zero => cases enough
    | succ steps =>
      have split : h :: lists h = [] ++ h :: x :: rest := by rw [list]; rfl
      have split' : h :: lists h = [h] ++ x :: rest := split
      have removed : Links.Represents heads (Function.update lists h rest) (removeGlthread links x) :=
        represents_remove rep head split rfl
      have next : links.right x = rest.head? := right_of_split rep head split'
      obtain ⟨links', ran, rep'⟩ := ih removed (Function.update_self ..) (Nat.le_of_succ_le_succ enough)
      rw [Function.update_idem] at rep'
      refine ⟨links', ?_, rep'⟩
      rw [List.head?_cons, iterateGlthread, next]
      exact ran

/-- Given steps enough to reach the end, the node is linked in last. -/
theorem glthreadAddLast_represents (rep : Links.Represents heads lists links) (head : heads h) {steps : ℕ}
    (enough : (lists h).length ≤ steps) (fresh : ∀ k, heads k → new ∉ k :: lists k) :
    ∃ links', glthreadAddLast steps links h new = some links' ∧
      Links.Represents heads (Function.update lists h (lists h ++ [new])) links' := by
  have split : h :: lists h = [] ++ h :: lists h := rfl
  have walked : iterateGlthread (fun _ => links.right) (fun _ glthreadptr => some glthreadptr) steps
      (links.right h) none =
      some ((lists h).foldl (fun _ glthreadptr => some glthreadptr) none) :=
    iterateGlthread_list rep head split enough
  rw [glthreadAddLast, walked]
  rcases List.eq_nil_or_concat' (lists h) with empty | ⟨before, last, split⟩
  · have folded : (lists h).foldl (fun _ glthreadptr => some glthreadptr) none = none := by rw [empty]; rfl
    rw [folded]
    rw [empty] at split
    exact ⟨_, rfl, represents_addNext rep head (empty.symm ▸ split) fresh (by rw [empty]; rfl)⟩
  · have folded : (lists h).foldl (fun _ glthreadptr => some glthreadptr) none = some last := by
      rw [split, List.foldl_append]
      rfl
    rw [folded]
    have splitLast : h :: lists h = (h :: before) ++ last :: [] := by rw [split]; rfl
    exact ⟨_, rfl, represents_addNext rep head splitLast fresh (by rw [split, List.append_assoc]; rfl)⟩

section

variable (isPath : links.IsPath (h :: list))
include isPath

omit [DecidableEq ι] in
theorem head_next : links.right h = list.head? :=
  IsPath.right (show links.IsPath ([] ++ h :: list) from isPath)

omit [DecidableEq ι] in
/-- A head without a right link has an empty list. -/
theorem isGlthreadListEmpty_iff : isGlthreadListEmpty links h = true ↔ list = [] := by
  have first : links.left h = none := isPath.first h rfl
  rw [isGlthreadListEmpty, first, head_next isPath]
  cases list <;> simp

/-- A node behind another one of a path, and the links of all others. -/
theorem isPath_addNext (alone : links.right new = none) (absent : new ∉ h :: list)
    (split : h :: list = before ++ curr :: behind) :
    (glthreadAddNext links curr new).IsPath (before ++ curr :: new :: behind) ∧ ∀ x ∉ new :: h :: list,
      (glthreadAddNext links curr new).left x = links.left x ∧
      (glthreadAddNext links curr new).right x = links.right x := by
  have nodup := isPath.nodup
  rw [split] at isPath absent nodup
  have next : links.right curr = behind.head? := isPath.right
  have inserted : Inserted curr new links (glthreadAddNext links curr new) := by
    apply glthreadAddNext_inserted _ alone
    · intro temp named
      cases behind with
      | nil => cases next.symm.trans named
      | cons b behind =>
        obtain rfl := Option.some.inj (next.symm.trans named)
        have joined := (List.isChain_append_cons_cons.mp isPath.joined).2.1
        exact ⟨fun same => absent (same ▸ by simp), joined.2⟩
    · exact fun same => absent (same ▸ by simp)
  have nodup' : (before ++ curr :: new :: behind).Nodup := by
    have perm : (before ++ curr :: new :: behind).Perm (new :: (before ++ curr :: behind)) := by
      have middle : ((before ++ [curr]) ++ new :: behind).Perm (new :: (before ++ [curr] ++ behind)) :=
        List.perm_middle
      simpa using middle
    exact perm.nodup_iff.mpr (List.nodup_cons.mpr ⟨absent, nodup⟩)
  refine ⟨(inserted.isPath_iff next nodup').mpr isPath, fun x outside => ?_⟩
  rw [split] at outside
  exact inserted.elsewhere next (List.ne_of_not_mem_cons outside) (List.not_mem_of_not_mem_cons outside)

end

section

variable (compFn : ι → ι → ℤ) {steps : ℕ} (passed : List ι) {rest : List ι}

/-- The loop, when it has passed some nodes, puts the new one behind the last that it passes, or
behind the head. -/
theorem insertBeforeGreater_place (isPath : links.IsPath (h :: (passed ++ rest))) (some : passed ++ rest ≠ [])
    (enough : rest.length ≤ steps) : ∃ before behind, passed ++ rest = before ++ behind ∧
      passed ++ Model.insertBeforeGreater compFn new rest = before ++ new :: behind ∧
      insertBeforeGreater compFn links h new steps rest.head? passed.getLast? =
        .some (glthreadAddNext links (before.getLast?.getD h) new) := by
  induction rest generalizing passed steps with
  | nil =>
    rw [List.append_nil] at some
    obtain ⟨before, last, rfl⟩ := (List.eq_nil_or_concat' passed).resolve_left some
    refine ⟨before ++ [last], [], rfl, rfl, ?_⟩
    rw [List.getLast?_concat]
    cases steps <;> rfl
  | cons curr rest ih =>
    cases steps with
    | zero => cases enough
    | succ steps =>
      rw [List.head?_cons, insertBeforeGreater, Model.insertBeforeGreater]
      split_ifs with less
      · have next : links.right curr = rest.head? :=
          IsPath.right (show links.IsPath ((h :: passed) ++ curr :: rest) from isPath)
        rw [List.append_cons] at isPath some
        obtain ⟨before, behind, split, inserted, ran⟩ :=
          ih (passed ++ [curr]) isPath some (Nat.le_of_succ_le_succ enough)
        rw [List.getLast?_concat] at ran
        rw [← List.append_cons] at split inserted
        exact ⟨before, behind, split, inserted, by rw [next]; exact ran⟩
      · exact ⟨passed, curr :: rest, rfl, rfl, rfl⟩

/-- The walk stops where the sorted list has its place for the node. -/
theorem glthreadPriorityInsert_place (isPath : (initGlthread links new).IsPath (h :: list))
    (enough : list.length ≤ steps) :
    ∃ before behind, list = before ++ behind ∧ Model.glthreadPriorityInsert compFn new list =
      before ++ new :: behind ∧ glthreadPriorityInsert compFn steps links h new =
        some (glthreadAddNext (initGlthread links new) (before.getLast?.getD h) new) := by
  rw [glthreadPriorityInsert]
  cases list with
  | nil =>
    rw [if_pos ((isGlthreadListEmpty_iff isPath).mpr rfl)]
    exact ⟨[], [], rfl, rfl, rfl⟩
  | cons curr rest =>
    have first : (initGlthread links new).right h = some curr := head_next isPath
    have next : (initGlthread links new).right curr = rest.head? :=
      IsPath.right (show (initGlthread links new).IsPath ([h] ++ curr :: rest) from isPath)
    rw [if_neg (mt (isGlthreadListEmpty_iff isPath).mp (List.cons_ne_nil curr rest)), first]
    dsimp only
    rw [next]
    cases rest with
    | nil =>
      rw [List.head?_nil, if_pos rfl, Model.glthreadPriorityInsert]
      split_ifs with less
      · exact ⟨[], [curr], rfl, rfl, rfl⟩
      · exact ⟨[curr], [], rfl, rfl, rfl⟩
    | cons second rest =>
      rw [List.head?_cons, if_neg (Option.some_ne_none second), Model.glthreadPriorityInsert_eq]
      exact insertBeforeGreater_place compFn [] isPath (List.cons_ne_nil curr _) enough

end

omit [DecidableEq ι] in
/-- What follows some nodes follows the last of them, or the head. -/
theorem head_cons_split (h : ι) (before behind : List ι) :
    ∃ ahead, ∀ more, h :: (before ++ more ++ behind) = ahead ++ before.getLast?.getD h ::
      (more ++ behind) := by
  rcases List.eq_nil_or_concat' before with rfl | ⟨before, last, rfl⟩
  · exact ⟨[], fun _ => rfl⟩
  · exact ⟨h :: before, fun _ => by simp⟩

theorem initGlthread_fresh (rep : Links.Represents heads lists links)
    (fresh : ∀ k, heads k → new ∉ k :: lists k) :
    initGlthread links new = links := by
  obtain ⟨left, right⟩ := rep.unlinked new fresh
  rw [initGlthread, setLeft, setRight, Function.update_eq_self_iff.mpr left.symm,
    Function.update_eq_self_iff.mpr right.symm]

/-- Inserting by priority inserts into the sorted list. -/
theorem glthreadPriorityInsert_represents (compFn : ι → ι → ℤ) {steps : ℕ}
    (rep : Links.Represents heads lists links) (head : heads h)
    (fresh : ∀ k, heads k → new ∉ k :: lists k) (enough : (lists h).length ≤ steps) :
    ∃ links', glthreadPriorityInsert compFn steps links h new = some links' ∧
      Links.Represents heads (Function.update lists h (Model.glthreadPriorityInsert compFn new (lists h)))
      links' := by
  have same := initGlthread_fresh rep fresh
  have isPath := rep.isPath h head
  rw [← same] at isPath
  obtain ⟨before, behind, split, inserted, ran⟩ := glthreadPriorityInsert_place compFn isPath enough
  obtain ⟨ahead, place⟩ := head_cons_split h before behind
  rw [inserted, ran, same]
  have here : h :: lists h = ahead ++ before.getLast?.getD h :: behind := by
    rw [split]
    simpa using place []
  have there : h :: (before ++ new :: behind) = ahead ++ before.getLast?.getD h :: new :: behind := by
    simpa using place [new]
  exact ⟨_, rfl, represents_addNext rep head here fresh there⟩

end GlthreadLinks

end TcpServerLib.Refinement
