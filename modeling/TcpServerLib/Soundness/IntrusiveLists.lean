import TcpServerLib.Refinement.GlthreadLinks

/-! # Intrusive lists

A call on glue threads does to the chains of the heads what its operation on sequences does to the lists
they represent, and it does not touch the chain of another head.
-/

namespace TcpServerLib.Soundness

open Machine Model.GlthreadLinks Refinement.GlthreadLinks

inductive GlthreadCall (ι : Type*)
  | addNext (currGlthread newGlthread : ι)
  | addLast (glthreadHead newGlthread : ι)
  | addBefore (currGlthread newGlthread : ι)
  | remove (currGlthread : ι)
  | dequeueFirst (baseGlthread : ι)
  | deleteList (glthreadHead : ι)

namespace GlthreadCall

variable {ι : Type*}

/-- The head or node the call is made on. -/
def operand : GlthreadCall ι → ι
  | addNext currGlthread _ => currGlthread
  | addLast glthreadHead _ => glthreadHead
  | addBefore currGlthread _ => currGlthread
  | remove currGlthread => currGlthread
  | dequeueFirst baseGlthread => baseGlthread
  | deleteList glthreadHead => glthreadHead

/-- New nodes are in no list, and the others are where the call needs them. -/
def Allowed (heads : List ι) (lists : ι → List ι) : GlthreadCall ι → Prop
  | addNext currGlthread newGlthread =>
    (∃ h ∈ heads, currGlthread ∈ h :: lists h) ∧ ∀ h ∈ heads, newGlthread ∉ h :: lists h
  | addLast glthreadHead newGlthread => glthreadHead ∈ heads ∧ ∀ h ∈ heads, newGlthread ∉ h :: lists h
  | addBefore currGlthread newGlthread =>
    (∃ h ∈ heads, currGlthread ∈ lists h) ∧ ∀ h ∈ heads, newGlthread ∉ h :: lists h
  | remove currGlthread => currGlthread ∉ heads
  | dequeueFirst baseGlthread => baseGlthread ∈ heads
  | deleteList glthreadHead => glthreadHead ∈ heads

variable [DecidableEq ι]

/-- What the call returns, and the links it leaves behind. -/
def run (steps : ℕ) (links : Links ι) : GlthreadCall ι → Option (Option ι × Links ι)
  | addNext currGlthread newGlthread => some (none, glthreadAddNext links currGlthread newGlthread)
  | addLast glthreadHead newGlthread => (glthreadAddLast steps links glthreadHead newGlthread).map (none, ·)
  | addBefore currGlthread newGlthread => some (none, glthreadAddBefore links currGlthread newGlthread)
  | remove currGlthread => some (none, removeGlthread links currGlthread)
  | dequeueFirst baseGlthread => some (dequeueGlthreadFirst links baseGlthread)
  | deleteList glthreadHead => (deleteGlthreadList steps links glthreadHead).map (none, ·)

/-- The operation on the list of a head. -/
def list (h : ι) (list : List ι) : GlthreadCall ι → List ι
  | addNext currGlthread newGlthread =>
    if h = currGlthread then newGlthread :: list
    else list.flatMap fun x => if x = currGlthread then [x, newGlthread] else [x]
  | addLast glthreadHead newGlthread => if h = glthreadHead then list ++ [newGlthread] else list
  | addBefore currGlthread newGlthread => list.flatMap fun x => if x = currGlthread then [newGlthread, x] else [x]
  | remove currGlthread => list.erase currGlthread
  | dequeueFirst baseGlthread => if h = baseGlthread then list.tail else list
  | deleteList glthreadHead => if h = glthreadHead then [] else list

def lists (lists : ι → List ι) (call : GlthreadCall ι) (h : ι) : List ι :=
  call.list h (lists h)

def result (lists : ι → List ι) : GlthreadCall ι → Option ι
  | dequeueFirst baseGlthread => (lists baseGlthread).head?
  | _ => none

end GlthreadCall

variable {ι : Type*} [DecidableEq ι] {heads : List ι} {lists : ι → List ι} {links : Links ι}
  {h a curr new : ι} {before behind list : List ι} {call : GlthreadCall ι} {steps : ℕ}

section

variable {texts : ι → List ι}

theorem flatMap_absent (absent : curr ∉ list) :
    (list.flatMap fun x => if x = curr then texts x else [x]) = list := by
  have same : (list.flatMap fun x => if x = curr then texts x else [x]) = list.flatMap fun x => [x] := by
    refine List.flatMap_congr fun x member => if_neg ?_
    rintro rfl
    exact absent member
  rw [same, List.flatMap_singleton']

theorem flatMap_split (nodup : (before ++ curr :: behind).Nodup) :
    ((before ++ curr :: behind).flatMap fun x => if x = curr then texts x else [x]) =
      before ++ texts curr ++ behind := by
  have apart := List.nodup_middle.mp nodup
  have absent := (List.nodup_cons.mp apart).1
  rw [List.mem_append, not_or] at absent
  rw [List.flatMap_append, List.flatMap_cons, flatMap_absent absent.1, flatMap_absent absent.2,
    if_pos rfl, List.append_assoc]

end

/-- A call changes the list it is made on. -/
theorem list_other (absent : call.operand ∉ h :: list) : call.list h list = list := by
  obtain ⟨notHead, absent⟩ := not_or.mp (List.mem_cons.not.mp absent)
  cases call with
  | addNext currGlthread newGlthread =>
    exact (if_neg fun same => notHead same.symm).trans (flatMap_absent absent)
  | addLast glthreadHead newGlthread => exact if_neg fun same => notHead same.symm
  | addBefore currGlthread newGlthread => exact flatMap_absent absent
  | remove currGlthread => exact List.erase_of_not_mem absent
  | dequeueFirst baseGlthread => exact if_neg fun same => notHead same.symm
  | deleteList glthreadHead => exact if_neg fun same => notHead same.symm

/-- Where the node or head is, there the list becomes another, and the others stay. -/
theorem lists_agree (rep : Links.Represents (· ∈ heads) lists links) (head : h ∈ heads)
    (member : call.operand ∈ h :: lists h)
    (becomes : call.list h (lists h) = list) : ∀ k ∈ heads, call.lists lists k =
      Function.update lists h list k := by
  intro k head'
  by_cases same : k = h
  · subst same
    rw [Function.update_self]
    exact becomes
  · rw [Function.update_of_ne same]
    exact list_other fun there => same (rep.apart head' head there member)

theorem call_represents (rep : Links.Represents (· ∈ heads) lists links) (allowed : call.Allowed heads lists)
    (enough : ∀ h ∈ heads, (lists h).length ≤ steps) : ∃ links', call.run steps links =
      some (call.result lists, links') ∧
      Links.Represents (· ∈ heads) (call.lists lists) links' := by
  cases call with
  | addNext curr new =>
    obtain ⟨⟨h, head, member⟩, fresh⟩ := allowed
    obtain ⟨before, behind, split⟩ := List.append_of_mem member
    refine ⟨_, rfl, ?_⟩
    cases before with
    | nil =>
      obtain ⟨rfl, rfl⟩ : h = curr ∧ lists h = behind := List.cons.inj split
      exact (represents_addNext rep head split fresh rfl).of_agree (lists_agree rep head member (if_pos rfl))
    | cons h' before =>
      obtain rfl : h = h' := (List.cons.inj split).1
      have rest : lists h = before ++ curr :: behind := (List.cons.inj split).2
      have nodup := rep.nodup h head
      rw [rest] at nodup
      obtain ⟨absent, nodup⟩ := List.nodup_cons.mp nodup
      have notHead : h ≠ curr := by
        rintro rfl
        exact absent (List.mem_append_right before List.mem_cons_self)
      have becomes : (GlthreadCall.addNext curr new).list h (lists h) = before ++ curr :: new :: behind := by
        rw [GlthreadCall.list, if_neg notHead, rest, flatMap_split nodup, List.append_assoc]
        rfl
      have split' : h :: (GlthreadCall.addNext curr new).list h (lists h) =
          (h :: before) ++ curr :: new :: behind := by
        rw [becomes]
        rfl
      exact (represents_addNext rep head split fresh split').of_agree (lists_agree rep head member rfl)
  | addLast h new =>
    obtain ⟨head, fresh⟩ := allowed
    obtain ⟨links', ran, added⟩ := glthreadAddLast_represents rep head (enough h head) fresh
    refine ⟨links', by rw [GlthreadCall.run, ran]; rfl, ?_⟩
    exact added.of_agree (lists_agree rep head List.mem_cons_self (if_pos rfl))
  | addBefore curr new =>
    obtain ⟨⟨h, head, member⟩, fresh⟩ := allowed
    obtain ⟨before, a, behind, split⟩ := exists_split (h := h) member
    refine ⟨_, rfl, ?_⟩
    have nodup := rep.nodup h head
    have becomes : h :: (GlthreadCall.addBefore curr new).list h (lists h) =
        before ++ a :: new :: curr :: behind := by
      have notHead : h ≠ curr := by
        rintro rfl
        exact (List.nodup_cons.mp nodup).1 member
      have mapped : h :: (GlthreadCall.addBefore curr new).list h (lists h) =
          (h :: lists h).flatMap fun x => if x = curr then [new, x] else [x] := by
        rw [List.flatMap_cons, if_neg notHead]
        rfl
      have ahead : before ++ a :: curr :: behind = (before ++ [a]) ++ curr :: behind := by simp
      rw [mapped, split, ahead, flatMap_split (ahead ▸ split ▸ nodup)]
      simp
    have added := represents_addBefore rep head split fresh becomes
    exact added.of_agree (lists_agree rep head (List.mem_cons_of_mem h member) rfl)
  | remove curr => exact ⟨_, rfl, represents_erase rep allowed⟩
  | dequeueFirst h =>
    have next : links.right h = (lists h).head? := right_of_head rep allowed
    have becomes : (GlthreadCall.dequeueFirst h).list h (lists h) = (lists h).tail := if_pos rfl
    refine ⟨(dequeueGlthreadFirst links h).2, ?_, ?_⟩
    · rw [GlthreadCall.run, GlthreadCall.result, ← next, dequeueGlthreadFirst]
      cases links.right h <;> rfl
    · rw [dequeueGlthreadFirst, next]
      cases first : lists h with
      | nil =>
        rw [first, List.tail_nil, ← first] at becomes
        refine rep.of_agree fun k head => (lists_agree rep allowed List.mem_cons_self becomes k head).trans ?_
        rw [Function.update_eq_self]
      | cons x rest =>
        have split : h :: lists h = [] ++ h :: x :: rest := by rw [first]; rfl
        exact (represents_remove rep allowed split rfl).of_agree
          (lists_agree rep allowed List.mem_cons_self (becomes.trans (by rw [first]; rfl)))
  | deleteList h =>
    obtain ⟨links', ran, deleted⟩ := deleteGlthreadList_represents rep allowed (enough h allowed)
    refine ⟨links', by rw [GlthreadCall.run, ran]; rfl, ?_⟩
    exact deleted.of_agree (lists_agree rep allowed List.mem_cons_self (if_pos rfl))

namespace GlthreadCall

/-- Each call is made on the lists that the calls before it have left. -/
def AllAllowed (heads : List ι) : (ι → List ι) → List (GlthreadCall ι) → Prop
  | _, [] => True
  | lists, call :: calls => call.Allowed heads lists ∧ AllAllowed heads (call.lists lists) calls

def runAll (steps : ℕ) : Links ι → List (GlthreadCall ι) → Option (List (Option ι) × Links ι)
  | links, [] => some ([], links)
  | links, call :: calls => do
    let (result, links) ← call.run steps links
    let (results, links) ← runAll steps links calls
    some (result :: results, links)

def listsAll : (ι → List ι) → List (GlthreadCall ι) → ι → List ι
  | lists, [] => lists
  | lists, call :: calls => listsAll (call.lists lists) calls

def resultAll : (ι → List ι) → List (GlthreadCall ι) → List (Option ι)
  | _, [] => []
  | lists, call :: calls => call.result lists :: resultAll (call.lists lists) calls

end GlthreadCall

/-- A call makes a list longer by one node at most. -/
theorem lists_length (call : GlthreadCall ι) (lists : ι → List ι) (h : ι) (nodup : (lists h).Nodup) :
    (call.lists lists h).length ≤ (lists h).length + 1 := by
  have flatMap {curr : ι} {texts : ι → List ι} (two : (texts curr).length = 2) :
      ((lists h).flatMap fun x => if x = curr then texts x else [x]).length ≤ (lists h).length + 1 := by
    by_cases member : curr ∈ lists h
    · obtain ⟨before, behind, split⟩ := List.append_of_mem member
      rw [split] at nodup ⊢
      rw [flatMap_split nodup, List.length_append, List.length_append, List.length_append, List.length_cons, two]
      omega
    · rw [flatMap_absent member]
      exact Nat.le_succ _
  cases call with
  | addNext curr new =>
    rw [GlthreadCall.lists, GlthreadCall.list]
    split_ifs
    · exact le_rfl
    · exact flatMap rfl
  | addLast head new =>
    rw [GlthreadCall.lists, GlthreadCall.list]
    split_ifs
    · rw [List.length_append, List.length_singleton]
    · exact Nat.le_succ _
  | addBefore curr new => exact flatMap rfl
  | remove curr => exact (List.length_erase_le).trans (Nat.le_succ _)
  | dequeueFirst head =>
    rw [GlthreadCall.lists, GlthreadCall.list]
    split_ifs
    · rw [List.length_tail]
      omega
    · exact Nat.le_succ _
  | deleteList head =>
    rw [GlthreadCall.lists, GlthreadCall.list]
    split_ifs
    · exact Nat.zero_le _
    · exact Nat.le_succ _

theorem calls_represent {calls : List (GlthreadCall ι)} (rep : Links.Represents (· ∈ heads) lists links)
    (allowed : GlthreadCall.AllAllowed heads lists calls)
    (enough : ∀ h ∈ heads, (lists h).length + calls.length ≤ steps) :
    ∃ links', GlthreadCall.runAll steps links calls = some (GlthreadCall.resultAll lists calls, links') ∧
      Links.Represents (· ∈ heads) (GlthreadCall.listsAll lists calls) links' ∧
      ∀ h ∈ heads, (GlthreadCall.listsAll lists calls h).length ≤ steps := by
  induction calls generalizing lists links with
  | nil => exact ⟨links, rfl, rep, enough⟩
  | cons call calls ih =>
    obtain ⟨middle, ran, rep'⟩ := call_represents rep allowed.1 fun h head =>
        (Nat.le_add_right ..).trans (enough h head)
    have enough' (h : ι) (head : h ∈ heads) : (call.lists lists h).length + calls.length ≤ steps := by
      have longer := lists_length call lists h (List.nodup_cons.mp (rep.nodup h head)).2
      have room := enough h head
      rw [List.length_cons] at room
      omega
    obtain ⟨links', rans, rep''⟩ := ih rep' allowed.2 enough'
    exact ⟨links', by simp [GlthreadCall.runAll, GlthreadCall.resultAll, ran, rans], rep''⟩

theorem initGlthread_left (x : ι) : (initGlthread links a).left x = if x = a then none else links.left x :=
  Function.update_apply ..

theorem initGlthread_right (x : ι) : (initGlthread links a).right x = if x = a then none else links.right x :=
  Function.update_apply ..

theorem initAll_unlinked (unlinked : ∀ x ∉ heads, links.left x = none ∧ links.right x = none) (x : ι) :
    (heads.foldl initGlthread links).left x = none ∧ (heads.foldl initGlthread links).right x = none := by
  induction heads generalizing links with
  | nil => exact unlinked x List.not_mem_nil
  | cons h heads ih =>
    refine ih fun y others => ?_
    rw [initGlthread_left, initGlthread_right]
    split_ifs with same
    · exact ⟨rfl, rfl⟩
    · exact unlinked y fun member => (List.mem_cons.mp member).elim same others

/-- After `init_glthread` on the heads every list is empty. -/
theorem initAll_represents (unlinked : ∀ x ∉ heads, links.left x = none ∧ links.right x = none) :
    Links.Represents (· ∈ heads) (fun _ => []) (heads.foldl initGlthread links) := by
  have alone := initAll_unlinked unlinked
  constructor
  · constructor
    · exact fun h _ => List.nodup_singleton h
    · intro h k x headH headK inH inK
      exact (List.mem_singleton.mp inH).symm.trans (List.mem_singleton.mp inK)
  · intro h head
    constructor
    · intro x first
      exact (alone x).1
    · exact .singleton h
    · intro x last
      exact (alone x).2
  · exact fun x _ => alone x

/-- The chains represent the lists after any calls, a node that is in no list is left alone by its
removal, and a call does not touch the chain of a head it is not made on. -/
theorem intrusive_lists {calls : List (GlthreadCall ι)}
    (unlinked : ∀ x ∉ heads, links.left x = none ∧ links.right x = none)
    (allowed : GlthreadCall.AllAllowed heads (fun _ => []) calls) (enough : calls.length ≤ steps) :
    let lists := GlthreadCall.listsAll (fun _ => []) calls
    ∃ links', GlthreadCall.runAll steps (heads.foldl initGlthread links) calls =
        some (GlthreadCall.resultAll (fun _ => []) calls, links') ∧
      Links.Represents (· ∈ heads) lists links' ∧
      (∀ x, (∀ h ∈ heads, x ∉ h :: lists h) → removeGlthread links' x = links') ∧
      ∀ call, GlthreadCall.Allowed heads lists call → ∃ links'', call.run steps links' =
        some (call.result lists, links'') ∧
        ∀ h ∈ heads, call.operand ∉ h :: lists h → call.list h (lists h) = lists h ∧
          ∀ x ∈ h :: lists h, links''.left x = links'.left x ∧ links''.right x = links'.right x := by
  intro lists
  obtain ⟨links', ran, rep, room⟩ := calls_represent (initAll_represents unlinked) allowed
    fun h _ => (Nat.zero_add calls.length).trans_le enough
  refine ⟨links', ran, rep, fun x nowhere => removeGlthread_alone (rep.unlinked x nowhere),
    fun call more => ?_⟩
  obtain ⟨links'', ran', rep'⟩ := call_represents rep more room
  refine ⟨links'', ran', fun h head elsewhere => ?_⟩
  have same : call.list h (lists h) = lists h := list_other elsewhere
  have isPath := rep'.isPath h head
  rw [GlthreadCall.lists, same] at isPath
  exact ⟨same, fun x member => (rep.isPath h head).determined isPath member⟩

theorem intrusive_lists_two :
    let calls := [.addLast 0 10, .addNext 10 11, .addBefore 11 12, .addNext 1 13, .remove 12,
      .dequeueFirst 0, .deleteList 1]
    let lists := GlthreadCall.listsAll (fun _ => []) calls
    ∃ links', GlthreadCall.runAll 7 ([0, 1].foldl initGlthread ⟨fun _ => none, fun _ => none⟩) calls =
        some (GlthreadCall.resultAll (fun _ => []) calls, links') ∧
      Links.Represents (· ∈ [0, 1]) lists links' ∧
      (∀ x, (∀ h ∈ [0, 1], x ∉ h :: lists h) → removeGlthread links' x = links') ∧
      ∀ call, GlthreadCall.Allowed [0, 1] lists call → ∃ links'', call.run 7 links' =
        some (call.result lists, links'') ∧
        ∀ h ∈ [0, 1], call.operand ∉ h :: lists h → call.list h (lists h) = lists h ∧
          ∀ x ∈ h :: lists h, links''.left x = links'.left x ∧ links''.right x = links'.right x :=
  intrusive_lists (fun _ _ => ⟨rfl, rfl⟩)
    (by simp [GlthreadCall.AllAllowed, GlthreadCall.Allowed, GlthreadCall.lists, GlthreadCall.list])
    (by decide)

end TcpServerLib.Soundness
