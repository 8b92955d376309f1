import TcpServerLib.Machine.StableSort
import TcpServerLib.Model.WheelTimer
import TcpServerLib.Refinement.GlthreadLinks

/-! # Priority insertion

The three ways through `glthread_priority_insert` put a node into one place, behind all its equals. Nodes
that are inserted one after the other come out in the order of a stable sort.
-/

namespace TcpServerLib.Soundness

open Machine Model.GlthreadLinks Refinement.GlthreadLinks

theorem threeWay_of_key {α κ : Type*} [LinearOrder κ] {compFn : α → α → ℤ} (key : α → κ)
    (less : ∀ x y, key x < key y → compFn x y = -1) (equal : ∀ x y, key x = key y → compFn x y = 0)
    (greater : ∀ x y, key y < key x → compFn x y = 1) : ThreeWay compFn := by
  have nonpos (x y : α) : compFn x y ≤ 0 ↔ key x ≤ key y := by
    rcases lt_trichotomy (key x) (key y) with order | order | order
    · rw [less x y order]
      exact iff_of_true (by decide) order.le
    · rw [equal x y order]
      exact iff_of_true (by decide) order.le
    · rw [greater x y order]
      exact iff_of_false (by decide) order.not_ge
  constructor
  · intro x y
    rcases lt_trichotomy (key x) (key y) with order | order | order
    · exact .inl (less x y order)
    · exact .inr (.inl (equal x y order))
    · exact .inr (.inr (greater x y order))
  · intro x y
    rcases lt_trichotomy (key x) (key y) with order | order | order
    · rw [less x y order, greater y x order]
      rfl
    · rw [equal x y order, equal y x order.symm]
      rfl
    · rw [greater x y order, less y x order]
  · intro x y z
    rw [nonpos, nonpos, nonpos]
    exact le_trans

theorem threeWay_seniorCitizen : ThreeWay Model.seniorCitizen := by
  have same_iff (p1 p2 : Model.Person) : p1.age = p2.age ↔ p1.age.toInt = p2.age.toInt := Int32.toInt_inj.symm
  have younger_iff (p1 p2 : Model.Person) : p1.age < p2.age ↔ p1.age.toInt < p2.age.toInt :=
    Int32.lt_iff_toInt_lt
  -- the oldest come first
  apply threeWay_of_key fun p => OrderDual.toDual p.age.toInt
  · intro p1 p2 older
    have older : p2.age.toInt < p1.age.toInt := older
    exact (if_neg (mt (same_iff p1 p2).mp older.ne')).trans (if_neg (mt (younger_iff p1 p2).mp older.not_gt))
  · intro p1 p2 same
    exact if_pos ((same_iff p1 p2).mpr same)
  · intro p1 p2 younger
    have younger : p1.age.toInt < p2.age.toInt := younger
    exact (if_neg (mt (same_iff p1 p2).mp younger.ne)).trans (if_pos ((younger_iff p1 p2).mpr younger))

theorem threeWay_insertWtElemInSlot (wt : Model.WheelTimer) : ThreeWay wt.insertWtElemInSlot := by
  apply threeWay_of_key wt.executeCycleNo
  · exact fun e₁ e₂ earlier => if_pos earlier
  · intro e₁ e₂ same
    rw [Model.WheelTimer.insertWtElemInSlot, same, if_neg (lt_irrefl _), if_neg (lt_irrefl _)]
  · intro e₁ e₂ later
    rw [Model.WheelTimer.insertWtElemInSlot, if_neg later.not_gt, if_pos later]

section

variable {α : Type*} {compFn : α → α → ℤ} {new : α} {list : List α}

/-- The list law of an insertion. -/
theorem stablyInserted (comparison : ThreeWay compFn) (sorted : list.Pairwise (compFn · · ≤ 0)) :
    StablyInserted (compFn · · ≤ 0) new list (Model.glthreadPriorityInsert compFn new list) := by
  constructor
  · exact Model.perm_glthreadPriorityInsert
  · simp only [decide_eq_true_eq]
    apply Model.pairwise_glthreadPriorityInsert comparison.trans _ _ sorted
    · intro x less
      rw [less]
      decide
    · exact fun x other => not_not.mp (mt comparison.eq_neg_one_iff.mpr other)
  · obtain ⟨before, behind, rfl, inserted, _⟩ := Model.glthreadPriorityInsert_split compFn new list
    rw [inserted]
    exact (List.sublist_cons_self new behind).append_left before
  · intro x member _ below
    obtain ⟨before, behind, rfl, inserted, _, head⟩ := Model.glthreadPriorityInsert_split compFn new list
    rw [inserted]
    simp only [decide_eq_true_eq] at below
    have early : x ∈ before := by
      refine (List.mem_append.mp member).resolve_right fun late => ?_
      obtain ⟨_, order, _⟩ := List.pairwise_append.mp sorted
      cases behind with
      | nil => cases late
      | cons next rest =>
        have greater : ¬ compFn next new ≤ 0 := comparison.eq_neg_one_iff.mp (head next rfl)
        rcases List.mem_cons.mp late with rfl | late
        · exact greater below
        · exact greater (comparison.trans _ _ _ ((List.pairwise_cons.mp order).1 x late) below)
    exact (List.singleton_sublist.mpr early).append (List.singleton_sublist.mpr List.mem_cons_self)

end

section

variable {ι : Type*} [DecidableEq ι] {compFn : ι → ι → ℤ} {steps : ℕ} {links : Links ι} {h new : ι}
  {list news : List ι}

theorem initGlthread_other (x : ι) (other : x ≠ new) :
    (initGlthread links new).left x = links.left x ∧ (initGlthread links new).right x = links.right x :=
  ⟨Function.update_of_ne other .., Function.update_of_ne other ..⟩

theorem glthreadPriorityInsert_stable (comparison : ThreeWay compFn) (isPath : links.IsPath (h :: list))
    (sorted : list.Pairwise (compFn · · ≤ 0)) (fresh : new ∉ h :: list) (enough : list.length ≤ steps) :
    ∃ links' list', glthreadPriorityInsert compFn steps links h new = some links' ∧
    links'.IsPath (h :: list') ∧
      StablyInserted (compFn · · ≤ 0) new list list' ∧
      ∀ x ∉ new :: h :: list, links'.left x = links.left x ∧ links'.right x = links.right x := by
  have isPath' : (initGlthread links new).IsPath (h :: list) :=
    isPath.congr fun x member => initGlthread_other x fun same => fresh (same ▸ member)
  have alone : (initGlthread links new).right new = none := Function.update_self ..
  obtain ⟨before, behind, split, inserted, ran⟩ := glthreadPriorityInsert_place compFn isPath' enough
  obtain ⟨ahead, place⟩ := head_cons_split h before behind
  have here : h :: list = ahead ++ before.getLast?.getD h :: behind := by
    rw [split]
    simpa using place []
  obtain ⟨added, others⟩ := isPath_addNext isPath' alone fresh here
  have there : h :: (before ++ new :: behind) = ahead ++ before.getLast?.getD h :: new :: behind := by
    simpa using place [new]
  refine ⟨_, _, ran, ?_, stablyInserted comparison sorted, fun x outside => ?_⟩
  · rw [inserted, there]
    exact added
  · have same : (initGlthread links new).left x = links.left x ∧ (initGlthread links new).right x =
        links.right x :=
      initGlthread_other x (List.ne_of_not_mem_cons outside)
    exact ⟨(others x outside).1.trans same.1, (others x outside).2.trans same.2⟩

def glthreadPriorityInsertAll (compFn : ι → ι → ℤ) (steps : ℕ) (links : Links ι) (h : ι)
    (news : List ι) : Option (Links ι) :=
  news.foldlM (fun links new => glthreadPriorityInsert compFn steps links h new) links

/-- After some insertions the list is the stable sort of what has been inserted. -/
theorem glthreadPriorityInsertAll_stable {inserted : List ι} (comparison : ThreeWay compFn)
    (isPath : links.IsPath (h :: list))
    (sort : IsStableSort (compFn · · ≤ 0) inserted list) (distinct : ((h :: inserted) ++ news).Nodup)
    (enough : inserted.length + news.length ≤ steps) :
    ∃ links' list', glthreadPriorityInsertAll compFn steps links h news = some links' ∧
    links'.IsPath (h :: list') ∧
      IsStableSort (compFn · · ≤ 0) (inserted ++ news) list' := by
  induction news generalizing links list inserted with
  | nil => exact ⟨links, list, rfl, isPath, by rwa [List.append_nil]⟩
  | cons new news ih =>
    have sorted : list.Pairwise (compFn · · ≤ 0) := by simpa using sort.sorted
    have length : list.length = inserted.length := sort.perm.length_eq
    have fresh : new ∉ h :: list := by
      have absent := (List.nodup_cons.mp (List.nodup_middle.mp distinct)).1
      simp only [List.cons_append, List.mem_cons, List.mem_append, not_or] at absent
      rw [List.mem_cons, sort.perm.mem_iff, not_or]
      exact ⟨absent.1, absent.2.1⟩
    rw [List.length_cons] at enough
    have room : list.length ≤ steps := by omega
    obtain ⟨middle, list', ran, isPath', placed, _⟩ :=
      glthreadPriorityInsert_stable comparison isPath sorted fresh room
    rw [List.append_cons] at distinct ⊢
    have room : (inserted ++ [new]).length + news.length ≤ steps := by
      rw [List.length_append, List.length_singleton]
      omega
    obtain ⟨links', list'', rans, result⟩ := ih isPath' (sort.concat placed) distinct room
    refine ⟨links', list'', ?_, result⟩
    rw [glthreadPriorityInsertAll, List.foldlM_cons, ran]
    exact rans

/-- A node comes into a sorted list behind its equals, whatever its links were, and nodes that are inserted
into an empty list are sorted stably. -/
theorem priority_insertion (comparison : ThreeWay compFn) :
    (∀ links h new list steps, links.IsPath (h :: list) → list.Pairwise (compFn · · ≤ 0) →
      new ∉ h :: list →
      list.length ≤ steps → ∃ links' list', glthreadPriorityInsert compFn steps links h new =
        some links' ∧ links'.IsPath (h :: list') ∧ StablyInserted (compFn · · ≤ 0) new list list' ∧
        ∀ x ∉ new :: h :: list, links'.left x = links.left x ∧ links'.right x = links.right x) ∧
    ∀ links h news steps, links.IsPath [h] → (h :: news).Nodup → news.length ≤ steps →
      ∃ links', glthreadPriorityInsertAll compFn steps links h news = some links' ∧
        links'.IsPath (h :: news.mergeSort (compFn · · ≤ 0)) := by
  constructor
  · exact fun links h new list steps isPath sorted fresh enough =>
      glthreadPriorityInsert_stable comparison isPath sorted fresh enough
  · intro links h news steps isPath distinct enough
    have room : ([] : List ι).length + news.length ≤ steps := by rwa [List.length_nil, Nat.zero_add]
    obtain ⟨links', list', ran, isPath', sort⟩ :=
      glthreadPriorityInsertAll_stable comparison isPath isStableSort_nil distinct room
    have trans (x y z : ι) : decide (compFn x y ≤ 0) → decide (compFn y z ≤ 0) →
        decide (compFn x z ≤ 0) := by
      simpa using comparison.trans x y z
    have total (x y : ι) : decide (compFn x y ≤ 0) || decide (compFn y x ≤ 0) := by
      simpa using comparison.total x y
    have same := sort.unique (isStableSort_mergeSort trans total news) (List.nodup_cons.mp distinct).2
    exact ⟨links', ran, same ▸ isPath'⟩

end

/-- The array of `main`, and a sixth person who is as old as the third. -/
def person (node : ℕ) : Model.Person :=
  ⟨if node = 5 then 5 else .ofNat (2 * node + 1)⟩

def byAge (x y : ℕ) : ℤ :=
  Model.seniorCitizen (person x) (person y)

/-- The head is the node 9, and has the third person alone in its list. -/
def thirdPerson : Links ℕ where
  left x := if x = 2 then some 9 else none
  right x := if x = 9 then some 2 else none

theorem isPath_thirdPerson : thirdPerson.IsPath [9, 2] := by
  constructor
  · intro x head
    obtain rfl := Option.some.inj head
    rfl
  · exact List.isChain_pair.mpr ⟨rfl, rfl⟩
  · intro x last
    obtain rfl := Option.some.inj last
    rfl

theorem mergeSort_byAge : [4, 3, 2, 1, 0, 5].mergeSort (byAge · · ≤ 0) = [4, 3, 2, 5, 1, 0] := by
  simp [List.mergeSort, List.MergeSort.Internal.splitInTwo, byAge, person, Model.seniorCitizen]

theorem priority_insertion_persons :
    (∃ links' list', glthreadPriorityInsert byAge 1 thirdPerson 9 5 = some links' ∧
      links'.IsPath (9 :: list') ∧ StablyInserted (byAge · · ≤ 0) 5 [2] list' ∧
      ∀ x ∉ [5, 9, 2], links'.left x = thirdPerson.left x ∧ links'.right x = thirdPerson.right x) ∧
    ∃ links', glthreadPriorityInsertAll byAge 6 ⟨fun _ => none, fun _ => none⟩ 9 [4, 3, 2, 1, 0, 5] =
      some links' ∧ links'.IsPath [9, 4, 3, 2, 5, 1, 0] := by
  have comparison : ThreeWay byAge := threeWay_seniorCitizen.comap person
  have isPath : Links.IsPath ⟨fun _ => none, fun _ => none⟩ [9] :=
    ⟨fun _ _ => rfl, .singleton 9, fun _ _ => rfl⟩
  obtain ⟨one, all⟩ := priority_insertion comparison
  refine ⟨one _ _ _ _ _ isPath_thirdPerson (List.pairwise_singleton _ 2) (by decide) (by decide), ?_⟩
  rw [← mergeSort_byAge]
  exact all _ _ _ _ isPath (by decide) (by decide)

end TcpServerLib.Soundness
