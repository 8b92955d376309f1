import TcpServerLib.Model.Registration

/-! # The pointers of a param as two lists

The first three pointers of a param are its capabilities, and those behind them are its children. Registration
keeps the children packed, and so they are a list to which a child is appended.
-/

namespace TcpServerLib.Refinement

open Machine Model LibParam

variable {ι κ : Type*}

/-- Thirteen pointers are left for the children. -/
def maxChildren : ℕ := 13

/-- The capabilities in the first three places, and the children packed behind them. -/
def laid (capabilities children : List ι) : Fin maxOptionSize → Option ι := fun i =>
  if i < childrenStart then capabilities[i.val]? else children[i.val - 3]?

/-- What stands in the three slots before those of the children. -/
def capabilitiesOf (param : ParamT ι) : List ι :=
  upToNull (((List.finRange maxOptionSize).take 3).map param.options)

/-- What stands behind them, up to the first free slot. -/
def childrenOf (param : ParamT ι) : List ι :=
  upToNull (((List.finRange maxOptionSize).drop 3).map param.options)

/-- No child is behind a null pointer. -/
def Packed (param : ParamT ι) : Prop :=
  param.options = laid (capabilitiesOf param) (childrenOf param)

/-- The capabilities that registering a child fills in, and those of a negation param. -/
def parentCapabilities : List (LibParam ⊕ κ) := [.inl modeParam, .inl suboptionsParam, .inl cmdExpansionParam]

def negationCapabilities : List (LibParam ⊕ κ) :=
  [.inl suboptionsParam, .inl suboptionsParam, .inl cmdExpansionParam]

theorem upToNull_append (pointers : List ι) (rest : List (Option ι)) :
    upToNull (pointers.map some ++ rest) = pointers ++ upToNull rest := by
  induction pointers with
  | nil => rfl
  | cons p pointers ih =>
    rw [List.map_cons, List.cons_append, upToNull, ih]
    rfl

/-- A list in at least as many places as it needs. -/
theorem upToNull_places {list : List ι} {n : ℕ} (fits : list.length ≤ n) :
    upToNull ((List.range n).map fun i => list[i]?) = list := by
  induction n generalizing list with
  | zero =>
    rw [List.length_eq_zero_iff.mp (Nat.le_zero.mp fits)]
    rfl
  | succ n ih =>
    cases list with
    | nil => simp [List.range_succ_eq_map, upToNull]
    | cons p list =>
      have rest := ih (Nat.le_of_succ_le_succ fits)
      simpa [List.range_succ_eq_map, upToNull, Function.comp_def] using rest

/-- The capabilities of pointers laid out are read back. -/
theorem capabilitiesOf_laid {param : ParamT ι} {capabilities children : List ι}
    (options : param.options = laid capabilities children) (few : capabilities.length ≤ 3) :
    capabilitiesOf param = capabilities := by
  rw [capabilitiesOf, options]
  exact upToNull_places few

/-- The children of pointers laid out are read back. -/
theorem childrenOf_laid {param : ParamT ι} {capabilities children : List ι}
    (options : param.options = laid capabilities children) (few : children.length ≤ maxChildren) :
    childrenOf param = children := by
  rw [childrenOf, options]
  exact upToNull_places few

/-- Pointers laid out are packed. -/
theorem packed_of_laid {param : ParamT ι} {capabilities children : List ι}
    (options : param.options = laid capabilities children) (few : capabilities.length ≤ 3)
    (fits : children.length ≤ maxChildren) : Packed param := by
  rw [Packed, capabilitiesOf_laid options few, childrenOf_laid options fits]
  exact options

/-- There are no more children than slots for them. -/
theorem length_childrenOf_le (param : ParamT ι) : (childrenOf param).length ≤ maxChildren := by
  apply Nat.le_trans (length_upToNull_le _)
  apply Nat.le_of_eq
  rfl

/-- What `find_matching_param` sees of a param: its children only if the capabilities are before them. -/
theorem entries_laid {param : ParamT ι} {capabilities children : List ι}
    (options : param.options = laid capabilities children) (few : children.length ≤ maxChildren)
    (enabled : capabilities.length = 3) : param.optionArray.entries = capabilities ++ children := by
  match capabilities, enabled with
  | [a, b, c], _ =>
    have places : (List.finRange maxOptionSize).map param.options =
        [a, b, c].map some ++ (List.range maxChildren).map fun i => children[i]? := by
      rw [options]
      rfl
    change upToNull _ = _
    rw [places, upToNull_append, upToNull_places few]

theorem entries_laid_nil {param : ParamT ι} {children : List ι} (options : param.options = laid [] children) :
    param.optionArray.entries = [] := by
  change upToNull _ = _
  rw [options]
  rfl

theorem laid_capability {capabilities children : List ι} {i : Fin maxOptionSize} (early : i < childrenStart) :
    laid capabilities children i = capabilities[i.val]? := if_pos early

theorem laid_child {capabilities children : List ι} {i : Fin maxOptionSize} (late : childrenStart ≤ i) :
    laid capabilities children i = children[i.val - 3]? := if_neg (not_lt.mpr late)

/-- Three places for the capabilities, and those for the children. -/
theorem places_ext {options options' : Fin maxOptionSize → Option ι}
    (mode : options modeParamIndex = options' modeParamIndex)
    (suboptions : options suboptionsIndex = options' suboptionsIndex)
    (expansion : options cmdExpansionIndex = options' cmdExpansionIndex)
    (later : ∀ i, childrenStart ≤ i → options i = options' i) : options = options' := by
  funext i
  by_cases early : i < childrenStart
  · match i, early with
    | 0, _ => exact mode
    | 1, _ => exact suboptions
    | 2, _ => exact expansion
  · exact later i (not_lt.mp early)

/-- The index behind the last child. -/
def behind (children : List ι) (few : children.length < maxChildren) : Fin maxOptionSize :=
  ⟨children.length + 3, Nat.add_lt_add_right few 3⟩

theorem childrenStart_le_behind {children : List ι} (few : children.length < maxChildren) :
    childrenStart ≤ behind children few :=
  Nat.le_add_left 3 children.length

/-- The first free slot is the one behind the children. -/
theorem freeIndex_laid {capabilities children : List ι} (few : children.length < maxChildren) :
    freeIndex (laid capabilities children) = some (behind children few) := by
  rw [freeIndex, List.find?_eq_some_iff_getElem]
  refine ⟨?_, children.length + 3, ?_, ?_, ?_⟩
  · rw [decide_eq_true_iff]
    refine ⟨childrenStart_le_behind few, ?_⟩
    rw [laid_child (childrenStart_le_behind few)]
    simp [behind]
  · rw [List.length_finRange]
    exact Nat.add_lt_add_right few 3
  · apply List.getElem_finRange
  · intro j before
    rw [List.getElem_finRange, Bool.not_eq_true', decide_eq_false_iff_not]
    rintro ⟨late, free⟩
    rw [laid_child late] at free
    have child : j - 3 < children.length := by
      have start : 3 ≤ j := late
      omega
    change (children[j - 3]?).isNone = true at free
    rw [List.getElem?_eq_getElem child] at free
    cases free

/-- With all thirteen children there is none. -/
theorem freeIndex_laid_full {capabilities children : List ι} (full : children.length = maxChildren) :
    freeIndex (laid capabilities children) = none := by
  rw [freeIndex, List.find?_eq_none]
  intro i _
  rw [decide_eq_true_iff]
  rintro ⟨late, free⟩
  rw [laid_child late, List.getElem?_eq_getElem] at free
  · cases free
  · have last := i.isLt
    rw [full]
    exact Nat.sub_lt_right_of_lt_add late last

/-- Writing into that slot appends a child. -/
theorem laid_append {capabilities children : List ι} (few : children.length < maxChildren) (child : ι) :
    Function.update (laid capabilities children) (behind children few) (some child) =
      laid capabilities (children ++ [child]) := by
  funext i
  by_cases early : i < childrenStart
  · have other : i ≠ behind children few := (lt_of_lt_of_le early (childrenStart_le_behind few)).ne
    rw [Function.update_of_ne other, laid_capability early, laid_capability early]
  · have late := not_lt.mp early
    rw [laid_child late]
    by_cases last : i = behind children few
    · subst last
      simp [behind]
    · have moved : i.val - 3 ≠ children.length := by
        intro same
        apply last
        apply Fin.ext
        have start : 3 ≤ i.val := late
        change i.val = children.length + 3
        omega
      rw [Function.update_of_ne last, laid_child late]
      rcases Nat.lt_or_gt_of_ne moved with before | after
      · rw [List.getElem?_append_left before]
      · rw [List.getElem?_eq_none (Nat.le_of_lt after), List.getElem?_eq_none]
        rw [List.length_append]
        exact after

/-- Registering a child fills in the capabilities, where there are none. -/
def enabledCapabilities (capabilities : List (LibParam ⊕ κ)) : List (LibParam ⊕ κ) :=
  if capabilities = [] then parentCapabilities else capabilities

/-- Enabling writes the capabilities of a parent unless there are some. -/
theorem enableCapabilities_laid {capabilities children : List (LibParam ⊕ κ)}
    (whole : capabilities = [] ∨ capabilities.length = 3) :
    Params.enableCapabilities (laid capabilities children) = laid (enabledCapabilities capabilities)
    children := by
  have later (i : Fin maxOptionSize) (late : childrenStart ≤ i) :
      Params.enableCapabilities (laid capabilities children) i =
        laid (enabledCapabilities capabilities) children i := by
    have other {j : Fin maxOptionSize} (early : j < childrenStart) : i ≠ j := (lt_of_lt_of_le early late).ne'
    rw [Params.enableCapabilities, setIfNull, Function.update_of_ne (other (by decide)), setIfNull,
      Function.update_of_ne
      (other (by decide)), setIfNull, Function.update_of_ne (other (by decide)), laid_child late,
      laid_child late]
  match capabilities, whole with
  | [], _ => exact places_ext rfl rfl rfl later
  | [a, b, c], _ => exact places_ext rfl rfl rfl later

/-- The negation takes over the children and has no capabilities but its own. -/
theorem negationOptions_laid {capabilities children : List (LibParam ⊕ κ)}
    (few : children.length < maxChildren) :
    Params.negationOptions (laid capabilities children) (behind children few) =
      laid negationCapabilities children := by
  apply places_ext
  · rfl
  · rfl
  · rfl
  · intro i late
    have early : ¬ i < childrenStart := not_lt.mpr late
    have other : i ≠ cmdExpansionIndex := by
      rintro rfl
      exact early (by decide)
    rw [Params.negationOptions, if_neg other, if_neg early, laid_child late, laid_child late]
    split
    · rfl
    · next last =>
      have past : behind children few ≤ i := not_lt.mp last
      rw [List.getElem?_eq_none (Nat.le_sub_of_add_le past)]

end TcpServerLib.Refinement
