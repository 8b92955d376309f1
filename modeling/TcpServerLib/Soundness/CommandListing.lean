import TcpServerLib.Model.Application
import TcpServerLib.Model.CommandListing
import TcpServerLib.Refinement.CommandWalk
import TcpServerLib.Refinement.TokenTable

/-! # The listing of all commands

The root has the first of the sixteen slots, so a command sixteen levels below it, which a line can still
spell, is written behind the last one. As long as there is none, every command is listed once, under the
names of the params above it.
-/

namespace TcpServerLib.Soundness

open Machine Model CommandTree Refinement

variable {ι : Type*} {tree : CommandTree ι} {p q c : ι} {path path' trail rest children : List ι}
  {table : TokenTable} {printed : List Bytes} {index : ℕ} {dump : Dump}

/-- A way down from `p` that comes past no negation param. -/
structure Branch (tree : CommandTree ι) (p : ι) (path : List ι) : Prop where
  head : path.head? = some p
  child : path.IsChain fun q c => c ∈ tree.childOptions q
  positive : ∀ q ∈ path, (tree.param q).cmdType ≠ .noCmd

def HasHandler (tree : CommandTree ι) (path : List ι) : Prop :=
  ∃ q ∈ path.getLast?, (tree.param q).callback.isSome = true

def nameOf (tree : CommandTree ι) (q : ι) : Bytes :=
  (tree.param q).cmdType.listedName.getD []

/-- The names on a path, as they are printed. -/
def lineOf (tree : CommandTree ι) (path : List ι) : Bytes :=
  path.flatMap fun q => nameOf tree q ++ [32]

/-- No param has a child twice. -/
def RegisteredOnce (tree : CommandTree ι) : Prop :=
  ∀ p, (tree.childOptions p).Nodup

/-- The lines are those of the paths to the commands, each path once, and a param other than the
shared ones is at the end of one path only. -/
def Lists (tree : CommandTree ι) (lines : List Bytes) : Prop :=
  ∃ paths : List (List ι), lines = paths.map (lineOf tree) ∧
    (∀ path, path ∈ paths ↔ Branch tree tree.root path ∧ HasHandler tree path) ∧
    (RegisteredOnce tree → paths.Nodup) ∧
    ∀ path ∈ paths, ∀ path' ∈ paths, path.getLast? = path'.getLast? →
      (∀ q ∈ path.getLast?, q ∉ controls tree) → path = path'

theorem branch_single : Branch tree p [p] ↔ (tree.param p).cmdType ≠ .noCmd := by
  constructor
  · exact fun branch => branch.positive p List.mem_cons_self
  · exact fun positive => ⟨rfl, .singleton p, by simpa using positive⟩

theorem branch_cons : Branch tree p (p :: c :: rest) ↔
    (tree.param p).cmdType ≠ .noCmd ∧ c ∈ tree.childOptions p ∧ Branch tree c (c :: rest) := by
  constructor
  · intro branch
    obtain ⟨member, chain⟩ := List.isChain_cons_cons.mp branch.child
    exact ⟨branch.positive p List.mem_cons_self, member, rfl, chain, fun q later =>
      branch.positive q (List.mem_cons_of_mem p later)⟩
  · rintro ⟨positive, member, below⟩
    refine ⟨rfl, List.isChain_cons_cons.mpr ⟨member, below.child⟩, fun q later => ?_⟩
    rcases List.mem_cons.mp later with rfl | later
    · exact positive
    · exact below.positive q later

/-- A way down ends at once or goes on below a child. -/
theorem branch_cases (branch : Branch tree p path) :
    path = [p] ∨ ∃ c rest, path = p :: rest ∧ c ∈ tree.childOptions p ∧ Branch tree c rest := by
  cases path with
  | nil => cases branch.head
  | cons p' rest =>
    cases branch.head
    cases rest with
    | nil => exact .inl rfl
    | cons c rest =>
      obtain ⟨_, member, below⟩ := branch_cons.mp branch
      exact .inr ⟨c, c :: rest, rfl, member, below⟩

theorem branch_below (positive : (tree.param p).cmdType ≠ .noCmd) (member : c ∈ tree.childOptions p)
    (below : Branch tree c rest) :
    Branch tree p (p :: rest) := by
  cases rest with
  | nil => cases below.head
  | cons c' rest =>
    cases below.head
    exact branch_cons.mpr ⟨positive, member, below⟩

theorem branch_ne_nil (branch : Branch tree p path) : path ≠ [] := by
  rintro rfl
  cases branch.head

theorem hasHandler_cons (p c : ι) (rest : List ι) : HasHandler tree (p :: c :: rest) ↔
    HasHandler tree (c :: rest) := by
  rw [HasHandler, HasHandler, List.getLast?_cons_cons]

/-- The first slots hold the names on the way to a param. -/
def Trail (tree : CommandTree ι) (table : TokenTable) (trail : List ι) : Prop :=
  (table.slots.take trail.length).map unpad = trail.map (nameOf tree)

theorem nameOf_fits (p : ι) : (nameOf tree p).length ≤ leafValueHolderSize ∧ 0 ∉ nameOf tree p := by
  rw [nameOf]
  cases (tree.param p).cmdType with
  | cmd name => exact ⟨name.fits.le.trans (by decide), name.noNul⟩
  | leaf _ leafId _ =>
    have fits := leafId.fits
    have noNul := leafId.noNul
    refine ⟨?_, ?_⟩
    · simp only [CmdType.listedName, Option.getD_some, List.length_append, List.length_cons,
        List.length_nil, leafValueHolderSize]
      omega
    · simpa [CmdType.listedName] using noNul
  | noCmd => exact ⟨Nat.zero_le _, List.not_mem_nil⟩

theorem trail_retokenize (holds : Trail tree table trail) (inside : trail.length < maxCmdTreeDepth) (p : ι) :
    ∃ table', table.retokenize (nameOf tree p) trail.length = .ok table' ∧
    Trail tree table' (trail ++ [p]) := by
  obtain ⟨short, noNul⟩ := @nameOf_fits _ tree p
  obtain ⟨table', stored, slots⟩ := store_slots table inside short
  refine ⟨table', (TokenTable.retokenize_store short _).trans stored, ?_⟩
  have length : trail.length < table.slots.length := by rwa [table.length_slots]
  rw [Trail, List.length_append, List.length_singleton, slots, List.take_succ_eq_append_getElem
    (by rwa [List.length_set]),
    List.take_set_of_le (Nat.le_refl _), List.getElem_set_self, List.map_append, List.map_append, holds]
  exact congrArg (trail.map (nameOf tree) ++ [·]) (unpad_pad noNul)

theorem trail_above (holds : Trail tree table (trail ++ [p])) : Trail tree table trail := by
  have shorter := congrArg (List.take trail.length) holds
  rw [List.map_append, ← @List.length_map _ _ trail (nameOf tree), List.take_left, List.length_map,
    ← List.map_take, List.take_take,
    List.length_append, List.length_singleton, Nat.min_eq_left (Nat.le_succ _)] at shorter
  exact shorter

theorem printTokens_trail (holds : Trail tree table trail) : table.printTokens trail.length =
    lineOf tree trail := by
  have mapped : table.printTokens trail.length = ((table.slots.take trail.length).map unpad).flatMap
      (· ++ [32]) := by
    rw [TokenTable.printTokens, List.flatMap_map]
  rw [mapped, holds, List.flatMap_map, lineOf]

/-- Below what is in the slots already, a walk prints a line for each wanted path, and leaves these
slots as they are. -/
def Walks (tree : CommandTree ι) (trail : List ι) (wanted : List ι → Prop) (once : Prop)
    (walk : Dump → Except CliFault Dump) : Prop :=
  ∀ table printed, Trail tree table trail → ∃ (paths : List (List ι)) (table' : TokenTable),
    walk ⟨table, printed⟩ = .ok ⟨table', printed ++ paths.map fun path => lineOf tree (trail ++ path)⟩ ∧
    Trail tree table' trail ∧
      (∀ path, path ∈ paths ↔ wanted path) ∧ (once → paths.Nodup)

/-- The children, one after the other. -/
theorem walks_children {walk : Dump → ι → Except CliFault Dump} (visits : ∀ c ∈ children,
    Walks tree trail (fun path => Branch tree c path ∧ HasHandler tree path) (RegisteredOnce tree)
    (walk · c)) :
    Walks tree trail (fun path => ∃ c ∈ children, Branch tree c path ∧ HasHandler tree path)
      (RegisteredOnce tree ∧ children.Nodup) (children.foldlM walk) := by
  induction children with
  | nil =>
    intro table printed holds
    refine ⟨[], table, ?_, holds, fun path => ?_, fun _ => List.nodup_nil⟩
    · rw [List.map_nil, List.append_nil]
      rfl
    · simp
  | cons c children ih =>
    intro table printed holds
    obtain ⟨paths, middle, ran, holds, wanted, once⟩ := visits c List.mem_cons_self table printed holds
    obtain ⟨paths', after, ran', holds, wanted', once'⟩ :=
      ih (fun c' member => visits c' (List.mem_cons_of_mem c member)) middle
      (printed ++ paths.map fun path => lineOf tree (trail ++ path)) holds
    refine ⟨paths ++ paths', after, ?_, holds, fun path => ?_, ?_⟩
    · have first : walk ⟨table, printed⟩ c = _ := ran
      change (c :: children).foldlM walk ⟨table, printed⟩ = _
      rw [List.map_append, ← List.append_assoc, List.foldlM_cons, first]
      exact ran'
    · rw [List.mem_append, wanted, wanted']
      simp
    · rintro ⟨registered, nodup⟩
      obtain ⟨fresh, nodup⟩ := List.nodup_cons.mp nodup
      refine List.nodup_append.mpr ⟨once registered, once' ⟨registered, nodup⟩,
        fun path here path' there same => ?_⟩
      subst same
      -- a path below `c` begins with it
      obtain ⟨c', member, branch, _⟩ := (wanted' path).mp there
      have start := ((wanted path).mp here).1.head.symm.trans branch.head
      cases start
      exact fresh member

theorem listedName_positive (positive : (tree.param p).cmdType ≠ .noCmd) :
    (tree.param p).cmdType.listedName = some (nameOf tree p) := by
  rw [nameOf]
  cases type : (tree.param p).cmdType with
  | cmd name => rfl
  | leaf leafType leafId userValidation => rfl
  | noCmd => exact absurd type positive

theorem dumpAllCommands_negation (negation : (tree.param p).cmdType = .noCmd) :
    tree.dumpAllCommands p index dump = .ok dump := by
  rw [dumpAllCommands, negation]
  rfl

theorem dumpAllCommands_refused {fault : CliFault} (positive : (tree.param p).cmdType ≠ .noCmd)
    (refused : dump.table.retokenize (nameOf tree p) index = .error fault) :
    tree.dumpAllCommands p index dump = .error fault := by
  rw [dumpAllCommands, listedName_positive positive]
  dsimp only
  split
  · next other => rw [refused] at other; cases other; rfl
  · next other => rw [refused] at other; cases other

theorem dumpAllCommands_stored (positive : (tree.param p).cmdType ≠ .noCmd)
    (stored : dump.table.retokenize (nameOf tree p) index = .ok table) :
    tree.dumpAllCommands p index dump = (do
      let dump ← (tree.childOptions p).foldlM (fun dump child => tree.dumpAllCommands child (index + 1) dump)
        ⟨table, dump.printed⟩
      if (tree.param p).callback.isSome then
        .ok ⟨dump.table, dump.printed ++ [dump.table.printTokens (index + 1)]⟩
      else .ok dump) := by
  rw [dumpAllCommands, listedName_positive positive]
  dsimp only
  split
  · next other => rw [stored] at other; cases other
  · next other => rw [stored] at other; cases other; rfl

theorem walks_negation (negation : (tree.param p).cmdType = .noCmd) :
    Walks tree trail (fun path => Branch tree p path ∧ HasHandler tree path) (RegisteredOnce tree)
      (tree.dumpAllCommands p trail.length) := by
  intro table printed holds
  refine ⟨[], table, ?_, holds, fun path => ?_, fun _ => List.nodup_nil⟩
  · rw [dumpAllCommands_negation negation, List.map_nil, List.append_nil]
  · refine iff_of_false List.not_mem_nil fun wanted => ?_
    exact wanted.1.positive p (List.mem_of_mem_head? wanted.1.head) negation

/-- The command itself comes after those below it. -/
theorem walks_positive (positive : (tree.param p).cmdType ≠ .noCmd) (inside : trail.length < maxCmdTreeDepth)
    (visits : ∀ c ∈ tree.childOptions p, Walks tree (trail ++ [p]) (fun path => Branch tree c path ∧
      HasHandler tree path) (RegisteredOnce tree) (tree.dumpAllCommands c (trail.length + 1))) :
    Walks tree trail (fun path => Branch tree p path ∧ HasHandler tree path) (RegisteredOnce tree)
      (tree.dumpAllCommands p trail.length) := by
  intro table printed holds
  obtain ⟨stored, retokenized, below⟩ := trail_retokenize holds inside p
  obtain ⟨paths, after, ran, held, wanted, once⟩ := walks_children visits stored printed below
  have wantedBelow (path : List ι) : path ∈ paths.map (p :: ·) ↔ path ≠ [p] ∧ Branch tree p path ∧
      HasHandler tree path := by
    rw [List.mem_map]
    constructor
    · rintro ⟨rest, member, rfl⟩
      obtain ⟨c, child, branch, handler⟩ := (wanted rest).mp member
      obtain ⟨c', rest, rfl⟩ := List.exists_cons_of_ne_nil (branch_ne_nil branch)
      exact ⟨by simp, branch_below positive child branch, (hasHandler_cons ..).mpr handler⟩
    · rintro ⟨longer, branch, handler⟩
      rcases branch_cases branch with rfl | ⟨c, rest, rfl, child, below⟩
      · exact absurd rfl longer
      · obtain ⟨c', rest, rfl⟩ := List.exists_cons_of_ne_nil (branch_ne_nil below)
        exact ⟨c' :: rest, (wanted _).mpr ⟨c, child, below, (hasHandler_cons ..).mp handler⟩, rfl⟩
  have lines : (paths.map (p :: ·)).map (fun path => lineOf tree (trail ++ path)) =
      paths.map fun path => lineOf tree (trail ++ [p] ++ path) := by
    rw [List.map_map]
    exact List.map_congr_left fun path _ => by rw [List.append_assoc]; rfl
  have onceBelow (registered : RegisteredOnce tree) : (paths.map (p :: ·)).Nodup :=
    (once ⟨registered, registered p⟩).map List.cons_injective
  have handler : HasHandler tree [p] ↔ (tree.param p).callback.isSome = true := by simp [HasHandler]
  have walked := @dumpAllCommands_stored _ tree p stored trail.length ⟨table, printed⟩ positive retokenized
  simp only [ran, bind, Except.bind] at walked
  by_cases handled : (tree.param p).callback.isSome = true
  · have count : trail.length + 1 = (trail ++ [p]).length := by rw [List.length_append, List.length_singleton]
    refine ⟨paths.map (p :: ·) ++ [[p]], after, ?_, trail_above held, fun path => ?_, fun registered => ?_⟩
    · rw [walked, if_pos handled, List.map_append, lines, ← List.append_assoc, count, printTokens_trail held]
      rfl
    · rw [List.mem_append, wantedBelow, List.mem_singleton]
      by_cases single : path = [p]
      · subst single
        exact iff_of_true (.inr rfl) ⟨branch_single.mpr positive, handler.mpr handled⟩
      · rw [or_iff_left single, and_iff_right single]
    · refine List.nodup_append.mpr ⟨onceBelow registered, List.nodup_singleton _,
        fun path here path' there same => ?_⟩
      exact ((wantedBelow path).mp here).1 (same.trans (List.mem_singleton.mp there))
  · refine ⟨paths.map (p :: ·), after, ?_, trail_above held, fun path => ?_, onceBelow⟩
    · rw [walked, if_neg handled, lines]
    · rw [wantedBelow]
      refine and_iff_right_of_imp fun command same => handled (handler.mp (same ▸ command.2))

/-- As long as no way down leaves the table. -/
theorem walks_branch (inside : ∀ path, Branch tree p path → trail.length + path.length ≤ maxCmdTreeDepth) :
    Walks tree trail (fun path => Branch tree p path ∧ HasHandler tree path) (RegisteredOnce tree)
      (tree.dumpAllCommands p trail.length) := by
  induction left : maxCmdTreeDepth - trail.length generalizing p trail with
  | zero =>
    by_cases negation : (tree.param p).cmdType = .noCmd
    · exact walks_negation negation
    · have here := inside [p] (branch_single.mpr negation)
      rw [List.length_singleton] at here
      omega
  | succ left ih =>
    by_cases negation : (tree.param p).cmdType = .noCmd
    · exact walks_negation negation
    · refine walks_positive negation (by omega) fun c child => ?_
      have count : (trail ++ [p]).length = trail.length + 1 := by rw [List.length_append, List.length_singleton]
      rw [← count]
      refine ih (fun path branch => ?_) (by rw [count]; omega)
      have further := inside (p :: path) (branch_below negation child branch)
      rw [List.length_cons] at further
      rw [count]
      omega

/-- A walk that ends has come to its end for every child. -/
theorem foldlM_ok {σ ε : Type*} {visit : σ → ι → Except ε σ} {s t : σ}
    (ran : children.foldlM visit s = .ok t) (member : c ∈ children) :
    ∃ s' t', visit s' c = .ok t' := by
  induction children generalizing s with
  | nil => cases member
  | cons c' children ih =>
    rw [List.foldlM_cons] at ran
    cases visited : visit s c' with
    | error e =>
      rw [visited] at ran
      cases ran
    | ok middle =>
      rw [visited] at ran
      rcases List.mem_cons.mp member with rfl | later
      · exact ⟨s, middle, visited⟩
      · exact ih ran later

/-- A way down that leaves the table is written behind it. -/
theorem dumpAllCommands_overflows {after : Dump} (branch : Branch tree p path)
    (long : maxCmdTreeDepth < index + path.length) :
    tree.dumpAllCommands p index dump ≠ .ok after := by
  induction path generalizing p index dump after with
  | nil => cases branch.head
  | cons p' rest ih =>
    intro ran
    have positive := branch.positive p (List.mem_of_mem_head? branch.head)
    cases stored : dump.table.retokenize (nameOf tree p) index with
    | error fault =>
      rw [dumpAllCommands_refused positive stored] at ran
      cases ran
    | ok table =>
      have inside := TokenTable.retokenize_inside stored
      rcases branch_cases branch with single | ⟨c, rest', split, child, below⟩
      · rw [single, List.length_singleton] at long
        omega
      · cases split
        rw [dumpAllCommands_stored positive stored] at ran
        cases walked : (tree.childOptions p').foldlM
          (fun dump child => tree.dumpAllCommands child (index + 1) dump) ⟨table, dump.printed⟩ with
        | error fault =>
          rw [walked] at ran
          cases ran
        | ok dump =>
          obtain ⟨s', t', visited⟩ := foldlM_ok walked child
          rw [List.length_cons] at long
          exact ih below (by omega) visited

theorem option_of_child (child : c ∈ tree.childOptions p) : c ∈ (tree.param p).options :=
  List.mem_of_mem_take (List.mem_of_mem_drop child)

/-- Nobody but a negation param and the `do` hook has children that are not its own. -/
theorem parent_of_child (child : c ∈ tree.childOptions p) (positive : (tree.param p).cmdType ≠ .noCmd)
    (other : p ≠ tree.doHook) (ordinary : c ∉ controls tree) : (tree.param c).parent = some p := by
  rcases tree.inner (option_of_child child) with control | registered | ⟨negation, _⟩ | ⟨same, _⟩
  · exact absurd control ordinary
  · exact registered
  · exact absurd negation positive
  · exact absurd same other

theorem doHook_apart (tree : CommandTree ι) : tree.root ≠ tree.doHook ∧ tree.doHook ∉ controls tree ∧
    tree.doHook ∉ [tree.showHook, tree.debugHook, tree.clearHook] := by
  have apart := tree.apart
  simp only [controls, List.nodup_cons, List.mem_cons, List.not_mem_nil, or_false, not_or] at apart ⊢
  obtain ⟨root, doHook, _⟩ := apart
  obtain ⟨show_, debug, _, clear, _, extension, mode, suboptions, expansion⟩ := doHook
  exact ⟨root.1, ⟨extension, mode, suboptions, expansion⟩, show_, debug, clear⟩

theorem doHook_no_child (child : c ∈ tree.childOptions p) (positive : (tree.param p).cmdType ≠ .noCmd) :
    c ≠ tree.doHook := by
  rintro rfl
  rcases tree.inner (option_of_child child) with control | registered | ⟨negation, _⟩ | ⟨_, hook⟩
  · exact (doHook_apart tree).2.1 control
  · cases registered.symm.trans tree.doHook_top
  · exact positive negation
  · exact (doHook_apart tree).2.2 hook

/-- The last step of a way down: the param above it has children of its own. -/
theorem branch_last (branch : Branch tree p (rest ++ [q] ++ [c])) : Branch tree p (rest ++ [q]) ∧
    c ∈ tree.childOptions q := by
  have chain := branch.child
  rw [List.append_assoc, List.singleton_append, List.isChain_append_cons_cons] at chain
  refine ⟨⟨?_, chain.1, fun r member => branch.positive r (List.mem_append_left _ member)⟩, chain.2.1⟩
  rw [← branch.head]
  cases rest <;> rfl

theorem not_control_of_child (child : c ∈ tree.childOptions q) : q ∉ controls tree := by
  intro control
  have option := option_of_child child
  rw [tree.barren q control] at option
  cases option

theorem branch_ne_doHook (branch : Branch tree tree.root (rest ++ [q])) : q ≠ tree.doHook := by
  rcases List.eq_nil_or_concat' rest with rfl | ⟨rest, r, rfl⟩
  · cases branch.head
    exact (doHook_apart tree).1
  · exact doHook_no_child (branch_last branch).2 (branch.positive r (by simp))

theorem branch_unique (branch : Branch tree tree.root path) (branch' : Branch tree tree.root path')
    (same : path.getLast? = path'.getLast?) (ordinary : ∀ q ∈ path.getLast?, q ∉ controls tree) :
    path = path' := by
  induction path using List.reverseRecOn generalizing path' with
  | nil => cases branch.head
  | append_singleton rest q ih =>
    obtain ⟨rest', q', rfl⟩ := (List.eq_nil_or_concat' path').resolve_left (branch_ne_nil branch')
    rw [List.getLast?_concat, List.getLast?_concat] at same
    obtain rfl := Option.some.inj same
    have own : q ∉ controls tree := ordinary q List.getLast?_concat
    -- the param above it, if there is one, is the one it points back to
    have above {rest : List ι} {r : ι} (branch : Branch tree tree.root (rest ++ [r] ++ [q])) :
        (tree.param q).parent = some r :=
      parent_of_child (branch_last branch).2
        (branch.positive r (by simp)) (branch_ne_doHook (branch_last branch).1) own
    rcases List.eq_nil_or_concat' rest with rfl | ⟨rest, r, rfl⟩ <;> rcases List.eq_nil_or_concat'
      rest' with rfl | ⟨rest', r', rfl⟩
    · rfl
    · cases branch.head
      cases (above branch').symm.trans tree.root_top
    · cases branch'.head
      cases (above branch).symm.trans tree.root_top
    · obtain rfl := Option.some.inj ((above branch).symm.trans (above branch'))
      have last : (rest ++ [r]).getLast? =
          (rest' ++ [r]).getLast? := by rw [List.getLast?_concat, List.getLast?_concat]
      rw [ih (branch_last branch).1 (branch_last branch').1 last fun r' member => ?_]
      rw [List.getLast?_concat] at member
      cases member
      exact not_control_of_child (branch_last branch).2

/-- What the walk from the root prints lists the commands, if no way down is longer than the table. -/
theorem dumpAllCommands_iff (tree : CommandTree ι) (table : TokenTable) :
    (∃ dump, tree.dumpAllCommands tree.root 0 ⟨table, []⟩ = .ok dump ∧ Lists tree dump.printed) ↔
      ∀ path, Branch tree tree.root path → path.length ≤ maxCmdTreeDepth := by
  constructor
  · rintro ⟨dump, ran, _⟩ path branch
    by_contra long
    exact dumpAllCommands_overflows branch (by omega) ran
  · intro inside
    have walks : Walks tree [] _ _ (tree.dumpAllCommands tree.root 0) := walks_branch fun path branch =>
      (Nat.zero_add path.length).trans_le (inside path branch)
    obtain ⟨paths, after, ran, _, wanted, once⟩ := walks table [] rfl
    refine ⟨_, ran, paths, List.nil_append _, wanted, once, fun path member path' member' same ordinary => ?_⟩
    exact branch_unique ((wanted path).mp member).1 ((wanted path').mp member').1 same ordinary

/-- Fifteen commands below `run`, one under the other. -/
def nested : Application (Fin 15) where
  param k :=
    { cmdType := LibParam.cmd ['n']
      callback := if k = 14 then some .application else none
      options := if k = 14 then [] else [.inl .modeParam, .inl .suboptionsParam,
        .inl .cmdExpansionParam, .inr (k + 1)]
      parent := some (if k = 0 then .inl .runHook else .inr (k - 1)) }
  children p := if p = .runHook then [0] else []
  depth k := k.val + 2
  registered := by
    intro p k child
    cases p <;> cases child
    · rfl
    · contradiction
  childless := by decide
  hooked := by
    intro p
    cases p <;> decide
  descends := by
    intro k q parent
    cases parent
    revert k
    decide
  inner := by
    intro k c member
    by_cases last : k = 14
    · simp only [if_pos last, List.not_mem_nil] at member
    · simp only [if_neg last, List.mem_cons, List.not_mem_nil, or_false] at member
      rcases member with rfl | rfl | rfl | rfl
      · exact .inl (by simp)
      · exact .inl (by simp)
      · exact .inl (by simp)
      · refine .inr (.inl ⟨k + 1, rfl, ?_⟩)
        revert k
        decide
  negates := by
    intro k negation
    cases negation
  capabilities := by
    intro k parent _
    refine ⟨[.inr (k + 1)], if_neg fun last => parent (if_pos last)⟩
  callbacks := by decide

theorem nested_child {k : Fin 15} (inner : k ≠ 14) : .inr (k + 1) ∈ nested.tree.childOptions (.inr k) := by
  have options : (nested.tree.param (.inr k)).options =
      [.inl .modeParam, .inl .suboptionsParam, .inl .cmdExpansionParam, .inr (k + 1)] := if_neg inner
  rw [childOptions, options]
  exact List.mem_singleton.mpr rfl

theorem nested_branch :
    Branch nested.tree nested.tree.root (.inl .root :: .inl .runHook :: (List.finRange 15).map .inr) := by
  have hook : LibParam.runHook ∈ ((LibParam.param .root).options.take maxOptionSize).drop
      childrenStartIndex := by decide
  have run : .inl .runHook ∈ nested.tree.childOptions (.inl .root) := List.mem_map_of_mem hook
  have first : .inr 0 ∈ nested.tree.childOptions (.inl .runHook) :=
    List.mem_append_right [Sum.inl LibParam.terminate, Sum.inl LibParam.runUt] (List.mem_singleton.mpr rfl)
  have successive : (List.finRange 15).IsChain fun k c => k ≠ 14 ∧ c = k + 1 := by decide
  have chain : ((List.finRange 15).map Sum.inr).IsChain fun q c => c ∈ nested.tree.childOptions q := by
    refine (List.isChain_map Sum.inr).mpr (successive.imp ?_)
    rintro k _ ⟨inner, rfl⟩
    exact nested_child inner
  refine ⟨rfl, List.isChain_cons_cons.mpr ⟨run, List.isChain_cons_cons.mpr ⟨first, chain⟩⟩,
    fun q _ => ?_⟩
  cases q with
  | inl p => exact LibParam.notNegation p
  | inr k =>
    intro negation
    cases negation

/-- A command sixteen levels below the root, which no param is further away from, is written behind the slots. -/
theorem dumpAllCommands_overruns :
    (∀ p, nested.tree.depth p ≤ nested.tree.depth nested.tree.root + maxCmdTreeDepth) ∧
      ∀ table, ¬ ∃ dump, nested.tree.dumpAllCommands nested.tree.root 0 ⟨table, []⟩ = .ok dump ∧
      Lists nested.tree dump.printed := by
  constructor
  · intro p
    cases p with
    | inl p => cases p <;> decide
    | inr k => revert k; decide
  · rintro table ⟨dump, ran, _⟩
    exact dumpAllCommands_overflows nested_branch (by decide) ran

end TcpServerLib.Soundness
