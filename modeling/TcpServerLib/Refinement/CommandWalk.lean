import TcpServerLib.Model.CommandParser
import TcpServerLib.Refinement.SerializedBuffer

/-! # Walks down the command tree

The leaves on the path of a param are what a mode at that param stands for. A walk of
`build_tlv_buffer` from one param to another collects exactly the leaves that the second path has
beyond the first; a negation param lies on no path of its children and makes no difference.
-/

namespace TcpServerLib.Refinement

open Machine Model CommandTree

variable {ι : Type*} {tree : CommandTree ι} {outside : Outside} {p q c : ι} {cli after : Cli ι}

variable (tree) in
/-- Induction along `parent`. -/
theorem parent_induction {P : ι → Prop} (top : ∀ p, (tree.param p).parent = none → P p)
    (child : ∀ p q, (tree.param p).parent = some q → P q → P p) (p : ι) : P p := by
  generalize level : tree.depth p = depth
  induction depth using Nat.strong_induction_on generalizing p with
  | _ depth ih =>
    cases registered : (tree.param p).parent with
    | none => exact top p registered
    | some q =>
      have lower := tree.descends registered
      exact child p q registered (ih _ (by omega) q rfl)

/-- The params above `p`, the uppermost first, and `p` itself. -/
def lineage (tree : CommandTree ι) : ℕ → ι → List ι
  | 0, p => [p]
  | fuel + 1, p =>
    match (tree.param p).parent with
    | none => [p]
    | some q => lineage tree fuel q ++ [p]

/-- The params from the top of the tree down to `p`. -/
def path (tree : CommandTree ι) (p : ι) : List ι :=
  lineage tree (tree.depth p) p

theorem path_top (top : (tree.param p).parent = none) : path tree p = [p] := by
  rw [path]
  cases tree.depth p with
  | zero => rfl
  | succ => rw [lineage, top]

/-- A registered param stands behind its parent. -/
theorem path_parent (registered : (tree.param p).parent = some q) : path tree p = path tree q ++ [p] := by
  rw [path, tree.descends registered, lineage, registered]
  rfl

theorem depth_path (p : ι) : ∀ r ∈ path tree p, tree.depth r ≤ tree.depth p := by
  induction p using parent_induction tree with
  | top p top =>
    intro r member
    rw [path_top top, List.mem_singleton] at member
    rw [member]
  | child p q registered ih =>
    intro r member
    rw [path_parent registered, List.mem_append, List.mem_singleton] at member
    rcases member with above | rfl
    · have lower := tree.descends registered
      have higher := ih r above
      omega
    · exact Nat.le_refl _

/-- No param stands above itself. -/
theorem path_nodup (p : ι) : (path tree p).Nodup := by
  induction p using parent_induction tree with
  | top p top =>
    rw [path_top top]
    exact List.nodup_singleton p
  | child p q registered ih =>
    rw [path_parent registered, List.nodup_append]
    refine ⟨ih, List.nodup_singleton p, ?_⟩
    rintro r above s this rfl
    rw [List.mem_singleton] at this
    have lower := tree.descends registered
    have higher := depth_path q r above
    rw [this] at higher
    omega

/-- Climbing from a param visits its path. -/
theorem path_ancestry [DecidableEq ι] {visited : List ι} (climbed : tree.ancestry p = .ok visited) :
    path tree p = tree.root :: visited.reverse := by
  induction p using parent_induction tree generalizing visited with
  | top p top =>
    by_cases root : p = tree.root
    · rw [root, ancestry_root] at climbed
      cases climbed
      rw [path_top top, root]
      rfl
    · rw [ancestry_top root top] at climbed
      cases climbed
  | child p q registered ih =>
    rw [ancestry_parent registered] at climbed
    cases above : tree.ancestry q with
    | error fault =>
      rw [above] at climbed
      cases climbed
    | ok visited' =>
      rw [above] at climbed
      cases climbed
      rw [path_parent registered, ih above, List.reverse_cons, List.cons_append]

/-- The leaves among them. -/
def leafPath (tree : CommandTree ι) (p : ι) : List ι :=
  (path tree p).filter tree.isLeaf

variable (tree) in
theorem leafPath_nodup (p : ι) : (leafPath tree p).Nodup :=
  (path_nodup p).filter _

theorem leafPath_top (top : (tree.param p).parent = none) (command : tree.isLeaf p = false) :
    leafPath tree p = [] := by
  rw [leafPath, path_top top,
    List.filter_cons_of_neg (by rw [command]; exact Bool.false_ne_true), List.filter_nil]

theorem leafPath_parent (registered : (tree.param p).parent = some q) :
    leafPath tree p = leafPath tree q ++ [p].filter tree.isLeaf := by
  rw [leafPath, path_parent registered, List.filter_append]
  rfl

/-- The params with a part of their own in every tree. -/
def named (tree : CommandTree ι) : List ι :=
  [tree.root, tree.doHook, tree.showHook, tree.debugHook, tree.configHook, tree.clearHook, tree.repeatHook,
    tree.showBriefExtension, tree.modeParam, tree.suboptionsParam, tree.cmdExpansionParam]

theorem isLeaf_named (member : p ∈ named tree) : tree.isLeaf p = false := by
  obtain ⟨name, command⟩ := tree.named p member
  rw [isLeaf, command]

@[simp] theorem leafPath_root : leafPath tree tree.root = [] :=
  leafPath_top tree.root_top (isLeaf_named List.mem_cons_self)

@[simp] theorem leafPath_doHook : leafPath tree tree.doHook = [] :=
  leafPath_top tree.doHook_top (isLeaf_named (List.mem_cons_of_mem _ List.mem_cons_self))

/-- There is no leaf above a hook. -/
theorem leafPath_hook
    (hook : p ∈ [tree.showHook, tree.debugHook, tree.configHook, tree.clearHook, tree.repeatHook]) :
    leafPath tree p = [] := by
  have command : tree.isLeaf p = false := isLeaf_named (by
    simp only [named, List.mem_cons, List.not_mem_nil, or_false] at hook ⊢
    tauto)
  rw [leafPath_parent (tree.hooks p hook), leafPath_root,
    List.filter_cons_of_neg (by rw [command]; exact Bool.false_ne_true)]
  rfl

/-- The ancestry that the code climbs, read from the top. -/
theorem leafPath_ancestry [DecidableEq ι] {visited : List ι} (climbed : tree.ancestry p = .ok visited) :
    leafPath tree p = (visited.filter tree.isLeaf).reverse := by
  rw [leafPath, path_ancestry climbed, List.filter_cons_of_neg (by
    rw [isLeaf_named List.mem_cons_self]; exact Bool.false_ne_true), List.filter_reverse]

/-- The params that no command goes beyond. -/
def controls (tree : CommandTree ι) : List ι :=
  [tree.showBriefExtension, tree.modeParam, tree.suboptionsParam, tree.cmdExpansionParam]

theorem named_of_control (control : p ∈ controls tree) : p ∈ named tree :=
  List.mem_append_right [tree.root, tree.doHook, tree.showHook, tree.debugHook, tree.configHook, tree.clearHook,
    tree.repeatHook] control

/-- An option adds itself to the leaves, if it is one. -/
theorem leafPath_option (option : c ∈ (tree.param p).options) (ordinary : c ∉ controls tree) :
    leafPath tree c = leafPath tree p ++ [c].filter tree.isLeaf := by
  rcases tree.inner option with control | registered | ⟨negation, shared⟩ | ⟨rfl, hook⟩
  · exact absurd control ordinary
  · exact leafPath_parent registered
  · obtain ⟨q, registered, _⟩ := tree.negates negation
    have unvalued : tree.isLeaf p = false := by rw [isLeaf, negation]
    rw [leafPath_parent (shared.trans registered), leafPath_parent registered,
      List.filter_cons_of_neg (a := p)
      (by rw [unvalued]; exact Bool.false_ne_true), List.filter_nil, List.append_nil]
  · have among : c ∈ [tree.showHook, tree.debugHook, tree.configHook, tree.clearHook, tree.repeatHook] := by
      simp only [List.mem_cons, List.not_mem_nil, or_false] at hook ⊢
      tauto
    have command : tree.isLeaf c = false := isLeaf_named (by
      simp only [named, List.mem_cons, List.not_mem_nil, or_false] at hook ⊢
      tauto)
    rw [leafPath_hook among, leafPath_doHook, List.filter_cons_of_neg (by rw [command]; exact Bool.false_ne_true)]
    rfl

/-- An ordinary option is registered under a parent. -/
theorem parent_option (option : c ∈ (tree.param p).options) (ordinary : c ∉ controls tree) :
    ∃ q, (tree.param c).parent = some q := by
  rcases tree.inner option with control | registered | ⟨negation, shared⟩ | ⟨_, hook⟩
  · exact absurd control ordinary
  · exact ⟨p, registered⟩
  · obtain ⟨q, registered, _⟩ := tree.negates negation
    exact ⟨q, shared.trans registered⟩
  · refine ⟨tree.root, tree.hooks c ?_⟩
    simp only [List.mem_cons, List.not_mem_nil, or_false] at hook ⊢
    tauto

theorem ne_root_of_option (option : c ∈ (tree.param p).options) (ordinary : c ∉ controls tree) :
    c ≠ tree.root := by
  rintro rfl
  obtain ⟨q, registered⟩ := parent_option option ordinary
  cases registered.symm.trans tree.root_top

/-- The leaf that is kept is one of the options, and so are the possibilities, which begin with the
token. -/
theorem scanOptions_mem {token : Token} {options possibilities possibilities' : List ι} {leaf leaf' : Option ι}
    (scanned : tree.scanOptions token options leaf possibilities = .ok (leaf', possibilities')) :
    (∀ r, leaf' = some r → leaf = some r ∨ r ∈ options ∧ (tree.param r).cmdType.cmdName = none) ∧
      ∀ r ∈ possibilities', r ∈ possibilities ∨
        r ∈ options ∧ ∃ name, (tree.param r).cmdType.cmdName = some name ∧
        begins name token.bytes = true := by
  induction options generalizing leaf possibilities with
  | nil =>
    cases scanned
    exact ⟨fun _ same => .inl same, fun _ member => .inl member⟩
  | cons p options ih =>
    rw [scanOptions] at scanned
    split at scanned
    · next unnamed =>
      obtain ⟨leaves, commands⟩ := ih scanned
      refine ⟨fun r found => ?_, fun r member => (commands r member).imp_right
        (.imp_left (List.mem_cons_of_mem _))⟩
      rcases leaves r found with same | ⟨later, leaf⟩
      · cases same
        exact .inr ⟨List.mem_cons_self, unnamed⟩
      · exact .inr ⟨List.mem_cons_of_mem _ later, leaf⟩
    · next name called =>
      split at scanned
      · next matching =>
        split at scanned
        · cases scanned
          refine ⟨fun r same => .inl same, fun r member => ?_⟩
          rw [List.mem_singleton.mp member]
          exact .inr ⟨List.mem_cons_self, name, called, matching⟩
        · split at scanned
          · obtain ⟨leaves, commands⟩ := ih scanned
            refine ⟨fun r found => (leaves r found).imp_right (.imp_left (List.mem_cons_of_mem _)),
              fun r member => ?_⟩
            rcases commands r member with added | ⟨later, named⟩
            · rcases List.mem_append.mp added with before | this
              · exact .inl before
              · rw [List.mem_singleton.mp this]
                exact .inr ⟨List.mem_cons_self, name, called, matching⟩
            · exact .inr ⟨List.mem_cons_of_mem _ later, named⟩
          · cases scanned
      · obtain ⟨leaves, commands⟩ := ih scanned
        exact ⟨fun r found => (leaves r found).imp_right (.imp_left (List.mem_cons_of_mem _)),
          fun r member => (commands r member).imp_right (.imp_left (List.mem_cons_of_mem _))⟩

/-- What is found is an option; a command that is found begins with the token. -/
theorem findMatchingParam_found {options : List ι} {token : Token} {asked asked' : ℕ} {next : ι}
    (found : tree.findMatchingParam outside options token asked = .ok (some next, asked')) :
    next ∈ options ∧ ∀ name, (tree.param next).cmdType.cmdName = some name →
      begins name token.bytes = true := by
  have command {leaf possibilities} (scanned : tree.scanOptions token options none [] = .ok (leaf, possibilities))
      (member : next ∈ possibilities) :
      next ∈ options ∧ ∀ name, (tree.param next).cmdType.cmdName = some name →
        begins name token.bytes = true := by
    rcases (scanOptions_mem scanned).2 next member with none | ⟨option, name, called, matching⟩
    · exact absurd none List.not_mem_nil
    · exact ⟨option, fun name' called' => Option.some.inj (called.symm.trans called') ▸ matching⟩
  rw [findMatchingParam] at found
  split at found
  · cases found
  · next scanned =>
    injection found with pair
    injection pair with leaf _
    rcases (scanOptions_mem scanned).1 next leaf with none | ⟨option, unnamed⟩
    · cases none
    · exact ⟨option, fun name called => by cases unnamed.symm.trans called⟩
  · next scanned =>
    cases found
    exact command scanned List.mem_cons_self
  · next scanned =>
    split at found
    · cases found
    · injection found with pair
      injection pair with chosen _
      exact command scanned (List.mem_of_getElem? chosen)

/-- The param found is one of the options. -/
theorem findMatchingParam_mem {options : List ι} {token : Token} {asked asked' : ℕ} {next : ι}
    (found : tree.findMatchingParam outside options token asked = .ok (some next, asked')) : next ∈ options :=
  (findMatchingParam_found found).1

/-- A walk from `p` to `q` has turned `cli` into `after`, collecting `leaves`. -/
structure Collected (tree : CommandTree ι) (p : ι) (cli : Cli ι) (q : ι) (after : Cli ι)
    (leaves : List ι) : Prop where
  cursor : after.cursor = cli.cursor
  checkpoint : after.tlvBuff.checkpoint = cli.tlvBuff.checkpoint
  invoked : after.invoked = cli.invoked
  path : leafPath tree q = leafPath tree p ++ leaves
  contents : after.tlvBuff.contents = cli.tlvBuff.contents ++ encoded (leaves.map (tree.tlvOf after.valueHolder))
  values : ∀ r, r ∉ leaves → after.valueHolder r = cli.valueHolder r
  below : q = p ∨ q ≠ tree.root

theorem tlvOf_congr {values values' : ι → Value} {leaves : List ι}
    (same : ∀ r ∈ leaves, values r = values' r) :
    leaves.map (tree.tlvOf values) = leaves.map (tree.tlvOf values') :=
  List.map_congr_left fun r member => by rw [tlvOf, tlvOf, same r member]

namespace Collected

variable {middle : Cli ι} {leaves more : List ι}

theorem asked (p : ι) (cli : Cli ι) (asked : ℕ) : Collected tree p cli p { cli with asked } [] where
  cursor := rfl
  checkpoint := rfl
  invoked := rfl
  path := (List.append_nil _).symm
  contents := (List.append_nil _).symm
  values _ _ := rfl
  below := .inl rfl

theorem refl (p : ι) (cli : Cli ι) : Collected tree p cli p cli [] :=
  asked p cli cli.asked

/-- No leaf is collected twice, since no param lies twice on a path. -/
theorem trans (first : Collected tree p cli c middle leaves) (second : Collected tree c middle q after more) :
    Collected tree p cli q after (leaves ++ more) where
  cursor := second.cursor.trans first.cursor
  checkpoint := second.checkpoint.trans first.checkpoint
  invoked := second.invoked.trans first.invoked
  path := by rw [second.path, first.path, List.append_assoc]
  contents := by
    have distinct := leafPath_nodup tree q
    rw [second.path, first.path, List.nodup_append] at distinct
    have kept : leaves.map (tree.tlvOf middle.valueHolder) = leaves.map (tree.tlvOf after.valueHolder) := by
      refine tlvOf_congr fun r member => (second.values r fun again => ?_).symm
      exact distinct.2.2 r (List.mem_append_right _ member) r again rfl
    rw [second.contents, first.contents, kept, List.map_append, encoded_append, List.append_assoc]
  values r outside := by
    rw [List.mem_append, not_or] at outside
    rw [second.values r outside.2, first.values r outside.1]
  below := by
    rcases second.below with rfl | below
    · exact first.below
    · exact .inr below

/-- A command collects nothing. -/
theorem command {asked : ℕ} (option : c ∈ (tree.param p).options) (ordinary : c ∉ controls tree)
    (command : tree.isLeaf c = false) : Collected tree p cli c { cli with asked } [] where
  cursor := rfl
  checkpoint := rfl
  invoked := rfl
  path := by rw [leafPath_option option ordinary,
    List.filter_cons_of_neg (by rw [command]; exact Bool.false_ne_true)]; rfl
  contents := (List.append_nil _).symm
  values _ _ := rfl
  below := .inr (ne_root_of_option option ordinary)

/-- A leaf collects its value. -/
theorem leaf [DecidableEq ι] {asked : ℕ} {leafType : LeafType} {leafId : LeafId}
    {userValidation : Option (Bytes → Bool)} {token : Token}
    (option : c ∈ (tree.param p).options) (ordinary : c ∉ controls tree)
    (leaf : (tree.param c).cmdType = .leaf leafType leafId userValidation) :
    Collected tree p cli c ({ cli with asked }.collectLeaf c leafType leafId token) [c] where
  cursor := rfl
  checkpoint := rfl
  invoked := rfl
  path := by rw [leafPath_option option ordinary, List.filter_cons_of_pos (by rw [isLeaf, leaf])]; rfl
  contents := by
    have tlv : tree.tlvOf (Function.update cli.valueHolder c token.toCString) c =
        tlvOfLeaf leafType leafId token.toCString := by
      rw [tlvOf, leaf, Function.update_self]
    rw [List.map_singleton]
    simp only [Cli.collectLeaf]
    rw [tlv, contents_collectTlv, encoded_singleton]
  values r other := Function.update_of_ne (fun same => other (List.mem_singleton.mpr same)) _ _
  below := .inr (ne_root_of_option option ordinary)

end Collected

/-- How a walk from `p` can end. A command that ends at a control param is about the param before it. -/
def WalkEnds (tree : CommandTree ι) (parent : Option ι) (p : ι) (cli : Cli ι) : Walked ι → Prop
  | .stopped _ after => ∃ q leaves, Collected tree p cli q after leaves
  | .arrived parent' q _ after =>
    (∃ leaves, Collected tree p cli q after leaves ∧ (q ∉ controls tree ∨ q = p ∧ parent' = parent)) ∨
      q ∈ controls tree ∧ ∃ r leaves, parent' = some r ∧ q ∈ (tree.param r).options ∧
      Collected tree p cli r after leaves

/-- What holds from the next param on holds from this one on. -/
theorem WalkEnds.goOn {parent : Option ι} {middle : Cli ι} {walked : Walked ι} {leaves : List ι}
    (ends : WalkEnds tree (some p) c middle walked) (first : Collected tree p cli c middle leaves)
    (ordinary : c ∉ controls tree) : WalkEnds tree parent p cli walked := by
  cases walked with
  | stopped =>
    obtain ⟨q, more, second⟩ := ends
    exact ⟨q, leaves ++ more, first.trans second⟩
  | arrived =>
    rcases ends with ⟨more, second, final⟩ | ⟨control, r, more, last, option, second⟩
    · refine .inl ⟨leaves ++ more, first.trans second, .inl ?_⟩
      rcases final with other | ⟨rfl, _⟩
      · exact other
      · exact ordinary
    · exact .inr ⟨control, r, leaves ++ more, last, option, first.trans second⟩

/-- By induction on the tokens. -/
theorem walk_ends [DecidableEq ι] {tokens : List Token} {parent : Option ι} {mode : OpMode} {walked : Walked ι}
    (walks : tree.walk outside tokens parent p mode cli = .ok walked) : WalkEnds tree parent p cli walked := by
  induction tokens generalizing parent p mode cli with
  | nil =>
    cases walks
    exact .inl ⟨[], .refl p cli, .inr ⟨rfl, rfl⟩⟩
  | cons token tokens ih =>
    rw [walk] at walks
    split at walks
    · cases walks
    · next asked _ =>
      cases walks
      exact ⟨p, [], .asked p cli asked⟩
    · next c asked found =>
      have option := findMatchingParam_mem found
      by_cases control : c ∈ controls tree
      · have command : tree.isLeaf c = false := isLeaf_named (named_of_control control)
        have barren := tree.barren c control
        obtain ⟨name, cmdType⟩ := tree.named c (named_of_control control)
        rw [cmdType] at walks
        dsimp only at walks
        cases tokens with
        | nil =>
          cases walks
          exact .inr ⟨control, p, [], rfl, option, .asked p cli asked⟩
        | cons token' tokens' =>
          rw [walk, barren] at walks
          cases walks
          exact ⟨p, [], .asked p cli asked⟩
      · split at walks
        · next leafType leafId userValidation cmdType =>
          split at walks
          · cases walks
          · cases walks
            exact ⟨p, [], .asked p cli asked⟩
          · split at walks
            · exact WalkEnds.goOn (ih walks) (.leaf option control cmdType) control
            · cases walks
              exact ⟨p, [], .asked p cli asked⟩
        · next cmdType =>
          exact WalkEnds.goOn (ih walks) (.command option control (by rw [isLeaf, cmdType])) control
        · next cmdType =>
          exact WalkEnds.goOn (ih walks) (.command option control (by rw [isLeaf, cmdType])) control

/-- The token can be taken by the param. -/
def Accepts (tree : CommandTree ι) (p : ι) (token : Token) : Prop :=
  match (tree.param p).cmdType with
  | .leaf leafType _ userValidation =>
    leafHandler leafType token.bytes = .ok true ∧ userValidates userValidation token.bytes = true
  | _ => True

/-- The tokens lead from a param along a path, with values that pass validation, while the user is
asked the questions from `asked` to `asked'`. -/
inductive Resolves (tree : CommandTree ι) (outside : Outside) : ℕ → ι → List Token →
    List ι → ℕ → Prop
  | nil (asked : ℕ) (p : ι) : Resolves tree outside asked p [] [] asked
  | cons {asked between asked' : ℕ} {p c : ι} {token : Token} {tokens : List Token} {path : List ι}
    (found : tree.findMatchingParam outside (tree.param p).options token asked = .ok (some c, between))
    (accepts : Accepts tree c token) (rest : Resolves tree outside between c tokens path asked') :
    Resolves tree outside asked p (token :: tokens) (c :: path) asked'

/-- The leaves of a path with the values that are typed for them. -/
def typedTlvs (tree : CommandTree ι) : List ι → List Token → List Tlv
  | p :: path, token :: tokens =>
    match (tree.param p).cmdType with
    | .leaf leafType leafId _ => tlvOfLeaf leafType leafId token.toCString :: typedTlvs tree path tokens
    | _ => typedTlvs tree path tokens
  | _, _ => []

/-- What the loop of `build_tlv_buffer` has made of the mode. -/
def pathMode (tree : CommandTree ι) (mode : OpMode) (path : List ι) : OpMode :=
  if path.any tree.isNegation then .configDisable else mode

/-- The last param of a path. -/
def endOf (p : ι) (path : List ι) : ι :=
  path.getLastD p

/-- The param before it. -/
def lastParent (parent : Option ι) (p : ι) : List ι → Option ι
  | [] => parent
  | c :: path => lastParent (some p) c path

/-- `after` is where a walk with these TLVs leaves the parser. -/
structure CollectedTlvs (cli : Cli ι) (tlvs : List Tlv) (asked : ℕ) (after : Cli ι) : Prop where
  cursor : after.cursor = cli.cursor
  checkpoint : after.tlvBuff.checkpoint = cli.tlvBuff.checkpoint
  invoked : after.invoked = cli.invoked
  asked : after.asked = asked
  contents : after.tlvBuff.contents = cli.tlvBuff.contents ++ encoded tlvs

theorem CollectedTlvs.cons {cli middle after : Cli ι} {tlvs : List Tlv} {asked : ℕ} {tlv : Tlv}
    (rest : CollectedTlvs middle tlvs asked after) (cursor : middle.cursor = cli.cursor)
    (invoked : middle.invoked = cli.invoked) (buffer : middle.tlvBuff = collectTlv cli.tlvBuff tlv) :
    CollectedTlvs cli (tlv :: tlvs) asked after where
  cursor := rest.cursor.trans cursor
  checkpoint := by rw [rest.checkpoint, buffer, checkpoint_collectTlv]
  invoked := rest.invoked.trans invoked
  asked := rest.asked
  contents := by rw [rest.contents, buffer, contents_collectTlv, List.append_assoc]; rfl

theorem CollectedTlvs.later {tlvs : List Tlv} {between asked : ℕ}
    (rest : CollectedTlvs { cli with asked := between } tlvs asked after) : CollectedTlvs cli tlvs asked after :=
  ⟨rest.cursor, rest.checkpoint, rest.invoked, rest.asked, rest.contents⟩

/-- A resolved path is the one that the walk takes, with the TLVs of its leaves. -/
theorem walk_resolves [DecidableEq ι] {tokens : List Token} {path : List ι} {asked asked' : ℕ}
    (resolves : Resolves tree outside asked p tokens path asked') (parent : Option ι) (mode : OpMode)
    {cli : Cli ι} (counted : cli.asked = asked) :
    ∃ after, tree.walk outside tokens parent p mode cli =
        .ok (.arrived (lastParent parent p path) (endOf p path) (pathMode tree mode path) after) ∧
      CollectedTlvs cli (typedTlvs tree path tokens) asked' after := by
  induction resolves generalizing parent mode cli with
  | nil => exact ⟨cli, rfl, rfl, rfl, rfl, counted, (List.append_nil _).symm⟩
  | @cons asked between asked' p c token tokens path found accepts rest ih =>
    rw [walk, counted, found]
    dsimp only
    rw [Accepts] at accepts
    have ends : endOf p (c :: path) = endOf c path := List.getLastD_cons ..
    split
    · next leafType leafId userValidation leaf =>
      rw [leaf] at accepts
      obtain ⟨after, walks, collected⟩ :=
        @ih (some p) mode ({ cli with asked := between }.collectLeaf c leafType leafId token) rfl
      rw [accepts.1]
      dsimp only
      rw [if_pos accepts.2, walks, ends, pathMode, pathMode, List.any_cons, isNegation, leaf, typedTlvs, leaf]
      exact ⟨after, rfl, collected.cons rfl rfl rfl⟩
    · next negation =>
      obtain ⟨after, walks, collected⟩ := @ih (some p) .configDisable { cli with asked := between } rfl
      rw [walks, ends, pathMode, pathMode, List.any_cons, isNegation, negation, typedTlvs, negation, ite_self]
      exact ⟨after, rfl, collected.later⟩
    · next name command =>
      obtain ⟨after, walks, collected⟩ := @ih (some p) mode { cli with asked := between } rfl
      rw [walks, ends, pathMode, pathMode, List.any_cons, isNegation, command, typedTlvs, command]
      exact ⟨after, rfl, collected.later⟩

/-- A line that ends on an ordinary param is handed to its handler or is complete. -/
theorem dispatch_ordinary [DecidableEq ι] {parent : Option ι} {h : ι} {mode : OpMode}
    (ordinary : p ∉ controls tree) (branch : tree.getCurrentBranchHook p = .ok h) :
    tree.dispatch parent p mode cli = .ok ⟨.complete,
      if h ≠ tree.repeatHook ∧
        p ≠ tree.configHook then cli.collectTlv (commandCodeTlv (tree.param p).cmdCode) else cli,
      some (p, tree.commandMode h mode)⟩ := by
  simp only [controls, List.mem_cons, List.not_mem_nil, or_false, not_or] at ordinary
  unfold dispatch
  rw [if_neg ordinary.1, if_neg ordinary.2.2.1, if_neg ordinary.2.1, if_neg ordinary.2.2.2, branch]

end TcpServerLib.Refinement
