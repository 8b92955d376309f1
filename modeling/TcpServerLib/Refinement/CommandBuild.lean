import TcpServerLib.Refinement.CommandWalk

/-! # What a command does to the buffer

`build_tlv_buffer` either only adds to the buffer, or it enters a mode: then it marks the
checkpoint behind the leaves it has collected and moves the cursor. Everything else that changes
the cursor or the checkpoint is one of a few operations, with one lemma each.
-/

namespace TcpServerLib.Refinement

open Machine Model CommandTree

variable {ι : Type*} {tree : CommandTree ι} {outside : Outside} {tokens : List Token} {p : ι}
  {cli middle after : Cli ι} {leaves : List ι}

/-- The TLVs of the leaves above the cursor, with the values they hold. -/
def leavesData (tree : CommandTree ι) (cli : Cli ι) : Bytes :=
  encoded ((leafPath tree cli.cursor).map (tree.tlvOf cli.valueHolder))

/-- The cursor and the checkpoint stay, and so does what was in the buffer. -/
structure Appended (tree : CommandTree ι) (cli after : Cli ι) : Prop where
  cursor : after.cursor = cli.cursor
  checkpoint : after.tlvBuff.checkpoint = cli.tlvBuff.checkpoint
  contents : ∃ added, after.tlvBuff.contents = cli.tlvBuff.contents ++ added
  values : ∀ r ∈ leafPath tree cli.cursor, after.valueHolder r = cli.valueHolder r

/-- The mode of `p` has been entered: the checkpoint is behind the leaves, the command code behind
the checkpoint. -/
structure Entered (tree : CommandTree ι) (cli after : Cli ι) (p : ι) (leaves : List ι) : Prop where
  cursor : after.cursor = p
  path : leafPath tree p = leafPath tree cli.cursor ++ leaves
  contents : ∃ code, after.tlvBuff.contents =
    cli.tlvBuff.contents ++ encoded (leaves.map (tree.tlvOf after.valueHolder)) ++ code
  checkpoint : after.tlvBuff.checkpoint =
    (cli.tlvBuff.contents ++ encoded (leaves.map (tree.tlvOf after.valueHolder))).length
  values : ∀ r ∈ leafPath tree cli.cursor, after.valueHolder r = cli.valueHolder r

/-- The tokens lead to a param and end with the mode character. -/
def EntersMode [DecidableEq ι] (tree : CommandTree ι) (outside : Outside) (tokens : List Token)
    (cli : Cli ι) (p : ι) : Prop :=
  ∃ mode middle, tree.walk outside tokens none cli.cursor .modeUnknown cli =
    .ok (.arrived (some p) tree.modeParam mode middle)

theorem Collected.kept (collected : Collected tree cli.cursor cli p middle leaves) :
    ∀ r ∈ leafPath tree cli.cursor, middle.valueHolder r = cli.valueHolder r := by
  intro r member
  refine collected.values r fun again => ?_
  have distinct := leafPath_nodup tree p
  rw [collected.path, List.nodup_append] at distinct
  exact distinct.2.2 r member r again rfl

theorem Collected.appended (collected : Collected tree cli.cursor cli p middle leaves) :
    Appended tree cli middle where
  cursor := collected.cursor
  checkpoint := collected.checkpoint
  contents := ⟨_, collected.contents⟩
  values := collected.kept

namespace Appended

theorem collectTlv (appended : Appended tree cli middle) (tlv : Tlv) :
    Appended tree cli (middle.collectTlv tlv) where
  cursor := appended.cursor
  checkpoint := appended.checkpoint
  contents := by
    obtain ⟨added, contents⟩ := appended.contents
    refine ⟨added ++ tlv.encode, ?_⟩
    rw [← List.append_assoc, ← contents]
    exact contents_collectTlv middle.tlvBuff tlv
  values := appended.values

theorem invoke (appended : Appended tree cli middle) (p : ι) (buffer : Option SerBuff) (mode : OpMode) :
    Appended tree cli (middle.invoke p buffer mode) :=
  ⟨appended.cursor, appended.checkpoint, appended.contents, appended.values⟩

theorem refl (cli : Cli ι) : Appended tree cli cli :=
  ⟨rfl, rfl, ⟨[], (List.append_nil _).symm⟩, fun _ _ => rfl⟩

end Appended

theorem modeParam_control : tree.modeParam ∈ controls tree :=
  List.mem_cons_of_mem _ List.mem_cons_self

/-- The mode characters of the dispatch are all different. -/
theorem modeParam_apart : tree.modeParam ≠ tree.showBriefExtension ∧
    tree.modeParam ≠ tree.suboptionsParam := by
  have apart := tree.apart
  simp only [List.nodup_cons, List.mem_cons, List.not_mem_nil, or_false, not_or] at apart
  exact ⟨fun same => apart.2.2.2.2.2.2.2.1.1 same.symm, apart.2.2.2.2.2.2.2.2.1.1⟩

variable [DecidableEq ι]

theorem dispatch_mode {parent : ι} {mode : OpMode} {built : Built ι}
    (dispatched : tree.dispatch (some parent) tree.modeParam mode cli = .ok built) :
    ∃ mode', tree.modeEnterCallback parent mode'
      (cli.markCheckpoint.collectTlv (commandCodeTlv (tree.param parent).cmdCode)) =
        .ok (built.cli, built.call) := by
  unfold dispatch at dispatched
  rw [if_neg modeParam_apart.1, if_neg modeParam_apart.2, if_pos rfl] at dispatched
  dsimp only at dispatched
  split at dispatched
  · cases dispatched
  · next entered =>
    cases dispatched
    exact ⟨_, entered⟩

/-- The dispatch only adds to the buffer, unless it enters a mode. -/
theorem dispatch_appended {parent : Option ι} {mode : OpMode} {built : Built ι} (other : p ≠ tree.modeParam)
    (appended : Appended tree cli middle) (dispatched : tree.dispatch parent p mode middle = .ok built) :
    Appended tree cli built.cli := by
  unfold dispatch at dispatched
  split at dispatched
  · split at dispatched
    · cases dispatched
    · split at dispatched
      · cases dispatched
        exact ((appended.invoke _ _ _).collectTlv _).collectTlv _
      · cases dispatched
        exact appended
  · split at dispatched
    · split at dispatched
      · cases dispatched
      · cases dispatched
        rw [displaySubOptionsCallback]
        split
        · exact appended.collectTlv _
        · exact appended
    · split at dispatched
      · cases dispatched
        exact appended
      · split at dispatched
        · cases dispatched
        · cases dispatched
          dsimp only
          split
          · exact appended.collectTlv _
          · exact appended

theorem modeEnterCallback_cases {call : Call ι} {mode : OpMode}
    (entered : tree.modeEnterCallback p mode cli = .ok (after, call)) :
    (p = tree.root ∧ after = cli ∧ call = none) ∨ p ≠ tree.root ∧ after = cli.setCmdTreeCursor p := by
  rw [modeEnterCallback] at entered
  split at entered
  · next root =>
    cases entered
    exact .inl ⟨root, rfl, rfl⟩
  · next below =>
    split at entered
    · cases entered
    · cases entered
      exact .inr ⟨below, rfl⟩

/-- What `build_tlv_buffer` can do. -/
theorem build_cases {built : Built ι} (builds : tree.buildTlvBuffer outside tokens cli = .ok built) :
    Appended tree cli built.cli ∨
      (cli.cursor = tree.root ∧ built.cli.cursor = tree.root ∧ built.cli.tlvBuff.checkpoint ≤
        built.cli.tlvBuff.next) ∨
      ∃ p leaves, p ≠ tree.root ∧ EntersMode tree outside tokens cli p ∧
      Entered tree cli built.cli p leaves := by
  rw [buildTlvBuffer] at builds
  split at builds
  · cases builds
  · next walks =>
    cases builds
    obtain ⟨q, leaves, collected⟩ := walk_ends walks
    exact .inl collected.appended
  · next parent p mode middle walks =>
    have appended : Appended tree cli middle := by
      rcases walk_ends walks with ⟨leaves, collected, _⟩ | ⟨_, q, leaves, _, _, collected⟩
      · exact collected.appended
      · exact collected.appended
    split at builds
    · by_cases mode : p = tree.modeParam
      · rw [mode] at walks builds
        rcases walk_ends walks with ⟨leaves, _, final⟩ | ⟨_, q, leaves, rfl, _, collected⟩
        · rcases final with other | ⟨_, rfl⟩
          · exact absurd modeParam_control other
          · unfold dispatch at builds
            rw [if_neg modeParam_apart.1, if_neg modeParam_apart.2, if_pos rfl] at builds
            cases builds
        · obtain ⟨mode', enters⟩ := dispatch_mode builds
          rcases modeEnterCallback_cases enters with ⟨rfl, same, _⟩ | ⟨below, moved⟩
          · rcases collected.below with root | below
            · refine .inr (.inl ⟨root.symm, ?_, ?_⟩)
              · rw [same]
                exact collected.cursor.trans root.symm
              · rw [same]
                exact Nat.le_add_right _ _
            · exact absurd rfl below
          · refine .inr (.inr ⟨q, leaves, below, ⟨_, _, walks⟩, ?_⟩)
            rw [moved]
            exact
              { cursor := rfl
                path := collected.path
                contents := by
                  refine ⟨(commandCodeTlv (tree.param q).cmdCode).encode, ?_⟩
                  have marked := contents_collectTlv middle.tlvBuff.markCheckpoint
                      (commandCodeTlv (tree.param q).cmdCode)
                  have before : middle.tlvBuff.markCheckpoint.contents = middle.tlvBuff.contents := rfl
                  rw [before, collected.contents] at marked
                  exact marked
                checkpoint := (length_contents middle.tlvBuff).symm.trans
                  (congrArg List.length collected.contents)
                values := collected.kept }
      · exact .inl (dispatch_appended mode appended builds)
    · cases builds
      exact .inl appended

end TcpServerLib.Refinement
