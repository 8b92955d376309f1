import TcpServerLib.Soundness.RegisteredTrees

/-! # The commands of the server are registered

The calls of `tcp_build_cli` are legal, and what they leave in memory is the tree that the theorems
about the commands of the server speak of. In no session of the server is the cursor below a negation.
-/

namespace TcpServerLib.Soundness

open Machine Model Refinement LibParam CommandTree

variable {outside : Outside} {choice : ℤ}

/-- The params when `tcp_build_cli` returns. -/
def tcpParams (choice : ℤ) : Params TcpParam :=
  (register 3 libcliParams (tcpBuildCliCalls choice)).toOption.getD zeroParams

set_option maxRecDepth 4000 in
/-- No assertion fails in `tcp_build_cli`. -/
theorem tcpBuildCliCalls_eq : register 3 libcliParams (tcpBuildCliCalls choice) = .ok (tcpParams choice) := by
  rfl

theorem tcpBuildCli_run (choice : ℤ) : LegalRun 3 libcliParams (tcpBuildCliCalls choice) (tcpParams choice) :=
  legalRun_of_orderly rfl tcpBuildCliCalls_eq

set_option maxRecDepth 4000 in
theorem readParam_own (p : TcpParam) : readParam (tcpParams choice (.inr p)) =
    tcpBuildCli.tree.param (.inr p) := by
  cases p <;> rfl

set_option maxRecDepth 4000 in
theorem readParam_library (p : LibParam) : readParam (tcpParams choice (.inl p)) =
    tcpBuildCli.tree.param (.inl p) := by
  cases p <;> rfl

/-- What the calls leave in memory is the tree of the server. -/
theorem tcpBuildCli_registered (p : LibParam ⊕ TcpParam) :
    readParam (tcpParams choice p) = tcpBuildCli.tree.param p := by
  cases p with
  | inl p => apply readParam_library
  | inr p => apply readParam_own

theorem negationsApart_congr {ι : Type*} {tree tree' : CommandTree ι} (apart : NegationsApart tree)
    (param : tree'.param = tree.param) (modeParam : tree'.modeParam = tree.modeParam) : NegationsApart tree' := by
  have same (p : ι) : tree'.isNegation p = tree.isNegation p := by rw [isNegation, isNegation, param]
  constructor
  · intro p negation
    rw [param, modeParam]
    exact apart.modeless ((same p).symm.trans negation)
  · intro p c child
    rw [param] at child
    exact (same p).trans (apart.childless child)

theorem tcpBuildCli_negationsApart : NegationsApart tcpBuildCli.tree := by
  obtain ⟨registry, packed⟩ := soundParams_run (tcpBuildCli_run 0) soundParams_libcli
  have params : tcpBuildCli.tree.param = (registry.tree packed).param :=
    funext fun p => (tcpBuildCli_registered p).symm
  exact negationsApart_congr (registry.negationsApart packed) params rfl

/-- Whatever is typed, no param above the cursor of the server's commands is a negation. -/
theorem tcpBuildCli_positive {es : List (CliEvent (LibParam ⊕ TcpParam))} {s : Session (LibParam ⊕ TcpParam)}
    (run : Path (Session.Step tcpBuildCli.tree outside) (.started tcpBuildCli.tree) es s) :
    ∀ r ∈ path tcpBuildCli.tree s.cli.cursor, tcpBuildCli.tree.isNegation r = false :=
  path_positive_reachable tcpBuildCli_negationsApart run

end TcpServerLib.Soundness
