import TcpServerLib.Model.TcpServerCli
import TcpServerLib.Refinement.CommandCall
import TcpServerLib.Soundness.FullNames

/-! # Creating a server from the command line

A server is created by its name, by its name and address, or by its name, address and port. The second
of these forms ends at a param whose command code has never been set, and creates nothing.
-/

namespace TcpServerLib.Soundness

open Machine Model CommandTree Refinement TcpParam

variable {outside : Outside} {line : Bytes} {name : Token} {cli : Cli (LibParam ⊕ TcpParam)}
  {servers : List ListedServer} {ipAddr : UInt32} {portNo : UInt16}

/-- What may follow the name. -/
inductive CreateForm where
  | byName
  | byAddr (ipAddr : Token)
  | byPort (ipAddr portNo : Token)

def tcpServerWord : Token :=
  typedWord ['t', 'c', 'p', '-', 's', 'e', 'r', 'v', 'e', 'r']

namespace CreateForm

def values : CreateForm → List Token
  | .byName => []
  | .byAddr ipAddr => [ipAddr]
  | .byPort ipAddr portNo => [ipAddr, portNo]

def tokens (form : CreateForm) (name : Token) : List Token :=
  [configWord, tcpServerWord, name] ++ form.values

def params : CreateForm → List TcpParam
  | .byName => []
  | .byAddr _ => [tcpServerAddr]
  | .byPort _ _ => [tcpServerAddr, tcpServerPort]

def path (form : CreateForm) : List (LibParam ⊕ TcpParam) :=
  [.inl .configHook, .inr tcpServer, .inr tcpServerName] ++ form.params.map .inr

/-- The param whose handler is called. -/
def ends (form : CreateForm) : TcpParam :=
  form.params.getLastD tcpServerName

end CreateForm

def CreateForm.tlvs (form : CreateForm) (name : Token) : List Tlv :=
  typedTlvs tcpBuildCli.tree form.path (form.tokens name)

/-- What is in the buffer when the handler is called. -/
def CreateForm.contents (form : CreateForm) (name : Token) : Bytes :=
  encoded (form.tlvs name ++ [commandCodeTlv (tcpBuildCli.tree.param (.inr form.ends)).cmdCode])

theorem ordinary_param (p : TcpParam) : .inr p ∉ controls tcpBuildCli.tree := by
  intro control
  simp only [controls, List.mem_cons, List.not_mem_nil, or_false] at control
  rcases control with same | same | same | same <;> cases same

/-- The line adds this server, and adds nothing when it is typed again. -/
def Creates (outside : Outside) (line : Bytes) (cli : Cli (LibParam ⊕ TcpParam)) (servers : List ListedServer)
    (tcpServer : ListedServer) : Prop :=
  ∃ after, LineRuns outside line (cli, servers) (after, tcpServer :: servers) ∧ after.returned = .complete ∧
    ∃ again, LineRuns outside line (after, tcpServer :: servers) (again, tcpServer :: servers)

def serverName : Token :=
  typedWord ['s', '1']

end TcpServerLib.Soundness
