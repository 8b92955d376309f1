import TcpServerLib.Machine.DottedQuad
import TcpServerLib.Model.Application
import TcpServerLib.Model.CommandParser

/-! # The commands of the server

`tcp_build_cli` registers the commands under the hooks of the library. The two negation params are
called after the params they are installed in. Of a server in `tcp_server_lst` only its name, its
address and its port are kept; what the handlers do to a server is a list of calls.
-/

namespace TcpServerLib.Model

open Machine LibParam

inductive TcpParam where
  | tcpServer
  | tcpServerName
  | start
  | connect
  | remoteMachineAddr
  | remoteMachinePort
  | stop
  | multiThreadedMode
  | disConnAccept
  | clientListen
  | kaInterval
  | kaIntervalVal
  | tcpServerAddr
  | tcpServerPort
  | noTcpServerName
  | noConfig
  | runTcpServer
  | runTcpServerName
  | sendMsg
  | runRemoteMachineAddr
  | runRemoteMachinePort
  | msg
  | showTcpServer
  | showTcpServerName
deriving DecidableEq, Repr

/-- The handlers of the application. -/
inductive TcpHandler where
  | configTcpServerHandler
  | runTcpServerHandler
  | showTcpServerHandler
  | negateCallback
deriving DecidableEq, Repr

def tcpServerCreate : ℤ := 1
def tcpServerAbort : ℤ := 2
def tcpServerStopConnAccept : ℤ := 5
def tcpServerShowTcpServer : ℤ := 8
def tcpServerAllClientsSetKaInterval : ℤ := 9
def tcpServerSetMultithreadedMode : ℤ := 11
def tcpServerStopListeningClients : ℤ := 14
def tcpServerStart : ℤ := 16
def tcpServerConnectRemote : ℤ := 17
def runCmdCodeTcpServerSendmsg : ℤ := 1

namespace TcpParam

def handler : TcpParam → Option TcpHandler
  | tcpServerName | start | remoteMachinePort | stop | multiThreadedMode | disConnAccept
      | clientListen | kaIntervalVal
  | tcpServerAddr | tcpServerPort => some .configTcpServerHandler
  | noTcpServerName | noConfig => some .negateCallback
  | msg => some .runTcpServerHandler
  | showTcpServerName => some .showTcpServerHandler
  | tcpServer | connect | remoteMachineAddr | kaInterval | runTcpServer | runTcpServerName | sendMsg
  | runRemoteMachineAddr | runRemoteMachinePort | showTcpServer => none

/-- `set_param_cmd_code`. It is called twice for the name of a server, and not for the address. -/
def cmdCode : TcpParam → ℤ
  | tcpServerName | tcpServerPort => tcpServerCreate
  | start => tcpServerStart
  | remoteMachinePort => tcpServerConnectRemote
  | stop => tcpServerAbort
  | multiThreadedMode => tcpServerSetMultithreadedMode
  | disConnAccept => tcpServerStopConnAccept
  | clientListen => tcpServerStopListeningClients
  | kaIntervalVal => tcpServerAllClientsSetKaInterval
  | msg => runCmdCodeTcpServerSendmsg
  | showTcpServerName => tcpServerShowTcpServer
  | tcpServerAddr | noTcpServerName | noConfig | tcpServer | connect | remoteMachineAddr | kaInterval
      | runTcpServer
  | runTcpServerName | sendMsg | runRemoteMachineAddr | runRemoteMachinePort | showTcpServer => -1

def cmdType : TcpParam → CmdType
  | tcpServer | runTcpServer | showTcpServer => cmd ['t', 'c', 'p', '-', 's', 'e', 'r', 'v', 'e', 'r']
  | tcpServerName | runTcpServerName | showTcpServerName =>
    leaf .string ['t', 'c', 'p', '-', 's', 'e', 'r', 'v', 'e', 'r', '-', 'n', 'a', 'm', 'e']
  | start => cmd ['s', 't', 'a', 'r', 't']
  | connect => cmd ['c', 'o', 'n', 'n', 'e', 'c', 't']
  | remoteMachineAddr | runRemoteMachineAddr => leaf .ipv4 ['r', 'e', 'm', 'o', 't', 'e', '-', 'a', 'd', 'd', 'r']
  | remoteMachinePort | runRemoteMachinePort => leaf .int ['r', 'e', 'm', 'o', 't', 'e', '-', 'p', 'o', 'r', 't']
  | stop => cmd ['a', 'b', 'o', 'r', 't']
  | multiThreadedMode =>
    cmd ['m', 'u', 'l', 't', 'i', '-', 't', 'h', 'r', 'e', 'a', 'd', 'e', 'd', '-', 'm', 'o', 'd', 'e']
  | disConnAccept => cmd ['d', 'i', 's', 'a', 'b', 'l', 'e', '-', 'c', 'o', 'n', 'n', '-', 'a', 'c',
      'c', 'e', 'p', 't']
  | clientListen =>
    cmd ['d', 'i', 's', 'a', 'b', 'l', 'e', '-', 'c', 'l', 'i', 'e', 'n', 't', '-', 'l', 'i', 's', 't', 'e', 'n']
  | kaInterval => cmd ['k', 'a', '-', 'i', 'n', 't', 'e', 'r', 'v', 'a', 'l']
  | kaIntervalVal => leaf .int ['k', 'a', '-', 'i', 'n', 't', 'e', 'r', 'v', 'a', 'l']
  | tcpServerAddr => leaf .ipv4 ['t', 'c', 'p', '-', 's', 'e', 'r', 'v', 'e', 'r', '-', 'a', 'd', 'd', 'r']
  | tcpServerPort => leaf .int ['t', 'c', 'p', '-', 's', 'e', 'r', 'v', 'e', 'r', '-', 'p', 'o', 'r', 't']
  | noTcpServerName | noConfig => .noCmd
  | sendMsg => cmd ['s', 'e', 'n', 'd', '-', 'm', 's', 'g']
  | msg => leaf .string ['m', 's', 'g']

def parent : TcpParam → LibParam ⊕ TcpParam
  | tcpServer | noConfig => .inl configHook
  | runTcpServer => .inl runHook
  | showTcpServer => .inl showHook
  | tcpServerName => .inr tcpServer
  | start | connect | stop | multiThreadedMode | disConnAccept | clientListen | kaInterval | tcpServerAddr
  | noTcpServerName => .inr tcpServerName
  | remoteMachineAddr => .inr connect
  | remoteMachinePort => .inr remoteMachineAddr
  | kaIntervalVal => .inr kaInterval
  | tcpServerPort => .inr tcpServerAddr
  | runTcpServerName => .inr runTcpServer
  | sendMsg => .inr runTcpServerName
  | runRemoteMachineAddr => .inr sendMsg
  | runRemoteMachinePort => .inr runRemoteMachineAddr
  | msg => .inr runRemoteMachinePort
  | showTcpServerName => .inr showTcpServer

/-- The children of a param, in the order of registration; the last of them may be a negation. -/
def children : TcpParam → List TcpParam
  | tcpServer => [tcpServerName]
  | tcpServerName =>
    [start, connect, stop, multiThreadedMode, disConnAccept, clientListen, kaInterval, tcpServerAddr,
      noTcpServerName]
  | connect => [remoteMachineAddr]
  | remoteMachineAddr => [remoteMachinePort]
  | kaInterval => [kaIntervalVal]
  | tcpServerAddr => [tcpServerPort]
  | runTcpServer => [runTcpServerName]
  | runTcpServerName => [sendMsg]
  | sendMsg => [runRemoteMachineAddr]
  | runRemoteMachineAddr => [runRemoteMachinePort]
  | runRemoteMachinePort => [msg]
  | showTcpServer => [showTcpServerName]
  | _ => []

def options (p : TcpParam) : List (LibParam ⊕ TcpParam) :=
  match p with
  | noTcpServerName =>
    [.inl suboptionsParam, .inl suboptionsParam, .inl cmdExpansionParam, .inr start, .inr connect, .inr stop,
      .inr multiThreadedMode, .inr disConnAccept, .inr clientListen, .inr kaInterval, .inr tcpServerAddr]
  | noConfig =>
    [.inl suboptionsParam, .inl suboptionsParam, .inl cmdExpansionParam, .inl load, .inl supportsave,
      .inl configConsole, .inr tcpServer]
  | p =>
    if p.children = [] then []
    else [.inl modeParam, .inl suboptionsParam, .inl cmdExpansionParam] ++ p.children.map .inr

def depth : TcpParam → ℕ
  | tcpServer | noConfig | runTcpServer | showTcpServer => 2
  | tcpServerName | runTcpServerName | showTcpServerName => 3
  | start | connect | stop | multiThreadedMode | disConnAccept | clientListen | kaInterval | tcpServerAddr
  | noTcpServerName | sendMsg => 4
  | remoteMachineAddr | kaIntervalVal | tcpServerPort | runRemoteMachineAddr => 5
  | remoteMachinePort | runRemoteMachinePort => 6
  | msg => 7

def param (p : TcpParam) : Param (LibParam ⊕ TcpParam) where
  cmdType := p.cmdType
  callback := p.handler.map fun _ => .application
  options := p.options
  parent := some p.parent
  cmdCode := Int32.ofInt p.cmdCode

end TcpParam

/-- What may be among the options: a capability, a child, and whatever a negation shares with its parent. -/
def TcpParam.registers (k : TcpParam) : LibParam ⊕ TcpParam → Bool
  | .inl p =>
    p ∈ [showBriefExtension, modeParam, suboptionsParam, cmdExpansionParam] ∨
      (k = noTcpServerName ∨ k = noConfig) ∧ (LibParam.param p).parent.map .inl = some k.parent
  | .inr k' => k'.parent = .inr k ∨ (k = noTcpServerName ∨ k = noConfig) ∧ k'.parent = k.parent

theorem TcpParam.options_registered (k : TcpParam) : k.options.all k.registers = true := by
  cases k <;> rfl

theorem TcpParam.negation {k : TcpParam} (negation : k = noTcpServerName ∨ k = noConfig) :
    k.cmdType = .noCmd := by
  rcases negation with rfl | rfl <;> rfl

/-- The params that are registered under a param of the library. -/
def tcpHooked : LibParam → List TcpParam
  | configHook => [.tcpServer, .noConfig]
  | runHook => [.runTcpServer]
  | showHook => [.showTcpServer]
  | _ => []

/-- The commands of the server. -/
def tcpBuildCli : Application TcpParam where
  param := TcpParam.param
  children := tcpHooked
  depth := TcpParam.depth
  registered := by
    intro p k child
    cases p <;> revert child <;> revert k <;> decide
  childless := by decide
  hooked := by
    intro p
    cases p <;> decide
  descends := by
    intro k q registered
    cases registered
    cases k <;> rfl
  inner := by
    intro k c member
    have registered := List.all_eq_true.mp k.options_registered c member
    cases c with
    | inl p =>
      rcases of_decide_eq_true registered with control | ⟨negation, shared⟩
      · exact .inl (List.mem_map_of_mem control)
      · exact .inr (.inr ⟨TcpParam.negation negation, shared⟩)
    | inr k' =>
      rcases of_decide_eq_true registered with child | ⟨negation, shared⟩
      · exact .inr (.inl ⟨k', rfl, congrArg some child⟩)
      · exact .inr (.inr ⟨TcpParam.negation negation, congrArg some shared⟩)
  negates := by
    intro k negation
    refine ⟨k.parent, rfl, ?_⟩
    cases k <;> exact nofun
  capabilities := by
    intro k parent ordinary
    cases k <;> first | exact ⟨_, rfl⟩ | exact absurd rfl parent | exact absurd rfl ordinary
  callbacks := by
    intro k
    cases k <;> decide

structure ListedServer where
  name : Bytes
  ipAddr : UInt32
  portNo : UInt16
deriving DecidableEq, Repr

inductive ServerCall where
  | setServerNotifCallbacks
  | start
  | stop
  | setClientCreationMode (status : Bool)
  | createActiveClient (serverIpAddr : UInt32) (serverPortNo : UInt16)
  | stopConnectionsAcceptorSvc
  | startConnectionsAcceptorSvc
  | stopClientSvcMgr
  | startClientSvcMgr
  | sendMsg (ipAddr : UInt32) (portNo : UInt16) (msg : Bytes)
  | display
deriving DecidableEq, Repr

inductive HandlerError where
  | tcpServerAlreadyExist
  | tcpServerDoNotExist
deriving DecidableEq, Repr

/-- What a handler leaves behind: `tcp_server_lst`, the servers it has made, the calls of their member
functions, and why it returns -1, if it does. -/
structure Handled where
  servers : List ListedServer
  created : List ListedServer := []
  calls : List (ListedServer × ServerCall) := []
  error : Option HandlerError := none
deriving DecidableEq, Repr

def tcpServerLookup (servers : List ListedServer) (tcpServerName : Bytes) : Option ListedServer :=
  servers.find? (·.name = tcpServerName)

/-- `inet_pton` leaves the octets in network order, and `htonl` turns them around. -/
def networkCovertIpPToN (ipAddr : Bytes) : UInt32 :=
  (inetPton ipAddr).getD 0

/-- `atoi`, which passes over white space. -/
def atoiSpaced (value : Bytes) : ℤ :=
  atoi (value.dropWhile isspace)

/-- The variables that the handlers set from the TLVs. -/
structure HandlerArguments where
  tcpServerName : Option Bytes := none
  ipAddr : Bytes := ascii ['1', '2', '7', '.', '0', '.', '0', '.', '1']
  portNo : UInt16 := 40000
  remoteIpAddr : Option Bytes := none
  remotePort : UInt16 := 0
  msg : Option Bytes := none
deriving DecidableEq, Repr

/-- The body of the loop of `config_tcp_server_handler`. The interval is read and never used. -/
def configArgument (args : HandlerArguments) (tlv : TlvFields) : Except CliFault HandlerArguments :=
  if begins tlv.leafId (ascii ['t', 'c', 'p', '-', 's', 'e', 'r', 'v', 'e', 'r', '-', 'n', 'a', 'm', 'e']) then
    .ok { args with tcpServerName := some tlv.value }
  else if begins tlv.leafId
    (ascii ['t', 'c', 'p', '-', 's', 'e', 'r', 'v', 'e', 'r', '-', 'a', 'd', 'd', 'r']) then
    .ok { args with ipAddr := tlv.value }
  else if begins tlv.leafId
    (ascii ['t', 'c', 'p', '-', 's', 'e', 'r', 'v', 'e', 'r', '-', 'p', 'o', 'r', 't']) then
    .ok { args with portNo := UInt16.ofInt (atoiSpaced tlv.value) }
  else if begins tlv.leafId (ascii ['k', 'a', '-', 'i', 'n', 't', 'e', 'r', 'v', 'a', 'l']) then .ok args
  else if begins tlv.leafId (ascii ['r', 'e', 'm', 'o', 't', 'e', '-', 'a', 'd', 'd', 'r']) then
    .ok { args with remoteIpAddr := some tlv.value }
  else if begins tlv.leafId (ascii ['r', 'e', 'm', 'o', 't', 'e', '-', 'p', 'o', 'r', 't']) then
    .ok { args with remotePort := UInt16.ofInt (atoiSpaced tlv.value) }
  else .error .assertion

/-- A `std::string` cannot be made from a null pointer. -/
def stringOf : Option Bytes → Except CliFault Bytes
  | none => .error .nullDereference
  | some s => .ok s

/-- The lookup that all cases but one begin with. -/
def withServer (servers : List ListedServer) (args : HandlerArguments)
    (handle : ListedServer → Except CliFault Handled) : Except CliFault Handled :=
  match stringOf args.tcpServerName with
  | .error fault => .error fault
  | .ok name =>
    match tcpServerLookup servers name with
    | none => .ok { servers, error := some .tcpServerDoNotExist }
    | some tcpServer => handle tcpServer

def createServer (servers : List ListedServer) (args : HandlerArguments) : Except CliFault Handled :=
  match stringOf args.tcpServerName with
  | .error fault => .error fault
  | .ok name =>
    match tcpServerLookup servers name with
    | some _ => .ok { servers, error := some .tcpServerAlreadyExist }
    | none =>
      let tcpServer := { name, ipAddr := networkCovertIpPToN args.ipAddr, portNo := args.portNo }
      .ok
        { servers := tcpServer :: servers
          created := [tcpServer]
          calls := [(tcpServer, .setServerNotifCallbacks)] }

def setKaInterval (servers : List ListedServer) (args : HandlerArguments) : Except CliFault Handled :=
  withServer servers args fun _ => .ok { servers }

/-- The two calls of a case that distinguishes the modes. -/
def modeCall (enableOrDisable : OpMode) (enable disable : List ServerCall) : List ServerCall :=
  match enableOrDisable with
  | .configEnable => enable
  | .configDisable => disable
  | _ => []

def callServer (servers : List ListedServer) (tcpServer : ListedServer) (calls : List ServerCall) : Handled :=
  { servers, calls := calls.map (tcpServer, ·) }

/-- The `switch` of `config_tcp_server_handler`. -/
def configCommand (cmdCode : ℤ) (servers : List ListedServer) (args : HandlerArguments)
    (enableOrDisable : OpMode) :
    Except CliFault Handled :=
  if cmdCode = tcpServerCreate then createServer servers args
  else if cmdCode = tcpServerStart then
    withServer servers args fun tcpServer => .ok (callServer servers tcpServer [.start])
  else if cmdCode = tcpServerAbort then
    withServer servers args fun tcpServer =>
      .ok { callServer servers tcpServer [.stop] with servers := servers.eraseP (·.name = tcpServer.name) }
  else if cmdCode = tcpServerSetMultithreadedMode then
    withServer servers args fun tcpServer =>
      let calls := modeCall enableOrDisable [.setClientCreationMode true] [.setClientCreationMode false]
      -- There is no `break`: the next case is entered as well.
      (setKaInterval servers args).map fun handled =>
        { handled with calls := (callServer servers tcpServer calls).calls ++ handled.calls }
  else if cmdCode = tcpServerAllClientsSetKaInterval then setKaInterval servers args
  else if cmdCode = tcpServerConnectRemote then
    withServer servers args fun tcpServer =>
      match enableOrDisable with
      | .configEnable =>
        match args.remoteIpAddr with
        | none => .error .nullDereference
        | some remoteIpAddr =>
          .ok (callServer servers tcpServer [.createActiveClient (networkCovertIpPToN remoteIpAddr)
            args.remotePort])
      | _ => .ok { servers }
  else if cmdCode = tcpServerStopConnAccept then
    withServer servers args fun tcpServer =>
      .ok (callServer servers tcpServer
        (modeCall enableOrDisable [.stopConnectionsAcceptorSvc] [.startConnectionsAcceptorSvc]))
  else if cmdCode = tcpServerStopListeningClients then
    withServer servers args fun tcpServer =>
      .ok (callServer servers tcpServer (modeCall enableOrDisable [.stopClientSvcMgr] [.startClientSvcMgr]))
  else .ok { servers }

/-- The command code and the arguments that a buffer holds. -/
def decodeBuffer (argument : HandlerArguments → TlvFields → Except CliFault HandlerArguments)
    (tlvBuf : SerBuff) :
    Except CliFault (ℤ × HandlerArguments) :=
  match extractCmdCode tlvBuf, tlvLoop tlvBuf with
  | some cmdCode, some tlvs => (tlvs.foldlM argument {}).map (cmdCode, ·)
  | _, _ => .error .outOfBounds

def configTcpServerHandler (servers : List ListedServer) (tlvBuf : SerBuff) (enableOrDisable : OpMode) :
    Except CliFault Handled :=
  match decodeBuffer configArgument tlvBuf with
  | .error fault => .error fault
  | .ok (cmdCode, args) => configCommand cmdCode servers args enableOrDisable

/-- The body of the loop of `run_tcp_server_handler`. -/
def runArgument (args : HandlerArguments) (tlv : TlvFields) : Except CliFault HandlerArguments :=
  if begins tlv.leafId (ascii ['t', 'c', 'p', '-', 's', 'e', 'r', 'v', 'e', 'r', '-', 'n', 'a', 'm', 'e']) then
    .ok { args with tcpServerName := some tlv.value }
  else if begins tlv.leafId (ascii ['m', 's', 'g']) then .ok { args with msg := some tlv.value }
  else if begins tlv.leafId (ascii ['r', 'e', 'm', 'o', 't', 'e', '-', 'a', 'd', 'd', 'r']) then
    .ok { args with remoteIpAddr := some tlv.value }
  else if begins tlv.leafId (ascii ['r', 'e', 'm', 'o', 't', 'e', '-', 'p', 'o', 'r', 't']) then
    .ok { args with remotePort := UInt16.ofInt (atoiSpaced tlv.value) }
  else .error .assertion

/-- Whether there is a connection to send the message on is for the server to find out. -/
def runTcpServerHandler (servers : List ListedServer) (tlvBuf : SerBuff) : Except CliFault Handled :=
  match decodeBuffer runArgument tlvBuf with
  | .error fault => .error fault
  | .ok (cmdCode, args) =>
    if cmdCode = runCmdCodeTcpServerSendmsg then
      withServer servers args fun tcpServer =>
        match args.remoteIpAddr, args.msg with
        | some remoteIpAddr, some msg =>
          .ok (callServer servers tcpServer [.sendMsg (networkCovertIpPToN remoteIpAddr) args.remotePort msg])
        | _, _ => .error .nullDereference
    else .ok { servers }

/-- The body of the loop of `show_tcp_server_handler`. -/
def showArgument (args : HandlerArguments) (tlv : TlvFields) : Except CliFault HandlerArguments :=
  if begins tlv.leafId (ascii ['t', 'c', 'p', '-', 's', 'e', 'r', 'v', 'e', 'r', '-', 'n', 'a', 'm', 'e']) then
    .ok { args with tcpServerName := some tlv.value }
  else .error .assertion

def showTcpServerHandler (servers : List ListedServer) (tlvBuf : SerBuff) : Except CliFault Handled :=
  match decodeBuffer showArgument tlvBuf with
  | .error fault => .error fault
  | .ok (cmdCode, args) =>
    if cmdCode = tcpServerShowTcpServer then
      withServer servers args fun tcpServer => .ok (callServer servers tcpServer [.display])
    else .ok { servers }

/-- The handlers of the library do nothing to the servers. -/
def handleInvocation (servers : List ListedServer) (invocation : Invocation (LibParam ⊕ TcpParam)) :
    Except CliFault Handled :=
  match invocation.param with
  | .inl _ => .ok { servers }
  | .inr k =>
    match k.handler, invocation.buffer with
    | some .configTcpServerHandler, some tlvBuf =>
        configTcpServerHandler servers tlvBuf invocation.enableOrDisable
    | some .runTcpServerHandler, some tlvBuf => runTcpServerHandler servers tlvBuf
    | some .showTcpServerHandler, some tlvBuf => showTcpServerHandler servers tlvBuf
    | some .negateCallback, _ => .ok { servers }
    | _, _ => .error .nullDereference

/-- `tcp_server_lst` after the handlers have been called one after the other. -/
def handleAll (servers : List ListedServer) (invoked : List (Invocation (LibParam ⊕ TcpParam))) :
    Except CliFault (List ListedServer) :=
  invoked.foldlM (fun servers invocation => (handleInvocation servers invocation).map (·.servers)) servers

/-- A line that is typed at the prompt, with what it does to the parser and to `tcp_server_lst`. -/
def LineRuns (outside : Outside) (line : Bytes)
    (before after : Cli (LibParam ⊕ TcpParam) × List ListedServer) : Prop :=
  Session.Carries tcpBuildCli.tree outside line before.1 after.1 ∧
    ∃ calls, after.1.invoked = before.1.invoked ++ calls ∧ handleAll before.2 calls = .ok after.2

end TcpServerLib.Model
