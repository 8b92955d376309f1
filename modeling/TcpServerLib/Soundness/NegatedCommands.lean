import TcpServerLib.Soundness.ServerCreation

/-! # Negated commands

A handler is told by its mode whether a command has been negated. `config_tcp_server_handler` does not
ask for the mode where it creates, starts or aborts a server.
-/

namespace TcpServerLib.Soundness

open Machine Model CommandTree Refinement TcpParam

variable {outside : Outside} {tokens : List Token} {cli : Cli (LibParam ⊕ TcpParam)}
  {built : Built (LibParam ⊕ TcpParam)}
  {servers : List ListedServer} {p : TcpParam} {args : HandlerArguments} {name : Bytes} {tcpServer : ListedServer}
  {handled : Handled} {run : OpMode → Except CliFault Handled}

/-- What has become of the servers. -/
def effect (handled : Handled) : List ListedServer × List (ListedServer × ServerCall) :=
  (handled.servers, handled.calls)

/-- The calls that start a server or open a connection. -/
def Opens : ServerCall → Bool
  | .start | .createActiveClient .. => true
  | _ => false

/-- The negated command creates no server, starts none and opens no connection, and what it does is not
what the command would do without the negation, if that is anything at all. -/
structure NeverPositive (servers : List ListedServer) (run : OpMode → Except CliFault Handled)
    (negated : Handled) : Prop where
  runs : run .configDisable = .ok negated
  created : negated.created = []
  opens : ∀ call ∈ negated.calls, Opens call.2 = false
  differs : ∀ positive, run .configEnable = .ok positive → effect negated = effect positive →
    effect positive = (servers, [])

/-- The loop of the handler sets the name that is held for the leaf, and a remote address for a port. -/
theorem disabled_decodes (holds : cli.tlvBuff.contents = leavesData tcpBuildCli.tree cli)
    (builds : tcpBuildCli.tree.buildTlvBuffer outside tokens cli = .ok built)
    (call : built.call = some (.inr p, .configDisable)) (config : p.handler = some .configTcpServerHandler) :
    ∃ args, decodeBuffer configArgument built.cli.tlvBuff = .ok (p.cmdCode, args) ∧
      args.tcpServerName = some (built.cli.valueHolder (.inr tcpServerName)).bytes ∧
      (p = remoteMachinePort → args.remoteIpAddr =
        some (built.cli.valueHolder (.inr remoteMachineAddr)).bytes) := by
  have contents := disabled_call holds builds call fun same => by cases same
  have code : (tcpBuildCli.tree.param (.inr p)).cmdCode.toInt = p.cmdCode := by cases p <;> rfl
  have decodes {args : HandlerArguments} (loop : (((leafPath tcpBuildCli.tree (.inr p)).map
      (tcpBuildCli.tree.tlvOf built.cli.valueHolder)).map Tlv.fields).foldlM configArgument {} = .ok args) :
      decodeBuffer configArgument built.cli.tlvBuff = .ok (p.cmdCode, args) := by
    rw [decodeBuffer, extractCmdCode_encoded contents, tlvLoop_encoded contents, atoi_commandCodeTlv, code]
    dsimp only
    rw [loop]
    rfl
  cases p <;> first
    | exact ⟨_, decodes rfl, rfl, fun _ => rfl⟩
    | exact ⟨_, decodes rfl, rfl, by simp⟩
    | cases config

section

variable (named : args.tcpServerName = some name)

include named

theorem withServer_unlisted (absent : tcpServerLookup servers name = none)
    (handle : ListedServer → Except CliFault Handled) :
    withServer servers args handle = .ok { servers, error := some .tcpServerDoNotExist } := by
  rw [withServer, named, stringOf]
  dsimp only
  rw [absent]

theorem withServer_listed (found : tcpServerLookup servers name = some tcpServer)
    (handle : ListedServer → Except CliFault Handled) : withServer servers args handle = handle tcpServer := by
  rw [withServer, named, stringOf]
  dsimp only
  rw [found]

end

/-- A command that does nothing in either mode. -/
theorem neverPositive_idle {error : Option HandlerError}
    (idle : ∀ mode, run mode = .ok ⟨servers, [], [], error⟩) :
    NeverPositive servers run ⟨servers, [], [], error⟩ where
  runs := idle _
  created := rfl
  opens _ member := absurd member List.not_mem_nil
  differs positive enabled _ := by
    cases (idle _).symm.trans enabled
    rfl

/-- A command that makes a different call in each mode, or none if it is negated. -/
theorem neverPositive_calls {enable : ServerCall} {disable : List ServerCall}
    (enables : run .configEnable = .ok (callServer servers tcpServer [enable]))
    (disables : run .configDisable = .ok (callServer servers tcpServer disable))
    (harmless : ∀ call ∈ disable, Opens call = false)
    (other : disable ≠ [enable]) : NeverPositive servers run (callServer servers tcpServer disable) where
  runs := disables
  created := rfl
  opens call member := by
    obtain ⟨made, among, rfl⟩ := List.mem_map.mp member
    exact harmless made among
  differs positive enabled same := by
    cases enables.symm.trans enabled
    have calls : disable.map (tcpServer, ·) = [enable].map (tcpServer, ·) := congrArg Prod.snd same
    exact absurd (List.map_injective_iff.mpr (Prod.mk_right_injective tcpServer) calls) other

/-- A listed server is what is asked for where a server is created, and what must not be there where one is
started or aborted. -/
structure Negatable (servers : List ListedServer) (p : TcpParam) (name : Bytes) : Prop where
  creation : p = tcpServerName ∨ p = tcpServerPort → ∃ tcpServer ∈ servers, tcpServer.name = name
  startOrStop : p = start ∨ p = stop → ∀ tcpServer ∈ servers, tcpServer.name ≠ name

theorem lookup_listed (found : tcpServerLookup servers name = some tcpServer) :
    tcpServer ∈ servers ∧ tcpServer.name = name :=
  ⟨List.mem_of_find?_eq_some found, by simpa using List.find?_some found⟩

theorem lookup_unlisted (absent : tcpServerLookup servers name = none) : ∀ tcpServer ∈ servers,
    tcpServer.name ≠ name :=
  fun tcpServer member => by simpa using List.find?_eq_none.mp absent tcpServer member

/-- Without the server, only its creation does anything. -/
theorem negatable_unlisted (config : p.handler = some .configTcpServerHandler)
    (named : args.tcpServerName = some name)
    (absent : tcpServerLookup servers name = none) (other : ¬ (p = tcpServerName ∨ p = tcpServerPort)) :
    ∃ negated, NeverPositive servers (configCommand p.cmdCode servers args) negated := by
  have refuses (handle : ListedServer → Except CliFault Handled) := withServer_unlisted named absent handle
  cases p with
  | tcpServerName => exact absurd (.inl rfl) other
  | tcpServerPort => exact absurd (.inr rfl) other
  | tcpServerAddr => exact ⟨_, neverPositive_idle fun _ => rfl⟩
  | start | remoteMachinePort | stop | multiThreadedMode | disConnAccept | clientListen | kaIntervalVal =>
    exact ⟨_, neverPositive_idle fun _ => refuses _⟩
  | _ => cases config

/-- With the server, all commands but two tell the modes apart or do nothing. -/
theorem negatable_listed (config : p.handler = some .configTcpServerHandler)
    (named : args.tcpServerName = some name)
    (remote : p = remoteMachinePort → args.remoteIpAddr ≠ none)
    (found : tcpServerLookup servers name = some tcpServer)
    (other : ¬ (p = start ∨ p = stop)) :
    ∃ negated, NeverPositive servers (configCommand p.cmdCode servers args) negated := by
  have serves (handle : ListedServer → Except CliFault Handled) := withServer_listed named found handle
  have creates : createServer servers args = .ok { servers, error := some .tcpServerAlreadyExist } := by
    rw [createServer, named, stringOf]
    dsimp only
    rw [found]
  cases p with
  | tcpServerName | tcpServerPort => exact ⟨_, neverPositive_idle fun _ => creates⟩
  | start => exact absurd (.inl rfl) other
  | stop => exact absurd (.inr rfl) other
  | tcpServerAddr => exact ⟨_, neverPositive_idle fun _ => rfl⟩
  | kaIntervalVal => exact ⟨_, neverPositive_idle fun _ => serves _⟩
  | multiThreadedMode =>
    have both (mode : OpMode) : configCommand multiThreadedMode.cmdCode servers args mode =
        .ok (callServer servers tcpServer
          (modeCall mode [.setClientCreationMode true] [.setClientCreationMode false])) := by
      refine (serves _).trans ?_
      rw [setKaInterval, serves, Except.map, List.append_nil]
      rfl
    exact ⟨_, neverPositive_calls (both _) (both _) (by decide) (by decide)⟩
  | disConnAccept => exact ⟨_, neverPositive_calls (serves _) (serves _) (by decide) (by decide)⟩
  | clientListen => exact ⟨_, neverPositive_calls (serves _) (serves _) (by decide) (by decide)⟩
  | remoteMachinePort =>
    obtain ⟨remoteIpAddr, address⟩ := Option.ne_none_iff_exists'.mp (remote rfl)
    have enables : configCommand remoteMachinePort.cmdCode servers args .configEnable =
        .ok (callServer servers tcpServer [.createActiveClient (networkCovertIpPToN remoteIpAddr)
          args.remotePort]) := by
      refine (serves _).trans ?_
      rw [address]
    have disables : configCommand remoteMachinePort.cmdCode servers args .configDisable =
        .ok (callServer servers tcpServer []) := serves _
    exact ⟨_, neverPositive_calls enables disables (by simp) (by simp)⟩
  | _ => cases config

/-- A server that is created is created in either mode. -/
theorem creation_positive (named : args.tcpServerName = some name) (absent : tcpServerLookup servers name = none)
    (creation : p = tcpServerName ∨ p = tcpServerPort) {negated : Handled} :
    ¬ NeverPositive servers (configCommand p.cmdCode servers args) negated := by
  intro never
  have creates (mode : OpMode) : configCommand p.cmdCode servers args mode = createServer servers args := by
    rcases creation with rfl | rfl <;> rfl
  have runs := (creates _).symm.trans never.runs
  rw [createServer, named, stringOf] at runs
  dsimp only at runs
  rw [absent] at runs
  cases runs
  cases never.created

/-- A server that is started is started in either mode, and a server that is aborted is aborted. -/
theorem startOrStop_positive (named : args.tcpServerName = some name)
    (found : tcpServerLookup servers name = some tcpServer)
    (startOrStop : p = start ∨ p = stop) {negated : Handled} :
    ¬ NeverPositive servers (configCommand p.cmdCode servers args) negated := by
  intro never
  have serves (handle : ListedServer → Except CliFault Handled) := withServer_listed named found handle
  rcases startOrStop with rfl | rfl
  · cases (serves _).symm.trans never.runs
    cases never.opens _ List.mem_cons_self
  · cases (serves _).symm.trans never.runs
    cases congrArg Prod.snd (never.differs _ (serves _) rfl)

theorem neverPositive_command (config : p.handler = some .configTcpServerHandler)
    (named : args.tcpServerName = some name)
    (remote : p = remoteMachinePort → args.remoteIpAddr ≠ none) :
    (∃ negated, NeverPositive servers (configCommand p.cmdCode servers args) negated) ↔
    Negatable servers p name := by
  cases found : tcpServerLookup servers name with
  | none =>
    have unlisted := lookup_unlisted found
    constructor
    · rintro ⟨negated, never⟩
      exact ⟨fun creation => absurd never (creation_positive named found creation), fun _ => unlisted⟩
    · intro negatable
      refine negatable_unlisted config named found fun creation => ?_
      obtain ⟨tcpServer, member, same⟩ := negatable.creation creation
      exact unlisted tcpServer member same
  | some tcpServer =>
    obtain ⟨member, same⟩ := lookup_listed found
    constructor
    · rintro ⟨negated, never⟩
      exact ⟨fun _ => ⟨tcpServer, member, same⟩, fun started =>
        absurd never (startOrStop_positive named found started)⟩
    · intro negatable
      exact negatable_listed config named remote found fun started =>
        negatable.startOrStop started tcpServer member same

/-- A negated command of the server does no positive thing if and only if it does not create a server that is
not listed, and does not start or abort one that is. -/
theorem neverPositive_iff (holds : cli.tlvBuff.contents = leavesData tcpBuildCli.tree cli)
    (builds : tcpBuildCli.tree.buildTlvBuffer outside tokens cli = .ok built)
    (call : built.call = some (.inr p, .configDisable)) (config : p.handler = some .configTcpServerHandler) :
    (∃ negated, NeverPositive servers (configTcpServerHandler servers built.cli.tlvBuff) negated) ↔
      Negatable servers p (built.cli.valueHolder (.inr tcpServerName)).bytes := by
  obtain ⟨args, decodes, named, remote⟩ := disabled_decodes holds builds call config
  have runs : configTcpServerHandler servers built.cli.tlvBuff = configCommand p.cmdCode servers args := by
    funext mode
    rw [configTcpServerHandler, decodes]
  rw [runs]
  exact neverPositive_command config named fun port => by rw [remote port]; exact Option.some_ne_none _

theorem started_leaves : (Session.started tcpBuildCli.tree).cli.tlvBuff.contents =
    leavesData tcpBuildCli.tree (Session.started tcpBuildCli.tree).cli := by
  rw [SerBuff.contents, leavesData]
  rfl

def noWord : Token :=
  typedWord ['n', 'o']

/-- `config tcp-server s1 no disable-conn-accept` -/
def noDisableWords : List Token :=
  [configWord, tcpServerWord, serverName, noWord,
    typedWord ['d', 'i', 's', 'a', 'b', 'l', 'e', '-', 'c', 'o', 'n', 'n', '-', 'a', 'c', 'c', 'e', 'p', 't']]

/-- A server with the name of the command. -/
def listedServer : ListedServer :=
  { name := serverName.bytes, ipAddr := address 127 0 0 1, portNo := 40000 }

/-- A listed server accepts connections again, and the negation does not disable them. -/
theorem neverPositive_noDisable : ∃ built,
    tcpBuildCli.tree.buildTlvBuffer unasked noDisableWords (Session.started tcpBuildCli.tree).cli = .ok built ∧
      built.call = some (.inr disConnAccept, .configDisable) ∧
        (built.cli.valueHolder (.inr tcpServerName)).bytes = listedServer.name ∧
          ∃ negated, NeverPositive [listedServer]
          (configTcpServerHandler [listedServer] built.cli.tlvBuff) negated := by
  obtain ⟨built, builds, call, name⟩ : ∃ built,
      tcpBuildCli.tree.buildTlvBuffer unasked noDisableWords (Session.started tcpBuildCli.tree).cli =
        .ok built ∧ built.call = some (.inr disConnAccept, .configDisable) ∧
          (built.cli.valueHolder (.inr tcpServerName)).bytes = listedServer.name := ⟨_, rfl, rfl, rfl⟩
  exact ⟨built, builds, call, name, (neverPositive_iff started_leaves builds call rfl).mpr
    ⟨by simp, by simp⟩⟩

/-- `config no tcp-server s1` -/
def noServerWords : List Token :=
  [configWord, noWord, tcpServerWord, serverName]

def noServerPath : List (LibParam ⊕ TcpParam) :=
  [.inl .configHook, .inr noConfig, .inr TcpParam.tcpServer, .inr tcpServerName]

theorem noServer_resolves : Resolves tcpBuildCli.tree unasked 0 tcpBuildCli.tree.root noServerWords
    noServerPath 0 :=
  .cons rfl trivial (.cons rfl trivial (.cons rfl trivial (.cons rfl ⟨rfl, rfl⟩ (.nil 0 _))))

/-- A server is created by the command that should take it back. -/
theorem noServer_creates : ¬ ∀ (outside : Outside) (tokens : List Token) (cli : Cli (LibParam ⊕ TcpParam))
    (built : Built (LibParam ⊕ TcpParam)) (servers : List ListedServer) (p : TcpParam),
    cli.tlvBuff.contents = leavesData tcpBuildCli.tree cli →
      tcpBuildCli.tree.buildTlvBuffer outside tokens cli = .ok built →
      built.call = some (.inr p, .configDisable) →
        p.handler = some .configTcpServerHandler →
          ∃ negated, NeverPositive servers (configTcpServerHandler servers built.cli.tlvBuff) negated := by
  intro always
  have resolves : Resolves tcpBuildCli.tree unasked (Session.started tcpBuildCli.tree).cli.asked
      tcpBuildCli.tree.root
      noServerWords noServerPath 0 := noServer_resolves
  obtain ⟨after, builds, _⟩ :=
    resolved_call rfl rfl (Nat.le_of_ble_eq_true rfl) resolves rfl rfl (ordinary_param tcpServerName) rfl
  obtain ⟨negated, never⟩ := always unasked noServerWords _ _ [] tcpServerName started_leaves builds rfl rfl
  obtain ⟨args, decodes, named, _⟩ := disabled_decodes started_leaves builds rfl rfl
  have runs : configTcpServerHandler [] after.tlvBuff = configCommand tcpServerName.cmdCode [] args := by
    funext mode
    rw [configTcpServerHandler, decodes]
  exact creation_positive named rfl (.inl rfl) (runs ▸ never)

end TcpServerLib.Soundness
