import AwesomeAgent.Library.Runs
import AwesomeAgent.Mcp.Catalog

/-!
# The manager of MCP servers

Every server has a lock. The request that holds it drops the client of the server, connects a new
one or calls it, and may be cancelled wherever it waits. The catalog that a client listed is
published with its client and stays until one of them is dropped.
-/

namespace AwesomeAgent.McpManager

open Registry (JsonRuntime RegisteredTool RegistryOperation ToolRegistry)

variable {F : Type}

/-! ## States -/

/-- How a server is connected. -/
inductive McpConnectionState
  | disabled
  | untrusted
  | enablementRequired
  | configured
  | connected
  | error
  deriving DecidableEq

/-- The status of a server. -/
structure McpServerStatus where
  state : McpConnectionState
  detail : Option String
  deriving DecidableEq

/-- The handler of a registered tool calls the tool of one generation. -/
structure Handler where
  serverId : Text
  toolName : Text
  generation : Nat
  deriving DecidableEq

/-- What is asked of a server. -/
inductive Operation
  | start
  | restart
  | refreshEnablement
  | close
  | callTool (toolName : Text) (generation : Nat)
  deriving DecidableEq

/-- A request for a server, whose task may have been cancelled before. -/
structure Request where
  operation : Operation
  cancelling : Bool

/-- A request whose task is cancelled. -/
def Request.cancelled (request : Request) : Request := { request with cancelling := true }

/-- Where a request waits while it holds the lock: for a client to close whose catalog is gone, for
a catalog, for a client to close that did not connect or whose catalog was not published, for the
result of a call, and for a client to close whose call is uncertain. -/
inductive Phase
  | dropping
  | connecting (client task generation : Nat)
  | discarding (detail : String)
  | withdrawing
  | calling (client : Nat)
  | invalidated (timedOut : Bool)

/-- What the manager keeps for a server, the requests that wait for its lock, and the one that
holds it. -/
structure Server (F : Type) where
  config : McpServerConfig
  client : Option Nat
  catalog : Option (McpCatalog F)
  catalogTask : Option Nat
  generation : Nat
  status : Option McpServerStatus
  waiting : List Request
  running : Option (Request × Phase)

/-- What a client answers when it is asked for its tools. -/
inductive Listing (F : Type)
  | tools (tools : List (McpTool F))
  | timedOut
  | failed
  | cancelled

/-- How the load of a catalog ends. -/
inductive LoadOutcome (F : Type)
  | loaded (catalog : McpCatalog F)
  | catalogError
  | timedOut
  | failed
  | cancelled

/-- A task that loads a catalog. -/
structure CatalogTask (F : Type) where
  serverId : Text
  generation : Nat
  outcome : Option (LoadOutcome F)

/-- How a call of a client ends. `McpCallUncertain` is the manager's own error: no client raises it,
so an exception of the client always costs the connection. -/
inductive CallOutcome
  | result
  | raised
  | cancelled
  deriving DecidableEq

/-- What has happened to the clients, and the drops that were interrupted. -/
inductive Event
  | created (client : Nat)
  | published (serverId : Text) (client generation : Nat) (names : List Text)
  | called (handler : Handler) (client : Nat)
  | answered (client : Nat)
  | closing (client : Nat)
  | interrupted (serverId : Text)
  deriving DecidableEq

/-- The manager with the registry that it shares. -/
structure Manager (F : Type) where
  workspaceTrusted : Bool
  enablements : Dict Text Text
  registry : ToolRegistry F
  servers : Dict Text (Server F)
  tasks : List (CatalogTask F)
  handlers : List Handler
  clients : Nat
  history : List Event

/-- A server whose lock is held by a request. -/
structure Locked (F : Type) where
  manager : Manager F
  server : Server F
  request : Request

/-! ## While the lock is held -/

/-- The entry of a configuration enables it in the workspace. -/
def Manager.workspaceEnabled (s : Manager F) (config : McpServerConfig) : Bool :=
  decide (s.enablements.get? config.id = some config.configHash)

/-- A server may be connected. -/
def Manager.isEffective (s : Manager F) (config : McpServerConfig) : Bool :=
  match config.source with
  | .user => config.enabled
  | .workspace => s.workspaceTrusted && s.workspaceEnabled config

/-- The status of a server that is not connected. -/
def Manager.inactiveStatus (s : Manager F) (config : McpServerConfig) : McpServerStatus :=
  match config.source with
  | .user => if config.enabled then ⟨.configured, none⟩ else ⟨.disabled, none⟩
  | .workspace =>
      if s.workspaceTrusted = false then ⟨.untrusted, none⟩
      else if s.workspaceEnabled config then ⟨.configured, none⟩
      else ⟨.enablementRequired, none⟩

/-- The status of a server. -/
def Manager.statusOf (s : Manager F) (server : Server F) : McpServerStatus :=
  server.status.getD (s.inactiveStatus server.config)

/-- Put a server in the place of the one with its identifier. -/
def Manager.put (s : Manager F) (server : Server F) : Manager F :=
  { s with servers := s.servers.set server.config.id server }

/-- Note an event. -/
def Manager.note (s : Manager F) (event : Event) : Manager F :=
  { s with history := s.history ++ [event] }

/-- A registry that holds the tools of new handlers. -/
def Manager.publish (s : Manager F) (registry : ToolRegistry F) (handlers : List Handler) :
    Manager F :=
  { s with registry := registry, handlers := s.handlers ++ handlers }

/-- A client is created with a task that loads its catalog. -/
def Manager.create (s : Manager F) (serverId : Text) (generation : Nat) : Manager F :=
  { s with
    clients := s.clients + 1
    tasks := s.tasks ++ [⟨serverId, generation, none⟩]
    history := s.history ++ [.created s.clients] }

/-- Update the registry. -/
def Manager.register [JsonRuntime F] (s : Manager F) (operation : RegistryOperation F) :
    Manager F :=
  { s with registry := operation.after s.registry }

namespace Server

/-- A server whose lock is held by a request, or by none. -/
def run (server : Server F) (running : Option (Request × Phase)) : Server F :=
  { server with running := running }

/-- A server with another status. -/
def report (server : Server F) (status : Option McpServerStatus) : Server F :=
  { server with status := status }

/-- A server without a client. -/
def withoutClient (server : Server F) : Server F := { server with client := none }

/-- A server without a catalog, in the next generation. -/
def withoutCatalog (server : Server F) : Server F :=
  { server with catalog := none, generation := server.generation + 1 }

/-- A server with another task that loads its catalog. -/
def loading (server : Server F) (catalogTask : Option Nat) : Server F :=
  { server with catalogTask := catalogTask }

/-- A server that is connected. -/
def connected (server : Server F) (client generation : Nat) (catalog : McpCatalog F) : Server F :=
  { server with
    client := some client
    catalog := some catalog
    generation := generation
    status := some ⟨.connected, none⟩ }

/-- A server with other requests that wait. -/
def queue (server : Server F) (waiting : List Request) : Server F :=
  { server with waiting := waiting }

end Server

namespace Locked

/-- The request releases the lock. -/
def finish (l : Locked F) : Manager F := l.manager.put (l.server.run none)

/-- The request waits with the lock. -/
def await (l : Locked F) (phase : Phase) : Manager F :=
  l.manager.put (l.server.run (some (l.request, phase)))

/-- Note an event. -/
def record (l : Locked F) (event : Event) : Locked F := { l with manager := l.manager.note event }

/-- Set the status of the server. -/
def setStatus (l : Locked F) (status : Option McpServerStatus) : Locked F :=
  { l with server := l.server.report status }

/-- The status of the server without a client. -/
def inactiveStatus (l : Locked F) : McpServerStatus := l.manager.inactiveStatus l.server.config

section Registry

variable [JsonRuntime F]

/-- The catalog of the server and its tools are gone. -/
def invalidateCatalog (l : Locked F) : Locked F where
  manager := l.manager.register (.removeNamespace (namespaceOf l.server.config.id))
  server := l.server.withoutCatalog
  request := l.request

/-- A request without the client of its server. -/
def withoutClient (l : Locked F) : Locked F := { l with server := l.server.withoutClient }

/-- The client and the catalog of the server are gone, and the client begins to close. -/
def popClient (l : Locked F) : Locked F :=
  match l.server.client with
  | some client => l.withoutClient.invalidateCatalog.record (.closing client)
  | none => l.withoutClient.invalidateCatalog

/-- The end of the task that loaded the catalog is noted. -/
def collectTask (l : Locked F) : Locked F := { l with server := l.server.loading none }

/-- A task that loads a catalog for the server is not done. -/
def isLoading (l : Locked F) : Bool :=
  l.server.catalogTask.any fun task =>
    (l.manager.tasks[task]?).any fun load => load.outcome.isNone

/-- A new client is asked for its catalog. -/
def openClient (l : Locked F) : Manager F :=
  await ⟨l.manager.create l.server.config.id (l.server.generation + 1),
      l.server.loading (some l.manager.tasks.length), l.request⟩
    (.connecting l.manager.clients l.manager.tasks.length (l.server.generation + 1))

/-- Connect the server, unless the load of an earlier catalog is still pending. -/
def connectOneLocked (l : Locked F) (factory : Bool) : Manager F :=
  if l.isLoading then
    (l.invalidateCatalog.setStatus
      (some ⟨.error, some "Previous MCP connection cleanup is still pending."⟩)).finish
  else if factory then l.collectTask.openClient
  else l.collectTask.finish

/-- A client that did not connect begins to close. -/
def discard (l : Locked F) (client : Nat) (detail : String) : Manager F :=
  (l.record (.closing client)).await (.discarding detail)

/-- A client that did not connect is closed. -/
def discarded (l : Locked F) (detail : String) : Manager F :=
  (l.invalidateCatalog.setStatus (some ⟨.error, some detail⟩)).finish

/-- A catalog could not be published. -/
def withdraw (l : Locked F) (client : Nat) : Manager F :=
  ((l.withoutClient.invalidateCatalog.setStatus
    (some ⟨.error, some "MCP server catalog could not be published."⟩)).record
      (.closing client)).await .withdrawing

/-- The handlers of the tools of a catalog. -/
def handlersOf (serverId : Text) (catalog : McpCatalog F) : List Handler :=
  catalog.tools.map fun tool => ⟨serverId, tool.name, catalog.generation⟩

/-- The catalog of a client is in the registry. -/
def published (l : Locked F) (client generation : Nat) (catalog : McpCatalog F)
    (registry : ToolRegistry F) : Manager F :=
  finish
    { manager := (l.manager.publish registry (handlersOf l.server.config.id catalog)).note
        (.published l.server.config.id client generation (catalog.tools.map McpTool.name))
      server := l.server.connected client generation catalog
      request := l.request }

/-- Publish the catalog of a client. -/
def publish (l : Locked F) (client generation : Nat) (catalog : McpCatalog F) : Manager F :=
  match registeredTools l.server.config.id catalog l.manager.handlers.length with
  | none => l.withdraw client
  | some tools =>
      match (RegistryOperation.replaceNamespace (namespaceOf l.server.config.id) tools).run
          l.manager.registry with
      | .ok _ registry => l.published client generation catalog registry
      | .error _ _ => l.withdraw client

/-- The load of the catalog of a client has ended. -/
def loaded (l : Locked F) (client generation : Nat) : LoadOutcome F → Manager F
  | .loaded catalog => l.publish client generation catalog
  | .catalogError => l.discard client "MCP server returned an invalid tool catalog."
  | .timedOut => l.discard client "MCP server connection timed out."
  | .failed => l.discard client "MCP server connection failed."
  | .cancelled =>
      if l.request.cancelling then l.discard client "MCP server connection was cancelled."
      else l.discard client "MCP server connection failed."

/-- The client of the server is dropped. A call drops none before it is uncertain. -/
def dropped (l : Locked F) (factory : Bool) : Manager F :=
  match l.request.operation with
  | .start => (l.setStatus (some l.inactiveStatus)).finish
  | .restart =>
      let l := l.setStatus (some l.inactiveStatus)
      if l.manager.isEffective l.server.config then l.connectOneLocked factory else l.finish
  | .close => (l.setStatus (some l.inactiveStatus)).finish
  | _ => (l.setStatus none).finish

/-- Drop the client of the server. -/
def dropClientLocked (l : Locked F) (factory : Bool) : Manager F :=
  if l.server.client.isSome then l.popClient.await .dropping else l.popClient.dropped factory

/-- The outcome of a call is uncertain. -/
def invalidateCallLocked (l : Locked F) (detail : String) (timedOut : Bool) : Manager F :=
  let invalidated := l.popClient.setStatus (some ⟨.error, some detail⟩)
  if l.server.client.isSome then invalidated.await (.invalidated timedOut) else invalidated.finish

/-- Call a tool of a generation. -/
def callTool (l : Locked F) (toolName : Text) (generation : Nat) : Manager F :=
  match l.server.client, l.server.catalog with
  | some client, some catalog =>
      if (l.manager.statusOf l.server).state ≠ .connected then l.finish
      else if catalog.generation ≠ generation then l.finish
      else if (catalog.resolve toolName).isNone then l.finish
      else (l.record (.called ⟨l.server.config.id, toolName, generation⟩ client)).await
        (.calling client)
  | _, _ => l.finish

/-- The request holds the lock. -/
def begin (l : Locked F) (factory : Bool) : Manager F :=
  match l.request.operation with
  | .start =>
      if l.manager.isEffective l.server.config = false then l.dropClientLocked factory
      else if l.server.client.isSome then l.finish
      else l.connectOneLocked factory
  | .callTool toolName generation => l.callTool toolName generation
  | _ => l.dropClientLocked factory

/-- A client has closed. -/
def closed (l : Locked F) (factory : Bool) : Phase → Option (Manager F)
  | .dropping => some (l.dropped factory)
  | .discarding detail => some (l.discarded detail)
  | .withdrawing => some l.finish
  | .invalidated _ => some l.finish
  | _ => none

/-- The request is cancelled where it waits. -/
def cancel (l : Locked F) : Phase → Manager F
  | .dropping => (l.record (.interrupted l.server.config.id)).finish
  | .connecting client _ _ => l.discard client "MCP server connection was cancelled."
  | .discarding _ => l.finish
  | .withdrawing => l.finish
  | .calling _ =>
      l.invalidateCallLocked "MCP tool call was cancelled; outcome may be uncertain." false
  | .invalidated true =>
      l.invalidateCallLocked "MCP tool call was cancelled; outcome may be uncertain." false
  | .invalidated false => l.finish

/-- The request has waited for too long. -/
def timeout (l : Locked F) : Phase → Option (Manager F)
  | .connecting client task _ =>
      if (l.manager.tasks[task]?).any fun load => load.outcome.isNone then
        some (l.discard client "MCP server connection timed out.")
      else none
  | .calling _ =>
      some (l.invalidateCallLocked "MCP tool call timed out; outcome may be uncertain." true)
  | _ => none

/-- The load that the request waits for has ended. -/
def resume (l : Locked F) : Phase → Option (Manager F)
  | .connecting client task generation =>
      ((l.manager.tasks[task]?).bind CatalogTask.outcome).map (l.loaded client generation)
  | _ => none

/-- The call that the request waits for has ended. -/
def answer (l : Locked F) (outcome : CallOutcome) : Phase → Option (Manager F)
  | .calling client =>
      match outcome with
      | .result => some (l.record (.answered client)).finish
      | .raised =>
          some (l.invalidateCallLocked "MCP tool call failed; outcome may be uncertain." false)
      | .cancelled => some
          (l.invalidateCallLocked "MCP tool call was cancelled; outcome may be uncertain." false)
  | _ => none

end Registry

end Locked

/-! ## Steps -/

/-- What can happen. -/
inductive Action (F : Type)
  | publishEnablement (serverId : Text) (configHash : Option Text)
  | request (serverId : Text) (request : Request)
  | abandon (serverId : Text) (i : Nat)
  | acquire (serverId : Text) (i : Nat) (factory : Bool)
  | closed (serverId : Text) (factory : Bool)
  | cancel (serverId : Text)
  | timeout (serverId : Text)
  | list (task : Nat) (listing : Listing F)
  | collect (task : Nat)
  | resume (serverId : Text)
  | answer (serverId : Text) (outcome : CallOutcome)
  | register (operation : RegistryOperation F)

/-- What a listing of tools becomes. -/
def loadCatalog (compiler : SchemaCompiler F) (task : CatalogTask F) : Listing F → LoadOutcome F
  | .tools tools =>
      match compileMcpCatalog compiler tools task.serverId task.generation with
      | .ok catalog => .loaded catalog
      | .error _ => .catalogError
  | .timedOut => .timedOut
  | .failed => .failed
  | .cancelled => .cancelled

namespace Manager

/-- A server that has never been connected. -/
def fresh (config : McpServerConfig) : Server F where
  config := config
  client := none
  catalog := none
  catalogTask := none
  generation := 0
  status := none
  waiting := []
  running := none

/-- A manager that has just been made. -/
def initial (workspaceTrusted : Bool) (enablements : Dict Text Text)
    (configs : List McpServerConfig) : Manager F where
  workspaceTrusted := workspaceTrusted
  enablements := enablements
  registry := ⟨Dict.empty⟩
  servers := configs.foldl (fun servers config => servers.set config.id (fresh config)) Dict.empty
  tasks := []
  handlers := []
  clients := 0
  history := []

/-- A request may be made: a call comes from a handler, and the server has to be effective. -/
def admits (s : Manager F) (server : Server F) : Operation → Bool
  | .callTool toolName generation =>
      s.handlers.contains ⟨server.config.id, toolName, generation⟩ && s.isEffective server.config
  | _ => true

/-- The request that holds the lock of a server goes on. -/
def proceed (s : Manager F) (serverId : Text) (f : Locked F → Phase → Option (Manager F)) :
    Option (Manager F) :=
  match s.servers.get? serverId with
  | some server =>
      match server.running with
      | some (request, phase) => f ⟨s, server, request⟩ phase
      | none => none
  | none => none

/-- One step. A call that is not admitted is refused without a trace. -/
def step [JsonRuntime F] (compiler : SchemaCompiler F) (s : Manager F) :
    Action F → Option (Manager F)
  | .publishEnablement serverId configHash =>
      match s.servers.get? serverId with
      | some _ => some { s with enablements := match configHash with
          | some hash => s.enablements.set serverId hash
          | none => s.enablements.erase serverId }
      | none => none
  | .request serverId request =>
      match s.servers.get? serverId with
      | some server =>
          if s.admits server request.operation then
            some (s.put (server.queue (server.waiting ++ [request])))
          else some s
      | none => none
  | .abandon serverId i =>
      match s.servers.get? serverId with
      | some server => some (s.put (server.queue (server.waiting.eraseIdx i)))
      | none => none
  | .acquire serverId i factory =>
      match s.servers.get? serverId with
      | some server =>
          match server.running, server.waiting[i]? with
          | none, some request => some
              (Locked.begin ⟨s, server.queue (server.waiting.eraseIdx i), request⟩ factory)
          | _, _ => none
      | none => none
  | .closed serverId factory => s.proceed serverId fun l phase => l.closed factory phase
  | .cancel serverId =>
      s.proceed serverId fun l phase =>
        some (Locked.cancel { l with request := l.request.cancelled } phase)
  | .timeout serverId => s.proceed serverId Locked.timeout
  | .list task listing =>
      match s.tasks[task]? with
      | some load =>
          if load.outcome.isNone then some { s with
            tasks := s.tasks.set task { load with
              outcome := some (loadCatalog compiler load listing) } }
          else none
      | none => none
  | .collect task =>
      match s.tasks[task]? with
      | some load =>
          match load.outcome, s.servers.get? load.serverId with
          | some _, some server =>
              if server.catalogTask = some task then
                some (s.put (server.loading none))
              else some s
          | _, _ => none
      | none => none
  | .resume serverId => s.proceed serverId Locked.resume
  | .answer serverId outcome => s.proceed serverId fun l phase => l.answer outcome phase
  | .register operation => some (s.register operation)

end Manager

end AwesomeAgent.McpManager
