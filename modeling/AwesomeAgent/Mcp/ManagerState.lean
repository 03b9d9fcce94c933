import AwesomeAgent.Mcp.Manager

/-!
# What holds of the manager

A server has a client if and only if it has a catalog, and the tools in its namespace are those of
this catalog. Every client that was created is held by one server or has begun to close.
-/

namespace AwesomeAgent.McpManager

open Registry (JsonRuntime RegisteredTool RegistryOperation ToolRegistry)

variable {F : Type}

/-! ## Histories -/

/-- The client that an event is about. -/
def Event.client? : Event → Option Nat
  | .created client => some client
  | .published _ client _ _ => some client
  | .called _ client => some client
  | .answered client => some client
  | .closing client => some client
  | .interrupted _ => none

/-- The server that an event is about. -/
def Event.serverId? : Event → Option Text
  | .published serverId _ _ _ => some serverId
  | .interrupted serverId => some serverId
  | _ => none

/-- An event calls a client. -/
def Event.isCall (client : Nat) : Event → Bool
  | .called _ other => decide (other = client)
  | _ => false

/-- An event answers a call of a client. -/
def Event.isAnswer (client : Nat) : Event → Bool
  | .answered other => decide (other = client)
  | _ => false

/-- The calls of a client that were answered, and as many more. -/
def Answered (history : List Event) (client pending : Nat) : Prop :=
  history.countP (Event.isCall client) = history.countP (Event.isAnswer client) + pending

/-- The last that happened to the tools of a server is that their drop was interrupted. -/
def dropInterrupted (history : List Event) (serverId : Text) : Bool :=
  match history.reverse.find? fun event => decide (event.serverId? = some serverId) with
  | some (.interrupted _) => true
  | _ => false

/-- What holds of an event, given those before it. -/
def Law (earlier : List Event) : Event → Prop
  | .created client => ∀ event ∈ earlier, event.client? ≠ some client
  | .published serverId client generation _ =>
      .created client ∈ earlier ∧ .closing client ∉ earlier ∧
        ∀ other before names, .published serverId other before names ∈ earlier →
          before < generation
  | .called handler client =>
      .closing client ∉ earlier ∧ Answered earlier client 0 ∧
        ∃ names, .published handler.serverId client handler.generation names ∈ earlier ∧
          handler.toolName ∈ names
  | .answered client => Answered earlier client 1
  | .closing client => .created client ∈ earlier ∧ .closing client ∉ earlier
  | .interrupted _ => True

variable {history : List Event} {event : Event} {client : Nat}

/-- An event that is neither a call nor an answer of a client. -/
theorem answered_concat {pending : Nat}
    (hcall : event.isCall client = false) (hanswer : event.isAnswer client = false) :
    Answered (history ++ [event]) client pending ↔ Answered history client pending := by
  unfold Answered
  rw [List.countP_append, List.countP_append, List.countP_singleton, List.countP_singleton, hcall,
    hanswer]
  exact Iff.rfl

/-- An event of another client is no call of a client. -/
theorem isCall_eq_false (h : event.client? ≠ some client) :
    event.isCall client = false := by
  cases event with
  | called handler other => exact decide_eq_false fun heq => h (congrArg some heq)
  | _ => rfl

/-- An event of another client is no answer of a client. -/
theorem isAnswer_eq_false (h : event.client? ≠ some client) :
    event.isAnswer client = false := by
  cases event with
  | answered other => exact decide_eq_false fun heq => h (congrArg some heq)
  | _ => rfl

/-- A client that nothing has happened to. -/
theorem answered_of_fresh
    (h : ∀ event ∈ history, event.client? ≠ some client) : Answered history client 0 := by
  unfold Answered
  have hcalls : history.countP (Event.isCall client) = 0 := by
    rw [List.countP_eq_zero]
    intro event hevent
    rw [isCall_eq_false (h event hevent)]
    exact Bool.false_ne_true
  have hanswers : history.countP (Event.isAnswer client) = 0 := by
    rw [List.countP_eq_zero]
    intro event hevent
    rw [isAnswer_eq_false (h event hevent)]
    exact Bool.false_ne_true
  rw [hcalls, hanswers]

/-- A call that is not answered yet. -/
theorem answered_called (handler : Handler) (h : Answered history client 0) :
    Answered (history ++ [.called handler client]) client 1 := by
  unfold Answered at h ⊢
  simp [List.countP_append, Event.isCall, Event.isAnswer, h]

/-- A call that is answered. -/
theorem answered_answered (h : Answered history client 1) :
    Answered (history ++ [.answered client]) client 0 := by
  unfold Answered at h ⊢
  simp [List.countP_append, Event.isCall, Event.isAnswer, h]

/-- An event of another server interrupts no drop. -/
theorem dropInterrupted_concat {serverId : Text} (h : event.serverId? ≠ some serverId) :
    dropInterrupted (history ++ [event]) serverId = dropInterrupted history serverId := by
  unfold dropInterrupted
  rw [List.reverse_append, List.reverse_singleton, List.singleton_append,
    List.find?_cons_of_neg (by simpa using h)]

/-- An interrupted drop is one. -/
theorem dropInterrupted_interrupted (history : List Event) (serverId : Text) :
    dropInterrupted (history ++ [.interrupted serverId]) serverId = true := by
  unfold dropInterrupted
  rw [List.reverse_append, List.reverse_singleton, List.singleton_append,
    List.find?_cons_of_pos (by simp [Event.serverId?])]

/-! ## Servers -/

/-- The client that a request connects. -/
def Phase.hand : Phase → Option Nat
  | .connecting client _ _ => some client
  | _ => none

/-- The calls that a request waits for. -/
def Phase.pending : Phase → Nat
  | .calling _ => 1
  | _ => 0

/-- The client that a server holds. -/
def Server.held (server : Server F) : Option Nat :=
  (server.running.bind fun job => job.2.hand).or server.client

/-- The calls of the client of a server that are not answered. -/
def Server.pending (server : Server F) : Nat :=
  (server.running.map fun job => job.2.pending).getD 0

/-- The tools of a catalog as they are registered. -/
def publishedTools (serverId : Text) (catalog : Option (McpCatalog F)) (first : Nat) :
    List (RegisteredTool F) :=
  match catalog with
  | some catalog => numberedTools serverId catalog first
  | none => []

/-- The namespace of a server holds the tools of a catalog, and nothing else. -/
def Publishes (registry : ToolRegistry F) (handlers : List Handler) (serverId : Text)
    (catalog : Option (McpCatalog F)) : Prop :=
  ∃ first, (∀ c, catalog = some c → Locked.handlersOf serverId c <+: handlers.drop first) ∧
    ∀ name, Registry.belongsTo (namespaceOf serverId) name = true →
      Registry.resolve registry name =
        (publishedTools serverId catalog first).find? fun tool => decide (tool.spec.name = name)

/-- What holds of a server, whatever the request does that holds its lock. -/
structure Served (s : Manager F) (server : Server F) : Prop where
  paired : server.client.isSome = server.catalog.isSome
  generation : ∀ catalog, server.catalog = some catalog → catalog.generation = server.generation
  tools : Publishes s.registry s.handlers server.config.id server.catalog
  bounded : ∀ client generation names,
    .published server.config.id client generation names ∈ s.history →
      generation ≤ server.generation
  current : ∀ client catalog, server.client = some client → server.catalog = some catalog →
    .published server.config.id client catalog.generation (catalog.tools.map McpTool.name) ∈
      s.history

/-- A client that is held. -/
structure IsOpen (s : Manager F) (client pending : Nat) : Prop where
  created : .created client ∈ s.history
  unclosed : .closing client ∉ s.history
  answered : Answered s.history client pending

/-- What holds of the phase of a request. -/
def PhaseSound (s : Manager F) (server : Server F) : Phase → Prop
  | .connecting _ task generation => server.client = none ∧ generation = server.generation + 1 ∧
      ∃ load, s.tasks[task]? = some load ∧ load.generation = generation
  | .calling client => server.client = some client
  | _ => server.client = none

/-- What holds of the status of a server. -/
structure Reports (s : Manager F) (server : Server F) : Prop where
  connected : server.client.isSome = true → server.status = some ⟨.connected, none⟩
  stale : (∃ detail, server.status = some ⟨.connected, detail⟩) → server.client.isSome = true ∨
    dropInterrupted s.history server.config.id = true ∨
      ∃ request, server.running = some (request, .dropping)

/-- What holds of a server. -/
structure ServerSound (s : Manager F) (serverId : Text) (server : Server F) : Prop where
  named : server.config.id = serverId
  served : Served s server
  isOpen : ∀ client, server.held = some client → IsOpen s client server.pending
  reports : Reports s server
  phase : ∀ request phase, server.running = some (request, phase) → PhaseSound s server phase

/-- Every client belongs to one server or has begun to close. -/
structure Ownership (clients : Nat) (history : List Event) (owns : Text → Nat → Prop) : Prop where
  exclusive : ∀ serverId other client, owns serverId client → owns other client →
    serverId = other
  accounted : ∀ client < clients, .closing client ∈ history ∨ ∃ serverId, owns serverId client

/-- A server holds a client. -/
def Manager.Owns (s : Manager F) (serverId : Text) (client : Nat) : Prop :=
  ∃ server, s.servers.get? serverId = some server ∧ server.held = some client

/-- The server that is locked holds a client, or another one does. -/
def Locked.Owns (l : Locked F) (hand : Option Nat) (serverId : Text) (client : Nat) : Prop :=
  if serverId = l.server.config.id then l.server.client = some client ∨ hand = some client
  else l.manager.Owns serverId client

/-- The server of a request owns its client and what is in hand. -/
theorem Locked.owns_self {l : Locked F} {hand : Option Nat} :
    l.Owns hand l.server.config.id client ↔ l.server.client = some client ∨ hand = some client := by
  unfold Locked.Owns
  rw [if_pos rfl]

/-- Another server owns what it did. -/
theorem Locked.owns_other {l : Locked F} {hand : Option Nat} {serverId : Text}
    (h : serverId ≠ l.server.config.id) :
    l.Owns hand serverId client ↔ l.manager.Owns serverId client := by
  unfold Locked.Owns
  rw [if_neg h]

section Registry

variable [JsonRuntime F]

/-- What holds of the registry, of the loads of catalogs and of the history. -/
structure Recorded (s : Manager F) : Prop where
  registry : Registry.Sound s.registry.items
  fresh : ∀ event ∈ s.history, ∀ client, event.client? = some client → client < s.clients
  loads : ∀ load ∈ s.tasks, ∀ catalog, load.outcome = some (.loaded catalog) →
    catalog.generation = load.generation
  lawful : Throughout Law s.history

/-- What holds of the manager. -/
structure Sound (s : Manager F) : Prop where
  recorded : Recorded s
  servers : ∀ serverId server, s.servers.get? serverId = some server →
    ServerSound s serverId server
  ownership : Ownership s.clients s.history s.Owns

/-- What holds while a request goes on that has a client in its hand. -/
structure Holds (l : Locked F) (hand : Option Nat) (pending : Nat) : Prop where
  recorded : Recorded l.manager
  served : Served l.manager l.server
  isOpen : ∀ client, l.server.client = some client ∨ hand = some client →
    IsOpen l.manager client pending
  apart : hand.isSome = true → l.server.client = none
  others : ∀ serverId server, serverId ≠ l.server.config.id →
    l.manager.servers.get? serverId = some server → ServerSound l.manager serverId server
  ownership : Ownership l.manager.clients l.manager.history (l.Owns hand)

end Registry

end AwesomeAgent.McpManager
