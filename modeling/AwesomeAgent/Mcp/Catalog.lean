import AwesomeAgent.Tools.RegistryUpdates

/-!
# Catalogs of MCP servers

The tools that a server lists are checked as a whole and compiled to a catalog of one generation.
The registry holds the tools of a catalog in the namespace of their server.
-/

namespace AwesomeAgent.McpManager

open Modeling (isDispatchSegment)
open Registry (RegisteredTool ToolSpec)

variable {F : Type}

/-! ## Servers and tools -/

/-- Where a server is declared. -/
inductive McpSource
  | user
  | workspace
  deriving DecidableEq

/-- Identifiers of servers: a segment of a name, of at most 64 characters. -/
def isServerId (id : Text) : Bool := isDispatchSegment true id && decide (id.length ≤ 64)

/-- The declaration of a server, with the hash of what would be started. -/
structure McpServerConfig where
  id : Text
  source : McpSource
  enabled : Bool
  configHash : Text
  valid : isServerId id = true

/-- A tool as a server lists it. -/
structure McpTool (F : Type) where
  name : Text
  description : Option Text
  inputSchema : List (PointText × McpAdapter.Tree F)
  annotations : List (PointText × McpAdapter.Tree F)

/-- The tools of a server, and the generation of their catalog. -/
structure McpCatalog (F : Type) where
  generation : Nat
  tools : List (McpTool F)

/-- What is made of the contract of a tool: its bytes, and whether its schemas compile. -/
structure SchemaCompiler (F : Type) where
  contractSize : McpTool F → Option Nat
  compileSchemas : McpTool F → Except String Unit

/-! ## Compiling a catalog -/

/-- Most tools of a catalog. -/
def maxMcpTools : Nat := 128

/-- Most bytes of a catalog. -/
def maxMcpCatalogBytes : Nat := 1024 * 1024

/-- Most characters of the name of a tool in its namespace. -/
def maxNamespacedMcpToolNameChars : Nat := 128

/-- The namespace of a server. -/
def namespaceOf (serverId : Text) : Text := "mcp.".toList ++ serverId

/-- The name of a tool in the namespace of its server. -/
def namespacedName (serverId name : Text) : Text := namespaceOf serverId ++ '.' :: name

/-- Check the contract of a tool, given the names before it. -/
def validateToolContract (tool : McpTool F) (names : List Text) (serverId : Text) :
    Except String Unit :=
  if isDispatchSegment true tool.name = false then .error "MCP tool name is not supported"
  else if maxNamespacedMcpToolNameChars < (namespacedName serverId tool.name).length then
    .error "MCP namespaced tool name exceeds the 128-character limit"
  else if tool.name ∈ names then .error "MCP catalog contains a duplicate tool name"
  else if tool.description.any fun text => decide (500 < text.length) then
    .error "MCP tool description exceeds the 500-character limit"
  else .ok ()

/-- Compile tools one after another, given the names and the bytes of those before. -/
def compileTools (compiler : SchemaCompiler F) (serverId : Text) :
    List (McpTool F) → List Text → Nat → Except String Unit
  | [], _, _ => .ok ()
  | tool :: rest, names, catalogBytes => do
      validateToolContract tool names serverId
      match compiler.contractSize tool with
      | none => .error "MCP tool schema is not bounded JSON"
      | some size =>
          if maxMcpCatalogBytes < catalogBytes + size then
            .error "MCP catalog exceeds the 1 MiB limit"
          else do
            compiler.compileSchemas tool
            compileTools compiler serverId rest (names ++ [tool.name]) (catalogBytes + size)

/-- Compile the catalog of a server. -/
def compileMcpCatalog (compiler : SchemaCompiler F) (tools : List (McpTool F)) (serverId : Text)
    (generation : Nat) : Except String (McpCatalog F) :=
  if isServerId serverId = false then .error "MCP server identifier is not supported"
  else if maxMcpTools < tools.length then .error "MCP catalog exceeds the 128-tool limit"
  else (compileTools compiler serverId tools [] 0).map fun _ => ⟨generation, tools⟩

/-- The tool of a name in a catalog. -/
def McpCatalog.resolve (catalog : McpCatalog F) (name : Text) : Option (McpTool F) :=
  catalog.tools.find? fun tool => decide (tool.name = name)

/-! ## Registered tools -/

/-- The function of the adapter that resolves timeouts. -/
def mcpExecutorTimeout : Registry.Callback := .function 0

/-- A tool as it is registered, with the number of its handler. -/
def registered (serverId : Text) (tool : McpTool F) (handler : Nat) : RegisteredTool F where
  spec :=
    { name := namespacedName serverId tool.name
      description :=
        match tool.description with
        | some (c :: text) => c :: text
        | _ => "MCP tool ".toList ++ tool.name
      inputSchema := tool.inputSchema
      capability := "mcp.invoke".toList
      readOnly := false
      displayMetadata := [(pointsOf "mcp_annotations".toList, .object tool.annotations)] }
  inputModel := handler
  handler := .coroutine handler
  describe := .function handler
  admitter := .function handler
  replaySafety := .nonReplayable
  timeoutResolver := some mcpExecutorTimeout
  cancellationGraceSeconds := none

/-- The tools of a catalog with handlers of consecutive numbers. -/
def numberedTools (serverId : Text) (catalog : McpCatalog F) (first : Nat) :
    List (RegisteredTool F) :=
  catalog.tools.zipIdx.map fun item => registered serverId item.1 (first + item.2)

/-- The tools of a catalog as they are registered, if all of their specifications are valid. -/
def registeredTools (serverId : Text) (catalog : McpCatalog F) (first : Nat) :
    Option (List (RegisteredTool F)) :=
  let tools := numberedTools serverId catalog first
  if tools.all fun tool => tool.spec.isValid then some tools else none

/-! ## Namespaces -/

private theorem dot_notMem_of_isDispatchSegment {text : Text}
    (h : isDispatchSegment true text = true) :
    '.' ∉ text := by
  cases text with
  | nil => exact List.not_mem_nil
  | cons c rest =>
    unfold isDispatchSegment at h
    rw [Bool.and_eq_true, List.all_eq_true] at h
    intro hmem
    rcases List.mem_cons.mp hmem with rfl | hmem
    · exact absurd h.1 (by decide)
    · exact absurd (h.2 _ hmem) (by decide)

private theorem eq_of_append_dot {a b front back : Text} (ha : '.' ∉ a) (hb : '.' ∉ b)
    (h : a ++ '.' :: front = b ++ '.' :: back) : a = b := by
  induction a generalizing b with
  | nil =>
    cases b with
    | nil => rfl
    | cons c b =>
      obtain ⟨rfl, -⟩ := List.cons.inj h
      exact absurd List.mem_cons_self hb
  | cons c a ih =>
    cases b with
    | nil =>
      obtain ⟨rfl, -⟩ := List.cons.inj h
      exact absurd List.mem_cons_self ha
    | cons d b =>
      obtain ⟨rfl, hrest⟩ := List.cons.inj h
      rw [ih (fun hmem => ha (List.mem_cons_of_mem _ hmem))
        (fun hmem => hb (List.mem_cons_of_mem _ hmem)) hrest]

private theorem dot_notMem_of_isServerId {id : Text} (h : isServerId id = true) : '.' ∉ id := by
  unfold isServerId at h
  rw [Bool.and_eq_true] at h
  exact dot_notMem_of_isDispatchSegment h.1

/-- A name is in the namespace of one server. -/
theorem serverId_unique {id other name : Text} (hid : isServerId id = true)
    (hother : isServerId other = true) (h : Registry.belongsTo (namespaceOf id) name = true)
    (h' : Registry.belongsTo (namespaceOf other) name = true) : id = other := by
  obtain ⟨front, hfront⟩ := List.isPrefixOf_iff_prefix.mp h
  obtain ⟨back, hback⟩ := List.isPrefixOf_iff_prefix.mp h'
  have heq := hfront.trans hback.symm
  unfold namespaceOf at heq
  simp only [List.append_assoc, List.singleton_append] at heq
  exact eq_of_append_dot (dot_notMem_of_isServerId hid) (dot_notMem_of_isServerId hother)
    (List.append_cancel_left heq)

end AwesomeAgent.McpManager
