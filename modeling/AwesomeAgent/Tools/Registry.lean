import AwesomeAgent.Library.CrashLogic
import AwesomeAgent.Library.Dict
import AwesomeAgent.Mcp.Structured
import AwesomeAgent.Modeling.Gateway
import Mathlib.Data.List.Dedup
import Mathlib.Data.List.Sort

/-!
# The registry of tools

A registry holds the tools by their names. An update checks the whole set of tools that would be
there before it puts the set in the place of the old one: the number of the tools, their names and
contracts, and the size of the catalog that a model is offered.
-/

namespace AwesomeAgent.Registry

open McpAdapter (FloatFormat Scalar iterencode)
open Modeling (isDispatchName isDispatchSegment)

/-- Most tools of a registry. -/
def maxRegisteredTools : Nat := 128

/-- Most bytes of the catalog of a registry. -/
def maxRegisteredToolCatalogBytes : Nat := 1024 * 1024

/-- Most characters of the name of a tool. -/
def maxRegisteredToolNameChars : Nat := 128

/-- Why an update of a registry is refused. -/
inductive RegistryError
  | duplicateToolName (name : Text)
  | value (message : Text)
  | toolRegistryLimit (message : String)
  deriving DecidableEq, Repr

/-- What the runtime writes as JSON: its floats, and which values are nested too deeply. -/
class JsonRuntime (F : Type) extends FloatFormat F where
  tooDeep : McpAdapter.Tree F → Bool

/-- A specification of a tool. -/
structure ToolSpec (F : Type) where
  name : Text
  description : Text
  inputSchema : List (PointText × McpAdapter.Tree F)
  capability : Text
  readOnly : Bool
  displayMetadata : List (PointText × McpAdapter.Tree F)

/-- A capability: segments between dots, at least two. -/
def isCapability (capability : Text) : Bool :=
  let segments := capability.splitOn '.'
  decide (2 ≤ segments.length) && segments.all (isDispatchSegment true)

/-- The checks of the model of a specification. -/
def ToolSpec.isValid {F : Type} (spec : ToolSpec F) : Bool :=
  isDispatchName spec.name && decide (1 ≤ spec.description.length) &&
    decide (spec.description.length ≤ 500) && isCapability spec.capability

/-- A callback of a tool; a describer may be the one that its specification yields. -/
inductive Callback
  | ofSpec
  | function (identity : Nat)
  | coroutine (identity : Nat)
  deriving DecidableEq

/-- Calls of a callback are coroutines. -/
def Callback.isAsync : Callback → Bool
  | .coroutine _ => true
  | _ => false

/-- Whether a call may be repeated after a crash. -/
inductive ToolReplaySafety
  | replayable
  | nonReplayable
  deriving DecidableEq

/-- Seconds, as a caller gives them. -/
inductive Seconds
  | number (seconds : Rat)
  | bool (b : Bool)
  | notFinite
  deriving DecidableEq

/-- Seconds of which there are finitely many, more than none. -/
def Seconds.isPositive : Seconds → Bool
  | .number seconds => decide (0 < seconds)
  | _ => false

/-- A tool with its runtime contract. -/
structure RegisteredTool (F : Type) where
  spec : ToolSpec F
  inputModel : Nat
  handler : Callback
  describe : Callback
  admitter : Callback
  replaySafety : ToolReplaySafety
  timeoutResolver : Option Callback
  cancellationGraceSeconds : Option Seconds

/-- Tools by their names. -/
abbrev Items (F : Type) : Type := Dict Text (RegisteredTool F)

/-- A registry. -/
structure ToolRegistry (F : Type) where
  items : Items F

/-- What an update does with a registry; a refused one leaves the registry that it is raised in. -/
abbrev Update (F α : Type) : Type := EStateM RegistryError (ToolRegistry F) α

/-! ## Checks of a set of tools -/

section Checks

variable {F : Type} [JsonRuntime F]

/-- Check the contract of a tool. -/
def validateRegisteredTool (name : Text) (registered : RegisteredTool F) :
    Except RegistryError Unit :=
  if registered.spec.name ≠ name ∨ registered.describe.isAsync = true ∨
      registered.admitter.isAsync = true ∨
      registered.timeoutResolver.any Callback.isAsync = true then
    .error (.toolRegistryLimit "Tool registry contains an invalid runtime contract")
  else .ok ()

/-- Check the grace of a tool. -/
def validateGrace (registered : RegisteredTool F) : Except RegistryError Unit :=
  if registered.cancellationGraceSeconds.all Seconds.isPositive then .ok ()
  else .error (.toolRegistryLimit "Tool registry contains an invalid cancellation grace")

/-- What a model is offered of a tool. -/
def payload (spec : ToolSpec F) : McpAdapter.Tree F :=
  .object [(pointsOf "name".toList, .scalar (.str (pointsOf spec.name))),
    (pointsOf "description".toList, .scalar (.str (pointsOf spec.description))),
    (pointsOf "input_schema".toList, .object spec.inputSchema)]

/-- The compact JSON text of a value, in UTF-8. -/
def encodeJson (value : McpAdapter.Tree F) : Option Bytes :=
  (iterencode value).toOption.bind fun chunks => encodePoints chunks.flatten

/-- The bytes that a tool takes in the catalog. -/
def encodeTool (spec : ToolSpec F) : Except RegistryError Bytes :=
  match JsonRuntime.tooDeep (payload spec), encodeJson (payload spec) with
  | false, some encoded => .ok encoded
  | _, _ => .error (.toolRegistryLimit "Tool registry contains an unsafe catalog contract")

/-- Check a specification again. -/
def validateToolSpec (spec : ToolSpec F) : Except RegistryError Unit :=
  if spec.isValid then .ok ()
  else .error (.toolRegistryLimit "Tool registry contains an invalid runtime contract")

/-- Check tools one after another, with the bytes of those before. -/
def validateTools : List (Text × RegisteredTool F) → Nat → Except RegistryError Unit
  | [], _ => .ok ()
  | (name, registered) :: rest, totalBytes => do
      validateRegisteredTool name registered
      validateGrace registered
      let encoded ← encodeTool registered.spec
      validateToolSpec registered.spec
      let totalBytes := totalBytes + encoded.length
      if maxRegisteredToolCatalogBytes < totalBytes then
        .error (.toolRegistryLimit "Tool registry exceeds the 1 MiB aggregate catalog limit")
      else validateTools rest totalBytes

/-- One text does not stand behind another in the order of code points. -/
def notAfter : Text → Text → Bool
  | [], _ => true
  | _ :: _, [] => false
  | c :: text, d :: other => decide (c.toNat < d.toNat) || (decide (c = d) && notAfter text other)

/-- The tools in the order of their names. -/
def sortedItems (items : Items F) : List (Text × RegisteredTool F) :=
  items.entries.insertionSort fun a b => notAfter a.1 b.1 = true

/-- Check a set of tools. -/
def validateSnapshot (items : Items F) : Except RegistryError Unit :=
  if maxRegisteredTools < items.entries.length then
    .error (.toolRegistryLimit "Tool registry exceeds the 128-tool aggregate limit")
  else if items.keys.any fun name => decide (maxRegisteredToolNameChars < name.length) then
    .error (.toolRegistryLimit "Tool registry contains a name outside downstream limits")
  else validateTools (sortedItems items) (2 + (items.entries.length - 1))

end Checks

/-! ## Updates -/

section Updates

variable {F : Type} [JsonRuntime F]

/-- Raise an error, or go on with a result. -/
def fromResult {α : Type} : Except RegistryError α → Update F α
  | .ok a => pure a
  | .error e => throw e

/-- Refuse an update unless something holds. -/
def require (holds : Bool) (error : RegistryError) : Update F Unit :=
  if holds then pure () else throw error

/-- Register a tool under its name. -/
def register (spec : ToolSpec F) (inputModel : Nat) (handler : Callback)
    (describe : Option Callback) (admitter : Callback) (replaySafety : ToolReplaySafety)
    (timeoutResolver : Option Callback) (cancellationGraceSeconds : Option Seconds) :
    Update F Unit := do
  let registry ← get
  require (registry.items.get? spec.name).isNone (.duplicateToolName spec.name)
  let updated := registry.items.set spec.name {
    spec := spec
    inputModel := inputModel
    handler := handler
    describe := describe.getD .ofSpec
    admitter := admitter
    replaySafety := replaySafety
    timeoutResolver := timeoutResolver
    cancellationGraceSeconds := cancellationGraceSeconds }
  fromResult (validateSnapshot updated)
  set (ToolRegistry.mk updated)

/-- The tool of a name. -/
def resolve (registry : ToolRegistry F) (name : Text) : Option (RegisteredTool F) :=
  registry.items.get? name

/-- The specifications in the order of the names. -/
def specifications (registry : ToolRegistry F) : List (ToolSpec F) :=
  (sortedItems registry.items).map fun item => item.2.spec

/-- Remove the tool of a name. -/
def unregister (name : Text) : Update F Unit :=
  modify fun registry => ⟨registry.items.erase name⟩

/-- Tools by their names; of tools with one name the last one counts. -/
def byName (tools : List (RegisteredTool F)) : Items F :=
  tools.foldl (fun items tool => items.set tool.spec.name tool) Dict.empty

/-- Put tools into a set of tools. -/
def updateWith (items replacements : Items F) : Items F :=
  replacements.entries.foldl (fun items item => items.set item.1 item.2) items

/-- The first name that has occurred before. -/
def firstRepeated (seen : List Text) : List Text → Option Text
  | [] => none
  | name :: rest =>
      if seen.contains name then some name else firstRepeated (seen ++ [name]) rest

/-- The set of tools after an exact set is replaced. -/
def exactSetSnapshot (items : Items F) (managedNames : List Text)
    (tools : List (RegisteredTool F)) : Except RegistryError (Items F) :=
  if managedNames = [] then
    .error (.value "Managed tool names must be non-empty strings".toList)
  else if managedNames.dedup.length ≠ managedNames.length then
    .error (.value "Managed tool names must be non-empty and unique".toList)
  else
    match firstRepeated [] (tools.map fun tool => tool.spec.name) with
    | some name => .error (.duplicateToolName name)
    | none =>
        let replacements := byName tools
        if replacements.keys.any fun name => !managedNames.contains name then
          .error (.value "Replacement tool is outside the managed exact set".toList)
        else
          .ok (updateWith (items.filterKeys fun name => !managedNames.contains name) replacements)

/-- Check the replacement of an exact set. -/
def validateExactSet (managedNames : List Text) (tools : List (RegisteredTool F)) :
    Update F Unit := do
  let registry ← get
  let updated ← fromResult (exactSetSnapshot registry.items managedNames tools)
  fromResult (validateSnapshot updated)

/-- Replace an exact set of tools. -/
def replaceExactSet (managedNames : List Text) (tools : List (RegisteredTool F)) :
    Update F Unit := do
  let registry ← get
  let updated ← fromResult (exactSetSnapshot registry.items managedNames tools)
  fromResult (validateSnapshot updated)
  set (ToolRegistry.mk updated)

/-- Namespaces of the tools of a server or of a user. -/
def isNamespace (namespaceName : Text) : Bool :=
  match namespaceName.splitOn '.' with
  | [root, name] =>
      decide (root = "mcp".toList ∨ root = "user".toList) && isDispatchSegment true name
  | _ => false

/-- A name belongs to a namespace. -/
def belongsTo (namespaceName name : Text) : Bool := (namespaceName ++ ['.']).isPrefixOf name

/-- Replace the tools of a namespace. -/
def replaceNamespace (namespaceName : Text) (tools : List (RegisteredTool F)) : Update F Unit := do
  require (isNamespace namespaceName)
    (.value ("Invalid tool namespace: ".toList ++ namespaceName))
  let replacements := byName tools
  require (decide (replacements.entries.length = tools.length)) (.duplicateToolName namespaceName)
  require (replacements.keys.all (belongsTo namespaceName))
    (.value ("Tool does not belong to namespace: ".toList ++ namespaceName))
  let registry ← get
  let others := registry.items.filterKeys fun name => !belongsTo namespaceName name
  let collisions := replacements.keys.filter fun name => (others.get? name).isSome
  require collisions.isEmpty (.duplicateToolName
    ((collisions.insertionSort fun a b => notAfter a b = true).headD []))
  let updated := updateWith others replacements
  fromResult (validateSnapshot updated)
  set (ToolRegistry.mk updated)

/-- Remove the tools of a namespace. -/
def removeNamespace (namespaceName : Text) : Update F Unit :=
  modify fun registry =>
    ⟨registry.items.filterKeys fun name => !belongsTo namespaceName name⟩

end Updates

end AwesomeAgent.Registry
