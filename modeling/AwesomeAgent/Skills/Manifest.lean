import AwesomeAgent.Library.Dict
import AwesomeAgent.Library.Json
import AwesomeAgent.Library.Separators
import AwesomeAgent.Library.Text
import Mathlib.Data.List.Sort

/-!
# Skill manifests

A SKILL.md file starts with metadata in YAML. The YAML library, and what Python says about the
values it makes, are parameters; everything is a function of the text that the library is given.
-/

namespace AwesomeAgent.Skills

open Separators (splitMax)

/-! ## YAML -/

/-- The events of a document that are counted. -/
inductive YamlEvent
  | collectionStart
  | collectionEnd
  | scalar
  | alias
  | other

/-- How the library refuses a text. -/
inductive YamlFault
  | yaml
  | recursion
  | value (message : Text)

/-- The type of a value, with the values in it. -/
inductive YamlView (V : Type)
  | mapping (members : List (V × V))
  | list (items : List V)
  | collection (items : List V)
  | text (value : Text)
  | null
  | scalar

/-- The YAML library and the values it makes. -/
structure YamlLibrary where
  Value : Type
  parse : Text → List YamlEvent × Option YamlFault
  safeLoad : Text → Except YamlFault Value
  view : Value → YamlView Value
  identity : Value → Nat
  str : Value → Text
  truthy : Value → Bool
  json : Value → Option Json

/-! ## Descriptors -/

/-- Where a skill comes from. -/
inductive SkillSource
  | bundled
  | user
  | workspace
  deriving DecidableEq, Repr

/-- Small letters and digits. -/
def isNameCharacter (c : Char) : Bool := c.isLower || c.isDigit

/-- The names of skills. -/
def isSkillName : Text → Bool
  | [] => false
  | c :: rest =>
      c.isLower && rest.all (fun d => isNameCharacter d || d == '-') && decide (rest.length ≤ 63)

/-- The names of tools that a skill may allow. -/
def isAllowedToolName : Text → Bool
  | [] => false
  | c :: rest =>
      c.isLower && rest.all (fun d => isNameCharacter d || ['_', '.', '-'].contains d) &&
        decide (rest.length ≤ 199)

/-- What is known about a skill. -/
structure SkillDescriptor where
  name : Text
  description : Text
  source : SkillSource
  root : Text
  license : Option Text
  compatibility : Option Text
  metadata : List (Text × Json)
  allowedTools : List Text

/-- The fields of a descriptor that do not pass their checks. -/
def SkillDescriptor.invalidFields (d : SkillDescriptor) : List String :=
  (if isSkillName d.name then [] else ["name"]) ++
  (if 1 ≤ d.description.length ∧ d.description.length ≤ 500 then [] else ["description"]) ++
  (if ∀ value ∈ d.license, value.length ≤ 500 then [] else ["license"]) ++
  (if ∀ value ∈ d.compatibility, value.length ≤ 500 then [] else ["compatibility"]) ++
  (if d.allowedTools.length ≤ 128 ∧ d.allowedTools.Nodup ∧
      d.allowedTools.all isAllowedToolName = true then []
    else ["allowed_tools"])

/-! ## Parsing -/

/-- Why a manifest is refused. -/
inductive ManifestFault
  | value (message : Text)
  | unsupportedFields (names : List String)
  | validation (fields : List String)

/-- A fault with a fixed message. -/
def ManifestFault.of (message : String) : ManifestFault := .value message.toList

/-- Read the bytes of a manifest. -/
def decodeSkillManifest (data : Bytes) : Except ManifestFault Text :=
  if data.contains 0 then .error (.of "Binary Skill manifests are not supported")
  else
    match decodeUtf8 data with
    | none => .error (.of "invalid utf-8")
    | some text => .ok (normalizeNewlines text)

/-- Deepest nesting of collections. -/
def maxYamlDepth : Nat := 64

/-- Most values of a document. -/
def maxYamlNodes : Nat := 4096

/-- Most aliases of a document. -/
def maxYamlAliases : Nat := 64

/-- The fields of a manifest. -/
def allowedFields : List Text :=
  ["name", "description", "allowed-tools", "license", "compatibility", "metadata"].map
    String.toList

/-- What has been counted of a document. -/
structure YamlCount where
  depth : Int
  nodes : Nat
  aliases : Nat

/-- Count an event. -/
def countEvent (c : YamlCount) (event : YamlEvent) : Except ManifestFault YamlCount := do
  let c ← match event with
    | .collectionStart =>
        if maxYamlDepth < c.depth + 1 then
          .error (.of "Skill frontmatter exceeds the YAML depth limit")
        else .ok { c with depth := c.depth + 1, nodes := c.nodes + 1 }
    | .collectionEnd => .ok { c with depth := c.depth - 1 }
    | .scalar => .ok { c with nodes := c.nodes + 1 }
    | .alias =>
        if maxYamlAliases < c.aliases + 1 then
          .error (.of "Skill frontmatter exceeds the YAML alias limit")
        else .ok { c with aliases := c.aliases + 1, nodes := c.nodes + 1 }
    | .other => .ok c
  if maxYamlNodes < c.nodes then .error (.of "Skill frontmatter exceeds the YAML node limit")
  else .ok c

/-- How a fault of the library is told. -/
def YamlFault.manifest : YamlFault → ManifestFault
  | .yaml | .recursion => .of "Skill frontmatter is not bounded valid YAML"
  | .value message => .value message

section Parsing

variable (yaml : YamlLibrary)

/-- Check the bounds of a document before it is built. -/
def validateYamlEvents (source : Text) : Except ManifestFault Unit := do
  let parsed := yaml.parse source
  let count ← parsed.1.foldlM countEvent ⟨0, 0, 0⟩
  match parsed.2 with
  | some fault => .error fault.manifest
  | none =>
      if count.depth ≠ 0 then
        .error (.of "Skill frontmatter has unbalanced YAML collections")
      else .ok ()

/-- The values in a value. -/
def children (value : yaml.Value) : Option (List yaml.Value) :=
  match yaml.view value with
  | .mapping members => some (members.flatMap fun member => [member.1, member.2])
  | .list items | .collection items => some items
  | _ => none

/-- Count the values in a value, which is nested no deeper than what remains. -/
def walk : Nat → List Nat → Nat → yaml.Value → Except ManifestFault Nat
  | remaining, active, nodes, current =>
      if maxYamlNodes < nodes + 1 then
        .error (.of "Skill frontmatter exceeds the YAML node limit")
      else
        match remaining with
        | 0 => .error (.of "Skill frontmatter exceeds the YAML depth limit")
        | remaining + 1 =>
            match children yaml current with
            | none => .ok (nodes + 1)
            | some items =>
                if yaml.identity current ∈ active then
                  .error (.of "Skill frontmatter contains a recursive YAML alias")
                else
                  items.foldlM (walk remaining (yaml.identity current :: active)) (nodes + 1)

/-- Check the bounds of a value. -/
def validateYamlValue (value : yaml.Value) : Except ManifestFault Unit := do
  let _ ← walk yaml (maxYamlDepth + 1) [] 0 value
  pure ()

/-- The fields of a mapping; of equal names the last one counts. -/
def fieldsOf (members : List (yaml.Value × yaml.Value)) : Dict Text yaml.Value :=
  members.foldl (fun fields member => fields.set (yaml.str member.1) member.2) Dict.empty

/-- The fields that a source states. -/
def metadataFields (source : Text) : Except ManifestFault (Dict Text yaml.Value) := do
  validateYamlEvents yaml source
  let parsed ← (yaml.safeLoad source).mapError YamlFault.manifest
  validateYamlValue yaml parsed
  match yaml.view parsed with
  | .mapping members => .ok (fieldsOf yaml members)
  | _ => .error (.of "Skill frontmatter must be a mapping")

/-- Three hyphens. -/
def hyphens : Text := ['-', '-', '-']

/-- The fields in front of a manifest. -/
def frontmatter (text : Text) : Except ManifestFault (Dict Text yaml.Value) :=
  if ¬hyphens ++ ['\n'] <+: text then .error (.of "SKILL.md requires YAML frontmatter")
  else
    match splitMax hyphens 2 text with
    | [_, source, _] => metadataFields yaml source
    | _ => .error (.of "SKILL.md frontmatter is incomplete")

/-- The text of a field that is not empty, else the empty text. -/
def textOrEmpty (value : Option yaml.Value) : Text :=
  match value with
  | some value => if yaml.truthy value then yaml.str value else []
  | none => []

/-- The text of a field, if it has one. -/
def optionalString (value : Option yaml.Value) : Option Text :=
  value.bind fun value =>
    match yaml.view value with
    | .null => none
    | _ => some (yaml.str value)

/-- The tools that a skill allows. -/
def allowedTools (value : Option yaml.Value) : Except ManifestFault (List Text) :=
  match value with
  | none => .ok []
  | some value =>
      match yaml.view value with
      | .text tool => .ok [tool]
      | .list items => .ok (items.map yaml.str)
      | _ => .error (.of "allowed-tools must be a string or list")

/-- The members of the field for further metadata. -/
def rawMetadata (value : Option yaml.Value) :
    Except ManifestFault (List (yaml.Value × yaml.Value)) :=
  match value with
  | none => .ok []
  | some value =>
      match yaml.view value with
      | .mapping members => .ok members
      | _ => .error (.of "metadata must be a mapping")

/-- The values of further metadata as JSON, if all of them are. -/
def jsonMetadata (members : List (yaml.Value × yaml.Value)) : Option (List (Text × Json)) :=
  (fieldsOf yaml members).entries.mapM fun field => (yaml.json field.2).map (field.1, ·)

/-- The descriptor of a skill with given fields. -/
def descriptorOf (fields : Dict Text yaml.Value) (source : SkillSource) (root : Text)
    (expectedName : Option Text) : Except ManifestFault SkillDescriptor := do
  let unknown := fields.keys.filter fun name => !allowedFields.contains name
  if unknown ≠ [] then
    .error (.unsupportedFields ((unknown.map String.ofList).insertionSort (· ≤ ·)))
  let get := fun (name : String) => fields.get? name.toList
  let name := textOrEmpty yaml (get "name")
  if ¬∀ expected ∈ expectedName, name = expected then
    .error (.of "Skill name must match its directory")
  let allowed ← allowedTools yaml (get "allowed-tools")
  let members ← rawMetadata yaml (get "metadata")
  let descriptor (metadata : List (Text × Json)) : SkillDescriptor :=
    { name := name
      description := textOrEmpty yaml (get "description")
      source := source
      root := root
      license := optionalString yaml (get "license")
      compatibility := optionalString yaml (get "compatibility")
      metadata := metadata
      allowedTools := allowed }
  match jsonMetadata yaml members with
  | none => .error (.validation ((descriptor []).invalidFields ++ ["metadata"]))
  | some metadata =>
      if (descriptor metadata).invalidFields = [] then .ok (descriptor metadata)
      else .error (.validation (descriptor metadata).invalidFields)

/-- Read a manifest. -/
def parseSkillManifest (text : Text) (source : SkillSource) (root : Text)
    (expectedName : Option Text) : Except ManifestFault SkillDescriptor := do
  let fields ← frontmatter yaml text
  descriptorOf yaml fields source root expectedName

end Parsing

end AwesomeAgent.Skills
