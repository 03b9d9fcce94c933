import AwesomeAgent.Library.Dict
import AwesomeAgent.Library.FaultySteps
import AwesomeAgent.Library.Text

/-!
# The scan of a tool schema

A schema is scanned before it is compiled: a stack holds the subschemas that are still to be
examined, each with the resource and the dialect under which it was reached, and references wait
until the stack is empty. A subschema is examined once.
-/

namespace AwesomeAgent.McpCatalog

/-- The most levels of a schema. -/
def maxSchemaDepth : Nat := 64

/-- A JSON value; objects and arrays are shared by their identities. -/
inductive Value (n : Nat)
  | null
  | bool (b : Bool)
  | number
  | str (text : Text)
  | ref (identity : Fin n)
  deriving DecidableEq

/-- An object or an array. -/
inductive Node (n : Nat)
  | object (members : Dict Text (Value n))
  | array (items : List (Value n))

/-- All objects and arrays of a schema. -/
abbrev Document (n : Nat) : Type := Fin n → Node n

/-- A schema: an object or a boolean. -/
inductive Schema (n : Nat)
  | object (identity : Fin n)
  | boolean (b : Bool)
  deriving DecidableEq

/-- The dialects that are supported. -/
inductive Dialect
  | draft3
  | draft4
  | draft6
  | draft7
  | draft201909
  | draft202012
  deriving DecidableEq, Repr

/-- Why a schema is refused. -/
inductive CatalogFault
  | catalog (message : String)
  | value
  deriving DecidableEq, Repr

/-- A condition that must hold. -/
def require (holds : Bool) (message : String) : Except CatalogFault Unit :=
  if holds then .ok () else .error (.catalog message)

/-! ## Schema positions -/

/-- Keywords whose values are schemas, by the form of the value. -/
structure DialectSchemaLocations where
  single : List String
  singleOrArray : List String
  arrays : List String
  mappings : List String
  dependencyMappings : List String

/-- Keywords that compose schemas. -/
def commonCompositionArrays : List String := ["allOf", "anyOf", "oneOf"]

/-- Keywords that map names to schemas. -/
def commonObjectMappings : List String := ["patternProperties", "properties"]

/-- The schema positions of a dialect. -/
def dialectSchemaLocations : Dialect → DialectSchemaLocations
  | .draft3 =>
      { single := ["additionalItems", "additionalProperties"]
        singleOrArray := ["disallow", "extends", "items", "type"]
        arrays := []
        mappings := commonObjectMappings
        dependencyMappings := ["dependencies"] }
  | .draft4 =>
      { single := ["additionalItems", "additionalProperties", "not"]
        singleOrArray := ["items"]
        arrays := commonCompositionArrays
        mappings := "definitions" :: commonObjectMappings
        dependencyMappings := ["dependencies"] }
  | .draft6 =>
      { single := ["additionalItems", "additionalProperties", "contains", "not", "propertyNames"]
        singleOrArray := ["items"]
        arrays := commonCompositionArrays
        mappings := "definitions" :: commonObjectMappings
        dependencyMappings := ["dependencies"] }
  | .draft7 =>
      { single :=
          ["additionalItems", "additionalProperties", "contains", "else", "if", "not",
            "propertyNames", "then"]
        singleOrArray := ["items"]
        arrays := commonCompositionArrays
        mappings := "definitions" :: commonObjectMappings
        dependencyMappings := ["dependencies"] }
  | .draft201909 =>
      { single :=
          ["additionalItems", "additionalProperties", "contains", "contentSchema", "else", "if",
            "not", "propertyNames", "then", "unevaluatedItems", "unevaluatedProperties"]
        singleOrArray := ["items"]
        arrays := commonCompositionArrays
        mappings := ["$defs", "definitions", "dependentSchemas"] ++ commonObjectMappings
        dependencyMappings := [] }
  | .draft202012 =>
      { single :=
          ["additionalProperties", "contains", "contentSchema", "else", "if", "items", "not",
            "propertyNames", "then", "unevaluatedItems", "unevaluatedProperties"]
        singleOrArray := []
        arrays := commonCompositionArrays ++ ["prefixItems"]
        mappings := ["$defs", "dependentSchemas"] ++ commonObjectMappings
        dependencyMappings := [] }

/-- Keywords that refer to schemas. -/
def referenceKeywords : List String := ["$ref", "$dynamicRef", "$recursiveRef"]

/-- What the libraries for schemas and URIs do. Sets of keywords are gone through in an order that
is not known. -/
class SchemaLibrary where
  validatorFor : Text → Option Dialect
  checkSchema : (n : Nat) → Dialect → Document n → Fin n → Bool
  vocabularies : Dialect → List Text
  resolveUri : Text → Text → Option (Text × Text)
  unquote : Text → Text
  iterationOrder : List String → List String
  mem_iterationOrder : ∀ keywords keyword, keyword ∈ iterationOrder keywords ↔ keyword ∈ keywords

open SchemaLibrary

section Scanning

variable {n : Nat} (doc : Document n)

/-- The members of an object. -/
def members (identity : Fin n) : Dict Text (Value n) :=
  match doc identity with
  | .object members => members
  | .array _ => .empty

/-- The value of a keyword. -/
def keywordValue (identity : Fin n) (keyword : String) : Option (Value n) :=
  (members doc identity).get? keyword.toList

/-- A value that is a schema. -/
def asSchema : Value n → Option (Schema n)
  | .bool b => some (.boolean b)
  | .ref identity =>
      match doc identity with
      | .object _ => some (.object identity)
      | .array _ => none
  | _ => none

/-- The items of an array that are schemas. -/
def arraySchemas : Option (Value n) → List (Schema n)
  | some (.ref identity) =>
      match doc identity with
      | .array items => items.filterMap (asSchema doc)
      | .object _ => []
  | _ => []

/-- The values of an object that are schemas. -/
def mappingSchemas : Option (Value n) → List (Schema n)
  | some (.ref identity) =>
      match doc identity with
      | .object members => members.entries.filterMap fun entry => asSchema doc entry.2
      | .array _ => []
  | _ => []

/-- A value that is a schema, or the items of an array that are. -/
def singleOrArraySchemas (value : Option (Value n)) : List (Schema n) :=
  match value.bind (asSchema doc) with
  | some schema => [schema]
  | none => arraySchemas doc value

variable [SchemaLibrary]

/-- The schemas in the schema positions of an object. -/
def schemaChildren (identity : Fin n) (dialect : Dialect) : List (Schema n) :=
  let locations := dialectSchemaLocations dialect
  let value := keywordValue doc identity
  (iterationOrder locations.single).flatMap (fun keyword =>
    ((value keyword).bind (asSchema doc)).toList) ++
  (iterationOrder locations.singleOrArray).flatMap (fun keyword =>
    singleOrArraySchemas doc (value keyword)) ++
  (iterationOrder locations.arrays).flatMap (fun keyword => arraySchemas doc (value keyword)) ++
  (iterationOrder locations.mappings).flatMap (fun keyword =>
    mappingSchemas doc (value keyword)) ++
  (iterationOrder locations.dependencyMappings).flatMap (fun keyword =>
    mappingSchemas doc (value keyword))

/-! ## Dialects and identifiers -/

/-- The dialect that an object names. -/
def validatorType (identity : Fin n) : Except CatalogFault Dialect :=
  match keywordValue doc identity "$schema" with
  | none | some .null => .ok .draft202012
  | some (.str name) =>
      match validatorFor name with
      | some dialect => .ok dialect
      | none => .error (.catalog "MCP JSON Schema dialect is not supported")
  | some _ => .error (.catalog "MCP JSON Schema dialect must be a string")

/-- Refuse vocabularies that are required but not known. -/
def validateRequiredVocabularies (identity : Fin n) (dialect : Dialect) :
    Except CatalogFault Unit :=
  match keywordValue doc identity "$vocabulary" with
  | none | some .null => .ok ()
  | some (.ref vocabularies) =>
      match doc vocabularies with
      | .array _ => .error (.catalog "MCP JSON Schema vocabulary declaration is invalid")
      | .object entries =>
          entries.entries.forM fun entry =>
            match entry.2 with
            | .bool required =>
                if required && !(SchemaLibrary.vocabularies dialect).contains entry.1 then
                  .error (.catalog "MCP JSON Schema requires an unknown vocabulary")
                else .ok ()
            | _ => .error (.catalog "MCP JSON Schema vocabulary declaration is invalid")
  | some _ => .error (.catalog "MCP JSON Schema vocabulary declaration is invalid")

/-- The keyword of identifiers. -/
def identifierKeyword : Dialect → String
  | .draft3 | .draft4 => "id"
  | _ => "$id"

/-- The identifier of an object. -/
def schemaIdentifier (identity : Fin n) (dialect : Dialect) : Option Text :=
  match keywordValue doc identity (identifierKeyword dialect) with
  | some (.str name) => some name
  | _ => none

/-- The resource and the fragment that an identifier names. -/
def resolveResourceIdentifier (baseUri : Text) (identifier : Option Text) :
    Except CatalogFault (Text × Text) :=
  match identifier with
  | none => .ok (baseUri, [])
  | some name =>
      if name.any isSpace then
        .error (.catalog "MCP JSON Schema resource identifier is invalid")
      else
        match resolveUri baseUri name with
        | none => .error .value
        | some (uri, fragment) => .ok (if uri = [] then baseUri else uri, unquote fragment)

/-! ## References -/

/-- A token of a pointer without its escapes. -/
def decodeJsonPointerToken : Text → Except CatalogFault Text
  | [] => .ok []
  | '~' :: '0' :: rest => (decodeJsonPointerToken rest).map ('~' :: ·)
  | '~' :: '1' :: rest => (decodeJsonPointerToken rest).map ('/' :: ·)
  | '~' :: _ =>
      .error (.catalog "MCP JSON Schema reference contains an invalid JSON Pointer token")
  | c :: rest => (decodeJsonPointerToken rest).map (c :: ·)

/-- The index that a token writes: `0`, or digits without a leading zero. -/
def arrayIndex (part : Text) : Option Nat :=
  if part ≠ [] ∧ part.all Char.isDigit = true ∧ (part.head? = some '0' → part = ['0']) then
    some (Nat.ofDigitChars 10 part 0)
  else none

/-- The value behind one token. -/
def followToken (current : Value n) (part : Text) : Except CatalogFault (Value n) :=
  let missing := .error (.catalog "MCP JSON Schema reference points to a missing value")
  match current with
  | .ref identity =>
      match doc identity with
      | .object members =>
          match members.get? part with
          | some value => .ok value
          | none => missing
      | .array items =>
          match (arrayIndex part).bind (items[·]?) with
          | some value => .ok value
          | none => missing
  | _ => missing

/-- Follow the tokens of a pointer. -/
def followPointer (current : Value n) : List Text → Except CatalogFault (Value n)
  | [] => .ok current
  | encoded :: rest => do
      let part ← decodeJsonPointerToken encoded
      let value ← followToken doc current part
      followPointer value rest

/-- The fragment of a reference. -/
def referenceFragment (reference : Text) : Text := unquote (reference.drop 1)

/-- A fragment is a pointer and no anchor. -/
def isPointer (fragment : Text) : Bool := fragment.isEmpty || fragment.head? == some '/'

/-- The schema that a pointer names. -/
def referenceTarget (value : Value n) : Except CatalogFault (Option (Schema n)) :=
  match asSchema doc value with
  | some target => .ok (some target)
  | none => .error (.catalog "MCP JSON Schema reference target is not a schema")

/-- Resolve a reference in a resource; an anchor has no target here. -/
def validateLocalReference (schema : Schema n) (reference : Text) (anchors : List Text) :
    Except CatalogFault (Option (Schema n)) :=
  if reference.head? ≠ some '#' then
    .error (.catalog "MCP JSON Schema external references are forbidden")
  else
    let fragment := referenceFragment reference
    if fragment = [] then .ok (some schema)
    else if fragment.head? ≠ some '/' then
      if anchors.contains fragment then .ok none
      else .error (.catalog "MCP JSON Schema reference points to a missing anchor")
    else
      match schema with
      | .boolean _ => .error (.catalog "MCP JSON Schema reference points to a missing value")
      | .object identity => do
          let value ← followPointer doc (.ref identity) ((fragment.drop 1).splitOn '/')
          referenceTarget doc value

/-! ## The scan -/

/-- A subschema that is to be examined, and how it was reached. -/
structure Entry (n : Nat) where
  schema : Schema n
  depth : Nat
  resourceUri : Text
  resourceRoot : Schema n
  dialect : Dialect

/-- A pointer that is to be resolved. -/
structure PointerReference (n : Nat) where
  reference : Text
  resourceUri : Text
  resourceRoot : Schema n
  dialect : Dialect
  depth : Nat

/-- An anchor that is to be there. -/
structure AnchorReference (n : Nat) where
  reference : Text
  resourceUri : Text
  resourceRoot : Schema n

/-- The names of a schema: its resources, and the anchors of each. -/
structure Names (n : Nat) where
  resourceRoots : List (Text × Schema n)
  anchors : List (Text × Text)

/-- The state of the scan; what comes next stands first. -/
structure Scan (n : Nat) where
  stack : List (Entry n)
  visited : List (Fin n)
  names : Names n
  pointerReferences : List (PointerReference n)
  anchorReferences : List (AnchorReference n)

/-- The anchors of a resource. -/
def Names.anchorsOf (names : Names n) (uri : Text) : List Text :=
  (names.anchors.filter fun anchor => anchor.1 == uri).map Prod.snd

/-- Record an anchor. -/
def Names.addAnchor (names : Names n) (uri anchor : Text) : Except CatalogFault (Names n) :=
  if names.anchors.contains (uri, anchor) then
    .error (.catalog "MCP JSON Schema contains a duplicate anchor")
  else .ok { names with anchors := (uri, anchor) :: names.anchors }

/-- Record the anchor of a keyword. -/
def declareAnchor (identity : Fin n) (uri : Text) (names : Names n) (keyword : String) :
    Except CatalogFault (Names n) :=
  match keywordValue doc identity keyword with
  | some (.str anchor) => names.addAnchor uri anchor
  | _ => .ok names

/-- Record an object as a resource. -/
def Names.addResource (names : Names n) (uri : Text) (identity : Fin n) :
    Except CatalogFault (Names n) :=
  match names.resourceRoots.lookup uri with
  | some existing => do
      require (existing = .object identity)
        "MCP JSON Schema contains a duplicate resource identifier"
      pure names
  | none => .ok { names with resourceRoots := (uri, .object identity) :: names.resourceRoots }

/-- Record an object that starts a resource of its own. -/
def Names.placeResource (names : Names n) (baseUri uri : Text) (identity : Fin n) :
    Except CatalogFault (Names n) :=
  if uri = baseUri then .ok names else names.addResource uri identity

/-- Record the fragment of an identifier as an anchor. -/
def Names.placeFragment (names : Names n) (uri fragment : Text) :
    Except CatalogFault (Names n) :=
  if fragment = [] then .ok names else names.addAnchor uri fragment

/-- The names behind an object with an identifier, and the resource that it belongs to. -/
def enterResource (names : Names n) (identity : Fin n) (uri : Text) (root : Schema n)
    (dialect : Dialect) : Except CatalogFault (Names n × Text × Schema n) :=
  match schemaIdentifier doc identity dialect with
  | none => .ok (names, uri, root)
  | some identifier => do
      let resource ← resolveResourceIdentifier uri (some identifier)
      let placed ← names.placeResource uri resource.1 identity
      let named ← placed.placeFragment resource.1 resource.2
      pure (named, resource.1, if resource.1 = uri then root else .object identity)

/-- The dialect of an object that is reached under a dialect. -/
def declaredDialect (identity : Fin n) (inherited : Dialect) : Except CatalogFault Dialect :=
  if (keywordValue doc identity "$schema").isSome then validatorType doc identity
  else .ok inherited

/-- The dialect of an object that is examined. -/
def currentDialect (start identity : Fin n) (inherited : Dialect) :
    Except CatalogFault Dialect := do
  let dialect ← declaredDialect doc identity inherited
  validateRequiredVocabularies doc identity dialect
  require ((keywordValue doc identity "$schema").isNone || identity == start ||
    checkSchema n dialect doc identity) "MCP tool contains an invalid JSON Schema"
  pure dialect

/-- Keep the reference of a keyword for later. -/
def collectReference (entry : Entry n) (identity : Fin n) (dialect : Dialect) (st : Scan n)
    (keyword : String) : Except CatalogFault (Scan n) :=
  match keywordValue doc identity keyword with
  | none | some .null => .ok st
  | some (.str reference) =>
      if reference.head? ≠ some '#' then
        .error (.catalog "MCP JSON Schema external references are forbidden")
      else if isPointer (referenceFragment reference) then
        .ok { st with
          pointerReferences :=
            ⟨reference, entry.resourceUri, entry.resourceRoot, dialect, entry.depth + 1⟩ ::
              st.pointerReferences }
      else
        .ok { st with
          anchorReferences :=
            ⟨reference, entry.resourceUri, entry.resourceRoot⟩ :: st.anchorReferences }
  | some _ => .error (.catalog "MCP JSON Schema reference is invalid")

/-- Put a child on the stack. -/
def pushChild (entry : Entry n) (dialect : Dialect) (st : Scan n) (child : Schema n) :
    Except CatalogFault (Scan n) :=
  match child with
  | .boolean _ =>
      .ok { st with
        stack := ⟨child, entry.depth + 1, entry.resourceUri, entry.resourceRoot, dialect⟩ ::
          st.stack }
  | .object identity => do
      let childDialect ← declaredDialect doc identity dialect
      let entered ←
        enterResource doc st.names identity entry.resourceUri entry.resourceRoot childDialect
      pure { st with
        names := entered.1
        stack := ⟨child, entry.depth + 1, entered.2.1, entered.2.2, childDialect⟩ :: st.stack }

/-- Examine an object. -/
def examine (start : Fin n) (entry : Entry n) (identity : Fin n) (st : Scan n) :
    Except CatalogFault (Scan n) := do
  let dialect ← currentDialect doc start identity entry.dialect
  let names ← ["$anchor", "$dynamicAnchor"].foldlM (declareAnchor doc identity entry.resourceUri)
    st.names
  let st ← (iterationOrder referenceKeywords).foldlM (collectReference doc entry identity dialect)
    { st with visited := identity :: st.visited, names := names }
  (schemaChildren doc identity dialect).foldlM (pushChild doc entry dialect) st

/-- Take a subschema off the stack. -/
def popStack (start : Fin n) (entry : Entry n) (st : Scan n) : Except CatalogFault (Scan n) :=
  if maxSchemaDepth < entry.depth then
    .error (.catalog "MCP tool schema exceeds the depth limit of 64")
  else
    match entry.schema with
    | .boolean _ => .ok st
    | .object identity =>
        if identity ∈ st.visited then .ok st else examine doc start entry identity st

/-- Put the target of a reference on the stack. -/
def pushTarget (reference : PointerReference n) (target : Schema n) (st : Scan n) :
    Except CatalogFault (Scan n) :=
  match target with
  | .boolean _ =>
      .ok { st with
        stack := ⟨target, reference.depth, reference.resourceUri, reference.resourceRoot,
          reference.dialect⟩ :: st.stack }
  | .object identity =>
      if identity ∈ st.visited then .ok st
      else do
        let dialect ← declaredDialect doc identity reference.dialect
        validateRequiredVocabularies doc identity dialect
        require (checkSchema n dialect doc identity) "MCP tool contains an invalid JSON Schema"
        let entered ← enterResource doc st.names identity reference.resourceUri
          reference.resourceRoot dialect
        pure { st with
          names := entered.1
          stack := ⟨target, reference.depth, entered.2.1, entered.2.2, dialect⟩ :: st.stack }

/-- Resolve a reference that waited. -/
def resolveReference (reference : PointerReference n) (st : Scan n) :
    Except CatalogFault (Scan n) := do
  let target ← validateLocalReference doc reference.resourceRoot reference.reference
    (st.names.anchorsOf reference.resourceUri)
  match target with
  | none => pure st
  | some target => pushTarget doc reference target st

/-- One step of the scan, or nothing when it is done. -/
def step (start : Fin n) (st : Scan n) : Option (Except CatalogFault (Scan n)) :=
  match st.stack with
  | entry :: stack => some (popStack doc start entry { st with stack := stack })
  | [] =>
      match st.pointerReferences with
      | reference :: references =>
          some (resolveReference doc reference { st with pointerReferences := references })
      | [] => none

/-- The steps of the scan, at most so many. -/
def run (start : Fin n) : Nat → Scan n → Option (Except CatalogFault (Scan n))
  | 0, _ => none
  | fuel + 1, st =>
      match step doc start st with
      | none => some (.ok st)
      | some (.error fault) => some (.error fault)
      | some (.ok next) => run start fuel next

/-- The resource that a schema without an identifier belongs to. -/
def rootResourceUri : Text := "https://awesome-agent.invalid/mcp/catalog/root".toList

/-- The entry of the whole schema. -/
def rootEntry (start : Fin n) (uri : Text) (dialect : Dialect) : Entry n :=
  ⟨.object start, 1, uri, .object start, dialect⟩

/-- The scan of a schema before its first step. -/
def beginScan (start : Fin n) (uri fragment : Text) (dialect : Dialect) : Scan n where
  stack := [rootEntry start uri dialect]
  visited := []
  names := ⟨[(uri, .object start)], if fragment = [] then [] else [(uri, fragment)]⟩
  pointerReferences := []
  anchorReferences := []

/-- The references to anchors that were kept. -/
def validateAnchorReferences (st : Scan n) : Except CatalogFault Unit :=
  st.anchorReferences.reverse.forM fun reference =>
    (validateLocalReference doc reference.resourceRoot reference.reference
      (st.names.anchorsOf reference.resourceUri)).map fun _ => ()

/-- Refuse schemas whose references do not resolve or that are too deep. -/
def validateStructureAndReferences (fuel : Nat) (start : Fin n) (dialect : Dialect) :
    Option (Except CatalogFault Unit) :=
  match resolveResourceIdentifier rootResourceUri (schemaIdentifier doc start dialect) with
  | .error fault => some (.error fault)
  | .ok (uri, fragment) =>
      match run doc start fuel (beginScan start uri fragment dialect) with
      | none => none
      | some (.error fault) => some (.error fault)
      | some (.ok st) => some (validateAnchorReferences doc st)

end Scanning

end AwesomeAgent.McpCatalog
