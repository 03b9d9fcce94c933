import AwesomeAgent.Library.CodePoints

/-!
# Structured output of MCP tools

A client returns values of the runtime, which may share parts and contain themselves. They are
rendered as compact JSON, of which a bounded part is kept.
-/

namespace AwesomeAgent.McpAdapter

/-- The most characters of a content. -/
def maxContentChars : Nat := 30000

/-- The characters that are kept of the front of a longer content. -/
def contentHeadChars : Nat := 24000

/-- The characters that are kept of the end of a longer content. -/
def contentTailChars : Nat := 5000

/-- The most bytes of a structured output. -/
def maxStructuredWireBytes : Nat := 64 * 1024

/-- The most values of a structured output. -/
def maxStructuredNodes : Nat := 4096

/-- The most levels of a structured output. -/
def maxStructuredDepth : Nat := 64

/-- The most digits of an integer that the runtime writes. -/
def maxIntDigits : Nat := 4300

/-- Floats, and how the runtime writes them. -/
class FloatFormat (F : Type) where
  isFinite : F → Bool
  repr : F → Text
  repr_ascii : ∀ x, ∀ c ∈ repr x, c.toNat ≤ 0x7F

/-- Values without parts. -/
inductive Scalar (F : Type)
  | none
  | bool (b : Bool)
  | int (n : Int)
  | float (x : F)
  | str (text : PointText)
  deriving DecidableEq

/-- A value: a scalar or an object of the heap. -/
inductive PyValue (F : Type)
  | scalar (s : Scalar F)
  | object (identity : Nat)
  deriving DecidableEq

/-- An object of the heap. -/
inductive PyObject (F : Type)
  | dict (items : List (PyValue F × PyValue F))
  | list (items : List (PyValue F))
  | other

/-- The objects by their identities. -/
abbrev Heap (F : Type) : Type := Nat → PyObject F

/-! ## Trees -/

/-- A value without sharing. -/
inductive Tree (F : Type)
  | scalar (s : Scalar F)
  | object (members : List (PointText × Tree F))
  | array (items : List (Tree F))

/-- The text of a key. -/
def PyValue.key {F : Type} : PyValue F → Option PointText
  | .scalar (.str text) => some text
  | _ => none

/-- The tree of a value that has at most so many levels. -/
def treeOf {F : Type} (heap : Heap F) : Nat → PyValue F → Option (Tree F)
  | 0, _ => none
  | _ + 1, .scalar s => some (.scalar s)
  | levels + 1, .object identity =>
      match heap identity with
      | .dict items =>
          (items.mapM fun (item : PyValue F × PyValue F) => do
            pure (← item.1.key, ← treeOf heap levels item.2)).map .object
      | .list items => (items.mapM (treeOf heap levels)).map .array
      | .other => none

mutual

/-- How many values a tree has. -/
def Tree.nodes {F : Type} : Tree F → Nat
  | .scalar _ => 1
  | .object members => 1 + nodesOfMembers members
  | .array items => 1 + nodesOfItems items

/-- How many values the members of an object have. -/
def nodesOfMembers {F : Type} : List (PointText × Tree F) → Nat
  | [] => 0
  | (_, value) :: rest => value.nodes + nodesOfMembers rest

/-- How many values the items of an array have. -/
def nodesOfItems {F : Type} : List (Tree F) → Nat
  | [] => 0
  | value :: rest => value.nodes + nodesOfItems rest

end

/-! ## Encoding -/

/-- Why a value is not encoded. -/
inductive JsonValueError
  | intTooLong
  | floatOutOfRange
  deriving DecidableEq, Repr

/-- The runtime writes an integer. -/
def IsShort (n : Int) : Prop := n.natAbs < 10 ^ maxIntDigits

instance : DecidablePred IsShort := fun n => inferInstanceAs (Decidable (n.natAbs < _))

/-- Characters that are escaped by a letter. -/
def shortEscapes : List (CodePoint × Char) :=
  [('\\', '\\'), ('"', '"'), (Char.ofNat 0x08, 'b'), (Char.ofNat 0x0C, 'f'), ('\n', 'n'),
    ('\r', 'r'), ('\t', 't')].map fun pair => (CodePoint.ofChar pair.1, pair.2)

/-- A code point of a string. -/
def escapePoint (c : CodePoint) : PointText :=
  match shortEscapes.lookup c with
  | some letter => pointsOf ['\\', letter]
  | none =>
      if c.val ≤ 0x1F then
        pointsOf (['\\', 'u', '0', '0'] ++ [Nat.digitChar (c.val / 16), Nat.digitChar (c.val % 16)])
      else [c]

/-- A string with its quotes. -/
def encodeString (text : PointText) : PointText :=
  pointsOf ['"'] ++ text.flatMap escapePoint ++ pointsOf ['"']

section Encoding

variable {F : Type} [FloatFormat F]

/-- The text of a scalar. -/
def scalarText : Scalar F → Except JsonValueError PointText
  | .none => .ok (pointsOf "null".toList)
  | .bool true => .ok (pointsOf "true".toList)
  | .bool false => .ok (pointsOf "false".toList)
  | .str text => .ok (encodeString text)
  | .int n =>
      if IsShort n then .ok (pointsOf ((if n < 0 then ['-'] else []) ++ Nat.toDigits 10 n.natAbs))
      else .error .intTooLong
  | .float x =>
      if FloatFormat.isFinite x then .ok (pointsOf (FloatFormat.repr x))
      else .error .floatOutOfRange

/-- Put a separator in front of the chunks of an item, which a scalar shares. -/
def withBuffer (buffer : PointText) : Tree F → List PointText → List PointText
  | .scalar _, [text] => [buffer ++ text]
  | _, chunks => buffer :: chunks

mutual

/-- The chunks of a tree. -/
def iterencode : Tree F → Except JsonValueError (List PointText)
  | .scalar s => do pure [← scalarText s]
  | .object [] => .ok [pointsOf ['{', '}']]
  | .object (member :: members) => do
      let chunks ← memberChunks true (member :: members)
      pure ([pointsOf ['{']] ++ chunks ++ [pointsOf ['}']])
  | .array [] => .ok [pointsOf ['[', ']']]
  | .array (item :: items) => do
      let chunks ← itemChunks (pointsOf ['[']) (item :: items)
      pure (chunks ++ [pointsOf [']']])

/-- The chunks of the members of an object. -/
def memberChunks (first : Bool) :
    List (PointText × Tree F) → Except JsonValueError (List PointText)
  | [] => .ok []
  | (key, value) :: rest => do
      let here ← iterencode value
      let more ← memberChunks false rest
      pure ((if first then [] else [pointsOf [',']]) ++ [encodeString key, pointsOf [':']] ++
        here ++ more)

/-- The chunks of the items of an array, with what stands in front of the first. -/
def itemChunks (buffer : PointText) : List (Tree F) → Except JsonValueError (List PointText)
  | [] => .ok []
  | value :: rest => do
      let here ← iterencode value
      let more ← itemChunks (pointsOf [',']) rest
      pure (withBuffer buffer value here ++ more)

end

end Encoding

/-! ## Rendering -/

/-- What is kept of a content. -/
structure BoundedTextBuilder where
  totalChars : Nat
  exactParts : Option (List PointText)
  headParts : List PointText
  headChars : Nat
  tail : PointText

namespace BoundedTextBuilder

/-- Nothing yet. -/
def empty : BoundedTextBuilder := ⟨0, some [], [], 0, []⟩

/-- The last characters of a text. -/
def lastChars (n : Nat) (text : PointText) : PointText := text.drop (text.length - n)

/-- Add a chunk. -/
def add (builder : BoundedTextBuilder) (chunk : PointText) : BoundedTextBuilder :=
  if chunk = [] then builder
  else
    let totalChars := builder.totalChars + chunk.length
    let headRemaining := contentHeadChars - builder.headChars
    let head := chunk.take headRemaining
    { totalChars := totalChars
      exactParts :=
        match builder.exactParts with
        | none => none
        | some parts => if maxContentChars < totalChars then none else some (parts ++ [chunk])
      headParts := if 0 < headRemaining then builder.headParts ++ [head] else builder.headParts
      headChars := if 0 < headRemaining then builder.headChars + head.length else builder.headChars
      tail :=
        if contentTailChars ≤ chunk.length then lastChars contentTailChars chunk
        else lastChars contentTailChars (builder.tail ++ chunk) }

/-- What stands for the characters that are left out. -/
def marker (omitted : Nat) : PointText :=
  pointsOf ("\n...[MCP output truncated: ".toList ++ Nat.toDigits 10 omitted ++
    " characters omitted]...\n".toList)

/-- The content, and whether something is left out. -/
def finish (builder : BoundedTextBuilder) : PointText × Bool :=
  match builder.exactParts with
  | some parts => (parts.flatten, false)
  | none =>
      (builder.headParts.flatten ++
        marker (builder.totalChars - (contentHeadChars + contentTailChars)) ++ builder.tail, true)

end BoundedTextBuilder

/-- A block of content. -/
inductive ContentBlock
  | text (body : PointText)
  | other (type : PointText)

/-- The text of a block. -/
def ContentBlock.rendered : ContentBlock → PointText
  | .text body => body
  | .other type => pointsOf "[MCP content: ".toList ++ type ++ pointsOf "]".toList

/-- Add the blocks of a content. -/
def addBlocks (builder : BoundedTextBuilder) : List ContentBlock → BoundedTextBuilder
  | [] => builder
  | block :: blocks =>
      blocks.foldl (fun builder block => (builder.add (pointsOf ['\n'])).add block.rendered)
        (builder.add block.rendered)

/-- The bounded content of a result. -/
def boundedContent {F : Type} [FloatFormat F] (content : List ContentBlock)
    (structured : Option (Tree F)) : Except JsonValueError (PointText × Bool) :=
  if content ≠ [] then .ok (addBlocks .empty content).finish
  else
    match structured with
    | none => .ok BoundedTextBuilder.empty.finish
    | some tree => do
        let chunks ← iterencode tree
        pure (chunks.foldl BoundedTextBuilder.add .empty).finish

/-! ## The preflight -/

/-- Structured output that is refused. -/
inductive UnsafeStructuredOutput
  | mk
  deriving DecidableEq, Repr

/-- A child that a walk has still to look at. -/
inductive Child (F : Type)
  | item (value : PyValue F)
  | member (key value : PyValue F)

/-- A container under way. -/
structure Frame (F : Type) where
  children : List (Child F)
  childDepth : Nat
  identity : Nat

/-- The state of a walk. -/
structure WalkState (F : Type) where
  wireBytes : Nat
  nodes : Nat
  activeContainers : List Nat
  frames : List (Frame F)

/-- Count more bytes. -/
def addWireBytes (current additional : Nat) : Except UnsafeStructuredOutput Nat :=
  if maxStructuredWireBytes < current + additional then .error .mk else .ok (current + additional)

/-- The bytes of a code point of a string. -/
def pointWireBytes (c : CodePoint) : Except UnsafeStructuredOutput Nat :=
  if c.val ≤ 0x1F then .ok 6
  else if c.val = 0x22 ∨ c.val = 0x5C then .ok 2
  else if c.val ≤ 0x7F then .ok 1
  else if c.val ≤ 0x7FF then .ok 2
  else if 0xD800 ≤ c.val ∧ c.val ≤ 0xDFFF then .error .mk
  else if c.val ≤ 0xFFFF then .ok 3
  else .ok 4

/-- The bytes of the rest of a string. -/
def pointsWireBytes (remaining : Nat) : Nat → PointText → Except UnsafeStructuredOutput Nat
  | size, [] => .ok size
  | size, c :: rest => do
      let width ← pointWireBytes c
      if remaining < size + width then .error .mk
      else pointsWireBytes remaining (size + width) rest

/-- The bytes of a string. -/
def jsonStringWireBytes (text : PointText) (remaining : Nat) :
    Except UnsafeStructuredOutput Nat :=
  if remaining < text.length + 2 then .error .mk else pointsWireBytes remaining 2 text

/-- How many bits a number takes. -/
def bitLength (n : Nat) : Nat := if n = 0 then 0 else Nat.log2 n + 1

/-- The bytes of an integer. -/
def intWireBytes (n : Int) : Nat :=
  if n = 0 then 1
  else bitLength n.natAbs * 30103 / 100000 + 1 + (if n < 0 then 1 else 0)

section Preflight

variable {F : Type} [FloatFormat F]

/-- The bytes of a scalar. -/
def scalarWireBytes (remaining : Nat) : Scalar F → Except UnsafeStructuredOutput Nat
  | .none => .ok 4
  | .bool true => .ok 4
  | .bool false => .ok 5
  | .str text => jsonStringWireBytes text remaining
  | .int n => .ok (intWireBytes n)
  | .float x =>
      if FloatFormat.isFinite x then .ok (FloatFormat.repr x).length else .error .mk

/-- Look at a value. -/
def visit (heap : Heap F) (value : PyValue F) (depth : Nat) (st : WalkState F) :
    Except UnsafeStructuredOutput (WalkState F) :=
  if maxStructuredNodes < st.nodes + 1 then .error .mk
  else if maxStructuredDepth < depth then .error .mk
  else
    match value with
    | .scalar s => do
        let bytes ← scalarWireBytes (maxStructuredWireBytes - st.wireBytes) s
        let wireBytes ← addWireBytes st.wireBytes bytes
        pure { st with wireBytes := wireBytes, nodes := st.nodes + 1 }
    | .object identity =>
        match heap identity with
        | .other => .error .mk
        | .dict items =>
            if identity ∈ st.activeContainers then .error .mk
            else do
              let wireBytes ← addWireBytes st.wireBytes
                (2 + (items.length - 1) + items.length)
              pure
                { wireBytes := wireBytes
                  nodes := st.nodes + 1
                  activeContainers := identity :: st.activeContainers
                  frames := ⟨items.map fun item => .member item.1 item.2, depth + 1, identity⟩ ::
                    st.frames }
        | .list items =>
            if identity ∈ st.activeContainers then .error .mk
            else do
              let wireBytes ← addWireBytes st.wireBytes (2 + (items.length - 1))
              pure
                { wireBytes := wireBytes
                  nodes := st.nodes + 1
                  activeContainers := identity :: st.activeContainers
                  frames := ⟨items.map .item, depth + 1, identity⟩ :: st.frames }

/-- Go on to the next child, if there is one. -/
def advance (wireBytes nodes : Nat) (activeContainers : List Nat) :
    List (Frame F) → Except UnsafeStructuredOutput (Option ((PyValue F × Nat) × WalkState F))
  | [] => .ok none
  | ⟨[], _, identity⟩ :: frames =>
      advance wireBytes nodes (activeContainers.erase identity) frames
  | ⟨.item value :: children, childDepth, identity⟩ :: frames =>
      .ok (some ((value, childDepth),
        ⟨wireBytes, nodes, activeContainers, ⟨children, childDepth, identity⟩ :: frames⟩))
  | ⟨.member key value :: children, childDepth, identity⟩ :: frames =>
      match key.key with
      | none => .error .mk
      | some text => do
          let bytes ← jsonStringWireBytes text (maxStructuredWireBytes - wireBytes)
          let wireBytes ← addWireBytes wireBytes bytes
          pure (some ((value, childDepth),
            ⟨wireBytes, nodes, activeContainers, ⟨children, childDepth, identity⟩ :: frames⟩))

/-- The walk from a value on, for at most so many values. -/
def walk (heap : Heap F) : Nat → PyValue F → Nat → WalkState F →
    Option (Except UnsafeStructuredOutput Unit)
  | 0, _, _, _ => none
  | fuel + 1, value, depth, st =>
      match visit heap value depth st with
      | .error fault => some (.error fault)
      | .ok st =>
          match advance st.wireBytes st.nodes st.activeContainers st.frames with
          | .error fault => some (.error fault)
          | .ok none => some (.ok ())
          | .ok (some ((value, depth), st)) => walk heap fuel value depth st

/-- Refuse structured output that is not bounded. -/
def preflightStructuredContent (heap : Heap F) (structured : Option (PyValue F)) :
    Option (Except UnsafeStructuredOutput Unit) :=
  match structured with
  | none => some (.ok ())
  | some (.scalar _) => some (.error .mk)
  | some (.object identity) =>
      match heap identity with
      | .dict _ => walk heap (maxStructuredNodes + 1) (.object identity) 1 ⟨0, 0, [], []⟩
      | _ => some (.error .mk)

end Preflight

end AwesomeAgent.McpAdapter
