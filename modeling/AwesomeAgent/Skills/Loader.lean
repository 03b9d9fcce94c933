import AwesomeAgent.Context.Tokens
import AwesomeAgent.Skills.Manifest

/-!
# Loading skills

The body of a skill is what stands behind the metadata of its manifest, cut to a number of
tokens. The file is read again from the pinned package; what that read returns is given.
-/

namespace AwesomeAgent.Skills

open Context (estimateText)
open Separators (splitMax)

/-- The kinds of failures of a loader. -/
inductive SkillResourceErrorKind
  | invalidArguments
  | notFound
  | conflict
  | permissionDenied
  | executionFailed
  deriving DecidableEq, Repr

/-- A failure of a loader. -/
structure SkillResourceError where
  message : String
  kind : SkillResourceErrorKind
  deriving DecidableEq, Repr

/-- What can go wrong while a package is read. -/
inductive PackageFault
  | skillResource (error : SkillResourceError)
  | fileChanged
  | fileNotFound
  | os
  | unsafePath
  | fileTooLarge
  | value

/-- The failure of a fault. -/
def PackageFault.error : PackageFault → SkillResourceError
  | .skillResource error => error
  | .fileChanged => ⟨"Skill changed after discovery.", .conflict⟩
  | .fileNotFound => ⟨"Skill was not found.", .notFound⟩
  | .os | .unsafePath => ⟨"Skill could not be read safely.", .permissionDenied⟩
  | .fileTooLarge | .value => ⟨"Skill content is invalid.", .executionFailed⟩

/-- The pinned package of a discovered skill: its identity, and what reading its manifest
returns. -/
structure SkillBoundary where
  identity : Text
  manifest : Except PackageFault Bytes

/-- The discovered skills. -/
structure SkillCatalog where
  descriptors : Dict Text SkillDescriptor
  boundaries : Dict Text SkillBoundary

/-- Why a skill is not loaded. -/
inductive LoadFault
  | skillNotFound (name : Text)
  | resource (error : SkillResourceError)
  | value (message : String)

/-- A loaded skill. -/
structure LoadedSkill where
  descriptor : SkillDescriptor
  body : Text
  estimatedTokens : Nat
  truncated : Bool

/-- The descriptor and the package of a skill with an expected identity. -/
def SkillCatalog.target (catalog : SkillCatalog) (name expectedIdentity : Text) :
    Except LoadFault (SkillDescriptor × SkillBoundary) :=
  match catalog.descriptors.get? name, catalog.boundaries.get? name with
  | some descriptor, some boundary =>
      if boundary.identity ≠ expectedIdentity then
        .error (.resource
          ⟨"Skill identity does not match the frozen Turn snapshot.", .conflict⟩)
      else .ok (descriptor, boundary)
  | _, _ => .error (.skillNotFound name)

/-- Read the bytes of a manifest. -/
def decodeText (data : Bytes) : Except PackageFault Text :=
  if data.contains 0 then
    .error (.skillResource ⟨"Binary Skill resources are not supported.", .executionFailed⟩)
  else
    match decodeUtf8 data with
    | none => .error .value
    | some text => .ok (normalizeNewlines text)

/-- Search for the length of a beginning of a text that fits. -/
def fitPrefix (content : Text) (tokenLimit : Int) (low high : Nat) : Nat :=
  if low < high then
    let midpoint := (low + high + 1) / 2
    if estimateText (content.take midpoint) ≤ tokenLimit then
      fitPrefix content tokenLimit midpoint high
    else fitPrefix content tokenLimit low (midpoint - 1)
  else low
termination_by high - low

/-- A text, or a beginning of it that fits. -/
def bounded (content : Text) (tokenLimit : Int) : Except LoadFault (Text × Bool) :=
  if tokenLimit ≤ 0 then .error (.value "token_limit must be positive")
  else if estimateText content ≤ tokenLimit then .ok (content, false)
  else .ok (content.take (fitPrefix content tokenLimit 0 content.length), true)

/-- A text without the newlines in front. -/
def stripLeadingNewlines (text : Text) : Text :=
  text.dropWhile fun c => c == '\r' || c == '\n'

/-- The loaded skill of a descriptor with a body. -/
def loadedSkill (descriptor : SkillDescriptor) (body : Text) (tokenLimit : Int) :
    Except LoadFault LoadedSkill := do
  let cut ← bounded (stripLeadingNewlines body) tokenLimit
  pure ⟨descriptor, cut.1, estimateText cut.1, cut.2⟩

/-- The loaded skill of a manifest in parts. -/
def loadParts (descriptor : SkillDescriptor) (tokenLimit : Int) :
    List Text → Except LoadFault LoadedSkill
  | [_, _, body] => loadedSkill descriptor body tokenLimit
  | _ => .error (.resource ⟨"SKILL.md frontmatter is incomplete.", .executionFailed⟩)

/-- Load a skill. -/
def SkillCatalog.load (catalog : SkillCatalog) (name expectedIdentity : Text)
    (tokenLimit : Int) : Except LoadFault LoadedSkill := do
  let target ← catalog.target name expectedIdentity
  let text ← (target.2.manifest >>= decodeText).mapError fun fault => .resource fault.error
  loadParts target.1 tokenLimit (splitMax hyphens 2 text)

end AwesomeAgent.Skills
