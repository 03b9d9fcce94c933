import Mathlib.Data.List.Basic
import Mathlib.Logic.Function.Basic

/-!
# File content and its digest
-/

namespace AwesomeAgent

/-- File content. -/
abbrev Bytes := List UInt8

/-- The hexadecimal SHA-256 digest, taken to be free of collisions. -/
class ContentHash where
  sha256 : Bytes → String
  sha256_injective : Function.Injective sha256

/-- Digests that spell the content out. -/
@[reducible] def spelledHash : ContentHash where
  sha256 := fun content => String.ofList (content.map Char.ofUInt8)
  sha256_injective := by
    intro a b h
    refine List.map_injective_iff.mpr (fun x y hxy => ?_) (String.ofList_injective h)
    exact UInt8.toUInt32_inj.mp (congrArg Char.val hxy)

end AwesomeAgent
