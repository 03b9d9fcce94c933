import AwesomeAgent.Events.Emitter
import AwesomeAgent.Library.Content
import AwesomeAgent.Library.Json
import AwesomeAgent.Library.Lines

/-!
# NDJSON frames

The two senders write the compact text of a value and a newline; the two receivers cut a
stream of chunks into lines of bounded length and read each of them.
-/

namespace AwesomeAgent

/-- The terminator of a frame. -/
def newline : UInt8 := 0x0a

/-- The longest frame, without its newline. -/
def maxFrameBytes : Nat := 1024 * 1024

/-- The UTF-8 encoding of a text. -/
def encodeText (text : List Char) : Bytes := text.flatMap String.utf8EncodeChar

/-- The text of bytes that are UTF-8. -/
def decodeText (bytes : Bytes) : Option (List Char) :=
  bytes.toByteArray.utf8Decode?.map Array.toList

/-- The value of decimal digits. -/
def digitsValue (digits : List Char) : Nat :=
  digits.foldl (fun n c => n * 10 + (c.toNat - 48)) 0

/-- The value of an exponent part. -/
def exponentValue : List Char → Int
  | _ :: '-' :: digits => -(digitsValue digits : Int)
  | _ :: '+' :: digits => digitsValue digits
  | _ :: digits => digitsValue digits
  | [] => 0

/-- The numeral has an integral value that is not a safe integer. -/
def Numeral.unsafeInteger (n : Numeral) : Bool :=
  let unsigned := match n.chars with
    | '-' :: rest => rest
    | rest => rest
  let digits := unsigned.takeWhile Char.isDigit
  let rest := unsigned.dropWhile Char.isDigit
  let fraction := if rest.head? = some '.' then rest.tail.takeWhile Char.isDigit else []
  let exponent := if rest.head? = some '.' then rest.tail.dropWhile Char.isDigit else rest
  let mantissa := digitsValue (digits ++ fraction)
  let scale := exponentValue exponent - fraction.length
  if 0 ≤ scale then decide (maxJsonSafeInteger < mantissa * 10 ^ scale.toNat)
  else decide (mantissa % 10 ^ (-scale).toNat = 0 ∧
    maxJsonSafeInteger < mantissa / 10 ^ (-scale).toNat)

/-- No surrogate of the string stands alone. -/
def validUnicode : List UInt16 → Bool
  | [] => true
  | [u] => !JsonText.isHigh u && !JsonText.isLow u
  | u :: v :: rest =>
      if JsonText.isHigh u ∧ JsonText.isLow v then validUnicode rest
      else !JsonText.isHigh u && !JsonText.isLow u && validUnicode (v :: rest)

/-- The deepest value that the core sends. -/
def maxProtocolJsonDepth : Nat := 64

mutual

/-- The core sends a value with safe numbers and valid strings that is not too deep. -/
def snapshotJsonFrame (depth : Nat) : Json → Bool
  | .null => decide (depth ≤ maxProtocolJsonDepth)
  | .bool _ => decide (depth ≤ maxProtocolJsonDepth)
  | .number n => decide (depth ≤ maxProtocolJsonDepth) && !n.unsafeInteger
  | .string units => decide (depth ≤ maxProtocolJsonDepth) && validUnicode units
  | .array items => decide (depth ≤ maxProtocolJsonDepth) && snapshotItems (depth + 1) items
  | .object members =>
      decide (depth ≤ maxProtocolJsonDepth) && snapshotMembers (depth + 1) members

/-- The checks of the items of an array. -/
def snapshotItems (depth : Nat) : List Json → Bool
  | [] => true
  | v :: items => snapshotJsonFrame depth v && snapshotItems depth items

/-- The checks of the keys and values of an object. -/
def snapshotMembers (depth : Nat) : List (List UInt16 × Json) → Bool
  | [] => true
  | (key, v) :: members =>
      validUnicode key && snapshotJsonFrame depth v && snapshotMembers depth members

end

/-- Why the core refuses to send a value. -/
inductive FrameError
  | frameInvalid
  | frameTooLarge
  deriving DecidableEq, Repr

/-- The bytes that the writer of the core hands to its output. -/
def JsonLineWriter.frame (value : Json) : Except FrameError Bytes :=
  let content := encodeText value.render
  if snapshotJsonFrame 1 value = false then .error .frameInvalid
  else if maxFrameBytes < content.length then .error .frameTooLarge
  else .ok (content ++ [newline])

/-- The errors of the receiver in the interface. -/
inductive NdjsonError
  | finished
  | exceeds
  | notTerminated
  | notUtf8
  | notJson
  deriving DecidableEq, Repr

/-- The message of an error. -/
def NdjsonError.message : NdjsonError → String
  | .finished => "Decoder is already finished"
  | .exceeds => "NDJSON frame exceeds " ++ toString maxFrameBytes ++ " bytes"
  | .notTerminated => "Oversized NDJSON frame was not terminated"
  | .notUtf8 => "NDJSON frame is not valid UTF-8"
  | .notJson => "NDJSON frame is not valid JSON"

/-- The frame that the interface sends. -/
def encodeFrame (value : Json) : Except NdjsonError Bytes :=
  let content := encodeText value.render
  if maxFrameBytes < content.length then .error .exceeds else .ok (content ++ [newline])

/-- What a text decoder does that raised and was not flushed. It may keep bytes that it did
not read, so nothing is assumed about it. -/
structure StaleText (δ : Type) where
  fail : Option δ → Bytes → δ
  resume : δ → Bytes → Option (List Char)

/-- The text of a line; a byte order mark at its start is dropped. -/
def decodeMarked (bytes : Bytes) : Option (List Char) :=
  (decodeText bytes).map fun text => if text.head? = some '\uFEFF' then text.tail else text

/-- Decode a line and flush the decoder. -/
def StaleText.decode {δ : Type} (stale : StaleText δ) (decoder : Option δ) (bytes : Bytes) :
    Option (List Char) :=
  match decoder with
  | some d => stale.resume d bytes
  | none => decodeMarked bytes

/-- The receiver in the interface. Its text decoder is flushed unless it raised. -/
structure NdjsonDecoder (δ : Type) where
  decoder : Option δ
  buffer : Bytes
  discardingOversizedLine : Bool
  finished : Bool

namespace NdjsonDecoder

variable {δ : Type} (stale : StaleText δ)

/-- A new receiver. -/
def fresh : NdjsonDecoder δ := ⟨none, [], false, false⟩

/-- A line without one carriage return at its end. -/
def trimReturn (line : Bytes) : Bytes :=
  if line.getLast? = some 0x0d then line.dropLast else line

/-- Read the buffered line; an empty line has no value. -/
def consumeLine : EStateM NdjsonError (NdjsonDecoder δ) (List Json) := fun s =>
  let bytes := trimReturn s.buffer
  let s := { s with buffer := [] }
  if bytes = [] then .ok [] s
  else match stale.decode s.decoder bytes with
    | none => .error .notUtf8 { s with decoder := some (stale.fail s.decoder bytes) }
    | some text =>
        match Json.parse text with
        | none => .error .notJson { s with decoder := none }
        | some value => .ok [value] { s with decoder := none }

/-- Take the segments of a chunk that end with a newline, until one of them raises. -/
def pushLines (values : List Json) : List Bytes → EStateM NdjsonError (NdjsonDecoder δ) (List Json)
  | [], s => .ok values s
  | segment :: segments, s =>
      if s.discardingOversizedLine then
        pushLines values segments { s with discardingOversizedLine := false }
      else if maxFrameBytes < s.buffer.length + segment.length then
        .error .exceeds { s with buffer := [] }
      else match consumeLine stale { s with buffer := s.buffer ++ segment } with
        | .error e s => .error e s
        | .ok line s => pushLines (values ++ line) segments s

/-- Take the segment of a chunk that no newline ends. -/
def pushRest (values : List Json) (segment : Bytes) :
    EStateM NdjsonError (NdjsonDecoder δ) (List Json) := fun s =>
  if segment = [] ∨ s.discardingOversizedLine then .ok values s
  else if maxFrameBytes < s.buffer.length + segment.length then
    .error .exceeds { s with buffer := [], discardingOversizedLine := true }
  else .ok values { s with buffer := s.buffer ++ segment }

/-- Take a chunk. A line that raises ends the call: its values and the rest are lost. -/
def push (chunk : Bytes) : EStateM NdjsonError (NdjsonDecoder δ) (List Json) := fun s =>
  if s.finished then .error .finished s
  else match pushLines stale [] (Lines.complete newline chunk) s with
    | .error e s => .error e s
    | .ok values s => pushRest values (Lines.pending newline chunk) s

/-- Take the end of the stream. -/
def finish : EStateM NdjsonError (NdjsonDecoder δ) (List Json) := fun s =>
  if s.finished then .error .finished s
  else if s.discardingOversizedLine then .error .notTerminated { s with finished := true }
  else consumeLine stale { s with finished := true }

/-- What a call yields: its values, or its error. -/
def outcome : EStateM.Result NdjsonError (NdjsonDecoder δ) (List Json) →
    List (Except NdjsonError Json) × NdjsonDecoder δ
  | .ok values s => (values.map .ok, s)
  | .error e s => ([.error e], s)

/-- What the receiver yields for a stream of chunks. -/
def run (s : NdjsonDecoder δ) : List Bytes → List (Except NdjsonError Json)
  | [] => (outcome (finish stale s)).1
  | chunk :: chunks =>
      (outcome (push stale chunk s)).1 ++ run (outcome (push stale chunk s)).2 chunks

end NdjsonDecoder

/-- What a read of the core yields. -/
inductive LineRead
  | line (content : Bytes)
  | lineTooLarge
  | ended
  deriving DecidableEq, Repr

/-- The receiver in the core. An empty chunk of its source is the end of the stream. -/
structure NdjsonReader where
  source : List Bytes
  buffer : Bytes
  eof : Bool

namespace NdjsonReader

/-- Skip the rest of a line that is too long. -/
def discardOversizedLine : List Bytes → NdjsonReader
  | [] => ⟨[], [], true⟩
  | chunk :: source =>
      if chunk = [] then ⟨source, [], true⟩
      else match Lines.first newline chunk with
        | some (_, rest) => ⟨source, rest, false⟩
        | none => discardOversizedLine source

/-- A line that fits, or the report that it is too long. -/
def bounded (line : Bytes) : LineRead :=
  if maxFrameBytes < line.length then .lineTooLarge else .line line

/-- The rest of the stream is its last line, unless it is empty. -/
def lastLine (source : List Bytes) (buffer : Bytes) : LineRead × NdjsonReader :=
  if buffer = [] then (.ended, ⟨source, [], true⟩) else (.line buffer, ⟨source, [], true⟩)

/-- Read until there is a line. -/
def readFrom : List Bytes → Bytes → Bool → LineRead × NdjsonReader
  | source, buffer, eof =>
      match Lines.first newline buffer with
      | some (line, rest) => (bounded line, ⟨source, rest, eof⟩)
      | none =>
          if maxFrameBytes < buffer.length then (.lineTooLarge, discardOversizedLine source)
          else if eof then lastLine source buffer
          else match source with
            | [] => lastLine [] buffer
            | chunk :: source =>
                if chunk = [] then lastLine source buffer
                else readFrom source (buffer ++ chunk) false

/-- Read the next line. -/
def readLine (r : NdjsonReader) : LineRead × NdjsonReader := readFrom r.source r.buffer r.eof

/-- The reads up to the end of the stream. -/
def readAll : Nat → NdjsonReader → List LineRead
  | 0, _ => []
  | n + 1, r =>
      match r.readLine with
      | (.ended, _) => []
      | (read, r) => read :: readAll n r

end NdjsonReader

/-- The error of a JSON-RPC response. -/
structure JsonRpcError where
  code : Int
  message : String
  deriving DecidableEq, Repr

/-- The answer of the core to a line that it cannot read. -/
def parseError : JsonRpcError := ⟨-32700, "Parse error"⟩

/-- The white space that the core strips from a line. -/
def isAsciiSpace (b : UInt8) : Bool := decide (b ∈ [0x20, 0x09, 0x0a, 0x0d, 0x0b, 0x0c])

/-- What the core makes of a read: nothing of a blank line, a value or an error. -/
def readValue : LineRead → List (Except JsonRpcError Json)
  | .ended => []
  | .lineTooLarge => [.error parseError]
  | .line raw =>
      if raw.all isAsciiSpace then []
      else match (decodeText raw).bind Json.parse with
        | none => [.error parseError]
        | some value => [.ok value]

/-- What the core yields for a stream of chunks. -/
def readValues (fuel : Nat) (chunks : List Bytes) : List (Except JsonRpcError Json) :=
  (NdjsonReader.readAll fuel ⟨chunks, [], false⟩).flatMap readValue

end AwesomeAgent
