import AwesomeAgent.Library.CodePoints
import AwesomeAgent.Library.Ipv4
import AwesomeAgent.Library.FaultySteps

/-!
# URLs of web fetches

A URL is fetched only if its host is a public address or a domain name. Two URLs are the same if
their hosts, ports, paths and queries are.
-/

namespace AwesomeAgent.WebContracts

/-- A URL in parts. Reading the port may fail. -/
structure SplitResult where
  scheme : Text
  netloc : Text
  path : Text
  query : Text
  username : Option Text
  password : Option Text
  hostname : Option Text
  port : Except Unit (Option Nat)

/-- What the standard library does with URLs, addresses and international names. Address literals
of the sixth version have colons; the encoding of a label keeps them. -/
class WebLibrary where
  urlsplit : Text → Except Unit SplitResult
  lower : Text → Text
  casefold : Text → Text
  ipv6IsGlobal : Text → Option Bool
  toAscii : Text → Option Text
  ipv6_colon : ∀ text verdict, ipv6IsGlobal text = some verdict → ':' ∈ text
  toAscii_colon : ∀ label ascii, toAscii label = some ascii → ':' ∈ label → ':' ∈ ascii

open WebLibrary

/-- The message of a refusal. -/
structure ValueError where
  message : String
  deriving DecidableEq, Repr

/-- Suffixes of hosts for special use. -/
def specialUseHostSuffixes : List Text :=
  [".example", ".internal", ".invalid", ".local", ".localhost", ".localdomain", ".onion",
    ".test"].map String.toList

/-- Extensions of resources that are not text. -/
def binaryPathExtensions : List Text :=
  [".7z", ".aac", ".apk", ".appimage", ".avi", ".avif", ".bin", ".bmp", ".bz2", ".deb", ".dll",
    ".dmg", ".doc", ".docx", ".epub", ".exe", ".flac", ".flv", ".gif", ".gz", ".heic", ".heif",
    ".ico", ".iso", ".jpeg", ".jpg", ".m4a", ".m4v", ".mkv", ".mov", ".mp3", ".mp4", ".mpeg",
    ".mpg", ".msi", ".odp", ".ods", ".odt", ".oga", ".ogg", ".opus", ".pdf", ".pkg", ".png",
    ".ppt", ".pptx", ".rar", ".rpm", ".rtf", ".so", ".svg", ".tar", ".tgz", ".tif", ".tiff",
    ".wav", ".webm", ".webp", ".wma", ".wmv", ".xls", ".xlsx", ".xz", ".zip",
    ".zst"].map String.toList

/-! ## Percent escapes -/

/-- Two hexadecimal digits stand in front. -/
def startsWithHexPair : Text → Bool
  | a :: b :: _ => (JsonText.hexValue a).isSome && (JsonText.hexValue b).isSome
  | _ => false

/-- A percent sign has no two digits behind it. -/
def hasInvalidPercentEscape : Text → Bool
  | [] => false
  | c :: rest => (c == '%' && !startsWithHexPair rest) || hasInvalidPercentEscape rest

/-- The number of two hexadecimal digits. -/
def hexPair (a b : Char) : Option Nat := do
  pure ((← JsonText.hexValue a) * 16 + (← JsonText.hexValue b))

/-- Replace escapes, behind the bytes of the run of ASCII characters so far. -/
def unquoteFrom : Bytes → Text → Option Text
  | run, [] => decodeUtf8 run
  | run, '%' :: a :: b :: rest =>
      match hexPair a b with
      | some code => unquoteFrom (run ++ [UInt8.ofNat code]) rest
      | none => unquoteFrom (run ++ [UInt8.ofNat '%'.toNat]) (a :: b :: rest)
  | run, c :: rest =>
      if c.toNat < 0x80 then unquoteFrom (run ++ [UInt8.ofNat c.toNat]) rest
      else
        match decodeUtf8 run, unquoteFrom [] rest with
        | some front, some text => some (front ++ c :: text)
        | _, _ => none

/-- Replace escapes by the characters that their bytes encode. -/
def unquote (text : Text) : Option Text := unquoteFrom [] text

/-- Replace escapes until there are none, at most so many times. -/
def decodePathTimes : Nat → Text → Except ValueError Text
  | 0, _ => .error ⟨"web fetch URL path is excessively encoded"⟩
  | times + 1, decoded =>
      if hasInvalidPercentEscape decoded then
        .error ⟨"web fetch URL path has invalid percent encoding"⟩
      else
        match unquote decoded with
        | none => .error ⟨"web fetch URL path is not valid UTF-8"⟩
        | some candidate =>
            if candidate = decoded then .ok decoded else decodePathTimes times candidate

/-- Replace escapes until there are none. -/
def decodePath (value : Text) : Except ValueError Text := decodePathTimes 4 value

/-- Characters that need no escape. -/
def isUnreserved (c : Char) : Bool := c.isAlphanum || "-._~".toList.contains c

/-- One spelling for each escape. -/
def normalizePercentEncoding : Text → Text
  | '%' :: a :: b :: rest =>
      match hexPair a b with
      | some code =>
          (if isUnreserved (Char.ofNat code) then [Char.ofNat code]
            else ['%', a.toUpper, b.toUpper]) ++ normalizePercentEncoding rest
      | none => '%' :: normalizePercentEncoding (a :: b :: rest)
  | c :: rest => c :: normalizePercentEncoding rest
  | [] => []

/-! ## Hosts -/

/-- Letters, digits and hyphens, the first and the last no hyphen. -/
def isDomainLabel (label : Text) : Bool :=
  let isEdge (c : Char) : Bool := ('a' ≤ c && c ≤ 'z') || ('0' ≤ c && c ≤ '9')
  label.length ≤ 63 && label.all (fun c => isEdge c || c == '-') && label.head?.any isEdge &&
    label.getLast?.any isEdge

/-- The pattern of domain names. -/
def isDomain (host : Text) : Bool :=
  1 ≤ host.length && host.length ≤ 253 && (host.splitOn '.').all isDomainLabel

/-- Only digits and dots. -/
def isDigitsAndDots (host : Text) : Bool :=
  !host.isEmpty && host.all fun c => ('0' ≤ c && c ≤ '9') || c == '.'

/-- Characters that separate the labels of international names. -/
def isLabelDot (c : Char) : Bool := [0x2E, 0x3002, 0xFF0E, 0xFF61].contains c.toNat

/-- A name for special use. -/
def isSpecialUse (host : Text) : Bool :=
  specialUseHostSuffixes.any (·.isSuffixOf host) || host == "home.arpa".toList ||
    ".home.arpa".toList.isSuffixOf host

section Guard

variable [WebLibrary]

/-- The encoding of one label. -/
def encodeLabel (label : Text) : Option Text :=
  if label.all fun c => c.toNat < 0x80 then
    if 0 < label.length ∧ label.length < 64 then some label else none
  else toAscii label

/-- The codec of international names. -/
def idnaEncode (host : Text) : Option Text :=
  if host.all fun c => c.toNat < 0x80 then
    if (host.splitOn '.').dropLast.any (·.isEmpty) ||
        (host.splitOn '.').any (fun label => 64 ≤ label.length) then none
    else some host
  else
    let labels := host.splitOnP isLabelDot
    let trailing := labels.getLast? == some []
    ((if trailing then labels.dropLast else labels).mapM encodeLabel).map fun encoded =>
      ['.'].intercalate encoded ++ (if trailing then ['.'] else [])

/-- Whether an address literal is routed globally. -/
def ipAddress (host : Text) : Option Bool :=
  match Ipv4.parseLiteral host with
  | some address => some (Ipv4.isGlobal address)
  | none => ipv6IsGlobal host

/-- What a host is that may be fetched from. -/
inductive HostVerdict
  | address
  | domain
  deriving DecidableEq, Repr

/-- Judge a host. -/
def hostVerdict (host : Text) : Except ValueError HostVerdict :=
  match ipAddress host with
  | some isGlobal => if isGlobal then .ok .address else .error ⟨"web fetch URL host is not public"⟩
  | none =>
      match idnaEncode host with
      | none => .error ⟨"web fetch URL host is malformed"⟩
      | some asciiHost =>
          if !asciiHost.contains '.' || !isDomain asciiHost || isSpecialUse asciiHost ||
              isDigitsAndDots asciiHost then
            .error ⟨"web fetch URL host is not public"⟩
          else .ok .domain

/-- The host of a URL as it is judged. -/
def canonicalHost (hostname : Text) : Text := (lower hostname).rdropWhile (· == '.')

/-! ## The guard -/

/-- Refuse under a condition. -/
def refuseIf (refused : Bool) (message : String) : Except ValueError Unit :=
  if refused then .error ⟨message⟩ else .ok ()

/-- A value that must be there. -/
def required {α : Type} (value : Option α) (message : String) : Except ValueError α :=
  match value with
  | some value => .ok value
  | none => .error ⟨message⟩

/-- A string without surrogates. -/
def requireUtf8 (value : PointText) (message : String) : Except ValueError Text :=
  required (value.mapM fun c => if c.isSurrogate then none else some (Char.ofNat c.val)) message

/-- Characters that a URL must not hold. -/
def isUnsafe (c : Char) : Bool :=
  c.toNat < 32 || (127 ≤ c.toNat && c.toNat ≤ 159) || isSpace c

/-- The first part of the guard: a URL in parts, and its host. -/
def splitFetchUrl (value : PointText) : Except ValueError (SplitResult × Text) := do
  let text ← requireUtf8 value "web fetch URL is not valid UTF-8"
  refuseIf (text.isEmpty || text != (text.dropWhile isSpace).rdropWhile isSpace ||
    text.contains '\\' || text.any isUnsafe) "web fetch URL contains unsafe characters"
  refuseIf (text.contains '#') "web fetch URL must not include a fragment"
  let parsed ← required (urlsplit text).toOption "web fetch URL is malformed"
  let port ← required parsed.port.toOption "web fetch URL is malformed"
  refuseIf (lower parsed.scheme != "https".toList || parsed.netloc.isEmpty)
    "web fetch URL must be absolute HTTPS"
  let hostname ← required parsed.hostname "web fetch URL must include a host"
  refuseIf (parsed.username.isSome || parsed.password.isSome)
    "web fetch URL must not include user information"
  refuseIf (parsed.netloc.getLast? == some ':') "web fetch URL contains an empty port"
  refuseIf (port.any fun port => !(1 ≤ port && port ≤ 65535))
    "web fetch URL contains an invalid port"
  pure (parsed, canonicalHost hostname)

/-- Refuse URLs that must not be fetched. -/
def validatePublicFetchUrl (value : PointText) : Except ValueError PointText := do
  let (parsed, host) ← splitFetchUrl value
  let _ ← hostVerdict host
  refuseIf (hasInvalidPercentEscape parsed.query)
    "web fetch URL query has invalid percent encoding"
  let decodedPath ← decodePath parsed.path
  refuseIf (binaryPathExtensions.any (·.isSuffixOf (casefold decodedPath)))
    "web fetch URL targets an unsupported binary resource"
  pure value

/-- What makes two URLs the same. -/
structure FetchUrlIdentity where
  host : Text
  port : Nat
  path : Text
  query : Text
  deriving DecidableEq, Repr

/-- The identity of a URL. -/
def fetchUrlIdentity (value : PointText) : Except ValueError FetchUrlIdentity := do
  let text ← requireUtf8 value "web fetch URL is not valid UTF-8"
  let parsed ← required (urlsplit text).toOption "web fetch URL is malformed"
  let hostname ← required parsed.hostname "web fetch URL must include a host"
  let host ← required (idnaEncode (canonicalHost hostname)) "encoding with 'idna' codec failed"
  let port ← required parsed.port.toOption "web fetch URL contains an invalid port"
  pure
    { host := host
      port := if port.getD 0 = 0 then 443 else port.getD 0
      path := normalizePercentEncoding (if parsed.path = [] then ['/'] else parsed.path)
      query := normalizePercentEncoding parsed.query }

/-- Two URLs may be fetched and are the same. -/
def webFetchUrlsEquivalent (left right : PointText) : Bool :=
  match validatePublicFetchUrl left, validatePublicFetchUrl right, fetchUrlIdentity left,
      fetchUrlIdentity right with
  | .ok _, .ok _, .ok identity, .ok other => decide (identity = other)
  | _, _, _, _ => false

end Guard

end AwesomeAgent.WebContracts
