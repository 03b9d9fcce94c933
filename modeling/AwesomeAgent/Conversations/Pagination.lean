import AwesomeAgent.Library.Base64
import AwesomeAgent.Library.Datetime
import AwesomeAgent.Library.Json
import Mathlib.Data.List.Lex
import Mathlib.Data.List.Sort

/-!
# Pages of Threads and entries

Threads are listed and searched by the text of their last update and by their identifier, the
entries of a Thread by their sequence. A cursor is the position of the last row of a page,
written as JSON in Base64.
-/

namespace AwesomeAgent.Pagination

/-- A `datetime`: its fields in UTC and its offset, which a naive one has not. -/
structure Timestamp where
  utc : Datetime
  offset : Option Int
  deriving DecidableEq

/-- The same point in UTC. -/
def Timestamp.astimezone (t : Timestamp) : Timestamp := ⟨t.utc, some 0⟩

/-- The text of an aware `datetime` in a column. -/
def time (t : Timestamp) : Text := t.utc.isoformat

/-- `datetime.fromisoformat`, which reads what `isoformat` writes. -/
class IsoParser where
  fromisoformat : Text → Option Timestamp
  fromisoformat_isoformat : ∀ t : Datetime, fromisoformat t.isoformat = some ⟨t, some 0⟩

/-- A SHA-256 digest in hexadecimal digits. -/
def isHexDigest (text : Text) : Bool :=
  decide (text.length = 64) &&
    text.all fun c => c.isDigit || (decide ('a' ≤ c) && decide (c ≤ 'f'))

/-- `hashlib.sha256(…).hexdigest()`. -/
class HexDigest where
  sha256 : Bytes → Text
  isHexDigest_sha256 : ∀ bytes, isHexDigest (sha256 bytes) = true

/-! ## Cursors -/

/-- The code units of a text. -/
def unitsOfText (text : Text) : List UInt16 := text.flatMap JsonText.unitsOf

/-- The text of code units; no identifier has a lone surrogate. -/
def textOfUnits : List UInt16 → Option Text
  | [] => some []
  | [u] =>
      if JsonText.isHigh u || JsonText.isLow u then none else some [Char.ofNat u.toNat]
  | u :: v :: rest =>
      if JsonText.isHigh u && JsonText.isLow v then
        (textOfUnits rest).map (JsonText.pairChar u v :: ·)
      else if JsonText.isHigh u || JsonText.isLow u then none
      else (textOfUnits (v :: rest)).map (Char.ofNat u.toNat :: ·)

/-- A JSON object of texts, with its keys sorted. -/
def jsonObject (fields : List (Text × Text)) : Json :=
  .object (fields.map fun field => (unitsOfText field.1, .string (unitsOfText field.2)))

/-- Characters that a cursor may have. -/
def maxCursorLength : Nat := 1024

/-- The members of a JSON object without repeated keys. -/
def strictObject (text : Text) : Option (List (List UInt16 × Json)) :=
  match Json.skipSpace text with
  | [] => none
  | c :: rest =>
      if c ≠ '{' then none
      else
        match Json.emptyRest '}' rest with
        | some rest => if Json.skipSpace rest = [] then some [] else none
        | none => (Json.parseMembers (2 * text.length) rest).bind fun p =>
            if Json.skipSpace p.2 = [] ∧ (p.1.map Prod.fst).Nodup then some p.1 else none

/-- The members of the payload of a cursor. -/
def decodePayload (value : Text) : Except String (List (List UInt16 × Json)) :=
  if value = [] ∨ maxCursorLength < value.length ∨
      (value.all fun c => decide (c ∈ Base64.alphabet)) = false then
    .error "Thread cursor encoding is invalid."
  else
    match (Base64.decode value).bind decodeUtf8 |>.bind strictObject with
    | none => .error "Thread cursor payload is invalid."
    | some payload => .ok payload

/-- The payload has the fields with these names and no others. -/
def hasFields (payload : List (List UInt16 × Json)) (names : List Text) : Bool :=
  decide (∀ field ∈ payload, field.1 ∈ names.map unitsOfText) &&
    decide (∀ name ∈ names.map unitsOfText, name ∈ payload.map Prod.fst)

/-- The text of a field. -/
def textField (payload : List (List UInt16 × Json)) (name : Text) : Option Text :=
  match payload.find? fun field => field.1 = unitsOfText name with
  | some (_, .string units) => textOfUnits units
  | _ => none

/-- The names of the fields. -/
def threadIdField : Text := "thread_id".toList

/-- The name of the field of the last update. -/
def updatedAtField : Text := "updated_at".toList

/-- The name of the field of the search. -/
def scopeHashField : Text := "scope_hash".toList

/-- Write a payload. -/
def encodePayload (fields : List (Text × Text)) : Except String Text :=
  let encoded := Base64.encode (encodeUtf8 (jsonObject fields).render)
  if maxCursorLength < encoded.length then .error "Thread cursor is too large." else .ok encoded

/-- Check a position before it is written. -/
def checkPosition (cursor : Timestamp × Text) : Except String Unit :=
  if cursor.1.offset = none then .error "Thread cursor timestamp must be timezone-aware."
  else if cursor.2 = [] ∨ 128 < cursor.2.length then .error "Thread cursor identity is invalid."
  else .ok ()

/-- Write the position of a Thread. -/
def encodeThreadCursor (cursor : Timestamp × Text) : Except String Text := do
  checkPosition cursor
  encodePayload [(threadIdField, cursor.2), (updatedAtField, time cursor.1)]

section Reading

variable [IsoParser]

/-- Read a position from the texts of its fields. -/
def readPosition (threadId updatedAt : Text) : Except String (Timestamp × Text) :=
  match IsoParser.fromisoformat updatedAt with
  | none => .error "Thread cursor timestamp is invalid."
  | some t =>
      if t.offset = none then .error "Thread cursor timestamp must include a timezone."
      else .ok (t.astimezone, threadId)

/-- Read a cursor of a list. -/
def decodeThreadCursor (value : Text) : Except String (Timestamp × Text) := do
  let payload ← decodePayload value
  if !hasFields payload [threadIdField, updatedAtField] then
    .error "Thread cursor fields are invalid."
  else
    match textField payload threadIdField, textField payload updatedAtField with
    | some threadId, some updatedAt =>
        if threadId = [] ∨ 128 < threadId.length then .error "Thread cursor values are invalid."
        else readPosition threadId updatedAt
    | _, _ => .error "Thread cursor values are invalid."

end Reading

/-- A query without the spaces at its ends. -/
def strippedQuery (query : Text) : Text := (query.dropWhile isSpace).rdropWhile isSpace

section Search

variable [HexDigest]

/-- The digest of the workspace and the query of a search. -/
def threadSearchScope (workspaceKey query : Text) : Except String Text :=
  if workspaceKey = [] ∨ 128 < workspaceKey.length then
    .error "Thread cursor workspace is invalid."
  else if strippedQuery query = [] ∨ 200 < (strippedQuery query).length then
    .error "Thread cursor query is invalid."
  else
    .ok (HexDigest.sha256 (encodeUtf8 (jsonObject
      [("query".toList, strippedQuery query), ("workspace_key".toList, workspaceKey)]).render))

/-- Write the position of a Thread that a search found. -/
def encodeThreadSearchCursor (cursor : Timestamp × Text) (workspaceKey query : Text) :
    Except String Text := do
  checkPosition cursor
  let scope ← threadSearchScope workspaceKey query
  encodePayload
    [(scopeHashField, scope), (threadIdField, cursor.2), (updatedAtField, time cursor.1)]

variable [IsoParser]

/-- Read a cursor of a search. -/
def decodeThreadSearchCursor (value workspaceKey query : Text) :
    Except String (Timestamp × Text) := do
  let payload ← decodePayload value
  if !hasFields payload [scopeHashField, threadIdField, updatedAtField] then
    .error "Thread cursor fields are invalid."
  else
    match textField payload scopeHashField, textField payload threadIdField,
      textField payload updatedAtField with
    | some scope, some threadId, some updatedAt =>
        if !isHexDigest scope ∨ threadId = [] ∨ 128 < threadId.length then
          .error "Thread cursor values are invalid."
        else do
          if scope ≠ (← threadSearchScope workspaceKey query) then
            .error "Thread cursor does not match this search."
          else readPosition threadId updatedAt
    | _, _, _ => .error "Thread cursor values are invalid."

end Search

/-! ## Tables -/

/-- A row of the Threads; the column of the last update has its ISO text. -/
structure ThreadRow where
  threadId : Text
  workspaceKey : Text
  title : Text
  updatedAt : Datetime
  deriving DecidableEq

/-- The text in the column of the last update. -/
def ThreadRow.updatedText (row : ThreadRow) : Text := row.updatedAt.isoformat

/-- A row of the entries. -/
structure EntryRow where
  threadId : Text
  sequence : Nat
  content : Text
  deriving DecidableEq

/-- The tables. Identifiers of Threads and sequences of their entries are unique. -/
structure Tables where
  threads : List ThreadRow
  entries : List EntryRow
  uniqueThreads : threads.Pairwise fun r s => r.threadId ≠ s.threadId
  uniqueEntries : entries.Pairwise fun r s => ¬(r.threadId = s.threadId ∧ r.sequence = s.sequence)

/-- A Thread as it is listed. -/
structure ListedThread where
  id : Text
  workspaceKey : Text
  title : Text
  updatedAt : Timestamp
  deriving DecidableEq

/-- A page of Threads, whether more follow, and the cursor for them. -/
structure ThreadListResult where
  threads : List ListedThread
  hasMore : Bool
  nextCursor : Option Text
  deriving DecidableEq

/-! ## Lists and searches -/

/-- `updated_at DESC, thread_id`. -/
def listOrder (r s : ThreadRow) : Prop :=
  s.updatedText < r.updatedText ∨ r.updatedText = s.updatedText ∧ r.threadId ≤ s.threadId

instance : DecidableRel listOrder := fun _ _ => inferInstanceAs (Decidable (_ ∨ _))

/-- `updated_at DESC, thread_id DESC`. -/
def searchOrder (r s : ThreadRow) : Prop :=
  s.updatedText < r.updatedText ∨ r.updatedText = s.updatedText ∧ s.threadId ≤ r.threadId

instance : DecidableRel searchOrder := fun _ _ => inferInstanceAs (Decidable (_ ∨ _))

/-- The rows of a page, and whether more follow. -/
def limited {ρ : Type} (rows : List ρ) (limit : Nat) : List ρ × Bool :=
  (rows.take limit, decide (limit < rows.length))

/-- The rows of a page of a list. -/
def listPage (db : Tables) (workspaceKey : Text) (cursor : Option (Timestamp × Text))
    (limit : Nat) : List ThreadRow × Bool :=
  let rows : List ThreadRow := match cursor with
    | none => db.threads.filter fun r => r.workspaceKey = workspaceKey
    | some (updatedAt, threadId) => db.threads.filter fun r => r.workspaceKey = workspaceKey ∧
        (r.updatedText < time updatedAt ∨
          r.updatedText = time updatedAt ∧ threadId < r.threadId)
  limited ((rows.insertionSort listOrder).take (limit + 1)) limit

/-- ASCII letters in lower case. -/
def lower (text : Text) : Text := text.map Char.toLower

/-- The text occurs in the other one, in any case of ASCII letters. -/
def occursIn (query text : Text) : Bool := decide ((lower text).tails.any fun tail =>
  (lower query).isPrefixOf tail)

/-- The title of the Thread or one of its entries has the query. -/
def matchesSearch (db : Tables) (query : Text) (r : ThreadRow) : Bool :=
  occursIn query r.title ||
    db.entries.any fun e => decide (e.threadId = r.threadId) && occursIn query e.content

/-- The rows of a page of a search. -/
def searchPage (db : Tables) (workspaceKey query : Text) (cursor : Option (Timestamp × Text))
    (limit : Nat) : List ThreadRow × Bool :=
  let rows : List ThreadRow := match cursor with
    | none => db.threads.filter fun r =>
        r.workspaceKey = workspaceKey ∧ matchesSearch db query r = true
    | some (updatedAt, threadId) => db.threads.filter fun r =>
        r.workspaceKey = workspaceKey ∧ matchesSearch db query r = true ∧
          (r.updatedText < time updatedAt ∨
            r.updatedText = time updatedAt ∧ r.threadId < threadId)
  limited ((rows.insertionSort searchOrder).take (limit + 1)) limit

section Requests

variable [IsoParser]

/-- The Thread of a row. -/
def threadFromRow (r : ThreadRow) : Except String ListedThread :=
  match IsoParser.fromisoformat r.updatedText with
  | none => .error "Invalid isoformat string"
  | some updatedAt => .ok ⟨r.threadId, r.workspaceKey, r.title, updatedAt⟩

/-- The answer for a page: its cursor is the position of the last Thread. -/
def threadListResult (page : List ThreadRow × Bool)
    (encode : Timestamp × Text → Except String Text) : Except String ThreadListResult := do
  let threads ← page.1.mapM threadFromRow
  match threads.getLast? with
  | some last =>
      if page.2 then
        let cursor ← encode (last.updatedAt, last.id)
        return ⟨threads, page.2, some cursor⟩
      else return ⟨threads, page.2, none⟩
  | none => return ⟨threads, page.2, none⟩

/-- The size of a page that a query may ask for. -/
abbrev PageLimit (most : Nat) : Type := { limit : Nat // 1 ≤ limit ∧ limit ≤ most }

/-- Answer a request for a page of the Threads of a workspace. -/
def workspaceThreads (db : Tables) (workspaceKey : Text) (cursor : Option Text)
    (limit : PageLimit 200) : Except String ThreadListResult := do
  let cursor ← (cursor.mapM decodeThreadCursor).mapError fun _ => "Thread cursor is invalid."
  threadListResult (listPage db workspaceKey cursor limit) encodeThreadCursor

variable [HexDigest]

/-- The page of a search; the scan may exceed its budget. -/
def searchThreadPage (db : Tables) (exceeded : Bool) (workspaceKey query : Text)
    (cursor : Option (Timestamp × Text)) (limit : Nat) : Except String (List ThreadRow × Bool) :=
  if strippedQuery query = [] ∨ 200 < (strippedQuery query).length then
    .error "Thread search query must be 1 to 200 characters."
  else if limit < 1 ∨ 50 < limit then .error "Thread search limit must be 1 to 50."
  else if exceeded then .error "Thread search exceeded its scan limit; refine the query."
  else .ok (searchPage db workspaceKey (strippedQuery query) cursor limit)

/-- Answer a request for a page of a search. -/
def searchWorkspaceThreads (db : Tables) (exceeded : Bool) (workspaceKey query : Text)
    (cursor : Option Text) (limit : PageLimit 50) : Except String ThreadListResult := do
  let cursor ← (cursor.mapM fun value => decodeThreadSearchCursor value workspaceKey query).mapError
    fun _ => "Thread search cursor is invalid."
  let page ← searchThreadPage db exceeded workspaceKey query cursor limit
  threadListResult page fun position => encodeThreadSearchCursor position workspaceKey query

end Requests

/-! ## Entries -/

/-- The entries of a page in their sequence, and whether earlier ones precede. -/
def entryPage (db : Tables) (threadId : Text) (beforeSequence : Option Nat) (limit : Nat) :
    List EntryRow × Bool :=
  let rows : List EntryRow := match beforeSequence with
    | none => db.entries.filter fun e => e.threadId = threadId
    | some before => db.entries.filter fun e => e.threadId = threadId ∧ e.sequence < before
  let sorted := rows.insertionSort fun e f => f.sequence ≤ e.sequence
  let page := limited (sorted.take (limit + 1)) limit
  (page.1.reverse, page.2)

/-- Where the page before begins. -/
def nextBeforeSequence (page : List EntryRow × Bool) : Option Nat :=
  if page.2 then page.1.head?.map fun e => e.sequence else none

end AwesomeAgent.Pagination
