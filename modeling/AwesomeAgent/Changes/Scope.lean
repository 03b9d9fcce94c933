import AwesomeAgent.Changes.JournalLifecycles
import AwesomeAgent.Library.Runs

/-!
# The change scope

One scope publishes at most one ChangeSet for each owner. Calls take turns on its lock;
the work inside the lock is shielded from the cancellation of the caller, and every
journal or store call in it may raise. A step runs from one suspension to the next.
-/

namespace AwesomeAgent

/-- How an awaited call of the journal or the store ends. A call that raises does so in one
of the states that its durable steps left behind. -/
inductive JournalOutcome
  | runs
  | raises (point : Nat)
  deriving DecidableEq, Repr

/-- The calls of the change scope. -/
inductive ScopeMethod
  | acquire
  | seal
  | finalizeFailed
  deriving DecidableEq, Repr

/-- How the work of a call ended. A call that raised names the ChangeSet it worked on. -/
inductive ScopeOutcome
  | returned (identifier : Option String)
  | raised (identifier : Option String)
  | cancelled
  deriving DecidableEq, Repr

/-- Where a call is suspended. -/
inductive ScopePoint
  | waiting
  | beginning
  | reading (identifier : String)
  | reconciling (identifier : String)
  | rereading (identifier : String)
  | sealing (identifier : String)
  | deleting (identifier : String)
  | retaining (identifier : String)
  | finished (outcome : ScopeOutcome)
  deriving DecidableEq, Repr

/-- A call with the cancellation that its shielded work holds back. -/
structure ScopeCall where
  owner : String
  method : ScopeMethod
  point : ScopePoint
  cancelled : Bool
  deriving DecidableEq, Repr

/-- What a finished call hands to its caller: a held back cancellation comes first. -/
def ScopeCall.result (call : ScopeCall) : Option ScopeOutcome :=
  match call.point with
  | .finished outcome => some (if call.cancelled then .cancelled else outcome)
  | _ => none

/-- A change scope with its journal, the ChangeSets that tool activities refer to, the
published identifiers, the holder of the lock, and a record of what was begun and deleted. -/
structure ChangeScope where
  journal : ChangeState
  activities : List String
  identifiers : Dict String String
  lock : Option Nat
  calls : List ScopeCall
  begun : List (String × String)
  deleted : List ChangeSet

/-- The steps of the calls, of their callers and of the tools that use the ChangeSets. -/
inductive ScopeAction
  | call (owner : String) (method : ScopeMethod)
  | enter (index : Nat)
  | cancel (index : Nat)
  | begin (index : Nat) (identifier : String)
  | advance (index : Nat) (outcome : JournalOutcome)
  | mutate (changeSetId : String) (kind : FileChangeKind) (intendedAfter : Option NodeSnapshot)
      (target : BoundFileMutation) (identifier : String) (outcome : JournalOutcome)
  | execute (changeSetId command : String) (observedPaths : List String)
      (outcome : JournalOutcome)
  | refer (changeSetId : String)

/-- Run a procedure of the journal to its end, or to the point where it raises. -/
def runJournal {α : Type} (outcome : JournalOutcome) (p : ChangeProc α) (s : ChangeState) :
    Option α × ChangeState :=
  match outcome with
  | .runs => (Proc.value (p ⟨s, []⟩), Proc.final (p ⟨s, []⟩))
  | .raises point => (none, ((Proc.crashStates p s)[point]?).getD s)

/-- However a call of the journal ends, what its procedure preserves still holds. -/
theorem runJournal_preserves {α : Type} {I : ChangeSetStore → Prop} {Q : α → Prop}
    {p : ChangeProc α} {s : ChangeState} (hp : Preserves I p Q) (hs : I s.store)
    (outcome : JournalOutcome) : I (runJournal outcome p s).2.store := by
  cases outcome with
  | runs =>
    have h := hp ⟨s, []⟩ hs
    change I (Proc.final (p ⟨s, []⟩)).store
    cases hr : p ⟨s, []⟩ <;> rw [hr] at h
    · exact h.1.1
    · exact h.1
  | raises point =>
    change I (((Proc.crashStates p s)[point]?).getD s).store
    cases hu : (Proc.crashStates p s)[point]? with
    | none => exact hs
    | some u =>
      obtain rfl | h := Triple.crashStates hp hs (List.mem_of_getElem? hu)
      · exact hs
      · exact h

/-- Delete an open ChangeSet that has no record and that nothing refers to. -/
def ChangeSetStore.deleteEmptyOpen (s : ChangeSetStore) (activities : List String)
    (changeSetId : String) : Option (ChangeSet × ChangeSetStore) :=
  match s.get changeSetId with
  | none => none
  | some c =>
      if c.lifecycle ≠ .open ∨ c.files ≠ [] ∨ c.execute ≠ [] then none
      else if s.pendings.rows.any fun p => decide (p.changeSetId = changeSetId) then none
      else if changeSetId ∈ activities then none
      else some (c, { s with changeSets := s.changeSets.remove changeSetId })

namespace ChangeScope

/-- A new scope over a journal. -/
def fresh (journal : ChangeState) (activities : List String) : ChangeScope :=
  ⟨journal, activities, Dict.empty, none, [], [], []⟩

/-- Suspend a call at another point. -/
def goto (s : ChangeScope) (i : Nat) (call : ScopeCall) (point : ScopePoint) : ChangeScope :=
  { s with calls := s.calls.set i { call with point := point } }

/-- End a call that holds the lock. -/
def finish (s : ChangeScope) (i : Nat) (call : ScopeCall) (outcome : ScopeOutcome) : ChangeScope :=
  { s.goto i call (.finished outcome) with lock := none }

/-- The work succeeded: unpublish the ChangeSet of the owner. -/
def settle (s : ChangeScope) (i : Nat) (call : ScopeCall) : ChangeScope :=
  { s with identifiers := s.identifiers.erase call.owner }.finish i call (.returned none)

/-- The work raised: only `finalizeFailed` unpublishes, in its `finally`. -/
def fail (s : ChangeScope) (i : Nat) (call : ScopeCall) (identifier : String) : ChangeScope :=
  match call.method with
  | .finalizeFailed =>
      { s with identifiers := s.identifiers.erase call.owner }.finish i call
        (.raised (some identifier))
  | _ => s.finish i call (.raised (some identifier))

/-- Take the lock, look up the published ChangeSet and run to the first awaited call. -/
def enter (s : ChangeScope) (i : Nat) (call : ScopeCall) : ChangeScope :=
  match s.identifiers.get? call.owner, call.method with
  | some identifier, .acquire => s.finish i call (.returned (some identifier))
  | none, .acquire => { s.goto i call .beginning with lock := some i }
  | some identifier, _ => { s.goto i call (.reading identifier) with lock := some i }
  | none, _ => s.finish i call (.returned none)

/-- Publish the ChangeSet that was begun. -/
def publish (s : ChangeScope) (i : Nat) (call : ScopeCall) (identifier : String) : ChangeScope :=
  { s with
    identifiers := s.identifiers.set call.owner identifier
    begun := s.begun ++ [(call.owner, identifier)] }.finish i call (.returned (some identifier))

/-- The stored ChangeSet, if it is open. -/
def openOf (s : ChangeScope) (identifier : String) : Option ChangeSet :=
  (s.journal.store.get identifier).filter fun c => decide (c.lifecycle = .open)

/-- Continue after the ChangeSet was read: a closed one needs no more work. -/
def continueOpen (s : ChangeScope) (i : Nat) (call : ScopeCall) (identifier : String)
    (next : ChangeSet → ScopePoint) : ChangeScope :=
  match s.openOf identifier with
  | some c => s.goto i call (next c)
  | none => s.settle i call

/-- The reconciled ChangeSet of a failed owner is deleted if it is empty, otherwise sealed. -/
def closing (method : ScopeMethod) (identifier : String) (c : ChangeSet) : ScopePoint :=
  match method with
  | .finalizeFailed => if c.files ≠ [] ∨ c.execute ≠ [] then .sealing identifier
      else .deleting identifier
  | _ => .sealing identifier

section Steps

variable [ContentHash] (w : WorkspaceIdentity)

/-- Run the journal call of a point and continue with its result. -/
def journalCall {α : Type} (s : ChangeScope) (i : Nat) (call : ScopeCall) (identifier : String)
    (outcome : JournalOutcome) (p : ChangeProc α)
    (next : ChangeScope → ChangeScope) : ChangeScope :=
  let r := runJournal outcome p s.journal
  match r.1 with
  | some _ => next { s with journal := r.2 }
  | none => { s with journal := r.2 }.fail i call identifier

/-- A store call that raises reads and writes nothing. -/
def storeCall (s : ChangeScope) (i : Nat) (call : ScopeCall) (identifier : String)
    (outcome : JournalOutcome) (next : ChangeScope) : ChangeScope :=
  match outcome with
  | .runs => next
  | .raises _ => s.fail i call identifier

/-- Delete the ChangeSet if the store agrees that it is empty; otherwise read it again. -/
def deleteCall (s : ChangeScope) (i : Nat) (call : ScopeCall) (identifier : String) :
    ChangeScope :=
  match s.journal.store.deleteEmptyOpen s.activities identifier with
  | some (c, store) =>
      { s with
        journal := { s.journal with store := store }
        deleted := s.deleted ++ [c] }.settle i call
  | none => s.goto i call (.retaining identifier)

/-- What the work of a call does from its point to the next suspension. -/
def advance (s : ChangeScope) (i : Nat) (call : ScopeCall) (outcome : JournalOutcome) :
    Option ChangeScope :=
  match call.point with
  | .waiting => none
  | .finished _ => none
  | .beginning =>
      match outcome with
      | .runs => none
      | .raises _ => some (s.finish i call (.raised none))
  | .reading id =>
      some (s.storeCall i call id outcome (s.continueOpen i call id fun _ => .reconciling id))
  | .reconciling id =>
      some (s.journalCall i call id outcome (ChangeJournal.reconcilePending w (some id))
        fun t => t.goto i call (.rereading id))
  | .rereading id =>
      some (s.storeCall i call id outcome (s.continueOpen i call id (closing call.method id)))
  | .sealing id =>
      some (s.journalCall i call id outcome (ChangeJournal.sealChangeSet w id)
        fun t => t.settle i call)
  | .deleting id => some (s.storeCall i call id outcome (s.deleteCall i call id))
  | .retaining id =>
      some (s.storeCall i call id outcome (s.continueOpen i call id fun _ => .sealing id))

/-- The new ChangeSet is written in one transaction under an identifier never used before. -/
def begin (s : ChangeScope) (i : Nat) (call : ScopeCall) (identifier : String) :
    Option ChangeScope :=
  if call.point ≠ .beginning ∨ (s.journal.store.get identifier).isSome ∨
      identifier ∈ s.begun.map Prod.snd then none
  else some ({ s with journal := Proc.final (ChangeJournal.begin w identifier ⟨s.journal, []⟩) }
    |>.publish i call identifier)

/-- Cancel the caller: a waiting call gives up, shielded work holds the cancellation back. -/
def cancel (s : ChangeScope) (i : Nat) (call : ScopeCall) : Option ChangeScope :=
  match call.point with
  | .waiting => some (s.goto i call (.finished .cancelled))
  | .finished _ => none
  | _ => some { s with calls := s.calls.set i { call with cancelled := true } }

/-- The steps of the scope and of the tools that use its ChangeSets. -/
def step (s : ChangeScope) : ScopeAction → Option ChangeScope
  | .call owner method => some { s with calls := s.calls ++ [⟨owner, method, .waiting, false⟩] }
  | .enter i => do
      let call ← s.calls[i]?
      if call.point = .waiting ∧ s.lock = none then some (s.enter i call) else none
  | .cancel i => do
      let call ← s.calls[i]?
      s.cancel i call
  | .begin i identifier => do
      let call ← s.calls[i]?
      s.begin w i call identifier
  | .advance i outcome => do
      let call ← s.calls[i]?
      s.advance w i call outcome
  | .mutate changeSetId kind intendedAfter target identifier outcome =>
      some { s with journal := (runJournal outcome (ChangeJournal.applyFileMutation w changeSetId
        kind intendedAfter target identifier) s.journal).2 }
  | .execute changeSetId command observedPaths outcome =>
      some { s with journal := (runJournal outcome (ChangeJournal.recordExecute w changeSetId
        command observedPaths) s.journal).2 }
  | .refer changeSetId => some { s with activities := changeSetId :: s.activities }

end Steps

end ChangeScope

end AwesomeAgent
