import AwesomeAgent.Library.Text

/-!
# The queue of pending inputs

Inputs that are typed while an Operation runs wait in a queue of at most three. The queue lives
twice: in the state of a reducer, which a component sees when it is rendered, and in a reference,
which changes with every action.
-/

namespace AwesomeAgent.PendingInputs

/-- Most inputs that wait. -/
def maxPendingInputs : Nat := 3

/-- An input that waits. -/
structure PendingInput where
  id : Nat
  raw : Text
  clientMessageId : Option Text
  terminalBarrier : Bool
  deriving DecidableEq, Repr

/-- The white space of regular expressions. -/
def isJsSpace (c : Char) : Bool :=
  decide (c ∈ ['\t', '\n', '\x0b', '\x0c', '\r', ' ', '\u00a0', '\u1680', '\u2028', '\u2029',
    '\u202f', '\u205f', '\u3000', '\ufeff']) ||
    (decide (0x2000 ≤ c.toNat) && decide (c.toNat ≤ 0x200a))

/-- An input that quits. -/
def isTerminalBarrier (raw : Text) : Bool :=
  match raw.dropWhile isJsSpace with
  | '/' :: 'q' :: 'u' :: 'i' :: 't' :: rest => rest.head?.all isJsSpace
  | _ => false

/-- An input with a fresh identity. -/
def createPendingInput (id : Nat) (raw : Text) : PendingInput :=
  ⟨id, raw, none, isTerminalBarrier raw⟩

/-- What happens to the queue. -/
inductive PendingInputAction
  | enqueue (item : PendingInput)
  | acceptHead (id : Nat)
  | requeueHead (item : PendingInput)
  | recallTail
  | discardAll
  deriving DecidableEq, Repr

/-- The reducer of the queue. -/
def pendingInputReducer (items : List PendingInput) : PendingInputAction → List PendingInput
  | .enqueue item =>
      if maxPendingInputs ≤ items.length ∨ items.any PendingInput.terminalBarrier = true ∨
          items.any (fun other => decide (other.id = item.id)) = true then items
      else items ++ [item]
  | .acceptHead id =>
      if items.head?.any fun item => decide (item.id = id) then items.drop 1 else items
  | .requeueHead item =>
      let withoutDuplicate := items.filter fun other => decide (other.id ≠ item.id)
      if maxPendingInputs ≤ withoutDuplicate.length then items else item :: withoutDuplicate
  | .recallTail => items.dropLast
  | .discardAll => []

/-! ## The hook -/

/-- The queue: the items of the last render, the actions since then, and the reference. -/
structure PendingInputQueue where
  items : List PendingInput
  updates : List PendingInputAction
  current : List PendingInput
  deriving DecidableEq, Repr

/-- How an input is received. -/
inductive EnqueueResult
  | accepted (item : PendingInput)
  | full
  | terminalBarrier
  deriving DecidableEq, Repr

/-- The input is in the queue. -/
def EnqueueResult.isAccepted : EnqueueResult → Bool
  | .accepted _ => true
  | _ => false

namespace PendingInputQueue

/-- An empty queue. -/
def empty : PendingInputQueue := ⟨[], [], []⟩

/-- Apply an action to the reference and keep it for the next render. -/
def dispatch (queue : PendingInputQueue) (action : PendingInputAction) : PendingInputQueue where
  items := queue.items
  updates := queue.updates ++ [action]
  current := pendingInputReducer queue.current action

/-- Render the queue: the reference is set to the items. -/
def render (queue : PendingInputQueue) : PendingInputQueue where
  items := queue.updates.foldl pendingInputReducer queue.items
  updates := []
  current := queue.updates.foldl pendingInputReducer queue.items

/-- Receive an input under what a callback knows of the input in flight. -/
def enqueue (queue : PendingInputQueue) (id : Nat) (raw : Text) (reserved : Nat)
    (terminalBarrierInFlight : Bool) : EnqueueResult × PendingInputQueue :=
  if terminalBarrierInFlight || queue.current.any PendingInput.terminalBarrier then
    (.terminalBarrier, queue)
  else if maxPendingInputs ≤ queue.current.length + reserved then (.full, queue)
  else
    (.accepted (createPendingInput id raw), queue.dispatch (.enqueue (createPendingInput id raw)))

/-- Take the head out. -/
def acceptHead (queue : PendingInputQueue) (id : Nat) : PendingInputQueue :=
  queue.dispatch (.acceptHead id)

/-- Put an input back. -/
def requeueHead (queue : PendingInputQueue) (item : PendingInput) : PendingInputQueue :=
  queue.dispatch (.requeueHead item)

/-- Take the last input out. -/
def recallTail (queue : PendingInputQueue) : Option PendingInput × PendingInputQueue :=
  match queue.current.getLast? with
  | some item => (some item, queue.dispatch .recallTail)
  | none => (none, queue)

end PendingInputQueue

/-! ## What the actions do to the reference -/

/-- The actions since the last render lead to the reference. -/
def PendingInputQueue.Synced (queue : PendingInputQueue) : Prop :=
  queue.updates.foldl pendingInputReducer queue.items = queue.current

variable {queue : PendingInputQueue}

/-- What a queue shows stays what it is after an action. -/
theorem PendingInputQueue.Synced.dispatch (h : queue.Synced)
    (action : PendingInputAction) : (queue.dispatch action).Synced := by
  unfold PendingInputQueue.Synced PendingInputQueue.dispatch
  dsimp only
  rw [List.foldl_append, h]
  rfl

/-- A frame leaves the queue. -/
theorem PendingInputQueue.render_current (h : queue.Synced) :
    queue.render.current = queue.current := h

/-- An accepted input stands at the end, no input that quits is before it, and it had room. -/
theorem PendingInputQueue.enqueue_accepted {next : PendingInputQueue} {id reserved : Nat}
    {raw : Text} {barrier : Bool} {item : PendingInput}
    (h : queue.enqueue id raw reserved barrier = (.accepted item, next))
    (hfresh : ∀ other ∈ queue.current, other.id ≠ id) :
    item = createPendingInput id raw ∧ next = queue.dispatch (.enqueue item) ∧
      next.current = queue.current ++ [item] ∧ barrier = false ∧
      (∀ other ∈ queue.current, other.terminalBarrier = false) ∧
      queue.current.length + reserved < maxPendingInputs := by
  unfold PendingInputQueue.enqueue at h
  split at h
  · cases h
  · next hbarrier =>
    split at h
    · cases h
    · next hroom =>
      cases h
      simp only [Bool.or_eq_true, List.any_eq_true, not_or, not_exists, not_and,
        Bool.not_eq_true] at hbarrier
      refine ⟨rfl, rfl, ?_, hbarrier.1, hbarrier.2, by omega⟩
      simp only [PendingInputQueue.dispatch, pendingInputReducer]
      rw [if_neg]
      simp only [List.any_eq_true, decide_eq_true_eq, not_or, not_exists, not_and]
      refine ⟨by omega, fun other hother => ?_, fun other hother => ?_⟩
      · rw [hbarrier.2 other hother]
        decide
      · exact hfresh other hother

/-- The head is taken out. -/
theorem pendingInputReducer_acceptHead {head : PendingInput} {rest : List PendingInput} :
    pendingInputReducer (head :: rest) (.acceptHead head.id) = rest := by
  simp [pendingInputReducer]

/-- An input for which there is room is put back. -/
theorem pendingInputReducer_requeueHead {items : List PendingInput} {item : PendingInput}
    (hfresh : ∀ other ∈ items, other.id ≠ item.id) (hroom : items.length < maxPendingInputs) :
    pendingInputReducer items (.requeueHead item) = item :: items := by
  have hfilter : items.filter (fun other => decide (other.id ≠ item.id)) = items := by
    rw [List.filter_eq_self]
    intro other hother
    exact decide_eq_true (hfresh other hother)
  simp only [pendingInputReducer, hfilter]
  rw [if_neg (by omega)]

end AwesomeAgent.PendingInputs
