import EmergencyDispatch.PriorityQueue
import EmergencyDispatch.Library.Custody
import EmergencyDispatch.Library.DoublyLinked

/-!
# The lists of `priority_queue.c`

`pq_t` as the code keeps it: for each level a doubly linked list with `head`,
`tail` and `count`, and the number of items in `size`.  `none` as the outcome of
an operation is undefined behaviour, a pointer being followed that is `NULL` or
points to no node.  A loop over the nodes of a list takes its number of rounds as
an argument, and its outcome is `none` as well when they do not suffice.

`FifoQueue` says what the queue is for: a vector of FIFO lists.
-/

namespace EmergencyDispatch

open DoublyLinked

universe u

/-! ## Lists -/

/-- `list_t`. -/
structure LinkedList (Addr : Type u) where
  head : Option Addr
  tail : Option Addr
  count : ℤ
  deriving DecidableEq

section list

variable {Addr α : Type u} [DecidableEq Addr]

/-- `list_remove_node`. -/
def listRemoveNode (h : Heap Addr α) (list : LinkedList Addr) (n : Addr) :
    Option (Heap Addr α × LinkedList Addr) := do
  let node ← h n
  let (h, list) ← (match node.prev with
    | some p => (setNext h p node.next).map fun h => (h, list)
    | none => some (h, { list with head := node.next }))
  let node ← h n
  let (h, list) ← (match node.next with
    | some m => (setPrev h m node.prev).map fun h => (h, list)
    | none => some (h, { list with tail := node.prev }))
  some (h, { list with count := list.count - 1 })

/-- `list_push_back`. -/
def listPushBack (h : Heap Addr α) (list : LinkedList Addr) (n : Addr) :
    Option (Heap Addr α × LinkedList Addr) := do
  let h ← setPrev h n list.tail
  let h ← setNext h n none
  let (h, list) ← (match list.tail with
    | some t => (setNext h t (some n)).map fun h => (h, list)
    | none => some (h, { list with head := some n }))
  some (h, { list with tail := some n, count := list.count + 1 })

/-- `list_pop_front`: the last component is the node it returns. -/
def listPopFront (h : Heap Addr α) (list : LinkedList Addr) :
    Option (Heap Addr α × LinkedList Addr × Option Addr) :=
  match list.head with
  | none => some (h, list, none)
  | some n => do
      let node ← h n
      let list := { list with head := node.next }
      let (h, list) ← (match list.head with
        | some m => (setPrev h m none).map fun h => (h, list)
        | none => some (h, { list with tail := none }))
      some (h, { list with count := list.count - 1 }, some n)

end list

/-! ## The queue -/

/-- `pq_t`; `levels` is the number of lists. -/
structure LinkedPq (Addr α : Type u) where
  heap : Heap Addr α
  lists : List (LinkedList Addr)
  size : ℤ
  closed : Bool

/-- The calls of the interface; that of `pq_push` with the node `malloc` returns. -/
inductive PqCall (Addr α : Type u)
  | push (item : α) (prio : ℤ) (n : Addr)
  | pop
  | tryPop
  | extractFirst (pred : α → Bool)
  | map
  | close

/-- What a call returns.  `pq_pop` may wait instead; `pq_map` calls its function on
these items, in this order. -/
inductive PqAnswer (α : Type u)
  | done
  | item (a : Option α)
  | waits
  | visited (items : List α)
  deriving DecidableEq

namespace LinkedPq

variable {Addr α : Type u} [DecidableEq Addr]

/-- `pq_create`. -/
def create (levels : ℕ) : LinkedPq Addr α where
  heap _ := none
  lists := List.replicate levels ⟨none, none, 0⟩
  size := 0
  closed := false

/-- `free`. -/
def free (h : Heap Addr α) (n : Addr) : Heap Addr α := Function.update h n none

/-- `pq_push`. -/
def push (q : LinkedPq Addr α) (item : α) (prio : ℤ) (n : Addr) : Option (LinkedPq Addr α) :=
  let h := Function.update q.heap n (some ⟨none, none, item⟩)
  if q.closed then some { q with heap := free h n }
  else do
    let prio := if q.lists.length ≤ prio then (q.lists.length : ℤ) - 1 else prio
    let prio := if prio < 0 then 0 else prio
    let list ← q.lists[prio.toNat]?
    let (h, list) ← listPushBack h list n
    some { q with heap := h, lists := q.lists.set prio.toNat list, size := q.size + 1 }

/-- The loop of `pq_pop` and `pq_try_pop`, from the level below `i` down. -/
def popLevels (h : Heap Addr α) (lists : List (LinkedList Addr)) :
    ℕ → Option (Heap Addr α × List (LinkedList Addr) × Option Addr)
  | 0 => some (h, lists, none)
  | i + 1 => do
      let list ← lists[i]?
      let (h, list, n) ← listPopFront h list
      let lists := lists.set i list
      match n with
      | some n => some (h, lists, some n)
      | none => popLevels h lists i

/-- The end of `pq_pop` and `pq_try_pop`, for a queue that has items. -/
def popNode (q : LinkedPq Addr α) : Option (LinkedPq Addr α × PqAnswer α) := do
  let (h, lists, n) ← popLevels q.heap q.lists q.lists.length
  let n ← n
  let node ← h n
  some ({ q with heap := free h n, lists := lists, size := q.size - 1 }, .item (some node.item))

/-- `pq_pop`. -/
def pop (q : LinkedPq Addr α) : Option (LinkedPq Addr α × PqAnswer α) :=
  if q.size = 0 ∧ q.closed = false then some (q, .waits)
  else if q.size = 0 ∧ q.closed = true then some (q, .item none)
  else q.popNode

/-- `pq_try_pop`. -/
def tryPop (q : LinkedPq Addr α) : Option (LinkedPq Addr α × PqAnswer α) :=
  if q.size = 0 then some (q, .item none) else q.popNode

/-- The inner loop of `pq_extract_first`, from the node `n` on: the node it finds. -/
def findNode (h : Heap Addr α) (pred : α → Bool) : ℕ → Option Addr → Option (Option Addr)
  | 0, _ => none
  | _ + 1, none => some none
  | fuel + 1, some n => do
      let node ← h n
      if pred node.item then some (some n) else findNode h pred fuel node.next

/-- The loop of `pq_extract_first`, from the level below `i` down. -/
def extractLevels (fuel : ℕ) (q : LinkedPq Addr α) (pred : α → Bool) :
    ℕ → Option (LinkedPq Addr α × PqAnswer α)
  | 0 => some (q, .item none)
  | i + 1 => do
      let list ← q.lists[i]?
      match ← findNode q.heap pred fuel list.head with
      | some n => do
          let node ← q.heap n
          let (h, list) ← listRemoveNode q.heap list n
          some ({ q with heap := free h n, lists := q.lists.set i list, size := q.size - 1 },
            .item (some node.item))
      | none => extractLevels fuel q pred i

/-- `pq_extract_first`. -/
def extractFirst (fuel : ℕ) (q : LinkedPq Addr α) (pred : α → Bool) :
    Option (LinkedPq Addr α × PqAnswer α) :=
  extractLevels fuel q pred q.lists.length

/-- The inner loop of `pq_map`, from the node `n` on. -/
def visit (h : Heap Addr α) : ℕ → Option Addr → Option (List α)
  | 0, _ => none
  | _ + 1, none => some []
  | fuel + 1, some n => do
      let node ← h n
      let rest ← visit h fuel node.next
      some (node.item :: rest)

/-- The loop of `pq_map`, over these lists. -/
def visitLevels (fuel : ℕ) (h : Heap Addr α) : List (LinkedList Addr) → Option (List α)
  | [] => some []
  | list :: lists => do
      let items ← visit h fuel list.head
      let rest ← visitLevels fuel h lists
      some (items ++ rest)

/-- `pq_map`. -/
def map (fuel : ℕ) (q : LinkedPq Addr α) : Option (LinkedPq Addr α × PqAnswer α) :=
  (visitLevels fuel q.heap q.lists).map fun items => (q, .visited items)

/-- `pq_close`. -/
def close (q : LinkedPq Addr α) : LinkedPq Addr α := { q with closed := true }

/-- A call. -/
def step (fuel : ℕ) (q : LinkedPq Addr α) :
    PqCall Addr α → Option (LinkedPq Addr α × PqAnswer α)
  | .push item prio n => (q.push item prio n).map fun q => (q, .done)
  | .pop => q.pop
  | .tryPop => q.tryPop
  | .extractFirst pred => q.extractFirst fuel pred
  | .map => q.map fuel
  | .close => some (q.close, .done)

/-- A sequence of calls, and what they return. -/
def run (fuel : ℕ) (q : LinkedPq Addr α) :
    List (PqCall Addr α) → Option (LinkedPq Addr α × List (PqAnswer α))
  | [] => some (q, [])
  | call :: calls => do
      let (q, answer) ← q.step fuel call
      let (q, answers) ← q.run fuel calls
      some (q, answer :: answers)

end LinkedPq

/-! ## The functional queue -/

/-- A vector of FIFO lists, the lowest level first, and whether it is closed. -/
structure FifoQueue (α : Type u) where
  levels : LeveledFifo.Levels α
  closed : Bool

namespace FifoQueue

variable {Addr α : Type u}

def create (levels : ℕ) : FifoQueue α := ⟨List.replicate levels [], false⟩

/-- The level of a push. -/
def clamp (q : FifoQueue α) (prio : ℤ) : ℕ := (min prio (q.levels.length - 1)).toNat

/-- What a call does: a push appends at the clamped level unless the queue is closed,
a pop takes the oldest item of the highest level that has one, and an extraction the
first match from the highest level down. -/
def step (q : FifoQueue α) : PqCall Addr α → FifoQueue α × PqAnswer α
  | .push item prio _ =>
      (if q.closed then q
        else { q with levels := LeveledFifo.pushBack q.levels (q.clamp prio) item }, .done)
  | .pop =>
      match LeveledFifo.popFirst q.levels with
      | some (a, levels) => ({ q with levels }, .item (some a))
      | none => (q, if q.closed then .item none else .waits)
  | .tryPop =>
      match LeveledFifo.popFirst q.levels with
      | some (a, levels) => ({ q with levels }, .item (some a))
      | none => (q, .item none)
  | .extractFirst pred =>
      match LeveledFifo.extractFirst pred q.levels with
      | some (a, levels) => ({ q with levels }, .item (some a))
      | none => (q, .item none)
  | .map => (q, .visited (LeveledFifo.contents q.levels))
  | .close => ({ q with closed := true }, .done)

/-- A sequence of calls, and what they return. -/
def run (q : FifoQueue α) : List (PqCall Addr α) → FifoQueue α × List (PqAnswer α)
  | [] => (q, [])
  | call :: calls =>
      let (q, answer) := q.step call
      let (q, answers) := q.run calls
      (q, answer :: answers)

end FifoQueue

/-! ## The queues of the server -/

/-- A queue of emergencies as a vector of FIFO lists. -/
def Pq.toFifo (q : Pq) : FifoQueue EmergencyId := ⟨q.lists, q.closed⟩

namespace Pq

variable {Addr : Type} (q : Pq) (e : EmergencyId)

theorem toFifo_create (levels : ℕ) : (create levels).toFifo = FifoQueue.create levels := rfl

/-- The operations of the queues of the server are those of the functional queue. -/
theorem toFifo_push (prio : ℤ) (n : Addr) :
    q.toFifo.step (.push e prio n) = ((q.push e prio).toFifo, .done) := by
  unfold push
  cases hclosed : q.closed <;> simp [FifoQueue.step, FifoQueue.clamp, clampLevel, toFifo, hclosed]

theorem toFifo_close : q.toFifo.step (.close : PqCall Addr EmergencyId) = (q.close.toFifo, .done) :=
  rfl

variable {q e}

theorem toFifo_pop {queue : Pq} (h : q.pop = some (e, queue)) :
    q.toFifo.step (.pop : PqCall Addr EmergencyId) = (queue.toFifo, .item (some e)) := by
  obtain ⟨⟨a, levels⟩, hpop, heq⟩ := Option.map_eq_some_iff.mp h
  obtain ⟨rfl, rfl⟩ := Prod.mk.inj heq
  simp [FifoQueue.step, toFifo, hpop]

theorem toFifo_extractFirst {pred : EmergencyId → Bool} {queue : Pq}
    (h : q.extractFirst pred = some (e, queue)) :
    q.toFifo.step (.extractFirst pred : PqCall Addr EmergencyId) =
      (queue.toFifo, .item (some e)) := by
  obtain ⟨⟨a, levels⟩, hextract, heq⟩ := Option.map_eq_some_iff.mp h
  obtain ⟨rfl, rfl⟩ := Prod.mk.inj heq
  simp [FifoQueue.step, toFifo, hextract]

end Pq

end EmergencyDispatch
