import Mathlib.Data.List.Basic
import Mathlib.Logic.Function.Basic

/-!
# Doubly linked lists in a heap

A heap maps addresses to nodes, `none` being memory that is not in use; a pointer
is an address, or `none` for `NULL`.  `Segment h prev nodes next` says that the
nodes with these addresses and items are linked in this order, in both
directions, between the pointers `prev` and `next`.

Segments are joined and cut by `segment_append`, they depend on their own nodes
only (`Segment.congr`), and they are relinked at their ends
(`Segment.setNext_last`, `Segment.setPrev_first`).
-/

namespace DoublyLinked

variable {Addr α : Type*}

/-- A node: the pointers to its neighbours, and its item. -/
structure Node (Addr α : Type*) where
  prev : Option Addr
  next : Option Addr
  item : α

/-- The memory of the nodes. -/
abbrev Heap (Addr α : Type*) := Addr → Option (Node Addr α)

/-- The addresses of a list of nodes. -/
abbrev addresses (nodes : List (Addr × α)) : List Addr := nodes.map Prod.fst

/-- The pointer to the first of the nodes, to `next` when there is none. -/
def first (nodes : List (Addr × α)) (next : Option Addr) : Option Addr :=
  match nodes with
  | [] => next
  | (n, _) :: _ => some n

/-- The pointer to the last of the nodes, to `prev` when there is none. -/
def last (prev : Option Addr) : List (Addr × α) → Option Addr
  | [] => prev
  | (n, _) :: rest => last (some n) rest

/-- The nodes are linked in this order between `prev` and `next`. -/
def Segment (h : Heap Addr α) : Option Addr → List (Addr × α) → Option Addr → Prop
  | _, [], _ => True
  | prev, (n, a) :: rest, next =>
      h n = some ⟨prev, first rest next, a⟩ ∧ Segment h (some n) rest next

@[simp] theorem first_nil (next : Option Addr) : first ([] : List (Addr × α)) next = next := rfl

@[simp] theorem first_cons (node : Addr × α) (rest : List (Addr × α)) (next : Option Addr) :
    first (node :: rest) next = some node.1 := rfl

@[simp] theorem last_nil (prev : Option Addr) : last prev ([] : List (Addr × α)) = prev := rfl

@[simp] theorem last_cons (prev : Option Addr) (node : Addr × α) (rest : List (Addr × α)) :
    last prev (node :: rest) = last (some node.1) rest := rfl

theorem first_append (xs ys : List (Addr × α)) (next : Option Addr) :
    first (xs ++ ys) next = first xs (first ys next) := by
  cases xs <;> rfl

theorem last_append (prev : Option Addr) (xs ys : List (Addr × α)) :
    last prev (xs ++ ys) = last (last prev xs) ys := by
  induction xs generalizing prev with
  | nil => rfl
  | cons node xs ih => exact ih (some node.1)

@[simp] theorem last_concat (prev : Option Addr) (xs : List (Addr × α)) (node : Addr × α) :
    last prev (xs ++ [node]) = some node.1 := by
  rw [last_append]
  rfl

variable {h h' : Heap Addr α} {prev next : Option Addr} {xs ys nodes : List (Addr × α)} {n : Addr}
  {a : α}

/-- Two segments that meet are one. -/
theorem segment_append :
    Segment h prev (xs ++ ys) next ↔
      Segment h prev xs (first ys next) ∧ Segment h (last prev xs) ys next := by
  induction xs generalizing prev with
  | nil => simp [Segment]
  | cons node xs ih =>
      obtain ⟨n, a⟩ := node
      rw [List.cons_append, Segment, Segment, ih, first_append, and_assoc]
      rfl

theorem segment_singleton : Segment h prev [(n, a)] next ↔ h n = some ⟨prev, next, a⟩ := by
  simp [Segment]

namespace Segment

/-- A segment depends on its nodes only. -/
theorem congr (hseg : Segment h prev nodes next) (hsame : ∀ m ∈ addresses nodes, h' m = h m) :
    Segment h' prev nodes next := by
  induction nodes generalizing prev with
  | nil => trivial
  | cons node rest ih =>
      obtain ⟨n, a⟩ := node
      obtain ⟨hnode, hrest⟩ := hseg
      refine ⟨(hsame n List.mem_cons_self).trans hnode, ih hrest fun m hm => ?_⟩
      exact hsame m (List.mem_cons_of_mem n hm)

theorem node (hseg : Segment h prev (xs ++ (n, a) :: ys) next) :
    h n = some ⟨last prev xs, first ys next, a⟩ :=
  (segment_append.mp hseg).2.1

theorem ne_none_of_mem (hseg : Segment h prev nodes next) {m : Addr} (hm : m ∈ addresses nodes) :
    h m ≠ none := by
  obtain ⟨⟨n, a⟩, hin, rfl⟩ := List.mem_map.mp hm
  obtain ⟨before, after, rfl⟩ := List.append_of_mem hin
  rw [hseg.node]
  nofun

end Segment

/-! ## Writing the links -/

/-- Only these nodes are written, and none is allocated or freed. -/
structure Writes (h h' : Heap Addr α) (ns : List Addr) : Prop where
  same : ∀ m, m ∉ ns → h' m = h m
  domain : ∀ m, h' m = none ↔ h m = none

namespace Writes

theorem refl (h : Heap Addr α) (ns : List Addr) : Writes h h ns := ⟨fun _ _ => rfl, fun _ => .rfl⟩

theorem trans {h'' : Heap Addr α} {ns : List Addr} (hw : Writes h h' ns)
    (hw' : Writes h' h'' ns) : Writes h h'' ns where
  same m hm := (hw'.same m hm).trans (hw.same m hm)
  domain m := (hw'.domain m).trans (hw.domain m)

theorem mono {ns ns' : List Addr} (hw : Writes h h' ns) (hsub : ∀ m ∈ ns, m ∈ ns') :
    Writes h h' ns' where
  same m hm := hw.same m fun hin => hm (hsub m hin)
  domain := hw.domain

end Writes

section write

variable [DecidableEq Addr]

/-- Write the field `next` of a node. -/
def setNext (h : Heap Addr α) (n : Addr) (next : Option Addr) : Option (Heap Addr α) :=
  (h n).map fun node => Function.update h n (some { node with next := next })

/-- Write the field `prev` of a node. -/
def setPrev (h : Heap Addr α) (n : Addr) (prev : Option Addr) : Option (Heap Addr α) :=
  (h n).map fun node => Function.update h n (some { node with prev := prev })

theorem Writes.update {node : Node Addr α} (hn : h n ≠ none) :
    Writes h (Function.update h n (some node)) [n] where
  same m hm := by
    have hne : m ≠ n := fun heq => hm (by simp [heq])
    simp [hne]
  domain m := by
    by_cases hm : m = n
    · subst hm
      simp [hn]
    · simp [hm]

/-- The end of a segment is linked to another node. -/
theorem Segment.setNext_last (hseg : Segment h prev (xs ++ [(n, a)]) next)
    (hn : n ∉ addresses xs) (next' : Option Addr) :
    ∃ h', setNext h n next' = some h' ∧ Segment h' prev (xs ++ [(n, a)]) next' ∧
      Writes h h' [n] := by
  have hnode := hseg.node
  refine ⟨_, by rw [setNext, hnode, Option.map_some], ?_, .update (by rw [hnode]; nofun)⟩
  obtain ⟨hxs, -⟩ := segment_append.mp hseg
  refine segment_append.mpr ⟨hxs.congr fun m hm => ?_, segment_singleton.mpr ?_⟩
  · have hne : m ≠ n := fun heq => hn (heq ▸ hm)
    simp [hne]
  · simp

/-- The start of a segment is linked to another node. -/
theorem Segment.setPrev_first (hseg : Segment h prev ((n, a) :: ys) next)
    (hn : n ∉ addresses ys) (prev' : Option Addr) :
    ∃ h', setPrev h n prev' = some h' ∧ Segment h' prev' ((n, a) :: ys) next ∧
      Writes h h' [n] := by
  obtain ⟨hnode, hys⟩ := hseg
  refine ⟨_, by rw [setPrev, hnode, Option.map_some], ⟨?_, hys.congr fun m hm => ?_⟩,
    .update (by rw [hnode]; nofun)⟩
  · simp
  · have hne : m ≠ n := fun heq => hn (heq ▸ hm)
    simp [hne]

end write

end DoublyLinked
