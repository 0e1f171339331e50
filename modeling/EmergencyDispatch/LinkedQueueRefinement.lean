import EmergencyDispatch.LinkedQueue

/-!
# The linked queue refines the functional one

`Chain` says that a list describes one finite doubly linked chain, and
`WellFormed` that the queue consists of such chains, on different nodes, which
are all the nodes there are.  Each operation on a list has its lemma about one
chain (`listPushBack_spec`, `listPopFront_spec`, `listRemoveNode_spec`); a call
replaces one chain and leaves the others alone, and what it returns and leaves is
what the functional queue returns and leaves (`step_refines`).
-/

namespace EmergencyDispatch

open DoublyLinked

universe u

variable {Addr α : Type u} [DecidableEq Addr]

/-! ## One list -/

/-- The list describes the chain of these nodes. -/
structure Chain (h : Heap Addr α) (list : LinkedList Addr) (nodes : List (Addr × α)) : Prop where
  segment : Segment h none nodes none
  head : list.head = first nodes none
  tail : list.tail = last none nodes
  count : list.count = nodes.length

variable {h h' : Heap Addr α} {list : LinkedList Addr} {nodes xs ys : List (Addr × α)} {n : Addr}
  {a : α}

omit [DecidableEq Addr] in
theorem Chain.congr (hchain : Chain h list nodes) (hsame : ∀ m ∈ addresses nodes, h' m = h m) :
    Chain h' list nodes :=
  { hchain with segment := hchain.segment.congr hsame }

theorem listPushBack_spec (hchain : Chain h list nodes) (hnodup : (addresses nodes).Nodup)
    (hn : h n = some ⟨none, none, a⟩) (hnew : n ∉ addresses nodes) :
    ∃ h' list', listPushBack h list n = some (h', list') ∧ Chain h' list' (nodes ++ [(n, a)]) ∧
      Writes h h' (n :: addresses nodes) := by
  -- the new node alone is a segment, which is linked to the tail first
  have hsingle : Segment h none [(n, a)] none := segment_singleton.mpr hn
  obtain ⟨h₁, hprev, hsingle₁, hw₁⟩ := hsingle.setPrev_first List.not_mem_nil list.tail
  have hsingle₁' : Segment h₁ list.tail ([] ++ [(n, a)]) none := hsingle₁
  obtain ⟨h₂, hnext, hsingle₂, hw₂⟩ := hsingle₁'.setNext_last List.not_mem_nil none
  have hw : Writes h h₂ [n] := hw₁.trans hw₂
  have hchain₂ : Chain h₂ list nodes := hchain.congr fun m hm =>
    hw.same m fun hin => hnew (List.mem_singleton.mp hin ▸ hm)
  have hcount : list.count + 1 = ((nodes ++ [(n, a)]).length : ℤ) := by simp [hchain.count]
  rw [listPushBack, hprev, Option.bind_eq_bind, Option.bind_some, hnext, Option.bind_eq_bind,
    Option.bind_some]
  rcases List.eq_nil_or_concat nodes with rfl | ⟨init, ⟨t, b⟩, rfl⟩
  · have htail : list.tail = none := hchain.tail
    simp only [htail] at hsingle₂ ⊢
    exact ⟨h₂, _, rfl, ⟨hsingle₂, rfl, rfl, hcount⟩, hw.mono (by simp)⟩
  -- the list has a last node `t`, which is linked to the new one
  · have htail : list.tail = some t := by rw [hchain.tail, List.concat_eq_append, last_concat]
    rw [List.concat_eq_append] at *
    have ht : t ∉ addresses init := by
      simp only [addresses, List.map_append, List.map_cons, List.map_nil] at hnodup
      exact fun hin => (List.nodup_append.mp hnodup).2.2 t hin t (by simp) rfl
    obtain ⟨h₃, hlink, hinit₃, hw₃⟩ := hchain₂.segment.setNext_last ht (some n)
    have hne : n ≠ t := fun heq => hnew (by simp [heq])
    have hsingle₃ : Segment h₃ (some t) [(n, a)] none := by
      refine (htail ▸ hsingle₂).congr fun m hm => hw₃.same m ?_
      obtain rfl : m = n := by simpa using hm
      simpa using hne
    simp only [htail, hlink, Option.map_some, Option.bind_some]
    refine ⟨h₃, _, rfl,
      ⟨?_, ?_, (last_concat none (init ++ [(t, b)]) (n, a)).symm, hcount⟩, ?_⟩
    · exact segment_append.mpr ⟨hinit₃, by rwa [last_concat]⟩
    · show list.head = _
      rw [hchain.head, first_append, first_append]
      cases init <;> rfl
    · exact (hw.mono (by simp)).trans (hw₃.mono (by simp))

/-- The nodes before `n`, or `head`, are linked to what comes after it. -/
theorem relink_before (hseg : Segment h none xs (some n)) (hnodup : (addresses xs).Nodup)
    (hhead : list.head = first xs (some n)) (next : Option Addr) :
    ∃ h' list',
      (match last none xs with
        | some p => (setNext h p next).map fun h => (h, list)
        | none => some (h, { list with head := next })) = some (h', list') ∧
      Segment h' none xs next ∧ list'.head = first xs next ∧ list'.tail = list.tail ∧
      list'.count = list.count ∧ Writes h h' (addresses xs) := by
  rcases List.eq_nil_or_concat xs with rfl | ⟨init, ⟨p, b⟩, rfl⟩
  · exact ⟨h, _, rfl, trivial, rfl, rfl, rfl, .refl h _⟩
  · rw [List.concat_eq_append] at *
    have hp : p ∉ addresses init := by
      simp only [addresses, List.map_append, List.map_cons, List.map_nil] at hnodup
      exact fun hin => (List.nodup_append.mp hnodup).2.2 p hin p (by simp) rfl
    obtain ⟨h', hset, hseg', hw⟩ := hseg.setNext_last hp next
    refine ⟨h', list, by simp only [last_concat, hset, Option.map_some], hseg', ?_, rfl, rfl,
      hw.mono (by simp)⟩
    rw [hhead]
    cases init <;> rfl

/-- The nodes after `n`, or `tail`, are linked to what comes before it. -/
theorem relink_after (hseg : Segment h (some n) ys none) (hnodup : (addresses ys).Nodup)
    (htail : list.tail = last (some n) ys) (prev : Option Addr) :
    ∃ h' list',
      (match first ys none with
        | some m => (setPrev h m prev).map fun h => (h, list)
        | none => some (h, { list with tail := prev })) = some (h', list') ∧
      Segment h' prev ys none ∧ list'.tail = last prev ys ∧ list'.head = list.head ∧
      list'.count = list.count ∧ Writes h h' (addresses ys) := by
  cases ys with
  | nil => exact ⟨h, _, rfl, trivial, rfl, rfl, rfl, .refl h _⟩
  | cons node ys =>
      obtain ⟨m, b⟩ := node
      obtain ⟨h', hset, hseg', hw⟩ :=
        hseg.setPrev_first (List.nodup_cons.mp hnodup).1 prev
      refine ⟨h', list, by simp only [first_cons, hset, Option.map_some], hseg', ?_, rfl, rfl,
        hw.mono (by simp)⟩
      rw [htail]
      rfl

omit [DecidableEq Addr] in
theorem Chain.nodup_sides (hnodup : (addresses (xs ++ (n, a) :: ys)).Nodup) :
    (addresses xs).Nodup ∧ (addresses ys).Nodup ∧ n ∉ addresses xs ∧ n ∉ addresses ys ∧
      ∀ m ∈ addresses xs, m ∉ addresses ys := by
  simp only [addresses, List.map_append, List.map_cons] at hnodup ⊢
  obtain ⟨hxs, hrest, hdisjoint⟩ := List.nodup_append.mp hnodup
  obtain ⟨hn, hys⟩ := List.nodup_cons.mp hrest
  refine ⟨hxs, hys, fun hin => hdisjoint n hin n List.mem_cons_self rfl, hn, fun m hm hm' => ?_⟩
  exact hdisjoint m hm m (List.mem_cons_of_mem n hm') rfl

theorem listRemoveNode_spec (hchain : Chain h list (xs ++ (n, a) :: ys))
    (hnodup : (addresses (xs ++ (n, a) :: ys)).Nodup) :
    ∃ h' list', listRemoveNode h list n = some (h', list') ∧ Chain h' list' (xs ++ ys) ∧
      Writes h h' (addresses (xs ++ ys)) := by
  obtain ⟨hxs, hys, hnxs, hnys, hdisjoint⟩ := Chain.nodup_sides hnodup
  have hnode : h n = some ⟨last none xs, first ys none, a⟩ := hchain.segment.node
  obtain ⟨hbefore, -, hafter⟩ := segment_append.mp hchain.segment
  have hhead : list.head = first xs (some n) := by rw [hchain.head, first_append]; rfl
  have htail : list.tail = last (some n) ys := by rw [hchain.tail, last_append]; rfl
  -- the two relinkings write on different sides of `n`, so each leaves the other side alone
  obtain ⟨h₁, list₁, hlink₁, hbefore₁, hhead₁, htail₁, hcount₁, hw₁⟩ :=
    relink_before hbefore hxs hhead (first ys none)
  have hnode₁ : h₁ n = some ⟨last none xs, first ys none, a⟩ := (hw₁.same n hnxs).trans hnode
  have hafter₁ : Segment h₁ (some n) ys none :=
    hafter.congr fun m hm => hw₁.same m fun hin => hdisjoint m hin hm
  obtain ⟨h₂, list₂, hlink₂, hafter₂, htail₂, hhead₂, hcount₂, hw₂⟩ :=
    relink_after hafter₁ hys (htail₁.trans htail) (last none xs)
  have hbefore₂ : Segment h₂ none xs (first ys none) :=
    hbefore₁.congr fun m hm => hw₂.same m (hdisjoint m hm)
  refine ⟨h₂, { list₂ with count := list₂.count - 1 }, ?_, ⟨?_, ?_, ?_, ?_⟩, ?_⟩
  · refine Option.bind_eq_some_iff.mpr ⟨_, hnode, ?_⟩
    refine Option.bind_eq_some_iff.mpr ⟨_, hlink₁, ?_⟩
    refine Option.bind_eq_some_iff.mpr ⟨_, hnode₁, ?_⟩
    exact Option.bind_eq_some_iff.mpr ⟨_, hlink₂, rfl⟩
  · exact segment_append.mpr ⟨hbefore₂, hafter₂⟩
  · rw [first_append, ← hhead₁]
    exact hhead₂
  · rw [last_append]
    exact htail₂
  · show list₂.count - 1 = _
    rw [hcount₂, hcount₁, hchain.count]
    simp only [List.length_append, List.length_cons]
    push_cast
    omega
  · refine (hw₁.mono fun m hm => ?_).trans (hw₂.mono fun m hm => ?_)
    · simpa [addresses] using Or.inl (List.mem_map.mp hm)
    · simpa [addresses] using Or.inr (List.mem_map.mp hm)

theorem listPopFront_nil (hchain : Chain h list []) :
    listPopFront h list = some (h, list, none) := by
  have hhead : list.head = none := hchain.head
  simp [listPopFront, hhead]

theorem listPopFront_cons (hchain : Chain h list ((n, a) :: ys))
    (hnodup : (addresses ((n, a) :: ys)).Nodup) :
    ∃ h' list', listPopFront h list = some (h', list', some n) ∧ Chain h' list' ys ∧
      Writes h h' (addresses ys) := by
  have hys : (addresses ys).Nodup := (List.nodup_cons.mp hnodup).2
  obtain ⟨hnode, hafter⟩ := hchain.segment
  have hhead : list.head = some n := hchain.head
  -- the head has moved on before the rest is relinked
  have htail : { list with head := first ys none }.tail = last (some n) ys := hchain.tail
  obtain ⟨h', list', hlink, hafter', htail', hhead', hcount', hw⟩ :=
    relink_after hafter hys htail none
  refine ⟨h', { list' with count := list'.count - 1 }, ?_, ⟨hafter', hhead', htail', ?_⟩, hw⟩
  · simp only [listPopFront, hhead]
    refine Option.bind_eq_some_iff.mpr ⟨_, hnode, ?_⟩
    exact Option.bind_eq_some_iff.mpr ⟨_, hlink, rfl⟩
  · show list'.count - 1 = _
    rw [hcount']
    show list.count - 1 = _
    rw [hchain.count]
    simp

/-! ## The queue -/

section queue

open LeveledFifo (itemsAt contents mapItems)

/-- The queue consists of the chains of these nodes, which are all the nodes there are. -/
structure WellFormed (q : LinkedPq Addr α) (nodes : LeveledFifo.Levels (Addr × α)) : Prop where
  length : nodes.length = q.lists.length
  chain : ∀ i list, q.lists[i]? = some list → Chain q.heap list (itemsAt nodes i)
  exclusive : Custody.Exclusive fun i => addresses (itemsAt nodes i)
  allocated : ∀ n, q.heap n ≠ none → ∃ i, n ∈ addresses (itemsAt nodes i)
  size : q.size = (contents nodes).length

variable {q : LinkedPq Addr α} {levels : LeveledFifo.Levels (Addr × α)} {i : ℕ}

namespace WellFormed

omit [DecidableEq Addr] in
theorem ne_none (hw : WellFormed q levels) {m : Addr} (hm : m ∈ addresses (itemsAt levels i)) :
    q.heap m ≠ none := by
  have hi : i < q.lists.length := by
    rw [← hw.length]
    apply LeveledFifo.lt_length_of_itemsAt
    intro hnil
    simp [hnil] at hm
  exact (hw.chain i _ (List.getElem?_eq_getElem hi)).segment.ne_none_of_mem hm

omit [DecidableEq Addr] in
theorem replace (hw : WellFormed q levels) {list' : LinkedList Addr} {h' : Heap Addr α}
    {nodes : List (Addr × α)} {size : ℤ} (closed : Bool) (hi : i < q.lists.length)
    (hchain : Chain h' list' nodes)
    (hother : ∀ j, j ≠ i → ∀ m ∈ addresses (itemsAt levels j), h' m = q.heap m)
    (hexclusive : Custody.Exclusive fun j => addresses (itemsAt (levels.set i nodes) j))
    (hallocated : ∀ m, h' m ≠ none → ∃ j, m ∈ addresses (itemsAt (levels.set i nodes) j))
    (hsize : size = (contents (levels.set i nodes)).length) :
    WellFormed ⟨h', q.lists.set i list', size, closed⟩ (levels.set i nodes) where
  length := by simp [hw.length]
  chain j list hlist := by
    have hlt : i < levels.length := by rwa [hw.length]
    rw [LeveledFifo.itemsAt_set nodes hlt]
    by_cases hj : j = i
    · subst hj
      rw [if_pos rfl]
      simp only [List.getElem?_set_self hi, Option.some.injEq] at hlist
      exact hlist ▸ hchain
    · rw [if_neg hj]
      rw [List.getElem?_set_ne (Ne.symm hj)] at hlist
      exact (hw.chain j list hlist).congr (hother j hj)
  exclusive := hexclusive
  allocated := hallocated
  size := hsize

/-- A node that was allocated for the item joins the end of a level. -/
theorem push (hw : WellFormed q levels) {list : LinkedList Addr} (hlist : q.lists[i]? = some list)
    (hn : q.heap n = none) (a : α) :
    ∃ h' list', listPushBack (Function.update q.heap n (some ⟨none, none, a⟩)) list n =
        some (h', list') ∧
      WellFormed ⟨h', q.lists.set i list', q.size + 1, q.closed⟩
        (LeveledFifo.pushBack levels i (n, a)) := by
  have hi : i < q.lists.length := (List.getElem?_eq_some_iff.mp hlist).1
  have hlt : i < levels.length := by rwa [hw.length]
  -- a free address is in no chain
  have hnew : ∀ j, n ∉ addresses (itemsAt levels j) := fun j hin => hw.ne_none hin hn
  have hsame : ∀ j, ∀ m ∈ addresses (itemsAt levels j),
      Function.update q.heap n (some ⟨none, none, a⟩) m = q.heap m := by
    intro j m hm
    have hne : m ≠ n := fun heq => hnew j (heq ▸ hm)
    simp [hne]
  obtain ⟨h', list', hpush, hchain', hwrites⟩ :=
    listPushBack_spec ((hw.chain i list hlist).congr (hsame i)) (hw.exclusive.nodup i)
      (Function.update_self ..) (hnew i)
  refine ⟨h', list', hpush, ?_⟩
  have hset := LeveledFifo.pushBack_eq_set levels i (n, a)
  have hperm := LeveledFifo.contents_pushBack_perm (n, a) hlt
  rw [hset] at hperm ⊢
  refine hw.replace q.closed hi hchain' ?_ ?_ ?_ ?_
  · intro j hj m hm
    rw [hwrites.same m, hsame j m hm]
    intro hin
    rcases List.mem_cons.mp hin with rfl | hin
    · exact hnew j hm
    · exact hj (hw.exclusive.unique hm hin)
  · refine hw.exclusive.create (p := i) (a := n) hnew ?_ fun j hj => ?_
    · rw [LeveledFifo.itemsAt_set _ hlt, if_pos rfl, addresses, List.map_append]
      exact List.perm_append_singleton n _
    · rw [LeveledFifo.itemsAt_set _ hlt, if_neg hj]
  · intro m hm
    by_cases hmn : m = n
    · refine ⟨i, ?_⟩
      rw [LeveledFifo.itemsAt_set _ hlt, if_pos rfl]
      simp [hmn]
    -- any other node was in use before, and stays in its chain
    · have hbefore : q.heap m ≠ none := by
        intro hnone
        apply hm
        rw [hwrites.domain m]
        simpa [hmn] using hnone
      obtain ⟨j, hj⟩ := hw.allocated m hbefore
      refine ⟨j, ?_⟩
      rw [LeveledFifo.itemsAt_set _ hlt]
      split
      · rename_i hji
        rw [addresses, List.map_append]
        exact List.mem_append_left _ (hji ▸ hj)
      · exact hj
  · rw [hw.size, hperm.length_eq]
    simp

/-- A node is taken out of a level and freed. -/
theorem remove (hw : WellFormed q levels) (hi : i < q.lists.length)
    (hitems : itemsAt levels i = xs ++ (n, a) :: ys) {h' : Heap Addr α} {list' : LinkedList Addr}
    (hchain : Chain h' list' (xs ++ ys)) (hwrites : Writes q.heap h' (addresses (xs ++ ys))) :
    WellFormed ⟨LinkedPq.free h' n, q.lists.set i list', q.size - 1, q.closed⟩
      (levels.set i (xs ++ ys)) := by
  have hlt : i < levels.length := by rwa [hw.length]
  have hnodup : (addresses (xs ++ (n, a) :: ys)).Nodup := hitems ▸ hw.exclusive.nodup i
  have hmem : ∀ m, m ∈ addresses (xs ++ ys) → m ∈ addresses (itemsAt levels i) := by
    intro m hm
    rw [hitems]
    simp only [addresses, List.map_append, List.map_cons, List.mem_append, List.mem_cons] at hm ⊢
    rcases hm with hm | hm
    · exact .inl hm
    · exact .inr (.inr hm)
  -- the node that is freed is in no chain any more
  have hn : n ∉ addresses (xs ++ ys) := by
    obtain ⟨-, -, hnxs, hnys, -⟩ := Chain.nodup_sides hnodup
    rw [addresses, List.map_append]
    exact fun hin => (List.mem_append.mp hin).elim hnxs hnys
  have hni : n ∈ addresses (itemsAt levels i) := by
    rw [hitems]
    simp
  have hfree : ∀ m, m ≠ n → LinkedPq.free h' n m = h' m := by
    intro m hm
    simp [LinkedPq.free, hm]
  refine hw.replace q.closed hi ?_ ?_ ?_ ?_ ?_
  · exact hchain.congr fun m hm => hfree m fun heq => hn (heq ▸ hm)
  · intro j hj m hm
    have hne : m ≠ n := fun heq => hj (hw.exclusive.unique (heq ▸ hm) hni)
    rw [hfree m hne]
    exact hwrites.same m fun hin => hj (hw.exclusive.unique hm (hmem m hin))
  · refine hw.exclusive.of_subperm fun j => ?_
    rw [LeveledFifo.itemsAt_set _ hlt]
    split
    · rename_i hji
      subst hji
      rw [hitems]
      apply List.Sublist.subperm
      exact ((List.sublist_cons_self (n, a) ys).append_left xs).map Prod.fst
    · exact List.Subperm.refl _
  · intro m hm
    have hne : m ≠ n := by
      rintro rfl
      simp [LinkedPq.free] at hm
    rw [hfree m hne] at hm
    obtain ⟨j, hj⟩ := hw.allocated m fun hnone => hm ((hwrites.domain m).mpr hnone)
    refine ⟨j, ?_⟩
    rw [LeveledFifo.itemsAt_set _ hlt]
    split
    · rename_i hji
      rw [hji, hitems] at hj
      simp only [addresses, List.map_append, List.map_cons, List.mem_append, List.mem_cons] at hj ⊢
      rcases hj with hj | hj | hj
      · exact .inl hj
      · exact absurd hj hne
      · exact .inr hj
    · exact hj
  · have hsplit : (itemsAt levels i).Perm ((n, a) :: (xs ++ ys)) := hitems ▸ List.perm_middle
    have hperm := LeveledFifo.contents_perm_set hlt hsplit
    rw [hw.size, hperm.length_eq]
    simp

/-- The loop over the levels takes the first node of the highest level that has one. -/
theorem popLevels (hw : WellFormed q levels) {level k : ℕ} {rest : List (Addr × α)}
    (hlevel : level < k) (hk : k ≤ q.lists.length)
    (hitems : itemsAt levels level = (n, a) :: rest)
    (habove : ∀ l, level < l → itemsAt levels l = []) :
    ∃ h' list', LinkedPq.popLevels q.heap q.lists k =
        some (h', q.lists.set level list', some n) ∧ Chain h' list' rest ∧
      Writes q.heap h' (addresses rest) := by
  induction k with
  | zero => exact absurd hlevel (Nat.not_lt_zero level)
  | succ k ih =>
      have hlist := List.getElem?_eq_getElem (Nat.lt_of_succ_le hk)
      have hchain := hw.chain k _ hlist
      -- the loop goes down: above `level` it finds empty lists
      by_cases hkl : k = level
      · subst hkl
        rw [hitems] at hchain
        obtain ⟨h', list', hpop, hchain', hwrites⟩ :=
          listPopFront_cons hchain (hitems ▸ hw.exclusive.nodup k)
        refine ⟨h', list', ?_, hchain', hwrites⟩
        rw [LinkedPq.popLevels]
        refine Option.bind_eq_some_iff.mpr ⟨_, hlist, ?_⟩
        exact Option.bind_eq_some_iff.mpr ⟨_, hpop, rfl⟩
      · have hlt : level < k := by omega
        rw [habove k hlt] at hchain
        obtain ⟨h', list', hpop, hrest⟩ := ih hlt (by omega)
        refine ⟨h', list', ?_, hrest⟩
        rw [LinkedPq.popLevels]
        refine Option.bind_eq_some_iff.mpr ⟨_, hlist, ?_⟩
        refine Option.bind_eq_some_iff.mpr ⟨_, listPopFront_nil hchain, ?_⟩
        simpa using hpop

/-- A queue with items gives the one that the functional queue gives. -/
theorem popNode (hw : WellFormed q levels) {rest : LeveledFifo.Levels (Addr × α)}
    (hpop : LeveledFifo.popFirst levels = some ((n, a), rest)) :
    ∃ q', q.popNode = some (q', .item (some a)) ∧ WellFormed q' rest ∧ q'.closed = q.closed := by
  obtain ⟨level, hitems, habove, -⟩ := LeveledFifo.popFirst_spec hpop
  have hlevel : level < q.lists.length := by
    rw [← hw.length]
    apply LeveledFifo.lt_length_of_itemsAt
    rw [hitems]
    nofun
  obtain ⟨h', list', hloop, hchain, hwrites⟩ := hw.popLevels hlevel le_rfl hitems habove
  have hnode : h' n = q.heap n := by
    apply hwrites.same
    have hnodup := hw.exclusive.nodup level
    rw [hitems] at hnodup
    exact (List.nodup_cons.mp hnodup).1
  have hsegment := (hw.chain level _ (List.getElem?_eq_getElem hlevel)).segment
  rw [hitems] at hsegment
  have hrest : rest = levels.set level (itemsAt rest level) := by
    have heq := LeveledFifo.popFirst_of_cons hitems habove
    rw [hpop] at heq
    exact (Prod.mk.inj (Option.some.inj heq)).2
  have hitems' : itemsAt levels level = [] ++ (n, a) :: itemsAt rest level := hitems
  refine ⟨⟨LinkedPq.free h' n, q.lists.set level list', q.size - 1, q.closed⟩, ?_, ?_, rfl⟩
  swap
  · rw [hrest]
    exact hw.remove hlevel hitems' hchain hwrites
  refine Option.bind_eq_some_iff.mpr ⟨_, hloop, ?_⟩
  refine Option.bind_eq_some_iff.mpr ⟨n, rfl, ?_⟩
  exact Option.bind_eq_some_iff.mpr ⟨_, hnode.trans hsegment.1, rfl⟩

omit [DecidableEq Addr] in
/-- The loop over the nodes of a list finds the first one whose item matches. -/
theorem findNode_spec {pred : α → Bool} {prev : Option Addr} {fuel : ℕ}
    (hseg : Segment h prev nodes none) (hfuel : nodes.length < fuel) :
    LinkedPq.findNode h pred fuel (first nodes none) =
      some ((nodes.find? fun node => pred node.2).map Prod.fst) := by
  induction nodes generalizing prev fuel with
  | nil =>
      cases fuel with
      | zero => exact absurd hfuel (Nat.not_lt_zero _)
      | succ fuel => rfl
  | cons node rest ih =>
      obtain ⟨n, a⟩ := node
      obtain ⟨hnode, hrest⟩ := hseg
      cases fuel with
      | zero => exact absurd hfuel (Nat.not_lt_zero _)
      | succ fuel =>
          have hloop := ih hrest (Nat.lt_of_succ_lt_succ hfuel)
          rw [first_cons, LinkedPq.findNode, hnode, Option.bind_eq_bind, Option.bind_some]
          cases hpred : pred a with
          | true => simp [hpred]
          | false => simpa [hpred] using hloop

/-- The loop over the levels takes out the node that the functional queue takes out. -/
theorem extractLevels (hw : WellFormed q levels) {pred : α → Bool} {fuel level k : ℕ}
    (hfuel : (contents levels).length < fuel) (hlevel : level < k) (hk : k ≤ q.lists.length)
    (hfind : (itemsAt levels level).find? (fun node => pred node.2) = some (n, a))
    (habove : ∀ l, level < l → ∀ node ∈ itemsAt levels l, pred node.2 = false) :
    ∃ q', LinkedPq.extractLevels fuel q pred k = some (q', .item (some a)) ∧
      WellFormed q' (levels.set level ((itemsAt levels level).eraseP fun node => pred node.2)) ∧
      q'.closed = q.closed := by
  induction k with
  | zero => exact absurd hlevel (Nat.not_lt_zero level)
  | succ k ih =>
      have hlist := List.getElem?_eq_getElem (Nat.lt_of_succ_le hk)
      have hchain := hw.chain k _ hlist
      have hloop : LinkedPq.findNode q.heap pred fuel q.lists[k].head = some
          (((itemsAt levels k).find? fun node => pred node.2).map Prod.fst) := by
        rw [hchain.head]
        exact findNode_spec hchain.segment
          (lt_of_le_of_lt (LeveledFifo.length_itemsAt_le levels k) hfuel)
      by_cases hkl : k = level
      · subst hkl
        -- the nodes before the match are passed over, and the match is cut out
        obtain ⟨hpred, before, after, hitems, hbefore⟩ := List.find?_eq_some_iff_append.mp hfind
        have herase : (itemsAt levels k).eraseP (fun node => pred node.2) = before ++ after := by
          rw [hitems,
            List.eraseP_append_right _ fun node hnode => by simpa using hbefore node hnode]
          simp [hpred]
        rw [hitems] at hchain
        obtain ⟨h', list', hremove, hchain', hwrites⟩ :=
          listRemoveNode_spec hchain (hitems ▸ hw.exclusive.nodup k)
        refine ⟨⟨LinkedPq.free h' n, q.lists.set k list', q.size - 1, q.closed⟩, ?_, ?_, rfl⟩
        · rw [LinkedPq.extractLevels]
          refine Option.bind_eq_some_iff.mpr ⟨_, hlist, ?_⟩
          refine Option.bind_eq_some_iff.mpr ⟨_, hloop, ?_⟩
          rw [hfind]
          refine Option.bind_eq_some_iff.mpr ⟨_, hchain.segment.node, ?_⟩
          exact Option.bind_eq_some_iff.mpr ⟨_, hremove, rfl⟩
        · rw [herase]
          exact hw.remove (Nat.lt_of_succ_le hk) hitems hchain' hwrites
      · have hlt : level < k := by omega
        have hnone : (itemsAt levels k).find? (fun node => pred node.2) = none :=
          List.find?_eq_none.mpr fun node hnode => by simp [habove k hlt node hnode]
        obtain ⟨q', hextract, hrest⟩ := ih hlt (by omega)
        refine ⟨q', ?_, hrest⟩
        rw [LinkedPq.extractLevels]
        refine Option.bind_eq_some_iff.mpr ⟨_, hlist, ?_⟩
        refine Option.bind_eq_some_iff.mpr ⟨_, hloop, ?_⟩
        rw [hnone]
        exact hextract

/-- Without a match the queue stays as it is. -/
theorem extractLevels_none (hw : WellFormed q levels) {pred : α → Bool} {fuel k : ℕ}
    (hfuel : (contents levels).length < fuel) (hk : k ≤ q.lists.length)
    (hnone : ∀ l, ∀ node ∈ itemsAt levels l, pred node.2 = false) :
    LinkedPq.extractLevels fuel q pred k = some (q, .item none) := by
  induction k with
  | zero => rfl
  | succ k ih =>
      have hlist := List.getElem?_eq_getElem (Nat.lt_of_succ_le hk)
      have hchain := hw.chain k _ hlist
      have hloop : LinkedPq.findNode q.heap pred fuel q.lists[k].head = some none := by
        rw [hchain.head, findNode_spec hchain.segment
          (lt_of_le_of_lt (LeveledFifo.length_itemsAt_le levels k) hfuel),
          List.find?_eq_none.mpr fun node hnode => by simp [hnone k node hnode]]
        rfl
      rw [LinkedPq.extractLevels]
      refine Option.bind_eq_some_iff.mpr ⟨_, hlist, ?_⟩
      exact Option.bind_eq_some_iff.mpr ⟨_, hloop, ih (by omega)⟩

omit [DecidableEq Addr] in
/-- The loop over the nodes of a list visits all of them in order. -/
theorem visit_spec {prev : Option Addr} {fuel : ℕ} (hseg : Segment h prev nodes none)
    (hfuel : nodes.length < fuel) :
    LinkedPq.visit h fuel (first nodes none) = some (nodes.map Prod.snd) := by
  induction nodes generalizing prev fuel with
  | nil =>
      cases fuel with
      | zero => exact absurd hfuel (Nat.not_lt_zero _)
      | succ fuel => rfl
  | cons node rest ih =>
      obtain ⟨n, a⟩ := node
      obtain ⟨hnode, hrest⟩ := hseg
      cases fuel with
      | zero => exact absurd hfuel (Nat.not_lt_zero _)
      | succ fuel =>
          have hloop := ih hrest (Nat.lt_of_succ_lt_succ hfuel)
          refine Option.bind_eq_some_iff.mpr ⟨_, hnode, ?_⟩
          exact Option.bind_eq_some_iff.mpr ⟨_, hloop, rfl⟩

omit [DecidableEq Addr] in
/-- The loop over the levels visits all items, level by level. -/
theorem visitLevels_spec {fuel : ℕ} {lists : List (LinkedList Addr)}
    {levels : LeveledFifo.Levels (Addr × α)} (hlength : levels.length = lists.length)
    (hchain : ∀ i list, lists[i]? = some list → Chain h list (itemsAt levels i))
    (hfuel : (contents levels).length < fuel) :
    LinkedPq.visitLevels fuel h lists = some ((contents levels).map Prod.snd) := by
  induction lists generalizing levels with
  | nil =>
      obtain rfl := List.length_eq_zero_iff.mp hlength
      rfl
  | cons list lists ih =>
      cases levels with
      | nil => cases hlength
      | cons nodes higher =>
          rw [LeveledFifo.contents_cons, List.length_append] at hfuel
          have hfirst : Chain h list nodes := hchain 0 list rfl
          have hrest := ih (Nat.succ.inj hlength) (fun i list hlist => hchain (i + 1) list hlist)
            (by omega)
          rw [LeveledFifo.contents_cons, List.map_append]
          refine Option.bind_eq_some_iff.mpr ⟨nodes.map Prod.snd, ?_, ?_⟩
          · rw [hfirst.head]
            exact visit_spec hfirst.segment (by omega)
          · exact Option.bind_eq_some_iff.mpr ⟨_, hrest, rfl⟩

omit [DecidableEq Addr] in
theorem size_eq_sum (hw : WellFormed q levels) : q.size = (q.lists.map (·.count)).sum := by
  have hcounts : q.lists.map (·.count) = levels.map fun nodes => (nodes.length : ℤ) := by
    refine List.ext_getElem (by simp [hw.length]) fun i hi hi' => ?_
    simp only [List.length_map] at hi hi'
    have hchain := hw.chain i _ (List.getElem?_eq_getElem hi)
    simp only [List.getElem_map, hchain.count]
    rw [itemsAt, List.getD, List.getElem?_eq_getElem hi']
    rfl
  rw [hw.size, hcounts]
  clear hw hcounts
  induction levels with
  | nil => rfl
  | cons nodes levels ih => simp [ih]

end WellFormed

/-! ## Calls -/

/-- The queue consists of chains, and their items, level by level, are those of the
functional queue. -/
def Represents (q : LinkedPq Addr α) (f : FifoQueue α) : Prop :=
  ∃ levels, WellFormed q levels ∧ f.levels = mapItems Prod.snd levels ∧ f.closed = q.closed

variable {f : FifoQueue α}

omit [DecidableEq Addr] in
theorem create_represents (levels : ℕ) :
    Represents (LinkedPq.create levels : LinkedPq Addr α) (FifoQueue.create levels) := by
  have hitems : ∀ i, itemsAt (List.replicate levels ([] : List (Addr × α))) i = [] := by
    intro i
    unfold itemsAt
    rw [List.getD, List.getElem?_replicate]
    split <;> rfl
  refine ⟨List.replicate levels [], ⟨by simp [LinkedPq.create], ?_, ⟨?_, ?_⟩, nofun, ?_⟩, ?_, rfl⟩
  · intro i list hlist
    rw [hitems]
    obtain ⟨-, rfl⟩ := List.mem_replicate.mp (List.mem_of_getElem? hlist)
    exact ⟨trivial, rfl, rfl, rfl⟩
  · intro i
    simp [hitems]
  · intro i j m hm
    simp [hitems] at hm
  · simp [LinkedPq.create]
  · simp [FifoQueue.create, mapItems]

namespace Represents

omit [DecidableEq Addr] in
theorem length (hrep : Represents q f) : f.levels.length = q.lists.length := by
  obtain ⟨levels, hw, hlevels, -⟩ := hrep
  rw [hlevels, LeveledFifo.length_mapItems, hw.length]

theorem push (hrep : Represents q f) (hpos : 0 < f.levels.length) (item : α) (prio : ℤ)
    (hn : q.heap n = none) : ∃ q', q.push item prio n = some q' ∧
      Represents q' (if f.closed then f
        else { f with levels := LeveledFifo.pushBack f.levels (f.clamp prio) item }) := by
  have hlength := hrep.length
  obtain ⟨levels, hw, hlevels, hclosed⟩ := hrep
  cases hq : q.closed with
  | true =>
      -- on a closed queue the new node is freed at once
      have hheap :
          LinkedPq.free (Function.update q.heap n (some ⟨none, none, item⟩)) n = q.heap := by
        funext m
        by_cases hm : m = n
        · simp [LinkedPq.free, hm, hn]
        · simp [LinkedPq.free, hm]
      refine ⟨q, ?_, levels, hw, by simp [hclosed, hq, hlevels], by simp [hclosed, hq]⟩
      unfold LinkedPq.push
      rw [if_pos hq, hheap]
  | false =>
      have hlevel : f.clamp prio < q.lists.length := by
        unfold FifoQueue.clamp
        omega
      have hclamp :
          (if (if q.lists.length ≤ prio then (q.lists.length : ℤ) - 1 else prio) < 0 then 0
          else if q.lists.length ≤ prio then (q.lists.length : ℤ) - 1 else prio).toNat =
            f.clamp prio := by
        unfold FifoQueue.clamp
        rw [hlength] at hpos ⊢
        split <;> split at * <;> omega
      have hlist := List.getElem?_eq_getElem hlevel
      obtain ⟨h', list', hpush, hw'⟩ := hw.push hlist hn item
      refine ⟨⟨h', q.lists.set (f.clamp prio) list', q.size + 1, q.closed⟩, ?_, _, hw', ?_, ?_⟩
      · unfold LinkedPq.push
        rw [if_neg (by simp [hq])]
        simp only [hclamp]
        refine Option.bind_eq_some_iff.mpr ⟨_, hlist, ?_⟩
        exact Option.bind_eq_some_iff.mpr ⟨_, hpush, rfl⟩
      · simp [hclosed, hq, hlevels, LeveledFifo.mapItems_pushBack]
      · simp [hclosed, hq]

theorem popNode (hrep : Represents q f) {rest : LeveledFifo.Levels α}
    (hpop : LeveledFifo.popFirst f.levels = some (a, rest)) :
    ∃ q', q.popNode = some (q', .item (some a)) ∧ Represents q' { f with levels := rest } := by
  obtain ⟨levels, hw, hlevels, hclosed⟩ := hrep
  rw [hlevels, LeveledFifo.popFirst_mapItems, Option.map_eq_some_iff] at hpop
  obtain ⟨⟨⟨n, b⟩, rest'⟩, hpop', heq⟩ := hpop
  obtain ⟨rfl, rfl⟩ := Prod.mk.inj heq
  obtain ⟨q', hnode, hw', hclosed'⟩ := hw.popNode hpop'
  exact ⟨q', hnode, rest', hw', rfl, hclosed.trans hclosed'.symm⟩

omit [DecidableEq Addr] in
theorem size_eq_zero_iff (hrep : Represents q f) :
    q.size = 0 ↔ LeveledFifo.popFirst f.levels = none := by
  obtain ⟨levels, hw, hlevels, -⟩ := hrep
  rw [LeveledFifo.popFirst_eq_none_iff, hlevels, hw.size, LeveledFifo.contents_mapItems]
  simp

theorem pop (hrep : Represents q f) : ∃ q', q.pop = some (q', (f.step (.pop : PqCall Addr α)).2) ∧
    Represents q' (f.step (.pop : PqCall Addr α)).1 := by
  have hclosed : f.closed = q.closed := hrep.choose_spec.2.2
  cases hpop : LeveledFifo.popFirst f.levels with
  | none =>
      have hsize := hrep.size_eq_zero_iff.mpr hpop
      refine ⟨q, ?_, by simpa [FifoQueue.step, hpop] using hrep⟩
      cases hq : q.closed <;> simp [LinkedPq.pop, FifoQueue.step, hpop, hsize, hclosed, hq]
  | some found =>
      obtain ⟨a, rest⟩ := found
      have hsize : q.size ≠ 0 := by
        simp [hrep.size_eq_zero_iff, hpop]
      obtain ⟨q', hnode, hrep'⟩ := hrep.popNode hpop
      exact ⟨q', by simp [LinkedPq.pop, FifoQueue.step, hpop, hsize, hnode],
        by simpa [FifoQueue.step, hpop] using hrep'⟩

theorem tryPop (hrep : Represents q f) :
    ∃ q', q.tryPop = some (q', (f.step (.tryPop : PqCall Addr α)).2) ∧
      Represents q' (f.step (.tryPop : PqCall Addr α)).1 := by
  cases hpop : LeveledFifo.popFirst f.levels with
  | none =>
      have hsize := hrep.size_eq_zero_iff.mpr hpop
      exact ⟨q, by simp [LinkedPq.tryPop, FifoQueue.step, hpop, hsize],
        by simpa [FifoQueue.step, hpop] using hrep⟩
  | some found =>
      obtain ⟨a, rest⟩ := found
      have hsize : q.size ≠ 0 := by
        simp [hrep.size_eq_zero_iff, hpop]
      obtain ⟨q', hnode, hrep'⟩ := hrep.popNode hpop
      exact ⟨q', by simp [LinkedPq.tryPop, FifoQueue.step, hpop, hsize, hnode],
        by simpa [FifoQueue.step, hpop] using hrep'⟩

theorem extractFirst (hrep : Represents q f) {fuel : ℕ}
    (hfuel : (contents f.levels).length < fuel) (pred : α → Bool) :
    ∃ q', q.extractFirst fuel pred =
        some (q', (f.step (.extractFirst pred : PqCall Addr α)).2) ∧
      Represents q' (f.step (.extractFirst pred : PqCall Addr α)).1 := by
  obtain ⟨levels, hw, hlevels, hclosed⟩ := hrep
  rw [hlevels, LeveledFifo.contents_mapItems, List.length_map] at hfuel
  have hmap := LeveledFifo.extractFirst_mapItems Prod.snd pred levels
  rw [← hlevels] at hmap
  -- both queues find the same item, or none
  cases hextract : LeveledFifo.extractFirst (fun node : Addr × α => pred node.2) levels with
  | none =>
      rw [hextract, Option.map_none] at hmap
      have hnone := LeveledFifo.extractFirst_eq_none_iff.mp hextract
      refine ⟨q, ?_, levels, hw, ?_, ?_⟩
      · simpa [FifoQueue.step, LinkedPq.extractFirst, hmap] using
          hw.extractLevels_none hfuel le_rfl hnone
      · simpa [FifoQueue.step, hmap] using hlevels
      · simpa [FifoQueue.step, hmap] using hclosed
  | some found =>
      obtain ⟨⟨n, a⟩, rest⟩ := found
      rw [hextract, Option.map_some] at hmap
      obtain ⟨level, hfind, habove, -⟩ := LeveledFifo.extractFirst_spec hextract
      have hlevel : level < q.lists.length := by
        rw [← hw.length]
        apply LeveledFifo.lt_length_of_itemsAt
        intro hnil
        simp [hnil] at hfind
      obtain ⟨q', hloop, hw', hclosed'⟩ := hw.extractLevels hfuel hlevel le_rfl hfind habove
      have hrest := LeveledFifo.extractFirst_of_find hfind habove
      rw [hextract, Option.some.injEq, Prod.mk.injEq] at hrest
      refine ⟨q', ?_, rest, hrest.2 ▸ hw', ?_, ?_⟩
      · simpa [FifoQueue.step, LinkedPq.extractFirst, hmap] using hloop
      · simp [FifoQueue.step, hmap]
      · simpa [FifoQueue.step, hmap] using hclosed.trans hclosed'.symm

omit [DecidableEq Addr] in
theorem map (hrep : Represents q f) {fuel : ℕ} (hfuel : (contents f.levels).length < fuel) :
    q.map fuel = some (q, .visited (contents f.levels)) := by
  obtain ⟨levels, hw, hlevels, -⟩ := hrep
  rw [hlevels, LeveledFifo.contents_mapItems] at hfuel ⊢
  rw [List.length_map] at hfuel
  rw [LinkedPq.map, WellFormed.visitLevels_spec hw.length hw.chain hfuel, Option.map_some]

/-- **Step lemma.**  A call has a defined outcome, and it is that of the functional queue. -/
theorem step (hrep : Represents q f) (hpos : 0 < f.levels.length) {fuel : ℕ}
    (hfuel : (contents f.levels).length < fuel) (call : PqCall Addr α)
    (hfresh : ∀ item prio n, call = .push item prio n → q.heap n = none) :
    ∃ q', q.step fuel call = some (q', (f.step call).2) ∧ Represents q' (f.step call).1 := by
  cases call with
  | push item prio n =>
      obtain ⟨q', hpush, hrep'⟩ := hrep.push hpos item prio (hfresh item prio n rfl)
      exact ⟨q', by rw [LinkedPq.step, hpush]; rfl, hrep'⟩
  | pop => exact hrep.pop
  | tryPop => exact hrep.tryPop
  | extractFirst pred => exact hrep.extractFirst hfuel pred
  | map => exact ⟨q, hrep.map hfuel, hrep⟩
  | close =>
      obtain ⟨levels, hw, hlevels, -⟩ := hrep
      exact ⟨q.close, rfl, levels, { hw with }, hlevels, rfl⟩

end Represents

omit [DecidableEq Addr] in
/-- A call keeps the number of levels and adds at most one item. -/
theorem FifoQueue.step_length (f : FifoQueue α) (call : PqCall Addr α) :
    (f.step call).1.levels.length = f.levels.length ∧
      (contents (f.step call).1.levels).length ≤ (contents f.levels).length + 1 := by
  have hpop : ∀ {a rest}, LeveledFifo.popFirst f.levels = some (a, rest) →
      rest.length = f.levels.length ∧ (contents rest).length ≤ (contents f.levels).length + 1 := by
    intro a rest hpop
    have hlength := (LeveledFifo.popFirst_perm hpop).length_eq
    rw [LeveledFifo.popFirst_eq_extractFirst] at hpop
    rw [List.length_cons] at hlength
    exact ⟨LeveledFifo.length_extractFirst hpop, by omega⟩
  cases call with
  | push item prio n =>
      simp only [FifoQueue.step]
      split
      · exact ⟨rfl, Nat.le_succ _⟩
      · exact ⟨LeveledFifo.length_pushBack .., LeveledFifo.length_contents_pushBack_le ..⟩
  | pop =>
      cases hfound : LeveledFifo.popFirst f.levels with
      | none => simp [FifoQueue.step, hfound]
      | some found => simpa [FifoQueue.step, hfound] using hpop hfound
  | tryPop =>
      cases hfound : LeveledFifo.popFirst f.levels with
      | none => simp [FifoQueue.step, hfound]
      | some found => simpa [FifoQueue.step, hfound] using hpop hfound
  | extractFirst pred =>
      cases hfound : LeveledFifo.extractFirst pred f.levels with
      | none => simp [FifoQueue.step, hfound]
      | some found =>
          have hlength := (LeveledFifo.extractFirst_perm hfound).2.length_eq
          rw [List.length_cons] at hlength
          have hlevels := LeveledFifo.length_extractFirst hfound
          simp only [FifoQueue.step, hfound]
          exact ⟨hlevels, by omega⟩
  | map => exact ⟨rfl, Nat.le_succ _⟩
  | close => exact ⟨rfl, Nat.le_succ _⟩

/-- At each push of the sequence `malloc` returns memory that is not in use. -/
def freshNodes (fuel : ℕ) (q : LinkedPq Addr α) : List (PqCall Addr α) → Bool
  | [] => true
  | call :: calls =>
      (match call with
        | .push _ _ n => (q.heap n).isNone
        | _ => true) &&
      match q.step fuel call with
      | some (q', _) => freshNodes fuel q' calls
      | none => true

theorem freshNodes_cons {fuel : ℕ} {call : PqCall Addr α} {calls : List (PqCall Addr α)}
    (h : freshNodes fuel q (call :: calls)) :
    (∀ item prio n, call = .push item prio n → q.heap n = none) ∧
      ∀ q' answer, q.step fuel call = some (q', answer) → freshNodes fuel q' calls := by
  unfold freshNodes at h
  rw [Bool.and_eq_true] at h
  constructor
  · rintro item prio n rfl
    exact Option.isNone_iff_eq_none.mp h.1
  · intro q' answer hstep
    simpa only [hstep] using h.2

/-- **Run lemma.** -/
theorem Represents.run (hrep : Represents q f) (hpos : 0 < f.levels.length) {fuel : ℕ}
    (calls : List (PqCall Addr α)) (hfuel : (contents f.levels).length + calls.length < fuel)
    (hfresh : freshNodes fuel q calls) :
    ∃ q', q.run fuel calls = some (q', (f.run calls).2) ∧ Represents q' (f.run calls).1 := by
  induction calls generalizing q f with
  | nil => exact ⟨q, rfl, hrep⟩
  | cons call calls ih =>
      rw [List.length_cons] at hfuel
      obtain ⟨hlength, hcontents⟩ := f.step_length call
      have hfuel₀ : (contents f.levels).length < fuel := by omega
      obtain ⟨hnode, hrest⟩ := freshNodes_cons hfresh
      obtain ⟨q₁, hstep, hrep₁⟩ := hrep.step hpos hfuel₀ call hnode
      have hpos₁ : 0 < (f.step call).1.levels.length := by omega
      have hfuel₁ : (contents (f.step call).1.levels).length + calls.length < fuel := by omega
      obtain ⟨q', hrun, hrep'⟩ := ih hrep₁ hpos₁ hfuel₁ (hrest q₁ _ hstep)
      refine ⟨q', ?_, hrep'⟩
      refine Option.bind_eq_some_iff.mpr ⟨_, hstep, ?_⟩
      exact Option.bind_eq_some_iff.mpr ⟨_, hrun, rfl⟩

/-- **The linked queue refines the functional one.**  For every number of levels
from one on and every sequence of calls, `malloc` returning memory that is not in
use, no call follows a pointer to no node; the calls return what the functional
queue returns; and in the end the lists are well formed chains of different nodes
whose items are those of the functional queue, with `size` the sum of the counts. -/
theorem linked_queue_refines {levels : ℕ} (hlevels : 1 ≤ levels) (calls : List (PqCall Addr α))
    {fuel : ℕ} (hfuel : calls.length < fuel)
    (hfresh : freshNodes fuel (LinkedPq.create levels) calls) :
    ∃ q : LinkedPq Addr α, (LinkedPq.create levels).run fuel calls =
        some (q, ((FifoQueue.create levels).run calls).2) ∧
      q.size = (q.lists.map (·.count)).sum ∧
      Represents q ((FifoQueue.create levels).run calls).1 := by
  have hcontents : (contents (FifoQueue.create levels : FifoQueue α).levels).length = 0 := by
    simp [FifoQueue.create]
  have hpos : 0 < (FifoQueue.create levels : FifoQueue α).levels.length := by
    rw [FifoQueue.create, List.length_replicate]
    exact hlevels
  obtain ⟨q, hrun, hrep⟩ := (create_represents levels).run hpos calls (by omega) hfresh
  exact ⟨q, hrun, hrep.choose_spec.1.size_eq_sum, hrep⟩

/-- A queue of two levels: pushes inside and outside their range, an extraction from
the middle, pops until it is empty and a push after `pq_close`. -/
def tryoutCalls : List (PqCall ℕ ℕ) :=
  [.push 1 0 0, .push 2 7 1, .push 3 1 2, .push 4 1 3, .push 5 (-4) 4,
    .extractFirst (fun a => a = 3), .map, .pop, .tryPop, .close, .push 6 1 5, .pop, .pop, .pop]

theorem linked_queue_refines_tryout :
    ∃ q : LinkedPq ℕ ℕ, (LinkedPq.create 2).run 15 tryoutCalls =
        some (q, ((FifoQueue.create 2).run tryoutCalls).2) ∧
      q.size = (q.lists.map (·.count)).sum ∧
      Represents q ((FifoQueue.create 2).run tryoutCalls).1 := by
  have hfresh : freshNodes 15 (LinkedPq.create 2) tryoutCalls := by decide
  exact linked_queue_refines (by decide) tryoutCalls (by decide) hfresh

example : ((FifoQueue.create 2).run tryoutCalls).2 =
    [.done, .done, .done, .done, .done, .item (some 3), .visited [1, 5, 2, 4], .item (some 2),
      .item (some 4), .done, .done, .item (some 1), .item (some 5), .item none] := by
  decide

end queue

end EmergencyDispatch
