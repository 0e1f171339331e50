import EmergencyDispatch.Library.TransitionSystem
import Mathlib.Data.Set.Basic

/-!
# Sections protected by mutexes taken in one order

A program given by a transition system on states `σ`, whose steps are the bodies
of sections protected by non recursive mutexes, is refined to a system that
takes and releases the mutexes one at a time (`Program.lockStep`).  A thread may
keep mutexes from one section to the next (`held`).

Mutexes have a rank.  `follow` runs the operations of a thread on the list of
the mutexes it holds, the last one taken first, and fails when a mutex is taken
below one that is held or released out of turn.  When no section fails
(`Disciplined`),

* a thread that asks for a mutex holds only mutexes of lower rank
  (`Disciplined.ordered`), so no set of threads is deadlocked
  (`not_deadlocked_of_ordered`);
* the states of the program are those of the refined system (`reachable_base`
  and `Balanced.exists_idle`, the second one when the program takes a step only
  where its mutexes are free).
-/

namespace OrderedLocking

open TransitionSystem

variable {σ α T M : Type*}

/-! ## Operations on mutexes -/

inductive LockOp (M : Type*)
  | acquire (m : M)
  | release (m : M)
  deriving DecidableEq

/-- The operations before and after the body of a section. -/
structure Section (M : Type*) where
  enter : List (LockOp M)
  leave : List (LockOp M)
  deriving DecidableEq

/-- A step that needs no mutex. -/
def Section.free : Section M := ⟨[], []⟩

/-- Take these mutexes in turn, run the body and release them in the opposite order. -/
def Section.locking (ms : List M) : Section M := ⟨ms.map .acquire, ms.reverse.map .release⟩

section follow

variable [DecidableEq M] {rank : M → ℕ} {held held' : List M} {m : M} {ops : List (LockOp M)}

/-- The mutexes held after some operations by a thread that holds `held`, the
last one taken first; `none` when a mutex is taken whose rank is not above all
those held, or released though it is not the last one taken. -/
def follow (rank : M → ℕ) : List M → List (LockOp M) → Option (List M)
  | held, [] => some held
  | held, .acquire m :: ops =>
      if ∀ m' ∈ held, rank m' < rank m then follow rank (m :: held) ops else none
  | held, .release m :: ops => if held.head? = some m then follow rank held.tail ops else none

theorem follow_acquire (h : follow rank held (.acquire m :: ops) = some held') :
    (∀ m' ∈ held, rank m' < rank m) ∧ follow rank (m :: held) ops = some held' := by
  rw [follow] at h
  split at h
  · exact ⟨‹_›, h⟩
  · simp at h

theorem follow_release (h : follow rank held (.release m :: ops) = some held') :
    ∃ rest, held = m :: rest ∧ follow rank rest ops = some held' := by
  rw [follow] at h
  split at h
  · rename_i hhead
    obtain ⟨rest, rfl⟩ := List.head?_eq_some_iff.mp hhead
    exact ⟨rest, rfl, h⟩
  · simp at h

theorem follow_append (rank : M → ℕ) (held : List M) (ops ops' : List (LockOp M)) :
    follow rank held (ops ++ ops') =
      (follow rank held ops).bind fun held' => follow rank held' ops' := by
  induction ops generalizing held with
  | nil => simp [follow]
  | cons op ops ih =>
      cases op <;> simp only [List.cons_append, follow] <;> split <;> simp [ih]

end follow

/-! ## The refined system -/

/-- A program whose steps are the bodies of sections.  `thread` is the thread of
an action, `none` for those of the environment; `plan` is the section a thread
would enter next, `none` when it is blocked. -/
structure Program (σ α T M : Type*) where
  step : σ → α → Option σ
  thread : α → Option T
  plan : σ → T → Option (Section M)

/-- Where a thread is in a section: the operations before the body, with those
after it (`leave`), or the operations after the body (`leave = none`). -/
structure Control (M : Type*) where
  ops : List (LockOp M)
  leave : Option (List (LockOp M))

/-- The thread is in no section. -/
def Control.idle : Control M := ⟨[], none⟩

structure Locked (σ T M : Type*) where
  base : σ
  owner : M → Option T
  control : T → Control M

inductive LockAction (α T : Type*)
  /-- A thread enters the section it has planned. -/
  | begin (t : T)
  /-- A thread takes or releases one mutex. -/
  | lock (t : T)
  /-- The body of a section, or a step of the environment. -/
  | body (a : α)

def Locked.initial (init : σ) : Locked σ T M where
  base := init
  owner _ := none
  control _ := .idle

/-- The owners after one operation of thread `t`; a mutex that has an owner, `t`
itself included, cannot be taken. -/
def perform [DecidableEq M] (owner : M → Option T) (t : T) : LockOp M → Option (M → Option T)
  | .acquire m =>
      if (owner m).isNone then some (Function.update owner m (some t)) else none
  | .release m => some (Function.update owner m none)

/-- A step of the refined system. -/
def Program.lockStep [DecidableEq M] [DecidableEq T] (P : Program σ α T M) (L : Locked σ T M) :
    LockAction α T → Option (Locked σ T M)
  | .begin t =>
      match L.control t with
      | ⟨[], none⟩ =>
          (P.plan L.base t).map fun sec =>
            { L with control := Function.update L.control t ⟨sec.enter, some sec.leave⟩ }
      | _ => none
  | .lock t =>
      match L.control t with
      | ⟨op :: ops, leave⟩ =>
          (perform L.owner t op).map fun owner =>
            { L with owner := owner, control := Function.update L.control t ⟨ops, leave⟩ }
      | ⟨[], _⟩ => none
  | .body a =>
      match P.thread a with
      | none => (P.step L.base a).map fun s => { L with base := s }
      | some t =>
          match L.control t with
          | ⟨[], some leave⟩ =>
              (P.step L.base a).map fun s =>
                { L with base := s, control := Function.update L.control t ⟨leave, none⟩ }
          | _ => none

/-- What a step of the refined system does. -/
inductive LockMove [DecidableEq M] [DecidableEq T] (P : Program σ α T M) (L : Locked σ T M) :
    LockAction α T → Locked σ T M → Prop
  | begin (t : T) (sec : Section M) (hcontrol : L.control t = .idle)
      (hplan : P.plan L.base t = some sec) :
      LockMove P L (.begin t)
        { L with control := Function.update L.control t ⟨sec.enter, some sec.leave⟩ }
  | lock (t : T) (op : LockOp M) (ops : List (LockOp M)) (leave : Option (List (LockOp M)))
      (owner : M → Option T) (hcontrol : L.control t = ⟨op :: ops, leave⟩)
      (hperform : perform L.owner t op = some owner) :
      LockMove P L (.lock t)
        { L with owner := owner, control := Function.update L.control t ⟨ops, leave⟩ }
  | environment (a : α) (s : σ) (hthread : P.thread a = none) (hstep : P.step L.base a = some s) :
      LockMove P L (.body a) { L with base := s }
  | body (a : α) (t : T) (s : σ) (leave : List (LockOp M)) (hthread : P.thread a = some t)
      (hcontrol : L.control t = ⟨[], some leave⟩) (hstep : P.step L.base a = some s) :
      LockMove P L (.body a)
        { L with base := s, control := Function.update L.control t ⟨leave, none⟩ }

theorem lockStep_iff [DecidableEq M] [DecidableEq T] {P : Program σ α T M} {L L' : Locked σ T M}
    {a : LockAction α T} : P.lockStep L a = some L' ↔ LockMove P L a L' := by
  constructor
  · intro h
    cases a with
    | begin t =>
        simp only [Program.lockStep] at h
        split at h
        · rename_i hcontrol
          obtain ⟨sec, hplan, rfl⟩ := Option.map_eq_some_iff.mp h
          exact .begin t sec hcontrol hplan
        · simp at h
    | lock t =>
        simp only [Program.lockStep] at h
        split at h
        · rename_i op ops leave hcontrol
          obtain ⟨owner, hperform, rfl⟩ := Option.map_eq_some_iff.mp h
          exact .lock t op ops leave owner hcontrol hperform
        · simp at h
    | body a =>
        simp only [Program.lockStep] at h
        split at h
        · rename_i hthread
          obtain ⟨s, hs, rfl⟩ := Option.map_eq_some_iff.mp h
          exact .environment a s hthread hs
        · rename_i t hthread
          split at h
          · rename_i leave hcontrol
            obtain ⟨s, hs, rfl⟩ := Option.map_eq_some_iff.mp h
            exact .body a t s leave hthread hcontrol hs
          · simp at h
  · intro h
    cases h with
    | begin t sec hcontrol hplan => simp [Program.lockStep, hcontrol, Control.idle, hplan]
    | lock t op ops leave owner hcontrol hperform => simp [Program.lockStep, hcontrol, hperform]
    | environment a s hthread hstep => simp [Program.lockStep, hthread, hstep]
    | body a t s leave hthread hcontrol hstep =>
        simp [Program.lockStep, hthread, hcontrol, hstep]

/-- A thread that has only releases to do is out of its section after that many steps. -/
theorem Program.run_release [DecidableEq M] [DecidableEq T] (P : Program σ α T M)
    {L : Locked σ T M} {t : T} (ms : List M) (hcontrol : L.control t = ⟨ms.map .release, none⟩) :
    ∃ L', run P.lockStep L (List.replicate ms.length (.lock t)) = some L' ∧ L'.base = L.base ∧
      L'.control t = .idle ∧ ∀ m, L'.owner m = if m ∈ ms then none else L.owner m := by
  induction ms generalizing L with
  | nil => exact ⟨L, rfl, rfl, hcontrol, by simp⟩
  | cons m ms ih =>
      obtain ⟨L', hrun, hbase, hidle, howner⟩ := ih
        (L := { L with
          owner := Function.update L.owner m none
          control := Function.update L.control t ⟨ms.map .release, none⟩ }) (by simp)
      refine ⟨L', ?_, hbase, hidle, fun m' => ?_⟩
      · simpa [runWith, List.replicate_succ, Program.lockStep, hcontrol, perform] using hrun
      · rw [howner]
        by_cases hm' : m' = m <;> simp [hm']

/-- A condition on the steps of the program, as one on those of the refined system. -/
def onBody (guard : σ → α → Prop) (L : Locked σ T M) : LockAction α T → Prop
  | .body a => guard L.base a
  | _ => True

namespace Locked

/-- The next operation of thread `t` is to take `m`. -/
def Wants (L : Locked σ T M) (t : T) (m : M) : Prop :=
  (L.control t).ops.head? = some (.acquire m)

theorem Wants.unique {L : Locked σ T M} {t : T} {m m' : M} (h : L.Wants t m)
    (h' : L.Wants t m') : m = m' := by
  simpa using h.symm.trans h'

/-- Each thread of `S` waits for a mutex held by a thread of `S`. -/
def Deadlocked (L : Locked σ T M) (S : Set T) : Prop :=
  S.Nonempty ∧ ∀ t ∈ S, ∃ m, L.Wants t m ∧ ∃ t' ∈ S, L.owner m = some t'

/-- Mutexes are asked for in the order of their ranks. -/
def Ordered (rank : M → ℕ) (L : Locked σ T M) : Prop :=
  ∀ t m m', L.Wants t m → L.owner m' = some t → rank m' < rank m

theorem Ordered.owner_ne {rank : M → ℕ} {L : Locked σ T M} (h : L.Ordered rank) {t : T} {m : M}
    (hwants : L.Wants t m) : L.owner m ≠ some t :=
  fun howner => (h t m m hwants howner).false

/-- **No deadlock.**  The thread of the set that asks for the highest mutex waits
for one whose owner holds it and asks for a higher one. -/
theorem not_deadlocked_of_ordered {rank : M → ℕ} {bound : ℕ} (hbound : ∀ m, rank m ≤ bound)
    {L : Locked σ T M} (h : L.Ordered rank) (S : Set T) : ¬L.Deadlocked S := by
  rintro ⟨⟨t, ht⟩, hS⟩
  -- following the owners inside the set, the rank grows without bound
  have hclimb : ∀ n, ∃ t ∈ S, ∃ m, L.Wants t m ∧ n ≤ rank m := by
    intro n
    induction n with
    | zero =>
        obtain ⟨m, hwants, -⟩ := hS t ht
        exact ⟨t, ht, m, hwants, Nat.zero_le _⟩
    | succ n ih =>
        obtain ⟨t₁, ht₁, m₁, hwants₁, hn⟩ := ih
        obtain ⟨m, hwants, t₂, ht₂, howner⟩ := hS t₁ ht₁
        obtain rfl := hwants₁.unique hwants
        obtain ⟨m₂, hwants₂, -⟩ := hS t₂ ht₂
        have hlt : rank m₁ < rank m₂ := h t₂ m₂ m₁ hwants₂ howner
        exact ⟨t₂, ht₂, m₂, hwants₂, by omega⟩
  obtain ⟨t, -, m, -, hm⟩ := hclimb (bound + 1)
  exact absurd (hbound m) (by omega)

end Locked

/-! ## The mutexes a thread holds -/

/-- Thread `t` holds exactly the mutexes of the list. -/
structure Holds (owner : M → Option T) (t : T) (held : List M) : Prop where
  nodup : held.Nodup
  mem : ∀ m, m ∈ held ↔ owner m = some t

theorem Holds.of_owner {owner owner' : M → Option T} {t : T} {held : List M}
    (h : Holds owner t held) (howner : ∀ m, owner' m = some t ↔ owner m = some t) :
    Holds owner' t held :=
  ⟨h.nodup, fun m => (h.mem m).trans (howner m).symm⟩

section perform

variable [DecidableEq M] {rank : M → ℕ} {owner owner' : M → Option T} {t : T}
  {held held' : List M} {op : LockOp M} {ops : List (LockOp M)}

/-- An operation in turn changes what its thread holds and leaves the other threads alone. -/
theorem Holds.perform (h : Holds owner t held)
    (hfollow : follow rank held (op :: ops) = some held')
    (hperform : perform owner t op = some owner') :
    (∃ held₁, Holds owner' t held₁ ∧ follow rank held₁ ops = some held') ∧
      ∀ u ≠ t, ∀ m, owner' m = some u ↔ owner m = some u := by
  cases op with
  | acquire m =>
      obtain ⟨hrank, hfollow⟩ := follow_acquire hfollow
      simp only [OrderedLocking.perform, Option.ite_none_right_eq_some, Option.some.injEq]
        at hperform
      obtain ⟨hfree, rfl⟩ := hperform
      -- a mutex in order is higher than all that are held, so it is not among them
      have hm : m ∉ held := fun hm => (hrank m hm).false
      refine ⟨⟨m :: held, ⟨List.nodup_cons.mpr ⟨hm, h.nodup⟩, fun m' => ?_⟩, hfollow⟩,
        fun u hu m' => ?_⟩ <;>
        by_cases hm' : m' = m
      · simp [hm']
      · simp [hm', h.mem]
      · subst hm'
        simp [Option.isNone_iff_eq_none.mp hfree, hu.symm]
      · simp [hm']
  | release m =>
      obtain ⟨rest, rfl, hrest⟩ := follow_release hfollow
      simp only [OrderedLocking.perform, Option.some.injEq] at hperform
      subst hperform
      obtain ⟨hm, hnodup⟩ := List.nodup_cons.mp h.nodup
      have howner : owner m = some t := (h.mem m).mp List.mem_cons_self
      refine ⟨⟨rest, ⟨hnodup, fun m' => ?_⟩, hrest⟩, fun u hu m' => ?_⟩ <;>
        by_cases hm' : m' = m
      · simp [hm', hm]
      · simpa [hm'] using h.mem m'
      · subst hm'
        simp [howner, hu.symm]
      · simp [hm']

end perform

/-! ## Disciplined programs -/

/-- A section of which the body is run starts from the mutexes its thread keeps
from the section before (`held`), and leaves those it keeps for the next one.  A
step of another thread changes neither what a thread keeps nor the section it has
planned. -/
structure Balanced [DecidableEq M] (P : Program σ α T M) (rank : M → ℕ)
    (held : σ → T → List M) : Prop where
  own : ∀ {s s' a t sec}, P.step s a = some s' → P.thread a = some t →
    P.plan s t = some sec → follow rank (held s t) (sec.enter ++ sec.leave) = some (held s' t)
  frame : ∀ {s s' a t}, P.step s a = some s' → P.thread a ≠ some t →
    held s' t = held s t ∧ ∀ sec, P.plan s t = some sec → P.plan s' t = some sec

/-- Besides, every section that a thread plans in a run takes its mutexes in order. -/
structure Disciplined [DecidableEq M] (P : Program σ α T M) (rank : M → ℕ)
    (held : σ → T → List M) (guard : σ → α → Prop) (init : σ) : Prop
    extends Balanced P rank held where
  held_init : ∀ t, held init t = []
  enter : ∀ {s t sec}, ReachableWith P.step guard init s → P.plan s t = some sec →
    ∃ inner, follow rank (held s t) sec.enter = some inner

/-- The states of the runs of the refined system. -/
abbrev Program.LockReachable [DecidableEq M] [DecidableEq T] (P : Program σ α T M)
    (guard : σ → α → Prop) (init : σ) : Locked σ T M → Prop :=
  ReachableWith P.lockStep (onBody guard) (.initial init)

section Disciplined

variable [DecidableEq M] {P : Program σ α T M} {rank : M → ℕ} {held : σ → T → List M}
  {guard : σ → α → Prop} {init : σ} {L L' : Locked σ T M}

/-- The mutexes a thread holds when it has done the operations before it: those
the body runs with, or those it keeps after the section. -/
def Aim (P : Program σ α T M) (rank : M → ℕ) (held : σ → T → List M) (s : σ) (t : T)
    (final : List M) : Option (List (LockOp M)) → Prop
  | some leave => ∃ enter, P.plan s t = some ⟨enter, leave⟩ ∧
      follow rank (held s t) enter = some final
  | none => final = held s t

/-- A thread holds what the operations before it lead from to their aim. -/
def InTurn (P : Program σ α T M) (rank : M → ℕ) (held : σ → T → List M) (L : Locked σ T M)
    (t : T) : Prop :=
  ∃ holding final, Holds L.owner t holding ∧
    follow rank holding (L.control t).ops = some final ∧
    Aim P rank held L.base t final (L.control t).leave

theorem Aim.frame {s s' : σ} {t : T} {final : List M} {leave : Option (List (LockOp M))}
    (h : Aim P rank held s t final leave)
    (hframe : held s' t = held s t ∧ ∀ sec, P.plan s t = some sec → P.plan s' t = some sec) :
    Aim P rank held s' t final leave := by
  cases leave with
  | none => exact h.trans hframe.1.symm
  | some leave =>
      obtain ⟨enter, hplan, hfollow⟩ := h
      exact ⟨enter, hframe.2 _ hplan, by rw [hframe.1]; exact hfollow⟩

variable [DecidableEq T]

theorem lockReachable_next {a : LockAction α T} (h : P.LockReachable guard init L)
    (hmove : LockMove P L a L') (hguard : onBody guard L a) : P.LockReachable guard init L' :=
  ReachableWith.next h hguard (lockStep_iff.mpr hmove)

/-- Bodies and steps of the environment make a run of the program. -/
theorem reachable_base (h : P.LockReachable guard init L) :
    ReachableWith P.step guard init L.base := by
  refine h.invariant (fun L => ReachableWith P.step guard init L.base) .initial ?_
  intro L a L' _ hreach hguard hstep
  cases lockStep_iff.mp hstep with
  | begin | lock => exact hreach
  | environment a s _ hs => exact hreach.next hguard hs
  | body a t s leave _ _ hs => exact hreach.next hguard hs

omit [DecidableEq T] in
theorem InTurn.of_eq {t : T} (h : InTurn P rank held L t) (hcontrol : L'.control t = L.control t)
    (howner : ∀ m, L'.owner m = some t ↔ L.owner m = some t)
    (hframe : held L'.base t = held L.base t ∧
      ∀ sec, P.plan L.base t = some sec → P.plan L'.base t = some sec) :
    InTurn P rank held L' t := by
  obtain ⟨holding, final, hholds, hfollow, haim⟩ := h
  exact ⟨holding, final, hholds.of_owner howner, by rwa [hcontrol],
    by rw [hcontrol]; exact haim.frame hframe⟩

/-- **Step lemma.** -/
theorem Disciplined.inTurn_step (hP : Disciplined P rank held guard init)
    (hreach : ReachableWith P.step guard init L.base) (h : ∀ t, InTurn P rank held L t)
    {a : LockAction α T} (hguard : onBody guard L a) (hmove : LockMove P L a L') (u : T) :
    InTurn P rank held L' u := by
  cases hmove with
  | begin t sec hcontrol hplan =>
      by_cases hu : u = t
      · subst hu
        obtain ⟨holding, final, hholds, hfollow, haim⟩ := h u
        obtain ⟨inner, henter⟩ := hP.enter hreach hplan
        simp only [hcontrol, Control.idle, follow, Option.some.injEq, Aim] at hfollow haim
        subst hfollow haim
        exact ⟨_, inner, hholds, by simpa using henter, by simpa using ⟨_, hplan, henter⟩⟩
      · exact (h u).of_eq (by simp [hu]) (fun _ => Iff.rfl) ⟨rfl, fun _ => id⟩
  | lock t op ops leave owner hcontrol hperform =>
      obtain ⟨holding, final, hholds, hfollow, haim⟩ := h t
      rw [hcontrol] at hfollow haim
      obtain ⟨⟨holding₁, hholds₁, hfollow₁⟩, hothers⟩ := hholds.perform hfollow hperform
      by_cases hu : u = t
      · subst hu
        exact ⟨holding₁, final, hholds₁, by simpa using hfollow₁, by simpa using haim⟩
      · exact (h u).of_eq (by simp [hu]) (hothers u hu) ⟨rfl, fun _ => id⟩
  | environment a s hthread hstep =>
      exact (h u).of_eq rfl (fun _ => Iff.rfl) (hP.frame hstep (by simp [hthread]))
  | body a t s leave hthread hcontrol hstep =>
      by_cases hu : u = t
      · subst hu
        obtain ⟨holding, final, hholds, hfollow, haim⟩ := h u
        simp only [hcontrol, follow, Option.some.injEq, Aim] at hfollow haim
        obtain ⟨enter, hplan, henter⟩ := haim
        -- the thread holds what its body needs, and the rest of the section starts from there
        have hown := hP.own hstep hthread hplan
        rw [follow_append, henter, Option.bind_some] at hown
        subst hfollow
        exact ⟨_, held s u, hholds, by simpa using hown, by simp [Aim]⟩
      · exact (h u).of_eq (by simp [hu]) (fun _ => Iff.rfl)
          (hP.frame hstep (by simpa [hthread] using Ne.symm hu))

/-- **Run lemma.** -/
theorem Disciplined.inTurn (hP : Disciplined P rank held guard init)
    (h : P.LockReachable guard init L) (t : T) : InTurn P rank held L t := by
  refine h.invariant (fun L => ∀ t, InTurn P rank held L t) (fun t => ?_) ?_ t
  · exact ⟨[], [], ⟨List.nodup_nil, by simp [Locked.initial]⟩, rfl, (hP.held_init t).symm⟩
  · intro L a L' hL ih hguard hstep t
    exact hP.inTurn_step (reachable_base hL) ih hguard (lockStep_iff.mp hstep) t

theorem Disciplined.ordered (hP : Disciplined P rank held guard init)
    (h : P.LockReachable guard init L) : L.Ordered rank := by
  intro t m m' hwants howner
  obtain ⟨holding, final, hholds, hfollow, -⟩ := hP.inTurn h t
  obtain ⟨ops, hops⟩ := List.head?_eq_some_iff.mp hwants
  rw [hops] at hfollow
  exact (follow_acquire hfollow).1 m' ((hholds.mem m').mpr howner)

/-! ### Every run of the program has its mutexes -/

/-- A step that the program takes needs no mutex that another thread keeps. -/
def Unhindered (P : Program σ α T M) (held : σ → T → List M) : Prop :=
  ∀ {s s' a t}, P.step s a = some s' → P.thread a = some t →
    ∃ sec, P.plan s t = some sec ∧
      ∀ m, .acquire m ∈ sec.enter ++ sec.leave → ∀ u ≠ t, m ∉ held s u

theorem perform_of_follow {owner : M → Option T} {t : T} {holding final : List M} {op : LockOp M}
    {ops : List (LockOp M)} (hholds : Holds owner t holding)
    (hfollow : follow rank holding (op :: ops) = some final)
    (hfree : ∀ m, op = .acquire m → ∀ u ≠ t, owner m ≠ some u) :
    ∃ owner', perform owner t op = some owner' := by
  cases op with
  | release m => exact ⟨_, rfl⟩
  | acquire m =>
      have hm : owner m = none := by
        refine Option.eq_none_iff_forall_ne_some.mpr fun u howner => ?_
        -- nobody has it: not the thread itself, by the order, nor another one
        by_cases hu : u = t
        · subst hu
          exact ((follow_acquire hfollow).1 m ((hholds.mem m).mpr howner)).false
        · exact hfree m rfl u hu howner
      exact ⟨_, by simp [perform, hm]; rfl⟩

/-- A thread runs to the end of its operations when no other thread has the
mutexes they take. -/
theorem exists_done {ops : List (LockOp M)} {leave : Option (List (LockOp M))} {t : T}
    {holding final : List M} (h : P.LockReachable guard init L)
    (hcontrol : L.control t = ⟨ops, leave⟩) (hholds : Holds L.owner t holding)
    (hfollow : follow rank holding ops = some final)
    (hfree : ∀ m, .acquire m ∈ ops → ∀ u ≠ t, L.owner m ≠ some u) :
    ∃ owner, P.LockReachable guard init
        { L with owner := owner, control := Function.update L.control t ⟨[], leave⟩ } ∧
      Holds owner t final ∧ ∀ u ≠ t, ∀ m, owner m = some u ↔ L.owner m = some u := by
  induction ops generalizing L holding with
  | nil =>
      obtain rfl : holding = final := by simpa [follow] using hfollow
      exact ⟨L.owner, by rwa [← hcontrol, Function.update_eq_self], hholds, fun _ _ _ => Iff.rfl⟩
  | cons op ops ih =>
      obtain ⟨owner, hperform⟩ := perform_of_follow hholds hfollow
        fun m hm => hfree m (hm ▸ List.mem_cons_self)
      obtain ⟨⟨holding₁, hholds₁, hfollow₁⟩, hothers⟩ := hholds.perform hfollow hperform
      obtain ⟨owner', hreach, hholds', hothers'⟩ := ih
        (lockReachable_next h (.lock t op ops leave owner hcontrol hperform) trivial)
        (by simp) hholds₁ hfollow₁ fun m hm u hu => by
          simpa [hothers u hu] using hfree m (List.mem_cons_of_mem _ hm) u hu
      exact ⟨owner', by simpa using hreach, hholds', fun u hu m =>
        (hothers' u hu m).trans (hothers u hu m)⟩

/-- All threads are between two sections and hold what they keep. -/
structure Idle (held : σ → T → List M) (L : Locked σ T M) : Prop where
  control : ∀ t, L.control t = .idle
  holds : ∀ t, Holds L.owner t (held L.base t)

/-- A step of the program is a run of the refined system from one idle state to the next. -/
theorem Balanced.idle_step (hP : Balanced P rank held) (hfree : Unhindered P held)
    (h : P.LockReachable guard init L) (hidle : Idle held L) {a : α} {s' : σ}
    (hguard : guard L.base a) (hstep : P.step L.base a = some s') :
    ∃ L', P.LockReachable guard init L' ∧ L'.base = s' ∧ Idle held L' := by
  cases hthread : P.thread a with
  | none =>
      refine ⟨_, lockReachable_next h (.environment a s' hthread hstep) hguard, rfl,
        hidle.control, fun u => ?_⟩
      rw [(hP.frame hstep (by simp [hthread])).1]
      exact hidle.holds u
  | some t =>
      obtain ⟨⟨enter, leave⟩, hplan, hkept⟩ := hfree hstep hthread
      have hkept' : ∀ m, .acquire m ∈ enter ++ leave → ∀ u ≠ t, L.owner m ≠ some u :=
        fun m hm u hu howner => hkept m hm u hu (((hidle.holds u).mem m).mpr howner)
      have hown := hP.own hstep hthread hplan
      rw [follow_append] at hown
      obtain ⟨inner, henter, hleave⟩ := Option.bind_eq_some_iff.mp hown
      -- the operations before the body, the body, and the operations after it
      have hbegin := lockReachable_next h (.begin t _ (hidle.control t) hplan) trivial
      obtain ⟨owner, hentered, hholds, hothers⟩ := exists_done hbegin
        (Function.update_self _ _ _) (hidle.holds t) henter
        fun m hm => hkept' m (List.mem_append_left _ hm)
      have hbody := lockReachable_next hentered (.body a t s' leave hthread (by simp) hstep) hguard
      obtain ⟨owner', hdone, hholds', hothers'⟩ := exists_done hbody
        (Function.update_self _ _ _) hholds hleave fun m hm u hu => by
          simpa [hothers u hu] using hkept' m (List.mem_append_right _ hm) u hu
      refine ⟨_, hdone, rfl, fun u => ?_, fun u => ?_⟩ <;> by_cases hu : u = t
      · simp [hu, Control.idle]
      · simpa [hu] using hidle.control u
      · exact hu ▸ hholds'
      · dsimp only
        rw [(hP.frame hstep (by simpa [hthread] using Ne.symm hu)).1]
        exact (hidle.holds u).of_owner fun m => (hothers' u hu m).trans (hothers u hu m)

/-- **Every run of the program** is the run of the bodies of the refined system,
from one idle state to the next. -/
theorem Balanced.exists_idle (hP : Balanced P rank held) (hinit : ∀ t, held init t = [])
    (hfree : Unhindered P held) {s : σ} (h : ReachableWith P.step guard init s) :
    ∃ L, P.LockReachable guard init L ∧ L.base = s ∧ Idle held L := by
  induction h with
  | initial =>
      refine ⟨.initial init, .initial, rfl, fun _ => rfl, fun t => ?_⟩
      simp only [Locked.initial, hinit]
      exact ⟨List.nodup_nil, by simp⟩
  | next hs hguard hstep ih =>
      obtain ⟨L, hL, rfl, hidle⟩ := ih
      exact hP.idle_step hfree hL hidle hguard hstep

end Disciplined

end OrderedLocking
