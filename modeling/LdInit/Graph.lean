import Mathlib.Data.Finset.Card
import Mathlib.Logic.Relation

/-!
# Dependency graphs of a load session

An object's `dependencies` are the handles of its `DT_NEEDED` libraries, cycles allowed; walks are
stated for any successor function, so that the chains of a hash table reuse them.
-/

namespace LdInit

open Relation

/-! ## Walks along a successor function -/

section Walks

variable (next : Nat → List Nat)

/-- `Step next a b`: `b` is one of the successors of `a`. -/
def Step (a b : Nat) : Prop := b ∈ next a

/-- `HasWalk next o n`: some walk of `n` steps along `next` starts at `o`. -/
def HasWalk : Nat → Nat → Prop
  | _, 0 => True
  | o, n + 1 => ∃ d ∈ next o, HasWalk d n

variable {next}

@[simp]
theorem hasWalk_zero (o : Nat) : HasWalk next o 0 := trivial

theorem hasWalk_succ {o n : Nat} :
    HasWalk next o (n + 1) ↔ ∃ d ∈ next o, HasWalk next d n := Iff.rfl

/-- A walk can be cut short. -/
theorem HasWalk.mono {o n m : Nat} (walk : HasWalk next o n) (le : m ≤ n) :
    HasWalk next o m := by
  induction m generalizing o n with
  | zero => trivial
  | succ m ih =>
      obtain ⟨n, rfl⟩ : ∃ k, n = k + 1 := ⟨n - 1, by omega⟩
      obtain ⟨d, member, rest⟩ := walk
      exact ⟨d, member, ih rest (by omega)⟩

/-- Below a reachable cycle there are walks of every length. -/
theorem hasWalk_of_cycle {o x : Nat} (reach : ReflTransGen (Step next) o x)
    (cycle : TransGen (Step next) x x) (n : Nat) : HasWalk next o n := by
  induction n generalizing o with
  | zero => trivial
  | succ n ih =>
      rcases reach.cases_head with rfl | ⟨c, step, rest⟩
      · obtain ⟨c, step, rest⟩ := TransGen.head'_iff.mp cycle
        exact ⟨c, step, ih rest⟩
      · exact ⟨c, step, ih rest⟩

/-- With successors below `bound`, an acyclic part has no walk longer than `bound`. -/
theorem not_hasWalk_of_acyclic {bound o : Nat} (bounded : ∀ a, ∀ b ∈ next a, b < bound)
    (acyclic : ∀ x, ReflTransGen (Step next) o x → ¬TransGen (Step next) x x) :
    ¬HasWalk next o (bound + 1) := by
  classical
  let below : Nat → Finset Nat := fun x =>
    (Finset.range bound).filter fun y => TransGen (Step next) x y
  have below_short : ∀ k x, (below x).card = k → ReflTransGen (Step next) o x →
      ¬HasWalk next x (k + 1) := by
    intro k
    induction k using Nat.strong_induction_on with
    | _ k ih =>
        rintro x rfl reach ⟨y, step, walk⟩
        have y_below : y ∈ below x := by
          simpa [below] using ⟨bounded x y step, TransGen.single step⟩
        have shrink : below y ⊂ below x := by
          refine Finset.ssubset_iff_of_subset (fun z hz => ?_) |>.mpr ⟨y, y_below, ?_⟩
          · simp only [below, Finset.mem_filter] at hz ⊢
            exact ⟨hz.1, TransGen.head step hz.2⟩
          · simpa [below] using fun _ => acyclic y (reach.tail step)
        have card_lt := Finset.card_lt_card shrink
        exact ih _ card_lt y rfl (reach.tail step) (walk.mono (by omega))
  intro walk
  have card_le : (below o).card ≤ bound := by
    simpa using Finset.card_filter_le (Finset.range bound) _
  exact below_short _ o rfl ReflTransGen.refl (walk.mono (by omega))

end Walks

/-! ## The dependency graph -/

/-- The dependency lists of a session's objects: handle `o` has the list at position `o`. -/
structure DependencyGraph where
  /-- `objects[o]` is `o->dependencies`, in `DT_NEEDED` declaration order. -/
  objects : List (List Nat)
  /-- Every dependency is an object of the arena. -/
  dependency_lt : ∀ deps ∈ objects, ∀ dep ∈ deps, dep < objects.length

namespace DependencyGraph

variable (g : DependencyGraph)

/-- Number of objects in the arena. -/
def size : Nat := g.objects.length

/-- `object->dependencies`; empty for a handle outside the arena. -/
def dependencies (object : Nat) : List Nat := g.objects.getD object []

/-- `b` is reachable from `a` along dependency edges, in zero or more steps. -/
def Reaches (a b : Nat) : Prop := ReflTransGen (Step g.dependencies) a b

/-- No dependency cycle passes through an object reachable from `root`. -/
def AcyclicFrom (root : Nat) : Prop :=
  ∀ x, g.Reaches root x → ¬TransGen (Step g.dependencies) x x

variable {g}

theorem dependency_lt_size {object dep : Nat} (member : dep ∈ g.dependencies object) :
    dep < g.size := by
  simp only [dependencies, List.getD_eq_getElem?_getD] at member
  cases entry : g.objects[object]? with
  | none => simp [entry] at member
  | some deps =>
      rw [entry, Option.getD_some] at member
      exact g.dependency_lt deps (List.mem_iff_getElem?.mpr ⟨object, entry⟩) dep member

theorem dependencies_of_size_le {object : Nat} (outside : g.size ≤ object) :
    g.dependencies object = [] := by
  simp [dependencies, List.getElem?_eq_none outside]

@[refl]
theorem Reaches.refl (a : Nat) : g.Reaches a a := ReflTransGen.refl

theorem Reaches.trans {a b c : Nat} (first : g.Reaches a b) (second : g.Reaches b c) :
    g.Reaches a c := ReflTransGen.trans first second

theorem Reaches.head {a b c : Nat} (member : b ∈ g.dependencies a) (rest : g.Reaches b c) :
    g.Reaches a c := ReflTransGen.head member rest

theorem Reaches.tail {a b c : Nat} (first : g.Reaches a b) (member : c ∈ g.dependencies b) :
    g.Reaches a c := ReflTransGen.tail first member

theorem reaches_of_mem {a b : Nat} (member : b ∈ g.dependencies a) : g.Reaches a b :=
  ReflTransGen.single member

theorem AcyclicFrom.of_reaches {root x : Nat} (acyclic : g.AcyclicFrom root)
    (reach : g.Reaches root x) : g.AcyclicFrom x :=
  fun y below => acyclic y (reach.trans below)

/-- A set closed under dependencies holds everything reachable from its members. -/
theorem mem_of_reaches {S : List Nat} (closed : ∀ x ∈ S, ∀ d ∈ g.dependencies x, d ∈ S)
    {a b : Nat} (start : a ∈ S) (reach : g.Reaches a b) : b ∈ S := by
  induction reach with
  | refl => exact start
  | tail _ step member => exact closed _ member _ step

/-- In an acyclic part, a dependency never reaches back to its dependent. -/
theorem AcyclicFrom.not_reaches_back {root a b : Nat} (acyclic : g.AcyclicFrom root)
    (reach : g.Reaches root a) (member : b ∈ g.dependencies a) : ¬g.Reaches b a :=
  fun back => acyclic a reach (TransGen.head' member back)

/-- An acyclic part of the arena has no walk longer than the arena. -/
theorem AcyclicFrom.not_hasWalk {root : Nat} (acyclic : g.AcyclicFrom root) :
    ¬HasWalk g.dependencies root (g.size + 1) :=
  not_hasWalk_of_acyclic (fun _ _ => dependency_lt_size) acyclic

/-- A graph in which every object depends only on objects of smaller index has no cycle. -/
theorem acyclicFrom_of_dependencies_lt (lower : ∀ a < g.size, ∀ b ∈ g.dependencies a, b < a)
    (root : Nat) : g.AcyclicFrom root := by
  have step_lt : ∀ {a b}, Step g.dependencies a b → b < a := fun {a b} step => by
    rcases Nat.lt_or_ge a g.size with inside | outside
    · exact lower a inside b step
    · simp [Step, dependencies_of_size_le outside] at step
  have path_lt : ∀ {a b}, TransGen (Step g.dependencies) a b → b < a := fun path => by
    induction path with
    | single step => exact step_lt step
    | tail _ step ih => exact lt_trans (step_lt step) ih
  exact fun x _ cycle => lt_irrefl x (path_lt cycle)

/-! ## Counting what a guarded recursion has left -/

/-- The objects not yet `done`, which bound a recursion that makes `done` what it enters. -/
def remaining (g : DependencyGraph) (done : Nat → Prop) [DecidablePred done] : Finset Nat :=
  (Finset.range g.size).filter fun x => ¬done x

theorem card_remaining_le (done : Nat → Prop) [DecidablePred done] :
    (g.remaining done).card ≤ g.size := by
  simpa [remaining] using Finset.card_filter_le (Finset.range g.size) _

theorem card_remaining_mono {done done' : Nat → Prop} [DecidablePred done] [DecidablePred done']
    (grow : ∀ x, done x → done' x) : (g.remaining done').card ≤ (g.remaining done).card := by
  refine Finset.card_le_card fun x member => ?_
  simp only [remaining, Finset.mem_filter] at member ⊢
  exact ⟨member.1, fun was => member.2 (grow x was)⟩

theorem card_remaining_lt {done done' : Nat → Prop} [DecidablePred done] [DecidablePred done']
    {object : Nat} (grow : ∀ x, done x → done' x) (inside : object < g.size)
    (was : ¬done object) (now : done' object) :
    (g.remaining done').card < (g.remaining done).card := by
  refine Finset.card_lt_card (Finset.ssubset_iff_of_subset (fun x member => ?_) |>.mpr
    ⟨object, by simpa [remaining] using ⟨inside, was⟩, by simp [remaining, now]⟩)
  simp only [remaining, Finset.mem_filter] at member ⊢
  exact ⟨member.1, fun before => member.2 (grow x before)⟩

/-! ## Orders with dependencies first -/

/-- In `order`, every dependency `d` of an object `x` comes before `x`, unless `back d x`. -/
def DependenciesBefore (back : Nat → Nat → Prop) (order : List Nat) : Prop :=
  ∀ before x after, order = before ++ x :: after → ∀ d ∈ g.dependencies x, d ∈ before ∨ back d x

theorem dependenciesBefore_nil (back : Nat → Nat → Prop) : g.DependenciesBefore back [] := by
  intro before x after split
  simp at split

/-- Appending an object whose dependencies are present, or excused, keeps the order. -/
theorem DependenciesBefore.append_singleton {back : Nat → Nat → Prop} {order : List Nat}
    {y : Nat} (ordered : g.DependenciesBefore back order)
    (present : ∀ d ∈ g.dependencies y, d ∈ order ∨ back d y) :
    g.DependenciesBefore back (order ++ [y]) := by
  intro before x after split d dep
  rcases List.eq_nil_or_concat after with rfl | ⟨after, z, rfl⟩
  · obtain ⟨rfl, last⟩ := List.append_inj' split rfl
    obtain rfl : y = x := by simpa using last
    exact present d dep
  · have split' : order ++ [y] = (before ++ x :: after) ++ [z] := by simpa using split
    obtain ⟨rfl, -⟩ := List.append_inj' split' rfl
    exact ordered before x after rfl d dep

/-- Main object 3 depends on libraries 1 and 2, which share library 0. -/
def sharedDependency : DependencyGraph := ⟨[[], [0], [0], [1, 2]], by decide⟩

end DependencyGraph

end LdInit
