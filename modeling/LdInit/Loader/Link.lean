import LdInit.Basic
import LdInit.Preorder

/-!
# The loader and its link queue

`Loader::linkObject` appends the visited-guarded depth-first pre-order of its root to the link
queue, on every graph, cycles included.
-/

namespace LdInit

/-- A call `doInitialize` makes into an object's code. -/
inductive InitCall where
  /-- `init_ptr()`: the `DT_INIT` function at this address. -/
  | initFunction (address : Nat)
  /-- `init_array[i]()`: the function whose address is read from this slot. -/
  | arrayEntry (slot : Nat)
  deriving DecidableEq, Repr

/-- A `Loader` together with the lifecycle flags of the objects it handles. -/
structure Loader where
  /-- `_linkObjects`, in the order objects entered it; only membership is ever read. -/
  linkObjectSet : List Nat
  /-- `_linkQueue`. -/
  linkQueue : List Nat
  /-- `_initQueue`. -/
  initQueue : List Nat
  /-- `SharedObject::wasLinked` of each object. -/
  wasLinked : Nat → Bool
  /-- `SharedObject::scheduledForInit` of each object. -/
  scheduledForInit : Nat → Bool
  /-- `SharedObject::onInitStack` of each object. -/
  onInitStack : Nat → Bool
  /-- `SharedObject::wasInitialized` of each object. -/
  wasInitialized : Nat → Bool
  /-- The objects of the `Linking` log lines of `linkObjects`, in order. -/
  linkLog : List Nat
  /-- The objects of the `Initialize` log lines of `doInitialize`, in order. -/
  initLog : List Nat
  /-- The calls `doInitialize` makes into the objects' code, each with its object, in order. -/
  initCalls : List (Nat × InitCall)

namespace Loader

/-- A new `Loader` over objects as the `SharedObject` constructor leaves them. -/
def fresh : Loader where
  linkObjectSet := []
  linkQueue := []
  initQueue := []
  wasLinked := fun _ => false
  scheduledForInit := fun _ => false
  onInitStack := fun _ => false
  wasInitialized := fun _ => false
  linkLog := []
  initLog := []
  initCalls := []

/-- `_linkObjects.insert(object, Token{})` and `_linkQueue.addBack(object)`, for each object. -/
@[simps]
def enqueue (s : Loader) (objects : List Nat) : Loader :=
  { s with linkObjectSet := s.linkObjectSet ++ objects, linkQueue := s.linkQueue ++ objects }

@[simp]
theorem enqueue_nil (s : Loader) : s.enqueue [] = s := by
  simp [enqueue]

@[simp]
theorem enqueue_enqueue (s : Loader) (first second : List Nat) :
    (s.enqueue first).enqueue second = s.enqueue (first ++ second) := by
  simp [enqueue]

end Loader

namespace DependencyGraph

variable (g : DependencyGraph)

/-- `Loader::linkObject`, with a bound on the depth of its recursion. -/
def linkObject : Nat → Nat → EStateM Abort Loader Unit
  | 0, _ => throw .outOfFuel
  | fuel + 1, object => do
      if object ∈ (← get).linkObjectSet then
        pure ()
      else
        modify (·.enqueue [object])
        (g.dependencies object).forM (linkObject fuel)

variable {g}

theorem linkObject_of_mem {fuel object : Nat} {s : Loader} (visited : object ∈ s.linkObjectSet) :
    g.linkObject (fuel + 1) object s = .ok ⟨⟩ s := by
  simp [linkObject, visited]

theorem linkObject_of_not_mem {fuel object : Nat} {s : Loader}
    (fresh : object ∉ s.linkObjectSet) :
    g.linkObject (fuel + 1) object s =
      (g.dependencies object).forM (g.linkObject fuel) (s.enqueue [object]) := by
  simp [linkObject, fresh]

/-- The loop over a list of roots appends their pre-order, given that each single call does. -/
theorem forM_linkObject {fuel : Nat}
    (each : ∀ root (s : Loader), (g.remaining (· ∈ s.linkObjectSet)).card < fuel →
      ∃ out, g.Preorder s.linkObjectSet [root] out ∧
        g.linkObject fuel root s = .ok ⟨⟩ (s.enqueue out))
    (roots : List Nat) (s : Loader) (budget : (g.remaining (· ∈ s.linkObjectSet)).card < fuel) :
    ∃ out, g.Preorder s.linkObjectSet roots out ∧
      roots.forM (g.linkObject fuel) s = .ok ⟨⟩ (s.enqueue out) := by
  induction roots generalizing s with
  | nil => exact ⟨[], .nil _, by simp⟩
  | cons root roots ih =>
      obtain ⟨first, first_order, first_run⟩ := each root s budget
      have budget' : (g.remaining (· ∈ (s.enqueue first).linkObjectSet)).card < fuel :=
        lt_of_le_of_lt (card_remaining_mono fun x member => by simp [member]) budget
      obtain ⟨rest, rest_order, rest_run⟩ := ih (s.enqueue first) budget'
      refine ⟨first ++ rest, first_order.cons (by simpa using rest_order), ?_⟩
      rw [List.forM_cons', EStateM.bind_of_ok first_run, rest_run, Loader.enqueue_enqueue]

/-- With depth to spare, `linkObject` appends its root's pre-order to both link queues. -/
theorem linkObject_preorder (fuel : Nat) (root : Nat) (s : Loader)
    (budget : (g.remaining (· ∈ s.linkObjectSet)).card < fuel) :
    ∃ out, g.Preorder s.linkObjectSet [root] out ∧
      g.linkObject fuel root s = .ok ⟨⟩ (s.enqueue out) := by
  induction fuel generalizing root s with
  | zero => omega
  | succ fuel ih =>
      by_cases visited : root ∈ s.linkObjectSet
      · exact ⟨[], .seen visited (.nil _), by simp [linkObject_of_mem visited]⟩
      · rw [linkObject_of_not_mem visited]
        have deps_order : ∃ below, g.Preorder (s.enqueue [root]).linkObjectSet
            (g.dependencies root) below ∧
              (g.dependencies root).forM (g.linkObject fuel) (s.enqueue [root]) =
              .ok ⟨⟩ ((s.enqueue [root]).enqueue below) := by
          rcases Nat.lt_or_ge root g.size with inside | outside
          · refine forM_linkObject ih _ _ (Nat.lt_of_lt_of_le ?_ (Nat.le_of_lt_succ budget))
            exact card_remaining_lt (fun x member => by simp [member]) inside visited (by simp)
          · rw [dependencies_of_size_le outside]
            exact ⟨[], .nil _, by simp⟩
        obtain ⟨below, below_order, below_run⟩ := deps_order
        refine ⟨root :: below, ?_, by simpa using below_run⟩
        simpa using Preorder.visit visited (by simpa using below_order) (.nil _)

end DependencyGraph

end LdInit
