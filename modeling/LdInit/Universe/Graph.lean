import LdInit.Loader.Link
import LdInit.Universe.Run

/-!
# The link universe as the loader's graph

Outside a call, the objects of the link universe form a `DependencyGraph` whose edges are the
`DT_NEEDED` entries between registered names.
-/

namespace LdInit

open Relation

namespace LinkUniverse

/-- The objects of `u` and their dependency lists, for a universe closed under dependencies. -/
def graph (u : LinkUniverse)
    (closed : ∀ object < u.objectCount, ∀ dep ∈ (u.objects object).dependencies,
      dep < u.objectCount) : DependencyGraph where
  objects := List.ofFn fun object : Fin u.objectCount => (u.objects object).dependencies
  dependency_lt deps member dep dep_member := by
    obtain ⟨object, rfl⟩ := List.mem_ofFn _ _ |>.mp member
    simpa using closed object object.isLt dep dep_member

section Graph

variable {u : LinkUniverse}
  {closed : ∀ object < u.objectCount, ∀ dep ∈ (u.objects object).dependencies,
    dep < u.objectCount}

@[simp]
theorem graph_size : (u.graph closed).size = u.objectCount := by
  simp [graph, DependencyGraph.size]

theorem graph_dependencies {object : Nat} (lt : object < u.objectCount) :
    (u.graph closed).dependencies object = (u.objects object).dependencies := by
  simp [graph, DependencyGraph.dependencies, lt]

end Graph

namespace Registry

variable {pending : List Nat} {u : LinkUniverse}

/-- Every dependency of an object of the universe is one of its objects. -/
theorem closed (registry : Registry pending u) :
    ∀ object < u.objectCount, ∀ dep ∈ (u.objects object).dependencies, dep < u.objectCount := by
  intro object lt dep member
  obtain ⟨name, registered⟩ := registry.all_named object lt
  obtain ⟨d, -, done, -, -, matched⟩ := registry.linked name object registered
  obtain ⟨needed, -, found⟩ := forall₂_exists_of_mem_right matched member
  exact (registry.named needed dep found).1

/-- A registered object's edges lead to the objects registered for its `DT_NEEDED` names. -/
theorem needs_of_mem_dependencies (registry : Registry [] u) {name : List UInt8}
    {object dep : Nat}
    (registered : u.Registered name object)
    (member : dep ∈ (u.graph registry.closed).dependencies object) :
    ∃ other, u.Needs name other ∧ u.Registered other dep := by
  obtain ⟨d, dynamic, done, -, whole, matched⟩ := registry.linked name object registered
  rw [whole (List.not_mem_nil _)] at matched
  rw [graph_dependencies (registry.named name object registered).1] at member
  obtain ⟨other, needed, found⟩ := forall₂_exists_of_mem_right matched member
  exact ⟨other, ⟨object, d, registered, dynamic, needed⟩, found⟩

/-- Each `DT_NEEDED` name of a registered object leads to an edge of the graph. -/
theorem mem_dependencies_of_needs (registry : Registry [] u) {name other : List UInt8}
    (needs : u.Needs name other) :
    ∃ object dep, u.Registered name object ∧ u.Registered other dep ∧
      dep ∈ (u.graph registry.closed).dependencies object := by
  obtain ⟨object, d, registered, dynamic, needed⟩ := needs
  obtain ⟨d', dynamic', done, -, whole, matched⟩ := registry.linked name object registered
  rw [dynamic, Option.some.injEq] at dynamic'
  subst dynamic'
  rw [whole (List.not_mem_nil _)] at matched
  obtain ⟨dep, member, found⟩ := forall₂_exists_of_mem_left matched needed
  refine ⟨object, dep, registered, found, ?_⟩
  rwa [graph_dependencies (registry.named name object registered).1]

/-- From the object of `name`, the graph reaches the objects of the names `name` reaches. -/
theorem reaches_iff (registry : Registry [] u) {name : List UInt8} {object : Nat}
    (registered : u.Registered name object) (target : Nat) :
    (u.graph registry.closed).Reaches object target ↔
      ∃ other, ReflTransGen u.Needs name other ∧ u.Registered other target := by
  constructor
  · intro reach
    induction reach with
    | refl => exact ⟨name, .refl, registered⟩
    | tail _ step ih =>
        obtain ⟨other, path, found⟩ := ih
        obtain ⟨next, needs, found'⟩ := registry.needs_of_mem_dependencies found step
        exact ⟨next, path.tail needs, found'⟩
  · rintro ⟨other, path, found⟩
    induction path generalizing target with
    | refl =>
        obtain rfl : target = object := Option.some.inj (found.symm.trans registered)
        exact DependencyGraph.Reaches.refl _
    | tail _ needs ih =>
        obtain ⟨source, dep, source_registered, dep_registered, member⟩ :=
          registry.mem_dependencies_of_needs needs
        obtain rfl : dep = target := Option.some.inj (dep_registered.symm.trans found)
        exact (ih source source_registered).tail member

end Registry

end LinkUniverse

/-- After any universe run, `linkObject` queues each library `name` reaches once, in pre-order. -/
theorem linkObject_queues_needed_libraries {files : List UInt8 → Option LibraryFile}
    {names : List (List UInt8)} {fuel : Nat}
    (finite : ∀ name, (openLibrary files name).isSome → name ∈ names)
    (budget : names.length < fuel) {calls : List UniverseCall} {objects : List Nat}
    {u : LinkUniverse} (reached : runUniverse files fuel calls LinkUniverse.initial = .ok objects u)
    {name : List UInt8} {object : Nat} (registered : u.Registered name object) (depth : Nat)
    (deep : u.objectCount < depth) :
    ∃ (closed : ∀ object < u.objectCount, ∀ dep ∈ (u.objects object).dependencies,
        dep < u.objectCount) (out : List Nat),
      (u.graph closed).linkObject depth object Loader.fresh = .ok ⟨⟩ (Loader.fresh.enqueue out) ∧
      out.head? = some object ∧ out.Nodup ∧
      ∀ target, target ∈ out ↔
        ∃ other, ReflTransGen u.Needs name other ∧ u.Registered other target := by
  have run := runUniverse_outcome finite budget calls [] _ LinkUniverse.Registry.initial
    fun _ member => absurd member (List.not_mem_nil _)
  rw [reached] at run
  obtain ⟨registry, -⟩ := run
  have bound :
      ((u.graph registry.closed).remaining (· ∈ Loader.fresh.linkObjectSet)).card < depth :=
    lt_of_le_of_lt
      (((u.graph registry.closed).card_remaining_le _).trans_eq LinkUniverse.graph_size) deep
  obtain ⟨out, order, linked⟩ := DependencyGraph.linkObject_preorder depth object _ bound
  refine ⟨registry.closed, out, linked, ?_, by simpa using order.nodup_append List.nodup_nil,
    fun target => ?_⟩
  · cases order with
    | seen member => exact absurd member (List.not_mem_nil _)
    | visit => rfl
  · rw [← registry.reaches_iff registered target]
    simpa [Loader.fresh] using
      order.mem_iff (fun _ member => absurd member (List.not_mem_nil _)) target

/-- Requesting `a` of `pairFiles`, which fetches `b` for `a`'s `DT_NEEDED` entry. -/
theorem linkObject_queues_needed_libraries_of_pairFiles :
    ∃ u, runUniverse pairFiles 3 [.requestObjectWithName [0x61]] LinkUniverse.initial =
        .ok [0] u ∧ u.Registered [0x61] 0 ∧ u.objectCount < 3 ∧
      ∃ (closed : ∀ object < u.objectCount, ∀ dep ∈ (u.objects object).dependencies,
          dep < u.objectCount) (out : List Nat),
        (u.graph closed).linkObject 3 0 Loader.fresh = .ok ⟨⟩ (Loader.fresh.enqueue out) ∧
        out.head? = some 0 ∧ out.Nodup ∧
        ∀ target, target ∈ out ↔
          ∃ other, ReflTransGen u.Needs [0x61] other ∧ u.Registered other target := by
  obtain ⟨u, run, -, registered, -, count⟩ := runUniverse_pairFiles_requests_a
  exact ⟨u, run, registered, by omega, linkObject_queues_needed_libraries openLibrary_pairFiles
    (by decide) run registered 3 (by omega)⟩

end LdInit
