import LdInit.Graph

/-!
# Depth-first pre-order

The order in which a visited-guarded depth-first search from a list of roots first meets the
objects of a graph; `Loader::linkObject` and, on acyclic graphs, `Scope::buildScope` produce it.
-/

namespace LdInit
namespace DependencyGraph

/-- `g.Preorder visited roots out`: the guarded search from `roots` meets `out`, in order. -/
inductive Preorder (g : DependencyGraph) : List Nat → List Nat → List Nat → Prop
  | nil (visited : List Nat) : g.Preorder visited [] []
  | seen {visited roots out : List Nat} {root : Nat} (member : root ∈ visited)
      (rest : g.Preorder visited roots out) : g.Preorder visited (root :: roots) out
  | visit {visited roots below after : List Nat} {root : Nat} (fresh : root ∉ visited)
      (deps : g.Preorder (visited ++ [root]) (g.dependencies root) below)
      (rest : g.Preorder (visited ++ root :: below) roots after) :
      g.Preorder visited (root :: roots) (root :: (below ++ after))

variable {g : DependencyGraph}

namespace Preorder

/-- The search is deterministic. -/
theorem unique {visited roots first second : List Nat} (one : g.Preorder visited roots first)
    (other : g.Preorder visited roots second) : first = second := by
  induction one generalizing second with
  | nil => cases other; rfl
  | seen member _ ih =>
      cases other with
      | seen _ rest => exact ih rest
      | visit fresh _ _ => exact absurd member fresh
  | visit fresh _ _ ih_deps ih_rest =>
      cases other with
      | seen member _ => exact absurd member fresh
      | visit _ deps rest =>
          obtain rfl := ih_deps deps
          rw [ih_rest rest]

/-- A search from several roots is the search from the first, then from the rest. -/
theorem cons {visited roots first rest : List Nat} {root : Nat}
    (one : g.Preorder visited [root] first) (others : g.Preorder (visited ++ first) roots rest) :
    g.Preorder visited (root :: roots) (first ++ rest) := by
  cases one with
  | seen member none =>
      cases none
      simpa using Preorder.seen member (by simpa using others)
  | visit fresh deps none =>
      cases none
      simpa using Preorder.visit fresh deps (by simpa using others)

/-- A search whose roots were all visited meets nothing. -/
theorem eq_nil_of_visited {visited roots out : List Nat} (search : g.Preorder visited roots out)
    (visited_roots : ∀ root ∈ roots, root ∈ visited) : out = [] := by
  induction search with
  | nil => rfl
  | seen _ _ ih => exact ih fun root member => visited_roots root (List.mem_cons_of_mem _ member)
  | visit fresh => exact absurd (visited_roots _ (List.mem_cons_self _ _)) fresh

/-- The search meets every object once, and none it had already visited. -/
theorem nodup_append {visited roots out : List Nat} (search : g.Preorder visited roots out)
    (distinct : visited.Nodup) : (visited ++ out).Nodup := by
  induction search with
  | nil => simpa using distinct
  | seen _ _ ih => exact ih distinct
  | @visit visited _ below after root fresh _ _ ih_deps ih_rest =>
      have with_root : (visited ++ [root]).Nodup :=
        List.nodup_append.mpr ⟨distinct, List.nodup_singleton root, by simpa using fresh⟩
      have with_below := ih_deps with_root
      simp only [List.append_assoc, List.singleton_append] at with_below
      simpa using ih_rest with_below

/-- Every object the search meets is reachable from one of its roots. -/
theorem sound {visited roots out : List Nat} (search : g.Preorder visited roots out)
    {x : Nat} (member : x ∈ out) : ∃ root ∈ roots, g.Reaches root x := by
  induction search with
  | nil => simp at member
  | seen _ _ ih =>
      obtain ⟨root, root_mem, reach⟩ := ih member
      exact ⟨root, List.mem_cons_of_mem _ root_mem, reach⟩
  | @visit _ _ _ _ root _ _ _ ih_deps ih_rest =>
      simp only [List.mem_cons, List.mem_append] at member
      rcases member with rfl | below | after
      · exact ⟨x, List.mem_cons_self _ _, Reaches.refl x⟩
      · obtain ⟨dep, dep_mem, reach⟩ := ih_deps below
        exact ⟨root, List.mem_cons_self _ _, Reaches.head dep_mem reach⟩
      · obtain ⟨other, other_mem, reach⟩ := ih_rest after
        exact ⟨other, List.mem_cons_of_mem _ other_mem, reach⟩

/-- After the search its roots are visited, and every object it met has its dependencies visited. -/
theorem closed {visited roots out : List Nat} (search : g.Preorder visited roots out) :
    (∀ root ∈ roots, root ∈ visited ++ out) ∧
      ∀ x ∈ out, ∀ d ∈ g.dependencies x, d ∈ visited ++ out := by
  induction search with
  | nil => simp
  | seen member _ ih =>
      refine ⟨fun root root_mem => ?_, ih.2⟩
      rcases List.mem_cons.mp root_mem with rfl | later
      · exact List.mem_append_left _ member
      · exact ih.1 root later
  | visit _ _ _ ih_deps ih_rest =>
      refine ⟨fun root root_mem => ?_, fun x x_mem d dep => ?_⟩
      · rcases List.mem_cons.mp root_mem with rfl | later
        · simp
        · simpa using ih_rest.1 root later
      · simp only [List.mem_cons, List.mem_append] at x_mem
        rcases x_mem with rfl | below | after
        · simpa [or_assoc] using Or.inl (ih_deps.1 d dep)
        · simpa [or_assoc] using Or.inl (ih_deps.2 x below d dep)
        · simpa using ih_rest.2 x after d dep

/-- From a visited set closed under dependencies, the search visits exactly what its roots reach. -/
theorem mem_iff {visited roots out : List Nat} (search : g.Preorder visited roots out)
    (closed_visited : ∀ x ∈ visited, ∀ d ∈ g.dependencies x, d ∈ visited) (x : Nat) :
    x ∈ visited ++ out ↔ x ∈ visited ∨ ∃ root ∈ roots, g.Reaches root x := by
  obtain ⟨roots_mem, out_closed⟩ := search.closed
  constructor
  · intro member
    rcases List.mem_append.mp member with old | new
    · exact Or.inl old
    · exact Or.inr (search.sound new)
  · rintro (old | ⟨root, root_mem, reach⟩)
    · exact List.mem_append_left _ old
    · refine mem_of_reaches (fun y y_mem d dep => ?_) (roots_mem root root_mem) reach
      rcases List.mem_append.mp y_mem with old | new
      · exact List.mem_append_left _ (closed_visited y old d dep)
      · exact out_closed y new d dep

end Preorder

end DependencyGraph
end LdInit
