import LdInit.Loader.Link

/-!
# Building a scope

The only guard of `Scope::buildScope`, `appendObject`'s membership test, stops the append but not
the recursion: it returns exactly when no walk from the root is longer than its depth.
-/

namespace LdInit

/-- A `Scope`: the objects searched for a symbol, in search order. -/
structure Scope where
  /-- `Scope::objects`. -/
  objects : List Nat

namespace Scope

/-- `Scope::appendObject`. -/
def appendObject (s : Scope) (object : Nat) : Scope :=
  if object ∈ s.objects then s else ⟨s.objects ++ [object]⟩

theorem appendObject_of_mem {s : Scope} {object : Nat} (present : object ∈ s.objects) :
    s.appendObject object = s := by
  simp [appendObject, present]

theorem appendObject_of_not_mem {s : Scope} {object : Nat} (absent : object ∉ s.objects) :
    s.appendObject object = ⟨s.objects ++ [object]⟩ := by
  simp [appendObject, absent]

end Scope

namespace DependencyGraph

variable (g : DependencyGraph)

/-- `Scope::buildScope`, with a bound on the depth of its recursion. -/
def buildScope : Nat → Nat → EStateM Abort Scope Unit
  | 0, _ => throw .outOfFuel
  | fuel + 1, object => do
      modify (·.appendObject object)
      (g.dependencies object).forM (buildScope fuel)

/-- What `buildScope` keeps: each object of the scope is being expanded or has its reach in it. -/
def ScopeClosed (expanding : Nat → Prop) (objects : List Nat) : Prop :=
  ∀ x ∈ objects, expanding x ∨ ∀ y, g.Reaches x y → y ∈ objects

variable {g}

theorem buildScope_succ (fuel object : Nat) (s : Scope) :
    g.buildScope (fuel + 1) object s =
      (g.dependencies object).forM (g.buildScope fuel) (s.appendObject object) := by
  simp [buildScope]

/-! ## Termination -/

/-- `buildScope` returns exactly when no walk from its object is as long as its depth bound. -/
theorem buildScope_returns_iff (fuel : Nat) : ∀ (object : Nat) (s : Scope),
    ((¬HasWalk g.dependencies object fuel) → ∃ t, g.buildScope fuel object s = .ok ⟨⟩ t) ∧
      (HasWalk g.dependencies object fuel →
        ∃ t, g.buildScope fuel object s = .error .outOfFuel t) := by
  induction fuel with
  | zero => exact fun _ s => ⟨fun walk => absurd trivial walk, fun _ => ⟨s, rfl⟩⟩
  | succ fuel ih =>
      intro object s
      suffices loop : ∀ (deps : List Nat) (u : Scope),
          ((∀ d ∈ deps, ¬HasWalk g.dependencies d fuel) →
            ∃ t, deps.forM (g.buildScope fuel) u = .ok ⟨⟩ t) ∧
          ((∃ d ∈ deps, HasWalk g.dependencies d fuel) →
            ∃ t, deps.forM (g.buildScope fuel) u = .error .outOfFuel t) by
        simp only [buildScope_succ, hasWalk_succ, not_exists, not_and]
        exact loop _ _
      intro deps
      induction deps with
      | nil => exact fun u => ⟨fun _ => ⟨u, rfl⟩, fun ⟨_, member, _⟩ => absurd member (by simp)⟩
      | cons dep deps ih_deps =>
          intro u
          by_cases walk : HasWalk g.dependencies dep fuel
          · obtain ⟨t, run⟩ := (ih dep u).2 walk
            refine ⟨fun none => absurd walk (none dep (List.mem_cons_self _ _)), fun _ => ?_⟩
            exact ⟨t, by rw [List.forM_cons', EStateM.bind_of_error run]⟩
          · obtain ⟨t, run⟩ := (ih dep u).1 walk
            rw [List.forM_cons', EStateM.bind_of_ok run]
            refine ⟨fun none => (ih_deps t).1 fun d member =>
              none d (List.mem_cons_of_mem _ member), fun ⟨d, member, later⟩ => ?_⟩
            rcases List.mem_cons.mp member with rfl | member
            · exact absurd later walk
            · exact (ih_deps t).2 ⟨d, member, later⟩

/-- With a cycle reachable from the root, `buildScope` overruns every depth bound. -/
theorem buildScope_diverges_of_cycle {root x : Nat} (reach : g.Reaches root x)
    (cycle : Relation.TransGen (Step g.dependencies) x x) (fuel : Nat) (s : Scope) :
    ∃ t, g.buildScope fuel root s = .error .outOfFuel t :=
  (buildScope_returns_iff fuel root s).2 (hasWalk_of_cycle reach cycle fuel)

/-- The graph of one object that depends on itself. -/
def selfDependent : DependencyGraph := ⟨[[0]], by decide⟩

theorem buildScope_selfDependent_diverges :
    selfDependent.Reaches 0 0 ∧ Relation.TransGen (Step selfDependent.dependencies) 0 0 ∧
      ∀ fuel (s : Scope), ∃ t, selfDependent.buildScope fuel 0 s = .error .outOfFuel t :=
  ⟨Reaches.refl 0, Relation.TransGen.single loop,
    buildScope_diverges_of_cycle (Reaches.refl 0) (Relation.TransGen.single loop)⟩
where loop : Step selfDependent.dependencies 0 0 := show 0 ∈ [0] by decide

/-! ## The scope is the link order -/


/-- Entering `object` keeps the scope closed, with `object` now among the ancestors. -/
theorem ScopeClosed.enter {expanding : Nat → Prop} {objects : List Nat}
    (closed : g.ScopeClosed expanding objects) (object : Nat) :
    g.ScopeClosed (fun x => x = object ∨ expanding x) (objects ++ [object]) := by
  intro x member
  rcases List.mem_append.mp member with old | new
  · exact (closed x old).imp Or.inr fun whole y reach => List.mem_append_left _ (whole y reach)
  · exact Or.inl (Or.inl (List.mem_singleton.mp new))
/-- The loop of `buildScope` over `deps`, from what one call on each does below `expanding`. -/
theorem forM_buildScope {fuel : Nat} {expanding : Nat → Prop}
    (each : ∀ (object : Nat) (s : Scope), g.AcyclicFrom object →
      ¬HasWalk g.dependencies object fuel → (∀ x, g.Reaches object x → ¬expanding x) →
      g.ScopeClosed expanding s.objects →
      ∃ out, g.Preorder s.objects [object] out ∧
        g.buildScope fuel object s = .ok ⟨⟩ ⟨s.objects ++ out⟩ ∧
        g.ScopeClosed expanding (s.objects ++ out) ∧
        ∀ y, g.Reaches object y → y ∈ s.objects ++ out) :
    ∀ (deps : List Nat) (u : Scope),
      (∀ d ∈ deps, g.AcyclicFrom d ∧ ¬HasWalk g.dependencies d fuel ∧
        ∀ x, g.Reaches d x → ¬expanding x) → g.ScopeClosed expanding u.objects →
      ∃ out, g.Preorder u.objects deps out ∧
        deps.forM (g.buildScope fuel) u = .ok ⟨⟩ ⟨u.objects ++ out⟩ ∧
        g.ScopeClosed expanding (u.objects ++ out) ∧
        ∀ d ∈ deps, ∀ y, g.Reaches d y → y ∈ u.objects ++ out
  | [], _, _, closed => ⟨[], .nil _, by simp, by simpa using closed, by simp⟩
  | dep :: deps, u, below, closed => by
      obtain ⟨acyclic, walk, free⟩ := below dep (List.mem_cons_self _ _)
      obtain ⟨first, first_order, first_run, first_closed, first_reach⟩ :=
        each dep u acyclic walk free closed
      obtain ⟨rest, rest_order, rest_run, rest_closed, rest_reach⟩ :=
        forM_buildScope each deps ⟨u.objects ++ first⟩
          (fun d member => below d (List.mem_cons_of_mem _ member)) first_closed
      refine ⟨first ++ rest, first_order.cons rest_order, ?_, by simpa using rest_closed, ?_⟩
      · rw [List.forM_cons', EStateM.bind_of_ok first_run, rest_run, List.append_assoc]
      · intro d member y reach
        rcases List.mem_cons.mp member with rfl | later
        · simpa only [← List.append_assoc] using List.mem_append_left rest (first_reach y reach)
        · simpa using rest_reach d later y reach

/-- One call of `buildScope` with depth to spare appends its pre-order and scopes its reach. -/
theorem buildScope_preorder (fuel : Nat) : ∀ (expanding : Nat → Prop) (object : Nat) (s : Scope),
    g.AcyclicFrom object → ¬HasWalk g.dependencies object fuel →
    (∀ x, g.Reaches object x → ¬expanding x) → g.ScopeClosed expanding s.objects →
    ∃ out, g.Preorder s.objects [object] out ∧
      g.buildScope fuel object s = .ok ⟨⟩ ⟨s.objects ++ out⟩ ∧
      g.ScopeClosed expanding (s.objects ++ out) ∧
      ∀ y, g.Reaches object y → y ∈ s.objects ++ out := by
  induction fuel with
  | zero => exact fun _ _ _ _ walk => absurd trivial walk
  | succ fuel ih =>
      intro expanding object s acyclic walk free closed
      rw [buildScope_succ]
      have below : ∀ d ∈ g.dependencies object, g.AcyclicFrom d ∧
          ¬HasWalk g.dependencies d fuel ∧ ∀ x, g.Reaches d x → ¬expanding x :=
        fun d member => ⟨acyclic.of_reaches (reaches_of_mem member),
          fun walk_d => walk ⟨d, member, walk_d⟩,
          fun x reach => free x (Reaches.head member reach)⟩
      by_cases present : object ∈ s.objects
      · -- met again: everything it reaches is already in the scope
        rw [Scope.appendObject_of_mem present]
        have whole : ∀ y, g.Reaches object y → y ∈ s.objects :=
          (closed object present).resolve_left (free object (Reaches.refl _))
        obtain ⟨out, order, run, closed', -⟩ := forM_buildScope (ih expanding) _ s below closed
        obtain rfl : out = [] :=
          order.eq_nil_of_visited fun d member => whole d (reaches_of_mem member)
        exact ⟨[], .seen present (.nil _), run, closed', by simpa using whole⟩
      · rw [Scope.appendObject_of_not_mem present]
        have below' : ∀ d ∈ g.dependencies object, g.AcyclicFrom d ∧
            ¬HasWalk g.dependencies d fuel ∧ ∀ x, g.Reaches d x → ¬(x = object ∨ expanding x) := by
          intro d member
          refine ⟨(below d member).1, (below d member).2.1, fun x reach => ?_⟩
          rintro (rfl | ancestor)
          · exact acyclic.not_reaches_back (Reaches.refl _) member reach
          · exact (below d member).2.2 x reach ancestor
        obtain ⟨out, order, run, closed', reach_deps⟩ :=
          forM_buildScope (ih _) _ ⟨s.objects ++ [object]⟩ below' (closed.enter object)
        have whole : ∀ y, g.Reaches object y → y ∈ s.objects ++ object :: out := by
          intro y reach
          rcases Relation.ReflTransGen.cases_head reach with rfl | ⟨d, member, rest⟩
          · simp
          · simpa using reach_deps d member y rest
        refine ⟨object :: out, by simpa using Preorder.visit present order (.nil _),
          by simpa using run, fun x member => ?_, whole⟩
        rcases closed' x (by simpa using member) with (rfl | ancestor) | reach_in
        · exact Or.inr whole
        · exact Or.inl ancestor
        · exact Or.inr fun y reach => by simpa using reach_in y reach

/-- On a graph acyclic below the root, `buildScope` appends what `linkObject` queues. -/
theorem buildScope_eq_linkObject (g : DependencyGraph) (root fuel : Nat)
    (acyclic : g.AcyclicFrom root) (budget : g.size < fuel) :
    ∃ objects, g.buildScope fuel root ⟨[]⟩ = .ok ⟨⟩ ⟨objects⟩ ∧
      g.linkObject fuel root Loader.fresh = .ok ⟨⟩ (Loader.fresh.enqueue objects) ∧
      g.Preorder [] [root] objects ∧ objects.head? = some root ∧ objects.Nodup ∧
      (∀ x, x ∈ objects ↔ g.Reaches root x) ∧
      ∀ (scope : Scope) (object : Nat), g.Reaches root object →
        (∀ x, g.Reaches object x → x ∈ scope.objects) →
        g.buildScope fuel object scope = .ok ⟨⟩ scope := by
  have short : ∀ object, g.Reaches root object → ¬HasWalk g.dependencies object fuel :=
    fun object reach walk => (acyclic.of_reaches reach).not_hasWalk (walk.mono budget)
  obtain ⟨objects, order, run, -, -⟩ := buildScope_preorder fuel (fun _ => False) root ⟨[]⟩
    acyclic (short root (Reaches.refl _)) (fun _ _ => id) (by simp [ScopeClosed])
  obtain ⟨linked, link_order, link_run⟩ := linkObject_preorder fuel root Loader.fresh
    (lt_of_le_of_lt (card_remaining_le _) budget)
  obtain rfl := link_order.unique order
  refine ⟨linked, run, link_run, order, ?_, by simpa using order.nodup_append List.nodup_nil,
    fun x => by simpa using order.mem_iff (by simp) x, fun scope object reach whole => ?_⟩
  · cases order with
    | seen member => simp at member
    | visit => rfl
  · classical
    obtain ⟨out, again, again_run, -, -⟩ := buildScope_preorder fuel
      (fun x => ¬∀ y, g.Reaches x y → y ∈ scope.objects) object scope
      (acyclic.of_reaches reach) (short object reach)
      (fun x below => not_not.mpr fun y rest => whole y (below.trans rest))
      (fun x _ => (em _).symm.imp_left not_not.mp |>.symm)
    obtain rfl : out = [] := again.eq_nil_of_visited fun _ member =>
      whole _ ((List.mem_singleton.mp member) ▸ Reaches.refl _)
    simpa using again_run

theorem buildScope_sharedDependency_eq_linkObject :
    sharedDependency.AcyclicFrom 3 ∧ sharedDependency.size < 5 ∧
    ∃ objects, sharedDependency.buildScope 5 3 ⟨[]⟩ = .ok ⟨⟩ ⟨objects⟩ ∧
      sharedDependency.linkObject 5 3 Loader.fresh = .ok ⟨⟩ (Loader.fresh.enqueue objects) ∧
      sharedDependency.Preorder [] [3] objects ∧ objects.head? = some 3 ∧ objects.Nodup ∧
      (∀ x, x ∈ objects ↔ sharedDependency.Reaches 3 x) ∧
      ∀ (scope : Scope) (object : Nat), sharedDependency.Reaches 3 object →
        (∀ x, sharedDependency.Reaches object x → x ∈ scope.objects) →
        sharedDependency.buildScope 5 object scope = .ok ⟨⟩ scope :=
  ⟨acyclicFrom_of_dependencies_lt (by decide) 3, by decide,
    buildScope_eq_linkObject _ 3 5 (acyclicFrom_of_dependencies_lt (by decide) 3) (by decide)⟩

end DependencyGraph

end LdInit
