import LdInit.Loader.Session
import LdInit.Loader.Relocate

/-!
# The link pass with its relocations

The loop of `Loader::linkObjects` is the loader model's `linkObjects` beside the relocation of the
queue, object by object: neither reads what the other writes.
-/

namespace LdInit

/-- What `Loader::linkObjects` changes: the loader's state and the relocation passes' stores. -/
structure LinkState where
  /-- The loader and the lifecycle flags of the objects. -/
  loader : Loader
  /-- The stores and log lines of the relocation passes. -/
  relocations : Relocations

namespace LinkState

variable {α : Type}

/-- Run `x` on the loader. -/
def onLoader (x : EStateM Abort Loader α) : EStateM Abort LinkState α := fun s =>
  match x s.loader with
  | .ok a l => .ok a { s with loader := l }
  | .error e l => .error e { s with loader := l }

/-- Run `x` on the relocations. -/
def onRelocations (x : EStateM Abort Relocations α) : EStateM Abort LinkState α := fun s =>
  match x s.relocations with
  | .ok a r => .ok a { s with relocations := r }
  | .error e r => .error e { s with relocations := r }

variable {l l' : Loader} {r r' : Relocations} {a : α} {e : Abort}

theorem onLoader_of_ok {x : EStateM Abort Loader α} (run : x l = .ok a l') :
    onLoader x ⟨l, r⟩ = .ok a ⟨l', r⟩ := by
  simp only [onLoader, run]

theorem onLoader_of_error {x : EStateM Abort Loader α} (run : x l = .error e l') :
    onLoader x ⟨l, r⟩ = .error e ⟨l', r⟩ := by
  simp only [onLoader, run]

theorem onRelocations_of_ok {x : EStateM Abort Relocations α} (run : x r = .ok a r') :
    onRelocations x ⟨l, r⟩ = .ok a ⟨l, r'⟩ := by
  simp only [onRelocations, run]

theorem onRelocations_of_error {x : EStateM Abort Relocations α} (run : x r = .error e r') :
    onRelocations x ⟨l, r⟩ = .error e ⟨l, r'⟩ := by
  simp only [onRelocations, run]

end LinkState

namespace DependencyGraph

variable (g : DependencyGraph) (relocate : Nat → EStateM Abort Relocations Unit)

/-- The loop body of `Loader::linkObjects`, relocating the object after the `wasLinked` check. -/
def linkFrontRelocating (fuel object : Nat) : EStateM Abort LinkState Unit := do
  LinkState.onLoader (modify (·.logLinking object))
  if (← get).loader.wasLinked object then throw .wasLinked
  LinkState.onRelocations (relocate object)
  LinkState.onLoader do
    scheduleDependency (g.scheduleInit fuel) object
    modify (·.markLinked object)
    modify Loader.removeLinkFront

/-- `Loader::linkObjects`' loop with the relocations, once for each object first queued. -/
def drainLinkQueueRelocating (fuel : Nat) : List Nat → EStateM Abort LinkState Unit
  | [] => pure ()
  | object :: rest => do
      g.linkFrontRelocating relocate fuel object
      drainLinkQueueRelocating fuel rest

/-- `Loader::linkObjects`, relocating each object with `relocate`. -/
def linkObjectsRelocating (fuel : Nat) : EStateM Abort LinkState Unit := do
  g.drainLinkQueueRelocating relocate fuel (← get).loader.linkQueue

/-- The link phase of a session, `linkObject(main); linkObjects()`, with the relocations. -/
def linkPhaseRelocating (fuel main : Nat) : EStateM Abort LinkState Unit := do
  LinkState.onLoader (g.linkObject fuel main)
  g.linkObjectsRelocating relocate fuel

variable {g relocate}

theorem linkFrontRelocating_eq_ok_iff {fuel object : Nat} {l l' : Loader} {r r' : Relocations} :
    g.linkFrontRelocating relocate fuel object ⟨l, r⟩ = .ok ⟨⟩ ⟨l', r'⟩ ↔
      g.linkFront fuel object l = .ok ⟨⟩ l' ∧ relocate object r = .ok ⟨⟩ r' := by
  have logged : LinkState.onLoader (modify (·.logLinking object)) ⟨l, r⟩ =
      .ok ⟨⟩ ⟨l.logLinking object, r⟩ := rfl
  unfold linkFrontRelocating linkFront
  rw [EStateM.bind_of_ok logged, EStateM.modify_bind_apply, EStateM.get_bind_apply,
    EStateM.get_bind_apply]
  by_cases linked : l.wasLinked object = true
  · simp [linked]
  · simp only [Loader.logLinking_wasLinked, linked, if_false, Bool.false_eq_true, pure_bind]
    cases relocated : relocate object r with
    | error e r'' =>
        simp [EStateM.bind_of_error (LinkState.onRelocations_of_error (l := l.logLinking object)
          relocated)]
    | ok u r'' =>
        rw [EStateM.bind_of_ok (LinkState.onRelocations_of_ok relocated)]
        cases rest : (do
            scheduleDependency (g.scheduleInit fuel) object
            modify fun x => x.markLinked object
            modify Loader.removeLinkFront : EStateM Abort Loader Unit) (l.logLinking object) with
        | error e l'' => simp [LinkState.onLoader_of_error rest]
        | ok u' l'' => simp [LinkState.onLoader_of_ok rest]

theorem drainLinkQueueRelocating_eq_ok_iff {fuel : Nat} :
    ∀ (objects : List Nat) {l l' : Loader} {r r' : Relocations},
      g.drainLinkQueueRelocating relocate fuel objects ⟨l, r⟩ = .ok ⟨⟩ ⟨l', r'⟩ ↔
        g.drainLinkQueue fuel objects l = .ok ⟨⟩ l' ∧ objects.forM relocate r = .ok ⟨⟩ r'
  | [], l, l', r, r' => by
      simp [drainLinkQueueRelocating, drainLinkQueue, and_comm]
  | object :: rest, l, l', r, r' => by
      simp only [drainLinkQueueRelocating, drainLinkQueue, List.forM_cons']
      constructor
      · intro run
        obtain ⟨_, ⟨l₁, r₁⟩, first, run⟩ := EStateM.bind_eq_ok run
        obtain ⟨linked, relocated⟩ := linkFrontRelocating_eq_ok_iff.mp first
        obtain ⟨linked', relocated'⟩ := (drainLinkQueueRelocating_eq_ok_iff rest).mp run
        exact ⟨by rw [EStateM.bind_of_ok linked, linked'],
          by rw [EStateM.bind_of_ok relocated, relocated']⟩
      · rintro ⟨linked, relocated⟩
        obtain ⟨_, l₁, first, linked⟩ := EStateM.bind_eq_ok linked
        obtain ⟨_, r₁, first', relocated⟩ := EStateM.bind_eq_ok relocated
        rw [EStateM.bind_of_ok (linkFrontRelocating_eq_ok_iff.mpr ⟨first, first'⟩)]
        exact (drainLinkQueueRelocating_eq_ok_iff rest).mpr ⟨linked, relocated⟩

/-- The link pass returns iff `linkObjects` and relocating its queue in order both return. -/
theorem linkObjectsRelocating_eq_ok_iff {fuel : Nat} {l l' : Loader} {r r' : Relocations} :
    g.linkObjectsRelocating relocate fuel ⟨l, r⟩ = .ok ⟨⟩ ⟨l', r'⟩ ↔
      g.linkObjects fuel l = .ok ⟨⟩ l' ∧ l.linkQueue.forM relocate r = .ok ⟨⟩ r' :=
  drainLinkQueueRelocating_eq_ok_iff l.linkQueue

end DependencyGraph

/-- With relocations, the link phase is the loader's beside relocating `main`'s pre-order. -/
theorem linkPhaseRelocating_spec (g : DependencyGraph) (main fuel : Nat) (budget : g.size < fuel)
    (relocate : Nat → EStateM Abort Relocations Unit) :
    ∃ out linked, g.Preorder [] [main] out ∧
      (do g.linkObject fuel main; g.linkObjects fuel) Loader.fresh = .ok ⟨⟩ linked ∧
      linked.linkLog = out ∧
      ∀ r t, g.linkPhaseRelocating relocate fuel main ⟨Loader.fresh, r⟩ = .ok ⟨⟩ t ↔
        t.loader = linked ∧ out.forM relocate r = .ok ⟨⟩ t.relocations := by
  obtain ⟨out, search, link_run⟩ := g.linkObject_preorder fuel main Loader.fresh
    (lt_of_le_of_lt (g.card_remaining_le _) budget)
  obtain ⟨linked, links_run, -, -, log, -⟩ :=
    g.linkObjects_spec (DependencyGraph.LinkInvariant.fresh.enqueue search) budget
  refine ⟨out, linked, search, by rw [EStateM.bind_of_ok link_run, links_run],
    by simpa [Loader.fresh] using log, fun r t => ?_⟩
  have drained : g.drainLinkQueue fuel (Loader.fresh.enqueue out).linkQueue
      (Loader.fresh.enqueue out) = .ok ⟨⟩ linked := links_run
  obtain ⟨l', r'⟩ := t
  rw [DependencyGraph.linkPhaseRelocating, EStateM.bind_of_ok (LinkState.onLoader_of_ok link_run),
    DependencyGraph.linkObjectsRelocating, EStateM.get_bind_apply,
    DependencyGraph.drainLinkQueueRelocating_eq_ok_iff, drained]
  simp [Loader.fresh, eq_comm]

section Program

variable (images : Nat → ObjectImage) (tls : Nat → TlsObject) (fuel : Nat)

/-- `object->loadScope = p_scope`, then the static and the lazy relocations of `sources object`. -/
def relocateObject (pltRelocateStub : Nat) (scope : Scope) (sources : Nat → RelocationSource)
    (object : Nat) : EStateM Abort Relocations Unit := do
  let source := { sources object with loadScope := scope }
  processStaticRelocations images tls fuel source object
  processLazyRelocations images fuel pltRelocateStub source object

/-- Where `relocateObject` stores: non-copy `DT_RELA` sites, then the GOT and `DT_JMPREL` sites. -/
def relocationSites (source : RelocationSource) (object : Nat) : List Nat :=
  source.relaRecords.flatMap (relaSites (images object).baseAddress) ++
    if source.info.globalOffsetTable = 0 then [] else
      [(source.info.globalOffsetTable + 8) % 2 ^ 64,
        (source.info.globalOffsetTable + 16) % 2 ^ 64] ++
        source.jumpSlotRecords.map (relocationSite (images object).baseAddress)

variable {images tls fuel}

theorem relocateObject_storesAt (pltRelocateStub : Nat) (scope : Scope)
    (sources : Nat → RelocationSource) (object : Nat) :
    StoresAt (relocationSites images (sources object) object)
      (relocateObject images tls fuel pltRelocateStub scope sources object) := by
  have unscoped : relocationSites images (sources object) object =
      relocationSites images { sources object with loadScope := scope } object := rfl
  rw [unscoped]
  exact StoresAt.bind (processStaticRelocations_storesAt _ object) fun _ =>
    processLazyRelocations_storesAt pltRelocateStub _ object

/-- The link phase with relocations returns iff relocating `main`'s pre-order does. -/
theorem linkPhaseRelocating_relocates_preorder (g : DependencyGraph) (main fuel : Nat)
    (budget : g.size < fuel) (images : Nat → ObjectImage) (tls : Nat → TlsObject)
    (resolveFuel pltRelocateStub : Nat) (scope : Scope) (sources : Nat → RelocationSource) :
    ∃ out, g.Preorder [] [main] out ∧ ∀ r : Relocations,
      ((∃ t, g.linkPhaseRelocating
          (relocateObject images tls resolveFuel pltRelocateStub scope sources) fuel main
          ⟨Loader.fresh, r⟩ = .ok ⟨⟩ t) ↔
        ∃ r', out.forM (relocateObject images tls resolveFuel pltRelocateStub scope sources) r =
          .ok ⟨⟩ r') ∧
      ∀ t, g.linkPhaseRelocating
          (relocateObject images tls resolveFuel pltRelocateStub scope sources) fuel main
          ⟨Loader.fresh, r⟩ = .ok ⟨⟩ t →
        t.loader.linkLog = out ∧
        t.relocations.stores.map Store.address = r.stores.map Store.address ++
          out.flatMap fun object => relocationSites images (sources object) object := by
  obtain ⟨out, linked, search, -, log, phase⟩ := linkPhaseRelocating_spec g main fuel budget
    (relocateObject images tls resolveFuel pltRelocateStub scope sources)
  refine ⟨out, search, fun r => ⟨⟨?_, ?_⟩, fun t run => ?_⟩⟩
  · rintro ⟨t, run⟩
    exact ⟨t.relocations, ((phase r t).mp run).2⟩
  · rintro ⟨r', relocated⟩
    exact ⟨⟨linked, r'⟩, (phase r _).mpr ⟨rfl, relocated⟩⟩
  · obtain ⟨linked_loader, relocated⟩ := (phase r t).mp run
    exact ⟨linked_loader ▸ log, StoresAt.forM out (fun object _ =>
      relocateObject_storesAt pltRelocateStub scope sources object) r ⟨⟩ t.relocations relocated⟩

/-- The link phase relocates `main`'s pre-order, each reachable object once, in order. -/
theorem linkPhase_relocates_reachable_objects_once (g : DependencyGraph) (main fuel : Nat)
    (budget : g.size < fuel) (images : Nat → ObjectImage) (tls : Nat → TlsObject)
    (resolveFuel pltRelocateStub : Nat) (scope : Scope) (sources : Nat → RelocationSource) :
    ∃ out, g.Preorder [] [main] out ∧ out.Nodup ∧ (∀ x, x ∈ out ↔ g.Reaches main x) ∧
      ∀ r : Relocations,
      ((∃ t, g.linkPhaseRelocating
          (relocateObject images tls resolveFuel pltRelocateStub scope sources) fuel main
          ⟨Loader.fresh, r⟩ = .ok ⟨⟩ t) ↔
        ∃ r', out.forM (relocateObject images tls resolveFuel pltRelocateStub scope sources) r =
          .ok ⟨⟩ r') ∧
      ∀ t, g.linkPhaseRelocating
          (relocateObject images tls resolveFuel pltRelocateStub scope sources) fuel main
          ⟨Loader.fresh, r⟩ = .ok ⟨⟩ t →
        t.loader.linkLog = out ∧
        t.relocations.stores.map Store.address = r.stores.map Store.address ++
          out.flatMap fun object => relocationSites images (sources object) object := by
  obtain ⟨out, search, relocates⟩ := linkPhaseRelocating_relocates_preorder g main fuel budget
    images tls resolveFuel pltRelocateStub scope sources
  exact ⟨out, search, by simpa using search.nodup_append List.nodup_nil,
    fun x => by simpa using search.mem_iff (by simp) x, relocates⟩

end Program

/-- Objects `0x1000000` bytes apart from `0x41000000`, without symbols. -/
def relativeImages (object : Nat) : ObjectImage := ⟨0x41000000 + object * 0x1000000, [], [], []⟩

/-- A `DT_RELA` table of one `R_X86_64_RELATIVE` record, for the word at offset `0x10`. -/
def relativeSources (_ : Nat) : RelocationSource :=
  ⟨⟨[]⟩, [(dtRela, 0), (dtRelasz, 24)], DynamicInfo.initial,
    fun offset => if offset = 0 then some ⟨0x10, rX86_64Relative, 0x20⟩ else none⟩

/-- On `sharedDependency` the link phase relocates `3`, `1`, `0`, `2`, a relative record each. -/
theorem linkPhase_relocates_sharedDependency_once :
    DependencyGraph.sharedDependency.size < 5 ∧
    (∃ t, DependencyGraph.sharedDependency.linkPhaseRelocating
        (relocateObject relativeImages (fun _ => ⟨false, 0, 0, 0, .none, 0⟩) 1 0 ⟨[3]⟩
          relativeSources) 5 3 ⟨Loader.fresh, ⟨[], []⟩⟩ = .ok ⟨⟩ t ∧
      t.relocations.stores.map Store.address = [0x44000010, 0x42000010, 0x41000010, 0x43000010]) ∧
    ∃ out, DependencyGraph.sharedDependency.Preorder [] [3] out ∧ out.Nodup ∧
      (∀ x, x ∈ out ↔ DependencyGraph.sharedDependency.Reaches 3 x) ∧
      ∀ r : Relocations,
        ((∃ t, DependencyGraph.sharedDependency.linkPhaseRelocating
            (relocateObject relativeImages (fun _ => ⟨false, 0, 0, 0, .none, 0⟩) 1 0 ⟨[3]⟩
              relativeSources) 5 3 ⟨Loader.fresh, r⟩ = .ok ⟨⟩ t) ↔
          ∃ r', out.forM (relocateObject relativeImages (fun _ => ⟨false, 0, 0, 0, .none, 0⟩) 1 0
            ⟨[3]⟩ relativeSources) r = .ok ⟨⟩ r') ∧
        ∀ t, DependencyGraph.sharedDependency.linkPhaseRelocating
            (relocateObject relativeImages (fun _ => ⟨false, 0, 0, 0, .none, 0⟩) 1 0 ⟨[3]⟩
              relativeSources) 5 3 ⟨Loader.fresh, r⟩ = .ok ⟨⟩ t →
          t.loader.linkLog = out ∧
          t.relocations.stores.map Store.address = r.stores.map Store.address ++
            out.flatMap fun object =>
              relocationSites relativeImages (relativeSources object) object :=
  ⟨by decide, ⟨_, rfl, rfl⟩,
    linkPhase_relocates_reachable_objects_once _ 3 5 (by decide) _ _ 1 0 ⟨[3]⟩ _⟩

end LdInit
