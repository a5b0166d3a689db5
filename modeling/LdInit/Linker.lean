import LdInit.Universe.Graph
import LdInit.Loader.Relocating

/-!
# From the link universe to the relocated objects

After any run of the link universe, the link phase relocates exactly the libraries that the main
object reaches through `DT_NEEDED` entries, each once.
-/

namespace LdInit

open Relation

/-- After any run, the link phase relocates each library `name` reaches once, in pre-order. -/
theorem linkPhase_relocates_needed_libraries_once {files : List UInt8 → Option LibraryFile}
    {names : List (List UInt8)} {fuel : Nat}
    (finite : ∀ name, (openLibrary files name).isSome → name ∈ names)
    (budget : names.length < fuel) {calls : List UniverseCall} {objects : List Nat}
    {u : LinkUniverse} (reached : runUniverse files fuel calls LinkUniverse.initial = .ok objects u)
    {name : List UInt8} {object : Nat} (registered : u.Registered name object) (depth : Nat)
    (deep : u.objectCount < depth) (images : Nat → ObjectImage) (tls : Nat → TlsObject)
    (resolveFuel pltRelocateStub : Nat) (scope : Scope) (sources : Nat → RelocationSource) :
    ∃ (closed : ∀ object < u.objectCount, ∀ dep ∈ (u.objects object).dependencies,
        dep < u.objectCount) (out : List Nat),
      out.head? = some object ∧ out.Nodup ∧
      (∀ target, target ∈ out ↔
        ∃ other, ReflTransGen u.Needs name other ∧ u.Registered other target) ∧
      ∀ r : Relocations,
        ((∃ t, (u.graph closed).linkPhaseRelocating
            (relocateObject images tls resolveFuel pltRelocateStub scope sources) depth object
            ⟨Loader.fresh, r⟩ = .ok ⟨⟩ t) ↔
          ∃ r', out.forM (relocateObject images tls resolveFuel pltRelocateStub scope sources) r =
            .ok ⟨⟩ r') ∧
        ∀ t, (u.graph closed).linkPhaseRelocating
            (relocateObject images tls resolveFuel pltRelocateStub scope sources) depth object
            ⟨Loader.fresh, r⟩ = .ok ⟨⟩ t →
          t.loader.linkLog = out ∧
          t.relocations.stores.map Store.address = r.stores.map Store.address ++
            out.flatMap fun object => relocationSites images (sources object) object := by
  have run := runUniverse_outcome finite budget calls [] _ LinkUniverse.Registry.initial
    fun _ member => absurd member (List.not_mem_nil _)
  rw [reached] at run
  obtain ⟨registry, -⟩ := run
  obtain ⟨out, search, relocates⟩ := linkPhaseRelocating_relocates_preorder
    (u.graph registry.closed) object depth (LinkUniverse.graph_size ▸ deep) images tls resolveFuel
    pltRelocateStub scope sources
  refine ⟨registry.closed, out, ?_, by simpa using search.nodup_append List.nodup_nil,
    fun target => ?_, relocates⟩
  · cases search with
    | seen member => exact absurd member (List.not_mem_nil _)
    | visit => rfl
  · rw [← registry.reaches_iff registered target]
    simpa using search.mem_iff (by simp) target

/-- Requesting `a` of `pairFiles`, which fetches `b`, over objects with one relative record each. -/
theorem linkPhase_relocates_needed_libraries_once_of_pairFiles :
    ∃ u, runUniverse pairFiles 3 [.requestObjectWithName [0x61]] LinkUniverse.initial =
        .ok [0] u ∧ u.Registered [0x61] 0 ∧ u.objectCount < 3 ∧
      ∃ (closed : ∀ object < u.objectCount, ∀ dep ∈ (u.objects object).dependencies,
          dep < u.objectCount) (out : List Nat),
        out.head? = some 0 ∧ out.Nodup ∧
        (∀ target, target ∈ out ↔
          ∃ other, ReflTransGen u.Needs [0x61] other ∧ u.Registered other target) ∧
        ∀ r : Relocations,
          ((∃ t, (u.graph closed).linkPhaseRelocating
              (relocateObject relativeImages (fun _ => ⟨false, 0, 0, 0, .none, 0⟩) 1 0 ⟨[0]⟩
                relativeSources) 3 0 ⟨Loader.fresh, r⟩ = .ok ⟨⟩ t) ↔
            ∃ r', out.forM (relocateObject relativeImages (fun _ => ⟨false, 0, 0, 0, .none, 0⟩) 1
              0 ⟨[0]⟩ relativeSources) r = .ok ⟨⟩ r') ∧
          ∀ t, (u.graph closed).linkPhaseRelocating
              (relocateObject relativeImages (fun _ => ⟨false, 0, 0, 0, .none, 0⟩) 1 0 ⟨[0]⟩
                relativeSources) 3 0 ⟨Loader.fresh, r⟩ = .ok ⟨⟩ t →
            t.loader.linkLog = out ∧
            t.relocations.stores.map Store.address = r.stores.map Store.address ++
              out.flatMap fun object =>
                relocationSites relativeImages (relativeSources object) object := by
  obtain ⟨u, run, -, registered, -, count⟩ := runUniverse_pairFiles_requests_a
  exact ⟨u, run, registered, by omega, linkPhase_relocates_needed_libraries_once
    openLibrary_pairFiles (by decide) run registered 3 (by omega) _ _ 1 0 ⟨[0]⟩ _⟩

end LdInit
