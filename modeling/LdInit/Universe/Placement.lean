import LdInit.Universe.Run

/-!
# Where the libraries are placed

The `k`-th library `_fetchFromFile` loads gets `0x41000000 + k * 0x1000000`, and nothing checks
that its `PT_LOAD` windows stay in its 16 MiB or that `p_filesz ≤ p_memsz`.
-/

namespace LdInit

open LinkUniverse

/-- The base address of the `k`-th library a run loads: `libraryBase` after `k` loads. -/
def libraryBaseAt (k : Nat) : Nat := (0x41000000 + k * 0x1000000) % 2 ^ 64

theorem libraryBaseAt_succ (k : Nat) :
    libraryBaseAt (k + 1) = (libraryBaseAt k + 0x1000000) % 2 ^ 64 := by
  unfold libraryBaseAt
  omega

/-! ## Runs that keep an invariant -/

/-- `x` keeps `inv`: a run from a state satisfying `inv` that returns ends in one satisfying it. -/
def Keeps {α : Type} (inv : LinkUniverse → Prop) (x : EStateM Abort LinkUniverse α) : Prop :=
  ∀ ⦃u : LinkUniverse⦄ ⦃a : α⦄ ⦃u' : LinkUniverse⦄, inv u → x u = .ok a u' → inv u'

namespace Keeps

variable {α β : Type} {inv : LinkUniverse → Prop}

theorem of_pure (a : α) : Keeps inv (pure a) := fun _ _ _ holds run => by
  cases run
  exact holds

theorem bind {x : EStateM Abort LinkUniverse α} {f : α → EStateM Abort LinkUniverse β}
    (first : Keeps inv x) (rest : ∀ a, Keeps inv (f a)) : Keeps inv (x >>= f) := by
  intro u b u' holds run
  obtain ⟨a, v, ran, run⟩ := EStateM.bind_eq_ok run
  exact rest a (first holds ran) run

theorem of_modify {f : LinkUniverse → LinkUniverse} (keep : ∀ u, inv u → inv (f u)) :
    Keeps inv (modify f) := fun u _ _ holds run => by
  cases run
  exact keep u holds

theorem get_bind {f : LinkUniverse → EStateM Abort LinkUniverse α} (each : ∀ v, Keeps inv (f v)) :
    Keeps inv (get >>= f) := fun u _ _ holds run => each u holds run

theorem forM {f : β → EStateM Abort LinkUniverse PUnit} (each : ∀ b, Keeps inv (f b)) :
    ∀ l : List β, Keeps inv (l.forM f)
  | [] => of_pure _
  | b :: l => by
      rw [List.forM_cons']
      exact (each b).bind fun _ => forM each l

end Keeps

/-! ## The placement invariant -/

/-- Where `_fetchFromFile` put the libraries: each at its `libraryBaseAt`, mapping its windows. -/
structure Placed (files : List UInt8 → Option LibraryFile) (u : LinkUniverse) : Prop where
  /-- `libraryBase` is the base of the next library. -/
  next : u.libraryBase = libraryBaseAt u.loadLog.length
  /-- The `k`-th library loaded has an object of its name at the `k`-th base. -/
  placed : ∀ k name, u.loadLog[k]? = some name → ∃ object < u.objectCount,
    (u.objects object).name = name ∧ (u.objects object).baseAddress = libraryBaseAt k
  /-- Every segment mapped is the window of a `PT_LOAD` header of a library loaded, at its base. -/
  mapped : ∀ m ∈ u.mappings, ∃ k name file, u.loadLog[k]? = some name ∧
    openLibrary files name = some file ∧ ∃ phdr ∈ file.phdrs, phdr.pType = ptLoad ∧
      loadSegment (libraryBaseAt k) phdr = .ok m

namespace Placed

variable {files : List UInt8 → Option LibraryFile} {u v : LinkUniverse}

theorem initial : Placed files LinkUniverse.initial where
  next := rfl
  placed _ _ found := nomatch found
  mapped _ member := nomatch member

/-- A step keeping the base, libraries, mappings, and objects' names and bases keeps it. -/
theorem frame (placed : Placed files u) (base : v.libraryBase = u.libraryBase)
    (log : v.loadLog = u.loadLog) (mappings : v.mappings = u.mappings)
    (count : u.objectCount ≤ v.objectCount)
    (kept : ∀ object < u.objectCount, (v.objects object).name = (u.objects object).name ∧
      (v.objects object).baseAddress = (u.objects object).baseAddress) :
    Placed files v where
  next := by rw [base, log, placed.next]
  placed k name found := by
    rw [log] at found
    obtain ⟨object, lt, named, at_base⟩ := placed.placed k name found
    exact ⟨object, lt.trans_le count, (kept object lt).1.trans named,
      (kept object lt).2.trans at_base⟩
  mapped m member := by
    rw [log]
    exact placed.mapped m (mappings ▸ member)

/-- Changing an object in a way that keeps its name and base address keeps the placement. -/
theorem setObject (placed : Placed files u) {object : Nat} {f : SharedObject → SharedObject}
    (keep : ∀ o, (f o).name = o.name ∧ (f o).baseAddress = o.baseAddress) :
    Placed files (u.setObject object f) :=
  placed.frame rfl rfl rfl le_rfl fun other _ => by
    by_cases same : other = object
    · subst same
      simpa using keep (u.objects other)
    · simp [same]

/-- An object constructed after `u`, whatever is done to it, leaves the placement of `u`. -/
theorem fresh (placed : Placed files u) (base : v.libraryBase = u.libraryBase)
    (log : v.loadLog = u.loadLog) (mappings : v.mappings = u.mappings)
    (count : u.objectCount ≤ v.objectCount)
    (objects : ∀ object < u.objectCount, v.objects object = u.objects object) : Placed files v :=
  placed.frame base log mappings count fun object lt => by rw [objects object lt]; exact ⟨rfl, rfl⟩

/-- `_fetchFromFile` loads the next library at the next base, mapping its `PT_LOAD` windows. -/
theorem fetch (placed : Placed files u) {name : List UInt8} {file : LibraryFile}
    {result : FetchResult} (found : openLibrary files name = some file)
    (loaded : loadFile u.libraryBase file = .ok result) (base : v.libraryBase = u.libraryBase)
    (log : v.loadLog = u.loadLog) (mappings : v.mappings = u.mappings)
    (count : v.objectCount = u.objectCount + 1)
    (objects : ∀ object < u.objectCount, v.objects object = u.objects object)
    (named : (v.objects u.objectCount).name = name) :
    Placed files { v.setObject u.objectCount fun o => { o with
        baseAddress := v.libraryBase, dynamic := result.dynamic, tls := result.tls } with
      libraryBase := (v.libraryBase + 0x1000000) % 2 ^ 64
      mappings := v.mappings ++ result.mappings
      loadLog := v.loadLog ++ [name] } where
  next := by
    simp only [base, log, placed.next, List.length_append, List.length_singleton]
    exact (libraryBaseAt_succ _).symm
  placed k other found := by
    simp only [log] at found ⊢
    rcases Nat.lt_or_ge k u.loadLog.length with old | new
    · rw [List.getElem?_append_left old] at found
      obtain ⟨object, lt, same, at_base⟩ := placed.placed k other found
      refine ⟨object, by simp [count]; omega, ?_⟩
      simp [Nat.ne_of_lt lt, objects object lt, same, at_base]
    · rw [List.getElem?_append_right new] at found
      obtain ⟨inside, same⟩ := List.getElem?_eq_some_iff.mp found
      obtain rfl : k = u.loadLog.length := by
        simp only [List.length_singleton] at inside
        omega
      obtain rfl : name = other := by simpa using same
      exact ⟨u.objectCount, by simp [count], by simp [named], by simp [base, placed.next]⟩
  mapped m member := by
    simp only [log, mappings, List.mem_append] at member ⊢
    rcases member with old | new
    · obtain ⟨k, other, file', found', opened, phdr, header, load, segment⟩ :=
        placed.mapped m old
      exact ⟨k, other, file', List.getElem?_append_left
        (List.getElem?_eq_some_iff.mp found').1 ▸ found', opened, phdr, header, load, segment⟩
    · obtain ⟨phdr, header, load, segment⟩ := loadFile_mappings loaded m new
      exact ⟨u.loadLog.length, name, file, by simp, found, phdr, header, load,
        placed.next ▸ segment⟩

end Placed

/-! ## Every call keeps the placement -/

section Calls

variable {files : List UInt8 → Option LibraryFile} {fuel : Nat}

theorem parseObject_keeps (object : Nat) : Keeps (Placed files) (parseObject object) := by
  intro u _ u' placed run
  have outcome := parseObject_outcome object u
  rw [run] at outcome
  obtain ⟨d, info, -, rfl⟩ := outcome
  exact placed.setObject fun _ => ⟨rfl, rfl⟩

theorem discoverDependency_keeps
    (request : ∀ name, Keeps (Placed files) (requestObjectWithName files fuel name))
    (object : Nat) (name : List UInt8) :
    Keeps (Placed files) (discoverDependency (requestObjectWithName files fuel) object name) :=
  (request name).bind fun _ => Keeps.of_modify fun _ placed => placed.setObject fun _ => ⟨rfl, rfl⟩

theorem discoverDependencies_keeps
    (request : ∀ name, Keeps (Placed files) (requestObjectWithName files fuel name))
    (object : Nat) :
    Keeps (Placed files) (discoverDependencies (requestObjectWithName files fuel) object) :=
  Keeps.get_bind fun _ => Keeps.forM (discoverDependency_keeps request object) _

/-- What the request and both injects do after the dynamic section keeps the placement. -/
theorem register_keeps
    (request : ∀ name, Keeps (Placed files) (requestObjectWithName files fuel name))
    (name : List UInt8) (object : Nat) :
    Keeps (Placed files) (do
      parseObject object
      modify (·.register name object)
      discoverDependencies (requestObjectWithName files fuel) object
      pure object : EStateM Abort LinkUniverse Nat) :=
  (parseObject_keeps object).bind fun _ =>
    (Keeps.of_modify fun _ placed => placed.frame rfl rfl rfl le_rfl fun _ _ => ⟨rfl, rfl⟩).bind
      fun _ => (discoverDependencies_keeps request object).bind fun _ => Keeps.of_pure _

theorem requestObjectWithName_keeps :
    ∀ fuel name, Keeps (Placed files) (requestObjectWithName files fuel name)
  | 0, _ => fun _ _ _ _ run => by cases run
  | fuel + 1, name => by
      intro u object u' placed run
      cases registered : u.nameMap name with
      | some known =>
          rw [requestObjectWithName_of_some files registered] at run
          cases run
          exact placed
      | none =>
          rw [requestObjectWithName_of_none files registered] at run
          obtain ⟨_, v, fetched, rest⟩ := EStateM.bind_eq_ok run
          obtain ⟨file, result, found, loaded, rfl⟩ := fetchFromFile_of_ok files fetched
          refine register_keeps (requestObjectWithName_keeps fuel) name _ ?_ rest
          exact placed.fetch found loaded rfl rfl rfl rfl
            (fun object lt => by simp [Nat.ne_of_lt lt]) (by simp [SharedObject.construct])

theorem injectObjectFromDts_keeps (name : List UInt8) (baseAddress : Nat)
    (dynamic : DynamicSection) :
    Keeps (Placed files) (injectObjectFromDts files fuel name baseAddress dynamic) := by
  intro u object u' placed run
  cases registered : u.nameMap name with
  | some known =>
      rw [injectObjectFromDts_of_some files registered] at run
      cases run
  | none =>
      rw [injectObjectFromDts_of_none files registered] at run
      refine register_keeps (requestObjectWithName_keeps fuel) name _ ?_ run
      exact placed.fresh rfl rfl rfl (by simp [LinkUniverse.setObject])
        fun object lt => by simp [LinkUniverse.setObject, Nat.ne_of_lt lt]

theorem injectObjectFromPhdrs_keeps (name : List UInt8) (phdrs : List Elf64Phdr) (entry : Nat)
    (dynamic : DynamicSection) :
    Keeps (Placed files) (injectObjectFromPhdrs files fuel name phdrs entry dynamic) := by
  intro u object u' placed run
  cases registered : u.nameMap name with
  | some known =>
      rw [injectObjectFromPhdrs_of_some files registered] at run
      cases run
  | none =>
      rw [injectObjectFromPhdrs_of_none files registered] at run
      refine register_keeps (requestObjectWithName_keeps fuel) name _ ?_ run
      exact placed.fresh rfl rfl rfl (by simp [LinkUniverse.setObject])
        fun object lt => by simp [LinkUniverse.setObject, Nat.ne_of_lt lt]

theorem runUniverse_keeps : ∀ calls, Keeps (Placed files) (runUniverse files fuel calls)
  | [] => Keeps.of_pure _
  | call :: calls => by
      have first : Keeps (Placed files) (call.run files fuel) := by
        cases call with
        | injectObjectFromDts name base dynamic => exact injectObjectFromDts_keeps name base dynamic
        | injectObjectFromPhdrs name phdrs entry dynamic =>
            exact injectObjectFromPhdrs_keeps name phdrs entry dynamic
        | requestObjectWithName name => exact requestObjectWithName_keeps fuel name
      exact first.bind fun _ => (runUniverse_keeps calls).bind fun _ => Keeps.of_pure _

end Calls

/-! ## What a run leaves -/

/-- After any run, library `k` is at `libraryBaseAt k`, each mapping a `PT_LOAD` window there. -/
theorem runUniverse_places_libraries {files : List UInt8 → Option LibraryFile}
    {names : List (List UInt8)} {fuel : Nat}
    (finite : ∀ name, (openLibrary files name).isSome → name ∈ names)
    (budget : names.length < fuel) {calls : List UniverseCall} {objects : List Nat}
    {u : LinkUniverse}
    (reached : runUniverse files fuel calls LinkUniverse.initial = .ok objects u) :
    u.libraryBase = libraryBaseAt u.loadLog.length ∧
    (∀ k name, u.loadLog[k]? = some name → ∃ object, u.Registered name object ∧
      (u.objects object).baseAddress = libraryBaseAt k) ∧
    ∀ m ∈ u.mappings, ∃ k name file, u.loadLog[k]? = some name ∧
      openLibrary files name = some file ∧ ∃ phdr ∈ file.phdrs, phdr.pType = ptLoad ∧
        loadSegment (libraryBaseAt k) phdr = .ok m ∧
        m.mapAddress % kPageSize = 0 ∧ m.mapLength % kPageSize = 0 ∧
        (libraryBaseAt k + phdr.pVaddr + phdr.pMemsz + kPageSize ≤ 2 ^ 64 →
          m.mapAddress = pageFloor (libraryBaseAt k + phdr.pVaddr) ∧
          m.mapAddress + m.mapLength = pageCeil (libraryBaseAt k + phdr.pVaddr + phdr.pMemsz)) ∧
        (m.writable = true → m.fileBytes = phdr.pFilesz ∧
            m.misalign = phdr.pVaddr % kPageSize) := by
  have placed := runUniverse_keeps calls Placed.initial reached
  have outcome := runUniverse_outcome finite budget calls [] _ Registry.initial
    fun _ member => absurd member (List.not_mem_nil _)
  rw [reached] at outcome
  obtain ⟨registry, -⟩ := outcome
  refine ⟨placed.next, fun k name found => ?_, fun m member => ?_⟩
  · obtain ⟨object, lt, named, at_base⟩ := placed.placed k name found
    obtain ⟨other, registered⟩ := registry.all_named object lt
    obtain rfl : other = name := (registry.named other object registered).2.symm.trans named
    exact ⟨object, registered, at_base⟩
  · obtain ⟨k, name, file, found, opened, phdr, header, load, segment⟩ := placed.mapped m member
    obtain ⟨page, length, window⟩ := loadSegment_window segment
    exact ⟨k, name, file, found, opened, phdr, header, load, segment, page, length, window,
      loadSegment_writable segment⟩

theorem runUniverse_pairFiles_places_libraries :
    ∃ u, runUniverse pairFiles 3 [.requestObjectWithName [0x61]] LinkUniverse.initial =
        .ok [0] u ∧ u.loadLog = [[0x61], [0x62]] ∧
      u.libraryBase = libraryBaseAt u.loadLog.length ∧
      (∀ k name, u.loadLog[k]? = some name → ∃ object, u.Registered name object ∧
        (u.objects object).baseAddress = libraryBaseAt k) ∧
      ∀ m ∈ u.mappings, ∃ k name file, u.loadLog[k]? = some name ∧
        openLibrary pairFiles name = some file ∧ ∃ phdr ∈ file.phdrs, phdr.pType = ptLoad ∧
          loadSegment (libraryBaseAt k) phdr = .ok m ∧
          m.mapAddress % kPageSize = 0 ∧ m.mapLength % kPageSize = 0 ∧
          (libraryBaseAt k + phdr.pVaddr + phdr.pMemsz + kPageSize ≤ 2 ^ 64 →
            m.mapAddress = pageFloor (libraryBaseAt k + phdr.pVaddr) ∧
            m.mapAddress + m.mapLength = pageCeil (libraryBaseAt k + phdr.pVaddr + phdr.pMemsz)) ∧
          (m.writable = true → m.fileBytes = phdr.pFilesz ∧
              m.misalign = phdr.pVaddr % kPageSize) := by
  obtain ⟨u, run, log, -⟩ := runUniverse_pairFiles_requests_a
  exact ⟨u, run, log, runUniverse_places_libraries openLibrary_pairFiles
    (by decide : [[0x61], [0x62]].length < 3) run⟩

/-- A library needing `b`, its writable `PT_LOAD` a page past its 16 MiB, `p_filesz = 0x3000`. -/
def overreachingLibrary : LibraryFile :=
  ⟨[0x7F, 0x45, 0x4C, 0x46], etDyn,
    [⟨ptDynamic, pfR ||| pfW, 0x800, 0xFFF800, 0x100, 0x100, 8⟩,
      ⟨ptLoad, pfR ||| pfW, 0, 0xFFF000, 0x3000, 0x2000, 0x1000⟩],
    ⟨[(dtNeeded, 1), (dtStrtab, 0xFFFC00)], [0, 0x62, 0]⟩⟩

/-- The library `a`, an `overreachingLibrary`, and `b`, a `neighbourLibrary` needing `a`. -/
def overreachingFiles (path : List UInt8) : Option LibraryFile :=
  if path = libPrefix ++ [0x61] then some overreachingLibrary
  else if path = libPrefix ++ [0x62] then some (neighbourLibrary 0x61)
  else none

/-- Requesting `a` maps its writable segment over `b`'s text, reading `0x3000` bytes into it. -/
theorem runUniverse_maps_segment_over_next_library :
    ∃ u a b, runUniverse overreachingFiles 3 [.requestObjectWithName [0x61]]
        LinkUniverse.initial = .ok [0] u ∧
      u.loadLog = [[0x61], [0x62]] ∧
      u.Registered [0x61] 0 ∧ (u.objects 0).baseAddress = libraryBaseAt 0 ∧
      u.Registered [0x62] 1 ∧ (u.objects 1).baseAddress = libraryBaseAt 1 ∧
      u.mappings = [a, b] ∧ libraryBaseAt 1 < a.mapAddress + a.mapLength ∧
      b.mapAddress < a.mapAddress + a.mapLength ∧ a.mapAddress < b.mapAddress + b.mapLength ∧
      a.writable = true ∧ a.mapLength < a.misalign + a.fileBytes := by
  obtain ⟨u, run⟩ : ∃ u, runUniverse overreachingFiles 3 [.requestObjectWithName [0x61]]
      LinkUniverse.initial = .ok [0] u := ⟨_, rfl⟩
  refine ⟨u, ⟨0x41FFF000, 0x2000, true, 0, 0x3000, 0⟩, ⟨0x42000000, 0x4000, false, 0, 0, 0⟩, run,
    ?_⟩
  cases run
  exact ⟨rfl, rfl, rfl, rfl, rfl, rfl, by decide, by decide, by decide, rfl, by decide⟩

end LdInit
