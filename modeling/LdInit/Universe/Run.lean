import LdInit.Universe.Invariant

/-!
# Runs of the link universe

Every call on the link universe ends, whatever cycles the `DT_NEEDED` entries form, and keeps the
invariant `Registry`.
-/

namespace LdInit

open LinkUniverse

/-- What registering or requesting `name` leaves, with the objects `pending` still discovering. -/
def Requested (pending : List Nat) (name : List UInt8) (u : LinkUniverse) (object : Nat)
    (u' : LinkUniverse) : Prop :=
  Registry pending u' ∧ u'.Registered name object ∧ Grows (fun _ => False) u u'

section Runs

variable {files : List UInt8 → Option LibraryFile} {names : List (List UInt8)} {fuel : Nat}

/-- The `_discoverDependencies` loop over the names `rest`, after those `done` are listed. -/
theorem forM_discoverDependency {request : List UInt8 → EStateM Abort LinkUniverse Nat}
    {pending : List Nat} {object : Nat} {d : DynamicSection}
    (each : ∀ name u, Registry (object :: pending) u → remaining names u < fuel →
      Outcome (Requested (object :: pending) name u) (request name u)) :
    ∀ (rest done : List (List UInt8)) (u : LinkUniverse), Registry (object :: pending) u →
      (u.objects object).dynamic = some d → object < u.objectCount → d.needed = done ++ rest →
      List.Forall₂ u.Registered done (u.objects object).dependencies → remaining names u < fuel →
      Outcome (fun _ u' => Registry pending u' ∧ Grows (· = object) u u')
        (rest.forM (discoverDependency request object) u)
  | [], done, u, registry, dynamic, _, split, matched, _ => by
      rw [List.append_nil] at split
      subst split
      exact ⟨registry.complete dynamic matched, Grows.refl _ u⟩
  | name :: rest, done, u, registry, dynamic, lt, split, matched, budget => by
      rw [List.forM_cons', discoverDependency, bind_assoc]
      refine Outcome.bind (each name u registry budget) ?_
      rintro library w ⟨registry_w, found, grows⟩
      rw [EStateM.modify_bind_apply]
      have same : w.objects object = u.objects object := grows.objects_eq lt id
      have longer : List.Forall₂ w.Registered (done ++ [name])
          ((w.objects object).dependencies ++ [library]) := by
        rw [same]
        exact List.rel_append (matched.imp grows.registered) (.cons found .nil)
      have registry' := registry_w.append (List.mem_cons_self _ _) (same ▸ dynamic)
        ⟨rest, by rw [split, List.append_assoc, List.singleton_append]⟩ longer
      refine (forM_discoverDependency each rest (done ++ [name]) _ registry'
        (by simp [same, dynamic] : _ = some d)
        (by simpa using lt.trans_le grows.count_le) (by simp [split]) (by simpa using longer)
        ((remaining_le grows.registered).trans_lt budget)).imp
        fun _ u' outcome => ⟨outcome.1, ?_⟩
      exact ((grows.mono fun _ => False.elim).trans (Grows.append w [library]) fun _ _ => id).trans
        outcome.2 fun _ _ => id

/-- `_discoverDependencies` of an object just registered, with no dependencies yet. -/
theorem discoverDependencies_outcome {request : List UInt8 → EStateM Abort LinkUniverse Nat}
    {pending : List Nat} {object : Nat} {d : DynamicSection}
    (each : ∀ name u, Registry (object :: pending) u → remaining names u < fuel →
      Outcome (Requested (object :: pending) name u) (request name u))
    {u : LinkUniverse} (registry : Registry (object :: pending) u)
    (dynamic : (u.objects object).dynamic = some d) (lt : object < u.objectCount)
    (fresh : (u.objects object).dependencies = []) (budget : remaining names u < fuel) :
    Outcome (fun _ u' => Registry pending u' ∧ Grows (· = object) u u')
      (discoverDependencies request object u) := by
  rw [discoverDependencies_apply, dynamic]
  exact forM_discoverDependency each d.needed [] u registry dynamic lt rfl (by simp [fresh]) budget

/-- What `requestObjectWithName` and both injects share: parse, register, discover dependencies. -/
theorem register_outcome
    (each : ∀ name pending u, Registry pending u → remaining names u < fuel →
      Outcome (Requested pending name u) (requestObjectWithName files fuel name u))
    {pending : List Nat} {u v : LinkUniverse} {name : List UInt8} (registry : Registry pending u)
    (absent : u.nameMap name = none) (nameMap : v.nameMap = u.nameMap)
    (count : v.objectCount = u.objectCount + 1)
    (objects : ∀ object < u.objectCount, v.objects object = u.objects object)
    (named : (v.objects u.objectCount).name = name)
    (fresh : (v.objects u.objectCount).dependencies = []) {logged : List (List UInt8)}
    (log : v.loadLog = u.loadLog ++ logged) (logged_name : ∀ other ∈ logged, other = name)
    (logged_nodup : logged.Nodup)
    (budget : remaining names (v.register name u.objectCount) < fuel) :
    Outcome (fun object u' => Requested pending name u object u' ∧
        ∃ new, u'.loadLog = v.loadLog ++ new ∧ name ∉ new)
      ((do
        parseObject u.objectCount
        modify (·.register name u.objectCount)
        discoverDependencies (requestObjectWithName files fuel) u.objectCount
        pure u.objectCount : EStateM Abort LinkUniverse Nat) v) := by
  refine Outcome.bind (parseObject_outcome _ v) ?_
  rintro _ w ⟨d, info, dynamic, parsed⟩
  rw [EStateM.modify_bind_apply]
  have nameMap' : w.nameMap = u.nameMap := by rw [parsed]; exact nameMap
  have dynamic_w : (w.objects u.objectCount).dynamic = some d := by simp [parsed, dynamic]
  obtain ⟨registry', grows⟩ := registry.register absent nameMap' (by simp [parsed, count])
    (fun object lt => by simp [parsed, Nat.ne_of_lt lt, objects object lt])
    (by simp [parsed, named])
    dynamic_w (by simp [parsed, fresh]) (by simp [parsed, log]) logged_name logged_nodup
  refine Outcome.bind (discoverDependencies_outcome (fun name u registry budget =>
    each name _ u registry budget) registry' dynamic_w (by simp [parsed, count])
    (by simp [parsed, fresh]) (parsed ▸ budget)) ?_
  rintro _ u' ⟨registry'', grows'⟩
  refine ⟨⟨registry'', grows'.registered name _ (by simp), ?_⟩, ?_⟩
  · exact grows.trans grows' fun object lt same => absurd same (Nat.ne_of_lt lt)
  · obtain ⟨new, log', fresh'⟩ := grows'.logged
    exact ⟨new, by simp [log', parsed], fun member => by simpa using fresh' name member⟩

/-- With depth to spare, `requestObjectWithName` returns the object registered under the name. -/
theorem requestObjectWithName_outcome
    (finite : ∀ name, (openLibrary files name).isSome → name ∈ names) :
    ∀ (fuel : Nat) (name : List UInt8) (pending : List Nat) (u : LinkUniverse), Registry pending u →
      remaining names u < fuel →
      Outcome (Requested pending name u) (requestObjectWithName files fuel name u)
  | 0, _, _, _, _, budget => absurd budget (Nat.not_lt_zero _)
  | fuel + 1, name, pending, u, registry, budget => by
      cases registered : u.nameMap name with
      | some object =>
          rw [requestObjectWithName_of_some files registered]
          exact ⟨registry, registered, Grows.refl _ u⟩
      | none =>
          rw [requestObjectWithName_of_none files registered]
          refine Outcome.bind (fetchFromFile_outcome files _ name _) ?_
          rintro _ v ⟨file, result, found, rfl⟩
          have member : name ∈ names := finite name (by simp [found])
          refine (register_outcome (requestObjectWithName_outcome finite fuel) registry registered
            (by rfl) (by rfl) (fun object lt => by simp [Nat.ne_of_lt lt])
            (by simp [SharedObject.construct]) (by simp [SharedObject.construct]) (by rfl)
            (fun _ member => List.eq_of_mem_singleton member)
            (List.nodup_singleton _)
            ((remaining_register_lt registered member (by rfl)).trans_le (by omega))).imp
            fun _ _ outcome => outcome.1

/-- What both injects share: the object gets registered, and no library of its name is loaded. -/
theorem injected_outcome (finite : ∀ name, (openLibrary files name).isSome → name ∈ names)
    {u v : LinkUniverse} {name : List UInt8} (registry : Registry [] u)
    (absent : u.nameMap name = none) (nameMap : v.nameMap = u.nameMap)
    (count : v.objectCount = u.objectCount + 1)
    (objects : ∀ object < u.objectCount, v.objects object = u.objects object)
    (named : (v.objects u.objectCount).name = name)
    (fresh : (v.objects u.objectCount).dependencies = []) (log : v.loadLog = u.loadLog)
    (budget : remaining names u < fuel) :
    Outcome (fun object u' => Requested [] name u object u' ∧ name ∉ u'.loadLog)
      ((do
        parseObject u.objectCount
        modify (·.register name u.objectCount)
        discoverDependencies (requestObjectWithName files fuel) u.objectCount
        pure u.objectCount : EStateM Abort LinkUniverse Nat) v) := by
  refine (register_outcome (requestObjectWithName_outcome finite fuel) registry absent nameMap count
    objects named fresh (by simpa using log) (fun _ member => absurd member (List.not_mem_nil _))
    List.nodup_nil ((remaining_register_le absent nameMap).trans_lt budget)).imp ?_
  rintro object u' ⟨requested, new, log', unloaded⟩
  rw [log', log, List.mem_append, not_or]
  exact ⟨requested, fun member => registry.log_registered name member absent, unloaded⟩

/-- `injectObjectFromDts` registers a new name without loading it, and aborts on a known one. -/
theorem injectObjectFromDts_outcome
    (finite : ∀ name, (openLibrary files name).isSome → name ∈ names) (name : List UInt8)
    (baseAddress : Nat) (dynamic : DynamicSection) {u : LinkUniverse} (registry : Registry [] u)
    (budget : remaining names u < fuel) :
    Outcome (fun object u' => Requested [] name u object u' ∧ name ∉ u'.loadLog)
      (injectObjectFromDts files fuel name baseAddress dynamic u) := by
  cases registered : u.nameMap name with
  | some object =>
      rw [injectObjectFromDts_of_some files registered]
      exact Outcome.of_error (by simp)
  | none =>
      rw [injectObjectFromDts_of_none files registered]
      exact injected_outcome finite registry registered (by rfl) (by rfl)
        (fun object lt => by simp [Nat.ne_of_lt lt]) (by simp [SharedObject.construct])
        (by simp [SharedObject.construct]) (by rfl) budget

/-- `injectObjectFromPhdrs`, as `injectObjectFromDts`. -/
theorem injectObjectFromPhdrs_outcome
    (finite : ∀ name, (openLibrary files name).isSome → name ∈ names) (name : List UInt8)
    (phdrs : List Elf64Phdr) (entry : Nat) (dynamic : DynamicSection) {u : LinkUniverse}
    (registry : Registry [] u) (budget : remaining names u < fuel) :
    Outcome (fun object u' => Requested [] name u object u' ∧ name ∉ u'.loadLog)
      (injectObjectFromPhdrs files fuel name phdrs entry dynamic u) := by
  cases registered : u.nameMap name with
  | some object =>
      rw [injectObjectFromPhdrs_of_some files registered]
      exact Outcome.of_error (by simp)
  | none =>
      rw [injectObjectFromPhdrs_of_none files registered]
      exact injected_outcome finite registry registered (by rfl) (by rfl)
        (fun object lt => by simp [Nat.ne_of_lt lt]) (by simp [SharedObject.construct])
        (by simp [SharedObject.construct]) (by rfl) budget

/-- A call returns its name's registered object, and an inject loads no library of its name. -/
theorem UniverseCall.run_outcome
    (finite : ∀ name, (openLibrary files name).isSome → name ∈ names) (call : UniverseCall)
    {u : LinkUniverse} (registry : Registry [] u) (budget : remaining names u < fuel) :
    Outcome (fun object u' => Requested [] call.name u object u' ∧
        ∀ name, call.injected? = some name → name ∉ u'.loadLog)
      (call.run files fuel u) := by
  cases call with
  | injectObjectFromDts name baseAddress dynamic =>
      refine (injectObjectFromDts_outcome finite name baseAddress dynamic registry budget).imp ?_
      rintro _ _ ⟨requested, unloaded⟩
      exact ⟨requested, fun _ same => by cases same; exact unloaded⟩
  | injectObjectFromPhdrs name phdrs entry dynamic =>
      refine (injectObjectFromPhdrs_outcome finite name phdrs entry dynamic registry budget).imp ?_
      rintro _ _ ⟨requested, unloaded⟩
      exact ⟨requested, fun _ same => by cases same; exact unloaded⟩
  | requestObjectWithName name =>
      exact (requestObjectWithName_outcome finite fuel name [] u registry budget).imp
        fun _ _ requested => ⟨requested, fun _ none => nomatch none⟩

/-- A run of calls keeps the invariant and registrations, and never loads an injected library. -/
theorem runUniverse_outcome
    (finite : ∀ name, (openLibrary files name).isSome → name ∈ names)
    (budget : names.length < fuel) :
    ∀ (calls : List UniverseCall) (injected : List (List UInt8)) (u : LinkUniverse), Registry [] u →
      (∀ name ∈ injected, u.nameMap name ≠ none ∧ name ∉ u.loadLog) →
      Outcome (fun objects u' => Registry [] u' ∧ Grows (fun _ => False) u u' ∧
          List.Forall₂ (fun call object => u'.Registered call.name object) calls objects ∧
          (∀ name ∈ injected, u'.nameMap name ≠ none ∧ name ∉ u'.loadLog) ∧
          ∀ call ∈ calls, ∀ name, call.injected? = some name →
            u'.nameMap name ≠ none ∧ name ∉ u'.loadLog)
        (runUniverse files fuel calls u)
  | [], _, u, registry, earlier => ⟨registry, Grows.refl _ u, .nil, earlier, nofun⟩
  | call :: calls, injected, u, registry, earlier => by
      rw [runUniverse]
      refine Outcome.bind
        (call.run_outcome finite registry (remaining_le_length.trans_lt budget)) ?_
      rintro object v ⟨⟨registry_v, found, grows⟩, unloaded⟩
      have this_call : ∀ name, call.injected? = some name →
          v.nameMap name ≠ none ∧ name ∉ v.loadLog := fun name same =>
        ⟨by cases call <;> cases same <;> exact Option.ne_none_iff_exists'.mpr ⟨_, found⟩,
          unloaded name same⟩
      refine Outcome.bind (runUniverse_outcome finite budget calls
        (injected ++ call.injected?.toList) v registry_v fun name member => ?_) ?_
      · rcases List.mem_append.mp member with early | late
        · obtain ⟨known, absent⟩ := earlier name early
          exact ⟨grows.nameMap_ne_none known, grows.not_mem_loadLog known absent⟩
        · exact this_call name (Option.mem_toList.mp late)
      · rintro objects u' ⟨registry', grows', matched, injected', later⟩
        refine ⟨registry', grows.trans grows' fun _ _ => id,
          .cons (grows'.registered _ _ found) matched,
          fun name member => injected' name (List.mem_append_left _ member), ?_⟩
        rintro other (_ | ⟨_, member⟩) name same
        · exact injected' name (List.mem_append_right _ (Option.mem_toList.mpr same))
        · exact later other member name same

/-- Over finitely many libraries every run ends, registering and loading no library twice. -/
theorem runUniverse_registers_libraries_once
    (finite : ∀ name, (openLibrary files name).isSome → name ∈ names) (budget : names.length < fuel)
    {before : List UniverseCall} {earlier : List Nat} {u : LinkUniverse}
    (reached : runUniverse files fuel before LinkUniverse.initial = .ok earlier u)
    (calls : List UniverseCall) :
    (∀ t, runUniverse files fuel calls u ≠ .error .outOfFuel t) ∧
    ∀ objects u', runUniverse files fuel calls u = .ok objects u' →
      (∀ name object, u.Registered name object → u'.Registered name object) ∧
      List.Forall₂ (fun call object => u'.Registered call.name object) calls objects ∧
      (∀ name other object, u'.Registered name object → u'.Registered other object → name = other) ∧
      u'.loadLog.Nodup ∧
      (∀ call ∈ before ++ calls, ∀ name, call.injected? = some name → name ∉ u'.loadLog) ∧
      (∀ name object, u'.Registered name object → ∃ d, (u'.objects object).dynamic = some d ∧
        List.Forall₂ u'.Registered d.needed (u'.objects object).dependencies) ∧
      ∀ name other, u'.nameMap name ≠ none → Relation.ReflTransGen u'.Needs name other →
        u'.nameMap other ≠ none := by
  have first := runUniverse_outcome finite budget before [] _ Registry.initial
    fun _ member => absurd member (List.not_mem_nil _)
  rw [reached] at first
  obtain ⟨registry, -, -, -, injected⟩ := first
  have second := runUniverse_outcome finite budget calls (before.filterMap UniverseCall.injected?) u
    registry fun name member => by
      obtain ⟨call, member, same⟩ := List.mem_filterMap.mp member
      exact injected call member name same
  refine ⟨fun t ran => by rw [ran] at second; exact second rfl, fun objects u' ran => ?_⟩
  rw [ran] at second
  obtain ⟨registry', grows, matched, earlier, unloaded⟩ := second
  refine ⟨grows.registered, matched, fun _ _ _ => registry'.name_eq_of_registered,
    registry'.log_nodup, fun call member name same => ?_, fun name object registered => ?_,
    fun _ _ => registry'.registered_of_needs⟩
  · rcases List.mem_append.mp member with early | late
    · exact (earlier name (List.mem_filterMap.mpr ⟨call, early, same⟩)).2
    · exact (unloaded call late name same).2
  · obtain ⟨d, dynamic, done, -, whole, matched⟩ := registry'.linked name object registered
    exact ⟨d, dynamic, whole (List.not_mem_nil _) ▸ matched⟩

end Runs

/-- A library with one `PT_LOAD` holding its dynamic section, which needs the library `other`. -/
def neighbourLibrary (other : UInt8) : LibraryFile :=
  ⟨[0x7F, 0x45, 0x4C, 0x46], etDyn,
    [⟨ptDynamic, pfR ||| pfW, 0x2000, 0x2000, 0x100, 0x100, 8⟩,
      ⟨ptLoad, pfR ||| pfX, 0, 0, 0x4000, 0x4000, 0x1000⟩],
    ⟨[(dtNeeded, 1), (dtStrtab, 0x3000)], [0, other, 0]⟩⟩

/-- Two libraries that need each other: `a` in `/lib/`, `b` in `/usr/lib/`. -/
def pairFiles (path : List UInt8) : Option LibraryFile :=
  if path = libPrefix ++ [0x61] then some (neighbourLibrary 0x62)
  else if path = usrPrefix ++ [0x62] then some (neighbourLibrary 0x61)
  else none

theorem pairFiles_isSome {path : List UInt8} (found : (pairFiles path).isSome) :
    path = libPrefix ++ [0x61] ∨ path = usrPrefix ++ [0x62] := by
  unfold pairFiles at found
  split_ifs at found with a b
  · exact .inl a
  · exact .inr b
  · cases found

theorem openLibrary_pairFiles (name : List UInt8) (found : (openLibrary pairFiles name).isSome) :
    name ∈ [[0x61], [0x62]] := by
  have apart : ∀ rest other, libPrefix ++ rest ≠ usrPrefix ++ other := by
    simp [libPrefix, usrPrefix]
  unfold openLibrary at found
  cases lib : pairFiles (libPrefix ++ name) with
  | some file =>
      rcases pairFiles_isSome (by simp [lib] : (pairFiles (libPrefix ++ name)).isSome) with
        same | other
      · simp [List.append_cancel_left same]
      · exact absurd other (apart _ _)
  | none =>
      rw [lib] at found
      rcases pairFiles_isSome found with other | same
      · exact absurd other.symm (apart _ _)
      · simp [List.append_cancel_left same]

/-- Requesting `a` of `pairFiles` loads `a` and then `b`, which needs `a` back. -/
theorem runUniverse_pairFiles_requests_a :
    ∃ u, runUniverse pairFiles 3 [.requestObjectWithName [0x61]] LinkUniverse.initial =
        .ok [0] u ∧ u.loadLog = [[0x61], [0x62]] ∧ u.Registered [0x61] 0 ∧ u.Registered [0x62] 1 ∧
      u.objectCount = 2 := by
  obtain ⟨u, run⟩ : ∃ u, runUniverse pairFiles 3 [.requestObjectWithName [0x61]]
      LinkUniverse.initial = .ok [0] u := ⟨_, rfl⟩
  refine ⟨u, run, ?_⟩
  cases run
  exact ⟨rfl, rfl, rfl, rfl⟩

theorem runUniverse_pairFiles_registers_libraries_once :
    (∀ name, (openLibrary pairFiles name).isSome → name ∈ [[0x61], [0x62]]) ∧
    [[0x61], [0x62]].length < 3 ∧
    runUniverse pairFiles 3 [] LinkUniverse.initial = .ok [] LinkUniverse.initial ∧
    ((∀ t, runUniverse pairFiles 3 [.requestObjectWithName [0x61]] LinkUniverse.initial ≠
        .error .outOfFuel t) ∧
      ∀ objects u', runUniverse pairFiles 3 [.requestObjectWithName [0x61]] LinkUniverse.initial =
          .ok objects u' →
        (∀ name object, LinkUniverse.initial.Registered name object → u'.Registered name object) ∧
        List.Forall₂ (fun (call : UniverseCall) object => u'.Registered call.name object)
          [.requestObjectWithName [0x61]] objects ∧
        (∀ name other object, u'.Registered name object → u'.Registered other object →
          name = other) ∧
        u'.loadLog.Nodup ∧
        (∀ call ∈ [] ++ [UniverseCall.requestObjectWithName [0x61]], ∀ name,
          call.injected? = some name → name ∉ u'.loadLog) ∧
        (∀ name object, u'.Registered name object → ∃ d, (u'.objects object).dynamic = some d ∧
          List.Forall₂ u'.Registered d.needed (u'.objects object).dependencies) ∧
        ∀ name other, u'.nameMap name ≠ none → Relation.ReflTransGen u'.Needs name other →
          u'.nameMap other ≠ none) :=
  ⟨openLibrary_pairFiles, by decide, rfl,
    runUniverse_registers_libraries_once openLibrary_pairFiles (by decide) (by rfl) _⟩

end LdInit
