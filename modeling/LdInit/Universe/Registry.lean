import LdInit.Universe.Elf

/-!
# The link universe

`requestObjectWithName` registers a library before it requests the libraries its `DT_NEEDED`
entries name, which stops the recursion on cyclic chains.
-/

namespace LdInit

/-- The fields of a `SharedObject` that `LinkUniverse` sets. -/
structure SharedObject where
  /-- `name`. -/
  name : List UInt8
  /-- `isMainObject`. -/
  isMainObject : Bool
  /-- `baseAddress`. -/
  baseAddress : Nat
  /-- `dynamic`, `none` for `nullptr`. -/
  dynamic : Option DynamicSection
  /-- The fields `_parseDynamic` sets. -/
  info : DynamicInfo
  /-- The fields a `PT_TLS` header sets. -/
  tls : TlsSegment
  /-- `entry`. -/
  entry : Nat
  /-- `dependencies`, by handle. -/
  dependencies : List Nat

/-- `SharedObject::SharedObject(name, is_main_object)`. -/
def SharedObject.construct (name : List UInt8) (isMainObject : Bool) : SharedObject :=
  ⟨name, isMainObject, 0, none, DynamicInfo.initial, TlsSegment.none, 0, []⟩

/-- `"/lib/"`. -/
def libPrefix : List UInt8 := [0x2F, 0x6C, 0x69, 0x62, 0x2F]

/-- `"/usr/lib/"`. -/
def usrPrefix : List UInt8 := [0x2F, 0x75, 0x73, 0x72, 0x2F, 0x6C, 0x69, 0x62, 0x2F]

/-- `LinkUniverse`: `_nameMap`, the objects, `libraryBase`, the mappings, the libraries loaded. -/
structure LinkUniverse where
  /-- `_nameMap`. -/
  nameMap : List UInt8 → Option Nat
  /-- The objects, by handle. -/
  objects : Nat → SharedObject
  /-- The number of objects constructed: the next handle. -/
  objectCount : Nat
  /-- `libraryBase`. -/
  libraryBase : Nat
  /-- The segments `_fetchFromFile` mapped. -/
  mappings : List SegmentMapping
  /-- The names `_fetchFromFile` loaded. -/
  loadLog : List (List UInt8)

namespace LinkUniverse

/-- The universe before any call: nothing registered, `libraryBase = 0x41000000`. -/
def initial : LinkUniverse := ⟨fun _ => none, fun _ => SharedObject.construct [] false, 0,
  0x41000000, [], []⟩

/-- Change the object `object`. -/
@[simps]
def setObject (u : LinkUniverse) (object : Nat) (f : SharedObject → SharedObject) : LinkUniverse :=
  { u with objects := Function.update u.objects object (f (u.objects object)) }

/-- `_nameMap.insert(name, object)`. -/
@[simps]
def register (u : LinkUniverse) (name : List UInt8) (object : Nat) : LinkUniverse :=
  { u with nameMap := Function.update u.nameMap name (some object) }

end LinkUniverse

section Registry

variable (files : List UInt8 → Option LibraryFile)

/-- `frigg::construct<SharedObject>(*allocator, name, is_main_object)`. -/
def constructObject (name : List UInt8) (isMainObject : Bool) : EStateM Abort LinkUniverse Nat :=
  modifyGet fun u => (u.objectCount,
    { u with
      objects := Function.update u.objects u.objectCount (SharedObject.construct name isMainObject)
      objectCount := u.objectCount + 1 })

/-- `posixOpen(lib_prefix + name)`, then `posixOpen(usr_prefix + name)`. -/
def openLibrary (name : List UInt8) : Option LibraryFile :=
  match files (libPrefix ++ name) with
  | some file => some file
  | none => files (usrPrefix ++ name)

/-- `LinkUniverse::_fetchFromFile`. -/
def fetchFromFile (object : Nat) (name : List UInt8) : EStateM Abort LinkUniverse Unit := do
  let base := (← get).libraryBase
  modify fun u => { u.setObject object ({ · with baseAddress := base }) with
    libraryBase := (base + 0x1000000) % 2 ^ 64, loadLog := u.loadLog ++ [name] }
  let some file := openLibrary files name | throw (.libraryNotFound name)
  let result ← EStateM.ofExcept (loadFile base file)
  modify fun u =>
    { u.setObject object ({ · with dynamic := result.dynamic, tls := result.tls }) with
    mappings := u.mappings ++ result.mappings }

/-- The program-header loop body of `_fetchFromPhdrs`, whose `PT_DYNAMIC` points to `dynamic`. -/
def fetchFromPhdrsStep (dynamic : DynamicSection) (object : SharedObject) (phdr : Elf64Phdr) :
    SharedObject :=
  if phdr.pType = ptDynamic then { object with dynamic := some dynamic }
  else if phdr.pType = ptTls then { object with tls := TlsSegment.ofPhdr object.baseAddress phdr }
  else object

/-- `LinkUniverse::_fetchFromPhdrs`: the main program's segments are mapped already. -/
def fetchFromPhdrs (object : Nat) (phdrs : List Elf64Phdr) (entry : Nat)
    (dynamic : DynamicSection) : EStateM Abort LinkUniverse Unit :=
  modify (·.setObject object fun o =>
    phdrs.foldl (fetchFromPhdrsStep dynamic) { o with entry := entry })

/-- `LinkUniverse::_parseDynamic`. -/
def parseObject (object : Nat) : EStateM Abort LinkUniverse Unit := do
  let o := (← get).objects object
  let info ← EStateM.ofExcept (parseDynamic o.baseAddress o.dynamic o.info)
  modify (·.setObject object ({ · with info := info }))

/-- The loop body of `_discoverDependencies`: request `name` and append it to the dependencies. -/
def discoverDependency (request : List UInt8 → EStateM Abort LinkUniverse Nat) (object : Nat)
    (name : List UInt8) : EStateM Abort LinkUniverse Unit := do
  let library ← request name
  modify (·.setObject object fun o => { o with dependencies := o.dependencies ++ [library] })

/-- `LinkUniverse::_discoverDependencies`, requesting each `DT_NEEDED` library with `request`. -/
def discoverDependencies (request : List UInt8 → EStateM Abort LinkUniverse Nat) (object : Nat) :
    EStateM Abort LinkUniverse Unit := do
  let names := (((← get).objects object).dynamic.map DynamicSection.needed).getD []
  names.forM (discoverDependency request object)

/-- `LinkUniverse::requestObjectWithName`, its recursion through `_discoverDependencies` bounded. -/
def requestObjectWithName : Nat → List UInt8 → EStateM Abort LinkUniverse Nat
  | 0, _ => throw .outOfFuel
  | fuel + 1, name => do
      match (← get).nameMap name with
      | some object => pure object
      | none =>
          let object ← constructObject name false
          fetchFromFile files object name
          parseObject object
          modify (·.register name object)
          discoverDependencies (requestObjectWithName fuel) object
          pure object

/-- `LinkUniverse::injectObjectFromDts`. -/
def injectObjectFromDts (fuel : Nat) (name : List UInt8) (baseAddress : Nat)
    (dynamic : DynamicSection) : EStateM Abort LinkUniverse Nat := do
  if ((← get).nameMap name).isSome then throw .duplicateObject
  let object ← constructObject name false
  modify (·.setObject object ({ · with baseAddress := baseAddress, dynamic := some dynamic }))
  parseObject object
  modify (·.register name object)
  discoverDependencies (requestObjectWithName files fuel) object
  pure object

/-- `LinkUniverse::injectObjectFromPhdrs`, its `PT_DYNAMIC` header pointing to `dynamic`. -/
def injectObjectFromPhdrs (fuel : Nat) (name : List UInt8) (phdrs : List Elf64Phdr) (entry : Nat)
    (dynamic : DynamicSection) : EStateM Abort LinkUniverse Nat := do
  if ((← get).nameMap name).isSome then throw .duplicateObject
  let object ← constructObject name true
  fetchFromPhdrs object phdrs entry dynamic
  parseObject object
  modify (·.register name object)
  discoverDependencies (requestObjectWithName files fuel) object
  pure object

end Registry

/-- A call a program makes on the link universe. -/
inductive UniverseCall where
  /-- `injectObjectFromDts(name, base_address, dynamic)`. -/
  | injectObjectFromDts (name : List UInt8) (baseAddress : Nat) (dynamic : DynamicSection)
  /-- `injectObjectFromPhdrs(name, ...)`, its `PT_DYNAMIC` header pointing to `dynamic`. -/
  | injectObjectFromPhdrs (name : List UInt8) (phdrs : List Elf64Phdr) (entry : Nat)
      (dynamic : DynamicSection)
  /-- `requestObjectWithName(name)`. -/
  | requestObjectWithName (name : List UInt8)

namespace UniverseCall

/-- The name a call registers or asks for. -/
def name : UniverseCall → List UInt8
  | injectObjectFromDts name .. => name
  | injectObjectFromPhdrs name .. => name
  | requestObjectWithName name => name

/-- The name a call injects, if it injects one. -/
def injected? : UniverseCall → Option (List UInt8)
  | injectObjectFromDts name .. => some name
  | injectObjectFromPhdrs name .. => some name
  | requestObjectWithName _ => none

/-- One call. -/
def run (files : List UInt8 → Option LibraryFile) (fuel : Nat) :
    UniverseCall → EStateM Abort LinkUniverse Nat
  | injectObjectFromDts name base dynamic => LdInit.injectObjectFromDts files fuel name base dynamic
  | injectObjectFromPhdrs name phdrs entry dynamic =>
      LdInit.injectObjectFromPhdrs files fuel name phdrs entry dynamic
  | requestObjectWithName name => LdInit.requestObjectWithName files fuel name

end UniverseCall

/-- A sequence of calls, returning what each call returned. -/
def runUniverse (files : List UInt8 → Option LibraryFile) (fuel : Nat) :
    List UniverseCall → EStateM Abort LinkUniverse (List Nat)
  | [] => pure []
  | call :: calls => do
      let object ← call.run files fuel
      let objects ← runUniverse files fuel calls
      pure (object :: objects)

/-! ## Runs that end -/

/-- A run ending in a state and result meeting `post`, or aborting on a check, not out of fuel. -/
def Outcome {α : Type} (post : α → LinkUniverse → Prop) :
    EStateM.Result Abort LinkUniverse α → Prop
  | .ok a u => post a u
  | .error e _ => e ≠ .outOfFuel

namespace Outcome

variable {α β : Type} {post : α → LinkUniverse → Prop}

theorem bind {x : EStateM Abort LinkUniverse α} {f : α → EStateM Abort LinkUniverse β}
    {post' : β → LinkUniverse → Prop} {u : LinkUniverse} (first : Outcome post (x u))
    (rest : ∀ a v, post a v → Outcome post' (f a v)) : Outcome post' ((x >>= f) u) := by
  cases run : x u with
  | ok a v =>
      rw [EStateM.bind_of_ok run]
      rw [run] at first
      exact rest a v first
  | error e v =>
      rw [EStateM.bind_of_error run]
      rwa [run] at first

theorem of_ok {a : α} {u : LinkUniverse} (holds : post a u) : Outcome post (.ok a u) := holds

theorem of_error {e : Abort} {u : LinkUniverse} (other : e ≠ .outOfFuel) :
    Outcome post (.error e u) := other

theorem imp {post' : α → LinkUniverse → Prop} {r : EStateM.Result Abort LinkUniverse α}
    (holds : Outcome post r) (weaker : ∀ a u, post a u → post' a u) : Outcome post' r := by
  cases r with
  | ok a u => exact weaker a u holds
  | error e u => exact holds

end Outcome

section Steps

variable (files : List UInt8 → Option LibraryFile)

theorem constructObject_apply (name : List UInt8) (isMainObject : Bool) (u : LinkUniverse) :
    constructObject name isMainObject u = .ok u.objectCount
      { u with
        objects :=
          Function.update u.objects u.objectCount (SharedObject.construct name isMainObject)
        objectCount := u.objectCount + 1 } := rfl

/-- `_fetchFromFile` opens a library of the universe and logs its name, or aborts on a check. -/
theorem fetchFromFile_outcome (object : Nat) (name : List UInt8) (u : LinkUniverse) :
    Outcome (fun _ u' => ∃ (file : LibraryFile) (result : FetchResult),
      openLibrary files name = some file ∧
      u' = { u.setObject object fun o => { o with
                baseAddress := u.libraryBase, dynamic := result.dynamic, tls := result.tls } with
              libraryBase := (u.libraryBase + 0x1000000) % 2 ^ 64
              mappings := u.mappings ++ result.mappings
              loadLog := u.loadLog ++ [name] })
      (fetchFromFile files object name u) := by
  cases found : openLibrary files name with
  | none => simp [fetchFromFile, found, Outcome]
  | some file =>
      cases loaded : loadFile u.libraryBase file with
      | error e =>
          simp only [fetchFromFile, found, loaded, EStateM.get_bind_apply,
            EStateM.modify_bind_apply, EStateM.ofExcept_error, EStateM.throw_bind_apply]
          exact fun same => loadFile_ne_outOfFuel _ file (same ▸ loaded)
      | ok result =>
          simp only [fetchFromFile, EStateM.get_bind_apply, EStateM.modify_bind_apply, found,
            loaded, EStateM.ofExcept_ok, pure_bind, EStateM.modify_apply]
          refine ⟨file, result, rfl, ?_⟩
          simp [LinkUniverse.setObject]

/-- A returning `_fetchFromFile` opened a library, mapped it at `libraryBase` and logged it. -/
theorem fetchFromFile_of_ok {object : Nat} {name : List UInt8} {u u' : LinkUniverse}
    (run : fetchFromFile files object name u = .ok ⟨⟩ u') :
    ∃ (file : LibraryFile) (result : FetchResult), openLibrary files name = some file ∧
      loadFile u.libraryBase file = .ok result ∧
      u' = { u.setObject object fun o => { o with
                baseAddress := u.libraryBase, dynamic := result.dynamic, tls := result.tls } with
              libraryBase := (u.libraryBase + 0x1000000) % 2 ^ 64
              mappings := u.mappings ++ result.mappings
              loadLog := u.loadLog ++ [name] } := by
  cases found : openLibrary files name with
  | none => simp [fetchFromFile, found] at run
  | some file =>
      cases loaded : loadFile u.libraryBase file with
      | error e => simp [fetchFromFile, found, loaded] at run
      | ok result =>
          simp only [fetchFromFile, EStateM.get_bind_apply, EStateM.modify_bind_apply, found,
            loaded, EStateM.ofExcept_ok, pure_bind, EStateM.modify_apply] at run
          cases run
          exact ⟨file, result, rfl, loaded, by simp [LinkUniverse.setObject]⟩

/-- `_parseDynamic` records the object's dynamic section, or aborts on a check; it needs one. -/
theorem parseObject_outcome (object : Nat) (u : LinkUniverse) :
    Outcome (fun _ u' => ∃ d info, (u.objects object).dynamic = some d ∧
      u' = u.setObject object ({ · with info := info }))
      (parseObject object u) := by
  cases parsed : parseDynamic (u.objects object).baseAddress (u.objects object).dynamic
    (u.objects object).info with
  | error e =>
      simp only [parseObject, parsed, EStateM.get_bind_apply, EStateM.ofExcept_error,
        EStateM.throw_bind_apply]
      exact fun same => parseDynamic_ne_outOfFuel _ _ _ (same ▸ parsed)
  | ok info =>
      cases dynamic : (u.objects object).dynamic with
      | none => simp [parseDynamic, dynamic] at parsed
      | some d =>
          simp only [parseObject, EStateM.get_bind_apply, parsed, EStateM.ofExcept_ok, pure_bind,
            EStateM.modify_apply]
          exact ⟨d, info, rfl, rfl⟩

theorem requestObjectWithName_of_some {fuel : Nat} {name : List UInt8} {u : LinkUniverse}
    {object : Nat} (registered : u.nameMap name = some object) :
    requestObjectWithName files (fuel + 1) name u = .ok object u := by
  simp [requestObjectWithName, registered]

theorem requestObjectWithName_of_none {fuel : Nat} {name : List UInt8} {u : LinkUniverse}
    (absent : u.nameMap name = none) :
    requestObjectWithName files (fuel + 1) name u =
      (do
        fetchFromFile files u.objectCount name
        parseObject u.objectCount
        modify (·.register name u.objectCount)
        discoverDependencies (requestObjectWithName files fuel) u.objectCount
        pure u.objectCount : EStateM Abort LinkUniverse Nat)
      { u with
        objects := Function.update u.objects u.objectCount (SharedObject.construct name false)
        objectCount := u.objectCount + 1 } := by
  simp only [requestObjectWithName, EStateM.get_bind_apply, absent]
  exact EStateM.bind_of_ok (constructObject_apply name false u)

theorem discoverDependencies_apply (request : List UInt8 → EStateM Abort LinkUniverse Nat)
    (object : Nat) (u : LinkUniverse) :
    discoverDependencies request object u =
      (((u.objects object).dynamic.map DynamicSection.needed).getD []).forM
        (discoverDependency request object) u := rfl

theorem discoverDependency_of_ok {request : List UInt8 → EStateM Abort LinkUniverse Nat}
    (object : Nat) {name : List UInt8} {u v : LinkUniverse} {library : Nat}
    (run : request name u = .ok library v) :
    discoverDependency request object name u =
      .ok ⟨⟩
        (v.setObject object fun o => { o with dependencies := o.dependencies ++ [library] }) := by
  simp only [discoverDependency]
  rw [EStateM.bind_of_ok run, EStateM.modify_apply]

@[simp]
theorem foldl_fetchFromPhdrsStep_name (dynamic : DynamicSection) :
    ∀ (phdrs : List Elf64Phdr) (object : SharedObject),
      (phdrs.foldl (fetchFromPhdrsStep dynamic) object).name = object.name
  | [], _ => rfl
  | phdr :: phdrs, object => by
      rw [List.foldl_cons, foldl_fetchFromPhdrsStep_name dynamic phdrs]
      unfold fetchFromPhdrsStep
      split_ifs <;> rfl

@[simp]
theorem foldl_fetchFromPhdrsStep_dependencies (dynamic : DynamicSection) :
    ∀ (phdrs : List Elf64Phdr) (object : SharedObject),
      (phdrs.foldl (fetchFromPhdrsStep dynamic) object).dependencies = object.dependencies
  | [], _ => rfl
  | phdr :: phdrs, object => by
      rw [List.foldl_cons, foldl_fetchFromPhdrsStep_dependencies dynamic phdrs]
      unfold fetchFromPhdrsStep
      split_ifs <;> rfl

theorem injectObjectFromDts_of_some {fuel : Nat} {name : List UInt8} {baseAddress : Nat}
    {dynamic : DynamicSection} {u : LinkUniverse} {object : Nat}
    (registered : u.nameMap name = some object) :
    injectObjectFromDts files fuel name baseAddress dynamic u = .error .duplicateObject u := by
  simp [injectObjectFromDts, registered]

theorem injectObjectFromDts_of_none {fuel : Nat} {name : List UInt8} {baseAddress : Nat}
    {dynamic : DynamicSection} {u : LinkUniverse} (absent : u.nameMap name = none) :
    injectObjectFromDts files fuel name baseAddress dynamic u =
      (do
        parseObject u.objectCount
        modify (·.register name u.objectCount)
        discoverDependencies (requestObjectWithName files fuel) u.objectCount
        pure u.objectCount : EStateM Abort LinkUniverse Nat)
      (LinkUniverse.setObject
        { u with
          objects := Function.update u.objects u.objectCount (SharedObject.construct name false)
          objectCount := u.objectCount + 1 }
        u.objectCount ({ · with baseAddress := baseAddress, dynamic := some dynamic })) := by
  simp only [injectObjectFromDts, EStateM.get_bind_apply, absent, Option.isSome_none]
  rfl

theorem injectObjectFromPhdrs_of_some {fuel : Nat} {name : List UInt8} {phdrs : List Elf64Phdr}
    {entry : Nat} {dynamic : DynamicSection} {u : LinkUniverse} {object : Nat}
    (registered : u.nameMap name = some object) :
    injectObjectFromPhdrs files fuel name phdrs entry dynamic u = .error .duplicateObject u := by
  simp [injectObjectFromPhdrs, registered]

theorem injectObjectFromPhdrs_of_none {fuel : Nat} {name : List UInt8} {phdrs : List Elf64Phdr}
    {entry : Nat} {dynamic : DynamicSection} {u : LinkUniverse} (absent : u.nameMap name = none) :
    injectObjectFromPhdrs files fuel name phdrs entry dynamic u =
      (do
        parseObject u.objectCount
        modify (·.register name u.objectCount)
        discoverDependencies (requestObjectWithName files fuel) u.objectCount
        pure u.objectCount : EStateM Abort LinkUniverse Nat)
      (LinkUniverse.setObject
        { u with
          objects := Function.update u.objects u.objectCount (SharedObject.construct name true)
          objectCount := u.objectCount + 1 }
        u.objectCount fun o =>
          phdrs.foldl (fetchFromPhdrsStep dynamic) { o with entry := entry }) := by
  simp only [injectObjectFromPhdrs, EStateM.get_bind_apply, absent, Option.isSome_none]
  rfl

end Steps

end LdInit
