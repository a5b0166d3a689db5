import LdInit.Loader.Relocate

/-!
# Copy relocations

`processCopyRelocations` copies the symbol of each `R_X86_64_COPY` record from its definition in
another object of the load scope; memory is not modelled, the pass records its copies in order.
-/

namespace LdInit

/-- How the copy pass stops. -/
inductive CopyAbort where
  /-- `assert(p)` in `processCopyRela`: no other object of the load scope defines the symbol. -/
  | unresolvedCopySymbol
  /-- An abort in code shared with the loader: a table read, the dynamic scan, symbol resolution. -/
  | loader (e : Abort)

/-- Code of the loader, run in the copy pass. -/
def CopyAbort.lift {σ α : Type} (x : Except Abort α) : EStateM CopyAbort σ α :=
  match x with
  | .ok a => pure a
  | .error e => throw (.loader e)

/-- The `memcpy(rel_addr, p->virtualAddress(), symbol->st_size)` of a copy relocation. -/
structure SymbolCopy where
  /-- `rel_addr`. -/
  destination : Nat
  /-- `p->virtualAddress()`. -/
  source : Nat
  /-- `*symbol`, the symbol of the record; the bytes copied, `st_size` of them, are not modelled. -/
  symbol : Elf64Sym
  deriving DecidableEq, Repr

section CopyPass

variable (images : Nat → ObjectImage) (fuel : Nat)

/-- `processCopyRela`, on the record `reloc` of `object`, whose `loadScope` is `scope`. -/
def processCopyRela (scope : Scope) (object : Nat) (reloc : Elf64Rela) :
    EStateM CopyAbort (List SymbolCopy) Unit := do
  let type := elf64RType reloc.rInfo
  let symbolIndex := elf64RSym reloc.rInfo
  if type ≠ rX86_64Copy then return
  let relAddr := ((images object).baseAddress + reloc.rOffset) % 2 ^ 64
  let symbol ← CopyAbort.lift (readAt (images object).symbolTable symbolIndex)
  let r : SymbolRef := ⟨object, symbol⟩
  let some p ← CopyAbort.lift (scope.resolveSymbol images fuel r true)
    | throw .unresolvedCopySymbol
  let address ← CopyAbort.lift (p.virtualAddress images)
  modify (· ++ [⟨relAddr, address, symbol⟩])

/-- `processCopyRelocations`: the dynamic scan of the static pass, then `processCopyRela`. -/
def processCopyRelocations (source : RelocationSource) (object : Nat) :
    EStateM CopyAbort (List SymbolCopy) Unit := do
  let (relaOffset, relaLength) ←
    CopyAbort.lift (source.dynamic.foldlM scanRelaEntry (none, none))
  match relaOffset, relaLength with
  | some relaOffset, some relaLength =>
      (recordOffsets relaLength).forM fun offset => do
        let reloc ← CopyAbort.lift (source.readRecord (relaOffset + offset))
        processCopyRela images fuel source.loadScope object reloc
  | none, none => pure ()
  | _, _ => throw (.loader .relaTableIncomplete)

end CopyPass

/-! ## Where the copies go, and where they come from -/

/-- Where `processCopyRela` copies for a record: at its site, if it is a copy relocation. -/
def copySites (base : Nat) (reloc : Elf64Rela) : List Nat :=
  if elf64RType reloc.rInfo = rX86_64Copy then [relocationSite base reloc] else []

/-- The copy `c` for a record of `object` comes from a definition in another object of `scope`. -/
def CopiedFrom (images : Nat → ObjectImage) (scope : Scope) (object : Nat) (c : SymbolCopy) :
    Prop :=
  c.symbol ∈ (images object).symbolTable ∧
    ∃ p : SymbolRef, p.object ∈ scope.objects ∧ p.object ≠ object ∧
      p.symbol ∈ (images p.object).symbolTable ∧
      Defines images p.object p.symbol ⟨object, c.symbol⟩ ∧
      c.source = ((images p.object).baseAddress + p.symbol.stValue) % 2 ^ 64

/-- Every `ok` run of `x` appends copies to the addresses `sites`, in order, each `valid`. -/
def CopiesTo {α : Type} (valid : SymbolCopy → Prop) (sites : List Nat)
    (x : EStateM CopyAbort (List SymbolCopy) α) : Prop :=
  ∀ s a t, x s = .ok a t →
    ∃ copies, t = s ++ copies ∧ copies.map SymbolCopy.destination = sites ∧ ∀ c ∈ copies, valid c

namespace CopiesTo

variable {α β : Type} {valid : SymbolCopy → Prop} {sites sites' : List Nat}

theorem of_pure (a : α) : CopiesTo valid [] (pure a) := by
  rintro s _ t ⟨⟩
  exact ⟨[], (List.append_nil _).symm, rfl, nofun⟩

theorem of_throw (e : CopyAbort) : CopiesTo valid sites (throw e : EStateM _ _ α) :=
  fun _ _ _ run => nomatch run

/-- A sequence copies where its first part copies and then where the rest does. -/
theorem bind {x : EStateM CopyAbort (List SymbolCopy) α}
    {f : α → EStateM CopyAbort (List SymbolCopy) β} (first : CopiesTo valid sites x)
    (rest : ∀ a, CopiesTo valid sites' (f a)) : CopiesTo valid (sites ++ sites') (x >>= f) := by
  intro s b t run
  obtain ⟨a, u, run₁, run₂⟩ := EStateM.bind_eq_ok run
  obtain ⟨copies, rfl, at_sites, each⟩ := first s a u run₁
  obtain ⟨copies', rfl, at_sites', each'⟩ := rest a _ b t run₂
  refine ⟨copies ++ copies', List.append_assoc _ _ _, by simp [at_sites, at_sites'], ?_⟩
  simpa only [List.mem_append] using fun c => Or.rec (each c) (each' c)

/-- A step of loader code: only its `ok` result goes on. -/
theorem lift_bind {x : Except Abort α} {f : α → EStateM CopyAbort (List SymbolCopy) β}
    (rest : ∀ a, x = .ok a → CopiesTo valid sites (f a)) :
    CopiesTo valid sites (CopyAbort.lift x >>= f) := by
  cases x with
  | error e => exact fun _ _ _ run => nomatch run
  | ok a => exact rest a rfl

/-- A loop copies, in order, where each of its iterations copies. -/
theorem forM {γ : Type} {sitesOf : γ → List Nat}
    {f : γ → EStateM CopyAbort (List SymbolCopy) PUnit} :
    (xs : List γ) → (∀ x ∈ xs, CopiesTo valid (sitesOf x) (f x)) →
      CopiesTo valid (xs.flatMap sitesOf) (xs.forM f)
  | [], _ => of_pure _
  | x :: xs, each => by
      rw [List.forM_cons', List.flatMap_cons]
      exact bind (each x (List.mem_cons_self _ _)) fun _ =>
        forM xs fun y member => each y (List.mem_cons_of_mem _ member)

end CopiesTo

section Copies

variable {images : Nat → ObjectImage} {fuel : Nat}

/-- `processCopyRela` copies once to a copy record's site, from another object's definition. -/
theorem processCopyRela_copiesTo (scope : Scope) (object : Nat) (reloc : Elf64Rela) :
    CopiesTo (CopiedFrom images scope object) (copySites (images object).baseAddress reloc)
      (processCopyRela images fuel scope object reloc) := by
  unfold processCopyRela copySites
  dsimp only
  by_cases copy : elf64RType reloc.rInfo = rX86_64Copy
  · rw [if_neg (not_not_intro copy), if_pos copy]
    refine CopiesTo.lift_bind fun symbol read => CopiesTo.lift_bind fun found resolved => ?_
    cases found with
    | none => exact CopiesTo.of_throw _
    | some p =>
        obtain ⟨member, other, entry, defines⟩ := resolveIn_sound _ resolved
        refine CopiesTo.lift_bind fun address located => ?_
        rw [virtualAddress_of_defines defines, Except.ok.injEq] at located
        rintro s _ t ⟨⟩
        refine ⟨[_], rfl, rfl, ?_⟩
        intro c copied
        rw [List.mem_singleton.mp copied]
        exact ⟨mem_of_readAt read, p, member, other rfl, entry, defines, located.symm⟩
  · rw [if_pos copy, if_neg copy]
    exact CopiesTo.of_pure _

/-- `processCopyRelocations` copies to the sites of the copy records, once each, in order. -/
theorem processCopyRelocations_copiesTo (source : RelocationSource) (object : Nat) :
    CopiesTo (CopiedFrom images source.loadScope object)
      (source.relaRecords.flatMap (copySites (images object).baseAddress))
      (processCopyRelocations images fuel source object) := by
  unfold processCopyRelocations RelocationSource.relaRecords
  refine CopiesTo.lift_bind fun found scan => ?_
  rw [scan]
  obtain ⟨_ | offset, _ | length⟩ := found
  · exact CopiesTo.of_pure _
  · exact CopiesTo.of_throw _
  · exact CopiesTo.of_throw _
  · show CopiesTo _ (((recordOffsets length).filterMap fun o => source.records (offset + o)).flatMap
      (copySites (images object).baseAddress)) ((recordOffsets length).forM fun o => _)
    rw [List.filterMap_eq_flatMap_toList, List.flatMap_assoc]
    refine CopiesTo.forM _ fun o _ => CopiesTo.lift_bind fun reloc read => ?_
    rw [RelocationSource.records_of_readRecord read, Option.toList_some, List.flatMap_singleton]
    exact processCopyRela_copiesTo source.loadScope object reloc

end Copies

/-- An `ok` copy pass copies once to each copy record's site, from a definition elsewhere. -/
theorem processCopyRelocations_copies_from_definitions (images : Nat → ObjectImage) (fuel : Nat)
    (source : RelocationSource) (object : Nat) (s t : List SymbolCopy)
    (run : processCopyRelocations images fuel source object s = .ok ⟨⟩ t) :
    ∃ copies, t = s ++ copies ∧
      copies.map SymbolCopy.destination =
        source.relaRecords.flatMap (copySites (images object).baseAddress) ∧
      ∀ c ∈ copies, CopiedFrom images source.loadScope object c :=
  processCopyRelocations_copiesTo source object s ⟨⟩ t run

/-- An executable `0` with a copy record for `a`, which it defines, over the library `namedPair`. -/
def copyExecutable : Nat → ObjectImage
  | 0 => ⟨0x400000, [0, 0x61, 0], [⟨0, 0, 0, 0⟩, ⟨1, 0x10, 1, 0x20⟩], []⟩
  | _ => namedPair

/-- The `DT_RELA` table of `copyExecutable`: a copy record at `0x10`, a relative one at `0x18`. -/
def copyRecord : RelocationSource where
  loadScope := ⟨[0, 1]⟩
  dynamic := [(dtRela, 0), (dtRelasz, 48)]
  info := DynamicInfo.initial
  records := fun offset =>
    if offset = 0 then some ⟨0x10, 0x100000005, 0⟩
    else if offset = 24 then some ⟨0x18, rX86_64Relative, 0x30⟩ else none

theorem processCopyRelocations_copyRecord_copies_from_definitions :
    processCopyRelocations copyExecutable 3 copyRecord 0 [] =
        .ok ⟨⟩ [⟨0x400010, 0x41000010, ⟨1, 0x10, 1, 0x20⟩⟩] ∧
      ∃ copies, [⟨0x400010, 0x41000010, ⟨1, 0x10, 1, 0x20⟩⟩] = [] ++ copies ∧
        copies.map SymbolCopy.destination =
          copyRecord.relaRecords.flatMap (copySites (copyExecutable 0).baseAddress) ∧
        ∀ c ∈ copies, CopiedFrom copyExecutable copyRecord.loadScope 0 c :=
  ⟨rfl, processCopyRelocations_copies_from_definitions copyExecutable 3 copyRecord 0 [] _ rfl⟩

/-! ## The two passes over one table -/

end LdInit
