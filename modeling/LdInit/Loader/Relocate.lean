import LdInit.Symbol.Resolve
import LdInit.Tls
import LdInit.Universe.Elf

/-!
# Relocations

`processStaticRelocations` and `processLazyRelocations` apply an object's `DT_RELA` and `DT_JMPREL`
records, resolving their symbols in its load scope; the passes record their stores in order.
-/

namespace LdInit

/-- The fields of an `Elf64_Rela`. -/
structure Elf64Rela where
  /-- `r_offset`. -/
  rOffset : Nat
  /-- `r_info`: the symbol index in the high 32 bits, the type in the low 32. -/
  rInfo : Nat
  /-- `r_addend`, an `Elf64_Sxword`, as its 64-bit two's-complement word. -/
  rAddend : Nat
  deriving DecidableEq, Repr

/-- `ELF64_R_TYPE` of `<elf.h>`. -/
def elf64RType (info : Nat) : Nat := info &&& 0xffffffff

/-- `ELF64_R_SYM` of `<elf.h>`. -/
def elf64RSym (info : Nat) : Nat := info >>> 32

/-- `R_X86_64_64` of `<elf.h>`. -/
def rX86_64_64 : Nat := 1
/-- `R_X86_64_COPY` of `<elf.h>`. -/
def rX86_64Copy : Nat := 5
/-- `R_X86_64_GLOB_DAT` of `<elf.h>`. -/
def rX86_64GlobDat : Nat := 6
/-- `R_X86_64_JUMP_SLOT` of `<elf.h>`. -/
def rX86_64JumpSlot : Nat := 7
/-- `R_X86_64_RELATIVE` of `<elf.h>`. -/
def rX86_64Relative : Nat := 8
/-- `R_X86_64_DTPMOD64` of `<elf.h>`. -/
def rX86_64Dtpmod64 : Nat := 16
/-- `R_X86_64_DTPOFF64` of `<elf.h>`. -/
def rX86_64Dtpoff64 : Nat := 17
/-- `R_X86_64_TPOFF64` of `<elf.h>`. -/
def rX86_64Tpoff64 : Nat := 18

/-- The global `verbose`. -/
def verbose : Bool := true

/-- The global `eagerBinding`. -/
def eagerBinding : Bool := true

/-- A store the relocation passes make to a 64-bit word of memory. -/
inductive Store where
  /-- `*((uint64_t *)address) = value`. -/
  | write (address value : Nat)
  /-- `*((uint64_t *)address) += value`. -/
  | add (address value : Nat)
  deriving DecidableEq, Repr

/-- The log lines of the relocation passes, with the symbol's name and the object, by handle. -/
inductive RelocationLog where
  /-- `"Unresolved weak load-time symbol "` in `Loader::processRela`. -/
  | unresolvedWeakLoadTime (name : List UInt8) (object : Nat)
  /-- `"Unresolved weak JUMP_SLOT symbol "` in `Loader::processLazyRelocations`. -/
  | unresolvedWeakJumpSlot (name : List UInt8) (object : Nat)
  deriving DecidableEq, Repr

/-- What the relocation passes leave: their stores, in order, and their log lines. -/
structure Relocations where
  /-- The stores. -/
  stores : List Store
  /-- The log lines. -/
  log : List RelocationLog
  deriving DecidableEq, Repr

namespace Relocations

/-- Make the store `store`. -/
@[simps]
def push (s : Relocations) (store : Store) : Relocations := { s with stores := s.stores ++ [store] }

/-- Print the log line `line`. -/
@[simps]
def addLog (s : Relocations) (line : RelocationLog) : Relocations :=
    { s with log := s.log ++ [line] }

end Relocations

/-- What the relocation passes read of an object besides its symbol and string tables. -/
structure RelocationSource where
  /-- `loadScope`. -/
  loadScope : Scope
  /-- The entries of the dynamic section. -/
  dynamic : List (Int × Nat)
  /-- `globalOffsetTable`, `lazyRelocTableOffset`, `lazyTableSize`, `lazyExplicitAddend`. -/
  info : DynamicInfo
  /-- The record at each offset, `none` where there is none to read. -/
  records : Nat → Option Elf64Rela

section Relocation

variable (images : Nat → ObjectImage) (tls : Nat → TlsObject) (fuel : Nat)

/-- The record at `offset` from the object's base: reading memory that holds none is undefined. -/
def RelocationSource.readRecord (source : RelocationSource) (offset : Nat) :
    Except Abort Elf64Rela :=
  match source.records offset with
  | some reloc => pure reloc
  | none => throw .outOfBounds

/-- `loadScope->resolveSymbol(r, 0)`: a missing symbol aborts with `unresolved` unless weak. -/
def resolveRelocationSymbol (unresolved : List UInt8 → Abort)
    (logLine : List UInt8 → Nat → RelocationLog) (scope : Scope) (object symbolIndex : Nat) :
    EStateM Abort Relocations (Option SymbolRef) := do
  let symbol ← EStateM.ofExcept (readAt (images object).symbolTable symbolIndex)
  let r : SymbolRef := ⟨object, symbol⟩
  let p ← EStateM.ofExcept (scope.resolveSymbol images fuel r false)
  if p.isNone then
    if elf64StBind symbol.stInfo ≠ stbWeak then
      throw (unresolved (cString (← EStateM.ofExcept (r.getString images))))
    if verbose then
      let name ← EStateM.ofExcept (r.getString images)
      modify (·.addLog (logLine (cString name) object))
  pure p

/-- `p ? p->virtualAddress() : 0`. -/
def symbolAddress (p : Option SymbolRef) : EStateM Abort Relocations Nat :=
  match p with
  | some p => EStateM.ofExcept (p.virtualAddress images)
  | none => pure 0

/-- The `switch(type)` of `Loader::processRela` on `reloc`, whose symbol resolved to `p`. -/
def applyRela (object : Nat) (reloc : Elf64Rela) (p : Option SymbolRef) :
    EStateM Abort Relocations Unit := do
  let type := elf64RType reloc.rInfo
  let symbolIndex := elf64RSym reloc.rInfo
  let relAddr := ((images object).baseAddress + reloc.rOffset) % 2 ^ 64
  if type = rX86_64_64 then
    if symbolIndex = 0 then throw .relocationWithoutSymbol
    let symbolAddr ← symbolAddress images p
    modify (·.push (.write relAddr ((symbolAddr + reloc.rAddend) % 2 ^ 64)))
  else if type = rX86_64GlobDat then
    if symbolIndex = 0 then throw .relocationWithoutSymbol
    if reloc.rAddend ≠ 0 then throw .relocationAddend
    let symbolAddr ← symbolAddress images p
    modify (·.push (.write relAddr symbolAddr))
  else if type = rX86_64Relative then
    if symbolIndex ≠ 0 then throw .relocationWithSymbol
    modify (·.push (.write relAddr (((images object).baseAddress + reloc.rAddend) % 2 ^ 64)))
  else if type = rX86_64Dtpmod64 then
    if reloc.rAddend ≠ 0 then throw .relocationAddend
    if symbolIndex ≠ 0 then
      let some p := p | throw .unresolvedTlsSymbol
      modify (·.push (.write relAddr p.object))
    else modify (·.push (.write relAddr object))
  else if type = rX86_64Dtpoff64 then
    let some p := p | throw .unresolvedTlsSymbol
    if reloc.rAddend ≠ 0 then throw .relocationAddend
    modify (·.push (.write relAddr p.symbol.stValue))
  else if type = rX86_64Tpoff64 then
    let some p := p | throw .unresolvedTlsSymbol
    if reloc.rAddend ≠ 0 then throw .relocationAddend
    if (tls p.object).tlsModel ≠ .initial then throw .tlsModelNotInitial
    modify (·.push (.write relAddr
      (((tls p.object).tlsOffset + p.symbol.stValue) % 2 ^ 64).toNat))
  else throw (.unexpectedRelocationType type)

/-- `Loader::processRela`: copy records wait; others resolve their symbol, if any, and store. -/
def processRela (scope : Scope) (object : Nat) (reloc : Elf64Rela) :
    EStateM Abort Relocations Unit := do
  let type := elf64RType reloc.rInfo
  let symbolIndex := elf64RSym reloc.rInfo
  if type = rX86_64Copy then return
  let p ← if symbolIndex ≠ 0 then
      resolveRelocationSymbol images fuel .unresolvedLoadTimeSymbol .unresolvedWeakLoadTime scope
        object symbolIndex
    else pure none
  applyRela images tls object reloc p

/-- The dynamic-section loop body of `processStaticRelocations`: the `DT_RELA*` entries. -/
def scanRelaEntry (found : Option Nat × Option Nat) (entry : Int × Nat) :
    Except Abort (Option Nat × Option Nat) :=
  if entry.1 = dtRela then pure (some entry.2, found.2)
  else if entry.1 = dtRelasz then pure (found.1, some entry.2)
  else if entry.1 = dtRelaent then
    if entry.2 = 24 then pure found else throw .relaEntrySize
  else pure found

/-- The offsets of the records of a table of `length` bytes, in the order the loops visit them. -/
def recordOffsets (length : Nat) : List Nat := (List.range ((length + 23) / 24)).map (24 * ·)

/-- `Loader::processStaticRelocations`. -/
def processStaticRelocations (source : RelocationSource) (object : Nat) :
    EStateM Abort Relocations Unit := do
  let (relaOffset, relaLength) ← EStateM.ofExcept (source.dynamic.foldlM scanRelaEntry (none, none))
  match relaOffset, relaLength with
  | some relaOffset, some relaLength =>
      (recordOffsets relaLength).forM fun offset => do
        let reloc ← EStateM.ofExcept (source.readRecord (relaOffset + offset))
        processRela images tls fuel source.loadScope object reloc
  | none, none => pure ()
  | _, _ => throw .relaTableIncomplete

/-- The body of the loop of `Loader::processLazyRelocations`, on the record `reloc` of `object`. -/
def bindJumpSlot (scope : Scope) (object : Nat) (reloc : Elf64Rela) :
    EStateM Abort Relocations Unit := do
  let type := elf64RType reloc.rInfo
  let symbolIndex := elf64RSym reloc.rInfo
  let relAddr := ((images object).baseAddress + reloc.rOffset) % 2 ^ 64
  if type ≠ rX86_64JumpSlot then throw .notJumpSlot
  if eagerBinding then
    match ← resolveRelocationSymbol images fuel .unresolvedJumpSlotSymbol .unresolvedWeakJumpSlot
        scope object symbolIndex with
    | none => modify (·.push (.write relAddr 0))
    | some p =>
        let address ← EStateM.ofExcept (p.virtualAddress images)
        modify (·.push (.write relAddr address))
  else modify (·.push (.add relAddr (images object).baseAddress))

/-- `Loader::processLazyRelocations`, with `pltRelocateStub` the address of `pltRelocateStub`. -/
def processLazyRelocations (pltRelocateStub : Nat) (source : RelocationSource) (object : Nat) :
    EStateM Abort Relocations Unit := do
  let info := source.info
  if info.globalOffsetTable = 0 then
    if info.lazyRelocTableOffset ≠ 0 then throw .lazyTableWithoutGot
    return
  modify (·.push (.write ((info.globalOffsetTable + 8) % 2 ^ 64) object))
  modify (·.push (.write ((info.globalOffsetTable + 16) % 2 ^ 64) pltRelocateStub))
  if info.lazyTableSize = 0 then return
  if !info.lazyExplicitAddend then throw .implicitAddend
  (recordOffsets info.lazyTableSize).forM fun offset => do
    let reloc ← EStateM.ofExcept (source.readRecord (info.lazyRelocTableOffset + offset))
    bindJumpSlot images fuel source.loadScope object reloc

/-! ## A record whose symbol is not found -/

/-- The relocation types whose records `processRela` resolves a symbol for. -/
def symbolRelocationTypes : List Nat :=
  [rX86_64_64, rX86_64GlobDat, rX86_64Dtpmod64, rX86_64Dtpoff64, rX86_64Tpoff64]

/-- The TLS relocation types. -/
def tlsRelocationTypes : List Nat := [rX86_64Dtpmod64, rX86_64Dtpoff64, rX86_64Tpoff64]

/-- The value a record stores for a symbol at address 0: `S + A` for `R_X86_64_64`, else `S`. -/
def zeroSymbolValue (type addend : Nat) : Nat := if type = rX86_64_64 then addend % 2 ^ 64 else 0

variable {images tls fuel}

theorem readAt_of_getElem? {α : Type} {table : List α} {index : Nat} {entry : α}
    (read : table[index]? = some entry) : readAt table index = .ok entry := by
  simp [readAt, read]

section Resolution

variable {unresolved : List UInt8 → Abort} {logLine : List UInt8 → Nat → RelocationLog}
  {scope : Scope} {object symbolIndex : Nat} {sym : Elf64Sym}

/-- A symbol the scope provides is returned, and nothing is logged. -/
theorem resolveRelocationSymbol_of_found {p : SymbolRef}
    (read : (images object).symbolTable[symbolIndex]? = some sym)
    (found : scope.resolveSymbol images fuel ⟨object, sym⟩ false = .ok (some p)) (s : Relocations) :
    resolveRelocationSymbol images fuel unresolved logLine scope object symbolIndex s =
      .ok (some p) s := by
  simp [resolveRelocationSymbol, readAt_of_getElem? read, found]

/-- A symbol the scope lacks aborts unless weak and named; a weak one is logged by its name. -/
theorem resolveRelocationSymbol_of_missing
    (read : (images object).symbolTable[symbolIndex]? = some sym)
    (missing : scope.resolveSymbol images fuel ⟨object, sym⟩ false = .ok none) (s : Relocations) :
    resolveRelocationSymbol images fuel unresolved logLine scope object symbolIndex s =
      if elf64StBind sym.stInfo ≠ stbWeak then
        .error (if sym.stName = 0 then .unnamedSymbol else unresolved ((images object).name sym)) s
      else if sym.stName = 0 then .error .unnamedSymbol s
      else .ok none (s.addLog (logLine ((images object).name sym) object)) := by
  by_cases weak : elf64StBind sym.stInfo = stbWeak <;> by_cases named : sym.stName = 0 <;>
    simp [resolveRelocationSymbol, readAt_of_getElem? read, missing, weak, named,
      SymbolRef.getString, verbose, ObjectImage.name]

end Resolution

/-- The store of a record whose symbol is missing: as for address 0, but TLS types assert. -/
theorem applyRela_none {object : Nat} {reloc : Elf64Rela} (indexed : elf64RSym reloc.rInfo ≠ 0)
    (typed : elf64RType reloc.rInfo ∈ symbolRelocationTypes)
    (addend : elf64RType reloc.rInfo ≠ rX86_64_64 → reloc.rAddend = 0) (s : Relocations) :
    applyRela images tls object reloc none s =
      if elf64RType reloc.rInfo ∈ tlsRelocationTypes then .error .unresolvedTlsSymbol s
      else .ok ⟨⟩ (s.push (.write (((images object).baseAddress + reloc.rOffset) % 2 ^ 64)
        (zeroSymbolValue (elf64RType reloc.rInfo) reloc.rAddend))) := by
  simp only [symbolRelocationTypes, List.mem_cons, List.mem_singleton, List.not_mem_nil,
    or_false] at typed
  unfold applyRela zeroSymbolValue
  rcases typed with type | type | type | type | type <;>
    simp only [type, rX86_64_64, rX86_64GlobDat, rX86_64Relative, rX86_64Dtpmod64, rX86_64Dtpoff64,
      rX86_64Tpoff64, tlsRelocationTypes] at addend ⊢ <;>
    simp [indexed, addend, symbolAddress]

/-- `processRela` of a missing symbol aborts unless weak and named, and then logs and stores. -/
theorem processRela_of_missing {scope : Scope} {object : Nat} {reloc : Elf64Rela} {sym : Elf64Sym}
    (indexed : elf64RSym reloc.rInfo ≠ 0)
    (read : (images object).symbolTable[elf64RSym reloc.rInfo]? = some sym)
    (missing : scope.resolveSymbol images fuel ⟨object, sym⟩ false = .ok none)
    (typed : elf64RType reloc.rInfo ∈ symbolRelocationTypes) (s : Relocations) :
    processRela images tls fuel scope object reloc s =
      if elf64StBind sym.stInfo ≠ stbWeak then
        .error (if sym.stName = 0 then .unnamedSymbol
          else .unresolvedLoadTimeSymbol ((images object).name sym)) s
      else if sym.stName = 0 then .error .unnamedSymbol s
      else applyRela images tls object reloc none
        (s.addLog (.unresolvedWeakLoadTime ((images object).name sym) object)) := by
  have not_copy : elf64RType reloc.rInfo ≠ rX86_64Copy := fun copy => by
    rw [copy] at typed
    exact absurd typed (by decide)
  simp only [processRela, if_neg not_copy, ne_eq, indexed, not_false_eq_true, if_true, pure_bind]
  rw [EStateM.bind_apply, resolveRelocationSymbol_of_missing read missing]
  split_ifs <;> rfl

/-- An eager `JUMP_SLOT` of a missing symbol aborts unless weak and named, else stores 0. -/
theorem bindJumpSlot_of_missing {scope : Scope} {object : Nat} {reloc : Elf64Rela}
    {sym : Elf64Sym} (slot : elf64RType reloc.rInfo = rX86_64JumpSlot)
    (read : (images object).symbolTable[elf64RSym reloc.rInfo]? = some sym)
    (missing : scope.resolveSymbol images fuel ⟨object, sym⟩ false = .ok none) (s : Relocations) :
    bindJumpSlot images fuel scope object reloc s =
      if elf64StBind sym.stInfo ≠ stbWeak then
        .error (if sym.stName = 0 then .unnamedSymbol
          else .unresolvedJumpSlotSymbol ((images object).name sym)) s
      else if sym.stName = 0 then .error .unnamedSymbol s
      else .ok ⟨⟩ ((s.addLog (.unresolvedWeakJumpSlot ((images object).name sym) object)).push
        (.write (((images object).baseAddress + reloc.rOffset) % 2 ^ 64) 0)) := by
  simp only [bindJumpSlot, slot, ne_eq, not_true_eq_false, if_false, eagerBinding, if_true,
    pure_bind]
  rw [EStateM.bind_apply, resolveRelocationSymbol_of_missing read missing]
  split_ifs <;> rfl

/-- A missing symbol aborts exactly if strong or unnamed, or in `processRela` of a TLS type. -/
theorem unresolved_symbol_aborts_iff_strong_unnamed_or_tls {scope : Scope} {object index : Nat}
    {sym : Elf64Sym} (read : (images object).symbolTable[index]? = some sym)
    (missing : scope.resolveSymbol images fuel ⟨object, sym⟩ false = .ok none) (s : Relocations) :
    (∀ reloc : Elf64Rela, elf64RSym reloc.rInfo = index → index ≠ 0 →
      elf64RType reloc.rInfo ∈ symbolRelocationTypes →
      (elf64RType reloc.rInfo ≠ rX86_64_64 → reloc.rAddend = 0) →
      ((∃ e t, processRela images tls fuel scope object reloc s = .error e t) ↔
        elf64StBind sym.stInfo ≠ stbWeak ∨ sym.stName = 0 ∨
          elf64RType reloc.rInfo ∈ tlsRelocationTypes) ∧
      (elf64StBind sym.stInfo = stbWeak → sym.stName ≠ 0 →
        elf64RType reloc.rInfo ∉ tlsRelocationTypes →
        processRela images tls fuel scope object reloc s =
          .ok ⟨⟩ ((s.addLog (.unresolvedWeakLoadTime ((images object).name sym) object)).push
            (.write (((images object).baseAddress + reloc.rOffset) % 2 ^ 64)
              (zeroSymbolValue (elf64RType reloc.rInfo) reloc.rAddend))))) ∧
    ∀ reloc : Elf64Rela, elf64RSym reloc.rInfo = index →
      elf64RType reloc.rInfo = rX86_64JumpSlot →
      ((∃ e t, bindJumpSlot images fuel scope object reloc s = .error e t) ↔
        elf64StBind sym.stInfo ≠ stbWeak ∨ sym.stName = 0) ∧
      (elf64StBind sym.stInfo = stbWeak → sym.stName ≠ 0 →
        bindJumpSlot images fuel scope object reloc s =
          .ok ⟨⟩ ((s.addLog (.unresolvedWeakJumpSlot ((images object).name sym) object)).push
            (.write (((images object).baseAddress + reloc.rOffset) % 2 ^ 64) 0))) := by
  refine ⟨fun reloc indexed nonzero typed addend => ?_, fun reloc indexed slot => ?_⟩
  · subst indexed
    rw [processRela_of_missing nonzero read missing typed s, applyRela_none nonzero typed addend]
    by_cases weak : elf64StBind sym.stInfo = stbWeak <;> by_cases named : sym.stName = 0 <;>
      by_cases tlsType : elf64RType reloc.rInfo ∈ tlsRelocationTypes <;>
      simp [weak, named, tlsType]
  · subst indexed
    rw [bindJumpSlot_of_missing slot read missing s]
    by_cases weak : elf64StBind sym.stInfo = stbWeak <;> by_cases named : sym.stName = 0 <;>
      simp [weak, named]

end Relocation

/-- An object whose weak symbol `1`, named `w`, is undefined in its own table, its load scope. -/
def weakReference : ObjectImage where
  baseAddress := 0x400000
  stringTable := [0, 0x77, 0]
  symbolTable := [⟨0, 0, 0, 0⟩, ⟨1, 0x20, 0, 0⟩]
  hashTable := [1, 2, 1, 0, 0]

/-- On `weakReference`, a `DTPOFF64` record aborts; `GLOB_DAT` and `JUMP_SLOT` log and store 0. -/
theorem weakReference_aborts_only_in_tls_relocation :
    weakReference.symbolTable[1]? = some ⟨1, 0x20, 0, 0⟩ ∧
    Scope.resolveSymbol (fun _ => weakReference) 2 ⟨[0]⟩ ⟨0, ⟨1, 0x20, 0, 0⟩⟩ false = .ok none ∧
    (∃ e t, processRela (fun _ => weakReference) (fun _ => ⟨false, 0, 0, 0, .none, 0⟩) 2 ⟨[0]⟩ 0
      ⟨0x10, 0x100000011, 0⟩ ⟨[], []⟩ = .error e t) ∧
    processRela (fun _ => weakReference) (fun _ => ⟨false, 0, 0, 0, .none, 0⟩) 2 ⟨[0]⟩ 0
      ⟨0x18, 0x100000006, 0⟩ ⟨[], []⟩ =
        .ok ⟨⟩ ⟨[.write 0x400018 0], [.unresolvedWeakLoadTime [0x77] 0]⟩ ∧
    bindJumpSlot (fun _ => weakReference) 2 ⟨[0]⟩ 0 ⟨0x20, 0x100000007, 0⟩ ⟨[], []⟩ =
      .ok ⟨⟩ ⟨[.write 0x400020 0], [.unresolvedWeakJumpSlot [0x77] 0]⟩ :=
  have read : weakReference.symbolTable[1]? = some ⟨1, 0x20, 0, 0⟩ := rfl
  have missing : Scope.resolveSymbol (fun _ => weakReference) 2 ⟨[0]⟩ ⟨0, ⟨1, 0x20, 0, 0⟩⟩ false =
      .ok none := rfl
  have laws := @unresolved_symbol_aborts_iff_strong_unnamed_or_tls (fun _ => weakReference)
    (fun _ => ⟨false, 0, 0, 0, .none, 0⟩) 2 ⟨[0]⟩ 0 1 _ read missing ⟨[], []⟩
  ⟨read, missing,
    ((laws.1 ⟨0x10, 0x100000011, 0⟩ rfl (by decide) (by decide) fun _ => rfl).1).2
      (.inr (.inr (by decide))),
    (laws.1 ⟨0x18, 0x100000006, 0⟩ rfl (by decide) (by decide) fun _ => rfl).2 rfl (by decide)
      (by decide),
    (laws.2 ⟨0x20, 0x100000007, 0⟩ rfl rfl).2 rfl (by decide)⟩

/-! ## Where the relocation passes store -/

/-- The address a store writes to. -/
def Store.address : Store → Nat
  | .write address _ => address
  | .add address _ => address

/-- Every `ok` run of `x` appends its stores at the addresses `sites`, in this order. -/
def StoresAt {α : Type} (sites : List Nat) (x : EStateM Abort Relocations α) : Prop :=
  ∀ s a t, x s = .ok a t → t.stores.map Store.address = s.stores.map Store.address ++ sites

namespace StoresAt

variable {α β : Type} {sites sites' : List Nat}

/-- `pure` stores nothing. -/
theorem of_pure (a : α) : StoresAt [] (pure a : EStateM Abort Relocations α) := by
  rintro s _ t ⟨⟩
  exact (List.append_nil _).symm

/-- An abort has no `ok` run. -/
theorem of_throw (e : Abort) : StoresAt sites (throw e : EStateM Abort Relocations α) :=
  fun _ _ _ run => nomatch run

/-- `Except` code stores nothing. -/
theorem of_ofExcept (x : Except Abort α) :
    StoresAt [] (EStateM.ofExcept x : EStateM Abort Relocations α) := by
  cases x with
  | error e => exact of_throw e
  | ok a => exact of_pure a

/-- `modify (·.push store)` stores at the store's address. -/
theorem of_push (store : Store) : StoresAt [store.address] (modify (·.push store)) := by
  rintro s _ t ⟨⟩
  simp

/-- A log line stores nothing. -/
theorem of_addLog (line : RelocationLog) : StoresAt [] (modify (·.addLog line)) := by
  rintro s _ t ⟨⟩
  simp

/-- A sequence stores where its first part stores and then where the rest does. -/
theorem bind {x : EStateM Abort Relocations α} {f : α → EStateM Abort Relocations β}
    (first : StoresAt sites x) (rest : ∀ a, StoresAt sites' (f a)) :
    StoresAt (sites ++ sites') (x >>= f) := by
  intro s b t run
  obtain ⟨a, u, run₁, run₂⟩ := EStateM.bind_eq_ok run
  rw [rest a u b t run₂, first s a u run₁, List.append_assoc]

/-- An abort followed by anything has no `ok` run. -/
theorem throw_bind (e : Abort) (f : α → EStateM Abort Relocations β) :
    StoresAt sites ((throw e : EStateM Abort Relocations α) >>= f) :=
  fun _ _ _ run => nomatch run

/-- A first part that stores nothing. -/
theorem nil_bind {x : EStateM Abort Relocations α} {f : α → EStateM Abort Relocations β}
    (first : StoresAt [] x) (rest : ∀ a, StoresAt sites (f a)) : StoresAt sites (x >>= f) :=
  bind first rest

theorem of_write (address value : Nat) :
    StoresAt [address] (modify (·.push (.write address value))) :=
  of_push (.write address value)

/-- A store followed by the rest of a run. -/
theorem write_bind (address value : Nat) {f : PUnit → EStateM Abort Relocations β}
    (rest : ∀ a, StoresAt sites (f a)) :
    StoresAt (address :: sites) (modify (·.push (.write address value)) >>= f) :=
  bind (of_write address value) rest

theorem of_add (address value : Nat) :
    StoresAt [address] (modify (·.push (.add address value))) :=
  of_push (.add address value)

/-- Both branches store at the same addresses. -/
theorem ite {c : Prop} [Decidable c] {x y : EStateM Abort Relocations α}
    (yes : c → StoresAt sites x) (no : ¬c → StoresAt sites y) :
    StoresAt sites (if c then x else y) := by
  split
  · exact yes ‹_›
  · exact no ‹_›

/-- A step of `Except` code: only its `ok` result goes on. -/
theorem ofExcept_bind (x : Except Abort α) (f : α → EStateM Abort Relocations β)
    (rest : ∀ a, x = .ok a → StoresAt sites (f a)) : StoresAt sites (EStateM.ofExcept x >>= f) := by
  cases x with
  | error e => exact throw_bind e f
  | ok a => exact rest a rfl

/-- A loop stores, in order, where each of its iterations stores. -/
theorem forM {γ : Type} {sitesOf : γ → List Nat} {f : γ → EStateM Abort Relocations PUnit} :
    (xs : List γ) → (∀ x ∈ xs, StoresAt (sitesOf x) (f x)) →
      StoresAt (xs.flatMap sitesOf) (xs.forM f)
  | [], _ => of_pure _
  | x :: xs, each => by
      rw [List.forM_cons', List.flatMap_cons]
      exact bind (each x (List.mem_cons_self _ _)) fun _ =>
        forM xs fun y member => each y (List.mem_cons_of_mem _ member)

end StoresAt

/-- The address `baseAddress + r_offset` a record relocates. -/
def relocationSite (base : Nat) (reloc : Elf64Rela) : Nat := (base + reloc.rOffset) % 2 ^ 64

/-- Where `processRela` stores for a record: at its site, unless it is a copy relocation. -/
def relaSites (base : Nat) (reloc : Elf64Rela) : List Nat :=
  if elf64RType reloc.rInfo = rX86_64Copy then [] else [relocationSite base reloc]

/-- The records of the object's `DT_RELA` table that can be read, in table order. -/
def RelocationSource.relaRecords (source : RelocationSource) : List Elf64Rela :=
  match source.dynamic.foldlM scanRelaEntry (none, none) with
  | .ok (some offset, some length) =>
      (recordOffsets length).filterMap fun o => source.records (offset + o)
  | _ => []

/-- The records of the object's `DT_JMPREL` table that can be read, in table order. -/
def RelocationSource.jumpSlotRecords (source : RelocationSource) : List Elf64Rela :=
  (recordOffsets source.info.lazyTableSize).filterMap fun o =>
    source.records (source.info.lazyRelocTableOffset + o)

theorem RelocationSource.records_of_readRecord {source : RelocationSource} {offset : Nat}
    {reloc : Elf64Rela} (read : source.readRecord offset = .ok reloc) :
    source.records offset = some reloc := by
  unfold RelocationSource.readRecord at read
  split at read
  · cases read
    assumption
  · cases read

section Sites

variable {images : Nat → ObjectImage} {tls : Nat → TlsObject} {fuel : Nat}

/-- The resolution of a relocation's symbol stores nothing; at most it logs. -/
theorem resolveRelocationSymbol_storesAt (unresolved : List UInt8 → Abort)
    (logLine : List UInt8 → Nat → RelocationLog) (scope : Scope) (object symbolIndex : Nat) :
    StoresAt []
      (resolveRelocationSymbol images fuel unresolved logLine scope object symbolIndex) := by
  unfold resolveRelocationSymbol
  dsimp only
  repeat' with_reducible first
    | exact StoresAt.of_pure _
    | exact StoresAt.of_throw _
    | exact StoresAt.throw_bind _ _
    | exact StoresAt.of_ofExcept _
    | exact StoresAt.of_addLog _
    | apply StoresAt.ite
    | apply StoresAt.nil_bind
    | intro _

/-- Every branch of the `switch(type)` that does not abort stores once, at the record's site. -/
theorem applyRela_storesAt (object : Nat) (reloc : Elf64Rela) (p : Option SymbolRef) :
    StoresAt [relocationSite (images object).baseAddress reloc]
      (applyRela images tls object reloc p) := by
  have address : StoresAt [] (symbolAddress images p) := by
    cases p with
    | none => exact StoresAt.of_pure 0
    | some p => exact StoresAt.of_ofExcept _
  unfold applyRela relocationSite
  dsimp only
  repeat' with_reducible first
    | exact address
    | exact StoresAt.of_pure _
    | exact StoresAt.of_throw _
    | exact StoresAt.throw_bind _ _
    | exact StoresAt.of_write _ _
    | apply StoresAt.ite
    | apply StoresAt.nil_bind
    | intro _
    | split

/-- `processRela` stores once at the record's site, and not at all for a copy relocation. -/
theorem processRela_storesAt (scope : Scope) (object : Nat) (reloc : Elf64Rela) :
    StoresAt (relaSites (images object).baseAddress reloc)
      (processRela images tls fuel scope object reloc) := by
  unfold processRela relaSites
  dsimp only
  by_cases copy : elf64RType reloc.rInfo = rX86_64Copy
  · rw [if_pos copy, if_pos copy]
    exact StoresAt.of_pure _
  · rw [if_neg copy, if_neg copy]
    exact StoresAt.nil_bind (StoresAt.of_pure _) fun _ => StoresAt.ite
      (fun _ => StoresAt.nil_bind (resolveRelocationSymbol_storesAt _ _ scope object _) fun p =>
        applyRela_storesAt object reloc p)
      fun _ => @applyRela_storesAt images tls object reloc none

/-- `processStaticRelocations` stores once at each non-copy `DT_RELA` site, in table order. -/
theorem processStaticRelocations_storesAt (source : RelocationSource) (object : Nat) :
    StoresAt (source.relaRecords.flatMap (relaSites (images object).baseAddress))
      (processStaticRelocations images tls fuel source object) := by
  unfold processStaticRelocations RelocationSource.relaRecords
  refine StoresAt.ofExcept_bind _ _ fun found scan => ?_
  rw [scan]
  obtain ⟨_ | offset, _ | length⟩ := found
  · exact StoresAt.of_pure _
  · exact StoresAt.of_throw _
  · exact StoresAt.of_throw _
  · show StoresAt (((recordOffsets length).filterMap fun o => source.records (offset + o)).flatMap
      (relaSites (images object).baseAddress)) ((recordOffsets length).forM fun o => _)
    rw [List.filterMap_eq_flatMap_toList, List.flatMap_assoc]
    refine StoresAt.forM _ fun o _ => StoresAt.ofExcept_bind _ _ fun reloc read => ?_
    rw [RelocationSource.records_of_readRecord read, Option.toList_some, List.flatMap_singleton]
    exact processRela_storesAt source.loadScope object reloc

/-- The binding of a `JUMP_SLOT` record stores once, at the record's site. -/
theorem bindJumpSlot_storesAt (scope : Scope) (object : Nat) (reloc : Elf64Rela) :
    StoresAt [relocationSite (images object).baseAddress reloc]
      (bindJumpSlot images fuel scope object reloc) := by
  unfold bindJumpSlot relocationSite
  dsimp only
  repeat' with_reducible first
    | exact StoresAt.of_pure _
    | exact StoresAt.of_throw _
    | exact StoresAt.throw_bind _ _
    | exact StoresAt.of_ofExcept _
    | exact resolveRelocationSymbol_storesAt _ _ _ _ _
    | exact StoresAt.of_write _ _
    | exact StoresAt.of_add _ _
    | apply StoresAt.ite
    | apply StoresAt.nil_bind
    | intro _
    | split

/-- With a GOT, `processLazyRelocations` stores `GOT[1]`, `GOT[2]`, then each `DT_JMPREL` site. -/
theorem processLazyRelocations_storesAt (pltRelocateStub : Nat) (source : RelocationSource)
    (object : Nat) :
    StoresAt (if source.info.globalOffsetTable = 0 then [] else
        [(source.info.globalOffsetTable + 8) % 2 ^ 64,
          (source.info.globalOffsetTable + 16) % 2 ^ 64] ++
          source.jumpSlotRecords.map (relocationSite (images object).baseAddress))
      (processLazyRelocations images fuel pltRelocateStub source object) := by
  have slots : StoresAt (source.jumpSlotRecords.map (relocationSite (images object).baseAddress))
      ((recordOffsets source.info.lazyTableSize).forM fun offset => do
        let reloc ← EStateM.ofExcept (source.readRecord (source.info.lazyRelocTableOffset + offset))
        bindJumpSlot images fuel source.loadScope object reloc) := by
    unfold RelocationSource.jumpSlotRecords
    rw [List.filterMap_eq_flatMap_toList, List.map_flatMap]
    refine StoresAt.forM _ fun o _ => StoresAt.ofExcept_bind _ _ fun reloc read => ?_
    rw [RelocationSource.records_of_readRecord read]
    exact bindJumpSlot_storesAt source.loadScope object reloc
  have empty : source.info.lazyTableSize = 0 → source.jumpSlotRecords = [] := fun none => by
    simp [RelocationSource.jumpSlotRecords, none, recordOffsets]
  unfold processLazyRelocations
  dsimp only
  by_cases got : source.info.globalOffsetTable = 0
  · rw [if_pos got, if_pos got]
    exact StoresAt.ite (fun _ => StoresAt.throw_bind _ _) fun _ =>
      StoresAt.nil_bind (StoresAt.of_pure _) fun _ => StoresAt.of_pure _
  · rw [if_neg got, if_neg got]
    refine StoresAt.nil_bind (StoresAt.of_pure _) fun _ => StoresAt.write_bind _ _
      fun _ => StoresAt.write_bind _ _ fun _ => StoresAt.ite (fun none => ?_) fun _ =>
        StoresAt.nil_bind (StoresAt.of_pure _) fun _ =>
          StoresAt.ite (fun _ => StoresAt.throw_bind _ _) fun _ =>
            StoresAt.nil_bind (StoresAt.of_pure _) fun _ => slots
    rw [empty none]
    exact StoresAt.of_pure _

end Sites

end LdInit
