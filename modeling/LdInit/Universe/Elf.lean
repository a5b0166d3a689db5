import LdInit.Basic
import LdInit.Symbol.Hash

/-!
# Reading an ELF object

What `LinkUniverse` reads of an object: its program headers, with the checks on every `PT_LOAD`
segment, and its dynamic section up to `DT_NULL`.
-/

namespace LdInit

/-- The fields of an `Elf64_Phdr` that the loader reads. -/
structure Elf64Phdr where
  /-- `p_type`. -/
  pType : Nat
  /-- `p_flags`. -/
  pFlags : Nat
  /-- `p_offset`. -/
  pOffset : Nat
  /-- `p_vaddr`. -/
  pVaddr : Nat
  /-- `p_filesz`. -/
  pFilesz : Nat
  /-- `p_memsz`. -/
  pMemsz : Nat
  /-- `p_align`. -/
  pAlign : Nat
  deriving DecidableEq, Repr

/-- `PT_LOAD` of `<elf.h>`. -/
def ptLoad : Nat := 1
/-- `PT_DYNAMIC` of `<elf.h>`. -/
def ptDynamic : Nat := 2
/-- `PT_INTERP` of `<elf.h>`. -/
def ptInterp : Nat := 3
/-- `PT_PHDR` of `<elf.h>`. -/
def ptPhdr : Nat := 6
/-- `PT_TLS` of `<elf.h>`. -/
def ptTls : Nat := 7
/-- `PT_GNU_EH_FRAME` of `<elf.h>`. -/
def ptGnuEhFrame : Nat := 0x6474e550
/-- `PT_GNU_STACK` of `<elf.h>`. -/
def ptGnuStack : Nat := 0x6474e551
/-- `PT_GNU_RELRO` of `<elf.h>`. -/
def ptGnuRelro : Nat := 0x6474e552

/-- `PF_X` of `<elf.h>`. -/
def pfX : Nat := 1
/-- `PF_W` of `<elf.h>`. -/
def pfW : Nat := 2
/-- `PF_R` of `<elf.h>`. -/
def pfR : Nat := 4

/-- `ET_EXEC` of `<elf.h>`. -/
def etExec : Nat := 2
/-- `ET_DYN` of `<elf.h>`. -/
def etDyn : Nat := 3

/-- `kPageSize` in `LinkUniverse::_fetchFromFile`. -/
def kPageSize : Nat := 0x1000

/-! ## Dynamic sections -/

/-- `DT_NULL`. -/
def dtNull : Int := 0
/-- `DT_NEEDED`. -/
def dtNeeded : Int := 1
/-- `DT_PLTRELSZ`. -/
def dtPltrelsz : Int := 2
/-- `DT_PLTGOT`. -/
def dtPltgot : Int := 3
/-- `DT_HASH`. -/
def dtHash : Int := 4
/-- `DT_STRTAB`. -/
def dtStrtab : Int := 5
/-- `DT_SYMTAB`. -/
def dtSymtab : Int := 6
/-- `DT_RELA`. -/
def dtRela : Int := 7
/-- `DT_RELASZ`. -/
def dtRelasz : Int := 8
/-- `DT_RELAENT`. -/
def dtRelaent : Int := 9
/-- `DT_STRSZ`. -/
def dtStrsz : Int := 10
/-- `DT_SYMENT`. -/
def dtSyment : Int := 11
/-- `DT_INIT`. -/
def dtInit : Int := 12
/-- `DT_FINI`. -/
def dtFini : Int := 13
/-- `DT_SONAME`. -/
def dtSoname : Int := 14
/-- `DT_RPATH`. -/
def dtRpath : Int := 15
/-- `DT_REL`. -/
def dtRel : Int := 17
/-- `DT_PLTREL`. -/
def dtPltrel : Int := 20
/-- `DT_DEBUG`. -/
def dtDebug : Int := 21
/-- `DT_JMPREL`. -/
def dtJmprel : Int := 23
/-- `DT_INIT_ARRAY`. -/
def dtInitArray : Int := 25
/-- `DT_FINI_ARRAY`. -/
def dtFiniArray : Int := 26
/-- `DT_INIT_ARRAYSZ`. -/
def dtInitArraysz : Int := 27
/-- `DT_FINI_ARRAYSZ`. -/
def dtFiniArraysz : Int := 28
/-- `DT_VERSYM`. -/
def dtVersym : Int := 0x6ffffff0
/-- `DT_RELACOUNT`. -/
def dtRelacount : Int := 0x6ffffff9
/-- `DT_VERDEF`. -/
def dtVerdef : Int := 0x6ffffffc
/-- `DT_VERDEFNUM`. -/
def dtVerdefnum : Int := 0x6ffffffd
/-- `DT_VERNEED`. -/
def dtVerneed : Int := 0x6ffffffe
/-- `DT_VERNEEDNUM`. -/
def dtVerneednum : Int := 0x6fffffff

/-- A dynamic section in memory: its entries up to `DT_NULL` and the bytes of its string table. -/
structure DynamicSection where
  /-- The entries, from the first on. -/
  entries : List (Int × Nat)
  /-- The string table. -/
  strings : List UInt8
  deriving DecidableEq, Repr

namespace DynamicSection

/-- The entries the loops `for(i = 0; dynamic[i].d_tag != DT_NULL; i++)` visit. -/
def live (d : DynamicSection) : List (Int × Nat) := d.entries.takeWhile (·.1 ≠ dtNull)

/-- The names of the `DT_NEEDED` entries, in order, as `_discoverDependencies` reads them. -/
def needed (d : DynamicSection) : List (List UInt8) :=
  d.live.filterMap fun entry =>
    if entry.1 = dtNeeded then some (cString (d.strings.drop entry.2)) else none

end DynamicSection

/-- What `_parseDynamic` records of an object. -/
structure DynamicInfo where
  /-- `hashTableOffset`. -/
  hashTableOffset : Nat
  /-- `stringTableOffset`. -/
  stringTableOffset : Nat
  /-- `symbolTableOffset`. -/
  symbolTableOffset : Nat
  /-- `globalOffsetTable`, an address. -/
  globalOffsetTable : Nat
  /-- `lazyRelocTableOffset`. -/
  lazyRelocTableOffset : Nat
  /-- `lazyTableSize`. -/
  lazyTableSize : Nat
  /-- `lazyExplicitAddend`. -/
  lazyExplicitAddend : Bool
  deriving DecidableEq, Repr

/-- The values the `SharedObject` constructor gives these fields. -/
def DynamicInfo.initial : DynamicInfo := ⟨0, 0, 0, 0, 0, 0, false⟩

/-- The tags `_parseDynamic` lets pass. -/
def ignoredTags : List Int :=
  [dtSoname, dtNeeded, dtRpath, dtInit, dtFini, dtInitArray, dtInitArraysz, dtFiniArray,
    dtFiniArraysz, dtDebug, dtRela, dtRelasz, dtRelaent, dtRelacount, dtVersym, dtVerdef,
    dtVerdefnum, dtVerneed, dtVerneednum]

/-- The body of the loop of `_parseDynamic`, on one entry. -/
def parseEntry (baseAddress : Nat) (info : DynamicInfo) (entry : Int × Nat) :
    Except Abort DynamicInfo :=
  let (tag, value) := entry
  if tag = dtHash then pure { info with hashTableOffset := value }
  else if tag = dtStrtab then pure { info with stringTableOffset := value }
  else if tag = dtStrsz then pure info
  else if tag = dtSymtab then pure { info with symbolTableOffset := value }
  else if tag = dtSyment then
    if value = 24 then pure info else throw .symbolEntrySize
  else if tag = dtPltgot then pure { info with globalOffsetTable := (baseAddress + value) % 2 ^ 64 }
  else if tag = dtJmprel then pure { info with lazyRelocTableOffset := value }
  else if tag = dtPltrelsz then pure { info with lazyTableSize := value }
  else if tag = dtPltrel then
    if (value : Int) = dtRela then pure { info with lazyExplicitAddend := true }
    else if (value : Int) = dtRel then pure info
    else throw .pltRelocationFormat
  else if tag ∈ ignoredTags then pure info
  else throw (.unexpectedDynamicEntry tag)

/-- `LinkUniverse::_parseDynamic`, on the object's dynamic section, `none` for `nullptr`. -/
def parseDynamic (baseAddress : Nat) (dynamic : Option DynamicSection) (info : DynamicInfo) :
    Except Abort DynamicInfo :=
  match dynamic with
  | none => throw .noDynamic
  | some d => d.live.foldlM (parseEntry baseAddress) info

/-! ## Program headers -/

/-- The mapping `_fetchFromFile` makes for a `PT_LOAD` segment. -/
structure SegmentMapping where
  /-- `map_address`. -/
  mapAddress : Nat
  /-- `map_length`. -/
  mapLength : Nat
  /-- Whether the segment is writable: copied into fresh memory rather than mapped from the file. -/
  writable : Bool
  /-- `p_offset`: where the file is mapped from, or read from. -/
  fileOffset : Nat
  /-- For a writable segment, `p_filesz`, the bytes read to `write_ptr + misalign`. -/
  fileBytes : Nat
  /-- `misalign`. -/
  misalign : Nat
  deriving DecidableEq, Repr

/-- The `PT_LOAD` branch of the loop of `_fetchFromFile`, at base address `base`. -/
def loadSegment (base : Nat) (phdr : Elf64Phdr) : Except Abort SegmentMapping := do
  if phdr.pMemsz = 0 then throw .emptyLoadSegment
  if base % kPageSize ≠ 0 then throw .misalignedBase
  let misalign := phdr.pVaddr % kPageSize
  let mapAddress := (base + phdr.pVaddr - misalign) % 2 ^ 64
  let mapLength := (phdr.pMemsz + misalign) % 2 ^ 64
  let mapLength :=
    if mapLength % kPageSize ≠ 0 then (mapLength + (kPageSize - mapLength % kPageSize)) % 2 ^ 64
    else mapLength
  if phdr.pFlags &&& pfW = 0 then
    if phdr.pOffset % kPageSize ≠ 0 then throw .misalignedOffset
    if phdr.pFlags &&& (pfR ||| pfW ||| pfX) = pfR ||| pfX then
      pure ⟨mapAddress, mapLength, false, phdr.pOffset, 0, misalign⟩
    else throw .illegalPermissions
  else
    if phdr.pFlags &&& (pfR ||| pfW ||| pfX) = pfR ||| pfW then
      pure ⟨mapAddress, mapLength, true, phdr.pOffset, phdr.pFilesz, misalign⟩
    else throw .illegalPermissions

/-- `x` rounded down to a page. -/
def pageFloor (x : Nat) : Nat := x / kPageSize * kPageSize

/-- `x` rounded up to a page. -/
def pageCeil (x : Nat) : Nat := (x + kPageSize - 1) / kPageSize * kPageSize

/-- The TLS fields of a `SharedObject`, as a `PT_TLS` header sets them. -/
structure TlsSegment where
  /-- `tlsSegmentSize`. -/
  tlsSegmentSize : Nat
  /-- `tlsAlignment`. -/
  tlsAlignment : Nat
  /-- `tlsImageSize`. -/
  tlsImageSize : Nat
  /-- `tlsImagePtr`, an address. -/
  tlsImagePtr : Nat
  deriving DecidableEq, Repr

/-- The `PT_TLS` branch of `_fetchFromPhdrs` and `_fetchFromFile`. -/
def TlsSegment.ofPhdr (base : Nat) (phdr : Elf64Phdr) : TlsSegment :=
  ⟨phdr.pMemsz, phdr.pAlign, phdr.pFilesz, (base + phdr.pVaddr) % 2 ^ 64⟩

/-- A library file: the ELF header fields checked, the program headers, and its dynamic section. -/
structure LibraryFile where
  /-- `e_ident[0..3]`. -/
  magic : List UInt8
  /-- `e_type`. -/
  eType : Nat
  /-- The program headers. -/
  phdrs : List Elf64Phdr
  /-- The dynamic section. -/
  dynamic : DynamicSection

/-- The TLS fields as the `SharedObject` constructor leaves them. -/
def TlsSegment.none : TlsSegment := ⟨0, 0, 0, 0⟩

/-- What `_fetchFromFile` leaves in an object and the address space. -/
structure FetchResult where
  /-- `object->dynamic`. -/
  dynamic : Option DynamicSection
  /-- `object->tls*`. -/
  tls : TlsSegment
  /-- The segments mapped, in order. -/
  mappings : List SegmentMapping

/-- The body of the program-header loop of `_fetchFromFile`. -/
def fetchPhdr (base : Nat) (file : LibraryFile) (result : FetchResult) (phdr : Elf64Phdr) :
    Except Abort FetchResult :=
  if phdr.pType = ptLoad then do
    let mapping ← loadSegment base phdr
    pure { result with mappings := result.mappings ++ [mapping] }
  else if phdr.pType = ptTls then pure { result with tls := TlsSegment.ofPhdr base phdr }
  else if phdr.pType = ptDynamic then pure { result with dynamic := some file.dynamic }
  else if phdr.pType ∈ [ptInterp, ptPhdr, ptGnuEhFrame, ptGnuRelro, ptGnuStack] then pure result
  else throw .unexpectedPhdr

/-- What `_fetchFromFile` does with the opened file at `base`: check the header, walk the phdrs. -/
def loadFile (base : Nat) (file : LibraryFile) : Except Abort FetchResult := do
  if file.magic ≠ [0x7F, 0x45, 0x4C, 0x46] then throw .notAnElfObject
  if file.eType ≠ etExec ∧ file.eType ≠ etDyn then throw .notAnElfObject
  file.phdrs.foldlM (fetchPhdr base file) ⟨none, TlsSegment.none, []⟩

/-! ## The windows of `PT_LOAD` segments -/

/-- What `loadSegment` maps: the source's window, and for a writable segment `p_filesz` bytes. -/
theorem loadSegment_of_ok {base : Nat} {phdr : Elf64Phdr} {m : SegmentMapping}
    (loaded : loadSegment base phdr = .ok m) :
    base % kPageSize = 0 ∧ m.misalign = phdr.pVaddr % kPageSize ∧
      m.mapAddress = (base + phdr.pVaddr - phdr.pVaddr % kPageSize) % 2 ^ 64 ∧
      m.mapLength = (if (phdr.pMemsz + m.misalign) % 2 ^ 64 % kPageSize ≠ 0 then
          ((phdr.pMemsz + m.misalign) % 2 ^ 64 +
            (kPageSize - (phdr.pMemsz + m.misalign) % 2 ^ 64 % kPageSize)) % 2 ^ 64
        else (phdr.pMemsz + m.misalign) % 2 ^ 64) ∧
      (m.writable = true → m.fileBytes = phdr.pFilesz) := by
  unfold loadSegment at loaded
  by_cases empty : phdr.pMemsz = 0
  · rw [if_pos empty] at loaded
    cases loaded
  by_cases misaligned : base % kPageSize ≠ 0
  · rw [if_neg empty, if_pos misaligned] at loaded
    cases loaded
  rw [if_neg empty, if_neg misaligned] at loaded
  have aligned : base % kPageSize = 0 := not_not.mp misaligned
  by_cases readOnly : phdr.pFlags &&& pfW = 0
  · rw [if_pos readOnly] at loaded
    by_cases offset : phdr.pOffset % kPageSize ≠ 0
    · rw [if_pos offset] at loaded
      cases loaded
    by_cases text : phdr.pFlags &&& (pfR ||| pfW ||| pfX) = pfR ||| pfX
    · rw [if_neg offset, if_pos text] at loaded
      cases loaded
      exact ⟨aligned, rfl, rfl, rfl, nofun⟩
    · rw [if_neg offset, if_neg text] at loaded
      cases loaded
  · rw [if_neg readOnly] at loaded
    by_cases data : phdr.pFlags &&& (pfR ||| pfW ||| pfX) = pfR ||| pfW
    · rw [if_pos data] at loaded
      cases loaded
      exact ⟨aligned, rfl, rfl, rfl, fun _ => rfl⟩
    · rw [if_neg data] at loaded
      cases loaded

/-- A `PT_LOAD` window spans the whole pages around `[base + p_vaddr, base + p_vaddr + p_memsz)`. -/
theorem loadSegment_window {base : Nat} {phdr : Elf64Phdr} {m : SegmentMapping}
    (loaded : loadSegment base phdr = .ok m) :
    m.mapAddress % kPageSize = 0 ∧ m.mapLength % kPageSize = 0 ∧
      (base + phdr.pVaddr + phdr.pMemsz + kPageSize ≤ 2 ^ 64 →
        m.mapAddress = pageFloor (base + phdr.pVaddr) ∧
        m.mapAddress + m.mapLength = pageCeil (base + phdr.pVaddr + phdr.pMemsz)) := by
  obtain ⟨aligned, misalign, address, length, -⟩ := loadSegment_of_ok loaded
  have page : ∀ x, x % 2 ^ 64 % kPageSize = x % kPageSize :=
    fun x => Nat.mod_mod_of_dvd x (by decide)
  unfold pageFloor pageCeil
  rw [misalign] at length
  refine ⟨?_, ?_, fun small => ?_⟩
  · rw [address, page]
    simp only [kPageSize] at *
    omega
  · rw [length]
    split_ifs <;> rw [page] <;> simp only [kPageSize] at * <;> omega
  · simp only [kPageSize] at *
    generalize lengthDef : phdr.pMemsz + phdr.pVaddr % 4096 = L at length
    have start : base + phdr.pVaddr - phdr.pVaddr % 4096 < 2 ^ 64 := by omega
    have fits : L + 4096 ≤ 2 ^ 64 := by omega
    rw [address, length, Nat.mod_eq_of_lt start, Nat.mod_eq_of_lt (by omega : L < 2 ^ 64)]
    split_ifs
    · rw [Nat.mod_eq_of_lt (show L + (4096 - L % 4096) < 2 ^ 64 by omega)]
      omega
    · omega

/-- A writable segment reads `p_filesz` file bytes to `misalign` bytes into its window. -/
theorem loadSegment_writable {base : Nat} {phdr : Elf64Phdr} {m : SegmentMapping}
    (loaded : loadSegment base phdr = .ok m) (writable : m.writable = true) :
    m.fileBytes = phdr.pFilesz ∧ m.misalign = phdr.pVaddr % kPageSize :=
  ⟨(loadSegment_of_ok loaded).2.2.2.2 writable, (loadSegment_of_ok loaded).2.1⟩

/-- `loadSegment` reads `p_filesz` only to record it for a writable segment. -/
theorem loadSegment_set_pFilesz (base : Nat) (phdr : Elf64Phdr) (filesz : Nat) :
    loadSegment base { phdr with pFilesz := filesz } =
      (loadSegment base phdr).map fun m =>
        if m.writable then { m with fileBytes := filesz } else m := by
  unfold loadSegment
  dsimp only
  by_cases empty : phdr.pMemsz = 0
  · simp only [if_pos empty]
    rfl
  by_cases misaligned : base % kPageSize ≠ 0
  · simp only [if_neg empty, if_pos misaligned]
    rfl
  simp only [if_neg empty, if_neg misaligned]
  by_cases readOnly : phdr.pFlags &&& pfW = 0
  · by_cases offset : phdr.pOffset % kPageSize ≠ 0
    · simp only [if_pos readOnly, if_pos offset]
      rfl
    by_cases text : phdr.pFlags &&& (pfR ||| pfW ||| pfX) = pfR ||| pfX
    · simp only [if_pos readOnly, if_neg offset, if_pos text]
      rfl
    · simp only [if_pos readOnly, if_neg offset, if_neg text]
      rfl
  · by_cases data : phdr.pFlags &&& (pfR ||| pfW ||| pfX) = pfR ||| pfW
    · simp only [if_neg readOnly, if_pos data]
      rfl
    · simp only [if_neg readOnly, if_neg data]
      rfl

/-- A header adds at most its own `PT_LOAD` mapping to the segments mapped. -/
theorem fetchPhdr_mappings {base : Nat} {file : LibraryFile} {result result' : FetchResult}
    {phdr : Elf64Phdr} (step : fetchPhdr base file result phdr = .ok result') :
    ∀ m ∈ result'.mappings,
      m ∈ result.mappings ∨ phdr.pType = ptLoad ∧ loadSegment base phdr = .ok m := by
  unfold fetchPhdr at step
  split_ifs at step with load
  · cases loaded : loadSegment base phdr with
    | error e => simp [loaded] at step
    | ok mapping =>
        simp only [loaded, Except.ok_bind, Except.pure_eq_ok, Except.ok.injEq] at step
        subst step
        simp only [List.mem_append, List.mem_singleton]
        exact fun m => Or.imp_right fun same => ⟨load, by rw [same]⟩
  all_goals
    cases step
    exact fun m member => .inl member

/-- Every segment `loadFile` maps is the mapping of one of the file's `PT_LOAD` headers. -/
theorem loadFile_mappings {base : Nat} {file : LibraryFile} {result : FetchResult}
    (loaded : loadFile base file = .ok result) :
    ∀ m ∈ result.mappings, ∃ phdr ∈ file.phdrs, phdr.pType = ptLoad ∧
        loadSegment base phdr = .ok m := by
  have fold : ∀ (phdrs : List Elf64Phdr) (result result' : FetchResult),
      (∀ phdr ∈ phdrs, phdr ∈ file.phdrs) →
      (∀ m ∈ result.mappings, ∃ phdr ∈ file.phdrs, phdr.pType = ptLoad ∧
          loadSegment base phdr = .ok m) →
      phdrs.foldlM (fetchPhdr base file) result = .ok result' →
      ∀ m ∈ result'.mappings, ∃ phdr ∈ file.phdrs, phdr.pType = ptLoad ∧
          loadSegment base phdr = .ok m := by
    intro phdrs
    induction phdrs with
    | nil => intro result result' _ mapped run; cases run; exact mapped
    | cons phdr phdrs ih =>
        intro result result' inside mapped run
        rw [List.foldlM_cons] at run
        cases step : fetchPhdr base file result phdr with
        | error e => simp [step] at run
        | ok next =>
            rw [step, Except.ok_bind] at run
            refine ih next result' (fun h member => inside h (List.mem_cons_of_mem _ member)) ?_ run
            intro m member
            rcases fetchPhdr_mappings step m member with old | ⟨load, same⟩
            · exact mapped m old
            · exact ⟨phdr, inside phdr (List.mem_cons_self _ _), load, same⟩
  unfold loadFile at loaded
  simp only [Except.throw_eq_error, Except.error_bind, pure_bind] at loaded
  split_ifs at loaded
  exact fold file.phdrs _ result (fun _ => id)
      (fun _ member => absurd member (List.not_mem_nil _)) loaded

/-! ## What reading an object aborts with: a malformed object, never a recursion out of bound -/

theorem loadSegment_ne_outOfFuel (base : Nat) (phdr : Elf64Phdr) :
    loadSegment base phdr ≠ .error .outOfFuel := by
  unfold loadSegment
  simp only [Except.throw_eq_error, Except.error_bind, pure_bind]
  repeat (first | apply Except.ite_ne | exact nofun)

theorem fetchPhdr_ne_outOfFuel (base : Nat) (file : LibraryFile) (result : FetchResult)
    (phdr : Elf64Phdr) : fetchPhdr base file result phdr ≠ .error .outOfFuel := by
  unfold fetchPhdr
  refine Except.ite_ne ?_ ?_
  · cases loaded : loadSegment base phdr with
    | error e =>
        rw [Except.error_bind]
        exact fun same => loadSegment_ne_outOfFuel base phdr (Except.error.inj same ▸ loaded)
    | ok mapping => exact nofun
  repeat (first | apply Except.ite_ne | exact nofun)

theorem loadFile_ne_outOfFuel (base : Nat) (file : LibraryFile) :
    loadFile base file ≠ .error .outOfFuel := by
  unfold loadFile
  simp only [Except.throw_eq_error, Except.error_bind, pure_bind]
  repeat (first | exact Except.foldlM_ne_error (fetchPhdr_ne_outOfFuel base file) _ _ |
    apply Except.ite_ne | exact nofun)

theorem parseEntry_ne_outOfFuel (baseAddress : Nat) (info : DynamicInfo) (entry : Int × Nat) :
    parseEntry baseAddress info entry ≠ .error .outOfFuel := by
  obtain ⟨tag, value⟩ := entry
  unfold parseEntry
  dsimp only
  repeat (first | apply Except.ite_ne | exact nofun)

theorem parseDynamic_ne_outOfFuel (baseAddress : Nat) (dynamic : Option DynamicSection)
    (info : DynamicInfo) : parseDynamic baseAddress dynamic info ≠ .error .outOfFuel := by
  cases dynamic with
  | none => simp [parseDynamic]
  | some d => exact Except.foldlM_ne_error (parseEntry_ne_outOfFuel baseAddress) _ _

end LdInit
