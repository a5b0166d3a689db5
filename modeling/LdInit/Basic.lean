import Mathlib.Logic.Function.Basic

/-!
# Aborts and runs

A run of the loader is an `EStateM Abort σ` computation whose error keeps the state reached at a
failed `assert`; a recursion that exceeds its depth bound aborts with `outOfFuel`.
-/

namespace LdInit

/-- Where a run of the loader stops. -/
inductive Abort where
  /-- The recursion did not return within the depth bound of the model. -/
  | outOfFuel
  /-- `assert(!object->wasLinked)` in `Loader::linkObjects`. -/
  | wasLinked
  /-- `assert(!object->onInitStack)` in `Loader::_scheduleInit`, its cycle check. -/
  | onInitStack
  /-- `assert(!object->scheduledForInit)` in `Loader::_scheduleInit`. -/
  | scheduledForInit
  /-- `assert(object->wasLinked)` in `doInitialize`. -/
  | notLinked
  /-- `assert(!object->wasInitialized)` in `doInitialize`. -/
  | wasInitialized
  /-- `assert(object->dependencies[i]->wasInitialized)` in `doInitialize`. -/
  | dependencyNotInitialized
  /-- `assert((array_size % sizeof(InitFuncPtr)) == 0)` in `doInitialize`. -/
  | initArraySize
  /-- A call through a null `init_array` in `doInitialize`: the read of its first slot faults. -/
  | nullInitArray
  /-- `assert(runtimeTlsMap->initialSize == 0)` in `Loader::buildInitialTls`. -/
  | initialSizeNonzero
  /-- `assert(!_linkQueue.empty())` in `Loader::buildInitialTls`. -/
  | emptyLinkQueue
  /-- `assert(_linkQueue.front()->isMainObject)` in `Loader::buildInitialTls`. -/
  | frontNotMain
  /-- `assert(object->tlsModel == SharedObject::kTlsNone)` in `Loader::buildInitialTls`. -/
  | tlsModelNotNone
  /-- `assert(16 % object->tlsAlignment == 0)` in `Loader::buildInitialTls`. -/
  | tlsAlignment
  /-- An integer division by zero, which traps on x86-64. -/
  | divideByZero
  /-- `assert(symbol.st_name != 0)` in `SymbolRef::getString`. -/
  | unnamedSymbol
  /-- `assert(bind == STB_GLOBAL || bind == STB_WEAK)` in `SymbolRef::virtualAddress`. -/
  | localSymbol
  /-- `assert(symbol.st_shndx != SHN_UNDEF)` in `SymbolRef::virtualAddress`. -/
  | undefinedSymbol
  /-- A read past the end of a table in memory, unchecked by the source: undefined behaviour. -/
  | outOfBounds
  /-- `assert(!_nameMap.get(name))` of `injectObjectFromDts` and `injectObjectFromPhdrs`. -/
  | duplicateObject
  /-- `"Could not find library "` in `LinkUniverse::_fetchFromFile`. -/
  | libraryNotFound (name : List UInt8)
  /-- The ELF magic or object type assertion in `LinkUniverse::_fetchFromFile`. -/
  | notAnElfObject
  /-- `assert(phdr->p_memsz > 0)` in `LinkUniverse::_fetchFromFile`. -/
  | emptyLoadSegment
  /-- `assert(object->baseAddress % kPageSize == 0)` in `LinkUniverse::_fetchFromFile`. -/
  | misalignedBase
  /-- `assert((phdr->p_offset % kPageSize) == 0)` in `LinkUniverse::_fetchFromFile`. -/
  | misalignedOffset
  /-- `"Illegal combination of segment permissions"` in `LinkUniverse::_fetchFromFile`. -/
  | illegalPermissions
  /-- `assert(!"Unexpected PHDR")` in `LinkUniverse::_fetchFromFile`. -/
  | unexpectedPhdr
  /-- `assert(object->dynamic != nullptr)` in `LinkUniverse::_parseDynamic`. -/
  | noDynamic
  /-- `assert(dynamic->d_val == sizeof(Elf64_Sym))` in `LinkUniverse::_parseDynamic`. -/
  | symbolEntrySize
  /-- `assert(dynamic->d_val == DT_REL)` in `LinkUniverse::_parseDynamic`. -/
  | pltRelocationFormat
  /-- `"Unexpected dynamic entry "` in `LinkUniverse::_parseDynamic`. -/
  | unexpectedDynamicEntry (tag : Int)
  /-- `"Unresolved load-time symbol "` in `Loader::processRela`. -/
  | unresolvedLoadTimeSymbol (name : List UInt8)
  /-- `"Unresolved JUMP_SLOT symbol "` in `Loader::processLazyRelocations`. -/
  | unresolvedJumpSlotSymbol (name : List UInt8)
  /-- `assert(symbol_index)` in `Loader::processRela`. -/
  | relocationWithoutSymbol
  /-- `assert(!symbol_index)` in `Loader::processRela`. -/
  | relocationWithSymbol
  /-- `assert(!reloc->r_addend)` in `Loader::processRela`. -/
  | relocationAddend
  /-- `assert(p)` in `Loader::processRela`, for the TLS relocations. -/
  | unresolvedTlsSymbol
  /-- `assert(p->object->tlsModel == SharedObject::kTlsInitial)` in `Loader::processRela`. -/
  | tlsModelNotInitial
  /-- `"Unexpected relocation type "` in `Loader::processRela`. -/
  | unexpectedRelocationType (type : Nat)
  /-- `assert(dynamic->d_val == sizeof(Elf64_Rela))` in `Loader::processStaticRelocations`. -/
  | relaEntrySize
  /-- `assert(!has_rela_offset && !has_rela_length)` in `Loader::processStaticRelocations`. -/
  | relaTableIncomplete
  /-- `assert(object->lazyRelocTableOffset == 0)` in `Loader::processLazyRelocations`. -/
  | lazyTableWithoutGot
  /-- `assert(object->lazyExplicitAddend)` in `Loader::processLazyRelocations`. -/
  | implicitAddend
  /-- `assert(type == R_X86_64_JUMP_SLOT)` in `Loader::processLazyRelocations`. -/
  | notJumpSlot
  deriving DecidableEq, Repr

/-! ## Runs in `EStateM` -/

namespace EStateM

variable {ε σ α β : Type}

theorem bind_of_ok {x : EStateM ε σ α} {f : α → EStateM ε σ β} {s s' : σ} {a : α}
    (run : x s = .ok a s') : (x >>= f) s = f a s' := by
  show EStateM.bind x f s = _
  simp only [EStateM.bind, run]

theorem bind_of_error {x : EStateM ε σ α} {f : α → EStateM ε σ β} {s s' : σ} {e : ε}
    (run : x s = .error e s') : (x >>= f) s = .error e s' := by
  show EStateM.bind x f s = _
  simp only [EStateM.bind, run]

theorem bind_apply (x : EStateM ε σ α) (f : α → EStateM ε σ β) (s : σ) :
    (x >>= f) s = match x s with
      | .ok a s' => f a s'
      | .error e s' => .error e s' := rfl

@[simp]
theorem pure_apply (a : α) (s : σ) : (pure a : EStateM ε σ α) s = .ok a s := rfl

@[simp]
theorem throw_apply (e : ε) (s : σ) : (throw e : EStateM ε σ α) s = .error e s := rfl

@[simp]
theorem modify_apply (f : σ → σ) (s : σ) :
    (modify f : EStateM ε σ PUnit) s = .ok ⟨⟩ (f s) := rfl

@[simp]
theorem throw_bind_apply (e : ε) (f : α → EStateM ε σ β) (s : σ) :
    (throw e >>= f) s = .error e s := rfl

@[simp]
theorem get_bind_apply (f : σ → EStateM ε σ α) (s : σ) : (get >>= f) s = f s s := rfl

@[simp]
theorem modify_bind_apply (f : σ → σ) (k : PUnit → EStateM ε σ α) (s : σ) :
    (modify f >>= k) s = k ⟨⟩ (f s) := rfl

@[simp]
theorem map_modify_apply (g : PUnit → α) (f : σ → σ) (s : σ) :
    (g <$> (modify f : EStateM ε σ PUnit)) s = .ok (g ⟨⟩) (f s) := rfl

@[simp]
theorem modifyGet_bind_apply (f : σ → α × σ) (k : α → EStateM ε σ β) (s : σ) :
    (modifyGet f >>= k) s = k (f s).1 (f s).2 := rfl

@[simp]
theorem map_throw_apply (g : α → β) (e : ε) (s : σ) :
    (g <$> (throw e : EStateM ε σ α)) s = .error e s := rfl

/-- An `ok` run of a sequence is an `ok` run of its first part followed by one of the rest. -/
theorem bind_eq_ok {x : EStateM ε σ α} {f : α → EStateM ε σ β} {s t : σ} {b : β}
    (run : (x >>= f) s = .ok b t) : ∃ a s', x s = .ok a s' ∧ f a s' = .ok b t := by
  change EStateM.bind x f s = _ at run
  unfold EStateM.bind at run
  split at run
  · exact ⟨_, _, ‹_›, run⟩
  · cases run

/-- `Except` seen from `EStateM`: the state is kept. -/
def ofExcept (x : Except ε α) : EStateM ε σ α :=
  match x with
  | .ok a => pure a
  | .error e => throw e

@[simp]
theorem ofExcept_ok (a : α) : (ofExcept (.ok a) : EStateM ε σ α) = pure a := rfl

@[simp]
theorem ofExcept_error (e : ε) : (ofExcept (.error e) : EStateM ε σ α) = throw e := rfl

end EStateM

/-! ## Runs in `Except` -/

namespace Except

variable {ε α β : Type}

@[simp]
theorem pure_eq_ok (a : α) : (pure a : Except ε α) = .ok a := rfl

@[simp]
theorem throw_eq_error (e : ε) : (throw e : Except ε α) = .error e := rfl

@[simp]
theorem ok_bind (a : α) (f : α → Except ε β) : (Except.ok a >>= f) = f a := rfl

@[simp]
theorem error_bind (e : ε) (f : α → Except ε β) : (Except.error e >>= f) = .error e := rfl

/-- An `ok` result of a sequence comes from an `ok` result of its first part. -/
theorem bind_eq_ok {x : Except ε α} {f : α → Except ε β} {b : β} (run : (x >>= f) = .ok b) :
    ∃ a, x = .ok a ∧ f a = .ok b := by
  cases x with
  | error e => cases run
  | ok a => exact ⟨a, rfl, run⟩

/-- A fold none of whose steps fails with `e` does not fail with `e`. -/
theorem foldlM_ne_error {f : β → α → Except ε β} {e : ε} (never : ∀ b a, f b a ≠ .error e) :
    ∀ (l : List α) (b : β), l.foldlM f b ≠ .error e
  | [], _ => by simp [List.foldlM]
  | a :: l, b => by
      rw [List.foldlM_cons]
      cases step : f b a with
      | error e' =>
          rw [error_bind]
          exact step ▸ never b a
      | ok b' =>
          rw [ok_bind]
          exact foldlM_ne_error never l b'

/-- Neither branch is `x`, so the conditional is not. -/
theorem ite_ne {c : Prop} [Decidable c] {a b x : Except ε α} (left : a ≠ x) (right : b ≠ x) :
    (if c then a else b) ≠ x := by
  split <;> assumption

end Except

end LdInit
