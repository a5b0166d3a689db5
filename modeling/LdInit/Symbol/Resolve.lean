import LdInit.Basic
import LdInit.Scope
import LdInit.Symbol.Hash

/-!
# Symbol resolution

`Scope::resolveSymbol` asks the objects of a scope in turn, and `resolveInObject` walks the chain
of a bucket of the object's SysV hash table until `symbolSatisfies` accepts an entry.
-/

namespace LdInit

/-- The fields of an `Elf64_Sym` that symbol resolution reads. -/
structure Elf64Sym where
  /-- `st_name`: where the name starts in the string table, `0` for no name. -/
  stName : Nat
  /-- `st_info`: the binding in the high nibble, the type in the low one. -/
  stInfo : Nat
  /-- `st_shndx`: the section the symbol is defined in, `SHN_UNDEF` for none. -/
  stShndx : Nat
  /-- `st_value`. -/
  stValue : Nat
  deriving DecidableEq, Repr, Inhabited

/-- `SHN_UNDEF` of `<elf.h>`. -/
def shnUndef : Nat := 0

/-- `STB_GLOBAL` of `<elf.h>`. -/
def stbGlobal : Nat := 1

/-- `STB_WEAK` of `<elf.h>`. -/
def stbWeak : Nat := 2

/-- `ELF64_ST_BIND` of `<elf.h>`. -/
def elf64StBind (info : Nat) : Nat := info >>> 4

/-- What symbol resolution reads of a `SharedObject`: its base, string, symbol and hash tables. -/
structure ObjectImage where
  /-- `baseAddress`. -/
  baseAddress : Nat
  /-- The bytes of the string table. -/
  stringTable : List UInt8
  /-- The entries of the symbol table. -/
  symbolTable : List Elf64Sym
  /-- The words of the hash table: `nbucket`, `nchain`, the buckets, then the chains. -/
  hashTable : List (BitVec 32)

/-- A `SymbolRef`: an object, by its handle, and an entry of its symbol table. -/
structure SymbolRef where
  /-- `object`. -/
  object : Nat
  /-- `symbol`. -/
  symbol : Elf64Sym
  deriving DecidableEq, Repr

section Resolution

variable (images : Nat → ObjectImage)

/-- `SymbolRef::getString`. -/
def SymbolRef.getString (r : SymbolRef) : Except Abort (List UInt8) :=
  if r.symbol.stName = 0 then throw .unnamedSymbol
  else pure ((images r.object).stringTable.drop r.symbol.stName)

/-- `SymbolRef::virtualAddress`. -/
def SymbolRef.virtualAddress (r : SymbolRef) : Except Abort Nat := do
  let bind := elf64StBind r.symbol.stInfo
  if ¬(bind = stbGlobal ∨ bind = stbWeak) then throw .localSymbol
  if r.symbol.stShndx = shnUndef then throw .undefinedSymbol
  pure (((images r.object).baseAddress + r.symbol.stValue) % 2 ^ 64)

/-- `symbolSatisfies`: whether the entry `p` can satisfy the reference `r`. -/
def symbolSatisfies (p r : SymbolRef) : Except Abort Bool := do
  if p.symbol.stShndx = shnUndef then return false
  let pBind := elf64StBind p.symbol.stInfo
  if pBind ≠ stbGlobal ∧ pBind ≠ stbWeak then return false
  return strEquals (← p.getString images) (← r.getString images)

/-- `table[index]`, read from memory: past the end of the table the read is undefined. -/
def readAt {α : Type} (table : List α) (index : Nat) : Except Abort α :=
  match table[index]? with
  | some entry => pure entry
  | none => throw .outOfBounds

/-- `while(index != 0)` of `resolveInObject` along a hash chain, for at most `fuel` rounds. -/
def walkChain (pObject : Nat) (r : SymbolRef) (numBuckets : BitVec 32) (fuel : Nat)
    (index : BitVec 32) : Except Abort (Option SymbolRef) :=
  if index = 0 then pure none
  else
    match fuel with
    | 0 => throw .outOfFuel
    | fuel + 1 => do
        let p : SymbolRef := ⟨pObject, ← readAt (images pObject).symbolTable index.toNat⟩
        if ← symbolSatisfies images p r then return some p
        let next ← readAt (images pObject).hashTable (2 + numBuckets + index).toNat
        walkChain pObject r numBuckets fuel next

/-- `resolveInObject`, its chain walk bounded by `fuel` rounds. -/
def resolveInObject (fuel : Nat) (pObject : Nat) (r : SymbolRef) :
    Except Abort (Option SymbolRef) := do
  let rString := (images r.object).stringTable.drop r.symbol.stName
  let hashTable := (images pObject).hashTable
  let numBuckets ← readAt hashTable 0
  if numBuckets = 0 then throw .divideByZero
  let bucket := elf64Hash rString % numBuckets
  let index ← readAt hashTable (2 + bucket).toNat
  walkChain images pObject r numBuckets fuel index

/-- The loop of `Scope::resolveSymbol` over the objects not yet asked. -/
def resolveIn (fuel : Nat) (r : SymbolRef) (copy : Bool) : List Nat →
    Except Abort (Option SymbolRef)
  | [] => pure none
  | object :: objects =>
      if copy = true ∧ object = r.object then resolveIn fuel r copy objects
      else do
        match ← resolveInObject images fuel object r with
        | some p => pure (some p)
        | none => resolveIn fuel r copy objects

/-- `Scope::resolveSymbol`; `copy` is `(flags & kResolveCopy) != 0`. -/
def Scope.resolveSymbol (fuel : Nat) (scope : Scope) (r : SymbolRef) (copy : Bool) :
    Except Abort (Option SymbolRef) :=
  resolveIn images fuel r copy scope.objects

end Resolution

/-! ## Well-formed tables -/

namespace ObjectImage

variable (p : ObjectImage)

/-- `nbucket`, the first word of the hash table. -/
def nbucket : Nat := (p.hashTable.getD 0 0).toNat

/-- `nchain`, the second word of the hash table: the number of symbol-table entries. -/
def nchain : Nat := (p.hashTable.getD 1 0).toNat

/-- The first index on the chain of bucket `b`. -/
def bucket (b : Nat) : Nat := (p.hashTable.getD (2 + b) 0).toNat

/-- The index after `index` on its chain. -/
def chain (index : Nat) : Nat := (p.hashTable.getD (2 + p.nbucket + index) 0).toNat

/-- Entry `index` of the symbol table. -/
def symbol (index : Nat) : Elf64Sym := p.symbolTable.getD index default

/-- The name of an entry, up to its NUL. -/
def name (sym : Elf64Sym) : List UInt8 := cString (p.stringTable.drop sym.stName)

/-- The indices of a chain, from `index` to the `0` that ends it. -/
inductive Chain : Nat → List Nat → Prop
  | stop : Chain 0 []
  | next {index : Nat} {rest : List Nat} (nonzero : index ≠ 0) (tail : Chain (p.chain index) rest) :
      Chain index (index :: rest)

/-- A SysV hash table well formed for `hash`: in memory, chains that end, entries on their chain. -/
structure HashTableWellFormed (hash : List UInt8 → BitVec 32) : Prop where
  nbucket_pos : 0 < p.nbucket
  in_table : 2 + p.nbucket + p.nchain ≤ p.hashTable.length
  no_wrap : 2 + p.nbucket + p.nchain ≤ 2 ^ 32
  symbols_in_table : p.nchain ≤ p.symbolTable.length
  null_undefined : (p.symbol 0).stShndx = shnUndef
  bucket_lt : ∀ b < p.nbucket, p.bucket b < p.nchain
  chain_lt : ∀ index < p.nchain, p.chain index < p.nchain
  acyclic : ∀ b < p.nbucket, ∃ indices, p.Chain (p.bucket b) indices ∧ indices.Nodup
  complete : ∀ index, 0 < index → index < p.nchain → ∃ indices,
    p.Chain (p.bucket ((hash (p.name (p.symbol index))).toNat % p.nbucket)) indices ∧
      index ∈ indices

/-- Every defined global or weak entry of the symbol table has a name. -/
def NamedDefinitions : Prop :=
  ∀ index < p.nchain, (p.symbol index).stShndx ≠ shnUndef →
    (elf64StBind (p.symbol index).stInfo = stbGlobal ∨
        elf64StBind (p.symbol index).stInfo = stbWeak) →
      (p.symbol index).stName ≠ 0

end ObjectImage

section Resolution

variable (images : Nat → ObjectImage)

/-- The entry `sym` of `object` is defined, global or weak, and has the name `r` refers to. -/
def Defines (object : Nat) (sym : Elf64Sym) (r : SymbolRef) : Prop :=
  sym.stShndx ≠ shnUndef ∧
    (elf64StBind sym.stInfo = stbGlobal ∨ elf64StBind sym.stInfo = stbWeak) ∧
    (images object).name sym = (images r.object).name r.symbol

instance (object : Nat) (sym : Elf64Sym) (r : SymbolRef) : Decidable
    (Defines images object sym r) :=
  inferInstanceAs (Decidable (_ ∧ _ ∧ _))

/-- `object` may satisfy `r`: not `r.object` under `kResolveCopy`, and defining `r`'s name. -/
def Provides (copy : Bool) (r : SymbolRef) (object : Nat) : Prop :=
  (copy = true → object ≠ r.object) ∧
    ∃ index < (images object).nchain, Defines images object ((images object).symbol index) r

/-! ## Reading the tables -/

variable {images}

theorem readAt_of_lt {α : Type} {table : List α} {index : Nat} (inside : index < table.length)
    (fallback : α) : readAt table index = .ok (table.getD index fallback) := by
  simp [readAt, List.getElem?_eq_getElem inside]

theorem getString_of_named {r : SymbolRef} (named : r.symbol.stName ≠ 0) :
    r.getString images = .ok ((images r.object).stringTable.drop r.symbol.stName) := by
  simp [SymbolRef.getString, named]

/-- On named definitions, `symbolSatisfies` returns and accepts exactly the name's definitions. -/
theorem symbolSatisfies_eq {p r : SymbolRef}
    (named : p.symbol.stShndx ≠ shnUndef →
      (elf64StBind p.symbol.stInfo = stbGlobal ∨ elf64StBind p.symbol.stInfo = stbWeak) →
        p.symbol.stName ≠ 0)
    (named_reference : r.symbol.stName ≠ 0) :
    symbolSatisfies images p r = .ok (decide (Defines images p.object p.symbol r)) := by
  by_cases undefined : p.symbol.stShndx = shnUndef
  · simp [symbolSatisfies, Defines, undefined]
  by_cases binding : elf64StBind p.symbol.stInfo = stbGlobal ∨ elf64StBind p.symbol.stInfo = stbWeak
  · simp [symbolSatisfies, Defines, undefined, binding,
      getString_of_named (named undefined binding),
      getString_of_named named_reference, strEquals_eq_decide, ObjectImage.name]
    exact fun global weak => (not_or.mpr ⟨global, weak⟩ binding).elim
  · simp only [not_or] at binding
    simp [symbolSatisfies, Defines, undefined, binding]

/-- A defined global or weak entry has a virtual address. -/
theorem virtualAddress_of_defines {p r : SymbolRef} (defines : Defines images p.object p.symbol r) :
    p.virtualAddress images = .ok
        (((images p.object).baseAddress + p.symbol.stValue) % 2 ^ 64) := by
  obtain ⟨defined, binding, -⟩ := defines
  simp [SymbolRef.virtualAddress, binding, defined]

/-! ## Walking a chain -/

namespace ObjectImage.Chain

variable {p : ObjectImage}

/-- An index has one chain. -/
theorem unique {index : Nat} {one other : List Nat} (first : p.Chain index one)
    (second : p.Chain index other) : one = other := by
  induction first generalizing other with
  | stop =>
      cases second with
      | stop => rfl
      | next nonzero _ => exact absurd rfl nonzero
  | next nonzero _ ih =>
      cases second with
      | stop => exact absurd rfl nonzero
      | next _ tail => rw [ih tail]

/-- A chain that starts inside the table stays inside it. -/
theorem lt_nchain {index : Nat} {indices : List Nat} (chain : p.Chain index indices)
    (chain_lt : ∀ i < p.nchain, p.chain i < p.nchain) (start : index < p.nchain) :
    ∀ i ∈ indices, i < p.nchain := by
  induction chain with
  | stop => simp
  | next _ _ ih =>
      intro i member
      rcases List.mem_cons.mp member with rfl | later
      · exact start
      · exact ih (chain_lt _ start) i later

/-- A chain that visits no index twice is no longer than the table. -/
theorem length_le {indices : List Nat} (inside : ∀ i ∈ indices, i < p.nchain)
    (distinct : indices.Nodup) : indices.length ≤ p.nchain := by
  rw [← List.toFinset_card_of_nodup distinct]
  calc indices.toFinset.card ≤ (Finset.range p.nchain).card :=
        Finset.card_le_card fun i member => by simpa using inside i (by simpa using member)
    _ = p.nchain := Finset.card_range _

end ObjectImage.Chain

/-- The index `0` ends a chain whatever the bound. -/
theorem walkChain_zero (o : Nat) (r : SymbolRef) (numBuckets : BitVec 32) (fuel : Nat) :
    walkChain images o r numBuckets fuel 0 = .ok none := by
  rw [walkChain.eq_def, if_pos rfl]
  rfl

theorem toNat_chain_index {numBuckets index : BitVec 32}
    (fits : 2 + numBuckets.toNat + index.toNat < 2 ^ 32) :
    (2 + numBuckets + index).toNat = 2 + numBuckets.toNat + index.toNat := by
  bv_omega

/-- On a well-formed table the chain walk returns the first entry on it that defines the name. -/
theorem walkChain_eq_find {o : Nat} {r : SymbolRef} {numBuckets : BitVec 32}
    (buckets : numBuckets.toNat = (images o).nbucket)
    (well_formed : (images o).HashTableWellFormed elf64Hash) (named : (images o).NamedDefinitions)
    (named_reference : r.symbol.stName ≠ 0) {start : Nat} {indices : List Nat}
    (chain : (images o).Chain start indices) (inside : ∀ i ∈ indices, i < (images o).nchain) :
    ∀ (fuel : Nat) (index : BitVec 32), indices.length ≤ fuel → index.toNat = start →
      walkChain images o r numBuckets fuel index =
        .ok ((indices.find? fun i => decide (Defines images o ((images o).symbol i) r)).map
          fun i => ⟨o, (images o).symbol i⟩) := by
  induction chain with
  | stop =>
      intro fuel index _ at_start
      obtain rfl : index = 0 := by bv_omega
      exact walkChain_zero o r numBuckets fuel
  | @next i rest nonzero _ ih =>
      intro fuel index budget at_start
      obtain ⟨fuel, rfl⟩ : ∃ f, fuel = f + 1 := ⟨fuel - 1, by simp at budget; omega⟩
      have i_lt := inside i (List.mem_cons_self _ _)
      have index_ne : index ≠ 0 := by bv_omega
      have read_symbol : readAt (images o).symbolTable index.toNat = .ok ((images o).symbol i) :=
        at_start ▸ readAt_of_lt (lt_of_lt_of_le i_lt well_formed.symbols_in_table) default
      have satisfies : symbolSatisfies images ⟨o, (images o).symbol i⟩ r =
          .ok (decide (Defines images o ((images o).symbol i) r)) :=
        symbolSatisfies_eq (named i i_lt) named_reference
      have next_at : (2 + numBuckets + index).toNat = 2 + (images o).nbucket + i := by
        have := well_formed.no_wrap
        rw [toNat_chain_index (by omega), buckets, at_start]
      have read_next : readAt (images o).hashTable (2 + numBuckets + index).toNat =
          .ok ((images o).hashTable.getD (2 + (images o).nbucket + i) 0) := by
        have := well_formed.in_table
        rw [next_at]
        exact readAt_of_lt (by omega) 0
      rw [walkChain.eq_def, if_neg index_ne]
      simp only [read_symbol, satisfies, read_next, Except.ok_bind]
      by_cases defines : Defines images o ((images o).symbol i) r
      · simp [defines]
      · simpa [defines, List.find?_cons] using
          ih (fun j member => inside j (List.mem_cons_of_mem _ member)) fuel _
              (by simpa using budget) rfl

/-! ## Resolving in one object -/

/-- On a well-formed table, `resolveInObject` returns the first definition on the name's chain. -/
theorem resolveInObject_eq_find {o : Nat} {r : SymbolRef}
    (well_formed : (images o).HashTableWellFormed elf64Hash) (named : (images o).NamedDefinitions)
    (named_reference : r.symbol.stName ≠ 0) {fuel : Nat} (budget : (images o).nchain ≤ fuel)
    {indices : List Nat} (chain : (images o).Chain ((images o).bucket
      ((elf64Hash ((images r.object).stringTable.drop r.symbol.stName)).toNat % (images o).nbucket))
      indices) (distinct : indices.Nodup) :
    resolveInObject images fuel o r = .ok ((indices.find? fun i =>
      decide (Defines images o ((images o).symbol i) r)).map fun i =>
          ⟨o, (images o).symbol i⟩) := by
  set rString := (images r.object).stringTable.drop r.symbol.stName
  set numBuckets := (images o).hashTable.getD 0 0
  have in_table := well_formed.in_table
  have no_wrap := well_formed.no_wrap
  have buckets : numBuckets.toNat = (images o).nbucket := rfl
  have nonzero : numBuckets ≠ 0 := fun zero => by
    simpa [← buckets, zero] using well_formed.nbucket_pos
  set b := (elf64Hash rString).toNat % (images o).nbucket with b_eq
  have b_lt : b < (images o).nbucket := Nat.mod_lt _ well_formed.nbucket_pos
  have bucket_at : (2 + elf64Hash rString % numBuckets).toNat = 2 + b := by
    rw [BitVec.toNat_add, BitVec.toNat_umod, buckets, ← b_eq]
    show (2 + b) % 2 ^ 32 = 2 + b
    omega
  have inside := chain.lt_nchain well_formed.chain_lt (well_formed.bucket_lt b b_lt)
  simp only [resolveInObject, readAt_of_lt (by omega : 0 < (images o).hashTable.length) 0,
    Except.ok_bind, if_neg nonzero, bucket_at, Except.pure_eq_ok,
    readAt_of_lt (show 2 + b < (images o).hashTable.length by omega) 0]
  exact walkChain_eq_find buckets well_formed named named_reference chain inside fuel _
    ((ObjectImage.Chain.length_le inside distinct).trans budget) rfl

/-- An entry that defines the name of `r` lies on the chain of the bucket the name hashes to. -/
theorem mem_chain_of_defines {o : Nat} {r : SymbolRef}
    (well_formed : (images o).HashTableWellFormed elf64Hash) {indices : List Nat}
    (chain : (images o).Chain ((images o).bucket
      ((elf64Hash ((images r.object).stringTable.drop r.symbol.stName)).toNat % (images o).nbucket))
      indices) {i : Nat} (i_lt : i < (images o).nchain)
    (defines : Defines images o ((images o).symbol i) r) : i ∈ indices := by
  have i_pos : 0 < i := Nat.pos_of_ne_zero fun zero =>
    defines.1 (zero ▸ well_formed.null_undefined)
  obtain ⟨others, own_chain, member⟩ := well_formed.complete i i_pos i_lt
  rw [defines.2.2, ObjectImage.name, elf64Hash_cString] at own_chain
  rwa [own_chain.unique chain] at member

/-- On a well-formed table, `resolveInObject` finds an entry exactly when one defines the name. -/
theorem resolveInObject_spec {o : Nat} {r : SymbolRef}
    (well_formed : (images o).HashTableWellFormed elf64Hash) (named : (images o).NamedDefinitions)
    (named_reference : r.symbol.stName ≠ 0) {fuel : Nat} (budget : (images o).nchain ≤ fuel) :
    ∃ result, resolveInObject images fuel o r = .ok result ∧
      (result.isSome ↔ ∃ index < (images o).nchain, Defines images o ((images o).symbol index) r) ∧
      ∀ p, result = some p → p.object = o ∧
        ∃ index < (images o).nchain, p.symbol = (images o).symbol index ∧
          Defines images o p.symbol r := by
  have b_lt := Nat.mod_lt (elf64Hash ((images r.object).stringTable.drop r.symbol.stName)).toNat
    well_formed.nbucket_pos
  obtain ⟨indices, chain, distinct⟩ := well_formed.acyclic _ b_lt
  have inside := chain.lt_nchain well_formed.chain_lt (well_formed.bucket_lt _ b_lt)
  refine ⟨_,
      resolveInObject_eq_find well_formed named named_reference budget chain distinct, ?_, ?_⟩
  · simp only [Option.isSome_map', List.find?_isSome, decide_eq_true_eq]
    exact ⟨fun ⟨i, member, defines⟩ => ⟨i, inside i member, defines⟩,
      fun ⟨i, i_lt, defines⟩ => ⟨i, mem_chain_of_defines well_formed chain i_lt defines, defines⟩⟩
  · intro p found
    obtain ⟨i, found_i, rfl⟩ := Option.map_eq_some'.mp found
    exact ⟨rfl, i, inside i (List.mem_of_find?_eq_some found_i), rfl,
      by simpa using List.find?_some found_i⟩

/-! ## Resolving in a scope -/

/-- The loop of `Scope::resolveSymbol` returns an entry of the first object providing the name. -/
theorem resolveIn_spec {r : SymbolRef} {copy : Bool} {fuel : Nat}
    (named_reference : r.symbol.stName ≠ 0) :
    ∀ objects : List Nat, (∀ o ∈ objects, (images o).HashTableWellFormed elf64Hash ∧
      (images o).NamedDefinitions ∧ (images o).nchain ≤ fuel) →
    ∃ result, resolveIn images fuel r copy objects = .ok result ∧
      (result.isSome ↔ ∃ o ∈ objects, Provides images copy r o) ∧
      ∀ p, result = some p → Provides images copy r p.object ∧
        (∃ index < (images p.object).nchain, p.symbol = (images p.object).symbol index ∧
          Defines images p.object p.symbol r) ∧
        ∃ before after, objects = before ++ p.object :: after ∧
          ∀ o ∈ before, ¬Provides images copy r o
  | [], _ => ⟨none, rfl, by simp, by simp⟩
  | o :: objects, tables => by
      obtain ⟨result, run, found, first⟩ :=
        @resolveIn_spec r copy fuel named_reference objects fun o' member =>
          tables o' (List.mem_cons_of_mem _ member)
      -- an object that does not provide the name leaves the answer to the objects after it
      have past : ¬Provides images copy r o →
          ((result.isSome ↔ ∃ o' ∈ o :: objects, Provides images copy r o') ∧
          ∀ p, result = some p → Provides images copy r p.object ∧
            (∃ index < (images p.object).nchain, p.symbol = (images p.object).symbol index ∧
              Defines images p.object p.symbol r) ∧
            ∃ before after, o :: objects = before ++ p.object :: after ∧
              ∀ o' ∈ before, ¬Provides images copy r o') := by
        intro absent
        refine ⟨by simp [found, absent], fun p some_p => ?_⟩
        obtain ⟨provides, defines, before, after, split, none_before⟩ := first p some_p
        refine ⟨provides, defines, o :: before, after, by simp [split], ?_⟩
        simpa using ⟨absent, none_before⟩
      by_cases skipped : copy = true ∧ o = r.object
      · refine ⟨result, by rw [resolveIn, if_pos skipped, run], past fun provides => ?_⟩
        exact provides.1 skipped.1 skipped.2
      obtain ⟨well_formed, named, budget⟩ := tables o (List.mem_cons_self _ _)
      obtain ⟨found₀, run₀, iff₀, some₀⟩ :=
        resolveInObject_spec well_formed named named_reference budget
      cases found₀ with
      | none =>
          refine ⟨result, by rw [resolveIn, if_neg skipped, run₀]; exact run,
              past fun provides => ?_⟩
          simpa using iff₀.mpr provides.2
      | some p =>
          obtain ⟨object_eq, definition⟩ := some₀ p rfl
          subst object_eq
          have provides : Provides images copy r p.object :=
            ⟨fun copying same => skipped ⟨copying, same⟩, iff₀.mp rfl⟩
          refine ⟨some p, by rw [resolveIn, if_neg skipped, run₀]; rfl,
            ⟨fun _ => ⟨p.object, List.mem_cons_self _ _, provides⟩, fun _ => rfl⟩, ?_⟩
          rintro q ⟨⟩
          exact ⟨provides, definition, [], objects, rfl, by simp⟩

/-- `Scope::resolveSymbol` returns a definition of the first object in scope order with one. -/
theorem resolveSymbol_returns_first_definition (images : Nat → ObjectImage) (fuel : Nat)
    (scope : Scope) (r : SymbolRef) (copy : Bool)
    (well_formed : ∀ o ∈ scope.objects, (images o).HashTableWellFormed elf64Hash)
    (named : ∀ o ∈ scope.objects, (images o).NamedDefinitions)
    (named_reference : r.symbol.stName ≠ 0)
    (budget : ∀ o ∈ scope.objects, (images o).nchain ≤ fuel) :
    ∃ result, scope.resolveSymbol images fuel r copy = .ok result ∧
      (result.isSome ↔ ∃ o ∈ scope.objects, Provides images copy r o) ∧
      ∀ p, result = some p →
        (∃ index < (images p.object).nchain, p.symbol = (images p.object).symbol index ∧
          Defines images p.object p.symbol r) ∧
        (copy = true → p.object ≠ r.object) ∧
        (∃ before after, scope.objects = before ++ p.object :: after ∧
          ∀ o ∈ before, ¬Provides images copy r o) ∧
        p.virtualAddress images = .ok
            (((images p.object).baseAddress + p.symbol.stValue) % 2 ^ 64) := by
  obtain ⟨result, run, found, first⟩ := @resolveIn_spec images r copy fuel
    named_reference scope.objects
    fun o member => ⟨well_formed o member, named o member, budget o member⟩
  refine ⟨result, run, found, fun p some_p => ?_⟩
  obtain ⟨provides, ⟨index, index_lt, entry, defines⟩, before_first⟩ := first p some_p
  exact ⟨⟨index, index_lt, entry, defines⟩, provides.1, before_first,
    virtualAddress_of_defines defines⟩

end Resolution

/-- An object with global `a` and weak `b` as entries `1` and `2`, on the one chain of its table. -/
def namedPair : ObjectImage where
  baseAddress := 0x41000000
  stringTable := [0, 0x61, 0, 0x62, 0]
  symbolTable := [⟨0, 0, 0, 0⟩, ⟨1, 0x10, 1, 0x10⟩, ⟨3, 0x20, 1, 0x20⟩]
  hashTable := [1, 3, 1, 0, 2, 0]

/-- With one bucket, the table of `namedPair` is well formed whatever the hash. -/
theorem namedPair_wellFormed (hash : List UInt8 → BitVec 32) :
    namedPair.HashTableWellFormed hash := by
  have one_bucket : namedPair.nbucket = 1 := rfl
  have three_entries : namedPair.nchain = 3 := rfl
  have chain : namedPair.Chain 1 [1, 2] := .next (by decide) (.next (by decide) .stop)
  refine ⟨by decide, by decide, by decide, by decide, by decide, by decide, by decide,
    fun b b_lt => ?_, fun index first index_lt => ?_⟩
  · obtain rfl : b = 0 := by omega
    exact ⟨[1, 2], chain, by decide⟩
  · rw [one_bucket, Nat.mod_one]
    exact ⟨[1, 2], chain, by simp; omega⟩

theorem namedPair_named : namedPair.NamedDefinitions := by
  unfold ObjectImage.NamedDefinitions
  decide

theorem resolveSymbol_namedPair_returns_first_definition :
    (∀ o ∈ [1, 0], (fun _ => namedPair) o |>.HashTableWellFormed elf64Hash) ∧
      (∀ o ∈ [1, 0], ((fun _ => namedPair) o).NamedDefinitions) ∧ (3 : Nat) ≠ 0 ∧
      (∀ o ∈ [1, 0], ((fun _ => namedPair) o).nchain ≤ 3) ∧
      ∃ result, (Scope.mk [1, 0]).resolveSymbol (fun _ => namedPair) 3
          ⟨1, ⟨3, 0x10, 0, 0⟩⟩ true = .ok result ∧
        (result.isSome ↔ ∃ o ∈ [1, 0], Provides (fun _ => namedPair) true ⟨1, ⟨3, 0x10, 0, 0⟩⟩ o) ∧
        ∀ p : SymbolRef, result = some p →
          (∃ index < namedPair.nchain, p.symbol = namedPair.symbol index ∧
            Defines (fun _ => namedPair) p.object p.symbol ⟨1, ⟨3, 0x10, 0, 0⟩⟩) ∧
          (true = true → p.object ≠ 1) ∧
          (∃ before after, [1, 0] = before ++ p.object :: after ∧
            ∀ o ∈ before, ¬Provides (fun _ => namedPair) true ⟨1, ⟨3, 0x10, 0, 0⟩⟩ o) ∧
          p.virtualAddress (fun _ => namedPair) =
            .ok ((namedPair.baseAddress + p.symbol.stValue) % 2 ^ 64) :=
  ⟨fun _ _ => namedPair_wellFormed elf64Hash, fun _ _ => namedPair_named, by decide,
    fun _ _ => le_refl 3,
    resolveSymbol_returns_first_definition (fun _ => namedPair) 3 ⟨[1, 0]⟩ ⟨1, ⟨3, 0x10, 0, 0⟩⟩ true
      (fun _ _ => namedPair_wellFormed elf64Hash) (fun _ _ => namedPair_named) (by decide)
      fun _ _ => le_refl 3⟩

/-! ## Tables built with the gABI hash -/

/-- A gABI-hash table is well formed for `elf64Hash` when all its names have bytes below `0x80`. -/
theorem ObjectImage.HashTableWellFormed.of_gabiHash {p : ObjectImage}
    (well_formed : p.HashTableWellFormed gabiHash)
    (ascii : ∀ index < p.nchain, ∀ c ∈ p.name (p.symbol index), c.toNat < 0x80) :
    p.HashTableWellFormed elf64Hash := by
  refine { well_formed with complete := fun index first index_lt => ?_ }
  have same : elf64Hash (p.name (p.symbol index)) = gabiHash (p.name (p.symbol index)) := by
    rw [elf64Hash_eq_gabiHash
        (by simpa [ObjectImage.name, cString_cString] using ascii index index_lt)]
    simp [ObjectImage.name, cString_cString]
  rw [same]
  exact well_formed.complete index first index_lt

theorem namedPair_wellFormed_of_gabiHash :
    namedPair.HashTableWellFormed gabiHash ∧
      (∀ index < namedPair.nchain, ∀ c ∈ namedPair.name (namedPair.symbol index), c.toNat < 0x80) ∧
      namedPair.HashTableWellFormed elf64Hash :=
  ⟨namedPair_wellFormed gabiHash, by decide,
    ObjectImage.HashTableWellFormed.of_gabiHash (namedPair_wellFormed gabiHash) (by decide)⟩

/-- An object whose entry `1` is named `0x80`, on bucket `gabiHash [0x80] % 3 = 2` of its table. -/
def highByteName : ObjectImage where
  baseAddress := 0
  stringTable := [0, 0x80, 0]
  symbolTable := [⟨0, 0, 0, 0⟩, ⟨1, 0x10, 1, 0⟩]
  hashTable := [3, 2, 0, 0, 1, 0, 0]

/-- On the name `0x80` the hashes differ, and `resolveInObject` misses `highByteName`'s entry. -/
theorem resolveInObject_misses_gabiHash_entry :
    elf64Hash [0x80] = 0x0FFFFF70#32 ∧ gabiHash [0x80] = 0x80#32 ∧
      highByteName.HashTableWellFormed gabiHash ∧
      Defines (fun _ => highByteName) 0 (highByteName.symbol 1) ⟨0, highByteName.symbol 1⟩ ∧
      ∀ fuel, resolveInObject (fun _ => highByteName) fuel 0 ⟨0, highByteName.symbol 1⟩ =
        .ok none := by
  have three_buckets : highByteName.nbucket = 3 := rfl
  have two_entries : highByteName.nchain = 2 := rfl
  refine ⟨by decide, by decide, ⟨by decide, by decide, by decide, by decide, by decide,
    by decide, by decide, fun b b_lt => ?_, fun index first index_lt => ?_⟩, by decide,
    fun fuel => ?_⟩
  · obtain rfl | rfl | rfl : b = 0 ∨ b = 1 ∨ b = 2 := by omega
    · exact ⟨[], .stop, List.nodup_nil⟩
    · exact ⟨[], .stop, List.nodup_nil⟩
    · exact ⟨[1], .next (by decide) .stop, by decide⟩
  · obtain rfl : index = 1 := by omega
    have linker_bucket : highByteName.bucket ((gabiHash (highByteName.name
        (highByteName.symbol 1))).toNat % highByteName.nbucket) = 1 := by decide
    rw [linker_bucket]
    exact ⟨[1], .next (by decide) .stop, List.mem_singleton_self 1⟩
  · have empty_bucket : resolveInObject (fun _ => highByteName) fuel 0 ⟨0, highByteName.symbol 1⟩ =
        walkChain (fun _ => highByteName) 0 ⟨0, highByteName.symbol 1⟩ 3 fuel 0 := rfl
    rw [empty_bucket, walkChain_zero]

/-! ## The unnamed-entry abort -/

/-- An object whose one chain holds an unnamed global definition `1` before `2`, named `a`. -/
def unnamedAhead : ObjectImage where
  baseAddress := 0
  stringTable := [0, 0x61, 0]
  symbolTable := [⟨0, 0, 0, 0⟩, ⟨0, 0x10, 1, 0⟩, ⟨1, 0x10, 1, 8⟩]
  hashTable := [1, 3, 1, 0, 2, 0]

/-- The chain of the one bucket of `unnamedAhead`. -/
theorem unnamedAhead_chain : unnamedAhead.Chain 1 [1, 2] :=
  .next (by decide) (.next (by decide) .stop)

/-- Resolving `a` in `unnamedAhead` aborts in `SymbolRef::getString` on the unnamed entry. -/
theorem resolveSymbol_aborts_on_unnamed_definition :
    unnamedAhead.HashTableWellFormed elf64Hash ∧
      Provides (fun _ => unnamedAhead) false ⟨0, ⟨1, 0x10, 1, 8⟩⟩ 0 ∧
      ∀ fuel, Scope.resolveSymbol (fun _ => unnamedAhead) (fuel + 1) ⟨[0]⟩ ⟨0, ⟨1, 0x10, 1, 8⟩⟩
        false = .error .unnamedSymbol := by
  have one_bucket : unnamedAhead.nbucket = 1 := rfl
  have three_entries : unnamedAhead.nchain = 3 := rfl
  refine ⟨⟨by decide, by decide, by decide, by decide, by decide, by decide, by decide,
    fun b b_lt => ?_, fun index first index_lt => ?_⟩, ⟨nofun, 2, by decide, by decide⟩,
        fun _ => rfl⟩
  · obtain rfl : b = 0 := by omega
    exact ⟨[1, 2], unnamedAhead_chain, by decide⟩
  · rw [one_bucket, Nat.mod_one]
    exact ⟨[1, 2], unnamedAhead_chain, by simp; omega⟩

/-! ## Whatever the tables -/

section Soundness

variable {images : Nat → ObjectImage}

theorem SymbolRef.getString_eq_ok {r : SymbolRef} {name : List UInt8}
    (read : r.getString images = .ok name) :
    name = (images r.object).stringTable.drop r.symbol.stName := by
  unfold SymbolRef.getString at read
  split_ifs at read
  cases read
  rfl

/-- An entry `symbolSatisfies` accepts defines the reference's name. -/
theorem defines_of_symbolSatisfies {p r : SymbolRef}
    (satisfied : symbolSatisfies images p r = .ok true) : Defines images p.object p.symbol r := by
  unfold symbolSatisfies at satisfied
  by_cases undefined : p.symbol.stShndx = shnUndef
  · simp [undefined] at satisfied
  by_cases binding : elf64StBind p.symbol.stInfo = stbGlobal ∨ elf64StBind p.symbol.stInfo = stbWeak
  · have kept :
        ¬(elf64StBind p.symbol.stInfo ≠ stbGlobal ∧ elf64StBind p.symbol.stInfo ≠ stbWeak) := by
      tauto
    simp only [undefined, kept, if_false, pure_bind] at satisfied
    obtain ⟨name, own, satisfied⟩ := Except.bind_eq_ok satisfied
    obtain ⟨name', other, satisfied⟩ := Except.bind_eq_ok satisfied
    refine ⟨undefined, binding, ?_⟩
    simp only [ObjectImage.name, ← SymbolRef.getString_eq_ok own, ← SymbolRef.getString_eq_ok other]
    exact (strEquals_eq_true_iff _ _).mp (by simpa using satisfied)
  · simp only [not_or] at binding
    simp [undefined, binding] at satisfied

theorem mem_of_readAt {α : Type} {table : List α} {index : Nat} {entry : α}
    (read : readAt table index = .ok entry) : entry ∈ table := by
  unfold readAt at read
  split at read
  · cases read
    exact List.mem_iff_getElem?.mpr ⟨_, ‹_›⟩
  · cases read

/-- Whatever the table, the chain walk returns only symbol-table entries defining the name. -/
theorem walkChain_sound {o : Nat} {r p : SymbolRef} {numBuckets : BitVec 32} :
    ∀ (fuel : Nat) (index : BitVec 32),
      walkChain images o r numBuckets fuel index = .ok (some p) →
        p.object = o ∧ p.symbol ∈ (images o).symbolTable ∧ Defines images o p.symbol r
  | 0, index, found => by
      rw [walkChain.eq_def] at found
      split_ifs at found
      cases found
  | fuel + 1, index, found => by
      rw [walkChain.eq_def] at found
      split_ifs at found
      · cases found
      obtain ⟨symbol, read, found⟩ := Except.bind_eq_ok found
      obtain ⟨accepted, satisfied, found⟩ := Except.bind_eq_ok found
      cases accepted with
      | false =>
          simp only [Bool.false_eq_true, if_false, pure_bind] at found
          obtain ⟨next, -, found⟩ := Except.bind_eq_ok found
          exact walkChain_sound fuel next found
      | true =>
          cases found
          exact ⟨rfl, mem_of_readAt read, defines_of_symbolSatisfies satisfied⟩

/-- Whatever the table, `resolveInObject` returns only symbol-table entries defining the name. -/
theorem resolveInObject_sound {fuel o : Nat} {r p : SymbolRef}
    (found : resolveInObject images fuel o r = .ok (some p)) :
    p.object = o ∧ p.symbol ∈ (images o).symbolTable ∧ Defines images o p.symbol r := by
  unfold resolveInObject at found
  obtain ⟨numBuckets, -, found⟩ := Except.bind_eq_ok found
  split_ifs at found
  · cases found
  rw [pure_bind] at found
  obtain ⟨index, -, found⟩ := Except.bind_eq_ok found
  exact walkChain_sound _ _ found

/-- Whatever the tables, the loop returns only definitions of the name by the objects asked. -/
theorem resolveIn_sound {fuel : Nat} {r p : SymbolRef} {copy : Bool} :
    ∀ objects : List Nat, resolveIn images fuel r copy objects = .ok (some p) →
      p.object ∈ objects ∧ (copy = true → p.object ≠ r.object) ∧
        p.symbol ∈ (images p.object).symbolTable ∧ Defines images p.object p.symbol r
  | [], found => by cases found
  | o :: objects, found => by
      -- an entry found among the objects after `o`
      have later : resolveIn images fuel r copy objects = .ok (some p) → _ := fun found =>
        (resolveIn_sound objects found).imp_left (List.mem_cons_of_mem o)
      by_cases skipped : copy = true ∧ o = r.object
      · rw [resolveIn, if_pos skipped] at found
        exact later found
      rw [resolveIn, if_neg skipped] at found
      obtain ⟨result, run, found⟩ := Except.bind_eq_ok found
      cases result with
      | none => exact later found
      | some q =>
          cases found
          obtain ⟨rfl, entry, defines⟩ := resolveInObject_sound run
          exact ⟨List.mem_cons_self _ _, fun copying same => skipped ⟨copying, same⟩, entry,
            defines⟩

end Soundness

/-- On any tables, `Scope::resolveSymbol` returns only definitions of the name in scope. -/
theorem resolveSymbol_returns_only_definitions (images : Nat → ObjectImage) (fuel : Nat)
    (scope : Scope) (r : SymbolRef) (copy : Bool) (p : SymbolRef)
    (found : scope.resolveSymbol images fuel r copy = .ok (some p)) :
    p.object ∈ scope.objects ∧ (copy = true → p.object ≠ r.object) ∧
      p.symbol ∈ (images p.object).symbolTable ∧ Defines images p.object p.symbol r :=
  resolveIn_sound scope.objects found

theorem resolveSymbol_namedPair_returns_only_definitions :
    (Scope.mk [1, 0]).resolveSymbol (fun _ => namedPair) 3 ⟨1, ⟨3, 0x10, 0, 0⟩⟩ true =
        .ok (some ⟨0, ⟨3, 0x20, 1, 0x20⟩⟩) ∧
      (0 ∈ [1, 0] ∧ (true = true → 0 ≠ 1) ∧ ⟨3, 0x20, 1, 0x20⟩ ∈ namedPair.symbolTable ∧
        Defines (fun _ => namedPair) 0 ⟨3, 0x20, 1, 0x20⟩ ⟨1, ⟨3, 0x10, 0, 0⟩⟩) :=
  ⟨rfl, resolveSymbol_returns_only_definitions (fun _ => namedPair) 3 ⟨[1, 0]⟩ ⟨1, ⟨3, 0x10, 0, 0⟩⟩
    true ⟨0, ⟨3, 0x20, 1, 0x20⟩⟩ rfl⟩

end LdInit
