import Mathlib.Data.BitVec

/-!
# Symbol names and their hash

`elf64Hash` converts each `char` of a name to `uint32_t` with `char` signed, while the gABI hash
reads `unsigned char`: the two agree on names whose bytes are below `0x80`, not on `[0x80]`.
-/

namespace LdInit

/-- A C string: the bytes before the first NUL. -/
def cString (bytes : List UInt8) : List UInt8 := bytes.takeWhile (· ≠ 0)

@[simp]
theorem cString_nil : cString [] = [] := rfl

@[simp]
theorem cString_cons_zero (bytes : List UInt8) : cString (0 :: bytes) = [] := by
  simp [cString]

@[simp]
theorem cString_cons_of_ne {c : UInt8} (bytes : List UInt8) (nonzero : c ≠ 0) :
    cString (c :: bytes) = c :: cString bytes := by
  simp [cString, List.takeWhile_cons, nonzero]

theorem cString_cString (bytes : List UInt8) : cString (cString bytes) = cString bytes := by
  induction bytes with
  | nil => rfl
  | cons c bytes ih => by_cases zero : c = 0 <;> simp [zero, ih]

theorem mem_cString {bytes : List UInt8} {c : UInt8} (member : c ∈ cString bytes) : c ≠ 0 := by
  simpa using List.mem_takeWhile_imp member

/-- `*str`: the byte a string pointer reads. -/
def peek : List UInt8 → UInt8
  | [] => 0
  | c :: _ => c

/-- `strEquals`: compare byte by byte while neither string has ended. -/
def strEquals : List UInt8 → List UInt8 → Bool
  | c₁ :: str₁, c₂ :: str₂ =>
      if c₁ ≠ 0 ∧ c₂ ≠ 0 then
        if c₁ ≠ c₂ then false else strEquals str₁ str₂
      else !(c₁ ≠ 0 ∨ c₂ ≠ 0)
  | str₁, str₂ => !(peek str₁ ≠ 0 ∨ peek str₂ ≠ 0)

/-- `strEquals` holds exactly of two strings with the same bytes before their NULs. -/
theorem strEquals_eq_true_iff :
    ∀ str₁ str₂, strEquals str₁ str₂ = true ↔ cString str₁ = cString str₂
  | [], [] => by simp [strEquals, peek]
  | [], c :: _ => by by_cases zero : c = 0 <;> simp [strEquals, peek, zero]
  | c :: _, [] => by by_cases zero : c = 0 <;> simp [strEquals, peek, zero]
  | c₁ :: str₁, c₂ :: str₂ => by
      have ih := strEquals_eq_true_iff str₁ str₂
      rw [strEquals]
      by_cases zero₁ : c₁ = 0 <;> by_cases zero₂ : c₂ = 0
      · simp [zero₁, zero₂]
      · simp [zero₁, zero₂, eq_comm]
      · simp [zero₁, zero₂]
      · by_cases same : c₁ = c₂ <;> simp [zero₁, zero₂, same, ih]

theorem strEquals_eq_decide (str₁ str₂ : List UInt8) :
    strEquals str₁ str₂ = decide (cString str₁ = cString str₂) :=
  Bool.eq_iff_iff.mpr (by simpa using strEquals_eq_true_iff str₁ str₂)

/-! ## `elf64Hash` -/

/-- `(uint32_t)` of a `char`, which is signed on x86-64: the byte is sign-extended. -/
def charToUInt32 (c : UInt8) : BitVec 32 := c.toBitVec.signExtend 32

/-- The body of the loop of `elf64Hash`, on the converted character `c`. -/
def elf64HashStep (h c : BitVec 32) : BitVec 32 :=
  let h := (h <<< 4) + c
  let g := h &&& 0xF0000000#32
  let h := if g ≠ 0 then h ^^^ g >>> 24 else h
  h &&& 0x0FFFFFFF#32

/-- The loop of `elf64Hash`: `while(*name)`. -/
def elf64HashLoop (h : BitVec 32) : List UInt8 → BitVec 32
  | [] => h
  | c :: name => if c = 0 then h else elf64HashLoop (elf64HashStep h (charToUInt32 c)) name

/-- `elf64Hash`. -/
def elf64Hash (name : List UInt8) : BitVec 32 := elf64HashLoop 0 name

theorem elf64HashLoop_cString (h : BitVec 32) (name : List UInt8) :
    elf64HashLoop h (cString name) = elf64HashLoop h name := by
  induction name generalizing h with
  | nil => rfl
  | cons c name ih => by_cases zero : c = 0 <;> simp [elf64HashLoop, zero, ih]

/-- The hash reads the name only up to its NUL. -/
@[simp]
theorem elf64Hash_cString (name : List UInt8) : elf64Hash (cString name) = elf64Hash name :=
  elf64HashLoop_cString 0 name

/-! ## The gABI hash -/

/-- One round of the System V gABI ELF hash on the byte `b`, read as `unsigned char`. -/
def gabiHashStep (h : BitVec 32) (b : UInt8) : BitVec 32 :=
  let h := (h <<< 4) + b.toBitVec.setWidth 32
  let g := h &&& 0xF0000000#32
  let h := h ^^^ g >>> 24
  h &&& ~~~g

/-- The System V gABI ELF hash, the one static linkers use to build `DT_HASH`. -/
def gabiHash (name : List UInt8) : BitVec 32 := name.foldl gabiHashStep 0

/-- After folding back the high nibble, masking by `~g` is masking by `0x0FFFFFFF`. -/
theorem fold_high_nibble (x : BitVec 32) :
    (x ^^^ (x &&& 0xF0000000#32) >>> 24) &&& ~~~(x &&& 0xF0000000#32) =
      (x ^^^ (x &&& 0xF0000000#32) >>> 24) &&& 0x0FFFFFFF#32 := by
  ext i
  simp only [BitVec.getLsbD_and, BitVec.getLsbD_xor, BitVec.getLsbD_not,
    BitVec.getLsbD_ushiftRight, BitVec.getLsbD_ofNat]
  generalize x.getLsbD i = a
  generalize x.getLsbD (24 + i) = b
  revert a b
  revert i
  decide

/-- On a byte below `0x80`, sign and zero extension agree. -/
theorem charToUInt32_of_lt {c : UInt8} (ascii : c.toNat < 0x80) :
    charToUInt32 c = c.toBitVec.setWidth 32 := by
  have msb : c.toBitVec.msb = false := by simpa [BitVec.msb_eq_decide] using ascii
  ext i
  simp only [charToUInt32, BitVec.getLsbD_signExtend, BitVec.getLsbD_setWidth, msb]
  by_cases low : (i : Nat) < 8
  · simp [low]
  · simp [low, BitVec.getLsbD_ge c.toBitVec i (by omega)]

/-- Below `0x80`, a round of `elf64Hash` is a gABI round: `if(g)` only skips a xor with 0. -/
theorem elf64HashStep_eq_gabiHashStep (h : BitVec 32) {c : UInt8} (ascii : c.toNat < 0x80) :
    elf64HashStep h (charToUInt32 c) = gabiHashStep h c := by
  simp only [elf64HashStep, gabiHashStep, charToUInt32_of_lt ascii]
  rw [fold_high_nibble]
  congr 1
  split <;> simp_all

/-- On names whose bytes are all below `0x80`, `elf64Hash` is the gABI hash. -/
theorem elf64Hash_eq_gabiHash {name : List UInt8} (ascii : ∀ c ∈ cString name, c.toNat < 0x80) :
    elf64Hash name = gabiHash (cString name) := by
  rw [← elf64Hash_cString, gabiHash, elf64Hash]
  suffices loop : ∀ (h : BitVec 32) (bytes : List UInt8), (∀ c ∈ bytes, c ≠ 0 ∧ c.toNat < 0x80) →
      elf64HashLoop h bytes = bytes.foldl gabiHashStep h from
    loop 0 _ fun c member => ⟨mem_cString member, ascii c member⟩
  intro h bytes
  induction bytes generalizing h with
  | nil => exact fun _ => rfl
  | cons c bytes ih =>
      intro each
      obtain ⟨nonzero, below⟩ := each c (List.mem_cons_self _ _)
      simp only [elf64HashLoop, nonzero, if_false, List.foldl_cons,
        elf64HashStep_eq_gabiHashStep h below]
      exact ih _ fun c member => each c (List.mem_cons_of_mem _ member)

end LdInit
