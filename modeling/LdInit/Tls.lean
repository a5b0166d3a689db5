import LdInit.Basic
import Mathlib.Algebra.Order.Ring.Nat
import Mathlib.Data.List.Pairwise
import Mathlib.Data.List.Nodup

/-!
# The initial TLS block

`Loader::buildInitialTls` places each TLS segment at minus the running total padded to its
alignment, and `allocateTcb` copies each image there, below the thread pointer.
-/

namespace LdInit

/-- `SharedObject::TlsModel`. -/
inductive TlsModel where
  /-- `kTlsNone`. -/
  | none
  /-- `kTlsInitial`. -/
  | initial
  deriving DecidableEq, Repr

/-- The fields of a `SharedObject` that the initial TLS layout reads and writes. -/
structure TlsObject where
  /-- `isMainObject`. -/
  isMainObject : Bool
  /-- `tlsSegmentSize`. -/
  tlsSegmentSize : Nat
  /-- `tlsAlignment`. -/
  tlsAlignment : Nat
  /-- `tlsImageSize`. -/
  tlsImageSize : Nat
  /-- `tlsModel`. -/
  tlsModel : TlsModel
  /-- `tlsOffset`: a signed offset from the thread pointer. -/
  tlsOffset : Int
  deriving DecidableEq, Repr

/-- The objects, by handle, with the `RuntimeTlsMap`. -/
structure TlsState where
  /-- The objects' TLS fields. -/
  objects : Nat → TlsObject
  /-- `runtimeTlsMap->initialSize`, a `size_t`. -/
  initialSize : Nat
  /-- `runtimeTlsMap->initialObjects`. -/
  initialObjects : List Nat

/-- `tlsModel = kTlsInitial`, `tlsOffset = -initialSize` and `initialObjects.push(object)`. -/
def TlsState.place (s : TlsState) (object : Nat) (size : Nat) : TlsState where
  objects := Function.update s.objects object
    { s.objects object with tlsModel := .initial, tlsOffset := -(size : Int) }
  initialSize := size
  initialObjects := s.initialObjects ++ [object]

/-- The body of the loop of `Loader::buildInitialTls`, on one object of the link queue. -/
def placeObject (s : TlsState) (object : Nat) : Except Abort TlsState := do
  let o := s.objects object
  if o.tlsModel ≠ .none then throw .tlsModelNotNone
  if o.tlsSegmentSize = 0 then return s
  let size := (s.initialSize + o.tlsSegmentSize) % 2 ^ 64
  if o.tlsAlignment = 0 then throw .divideByZero
  if 16 % o.tlsAlignment ≠ 0 then throw .tlsAlignment
  let misalign := size % o.tlsAlignment
  let size := if misalign ≠ 0 then (size + (o.tlsAlignment - misalign)) % 2 ^ 64 else size
  return s.place object size

/-- `Loader::buildInitialTls`, over the link queue `linkQueue`. -/
def buildInitialTls (linkQueue : List Nat) (s : TlsState) : Except Abort TlsState := do
  if s.initialSize ≠ 0 then throw .initialSizeNonzero
  match linkQueue with
  | [] => throw .emptyLinkQueue
  | front :: _ =>
      if !(s.objects front).isMainObject then throw .frontNotMain
      linkQueue.foldlM placeObject s

/-- `sizeof(Tcb)`: the TCB holds its own address. -/
def tcbSize : Nat := 8

/-- What `allocateTcb` does with the buffer `fsBuffer` the allocator returns. -/
structure TcbSetup where
  /-- `fs_size`, the size it allocates. -/
  fsSize : Nat
  /-- The `memcpy`s of TLS images: the address, the object copied, and the byte count. -/
  copies : List (Int × Nat × Nat)
  /-- The TCB's address, written to the FS base: the thread pointer. -/
  threadPointer : Nat

/-- `allocateTcb`. -/
def allocateTcb (s : TlsState) (fsBuffer : Nat) : TcbSetup where
  fsSize := s.initialSize + tcbSize
  copies := s.initialObjects.filterMap fun object =>
    if (s.objects object).tlsModel = .initial then
      some (fsBuffer + s.initialSize + (s.objects object).tlsOffset, object,
        (s.objects object).tlsImageSize)
    else none
  threadPointer := fsBuffer + s.initialSize

/-! ## One object -/

@[simp]
theorem TlsState.place_initialSize (s : TlsState) (object size : Nat) :
    (s.place object size).initialSize = size := rfl

@[simp]
theorem TlsState.place_initialObjects (s : TlsState) (object size : Nat) :
    (s.place object size).initialObjects = s.initialObjects ++ [object] := rfl

/-- Padding a total up to a multiple of `align`, as the loop body does when nothing wraps. -/
theorem pad_spec (total : Nat) {align : Nat} (align_pos : 0 < align) :
    total ≤ (if ¬total % align = 0 then total + (align - total % align) else total) ∧
      (if ¬total % align = 0 then total + (align - total % align) else total) < total + align ∧
      align ∣ (if ¬total % align = 0 then total + (align - total % align) else total) := by
  have split := Nat.div_add_mod total align
  have below := Nat.mod_lt total align_pos
  split_ifs with aligned
  · exact ⟨Nat.le_refl _, by omega, Nat.dvd_of_mod_eq_zero aligned⟩
  · exact ⟨by omega, by omega, ⟨total / align + 1, by rw [Nat.mul_succ]; omega⟩⟩

theorem placeObject_of_unsized {s : TlsState} {object : Nat}
    (none_yet : (s.objects object).tlsModel = .none)
    (unsized : (s.objects object).tlsSegmentSize = 0) :
    placeObject s object = .ok s := by
  simp [placeObject, none_yet, unsized]

/-- On an object with a TLS segment and room below `2 ^ 64`, the loop body places it. -/
theorem placeObject_of_sized {s : TlsState} {object : Nat}
    (none_yet : (s.objects object).tlsModel = .none) (sized : (s.objects object).tlsSegmentSize ≠ 0)
    (align_pos : 0 < (s.objects object).tlsAlignment)
    (align_dvd : (s.objects object).tlsAlignment ∣ 16)
    (room : s.initialSize + (s.objects object).tlsSegmentSize + (s.objects object).tlsAlignment ≤
      2 ^ 64) :
    ∃ size, placeObject s object = .ok (s.place object size) ∧
      s.initialSize + (s.objects object).tlsSegmentSize ≤ size ∧
      size < s.initialSize + (s.objects object).tlsSegmentSize + (s.objects object).tlsAlignment ∧
      (s.objects object).tlsAlignment ∣ size := by
  obtain ⟨above, below, aligned⟩ :=
    pad_spec (s.initialSize + (s.objects object).tlsSegmentSize) align_pos
  have no_wrap : (s.initialSize + (s.objects object).tlsSegmentSize) % 2 ^ 64 =
      s.initialSize + (s.objects object).tlsSegmentSize := Nat.mod_eq_of_lt (by omega)
  refine ⟨_, ?_, above, below, aligned⟩
  simp only [placeObject, none_yet, sized, ne_eq, not_true_eq_false, if_false,
    Nat.ne_of_gt align_pos, Nat.mod_eq_zero_of_dvd align_dvd, not_false_eq_true, no_wrap,
    Except.pure_eq_ok, Except.ok_bind]
  split_ifs at below ⊢
  · rfl
  · rw [Nat.mod_eq_of_lt (by omega)]

/-! ## The loop -/

/-- What `buildInitialTls` laid out after `done`: the sized objects at aligned, falling offsets. -/
structure TlsLayout (objects : Nat → TlsObject) (done : List Nat) (s : TlsState) : Prop where
  listed : s.initialObjects = done.filter fun o => (objects o).tlsSegmentSize ≠ 0
  untouched : ∀ o ∉ s.initialObjects, s.objects o = objects o
  placed : ∀ o ∈ s.initialObjects, ∃ start : Nat,
    s.objects o = { objects o with tlsModel := .initial, tlsOffset := -(start : Int) } ∧
      (objects o).tlsAlignment ∣ start ∧ (objects o).tlsSegmentSize ≤ start ∧ start ≤ s.initialSize
  ordered : s.initialObjects.Pairwise fun o o' =>
    (s.objects o').tlsOffset + (objects o').tlsSegmentSize ≤ (s.objects o).tlsOffset

theorem TlsLayout.start (objects : Nat → TlsObject) :
    TlsLayout objects [] ⟨objects, 0, []⟩ :=
  ⟨rfl, fun _ _ => rfl, nofun, List.Pairwise.nil⟩

/-- One more object of the queue, not met before, keeps the layout. -/
theorem TlsLayout.step {objects : Nat → TlsObject} {done : List Nat} {s : TlsState} {object : Nat}
    (layout : TlsLayout objects done s) (fresh : object ∉ done)
    (none_yet : (objects object).tlsModel = .none)
    (aligned : (objects object).tlsSegmentSize ≠ 0 →
      0 < (objects object).tlsAlignment ∧ (objects object).tlsAlignment ∣ 16)
    (room : (objects object).tlsSegmentSize ≠ 0 →
      s.initialSize + (objects object).tlsSegmentSize + (objects object).tlsAlignment ≤ 2 ^ 64) :
    ∃ t, placeObject s object = .ok t ∧ TlsLayout objects (done ++ [object]) t ∧
      t.initialSize ≤ s.initialSize + if (objects object).tlsSegmentSize = 0 then 0
        else (objects object).tlsSegmentSize + (objects object).tlsAlignment := by
  have unlisted : object ∉ s.initialObjects := fun listed =>
    fresh (List.mem_filter.mp (layout.listed ▸ listed)).1
  have entry := layout.untouched object unlisted
  by_cases unsized : (objects object).tlsSegmentSize = 0
  · refine ⟨s, placeObject_of_unsized (entry ▸ none_yet) (entry ▸ unsized), ?_, by simp [unsized]⟩
    exact { layout with listed := by simp [layout.listed, unsized] }
  obtain ⟨align_pos, align_dvd⟩ := aligned unsized
  obtain ⟨size, run, above, below, size_aligned⟩ := placeObject_of_sized (entry ▸ none_yet)
    (entry ▸ unsized) (entry ▸ align_pos) (entry ▸ align_dvd) (entry ▸ room unsized)
  rw [entry] at above below size_aligned
  have others : ∀ o ∈ s.initialObjects, (s.place object size).objects o = s.objects o :=
    fun o member => Function.update_noteq (ne_of_mem_of_not_mem member unlisted) _ _
  refine ⟨_, run, ⟨by simp [layout.listed, unsized], fun o absent => ?_, fun o member => ?_, ?_⟩,
    by simp [unsized]; omega⟩
  · simp only [TlsState.place_initialObjects, List.mem_append, List.mem_singleton, not_or] at absent
    rw [← layout.untouched o absent.1]
    exact Function.update_noteq absent.2 _ _
  · simp only [TlsState.place_initialObjects, List.mem_append, List.mem_singleton] at member
    rcases member with old | rfl
    · obtain ⟨start, fields, start_aligned, fits, below_total⟩ := layout.placed o old
      exact ⟨start, (others o old).trans fields, start_aligned, fits, by simp; omega⟩
    · refine ⟨size, ?_, size_aligned, by omega, Nat.le_refl _⟩
      simp [TlsState.place, entry]
  · rw [TlsState.place_initialObjects, List.pairwise_append]
    refine ⟨layout.ordered.imp_of_mem fun {o o'} member member' before => ?_,
        List.pairwise_singleton _ _,
      fun o member _ same => ?_⟩
    · rwa [others o member, others o' member']
    · obtain ⟨start, fields, -, -, below_total⟩ := layout.placed o member
      rw [List.mem_singleton.mp same, others o member, fields]
      simp [TlsState.place]
      omega

/-- The loop over the rest of the queue keeps the layout while its segments fit below `2 ^ 64`. -/
theorem TlsLayout.foldlM {objects : Nat → TlsObject} :
    ∀ (todo done : List Nat) (s : TlsState), TlsLayout objects done s → (done ++ todo).Nodup →
      (∀ o ∈ todo, (objects o).tlsModel = .none ∧
        ((objects o).tlsSegmentSize ≠ 0 → 0 < (objects o).tlsAlignment ∧
            (objects o).tlsAlignment ∣ 16)) →
      s.initialSize + ((todo.filter fun o => (objects o).tlsSegmentSize ≠ 0).map fun o =>
        (objects o).tlsSegmentSize + (objects o).tlsAlignment).sum < 2 ^ 64 →
      ∃ t, todo.foldlM placeObject s = .ok t ∧ TlsLayout objects (done ++ todo) t
  | [], done, s, layout, _, _, _ => ⟨s, rfl, by simpa using layout⟩
  | object :: todo, done, s, layout, distinct, each, room => by
      obtain ⟨none_yet, aligned⟩ := each object (List.mem_cons_self _ _)
      have fresh : object ∉ done := fun member =>
        (List.nodup_append.mp distinct).2.2 member (List.mem_cons_self _ _)
      obtain ⟨t, run, step, grown⟩ := layout.step fresh none_yet aligned fun sized => by
        simp only [List.filter_cons, sized, ne_eq, not_false_eq_true, decide_True, if_true,
          List.map_cons, List.sum_cons] at room
        omega
      have room_t : t.initialSize + ((todo.filter fun o => (objects o).tlsSegmentSize ≠ 0).map
          fun o => (objects o).tlsSegmentSize + (objects o).tlsAlignment).sum < 2 ^ 64 := by
        by_cases unsized : (objects object).tlsSegmentSize = 0 <;>
          simp [List.filter_cons, unsized] at room grown ⊢ <;> omega
      obtain ⟨u, rest_run, rest_layout⟩ := TlsLayout.foldlM todo _ t step (by simpa using distinct)
        (fun o member => each o (List.mem_cons_of_mem _ member)) room_t
      refine ⟨u, ?_, by simpa using rest_layout⟩
      rw [List.foldlM_cons, run]
      exact rest_run

/-- `allocateTcb` copies the initial-model images, in order, to the thread pointer plus offset. -/
theorem allocateTcb_copies (s : TlsState) (fsBuffer : Nat)
    (initial : ∀ o ∈ s.initialObjects, (s.objects o).tlsModel = .initial) :
    (allocateTcb s fsBuffer).copies = s.initialObjects.map fun o =>
      (((allocateTcb s fsBuffer).threadPointer : Int) + (s.objects o).tlsOffset, o,
        (s.objects o).tlsImageSize) := by
  simp only [allocateTcb, ← List.filterMap_eq_map]
  refine List.filterMap_congr fun o member => ?_
  simp [initial o member]

/-! ## The layout -/

/-- `allocateTcb` copies each initial-model image to `fs_buffer + initialSize + tlsOffset`. -/
theorem allocateTcb_copy (s : TlsState) (fsBuffer o : Nat) (listed : o ∈ s.initialObjects)
    (initial : (s.objects o).tlsModel = .initial) :
    ((fsBuffer : Int) + s.initialSize + (s.objects o).tlsOffset, o, (s.objects o).tlsImageSize) ∈
      (allocateTcb s fsBuffer).copies := by
  simp only [allocateTcb, List.mem_filterMap]
  exact ⟨o, listed, by simp [initial]⟩

/-- A main object with 8 bytes of TLS aligned to 16, then a library with 4 bytes aligned to 4. -/
def paddedPair : Nat → TlsObject
  | 0 => ⟨true, 8, 16, 8, .none, 0⟩
  | 1 => ⟨false, 4, 4, 4, .none, 0⟩
  | _ => ⟨false, 0, 1, 0, .none, 0⟩

/-- On `paddedPair`, `initialSize` is 20: the main block starts 4 bytes past a 16-byte boundary. -/
theorem allocateTcb_misaligns_main_block :
    ∃ t, buildInitialTls [0, 1] ⟨paddedPair, 0, []⟩ = .ok t ∧ t.initialSize = 20 ∧
      (t.objects 0).tlsOffset = -16 ∧ (t.objects 1).tlsOffset = -20 ∧
      ∀ fsBuffer : Nat, 16 ∣ fsBuffer →
        ((fsBuffer : Int) + 4, 0, 8) ∈ (allocateTcb t fsBuffer).copies ∧
          ¬(16 : Int) ∣ (fsBuffer : Int) + 4 ∧ ¬16 ∣ (allocateTcb t fsBuffer).threadPointer := by
  obtain ⟨t, run⟩ : ∃ t, buildInitialTls [0, 1] ⟨paddedPair, 0, []⟩ = .ok t := ⟨_, rfl⟩
  have size : t.initialSize = 20 := by cases run; rfl
  have first : (t.objects 0).tlsOffset = -16 := by cases run; rfl
  refine ⟨t, run, size, first, by cases run; rfl, fun fsBuffer aligned => ⟨?_, by omega, ?_⟩⟩
  · have copy := allocateTcb_copy t fsBuffer 0 (by cases run; decide) (by cases run; rfl)
    have image : (t.objects 0).tlsImageSize = 8 := by cases run; rfl
    rw [size, first, image] at copy
    convert copy using 2
    omega
  · simp only [allocateTcb, size]
    omega

/-- A main object with 16 bytes of TLS, then a library with `p_memsz = 8` and `p_filesz = 16`. -/
def imagePair : Nat → TlsObject
  | 0 => ⟨true, 16, 16, 16, .none, 0⟩
  | 1 => ⟨false, 8, 8, 16, .none, 0⟩
  | _ => ⟨false, 0, 1, 0, .none, 0⟩

/-- On `imagePair`, the library's 16-byte image lands at `fs`, over the main block's first half. -/
theorem allocateTcb_copies_library_image_over_main_block :
    ∃ t, buildInitialTls [0, 1] ⟨imagePair, 0, []⟩ = .ok t ∧ t.initialSize = 24 ∧
      (t.objects 0).tlsOffset = -16 ∧ (t.objects 1).tlsOffset = -24 ∧
      ∀ fsBuffer : Nat, (allocateTcb t fsBuffer).threadPointer = fsBuffer + 24 ∧
        (allocateTcb t fsBuffer).copies =
          [((fsBuffer : Int) + 8, 0, 16), ((fsBuffer : Int), 1, 16)] := by
  obtain ⟨t, run⟩ : ∃ t, buildInitialTls [0, 1] ⟨imagePair, 0, []⟩ = .ok t := ⟨_, rfl⟩
  obtain ⟨size, listed, main_block, library_block⟩ : t.initialSize = 24 ∧
      t.initialObjects = [0, 1] ∧ t.objects 0 = ⟨true, 16, 16, 16, .initial, -16⟩ ∧
      t.objects 1 = ⟨false, 8, 8, 16, .initial, -24⟩ := by
    cases run
    exact ⟨rfl, rfl, rfl, rfl⟩
  refine ⟨t, run, size, by rw [main_block], by rw [library_block], fun fsBuffer =>
    ⟨by simp [allocateTcb, size], ?_⟩⟩
  rw [allocateTcb_copies t fsBuffer (by simp [listed, main_block, library_block]), listed]
  simp only [allocateTcb, size, main_block, library_block, List.map_cons, List.map_nil,
    List.cons.injEq, Prod.mk.injEq, and_true, Nat.cast_add, Nat.cast_ofNat]
  omega

end LdInit
