import LdInit.Universe.Run

/-!
# POSIX I/O

`_fetchFromFile` opens, reads, maps and closes a library file through helpers that each send one
request over hel streams; the kernel and the servers are the environment, a state machine.
-/

namespace LdInit

/-- `kHelErrNone`, the `HelError` of success. -/
def kHelErrNone : Nat := 0

/-- How the I/O helpers stop. -/
inductive IoAbort where
  /-- `HEL_CHECK` on a result whose error is not `kHelErrNone`. -/
  | helError (error : Nat)
  /-- `assert(resp.error() == managarm::posix::Errors::SUCCESS)`. -/
  | posixError
  /-- `assert(resp.error() == managarm::fs::Errors::SUCCESS)`. -/
  | fsError
  /-- `assert(offset == length)` in `posixRead`. -/
  | shortRead
  /-- An abort of the code around the helpers, or a loop that outruns the model's bound. -/
  | loader (e : Abort)
  deriving DecidableEq

/-- `managarm::posix::Errors`, as the loader tells them apart. -/
inductive PosixErrors where
  | success
  | fileNotFound
  | other
  deriving DecidableEq

/-- What the loader reads of a `managarm::posix::SvrResponse`. -/
structure PosixResponse where
  /-- `error()`. -/
  error : PosixErrors
  /-- `fd()`. -/
  fd : Int

/-- `managarm::fs::Errors`: the loader only compares with `SUCCESS`. -/
inductive FsErrors where
  | success
  | other
  deriving DecidableEq

/-- What the loader reads of a `managarm::fs::SvrResponse`. -/
structure FsResponse where
  /-- `error()`. -/
  error : FsErrors

/-- The completion of `offer; sendFromBuffer; recvInline`: its three errors and the response. -/
structure Reply (α : Type) where
  /-- `offer->error`. -/
  offerError : Nat
  /-- `send_req->error`. -/
  sendError : Nat
  /-- `recv_resp->error`. -/
  recvError : Nat
  /-- `resp`. -/
  response : α

/-- The `HelLengthResult` of `recvToBuffer`, with the bytes the kernel wrote to the buffer. -/
structure Received where
  /-- `recv_data->error`. -/
  error : Nat
  /-- The bytes written; `recv_data->length` is their number. -/
  bytes : List UInt8

/-- The `HelHandleResult` of `pullDescriptor`. -/
structure Pulled where
  /-- `pull_memory->error`. -/
  error : Nat
  /-- `pull_memory->handle`. -/
  handle : Nat

/-- The kernel and servers, with state `σ`: the completion of each request the loader sends. -/
structure Servers (σ : Type) where
  /-- `OPEN` of `path`, to the POSIX server. -/
  requestOpen : List UInt8 → σ → Reply PosixResponse × σ
  /-- `CLOSE` of `fd`, to the POSIX server. -/
  requestClose : Int → σ → Reply PosixResponse × σ
  /-- `SEEK_ABS` of `fd` to `rel_offset`. -/
  requestSeek : Int → Int → σ → Reply FsResponse × σ
  /-- `READ` of `size` bytes of `fd`, with a `recvToBuffer` of `size` bytes. -/
  requestRead : Int → Nat → σ → (Reply FsResponse × Received) × σ
  /-- `MMAP` of `fd`, with a `pullDescriptor`. -/
  requestMmap : Int → σ → (Reply FsResponse × Pulled) × σ

section Helpers

variable {σ : Type} (servers : Servers σ)

/-- `HEL_CHECK(error)`. -/
def helCheck (error : Nat) : EStateM IoAbort σ Unit :=
  if error = kHelErrNone then pure () else throw (.helError error)

/-- `HEL_CHECK` on the three results of `offer; sendFromBuffer; recvInline`, in this order. -/
def checkReply {α : Type} (reply : Reply α) : EStateM IoAbort σ α := do
  helCheck reply.offerError
  helCheck reply.sendError
  helCheck reply.recvError
  pure reply.response

/-- `posixOpen`: `-1` when the server reports `FILE_NOT_FOUND`. -/
def posixOpen (path : List UInt8) : EStateM IoAbort σ Int := do
  let resp ← checkReply (← modifyGet (servers.requestOpen path))
  if resp.error = .fileNotFound then return -1
  if resp.error ≠ .success then throw .posixError
  return resp.fd

/-- `posixSeek`. -/
def posixSeek (fd offset : Int) : EStateM IoAbort σ Unit := do
  let resp ← checkReply (← modifyGet (servers.requestSeek fd offset))
  if resp.error ≠ .success then throw .fsError

/-- `posixRead`'s loop from `offset`, for `fuel` rounds, and its `assert`: the chunks written. -/
def readLoop (fd : Int) (data length : Nat) (fuel offset : Nat) :
    EStateM IoAbort σ (List (Nat × List UInt8)) :=
  if offset < length then
    match fuel with
    | 0 => throw (.loader .outOfFuel)
    | fuel + 1 => do
        let (reply, received) ← modifyGet (servers.requestRead fd (length - offset))
        let resp ← checkReply reply
        helCheck received.error
        if resp.error ≠ .success then throw .fsError
        let rest ← readLoop fd data length fuel (offset + received.bytes.length)
        pure ((data + offset, received.bytes) :: rest)
  else if offset ≠ length then throw .shortRead
  else pure []

/-- `posixRead` of `length` bytes of `fd` to the buffer at `data`, within `fuel` rounds. -/
def posixRead (fuel : Nat) (fd : Int) (data length : Nat) :
    EStateM IoAbort σ (List (Nat × List UInt8)) :=
  readLoop servers fd data length fuel 0

/-- `posixMmap`: the handle of the file's memory. -/
def posixMmap (fd : Int) : EStateM IoAbort σ Nat := do
  let (reply, pulled) ← modifyGet (servers.requestMmap fd)
  let resp ← checkReply reply
  helCheck pulled.error
  if resp.error ≠ .success then throw .fsError
  return pulled.handle

/-- `posixClose`. -/
def posixClose (fd : Int) : EStateM IoAbort σ Unit := do
  let resp ← checkReply (← modifyGet (servers.requestClose fd))
  if resp.error ≠ .success then throw .posixError

/-- `_fetchFromFile`'s lookup: `posixOpen` under `lib_prefix`, then `usr_prefix`, else abort. -/
def openLibraryFile (name : List UInt8) : EStateM IoAbort σ Int := do
  let file ← posixOpen servers (libPrefix ++ name)
  let file ← if file = -1 then posixOpen servers (usrPrefix ++ name) else pure file
  if file = -1 then throw (.loader (.libraryNotFound name))
  return file

end Helpers

/-! ## One completion -/

/-- None of the three results of `offer; sendFromBuffer; recvInline` has an error. -/
def Reply.Clean {α : Type} (reply : Reply α) : Prop :=
  reply.offerError = kHelErrNone ∧ reply.sendError = kHelErrNone ∧ reply.recvError = kHelErrNone

section Completion

variable {σ α : Type} {s t : σ}

theorem helCheck_eq_ok {error : Nat} :
    (helCheck error : EStateM IoAbort σ Unit) s = .ok ⟨⟩ t ↔ error = kHelErrNone ∧ t = s := by
  unfold helCheck
  split_ifs with clean <;> simp [clean, eq_comm]

/-- `HEL_CHECK` passes a completion exactly when none of its three results has an error. -/
theorem checkReply_eq_ok {reply : Reply α} {a : α} :
    checkReply reply s = .ok a t ↔ reply.Clean ∧ a = reply.response ∧ t = s := by
  unfold checkReply Reply.Clean
  by_cases offer : reply.offerError = kHelErrNone
  · by_cases send : reply.sendError = kHelErrNone
    · by_cases recv : reply.recvError = kHelErrNone
      · simp [helCheck, offer, send, recv, eq_comm]
      · simp [helCheck, offer, send, recv]
    · simp [helCheck, offer, send]
  · simp [helCheck, offer]

theorem checkReply_of_clean {reply : Reply α} (clean : reply.Clean) :
    (checkReply reply : EStateM IoAbort σ α) s = .ok reply.response s :=
  checkReply_eq_ok.mpr ⟨clean, rfl, rfl⟩

end Completion

/-! ## The read loop -/

section Reading

variable {σ : Type} {servers : Servers σ} {fd : Int} {data length : Nat}

theorem readLoop_of_ok {fuel offset : Nat} {s t : σ} {chunks : List (Nat × List UInt8)}
    (run : readLoop servers fd data length fuel offset s = .ok chunks t) :
    offset = length ∧ chunks = [] ∧ t = s ∨
      offset < length ∧ ∃ fuel' rest, fuel = fuel' + 1 ∧
        readLoop servers fd data length fuel'
            (offset + (servers.requestRead fd (length - offset) s).1.2.bytes.length)
            (servers.requestRead fd (length - offset) s).2 = .ok rest t ∧
        chunks = (data + offset, (servers.requestRead fd (length - offset) s).1.2.bytes) ::
          rest := by
  rw [readLoop.eq_def] at run
  split_ifs at run with below at_end
  · cases fuel with
    | zero => cases run
    | succ fuel' =>
        simp only [EStateM.modifyGet_bind_apply] at run
        obtain ⟨resp, _, checked, run⟩ := EStateM.bind_eq_ok run
        obtain ⟨-, rfl, rfl⟩ := checkReply_eq_ok.mp checked
        obtain ⟨_, _, received, run⟩ := EStateM.bind_eq_ok run
        obtain ⟨-, rfl⟩ := helCheck_eq_ok.mp received
        split_ifs at run
        · simp at run
        rw [pure_bind] at run
        obtain ⟨rest, _, loop, run⟩ := EStateM.bind_eq_ok run
        cases run
        exact .inr ⟨below, fuel', rest, rfl, loop, rfl⟩
  · cases run
  · cases run
    exact .inl ⟨by omega, rfl, rfl⟩

/-- With nothing missing, the loop returns at once, whatever its fuel. -/
theorem readLoop_at_end (fuel : Nat) (s : σ) :
    readLoop servers fd data length fuel length s = .ok [] s := by
  rw [readLoop.eq_def, if_neg (Nat.lt_irrefl _), if_neg (not_not.mpr rfl)]
  rfl

/-- A clean `SUCCESS` round writes what it received at `data + offset` and goes on past it. -/
theorem readLoop_succ_of_success {fuel offset : Nat} {s : σ} (below : offset < length)
    (clean : (servers.requestRead fd (length - offset) s).1.1.Clean)
    (success : (servers.requestRead fd (length - offset) s).1.1.response.error = .success)
    (received : (servers.requestRead fd (length - offset) s).1.2.error = kHelErrNone) :
    readLoop servers fd data length (fuel + 1) offset s =
      (do
        let rest ← readLoop servers fd data length fuel
          (offset + (servers.requestRead fd (length - offset) s).1.2.bytes.length)
        pure ((data + offset, (servers.requestRead fd (length - offset) s).1.2.bytes) :: rest))
        (servers.requestRead fd (length - offset) s).2 := by
  rw [readLoop.eq_def, if_pos below]
  simp only [EStateM.modifyGet_bind_apply]
  rw [EStateM.bind_of_ok (checkReply_of_clean clean),
    EStateM.bind_of_ok (helCheck_eq_ok.mpr ⟨received, rfl⟩), success]
  rfl

/-- An `ok` loop from `offset` writes the buffer from `data + offset` on, once each, in order. -/
theorem readLoop_writes {offset : Nat} {s t : σ} {chunks : List (Nat × List UInt8)} (fuel : Nat)
    (run : readLoop servers fd data length fuel offset s = .ok chunks t) :
    offset ≤ length ∧ chunks.flatMap (fun c => List.range' c.1 c.2.length) =
      List.range' (data + offset) (length - offset) := by
  induction fuel generalizing offset s chunks with
  | zero =>
      obtain ⟨rfl, rfl, -⟩ | ⟨-, _, _, nonzero, -⟩ := readLoop_of_ok run
      · simp
      · cases nonzero
  | succ fuel ih =>
      obtain ⟨rfl, rfl, -⟩ | ⟨below, _, rest, ⟨⟩, loop, rfl⟩ := readLoop_of_ok run
      · simp
      obtain ⟨within, writes⟩ := ih loop
      refine ⟨below.le, ?_⟩
      rw [List.flatMap_cons, writes, ← Nat.add_assoc, List.range'_append_1]
      congr 1
      dsimp only
      omega

end Reading

/-- Whatever the servers answer, a returning `posixRead` wrote only its buffer, each byte once. -/
theorem posixRead_writes_buffer_once {σ : Type} (servers : Servers σ) (fuel : Nat) (fd : Int)
    (data length : Nat) (s t : σ) (chunks : List (Nat × List UInt8))
    (run : posixRead servers fuel fd data length s = .ok chunks t) :
    chunks.flatMap (fun c => List.range' c.1 c.2.length) = List.range' data length :=
  (readLoop_writes fuel run).2

/-- A file server of the unread bytes, giving at most `chunk` per `READ`; it opens nothing. -/
def chunkServer (chunk : Nat) : Servers (List UInt8) where
  requestOpen _ s := (⟨0, 0, 0, ⟨.fileNotFound, -1⟩⟩, s)
  requestClose _ s := (⟨0, 0, 0, ⟨.success, 0⟩⟩, s)
  requestSeek _ _ s := (⟨0, 0, 0, ⟨.success⟩⟩, s)
  requestRead _ size s :=
    ((⟨0, 0, 0, ⟨.success⟩⟩, ⟨0, s.take (min size chunk)⟩), s.drop (min size chunk))
  requestMmap _ s := ((⟨0, 0, 0, ⟨.success⟩⟩, ⟨0, 0⟩), s)

theorem posixRead_chunkServer_writes_buffer_once :
    posixRead (chunkServer 2) 3 0 0x1000 3 [1, 2, 3, 4] =
        .ok [(0x1000, [1, 2]), (0x1002, [3])] [4] ∧
      [(0x1000, [1, 2]), (0x1002, [3])].flatMap
        (fun c : Nat × List UInt8 => List.range' c.1 c.2.length) = List.range' 0x1000 3 :=
  ⟨rfl, posixRead_writes_buffer_once (chunkServer 2) 3 0 0x1000 3 [1, 2, 3, 4] [4] _ rfl⟩

/-! ## Against a file server -/

/-- The server of `fd` reads `rest s`: each `READ` gets the next bytes, at least one if any. -/
structure ReadsFile {σ : Type} (servers : Servers σ) (fd : Int) (rest : σ → List UInt8) : Prop where
  clean : ∀ size s, (servers.requestRead fd size s).1.1.Clean
  success : ∀ size s, (servers.requestRead fd size s).1.1.response.error = .success
  received : ∀ size s, (servers.requestRead fd size s).1.2.error = kHelErrNone
  next : ∀ size s,
    (servers.requestRead fd size s).1.2.bytes ++ rest (servers.requestRead fd size s).2 = rest s
  bounded : ∀ size s, (servers.requestRead fd size s).1.2.bytes.length ≤ size
  progress : ∀ size s, 0 < size → rest s ≠ [] → (servers.requestRead fd size s).1.2.bytes ≠ []

section FileServer

variable {σ : Type} {servers : Servers σ} {fd : Int} {rest : σ → List UInt8} {data length : Nat}

/-- With the missing bytes left in the file and as many rounds, the loop reads them. -/
theorem readLoop_reads (reads : ReadsFile servers fd rest) (fuel : Nat) :
    ∀ (offset : Nat) (s : σ), offset ≤ length → length - offset ≤ fuel →
      length - offset ≤ (rest s).length →
      ∃ chunks t, readLoop servers fd data length fuel offset s = .ok chunks t ∧
        (chunks.map Prod.snd).flatten = (rest s).take (length - offset) ∧
        rest t = (rest s).drop (length - offset) := by
  induction fuel with
  | zero =>
      intro offset s within budget _
      obtain rfl : offset = length := by omega
      exact ⟨[], s, readLoop_at_end 0 s, by simp, by simp⟩
  | succ fuel ih =>
      intro offset s within budget enough
      by_cases below : offset < length
      · have next := reads.next (length - offset) s
        have bounded := reads.bounded (length - offset) s
        set reply := servers.requestRead fd (length - offset) s
        have some_bytes : reply.1.2.bytes ≠ [] :=
          reads.progress _ s (by omega) fun empty => by simp [empty] at enough; omega
        have one_byte := List.length_pos_of_ne_nil some_bytes
        have remaining : (rest reply.2).length + reply.1.2.bytes.length = (rest s).length := by
          rw [← next, List.length_append, Nat.add_comm]
        obtain ⟨chunks, t, loop, content, after⟩ :=
          ih (offset + reply.1.2.bytes.length) reply.2 (by omega) (by omega)
            (by omega)
        refine ⟨_, t, by rw [readLoop_succ_of_success below (reads.clean _ s) (reads.success _ s)
          (reads.received _ s), EStateM.bind_of_ok loop]; rfl, ?_, ?_⟩
        · rw [List.map_cons, List.flatten_cons, content, ← next, List.take_append_eq_append_take,
            List.take_of_length_le bounded]
          congr 2
          omega
        · rw [after, ← next, List.drop_append_eq_append_drop, List.drop_eq_nil_of_le bounded,
            List.nil_append]
          congr 1
          omega
      · obtain rfl : offset = length := by omega
        exact ⟨[], s, readLoop_at_end _ s, by simp, by simp⟩

/-- With fewer bytes left in the file than missing, no round makes progress: the loop never ends. -/
theorem readLoop_spins (reads : ReadsFile servers fd rest) (fuel : Nat) :
    ∀ (offset : Nat) (s : σ), offset + (rest s).length < length →
      ∃ t, readLoop servers fd data length fuel offset s = .error (.loader .outOfFuel) t := by
  induction fuel with
  | zero =>
      intro offset s short
      exact ⟨s, by rw [readLoop.eq_def, if_pos (by omega)]; rfl⟩
  | succ fuel ih =>
      intro offset s short
      have remaining := congrArg List.length (reads.next (length - offset) s)
      rw [List.length_append] at remaining
      obtain ⟨t, loop⟩ :=
        ih (offset + (servers.requestRead fd (length - offset) s).1.2.bytes.length)
          (servers.requestRead fd (length - offset) s).2 (by omega)
      exact ⟨t, by rw [readLoop_succ_of_success (by omega) (reads.clean _ s) (reads.success _ s)
        (reads.received _ s), EStateM.bind_of_error loop]⟩

end FileServer

/-- With enough bytes and rounds, `posixRead` returns the file's next `length` bytes. -/
theorem posixRead_reads_next_bytes {σ : Type} (servers : Servers σ) (fd : Int)
    (rest : σ → List UInt8) (reads : ReadsFile servers fd rest) (fuel data length : Nat) (s : σ)
    (enough : length ≤ (rest s).length) (budget : length ≤ fuel) :
    ∃ chunks t, posixRead servers fuel fd data length s = .ok chunks t ∧
      (chunks.map Prod.snd).flatten = (rest s).take length ∧ rest t = (rest s).drop length := by
  simpa using readLoop_reads reads fuel 0 s (Nat.zero_le _) (by simpa) (by simpa)

theorem chunkServer_readsFile (chunk : Nat) (fd : Int) :
    ReadsFile (chunkServer (chunk + 1)) fd id where
  clean _ _ := ⟨rfl, rfl, rfl⟩
  success _ _ := rfl
  received _ _ := rfl
  next _ s := List.take_append_drop _ s
  bounded _ s := (List.length_take_le _ s).trans (Nat.min_le_left _ _)
  progress size s asked nonempty := by
    simp only [chunkServer, ne_eq, List.take_eq_nil_iff, not_or]
    exact ⟨by omega, nonempty⟩

theorem posixRead_chunkServer_reads_next_bytes :
    ReadsFile (chunkServer 2) 0 id ∧ 3 ≤ (id [1, 2, 3, 4] : List UInt8).length ∧ 3 ≤ 3 ∧
      ∃ chunks t, posixRead (chunkServer 2) 3 0 0x1000 3 [1, 2, 3, 4] = .ok chunks t ∧
        (chunks.map Prod.snd).flatten = (id [1, 2, 3, 4] : List UInt8).take 3 ∧
        id t = (id [1, 2, 3, 4] : List UInt8).drop 3 :=
  ⟨chunkServer_readsFile 1 0, by decide, le_rfl,
    posixRead_reads_next_bytes (chunkServer 2) 0 id (chunkServer_readsFile 1 0) 3 0x1000 3
      [1, 2, 3, 4] (by decide) le_rfl⟩

/-- Against a file server, `posixRead` past the end of the file resends `READ` and never returns. -/
theorem posixRead_spins_at_end_of_file {σ : Type} (servers : Servers σ) (fd : Int)
    (rest : σ → List UInt8) (reads : ReadsFile servers fd rest) (data length : Nat) (s : σ)
    (short : (rest s).length < length) :
    ∀ fuel, ∃ t, posixRead servers fuel fd data length s = .error (.loader .outOfFuel) t :=
  fun fuel => readLoop_spins reads fuel 0 s (by simpa using short)

theorem posixRead_chunkServer_spins_at_end_of_file :
    ReadsFile (chunkServer 2) 0 id ∧ (id [1, 2, 3] : List UInt8).length < 64 ∧
      ∀ fuel, ∃ t, posixRead (chunkServer 2) fuel 0 0x1000 64 [1, 2, 3] =
        .error (.loader .outOfFuel) t :=
  ⟨chunkServer_readsFile 1 0, by decide,
    posixRead_spins_at_end_of_file (chunkServer 2) 0 id (chunkServer_readsFile 1 0) 0x1000 64
      [1, 2, 3] (by decide)⟩

/-! ## Against a POSIX server -/

/-- The POSIX server opens the paths of `files`: `FILE_NOT_FOUND`, or `SUCCESS` and a descriptor. -/
structure OpensFiles {σ : Type} (servers : Servers σ) (files : List UInt8 → Option LibraryFile)
    (opened : σ → Int → Option (List UInt8)) : Prop where
  clean : ∀ path s, (servers.requestOpen path s).1.Clean
  missing : ∀ path s, files path = none →
    (servers.requestOpen path s).1.response.error = .fileNotFound
  found : ∀ path s, files path ≠ none →
    (servers.requestOpen path s).1.response.error = .success ∧
      0 ≤ (servers.requestOpen path s).1.response.fd ∧
      opened (servers.requestOpen path s).2 (servers.requestOpen path s).1.response.fd = some path

section PosixServer

variable {σ : Type} {servers : Servers σ} {files : List UInt8 → Option LibraryFile}
  {opened : σ → Int → Option (List UInt8)} {path : List UInt8} {s : σ}

theorem posixOpen_of_missing (opens : OpensFiles servers files opened)
    (missing : files path = none) :
    posixOpen servers path s = .ok (-1) (servers.requestOpen path s).2 := by
  unfold posixOpen
  simp only [EStateM.modifyGet_bind_apply]
  rw [EStateM.bind_of_ok (checkReply_of_clean (opens.clean path s)), opens.missing path s missing]
  rfl

theorem posixOpen_of_found (opens : OpensFiles servers files opened) (found : files path ≠ none) :
    posixOpen servers path s =
      .ok (servers.requestOpen path s).1.response.fd (servers.requestOpen path s).2 := by
  unfold posixOpen
  simp only [EStateM.modifyGet_bind_apply]
  rw [EStateM.bind_of_ok (checkReply_of_clean (opens.clean path s)), (opens.found path s found).1]
  rfl

end PosixServer

/-- The lookup opens the path `openLibrary` finds, and aborts if it finds none. -/
theorem openLibraryFile_opens_openLibrary {σ : Type} (servers : Servers σ)
    (files : List UInt8 → Option LibraryFile) (opened : σ → Int → Option (List UInt8))
    (opens : OpensFiles servers files opened) (name : List UInt8) (s : σ) :
    (openLibrary files name = none →
      ∃ t, openLibraryFile servers name s = .error (.loader (.libraryNotFound name)) t) ∧
    ∀ file, openLibrary files name = some file →
      ∃ path fd t, openLibraryFile servers name s = .ok fd t ∧ 0 ≤ fd ∧ opened t fd = some path ∧
        files path = some file := by
  unfold openLibrary openLibraryFile
  cases lib : files (libPrefix ++ name) with
  | some file =>
      obtain ⟨-, nonneg, at_path⟩ := opens.found (libPrefix ++ name) s (by simp [lib])
      refine ⟨nofun, fun file' same => ⟨_, _, _, ?_, nonneg, at_path, lib.trans same⟩⟩
      rw [EStateM.bind_of_ok (posixOpen_of_found opens (by simp [lib])), if_neg (by omega),
        pure_bind]
      dsimp only
      rw [if_neg (by omega)]
      rfl
  | none =>
      rw [EStateM.bind_of_ok (posixOpen_of_missing opens lib), if_pos rfl]
      cases usr : files (usrPrefix ++ name) with
      | none =>
          refine ⟨fun _ => ⟨(servers.requestOpen (usrPrefix ++ name)
            (servers.requestOpen (libPrefix ++ name) s).2).2, ?_⟩, nofun⟩
          rw [EStateM.bind_of_ok (posixOpen_of_missing opens usr)]
          rfl
      | some file =>
          obtain ⟨-, nonneg, at_path⟩ :=
            opens.found (usrPrefix ++ name) (servers.requestOpen (libPrefix ++ name) s).2
              (by simp [usr])
          refine ⟨nofun, fun file' same => ⟨_, _, _, ?_, nonneg, at_path, usr.trans same⟩⟩
          rw [EStateM.bind_of_ok (posixOpen_of_found opens (by simp [usr]))]
          dsimp only
          rw [if_neg (by omega)]
          rfl

/-- A POSIX server opening the paths of `files`; a descriptor is its path's position. -/
def pathServer (files : List UInt8 → Option LibraryFile) : Servers (List (List UInt8)) where
  requestOpen path s := match files path with
    | none => (⟨0, 0, 0, ⟨.fileNotFound, -1⟩⟩, s)
    | some _ => (⟨0, 0, 0, ⟨.success, s.length⟩⟩, s ++ [path])
  requestClose _ s := (⟨0, 0, 0, ⟨.success, 0⟩⟩, s)
  requestSeek _ _ s := (⟨0, 0, 0, ⟨.success⟩⟩, s)
  requestRead _ _ s := ((⟨0, 0, 0, ⟨.success⟩⟩, ⟨0, []⟩), s)
  requestMmap _ s := ((⟨0, 0, 0, ⟨.success⟩⟩, ⟨0, 0⟩), s)

/-- The path a descriptor of `pathServer` was opened on. -/
def pathOpened (s : List (List UInt8)) (fd : Int) : Option (List UInt8) := s[fd.toNat]?

theorem pathServer_opensFiles (files : List UInt8 → Option LibraryFile) :
    OpensFiles (pathServer files) files pathOpened where
  clean path s := by
    cases found : files path <;> simp [pathServer, found, Reply.Clean, kHelErrNone]
  missing path s absent := by simp [pathServer, absent]
  found path s present := by
    obtain ⟨file, found⟩ := Option.ne_none_iff_exists'.mp present
    have opening : (pathServer files).requestOpen path s =
        (⟨0, 0, 0, ⟨.success, s.length⟩⟩, s ++ [path]) := by
      simp only [pathServer, found]
    rw [opening]
    exact ⟨rfl, Int.natCast_nonneg _, by simp [pathOpened]⟩

theorem openLibraryFile_pairFiles_opens_openLibrary :
    OpensFiles (pathServer pairFiles) pairFiles pathOpened ∧
      (openLibrary pairFiles [0x62] = none →
        ∃ t, openLibraryFile (pathServer pairFiles) [0x62] [] =
          .error (.loader (.libraryNotFound [0x62])) t) ∧
      ∀ file, openLibrary pairFiles [0x62] = some file →
        ∃ path fd t, openLibraryFile (pathServer pairFiles) [0x62] [] = .ok fd t ∧ 0 ≤ fd ∧
          pathOpened t fd = some path ∧ pairFiles path = some file :=
  ⟨pathServer_opensFiles pairFiles, openLibraryFile_opens_openLibrary (pathServer pairFiles)
    pairFiles pathOpened (pathServer_opensFiles pairFiles) [0x62] []⟩

/-! ## Reads into a writable segment -/

/-- A segment's read fits its window if `p_filesz ≤ p_memsz`; nothing stops a longer one. -/
theorem loadSegment_reads_within_memory (base : Nat) (phdr : Elf64Phdr) (m : SegmentMapping)
    (loaded : loadSegment base phdr = .ok m) (writable : m.writable = true)
    (no_wrap : phdr.pMemsz + 2 * kPageSize ≤ 2 ^ 64) :
    (phdr.pFilesz ≤ phdr.pMemsz → m.misalign + m.fileBytes ≤ m.mapLength) ∧
      ∀ filesz, loadSegment base { phdr with pFilesz := filesz } =
        .ok { m with fileBytes := filesz } := by
  refine ⟨fun fits => ?_, fun filesz => by
    rw [loadSegment_set_pFilesz, loaded]
    simp [Except.map, writable]⟩
  obtain ⟨-, misalign, -, length, bytes⟩ := loadSegment_of_ok loaded
  rw [bytes writable, length, misalign]
  have below : phdr.pVaddr % kPageSize < kPageSize := Nat.mod_lt _ (by decide)
  simp only [kPageSize] at below no_wrap ⊢
  generalize window : phdr.pMemsz + phdr.pVaddr % 4096 = L
  rw [Nat.mod_eq_of_lt (show L < 2 ^ 64 by omega)]
  split_ifs
  · rw [Nat.mod_eq_of_lt (show L + (4096 - L % 4096) < 2 ^ 64 by omega)]
    omega
  · omega

theorem loadSegment_dataSegment_reads_within_memory :
    loadSegment 0x41000000 ⟨ptLoad, pfR ||| pfW, 0x1000, 0x2010, 0x20, 0x20, 0x1000⟩ =
        .ok ⟨0x41002000, 0x1000, true, 0x1000, 0x20, 0x10⟩ ∧
      (true : Bool) = true ∧ (0x20 : Nat) + 2 * kPageSize ≤ 2 ^ 64 ∧
      ((0x20 : Nat) ≤ 0x20 → 0x10 + 0x20 ≤ 0x1000) ∧
      ∀ filesz, loadSegment 0x41000000
          { (⟨ptLoad, pfR ||| pfW, 0x1000, 0x2010, 0x20, 0x20, 0x1000⟩ : Elf64Phdr) with
            pFilesz := filesz } =
        .ok { (⟨0x41002000, 0x1000, true, 0x1000, 0x20, 0x10⟩ : SegmentMapping) with
          fileBytes := filesz } :=
  ⟨rfl, rfl, by decide, loadSegment_reads_within_memory 0x41000000
    ⟨ptLoad, pfR ||| pfW, 0x1000, 0x2010, 0x20, 0x20, 0x1000⟩
    ⟨0x41002000, 0x1000, true, 0x1000, 0x20, 0x10⟩ rfl rfl (by decide)⟩

end LdInit
