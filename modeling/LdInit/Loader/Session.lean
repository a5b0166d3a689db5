import LdInit.Loader.Schedule
import LdInit.Universe.Elf

/-!
# Load sessions

A session is `linkObject(main); linkObjects(); initObjects()`: `linkObjects` drains the link
queue and schedules initializers, and `initObjects` drains the init queue through `doInitialize`.
-/

namespace LdInit

namespace Loader

/-- The `Linking` log line of `linkObjects`. -/
@[simps]
def logLinking (s : Loader) (object : Nat) : Loader :=
  { s with linkLog := s.linkLog ++ [object] }

/-- `object->wasLinked = true`. -/
@[simps]
def markLinked (s : Loader) (object : Nat) : Loader :=
  { s with wasLinked := Function.update s.wasLinked object true }

/-- `_linkQueue.removeFront()`. -/
@[simps]
def removeLinkFront (s : Loader) : Loader :=
  { s with linkQueue := s.linkQueue.tail }

/-- The `Initialize` log line of `doInitialize`. -/
@[simps]
def logInitialize (s : Loader) (object : Nat) : Loader :=
  { s with initLog := s.initLog ++ [object] }

/-- A call of `doInitialize` into the object's code. -/
@[simps]
def callInit (s : Loader) (object : Nat) (call : InitCall) : Loader :=
  { s with initCalls := s.initCalls ++ [(object, call)] }

/-- `object->wasInitialized = true`. -/
@[simps]
def markInitialized (s : Loader) (object : Nat) : Loader :=
  { s with wasInitialized := Function.update s.wasInitialized object true }

/-- What a `doInitialize` that returns does: its log line, its calls and `wasInitialized`. -/
@[simps]
def runInitializers (s : Loader) (object : Nat) (calls : List InitCall) : Loader :=
  { s with initLog := s.initLog ++ [object], initCalls := s.initCalls ++ calls.map (object, ·),
           wasInitialized := Function.update s.wasInitialized object true }

/-- `_initQueue.removeFront()`. -/
@[simps]
def removeInitFront (s : Loader) : Loader :=
  { s with initQueue := s.initQueue.tail }

end Loader

/-! ## The initializers of one object -/

/-- What `doInitialize` reads of an object besides its flags. -/
structure InitSource where
  /-- `baseAddress`. -/
  baseAddress : Nat
  /-- The entries of the dynamic section up to `DT_NULL`. -/
  dynamic : List (Int × Nat)

/-- `init_ptr`, `init_array` and `array_size` of `doInitialize`, with `0` for `nullptr`. -/
structure InitScan where
  initPtr : Nat
  initArray : Nat
  arraySize : Nat
  deriving DecidableEq, Repr

namespace InitScan

/-- One iteration of `doInitialize`'s loop over the dynamic section. -/
def entry (base : Nat) (scan : InitScan) (dynamic : Int × Nat) : InitScan :=
  if dynamic.1 = dtInit then
    if dynamic.2 ≠ 0 then { scan with initPtr := (base + dynamic.2) % 2 ^ 64 } else scan
  else if dynamic.1 = dtInitArray then
    if dynamic.2 ≠ 0 then { scan with initArray := (base + dynamic.2) % 2 ^ 64 } else scan
  else if dynamic.1 = dtInitArraysz then { scan with arraySize := dynamic.2 }
  else scan

/-- The slots of `init_array` that `doInitialize` calls through, `sizeof(InitFuncPtr) = 8`. -/
def arraySlots (scan : InitScan) : List InitCall :=
  (List.range (scan.arraySize / 8)).map fun i => .arrayEntry ((scan.initArray + 8 * i) % 2 ^ 64)

/-- The calls of a `doInitialize` that returns: `init_ptr` if it is set, then `init_array`. -/
def calls (scan : InitScan) : List InitCall :=
  (if scan.initPtr ≠ 0 then [.initFunction scan.initPtr] else []) ++ scan.arraySlots

/-- Init data `doInitialize` gets through: whole `InitFuncPtr` slots, `init_array` set if read. -/
def WellFormed (scan : InitScan) : Prop :=
  scan.arraySize % 8 = 0 ∧ (8 ≤ scan.arraySize → scan.initArray ≠ 0)

instance : DecidablePred WellFormed := fun _ => inferInstanceAs (Decidable (_ ∧ _))

end InitScan

/-- The scan of `doInitialize` over the object's dynamic section. -/
def InitSource.scan (source : InitSource) : InitScan :=
  source.dynamic.foldl (InitScan.entry source.baseAddress) ⟨0, 0, 0⟩

/-- The loop of `doInitialize` over `init_array`. -/
def callInitArray (object : Nat) (scan : InitScan) : EStateM Abort Loader Unit :=
  (List.range (scan.arraySize / 8)).forM fun i =>
    if scan.initArray = 0 then throw .nullInitArray
    else modify (·.callInit object (.arrayEntry ((scan.initArray + 8 * i) % 2 ^ 64)))

/-- `doInitialize` after its assertions on the flags: the log line, the calls and the flag. -/
def runInit (object : Nat) (scan : InitScan) : EStateM Abort Loader Unit := do
  modify (·.logInitialize object)
  (if scan.initPtr ≠ 0 then modify (·.callInit object (.initFunction scan.initPtr)) else pure ⟨⟩)
  (if scan.arraySize % 8 ≠ 0 then throw .initArraySize else pure ⟨⟩)
  callInitArray object scan
  modify (·.markInitialized object)

theorem forM_callInit (object : Nat) (f : Nat → InitCall) : ∀ (l : List Nat) (s : Loader),
    (l.forM fun i => modify (·.callInit object (f i)) : EStateM Abort Loader PUnit) s =
      .ok ⟨⟩ { s with initCalls := s.initCalls ++ l.map fun i => (object, f i) }
  | [], s => by simp
  | i :: l, s => by
      rw [List.forM_cons', EStateM.modify_bind_apply, forM_callInit object f l]
      simp [Loader.callInit]

theorem callInitArray_of_set {object : Nat} {scan : InitScan}
    (set : 8 ≤ scan.arraySize → scan.initArray ≠ 0) (s : Loader) :
    callInitArray object scan s =
      .ok ⟨⟩ { s with initCalls := s.initCalls ++ scan.arraySlots.map (object, ·) } := by
  by_cases null : scan.initArray = 0
  · have empty : scan.arraySize / 8 = 0 := by omega
    simp [callInitArray, InitScan.arraySlots, empty]
  · simp [callInitArray, null, forM_callInit, InitScan.arraySlots]

/-- On well-formed init data, `doInitialize` logs, calls `init_ptr` and the slots, and marks. -/
theorem runInit_of_wellFormed {object : Nat} {scan : InitScan} (wf : scan.WellFormed)
    (s : Loader) : runInit object scan s = .ok ⟨⟩ (s.runInitializers object scan.calls) := by
  obtain ⟨whole, set⟩ := wf
  by_cases ptr : scan.initPtr ≠ 0 <;>
    simp [runInit, ptr, whole, EStateM.bind_of_ok (callInitArray_of_set set _), InitScan.calls,
      Loader.runInitializers, Loader.markInitialized, Loader.callInit, Loader.logInitialize]

namespace DependencyGraph

variable (g : DependencyGraph)

/-- The loop body of `Loader::linkObjects`, without `loadScope` and the relocation passes. -/
def linkFront (fuel object : Nat) : EStateM Abort Loader Unit := do
  modify (·.logLinking object)
  if (← get).wasLinked object then throw .wasLinked
  scheduleDependency (g.scheduleInit fuel) object
  modify (·.markLinked object)
  modify Loader.removeLinkFront

/-- `Loader::linkObjects`' loop, once for each object of the queue it started with. -/
def drainLinkQueue (fuel : Nat) : List Nat → EStateM Abort Loader Unit
  | [] => pure ()
  | object :: rest => do
      g.linkFront fuel object
      drainLinkQueue fuel rest

/-- `Loader::linkObjects`, whose loop runs once for each object the link queue held. -/
def linkObjects (fuel : Nat) : EStateM Abort Loader Unit := do
  g.drainLinkQueue fuel (← get).linkQueue

variable (inits : Nat → InitSource)

/-- `doInitialize`, on the object's init data `inits object`. -/
def doInitialize (object : Nat) : EStateM Abort Loader Unit := do
  let s ← get
  if !s.wasLinked object then throw .notLinked
  if s.wasInitialized object then throw .wasInitialized
  if (g.dependencies object).any (fun dep => !s.wasInitialized dep) then
    throw .dependencyNotInitialized
  runInit object (inits object).scan

/-- The body of `Loader::initObjects`' loop for the object at the front of the init queue. -/
def initFront (object : Nat) : EStateM Abort Loader Unit := do
  if !(← get).wasInitialized object then g.doInitialize inits object
  modify Loader.removeInitFront

/-- `Loader::initObjects`' loop, once for each object of the queue it started with. -/
def drainInitQueue : List Nat → EStateM Abort Loader Unit
  | [] => pure ()
  | object :: rest => do
      g.initFront inits object
      drainInitQueue rest

/-- `Loader::initObjects`. -/
def initObjects : EStateM Abort Loader Unit := do
  g.drainInitQueue inits (← get).initQueue

/-- A load session: `linkObject(main); linkObjects(); initObjects()`. -/
def session (fuel main : Nat) : EStateM Abort Loader Unit := do
  g.linkObject fuel main
  g.linkObjects fuel
  g.initObjects inits

/-- What holds between the calls a program makes on a loader, on any graph. -/
structure LinkInvariant (s : Loader) : Prop where
  schedule : g.ScheduleInvariant s
  off_stack : ∀ x, s.onInitStack x = false
  nodup : s.linkObjectSet.Nodup
  closed : ∀ x ∈ s.linkObjectSet, ∀ d ∈ g.dependencies x, d ∈ s.linkObjectSet
  /-- Every object that entered `_linkObjects` is linked, in order, or still queued. -/
  log_queue : s.linkLog ++ s.linkQueue = s.linkObjectSet
  linked : ∀ x, s.wasLinked x = true ↔ x ∈ s.linkLog
  linked_scheduled : ∀ x ∈ s.linkLog, s.scheduledForInit x = true
  queued_entered : ∀ x ∈ s.initQueue, x ∈ s.linkObjectSet

variable {g} {inits}

theorem LinkInvariant.fresh : g.LinkInvariant Loader.fresh where
  schedule := ⟨by simp [Loader.fresh], by simp [Loader.fresh], by simp [Loader.fresh],
    List.nodup_nil, dependenciesBefore_nil _⟩
  off_stack := by simp [Loader.fresh]
  nodup := List.nodup_nil
  closed := by simp [Loader.fresh]
  log_queue := rfl
  linked := by simp [Loader.fresh]
  linked_scheduled := by simp [Loader.fresh]
  queued_entered := by simp [Loader.fresh]

/-- `linkObject` keeps the invariant. -/
theorem LinkInvariant.enqueue {s : Loader} {root : Nat} {out : List Nat}
    (invariant : g.LinkInvariant s) (search : g.Preorder s.linkObjectSet [root] out) :
    g.LinkInvariant (s.enqueue out) := by
  obtain ⟨schedule, off_stack, nodup, closed, log_queue, linked, linked_scheduled,
    queued_entered⟩ := invariant
  refine ⟨schedule.congr rfl rfl rfl, off_stack, search.nodup_append nodup,
    fun x member d dep => ?_, by simp [← log_queue], linked, linked_scheduled,
    fun x member => List.mem_append_left _ (queued_entered x member)⟩
  simp only [Loader.enqueue_linkObjectSet, List.mem_append] at member ⊢
  rcases member with old | new
  · exact Or.inl (closed x old d dep)
  · exact List.mem_append.mp (search.closed.2 x new d dep)

/-- One iteration of `linkObjects` keeps the invariant, links its object, schedules its init. -/
theorem linkFront_spec {fuel object : Nat} {rest : List Nat} {s : Loader}
    (invariant : g.LinkInvariant s) (queue : s.linkQueue = object :: rest)
    (budget : g.size < fuel) :
    ∃ t, g.linkFront fuel object s = .ok ⟨⟩ t ∧ g.LinkInvariant t ∧ t.linkQueue = rest ∧
      t.linkLog = s.linkLog ++ [object] ∧ t.linkObjectSet = s.linkObjectSet ∧
      t.wasInitialized = s.wasInitialized ∧ t.initLog = s.initLog ∧ t.initCalls = s.initCalls := by
  obtain ⟨schedule, off_stack, nodup, closed, log_queue, linked, linked_scheduled,
    queued_entered⟩ := invariant
  have entered : object ∈ s.linkObjectSet := by simp [← log_queue, queue]
  have unlinked : s.wasLinked object = false := by
    have distinct := log_queue ▸ nodup
    rw [queue] at distinct
    exact Bool.eq_false_iff.mpr fun was => List.disjoint_of_nodup_append distinct
      ((linked object).mp was) (List.mem_cons_self _ _)
  obtain ⟨scheduled, initQueue, run, growth, done⟩ := scheduleDependency_spec
    (scheduleInit_spec fuel) (s.logLinking object) (schedule.congr rfl rfl rfl)
    (Reaches.refl object) (by simp [off_stack]) (lt_of_le_of_lt (card_remaining_le _) budget)
  obtain ⟨new, rfl, reach⟩ := growth.appended
  refine ⟨(((s.logLinking object).withSchedule scheduled (s.initQueue ++ new)).markLinked
    object).removeLinkFront, by simp [linkFront, unlinked, EStateM.bind_of_ok run],
    ⟨growth.invariant.congr rfl rfl rfl, by simpa using off_stack, by simpa using nodup,
      by simpa using closed, ?_, fun x => ?_, fun x member => ?_, fun x member => ?_⟩,
    by simp [queue], by simp, rfl, rfl, rfl, rfl⟩
  · simp [← log_queue, queue]
  · by_cases same : x = object
    · simp [same]
    · simp [same, linked]
  · simp only [Loader.removeLinkFront_linkLog, Loader.markLinked_linkLog,
      Loader.withSchedule_linkLog, Loader.logLinking_linkLog, List.mem_append,
      List.mem_singleton] at member
    rcases member with old | rfl
    · exact growth.mono x (linked_scheduled x old)
    · exact done
  · simp only [Loader.removeLinkFront_initQueue, Loader.markLinked_initQueue,
      Loader.withSchedule_initQueue, List.mem_append] at member
    rcases member with old | fresh
    · simpa using queued_entered x old
    · simpa using mem_of_reaches closed entered (reach x fresh)

/-- `linkObjects` links the whole queue, in order, on any graph. -/
theorem linkObjects_spec {fuel : Nat} {s : Loader} (invariant : g.LinkInvariant s)
    (budget : g.size < fuel) :
    ∃ t, g.linkObjects fuel s = .ok ⟨⟩ t ∧ g.LinkInvariant t ∧ t.linkQueue = [] ∧
      t.linkLog = s.linkLog ++ s.linkQueue ∧ t.linkObjectSet = s.linkObjectSet ∧
      t.wasInitialized = s.wasInitialized ∧ t.initLog = s.initLog ∧ t.initCalls = s.initCalls := by
  suffices drain : ∀ objects (s : Loader), g.LinkInvariant s → s.linkQueue = objects →
      ∃ t, g.drainLinkQueue fuel objects s = .ok ⟨⟩ t ∧ g.LinkInvariant t ∧ t.linkQueue = [] ∧
        t.linkLog = s.linkLog ++ objects ∧ t.linkObjectSet = s.linkObjectSet ∧
        t.wasInitialized = s.wasInitialized ∧ t.initLog = s.initLog ∧
        t.initCalls = s.initCalls from
    drain s.linkQueue s invariant rfl
  intro objects
  induction objects with
  | nil => exact fun s invariant queue => ⟨s, rfl, invariant, queue, by simp, rfl, rfl, rfl, rfl⟩
  | cons object rest ih =>
      intro s invariant queue
      obtain ⟨u, run, invariant', queue', log, entered, initialized, init_log, calls⟩ :=
        linkFront_spec invariant queue budget
      obtain ⟨t, rest_run, invariant'', empty, log', entered', initialized', init_log', calls'⟩ :=
        ih u invariant' queue'
      exact ⟨t, by simp [drainLinkQueue, EStateM.bind_of_ok run, rest_run], invariant'', empty,
        by simp [log', log], entered'.trans entered, initialized'.trans initialized,
        init_log'.trans init_log, calls'.trans calls⟩

variable (inits) in
/-- On a linked object whose dependencies are initialized, `doInitialize` passes its flag checks. -/
theorem doInitialize_of_ready {object : Nat} {s : Loader} (linked : s.wasLinked object = true)
    (fresh : s.wasInitialized object = false)
    (ready : ∀ d ∈ g.dependencies object, s.wasInitialized d = true) :
    g.doInitialize inits object s = runInit object (inits object).scan s := by
  have none_missing : ¬∃ d ∈ g.dependencies object, s.wasInitialized d = false :=
    fun ⟨d, dep, missing⟩ => by simp [ready d dep] at missing
  simp [doInitialize, linked, fresh, none_missing]

variable (inits) in
/-- A dependency not yet initialized fails the third assertion of `doInitialize`. -/
theorem doInitialize_of_missing {object d : Nat} {s : Loader} (linked : s.wasLinked object = true)
    (fresh : s.wasInitialized object = false) (dep : d ∈ g.dependencies object)
    (missing : s.wasInitialized d = false) :
    g.doInitialize inits object s = .error .dependencyNotInitialized s := by
  have some_missing : ∃ d ∈ g.dependencies object, s.wasInitialized d = false := ⟨d, dep, missing⟩
  simp [doInitialize, linked, fresh, some_missing]

end DependencyGraph

/-- On any graph, even cyclic, the link phase links `main`'s pre-order and initializes nothing. -/
theorem linkPhase_spec (g : DependencyGraph) (main fuel : Nat) (budget : g.size < fuel) :
    ∃ out linked, g.Preorder [] [main] out ∧
      (do g.linkObject fuel main; g.linkObjects fuel) Loader.fresh = .ok ⟨⟩ linked ∧
      g.LinkInvariant linked ∧ linked.linkLog = out ∧ linked.linkObjectSet = out ∧
      (∀ x, linked.wasInitialized x = false) ∧ linked.initLog = [] ∧ linked.initCalls = [] := by
  obtain ⟨out, search, link_run⟩ := g.linkObject_preorder fuel main Loader.fresh
    (lt_of_le_of_lt (g.card_remaining_le _) budget)
  obtain ⟨linked, links_run, invariant, -, log, entered, initialized, init_log, calls⟩ :=
    g.linkObjects_spec (DependencyGraph.LinkInvariant.fresh.enqueue search) budget
  refine ⟨out, linked, search, by rw [EStateM.bind_of_ok link_run, links_run], invariant,
    by simpa [Loader.fresh] using log, by simpa [Loader.fresh] using entered,
    fun x => by simp [initialized, Loader.fresh], by simpa [Loader.fresh] using init_log,
    by simpa [Loader.fresh] using calls⟩

/-- A session is its link phase followed by `initObjects` on the init queue the phase built. -/
theorem session_of_linked {g : DependencyGraph} {inits : Nat → InitSource} {main fuel : Nat}
    {linked : Loader}
    (first : (do g.linkObject fuel main; g.linkObjects fuel) Loader.fresh = .ok ⟨⟩ linked) :
    g.session inits fuel main Loader.fresh = g.drainInitQueue inits linked.initQueue linked := by
  rw [DependencyGraph.session, ← bind_assoc, EStateM.bind_of_ok first]
  rfl

/-- The graph `main → {L, A}`, `A → B`, `B → A`, handles `0, 1, 2, 3`: a cycle behind a library. -/
def cycleBehindLibrary : DependencyGraph := ⟨[[1, 2], [], [3], [2]], by decide⟩

/-- The cycle check never fires; on `cycleBehindLibrary` `doInitialize` of `B` aborts after `L`. -/
theorem session_cycle_aborts_in_doInitialize :
    (∀ (g : DependencyGraph) (main fuel : Nat), g.size < fuel →
      ∃ linked, (do g.linkObject fuel main; g.linkObjects fuel) Loader.fresh = .ok ⟨⟩ linked) ∧
    ∃ linked,
      (do cycleBehindLibrary.linkObject 5 0; cycleBehindLibrary.linkObjects 5) Loader.fresh =
        .ok ⟨⟩ linked ∧ linked.initQueue = [1, 3, 2, 0] ∧
      ∀ inits : Nat → InitSource, (inits 1).scan.WellFormed →
        ∃ failed, cycleBehindLibrary.session inits 5 0 Loader.fresh =
            .error .dependencyNotInitialized failed ∧
          failed.initLog = [1] ∧ failed.initCalls = (inits 1).scan.calls.map (1, ·) := by
  refine ⟨fun g main fuel budget => ?_, ?_⟩
  · obtain ⟨-, linked, -, run, -⟩ := linkPhase_spec g main fuel budget
    exact ⟨linked, run⟩
  obtain ⟨linked, first, queue, linked_1, linked_3, fresh, log, calls⟩ : ∃ linked,
      (do cycleBehindLibrary.linkObject 5 0; cycleBehindLibrary.linkObjects 5) Loader.fresh =
        .ok ⟨⟩ linked ∧ linked.initQueue = [1, 3, 2, 0] ∧ linked.wasLinked 1 = true ∧
      linked.wasLinked 3 = true ∧ (∀ x, linked.wasInitialized x = false) ∧ linked.initLog = [] ∧
      linked.initCalls = [] := ⟨_, rfl, rfl, rfl, rfl, fun _ => rfl, rfl, rfl⟩
  refine ⟨linked, first, queue, fun inits wf => ?_⟩
  have initialized_L := (DependencyGraph.doInitialize_of_ready (g := cycleBehindLibrary)
    inits linked_1 (fresh 1)
    (by simp [cycleBehindLibrary, DependencyGraph.dependencies])).trans
    (runInit_of_wellFormed wf linked)
  set after_L := (linked.runInitializers 1 (inits 1).scan.calls).removeInitFront
  have stuck_B : cycleBehindLibrary.doInitialize inits 3 after_L =
      .error .dependencyNotInitialized after_L :=
    DependencyGraph.doInitialize_of_missing (d := 2) inits (by simpa [after_L] using linked_3)
      (by simp [after_L, fresh]) (by simp [cycleBehindLibrary, DependencyGraph.dependencies])
      (by simp [after_L, fresh])
  refine ⟨after_L, ?_, by simp [after_L, log], by simp [after_L, calls]⟩
  rw [session_of_linked first, queue]
  simp [DependencyGraph.drainInitQueue, DependencyGraph.initFront, fresh,
    EStateM.bind_of_ok initialized_L, EStateM.bind_of_error stuck_B, after_L]

/-- A call a program makes on one `Loader`. -/
inductive LoaderCall where
  | linkObject (object : Nat)
  | linkObjects

/-- The roots a sequence of calls passes to `linkObject`. -/
def LoaderCall.roots : List LoaderCall → List Nat
  | [] => []
  | .linkObject root :: calls => root :: roots calls
  | .linkObjects :: calls => roots calls

namespace DependencyGraph

variable (g : DependencyGraph)

/-- A sequence of calls on one loader. -/
def run (fuel : Nat) : List LoaderCall → EStateM Abort Loader Unit
  | [] => pure ()
  | .linkObject root :: calls => do
      g.linkObject fuel root
      run fuel calls
  | .linkObjects :: calls => do
      g.linkObjects fuel
      run fuel calls

variable {g}

/-- Every run keeps the invariant, and `_linkObjects` holds what the roots so far reach. -/
theorem run_spec {fuel : Nat} (budget : g.size < fuel) : ∀ (calls : List LoaderCall)
    (s : Loader) (roots : List Nat), g.LinkInvariant s →
    (∀ x, x ∈ s.linkObjectSet ↔ ∃ root ∈ roots, g.Reaches root x) →
    ∃ t, g.run fuel calls s = .ok ⟨⟩ t ∧ g.LinkInvariant t ∧
      ∀ x, x ∈ t.linkObjectSet ↔ ∃ root ∈ roots ++ LoaderCall.roots calls, g.Reaches root x := by
  intro calls
  induction calls with
  | nil => exact fun s roots invariant reach => ⟨s, rfl, invariant, by simpa [LoaderCall.roots]⟩
  | cons call calls ih =>
      intro s roots invariant reach
      cases call with
      | linkObject root =>
          obtain ⟨out, search, link_run⟩ := g.linkObject_preorder fuel root s
            (lt_of_le_of_lt (g.card_remaining_le _) budget)
          obtain ⟨t, rest, invariant', reach'⟩ := ih (s.enqueue out) (roots ++ [root])
            (invariant.enqueue search) fun x => by
              rw [Loader.enqueue_linkObjectSet, search.mem_iff invariant.closed, reach]
              simp [or_and_right, exists_or]
          refine ⟨t, by simp [run, EStateM.bind_of_ok link_run, rest], invariant', ?_⟩
          simpa [LoaderCall.roots] using reach'
      | linkObjects =>
          obtain ⟨u, links_run, invariant', -, -, entered, -⟩ := linkObjects_spec invariant budget
          obtain ⟨t, rest, invariant'', reach'⟩ := ih u roots invariant' (by rwa [entered])
          exact ⟨t, by simp [run, EStateM.bind_of_ok links_run, rest], invariant'',
            by simpa [LoaderCall.roots] using reach'⟩

end DependencyGraph

/-- Any run of link calls links what the roots reach, each once, and sets `wasLinked` on them. -/
theorem run_links_reachable_objects_once (g : DependencyGraph) (fuel : Nat)
    (budget : g.size < fuel) (calls : List LoaderCall) :
    (∀ (s : Loader) (root : Nat), ∃ out, g.Preorder s.linkObjectSet [root] out ∧
      g.linkObject fuel root s = .ok ⟨⟩ (s.enqueue out)) ∧
    ∃ s, g.run fuel calls Loader.fresh = .ok ⟨⟩ s ∧ s.linkObjectSet.Nodup ∧
      (∀ x, x ∈ s.linkObjectSet ↔ ∃ root ∈ LoaderCall.roots calls, g.Reaches root x) ∧
      s.linkLog ++ s.linkQueue = s.linkObjectSet ∧ (∀ x, s.wasLinked x = true ↔ x ∈ s.linkLog) ∧
      ∃ t, g.linkObjects fuel s = .ok ⟨⟩ t ∧ t.linkQueue = [] ∧ t.linkLog = s.linkObjectSet ∧
        ∀ x, t.wasLinked x = true ↔ x ∈ s.linkObjectSet := by
  refine ⟨fun s root => g.linkObject_preorder fuel root s
    (lt_of_le_of_lt (g.card_remaining_le _) budget), ?_⟩
  obtain ⟨s, run, invariant, reach⟩ := DependencyGraph.run_spec budget calls Loader.fresh []
    DependencyGraph.LinkInvariant.fresh (by simp [Loader.fresh])
  obtain ⟨t, links_run, linked, empty, log, -⟩ := DependencyGraph.linkObjects_spec invariant budget
  have all_linked : t.linkLog = s.linkObjectSet := log.trans invariant.log_queue
  exact ⟨s, run, invariant.nodup, by simpa using reach, invariant.log_queue, invariant.linked, t,
    links_run, empty, all_linked, fun x => all_linked ▸ linked.linked x⟩

theorem run_links_cycleBehindLibrary_once :
    cycleBehindLibrary.size < 5 ∧
    (∀ (s : Loader) (root : Nat), ∃ out, cycleBehindLibrary.Preorder s.linkObjectSet [root] out ∧
      cycleBehindLibrary.linkObject 5 root s = .ok ⟨⟩ (s.enqueue out)) ∧
    ∃ s, cycleBehindLibrary.run 5 [.linkObject 0, .linkObjects, .linkObject 3] Loader.fresh =
        .ok ⟨⟩ s ∧ s.linkObjectSet.Nodup ∧
      (∀ x, x ∈ s.linkObjectSet ↔
        ∃ root ∈ LoaderCall.roots [.linkObject 0, .linkObjects, .linkObject 3],
          cycleBehindLibrary.Reaches root x) ∧
      s.linkLog ++ s.linkQueue = s.linkObjectSet ∧ (∀ x, s.wasLinked x = true ↔ x ∈ s.linkLog) ∧
      ∃ t, cycleBehindLibrary.linkObjects 5 s = .ok ⟨⟩ t ∧ t.linkQueue = [] ∧
        t.linkLog = s.linkObjectSet ∧ ∀ x, t.wasLinked x = true ↔ x ∈ s.linkObjectSet :=
  ⟨by decide, run_links_reachable_objects_once cycleBehindLibrary 5 (by decide) _⟩

end LdInit
