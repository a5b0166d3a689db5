import LdInit.Loader.Link

/-!
# Scheduling initializers

`Loader::_scheduleInit` is a recursive topological sort whose cycle check never fails: it only
enters objects not yet scheduled, and an object on the stack is scheduled.
-/

namespace LdInit

namespace Loader

/-- `object->onInitStack = value`. -/
@[simps]
def setOnInitStack (s : Loader) (object : Nat) (value : Bool) : Loader :=
  { s with onInitStack := Function.update s.onInitStack object value }

/-- `object->scheduledForInit = true`. -/
@[simps]
def setScheduledForInit (s : Loader) (object : Nat) : Loader :=
  { s with scheduledForInit := Function.update s.scheduledForInit object true }

/-- `_initQueue.addBack(object)`. -/
@[simps]
def pushInit (s : Loader) (object : Nat) : Loader :=
  { s with initQueue := s.initQueue ++ [object] }

/-- The same loader with other scheduling flags and init queue. -/
@[simps]
def withSchedule (s : Loader) (scheduled : Nat → Bool) (queue : List Nat) : Loader :=
  { s with scheduledForInit := scheduled, initQueue := queue }

@[simp]
theorem withSchedule_withSchedule (s : Loader) (scheduled scheduled' : Nat → Bool)
    (queue queue' : List Nat) :
    (s.withSchedule scheduled queue).withSchedule scheduled' queue' =
      s.withSchedule scheduled' queue' := rfl

@[simp]
theorem withSchedule_self (s : Loader) : s.withSchedule s.scheduledForInit s.initQueue = s := rfl

/-- Entering and leaving `_scheduleInit` off the stack changes only the flags and the init queue. -/
theorem enter_leave (s : Loader) (object : Nat) (off_stack : s.onInitStack object = false)
    (scheduled : Nat → Bool) (queue : List Nat) :
    ((((s.setOnInitStack object true).setScheduledForInit object).withSchedule scheduled
      queue).pushInit object).setOnInitStack object false =
      s.withSchedule scheduled (queue ++ [object]) := by
  have restored : Function.update (Function.update s.onInitStack object true) object false =
      s.onInitStack := by
    rw [Function.update_idem, ← off_stack, Function.update_eq_self]
  simp only [setOnInitStack, pushInit, withSchedule, setScheduledForInit, restored]

end Loader

/-- One iteration of `_scheduleInit`'s loop: `schedule` schedules an unscheduled dependency. -/
def scheduleDependency (schedule : Nat → EStateM Abort Loader Unit) (dep : Nat) :
    EStateM Abort Loader Unit := do
  if !(← get).scheduledForInit dep then schedule dep

theorem scheduleDependency_of_scheduled {schedule : Nat → EStateM Abort Loader Unit} {dep : Nat}
    {s : Loader} (scheduled : s.scheduledForInit dep = true) :
    scheduleDependency schedule dep s = .ok ⟨⟩ s := by
  simp [scheduleDependency, scheduled]

theorem scheduleDependency_of_unscheduled {schedule : Nat → EStateM Abort Loader Unit}
    {dep : Nat} {s : Loader} (unscheduled : s.scheduledForInit dep = false) :
    scheduleDependency schedule dep s = schedule dep s := by
  simp [scheduleDependency, unscheduled]

namespace DependencyGraph

variable (g : DependencyGraph)

/-- `Loader::_scheduleInit`, with a bound on the depth of its recursion. -/
def scheduleInit : Nat → Nat → EStateM Abort Loader Unit
  | 0, _ => throw .outOfFuel
  | fuel + 1, object => do
      if (← get).onInitStack object then throw .onInitStack
      modify (·.setOnInitStack object true)
      if (← get).scheduledForInit object then throw .scheduledForInit
      modify (·.setScheduledForInit object)
      (g.dependencies object).forM (scheduleDependency (scheduleInit fuel))
      modify (·.pushInit object)
      modify (·.setOnInitStack object false)

variable {g}

/-- Past both entry checks, a call runs the loop, queues the object and takes it off the stack. -/
theorem scheduleInit_succ {fuel object : Nat} {s v : Loader}
    (off_stack : s.onInitStack object = false) (unscheduled : s.scheduledForInit object = false)
    (loop : (g.dependencies object).forM (scheduleDependency (g.scheduleInit fuel))
      ((s.setOnInitStack object true).setScheduledForInit object) = .ok ⟨⟩ v) :
    g.scheduleInit (fuel + 1) object s =
      .ok ⟨⟩ ((v.pushInit object).setOnInitStack object false) := by
  simp only [scheduleInit, EStateM.get_bind_apply, off_stack, Bool.false_eq_true, if_false]
  simp [unscheduled, EStateM.bind_of_ok loop]

end DependencyGraph

end LdInit

namespace LdInit
namespace DependencyGraph

variable (g : DependencyGraph)

/-- The scheduling flags and init queue at every entry and return of `_scheduleInit`. -/
structure ScheduleInvariant (s : Loader) : Prop where
  /-- An object on the stack is scheduled. -/
  stack_scheduled : ∀ x, s.onInitStack x = true → s.scheduledForInit x = true
  /-- A scheduled object is on the stack or queued. -/
  scheduled_queued : ∀ x, s.scheduledForInit x = true → s.onInitStack x = true ∨ x ∈ s.initQueue
  /-- A queued object is scheduled and off the stack. -/
  queued : ∀ x ∈ s.initQueue, s.scheduledForInit x = true ∧ s.onInitStack x = false
  /-- No object is queued twice. -/
  nodup : s.initQueue.Nodup
  /-- A dependency is queued first, unless it reaches its dependent. -/
  ordered : g.DependenciesBefore g.Reaches s.initQueue

/-- What calls below `object` do: keep the invariant, queue only objects `object` reaches. -/
structure ScheduleGrowth (object : Nat) (s : Loader) (scheduled : Nat → Bool)
    (queue : List Nat) : Prop where
  invariant : g.ScheduleInvariant (s.withSchedule scheduled queue)
  mono : ∀ x, s.scheduledForInit x = true → scheduled x = true
  appended : ∃ new, queue = s.initQueue ++ new ∧ ∀ x ∈ new, g.Reaches object x

variable {g}

/-- The invariant reads only the scheduling flags, the stack flags and the init queue. -/
theorem ScheduleInvariant.congr {s t : Loader} (invariant : g.ScheduleInvariant s)
    (scheduled : t.scheduledForInit = s.scheduledForInit) (stack : t.onInitStack = s.onInitStack)
    (queue : t.initQueue = s.initQueue) : g.ScheduleInvariant t := by
  obtain ⟨stack_scheduled, scheduled_queued, queued, nodup, ordered⟩ := invariant
  exact ⟨by rwa [scheduled, stack], by rwa [scheduled, stack, queue],
    by rwa [scheduled, stack, queue], by rwa [queue], by rwa [queue]⟩

theorem ScheduleGrowth.refl {object : Nat} {s : Loader} (invariant : g.ScheduleInvariant s) :
    g.ScheduleGrowth object s s.scheduledForInit s.initQueue :=
  ⟨by simpa using invariant, fun _ => id, ⟨[], by simp, by simp⟩⟩

theorem ScheduleGrowth.trans {object : Nat} {s : Loader} {scheduled scheduled' : Nat → Bool}
    {queue queue' : List Nat} (first : g.ScheduleGrowth object s scheduled queue)
    (second : g.ScheduleGrowth object (s.withSchedule scheduled queue) scheduled' queue') :
    g.ScheduleGrowth object s scheduled' queue' := by
  obtain ⟨new, rfl, reach⟩ := first.appended
  obtain ⟨more, rfl, reach'⟩ := second.appended
  refine ⟨by simpa using second.invariant, fun x was => second.mono x (first.mono x was),
    ⟨new ++ more, by simp, fun x member => ?_⟩⟩
  rcases List.mem_append.mp member with old | fresh
  · exact reach x old
  · exact reach' x fresh

theorem ScheduleGrowth.weaken {object dep : Nat} {s : Loader} {scheduled : Nat → Bool}
    {queue : List Nat} (reach : g.Reaches object dep)
    (growth : g.ScheduleGrowth dep s scheduled queue) :
    g.ScheduleGrowth object s scheduled queue := by
  obtain ⟨new, appended, below⟩ := growth.appended
  exact ⟨growth.invariant, growth.mono, ⟨new, appended, fun x member =>
    reach.trans (below x member)⟩⟩

/-- The number of arena objects not yet scheduled never grows. -/
theorem ScheduleGrowth.card_remaining_le {object : Nat} {s : Loader} {scheduled : Nat → Bool}
    {queue : List Nat} (growth : g.ScheduleGrowth object s scheduled queue) :
    (g.remaining (scheduled · = true)).card ≤ (g.remaining (s.scheduledForInit · = true)).card :=
  card_remaining_mono growth.mono

/-- One iteration of `_scheduleInit`'s loop, given what each recursive call does. -/
theorem scheduleDependency_spec {fuel object dep : Nat}
    (each : ∀ dep (u : Loader), g.ScheduleInvariant u → u.scheduledForInit dep = false →
      (∀ x, u.onInitStack x = true → g.Reaches x dep) →
      (g.remaining (u.scheduledForInit · = true)).card < fuel →
      ∃ scheduled queue, g.scheduleInit fuel dep u = .ok ⟨⟩ (u.withSchedule scheduled queue) ∧
        g.ScheduleGrowth dep u scheduled queue ∧ scheduled dep = true)
    (u : Loader) (invariant : g.ScheduleInvariant u) (reach : g.Reaches object dep)
    (ancestors : ∀ x, u.onInitStack x = true → g.Reaches x object)
    (budget : (g.remaining (u.scheduledForInit · = true)).card < fuel) :
    ∃ scheduled queue, scheduleDependency (g.scheduleInit fuel) dep u =
      .ok ⟨⟩ (u.withSchedule scheduled queue) ∧
        g.ScheduleGrowth object u scheduled queue ∧ scheduled dep = true := by
  cases done : u.scheduledForInit dep with
  | true =>
      exact ⟨_, _, by simpa using scheduleDependency_of_scheduled done, .refl invariant, done⟩
  | false =>
      rw [scheduleDependency_of_unscheduled done]
      obtain ⟨scheduled, queue, run, growth, now⟩ := each dep u invariant done
        (fun x stacked => (ancestors x stacked).trans reach) budget
      exact ⟨scheduled, queue, run, growth.weaken reach, now⟩

/-- `_scheduleInit`'s loop over dependencies, given what each recursive call does. -/
theorem forM_scheduleDependency {fuel object : Nat}
    (each : ∀ dep (u : Loader), g.ScheduleInvariant u → u.scheduledForInit dep = false →
      (∀ x, u.onInitStack x = true → g.Reaches x dep) →
      (g.remaining (u.scheduledForInit · = true)).card < fuel →
      ∃ scheduled queue, g.scheduleInit fuel dep u = .ok ⟨⟩ (u.withSchedule scheduled queue) ∧
        g.ScheduleGrowth dep u scheduled queue ∧ scheduled dep = true)
    (deps : List Nat) (deps_mem : ∀ d ∈ deps, d ∈ g.dependencies object) (u : Loader)
    (invariant : g.ScheduleInvariant u)
    (ancestors : ∀ x, u.onInitStack x = true → g.Reaches x object)
    (budget : (g.remaining (u.scheduledForInit · = true)).card < fuel) :
    ∃ scheduled queue, deps.forM (scheduleDependency (g.scheduleInit fuel)) u =
      .ok ⟨⟩ (u.withSchedule scheduled queue) ∧
        g.ScheduleGrowth object u scheduled queue ∧ ∀ d ∈ deps, scheduled d = true := by
  induction deps generalizing u with
  | nil => exact ⟨_, _, by simp, .refl invariant, by simp⟩
  | cons dep deps ih =>
      obtain ⟨scheduled, queue, run, growth, done⟩ := scheduleDependency_spec each u invariant
        (reaches_of_mem (deps_mem dep (List.mem_cons_self _ _))) ancestors budget
      obtain ⟨scheduled', queue', rest, growth', rest_done⟩ :=
        ih (fun d member => deps_mem d (List.mem_cons_of_mem _ member)) _ growth.invariant
          (by simpa using ancestors) (lt_of_le_of_lt growth.card_remaining_le budget)
      refine ⟨scheduled', queue', ?_, growth.trans growth', fun d member => ?_⟩
      · rw [List.forM_cons', EStateM.bind_of_ok run, rest, Loader.withSchedule_withSchedule]
      · rcases List.mem_cons.mp member with rfl | later
        · exact growth'.mono d done
        · exact rest_done d later

/-- Marking a fresh object on the stack and scheduled keeps the invariant. -/
theorem ScheduleInvariant.enter {s : Loader} {object : Nat} (invariant : g.ScheduleInvariant s)
    (unscheduled : s.scheduledForInit object = false) :
    g.ScheduleInvariant ((s.setOnInitStack object true).setScheduledForInit object) := by
  obtain ⟨stack_scheduled, scheduled_queued, queued, nodup, ordered⟩ := invariant
  refine ⟨fun x stacked => ?_, fun x scheduled => ?_, fun x member => ?_, nodup, ordered⟩
  · by_cases same : x = object
    · simp [same]
    · simp only [Loader.setScheduledForInit_onInitStack, Loader.setOnInitStack_onInitStack,
        Function.update_noteq same] at stacked
      simp [same, stack_scheduled x stacked]
  · by_cases same : x = object
    · simp [same]
    · simpa [same] using scheduled_queued x (by simpa [same] using scheduled)
  · have same : x ≠ object := by
      rintro rfl
      simp [(queued x member).1] at unscheduled
    simpa [same] using queued x member

/-- Queuing an object whose dependencies are scheduled, and unstacking it, keeps the invariant. -/
theorem ScheduleInvariant.leave {v : Loader} {object : Nat} (invariant : g.ScheduleInvariant v)
    (on_stack : v.onInitStack object = true)
    (ancestors : ∀ x, v.onInitStack x = true → g.Reaches x object)
    (deps_scheduled : ∀ d ∈ g.dependencies object, v.scheduledForInit d = true) :
    g.ScheduleInvariant ((v.pushInit object).setOnInitStack object false) := by
  obtain ⟨stack_scheduled, scheduled_queued, queued, nodup, ordered⟩ := invariant
  have not_queued : object ∉ v.initQueue := fun member => by
    simp [(queued object member).2] at on_stack
  refine ⟨fun x stacked => ?_, fun x scheduled => ?_, fun x member => ?_, ?_, ?_⟩
  · by_cases same : x = object
    · simp [same] at stacked
    · simp only [Loader.setOnInitStack_onInitStack, Function.update_noteq same,
        Loader.pushInit_onInitStack] at stacked
      simpa using stack_scheduled x stacked
  · by_cases same : x = object
    · simp [same]
    · simpa [same] using scheduled_queued x (by simpa using scheduled)
  · simp only [Loader.setOnInitStack_initQueue, Loader.pushInit_initQueue, List.mem_append,
      List.mem_singleton] at member
    rcases member with old | rfl
    · have same : x ≠ object := fun same => not_queued (same ▸ old)
      simpa [same] using queued x old
    · simpa using stack_scheduled x on_stack
  · simpa using List.nodup_append.mpr ⟨nodup, List.nodup_singleton object,
      List.disjoint_singleton.mpr not_queued⟩
  · simp only [Loader.setOnInitStack_initQueue, Loader.pushInit_initQueue]
    refine ordered.append_singleton fun d dep => ?_
    rcases scheduled_queued d (deps_scheduled d dep) with stacked | queued_dep
    · exact Or.inr (ancestors d stacked)
    · exact Or.inl queued_dep

/-- With depth to spare, `_scheduleInit` schedules and queues an unscheduled object on any graph. -/
theorem scheduleInit_spec (fuel : Nat) : ∀ (object : Nat) (s : Loader),
    g.ScheduleInvariant s → s.scheduledForInit object = false →
    (∀ x, s.onInitStack x = true → g.Reaches x object) →
    (g.remaining (s.scheduledForInit · = true)).card < fuel →
    ∃ scheduled queue, g.scheduleInit fuel object s = .ok ⟨⟩ (s.withSchedule scheduled queue) ∧
      g.ScheduleGrowth object s scheduled queue ∧ scheduled object = true := by
  induction fuel with
  | zero => intro _ _ _ _ _ budget; omega
  | succ fuel ih =>
      intro object s invariant unscheduled ancestors budget
      have off_stack : s.onInitStack object = false := by
        cases stacked : s.onInitStack object
        · rfl
        · simp [invariant.stack_scheduled object stacked] at unscheduled
      let entered := (s.setOnInitStack object true).setScheduledForInit object
      have ancestors' : ∀ x, entered.onInitStack x = true → g.Reaches x object := by
        intro x stacked
        by_cases same : x = object
        · exact same ▸ Reaches.refl x
        · exact ancestors x (by simpa [entered, same] using stacked)
      have loop : ∃ scheduled queue, (g.dependencies object).forM
          (scheduleDependency (g.scheduleInit fuel)) entered =
            .ok ⟨⟩ (entered.withSchedule scheduled queue) ∧
          g.ScheduleGrowth object entered scheduled queue ∧
            ∀ d ∈ g.dependencies object, scheduled d = true := by
        rcases Nat.lt_or_ge object g.size with inside | outside
        · have shrink : (g.remaining (entered.scheduledForInit · = true)).card <
              (g.remaining (s.scheduledForInit · = true)).card :=
            card_remaining_lt (fun x was => by
              by_cases same : x = object <;> simp [entered, same, was]) inside
              (by simp [unscheduled]) (by simp [entered])
          exact forM_scheduleDependency ih _ (fun _ => id) entered (invariant.enter unscheduled)
            ancestors' (by omega)
        · rw [dependencies_of_size_le outside]
          exact ⟨_, _, by simp, .refl (invariant.enter unscheduled), by simp⟩
      obtain ⟨scheduled, queue, loop_run, growth, deps_scheduled⟩ := loop
      have done : scheduled object = true := growth.mono object (by simp [entered])
      refine ⟨scheduled, queue ++ [object], ?_, ?_, done⟩
      · rw [scheduleInit_succ off_stack unscheduled loop_run, Loader.enter_leave s object off_stack]
      obtain ⟨new, rfl, reach⟩ := growth.appended
      refine ⟨?_, fun x was => growth.mono x ?_, ⟨new ++ [object], by simp [entered], ?_⟩⟩
      · rw [← Loader.enter_leave s object off_stack]
        exact growth.invariant.leave (by simp [entered]) (by simpa using ancestors')
          (by simpa using deps_scheduled)
      · by_cases same : x = object <;> simp [entered, same, was]
      · intro x member
        rcases List.mem_append.mp member with old | last
        · exact reach x old
        · obtain rfl := List.mem_singleton.mp last
          exact Reaches.refl x

end DependencyGraph
end LdInit
