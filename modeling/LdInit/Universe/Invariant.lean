import LdInit.Universe.Registry
import Mathlib.Data.List.Forall2
import Mathlib.Data.List.Infix

/-!
# The invariant of the link universe

Between the steps of a run, each object is registered under its name, each library loaded once,
and each object lists the objects of its `DT_NEEDED` names, a prefix while it is being discovered.
-/

namespace LdInit

namespace LinkUniverse

/-- `u` registers `object` under `name`. -/
def Registered (u : LinkUniverse) (name : List UInt8) (object : Nat) : Prop :=
  u.nameMap name = some object

@[simp]
theorem registered_iff {u : LinkUniverse} {name : List UInt8} {object : Nat} :
    u.Registered name object ↔ u.nameMap name = some object := Iff.rfl

/-- `u'` grew out of `u`: same registrations, same objects but `busy` ones, new libraries logged. -/
structure Grows (busy : Nat → Prop) (u u' : LinkUniverse) : Prop where
  registered : ∀ name object, u.Registered name object → u'.Registered name object
  count_le : u.objectCount ≤ u'.objectCount
  objects : ∀ object < u.objectCount, ∃ more, (¬busy object → more = []) ∧
    u'.objects object =
      { u.objects object with dependencies := (u.objects object).dependencies ++ more }
  logged : ∃ new, u'.loadLog = u.loadLog ++ new ∧ ∀ name ∈ new, u.nameMap name = none

namespace Grows

variable {busy busy' : Nat → Prop} {u v w : LinkUniverse}

theorem refl (busy : Nat → Prop) (u : LinkUniverse) : Grows busy u u :=
  ⟨fun _ _ => id, le_rfl, fun _ _ => ⟨[], fun _ => rfl, by simp⟩, ⟨[], by simp, by simp⟩⟩

/-- Two growths in a row are one, if the second's busy objects of `u` are `busy` ones. -/
theorem trans (first : Grows busy u v) (second : Grows busy' v w)
    (idle : ∀ object < u.objectCount, busy' object → busy object) : Grows busy u w where
  registered name object registered :=
    second.registered name object (first.registered _ _ registered)
  count_le := first.count_le.trans second.count_le
  objects object lt := by
    obtain ⟨more, none, eq⟩ := first.objects object lt
    obtain ⟨more', none', eq'⟩ := second.objects object (lt.trans_le first.count_le)
    refine ⟨more ++ more', fun calm => ?_, by rw [eq', eq]; simp⟩
    simp [none calm, none' fun busy => calm (idle object lt busy)]
  logged := by
    obtain ⟨new, log, fresh⟩ := first.logged
    obtain ⟨new', log', fresh'⟩ := second.logged
    refine ⟨new ++ new', by rw [log', log, List.append_assoc], fun name member => ?_⟩
    rcases List.mem_append.mp member with early | late
    · exact fresh name early
    · cases known : u.nameMap name with
      | none => rfl
      | some object =>
          have kept : v.nameMap name = some object := first.registered name object known
          simpa [kept] using fresh' name late

theorem mono (grows : Grows busy u v) (weaker : ∀ object, busy object → busy' object) :
    Grows busy' u v :=
  { grows with
    objects := fun object lt => by
      obtain ⟨more, none, eq⟩ := grows.objects object lt
      exact ⟨more, fun calm => none fun busy => calm (weaker object busy), eq⟩ }

theorem objects_eq (grows : Grows busy u v) {object : Nat} (lt : object < u.objectCount)
    (calm : ¬busy object) : v.objects object = u.objects object := by
  obtain ⟨more, none, eq⟩ := grows.objects object lt
  rw [eq, none calm, List.append_nil]

theorem nameMap_ne_none (grows : Grows busy u v) {name : List UInt8}
    (known : u.nameMap name ≠ none) : v.nameMap name ≠ none := by
  obtain ⟨object, registered⟩ := Option.ne_none_iff_exists'.mp known
  exact Option.ne_none_iff_exists'.mpr ⟨object, grows.registered name object registered⟩

/-- A library registered and not loaded stays not loaded. -/
theorem not_mem_loadLog (grows : Grows busy u v) {name : List UInt8} (known : u.nameMap name ≠ none)
    (unloaded : name ∉ u.loadLog) : name ∉ v.loadLog := by
  obtain ⟨new, log, fresh⟩ := grows.logged
  rw [log, List.mem_append, not_or]
  exact ⟨unloaded, fun member => known (fresh name member)⟩

/-- Appending to the dependencies of one object. -/
theorem append (u : LinkUniverse) {object : Nat} (more : List Nat) :
    Grows (· = object) u
      (u.setObject object fun o => { o with dependencies := o.dependencies ++ more }) where
  registered _ _ := id
  count_le := le_rfl
  objects other _ := by
    by_cases same : other = object
    · subst same
      exact ⟨more, fun calm => absurd rfl calm, by simp⟩
    · exact ⟨[], fun _ => rfl, by simp [same]⟩
  logged := ⟨[], by simp, by simp⟩

end Grows

/-- The object `u` registers under `name` has a `DT_NEEDED` entry naming `other`. -/
def Needs (u : LinkUniverse) (name other : List UInt8) : Prop :=
  ∃ object d, u.Registered name object ∧ (u.objects object).dynamic = some d ∧ other ∈ d.needed

/-- Registering a name no object had keeps every registration. -/
theorem registered_register {u v : LinkUniverse} {name : List UInt8}
    (absent : u.nameMap name = none) (nameMap : v.nameMap = u.nameMap) (object : Nat) :
    ∀ other known, u.Registered other known → (v.register name object).Registered other known := by
  intro other known registered
  have : other ≠ name := by rintro rfl; simp [absent] at registered
  simpa [this, nameMap] using registered

/-- What is registered once `name` is registered as `object`, given the registrations of `u`. -/
theorem registered_register_iff {u v : LinkUniverse} {name other : List UInt8} {object known : Nat}
    (nameMap : v.nameMap = u.nameMap) :
    (v.register name object).Registered other known ↔
      other = name ∧ known = object ∨ other ≠ name ∧ u.Registered other known := by
  by_cases same : other = name
  · subst same
    simp [eq_comm]
  · simp [same, nameMap]

/-- The names of `names` that `u` has not registered. -/
def remaining (names : List (List UInt8)) (u : LinkUniverse) : Nat :=
  (names.filter fun name => (u.nameMap name).isNone).length

section Remaining

variable {names : List (List UInt8)} {u v : LinkUniverse}

theorem remaining_le_length : remaining names u ≤ names.length :=
  List.length_filter_le _ _

theorem filter_unregistered_sublist (names : List (List UInt8))
    (registered : ∀ name object, u.Registered name object → v.Registered name object) :
    List.Sublist (names.filter fun name => (v.nameMap name).isNone)
      (names.filter fun name => (u.nameMap name).isNone) :=
  List.monotone_filter_right names fun name unregistered => by
    cases known : u.nameMap name with
    | none => rfl
    | some object =>
        have kept : v.nameMap name = some object := registered name object known
        simp [kept] at unregistered

theorem remaining_le
    (registered : ∀ name object, u.Registered name object → v.Registered name object) :
    remaining names v ≤ remaining names u :=
  (filter_unregistered_sublist names registered).length_le

/-- Registering a name of the universe leaves fewer names to register. -/
theorem remaining_lt
    (registered : ∀ name object, u.Registered name object → v.Registered name object)
    {name : List UInt8} (member : name ∈ names) (absent : u.nameMap name = none)
    (present : v.nameMap name ≠ none) : remaining names v < remaining names u := by
  have sublist := filter_unregistered_sublist names registered
  refine lt_of_le_of_ne sublist.length_le fun same => ?_
  have missing : name ∈ names.filter fun name => (v.nameMap name).isNone := by
    rw [sublist.eq_of_length same]
    simp [member, absent]
  simp [present] at missing

theorem remaining_register_le {name : List UInt8} (absent : u.nameMap name = none)
    (nameMap : v.nameMap = u.nameMap) {object : Nat} :
    remaining names (v.register name object) ≤ remaining names u :=
  remaining_le (registered_register absent nameMap object)

theorem remaining_register_lt {name : List UInt8} (absent : u.nameMap name = none)
    (member : name ∈ names) (nameMap : v.nameMap = u.nameMap) {object : Nat} :
    remaining names (v.register name object) < remaining names u :=
  remaining_lt (registered_register absent nameMap object) member absent (by simp)

end Remaining

theorem forall₂_exists_of_mem_left {α β : Type} {R : α → β → Prop} :
    ∀ {l₁ : List α} {l₂ : List β}, List.Forall₂ R l₁ l₂ → ∀ {a : α}, a ∈ l₁ → ∃ b ∈ l₂, R a b
  | _, _, .cons related rest, _, member => by
      rcases List.mem_cons.mp member with rfl | later
      · exact ⟨_, List.mem_cons_self _ _, related⟩
      · obtain ⟨b, found, holds⟩ := forall₂_exists_of_mem_left rest later
        exact ⟨b, List.mem_cons_of_mem _ found, holds⟩

theorem forall₂_exists_of_mem_right {α β : Type} {R : α → β → Prop} :
    ∀ {l₁ : List α} {l₂ : List β}, List.Forall₂ R l₁ l₂ → ∀ {b : β}, b ∈ l₂ → ∃ a ∈ l₁, R a b
  | _, _, .cons related rest, _, member => by
      rcases List.mem_cons.mp member with rfl | later
      · exact ⟨_, List.mem_cons_self _ _, related⟩
      · obtain ⟨a, found, holds⟩ := forall₂_exists_of_mem_right rest later
        exact ⟨a, List.mem_cons_of_mem _ found, holds⟩

/-- The link universe's invariant between steps; `pending` objects are discovering dependencies. -/
structure Registry (pending : List Nat) (u : LinkUniverse) : Prop where
  /-- An object is registered under its own name. -/
  named : ∀ name object, u.Registered name object →
    object < u.objectCount ∧ (u.objects object).name = name
  /-- A registered object depends on its `DT_NEEDED` objects, or on a prefix while pending. -/
  linked : ∀ name object, u.Registered name object → ∃ d, (u.objects object).dynamic = some d ∧
    ∃ done, done <+: d.needed ∧ (object ∉ pending → done = d.needed) ∧
      List.Forall₂ u.Registered done (u.objects object).dependencies
  /-- Every object constructed is registered. -/
  all_named : ∀ object < u.objectCount, ∃ name, u.Registered name object
  pending_lt : ∀ object ∈ pending, object < u.objectCount
  log_nodup : u.loadLog.Nodup
  log_registered : ∀ name ∈ u.loadLog, u.nameMap name ≠ none

namespace Registry

variable {pending : List Nat} {u v : LinkUniverse} {object : Nat} {d : DynamicSection}

theorem initial : Registry [] LinkUniverse.initial where
  named _ _ registered := nomatch registered
  linked _ _ registered := nomatch registered
  all_named _ lt := absurd lt (Nat.not_lt_zero _)
  pending_lt _ member := nomatch member
  log_nodup := List.nodup_nil
  log_registered _ member := nomatch member

/-- A pending object that found all its dependencies is no longer pending. -/
theorem complete (registry : Registry (object :: pending) u)
    (dynamic : (u.objects object).dynamic = some d)
    (all : List.Forall₂ u.Registered d.needed (u.objects object).dependencies) :
    Registry pending u :=
  { registry with
    linked := fun name other registered => by
      by_cases same : other = object
      · subst same
        exact ⟨d, dynamic, d.needed, ⟨[], List.append_nil _⟩, fun _ => rfl, all⟩
      · obtain ⟨d', dynamic', done, head, whole, matched⟩ := registry.linked name other registered
        exact ⟨d', dynamic', done, head, fun idle => whole (by simp [same, idle]), matched⟩
    pending_lt := fun other member => registry.pending_lt other (List.mem_cons_of_mem _ member) }

/-- A pending object may list the objects of a longer prefix of its `DT_NEEDED` names. -/
theorem append (registry : Registry pending u) (member : object ∈ pending)
    (dynamic : (u.objects object).dynamic = some d) {done : List (List UInt8)} {more : List Nat}
    (head : done <+: d.needed)
    (matched : List.Forall₂ u.Registered done ((u.objects object).dependencies ++ more)) :
    Registry pending
      (u.setObject object fun o => { o with dependencies := o.dependencies ++ more }) :=
  { registry with
    named := fun name other registered => by
      obtain ⟨lt, named⟩ := registry.named name other registered
      refine ⟨lt, ?_⟩
      by_cases same : other = object
      · subst same; simpa using named
      · simpa [same] using named
    linked := fun name other registered => by
      by_cases same : other = object
      · subst same
        exact ⟨d, by simpa using dynamic, done, head, fun idle => absurd member idle,
          by simpa using matched⟩
      · simpa [same] using registry.linked name other registered }

/-- Registering the object just built under `name`, with a dynamic section, keeps the invariant. -/
theorem register (registry : Registry pending u) {name : List UInt8}
    (absent : u.nameMap name = none)
    (nameMap : v.nameMap = u.nameMap) (count : v.objectCount = u.objectCount + 1)
    (objects : ∀ object < u.objectCount, v.objects object = u.objects object)
    (named : (v.objects u.objectCount).name = name)
    (dynamic : (v.objects u.objectCount).dynamic = some d)
    (fresh : (v.objects u.objectCount).dependencies = []) {logged : List (List UInt8)}
    (log : v.loadLog = u.loadLog ++ logged) (logged_name : ∀ other ∈ logged, other = name)
    (logged_nodup : logged.Nodup) :
    Registry (u.objectCount :: pending) (v.register name u.objectCount) ∧
      Grows (fun _ => False) u (v.register name u.objectCount) := by
  have kept : ∀ other object, u.nameMap other = some object →
      (v.register name u.objectCount).nameMap other = some object :=
    registered_register absent nameMap _
  have unloaded : name ∉ u.loadLog := fun member => registry.log_registered name member absent
  refine ⟨⟨fun other object registered => ?_, fun other object registered => ?_, ?_, ?_, ?_, ?_⟩,
    ⟨kept, by simp [count], fun object lt => ⟨[], fun _ => rfl, by simp [objects object lt]⟩,
      ⟨logged, by simp [log], fun other member => logged_name other member ▸ absent⟩⟩⟩
  · rcases (registered_register_iff nameMap).mp registered with ⟨rfl, rfl⟩ | ⟨-, registered⟩
    · simp [count, named]
    · obtain ⟨lt, named⟩ := registry.named other object registered
      simp [count, objects object lt, named]
      omega
  · rcases (registered_register_iff nameMap).mp registered with ⟨rfl, rfl⟩ | ⟨-, registered⟩
    · exact ⟨d, dynamic, [], ⟨d.needed, List.nil_append _⟩,
        fun idle => absurd (List.mem_cons_self _ _) idle, by simp [fresh]⟩
    · obtain ⟨d', dynamic', done, head, whole, matched⟩ := registry.linked other object registered
      have lt := (registry.named other object registered).1
      refine ⟨d', by simpa [objects object lt] using dynamic', done, head,
        fun idle => whole fun member => idle (List.mem_cons_of_mem _ member), ?_⟩
      simpa [objects object lt] using matched.imp kept
  · intro object lt
    rcases Nat.lt_succ_iff_lt_or_eq.mp (count ▸ lt) with lt | rfl
    · obtain ⟨other, registered⟩ := registry.all_named object lt
      exact ⟨other, kept other object registered⟩
    · exact ⟨name, by simp⟩
  · intro object member
    rcases List.mem_cons.mp member with rfl | member
    · simp [count]
    · simpa [count] using Nat.lt_succ_of_lt (registry.pending_lt object member)
  · rw [register_loadLog, log, List.nodup_append]
    exact ⟨registry.log_nodup, logged_nodup, fun other early late =>
      unloaded (logged_name other late ▸ early)⟩
  · intro other member
    rw [register_loadLog, log, List.mem_append] at member
    rcases member with early | late
    · obtain ⟨object, registered⟩ :=
        Option.ne_none_iff_exists'.mp (registry.log_registered other early)
      rw [kept other object registered]
      exact Option.some_ne_none _
    · simp [logged_name other late]

/-- Registered names are those of distinct objects. -/
theorem name_eq_of_registered (registry : Registry pending u) {name other : List UInt8}
    (registered : u.Registered name object) (also : u.Registered other object) : name = other :=
  (registry.named name object registered).2.symm.trans (registry.named other object also).2

theorem nameMap_ne_none_of_mem {names : List (List UInt8)} {deps : List Nat}
    (matched : List.Forall₂ u.Registered names deps) {name : List UInt8} (member : name ∈ names) :
    u.nameMap name ≠ none := by
  obtain ⟨dep, -, found⟩ := forall₂_exists_of_mem_left matched member
  exact Option.ne_none_iff_exists'.mpr ⟨dep, found⟩

/-- Outside any discovery, every library reachable through `DT_NEEDED` entries is registered. -/
theorem registered_of_needs (registry : Registry [] u) {name other : List UInt8}
    (known : u.nameMap name ≠ none) (reach : Relation.ReflTransGen u.Needs name other) :
    u.nameMap other ≠ none := by
  induction reach with
  | refl => exact known
  | tail _ step _ =>
      obtain ⟨object, d, registered, dynamic, member⟩ := step
      obtain ⟨d', dynamic', done, -, whole, matched⟩ := registry.linked _ object registered
      rw [dynamic, Option.some.injEq] at dynamic'
      subst dynamic'
      rw [whole (List.not_mem_nil _)] at matched
      exact nameMap_ne_none_of_mem matched member

end Registry

end LinkUniverse

end LdInit
