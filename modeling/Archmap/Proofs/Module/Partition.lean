import Mathlib.Data.List.Induction
import Mathlib.Data.List.Nodup
import Archmap.Creator
import Archmap.Proofs.Ascending

/-!
# Modules partition the classes

What is known about a module graph that a creator has made (`Partitioned`): its modules are the
groups of the snapshot's classes, in order, and its dependencies are those computed from them. A
group holds exactly the classes with its identifier (`mem_groups`), and class names are unique in a
snapshot, so no class name belongs to two modules (`Partitioned.disjoint`). Everything else about
module graphs follows from these facts without looking at the creator again.
-/

namespace Archmap

variable {identify : Class → Identifier} {classes : List Class} {group : Group} {id : Identifier}

theorem Identifier.eq_of_parts {id' : Identifier} (h : id.parts = id'.parts) : id = id' := by
  cases id
  cases id'
  cases h
  rfl

theorem Identifier.isIgnored_iff : id.isIgnored = true ↔ id = .ignore := by
  rw [Identifier.isIgnored, List.isEmpty_iff]
  exact ⟨fun h => Identifier.eq_of_parts h, fun h => h ▸ rfl⟩

/-! ## Groups -/

namespace Creator

/-- The classes with an identifier. -/
def membersOf (identify : Class → Identifier) (classes : List Class) (id : Identifier) :
    List Class :=
  classes.filter fun cls => identify cls = id

theorem groups_ascending : Ascending (·.identifier.parts) (groups identify classes) :=
  ascending_collectBy (by intros; rfl) _

theorem groups_concat (cls : Class) : groups identify (classes ++ [cls])
    = if (identify cls).isIgnored then groups identify classes
      else insertBy (·.identifier.parts) mergeGroups ⟨identify cls, [cls]⟩
        (groups identify classes) := by
  simp only [groups, collectBy, List.map_append, List.map_singleton, List.filter_append]
  split
  · rename_i hignored
    rw [List.filter_cons_of_neg (by simpa using hignored), List.filter_nil, List.append_nil]
  · rename_i hignored
    rw [List.filter_cons_of_pos (by simpa using hignored), List.filter_nil, List.foldl_concat]

theorem membersOf_concat (cls : Class) : membersOf identify (classes ++ [cls]) id
    = membersOf identify classes id ++ if identify cls = id then [cls] else [] := by
  rw [membersOf, List.filter_append, membersOf]
  split
  · rename_i heq
    rw [List.filter_cons_of_pos (by simpa using heq), List.filter_nil]
  · rename_i heq
    rw [List.filter_cons_of_neg (by simpa using heq), List.filter_nil]

/-- Under an identifier the groups hold the classes with that identifier, if there are any and they
are not ignored. -/
theorem find?_groups (classes : List Class) (id : Identifier) :
    (groups identify classes).find? (fun group => group.identifier.parts = id.parts)
      = if id.isIgnored = true ∨ membersOf identify classes id = [] then none
        else some ⟨id, membersOf identify classes id⟩ := by
  induction classes using List.reverseRecOn with
  | nil => simp [groups, collectBy, membersOf]
  | append_singleton classes cls ih =>
      rw [groups_concat, membersOf_concat]
      by_cases heq : identify cls = id
      · subst heq
        by_cases hignored : (identify cls).isIgnored = true
        · rw [if_pos hignored, ih]
          simp [hignored]
        · rw [if_neg hignored, find?_insertBy (fun _ => rfl) groups_ascending, ih]
          by_cases hnone : membersOf identify classes (identify cls) = [] <;>
            simp [hignored, hnone, mergeInto, mergeGroups]
      · have hparts : (identify cls).parts ≠ id.parts := fun h => heq (Identifier.eq_of_parts h)
        rw [if_neg heq, List.append_nil, ← ih]
        split
        · rfl
        · rw [find?_insertBy (fun _ => rfl) groups_ascending, if_neg hparts]

theorem mem_groups : group ∈ groups identify classes ↔ group.identifier.isIgnored = false
    ∧ group.classes ≠ [] ∧ group.classes = membersOf identify classes group.identifier := by
  have hfind : group ∈ groups identify classes ↔
      (groups identify classes).find? (fun g => g.identifier.parts = group.identifier.parts)
        = some group := by
    rw [groups_ascending.find?_eq_some, and_iff_left rfl]
  rw [hfind, find?_groups]
  constructor
  · intro h
    split at h
    · cases h
    · rename_i hnot
      obtain ⟨hignored, hnone⟩ := not_or.mp hnot
      have hclasses := congrArg Group.classes (Option.some.inj h)
      exact ⟨by simpa using hignored, hclasses ▸ hnone, hclasses.symm⟩
  · rintro ⟨hignored, hne, hclasses⟩
    rw [if_neg (by simp [hignored, ← hclasses, hne]), ← hclasses]

theorem exists_class_of_group (h : group ∈ groups identify classes) :
    ∃ cls ∈ classes, identify cls = group.identifier ∧ identify cls ≠ .ignore := by
  obtain ⟨hkept, hne, hclasses⟩ := mem_groups.mp h
  obtain ⟨cls, hcls⟩ := List.exists_mem_of_ne_nil _ hne
  rw [hclasses, membersOf, List.mem_filter, decide_eq_true_eq] at hcls
  obtain ⟨hmem, hid⟩ := hcls
  refine ⟨cls, hmem, hid, fun hignored => ?_⟩
  rw [← hid, Identifier.isIgnored_iff.mpr hignored] at hkept
  cases hkept

/-- The identifiers of groups are those of classes that are not ignored. -/
theorem exists_group_iff : (∃ group ∈ groups identify classes, group.identifier = id) ↔
    id ≠ .ignore ∧ ∃ cls ∈ classes, identify cls = id := by
  constructor
  · rintro ⟨group, hgroup, rfl⟩
    obtain ⟨cls, hcls, hid, hkept⟩ := exists_class_of_group hgroup
    exact ⟨hid ▸ hkept, cls, hcls, hid⟩
  · rintro ⟨hkept, cls, hcls, rfl⟩
    have hignored : (identify cls).isIgnored = false := by
      rw [← Bool.not_eq_true, Identifier.isIgnored_iff]
      exact hkept
    have hmember : cls ∈ membersOf identify classes (identify cls) :=
      List.mem_filter.mpr ⟨hcls, decide_eq_true rfl⟩
    exact ⟨⟨_, _⟩, mem_groups.mpr ⟨hignored, List.ne_nil_of_mem hmember, rfl⟩, rfl⟩

/-! ## What a creator makes -/

section Effects

variable {m : Type → Type} [Monad m] [LawfulMonad m] [MonadAttach m] [LawfulMonadAttach m]

/-- What describing a group and others can give. -/
theorem describeAll_cons {describe : Describer m} {group : Group} {rest : List Group}
    {result : Except ModuleError (List Module)}
    (h : MonadAttach.CanReturn (describeAll describe (group :: rest)) result) :
    (∃ e, MonadAttach.CanReturn (describe group) (.error e) ∧ result = .error e)
      ∨ ∃ description, MonadAttach.CanReturn (describe group) (.ok description)
        ∧ (description.name = "" ∧ result = .error (.emptyName group.identifier)
          ∨ description.name ≠ "" ∧ ∃ others,
            MonadAttach.CanReturn (describeAll describe rest) others
              ∧ result = others.map (⟨group, description⟩ :: ·)) := by
  obtain ⟨described, hdescribed, h⟩ := LawfulMonadAttach.canReturn_bind_imp' h
  cases described with
  | error e => exact .inl ⟨e, hdescribed, (LawfulMonadAttach.eq_of_canReturn_pure h).symm⟩
  | ok description =>
      refine .inr ⟨description, hdescribed, ?_⟩
      simp only at h
      split at h
      · rename_i hname
        exact .inl ⟨hname, (LawfulMonadAttach.eq_of_canReturn_pure h).symm⟩
      · rename_i hname
        obtain ⟨others, hrest, h⟩ := LawfulMonadAttach.canReturn_bind_imp' h
        exact .inr ⟨hname, others, hrest, (LawfulMonadAttach.eq_of_canReturn_pure h).symm⟩

/-- The description of groups keeps the groups and their order. -/
theorem describeAll_groups {describe : Describer m} {groups : List Group} {modules : List Module}
    (h : MonadAttach.CanReturn (describeAll describe groups) (.ok modules)) :
    modules.map Module.group = groups := by
  induction groups generalizing modules with
  | nil =>
      cases LawfulMonadAttach.eq_of_canReturn_pure h
      rfl
  | cons group rest ih =>
      obtain ⟨e, -, h⟩ | ⟨description, -, ⟨-, h⟩ | ⟨-, others, hrest, h⟩⟩ := describeAll_cons h
      · cases h
      · cases h
      · cases others with
        | error e => cases h
        | ok others =>
            cases h
            rw [List.map_cons, ih hrest]

end Effects

end Creator

/-- The modules are the groups of the snapshot's classes, and the dependencies are those computed
from them. -/
structure ModuleGraph.Partitioned (graph : ModuleGraph) (identify : Class → Identifier) : Prop where
  groups : graph.modules.map Module.group = Creator.groups identify graph.snapshot.classes
  dependencies : graph.dependencies
    = (graph.modules.zipIdx.map (dependenciesOf graph.snapshot graph.modules)).flatten

theorem ModuleGraph.assemble_ok {settings : AggregationSettings} {snapshot : Snapshot}
    {modules : List Module} {graph : ModuleGraph}
    (h : assemble settings snapshot modules = .ok graph) :
    graph = ⟨snapshot, modules, (modules.zipIdx.map (dependenciesOf snapshot modules)).flatten⟩ := by
  unfold assemble at h
  split at h
  · cases h
  · rw [AggregationSettings.mapModules_eq_map] at h
    exact (Except.ok.inj h).symm

/-- What a creator makes of a snapshot is assembled from the groups of its classes by the identifiers
that its association gives, once prepared for the snapshot. -/
theorem Creator.modularize_assembles {m : Type → Type} [Monad m] [LawfulMonad m] [MonadAttach m]
    [LawfulMonadAttach m] {creator : Creator m} {roots registered : RootNamespaces}
    {snapshot : Snapshot} {graph : ModuleGraph}
    (h : MonadAttach.CanReturn (creator.modularize roots snapshot) (.ok graph, registered)) :
    ∃ modules, modules.map Module.group
        = groups (creator.association.identify registered) snapshot.classes
      ∧ ModuleGraph.assemble creator.aggregation snapshot modules = .ok graph := by
  obtain ⟨⟨prepared, registered'⟩, -, h⟩ := LawfulMonadAttach.canReturn_bind_imp' h
  cases prepared with
  | error e => cases LawfulMonadAttach.eq_of_canReturn_pure h
  | ok _ =>
      obtain ⟨described, hdescribed, h⟩ := LawfulMonadAttach.canReturn_bind_imp' h
      have heq := LawfulMonadAttach.eq_of_canReturn_pure h
      obtain ⟨hassembled, rfl⟩ := Prod.mk.inj heq
      cases described with
      | error e => cases hassembled
      | ok modules => exact ⟨modules, describeAll_groups hdescribed, hassembled⟩

/-- Whatever a creator makes of a snapshot is partitioned by the identifiers that its association
gives, once prepared for the snapshot. Asking for roots and describing groups may have effects. -/
theorem Creator.modularize_partitioned {m : Type → Type} [Monad m] [LawfulMonad m] [MonadAttach m]
    [LawfulMonadAttach m] {creator : Creator m} {roots registered : RootNamespaces}
    {snapshot : Snapshot} {graph : ModuleGraph}
    (h : MonadAttach.CanReturn (creator.modularize roots snapshot) (.ok graph, registered)) :
    graph.snapshot = snapshot ∧ graph.Partitioned (creator.association.identify registered) := by
  obtain ⟨modules, hgroups, hassembled⟩ := modularize_assembles h
  rw [ModuleGraph.assemble_ok hassembled]
  exact ⟨rfl, hgroups, rfl⟩

theorem Creator.modularize_ok {creator : Creator Id} {roots : RootNamespaces} {snapshot : Snapshot}
    {graph : ModuleGraph} (h : (creator.modularize roots snapshot).run.1 = .ok graph) :
    graph.snapshot = snapshot ∧
      graph.Partitioned
        (creator.association.identify (creator.modularize roots snapshot).run.2) :=
  modularize_partitioned (m := Id) (Prod.ext h rfl)

/-! ## Consequences -/

namespace ModuleGraph.Partitioned

variable {graph : ModuleGraph} {A B : Module} {name : ClassName}

theorem modules_ascending (h : graph.Partitioned identify) :
    Ascending (·.identifier.parts) graph.modules := by
  have hgroups : Ascending (·.identifier.parts) (graph.modules.map Module.group) :=
    h.groups ▸ Creator.groups_ascending
  rw [Ascending, List.pairwise_map] at hgroups
  exact hgroups

theorem modules_nodup (h : graph.Partitioned identify) : graph.modules.Nodup :=
  h.modules_ascending.nodup

theorem identifiers_nodup (h : graph.Partitioned identify) :
    (graph.modules.map Module.identifier).Nodup := by
  refine List.Nodup.of_map Identifier.parts ?_
  rw [List.map_map]
  exact h.modules_ascending.nodup_keys

theorem eq_of_identifier (h : graph.Partitioned identify) (hA : A ∈ graph.modules)
    (hB : B ∈ graph.modules) (heq : A.identifier = B.identifier) : A = B :=
  h.modules_ascending.eq_of_key_eq hA hB (congrArg Identifier.parts heq)

theorem group_mem (h : graph.Partitioned identify) (hA : A ∈ graph.modules) :
    A.group ∈ Creator.groups identify graph.snapshot.classes :=
  h.groups ▸ List.mem_map_of_mem hA

/-- The classes of a module are those with its identifier. -/
theorem classes_eq (h : graph.Partitioned identify) (hA : A ∈ graph.modules) :
    A.classes = Creator.membersOf identify graph.snapshot.classes A.identifier :=
  (Creator.mem_groups.mp (h.group_mem hA)).2.2

theorem mem_classes {cls : Class} (h : graph.Partitioned identify) (hA : A ∈ graph.modules) :
    cls ∈ A.classes ↔ cls ∈ graph.snapshot.classes ∧ identify cls = A.identifier := by
  rw [h.classes_eq hA, Creator.membersOf, List.mem_filter, decide_eq_true_eq]

/-- A class name belongs to a module iff it names a class with the module's identifier. -/
theorem contains_iff (h : graph.Partitioned identify) (hA : A ∈ graph.modules) :
    A.contains name = true ↔
      ∃ cls ∈ graph.snapshot.classes, cls.name = name ∧ identify cls = A.identifier := by
  rw [Module.contains, List.any_eq_true]
  simp only [h.mem_classes hA, decide_eq_true_eq]
  constructor
  · rintro ⟨cls, ⟨hcls, hid⟩, hname⟩
    exact ⟨cls, hcls, hname, hid⟩
  · rintro ⟨cls, hcls, hname, hid⟩
    exact ⟨cls, ⟨hcls, hid⟩, hname⟩

/-- No class name belongs to two modules. -/
theorem disjoint (h : graph.Partitioned identify) (hA : A ∈ graph.modules) (hB : B ∈ graph.modules)
    (hname : A.contains name = true) (hname' : B.contains name = true) : A = B := by
  obtain ⟨cls, hcls, hcname, hid⟩ := (h.contains_iff hA).mp hname
  obtain ⟨cls', hcls', hcname', hid'⟩ := (h.contains_iff hB).mp hname'
  have hsame : cls = cls' := graph.snapshot.classes_ascending.eq_of_key_eq hcls hcls'
    (congrArg ClassName.text (hcname.trans hcname'.symm))
  exact h.eq_of_identifier hA hB (hid.symm.trans ((congrArg identify hsame).trans hid'))

end ModuleGraph.Partitioned

/-! ## A snapshot with two modules -/

theorem exists_eq_ok {ε α : Type} {result : Except ε α} (h : result.toOption.isSome = true) :
    ∃ a, result = .ok a := by
  cases result with
  | error e => cases h
  | ok a => exact ⟨a, rfl⟩

namespace TwoModules

def a : ClassName := ⟨"a", by decide +kernel⟩
def b : ClassName := ⟨"b", by decide +kernel⟩
def c : ClassName := ⟨"c", by decide +kernel⟩
def stray : ClassName := ⟨"stray", by decide +kernel⟩

def left : Identifier := ⟨["left"], by decide⟩
def right : Identifier := ⟨["right"], by decide⟩

/-- `a` and `b` depend on each other, `b` on its neighbour `c`, `a` on a class outside, and `stray`,
which no module owns, on `a`. -/
def snapshot : Snapshot where
  classes := [⟨a, []⟩, ⟨b, []⟩, ⟨c, []⟩, ⟨stray, []⟩]
  dependencies := [⟨a, b, "calls"⟩, ⟨a, b, "extends"⟩, ⟨a, ⟨"outside", by decide +kernel⟩, ""⟩,
    ⟨b, a, ""⟩, ⟨b, c, ""⟩, ⟨stray, a, ""⟩]
  classes_ascending := by unfold Ascending; decide +kernel
  dependencies_ascending := by unfold Ascending; decide +kernel
  origins_known := by decide +kernel

def creator : Creator Id where
  association := .assign fun cls =>
    if cls.name = stray then .ignore else if cls.name = a then left else right
  describe := .ofGroup fun group => { name := group.identifier.joined }

theorem modularizes : ∃ graph, (creator.modularize ⟨[]⟩ snapshot).run.1 = .ok graph :=
  exists_eq_ok (by decide +kernel)

end TwoModules

end Archmap
