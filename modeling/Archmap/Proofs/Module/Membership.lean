import Archmap.Proofs.Module.Dependencies

/-!
# Every class in exactly one module

The association decides for each class of the snapshot: one with the mark of ignored classes lies in
no module, any other in the one module with its identifier. Since grouping runs over the classes in
their order, the classes of a module stay ascending by name, and since names are unique, a module can
be asked for a class by name alone.

Nothing is assumed about how groups are described: names may be drawn from a counter or a file. All
statements hold of whatever `Creator.modularize` can return.
-/

namespace Archmap

namespace ModuleGraph.Partitioned

variable {identify : Class → Identifier} {graph : ModuleGraph} {A : Module} {cls : Class}

theorem identifier_ne_ignore (h : graph.Partitioned identify) (hA : A ∈ graph.modules) :
    A.identifier ≠ .ignore := by
  intro hignored
  have hkept : A.identifier.isIgnored = false := (Creator.mem_groups.mp (h.group_mem hA)).1
  rw [Identifier.isIgnored_iff.mpr hignored] at hkept
  cases hkept

theorem classes_ne_nil (h : graph.Partitioned identify) (hA : A ∈ graph.modules) :
    A.classes ≠ [] :=
  (Creator.mem_groups.mp (h.group_mem hA)).2.1

theorem classes_ascending (h : graph.Partitioned identify) (hA : A ∈ graph.modules) :
    Ascending (·.name.text) A.classes := by
  rw [h.classes_eq hA]
  exact graph.snapshot.classes_ascending.filter _

/-- A class that is not ignored has a module with its identifier. -/
theorem exists_owner (h : graph.Partitioned identify) (hcls : cls ∈ graph.snapshot.classes)
    (hkept : identify cls ≠ .ignore) : ∃ A ∈ graph.modules, A.identifier = identify cls := by
  obtain ⟨group, hgroup, hid⟩ := Creator.exists_group_iff.mpr ⟨hkept, cls, hcls, rfl⟩
  rw [← h.groups] at hgroup
  obtain ⟨A, hA, rfl⟩ := List.mem_map.mp hgroup
  exact ⟨A, hA, hid⟩

/-- A class that is not ignored is listed by one module, the one with its identifier. -/
theorem owners_eq_singleton (h : graph.Partitioned identify) (hcls : cls ∈ graph.snapshot.classes)
    (hkept : identify cls ≠ .ignore) :
    ∃ A, graph.modules.filter (cls ∈ ·.classes) = [A] ∧ A.identifier = identify cls := by
  obtain ⟨A, hA, hid⟩ := h.exists_owner hcls hkept
  refine ⟨A, filter_eq_singleton h.modules_nodup hA fun B hB => ?_, hid⟩
  rw [decide_eq_true_eq, h.mem_classes hB]
  constructor
  · rintro ⟨-, hid'⟩
    exact h.eq_of_identifier hB hA (hid'.symm.trans hid.symm)
  · rintro rfl
    exact ⟨hcls, hid.symm⟩

/-- An ignored class is listed by no module. -/
theorem not_mem_classes_of_ignored (h : graph.Partitioned identify) (hA : A ∈ graph.modules)
    (hignored : identify cls = .ignore) : cls ∉ A.classes := by
  intro hcls
  exact h.identifier_ne_ignore hA (((h.mem_classes hA).mp hcls).2.symm.trans hignored)

end ModuleGraph.Partitioned

theorem Module.contains_iff_mem {M : Module} {name : ClassName} :
    M.contains name = true ↔ ∃ cls ∈ M.classes, cls.name = name := by
  simp [Module.contains]

/-- Whatever module graph a creator makes of a snapshot, with whatever effects, its modules ascend
by identifier, none is empty or carries the mark of ignored classes, every class of the snapshot is
listed by exactly the module with its identifier, if it is not ignored, and the classes of a module
ascend by name and are all that it contains, which are the classes with its identifier. -/
theorem modularize_partitions {m : Type → Type} [Monad m] [LawfulMonad m] [MonadAttach m]
    [LawfulMonadAttach m] {creator : Creator m} {roots registered : RootNamespaces}
    {snapshot : Snapshot} {graph : ModuleGraph}
    (h : MonadAttach.CanReturn (creator.modularize roots snapshot) (.ok graph, registered)) :
    Ascending (·.identifier.parts) graph.modules
      ∧ (∀ M ∈ graph.modules, M.classes ≠ [] ∧ M.identifier ≠ .ignore)
      ∧ (∀ cls ∈ snapshot.classes,
          (creator.association.identify registered cls ≠ .ignore →
            ∃ M, graph.modules.filter (cls ∈ ·.classes) = [M]
              ∧ M.identifier = creator.association.identify registered cls)
          ∧ (creator.association.identify registered cls = .ignore →
            ∀ M ∈ graph.modules, cls ∉ M.classes))
      ∧ ∀ M ∈ graph.modules,
          M.classes ⊆ snapshot.classes
          ∧ Ascending (·.name.text) M.classes
          ∧ ∀ name, (M.contains name = true ↔ ∃ cls ∈ M.classes, cls.name = name)
            ∧ (M.contains name = true ↔ ∃ cls ∈ snapshot.classes, cls.name = name
              ∧ creator.association.identify registered cls = M.identifier) := by
  obtain ⟨rfl, hgraph⟩ := Creator.modularize_partitioned h
  refine ⟨hgraph.modules_ascending,
    fun M hM => ⟨hgraph.classes_ne_nil hM, hgraph.identifier_ne_ignore hM⟩,
    fun cls hcls => ⟨hgraph.owners_eq_singleton hcls, fun hignored M hM =>
      hgraph.not_mem_classes_of_ignored hM hignored⟩,
    fun M hM => ⟨fun cls hcls => ((hgraph.mem_classes hM).mp hcls).1,
      hgraph.classes_ascending hM,
      fun name => ⟨Module.contains_iff_mem, hgraph.contains_iff hM⟩⟩⟩

namespace TwoModules

/-- The same two modules, with names drawn from a counter. -/
def numbering : Creator (StateM Nat) where
  association := .assign (creator.association.identify ⟨[]⟩)
  describe := fun _ => do
    let number ← getModify (· + 1)
    return .ok { name := "module " ++ toString number }

theorem numbering_modularizes : ∃ graph,
    MonadAttach.CanReturn (numbering.modularize ⟨[]⟩ snapshot) (.ok graph, ⟨[]⟩)
      ∧ ((numbering.modularize ⟨[]⟩ snapshot).run 0).1 = (.ok graph, ⟨[]⟩) := by
  have hok : ∃ graph, ((numbering.modularize ⟨[]⟩ snapshot).run 0).1.1 = .ok graph :=
    exists_eq_ok (by decide +kernel)
  have hroots : ((numbering.modularize ⟨[]⟩ snapshot).run 0).1.2 = ⟨[]⟩ := by decide +kernel
  obtain ⟨graph, hgraph⟩ := hok
  have hrun : ((numbering.modularize ⟨[]⟩ snapshot).run 0).1 = (.ok graph, ⟨[]⟩) :=
    Prod.ext hgraph hroots
  exact ⟨graph, ⟨0, _, Prod.ext hrun rfl⟩, hrun⟩

end TwoModules

/-- The class `a` is listed by the module `left` alone and `stray` by none. -/
theorem modularize_partitions_numbering : ∃ graph,
    MonadAttach.CanReturn (TwoModules.numbering.modularize ⟨[]⟩ TwoModules.snapshot)
        (.ok graph, ⟨[]⟩)
      ∧ (∃ M, graph.modules.filter (⟨TwoModules.a, []⟩ ∈ ·.classes) = [M]
          ∧ M.identifier = TwoModules.left)
      ∧ ∀ M ∈ graph.modules, ⟨TwoModules.stray, []⟩ ∉ M.classes := by
  obtain ⟨graph, hgraph, -⟩ := TwoModules.numbering_modularizes
  obtain ⟨-, -, hclasses, -⟩ := modularize_partitions hgraph
  have hkept := (hclasses ⟨TwoModules.a, []⟩ (by decide +kernel)).1 (by decide +kernel)
  have hignored := (hclasses ⟨TwoModules.stray, []⟩ (by decide +kernel)).2 (by decide +kernel)
  exact ⟨graph, hgraph, hkept, hignored⟩

end Archmap
