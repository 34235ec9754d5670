import Archmap.Proofs.Module.Membership
import Archmap.Proofs.Rows

/-!
# Indices of module dependencies

A module dependency knows its two modules by position and by identifier. Both lead to the same
module (`originOf?_eq`, `targetOf?_eq`), because modules are listed in the order of their positions
and no two have one identifier.

So the dependencies of one module can be found in two ways. One selects by identifier from the list
of all. The other puts each dependency, as it is found, into the row of its origin and into the row
of its target, and hands the rows to the modules in order (`rowsBy`). The two agree
(`rowsBy_origin`, `rowsBy_target`): no row is skipped for a module without dependencies, and no
dependency drifts into the row of another module.
-/

namespace Archmap

namespace ModuleGraph.Partitioned

variable {identify : Class → Identifier} {graph : ModuleGraph} {A B : Module} {D : ModuleDependency}
  {id : Identifier}

/-! ## Lookup by identifier and by position -/

theorem get?_eq_some (h : graph.Partitioned identify) :
    graph.get? id = some A ↔ A ∈ graph.modules ∧ A.identifier = id :=
  find?_key_eq_some h.identifiers_nodup

theorem getElem?_idxOf (hA : A ∈ graph.modules) :
    graph.modules[graph.modules.idxOf A]? = some A := by
  rw [List.getElem?_eq_getElem (List.idxOf_lt_length_of_mem hA), List.getElem_idxOf]

/-- At the position of a module is one with its identifier. -/
theorem found_at_idxOf (hA : A ∈ graph.modules) :
    graph.modules[graph.modules.idxOf A]?.filter (·.identifier = A.identifier) = some A := by
  rw [getElem?_idxOf hA, Option.filter_some, if_pos (decide_eq_true rfl)]

/-- The module at the position of a dependency's origin is the one with the origin's identifier. -/
theorem originOf?_eq (h : graph.Partitioned identify) (hD : D ∈ graph.dependencies) :
    ∃ A ∈ graph.modules, A.identifier = D.origin ∧ graph.originOf? D = some A := by
  obtain ⟨A, hA, B, -, -, -, rfl⟩ := h.mem_dependencies.mp hD
  exact ⟨A, hA, rfl, found_at_idxOf hA⟩

theorem targetOf?_eq (h : graph.Partitioned identify) (hD : D ∈ graph.dependencies) :
    ∃ B ∈ graph.modules, B.identifier = D.target ∧ graph.targetOf? D = some B := by
  obtain ⟨A, -, B, hB, -, -, rfl⟩ := h.mem_dependencies.mp hD
  exact ⟨B, hB, rfl, found_at_idxOf hB⟩

/-! ## Rows and sublists -/

/-- Rows by the position of one end are sublists by the identifier of that end. -/
theorem rowsBy_end (h : graph.Partitioned identify) {index : ModuleDependency → Nat}
    {identifier : ModuleDependency → Identifier}
    (hend : ∀ D ∈ graph.dependencies, ∃ A ∈ graph.modules,
      index D = graph.modules.idxOf A ∧ identifier D = A.identifier) :
    rowsBy index graph.modules.length graph.dependencies
      = graph.modules.map fun M => graph.dependencies.filter (identifier · = M.identifier) := by
  rw [rowsBy_eq]
  refine List.ext_getElem (by simp) fun i hi hi' => ?_
  rw [List.length_map] at hi'
  simp only [List.getElem_map, List.getElem_range]
  refine List.filter_congr fun D hD => ?_
  obtain ⟨A, hA, hindex, hidentifier⟩ := hend D hD
  rw [hindex, hidentifier, decide_eq_decide]
  constructor
  · rintro rfl
    rw [List.getElem_idxOf]
  · intro hid
    rw [h.eq_of_identifier hA (List.getElem_mem hi') hid]
    exact h.modules_nodup.idxOf_getElem i hi'

theorem rowsBy_origin (h : graph.Partitioned identify) :
    rowsBy (·.originIndex) graph.modules.length graph.dependencies
      = graph.modules.map graph.dependenciesFrom := by
  refine h.rowsBy_end fun D hD => ?_
  obtain ⟨A, hA, _, _, _, _, rfl⟩ := h.mem_dependencies.mp hD
  exact ⟨A, hA, rfl, rfl⟩

theorem rowsBy_target (h : graph.Partitioned identify) :
    rowsBy (·.targetIndex) graph.modules.length graph.dependencies
      = graph.modules.map graph.dependenciesTo := by
  refine h.rowsBy_end fun D hD => ?_
  obtain ⟨_, _, B, hB, _, _, rfl⟩ := h.mem_dependencies.mp hD
  exact ⟨B, hB, rfl, rfl⟩

/-! ## Which modules depend on each other -/

theorem ends_ne (h : graph.Partitioned identify) (hD : D ∈ graph.dependencies) :
    D.origin ≠ D.target := by
  obtain ⟨A, hA, B, hB, hne, -, rfl⟩ := h.mem_dependencies.mp hD
  exact fun hid => hne (h.eq_of_identifier hA hB hid)

theorem classDependencies_ne_nil (h : graph.Partitioned identify) (hD : D ∈ graph.dependencies) :
    D.classDependencies ≠ [] := by
  obtain ⟨A, -, B, -, -, hsome, rfl⟩ := h.mem_dependencies.mp hD
  exact hsome

/-- A module depends on another iff some class of the first depends on some class of the second. -/
theorem exists_dependency_iff (h : graph.Partitioned identify) (hA : A ∈ graph.modules)
    (hB : B ∈ graph.modules) :
    (∃ D ∈ graph.dependencies, D.origin = A.identifier ∧ D.target = B.identifier) ↔
      A ≠ B ∧ ∃ d ∈ graph.snapshot.dependencies,
        (∃ a ∈ A.classes, a.name = d.origin) ∧ ∃ b ∈ B.classes, b.name = d.target := by
  simp only [← Module.contains_iff_mem]
  constructor
  · rintro ⟨D, hD, horigin, htarget⟩
    obtain ⟨A', hA', B', hB', hne, hsome, rfl⟩ := h.mem_dependencies.mp hD
    cases h.eq_of_identifier hA' hA horigin
    cases h.eq_of_identifier hB' hB htarget
    obtain ⟨d, hd⟩ := List.exists_mem_of_ne_nil _ hsome
    exact ⟨hne, d, mem_crossing.mp hd⟩
  · rintro ⟨hne, d, hd⟩
    have hsome : graph.crossing A B ≠ [] := List.ne_nil_of_mem (mem_crossing.mpr hd)
    exact ⟨graph.between A B, h.mem_dependencies.mpr ⟨A, hA, B, hB, hne, hsome, rfl⟩, rfl, rfl⟩

end ModuleGraph.Partitioned

/-- In whatever module graph a creator makes of a snapshot, the module dependencies ascend by origin
and target, each has two different ends and is backed by some class dependency, there is one between
two modules iff a class of the first depends on a class of the second, those of one module are the
sublists of all with that origin or target, which are also the rows that arise when each is put in
its place by position, and the ends of each are the modules that its identifiers lead to. -/
theorem moduleDependencies_indexed {m : Type → Type} [Monad m] [LawfulMonad m] [MonadAttach m]
    [LawfulMonadAttach m] {creator : Creator m} {roots registered : RootNamespaces}
    {snapshot : Snapshot} {graph : ModuleGraph}
    (h : MonadAttach.CanReturn (creator.modularize roots snapshot) (.ok graph, registered)) :
    Ascending (fun D => [D.origin.parts, D.target.parts]) graph.dependencies
      ∧ (∀ D ∈ graph.dependencies, D.origin ≠ D.target ∧ D.classDependencies ≠ [])
      ∧ (∀ A ∈ graph.modules, ∀ B ∈ graph.modules,
          (∃ D ∈ graph.dependencies, D.origin = A.identifier ∧ D.target = B.identifier) ↔
            A ≠ B ∧ ∃ d ∈ snapshot.dependencies,
              (∃ a ∈ A.classes, a.name = d.origin) ∧ ∃ b ∈ B.classes, b.name = d.target)
      ∧ (∀ M ∈ graph.modules,
          graph.dependenciesFrom M = graph.dependencies.filter (·.origin = M.identifier)
          ∧ graph.dependenciesTo M = graph.dependencies.filter (·.target = M.identifier))
      ∧ graph.modules.map graph.dependenciesFrom
          = rowsBy (·.originIndex) graph.modules.length graph.dependencies
      ∧ graph.modules.map graph.dependenciesTo
          = rowsBy (·.targetIndex) graph.modules.length graph.dependencies
      ∧ ∀ D ∈ graph.dependencies, ∃ A ∈ graph.modules, ∃ B ∈ graph.modules,
          (graph.get? D.origin = some A ∧ graph.originOf? D = some A)
          ∧ (graph.get? D.target = some B ∧ graph.targetOf? D = some B) := by
  obtain ⟨rfl, hgraph⟩ := Creator.modularize_partitioned h
  refine ⟨hgraph.dependencies_ascending,
    fun D hD => ⟨hgraph.ends_ne hD, hgraph.classDependencies_ne_nil hD⟩,
    fun A hA B hB => hgraph.exists_dependency_iff hA hB, fun M _ => ⟨rfl, rfl⟩,
    hgraph.rowsBy_origin.symm, hgraph.rowsBy_target.symm, fun D hD => ?_⟩
  obtain ⟨A, hA, horigin, hfound⟩ := hgraph.originOf?_eq hD
  obtain ⟨B, hB, htarget, hfound'⟩ := hgraph.targetOf?_eq hD
  exact ⟨A, hA, B, hB, ⟨hgraph.get?_eq_some.mpr ⟨hA, horigin⟩, hfound⟩,
    hgraph.get?_eq_some.mpr ⟨hB, htarget⟩, hfound'⟩

/-- Two modules that depend on each other. -/
theorem moduleDependencies_indexed_numbering : ∃ graph,
    MonadAttach.CanReturn (TwoModules.numbering.modularize ⟨[]⟩ TwoModules.snapshot)
        (.ok graph, ⟨[]⟩)
      ∧ (graph.dependencies.map fun D => (D.origin, D.target))
          = [(TwoModules.left, TwoModules.right), (TwoModules.right, TwoModules.left)]
      ∧ graph.modules.map graph.dependenciesTo
          = rowsBy (·.targetIndex) graph.modules.length graph.dependencies := by
  obtain ⟨graph, hgraph, hrun⟩ := TwoModules.numbering_modularizes
  have hends : ((TwoModules.numbering.modularize ⟨[]⟩ TwoModules.snapshot).run 0).1.1.toOption.map
      (fun graph => graph.dependencies.map fun D => (D.origin, D.target))
        = some [(TwoModules.left, TwoModules.right), (TwoModules.right, TwoModules.left)] := by
    decide +kernel
  rw [hrun] at hends
  obtain ⟨-, -, -, -, -, hrows, -⟩ := moduleDependencies_indexed hgraph
  exact ⟨graph, hgraph, Option.some.inj hends, hrows⟩

end Archmap
