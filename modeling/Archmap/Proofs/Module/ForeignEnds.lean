import Archmap.Proofs.Module.Indices
import Archmap.Proofs.Snapshot.Building

/-!
# Dependencies of other module graphs

A module dependency knows the modules at its ends by position and identifier, and a module graph
finds them by looking at the position and comparing the identifier. So a graph also finds ends of a
dependency that was made for another graph, its *home*: exactly where it has a module with the
identifier and as many modules in front of it as the home has (`Partitioned.originOf?_eq_some`,
`foreignEnds_exact`). Whether the graph has the dependency is not asked. It may be that nothing in
the graph depends on anything (`foreignEnds_found`).

That both ends are found means that the graph has the dependency just where the graph's own
dependency between the two modules would be the same one: where the modules have the same names and
the same class dependencies cross (`Partitioned.mem_dependencies_of_ends`).
-/

namespace Archmap

variable {graph home : ModuleGraph} {identify identify' : Class → Identifier} {A B : Module}
  {D : ModuleDependency}

namespace ModuleGraph

/-- How many modules stand in front of the place of an identifier. -/
def rank (graph : ModuleGraph) (id : Identifier) : Nat :=
  graph.modules.countP (·.identifier.parts < id.parts)

namespace Partitioned

/-! ## Where ends are found -/

theorem getElem?_eq_some (h : graph.Partitioned identify) {i : Nat} :
    graph.modules[i]? = some A ↔ A ∈ graph.modules ∧ graph.rank A.identifier = i :=
  Ascending.getElem?_eq_some h.modules_ascending

theorem idxOf_eq_rank (h : graph.Partitioned identify) (hA : A ∈ graph.modules) :
    graph.modules.idxOf A = graph.rank A.identifier :=
  (h.getElem?_eq_some.mp (getElem?_idxOf hA)).2.symm

/-- A module is found by position and identifier iff so many modules stand in front of its place. -/
theorem filter_getElem?_eq_some (h : graph.Partitioned identify) {i : Nat} {id : Identifier} :
    graph.modules[i]?.filter (·.identifier = id) = some A ↔
      A ∈ graph.modules ∧ A.identifier = id ∧ graph.rank id = i := by
  rw [Option.filter_eq_some_iff, h.getElem?_eq_some, decide_eq_true_eq]
  constructor
  · rintro ⟨⟨hA, hrank⟩, rfl⟩
    exact ⟨hA, rfl, hrank⟩
  · rintro ⟨hA, rfl, hrank⟩
    exact ⟨⟨hA, hrank⟩, rfl⟩

theorem originOf?_eq_some (h : graph.Partitioned identify) : graph.originOf? D = some A ↔
    A ∈ graph.modules ∧ A.identifier = D.origin ∧ graph.rank D.origin = D.originIndex :=
  h.filter_getElem?_eq_some

theorem targetOf?_eq_some (h : graph.Partitioned identify) : graph.targetOf? D = some B ↔
    B ∈ graph.modules ∧ B.identifier = D.target ∧ graph.rank D.target = D.targetIndex :=
  h.filter_getElem?_eq_some

/-- A dependency's positions are those of its ends at home. -/
theorem rank_ends (h : home.Partitioned identify) (hD : D ∈ home.dependencies) :
    D.originIndex = home.rank D.origin ∧ D.targetIndex = home.rank D.target := by
  obtain ⟨A, hA, B, hB, -, -, rfl⟩ := h.mem_dependencies.mp hD
  exact ⟨h.idxOf_eq_rank hA, h.idxOf_eq_rank hB⟩

/-! ## Whose dependency it is -/

/-- Where a graph finds both ends of a dependency, it has the dependency iff it knows the ends by the
same names and just the class dependencies that back it cross between them. -/
theorem mem_dependencies_of_ends (h : graph.Partitioned identify)
    (hhome : home.Partitioned identify') (hD : D ∈ home.dependencies)
    (hA : graph.originOf? D = some A) (hB : graph.targetOf? D = some B) :
    D ∈ graph.dependencies ↔ A.name = D.originName ∧ B.name = D.targetName
      ∧ graph.crossing A B = D.classDependencies := by
  obtain ⟨hmemA, hidA, hrankA⟩ := h.originOf?_eq_some.mp hA
  obtain ⟨hmemB, hidB, hrankB⟩ := h.targetOf?_eq_some.mp hB
  constructor
  · intro hmem
    obtain ⟨A', hA', B', hB', -, -, rfl⟩ := h.mem_dependencies.mp hmem
    cases h.eq_of_identifier hmemA hA' hidA
    cases h.eq_of_identifier hmemB hB' hidB
    exact ⟨rfl, rfl, rfl⟩
  · rintro ⟨hnameA, hnameB, hcrossing⟩
    have hne : A ≠ B := by
      rintro rfl
      exact hhome.ends_ne hD (hidA.symm.trans hidB)
    have hsome : graph.crossing A B ≠ [] := by
      rw [hcrossing]
      exact hhome.classDependencies_ne_nil hD
    refine h.mem_dependencies.mpr ⟨A, hmemA, B, hmemB, hne, hsome, ?_⟩
    rw [between, h.idxOf_eq_rank hmemA, h.idxOf_eq_rank hmemB, hidA, hidB, hrankA, hrankB, hnameA,
      hnameB, hcrossing]

end Partitioned

end ModuleGraph

/-- Of a dependency of one module graph, another finds an end iff it has a module with the
identifier, behind as many others as at home. It finds both ends of its own dependencies. Finding
both ends tells that the dependency is its own only where its modules have the names that the
dependency knows and the class dependencies between them are those that back it. -/
theorem foreignEnds_exact {m n : Type → Type} [Monad m] [LawfulMonad m] [MonadAttach m]
    [LawfulMonadAttach m] [Monad n] [LawfulMonad n] [MonadAttach n] [LawfulMonadAttach n]
    {creator : Creator m} {creator' : Creator n} {roots registered roots' registered' : RootNamespaces}
    {snapshot snapshot' : Snapshot}
    (h : MonadAttach.CanReturn (creator.modularize roots snapshot) (.ok graph, registered))
    (hhome : MonadAttach.CanReturn (creator'.modularize roots' snapshot') (.ok home, registered'))
    (hD : D ∈ home.dependencies) :
    (∀ A, graph.originOf? D = some A ↔ A ∈ graph.modules ∧ A.identifier = D.origin
        ∧ graph.rank D.origin = home.rank D.origin)
      ∧ (∀ B, graph.targetOf? D = some B ↔ B ∈ graph.modules ∧ B.identifier = D.target
        ∧ graph.rank D.target = home.rank D.target)
      ∧ (D ∈ graph.dependencies →
          (graph.originOf? D).isSome = true ∧ (graph.targetOf? D).isSome = true)
      ∧ (((graph.originOf? D).isSome = true ∧ (graph.targetOf? D).isSome = true ↔
            D ∈ graph.dependencies) ↔
          ∀ A B, graph.originOf? D = some A → graph.targetOf? D = some B →
            A.name = D.originName ∧ B.name = D.targetName
              ∧ graph.crossing A B = D.classDependencies) := by
  obtain ⟨-, hgraph⟩ := Creator.modularize_partitioned h
  obtain ⟨-, hhome⟩ := Creator.modularize_partitioned hhome
  obtain ⟨horigin, htarget⟩ := hhome.rank_ends hD
  have hown : D ∈ graph.dependencies →
      (graph.originOf? D).isSome = true ∧ (graph.targetOf? D).isSome = true := by
    intro hmem
    obtain ⟨A, -, -, hA⟩ := hgraph.originOf?_eq hmem
    obtain ⟨B, -, -, hB⟩ := hgraph.targetOf?_eq hmem
    simp [hA, hB]
  refine ⟨fun A => horigin ▸ hgraph.originOf?_eq_some,
    fun B => htarget ▸ hgraph.targetOf?_eq_some, hown, ?_⟩
  constructor
  · intro hiff A B hA hB
    have hmem : D ∈ graph.dependencies := hiff.mp (by simp [hA, hB])
    exact (hgraph.mem_dependencies_of_ends hhome hD hA hB).mp hmem
  · intro hsame
    refine ⟨?_, hown⟩
    rintro ⟨hA, hB⟩
    obtain ⟨A, hA⟩ := Option.isSome_iff_exists.mp hA
    obtain ⟨B, hB⟩ := Option.isSome_iff_exists.mp hB
    exact (hgraph.mem_dependencies_of_ends hhome hD hA hB).mpr (hsame A B hA hB)

namespace TwoModules

/-- The same classes, none of which depends on another. -/
def idle : Snapshot := .ofClasses snapshot.classes snapshot.classes_ascending

/-- What is found of the ends of the dependencies in the module graph of the idle classes, which has
none itself. -/
theorem idle_finds : ∃ graph home,
    (creator.modularize ⟨[]⟩ idle).run = (.ok graph, ⟨[]⟩)
      ∧ (creator.modularize ⟨[]⟩ snapshot).run = (.ok home, ⟨[]⟩)
      ∧ graph.dependencies = []
      ∧ (home.dependencies.map fun D =>
          ((graph.originOf? D).map Module.identifier, (graph.targetOf? D).map Module.identifier))
        = [(some left, some right), (some right, some left)] := by
  obtain ⟨graph, hgraph⟩ : ∃ graph, (creator.modularize ⟨[]⟩ idle).run.1 = .ok graph :=
    exists_eq_ok (by decide +kernel)
  obtain ⟨home, hhome⟩ := modularizes
  have hroots : (creator.modularize ⟨[]⟩ idle).run.2 = ⟨[]⟩ := by decide +kernel
  have hroots' : (creator.modularize ⟨[]⟩ snapshot).run.2 = ⟨[]⟩ := by decide +kernel
  have hfound : ((creator.modularize ⟨[]⟩ idle).run.1.toOption.bind fun graph =>
      (creator.modularize ⟨[]⟩ snapshot).run.1.toOption.map fun home =>
        (graph.dependencies, home.dependencies.map fun D =>
          ((graph.originOf? D).map Module.identifier, (graph.targetOf? D).map Module.identifier)))
      = some ([], [(some left, some right), (some right, some left)]) := by
    decide +kernel
  rw [hgraph, hhome] at hfound
  obtain ⟨hnone, hends⟩ := Prod.mk.inj (Option.some.inj hfound)
  exact ⟨graph, home, Prod.ext hgraph hroots, Prod.ext hhome hroots', hnone, hends⟩

end TwoModules

/-- The idle graph has the origin of another graph's dependency at the place that it has there. -/
theorem foreignEnds_exact_idle : ∃ graph home D A,
    (TwoModules.creator.modularize ⟨[]⟩ TwoModules.idle).run = (.ok graph, ⟨[]⟩)
      ∧ (TwoModules.creator.modularize ⟨[]⟩ TwoModules.snapshot).run = (.ok home, ⟨[]⟩)
      ∧ D ∈ home.dependencies
      ∧ graph.originOf? D = some A
      ∧ A ∈ graph.modules ∧ A.identifier = D.origin ∧ graph.rank D.origin = home.rank D.origin := by
  obtain ⟨graph, home, hgraph, hhome, -, hends⟩ := TwoModules.idle_finds
  obtain ⟨D, rest, hcons, hends, -⟩ := List.map_eq_cons_iff.mp hends
  have hD : D ∈ home.dependencies := hcons ▸ List.mem_cons_self
  obtain ⟨A, hA, -⟩ := Option.map_eq_some_iff.mp (Prod.mk.inj hends).1
  have hexact := foreignEnds_exact (m := Id) (n := Id) hgraph hhome hD
  exact ⟨graph, home, D, A, hgraph, hhome, hD, hA, (hexact.1 A).mp hA⟩

/-- A graph without any dependency finds both ends of one that another graph has. -/
theorem foreignEnds_found : ∃ graph home D,
    (TwoModules.creator.modularize ⟨[]⟩ TwoModules.idle).run = (.ok graph, ⟨[]⟩)
      ∧ (TwoModules.creator.modularize ⟨[]⟩ TwoModules.snapshot).run = (.ok home, ⟨[]⟩)
      ∧ D ∈ home.dependencies ∧ D ∉ graph.dependencies
      ∧ (graph.originOf? D).isSome = true ∧ (graph.targetOf? D).isSome = true := by
  obtain ⟨graph, home, hgraph, hhome, hnone, hends⟩ := TwoModules.idle_finds
  obtain ⟨D, rest, hcons, hends, -⟩ := List.map_eq_cons_iff.mp hends
  have hD : D ∈ home.dependencies := hcons ▸ List.mem_cons_self
  obtain ⟨A, hA, -⟩ := Option.map_eq_some_iff.mp (Prod.mk.inj hends).1
  obtain ⟨B, hB, -⟩ := Option.map_eq_some_iff.mp (Prod.mk.inj hends).2
  refine ⟨graph, home, D, hgraph, hhome, hD, ?_, ?_, ?_⟩
  · rw [hnone]
    exact List.not_mem_nil
  · rw [hA, Option.isSome_some]
  · rw [hB, Option.isSome_some]

end Archmap
