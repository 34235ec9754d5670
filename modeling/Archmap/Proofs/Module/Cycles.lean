import Archmap.Proofs.Digraph.Enumeration
import Archmap.Proofs.Module.Indices

/-!
# Cycles between modules

The graph in which cycles between modules are searched is grown from the modules and their
dependencies. Its edges are the dependencies: there is one between two modules iff a class dependency
crosses, and it carries all that do (`edge?_dependencyGraph`). So what is known about the cycles of
graphs says when modules are free of cycles, and what backs each hop of a cycle.
-/

namespace Archmap

namespace ModuleGraph

/-- Some module dependency leads from one identifier to the other. -/
def DependsOn (graph : ModuleGraph) (a b : Identifier) : Prop :=
  ∃ D ∈ graph.dependencies, D.origin = a ∧ D.target = b

variable {identify : Class → Identifier} {graph : ModuleGraph} {A B : Module} {a b : Identifier}
  {edge : Edge Identifier Dependency}

/-! ## The graph of dependencies -/

/-- What is added to the graph of dependencies: all modules, then all dependencies. -/
def additions (graph : ModuleGraph) : List (Addition Identifier Dependency) :=
  graph.modules.map (fun M => .node M.identifier)
    ++ graph.dependencies.map fun D => .edge ⟨D.origin, D.target, D.classDependencies⟩

theorem dependencyGraph_eq_built : graph.dependencyGraph = Graph.built graph.additions := by
  rw [Graph.built, additions, List.foldl_append, List.foldl_map, List.foldl_map]
  rfl

theorem addedBetween_additions : addedBetween graph.additions a b
    = (graph.dependencies.filter fun D => D.origin = a ∧ D.target = b).map
        fun D => ⟨D.origin, D.target, D.classDependencies⟩ := by
  have hnodes : (graph.modules.map fun M => (Addition.node M.identifier :
      Addition Identifier Dependency)).flatMap Addition.edges = [] := by
    simp [List.flatMap_map, Addition.edges]
  have hedges : (graph.dependencies.map fun D => Addition.edge
      ⟨D.origin, D.target, D.classDependencies⟩).flatMap Addition.edges
      = graph.dependencies.map fun D => ⟨D.origin, D.target, D.classDependencies⟩ := by
    rw [List.flatMap_map]
    exact List.map_eq_flatMap.symm
  rw [addedBetween, additions, List.flatMap_append, hnodes, hedges, List.nil_append,
    List.filter_map]
  rfl

theorem edge?_eq_of_additions : graph.dependencyGraph.edge? a b
    = if addedBetween graph.additions a b = [] then none
      else some ⟨a, b, (addedBetween graph.additions a b).flatMap Edge.attachments⟩ := by
  rw [dependencyGraph_eq_built, edge?_built]

theorem isSome_edge?_dependencyGraph :
    (graph.dependencyGraph.edge? a b).isSome = true ↔ graph.DependsOn a b := by
  have hadded : addedBetween graph.additions a b ≠ [] ↔ graph.DependsOn a b := by
    rw [addedBetween_additions, Ne, List.map_eq_nil_iff, List.filter_eq_nil_iff]
    simp [DependsOn]
  rw [← hadded, edge?_eq_of_additions]
  split <;> simp_all

namespace Partitioned

/-- An edge of the graph of dependencies leads from one module to another and carries all class
dependencies that cross. -/
theorem edge?_dependencyGraph (h : graph.Partitioned identify)
    (hedge : graph.dependencyGraph.edge? a b = some edge) :
    ∃ A ∈ graph.modules, ∃ B ∈ graph.modules, A ≠ B ∧ graph.crossing A B ≠ []
      ∧ edge = ⟨A.identifier, B.identifier, graph.crossing A B⟩ := by
  obtain ⟨D, hD, horigin, htarget⟩ : graph.DependsOn a b :=
    isSome_edge?_dependencyGraph.mp (by rw [hedge]; rfl)
  have honly : (graph.dependencies.filter fun D => D.origin = a ∧ D.target = b) = [D] := by
    refine filter_eq_singleton h.dependencies_nodup hD fun D' hD' => ?_
    rw [decide_eq_true_eq]
    constructor
    · rintro ⟨horigin', htarget'⟩
      exact h.dependencies_ascending.eq_of_key_eq hD' hD
        (by rw [horigin', htarget', horigin, htarget])
    · rintro rfl
      exact ⟨horigin, htarget⟩
  obtain ⟨A, hA, B, hB, hne, hsome, rfl⟩ := h.mem_dependencies.mp hD
  refine ⟨A, hA, B, hB, hne, hsome, ?_⟩
  rw [edge?_eq_of_additions, addedBetween_additions, honly, if_neg (by simp)] at hedge
  rw [← Option.some.inj hedge, ← horigin, ← htarget]
  simp [between]

theorem dependsOn_irrefl (h : graph.Partitioned identify) (a : Identifier) :
    ¬graph.DependsOn a a := by
  rintro ⟨D, hD, horigin, htarget⟩
  exact h.ends_ne hD (horigin.trans htarget.symm)

/-- The modules are free of cycles iff none depends on itself through others. -/
theorem allCycles_eq_nil_iff (h : graph.Partitioned identify) :
    graph.dependencyGraph.allCycles = [] ↔
      ∀ M ∈ graph.modules, ¬Relation.TransGen graph.DependsOn M.identifier M.identifier := by
  have hsame : (fun a b => (graph.dependencyGraph.edge? a b).isSome = true) = graph.DependsOn :=
    funext fun a => funext fun b => propext isSome_edge?_dependencyGraph
  have hloop : ∀ a, ¬(graph.dependencyGraph.edge? a a).isSome = true := by
    intro a hsome
    exact h.dependsOn_irrefl a (isSome_edge?_dependencyGraph.mp hsome)
  rw [Graph.allCycles_eq_nil_iff hloop, hsame]
  constructor
  · exact fun hacyclic M _ => hacyclic M.identifier
  · intro hacyclic a hcycle
    obtain ⟨_, ⟨D, hD, rfl, -⟩, -⟩ := Relation.TransGen.head'_iff.mp hcycle
    obtain ⟨A, hA, _, _, _, _, rfl⟩ := h.mem_dependencies.mp hD
    exact hacyclic A hA hcycle

end Partitioned

end ModuleGraph

/-- In whatever module graph a creator makes of a snapshot, with whatever effects, a search that may
report a cycle reports none iff no module depends on itself through others, and every hop of a cycle
carries exactly the class dependencies from its origin into its target, in order. -/
theorem moduleCycles_exact {m : Type → Type} [Monad m] [LawfulMonad m] [MonadAttach m]
    [LawfulMonadAttach m] {creator : Creator m} {roots registered : RootNamespaces}
    {snapshot : Snapshot} {graph : ModuleGraph}
    (h : MonadAttach.CanReturn (creator.modularize roots snapshot) (.ok graph, registered))
    {split : Splitter} (hsplit : split.Lawful) {settings : CycleSettings}
    (hmax : 1 ≤ settings.maxNumberToDetect) :
    ((graph.cyclesBy split settings).cycles = [] ↔
        ∀ M ∈ graph.modules, ¬Relation.TransGen graph.DependsOn M.identifier M.identifier)
      ∧ ∀ cycle ∈ (graph.cyclesBy split settings).cycles, ∀ edge ∈ cycle.edges,
          ∃ A ∈ graph.modules, ∃ B ∈ graph.modules,
            edge.origin = A.identifier ∧ edge.target = B.identifier
              ∧ edge.attachments ≠ []
              ∧ Ascending Dependency.key edge.attachments
              ∧ edge.attachments = snapshot.dependencies.filter
                  fun d => A.contains d.origin && B.contains d.target := by
  obtain ⟨rfl, hgraph⟩ := Creator.modularize_partitioned h
  have hroom : settings.maxNumberToDetect.toNat ≠ 0 := by
    have hle := UInt64.le_iff_toNat_le.mp hmax
    intro hzero
    rw [hzero] at hle
    cases hle
  rw [ModuleGraph.cyclesBy, Graph.cyclesBy_eq hsplit, ← hgraph.allCycles_eq_nil_iff]
  constructor
  · simp [List.take_eq_nil_iff, hroom]
  · intro cycle hcycle edge hedge
    obtain ⟨-, -, hedges⟩ := Graph.allCycles_sound (List.mem_of_mem_take hcycle)
    obtain ⟨A, hA, B, hB, -, hsome, rfl⟩ := hgraph.edge?_dependencyGraph (hedges edge hedge).1
    exact ⟨A, hA, B, hB, rfl, rfl, hsome, graph.snapshot.dependencies_ascending.filter _, rfl⟩

theorem moduleCycles_exact_numbering : ∃ graph,
    MonadAttach.CanReturn (TwoModules.numbering.modularize ⟨[]⟩ TwoModules.snapshot)
        (.ok graph, ⟨[]⟩)
      ∧ (1 : UInt64) ≤ ({} : CycleSettings).maxNumberToDetect
      ∧ (graph.cycles {}).cycles.length = 1
      ∧ ¬∀ M ∈ graph.modules, ¬Relation.TransGen graph.DependsOn M.identifier M.identifier := by
  obtain ⟨graph, hgraph, hrun⟩ := TwoModules.numbering_modularizes
  have hmax : (1 : UInt64) ≤ ({} : CycleSettings).maxNumberToDetect := by decide
  have hcycles :
      ((TwoModules.numbering.modularize ⟨[]⟩ TwoModules.snapshot).run 0).1.1.toOption.map
        (fun graph => (graph.cycles {}).cycles.length) = some 1 := by decide +kernel
  rw [hrun] at hcycles
  have hone : (graph.cycles {}).cycles.length = 1 := Option.some.inj hcycles
  refine ⟨graph, hgraph, hmax, hone, fun hacyclic => ?_⟩
  have hnil : (graph.cycles {}).cycles = [] :=
    (moduleCycles_exact hgraph flooding_lawful hmax).1.mpr hacyclic
  rw [hnil] at hone
  cases hone

end Archmap
