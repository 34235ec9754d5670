import Archmap.Proofs.Module.Partition

/-!
# Dependencies between modules

Which module dependencies a module graph has. There is one from a module to another iff some class
of the first depends on some class of the second, and it is backed by exactly these class
dependencies (`mem_dependencies`). They are listed by origin and then by target
(`dependencies_ascending`).

The computation goes another way: it lays out the dependencies that leave a module by the owners of
their targets. As no class name belongs to two modules, the owner is the one module that contains
the name (`owner?_eq_some`), and what leaves towards it is what crosses into it.
-/

namespace Archmap

namespace ModuleGraph

/-- The class dependencies from one module into another. -/
def crossing (graph : ModuleGraph) (A B : Module) : List Dependency :=
  graph.snapshot.dependencies.filter fun d => A.contains d.origin && B.contains d.target

/-- The dependency of one module on another that all class dependencies between them back. -/
def between (graph : ModuleGraph) (A B : Module) : ModuleDependency where
  originIndex := graph.modules.idxOf A
  targetIndex := graph.modules.idxOf B
  origin := A.identifier
  target := B.identifier
  originName := A.name
  targetName := B.name
  classDependencies := graph.crossing A B

variable {identify : Class → Identifier} {graph : ModuleGraph} {A B : Module} {name : ClassName}
  {d : Dependency} {D : ModuleDependency} {i j : Nat}

theorem mem_crossing : d ∈ graph.crossing A B ↔
    d ∈ graph.snapshot.dependencies ∧ A.contains d.origin = true ∧ B.contains d.target = true := by
  rw [crossing, List.mem_filter, Bool.and_eq_true]

theorem mem_leaving {snapshot : Snapshot} : d ∈ A.leaving snapshot ↔
    d ∈ snapshot.dependencies ∧ A.contains d.origin = true ∧ A.contains d.target = false := by
  rw [Module.leaving, List.mem_filter, Bool.and_eq_true, Bool.not_eq_true']

theorem dependencyOn?_ends {origin target : Module × Nat} {candidates : List Dependency}
    (h : dependencyOn? origin target candidates = some D) :
    D.origin = origin.1.identifier ∧ D.target = target.1.identifier := by
  simp only [dependencyOn?] at h
  split at h
  · cases h
  · cases Option.some.inj h
    exact ⟨rfl, rfl⟩

namespace Partitioned

/-! ## Owners -/

theorem owner?_eq_some (h : graph.Partitioned identify) (hB : graph.modules[j]? = some B) :
    owner? graph.modules name = some j ↔ B.contains name = true := by
  obtain ⟨hj, rfl⟩ := List.getElem?_eq_some_iff.mp hB
  rw [owner?, List.findIdx?_eq_some_iff_getElem]
  constructor
  · rintro ⟨_, hname, -⟩
    exact hname
  · intro hname
    refine ⟨hj, hname, fun k hk hname' => ?_⟩
    have heq := h.disjoint (List.getElem_mem _) (List.getElem_mem hj) hname' hname
    have hindex := (h.modules_nodup.getElem_inj_iff).mp heq
    omega

theorem ne_iff (h : graph.Partitioned identify) (hA : graph.modules[i]? = some A)
    (hB : graph.modules[j]? = some B) : A ≠ B ↔ i ≠ j := by
  obtain ⟨hi, rfl⟩ := List.getElem?_eq_some_iff.mp hA
  obtain ⟨hj, rfl⟩ := List.getElem?_eq_some_iff.mp hB
  exact not_congr h.modules_nodup.getElem_inj_iff

theorem idxOf_eq (h : graph.Partitioned identify) (hA : graph.modules[i]? = some A) :
    graph.modules.idxOf A = i := by
  obtain ⟨hi, rfl⟩ := List.getElem?_eq_some_iff.mp hA
  exact h.modules_nodup.idxOf_getElem i hi

/-! ## One origin and one target -/

/-- The dependencies that leave a module, those with the given owner of the target kept. -/
theorem owned_candidates (leaving : List Dependency) (modules : List Module) (j : Nat) :
    ((leaving.map fun d => (d, owner? modules d.target)).filter (·.2 = some j)).map Prod.fst
      = leaving.filter fun d => owner? modules d.target = some j := by
  rw [List.filter_map, List.map_map]
  exact List.map_id' _

/-- What leaves a module towards the owner of its target is what crosses into the owner. -/
theorem leaving_owned (h : graph.Partitioned identify) (hA : A ∈ graph.modules)
    (hB : graph.modules[j]? = some B) (hne : A ≠ B) :
    ((A.leaving graph.snapshot).filter fun d => owner? graph.modules d.target = some j).filter
        (fun d => B.contains d.target)
      = graph.crossing A B := by
  rw [List.filter_filter, Module.leaving, List.filter_filter, crossing]
  refine List.filter_congr fun d _ => ?_
  by_cases hname : B.contains d.target = true
  · have howner : owner? graph.modules d.target = some j := (h.owner?_eq_some hB).mpr hname
    have hout : A.contains d.target = false := by
      by_contra hin
      exact hne (h.disjoint hA (List.mem_of_getElem? hB) (by simpa using hin) hname)
    simp [hname, howner, hout]
  · simp [hname]

theorem dependencyOn?_eq (h : graph.Partitioned identify) (hA : graph.modules[i]? = some A)
    (hB : graph.modules[j]? = some B) :
    dependencyOn? (A, i) (B, j)
        ((((A.leaving graph.snapshot).map fun d => (d, owner? graph.modules d.target)).filter
          (·.2 = some j)).map Prod.fst)
      = if A = B ∨ graph.crossing A B = [] then none else some (graph.between A B) := by
  rw [owned_candidates, dependencyOn?]
  by_cases hsame : A = B
  · have hindex : i = j := by
      by_contra hne
      exact (h.ne_iff hA hB).mpr hne hsame
    simp [hsame, hindex]
  · have hindex : i ≠ j := (h.ne_iff hA hB).mp hsame
    simp only [h.leaving_owned (List.mem_of_getElem? hA) hB hsame, hsame, hindex, false_or]
    rw [between, h.idxOf_eq hA, h.idxOf_eq hB]

/-! ## All dependencies -/

theorem mem_dependenciesOf (h : graph.Partitioned identify) (hA : graph.modules[i]? = some A) :
    D ∈ dependenciesOf graph.snapshot graph.modules (A, i) ↔
      ∃ B ∈ graph.modules, A ≠ B ∧ graph.crossing A B ≠ [] ∧ D = graph.between A B := by
  rw [dependenciesOf, List.mem_filterMap]
  constructor
  · rintro ⟨⟨B, j⟩, hmem, hD⟩
    have hB := List.mem_zipIdx_iff_getElem?.mp hmem
    rw [h.dependencyOn?_eq hA hB] at hD
    split at hD
    · cases hD
    · rename_i hnot
      obtain ⟨hne, hsome⟩ := not_or.mp hnot
      exact ⟨B, List.mem_of_getElem? hB, hne, hsome, (Option.some.inj hD).symm⟩
  · rintro ⟨B, hmem, hne, hsome, rfl⟩
    obtain ⟨j, hB⟩ := List.mem_iff_getElem?.mp hmem
    refine ⟨(B, j), List.mem_zipIdx_iff_getElem?.mpr hB, ?_⟩
    rw [h.dependencyOn?_eq hA hB, if_neg (not_or.mpr ⟨hne, hsome⟩)]

/-- There is a dependency between two modules iff a class dependency crosses, and it is backed by
all that cross. -/
theorem mem_dependencies (h : graph.Partitioned identify) : D ∈ graph.dependencies ↔
    ∃ A ∈ graph.modules, ∃ B ∈ graph.modules,
      A ≠ B ∧ graph.crossing A B ≠ [] ∧ D = graph.between A B := by
  rw [h.dependencies, List.mem_flatten]
  constructor
  · rintro ⟨list, hlist, hD⟩
    obtain ⟨⟨A, i⟩, hmem, rfl⟩ := List.mem_map.mp hlist
    have hA := List.mem_zipIdx_iff_getElem?.mp hmem
    exact ⟨A, List.mem_of_getElem? hA, (h.mem_dependenciesOf hA).mp hD⟩
  · rintro ⟨A, hmem, hD⟩
    obtain ⟨i, hA⟩ := List.mem_iff_getElem?.mp hmem
    exact ⟨_, List.mem_map_of_mem (List.mem_zipIdx_iff_getElem?.mpr hA),
      (h.mem_dependenciesOf hA).mpr hD⟩

/-! ## Order -/

theorem zipIdx_ascending (h : graph.Partitioned identify) :
    graph.modules.zipIdx.Pairwise fun M N => M.1.identifier.parts < N.1.identifier.parts := by
  have hmodules : (graph.modules.zipIdx.map Prod.fst).Pairwise fun M N =>
      M.identifier.parts < N.identifier.parts := by
    rw [List.zipIdx_map_fst]
    exact h.modules_ascending
  rw [List.pairwise_map] at hmodules
  exact hmodules

theorem dependencies_ascending (h : graph.Partitioned identify) :
    Ascending (fun D => [D.origin.parts, D.target.parts]) graph.dependencies := by
  rw [h.dependencies, Ascending, List.pairwise_flatten]
  constructor
  · intro list hlist
    obtain ⟨⟨A, i⟩, -, rfl⟩ := List.mem_map.mp hlist
    rw [dependenciesOf, List.pairwise_filterMap]
    refine h.zipIdx_ascending.imp fun {M N} hless D hD D' hD' => ?_
    obtain ⟨horigin, htarget⟩ := dependencyOn?_ends hD
    obtain ⟨horigin', htarget'⟩ := dependencyOn?_ends hD'
    rw [horigin, horigin', htarget, htarget']
    exact List.cons_lt_cons_iff.mpr (Or.inr ⟨rfl, List.cons_lt_cons_iff.mpr (Or.inl hless)⟩)
  · rw [List.pairwise_map]
    refine h.zipIdx_ascending.imp fun {M N} hless D hD D' hD' => ?_
    obtain ⟨_, -, hD⟩ := List.mem_filterMap.mp hD
    obtain ⟨_, -, hD'⟩ := List.mem_filterMap.mp hD'
    rw [(dependencyOn?_ends hD).1, (dependencyOn?_ends hD').1]
    exact List.cons_lt_cons_iff.mpr (Or.inl hless)

theorem dependencies_nodup (h : graph.Partitioned identify) : graph.dependencies.Nodup :=
  h.dependencies_ascending.nodup

end Partitioned

end ModuleGraph

end Archmap
