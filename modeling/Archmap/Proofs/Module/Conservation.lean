import Archmap.Proofs.Module.Dependencies

/-!
# Every class dependency is accounted for once

A class dependency of the snapshot meets one of four fates. It starts in no module; or it stays
inside one; or it crosses from one module into another; or it leaves a module and ends in none. Its
fate says in which views of the module graph it can be seen (`HasFate`), and it has exactly one
(`Partitioned.exists_unique_fate`). Conversely the views show nothing else, so what leaves a module
is divided between the module's dependencies and its undefined ones (`Partitioned.leaving_perm`).
-/

namespace Archmap

/-- What becomes of a class dependency. -/
inductive Fate where
  /-- It starts in no module. -/
  | unowned
  /-- It stays inside a module. -/
  | internal (owner : Module)
  /-- It leads from a module into another. -/
  | crossing (origin target : Module)
  /-- It leaves a module and ends in none. -/
  | undefined (origin : Module)

namespace ModuleGraph

/-! ## Where a class dependency can be seen -/

/-- The modules that it leaves. -/
def leavers (graph : ModuleGraph) (d : Dependency) : List Module :=
  graph.modules.filter fun M => d ∈ M.leaving graph.snapshot

/-- The module dependencies that it backs. -/
def backed (graph : ModuleGraph) (d : Dependency) : List ModuleDependency :=
  graph.dependencies.filter fun D => d ∈ D.classDependencies

/-- The modules of which it is an undefined dependency. -/
def strays (graph : ModuleGraph) (d : Dependency) : List Module :=
  graph.modules.filter fun M => d ∈ graph.undefinedDependencies M

/-- The dependency lies between modules as the fate says and can be seen where it should. -/
def HasFate (graph : ModuleGraph) (d : Dependency) : Fate → Prop
  | .unowned =>
    (∀ M ∈ graph.modules, M.contains d.origin = false)
      ∧ graph.leavers d = [] ∧ graph.backed d = [] ∧ graph.strays d = []
  | .internal A =>
    (A ∈ graph.modules ∧ A.contains d.origin = true ∧ A.contains d.target = true)
      ∧ graph.leavers d = [] ∧ graph.backed d = [] ∧ graph.strays d = []
  | .crossing A B =>
    (A ∈ graph.modules ∧ B ∈ graph.modules ∧ A ≠ B
        ∧ A.contains d.origin = true ∧ B.contains d.target = true)
      ∧ graph.leavers d = [A]
      ∧ (∃ D, graph.backed d = [D] ∧ D.origin = A.identifier ∧ D.target = B.identifier)
      ∧ graph.strays d = []
  | .undefined A =>
    (A ∈ graph.modules ∧ A.contains d.origin = true
        ∧ ∀ M ∈ graph.modules, M.contains d.target = false)
      ∧ graph.leavers d = [A] ∧ graph.backed d = [] ∧ graph.strays d = [A]

/-- The fate read off the owners of the two ends. -/
def fateOf (graph : ModuleGraph) (d : Dependency) : Fate :=
  match graph.modules.find? (·.contains d.origin) with
  | none => .unowned
  | some A =>
    if A.contains d.target then .internal A
    else
      match graph.modules.find? (·.contains d.target) with
      | none => .undefined A
      | some B => .crossing A B

variable {identify : Class → Identifier} {graph : ModuleGraph} {A B : Module} {name : ClassName}
  {d : Dependency} {D : ModuleDependency}

namespace Partitioned

theorem find?_contains (h : graph.Partitioned identify) (hA : A ∈ graph.modules)
    (hname : A.contains name = true) : graph.modules.find? (·.contains name) = some A := by
  cases hfind : graph.modules.find? (·.contains name) with
  | none => exact absurd hname (List.find?_eq_none.mp hfind A hA)
  | some B =>
      have hname' := List.find?_some hfind
      rw [h.disjoint (List.mem_of_find?_eq_some hfind) hA hname' hname]

theorem not_contains_of_ne (h : graph.Partitioned identify) (hA : A ∈ graph.modules)
    (hB : B ∈ graph.modules) (hne : A ≠ B) (hname : B.contains name = true) :
    A.contains name = false := by
  by_contra hin
  exact hne (h.disjoint hA hB (by simpa using hin) hname)

/-! ## The views -/

theorem mem_dependenciesFrom (h : graph.Partitioned identify) (hA : A ∈ graph.modules) :
    D ∈ graph.dependenciesFrom A ↔
      ∃ B ∈ graph.modules, A ≠ B ∧ graph.crossing A B ≠ [] ∧ D = graph.between A B := by
  rw [dependenciesFrom, List.mem_filter, h.mem_dependencies, decide_eq_true_eq]
  constructor
  · rintro ⟨⟨A', hA', B, hB, hne, hsome, rfl⟩, horigin⟩
    cases h.eq_of_identifier hA' hA horigin
    exact ⟨B, hB, hne, hsome, rfl⟩
  · rintro ⟨B, hB, hne, hsome, rfl⟩
    exact ⟨⟨A, hA, B, hB, hne, hsome, rfl⟩, rfl⟩

/-- The dependencies of a module are backed by what leaves it and ends in some module. -/
theorem mem_claimed (h : graph.Partitioned identify) (hA : A ∈ graph.modules) :
    d ∈ (graph.dependenciesFrom A).flatMap ModuleDependency.classDependencies ↔
      d ∈ A.leaving graph.snapshot ∧ ∃ B ∈ graph.modules, B.contains d.target = true := by
  rw [List.mem_flatMap]
  constructor
  · rintro ⟨D, hD, hd⟩
    obtain ⟨B, hB, hne, -, rfl⟩ := (h.mem_dependenciesFrom hA).mp hD
    obtain ⟨hmem, horigin, htarget⟩ := mem_crossing.mp hd
    exact ⟨mem_leaving.mpr ⟨hmem, horigin, h.not_contains_of_ne hA hB hne htarget⟩, B, hB, htarget⟩
  · rintro ⟨hd, B, hB, htarget⟩
    obtain ⟨hmem, horigin, hout⟩ := mem_leaving.mp hd
    have hne : A ≠ B := by
      rintro rfl
      rw [htarget] at hout
      cases hout
    have hcross : d ∈ graph.crossing A B := mem_crossing.mpr ⟨hmem, horigin, htarget⟩
    exact ⟨graph.between A B, (h.mem_dependenciesFrom hA).mpr
      ⟨B, hB, hne, List.ne_nil_of_mem hcross, rfl⟩, hcross⟩

/-- The undefined dependencies are those that leave the module and end in none. -/
theorem mem_undefinedDependencies (h : graph.Partitioned identify) (hA : A ∈ graph.modules) :
    d ∈ graph.undefinedDependencies A ↔
      d ∈ A.leaving graph.snapshot ∧ ∀ B ∈ graph.modules, B.contains d.target = false := by
  rw [undefinedDependencies, List.mem_filter, Bool.not_eq_true', List.contains_eq_mem,
    decide_eq_false_iff_not, h.mem_claimed hA]
  refine and_congr_right fun hd => ?_
  rw [and_iff_right hd]
  simp only [not_exists, not_and, Bool.not_eq_true]

/-! ## What the views show of one dependency -/

theorem leavers_eq_nil (hstays : ∀ M ∈ graph.modules, d ∉ M.leaving graph.snapshot) :
    graph.leavers d = [] :=
  List.filter_eq_nil_iff.mpr fun M hM => by simpa using hstays M hM

theorem leavers_eq_singleton (h : graph.Partitioned identify) (hA : A ∈ graph.modules)
    (hleaves : d ∈ A.leaving graph.snapshot) : graph.leavers d = [A] := by
  refine filter_eq_singleton h.modules_nodup hA fun M hM => ?_
  rw [decide_eq_true_eq]
  constructor
  · intro hM'
    exact h.disjoint hM hA (mem_leaving.mp hM').2.1 (mem_leaving.mp hleaves).2.1
  · rintro rfl
    exact hleaves

theorem strays_eq_nil (h : graph.Partitioned identify)
    (hends : ∀ M ∈ graph.modules, d ∈ M.leaving graph.snapshot →
      ∃ B ∈ graph.modules, B.contains d.target = true) : graph.strays d = [] := by
  refine List.filter_eq_nil_iff.mpr fun M hM hstray => ?_
  rw [decide_eq_true_eq, h.mem_undefinedDependencies hM] at hstray
  obtain ⟨B, hB, htarget⟩ := hends M hM hstray.1
  rw [hstray.2 B hB] at htarget
  cases htarget

theorem strays_eq_singleton (h : graph.Partitioned identify) (hA : A ∈ graph.modules)
    (hleaves : d ∈ A.leaving graph.snapshot)
    (hnowhere : ∀ M ∈ graph.modules, M.contains d.target = false) : graph.strays d = [A] := by
  refine filter_eq_singleton h.modules_nodup hA fun M hM => ?_
  rw [decide_eq_true_eq, h.mem_undefinedDependencies hM]
  constructor
  · rintro ⟨hM', -⟩
    exact h.disjoint hM hA (mem_leaving.mp hM').2.1 (mem_leaving.mp hleaves).2.1
  · rintro rfl
    exact ⟨hleaves, hnowhere⟩

theorem backed_eq_nil (h : graph.Partitioned identify)
    (hnone : ∀ M ∈ graph.modules, ∀ N ∈ graph.modules, M ≠ N → d ∉ graph.crossing M N) :
    graph.backed d = [] := by
  refine List.filter_eq_nil_iff.mpr fun D hD hmem => ?_
  obtain ⟨M, hM, N, hN, hne, -, rfl⟩ := h.mem_dependencies.mp hD
  exact hnone M hM N hN hne (of_decide_eq_true hmem)

theorem backed_eq_singleton (h : graph.Partitioned identify) (hA : A ∈ graph.modules)
    (hB : B ∈ graph.modules) (hne : A ≠ B) (hcross : d ∈ graph.crossing A B) :
    graph.backed d = [graph.between A B] := by
  have hmem : graph.between A B ∈ graph.dependencies :=
    h.mem_dependencies.mpr ⟨A, hA, B, hB, hne, List.ne_nil_of_mem hcross, rfl⟩
  refine filter_eq_singleton h.dependencies_nodup hmem fun D hD => ?_
  rw [decide_eq_true_eq]
  constructor
  · intro hd
    obtain ⟨M, hM, N, hN, -, -, rfl⟩ := h.mem_dependencies.mp hD
    obtain ⟨-, horigin, htarget⟩ := mem_crossing.mp hcross
    obtain ⟨-, horigin', htarget'⟩ := mem_crossing.mp hd
    rw [h.disjoint hM hA horigin' horigin, h.disjoint hN hB htarget' htarget]
  · rintro rfl
    exact hcross

/-! ## One fate -/

theorem hasFate_unowned (h : graph.Partitioned identify)
    (hunowned : ∀ M ∈ graph.modules, M.contains d.origin = false) :
    graph.HasFate d .unowned := by
  have hleave : ∀ M ∈ graph.modules, d ∉ M.leaving graph.snapshot := by
    intro M hM hmem
    have horigin := (mem_leaving.mp hmem).2.1
    rw [hunowned M hM] at horigin
    cases horigin
  refine ⟨hunowned, leavers_eq_nil hleave, h.backed_eq_nil fun M hM N _ _ hmem => ?_,
    h.strays_eq_nil fun M hM hmem => absurd hmem (hleave M hM)⟩
  have horigin := (mem_crossing.mp hmem).2.1
  rw [hunowned M hM] at horigin
  cases horigin

theorem hasFate_internal (h : graph.Partitioned identify) (hA : A ∈ graph.modules)
    (horigin : A.contains d.origin = true) (htarget : A.contains d.target = true) :
    graph.HasFate d (.internal A) := by
  have hleave : ∀ M ∈ graph.modules, d ∉ M.leaving graph.snapshot := by
    intro M hM hmem
    obtain ⟨-, horigin', hout⟩ := mem_leaving.mp hmem
    rw [h.disjoint hM hA horigin' horigin, htarget] at hout
    cases hout
  refine ⟨⟨hA, horigin, htarget⟩, leavers_eq_nil hleave, h.backed_eq_nil ?_,
    h.strays_eq_nil fun M hM hmem => absurd hmem (hleave M hM)⟩
  intro M hM N hN hne hmem
  obtain ⟨-, horigin', htarget'⟩ := mem_crossing.mp hmem
  exact hne ((h.disjoint hM hA horigin' horigin).trans (h.disjoint hA hN htarget htarget'))

theorem hasFate_undefined (h : graph.Partitioned identify)
    (hd : d ∈ graph.snapshot.dependencies) (hA : A ∈ graph.modules)
    (horigin : A.contains d.origin = true)
    (hnowhere : ∀ M ∈ graph.modules, M.contains d.target = false) :
    graph.HasFate d (.undefined A) := by
  have hleaves : d ∈ A.leaving graph.snapshot := mem_leaving.mpr ⟨hd, horigin, hnowhere A hA⟩
  refine ⟨⟨hA, horigin, hnowhere⟩, h.leavers_eq_singleton hA hleaves, h.backed_eq_nil ?_,
    h.strays_eq_singleton hA hleaves hnowhere⟩
  intro M _ N hN _ hmem
  have htarget := (mem_crossing.mp hmem).2.2
  rw [hnowhere N hN] at htarget
  cases htarget

theorem hasFate_crossing (h : graph.Partitioned identify)
    (hd : d ∈ graph.snapshot.dependencies) (hA : A ∈ graph.modules) (hB : B ∈ graph.modules)
    (hne : A ≠ B) (horigin : A.contains d.origin = true) (htarget : B.contains d.target = true) :
    graph.HasFate d (.crossing A B) := by
  have hcross : d ∈ graph.crossing A B := mem_crossing.mpr ⟨hd, horigin, htarget⟩
  have hleaves : d ∈ A.leaving graph.snapshot :=
    mem_leaving.mpr ⟨hd, horigin, h.not_contains_of_ne hA hB hne htarget⟩
  exact ⟨⟨hA, hB, hne, horigin, htarget⟩, h.leavers_eq_singleton hA hleaves,
    ⟨graph.between A B, h.backed_eq_singleton hA hB hne hcross, rfl, rfl⟩,
    h.strays_eq_nil fun _ _ _ => ⟨B, hB, htarget⟩⟩

theorem hasFate_fateOf (h : graph.Partitioned identify) (hd : d ∈ graph.snapshot.dependencies) :
    graph.HasFate d (graph.fateOf d) := by
  have hnone : ∀ {name}, graph.modules.find? (·.contains name) = none →
      ∀ M ∈ graph.modules, M.contains name = false := fun hfind M hM => by
    simpa using List.find?_eq_none.mp hfind M hM
  have hsome : ∀ {name A}, graph.modules.find? (·.contains name) = some A →
      A ∈ graph.modules ∧ A.contains name = true := fun hfind =>
    ⟨List.mem_of_find?_eq_some hfind, by simpa using List.find?_some hfind⟩
  unfold fateOf
  split
  · rename_i hfind
    exact h.hasFate_unowned (hnone hfind)
  · rename_i A hfind
    obtain ⟨hA, horigin⟩ := hsome hfind
    split
    · rename_i htarget
      exact h.hasFate_internal hA horigin htarget
    · rename_i hout
      split
      · rename_i hfind'
        exact h.hasFate_undefined hd hA horigin (hnone hfind')
      · rename_i B hfind'
        obtain ⟨hB, htarget⟩ := hsome hfind'
        have hne : A ≠ B := by
          rintro rfl
          exact hout htarget
        exact h.hasFate_crossing hd hA hB hne horigin htarget

/-- The owners of the ends decide the fate. -/
theorem eq_fateOf (h : graph.Partitioned identify) {fate : Fate} (hfate : graph.HasFate d fate) :
    fate = graph.fateOf d := by
  have hnone : ∀ name, (∀ M ∈ graph.modules, M.contains name = false) →
      graph.modules.find? (·.contains name) = none :=
    fun name hname => List.find?_eq_none.mpr fun M hM => by simp [hname M hM]
  unfold fateOf
  cases fate with
  | unowned => rw [hnone _ hfate.1]
  | internal A =>
      obtain ⟨hA, horigin, htarget⟩ := hfate.1
      simp only [h.find?_contains hA horigin, htarget, if_true]
  | crossing A B =>
      obtain ⟨hA, hB, hne, horigin, htarget⟩ := hfate.1
      have hout : A.contains d.target = false := h.not_contains_of_ne hA hB hne htarget
      simp only [h.find?_contains hA horigin, h.find?_contains hB htarget, hout,
        Bool.false_eq_true, if_false]
  | undefined A =>
      obtain ⟨hA, horigin, hnowhere⟩ := hfate.1
      simp only [h.find?_contains hA horigin, hnone _ hnowhere, hnowhere A hA,
        Bool.false_eq_true, if_false]

theorem exists_unique_fate (h : graph.Partitioned identify)
    (hd : d ∈ graph.snapshot.dependencies) : ∃! fate, graph.HasFate d fate :=
  ⟨graph.fateOf d, h.hasFate_fateOf hd, fun _ hfate => h.eq_fateOf hfate⟩

/-! ## Nothing else -/

theorem leaving_nodup {snapshot : Snapshot} : (A.leaving snapshot).Nodup :=
  snapshot.dependencies_ascending.nodup.filter _

theorem claimed_nodup (h : graph.Partitioned identify) (hA : A ∈ graph.modules) :
    ((graph.dependenciesFrom A).flatMap ModuleDependency.classDependencies).Nodup := by
  rw [List.nodup_flatMap]
  constructor
  · intro D hD
    obtain ⟨B, -, -, -, rfl⟩ := (h.mem_dependenciesFrom hA).mp hD
    exact graph.snapshot.dependencies_ascending.nodup.filter _
  · have hnodup : (graph.dependenciesFrom A).Nodup := h.dependencies_nodup.filter _
    refine List.Pairwise.imp_of_mem ?_ hnodup
    intro D D' hD hD' hne d hd hd'
    obtain ⟨B, hB, -, -, rfl⟩ := (h.mem_dependenciesFrom hA).mp hD
    obtain ⟨B', hB', -, -, rfl⟩ := (h.mem_dependenciesFrom hA).mp hD'
    refine hne ?_
    rw [h.disjoint hB hB' (mem_crossing.mp hd).2.2 (mem_crossing.mp hd').2.2]

/-- What leaves a module backs its dependencies or is undefined, each class dependency once. -/
theorem leaving_perm (h : graph.Partitioned identify) (hA : A ∈ graph.modules) :
    (A.leaving graph.snapshot).Perm
      ((graph.dependenciesFrom A).flatMap ModuleDependency.classDependencies
        ++ graph.undefinedDependencies A) := by
  have hundefined : (graph.undefinedDependencies A).Nodup := leaving_nodup.filter _
  have hdisjoint : ∀ d ∈ (graph.dependenciesFrom A).flatMap ModuleDependency.classDependencies,
      ∀ d' ∈ graph.undefinedDependencies A, d ≠ d' := by
    rintro d hd d' hd' rfl
    have hunclaimed := (List.mem_filter.mp hd').2
    simp only [Bool.not_eq_true', List.contains_eq_mem, decide_eq_false_iff_not] at hunclaimed
    exact hunclaimed hd
  refine (List.perm_ext_iff_of_nodup leaving_nodup
    (List.nodup_append.mpr ⟨h.claimed_nodup hA, hundefined, hdisjoint⟩)).mpr fun d => ?_
  rw [List.mem_append, h.mem_claimed hA, h.mem_undefinedDependencies hA, ← and_or_left]
  refine (and_iff_left ?_).symm
  by_cases hnowhere : ∀ B ∈ graph.modules, B.contains d.target = false
  · exact Or.inr hnowhere
  · refine Or.inl ?_
    simpa using hnowhere

end Partitioned

end ModuleGraph

/-- In whatever module graph a creator makes of a snapshot, every class dependency of the snapshot
has exactly one fate, the views show no others, and what leaves a module is divided between its
dependencies on modules and its undefined dependencies. -/
theorem modularize_conserves {creator : Creator Id} {roots : RootNamespaces} {snapshot : Snapshot}
    {graph : ModuleGraph} (h : (creator.modularize roots snapshot).run.1 = .ok graph) :
    (∀ d ∈ snapshot.dependencies, ∃! fate, graph.HasFate d fate)
      ∧ (∀ D ∈ graph.dependencies,
          D.classDependencies.Nodup ∧ D.classDependencies ⊆ snapshot.dependencies)
      ∧ ∀ M ∈ graph.modules,
          M.leaving graph.snapshot ⊆ snapshot.dependencies
          ∧ (M.leaving graph.snapshot).Nodup
          ∧ (M.leaving graph.snapshot).Perm
              ((graph.dependenciesFrom M).flatMap ModuleDependency.classDependencies
                ++ graph.undefinedDependencies M) := by
  obtain ⟨rfl, hgraph⟩ := Creator.modularize_ok h
  refine ⟨fun d hd => hgraph.exists_unique_fate hd, fun D hD => ?_, fun M hM =>
    ⟨List.filter_subset_self .., ModuleGraph.Partitioned.leaving_nodup, hgraph.leaving_perm hM⟩⟩
  obtain ⟨M, -, N, -, -, -, rfl⟩ := hgraph.mem_dependencies.mp hD
  exact ⟨graph.snapshot.dependencies_ascending.nodup.filter _, List.filter_subset_self ..⟩

theorem modularize_conserves_twoModules : ∃ graph,
    (TwoModules.creator.modularize ⟨[]⟩ TwoModules.snapshot).run.1 = .ok graph
      ∧ ∀ d ∈ TwoModules.snapshot.dependencies, ∃! fate, graph.HasFate d fate := by
  obtain ⟨graph, hgraph⟩ := TwoModules.modularizes
  exact ⟨graph, hgraph, (modularize_conserves hgraph).1⟩

end Archmap
