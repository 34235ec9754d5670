import Archmap.Proofs.Module.Incoming
import Archmap.Proofs.Module.RootModules

/-!
# Ignored classes start nothing

A class that its association ignores can be left out of the snapshot, together with the dependencies
that start at it (`Snapshot.without`). The modules and all that leaves them stay what they were, and
what enters a module loses just the dependencies that were left out.

The preparation does not miss the ignored classes, for a root spans at least itself and is never
ignored (`Association.init_without`). Grouping leaves them out anyway, so the same groups are
described (`groups_without`). And assembling looks at the snapshot only through what leaves the
modules (`assemble_congr`), which never starts at an ignored class (`Partitioned.leaving_without`).
-/

namespace Archmap

/-! ## Leaving out classes -/

namespace Snapshot

/-- The dependency starts at one of the classes that are dropped. -/
def startsAt (snapshot : Snapshot) (dropped : Class → Bool) (d : Dependency) : Bool :=
  snapshot.classes.any fun cls => dropped cls && cls.name = d.origin

/-- The snapshot without the classes that are dropped and the dependencies that start at them. -/
def without (snapshot : Snapshot) (dropped : Class → Bool) : Snapshot where
  classes := snapshot.classes.filter fun cls => !dropped cls
  dependencies := snapshot.dependencies.filter fun d => !snapshot.startsAt dropped d
  classes_ascending := snapshot.classes_ascending.filter _
  dependencies_ascending := snapshot.dependencies_ascending.filter _
  origins_known d hd := by
    obtain ⟨hd, hkept⟩ := List.mem_filter.mp hd
    obtain ⟨cls, hcls, hname⟩ := snapshot.origins_known d hd
    refine ⟨cls, List.mem_filter.mpr ⟨hcls, ?_⟩, hname⟩
    rw [Bool.not_eq_true', startsAt, List.any_eq_false] at hkept
    simpa [hname] using hkept cls hcls

variable {snapshot : Snapshot} {dropped : Class → Bool} {d : Dependency}

theorem startsAt_iff : snapshot.startsAt dropped d = true ↔
    ∃ cls ∈ snapshot.classes, dropped cls = true ∧ cls.name = d.origin := by
  simp [startsAt]

end Snapshot

/-- A module is entered by less where classes are dropped. -/
theorem Module.entering_without (M : Module) (snapshot : Snapshot) (dropped : Class → Bool) :
    M.entering (snapshot.without dropped)
      = (M.entering snapshot).filter fun d => !snapshot.startsAt dropped d :=
  List.filter_comm ..

/-! ## Preparing and grouping -/

theorem RootNamespaces.Registers.not_isIgnored {isRoot : Class → Bool} {roots : RootNamespaces}
    {classes : List Class} {root : Class} (h : roots.Registers isRoot classes)
    (hroot : root ∈ classes) (hroot' : isRoot root = true) :
    (roots.identify root).isIgnored = false := by
  rw [Identifier.isIgnored, (h.identify_parts_iff hroot hroot').mpr root.spans_self]
  rfl

/-- Without the ignored classes a preparation that succeeded succeeds again, whatever was registered
before it, and gives all classes the same identifiers. -/
theorem Association.init_without {association : Association Id}
    {before registered : RootNamespaces} {snapshot : Snapshot}
    (h : (association.init before snapshot).run = (.ok (), registered)) (before' : RootNamespaces) :
    ∃ registered',
      (association.init before' (snapshot.without fun cls =>
          (association.identify registered cls).isIgnored)).run = (.ok (), registered')
        ∧ association.identify registered' = association.identify registered := by
  cases association with
  | namespaces pattern => exact ⟨before', rfl, rfl⟩
  | assign identify => exact ⟨before', rfl, rfl⟩
  | rootClasses isRoot =>
      have hroots : registered.Registers (fun cls => (isRoot cls).run) snapshot.classes :=
        RootNamespaces.init_ok h
      have hasked : ∀ cls ∈ snapshot.classes, (isRoot cls).run = true →
          (!(registered.identify cls).isIgnored) = true := by
        intro cls hcls hcls'
        rw [hroots.not_isIgnored hcls hcls']
        rfl
      exact ⟨registered, (congrArg Id.run (RootNamespaces.register_filter hasked)).trans h, rfl⟩

theorem Creator.groups_without (identify : Class → Identifier) (snapshot : Snapshot) :
    groups identify (snapshot.without fun cls => (identify cls).isIgnored).classes
      = groups identify snapshot.classes := by
  simp only [groups, Snapshot.without, List.filter_map, List.filter_filter]
  congr 2
  refine List.filter_congr fun cls _ => ?_
  exact Bool.and_self _

/-! ## Assembling -/

namespace ModuleGraph

theorem assemble_congr {settings : AggregationSettings} {snapshot snapshot' : Snapshot}
    {modules : List Module} {graph : ModuleGraph}
    (hleaving : ∀ M ∈ modules, M.leaving snapshot' = M.leaving snapshot)
    (h : assemble settings snapshot modules = .ok graph) :
    assemble settings snapshot' modules = .ok { graph with snapshot := snapshot' } := by
  have hsame : modules.zipIdx.map (dependenciesOf snapshot' modules)
      = modules.zipIdx.map (dependenciesOf snapshot modules) := by
    refine List.map_congr_left fun origin horigin => ?_
    rw [dependenciesOf, dependenciesOf, hleaving _ (List.fst_mem_of_mem_zipIdx horigin)]
  obtain rfl := assemble_ok h
  unfold assemble at h ⊢
  split at h
  · cases h
  · rw [AggregationSettings.mapModules_eq_map, hsame]

theorem Partitioned.leaving_without {identify : Class → Identifier} {graph : ModuleGraph}
    {M : Module} (h : graph.Partitioned identify) (hM : M ∈ graph.modules) :
    M.leaving (graph.snapshot.without fun cls => (identify cls).isIgnored)
      = M.leaving graph.snapshot := by
  refine (List.filter_comm ..).trans (List.filter_eq_self.mpr fun d hd => ?_)
  rw [Bool.not_eq_true', ← Bool.not_eq_true, Snapshot.startsAt_iff]
  rintro ⟨cls, hcls, hignored, hname⟩
  have hunowned := (h.unowned_iff_ignored ⟨cls, hcls, hname⟩).mpr
    ⟨cls, hcls, hname, Identifier.isIgnored_iff.mp hignored⟩
  have horigin := (mem_leaving.mp hd).2.1
  rw [hunowned M hM] at horigin
  cases horigin

end ModuleGraph

/-! ## The whole run -/

/-- A run without effects succeeds iff preparing, describing and assembling do. -/
theorem Creator.modularize_eq_ok {creator : Creator Id} {before registered : RootNamespaces}
    {snapshot : Snapshot} {graph : ModuleGraph} :
    (creator.modularize before snapshot).run = (.ok graph, registered) ↔
      (creator.association.init before snapshot).run = (.ok (), registered)
        ∧ ∃ modules,
          (describeAll creator.describe
            (groups (creator.association.identify registered) snapshot.classes)).run = .ok modules
          ∧ ModuleGraph.assemble creator.aggregation snapshot modules = .ok graph := by
  rw [modularize, Id.run_bind]
  generalize (creator.association.init before snapshot).run = prepared
  obtain ⟨result, registered'⟩ := prepared
  cases result with
  | error e => simp
  | ok _ =>
      simp only [Id.run_bind, Id.run_pure, Prod.mk.injEq, true_and]
      constructor
      · rintro ⟨hassembled, rfl⟩
        cases hdescribed : (describeAll creator.describe
            (groups (creator.association.identify registered') snapshot.classes)).run with
        | error e =>
            rw [hdescribed] at hassembled
            cases hassembled
        | ok modules =>
            rw [hdescribed] at hassembled
            exact ⟨rfl, modules, rfl, hassembled⟩
      · rintro ⟨rfl, modules, hdescribed, hassembled⟩
        rw [hdescribed]
        exact ⟨hassembled, rfl⟩

/-- Without its ignored classes a snapshot is grouped as before. -/
theorem Creator.modularize_without {creator : Creator Id} {before registered : RootNamespaces}
    {snapshot : Snapshot} {graph : ModuleGraph}
    (h : (creator.modularize before snapshot).run = (.ok graph, registered))
    (before' : RootNamespaces) :
    let reduced := snapshot.without fun cls =>
      (creator.association.identify registered cls).isIgnored
    ∃ registered', (creator.modularize before' reduced).run
      = (.ok { graph with snapshot := reduced }, registered') := by
  obtain ⟨rfl, hgraph⟩ := modularize_partitioned (m := Id) h
  obtain ⟨hinit, modules, hdescribed, hassembled⟩ := modularize_eq_ok.mp h
  obtain ⟨registered', hinit', hidentify⟩ := Association.init_without hinit before'
  refine ⟨registered', modularize_eq_ok.mpr ⟨hinit', modules, ?_, ?_⟩⟩
  · rw [hidentify, groups_without]
    exact hdescribed
  · refine ModuleGraph.assemble_congr (fun M hM => hgraph.leaving_without ?_) hassembled
    rw [ModuleGraph.assemble_ok hassembled]
    exact hM

/-- If a creator without effects makes a module graph of a snapshot, then the lists without the
ignored classes and without what starts at them build a snapshot as well, and of this one a creator,
whatever it was used for before, makes a module graph with the same modules, each with the same
outgoing, undefined and module dependencies. What enters a module loses the dependencies that were
left out and no others. -/
theorem modularize_without_ignored {creator : Creator Id} {before registered : RootNamespaces}
    {snapshot : Snapshot} {graph : ModuleGraph}
    (h : (creator.modularize before snapshot).run = (.ok graph, registered))
    (before' : RootNamespaces) :
    let ignored cls := (creator.association.identify registered cls).isIgnored
    ∃ reduced,
      Snapshot.build (snapshot.classes.filter fun cls => !ignored cls)
          (snapshot.dependencies.filter fun d => !snapshot.startsAt ignored d) = .ok reduced
      ∧ ∃ graph' registered',
          (creator.modularize before' reduced).run = (.ok graph', registered')
          ∧ graph.snapshot = snapshot ∧ graph'.snapshot = reduced
          ∧ graph'.modules = graph.modules
          ∧ graph'.dependencies = graph.dependencies
          ∧ ∀ M ∈ graph.modules,
              M.leaving graph'.snapshot = M.leaving graph.snapshot
              ∧ graph'.dependenciesFrom M = graph.dependenciesFrom M
              ∧ graph'.dependenciesTo M = graph.dependenciesTo M
              ∧ graph'.undefinedDependencies M = graph.undefinedDependencies M
              ∧ M.entering graph'.snapshot
                  = (M.entering graph.snapshot).filter fun d => !snapshot.startsAt ignored d := by
  obtain ⟨registered', hrun⟩ := Creator.modularize_without h before'
  obtain ⟨rfl, hgraph⟩ := Creator.modularize_partitioned (m := Id) h
  refine ⟨_, Snapshot.build_self (graph.snapshot.without _), _, registered', hrun, rfl, rfl, rfl,
    rfl, fun M hM => ?_⟩
  have hleaving := hgraph.leaving_without hM
  refine ⟨hleaving, rfl, rfl, ?_, M.entering_without _ _⟩
  exact congrArg (List.filter _) hleaving

namespace Outsider

def inside : ClassName := ⟨"left.A", by decide +kernel⟩
def beside : ClassName := ⟨"right.Root", by decide +kernel⟩
def outside : ClassName := ⟨"rim.C", by decide +kernel⟩

/-- Two roots and a class in the namespace of neither. A class beside the one root depends on it and
is depended on by it and by the other root. -/
def snapshot : Snapshot where
  classes := [⟨inside, []⟩, ⟨⟨"left.Root", by decide +kernel⟩, []⟩, ⟨beside, []⟩, ⟨outside, []⟩]
  dependencies := [⟨inside, outside, ""⟩, ⟨beside, inside, ""⟩, ⟨outside, inside, ""⟩]
  classes_ascending := by unfold Ascending; decide +kernel
  dependencies_ascending := by unfold Ascending; decide +kernel
  origins_known := by decide +kernel

def creator : Creator Id :=
  .ofAssociation (.rootClasses fun cls => pure (cls.name.simpleName = "Root"))

theorem modularizes :
    ∃ graph, (creator.modularize .empty snapshot).run = (.ok graph, ⟨["left", "right"]⟩) := by
  have hok : ∃ graph, (creator.modularize .empty snapshot).run.1 = .ok graph :=
    exists_eq_ok (by decide +kernel)
  have hroots : (creator.modularize .empty snapshot).run.2 = ⟨["left", "right"]⟩ := by
    decide +kernel
  obtain ⟨graph, hgraph⟩ := hok
  exact ⟨graph, Prod.ext hgraph hroots⟩

end Outsider

/-- Without the class of no root its dependency on a module is gone, and the one on it is kept. -/
theorem modularize_without_ignored_outsider : ∃ graph reduced graph' registered',
    (Outsider.creator.modularize .empty Outsider.snapshot).run
        = (.ok graph, ⟨["left", "right"]⟩)
      ∧ Snapshot.build (Outsider.snapshot.classes.take 3)
          [⟨Outsider.inside, Outsider.outside, ""⟩, ⟨Outsider.beside, Outsider.inside, ""⟩]
          = .ok reduced
      ∧ (Outsider.creator.modularize .empty reduced).run = (.ok graph', registered')
      ∧ graph'.modules = graph.modules
      ∧ graph'.dependencies = graph.dependencies := by
  obtain ⟨graph, hgraph⟩ := Outsider.modularizes
  obtain ⟨reduced, hbuilt, graph', registered', hrun, -, -, hmodules, hdependencies, -⟩ :=
    modularize_without_ignored hgraph .empty
  refine ⟨graph, reduced, graph', registered', hgraph, ?_, hrun, hmodules, hdependencies⟩
  have hclasses : (Outsider.snapshot.classes.filter fun cls =>
      !(Outsider.creator.association.identify ⟨["left", "right"]⟩ cls).isIgnored)
      = Outsider.snapshot.classes.take 3 := by
    decide +kernel
  have hkept : (Outsider.snapshot.dependencies.filter fun d =>
      !Outsider.snapshot.startsAt (fun cls =>
        (Outsider.creator.association.identify ⟨["left", "right"]⟩ cls).isIgnored) d)
      = [⟨Outsider.inside, Outsider.outside, ""⟩, ⟨Outsider.beside, Outsider.inside, ""⟩] := by
    decide +kernel
  rwa [hclasses, hkept] at hbuilt

end Archmap
