import Archmap.Proofs.Module.Conservation
import Archmap.Proofs.Module.Membership
import Archmap.Proofs.Snapshot.Indices

/-!
# The incoming view mirrors the outgoing one

What enters a module is known in two ways. Seen from the module, it is gathered class by class from
the rows of incoming dependencies, those between its own classes left out (`entering_eq_gather`).
Seen from the others, it is what leaves them towards the module: of two modules, each shows the same
class dependencies between them, the ones that cross (`leaving_towards`, `entering_from`).

The two differ only in what starts at no module. A class of the snapshot lies in no module iff it is
ignored (`unowned_iff_ignored`), and so the dependencies of ignored classes are what enters a module
without backing a dependency of another module on it.
-/

namespace Archmap

/-! ## Gathering class by class -/

/-- The dependencies in the rows of a module's classes, without those that have their other end
inside the module too. -/
def Module.gather (M : Module) (rowOf : ClassName → List Dependency)
    (otherEnd : Dependency → ClassName) : List Dependency :=
  collectBy Dependency.key keepFirst <|
    (M.classes.flatMap fun cls => rowOf cls.name).filter fun d => !M.contains (otherEnd d)

namespace Module

variable {M : Module} {snapshot : Snapshot} {d : Dependency}

/-- Where the row of a name holds what has its one end there, all that has this end in the module
and the other outside is gathered. -/
theorem gather_eq {rowOf : ClassName → List Dependency} {oneEnd otherEnd : Dependency → ClassName}
    (hrow : ∀ name, rowOf name = snapshot.dependencies.filter (oneEnd · = name)) :
    M.gather rowOf otherEnd
      = snapshot.dependencies.filter fun d =>
          M.contains (oneEnd d) && !M.contains (otherEnd d) := by
  refine ascending_ext (ascending_collectBy (by intros; rfl) _)
    (snapshot.dependencies_ascending.filter _) fun d => ?_
  rw [gather, Snapshot.mem_distinct, List.mem_filter, List.mem_filter, List.mem_flatMap,
    Bool.and_eq_true, contains_iff_mem, ← and_assoc]
  refine and_congr_left fun _ => ?_
  simp only [hrow, List.mem_filter, decide_eq_true_eq]
  constructor
  · rintro ⟨cls, hcls, hd, hend⟩
    exact ⟨hd, cls, hcls, hend.symm⟩
  · rintro ⟨hd, cls, hcls, hend⟩
    exact ⟨cls, hcls, hd, hend.symm⟩

theorem leaving_eq_gather (M : Module) (snapshot : Snapshot) :
    M.leaving snapshot = M.gather snapshot.outgoingOf (·.target) :=
  (gather_eq snapshot.outgoingOf_eq).symm

theorem entering_eq_gather (M : Module) (snapshot : Snapshot) :
    M.entering snapshot = M.gather snapshot.incomingOf (·.origin) :=
  (gather_eq snapshot.incomingOf_eq).symm

theorem mem_entering : d ∈ M.entering snapshot ↔
    d ∈ snapshot.dependencies ∧ M.contains d.target = true ∧ M.contains d.origin = false := by
  rw [entering, List.mem_filter, Bool.and_eq_true, Bool.not_eq_true']

end Module

namespace ModuleGraph.Partitioned

variable {identify : Class → Identifier} {graph : ModuleGraph} {A B : Module} {d : Dependency}
  {D : ModuleDependency} {name : ClassName}

/-! ## Two modules -/

/-- Of what leads out of a module, whichever its two ends are, what has the other end in another
module. -/
theorem filter_otherEnd (h : graph.Partitioned identify) (hA : A ∈ graph.modules)
    (hB : B ∈ graph.modules) (hne : A ≠ B) (dependencies : List Dependency)
    (oneEnd otherEnd : Dependency → ClassName) :
    (dependencies.filter fun d => A.contains (oneEnd d) && !A.contains (otherEnd d)).filter
        (fun d => B.contains (otherEnd d))
      = dependencies.filter fun d => A.contains (oneEnd d) && B.contains (otherEnd d) := by
  rw [List.filter_filter]
  refine List.filter_congr fun d _ => ?_
  by_cases hname : B.contains (otherEnd d) = true
  · simp [hname, h.not_contains_of_ne hA hB hne hname]
  · simp [hname]

theorem leaving_towards (h : graph.Partitioned identify) (hA : A ∈ graph.modules)
    (hB : B ∈ graph.modules) (hne : A ≠ B) :
    (A.leaving graph.snapshot).filter (B.contains ·.target) = graph.crossing A B :=
  h.filter_otherEnd hA hB hne graph.snapshot.dependencies Dependency.origin Dependency.target

theorem entering_from (h : graph.Partitioned identify) (hA : A ∈ graph.modules)
    (hB : B ∈ graph.modules) (hne : A ≠ B) :
    (B.entering graph.snapshot).filter (A.contains ·.origin) = graph.crossing A B := by
  refine (h.filter_otherEnd hB hA hne.symm graph.snapshot.dependencies Dependency.target
    Dependency.origin).trans ?_
  exact List.filter_congr fun d _ => Bool.and_comm ..

/-! ## One module and all others -/

theorem mem_dependenciesTo (h : graph.Partitioned identify) (hB : B ∈ graph.modules) :
    D ∈ graph.dependenciesTo B ↔
      ∃ A ∈ graph.modules, A ≠ B ∧ graph.crossing A B ≠ [] ∧ D = graph.between A B := by
  rw [dependenciesTo, List.mem_filter, h.mem_dependencies, decide_eq_true_eq]
  constructor
  · rintro ⟨⟨A, hA, B', hB', hne, hsome, rfl⟩, htarget⟩
    cases h.eq_of_identifier hB' hB htarget
    exact ⟨A, hA, hne, hsome, rfl⟩
  · rintro ⟨A, hA, hne, hsome, rfl⟩
    exact ⟨⟨A, hA, B, hB, hne, hsome, rfl⟩, rfl⟩

/-- The dependencies on a module are backed by what enters it and starts in some module. -/
theorem mem_backing (h : graph.Partitioned identify) (hB : B ∈ graph.modules) :
    d ∈ (graph.dependenciesTo B).flatMap ModuleDependency.classDependencies ↔
      d ∈ B.entering graph.snapshot ∧ ∃ A ∈ graph.modules, A.contains d.origin = true := by
  rw [List.mem_flatMap]
  constructor
  · rintro ⟨D, hD, hd⟩
    obtain ⟨A, hA, hne, -, rfl⟩ := (h.mem_dependenciesTo hB).mp hD
    have hfrom : d ∈ (B.entering graph.snapshot).filter (A.contains ·.origin) := by
      rw [h.entering_from hA hB hne]
      exact hd
    obtain ⟨hentering, horigin⟩ := List.mem_filter.mp hfrom
    exact ⟨hentering, A, hA, horigin⟩
  · rintro ⟨hd, A, hA, horigin⟩
    have hne : A ≠ B := by
      rintro rfl
      rw [(Module.mem_entering.mp hd).2.2] at horigin
      cases horigin
    have hcross : d ∈ graph.crossing A B := by
      rw [← h.entering_from hA hB hne]
      exact List.mem_filter.mpr ⟨hd, horigin⟩
    exact ⟨graph.between A B, (h.mem_dependenciesTo hB).mpr
      ⟨A, hA, hne, List.ne_nil_of_mem hcross, rfl⟩, hcross⟩

/-! ## No module -/

/-- The classes of the snapshot that lie in no module are the ignored ones. -/
theorem unowned_iff_ignored (h : graph.Partitioned identify)
    (hname : ∃ cls ∈ graph.snapshot.classes, cls.name = name) :
    (∀ A ∈ graph.modules, A.contains name = false) ↔
      ∃ cls ∈ graph.snapshot.classes, cls.name = name ∧ identify cls = .ignore := by
  constructor
  · intro hunowned
    obtain ⟨cls, hcls, rfl⟩ := hname
    refine ⟨cls, hcls, rfl, ?_⟩
    by_contra hkept
    obtain ⟨A, hA, hid⟩ := h.exists_owner hcls hkept
    have hin := (h.contains_iff hA).mpr ⟨cls, hcls, rfl, hid.symm⟩
    rw [hunowned A hA] at hin
    cases hin
  · rintro ⟨cls, hcls, rfl, hignored⟩ A hA
    by_contra hin
    rw [Bool.not_eq_false, h.contains_iff hA] at hin
    obtain ⟨cls', hcls', hsame, hid⟩ := hin
    obtain rfl : cls' = cls := graph.snapshot.classes_ascending.eq_of_key_eq hcls' hcls
      (congrArg ClassName.text hsame)
    exact h.identifier_ne_ignore hA (hid.symm.trans hignored)

/-- What enters a module and backs no dependency on it starts at an ignored class. -/
theorem mem_entering_unbacked (h : graph.Partitioned identify) (hB : B ∈ graph.modules) :
    (d ∈ B.entering graph.snapshot
        ∧ d ∉ (graph.dependenciesTo B).flatMap ModuleDependency.classDependencies) ↔
      d ∈ graph.snapshot.dependencies ∧ B.contains d.target = true
        ∧ ∃ cls ∈ graph.snapshot.classes, cls.name = d.origin ∧ identify cls = .ignore := by
  rw [h.mem_backing hB, Module.mem_entering]
  constructor
  · rintro ⟨⟨hd, htarget, hout⟩, hunbacked⟩
    refine ⟨hd, htarget, (h.unowned_iff_ignored (graph.snapshot.origins_known d hd)).mp ?_⟩
    intro A hA
    by_contra hin
    exact hunbacked ⟨⟨hd, htarget, hout⟩, A, hA, by simpa using hin⟩
  · rintro ⟨hd, htarget, hignored⟩
    have hunowned := (h.unowned_iff_ignored (graph.snapshot.origins_known d hd)).mpr hignored
    refine ⟨⟨hd, htarget, hunowned B hB⟩, ?_⟩
    rintro ⟨-, A, hA, hin⟩
    rw [hunowned A hA] at hin
    cases hin

end ModuleGraph.Partitioned

/-- In whatever module graph a creator makes of a snapshot, a module is entered by the dependencies
of the snapshot that end at a class of it and start at none, which is what the rows of incoming
dependencies yield class by class; those that start in some module are the ones that back the
dependencies on it, and the others start at the ignored classes. Of two modules, what leaves the one
towards the other is what enters the other from the one. -/
theorem entering_mirrors_leaving {m : Type → Type} [Monad m] [LawfulMonad m] [MonadAttach m]
    [LawfulMonadAttach m] {creator : Creator m} {roots registered : RootNamespaces}
    {snapshot : Snapshot} {graph : ModuleGraph}
    (h : MonadAttach.CanReturn (creator.modularize roots snapshot) (.ok graph, registered)) :
    (∀ B ∈ graph.modules,
        B.entering graph.snapshot = B.gather snapshot.incomingOf (·.origin)
        ∧ B.leaving graph.snapshot = B.gather snapshot.outgoingOf (·.target)
        ∧ ∀ d,
          (d ∈ B.entering graph.snapshot ↔ d ∈ snapshot.dependencies
            ∧ (∃ b ∈ B.classes, b.name = d.target) ∧ ¬∃ b ∈ B.classes, b.name = d.origin)
          ∧ (d ∈ (graph.dependenciesTo B).flatMap ModuleDependency.classDependencies ↔
            d ∈ B.entering graph.snapshot
              ∧ ∃ A ∈ graph.modules, ∃ a ∈ A.classes, a.name = d.origin)
          ∧ ((d ∈ B.entering graph.snapshot
                ∧ d ∉ (graph.dependenciesTo B).flatMap ModuleDependency.classDependencies) ↔
            d ∈ snapshot.dependencies ∧ (∃ b ∈ B.classes, b.name = d.target)
              ∧ ∃ cls ∈ snapshot.classes, cls.name = d.origin
                ∧ creator.association.identify registered cls = .ignore))
      ∧ ∀ A ∈ graph.modules, ∀ B ∈ graph.modules, A ≠ B →
          (A.leaving graph.snapshot).filter (B.contains ·.target)
            = (B.entering graph.snapshot).filter (A.contains ·.origin) := by
  obtain ⟨rfl, hgraph⟩ := Creator.modularize_partitioned h
  refine ⟨fun B hB => ⟨B.entering_eq_gather _, B.leaving_eq_gather _, fun d => ?_⟩,
    fun A hA B hB hne => (hgraph.leaving_towards hA hB hne).trans
      (hgraph.entering_from hA hB hne).symm⟩
  simp only [← Module.contains_iff_mem]
  refine ⟨?_, hgraph.mem_backing hB, hgraph.mem_entering_unbacked hB⟩
  rw [Module.mem_entering, Bool.not_eq_true]

/-- The module of `a` is entered by what `b` depends on and by what the ignored class does. -/
theorem entering_mirrors_leaving_numbering : ∃ graph,
    MonadAttach.CanReturn (TwoModules.numbering.modularize ⟨[]⟩ TwoModules.snapshot)
        (.ok graph, ⟨[]⟩)
      ∧ graph.modules.map (fun M => (M.identifier, M.entering graph.snapshot))
          = [(TwoModules.left,
              [⟨TwoModules.b, TwoModules.a, ""⟩, ⟨TwoModules.stray, TwoModules.a, ""⟩]),
            (TwoModules.right, [⟨TwoModules.a, TwoModules.b, "calls"⟩,
              ⟨TwoModules.a, TwoModules.b, "extends"⟩])]
      ∧ ∀ A ∈ graph.modules, ∀ B ∈ graph.modules, A ≠ B →
          (A.leaving graph.snapshot).filter (B.contains ·.target)
            = (B.entering graph.snapshot).filter (A.contains ·.origin) := by
  obtain ⟨graph, hgraph, hrun⟩ := TwoModules.numbering_modularizes
  have hentering :
      ((TwoModules.numbering.modularize ⟨[]⟩ TwoModules.snapshot).run 0).1.1.toOption.map
        (fun graph => graph.modules.map fun M => (M.identifier, M.entering graph.snapshot))
        = some [(TwoModules.left,
              [⟨TwoModules.b, TwoModules.a, ""⟩, ⟨TwoModules.stray, TwoModules.a, ""⟩]),
            (TwoModules.right, [⟨TwoModules.a, TwoModules.b, "calls"⟩,
              ⟨TwoModules.a, TwoModules.b, "extends"⟩])] := by
    decide +kernel
  rw [hrun] at hentering
  exact ⟨graph, hgraph, Option.some.inj hentering, (entering_mirrors_leaving hgraph).2⟩

end Archmap
