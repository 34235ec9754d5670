import Archmap.Proofs.Association.RootNamespaces
import Archmap.Proofs.Module.Membership
import Archmap.Proofs.Module.Refusal

/-!
# One module for each root class

Where the registration of roots succeeds, the groups are the roots seen otherwise: each root spans
one group, whose identifier is the root's namespace and whose classes are those in it and below it
(`Registers.groups_perm`). A group contains no root but its own, so who asks the classes of a group
for a root, one after the other, finds the root that spans it (`Registers.ofRoot_eq`), and no module
lacks the root class by which it is to be described.
-/

namespace Archmap

variable {isRoot : Class → Bool} {roots : RootNamespaces} {classes : List Class} {group : Group}
  {root cls : Class} {id : Identifier}

theorem Class.spans_self (root : Class) : root.Spans root :=
  List.prefix_refl _

namespace RootNamespaces.Registers

/-! ## Groups -/

theorem membersOf_eq (h : roots.Registers isRoot classes) (hroot : root ∈ classes)
    (hroot' : isRoot root = true) (hid : id.parts = [root.name.enclosingNamespace]) :
    Creator.membersOf roots.identify classes id = classes.filter fun cls => root.Spans cls := by
  refine List.filter_congr fun cls _ => ?_
  rw [decide_eq_decide, ← h.identify_parts_iff hroot hroot', ← hid]
  exact ⟨congrArg Identifier.parts, Identifier.eq_of_parts⟩

theorem mem_groups_iff (h : roots.Registers isRoot classes) :
    group ∈ Creator.groups roots.identify classes ↔
      ∃ root ∈ classes, isRoot root = true
        ∧ group.identifier.parts = [root.name.enclosingNamespace]
        ∧ group.classes = classes.filter fun cls => root.Spans cls := by
  rw [Creator.mem_groups]
  constructor
  · intro hgroup
    obtain ⟨cls, -, hid, hkept⟩ := Creator.exists_class_of_group (Creator.mem_groups.mpr hgroup)
    obtain ⟨root, hroot, hroot', hparts⟩ := h.exists_root_of_identify hkept
    rw [hid] at hparts
    exact ⟨root, hroot, hroot', hparts, hgroup.2.2.trans (h.membersOf_eq hroot hroot' hparts)⟩
  · rintro ⟨root, hroot, hroot', hparts, hclasses⟩
    have hself : root ∈ group.classes := by
      rw [hclasses]
      exact List.mem_filter.mpr ⟨hroot, decide_eq_true root.spans_self⟩
    refine ⟨?_, List.ne_nil_of_mem hself,
      hclasses.trans (h.membersOf_eq hroot hroot' hparts).symm⟩
    rw [Identifier.isIgnored, hparts]
    rfl

/-- Roots and groups correspond one to one. -/
theorem groups_perm (h : roots.Registers isRoot classes) :
    ((Creator.groups roots.identify classes).map fun group =>
        (group.identifier.parts, group.classes)).Perm
      ((classes.filter isRoot).map fun root =>
        ([root.name.enclosingNamespace], classes.filter fun cls => root.Spans cls)) := by
  have hgroups : ((Creator.groups roots.identify classes).map fun group =>
      (group.identifier.parts, group.classes)).Nodup := by
    refine List.Nodup.of_map Prod.fst ?_
    rw [List.map_map]
    exact Creator.groups_ascending.nodup_keys
  have hroots : ((classes.filter isRoot).map fun root =>
      ([root.name.enclosingNamespace], classes.filter fun cls => root.Spans cls)).Nodup := by
    refine List.pairwise_map.mpr (h.apart.imp fun hnot heq => hnot ?_)
    rw [(List.cons.inj (Prod.mk.inj heq).1).1]
    exact overlap_self _
  refine (List.perm_ext_iff_of_nodup hgroups hroots).mpr fun ⟨parts, members⟩ => ?_
  simp only [List.mem_map, List.mem_filter, h.mem_groups_iff, Prod.mk.injEq]
  constructor
  · rintro ⟨group, ⟨root, hroot, hroot', hparts, hclasses⟩, rfl, rfl⟩
    exact ⟨root, ⟨hroot, hroot'⟩, hparts.symm, hclasses.symm⟩
  · rintro ⟨root, ⟨hroot, hroot'⟩, rfl, rfl⟩
    refine ⟨⟨⟨[root.name.enclosingNamespace], ?_⟩, _⟩, ⟨root, hroot, hroot', rfl, rfl⟩, rfl, rfl⟩
    simpa using h.named root hroot hroot'

/-! ## The root of a group -/

theorem roots_of_spanned (h : roots.Registers isRoot classes) (hnodup : classes.Nodup)
    (hroot : root ∈ classes) (hroot' : isRoot root = true) :
    (classes.filter fun cls => root.Spans cls).filter isRoot = [root] := by
  rw [List.filter_filter]
  refine filter_eq_singleton hnodup hroot fun cls hcls => ?_
  rw [Bool.and_eq_true, decide_eq_true_eq]
  constructor
  · rintro ⟨hcls', hspans⟩
    exact (h.eq_of_overlap hroot hroot' hcls hcls'
      (Or.inl (namespaceContains_iff.mpr hspans))).symm
  · rintro rfl
    exact ⟨hroot', cls.spans_self⟩

end RootNamespaces.Registers

section Effects

variable {m : Type → Type} [Monad m] [LawfulMonad m]

theorem findRoot?_pure : findRoot? (fun cls => (pure (isRoot cls) : m Bool)) classes
    = pure (classes.find? isRoot) := by
  induction classes with
  | nil => rfl
  | cons cls rest ih =>
      rw [findRoot?, pure_bind]
      by_cases hcls : isRoot cls = true
      · rw [if_pos hcls, List.find?_cons_of_pos hcls]
      · rw [if_neg hcls, List.find?_cons_of_neg hcls, ih]

theorem ofRoot_eq {describe : Identifier → Class → Description}
    (hroot : group.classes.filter isRoot = [root]) :
    (Describer.ofRoot (fun cls => pure (isRoot cls)) describe : Describer m) group
      = pure (.ok (describe group.identifier root)) := by
  have hfind : group.classes.find? isRoot = some root := by
    rw [← List.head?_filter, hroot, List.head?_cons]
  rw [Describer.ofRoot, findRoot?_pure, pure_bind, hfind]

variable {before : RootNamespaces} {snapshot : Snapshot} {creator : Creator m}

/-- Roots that fit in are registered in whatever monad the predicate is asked. -/
theorem init_rootClasses
    (hinit : (RootNamespaces.init (m := Id) (fun cls => pure (isRoot cls)) snapshot).run
      = (.ok (), roots)) :
    (Association.rootClasses fun cls => (pure (isRoot cls) : m Bool)).init before snapshot
      = pure (.ok (), roots) := by
  rw [RootNamespaces.init] at hinit
  rw [Association.init, RootNamespaces.init, RootNamespaces.register_pure, hinit]

/-- Where the roots fit in, only the steps behind the preparation decide. -/
theorem modularize_rootClasses
    (hinit : (RootNamespaces.init (m := Id) (fun cls => pure (isRoot cls)) snapshot).run
      = (.ok (), roots))
    (hassociation : creator.association = .rootClasses fun cls => pure (isRoot cls)) :
    creator.modularize before snapshot
      = Creator.describeAll creator.describe (Creator.groups roots.identify snapshot.classes)
          >>= fun described =>
            pure (described.bind (ModuleGraph.assemble creator.aggregation snapshot), roots) := by
  rw [Creator.modularize_of_init (hassociation ▸ init_rootClasses hinit), hassociation]
  rfl

variable [MonadAttach m] [LawfulMonadAttach m]

/-- No module lacks a root class, unless the describer says so of a group that has one. -/
theorem not_missingRoot
    (hinit : (RootNamespaces.init (m := Id) (fun cls => pure (isRoot cls)) snapshot).run
      = (.ok (), roots))
    (hassociation : creator.association = .rootClasses fun cls => pure (isRoot cls))
    (hdescribe : ∀ group ∈ Creator.groups roots.identify snapshot.classes,
      ¬MonadAttach.CanReturn (creator.describe group) (.error (.missingRoot id)))
    (registered : RootNamespaces) :
    ¬MonadAttach.CanReturn (creator.modularize before snapshot)
      (.error (.missingRoot id), registered) := by
  rw [modularize_rootClasses hinit hassociation]
  intro h
  obtain ⟨described, hdescribed, h⟩ := LawfulMonadAttach.canReturn_bind_imp' h
  obtain ⟨hassembled, -⟩ := Prod.mk.inj (LawfulMonadAttach.eq_of_canReturn_pure h)
  cases described with
  | error e =>
      cases hassembled
      obtain ⟨group, hgroup, hwhy | hwhy⟩ := Creator.describeAll_error hdescribed
      · exact hdescribe group hgroup hwhy
      · cases hwhy
  | ok modules =>
      rcases ModuleGraph.assemble_error hassembled with ⟨_, hwhy⟩ | ⟨_, hwhy⟩ <;> cases hwhy

end Effects

/-- If the roots of a snapshot fit in, grouping yields one group for each root, identified by the
root's namespace and made of the classes in that namespace and below it. The root is the only one in
its group and the class by which its module is described, and these groups are the modules of
whatever module graph results. No module is refused for want of a root class, be it described by its
root or by anything that answers for every group. -/
theorem rootModules_exact {m : Type → Type} [Monad m] [LawfulMonad m] [MonadAttach m]
    [LawfulMonadAttach m] {isRoot : Class → Bool} {roots : RootNamespaces} {snapshot : Snapshot}
    (hinit : (RootNamespaces.init (m := Id) (fun cls => pure (isRoot cls)) snapshot).run
      = (.ok (), roots)) :
    ((Creator.groups roots.identify snapshot.classes).map fun group =>
          (group.identifier.parts, group.classes)).Perm
        ((snapshot.classes.filter isRoot).map fun root =>
          ([root.name.enclosingNamespace], snapshot.classes.filter fun cls => root.Spans cls))
      ∧ (∀ group ∈ Creator.groups roots.identify snapshot.classes, ∃ root,
          group.classes.filter isRoot = [root]
          ∧ group.identifier.parts = [root.name.enclosingNamespace]
          ∧ ∀ describe : Identifier → Class → Description,
              (Describer.ofRoot (fun cls => pure (isRoot cls)) describe : Describer m) group
                = pure (.ok (describe group.identifier root)))
      ∧ ∀ (creator : Creator m) (before : RootNamespaces),
          creator.association = .rootClasses (fun cls => pure (isRoot cls)) →
          (∀ graph registered,
            MonadAttach.CanReturn (creator.modularize before snapshot) (.ok graph, registered) →
            graph.modules.map Module.group = Creator.groups roots.identify snapshot.classes)
          ∧ ((∃ describe, creator.describe = .ofRoot (fun cls => pure (isRoot cls)) describe)
                ∨ (∀ group e, ¬MonadAttach.CanReturn (creator.describe group) (.error e)) →
              ∀ id registered, ¬MonadAttach.CanReturn (creator.modularize before snapshot)
                (.error (.missingRoot id), registered)) := by
  have hroots : roots.Registers isRoot snapshot.classes := RootNamespaces.init_ok hinit
  have honly : ∀ group ∈ Creator.groups roots.identify snapshot.classes, ∃ root,
      group.classes.filter isRoot = [root]
        ∧ group.identifier.parts = [root.name.enclosingNamespace] := by
    intro group hgroup
    obtain ⟨root, hroot, hroot', hparts, hclasses⟩ := hroots.mem_groups_iff.mp hgroup
    rw [hclasses]
    exact ⟨root, hroots.roots_of_spanned snapshot.classes_ascending.nodup hroot hroot', hparts⟩
  refine ⟨hroots.groups_perm, fun group hgroup => ?_, fun creator before hassociation => ⟨?_, ?_⟩⟩
  · obtain ⟨root, hfilter, hparts⟩ := honly group hgroup
    exact ⟨root, hfilter, hparts, fun _ => ofRoot_eq hfilter⟩
  · intro graph registered h
    obtain ⟨rfl, hgraph⟩ := Creator.modularize_partitioned h
    rw [modularize_rootClasses hinit hassociation] at h
    obtain ⟨_, -, h⟩ := LawfulMonadAttach.canReturn_bind_imp' h
    obtain ⟨-, rfl⟩ := Prod.mk.inj (LawfulMonadAttach.eq_of_canReturn_pure h)
    rw [hgraph.groups, hassociation]
    rfl
  · rintro hdescribe id registered
    refine not_missingRoot hinit hassociation (fun group hgroup h => ?_) registered
    rcases hdescribe with ⟨describe, hdescribe⟩ | hdescribe
    · obtain ⟨root, hfilter, -⟩ := honly group hgroup
      rw [hdescribe, ofRoot_eq hfilter] at h
      cases LawfulMonadAttach.eq_of_canReturn_pure h
    · exact hdescribe group _ h

namespace Siblings

/-- Two roots whose namespaces begin alike, a class below one of them and a class of no root. -/
def snapshot : Snapshot where
  classes := [⟨⟨"p.mod1.A", by decide +kernel⟩, []⟩, ⟨⟨"p.mod1.Root", by decide +kernel⟩, []⟩,
    ⟨⟨"p.mod1.sub.B", by decide +kernel⟩, []⟩, ⟨⟨"p.mod10.Root", by decide +kernel⟩, []⟩,
    ⟨⟨"q.C", by decide +kernel⟩, []⟩]
  dependencies := []
  classes_ascending := by unfold Ascending; decide +kernel
  dependencies_ascending := .nil
  origins_known := List.forall_mem_nil _

def spanning (cls : Class) : Bool := cls.name.simpleName = "Root"

theorem fits_in : (RootNamespaces.init (m := Id) (fun cls => pure (spanning cls)) snapshot).run
    = (.ok (), ⟨["p.mod1", "p.mod10"]⟩) := by
  decide +kernel

end Siblings

theorem rootModules_exact_siblings :
    (RootNamespaces.init (m := Id) (fun cls => pure (Siblings.spanning cls)) Siblings.snapshot).run
        = (.ok (), ⟨["p.mod1", "p.mod10"]⟩)
      ∧ ((Creator.groups (RootNamespaces.identify ⟨["p.mod1", "p.mod10"]⟩)
            Siblings.snapshot.classes).map fun group =>
          (group.identifier.parts, group.classes.map (·.name.text))).Perm
        [(["p.mod1"], ["p.mod1.A", "p.mod1.Root", "p.mod1.sub.B"]),
          (["p.mod10"], ["p.mod10.Root"])] := by
  have hperm := ((rootModules_exact (m := Id) Siblings.fits_in).1).map
    fun entry => (entry.1, entry.2.map (·.name.text))
  have hspanned : (((Siblings.snapshot.classes.filter Siblings.spanning).map fun root =>
      ([root.name.enclosingNamespace],
        Siblings.snapshot.classes.filter fun cls => root.Spans cls)).map
          fun entry => (entry.1, entry.2.map (·.name.text)))
      = [(["p.mod1"], ["p.mod1.A", "p.mod1.Root", "p.mod1.sub.B"]),
          (["p.mod10"], ["p.mod10.Root"])] := by
    decide +kernel
  rw [hspanned, List.map_map] at hperm
  exact ⟨Siblings.fits_in, hperm⟩

end Archmap
