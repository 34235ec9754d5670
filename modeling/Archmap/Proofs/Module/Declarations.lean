import Archmap.Proofs.Association.Registration
import Archmap.Proofs.Module.Names
import Archmap.Proofs.Module.RootModules

/-!
# Modules declared by metadata

A class that carries metadata of a kind declares a module: it is a root, and its first entry of that
kind is what is said of the module (`declarations`). Other entries of the class, and entries of other
kinds on the classes around it, have no say.

Where the declaring classes are separate, each spans a group in which no other class declares
anything, so a group is described by the entry that declares it (`describe_declared`), and never by
an entry made up for want of one. Groups and declarations then correspond one to one with the names
they give (`groups_perm_declarations`), and names decide (`Creator.Decided`).
-/

namespace Archmap

/-- The classes that carry metadata of a kind, each with its first entry of that kind. -/
def declarations (kind : String) (classes : List Class) : List (Class × Metadata) :=
  classes.filterMap fun cls => (cls.metadataOf? kind).map (cls, ·)

variable {kind : String} {nameOf : Metadata → String} {roots : RootNamespaces}
  {classes : List Class} {cls root : Class} {entry : Metadata}
  {group : Group}

theorem mem_declarations : (cls, entry) ∈ declarations kind classes ↔
    cls ∈ classes ∧ cls.metadataOf? kind = some entry := by
  simp [declarations]

theorem map_fst_declarations :
    (declarations kind classes).map Prod.fst = classes.filter (·.hasMetadata kind) := by
  induction classes with
  | nil => rfl
  | cons cls rest ih =>
      rw [declarations] at ih ⊢
      cases hentry : cls.metadataOf? kind <;> simp [Class.hasMetadata, hentry, ih]

/-- What a declaration says of its module. -/
def declaredDescription (nameOf : Metadata → String) (declaration : Class × Metadata) :
    Description :=
  { name := nameOf declaration.2, metadata := some declaration.2 }

/-- What the first declaration among some classes says of their module. -/
def firstDescription (kind : String) (nameOf : Metadata → String) (classes : List Class) :
    Description :=
  ((declarations kind classes).head?.map (declaredDescription nameOf)).getD { name := "" }

/-! ## The declaration of a group -/

section Groups

variable (h : roots.Registers (·.hasMetadata kind) classes)

include h

/-- What a declaring class spans is declared by this class alone. -/
theorem declarations_spanned (hnodup : classes.Nodup) (hroot : root ∈ classes)
    (hentry : root.metadataOf? kind = some entry) :
    declarations kind (classes.filter fun cls => root.Spans cls) = [(root, entry)] := by
  have hcarries : root.hasMetadata kind = true := by rw [Class.hasMetadata, hentry]; rfl
  have hone := h.roots_of_spanned hnodup hroot hcarries
  rw [← map_fst_declarations] at hone
  obtain ⟨⟨cls, entry'⟩, hlist, hcls⟩ := List.map_eq_singleton_iff.mp hone
  obtain rfl : cls = root := hcls
  have hentry' := (mem_declarations.mp (hlist ▸ List.mem_singleton_self _)).2
  rw [hlist, Option.some.inj (hentry.symm.trans hentry')]

/-- Groups and declarations correspond one to one, and a group is described as declared. -/
theorem groups_perm_declarations (nameOf : Metadata → String) (hnodup : classes.Nodup) :
    ((Creator.groups roots.identify classes).map fun group =>
        (group.identifier.parts, group.classes, firstDescription kind nameOf group.classes)).Perm
      ((declarations kind classes).map fun declaration =>
        ([declaration.1.name.enclosingNamespace],
          classes.filter fun cls => declaration.1.Spans cls,
          declaredDescription nameOf declaration)) := by
  have hperm := h.groups_perm.map fun entry => (entry.1, entry.2, firstDescription kind nameOf entry.2)
  rw [← map_fst_declarations, List.map_map, List.map_map, List.map_map] at hperm
  refine hperm.trans (.of_eq (List.map_congr_left fun ⟨root, entry⟩ hdeclared => ?_))
  obtain ⟨hroot, hentry⟩ := mem_declarations.mp hdeclared
  simp only [Function.comp_apply, firstDescription, declarations_spanned h hnodup hroot hentry]
  rfl

theorem exists_declaration_of_group (hnodup : classes.Nodup)
    (hgroup : group ∈ Creator.groups roots.identify classes) :
    ∃ root entry, root ∈ classes ∧ root.metadataOf? kind = some entry
        ∧ group.identifier.parts = [root.name.enclosingNamespace]
        ∧ declarations kind group.classes = [(root, entry)] := by
  obtain ⟨root, hroot, hcarries, hparts, hclasses⟩ := h.mem_groups_iff.mp hgroup
  have hsome : (root.metadataOf? kind).isSome = true := hcarries
  obtain ⟨entry, hentry⟩ := Option.isSome_iff_exists.mp hsome
  refine ⟨root, entry, hroot, hentry, hparts, ?_⟩
  rw [hclasses]
  exact declarations_spanned h hnodup hroot hentry

theorem describe_declared {m : Type → Type} [Monad m] [LawfulMonad m] (hnodup : classes.Nodup)
    (hgroup : group ∈ Creator.groups roots.identify classes) :
    (Creator.ofMetadata kind nameOf : Creator m).describe group
      = pure (.ok (firstDescription kind nameOf group.classes)) := by
  obtain ⟨root, entry, -, hentry, -, hlist⟩ := exists_declaration_of_group h hnodup hgroup
  have hroot : group.classes.filter (·.hasMetadata kind) = [root] := by
    rw [← map_fst_declarations, hlist]
    rfl
  rw [Creator.ofMetadata]
  dsimp only
  rw [ofRoot_eq (m := m) hroot, hentry, firstDescription, hlist]
  rfl

/-- Groups have the names that are declared. -/
theorem names_perm_declarations (nameOf : Metadata → String) (hnodup : classes.Nodup) :
    ((Creator.groups roots.identify classes).map fun group =>
        (firstDescription kind nameOf group.classes).name).Perm
      ((declarations kind classes).map fun declaration => nameOf declaration.2) := by
  have hperm := (groups_perm_declarations h nameOf hnodup).map fun entry => entry.2.2.name
  rwa [List.map_map, List.map_map] at hperm

theorem named_iff_declarations (nameOf : Metadata → String) (hnodup : classes.Nodup) :
    (∀ group ∈ Creator.groups roots.identify classes,
        (firstDescription kind nameOf group.classes).name ≠ "")
      ↔ ∀ declaration ∈ declarations kind classes, nameOf declaration.2 ≠ "" := by
  have hmem := (names_perm_declarations h nameOf hnodup).mem_iff (a := "")
  simpa using not_congr hmem

end Groups

/-! ## What becomes of declared modules -/

section Creator

variable {before : RootNamespaces} {snapshot : Snapshot} {aggregation : AggregationSettings}

/-- If the declaring classes are separate, the names they give decide. -/
theorem modularize_declared
    (hseparate : Separate ((declarations kind snapshot.classes).map Prod.fst)) :
    let creator := (Creator.ofMetadata kind nameOf : Creator Id).aggregatedBy aggregation
    ∃ roots : RootNamespaces, roots.Registers (·.hasMetadata kind) snapshot.classes
      ∧ Creator.Decided (fun group => firstDescription kind nameOf group.classes)
          (Creator.groups roots.identify snapshot.classes)
          (creator.modularize before snapshot).run.1 := by
  intro creator
  rw [map_fst_declarations] at hseparate
  obtain ⟨roots, hroots⟩ := RootNamespaces.exists_init_ok_iff.mpr hseparate
  have hinit : creator.association.init before snapshot = pure (.ok (), roots) :=
    init_rootClasses hroots
  have hregisters := RootNamespaces.init_ok hroots
  have hdescribe : ∀ group ∈ Creator.groups (creator.association.identify roots) snapshot.classes,
      creator.describe group = pure (.ok (firstDescription kind nameOf group.classes)) :=
    fun group hgroup => describe_declared hregisters snapshot.classes_ascending.nodup hgroup
  obtain ⟨result, hrun, hdecided⟩ := Creator.exists_decided hinit hdescribe
  refine ⟨roots, hregisters, ?_⟩
  rw [hrun]
  exact hdecided

/-- If a module graph is made, the declaring classes are separate. -/
theorem separate_of_modularize {graph : ModuleGraph} :
    let creator := (Creator.ofMetadata kind nameOf : Creator Id).aggregatedBy aggregation
    (creator.modularize before snapshot).run.1 = .ok graph →
      Separate ((declarations kind snapshot.classes).map Prod.fst) := by
  intro creator h
  rw [map_fst_declarations, ← RootNamespaces.exists_init_ok_iff]
  generalize hroots : (RootNamespaces.init (m := Id) (fun cls => pure (cls.hasMetadata kind))
    snapshot).run = prepared
  obtain ⟨prepared, roots⟩ := prepared
  cases prepared with
  | ok _ => exact ⟨roots, rfl⟩
  | error e =>
      have hinit : creator.association.init before snapshot = pure (.error e, roots) := hroots
      rw [Creator.modularize_of_init_error hinit] at h
      cases h

theorem exists_modularize_declared_iff :
    let creator := (Creator.ofMetadata kind nameOf : Creator Id).aggregatedBy aggregation
    (∃ graph, (creator.modularize before snapshot).run.1 = .ok graph) ↔
      Separate ((declarations kind snapshot.classes).map Prod.fst)
      ∧ (∀ declaration ∈ declarations kind snapshot.classes, nameOf declaration.2 ≠ "")
      ∧ ((declarations kind snapshot.classes).map fun declaration => nameOf declaration.2).Nodup := by
  intro creator
  have hnodup := snapshot.classes_ascending.nodup
  constructor
  · rintro ⟨graph, hgraph⟩
    have hseparate := separate_of_modularize hgraph
    obtain ⟨roots, hroots, hdecided⟩ := modularize_declared hseparate
    obtain ⟨hnamed, hdistinct⟩ := hdecided.isOk_iff.mp ⟨graph, hgraph⟩
    exact ⟨hseparate, (named_iff_declarations hroots nameOf hnodup).mp hnamed,
      (names_perm_declarations hroots nameOf hnodup).nodup_iff.mp hdistinct⟩
  · rintro ⟨hseparate, hnamed, hdistinct⟩
    obtain ⟨roots, hroots, hdecided⟩ := modularize_declared hseparate
    exact hdecided.isOk_iff.mpr ⟨(named_iff_declarations hroots nameOf hnodup).mpr hnamed,
      (names_perm_declarations hroots nameOf hnodup).nodup_iff.mpr hdistinct⟩

/-- The modules are those declared. -/
theorem modules_perm_declarations {graph : ModuleGraph} :
    let creator := (Creator.ofMetadata kind nameOf : Creator Id).aggregatedBy aggregation
    (creator.modularize before snapshot).run.1 = .ok graph →
      (graph.modules.map fun M => (M.identifier.parts, M.classes, M.description)).Perm
        ((declarations kind snapshot.classes).map fun declaration =>
          ([declaration.1.name.enclosingNamespace],
            snapshot.classes.filter fun cls => declaration.1.Spans cls,
            declaredDescription nameOf declaration)) := by
  intro creator h
  obtain ⟨roots, hroots, hdecided⟩ := modularize_declared (separate_of_modularize h)
  rw [h] at hdecided
  rw [hdecided.modules_eq, List.map_map]
  exact groups_perm_declarations hroots nameOf snapshot.classes_ascending.nodup

/-- If the declaring classes are separate and one gives no name, a module is reported that such a
class declares. -/
theorem modularize_undeclared_name
    (hseparate : Separate ((declarations kind snapshot.classes).map Prod.fst))
    (hempty : ∃ declaration ∈ declarations kind snapshot.classes, nameOf declaration.2 = "") :
    let creator := (Creator.ofMetadata kind nameOf : Creator Id).aggregatedBy aggregation
    ∃ id, (creator.modularize before snapshot).run.1 = .error (.emptyName id)
      ∧ ∃ declaration ∈ declarations kind snapshot.classes,
          id.parts = [declaration.1.name.enclosingNamespace] ∧ nameOf declaration.2 = "" := by
  intro creator
  have hnodup := snapshot.classes_ascending.nodup
  obtain ⟨roots, hroots, hdecided⟩ := modularize_declared hseparate
  have hunnamed : ∃ group ∈ Creator.groups roots.identify snapshot.classes,
      (firstDescription kind nameOf group.classes).name = "" := by
    have hnot := not_congr (named_iff_declarations hroots nameOf hnodup)
    push Not at hnot
    exact hnot.mpr hempty
  obtain ⟨group, ⟨⟨hgroup, hname⟩, -⟩, hresult⟩ := hdecided.exists_unnamed hunnamed
  obtain ⟨root, entry, hroot, hentry, hparts, hlist⟩ :=
    exists_declaration_of_group hroots hnodup hgroup
  rw [firstDescription, hlist] at hname
  exact ⟨group.identifier, hresult, (root, entry), mem_declarations.mpr ⟨hroot, hentry⟩, hparts,
    hname⟩

end Creator

/-- An attribute gives no name iff it is missing or empty. -/
theorem attributeName_eq_empty_iff {key : String} : Creator.attributeName key "" entry = "" ↔
    entry.attributes.get? key = none ∨ entry.attributes.get? key = some "" := by
  rw [Creator.attributeName, String.empty_append]
  cases entry.attributes.get? key <;> simp

/-- Metadata of a kind makes a module graph iff the classes that carry it are separate and the names
made from their first entries are all there and no two the same. Then each of these classes spans
one module, which is described by this first entry as it stands and by the name made from it. If the
name is an attribute, it is the one that the entry has; if the classes are separate and some entry
lacks the attribute or has it empty, a module without a name is reported. -/
theorem declaredModules_exact (kind : String) (aggregation : AggregationSettings)
    (before : RootNamespaces) (snapshot : Snapshot) :
    let declared := declarations kind snapshot.classes
    (∀ nameOf : Metadata → String,
        let result := (((Creator.ofMetadata kind nameOf : Creator Id).aggregatedBy
          aggregation).modularize before snapshot).run.1
        ((∃ graph, result = .ok graph) ↔
            Separate (declared.map Prod.fst)
            ∧ (∀ declaration ∈ declared, nameOf declaration.2 ≠ "")
            ∧ (declared.map fun declaration => nameOf declaration.2).Nodup)
        ∧ ∀ graph, result = .ok graph →
            (graph.modules.map fun M => (M.identifier.parts, M.classes, M.description)).Perm
              (declared.map fun declaration =>
                ([declaration.1.name.enclosingNamespace],
                  snapshot.classes.filter fun cls => declaration.1.Spans cls,
                  { name := nameOf declaration.2, metadata := some declaration.2 })))
      ∧ let result := (((Creator.ofMetadata kind (Creator.attributeName "name" "") :
          Creator Id).aggregatedBy aggregation).modularize before snapshot).run.1
        (∀ graph, result = .ok graph → ∀ M ∈ graph.modules, ∃ declaration ∈ declared,
            M.description.metadata = some declaration.2
            ∧ declaration.2.attributes.get? "name" = some M.name)
        ∧ (Separate (declared.map Prod.fst) →
            (∃ declaration ∈ declared, declaration.2.attributes.get? "name" = none
              ∨ declaration.2.attributes.get? "name" = some "") →
            ∃ id, result = .error (.emptyName id) ∧ ∃ declaration ∈ declared,
              id.parts = [declaration.1.name.enclosingNamespace]
              ∧ (declaration.2.attributes.get? "name" = none
                ∨ declaration.2.attributes.get? "name" = some "")) := by
  intro declared
  refine ⟨fun nameOf => ⟨exists_modularize_declared_iff, fun graph => modules_perm_declarations⟩,
    fun graph hgraph M hM => ?_, fun hseparate hlacking => ?_⟩
  · obtain ⟨-, hnamed, -⟩ := exists_modularize_declared_iff.mp ⟨graph, hgraph⟩
    have hmodule := (modules_perm_declarations hgraph).mem_iff.mp (List.mem_map_of_mem hM)
    obtain ⟨declaration, hdeclared, heq⟩ := List.mem_map.mp hmodule
    have hdescription := (Prod.mk.inj (Prod.mk.inj heq).2).2
    have hname : Creator.attributeName "name" "" declaration.2 = M.name :=
      congrArg Description.name hdescription
    refine ⟨declaration, hdeclared, (congrArg Description.metadata hdescription).symm, ?_⟩
    cases hvalue : declaration.2.attributes.get? "name" with
    | none =>
        exact absurd (attributeName_eq_empty_iff.mpr (Or.inl hvalue)) (hnamed declaration hdeclared)
    | some name => rw [← hname, Creator.attributeName, hvalue, String.empty_append, Option.getD_some]
  · simp only [← attributeName_eq_empty_iff] at hlacking ⊢
    exact modularize_undeclared_name hseparate hlacking

namespace Declared

def named (kind name : String) : Metadata := ⟨kind, .ofList [("name", name)]⟩

/-- One class has two entries of the kind that declares modules. Below it and in front of the entry
of another class there are entries of a kind that declares nothing. -/
def snapshot : Snapshot :=
  .ofClasses [
    ⟨⟨"shop.orders.Info", by decide +kernel⟩, [named "Module" "Orders", named "Module" "Sales"]⟩,
    ⟨⟨"shop.orders.tax.Rate", by decide +kernel⟩, [named "Layer" "core"]⟩,
    ⟨⟨"shop.users.Info", by decide +kernel⟩, [named "Layer" "rim", named "Module" "Users"]⟩]
    (by unfold Ascending; decide +kernel)

def creator : Creator Id :=
  (Creator.ofMetadata "Module" (Creator.attributeName "name" "")).aggregatedBy {}

end Declared

/-- Each class with an entry that declares makes one module, named by its first one. -/
theorem declaredModules_exact_shop : ∃ graph,
    (Declared.creator.modularize .empty Declared.snapshot).run.1 = .ok graph
      ∧ (graph.modules.map fun M => (M.identifier.parts, M.name)).Perm
          [(["shop.orders"], "Orders"), (["shop.users"], "Users")] := by
  obtain ⟨hnamed, -⟩ := declaredModules_exact "Module" {} .empty Declared.snapshot
  obtain ⟨hok, hmodules⟩ := hnamed (Creator.attributeName "name" "")
  obtain ⟨graph, hgraph⟩ := hok.mpr
    ⟨⟨by decide +kernel, by decide +kernel⟩, by decide +kernel, by decide +kernel⟩
  refine ⟨graph, hgraph, ?_⟩
  have hperm := (hmodules graph hgraph).map fun entry => (entry.1, entry.2.2.name)
  rw [List.map_map] at hperm
  have hdeclared : ((declarations "Module" Declared.snapshot.classes).map fun declaration =>
      ([declaration.1.name.enclosingNamespace],
        Creator.attributeName "name" "" declaration.2))
      = [(["shop.orders"], "Orders"), (["shop.users"], "Users")] := by
    decide +kernel
  rw [← hdeclared]
  rwa [List.map_map] at hperm

end Archmap
