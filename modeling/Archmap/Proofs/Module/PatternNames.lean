import Archmap.Proofs.Naming.Scanning
import Archmap.Proofs.Module.Names
import Archmap.Proofs.Module.RootModules

/-!
# Names made by naming patterns

A naming pattern that is not empty makes no empty name: whatever a piece of it contributes for the
identifier of a module has at least one character. So a creator that names modules by a pattern
complains about an empty name only if the pattern itself is empty, and then as soon as there is any
module at all.
-/

namespace Archmap

namespace Creator

variable {id : Identifier} {describe : Group → Description} {groups : List Group}
  {result : Except ModuleError ModuleGraph}

/-- An empty name is reported iff there is one. -/
theorem Decided.emptyName_iff (h : Decided describe groups result) :
    (∃ id, result = .error (.emptyName id)) ↔ ∃ group ∈ groups, (describe group).name = "" := by
  constructor
  · rintro ⟨id, rfl⟩
    cases h with
    | unnamed hleast => exact ⟨_, hleast.1⟩
  · intro hempty
    obtain ⟨group, -, hresult⟩ := h.exists_unnamed hempty
    exact ⟨_, hresult⟩

theorem Decided.least_of_emptyName (h : Decided describe groups (.error (.emptyName id))) :
    ∃ group, Least (·.identifier.parts)
        (fun group => group ∈ groups ∧ (describe group).name = "") group
      ∧ group.identifier = id := by
  cases h with
  | unnamed hleast => exact ⟨_, hleast, rfl⟩

end Creator

/-- Of all identifiers with parts only the empty pattern makes an empty name. Behind a preparation
that succeeds, a creator that names modules by a pattern therefore complains about an empty name iff
the pattern is empty and some class is not ignored, and then about the least identifier that a class
has. -/
theorem modularize_named_by_pattern {m : Type → Type} [Monad m] [LawfulMonad m]
    {creator : Creator m} {before registered : RootNamespaces} {snapshot : Snapshot}
    (hinit : creator.association.init before snapshot = pure (.ok (), registered))
    (text : String) :
    (∀ id ≠ Identifier.ignore, (NamingPattern.ofText text).apply id = "" ↔ text = "")
      ∧ ∃ result,
          (creator.describedBy (.ofPattern (.ofText text))).modularize before snapshot
            = pure (result, registered)
          ∧ ((∃ id, result = .error (.emptyName id)) ↔
              text = "" ∧ ∃ cls ∈ snapshot.classes,
                creator.association.identify registered cls ≠ .ignore)
          ∧ ∀ id, result = .error (.emptyName id) →
              Least Identifier.parts
                (fun id => id ≠ .ignore
                  ∧ ∃ cls ∈ snapshot.classes, creator.association.identify registered cls = id)
                id := by
  have hnames : ∀ id ≠ Identifier.ignore, (NamingPattern.ofText text).apply id = "" ↔ text = "" :=
    fun id hkept => NamingPattern.apply_eq_empty_iff hkept
  let named := creator.describedBy (.ofPattern (.ofText text))
  have hinit' : named.association.init before snapshot = pure (.ok (), registered) := hinit
  obtain ⟨result, hrun, hdecided⟩ := Creator.exists_decided hinit' fun _ _ => rfl
  refine ⟨hnames, result, hrun, ?_, ?_⟩
  · rw [hdecided.emptyName_iff]
    constructor
    · rintro ⟨group, hgroup, hname⟩
      obtain ⟨hkept, cls, hcls, hid⟩ := Creator.exists_group_iff.mp ⟨group, hgroup, rfl⟩
      exact ⟨(hnames _ hkept).mp hname, cls, hcls, hid ▸ hkept⟩
    · rintro ⟨hempty, cls, hcls, hkept⟩
      obtain ⟨group, hgroup, hid⟩ := Creator.exists_group_iff.mpr ⟨hkept, cls, hcls, rfl⟩
      exact ⟨group, hgroup, (hnames _ (hid ▸ hkept)).mpr hempty⟩
  · rintro id rfl
    obtain ⟨group, ⟨⟨hgroup, hname⟩, hleast⟩, rfl⟩ := hdecided.least_of_emptyName
    have hid := Creator.exists_group_iff.mp ⟨group, hgroup, rfl⟩
    have hempty := (hnames _ hid.1).mp hname
    refine ⟨hid, fun other hother hless => ?_⟩
    obtain ⟨group', hgroup', rfl⟩ := Creator.exists_group_iff.mpr hother
    exact hleast group' ⟨hgroup', (hnames _ hother.1).mpr hempty⟩ hless

/-- Without a pattern the first of two modules by root classes has no name. -/
theorem modularize_named_by_pattern_siblings :
    (RootNamespaces.init (m := Id) (fun cls => pure (Siblings.spanning cls)) Siblings.snapshot).run
        = (.ok (), ⟨["p.mod1", "p.mod10"]⟩)
      ∧ ∃ id, (((Creator.ofAssociation (.rootClasses fun cls => pure (Siblings.spanning cls)) :
            Creator Id).describedBy (.ofPattern (.ofText ""))).modularize .empty
              Siblings.snapshot).run.1 = .error (.emptyName id)
          ∧ id.parts = ["p.mod1"] := by
  let creator : Creator Id :=
    .ofAssociation (.rootClasses fun cls => pure (Siblings.spanning cls))
  have hinit : creator.association.init .empty Siblings.snapshot
      = pure (.ok (), ⟨["p.mod1", "p.mod10"]⟩) := Siblings.fits_in
  obtain ⟨-, result, hrun, hempty, hnamed⟩ := modularize_named_by_pattern hinit ""
  have hgrouped : ∃ cls ∈ Siblings.snapshot.classes,
      creator.association.identify ⟨["p.mod1", "p.mod10"]⟩ cls ≠ .ignore := by
    decide +kernel
  obtain ⟨id, rfl⟩ := hempty.mpr ⟨rfl, hgrouped⟩
  obtain ⟨⟨hkept, cls, hcls, rfl⟩, hleast⟩ := hnamed id rfl
  refine ⟨Siblings.fits_in, _, congrArg (fun run => run.run.1) hrun, ?_⟩
  -- any other identifier is greater than that of the first class
  have hfirst : ∀ cls ∈ Siblings.snapshot.classes,
      creator.association.identify ⟨["p.mod1", "p.mod10"]⟩ cls ≠ .ignore →
      (creator.association.identify ⟨["p.mod1", "p.mod10"]⟩ cls).parts = ["p.mod1"]
        ∨ ∃ other ∈ Siblings.snapshot.classes,
            creator.association.identify ⟨["p.mod1", "p.mod10"]⟩ other ≠ .ignore
            ∧ (creator.association.identify ⟨["p.mod1", "p.mod10"]⟩ other).parts
              < (creator.association.identify ⟨["p.mod1", "p.mod10"]⟩ cls).parts := by
    decide +kernel
  refine (hfirst cls hcls hkept).resolve_right ?_
  rintro ⟨other, hother, hkept', hless⟩
  exact hleast _ ⟨hkept', other, hother, rfl⟩ hless

end Archmap
