import Archmap.Proofs.Module.Partition

/-!
# Why no module graph is made

The preparation of the association can fail. Behind one that succeeds, two steps can fail. Describing
the groups fails with what the describer says of some group or because a name is empty
(`describeAll_error`). Assembling fails iff two of the modules have one identifier or one name
(`assemble_eq_ok_iff`).
-/

namespace Archmap

/-! ## Describing -/

namespace Creator

variable {m : Type → Type} [Monad m] [LawfulMonad m]

theorem describeAll_error [MonadAttach m] [LawfulMonadAttach m] {describe : Describer m}
    {groups : List Group} {e : ModuleError}
    (h : MonadAttach.CanReturn (describeAll describe groups) (.error e)) :
    ∃ group ∈ groups,
      MonadAttach.CanReturn (describe group) (.error e) ∨ e = .emptyName group.identifier := by
  induction groups with
  | nil => cases LawfulMonadAttach.eq_of_canReturn_pure h
  | cons group rest ih =>
      obtain ⟨e', hdescribed, h⟩ | ⟨description, -, ⟨-, h⟩ | ⟨-, others, hrest, h⟩⟩ :=
        describeAll_cons h
      · cases h
        exact ⟨group, List.mem_cons_self, Or.inl hdescribed⟩
      · cases h
        exact ⟨group, List.mem_cons_self, Or.inr rfl⟩
      · cases others with
        | ok others => cases h
        | error e' =>
            cases h
            obtain ⟨other, hother, hwhy⟩ := ih hrest
            exact ⟨other, List.mem_cons_of_mem group hother, hwhy⟩

/-- A describer that answers without effects and never gives an empty name describes all groups. -/
theorem describeAll_ofGroup {describe : Group → Description} {groups : List Group}
    (hnames : ∀ group ∈ groups, (describe group).name ≠ "") :
    describeAll (.ofGroup describe : Describer m) groups
      = pure (.ok (groups.map fun group => ⟨group, describe group⟩)) := by
  induction groups with
  | nil => rfl
  | cons group rest ih =>
      obtain ⟨hname, hrest⟩ := List.forall_mem_cons.mp hnames
      simp only [describeAll, ih hrest]
      simp [Describer.ofGroup, hname, Except.map]

end Creator

/-! ## Assembling -/

namespace ModuleGraph

variable {identifiers : List Identifier} {names : List String} {modules : List Module}
  {e : ModuleError}

theorem repetition?_eq_some (h : repetition? identifiers names modules = some e) :
    (∃ id, e = .duplicateIdentifier id) ∨ ∃ name, e = .duplicateName name := by
  induction modules generalizing identifiers names with
  | nil => cases h
  | cons M rest ih =>
      rw [repetition?] at h
      split at h
      · exact Or.inl ⟨_, (Option.some.inj h).symm⟩
      · split at h
        · exact Or.inr ⟨_, (Option.some.inj h).symm⟩
        · exact ih h

theorem repetition?_eq_none : repetition? identifiers names modules = none ↔
    ((modules.map Module.identifier).Nodup ∧ ∀ M ∈ modules, M.identifier ∉ identifiers)
      ∧ (modules.map Module.name).Nodup ∧ ∀ M ∈ modules, M.name ∉ names := by
  induction modules generalizing identifiers names with
  | nil => simp [repetition?]
  | cons M rest ih =>
      rw [repetition?]
      split
      · rename_i hold
        simp_all
      · split
        · rename_i hold
          simp_all
        · rename_i hnew hnew'
          rw [ih]
          simp only [List.contains_eq_mem, decide_eq_true_eq] at hnew hnew'
          -- what is left shifts the first module between the two lists it is compared with
          simp only [List.map_cons, List.nodup_cons, List.mem_map, List.mem_cons]
          grind

variable {settings : AggregationSettings} {snapshot : Snapshot}

theorem assemble_eq_ok_iff : (∃ graph, assemble settings snapshot modules = .ok graph) ↔
    (modules.map Module.identifier).Nodup ∧ (modules.map Module.name).Nodup := by
  have hnone : repetition? [] [] modules = none ↔
      (modules.map Module.identifier).Nodup ∧ (modules.map Module.name).Nodup := by
    rw [repetition?_eq_none]
    simp
  rw [← hnone, assemble]
  cases repetition? [] [] modules with
  | none => simp
  | some e => simp

theorem assemble_error (h : assemble settings snapshot modules = .error e) :
    (∃ id, e = .duplicateIdentifier id) ∨ ∃ name, e = .duplicateName name := by
  rw [assemble] at h
  split at h
  · rename_i hrepeated
    cases h
    exact repetition?_eq_some hrepeated
  · cases h

end ModuleGraph

/-! ## Both steps -/

namespace Creator

variable {m : Type → Type} [Monad m] [LawfulMonad m] {creator : Creator m}
  {roots registered : RootNamespaces} {snapshot : Snapshot}

/-- Behind a preparation that succeeds, describing and assembling decide. -/
theorem modularize_of_init
    (hinit : creator.association.init roots snapshot = pure (.ok (), registered)) :
    creator.modularize roots snapshot
      = describeAll creator.describe
            (groups (creator.association.identify registered) snapshot.classes)
          >>= fun described =>
            pure (described.bind (ModuleGraph.assemble creator.aggregation snapshot),
              registered) := by
  rw [modularize, hinit, pure_bind]

/-- A preparation that fails decides. -/
theorem modularize_of_init_error {e : RootError}
    (hinit : creator.association.init roots snapshot = pure (.error e, registered)) :
    creator.modularize roots snapshot = pure (.error (.roots e), registered) := by
  rw [modularize, hinit, pure_bind]

end Creator

end Archmap
