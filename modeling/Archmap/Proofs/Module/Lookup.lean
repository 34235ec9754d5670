import Archmap.Proofs.Module.Indices
import Archmap.Proofs.Module.Refusal

/-!
# Looking up modules

No two modules of a graph have one identifier, since groups ascend by identifier, and no two have one
name, since otherwise nothing would have been assembled (`Creator.modularize_names_nodup`). Therefore
a look-up by either finds a module iff there is one with just this identifier or name, and it finds
the only one (`byParts?_eq_some`, `byName?_eq_some`); and names are as many as modules
(`length_names`).

A look-up may search through the modules, or it may go through a table from identifiers or names to
positions that was filled before the modules got their dependencies (`positionsBy`). As long as
modules stay where they are, both find the same.
-/

namespace Archmap

variable {parts : List String} {id : Identifier} {name : String} {M : Module} {graph : ModuleGraph}
  {identify : Class → Identifier}

/-- No two modules of what a creator makes have one name. -/
theorem Creator.modularize_names_nodup {m : Type → Type} [Monad m] [LawfulMonad m] [MonadAttach m]
    [LawfulMonadAttach m] {creator : Creator m} {roots registered : RootNamespaces}
    {snapshot : Snapshot}
    (h : MonadAttach.CanReturn (creator.modularize roots snapshot) (.ok graph, registered)) :
    (graph.modules.map Module.name).Nodup := by
  obtain ⟨modules, -, hassembled⟩ := modularize_assembles h
  rw [ModuleGraph.assemble_ok hassembled]
  exact (ModuleGraph.assemble_eq_ok_iff.mp ⟨graph, hassembled⟩).2

namespace ModuleGraph

/-! ## By identifier -/

theorem byParts?_of_ofParts (h : Identifier.ofParts parts = .ok id) :
    graph.byParts? parts = graph.get? id := by
  rw [byParts?, h]

/-- Parts that identify no module are not looked for. -/
theorem byParts?_eq_none (h : parts = [] ∨ "" ∈ parts) : graph.byParts? parts = none := by
  rw [byParts?]
  split
  · rename_i id hid
    obtain ⟨hne, rfl⟩ := Identifier.ofParts_eq_ok_iff.mp hid
    exact absurd h (not_or.mpr ⟨hne, fun hempty => id.proper "" hempty rfl⟩)
  · rfl

theorem Partitioned.byParts?_eq_some (h : graph.Partitioned identify) :
    graph.byParts? parts = some M ↔ M ∈ graph.modules ∧ M.identifier.parts = parts := by
  constructor
  · intro hfound
    rw [byParts?] at hfound
    split at hfound
    · rename_i id hid
      obtain ⟨hM, rfl⟩ := h.get?_eq_some.mp hfound
      exact ⟨hM, (Identifier.ofParts_eq_ok_iff.mp hid).2⟩
    · cases hfound
  · rintro ⟨hM, rfl⟩
    have hne : M.identifier.parts ≠ [] := fun hnil =>
      h.identifier_ne_ignore hM (Identifier.eq_of_parts hnil)
    rw [byParts?_of_ofParts (Identifier.ofParts_eq_ok_iff.mpr ⟨hne, rfl⟩)]
    exact h.get?_eq_some.mpr ⟨hM, rfl⟩

/-- Just the module that is found has the parts. -/
theorem Partitioned.filter_parts (h : graph.Partitioned identify) (parts : List String) :
    (graph.modules.filter fun M => M.identifier.parts = parts) = (graph.byParts? parts).toList := by
  have hnodup := h.modules_ascending.nodup_keys
  have hfound : (graph.modules.find? fun M => M.identifier.parts = parts) = graph.byParts? parts :=
    Option.ext fun M => (find?_key_eq_some hnodup).trans h.byParts?_eq_some.symm
  rw [filter_key_eq hnodup, hfound]

theorem byParts_eq (graph : ModuleGraph) (parts : List String) :
    graph.byParts parts = (graph.byParts? parts).elim (.error (.identifier parts)) .ok := by
  rw [byParts]
  cases graph.byParts? parts <;> rfl

/-! ## By name -/

theorem byName?_eq_some (h : (graph.modules.map Module.name).Nodup) :
    graph.byName? name = some M ↔ M ∈ graph.modules ∧ M.name = name :=
  find?_key_eq_some h

theorem byName_eq (graph : ModuleGraph) (name : String) :
    graph.byName name = (graph.byName? name).elim (.error (.name name)) .ok := by
  rw [byName]
  cases graph.byName? name <;> rfl

/-- The names are those of the modules. -/
theorem names_perm (h : (graph.modules.map Module.name).Nodup) :
    graph.names.Perm (graph.modules.map Module.name) := by
  have hascending : Ascending (fun name : String => name) graph.names :=
    ascending_collectBy (fun _ _ => rfl) _
  refine (List.perm_ext_iff_of_nodup hascending.nodup h).mpr fun name => ?_
  exact mem_collectBy_iff fun _ _ _ _ heq => heq

theorem length_names (h : (graph.modules.map Module.name).Nodup) :
    graph.names.length = graph.modules.length := by
  rw [(names_perm h).length_eq, List.length_map]

end ModuleGraph

/-- In whatever module graph a creator makes of a snapshot, a look-up by the parts of an identifier or
by a name finds a module iff one has just these parts or this name, and there is no other. Parts are
looked up as the identifier that they make, and in vain if they make none. A look-up that has to
succeed gives the same module or complains about its key. No two modules share a name. Tables from
identifiers and names to positions lead to the same modules. -/
theorem lookups_exact {m : Type → Type} [Monad m] [LawfulMonad m] [MonadAttach m]
    [LawfulMonadAttach m] {creator : Creator m} {roots registered : RootNamespaces}
    {snapshot : Snapshot} {graph : ModuleGraph}
    (h : MonadAttach.CanReturn (creator.modularize roots snapshot) (.ok graph, registered)) :
    (∀ parts M, graph.byParts? parts = some M ↔ M ∈ graph.modules ∧ M.identifier.parts = parts)
      ∧ (∀ parts, (graph.modules.filter fun M => M.identifier.parts = parts)
          = (graph.byParts? parts).toList)
      ∧ (∀ parts id, Identifier.ofParts parts = .ok id → graph.byParts? parts = graph.get? id)
      ∧ (∀ parts, parts = [] ∨ "" ∈ parts → graph.byParts? parts = none)
      ∧ (∀ name M, graph.byName? name = some M ↔ M ∈ graph.modules ∧ M.name = name)
      ∧ (∀ name, (graph.modules.filter fun M => M.name = name) = (graph.byName? name).toList)
      ∧ (∀ parts, graph.byParts parts
          = (graph.byParts? parts).elim (.error (.identifier parts)) .ok)
      ∧ (∀ name, graph.byName name = (graph.byName? name).elim (.error (.name name)) .ok)
      ∧ graph.names.length = graph.modules.length
      ∧ (∀ id, graph.get? id
          = (positionsBy Module.identifier graph.modules id).bind (graph.modules[·]?))
      ∧ ∀ name, graph.byName? name
          = (positionsBy Module.name graph.modules name).bind (graph.modules[·]?) := by
  obtain ⟨-, hgraph⟩ := Creator.modularize_partitioned h
  have hnames := Creator.modularize_names_nodup h
  exact ⟨fun parts M => hgraph.byParts?_eq_some, hgraph.filter_parts,
    fun parts id => ModuleGraph.byParts?_of_ofParts, fun parts => ModuleGraph.byParts?_eq_none,
    fun name M => ModuleGraph.byName?_eq_some hnames, filter_key_eq hnames,
    graph.byParts_eq, graph.byName_eq, ModuleGraph.length_names hnames,
    find?_eq_positionsBy hgraph.identifiers_nodup, find?_eq_positionsBy hnames⟩

/-- The module `left` is found by its identifier and its name, and nothing by an empty part. -/
theorem lookups_exact_numbering : ∃ graph,
    MonadAttach.CanReturn (TwoModules.numbering.modularize ⟨[]⟩ TwoModules.snapshot)
        (.ok graph, ⟨[]⟩)
      ∧ graph.names.length = 2
      ∧ (∃ M, graph.byParts? ["left"] = some M ∧ graph.byName? "module 0" = some M)
      ∧ graph.byParts? ["left", ""] = none
      ∧ graph.byName "module 2" = .error (.name "module 2") := by
  obtain ⟨graph, hgraph, hrun⟩ := TwoModules.numbering_modularizes
  have hkeys : ((TwoModules.numbering.modularize ⟨[]⟩ TwoModules.snapshot).run 0).1.1.toOption.map
      (fun graph => graph.modules.map fun M => (M.identifier.parts, M.name))
        = some [(["left"], "module 0"), (["right"], "module 1")] := by
    decide +kernel
  rw [hrun] at hkeys
  have hlisted : (graph.modules.map fun M => (M.identifier.parts, M.name))
      = [(["left"], "module 0"), (["right"], "module 1")] := Option.some.inj hkeys
  obtain ⟨hparts, -, -, hnone, hname, -, -, hbyName, hlength, -⟩ := lookups_exact hgraph
  refine ⟨graph, hgraph, ?_, ?_, hnone _ (Or.inr (by decide)), ?_⟩
  · have hcount := congrArg List.length hlisted
    rwa [List.length_map, ← hlength] at hcount
  · obtain ⟨M, hM, hkey⟩ := List.mem_map.mp (hlisted ▸ List.mem_cons_self ..)
    obtain ⟨hleft, hfirst⟩ := Prod.mk.inj hkey
    exact ⟨M, (hparts _ M).mpr ⟨hM, hleft⟩, (hname _ M).mpr ⟨hM, hfirst⟩⟩
  · rw [hbyName]
    cases hfound : graph.byName? "module 2" with
    | none => rfl
    | some M =>
        obtain ⟨hM, hother⟩ := (hname _ M).mp hfound
        have hmem := hlisted ▸ List.mem_map_of_mem hM
        simp [hother] at hmem

end Archmap
