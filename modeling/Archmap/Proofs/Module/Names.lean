import Archmap.Proofs.Module.Refusal
import Archmap.Proofs.Snapshot.Building

/-!
# Names decide

Once the association is prepared, a creator that describes groups without effects is left with their
names (`Decided`): it makes a module graph iff none is empty and no two are the same. An empty name
is found while groups are described, before any two names are compared, so it is reported even if
names collide further in front. Groups are described and compared in the order of their identifiers;
what is reported is therefore the least group without a name, or else the name of the least group
that has the name of an earlier one.

Nothing is asked of the describer but that it answers for each of the groups, so all of this holds
also of one that looks for a root class and finds it in every group (`exists_decided`).
-/

namespace Archmap

variable {describe : Group → Description} {groups : List Group} {group : Group}

/-! ## The first repeated name -/

/-- Where no identifier occurs twice, modules are refused for the first name that an earlier module
has as well. -/
theorem ModuleGraph.exists_first_repeated {identifiers : List Identifier} {names : List String}
    {modules : List Module} {e : ModuleError} (hnodup : (modules.map Module.identifier).Nodup)
    (hnew : ∀ M ∈ modules, M.identifier ∉ identifiers)
    (h : repetition? identifiers names modules = some e) :
    ∃ front M back, modules = front ++ M :: back ∧ e = .duplicateName M.name
      ∧ (M.name ∈ names ∨ M.name ∈ front.map Module.name)
      ∧ (front.map Module.name).Nodup ∧ ∀ N ∈ front, N.name ∉ names := by
  induction modules generalizing identifiers names with
  | nil => cases h
  | cons M rest ih =>
      obtain ⟨hM, hnodup⟩ := List.nodup_cons.mp hnodup
      obtain ⟨hnewM, hnew⟩ := List.forall_mem_cons.mp hnew
      rw [repetition?, if_neg (by simpa using hnewM)] at h
      split at h
      · rename_i hold
        exact ⟨[], M, rest, rfl, (Option.some.inj h).symm, Or.inl (by simpa using hold),
          List.nodup_nil, List.forall_mem_nil _⟩
      · rename_i hfresh
        have hnew' : ∀ N ∈ rest, N.identifier ∉ M.identifier :: identifiers := by
          intro N hN hmem
          rcases List.mem_cons.mp hmem with heq | hmem
          · exact hM (heq ▸ List.mem_map_of_mem hN)
          · exact hnew N hN hmem
        obtain ⟨front, N, back, rfl, he, hN, hdistinct, hfront⟩ := ih hnodup hnew' h
        simp only [List.mem_cons, not_or] at hN hfront
        refine ⟨M :: front, N, back, rfl, he, ?_, ?_, ?_⟩
        · rw [List.map_cons, List.mem_cons]
          tauto
        · rw [List.map_cons, List.nodup_cons]
          refine ⟨fun hmem => ?_, hdistinct⟩
          obtain ⟨K, hK, heq⟩ := List.mem_map.mp hmem
          exact (hfront K hK).1 heq
        · rw [List.forall_mem_cons]
          exact ⟨by simpa using hfresh, fun K hK => (hfront K hK).2⟩

namespace Creator

/-! ## What names decide -/

/-- One of the groups has the name of this one and is earlier. -/
def Repeats (describe : Group → Description) (groups : List Group) (group : Group) : Prop :=
  ∃ earlier ∈ groups, earlier.identifier.parts < group.identifier.parts
    ∧ (describe earlier).name = (describe group).name

/-- What comes of described groups: the modules, if all have names of their own; a complaint about
the least group without a name, if there is one; or else a complaint about the name of the least
group that repeats one. -/
inductive Decided (describe : Group → Description) (groups : List Group) :
    Except ModuleError ModuleGraph → Prop
  | made {graph : ModuleGraph} (hnamed : ∀ group ∈ groups, (describe group).name ≠ "")
      (hdistinct : (groups.map fun group => (describe group).name).Nodup)
      (hmodules : graph.modules = groups.map fun group => ⟨group, describe group⟩) :
      Decided describe groups (.ok graph)
  | unnamed {group : Group} (hleast : Least (·.identifier.parts)
        (fun group => group ∈ groups ∧ (describe group).name = "") group) :
      Decided describe groups (.error (.emptyName group.identifier))
  | repeated {group : Group} (hnamed : ∀ group ∈ groups, (describe group).name ≠ "")
      (hleast : Least (·.identifier.parts)
        (fun group => group ∈ groups ∧ Repeats describe groups group) group) :
      Decided describe groups (.error (.duplicateName (describe group).name))

theorem Repeats.not_nodup (h : Repeats describe groups group) (hgroup : group ∈ groups) :
    ¬(groups.map fun group => (describe group).name).Nodup := by
  obtain ⟨earlier, hearlier, hless, hname⟩ := h
  intro hnodup
  rw [List.inj_on_of_nodup_map hnodup hearlier hgroup hname] at hless
  exact Std.Irrefl.irrefl _ hless

theorem Decided.isOk_iff {result : Except ModuleError ModuleGraph}
    (h : Decided describe groups result) : (∃ graph, result = .ok graph) ↔
      (∀ group ∈ groups, (describe group).name ≠ "")
        ∧ (groups.map fun group => (describe group).name).Nodup := by
  cases h with
  | made hnamed hdistinct _ => exact iff_of_true ⟨_, rfl⟩ ⟨hnamed, hdistinct⟩
  | unnamed hleast =>
      obtain ⟨⟨hgroup, hempty⟩, -⟩ := hleast
      exact iff_of_false (by simp) fun hnames => hnames.1 _ hgroup hempty
  | repeated _ hleast =>
      obtain ⟨⟨hgroup, hrepeats⟩, -⟩ := hleast
      exact iff_of_false (by simp) fun hnames => hrepeats.not_nodup hgroup hnames.2

theorem Decided.modules_eq {graph : ModuleGraph} (h : Decided describe groups (.ok graph)) :
    graph.modules = groups.map fun group => ⟨group, describe group⟩ := by
  cases h with
  | made _ _ hmodules => exact hmodules

theorem Decided.exists_unnamed {result : Except ModuleError ModuleGraph}
    (h : Decided describe groups result) (hempty : ∃ group ∈ groups, (describe group).name = "") :
    ∃ group, Least (·.identifier.parts)
        (fun group => group ∈ groups ∧ (describe group).name = "") group
      ∧ result = .error (.emptyName group.identifier) := by
  obtain ⟨group, hgroup, hname⟩ := hempty
  cases h with
  | made hnamed _ _ => exact absurd hname (hnamed group hgroup)
  | unnamed hleast => exact ⟨_, hleast, rfl⟩
  | repeated hnamed _ => exact absurd hname (hnamed group hgroup)

theorem Decided.exists_repeated {result : Except ModuleError ModuleGraph}
    (h : Decided describe groups result) (hnamed : ∀ group ∈ groups, (describe group).name ≠ "")
    (hsame : ¬(groups.map fun group => (describe group).name).Nodup) :
    ∃ group, Least (·.identifier.parts)
        (fun group => group ∈ groups ∧ Repeats describe groups group) group
      ∧ result = .error (.duplicateName (describe group).name) := by
  cases h with
  | made _ hdistinct _ => exact absurd hdistinct hsame
  | unnamed hleast => exact absurd hleast.1.2 (hnamed _ hleast.1.1)
  | repeated _ hleast => exact ⟨_, hleast, rfl⟩

theorem Decided.error_eq {e : ModuleError} (h : Decided describe groups (.error e)) :
    (∃ id, e = .emptyName id) ∨ ∃ name, e = .duplicateName name := by
  cases h with
  | unnamed _ => exact Or.inl ⟨_, rfl⟩
  | repeated _ _ => exact Or.inr ⟨_, rfl⟩

/-- Groups that ascend by identifier and all have names are assembled as their names decide. -/
theorem decided_assemble {settings : AggregationSettings} {snapshot : Snapshot}
    (hascending : Ascending (·.identifier.parts) groups)
    (hnamed : ∀ group ∈ groups, (describe group).name ≠ "") :
    Decided describe groups (ModuleGraph.assemble settings snapshot
      (groups.map fun group => ⟨group, describe group⟩)) := by
  have hidentifiers : ((groups.map fun group => Module.mk group (describe group)).map
      Module.identifier).Nodup := by
    rw [List.map_map]
    refine List.Nodup.of_map Identifier.parts ?_
    rw [List.map_map]
    exact hascending.nodup_keys
  rw [ModuleGraph.assemble]
  cases hrepeated : ModuleGraph.repetition? [] []
      (groups.map fun group => Module.mk group (describe group)) with
  | none =>
      refine .made hnamed ?_ rfl
      have hdistinct := (ModuleGraph.repetition?_eq_none.mp hrepeated).2.1
      rwa [List.map_map] at hdistinct
  | some e =>
      obtain ⟨front, M, back, hsplit, rfl, hM, hdistinct, -⟩ :=
        ModuleGraph.exists_first_repeated hidentifiers (by simp) hrepeated
      obtain ⟨front, rest, rfl, rfl, hrest⟩ := List.map_eq_append_iff.mp hsplit
      obtain ⟨group, back, rfl, rfl, rfl⟩ := List.map_eq_cons_iff.mp hrest
      rw [List.map_map] at hM hdistinct
      obtain ⟨-, hbehind, hfront⟩ := List.pairwise_append.mp hascending
      refine .repeated hnamed ⟨⟨by simp, ?_⟩, ?_⟩
      · obtain ⟨earlier, hearlier, hname⟩ := List.mem_map.mp (hM.resolve_left List.not_mem_nil)
        exact ⟨earlier, List.mem_append_left _ hearlier,
          hfront earlier hearlier group List.mem_cons_self, hname⟩
      · rintro other ⟨hother, earlier, hearlier, hearlier', hname⟩ hless
        -- whatever is less than the group stands in front of it, where no name is repeated
        have hother := hascending.mem_front hother hless
        have hearlier := hascending.mem_front hearlier (List.lt_trans hearlier' hless)
        rw [List.inj_on_of_nodup_map hdistinct hearlier hother hname] at hearlier'
        exact Std.Irrefl.irrefl _ hearlier'

/-! ## Describing without effects -/

variable {m : Type → Type} [Monad m]

theorem describeAll_congr {describer describer' : Describer m}
    (h : ∀ group ∈ groups, describer group = describer' group) :
    describeAll describer groups = describeAll describer' groups := by
  induction groups with
  | nil => rfl
  | cons group rest ih =>
      obtain ⟨hgroup, hrest⟩ := List.forall_mem_cons.mp h
      rw [describeAll, describeAll, hgroup, ih hrest]

variable [LawfulMonad m]

/-- The first group without a name ends the description. -/
theorem describeAll_unnamed (h : groups.find? (fun group => (describe group).name = "") = some group) :
    describeAll (.ofGroup describe : Describer m) groups
      = pure (.error (.emptyName group.identifier)) := by
  induction groups with
  | nil => cases h
  | cons other rest ih =>
      by_cases hname : (describe other).name = ""
      · rw [List.find?_cons_of_pos (by simpa using hname), Option.some.injEq] at h
        subst h
        simp [describeAll, Describer.ofGroup, hname]
      · rw [List.find?_cons_of_neg (by simpa using hname)] at h
        simp only [describeAll, ih h]
        simp [Describer.ofGroup, hname, Except.map]

/-- Behind a preparation that succeeds, names decide if each of the groups is described without
effects. -/
theorem exists_decided {creator : Creator m} {before registered : RootNamespaces}
    {snapshot : Snapshot}
    (hinit : creator.association.init before snapshot = pure (.ok (), registered))
    (hdescribe : ∀ group ∈ Creator.groups (creator.association.identify registered)
        snapshot.classes, creator.describe group = pure (.ok (describe group))) :
    ∃ result, creator.modularize before snapshot = pure (result, registered)
      ∧ Decided describe
          (Creator.groups (creator.association.identify registered) snapshot.classes) result := by
  rw [modularize_of_init hinit]
  generalize hgroups : Creator.groups (creator.association.identify registered) snapshot.classes
    = groups at hdescribe ⊢
  have hascending : Ascending (·.identifier.parts) groups := hgroups ▸ groups_ascending
  have hdescribed : describeAll creator.describe groups = describeAll (.ofGroup describe) groups :=
    describeAll_congr hdescribe
  rw [hdescribed]
  cases hfound : groups.find? fun group => (describe group).name = "" with
  | some group =>
      have hempty := List.find?_some hfound
      rw [describeAll_unnamed hfound, pure_bind]
      refine ⟨_, rfl, .unnamed ⟨⟨List.mem_of_find?_eq_some hfound, of_decide_eq_true hempty⟩, ?_⟩⟩
      rintro other ⟨hother, hother'⟩
      exact hascending.not_less_of_find? hfound hother (decide_eq_true hother')
  | none =>
      have hnamed : ∀ group ∈ groups, (describe group).name ≠ "" := by
        simpa using List.find?_eq_none.mp hfound
      rw [describeAll_ofGroup hnamed, pure_bind]
      exact ⟨_, rfl, decided_assemble hascending hnamed⟩

/-- A creator that describes without effects succeeds if no name is empty and no two groups get one
name. -/
theorem exists_modularize_eq {creator : Creator m} {before registered : RootNamespaces}
    {snapshot : Snapshot}
    (hinit : creator.association.init before snapshot = pure (.ok (), registered))
    (hdescribe : creator.describe = .ofGroup describe)
    (hnames : ∀ group ∈ Creator.groups (creator.association.identify registered) snapshot.classes,
      (describe group).name ≠ "")
    (hdistinct : ((Creator.groups (creator.association.identify registered) snapshot.classes).map
      fun group => (describe group).name).Nodup) :
    ∃ graph, creator.modularize before snapshot = pure (.ok graph, registered) := by
  obtain ⟨result, hrun, hdecided⟩ := exists_decided hinit fun group _ => congrFun hdescribe group
  obtain ⟨graph, rfl⟩ := hdecided.isOk_iff.mpr ⟨hnames, hdistinct⟩
  exact ⟨graph, hrun⟩

end Creator

/-- A creator without effects fails for three reasons. Its association may fail to be prepared,
which only one by root classes does. If it does not, a module graph with the described groups for
its modules is made iff all names are there and no two are the same; otherwise the least group
without a name is reported, if there is one, and else the name of the least group that repeats one.
Nothing else is reported. -/
theorem modularize_decided_by_names (association : Association Id) (describe : Group → Description)
    (aggregation : AggregationSettings) (before : RootNamespaces) (snapshot : Snapshot) :
    let creator := ((Creator.ofAssociation association).describedBy
      (.ofGroup describe)).aggregatedBy aggregation
    let prepared := (association.init before snapshot).run
    let groups := Creator.groups (association.identify prepared.2) snapshot.classes
    let result := (creator.modularize before snapshot).run.1
    ((∀ isRoot, association ≠ .rootClasses isRoot) → prepared = (.ok (), before))
      ∧ (∀ e, prepared.1 = .error e → result = .error (.roots e))
      ∧ (prepared.1 = .ok () →
          ((∃ graph, result = .ok graph) ↔
            (∀ group ∈ groups, (describe group).name ≠ "")
              ∧ (groups.map fun group => (describe group).name).Nodup)
          ∧ (∀ graph, result = .ok graph →
              graph.modules = groups.map fun group => ⟨group, describe group⟩)
          ∧ ((∃ group ∈ groups, (describe group).name = "") → ∃ group,
              Least (·.identifier.parts)
                  (fun group => group ∈ groups ∧ (describe group).name = "") group
                ∧ result = .error (.emptyName group.identifier))
          ∧ ((∀ group ∈ groups, (describe group).name ≠ "") →
              ¬(groups.map fun group => (describe group).name).Nodup → ∃ group,
                Least (·.identifier.parts)
                    (fun group => group ∈ groups ∧ Creator.Repeats describe groups group) group
                  ∧ result = .error (.duplicateName (describe group).name))
          ∧ ∀ e, result = .error e →
              (∃ id, e = .emptyName id) ∨ ∃ name, e = .duplicateName name) := by
  intro creator prepared groups result
  refine ⟨fun hnone => ?_, fun e he => ?_, fun hok => ?_⟩
  · cases association with
    | namespaces pattern => rfl
    | assign identify => rfl
    | rootClasses isRoot => exact absurd rfl (hnone isRoot)
  · have hinit : creator.association.init before snapshot = pure (.error e, prepared.2) :=
      Prod.ext he rfl
    exact congrArg (fun run => run.run.1) (Creator.modularize_of_init_error hinit)
  · have hinit : creator.association.init before snapshot = pure (.ok (), prepared.2) :=
      Prod.ext hok rfl
    have hdescribe : ∀ group ∈ groups, creator.describe group = pure (.ok (describe group)) :=
      fun _ _ => rfl
    obtain ⟨result', hrun, hdecided⟩ := Creator.exists_decided hinit hdescribe
    have hresult : result = result' := congrArg (fun run => run.run.1) hrun
    rw [← hresult] at hdecided
    refine ⟨hdecided.isOk_iff, fun graph hgraph => ?_, hdecided.exists_unnamed,
      hdecided.exists_repeated, fun e he => ?_⟩
    · rw [hgraph] at hdecided
      exact hdecided.modules_eq
    · rw [he] at hdecided
      exact hdecided.error_eq

namespace Unnamed

/-- Each class is a module of its own. -/
def identify (cls : Class) : Identifier :=
  (Identifier.ofParts [cls.name.text]).toOption.getD .ignore

/-- The last module has no name, and those in front of it have one name. -/
def label (group : Group) : Description :=
  { name := if group.identifier.parts = ["stray"] then "" else "same" }

def creator : Creator Id :=
  ((Creator.ofAssociation (.assign identify)).describedBy (.ofGroup label)).aggregatedBy {}

end Unnamed

/-- A missing name is reported though two names in front of it collide. -/
theorem modularize_decided_by_names_unnamed :
    (Creator.groups Unnamed.identify TwoModules.snapshot.classes).map (Unnamed.label · |>.name)
        = ["same", "same", "same", ""]
      ∧ ∃ id, (Unnamed.creator.modularize .empty TwoModules.snapshot).run.1
          = .error (.emptyName id) ∧ id.parts = ["stray"] := by
  obtain ⟨-, -, hdecided⟩ := modularize_decided_by_names (.assign Unnamed.identify)
    Unnamed.label {} .empty TwoModules.snapshot
  obtain ⟨-, -, hunnamed, -⟩ := hdecided rfl
  have hnames : (Creator.groups Unnamed.identify TwoModules.snapshot.classes).map
      (Unnamed.label · |>.name) = ["same", "same", "same", ""] := by
    decide +kernel
  have hempty : "" ∈ (Creator.groups Unnamed.identify TwoModules.snapshot.classes).map
      (Unnamed.label · |>.name) := by
    rw [hnames]
    decide
  obtain ⟨group, ⟨⟨-, hname⟩, -⟩, hresult⟩ := hunnamed (List.mem_map.mp hempty)
  refine ⟨hnames, group.identifier, hresult, ?_⟩
  by_contra hother
  rw [Unnamed.label, if_neg hother] at hname
  exact absurd hname (by decide)

end Archmap
