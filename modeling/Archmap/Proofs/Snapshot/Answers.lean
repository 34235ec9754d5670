import Mathlib.Algebra.GroupWithZero.Nat
import Mathlib.Data.Finset.Card
import Mathlib.Data.List.Find
import Archmap.Proofs.Snapshot.Indices

/-!
# What a snapshot answers

Lists of classes and dependencies make a snapshot iff no class is listed twice and no dependency
starts at an unlisted class. What it then answers about classes and dependencies is told by the
lists (`Answers`), although it looks classes up by name, outgoing dependencies by the position of a
class and incoming ones by the name of a target. The two tables of dependencies hold the same
dependencies, each in one row.
-/

namespace Archmap

namespace Snapshot

variable {snapshot : Snapshot} {classes : List Class} {dependencies : List Dependency}
  {result : Except SnapshotError Snapshot} {name : ClassName} {cls : Class} {d : Dependency}

/-! ## Whether a snapshot is made -/

theorem Makes.isOk_iff (h : Makes classes dependencies result) : (∃ snapshot, result = .ok snapshot) ↔
    (classes.map Class.name).Nodup ∧ ∀ d ∈ dependencies, d.origin ∈ classes.map Class.name := by
  cases h with
  | duplicate hleast =>
      exact iff_of_false (by simp) fun hgood => not_nodup_of_repeated hleast.1 hgood.1
  | stray _ hleast => exact iff_of_false (by simp) fun hgood => hleast.1.2 (hgood.2 _ hleast.1.1)
  | built hnodup hknown _ _ => exact iff_of_true ⟨_, rfl⟩ ⟨hnodup, hknown⟩

theorem Makes.exists_repeated (h : Makes classes dependencies result)
    (hrepeated : ¬(classes.map Class.name).Nodup) :
    ∃ name, Least ClassName.text (fun name => 1 < (classes.map Class.name).count name) name
      ∧ result = .error (.duplicateClass name) := by
  cases h with
  | duplicate hleast => exact ⟨_, hleast, rfl⟩
  | stray hnodup _ => exact absurd hnodup hrepeated
  | built hnodup _ _ _ => exact absurd hnodup hrepeated

theorem Makes.exists_stray (h : Makes classes dependencies result)
    (hnodup : (classes.map Class.name).Nodup)
    (hstray : ∃ d ∈ dependencies, d.origin ∉ classes.map Class.name) :
    ∃ d, Least Dependency.key
        (fun d => d ∈ dependencies ∧ d.origin ∉ classes.map Class.name) d
      ∧ result = .error (.unknownOrigin d) := by
  cases h with
  | duplicate hleast => exact absurd hnodup (not_nodup_of_repeated hleast.1)
  | stray _ hleast => exact ⟨_, hleast, rfl⟩
  | built _ hknown _ _ =>
      obtain ⟨d, hd, hunknown⟩ := hstray
      exact absurd (hknown d hd) hunknown

theorem Makes.mem_iff (h : Makes classes dependencies (.ok snapshot)) :
    (∀ cls, cls ∈ snapshot.classes ↔ cls ∈ classes)
      ∧ ∀ d, d ∈ snapshot.dependencies ↔ d ∈ dependencies := by
  cases h with
  | built _ _ hclasses hdependencies => exact ⟨hclasses, hdependencies⟩

/-! ## Looking up -/

theorem get?_eq_some : snapshot.get? name = some cls ↔ cls ∈ snapshot.classes ∧ cls.name = name := by
  have hkeys : snapshot.get? name = snapshot.classes.find? fun cls => cls.name.text = name.text :=
    List.find?_congr fun cls _ => decide_eq_decide.mpr ClassName.text_injective.eq_iff.symm
  rw [hkeys, snapshot.classes_ascending.find?_eq_some, ClassName.text_injective.eq_iff]

theorem contains_iff : snapshot.contains name = true ↔ ∃ cls ∈ snapshot.classes, cls.name = name := by
  simp [contains]

theorem mem_outgoingOf :
    d ∈ snapshot.outgoingOf name ↔ d ∈ snapshot.dependencies ∧ d.origin = name := by
  rw [outgoingOf_eq, mem_dependenciesFrom]

theorem mem_incomingOf :
    d ∈ snapshot.incomingOf name ↔ d ∈ snapshot.dependencies ∧ d.target = name := by
  rw [incomingOf_eq, dependenciesTo, List.mem_filter, decide_eq_true_eq]

/-- What a snapshot answers, told by the lists that it was made of. -/
structure Answers (classes : List Class) (dependencies : List Dependency) (snapshot : Snapshot) :
    Prop where
  classes_ascending : Ascending (·.name.text) snapshot.classes
  mem_classes : ∀ cls, cls ∈ snapshot.classes ↔ cls ∈ classes
  get?_eq_some : ∀ name cls,
    snapshot.get? name = some cls ↔ cls ∈ snapshot.classes ∧ cls.name = name
  contains_iff : ∀ name, snapshot.contains name = true ↔ ∃ cls ∈ snapshot.classes, cls.name = name
  /-- The selected dependencies are those found in the table. -/
  outgoingOf_eq : ∀ name, snapshot.outgoingOf name = snapshot.dependenciesFrom name
  incomingOf_eq : ∀ name, snapshot.incomingOf name = snapshot.dependenciesTo name
  outgoing_ascending : ∀ name, Ascending Dependency.key (snapshot.outgoingOf name)
  incoming_ascending : ∀ name, Ascending Dependency.key (snapshot.incomingOf name)
  mem_outgoing : ∀ name d, d ∈ snapshot.outgoingOf name ↔ d ∈ dependencies ∧ d.origin = name
  mem_incoming : ∀ name d, d ∈ snapshot.incomingOf name ↔ d ∈ dependencies ∧ d.target = name
  count_eq : (snapshot.outgoing.map List.length).sum = snapshot.dependencies.length
  /-- As many dependencies are counted as the list has that are different from each other. -/
  length_dependencies : snapshot.dependencies.length = dependencies.toFinset.card
  one_outgoing : ∀ d ∈ dependencies, ∃! name, d ∈ snapshot.outgoingOf name
  one_incoming : ∀ d ∈ dependencies, ∃! name, d ∈ snapshot.incomingOf name

theorem Makes.answers (h : Makes classes dependencies (.ok snapshot)) :
    Answers classes dependencies snapshot := by
  obtain ⟨hclasses, hdependencies⟩ := h.mem_iff
  have houtgoing : ∀ name d,
      d ∈ snapshot.outgoingOf name ↔ d ∈ dependencies ∧ d.origin = name := by
    intro name d
    rw [mem_outgoingOf, hdependencies]
  have hincoming : ∀ name d,
      d ∈ snapshot.incomingOf name ↔ d ∈ dependencies ∧ d.target = name := by
    intro name d
    rw [mem_incomingOf, hdependencies]
  constructor
  case classes_ascending => exact snapshot.classes_ascending
  case mem_classes => exact hclasses
  case get?_eq_some => exact fun name cls => get?_eq_some
  case contains_iff => exact fun name => contains_iff
  case outgoingOf_eq => exact snapshot.outgoingOf_eq
  case incomingOf_eq => exact snapshot.incomingOf_eq
  case outgoing_ascending =>
    intro name
    rw [outgoingOf_eq]
    exact snapshot.dependencies_ascending.filter _
  case incoming_ascending =>
    intro name
    rw [incomingOf_eq]
    exact snapshot.dependencies_ascending.filter _
  case mem_outgoing => exact houtgoing
  case mem_incoming => exact hincoming
  case count_eq => rw [← List.length_flatten, flatten_outgoing]
  case length_dependencies =>
    have hsame : snapshot.dependencies.toFinset = dependencies.toFinset := by
      ext d
      rw [List.mem_toFinset, List.mem_toFinset, hdependencies]
    rw [← hsame, List.toFinset_card_of_nodup snapshot.dependencies_ascending.nodup]
  case one_outgoing =>
    intro d hd
    refine ⟨d.origin, (houtgoing _ d).mpr ⟨hd, rfl⟩, fun name hname => ?_⟩
    exact ((houtgoing name d).mp hname).2.symm
  case one_incoming =>
    intro d hd
    refine ⟨d.target, (hincoming _ d).mpr ⟨hd, rfl⟩, fun name hname => ?_⟩
    exact ((hincoming name d).mp hname).2.symm

/-- Lists of classes and dependencies make a snapshot iff no class is listed twice and every
dependency starts at a listed one. Otherwise the least name listed twice is reported, or if there is
none, the least dependency that starts elsewhere. The snapshot answers as the lists say, also about
classes that it does not have. -/
theorem build_answers (classes : List Class) (dependencies : List Dependency) :
    ((∃ snapshot, build classes dependencies = .ok snapshot) ↔
        (classes.map Class.name).Nodup
          ∧ ∀ d ∈ dependencies, d.origin ∈ classes.map Class.name)
      ∧ (¬(classes.map Class.name).Nodup → ∃ name,
          Least ClassName.text (fun name => 1 < (classes.map Class.name).count name) name
            ∧ build classes dependencies = .error (.duplicateClass name))
      ∧ ((classes.map Class.name).Nodup →
          (∃ d ∈ dependencies, d.origin ∉ classes.map Class.name) → ∃ d,
            Least Dependency.key
                (fun d => d ∈ dependencies ∧ d.origin ∉ classes.map Class.name) d
              ∧ build classes dependencies = .error (.unknownOrigin d))
      ∧ ∀ snapshot, build classes dependencies = .ok snapshot →
          Answers classes dependencies snapshot := by
  have hmakes := makes_build classes dependencies
  refine ⟨hmakes.isOk_iff, hmakes.exists_repeated, hmakes.exists_stray, fun snapshot hbuilt => ?_⟩
  rw [hbuilt] at hmakes
  exact hmakes.answers

end Snapshot

end Archmap
