import Archmap.Proofs.Rows
import Archmap.Proofs.Snapshot.Building

/-!
# Outgoing and incoming dependencies

The dependencies of a snapshot are one list, from which those that start or end at a class are
selected. They can also be looked up. The rows of outgoing dependencies are a table with one row for
each class, found by the class's position (`outgoing`). The rows of incoming dependencies are made
from these, the rows of all classes gone through in their order, and are found by the name of the
target, which need not be a class of the snapshot (`incoming`).

Both tables answer with what is selected (`outgoingOf_eq`, `incomingOf_eq`). For the incoming rows
this needs that classes and dependencies are in the same order: the rows of outgoing dependencies,
one after the other, are the list again (`flatten_outgoing`).
-/

namespace Archmap

namespace Snapshot

variable {snapshot : Snapshot} {name : ClassName} {d : Dependency}

/-- The outgoing dependencies in rows, one for each class in order. -/
def outgoing (snapshot : Snapshot) : List (List Dependency) :=
  rowsBy (fun d => (snapshot.classes.map Class.name).idxOf d.origin)
    (snapshot.classes.map Class.name).length snapshot.dependencies

/-- The row of a class, found by the position of its name. -/
def outgoingOf (snapshot : Snapshot) (name : ClassName) : List Dependency :=
  snapshot.outgoing[(snapshot.classes.map Class.name).idxOf name]?.getD []

/-- The incoming dependencies in rows, one for each name at which an outgoing one ends. -/
def incoming (snapshot : Snapshot) : List (String × List Dependency) :=
  bucketsBy (·.target.text) snapshot.outgoing.flatten

/-- The row of a name, whether or not it is that of a class. -/
def incomingOf (snapshot : Snapshot) (name : ClassName) : List Dependency :=
  rowUnder snapshot.incoming name.text

/-! ## Rows of outgoing dependencies -/

theorem mem_dependenciesFrom :
    d ∈ snapshot.dependenciesFrom name ↔ d ∈ snapshot.dependencies ∧ d.origin = name := by
  rw [dependenciesFrom, List.mem_filter, decide_eq_true_eq]

theorem outgoing_eq (snapshot : Snapshot) :
    snapshot.outgoing = (snapshot.classes.map Class.name).map snapshot.dependenciesFrom :=
  rowsBy_idxOf snapshot.names_nodup

theorem outgoingOf_eq (snapshot : Snapshot) (name : ClassName) :
    snapshot.outgoingOf name = snapshot.dependenciesFrom name := by
  rw [outgoingOf, outgoing_eq, List.getElem?_map]
  by_cases hname : name ∈ snapshot.classes.map Class.name
  · rw [List.getElem?_idxOf hname]
    rfl
  · rw [List.idxOf_eq_length hname, List.getElem?_eq_none (Nat.le_refl _), dependenciesFrom,
      eq_comm]
    refine List.filter_eq_nil_iff.mpr fun d hd horigin => ?_
    exact hname (of_decide_eq_true horigin ▸ origin_mem_names hd)

/-- The rows, one after the other, hold the dependencies in their order. -/
theorem flatten_outgoing (snapshot : Snapshot) :
    snapshot.outgoing.flatten = snapshot.dependencies := by
  refine ascending_ext ?_ snapshot.dependencies_ascending fun d => ?_
  · rw [outgoing_eq, List.map_map, Ascending, List.pairwise_flatten]
    constructor
    · intro row hrow
      obtain ⟨cls, -, rfl⟩ := List.mem_map.mp hrow
      exact snapshot.dependencies_ascending.filter _
    · rw [List.pairwise_map]
      refine snapshot.classes_ascending.imp fun {cls cls'} hless d hd d' hd' => ?_
      -- keys begin with the origin, which is the class of the row
      obtain ⟨-, horigin⟩ := mem_dependenciesFrom.mp hd
      obtain ⟨-, horigin'⟩ := mem_dependenciesFrom.mp hd'
      have hnames : d.origin.text < d'.origin.text := by
        rw [horigin, horigin']
        exact hless
      exact List.cons_lt_cons_iff.mpr (Or.inl hnames)
  · rw [outgoing_eq, List.mem_flatten]
    constructor
    · rintro ⟨row, hrow, hd⟩
      obtain ⟨name, -, rfl⟩ := List.mem_map.mp hrow
      exact (mem_dependenciesFrom.mp hd).1
    · intro hd
      exact ⟨_, List.mem_map_of_mem (origin_mem_names hd), mem_dependenciesFrom.mpr ⟨hd, rfl⟩⟩

/-! ## Rows of incoming dependencies -/

theorem incomingOf_eq (snapshot : Snapshot) (name : ClassName) :
    snapshot.incomingOf name = snapshot.dependenciesTo name := by
  rw [incomingOf, incoming, rowUnder_bucketsBy, flatten_outgoing]
  exact List.filter_congr fun d _ => decide_eq_decide.mpr ClassName.text_injective.eq_iff

end Snapshot

end Archmap
