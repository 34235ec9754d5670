import Archmap.Proofs.Snapshot.Indices
import Archmap.Proofs.Module.Partition

/-!
# The order of input is irrelevant

Two builds from the same classes, listed in any order, and the same dependencies, listed in any
order and any number of times, end alike: they fail for the same reason, or they give one snapshot.
The rows of outgoing and incoming dependencies that one of them lays out are therefore those of the
other, and whoever groups the snapshots into modules cannot tell them apart.
-/

namespace Archmap

/-- The order of the classes and the order and repetition of the dependencies have no say in whether
a snapshot is built or which fault is reported, in what the snapshot answers about any class, be it
looked up in one table or selected by the other snapshot, and in what any creator makes of it. -/
theorem build_ignores_order {classes classes' : List Class}
    {dependencies dependencies' : List Dependency} (hclasses : classes.Perm classes')
    (hdependencies : ∀ d, d ∈ dependencies ↔ d ∈ dependencies') :
    Snapshot.build classes dependencies = Snapshot.build classes' dependencies'
      ∧ ∀ snapshot snapshot', Snapshot.build classes dependencies = .ok snapshot →
          Snapshot.build classes' dependencies' = .ok snapshot' →
          snapshot.classes = snapshot'.classes
          ∧ (∀ name, snapshot.get? name = snapshot'.get? name
              ∧ snapshot.contains name = snapshot'.contains name
              ∧ snapshot.outgoingOf name = snapshot'.dependenciesFrom name
              ∧ snapshot.incomingOf name = snapshot'.dependenciesTo name)
          ∧ snapshot.outgoing.flatten.length = snapshot'.dependencies.length
          ∧ ∀ {m : Type → Type} [Monad m] (creator : Creator m) (roots : RootNamespaces),
              creator.modularize roots snapshot = creator.modularize roots snapshot' := by
  have hsame := Snapshot.build_congr hclasses hdependencies
  refine ⟨hsame, fun snapshot snapshot' hbuilt hbuilt' => ?_⟩
  obtain rfl : snapshot = snapshot' := Except.ok.inj (hbuilt.symm.trans (hsame.trans hbuilt'))
  refine ⟨rfl, fun name => ⟨rfl, rfl, snapshot.outgoingOf_eq name, snapshot.incomingOf_eq name⟩,
    congrArg List.length snapshot.flatten_outgoing, fun _ _ => rfl⟩

/-- The classes of two modules in reverse, and each of their dependencies twice. -/
theorem build_ignores_order_reversed :
    Snapshot.build TwoModules.snapshot.classes.reverse
        (TwoModules.snapshot.dependencies.reverse ++ TwoModules.snapshot.dependencies)
      = .ok TwoModules.snapshot := by
  have hclasses : TwoModules.snapshot.classes.reverse.Perm TwoModules.snapshot.classes :=
    List.reverse_perm _
  have hdependencies : ∀ d, d ∈ TwoModules.snapshot.dependencies.reverse
      ++ TwoModules.snapshot.dependencies ↔ d ∈ TwoModules.snapshot.dependencies := by
    intro d
    rw [List.mem_append, List.mem_reverse, or_self]
  exact (build_ignores_order hclasses hdependencies).1.trans TwoModules.snapshot.build_self

end Archmap
