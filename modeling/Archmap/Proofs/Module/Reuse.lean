import Archmap.Creator

/-!
# Creators are reusable

A creator keeps nothing but the registered roots from one snapshot to the next. An association
without roots never looks at them, and one with roots forgets them before it registers those of the
new snapshot. So what is made of a snapshot does not depend on what was registered before, be it by
a registration that succeeded or by one that stopped half-way (`modularize_forgets`), and a creator
used for one snapshot after the other gives for each what a new one gives (`modularizeAll_eq_mapM`).

This holds whatever effects asking for roots and describing groups have: what remains of earlier
snapshots are these effects alone. Without effects nothing remains.
-/

namespace Archmap

namespace Creator

section Effects

variable {m : Type → Type} [Monad m] [LawfulMonad m]

/-- The roots registered before have no say in what is made of a snapshot. -/
theorem modularize_forgets (creator : Creator m) (roots roots' : RootNamespaces)
    (snapshot : Snapshot) :
    Prod.fst <$> creator.modularize roots snapshot
      = Prod.fst <$> creator.modularize roots' snapshot := by
  unfold modularize
  cases hassociation : creator.association with
  | rootClasses isRoot => rfl
  | namespaces pattern =>
      simp only [Association.init, pure_bind, map_bind, map_pure]
      rfl
  | assign identify =>
      simp only [Association.init, pure_bind, map_bind, map_pure]
      rfl

/-- One snapshot after the other gives what each gives to a creator that has seen no other. -/
theorem modularizeAll_eq_mapM (creator : Creator m) (roots : RootNamespaces)
    (snapshots : List Snapshot) :
    creator.modularizeAll roots snapshots
      = snapshots.mapM fun snapshot => Prod.fst <$> creator.modularize .empty snapshot := by
  induction snapshots generalizing roots with
  | nil => rfl
  | cons snapshot rest ih =>
      simp only [modularizeAll, List.mapM_cons, ih]
      rw [creator.modularize_forgets .empty roots, bind_map_left]

end Effects

end Creator

/-- A creator without effects gives for each of a list of snapshots what it gives for this snapshot
alone when it is new, whatever it was used for before and whatever came of the snapshots before. -/
theorem modularizeAll_forgets (creator : Creator Id) (roots : RootNamespaces)
    (snapshots : List Snapshot) (k : Nat) :
    (creator.modularizeAll roots snapshots).run[k]?
      = snapshots[k]?.map fun snapshot => (creator.modularize .empty snapshot).run.1 := by
  rw [creator.modularizeAll_eq_mapM, List.idRun_mapM, List.getElem?_map]
  rfl

end Archmap
