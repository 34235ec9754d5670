import Archmap.Association.Basic
import Archmap.Proofs.Association.RootNamespaces
import Archmap.Proofs.Snapshot.Building

/-!
# Preparing root classes

Whether the roots of a snapshot can be registered depends on all of them at once: they can iff they
are `Separate`. The registration asks less of each root, only that it fits in with those in front of
it, but every two roots meet in this way. What it leaves behind is told by the list of roots alone
(`init_outcome`): all their namespaces if they are separate, and otherwise the namespaces of those in
front of the first that is refused.

So whatever an association has been prepared for, it holds the namespaces of some separate roots
(`Separated.prepareAll`), and a class lies in at most one of them. A preparation that fails is no
exception. It does not give back what was registered before, though, nor nothing: the roots in front
of the one refused stay registered (`failedInit_exact`).
-/

namespace Archmap

variable {isRoot : Class → Bool} {roots before left : RootNamespaces}
  {spanning front back classes : List Class} {root other cls : Class} {e : RootError}

/-! ## Separate roots -/

/-- Each of the classes lies in a namespace, and no two of these namespaces are equal or nested. -/
structure Separate (spanning : List Class) : Prop where
  named : ∀ root ∈ spanning, root.name.enclosingNamespace ≠ ""
  apart : spanning.Pairwise fun root other => ¬root.Spans other ∧ ¬other.Spans root

/-- Why a root class is refused behind others: it has no namespace, or its namespace equals,
contains or lies below that of another. Of several such namespaces the least one is named. -/
inductive RefusedBehind (earlier : List Class) (root : Class) : RootError → Prop
  | withoutNamespace (hunnamed : root.name.enclosingNamespace = "") :
      RefusedBehind earlier root (.withoutNamespace root.name)
  | overlapping {other : Class} (hnamed : root.name.enclosingNamespace ≠ "")
      (hleast : Least (·.name.enclosingNamespace)
        (fun other => other ∈ earlier ∧ (other.Spans root ∨ root.Spans other)) other) :
      RefusedBehind earlier root
        (.overlapping other.name.enclosingNamespace root.name.enclosingNamespace)

theorem overlap_iff : Overlap root.name.enclosingNamespace other.name.enclosingNamespace ↔
    root.Spans other ∨ other.Spans root :=
  or_congr namespaceContains_iff namespaceContains_iff

theorem not_overlap_iff : ¬Overlap root.name.enclosingNamespace other.name.enclosingNamespace ↔
    ¬root.Spans other ∧ ¬other.Spans root := by
  rw [overlap_iff, not_or]

theorem Separate.nodup_namespaces (h : Separate spanning) :
    (spanning.map (·.name.enclosingNamespace)).Nodup := by
  refine List.pairwise_map.mpr (h.apart.imp fun hnot heq => hnot.1 ?_)
  rw [Class.Spans, heq]

/-- Classes of which one is refused behind those in front of it are not separate. -/
theorem RefusedBehind.not_separate (h : RefusedBehind front root e) : ¬Separate (front ++ root :: back) := by
  intro hseparate
  cases h with
  | withoutNamespace hunnamed =>
      exact hseparate.named root (List.mem_append_right front List.mem_cons_self) hunnamed
  | overlapping hnamed hleast =>
      obtain ⟨⟨hother, hnested⟩, -⟩ := hleast
      have hnot := (List.pairwise_append.mp hseparate.apart).2.2 _ hother root List.mem_cons_self
      exact hnested.elim hnot.1 hnot.2

namespace RootNamespaces

/-- Just the namespaces of the classes are registered, in order. -/
structure Lists (roots : RootNamespaces) (spanning : List Class) : Prop where
  ascending : Ascending id roots.namespaces
  perm : roots.namespaces.Perm (spanning.map (·.name.enclosingNamespace))

theorem lists_empty : empty.Lists [] where
  ascending := List.Pairwise.nil
  perm := List.Perm.nil

/-- What is registered is told by the classes. -/
theorem Lists.unique (h : roots.Lists spanning) (h' : left.Lists spanning) : roots = left := by
  obtain ⟨namespaces⟩ := roots
  obtain ⟨namespaces'⟩ := left
  rw [mk.injEq]
  exact ascending_ext h.ascending h'.ascending fun _ => (h.perm.trans h'.perm.symm).mem_iff

theorem Lists.eq_nil_iff (h : roots.Lists spanning) : roots.namespaces = [] ↔ spanning = [] := by
  rw [← List.length_eq_zero_iff, h.perm.length_eq, List.length_map, List.length_eq_zero_iff]

/-! ## How a preparation ends -/

namespace Registers

theorem separate (h : roots.Registers isRoot classes) : Separate (classes.filter isRoot) where
  named root hroot := h.named root (List.mem_filter.mp hroot).1 (List.mem_filter.mp hroot).2
  apart := h.apart.imp not_overlap_iff.mp

theorem lists (h : roots.Registers isRoot classes) (hascending : Ascending id roots.namespaces) :
    roots.Lists (classes.filter isRoot) := by
  refine ⟨hascending, (List.perm_ext_iff_of_nodup hascending.nodup
    h.separate.nodup_namespaces).mpr fun ns => ?_⟩
  rw [h.mem_iff]
  simp only [List.mem_map, List.mem_filter, and_assoc]

theorem refused (h : roots.Registers isRoot classes) (hascending : Ascending id roots.namespaces)
    (hrefused : roots.enlist root = .error e) : RefusedBehind (classes.filter isRoot) root e := by
  simp only [RootNamespaces.enlist] at hrefused
  split at hrefused
  · rename_i hunnamed
    cases hrefused
    exact .withoutNamespace hunnamed
  · rename_i hnamed
    split at hrefused
    · rename_i existing hfind
      cases hrefused
      obtain ⟨other, hother, hother', rfl⟩ := (h.mem_iff existing).mp
        (List.mem_of_find?_eq_some hfind)
      have hoverlap := List.find?_some hfind
      rw [Bool.or_eq_true] at hoverlap
      refine .overlapping hnamed ⟨⟨List.mem_filter.mpr ⟨hother, hother'⟩,
        overlap_iff.mp hoverlap⟩, ?_⟩
      -- the search goes through the registered namespaces in their order
      rintro another ⟨hanother, hnested⟩
      obtain ⟨hanother, hanother'⟩ := List.mem_filter.mp hanother
      refine hascending.not_less_of_find? hfind
        ((h.mem_iff _).mpr ⟨another, hanother, hanother', rfl⟩) ?_
      rw [Bool.or_eq_true]
      exact overlap_iff.mpr hnested
    · cases hrefused

end Registers

/-- Registering keeps the order, whether or not it gets to the end. -/
theorem register_ascending (hascending : Ascending id roots.namespaces) :
    Ascending id
      (register (m := Id) (fun cls => pure (isRoot cls)) roots classes).run.2.namespaces := by
  induction classes generalizing roots with
  | nil => exact hascending
  | cons cls rest ih =>
      rw [register_cons]
      split
      · split
        · exact hascending
        · rename_i hfits
          obtain ⟨-, -, rfl⟩ := enlist_eq_ok.mp hfits
          exact ih (ascending_insertBy (by intros; rfl) hascending)
      · exact ih hascending

/-- What becomes of the roots of a snapshot: all are registered, or one is refused and just those in
front of it are. -/
inductive Outcome (spanning : List Class) : Except RootError Unit × RootNamespaces → Prop
  | registered {roots : RootNamespaces} (hseparate : Separate spanning)
      (hlists : roots.Lists spanning) : Outcome spanning (.ok (), roots)
  | refused {roots : RootNamespaces} {front back : List Class} {root : Class} {e : RootError}
      (hspanning : spanning = front ++ root :: back) (hseparate : Separate front)
      (hrefused : RefusedBehind front root e) (hlists : roots.Lists front) :
      Outcome spanning (.error e, roots)

theorem init_outcome (isRoot : Class → Bool) (snapshot : Snapshot) :
    Outcome (snapshot.classes.filter isRoot)
      (init (m := Id) (fun cls => pure (isRoot cls)) snapshot).run := by
  have hends : Ends isRoot snapshot.classes
      (init (m := Id) (fun cls => pure (isRoot cls)) snapshot).run :=
    register_ends .empty
  have hascending : Ascending id
      (init (m := Id) (fun cls => pure (isRoot cls)) snapshot).run.2.namespaces :=
    register_ascending lists_empty.ascending
  generalize (init (m := Id) (fun cls => pure (isRoot cls)) snapshot).run = outcome
    at hends hascending ⊢
  cases hends with
  | all h => exact .registered h.separate (h.lists hascending)
  | stopped hclasses h hroot hrefused =>
      rw [hclasses, List.filter_append, List.filter_cons_of_pos hroot]
      exact .refused rfl h.separate (h.refused hascending hrefused) (h.lists hascending)

theorem Outcome.isOk_iff {outcome : Except RootError Unit × RootNamespaces}
    (h : Outcome spanning outcome) : outcome.1 = .ok () ↔ Separate spanning := by
  cases h with
  | registered hseparate _ => exact iff_of_true rfl hseparate
  | refused hspanning _ hrefused _ =>
      rw [hspanning]
      exact iff_of_false (by simp) hrefused.not_separate

theorem Outcome.lists {outcome : Except RootError Unit × RootNamespaces}
    (h : Outcome spanning outcome) (hok : outcome.1 = .ok ()) : outcome.2.Lists spanning := by
  cases h with
  | registered _ hlists => exact hlists
  | refused => cases hok

theorem Outcome.exists_refused {outcome : Except RootError Unit × RootNamespaces}
    (h : Outcome spanning outcome) (he : outcome.1 = .error e) :
    ∃ front root back, spanning = front ++ root :: back ∧ Separate front
      ∧ RefusedBehind front root e ∧ outcome.2.Lists front := by
  cases h with
  | registered => cases he
  | refused hspanning hseparate hrefused hlists =>
      cases he
      exact ⟨_, _, _, hspanning, hseparate, hrefused, hlists⟩

theorem exists_init_ok_iff {snapshot : Snapshot} :
    (∃ roots, (init (m := Id) (fun cls => pure (isRoot cls)) snapshot).run = (.ok (), roots))
      ↔ Separate (snapshot.classes.filter isRoot) := by
  rw [← (init_outcome isRoot snapshot).isOk_iff]
  constructor
  · rintro ⟨roots, hrun⟩
    rw [hrun]
  · intro hok
    exact ⟨_, Prod.ext hok rfl⟩

/-! ## What separate roots contain -/

/-- Registered namespaces of separate classes are registered as if each of the classes had been
asked and were a root. -/
theorem Lists.registers (h : roots.Lists spanning) (hseparate : Separate spanning) :
    roots.Registers (fun _ => true) spanning where
  mem_iff ns := by
    rw [h.perm.mem_iff, List.mem_map]
    simp
  named root hroot _ := hseparate.named root hroot
  apart := by
    rw [List.filter_true]
    exact hseparate.apart.imp not_overlap_iff.mpr

/-- The identifier of a class has one part, the namespace of the one root that spans the class; it
is the mark of ignored classes if there is none. -/
theorem Lists.identify_parts (h : roots.Lists spanning) (hseparate : Separate spanning)
    (cls : Class) : (roots.identify cls).parts
      = (spanning.filter (·.Spans cls)).map (·.name.enclosingNamespace) := by
  have hregisters := h.registers hseparate
  rw [hregisters.identify_parts]
  cases hfound : roots.rootOf? cls with
  | none =>
      have hnone : spanning.filter (·.Spans cls) = [] := by
        refine List.filter_eq_nil_iff.mpr fun root hroot hspans => ?_
        have hsome := hregisters.rootOf?_eq_some.mpr
          ⟨root, hroot, rfl, rfl, of_decide_eq_true hspans⟩
        rw [hfound] at hsome
        cases hsome
      rw [hnone]
      rfl
  | some ns =>
      obtain ⟨root, hroot, -, rfl, hspans⟩ := hregisters.rootOf?_eq_some.mp hfound
      have hone : spanning.filter (·.Spans cls) = [root] := by
        refine filter_eq_singleton (List.Nodup.of_map _ hseparate.nodup_namespaces) hroot
          fun other hother => ?_
        rw [decide_eq_true_eq]
        constructor
        · intro hspans'
          have hsome := hregisters.rootOf?_eq_some.mpr ⟨other, hother, rfl, rfl, hspans'⟩
          rw [hfound, Option.some.injEq] at hsome
          exact List.inj_on_of_nodup_map hseparate.nodup_namespaces hother hroot hsome.symm
        · rintro rfl
          exact hspans
      rw [hone]
      rfl

/-- The namespaces of some separate classes are registered. -/
def Separated (roots : RootNamespaces) : Prop :=
  ∃ spanning, Separate spanning ∧ roots.Lists spanning

namespace Separated

theorem ne_empty (h : roots.Separated) : ∀ ns ∈ roots.namespaces, ns ≠ "" := by
  obtain ⟨spanning, hseparate, hlists⟩ := h
  intro ns hns
  obtain ⟨root, hroot, rfl⟩ := List.mem_map.mp (hlists.perm.mem_iff.mp hns)
  exact hseparate.named root hroot

theorem apart (h : roots.Separated) : roots.namespaces.Pairwise fun ns other =>
    ¬segments ns <+: segments other ∧ ¬segments other <+: segments ns := by
  obtain ⟨spanning, hseparate, hlists⟩ := h
  refine (hlists.perm.pairwise_iff fun hnot => hnot.symm).mpr ?_
  exact List.pairwise_map.mpr hseparate.apart

/-- The identifier of a class is made of the registered namespaces in which it lies, and there is at
most one. -/
theorem identify_parts (h : roots.Separated) (cls : Class) :
    (roots.namespaces.filter fun ns =>
        segments ns <+: segments cls.name.enclosingNamespace).length ≤ 1
      ∧ (roots.identify cls).parts = roots.namespaces.filter fun ns =>
          segments ns <+: segments cls.name.enclosingNamespace := by
  obtain ⟨spanning, hseparate, hlists⟩ := h
  have hperm : (roots.identify cls).parts.Perm (roots.namespaces.filter fun ns =>
      segments ns <+: segments cls.name.enclosingNamespace) := by
    rw [hlists.identify_parts hseparate]
    refine .trans (.of_eq ?_) (hlists.perm.symm.filter _)
    rw [List.filter_map]
    rfl
  -- a list of at most one element is rearranged in one way only
  rw [(hlists.registers hseparate).identify_parts] at hperm ⊢
  generalize roots.rootOf? cls = found at hperm ⊢
  cases found with
  | none =>
      have heq := hperm.nil_eq
      exact ⟨heq ▸ Nat.zero_le 1, heq⟩
  | some ns =>
      have heq := List.singleton_perm.mp hperm
      exact ⟨heq ▸ Nat.le_refl 1, heq⟩

end Separated

theorem Outcome.separated {outcome : Except RootError Unit × RootNamespaces}
    (h : Outcome spanning outcome) : outcome.2.Separated := by
  cases h with
  | registered hseparate hlists => exact ⟨spanning, hseparate, hlists⟩
  | refused _ hseparate _ hlists => exact ⟨_, hseparate, hlists⟩

end RootNamespaces

/-! ## One preparation after the other -/

/-- What is registered when an association has been prepared for one snapshot after the other,
whatever came of each. -/
def Association.prepareAll (association : Association Id) (roots : RootNamespaces)
    (snapshots : List Snapshot) : RootNamespaces :=
  snapshots.foldl (fun roots snapshot => (association.init roots snapshot).run.2) roots

theorem RootNamespaces.Separated.prepareAll (h : roots.Separated) (isRoot : Class → Bool)
    (snapshots : List Snapshot) :
    (Association.prepareAll (.rootClasses fun cls => pure (isRoot cls)) roots
      snapshots).Separated := by
  induction snapshots generalizing roots with
  | nil => exact h
  | cons snapshot rest ih => exact ih (RootNamespaces.init_outcome isRoot snapshot).separated

/-- However often an association by root classes has been prepared, and whatever came of it, the
registered namespaces are not empty and none contains another; so a class lies in at most one, which
is the only part of its identifier, and is ignored if it lies in none. A preparation succeeds iff
the roots of the snapshot are separate, and then just their namespaces are registered, in order. If
it fails, the error is about the first root that is refused behind those in front of it. -/
theorem preparedRoots_never_overlap (isRoot : Class → Bool) :
    (∀ snapshots : List Snapshot,
        let roots := Association.prepareAll (.rootClasses fun cls => pure (isRoot cls)) .empty
          snapshots
        (∀ ns ∈ roots.namespaces, ns ≠ "")
        ∧ (roots.namespaces.Pairwise fun ns other =>
            ¬segments ns <+: segments other ∧ ¬segments other <+: segments ns)
        ∧ ∀ cls : Class,
            let containing := roots.namespaces.filter fun ns =>
              segments ns <+: segments cls.name.enclosingNamespace
            containing.length ≤ 1 ∧ (roots.identify cls).parts = containing)
      ∧ ∀ (before : RootNamespaces) (snapshot : Snapshot),
          let spanning := snapshot.classes.filter isRoot
          let outcome := ((Association.rootClasses fun cls => pure (isRoot cls) :
            Association Id).init before snapshot).run
          (outcome.1 = .ok () ↔ Separate spanning)
          ∧ (outcome.1 = .ok () → outcome.2.Lists spanning)
          ∧ ∀ e, outcome.1 = .error e → ∃ front root back,
              spanning = front ++ root :: back ∧ Separate front ∧ RefusedBehind front root e := by
  refine ⟨fun snapshots => ?_, fun before snapshot => ?_⟩
  · have hroots := RootNamespaces.Separated.prepareAll
      ⟨[], ⟨List.forall_mem_nil _, List.Pairwise.nil⟩, RootNamespaces.lists_empty⟩ isRoot snapshots
    exact ⟨hroots.ne_empty, hroots.apart, hroots.identify_parts⟩
  · have houtcome := RootNamespaces.init_outcome isRoot snapshot
    refine ⟨houtcome.isOk_iff, houtcome.lists, fun e he => ?_⟩
    obtain ⟨front, root, back, hspanning, hseparate, hrefused, -⟩ := houtcome.exists_refused he
    exact ⟨front, root, back, hspanning, hseparate, hrefused⟩

namespace HalfWay

/-- The last of three roots lies below the second. -/
def snapshot : Snapshot :=
  .ofClasses [⟨⟨"a.Root", by decide +kernel⟩, []⟩, ⟨⟨"b.Root", by decide +kernel⟩, []⟩,
    ⟨⟨"b.c.Root", by decide +kernel⟩, []⟩] (by unfold Ascending; decide +kernel)

def designated (cls : Class) : Bool := cls.name.simpleName = "Root"

def inside : Class := ⟨⟨"a.X", by decide +kernel⟩, []⟩

theorem fails (before : RootNamespaces) :
    ((Association.rootClasses fun cls => pure (designated cls) : Association Id).init before
      snapshot).run = (.error (.overlapping "b" "b.c"), ⟨["a", "b"]⟩) := by
  rw [Association.init]
  decide +kernel

end HalfWay

/-- A new association that has been prepared for the three roots holds two that do not overlap. -/
theorem preparedRoots_never_overlap_halfWay :
    (Association.prepareAll (.rootClasses fun cls => pure (HalfWay.designated cls)) .empty
          [HalfWay.snapshot]).namespaces = ["a", "b"]
      ∧ (["a", "b"].Pairwise fun ns other =>
          ¬segments ns <+: segments other ∧ ¬segments other <+: segments ns)
      ∧ (RootNamespaces.identify ⟨["a", "b"]⟩ HalfWay.inside).parts = ["a"]
      ∧ ∃ front root back, HalfWay.snapshot.classes.filter HalfWay.designated
            = front ++ root :: back
          ∧ Separate front ∧ RefusedBehind front root (.overlapping "b" "b.c") := by
  obtain ⟨hroots, hinit⟩ := preparedRoots_never_overlap HalfWay.designated
  have hprepared : Association.prepareAll (.rootClasses fun cls => pure (HalfWay.designated cls))
      .empty [HalfWay.snapshot] = ⟨["a", "b"]⟩ :=
    congrArg Prod.snd (HalfWay.fails .empty)
  have hseparated := hroots [HalfWay.snapshot]
  rw [hprepared] at hseparated ⊢
  obtain ⟨-, hapart, hidentify⟩ := hseparated
  obtain ⟨-, -, hrefused⟩ := hinit .empty HalfWay.snapshot
  refine ⟨rfl, hapart, ?_, hrefused _ (congrArg Prod.fst (HalfWay.fails .empty))⟩
  rw [(hidentify HalfWay.inside).2]
  decide +kernel

/-! ## A preparation that fails -/

/-- What is registered shows nothing of a snapshot: it is what was registered before or nothing at
all, and classes get their identifiers accordingly. -/
def RootNamespaces.ShowsNothing (before left : RootNamespaces) : Prop :=
  (left.namespaces = before.namespaces ∧ ∀ cls, left.identify cls = before.identify cls)
    ∨ (left.namespaces = [] ∧ ∀ cls, left.identify cls = .ignore)

theorem RootNamespaces.Lists.showsNothing_iff (h : left.Lists front) :
    ShowsNothing before left ↔ front = [] ∨ before.Lists front := by
  constructor
  · rintro (⟨hsame, -⟩ | ⟨hnil, -⟩)
    · exact Or.inr ⟨hsame ▸ h.ascending, hsame ▸ h.perm⟩
    · exact Or.inl (h.eq_nil_iff.mp hnil)
  · rintro (hnil | hbefore)
    · have hempty := h.eq_nil_iff.mpr hnil
      refine Or.inr ⟨hempty, fun cls => ?_⟩
      rw [identify, rootOf?, hempty]
      rfl
    · rw [h.unique hbefore]
      exact Or.inl ⟨rfl, fun _ => rfl⟩

/-- What a preparation that fails leaves behind are the namespaces of the roots in front of the one
that is refused, whatever was registered before, and a class that lies in one of them gets this one
for its identifier. So nothing shows of the snapshot iff its very first root is refused, or just the
roots in front of the one refused were registered before. -/
theorem failedInit_exact {snapshot : Snapshot}
    (h : ((Association.rootClasses fun cls => pure (isRoot cls) : Association Id).init before
      snapshot).run = (.error e, left)) :
    ∃ front root back, snapshot.classes.filter isRoot = front ++ root :: back
      ∧ Separate front ∧ RefusedBehind front root e ∧ left.Lists front
      ∧ (∀ cls, (left.identify cls).parts
          = (front.filter (·.Spans cls)).map (·.name.enclosingNamespace))
      ∧ (RootNamespaces.ShowsNothing before left ↔ front = [] ∨ before.Lists front) := by
  have houtcome := RootNamespaces.init_outcome isRoot snapshot
  rw [Association.init] at h
  rw [h] at houtcome
  obtain ⟨front, root, back, hspanning, hseparate, hrefused, hlists⟩ := houtcome.exists_refused rfl
  exact ⟨front, root, back, hspanning, hseparate, hrefused, hlists,
    hlists.identify_parts hseparate, hlists.showsNothing_iff⟩

/-- Behind two roots that are registered the third is refused, and they stay. -/
theorem failedInit_exact_halfWay :
    ((Association.rootClasses fun cls => pure (HalfWay.designated cls) : Association Id).init
        ⟨["old"]⟩ HalfWay.snapshot).run = (.error (.overlapping "b" "b.c"), ⟨["a", "b"]⟩)
      ∧ ∃ front root back, HalfWay.snapshot.classes.filter HalfWay.designated = front ++ root :: back
          ∧ front ≠ [] ∧ RefusedBehind front root (.overlapping "b" "b.c")
          ∧ RootNamespaces.Lists ⟨["a", "b"]⟩ front := by
  obtain ⟨front, root, back, hspanning, -, hrefused, hlists, -⟩ :=
    failedInit_exact (HalfWay.fails ⟨["old"]⟩)
  refine ⟨HalfWay.fails ⟨["old"]⟩, front, root, back, hspanning, fun hnil => ?_, hrefused, hlists⟩
  have hempty := hlists.eq_nil_iff.mpr hnil
  cases hempty

/-- A new association that has failed to be prepared has roots, and a class belongs to one. -/
theorem failedInit_shows :
    ((Association.rootClasses fun cls => pure (HalfWay.designated cls) : Association Id).init .empty
        HalfWay.snapshot).run = (.error (.overlapping "b" "b.c"), ⟨["a", "b"]⟩)
      ∧ (RootNamespaces.identify ⟨["a", "b"]⟩ HalfWay.inside).parts = ["a"]
      ∧ ¬RootNamespaces.ShowsNothing .empty ⟨["a", "b"]⟩ := by
  refine ⟨HalfWay.fails .empty, by decide +kernel, ?_⟩
  rintro (⟨hsame, -⟩ | ⟨hnil, -⟩)
  · cases hsame
  · cases hnil

end Archmap
