import Mathlib.Data.List.Induction
import Mathlib.Data.List.Pairwise
import Archmap.Association.RootNamespaces
import Archmap.Proofs.Ascending
import Archmap.Proofs.Namespace.Containment

/-!
# Registered roots

A registration goes as far as the roots fit in. Either it has asked every class and registered the
namespaces of all roots among them (`Registers`), or it has done so for the classes in front of a
root that is refused (`Ends`). Each registered root has a namespace of its own that overlaps with no
other, so a namespace lies in at most one of those registered. The most specific registered
namespace of a class is therefore its only one, and a class belongs to the module of a root iff its
namespace is that of the root or lies below it (`Registers.identify_parts_iff`).

Everything here is about a predicate without effects. In whatever monad it is asked, it gives the
registration that it gives when asked purely (`register_pure`), and it makes no difference whether
classes that are no roots are asked (`register_filter`).
-/

namespace Archmap

/-- One of the two namespaces contains the other. -/
def Overlap (ns other : String) : Prop :=
  namespaceContains ns other = true ∨ namespaceContains other ns = true

theorem Overlap.symm {ns other : String} (h : Overlap ns other) : Overlap other ns :=
  Or.symm h

theorem overlap_self (ns : String) : Overlap ns ns :=
  Or.inl namespaceContains_self

/-- The namespace of the class is that of the root or lies below it, segment by segment. -/
def Class.Spans (root cls : Class) : Prop :=
  segments root.name.enclosingNamespace <+: segments cls.name.enclosingNamespace

instance (root cls : Class) : Decidable (root.Spans cls) :=
  inferInstanceAs (Decidable (_ <+: _))

namespace RootNamespaces

variable {isRoot : Class → Bool} {roots roots' : RootNamespaces} {classes : List Class}
  {root other cls : Class} {ns : String}

/-! ## The longest of some texts -/

/-- The longest text is one of the texts, and only of none there is no longest. -/
theorem longest?_spec (texts : List String) :
    (longest? texts = none ∧ texts = []) ∨ ∃ text ∈ texts, longest? texts = some text := by
  induction texts using List.reverseRecOn with
  | nil => exact Or.inl ⟨rfl, rfl⟩
  | append_singleton texts text ih =>
      right
      rw [longest?, List.foldl_concat, ← longest?]
      rcases ih with ⟨hnone, -⟩ | ⟨best, hbest, hsome⟩
      · exact ⟨text, by simp, by rw [hnone]⟩
      · rw [hsome]
        by_cases hle : best.utf8ByteSize ≤ text.utf8ByteSize
        · exact ⟨text, by simp, if_pos hle⟩
        · exact ⟨best, by simp [hbest], if_neg hle⟩

/-! ## Registration -/

theorem enlist_eq_ok : roots.enlist root = .ok roots' ↔
    root.name.enclosingNamespace ≠ ""
      ∧ (∀ ns ∈ roots.namespaces, ¬Overlap ns root.name.enclosingNamespace)
      ∧ roots' = ⟨insertBy id keepFirst root.name.enclosingNamespace roots.namespaces⟩ := by
  simp only [enlist]
  split
  · simp_all
  · rename_i hnamed
    split
    · rename_i existing hfind
      have hmem := List.mem_of_find?_eq_some hfind
      have hoverlap := List.find?_some hfind
      rw [Bool.or_eq_true] at hoverlap
      refine iff_of_false (by simp) fun h => h.2.1 existing hmem hoverlap
    · rename_i hfind
      rw [List.find?_eq_none] at hfind
      simp only [Bool.or_eq_true] at hfind
      rw [Except.ok.injEq, eq_comm]
      exact ⟨fun h => ⟨hnamed, hfind, h⟩, fun h => h.2.2⟩

theorem register_cons {m : Type → Type} [Monad m] [LawfulMonad m] :
    register (fun cls => (pure (isRoot cls) : m Bool)) roots (cls :: classes)
      = if isRoot cls then
          match roots.enlist cls with
          | .error e => pure (.error e, roots)
          | .ok roots => register (fun cls => pure (isRoot cls)) roots classes
        else register (fun cls => pure (isRoot cls)) roots classes := by
  rw [register]
  exact pure_bind (isRoot cls) _

theorem register_pure {m : Type → Type} [Monad m] [LawfulMonad m] :
    register (fun cls => (pure (isRoot cls) : m Bool)) roots classes
      = pure (register (m := Id) (fun cls => pure (isRoot cls)) roots classes).run := by
  induction classes generalizing roots with
  | nil => rfl
  | cons cls rest ih =>
      rw [register_cons, register_cons]
      split
      · split
        · rfl
        · exact ih
      · exact ih

/-- Classes that are no roots need not be asked. -/
theorem register_filter {m : Type → Type} [Monad m] [LawfulMonad m] {asked : Class → Bool}
    (hasked : ∀ cls ∈ classes, isRoot cls = true → asked cls = true) :
    register (fun cls => (pure (isRoot cls) : m Bool)) roots (classes.filter asked)
      = register (fun cls => pure (isRoot cls)) roots classes := by
  induction classes generalizing roots with
  | nil => rfl
  | cons cls rest ih =>
      obtain ⟨hcls, hrest⟩ := List.forall_mem_cons.mp hasked
      by_cases hmem : asked cls = true
      · rw [List.filter_cons_of_pos hmem, register_cons, register_cons]
        split
        · split
          · rfl
          · exact ih hrest
        · exact ih hrest
      · rw [List.filter_cons_of_neg hmem, register_cons, if_neg fun hroot => hmem (hcls hroot)]
        exact ih hrest

/-- What is known once all classes have been asked: the namespaces of the roots are registered, none
is the root namespace, and no two overlap. -/
structure Registers (roots : RootNamespaces) (isRoot : Class → Bool) (classes : List Class) :
    Prop where
  mem_iff : ∀ ns, ns ∈ roots.namespaces ↔
    ∃ root ∈ classes, isRoot root = true ∧ root.name.enclosingNamespace = ns
  named : ∀ root ∈ classes, isRoot root = true → root.name.enclosingNamespace ≠ ""
  apart : (classes.filter isRoot).Pairwise fun root other =>
    ¬Overlap root.name.enclosingNamespace other.name.enclosingNamespace

namespace Registers

theorem empty : empty.Registers isRoot [] where
  mem_iff := by simp [RootNamespaces.empty]
  named := by simp
  apart := List.Pairwise.nil

theorem skip (h : roots.Registers isRoot classes) (hcls : isRoot cls = false) :
    roots.Registers isRoot (classes ++ [cls]) where
  mem_iff ns := by
    rw [h.mem_iff]
    simp [or_and_right, exists_or, hcls]
  named root hroot := by
    rcases List.mem_append.mp hroot with hroot | hroot
    · exact h.named root hroot
    · rw [List.mem_singleton.mp hroot, hcls]
      exact fun hfalse => by cases hfalse
  apart := by
    rw [List.filter_append, List.filter_cons_of_neg (by simp [hcls]), List.filter_nil,
      List.append_nil]
    exact h.apart

theorem enlist (h : roots.Registers isRoot classes) (hroot : isRoot root = true)
    (hfits : roots.enlist root = .ok roots') : roots'.Registers isRoot (classes ++ [root]) := by
  obtain ⟨hnamed, hfree, rfl⟩ := enlist_eq_ok.mp hfits
  constructor
  · intro ns
    rw [mem_insertBy_keepFirst, h.mem_iff]
    simp only [List.mem_append, List.mem_singleton, or_and_right, exists_or, exists_eq_left, hroot,
      true_and]
    rw [or_comm, @eq_comm _ ns]
  · intro cls hcls
    rcases List.mem_append.mp hcls with hcls | hcls
    · exact h.named cls hcls
    · rw [List.mem_singleton.mp hcls]
      exact fun _ => hnamed
  · rw [List.filter_append, List.filter_cons_of_pos hroot, List.filter_nil,
      List.pairwise_append]
    refine ⟨h.apart, List.pairwise_singleton .., fun cls hcls other hother => ?_⟩
    obtain ⟨hcls, hcls'⟩ := List.mem_filter.mp hcls
    rw [List.mem_singleton.mp hother]
    exact hfree _ ((h.mem_iff _).mpr ⟨cls, hcls, hcls', rfl⟩)

end Registers

/-- How a registration ends that asks some classes. Either all have been asked, or one of them is a
root that does not fit in, and then no other has been asked behind it. What is registered are the
roots among the classes in front. -/
inductive Ends (isRoot : Class → Bool) (classes : List Class) :
    Except RootError Unit × RootNamespaces → Prop
  | all {roots : RootNamespaces} (h : roots.Registers isRoot classes) :
      Ends isRoot classes (.ok (), roots)
  | stopped {roots : RootNamespaces} {front rest : List Class} {root : Class} {e : RootError}
      (hclasses : classes = front ++ root :: rest) (h : roots.Registers isRoot front)
      (hroot : isRoot root = true) (hrefused : roots.enlist root = .error e) :
      Ends isRoot classes (.error e, roots)

theorem register_ends {done : List Class} (hdone : roots.Registers isRoot done) :
    Ends isRoot (done ++ classes)
      (register (m := Id) (fun cls => pure (isRoot cls)) roots classes).run := by
  -- what is registered at any time are the roots among those asked before
  induction classes generalizing roots done with
  | nil =>
      rw [List.append_nil]
      exact .all hdone
  | cons cls rest ih =>
      rw [register_cons]
      split
      · rename_i hroot
        split
        · rename_i hrefused
          exact .stopped rfl hdone hroot hrefused
        · rename_i hfits
          rw [List.append_cons]
          exact ih (hdone.enlist hroot hfits)
      · rename_i hother
        rw [List.append_cons]
        exact ih (hdone.skip (by simpa using hother))

/-- A registration that succeeds has registered the roots among the classes asked. -/
theorem register_ok {done : List Class}
    (h : (register (m := Id) (fun cls => pure (isRoot cls)) roots classes).run = (.ok (), roots'))
    (hdone : roots.Registers isRoot done) : roots'.Registers isRoot (done ++ classes) := by
  have hends : Ends isRoot (done ++ classes) (.ok (), roots') := h ▸ register_ends hdone
  cases hends with
  | all hall => exact hall

theorem init_ok {snapshot : Snapshot}
    (h : (init (m := Id) (fun cls => pure (isRoot cls)) snapshot).run = (.ok (), roots)) :
    roots.Registers isRoot snapshot.classes :=
  register_ok h .empty

/-! ## The module of a class -/

/-- The only part of the identifier is the namespace that the class belongs to, if this has a name. -/
theorem identify_parts_of_named (h : ∀ ns, roots.rootOf? cls = some ns → ns ≠ "") :
    (roots.identify cls).parts = (roots.rootOf? cls).toList := by
  rw [identify]
  cases hfound : roots.rootOf? cls with
  | none => rfl
  | some ns => simp [Identifier.ofParts, h ns hfound]

namespace Registers

/-- Roots with overlapping namespaces are the same. -/
theorem eq_of_overlap (h : roots.Registers isRoot classes) (hroot : root ∈ classes)
    (hroot' : isRoot root = true) (hother : other ∈ classes) (hother' : isRoot other = true)
    (hoverlap : Overlap root.name.enclosingNamespace other.name.enclosingNamespace) :
    root = other := by
  have : Std.Symm fun root other : Class =>
      ¬Overlap root.name.enclosingNamespace other.name.enclosingNamespace :=
    ⟨fun _ _ hnot hoverlap => hnot hoverlap.symm⟩
  by_contra hne
  exact h.apart.forall (List.mem_filter.mpr ⟨hroot, hroot'⟩)
    (List.mem_filter.mpr ⟨hother, hother'⟩) hne hoverlap

theorem rootOf?_eq_some (h : roots.Registers isRoot classes) : roots.rootOf? cls = some ns ↔
    ∃ root ∈ classes, isRoot root = true ∧ root.name.enclosingNamespace = ns ∧ root.Spans cls := by
  have hfit : ∀ ns, ns ∈ roots.namespaces.filter (namespaceContains · cls.name.enclosingNamespace)
      ↔ ∃ root ∈ classes, isRoot root = true ∧ root.name.enclosingNamespace = ns
        ∧ root.Spans cls := by
    intro ns
    rw [List.mem_filter, h.mem_iff, namespaceContains_iff]
    constructor
    · rintro ⟨⟨root, hroot, hroot', rfl⟩, hspans⟩
      exact ⟨root, hroot, hroot', rfl, hspans⟩
    · rintro ⟨root, hroot, hroot', rfl, hspans⟩
      exact ⟨⟨root, hroot, hroot', rfl⟩, hspans⟩
  rw [rootOf?, ← hfit]
  rcases longest?_spec (roots.namespaces.filter (namespaceContains · cls.name.enclosingNamespace))
    with ⟨hnone, hnil⟩ | ⟨best, hbest, hsome⟩
  · rw [hnone, hnil]
    simp
  · rw [hsome, Option.some.injEq]
    constructor
    · rintro rfl
      exact hbest
    · -- both contain the namespace of the class, so they overlap and are one
      intro hns
      obtain ⟨root, hroot, hroot', rfl, hspans⟩ := (hfit best).mp hbest
      obtain ⟨other, hother, hother', rfl, hspans'⟩ := (hfit ns).mp hns
      rw [h.eq_of_overlap hroot hroot' hother hother'
        (nested_of_contains (namespaceContains_iff.mpr hspans) (namespaceContains_iff.mpr hspans'))]

theorem identify_parts (h : roots.Registers isRoot classes) :
    (roots.identify cls).parts = (roots.rootOf? cls).toList := by
  refine identify_parts_of_named fun ns hfound => ?_
  obtain ⟨root, hroot, hroot', rfl, -⟩ := h.rootOf?_eq_some.mp hfound
  exact h.named root hroot hroot'

/-- A class belongs to the module of a root iff the root spans it. -/
theorem identify_parts_iff (h : roots.Registers isRoot classes) (hroot : root ∈ classes)
    (hroot' : isRoot root = true) :
    (roots.identify cls).parts = [root.name.enclosingNamespace] ↔ root.Spans cls := by
  have hlist : (roots.rootOf? cls).toList = [root.name.enclosingNamespace] ↔
      roots.rootOf? cls = some root.name.enclosingNamespace := by
    cases roots.rootOf? cls <;> simp
  rw [h.identify_parts, hlist, h.rootOf?_eq_some]
  constructor
  · rintro ⟨other, -, -, heq, hspans⟩
    rwa [Class.Spans, heq] at hspans
  · intro hspans
    exact ⟨root, hroot, hroot', rfl, hspans⟩

/-- A class that is not ignored is spanned by a root. -/
theorem exists_root_of_identify (h : roots.Registers isRoot classes)
    (hkept : roots.identify cls ≠ .ignore) :
    ∃ root ∈ classes, isRoot root = true
      ∧ (roots.identify cls).parts = [root.name.enclosingNamespace] := by
  cases hfound : roots.rootOf? cls with
  | none =>
      rw [identify, hfound] at hkept
      exact absurd rfl hkept
  | some ns =>
      obtain ⟨root, hroot, hroot', heq, -⟩ := h.rootOf?_eq_some.mp hfound
      exact ⟨root, hroot, hroot', by rw [h.identify_parts, hfound, heq]; rfl⟩

end Registers

end RootNamespaces

end Archmap
