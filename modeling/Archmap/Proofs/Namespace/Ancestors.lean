import Archmap.Proofs.Association.RootNamespaces
import Archmap.Proofs.Data.Records
import Archmap.Proofs.Namespace.Segments

/-!
# Ancestors of a namespace

A text and the list of its segments say the same, since the list is written back as the text
(`joinSegments_segments`). So the namespaces that contain another one are the beginnings of its list
of segments. They are nested, containment is a partial order, and of two namespaces that contain a
third the longer text is the inner one: a comparison of lengths finds the most specific of them
(`rootOf?_eq_some_iff`).

Where a class lies is read off its name from the right, at the last dot. Segments are read from the
left. Both agree (`splitDots_cut`), so the namespace of a class is what all segments but the last
make up, and it is a proper name itself unless it is empty.
-/

namespace Archmap

/-! ## Segments written back -/

theorem segmentsText_splitDots (text : List Char) :
    segmentsText ((splitDots text).map String.ofList) = text := by
  induction text with
  | nil => simp [splitDots_nil, segmentsText, dotted]
  | cons c text ih =>
      by_cases hc : c = '.'
      · have hne : (splitDots text).map String.ofList ≠ [] :=
          fun h => splitDots_ne_nil text (List.map_eq_nil_iff.mp h)
        rw [hc, splitDots_dot, List.map_cons, segmentsText, dotted_of_ne_nil hne, ih,
          String.toList_ofList, List.nil_append]
      · obtain ⟨first, others, htext, hsplit⟩ := splitDots_cons hc text
        rw [htext, List.map_cons, segmentsText, String.toList_ofList] at ih
        rw [hsplit, List.map_cons, segmentsText, String.toList_ofList, List.cons_append, ih]

theorem joinSegments_segments (text : String) : joinSegments (segments text) = text := by
  refine String.toList_injective ?_
  rw [toList_joinSegments, segments, segmentsText_splitDots]

theorem segments_ne_nil (text : String) : segments text ≠ [] :=
  fun h => splitDots_ne_nil text.toList (List.map_eq_nil_iff.mp h)

/-! ## The last dot -/

theorem dot_notMem_of_mem_splitDots {text segment : List Char} (h : segment ∈ splitDots text) :
    '.' ∉ segment := by
  induction text generalizing segment with
  | nil =>
      rw [splitDots_nil, List.mem_singleton] at h
      exact h ▸ List.not_mem_nil
  | cons c text ih =>
      by_cases hc : c = '.'
      · rw [hc, splitDots_dot, List.mem_cons] at h
        rcases h with rfl | h
        · exact List.not_mem_nil
        · exact ih h
      · obtain ⟨first, others, htext, hsplit⟩ := splitDots_cons hc text
        rw [htext] at ih
        rw [hsplit, List.mem_cons] at h
        rcases h with rfl | h
        · exact List.not_mem_cons_of_ne_of_not_mem (Ne.symm hc) (ih List.mem_cons_self)
        · exact ih (List.mem_cons_of_mem first h)

/-- The cut at the last dot takes the last segment off. -/
theorem splitDots_cut (text : List Char) :
    splitDots text = (cutAtLastDot text).1.elim [] splitDots ++ [(cutAtLastDot text).2] := by
  induction text with
  | nil => rfl
  | cons c text ih =>
      rw [cutAtLastDot]
      generalize cutAtLastDot text = cut at ih ⊢
      obtain ⟨front, back⟩ := cut
      cases front with
      | some front =>
          have hback : splitDots text = splitDots front ++ [back] := ih
          by_cases hc : c = '.'
          · simp [hc, splitDots_dot, hback]
          · obtain ⟨first, others, hfront, hsplit⟩ := splitDots_cons hc front
            simp [splitDots, hc, hback, hfront]
      | none =>
          have hback : splitDots text = [back] := ih
          by_cases hc : c = '.'
          · simp [hc, splitDots_dot, hback, splitDots_nil]
          · simp [splitDots, hc, hback]

/-! ## Names -/

namespace ClassName

variable (name : ClassName)

/-- Behind the segments of the namespace, of which a class in the root namespace has none, comes the
simple name. -/
theorem segments_text :
    name.enclosingNamespace = "" ∧ segments name.text = [name.simpleName]
      ∨ name.enclosingNamespace ≠ ""
        ∧ segments name.text = segments name.enclosingNamespace ++ [name.simpleName] := by
  have hcut := splitDots_cut name.text.toList
  have hproper := name.proper
  rw [segments, enclosingNamespace, simpleName]
  generalize cutAtLastDot name.text.toList = cut at hcut ⊢
  rw [hcut] at hproper ⊢
  obtain ⟨front, back⟩ := cut
  cases front with
  | none => exact Or.inl ⟨rfl, rfl⟩
  | some front =>
      refine Or.inr ⟨fun hempty => ?_, by simp [segments]⟩
      -- the name would begin with a dot
      rw [← String.toList_eq_nil_iff, String.toList_ofList] at hempty
      exact hproper [] (by simp [hempty, splitDots_nil]) rfl

theorem enclosingNamespace_eq :
    name.enclosingNamespace = joinSegments (segments name.text).dropLast := by
  rcases name.segments_text with ⟨hroot, hsegments⟩ | ⟨-, hsegments⟩
  · rw [hroot, hsegments]
    rfl
  · rw [hsegments, List.dropLast_concat, joinSegments_segments]

theorem enclosingNamespace_eq_empty_iff :
    name.enclosingNamespace = "" ↔ (segments name.text).length = 1 := by
  rcases name.segments_text with ⟨hroot, hsegments⟩ | ⟨hinner, hsegments⟩
  · simp [hroot, hsegments]
  · simp [hinner, hsegments, segments_ne_nil]

theorem getLast?_segments : (segments name.text).getLast? = some name.simpleName := by
  rcases name.segments_text with ⟨-, hsegments⟩ | ⟨-, hsegments⟩ <;> simp [hsegments]

theorem toList_simpleName_mem : name.simpleName.toList ∈ splitDots name.text.toList := by
  obtain ⟨segment, hsegment, heq⟩ :=
    List.mem_map.mp (List.mem_of_getLast? name.getLast?_segments)
  rwa [← heq, String.toList_ofList]

theorem simpleName_ne_empty : name.simpleName ≠ "" :=
  fun h => name.proper _ name.toList_simpleName_mem (String.toList_eq_nil_iff.mpr h)

/-- The namespace of a class is itself a name, unless it is the root namespace. -/
theorem exists_outer (h : name.enclosingNamespace ≠ "") :
    ∃ outer, ClassName.ofText name.enclosingNamespace = .ok outer := by
  obtain ⟨hroot, -⟩ | ⟨-, hsegments⟩ := name.segments_text
  · exact absurd hroot h
  · refine ⟨⟨name.enclosingNamespace, fun segment hsegment => name.proper segment ?_⟩,
      ofText_eq_ok_iff.mpr rfl⟩
    have hmem : String.ofList segment ∈ segments name.text := by
      rw [hsegments]
      exact List.mem_append_left _ (List.mem_map_of_mem hsegment)
    obtain ⟨other, hother, heq⟩ := List.mem_map.mp hmem
    exact String.ofList_injective heq ▸ hother

end ClassName

/-! ## Containment as an order -/

variable {parent child ns other : String}

theorem namespaceContains_trans (h : namespaceContains ns other = true)
    (h' : namespaceContains other child = true) : namespaceContains ns child = true := by
  rw [namespaceContains_iff] at h h' ⊢
  exact h.trans h'

/-- What contains another namespace is shorter or the same. -/
theorem eq_or_size_lt_of_contains (h : namespaceContains parent child = true) :
    parent = child ∨ parent.utf8ByteSize < child.utf8ByteSize := by
  obtain ⟨behind, hbehind⟩ := namespaceContains_iff.mp h
  have htext : child = parent ++ String.ofList (dotted behind) := by
    refine String.toList_injective ?_
    rw [← joinSegments_segments child, toList_joinSegments, ← hbehind,
      segmentsText_append (segments_ne_nil parent), segments, segmentsText_splitDots,
      String.toList_append, String.toList_ofList]
  by_cases hnone : String.ofList (dotted behind) = ""
  · rw [hnone, String.append_empty] at htext
    exact Or.inl htext.symm
  · right
    have hpos := mt String.utf8ByteSize_eq_zero_iff.mp hnone
    rw [htext, String.utf8ByteSize_append]
    omega

theorem namespaceContains_antisymm (h : namespaceContains parent child = true)
    (h' : namespaceContains child parent = true) : parent = child := by
  rcases eq_or_size_lt_of_contains h with heq | hlt
  · exact heq
  · rcases eq_or_size_lt_of_contains h' with heq | hlt'
    · exact heq.symm
    · omega

/-! ## The most specific of some namespaces -/

/-- Of some namespaces, `ns` is the one most specific to `child`: it contains `child`, and all others
that do so contain it and are shorter. -/
structure MostSpecific (namespaces : List String) (child ns : String) : Prop where
  mem : ns ∈ namespaces
  contains : namespaceContains ns child = true
  within : ∀ other ∈ namespaces, namespaceContains other child = true →
    namespaceContains other ns = true
  shorter : ∀ other ∈ namespaces, namespaceContains other child = true → other ≠ ns →
    other.utf8ByteSize < ns.utf8ByteSize

theorem MostSpecific.unique {namespaces : List String} (h : MostSpecific namespaces child ns)
    (h' : MostSpecific namespaces child other) : ns = other :=
  namespaceContains_antisymm (h'.within ns h.mem h.contains) (h.within other h'.mem h'.contains)

namespace RootNamespaces

theorem size_le_of_longest? {texts : List String} {best text : String}
    (h : longest? texts = some best) (htext : text ∈ texts) :
    text.utf8ByteSize ≤ best.utf8ByteSize := by
  induction texts using List.reverseRecOn generalizing best text with
  | nil => cases htext
  | append_singleton texts last ih =>
      rw [longest?, List.foldl_concat, ← longest?] at h
      rcases longest?_spec texts with ⟨hnone, hnil⟩ | ⟨old, -, hsome⟩
      · rw [hnone, Option.some.injEq] at h
        rw [hnil, List.nil_append, List.mem_singleton] at htext
        rw [htext, h]
      · rw [hsome] at h
        have hbest : (if old.utf8ByteSize ≤ last.utf8ByteSize then some last else some old)
            = some best := h
        have hold : text ∈ texts → text.utf8ByteSize ≤ old.utf8ByteSize := ih hsome
        rw [List.mem_append, List.mem_singleton] at htext
        split at hbest <;> cases hbest <;> rcases htext with hmem | rfl
        · exact (hold hmem).trans ‹_›
        · exact Nat.le_refl _
        · exact hold hmem
        · exact Nat.le_of_not_le ‹_›

/-- The longest registered namespace that contains that of the class is the most specific one. -/
theorem rootOf?_eq_some_iff {roots : RootNamespaces} {cls : Class} :
    roots.rootOf? cls = some ns ↔
      MostSpecific roots.namespaces cls.name.enclosingNamespace ns := by
  have hlongest : ∀ {best}, roots.rootOf? cls = some best →
      MostSpecific roots.namespaces cls.name.enclosingNamespace best := by
    intro best hbest
    rw [rootOf?] at hbest
    rcases longest?_spec (roots.namespaces.filter
      (namespaceContains · cls.name.enclosingNamespace)) with ⟨hnone, -⟩ | ⟨best', hmem, hsome⟩
    · rw [hnone] at hbest
      cases hbest
    · obtain rfl : best' = best := Option.some.inj (hsome.symm.trans hbest)
      obtain ⟨hmem, hcontains⟩ := List.mem_filter.mp hmem
      have hinner : ∀ other ∈ roots.namespaces,
          namespaceContains other cls.name.enclosingNamespace = true →
          namespaceContains other best' = true := by
        intro other hother hcontains'
        have hle := size_le_of_longest? hbest (List.mem_filter.mpr ⟨hother, hcontains'⟩)
        rcases nested_of_contains hcontains' hcontains with h | h
        · exact h
        · rcases eq_or_size_lt_of_contains h with rfl | hlt
          · exact namespaceContains_self
          · omega
      refine ⟨hmem, hcontains, hinner, fun other hother hcontains' hne => ?_⟩
      exact (eq_or_size_lt_of_contains (hinner other hother hcontains')).resolve_left hne
  refine ⟨hlongest, fun h => ?_⟩
  rcases longest?_spec (roots.namespaces.filter
    (namespaceContains · cls.name.enclosingNamespace)) with ⟨-, hnil⟩ | ⟨best, -, hsome⟩
  · exact absurd (hnil ▸ List.mem_filter.mpr ⟨h.mem, h.contains⟩) List.not_mem_nil
  · have hbest : roots.rootOf? cls = some best := hsome
    rw [hbest, (hlongest hbest).unique h]

theorem rootOf?_eq_none_iff {roots : RootNamespaces} {cls : Class} :
    roots.rootOf? cls = none ↔ ∀ root ∈ roots.namespaces,
      namespaceContains root cls.name.enclosingNamespace = false := by
  rw [rootOf?]
  rcases longest?_spec (roots.namespaces.filter
    (namespaceContains · cls.name.enclosingNamespace)) with ⟨hnone, hnil⟩ | ⟨best, hmem, hsome⟩
  · simpa [hnone] using hnil
  · obtain ⟨hmem, hcontains⟩ := List.mem_filter.mp hmem
    rw [hsome]
    refine iff_of_false (by simp) fun hall => ?_
    rw [hall best hmem] at hcontains
    cases hcontains

end RootNamespaces

/-- A namespace contains another iff its segments are the first ones of the other. Containment is a
partial order in which the namespaces that contain a given one are nested, so of those registered
the longest is the most specific, and no other is as long; it is the identifier of the class. The
namespace of a class is made of all segments of its name but the last, which is the simple name. -/
theorem namespaceContains_by_segments :
    (∀ parent child, namespaceContains parent child = true ↔ segments parent <+: segments child)
      ∧ IsPartialOrder String (fun parent child => namespaceContains parent child = true)
      ∧ (∀ ns other child, namespaceContains ns child = true →
          namespaceContains other child = true →
          namespaceContains ns other = true ∨ namespaceContains other ns = true)
      ∧ (∀ (roots : RootNamespaces) (cls : Class),
          (∀ ns, roots.rootOf? cls = some ns ↔
            MostSpecific roots.namespaces cls.name.enclosingNamespace ns)
          ∧ (roots.rootOf? cls = none ↔ ∀ root ∈ roots.namespaces,
            namespaceContains root cls.name.enclosingNamespace = false)
          ∧ ((∀ root ∈ roots.namespaces, root ≠ "") →
            (roots.identify cls).parts = (roots.rootOf? cls).toList))
      ∧ ∀ name : ClassName,
          name.enclosingNamespace = joinSegments (segments name.text).dropLast
          ∧ (name.enclosingNamespace = "" ↔ (segments name.text).length = 1)
          ∧ (name.enclosingNamespace ≠ "" →
            ∃ outer, ClassName.ofText name.enclosingNamespace = .ok outer)
          ∧ (segments name.text).getLast? = some name.simpleName
          ∧ name.simpleName ≠ "" ∧ '.' ∉ name.simpleName.toList := by
  refine ⟨fun _ _ => namespaceContains_iff, ?_, fun _ _ _ => nested_of_contains,
    fun roots cls => ⟨fun _ => RootNamespaces.rootOf?_eq_some_iff,
      RootNamespaces.rootOf?_eq_none_iff, fun hnamed => ?_⟩, fun name => ?_⟩
  · exact { refl := fun _ => namespaceContains_self
            trans := fun _ _ _ => namespaceContains_trans
            antisymm := fun _ _ => namespaceContains_antisymm }
  · exact RootNamespaces.identify_parts_of_named fun ns hfound =>
      hnamed ns (RootNamespaces.rootOf?_eq_some_iff.mp hfound).mem
  · exact ⟨name.enclosingNamespace_eq, name.enclosingNamespace_eq_empty_iff, name.exists_outer,
      name.getLast?_segments, name.simpleName_ne_empty,
      dot_notMem_of_mem_splitDots name.toList_simpleName_mem⟩

namespace NestedRoots

/-- Two of the namespaces are nested, and a third is no ancestor of theirs but begins like them. -/
def roots : RootNamespaces := ⟨["p.mod1", "p.mod1.child", "p.mod10"]⟩

def inner : Class := ⟨⟨"p.mod1.child.deep.X", by decide +kernel⟩, []⟩

end NestedRoots

/-- A class that lies below two nested namespaces belongs to the inner one. -/
theorem namespaceContains_by_segments_nested :
    (∀ root ∈ NestedRoots.roots.namespaces, root ≠ "")
      ∧ namespaceContains "p.mod1" "p.mod1.child.deep" = true
      ∧ (NestedRoots.roots.identify NestedRoots.inner).parts = ["p.mod1.child"]
      ∧ MostSpecific NestedRoots.roots.namespaces "p.mod1.child.deep" "p.mod1.child" := by
  obtain ⟨hiff, -, -, hroots, -⟩ := namespaceContains_by_segments
  obtain ⟨hspecific, -, hidentify⟩ := hroots NestedRoots.roots NestedRoots.inner
  have hnamed : ∀ root ∈ NestedRoots.roots.namespaces, root ≠ "" := by decide +kernel
  have hroot : NestedRoots.roots.rootOf? NestedRoots.inner = some "p.mod1.child" := by decide +kernel
  refine ⟨hnamed, (hiff _ _).mpr (by decide +kernel), ?_, (hspecific _).mp hroot⟩
  rw [hidentify hnamed, hroot]
  rfl

end Archmap
