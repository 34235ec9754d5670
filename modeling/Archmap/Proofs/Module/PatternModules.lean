import Archmap.Proofs.Module.Membership
import Archmap.Proofs.Module.Names
import Archmap.Proofs.Namespace.Captures

/-!
# Modules by namespace pattern

Modules that are found by a namespace pattern and named by the standard pattern are never refused. A
standard name is the parts of the identifier with colons between them, so the parts can be read off
it if no colon is in them (`eq_of_standardName`). A part is what the pattern captures, and no pattern
captures a colon: it is no word character, and a pattern whose text has one is not accepted
(`not_capturable_colon`). Class names may well have colons.
-/

namespace Archmap

variable {id id' : Identifier}

/-! ## Standard names -/

namespace Identifier

theorem splitOn_joined (hkept : id ≠ .ignore) (hplain : ∀ part ∈ id.parts, ':' ∉ part.toList) :
    id.joined.toList.splitOn ':' = id.parts.map String.toList := by
  have hcolon : ":".toList = [':'] := rfl
  rw [joined, String.toList_intercalate, hcolon]
  refine List.splitOn_intercalate ':' (by simpa using hplain) fun hnil => hkept ?_
  exact eq_of_parts (List.map_eq_nil_iff.mp hnil)

theorem eq_of_joined (hkept : id ≠ .ignore) (hkept' : id' ≠ .ignore)
    (hplain : ∀ part ∈ id.parts, ':' ∉ part.toList)
    (hplain' : ∀ part ∈ id'.parts, ':' ∉ part.toList) (h : id.joined = id'.joined) : id = id' := by
  have hparts : id.parts.map String.toList = id'.parts.map String.toList := by
    rw [← splitOn_joined hkept hplain, h, splitOn_joined hkept' hplain']
  exact eq_of_parts (List.map_injective_iff.mpr (fun _ _ => String.toList_injective) hparts)

end Identifier

namespace NamingPattern

theorem apply_standard (id : Identifier) : standard.apply id = "Module [" ++ id.joined ++ "]" := by
  have hsegments : standard.segments = [.literal "Module [", .joined, .literal "]"] := by
    decide +kernel
  rw [apply, hsegments]
  simp [NamingSegment.apply, String.join]

theorem apply_standard_ne_empty (id : Identifier) : standard.apply id ≠ "" := by
  rw [apply_standard]
  intro h
  simpa using congrArg String.toList h

theorem joined_eq_of_apply_standard (h : standard.apply id = standard.apply id') :
    id.joined = id'.joined := by
  rw [apply_standard, apply_standard] at h
  simpa [String.append_left_inj, String.append_right_inj] using h

end NamingPattern

/-! ## Accepted patterns -/

namespace NamespacePattern

variable {pattern : NamespacePattern} {text : String} {cls cls' : Class}

theorem colon_notMem_identify (h : ofText text = .ok pattern) (hkept : pattern.identify cls ≠ .ignore) :
    ∀ part ∈ (pattern.identify cls).parts, ':' ∉ part.toList :=
  fun part hpart hcolon =>
    not_capturable_colon h (((identify_spec h hkept).2 part hpart).2 ':' hcolon)

theorem eq_of_standardName (h : ofText text = .ok pattern) (hkept : pattern.identify cls ≠ .ignore)
    (hkept' : pattern.identify cls' ≠ .ignore)
    (hname : NamingPattern.standard.apply (pattern.identify cls)
      = NamingPattern.standard.apply (pattern.identify cls')) :
    pattern.identify cls = pattern.identify cls' :=
  Identifier.eq_of_joined hkept hkept' (colon_notMem_identify h hkept)
    (colon_notMem_identify h hkept') (NamingPattern.joined_eq_of_apply_standard hname)

/-- No two groups get one standard name. -/
theorem standardNames_nodup (h : ofText text = .ok pattern) (classes : List Class) :
    ((Creator.groups pattern.identify classes).map
      fun group => NamingPattern.standard.apply group.identifier).Nodup := by
  refine List.Nodup.map_on ?_ Creator.groups_ascending.nodup
  intro group hgroup group' hgroup' hname
  obtain ⟨cls, -, hid, hkept⟩ := Creator.exists_class_of_group hgroup
  obtain ⟨cls', -, hid', hkept'⟩ := Creator.exists_class_of_group hgroup'
  rw [← hid, ← hid'] at hname
  have hsame := eq_of_standardName h hkept hkept' hname
  rw [hid, hid'] at hsame
  exact Creator.groups_ascending.eq_of_key_eq hgroup hgroup' (congrArg Identifier.parts hsame)

end NamespacePattern

/-- An accepted pattern makes a module graph of every snapshot. An identifier that it gives, unless
it is the mark of ignored classes, has one part for each opening round bracket of the pattern, none
empty and none with a colon or with anything else but word characters, dots and literal characters
of the pattern; so identifiers with one standard name are one. -/
theorem patternModules_exist {m : Type → Type} [Monad m] [LawfulMonad m]
    {pattern : NamespacePattern} {text : String} (h : NamespacePattern.ofText text = .ok pattern) :
    (∀ (aggregation : AggregationSettings) (roots : RootNamespaces) (snapshot : Snapshot),
        ∃ graph, ((Creator.ofAssociation (.namespaces pattern) : Creator m).aggregatedBy
            aggregation).modularize roots snapshot = pure (.ok graph, roots))
      ∧ (∀ cls, pattern.identify cls ≠ .ignore →
          (pattern.identify cls).parts.length = text.toList.count '('
          ∧ ∀ part ∈ (pattern.identify cls).parts,
              part ≠ "" ∧ ':' ∉ part.toList
              ∧ ∀ c ∈ part.toList, NamespacePattern.Capturable text c)
      ∧ ∀ cls cls', pattern.identify cls ≠ .ignore → pattern.identify cls' ≠ .ignore →
          NamingPattern.standard.apply (pattern.identify cls)
            = NamingPattern.standard.apply (pattern.identify cls') →
          pattern.identify cls = pattern.identify cls' := by
  refine ⟨fun aggregation roots snapshot => ?_, fun cls hkept => ?_, fun cls cls' => ?_⟩
  · exact Creator.exists_modularize_eq rfl rfl
      (fun group _ => NamingPattern.apply_standard_ne_empty group.identifier)
      (NamespacePattern.standardNames_nodup h snapshot.classes)
  · obtain ⟨hlength, hparts⟩ := NamespacePattern.identify_spec h hkept
    refine ⟨hlength, fun part hpart => ⟨(hparts part hpart).1, ?_, (hparts part hpart).2⟩⟩
    exact NamespacePattern.colon_notMem_identify h hkept part hpart
  · exact NamespacePattern.eq_of_standardName h

namespace Suffixes

/-- Only the second alternative is tied to the end of the namespace, and it is tied to nothing in
front, so it captures the last two segments and the first of these, behind whatever there is. -/
def pattern : NamespacePattern where
  text := "x|((*).*)"
  shape :=
    let inner : Shape := .capture 2 (.followed .nothing .segment)
    let outer : Shape :=
      .capture 1 (.followed (.followed (.followed .nothing inner) (.literal '.')) .segment)
    .either (.followed (.followed .nothing .start) (.literal 'x'))
      (.followed (.followed .nothing outer) .finish)
  captures := 2

theorem accepted : NamespacePattern.ofText "x|((*).*)" = .ok pattern := by
  decide +kernel

def coloned : ClassName := ⟨"a:b.c.C", by decide +kernel⟩
def other : ClassName := ⟨"d.e.C", by decide +kernel⟩

/-- The class with a colon in its name depends on one with another end. There is one more with the
same end, and one that only the first alternative matches. -/
def snapshot : Snapshot where
  classes := [⟨⟨"a.b.c.C", by decide +kernel⟩, []⟩, ⟨coloned, []⟩, ⟨other, []⟩,
    ⟨⟨"x.C", by decide +kernel⟩, []⟩]
  dependencies := [⟨coloned, other, ""⟩]
  classes_ascending := by unfold Ascending; decide +kernel
  dependencies_ascending := by unfold Ascending; decide +kernel
  origins_known := by decide +kernel

example : snapshot.classes.map (fun cls => (pattern.identify cls).parts)
    = [["b.c", "b"], ["b.c", "b"], ["d.e", "d"], []] := by
  decide +kernel

end Suffixes

theorem patternModules_exist_suffixes :
    NamespacePattern.ofText "x|((*).*)" = .ok Suffixes.pattern
      ∧ (∃ graph, (Creator.ofAssociation (.namespaces Suffixes.pattern) : Creator Id).modularize
          ⟨[]⟩ Suffixes.snapshot = pure (.ok graph, ⟨[]⟩))
      ∧ Suffixes.pattern.identify ⟨Suffixes.coloned, []⟩ ≠ .ignore
      ∧ (Suffixes.pattern.identify ⟨Suffixes.coloned, []⟩).parts.length = 2
      ∧ ∀ part ∈ (Suffixes.pattern.identify ⟨Suffixes.coloned, []⟩).parts, ':' ∉ part.toList := by
  obtain ⟨hgraph, hparts, -⟩ := patternModules_exist (m := Id) Suffixes.accepted
  have hkept : Suffixes.pattern.identify ⟨Suffixes.coloned, []⟩ ≠ .ignore := by decide +kernel
  obtain ⟨hlength, hplain⟩ := hparts ⟨Suffixes.coloned, []⟩ hkept
  exact ⟨Suffixes.accepted, hgraph {} ⟨[]⟩ Suffixes.snapshot, hkept, hlength,
    fun part hpart => (hplain part hpart).2.1⟩

end Archmap
