import Archmap.Snapshot
import Archmap.Proofs.Ascending

/-!
# What a snapshot is built of

Building sorts the classes, looks for a name given twice, sorts and thins the dependencies and looks
for one that starts at no class. What comes out can be told without any order of the lists that go
in (`Makes`): the least name given twice; if there is none, the least dependency with an unknown
origin; if there is none either, the snapshot whose members are those of the lists.

The description fits what `build` gives (`makes_build`) and nothing else (`Makes.unique`). It asks
of a class only how often it is listed, and of a dependency only whether it is. Hence the order of
both lists is irrelevant, and so are repeated dependencies (`build_congr`).
-/

namespace Archmap

theorem ClassName.text_injective : Function.Injective ClassName.text := by
  rintro ⟨text, _⟩ ⟨_, _⟩ h
  cases h
  rfl

theorem Dependency.key_injective : Function.Injective Dependency.key := by
  rintro ⟨origin, target, description⟩ ⟨origin', target', description'⟩ h
  simp only [Dependency.key, List.cons.injEq, and_true] at h
  obtain ⟨horigin, htarget, hdescription⟩ := h
  rw [ClassName.text_injective horigin, ClassName.text_injective htarget, hdescription]

/-- The element has a property that no element with a lesser key has. -/
def Least {α κ : Type} [LT κ] (key : α → κ) (P : α → Prop) (a : α) : Prop :=
  P a ∧ ∀ b, P b → ¬key b < key a

theorem Least.unique {α κ : Type} [LT κ] [trichotomous : Std.Trichotomous fun x y : κ => x < y]
    {key : α → κ} {P : α → Prop} {a b : α} (hkey : Function.Injective key) (ha : Least key P a)
    (hb : Least key P b) : a = b :=
  hkey (trichotomous.trichotomous _ _ (hb.2 a ha.1) (ha.2 b hb.1))

namespace Snapshot

variable {classes classes' : List Class} {dependencies dependencies' : List Dependency}
  {names : List ClassName} {name : ClassName} {result result' : Except SnapshotError Snapshot}

/-- What lists of classes and dependencies make: the least of the faults that come first, or a
snapshot of just these classes and dependencies. -/
inductive Makes (classes : List Class) (dependencies : List Dependency) :
    Except SnapshotError Snapshot → Prop
  | duplicate {name : ClassName}
      (hleast : Least ClassName.text (fun name => 1 < (classes.map Class.name).count name) name) :
      Makes classes dependencies (.error (.duplicateClass name))
  | stray {d : Dependency} (hnodup : (classes.map Class.name).Nodup)
      (hleast : Least Dependency.key
        (fun d => d ∈ dependencies ∧ d.origin ∉ classes.map Class.name) d) :
      Makes classes dependencies (.error (.unknownOrigin d))
  | built {snapshot : Snapshot} (hnodup : (classes.map Class.name).Nodup)
      (hknown : ∀ d ∈ dependencies, d.origin ∈ classes.map Class.name)
      (hclasses : ∀ cls, cls ∈ snapshot.classes ↔ cls ∈ classes)
      (hdependencies : ∀ d, d ∈ snapshot.dependencies ↔ d ∈ dependencies) :
      Makes classes dependencies (.ok snapshot)

/-! ## The description fits -/

theorem mem_distinctNames : name ∈ collectBy ClassName.text keepFirst names ↔ name ∈ names :=
  mem_collectBy_iff fun _ _ _ _ heq => ClassName.text_injective heq

theorem mem_distinct {d : Dependency} :
    d ∈ collectBy Dependency.key keepFirst dependencies ↔ d ∈ dependencies :=
  mem_collectBy_iff fun _ _ _ _ heq => Dependency.key_injective heq

theorem mem_sorted (hnodup : (classes.map Class.name).Nodup) {cls : Class} :
    cls ∈ collectBy (fun cls : Class => cls.name.text) keepFirst classes ↔ cls ∈ classes :=
  mem_collectBy_iff fun _ ha _ hb heq =>
    List.inj_on_of_nodup_map hnodup ha hb (ClassName.text_injective heq)

theorem leastRepeated?_eq_none (h : leastRepeated? names = none) : names.Nodup := by
  rw [List.nodup_iff_count_le_one]
  intro name
  by_contra hmore
  have hmem : name ∈ names := List.count_pos_iff.mp (by omega)
  exact List.find?_eq_none.mp h name (mem_distinctNames.mpr hmem) (by simpa using hmore)

theorem leastRepeated?_eq_some (h : leastRepeated? names = some name) :
    Least ClassName.text (fun name => 1 < names.count name) name := by
  have hfound := List.find?_some h
  refine ⟨of_decide_eq_true hfound, fun other hother => ?_⟩
  have hmem : other ∈ names := List.count_pos_iff.mp (Nat.zero_lt_of_lt hother)
  exact (ascending_collectBy (by intros; rfl) names).not_less_of_find? h
    (mem_distinctNames.mpr hmem) (decide_eq_true hother)

/-- A dependency is taken for a stray iff its origin is not among the names of the classes. -/
theorem isStray_iff (hnodup : (classes.map Class.name).Nodup) {d : Dependency} :
    (!(collectBy (fun cls : Class => cls.name.text) keepFirst classes).any (·.name = d.origin))
        = true ↔ d.origin ∉ classes.map Class.name := by
  simp only [Bool.not_eq_true', List.any_eq_false, mem_sorted hnodup, decide_eq_true_eq,
    List.mem_map, not_exists, not_and]

theorem makes_build (classes : List Class) (dependencies : List Dependency) :
    Makes classes dependencies (build classes dependencies) := by
  generalize hresult : build classes dependencies = result
  unfold build at hresult
  dsimp only at hresult
  split at hresult
  · rename_i name hrepeated
    cases hresult
    exact .duplicate (leastRepeated?_eq_some hrepeated)
  · rename_i hunrepeated
    have hnodup := leastRepeated?_eq_none hunrepeated
    split at hresult
    · rename_i d hfound
      cases hresult
      refine .stray hnodup ⟨⟨mem_distinct.mp (List.mem_of_find?_eq_some hfound), ?_⟩, ?_⟩
      · have hstray := List.find?_some hfound
        exact (isStray_iff hnodup).mp hstray
      · rintro other ⟨hother, hstray⟩
        exact (ascending_collectBy (by intros; rfl) dependencies).not_less_of_find? hfound
          (mem_distinct.mpr hother) ((isStray_iff hnodup).mpr hstray)
    · rename_i hnone
      cases hresult
      refine .built hnodup (fun d hd => ?_) (fun cls => mem_sorted hnodup) fun d => mem_distinct
      by_contra hstray
      exact List.find?_eq_none.mp hnone d (mem_distinct.mpr hd) ((isStray_iff hnodup).mpr hstray)

/-! ## Nothing else does -/

/-- A snapshot is known by its classes and dependencies. -/
theorem ext {snapshot snapshot' : Snapshot}
    (hclasses : ∀ cls, cls ∈ snapshot.classes ↔ cls ∈ snapshot'.classes)
    (hdependencies : ∀ d, d ∈ snapshot.dependencies ↔ d ∈ snapshot'.dependencies) :
    snapshot = snapshot' := by
  obtain ⟨classes, dependencies, hc, hd, _⟩ := snapshot
  obtain ⟨classes', dependencies', hc', hd', _⟩ := snapshot'
  obtain rfl : classes = classes' := ascending_ext hc hc' hclasses
  obtain rfl : dependencies = dependencies' := ascending_ext hd hd' hdependencies
  rfl

theorem not_nodup_of_repeated (h : 1 < names.count name) : ¬names.Nodup := fun hnodup =>
  absurd (List.nodup_iff_count_le_one.mp hnodup name) (by omega)

theorem Makes.unique (h : Makes classes dependencies result)
    (h' : Makes classes dependencies result') : result = result' := by
  cases h with
  | duplicate hleast =>
      cases h' with
      | duplicate hleast' => rw [hleast.unique ClassName.text_injective hleast']
      | stray hnodup _ => exact absurd hnodup (not_nodup_of_repeated hleast.1)
      | built hnodup _ _ _ => exact absurd hnodup (not_nodup_of_repeated hleast.1)
  | stray hnodup hleast =>
      cases h' with
      | duplicate hleast' => exact absurd hnodup (not_nodup_of_repeated hleast'.1)
      | stray _ hleast' => rw [hleast.unique Dependency.key_injective hleast']
      | built _ hknown _ _ => exact absurd (hknown _ hleast.1.1) hleast.1.2
  | built hnodup hknown hclasses hdependencies =>
      cases h' with
      | duplicate hleast' => exact absurd hnodup (not_nodup_of_repeated hleast'.1)
      | stray _ hleast' => exact absurd (hknown _ hleast'.1.1) hleast'.1.2
      | built _ _ hclasses' hdependencies' =>
          rw [ext (fun cls => (hclasses cls).trans (hclasses' cls).symm)
            fun d => (hdependencies d).trans (hdependencies' d).symm]

theorem names_nodup (snapshot : Snapshot) : (snapshot.classes.map Class.name).Nodup := by
  refine List.Nodup.of_map ClassName.text ?_
  rw [List.map_map]
  exact snapshot.classes_ascending.nodup_keys

theorem origin_mem_names {snapshot : Snapshot} {d : Dependency}
    (hd : d ∈ snapshot.dependencies) : d.origin ∈ snapshot.classes.map Class.name := by
  obtain ⟨cls, hcls, hname⟩ := snapshot.origins_known d hd
  exact hname ▸ List.mem_map_of_mem hcls

/-- The lists of a snapshot make this snapshot. -/
theorem build_self (snapshot : Snapshot) :
    build snapshot.classes snapshot.dependencies = .ok snapshot :=
  (makes_build _ _).unique (.built snapshot.names_nodup (fun _ hd => origin_mem_names hd)
    (fun _ => Iff.rfl) fun _ => Iff.rfl)

/-! ## Classes alone -/

theorem no_dependencies_ascending : Ascending Dependency.key [] := List.Pairwise.nil

/-- The snapshot of classes without dependencies. -/
def ofClasses (classes : List Class) (ascending : Ascending (fun cls => cls.name.text) classes) :
    Snapshot where
  classes := classes
  dependencies := []
  classes_ascending := ascending
  dependencies_ascending := no_dependencies_ascending
  origins_known := List.forall_mem_nil _

/-! ## Order and repetition -/

theorem Makes.congr (hclasses : classes.Perm classes')
    (hdependencies : ∀ d, d ∈ dependencies ↔ d ∈ dependencies')
    (h : Makes classes dependencies result) : Makes classes' dependencies' result := by
  have hnames := hclasses.map Class.name
  cases h with
  | duplicate hleast =>
      simp only [hnames.count_eq] at hleast
      exact .duplicate hleast
  | stray hnodup hleast =>
      simp only [hdependencies, hnames.mem_iff] at hleast
      exact .stray (hnames.nodup_iff.mp hnodup) hleast
  | built hnodup hknown hmem hmem' =>
      refine .built (hnames.nodup_iff.mp hnodup) (fun d hd => ?_)
        (fun cls => (hmem cls).trans hclasses.mem_iff) fun d => (hmem' d).trans (hdependencies d)
      exact hnames.mem_iff.mp (hknown d ((hdependencies d).mpr hd))

/-- Neither the order of the classes nor order and repetition of the dependencies have a say in what
is built of them. -/
theorem build_congr (hclasses : classes.Perm classes')
    (hdependencies : ∀ d, d ∈ dependencies ↔ d ∈ dependencies') :
    build classes dependencies = build classes' dependencies' :=
  ((makes_build classes dependencies).congr hclasses hdependencies).unique
    (makes_build classes' dependencies')

end Snapshot

end Archmap
