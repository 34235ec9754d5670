import Archmap.Digraph.Components
import Archmap.Proofs.Digraph.Flood

/-!
# Which component is searched next

A splitter is *lawful* if it lists the strongly connected components of the graph: every node lies
in one of them, and one that holds a node holds exactly the nodes that the node leads to and that
lead back. Nothing is asked about their order, nor whether a component is listed twice. Flooding
is a lawful way to split (`flooding_lawful`).

The next component to search is chosen among the nodes from some start on. With a lawful splitter
the choice is right (`leastComponent?_eq_some`): it is the component of its smallest node, and no
node passed over lies on a cycle through nodes that are not below the start.
-/

namespace Archmap

open Relation

variable {n : Nat} {next : Fin n → List (Fin n)}

/-- There is an arc from `v` to `w`. -/
def Arc (next : Fin n → List (Fin n)) (v w : Fin n) : Prop := w ∈ next v

/-- There is an arc from `v` to `w`, and `w` is not below `start`. -/
def ArcFrom (next : Fin n → List (Fin n)) (start : Nat) (v w : Fin n) : Prop :=
  w ∈ next v ∧ start ≤ w

/-- The two nodes lead to each other. -/
def Mutual (r : Fin n → Fin n → Prop) (v w : Fin n) : Prop :=
  ReflTransGen r v w ∧ ReflTransGen r w v

theorem Mutual.symm {r : Fin n → Fin n → Prop} {v w : Fin n} (h : Mutual r v w) :
    Mutual r w v := ⟨h.2, h.1⟩

theorem Mutual.trans {r : Fin n → Fin n → Prop} {u v w : Fin n} (h : Mutual r u v)
    (h' : Mutual r v w) : Mutual r u w := ⟨h.1.trans h'.1, h'.2.trans h.2⟩

/-- The splitter lists the strongly connected components of every graph. -/
structure Splitter.Lawful (split : Splitter) : Prop where
  covers : ∀ {n : Nat} (next : Fin n → List (Fin n)) (v : Fin n), ∃ c ∈ split n next, v ∈ c
  mem_iff : ∀ {n : Nat} (next : Fin n → List (Fin n)), ∀ c ∈ split n next, ∀ v ∈ c, ∀ w,
    w ∈ c ↔ Mutual (Arc next) v w
  nodup : ∀ {n : Nat} (next : Fin n → List (Fin n)), ∀ c ∈ split n next, c.Nodup

/-! ## Flooding is a lawful way to split -/

theorem reachable_all_get {node v : Fin n} :
    (reachable next (Vector.replicate n true) node).get v = true ↔
      ReflTransGen (Arc next) node v := by
  have harc : ArcInto next (Vector.replicate n true) = Arc next := by
    funext u w
    simp only [ArcInto, Arc, get_replicate, and_true]
  simp only [reachable_get, get_replicate, harc, true_and]

theorem reversed_leads {v w : Fin n} :
    ReflTransGen (Arc (reversed next)) v w ↔ ReflTransGen (Arc next) w v := by
  have hswap : Arc (reversed next) = Function.swap (Arc next) := by
    funext u x
    simp [Arc, reversed, Function.swap]
  rw [hswap, reflTransGen_swap]

theorem mem_componentOf {v w : Fin n} :
    w ∈ componentOf next (Vector.ofFn (reversed next)).get v ↔ Mutual (Arc next) v w := by
  have hprevious : (Vector.ofFn (reversed next)).get = reversed next :=
    funext fun u => get_ofFn (reversed next) u
  simp [componentOf, hprevious, reachable_all_get, reversed_leads, Mutual]

/-- Taking the components of some nodes: only components are taken, none is given up again, and the
nodes are covered in the end. -/
theorem flooding_fold {take : Fin n → List (Fin n)} (htake : ∀ v, v ∈ take v)
    (nodes : List (Fin n)) (taken : List (List (Fin n))) :
    let result := nodes.foldl (fun components node =>
      if components.any (·.contains node) then components else take node :: components) taken
    (∀ c ∈ result, c ∈ taken ∨ ∃ v, c = take v) ∧ (∀ c ∈ taken, c ∈ result)
      ∧ ∀ v ∈ nodes, ∃ c ∈ result, v ∈ c := by
  induction nodes generalizing taken with
  | nil => exact ⟨fun c hc => Or.inl hc, fun c hc => hc, fun v hv => by cases hv⟩
  | cons node nodes ih =>
      by_cases hcovered : taken.any (·.contains node) = true
      · obtain ⟨honly, hkept, hcovers⟩ := ih taken
        simp only [List.foldl_cons, hcovered, if_true]
        refine ⟨honly, hkept, fun v hv => ?_⟩
        rcases List.mem_cons.mp hv with rfl | hv
        · obtain ⟨c, hc, hv⟩ := List.any_eq_true.mp hcovered
          exact ⟨c, hkept c hc, by simpa using hv⟩
        · exact hcovers v hv
      · obtain ⟨honly, hkept, hcovers⟩ := ih (take node :: taken)
        simp only [List.foldl_cons, hcovered]
        refine ⟨fun c hc => ?_, fun c hc => hkept c (List.mem_cons_of_mem _ hc), fun v hv => ?_⟩
        · rcases honly c hc with hc | hc
          · rcases List.mem_cons.mp hc with rfl | hc
            · exact Or.inr ⟨node, rfl⟩
            · exact Or.inl hc
          · exact Or.inr hc
        · rcases List.mem_cons.mp hv with rfl | hv
          · exact ⟨take v, hkept _ (List.mem_cons_self ..), htake v⟩
          · exact hcovers v hv

theorem flooding_lawful : Splitter.flooding.Lawful := by
  have hfold : ∀ {n : Nat} (next : Fin n → List (Fin n)),
      (∀ c ∈ Splitter.flooding n next,
        ∃ v, c = componentOf next (Vector.ofFn (reversed next)).get v)
      ∧ ∀ v, ∃ c ∈ Splitter.flooding n next, v ∈ c := by
    intro n next
    have htake : ∀ v, v ∈ componentOf next (Vector.ofFn (reversed next)).get v :=
      fun v => mem_componentOf.mpr ⟨.refl, .refl⟩
    obtain ⟨honly, -, hcovers⟩ := flooding_fold htake (List.finRange n) []
    exact ⟨fun c hc => (honly c hc).resolve_left (List.not_mem_nil),
      fun v => hcovers v (List.mem_finRange v)⟩
  constructor
  · intro n next v
    exact (hfold next).2 v
  · intro n next c hc v hv w
    obtain ⟨u, rfl⟩ := (hfold next).1 c hc
    have huv := mem_componentOf.mp hv
    rw [mem_componentOf]
    exact ⟨fun huw => huv.symm.trans huw, fun hvw => huv.trans hvw⟩
  · intro n next c hc
    obtain ⟨u, rfl⟩ := (hfold next).1 c hc
    exact (List.nodup_finRange n).filter _

/-! ## The graph on the nodes from a start on -/

theorem le_raise {start : Nat} (v : Fin (n - start)) : start ≤ (raise v).val :=
  Nat.le_add_right start v

theorem raise_injective {start : Nat} : Function.Injective (raise : Fin (n - start) → Fin n) := by
  intro v w h
  have hval : start + v.val = start + w.val := congrArg Fin.val h
  exact Fin.ext (by omega)

theorem lower?_eq_some {start : Nat} {w : Fin n} {v : Fin (n - start)} :
    lower? start w = some v ↔ raise v = w := by
  unfold lower?
  split
  · rw [Option.some.injEq, Fin.ext_iff, Fin.ext_iff]
    simp only [raise]
    omega
  · rename_i hlow
    simp only [reduceCtorEq, false_iff]
    rintro rfl
    exact hlow (le_raise v)

theorem exists_raise {start : Nat} {w : Fin n} (h : start ≤ w.val) :
    ∃ v : Fin (n - start), raise v = w :=
  ⟨⟨w.val - start, by omega⟩, Fin.ext (by simp only [raise]; omega)⟩

theorem arc_upper {start : Nat} {v w : Fin (n - start)} :
    Arc (upper next start) v w ↔ ArcFrom next start (raise v) (raise w) := by
  simp only [Arc, ArcFrom, upper, List.mem_filterMap, lower?_eq_some]
  constructor
  · rintro ⟨u, hu, rfl⟩
    exact ⟨hu, le_raise w⟩
  · rintro ⟨hw, -⟩
    exact ⟨raise w, hw, rfl⟩

theorem upper_leads {start : Nat} {v w : Fin (n - start)} :
    ReflTransGen (Arc (upper next start)) v w ↔
      ReflTransGen (ArcFrom next start) (raise v) (raise w) := by
  constructor
  · intro h
    exact ReflTransGen.lift raise (fun _ _ harc => arc_upper.mp harc) _ _ h
  · intro h
    generalize hx : raise w = x at h
    induction h generalizing w with
    | refl => rw [raise_injective hx]
    | tail _ hlast ih =>
        obtain ⟨hmem, hle⟩ := hlast
        subst hx
        rename_i u hway
        rcases Nat.lt_or_ge u.val start with hlow | hhigh
        · -- only the first node of a way may lie below the start, and `raise v` does not
          rcases ReflTransGen.cases_tail hway with heq | ⟨_, _, hinto⟩
          · exact absurd (le_raise v) (by rw [← heq]; omega)
          · exact absurd hinto.2 (by omega)
        · obtain ⟨u', rfl⟩ := exists_raise hhigh
          exact (ih rfl).tail (arc_upper.mpr ⟨hmem, hle⟩)

theorem mutual_upper {start : Nat} {v w : Fin (n - start)} :
    Mutual (Arc (upper next start)) v w ↔ Mutual (ArcFrom next start) (raise v) (raise w) := by
  rw [Mutual, Mutual, upper_leads, upper_leads]

/-- What a node leads to is not below the start, if the node is not. -/
theorem le_of_leads {start : Nat} {v w : Fin n} (hv : start ≤ v.val)
    (h : ReflTransGen (ArcFrom next start) v w) : start ≤ w.val := by
  cases h with
  | refl => exact hv
  | tail _ hlast => exact hlast.2

theorem leads_mono {start start' : Nat} (hle : start ≤ start') {v w : Fin n}
    (h : ReflTransGen (ArcFrom next start') v w) : ReflTransGen (ArcFrom next start) v w :=
  ReflTransGen.mono (fun _ _ harc => ⟨harc.1, hle.trans harc.2⟩) _ _ h

theorem Mutual.mono {start start' : Nat} (hle : start ≤ start') {v w : Fin n}
    (h : Mutual (ArcFrom next start') v w) : Mutual (ArcFrom next start) v w :=
  ⟨leads_mono hle h.1, leads_mono hle h.2⟩

/-! ## The least component -/

theorem mem_bigComponents {split : Splitter} (hsplit : split.Lawful) {start : Nat}
    {c : List (Fin n)} (hc : c ∈ bigComponents split next start) {v : Fin n} (hv : v ∈ c)
    (w : Fin n) : start ≤ v.val ∧ (w ∈ c ↔ Mutual (ArcFrom next start) v w) := by
  simp only [bigComponents, List.mem_map, List.mem_filter] at hc
  obtain ⟨low, ⟨hlow, -⟩, rfl⟩ := hc
  obtain ⟨v', hv', rfl⟩ := List.mem_map.mp hv
  refine ⟨le_raise v', ?_⟩
  constructor
  · intro hw
    obtain ⟨w', hw', rfl⟩ := List.mem_map.mp hw
    exact mutual_upper.mp ((hsplit.mem_iff _ low hlow v' hv' w').mp hw')
  · intro hmutual
    obtain ⟨w', rfl⟩ := exists_raise (le_of_leads (le_raise v') hmutual.1)
    exact List.mem_map_of_mem ((hsplit.mem_iff _ low hlow v' hv' w').mpr (mutual_upper.mpr hmutual))

theorem exists_bigComponent {split : Splitter} (hsplit : split.Lawful) {start : Nat} {v w : Fin n}
    (hv : start ≤ v.val) (hne : w ≠ v) (h : Mutual (ArcFrom next start) v w) :
    ∃ c ∈ bigComponents split next start, v ∈ c := by
  obtain ⟨v', rfl⟩ := exists_raise hv
  obtain ⟨w', rfl⟩ := exists_raise (le_of_leads hv h.1)
  obtain ⟨low, hlow, hv'⟩ := hsplit.covers (upper next start) v'
  have hw' : w' ∈ low := (hsplit.mem_iff _ low hlow v' hv' w').mpr (mutual_upper.mpr h)
  have hlength : 1 < low.length := by
    by_contra hshort
    obtain ⟨u, hu⟩ : ∃ u, low = [u] :=
      List.length_eq_one_iff.mp (by have := List.length_pos_of_mem hv'; omega)
    rw [hu, List.mem_singleton] at hv' hw'
    exact hne (by rw [hv', hw'])
  exact ⟨low.map raise, List.mem_map.mpr ⟨low, by simp [hlow, hlength], rfl⟩,
    List.mem_map_of_mem hv'⟩

/-- A component with a node has a least one, which is listed in front of it. -/
theorem exists_least {components : List (List (Fin n))} {c : List (Fin n)} (hc : c ∈ components)
    {v : Fin n} (hv : v ∈ c) :
    ∃ least ≤ v, (least, c) ∈ components.filterMap fun component =>
      (component.minOn? id).map (·, component) := by
  refine ⟨(c.minOn? id).get (List.isSome_minOn?_of_mem hv),
    List.apply_get_minOn?_le_of_mem (f := id) hv, List.mem_filterMap.mpr ⟨c, hc, ?_⟩⟩
  rw [Option.map_eq_some_iff]
  exact ⟨_, (Option.some_get _).symm, rfl⟩

/-- The component chosen is one of those to choose from, and it is chosen for its least node. -/
theorem leastComponent?_chosen {split : Splitter} {start : Nat} {least : Fin n} {c : List (Fin n)}
    (h : leastComponent? split next start = some (least, c)) :
    c ∈ bigComponents split next start ∧ c.minOn? id = some least := by
  obtain ⟨c', hc', hmin⟩ := List.mem_filterMap.mp (List.minOn?_mem h)
  obtain ⟨root, hmin, heq⟩ := Option.map_eq_some_iff.mp hmin
  obtain rfl : least = root := (congrArg Prod.fst heq).symm
  obtain rfl : c = c' := (congrArg Prod.snd heq).symm
  exact ⟨hc', hmin⟩

/-- However the graph is split, the walk begins in the component chosen and not below the start. -/
theorem leastComponent?_mem {split : Splitter} {start : Nat} {least : Fin n} {c : List (Fin n)}
    (h : leastComponent? split next start = some (least, c)) : start ≤ least.val ∧ least ∈ c := by
  obtain ⟨hc, hmin⟩ := leastComponent?_chosen h
  have hmem : least ∈ c := List.minOn?_mem hmin
  obtain ⟨low, -, rfl⟩ := List.mem_map.mp hc
  obtain ⟨v, -, rfl⟩ := List.mem_map.mp hmem
  exact ⟨le_raise v, hmem⟩

/-- If no component is left to search, no node from the start on lies on a cycle. -/
theorem leastComponent?_eq_none {split : Splitter} (hsplit : split.Lawful) {start : Nat}
    (h : leastComponent? split next start = none) {v w : Fin n} (hv : start ≤ v.val)
    (hmutual : Mutual (ArcFrom next start) v w) : w = v := by
  by_contra hne
  obtain ⟨c, hc, hvc⟩ := exists_bigComponent hsplit hv hne hmutual
  obtain ⟨least, -, hmem⟩ := exists_least hc hvc
  have hsome := List.isSome_minOn?_of_mem (f := Prod.fst) hmem
  have hnone : (((bigComponents split next start).filterMap fun component =>
      (component.minOn? id).map (·, component)).minOn? Prod.fst) = none := h
  rw [hnone] at hsome
  cases hsome

/-- Ways among nodes that all lead back to the least one of them do not go below it. -/
theorem Mutual.from_least {start : Nat} {least w : Fin n}
    (hleast : ∀ u, Mutual (ArcFrom next start) least u → least ≤ u)
    (h : Mutual (ArcFrom next start) least w) : Mutual (ArcFrom next least) least w := by
  constructor
  · have hforth := h.1
    have hback := h.2
    clear h
    induction hforth with
    | refl => exact .refl
    | @tail u x hway hlast ih =>
        exact (ih (.head hlast hback)).tail ⟨hlast.1, hleast x ⟨hway.tail hlast, hback⟩⟩
  · have hforth := h.1
    have hback := h.2
    clear h
    induction hback using ReflTransGen.head_induction_on with
    | refl => exact .refl
    | @head u x hfirst hway ih =>
        have hx := hforth.tail hfirst
        exact .head ⟨hfirst.1, hleast x ⟨hx, hway⟩⟩ (ih hx)

/-- The component chosen is the one of its least node among the nodes from there on, and no node
that is passed over lies on a cycle. -/
theorem leastComponent?_eq_some {split : Splitter} (hsplit : split.Lawful) {start : Nat}
    {least : Fin n} {c : List (Fin n)} (h : leastComponent? split next start = some (least, c)) :
    start ≤ least.val ∧ (∀ w, w ∈ c ↔ Mutual (ArcFrom next least) least w)
      ∧ ∀ v : Fin n, start ≤ v.val → v < least →
        ∀ w, Mutual (ArcFrom next start) v w → w = v := by
  obtain ⟨hc, hmin⟩ := leastComponent?_chosen h
  have hmem : least ∈ c := List.minOn?_mem hmin
  have hcomponent := mem_bigComponents hsplit hc hmem
  have hlow : ∀ u ∈ c, least ≤ u := by
    intro u hu
    have hle := List.apply_get_minOn?_le_of_mem (f := id) hu
    simpa [hmin] using hle
  refine ⟨(hcomponent least).1, fun w => ?_, fun v hv hless w hmutual => ?_⟩
  · constructor
    · intro hw
      exact Mutual.from_least (fun u hu => hlow u ((hcomponent u).2.mpr hu))
        ((hcomponent w).2.mp hw)
    · intro hmutual
      exact (hcomponent w).2.mpr (hmutual.mono (hcomponent w).1)
  · by_contra hne
    obtain ⟨other, hother, hvother⟩ := exists_bigComponent hsplit hv hne hmutual
    obtain ⟨root, hroot, hlisted⟩ := exists_least hother hvother
    have hle := List.apply_get_minOn?_le_of_mem (f := Prod.fst) hlisted
    rw [leastComponent?] at h
    simp only [h, Option.get_some] at hle
    exact absurd hless (by omega)

end Archmap
