import Archmap.Proofs.Digraph.GraphCycles

/-!
# All cycles, and the first of them

Without regard to a limit, a graph has a list of cycles, `allCycles`: the elementary cycles in the
order in which the search meets them. Each elementary cycle is in it exactly once up to rotation
(`countP_allCycles`). A search with a limit returns a beginning of this list and says truly whether
it is the whole (`cyclesBy_eq`).
-/

namespace Archmap

open Archmap.Graph

variable {N A : Type} [DecidableEq N] {graph : Graph N A} {a b : N} {cycle : Cycle N A}
  {nodes : List N} {split : Splitter}

theorem filterMap_take_of_isSome {α β : Type} {f : α → Option β} {xs : List α}
    (h : ∀ x ∈ xs, (f x).isSome = true) (k : Nat) :
    (xs.take k).filterMap f = (xs.filterMap f).take k := by
  induction xs generalizing k with
  | nil => simp
  | cons x xs ih =>
      obtain ⟨y, hy⟩ := Option.isSome_iff_exists.mp (h x (List.mem_cons_self ..))
      cases k with
      | zero => rfl
      | succ k =>
          rw [List.take_succ_cons, List.filterMap_cons_some hy, List.filterMap_cons_some hy,
            List.take_succ_cons, ih (fun x hx => h x (List.mem_cons_of_mem _ hx)) k]

theorem isRotated_of_map {α β : Type} {f : α → β} (hf : Function.Injective f) {c d : List α}
    (h : c.map f ~r d.map f) : c ~r d := by
  obtain ⟨k, hk⟩ := h
  rw [← List.map_rotate] at hk
  exact ⟨k, List.map_injective_iff.mpr hf hk⟩

namespace Graph

/-! ## The list of all cycles -/

/-- The elementary cycles of the graph in the order in which the search meets them. -/
def allCycles (graph : Graph N A) : List (Cycle N A) :=
  (circuits graph.successors).filterMap graph.cycleThrough?

theorem cycleThrough?_isSome {c : List (Fin graph.nodes.length)}
    (hc : c ∈ circuits graph.successors) : (graph.cycleThrough? c).isSome = true := by
  obtain ⟨cycle, hcycle, -⟩ := cycleThrough?_spec ((mem_circuits successors_loopless).mp hc).1
  rw [hcycle]
  rfl

theorem length_allCycles : graph.allCycles.length = (circuits graph.successors).length :=
  List.filterMap_length_eq_length.mpr fun _ hc => cycleThrough?_isSome hc

omit [DecidableEq N] in
theorem get_ofFn_successors : (Vector.ofFn graph.successors).get = graph.successors :=
  funext fun i => get_ofFn graph.successors i

/-- A search returns the first `max` of all cycles and says whether there are more. -/
theorem cyclesBy_eq (hsplit : split.Lawful) (graph : Graph N A) (max : Nat) :
    graph.cyclesBy split max
      = ⟨graph.allCycles.take max, decide (max < graph.allCycles.length)⟩ := by
  simp only [cyclesBy, get_ofFn_successors, elementaryCycles_eq hsplit successors_loopless]
  rw [filterMap_take_of_isSome (fun _ hc => cycleThrough?_isSome hc), length_allCycles, allCycles]

theorem mem_allCycles : cycle ∈ graph.allCycles ↔ ∃ c ∈ circuits graph.successors,
    graph.cycleThrough? c = some cycle := by
  rw [allCycles, List.mem_filterMap]

theorem exists_circuit (h : cycle ∈ graph.allCycles) : ∃ c, ElementaryCycle (Arc graph.successors) c
    ∧ LeastFirst c ∧ cycle.nodes = c.map graph.nodeAt
    ∧ cycle.edges.map some = graph.edgesAlong c := by
  obtain ⟨c, hc, hcycle⟩ := mem_allCycles.mp h
  obtain ⟨helementary, hleast⟩ := (mem_circuits successors_loopless).mp hc
  obtain ⟨cycle', hcycle', hnodes, hedges⟩ := cycleThrough?_spec helementary
  rw [hcycle'] at hcycle
  cases hcycle
  exact ⟨c, helementary, hleast, hnodes, hedges⟩

theorem nodes_allCycles :
    graph.allCycles.map Cycle.nodes = (circuits graph.successors).map (List.map graph.nodeAt) := by
  rw [allCycles, List.map_filterMap, ← List.filterMap_eq_map]
  refine List.filterMap_congr fun c hc => ?_
  obtain ⟨cycle, hcycle, hnodes, -⟩ :=
    cycleThrough?_spec ((mem_circuits successors_loopless).mp hc).1
  rw [hcycle, Option.map_some, hnodes, Function.comp_apply]

/-! ## Each elementary cycle once -/

omit [DecidableEq N] in
theorem circuits_nodup : (circuits graph.successors).Nodup := by
  refine List.Pairwise.imp ?_ (circuits_ascending successors_ascending)
  intro c d hless heq
  rw [heq] at hless
  exact List.lt_irrefl d hless

theorem circuits_rotation_unique {c d : List (Fin graph.nodes.length)}
    (hc : c ∈ circuits graph.successors) (hd : d ∈ circuits graph.successors)
    (hrot : c.map graph.nodeAt ~r d.map graph.nodeAt) : c = d := by
  obtain ⟨helementary, hleast⟩ := (mem_circuits successors_loopless).mp hc
  obtain ⟨-, hleast'⟩ := (mem_circuits successors_loopless).mp hd
  exact leastFirst_unique helementary.nodup (isRotated_of_map nodeAt_injective hrot) hleast hleast'

/-- An elementary cycle is found from its least node on. -/
theorem IsElementary.exists_circuit (h : graph.IsElementary nodes) :
    ∃ c ∈ circuits graph.successors, c.map graph.nodeAt ~r nodes := by
  obtain ⟨p, rfl⟩ := h.exists_positions
  have hp := isElementary_map.mp h
  have hne : p ≠ [] := by
    intro hnil
    simpa [hnil] using hp.two_le
  obtain ⟨c, hrot, hleast⟩ := exists_leastFirst hne
  exact ⟨c, (mem_circuits successors_loopless).mpr ⟨hp.of_isRotated hrot, hleast⟩,
    (hrot.symm.map graph.nodeAt)⟩

theorem countP_allCycles (h : graph.IsElementary nodes) :
    graph.allCycles.countP (fun cycle => cycle.nodes ~r nodes) = 1 := by
  obtain ⟨c, hc, hrot⟩ := h.exists_circuit
  have hmap : graph.allCycles.countP (fun cycle => cycle.nodes ~r nodes)
      = (graph.allCycles.map Cycle.nodes).countP (fun p => p ~r nodes) := by
    rw [List.countP_map]
    rfl
  have hsame : ∀ d ∈ circuits graph.successors,
      (decide (d.map graph.nodeAt ~r nodes) = true ↔ (d == c) = true) := by
    intro d hd
    rw [decide_eq_true_eq, beq_iff_eq]
    constructor
    · exact fun hd' => circuits_rotation_unique hd hc (hd'.trans hrot.symm)
    · rintro rfl
      exact hrot
  rw [hmap, nodes_allCycles, List.countP_map]
  exact (List.countP_congr hsame).trans (List.count_eq_one_of_mem circuits_nodup hc)

/-- The graph has as many elementary cycles as the list is long. -/
theorem encard_elementaryClasses : graph.elementaryClasses.encard = graph.allCycles.length := by
  classical
  let classOf : List (Fin graph.nodes.length) → Quotient (List.IsRotated.setoid N) :=
    fun c => Quotient.mk _ (c.map graph.nodeAt)
  have hnodup : ((circuits graph.successors).map classOf).Nodup := by
    refine List.Nodup.map_on (fun c hc d hd heq => ?_) circuits_nodup
    exact circuits_rotation_unique hc hd (Quotient.exact heq)
  have hclasses : graph.elementaryClasses
      = ((circuits graph.successors).map classOf).toFinset := by
    ext q
    rw [List.coe_toFinset, Set.mem_ofPred_eq, List.mem_map]
    constructor
    · rintro ⟨nodes, hnodes, rfl⟩
      obtain ⟨c, hc, hrot⟩ := IsElementary.exists_circuit hnodes
      exact ⟨c, hc, Quotient.sound hrot⟩
    · rintro ⟨c, hc, rfl⟩
      exact ⟨_, isElementary_map.mpr ((mem_circuits successors_loopless).mp hc).1, rfl⟩
  rw [hclasses, Set.encard_coe_eq_coe_finsetCard, List.toFinset_card_of_nodup hnodup,
    List.length_map, length_allCycles]

/-- What is true of every cycle found. -/
theorem allCycles_sound (h : cycle ∈ graph.allCycles) :
    cycle.nodes.Nodup
      ∧ (∀ first ∈ cycle.nodes.head?, ∀ v ∈ cycle.nodes, graph.position first ≤ graph.position v)
      ∧ ∀ edge ∈ cycle.edges, graph.edge? edge.origin edge.target = some edge
          ∧ edge.origin ≠ edge.target := by
  obtain ⟨c, hc, hleast, hnodes, hedges⟩ := exists_circuit h
  refine ⟨?_, ?_, ?_⟩
  · rw [hnodes]
    exact hc.nodup.map nodeAt_injective
  · rw [hnodes]
    intro first hfirst v hv
    obtain ⟨i, hi, rfl⟩ := Option.mem_map.mp (List.head?_map ▸ hfirst)
    obtain ⟨j, hj, rfl⟩ := List.mem_map.mp hv
    rw [position_nodeAt, position_nodeAt]
    exact hleast i hi j hj
  · intro edge hedge
    have hmem : some edge ∈ graph.edgesAlong c := hedges ▸ List.mem_map_of_mem hedge
    obtain ⟨ends, hends, hfound⟩ := List.mem_map.mp hmem
    obtain ⟨horigin, htarget⟩ := edge?_ends hfound
    rw [horigin, htarget]
    exact ⟨hfound, nodeAt_injective.ne (hc.ne_of_mem_zip hends)⟩

/-- There is a cycle iff some node reaches itself. -/
theorem allCycles_eq_nil_iff (hloop : ∀ a, ¬(graph.edge? a a).isSome = true) :
    graph.allCycles = [] ↔
      ∀ a, ¬Relation.TransGen (fun a b => (graph.edge? a b).isSome = true) a a := by
  constructor
  · intro hnil a hcycle
    obtain ⟨nodes, hnodes⟩ := exists_elementaryCycle hloop hcycle
    have honce := @countP_allCycles N A _ graph nodes hnodes
    rw [hnil] at honce
    cases honce
  · intro hacyclic
    refine List.eq_nil_iff_forall_not_mem.mpr fun cycle hcycle => ?_
    obtain ⟨c, hc, -, -, -⟩ := exists_circuit hcycle
    have helementary := isElementary_map.mpr hc
    obtain ⟨a, ha⟩ : ∃ a, (c.map graph.nodeAt).head? = some a := by
      rw [← Option.isSome_iff_exists, List.isSome_head?]
      simpa [← List.length_pos_iff] using Nat.lt_of_lt_of_le Nat.zero_lt_two hc.two_le
    exact hacyclic a (helementary.transGen ha)

/-! ## What the cycles depend on -/

omit [DecidableEq N] in
theorem cycle_eq_of_edges {cycle' : Cycle N A} (h : cycle.edges = cycle'.edges) :
    cycle = cycle' := by
  obtain ⟨⟨edges, _, _⟩, _, _⟩ := cycle
  obtain ⟨⟨edges', _, _⟩, _, _⟩ := cycle'
  cases (show edges = edges' from h)
  rfl

/-- Positions have the same successors in two graphs with the same nodes and edges between the same
different nodes, whatever is attached to these. -/
theorem successors_congr {A' : Type} {nodes : List N} {links : List (Link A)}
    {links' : List (Link A')} {hnodup : nodes.Nodup}
    {hlinks : ∀ link ∈ links, link.origin < nodes.length ∧ link.target < nodes.length}
    {hlinks' : ∀ link ∈ links', link.origin < nodes.length ∧ link.target < nodes.length}
    {hascending : Ascending Link.place links} {hascending' : Ascending Link.place links'}
    (hedges : ∀ a b, a ≠ b →
      (((Graph.mk nodes links hnodup hlinks hascending).edge? a b).isSome = true ↔
        ((Graph.mk nodes links' hnodup hlinks' hascending').edge? a b).isSome = true)) :
    (Graph.mk nodes links hnodup hlinks hascending).successors
      = (Graph.mk nodes links' hnodup hlinks' hascending').successors := by
  let g : Graph N A := ⟨nodes, links, hnodup, hlinks, hascending⟩
  let g' : Graph N A' := ⟨nodes, links', hnodup, hlinks', hascending'⟩
  funext i
  have hascends : Ascending id (g.successors i) := @successors_ascending N A g i
  have hascends' : Ascending id (g'.successors i) := @successors_ascending N A' g' i
  refine ascending_ext hascends hascends' fun j => ?_
  rw [mem_successors, mem_successors]
  exact and_congr_right fun hne => hedges _ _ (nodeAt_injective.ne hne)

/-- Two graphs with the same nodes, and the same edges between different nodes, have the same
cycles. -/
theorem allCycles_congr {graph' : Graph N A} (hnodes : graph.nodes = graph'.nodes)
    (hedges : ∀ a b, a ≠ b → graph.edge? a b = graph'.edge? a b) :
    graph.allCycles = graph'.allCycles := by
  obtain ⟨nodes, links, hnodup, hlinks, hascending⟩ := graph
  obtain ⟨nodes', links', hnodup', hlinks', hascending'⟩ := graph'
  cases (show nodes = nodes' from hnodes)
  let g : Graph N A := ⟨nodes, links, hnodup, hlinks, hascending⟩
  let g' : Graph N A := ⟨nodes, links', hnodup', hlinks', hascending'⟩
  have hsuccessors : g.successors = g'.successors :=
    successors_congr fun a b hne => by rw [hedges a b hne]
  have hthrough : ∀ c ∈ circuits g.successors, g.cycleThrough? c = g'.cycleThrough? c := by
    intro c hc
    have helementary := ((mem_circuits successors_loopless).mp hc).1
    obtain ⟨found, hfound, -, halong⟩ := cycleThrough?_spec helementary
    obtain ⟨found', hfound', -, halong'⟩ := cycleThrough?_spec (hsuccessors ▸ helementary)
    have hsame : g.edgesAlong c = g'.edgesAlong c := List.map_congr_left fun ends hends =>
      hedges _ _ (nodeAt_injective.ne (helementary.ne_of_mem_zip hends))
    have heq : found.edges = found'.edges := by
      refine List.map_injective_iff.mpr (Option.some_injective (Edge N A)) ?_
      rw [halong, halong', hsame]
    rw [hfound, hfound', cycle_eq_of_edges heq]
  exact (List.filterMap_congr hthrough).trans
    (congrArg (fun next => (circuits next).filterMap g'.cycleThrough?) hsuccessors)

end Graph

/-! ## The exact enumeration -/

theorem cyclesBy_of_le (hsplit : split.Lawful) {max : Nat}
    (hmax : graph.elementaryClasses.encard ≤ max) :
    graph.cyclesBy split max = ⟨graph.allCycles, false⟩ := by
  rw [encard_elementaryClasses, Nat.cast_le] at hmax
  rw [cyclesBy_eq hsplit, List.take_of_length_le hmax, decide_eq_false (Nat.not_lt_of_le hmax)]

/-- With room for all of them, the search returns exactly the elementary cycles: each is made of the
edges of the graph, begins with the node that was mentioned first, and no other cycle found is a
rotation of it. Edges from a node to itself play no part, and no list of positions that the search
meets fails to be a cycle of edges. -/
theorem cyclesBy_exact (hsplit : split.Lawful) (additions : List (Addition N A)) {max : Nat}
    (hmax : (built additions).elementaryClasses.encard ≤ max) :
    (∀ cycle ∈ ((built additions).cyclesBy split max).cycles,
      2 ≤ cycle.edges.length
        ∧ cycle.nodes.Nodup
        ∧ (∀ first ∈ cycle.nodes.head?, ∀ v ∈ cycle.nodes,
            (additions.flatMap Addition.mentions).idxOf first
              ≤ (additions.flatMap Addition.mentions).idxOf v)
        ∧ ∀ edge ∈ cycle.edges,
            (built additions).edge? edge.origin edge.target = some edge
              ∧ edge.attachments
                = (addedBetween additions edge.origin edge.target).flatMap Edge.attachments
              ∧ edge.origin ≠ edge.target)
      ∧ (∀ nodes, (built additions).IsElementary nodes →
          ((built additions).cyclesBy split max).cycles.countP
            (fun cycle => cycle.nodes ~r nodes) = 1)
      ∧ ((built additions).cyclesBy split max).limitReached = false
      ∧ (built (additions.map Addition.withoutLoop)).cyclesBy split max
          = (built additions).cyclesBy split max
      ∧ ∀ positions ∈ (elementaryCycles split (Vector.ofFn (built additions).successors).get max).1,
          ((built additions).cycleThrough? positions).isSome = true := by
  rw [cyclesBy_of_le hsplit hmax]
  refine ⟨fun cycle hcycle => ?_, fun nodes hnodes => countP_allCycles hnodes, rfl, ?_, ?_⟩
  · obtain ⟨hnodup, hfirst, hedges⟩ := allCycles_sound hcycle
    refine ⟨cycle.two_le_length, hnodup, fun first hhead v hv => ?_, fun edge hedge => ?_⟩
    · refine mentioned_before ?_ (hfirst first hhead v hv)
      obtain ⟨edge, hedge, rfl⟩ := List.mem_map.mp (List.mem_of_mem_head? hhead)
      exact (mem_of_edge? (hedges edge hedge).1).1
    · obtain ⟨hstored, hne⟩ := hedges edge hedge
      refine ⟨hstored, ?_, hne⟩
      rw [edge?_built] at hstored
      split at hstored
      · cases hstored
      · exact (congrArg Edge.attachments (Option.some.inj hstored)).symm
  · have hsame : (built (additions.map Addition.withoutLoop)).allCycles
        = (built additions).allCycles :=
      allCycles_congr (nodes_built_withoutLoop additions) fun a b hne =>
        edge?_built_withoutLoop additions hne
    have hmax' : (built (additions.map Addition.withoutLoop)).elementaryClasses.encard ≤ max := by
      rwa [encard_elementaryClasses, hsame, ← encard_elementaryClasses]
    rw [cyclesBy_of_le hsplit hmax', hsame]
  · intro positions hpositions
    rw [get_ofFn_successors, elementaryCycles_eq hsplit successors_loopless] at hpositions
    exact cycleThrough?_isSome (List.mem_of_mem_take hpositions)

/-- Two cycles through one edge, which is added twice, and an edge from a node to itself. -/
def entwined : List (Addition Nat Nat) :=
  [.edge ⟨0, 1, [7]⟩, .edge ⟨1, 0, []⟩, .edge ⟨0, 1, [8]⟩, .edge ⟨2, 2, [9]⟩, .edge ⟨1, 2, []⟩,
    .edge ⟨2, 0, []⟩]

theorem cyclesBy_exact_entwined :
    (built entwined).elementaryClasses.encard ≤ (2 : Nat)
      ∧ (built entwined).IsElementary [2, 0, 1]
      ∧ ((built entwined).cycles 2).cycles.countP (fun cycle => cycle.nodes ~r [2, 0, 1]) = 1
      ∧ ((built entwined).cycles 2).limitReached = false := by
  have hmax : (built entwined).elementaryClasses.encard ≤ (2 : Nat) := by
    rw [encard_elementaryClasses]
    exact_mod_cast (by decide : (built entwined).allCycles.length ≤ 2)
  have helementary : (built entwined).IsElementary [2, 0, 1] :=
    ⟨by decide, by decide, by decide⟩
  obtain ⟨-, honce, hlimit, -⟩ := cyclesBy_exact flooding_lawful entwined hmax
  exact ⟨hmax, helementary, honce _ helementary, hlimit⟩

/-! ## The limit -/

/-- A search with a limit returns the first cycles of a search without, and says truly whether there
are more. -/
theorem cyclesBy_limit (hsplit : split.Lawful) (graph : Graph N A) {bound : Nat}
    (hbound : graph.elementaryClasses.encard ≤ bound) (max : Nat) :
    (graph.cyclesBy split max).cycles
        = (graph.cyclesBy split bound).cycles.take
            (min max (graph.cyclesBy split bound).cycles.length)
      ∧ ((graph.cyclesBy split max).limitReached = true ↔
          max < (graph.cyclesBy split bound).cycles.length)
      ∧ (∀ max', max ≤ max' →
          (graph.cyclesBy split max).cycles <+: (graph.cyclesBy split max').cycles)
      ∧ (graph.elementaryClasses.encard = max → (graph.cyclesBy split max).limitReached = false) := by
  rw [cyclesBy_of_le hsplit hbound, cyclesBy_eq hsplit]
  refine ⟨?_, by simp, fun max' hle => ?_, fun hexact => ?_⟩
  · rw [← List.take_take, List.take_length]
  · rw [cyclesBy_eq hsplit]
    exact List.take_prefix_take_left hle
  · rw [encard_elementaryClasses, Nat.cast_inj] at hexact
    simp [hexact]

theorem cyclesBy_limit_entwined :
    (built entwined).elementaryClasses.encard ≤ (5 : Nat)
      ∧ ((built entwined).cycles 1).limitReached = true
      ∧ ((built entwined).cycles 1).cycles <+: ((built entwined).cycles 2).cycles := by
  have hbound : (built entwined).elementaryClasses.encard ≤ (5 : Nat) := by
    rw [encard_elementaryClasses]
    exact_mod_cast (by decide : (built entwined).allCycles.length ≤ 5)
  obtain ⟨-, hlimit, hmore, -⟩ := cyclesBy_limit flooding_lawful (built entwined) hbound 1
  refine ⟨hbound, hlimit.mpr ?_, hmore 2 (by decide)⟩
  rw [cyclesBy_of_le flooding_lawful hbound]
  decide

end Archmap
