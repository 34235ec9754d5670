import Mathlib.Data.List.Chain
import Mathlib.Data.List.Rotate
import Mathlib.Data.Nat.Find
import Archmap.Digraph.Path

/-!
# Which lists of edges are paths and cycles

What is wrong with a list of edges is told by its positions. A joint may be broken (`BrokenAt`), and
the check of a list reports the first that is (`firstBreak?_eq_some_iff`). A list in which no joint is
broken is connected (`connected_iff`), and if it has an edge it is taken as a path as it is
(`Path.ofEdges_eq_ok_iff`). Closed and with two edges it is taken as a cycle as it is
(`Cycle.ofEdges_eq_ok_iff`).

Whether a list closes to a cycle does not depend on where it begins. Seen from the ends of the edges
alone, the targets are the origins moved on by one place (`Cycle.exists_edges_iff`), and this does
not single out an edge as the first.
-/

namespace Archmap

variable {N A : Type} {edges xs ys : List (Edge N A)} {path : Path N A} {cycle : Cycle N A}
  {index : Nat} {a : N}

/-! ## Broken joints -/

/-- The edge at a position does not start where the one before it ends. -/
def BrokenAt (edges : List (Edge N A)) : Nat → Prop
  | 0 => False
  | i + 1 => ∃ before after, edges[i]? = some before ∧ edges[i + 1]? = some after
      ∧ before.target ≠ after.origin

theorem brokenAt_one {first second : Edge N A} :
    BrokenAt (first :: second :: xs) 1 ↔ first.target ≠ second.origin := by
  simp [BrokenAt]

/-- Behind a joint that holds, positions are those of the remaining edges, one further on. -/
theorem brokenAt_succ {first second : Edge N A} (hjoint : first.target = second.origin) :
    BrokenAt (first :: second :: xs) (index + 1) ↔ BrokenAt (second :: xs) index := by
  cases index with
  | zero => rw [brokenAt_one]; exact iff_of_false (not_not_intro hjoint) not_false
  | succ i => exact Iff.rfl

theorem not_brokenAt_of_length_le (h : edges.length ≤ 1) : ¬BrokenAt edges index := by
  cases index with
  | zero => exact not_false
  | succ i =>
      rintro ⟨_, after, -, hafter, -⟩
      have hlt := (List.getElem?_eq_some_iff.mp hafter).1
      omega

/-- The check finds the first joint that is broken. -/
theorem firstBreak?_eq_some_iff [DecidableEq N] : firstBreak? edges = some index ↔
    BrokenAt edges index ∧ ∀ earlier < index, ¬BrokenAt edges earlier := by
  fun_induction firstBreak? edges generalizing index with
  | case1 first second rest hjoint ih =>
      cases index with
      | zero => simp [BrokenAt]
      | succ i =>
          have hshift : (firstBreak? (second :: rest)).map (· + 1) = some (i + 1) ↔
              firstBreak? (second :: rest) = some i := by simp
          rw [hshift, ih, brokenAt_succ hjoint, Nat.forall_lt_succ_left]
          simp only [brokenAt_succ hjoint]
          exact and_congr_right fun _ => (and_iff_right not_false).symm
  | case2 first second rest hjoint =>
      have hbroken : BrokenAt (first :: second :: rest) 1 := brokenAt_one.mpr hjoint
      constructor
      · rintro ⟨⟩
        refine ⟨hbroken, fun earlier hearlier => ?_⟩
        obtain rfl : earlier = 0 := by omega
        exact not_false
      · rintro ⟨hindex, hfirst⟩
        have hle : index ≤ 1 := Nat.le_of_not_lt fun hlt => hfirst 1 hlt hbroken
        have hne : index ≠ 0 := by
          rintro rfl
          exact hindex
        rw [Option.some.injEq]
        omega
  | case3 short hshort =>
      have hlength : short.length ≤ 1 := by
        rcases short with _ | ⟨first, _ | ⟨second, rest⟩⟩
        · exact Nat.zero_le 1
        · exact Nat.le_refl 1
        · exact absurd rfl (hshort first second rest)
      exact iff_of_false (by simp) fun hfirst => not_brokenAt_of_length_le hlength hfirst.1

theorem connected_iff [DecidableEq N] : Connected edges ↔ ∀ index, ¬BrokenAt edges index := by
  classical
  rw [← firstBreak?_eq_none_iff]
  constructor
  · intro hnone index hbroken
    have hexists : ∃ index, BrokenAt edges index := ⟨index, hbroken⟩
    have hfirst : firstBreak? edges = some (Nat.find hexists) :=
      firstBreak?_eq_some_iff.mpr ⟨Nat.find_spec hexists, fun _ hless => Nat.find_min hexists hless⟩
    rw [hnone] at hfirst
    cases hfirst
  · intro hnot
    cases hfirst : firstBreak? edges with
    | none => rfl
    | some index => exact absurd (firstBreak?_eq_some_iff.mp hfirst).1 (hnot index)

theorem connected_iff_isChain :
    Connected edges ↔ edges.IsChain fun before after => before.target = after.origin := by
  induction edges with
  | nil => simp [Connected]
  | cons first rest ih =>
      cases rest with
      | nil => simp [Connected]
      | cons second rest => rw [Connected, ih, List.isChain_cons_cons]

/-- Two connected lists join iff the first ends where the second starts. -/
theorem connected_append : Connected (xs ++ ys) ↔ Connected xs ∧ Connected ys
    ∧ ∀ before ∈ xs.getLast?, ∀ after ∈ ys.head?, before.target = after.origin := by
  simp only [connected_iff_isChain]
  exact List.isChain_append

/-! ## Paths -/

namespace Path

section Check

variable [DecidableEq N]

theorem ofEdges_eq_empty_iff : ofEdges edges = .error .empty ↔ edges = [] := by
  unfold ofEdges
  split
  · simp [*]
  · split <;> simp [*]

theorem ofEdges_eq_notConnected_iff : ofEdges edges = .error (.notConnected index) ↔
    firstBreak? edges = some index := by
  unfold ofEdges
  split
  · rename_i hnil
    simp [hnil, firstBreak?]
  · split <;> simp [*]

theorem ofEdges_ne_notACycle {fault : CycleFault} : ofEdges edges ≠ .error (.notACycle fault) := by
  unfold ofEdges
  split
  · simp
  · split <;> simp

theorem ofEdges_edges (path : Path N A) : ofEdges path.edges = .ok path := by
  unfold ofEdges
  rw [dif_neg path.edges_ne_nil]
  split
  · rename_i hbreak
    rw [firstBreak?_eq_none_iff.mpr path.connected] at hbreak
    cases hbreak
  · rfl

/-- A list that is taken as a path is taken as it is. -/
theorem ofEdges_eq_ok_iff : ofEdges edges = .ok path ↔ path.edges = edges := by
  constructor
  · intro h
    unfold ofEdges at h
    split at h
    · cases h
    · split at h <;> cases h
      rfl
  · rintro rfl
    exact ofEdges_edges path

end Check

theorem exists_edges_iff :
    (∃ path : Path N A, path.edges = edges) ↔ edges ≠ [] ∧ Connected edges := by
  constructor
  · rintro ⟨path, rfl⟩
    exact ⟨path.edges_ne_nil, path.connected⟩
  · rintro ⟨hne, hconnected⟩
    exact ⟨⟨edges, hne, hconnected⟩, rfl⟩

/-! ### Nodes -/

theorem length_nodes : path.nodes.length = path.length + 1 := by
  simp [nodes, length]

theorem head?_nodes : path.nodes.head? = some path.origin := by
  obtain ⟨first, rest, hedges⟩ := List.exists_cons_of_ne_nil path.edges_ne_nil
  simp [nodes, origin, hedges]

theorem getLast?_nodes : path.nodes.getLast? = some path.target := by
  simp [nodes]

theorem origin_eq : some path.origin = path.edges.head?.map Edge.origin := by
  rw [origin, List.head?_eq_some_head path.edges_ne_nil, Option.map_some]

theorem target_eq : some path.target = path.edges.getLast?.map Edge.target := by
  rw [target, List.getLast?_eq_some_getLast path.edges_ne_nil, Option.map_some]

/-- Whether a path ends where it starts can be read off its edges. -/
theorem ends_meet_iff : path.edges.getLast?.map Edge.target = path.edges.head?.map Edge.origin ↔
    path.origin = path.target := by
  rw [← target_eq, ← origin_eq, Option.some.injEq, eq_comm]

/-- The edge at a position leads from the node at this position to the next. -/
theorem getElem?_nodes [DecidableEq N] {edge : Edge N A} (h : path.edges[index]? = some edge) :
    path.nodes[index]? = some edge.origin ∧ path.nodes[index + 1]? = some edge.target := by
  have hlt := (List.getElem?_eq_some_iff.mp h).1
  have horigin : ∀ {i : Nat} {e : Edge N A}, path.edges[i]? = some e →
      path.nodes[i]? = some e.origin := by
    intro i e he
    have hi := (List.getElem?_eq_some_iff.mp he).1
    rw [nodes, List.getElem?_append_left (by simpa using hi), List.getElem?_map, he,
      Option.map_some]
  refine ⟨horigin h, ?_⟩
  cases hnext : path.edges[index + 1]? with
  | some next =>
      have hjoint : edge.target = next.origin := by
        by_contra hbroken
        exact connected_iff.mp path.connected (index + 1) ⟨edge, next, h, hnext, hbroken⟩
      rw [horigin hnext, hjoint]
  | none =>
      have hlast : index + 1 = path.edges.length := by
        have hge := List.getElem?_eq_none_iff.mp hnext
        omega
      have htarget : some path.target = some edge.target := by
        rw [target_eq, List.getLast?_eq_getElem?, ← hlast, Nat.add_sub_cancel, h, Option.map_some]
      rw [nodes, List.getElem?_append_right (by simp [hlast]), ← htarget]
      simp [hlast]

end Path

/-! ## Cycles -/

theorem connected_closed_iff {first : Edge N A} :
    (Connected (first :: xs) ∧ ((first :: xs).getLast (List.cons_ne_nil _ _)).target = a) ↔
      (first :: xs).map Edge.target = xs.map Edge.origin ++ [a] := by
  induction xs generalizing first with
  | nil => simp [Connected]
  | cons second rest ih =>
      rw [Connected, List.getLast_cons_cons, and_assoc, ih, List.map_cons (l := second :: rest),
        List.map_cons (f := Edge.origin), List.cons_append, List.cons.injEq]

namespace Cycle

/-- Edges are those of a cycle iff there are two of them at least and their targets are their origins
moved on by one place. -/
theorem exists_edges_iff : (∃ cycle : Cycle N A, cycle.edges = edges) ↔
    2 ≤ edges.length ∧ edges.map Edge.target = (edges.map Edge.origin).rotate 1 := by
  cases edges with
  | nil =>
      refine iff_of_false ?_ (by simp)
      rintro ⟨cycle, hedges⟩
      exact cycle.path.edges_ne_nil hedges
  | cons first rest =>
      rw [List.map_cons (f := Edge.origin), List.rotate_cons_succ, List.rotate_zero,
        ← connected_closed_iff]
      constructor
      · rintro ⟨⟨⟨_, hne, hconnected⟩, hlength, hclosed⟩, rfl⟩
        exact ⟨hlength, hconnected, hclosed.symm⟩
      · rintro ⟨hlength, hconnected, hlast⟩
        exact ⟨⟨⟨first :: rest, List.cons_ne_nil _ _, hconnected⟩, hlength, hlast.symm⟩, rfl⟩

/-- It does not matter where a cycle begins. -/
theorem exists_edges_of_isRotated (hrotated : xs ~r cycle.edges) :
    ∃ turned : Cycle N A, turned.edges = xs := by
  obtain ⟨hlength, hends⟩ := exists_edges_iff.mp ⟨cycle, rfl⟩
  obtain ⟨n, rfl⟩ := hrotated.symm
  refine exists_edges_iff.mpr ⟨by rwa [List.length_rotate], ?_⟩
  rw [List.map_rotate, List.map_rotate, hends, List.rotate_rotate, List.rotate_rotate,
    Nat.add_comm]

section Check

variable [DecidableEq N]

theorem ofEdges_nil : ofEdges ([] : List (Edge N A)) = .error (.notACycle .noEdges) := rfl

theorem ofEdges_of_path_error {e : PathError} (hne : edges ≠ []) (h : Path.ofEdges edges = .error e) :
    ofEdges edges = .error e := by
  rw [ofEdges, if_neg hne, h]
  rfl

/-- What a path still needs for a cycle are two edges and an end where it starts. -/
theorem ofEdges_path (path : Path N A) : ofEdges path.edges =
    if short : path.length < 2 then .error (.notACycle .tooShort)
    else if closed : path.origin = path.target then .ok ⟨path, Nat.le_of_not_lt short, closed⟩
    else .error (.notACycle .notClosed) := by
  rw [ofEdges, if_neg path.edges_ne_nil, Path.ofEdges_edges]
  rfl

/-- A list that is taken as a cycle is taken as it is. -/
theorem ofEdges_eq_ok_iff : ofEdges edges = .ok cycle ↔ cycle.edges = edges := by
  constructor
  · intro h
    by_cases hnil : edges = []
    · rw [hnil, ofEdges_nil] at h
      cases h
    · cases hpath : Path.ofEdges edges with
      | error e =>
          rw [ofEdges_of_path_error hnil hpath] at h
          cases h
      | ok path =>
          obtain rfl := Path.ofEdges_eq_ok_iff.mp hpath
          rw [ofEdges_path] at h
          split at h
          · cases h
          · split at h <;> cases h
            rfl
  · rintro rfl
    rw [edges, ofEdges_path, dif_neg (Nat.not_lt_of_le cycle.two_le_length), dif_pos cycle.closed]

/-- What a list of edges comes to as a cycle: the first complaint that there is about it, or just
these edges. -/
inductive Judged (edges : List (Edge N A)) : Except PathError (Cycle N A) → Prop
  | noEdges (hnil : edges = []) : Judged edges (.error (.notACycle .noEdges))
  | broken {index : Nat} (hpath : Path.ofEdges edges = .error (.notConnected index)) :
      Judged edges (.error (.notConnected index))
  | tooShort {path : Path N A} (hpath : path.edges = edges) (hshort : path.length < 2) :
      Judged edges (.error (.notACycle .tooShort))
  | notClosed {path : Path N A} (hpath : path.edges = edges) (hlong : 2 ≤ path.length)
      (hopen : path.origin ≠ path.target) : Judged edges (.error (.notACycle .notClosed))
  | closed {cycle : Cycle N A} (hcycle : cycle.edges = edges) : Judged edges (.ok cycle)

theorem judged_ofEdges (edges : List (Edge N A)) : Judged edges (ofEdges edges) := by
  by_cases hnil : edges = []
  · rw [hnil, ofEdges_nil]
    exact .noEdges rfl
  · cases hpath : Path.ofEdges edges with
    | error e =>
        rw [ofEdges_of_path_error hnil hpath]
        cases e with
        | empty => exact absurd (Path.ofEdges_eq_empty_iff.mp hpath) hnil
        | notConnected index => exact .broken hpath
        | notACycle fault => exact absurd hpath Path.ofEdges_ne_notACycle
    | ok path =>
        obtain rfl := Path.ofEdges_eq_ok_iff.mp hpath
        rw [ofEdges_path]
        split
        · rename_i hshort
          exact .tooShort rfl hshort
        · rename_i hlong
          split
          · exact .closed rfl
          · rename_i hopen
            exact .notClosed rfl (Nat.le_of_not_lt hlong) hopen

theorem judged_of_eq {outcome : Except PathError (Cycle N A)} (h : ofEdges edges = outcome) :
    Judged edges outcome :=
  h ▸ judged_ofEdges edges

theorem ofEdges_eq_noEdges_iff : ofEdges edges = .error (.notACycle .noEdges) ↔ edges = [] := by
  constructor
  · intro h
    cases judged_of_eq h with
    | noEdges hnil => exact hnil
  · rintro rfl
    exact ofEdges_nil

theorem ofEdges_eq_notConnected_iff : ofEdges edges = .error (.notConnected index) ↔
    Path.ofEdges edges = .error (.notConnected index) := by
  constructor
  · intro h
    cases judged_of_eq h with
    | broken hpath => exact hpath
  · intro h
    refine ofEdges_of_path_error (fun hnil => ?_) h
    rw [Path.ofEdges_eq_empty_iff.mpr hnil] at h
    cases h

theorem ofEdges_eq_tooShort_iff :
    ofEdges edges = .error (.notACycle .tooShort) ↔ edges.length = 1 := by
  constructor
  · intro h
    cases judged_of_eq h with
    | @tooShort path hpath hshort =>
        have hpos := List.length_pos_iff.mpr path.edges_ne_nil
        rw [Path.length] at hshort
        rw [← hpath]
        omega
  · intro h
    obtain ⟨path, rfl⟩ := Path.exists_edges_iff.mpr ⟨List.ne_nil_of_length_pos (by omega),
      connected_iff.mpr fun _ => not_brokenAt_of_length_le (Nat.le_of_eq h)⟩
    rw [ofEdges_path, dif_pos (by rw [Path.length]; omega)]

theorem ofEdges_eq_notClosed_iff : ofEdges edges = .error (.notACycle .notClosed) ↔
    2 ≤ edges.length ∧ (∀ index, ¬BrokenAt edges index)
      ∧ edges.getLast?.map Edge.target ≠ edges.head?.map Edge.origin := by
  constructor
  · intro h
    cases judged_of_eq h with
    | @notClosed path hpath hlong hopen =>
        subst hpath
        exact ⟨hlong, connected_iff.mp path.connected, fun hmeet =>
          hopen (Path.ends_meet_iff.mp hmeet)⟩
  · rintro ⟨hlong, hjoints, hopen⟩
    obtain ⟨path, rfl⟩ := Path.exists_edges_iff.mpr
      ⟨List.ne_nil_of_length_pos (by omega), connected_iff.mpr hjoints⟩
    have hends : path.origin ≠ path.target := fun hclosed => hopen (Path.ends_meet_iff.mpr hclosed)
    have hlength : ¬path.length < 2 := Nat.not_lt_of_le hlong
    rw [ofEdges_path, dif_neg hlength, dif_neg hends]

theorem ofEdges_isOk_iff : (∃ cycle, ofEdges edges = .ok cycle) ↔
    2 ≤ edges.length ∧ (∀ index, ¬BrokenAt edges index)
      ∧ edges.getLast?.map Edge.target = edges.head?.map Edge.origin := by
  simp only [ofEdges_eq_ok_iff]
  constructor
  · rintro ⟨cycle, rfl⟩
    exact ⟨cycle.two_le_length, connected_iff.mp cycle.path.connected,
      Path.ends_meet_iff.mpr cycle.closed⟩
  · rintro ⟨hlong, hjoints, hclosed⟩
    obtain ⟨path, rfl⟩ := Path.exists_edges_iff.mpr
      ⟨List.ne_nil_of_length_pos (by omega), connected_iff.mpr hjoints⟩
    exact ⟨⟨path, hlong, Path.ends_meet_iff.mp hclosed⟩, rfl⟩

end Check

/-- The nodes of a cycle are those along its path, without the return. -/
theorem nodes_eq : cycle.nodes = cycle.path.nodes.dropLast := by
  rw [Path.nodes, List.dropLast_concat, nodes, edges]

end Cycle

/-- Lists of edges are taken as paths and cycles as they are, or refused for the first thing that is
wrong with them. For a path this is the lack of edges or the first broken joint. For a cycle it is
the same, then a length of one, then an end that is not the start. Along a path each edge leads from
one node to the next; a cycle has the same nodes without the last, and may begin with any edge. -/
theorem ofEdges_exact [DecidableEq N] (edges : List (Edge N A)) :
    (Path.ofEdges edges = .error .empty ↔ edges = [])
      ∧ (∀ index, Path.ofEdges edges = .error (.notConnected index) ↔
          edges ≠ [] ∧ BrokenAt edges index ∧ ∀ earlier < index, ¬BrokenAt edges earlier)
      ∧ ((∃ path, Path.ofEdges edges = .ok path) ↔ edges ≠ [] ∧ ∀ index, ¬BrokenAt edges index)
      ∧ (∀ path, Path.ofEdges edges = .ok path → path.edges = edges
          ∧ path.nodes.length = edges.length + 1
          ∧ path.nodes.head? = some path.origin
          ∧ path.nodes.getLast? = some path.target
          ∧ ∀ (index : Nat) (edge : Edge N A), edges[index]? = some edge →
              path.nodes[index]? = some edge.origin ∧ path.nodes[index + 1]? = some edge.target)
      ∧ ((∃ cycle, Cycle.ofEdges edges = .ok cycle) ↔ 2 ≤ edges.length
          ∧ (∀ index, ¬BrokenAt edges index)
          ∧ edges.getLast?.map Edge.target = edges.head?.map Edge.origin)
      ∧ (Cycle.ofEdges edges = .error (.notACycle .noEdges) ↔ edges = [])
      ∧ (∀ index, Cycle.ofEdges edges = .error (.notConnected index) ↔
          Path.ofEdges edges = .error (.notConnected index))
      ∧ (Cycle.ofEdges edges = .error (.notACycle .tooShort) ↔ edges.length = 1)
      ∧ (Cycle.ofEdges edges = .error (.notACycle .notClosed) ↔ 2 ≤ edges.length
          ∧ (∀ index, ¬BrokenAt edges index)
          ∧ edges.getLast?.map Edge.target ≠ edges.head?.map Edge.origin)
      ∧ ∀ cycle, Cycle.ofEdges edges = .ok cycle → cycle.edges = edges
          ∧ (∃ path, Path.ofEdges edges = .ok path ∧ cycle.nodes = path.nodes.dropLast)
          ∧ ∀ rotated, rotated ~r edges → ∃ turned, Cycle.ofEdges rotated = .ok turned := by
  refine ⟨Path.ofEdges_eq_empty_iff, fun index => ?_, ?_, fun path hpath => ?_,
    Cycle.ofEdges_isOk_iff, Cycle.ofEdges_eq_noEdges_iff,
    fun index => Cycle.ofEdges_eq_notConnected_iff, Cycle.ofEdges_eq_tooShort_iff,
    Cycle.ofEdges_eq_notClosed_iff, fun cycle hcycle => ?_⟩
  · rw [Path.ofEdges_eq_notConnected_iff, firstBreak?_eq_some_iff, iff_and_self]
    rintro ⟨hbroken, -⟩ rfl
    exact not_brokenAt_of_length_le (by simp) hbroken
  · simp only [Path.ofEdges_eq_ok_iff, ← connected_iff]
    exact Path.exists_edges_iff
  · obtain rfl := Path.ofEdges_eq_ok_iff.mp hpath
    exact ⟨rfl, Path.length_nodes, Path.head?_nodes, Path.getLast?_nodes,
      fun index edge => Path.getElem?_nodes⟩
  · obtain rfl := Cycle.ofEdges_eq_ok_iff.mp hcycle
    refine ⟨rfl, ⟨cycle.path, Path.ofEdges_edges _, Cycle.nodes_eq⟩, fun rotated hrotated => ?_⟩
    obtain ⟨turned, hturned⟩ := Cycle.exists_edges_of_isRotated hrotated
    exact ⟨turned, Cycle.ofEdges_eq_ok_iff.mpr hturned⟩

end Archmap
