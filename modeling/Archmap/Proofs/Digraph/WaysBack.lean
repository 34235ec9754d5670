import Mathlib.Data.Fintype.Card
import Archmap.Digraph.CycleSearch
import Archmap.Proofs.Digraph.Components
import Archmap.Proofs.Digraph.ElementaryCycle

/-!
# The search without blocking

What the search for cycles has to find, and in which order: the ways back to the start that a walk
would find if it were held up by nothing but its own trail. `waysBack` lists them by plain
recursion. It is a specification and not a way to search, because it walks every dead end as often
as it meets it.

Three facts make it one. The ways listed are exactly the ways back (`mem_waysBack`). Restricting the
walk to the component of the start loses none (`waysBack_component`), since nodes outside do not
lead back. And taken over all starts they are the elementary cycles, each listed once from its least
node on (`mem_circuits`), in ascending order (`circuits_ascending`).
-/

namespace Archmap

open Relation

variable {n : Nat} {next : Fin n → List (Fin n)} {inside : Fin n → Bool} {start : Fin n}

/-! ## Ways back to the start -/

/-- What the arc to `w` contributes to the ways back: the trail itself if it closes the cycle, else
the ways onward from `w`, unless that lies outside or on the trail. -/
def waysVia (onward : Fin n → List (List (Fin n))) (inside : Fin n → Bool) (start : Fin n)
    (trail : List (Fin n)) (w : Fin n) : List (List (Fin n)) :=
  if inside w = false then []
  else if w = start then [trail.reverse]
  else if trail.contains w then []
  else onward w

/-- The ways back to the start from a node, each behind the trail that led to the node. `depth`
bounds how many nodes the trail may still grow by. -/
def waysBack (next : Fin n → List (Fin n)) (inside : Fin n → Bool) (start : Fin n) :
    (depth : Nat) → (trail : List (Fin n)) → (node : Fin n) → List (List (Fin n))
  | 0, _, _ => []
  | depth + 1, trail, node =>
    (next node).flatMap <|
      waysVia (waysBack next inside start depth (node :: trail)) inside start (node :: trail)

/-- The nodes `p` lead from `node` back to the start, without meeting the trail or each other. -/
structure WayBack (next : Fin n → List (Fin n)) (inside : Fin n → Bool) (start : Fin n)
    (trail : List (Fin n)) (node : Fin n) (p : List (Fin n)) : Prop where
  chain : List.IsChain (Arc next) (node :: (p ++ [start]))
  within : ∀ w ∈ p ++ [start], inside w = true
  fresh : ∀ w ∈ p, w ≠ start ∧ w ∉ node :: trail
  nodup : p.Nodup

theorem mem_waysVia {onward : Fin n → List (List (Fin n))} {trail : List (Fin n)} {w : Fin n}
    {c : List (Fin n)} :
    c ∈ waysVia onward inside start trail w ↔
      inside w = true ∧ (w = start ∧ c = trail.reverse
        ∨ w ≠ start ∧ w ∉ trail ∧ c ∈ onward w) := by
  unfold waysVia
  split
  · simp [*]
  · split
    · simp_all
    · split <;> simp_all

theorem wayBack_nil {trail : List (Fin n)} {node : Fin n} :
    WayBack next inside start trail node [] ↔ start ∈ next node ∧ inside start = true := by
  constructor
  · intro h
    exact ⟨(List.isChain_cons_cons.mp h.chain).1, h.within start (by simp)⟩
  · rintro ⟨harc, hstart⟩
    exact ⟨List.isChain_cons_cons.mpr ⟨harc, List.isChain_singleton start⟩, by simpa using hstart,
      by simp, List.nodup_nil⟩

theorem wayBack_cons {trail : List (Fin n)} {node w : Fin n} {p : List (Fin n)} :
    WayBack next inside start trail node (w :: p) ↔
      w ∈ next node ∧ inside w = true ∧ w ≠ start ∧ w ∉ node :: trail
        ∧ WayBack next inside start (node :: trail) w p := by
  constructor
  · rintro ⟨hchain, hwithin, hfresh, hnodup⟩
    obtain ⟨harc, hrest⟩ := List.isChain_cons_cons.mp hchain
    obtain ⟨hw, hp⟩ := List.nodup_cons.mp hnodup
    have hwfresh := hfresh w (List.mem_cons_self ..)
    refine ⟨harc, hwithin w (by simp), hwfresh.1, hwfresh.2, hrest,
      fun u hu => hwithin u (List.mem_cons_of_mem w hu), fun u hu => ?_, hp⟩
    have hufresh := hfresh u (List.mem_cons_of_mem w hu)
    refine ⟨hufresh.1, fun hmem => ?_⟩
    rcases List.mem_cons.mp hmem with rfl | hmem
    · exact hw hu
    · exact hufresh.2 hmem
  · rintro ⟨harc, hw, hstart, htrail, hchain, hwithin, hfresh, hnodup⟩
    refine ⟨List.isChain_cons_cons.mpr ⟨harc, hchain⟩, fun u hu => ?_, fun u hu => ?_,
      List.nodup_cons.mpr ⟨fun hmem => (hfresh w hmem).2 (List.mem_cons_self ..), hnodup⟩⟩
    · rcases List.mem_cons.mp hu with rfl | hu
      · exact hw
      · exact hwithin u hu
    · rcases List.mem_cons.mp hu with rfl | hu
      · exact ⟨hstart, htrail⟩
      · exact ⟨(hfresh u hu).1, fun hmem => (hfresh u hu).2 (List.mem_cons_of_mem w hmem)⟩

/-- The list holds exactly the ways back that are short enough. -/
theorem mem_waysBack {depth : Nat} {trail : List (Fin n)} {node : Fin n} {c : List (Fin n)} :
    c ∈ waysBack next inside start depth trail node ↔
      ∃ p, WayBack next inside start trail node p ∧ p.length < depth
        ∧ c = trail.reverse ++ node :: p := by
  induction depth generalizing trail node c with
  | zero => simp [waysBack]
  | succ depth ih =>
      simp only [waysBack, List.mem_flatMap, mem_waysVia, ih]
      constructor
      · rintro ⟨w, harc, hw, ⟨rfl, rfl⟩ | ⟨hstart, htrail, p, hp, hlength, rfl⟩⟩
        · exact ⟨[], wayBack_nil.mpr ⟨harc, hw⟩, by simp, by simp⟩
        · exact ⟨w :: p, wayBack_cons.mpr ⟨harc, hw, hstart, htrail, hp⟩, by simpa using hlength,
            by simp⟩
      · rintro ⟨p, hp, hlength, rfl⟩
        cases p with
        | nil =>
            obtain ⟨harc, hw⟩ := wayBack_nil.mp hp
            exact ⟨start, harc, hw, Or.inl ⟨rfl, by simp⟩⟩
        | cons w p =>
            obtain ⟨harc, hw, hstart, htrail, hrest⟩ := wayBack_cons.mp hp
            exact ⟨w, harc, hw, Or.inr ⟨hstart, htrail, p, hrest, by simpa using hlength, by simp⟩⟩

/-! ## The component is enough -/

theorem WayBack.leads {trail : List (Fin n)} {node : Fin n} {p : List (Fin n)}
    (hbound : ∀ w, inside w = true → start ≤ w) (h : WayBack next inside start trail node p) :
    ReflTransGen (ArcFrom next start) node start := by
  induction p generalizing trail node with
  | nil =>
      obtain ⟨harc, hstart⟩ := wayBack_nil.mp h
      exact .single ⟨harc, hbound start hstart⟩
  | cons w p ih =>
      obtain ⟨harc, hw, -, -, hrest⟩ := wayBack_cons.mp h
      exact .head ⟨harc, hbound w hw⟩ (ih hrest)

theorem waysBack_eq_nil {depth : Nat} {trail : List (Fin n)} {node : Fin n}
    (hbound : ∀ w, inside w = true → start ≤ w)
    (hback : ¬ReflTransGen (ArcFrom next start) node start) :
    waysBack next inside start depth trail node = [] := by
  refine List.eq_nil_iff_forall_not_mem.mpr fun c hc => ?_
  obtain ⟨p, hp, -⟩ := mem_waysBack.mp hc
  exact hback (hp.leads hbound)

/-- The nodes from the start on, as the widest room for ways back that have the start as their
least node. -/
def notBelow (start v : Fin n) : Bool := decide (start ≤ v)

/-- Walking only through the component of the start finds the same ways in the same order. -/
theorem waysBack_component (hinside : ∀ w, inside w = true ↔ Mutual (ArcFrom next start) start w)
    {depth : Nat} {trail : List (Fin n)} {node : Fin n}
    (hnode : ReflTransGen (ArcFrom next start) start node) :
    waysBack next inside start depth trail node
      = waysBack next (notBelow start) start depth trail node := by
  induction depth generalizing trail node with
  | zero => rfl
  | succ depth ih =>
      simp only [waysBack]
      refine List.flatMap_congr fun w harc => ?_
      by_cases hlow : start ≤ w
      · have hforth : ReflTransGen (ArcFrom next start) start w := hnode.tail ⟨harc, hlow⟩
        have hbelow : notBelow start w = true := decide_eq_true hlow
        by_cases hback : ReflTransGen (ArcFrom next start) w start
        · have hw : inside w = true := (hinside w).mpr ⟨hforth, hback⟩
          simp only [waysVia, hw, hbelow, ih hforth]
        · -- `w` is left out on the left, and on the right it leads nowhere
          have hw : inside w = false := by
            by_contra htrue
            exact hback ((hinside w).mp (by simpa using htrue)).2
          have hne : w ≠ start := fun heq => hback (heq ▸ .refl)
          have hnone : waysBack next (notBelow start) start depth (node :: trail) w = [] :=
            waysBack_eq_nil (fun _ h => of_decide_eq_true h) hback
          simp [waysVia, hw, hbelow, hne, hnone]
      · have hbelow : notBelow start w = false := decide_eq_false hlow
        have hw : inside w = false := by
          by_contra htrue
          exact hlow (le_of_leads (Nat.le_refl _) ((hinside w).mp (by simpa using htrue)).1)
        simp [waysVia, hw, hbelow]

/-! ## All elementary cycles -/

/-- The cycles of which `start` is the least node. -/
def circuitsFrom (next : Fin n → List (Fin n)) (start : Fin n) : List (List (Fin n)) :=
  waysBack next (notBelow start) start n [] start

/-- All elementary cycles, each from its least node on. -/
def circuits (next : Fin n → List (Fin n)) : List (List (Fin n)) :=
  (List.finRange n).flatMap (circuitsFrom next)

theorem wayBack_from_start {p : List (Fin n)} :
    WayBack next (notBelow start) start [] start p ↔
      List.IsChain (Arc next) (start :: (p ++ [start])) ∧ (start :: p).Nodup
        ∧ ∀ v ∈ p, start ≤ v := by
  constructor
  · rintro ⟨hchain, hwithin, hfresh, hnodup⟩
    refine ⟨hchain, List.nodup_cons.mpr ⟨fun hmem => (hfresh start hmem).1 rfl, hnodup⟩, ?_⟩
    exact fun v hv => of_decide_eq_true (hwithin v (List.mem_append_left _ hv))
  · rintro ⟨hchain, hnodup, hleast⟩
    obtain ⟨hstart, hp⟩ := List.nodup_cons.mp hnodup
    have hne : ∀ w ∈ p, w ≠ start := fun w hw heq => hstart (heq ▸ hw)
    refine ⟨hchain, fun w hw => decide_eq_true ?_, fun w hw => ⟨hne w hw, by simp [hne w hw]⟩, hp⟩
    rcases List.mem_append.mp hw with hw | hw
    · exact hleast w hw
    · exact (List.mem_singleton.mp hw) ▸ Nat.le_refl _

theorem mem_circuitsFrom (hloop : ∀ v, v ∉ next v) {c : List (Fin n)} :
    c ∈ circuitsFrom next start ↔
      c.head? = some start ∧ ElementaryCycle (Arc next) c ∧ LeastFirst c := by
  simp only [circuitsFrom, mem_waysBack, wayBack_from_start, List.reverse_nil, List.nil_append]
  constructor
  · rintro ⟨p, ⟨hchain, hnodup, hleast⟩, -, rfl⟩
    refine ⟨rfl, ⟨?_, hnodup, closed_iff_isChain.mpr hchain⟩, ?_⟩
    · cases p with
      | nil => exact absurd (List.isChain_cons_cons.mp hchain).1 (hloop start)
      | cons w p => simp
    · intro a ha v hv
      obtain rfl : start = a := Option.some.inj ha
      rcases List.mem_cons.mp hv with rfl | hv
      · exact Nat.le_refl _
      · exact hleast v hv
  · rintro ⟨hhead, ⟨-, hnodup, hclosed⟩, hleast⟩
    obtain ⟨p, rfl⟩ : ∃ p, c = start :: p := by
      cases c with
      | nil => cases hhead
      | cons a p => exact ⟨p, by rw [Option.some.inj hhead]⟩
    refine ⟨p, ⟨closed_iff_isChain.mp hclosed, hnodup, fun v hv =>
      hleast start rfl v (List.mem_cons_of_mem _ hv)⟩, ?_, rfl⟩
    have hlength := List.Nodup.length_le_card hnodup
    simp only [List.length_cons, Fintype.card_fin] at hlength
    omega

/-- The list holds exactly the elementary cycles that begin with their least node. -/
theorem mem_circuits (hloop : ∀ v, v ∉ next v) {c : List (Fin n)} :
    c ∈ circuits next ↔ ElementaryCycle (Arc next) c ∧ LeastFirst c := by
  simp only [circuits, List.mem_flatMap, List.mem_finRange, true_and, mem_circuitsFrom hloop]
  constructor
  · rintro ⟨start, -, h⟩
    exact h
  · intro h
    cases c with
    | nil => exact absurd h.1.two_le (by simp)
    | cons a p => exact ⟨a, rfl, h⟩

/-- A node that no other node shares a component with is the least one of no cycle. -/
theorem circuitsFrom_eq_nil (hloop : ∀ v, v ∉ next v)
    (halone : ∀ w, Mutual (ArcFrom next start) start w → w = start) :
    circuitsFrom next start = [] := by
  refine List.eq_nil_iff_forall_not_mem.mpr fun c hc => ?_
  obtain ⟨p, hp, -⟩ := mem_waysBack.mp hc
  cases p with
  | nil => exact hloop start (wayBack_nil.mp hp).1
  | cons w p =>
      obtain ⟨harc, hw, hne, -, hrest⟩ := wayBack_cons.mp hp
      exact hne (halone w ⟨.single ⟨harc, of_decide_eq_true hw⟩,
        hrest.leads fun _ h => of_decide_eq_true h⟩)

/-! ## Order -/

theorem waysBack_ascending (hnext : ∀ v, (next v).Pairwise (· < ·))
    (hbound : ∀ w, inside w = true → start ≤ w) {depth : Nat} {trail : List (Fin n)}
    {node : Fin n} : (waysBack next inside start depth trail node).Pairwise (· < ·) := by
  induction depth generalizing trail node with
  | zero => exact List.Pairwise.nil
  | succ depth ih =>
      rw [waysBack, List.pairwise_flatMap]
      constructor
      · intro w _
        unfold waysVia
        split
        · exact List.Pairwise.nil
        · split
          · exact List.pairwise_singleton _ _
          · split
            · exact List.Pairwise.nil
            · exact ih
      · refine (hnext node).imp fun {w x} hless c hc d hd => ?_
        obtain ⟨hw, hc⟩ := mem_waysVia.mp hc
        obtain ⟨hx, hd⟩ := mem_waysVia.mp hd
        -- an arc to the start comes first, as no node inside is less
        have hne : x ≠ start := fun heq => absurd (hbound w hw) (heq ▸ Nat.not_le_of_lt hless)
        obtain ⟨-, -, hd⟩ := hd.resolve_left fun h => hne h.1
        obtain ⟨q, -, -, rfl⟩ := mem_waysBack.mp hd
        rcases hc with ⟨-, rfl⟩ | ⟨-, -, hc⟩
        · have hprefix : (node :: trail).reverse ++ [] < (node :: trail).reverse ++ x :: q :=
            List.append_left_lt (List.nil_lt_cons x q)
          rwa [List.append_nil] at hprefix
        · obtain ⟨p, -, -, rfl⟩ := mem_waysBack.mp hc
          exact List.append_left_lt (List.cons_lt_cons_iff.mpr (Or.inl hless))

/-- The cycles ascend strictly as lists of nodes, so none is listed twice. -/
theorem circuits_ascending (hnext : ∀ v, (next v).Pairwise (· < ·)) :
    (circuits next).Pairwise (· < ·) := by
  rw [circuits, List.pairwise_flatMap]
  constructor
  · intro start _
    exact waysBack_ascending hnext fun _ h => of_decide_eq_true h
  · refine (List.pairwise_lt_finRange n).imp fun {a b} hless c hc d hd => ?_
    obtain ⟨p, -, -, rfl⟩ := mem_waysBack.mp hc
    obtain ⟨q, -, -, rfl⟩ := mem_waysBack.mp hd
    exact List.cons_lt_cons_iff.mpr (Or.inl hless)

end Archmap
