import Archmap.Proofs.Digraph.Cascade
import Archmap.Proofs.Digraph.CycleSearch

/-!
# Runs of the search

The search with its choices left open and nothing to bound it. A walk calls itself as deep as it
gets, each release looks at the waiting nodes in an order of its own, and before a component is
walked through only the notes on its own nodes are cleared (`Walks`, `Searched`).

Nothing of this shows. A run of the walk ends with what `Search.walk` computes (`walks_iff`), since a
trail never holds a node twice and so cannot outgrow the depth given, and since the order of a
release makes no difference. All runs of the search find the same cycles (`finds_iff`), since notes
on nodes outside the component are not looked at.
-/

namespace Archmap

namespace Search

variable {n : Nat} {next : Fin n → List (Fin n)} {component : NodeSet n} {start node w : Fin n}
  {depth : Nat} {trail ws : List (Fin n)} {s s' t t' : Search n} {p r : Bool × Search n}
  {cs : List (List (Fin n))}

/-! ## Runs of the walk -/

mutual

/-- A walk on from a node can end so. -/
inductive Walks (next : Fin n → List (Fin n)) (component : NodeSet n) (start : Fin n) :
    (trail : List (Fin n)) → (node : Fin n) → Search n → Bool × Search n → Prop
  | reached {trail : List (Fin n)} {node : Fin n} {s t u : Search n}
      (harcs : Follows next component start (node :: trail) (next node) (false, s.block node)
        (true, t))
      (hrelease : t.Releases node u) :
      Walks next component start trail node s (true, u)
  | unreached {trail : List (Fin n)} {node : Fin n} {s t : Search n}
      (harcs : Follows next component start (node :: trail) (next node) (false, s.block node)
        (false, t)) :
      Walks next component start trail node s
        (false, t.await node ((next node).filter component.get))

/-- The arcs from the end of the trail to some nodes can be followed so, one after the other. -/
inductive Follows (next : Fin n → List (Fin n)) (component : NodeSet n) (start : Fin n) :
    (trail : List (Fin n)) → (ws : List (Fin n)) → Bool × Search n → Bool × Search n → Prop
  | done {trail : List (Fin n)} {p : Bool × Search n} :
      Follows next component start trail [] p p
  | skip {trail ws : List (Fin n)} {w : Fin n} {p r : Bool × Search n}
      (hskip : Skips component start p.2 w)
      (hrest : Follows next component start trail ws p r) :
      Follows next component start trail (w :: ws) p r
  | close {trail ws : List (Fin n)} {closed : Bool} {s : Search n} {r : Bool × Search n}
      (hfollow : ¬Skips component start s start)
      (hrest : Follows next component start trail ws
        (closed || (s.report trail.reverse).1, (s.report trail.reverse).2) r) :
      Follows next component start trail (start :: ws) (closed, s) r
  | enter {trail ws : List (Fin n)} {w : Fin n} {closed : Bool} {s : Search n}
      {q r : Bool × Search n}
      (hfollow : ¬Skips component start s w) (hne : w ≠ start)
      (hwalk : Walks next component start trail w s q)
      (hrest : Follows next component start trail ws (closed || q.1, q.2) r) :
      Follows next component start trail (w :: ws) (closed, s) r

end

theorem follows_nil_iff : Follows next component start trail [] p r ↔ r = p := by
  constructor
  · intro h
    cases h with
    | done => rfl
  · rintro rfl
    exact .done

theorem follows_cons_iff {enter : Fin n → Search n → Bool × Search n}
    (hwalks : ¬Skips component start p.2 w → w ≠ start →
      ∀ q, Walks next component start trail w p.2 q ↔ q = enter w p.2) :
    Follows next component start trail (w :: ws) p r ↔
      Follows next component start trail ws (follow enter component start trail p w) r := by
  obtain ⟨closed, s⟩ := p
  by_cases hskip : Skips component start s w
  · rw [follow_of_skips hskip]
    constructor
    · intro h
      cases h with
      | skip _ hrest => exact hrest
      | close hfollow _ => exact absurd hskip hfollow
      | enter hfollow _ _ _ => exact absurd hskip hfollow
    · exact .skip hskip
  · by_cases hstart : w = start
    · subst hstart
      rw [follow_to_start hskip]
      constructor
      · intro h
        cases h with
        | skip hskip' _ => exact absurd hskip' hskip
        | close _ hrest => exact hrest
        | enter _ hne _ _ => exact absurd rfl hne
      · exact .close hskip
    · rw [follow_into hskip hstart]
      constructor
      · intro h
        cases h with
        | skip hskip' _ => exact absurd hskip' hskip
        | close _ _ => exact absurd rfl hstart
        | enter _ _ hwalk hrest =>
            rw [(hwalks hskip hstart _).mp hwalk] at hrest
            exact hrest
      · exact fun hrest => .enter hskip hstart ((hwalks hskip hstart _).mpr rfl) hrest

theorem follows_iff (hnodup : trail.Nodup) (hdepth : trail.length + depth = n)
    (hwalks : ∀ s w, Entry next component start depth trail w s →
      ∀ q, Walks next component start trail w s q ↔
        q = walk next component start depth trail w s)
    (hp : p.2.truncated = false → Blocking next component start p.2 trail) :
    Follows next component start trail ws p r ↔
      r = ws.foldl (follow (walk next component start depth trail) component start trail) p := by
  induction ws generalizing p with
  | nil => exact follows_nil_iff
  | cons w ws ih =>
      rw [follows_cons_iff fun hskip hne => ?_, List.foldl_cons]
      · refine ih fun hroom => ?_
        cases hfull : p.2.truncated with
        | true =>
            rw [follow_of_skips (Or.inl hfull), hfull] at hroom
            cases hroom
        | false =>
            have hdone : Progress next component start trail p ([w].foldl
                (follow (walk next component start depth trail) component start trail) p) [w] _ :=
              arcs_progress hfull (hp hfull) hnodup hdepth
            exact (hdone.explores hroom).blocking
      · simp only [Skips, not_or, not_and, Bool.not_eq_true, Bool.not_eq_false] at hskip
        exact hwalks p.2 w ⟨hskip.1, hnodup, hp hskip.1, hskip.2.1, hskip.2.2 hne, hdepth⟩

/-- However its releases go, a walk from a node that is not blocked ends as it is computed. -/
theorem walks_iff (h : Entry next component start depth trail node s) :
    Walks next component start trail node s r ↔
      r = walk next component start depth trail node s := by
  induction depth generalizing node trail s r with
  | zero => exact absurd h.depth_pos (Nat.lt_irrefl 0)
  | succ depth ih =>
      have harcs : ∀ q, Follows next component start (node :: trail) (next node)
          (false, s.block node) q ↔ q = (next node).foldl
            (follow (walk next component start depth (node :: trail)) component start
              (node :: trail)) (false, s.block node) := fun q =>
        follows_iff h.nodup_cons h.length_cons (fun _ _ hentry _ => ih hentry)
          fun _ => h.blocking.block h.inside
      rw [walk]
      generalize (next node).foldl _ _ = q at harcs ⊢
      obtain ⟨closed, t⟩ := q
      constructor
      · intro hwalk
        cases hwalk with
        | reached hrun hrelease =>
            cases (harcs _).mp hrun
            rw [releases_iff.mp hrelease]
            rfl
        | unreached hrun =>
            cases (harcs _).mp hrun
            rfl
      · rintro rfl
        cases closed with
        | true => exact .reached ((harcs _).mpr rfl) (releases_iff.mpr rfl)
        | false => exact .unreached ((harcs _).mpr rfl)

/-! ## Runs of the whole search -/

/-- The nodes of a list as a set. -/
def membersOf (members : List (Fin n)) : NodeSet n :=
  Vector.ofFn fun v => members.contains v

/-- The search that goes on at `start` can end so. -/
inductive Searched (split : Splitter) (next : Fin n → List (Fin n)) :
    (start : Nat) → Search n → Search n → Prop
  | finished {start : Nat} {s : Search n} (hnone : leastComponent? split next start = none) :
      Searched split next start s s
  | stopped {start : Nat} {s t : Search n} {least : Fin n} {members : List (Fin n)}
      {r : Bool × Search n}
      (hleast : leastComponent? split next start = some (least, members))
      (hclear : Cleared (membersOf members) s t)
      (hwalk : Walks next (membersOf members) least [] least t r)
      (hfull : r.2.truncated = true) :
      Searched split next start s r.2
  | further {start : Nat} {s t u : Search n} {least : Fin n} {members : List (Fin n)}
      {r : Bool × Search n}
      (hleast : leastComponent? split next start = some (least, members))
      (hclear : Cleared (membersOf members) s t)
      (hwalk : Walks next (membersOf members) least [] least t r)
      (hroom : r.2.truncated = false)
      (hrest : Searched split next (least + 1) r.2 u) :
      Searched split next start s u

/-- A run of the whole search can give these cycles. -/
def Finds (split : Splitter) (next : Fin n → List (Fin n)) (max : Nat)
    (cycles : List (List (Fin n)) × Bool) : Prop :=
  ∃ s, Searched split next 0 (fresh n max) s ∧ cycles = (s.found.reverse, s.truncated)

/-- The two states say the same about the cycles found. -/
structure Alike (s s' : Search n) : Prop where
  room : s.room = s'.room
  found : s.found = s'.found
  truncated : s.truncated = s'.truncated

theorem Alike.refl (s : Search n) : Alike s s := ⟨rfl, rfl, rfl⟩

theorem Delivers.alike (halike : Alike s s') (h : Delivers s t cs) (h' : Delivers s' t' cs) :
    Alike t t' := by
  constructor
  · rw [h.room, h'.room, halike.room]
  · rw [h.found, h'.found, halike.room, halike.found]
  · rw [h.truncated, h'.truncated, halike.room, halike.truncated]

theorem get_membersOf {members : List (Fin n)} {v : Fin n} :
    (membersOf members).get v = true ↔ v ∈ members := by
  rw [membersOf, get_ofFn, List.contains_iff_mem]

/-- The walk through a component that is begun with nothing noted of its nodes. -/
theorem walks_cleared_iff (hs : s.truncated = false) (hclear : Cleared component s t)
    (hstart : component.get start = true) :
    Walks next component start [] start t r ↔ r = walk next component start n [] start t :=
  walks_iff (hclear.entry hs hstart)

theorem Walks.alike (halike : Alike s s') (hs : s.truncated = false)
    (hclear : Cleared component s t) (hstart : component.get start = true)
    (hwalk : Walks next component start [] start t r) :
    Alike r.2 (walk next component start n [] start s'.restart).2 := by
  rw [(walks_cleared_iff hs hclear hstart).mp hwalk]
  exact (walk_delivers hs hclear hstart).alike halike
    (walk_delivers (halike.truncated ▸ hs) (cleared_restart s') hstart)

variable {split : Splitter} {rounds first : Nat}

theorem Searched.alike (h : Searched split next first s t) (halike : Alike s s')
    (hs : s.truncated = false) (hrounds : n ≤ first + rounds) :
    Alike t (s'.throughComponents split next rounds first) := by
  induction h generalizing s' rounds with
  | finished hnone =>
      cases rounds with
      | zero => exact halike
      | succ rounds =>
          rw [throughComponents, hnone]
          exact halike
  | @stopped first s _ least members r hleast hclear hwalk hfull =>
      obtain ⟨hle, hmem⟩ := leastComponent?_mem hleast
      obtain ⟨rounds, rfl⟩ : ∃ k, rounds = k + 1 := Nat.exists_eq_add_one.mpr (by omega)
      have hdone := hwalk.alike halike hs hclear (get_membersOf.mpr hmem)
      rw [throughComponents, hleast]
      dsimp only
      rw [← membersOf, if_pos (hdone.truncated ▸ hfull)]
      exact hdone
  | @further first s _ u least members r hleast hclear hwalk hroom _ ih =>
      obtain ⟨hle, hmem⟩ := leastComponent?_mem hleast
      obtain ⟨rounds, rfl⟩ : ∃ k, rounds = k + 1 := Nat.exists_eq_add_one.mpr (by omega)
      have hdone := hwalk.alike halike hs hclear (get_membersOf.mpr hmem)
      rw [throughComponents, hleast]
      dsimp only
      rw [← membersOf, if_neg (by rw [← hdone.truncated, hroom]; exact Bool.false_ne_true)]
      exact ih hdone hroom (by omega)

theorem searched_throughComponents (hs : s.truncated = false) (hrounds : n ≤ first + rounds) :
    Searched split next first s (s.throughComponents split next rounds first) := by
  induction rounds generalizing first s with
  | zero =>
      refine .finished (Option.eq_none_iff_forall_ne_some.mpr ?_)
      rintro ⟨least, members⟩ hleast
      have hle := (leastComponent?_mem hleast).1
      omega
  | succ rounds ih =>
      unfold throughComponents
      split
      · rename_i hnone
        exact .finished hnone
      · rename_i least members hleast
        obtain ⟨hle, hmem⟩ := leastComponent?_mem hleast
        have hwalk : Walks next (membersOf members) least [] least s.restart _ :=
          (walks_cleared_iff hs (cleared_restart s) (get_membersOf.mpr hmem)).mpr rfl
        dsimp only
        rw [← membersOf]
        split
        · rename_i hfull
          exact .stopped hleast (cleared_restart s) hwalk hfull
        · rename_i hroom
          exact .further hleast (cleared_restart s) hwalk (by simpa using hroom)
            (ih (by simpa using hroom) (by omega))

/-- The runs of the search find the cycles that it computes, and no run finds others. -/
theorem finds_iff {max : Nat} {cycles : List (List (Fin n)) × Bool} :
    Finds split next max cycles ↔ cycles = elementaryCycles split next max := by
  constructor
  · rintro ⟨s, hsearched, rfl⟩
    have halike : Alike s ((fresh n max).throughComponents split next n 0) :=
      hsearched.alike (.refl _) rfl (Nat.le_add_left n 0)
    rw [elementaryCycles, halike.found, halike.truncated]
  · rintro rfl
    exact ⟨_, searched_throughComponents rfl (Nat.le_add_left n 0), rfl⟩

/-! ## The order of a release -/

/-- Every release comes to an end, with each call taking the block off one node. What it has
released then are the nodes that wait, each blocked, for the released node or through others, and
nothing waits for these any more; all else is as before. This is one and the same state in every
order in which the waiting nodes are looked at, and so are the cycles that the search finds. -/
theorem release_ignores_order :
    (WellFounded fun d c : Cascade n => c.Step d)
      ∧ (∀ c : Cascade n, (∃ d, c.Step d) ↔ c.calls ≠ [])
      ∧ (∀ c d : Cascade n, c.Step d →
        (c.calls.length < d.calls.length
            ∧ ∃ w, c.state.blocked.get w = true ∧ Lifted (· = w) c.state d.state)
          ∨ (d.calls.length ≤ c.calls.length ∧ d.state = c.state))
      ∧ (∀ (s : Search n) (node : Fin n), (∀ t, s.Releases node t ↔ t = s.unblock node)
        ∧ Lifted (s.Released node) s (s.unblock node))
      ∧ ∀ (split : Splitter) (next : Fin n → List (Fin n)) (max : Nat)
          (cycles : List (List (Fin n)) × Bool),
        Finds split next max cycles ↔ cycles = elementaryCycles split next max :=
  ⟨Cascade.step_wellFounded, fun _ => Cascade.exists_step_iff, fun _ _ hstep => hstep.lifts,
    fun s node => ⟨fun _ => releases_iff, lifted_unblock s node⟩, fun _ _ _ _ => finds_iff⟩

/-- Three blocked nodes that wait for each other. -/
def entangled : Search 3 :=
  { fresh 3 0 with blocked := #v[true, true, true], waiters := #v[[1, 2], [2, 0], [1]] }

/-- The release of the first of them may look at the last node before the middle one. -/
theorem release_ignores_order_entangled :
    Cascade.Step ⟨entangled.lift 0, [[2, 1]]⟩ ⟨(entangled.lift 0).lift 2, [[1], [1]]⟩
      ∧ (∃ w, (entangled.lift 0).blocked.get w = true
        ∧ Lifted (· = w) (entangled.lift 0) ((entangled.lift 0).lift 2))
      ∧ (∀ t, entangled.Releases 0 t ↔ t = entangled.unblock 0)
      ∧ (entangled.unblock 0).blocked = #v[false, false, false]
      ∧ (entangled.unblock 0).waiters = #v[[], [], []] := by
  have hstep : Cascade.Step ⟨entangled.lift 0, [[2, 1]]⟩ ⟨(entangled.lift 0).lift 2, [[1], [1]]⟩ :=
    .call (by decide) (.refl _)
  obtain ⟨-, -, hlifts, hreleases, -⟩ := release_ignores_order (n := 3)
  refine ⟨hstep, ?_, (hreleases entangled 0).1, by decide +kernel, by decide +kernel⟩
  rcases hlifts _ _ hstep with ⟨-, hlifted⟩ | ⟨hfewer, -⟩
  · exact hlifted
  · exact absurd hfewer (by decide)

end Search

end Archmap
