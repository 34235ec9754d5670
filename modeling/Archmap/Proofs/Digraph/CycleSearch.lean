import Archmap.Proofs.Digraph.Blocking

/-!
# The search finds what the walk without blocking finds

The search equals its specification: it reports the ways back of `waysBack` in their order, as far
as there is room, and says whether one was left over (`elementaryCycles_eq`).

Three facts are carried through the walk. What it delivers (`Delivers`) holds wherever it stops, and
so does what it leaves alone (`Spares`): the trail stays blocked and does not begin to wait. What it
has explored (`Explores`) holds as long as it was not stopped by the limit: that the nodes are
blocked as they should be, and that a part of the walk which found nothing took no block away and
left every node that it tried blocked.
-/

namespace Archmap

namespace Search

variable {n : Nat} {next : Fin n → List (Fin n)} {component : NodeSet n} {start node w : Fin n}
  {depth : Nat} {trail ws ws' : List (Fin n)} {s t u : Search n} {p q r : Bool × Search n}
  {c : List (Fin n)} {cs ds : List (List (Fin n))} {closed : Bool}

/-! ## What is delivered -/

/-- Between two states the cycles `cs` were met and reported as far as there was room. -/
structure Delivers (s t : Search n) (cs : List (List (Fin n))) : Prop where
  found : t.found = (cs.take s.room).reverse ++ s.found
  room : t.room = s.room - cs.length
  truncated : t.truncated = (s.truncated || decide (s.room < cs.length))

theorem Delivers.refl (s : Search n) : Delivers s s [] :=
  ⟨by simp, by simp, by simp⟩

theorem Delivers.trans (h : Delivers s t cs) (h' : Delivers t u ds) : Delivers s u (cs ++ ds) := by
  obtain ⟨hfound, hroom, htruncated⟩ := h
  obtain ⟨hfound', hroom', htruncated'⟩ := h'
  constructor
  · rw [hfound', hfound, hroom, List.take_append, List.reverse_append, List.append_assoc]
  · rw [hroom', hroom, List.length_append]
    omega
  · rw [htruncated', htruncated, hroom, List.length_append, Bool.or_assoc, ← Bool.decide_or]
    congr 2
    exact propext (by omega)

/-- Once stopped, the search delivers no more of what it would still meet. -/
theorem Delivers.stopped (h : Delivers s t cs) (hs : s.truncated = false) (ht : t.truncated = true)
    (ds : List (List (Fin n))) : Delivers s t (cs ++ ds) := by
  have hfull : s.room < cs.length := by
    rw [h.truncated, hs, Bool.false_or] at ht
    exact of_decide_eq_true ht
  constructor
  · rw [h.found, List.take_append_of_le_length (by omega)]
  · rw [h.room, List.length_append]
    omega
  · rw [ht, List.length_append, decide_eq_true (by omega), Bool.or_true]

theorem delivers_report (hs : s.truncated = false) : Delivers s (s.report c).2 [c] := by
  unfold report
  split
  · rename_i hroom
    exact ⟨by simp [hroom], by simp [hroom], by simp [hroom]⟩
  · rename_i room hroom
    exact ⟨by simp [hroom], by simp [hroom], by simp [hs, hroom]⟩

theorem report_fst (h : (s.report c).2.truncated = false) : (s.report c).1 = true := by
  unfold report at h ⊢
  split at h
  · cases h
  · rfl

theorem report_blocked : (s.report c).2.blocked = s.blocked := by
  unfold report
  split <;> rfl

theorem report_waiters : (s.report c).2.waiters = s.waiters := by
  unfold report
  split <;> rfl

/-! ## Where a node is entered -/

/-- What holds where the walk enters a node. -/
structure Entry (next : Fin n → List (Fin n)) (component : NodeSet n) (start : Fin n) (depth : Nat)
    (trail : List (Fin n)) (node : Fin n) (s : Search n) : Prop where
  room : s.truncated = false
  nodup : trail.Nodup
  blocking : Blocking next component start s trail
  inside : component.get node = true
  free : s.blocked.get node = false
  depth : trail.length + depth = n

theorem Entry.nodup_cons (h : Entry next component start depth trail node s) :
    (node :: trail).Nodup :=
  List.nodup_cons.mpr ⟨h.blocking.not_mem_trail h.free, h.nodup⟩

/-- There are enough nodes left for the walk to go on. -/
theorem Entry.depth_pos (h : Entry next component start depth trail node s) : 0 < depth := by
  have hlength := h.nodup_cons.length_le_card
  have hdepth := h.depth
  simp only [List.length_cons, Fintype.card_fin] at hlength
  omega

theorem Entry.length_cons (h : Entry next component start (depth + 1) trail node s) :
    (node :: trail).length + depth = n := by
  rw [List.length_cons, Nat.add_right_comm]
  exact h.depth

theorem Entry.step (h : Entry next component start (depth + 1) trail node s)
    (ht : t.truncated = false) (hblocking : Blocking next component start t (node :: trail))
    (hw : component.get w = true) (hfree : t.blocked.get w = false) :
    Entry next component start depth (node :: trail) w t :=
  ⟨ht, h.nodup_cons, hblocking, hw, hfree, h.length_cons⟩

/-! ## What is left alone -/

/-- Between two states the trail stayed blocked and none of it began to wait, and in the second the
nodes wait along arcs of the component. -/
structure Spares (next : Fin n → List (Fin n)) (component : NodeSet n) (trail : List (Fin n))
    (s t : Search n) : Prop where
  walked : ∀ v ∈ trail, t.blocked.get v = true
  waiting : ∀ v ∈ trail, ∀ w, v ∈ t.waiters.get w → v ∈ s.waiters.get w
  arc : ∀ v w, component.get w = true → v ∈ t.waiters.get w → w ∈ next v ∧ component.get v = true

theorem Blocking.spares (h : Blocking next component start s trail) :
    Spares next component trail s s :=
  ⟨h.walked, fun _ _ _ hwaits => hwaits, h.arc⟩

theorem Spares.trans (h : Spares next component trail s t) (h' : Spares next component trail t u) :
    Spares next component trail s u :=
  ⟨h'.walked, fun v hv w hwaits => h.waiting v hv w (h'.waiting v hv w hwaits), h'.arc⟩

/-- A node that is left with a way back releases nothing on the trail. -/
theorem Spares.not_released (h : Entry next component start depth trail node s)
    (hrun : Spares next component (node :: trail) (s.block node) t) {v : Fin n} (hv : v ∈ trail) :
    ¬t.Released node v := by
  intro hreleased
  exact (not_blocked_of_released h.blocking h.inside h.free
    (fun v hv => hrun.waiting v (List.mem_cons_of_mem node hv)) hrun.arc hreleased).2.1 hv

theorem Spares.unblock (h : Entry next component start depth trail node s)
    (hrun : Spares next component (node :: trail) (s.block node) t) :
    Spares next component trail s (t.unblock node) := by
  constructor
  · intro v hv
    exact unblock_blocked.mpr
      ⟨hrun.walked v (List.mem_cons_of_mem node hv), hrun.not_released h hv⟩
  · intro v hv w hwaits
    exact hrun.waiting v (List.mem_cons_of_mem node hv) w (mem_unblock_waiters.mp hwaits).1
  · exact fun v w hw hwaits => hrun.arc v w hw (mem_unblock_waiters.mp hwaits).1

theorem Spares.await (h : Entry next component start depth trail node s)
    (hrun : Spares next component (node :: trail) (s.block node) t) :
    Spares next component trail s (t.await node ((next node).filter component.get)) := by
  constructor
  · exact fun v hv => hrun.walked v (List.mem_cons_of_mem node hv)
  · intro v hv w hwaits
    rcases mem_await.mp hwaits with hwaits | ⟨rfl, -⟩
    · exact hrun.waiting v (List.mem_cons_of_mem node hv) w hwaits
    · exact absurd hv (h.blocking.not_mem_trail h.free)
  · intro v w hw hwaits
    rcases mem_await.mp hwaits with hwaits | ⟨rfl, harc⟩
    · exact hrun.arc v w hw hwaits
    · exact ⟨List.mem_of_mem_filter harc, h.inside⟩

/-! ## What is explored -/

/-- A part of the walk that was not stopped led from `p` to `r`. It tried the nodes `tried` from the
end of the trail and met the cycles `cs`. -/
structure Explores (next : Fin n → List (Fin n)) (component : NodeSet n) (start : Fin n)
    (trail : List (Fin n)) (p r : Bool × Search n) (tried : List (Fin n))
    (cs : List (List (Fin n))) : Prop where
  closed : r.1 = true ↔ p.1 = true ∨ cs ≠ []
  blocking : Blocking next component start r.2 trail
  kept : cs = [] → ∀ v, p.2.blocked.get v = true → r.2.blocked.get v = true
  dead : cs = [] → ∀ w ∈ tried, component.get w = true → r.2.blocked.get w = true

/-- A part of the walk, stopped or not. -/
structure Progress (next : Fin n → List (Fin n)) (component : NodeSet n) (start : Fin n)
    (trail : List (Fin n)) (p r : Bool × Search n) (tried : List (Fin n))
    (cs : List (List (Fin n))) : Prop where
  delivers : Delivers p.2 r.2 cs
  spares : Spares next component trail p.2 r.2
  explores : r.2.truncated = false → Explores next component start trail p r tried cs

theorem Explores.trans (h : Explores next component start trail p q ws cs)
    (h' : Explores next component start trail q r ws' ds) :
    Explores next component start trail p r (ws ++ ws') (cs ++ ds) := by
  constructor
  · rw [h'.closed, h.closed, ne_eq, ne_eq, ne_eq, List.append_eq_nil_iff, not_and_or, or_assoc]
  · exact h'.blocking
  · intro hnone v hv
    obtain ⟨hcs, hds⟩ := List.append_eq_nil_iff.mp hnone
    exact h'.kept hds v (h.kept hcs v hv)
  · intro hnone w hw hin
    obtain ⟨hcs, hds⟩ := List.append_eq_nil_iff.mp hnone
    rcases List.mem_append.mp hw with hw | hw
    · exact h'.kept hds w (h.dead hcs w hw hin)
    · exact h'.dead hds w hw hin

/-- Trying a node that cannot be entered changes nothing. -/
theorem progress_skip (h : Blocking next component start s trail)
    (hdead : component.get w = true → s.blocked.get w = true) :
    Progress next component start trail (closed, s) (closed, s) [w] [] := by
  refine ⟨.refl s, h.spares, fun _ => ⟨by simp, h, fun _ _ hv => hv, ?_⟩⟩
  intro _ v hv
  exact List.mem_singleton.mp hv ▸ hdead

theorem Explores.or_closed (h : Explores next component start trail (false, s) r ws cs) :
    Explores next component start trail (closed, s) (closed || r.1, r.2) ws cs := by
  refine ⟨?_, h.blocking, h.kept, h.dead⟩
  have hclosed := h.closed
  simp only [Bool.false_eq_true, false_or] at hclosed
  rw [Bool.or_eq_true, hclosed]

/-! ## One arc -/

variable {enter : Fin n → Search n → Bool × Search n} {onward : Fin n → List (List (Fin n))}

/-- The arc to `w` is not followed: the limit was met, or `w` lies outside the component, or it is
blocked and not the start. -/
def Skips (component : NodeSet n) (start : Fin n) (s : Search n) (w : Fin n) : Prop :=
  s.truncated = true ∨ component.get w = false ∨ w ≠ start ∧ s.blocked.get w = true

instance : Decidable (Skips component start s w) :=
  inferInstanceAs (Decidable (_ ∨ _ ∨ _))

theorem follow_of_skips (h : Skips component start p.2 w) :
    follow enter component start trail p w = p := by
  rcases h with h | h | ⟨hne, h⟩
  · simp [follow, h]
  · simp [follow, h]
  · simp [follow, hne, h]

theorem follow_to_start (h : ¬Skips component start s start) :
    follow enter component start trail (closed, s) start
      = (closed || (s.report trail.reverse).1, (s.report trail.reverse).2) := by
  simp only [Skips, not_or, Bool.not_eq_true, Bool.not_eq_false] at h
  simp [follow, h.1, h.2.1]

theorem follow_into (h : ¬Skips component start s w) (hne : w ≠ start) :
    follow enter component start trail (closed, s) w
      = (closed || (enter w s).1, (enter w s).2) := by
  simp only [Skips, not_or, not_and, Bool.not_eq_true, Bool.not_eq_false] at h
  simp [follow, h.1, h.2.1, h.2.2 hne, hne]

theorem follow_progress (hs : s.truncated = false) (h : Blocking next component start s trail)
    (hnone : component.get w = true → s.blocked.get w = true → w ∉ trail → onward w = [])
    (henter : component.get w = true → s.blocked.get w = false →
      Progress next component start trail (false, s) (enter w s) [w] (onward w)) :
    Progress next component start trail (closed, s)
      (follow enter component start trail (closed, s) w) [w]
      (waysVia onward component.get start trail w) := by
  by_cases hw : component.get w = true
  · by_cases hstart : w = start
    · have hvia : waysVia onward component.get start trail w = [trail.reverse] := by
        simp [waysVia, ← hstart, hw]
      subst hstart
      rw [hvia, follow_to_start (by simp [Skips, hs, hw])]
      refine ⟨delivers_report hs, ?_, fun hroom => ⟨?_, ?_, by simp, by simp⟩⟩
      · obtain ⟨hwalked, hwaiting, harc⟩ := h.spares
        constructor <;> simpa only [report_blocked, report_waiters]
      · simp [report_fst hroom]
      · obtain ⟨hwithin, hwalked, hleft, hawaited, harc⟩ := h
        constructor <;> simpa only [report_blocked, report_waiters]
    · by_cases hblocked : s.blocked.get w = true
      · have hvia : waysVia onward component.get start trail w = [] := by
          by_cases hmem : w ∈ trail
          · simp [waysVia, hmem, hstart]
          · simp [waysVia, hmem, hstart, hnone hw hblocked hmem]
        rw [hvia, follow_of_skips (Or.inr (Or.inr ⟨hstart, hblocked⟩))]
        exact progress_skip h fun _ => hblocked
      · have hfree : s.blocked.get w = false := by simpa using hblocked
        have hmem : w ∉ trail := h.not_mem_trail hfree
        have hvia : waysVia onward component.get start trail w = onward w := by
          simp [waysVia, hstart, hmem, hw]
        obtain ⟨hdelivers, hspares, hexplores⟩ := henter hw hfree
        rw [hvia, follow_into (by simp [Skips, hs, hw, hfree]) hstart]
        exact ⟨hdelivers, hspares, fun hroom => (hexplores hroom).or_closed⟩
  · have hvia : waysVia onward component.get start trail w = [] := by simp [waysVia, hw]
    rw [hvia, follow_of_skips (Or.inr (Or.inl (by simpa using hw)))]
    exact progress_skip h fun hin => absurd hin hw

/-! ## All arcs of a node -/

theorem foldl_follow_stopped (hp : p.2.truncated = true) (ws : List (Fin n)) :
    ws.foldl (follow enter component start trail) p = p := by
  induction ws with
  | nil => rfl
  | cons w ws ih =>
      rw [List.foldl_cons, follow_of_skips (Or.inl hp), ih]

theorem foldl_follow_progress
    (hnone : ∀ s w, Blocking next component start s trail → component.get w = true →
      s.blocked.get w = true → w ∉ trail → onward w = [])
    (henter : ∀ s w, s.truncated = false → Blocking next component start s trail →
      component.get w = true → s.blocked.get w = false →
      Progress next component start trail (false, s) (enter w s) [w] (onward w))
    (hp : p.2.truncated = false) (h : Blocking next component start p.2 trail) :
    Progress next component start trail p (ws.foldl (follow enter component start trail) p) ws
      (ws.flatMap (waysVia onward component.get start trail)) := by
  induction ws generalizing p with
  | nil =>
      exact ⟨.refl p.2, h.spares, fun _ => ⟨by simp, h, fun _ _ hv => hv, by simp⟩⟩
  | cons w ws ih =>
      obtain ⟨closed, s⟩ := p
      have hfirst : Progress next component start trail (closed, s)
          (follow enter component start trail (closed, s) w) [w]
          (waysVia onward component.get start trail w) :=
        follow_progress hp h (hnone s w h) (henter s w hp h)
      rw [List.foldl_cons, List.flatMap_cons]
      generalize follow enter component start trail (closed, s) w = q at hfirst ⊢
      cases hq : q.2.truncated with
      | true =>
          rw [foldl_follow_stopped hq]
          refine ⟨hfirst.delivers.stopped hp hq _, hfirst.spares, fun hroom => ?_⟩
          rw [hq] at hroom
          cases hroom
      | false =>
          have hdone := hfirst.explores hq
          have hrest := ih hq hdone.blocking
          exact ⟨hfirst.delivers.trans hrest.delivers, hfirst.spares.trans hrest.spares,
            fun hroom => hdone.trans (hrest.explores hroom)⟩

/-! ## The walk -/

theorem Explores.leave_closed (h : Entry next component start depth trail node s)
    (hspares : Spares next component (node :: trail) (s.block node) t)
    (hrun : Explores next component start (node :: trail) (false, s.block node) (true, t) ws cs) :
    Explores next component start trail (false, s) (true, t.unblock node) [node] cs := by
  have hcs : cs ≠ [] := by simpa using hrun.closed
  have hblocking : Blocking next component start (t.unblock node) trail :=
    hrun.blocking.unblock fun v hv => hspares.not_released h hv
  refine ⟨by simpa using hcs, hblocking, fun hnone => ?_, fun hnone => ?_⟩
  · exact absurd hnone hcs
  · exact absurd hnone hcs

theorem Explores.leave_open
    (hrun : Explores next component start (node :: trail) (false, s.block node) (false, t)
      (next node) ((next node).flatMap (waysVia onward component.get start (node :: trail))))
    (hcs : (next node).flatMap (waysVia onward component.get start (node :: trail)) = []) :
    Explores next component start trail (false, s)
      (false, t.await node ((next node).filter component.get)) [node] [] := by
  have hdead : ∀ w ∈ next node, component.get w = true → w ≠ start ∧ t.blocked.get w = true := by
    intro w harc hw
    refine ⟨fun hstart => ?_, hrun.dead hcs w harc hw⟩
    have hvia := List.flatMap_eq_nil_iff.mp hcs w harc
    simp [waysVia, ← hstart, hw] at hvia
  refine ⟨by simp, hrun.blocking.await hdead, fun _ v hv => ?_, fun _ v hv _ => ?_⟩
  · have hstays : (s.block node).blocked.get v = true := by
      rw [block_get, show s.blocked.get v = true from hv, ite_self]
    exact hrun.kept hcs v hstays
  · exact hrun.blocking.walked v (List.mem_cons.mpr (Or.inl (List.mem_singleton.mp hv)))

/-- A walk from a node that is not blocked meets the ways back from it, in their order. -/
theorem walk_progress (h : Entry next component start depth trail node s) :
    Progress next component start trail (false, s)
      (walk next component start depth trail node s) [node]
      (waysBack next component.get start depth trail node) := by
  induction depth generalizing node trail s with
  | zero => exact absurd h.depth_pos (Nat.lt_irrefl 0)
  | succ depth ih =>
      have henter : ∀ s w, s.truncated = false → Blocking next component start s (node :: trail) →
          component.get w = true → s.blocked.get w = false →
          Progress next component start (node :: trail) (false, s)
            (walk next component start depth (node :: trail) w s) [w]
            (waysBack next component.get start depth (node :: trail) w) :=
        fun s w hs hblocking hw hfree => ih (h.step hs hblocking hw hfree)
      have hrun : Progress next component start (node :: trail) (false, s.block node)
          ((next node).foldl (follow (walk next component start depth (node :: trail)) component start
            (node :: trail)) (false, s.block node)) (next node)
          ((next node).flatMap (waysVia (waysBack next component.get start depth (node :: trail))
            component.get start (node :: trail))) :=
        foldl_follow_progress
          (fun s w h hw hblocked hoff => h.waysBack_eq_nil hw hblocked hoff (List.Subset.refl _))
          henter h.room (h.blocking.block h.inside)
      rw [walk, waysBack]
      generalize (next node).foldl _ _ = r at hrun ⊢
      obtain ⟨closed, t⟩ := r
      obtain ⟨hdelivers, hspares, hexplores⟩ := hrun
      cases closed with
      | true =>
          exact ⟨⟨hdelivers.found, hdelivers.room, hdelivers.truncated⟩,
            hspares.unblock h, fun hroom => (hexplores hroom).leave_closed h hspares⟩
      | false =>
          refine ⟨⟨hdelivers.found, hdelivers.room, hdelivers.truncated⟩,
            hspares.await h, fun hroom => ?_⟩
          have hexplored := hexplores hroom
          have hcs := hexplored.closed
          simp only [Bool.false_eq_true, false_or, false_iff, ne_eq, not_not] at hcs
          rw [hcs]
          exact hexplored.leave_open hcs

/-- Following arcs from the end of the trail meets the ways back through them, in their order. -/
theorem arcs_progress (hp : p.2.truncated = false) (h : Blocking next component start p.2 trail)
    (hnodup : trail.Nodup) (hdepth : trail.length + depth = n) :
    Progress next component start trail p
      (ws.foldl (follow (walk next component start depth trail) component start trail) p) ws
      (ws.flatMap (waysVia (waysBack next component.get start depth trail) component.get start
        trail)) :=
  foldl_follow_progress
    (fun _ _ h hw hblocked hoff => h.waysBack_eq_nil hw hblocked hoff (List.Subset.refl _))
    (fun _ _ hs h hw hfree => walk_progress ⟨hs, hnodup, h, hw, hfree, hdepth⟩) hp h

/-! ## Component after component -/

/-- Starts that lead no cycle may be passed over. -/
theorem drop_flatMap_of_skip {f : Fin n → List (List (Fin n))} {start : Nat} {least : Fin n}
    (hle : start ≤ least) (hskip : ∀ v : Fin n, start ≤ v → v < least → f v = []) :
    ((List.finRange n).drop start).flatMap f
      = f least ++ ((List.finRange n).drop (least + 1)).flatMap f := by
  induction hk : least.val - start generalizing start with
  | zero =>
      have heq : start = least := by omega
      rw [heq, List.drop_eq_getElem_cons (by simp), List.flatMap_cons]
      simp
  | succ k ih =>
      have hlt : start < n := by omega
      have hless : (⟨start, hlt⟩ : Fin n) < least := Fin.mk_lt_of_lt_val (by omega)
      have hnone : f ⟨start, hlt⟩ = [] := hskip ⟨start, hlt⟩ (Nat.le_refl _) hless
      rw [List.drop_eq_getElem_cons (by simpa using hlt), List.flatMap_cons, List.getElem_finRange]
      rw [show f (Fin.cast _ ⟨start, _⟩) = [] from hnone, List.nil_append]
      exact ih (by omega) (fun v hv => hskip v (by omega)) (by omega)

/-- The walk through a component may begin with nothing noted of its nodes. -/
theorem Cleared.entry (h : Cleared component s t) (hs : s.truncated = false)
    (hstart : component.get start = true) : Entry next component start n [] start t :=
  ⟨h.truncated.trans hs, List.nodup_nil, h.blocking, hstart, h.blocked start hstart, Nat.zero_add n⟩

/-- The walk through a component meets the ways back from the start, whatever is noted of nodes
outside. -/
theorem walk_delivers (hs : s.truncated = false) (h : Cleared component s t)
    (hstart : component.get start = true) :
    Delivers s (walk next component start n [] start t).2
      (waysBack next component.get start n [] start) := by
  obtain ⟨hfound, hroom, htruncated⟩ :=
    (walk_progress (h.entry hs hstart)).delivers
  rw [h.room] at hfound hroom htruncated
  rw [h.found] at hfound
  rw [h.truncated] at htruncated
  exact ⟨hfound, hroom, htruncated⟩

theorem component_delivers (hs : s.truncated = false) {members : List (Fin n)}
    (hmembers : ∀ w, w ∈ members ↔ Mutual (ArcFrom next start) start w) :
    Delivers s (walk next (Vector.ofFn fun v => members.contains v) start n [] start s.restart).2
      (circuitsFrom next start) := by
  have hinside : ∀ w, (Vector.ofFn fun v => members.contains v).get w = true ↔
      Mutual (ArcFrom next start) start w := by
    intro w
    rw [get_ofFn, List.contains_iff_mem, hmembers]
  have hwalk : Delivers s (walk next _ start n [] start s.restart).2 _ :=
    walk_delivers hs (cleared_restart s) ((hinside start).mpr ⟨.refl, .refl⟩)
  rwa [waysBack_component hinside .refl] at hwalk

/-- The search that goes on at `start` meets the cycles whose least node is there or behind. -/
theorem throughComponents_delivers {split : Splitter} {rounds start : Nat} (hsplit : split.Lawful)
    (hloop : ∀ v, v ∉ next v) (hs : s.truncated = false) (hrounds : n ≤ start + rounds) :
    Delivers s (s.throughComponents split next rounds start)
      (((List.finRange n).drop start).flatMap (circuitsFrom next)) := by
  induction rounds generalizing start s with
  | zero =>
      rw [List.drop_eq_nil_of_le (by simpa using hrounds), throughComponents]
      exact .refl s
  | succ rounds ih =>
      unfold throughComponents
      split
      · rename_i hleast
        have hnone : ((List.finRange n).drop start).flatMap (circuitsFrom next) = [] := by
          refine List.flatMap_eq_nil_iff.mpr fun v hv => circuitsFrom_eq_nil hloop fun w hmutual => ?_
          have hle : start ≤ v.val := by
            obtain ⟨i, hi, rfl⟩ := List.mem_drop_iff_getElem.mp hv
            simp
          exact leastComponent?_eq_none hsplit hleast hle (hmutual.mono hle)
        rw [hnone]
        exact .refl s
      · rename_i least members hleast
        obtain ⟨hle, hmembers, hskip⟩ := leastComponent?_eq_some hsplit hleast
        have hwalk := component_delivers hs hmembers
        rw [drop_flatMap_of_skip hle fun v hv hless => circuitsFrom_eq_nil hloop fun w hmutual =>
          hskip v hv hless w (hmutual.mono hv)]
        dsimp only
        generalize walk next _ least n [] least s.restart = r at hwalk ⊢
        split
        · rename_i hr
          exact hwalk.stopped hs hr _
        · rename_i hr
          exact hwalk.trans (ih (by simpa using hr) (by omega))

end Search

/-- The search returns the first `max` elementary cycles, each from its least node on, and says
whether there are more. -/
theorem elementaryCycles_eq {n : Nat} {next : Fin n → List (Fin n)} {split : Splitter}
    (hsplit : split.Lawful) (hloop : ∀ v, v ∉ next v) (max : Nat) :
    elementaryCycles split next max
      = ((circuits next).take max, decide (max < (circuits next).length)) := by
  obtain ⟨hfound, -, htruncated⟩ := Search.throughComponents_delivers
    (s := Search.fresh n max) hsplit hloop rfl (Nat.le_add_left n 0)
  rw [elementaryCycles, hfound, htruncated]
  simp [Search.fresh, circuits]

end Archmap
