import Mathlib.Data.Prod.Lex
import Archmap.Proofs.Digraph.Blocking

/-!
# Releasing nodes one after the other

`Search.unblock` says by one flood what the release of a node comes to. Taken step by step it is a
cascade of calls. A call takes the block off its node and forgets what waits for it, then looks at
each node that waited, and where one is still blocked, a call for that node comes first. The calls
change what they walk through, nodes may wait for each other in circles, and in which order a call
looks at the nodes is left open: each may choose another (`Cascade.Step`).

Every call takes one block away, so every cascade ends (`Cascade.step_wellFounded`). On its way a
cascade has lifted only nodes that the release reaches, and those of them that it lacks are still to
be looked at or wait for such ones (`Cascade.Reaches`). So once no call is left it has lifted all of
them and nothing else, whatever the order was (`releases_iff`).
-/

namespace Archmap

namespace Search

open Relation

variable {n : Nat} {s t t' : Search n} {node w : Fin n} {lifted : Fin n → Prop}

/-! ## Lifting blocks -/

/-- `t` is `s` with some nodes unblocked, for which nothing waits any more. All else is as before. -/
structure Lifted (lifted : Fin n → Prop) (s t : Search n) : Prop where
  blocked : ∀ v, t.blocked.get v = true ↔ s.blocked.get v = true ∧ ¬lifted v
  emptied : ∀ v, lifted v → t.waiters.get v = []
  kept : ∀ v, ¬lifted v → t.waiters.get v = s.waiters.get v
  room : t.room = s.room
  found : t.found = s.found
  truncated : t.truncated = s.truncated

theorem vector_ext_get {α : Type} {xs ys : Vector α n} (h : ∀ v, xs.get v = ys.get v) : xs = ys :=
  Vector.ext fun i hi => h ⟨i, hi⟩

theorem Lifted.unique (h : Lifted lifted s t) (h' : Lifted lifted s t') : t = t' := by
  have hblocked : t.blocked = t'.blocked :=
    vector_ext_get fun v => Bool.eq_iff_iff.mpr ((h.blocked v).trans (h'.blocked v).symm)
  have hwaiters : t.waiters = t'.waiters := by
    refine vector_ext_get fun v => ?_
    by_cases hv : lifted v
    · rw [h.emptied v hv, h'.emptied v hv]
    · rw [h.kept v hv, h'.kept v hv]
  have hroom := h.room.trans h'.room.symm
  have hfound := h.found.trans h'.found.symm
  have htruncated := h.truncated.trans h'.truncated.symm
  cases t
  cases t'
  simp_all

theorem lifted_unblock (s : Search n) (node : Fin n) :
    Lifted (s.Released node) s (s.unblock node) :=
  ⟨fun _ => unblock_blocked, fun v => (unblock_waiters v).1, fun v => (unblock_waiters v).2,
    rfl, rfl, rfl⟩

/-- Takes the block off one node and forgets what waits for it. -/
def lift (s : Search n) (node : Fin n) : Search n :=
  { s with blocked := s.blocked.set node false node.isLt
           waiters := s.waiters.set node [] node.isLt }

theorem waiters_lift (s : Search n) (node v : Fin n) :
    (s.lift node).waiters.get v = if node = v then [] else s.waiters.get v := by
  simp only [lift, vector_get, Vector.getElem_set, Fin.ext_iff]

theorem Lifted.lift (h : Lifted lifted s t) (w : Fin n) :
    Lifted (fun v => lifted v ∨ v = w) s (t.lift w) := by
  refine ⟨fun v => ?_, fun v hv => ?_, fun v hv => ?_, h.room, h.found, h.truncated⟩
  · rw [show (t.lift w).blocked.get v = if w = v then false else t.blocked.get v from
      get_set t.blocked w v false]
    by_cases hw : w = v
    · simp [hw]
    · simp [hw, h.blocked, Ne.symm hw]
  · rw [waiters_lift]
    split
    · rfl
    · rename_i hne
      exact h.emptied v (hv.resolve_right fun heq => hne heq.symm)
  · rw [waiters_lift, if_neg fun heq => hv (Or.inr heq.symm)]
    exact h.kept v fun hlifted => hv (Or.inl hlifted)

theorem lifted_none (s : Search n) : Lifted (fun _ => False) s s :=
  ⟨by simp, by simp, by simp, rfl, rfl, rfl⟩

theorem lifted_lift (s : Search n) (w : Fin n) : Lifted (· = w) s (s.lift w) := by
  have hlifted := (lifted_none s).lift w
  simpa only [false_or] using hlifted

/-! ## Cascades -/

/-- A release on its way. Each call keeps what it still has to look at; the innermost comes first. -/
structure Cascade (n : Nat) where
  state : Search n
  calls : List (List (Fin n))

namespace Cascade

/-- One step of a release. -/
inductive Step : Cascade n → Cascade n → Prop
  /-- A call that has looked at everything is left. -/
  | leave {s : Search n} {calls : List (List (Fin n))} :
      Step ⟨s, [] :: calls⟩ ⟨s, calls⟩
  /-- A node that is not blocked is passed over. -/
  | pass {s : Search n} {w : Fin n} {ws : List (Fin n)} {calls : List (List (Fin n))}
      (hfree : s.blocked.get w = false) :
      Step ⟨s, (w :: ws) :: calls⟩ ⟨s, ws :: calls⟩
  /-- A node that is blocked is called for, and what waits for it is looked at in some order. -/
  | call {s : Search n} {w : Fin n} {ws order : List (Fin n)} {calls : List (List (Fin n))}
      (hblocked : s.blocked.get w = true) (horder : order.Perm (s.waiters.get w)) :
      Step ⟨s, (w :: ws) :: calls⟩ ⟨s.lift w, order :: ws :: calls⟩

variable {c d : Cascade n}

/-- How much there is left to do: first blocks to lift, then places to look at. -/
def rank (c : Cascade n) : Nat ×ₗ Nat :=
  toLex (c.state.blocked.count true, c.calls.flatten.length + c.calls.length)

theorem Step.rank_lt (h : c.Step d) : d.rank < c.rank := by
  cases h with
  | leave => exact Prod.Lex.right _ (by simp)
  | pass hfree => exact Prod.Lex.right _ (by simp)
  | call hblocked horder => exact Prod.Lex.left _ _ (count_set_lt hblocked)

theorem step_wellFounded : WellFounded fun d c : Cascade n => c.Step d :=
  Subrelation.wf (fun h => h.rank_lt) (InvImage.wf rank wellFounded_lt)

/-- Only a cascade without calls is at its end. -/
theorem exists_step_iff : (∃ d, c.Step d) ↔ c.calls ≠ [] := by
  obtain ⟨s, calls⟩ := c
  constructor
  · rintro ⟨d, hstep⟩
    cases hstep <;> exact List.cons_ne_nil _ _
  · intro hcalls
    match calls, hcalls with
    | [] :: calls, _ => exact ⟨_, .leave⟩
    | (w :: ws) :: calls, _ =>
        cases hw : s.blocked.get w with
        | false => exact ⟨_, .pass hw⟩
        | true => exact ⟨_, .call hw (.refl _)⟩

theorem exists_end (c : Cascade n) : ∃ t, ReflTransGen Step c ⟨t, []⟩ := by
  induction c using step_wellFounded.induction with
  | _ c ih =>
      obtain ⟨s, calls⟩ := c
      by_cases hcalls : calls = []
      · exact ⟨s, hcalls ▸ .refl⟩
      · obtain ⟨d, hstep⟩ := exists_step_iff (c := ⟨s, calls⟩).mpr hcalls
        obtain ⟨t, hrun⟩ := ih d hstep
        exact ⟨t, .head hstep hrun⟩

/-- A step that makes a call unblocks one node that was blocked, and other steps change nothing. -/
theorem Step.lifts (h : c.Step d) :
    (c.calls.length < d.calls.length ∧
        ∃ w, c.state.blocked.get w = true ∧ Lifted (· = w) c.state d.state)
      ∨ (d.calls.length ≤ c.calls.length ∧ d.state = c.state) := by
  cases h with
  | leave => exact Or.inr ⟨by simp, rfl⟩
  | pass hfree => exact Or.inr ⟨by simp, rfl⟩
  | @call s w _ _ _ hblocked horder =>
      exact Or.inl ⟨by simp, w, hblocked, lifted_lift s w⟩

/-! ## What a cascade reaches -/

/-- The cascade that began with the release of `node` has lifted some nodes. They are reached by the
release, and so is what it still has to look at. What waits for a node that is lifted is lifted as
well or still to be looked at. -/
structure Reaches (s : Search n) (node : Fin n) (lifted : Fin n → Prop) (c : Cascade n) : Prop where
  sofar : Lifted lifted s c.state
  start : lifted node
  sound : ∀ v, lifted v → s.Released node v
  ahead : ∀ ws ∈ c.calls, ∀ w ∈ ws, s.blocked.get w = true → s.Released node w
  covered : ∀ v w, lifted v → s.Waits v w → lifted w ∨ ∃ ws ∈ c.calls, w ∈ ws

theorem reaches_start {order : List (Fin n)} (horder : order.Perm (s.waiters.get node)) :
    Reaches s node (· = node) ⟨s.lift node, [order]⟩ := by
  refine ⟨lifted_lift s node, rfl, fun v hv => hv ▸ .refl, fun ws hws w hw hblocked => ?_,
    fun v w hv hwaits => ?_⟩
  · rw [List.mem_singleton.mp hws, horder.mem_iff] at hw
    exact .single ⟨hw, hblocked⟩
  · rw [hv] at hwaits
    exact Or.inr ⟨order, List.mem_singleton_self _, horder.mem_iff.mpr hwaits.1⟩

theorem Reaches.step (h : Reaches s node lifted c) (hstep : c.Step d) :
    ∃ lifted, Reaches s node lifted d := by
  obtain ⟨hlifted, hstart, hsound, hahead, hcovered⟩ := h
  cases hstep with
  | leave =>
      refine ⟨lifted, hlifted, hstart, hsound,
        fun ws hws => hahead ws (List.mem_cons_of_mem _ hws), fun v w hv hwaits => ?_⟩
      simpa using hcovered v w hv hwaits
  | @pass t x ws calls hfree =>
      refine ⟨lifted, hlifted, hstart, hsound, fun vs hvs w hw => ?_, fun v w hv hwaits => ?_⟩
      · rcases List.mem_cons.mp hvs with rfl | hvs
        · exact hahead _ List.mem_cons_self w (List.mem_cons_of_mem _ hw)
        · exact hahead vs (List.mem_cons_of_mem _ hvs) w hw
      · by_cases hw : lifted w
        · exact Or.inl hw
        · -- it is blocked still, so it is not the one passed over
          have hne : w ≠ x := by
            rintro rfl
            rw [(hlifted.blocked w).mpr ⟨hwaits.2, hw⟩] at hfree
            cases hfree
          simpa [hne] using hcovered v w hv hwaits
  | @call t x ws order calls hblocked horder =>
      obtain ⟨hx, hnew⟩ := (hlifted.blocked x).mp hblocked
      have hreleased := hahead _ List.mem_cons_self x List.mem_cons_self hx
      have hmem : ∀ w, w ∈ order ↔ w ∈ s.waiters.get x := by
        intro w
        rw [horder.mem_iff, hlifted.kept x hnew]
      refine ⟨fun v => lifted v ∨ v = x, hlifted.lift x, Or.inl hstart, fun v hv => ?_,
        fun vs hvs w hw hwblocked => ?_, fun v w hv hwaits => ?_⟩
      · rcases hv with hv | rfl
        · exact hsound v hv
        · exact hreleased
      · rcases List.mem_cons.mp hvs with rfl | hvs
        · exact hreleased.tail ⟨(hmem w).mp hw, hwblocked⟩
        · rcases List.mem_cons.mp hvs with rfl | hvs
          · exact hahead _ List.mem_cons_self w (List.mem_cons_of_mem _ hw) hwblocked
          · exact hahead vs (List.mem_cons_of_mem _ hvs) w hw hwblocked
      · rcases hv with hv | rfl
        · rcases hcovered v w hv hwaits with hw | ⟨vs, hvs, hw⟩
          · exact Or.inl (Or.inl hw)
          · rcases List.mem_cons.mp hvs with rfl | hvs
            · rcases List.mem_cons.mp hw with rfl | hw
              · exact Or.inl (Or.inr rfl)
              · exact Or.inr ⟨ws, by simp, hw⟩
            · exact Or.inr ⟨vs, by simp [hvs], hw⟩
        · exact Or.inr ⟨order, List.mem_cons_self, (hmem w).mpr hwaits.1⟩

theorem Reaches.run (h : Reaches s node lifted c) (hrun : ReflTransGen Step c d) :
    ∃ lifted, Reaches s node lifted d := by
  induction hrun with
  | refl => exact ⟨lifted, h⟩
  | tail _ hstep ih =>
      obtain ⟨lifted', h'⟩ := ih
      exact h'.step hstep

/-- A cascade that is at its end has lifted what the release reaches. -/
theorem Reaches.lifted_iff (h : Reaches s node lifted ⟨t, []⟩) (v : Fin n) :
    lifted v ↔ s.Released node v := by
  refine ⟨h.sound v, fun hreleased => ?_⟩
  induction hreleased with
  | refl => exact h.start
  | @tail u w _ hwaits ih => simpa using h.covered u w ih hwaits

end Cascade

/-! ## The outcome of a release -/

/-- The release of a node, in some order, can end with the state `t`. -/
def Releases (s : Search n) (node : Fin n) (t : Search n) : Prop :=
  ∃ order : List (Fin n), order.Perm (s.waiters.get node)
    ∧ ReflTransGen Cascade.Step ⟨s.lift node, [order]⟩ ⟨t, []⟩

theorem Releases.eq_unblock (h : s.Releases node t) : t = s.unblock node := by
  obtain ⟨order, horder, hrun⟩ := h
  obtain ⟨lifted, hend⟩ := (Cascade.reaches_start horder).run hrun
  have hlifted := hend.sofar
  rw [funext fun v => propext (hend.lifted_iff v)] at hlifted
  exact hlifted.unique (lifted_unblock s node)

theorem releases_iff : s.Releases node t ↔ t = s.unblock node := by
  refine ⟨Releases.eq_unblock, ?_⟩
  rintro rfl
  obtain ⟨t, hrun⟩ := Cascade.exists_end ⟨s.lift node, [s.waiters.get node]⟩
  have hreleases : s.Releases node t := ⟨_, .refl _, hrun⟩
  exact hreleases.eq_unblock ▸ hreleases

end Search

end Archmap
