import Mathlib.Data.List.Basic
import Archmap.Proofs.Namespace.Ways

/-!
# Sequences of shapes

A pattern is read from left to right, which nests its shapes to the left. How they are nested makes
no difference to the ways to read them (`ways_followed_assoc`), so a pattern can be taken as the list
of its shapes, and a way to read it as a way through that list (`mem_ways_sequence`).

Shapes with the same ways find the same (`search?_congr`). A shape that can only be read from the
start of a text is not searched for elsewhere (`search?_of_tied`).
-/

namespace Archmap

namespace Outcome

variable {spans others : List Span} {outcome : Outcome} {first second third : Cursor → List Outcome}

theorem behind_nil : outcome.behind [] = outcome := rfl

theorem behind_behind : (outcome.behind others).behind spans = outcome.behind (spans ++ others) := by
  rw [behind, behind, behind, List.append_assoc]

theorem chain_assoc :
    chain (chain first second) third = chain first (chain second third) := by
  funext cursor
  simp only [chain, List.flatMap_assoc, List.flatMap_map, List.map_flatMap, List.map_map]
  refine List.flatMap_congr fun front _ => List.flatMap_congr fun back _ => ?_
  exact List.map_congr_left fun o _ => behind_behind.symm

theorem plain_chain : chain (fun cursor => [.plain cursor]) first = first := by
  funext cursor
  rw [chain, List.flatMap_singleton]
  exact List.map_id' _

theorem chain_plain : chain first (fun cursor => [.plain cursor]) = first := by
  have hplain : ∀ o : Outcome, [Outcome.plain o.cursor].map (.behind o.spans) = [o] := by
    intro o
    rw [List.map_singleton, behind, plain, List.append_nil]
  funext cursor
  rw [chain, List.flatMap_congr fun o _ => hplain o, List.flatMap_singleton']

/-- The preferred way from the leftmost place that has one. -/
def leftmost? (ways : Cursor → List Outcome) (offset : Nat) : List Char → Option Outcome
  | [] => (ways ⟨offset, []⟩).head?
  | c :: rest => (ways ⟨offset, c :: rest⟩).head?.or (leftmost? ways (offset + 1) rest)

theorem leftmost?_congr {ways ways' : Cursor → List Outcome} {offset : Nat} {text : List Char}
    (h : ∀ cursor, (ways cursor).head? = (ways' cursor).head?) :
    leftmost? ways offset text = leftmost? ways' offset text := by
  induction text generalizing offset with
  | nil => rw [leftmost?, leftmost?, h]
  | cons c rest ih => rw [leftmost?, leftmost?, h, ih]

end Outcome

namespace Shape

variable {first second third other : Shape} {shapes : List Shape} {cursor : Cursor}
  {outcome : Outcome}

/-! ## Nesting -/

theorem ways_followed : (followed first second).ways = Outcome.chain first.ways second.ways := rfl

theorem ways_followed_congr {first' second' : Shape} (h : first.ways = first'.ways)
    (h' : second.ways = second'.ways) :
    (followed first second).ways = (followed first' second').ways := by
  rw [ways_followed, ways_followed, h, h']

theorem ways_followed_assoc :
    (followed (followed first second) third).ways
      = (followed first (followed second third)).ways :=
  Outcome.chain_assoc

theorem ways_nothing_followed : (followed nothing first).ways = first.ways :=
  Outcome.plain_chain

theorem ways_followed_nothing : (followed first nothing).ways = first.ways :=
  Outcome.chain_plain

/-! ## Lists of shapes -/

/-- The shapes one behind the other. -/
def sequence (shapes : List Shape) : Shape :=
  shapes.foldl .followed .nothing

theorem ways_foldl_followed :
    (shapes.foldl .followed first).ways = (followed first (sequence shapes)).ways := by
  induction shapes generalizing first with
  | nil => exact ways_followed_nothing.symm
  | cons shape rest ih =>
      calc (rest.foldl .followed (followed first shape)).ways
          = (followed (followed first shape) (sequence rest)).ways := ih
        _ = (followed first (followed shape (sequence rest))).ways := ways_followed_assoc
        _ = (followed first (followed (followed nothing shape) (sequence rest))).ways :=
            ways_followed_congr rfl (ways_followed_congr ways_nothing_followed.symm rfl)
        _ = (followed first (sequence (shape :: rest))).ways :=
            ways_followed_congr rfl ih.symm

theorem ways_sequence_cons :
    (sequence (first :: shapes)).ways = (followed first (sequence shapes)).ways :=
  calc (shapes.foldl .followed (followed nothing first)).ways
      = (followed (followed nothing first) (sequence shapes)).ways := ways_foldl_followed
    _ = (followed first (sequence shapes)).ways :=
        ways_followed_congr ways_nothing_followed rfl

/-- A way through the shapes one after the other. -/
def Along : List Shape → Cursor → Outcome → Prop
  | [], cursor, outcome => outcome = .plain cursor
  | shape :: rest, cursor, outcome =>
    ∃ front ∈ shape.ways cursor, ∃ back, Along rest front.cursor back
      ∧ back.behind front.spans = outcome

theorem mem_ways_sequence : outcome ∈ (sequence shapes).ways cursor ↔ Along shapes cursor outcome := by
  induction shapes generalizing cursor outcome with
  | nil => exact List.mem_singleton
  | cons shape rest ih =>
      rw [ways_sequence_cons, mem_ways_followed, Along]
      simp only [ih]

theorem along_append {others : List Shape} :
    Along (shapes ++ others) cursor outcome ↔
      ∃ front, Along shapes cursor front ∧ ∃ back, Along others front.cursor back
        ∧ back.behind front.spans = outcome := by
  induction shapes generalizing cursor outcome with
  | nil => simp [Along, Outcome.plain, Outcome.behind_nil]
  | cons shape rest ih =>
      simp only [List.cons_append, Along, ih]
      constructor
      · rintro ⟨x, hx, _, ⟨y, hy, z, hz, rfl⟩, rfl⟩
        exact ⟨_, ⟨x, hx, y, hy, rfl⟩, z, hz, Outcome.behind_behind.symm⟩
      · rintro ⟨_, ⟨x, hx, y, hy, rfl⟩, z, hz, rfl⟩
        exact ⟨x, hx, _, ⟨y, hy, z, hz, rfl⟩, Outcome.behind_behind⟩

/-! ## Searching -/

theorem run_congr (h : first.ways = other.ways) : first.run = other.run := by
  funext cursor
  rw [run_eq_firstWays, run_eq_firstWays, h]

theorem head?_run : (first.run cursor).head? = (first.ways cursor).head? := by
  rw [run_eq_firstWays, Outcome.head?_firstWays]

theorem search?_eq_leftmost? {offset : Nat} {text : List Char} :
    first.search? offset text = Outcome.leftmost? first.ways offset text := by
  induction text generalizing offset with
  | nil =>
      rw [search?, Outcome.leftmost?, ← head?_run]
      split
      · rename_i hrun
        rw [hrun, List.head?_cons]
      · rename_i hrun
        rw [hrun, List.head?_nil]
  | cons c rest ih =>
      rw [search?, Outcome.leftmost?, ← head?_run]
      split
      · rename_i hrun
        rw [hrun, List.head?_cons, Option.some_or]
      · rename_i hrun
        rw [hrun, List.head?_nil, Option.none_or, ih]

theorem search?_congr (h : first.ways = other.ways) {offset : Nat} {text : List Char} :
    first.search? offset text = other.search? offset text := by
  rw [search?_eq_leftmost?, search?_eq_leftmost?, h]

theorem search?_eq_head? {offset : Nat} {text : List Char} (h : first.run ⟨offset, text⟩ ≠ []) :
    first.search? offset text = (first.ways ⟨offset, text⟩).head? := by
  obtain ⟨o, os, hrun⟩ := List.exists_cons_of_ne_nil h
  rw [search?.eq_def, ← head?_run, hrun, List.head?_cons]

/-- The shape can only be read from the start of a text. -/
def Tied (shape : Shape) : Prop :=
  ∀ cursor : Cursor, cursor.offset ≠ 0 → shape.ways cursor = []

theorem search?_of_tied (h : first.Tied) {text : List Char} :
    first.search? 0 text = (first.ways ⟨0, text⟩).head? := by
  have hnone : ∀ (text : List Char) (offset : Nat), offset ≠ 0 →
      Outcome.leftmost? first.ways offset text = none := by
    intro text
    induction text with
    | nil =>
        intro offset hoffset
        rw [Outcome.leftmost?, h ⟨offset, []⟩ hoffset, List.head?_nil]
    | cons c rest ih =>
        intro offset hoffset
        rw [Outcome.leftmost?, h ⟨offset, c :: rest⟩ hoffset, List.head?_nil, Option.none_or]
        exact ih (offset + 1) (Nat.succ_ne_zero offset)
  rw [search?_eq_leftmost?]
  cases text with
  | nil => rw [Outcome.leftmost?]
  | cons c rest => rw [Outcome.leftmost?, hnone rest (0 + 1) Nat.one_ne_zero, Option.or_none]

theorem tied_sequence : (sequence (start :: shapes)).Tied := by
  intro cursor hoffset
  have hstart : start.ways cursor = [] := if_neg hoffset
  rw [ways_sequence_cons, ways, Outcome.chain, hstart, List.flatMap_nil]

end Shape

end Archmap
