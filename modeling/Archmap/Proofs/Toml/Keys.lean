import Archmap.Proofs.Ascending
import Archmap.Toml.Document

/-!
# Keys of a TOML document

Nothing is defined twice by a document that can be read. What is read from it is a map, and in this
map and in all maps inside, those of inline tables included, the keys ascend, so that no key is there
twice (`ordered_of_read?`).

The tables of a document have this property at any time while it is read. A line changes one table by
putting an entry into it (`Node.Ordered.change`), and the values that it puts there have been read the
same way.
-/

namespace Archmap

/-- The value is neither a list nor a map. -/
def Value.isScalar : Value → Bool
  | .list _ | .map _ => false
  | _ => true

/-- In all maps inside the value the keys ascend. -/
inductive Value.Ordered : Value → Prop
  | scalar {v : Value} (h : v.isScalar = true) : Ordered v
  | list {values : List Value} (h : ∀ v ∈ values, Ordered v) : Ordered (.list values)
  | map {entries : List (String × Value)} (hascending : Ascending Prod.fst entries)
      (h : ∀ entry ∈ entries, Ordered entry.2) : Ordered (.map entries)

theorem Value.Ordered.ascending {entries : List (String × Value)} (h : (Value.map entries).Ordered) :
    Ascending Prod.fst entries := by
  cases h with
  | scalar h => cases h
  | map hascending _ => exact hascending

/-- What is found under a key is among the entries. -/
theorem mem_of_lookup {α : Type} {entries : List (String × α)} {key : String} {a : α}
    (h : entries.lookup key = some a) : (key, a) ∈ entries := by
  obtain ⟨front, back, rfl, -⟩ := List.lookup_eq_some_iff.mp h
  exact List.mem_append_cons_self

theorem Value.Ordered.of_lookup {entries : List (String × Value)} {key : String} {v : Value}
    (h : (Value.map entries).Ordered) (hlookup : entries.lookup key = some v) : v.Ordered := by
  cases h with
  | scalar h => cases h
  | map _ h => exact h (key, v) (mem_of_lookup hlookup)

theorem Value.Ordered.list_cons {values : List Value} {v : Value} (h : (Value.list values).Ordered)
    (hv : v.Ordered) : (Value.list (v :: values)).Ordered := by
  cases h with
  | scalar h => cases h
  | list h => exact .list (List.forall_mem_cons.mpr ⟨hv, h⟩)

theorem Value.Ordered.list_reverse {values : List Value} (h : (Value.list values).Ordered) :
    (Value.list values.reverse).Ordered := by
  cases h with
  | scalar h => cases h
  | list h => exact .list fun v hv => h v (List.mem_reverse.mp hv)

namespace Toml

/-! ## Tables -/

namespace Node

/-- In all tables and maps inside the node the keys ascend. -/
inductive Ordered : Node → Prop
  | value {v : Value} (h : v.Ordered) : Ordered (.value v)
  | table {i d : Bool} {entries : List (String × Node)} (hascending : Ascending Prod.fst entries)
      (h : ∀ entry ∈ entries, Ordered entry.2) : Ordered (.table i d entries)
  | tables {latestFirst : List Node} (h : ∀ node ∈ latestFirst, Ordered node) :
      Ordered (.tables latestFirst)

/-- The node is a table and not an array or a value, and all keys in it ascend. -/
def OrderedTable : Node → Prop
  | node@(.table _ _ _) => node.Ordered
  | _ => False

variable {node node' value : Node} {entries : List (String × Node)} {nodes : List Node}
  {key : String} {path : List String} {i d dotted : Bool} {update : Node → Option Node}

theorem OrderedTable.ordered (h : node.OrderedTable) : node.Ordered := by
  cases node with
  | table => exact h
  | _ => cases h

theorem OrderedTable.empty : (Node.table i d []).OrderedTable :=
  .table .nil fun _ h => by cases h

theorem Ordered.of_lookup (h : (Node.table i d entries).Ordered)
    (hlookup : entries.lookup key = some node) : node.Ordered := by
  cases h with
  | table _ h => exact h (key, node) (mem_of_lookup hlookup)

theorem Ordered.put (h : (Node.table i d entries).Ordered) (hnode : node.Ordered) :
    (Node.table i d (Node.put entries key node)).OrderedTable := by
  cases h with
  | table hascending h =>
      refine .table (ascending_insertBy (by intros; rfl) hascending) fun entry hentry => ?_
      rcases mem_insertBy_replaceValue hentry with heq | hentry
      · exact heq ▸ hnode
      · exact h entry hentry

theorem Ordered.tables_cons (hnode : node.Ordered) (hnodes : (Node.tables nodes).Ordered) :
    (Node.tables (node :: nodes)).Ordered := by
  cases hnodes with
  | tables hnodes => exact .tables (List.forall_mem_cons.mpr ⟨hnode, hnodes⟩)

/-- If the table at the end of a path stays ordered, so does the one that the path starts from. -/
theorem Ordered.change (hupdate : ∀ {n n'}, n.Ordered → update n = some n' → n'.OrderedTable)
    (h : node.Ordered) (hchange : Node.change dotted update path node = some node') :
    node'.OrderedTable := by
  induction path generalizing node node' with
  | nil =>
      rw [Node.change] at hchange
      exact hupdate h hchange
  | cons key path ih =>
      cases node with
      | value v => cases hchange
      | tables nodes => cases hchange
      | table i d entries =>
          rw [Node.change] at hchange
          split at hchange
          · -- the key is new, so a table is made for it
            obtain ⟨child, hchild, hnode⟩ := Option.bind_eq_some_iff.mp hchange
            cases hnode
            exact h.put (ih OrderedTable.empty.ordered hchild).ordered
          · -- the path goes on in a table
            rename_i hlookup
            split at hchange
            · cases hchange
            · obtain ⟨child, hchild, hnode⟩ := Option.bind_eq_some_iff.mp hchange
              cases hnode
              exact h.put (ih (h.of_lookup hlookup) hchild).ordered
          · -- the path goes on in the latest table of an array
            rename_i last others hlookup
            obtain ⟨child, hchild, hnode⟩ := Option.bind_eq_some_iff.mp hchange
            cases hnode
            cases h.of_lookup hlookup with
            | tables hall =>
                obtain ⟨hlast, hothers⟩ := List.forall_mem_cons.mp hall
                exact h.put (.tables_cons (ih hlast hchild).ordered (.tables hothers))
          · cases hchange
          · cases hchange

theorem Ordered.assign (h : node.Ordered) (hvalue : value.Ordered)
    (hassign : Node.assign path key value node = some node') : node'.OrderedTable := by
  refine h.change (fun {n n'} hn hupdate => ?_) hassign
  split at hupdate
  · split at hupdate
    · cases hupdate
    · cases hupdate
      exact hn.put hvalue
  · cases hupdate

theorem Ordered.define (h : node.Ordered) (hdefine : Node.define path key node = some node') :
    node'.OrderedTable := by
  refine h.change (fun {n n'} hn hupdate => ?_) hdefine
  split at hupdate
  · split at hupdate
    · cases hupdate
      exact hn.put OrderedTable.empty.ordered
    · rename_i hlookup
      cases hupdate
      cases hn.of_lookup hlookup with
      | table hascending hinner => exact hn.put (.table hascending hinner)
    · cases hupdate
  · cases hupdate

theorem Ordered.extend (h : node.Ordered) (hextend : Node.extend path key node = some node') :
    node'.OrderedTable := by
  refine h.change (fun {n n'} hn hupdate => ?_) hextend
  split at hupdate
  · split at hupdate
    · cases hupdate
      exact hn.put (.tables_cons OrderedTable.empty.ordered (.tables fun _ h => by cases h))
    · rename_i hlookup
      cases hupdate
      exact hn.put (.tables_cons OrderedTable.empty.ordered (hn.of_lookup hlookup))
    · cases hupdate
  · cases hupdate

/-! ## The value of a table -/

theorem toEntries_eq_map :
    toEntries entries = entries.map fun entry => (entry.1, entry.2.toValue) := by
  induction entries with
  | nil => rw [toEntries, List.map_nil]
  | cons entry rest ih => rw [toEntries, toEntry, ih, List.map_cons]

theorem mem_toElements {v : Value} {done : List Value} :
    v ∈ toElements nodes done ↔ (∃ node ∈ nodes, node.toValue = v) ∨ v ∈ done := by
  induction nodes generalizing done with
  | nil => simp [toElements]
  | cons node nodes ih =>
      rw [toElements, ih, List.mem_cons, List.exists_mem_cons_iff, or_left_comm, or_assoc,
        eq_comm (a := v)]

theorem Ordered.toValue (h : node.Ordered) : node.toValue.Ordered := by
  induction h with
  | value h =>
      rw [Node.toValue]
      exact h
  | table hascending _ ih =>
      rw [Node.toValue, toEntries_eq_map]
      refine .map (List.pairwise_map.mpr hascending) fun entry hentry => ?_
      obtain ⟨source, hsource, rfl⟩ := List.mem_map.mp hentry
      exact ih source hsource
  | tables _ ih =>
      rw [Node.toValue]
      refine .list fun v hv => ?_
      rcases mem_toElements.mp hv with ⟨node, hnode, rfl⟩ | hv
      · exact ih node hnode
      · cases hv

theorem OrderedTable.toValue (h : node.OrderedTable) :
    ∃ entries, node.toValue = .map entries ∧ (Value.map entries).Ordered := by
  cases node with
  | table i d entries =>
      have hvalue := h.ordered.toValue
      rw [Node.toValue] at hvalue ⊢
      exact ⟨_, rfl, hvalue⟩
  | _ => cases h

end Node

variable {v : Value} {row rest text : List Char} {steps room : Nat}

/-! ## Numbers and truth values -/

theorem isScalar_of_signed? {i : Int} (h : signed? i = some v) : v.isScalar = true := by
  rw [signed?] at h
  split at h
  · cases h
    rfl
  · cases h

theorem isScalar_of_bounded? {x : Float} (h : bounded? x = some v) : v.isScalar = true := by
  rw [bounded?] at h
  split at h
  · cases h
  · cases h
    rfl

theorem isScalar_of_based? {base : Nat} (h : based? base row = some v) : v.isScalar = true := by
  obtain ⟨digits, -, h⟩ := Option.bind_eq_some_iff.mp h
  exact isScalar_of_signed? h

theorem isScalar_of_decimal? {negative : Bool} (h : decimal? negative row = some v) :
    v.isScalar = true := by
  obtain ⟨whole, -, h⟩ := Option.bind_eq_some_iff.mp h
  split at h
  · exact isScalar_of_signed? h
  · obtain ⟨fraction, -, h⟩ := Option.bind_eq_some_iff.mp h
    dsimp only at h
    split at h
    · exact isScalar_of_bounded? h
    · obtain ⟨exponent, -, h⟩ := Option.bind_eq_some_iff.mp h
      exact isScalar_of_bounded? h
  · obtain ⟨exponent, -, h⟩ := Option.bind_eq_some_iff.mp h
    exact isScalar_of_bounded? h

theorem isScalar_of_word? (h : word? row = some v) : v.isScalar = true := by
  rw [word?.eq_def] at h
  split at h
  · exact isScalar_of_based? h
  · exact isScalar_of_based? h
  · exact isScalar_of_based? h
  · split at h
    · cases h
      rfl
    · split at h
      · cases h
        rfl
      · split at h
        all_goals
          split at h
          · cases h
            rfl
          · split at h
            · cases h
              rfl
            · exact isScalar_of_decimal? h

/-! ## Values of all forms -/

theorem ordered_dateTimeValue : dateTimeValue.Ordered := by
  refine .map (List.pairwise_singleton _ _) fun entry hentry => ?_
  cases List.mem_singleton.mp hentry
  exact .scalar rfl

/-- What the readers return after so many steps is ordered. -/
structure OrderedReaders (steps : Nat) : Prop where
  value : ∀ {room text v rest}, value? steps room text = some (v, rest) → v.Ordered
  elements : ∀ {room done text v rest}, (Value.list done).Ordered →
    elements? steps room done text = some (v, rest) → v.Ordered
  inline : ∀ {room table text v rest}, table.Ordered →
    inline? steps room table text = some (v, rest) → v.Ordered

namespace OrderedReaders

theorem value_succ (ih : OrderedReaders steps) (h : value? (steps + 1) room text = some (v, rest)) :
    v.Ordered := by
  rw [value?.eq_def] at h
  dsimp only at h
  split at h
  · obtain ⟨⟨s, rest⟩, -, h⟩ := Option.map_eq_some_iff.mp h
    cases h
    exact .scalar rfl
  · obtain ⟨⟨s, rest⟩, -, h⟩ := Option.map_eq_some_iff.mp h
    cases h
    exact .scalar rfl
  · exact ih.elements (.list fun _ h => by cases h) h
  · split at h
    · cases h
      exact .map .nil fun _ h => by cases h
    · exact ih.inline Node.OrderedTable.empty.ordered h
  · split at h
    · cases h
      exact ordered_dateTimeValue
    · obtain ⟨w, hword, h⟩ := Option.map_eq_some_iff.mp h
      cases h
      exact .scalar (isScalar_of_word? hword)

theorem elements_succ (ih : OrderedReaders steps) {done : List Value}
    (hdone : (Value.list done).Ordered)
    (h : elements? (steps + 1) room done text = some (v, rest)) : v.Ordered := by
  rw [elements?] at h
  split at h
  · cases h
    exact hdone.list_reverse
  · obtain ⟨⟨w, behind⟩, hw, h⟩ := Option.bind_eq_some_iff.mp h
    have hmore := hdone.list_cons (ih.value hw)
    dsimp only at h
    split at h
    · exact ih.elements hmore h
    · cases h
      exact hmore.list_reverse
    · cases h

theorem inline_succ (ih : OrderedReaders steps) {table : Node} (htable : table.Ordered)
    (h : inline? (steps + 1) room table text = some (v, rest)) : v.Ordered := by
  rw [inline?] at h
  obtain ⟨⟨⟨path, key⟩, behind⟩, -, h⟩ := Option.bind_eq_some_iff.mp h
  dsimp only at h
  split at h
  · obtain ⟨⟨w, behind⟩, hw, h⟩ := Option.bind_eq_some_iff.mp h
    obtain ⟨table', hassign, h⟩ := Option.bind_eq_some_iff.mp h
    have htable' := (htable.assign (.value (ih.value hw)) hassign).ordered
    split at h
    · exact ih.inline htable' h
    · cases h
      exact htable'.toValue
    · cases h
  · cases h

theorem all (steps : Nat) : OrderedReaders steps := by
  induction steps with
  | zero =>
      refine ⟨fun h => ?_, fun _ h => ?_, fun _ h => ?_⟩
      · rw [value?] at h
        cases h
      · rw [elements?] at h
        cases h
      · rw [inline?] at h
        cases h
  | succ steps ih => exact ⟨ih.value_succ, ih.elements_succ, ih.inline_succ⟩

end OrderedReaders

/-! ## Lines -/

theorem orderedTable_of_line {state state' : State} (hstate : state.root.OrderedTable)
    (h : line state text = some (state', rest)) : state'.root.OrderedTable := by
  rw [line.eq_def] at h
  split at h
  · obtain ⟨⟨⟨path, key⟩, behind⟩, -, h⟩ := Option.bind_eq_some_iff.mp h
    obtain ⟨root, hroot, h⟩ := Option.bind_eq_some_iff.mp h
    cases h
    exact hstate.ordered.extend hroot
  · obtain ⟨⟨⟨path, key⟩, behind⟩, -, h⟩ := Option.bind_eq_some_iff.mp h
    obtain ⟨root, hroot, h⟩ := Option.bind_eq_some_iff.mp h
    cases h
    exact hstate.ordered.define hroot
  · obtain ⟨⟨⟨path, key⟩, behind⟩, -, h⟩ := Option.bind_eq_some_iff.mp h
    dsimp only at h
    split at h
    · obtain ⟨⟨w, behind⟩, hw, h⟩ := Option.bind_eq_some_iff.mp h
      obtain ⟨root, hroot, h⟩ := Option.bind_eq_some_iff.mp h
      cases h
      have hvalue : (Node.value w).Ordered := .value ((OrderedReaders.all _).value hw)
      exact hstate.ordered.change (fun hn hassign => hn.assign hvalue hassign) hroot
    · cases h

theorem orderedTable_of_lines {state state' : State} (hstate : state.root.OrderedTable)
    (h : lines state steps text = some state') : state'.root.OrderedTable := by
  induction steps generalizing state text with
  | zero => cases h
  | succ steps ih =>
      rw [lines] at h
      split at h
      · cases h
        exact hstate
      · obtain ⟨⟨after, behind⟩, hline, h⟩ := Option.bind_eq_some_iff.mp h
        obtain ⟨next, -, h⟩ := Option.bind_eq_some_iff.mp h
        exact ih (orderedTable_of_line hstate hline) h

/-- What is read from a document is a map. In it and in all maps inside the keys ascend. -/
theorem ordered_of_read? {text : String} (h : read? text = some v) :
    ∃ entries, v = .map entries ∧ (Value.map entries).Ordered := by
  obtain ⟨state, hlines, rfl⟩ := Option.map_eq_some_iff.mp h
  exact (orderedTable_of_lines Node.OrderedTable.empty hlines).toValue

end Toml

end Archmap
