import Mathlib.Data.List.Chain
import Archmap.Proofs.Naming.Placeholders

/-!
# What the scan of a naming pattern finds

The scan goes through a pattern once and collects characters that stand for themselves until it
meets a placeholder. What one step can do is said by `Scanned`; all else follows by induction over
the steps. Put together as they are written, the pieces are the pattern again (`Scanned.written`),
and they are in normal form: no literal text is empty, and no two stand side by side. A piece is a
placeholder where the pattern has a dollar sign that begins one, and nowhere else
(`Scanned.placed_iff`).

So a name can be read off the pattern itself, without its pieces (`Rendered`): from the front on,
each placeholder is replaced by what it stands for and every other character kept. What is inserted
goes into the name and not back into the text that is still to be read, so it makes no difference
whether it has dollar signs.
-/

namespace Archmap

/-- The piece is no literal text. -/
def NamingSegment.isPlaceholder : NamingSegment → Bool
  | .literal _ => false
  | .part _ _ => true
  | .joined => true

namespace NamingPattern

variable {literal text front behind back : List Char} {segment first : NamingSegment}
  {segments : List NamingSegment} {identifier : Identifier} {out out' : List Char} {value : String}

/-! ## Steps of the scan -/

/-- The scan of `text`, with `literal` collected before, gives these pieces. -/
inductive Scanned : (literal text : List Char) → List NamingSegment → Prop
  | done {literal : List Char} : Scanned literal [] (flush literal)
  | plain {literal rest : List Char} {c : Char} {segments : List NamingSegment}
      (hplain : Plain c rest) (h : Scanned (c :: literal) rest segments) :
      Scanned literal (c :: rest) segments
  | placeholder {literal behind back : List Char} {segment : NamingSegment}
      {segments : List NamingSegment} (hbegins : Begins behind segment back)
      (h : Scanned [] back segments) :
      Scanned literal ('$' :: behind) (flush literal ++ segment :: segments)

theorem scanned_scan (literal : List Char) (skip : Nat) (text : List Char) :
    Scanned literal (text.drop skip) (scan literal skip text) := by
  induction text generalizing literal skip with
  | nil =>
      rw [List.drop_nil]
      exact .done
  | cons c rest ih =>
      cases skip with
      | succ skip => exact ih literal skip
      | zero =>
          rw [List.drop_zero, scan]
          split
          · rename_i hdollar
            subst hdollar
            split
            · rename_i segment width hfound
              exact .placeholder (begins_iff.mpr ⟨width, hfound, rfl⟩) (ih [] width)
            · rename_i hnone
              refine .plain (fun _ segment back hbegins => ?_) (ih _ 0)
              obtain ⟨width, hfound, -⟩ := begins_iff.mp hbegins
              rw [hnone] at hfound
              cases hfound
          · rename_i hother
            exact .plain (fun hdollar => absurd hdollar hother) (ih _ 0)

theorem scanned_ofText (text : String) :
    Scanned [] text.toList (ofText text).segments :=
  scanned_scan [] 0 text.toList

/-! ## The pieces as they are written -/

/-- The text of some pieces. -/
def written (segments : List NamingSegment) : List Char :=
  segments.flatMap fun segment => segment.source.toList

theorem written_flush (literal : List Char) : written (flush literal) = literal.reverse := by
  unfold flush
  cases literal with
  | nil => rfl
  | cons c literal => simp [written, NamingSegment.source]

theorem written_cons : written (first :: segments) = first.source.toList ++ written segments :=
  List.flatMap_cons

theorem written_append (segments segments' : List NamingSegment) :
    written (segments ++ segments') = written segments ++ written segments' :=
  List.flatMap_append

theorem Begins.written (h : Begins behind segment back) :
    segment.source.toList ++ back = '$' :: behind := by
  obtain ⟨taken, hsource, rfl, -⟩ := h.exists_taken
  rw [hsource, List.cons_append]

theorem Scanned.written (h : Scanned literal text segments) :
    written segments = literal.reverse ++ text := by
  induction h with
  | done => rw [written_flush, List.append_nil]
  | plain _ _ ih => rw [ih, List.reverse_cons, List.append_assoc, List.singleton_append]
  | placeholder hbegins _ ih =>
      rw [written_append, written_flush, written_cons, ih, List.reverse_nil, List.nil_append,
        hbegins.written]

/-! ## Normal form -/

theorem eq_of_mem_flush (h : segment ∈ flush literal) :
    literal ≠ [] ∧ segment = .literal (String.ofList literal.reverse) := by
  unfold flush at h
  split at h
  · cases h
  · rename_i hne
    exact ⟨by simpa using hne, List.mem_singleton.mp h⟩

theorem Begins.isPlaceholder (h : Begins behind segment back) : segment.isPlaceholder = true := by
  cases h <;> rfl

theorem Scanned.literal_empty_notMem (h : Scanned literal text segments) :
    .literal "" ∉ segments := by
  have hflush : ∀ literal, .literal "" ∉ flush literal := by
    intro literal hmem
    obtain ⟨hne, heq⟩ := eq_of_mem_flush hmem
    have hempty : literal.reverse = [] := by
      rw [← String.toList_ofList (l := literal.reverse), ← NamingSegment.literal.inj heq]
      rfl
    exact hne (List.reverse_eq_nil_iff.mp hempty)
  induction h with
  | @done literal => exact hflush literal
  | plain _ _ ih => exact ih
  | @placeholder literal _ _ segment _ hbegins _ ih =>
      have hsegment : .literal "" ≠ segment := by
        rintro rfl
        cases hbegins.isPlaceholder
      simp [hflush literal, hsegment, ih]

/-- Of two neighbours one is a placeholder. -/
theorem Scanned.isChain (h : Scanned literal text segments) :
    segments.IsChain fun s s' => s.isPlaceholder = true ∨ s'.isPlaceholder = true := by
  have hflush : ∀ literal, (flush literal).IsChain fun s s' =>
      s.isPlaceholder = true ∨ s'.isPlaceholder = true := by
    intro literal
    unfold flush
    split
    · exact .nil
    · exact .singleton _
  induction h with
  | @done literal => exact hflush literal
  | plain _ _ ih => exact ih
  | @placeholder literal _ _ segment segments hbegins _ ih =>
      have hsegment := hbegins.isPlaceholder
      refine List.isChain_append.mpr ⟨hflush literal, ?_, ?_⟩
      · cases segments with
        | nil => exact .singleton _
        | cons next segments => exact List.isChain_cons_cons.mpr ⟨Or.inl hsegment, ih⟩
      · intro s _ s' hs'
        obtain rfl : segment = s' := Option.some.inj hs'
        exact Or.inr hsegment

/-! ## Where placeholders stand -/

/-- The piece is a placeholder, and the text of the pieces in front of it is `front`. -/
def Placed (segments : List NamingSegment) (front : List Char) (segment : NamingSegment) : Prop :=
  segment.isPlaceholder = true
    ∧ ∃ before after, segments = before ++ segment :: after ∧ written before = front

theorem not_placed_nil : ¬Placed [] front segment := by
  rintro ⟨-, before, after, heq, -⟩
  simp at heq

theorem placed_cons : Placed (first :: segments) front segment ↔
    (segment.isPlaceholder = true ∧ first = segment ∧ front = [])
      ∨ ∃ front', front = first.source.toList ++ front' ∧ Placed segments front' segment := by
  constructor
  · rintro ⟨hsegment, before, after, heq, rfl⟩
    cases before with
    | nil => exact Or.inl ⟨hsegment, (List.cons.inj heq).1, rfl⟩
    | cons other before =>
        obtain ⟨rfl, rfl⟩ := List.cons.inj heq
        exact Or.inr ⟨written before, written_cons, hsegment, before, after, rfl, rfl⟩
  · rintro (⟨hsegment, rfl, rfl⟩ | ⟨front', rfl, hsegment, before, after, rfl, rfl⟩)
    · exact ⟨hsegment, [], segments, rfl, rfl⟩
    · exact ⟨hsegment, first :: before, after, rfl, written_cons⟩

theorem placed_flush_append : Placed (flush literal ++ segments) front segment ↔
    ∃ front', front = literal.reverse ++ front' ∧ Placed segments front' segment := by
  unfold flush
  split
  · rename_i hempty
    simp [List.isEmpty_iff.mp hempty]
  · have hliteral : ∀ s : String, ¬(segment.isPlaceholder = true ∧ .literal s = segment ∧ front = []) := by
      rintro s ⟨hsegment, rfl, -⟩
      cases hsegment
    rw [List.singleton_append, placed_cons, or_iff_right (hliteral _), NamingSegment.source,
      String.toList_ofList]

/-- A character that a text does not have is found behind it. -/
theorem exists_behind {taken : List Char} {c : Char} (hc : c ∉ taken)
    (h : taken ++ back = front ++ c :: behind) :
    ∃ middle, front = taken ++ middle ∧ back = middle ++ c :: behind := by
  rcases List.append_eq_append_iff.mp h with ⟨middle, rfl, hback⟩ | ⟨middle, rfl, hmiddle⟩
  · exact ⟨middle, rfl, hback⟩
  · cases middle with
    | nil => exact ⟨[], by simp, hmiddle.symm⟩
    | cons d middle =>
        obtain ⟨rfl, -⟩ := List.cons.inj hmiddle
        exact absurd (by simp) hc

/-- A placeholder stands where a dollar sign begins it, and nowhere else. -/
theorem Scanned.placed_iff (h : Scanned literal text segments) :
    Placed segments front segment ↔ ∃ front' behind back, front = literal.reverse ++ front'
      ∧ text = front' ++ '$' :: behind ∧ Begins behind segment back := by
  induction h generalizing front with
  | @done literal =>
      constructor
      · intro hplaced
        rw [← List.append_nil (flush literal), placed_flush_append] at hplaced
        obtain ⟨front', -, hplaced⟩ := hplaced
        exact absurd hplaced not_placed_nil
      · rintro ⟨front', behind, back, -, heq, -⟩
        simp at heq
  | @plain literal rest c _ hplain _ ih =>
      rw [ih]
      constructor
      · rintro ⟨front', behind, back, rfl, rfl, hbegins⟩
        exact ⟨c :: front', behind, back, by simp, rfl, hbegins⟩
      · rintro ⟨front', behind, back, rfl, heq, hbegins⟩
        cases front' with
        | nil =>
            obtain ⟨rfl, rfl⟩ := List.cons.inj heq
            exact absurd hbegins (hplain rfl segment back)
        | cons d front' =>
            obtain ⟨rfl, rfl⟩ := List.cons.inj heq
            exact ⟨front', behind, back, by simp, rfl, hbegins⟩
  | @placeholder literal behind back first _ hbegins _ ih =>
      simp only [placed_flush_append, placed_cons, ih, List.reverse_nil, List.nil_append]
      obtain ⟨taken, hsource, rfl, htaken⟩ := hbegins.exists_taken
      constructor
      · rintro ⟨-, rfl, ⟨-, rfl, rfl⟩ | ⟨front', rfl, -, behind, back, rfl, rfl, hother⟩⟩
        · exact ⟨[], _, _, rfl, rfl, hbegins⟩
        · exact ⟨first.source.toList ++ front', behind, back, rfl, by simp [hsource], hother⟩
      · rintro ⟨front', behind, back', rfl, heq, hother⟩
        refine ⟨front', rfl, ?_⟩
        cases front' with
        | nil =>
            obtain ⟨-, rfl⟩ := List.cons.inj heq
            obtain ⟨rfl, -⟩ := hbegins.unique hother
            exact Or.inl ⟨hbegins.isPlaceholder, rfl, rfl⟩
        | cons d front' =>
            obtain ⟨rfl, hrest⟩ := List.cons.inj heq
            -- the placeholder has no other dollar sign, so the one found lies behind it
            obtain ⟨middle, rfl, rfl⟩ := exists_behind htaken hrest
            exact Or.inr ⟨middle, by simp [hsource], middle, behind, back', rfl, rfl, hother⟩

/-! ## The name, read off the pattern -/

/-- The text that is put in the place of a placeholder: all parts with colons between them, the part
with the number, or the placeholder itself if the identifier has no such part. -/
inductive StandsFor (identifier : Identifier) : NamingSegment → String → Prop
  | joined : StandsFor identifier .joined (":".intercalate identifier.parts)
  | part {n : Nat} {source part : String} (hpos : 1 ≤ n)
      (hpart : identifier.parts[n - 1]? = some part) : StandsFor identifier (.part n source) part
  | outOfRange {n : Nat} {source : String} (hout : n = 0 ∨ identifier.parts.length < n) :
      StandsFor identifier (.part n source) source

theorem apply_part_of_some {i : Nat} {source part : String}
    (hpart : identifier.parts[i]? = some part) :
    (NamingSegment.part (i + 1) source).apply identifier = part := by
  simp [NamingSegment.apply, Identifier.part, hpart]

theorem apply_part_of_none {i : Nat} {source : String} (hpart : identifier.parts[i]? = none) :
    (NamingSegment.part (i + 1) source).apply identifier = source := by
  simp [NamingSegment.apply, Identifier.part, hpart]

theorem StandsFor.eq_apply (h : StandsFor identifier segment value) :
    value = segment.apply identifier := by
  cases h with
  | joined => rfl
  | @part n source part hpos hpart =>
      obtain ⟨i, rfl⟩ := Nat.exists_eq_succ_of_ne_zero (Nat.one_le_iff_ne_zero.mp hpos)
      exact (apply_part_of_some hpart).symm
  | @outOfRange n source hout =>
      cases n with
      | zero => rfl
      | succ i =>
          have hpart : identifier.parts[i]? = none := by
            rw [List.getElem?_eq_none_iff]
            omega
          exact (apply_part_of_none hpart).symm

theorem standsFor_apply (identifier : Identifier) (hsegment : segment.isPlaceholder = true) :
    StandsFor identifier segment (segment.apply identifier) := by
  cases segment with
  | literal _ => cases hsegment
  | joined => exact .joined
  | part n source =>
      cases n with
      | zero => exact .outOfRange (Or.inl rfl)
      | succ i =>
          cases hpart : identifier.parts[i]? with
          | none =>
              rw [apply_part_of_none hpart]
              exact .outOfRange (Or.inr (Nat.lt_succ_of_le (List.getElem?_eq_none_iff.mp hpart)))
          | some part =>
              rw [apply_part_of_some hpart]
              exact .part (Nat.le_add_left 1 i) hpart

/-- The name `out` is made from the text by replacing placeholders and keeping all else. -/
inductive Rendered (identifier : Identifier) : (text out : List Char) → Prop
  | done : Rendered identifier [] []
  | plain {c : Char} {rest out : List Char} (hplain : Plain c rest)
      (h : Rendered identifier rest out) : Rendered identifier (c :: rest) (c :: out)
  | placeholder {behind back out : List Char} {segment : NamingSegment} {value : String}
      (hbegins : Begins behind segment back) (hvalue : StandsFor identifier segment value)
      (h : Rendered identifier back out) : Rendered identifier ('$' :: behind) (value.toList ++ out)

theorem Rendered.unique (h : Rendered identifier text out) (h' : Rendered identifier text out') :
    out = out' := by
  induction h generalizing out' with
  | done =>
      cases h'
      rfl
  | plain hplain _ ih =>
      cases h' with
      | plain _ h' => rw [ih h']
      | placeholder hbegins _ _ => exact absurd hbegins (hplain rfl _ _)
  | placeholder hbegins hvalue _ ih =>
      cases h' with
      | plain hplain _ => exact absurd hbegins (hplain rfl _ _)
      | placeholder hbegins' hvalue' h' =>
          obtain ⟨rfl, rfl⟩ := hbegins.unique hbegins'
          rw [hvalue.eq_apply, hvalue'.eq_apply, ih h']

/-- What some pieces contribute to the name of a module. -/
def applied (identifier : Identifier) (segments : List NamingSegment) : List Char :=
  segments.flatMap fun segment => (segment.apply identifier).toList

theorem toList_apply (pattern : NamingPattern) (identifier : Identifier) :
    (pattern.apply identifier).toList = applied identifier pattern.segments := by
  rw [apply, String.toList_join, List.flatMap_map, applied]

theorem applied_flush (identifier : Identifier) (literal : List Char) :
    applied identifier (flush literal) = literal.reverse := by
  unfold flush
  cases literal with
  | nil => rfl
  | cons c literal => simp [applied, NamingSegment.apply]

theorem Scanned.exists_rendered (h : Scanned literal text segments) (identifier : Identifier) :
    ∃ out, applied identifier segments = literal.reverse ++ out
      ∧ Rendered identifier text out := by
  induction h with
  | done => exact ⟨[], by rw [applied_flush, List.append_nil], .done⟩
  | plain hplain _ ih =>
      obtain ⟨out, happlied, hout⟩ := ih
      exact ⟨_ :: out, by simp [happlied], .plain hplain hout⟩
  | placeholder hbegins _ ih =>
      obtain ⟨out, happlied, hout⟩ := ih
      have hvalue := standsFor_apply identifier hbegins.isPlaceholder
      refine ⟨_, ?_, .placeholder hbegins hvalue hout⟩
      rw [List.reverse_nil, List.nil_append] at happlied
      rw [applied, List.flatMap_append, List.flatMap_cons, ← applied, ← applied, applied_flush,
        happlied]

theorem eq_apply_iff {text name : String} :
    name = (ofText text).apply identifier ↔ Rendered identifier text.toList name.toList := by
  obtain ⟨out, happlied, hout⟩ := (scanned_ofText text).exists_rendered identifier
  rw [List.reverse_nil, List.nil_append, ← toList_apply] at happlied
  rw [← happlied] at hout
  constructor
  · rintro rfl
    exact hout
  · intro hname
    exact String.toList_injective (hname.unique hout)

/-- Of an identifier without parts nothing is inserted. -/
theorem apply_ignore (pattern : NamingPattern) :
    pattern.apply .ignore
      = String.join ((pattern.segments.filter (· ≠ .joined)).map NamingSegment.source) := by
  rw [apply]
  induction pattern.segments with
  | nil => rfl
  | cons segment segments ih =>
      rw [List.map_cons, String.join_cons, ih]
      cases segment with
      | literal s => simp [NamingSegment.apply, NamingSegment.source]
      | joined => simp [NamingSegment.apply, Identifier.joined, Identifier.ignore]
      | part n source =>
          have hout : NamingSegment.apply .ignore (.part n source) = source :=
            (StandsFor.outOfRange (Nat.eq_zero_or_pos n)).eq_apply.symm
          simp [hout, NamingSegment.source]

/-! ## Empty names -/

theorem joined_ne_empty (hkept : identifier ≠ .ignore) : identifier.joined ≠ "" := by
  obtain ⟨parts, hproper⟩ := identifier
  cases parts with
  | nil => exact absurd rfl hkept
  | cons part parts =>
      have hpart : part ≠ "" := hproper part List.mem_cons_self
      cases parts with
      | nil => simpa [Identifier.joined] using hpart
      | cons next parts => simp [Identifier.joined, hpart]

/-- Nothing that is put in the place of a placeholder is empty, unless the class is ignored. -/
theorem StandsFor.ne_empty (h : StandsFor identifier segment value)
    (hbegins : Begins behind segment back) (hkept : identifier ≠ .ignore) : value ≠ "" := by
  cases h with
  | joined => exact joined_ne_empty hkept
  | part _ hpart => exact identifier.proper _ (List.mem_of_getElem? hpart)
  | outOfRange _ =>
      obtain ⟨taken, hsource, -⟩ := hbegins.exists_taken
      rintro rfl
      cases hsource

/-- Only the empty pattern makes empty names of identifiers with parts. -/
theorem apply_eq_empty_iff {text : String} (hkept : identifier ≠ .ignore) :
    (ofText text).apply identifier = "" ↔ text = "" := by
  rw [eq_comm, eq_apply_iff, String.toList_empty]
  constructor
  · intro h
    generalize htext : text.toList = chars at h
    generalize hname : ([] : List Char) = name at h
    cases h with
    | done => exact String.toList_eq_nil_iff.mp htext
    | plain _ _ => cases hname
    | placeholder hbegins hvalue _ =>
        have hempty := (List.append_eq_nil_iff.mp hname.symm).1
        exact absurd (String.toList_eq_nil_iff.mp hempty) (hvalue.ne_empty hbegins hkept)
  · rintro rfl
    exact .done

/-- A pattern is scanned once and without loss. Its pieces, as they are written, are the pattern; no
literal text is empty, and no two are neighbours. A placeholder stands just where a dollar sign is
followed by an at sign, by a number in braces or by a number that ends there. The name for an
identifier is the pattern with its placeholders replaced, from the front on, and everything else
kept; ignored classes have no parts to insert, and all that goes is the placeholder for all parts. -/
theorem ofText_lossless (text : String) :
    String.join ((ofText text).segments.map NamingSegment.source) = text
      ∧ .literal "" ∉ (ofText text).segments
      ∧ (ofText text).segments.IsChain
          (fun s s' => s.isPlaceholder = true ∨ s'.isPlaceholder = true)
      ∧ (∀ front segment, Placed (ofText text).segments front segment ↔
          ∃ behind back, text.toList = front ++ '$' :: behind ∧ Begins behind segment back)
      ∧ (∀ identifier name, name = (ofText text).apply identifier ↔
          Rendered identifier text.toList name.toList)
      ∧ (ofText text).apply .ignore
          = String.join (((ofText text).segments.filter (· ≠ .joined)).map NamingSegment.source) := by
  have hscanned := scanned_ofText text
  refine ⟨?_, hscanned.literal_empty_notMem, hscanned.isChain, fun front segment => ?_,
    fun identifier name => eq_apply_iff, apply_ignore _⟩
  · refine String.toList_injective ?_
    rw [String.toList_join, List.flatMap_map]
    exact hscanned.written
  · rw [hscanned.placed_iff]
    simp

/-- The brace is closed behind no number, and two dollar signs in a row are two. -/
example : (ofText "$\x7b1$2\x7d $$@ $01").apply ⟨["$2", "b"], by decide⟩
    = "$\x7b1b\x7d $$2:b $2" := by
  decide +kernel

end NamingPattern

end Archmap
