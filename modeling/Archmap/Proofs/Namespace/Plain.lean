import Archmap.Proofs.Namespace.Anchoring
import Archmap.Proofs.Namespace.Segments

/-!
# Plain patterns

A plain pattern is written as a namespace is, segment by segment: literal ones, `*`, `(*)` and
`(**)`, with one dot or two between them and perhaps two dots at either end. It has no bars and no
groups but its captures, so it is accepted whatever its segments are, and it is looked for as the
sequence of their shapes between anchors (`ofText_text`).
-/

namespace Archmap

open GroupSign (ofChar depth?)

/-! ## Plain patterns and their texts -/

/-- A character that stands for itself in a pattern. -/
def isPlainChar (c : Char) : Bool :=
  isAlphanumeric c || c = '_' || c = '$'

/-- The text of a segment that stands for itself. -/
structure LiteralText where
  text : String
  ne_empty : text ≠ ""
  plain : ∀ c ∈ text.toList, isPlainChar c = true

inductive PlainSegment where
  | literal (name : LiteralText)
  /-- A star. -/
  | any
  /-- A star in round brackets. -/
  | capture
  /-- Two stars in round brackets. -/
  | captureMany

/-- What stands between two segments of a plain pattern: one dot, or two. -/
inductive Joint where
  | dot
  | dots
  deriving DecidableEq

structure PlainPattern where
  /-- Two dots stand in front. -/
  leading : Bool
  first : PlainSegment
  others : List (Joint × PlainSegment)
  /-- Two dots stand at the end. -/
  trailing : Bool

namespace PlainSegment

def text : PlainSegment → String
  | literal name => name.text
  | any => "*"
  | capture => "(*)"
  | captureMany => "(**)"

def captures : PlainSegment → Nat
  | literal _ | any => 0
  | capture | captureMany => 1

/-- The shapes that the segment is read as behind `opened` captures. -/
def shapes (opened : Nat) : PlainSegment → List Shape
  | literal name => name.text.toList.map .literal
  | any => [.segment]
  | capture => [.capture (opened + 1) (.followed .nothing .segment)]
  | captureMany => [.capture (opened + 1) .segments]

end PlainSegment

namespace Joint

def text : Joint → String
  | dot => "."
  | dots => ".."

def shape : Joint → Shape
  | dot => .literal '.'
  | dots => .anySegments

end Joint

namespace PlainPattern

/-- The text behind the first segment. -/
def textBehind (trailing : Bool) : List (Joint × PlainSegment) → String
  | [] => if trailing then ".." else ""
  | (joint, segment) :: others => joint.text ++ (segment.text ++ textBehind trailing others)

def text (pattern : PlainPattern) : String :=
  (if pattern.leading then ".." else "")
    ++ (pattern.first.text ++ textBehind pattern.trailing pattern.others)

/-- The shapes behind the first segment, up to the end of the namespace. -/
def shapesBehind (trailing : Bool) (opened : Nat) : List (Joint × PlainSegment) → List Shape
  | [] => if trailing then [.anySegments] else []
  | (joint, segment) :: others =>
    joint.shape :: (segment.shapes opened ++ shapesBehind trailing (opened + segment.captures) others)

def shapes (pattern : PlainPattern) : List Shape :=
  (if pattern.leading then [.anySegments] else [])
    ++ (pattern.first.shapes 0
      ++ shapesBehind pattern.trailing pattern.first.captures pattern.others)

def capturesBehind (others : List (Joint × PlainSegment)) : Nat :=
  (others.map fun other => other.2.captures).sum

def captures (pattern : PlainPattern) : Nat :=
  pattern.first.captures + capturesBehind pattern.others

end PlainPattern

/-! ## Characters of segments -/

theorem isPlainChar_spec {c : Char} (h : isPlainChar c = true) :
    c ∉ PatternToken.syntaxChars ∧ isPatternChar c = true := by
  constructor
  · intro hmem
    have hspecial : PatternToken.syntaxChars.all (!isPlainChar ·) = true := by decide +kernel
    have hc := List.all_eq_true.mp hspecial c hmem
    rw [h] at hc
    cases hc
  · rw [isPlainChar, Bool.or_eq_true, Bool.or_eq_true, decide_eq_true_eq, decide_eq_true_eq] at h
    rcases h with (h | rfl) | rfl
    · rw [isPatternChar, h, Bool.true_or]
    · decide +kernel
    · decide +kernel

theorem dot_notMem_segment (segment : PlainSegment) : '.' ∉ segment.text.toList := by
  cases segment with
  | literal name => exact fun h => (isPlainChar_spec (name.plain '.' h)).1 (by decide)
  | any | capture | captureMany => decide

theorem segment_ne_nil (segment : PlainSegment) : segment.text.toList ≠ [] := by
  cases segment with
  | literal name => exact fun h => name.ne_empty (String.toList_eq_nil_iff.mp h)
  | any | capture | captureMany => decide

theorem isPatternChar_segment (segment : PlainSegment) :
    ∀ c ∈ segment.text.toList, isPatternChar c = true := by
  cases segment with
  | literal name => exact fun c h => (isPlainChar_spec (name.plain c h)).2
  | any | capture | captureMany => exact List.all_eq_true.mp (by decide +kernel)

theorem depth?_segment_append (segment : PlainSegment) {depth : Nat} {rest : List Char} :
    depth? ofChar depth (segment.text.toList ++ rest) = depth? ofChar depth rest := by
  cases segment with
  | any | capture | captureMany => rfl
  | literal name =>
      refine GroupSign.depth?_plain_append fun c hc => ?_
      have hspecial := (isPlainChar_spec (name.plain c hc)).1
      simp only [PatternToken.syntaxChars, List.mem_cons, List.not_mem_nil, or_false,
        not_or] at hspecial
      obtain ⟨-, -, hopen, hclose, hgroup, hclose', -⟩ := hspecial
      exact GroupSign.ofChar_eq_plain hopen hgroup hclose hclose'

theorem count_segment (segment : PlainSegment) :
    segment.text.toList.count '(' = segment.captures := by
  cases segment with
  | literal name =>
      exact List.count_eq_zero.mpr fun h => (isPlainChar_spec (name.plain '(' h)).1 (by decide)
  | any | capture | captureMany => rfl

/-! ## Plain patterns are accepted -/

namespace PlainPattern

variable {trailing : Bool} {joint : Joint} {segment : PlainSegment}
  {others : List (Joint × PlainSegment)} {opened : Nat}

theorem toList_textBehind_cons :
    (textBehind trailing ((joint, segment) :: others)).toList
      = joint.text.toList ++ (segment.text.toList ++ (textBehind trailing others).toList) := by
  rw [textBehind, String.toList_append, String.toList_append]

theorem toList_text (pattern : PlainPattern) :
    pattern.text.toList = (if pattern.leading then "..".toList else [])
      ++ (pattern.first.text.toList ++ (textBehind pattern.trailing pattern.others).toList) := by
  rw [text, String.toList_append, String.toList_append]
  split <;> rfl

theorem segment_append_eq_cons (segment : PlainSegment) (rest : List Char) :
    ∃ c rest', segment.text.toList ++ rest = c :: rest' ∧ c ≠ '.' := by
  obtain ⟨c, text, htext⟩ := List.exists_cons_of_ne_nil (segment_ne_nil segment)
  refine ⟨c, text ++ rest, by rw [htext, List.cons_append], ?_⟩
  rintro rfl
  exact dot_notMem_segment segment (htext ▸ List.mem_cons_self)

/-- Texts of plain patterns are made from the end by segments and by one dot or two in front of
something else. -/
theorem text_induction {p : List Char → Prop} (pattern : PlainPattern) (hnil : p [])
    (hdots : p "..".toList)
    (hsegment : ∀ (segment : PlainSegment) rest, p rest → p (segment.text.toList ++ rest))
    (hjoint : ∀ (joint : Joint) c rest, c ≠ '.' → p (c :: rest) →
      p (joint.text.toList ++ c :: rest)) : p pattern.text.toList := by
  have hbehind : ∀ others, p (textBehind pattern.trailing others).toList := by
    intro others
    induction others with
    | nil =>
        rw [textBehind]
        split
        · exact hdots
        · exact hnil
    | cons other others ih =>
        obtain ⟨joint, segment⟩ := other
        obtain ⟨c, rest, htext, hc⟩ :=
          segment_append_eq_cons segment (textBehind pattern.trailing others).toList
        rw [toList_textBehind_cons, htext]
        exact hjoint joint c rest hc (htext ▸ hsegment segment _ ih)
  have hfirst := hsegment pattern.first _ (hbehind pattern.others)
  rw [toList_text]
  split
  · obtain ⟨c, rest, htext, hc⟩ := segment_append_eq_cons pattern.first
      (textBehind pattern.trailing pattern.others).toList
    rw [htext] at hfirst ⊢
    exact hjoint .dots c rest hc hfirst
  · exact hfirst

/-- What begins with a character that a text does not contain does not begin in that text. -/
theorem infix_of_infix_append {c : Char} {piece front back : List Char} (hc : c ∉ front)
    (h : c :: piece <:+: front ++ back) : c :: piece <:+: back := by
  induction front with
  | nil => exact h
  | cons d front ih =>
      rw [List.mem_cons, not_or] at hc
      rcases List.infix_cons_iff.mp h with h | h
      · exact absurd (List.cons_prefix_cons.mp h).1 hc.1
      · exact ih hc.2 h

theorem noThreeDots_text (pattern : PlainPattern) :
    ¬['.', '.', '.'] <:+: pattern.text.toList := by
  refine text_induction (p := fun text => ¬['.', '.', '.'] <:+: text) pattern (by decide)
    (by decide) (fun segment rest hrest h => hrest ?_) fun joint c rest hc hrest h => hrest ?_
  · exact infix_of_infix_append (dot_notMem_segment segment) h
  · -- at most two dots stand in front of a character other than a dot
    have htwo : ['.', '.', '.'] <:+: '.' :: '.' :: c :: rest := by
      cases joint with
      | dot => exact h.trans (List.suffix_cons '.' _).isInfix
      | dots => exact h
    simpa [List.infix_cons_iff, hc.symm] using htwo

theorem noDotCapture_text (pattern : PlainPattern) :
    ¬['(', '.', '.', ')'] <:+: pattern.text.toList := by
  refine text_induction (p := fun text => ¬['(', '.', '.', ')'] <:+: text) pattern (by decide)
    (by decide) (fun segment rest hrest h => hrest ?_) fun joint c rest hc hrest h => hrest ?_
  · have hbracket : ∀ front, '(' ∉ front → ['(', '.', '.', ')'] <:+: '(' :: '*' :: front ++ rest →
        ['(', '.', '.', ')'] <:+: rest := by
      intro front hfront h
      rcases List.infix_cons_iff.mp h with h | h
      · cases (List.cons_prefix_cons.mp (List.cons_prefix_cons.mp h).2).1
      · exact infix_of_infix_append (by simpa using hfront) h
    cases segment with
    | literal name =>
        exact infix_of_infix_append
          (fun h => (isPlainChar_spec (name.plain '(' h)).1 (by decide)) h
    | any => exact infix_of_infix_append (by decide) h
    | capture => exact hbracket [')'] (by decide) h
    | captureMany => exact hbracket ['*', ')'] (by decide) h
  · cases joint <;> exact infix_of_infix_append (by decide) h

theorem accepted_text (pattern : PlainPattern) : Accepted pattern.text.toList := by
  refine ⟨⟨⟨noThreeDots_text pattern, ?_⟩, noDotCapture_text pattern⟩,
    GroupSign.balanced_iff.mpr ?_⟩
  · refine text_induction (p := fun text => ∀ c ∈ text, isPatternChar c = true) pattern nofun
      (List.all_eq_true.mp (by decide +kernel)) (fun segment rest hrest => ?_)
      fun joint c rest _ hrest => ?_
    · exact List.forall_mem_append.mpr ⟨isPatternChar_segment segment, hrest⟩
    · refine List.forall_mem_append.mpr ⟨?_, hrest⟩
      cases joint <;> exact List.all_eq_true.mp (by decide +kernel)
  · refine text_induction (p := fun text => depth? ofChar 0 text = some 0) pattern rfl rfl
      (fun segment rest hrest => ?_) fun joint c rest _ hrest => ?_
    · rw [depth?_segment_append, hrest]
    · cases joint <;> exact hrest

/-! ## Plain patterns are read as sequences -/

open PatternToken (scan)
open Shape (ReadAs)

variable {opened' : Nat} {rest : List Char} {parts : List GroupPart}

theorem readAs_literals {text : List Char} (htext : ∀ c ∈ text, c ∉ PatternToken.syntaxChars)
    (h : ReadAs opened opened' (scan rest) parts) :
    ReadAs opened opened' (scan (text ++ rest))
      ((text.map Shape.literal).map .shape ++ parts) := by
  induction text with
  | nil => exact h
  | cons c text ih =>
      obtain ⟨hc, htext⟩ := List.forall_mem_cons.mp htext
      rw [List.cons_append, PatternToken.scan_literal hc]
      have hliteral : ReadAs opened opened [.literal c] [.shape (.literal c)] :=
        Shape.readAs_shape (Shape.readable_literal c) fun _ _ _ _ => rfl
      exact hliteral.append (ih htext)

theorem readAs_segment_append (segment : PlainSegment)
    (h : ReadAs (opened + segment.captures) opened' (scan rest) parts) :
    ReadAs opened opened' (scan (segment.text.toList ++ rest))
      ((segment.shapes opened).map .shape ++ parts) := by
  have hstar : ∀ opened, ReadAs opened opened [.segment] [.shape .segment] :=
    fun opened => Shape.readAs_shape Shape.readable_segment fun _ _ _ _ => rfl
  cases segment with
  | literal name => exact readAs_literals (fun c hc => (isPlainChar_spec (name.plain c hc)).1) h
  | any => exact (hstar opened).append h
  | capture =>
      have hopen : ∀ outer top position rest,
          Shape.read outer top opened position (.openCapture :: rest)
            = Shape.read (top :: outer) (.fresh (some (opened + 1)) position) (opened + 1)
                (position + 1) rest := fun _ _ _ _ => rfl
      exact ((hstar (opened + 1)).group hopen).append h
  | captureMany =>
      have hsegments : ReadAs opened (opened + 1) [.captureSegments]
          [.shape (.capture (opened + 1) .segments)] :=
        Shape.readAs_shape (Shape.readable_segments.capture _) fun _ _ _ _ => rfl
      exact hsegments.append h

theorem readAs_joint_append (joint : Joint) {c : Char} (hc : c ≠ '.')
    (h : ReadAs opened opened' (scan (c :: rest)) parts) :
    ReadAs opened opened' (scan (joint.text.toList ++ c :: rest))
      (.shape joint.shape :: parts) := by
  cases joint with
  | dots =>
      have hdots : ReadAs opened opened [.anySegments] [.shape .anySegments] :=
        Shape.readAs_shape Shape.readable_anySegments fun _ _ _ _ => rfl
      exact hdots.append h
  | dot =>
      have hdot : ReadAs opened opened [.dot] [.shape (.literal '.')] :=
        Shape.readAs_shape (Shape.readable_literal '.') fun _ _ _ _ => rfl
      have hscan : scan ('.' :: c :: rest) = .dot :: scan (c :: rest) :=
        PatternToken.scan.eq_4 _ fun _ hrest => hc (List.cons.inj hrest).1
      change ReadAs opened opened' (scan ('.' :: c :: rest)) _
      rw [hscan]
      exact hdot.append h

theorem readAs_joint_segment_append (joint : Joint) (segment : PlainSegment)
    (h : ReadAs opened opened' (scan (segment.text.toList ++ rest)) parts) :
    ReadAs opened opened' (scan (joint.text.toList ++ (segment.text.toList ++ rest)))
      (.shape joint.shape :: parts) := by
  obtain ⟨c, rest', htext, hc⟩ := segment_append_eq_cons segment rest
  rw [htext] at h ⊢
  exact readAs_joint_append joint hc h

theorem readAs_behind (trailing : Bool) (opened : Nat) (others : List (Joint × PlainSegment)) :
    ReadAs opened (opened + capturesBehind others) (scan (textBehind trailing others).toList)
      ((shapesBehind trailing opened others).map .shape) := by
  induction others generalizing opened with
  | nil =>
      cases trailing with
      | false => exact ⟨fun _ _ _ _ => rfl, nofun⟩
      | true => exact Shape.readAs_shape Shape.readable_anySegments fun _ _ _ _ => rfl
  | cons other others ih =>
      obtain ⟨joint, segment⟩ := other
      have hcaptures : opened + capturesBehind ((joint, segment) :: others)
          = opened + segment.captures + capturesBehind others := by
        rw [capturesBehind, List.map_cons, List.sum_cons, Nat.add_assoc]
        rfl
      rw [toList_textBehind_cons, shapesBehind, List.map_cons, List.map_append, hcaptures]
      exact readAs_joint_segment_append joint segment (readAs_segment_append segment (ih _))

theorem readAs_text (pattern : PlainPattern) :
    ReadAs 0 pattern.captures (scan pattern.text.toList) (pattern.shapes.map .shape) := by
  have hfirst : ReadAs 0 pattern.captures (scan (pattern.first.text.toList
      ++ (textBehind pattern.trailing pattern.others).toList))
      ((pattern.first.shapes 0).map .shape
        ++ (shapesBehind pattern.trailing pattern.first.captures pattern.others).map .shape) := by
    refine readAs_segment_append pattern.first ?_
    rw [Nat.zero_add]
    exact readAs_behind _ _ _
  rw [← List.map_append] at hfirst
  rw [toList_text, shapes]
  split
  · exact readAs_joint_segment_append .dots pattern.first hfirst
  · exact hfirst

theorem count_text (pattern : PlainPattern) : pattern.text.toList.count '(' = pattern.captures := by
  have hjoint : ∀ joint : Joint, joint.text.toList.count '(' = 0 := by
    intro joint
    cases joint <;> decide
  have hbehind : ∀ others, (textBehind pattern.trailing others).toList.count '('
      = capturesBehind others := by
    intro others
    induction others with
    | nil => cases pattern.trailing <;> rfl
    | cons other others ih =>
        rw [toList_textBehind_cons, List.count_append, List.count_append, hjoint, count_segment, ih,
          Nat.zero_add]
        rfl
  rw [toList_text, List.count_append, List.count_append, count_segment, hbehind]
  split
  · exact Nat.zero_add _
  · exact Nat.zero_add _

/-- A plain pattern is looked for as the sequence of its shapes between anchors. -/
theorem ofText_text (pattern : PlainPattern) :
    NamespacePattern.ofText pattern.text = .ok ⟨pattern.text,
      Shape.sequence (.start :: (pattern.shapes ++ [.finish])), pattern.captures⟩ := by
  rw [NamespacePattern.ofText_of_ofTokens_ok (accepted_text pattern).toWellSpelled
    (readAs_text pattern).ofTokens_eq, count_text, Shape.anchored_eq_sequence]

end PlainPattern

end Archmap
