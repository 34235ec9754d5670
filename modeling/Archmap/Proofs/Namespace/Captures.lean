import Archmap.Proofs.Namespace.Reading
import Archmap.Namespace.Pattern

/-!
# What a pattern captures

The literals of a pattern's shape are the characters of its text that are no syntax, so what it
captures is made of word characters, dots and these (`captured_allowed`). It has one capture for each
round bracket that opens in its text, whether that stands alone or belongs to `(**)`
(`countP_captures`), and a class that is not ignored has an identifier with one part for each capture
(`identify_spec`).
-/

namespace Archmap

/-! ## From text to tokens -/

namespace PatternToken

/-- The characters with which a pattern text says something other than themselves. -/
def syntaxChars : List Char := ['.', '*', '(', ')', '[', ']', '|']

theorem mem_of_literal_mem_scan {c : Char} {text : List Char} (h : literal c ∈ scan text) :
    c ∈ text ∧ c ∉ syntaxChars := by
  fun_induction scan text with
  | case1 => cases h
  | case11 d cs _ _ hdot hstar hopen hgroup hclose hclose' hbar ih =>
      rcases List.mem_cons.mp h with heq | h
      · cases heq
        refine ⟨List.mem_cons_self, ?_⟩
        simp only [syntaxChars, List.mem_cons, List.not_mem_nil, or_false, not_or]
        exact ⟨hdot, hstar, hopen, hclose, hgroup, hclose', hbar⟩
      · exact (ih h).imp_left (List.mem_cons_of_mem d)
  -- the other tokens are no literals
  | case2 cs ih | case3 cs ih | case5 cs ih | case7 cs ih | case8 cs ih | case9 cs ih
  | case10 cs ih | case4 cs _ ih | case6 cs _ ih =>
      obtain ⟨hmem, hplain⟩ := ih (by simpa using h)
      exact ⟨by simp [hmem], hplain⟩

theorem countP_captures (text : List Char) :
    (scan text).countP captures = text.count '(' := by
  fun_induction scan text with
  | case1 => rfl
  | case11 c cs _ _ _ _ hopen _ _ _ _ ih =>
      rw [List.countP_cons_of_neg (by simp [captures]), ih, List.count_cons_of_ne hopen]
  | case2 cs ih | case3 cs ih | case5 cs ih | case7 cs ih | case8 cs ih | case9 cs ih
  | case10 cs ih | case4 cs _ ih | case6 cs _ ih =>
      simp [List.countP_cons, captures, ih]

end PatternToken

/-! ## From tokens to a shape -/

variable {allowed : Char → Prop}

/-- All literals that have been read into the frame are allowed. -/
def Frame.Over (allowed : Char → Prop) (frame : Frame) : Prop :=
  (∀ shape ∈ frame.earlier, shape.Over allowed) ∧ frame.current.Over allowed

namespace Frame

theorem over_fresh {index : Option Nat} {position : Nat} : (fresh index position).Over allowed :=
  ⟨by simp [fresh], trivial⟩

theorem Over.append {frame : Frame} (h : frame.Over allowed) (shape : Shape)
    (hshape : shape.Over allowed) : (frame.append shape).Over allowed :=
  ⟨h.1, h.2, hshape⟩

theorem Over.alternatives {frame : Frame} (h : frame.Over allowed) :
    frame.alternatives.Over allowed := by
  obtain ⟨index, position, earlier, current⟩ := frame
  cases earlier with
  | none => exact h.2
  | some shape => exact ⟨h.1 shape rfl, h.2⟩

theorem Over.split {frame : Frame} (h : frame.Over allowed) : frame.split.Over allowed := by
  refine ⟨fun shape hshape => ?_, trivial⟩
  cases hshape
  exact h.alternatives

theorem Over.closed {frame : Frame} (h : frame.Over allowed) : frame.closed.Over allowed := by
  rw [Frame.closed]
  cases frame.index with
  | none => exact h.alternatives
  | some index => exact h.alternatives

end Frame

namespace Shape

theorem read_over {tokens : List PatternToken} {outer : List Frame} {top : Frame}
    {opened position : Nat} {shape : Shape} (hdot : allowed '.')
    (htokens : ∀ c, .literal c ∈ tokens → allowed c) (htop : top.Over allowed)
    (houter : ∀ frame ∈ outer, frame.Over allowed)
    (h : read outer top opened position tokens = .ok shape) : shape.Over allowed := by
  -- over the tokens; that all open groups are over allowed characters is kept by each of them
  induction tokens generalizing outer top opened position with
  | nil =>
      cases outer with
      | nil =>
          cases h
          exact (htop.append .finish trivial).alternatives
      | cons frame outer => cases h
  | cons token rest ih =>
      have hrest : ∀ c, PatternToken.literal c ∈ rest → allowed c :=
        fun c hc => htokens c (List.mem_cons_of_mem token hc)
      have hopened : ∀ frame ∈ top :: outer, frame.Over allowed :=
        List.forall_mem_cons.mpr ⟨htop, houter⟩
      cases token with
      | literal c =>
          exact ih hrest (htop.append (.literal c) (htokens c List.mem_cons_self)) houter h
      | dot => exact ih hrest (htop.append (.literal '.') hdot) houter h
      | anySegments => exact ih hrest (htop.append .anySegments trivial) houter h
      | segment => exact ih hrest (htop.append .segment trivial) houter h
      | captureSegments =>
          exact ih hrest (htop.append (.capture (opened + 1) .segments) trivial) houter h
      | openCapture => exact ih hrest Frame.over_fresh hopened h
      | openGroup => exact ih hrest Frame.over_fresh hopened h
      | close =>
          cases outer with
          | nil => cases h
          | cons frame outer =>
              obtain ⟨hframe, houter⟩ := List.forall_mem_cons.mp houter
              exact ih hrest (hframe.append top.closed htop.closed) houter h
      | bar => exact ih hrest htop.split houter h

end Shape

/-! ## From a shape to captures -/

namespace NamespacePattern

variable {pattern : NamespacePattern} {text : String} {cls : Class}

/-- The characters that a pattern with the given text can capture. -/
def Capturable (text : String) (c : Char) : Prop :=
  isWord c = true ∨ c = '.' ∨ c ∈ text.toList ∧ c ∉ PatternToken.syntaxChars

/-- What is known of a pattern that has been read. -/
theorem ofText_ok (h : ofText text = .ok pattern) :
    spellingFault? text.toList = none
      ∧ pattern.shape.Over (Capturable text)
      ∧ pattern.captures = text.toList.count '(' := by
  rw [ofText] at h
  split at h
  · cases h
  · rename_i hspelling
    simp only at h
    split at h
    · cases h
    · rename_i shape hshape
      cases h
      refine ⟨hspelling, ?_, PatternToken.countP_captures _⟩
      have hdot : Capturable text '.' := Or.inr (Or.inl rfl)
      have hfirst : ((Frame.fresh none 0).append .start).Over (Capturable text) :=
        Frame.over_fresh.append .start trivial
      exact Shape.read_over hdot
        (fun c hc => Or.inr (Or.inr (PatternToken.mem_of_literal_mem_scan hc)))
        hfirst (by simp) hshape

theorem isPatternChar_of_spelled {text : List Char} (h : spellingFault? text = none) :
    ∀ c ∈ text, isPatternChar c = true := by
  rw [spellingFault?] at h
  split at h
  · cases h
  · split at h
    · cases h
    · rw [Option.map_eq_none_iff, List.find?_eq_none] at h
      simpa using h

theorem not_capturable_colon (h : ofText text = .ok pattern) : ¬Capturable text ':' := by
  rintro (hword | hdot | ⟨hmem, -⟩)
  · revert hword
    decide +kernel
  · cases hdot
  · have hcolon := isPatternChar_of_spelled (ofText_ok h).1 ':' hmem
    revert hcolon
    decide +kernel

theorem captured_allowed (hword : ∀ c, isWord c = true → allowed c) (hdot : allowed '.')
    {shape : Shape} (hshape : shape.Over allowed) {ns : List Char} {outcome : Outcome}
    (h : shape.search? 0 ns = some outcome) (index : Nat) :
    ∀ c ∈ (captured ns outcome.spans index).toList, allowed c := by
  rw [captured]
  split
  · rename_i span hspan
    obtain ⟨cursor, hcursor, hrun⟩ := Shape.exists_run_of_search? h rfl
    obtain ⟨opened, closed, hopened, hclosed, hstart, hstop⟩ :=
      (Shape.run_readFrom hword hdot hshape hrun).spans span (List.mem_of_find?_eq_some hspan)
    rw [String.toList_ofList, hstart, hstop, hopened.drop hcursor]
    exact hclosed.forall_mem_take
  · simp

/-- A class that is not ignored is identified by what the pattern captures. -/
theorem exists_match_of_identify (hkept : pattern.identify cls ≠ .ignore) :
    pattern.match? cls.name.enclosingNamespace = some (pattern.identify cls).parts := by
  rw [identify] at hkept ⊢
  split at hkept
  · exact absurd rfl hkept
  · rename_i groups hmatch
    simp only [hmatch]
    split at hkept
    · rename_i id hid
      rw [(Identifier.ofParts_eq_ok_iff.mp hid).2]
    · exact absurd rfl hkept

/-- A class that is not ignored has one part for each capture, and no part is empty or holds a
character that the pattern cannot capture. -/
theorem identify_spec (h : ofText text = .ok pattern) (hkept : pattern.identify cls ≠ .ignore) :
    (pattern.identify cls).parts.length = text.toList.count '('
      ∧ ∀ part ∈ (pattern.identify cls).parts,
          part ≠ "" ∧ ∀ c ∈ part.toList, Capturable text c := by
  obtain ⟨-, hshape, hcaptures⟩ := ofText_ok h
  have hmatch := exists_match_of_identify hkept
  rw [match?, Option.map_eq_some_iff] at hmatch
  obtain ⟨outcome, hfound, hparts⟩ := hmatch
  have hword : ∀ c, isWord c = true → Capturable text c := fun _ => Or.inl
  have hdot : Capturable text '.' := Or.inr (Or.inl rfl)
  have hcaptured := captured_allowed hword hdot hshape hfound
  refine ⟨?_, fun part hpart => ⟨(pattern.identify cls).proper part hpart, ?_⟩⟩
  · rw [← hparts, List.length_map, List.length_range, hcaptures]
  · rw [← hparts, List.mem_map] at hpart
    obtain ⟨i, -, rfl⟩ := hpart
    exact hcaptured (i + 1)

end NamespacePattern

end Archmap
