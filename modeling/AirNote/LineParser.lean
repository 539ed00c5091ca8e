import AirNote.Lib.Lines
import AirNote.Lib.Utf8

/-!
# The line parsers

Frames travel as lines of JSON over a socket that hands out bytes in chunks of
any size. Both parsers decode each chunk by itself, add it to a buffer and
take the complete lines from there; a buffer without a line feed that has
grown past the maximum is reported and emptied. They differ in what they
count: the one in JavaScript counts UTF-16 units, the one in Rust bytes.

A character that two chunks share is decoded in neither. And it is the buffer
that is measured, where a chunk without a line feed ends: a line that is over
the maximum is missed where none ends in it late enough, and where one does,
what is still to come of the line is read as a line of its own.

An event is what the parser reports, a text handed to the JSON reader or a
line too long; events are kept by the line they were reported on.

## Main results

* `line_parsers_iff` — exactly which streams and chunks each parser reads as
  line by line.
* `line_parsers_split` — a character in two chunks.
-/

namespace AirNote

open Lib

/-! ## The parsers -/

/-- What a parser counts as length, in no more than the bytes, and what it
takes for white space. -/
structure LineRules where
  unit : Char → Nat
  isSpace : Char → Bool
  unit_le : ∀ c, unit c ≤ (Utf8.encode c).length
  space : isSpace Utf8.replacement = false

/-- The length of a text. -/
def LineRules.size (r : LineRules) (text : List Char) : Nat :=
  (text.map r.unit).sum

/-- The line is skipped. -/
def LineRules.blank (r : LineRules) (line : List Char) : Bool :=
  line.all r.isSpace

/-- What a parser reports. -/
inductive LineEvent where
  | tooLong
  | text (line : List Char)
  deriving DecidableEq, Repr

/-- A complete line. -/
def LineRules.line (r : LineRules) (line : List Char) : List LineEvent :=
  if r.blank line then [] else [.text line]

/-- The buffer; the events on the lines that ended, line by line, and those
on the current line so far. -/
structure Framing where
  buf : List Char
  ended : List (List LineEvent)
  current : List LineEvent
  deriving DecidableEq, Repr

/-- Nothing was fed yet. -/
def Framing.start : Framing := ⟨[], [], []⟩

/-- One chunk. -/
def LineRules.feed (r : LineRules) (maxLine : Nat) (s : Framing)
    (chunk : List Nat) : Framing :=
  let buf := s.buf ++ Utf8.decode chunk
  if maxLine < r.size buf ∧ '\n' ∉ buf then
    { s with buf := [], current := s.current ++ [.tooLong] }
  else
    match Lines.cut '\n' buf with
    | ([], tail) => { s with buf := tail }
    | (line :: lines, tail) =>
        { buf := tail
          ended := s.ended ++ (s.current ++ r.line line) :: lines.map r.line
          current := [] }

/-- `\s` of `String.prototype.trim`. -/
def jsSpaces : List Nat :=
  [9, 10, 11, 12, 13, 32, 0xA0, 0x1680, 0x2000, 0x2001, 0x2002, 0x2003,
    0x2004, 0x2005, 0x2006, 0x2007, 0x2008, 0x2009, 0x200A, 0x2028, 0x2029,
    0x202F, 0x205F, 0x3000, 0xFEFF]

/-- `char::is_whitespace`. -/
def rustSpaces : List Nat :=
  [9, 10, 11, 12, 13, 32, 0x85, 0xA0, 0x1680, 0x2000, 0x2001, 0x2002, 0x2003,
    0x2004, 0x2005, 0x2006, 0x2007, 0x2008, 0x2009, 0x200A, 0x2028, 0x2029,
    0x202F, 0x205F, 0x3000]

/-- The UTF-16 units of a character. -/
def utf16Units (c : Char) : Nat := if c.toNat < 0x10000 then 1 else 2

theorem utf16Units_le (c : Char) :
    utf16Units c ≤ (Utf8.encode c).length := by
  unfold utf16Units Utf8.encode
  dsimp only
  split
  · split
    · exact Nat.le_refl _
    · split
      · exact Nat.le_succ _
      · exact Nat.le_add_left 1 2
  · rw [if_neg (by omega), if_neg (by omega)]
    exact Nat.le_add_left 2 2

/-- The parser in JavaScript. -/
def jsRules : LineRules where
  unit := utf16Units
  isSpace c := jsSpaces.contains c.toNat
  unit_le := utf16Units_le
  space := by decide

/-- The parser in Rust. -/
def rustRules : LineRules where
  unit c := (Utf8.encode c).length
  isSpace c := rustSpaces.contains c.toNat
  unit_le _ := Nat.le_refl _
  space := by decide

/-- `MAX_FRAME`. -/
def maxFrame : Nat := 2 ^ 20

/-- `makeLineParser`, fed some chunks. -/
def makeLineParser (maxLine : Nat) (chunks : List (List Nat)) : Framing :=
  chunks.foldl (jsRules.feed maxLine) .start

/-- `LineParser::feed`, of some chunks. -/
def lineParserFeed (chunks : List (List Nat)) : Framing :=
  chunks.foldl (rustRules.feed maxFrame) .start

/-! ## Line by line -/

/-- The bytes of a text. -/
def byteSize (text : List Char) : Nat := (Utf8.encodeText text).length

/-- The whole stream, line by line: a line over the maximum is rejected, and
reported once, be it complete or not; of the others those not blank are
read. -/
def LineRules.lineByLine (r : LineRules) (maxLine : Nat)
    (text : List Char) : List (List LineEvent) × List LineEvent :=
  let lines := Lines.cut '\n' text
  (lines.1.map fun line =>
      if maxLine < byteSize line then [.tooLong] else r.line line,
    if maxLine < byteSize lines.2 then [.tooLong] else [])

/-- A text, and its bytes in chunks. -/
structure CutText where
  text : List Char
  chunks : List (List Nat)
  bytes : chunks.flatten = Utf8.encodeText text

/-- What was reported is what the lines of the text give. -/
def LineRules.Agrees (r : LineRules) (maxLine : Nat) (t : CutText)
    (s : Framing) : Prop :=
  (s.ended, s.current) = r.lineByLine maxLine t.text

/-- No chunk that lies inside the line ended past the maximum. -/
def LineRules.Fits (r : LineRules) (maxLine : Nat) (first : List Char)
    (inside : List (List Char)) : Prop :=
  inside = [] ∨ r.size (first ++ inside.flatten) ≤ maxLine

/-- Of the chunks that lie inside the line one ended past the maximum, and
those after it hold no more than the maximum. -/
def LineRules.OverrunsOnce (r : LineRules) (maxLine : Nat)
    (first : List Char) (inside after : List (List Char)) : Prop :=
  ∃ before piece, inside = before ++ piece :: after ∧
    r.Fits maxLine first before ∧
    maxLine < r.size (first ++ before.flatten ++ piece) ∧
    r.size after.flatten ≤ maxLine

/-- A line within the maximum has no character in two chunks. Of a line over
it, one chunk inside it ends past the maximum, and only blanks come after
that. -/
def LineRules.LineKept (r : LineRules) (maxLine : Nat)
    (arrived : Lines.Arrived Nat) (line : List Char) : Prop :=
  let d := arrived.map Utf8.decode
  if byteSize line ≤ maxLine then d.text = line
  else ∃ after, r.OverrunsOnce maxLine d.first d.inside after ∧
    r.blank (after.flatten ++ d.last) = true

/-- The open line: past the maximum, one chunk inside it ends past it. -/
def LineRules.RestKept (r : LineRules) (maxLine : Nat)
    (arriving : Lines.Arriving Nat) (rest : List Char) : Prop :=
  let d := arriving.map Utf8.decode
  if byteSize rest ≤ maxLine then r.Fits maxLine d.first d.inside
  else ∃ after, r.OverrunsOnce maxLine d.first d.inside after

/-- Every line of the text, as it arrived. -/
def LineRules.Kept (r : LineRules) (maxLine : Nat) (t : CutText) : Prop :=
  let arrived := Lines.arrive 10 t.chunks
  let lines := Lines.cut '\n' t.text
  List.Forall₂ (r.LineKept maxLine) arrived.1 lines.1 ∧
    r.RestKept maxLine arrived.2 lines.2

/-! ## The chunks inside a line -/

/-- What the chunks that lie inside a line do to the buffer: the events, and
what it holds after them. -/
def LineRules.pass (r : LineRules) (maxLine : Nat) :
    List Char → List (List Char) → List LineEvent × List Char
  | buf, [] => ([], buf)
  | buf, piece :: rest =>
      if maxLine < r.size (buf ++ piece) then
        (.tooLong :: (r.pass maxLine [] rest).1, (r.pass maxLine [] rest).2)
      else r.pass maxLine (buf ++ piece) rest

theorem size_append (r : LineRules) (l l' : List Char) :
    r.size (l ++ l') = r.size l + r.size l' := by
  rw [LineRules.size, List.map_append, List.sum_append]
  rfl

theorem pass_append (r : LineRules) (maxLine : Nat) (piece : List Char) :
    ∀ (inside : List (List Char)) (buf : List Char),
      r.pass maxLine buf (inside ++ [piece]) =
        if maxLine < r.size ((r.pass maxLine buf inside).2 ++ piece) then
          ((r.pass maxLine buf inside).1 ++ [.tooLong], [])
        else ((r.pass maxLine buf inside).1,
          (r.pass maxLine buf inside).2 ++ piece) := by
  intro inside
  induction inside with
  | nil =>
      intro buf
      rfl
  | cons p rest ih =>
      intro buf
      rw [List.cons_append, LineRules.pass, LineRules.pass]
      by_cases hover : maxLine < r.size (buf ++ p)
      · rw [if_pos hover, if_pos hover, ih []]
        dsimp only
        split
        · rfl
        · rfl
      · rw [if_neg hover, if_neg hover, ih]

/-- No chunk ended past the maximum, and the buffer holds all of them. -/
theorem pass_fits {r : LineRules} {maxLine : Nat} :
    ∀ {inside : List (List Char)} {buf : List Char},
      r.Fits maxLine buf inside →
        r.pass maxLine buf inside = ([], buf ++ inside.flatten) := by
  intro inside
  induction inside with
  | nil =>
      intro buf _
      simp [LineRules.pass]
  | cons piece rest ih =>
      intro buf hfits
      rcases hfits with hnil | hsize
      · cases hnil
      · rw [List.flatten_cons, ← List.append_assoc] at hsize
        have hpiece : ¬ maxLine < r.size (buf ++ piece) := by
          have happend := size_append r (buf ++ piece) rest.flatten
          omega
        rw [LineRules.pass, if_neg hpiece, ih (.inr hsize),
          List.flatten_cons, List.append_assoc]

/-- Nothing is reported only where none did. -/
theorem fits_of_pass {r : LineRules} {maxLine : Nat} :
    ∀ {inside : List (List Char)} {buf : List Char},
      (r.pass maxLine buf inside).1 = [] → r.Fits maxLine buf inside := by
  intro inside
  induction inside with
  | nil =>
      intro _ _
      exact .inl rfl
  | cons piece rest ih =>
      intro buf hnone
      rw [LineRules.pass] at hnone
      by_cases hover : maxLine < r.size (buf ++ piece)
      · rw [if_pos hover] at hnone
        cases hnone
      · rw [if_neg hover] at hnone
        refine .inr ?_
        rw [List.flatten_cons, ← List.append_assoc]
        rcases ih hnone with hnil | hsize
        · rw [hnil, List.flatten_nil, List.append_nil]
          omega
        · exact hsize

/-- One report, and what the buffer holds after it. -/
theorem pass_overrunsOnce {r : LineRules} {maxLine : Nat} :
    ∀ {inside : List (List Char)} {buf : List Char}
      {after : List (List Char)},
      r.OverrunsOnce maxLine buf inside after →
        r.pass maxLine buf inside = ([.tooLong], after.flatten) := by
  intro inside
  induction inside with
  | nil =>
      rintro buf after ⟨before, piece, hsplit, -⟩
      simp at hsplit
  | cons p rest ih =>
      rintro buf after ⟨before, piece, hsplit, hfits, hover, hafter⟩
      cases before with
      | nil =>
          rw [List.nil_append, List.cons.injEq] at hsplit
          obtain ⟨rfl, rfl⟩ := hsplit
          rw [List.flatten_nil, List.append_nil] at hover
          rw [LineRules.pass, if_pos hover,
            pass_fits (.inr (by rw [List.nil_append]; exact hafter))]
          rfl
      | cons q before =>
          rw [List.cons_append, List.cons.injEq] at hsplit
          obtain ⟨rfl, rfl⟩ := hsplit
          rcases hfits with hnil | hsize
          · cases hnil
          · rw [List.flatten_cons, ← List.append_assoc] at hsize hover
            have hpiece : ¬ maxLine < r.size (buf ++ p) := by
              have happend := size_append r (buf ++ p) before.flatten
              omega
            rw [LineRules.pass, if_neg hpiece]
            exact ih ⟨before, piece, rfl, .inr hsize, hover, hafter⟩

/-- One report is made only so. -/
theorem overrunsOnce_of_pass {r : LineRules} {maxLine : Nat} :
    ∀ {inside : List (List Char)} {buf : List Char},
      (r.pass maxLine buf inside).1 = [.tooLong] →
        ∃ after, r.OverrunsOnce maxLine buf inside after := by
  intro inside
  induction inside with
  | nil =>
      intro _ hone
      cases hone
  | cons p rest ih =>
      intro buf hone
      rw [LineRules.pass] at hone
      by_cases hover : maxLine < r.size (buf ++ p)
      · rw [if_pos hover] at hone
        have hrest : (r.pass maxLine [] rest).1 = [] :=
          (List.cons.inj hone).2
        refine ⟨rest, [], p, rfl, .inl rfl, ?_, ?_⟩
        · rw [List.flatten_nil, List.append_nil]
          exact hover
        · rcases fits_of_pass hrest with hnil | hsize
          · rw [hnil]
            exact Nat.zero_le _
          · exact hsize
      · rw [if_neg hover] at hone
        obtain ⟨after, before, piece, rfl, hfits, hsize, hafter⟩ := ih hone
        refine ⟨after, p :: before, piece, rfl, .inr ?_, ?_, hafter⟩
        · rw [List.flatten_cons, ← List.append_assoc]
          rcases hfits with hnil | hle
          · rw [hnil, List.flatten_nil, List.append_nil]
            omega
          · exact hle
        · rw [List.flatten_cons, ← List.append_assoc]
          exact hsize

/-! ## The parser, line by line -/

/-- The events on a line that arrived. -/
def LineRules.events (r : LineRules) (maxLine : Nat)
    (l : Lines.Arrived Nat) : List LineEvent :=
  let d := l.map Utf8.decode
  let p := r.pass maxLine d.first d.inside
  p.1 ++ r.line (p.2 ++ d.last)

/-- The events on the line that is arriving, and the buffer. -/
def LineRules.arriving (r : LineRules) (maxLine : Nat)
    (o : Lines.Arriving Nat) : List LineEvent × List Char :=
  let d := o.map Utf8.decode
  r.pass maxLine d.first d.inside

/-- The line feeds of the bytes are those of the text. -/
theorem cut_decode : ∀ (n : Nat) (bytes : List Nat), bytes.length ≤ n →
    Lines.cut '\n' (Utf8.decode bytes) =
      ((Lines.cut 10 bytes).1.map Utf8.decode,
        Utf8.decode (Lines.cut 10 bytes).2) := by
  intro n
  induction n with
  | zero =>
      intro bytes hlen
      rw [List.length_eq_zero_iff.mp (Nat.le_zero.mp hlen)]
      rfl
  | succ n ih =>
      intro bytes hlen
      by_cases hmem : 10 ∈ bytes
      · obtain ⟨line, rest, rfl, hline⟩ := List.eq_append_cons_of_mem hmem
        rw [List.length_append, List.length_cons] at hlen
        have hclean := Utf8.newline_not_mem_decode line.length line
          (Nat.le_refl _) hline
        rw [Utf8.decode_append, Lines.cut_line hclean, Lines.cut_line hline,
          ih rest (by omega)]
        rfl
      · have hclean := Utf8.newline_not_mem_decode bytes.length bytes
          (Nat.le_refl _) hmem
        rw [Lines.cut_of_not_mem hclean, Lines.cut_of_not_mem hmem]
        rfl

/-- The state of the parser after some chunks. -/
def LineRules.framed (r : LineRules) (maxLine : Nat)
    (a : List (Lines.Arrived Nat) × Lines.Arriving Nat) : Framing :=
  { buf := (r.arriving maxLine a.2).2
    ended := a.1.map (r.events maxLine)
    current := (r.arriving maxLine a.2).1 }

theorem newline_not_mem_pass {r : LineRules} {maxLine : Nat} :
    ∀ {inside : List (List Char)} {buf : List Char}, '\n' ∉ buf →
      (∀ piece ∈ inside, '\n' ∉ piece) →
        '\n' ∉ (r.pass maxLine buf inside).2 := by
  intro inside
  induction inside with
  | nil => exact fun hbuf _ => hbuf
  | cons piece rest ih =>
      intro buf hbuf hinside
      have hrest : ∀ p ∈ rest, '\n' ∉ p := fun p hp =>
        hinside p (List.mem_cons_of_mem piece hp)
      have hpiece := hinside piece List.mem_cons_self
      rw [LineRules.pass]
      split
      · exact ih List.not_mem_nil hrest
      · refine ih ?_ hrest
        rw [List.mem_append, not_or]
        exact ⟨hbuf, hpiece⟩

/-- No piece of the open line holds a line feed. -/
def OpenLine (o : Lines.Arriving Nat) : Prop :=
  10 ∉ o.first ∧ ∀ piece ∈ o.inside, 10 ∉ piece

theorem newline_not_mem_arriving {r : LineRules} {maxLine : Nat}
    {o : Lines.Arriving Nat} (h : OpenLine o) :
    '\n' ∉ (r.arriving maxLine o).2 := by
  have hdecode : ∀ bytes : List Nat, 10 ∉ bytes →
      '\n' ∉ Utf8.decode bytes := fun bytes =>
    Utf8.newline_not_mem_decode bytes.length bytes (Nat.le_refl _)
  refine newline_not_mem_pass (hdecode o.first h.1) fun piece hpiece => ?_
  obtain ⟨bytes, hbytes, rfl⟩ := List.mem_map.mp hpiece
  exact hdecode bytes (h.2 bytes hbytes)

theorem openLine_next {o : Lines.Arriving Nat} (h : OpenLine o)
    (chunk : List Nat) : OpenLine (o.next 10 chunk).2 := by
  have hclean := (Lines.sep_not_mem_cut 10 chunk).2
  unfold Lines.Arriving.next
  generalize Lines.cut 10 chunk = c at hclean
  obtain ⟨lines, tail⟩ := c
  cases lines with
  | nil =>
      refine ⟨h.1, fun piece hpiece => ?_⟩
      rcases List.mem_append.mp hpiece with hold | hnew
      · exact h.2 piece hold
      · rw [List.mem_singleton.mp hnew]
        exact hclean
  | cons line lines => exact ⟨hclean, fun _ hp => by cases hp⟩

/-- A chunk without a line feed. -/
theorem feed_inside (r : LineRules) (maxLine : Nat) {s : Framing}
    {chunk : List Nat} (h : '\n' ∉ s.buf ++ Utf8.decode chunk) :
    r.feed maxLine s chunk =
      if maxLine < r.size (s.buf ++ Utf8.decode chunk) then
        { s with buf := [], current := s.current ++ [.tooLong] }
      else { s with buf := s.buf ++ Utf8.decode chunk } := by
  unfold LineRules.feed
  dsimp only
  rw [Lines.cut_of_not_mem h]
  by_cases hover : maxLine < r.size (s.buf ++ Utf8.decode chunk)
  · rw [if_pos hover, if_pos ⟨hover, h⟩]
  · rw [if_neg hover, if_neg fun hboth => hover hboth.1]

/-- A chunk with a line feed. -/
theorem feed_lines (r : LineRules) (maxLine : Nat) {s : Framing}
    {chunk : List Nat} {line tail : List Char} {lines : List (List Char)}
    (h : Lines.cut '\n' (s.buf ++ Utf8.decode chunk) =
      (line :: lines, tail)) :
    r.feed maxLine s chunk =
      { buf := tail
        ended := s.ended ++ (s.current ++ r.line line) :: lines.map r.line
        current := [] } := by
  have hmem := Lines.sep_mem_of_cut (congrArg Prod.fst h)
  unfold LineRules.feed
  dsimp only
  rw [h, if_neg fun hboth => hboth.2 hmem]

/-- One chunk takes the state for what arrived to the state for what arrived
with it. -/
theorem feed_framed (r : LineRules) (maxLine : Nat)
    (a : List (Lines.Arrived Nat) × Lines.Arriving Nat)
    (hopen : OpenLine a.2) (chunk : List Nat) :
    r.feed maxLine (r.framed maxLine a) chunk =
      r.framed maxLine (a.1 ++ (a.2.next 10 chunk).1,
        (a.2.next 10 chunk).2) := by
  have hbuf : '\n' ∉ (r.framed maxLine a).buf :=
    newline_not_mem_arriving hopen
  have hdecode := cut_decode chunk.length chunk (Nat.le_refl _)
  cases hcut : Lines.cut 10 chunk with
  | mk lines tail =>
      cases lines with
      | nil =>
          have hmem := (Lines.cut_eq_nil (congrArg Prod.fst hcut)).2
          have hnone : '\n' ∉ (r.framed maxLine a).buf ++
              Utf8.decode chunk := by
            rw [List.mem_append, not_or]
            exact ⟨hbuf, Utf8.newline_not_mem_decode chunk.length chunk
              (Nat.le_refl _) hmem⟩
          have hinside : r.arriving maxLine
              ⟨a.2.first, a.2.inside ++ [chunk]⟩ =
                if maxLine < r.size ((r.arriving maxLine a.2).2 ++
                    Utf8.decode chunk) then
                  ((r.arriving maxLine a.2).1 ++ [.tooLong], [])
                else ((r.arriving maxLine a.2).1,
                  (r.arriving maxLine a.2).2 ++ Utf8.decode chunk) := by
            show r.pass maxLine _ ((a.2.inside ++ [chunk]).map Utf8.decode) = _
            rw [List.map_append]
            exact pass_append r maxLine (Utf8.decode chunk) _ _
          rw [feed_inside r maxLine hnone, Lines.next_inside hmem,
            List.append_nil]
          unfold LineRules.framed
          dsimp only
          rw [hinside]
          split
          · rfl
          · rfl
      | cons line lines =>
          rw [hcut] at hdecode
          have hall : Lines.cut '\n'
              ((r.framed maxLine a).buf ++ Utf8.decode chunk) =
                (((r.framed maxLine a).buf ++ Utf8.decode line) ::
                  lines.map Utf8.decode, Utf8.decode tail) := by
            rw [Lines.cut_append, hdecode,
              Lines.cut_of_not_mem hbuf]
            rfl
          have hplain : (lines.map fun l => (⟨l, [], []⟩ :
              Lines.Arrived Nat)).map (r.events maxLine) =
                (lines.map Utf8.decode).map r.line := by
            rw [List.map_map, List.map_map]
            refine List.map_congr_left fun l _ => ?_
            show [] ++ r.line (Utf8.decode l ++ Utf8.decode []) = _
            rw [Utf8.decode_nil, List.append_nil, List.nil_append]
            rfl
          rw [feed_lines r maxLine hall, Lines.next_lines hcut]
          unfold LineRules.framed
          dsimp only
          rw [List.map_append, List.map_cons, hplain]
          rfl

/-- The parser reports line by line what the lines give as they arrived. -/
theorem foldl_feed (r : LineRules) (maxLine : Nat)
    (chunks : List (List Nat)) :
    OpenLine (Lines.arrive 10 chunks).2 ∧
      chunks.foldl (r.feed maxLine) .start =
        r.framed maxLine (Lines.arrive 10 chunks) := by
  induction chunks using List.reverseRecOn with
  | nil => exact ⟨⟨List.not_mem_nil, fun _ hp => by cases hp⟩, rfl⟩
  | append_singleton chunks chunk ih =>
      rw [Lines.arrive_append, List.foldl_append, List.foldl_cons,
        List.foldl_nil, ih.2]
      exact ⟨openLine_next ih.1 chunk, feed_framed r maxLine _ ih.1 chunk⟩

/-! ## One line -/

theorem size_le_byteSize (r : LineRules) (text : List Char) :
    r.size text ≤ byteSize text := by
  induction text with
  | nil => exact Nat.le_refl _
  | cons c rest ih =>
      have hunit := r.unit_le c
      show r.unit c + r.size rest ≤ (Utf8.encode c ++
        Utf8.encodeText rest).length
      rw [List.length_append]
      exact Nat.add_le_add hunit ih

theorem tooLong_not_mem_line (r : LineRules) (line : List Char) :
    LineEvent.tooLong ∉ r.line line := by
  unfold LineRules.line
  split
  · exact List.not_mem_nil
  · simp

theorem eq_tooLong_of_mem_pass {r : LineRules} {maxLine : Nat} :
    ∀ {inside : List (List Char)} {buf : List Char} {e : LineEvent},
      e ∈ (r.pass maxLine buf inside).1 → e = .tooLong := by
  intro inside
  induction inside with
  | nil => exact fun h => by cases h
  | cons piece rest ih =>
      intro buf e h
      rw [LineRules.pass] at h
      split at h
      · rcases List.mem_cons.mp h with heq | hrest
        · exact heq
        · exact ih hrest
      · exact ih h

/-- Pieces decoded without a replacement are the bytes they were. -/
theorem encode_pieces {l : Lines.Arrived Nat}
    (h : Utf8.replacement ∉ (l.map Utf8.decode).text) :
    Utf8.encodeText (l.map Utf8.decode).text = l.text := by
  have hpiece : ∀ bytes : List Nat,
      Utf8.replacement ∉ Utf8.decode bytes →
        Utf8.encodeText (Utf8.decode bytes) = bytes := fun bytes =>
    Utf8.encode_decode bytes.length bytes (Nat.le_refl _)
  have hinside : ∀ pieces : List (List Nat),
      Utf8.replacement ∉ (pieces.map Utf8.decode).flatten →
        Utf8.encodeText (pieces.map Utf8.decode).flatten =
          pieces.flatten := by
    intro pieces
    induction pieces with
    | nil => exact fun _ => rfl
    | cons piece rest ih =>
        intro hclean
        rw [List.map_cons, List.flatten_cons, List.mem_append,
          not_or] at hclean
        rw [List.map_cons, List.flatten_cons, List.flatten_cons,
          Utf8.encodeText, List.flatMap_append]
        exact congrArg₂ _ (hpiece piece hclean.1) (ih hclean.2)
  unfold Lines.Arrived.text Lines.Arrived.map at h ⊢
  dsimp only at h ⊢
  rw [List.mem_append, List.mem_append, not_or, not_or] at h
  rw [Utf8.encodeText, List.flatMap_append, List.flatMap_append]
  exact congrArg₂ _ (congrArg₂ _ (hpiece _ h.1.1) (hinside _ h.1.2))
    (hpiece _ h.2)

/-- What is read as a line is the line, where its bytes are. -/
theorem text_eq_of_line {r : LineRules} {l : Lines.Arrived Nat}
    {line : List Char} (hbytes : l.text = Utf8.encodeText line)
    (h : r.line (l.map Utf8.decode).text = r.line line) :
    (l.map Utf8.decode).text = line := by
  unfold LineRules.line at h
  by_cases hblank : r.blank (l.map Utf8.decode).text = true
  · have hclean : Utf8.replacement ∉ (l.map Utf8.decode).text := by
      intro hmem
      have hspace := List.all_eq_true.mp hblank _ hmem
      rw [r.space] at hspace
      cases hspace
    exact Utf8.encodeText_injective ((encode_pieces hclean).trans hbytes)
  · rw [if_neg hblank] at h
    split at h
    · cases h
    · exact LineEvent.text.inj (List.cons.inj h).1

/-- The events on a line are what the line gives exactly where it is
kept. -/
theorem events_iff (r : LineRules) (maxLine : Nat) (l : Lines.Arrived Nat)
    (line : List Char) (hbytes : l.text = Utf8.encodeText line) :
    (r.events maxLine l =
        if maxLine < byteSize line then [.tooLong] else r.line line) ↔
      r.LineKept maxLine l line := by
  unfold LineRules.LineKept LineRules.events
  dsimp only
  by_cases hsize : byteSize line ≤ maxLine
  · rw [if_neg (Nat.not_lt.mpr hsize), if_pos hsize]
    constructor
    · intro hevents
      have hnone : (r.pass maxLine (l.map Utf8.decode).first
          (l.map Utf8.decode).inside).1 = [] := by
        refine List.eq_nil_iff_forall_not_mem.mpr fun e he => ?_
        have hlong := eq_tooLong_of_mem_pass he
        have hmem := List.mem_append_left (r.line
          ((r.pass maxLine (l.map Utf8.decode).first
            (l.map Utf8.decode).inside).2 ++ (l.map Utf8.decode).last)) he
        rw [hevents, hlong] at hmem
        exact tooLong_not_mem_line r line hmem
      rw [pass_fits (fits_of_pass hnone), List.nil_append] at hevents
      exact text_eq_of_line hbytes hevents
    · intro htext
      have hfits : r.Fits maxLine (l.map Utf8.decode).first
          (l.map Utf8.decode).inside := by
        have hle := size_le_byteSize r line
        have hsum := size_append r ((l.map Utf8.decode).first ++
          (l.map Utf8.decode).inside.flatten) (l.map Utf8.decode).last
        rw [show (l.map Utf8.decode).first ++
          (l.map Utf8.decode).inside.flatten ++ (l.map Utf8.decode).last =
            line from htext] at hsum
        exact .inr (by omega)
      rw [pass_fits hfits, List.nil_append]
      exact congrArg r.line htext
  · rw [if_pos (Nat.lt_of_not_le hsize), if_neg hsize]
    constructor
    · intro hevents
      have hblank : r.line ((r.pass maxLine (l.map Utf8.decode).first
          (l.map Utf8.decode).inside).2 ++ (l.map Utf8.decode).last) =
            [] := by
        refine List.eq_nil_iff_forall_not_mem.mpr fun e he => ?_
        have hmem := List.mem_append_right (r.pass maxLine
          (l.map Utf8.decode).first (l.map Utf8.decode).inside).1 he
        rw [hevents, List.mem_singleton] at hmem
        rw [hmem] at he
        exact tooLong_not_mem_line r _ he
      rw [hblank, List.append_nil] at hevents
      obtain ⟨after, honce⟩ := overrunsOnce_of_pass hevents
      rw [pass_overrunsOnce honce] at hblank
      refine ⟨after, honce, ?_⟩
      unfold LineRules.line at hblank
      split at hblank
      · rename_i hspaces
        exact hspaces
      · cases hblank
    · rintro ⟨after, honce, hblank⟩
      rw [pass_overrunsOnce honce, LineRules.line, if_pos hblank]
      rfl

/-- The same of the open line. -/
theorem arriving_iff (r : LineRules) (maxLine : Nat)
    (o : Lines.Arriving Nat) (rest : List Char) :
    ((r.arriving maxLine o).1 =
        if maxLine < byteSize rest then [.tooLong] else []) ↔
      r.RestKept maxLine o rest := by
  unfold LineRules.RestKept LineRules.arriving
  dsimp only
  by_cases hsize : byteSize rest ≤ maxLine
  · rw [if_neg (Nat.not_lt.mpr hsize), if_pos hsize]
    exact ⟨fits_of_pass, fun hfits => by rw [pass_fits hfits]⟩
  · rw [if_pos (Nat.lt_of_not_le hsize), if_neg hsize]
    constructor
    · exact overrunsOnce_of_pass
    · rintro ⟨after, honce⟩
      rw [pass_overrunsOnce honce]

/-! ## All lines -/

/-- The line feeds of a text are those of its bytes. -/
theorem cut_encodeText (text : List Char) :
    Lines.cut 10 (Utf8.encodeText text) =
      ((Lines.cut '\n' text).1.map Utf8.encodeText,
        Utf8.encodeText (Lines.cut '\n' text).2) := by
  induction text with
  | nil => rfl
  | cons c rest ih =>
      show Lines.cut 10 (Utf8.encode c ++ Utf8.encodeText rest) = _
      by_cases hc : c = '\n'
      · subst hc
        show Lines.cut 10 (10 :: Utf8.encodeText rest) = _
        rw [Lines.cut_cons_sep, Lines.cut_cons_sep, ih]
        rfl
      · rw [Lines.cut_append,
          Lines.cut_of_not_mem (Utf8.newline_not_mem_encode hc),
          Lines.cut_cons_ne hc, ih]
        generalize Lines.cut '\n' rest = lines
        obtain ⟨lines, tail⟩ := lines
        cases lines with
        | nil => rfl
        | cons line lines => rfl

/-- Two lists agree under two maps exactly where their members do. -/
theorem map_eq_map_iff {α β γ δ : Type} {f : α → γ} {g : β → γ}
    {p : α → δ} {q : β → δ} {R : α → β → Prop}
    (hR : ∀ a b, p a = q b → (f a = g b ↔ R a b)) :
    ∀ {as : List α} {bs : List β}, as.map p = bs.map q →
      (as.map f = bs.map g ↔ List.Forall₂ R as bs) := by
  intro as
  induction as with
  | nil =>
      intro bs hpq
      cases bs with
      | nil => simp
      | cons b bs => cases hpq
  | cons a as ih =>
      intro bs hpq
      cases bs with
      | nil => cases hpq
      | cons b bs =>
          rw [List.map_cons, List.map_cons, List.cons.injEq] at hpq
          rw [List.map_cons, List.map_cons, List.cons.injEq,
            List.forall₂_cons, hR a b hpq.1, ih hpq.2]

/-- A parser reads the chunks as the text line by line exactly where every
line is kept. -/
theorem agrees_iff (r : LineRules) (maxLine : Nat) (t : CutText) :
    r.Agrees maxLine t (t.chunks.foldl (r.feed maxLine) .start) ↔
      r.Kept maxLine t := by
  have htext := Lines.arrive_text 10 t.chunks
  rw [t.bytes, cut_encodeText] at htext
  unfold LineRules.Agrees LineRules.lineByLine LineRules.Kept
  rw [(foldl_feed r maxLine t.chunks).2]
  unfold LineRules.framed
  dsimp only
  rw [Prod.mk.injEq, arriving_iff]
  exact and_congr_left' (map_eq_map_iff (events_iff r maxLine) htext.1)

/-- Both parsers read the chunks of a text as the text line by line exactly
where every complete line within the maximum has no character in two chunks,
of every line past it one chunk inside ends past the maximum with nothing but
blanks after it, and the open line is reported where it is past the
maximum. -/
theorem line_parsers_iff (t : CutText) (maxLine : Nat) :
    (jsRules.Agrees maxLine t (makeLineParser maxLine t.chunks) ↔
        jsRules.Kept maxLine t) ∧
      (rustRules.Agrees maxFrame t (lineParserFeed t.chunks) ↔
        rustRules.Kept maxFrame t) :=
  ⟨agrees_iff jsRules maxLine t, agrees_iff rustRules maxFrame t⟩

/-- A line of one character, whose two bytes come in two chunks. -/
def splitText : CutText where
  text := ['é', '\n']
  chunks := [[0xC3], [0xA9, 10]]
  bytes := by decide

/-- Both parsers read two replacements for the character. -/
theorem line_parsers_split :
    ¬ ∀ (t : CutText) (maxLine : Nat),
      jsRules.Agrees maxLine t (makeLineParser maxLine t.chunks) ∧
        rustRules.Agrees maxFrame t (lineParserFeed t.chunks) := by
  intro h
  have hjs := (h splitText maxFrame).1
  unfold LineRules.Agrees at hjs
  revert hjs
  decide +kernel

/-- What is still to come of a line over the maximum is read as a line. -/
example : makeLineParser 3 [[97, 97, 97, 97], [123, 125, 10]] =
    { buf := [], ended := [[.tooLong, .text ['{', '}']]], current := [] } := by
  decide +kernel

/-- A line over the maximum that comes with its line feed is read. -/
example : makeLineParser 3 [[123, 32, 32, 32, 125, 10]] =
    { buf := [], ended := [[.text ['{', ' ', ' ', ' ', '}']]],
      current := [] } := by
  decide +kernel

end AirNote
