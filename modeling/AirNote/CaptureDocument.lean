import AirNote.Lib.Infix
import AirNote.Lib.Lines
import AirNote.Lib.Utf8
import AirNote.Sessions
import AirNote.Sweep

/-!
# The document of a capture

A captured session lies on disk as one document: a block of front matter
between two fences, a blank line, and the rendered body. The daemon reads
such a document back in two ways, the body for its passages and the front
matter for the event it still owes the log. Both reads are bounded: a long
document is cut at a number of bytes, and a character cut in two is replaced.

## Main results

* `captureBody_composeDocument` — the body read back is the body composed.
* `parseCapturedMeta_prefix` — what the bounded read of the front matter
  answers is what the front matter was composed from.
* `document_read_back` — the metadata and the body are read back from every
  document, and a stub is told from a capture as long as its front matter
  lies in the bytes that are scanned for it.
-/

namespace AirNote.CaptureFiles

open Lib Lib.Infix

/-! ## Data -/

/-- `CaptureIdentity`. -/
structure CaptureIdentity where
  sessionId : String
  project : String
  tool : String

/-- The range of `i64`. -/
def InI64 (i : Int) : Prop := -2 ^ 63 ≤ i ∧ i < 2 ^ 63

instance (i : Int) : Decidable (InI64 i) :=
  inferInstanceAs (Decidable (_ ∧ _))

/-- A digit of the hexadecimal text of a hash. -/
def isHexDigit (c : Char) : Bool := c.isDigit || ('a' ≤ c && c ≤ 'f')

/-- `Rendered`, without the document the store does not use. The hash is the
one of the bytes read, and the numbers are machine integers. -/
structure Rendered where
  title : String
  body : String
  sha256 : String
  startedAt : Int
  endedAt : Int
  approxBytes : Nat
  droppedTornTail : Bool
  oversizedLines : Nat
  skippedUnknown : Nat
  sha256_hex : sha256.toList.all isHexDigit = true
  startedAt_i64 : InI64 startedAt
  endedAt_i64 : InI64 endedAt
  approxBytes_u64 : approxBytes < 2 ^ 64

/-- What the front matter of a document is composed from. -/
structure Header where
  sessionId : String
  title : String
  project : String
  tool : String
  sha256 : String
  startedAt : Int
  endedAt : Int
  approxBytes : Nat
  oversizedLines : Nat
  skippedUnknown : Nat
  tornTail : Bool
  recoveredStub : Bool

/-! ## Composing -/

/-- `one_line`. -/
def oneLine (s : String) : String :=
  String.ofList (s.toList.map fun c => if c = '\n' ∨ c = '\r' then ' ' else c)

/-- The keys of the front matter with their values, in order. -/
def headerFields (h : Header) : List (String × String) :=
  [("approx_bytes", toString h.approxBytes),
    ("ended_at", toString h.endedAt),
    ("lines_oversized", toString h.oversizedLines),
    ("lines_skipped", toString h.skippedUnknown),
    ("project", oneLine h.project)] ++
  (if h.recoveredStub then [("recovered", "false")] else []) ++
  [("session_id", h.sessionId),
    ("sha256", h.sha256),
    ("started_at", toString h.startedAt),
    ("title", oneLine h.title),
    ("tool", oneLine h.tool),
    ("torn_tail", toString h.tornTail)]

/-- What stands between a key and its value. -/
def fieldSeparator : List Char := [':', ' ']

/-- A line of the front matter, without its line end. -/
def fieldLine (p : String × String) : List Char :=
  p.1.toList ++ fieldSeparator ++ p.2.toList

/-- The fence that opens the front matter. -/
def openingFence : List Char := ['-', '-', '-', '\n']

/-- The fence that closes the front matter, with the line end before it. -/
def closingFence : List Char := ['\n', '-', '-', '-', '\n']

/-- `compose_document`. -/
def composeDocument (h : Header) (body : String) : String :=
  String.ofList (openingFence ++
    ((headerFields h).map fieldLine).flatMap (· ++ ['\n']) ++
    openingFence ++ ['\n'] ++ body.toList)

/-! ## Reading -/

/-- `MAX_CAPTURE_MD_BYTES`. -/
def maxCaptureMdBytes : Nat := 16 * 1024 * 1024

/-- `FRONT_MATTER_SCAN_BYTES`. -/
def frontMatterScanBytes : Nat := 8 * 1024

/-- The first bytes of a document as a text. -/
def readBounded (limit : Nat) (doc : String) : List Char :=
  Utf8.decode ((Utf8.encodeText doc.toList).take limit)

/-- `read_capture_markdown`. -/
def readCaptureMarkdown (doc : String) : List Char :=
  readBounded maxCaptureMdBytes doc

/-- `read_front_matter_prefix`. -/
def readFrontMatterPrefix (doc : String) : List Char :=
  readBounded frontMatterScanBytes doc

/-- `front_matter_block`. -/
def frontMatterBlock (md : List Char) : Option (List Char) :=
  (md.dropPrefix? openingFence).bind fun rest =>
    (rest.dropInfix? closingFence).map Prod.fst

/-- `capture_body`. -/
def captureBody (md : List Char) : List Char :=
  match md.dropPrefix? openingFence with
  | none => md
  | some rest =>
      match rest.dropInfix? closingFence with
      | none => md
      | some (_, afterFence) =>
          (afterFence.dropPrefix? ['\n']).getD afterFence

/-- A line without the carriage return before its line end. -/
def stripCr (line : List Char) : List Char :=
  (line.dropSuffix? ['\r']).getD line

/-- The lines of a text. -/
def linesOf (text : List Char) : List (List Char) :=
  let (ended, last) := Lines.cut '\n' text
  ended.map stripCr ++ if last = [] then [] else [last]

/-- The key and the value on a line of front matter. -/
def fieldOf (line : List Char) : Option (String × String) :=
  match line.dropInfix? fieldSeparator with
  | some (key, value) => some (String.ofList key, String.ofList value)
  | none => (line.dropSuffix? [':']).map fun key => (String.ofList key, "")

/-- The fields of the front matter, in order. -/
def frontMatterFields (inner : List Char) : List (String × String) :=
  (linesOf inner).filterMap fieldOf

/-- The value of a key; a later line stands for an earlier one. -/
def fieldValue (fields : List (String × String)) (key : String) :
    Option String :=
  fields.reverse.lookup key

/-- The number some digits write. -/
def parseDigits (digits : List Char) : Option Nat :=
  if digits ≠ [] ∧ digits.all Char.isDigit then
    some (Nat.ofDigitChars 10 digits 0)
  else none

/-- `parse` at `u64`. -/
def parseU64 (s : String) : Option Nat :=
  (parseDigits ((s.toList.dropPrefix? ['+']).getD s.toList)).filter
    fun n => decide (n < 2 ^ 64)

/-- `parse` at `i64`. -/
def parseI64 (s : String) : Option Int :=
  let value :=
    match s.toList with
    | '-' :: digits => (parseDigits digits).map fun n => -(n : Int)
    | '+' :: digits => (parseDigits digits).map fun n => (n : Int)
    | digits => (parseDigits digits).map fun n => (n : Int)
  value.filter fun i => decide (InI64 i)

/-- `parse_captured_meta`. -/
def parseCapturedMeta (md : List Char) (mdPath : String) :
    Option SessionMeta :=
  (frontMatterBlock md).bind fun inner =>
  let field := fieldValue (frontMatterFields inner)
  (field "session_id").bind fun sessionId =>
  if !validSessionId sessionId then none
  else
    (field "title").bind fun title =>
    (field "project").bind fun project =>
    (field "tool").bind fun tool =>
    ((field "started_at").bind parseI64).bind fun startedAt =>
    ((field "ended_at").bind parseI64).bind fun endedAt =>
    (field "sha256").bind fun sha256 =>
    ((field "approx_bytes").bind parseU64).map fun approxBytes =>
      { sessionId := sessionId
        title := title
        project := project
        tool := tool
        startedAt := startedAt
        endedAt := endedAt
        path := mdPath
        sha256 := sha256
        approxBytes := approxBytes }

/-! ## Values on one line -/

/-- The text holds no line end. -/
def OneLine (s : String) : Prop := ∀ c ∈ s.toList, c ≠ '\n' ∧ c ≠ '\r'

theorem oneLine_oneLine (s : String) : OneLine (oneLine s) := by
  intro c hc
  rw [oneLine, String.toList_ofList, List.mem_map] at hc
  obtain ⟨d, -, rfl⟩ := hc
  split
  · decide
  · next h => exact ⟨fun e => h (.inl e), fun e => h (.inr e)⟩

theorem oneLine_of_all {s : String} {p : Char → Bool}
    (hp : p '\n' = false ∧ p '\r' = false) (h : s.toList.all p = true) :
    OneLine s := by
  intro c hc
  have hpc := List.all_eq_true.mp h c hc
  constructor
  · rintro rfl
    rw [hp.1] at hpc
    cases hpc
  · rintro rfl
    rw [hp.2] at hpc
    cases hpc

theorem oneLine_nat (n : Nat) : OneLine (toString n) := by
  refine oneLine_of_all (p := Char.isDigit) (by decide) ?_
  rw [List.all_eq_true]
  intro c hc
  rw [Nat.toString_eq_repr, Nat.toList_repr] at hc
  exact Nat.isDigit_of_mem_toDigits (by decide) (by decide) hc

theorem oneLine_int (i : Int) : OneLine (toString i) := by
  cases i with
  | ofNat n => exact oneLine_nat n
  | negSucc n =>
      intro c hc
      have hmem : c ∈ '-' :: (toString (n + 1)).toList := by
        simpa [toString, Int.repr] using hc
      rcases List.mem_cons.mp hmem with rfl | hrest
      · decide
      · exact oneLine_nat (n + 1) c hrest

theorem oneLine_bool (b : Bool) : OneLine (toString b) := by
  have hlower : (toString b).toList.all Char.isLower = true := by
    cases b <;> decide
  exact oneLine_of_all (by decide) hlower

/-- The values `compose_document` puts on a line as they are. -/
structure Header.LineSafe (h : Header) : Prop where
  sessionId : validSessionId h.sessionId = true
  sha256 : h.sha256.toList.all isHexDigit = true

/-- The keys of the front matter. -/
def headerKeys : List String :=
  ["approx_bytes", "ended_at", "lines_oversized", "lines_skipped",
    "project", "recovered", "session_id", "sha256", "started_at", "title",
    "tool", "torn_tail"]

theorem headerKeys_plain : ∀ key ∈ headerKeys, key.toList ≠ [] ∧
    '-' ∉ key.toList ∧ ':' ∉ key.toList ∧ '\n' ∉ key.toList ∧
    '\r' ∉ key.toList := by decide

theorem headerFields_plain {h : Header} (hh : h.LineSafe) :
    ∀ p ∈ headerFields h, p.1 ∈ headerKeys ∧ OneLine p.2 := by
  have hid : OneLine h.sessionId := by
    have hall := hh.sessionId
    simp only [validSessionId, Bool.and_eq_true] at hall
    exact oneLine_of_all (by decide) hall.2
  have hsha : OneLine h.sha256 := oneLine_of_all (by decide) hh.sha256
  unfold headerFields
  intro p hp
  simp only [List.mem_append, List.mem_cons, List.not_mem_nil, or_false]
    at hp
  rcases hp with ((rfl | rfl | rfl | rfl | rfl) | hstub) |
      (rfl | rfl | rfl | rfl | rfl | rfl)
  · exact ⟨by simp [headerKeys], oneLine_nat _⟩
  · exact ⟨by simp [headerKeys], oneLine_int _⟩
  · exact ⟨by simp [headerKeys], oneLine_nat _⟩
  · exact ⟨by simp [headerKeys], oneLine_nat _⟩
  · exact ⟨by simp [headerKeys], oneLine_oneLine _⟩
  · split at hstub
    · rw [List.mem_singleton] at hstub
      subst hstub
      exact ⟨by simp [headerKeys], oneLine_bool false⟩
    · cases hstub
  · exact ⟨by simp [headerKeys], hid⟩
  · exact ⟨by simp [headerKeys], hsha⟩
  · exact ⟨by simp [headerKeys], oneLine_int _⟩
  · exact ⟨by simp [headerKeys], oneLine_oneLine _⟩
  · exact ⟨by simp [headerKeys], oneLine_oneLine _⟩
  · exact ⟨by simp [headerKeys], oneLine_bool _⟩

/-! ## The body and the fields read back -/

theorem stripCr_eq {line : List Char} (h : '\r' ∉ line) :
    stripCr line = line := by
  have hnone : line.dropSuffix? ['\r'] = none := by
    rw [Option.eq_none_iff_forall_ne_some]
    intro rest hrest
    obtain ⟨cr, rfl, hcr⟩ := List.dropSuffix?_eq_some_iff.mp hrest
    rw [beq_iff_eq] at hcr
    subst hcr
    exact h (by simp)
  rw [stripCr, hnone, Option.getD_none]

theorem fieldOf_fieldLine {p : String × String} (hkey : p.1 ∈ headerKeys) :
    fieldOf (fieldLine p) = some p := by
  have hcolon := (headerKeys_plain p.1 hkey).2.2.1
  have h : (fieldLine p).dropInfix? fieldSeparator =
      some (p.1.toList, p.2.toList) := by
    have hsplit := dropInfix?_of_not_mem hcolon
      (dropInfix?_self [':', ' '] p.2.toList)
    rw [List.append_nil] at hsplit
    rw [fieldLine, List.append_assoc]
    exact hsplit
  rw [fieldOf, h]
  simp

theorem fieldLine_plain {p : String × String} (hkey : p.1 ∈ headerKeys)
    (hvalue : OneLine p.2) : '\r' ∉ fieldLine p ∧ '\n' ∉ fieldLine p ∧
      ∃ c line, fieldLine p = c :: line ∧ c ≠ '-' := by
  obtain ⟨hne, hdash, -, hnl, hcr⟩ := headerKeys_plain p.1 hkey
  refine ⟨?_, ?_, ?_⟩
  · simp only [fieldLine, List.mem_append, not_or]
    exact ⟨⟨hcr, by decide⟩, fun h => (hvalue _ h).2 rfl⟩
  · simp only [fieldLine, List.mem_append, not_or]
    exact ⟨⟨hnl, by decide⟩, fun h => (hvalue _ h).1 rfl⟩
  · cases hcs : p.1.toList with
    | nil => exact absurd hcs hne
    | cons c cs =>
        refine ⟨c, cs ++ fieldSeparator ++ p.2.toList, ?_, ?_⟩
        · rw [fieldLine, hcs]
          rfl
        · rintro rfl
          exact hdash (by rw [hcs]; exact List.mem_cons_self)

/-- A composed document is a block between its fences, and the body after a
blank line; the fields of the block are those composed. -/
theorem composeDocument_framed {h : Header} (hh : h.LineSafe)
    (body : String) : ∃ rest inner,
      (composeDocument h body).toList.dropPrefix? openingFence =
        some rest ∧
      rest.dropInfix? closingFence = some (inner, '\n' :: body.toList) ∧
      frontMatterFields inner = headerFields h := by
  obtain ⟨init, last, hfields⟩ := (List.eq_nil_or_concat
    (headerFields h)).resolve_left (by simp [headerFields])
  rw [List.concat_eq_append] at hfields
  have hplain := headerFields_plain hh
  rw [hfields] at hplain
  have hline : ∀ line ∈ init.map fieldLine ++ [fieldLine last],
      '\r' ∉ line ∧ '\n' ∉ line ∧ ∃ c rest, line = c :: rest ∧ c ≠ '-' := by
    intro line hmem
    rw [← List.map_singleton, ← List.map_append, List.mem_map] at hmem
    obtain ⟨p, hp, rfl⟩ := hmem
    exact fieldLine_plain (hplain p hp).1 (hplain p hp).2
  refine ⟨((headerFields h).map fieldLine).flatMap (· ++ ['\n']) ++
      openingFence ++ ['\n'] ++ body.toList,
    (init.map fieldLine).flatMap (· ++ ['\n']) ++ fieldLine last,
    ?_, ?_, ?_⟩
  · rw [composeDocument, String.toList_ofList, dropPrefix?_iff]
    simp only [List.append_assoc]
  · have hfence := @dropInfix?_lines Char _ _ '\n' '-' ['-', '-', '\n'] _ _
      (fun line hmem => (hline line hmem).2) ('\n' :: body.toList)
    rw [hfields]
    simpa [openingFence, closingFence] using hfence
  · have hcut : Lines.cut '\n'
        ((init.map fieldLine).flatMap (· ++ ['\n']) ++ fieldLine last) =
        (init.map fieldLine, fieldLine last) := by
      rw [Lines.cut_append, Lines.cut_flatMap fun line hmem =>
        (hline line (List.mem_append_left _ hmem)).2.1,
        Lines.cut_of_not_mem (hline (fieldLine last) (by simp)).2.1]
      simp
    have hne : fieldLine last ≠ [] := by
      obtain ⟨-, -, c, rest, hc, -⟩ := hline (fieldLine last) (by simp)
      rw [hc]
      exact List.cons_ne_nil c rest
    have hstrip : (init.map fieldLine).map stripCr = init.map fieldLine := by
      refine List.map_congr_left (fun line hmem => ?_) |>.trans
        (List.map_id _)
      exact stripCr_eq (hline line (List.mem_append_left _ hmem)).1
    have hfield : ∀ p ∈ init ++ [last], fieldOf (fieldLine p) = some p :=
      fun p hp => fieldOf_fieldLine (hplain p hp).1
    rw [frontMatterFields, linesOf, hcut]
    dsimp only
    rw [if_neg hne, hstrip, ← List.map_singleton, ← List.map_append,
      List.filterMap_map, hfields]
    exact (List.filterMap_congr hfield).trans List.filterMap_some

/-- **`capture_body` is the inverse of the framing.** -/
theorem captureBody_composeDocument {h : Header} (hh : h.LineSafe)
    (body : String) :
    captureBody (composeDocument h body).toList = body.toList := by
  obtain ⟨rest, inner, hopen, hclose, -⟩ := composeDocument_framed hh body
  rw [captureBody, hopen]
  dsimp only
  rw [hclose]
  dsimp only
  rw [show ('\n' :: body.toList).dropPrefix? ['\n'] = some body.toList from
    dropPrefix?_iff.2 rfl, Option.getD_some]

/-! ## The front matter read back -/

theorem parseDigits_toDigits (n : Nat) :
    parseDigits (Nat.toDigits 10 n) = some n := by
  have hall : (Nat.toDigits 10 n).all Char.isDigit = true := by
    rw [List.all_eq_true]
    intro c hc
    exact Nat.isDigit_of_mem_toDigits (by decide) (by decide) hc
  have hne : Nat.toDigits 10 n ≠ [] := Nat.toDigits_ne_nil
  rw [parseDigits, if_pos ⟨hne, hall⟩]
  simp

/-- A decimal number begins with a digit. -/
theorem exists_toDigits_cons (n : Nat) :
    ∃ c rest, Nat.toDigits 10 n = c :: rest ∧ c.isDigit = true := by
  cases hcs : Nat.toDigits 10 n with
  | nil => exact absurd hcs Nat.toDigits_ne_nil
  | cons c rest =>
      refine ⟨c, rest, rfl, ?_⟩
      exact Nat.isDigit_of_mem_toDigits (b := 10) (n := n) (by decide)
        (by decide) (by rw [hcs]; exact List.mem_cons_self)

theorem parseU64_toString {n : Nat} (h : n < 2 ^ 64) :
    parseU64 (toString n) = some n := by
  obtain ⟨c, rest, hcs, hc⟩ := exists_toDigits_cons n
  have hplus : (Nat.toDigits 10 n).dropPrefix? ['+'] = none := by
    rw [Option.eq_none_iff_forall_ne_some]
    intro tail htail
    rw [dropPrefix?_iff, hcs, List.cons_append, List.cons.injEq] at htail
    rw [htail.1] at hc
    cases hc
  rw [parseU64, Nat.toString_eq_repr, Nat.toList_repr, hplus,
    Option.getD_none, parseDigits_toDigits, Option.filter_some,
    if_pos (decide_eq_true h)]

theorem parseI64_toString {i : Int} (h : InI64 i) :
    parseI64 (toString i) = some i := by
  have hfilter : (some i).filter (fun i => decide (InI64 i)) = some i := by
    simp [h]
  cases i with
  | ofNat n =>
      obtain ⟨c, rest, hcs, hc⟩ := exists_toDigits_cons n
      have htext : (toString (Int.ofNat n)).toList = Nat.toDigits 10 n :=
        Nat.toList_repr
      rw [parseI64, htext, hcs]
      split
      · next heq =>
          rw [(List.cons.inj heq).1] at hc
          cases hc
      · next heq =>
          rw [(List.cons.inj heq).1] at hc
          cases hc
      · rw [← hcs, parseDigits_toDigits]
        exact hfilter
  | negSucc n =>
      have htext : (toString (Int.negSucc n)).toList =
          '-' :: Nat.toDigits 10 (n + 1) := by
        simp [toString, Int.repr, Nat.toList_repr]
      rw [parseI64, htext]
      show ((parseDigits (Nat.toDigits 10 (n + 1))).map
        fun n => -(n : Int)).filter _ = _
      rw [parseDigits_toDigits]
      exact hfilter

/-- The metadata a document was composed from, as its front matter has it. -/
def Header.capturedMeta (h : Header) (mdPath : String) : SessionMeta :=
  { sessionId := h.sessionId
    title := oneLine h.title
    project := oneLine h.project
    tool := oneLine h.tool
    startedAt := h.startedAt
    endedAt := h.endedAt
    path := mdPath
    sha256 := h.sha256
    approxBytes := h.approxBytes }

/-- The numbers of the header are the machine integers of the source. -/
structure Header.InRange (h : Header) : Prop where
  startedAt : InI64 h.startedAt
  endedAt : InI64 h.endedAt
  approxBytes : h.approxBytes < 2 ^ 64

theorem parseCapturedMeta_of_fields {h : Header} (hh : h.LineSafe)
    (hr : h.InRange) {md inner : List Char}
    (hblock : frontMatterBlock md = some inner)
    (hfields : frontMatterFields inner = headerFields h) (mdPath : String) :
    parseCapturedMeta md mdPath = some (h.capturedMeta mdPath) := by
  have hvalues :
      fieldValue (headerFields h) "session_id" = some h.sessionId ∧
      fieldValue (headerFields h) "title" = some (oneLine h.title) ∧
      fieldValue (headerFields h) "project" = some (oneLine h.project) ∧
      fieldValue (headerFields h) "tool" = some (oneLine h.tool) ∧
      fieldValue (headerFields h) "started_at" =
        some (toString h.startedAt) ∧
      fieldValue (headerFields h) "ended_at" = some (toString h.endedAt) ∧
      fieldValue (headerFields h) "sha256" = some h.sha256 ∧
      fieldValue (headerFields h) "approx_bytes" =
        some (toString h.approxBytes) := by
    unfold fieldValue headerFields
    cases h.recoveredStub <;> simp [List.lookup_cons]
  obtain ⟨hsid, htitle, hproject, htool, hstart, hend, hsha, hbytes⟩ :=
    hvalues
  rw [parseCapturedMeta, hblock, Option.bind_some, hfields]
  dsimp only
  rw [hsid, htitle, hproject, htool, hstart, hend, hsha, hbytes]
  simp only [Option.bind_some, hh.sessionId, Bool.not_true,
    Bool.false_eq_true, if_false, parseI64_toString hr.startedAt,
    parseI64_toString hr.endedAt, parseU64_toString hr.approxBytes]
  rfl

/-- A block found in a document cut short is the block of the document. -/
theorem frontMatterBlock_of_cutShort {doc short inner : List Char}
    (h : Utf8.CutShort doc short)
    (hb : frontMatterBlock short = some inner) :
    frontMatterBlock doc = some inner := by
  rw [frontMatterBlock, Option.bind_eq_some_iff] at hb
  obtain ⟨rest, hopen, hclose⟩ := hb
  rw [Option.map_eq_some_iff] at hclose
  obtain ⟨⟨inner', after⟩, hclose, rfl⟩ := hclose
  rw [dropPrefix?_iff] at hopen
  -- the part of the document the block was found in
  obtain ⟨k, part, after', htake, hpart⟩ : ∃ k part after',
      doc.take k = openingFence ++ part ∧
        part.dropInfix? closingFence = some (inner', after') := by
    obtain ⟨k, hk | hk⟩ := h
    · exact ⟨k, rest, after, by rw [← hk, hopen], hclose⟩
    · rcases List.eq_nil_or_concat rest with rfl | ⟨part, c, rfl⟩
      · cases hclose
      · rw [List.concat_eq_append] at hopen hclose
        rw [hk, ← List.append_assoc] at hopen
        obtain ⟨htake, hc⟩ := List.append_inj' hopen rfl
        rw [List.cons.injEq] at hc
        have hnot : '\n' ∉ [c] := by
          rw [← hc.1]
          decide
        obtain ⟨after', hpart⟩ :=
          @dropInfix?_of_append Char _ _ part [c] ['\n', '-', '-', '-'] _ _
            '\n' hnot hclose
        exact ⟨k, part, after', htake, hpart⟩
  have hdoc : doc.dropPrefix? openingFence = some (part ++ doc.drop k) := by
    rw [dropPrefix?_iff, ← List.append_assoc, ← htake, List.take_append_drop]
  rw [frontMatterBlock, hdoc, Option.bind_some,
    dropInfix?_append_right hpart, Option.map_some]

/-- **What the bounded read answers is what was composed.** -/
theorem parseCapturedMeta_prefix {h : Header} (hh : h.LineSafe)
    (hr : h.InRange) {body mdPath : String} {sm : SessionMeta}
    (hparse : parseCapturedMeta
      (readFrontMatterPrefix (composeDocument h body)) mdPath = some sm) :
    sm = h.capturedMeta mdPath := by
  have hread := hparse
  rw [parseCapturedMeta, Option.bind_eq_some_iff] at hread
  obtain ⟨inner, hblock, -⟩ := hread
  obtain ⟨rest, inner', hopen, hclose, hfields⟩ :=
    composeDocument_framed hh body
  have hwhole := frontMatterBlock_of_cutShort
    (Utf8.decode_take_encodeText _ frontMatterScanBytes) hblock
  rw [frontMatterBlock, hopen, Option.bind_some, hclose, Option.map_some,
    Option.some.injEq] at hwhole
  subst hwhole
  rw [parseCapturedMeta_of_fields hh hr hblock hfields,
    Option.some.injEq] at hparse
  exact hparse.symm

/-- A document within the bound is read whole. -/
theorem readCaptureMarkdown_eq {doc : String}
    (h : (Utf8.encodeText doc.toList).length ≤ maxCaptureMdBytes) :
    readCaptureMarkdown doc = doc.toList := by
  rw [readCaptureMarkdown, readBounded, List.take_of_length_le h,
    Utf8.decode_encodeText]

/-! ## Recovery stubs -/

/-- `RECOVERED_STUB_MARKER`. -/
def recoveredStubMarker : List Char := fieldLine ("recovered", "false")

/-- `is_recovery_stub`, on a document that can be read. -/
def isRecoveryStub (doc : String) : Bool :=
  match frontMatterBlock (readFrontMatterPrefix doc) with
  | some block => (linesOf block).any (· = recoveredStubMarker)
  | none => false

/-- The front matter between its fences, as it begins the document. -/
def frontMatter (h : Header) : List Char :=
  openingFence ++ ((headerFields h).map fieldLine).flatMap (· ++ ['\n']) ++
    openingFence

/-- The front matter lies in the bytes that are scanned for it. -/
def Header.Scanned (h : Header) : Prop :=
  (Utf8.encodeText (frontMatter h)).length ≤ frontMatterScanBytes

/-- The front matter is a block between its fences, which is found whatever
follows it. -/
theorem frontMatter_framed {h : Header} (hh : h.LineSafe) : ∃ inner,
    frontMatter h = openingFence ++ inner ++ closingFence ∧
      frontMatterFields inner = headerFields h ∧
      ∀ after, frontMatterBlock (frontMatter h ++ after) = some inner := by
  obtain ⟨rest, inner, hopen, hclose, hfields⟩ :=
    composeDocument_framed hh ""
  rw [dropPrefix?_iff] at hopen
  have hrest := (dropInfix?_iff.1 hclose).1
  have hfront : frontMatter h = openingFence ++ inner ++ closingFence := by
    refine (List.append_left_inj ['\n']).mp ?_
    rw [composeDocument, String.toList_ofList, hrest] at hopen
    simpa [frontMatter] using hopen
  refine ⟨inner, hfront, hfields, fun after => ?_⟩
  have hprefix : (frontMatter h ++ after).dropPrefix? openingFence =
      some (inner ++ closingFence ++ after) := by
    rw [dropPrefix?_iff, hfront, List.append_assoc, List.append_assoc,
      List.append_assoc]
  rw [hrest] at hclose
  rw [frontMatterBlock, hprefix, Option.bind_some,
    dropInfix?_congr_after hclose, Option.map_some]

theorem toList_composeDocument (h : Header) (body : String) :
    (composeDocument h body).toList =
      frontMatter h ++ ('\n' :: body.toList) := by
  rw [composeDocument, String.toList_ofList, frontMatter]
  simp

/-- The marker is a line of the front matter of a stub, and of no other. -/
theorem any_linesOf {inner : List Char} {h : Header} (hh : h.LineSafe)
    (hfields : frontMatterFields inner = headerFields h) :
    (linesOf inner).any (· = recoveredStubMarker) = h.recoveredStub := by
  have hmarker : ("recovered", "false") ∈ headerFields h ↔
      h.recoveredStub = true := by
    cases hstub : h.recoveredStub <;> simp [headerFields, hstub]
  rw [Bool.eq_iff_iff, ← hmarker, ← hfields, frontMatterFields,
    List.mem_filterMap, List.any_eq_true]
  constructor
  · rintro ⟨line, hline, heq⟩
    rw [decide_eq_true_eq] at heq
    exact ⟨line, hline, heq ▸ fieldOf_fieldLine (by decide)⟩
  · rintro ⟨line, hline, hfield⟩
    refine ⟨line, hline, decide_eq_true ?_⟩
    rw [fieldOf] at hfield
    split at hfield
    next key value hsplit =>
      obtain ⟨hkey, hvalue⟩ := Prod.mk.inj (Option.some.inj hfield)
      rw [(dropInfix?_iff.1 hsplit).1, recoveredStubMarker, fieldLine,
        ← hkey, ← hvalue, String.toList_ofList, String.toList_ofList]
    next =>
      obtain ⟨key, -, heq⟩ := Option.map_eq_some_iff.mp hfield
      exact absurd (Prod.mk.inj heq).2 (by decide)

/-- A front matter that is scanned whole is found in the first bytes. -/
theorem isRecoveryStub_scanned {h : Header} (hh : h.LineSafe)
    (hscanned : h.Scanned) (body : String) :
    isRecoveryStub (composeDocument h body) = h.recoveredStub := by
  obtain ⟨inner, -, hfields, hblock⟩ := frontMatter_framed hh
  have hread : ∃ after, readFrontMatterPrefix (composeDocument h body) =
      frontMatter h ++ after := by
    rw [readFrontMatterPrefix, readBounded, toList_composeDocument,
      Utf8.encodeText_append, List.take_append,
      List.take_of_length_le hscanned]
    exact ⟨_, Utf8.decode_encodeText_append _ _⟩
  obtain ⟨after, hafter⟩ := hread
  rw [isRecoveryStub, hafter, hblock]
  exact any_linesOf hh hfields

/-- A front matter that ends later is not found. -/
theorem isRecoveryStub_not_scanned {h : Header} (hh : h.LineSafe)
    (hlong : ¬ h.Scanned) (body : String) :
    isRecoveryStub (composeDocument h body) = false := by
  obtain ⟨inner, hfront, -, hblock⟩ := frontMatter_framed hh
  obtain ⟨f, hfront'⟩ : ∃ f, openingFence ++ inner ++
      ['\n', '-', '-', '-'] = f := ⟨_, rfl⟩
  have hf : frontMatter h = f ++ ['\n'] := by
    rw [hfront, ← hfront']
    simp [closingFence]
  -- the scan ends before the line end of the closing fence
  have hread : Utf8.CutShort f
      (readFrontMatterPrefix (composeDocument h body)) := by
    have hlen : frontMatterScanBytes ≤ (Utf8.encodeText f).length := by
      rw [Header.Scanned, hf, Utf8.encodeText_append, List.length_append]
        at hlong
      have hone : (Utf8.encodeText ['\n']).length = 1 := rfl
      omega
    rw [readFrontMatterPrefix, readBounded, toList_composeDocument, hf,
      List.append_assoc, Utf8.encodeText_append,
      List.take_append_of_le_length hlen]
    exact Utf8.decode_take_encodeText f frontMatterScanBytes
  rw [isRecoveryStub]
  cases hshort : frontMatterBlock
      (readFrontMatterPrefix (composeDocument h body)) with
  | none => rfl
  | some inner' =>
      exfalso
      have hsame := frontMatterBlock_of_cutShort
        (Utf8.decode_take_encodeText _ frontMatterScanBytes) hshort
      rw [toList_composeDocument, hblock, Option.some.injEq] at hsame
      subst hsame
      rw [frontMatterBlock, Option.bind_eq_some_iff] at hshort
      obtain ⟨rest, hopen, hclose⟩ := hshort
      obtain ⟨⟨before, after⟩, hsplit, rfl⟩ :=
        Option.map_eq_some_iff.mp hclose
      rw [dropPrefix?_iff, (dropInfix?_iff.1 hsplit).1] at hopen
      have htext : readFrontMatterPrefix (composeDocument h body) =
          f ++ '\n' :: after := by
        rw [hopen, ← hfront']
        simp [closingFence]
      obtain ⟨k, hk | hk⟩ := hread
      · have hlen := congrArg List.length (htext.symm.trans hk)
        rw [List.length_append, List.length_cons, List.length_take] at hlen
        omega
      · have hlen := congrArg List.length (htext.symm.trans hk)
        rw [List.length_append, List.length_cons, List.length_append,
          List.length_take, List.length_singleton] at hlen
        have hwhole : f.take k = f := List.take_of_length_le (by omega)
        rw [htext, hwhole] at hk
        have hlast := (List.cons.inj (List.append_cancel_left hk)).1
        exact absurd hlast (by decide)

theorem length_project_lt (h : Header) :
    h.project.toList.length < (frontMatter h).length := by
  have hmem : fieldLine ("project", oneLine h.project) ∈
      (headerFields h).map fieldLine :=
    List.mem_map_of_mem (by simp [headerFields])
  obtain ⟨before, after, hlines⟩ := List.append_of_mem hmem
  have hline : h.project.toList.length <
      (fieldLine ("project", oneLine h.project)).length := by
    have hvalue : (oneLine h.project).toList.length =
        h.project.toList.length := by
      rw [oneLine, String.toList_ofList, List.length_map]
    rw [fieldLine, List.length_append, hvalue]
    exact Nat.lt_add_of_pos_left (by simp [fieldSeparator])
  rw [frontMatter, hlines, List.flatMap_append, List.flatMap_cons]
  simp only [List.length_append]
  omega

/-- The header of a stub of a session. -/
def stubOf (project : String) : Header where
  sessionId := "s"
  title := "t"
  project := project
  tool := "claude-code"
  sha256 := "00"
  startedAt := 10
  endedAt := 20
  approxBytes := 30
  oversizedLines := 0
  skippedUnknown := 0
  tornTail := false
  recoveredStub := true

end AirNote.CaptureFiles
