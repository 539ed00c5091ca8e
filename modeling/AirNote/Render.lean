import AirNote.Evolve
import AirNote.Lib.Hex
import AirNote.Lib.Lines
import AirNote.Memory
import Mathlib.Data.List.DropRight

/-!
# Rendering a transcript

The daemon renders a transcript line by line. Lines that are too long or that
are no JSON are counted and skipped, what follows the last line end is
dropped, and a message adds to the body and may give the title. A transcript
that is still being written is rendered many times; the passages of the
earlier renderings are only good if the later ones continue them.

## Main results

* `Grows.renderLine` — what one line adds.
* `renderBytes_take` — what the rendering of the first bytes of a transcript
  says of the rendering of the whole.
-/

namespace AirNote.Render

open Lib

/-! ## Data -/

/-- `RenderBounds`, without the bound on the whole transcript, which is
checked before the bytes are rendered. -/
structure RenderBounds where
  maxLineBytes : Nat

/-- `RenderError`, as far as rendering some bytes gives it. -/
inductive RenderError where
  | wallClock
  deriving DecidableEq

/-- The library functions a rendering is made with. -/
structure Libraries where
  /-- `serde_json::from_slice`. -/
  fromSlice : Bytes → Option Json
  /-- `serde_json::Value::to_string`. -/
  toText : Json → String
  /-- `DateTime::parse_from_rfc3339`, as seconds. -/
  parseEpoch : String → Option Int
  sha256 : Bytes → Bytes

/-- `Rendered`. A transcript is refused above 64 MiB, and has fewer lines
than the counters of the source can hold. -/
structure Rendered where
  title : String
  markdown : String
  body : String
  sha256 : String
  startedAt : Int
  endedAt : Int
  approxBytes : Nat
  droppedTornTail : Bool
  oversizedLines : Nat
  skippedUnknown : Nat

/-- The variables of the loop over the lines. -/
structure Progress where
  oversizedLines : Nat
  skippedUnknown : Nat
  startedAt : Option Int
  endedAt : Int
  title : Option String
  body : String

/-- Before the first line. -/
def Progress.start : Progress where
  oversizedLines := 0
  skippedUnknown := 0
  startedAt := none
  endedAt := 0
  title := none
  body := ""

/-- `Role`. -/
inductive Role where
  | user
  | assistant
  deriving DecidableEq

def Role.heading : Role → String
  | .user => "## You"
  | .assistant => "## Assistant"

/-! ## One message -/

/-- `TOOL_DETAIL_MAX_BYTES`. -/
def toolDetailMaxBytes : Nat := 160

/-- `TITLE_MAX_CHARS`. -/
def titleMaxChars : Nat := 120

/-- The loop of `collapse_ws`, after some output. -/
def collapseFrom (out : List Char) (prevWs : Bool) : List Char → List Char
  | [] => out
  | c :: rest =>
      if isUnicodeWhitespace c then
        collapseFrom (if out ≠ [] ∧ prevWs = false then out ++ [' '] else out)
          true rest
      else collapseFrom (out ++ [c]) false rest

/-- `collapse_ws`. -/
def collapseWs (s : String) : String :=
  String.ofList ((collapseFrom [] false s.toList).rdropWhile (· = ' '))

/-- `truncate_on_boundary`. -/
def truncateOnBoundary (s : String) (maxBytes : Nat) : String :=
  String.ofList (takeBytes maxBytes s.toList)

/-- What is written to the body. -/
def Progress.push (p : Progress) (text : String) : Progress :=
  { p with body := p.body ++ text }

/-- The title a text gives. -/
def titleOf (text : String) : String :=
  String.ofList ((collapseWs text).toList.take titleMaxChars)

/-- `emit_text`. -/
def emitText (role : Role) (text : String) (p : Progress) : Progress :=
  let titled :=
    if role = .user ∧ p.title = none ∧ titleOf text ≠ "" then
      { p with title := some (titleOf text) }
    else p
  titled.push (role.heading ++ "\n" ++ text ++ "\n\n")

/-- `emit_tool_use`. -/
def emitToolUse (L : Libraries) (block : Json) (p : Progress) : Progress :=
  let name := (block.getStr? "name").getD "tool"
  let detail :=
    match block.get? "input" with
    | some .null => ""
    | some input =>
        truncateOnBoundary (collapseWs (L.toText input)) toolDetailMaxBytes
    | none => ""
  p.push ("▸ " ++ name ++ (if detail = "" then "" else ": " ++ detail)
    ++ "\n")

/-- `emit_tool_result`. -/
def emitToolResult (block : Json) (p : Progress) : Progress :=
  let id := (block.getStr? "tool_use_id").getD ""
  p.push ("↩ tool_result" ++ (if id = "" then "" else " (" ++ id ++ ")")
    ++ "\n")

/-- What one block of a message adds. -/
def renderBlock (L : Libraries) (role : Role) (p : Progress) (block : Json) :
    Progress :=
  match block.getStr? "type" with
  | some "text" =>
      match block.getStr? "text" with
      | some text => emitText role text p
      | none => p
  | some "tool_use" => emitToolUse L block p
  | some "tool_result" => emitToolResult block p
  | _ => p

/-- `render_message`. -/
def renderMessage (L : Libraries) (val : Json) (role : Role) (p : Progress) :
    Progress :=
  match (val.get? "message").bind (·.get? "content") with
  | some (.str text) => emitText role text p
  | some (.arr blocks) => blocks.foldl (renderBlock L role) p
  | _ => p

/-! ## The lines -/

/-- The times of a line. -/
def Progress.timed (L : Libraries) (val : Json) (p : Progress) : Progress :=
  match (val.getStr? "timestamp").bind L.parseEpoch with
  | some epoch =>
      { p with startedAt := some (p.startedAt.getD epoch), endedAt := epoch }
  | none => p

/-- The body of the loop. -/
def renderLine (L : Libraries) (bounds : RenderBounds) (p : Progress)
    (seg : Bytes) : Progress :=
  if seg = [] then p
  else if seg.length > bounds.maxLineBytes then
    { p with oversizedLines := p.oversizedLines + 1 }
  else
    match L.fromSlice seg with
    | none => { p with skippedUnknown := p.skippedUnknown + 1 }
    | some val =>
        match val.getStr? "type" with
        | some "user" => renderMessage L val .user (p.timed L val)
        | some "assistant" => renderMessage L val .assistant (p.timed L val)
        | _ =>
            { p.timed L val with
              skippedUnknown := (p.timed L val).skippedUnknown + 1 }

/-- `WALL_CLOCK_CHECK_EVERY`. -/
def wallClockCheckEvery : Nat := 1024

/-- The loop, from a line on; `elapsed` tells whether the wall clock has run
out by the check at a line. -/
def renderLines (L : Libraries) (bounds : RenderBounds)
    (elapsed : Nat → Bool) : Nat → List Bytes → Progress →
    Except RenderError Progress
  | _, [], p => .ok p
  | i, seg :: rest, p =>
      if i % wallClockCheckEvery = 0 ∧ elapsed i = true then .error .wallClock
      else renderLines L bounds elapsed (i + 1) rest (renderLine L bounds p seg)

/-- `assemble`. -/
def assemble (sha256 : String) (startedAt endedAt : Int)
    (oversizedLines skippedUnknown : Nat) (droppedTornTail : Bool)
    (body : String) : String :=
  "---\n" ++ s!"ended_at: {endedAt}\n" ++
    s!"lines_oversized: {oversizedLines}\n" ++
    s!"lines_skipped: {skippedUnknown}\n" ++ s!"sha256: {sha256}\n" ++
    s!"started_at: {startedAt}\n" ++ s!"torn_tail: {droppedTornTail}\n" ++
    "---\n\n" ++ body

/-- The segments before line ends, and what stands after the last. -/
def segments (buf : Bytes) : List Bytes × Bytes := Lines.cut 10 buf

/-- `render_bytes`. -/
def renderBytes (L : Libraries) (bounds : RenderBounds)
    (elapsed : Nat → Bool) (buf : Bytes) : Except RenderError Rendered :=
  let sha256 := Hex.encode (L.sha256 buf)
  let droppedTornTail := decide (buf.getLast? ≠ some 10) &&
    decide ((segments buf).2 ≠ [])
  match renderLines L bounds elapsed 0 (segments buf).1 .start with
  | .error err => .error err
  | .ok p =>
      let startedAt := p.startedAt.getD 0
      .ok
        { title := p.title.getD ""
          markdown := assemble sha256 startedAt p.endedAt p.oversizedLines
            p.skippedUnknown droppedTornTail p.body
          body := p.body
          sha256 := sha256
          startedAt := startedAt
          endedAt := p.endedAt
          approxBytes := buf.length
          droppedTornTail := droppedTornTail
          oversizedLines := p.oversizedLines
          skippedUnknown := p.skippedUnknown }

/-! ## What a line adds -/

/-- What is known stays known. -/
structure Grows (p q : Progress) : Prop where
  oversizedLines : p.oversizedLines ≤ q.oversizedLines
  skippedUnknown : p.skippedUnknown ≤ q.skippedUnknown
  startedAt : ∀ epoch, p.startedAt = some epoch → q.startedAt = some epoch
  title : ∀ title, p.title = some title → q.title = some title
  body : p.body.toList <+: q.body.toList

theorem Grows.refl (p : Progress) : Grows p p where
  oversizedLines := Nat.le_refl _
  skippedUnknown := Nat.le_refl _
  startedAt _ h := h
  title _ h := h
  body := List.prefix_rfl

theorem Grows.trans {p q r : Progress} (hpq : Grows p q) (hqr : Grows q r) :
    Grows p r where
  oversizedLines := Nat.le_trans hpq.oversizedLines hqr.oversizedLines
  skippedUnknown := Nat.le_trans hpq.skippedUnknown hqr.skippedUnknown
  startedAt epoch h := hqr.startedAt epoch (hpq.startedAt epoch h)
  title title h := hqr.title title (hpq.title title h)
  body := hpq.body.trans hqr.body

theorem Grows.push (p : Progress) (text : String) : Grows p (p.push text) :=
  { Grows.refl p with
    body := by
      rw [Progress.push, String.toList_append]
      exact List.prefix_append _ _ }

theorem Grows.emitText (role : Role) (text : String) (p : Progress) :
    Grows p (emitText role text p) := by
  unfold Render.emitText
  refine Grows.trans ?_ (Grows.push _ _)
  split_ifs with h
  · exact { Grows.refl p with
      title := fun title htitle => by rw [h.2.1] at htitle; cases htitle }
  · exact Grows.refl p

theorem Grows.renderBlock (L : Libraries) (role : Role) (p : Progress)
    (block : Json) : Grows p (renderBlock L role p block) := by
  unfold Render.renderBlock
  split
  · split
    · exact Grows.emitText role _ p
    · exact Grows.refl p
  · exact Grows.push p _
  · exact Grows.push p _
  · exact Grows.refl p

theorem Grows.foldl {α : Type*} {step : Progress → α → Progress}
    (hstep : ∀ p a, Grows p (step p a)) (l : List α) :
    ∀ p, Grows p (l.foldl step p) := by
  induction l with
  | nil => exact Grows.refl
  | cons a l ih => exact fun p => (hstep p a).trans (ih (step p a))

theorem Grows.renderMessage (L : Libraries) (val : Json) (role : Role)
    (p : Progress) : Grows p (renderMessage L val role p) := by
  unfold Render.renderMessage
  split
  · exact Grows.emitText role _ p
  · exact Grows.foldl (Grows.renderBlock L role) _ p
  · exact Grows.refl p

theorem Grows.timed (L : Libraries) (val : Json) (p : Progress) :
    Grows p (p.timed L val) := by
  unfold Progress.timed
  split
  · exact { Grows.refl p with
      startedAt := fun epoch h => by rw [h]; rfl }
  · exact Grows.refl p

/-- **What one line adds.** -/
theorem Grows.renderLine (L : Libraries) (bounds : RenderBounds)
    (p : Progress) (seg : Bytes) : Grows p (renderLine L bounds p seg) := by
  unfold Render.renderLine
  split_ifs
  · exact Grows.refl p
  · exact { Grows.refl p with oversizedLines := Nat.le_succ _ }
  · split
    · exact { Grows.refl p with skippedUnknown := Nat.le_succ _ }
    · split
      · exact (Grows.timed L _ p).trans (Grows.renderMessage L _ _ _)
      · exact (Grows.timed L _ p).trans (Grows.renderMessage L _ _ _)
      · exact (Grows.timed L _ p).trans
          { Grows.refl _ with skippedUnknown := Nat.le_succ _ }

/-- A loop that finishes has folded over the lines. -/
theorem renderLines_eq {L : Libraries} {bounds : RenderBounds}
    {elapsed : Nat → Bool} (segs : List Bytes) : ∀ (i : Nat) (p q : Progress),
      renderLines L bounds elapsed i segs p = .ok q →
        q = segs.foldl (renderLine L bounds) p := by
  induction segs with
  | nil => exact fun _ p q h => (Except.ok.inj h).symm
  | cons seg rest ih =>
      intro i p q h
      rw [renderLines] at h
      split at h
      · cases h
      · exact ih _ _ _ h

/-- The progress after the lines of some bytes. -/
def progress (L : Libraries) (bounds : RenderBounds) (buf : Bytes) :
    Progress :=
  (segments buf).1.foldl (renderLine L bounds) .start

/-- A rendering that finishes has the progress of its lines. -/
theorem renderBytes_eq {L : Libraries} {bounds : RenderBounds}
    {elapsed : Nat → Bool} {buf : Bytes} {r : Rendered}
    (h : renderBytes L bounds elapsed buf = .ok r) :
    r.title = (progress L bounds buf).title.getD "" ∧
      r.body = (progress L bounds buf).body ∧
      r.startedAt = (progress L bounds buf).startedAt.getD 0 ∧
      r.endedAt = (progress L bounds buf).endedAt ∧
      r.oversizedLines = (progress L bounds buf).oversizedLines ∧
      r.skippedUnknown = (progress L bounds buf).skippedUnknown ∧
      (r.droppedTornTail = true ↔
        buf.getLast? ≠ some 10 ∧ (segments buf).2 ≠ []) := by
  rw [renderBytes] at h
  split at h
  next => cases h
  next p hp =>
    have hfold : p = progress L bounds buf := renderLines_eq _ _ _ _ hp
    obtain rfl := Except.ok.inj h
    subst hfold
    simp

/-- The first lines of some bytes are those of their first bytes. -/
theorem segments_take (buf : Bytes) (n : Nat) :
    (segments (buf.take n)).1 <+: (segments buf).1 := by
  have h := Lines.cut_append 10 (buf.take n) (buf.drop n)
  rw [List.take_append_drop] at h
  rw [segments, segments, h]
  exact List.prefix_append _ _

theorem progress_take (L : Libraries) (bounds : RenderBounds) (buf : Bytes)
    (n : Nat) :
    Grows (progress L bounds (buf.take n)) (progress L bounds buf) := by
  obtain ⟨more, hmore⟩ := segments_take buf n
  rw [progress, progress, ← hmore, List.foldl_append]
  exact Grows.foldl (Grows.renderLine L bounds) more _

/-- Bytes that end with a line end, and some without one. -/
theorem segments_append {head tail : Bytes}
    (hhead : head = [] ∨ head.getLast? = some 10) (htail : 10 ∉ tail) :
    segments (head ++ tail) = ((segments head).1, tail) := by
  have hrest : (Lines.cut 10 head).2 = [] := by
    rcases hhead with rfl | hlast
    · rfl
    · obtain ⟨init, rfl⟩ := List.getLast?_eq_some_iff.mp hlast
      rw [Lines.cut_append]
      rfl
  rw [segments, segments, Lines.cut_append, Lines.cut_of_not_mem htail, hrest,
    Lines.join_nil, List.append_nil]

/-- **The rendering of the first bytes of a transcript** continues to hold of
the whole: its body begins that of the whole, its title and start are those of
the whole once they are found, and its counters do not go down. A last line
that has no end yet adds nothing. -/
theorem renderBytes_take (L : Libraries) (bounds : RenderBounds)
    {elapsed elapsed' : Nat → Bool} {buf : Bytes} {n : Nat}
    {short long : Rendered}
    (hshort : renderBytes L bounds elapsed (buf.take n) = .ok short)
    (hlong : renderBytes L bounds elapsed' buf = .ok long) :
    short.body.toList <+: long.body.toList ∧
      (short.title ≠ "" → long.title = short.title) ∧
      ((progress L bounds (buf.take n)).startedAt ≠ none →
        long.startedAt = short.startedAt) ∧
      short.oversizedLines ≤ long.oversizedLines ∧
      short.skippedUnknown ≤ long.skippedUnknown ∧
      ∀ head tail, buf = head ++ tail →
        (head = [] ∨ head.getLast? = some 10) → 10 ∉ tail → n = head.length →
        short.body = long.body ∧ short.title = long.title ∧
          short.startedAt = long.startedAt ∧ short.endedAt = long.endedAt ∧
          short.oversizedLines = long.oversizedLines ∧
          short.skippedUnknown = long.skippedUnknown ∧
          (long.droppedTornTail = true ↔ tail ≠ []) := by
  obtain ⟨htitle, hbody, hstart, hend, hover, hskip, -⟩ :=
    renderBytes_eq hshort
  obtain ⟨htitle', hbody', hstart', hend', hover', hskip', htorn'⟩ :=
    renderBytes_eq hlong
  have hgrows := progress_take L bounds buf n
  refine ⟨?_, ?_, ?_, ?_, ?_, ?_⟩
  · rw [hbody, hbody']
    exact hgrows.body
  · intro hfound
    cases hp : (progress L bounds (buf.take n)).title with
    | none =>
        rw [htitle, hp] at hfound
        exact absurd rfl hfound
    | some title => rw [htitle, htitle', hp, hgrows.title title hp]
  · intro hfound
    obtain ⟨epoch, hp⟩ := Option.ne_none_iff_exists'.mp hfound
    rw [hstart, hstart', hp, hgrows.startedAt epoch hp]
  · rw [hover, hover']
    exact hgrows.oversizedLines
  · rw [hskip, hskip']
    exact hgrows.skippedUnknown
  · rintro head tail rfl hhead htail rfl
    have hsame : progress L bounds ((head ++ tail).take head.length) =
        progress L bounds (head ++ tail) := by
      rw [List.take_left', progress, progress, segments_append hhead htail]
      rfl
    rw [hsame] at htitle hbody hstart hend hover hskip
    refine ⟨hbody.trans hbody'.symm, htitle.trans htitle'.symm,
      hstart.trans hstart'.symm, hend.trans hend'.symm,
      hover.trans hover'.symm, hskip.trans hskip'.symm, ?_⟩
    rw [htorn', segments_append hhead htail]
    refine ⟨fun h => h.2, fun hne => ⟨fun hlast => htail ?_, hne⟩⟩
    rw [List.getLast?_append_of_ne_nil _ hne] at hlast
    exact List.mem_of_getLast? hlast

/-- Libraries that read every line as a prompt of its length. -/
def lengthLibraries : Libraries where
  fromSlice seg := some (.obj [("type", .str "user"),
    ("message", .obj [("content", .str (toString seg.length))])])
  toText _ := ""
  parseEpoch _ := none
  sha256 _ := []

theorem renderBytes_take_length :
    (∃ short long,
      renderBytes lengthLibraries ⟨9⟩ (fun _ => false) ([7, 10, 7].take 2) =
        .ok short ∧
      renderBytes lengthLibraries ⟨9⟩ (fun _ => false) [7, 10, 7] =
        .ok long ∧
      short.body.toList <+: long.body.toList ∧
      short.body = long.body) :=
  have h := @renderBytes_take lengthLibraries ⟨9⟩ (fun _ => false)
    (fun _ => false) [7, 10, 7] 2 _ _ rfl rfl
  ⟨_, _, rfl, rfl, h.1,
    (h.2.2.2.2.2 [7, 10] [7] rfl (.inr rfl) (by decide) rfl).1⟩

end AirNote.Render
