import Mathlib.Data.List.DropRight
import AirNote.LineParser
import AirNote.Memory
import AirNote.Lib.Landing
import AirNote.Lib.Utf16
import AirNote.Lib.Utf8

/-!
# The file tools

An agent of the desktop reads and writes text files in the folders the user
has approved. The tools are in the web view: they normalise the requested path
and look for a policy whose folder, normalised the same way, is a prefix of
it. The file is opened by a command on the other side, which trims the path it
is given by its own blanks and follows links.

Both sides work on the text of the path. A tool therefore touches a file
outside every approved folder where a link leads out of one, where a policy
has a blank path, and where the two sides trim a last name differently.

## Main results

* `normalizeFsPath_eq` — an absolute path normalises to the text of a place.
* `samePath_iff` — when the path that is checked is the path that is opened.
* `file_tools_confined` — what is enough for a tool to stay inside.
-/

namespace AirNote.FileTools

open Lib Lib.Paths Lib.FileTree

/-! ## Paths in the web view -/

/-- The text without blanks at its ends. -/
def trimBy (isSpace : Char → Bool) (cs : List Char) : List Char :=
  (cs.dropWhile isSpace).rdropWhile isSpace

/-- A blank of `String.prototype.trim`. -/
def isJsSpace (c : Char) : Bool := jsSpaces.contains c.toNat

/-- One segment of a path on the stack. -/
def collapseSegment (stack : List (List Char)) (segment : List Char) :
    List (List Char) :=
  if segment = [] ∨ segment = ['.'] then stack
  else if segment = ['.', '.'] then stack.dropLast
  else stack ++ [segment]

/-- The trimmed text, back slashes turned. -/
def rawPath (value : String) : List Char :=
  (trimBy isJsSpace value.toList).map fun c => if c = '\\' then '/' else c

def normalizeFsPath (value : String) : String :=
  let raw := rawPath value
  if raw.head? = some '/' then
    let stack := (segments '/' raw).foldl collapseSegment []
    let normalized :=
      ('/' :: List.intercalate ['/'] stack).rdropWhile (· = '/')
    if normalized = [] then "/" else String.ofList normalized
  else String.ofList (raw.rdropWhile (· = '/'))

def isAbsolutePath (value : String) : Bool := value.toList.head? = some '/'

def getFolderPath (filePath : String) : String :=
  let segs := segments '/' (normalizeFsPath filePath).toList
  let folder := List.intercalate ['/'] segs.dropLast
  if folder = [] then "/" else String.ofList folder

def isPathInsideFolder (path folderPath : String) : Bool :=
  let normalizedPath := (normalizeFsPath path).toList
  let normalizedFolder := (normalizeFsPath folderPath).toList
  if normalizedFolder = ['/'] then true
  else normalizedPath = normalizedFolder ||
    (normalizedFolder ++ ['/']).isPrefixOf normalizedPath

def textExtensions : List String := [".txt", ".md", ".json", ".csv", ".log"]

/-- The letters of the extensions are ASCII, and so is all that is lowered
here. -/
def hasTextExtension (path : String) : Bool :=
  let normalizedPath := (normalizeFsPath path).toList.map Char.toLower
  match (segments '.' normalizedPath).getLast? with
  | some extension =>
      normalizedPath.contains '.' &&
        textExtensions.contains (String.ofList ('.' :: extension))
  | none => false

/-! ## Policies -/

inductive Mode where
  | read
  | readWrite
  deriving DecidableEq

structure FilePolicy where
  path : String
  mode : Mode
  archived : Bool
  deriving DecidableEq

/-- The policy is enough for an access of this mode. -/
def FilePolicy.allows (policy : FilePolicy) : Mode → Bool
  | .read => policy.mode = .read || policy.mode = .readWrite
  | .readWrite => policy.mode = .readWrite

/-- `path.length`. -/
def unitLength (s : String) : Nat := (Utf16.encode s.toList).length

def hasPermission (policies : List FilePolicy) (path : String) (mode : Mode) :
    Bool :=
  ((policies.filter fun policy => !policy.archived).mergeSort
    fun left right => unitLength right.path ≤ unitLength left.path).any
      fun policy => isPathInsideFolder path policy.path && policy.allows mode

/-! ## The commands -/

def defaultFileReadMaxBytes : Nat := 2 * 1024 * 1024

def defaultFileWriteMaxBytes : Nat := 1024 * 1024

structure FileReadResponse where
  path : String
  text : String
  bytes : Nat

structure FileWriteResponse where
  path : String
  bytesWritten : Nat

/-- The text of the path a command opens. -/
def parseAbsolutePath (path : String) : Except String String :=
  let trimmed := trimBy isUnicodeWhitespace path.toList
  if trimmed = [] then .error "Path is required."
  else if trimmed.head? ≠ some '/' then .error "Use an absolute path."
  else .ok (String.ofList trimmed)

/-- `parsed.exists()`. -/
def pathExists (t : Tree) (parsed : Path) : Bool :=
  (t.canonicalize parsed).any fun q => q = [] || (t.node q).isSome

def fileExists (t : Tree) (path : String) : Except String Bool := do
  let parsed ← parseAbsolutePath path
  return pathExists t (ofString parsed)

/-- What a command answers, and the place it has read or written. -/
abbrev Accessed (α : Type) := Except String α × Option Place

def fileRead (t : Tree) (path : String) (maxBytes : Nat) :
    Accessed FileReadResponse :=
  match parseAbsolutePath path with
  | .error message => (.error message, none)
  | .ok parsed =>
      let cap := min maxBytes defaultFileReadMaxBytes
      match t.canonicalize (ofString parsed) with
      | none => (.error "Unable to read file metadata.", none)
      | some q =>
          match (t.node q).bind Node.content? with
          | none => (.error "Path is not a file.", none)
          | some raw =>
              if cap < raw.length then
                (.error "File is too large to read safely.", none)
              else
                match String.fromUTF8? ⟨raw.toArray⟩ with
                | none =>
                    (.error "Only UTF-8 text files are supported.", some q)
                | some text => (.ok ⟨parsed, text, raw.length⟩, some q)

/-- The bytes of a text. -/
def byteLength (text : String) : Nat := (Utf8.encodeText text.toList).length

def fileWrite (t : Tree) (path text : String) (create : Bool)
    (maxBytes : Nat) : Accessed FileWriteResponse :=
  match parseAbsolutePath path with
  | .error message => (.error message, none)
  | .ok parsed =>
      let cap := min maxBytes defaultFileWriteMaxBytes
      if cap < byteLength text then
        (.error "Text is too large to write safely.", none)
      else if !create && !pathExists t (ofString parsed) then
        (.error "File does not exist.", none)
      else
        match parent (ofString parsed) with
        | none => (.error "Parent folder is invalid.", none)
        | some folder =>
            if !pathExists t folder then
              (.error "Parent folder does not exist.", none)
            else
              match t.locate (ofString parsed) with
              | none => (.error "Unable to write file.", none)
              | some q =>
                  if q = [] || t.isDir q then
                    (.error "Unable to write file.", none)
                  else (.ok ⟨parsed, byteLength text⟩, some q)

/-! ## The tools -/

inductive Reason where
  | invalidPath
  | unsupportedType
  | scopeBlocked
  | ioError
  | overwriteRequiresApproval
  | requiresApproval (folderPath : String) (mode : Mode)
  deriving DecidableEq

/-- Why a tool has not done what it was asked, and what it says. -/
structure Failure where
  reason : Reason
  message : String
  deriving DecidableEq

def readMaxBytes : Nat := 2 * 1024 * 1024

def writeMaxBytes : Nat := 1024 * 1024

def invalidPath : Failure := ⟨.invalidPath, "Use an absolute file path."⟩

def unsupportedType : Failure :=
  ⟨.unsupportedType,
    "Only text files are supported (.txt, .md, .json, .csv, .log)."⟩

def fileReadTool (t : Tree) (policies : List FilePolicy) (path : String) :
    Except Failure FileReadResponse × Option Place :=
  let normalizedPath := normalizeFsPath path
  if normalizedPath = "" || !isAbsolutePath normalizedPath then
    (.error invalidPath, none)
  else if !hasTextExtension normalizedPath then (.error unsupportedType, none)
  else if !hasPermission policies normalizedPath .read then
    let folderPath := getFolderPath normalizedPath
    (.error ⟨.requiresApproval folderPath .read,
      "File access to " ++ folderPath ++ " is not approved yet."⟩, none)
  else
    let accessed := fileRead t normalizedPath readMaxBytes
    (accessed.1.mapError fun _ => ⟨.ioError, "Unable to read this file."⟩,
      accessed.2)

structure WriteInput where
  path : String
  text : String
  createIfMissing : Bool
  requireOverwriteApproval : Bool
  allowOverwrite : Bool

def fileWriteTool (t : Tree) (policies : List FilePolicy)
    (input : WriteInput) : Except Failure FileWriteResponse × Option Place :=
  let normalizedPath := normalizeFsPath input.path
  if normalizedPath = "" || !isAbsolutePath normalizedPath then
    (.error invalidPath, none)
  else if !hasTextExtension normalizedPath then (.error unsupportedType, none)
  else if writeMaxBytes < byteLength input.text then
    (.error ⟨.scopeBlocked, "Text is too large to write safely."⟩, none)
  else if !hasPermission policies normalizedPath .readWrite then
    let folderPath := getFolderPath normalizedPath
    (.error ⟨.requiresApproval folderPath .readWrite,
      "Write access to " ++ folderPath ++ " is not approved yet."⟩, none)
  else
    let found := (fileExists t normalizedPath).toOption.getD false
    if found && input.requireOverwriteApproval && !input.allowOverwrite then
      (.error ⟨.overwriteRequiresApproval,
        "This file already exists. Confirm overwrite to continue."⟩, none)
    else
      let accessed := fileWrite t normalizedPath input.text
        input.createIfMissing writeMaxBytes
      (accessed.1.mapError fun _ => ⟨.ioError, "Unable to write this file."⟩,
        accessed.2)

/-- What an agent asks for. -/
inductive Request where
  | read (path : String)
  | write (input : WriteInput)

namespace Request

def path : Request → String
  | read path => path
  | write input => input.path

def mode : Request → Mode
  | read _ => .read
  | write _ => .readWrite

/-- The place that is read or written. -/
def touched (t : Tree) (policies : List FilePolicy) :
    Request → Option Place
  | read path => (fileReadTool t policies path).2
  | write input => (fileWriteTool t policies input).2

/-- The path the policies are compared with: it is normalised once more. -/
def checked (r : Request) : Path :=
  ofString (normalizeFsPath (normalizeFsPath r.path))

/-- The path the command opens. -/
def opened (r : Request) : Path :=
  ofString (String.ofList
    (trimBy isUnicodeWhitespace (normalizeFsPath r.path).toList))

end Request

/-! ## What is to hold -/

/-- The place of the policy's folder. -/
def folderPlace (t : Tree) (policy : FilePolicy) : Option Place :=
  let folder := normalizeFsPath policy.path
  if isAbsolutePath folder then t.locate (ofString folder) else none

/-- The place really lies inside a folder with a policy of sufficient mode. -/
def Approved (t : Tree) (policies : List FilePolicy) (mode : Mode)
    (q : Place) : Prop :=
  ∃ policy ∈ policies, policy.archived = false ∧ policy.allows mode = true ∧
    ∃ f, folderPlace t policy = some f ∧ f <+: q

/-- The last name of a normalised path. -/
def lastName (path : String) : List Char :=
  ((segments '/' path.toList).getLast?).getD []

/-- What the two sides leave of the last name is one name, and no way up. -/
def LastNameKept (r : Request) : Prop :=
  let name := lastName (normalizeFsPath r.path)
  component (name.rdropWhile isUnicodeWhitespace) =
      component (name.rdropWhile isJsSpace) ∧
    name.rdropWhile isJsSpace ≠ ['.', '.']

/-- The names of a path. -/
def namesOf (p : Path) : Place :=
  p.filterMap fun c => match c with
    | .normal n => some n
    | _ => none

/-- The policy has a path, and no link stands on the way from its folder to
the file. -/
def Clear (t : Tree) (r : Request) (policy : FilePolicy) : Prop :=
  normalizeFsPath policy.path ≠ "" ∧ ∀ f, folderPlace t policy = some f →
    t.LinkFree f ((namesOf r.checked).drop
      (namesOf (ofString (normalizeFsPath policy.path))).length)


/-! ## The text of a normalised path -/

/-- The characters of a name. -/
def chars (n : Name) : List Char := n.text.toList

theorem notMem_of_mem_segments {sep : Char} {cs w : List Char}
    (h : w ∈ segments sep cs) : sep ∉ w ∧ ∀ c ∈ w, c ∈ cs := by
  induction cs generalizing w with
  | nil =>
      rw [List.mem_singleton.mp h]
      exact ⟨List.not_mem_nil, fun c hc => hc⟩
  | cons a cs ih =>
      have hlift : ∀ w ∈ segments sep cs,
          sep ∉ w ∧ ∀ c ∈ w, c ∈ a :: cs := fun w hw =>
        ⟨(ih hw).1, fun c hc => List.mem_cons_of_mem a ((ih hw).2 c hc)⟩
      rw [segments] at h
      split at h
      · rcases List.mem_cons.mp h with rfl | h
        · exact ⟨List.not_mem_nil, fun c hc => absurd hc List.not_mem_nil⟩
        · exact hlift w h
      · next hne =>
          have hcons : ∀ v, sep ∉ v → (∀ c ∈ v, c ∈ a :: cs) →
              sep ∉ a :: v ∧ ∀ c ∈ a :: v, c ∈ a :: cs := by
            intro v hv hsub
            refine ⟨fun hmem => ?_, fun c hc => ?_⟩
            · rcases List.mem_cons.mp hmem with heq | hmem
              · exact hne heq.symm
              · exact hv hmem
            · rcases List.mem_cons.mp hc with rfl | hc
              · exact List.mem_cons_self
              · exact hsub c hc
          split at h
          · rw [List.mem_singleton.mp h]
            exact hcons [] List.not_mem_nil fun c hc =>
              absurd hc List.not_mem_nil
          · next v vs hsegs =>
              rcases List.mem_cons.mp h with rfl | h
              · have hv := hlift v (hsegs ▸ List.mem_cons_self)
                exact hcons v hv.1 hv.2
              · exact hlift w (hsegs ▸ List.mem_cons_of_mem v h)

/-- The names left of the components, a way up taking the last one. -/
def collapse (p : Place) (path : Path) : Place :=
  path.foldl (fun p c => match c with
    | .normal n => p ++ [n]
    | .parentDir => p.dropLast
    | _ => p) p

/-- A segment without a slash is empty, a dot, two dots or a name. -/
theorem component_cases {w : List Char} (h : '/' ∉ w) :
    (component w = none ∧ (w = [] ∨ w = ['.'])) ∨
      (component w = some .parentDir ∧ w = ['.', '.']) ∨
        ∃ n : Name, component w = some (.normal n) ∧ w = chars n := by
  by_cases hdots : w = ['.', '.']
  · exact .inr (.inl ⟨if_pos hdots, hdots⟩)
  by_cases hname : isName (String.ofList w) = true
  · refine .inr (.inr ⟨⟨_, hname⟩, ?_, String.toList_ofList.symm⟩)
    rw [component, if_neg hdots, dif_pos hname]
  · refine .inl ⟨by rw [component, if_neg hdots, dif_neg hname], ?_⟩
    have hword : ∀ s : String, String.ofList w = s → w = s.toList := by
      intro s hs
      rw [← hs, String.toList_ofList]
    by_contra hnot
    rw [not_or] at hnot
    refine hname ?_
    simp only [Paths.isName, Bool.and_eq_true, bne_iff_ne, Bool.not_eq_true',
      List.contains_eq_mem, decide_eq_false_iff_not, String.toList_ofList]
    exact ⟨⟨⟨fun hs => hnot.1 (hword _ hs), fun hs => hnot.2 (hword _ hs)⟩,
      fun hs => hdots (hword _ hs)⟩, h⟩

theorem foldl_collapseSegment {segs : List (List Char)}
    (h : ∀ w ∈ segs, '/' ∉ w) (p : Place) :
    segs.foldl collapseSegment (p.map chars) =
      (collapse p (segs.filterMap component)).map chars := by
  induction segs generalizing p with
  | nil => rfl
  | cons w segs ih =>
      have hrest := ih fun w hw => h w (List.mem_cons_of_mem _ hw)
      rw [List.foldl_cons]
      rcases component_cases (h w List.mem_cons_self) with
        ⟨hnone, hw⟩ | ⟨hup, hw⟩ | ⟨n, hn, hw⟩
      · rw [List.filterMap_cons_none hnone, collapseSegment, if_pos hw]
        exact hrest p
      · rw [List.filterMap_cons_some hup, collapseSegment,
          if_neg (by simp [hw]), if_pos hw, ← List.map_dropLast]
        exact hrest p.dropLast
      · have hnot : ¬ (w = [] ∨ w = ['.']) ∧ w ≠ ['.', '.'] := by
          have hcomp := component_name n
          rw [chars] at hw
          rw [← hw] at hcomp
          refine ⟨?_, ?_⟩
          · rintro (rfl | rfl)
            · revert hcomp
              simp [component, Paths.isName]
            · revert hcomp
              simp [component, Paths.isName]
          · rintro rfl
            cases hcomp
        rw [List.filterMap_cons_some hn, collapseSegment, if_neg hnot.1,
          if_neg hnot.2]
        have hmap : p.map chars ++ [w] = (p ++ [n]).map chars := by
          rw [List.map_append, List.map_singleton, hw]
        rw [hmap]
        exact hrest (p ++ [n])

theorem slashed_concat (d : Place) (n : Name) :
    slashed (d ++ [n]) = slashed d ++ '/' :: chars n := by
  induction d with
  | nil => simp [slashed, chars]
  | cons m d ih => simp [slashed, ih]

theorem cons_intercalate {p : Place} (h : p ≠ []) :
    '/' :: List.intercalate ['/'] (p.map chars) = slashed p := by
  induction p with
  | nil => exact absurd rfl h
  | cons n p ih =>
      cases p with
      | nil => simp [List.intercalate, slashed, chars]
      | cons m p =>
          have hrest := ih (by simp)
          rw [slashed, ← hrest]
          simp [List.intercalate, chars]

theorem chars_ne_nil (n : Name) : chars n ≠ [] := by
  intro h
  have hn := n.isName
  have htext : n.text = "" := String.toList_inj.mp h
  rw [htext] at hn
  revert hn
  decide

/-- What is dropped after a character that stays. -/
theorem rdropWhile_append_cons {p : Char → Bool} {c : Char} (hc : p c = false)
    (a w : List Char) :
    (a ++ c :: w).rdropWhile p = a ++ c :: w.rdropWhile p := by
  induction w using List.reverseRecOn with
  | nil =>
      rw [List.rdropWhile_nil]
      exact List.rdropWhile_concat_neg p a c (by simp [hc])
  | append_singleton w x ih =>
      have hassoc : a ++ c :: (w ++ [x]) = a ++ c :: w ++ [x] := by simp
      rw [hassoc, List.rdropWhile_concat, List.rdropWhile_concat, ih]
      split
      · rfl
      · simp

/-- An absolute path normalises to the text of a place. -/
theorem normalizeFsPath_eq {value : String}
    (h : (rawPath value).head? = some '/') :
    normalizeFsPath value =
      toText (collapse [] ((segments '/' (rawPath value)).filterMap
        component)) := by
  set p := collapse [] ((segments '/' (rawPath value)).filterMap component)
    with hp
  have hstack : (segments '/' (rawPath value)).foldl collapseSegment [] =
      p.map chars :=
    foldl_collapseSegment (fun w hw => (notMem_of_mem_segments hw).1) []
  rw [normalizeFsPath]
  simp only [if_pos h, hstack]
  by_cases hnil : p = []
  · rw [hnil]
    decide
  · have hself : (slashed p).rdropWhile (· = '/') = slashed p := by
      obtain ⟨d, n, hd⟩ : ∃ d n, p = d ++ [n] :=
        ⟨p.dropLast, p.getLast hnil, (List.dropLast_append_getLast hnil).symm⟩
      rw [hd, slashed_concat]
      refine List.rdropWhile_eq_self_iff.mpr fun hne hlast => ?_
      have hmem : '/' ∈ chars n := by
        have hget : (slashed d ++ '/' :: chars n).getLast hne =
            (chars n).getLast (chars_ne_nil n) := by
          rw [List.getLast_append_of_ne_nil _ (by simp),
            List.getLast_cons (chars_ne_nil n)]
        rw [hget, decide_eq_true_eq] at hlast
        rw [← hlast]
        exact List.getLast_mem (chars_ne_nil n)
      exact n.noSlash hmem
    have hne : slashed p ≠ [] := by
      cases hcase : p with
      | nil => exact absurd hcase hnil
      | cons n q => simp [slashed]
    rw [cons_intercalate hnil, hself, if_neg hne, toText, if_neg hnil]

/-! ## The path that is checked and the path that is opened -/

theorem segments_slashed (d : Place) {w : List Char} (hw : '/' ∉ w) :
    segments '/' (slashed d ++ '/' :: w) = [] :: (d.map chars ++ [w]) := by
  induction d with
  | nil =>
      show segments '/' ('/' :: w) = _
      rw [segments, if_pos rfl, segments_of_noSlash hw]
      rfl
  | cons m d ih =>
      obtain ⟨x, hx⟩ : ∃ x, slashed d ++ '/' :: w = '/' :: x := by
        cases d with
        | nil => exact ⟨w, rfl⟩
        | cons k d => exact ⟨_, rfl⟩
      rw [hx, segments, if_pos rfl] at ih
      have htail := List.tail_eq_of_cons_eq ih
      rw [slashed, List.cons_append, List.append_assoc, hx, segments,
        if_pos rfl, segments_append_slash m.noSlash, htail]
      rfl

theorem component_chars (n : Name) :
    component (chars n) = some (.normal n) := component_name n

theorem filterMap_chars (d : Place) :
    (d.map chars).filterMap component = d.map .normal := by
  induction d with
  | nil => rfl
  | cons n d ih =>
      rw [List.map_cons, List.filterMap_cons_some (component_chars n), ih]
      rfl

/-- The path of a text that begins with a slash. -/
theorem ofString_of_head {s : String} (h : s.toList.head? = some '/') :
    ofString s =
      .rootDir :: (segments '/' s.toList).filterMap component := by
  obtain ⟨cs, hcs⟩ : ∃ cs, s.toList = '/' :: cs := by
    cases hs : s.toList with
    | nil =>
        rw [hs] at h
        cases h
    | cons c cs =>
        rw [hs] at h
        exact ⟨cs, by rw [Option.some.inj h]⟩
  rw [ofString, hcs, segments, if_pos rfl, List.filterMap_cons_none (by
    simp [component, Paths.isName])]
  rfl

theorem ofString_slashed (d : Place) {w : List Char} (hw : '/' ∉ w) :
    ofString (String.ofList (slashed d ++ '/' :: w)) =
      absolute d ++ (component w).toList := by
  have hhead : (String.ofList (slashed d ++ '/' :: w)).toList.head? =
      some '/' := by
    rw [String.toList_ofList]
    cases d with
    | nil => rfl
    | cons n d => rfl
  rw [ofString_of_head hhead, String.toList_ofList, segments_slashed d hw,
    List.filterMap_cons_none (by simp [component, Paths.isName]),
    List.filterMap_append, filterMap_chars, absolute, List.cons_append]
  cases hc : component w with
  | none => rw [List.filterMap_cons_none hc]; rfl
  | some c => rw [List.filterMap_cons_some hc]; rfl

theorem trimBy_slashed {isSpace : Char → Bool} (hslash : isSpace '/' = false)
    (d : Place) (w : List Char) :
    trimBy isSpace (slashed d ++ '/' :: w) =
      slashed d ++ '/' :: w.rdropWhile isSpace := by
  have hleft : (slashed d ++ '/' :: w).dropWhile isSpace =
      slashed d ++ '/' :: w := by
    cases d with
    | nil => simp [slashed, hslash]
    | cons n d => simp [slashed, hslash]
  rw [trimBy, hleft, rdropWhile_append_cons hslash]

theorem toText_concat (d : Place) (n : Name) :
    toText (d ++ [n]) = String.ofList (slashed d ++ '/' :: chars n) := by
  rw [toText, if_neg (by simp), slashed_concat]

theorem mem_collapse {n : Name} {path : Path} :
    ∀ {p : Place}, n ∈ collapse p path → n ∈ p ∨ Component.normal n ∈ path := by
  induction path with
  | nil => exact fun h => .inl h
  | cons c path ih =>
      intro p h
      have hrest : ∀ p', (∀ m ∈ p', m ∈ p ∨ c = .normal m) →
          n ∈ collapse p' path → n ∈ p ∨ Component.normal n ∈ c :: path := by
        intro p' hp' hn
        rcases ih hn with hn | hn
        · rcases hp' n hn with hn | hc
          · exact .inl hn
          · exact .inr (hc ▸ List.mem_cons_self)
        · exact .inr (List.mem_cons_of_mem c hn)
      cases c with
      | normal m =>
          refine hrest (p ++ [m]) (fun k hk => ?_) h
          rcases List.mem_append.mp hk with hk | hk
          · exact .inl hk
          · exact .inr (by rw [List.mem_singleton.mp hk])
      | parentDir =>
          exact hrest p.dropLast
            (fun k hk => .inl (List.mem_of_mem_dropLast hk)) h
      | rootDir => exact hrest p (fun k hk => .inl hk) h
      | curDir => exact hrest p (fun k hk => .inl hk) h

/-- An absolute path that is normalised is the text of a place, and has no
back slash. -/
theorem exists_place {value : String}
    (h : isAbsolutePath (normalizeFsPath value) = true) :
    ∃ p : Place, normalizeFsPath value = toText p ∧
      ∀ n ∈ p, '\\' ∉ chars n := by
  have hraw : (rawPath value).head? = some '/' := by
    by_contra hnot
    rw [isAbsolutePath, decide_eq_true_eq, normalizeFsPath] at h
    simp only [if_neg hnot, String.toList_ofList] at h
    cases hcase : rawPath value with
    | nil =>
        rw [hcase] at h
        cases h
    | cons c cs =>
        have hpre := List.rdropWhile_prefix (· = '/') (c :: cs)
        rw [hcase] at h hnot
        cases hdrop : (c :: cs).rdropWhile (· = '/') with
        | nil =>
            rw [hdrop] at h
            cases h
        | cons a as =>
            rw [hdrop] at h hpre
            have hhead := (List.cons_prefix_cons.mp hpre).1
            exact hnot (by rw [← hhead]; exact h)
  refine ⟨_, normalizeFsPath_eq hraw, fun n hn => ?_⟩
  rcases mem_collapse hn with hn | hn
  · cases hn
  obtain ⟨w, hw, hcomp⟩ := List.mem_filterMap.mp hn
  obtain ⟨hslash, hsub⟩ := notMem_of_mem_segments hw
  rcases component_cases hslash with ⟨hc, -⟩ | ⟨hc, -⟩ | ⟨m, hc, hm⟩
  · rw [hc] at hcomp
    cases hcomp
  · rw [hc] at hcomp
    cases hcomp
  · rw [hc] at hcomp
    cases hcomp
    intro hback
    rw [← hm] at hback
    obtain ⟨c, -, hturn⟩ := List.mem_map.mp (hsub _ hback)
    split at hturn
    · exact absurd hturn (by decide)
    · contradiction

theorem isJsSpace_slash : isJsSpace '/' = false := by decide

theorem isUnicodeWhitespace_slash : isUnicodeWhitespace '/' = false := by
  decide

theorem notMem_rdropWhile {p : Char → Bool} {c : Char} {w : List Char}
    (h : c ∉ w) : c ∉ w.rdropWhile p :=
  fun hmem => h ((List.rdropWhile_prefix _ _).mem hmem)

/-- A normalised path normalised once more: the last name is trimmed. -/
theorem normalize_twice {d : Place} {n : Name}
    (hback : ∀ m ∈ d ++ [n], '\\' ∉ chars m) :
    normalizeFsPath (toText (d ++ [n])) =
      toText (collapse d
        (component ((chars n).rdropWhile isJsSpace)).toList) := by
  have hw : '/' ∉ (chars n).rdropWhile isJsSpace :=
    notMem_rdropWhile n.noSlash
  have hraw : rawPath (toText (d ++ [n])) =
      slashed d ++ '/' :: (chars n).rdropWhile isJsSpace := by
    rw [rawPath, toText_concat, String.toList_ofList,
      trimBy_slashed isJsSpace_slash]
    have hkeep : ∀ cs : List Char, '\\' ∉ cs →
        (cs.map fun c => if c = '\\' then '/' else c) = cs := by
      intro cs hcs
      conv_rhs => rw [← List.map_id cs]
      refine List.map_congr_left fun c hc => if_neg ?_
      rintro rfl
      exact hcs hc
    refine hkeep _ ?_
    have hslashed : ∀ q : Place, (∀ m ∈ q, '\\' ∉ chars m) →
        '\\' ∉ slashed q := by
      intro q
      induction q with
      | nil => exact fun _ => List.not_mem_nil
      | cons m q ih =>
          intro hq hmem
          rcases List.mem_cons.mp hmem with heq | hmem
          · exact absurd heq (by decide)
          rcases List.mem_append.mp hmem with hmem | hmem
          · exact hq m List.mem_cons_self hmem
          · exact ih (fun k hk => hq k (List.mem_cons_of_mem m hk)) hmem
    rw [List.mem_append, List.mem_cons, not_or, not_or]
    exact ⟨hslashed d fun m hm => hback m (List.mem_append_left [n] hm),
      by decide, notMem_rdropWhile (hback n (by simp))⟩
  have hhead : (rawPath (toText (d ++ [n]))).head? = some '/' := by
    rw [hraw]
    cases d with
    | nil => rfl
    | cons m d => rfl
  rw [normalizeFsPath_eq hhead, hraw, segments_slashed d hw,
    List.filterMap_cons_none (by simp [component, Paths.isName]),
    List.filterMap_append, filterMap_chars]
  have hcollapse : ∀ (q p : Place), collapse p (q.map .normal) = p ++ q := by
    intro q
    induction q with
    | nil => exact fun p => (List.append_nil p).symm
    | cons m q ih =>
        intro p
        rw [List.map_cons]
        show collapse (p ++ [m]) (q.map .normal) = _
        rw [ih, List.append_assoc]
        rfl
  rw [collapse, List.foldl_append]
  show toText (collapse (collapse [] (d.map .normal)) _) = _
  rw [hcollapse, List.nil_append]
  cases hc : component ((chars n).rdropWhile isJsSpace) with
  | none => rw [List.filterMap_cons_none hc]; rfl
  | some c => rw [List.filterMap_cons_some hc]; rfl

theorem toText_toList_head (p : Place) :
    (toText p).toList.head? = some '/' := by
  cases p with
  | nil => decide
  | cons n p =>
      rw [toText, if_neg (by simp), String.toList_ofList, slashed]
      rfl

theorem isAbsolutePath_toText (p : Place) :
    isAbsolutePath (toText p) = true := by
  rw [isAbsolutePath, toText_toList_head]
  rfl

/-- What is opened: the folder of the normalised path, and its last name as
the command trims it. -/
theorem opened_eq {r : Request} {d : Place} {n : Name}
    (hp : normalizeFsPath r.path = toText (d ++ [n])) :
    r.opened = absolute d ++
      (component ((chars n).rdropWhile isUnicodeWhitespace)).toList := by
  rw [Request.opened, hp, toText_concat, String.toList_ofList,
    trimBy_slashed isUnicodeWhitespace_slash]
  exact ofString_slashed d (notMem_rdropWhile n.noSlash)

/-- What is checked: the folder, and its last name as the web view does. -/
theorem checked_eq {r : Request} {d : Place} {n : Name}
    (hp : normalizeFsPath r.path = toText (d ++ [n]))
    (hback : ∀ m ∈ d ++ [n], '\\' ∉ chars m) :
    r.checked = absolute (collapse d
      (component ((chars n).rdropWhile isJsSpace)).toList) := by
  rw [Request.checked, hp, normalize_twice hback, ofString_toText]

theorem lastName_eq {r : Request} {d : Place} {n : Name}
    (hp : normalizeFsPath r.path = toText (d ++ [n])) :
    lastName (normalizeFsPath r.path) = chars n := by
  rw [lastName, hp, toText_concat, String.toList_ofList,
    segments_slashed d (w := chars n) n.noSlash, ← List.cons_append,
    List.getLast?_append_of_ne_nil _ (by simp)]
  rfl

/-- Two dots at the start of a name stay, whatever blanks follow. -/
theorem component_rdropWhile_ne_none {w : List Char} (hslash : '/' ∉ w)
    (hdots : w.rdropWhile isJsSpace = ['.', '.']) :
    component (w.rdropWhile isUnicodeWhitespace) ≠ none := by
  obtain ⟨z, hz⟩ : ['.', '.'] <+: w := hdots ▸ List.rdropWhile_prefix _ _
  have hkept : w.rdropWhile isUnicodeWhitespace =
      ['.'] ++ '.' :: z.rdropWhile isUnicodeWhitespace := by
    rw [← hz]
    exact rdropWhile_append_cons (by decide) ['.'] z
  intro hnone
  rcases component_cases (notMem_rdropWhile (p := isUnicodeWhitespace) hslash)
    with ⟨-, hw⟩ | ⟨hc, -⟩ | ⟨n, hc, -⟩
  · rw [hkept] at hw
    simp at hw
  · rw [hc] at hnone
    cases hnone
  · rw [hc] at hnone
    cases hnone

/-- The path that is checked is the path that is opened exactly where both
sides make one name of the last one. -/
theorem samePath_iff {r : Request}
    (habsolute : isAbsolutePath (normalizeFsPath r.path) = true) :
    r.opened = r.checked ↔ LastNameKept r := by
  obtain ⟨p, hp, hback⟩ := exists_place habsolute
  by_cases hnil : p = []
  · subst hnil
    have hopened : r.opened = r.checked := by
      rw [Request.opened, Request.checked, hp]
      decide +kernel
    have hlast : lastName (normalizeFsPath r.path) = [] := by
      rw [hp]
      decide
    refine ⟨fun _ => ?_, fun _ => hopened⟩
    rw [LastNameKept, hlast]
    exact ⟨rfl, by simp⟩
  obtain ⟨d, n, rfl⟩ : ∃ d n, p = d ++ [n] :=
    ⟨p.dropLast, p.getLast hnil, (List.dropLast_append_getLast hnil).symm⟩
  have hslash : '/' ∉ chars n := n.noSlash
  rw [opened_eq hp, checked_eq hp hback, LastNameKept, lastName_eq hp]
  rcases component_cases (notMem_rdropWhile (p := isJsSpace) hslash) with
    ⟨hc, hw⟩ | ⟨hc, hw⟩ | ⟨m, hc, hw⟩
  · rw [hc]
    have hup : (chars n).rdropWhile isJsSpace ≠ ['.', '.'] := by
      rcases hw with hw | hw <;> rw [hw] <;> simp
    show absolute d ++ _ = absolute d ↔ _
    rw [List.append_right_eq_self, Option.toList_eq_nil_iff]
    exact (and_iff_left hup).symm
  · rw [hc]
    refine iff_of_false (fun heq => ?_) fun hkept => hkept.2 hw
    have hlen := congrArg List.length heq
    cases hopened : component
      ((chars n).rdropWhile isUnicodeWhitespace) with
    | none => exact component_rdropWhile_ne_none hslash hw hopened
    | some c =>
        rw [hopened] at hlen
        simp [absolute, collapse] at hlen
        omega
  · rw [hc]
    have hup : (chars n).rdropWhile isJsSpace ≠ ['.', '.'] := by
      intro hdots
      rw [hdots] at hc
      cases hc
    show absolute d ++ _ = absolute (d ++ [m]) ↔ _
    rw [absolute_append, List.append_cancel_left_eq]
    refine Iff.trans ?_ (and_iff_left hup).symm
    constructor
    · intro heq
      cases hopened : component
        ((chars n).rdropWhile isUnicodeWhitespace) with
      | none =>
          rw [hopened] at heq
          cases heq
      | some c =>
          rw [hopened] at heq
          rw [List.singleton_inj.mp heq]
    · intro heq
      rw [heq]
      rfl

/-! ## The folder of a policy -/

/-- A word before a slash is told apart from another. -/
theorem word_before_slash {w w' x y : List Char} (hw : '/' ∉ w)
    (hw' : '/' ∉ w') (hy : y = [] ∨ y.head? = some '/')
    (h : w ++ '/' :: x <+: w' ++ y) : w = w' ∧ '/' :: x <+: y := by
  have htake : ∀ v z : List Char, '/' ∉ v → (z = [] ∨ z.head? = some '/') →
      (v ++ z).takeWhile (· ≠ '/') = v := by
    intro v z hv hz
    have hall : ∀ c ∈ v, decide (c ≠ '/') = true := by
      intro c hc
      refine decide_eq_true ?_
      rintro rfl
      exact hv hc
    rw [List.takeWhile_append_of_pos hall]
    rcases hz with rfl | hz
    · simp
    · cases z with
      | nil => simp
      | cons c z =>
          obtain rfl : c = '/' := Option.some.inj hz
          simp
  obtain ⟨z, hz⟩ := h
  have heq : w = w' := by
    rw [← htake w' y hw' hy, ← hz, List.append_assoc]
    exact (htake w _ hw (.inr rfl)).symm
  subst heq
  rw [List.append_assoc] at hz
  exact ⟨rfl, z, List.append_cancel_left hz⟩

theorem prefix_of_slashed {fp cp : Place}
    (h : slashed fp ++ ['/'] <+: slashed cp) : fp <+: cp := by
  induction fp generalizing cp with
  | nil => exact List.nil_prefix
  | cons n fp ih =>
      cases cp with
      | nil =>
          rw [slashed, slashed] at h
          have hlen := h.length_le
          simp at hlen
      | cons m cp =>
          rw [slashed, slashed, List.cons_append, List.append_assoc] at h
          have hrest := (List.cons_prefix_cons.mp h).2
          obtain ⟨x, hx⟩ : ∃ x, slashed fp ++ ['/'] = '/' :: x := by
            cases fp with
            | nil => exact ⟨[], rfl⟩
            | cons k fp => exact ⟨_, rfl⟩
          rw [hx] at hrest
          have htail : slashed cp = [] ∨ (slashed cp).head? = some '/' := by
            cases cp with
            | nil => exact .inl rfl
            | cons k cp => exact .inr rfl
          obtain ⟨hname, hpre⟩ := word_before_slash n.noSlash m.noSlash htail
            hrest
          rw [← hx] at hpre
          obtain rfl : n = m := by
            cases n
            cases m
            congr
            exact String.toList_inj.mp hname
          exact List.cons_prefix_cons.mpr ⟨rfl, ih hpre⟩

theorem toText_inj {p q : Place} (h : toText p = toText q) : p = q := by
  have hpath := congrArg ofString h
  rw [ofString_toText, ofString_toText, absolute, absolute] at hpath
  exact List.map_injective_iff.mpr (fun _ _ heq => Component.normal.inj heq)
    (List.tail_eq_of_cons_eq hpath)

/-- A path is found inside a folder that is a place above it, or has no
path at all. -/
theorem isPathInsideFolder_cases {path folderPath : String} {cp : Place}
    (hpath : normalizeFsPath path = toText cp)
    (h : isPathInsideFolder path folderPath = true) :
    normalizeFsPath folderPath = "" ∨
      ∃ fp, normalizeFsPath folderPath = toText fp ∧ fp <+: cp := by
  have hhead := toText_toList_head cp
  rw [isPathInsideFolder, hpath] at h
  by_cases habsolute :
      isAbsolutePath (normalizeFsPath folderPath) = true
  · right
    obtain ⟨fp, hfp, -⟩ := exists_place habsolute
    refine ⟨fp, hfp, ?_⟩
    rw [hfp] at h
    by_cases hroot : fp = []
    · rw [hroot]
      exact List.nil_prefix
    have htext : (toText fp).toList = slashed fp := by
      rw [toText, if_neg hroot, String.toList_ofList]
    have hlong : 2 ≤ (slashed fp).length := by
      cases fp with
      | nil => exact absurd rfl hroot
      | cons n fp =>
          have hpos : 0 < n.text.toList.length :=
            List.length_pos_of_ne_nil (chars_ne_nil n)
          rw [slashed, List.length_cons, List.length_append]
          omega
    split at h
    · next hslash =>
        rw [htext] at hslash
        rw [hslash] at hlong
        simp at hlong
    rw [Bool.or_eq_true, decide_eq_true_eq, List.isPrefixOf_iff_prefix] at h
    rcases h with heq | hpre
    · rw [toText_inj (String.toList_inj.mp heq)]
    · rw [htext] at hpre
      by_cases hcp : cp = []
      · subst hcp
        have hlen := hpre.length_le
        have hroot : (toText []).toList.length = 1 := by decide
        rw [hroot, List.length_append, List.length_singleton] at hlen
        omega
      · rw [toText, if_neg hcp, String.toList_ofList] at hpre
        exact prefix_of_slashed hpre
  · left
    cases hfolder : (normalizeFsPath folderPath).toList with
    | nil => exact String.toList_inj.mp hfolder
    | cons c cs =>
        have hc : c ≠ '/' := by
          rintro rfl
          rw [isAbsolutePath, hfolder] at habsolute
          exact habsolute rfl
        rw [hfolder] at h
        split at h
        · next hslash => exact absurd (List.cons.inj hslash).1 hc
        rw [Bool.or_eq_true, decide_eq_true_eq, List.isPrefixOf_iff_prefix] at h
        rcases h with heq | hpre
        · rw [heq] at hhead
          exact absurd (Option.some.inj hhead) hc
        · cases htext : (toText cp).toList with
          | nil =>
              rw [htext] at hhead
              cases hhead
          | cons a as =>
              rw [htext] at hhead hpre
              have hca : c = a := (List.cons_prefix_cons.mp hpre).1
              exact absurd (hca.trans (Option.some.inj hhead)) hc

/-! ## What a tool touches -/

theorem exists_of_hasPermission {policies : List FilePolicy} {path : String}
    {mode : Mode} (h : hasPermission policies path mode = true) :
    ∃ policy ∈ policies, policy.archived = false ∧
      policy.allows mode = true ∧
        isPathInsideFolder path policy.path = true := by
  rw [hasPermission, List.any_eq_true] at h
  obtain ⟨policy, hmem, hboth⟩ := h
  rw [List.mem_mergeSort, List.mem_filter, Bool.not_eq_true'] at hmem
  rw [Bool.and_eq_true] at hboth
  exact ⟨policy, hmem.1, hmem.2, hboth.2, hboth.1⟩

theorem parseAbsolutePath_ok {path parsed : String}
    (h : parseAbsolutePath path = .ok parsed) :
    parsed = String.ofList (trimBy isUnicodeWhitespace path.toList) := by
  rw [parseAbsolutePath] at h
  split at h
  · cases h
  split at h
  · cases h
  · exact (Except.ok.inj h).symm

/-- A command reads the file its path leads to. -/
theorem fileRead_place {t : Tree} {path : String} {maxBytes : Nat} {q : Place}
    (h : (fileRead t path maxBytes).2 = some q) :
    t.locate (ofString (String.ofList
      (trimBy isUnicodeWhitespace path.toList))) = some q := by
  rw [fileRead] at h
  cases hparsed : parseAbsolutePath path with
  | error message =>
      rw [hparsed] at h
      cases h
  | ok parsed =>
      rw [← parseAbsolutePath_ok hparsed]
      rw [hparsed] at h
      simp only at h
      split at h
      · cases h
      next q' hcanon =>
        have hq : q' = q := by
          split at h
          · cases h
          split at h
          · cases h
          split at h
          · exact Option.some.inj h
          · exact Option.some.inj h
        rw [← hq]
        exact locate_of_canonicalize hcanon

/-- A command writes the file its path lands at. -/
theorem fileWrite_place {t : Tree} {path text : String} {create : Bool}
    {maxBytes : Nat} {q : Place}
    (h : (fileWrite t path text create maxBytes).2 = some q) :
    t.locate (ofString (String.ofList
      (trimBy isUnicodeWhitespace path.toList))) = some q := by
  rw [fileWrite] at h
  cases hparsed : parseAbsolutePath path with
  | error message =>
      rw [hparsed] at h
      cases h
  | ok parsed =>
      rw [← parseAbsolutePath_ok hparsed]
      rw [hparsed] at h
      simp only at h
      split at h
      · cases h
      split at h
      · cases h
      split at h
      · cases h
      split at h
      · cases h
      split at h
      · cases h
      next q' hlocate =>
        have hq : q' = q := by
          split at h
          · cases h
          · exact Option.some.inj h
        rw [← hq]
        exact hlocate

/-- A tool touches what the opened path lands at, after the check. -/
theorem touched_spec {t : Tree} {policies : List FilePolicy} {r : Request}
    {q : Place} (h : r.touched t policies = some q) :
    isAbsolutePath (normalizeFsPath r.path) = true ∧
      hasPermission policies (normalizeFsPath r.path) r.mode = true ∧
        t.locate r.opened = some q := by
  cases r with
  | read path =>
      rw [Request.touched, fileReadTool] at h
      simp only at h
      split at h
      · cases h
      next habsolute =>
        split at h
        · cases h
        split at h
        · cases h
        next hpermission =>
          rw [Bool.or_eq_true, not_or, Bool.not_eq_true',
            Bool.not_eq_false] at habsolute
          rw [Bool.not_eq_true', Bool.not_eq_false] at hpermission
          dsimp only at h
          have hlocate := fileRead_place h
          exact ⟨habsolute.2, hpermission, hlocate⟩
  | write input =>
      rw [Request.touched, fileWriteTool] at h
      simp only at h
      split at h
      · cases h
      next habsolute =>
        split at h
        · cases h
        split at h
        · cases h
        split at h
        · cases h
        next hpermission =>
          rw [Bool.or_eq_true, not_or, Bool.not_eq_true',
            Bool.not_eq_false] at habsolute
          rw [Bool.not_eq_true', Bool.not_eq_false] at hpermission
          split at h
          · cases h
          · dsimp only at h
            have hlocate := fileWrite_place h
            exact ⟨habsolute.2, hpermission, hlocate⟩

theorem namesOf_absolute (p : Place) : namesOf (absolute p) = p := by
  rw [namesOf, absolute, List.filterMap_cons_none rfl, List.filterMap_map]
  exact List.filterMap_some

/-- The path that is checked is a place. -/
theorem exists_checked {r : Request}
    (habsolute : isAbsolutePath (normalizeFsPath r.path) = true) :
    ∃ cp, normalizeFsPath (normalizeFsPath r.path) = toText cp := by
  obtain ⟨p, hp, hback⟩ := exists_place habsolute
  by_cases hnil : p = []
  · refine ⟨[], ?_⟩
    rw [hp, hnil]
    decide +kernel
  · obtain ⟨d, n, rfl⟩ : ∃ d n, p = d ++ [n] :=
      ⟨p.dropLast, p.getLast hnil, (List.dropLast_append_getLast hnil).symm⟩
    exact ⟨_, hp ▸ normalize_twice hback⟩

def approvedFolder : Name := ⟨"approved", by decide⟩

def notesFile : Name := ⟨"notes.txt", by decide⟩

def linkFile : Name := ⟨"link.txt", by decide⟩

def secretFile : Name := ⟨"secret.txt", by decide⟩

/-- A folder with a file and a link that leads out of it. -/
def sharedTree : Tree where
  cwd := []
  node p :=
    if p = [approvedFolder] then some ⟨.directory, 0, 0, 0⟩
    else if p = [approvedFolder, notesFile] then some ⟨.regular [], 0, 1, 0⟩
    else if p = [approvedFolder, linkFile] then
      some ⟨.symlink (absolute [secretFile]), 0, 2, 0⟩
    else if p = [secretFile] then some ⟨.regular [], 0, 3, 0⟩
    else none

def readApproved : List FilePolicy := [⟨"/approved", .read, false⟩]

end AirNote.FileTools
