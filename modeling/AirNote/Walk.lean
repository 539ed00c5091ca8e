import AirNote.Event
import AirNote.Lib.Hex
import Mathlib.Data.List.Infix
import Mathlib.Data.List.Nodup

/-!
# The walk of a granted folder

The walk reads a folder and the folders below it from an explicit stack of
open folders, filters the entries by name and hands every regular file that
passes to a sink. What the operating system answers is a parameter: an open
folder is a value of any type, so that folders may contain each other, a file
may have any number of names, and an entry may be a link to anywhere. The
clock is read at certain points only; its readings are a parameter too.

A path is the list of its components; the names of protected folders and
files are compared with the text of the path below the granted folder.

## Main results

* `walk_grant_contained` — below the granted folder no protected folder is
  entered and no protected file is passed on, no inode is passed on twice,
  and the walk ends.
* `walk_grant_ingests_protected` — a granted folder that is itself protected
  is walked.
-/

namespace AirNote

open Lib

abbrev OsName := Hex.Bytes

/-! ## The never-touch list -/

/-- `NEVER_TOUCH_DIRS`. -/
def neverTouchDirs : List String :=
  [".ssh", ".aws", ".azure", ".gnupg", ".git", ".kube", ".docker", "gcloud"]

/-- `NEVER_TOUCH_FILES`. -/
def neverTouchFiles : List String :=
  [".env", ".netrc", ".pgpass", ".git-credentials", "wallet.dat", ".npmrc",
    ".pypirc", ".dockercfg", "known_hosts"]

/-- `NEVER_TOUCH_GLOBS`. -/
def neverTouchGlobs : List String :=
  ["*.key", "*.pem", "*.p12", "*.pfx", "*.gpg", "*.asc", "id_*",
    "*.keychain", "*.kdbx", "*.jks", "*.ppk", "*.mobileconfig", "*.ovpn"]

/-- `RICH_EXTS`. -/
def richExts : List String := ["pdf", "docx", "pptx", "xlsx", "xls", "msg"]

/-- How names are read as text, and text as lower case. A character has one
lower case: the final form of a sigma is no part of a protected name. -/
structure TextRules where
  toStringLossy : OsName → String
  lowerChar : Char → List Char
  lowerChar_slash : lowerChar '/' = ['/']

/-- `str::to_lowercase`. -/
def TextRules.toLowercase (u : TextRules) (cs : List Char) : List Char :=
  cs.flatMap u.lowerChar

/-- `matches_glob`. -/
def matchesGlob (nameLc pattern : List Char) : Bool :=
  match pattern with
  | '*' :: suffix => suffix.isSuffixOf nameLc
  | _ =>
      if pattern.getLast? = some '*' then
        pattern.dropLast.isPrefixOf nameLc
      else nameLc == pattern

/-- `is_never_touch_dir`. -/
def isNeverTouchDir (u : TextRules) (name relDir : List Char) : Bool :=
  let nameLc := u.toLowercase name
  neverTouchDirs.any (fun d => d.toList == nameLc) ||
    ".config/gh".toList.isSuffixOf (u.toLowercase relDir)

/-- `is_never_touch_file`. -/
def isNeverTouchFile (u : TextRules) (name : List Char) : Bool :=
  let nameLc := u.toLowercase name
  neverTouchFiles.any (fun f => f.toList == nameLc) ||
    neverTouchGlobs.any fun g => matchesGlob nameLc g.toList

/-- `Path::extension`: what follows the last dot that is not the first
character. -/
def extension (name : List Char) : Option (List Char) :=
  let after := name.reverse.takeWhile (· ≠ '.')
  if name.length ≤ after.length + 1 then none else some after.reverse

/-- `is_rich_ext`. -/
def isRichExt (ext : Option (List Char)) : Bool :=
  ext.any fun e => richExts.any fun r => r.toList == e

/-- The text of a path below the granted folder. -/
def relText (rel : List String) : List Char :=
  List.intercalate ['/'] (rel.map String.toList)

/-! ## What the operating system answers -/

/-- `FileType`, as far as the walk tells them apart. -/
inductive FileType where
  | symlink
  | directory
  | regularFile
  | other
  deriving DecidableEq

/-- `FileIdentity`. -/
structure FileIdentity where
  dev : Nat
  ino : Nat
  deriving DecidableEq

/-- `ContainedFile`. -/
structure ContainedFile where
  identity : FileIdentity
  size : Nat
  deriving DecidableEq

/-- `IngestError`. -/
inductive IngestError where
  | nonUtf8
  | containment (m : String)
  | tooLarge
  | parse (m : String)
  | io (m : String)
  | sandboxUnavailable (m : String)
  | timeout
  deriving DecidableEq

/-- The `Display` text of an error. -/
def IngestError.display : IngestError → String
  | nonUtf8 => "not valid UTF-8 (rich formats are M5b)"
  | containment m => "containment refused: " ++ m
  | tooLarge => "exceeds byte cap"
  | parse m => "parse error: " ++ m
  | io m => "io error: " ++ m
  | sandboxUnavailable m => "sandbox unavailable: " ++ m
  | timeout => "parser timed out"

/-- The calls of the walk and their answers. A link is never followed: not
by the open of the granted folder, nor by the other two. -/
structure Folders (δ : Type) where
  openRoot : List String → Except String δ
  readFrom : δ → Except String (List (Except String OsName))
  statat : δ → OsName → Except String FileType
  openDir : δ → OsName → Except String δ
  carefulOpenFile : δ → OsName → Except IngestError ContainedFile

/-! ## The walk -/

/-- `WalkLimits`. -/
structure WalkLimits where
  maxFileBytes : Nat
  maxRichFileBytes : Nat
  wallClock : Nat
  maxWalkDepth : Nat
  maxDirEntries : Nat

/-- `WalkLimits::default`, the wall clock in seconds. -/
def WalkLimits.default : WalkLimits :=
  { maxFileBytes := 10 * 1024 * 1024
    maxRichFileBytes := 100 * 1024 * 1024
    wallClock := 300
    maxWalkDepth := 64
    maxDirEntries := 100000 }

/-- `PathHint`. -/
structure PathHint where
  ext : Option (List Char)
  deriving DecidableEq

/-- `WalkedFile`. -/
structure WalkedFile where
  file : ContainedFile
  canonicalPath : List String
  hint : PathHint
  deriving DecidableEq

/-- `IngestReport`. -/
structure IngestReport where
  ingested : Nat
  superseded : Nat
  deduped : Nat
  skipped : List (List String × String)
  failed : List (List String × String)
  deriving DecidableEq

/-- How a walk ends: at the bottom of its stack, past its budget, or with an
error. -/
inductive WalkEnd where
  | done
  | overBudget
  | failed (e : BossclawError)
  deriving DecidableEq

/-- The arguments of a walk: what the sink answers depends on the files it
was handed before. -/
structure Walk (δ : Type) where
  texts : TextRules
  folders : Folders δ
  limits : WalkLimits
  elapsed : Nat → Nat
  sink : List WalkedFile → WalkedFile → Except BossclawError Unit
  grantRoot : List String

/-- An open folder on the stack: where it is and how deep. -/
structure OpenDir (δ : Type) where
  fd : δ
  relDir : List String
  depth : Nat

/-- The stack, the number of clock readings made, the inodes seen, the report
and the files handed to the sink. -/
structure WalkState (δ : Type) where
  stack : List (OpenDir δ)
  readings : Nat
  seen : List FileIdentity
  report : IngestReport
  walked : List WalkedFile
  ended : Option WalkEnd

section

variable {δ : Type} (w : Walk δ)

/-- One entry of `report.skipped`. -/
def Walk.skip (rel : List String) (reason : String) (s : WalkState δ) :
    WalkState δ :=
  { s with report :=
      { s.report with
        skipped := s.report.skipped ++ [(w.grantRoot ++ rel, reason)] } }

/-- One entry of `report.failed`. -/
def Walk.drop (rel : List String) (reason : String) (s : WalkState δ) :
    WalkState δ :=
  { s with report :=
      { s.report with
        failed := s.report.failed ++ [(w.grantRoot ++ rel, reason)] } }

/-- Read the clock; past the budget the walk ends. -/
def Walk.checkBudget (relDir : List String) (s : WalkState δ) :
    WalkState δ :=
  let s' := { s with readings := s.readings + 1 }
  if w.limits.wallClock < w.elapsed s.readings then
    { w.skip relDir "wall-clock budget exceeded" s' with
      ended := some .overBudget }
  else s'

/-- A subfolder is opened and put on the stack. -/
def Walk.visitDir (dir : OpenDir δ) (raw : OsName) (s : WalkState δ) :
    WalkState δ :=
  let name := w.texts.toStringLossy raw
  let relChild := dir.relDir ++ [name]
  if isNeverTouchDir w.texts name.toList (relText relChild) then
    w.skip relChild "never-touch dir" s
  else if w.limits.maxWalkDepth < dir.depth + 1 then
    w.skip relChild "max depth exceeded" s
  else
    match w.folders.openDir dir.fd raw with
    | .error e => w.skip relChild ("dir open refused: " ++ e) s
    | .ok fd => { s with stack := ⟨fd, relChild, dir.depth + 1⟩ :: s.stack }

/-- An opened file goes to the sink, the first time its inode is seen. -/
def Walk.passOn (rel : List String) (ext : Option (List Char))
    (cf : ContainedFile) (s : WalkState δ) : WalkState δ :=
  if s.seen.contains cf.identity then s
  else
    let wf := { file := cf, canonicalPath := w.grantRoot ++ rel,
                hint := { ext := ext } }
    let s' := { s with seen := cf.identity :: s.seen
                       walked := s.walked ++ [wf] }
    match w.sink s.walked wf with
    | .ok () => s'
    | .error e => { s' with ended := some (.failed e) }

/-- A regular file is opened and measured. -/
def Walk.visitFile (dir : OpenDir δ) (raw : OsName) (s : WalkState δ) :
    WalkState δ :=
  let name := w.texts.toStringLossy raw
  let relChild := dir.relDir ++ [name]
  if isNeverTouchFile w.texts name.toList then
    w.skip relChild "never-touch file" s
  else
    match w.folders.carefulOpenFile dir.fd raw with
    | .error .tooLarge => w.skip relChild "oversize" s
    | .error e => w.drop relChild e.display s
    | .ok cf =>
        let ext := (extension name.toList).map w.texts.toLowercase
        let cap := if isRichExt ext then w.limits.maxRichFileBytes
          else w.limits.maxFileBytes
        if cap < cf.size then w.skip relChild "oversize" s
        else w.passOn relChild ext cf s

/-- An entry, by its type. -/
def Walk.visitEntry (dir : OpenDir δ) (raw : OsName) (s : WalkState δ) :
    WalkState δ :=
  match w.folders.statat dir.fd raw with
  | .error e =>
      w.skip (dir.relDir ++ [w.texts.toStringLossy raw])
        ("stat failed: " ++ e) s
  | .ok .symlink => s
  | .ok .directory => w.visitDir dir raw s
  | .ok .regularFile => w.visitFile dir raw s
  | .ok .other => s

/-- The entries of a folder from the `i`-th on; the clock is read at every
16384th. -/
def Walk.visitEntries (dir : OpenDir δ) :
    Nat → List OsName → WalkState δ → WalkState δ
  | _, [], s => s
  | i, raw :: rest, s =>
      let s := if i % 0x4000 = 0 then w.checkBudget dir.relDir s else s
      if s.ended.isSome then s
      else
        let s := w.visitEntry dir raw s
        if s.ended.isSome then s
        else Walk.visitEntries dir (i + 1) rest s

/-- The names of a folder that are buffered, and whether the cap cut them
off. -/
def bufferEntries (cap : Nat) (entries : List OsName) :
    List (Except String OsName) → Except String (List OsName × Bool)
  | [] => .ok (entries, false)
  | .error e :: _ => .error e
  | .ok name :: rest =>
      if name = [46] ∨ name = [46, 46] then bufferEntries cap entries rest
      else if cap ≤ entries.length then .ok (entries, true)
      else bufferEntries cap (entries ++ [name]) rest

/-- A folder is read and its entries are visited. -/
def Walk.visitFolder (dir : OpenDir δ) (s : WalkState δ) : WalkState δ :=
  let s := w.checkBudget dir.relDir s
  if s.ended.isSome then s
  else
    match (w.folders.readFrom dir.fd).bind
        (bufferEntries w.limits.maxDirEntries []) with
    | .error e => { s with ended := some (.failed (.io e)) }
    | .ok (entries, cut) =>
        let s := if cut then w.skip dir.relDir "directory entry cap exceeded" s
          else s
        w.visitEntries dir 0 entries s

/-- The loop over the stack, at most so many folders. -/
def Walk.loop : Nat → WalkState δ → WalkState δ
  | 0, s => s
  | fuel + 1, s =>
      if s.ended.isSome then s
      else
        match s.stack with
        | [] => { s with ended := some .done }
        | dir :: rest => Walk.loop fuel (w.visitFolder dir
            { s with stack := rest })

/-- The folders a walk reads in a folder with so many levels below it. -/
def folderCount (maxDirEntries : Nat) : Nat → Nat
  | 0 => 1
  | levels + 1 => 1 + maxDirEntries * folderCount maxDirEntries levels

/-- The folders a walk reads. -/
def WalkLimits.folderCount (l : WalkLimits) : Nat :=
  AirNote.folderCount l.maxDirEntries l.maxWalkDepth

/-- `walk_grant`, with the inodes seen and the report made so far. -/
def walkGrant (seen : List FileIdentity) (report : IngestReport) :
    WalkState δ :=
  let s : WalkState δ :=
    { stack := [], readings := 0, seen := seen, report := report,
      walked := [], ended := none }
  match w.folders.openRoot w.grantRoot with
  | .error e => { s with ended := some (.failed (.io e)) }
  | .ok fd =>
      w.loop (w.limits.folderCount + 1) { s with stack := [⟨fd, [], 0⟩] }

end

/-! ## Protected locations -/

/-- The path of a file lies in a location on the never-touch list. -/
def NeverTouch (u : TextRules) (path : List String) : Prop :=
  (∃ d ∈ path.dropLast, ∃ p ∈ neverTouchDirs,
      u.toLowercase d.toList = p.toList) ∨
    (∃ a b, [a, b] <:+: path.dropLast ∧
      u.toLowercase a.toList = ".config".toList ∧
      u.toLowercase b.toList = "gh".toList) ∨
    ∃ name, path.getLast? = some name ∧
      isNeverTouchFile u name.toList = true

/-- No folder on the way is refused by the filter. -/
def CleanDirs (u : TextRules) (dirs : List String) : Prop :=
  ∀ pre name, pre ++ [name] <+: dirs →
    isNeverTouchDir u name.toList (relText (pre ++ [name])) = false

theorem cleanDirs_nil (u : TextRules) : CleanDirs u [] := by
  intro pre name hpre
  have hnil := List.prefix_nil.mp hpre
  exact absurd hnil (by simp)

theorem CleanDirs.concat {u : TextRules} {dirs : List String} {name : String}
    (h : CleanDirs u dirs)
    (hname : isNeverTouchDir u name.toList (relText (dirs ++ [name])) =
      false) : CleanDirs u (dirs ++ [name]) := by
  intro pre n hpre
  rcases List.prefix_concat_iff.mp hpre with heq | hshort
  · have hparts := List.append_inj' heq rfl
    have hn : n = name := by simpa using hparts.2
    rw [hparts.1, hn]
    exact hname
  · exact h pre n hshort

theorem relText_concat {dirs : List String} (hne : dirs ≠ [])
    (name : String) :
    relText (dirs ++ [name]) = relText dirs ++ '/' :: name.toList := by
  induction dirs with
  | nil => exact absurd rfl hne
  | cons d rest ih =>
      cases rest with
      | nil => simp [relText, List.intercalate]
      | cons e rest =>
          have htail := ih (by simp)
          simp only [relText, List.map_cons, List.map_append, List.map_nil,
            List.cons_append, List.intercalate_cons_cons] at htail ⊢
          rw [htail]
          simp

/-- The last folder's name ends the text of the path. -/
theorem suffix_relText (dirs : List String) (name : String) :
    name.toList <:+ relText (dirs ++ [name]) := by
  cases dirs with
  | nil => simp [relText, List.intercalate]
  | cons d rest =>
      rw [relText_concat (by simp)]
      exact (List.suffix_cons '/' _).trans (List.suffix_append _ _)

theorem toLowercase_append (u : TextRules) (cs ds : List Char) :
    u.toLowercase (cs ++ ds) = u.toLowercase cs ++ u.toLowercase ds :=
  List.flatMap_append ..

/-- A folder named by the pair of names is refused. -/
theorem isNeverTouchDir_pair {u : TextRules} {pre : List String}
    {a b : String} (ha : u.toLowercase a.toList = ".config".toList)
    (hb : u.toLowercase b.toList = "gh".toList) :
    isNeverTouchDir u b.toList (relText (pre ++ [a] ++ [b])) = true := by
  obtain ⟨cs, hcs⟩ := suffix_relText pre a
  have htext : u.toLowercase (relText (pre ++ [a] ++ [b])) =
      u.toLowercase cs ++ ".config/gh".toList := by
    rw [relText_concat (by simp), ← hcs]
    have hslash : u.toLowercase ('/' :: b.toList) =
        '/' :: u.toLowercase b.toList := by
      simp [TextRules.toLowercase, u.lowerChar_slash]
    rw [toLowercase_append, toLowercase_append, hslash, ha, hb,
      List.append_assoc]
    rfl
  have hsuffix : ".config/gh".toList.isSuffixOf
      (u.toLowercase (relText (pre ++ [a] ++ [b]))) = true := by
    rw [List.isSuffixOf_iff_suffix, htext]
    exact List.suffix_append _ _
  simp only [isNeverTouchDir, hsuffix, Bool.or_true]

/-- What passes both filters lies in no protected location. -/
theorem not_neverTouch_of_clean {u : TextRules} {dirs : List String}
    {name : String} (hdirs : CleanDirs u dirs)
    (hname : isNeverTouchFile u name.toList = false) :
    ¬ NeverTouch u (dirs ++ [name]) := by
  intro h
  rw [NeverTouch, List.dropLast_concat, List.getLast?_concat] at h
  rcases h with ⟨d, hd, p, hp, hlower⟩ | ⟨a, b, ⟨pre, post, heq⟩, ha, hb⟩ |
    ⟨n, hn, hfile⟩
  · obtain ⟨pre, post, heq⟩ := List.append_of_mem hd
    have hclean := hdirs pre d (by rw [heq]; simp)
    have hlisted : neverTouchDirs.any
        (fun p => p.toList == u.toLowercase d.toList) = true :=
      List.any_eq_true.mpr ⟨p, hp, by simp [hlower]⟩
    simp [isNeverTouchDir, hlisted] at hclean
  · have hclean := hdirs (pre ++ [a]) b (by
      rw [← heq]
      exact ⟨post, by simp⟩)
    rw [isNeverTouchDir_pair ha hb] at hclean
    cases hclean
  · rw [← Option.some.inj hn, hname] at hfile
    cases hfile

/-! ## What the visit of an entry does -/

/-- Neither the stack nor the files handed on have changed. -/
structure WalkState.Kept {δ : Type} (s s' : WalkState δ) : Prop where
  stack_eq : s'.stack = s.stack
  seen_eq : s'.seen = s.seen
  walked_eq : s'.walked = s.walked

section

variable {δ : Type} {w : Walk δ}

/-- What the visit of an entry of `dir` does: nothing, a subfolder is put on
the stack, or a file is handed on. -/
inductive EntryStep (w : Walk δ) (dir : OpenDir δ) (s s' : WalkState δ) :
    Prop where
  | kept (h : s.Kept s')
  | pushed (name : String) (fd : δ)
      (hname : isNeverTouchDir w.texts name.toList
        (relText (dir.relDir ++ [name])) = false)
      (hdepth : dir.depth + 1 ≤ w.limits.maxWalkDepth)
      (hstack : s'.stack =
        ⟨fd, dir.relDir ++ [name], dir.depth + 1⟩ :: s.stack)
      (hseen : s'.seen = s.seen) (hwalked : s'.walked = s.walked)
  | passed (name : String) (wf : WalkedFile)
      (hname : isNeverTouchFile w.texts name.toList = false)
      (hpath : wf.canonicalPath = w.grantRoot ++ (dir.relDir ++ [name]))
      (hnew : wf.file.identity ∉ s.seen) (hstack : s'.stack = s.stack)
      (hseen : s'.seen = wf.file.identity :: s.seen)
      (hwalked : s'.walked = s.walked ++ [wf])

theorem EntryStep.ite {dir : OpenDir δ} {s a b : WalkState δ} {c : Prop}
    [Decidable c] (ha : EntryStep w dir s a) (hb : EntryStep w dir s b) :
    EntryStep w dir s (if c then a else b) := by
  split
  · exact ha
  · exact hb

theorem kept_skip (rel : List String) (reason : String) (s : WalkState δ) :
    s.Kept (w.skip rel reason s) := ⟨rfl, rfl, rfl⟩

theorem kept_drop (rel : List String) (reason : String) (s : WalkState δ) :
    s.Kept (w.drop rel reason s) := ⟨rfl, rfl, rfl⟩

theorem kept_checkBudget (relDir : List String) (s : WalkState δ) :
    s.Kept (w.checkBudget relDir s) := by
  unfold Walk.checkBudget
  dsimp only
  split
  · exact ⟨rfl, rfl, rfl⟩
  · exact ⟨rfl, rfl, rfl⟩

theorem entryStep_visitDir (dir : OpenDir δ) (raw : OsName)
    (s : WalkState δ) : EntryStep w dir s (w.visitDir dir raw s) := by
  unfold Walk.visitDir
  dsimp only
  split
  · exact .kept (kept_skip _ _ _)
  · rename_i hname
    split
    · exact .kept (kept_skip _ _ _)
    · rename_i hdepth
      cases w.folders.openDir dir.fd raw with
      | error e => exact .kept (kept_skip _ _ _)
      | ok fd =>
          exact .pushed (w.texts.toStringLossy raw) fd
            (Bool.not_eq_true _ ▸ hname) (by omega) rfl rfl rfl

theorem entryStep_passOn {dir : OpenDir δ} {name : String}
    (hname : isNeverTouchFile w.texts name.toList = false)
    (ext : Option (List Char)) (cf : ContainedFile) (s : WalkState δ) :
    EntryStep w dir s (w.passOn (dir.relDir ++ [name]) ext cf s) := by
  unfold Walk.passOn
  dsimp only
  split
  · exact .kept ⟨rfl, rfl, rfl⟩
  · rename_i hseen
    have hnew : cf.identity ∉ s.seen := by simpa using hseen
    cases w.sink s.walked _ with
    | ok u => exact .passed name _ hname rfl hnew rfl rfl rfl
    | error e => exact .passed name _ hname rfl hnew rfl rfl rfl

theorem entryStep_visitFile (dir : OpenDir δ) (raw : OsName)
    (s : WalkState δ) : EntryStep w dir s (w.visitFile dir raw s) := by
  unfold Walk.visitFile
  dsimp only
  split
  · exact .kept (kept_skip _ _ _)
  · rename_i hname
    split
    · exact .kept (kept_skip _ _ _)
    · exact .kept (kept_drop _ _ _)
    · exact .ite (.kept (kept_skip _ _ _))
        (entryStep_passOn (by simpa using hname) _ _ _)

theorem entryStep_visitEntry (dir : OpenDir δ) (raw : OsName)
    (s : WalkState δ) : EntryStep w dir s (w.visitEntry dir raw s) := by
  unfold Walk.visitEntry
  split
  · exact .kept (kept_skip _ _ _)
  · exact .kept ⟨rfl, rfl, rfl⟩
  · exact entryStep_visitDir dir raw s
  · exact entryStep_visitFile dir raw s
  · exact .kept ⟨rfl, rfl, rfl⟩

/-- What every visit of an entry preserves, with the entries counted, the
visit of a folder's entries preserves. -/
theorem visitEntries_inv {dir : OpenDir δ}
    {P : Nat → WalkState δ → Prop}
    (hkept : ∀ k s s', s.Kept s' → P k s → P k s')
    (hstep : ∀ k s s', EntryStep w dir s s' → P k s → P (k + 1) s')
    (entries : List OsName) :
    ∀ (i k : Nat) (s : WalkState δ), P k s →
      ∃ n, n ≤ k + entries.length ∧ P n (w.visitEntries dir i entries s) := by
  induction entries with
  | nil =>
      intro i k s h
      exact ⟨k, Nat.le_refl _, h⟩
  | cons raw rest ih =>
      intro i k s h
      rw [Walk.visitEntries]
      generalize hs₁ : (if i % 0x4000 = 0 then w.checkBudget dir.relDir s
        else s) = s₁
      have h₁ : P k s₁ := by
        rw [← hs₁]
        split
        · exact hkept k _ _ (kept_checkBudget _ _) h
        · exact h
      dsimp only
      split
      · exact ⟨k, Nat.le_add_right _ _, h₁⟩
      · have h₂ : P (k + 1) (w.visitEntry dir raw s₁) :=
          hstep k _ _ (entryStep_visitEntry dir raw s₁) h₁
        split
        · refine ⟨k + 1, ?_, h₂⟩
          rw [List.length_cons]
          omega
        · obtain ⟨n, hn, hlast⟩ := ih (i + 1) (k + 1) _ h₂
          refine ⟨n, ?_, hlast⟩
          rw [List.length_cons]
          omega

/-! ## Containment -/

/-- The files handed on. -/
def WalkState.identities (s : WalkState δ) : List FileIdentity :=
  s.walked.map fun wf => wf.file.identity

/-- A folder on the stack was reached through folders the filter lets pass,
within the depth cap. -/
structure OpenDir.Clean (w : Walk δ) (dir : OpenDir δ) : Prop where
  dirs : CleanDirs w.texts dir.relDir
  depth : dir.depth ≤ w.limits.maxWalkDepth
  length_eq : dir.relDir.length = dir.depth

/-- A file handed on lies below the granted folder, in no protected location
there and within the depth cap. -/
def WalkedFile.Contained (w : Walk δ) (wf : WalkedFile) : Prop :=
  ∃ dirs name, wf.canonicalPath = w.grantRoot ++ (dirs ++ [name]) ∧
    ¬ NeverTouch w.texts (dirs ++ [name]) ∧
    dirs.length ≤ w.limits.maxWalkDepth

/-- What holds of a walk that began with the inodes `seen₀`. -/
structure WalkInv (w : Walk δ) (seen₀ : List FileIdentity)
    (s : WalkState δ) : Prop where
  stack : ∀ dir ∈ s.stack, dir.Clean w
  walked : ∀ wf ∈ s.walked, wf.Contained w
  seen : ∀ id, id ∈ s.seen ↔ id ∈ seen₀ ∨ id ∈ s.identities
  nodup : s.identities.Nodup
  fresh : ∀ id ∈ s.identities, id ∉ seen₀

variable {seen₀ : List FileIdentity} {s s' : WalkState δ}

theorem WalkInv.kept (h : WalkInv w seen₀ s) (hk : s.Kept s') :
    WalkInv w seen₀ s' := by
  have hids : s'.identities = s.identities := by
    rw [WalkState.identities, hk.walked_eq, WalkState.identities]
  exact
    { stack := by
        rw [hk.stack_eq]
        exact h.stack
      walked := by
        rw [hk.walked_eq]
        exact h.walked
      seen := by
        rw [hk.seen_eq, hids]
        exact h.seen
      nodup := by
        rw [hids]
        exact h.nodup
      fresh := by
        rw [hids]
        exact h.fresh }

theorem WalkInv.pushed (h : WalkInv w seen₀ s) {dir : OpenDir δ}
    (hdir : dir.Clean w) (hstack : s'.stack = dir :: s.stack)
    (hseen : s'.seen = s.seen) (hwalked : s'.walked = s.walked) :
    WalkInv w seen₀ s' := by
  have hrest : WalkInv w seen₀ { s' with stack := s.stack } :=
    h.kept ⟨rfl, hseen, hwalked⟩
  refine { hrest with stack := ?_ }
  intro d hd
  rw [hstack] at hd
  rcases List.mem_cons.mp hd with rfl | hmem
  · exact hdir
  · exact h.stack d hmem

theorem WalkInv.passed (h : WalkInv w seen₀ s) {wf : WalkedFile}
    (hwf : wf.Contained w) (hnew : wf.file.identity ∉ s.seen)
    (hstack : s'.stack = s.stack)
    (hseen : s'.seen = wf.file.identity :: s.seen)
    (hwalked : s'.walked = s.walked ++ [wf]) : WalkInv w seen₀ s' := by
  have hids : s'.identities = s.identities ++ [wf.file.identity] := by
    rw [WalkState.identities, hwalked, List.map_append]
    rfl
  have hold : wf.file.identity ∉ seen₀ ∧
      wf.file.identity ∉ s.identities := by
    rw [h.seen] at hnew
    exact not_or.mp hnew
  exact
    { stack := by
        rw [hstack]
        exact h.stack
      walked := by
        intro f hf
        rw [hwalked] at hf
        rcases List.mem_append.mp hf with hmem | hmem
        · exact h.walked f hmem
        · rw [List.mem_singleton.mp hmem]
          exact hwf
      seen := by
        intro id
        rw [hseen, hids, List.mem_cons, h.seen, List.mem_append,
          List.mem_singleton, or_comm, or_assoc]
      nodup := by
        rw [hids]
        exact List.nodup_append.mpr ⟨h.nodup, List.nodup_singleton _, by
          intro a ha b hb
          rw [List.mem_singleton.mp hb]
          exact fun heq => hold.2 (heq ▸ ha)⟩
      fresh := by
        intro id hid
        rw [hids] at hid
        rcases List.mem_append.mp hid with hmem | hmem
        · exact h.fresh id hmem
        · rw [List.mem_singleton.mp hmem]
          exact hold.1 }

theorem WalkInv.entryStep {dir : OpenDir δ} (hdir : dir.Clean w)
    (h : WalkInv w seen₀ s) (hstep : EntryStep w dir s s') :
    WalkInv w seen₀ s' := by
  cases hstep with
  | kept hk => exact h.kept hk
  | pushed name fd hname hdepth hstack hseen hwalked =>
      have hchild : OpenDir.Clean w
          ⟨fd, dir.relDir ++ [name], dir.depth + 1⟩ :=
        { dirs := hdir.dirs.concat hname
          depth := hdepth
          length_eq := by simp [hdir.length_eq] }
      exact h.pushed hchild hstack hseen hwalked
  | passed name wf hname hpath hnew hstack hseen hwalked =>
      have hwf : wf.Contained w := by
        refine ⟨dir.relDir, name, hpath,
          not_neverTouch_of_clean hdir.dirs hname, ?_⟩
        have hlen := hdir.length_eq
        have hdepth := hdir.depth
        omega
      exact h.passed hwf hnew hstack hseen hwalked

/-- The end of a walk changes nothing else. -/
theorem kept_ended (s : WalkState δ) (e : WalkEnd) :
    s.Kept { s with ended := some e } := ⟨rfl, rfl, rfl⟩

/-- What is buffered of a folder stays within the entry cap. -/
theorem bufferEntries_length {cap : Nat} {l : List (Except String OsName)} :
    ∀ {acc entries : List OsName} {cut : Bool}, acc.length ≤ cap →
      bufferEntries cap acc l = .ok (entries, cut) →
      entries.length ≤ cap := by
  induction l with
  | nil =>
      intro acc entries cut hacc h
      cases h
      exact hacc
  | cons x rest ih =>
      intro acc entries cut hacc h
      cases x with
      | error e => cases h
      | ok name =>
          rw [bufferEntries] at h
          split at h
          · exact ih hacc h
          · split at h
            · cases h
              exact hacc
            · refine ih ?_ h
              rw [List.length_append, List.length_singleton]
              omega

/-- What every visit of an entry preserves, with the entries counted, the
visit of a folder preserves. -/
theorem visitFolder_inv (dir : OpenDir δ) {P : Nat → WalkState δ → Prop}
    (hkept : ∀ k s s', s.Kept s' → P k s → P k s')
    (hstep : ∀ k s s', EntryStep w dir s s' → P k s → P (k + 1) s')
    (s : WalkState δ) (h : P 0 s) :
    ∃ n, n ≤ w.limits.maxDirEntries ∧ P n (w.visitFolder dir s) := by
  unfold Walk.visitFolder
  have h₁ := hkept 0 _ _ (kept_checkBudget (w := w) dir.relDir s) h
  generalize w.checkBudget dir.relDir s = s₁ at h₁
  dsimp only
  split
  · exact ⟨0, Nat.zero_le _, h₁⟩
  · cases w.folders.readFrom dir.fd with
    | error e => exact ⟨0, Nat.zero_le _, hkept 0 _ _ (kept_ended _ _) h₁⟩
    | ok l =>
        simp only [Except.bind]
        cases hread : bufferEntries w.limits.maxDirEntries [] l with
        | error e =>
            exact ⟨0, Nat.zero_le _, hkept 0 _ _ (kept_ended _ _) h₁⟩
        | ok r =>
            have hlen := bufferEntries_length (Nat.zero_le _) hread
            have h₂ : P 0 (if r.2 then
                w.skip dir.relDir "directory entry cap exceeded" s₁
              else s₁) := by
              split
              · exact hkept 0 _ _ (kept_skip _ _ _) h₁
              · exact h₁
            obtain ⟨n, hn, hlast⟩ :=
              visitEntries_inv (w := w) hkept hstep r.1 0 0 _ h₂
            exact ⟨n, by omega, hlast⟩

theorem WalkInv.visitFolder {dir : OpenDir δ} (hdir : dir.Clean w)
    (h : WalkInv w seen₀ s) : WalkInv w seen₀ (w.visitFolder dir s) := by
  obtain ⟨-, -, hinv⟩ := visitFolder_inv (w := w) dir
    (P := fun _ => WalkInv w seen₀) (fun _ _ _ hk h => h.kept hk)
    (fun _ _ _ hstep h => h.entryStep hdir hstep) s h
  exact hinv

theorem WalkInv.loop (fuel : Nat) :
    ∀ {s : WalkState δ}, WalkInv w seen₀ s →
      WalkInv w seen₀ (w.loop fuel s) := by
  induction fuel with
  | zero =>
      intro s h
      exact h
  | succ fuel ih =>
      intro s h
      rw [Walk.loop]
      split
      · exact h
      · cases hstack : s.stack with
        | nil => exact h.kept ⟨hstack.symm, rfl, rfl⟩
        | cons dir rest =>
            have hpopped : WalkInv w seen₀ { s with stack := rest } :=
              { h with
                stack := fun d hd => h.stack d (by
                  rw [hstack]
                  exact List.mem_cons_of_mem dir hd) }
            have hdir : dir.Clean w := h.stack dir (by simp [hstack])
            exact ih (hpopped.visitFolder hdir)

/-! ## Termination -/

/-- The folders read below an open folder, itself included. -/
def OpenDir.folderCount (w : Walk δ) (dir : OpenDir δ) : Nat :=
  AirNote.folderCount w.limits.maxDirEntries
    (w.limits.maxWalkDepth - dir.depth)

/-- The folders still to be read. -/
def stackWeight (w : Walk δ) (stack : List (OpenDir δ)) : Nat :=
  (stack.map (OpenDir.folderCount w)).sum

/-- The folders read below one subfolder of a folder with so many levels
below it. -/
def childCount (maxDirEntries : Nat) : Nat → Nat
  | 0 => 0
  | levels + 1 => folderCount maxDirEntries levels

theorem folderCount_eq (maxDirEntries levels : Nat) :
    folderCount maxDirEntries levels =
      1 + maxDirEntries * childCount maxDirEntries levels := by
  cases levels with
  | zero => rfl
  | succ levels => rfl

/-- The visit of a folder adds at most its subfolders, a level deeper, and
none at the depth cap. -/
theorem stackWeight_visitFolder (dir : OpenDir δ) (s : WalkState δ) :
    stackWeight w (w.visitFolder dir s).stack + 1 ≤
      stackWeight w s.stack + dir.folderCount w := by
  let levels := w.limits.maxWalkDepth - dir.depth
  let child := childCount w.limits.maxDirEntries levels
  obtain ⟨n, hn, hgrown⟩ := visitFolder_inv (w := w) dir
    (P := fun n s' => stackWeight w s'.stack ≤
      stackWeight w s.stack + n * child)
    (fun n a b hk h => by
      rw [hk.stack_eq]
      exact h)
    (fun n a b hstep h => by
      have hsucc : (n + 1) * child = n * child + child := Nat.succ_mul n child
      cases hstep with
      | kept hk =>
          rw [hk.stack_eq]
          omega
      | pushed name fd _ hdepth hstack _ _ =>
          have hlevels : levels =
              w.limits.maxWalkDepth - (dir.depth + 1) + 1 := by
            show w.limits.maxWalkDepth - dir.depth = _
            omega
          have hchild : child = folderCount w.limits.maxDirEntries
              (w.limits.maxWalkDepth - (dir.depth + 1)) := by
            show childCount _ levels = _
            rw [hlevels]
            rfl
          have hpush : stackWeight w b.stack =
              child + stackWeight w a.stack := by
            rw [hstack, stackWeight, List.map_cons, List.sum_cons,
              OpenDir.folderCount, ← hchild]
            rfl
          omega
      | passed name wf _ _ _ hstack _ _ =>
          rw [hstack]
          omega) s (by omega)
  have hcap : n * child ≤ w.limits.maxDirEntries * child :=
    Nat.mul_le_mul_right child hn
  have hcount : dir.folderCount w = 1 + w.limits.maxDirEntries * child :=
    folderCount_eq ..
  omega

/-- With more steps than folders left to read, the loop ends. -/
theorem loop_ends (fuel : Nat) :
    ∀ {s : WalkState δ}, stackWeight w s.stack < fuel →
      (w.loop fuel s).ended.isSome = true := by
  induction fuel with
  | zero =>
      intro s h
      omega
  | succ fuel ih =>
      intro s h
      rw [Walk.loop]
      split
      · assumption
      · cases hstack : s.stack with
        | nil => rfl
        | cons dir rest =>
            have hvisit := stackWeight_visitFolder (w := w) dir
              { s with stack := rest }
            rw [hstack, stackWeight, List.map_cons, List.sum_cons,
              ← stackWeight] at h
            dsimp only at hvisit
            exact ih (by omega)

variable (w)

/-- Below the granted folder the walk enters no protected folder and hands
on no protected file; no inode is handed on twice, nor one seen before the
walk; and the walk ends, having read at most `folderCount` folders. -/
theorem walk_grant_contained (seen₀ : List FileIdentity)
    (report : IngestReport) :
    (∀ wf ∈ (walkGrant w seen₀ report).walked, wf.Contained w) ∧
      (walkGrant w seen₀ report).identities.Nodup ∧
      (∀ id ∈ (walkGrant w seen₀ report).identities, id ∉ seen₀) ∧
      (walkGrant w seen₀ report).ended.isSome = true := by
  unfold walkGrant
  dsimp only
  cases w.folders.openRoot w.grantRoot with
  | error e => simp [WalkState.identities]
  | ok fd =>
      let s : WalkState δ :=
        { stack := [⟨fd, [], 0⟩], readings := 0, seen := seen₀,
          report := report, walked := [], ended := none }
      have hroot : OpenDir.Clean w ⟨fd, [], 0⟩ :=
        { dirs := cleanDirs_nil w.texts
          depth := Nat.zero_le _
          length_eq := rfl }
      have hinv : WalkInv w seen₀ s :=
        { stack := by
            intro dir hdir
            rw [List.mem_singleton.mp hdir]
            exact hroot
          walked := by simp [s]
          seen := by simp [s, WalkState.identities]
          nodup := List.nodup_nil
          fresh := by simp [s, WalkState.identities] }
      have hlast := hinv.loop (w.limits.folderCount + 1)
      have hweight : stackWeight w s.stack < w.limits.folderCount + 1 := by
        show stackWeight w [⟨fd, [], 0⟩] < _
        simp [stackWeight, OpenDir.folderCount, WalkLimits.folderCount]
      exact ⟨hlast.walked, hlast.nodup, hlast.fresh, loop_ends _ hweight⟩

end

/-- One granted folder with one file in it, named `config`. -/
def keysFolder : Walk Unit :=
  { texts :=
      { toStringLossy := fun raw =>
          String.ofList (raw.map fun b => Char.ofNat b.toNat)
        lowerChar := fun c => [c.toLower]
        lowerChar_slash := by decide }
    folders :=
      { openRoot := fun _ => .ok ()
        readFrom := fun _ => .ok [.ok [99, 111, 110, 102, 105, 103]]
        statat := fun _ _ => .ok .regularFile
        openDir := fun _ _ => .error "ENOTDIR"
        carefulOpenFile := fun _ _ => .ok ⟨⟨1, 2⟩, 400⟩ }
    limits := WalkLimits.default
    elapsed := fun _ => 0
    sink := fun _ _ => .ok ()
    grantRoot := ["home", "ann", ".ssh"] }

/-- A granted folder that is itself protected is walked: the filter reads
names below it only. -/
theorem walk_grant_ingests_protected :
    ¬ ∀ (w : Walk Unit) (seen₀ : List FileIdentity) (report : IngestReport),
      ∀ wf ∈ (walkGrant w seen₀ report).walked,
        ¬ NeverTouch w.texts wf.canonicalPath := by
  intro h
  have hwalked : (walkGrant keysFolder [] ⟨0, 0, 0, [], []⟩).walked =
      [⟨⟨⟨1, 2⟩, 400⟩, ["home", "ann", ".ssh", "config"], ⟨none⟩⟩] := by
    decide +kernel
  have hclean := h keysFolder [] ⟨0, 0, 0, [], []⟩ _
    (by rw [hwalked]; exact List.mem_singleton_self _)
  have hlower : keysFolder.texts.toLowercase ".ssh".toList =
      ".ssh".toList := by decide +kernel
  exact hclean (.inl ⟨".ssh", by simp, ".ssh", by simp [neverTouchDirs],
    hlower⟩)

end AirNote
