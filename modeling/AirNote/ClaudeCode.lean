import AirNote.Json
import AirNote.Lib.Infix

/-!
# The Claude Code integration

The app registers itself in two files of another program: its server under
`mcpServers` of the one, and two hook groups under `hooks` of the other. Both
files are read and checked before either is written, and they are written one
after the other. What is ours is told by marks in the text: the key of the
server, and in a hook group some command that names our program and our
subcommand.

A file is what `serde_json` reads of it. Members keep their order; a removal
puts the last member in the place of the removed one.

## Main results

* `connect_again_iff` — when a second call changes nothing.
* `disconnect_connect`, `disconnect_connect_clean` — what the two calls, one
  after the other, leave.
* `detect_connect` — what the app shows afterwards.
* `connect_retry`, `disconnect_retry` — what a call that fails leaves, and that
  it can be repeated.
-/

namespace AirNote.ClaudeCode

open Lib

abbrev Fields := List (String × Json)

/-! ## Members -/

/-- `Map::remove`, where the members are kept in order: the last one takes the
place of the removed one. -/
def swapRemove (k : String) : Fields → Fields
  | [] => []
  | f :: rest =>
      if f.1 = k then rest.getLast?.toList ++ rest.dropLast
      else f :: swapRemove k rest

/-! ## The files -/

/-- A file as it is read: it is not there, has nothing but white space, is no
JSON (with what the parser says of it), or is the text of a value. -/
inductive ConfigFile where
  | absent
  | blank (text : String)
  | garbled (text why : String)
  | json (v : Json)
  deriving DecidableEq

/-- The paths of the two files, as an error names them. -/
structure ClaudeCodePaths where
  claudeJson : String
  settingsJson : String

/-- What the two calls read and write. -/
structure ClaudeConfig where
  claudeDir : Bool
  claudeJson : ConfigFile
  settingsJson : ConfigFile
  deriving DecidableEq

/-- What the operating system may refuse. -/
inductive IoStep where
  | readClaude
  | readSettings
  | makeDir
  | writeClaude
  | writeSettings
  deriving DecidableEq

inductive IoError where
  | invalidData (message : String)
  | refused (step : IoStep)
  deriving DecidableEq

/-- `invalid`, and the message of a text that does not parse. -/
def invalid (path why : String) : IoError :=
  .invalidData ("couldn't parse " ++ path ++ ": " ++ why ++
    "; nothing changed")

/-- `read_json_object`. -/
def readJsonObject (fails : IoStep → Bool) (step : IoStep) (path : String) :
    ConfigFile → Except IoError (Option Json) :=
  fun file =>
    if fails step then .error (.refused step)
    else
      match file with
      | .absent => .ok none
      | .blank _ => .ok none
      | .garbled _ why => .error (invalid path why)
      | .json v => .ok (some v)

/-! ## What is ours -/

/-- `MCP_SERVER_KEY`. -/
def mcpServerKey : String := "air-memory"

/-- `HOOK_MARKER`. -/
def hookMarker : String := "air-memory-mcp"

def contains (text mark : String) : Bool :=
  decide (mark.toList <:+: text.toList)

/-- `group_has_command_with`. -/
def groupHasCommandWith (group : Json) (subcommand : String) : Bool :=
  match group.get? "hooks" with
  | some (.arr hooks) => hooks.any fun h =>
      match h.getStr? "command" with
      | some c => contains c hookMarker && contains c subcommand
      | none => false
  | _ => false

def isOurHookGroup (group : Json) : Bool := groupHasCommandWith group "nudge"

def isOurCaptureGroup (group : Json) : Bool :=
  groupHasCommandWith group "capture-notify"

def mcpServerEntry (binary socket : String) : Json :=
  .obj [("type", .str "stdio"), ("command", .str binary), ("args", .arr []),
    ("env", .obj [("BOSSCLAWD_SOCKET", .str socket)])]

/-- The single quote. -/
def quote : Char := Char.ofNat 39

/-- A character between single quotes. -/
def quoted (c : Char) : List Char :=
  if c = quote then [quote, Char.ofNat 92, quote, quote] else [c]

def shSingleQuote (s : String) : String :=
  String.ofList (quote :: (s.toList.flatMap quoted ++ [quote]))

/-- A hook group that runs a subcommand of the binary. -/
def hookGroup (binary subcommand : String) : Json :=
  .obj [("hooks", .arr [.obj [("type", .str "command"),
    ("command", .str (shSingleQuote binary ++ " " ++ subcommand)),
    ("timeout", .num 5)]])]

def nudgeHookGroup (binary : String) : Json := hookGroup binary "nudge"

def captureHookGroup (binary : String) : Json :=
  hookGroup binary "capture-notify"

/-! ## Connecting -/

/-- `ensure_object`: what stands under the key, or nothing yet. -/
def ensureObject (fields : Fields) (key path : String) :
    Except IoError Fields :=
  match Json.lookup key fields with
  | none => .ok []
  | some (.obj inner) => .ok inner
  | some _ => .error (invalid path ("\"" ++ key ++ "\" is not an object"))

/-- `ensure_array`. -/
def ensureArray (fields : Fields) (key path : String) :
    Except IoError (List Json) :=
  match Json.lookup key fields with
  | none => .ok []
  | some (.arr items) => .ok items
  | some _ => .error (invalid path ("\"" ++ key ++ "\" is not an array"))

/-- `as_object_mut` of the whole file. -/
def topLevel (path : String) : Json → Except IoError Fields
  | .obj fields => .ok fields
  | _ => .error (invalid path "top-level JSON is not an object")

/-- The file of the servers with ours. -/
def withServer (path : String) (root : Json) (binary socket : String) :
    Except IoError Json :=
  (topLevel path root).bind fun fields =>
    (ensureObject fields "mcpServers" path).bind fun servers =>
      .ok (.obj (Json.insertKey "mcpServers" (.obj (Json.insertKey mcpServerKey
        (mcpServerEntry binary socket) servers)) fields))

/-- The groups of a kind with ours at their end, and no other of ours. -/
def withGroup (path kind : String) (isOurs : Json → Bool) (ours : Json)
    (hooks : Fields) : Except IoError Fields :=
  (ensureArray hooks kind path).bind fun groups =>
    .ok (Json.insertKey kind
      (.arr ((groups.filter fun g => !isOurs g) ++ [ours])) hooks)

/-- The file of the hooks with ours. -/
def withHooks (path : String) (root : Json) (binary : String) :
    Except IoError Json :=
  (topLevel path root).bind fun fields =>
    (ensureObject fields "hooks" path).bind fun hooks =>
      (withGroup path "SessionStart" isOurHookGroup (nudgeHookGroup binary)
          hooks).bind fun hooks =>
        (withGroup path "SessionEnd" isOurCaptureGroup
            (captureHookGroup binary) hooks).bind fun hooks =>
          .ok (.obj (Json.insertKey "hooks" (.obj hooks) fields))

/-- The first phase of `connect`: what is to be written. -/
def plan (fails : IoStep → Bool) (paths : ClaudeCodePaths) (s : ClaudeConfig)
    (binary socket : String) : Except IoError (Json × Json) :=
  (readJsonObject fails .readClaude paths.claudeJson s.claudeJson).bind
    fun claude =>
      (withServer paths.claudeJson (claude.getD (.obj [])) binary socket).bind
        fun claude =>
          (readJsonObject fails .readSettings paths.settingsJson
              s.settingsJson).bind fun settings =>
            (withHooks paths.settingsJson (settings.getD (.obj []))
                binary).bind fun settings => .ok (claude, settings)

/-- The second phase: both files are written, one after the other. -/
def writeBoth (fails : IoStep → Bool) (s : ClaudeConfig)
    (claude settings : Json) : Except IoError Unit × ClaudeConfig :=
  if !s.claudeDir && fails .makeDir then (.error (.refused .makeDir), s)
  else if fails .writeClaude then
    (.error (.refused .writeClaude), { s with claudeDir := true })
  else if fails .writeSettings then
    (.error (.refused .writeSettings),
      { s with claudeDir := true, claudeJson := .json claude })
  else (.ok (), ⟨true, .json claude, .json settings⟩)

def connect (fails : IoStep → Bool) (paths : ClaudeCodePaths)
    (s : ClaudeConfig) (binary socket : String) :
    Except IoError Unit × ClaudeConfig :=
  match plan fails paths s binary socket with
  | .error e => (.error e, s)
  | .ok (claude, settings) => writeBoth fails s claude settings

/-! ## Disconnecting -/

/-- The file of the servers without ours, where it has ours. -/
def withoutServer : Json → Option Json
  | .obj fields =>
      match Json.lookup "mcpServers" fields with
      | some (.obj servers) =>
          if (Json.lookup mcpServerKey servers).isSome then
            some (.obj (Json.insertKey "mcpServers"
              (.obj (swapRemove mcpServerKey servers)) fields))
          else none
      | _ => none
  | _ => none

/-- `retain_out_group`: the groups of a kind without ours, and whether there
was one. -/
def retainOutGroup (kind : String) (isOurs : Json → Bool) (hooks : Fields) :
    Fields × Bool :=
  match Json.lookup kind hooks with
  | some (.arr groups) =>
      let kept := groups.filter fun g => !isOurs g
      (Json.insertKey kind (.arr kept) hooks,
        decide (kept.length ≠ groups.length))
  | _ => (hooks, false)

/-- The file of the hooks without ours, where it has one of ours. -/
def withoutHooks : Json → Option Json
  | .obj fields =>
      match Json.lookup "hooks" fields with
      | some (.obj hooks) =>
          let starts := retainOutGroup "SessionStart" isOurHookGroup hooks
          let ends := retainOutGroup "SessionEnd" isOurCaptureGroup starts.1
          if starts.2 || ends.2 then
            some (.obj (Json.insertKey "hooks" (.obj ends.1) fields))
          else none
      | _ => none
  | _ => none

/-- A write of a file that is to be changed. -/
def writeChanged (fails : IoStep → Bool) (step : IoStep) (old : ConfigFile) :
    Option Json → Except IoError Unit × ConfigFile
  | none => (.ok (), old)
  | some v =>
      if fails step then (.error (.refused step), old) else (.ok (), .json v)

def disconnect (fails : IoStep → Bool) (paths : ClaudeCodePaths)
    (s : ClaudeConfig) : Except IoError Unit × ClaudeConfig :=
  match readJsonObject fails .readClaude paths.claudeJson s.claudeJson with
  | .error e => (.error e, s)
  | .ok claude =>
      match readJsonObject fails .readSettings paths.settingsJson
        s.settingsJson with
      | .error e => (.error e, s)
      | .ok settings =>
          match writeChanged fails .writeClaude s.claudeJson
            (claude.bind withoutServer) with
          | (.error e, _) => (.error e, s)
          | (.ok (), claudeJson) =>
              let second := writeChanged fails .writeSettings s.settingsJson
                (settings.bind withoutHooks)
              (second.1, { s with claudeJson, settingsJson := second.2 })

/-! ## Marks in a command -/

/-- The path of the binary has our mark. -/
def Marked (binary : String) : Prop :=
  hookMarker.toList <:+: binary.toList

instance (binary : String) : Decidable (Marked binary) :=
  inferInstanceAs (Decidable (_ <:+: _))

/-- Escaping brings no mark into a text and takes none out. -/
theorem infix_flatMap_quoted_iff {m : List Char} (hm : m ≠ [])
    (hquote : quote ∉ m) (hslash : Char.ofNat 92 ∉ m) (s : List Char) :
    ∀ pre, m <:+: pre ++ s.flatMap quoted ↔ m <:+: pre ++ s := by
  have hnil : ¬ m <:+: [] := fun h => hm (List.eq_nil_of_infix_nil h)
  induction s with
  | nil => exact fun _ => Iff.rfl
  | cons c s ih =>
      intro pre
      rw [List.flatMap_cons]
      by_cases hc : c = quote
      · rw [quoted, if_pos hc, hc]
        show m <:+: pre ++ quote :: (([] : List Char) ++ Char.ofNat 92 ::
          (([] : List Char) ++ quote :: (([] : List Char) ++
            quote :: s.flatMap quoted))) ↔ _
        have hrest := ih []
        rw [List.nil_append, List.nil_append] at hrest
        rw [Infix.append_cons_iff hm hquote, Infix.append_cons_iff hm hslash,
          Infix.append_cons_iff hm hquote, Infix.append_cons_iff hm hquote,
          Infix.append_cons_iff hm hquote, hrest]
        simp only [hnil, false_or]
      · rw [quoted, if_neg hc]
        show m <:+: pre ++ c :: s.flatMap quoted ↔ m <:+: pre ++ c :: s
        have hrest := ih (pre ++ [c])
        rw [List.append_assoc, List.append_assoc] at hrest
        exact hrest

theorem contains_command_iff {binary subcommand : String}
    (hsub : ¬ hookMarker.toList <:+: subcommand.toList) :
    contains (shSingleQuote binary ++ " " ++ subcommand) hookMarker = true ↔
      Marked binary := by
  have hm : hookMarker.toList ≠ [] := by decide
  have hquote : quote ∉ hookMarker.toList := by decide
  have hslash : Char.ofNat 92 ∉ hookMarker.toList := by decide
  have hblank : Char.ofNat 32 ∉ hookMarker.toList := by decide
  have hnil : ¬ hookMarker.toList <:+: [] :=
    fun h => hm (List.eq_nil_of_infix_nil h)
  have htext : (shSingleQuote binary ++ " " ++ subcommand).toList =
      (([] : List Char) ++ quote :: (binary.toList.flatMap quoted ++
        quote :: [])) ++ Char.ofNat 32 :: subcommand.toList := by
    rw [String.toList_append, String.toList_append, shSingleQuote,
      String.toList_ofList, List.append_assoc]
    rfl
  have hpath := infix_flatMap_quoted_iff hm hquote hslash binary.toList []
  rw [List.nil_append, List.nil_append] at hpath
  rw [contains, decide_eq_true_eq, htext, Infix.append_cons_iff hm hblank,
    Infix.append_cons_iff hm hquote, Infix.append_cons_iff hm hquote, hpath,
    Marked]
  simp only [hnil, hsub, false_or, or_false]

/-- A group of ours is told from the path of the binary. -/
theorem groupHasCommandWith_hookGroup {binary subcommand : String}
    (hsub : ¬ hookMarker.toList <:+: subcommand.toList) :
    groupHasCommandWith (hookGroup binary subcommand) subcommand = true ↔
      Marked binary := by
  have hend : contains (shSingleQuote binary ++ " " ++ subcommand) subcommand =
      true := by
    rw [contains, decide_eq_true_eq, String.toList_append]
    exact (List.suffix_append _ _).isInfix
  have hgroup : groupHasCommandWith (hookGroup binary subcommand) subcommand =
      (contains (shSingleQuote binary ++ " " ++ subcommand) hookMarker &&
        contains (shSingleQuote binary ++ " " ++ subcommand) subcommand) := by
    simp [groupHasCommandWith, hookGroup, Json.get?, Json.getStr?,
      Json.lookup, Json.asStr]
  rw [hgroup, hend, Bool.and_true]
  exact contains_command_iff hsub

theorem isOurHookGroup_nudge (binary : String) :
    isOurHookGroup (nudgeHookGroup binary) = true ↔ Marked binary :=
  groupHasCommandWith_hookGroup (by decide)

theorem isOurCaptureGroup_capture (binary : String) :
    isOurCaptureGroup (captureHookGroup binary) = true ↔ Marked binary :=
  groupHasCommandWith_hookGroup (by decide)

/-! ## Members after an insertion -/

theorem insertKey_insertKey (k : String) (v w : Json) (fields : Fields) :
    Json.insertKey k w (Json.insertKey k v fields) =
      Json.insertKey k w fields := by
  induction fields with
  | nil => simp [Json.insertKey]
  | cons f rest ih =>
      by_cases hk : f.1 = k
      · simp [Json.insertKey, hk]
      · simp [Json.insertKey, hk, ih]

theorem insertKey_of_lookup {k : String} {v : Json} {fields : Fields}
    (h : Json.lookup k fields = some v) :
    Json.insertKey k v fields = fields := by
  induction fields with
  | nil => cases h
  | cons f rest ih =>
      rw [Json.lookup] at h
      by_cases hk : f.1 = k
      · rw [if_pos hk] at h
        rw [Json.insertKey, if_pos hk, ← hk, ← Option.some.inj h]
      · rw [if_neg hk] at h
        rw [Json.insertKey, if_neg hk, ih h]

/-- Two insertions commute where one of the names is there. -/
theorem insertKey_comm {k k' : String} (hne : k ≠ k') (v w : Json)
    {fields : Fields} (h : (Json.lookup k fields).isSome) :
    Json.insertKey k v (Json.insertKey k' w fields) =
      Json.insertKey k' w (Json.insertKey k v fields) := by
  induction fields with
  | nil => cases h
  | cons f rest ih =>
      by_cases hk : f.1 = k
      · have hf : ¬ f.1 = k' := fun heq => hne (hk.symm.trans heq)
        simp [Json.insertKey, hk, hne]
      · rw [Json.lookup, if_neg hk] at h
        by_cases hk' : f.1 = k'
        · simp [Json.insertKey, hk', hne.symm]
        · simp [Json.insertKey, hk, hk', ih h]

/-- What a name is bound to does not depend on the order. -/
theorem lookup_perm {fields fields' : Fields} (hperm : fields.Perm fields')
    (hnodup : (fields.map Prod.fst).Nodup) (k : String) :
    Json.lookup k fields = Json.lookup k fields' := by
  have hnodup' : (fields'.map Prod.fst).Nodup :=
    (hperm.map Prod.fst).nodup_iff.mp hnodup
  apply Option.ext
  intro v
  constructor
  · intro h
    exact Json.lookup_of_mem hnodup' (hperm.mem_iff.mp (Json.mem_of_lookup h))
  · intro h
    exact Json.lookup_of_mem hnodup (hperm.mem_iff.mpr (Json.mem_of_lookup h))

/-- The members after the removed one, the last one first. -/
theorem last_first_perm (rest : Fields) :
    (rest.getLast?.toList ++ rest.dropLast).Perm rest := by
  rcases List.eq_nil_or_concat' rest with rfl | ⟨init, last, rfl⟩
  · exact List.Perm.refl _
  · rw [List.getLast?_concat, List.dropLast_concat]
    exact (List.perm_append_singleton last init).symm

theorem lookup_swapRemove_ne {k k' : String} (hne : k' ≠ k) {fields : Fields}
    (hnodup : (fields.map Prod.fst).Nodup) :
    Json.lookup k' (swapRemove k fields) = Json.lookup k' fields := by
  induction fields with
  | nil => rfl
  | cons f rest ih =>
      rw [List.map_cons, List.nodup_cons] at hnodup
      by_cases hk : f.1 = k
      · have hf : ¬ f.1 = k' := fun heq => hne (heq.symm.trans hk)
        rw [swapRemove, if_pos hk, Json.lookup, if_neg hf]
        exact (lookup_perm (last_first_perm rest).symm hnodup.2 k').symm
      · rw [swapRemove, if_neg hk, Json.lookup, Json.lookup, ih hnodup.2]

theorem lookup_swapRemove_self {k : String} {fields : Fields}
    (hnodup : (fields.map Prod.fst).Nodup) :
    Json.lookup k (swapRemove k fields) = none := by
  induction fields with
  | nil => rfl
  | cons f rest ih =>
      rw [List.map_cons, List.nodup_cons] at hnodup
      by_cases hk : f.1 = k
      · rw [swapRemove, if_pos hk, Json.lookup_eq_none]
        intro hmem
        apply hnodup.1
        rw [hk]
        exact ((last_first_perm rest).map Prod.fst).mem_iff.mp hmem
      · rw [swapRemove, if_neg hk, Json.lookup, if_neg hk, ih hnodup.2]

/-- A member that was put at the end is taken away without a trace. -/
theorem swapRemove_insertKey {k : String} {fields : Fields}
    (h : Json.lookup k fields = none) (v : Json) :
    swapRemove k (Json.insertKey k v fields) = fields := by
  induction fields with
  | nil => simp [Json.insertKey, swapRemove]
  | cons f rest ih =>
      rw [Json.lookup] at h
      by_cases hk : f.1 = k
      · rw [if_pos hk] at h
        cases h
      · rw [if_neg hk] at h
        rw [Json.insertKey, if_neg hk, swapRemove, if_neg hk, ih h]

/-! ## What a call plans -/

/-- What stands under a key, as an object. -/
def objectAt (key : String) (fields : Fields) : Fields :=
  match Json.lookup key fields with
  | some (.obj inner) => inner
  | _ => []

/-- What stands under a key, as an array. -/
def arrayAt (key : String) (fields : Fields) : List Json :=
  match Json.lookup key fields with
  | some (.arr items) => items
  | _ => []

theorem objectAt_insertKey_self (key : String) (inner fields : Fields) :
    objectAt key (Json.insertKey key (.obj inner) fields) = inner := by
  rw [objectAt, Json.lookup_insertKey_self]

theorem arrayAt_insertKey_self (key : String) (items : List Json)
    (fields : Fields) :
    arrayAt key (Json.insertKey key (.arr items) fields) = items := by
  rw [arrayAt, Json.lookup_insertKey_self]

theorem arrayAt_insertKey_ne {key key' : String} (hne : key ≠ key') (v : Json)
    (fields : Fields) :
    arrayAt key (Json.insertKey key' v fields) = arrayAt key fields := by
  rw [arrayAt, Json.lookup_insertKey_ne hne, arrayAt]

theorem ensureObject_ok {fields inner : Fields} {key path : String}
    (h : ensureObject fields key path = .ok inner) :
    inner = objectAt key fields := by
  unfold ensureObject at h
  unfold objectAt
  split at h
  next hnone =>
    rw [hnone]
    exact (Except.ok.inj h).symm
  next hsome =>
    rw [hsome]
    exact (Except.ok.inj h).symm
  next => cases h

theorem ensureObject_insertKey (key path : String) (inner fields : Fields) :
    ensureObject (Json.insertKey key (.obj inner) fields) key path =
      .ok inner := by
  rw [ensureObject, Json.lookup_insertKey_self]

theorem ensureArray_ok {fields : Fields} {items : List Json}
    {key path : String} (h : ensureArray fields key path = .ok items) :
    items = arrayAt key fields := by
  unfold ensureArray at h
  unfold arrayAt
  split at h
  next hnone =>
    rw [hnone]
    exact (Except.ok.inj h).symm
  next hsome =>
    rw [hsome]
    exact (Except.ok.inj h).symm
  next => cases h

/-- The groups with ours at their end, and no other of ours. -/
def regroup (isOurs : Json → Bool) (ours : Json) (groups : List Json) :
    List Json :=
  (groups.filter fun g => !isOurs g) ++ [ours]

theorem bind_ok_iff {ε α β : Type} {x : Except ε α} {f : α → Except ε β}
    {b : β} : x.bind f = .ok b ↔ ∃ a, x = .ok a ∧ f a = .ok b := by
  cases x with
  | error e => simp [Except.bind]
  | ok a => simp [Except.bind]

theorem withGroup_ok {path kind : String} {isOurs : Json → Bool} {ours : Json}
    {hooks hooks' : Fields}
    (h : withGroup path kind isOurs ours hooks = .ok hooks') :
    hooks' = Json.insertKey kind
      (.arr (regroup isOurs ours (arrayAt kind hooks))) hooks := by
  obtain ⟨groups, hgroups, hrest⟩ := bind_ok_iff.1 h
  rw [ensureArray_ok hgroups] at hrest
  exact (Except.ok.inj hrest).symm

theorem withGroup_of_lookup {path kind : String} {isOurs : Json → Bool}
    {ours : Json} {hooks : Fields} {groups : List Json}
    (h : Json.lookup kind hooks = some (.arr groups)) :
    withGroup path kind isOurs ours hooks = .ok (Json.insertKey kind
      (.arr (regroup isOurs ours groups)) hooks) := by
  rw [withGroup, ensureArray, h]
  rfl

/-- The file of the servers that is written. -/
def serversWritten (binary socket : String) (fields : Fields) : Json :=
  .obj (Json.insertKey "mcpServers" (.obj (Json.insertKey mcpServerKey
    (mcpServerEntry binary socket) (objectAt "mcpServers" fields))) fields)

theorem topLevel_ok {path : String} {root : Json} {fields : Fields}
    (h : topLevel path root = .ok fields) : root = .obj fields := by
  cases root with
  | obj fields' => rw [Except.ok.inj h]
  | _ => cases h

theorem withServer_ok {path binary socket : String} {root v : Json}
    (h : withServer path root binary socket = .ok v) :
    ∃ fields, root = .obj fields ∧
      v = serversWritten binary socket fields := by
  obtain ⟨fields, hfields, hrest⟩ := bind_ok_iff.1 h
  obtain ⟨servers, hservers, hrest⟩ := bind_ok_iff.1 hrest
  rw [ensureObject_ok hservers] at hrest
  exact ⟨fields, topLevel_ok hfields, (Except.ok.inj hrest).symm⟩

/-- Our server is written over itself. -/
theorem withServer_again (path binary socket : String) (fields : Fields) :
    withServer path (serversWritten binary socket fields) binary socket =
      .ok (serversWritten binary socket fields) := by
  unfold withServer serversWritten topLevel
  dsimp only [Except.bind]
  rw [ensureObject_insertKey]
  dsimp only
  rw [insertKey_insertKey, insertKey_insertKey]

/-- The hooks that are written. -/
def hooksWritten (binary : String) (hooks : Fields) : Fields :=
  Json.insertKey "SessionEnd"
    (.arr (regroup isOurCaptureGroup (captureHookGroup binary)
      (arrayAt "SessionEnd" hooks)))
    (Json.insertKey "SessionStart"
      (.arr (regroup isOurHookGroup (nudgeHookGroup binary)
        (arrayAt "SessionStart" hooks))) hooks)

theorem start_ne_end : "SessionStart" ≠ "SessionEnd" := by decide

theorem withHooks_ok {path binary : String} {root v : Json}
    (h : withHooks path root binary = .ok v) :
    ∃ fields, root = .obj fields ∧
      v = .obj (Json.insertKey "hooks"
        (.obj (hooksWritten binary (objectAt "hooks" fields))) fields) := by
  obtain ⟨fields, hfields, hrest⟩ := bind_ok_iff.1 h
  obtain ⟨hooks, hhooks, hrest⟩ := bind_ok_iff.1 hrest
  obtain ⟨hooks₁, hstart, hrest⟩ := bind_ok_iff.1 hrest
  obtain ⟨hooks₂, hend, hrest⟩ := bind_ok_iff.1 hrest
  have hends := withGroup_ok hend
  rw [withGroup_ok hstart, arrayAt_insertKey_ne (start_ne_end).symm] at hends
  refine ⟨fields, topLevel_ok hfields, ?_⟩
  rw [← Except.ok.inj hrest, hends, ensureObject_ok hhooks, hooksWritten]

theorem lookup_hooksWritten_start (binary : String) (hooks : Fields) :
    Json.lookup "SessionStart" (hooksWritten binary hooks) =
      some (.arr (regroup isOurHookGroup (nudgeHookGroup binary)
        (arrayAt "SessionStart" hooks))) := by
  rw [hooksWritten, Json.lookup_insertKey_ne start_ne_end,
    Json.lookup_insertKey_self]

theorem lookup_hooksWritten_end (binary : String) (hooks : Fields) :
    Json.lookup "SessionEnd" (hooksWritten binary hooks) =
      some (.arr (regroup isOurCaptureGroup (captureHookGroup binary)
        (arrayAt "SessionEnd" hooks))) := by
  rw [hooksWritten, Json.lookup_insertKey_self]

/-- Hooks that were written are written again. -/
theorem withHooks_again (path binary : String) (hooks fields : Fields) :
    withHooks path (.obj (Json.insertKey "hooks"
        (.obj (hooksWritten binary hooks)) fields)) binary =
      .ok (.obj (Json.insertKey "hooks"
        (.obj (hooksWritten binary (hooksWritten binary hooks))) fields)) := by
  unfold withHooks topLevel
  dsimp only [Except.bind]
  rw [ensureObject_insertKey]
  dsimp only
  rw [withGroup_of_lookup (lookup_hooksWritten_start binary hooks)]
  dsimp only
  have hend : Json.lookup "SessionEnd" (Json.insertKey "SessionStart"
      (.arr (regroup isOurHookGroup (nudgeHookGroup binary)
        (regroup isOurHookGroup (nudgeHookGroup binary)
          (arrayAt "SessionStart" hooks)))) (hooksWritten binary hooks)) =
      some (.arr (regroup isOurCaptureGroup (captureHookGroup binary)
        (arrayAt "SessionEnd" hooks))) := by
    rw [Json.lookup_insertKey_ne (start_ne_end).symm, lookup_hooksWritten_end]
  rw [withGroup_of_lookup hend]
  dsimp only
  rw [insertKey_insertKey]
  conv_rhs => rw [hooksWritten, arrayAt, arrayAt, lookup_hooksWritten_start,
    lookup_hooksWritten_end]

/-! ## A second call -/

theorem regroup_again_iff {isOurs : Json → Bool} {ours : Json}
    (groups : List Json) :
    regroup isOurs ours (regroup isOurs ours groups) =
      regroup isOurs ours groups ↔ isOurs ours = true := by
  have hkept : (groups.filter fun g => !isOurs g).filter
      (fun g => !isOurs g) = groups.filter fun g => !isOurs g := by
    rw [List.filter_filter]
    simp only [Bool.and_self]
  rw [regroup, regroup, List.filter_append, hkept, List.append_assoc,
    List.append_cancel_left_eq]
  cases hours : isOurs ours with
  | true => simp [hours]
  | false => simp [hours]

/-- The hooks are as they were where the binary has our mark. -/
theorem hooksWritten_again_iff (binary : String) (hooks : Fields) :
    hooksWritten binary (hooksWritten binary hooks) =
      hooksWritten binary hooks ↔ Marked binary := by
  have hstart := lookup_hooksWritten_start binary hooks
  have hend := lookup_hooksWritten_end binary hooks
  constructor
  · intro h
    have hat : arrayAt "SessionStart" (hooksWritten binary hooks) =
        regroup isOurHookGroup (nudgeHookGroup binary)
          (arrayAt "SessionStart" hooks) := by
      conv_lhs => rw [arrayAt, hstart]
    have hsame := lookup_hooksWritten_start binary (hooksWritten binary hooks)
    rw [h, hstart, hat] at hsame
    have hgroups := Json.arr.inj (Option.some.inj hsame)
    rw [← isOurHookGroup_nudge]
    exact (regroup_again_iff _).mp hgroups.symm
  · intro h
    have hs := (regroup_again_iff (arrayAt "SessionStart" hooks)).mpr
      ((isOurHookGroup_nudge binary).mpr h)
    have he := (regroup_again_iff (arrayAt "SessionEnd" hooks)).mpr
      ((isOurCaptureGroup_capture binary).mpr h)
    rw [hooksWritten, arrayAt, arrayAt, hstart, hend]
    dsimp only
    rw [hs, he, insertKey_of_lookup hstart, insertKey_of_lookup hend]

/-- No step is refused. -/
def calm : IoStep → Bool := fun _ => false

/-- The members of the file. -/
def topFields : ConfigFile → Fields
  | .json (.obj fields) => fields
  | _ => []

/-- The file of the hooks that is written. -/
def hooksFile (binary : String) (fields : Fields) : Json :=
  .obj (Json.insertKey "hooks"
    (.obj (hooksWritten binary (objectAt "hooks" fields))) fields)

theorem readJsonObject_calm {fails : IoStep → Bool} {step : IoStep}
    {path : String} {file : ConfigFile} {v : Option Json}
    (h : readJsonObject fails step path file = .ok v) :
    readJsonObject calm step path file = .ok v := by
  unfold readJsonObject at h
  split at h
  · cases h
  · exact h

theorem topFields_of_read {fails : IoStep → Bool} {step : IoStep}
    {path : String} {file : ConfigFile} {v : Option Json} {fields : Fields}
    (h : readJsonObject fails step path file = .ok v)
    (hv : v.getD (.obj []) = .obj fields) : topFields file = fields := by
  have hread := readJsonObject_calm h
  cases file with
  | absent =>
      rw [← Except.ok.inj hread] at hv
      exact Json.obj.inj hv
  | blank text =>
      rw [← Except.ok.inj hread] at hv
      exact Json.obj.inj hv
  | garbled text why => cases hread
  | json w =>
      rw [← Except.ok.inj hread] at hv
      rw [show w = .obj fields from hv]
      rfl

/-- What is planned for the file of the servers. -/
def serverPlan (fails : IoStep → Bool) (paths : ClaudeCodePaths)
    (file : ConfigFile) (binary socket : String) : Except IoError Json :=
  (readJsonObject fails .readClaude paths.claudeJson file).bind fun v =>
    withServer paths.claudeJson (v.getD (.obj [])) binary socket

/-- What is planned for the file of the hooks. -/
def hooksPlan (fails : IoStep → Bool) (paths : ClaudeCodePaths)
    (file : ConfigFile) (binary : String) : Except IoError Json :=
  (readJsonObject fails .readSettings paths.settingsJson file).bind fun v =>
    withHooks paths.settingsJson (v.getD (.obj [])) binary

/-- Each file is planned from itself. -/
theorem plan_ok_iff {fails : IoStep → Bool} {paths : ClaudeCodePaths}
    {s : ClaudeConfig} {binary socket : String} {claude settings : Json} :
    plan fails paths s binary socket = .ok (claude, settings) ↔
      serverPlan fails paths s.claudeJson binary socket = .ok claude ∧
        hooksPlan fails paths s.settingsJson binary = .ok settings := by
  simp only [plan, serverPlan, hooksPlan, bind_ok_iff, Except.ok.injEq,
    Prod.mk.injEq]
  constructor
  · rintro ⟨v, hread, c, hserver, w, hread', t, hhooks, rfl, rfl⟩
    exact ⟨⟨v, hread, hserver⟩, w, hread', hhooks⟩
  · rintro ⟨⟨v, hread, hserver⟩, w, hread', hhooks⟩
    exact ⟨v, hread, claude, hserver, w, hread', settings, hhooks, rfl, rfl⟩

theorem serverPlan_ok {fails : IoStep → Bool} {paths : ClaudeCodePaths}
    {file : ConfigFile} {binary socket : String} {v : Json}
    (h : serverPlan fails paths file binary socket = .ok v) :
    v = serversWritten binary socket (topFields file) ∧
      serverPlan calm paths file binary socket = .ok v := by
  obtain ⟨root, hread, hserver⟩ := bind_ok_iff.1 h
  obtain ⟨fields, hfields, hv⟩ := withServer_ok hserver
  rw [topFields_of_read hread hfields]
  exact ⟨hv, bind_ok_iff.2 ⟨root, readJsonObject_calm hread, hserver⟩⟩

theorem hooksPlan_ok {fails : IoStep → Bool} {paths : ClaudeCodePaths}
    {file : ConfigFile} {binary : String} {v : Json}
    (h : hooksPlan fails paths file binary = .ok v) :
    v = hooksFile binary (topFields file) ∧
      hooksPlan calm paths file binary = .ok v := by
  obtain ⟨root, hread, hhooks⟩ := bind_ok_iff.1 h
  obtain ⟨fields, hfields, hv⟩ := withHooks_ok hhooks
  rw [topFields_of_read hread hfields]
  exact ⟨hv, bind_ok_iff.2 ⟨root, readJsonObject_calm hread, hhooks⟩⟩

/-- What is planned, and that no refusal has a part in it. -/
theorem plan_ok {fails : IoStep → Bool} {paths : ClaudeCodePaths}
    {s : ClaudeConfig} {binary socket : String} {claude settings : Json}
    (h : plan fails paths s binary socket = .ok (claude, settings)) :
    claude = serversWritten binary socket (topFields s.claudeJson) ∧
      settings = hooksFile binary (topFields s.settingsJson) ∧
      plan calm paths s binary socket = .ok (claude, settings) := by
  obtain ⟨hserver, hhooks⟩ := plan_ok_iff.1 h
  obtain ⟨hclaude, hserver'⟩ := serverPlan_ok hserver
  obtain ⟨hsettings, hhooks'⟩ := hooksPlan_ok hhooks
  exact ⟨hclaude, hsettings, plan_ok_iff.2 ⟨hserver', hhooks'⟩⟩

/-- What is planned is written when nothing is refused. -/
theorem connect_of_plan {paths : ClaudeCodePaths} {s : ClaudeConfig}
    {binary socket : String} {claude settings : Json}
    (h : plan calm paths s binary socket = .ok (claude, settings)) :
    connect calm paths s binary socket =
      (.ok (), ⟨true, .json claude, .json settings⟩) := by
  unfold connect
  rw [h]
  simp [writeBoth, calm]

theorem connect_ok {fails : IoStep → Bool} {paths : ClaudeCodePaths}
    {s s' : ClaudeConfig} {binary socket : String}
    (h : connect fails paths s binary socket = (.ok (), s')) :
    s' = ⟨true, .json (serversWritten binary socket (topFields s.claudeJson)),
      .json (hooksFile binary (topFields s.settingsJson))⟩ := by
  unfold connect at h
  cases hplan : plan fails paths s binary socket with
  | error e =>
      rw [hplan] at h
      cases h
  | ok planned =>
      obtain ⟨claude, settings⟩ := planned
      obtain ⟨hclaude, hsettings, -⟩ := plan_ok hplan
      rw [hplan] at h
      dsimp only at h
      rw [← hclaude, ← hsettings]
      unfold writeBoth at h
      split at h
      · cases h
      split at h
      · cases h
      split at h
      · cases h
      · exact (Prod.mk.inj h).2.symm

/-- A file of servers with ours is written as it is. -/
theorem serverPlan_serversWritten (paths : ClaudeCodePaths)
    (binary socket : String) (cf : Fields) :
    serverPlan calm paths (.json (serversWritten binary socket cf)) binary
      socket = .ok (serversWritten binary socket cf) :=
  bind_ok_iff.2 ⟨_, rfl, withServer_again _ _ _ _⟩

/-- A second call changes nothing if and only if the path of the binary has
our mark. -/
theorem connect_again_iff {fails : IoStep → Bool} {paths : ClaudeCodePaths}
    {s s' : ClaudeConfig} {binary socket : String}
    (h : connect fails paths s binary socket = (.ok (), s')) :
    connect calm paths s' binary socket = (.ok (), s') ↔ Marked binary := by
  have hs := connect_ok h
  have hplan : plan calm paths s' binary socket =
      .ok (serversWritten binary socket (topFields s.claudeJson),
        .obj (Json.insertKey "hooks" (.obj (hooksWritten binary
          (hooksWritten binary (objectAt "hooks" (topFields s.settingsJson)))))
          (topFields s.settingsJson))) := by
    rw [hs, plan_ok_iff]
    exact ⟨serverPlan_serversWritten _ _ _ _,
      bind_ok_iff.2 ⟨_, rfl, withHooks_again _ _ _ _⟩⟩
  rw [connect_of_plan hplan,
    ← hooksWritten_again_iff binary (objectAt "hooks"
      (topFields s.settingsJson))]
  constructor
  · intro hsame
    have hfile := congrArg ClaudeConfig.settingsJson (Prod.mk.inj hsame).2
    rw [hs, hooksFile] at hfile
    have hfields := Json.obj.inj (ConfigFile.json.inj hfile)
    have hlook := congrArg (objectAt "hooks") hfields
    rw [objectAt_insertKey_self, objectAt_insertKey_self] at hlook
    exact hlook
  · intro hsame
    rw [hsame, hs, hooksFile]

/-! ## A call that fails -/

/-- A call that fails has changed nothing, or the second write was refused and
the first file is the new one; the call can be repeated, and comes to what it
would have come to. -/
theorem connect_retry {fails : IoStep → Bool} {paths : ClaudeCodePaths}
    {s s' : ClaudeConfig} {binary socket : String} {e : IoError}
    (h : connect fails paths s binary socket = (.error e, s')) :
    s'.settingsJson = s.settingsJson ∧
      (s'.claudeJson = s.claudeJson ∨ e = .refused .writeSettings) ∧
      (connect calm paths s' binary socket).1 =
        (connect calm paths s binary socket).1 ∧
      ((connect calm paths s binary socket).1 = .ok () →
        connect calm paths s' binary socket =
          connect calm paths s binary socket) := by
  unfold connect at h
  cases hplan : plan fails paths s binary socket with
  | error e' =>
      rw [hplan] at h
      obtain ⟨-, rfl⟩ := Prod.mk.inj h
      exact ⟨rfl, .inl rfl, rfl, fun _ => rfl⟩
  | ok planned =>
      obtain ⟨claude, settings⟩ := planned
      obtain ⟨hclaude, hsettings, hcalm⟩ := plan_ok hplan
      have hok := connect_of_plan hcalm
      rw [hplan] at h
      dsimp only at h
      unfold writeBoth at h
      split at h
      · obtain ⟨-, rfl⟩ := Prod.mk.inj h
        exact ⟨rfl, .inl rfl, rfl, fun _ => rfl⟩
      split at h
      · obtain ⟨-, rfl⟩ := Prod.mk.inj h
        have hagain : connect calm paths { s with claudeDir := true } binary
            socket = connect calm paths s binary socket :=
          -- the plan does not ask whether the folder is there
          (connect_of_plan (s := { s with claudeDir := true }) hcalm).trans
            hok.symm
        exact ⟨rfl, .inl rfl, congrArg Prod.fst hagain, fun _ => hagain⟩
      split at h
      · obtain ⟨herror, rfl⟩ := Prod.mk.inj h
        have hagain : connect calm paths
            ⟨true, .json claude, s.settingsJson⟩ binary socket =
              connect calm paths s binary socket := by
          have hplan' : plan calm paths
              ⟨true, .json claude, s.settingsJson⟩ binary socket =
                .ok (claude, settings) := by
            rw [plan_ok_iff, hclaude]
            exact ⟨serverPlan_serversWritten _ _ _ _,
              (plan_ok_iff.1 hcalm).2⟩
          exact (connect_of_plan hplan').trans hok.symm
        exact ⟨rfl, .inr (Except.error.inj herror).symm,
          congrArg Prod.fst hagain, fun _ => hagain⟩
      · cases h

/-! ## Connecting and disconnecting -/

theorem lookup_retainOutGroup {kind : String} {isOurs : Json → Bool}
    {hooks : Fields} {groups : List Json}
    (h : Json.lookup kind hooks = some (.arr groups)) :
    retainOutGroup kind isOurs hooks =
      (Json.insertKey kind (.arr (groups.filter fun g => !isOurs g)) hooks,
        decide ((groups.filter fun g => !isOurs g).length ≠
          groups.length)) := by
  rw [retainOutGroup, h]

/-- Where no group of ours was there the hooks are as they were. -/
theorem retainOutGroup_unchanged {kind : String} {isOurs : Json → Bool}
    {hooks : Fields} (h : (retainOutGroup kind isOurs hooks).2 = false) :
    (retainOutGroup kind isOurs hooks).1 = hooks := by
  unfold retainOutGroup at h ⊢
  split at h
  next groups hgroups =>
    dsimp only at h ⊢
    rw [decide_eq_false_iff_not, not_not] at h
    rw [List.length_filter_eq_length_iff] at h
    rw [List.filter_eq_self.mpr h]
    exact insertKey_of_lookup hgroups
  next => rfl

/-- The hooks without the groups of ours. -/
def stripHooks (hooks : Fields) : Fields :=
  (retainOutGroup "SessionEnd" isOurCaptureGroup
    (retainOutGroup "SessionStart" isOurHookGroup hooks).1).1

/-- The file is written exactly where it changes. -/
theorem withoutHooks_getD {fields hooks : Fields}
    (h : Json.lookup "hooks" fields = some (.obj hooks)) :
    (withoutHooks (.obj fields)).getD (.obj fields) =
      .obj (Json.insertKey "hooks" (.obj (stripHooks hooks)) fields) := by
  unfold withoutHooks
  dsimp only
  rw [h]
  dsimp only
  split
  · rfl
  · next hnot =>
      rw [Bool.not_eq_true, Bool.or_eq_false_iff] at hnot
      have hstrip : stripHooks hooks = hooks := by
        rw [stripHooks, retainOutGroup_unchanged hnot.2,
          retainOutGroup_unchanged hnot.1]
      rw [hstrip, insertKey_of_lookup h]
      rfl

theorem filter_regroup {isOurs : Json → Bool} {ours : Json}
    (groups : List Json) :
    (regroup isOurs ours groups).filter (fun g => !isOurs g) =
      (groups.filter fun g => !isOurs g) ++
        if isOurs ours = true then [] else [ours] := by
  rw [regroup, List.filter_append, List.filter_filter]
  simp only [Bool.and_self]
  cases hours : isOurs ours with
  | true => simp [hours]
  | false => simp [hours]

theorem stripHooks_written (binary : String) (hooks : Fields) :
    stripHooks (hooksWritten binary hooks) =
      Json.insertKey "SessionEnd"
        (.arr ((arrayAt "SessionEnd" hooks).filter
            (fun g => !isOurCaptureGroup g) ++
          if Marked binary then [] else [captureHookGroup binary]))
        (Json.insertKey "SessionStart"
          (.arr ((arrayAt "SessionStart" hooks).filter
              (fun g => !isOurHookGroup g) ++
            if Marked binary then [] else [nudgeHookGroup binary]))
          hooks) := by
  have hend : Json.lookup "SessionEnd" (retainOutGroup "SessionStart"
      isOurHookGroup (hooksWritten binary hooks)).1 =
        some (.arr (regroup isOurCaptureGroup (captureHookGroup binary)
          (arrayAt "SessionEnd" hooks))) := by
    rw [lookup_retainOutGroup (lookup_hooksWritten_start binary hooks)]
    rw [Json.lookup_insertKey_ne (start_ne_end).symm, lookup_hooksWritten_end]
  rw [stripHooks, lookup_retainOutGroup hend,
    lookup_retainOutGroup (lookup_hooksWritten_start binary hooks)]
  dsimp only
  rw [filter_regroup, filter_regroup]
  simp only [isOurHookGroup_nudge, isOurCaptureGroup_capture]
  conv_lhs => rw [hooksWritten]
  rw [insertKey_comm start_ne_end _ _ (by
      rw [Json.lookup_insertKey_self]
      rfl), insertKey_insertKey, insertKey_insertKey]

/-- What the two calls, one after the other, leave of the files. -/
structure Restored (binary : String) (s s'' : ClaudeConfig) : Prop where
  claudeKeys : ∀ k, k ≠ "mcpServers" →
    Json.lookup k (topFields s''.claudeJson) =
      Json.lookup k (topFields s.claudeJson)
  servers : ∀ k, k ≠ mcpServerKey →
    Json.lookup k (objectAt "mcpServers" (topFields s''.claudeJson)) =
      Json.lookup k (objectAt "mcpServers" (topFields s.claudeJson))
  oursGone :
    Json.lookup mcpServerKey
      (objectAt "mcpServers" (topFields s''.claudeJson)) = none
  settingsKeys : ∀ k, k ≠ "hooks" →
    Json.lookup k (topFields s''.settingsJson) =
      Json.lookup k (topFields s.settingsJson)
  kinds : ∀ k, k ≠ "SessionStart" → k ≠ "SessionEnd" →
    Json.lookup k (objectAt "hooks" (topFields s''.settingsJson)) =
      Json.lookup k (objectAt "hooks" (topFields s.settingsJson))
  starts : arrayAt "SessionStart" (objectAt "hooks"
      (topFields s''.settingsJson)) =
    (arrayAt "SessionStart" (objectAt "hooks"
      (topFields s.settingsJson))).filter (fun g => !isOurHookGroup g) ++
        if Marked binary then [] else [nudgeHookGroup binary]
  ends : arrayAt "SessionEnd" (objectAt "hooks"
      (topFields s''.settingsJson)) =
    (arrayAt "SessionEnd" (objectAt "hooks"
      (topFields s.settingsJson))).filter (fun g => !isOurCaptureGroup g) ++
        if Marked binary then [] else [captureHookGroup binary]

/-- What a call without a refusal leaves of two files that were written. -/
theorem disconnect_written {paths : ClaudeCodePaths} {binary socket : String}
    {cf sf : Fields} :
    disconnect calm paths ⟨true, .json (serversWritten binary socket cf),
        .json (hooksFile binary sf)⟩ =
      (.ok (), ⟨true,
        .json (.obj (Json.insertKey "mcpServers" (.obj (swapRemove mcpServerKey
          (Json.insertKey mcpServerKey (mcpServerEntry binary socket)
            (objectAt "mcpServers" cf)))) cf)),
        .json (.obj (Json.insertKey "hooks" (.obj (stripHooks
          (hooksWritten binary (objectAt "hooks" sf)))) sf))⟩) := by
  have hservers : withoutServer (serversWritten binary socket cf) =
      some (.obj (Json.insertKey "mcpServers" (.obj (swapRemove mcpServerKey
        (Json.insertKey mcpServerKey (mcpServerEntry binary socket)
          (objectAt "mcpServers" cf)))) cf)) := by
    unfold withoutServer serversWritten
    dsimp only
    rw [Json.lookup_insertKey_self]
    dsimp only
    rw [Json.lookup_insertKey_self, insertKey_insertKey]
    rfl
  have hhooks := withoutHooks_getD (Json.lookup_insertKey_self "hooks"
    (.obj (hooksWritten binary (objectAt "hooks" sf))) sf)
  rw [insertKey_insertKey] at hhooks
  have hread (step : IoStep) (path : String) (v : Json) :
      readJsonObject calm step path (.json v) = .ok (some v) := rfl
  unfold disconnect
  dsimp only
  rw [hread, hread]
  dsimp only [Option.bind_some]
  rw [hservers]
  have hwrite (step : IoStep) (old : ConfigFile) (v : Json) :
      writeChanged calm step old (some v) = (.ok (), .json v) := rfl
  rw [hwrite]
  dsimp only
  rw [hooksFile] at *
  cases hout : withoutHooks (.obj (Json.insertKey "hooks"
      (.obj (hooksWritten binary (objectAt "hooks" sf))) sf)) with
  | none =>
      rw [hout] at hhooks
      rw [← hhooks]
      rfl
  | some v =>
      rw [hout] at hhooks
      rw [← hhooks]
      rfl

/-- Connecting and then disconnecting takes away what is ours and nothing else;
a hook group of ours is left where the path of the binary lacks our mark. -/
theorem disconnect_connect {fails : IoStep → Bool} {paths : ClaudeCodePaths}
    {s s' : ClaudeConfig} {binary socket : String}
    (hnodup : ((objectAt "mcpServers"
      (topFields s.claudeJson)).map Prod.fst).Nodup)
    (h : connect fails paths s binary socket = (.ok (), s')) :
    ∃ s'', disconnect calm paths s' = (.ok (), s'') ∧
      Restored binary s s'' := by
  have hdistinct := Json.nodup_insertKey mcpServerKey
    (mcpServerEntry binary socket) hnodup
  rw [connect_ok h]
  refine ⟨_, disconnect_written, ?_⟩
  refine
    { claudeKeys := fun k hk => Json.lookup_insertKey_ne hk _ _
      servers := fun k hk => ?_
      oursGone := ?_
      settingsKeys := fun k hk => Json.lookup_insertKey_ne hk _ _
      kinds := fun k hstart hend => ?_
      starts := ?_
      ends := ?_ }
  · show Json.lookup k (objectAt "mcpServers" (Json.insertKey "mcpServers" _
      (topFields s.claudeJson))) = _
    rw [objectAt_insertKey_self, lookup_swapRemove_ne hk hdistinct,
      Json.lookup_insertKey_ne hk]
  · show Json.lookup mcpServerKey (objectAt "mcpServers" (Json.insertKey
      "mcpServers" _ (topFields s.claudeJson))) = _
    rw [objectAt_insertKey_self, lookup_swapRemove_self hdistinct]
  · show Json.lookup k (objectAt "hooks" (Json.insertKey "hooks" _
      (topFields s.settingsJson))) = _
    rw [objectAt_insertKey_self, stripHooks_written,
      Json.lookup_insertKey_ne hend, Json.lookup_insertKey_ne hstart]
  · show arrayAt "SessionStart" (objectAt "hooks" (Json.insertKey "hooks" _
      (topFields s.settingsJson))) = _
    rw [objectAt_insertKey_self, stripHooks_written,
      arrayAt_insertKey_ne start_ne_end, arrayAt_insertKey_self]
  · show arrayAt "SessionEnd" (objectAt "hooks" (Json.insertKey "hooks" _
      (topFields s.settingsJson))) = _
    rw [objectAt_insertKey_self, stripHooks_written, arrayAt_insertKey_self]

/-- Our server is taken away once. -/
theorem withoutServer_again {root v : Json}
    (hnodup : ((objectAt "mcpServers"
      (topFields (.json root))).map Prod.fst).Nodup)
    (h : withoutServer root = some v) : withoutServer v = none := by
  unfold withoutServer at h
  split at h
  next fields =>
    split at h
    next servers hservers =>
      split at h
      next hours =>
        have hat : objectAt "mcpServers" (topFields (.json (.obj fields))) =
            servers := by
          rw [topFields, objectAt, hservers]
        rw [hat] at hnodup
        rw [← Option.some.inj h, withoutServer, Json.lookup_insertKey_self]
        dsimp only
        rw [lookup_swapRemove_self hnodup]
        rfl
      next => cases h
    next => cases h
  next => cases h

theorem readJsonObject_some {fails : IoStep → Bool} {step : IoStep}
    {path : String} {file : ConfigFile} {v : Json}
    (h : readJsonObject fails step path file = .ok (some v)) :
    file = .json v := by
  have hread := readJsonObject_calm h
  cases file with
  | absent => cases hread
  | blank text => cases hread
  | garbled text why => cases hread
  | json w => rw [Option.some.inj (Except.ok.inj hread)]

/-- What a call comes to when nothing is refused. -/
theorem disconnect_calm {paths : ClaudeCodePaths} {s : ClaudeConfig}
    {claude settings : Option Json}
    (hclaude : readJsonObject calm .readClaude paths.claudeJson s.claudeJson =
      .ok claude)
    (hsettings : readJsonObject calm .readSettings paths.settingsJson
      s.settingsJson = .ok settings) :
    disconnect calm paths s = (.ok (), { s with
      claudeJson := ((claude.bind withoutServer).map
        ConfigFile.json).getD s.claudeJson
      settingsJson := ((settings.bind withoutHooks).map
        ConfigFile.json).getD s.settingsJson }) := by
  have hwrite (step : IoStep) (old : ConfigFile) (v : Option Json) :
      writeChanged calm step old v =
        (.ok (), (v.map ConfigFile.json).getD old) := by
    cases v <;> rfl
  unfold disconnect
  rw [hclaude, hsettings]
  dsimp only
  rw [hwrite, hwrite]

theorem writeChanged_ok {fails : IoStep → Bool} {step : IoStep}
    {old file : ConfigFile} {v : Option Json}
    (h : writeChanged fails step old v = (.ok (), file)) :
    file = (v.map ConfigFile.json).getD old := by
  cases v with
  | none => exact (Prod.mk.inj h).2.symm
  | some v =>
      simp only [writeChanged] at h
      split at h
      · cases h
      · exact (Prod.mk.inj h).2.symm

theorem writeChanged_error {fails : IoStep → Bool} {step : IoStep}
    {old file : ConfigFile} {v : Option Json} {e : IoError}
    (h : writeChanged fails step old v = (.error e, file)) :
    e = .refused step ∧ file = old := by
  cases v with
  | none => cases h
  | some v =>
      simp only [writeChanged] at h
      split at h
      · obtain ⟨herror, hfile⟩ := Prod.mk.inj h
        exact ⟨(Except.error.inj herror).symm, hfile.symm⟩
      · cases h

/-- The same of the call that takes our entries away. -/
theorem disconnect_retry {fails : IoStep → Bool} {paths : ClaudeCodePaths}
    {s s' : ClaudeConfig} {e : IoError}
    (hnodup : ((objectAt "mcpServers"
      (topFields s.claudeJson)).map Prod.fst).Nodup)
    (h : disconnect fails paths s = (.error e, s')) :
    s'.settingsJson = s.settingsJson ∧
      (s'.claudeJson = s.claudeJson ∨ e = .refused .writeSettings) ∧
      disconnect calm paths s' = disconnect calm paths s := by
  unfold disconnect at h
  cases hread : readJsonObject fails .readClaude paths.claudeJson
    s.claudeJson with
  | error e' =>
      rw [hread] at h
      obtain ⟨-, rfl⟩ := Prod.mk.inj h
      exact ⟨rfl, .inl rfl, rfl⟩
  | ok claude =>
      rw [hread] at h
      dsimp only at h
      cases hread' : readJsonObject fails .readSettings paths.settingsJson
        s.settingsJson with
      | error e' =>
          rw [hread'] at h
          obtain ⟨-, rfl⟩ := Prod.mk.inj h
          exact ⟨rfl, .inl rfl, rfl⟩
      | ok settings =>
          rw [hread'] at h
          dsimp only at h
          cases hfirst : writeChanged fails .writeClaude s.claudeJson
            (claude.bind withoutServer) with
          | mk r file =>
              rw [hfirst] at h
              cases r with
              | error e' =>
                  obtain ⟨-, rfl⟩ := Prod.mk.inj h
                  exact ⟨rfl, .inl rfl, rfl⟩
              | ok _ =>
                  dsimp only at h
                  cases hsecond : writeChanged fails .writeSettings
                    s.settingsJson (settings.bind withoutHooks) with
                  | mk r' file' =>
                  rw [hsecond] at h
                  obtain ⟨rfl, rfl⟩ := Prod.mk.inj h
                  obtain ⟨rfl, rfl⟩ := writeChanged_error hsecond
                  have hsettings := readJsonObject_calm hread'
                  refine ⟨rfl, .inr rfl, ?_⟩
                  rw [writeChanged_ok hfirst]
                  cases hout : claude.bind withoutServer with
                  | none => rfl
                  | some v =>
                      -- the first file was written, and has no server of ours
                      obtain ⟨root, rfl, hv⟩ := Option.bind_eq_some_iff.mp hout
                      have hgone : withoutServer v = none := by
                        apply withoutServer_again _ hv
                        rw [← readJsonObject_some hread]
                        exact hnodup
                      have hread'' : readJsonObject calm .readClaude
                          paths.claudeJson (.json v) = .ok (some v) := rfl
                      have hleft := disconnect_calm
                        (s := ⟨s.claudeDir, .json v, s.settingsJson⟩) hread''
                        hsettings
                      rw [Option.bind_some, hgone] at hleft
                      have hright := disconnect_calm
                        (readJsonObject_calm hread) hsettings
                      rw [hout] at hright
                      exact hleft.trans hright.symm

/-- Both files have what the calls add to, and nothing of ours. -/
structure Clean (s : ClaudeConfig) (cf sf servers hooks : Fields)
    (starts ends : List Json) : Prop where
  claude : s.claudeJson = .json (.obj cf)
  settings : s.settingsJson = .json (.obj sf)
  hasServers : Json.lookup "mcpServers" cf = some (.obj servers)
  noServer : Json.lookup mcpServerKey servers = none
  hasHooks : Json.lookup "hooks" sf = some (.obj hooks)
  hasStarts : Json.lookup "SessionStart" hooks = some (.arr starts)
  hasEnds : Json.lookup "SessionEnd" hooks = some (.arr ends)
  noStart : ∀ g ∈ starts, isOurHookGroup g = false
  noEnd : ∀ g ∈ ends, isOurCaptureGroup g = false

theorem filter_none {isOurs : Json → Bool} {groups : List Json}
    (h : ∀ g ∈ groups, isOurs g = false) :
    groups.filter (fun g => !isOurs g) = groups := by
  apply List.filter_eq_self.mpr
  intro g hg
  rw [h g hg]
  rfl

/-- Two files with nothing of ours are afterwards what they were, every member
in its place. -/
theorem disconnect_connect_clean {fails : IoStep → Bool}
    {paths : ClaudeCodePaths} {s s' : ClaudeConfig} {binary socket : String}
    {cf sf servers hooks : Fields} {starts ends : List Json}
    (hclean : Clean s cf sf servers hooks starts ends)
    (hmarked : Marked binary)
    (h : connect fails paths s binary socket = (.ok (), s')) :
    disconnect calm paths s' = (.ok (), { s with claudeDir := true }) := by
  have hcf : topFields s.claudeJson = cf := by rw [hclean.claude, topFields]
  have hsf : topFields s.settingsJson = sf := by
    rw [hclean.settings, topFields]
  have hservers : objectAt "mcpServers" cf = servers := by
    rw [objectAt, hclean.hasServers]
  have hhooks : objectAt "hooks" sf = hooks := by rw [objectAt, hclean.hasHooks]
  have hstarts : arrayAt "SessionStart" hooks = starts := by
    rw [arrayAt, hclean.hasStarts]
  have hends : arrayAt "SessionEnd" hooks = ends := by
    rw [arrayAt, hclean.hasEnds]
  have hstrip : stripHooks (hooksWritten binary hooks) = hooks := by
    rw [stripHooks_written, if_pos hmarked, if_pos hmarked, List.append_nil,
      List.append_nil, hstarts, hends, filter_none hclean.noStart,
      filter_none hclean.noEnd, insertKey_of_lookup hclean.hasStarts,
      insertKey_of_lookup hclean.hasEnds]
  rw [connect_ok h, disconnect_written, hcf, hsf, hservers, hhooks, hstrip,
    swapRemove_insertKey hclean.noServer, insertKey_of_lookup hclean.hasServers,
    insertKey_of_lookup hclean.hasHooks, ← hclean.claude, ← hclean.settings]

/-! ## What the app shows -/

inductive ClaudeCodeStatus where
  | notFound
  | notConnected
  | connected (capture : Bool)
  deriving DecidableEq

/-- `session_end_has_our_capture`. -/
def sessionEndHasOurCapture (file : ConfigFile) : Bool :=
  match readJsonObject calm .readSettings "" file with
  | .ok (some v) =>
      match (v.get? "hooks").bind fun h => h.get? "SessionEnd" with
      | some (.arr groups) => groups.any isOurCaptureGroup
      | _ => false
  | _ => false

def detect (s : ClaudeConfig) : ClaudeCodeStatus :=
  if s.claudeJson = .absent ∧ s.claudeDir = false then .notFound
  else
    match readJsonObject calm .readClaude "" s.claudeJson with
    | .ok (some v) =>
        match (v.get? "mcpServers").bind fun m => m.get? mcpServerKey with
        | some _ => .connected (sessionEndHasOurCapture s.settingsJson)
        | none => .notConnected
    | _ => .notConnected

theorem get?_insertKey_obj (k k' : String) (inner fields : Fields) :
    ((Json.obj (Json.insertKey k (.obj inner) fields)).get? k).bind
      (fun v => v.get? k') = Json.lookup k' inner := by
  rw [Json.get?, Json.lookup_insertKey_self]
  rfl

/-- After a call the app shows a connection, with the capture of sessions where
the path of the binary has our mark. -/
theorem detect_connect {fails : IoStep → Bool} {paths : ClaudeCodePaths}
    {s s' : ClaudeConfig} {binary socket : String}
    (h : connect fails paths s binary socket = (.ok (), s')) :
    detect s' = .connected (decide (Marked binary)) := by
  have hread (step : IoStep) (v : Json) :
      readJsonObject calm step "" (.json v) = .ok (some v) := rfl
  have hours (groups : List Json) : (regroup isOurCaptureGroup
      (captureHookGroup binary) groups).any isOurCaptureGroup =
        decide (Marked binary) := by
    rw [regroup, List.any_append, List.any_filter, List.any_cons,
      List.any_nil, Bool.or_false, Bool.eq_iff_iff]
    simp [isOurCaptureGroup_capture]
  rw [connect_ok h]
  unfold detect sessionEndHasOurCapture hooksFile serversWritten
  dsimp only
  rw [if_neg (by simp), hread, hread]
  dsimp only
  rw [get?_insertKey_obj, Json.lookup_insertKey_self, get?_insertKey_obj,
    lookup_hooksWritten_end]
  dsimp only
  rw [hours]

/-! ### A user with a server and a hook of their own -/

def userPaths : ClaudeCodePaths :=
  ⟨"/u/.claude.json", "/u/.claude/settings.json"⟩

/-- A hook group with one command. -/
def commandGroup (command : String) : Json :=
  .obj [("hooks", .arr [.obj [("command", .str command)]])]

def userServers : Fields := [("chrome", .obj [("command", .str "x")])]

def userHooks : Fields :=
  [("SessionStart", .arr [commandGroup "node other.mjs"]),
    ("SessionEnd", .arr [])]

def userConfig : ClaudeConfig where
  claudeDir := true
  claudeJson := .json (.obj [("top", .num 1), ("mcpServers", .obj userServers)])
  settingsJson := .json (.obj [("hooks", .obj userHooks)])

def userBinary : String := "/opt/air-memory-mcp"

/-- What a call leaves of the files of the user. -/
def userConnected : ClaudeConfig :=
  (connect calm userPaths userConfig userBinary "/run/s").2

theorem connect_user :
    connect calm userPaths userConfig userBinary "/run/s" =
      (.ok (), userConnected) := by decide +kernel

theorem connect_again_user :
    connect calm userPaths userConnected userBinary "/run/s" =
      (.ok (), userConnected) ↔ Marked userBinary :=
  connect_again_iff connect_user

theorem detect_connect_user :
    detect userConnected = .connected (decide (Marked userBinary)) :=
  detect_connect connect_user

/-- The second write is refused. -/
def secondRefused : IoStep → Bool := fun step => decide (step = .writeSettings)

theorem connect_retry_user :
    let s' := (connect secondRefused userPaths userConfig userBinary "/run/s").2
    s'.settingsJson = userConfig.settingsJson ∧
      (s'.claudeJson = userConfig.claudeJson ∨
        IoError.refused .writeSettings = .refused .writeSettings) ∧
      (connect calm userPaths s' userBinary "/run/s").1 =
        (connect calm userPaths userConfig userBinary "/run/s").1 ∧
      ((connect calm userPaths userConfig userBinary "/run/s").1 = .ok () →
        connect calm userPaths s' userBinary "/run/s" =
          connect calm userPaths userConfig userBinary "/run/s") :=
  connect_retry (show connect secondRefused userPaths userConfig userBinary
    "/run/s" = (.error (.refused .writeSettings), _) by decide +kernel)

theorem disconnect_connect_user :
    ∃ s'', disconnect calm userPaths userConnected = (.ok (), s'') ∧
      Restored userBinary userConfig s'' :=
  disconnect_connect (by decide +kernel) connect_user

theorem clean_user :
    Clean userConfig [("top", .num 1), ("mcpServers", .obj userServers)]
      [("hooks", .obj userHooks)] userServers userHooks
      [commandGroup "node other.mjs"] [] where
  claude := rfl
  settings := rfl
  hasServers := rfl
  noServer := by decide
  hasHooks := rfl
  hasStarts := rfl
  hasEnds := rfl
  noStart := by decide +kernel
  noEnd := by decide

theorem disconnect_connect_clean_user :
    disconnect calm userPaths userConnected =
      (.ok (), { userConfig with claudeDir := true }) :=
  disconnect_connect_clean clean_user (by decide +kernel) connect_user

theorem disconnect_retry_user :
    let s' := (disconnect secondRefused userPaths userConnected).2
    s'.settingsJson = userConnected.settingsJson ∧
      (s'.claudeJson = userConnected.claudeJson ∨
        IoError.refused .writeSettings = .refused .writeSettings) ∧
      disconnect calm userPaths s' = disconnect calm userPaths userConnected :=
  disconnect_retry (by decide +kernel)
    (show disconnect secondRefused userPaths userConnected =
      (.error (.refused .writeSettings), _) by decide +kernel)

end AirNote.ClaudeCode
