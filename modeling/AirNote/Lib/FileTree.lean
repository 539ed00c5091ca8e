import AirNote.Lib.Hex
import AirNote.Lib.Paths
import Mathlib.Data.List.Infix
import Mathlib.Logic.Function.Basic

/-!
# A tree of files

The entries of the directories of one file system, by place: directories,
regular files with their bytes, symbolic links and whatever else there is. A
path is resolved by walking its components; a link is followed in the place
it stands in, at most forty of them. Two entries with one device and inode
number are links to one file; a file is replaced, never written in place, so
its bytes are kept with the entry. Permissions are left out.

## Main results

* `canonicalize_absolute` — a place reached through directories only is its
  own canonical path.
* `node_eq_lstat` — an entry that is no link is the one its canonical path
  names.
* `isRealDir_put` — replacing an entry keeps the folders above it.
-/

namespace AirNote.Lib.FileTree

open Paths

abbrev Bytes := Hex.Bytes

/-- What an entry is. -/
inductive Kind where
  | directory
  | regular (content : Bytes)
  | symlink (target : Path)
  | other
  deriving DecidableEq

/-- An entry: its kind, its device and inode number, and its size where it is
no regular file. -/
structure Node where
  kind : Kind
  dev : Nat
  ino : Nat
  otherSize : Nat
  deriving DecidableEq

/-- The size of the file. -/
def Node.size (n : Node) : Nat :=
  match n.kind with
  | .regular content => content.length
  | _ => n.otherSize

/-- The bytes of a regular file. -/
def Node.content? (n : Node) : Option Bytes :=
  match n.kind with
  | .regular content => some content
  | _ => none

/-- The entry is a symbolic link. -/
def Node.isSymlink (n : Node) : Bool :=
  match n.kind with
  | .symlink _ => true
  | _ => false

/-- The entries, and the working directory. -/
structure Tree where
  cwd : Place
  node : Place → Option Node

/-- The place is a directory. -/
def Tree.isDir (t : Tree) (p : Place) : Bool :=
  (t.node p).any fun n => n.kind == .directory

/-- The place is reached through directories only, and one itself. -/
def Tree.isRealDir (t : Tree) (d : Place) : Bool :=
  d.inits.all fun q => q == [] || t.isDir q

/-! ## Resolution -/

/-- Walk the components from a place; a link is handed to `follow`. -/
def walkStep (follow : Place → Path → Option Place) (t : Tree) :
    Place → Path → Option Place
  | cur, [] => some cur
  | _, .rootDir :: rest => walkStep follow t [] rest
  | cur, .curDir :: rest => walkStep follow t cur rest
  | cur, .parentDir :: rest => walkStep follow t cur.dropLast rest
  | cur, .normal n :: rest =>
      match t.node (cur ++ [n]) with
      | none => none
      | some node =>
          match node.kind with
          | .directory => walkStep follow t (cur ++ [n]) rest
          | .symlink target => follow cur (target ++ rest)
          | _ => if rest = [] then some (cur ++ [n]) else none

/-- Walk, following at most so many links. -/
def walk (t : Tree) : Nat → Place → Path → Option Place
  | 0 => walkStep (fun _ _ => none) t
  | links + 1 => walkStep (walk t links) t

/-- The links a resolution may follow. -/
def maxLinks : Nat := 40

/-- Where the resolution of a path starts. -/
def Tree.start (t : Tree) (p : Path) : Option Place :=
  match p.head? with
  | none => none
  | some .rootDir => some []
  | some _ => if t.isRealDir t.cwd then some t.cwd else none

/-- The place a path leads to, links followed. -/
def Tree.canonicalize (t : Tree) (p : Path) : Option Place :=
  (t.start p).bind fun cur => walk t maxLinks cur p

/-- The entry a path names, a link at its end not followed. -/
def Tree.lstat (t : Tree) (p : Path) : Option Node :=
  match fileName p with
  | some n =>
      let folder := if p.dropLast = [] then [.curDir] else p.dropLast
      (t.canonicalize folder).bind fun d =>
        if t.isRealDir d then t.node (d ++ [n]) else none
  | none => (t.canonicalize p).bind t.node

/-- The bytes of the regular file a path leads to. -/
def Tree.read (t : Tree) (p : Path) : Option Bytes :=
  (t.canonicalize p).bind fun q => (t.node q).bind Node.content?

/-- The tree with another entry at a place, or none. -/
def Tree.put (t : Tree) (p : Place) (n : Option Node) : Tree :=
  { t with node := Function.update t.node p n }

@[simp] theorem node_put_self (t : Tree) (p : Place) (n : Option Node) :
    (t.put p n).node p = n := Function.update_self ..

theorem node_put_of_ne (t : Tree) {p q : Place} (h : q ≠ p)
    (n : Option Node) : (t.put p n).node q = t.node q :=
  Function.update_of_ne h ..

/-! ## Folders reached through directories -/

theorem isRealDir_iff {t : Tree} {d : Place} :
    t.isRealDir d = true ↔ ∀ q, q <+: d → q = [] ∨ t.isDir q = true := by
  simp [Tree.isRealDir, List.all_eq_true, List.mem_inits]

theorem isRealDir_nil (t : Tree) : t.isRealDir [] = true := by
  rw [isRealDir_iff]
  intro q hq
  exact .inl (List.prefix_nil.mp hq)

theorem isRealDir_above {t : Tree} {d d' : Place} (hpre : d' <+: d)
    (h : t.isRealDir d = true) : t.isRealDir d' = true := by
  rw [isRealDir_iff] at h ⊢
  intro q hq
  exact h q (hq.trans hpre)

theorem isRealDir_concat {t : Tree} {d : Place} {n : Name} :
    t.isRealDir (d ++ [n]) = true ↔
      t.isRealDir d = true ∧ t.isDir (d ++ [n]) = true := by
  constructor
  · intro h
    refine ⟨isRealDir_above (List.prefix_append d [n]) h, ?_⟩
    have hself := isRealDir_iff.1 h (d ++ [n]) (List.prefix_refl _)
    exact hself.resolve_left (by simp)
  · rintro ⟨hd, hdir⟩
    rw [isRealDir_iff] at hd ⊢
    intro q hq
    rcases List.prefix_concat_iff.mp hq with heq | hpre
    · rw [heq]
      exact .inr hdir
    · exact hd q hpre

theorem isDir_iff {t : Tree} {p : Place} :
    t.isDir p = true ↔ ∃ n, t.node p = some n ∧ n.kind = .directory := by
  simp [Tree.isDir, Option.any_eq_true]

/-- Replacing an entry keeps the folders that are not below it. -/
theorem isRealDir_put {t : Tree} {d p : Place} (hp : ¬ p <+: d)
    (n : Option Node) : (t.put p n).isRealDir d = t.isRealDir d := by
  have hall : ∀ q, q <+: d → (t.put p n).isDir q = t.isDir q := by
    intro q hq
    have hne : q ≠ p := by
      rintro rfl
      exact hp hq
    rw [Tree.isDir, Tree.isDir, node_put_of_ne t hne]
  have hiff : (t.put p n).isRealDir d = true ↔ t.isRealDir d = true := by
    rw [isRealDir_iff, isRealDir_iff]
    constructor
    · intro h q hq
      have hq' := h q hq
      rw [hall q hq] at hq'
      exact hq'
    · intro h q hq
      rw [hall q hq]
      exact h q hq
  exact Bool.eq_iff_iff.mpr hiff

/-- Replacing an entry keeps the folder it stands in. -/
theorem isRealDir_put_concat {t : Tree} (d : Place) (name : Name)
    (n : Option Node) :
    (t.put (d ++ [name]) n).isRealDir d = t.isRealDir d := by
  refine isRealDir_put ?_ n
  intro hpre
  have hlen := hpre.length_le
  rw [List.length_append, List.length_singleton] at hlen
  omega

/-! ## Where a walk starts -/

theorem isRealDir_of_start {t : Tree} {p : Path} {cur : Place}
    (h : t.start p = some cur) : t.isRealDir cur = true := by
  unfold Tree.start at h
  split at h
  · cases h
  · cases h
    exact isRealDir_nil t
  · rw [Option.ite_none_right_eq_some] at h
    rw [← Option.some.inj h.2]
    exact h.1

/-! ## Walking a place -/

theorem walkStep_real {follow : Place → Path → Option Place} {t : Tree}
    {d : Place} (p : Path) :
    ∀ {cur : Place}, t.isRealDir (cur ++ d) = true →
      walkStep follow t cur (d.map .normal ++ p) =
        walkStep follow t (cur ++ d) p := by
  induction d with
  | nil =>
      intro cur _
      rw [List.map_nil, List.nil_append, List.append_nil]
  | cons n d ih =>
      intro cur h
      have hassoc : cur ++ n :: d = cur ++ [n] ++ d := by simp
      rw [hassoc] at h ⊢
      have hdir := (isRealDir_concat.1
        (isRealDir_above (List.prefix_append _ d) h)).2
      obtain ⟨node, hnode, hkind⟩ := isDir_iff.1 hdir
      rw [List.map_cons, List.cons_append, walkStep, hnode]
      simp only [hkind]
      exact ih h

theorem walk_real {t : Tree} {d : Place} (links : Nat) (p : Path)
    (h : t.isRealDir d = true) :
    walk t links [] (d.map .normal ++ p) = walk t links d p := by
  cases links with
  | zero => exact walkStep_real p h
  | succ links => exact walkStep_real p h

theorem walkStep_single {follow : Place → Path → Option Place} {t : Tree}
    {d : Place} {n : Name} {node : Node}
    (hnode : t.node (d ++ [n]) = some node) (hlink : node.isSymlink = false) :
    walkStep follow t d [.normal n] = some (d ++ [n]) := by
  rw [walkStep, hnode]
  cases hkind : node.kind with
  | directory => simp [hkind, walkStep]
  | symlink target => simp [Node.isSymlink, hkind] at hlink
  | regular content => simp [hkind]
  | other => simp [hkind]

theorem walk_single {t : Tree} {d : Place} {n : Name} (links : Nat)
    {node : Node} (hnode : t.node (d ++ [n]) = some node)
    (hlink : node.isSymlink = false) :
    walk t links d [.normal n] = some (d ++ [n]) := by
  cases links with
  | zero => exact walkStep_single hnode hlink
  | succ links => exact walkStep_single hnode hlink

theorem walk_single_absent {t : Tree} {d : Place} {n : Name} (links : Nat)
    (hnode : t.node (d ++ [n]) = none) :
    walk t links d [.normal n] = none := by
  cases links <;> rw [walk, walkStep, hnode]

theorem canonicalize_absolute_eq (t : Tree) (p : Place) :
    t.canonicalize (absolute p) = walk t maxLinks [] (p.map .normal) := rfl

/-- A folder reached through directories is its own canonical path. -/
theorem canonicalize_absolute_dir {t : Tree} {d : Place}
    (h : t.isRealDir d = true) : t.canonicalize (absolute d) = some d := by
  have hwalk := walk_real maxLinks [] h
  rw [List.append_nil] at hwalk
  rw [canonicalize_absolute_eq]
  exact hwalk

/-- So is an entry of such a folder that is no link. -/
theorem canonicalize_absolute {t : Tree} {d : Place} {n : Name} {node : Node}
    (h : t.isRealDir d = true) (hnode : t.node (d ++ [n]) = some node)
    (hlink : node.isSymlink = false) :
    t.canonicalize (absolute (d ++ [n])) = some (d ++ [n]) := by
  have hwalk := walk_real maxLinks [.normal n] h
  rw [walk_single maxLinks hnode hlink] at hwalk
  rw [canonicalize_absolute_eq, List.map_append]
  exact hwalk

/-- An absent entry has no canonical path. -/
theorem canonicalize_absolute_absent {t : Tree} {d : Place} {n : Name}
    (h : t.isRealDir d = true) (hnode : t.node (d ++ [n]) = none) :
    t.canonicalize (absolute (d ++ [n])) = none := by
  have hwalk := walk_real maxLinks [.normal n] h
  rw [walk_single_absent maxLinks hnode] at hwalk
  rw [canonicalize_absolute_eq, List.map_append]
  exact hwalk

theorem lstat_absolute {t : Tree} {d : Place} (n : Name)
    (h : t.isRealDir d = true) :
    t.lstat (absolute (d ++ [n])) = t.node (d ++ [n]) := by
  have hne : absolute d ≠ [] := by simp [absolute]
  unfold Tree.lstat
  rw [fileName_absolute, absolute_append, List.dropLast_concat]
  simp only [hne, if_false, canonicalize_absolute_dir h, Option.bind_some, h,
    if_true]

/-! ## The last component of a path -/

theorem walkStep_concat {follow : Place → Path → Option Place} {t : Tree}
    {n : Name} {node : Node} {d : Place} (hd : t.isRealDir d = true)
    (hnode : t.node (d ++ [n]) = some node) (hlink : node.isSymlink = false)
    (hfollow : ∀ cur p, follow cur p = some d →
      follow cur (p ++ [.normal n]) = some (d ++ [n])) {p : Path} :
    ∀ {cur : Place}, walkStep follow t cur p = some d →
      walkStep follow t cur (p ++ [.normal n]) = some (d ++ [n]) := by
  induction p with
  | nil =>
      intro cur h
      cases h
      exact walkStep_single hnode hlink
  | cons c rest ih =>
      intro cur h
      cases c with
      | rootDir => exact ih h
      | curDir => exact ih h
      | parentDir => exact ih h
      | normal m =>
          rw [List.cons_append]
          rw [walkStep] at h ⊢
          cases hm : t.node (cur ++ [m]) with
          | none =>
              rw [hm] at h
              cases h
          | some mid =>
              -- the walk has not ended on this entry, unless it is a folder
              have hfile : mid.kind ≠ .directory → cur ++ [m] ≠ d := by
                rintro hkind rfl
                obtain ⟨x, hx, hdir⟩ := isDir_iff.1 (isRealDir_concat.1 hd).2
                rw [hm] at hx
                cases hx
                exact hkind hdir
              rw [hm] at h
              simp only at h ⊢
              cases hkind : mid.kind with
              | directory =>
                  simp only [hkind] at h ⊢
                  exact ih h
              | symlink target =>
                  simp only [hkind] at h ⊢
                  rw [← List.append_assoc]
                  exact hfollow _ _ h
              | regular content =>
                  simp only [hkind, Option.ite_none_right_eq_some,
                    Option.some.injEq] at h
                  exact absurd h.2 (hfile (by simp [hkind]))
              | other =>
                  simp only [hkind, Option.ite_none_right_eq_some,
                    Option.some.injEq] at h
                  exact absurd h.2 (hfile (by simp [hkind]))

theorem walk_concat {t : Tree} {n : Name} {node : Node} {d : Place}
    (hd : t.isRealDir d = true) (hnode : t.node (d ++ [n]) = some node)
    (hlink : node.isSymlink = false) (links : Nat) :
    ∀ {cur : Place} {p : Path}, walk t links cur p = some d →
      walk t links cur (p ++ [.normal n]) = some (d ++ [n]) := by
  induction links with
  | zero =>
      intro cur p h
      exact walkStep_concat hd hnode hlink (fun _ _ hnone => by cases hnone) h
  | succ links ih =>
      intro cur p h
      exact walkStep_concat hd hnode hlink (fun _ _ hlink => ih hlink) h

theorem canonicalize_concat {t : Tree} {n : Name} {node : Node} {d : Place}
    {p : Path} (hd : t.isRealDir d = true)
    (hnode : t.node (d ++ [n]) = some node) (hlink : node.isSymlink = false)
    (h : t.canonicalize p = some d) :
    t.canonicalize (p ++ [.normal n]) = some (d ++ [n]) := by
  rw [Tree.canonicalize, Option.bind_eq_some_iff] at h ⊢
  obtain ⟨cur, hstart, hwalk⟩ := h
  refine ⟨cur, ?_, walk_concat hd hnode hlink maxLinks hwalk⟩
  cases p with
  | nil => cases hstart
  | cons c rest => exact hstart

/-- An entry that is no link is the one its canonical path names. -/
theorem node_eq_lstat {t : Tree} {p : Path} {node : Node}
    (h : t.lstat p = some node) (hlink : node.isSymlink = false) :
    ∃ q, t.canonicalize p = some q ∧ t.node q = some node := by
  unfold Tree.lstat at h
  cases hname : fileName p with
  | none =>
      simp only [hname, Option.bind_eq_some_iff] at h
      exact h
  | some n =>
      simp only [hname, Option.bind_eq_some_iff] at h
      obtain ⟨d, hcanon, hnode⟩ := h
      rw [Option.ite_none_right_eq_some] at hnode
      obtain ⟨hd, hnode⟩ := hnode
      have hlast := eq_concat_of_fileName hname
      refine ⟨d ++ [n], ?_, hnode⟩
      have hconcat := canonicalize_concat hd hnode hlink hcanon
      by_cases hempty : p.dropLast = []
      · rw [if_pos hempty] at hconcat
        rw [hlast, hempty]
        exact hconcat
      · rw [if_neg hempty, ← hlast] at hconcat
        exact hconcat

/-- A walk that gets past a name has come to the folder of the name. -/
theorem walkStep_concat_inv {follow : Place → Path → Option Place} {t : Tree}
    {n : Name}
    (hfollow : ∀ cur p q, t.isRealDir cur = true →
      follow cur (p ++ [.normal n]) = some q →
        ∃ d, follow cur p = some d ∧ t.isRealDir d = true ∧
          (t.node (d ++ [n])).isSome = true) {p : Path} :
    ∀ {cur q : Place}, t.isRealDir cur = true →
      walkStep follow t cur (p ++ [.normal n]) = some q →
        ∃ d, walkStep follow t cur p = some d ∧ t.isRealDir d = true ∧
          (t.node (d ++ [n])).isSome = true := by
  induction p with
  | nil =>
      intro cur q hcur h
      refine ⟨cur, rfl, hcur, ?_⟩
      rw [List.nil_append, walkStep] at h
      cases hnode : t.node (cur ++ [n]) with
      | none =>
          rw [hnode] at h
          cases h
      | some node => rfl
  | cons c rest ih =>
      intro cur q hcur h
      cases c with
      | rootDir => exact ih (isRealDir_nil t) h
      | curDir => exact ih hcur h
      | parentDir =>
          exact ih (isRealDir_above (List.dropLast_prefix cur) hcur) h
      | normal m =>
          rw [List.cons_append] at h
          rw [walkStep] at h ⊢
          cases hm : t.node (cur ++ [m]) with
          | none =>
              rw [hm] at h
              cases h
          | some mid =>
              rw [hm] at h
              simp only at h ⊢
              cases hkind : mid.kind with
              | directory =>
                  simp only [hkind] at h ⊢
                  exact ih (isRealDir_concat.2
                    ⟨hcur, isDir_iff.2 ⟨mid, hm, hkind⟩⟩) h
              | symlink target =>
                  simp only [hkind] at h ⊢
                  rw [← List.append_assoc] at h
                  exact hfollow _ _ _ hcur h
              | regular content => simp [hkind] at h
              | other => simp [hkind] at h

theorem walk_concat_inv {t : Tree} {n : Name} (links : Nat) :
    ∀ cur p q, t.isRealDir cur = true →
      walk t links cur (p ++ [.normal n]) = some q →
        ∃ d, walk t links cur p = some d ∧ t.isRealDir d = true ∧
          (t.node (d ++ [n])).isSome = true := by
  induction links with
  | zero =>
      intro cur p q hcur h
      exact walkStep_concat_inv (fun _ _ _ _ hnone => by cases hnone) hcur h
  | succ links ih =>
      intro cur p q hcur h
      exact walkStep_concat_inv ih hcur h

/-- A path that leads anywhere and ends in a name has an entry there. -/
theorem lstat_isSome_of_fileName {t : Tree} {p : Path} {q : Place} {n : Name}
    (hname : fileName p = some n) (h : t.canonicalize p = some q) :
    (t.lstat p).isSome = true := by
  have hlast := eq_concat_of_fileName hname
  rw [Tree.canonicalize, Option.bind_eq_some_iff] at h
  obtain ⟨cur, hstart, hwalk⟩ := h
  rw [hlast] at hwalk
  obtain ⟨d, hfolder, hd, hsome⟩ := walk_concat_inv maxLinks cur _ q
    (isRealDir_of_start hstart) hwalk
  have hcanon : t.canonicalize
      (if p.dropLast = [] then [.curDir] else p.dropLast) = some d := by
    rw [Tree.canonicalize, Option.bind_eq_some_iff]
    refine ⟨cur, ?_, ?_⟩
    · rw [hlast] at hstart
      by_cases hempty : p.dropLast = []
      · rw [if_pos hempty]
        rw [hempty] at hstart
        exact hstart
      · rw [if_neg hempty]
        cases hp : p.dropLast with
        | nil => exact absurd hp hempty
        | cons c rest =>
            rw [hp] at hstart
            exact hstart
    · by_cases hempty : p.dropLast = []
      · rw [if_pos hempty]
        rw [hempty] at hfolder
        exact hfolder
      · rw [if_neg hempty]
        exact hfolder
  unfold Tree.lstat
  simp only [hname, hcanon, Option.bind_some, hd, if_true, hsome]

/-- A path that leads to an entry has an entry at its own end. -/
theorem lstat_isSome_of_canonicalize {t : Tree} {p : Path} {q : Place}
    {node : Node} (h : t.canonicalize p = some q)
    (hnode : t.node q = some node) : (t.lstat p).isSome = true := by
  cases hname : fileName p with
  | none => simp [Tree.lstat, hname, h, hnode]
  | some n => exact lstat_isSome_of_fileName hname h

/-- The entry a path with a parent names stands in the folder the parent
leads to. -/
theorem lstat_of_parent {t : Tree} {p folder : Path} {d : Place} {n : Name}
    (hname : fileName p = some n) (hparent : parent p = some folder)
    (hne : folder ≠ []) (hd : t.canonicalize folder = some d) :
    t.lstat p = if t.isRealDir d then t.node (d ++ [n]) else none := by
  have hdrop : p.dropLast = folder := by
    unfold parent at hparent
    split at hparent
    · cases hparent
    · cases hparent
    · exact Option.some.inj hparent
  unfold Tree.lstat
  simp only [hname, hdrop, if_neg hne, hd, Option.bind_some]

end AirNote.Lib.FileTree
