import Mathlib.Data.List.Basic
import Mathlib.Tactic.Common

/-!
# Paths as lists of components

A path is the list of its components, as a path library reads it off a text:
repeated and trailing slashes and inner dots vanish, a leading dot and the
double dots stay. A place is the list of the names on the way from the root
to a file, without dots and links; it has one text, which reads back as the
absolute path of the place.

Names are text. The rendering of a name that is not, and the demand of a
trailing slash that the file be a directory, are left out.

## Main results

* `ofString_toText` — the text of a place reads back as its path.
-/

namespace AirNote.Lib.Paths

/-- The text is the name of an entry of a directory. -/
def isName (s : String) : Bool :=
  s != "" && s != "." && s != ".." && !s.toList.contains '/'

/-- The name of an entry of a directory. -/
structure Name where
  text : String
  isName : isName text = true
  deriving DecidableEq

theorem isName_a : isName "a" = true := by decide
theorem isName_f : isName "f" = true := by decide
theorem isName_s : isName "s" = true := by decide

inductive Component where
  | rootDir
  | curDir
  | parentDir
  | normal (n : Name)
  deriving DecidableEq

abbrev Path := List Component

/-- The names from the root to a file. -/
abbrev Place := List Name

/-! ## Text -/

/-- The segments between the separators. -/
def segments (sep : Char) : List Char → List (List Char)
  | [] => [[]]
  | c :: cs =>
      if c = sep then [] :: segments sep cs
      else
        match segments sep cs with
        | [] => [[c]]
        | w :: ws => (c :: w) :: ws

/-- The component of a segment: none, of an empty one and of a dot. -/
def component (segment : List Char) : Option Component :=
  if segment = ['.', '.'] then some .parentDir
  else if h : isName (String.ofList segment) = true then
    some (.normal ⟨String.ofList segment, h⟩)
  else none

/-- The components of a text. -/
def ofString (s : String) : Path :=
  match s.toList with
  | '/' :: rest => .rootDir :: (segments '/' rest).filterMap component
  | cs =>
      match segments '/' cs with
      | ['.'] :: rest => .curDir :: rest.filterMap component
      | segs => segs.filterMap component

/-- Each name after a slash. -/
def slashed : Place → List Char
  | [] => []
  | n :: rest => '/' :: (n.text.toList ++ slashed rest)

/-- The text of a place. -/
def toText (p : Place) : String :=
  if p = [] then "/" else String.ofList (slashed p)

/-- The path of a place. -/
def absolute (p : Place) : Path := .rootDir :: p.map .normal

theorem Name.noSlash (n : Name) : '/' ∉ n.text.toList := by
  have h := n.isName
  simp only [Paths.isName, Bool.and_eq_true, Bool.not_eq_true',
    List.contains_eq_mem, decide_eq_false_iff_not] at h
  exact h.2

theorem component_name (n : Name) :
    component n.text.toList = some (.normal n) := by
  have hdots : ¬ n.text.toList = ['.', '.'] := by
    intro heq
    have htext : n.text = ".." := by
      have h := String.ofList_toList (s := n.text)
      rw [heq] at h
      exact h.symm
    have h := n.isName
    rw [htext] at h
    revert h
    decide
  unfold component
  simp only [hdots, if_false, String.ofList_toList, n.isName, dif_pos]

theorem segments_of_noSlash {w : List Char} (h : '/' ∉ w) :
    segments '/' w = [w] := by
  induction w with
  | nil => rfl
  | cons c cs ih =>
      have hc : c ≠ '/' := fun heq => h (by simp [heq])
      have hcs : '/' ∉ cs := fun hm => h (List.mem_cons_of_mem c hm)
      rw [segments, if_neg hc, ih hcs]

theorem segments_append_slash {w : List Char} (h : '/' ∉ w)
    (cs : List Char) :
    segments '/' (w ++ '/' :: cs) = w :: segments '/' cs := by
  induction w with
  | nil => rfl
  | cons c w ih =>
      have hc : c ≠ '/' := fun heq => h (by simp [heq])
      have hw : '/' ∉ w := fun hm => h (List.mem_cons_of_mem c hm)
      rw [List.cons_append, segments, if_neg hc, ih hw]

theorem segments_name_slashed (n : Name) (rest : Place) :
    segments '/' (n.text.toList ++ slashed rest) =
      n.text.toList :: rest.map fun m => m.text.toList := by
  induction rest generalizing n with
  | nil =>
      rw [slashed, List.append_nil]
      exact segments_of_noSlash n.noSlash
  | cons m rest ih =>
      rw [slashed, segments_append_slash n.noSlash, ih m]
      rfl

/-- The text of a place reads back as its path. -/
theorem ofString_toText (p : Place) : ofString (toText p) = absolute p := by
  have hnames : ∀ q : Place, (q.map fun n => n.text.toList).filterMap
      component = q.map .normal := by
    intro q
    induction q with
    | nil => rfl
    | cons n q ih =>
        rw [List.map_cons, List.filterMap_cons_some (component_name n), ih]
        rfl
  cases p with
  | nil => decide
  | cons n rest =>
      have hlist : (toText (n :: rest)).toList =
          '/' :: (n.text.toList ++ slashed rest) := by
        rw [toText, if_neg (by simp), String.toList_ofList, slashed]
      unfold ofString
      rw [hlist]
      show Component.rootDir :: _ = _
      rw [segments_name_slashed, ← List.map_cons (f := fun m : Name =>
        m.text.toList), hnames]
      rfl

/-! ## Parts of a path -/

/-- Whole components of `q` are the first ones of `p`. -/
def startsWith (p q : Path) : Bool := q.isPrefixOf p

/-- The path without its last component. -/
def parent (p : Path) : Option Path :=
  match p with
  | [] => none
  | [.rootDir] => none
  | _ => some p.dropLast

/-- The last component, where it is a name. -/
def fileName (p : Path) : Option Name :=
  match p.getLast? with
  | some (.normal n) => some n
  | _ => none

theorem absolute_append (d : Place) (n : Name) :
    absolute (d ++ [n]) = absolute d ++ [.normal n] := by
  simp [absolute]

theorem parent_absolute (d : Place) (n : Name) :
    parent (absolute (d ++ [n])) = some (absolute d) := by
  have hne : d.map Component.normal ++ [.normal n] ≠ [] := by simp
  have hdrop : (absolute (d ++ [n])).dropLast = absolute d := by
    rw [absolute_append, List.dropLast_concat]
  unfold parent
  split
  · next h => cases h
  · next h =>
      have htail := List.tail_eq_of_cons_eq h
      rw [List.map_append] at htail
      exact absurd htail hne
  · rw [hdrop]

theorem fileName_absolute (d : Place) (n : Name) :
    fileName (absolute (d ++ [n])) = some n := by
  rw [fileName, absolute_append, List.getLast?_concat]

theorem eq_concat_of_fileName {p : Path} {n : Name}
    (h : fileName p = some n) : p = p.dropLast ++ [.normal n] := by
  unfold fileName at h
  split at h
  · next m hlast =>
      rw [Option.some.inj h] at hlast
      exact (List.dropLast_append_getLast? _ hlast).symm
  · cases h

/-- A place below a folder is below whatever the folder is below. -/
theorem startsWith_append {d : Place} {q : Path} (n : Name)
    (h : startsWith (absolute d) q = true) :
    startsWith (absolute (d ++ [n])) q = true := by
  rw [startsWith, List.isPrefixOf_iff_prefix] at h ⊢
  rw [absolute_append]
  exact h.trans (List.prefix_append _ _)

end AirNote.Lib.Paths
