import AirNote.Lib.SortedBy
import AirNote.Lib.Utf16
import AirNote.Rows

/-!
# RFC 8785

The canonical text of a JSON value: no blanks, the shortest escapes, and the
members of an object sorted by the UTF-16 units of their names. How a number
with a fraction or an exponent is written is left to a parameter; an integer
is written with all its digits.

## Main results

* `text_obj_congr` — the text of an object depends on what each name is bound
  to, and not on the order of the members.
-/

namespace AirNote.Jcs

open Lib

/-- A character of a string. -/
def escape (c : Char) : List Char :=
  match c.toNat with
  | 0x08 => "\\b".toList
  | 0x09 => "\\t".toList
  | 0x0A => "\\n".toList
  | 0x0C => "\\f".toList
  | 0x0D => "\\r".toList
  | 0x22 => "\\\"".toList
  | 0x5C => "\\\\".toList
  | v =>
      if v < 0x20 then
        "\\u00".toList ++ [Nat.digitChar (v / 16), Nat.digitChar (v % 16)]
      else [c]

/-- A string between quotes. -/
def quote (s : String) : List Char :=
  "\"".toList ++ s.toList.flatMap escape ++ "\"".toList

/-- Names by their UTF-16 units. -/
def compareNames (f g : String × List Char) : Ordering :=
  compare (Utf16.encode f.1.toList) (Utf16.encode g.1.toList)

/-- Members in the order of their names. -/
def sortMembers (members : List (String × List Char)) :
    List (String × List Char) :=
  members.insertionSort fun f g => compareNames f g ≠ .gt

/-- The members of an object between braces. -/
def braced (members : List (String × List Char)) : List Char :=
  "\x7b".toList ++ List.intercalate ",".toList
    ((sortMembers members).map fun f => quote f.1 ++ ":".toList ++ f.2) ++
      "\x7d".toList

section Text

variable (fraction : String → String)

mutual

/-- The canonical text of a value. -/
def text : Json → List Char
  | .null => "null".toList
  | .bool true => "true".toList
  | .bool false => "false".toList
  | .num n => (toString n).toList
  | .float t => (fraction t).toList
  | .str s => quote s
  | .arr items =>
      "[".toList ++ List.intercalate ",".toList (texts items) ++ "]".toList
  | .obj fields => braced (members fields)

def texts : List Json → List (List Char)
  | [] => []
  | v :: rest => text v :: texts rest

def members : List (String × Json) → List (String × List Char)
  | [] => []
  | (k, v) :: rest => (k, text v) :: members rest

end

/-- The canonical bytes of a value. -/
def bytes (v : Json) : Bytes :=
  (Utf8.encodeText (text fraction v)).map UInt8.ofNat

end Text

example : text id (.obj [("b", .num 7), ("a", .str "x\n")]) =
    "\x7b\"a\":\"x\\n\",\"b\":7\x7d".toList := by decide +kernel

/-! ## The order of the members -/

variable {fraction : String → String}

theorem map_fst_members (fields : List (String × Json)) :
    (members fraction fields).map Prod.fst = fields.map Prod.fst := by
  induction fields with
  | nil => rfl
  | cons f rest ih => simp [members, ih]

/-- Names that differ are told apart. -/
theorem compareNames_apart {members : List (String × List Char)}
    (hnodup : (members.map Prod.fst).Nodup) :
    ∀ f ∈ members, ∀ g ∈ members, compareNames f g = .eq → f = g := by
  intro f hf g hg heq
  have hname : f.1 = g.1 :=
    String.toList_injective
      (Utf16.encode_injective (Std.LawfulEqOrd.eq_of_compare heq))
  exact List.inj_on_of_nodup_map hnodup hf hg hname

/-- Members of different names have one order. -/
theorem sortMembers_congr {ms ns : List (String × List Char)}
    (hnodup : (ms.map Prod.fst).Nodup) (hperm : ms.Perm ns) :
    sortMembers ms = sortMembers ns := by
  have horders := SortedBy.orders_of_cmp
    (SortedBy.transCmp_comap (inferInstanceAs (Std.TransOrd (List Nat)))
      fun f : String × List Char => Utf16.encode f.1.toList)
    (S := {f | f ∈ ms}) (compareNames_apart hnodup)
  exact SortedBy.insertionSort_congr horders (fun f hf => hf) hperm

/-- The members are the texts of what the names are bound to. -/
theorem mem_members {fields : List (String × Json)}
    (hnodup : (fields.map Prod.fst).Nodup) (k : String) (t : List Char) :
    (k, t) ∈ members fraction fields ↔
      (Json.lookup k fields).map (text fraction) = some t := by
  induction fields with
  | nil => simp [members, Json.lookup]
  | cons f rest ih =>
      obtain ⟨k', v⟩ := f
      rw [List.map_cons, List.nodup_cons] at hnodup
      rw [members, List.mem_cons, ih hnodup.2, Json.lookup]
      by_cases hk : k' = k
      · subst hk
        simp [Json.lookup_eq_none.2 hnodup.1, eq_comm]
      · simp [hk, Ne.symm hk]

/-- **The text of an object depends on what each name is bound to.** -/
theorem text_obj_congr {fs gs : List (String × Json)}
    (hfs : (fs.map Prod.fst).Nodup) (hgs : (gs.map Prod.fst).Nodup)
    (h : ∀ k, (Json.lookup k fs).map (text fraction) =
      (Json.lookup k gs).map (text fraction)) :
    text fraction (.obj fs) = text fraction (.obj gs) := by
  have hmembers : ∀ {es : List (String × Json)},
      (es.map Prod.fst).Nodup → ((members fraction es).map Prod.fst).Nodup :=
    fun hes => (map_fst_members _).symm ▸ hes
  have hperm : (members fraction fs).Perm (members fraction gs) := by
    refine (List.perm_ext_iff_of_nodup (hmembers hfs).of_map
      (hmembers hgs).of_map).mpr ?_
    rintro ⟨k, t⟩
    rw [mem_members hfs, mem_members hgs, h]
  rw [text, text, braced, braced, sortMembers_congr (hmembers hfs) hperm]

end AirNote.Jcs
