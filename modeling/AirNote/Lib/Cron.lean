import AirNote.Lib.Lines

/-!
# Cron expressions

An expression has five fields, for the minute, the hour, the day of the month,
the month and the day of the week. A field is a list of parts; a part is a
value, a range or a star, taken in steps. A moment matches where every field
does; where both of the fields for days are restricted, one of the two is
enough.

## Main results

* `parse_words` — an expression of five words is read field by field.
* `field_toString`, `field_steps` — numbers and steps as they are written.
-/

namespace AirNote.Lib.Cron

/-- What an expression looks at: the weekdays begin with Sunday. -/
structure Moment where
  minute : Nat
  hour : Nat
  day : Nat
  month : Nat
  weekday : Nat
  deriving DecidableEq, Repr

/-- A range of values, or all, taken in steps. -/
structure Part where
  range : Option (Nat × Nat)
  step : Nat
  deriving DecidableEq, Repr

/-- `low` is the least value of the field. -/
def Part.matchesValue (low : Nat) (p : Part) (v : Nat) : Bool :=
  match p.range with
  | none => (v - low) % p.step == 0
  | some (a, b) => decide (a ≤ v ∧ v ≤ b) && (v - a) % p.step == 0

abbrev Parts := List Part

def Parts.matchesValue (low : Nat) (ps : Parts) (v : Nat) : Bool :=
  ps.any fun p => p.matchesValue low v

/-- The field leaves every value free. -/
def Parts.isStar (ps : Parts) : Bool := ps.any fun p => p.range.isNone

structure Expr where
  minute : Parts
  hour : Parts
  day : Parts
  month : Parts
  weekday : Parts
  deriving DecidableEq, Repr

/-- Sunday is 0, and 7. -/
def Expr.matchesWeekday (e : Expr) (t : Moment) : Bool :=
  e.weekday.matchesValue 0 t.weekday ||
    (t.weekday == 0 && e.weekday.matchesValue 0 7)

def Expr.matchesDay (e : Expr) (t : Moment) : Bool :=
  if e.day.isStar || e.weekday.isStar then
    e.day.matchesValue 1 t.day && e.matchesWeekday t
  else e.day.matchesValue 1 t.day || e.matchesWeekday t

def Expr.matchesMoment (e : Expr) (t : Moment) : Bool :=
  e.minute.matchesValue 0 t.minute && e.hour.matchesValue 0 t.hour &&
    e.month.matchesValue 1 t.month && e.matchesDay t

/-! ## Reading -/

/-- The pieces between separators. -/
def split (sep : Char) (text : List Char) : List (List Char) :=
  (Lines.cut sep text).1 ++ [(Lines.cut sep text).2]

def number (word : List Char) : Option Nat :=
  if word ≠ [] ∧ word.all Char.isDigit then
    some (Nat.ofDigitChars 10 word 0)
  else none

def range (word : List Char) : Option (Option (Nat × Nat)) :=
  if word = ['*'] then some none
  else
    match split '-' word with
    | [a] => (number a).map fun a => some (a, a)
    | [a, b] =>
        (number a).bind fun a => (number b).map fun b => some (a, b)
    | _ => none

def part (word : List Char) : Option Part :=
  match split '/' word with
  | [r] => (range r).map fun r => ⟨r, 1⟩
  | [r, s] => (range r).bind fun r => (number s).map fun s => ⟨r, s⟩
  | _ => none

def field (word : List Char) : Option Parts := (split ',' word).mapM part

/-- An expression; nothing is read of a text without five fields. -/
def parse (text : List Char) : Option Expr :=
  match (split ' ' text).filter fun word => !word.isEmpty with
  | [minute, hour, day, month, weekday] =>
      (field minute).bind fun minute =>
        (field hour).bind fun hour =>
          (field day).bind fun day =>
            (field month).bind fun month =>
              (field weekday).map fun weekday =>
                ⟨minute, hour, day, month, weekday⟩
  | _ => none

example : parse "*/20 9-17 * * 1-5,0".toList =
    some ⟨[⟨none, 20⟩], [⟨some (9, 17), 1⟩], [⟨none, 1⟩], [⟨none, 1⟩],
      [⟨some (1, 5), 1⟩, ⟨some (0, 0), 1⟩]⟩ := by decide +kernel

/-! ## Writing -/

theorem split_of_not_mem {sep : Char} {text : List Char} (h : sep ∉ text) :
    split sep text = [text] := by
  rw [split, Lines.cut_of_not_mem h]
  rfl

theorem split_append {sep : Char} {word : List Char} (h : sep ∉ word)
    (rest : List Char) : split sep (word ++ sep :: rest) =
      word :: split sep rest := by
  rw [split, Lines.cut_line h]
  rfl

/-- A word of an expression. -/
def IsWord (word : List Char) : Prop := ' ' ∉ word ∧ word ≠ []

instance (word : List Char) : Decidable (IsWord word) :=
  inferInstanceAs (Decidable (_ ∧ _))

/-- **An expression of five words is read field by field.** -/
theorem parse_words {a b c d e : List Char} {fa fb fc fd fe : Parts}
    (ha : IsWord a ∧ field a = some fa) (hb : IsWord b ∧ field b = some fb)
    (hc : IsWord c ∧ field c = some fc) (hd : IsWord d ∧ field d = some fd)
    (he : IsWord e ∧ field e = some fe) :
    parse (a ++ ' ' :: (b ++ ' ' :: (c ++ ' ' :: (d ++ ' ' :: e)))) =
      some ⟨fa, fb, fc, fd, fe⟩ := by
  have hsplit : (split ' ' (a ++ ' ' :: (b ++ ' ' :: (c ++ ' ' ::
      (d ++ ' ' :: e))))).filter (fun word => !word.isEmpty) =
        [a, b, c, d, e] := by
    rw [split_append ha.1.1, split_append hb.1.1, split_append hc.1.1,
      split_append hd.1.1, split_of_not_mem he.1.1]
    simp [ha.1.2, hb.1.2, hc.1.2, hd.1.2, he.1.2]
  rw [parse, hsplit]
  simp only [ha.2, hb.2, hc.2, hd.2, he.2, Option.bind_some, Option.map_some]

theorem isDigit_of_mem {n : Nat} {c : Char} (h : c ∈ (toString n).toList) :
    c.isDigit = true := by
  rw [Nat.toString_eq_repr, Nat.toList_repr] at h
  exact Nat.isDigit_of_mem_toDigits (by decide) (by decide) h

theorem not_mem_toString {c : Char} (hc : c.isDigit = false) (n : Nat) :
    c ∉ (toString n).toList := fun h => by
  rw [isDigit_of_mem h] at hc
  cases hc

theorem isWord_toString (n : Nat) : IsWord (toString n).toList := by
  refine ⟨not_mem_toString (by decide) n, ?_⟩
  rw [Nat.toString_eq_repr, Nat.toList_repr]
  exact Nat.toDigits_ne_nil

theorem number_toString (n : Nat) :
    number (toString n).toList = some n := by
  have hall : (toString n).toList.all Char.isDigit = true :=
    List.all_eq_true.mpr fun c hc => isDigit_of_mem hc
  rw [number, if_pos ⟨(isWord_toString n).2, hall⟩, Nat.toString_eq_repr,
    Nat.toList_repr]
  simp

theorem range_toString (n : Nat) :
    range (toString n).toList = some (some (n, n)) := by
  have hstar : (toString n).toList ≠ ['*'] := fun h =>
    not_mem_toString (by decide : '*'.isDigit = false) n (by rw [h]; simp)
  rw [range, if_neg hstar, split_of_not_mem (not_mem_toString (by decide) n)]
  simp only [number_toString, Option.map_some]

/-- A number. -/
theorem field_toString (n : Nat) :
    field (toString n).toList = some [⟨some (n, n), 1⟩] := by
  have hpart : part (toString n).toList = some ⟨some (n, n), 1⟩ := by
    rw [part, split_of_not_mem (not_mem_toString (by decide) n)]
    simp only [range_toString, Option.map_some]
  rw [field, split_of_not_mem (not_mem_toString (by decide) n),
    List.mapM_cons, hpart]
  rfl

/-- All values in steps. -/
theorem field_steps (n : Nat) :
    field ('*' :: '/' :: (toString n).toList) = some [⟨none, n⟩] := by
  have hcomma : ',' ∉ '*' :: '/' :: (toString n).toList := by
    simp only [List.mem_cons, not_or]
    exact ⟨by decide, by decide, not_mem_toString (by decide) n⟩
  have hsplit : split '/' ('*' :: '/' :: (toString n).toList) =
      [['*'], (toString n).toList] := by
    have happend : split '/' (['*'] ++ '/' :: (toString n).toList) =
        ['*'] :: split '/' (toString n).toList := split_append (by decide) _
    rw [split_of_not_mem (not_mem_toString (by decide) n)] at happend
    exact happend
  have hpart : part ('*' :: '/' :: (toString n).toList) = some ⟨none, n⟩ := by
    rw [part, hsplit]
    simp only [number_toString]
    rfl
  rw [field, split_of_not_mem hcomma, List.mapM_cons, hpart]
  rfl

theorem isWord_steps (n : Nat) :
    IsWord ('*' :: '/' :: (toString n).toList) := by
  refine ⟨?_, List.cons_ne_nil _ _⟩
  simp only [List.mem_cons, not_or]
  exact ⟨by decide, by decide, not_mem_toString (by decide) n⟩

theorem star : IsWord ['*'] ∧ field ['*'] = some [⟨none, 1⟩] := by decide

/-! ## Matching -/

@[simp] theorem matchesValue_star (low v : Nat) :
    Parts.matchesValue low [⟨none, 1⟩] v = true := by
  simp [Parts.matchesValue, Part.matchesValue, Nat.mod_one]

@[simp] theorem matchesValue_number (low n v : Nat) :
    Parts.matchesValue low [⟨some (n, n), 1⟩] v = true ↔ v = n := by
  simp [Parts.matchesValue, Part.matchesValue, Nat.mod_one]
  omega

@[simp] theorem matchesValue_range (low a b v : Nat) :
    Parts.matchesValue low [⟨some (a, b), 1⟩] v = true ↔ a ≤ v ∧ v ≤ b := by
  simp [Parts.matchesValue, Part.matchesValue, Nat.mod_one]

@[simp] theorem matchesValue_steps (n v : Nat) :
    Parts.matchesValue 0 [⟨none, n⟩] v = true ↔ v % n = 0 := by
  simp [Parts.matchesValue, Part.matchesValue]

end AirNote.Lib.Cron
