import AirNote.EdgeTimes
import AirNote.Lib.Calendar
import AirNote.Lib.FixedWidth

/-!
# Normalised timestamps

Timestamps are compared as texts, so each is first brought to one form: the
time in UTC with microseconds, written with fields of fixed width. The texts
then compare as the instants do, unless the offset of a timestamp carries its
year beyond 9999: such a year is written with a sign, which stands before every
digit.

An instant is counted in ticks. A second has two thousand million of them, one
for each nanosecond of it and one for each nanosecond of a leap second after
it, so that a leap second is later than the second before and earlier than the
next.

## Main results

* `ticks_withTimezoneUtc` — the time in UTC is the same instant.
* `text_lt_iff` — how the texts compare.
* `normalizeTs_order_iff` — which timestamps compare as their instants do.
-/

namespace AirNote.Timestamps

open Lib Lib.Calendar Lib.FixedWidth

/-- What `DateTime::parse_from_rfc3339` makes of a timestamp it accepts: a date
in a year of four digits, a time of the day, which may be in a leap second, and
an offset to the east, in minutes. -/
structure Timestamp where
  date : Date
  hour : Nat
  minute : Nat
  second : Nat
  nano : Nat
  offset : Int
  year_nonneg : 0 ≤ date.year
  year_le : date.year ≤ 9999
  hour_lt : hour < 24
  minute_lt : minute < 60
  second_le : second ≤ 60
  nano_lt : nano < 1000000000
  offset_gt : -1440 < offset
  offset_lt : offset < 1440
  deriving DecidableEq, Repr

/-- `NaiveDateTime`, of the time in UTC. -/
structure UtcTime where
  date : Date
  hour : Nat
  minute : Nat
  second : Nat
  nano : Nat
  hour_lt : hour < 24
  minute_lt : minute < 60
  second_le : second ≤ 60
  nano_lt : nano < 1000000000
  deriving DecidableEq, Repr

/-- The ticks of a time of the day in a second of the given number, from the
first second of the year 1 on. -/
def ticksAt (seconds : Int) (second nano : Nat) : Int :=
  (seconds + min second 59) * 2000000000 +
    (if second = 60 then 1000000000 else 0) + nano

/-- The instant of a timestamp. -/
def Timestamp.ticks (t : Timestamp) : Int :=
  ticksAt (t.date.dayNumber * 86400 + t.hour * 3600 + t.minute * 60 -
    t.offset * 60) t.second t.nano

def UtcTime.ticks (u : UtcTime) : Int :=
  ticksAt (u.date.dayNumber * 86400 + u.hour * 3600 + u.minute * 60) u.second
    u.nano

/-- The minutes from the begin of the date, in UTC. -/
def Timestamp.utcMinutes (t : Timestamp) : Int :=
  t.hour * 60 + t.minute - t.offset

/-- The date in UTC. -/
def Timestamp.utcDate (t : Timestamp) : Date :=
  if t.utcMinutes / 1440 = -1 then t.date.pred
  else if t.utcMinutes / 1440 = 1 then t.date.succ
  else t.date

/-- `with_timezone(&chrono::Utc)`. -/
def Timestamp.withTimezoneUtc (t : Timestamp) : UtcTime where
  date := t.utcDate
  hour := (t.utcMinutes % 1440 / 60).toNat
  minute := (t.utcMinutes % 60).toNat
  second := t.second
  nano := t.nano
  hour_lt := by omega
  minute_lt := by omega
  second_le := t.second_le
  nano_lt := t.nano_lt

/-- `%Y`: four digits, and a sign where they do not suffice. -/
def yearText (y : Int) : List Char :=
  if 0 ≤ y ∧ y ≤ 9999 then digits 4 y.toNat
  else (if y < 0 then '-' else '+') ::
    if y.natAbs < 10000 then digits 4 y.natAbs else Nat.toDigits 10 y.natAbs

theorem daysInMonth_le (y : Int) (m : Nat) : daysInMonth y m ≤ 31 := by
  unfold daysInMonth
  split <;> (try split) <;> decide

/-- The items of the format after the year: `-%m-%dT%H:%M:%S%.6f`. -/
def UtcTime.fields (u : UtcTime) : List Field :=
  [⟨'-', 2, u.date.month, by have := u.date.month_le; omega⟩,
    ⟨'-', 2, u.date.day, by
      have := u.date.day_le.trans (daysInMonth_le _ _)
      omega⟩,
    ⟨'T', 2, u.hour, by have := u.hour_lt; omega⟩,
    ⟨':', 2, u.minute, by have := u.minute_lt; omega⟩,
    ⟨':', 2, u.second, by have := u.second_le; omega⟩,
    ⟨'.', 6, u.nano / 1000, by have := u.nano_lt; omega⟩]

/-- `format("%Y-%m-%dT%H:%M:%S%.6fZ")`. -/
def UtcTime.text (u : UtcTime) : List Char :=
  yearText u.date.year ++ (render u.fields ++ ['Z'])

/-- What `normalize_ts` makes of a timestamp. -/
def Timestamp.normalized (t : Timestamp) : String :=
  String.ofList t.withTimezoneUtc.text

/-! ## The instant -/

theorem Timestamp.utcMinutes_bounds (t : Timestamp) :
    -1440 < t.utcMinutes ∧ t.utcMinutes < 2880 := by
  have hhour := t.hour_lt
  have hminute := t.minute_lt
  have hgt := t.offset_gt
  have hlt := t.offset_lt
  unfold utcMinutes
  omega

theorem Timestamp.dayNumber_utcDate (t : Timestamp) :
    t.utcDate.dayNumber = t.date.dayNumber + t.utcMinutes / 1440 := by
  obtain ⟨hlow, hhigh⟩ := t.utcMinutes_bounds
  unfold utcDate
  split
  next hday => rw [dayNumber_pred, hday, Int.sub_eq_add_neg]
  · split
    next hday => rw [dayNumber_succ, hday]
    · omega

/-- **The time in UTC is the same instant.** -/
theorem ticks_withTimezoneUtc (t : Timestamp) :
    t.withTimezoneUtc.ticks = t.ticks := by
  have hday := t.dayNumber_utcDate
  have hseconds : (t.withTimezoneUtc.date.dayNumber * 86400 +
      t.withTimezoneUtc.hour * 3600 + t.withTimezoneUtc.minute * 60 : Int) =
        t.date.dayNumber * 86400 + t.hour * 3600 + t.minute * 60 -
          t.offset * 60 := by
    simp only [Timestamp.withTimezoneUtc, hday]
    have hminutes : t.utcMinutes = t.hour * 60 + t.minute - t.offset := rfl
    omega
  rw [UtcTime.ticks, Timestamp.ticks, hseconds]
  rfl

/-- The years a timestamp may have in UTC. -/
theorem Timestamp.utcDate_year (t : Timestamp) :
    -1 ≤ t.utcDate.year ∧ t.utcDate.year ≤ 10000 := by
  have hlow := t.year_nonneg
  have hhigh := t.year_le
  unfold utcDate Date.pred Date.succ
  split
  · split
    · exact ⟨by simp only; omega, by simp only; omega⟩
    · split <;> exact ⟨by simp only; omega, by simp only; omega⟩
  · split
    · split
      · exact ⟨by simp only; omega, by simp only; omega⟩
      · split <;> exact ⟨by simp only; omega, by simp only; omega⟩
    · omega

/-! ## The order of the instants -/

/-- The microseconds of a time, counted as the ticks are. -/
def UtcTime.micros (u : UtcTime) : Int :=
  (u.date.dayNumber * 86400 + u.hour * 3600 + u.minute * 60 +
      min u.second 59) * 2000000 +
    (if u.second = 60 then 1000000 else 0) + (u.nano / 1000 : Nat)

theorem ticks_div (u : UtcTime) : u.ticks / 1000 = u.micros := by
  unfold UtcTime.ticks ticksAt UtcTime.micros
  split <;> omega

/-- The time comes before the other, field by field. -/
def UtcTime.Before (u v : UtcTime) : Prop :=
  u.date.year < v.date.year ∨ u.date.year = v.date.year ∧
    u.fields.map Field.value < v.fields.map Field.value

theorem fields_lt_iff (u v : UtcTime) :
    u.fields.map Field.value < v.fields.map Field.value ↔
      u.date.month < v.date.month ∨ u.date.month = v.date.month ∧
      (u.date.day < v.date.day ∨ u.date.day = v.date.day ∧
      (u.hour < v.hour ∨ u.hour = v.hour ∧
      (u.minute < v.minute ∨ u.minute = v.minute ∧
      (u.second < v.second ∨ u.second = v.second ∧
        u.nano / 1000 < v.nano / 1000)))) := by
  have hnil : ¬ ([] : List Nat) < [] := lt_irrefl _
  simp only [UtcTime.fields, List.map_cons, List.map_nil,
    List.cons_lt_cons_iff, hnil, and_false, or_false]

theorem fields_eq_iff (u v : UtcTime) :
    u.fields.map Field.value = v.fields.map Field.value ↔
      u.date.month = v.date.month ∧ u.date.day = v.date.day ∧
        u.hour = v.hour ∧ u.minute = v.minute ∧ u.second = v.second ∧
        u.nano / 1000 = v.nano / 1000 := by
  simp [UtcTime.fields]

/-- Where the dates are the same, the times of the day decide. -/
theorem micros_lt_of_time {u v : UtcTime} (hdate : u.date = v.date)
    (h : u.hour < v.hour ∨ u.hour = v.hour ∧
      (u.minute < v.minute ∨ u.minute = v.minute ∧
      (u.second < v.second ∨ u.second = v.second ∧
        u.nano / 1000 < v.nano / 1000))) : u.micros < v.micros := by
  have hu := u.minute_lt
  have hv := v.minute_lt
  have hus := u.second_le
  have hvs := v.second_le
  have hun := u.nano_lt
  have hvn := v.nano_lt
  unfold UtcTime.micros
  rw [hdate]
  split <;> split <;> omega

theorem micros_lt_of_date {u v : UtcTime} (h : u.date.Before v.date) :
    u.micros < v.micros := by
  have hday := dayNumber_lt h
  have huh := u.hour_lt
  have hu := u.minute_lt
  have hus := u.second_le
  have hun := u.nano_lt
  unfold UtcTime.micros
  split <;> split <;> omega

/-- **A time that comes before is earlier by a microsecond.** -/
theorem micros_lt_of_before {u v : UtcTime} (h : u.Before v) :
    u.micros < v.micros := by
  rcases h with hyear | ⟨hyear, hfields⟩
  · exact micros_lt_of_date (Or.inl hyear)
  rcases (fields_lt_iff u v).mp hfields with
    hmonth | ⟨hmonth, hday | ⟨hday, htime⟩⟩
  · exact micros_lt_of_date (Or.inr ⟨hyear, Or.inl hmonth⟩)
  · exact micros_lt_of_date (Or.inr ⟨hyear, Or.inr ⟨hmonth, hday⟩⟩)
  · refine micros_lt_of_time ?_ htime
    obtain ⟨⟨_, _, _, _, _, _, _⟩, _, _, _, _, _, _, _, _⟩ := u
    obtain ⟨⟨_, _, _, _, _, _, _⟩, _, _, _, _, _, _, _, _⟩ := v
    simp only at hyear hmonth hday
    subst hyear hmonth hday
    rfl

/-- The times agree in every field of the format. -/
def UtcTime.Same (u v : UtcTime) : Prop :=
  u.date.year = v.date.year ∧
    u.fields.map Field.value = v.fields.map Field.value

theorem before_trichotomy (u v : UtcTime) :
    u.Before v ∨ u.Same v ∨ v.Before u := by
  rcases lt_trichotomy u.date.year v.date.year with h | h | h
  · exact Or.inl (Or.inl h)
  · rcases lt_trichotomy (u.fields.map Field.value)
        (v.fields.map Field.value) with h' | h' | h'
    · exact Or.inl (Or.inr ⟨h, h'⟩)
    · exact Or.inr (Or.inl ⟨h, h'⟩)
    · exact Or.inr (Or.inr (Or.inr ⟨h.symm, h'⟩))
  · exact Or.inr (Or.inr (Or.inl h))

theorem micros_eq_of_same {u v : UtcTime} (h : u.Same v) :
    u.micros = v.micros := by
  obtain ⟨hyear, hfields⟩ := h
  obtain ⟨hmonth, hday, hhour, hminute, hsecond, hnano⟩ :=
    (fields_eq_iff u v).mp hfields
  rw [UtcTime.micros, UtcTime.micros, Date.dayNumber, Date.dayNumber, hyear,
    hmonth, hday, hhour, hminute, hsecond, hnano]

/-! ## The order of the texts -/

theorem render_fields_lt_iff (u v : UtcTime) :
    render u.fields ++ ['Z'] < render v.fields ++ ['Z'] ↔
      u.fields.map Field.value < v.fields.map Field.value := by
  have halike : SameLayout u.fields v.fields := rfl
  have hlength : (render u.fields).length = (render v.fields).length := by
    simp [render, UtcTime.fields, Field.render]
  rw [append_lt_append_iff hlength, render_lt_iff halike]
  exact or_iff_left fun h => lt_irrefl _ h.2

theorem text_eq_of_same {u v : UtcTime} (h : u.Same v) : u.text = v.text := by
  obtain ⟨hyear, hfields⟩ := h
  obtain ⟨hmonth, hday, hhour, hminute, hsecond, hnano⟩ :=
    (fields_eq_iff u v).mp hfields
  simp only [UtcTime.text, UtcTime.fields, hyear, hmonth, hday, hhour, hminute,
    hsecond, hnano]

/-- A year the format writes with its digits alone, or with a sign. -/
theorem yearText_of_range {y : Int} (hlow : -1 ≤ y) (hhigh : y ≤ 9999) :
    (y = -1 ∧ yearText y = ['-', '0', '0', '0', '1']) ∨
      0 ≤ y ∧ y.toNat < 10 ^ 4 ∧ yearText y = digits 4 y.toNat := by
  by_cases h : 0 ≤ y
  · right
    refine ⟨h, by omega, if_pos ⟨h, hhigh⟩⟩
  · have hy : y = -1 := by omega
    subst hy
    exact Or.inl ⟨rfl, by decide⟩

/-- A sign stands before every digit. -/
theorem sign_lt_digits {c : Char} (hc : c < '0') (k n : Nat)
    (rest rest' : List Char) : c :: rest < digits (k + 1) n ++ rest' := by
  rw [digits, List.cons_append, List.cons_lt_cons_iff]
  left
  have hdigit : ∀ a : Fin 10, '0' ≤ Nat.digitChar a := by decide
  exact hc.trans_le (hdigit ⟨n / 10 ^ k % 10, Nat.mod_lt _ (by decide)⟩)

theorem yearText_lt {y y' : Int} (hlow : -1 ≤ y) (hlt : y < y')
    (hhigh : y' ≤ 9999) (rest rest' : List Char) :
    yearText y ++ rest < yearText y' ++ rest' := by
  obtain ⟨hnegative, -⟩ | ⟨-, hfits', htext'⟩ :=
    yearText_of_range (hlow.trans hlt.le) hhigh
  · omega
  rw [htext']
  rcases yearText_of_range hlow (hlt.le.trans hhigh) with
    ⟨-, htext⟩ | ⟨hpos, hfits, htext⟩
  · rw [htext]
    exact sign_lt_digits (by decide) 3 _ _ _
  · rw [htext, append_lt_append_iff (by simp)]
    exact Or.inl ((digits_lt_iff hfits hfits').mpr (by omega))

/-- A year of five digits stands before the others. -/
theorem yearText_beyond {y : Int} (hlow : -1 ≤ y) (hhigh : y ≤ 9999)
    (rest rest' : List Char) :
    yearText 10000 ++ rest < yearText y ++ rest' := by
  have hplus : yearText 10000 = ['+', '1', '0', '0', '0', '0'] := by decide
  rw [hplus]
  rcases yearText_of_range hlow hhigh with ⟨-, htext⟩ | ⟨-, -, htext⟩
  · rw [htext]
    exact List.cons_lt_cons_iff.mpr (Or.inl (by decide))
  · rw [htext]
    exact sign_lt_digits (by decide) 3 _ _ _

/-- **Texts compare as their fields**, where no year is beyond the others. -/
theorem text_lt_of_before {u v : UtcTime} (hlow : -1 ≤ u.date.year)
    (hhigh : v.date.year ≤ 9999 ∨ u.date.year = v.date.year)
    (h : u.Before v) : u.text < v.text := by
  rcases h with hyear | ⟨hyear, hfields⟩
  · exact yearText_lt hlow hyear (hhigh.resolve_right hyear.ne) _ _
  · rw [UtcTime.text, UtcTime.text, hyear, append_lt_append_iff rfl]
    exact Or.inr ⟨rfl, (render_fields_lt_iff u v).mpr hfields⟩

/-! ## `normalize_ts` -/

/-- What is asked of two normalised timestamps, the instants of which are
known. -/
def KeepsOrder (ticks ticks' : Int) (text text' : String) : Prop :=
  (ticks ≤ ticks' → text ≤ text') ∧
    (ticks ≤ ticks' → ticks / 1000 ≠ ticks' / 1000 → text < text') ∧
    (ticks = ticks' → text = text')

theorem normalized_lt_iff (t t' : Timestamp) :
    t.normalized < t'.normalized ↔
      t.withTimezoneUtc.text < t'.withTimezoneUtc.text := by
  rw [Timestamp.normalized, Timestamp.normalized, String.lt_iff_toList_lt,
    String.toList_ofList, String.toList_ofList]

/-- Where the year stays within four digits, or leaves them in both. -/
theorem normalized_keepsOrder {t t' : Timestamp}
    (h : 9999 < t'.utcDate.year → 9999 < t.utcDate.year) :
    KeepsOrder t.ticks t'.ticks t.normalized t'.normalized := by
  obtain ⟨hlow, hhigh⟩ := t.utcDate_year
  obtain ⟨hlow', hhigh'⟩ := t'.utcDate_year
  have hmicros := ticks_div t.withTimezoneUtc
  have hmicros' := ticks_div t'.withTimezoneUtc
  rw [ticks_withTimezoneUtc] at hmicros hmicros'
  unfold KeepsOrder
  rcases before_trichotomy t.withTimezoneUtc t'.withTimezoneUtc with
    hbefore | hsame | hafter
  · have hlt := micros_lt_of_before hbefore
    have hyear : t'.utcDate.year ≤ 9999 ∨ t.utcDate.year = t'.utcDate.year := by
      omega
    have htext : t.normalized < t'.normalized :=
      (normalized_lt_iff t t').mpr (text_lt_of_before hlow hyear hbefore)
    exact ⟨fun _ => htext.le, fun _ _ => htext, fun heq => by omega⟩
  · have hmicrosEq := micros_eq_of_same hsame
    have htext : t.normalized = t'.normalized :=
      congrArg String.ofList (text_eq_of_same hsame)
    exact ⟨fun _ => htext.le, fun _ hne => by omega, fun _ => htext⟩
  · have hlt := micros_lt_of_before hafter
    exact ⟨fun hle => by omega, fun hle _ => by omega, fun heq => by omega⟩

/-- **Normalised timestamps compare as their instants** iff not just the
second of them has a year of five digits in UTC. -/
theorem normalizeTs_order_iff (parseFromRfc3339 : String → Option Timestamp)
    {ts ts' : String} {t t' : Timestamp} (h : parseFromRfc3339 ts = some t)
    (h' : parseFromRfc3339 ts' = some t') :
    let normalize := normalizeTs fun ts =>
      (parseFromRfc3339 ts).map Timestamp.normalized
    KeepsOrder t.ticks t'.ticks (normalize ts) (normalize ts') ↔
      ¬ (t.utcDate.year ≤ 9999 ∧ 9999 < t'.utcDate.year) := by
  intro normalize
  have hts : normalize ts = t.normalized := by
    simp only [normalize, normalizeTs, h, Option.map_some]
  have hts' : normalize ts' = t'.normalized := by
    simp only [normalize, normalizeTs, h', Option.map_some]
  rw [hts, hts']
  constructor
  · rintro ⟨hle, -, -⟩ ⟨hyear, hyear'⟩
    have hbefore : t.withTimezoneUtc.Before t'.withTimezoneUtc :=
      Or.inl (hyear.trans_lt hyear')
    have hlt := micros_lt_of_before hbefore
    rw [← ticks_div, ← ticks_div, ticks_withTimezoneUtc,
      ticks_withTimezoneUtc] at hlt
    have hten : t'.withTimezoneUtc.date.year = 10000 :=
      le_antisymm t'.utcDate_year.2 hyear'
    have htext : t'.normalized < t.normalized := by
      rw [normalized_lt_iff, UtcTime.text, UtcTime.text, hten]
      exact yearText_beyond t.utcDate_year.1 hyear _ _
    exact absurd htext (not_lt_of_ge (hle (by omega)))
  · intro hnot
    exact normalized_keepsOrder fun hyear' => by
      by_contra hyear
      exact hnot ⟨not_lt.mp hyear, hyear'⟩

/-! ### Midnight in Tokyo, and the last hour of the year 9999 -/

/-- The first second of the year 2020, at an offset. -/
def newYear (offset : Int) (west : -1440 < offset) (east : offset < 1440) :
    Timestamp :=
  ⟨⟨2020, 1, 1, january_pos, january_le, january_pos, by decide⟩, 0, 0, 0, 0,
    offset, by decide, by decide, by decide, by decide, by decide, by decide,
    west, east⟩

example : (newYear 540 (by decide) (by decide)).normalized =
    "2019-12-31T15:00:00.000000Z" := by decide +kernel

/-- The last second of the year 9999, at an offset. -/
def lastSecond (offset : Int) (west : -1440 < offset) (east : offset < 1440) :
    Timestamp :=
  ⟨⟨9999, 12, 31, january_le, by decide, by decide, by decide⟩, 23, 59, 59, 0,
    offset, by decide, by decide, by decide, by decide, by decide, by decide,
    west, east⟩

/-- What some timestamps are read as. -/
def readSome (ts : String) : Option Timestamp :=
  if ts = "2020-01-01T00:00:00+09:00" then
    some (newYear 540 (by decide) (by decide))
  else if ts = "2020-01-01T00:00:00Z" then
    some (newYear 0 (by decide) (by decide))
  else if ts = "9999-12-31T23:59:59Z" then
    some (lastSecond 0 (by decide) (by decide))
  else if ts = "9999-12-31T23:59:59-01:00" then
    some (lastSecond (-60) (by decide) (by decide))
  else none

/-- Midnight in Tokyo comes before midnight in UTC. -/
theorem tokyo_before_utc :
    let normalize := normalizeTs fun ts =>
      (readSome ts).map Timestamp.normalized
    let tokyo := newYear 540 (by decide) (by decide)
    let utc := newYear 0 (by decide) (by decide)
    KeepsOrder tokyo.ticks utc.ticks (normalize "2020-01-01T00:00:00+09:00")
        (normalize "2020-01-01T00:00:00Z") ↔
      ¬ (tokyo.utcDate.year ≤ 9999 ∧ 9999 < utc.utcDate.year) :=
  have htokyo : readSome "2020-01-01T00:00:00+09:00" =
      some (newYear 540 (by decide) (by decide)) := by decide +kernel
  have hutc : readSome "2020-01-01T00:00:00Z" =
      some (newYear 0 (by decide) (by decide)) := by decide +kernel
  normalizeTs_order_iff readSome htokyo hutc

/-- The last second of the year 9999 an hour to the west comes later than that
in UTC, and its text before. -/
theorem year_10000_before :
    let normalize := normalizeTs fun ts =>
      (readSome ts).map Timestamp.normalized
    ∃ t t', readSome "9999-12-31T23:59:59Z" = some t ∧
      readSome "9999-12-31T23:59:59-01:00" = some t' ∧ t.ticks ≤ t'.ticks ∧
      ¬ normalize "9999-12-31T23:59:59Z" ≤
        normalize "9999-12-31T23:59:59-01:00" :=
  ⟨lastSecond 0 (by decide) (by decide), lastSecond (-60) (by decide)
    (by decide), by decide +kernel⟩

end AirNote.Timestamps
