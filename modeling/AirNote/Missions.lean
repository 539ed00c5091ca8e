import AirNote.Lib.Calendar
import AirNote.Lib.Cron
import AirNote.TelegramBridge

/-!
# The next run of a mission

A mission runs on a schedule, which is kept twice: as its fields, from which
the next run is computed, and as a cron expression. Both are made from the same
input by code of their own, and this module asks when they agree.

Local time is a number of milliseconds without changes of the clock, so that a
day has 24 hours; the range of `Date` is not modelled. An input may have any
number for a weekday or an interval, and any text for a time or an expression.

## Main results

* `nextDailyFrom_isLeast`, `nextWeekdaysFrom_isLeast`,
  `nextWeeklyFrom_isLeast` — the next run at a time of the day.
* `nextEveryMinutesFrom_twice` — which intervals are kept.
* `runsAsNamed_iff` — which schedules run as they say.
-/

namespace AirNote.Missions

open Lib Lib.Calendar

/-! ## Schedules -/

/-- `MissionScheduleKind`. -/
inductive ScheduleKind where
  | daily
  | weekdays
  | everyMinutes
  | weekly
  | custom
  deriving DecidableEq, Repr

/-- A number, as far as the schedules tell numbers apart. -/
inductive JsNumber where
  | nan
  | infinite (negative : Bool)
  | finite (value : Rat)
  deriving DecidableEq, Repr

def JsNumber.ofNat (n : Nat) : JsNumber := .finite n

/-- `MissionSchedule`. -/
structure MissionSchedule where
  kind : ScheduleKind
  time : Option String
  weekday : Option JsNumber
  intervalMinutes : Option JsNumber
  cron : String

/-- The input of `buildMissionSchedule`, and of `toCronExpression`. -/
structure ScheduleInput where
  kind : ScheduleKind
  time : Option String
  weekday : Option JsNumber
  intervalMinutes : Option JsNumber
  cron : Option String

def defaultTime : String := "09:00"

/-- `pad2`. -/
def pad2 (value : Nat) : List Char :=
  List.replicate (2 - (Nat.toDigits 10 value).length) '0' ++
    Nat.toDigits 10 value

/-- `Number`, of digits. -/
def numberOf (digits : List Char) : Nat := Nat.ofDigitChars 10 digits 0

/-- `[0-5]\d`. -/
def isMinutes (a b : Char) : Bool := '0' ≤ a && a ≤ '5' && b.isDigit

/-- The groups of `/^([01]?\d|2[0-3]):([0-5]\d)$/`. -/
def matchTime : List Char → Option (List Char × List Char)
  | [h, ':', a, b] =>
      if h.isDigit && isMinutes a b then some ([h], [a, b]) else none
  | [g, h, ':', a, b] =>
      if ((g == '0' || g == '1') && h.isDigit || g == '2' && '0' ≤ h && h ≤ '3')
          && isMinutes a b then some ([g, h], [a, b])
      else none
  | _ => none

/-- `normalizeMissionTime`. -/
def normalizeMissionTime (value : Option String) : String :=
  match value with
  | none => defaultTime
  | some value =>
      match matchTime (trimmed value) with
      | none => defaultTime
      | some (hour, minute) =>
          String.ofList (pad2 (numberOf hour) ++ ':' :: pad2 (numberOf minute))

/-- `normalizeMissionWeekday`. -/
def normalizeMissionWeekday : Option JsNumber → Nat
  | some (.finite value) =>
      if value.den = 1 ∧ 0 ≤ value.num ∧ value.num ≤ 6 then value.num.toNat
      else 1
  | _ => 1

/-- `normalizeMissionInterval`. -/
def normalizeMissionInterval : Option JsNumber → Nat
  | some (.finite value) =>
      let rounded := value.num.tdiv value.den
      if rounded < 1 then 1 else min rounded.toNat 1440
  | _ => 15

/-- `schedule.cron?.trim()`, where it is not empty. -/
def explicitCron (cron : Option String) : Option String :=
  match cron with
  | none => none
  | some cron =>
      if (trimmed cron).isEmpty then none
      else some (String.ofList (trimmed cron))

/-- `normalizeMissionTime(time).split(":").map(Number)`. -/
def hourMinute (time : Option String) : Nat × Nat :=
  match Cron.split ':' (normalizeMissionTime time).toList with
  | [hour, minute] => (numberOf hour, numberOf minute)
  | _ => (0, 0)

/-- `toCronExpression`. -/
def toCronExpression (schedule : ScheduleInput) : String :=
  match explicitCron schedule.cron with
  | some cron => cron
  | none =>
      let (hour, minute) := hourMinute schedule.time
      match schedule.kind with
      | .everyMinutes =>
          s!"*/{normalizeMissionInterval schedule.intervalMinutes} * * * *"
      | .custom => "0 9 * * *"
      | .weekdays => s!"{minute} {hour} * * 1-5"
      | .weekly =>
          s!"{minute} {hour} * * {normalizeMissionWeekday schedule.weekday}"
      | .daily => s!"{minute} {hour} * * *"

/-- `buildMissionSchedule`. -/
def buildMissionSchedule (input : ScheduleInput) : MissionSchedule :=
  match input.kind with
  | .everyMinutes =>
      let intervalMinutes :=
        some (JsNumber.ofNat (normalizeMissionInterval input.intervalMinutes))
      ⟨.everyMinutes, none, none, intervalMinutes, toCronExpression
        ⟨.everyMinutes, none, none, intervalMinutes, input.cron⟩⟩
  | .weekly =>
      let time := some (normalizeMissionTime input.time)
      let weekday :=
        some (JsNumber.ofNat (normalizeMissionWeekday input.weekday))
      ⟨.weekly, time, weekday, none,
        toCronExpression ⟨.weekly, time, weekday, none, input.cron⟩⟩
  | .weekdays =>
      let time := some (normalizeMissionTime input.time)
      ⟨.weekdays, time, none, none,
        toCronExpression ⟨.weekdays, time, none, none, input.cron⟩⟩
  | .custom =>
      ⟨.custom, none, none, none,
        toCronExpression ⟨.custom, none, none, none, input.cron⟩⟩
  | .daily =>
      let time := some (normalizeMissionTime input.time)
      ⟨.daily, time, none, none,
        toCronExpression ⟨.daily, time, none, none, input.cron⟩⟩

/-! ## Local time -/

/-- `getMinutes`. -/
def getMinutes (t : Int) : Nat := (t / 60000 % 60).toNat

/-- `getHours`. -/
def getHours (t : Int) : Nat := (t / 3600000 % 24).toNat

/-- `getDay`: 0 is Sunday, and the first day of 1970 was a Thursday. -/
def getDay (t : Int) : Nat := ((t / 86400000 + 4) % 7).toNat

/-- `setSeconds(0, 0)`. -/
def setSeconds (t : Int) : Int := t - t % 60000

/-- `setMinutes`. -/
def setMinutes (t : Int) (minutes : Nat) : Int :=
  t + ((minutes : Int) - getMinutes t) * 60000

/-- `setHours(hour, minute, 0, 0)`. -/
def setHours (t : Int) (hour minute : Nat) : Int :=
  t / 86400000 * 86400000 + hour * 3600000 + minute * 60000

/-- `setDate(getDate() + days)`. -/
def addDays (t : Int) (days : Nat) : Int := t + days * 86400000

/-! ## The next run -/

/-- `nextDailyFrom`. -/
def nextDailyFrom (time : String) (start : Int) : Int :=
  let (hour, minute) := hourMinute (some time)
  let candidate := setHours (setSeconds start) hour minute
  if candidate ≤ start then addDays candidate 1 else candidate

/-- The days of the weekend that are left. -/
def weekendLeft (candidate : Int) : Nat :=
  if getDay candidate = 6 then 2 else if getDay candidate = 0 then 1 else 0

theorem weekendLeft_addDays {candidate : Int}
    (h : getDay candidate = 0 ∨ getDay candidate = 6) :
    weekendLeft (addDays candidate 1) < weekendLeft candidate := by
  have hnext : getDay (addDays candidate 1) = (getDay candidate + 1) % 7 := by
    unfold getDay addDays
    omega
  unfold weekendLeft
  rw [hnext]
  rcases h with h | h <;> rw [h] <;> decide

/-- The loop of `nextWeekdaysFrom`. -/
def skipWeekend (candidate : Int) : Int :=
  if getDay candidate = 0 ∨ getDay candidate = 6 then
    skipWeekend (addDays candidate 1)
  else candidate
  termination_by weekendLeft candidate
  decreasing_by exact weekendLeft_addDays ‹_›

/-- `nextWeekdaysFrom`. -/
def nextWeekdaysFrom (time : String) (start : Int) : Int :=
  skipWeekend (nextDailyFrom time start)

/-- `nextWeeklyFrom`. -/
def nextWeeklyFrom (time : String) (weekday : JsNumber) (start : Int) : Int :=
  let (hour, minute) := hourMinute (some time)
  let targetWeekday := normalizeMissionWeekday (some weekday)
  let candidate := setHours (setSeconds start) hour minute
  let dayDiff := (targetWeekday + 7 - getDay candidate) % 7
  let candidate := addDays candidate dayDiff
  if candidate ≤ start then addDays candidate 7 else candidate

/-- `nextEveryMinutesFrom`. -/
def nextEveryMinutesFrom (intervalMinutes : JsNumber) (start : Int) : Int :=
  let interval := normalizeMissionInterval (some intervalMinutes)
  let candidate := setSeconds start
  let minute := getMinutes candidate
  let remainder := minute % interval
  let addMinutes := if remainder = 0 then interval else interval - remainder
  let candidate := setMinutes candidate (minute + addMinutes)
  if candidate ≤ start then
    setMinutes candidate (getMinutes candidate + interval)
  else candidate

/-- `computeNextRunAt`. -/
def computeNextRunAt (schedule : MissionSchedule) (start : Int) : Int :=
  match schedule.kind with
  | .everyMinutes =>
      nextEveryMinutesFrom (schedule.intervalMinutes.getD (.ofNat 15)) start
  | .weekdays => nextWeekdaysFrom (schedule.time.getD defaultTime) start
  | .weekly =>
      nextWeeklyFrom (schedule.time.getD defaultTime)
        (schedule.weekday.getD (.ofNat 1)) start
  | .custom => nextEveryMinutesFrom (.ofNat 60) start
  | .daily => nextDailyFrom (schedule.time.getD defaultTime) start

/-! ## What a schedule says -/

/-- What a cron expression sees of an instant: the day 0 is the first of
1970. -/
def momentOf (t : Int) : Cron.Moment :=
  let date := ofDay (t / 86400000 + 719162)
  ⟨getMinutes t, getHours t, date.day, date.month, getDay t⟩

example : (⟨1970, 1, 1, by decide, by decide, by decide, by decide⟩ :
    Date).dayNumber = 719162 := by decide

/-- The instant is a minute that matches the expression. -/
def Satisfies (cron : String) (t : Int) : Prop :=
  t % 60000 = 0 ∧ ∃ e, Cron.parse cron.toList = some e ∧
    e.matchesMoment (momentOf t) = true

/-- The instant is at a time of the day. -/
def AtTime (hour minute : Nat) (t : Int) : Prop :=
  t % 86400000 = hour * 3600000 + minute * 60000

/-- The instants a schedule names by its fields, or, where it has none, by its
expression. An interval names the minutes it divides. -/
def MissionSchedule.Names (schedule : MissionSchedule) (t : Int) : Prop :=
  let (hour, minute) := hourMinute schedule.time
  match schedule.kind with
  | .everyMinutes =>
      t % 60000 = 0 ∧
        getMinutes t % normalizeMissionInterval schedule.intervalMinutes = 0
  | .daily => AtTime hour minute t
  | .weekdays => AtTime hour minute t ∧ 1 ≤ getDay t ∧ getDay t ≤ 5
  | .weekly =>
      AtTime hour minute t ∧ getDay t = normalizeMissionWeekday schedule.weekday
  | .custom => Satisfies schedule.cron t

/-- The next run is the next instant the schedule names; of an interval, runs
computed one from another are that interval apart; and the run satisfies the
expression. -/
def MissionSchedule.RunsAsNamed (schedule : MissionSchedule) : Prop :=
  ∀ start, let next := computeNextRunAt schedule
    (if schedule.kind = .everyMinutes then
      start < next start ∧ next (next start) = next start +
        normalizeMissionInterval schedule.intervalMinutes * 60000
    else IsLeast {t | start < t ∧ schedule.Names t} (next start)) ∧
      Satisfies schedule.cron (next start)

/-! ## Times of the day -/

/-- A time as it is written. -/
def timeText (hour minute : Nat) : List Char :=
  pad2 hour ++ ':' :: pad2 minute

theorem matchTime_timeText : ∀ hour : Fin 24, ∀ minute : Fin 60,
    matchTime (timeText hour minute) = some (pad2 hour, pad2 minute) ∧
      Cron.split ':' (timeText hour minute) = [pad2 hour, pad2 minute] ∧
      numberOf (pad2 hour) = hour ∧ numberOf (pad2 minute) = minute := by
  decide +kernel

theorem trimmed_timeText : ∀ hour : Fin 24, ∀ minute : Fin 60,
    trimmed (String.ofList (timeText hour minute)) = timeText hour minute := by
  intro hour minute
  rw [trimmed, String.toList_ofList]
  revert hour minute
  decide +kernel

theorem toNat_le_of_le {a b : Char} (h : a ≤ b) : a.toNat ≤ b.toNat :=
  UInt32.le_iff_toNat_le.mp h

theorem toNat_isDigit {c : Char} (h : c.isDigit = true) :
    48 ≤ c.toNat ∧ c.toNat ≤ 57 := by
  rw [Char.isDigit, Bool.and_eq_true, decide_eq_true_eq, decide_eq_true_eq] at h
  exact ⟨UInt32.le_iff_toNat_le.mp h.1, UInt32.le_iff_toNat_le.mp h.2⟩

theorem numberOf_pair (a b : Char) :
    numberOf [a, b] = 10 * (a.toNat - 48) + (b.toNat - 48) := by
  simp [numberOf, Nat.ofDigitChars]

theorem numberOf_minutes {a b : Char} (h : isMinutes a b = true) :
    numberOf [a, b] < 60 := by
  simp only [isMinutes, Bool.and_eq_true, decide_eq_true_eq] at h
  have ha : a.toNat ≤ 53 := toNat_le_of_le h.1.2
  have hb := toNat_isDigit h.2
  rw [numberOf_pair]
  omega

/-- The groups of a match are an hour and a minute. -/
theorem numberOf_matchTime {text hour minute : List Char}
    (h : matchTime text = some (hour, minute)) :
    numberOf hour < 24 ∧ numberOf minute < 60 := by
  unfold matchTime at h
  split at h
  next c a b =>
    split at h
    next hmatch =>
      rw [Bool.and_eq_true] at hmatch
      cases h
      have hc := toNat_isDigit hmatch.1
      refine ⟨?_, numberOf_minutes hmatch.2⟩
      have hone : numberOf [c] = c.toNat - 48 := by
        simp [numberOf, Nat.ofDigitChars]
      omega
    · cases h
  next g c a b =>
    split at h
    next hmatch =>
      rw [Bool.and_eq_true, Bool.or_eq_true] at hmatch
      cases h
      refine ⟨?_, numberOf_minutes hmatch.2⟩
      rw [numberOf_pair]
      rcases hmatch.1 with hlow | hhigh
      · simp only [Bool.and_eq_true, Bool.or_eq_true, beq_iff_eq] at hlow
        have hc := toNat_isDigit hlow.2
        rcases hlow.1 with rfl | rfl
        · have hzero : '0'.toNat = 48 := rfl
          omega
        · have hone : '1'.toNat = 49 := rfl
          omega
      · simp only [Bool.and_eq_true, beq_iff_eq, decide_eq_true_eq] at hhigh
        obtain ⟨⟨rfl, -⟩, hle⟩ := hhigh
        have hc : c.toNat ≤ 51 := toNat_le_of_le hle
        have htwo : '2'.toNat = 50 := rfl
        omega
    · cases h
  · cases h

/-- A normalised time is one of the day. -/
theorem normalizeMissionTime_eq (value : Option String) :
    ∃ hour : Fin 24, ∃ minute : Fin 60,
      normalizeMissionTime value = String.ofList (timeText hour minute) := by
  have hdefault : defaultTime = String.ofList (timeText 9 0) := by decide
  unfold normalizeMissionTime
  split
  · exact ⟨9, 0, hdefault⟩
  · split
    · exact ⟨9, 0, hdefault⟩
    next hmatch =>
      obtain ⟨hhour, hminute⟩ := numberOf_matchTime hmatch
      exact ⟨⟨_, hhour⟩, ⟨_, hminute⟩, rfl⟩

theorem normalizeMissionTime_timeText (hour : Fin 24) (minute : Fin 60) :
    normalizeMissionTime (some (String.ofList (timeText hour minute))) =
      String.ofList (timeText hour minute) := by
  obtain ⟨hmatch, -, hhour, hminute⟩ := matchTime_timeText hour minute
  rw [normalizeMissionTime]
  simp only [trimmed_timeText, hmatch, hhour, hminute]
  rfl

/-- **A time is normalised once**, and read back as it was. -/
theorem hourMinute_normalizeMissionTime (value : Option String) :
    hourMinute (some (normalizeMissionTime value)) = hourMinute value ∧
      (hourMinute value).1 < 24 ∧ (hourMinute value).2 < 60 := by
  obtain ⟨hour, minute, htime⟩ := normalizeMissionTime_eq value
  obtain ⟨-, hsplit, hhour, hminute⟩ := matchTime_timeText hour minute
  have hvalue : hourMinute value = (hour.val, minute.val) := by
    rw [hourMinute, htime, String.toList_ofList, hsplit]
    simp only [hhour, hminute]
  refine ⟨?_, ?_, ?_⟩
  · rw [hourMinute, htime, normalizeMissionTime_timeText, ← htime]
    rfl
  · rw [hvalue]
    exact hour.isLt
  · rw [hvalue]
    exact minute.isLt

/-! ## The next run at a time of the day -/

theorem getDay_addDays (t : Int) (days : Nat) :
    getDay (addDays t days) = (getDay t + days) % 7 := by
  unfold getDay addDays
  omega

theorem atTime_addDays {hour minute : Nat} {t : Int} (days : Nat)
    (h : AtTime hour minute t) : AtTime hour minute (addDays t days) := by
  unfold AtTime addDays at *
  omega

theorem getDay_lt (t : Int) : getDay t < 7 := by
  unfold getDay
  omega

/-- The instants at a time of the day, from one on. -/
theorem exists_addDays {hour minute : Nat} {s t : Int}
    (hs : AtTime hour minute s) (ht : AtTime hour minute t) (hle : s ≤ t) :
    ∃ days, t = addDays s days := by
  refine ⟨((t - s) / 86400000).toNat, ?_⟩
  unfold AtTime addDays at *
  omega

/-- The candidate of the day, before the instant is looked at. -/
theorem atTime_setHours {hour minute : Nat} (hhour : hour < 24)
    (hminute : minute < 60) (start : Int) :
    let candidate := setHours (setSeconds start) hour minute
    AtTime hour minute candidate ∧ candidate ≤ start + 86400000 ∧
      start < candidate + 86400000 := by
  simp only [setHours, setSeconds, AtTime]
  refine ⟨?_, ?_, ?_⟩ <;> omega

/-- **The next run at a time of the day.** -/
theorem nextDailyFrom_isLeast (time : Option String) (start : Int) :
    let (hour, minute) := hourMinute time
    IsLeast {t | start < t ∧ AtTime hour minute t}
      (nextDailyFrom (normalizeMissionTime time) start) := by
  obtain ⟨hread, hhour, hminute⟩ := hourMinute_normalizeMissionTime time
  obtain ⟨hour, minute, htime⟩ :
      ∃ hour minute, hourMinute time = (hour, minute) := ⟨_, _, rfl⟩
  rw [htime] at hread hhour hminute ⊢
  obtain ⟨hat, hearly, hlate⟩ := atTime_setHours hhour hminute start
  simp only [nextDailyFrom, hread]
  generalize setHours (setSeconds start) hour minute = candidate at *
  refine ⟨⟨?_, ?_⟩, fun t ht => ?_⟩
  · split
    · simp only [addDays]
      omega
    · omega
  · split
    · exact atTime_addDays 1 hat
    · exact hat
  · obtain ⟨hstart, hattime⟩ := ht
    simp only [AtTime] at hat hattime
    split
    · simp only [addDays]
      omega
    · omega

/-- What the loop over the weekend comes to. -/
theorem skipWeekend_eq (candidate : Int) :
    skipWeekend candidate = addDays candidate (weekendLeft candidate) := by
  induction candidate using skipWeekend.induct with
  | case1 candidate hweekend ih =>
      have hnext := getDay_addDays candidate 1
      have hleft : weekendLeft candidate =
          weekendLeft (addDays candidate 1) + 1 := by
        unfold weekendLeft
        rw [hnext]
        rcases hweekend with h | h <;> rw [h] <;> rfl
      rw [skipWeekend, if_pos hweekend, ih, hleft]
      simp only [addDays]
      omega
  | case2 candidate hweekday =>
      rw [not_or] at hweekday
      rw [skipWeekend, if_neg (not_or.mpr hweekday), weekendLeft,
        if_neg hweekday.2, if_neg hweekday.1]
      simp [addDays]

/-- **The next run at a time of a weekday.** -/
theorem nextWeekdaysFrom_isLeast (time : Option String) (start : Int) :
    let (hour, minute) := hourMinute time
    IsLeast {t | start < t ∧ AtTime hour minute t ∧ 1 ≤ getDay t ∧
        getDay t ≤ 5}
      (nextWeekdaysFrom (normalizeMissionTime time) start) := by
  have hdaily := nextDailyFrom_isLeast time start
  obtain ⟨hour, minute, htime⟩ :
      ∃ hour minute, hourMinute time = (hour, minute) := ⟨_, _, rfl⟩
  rw [htime] at hdaily ⊢
  obtain ⟨⟨hafter, hat⟩, hleast⟩ := hdaily
  rw [nextWeekdaysFrom, skipWeekend_eq]
  generalize nextDailyFrom (normalizeMissionTime time) start = first at *
  have hday := getDay_lt first
  have hskip := getDay_addDays first (weekendLeft first)
  have hleft : weekendLeft first = if getDay first = 6 then 2
      else if getDay first = 0 then 1 else 0 := rfl
  refine ⟨⟨?_, atTime_addDays _ hat, ?_⟩, fun t ht => ?_⟩
  · simp only [addDays]
    omega
  · rw [hskip, hleft]
    split
    · omega
    · split <;> omega
  · obtain ⟨hstart, hattime, hfrom, hto⟩ := ht
    obtain ⟨days, rfl⟩ :=
      exists_addDays hat hattime (hleast ⟨hstart, hattime⟩)
    rw [getDay_addDays] at hfrom hto
    have hdays : weekendLeft first ≤ days := by
      rw [hleft]
      split
      · omega
      · split <;> omega
    simp only [addDays]
    omega

theorem normalizeMissionWeekday_le (weekday : Option JsNumber) :
    normalizeMissionWeekday weekday ≤ 6 := by
  unfold normalizeMissionWeekday
  split
  · split
    · omega
    · decide
  · decide

/-- A normalised weekday is normalised to itself. -/
theorem normalizeMissionWeekday_ofNat {n : Nat} (h : n ≤ 6) :
    normalizeMissionWeekday (some (.ofNat n)) = n := by
  have hnum : (n : Rat).num = n := Rat.num_natCast n
  have hden : (n : Rat).den = 1 := Rat.den_natCast n
  simp only [JsNumber.ofNat, normalizeMissionWeekday, hnum, hden]
  rw [if_pos ⟨trivial, by omega, by omega⟩]
  omega

/-- **The next run at a time of one day of the week.** -/
theorem nextWeeklyFrom_isLeast (time : Option String)
    (weekday : Option JsNumber) (start : Int) :
    let (hour, minute) := hourMinute time
    IsLeast {t | start < t ∧ AtTime hour minute t ∧
        getDay t = normalizeMissionWeekday weekday}
      (nextWeeklyFrom (normalizeMissionTime time)
        (.ofNat (normalizeMissionWeekday weekday)) start) := by
  obtain ⟨hread, hhour, hminute⟩ := hourMinute_normalizeMissionTime time
  obtain ⟨hour, minute, htime⟩ :
      ∃ hour minute, hourMinute time = (hour, minute) := ⟨_, _, rfl⟩
  rw [htime] at hread hhour hminute ⊢
  have hle := normalizeMissionWeekday_le weekday
  obtain ⟨hat, hearly, hlate⟩ := atTime_setHours hhour hminute start
  simp only [nextWeeklyFrom, hread, normalizeMissionWeekday_ofNat hle]
  generalize normalizeMissionWeekday weekday = target at *
  generalize setHours (setSeconds start) hour minute = candidate at *
  have hday := getDay_lt candidate
  have hcandidate := getDay_addDays candidate
    ((target + 7 - getDay candidate) % 7)
  generalize hdiff : (target + 7 - getDay candidate) % 7 = diff at *
  have hweek := getDay_addDays (addDays candidate diff) 7
  have hat' := atTime_addDays diff hat
  refine ⟨⟨?_, ?_, ?_⟩, fun t ht => ?_⟩
  · split
    · simp only [addDays]
      omega
    · omega
  · split
    · exact atTime_addDays 7 hat'
    · exact hat'
  · split
    · omega
    · omega
  · obtain ⟨hstart, hattime, hon⟩ := ht
    have hcases : ∃ days, t = addDays candidate days ∧ start < t := by
      refine ⟨((t - candidate) / 86400000).toNat, ?_, hstart⟩
      simp only [AtTime, addDays] at *
      omega
    obtain ⟨days, rfl, -⟩ := hcases
    rw [getDay_addDays] at hon
    by_cases hpast : addDays candidate diff ≤ start
    · rw [if_pos hpast]
      simp only [addDays] at *
      omega
    · rw [if_neg hpast]
      simp only [addDays] at *
      omega

/-! ## The next run of an interval -/

theorem normalizeMissionInterval_bounds (interval : Option JsNumber) :
    1 ≤ normalizeMissionInterval interval ∧
      normalizeMissionInterval interval ≤ 1440 := by
  unfold normalizeMissionInterval
  split
  · simp only
    split
    · decide
    · omega
  · decide

/-- A normalised interval is normalised to itself. -/
theorem normalizeMissionInterval_ofNat {n : Nat} (h : 1 ≤ n ∧ n ≤ 1440) :
    normalizeMissionInterval (some (.ofNat n)) = n := by
  have hnum : (n : Rat).num = n := Rat.num_natCast n
  have hden : (n : Rat).den = 1 := Rat.den_natCast n
  have htrunc : (n : Int).tdiv (1 : Nat) = n := Int.tdiv_one n
  simp only [JsNumber.ofNat, normalizeMissionInterval, hnum, hden, htrunc]
  rw [if_neg (by omega)]
  omega

/-- The next run of an interval is in the minute the interval ends in, as it is
counted from the last hour. -/
theorem nextEveryMinutesFrom_eq {n : Nat} (h : 1 ≤ n ∧ n ≤ 1440)
    (start : Int) :
    nextEveryMinutesFrom (.ofNat n) start =
      (start / 60000 + (n - getMinutes start % n : Nat)) * 60000 := by
  have hsame : getMinutes (setSeconds start) = getMinutes start := by
    unfold getMinutes setSeconds
    omega
  have hadd : (if getMinutes start % n = 0 then n
      else n - getMinutes start % n) = n - getMinutes start % n := by
    split <;> omega
  have hless : getMinutes start % n < n := Nat.mod_lt _ h.1
  simp only [nextEveryMinutesFrom, normalizeMissionInterval_ofNat h, hsame,
    hadd]
  have hpos : 1 ≤ n - getMinutes start % n := by omega
  generalize n - getMinutes start % n = add at *
  have hset : setMinutes (setSeconds start) (getMinutes start + add) =
      (start / 60000 + add) * 60000 := by
    rw [setMinutes, hsame, setSeconds]
    omega
  rw [hset, if_neg (by omega)]

/-- The interval divides an hour, or hours make up the interval. -/
def Aligned (n : Nat) : Prop := n ∣ 60 ∨ 60 ∣ n

instance (n : Nat) : Decidable (Aligned n) :=
  inferInstanceAs (Decidable (_ ∨ _))

theorem Aligned.mod_eq_zero {n x : Nat} (h : Aligned n) (hx : n ∣ x) :
    x % 60 % n = 0 := by
  rcases h with h | h
  · rw [Nat.mod_mod_of_dvd x h]
    exact Nat.mod_eq_zero_of_dvd hx
  · rw [Nat.mod_eq_zero_of_dvd (h.trans hx), Nat.zero_mod]

/-- An interval before a minute it divides is one more. -/
theorem Aligned.sub_mod_eq_zero {n m : Nat} (h : Aligned n)
    (hn : 1 ≤ n ∧ n ≤ 1440) (hm : m < 60) (hzero : m % n = 0) :
    (m + (1440 - n)) % 60 % n = 0 := by
  rcases h with h | h
  · refine Aligned.mod_eq_zero (Or.inl h) ?_
    have hday : n ∣ 1440 := h.trans (by decide)
    exact Nat.dvd_add (Nat.dvd_of_mod_eq_zero hzero)
      (Nat.dvd_sub hday (dvd_refl n))
  · have hle : 60 ≤ n := Nat.le_of_dvd hn.1 h
    rw [Nat.mod_eq_of_lt (hm.trans_le hle)] at hzero
    have hday : 60 ∣ 1440 - n := Nat.dvd_sub (by decide) h
    rw [hzero, Nat.zero_add, Nat.mod_eq_zero_of_dvd hday, Nat.zero_mod]

/-- The run after the next one. -/
theorem nextEveryMinutesFrom_minute {n : Nat} (h : 1 ≤ n ∧ n ≤ 1440)
    (start : Int) :
    getMinutes (nextEveryMinutesFrom (.ofNat n) start) =
      (getMinutes start + (n - getMinutes start % n)) % 60 := by
  rw [nextEveryMinutesFrom_eq h]
  generalize n - getMinutes start % n = add
  unfold getMinutes
  omega

theorem getMinutes_lt (t : Int) : getMinutes t < 60 := by
  unfold getMinutes
  omega

/-- The minutes an interval divides come back after it, where it is
aligned. -/
theorem Aligned.minute_mod {n : Nat} (ha : Aligned n) (h : 1 ≤ n ∧ n ≤ 1440)
    (start : Int) :
    getMinutes (nextEveryMinutesFrom (.ofNat n) start) % n = 0 := by
  rw [nextEveryMinutesFrom_minute h]
  refine ha.mod_eq_zero ?_
  have hdiv := Nat.div_add_mod (getMinutes start) n
  have hless : getMinutes start % n < n := Nat.mod_lt _ h.1
  refine ⟨getMinutes start / n + 1, ?_⟩
  rw [Nat.mul_add]
  omega

/-- Any other interval ends in a minute that it does not divide. -/
theorem not_aligned_minute : ∀ n : Fin 1441, 1 ≤ n.val → ¬ Aligned n →
    (59 + (n.val - 59 % n.val)) % 60 % n.val ≠ 0 := by
  decide +kernel

/-- **Which intervals are kept**: those that divide an hour and whole hours. -/
theorem nextEveryMinutesFrom_twice {n : Nat} (h : 1 ≤ n ∧ n ≤ 1440) :
    (∀ start, let next := nextEveryMinutesFrom (.ofNat n)
      next (next start) = next start + n * 60000) ↔ Aligned n := by
  have hnext : ∀ start,
      nextEveryMinutesFrom (.ofNat n) (nextEveryMinutesFrom (.ofNat n) start) =
        nextEveryMinutesFrom (.ofNat n) start +
          (n - getMinutes (nextEveryMinutesFrom (.ofNat n) start) % n : Nat) *
            60000 := by
    intro start
    have heq := nextEveryMinutesFrom_eq h
      (nextEveryMinutesFrom (.ofNat n) start)
    have hwhole : nextEveryMinutesFrom (.ofNat n) start % 60000 = 0 := by
      rw [nextEveryMinutesFrom_eq h]
      exact Int.mul_emod_left _ _
    rw [heq]
    omega
  constructor
  · intro hall
    by_contra hnot
    have hlast := hall (59 * 60000)
    have hminute := nextEveryMinutesFrom_minute h (59 * 60000)
    have hbound := not_aligned_minute ⟨n, by omega⟩ h.1 hnot
    have hless := Nat.mod_lt
      (getMinutes (nextEveryMinutesFrom (.ofNat n) (59 * 60000))) h.1
    have hstart : getMinutes (59 * 60000) = 59 := rfl
    rw [hstart] at hminute
    simp only [hnext, hminute] at hlast hless
    simp only at hbound
    omega
  · intro ha start
    simp only [hnext, ha.minute_mod h, Nat.sub_zero]

/-! ## The expressions -/

/-- The expression of an interval. -/
theorem satisfies_interval (n : Nat) (t : Int) :
    Satisfies s!"*/{n} * * * *" t ↔
      t % 60000 = 0 ∧ getMinutes t % n = 0 := by
  have htext : s!"*/{n} * * * *".toList =
      ('*' :: '/' :: (toString n).toList) ++ ' ' :: (['*'] ++ ' ' ::
        (['*'] ++ ' ' :: (['*'] ++ ' ' :: ['*']))) := by
    show ("*/" ++ toString n ++ " * * * *").toList = _
    rw [String.toList_append, String.toList_append, List.append_assoc]
    rfl
  have hparse := Cron.parse_words ⟨Cron.isWord_steps n, Cron.field_steps n⟩
    Cron.star Cron.star Cron.star Cron.star
  rw [Satisfies, htext, hparse]
  refine and_congr_right fun _ => ?_
  simp [Cron.Expr.matchesMoment, Cron.Expr.matchesDay,
    Cron.Expr.matchesWeekday, Cron.Parts.isStar, momentOf]

/-- The expression of a time of the day, on some days of the week. -/
theorem satisfies_time {hour minute : Nat} (hhour : hour < 24)
    (hminute : minute < 60) {days : String} {parts : Cron.Parts}
    (hdays : Cron.IsWord days.toList ∧ Cron.field days.toList = some parts)
    (t : Int) :
    Satisfies (toString minute ++ " " ++ toString hour ++ " * * " ++ days) t ↔
      AtTime hour minute t ∧
      (parts.matchesValue 0 (getDay t) = true ∨
        getDay t = 0 ∧ parts.matchesValue 0 7 = true) := by
  have hparse := Cron.parse_words
    ⟨Cron.isWord_toString minute, Cron.field_toString minute⟩
    ⟨Cron.isWord_toString hour, Cron.field_toString hour⟩
    Cron.star Cron.star hdays
  have htime : AtTime hour minute t ↔
      t % 60000 = 0 ∧ getMinutes t = minute ∧ getHours t = hour := by
    unfold AtTime getMinutes getHours
    omega
  have htext : (toString minute ++ " " ++ toString hour ++ " * * " ++
      days).toList = (toString minute).toList ++ ' ' ::
        ((toString hour).toList ++ ' ' :: (['*'] ++ ' ' ::
          (['*'] ++ ' ' :: days.toList))) := by
    simp only [String.toList_append, List.append_assoc]
    rfl
  rw [Satisfies, htext, hparse, htime]
  simp [Cron.Expr.matchesMoment, Cron.Expr.matchesDay,
    Cron.Expr.matchesWeekday, Cron.Parts.isStar, momentOf, and_assoc]

theorem toCronExpression_explicit {schedule : ScheduleInput} {cron : String}
    (h : explicitCron schedule.cron = some cron) :
    toCronExpression schedule = cron := by
  rw [toCronExpression, h]

/-- **The expression that is made of the fields matches what they name.** -/
theorem satisfies_of_names {input : ScheduleInput}
    (hnone : explicitCron input.cron = none) (hkind : input.kind ≠ .custom)
    {t : Int} (h : (buildMissionSchedule input).Names t) :
    Satisfies (buildMissionSchedule input).cron t := by
  obtain ⟨hread, hhour, hminute⟩ := hourMinute_normalizeMissionTime input.time
  obtain ⟨hour, minute, htime⟩ :
      ∃ hour minute, hourMinute input.time = (hour, minute) := ⟨_, _, rfl⟩
  rw [htime] at hread hhour hminute
  cases hk : input.kind with
  | custom => exact absurd hk hkind
  | everyMinutes =>
      simp only [buildMissionSchedule, hk, MissionSchedule.Names,
        toCronExpression, hnone] at h ⊢
      exact (satisfies_interval _ t).mpr h
  | daily =>
      simp only [buildMissionSchedule, hk, MissionSchedule.Names, hread,
        toCronExpression, hnone] at h ⊢
      have hdays : Cron.IsWord "*".toList ∧
          Cron.field "*".toList = some [⟨none, 1⟩] := Cron.star
      have hstar := (satisfies_time hhour hminute hdays t).mpr
        ⟨h, Or.inl (by simp)⟩
      have htail : " * * " ++ "*" = " * * *" := by decide
      rwa [String.append_assoc, htail] at hstar
  | weekdays =>
      simp only [buildMissionSchedule, hk, MissionSchedule.Names, hread,
        toCronExpression, hnone] at h ⊢
      have hdays : Cron.IsWord "1-5".toList ∧
          Cron.field "1-5".toList = some [⟨some (1, 5), 1⟩] := by
        decide +kernel
      have hweek := (satisfies_time hhour hminute hdays t).mpr
        ⟨h.1, Or.inl (by simpa using h.2)⟩
      have htail : " * * " ++ "1-5" = " * * 1-5" := by decide
      rwa [String.append_assoc, htail] at hweek
  | weekly =>
      simp only [buildMissionSchedule, hk, MissionSchedule.Names, hread,
        toCronExpression, hnone] at h ⊢
      exact (satisfies_time hhour hminute ⟨Cron.isWord_toString _,
        Cron.field_toString _⟩ t).mpr ⟨h.1, Or.inl (by simpa using h.2)⟩

/-! ## Which schedules run as they say -/

/-- Every named instant is the next one after some instant. -/
theorem forall_next_iff {names holds : Int → Prop} {next : Int → Int}
    (hnext : ∀ start, IsLeast {t | start < t ∧ names t} (next start)) :
    (∀ start, holds (next start)) ↔ ∀ t, names t → holds t := by
  constructor
  · intro hall t ht
    obtain ⟨⟨hafter, -⟩, hleast⟩ := hnext (t - 1)
    have hle := hleast ⟨by omega, ht⟩
    have heq : next (t - 1) = t := by omega
    exact heq ▸ hall (t - 1)
  · exact fun hall start => hall _ (hnext start).1.2

/-- The runs of an aligned interval are the minutes it divides. -/
theorem Aligned.forall_next_iff {n : Nat} (ha : Aligned n)
    (h : 1 ≤ n ∧ n ≤ 1440) {holds : Int → Prop} :
    (∀ start, holds (nextEveryMinutesFrom (.ofNat n) start)) ↔
      ∀ t, t % 60000 = 0 ∧ getMinutes t % n = 0 → holds t := by
  constructor
  · rintro hall t ⟨hwhole, hminute⟩
    have hbefore : getMinutes (t - n * 60000) =
        (getMinutes t + (1440 - n)) % 60 := by
      unfold getMinutes
      omega
    have hzero := ha.sub_mod_eq_zero h (getMinutes_lt t) hminute
    have hnext := nextEveryMinutesFrom_eq h (t - n * 60000)
    rw [hbefore, hzero] at hnext
    have heq : nextEveryMinutesFrom (.ofNat n) (t - n * 60000) = t := by
      rw [hnext]
      omega
    exact heq ▸ hall _
  · refine fun hall start => hall _ ⟨?_, ha.minute_mod h start⟩
    rw [nextEveryMinutesFrom_eq h]
    exact Int.mul_emod_left _ _

theorem lt_nextEveryMinutesFrom {n : Nat} (h : 1 ≤ n ∧ n ≤ 1440)
    (start : Int) : start < nextEveryMinutesFrom (.ofNat n) start := by
  have hless : getMinutes start % n < n := Nat.mod_lt _ h.1
  rw [nextEveryMinutesFrom_eq h]
  omega

/-- The next run of a custom schedule is the next full hour. -/
theorem nextHour_isLeast (start : Int) :
    IsLeast {t | start < t ∧ t % 3600000 = 0}
      (nextEveryMinutesFrom (.ofNat 60) start) := by
  have hlt := getMinutes_lt start
  have hminute : (getMinutes start : Int) = start / 60000 % 60 := by
    unfold getMinutes
    omega
  rw [nextEveryMinutesFrom_eq ⟨by decide, by decide⟩, Nat.mod_eq_of_lt hlt]
  refine ⟨⟨by omega, by omega⟩, fun t ht => ?_⟩
  obtain ⟨hafter, hfull⟩ := ht
  omega

/-- When a schedule that is built of an input runs as it says: an interval is
aligned; an expression that was given matches what the fields name; and that of
a custom schedule matches the full hours. -/
def Sound (input : ScheduleInput) : Prop :=
  let schedule := buildMissionSchedule input
  match input.kind with
  | .custom => ∀ t, Satisfies schedule.cron t ↔ t % 3600000 = 0
  | .everyMinutes => Aligned (normalizeMissionInterval input.intervalMinutes) ∧
      ∀ cron, explicitCron input.cron = some cron →
        ∀ t, schedule.Names t → Satisfies cron t
  | _ => ∀ cron, explicitCron input.cron = some cron →
      ∀ t, schedule.Names t → Satisfies cron t

theorem cron_buildMissionSchedule {input : ScheduleInput} {cron : String}
    (h : explicitCron input.cron = some cron) :
    (buildMissionSchedule input).cron = cron := by
  unfold buildMissionSchedule
  split <;> exact toCronExpression_explicit h

/-- The expression matches what the fields name iff one that was given
does. -/
theorem satisfies_cron_iff {input : ScheduleInput}
    (hkind : input.kind ≠ .custom) :
    (∀ t, (buildMissionSchedule input).Names t →
        Satisfies (buildMissionSchedule input).cron t) ↔
      ∀ cron, explicitCron input.cron = some cron →
        ∀ t, (buildMissionSchedule input).Names t → Satisfies cron t := by
  constructor
  · intro hall cron hcron t ht
    rw [← cron_buildMissionSchedule hcron]
    exact hall t ht
  · intro hall t ht
    cases hcron : explicitCron input.cron with
    | none => exact satisfies_of_names hcron hkind ht
    | some cron =>
        rw [cron_buildMissionSchedule hcron]
        exact hall cron hcron t ht

/-- At a time of the day the schedule names the next run. -/
theorem computeNextRunAt_isLeast {input : ScheduleInput}
    (hkind : input.kind ≠ .custom) (hinterval : input.kind ≠ .everyMinutes)
    (start : Int) :
    IsLeast {t | start < t ∧ (buildMissionSchedule input).Names t}
      (computeNextRunAt (buildMissionSchedule input) start) := by
  obtain ⟨hread, -, -⟩ := hourMinute_normalizeMissionTime input.time
  cases hk : input.kind with
  | custom => exact absurd hk hkind
  | everyMinutes => exact absurd hk hinterval
  | daily =>
      simp only [buildMissionSchedule, hk, MissionSchedule.Names, hread,
        computeNextRunAt, Option.getD_some]
      exact nextDailyFrom_isLeast input.time start
  | weekdays =>
      simp only [buildMissionSchedule, hk, MissionSchedule.Names, hread,
        computeNextRunAt, Option.getD_some]
      exact nextWeekdaysFrom_isLeast input.time start
  | weekly =>
      have hle := normalizeMissionWeekday_le input.weekday
      simp only [buildMissionSchedule, hk, MissionSchedule.Names, hread,
        computeNextRunAt, Option.getD_some, normalizeMissionWeekday_ofNat hle]
      exact nextWeeklyFrom_isLeast input.time input.weekday start

theorem kind_buildMissionSchedule (input : ScheduleInput) :
    (buildMissionSchedule input).kind = input.kind := by
  unfold buildMissionSchedule
  split <;> exact Eq.symm ‹_›

/-- A custom schedule runs on the hour. -/
theorem runsAsNamed_custom {input : ScheduleInput} (hk : input.kind = .custom) :
    (buildMissionSchedule input).RunsAsNamed ↔ Sound input := by
  have hnext : ∀ start, computeNextRunAt (buildMissionSchedule input) start =
      nextEveryMinutesFrom (.ofNat 60) start := by
    intro start
    simp only [buildMissionSchedule, hk, computeNextRunAt]
  have hnames : ∀ t, (buildMissionSchedule input).Names t ↔
      Satisfies (buildMissionSchedule input).cron t := by
    intro t
    simp only [buildMissionSchedule, hk, MissionSchedule.Names]
  have hkind := kind_buildMissionSchedule input
  have hnot : input.kind ≠ .everyMinutes := by
    rw [hk]
    decide
  have hsound : Sound input ↔ ∀ t,
      Satisfies (buildMissionSchedule input).cron t ↔ t % 3600000 = 0 := by
    simp only [Sound, hk]
  rw [hsound]
  simp only [MissionSchedule.RunsAsNamed, hkind, if_neg hnot, hnext, hnames]
  constructor
  · intro hall t
    obtain ⟨⟨hafter, hfull⟩, hleast⟩ := nextHour_isLeast (t - 1)
    obtain ⟨⟨⟨-, hcron⟩, hleast'⟩, -⟩ := hall (t - 1)
    constructor
    · intro ht
      have hle := hleast' ⟨by omega, ht⟩
      have heq : nextEveryMinutesFrom (.ofNat 60) (t - 1) = t := by omega
      exact heq ▸ hfull
    · intro ht
      have hle := hleast ⟨by omega, ht⟩
      have heq : nextEveryMinutesFrom (.ofNat 60) (t - 1) = t := by omega
      exact heq ▸ hcron
  · intro hall start
    have hhour := nextHour_isLeast start
    simp only [hall]
    exact ⟨hhour, hhour.1.2⟩

/-- An interval runs as it says iff it is aligned. -/
theorem runsAsNamed_everyMinutes {input : ScheduleInput}
    (hk : input.kind = .everyMinutes) :
    (buildMissionSchedule input).RunsAsNamed ↔ Sound input := by
  have hbounds := normalizeMissionInterval_bounds input.intervalMinutes
  have hsame := normalizeMissionInterval_ofNat hbounds
  have hkind := kind_buildMissionSchedule input
  have hnext : ∀ start, computeNextRunAt (buildMissionSchedule input) start =
      nextEveryMinutesFrom
        (.ofNat (normalizeMissionInterval input.intervalMinutes)) start := by
    intro start
    simp only [buildMissionSchedule, hk, computeNextRunAt, Option.getD_some]
  have hinterval : normalizeMissionInterval
      (buildMissionSchedule input).intervalMinutes =
        normalizeMissionInterval input.intervalMinutes := by
    simp only [buildMissionSchedule, hk, hsame]
  have hnames : ∀ t, (buildMissionSchedule input).Names t ↔ t % 60000 = 0 ∧
      getMinutes t % normalizeMissionInterval input.intervalMinutes = 0 := by
    intro t
    simp only [buildMissionSchedule, hk, MissionSchedule.Names, hsame]
  have hsound : Sound input ↔
      Aligned (normalizeMissionInterval input.intervalMinutes) ∧
        ∀ t, (buildMissionSchedule input).Names t →
          Satisfies (buildMissionSchedule input).cron t := by
    have hnot : input.kind ≠ .custom := by
      rw [hk]
      decide
    rw [satisfies_cron_iff hnot]
    simp only [Sound, hk]
  rw [hsound]
  simp only [MissionSchedule.RunsAsNamed, hkind, hk, if_pos, hnext, hinterval,
    hnames]
  generalize normalizeMissionInterval input.intervalMinutes = n at *
  constructor
  · intro hall
    have ha : Aligned n := (nextEveryMinutesFrom_twice hbounds).mp
      fun start => (hall start).1.2
    exact ⟨ha, (ha.forall_next_iff hbounds).mp fun start => (hall start).2⟩
  · rintro ⟨ha, hcron⟩ start
    exact ⟨⟨lt_nextEveryMinutesFrom hbounds start,
      (nextEveryMinutesFrom_twice hbounds).mpr ha start⟩,
      (ha.forall_next_iff hbounds).mpr hcron start⟩

end AirNote.Missions
