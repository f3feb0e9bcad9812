import InfixCalculator.Text.Numeral
import InfixCalculator.Yaml.Fault

/-!
# Dates and times

A time is written as year, month and day, perhaps with hour, minute and second, a fraction of a
second and a time zone. `Time.parts?` tells the parts of a text of that form, `Time.ofParts` the time
they denote, if it is one of the calendar that reaches from the year 1 to the year 9999.
-/

namespace InfixCalculator.Yaml

/-- A day of the calendar. -/
structure Date where
  year : Nat
  month : Nat
  day : Nat
  deriving DecidableEq, Repr

/-- A time of a day. -/
structure Clock where
  hour : Nat
  minute : Nat
  second : Nat
  /-- Millionths of a second. -/
  micro : Nat
  deriving DecidableEq, Repr

/-- A day, or a moment of one; the zone is given by the minutes that it is ahead. -/
inductive Time where
  | ofDay (date : Date)
  | ofMoment (date : Date) (clock : Clock) (zone : Option Int)
  deriving DecidableEq, Repr

/-! ## The calendar -/

namespace Date

/-- Whether a year has a leap day. -/
def isLeap (year : Nat) : Bool :=
  year % 4 == 0 && (year % 100 != 0 || year % 400 == 0)

/-- The number of days of a month. -/
def daysInMonth (year month : Nat) : Nat :=
  if month == 2 then if isLeap year then 29 else 28
  else if [4, 6, 9, 11].contains month then 30 else 31

/-- Whether a day exists. -/
def isValid (d : Date) : Bool :=
  1 ≤ d.year && 1 ≤ d.month && d.month ≤ 12 && 1 ≤ d.day && d.day ≤ daysInMonth d.year d.month

/-- The number of days from the beginning of the calendar. -/
def ordinal (d : Date) : Nat :=
  let past := d.year - 1
  let before := (List.range (d.month - 1)).foldl
    (fun days month => days + daysInMonth d.year (month + 1)) 0
  365 * past + past / 4 - past / 100 + past / 400 + before + d.day

end Date

/-- Whether a time of a day exists. -/
def Clock.isValid (c : Clock) : Bool :=
  c.hour < 24 && c.minute < 60 && c.second < 60

namespace Time

/-- The millionths of a second from the beginning of the calendar, as the clock shows it. -/
def shown (date : Date) (clock : Clock) : Int :=
  ((date.ordinal * 24 + clock.hour) * 60 + clock.minute) * 60000000 + clock.second * 1000000 +
    clock.micro

/-- Whether two times are equal. Moments with a zone are the same if they coincide; a moment without
zone is not the same as one with a zone. -/
def same : Time → Time → Bool
  | ofDay a, ofDay b => a == b
  | ofMoment a s none, ofMoment b t none => shown a s == shown b t
  | ofMoment a s (some y), ofMoment b t (some z) =>
    shown a s - y * 60000000 == shown b t - z * 60000000
  | _, _ => false

/-! ## Reading -/

/-- The parts of a time as they are written. -/
structure Parts where
  year : List Char
  month : List Char
  day : List Char
  /-- Hour, minute and second, the fraction of a second and the zone. -/
  clock : Option (List Char × List Char × List Char × List Char × Option Int)

/-- One or two digits at the beginning of a text. -/
def takeTwo (s : List Char) : List Char × List Char :=
  let digits := (s.take 2).takeWhile Char.isDigit
  (digits, s.drop digits.length)

/-- A time zone, which must be the whole text: `Z`, or hours with a sign and perhaps minutes. No text
is no zone. -/
def zone? (s : List Char) : Option (Option Int) :=
  match s.dropWhile fun c => c == ' ' || c == '\t' with
  | [] => if s.isEmpty then some none else none
  | ['Z'] => some (some 0)
  | sign :: rest =>
    let (hours, rest) := takeTwo rest
    let signed (minutes : Nat) : Option (Option Int) :=
      let ahead : Int := 60 * Numeral.ofDigits hours + minutes
      some (some (if sign == '-' then -ahead else ahead))
    if !(sign == '+' || sign == '-') || hours.isEmpty then none
    else
      match rest with
      | [] => signed 0
      | [':', m, n] => if m.isDigit && n.isDigit then signed (Numeral.ofDigits [m, n]) else none
      | _ => none

/-- The time of a day with its zone, which must be the whole text. -/
def clock? (s : List Char) :
    Option (List Char × List Char × List Char × List Char × Option Int) :=
  let (hour, rest) := takeTwo s
  match rest with
  | ':' :: m :: n :: ':' :: o :: p :: rest =>
    let (fraction, rest) := match rest with
      | '.' :: rest => (rest.takeWhile Char.isDigit, rest.dropWhile Char.isDigit)
      | rest => ([], rest)
    if hour.isEmpty || !(List.all [m, n, o, p] Char.isDigit) then none
    else (zone? rest).map fun zone => (hour, [m, n], [o, p], fraction, zone)
  | _ => none

/-- The parts of a time, which must be the whole text. -/
def parts? (s : List Char) : Option Parts :=
  let year := s.take 4
  match s.drop 4 with
  | '-' :: rest =>
    let (month, rest) := takeTwo rest
    match rest with
    | '-' :: rest =>
      let (day, rest) := takeTwo rest
      if year.length != 4 || !year.all Char.isDigit || month.isEmpty || day.isEmpty then none
      else
        match rest with
        | [] => some ⟨year, month, day, none⟩
        | mark :: more =>
          let clock :=
            if mark == 'T' || mark == 't' then clock? more
            else if mark == ' ' || mark == '\t' then
              clock? (more.dropWhile fun c => c == ' ' || c == '\t')
            else none
          clock.map fun clock => ⟨year, month, day, some clock⟩
    | _ => none
  | _ => none

/-- Whether the month and the day of a date have two digits each. -/
def Parts.isFull (p : Parts) : Bool :=
  p.month.length == 2 && p.day.length == 2

/-- Six digits of a fraction. -/
def microOf (fraction : List Char) : Nat :=
  Numeral.ofDigits ((fraction ++ List.replicate 6 '0').take 6)

/-- The time with the given parts. A zone is less than a day ahead or behind. -/
def ofParts (p : Parts) : Except Fault Time :=
  let date : Date := ⟨Numeral.ofDigits p.year, Numeral.ofDigits p.month, Numeral.ofDigits p.day⟩
  match p.clock with
  | none => if date.isValid then .ok (.ofDay date) else .error .noSuchValue
  | some (hour, minute, second, fraction, zone) =>
    let clock : Clock :=
      ⟨Numeral.ofDigits hour, Numeral.ofDigits minute, Numeral.ofDigits second, microOf fraction⟩
    let zoneExists := zone.all fun ahead => ahead.natAbs < 24 * 60
    if zoneExists && date.isValid && clock.isValid then .ok (.ofMoment date clock zone)
    else .error .noSuchValue

/-! ## Writing -/

/-- Numbers with commas between them. -/
def listed (numbers : List Nat) : String :=
  String.intercalate ", " (numbers.map fun (n : Nat) => Numeral.text n)

/-- The text of a time zone. A zone that is behind is counted from the day before. -/
def zoneText (ahead : Int) : String :=
  if ahead = 0 then "datetime.timezone.utc"
  else
    let seconds := Numeral.text (60 * (ahead % (24 * 60)))
    let days := if ahead < 0 then "days=-1, " else ""
    "datetime.timezone(datetime.timedelta(" ++ days ++ "seconds=" ++ seconds ++ "))"

/-- The text of a time by which it is reported. Seconds are left out if there are none. -/
def text : Time → String
  | ofDay d => "datetime.date(" ++ listed [d.year, d.month, d.day] ++ ")"
  | ofMoment d c zone =>
    let small :=
      if c.micro != 0 then [c.second, c.micro] else if c.second != 0 then [c.second] else []
    let zone := match zone with
      | some ahead => ", tzinfo=" ++ zoneText ahead
      | none => ""
    "datetime.datetime(" ++ listed ([d.year, d.month, d.day, c.hour, c.minute] ++ small) ++ zone ++
      ")"

end Time

end InfixCalculator.Yaml
