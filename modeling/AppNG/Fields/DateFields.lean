import AppNG.Fields.Messages
import AppNG.Lib.Calendar
import AppNG.Lib.JavaString

/-!
# Fields.DateFields

`DateFieldConverter`: values of a date type are written as text and read back, each type with its own two branches.

Times are whole seconds: instants since the epoch, and local times since the first of January 1970 on the local clock.
A time zone is what it adds to an instant, and the instant that it takes for a local time.

* `parse_print`: the default pattern keeps everything but the era.
* `back_eq`, `back_far`: an instant from the year 1 on is read back, any other one is read as a much later one.
* `dateOfValue_iff`, `objectOf_iff`: what is written for a value, and which values are read from a date.
* `roundTrips_iff`: which values are read back as they were.
-/

namespace AppNG
namespace Fields
namespace DateFields

open Calendar

/-! ## Time zones -/

structure Zone where
  offset : Int → Int
  /-- The instant for a local time, also for one that none or several instants have. -/
  ofLocal : Int → Int
  offset_le : ∀ instant, -86400 ≤ offset instant ∧ offset instant ≤ 86400
  ofLocal_near : ∀ time, time - 86400 ≤ ofLocal time ∧ ofLocal time ≤ time + 86400
  ofLocal_only : ∀ instant, (∀ other, other + offset other = instant + offset instant → other = instant) →
    ofLocal (instant + offset instant) = instant

def Zone.localTime (zone : Zone) (instant : Int) : Int := instant + zone.offset instant

/-- Neither in a gap nor in an overlap. -/
def Zone.Clear (zone : Zone) (time : Int) : Prop :=
  ∃ instant, zone.localTime instant = time ∧ ∀ other, zone.localTime other = time → other = instant

theorem Zone.ofLocal_eq_iff (zone : Zone) {time : Int} (h : zone.Clear time) (instant : Int) :
    zone.ofLocal time = instant ↔ zone.localTime instant = time := by
  obtain ⟨only, rfl, hunique⟩ := h
  have hback : zone.ofLocal (zone.localTime only) = only := zone.ofLocal_only only hunique
  rw [hback]
  constructor
  · intro h
    rw [h]
  · intro h
    exact (hunique instant h).symm

theorem Zone.localTime_near (zone : Zone) (instant : Int) :
    instant - 86400 ≤ zone.localTime instant ∧ zone.localTime instant ≤ instant + 86400 := by
  have := zone.offset_le instant
  simp only [Zone.localTime]
  omega

/-- Instants on the same local day are near each other, also in different zones. -/
theorem near_of_localTime (zone zone' : Zone) {date instant : Int}
    (h : zone.localTime date < zone'.localTime instant + 86400) : date ≤ instant + 3 * 86400 := by
  have hdate := zone.localTime_near date
  have hinstant := zone'.localTime_near instant
  omega

/-- An environment's `java.util.TimeZone`. -/
structure TimeZone extends Zone where
  id : String

/-- What joda makes of the instant that a calendar takes for a local time: it only changes it in a gap or an overlap. How
it asks the calendar there, step by step, is not expressed. -/
structure Correction where
  correct : Zone → Int → Int → Int
  correct_only : ∀ zone instant, (∀ other, zone.localTime other = zone.localTime instant → other = instant) →
    correct zone (zone.localTime instant) instant = instant

/-! ## The default pattern -/

/-- How a pattern shows and reads the fields of a calendar. None: a `ParseException`. -/
structure FastDateFormat where
  print : Calendar.Fields → String
  parse : String → Option Calendar.Fields

def DEFAULT_DATEPATTERN : String := "yyyy-MM-dd HH:mm:ss"

/-- With leading zeros up to a width. -/
def number (width : Nat) (n : Int) : List Char :=
  let digits := Nat.toDigits 10 n.toNat
  List.replicate (width - digits.length) '0' ++ digits

/-- The number in front, and what follows. Also one that is no int, which no date shows. -/
def readNumber (text : List Char) : Option (Int × List Char) :=
  let text := text.dropWhile Java.isWhitespace
  match text.takeWhile Char.isDigit with
  | [] => none
  | digits => some (Nat.ofDigitChars 10 digits 0, text.dropWhile Char.isDigit)

def readLiteral (literal : Char) : List Char → Option (List Char)
  | [] => none
  | c :: text => if c = literal then some text else none

def printDefault (fields : Calendar.Fields) : String :=
  let date := fields.date.withoutEra
  String.ofList (number 4 date.year ++ '-' :: (number 2 date.month ++ '-' :: (number 2 date.day ++
    ' ' :: (number 2 fields.hour ++ ':' :: (number 2 fields.minute ++ ':' :: number 2 fields.second)))))

/-- What is behind the seconds is not read. -/
def parseDefault (text : String) : Option Calendar.Fields := do
  let (year, text) ← readNumber text.toList
  let text ← readLiteral '-' text
  let (month, text) ← readNumber text
  let text ← readLiteral '-' text
  let (day, text) ← readNumber text
  let text ← readLiteral ' ' text
  let (hour, text) ← readNumber text
  let text ← readLiteral ':' text
  let (minute, text) ← readNumber text
  let text ← readLiteral ':' text
  let (second, _) ← readNumber text
  return { date := { year, month, day }, hour, minute, second }

def defaultFormat : FastDateFormat where
  print := printDefault
  parse := parseDefault

/-! ### The default pattern reads what it shows -/

theorem isDigit_of_mem_number {width : Nat} {n : Int} {c : Char} (h : c ∈ number width n) : c.isDigit = true := by
  rcases List.mem_append.mp h with hzero | hdigit
  · rw [List.eq_of_mem_replicate hzero]
    rfl
  · exact Nat.isDigit_of_mem_toDigits (by omega) (by omega) hdigit

theorem number_ne_nil (width : Nat) (n : Int) : number width n ≠ [] := by
  intro h
  exact Nat.toDigits_ne_nil (List.append_eq_nil_iff.mp h).2

theorem ofDigitChars_number (width : Nat) {n : Int} (h : 0 ≤ n) :
    (Nat.ofDigitChars 10 (number width n) 0 : Int) = n := by
  simp only [number, Nat.ofDigitChars_append, Nat.ofDigitChars_replicate_zero, Nat.mul_zero]
  rw [Nat.ofDigitChars_ten_toDigits]
  omega

theorem not_isWhitespace_of_isDigit {c : Char} (h : c.isDigit = true) : Java.isWhitespace c = false := by
  simp [Char.isDigit, Java.isWhitespace, UInt32.le_iff_toNat_le] at *
  omega

theorem readNumber_number (width : Nat) {n : Int} (rest : List Char) (hn : 0 ≤ n)
    (hrest : ∀ c ∈ rest.head?, c.isDigit = false) : readNumber (number width n ++ rest) = some (n, rest) := by
  have hdigits : ∀ c ∈ number width n, c.isDigit = true := fun _ => isDigit_of_mem_number
  have hspace : (number width n ++ rest).dropWhile Java.isWhitespace = number width n ++ rest := by
    obtain ⟨c, digits, hcons⟩ := List.exists_cons_of_ne_nil (number_ne_nil width n)
    have hdigit : c.isDigit = true := hdigits c (by rw [hcons]; exact List.mem_cons_self)
    rw [hcons, List.cons_append, List.dropWhile_cons_of_neg (by simp [not_isWhitespace_of_isDigit hdigit])]
  have htake : rest.takeWhile Char.isDigit = [] := by
    cases rest with
    | nil => rfl
    | cons c rest => simp [hrest c rfl]
  have hdrop : rest.dropWhile Char.isDigit = rest := by
    cases rest with
    | nil => rfl
    | cons c rest => simp [hrest c rfl]
  simp only [readNumber, hspace, List.takeWhile_append_of_pos hdigits, List.dropWhile_append_of_pos hdigits, htake,
    hdrop, List.append_nil]
  split
  · rename_i hnil
    exact absurd hnil (number_ne_nil width n)
  · rw [ofDigitChars_number width hn]

theorem readLiteral_cons (literal : Char) (rest : List Char) : readLiteral literal (literal :: rest) = some rest :=
  if_pos rfl

/-- No field is below zero. -/
structure Shown (fields : Calendar.Fields) : Prop where
  month : 0 ≤ fields.date.month
  day : 0 ≤ fields.date.day
  hour : 0 ≤ fields.hour
  minute : 0 ≤ fields.minute
  second : 0 ≤ fields.second

theorem shown_fieldsOf (time : Int) : Shown (fieldsOf time) := by
  have h := dateOf_fields (time / 86400)
  refine ⟨?_, ?_, (hour_fieldsOf time).1, (minute_fieldsOf time).1, (second_fieldsOf time).1⟩
  · show 0 ≤ (dateOf (time / 86400)).month
    omega
  · show 0 ≤ (dateOf (time / 86400)).day
    omega

theorem withoutEra_year (date : CivilDate) : 0 ≤ date.withoutEra.year := by
  simp only [CivilDate.withoutEra]
  split <;> omega

theorem parse_print {fields : Calendar.Fields} (h : Shown fields) :
    parseDefault (printDefault fields) = some { fields with date := fields.date.withoutEra } := by
  have hdigit {c : Char} {rest : List Char} (hc : c.isDigit = false) : ∀ d ∈ (c :: rest).head?, d.isDigit = false := by
    intro d hd
    cases hd
    exact hc
  have hnumber (c : Char) (width : Nat) {n : Int} (rest : List Char) (hc : c.isDigit = false) (hn : 0 ≤ n) :
      readNumber (number width n ++ c :: rest) = some (n, c :: rest) := readNumber_number width _ hn (hdigit hc)
  have hlast : readNumber (number 2 fields.second) = some (fields.second, []) := by
    have := readNumber_number 2 [] h.second (by simp)
    rwa [List.append_nil] at this
  have hmonth : 0 ≤ fields.date.withoutEra.month := h.month
  have hday : 0 ≤ fields.date.withoutEra.day := h.day
  simp only [parseDefault, printDefault, String.toList_ofList,
    hnumber '-' 4 _ (by decide) (withoutEra_year fields.date),
    hnumber '-' 2 _ (by decide) hmonth, hnumber ' ' 2 _ (by decide) hday, hnumber ':' 2 _ (by decide) h.hour,
    hnumber ':' 2 _ (by decide) h.minute, hlast, readLiteral_cons, Option.bind_eq_bind, Option.bind_some,
    Option.pure_def]

/-- The text of a date is not left out as a blank one. -/
theorem not_isBlank_print (fields : Calendar.Fields) : Java.isBlank (some (printDefault fields)) = false := by
  obtain ⟨c, digits, hcons⟩ := List.exists_cons_of_ne_nil (number_ne_nil 4 fields.date.withoutEra.year)
  have hdigit : c.isDigit = true := isDigit_of_mem_number (by rw [hcons]; exact List.mem_cons_self)
  simp [Java.isBlank, printDefault, hcons, not_isWhitespace_of_isDigit hdigit]

example : printDefault (fieldsOf 1354711800) = "2012-12-05 12:50:00" := by decide +kernel

example : parseDefault "2012-12-05 12:50:00" = some (fieldsOf 1354711800) := by decide +kernel

/-! ## Values -/

/-- The dates of joda are Gregorian ones. -/
@[ext]
structure JodaLocalDate where
  date : CivilDate
  gregorian : date.Gregorian

@[ext]
structure JodaLocalDateTime where
  fields : Calendar.Fields
  gregorian : fields.date.Gregorian
  hour : 0 ≤ fields.hour ∧ fields.hour < 24
  minute : 0 ≤ fields.minute ∧ fields.minute < 60
  second : 0 ≤ fields.second ∧ fields.second < 60

theorem JodaLocalDateTime.fieldsOf_eq_iff (value : JodaLocalDateTime) (time : Int) :
    fieldsOf time = value.fields ↔ time = localOf value.fields ∧ ¬ value.fields.date.LeftOut := by
  constructor
  · intro h
    have hdate : dateOf (time / 86400) = value.fields.date := congrArg Calendar.Fields.date h
    rw [← h, localOf_fieldsOf, h]
    exact ⟨rfl, ((dateOf_eq_iff value.gregorian _).mp hdate).2⟩
  · rintro ⟨rfl, hkept⟩
    exact fieldsOf_localOf ((dateOf_dayOf_iff value.gregorian).mpr hkept) value.hour value.minute value.second

/-- The types of `java.time` count their days and seconds from the first of January 1970. -/
inductive Value
  | date (instant : Int)
  | localDate (day : Int)
  | localDateTime (time : Int)
  | offsetDateTime (time offset : Int)
  | zonedDateTime (time offset : Int) (zone : String)
  | jodaDateTime (instant : Int)
  | jodaLocalDate (value : JodaLocalDate)
  | jodaLocalDateTime (value : JodaLocalDateTime)
  | other (className : String)

inductive TargetClass
  | date | localDate | localDateTime | offsetDateTime | zonedDateTime
  /-- Another class of `java.time`. -/
  | temporal
  | jodaDateTime | jodaLocalDate | jodaLocalDateTime
  | other
  deriving DecidableEq

def Value.getClass : Value → TargetClass
  | .date _ => .date
  | .localDate _ => .localDate
  | .localDateTime _ => .localDateTime
  | .offsetDateTime _ _ => .offsetDateTime
  | .zonedDateTime _ _ _ => .zonedDateTime
  | .jodaDateTime _ => .jodaDateTime
  | .jodaLocalDate _ => .jodaLocalDate
  | .jodaLocalDateTime _ => .jodaLocalDateTime
  | .other _ => .other

/-- The same value; with an offset or a zone, the same instant. -/
def Same : Value → Value → Prop
  | .offsetDateTime time offset, .offsetDateTime time' offset' => time - offset = time' - offset'
  | .zonedDateTime time offset _, .zonedDateTime time' offset' _ => time - offset = time' - offset'
  | v, w => v = w

/-- What is thrown. -/
inductive Failure
  | illegalArgument (message : String)
  | dateTime
  | illegalFieldValue
  deriving DecidableEq

theorem bind_iff {α β : Type} {first : Except Failure α} {next : α → Except Failure β} {result : β} :
    (first >>= next) = .ok result ↔ ∃ value, first = .ok value ∧ next value = .ok result := by
  cases first with
  | error failure => exact iff_of_false nofun (by rintro ⟨value, h, -⟩; cases h)
  | ok value =>
    constructor
    · intro h
      exact ⟨value, rfl, h⟩
    · rintro ⟨_, hvalue, h⟩
      cases hvalue
      exact h

@[simp] theorem pure_iff {α : Type} {value result : α} :
    (pure value : Except Failure α) = .ok result ↔ value = result := by
  constructor
  · intro h
    cases h
    rfl
  · intro h
    rw [h]
    rfl

structure FieldWrapper where
  name : String
  binding : String
  format : Option String := none
  targetClass : Option TargetClass
  object : Option Value := none
  stringValue : Option String := none
  messages : Option (List Message) := none

/-! ## The converter -/

/-- The converter with its environment, and what it gets from the platform. -/
structure DateFieldConverter where
  timeZone : TimeZone
  /-- The default zone of the virtual machine. -/
  defaultZone : Zone
  /-- `ZoneId.of`. None: it throws. -/
  zoneOf : String → Option Zone
  localDateCorrection : Correction
  localDateTimeCorrection : Correction
  /-- For the other patterns. -/
  formatFor : String → FastDateFormat
  /-- For the error key, in the locale. -/
  errorMessage : String

namespace DateFieldConverter

variable (converter : DateFieldConverter)

def getZoneId : Except Failure Zone :=
  match converter.zoneOf converter.timeZone.id with
  | none => .error .dateTime
  | some zone => .ok zone

def getDateFormat (field : FieldWrapper) : FastDateFormat :=
  let format := field.format.getD ""
  if format = DEFAULT_DATEPATTERN then defaultFormat else converter.formatFor format

def setFormat (field : FieldWrapper) : FieldWrapper :=
  if Java.isBlank field.format then { field with format := some DEFAULT_DATEPATTERN } else field

/-- The milliseconds fit into a long. -/
def FitsLong (instant : Int) : Prop := -9223372036854775808 ≤ 1000 * instant ∧ 1000 * instant ≤ 9223372036854775807

instance : DecidablePred FitsLong := fun instant =>
  inferInstanceAs (Decidable (-9223372036854775808 ≤ 1000 * instant ∧ 1000 * instant ≤ 9223372036854775807))

/-- `Date.from`, for an instant of `java.time`. -/
def dateFrom (instant : Int) : Except Failure Int :=
  if FitsLong instant then .ok instant
  else .error (.illegalArgument "java.lang.ArithmeticException: long overflow")

/-- The local time of a joda value, in a zone. -/
def toDate (correction : Correction) (zone : Zone) (fields : Calendar.Fields) : Int :=
  correction.correct zone (localOf fields) (zone.ofLocal (localOf fields))

def midnight (date : CivilDate) : Calendar.Fields := { date, hour := 0, minute := 0, second := 0 }

/-- The date that `setString` formats. -/
def dateOfValue (field : FieldWrapper) : Value → Except Failure Int
  | .date instant => .ok instant
  | .localDate day => do
    let zone ← converter.getZoneId
    dateFrom (zone.ofLocal (86400 * day))
  | .localDateTime time => do
    let zone ← converter.getZoneId
    dateFrom (zone.ofLocal time)
  | .offsetDateTime time offset => dateFrom (time - offset)
  | .zonedDateTime time offset _ => dateFrom (time - offset)
  | .jodaDateTime instant => .ok instant
  | .jodaLocalDate value => .ok (toDate converter.localDateCorrection converter.defaultZone (midnight value.date))
  | .jodaLocalDateTime value => .ok (toDate converter.localDateTimeCorrection converter.timeZone.toZone value.fields)
  | .other className => .error (.illegalArgument
      ("Unsupported type '" ++ className ++ "' for field '" ++ field.binding ++ "' of type 'date'!"))

def formatDate (field : FieldWrapper) (date : Int) : String :=
  (converter.getDateFormat field).print (fieldsOf (converter.timeZone.localTime date))

def setString (field : FieldWrapper) : Except Failure FieldWrapper :=
  let object := field.object
  let field := setFormat field
  match object with
  | none => .ok field
  | some object => do
    let date ← converter.dateOfValue field object
    return { field with stringValue := some (converter.formatDate field date) }

/-- The fields of a date in the default zone, as a joda value. -/
def fromDateFields (date : Int) : Calendar.Fields := fieldsOf (converter.defaultZone.localTime date)

def jodaLocalDateOf (fields : Calendar.Fields) : Except Failure JodaLocalDate :=
  if h : fields.date.Gregorian then .ok ⟨fields.date, h⟩
  else .error .illegalFieldValue

def jodaLocalDateTimeOf (time : Int) : Except Failure JodaLocalDateTime :=
  if h : (fieldsOf time).date.Gregorian then
    .ok { fields := fieldsOf time
          gregorian := h
          hour := hour_fieldsOf time
          minute := minute_fieldsOf time
          second := second_fieldsOf time }
  else .error .illegalFieldValue

/-- The object that `setObject` makes of a date, if there is one for the class. -/
def objectOf (date : Int) : TargetClass → Except Failure (Option Value)
  | .date => .ok (some (.date date))
  | .localDate => do
    let zone ← converter.getZoneId
    return some (.localDate (zone.localTime date / 86400))
  | .localDateTime => do
    let zone ← converter.getZoneId
    return some (.localDateTime (zone.localTime date))
  | .offsetDateTime => do
    let zone ← converter.getZoneId
    return some (.offsetDateTime (zone.localTime date) (zone.offset date))
  | .zonedDateTime => do
    let zone ← converter.getZoneId
    return some (.zonedDateTime (zone.localTime date) (zone.offset date) converter.timeZone.id)
  | .temporal => do
    let _ ← converter.getZoneId
    return none
  | .jodaDateTime => .ok (some (.jodaDateTime date))
  | .jodaLocalDate => do
    let value ← jodaLocalDateOf (converter.fromDateFields date)
    return some (.jodaLocalDate value)
  | .jodaLocalDateTime => do
    let value ← jodaLocalDateTimeOf (converter.defaultZone.localTime date)
    return some (.jodaLocalDateTime value)
  | .other => .ok none

def handleException (field : FieldWrapper) : FieldWrapper :=
  { field with messages := some [⟨field.name, .error, converter.errorMessage⟩], stringValue := none }

/-- The instant that a text stands for. -/
def parseDate (field : FieldWrapper) (value : String) : Option Int :=
  ((converter.getDateFormat field).parse value).map fun fields => converter.timeZone.ofLocal (localOf fields)

def setObject (field : FieldWrapper) (value : Option String) : Except Failure FieldWrapper :=
  if Java.isBlank value then .ok field
  else
    let field := setFormat field
    match field.targetClass with
    | none => .ok field
    | some targetClass =>
      match converter.parseDate field (value.getD "") with
      | none => .ok (converter.handleException field)
      | some date => do
        match ← converter.objectOf date targetClass with
        | none => return field
        | some object => return { field with object := some object }

/-! ## What is read back -/

/-- Without a pattern of its own, or with the default one. -/
def Default (field : FieldWrapper) : Prop := Java.isBlank field.format = true ∨ field.format = some DEFAULT_DATEPATTERN

/-- What `setString` writes is read by `setObject` as the same value, into a field for its class. -/
def RoundTrips (field : FieldWrapper) (value : Value) : Prop :=
  ∃ written text read object,
    converter.setString { field with targetClass := some value.getClass, object := some value } = .ok written ∧
    written.stringValue = some text ∧
    converter.setObject { written with object := none } (some text) = .ok read ∧
    read.object = some object ∧ Same object value

/-- The instant that is read for one that was written. -/
def back (instant : Int) : Int :=
  let fields := fieldsOf (converter.timeZone.localTime instant)
  converter.timeZone.ofLocal (localOf { fields with date := fields.date.withoutEra })

def yearAt (instant : Int) : Int := (fieldsOf (converter.timeZone.localTime instant)).date.year

theorem back_eq {instant : Int} (hyear : 1 ≤ converter.yearAt instant)
    (hclear : converter.timeZone.Clear (converter.timeZone.localTime instant)) : converter.back instant = instant := by
  have hfields : { fieldsOf (converter.timeZone.localTime instant) with
      date := (fieldsOf (converter.timeZone.localTime instant)).date.withoutEra } =
        fieldsOf (converter.timeZone.localTime instant) := by
    rw [withoutEra_of_pos hyear]
  rw [back, hfields, localOf_fieldsOf, Zone.ofLocal_eq_iff _ hclear]

theorem back_far {instant : Int} (hyear : ¬ 1 ≤ converter.yearAt instant) :
    instant + 200 * 86400 ≤ converter.back instant := by
  have hfar := dayOf_withoutEra hyear
  have hzone := converter.timeZone.localTime_near instant
  have hback := converter.timeZone.ofLocal_near (localOf { fieldsOf (converter.timeZone.localTime instant) with
    date := (fieldsOf (converter.timeZone.localTime instant)).date.withoutEra })
  simp only [back, localOf, fieldsOf] at *
  omega

theorem default_setFormat {field : FieldWrapper} (h : Default field) :
    (setFormat field).format = some DEFAULT_DATEPATTERN := by
  unfold setFormat
  split
  · rfl
  · rename_i hblank
    exact h.resolve_left hblank

theorem setFormat_of_format {field : FieldWrapper} (h : field.format = some DEFAULT_DATEPATTERN) :
    setFormat field = field := by
  have hblank : ¬ Java.isBlank (some DEFAULT_DATEPATTERN) = true := by decide
  rw [setFormat, h, if_neg hblank]

theorem getDateFormat_of_format {field : FieldWrapper} (h : field.format = some DEFAULT_DATEPATTERN) :
    converter.getDateFormat field = defaultFormat := by
  rw [getDateFormat, h]
  exact if_pos rfl

theorem setString_iff {field : FieldWrapper} (written : FieldWrapper) {value : Value} (h : Default field)
    (hobject : field.object = some value) :
    converter.setString field = .ok written ↔ ∃ date, converter.dateOfValue (setFormat field) value = .ok date ∧
      written = { setFormat field with
        stringValue := some (printDefault (fieldsOf (converter.timeZone.localTime date))) } := by
  have hformat := converter.getDateFormat_of_format (default_setFormat h)
  simp only [setString, hobject, formatDate, hformat, bind_iff, pure_iff, eq_comm (b := written)]
  rfl

theorem parseDate_print {field : FieldWrapper} (h : field.format = some DEFAULT_DATEPATTERN) (instant : Int) :
    converter.parseDate field (printDefault (fieldsOf (converter.timeZone.localTime instant))) =
      some (converter.back instant) := by
  rw [parseDate, converter.getDateFormat_of_format h]
  exact congrArg (Option.map _) (parse_print (shown_fieldsOf _))

theorem setObject_print (field : FieldWrapper) {targetClass : TargetClass} {read : FieldWrapper}
    (h : field.format = some DEFAULT_DATEPATTERN) (htarget : field.targetClass = some targetClass)
    (hobject : field.object = none) (instant : Int) (object : Value) :
    (converter.setObject field (some (printDefault (fieldsOf (converter.timeZone.localTime instant)))) = .ok read ∧
      read.object = some object) ↔
      converter.objectOf (converter.back instant) targetClass = .ok (some object) ∧
        read = { field with object := some object } := by
  have hparse := converter.parseDate_print h instant
  simp only [setObject, not_isBlank_print, setFormat_of_format h, htarget, Option.getD_some, hparse]
  cases converter.objectOf (converter.back instant) targetClass with
  | error failure => exact iff_of_false (by rintro ⟨h, -⟩; cases h) (by rintro ⟨h, -⟩; cases h)
  | ok result =>
    cases result with
    | none =>
      refine iff_of_false ?_ (by rintro ⟨h, -⟩; cases h)
      rintro ⟨hread, hsome⟩
      cases hread
      rw [hobject] at hsome
      cases hsome
    | some result =>
      constructor
      · rintro ⟨hread, hsome⟩
        cases hread
        cases hsome
        exact ⟨rfl, rfl⟩
      · rintro ⟨hresult, rfl⟩
        cases hresult
        exact ⟨rfl, rfl⟩

theorem roundTrips_iff_read {field : FieldWrapper} {value : Value} (h : Default field) :
    converter.RoundTrips field value ↔ ∃ instant object,
      converter.dateOfValue (setFormat { field with targetClass := some value.getClass, object := some value }) value =
        .ok instant ∧
      converter.objectOf (converter.back instant) value.getClass = .ok (some object) ∧ Same object value := by
  generalize hfield : { field with targetClass := some value.getClass, object := some value } = f
  have hdefault : Default f := hfield ▸ h
  have htarget : (setFormat f).targetClass = some value.getClass := by
    subst hfield
    unfold setFormat
    split <;> rfl
  have hobject : f.object = some value := by rw [← hfield]
  have hformat := default_setFormat hdefault
  unfold RoundTrips
  rw [hfield]
  constructor
  · rintro ⟨written, text, read, object, hwrite, htext, hread, hsome, hsame⟩
    obtain ⟨instant, hdate, rfl⟩ := (converter.setString_iff written hdefault hobject).mp hwrite
    cases htext
    have hresult := (converter.setObject_print _ (by exact hformat) (by exact htarget) rfl instant object).mp
      ⟨hread, hsome⟩
    exact ⟨instant, object, hdate, hresult.1, hsame⟩
  · rintro ⟨instant, object, hdate, hresult, hsame⟩
    have hwrite := (converter.setString_iff _ hdefault hobject).mpr ⟨instant, hdate, rfl⟩
    have hread := (converter.setObject_print { setFormat f with
      object := none, stringValue := some (printDefault (fieldsOf (converter.timeZone.localTime instant))) }
      hformat htarget rfl instant object).mpr ⟨hresult, rfl⟩
    exact ⟨_, _, _, object, hwrite, rfl, hread.1, hread.2, hsame⟩

/-! ## What a value stands for -/

/-- An instant, or a local time in a zone. -/
inductive Meaning
  | atInstant (instant : Int)
  | inZone (zone : Zone) (time : Int)

def Meaning.At : Meaning → Int → Prop
  | .atInstant own, instant => instant = own
  | .inZone zone time, instant => zone.localTime instant = time

def Meaning.Clear : Meaning → Prop
  | .atInstant _ => True
  | .inZone zone time => zone.Clear time

/-- None: the zone of the environment is not one of `java.time`, or the class is not supported. -/
def meaningOf : Value → Option Meaning
  | .date instant => some (.atInstant instant)
  | .localDate day => (converter.zoneOf converter.timeZone.id).map fun zone => .inZone zone (86400 * day)
  | .localDateTime time => (converter.zoneOf converter.timeZone.id).map fun zone => .inZone zone time
  | .offsetDateTime time offset => some (.atInstant (time - offset))
  | .zonedDateTime time offset _ => some (.atInstant (time - offset))
  | .jodaDateTime instant => some (.atInstant instant)
  | .jodaLocalDate value => some (.inZone converter.defaultZone (localOf (midnight value.date)))
  | .jodaLocalDateTime value => some (.inZone converter.timeZone.toZone (localOf value.fields))
  | .other _ => none

/-- The value lies in no gap or overlap, and is not shown as a time in one. -/
def Unambiguous (value : Value) : Prop :=
  ∀ meaning ∈ converter.meaningOf value, meaning.Clear ∧
    ∀ instant, meaning.At instant → converter.timeZone.Clear (converter.timeZone.localTime instant)

/-- A value of `java.time` has an instant that becomes a date. -/
def Fits (instant : Int) : Value → Prop
  | .localDate _ | .localDateTime _ | .offsetDateTime _ _ | .zonedDateTime _ _ _ => FitsLong instant
  | _ => True

/-- What the reader of a class needs in addition. -/
def Readable (instant : Int) : Value → Prop
  | .offsetDateTime _ _ | .zonedDateTime _ _ _ => (converter.zoneOf converter.timeZone.id).isSome = true
  | .jodaLocalDate value => ¬ value.date.LeftOut
  | .jodaLocalDateTime value =>
    ¬ value.fields.date.LeftOut ∧ converter.defaultZone.offset instant = converter.timeZone.offset instant
  | _ => True

/-- The value has an instant in the era from the year 1 on, that fits, and can be read. -/
def Sound (value : Value) : Prop :=
  ∃ meaning ∈ converter.meaningOf value, ∃ instant, meaning.At instant ∧ 1 ≤ converter.yearAt instant ∧
    Fits instant value ∧ converter.Readable instant value

theorem dateFrom_iff {instant date : Int} :
    dateFrom instant = .ok date ↔ date = instant ∧ FitsLong date := by
  unfold dateFrom
  split
  · rename_i hfits
    constructor
    · intro h
      cases h
      exact ⟨rfl, hfits⟩
    · rintro ⟨rfl, -⟩
      rfl
  · rename_i hfits
    refine iff_of_false nofun ?_
    rintro ⟨rfl, h⟩
    exact hfits h

theorem toDate_iff (correction : Correction) {zone : Zone} {fields : Calendar.Fields} (h : zone.Clear (localOf fields))
    (date : Int) : toDate correction zone fields = date ↔ zone.localTime date = localOf fields := by
  obtain ⟨instant, hinstant, hunique⟩ := h
  have hback : zone.ofLocal (localOf fields) = instant :=
    (zone.ofLocal_eq_iff ⟨instant, hinstant, hunique⟩ instant).mpr hinstant
  have hcorrect : toDate correction zone fields = instant := by
    rw [toDate, hback, ← hinstant]
    exact correction.correct_only zone instant (hinstant.symm ▸ hunique)
  rw [hcorrect]
  constructor
  · rintro rfl
    exact hinstant
  · intro h
    exact (hunique date h).symm

theorem getZoneId_iff {zone : Zone} :
    converter.getZoneId = .ok zone ↔ converter.zoneOf converter.timeZone.id = some zone := by
  unfold getZoneId
  split <;> simp_all

/-- The dates and times of `java.time` without an offset. -/
theorem ofLocal_iff {time date : Int}
    (h : ∀ meaning ∈ (converter.zoneOf converter.timeZone.id).map (Meaning.inZone · time), meaning.Clear) :
    (converter.getZoneId >>= fun zone => dateFrom (zone.ofLocal time)) = .ok date ↔
      ∃ meaning ∈ (converter.zoneOf converter.timeZone.id).map (Meaning.inZone · time),
        meaning.At date ∧ FitsLong date := by
  simp only [bind_iff, getZoneId_iff]
  cases hzone : converter.zoneOf converter.timeZone.id with
  | none => simp
  | some zone =>
    rw [hzone] at h
    have hclear : zone.Clear time := h _ rfl
    have hdate : date = zone.ofLocal time ↔ zone.localTime date = time :=
      eq_comm.trans (zone.ofLocal_eq_iff hclear date)
    simp [dateFrom_iff, Meaning.At, hdate]

/-- What is written is the instant that the value stands for. -/
theorem dateOfValue_iff (field : FieldWrapper) {value : Value} (h : converter.Unambiguous value) (date : Int) :
    converter.dateOfValue field value = .ok date ↔
      ∃ meaning ∈ converter.meaningOf value, meaning.At date ∧ Fits date value := by
  cases value with
  | date instant => simp [dateOfValue, meaningOf, Meaning.At, Fits, eq_comm]
  | localDate day => exact converter.ofLocal_iff fun meaning hmeaning => (h meaning hmeaning).1
  | localDateTime time => exact converter.ofLocal_iff fun meaning hmeaning => (h meaning hmeaning).1
  | offsetDateTime time offset => simp [dateOfValue, meaningOf, Meaning.At, Fits, dateFrom_iff]
  | zonedDateTime time offset zone => simp [dateOfValue, meaningOf, Meaning.At, Fits, dateFrom_iff]
  | jodaDateTime instant => simp [dateOfValue, meaningOf, Meaning.At, Fits, eq_comm]
  | jodaLocalDate value =>
    have hclear := (h _ rfl).1
    simp [dateOfValue, meaningOf, Meaning.At, Fits, toDate_iff _ hclear]
  | jodaLocalDateTime value =>
    have hclear := (h _ rfl).1
    simp [dateOfValue, meaningOf, Meaning.At, Fits, toDate_iff _ hclear]
  | other className => simp [dateOfValue, meaningOf]

/-- A value is what is read from a date. -/
def Reads (date : Int) : Value → Prop
  | .date instant => date = instant
  | .localDate day => ∃ zone, converter.zoneOf converter.timeZone.id = some zone ∧ zone.localTime date / 86400 = day
  | .localDateTime time => ∃ zone, converter.zoneOf converter.timeZone.id = some zone ∧ zone.localTime date = time
  | .offsetDateTime time offset => ∃ zone, converter.zoneOf converter.timeZone.id = some zone ∧ date = time - offset
  | .zonedDateTime time offset _ => ∃ zone, converter.zoneOf converter.timeZone.id = some zone ∧ date = time - offset
  | .jodaDateTime instant => date = instant
  | .jodaLocalDate value => (converter.fromDateFields date).date = value.date
  | .jodaLocalDateTime value => converter.fromDateFields date = value.fields
  | .other _ => False

theorem jodaLocalDateOf_iff (fields : Calendar.Fields) (value : JodaLocalDate) :
    jodaLocalDateOf fields = .ok value ↔ fields.date = value.date := by
  unfold jodaLocalDateOf
  split
  · rw [Except.ok.injEq, JodaLocalDate.ext_iff]
  · rename_i hnot
    refine iff_of_false nofun fun h => hnot ?_
    rw [h]
    exact value.gregorian

theorem jodaLocalDateTimeOf_iff (time : Int) (value : JodaLocalDateTime) :
    jodaLocalDateTimeOf time = .ok value ↔ fieldsOf time = value.fields := by
  unfold jodaLocalDateTimeOf
  split
  · rw [Except.ok.injEq, JodaLocalDateTime.ext_iff]
  · rename_i hnot
    refine iff_of_false nofun fun h => hnot ?_
    rw [h]
    exact value.gregorian

theorem objectOf_iff (date : Int) (value : Value) :
    (∃ object, converter.objectOf date value.getClass = .ok (some object) ∧ Same object value) ↔
      converter.Reads date value := by
  have hinstant (zone : Zone) : zone.localTime date - zone.offset date = date := by
    simp only [Zone.localTime]
    omega
  cases value with
  | date instant => simp [objectOf, Value.getClass, Same, Reads]
  | localDate day => simp [-bind_pure_comp, objectOf, Value.getClass, bind_iff, getZoneId_iff, Same, Reads]
  | localDateTime time => simp [-bind_pure_comp, objectOf, Value.getClass, bind_iff, getZoneId_iff, Same, Reads]
  | offsetDateTime time offset =>
    simp [-bind_pure_comp, objectOf, Value.getClass, bind_iff, getZoneId_iff, Same, Reads, hinstant]
  | zonedDateTime time offset zone =>
    simp [-bind_pure_comp, objectOf, Value.getClass, bind_iff, getZoneId_iff, Same, Reads, hinstant]
  | jodaDateTime instant => simp [objectOf, Value.getClass, Same, Reads]
  | jodaLocalDate value => simp [-bind_pure_comp, objectOf, Value.getClass, bind_iff, jodaLocalDateOf_iff, Same, Reads]
  | jodaLocalDateTime value =>
    simp [-bind_pure_comp, objectOf, Value.getClass, bind_iff, jodaLocalDateTimeOf_iff, Same, Reads, fromDateFields]
  | other className => simp [objectOf, Value.getClass, Reads]

/-- A value is read from no date that is far from its own instant. -/
theorem reads_near {date instant : Int} {value : Value} {meaning : Meaning}
    (hmeaning : meaning ∈ converter.meaningOf value) (hat : meaning.At instant) (hreads : converter.Reads date value) :
    date ≤ instant + 3 * 86400 := by
  cases value with
  | date own =>
    cases hmeaning
    simp only [Meaning.At, Reads] at *
    omega
  | localDate day =>
    obtain ⟨zone, hzone, hread⟩ := hreads
    obtain ⟨own, -, rfl⟩ := Option.map_eq_some_iff.mp hmeaning
    have hlocal : own.localTime instant = 86400 * day := hat
    exact near_of_localTime zone own (by omega)
  | localDateTime time =>
    obtain ⟨zone, hzone, hread⟩ := hreads
    obtain ⟨own, -, rfl⟩ := Option.map_eq_some_iff.mp hmeaning
    have hlocal : own.localTime instant = time := hat
    exact near_of_localTime zone own (by omega)
  | offsetDateTime time offset =>
    obtain ⟨zone, hzone, hread⟩ := hreads
    cases hmeaning
    simp only [Meaning.At] at hat
    omega
  | zonedDateTime time offset id =>
    obtain ⟨zone, hzone, hread⟩ := hreads
    cases hmeaning
    simp only [Meaning.At] at hat
    omega
  | jodaDateTime own =>
    cases hmeaning
    simp only [Meaning.At, Reads] at *
    omega
  | jodaLocalDate value =>
    cases hmeaning
    have hday := ((dateOf_eq_iff value.gregorian _).mp hreads).1
    have hlocal : converter.defaultZone.localTime instant = localOf (midnight value.date) := hat
    simp only [localOf, midnight] at hlocal
    exact near_of_localTime converter.defaultZone converter.defaultZone (by omega)
  | jodaLocalDateTime value =>
    cases hmeaning
    have htime := ((value.fieldsOf_eq_iff _).mp hreads).1
    have hlocal : converter.timeZone.localTime instant = localOf value.fields := hat
    exact near_of_localTime converter.defaultZone converter.timeZone.toZone (by omega)
  | other className => exact hreads.elim

/-- From its own instant a value is read when the reader takes its zone. -/
theorem reads_iff {instant : Int} {value : Value} {meaning : Meaning}
    (hmeaning : meaning ∈ converter.meaningOf value) (hat : meaning.At instant) :
    converter.Reads instant value ↔ converter.Readable instant value := by
  cases value with
  | date own =>
    cases hmeaning
    exact iff_of_true hat trivial
  | localDate day =>
    obtain ⟨zone, hzone, rfl⟩ := Option.map_eq_some_iff.mp hmeaning
    refine iff_of_true ⟨zone, hzone, ?_⟩ trivial
    simp only [Meaning.At] at hat
    omega
  | localDateTime time =>
    obtain ⟨zone, hzone, rfl⟩ := Option.map_eq_some_iff.mp hmeaning
    exact iff_of_true ⟨zone, hzone, hat⟩ trivial
  | offsetDateTime time offset =>
    cases hmeaning
    have hinstant : instant = time - offset := hat
    simp [Reads, Readable, hinstant, Option.isSome_iff_exists]
  | zonedDateTime time offset id =>
    cases hmeaning
    have hinstant : instant = time - offset := hat
    simp [Reads, Readable, hinstant, Option.isSome_iff_exists]
  | jodaDateTime own =>
    cases hmeaning
    exact iff_of_true hat trivial
  | jodaLocalDate value =>
    cases hmeaning
    have hlocal : converter.defaultZone.localTime instant = localOf (midnight value.date) := hat
    have hday : converter.defaultZone.localTime instant / 86400 = dayOf value.date := by
      simp only [localOf, midnight] at hlocal
      omega
    exact (dateOf_eq_iff value.gregorian _).trans (and_iff_right hday)
  | jodaLocalDateTime value =>
    cases hmeaning
    have hlocal : converter.timeZone.localTime instant = localOf value.fields := hat
    have hoffset : converter.defaultZone.localTime instant = localOf value.fields ↔
        converter.defaultZone.offset instant = converter.timeZone.offset instant := by
      simp only [Zone.localTime] at *
      omega
    calc converter.Reads instant (.jodaLocalDateTime value)
      _ ↔ converter.defaultZone.localTime instant = localOf value.fields ∧ ¬ value.fields.date.LeftOut :=
        value.fieldsOf_eq_iff _
      _ ↔ converter.Readable instant (.jodaLocalDateTime value) := by
        rw [hoffset, and_comm]
        rfl
  | other className => cases hmeaning

end DateFieldConverter

/-- Under the default pattern exactly the sound values are read back as they were. -/
theorem roundTrips_iff (converter : DateFieldConverter) (field : FieldWrapper) (value : Value)
    (hformat : DateFieldConverter.Default field) (hclear : converter.Unambiguous value) :
    converter.RoundTrips field value ↔ converter.Sound value := by
  rw [converter.roundTrips_iff_read hformat]
  constructor
  · rintro ⟨instant, object, hdate, hobject, hsame⟩
    obtain ⟨meaning, hmeaning, hat, hfits⟩ := (converter.dateOfValue_iff _ hclear instant).mp hdate
    have hreads := (converter.objectOf_iff _ value).mp ⟨object, hobject, hsame⟩
    have hyear : 1 ≤ converter.yearAt instant := by
      by_contra hera
      have hfar := converter.back_far hera
      have hnear := converter.reads_near hmeaning hat hreads
      omega
    rw [converter.back_eq hyear ((hclear meaning hmeaning).2 instant hat)] at hreads
    exact ⟨meaning, hmeaning, instant, hat, hyear, hfits, (converter.reads_iff hmeaning hat).mp hreads⟩
  · rintro ⟨meaning, hmeaning, instant, hat, hyear, hfits, hreadable⟩
    have hdate := (converter.dateOfValue_iff
      (DateFieldConverter.setFormat { field with targetClass := some value.getClass, object := some value })
      hclear instant).mpr ⟨meaning, hmeaning, hat, hfits⟩
    have hback := converter.back_eq hyear ((hclear meaning hmeaning).2 instant hat)
    obtain ⟨object, hobject, hsame⟩ := (converter.objectOf_iff instant value).mpr
      ((converter.reads_iff hmeaning hat).mpr hreadable)
    exact ⟨instant, object, hdate, by rw [hback]; exact hobject, hsame⟩

/-! ### In zones without daylight saving -/

def fixedZone (offset : Int) (h : -86400 ≤ offset ∧ offset ≤ 86400) : Zone where
  offset _ := offset
  ofLocal time := time - offset
  offset_le _ := h
  ofLocal_near time := by omega
  ofLocal_only instant _ := by omega

theorem fixedZone_clear (offset : Int) (h : -86400 ≤ offset ∧ offset ≤ 86400) (time : Int) :
    (fixedZone offset h).Clear time := by
  refine ⟨time - offset, ?_, ?_⟩
  · show time - offset + offset = time
    omega
  · intro other (hother : other + offset = time)
    omega

def noCorrection : Correction where
  correct _ _ instant := instant
  correct_only _ _ _ := rfl

/-- An environment an hour before the virtual machine. -/
def plusOne : DateFieldConverter where
  timeZone := { fixedZone 3600 (by omega) with id := "GMT+01:00" }
  defaultZone := fixedZone 0 (by omega)
  zoneOf id := if id = "GMT+01:00" then some (fixedZone 3600 (by omega)) else none
  localDateCorrection := noCorrection
  localDateTimeCorrection := noCorrection
  formatFor _ := defaultFormat
  errorMessage := "invalid date"

def dateField : FieldWrapper where
  name := "date"
  binding := "date"
  targetClass := none

/-- The fifth of December 2012, 12:50. -/
def jodaNoon : JodaLocalDateTime where
  fields := { date := { year := 2012, month := 12, day := 5 }, hour := 12, minute := 50, second := 0 }
  gregorian := by decide
  hour := by decide
  minute := by decide
  second := by decide

theorem localNoon_roundTrips : plusOne.RoundTrips dateField (.localDateTime 1354711800) :=
  (roundTrips_iff plusOne dateField (.localDateTime 1354711800) (Or.inl rfl) (by
    intro meaning hmeaning
    cases hmeaning
    exact ⟨fixedZone_clear _ _ _, fun instant _ => fixedZone_clear _ _ _⟩)).mpr
    ⟨_, rfl, 1354708200, rfl, by decide, (by decide : DateFieldConverter.FitsLong _), trivial⟩

/-- The reader takes the zone of the virtual machine, and makes 11:50 of it. -/
theorem jodaNoon_not_roundTrips : DateFieldConverter.Default dateField ∧
    plusOne.Unambiguous (.jodaLocalDateTime jodaNoon) ∧
    ¬ plusOne.RoundTrips dateField (.jodaLocalDateTime jodaNoon) := by
  refine ⟨Or.inl rfl, ?_, ?_⟩
  · intro meaning hmeaning
    cases hmeaning
    exact ⟨fixedZone_clear _ _ _, fun instant _ => fixedZone_clear _ _ _⟩
  · rw [plusOne.roundTrips_iff_read (Or.inl rfl)]
    rintro ⟨instant, object, hdate, hobject, hsame⟩
    have hinstant : instant = 1354708200 := by
      cases hdate
      decide
    have hread : plusOne.fromDateFields (plusOne.back instant) = jodaNoon.fields :=
      (plusOne.objectOf_iff _ _).mp ⟨object, hobject, hsame⟩
    rw [hinstant] at hread
    exact absurd hread (by decide)

end DateFields
end Fields
end AppNG
