import RecordMapping.Sql.Datum

/-!
# Statement parameters

A statement binds values of many kinds. Before it goes to the engine each of them becomes a
physical value. Points in time are bound as such: the other calendar kinds have no physical value,
and a statement that binds one cannot be sent.
-/

namespace RecordMapping

/-- A calendar value that is no point in universal time; `none` is the null of its kind. -/
inductive CalendarParam where
  | date (value : Option Date)
  | time (value : Option TimeOfDay)
  | dateTime (value : Option DateTime)
  /-- In the time zone of the machine. -/
  | localDateTime (value : Option OffsetDateTime)
  /-- In a time zone of its own. -/
  | zonedDateTime (value : Option OffsetDateTime)
  deriving DecidableEq

/-- A value bound by a statement; `none` is the null of its kind. -/
inductive Param where
  | bool (value : Option Bool)
  | tinyInt (value : Option Int8)
  | smallInt (value : Option Int16)
  | int (value : Option Int32)
  | bigInt (value : Option Int64)
  | tinyUnsigned (value : Option UInt8)
  | smallUnsigned (value : Option UInt16)
  | unsigned (value : Option UInt32)
  | bigUnsigned (value : Option UInt64)
  | float (value : Option Binary32)
  | double (value : Option Binary64)
  | string (value : Option String)
  | char (value : Option Char)
  | bytes (value : Option (List UInt8))
  | instant (value : Option Instant)
  | calendar (value : CalendarParam)
  deriving DecidableEq

/-- A calendar value in a message. -/
def CalendarParam.describe : CalendarParam → String
  | .date v => tagged "ChronoDate" (optional (v.map Date.text))
  | .time v => tagged "ChronoTime" (optional (v.map TimeOfDay.text))
  | .dateTime v => tagged "ChronoDateTime" (optional (v.map DateTime.text))
  | .localDateTime v => tagged "ChronoDateTimeLocal" (optional (v.map OffsetDateTime.text))
  | .zonedDateTime v => tagged "ChronoDateTimeWithTimeZone" (optional (v.map OffsetDateTime.text))

/-- The physical value of a parameter, or the calendar value that has none. -/
def Param.datum : Param → Except CalendarParam Datum
  | .bool v => .ok (.boolean v)
  | .tinyInt v => .ok (.int32 (v.map Int8.toInt32))
  | .smallInt v => .ok (.int32 (v.map Int16.toInt32))
  | .int v => .ok (.int32 v)
  | .bigInt v => .ok (.int64 v)
  | .tinyUnsigned v => .ok (.uint32 (v.map UInt8.toUInt32))
  | .smallUnsigned v => .ok (.uint32 (v.map UInt16.toUInt32))
  | .unsigned v => .ok (.uint32 v)
  | .bigUnsigned v => .ok (.uint64 v)
  | .float v => .ok (.float v)
  | .double v => .ok (.double v)
  | .string v => .ok (.text v)
  | .char v => .ok (.text (v.map fun c => String.ofList [c]))
  | .bytes v => .ok (.binary v)
  | .instant v => .ok (.int64 (v.map fun t => Int64.ofInt t.millis))
  | .calendar v => .error v

/-- The physical values of a list of parameters, or the first calendar value in it. -/
def Param.data (params : List Param) : Except CalendarParam (List Datum) := params.mapM Param.datum

end RecordMapping
