import VgiWorker.Lib.Decimal

/-! The values of arrays, as far as the worker takes them apart. -/

namespace VgiWorker.Arrow

inductive TypeID where
  | null | bool
  | uint8 | int8 | uint16 | int16 | uint32 | int32 | uint64 | int64
  | float16 | float32 | float64
  | string | binary | fixedSizeBinary
  | date32 | date64 | timestamp | time32 | time64
  | intervalMonths | intervalDayTime
  | decimal32 | decimal64 | decimal128 | decimal256
  | list | struct | sparseUnion | denseUnion | dictionary | map | extension
  | fixedSizeList | duration | largeString | largeBinary | largeList
  | intervalMonthDayNano | runEndEncoded | stringView | binaryView | listView | largeListView
deriving DecidableEq, Repr

/-- One value of an array, by the array's class. A dictionary's is a value of the array of its
values; an array of a class that is not taken apart is known by the text of its type. -/
inductive Cell where
  | null
  | int64 (value : Int64)
  | int32 (value : Int32)
  | float64 (value : Decimal.Float)
  | float32 (value : Decimal.Float)
  | boolean (value : Bool)
  | string (value : Bytes)
  | binary (value : Bytes)
  | dictionary (value : Cell)
  | other (type : Bytes)
deriving DecidableEq

end VgiWorker.Arrow
