import Exemplar.Clock
import Exemplar.Registry.Basic

/-!
# Exemplar.Registry.Builtin

The rules that a registry begins with.  Numbers are zero and truth values false; texts are a
placeholder, empty at first; times are those of one clock reading, so that all values of a run
agree; the trees of JSON libraries are empty trees.
-/

namespace Exemplar.Registry

/-- Types of whole numbers. -/
def integerTypes : List String :=
  ["byte", "short", "int", "long",
   "java.lang.Byte", "java.lang.Short", "java.lang.Integer", "java.lang.Long",
   "java.math.BigInteger",
   "java.util.concurrent.atomic.AtomicInteger",
   "java.util.concurrent.atomic.AtomicLong"]

/-- Types of numbers with a fraction. -/
def fractionTypes : List String :=
  ["float", "double", "java.lang.Float", "java.lang.Double", "java.math.BigDecimal"]

/-- Types of truth values. -/
def truthTypes : List String :=
  ["boolean", "java.lang.Boolean", "java.util.concurrent.atomic.AtomicBoolean"]

/-- Types of texts and characters. -/
def textTypes : List String :=
  ["char", "java.lang.Character", "java.lang.String", "java.lang.CharSequence",
   "java.lang.StringBuilder", "java.lang.StringBuffer"]

/-- Types of a date with a time of day. -/
def dateTimeTypes : List String :=
  ["java.util.Date", "java.sql.Timestamp", "java.time.LocalDateTime"]

/-- Types of a date. -/
def dateTypes : List String := ["java.time.LocalDate", "java.sql.Date"]

/-- Types of a time of day. -/
def timeTypes : List String := ["java.time.LocalTime", "java.sql.Time"]

/-- Types of a point in time. -/
def instantTypes : List String :=
  ["java.time.Instant", "java.time.OffsetDateTime", "java.time.ZonedDateTime"]

/-- Types of JSON arrays. -/
def arrayTreeTypes : List String :=
  ["com.fasterxml.jackson.databind.node.ArrayNode", "com.alibaba.fastjson.JSONArray",
   "com.alibaba.fastjson2.JSONArray", "com.google.gson.JsonArray"]

/-- Types of JSON objects. -/
def objectTreeTypes : List String :=
  ["com.fasterxml.jackson.databind.JsonNode", "com.fasterxml.jackson.databind.node.ObjectNode",
   "com.alibaba.fastjson.JSONObject", "com.alibaba.fastjson2.JSONObject",
   "com.google.gson.JsonObject"]

/-- Makes texts and characters show a placeholder. -/
def withPlaceholder (registry : Registry) (placeholder : String) : Registry :=
  registry.registerAll textTypes (.string placeholder)

/-- Adds the rules for numbers, truth values, texts and a few identifiers. -/
def withScalars (registry : Registry) : Registry :=
  (((registry.registerAll integerTypes .zero).registerAll fractionTypes .doubleZero).registerAll
      truthTypes (.bool false)).withPlaceholder ""
    |>.registerAll ["java.util.UUID"] (.string "00000000-0000-0000-0000-000000000000")
    |>.registerAll ["java.util.Locale"] (.string "en_US")
    |>.registerAll ["java.util.Currency"] (.string "USD")

/-- Adds the rules for times. -/
def withTimes (registry : Registry) (now : ClockReading) : Registry :=
  registry.registerAll dateTimeTypes (.string now.dateTimeText)
    |>.registerAll dateTypes (.string now.dateText)
    |>.registerAll timeTypes (.string now.timeText)
    |>.registerAll instantTypes (.string now.instantText)
    |>.registerAll ["java.time.Year"] (.ofInt now.year)
    |>.registerAll ["java.time.Duration"] (.string "PT0S")

/-- Adds the rules for the trees of JSON libraries. -/
def withTrees (registry : Registry) : Registry :=
  (registry.registerAll arrayTreeTypes (.array [])).registerAll objectTreeTypes (.object [])

/-- The registry of all built-in rules, with the times of a clock reading. -/
def builtin (now : ClockReading) : Registry := (empty.withScalars.withTimes now).withTrees

end Exemplar.Registry
