import LineCalc.Text.Basic

/-! Log records and the levels that let them through. A record has one of five levels; the
name of a threshold may be any of eight, two of which are second names, and one of which
lets everything through. -/
namespace LineCalc.Log

inductive Level where
  | debug | info | warning | error | critical
  deriving DecidableEq, Repr

namespace Level

def weight : Level → Nat
  | debug => 10
  | info => 20
  | warning => 30
  | error => 40
  | critical => 50

def name : Level → String
  | debug => "DEBUG"
  | info => "INFO"
  | warning => "WARNING"
  | error => "ERROR"
  | critical => "CRITICAL"

end Level

inductive Threshold where
  | critical | fatal | error | warn | warning | info | debug | notset
  deriving DecidableEq, Repr

namespace Threshold

def all : List Threshold := [critical, fatal, error, warn, warning, info, debug, notset]

def name : Threshold → String
  | critical => "CRITICAL"
  | fatal => "FATAL"
  | error => "ERROR"
  | warn => "WARN"
  | warning => "WARNING"
  | info => "INFO"
  | debug => "DEBUG"
  | notset => "NOTSET"

def weight : Threshold → Nat
  | critical | fatal => 50
  | error => 40
  | warn | warning => 30
  | info => 20
  | debug => 10
  | notset => 0

def ofName (text : String) : Option Threshold := all.find? (·.name = text)

theorem ofName_name (t : Threshold) : ofName t.name = some t := by cases t <;> rfl

theorem ofName_eq_some_iff {text : String} {t : Threshold} :
    ofName text = some t ↔ t.name = text := by
  constructor
  · intro h
    simpa using List.find?_some h
  · rintro rfl
    exact ofName_name t

end Threshold

structure Record where
  level : Level
  message : String
  deriving DecidableEq, Repr

namespace Record

def passes (threshold : Threshold) (r : Record) : Bool := threshold.weight ≤ r.level.weight

def line (r : Record) : String := "climbcalc.repl - " ++ r.level.name ++ " - " ++ r.message

theorem passes_notset (r : Record) : r.passes .notset := by simp [passes, Threshold.weight]

end Record

end LineCalc.Log
