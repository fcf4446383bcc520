/-!
Rows of the journal that loading leaves behind: how grave, from which part, and what.
-/
namespace SwitchLexicon.Journal

/-- Named grades; every whole number is a grade. -/
def debug : Int := 10

def info : Int := 20

def warning : Int := 30

def error : Int := 40

def critical : Int := 50

def gradeName (grade : Int) : String :=
  if grade = 0 then "NOTSET"
  else if grade = debug then "DEBUG"
  else if grade = info then "INFO"
  else if grade = warning then "WARNING"
  else if grade = error then "ERROR"
  else if grade = critical then "CRITICAL"
  else "Level " ++ toString grade

structure Row where
  grade : Int
  source : String
  message : String
deriving DecidableEq, Repr

def root : String := "aoshelper"

def reader : String := "aoshelper.core.dictionary"

def builder : String := "aoshelper.core.normalizer"

def index : String := "aoshelper.services.index_service"

def Row.text (r : Row) : String :=
  gradeName r.grade ++ " | " ++ r.source ++ " | " ++ r.message

end SwitchLexicon.Journal
