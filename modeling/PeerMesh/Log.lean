import PeerMesh.Text.Quoted

/-! Log records: a level, the part of the program that speaks, a message and named values. -/

namespace PeerMesh.Log
set_option autoImplicit false

/-- How important a record is, from the most to the least. -/
inductive Level
  | error
  | warn
  | info
  | debug
  | trace
  deriving DecidableEq

namespace Level

def name : Level → String
  | error => "ERROR"
  | warn => "WARN"
  | info => "INFO"
  | debug => "DEBUG"
  | trace => "TRACE"

def rank : Level → Nat
  | error => 1
  | warn => 2
  | info => 3
  | debug => 4
  | trace => 5

end Level

/-- A value in a record. A line of the log shows text as it is or in quotes. -/
inductive Value
  | number (n : Nat)
  | plain (s : String)
  | quoted (s : String)
  deriving DecidableEq

def Value.text : Value → String
  | number n => toString n
  | plain s => s
  | quoted s => Text.quoted s

structure Record where
  level : Level
  /-- The part of the program that speaks. -/
  target : String
  message : String
  fields : List (String × Value)
  deriving DecidableEq

def Record.line (r : Record) : String :=
  r.fields.foldl (fun line field => line ++ " " ++ field.1 ++ "=" ++ field.2.text)
    (r.level.name ++ " " ++ r.target ++ ": " ++ r.message)

end PeerMesh.Log
