/-! Values as they are shown: a word, a name with arguments, or a name with fields. A
value has an inline form on one line and a block form with one argument or field a line. -/

namespace Timers

inductive Shown where
  | word (text : String)
  | tuple (name : String) (arguments : List Shown)
  | record (name : String) (fields : List (String × Shown))

namespace Shown

def ofOption (value : Option Shown) : Shown :=
  match value with
  | none => .word "None"
  | some value => .tuple "Some" [value]

def ofNat (value : Nat) : Shown := .word (toString value)

def ofBool (value : Bool) : Shown := .word (if value then "true" else "false")

mutual

def inlineText : Shown → String
  | .word text => text
  | .tuple name arguments => name ++ "(" ++ ", ".intercalate (inlineArguments arguments) ++ ")"
  | .record name fields => name ++ " \x7b " ++ ", ".intercalate (inlineFields fields) ++ " \x7d"

def inlineArguments : List Shown → List String
  | [] => []
  | argument :: rest => argument.inlineText :: inlineArguments rest

def inlineFields : List (String × Shown) → List String
  | [] => []
  | (name, value) :: rest => (name ++ ": " ++ value.inlineText) :: inlineFields rest

end

/-- Four blanks in front of every line that is begun, an empty one too. -/
def indentLines (startsLine : Bool) : List Char → List Char
  | [] => []
  | char :: rest =>
    let shifted := char :: indentLines (char == '\n') rest
    if startsLine then ' ' :: ' ' :: ' ' :: ' ' :: shifted else shifted

def indent (text : String) : String := String.ofList (indentLines true text.toList)

mutual

def blockText : Shown → String
  | .word text => text
  | .tuple name arguments => name ++ "(\n" ++ blockArguments arguments ++ ")"
  | .record name fields => name ++ " \x7b\n" ++ blockFields fields ++ "\x7d"

def blockArguments : List Shown → String
  | [] => ""
  | argument :: rest => indent (argument.blockText ++ ",\n") ++ blockArguments rest

def blockFields : List (String × Shown) → String
  | [] => ""
  | (name, value) :: rest =>
    indent (name ++ ": " ++ value.blockText ++ ",\n") ++ blockFields rest

end

end Shown

end Timers
