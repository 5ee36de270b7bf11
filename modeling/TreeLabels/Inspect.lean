/-
Inspection.  Every value has a text on one line that shows what it is made of:
records with their fields by name, lists in brackets, texts in quotes.  Between
quotes, quotes, backslashes and the control characters of ASCII are written as
escapes, everything else as it is.
-/
import TreeLabels.Labeller

namespace TreeLabels

namespace Inspect

/-- Control characters of ASCII, among them the one behind the printable block. -/
def isControl (c : Char) : Bool :=
  c.toNat < 32 || c.toNat == 127

/-- How one character is written between quotes. -/
def quotedChar : Char → List Char
  | '\x00' => ['\\', '0']
  | '\t' => ['\\', 't']
  | '\n' => ['\\', 'n']
  | '\r' => ['\\', 'r']
  | '"' => ['\\', '"']
  | '\\' => ['\\', '\\']
  | c =>
      if isControl c then
        ['\\', 'u', '{'] ++ hexadecimal c.toNat ++ ['}']
      else
        [c]

/-- A text between quotes. -/
def quoted (text : String) : String :=
  String.ofList ('"' :: (text.toList.flatMap quotedChar ++ ['"']))

@[simp] theorem toList_quoted (text : String) :
    (quoted text).toList =
      '"' :: (text.toList.flatMap quotedChar ++ ['"']) :=
  String.toList_ofList

/-- Items in brackets, with commas between them. -/
def list (items : List String) : String :=
  "[" ++ ", ".intercalate items ++ "]"

/-- One field of a record. -/
def field (name value : String) : String :=
  name ++ ": " ++ value

/-- A record with its fields in braces. -/
def record (name : String) (fields : List String) : String :=
  name ++ " \x7b " ++ ", ".intercalate fields ++ " \x7d"

/-- A value that may be absent. -/
def optional : Option String → String
  | none => "None"
  | some value => "Some(" ++ value ++ ")"

def bool : Bool → String
  | false => "false"
  | true => "true"

end Inspect

open Inspect

def NodeKind.inspect : NodeKind → String
  | rule index alt =>
      record "Rule"
        [field "rule_index" (decimal index.toNat),
          field "alt_number" (optional (alt.map fun n => decimal n.toNat))]
  | terminal text => record "Terminal" [field "text" (quoted text)]
  | error text => record "Error" [field "text" (quoted text)]

def NameTable.inspect (table : NameTable) : String :=
  record "RuleNames" [field "names" (list (table.toList.map quoted))]

def TokenWhitespace.inspect : TokenWhitespace → String
  | keep => "Keep"
  | escape spaces => record "Escape" [field "spaces" (bool spaces)]

def NameResolver.inspect (resolver : NameResolver) : String :=
  record "RuleNameResolver" [field "whitespace" resolver.whitespace.inspect]

def Labeller.inspect (labeller : Labeller NameResolver) : String :=
  record "RuleTreeTextProvider"
    [field "rule_names" labeller.names.inspect,
      field "resolver" labeller.resolver.inspect]

end TreeLabels
