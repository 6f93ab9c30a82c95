namespace JackTokens

/-- The reserved words of Jack. -/
inductive Keyword where
  | class_
  | constructor_
  | function_
  | method_
  | field_
  | static_
  | var_
  | int_
  | char_
  | boolean_
  | void_
  | true_
  | false_
  | null_
  | this_
  | let_
  | do_
  | if_
  | else_
  | while_
  | return_
deriving DecidableEq

namespace Keyword

def all : List Keyword :=
  [class_, constructor_, function_, method_, field_, static_, var_, int_, char_, boolean_, void_,
    true_, false_, null_, this_, let_, do_, if_, else_, while_, return_]

def spelling : Keyword → String
  | class_ => "class"
  | constructor_ => "constructor"
  | function_ => "function"
  | method_ => "method"
  | field_ => "field"
  | static_ => "static"
  | var_ => "var"
  | int_ => "int"
  | char_ => "char"
  | boolean_ => "boolean"
  | void_ => "void"
  | true_ => "true"
  | false_ => "false"
  | null_ => "null"
  | this_ => "this"
  | let_ => "let"
  | do_ => "do"
  | if_ => "if"
  | else_ => "else"
  | while_ => "while"
  | return_ => "return"

/-- The keyword that `word` spells, letter case included. -/
def ofSpelling? (word : String) : Option Keyword :=
  all.find? fun keyword => keyword.spelling == word

theorem ofSpelling?_spelling (keyword : Keyword) :
    ofSpelling? keyword.spelling = some keyword := by
  cases keyword <;> decide

end Keyword

end JackTokens
