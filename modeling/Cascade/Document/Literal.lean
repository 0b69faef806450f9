-- SUMMARY: The text of a document inside a message: quoted texts, numbers, and bracketed lists and records on one line.
import Cascade.Document.Basic
import Cascade.Number.Layout
import Cascade.Text.Quoted

/-! # Literals

`Document.literal` is the text by which messages quote a document;
`Document.plain` is the same except that a text stands for itself. -/

namespace Cascade.Document

mutual
/-- The text of a document, with its texts quoted. -/
def literal : Document → String
  | .null => "None"
  | .bool b => if b then "True" else "False"
  | .int n => integerText n
  | .float x => floatText x
  | .str s => Text.quoted s
  | .list items => "[" ++ ", ".intercalate (literals items) ++ "]"
  | .dict fields => "\x7b" ++ ", ".intercalate (fieldLiterals fields) ++ "\x7d"

def literals : List Document → List String
  | [] => []
  | d :: ds => literal d :: literals ds

/-- The literals of a record's fields, each after its key. -/
def fieldLiterals : List (String × Document) → List String
  | [] => []
  | (k, d) :: rest => (Text.quoted k ++ ": " ++ literal d) :: fieldLiterals rest
end

/-- The text of a document; a text stands for itself. -/
def plain : Document → String
  | .str s => s
  | d => literal d

end Cascade.Document
