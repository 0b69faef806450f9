-- SUMMARY: Reading a document from text: objects, arrays, strings, numbers of any size, and the three words for floats that are not finite.
import Cascade.Document.Basic
import Cascade.Text.Digit

/-! # Reading documents

The text is JSON, with three more words for floats: `NaN`, `Infinity` and
`-Infinity`. A number without point and exponent is an integer of any size;
any other is rounded to the nearest float. A field that is repeated keeps its
first place and its last value. Texts hold no unescaped control characters. -/

namespace Cascade.Document

namespace Reader

/-- What a reading step yields: a result and the text after it. -/
abbrev Step (α : Type) := Option (α × List Char)

/-- The text after the white space in front. -/
def skip (cs : List Char) : List Char :=
  cs.dropWhile fun c => c = ' ' || c = '\t' || c = '\n' || c = '\r'

/-- The text after a word, if the word is in front. -/
def after? (word : String) (cs : List Char) : Option (List Char) :=
  let w := word.toList
  if cs.take w.length = w then some (cs.drop w.length) else none

/-! ## Numbers -/

def digits (cs : List Char) : List Char × List Char :=
  (cs.takeWhile Char.isDigit, cs.dropWhile Char.isDigit)

/-- A fraction: a point and at least one digit. -/
def fraction : List Char → List Char × List Char
  | '.' :: cs => if (digits cs).1 = [] then ([], '.' :: cs) else digits cs
  | cs => ([], cs)

/-- An exponent: a letter, a sign or none, and at least one digit. -/
def exponent (cs : List Char) : Option Int × List Char :=
  match cs with
  | c :: rest =>
    if c = 'e' || c = 'E' then
      let (negative, body) :=
        match rest with
        | '-' :: body => (true, body)
        | '+' :: body => (false, body)
        | body => (false, body)
      let (ds, tail) := digits body
      if ds = [] then (none, cs)
      else
        let n := Text.digitsValue ds
        (some (if negative then -(n : Int) else n), tail)
    else (none, cs)
  | [] => (none, [])

/-- A number without its sign: an integer part without a superfluous zero,
    then a fraction and an exponent, either of which makes it a float. -/
def unsigned (negative : Bool) (cs : List Char) : Step Document :=
  let (whole, tail) :=
    match cs with
    | '0' :: rest => (['0'], rest)
    | _ => digits cs
  if whole = [] then none
  else
    let (fractional, tail) := fraction tail
    let (power?, tail) := exponent tail
    let n := Text.digitsValue (whole ++ fractional)
    if fractional = [] && power? = none then
      some (.int (if negative then -(n : Int) else n), tail)
    else
      let x := floatOfDecimal n (power?.getD 0 - fractional.length)
      some (.float (if negative then -x else x), tail)

/-! ## Texts -/

/-- The number that four hexadecimal digits write. -/
def hex4? (a b c d : Char) : Option Nat :=
  [a, b, c, d].foldl (fun n? ch => n?.bind fun n =>
    if ch.isDigit then some (16 * n + (ch.toNat - '0'.toNat))
    else if 'a' ≤ ch && ch ≤ 'f' then some (16 * n + (ch.toNat - 'a'.toNat + 10))
    else if 'A' ≤ ch && ch ≤ 'F' then some (16 * n + (ch.toNat - 'A'.toNat + 10))
    else none) (some 0)

/-- The character of a code unit; half of a surrogate pair stands for no
    character and becomes the replacement character. -/
def unitChar (n : Nat) : Char :=
  if 0xd800 ≤ n && n < 0xe000 then Char.ofNat 0xfffd else Char.ofNat n

/-- The character that a one-letter escape stands for. -/
def shortEscape? : Char → Option Char
  | '"' => some '"'
  | '\\' => some '\\'
  | '/' => some '/'
  | 'b' => some '\x08'
  | 'f' => some '\x0c'
  | 'n' => some '\n'
  | 'r' => some '\r'
  | 't' => some '\t'
  | _ => none

/-- The rest of a text after its opening quote, in front of what has been read
    of it in reverse. -/
def textBody (read : List Char) : List Char → Step String
  | '"' :: cs => some (String.ofList read.reverse, cs)
  | '\\' :: 'u' :: a :: b :: c :: d :: '\\' :: 'u' :: e :: f :: g :: h :: cs =>
    match hex4? a b c d, hex4? e f g h with
    | some hi, some lo =>
      if 0xd800 ≤ hi && hi < 0xdc00 && 0xdc00 ≤ lo && lo < 0xe000 then
        let n := 0x10000 + (hi - 0xd800) * 0x400 + (lo - 0xdc00)
        textBody (Char.ofNat n :: read) cs
      else textBody (unitChar hi :: read) ('\\' :: 'u' :: e :: f :: g :: h :: cs)
    | some n, none =>
      textBody (unitChar n :: read) ('\\' :: 'u' :: e :: f :: g :: h :: cs)
    | none, _ => none
  | '\\' :: 'u' :: a :: b :: c :: d :: cs =>
    match hex4? a b c d with
    | some n => textBody (unitChar n :: read) cs
    | none => none
  | '\\' :: c :: cs =>
    match shortEscape? c with
    | some ch => textBody (ch :: read) cs
    | none => none
  | c :: cs => if c.toNat < 0x20 then none else textBody (c :: read) cs
  | [] => none
termination_by cs => cs.length

/-! ## Nested documents -/

/-- The words that stand for a document. -/
def words : List (String × Document) :=
  [ ("null", .null), ("true", .bool true), ("false", .bool false),
    ("NaN", .float (0.0 / 0.0)), ("Infinity", .float (1.0 / 0.0)),
    ("-Infinity", .float (-1.0 / 0.0)) ]

/-- A word in front of the text. -/
def word? (cs : List Char) : Step Document :=
  words.findSome? fun (w, d) => (after? w cs).map fun rest => (d, rest)

mutual
/-- One document. Every step either consumes a character or enters the
    brackets just read, so twice the length of the text is fuel enough. -/
def value : Nat → List Char → Step Document
  | 0, _ => none
  | fuel + 1, cs =>
    match skip cs with
    | '"' :: rest => (textBody [] rest).map fun (s, tail) => (.str s, tail)
    | '[' :: rest =>
      match skip rest with
      | ']' :: tail => some (.list [], tail)
      | _ => items fuel [] rest
    | '\x7b' :: rest =>
      match skip rest with
      | '\x7d' :: tail => some (.dict [], tail)
      | _ => fields fuel [] rest
    | cs' =>
      match word? cs' with
      | some found => some found
      | none =>
        match cs' with
        | '-' :: rest => unsigned true rest
        | _ => unsigned false cs'

/-- The items of a list up to its closing bracket, the read ones in reverse. -/
def items : Nat → List Document → List Char → Step Document
  | 0, _, _ => none
  | fuel + 1, read, cs =>
    match value fuel cs with
    | none => none
    | some (d, tail) =>
      match skip tail with
      | ',' :: rest => items fuel (d :: read) rest
      | ']' :: rest => some (.list (d :: read).reverse, rest)
      | _ => none

def fields : Nat → List (String × Document) → List Char → Step Document
  | 0, _, _ => none
  | fuel + 1, read, cs =>
    match skip cs with
    | '"' :: rest =>
      match textBody [] rest with
      | none => none
      | some (key, tail) =>
        match skip tail with
        | ':' :: rest =>
          match value fuel rest with
          | none => none
          | some (d, tail) =>
            match skip tail with
            | ',' :: rest => fields fuel (putField key d read) rest
            | '\x7d' :: rest => some (.dict (putField key d read), rest)
            | _ => none
        | _ => none
    | _ => none
end

end Reader

/-- The document that a text writes; `none` if it writes none, or has more
    after one. -/
def read? (text : String) : Option Document :=
  let cs := text.toList
  match Reader.value (2 * cs.length + 2) cs with
  | some (d, rest) => if Reader.skip rest = [] then some d else none
  | none => none

end Cascade.Document
