import SwitchLexicon.Text.Digit
import SwitchLexicon.Text.Printable
import SwitchLexicon.Text.Surrogate

/-!
A text between quotes, as messages show it. Single quotes are used unless the text has one and no
double quote; what is not printable is escaped by its code.
-/
namespace SwitchLexicon.Text

def singleQuote : Char := Char.ofNat 0x27

def doubleQuote : Char := Char.ofNat 0x22

def quoteFor (cs : List Char) : Char :=
  if cs.contains singleQuote && !cs.contains doubleQuote then doubleQuote else singleQuote

def numericEscape (n : Nat) : List Char :=
  if n < 0x100 then '\\' :: 'x' :: hexDigits 2 n
  else if n < 0x10000 then '\\' :: 'u' :: hexDigits 4 n
  else '\\' :: 'U' :: hexDigits 8 n

def quotedChar (quote c : Char) : List Char :=
  if c = quote || c = '\\' then ['\\', c]
  else if c = '\t' then ['\\', 't']
  else if c = '\n' then ['\\', 'n']
  else if c = '\r' then ['\\', 'r']
  else
    match surrogate? c with
    | some n => numericEscape n
    | none => if isPrintable c then [c] else numericEscape c.toNat

def quoted (s : String) : String :=
  let quote := quoteFor s.toList
  String.ofList (quote :: s.toList.flatMap (quotedChar quote) ++ [quote])

end SwitchLexicon.Text
