import CertKeeper.Bytes
import CertKeeper.Text.Visible

/-!
# Quoted text

Text as it stands in messages: between double quotes, with the quote, the backslash and the usual
controls behind a backslash and every other character that is not visible as its code point.
-/

namespace CertKeeper.Text.Quoted

def escapeChar (c : Char) : List Char :=
  match c with
  | '"' => ['\\', '"']
  | '\\' => ['\\', '\\']
  | '\n' => ['\\', 'n']
  | '\r' => ['\\', 'r']
  | '\t' => ['\\', 't']
  | '\x00' => ['\\', '0']
  | c =>
    if isVisible c then [c]
    else ['\\', 'u', '\x7b'] ++ Nat.toDigits 16 c.toNat ++ ['\x7d']

def quote (s : String) : String :=
  String.ofList (['"'] ++ s.toList.flatMap escapeChar ++ ['"'])

end CertKeeper.Text.Quoted
