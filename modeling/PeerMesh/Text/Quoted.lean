import PeerMesh.Text.Visible

/-! Quoted text, as error messages and log lines show strings that came from elsewhere: in double
quotes, with an escape for the quote, the backslash and everything a reader could not see. -/

namespace PeerMesh.Text
set_option autoImplicit false

/-- How one character is written between quotes. An apostrophe stands for itself. -/
def escape (c : Char) : List Char :=
  match c with
  | '\x00' => ['\\', '0']
  | '\t' => ['\\', 't']
  | '\n' => ['\\', 'n']
  | '\r' => ['\\', 'r']
  | '"' => ['\\', '"']
  | '\\' => ['\\', '\\']
  | _ => if isVisible c then [c] else "\\u\x7b".toList ++ Nat.toDigits 16 c.toNat ++ "\x7d".toList

def quoted (s : String) : String := String.ofList ('"' :: (s.toList.flatMap escape ++ ['"']))

end PeerMesh.Text
