import Montage.Json.Value
import Montage.Number.Notation
import Montage.Text.Quoted

/-!
# Writing JSON

One line without blanks. Control characters, lone surrogates and the two characters that would
end or break a string are escaped, everything else stands for itself.
-/
namespace Montage.Json

def escapeChar (c : Char) : List Char :=
  if c = '\x22' then ['\\', '\x22']
  else if c = '\\' then ['\\', '\\']
  else if c = '\n' then ['\\', 'n']
  else if c.toNat < 0x20 || c.toNat = 0x7f then '\\' :: 'u' :: Text.hex 4 c.toNat
  else [c]

def escapeLetter : Text.Letter → List Char
  | .char c => escapeChar c
  | .surrogate unit => '\\' :: 'u' :: Text.hex 4 (Text.surrogateBase + unit)

def writeString (text : String) : String :=
  String.ofList ('\x22' :: (Text.letters text).flatMap escapeLetter ++ ['\x22'])

mutual

def write : Json → String
  | null => "null"
  | bool b => if b then "true" else "false"
  | int n => toString n
  | float x => x.text
  | text s => writeString s
  | arr items => "[" ++ String.intercalate "," (writeItems items) ++ "]"
  | obj fields => "\x7b" ++ String.intercalate "," (writeFields fields) ++ "\x7d"

def writeItems : List Json → List String
  | [] => []
  | item :: rest => write item :: writeItems rest

def writeFields : Fields → List String
  | [] => []
  | (key, value) :: rest => (writeString key ++ ":" ++ write value) :: writeFields rest

end

end Montage.Json
